import FacLpr.Application.TemporalPlateConsensus
import FacLpr.Foundations.SlidingWindow

/-!
# Application/ConsensusWindow — the history of the consensus, over whole runs

A run of the consensus is a list of calls.  Its history is a window on the observations since the
last reset, provided the time to live survives its conversion (`observe_runHistory`), and the map of
a call holds the aggregate of the votes for each plate (`find?_aggregatesOf`).  A stable result is
made of the best of these votes, so it is degraded exactly when that one is
(`degraded_preserved_iff`).
-/

namespace FacLpr

namespace TemporalPlateConsensus

variable {F D : Type}

/-! ## Runs -/

inductive ConsensusCall (F D : Type) where
  | observe (frameResult : PlateRecognitionResult F D) (timestamp : ℤ)
  | reset

/-- The observations since the last reset. -/
def sinceReset (calls : List (ConsensusCall F D)) : List (Observation F D) :=
  calls.foldl (fun observed call =>
    match call with
    | .observe frameResult timestamp => observed ++ [⟨frameResult, timestamp⟩]
    | .reset => []) []

/-- In order of time. -/
def InOrder (observed : List (Observation F D)) : Prop :=
  observed.Pairwise fun o o' => o.timestamp ≤ o'.timestamp

theorem InOrder.of_concat {observed : List (Observation F D)} {new : Observation F D}
    (h : InOrder (observed ++ [new])) :
    InOrder observed ∧ ∀ o ∈ observed, o.timestamp ≤ new.timestamp := by
  obtain ⟨hordered, -, hlast⟩ := List.pairwise_append.mp h
  exact ⟨hordered, fun o ho => hlast o ho new (List.mem_singleton_self new)⟩

/-! ## The window -/

/-- No older than the time to live. -/
def isFresh (ttl now : ℤ) (o : Observation F D) : Bool :=
  decide (now - o.timestamp ≤ milliseconds ttl)

/-- The observations among the last `maxHistory` ones that are no older than the time to live. -/
def window [Scalar F] (config : TemporalPlateConsensusConfig F) (observed : List (Observation F D))
    (now : ℤ) : List (Observation F D) :=
  (lastN config.maxHistory observed).filter (isFresh config.historyTtl now)

variable [Scalar F]

/-- The history after a run. -/
def runHistory (c : Config F) (calls : List (ConsensusCall F D)) : List (Observation F D) :=
  calls.foldl (fun history call =>
    match call with
    | .observe frameResult timestamp => (observe c history frameResult timestamp).1
    | .reset => []) []

/-- The default configuration with the shortest time to live that wraps. -/
def overlongConfig : Config ℚ := ⟨{ historyTtl := 9223372036855 }, by decide +kernel⟩

/-- When a frame is too old for what the conversion made of the time to live, and not for the time
to live. -/
def tooLate (ttl : ℤ) : ℤ := max 0 (nanoseconds ttl + 1)

theorem tooLate_le {ttl : ℤ} (hpositive : 0 < ttl) (hwraps : longestDuration < ttl) :
    tooLate ttl ≤ milliseconds ttl := by
  have hlt := nanoseconds_lt hwraps
  refine max_le ?_ hlt
  simp only [milliseconds]
  omega

omit [Scalar F] in
/-- **Expiry forgets what it should keep**: at that time nothing of time zero is left. -/
theorem expire_tooLate (ttl : ℤ) {old : List (Observation F D)} (h : ∀ o ∈ old, o.timestamp = 0) :
    expire ttl (tooLate ttl) old = [] := by
  induction old with
  | nil => rfl
  | cons oldest rest ih =>
    have hzero := h oldest List.mem_cons_self
    have hlate : ¬ (tooLate ttl < oldest.timestamp ∨
        tooLate ttl - oldest.timestamp ≤ nanoseconds ttl) := by
      simp only [tooLate, hzero]
      omega
    rw [expire, if_neg hlate]
    exact ih fun o ho => h o (List.mem_cons_of_mem _ ho)

/-- A call at that time starts the history anew. -/
theorem observe_tooLate (c : Config F) {history : List (Observation F D)}
    (h : ∀ o ∈ history, o.timestamp = 0) (frameResult : PlateRecognitionResult F D) :
    (observe c history frameResult (tooLate c.config.historyTtl)).1 =
      [⟨frameResult, tooLate c.config.historyTtl⟩] := by
  have hroom : [Observation.mk frameResult (tooLate c.config.historyTtl)].length ≤
      c.config.maxHistory := Nat.one_le_iff_ne_zero.mpr c.maxHistory_ne_zero
  change lastN c.config.maxHistory (expire _ _ history ++ [_]) = _
  rw [expire_tooLate _ h, List.nil_append, lastN_of_length_le hroom]

/-! ## The votes -/

/-- The results of the window that vote. -/
def votes (config : TemporalPlateConsensusConfig F) (window : List (Observation F D)) :
    List (PlateRecognitionResult F D) :=
  (window.map Observation.result).filter (isEligible config)

/-- The votes for a plate. -/
def votesFor (votes : List (PlateRecognitionResult F D)) (plate : Text) :
    List (PlateRecognitionResult F D) :=
  votes.filter fun vote => vote.plate == plate

omit [Scalar F] in
theorem mem_votesFor {votes : List (PlateRecognitionResult F D)} {plate : Text}
    {vote : PlateRecognitionResult F D} :
    vote ∈ votesFor votes plate ↔ vote ∈ votes ∧ vote.plate = plate := by
  rw [votesFor, List.mem_filter, beq_iff_eq]

/-- The earliest of the votes of greatest confidence. -/
def IsBest (votes : List (PlateRecognitionResult F D)) (best : PlateRecognitionResult F D) : Prop :=
  ∃ before after, votes = before ++ best :: after ∧
    (∀ vote ∈ before, vote.confidence < best.confidence) ∧
    ∀ vote ∈ after, ¬ best.confidence < vote.confidence

/-- The aggregate of the votes for one plate. -/
def aggregate (votes : List (PlateRecognitionResult F D)) : Option (Aggregate F D) :=
  votes.foldl (fun stored vote => some (Aggregate.add vote stored)) none

/-- **The map holds the aggregate of the votes for each plate.** -/
theorem find?_aggregatesOf (config : TemporalPlateConsensusConfig F)
    (window : List (Observation F D)) (plate : Text) :
    (aggregatesOf config window).find? plate =
      aggregate (votesFor (votes config window) plate) := by
  have hloop := OrdMap.find?_foldl_upsert_if (fun o : Observation F D => isEligible config o.result)
    (fun o => o.result.plate) (fun o => Aggregate.add o.result) plate window OrdMap.empty
  rw [aggregatesOf, hloop, OrdMap.find?_empty, aggregate, votesFor, votes, List.filter_filter,
    List.filter_map, List.foldl_map]
  congr 1
  exact List.filter_congr fun o _ => Bool.and_comm _ _

/-- **An aggregate** has the sum of the confidences, the number of votes and the best of them. -/
theorem aggregate_eq [LawfulScalar F] {votes : List (PlateRecognitionResult F D)} (hne : votes ≠ [])
    (hfinite : ∀ vote ∈ votes, Scalar.isFinite vote.confidence = true) :
    ∃ best, IsBest votes best ∧ aggregate votes =
      some ⟨votes.foldl (fun total vote => total + vote.confidence) 0, votes.length,
        some best⟩ := by
  induction votes using List.reverseRecOn with
  | nil => exact absurd rfl hne
  | append_singleton votes vote ih =>
    have hstep : aggregate (votes ++ [vote]) = some (Aggregate.add vote (aggregate votes)) :=
      List.foldl_append
    rw [hstep, List.foldl_append, List.length_append]
    rcases eq_or_ne votes [] with rfl | hvotes
    · exact ⟨vote, ⟨[], [], rfl, by simp, by simp⟩, rfl⟩
    · have hbefore := fun v hv => hfinite v (List.mem_append_left _ hv)
      obtain ⟨best, ⟨before, after, rfl, hbelow, habove⟩, haggregate⟩ := ih hvotes hbefore
      rw [haggregate]
      by_cases hlt : best.confidence < vote.confidence
      · refine ⟨vote, ⟨before ++ best :: after, [], rfl, fun v hv => ?_, by simp⟩, ?_⟩
        · rcases List.mem_append.mp hv with hv | hv
          · exact LawfulScalar.lt_trans (hbelow v hv) hlt
          · rcases List.mem_cons.mp hv with rfl | hv
            · exact hlt
            · exact LawfulScalar.lt_of_not_lt
                (hbefore v (List.mem_append_right _ (List.mem_cons_of_mem _ hv)))
                (hbefore best (List.mem_append_right _ List.mem_cons_self)) (habove v hv) hlt
        · simp [Aggregate.add, hlt]
      · refine ⟨best, ⟨before, after ++ [vote], by simp, hbelow, fun v hv => ?_⟩, ?_⟩
        · rcases List.mem_append.mp hv with hv | hv
          · exact habove v hv
          · rw [List.mem_singleton.mp hv]
            exact hlt
        · simp [Aggregate.add, hlt]

theorem IsBest.mem {votes : List (PlateRecognitionResult F D)}
    {best : PlateRecognitionResult F D} (h : IsBest votes best) : best ∈ votes := by
  obtain ⟨before, after, rfl, -, -⟩ := h
  exact List.mem_append_right _ List.mem_cons_self

/-- There is one best vote. -/
theorem IsBest.unique {votes : List (PlateRecognitionResult F D)}
    {best best' : PlateRecognitionResult F D} (h : IsBest votes best) (h' : IsBest votes best') :
    best = best' := by
  obtain ⟨before, after, rfl, hbelow, habove⟩ := h
  obtain ⟨before', after', hvotes, hbelow', habove'⟩ := h'
  rcases List.append_eq_append_iff.mp hvotes with ⟨c, rfl, hc⟩ | ⟨c, rfl, hc⟩
  · cases c with
    | nil => exact (List.cons.inj hc).1
    | cons first c =>
      obtain ⟨rfl, rfl⟩ := List.cons.inj hc
      exact absurd (hbelow' best (List.mem_append_right _ List.mem_cons_self))
        (habove best' (List.mem_append_right _ List.mem_cons_self))
  · cases c with
    | nil => exact (List.cons.inj hc).1.symm
    | cons first c =>
      obtain ⟨rfl, rfl⟩ := List.cons.inj hc
      exact absurd (hbelow best' (List.mem_append_right _ List.mem_cons_self))
        (habove' best (List.mem_append_right _ List.mem_cons_self))

theorem isFinite_of_mem_votes {config : TemporalPlateConsensusConfig F}
    {window : List (Observation F D)} {vote : PlateRecognitionResult F D}
    (h : vote ∈ votes config window) : Scalar.isFinite vote.confidence = true := by
  have heligible := (List.mem_filter.mp h).2
  simp only [isEligible, Bool.not_eq_true', Bool.or_eq_false_iff, Bool.not_eq_false'] at heligible
  exact heligible.1.1.2

/-- **An entry of the map** is the aggregate of the votes for its plate. -/
theorem aggregate_of_mem [LawfulScalar F] {config : TemporalPlateConsensusConfig F}
    {window : List (Observation F D)} {entry : Text × Aggregate F D}
    (h : entry ∈ (aggregatesOf config window).entries) :
    ∃ best, IsBest (votesFor (votes config window) entry.1) best ∧ entry.2 =
      ⟨(votesFor (votes config window) entry.1).foldl (fun total vote => total + vote.confidence) 0,
        (votesFor (votes config window) entry.1).length, some best⟩ := by
  obtain ⟨plate, stored⟩ := entry
  have hfind := (find?_aggregatesOf config window plate).symm.trans (OrdMap.mem_entries.mp h)
  have hne : votesFor (votes config window) plate ≠ [] := by
    intro hnil
    rw [hnil] at hfind
    cases hfind
  obtain ⟨best, hbest, haggregate⟩ := aggregate_eq hne fun vote hvote =>
    isFinite_of_mem_votes (mem_votesFor.mp hvote).1
  exact ⟨best, hbest, Option.some.inj (hfind.symm.trans haggregate)⟩

theorem exists_mem_of_vote [LawfulScalar F] {config : TemporalPlateConsensusConfig F}
    {window : List (Observation F D)} {vote : PlateRecognitionResult F D}
    (h : vote ∈ votes config window) :
    ∃ stored, (vote.plate, stored) ∈ (aggregatesOf config window).entries := by
  have hne : votesFor (votes config window) vote.plate ≠ [] :=
    List.ne_nil_of_mem (mem_votesFor.mpr ⟨h, rfl⟩)
  obtain ⟨best, -, haggregate⟩ := aggregate_eq hne fun v hv =>
    isFinite_of_mem_votes (mem_votesFor.mp hv).1
  exact ⟨_, OrdMap.mem_entries.mpr ((find?_aggregatesOf config window vote.plate).trans haggregate)⟩

/-! ## Degradation -/

/-- **A stable result is made of the best vote for its plate.** -/
theorem stableResult_conclude [LawfulScalar F] {config : TemporalPlateConsensusConfig F}
    {window : List (Observation F D)} {stable : PlateRecognitionResult F D}
    (h : (conclude config window).stableResult = some stable) :
    ∃ best, IsBest (votesFor (votes config window) stable.plate) best ∧
      stable = stableResultOf stable.plate stable.confidence best := by
  unfold conclude at h
  split at h
  · cases h
  · rename_i first entries hentries
    simp only at h
    split at h
    · cases h
    · have hmem : ((first :: entries).foldl winnerStep (first, 0)).1 ∈
          (aggregatesOf config window).entries :=
        mem_foldl_winnerStep (hentries ▸ List.mem_cons_self) fun _ he => hentries ▸ he
      obtain ⟨best, hbest, hwinner⟩ := aggregate_of_mem hmem
      simp only at h
      split at h
      · cases h
      · rw [hwinner] at h
        obtain ⟨best', hbest', rfl⟩ := Option.map_eq_some_iff.mp h
        obtain rfl := Option.some.inj hbest'
        exact ⟨best, hbest, rfl⟩

/-- Some of the votes are degraded. -/
def HasDegraded (votes : List (PlateRecognitionResult F D)) : Prop :=
  ∃ vote ∈ votes, vote.degraded = true

/-- The earliest of the votes of greatest confidence is degraded. -/
def BestIsDegraded (votes : List (PlateRecognitionResult F D)) : Prop :=
  ∃ best, IsBest votes best ∧ best.degraded = true

/-- **When the consensus keeps the degraded state.**  After any run, a stable result is degraded
whenever one of the votes for its plate is, exactly when the best of these votes is then
degraded. -/
theorem degraded_preserved_iff [LawfulScalar F] (c : Config F) (calls : List (ConsensusCall F D))
    (frameResult : PlateRecognitionResult F D) (timestamp : ℤ)
    {window : List (Observation F D)} {output : TemporalConsensusResult F D}
    (hobserve : observe c (runHistory c calls) frameResult timestamp = (window, output))
    {stable : PlateRecognitionResult F D} (hstable : output.stableResult = some stable) :
    (HasDegraded (votesFor (votes c.config window) stable.plate) → stable.degraded = true) ↔
      (HasDegraded (votesFor (votes c.config window) stable.plate) →
        BestIsDegraded (votesFor (votes c.config window) stable.plate)) := by
  have hconclude : conclude c.config window = output := by
    have hsnd := observe_snd c (runHistory c calls) frameResult timestamp
    rw [hobserve] at hsnd
    exact hsnd.symm
  rw [← hconclude] at hstable
  obtain ⟨best, hbest, hmade⟩ := stableResult_conclude hstable
  have hdegraded : stable.degraded = best.degraded := by rw [hmade]; rfl
  rw [hdegraded]
  refine imp_congr_right fun _ => ⟨fun h => ⟨best, hbest, h⟩, ?_⟩
  rintro ⟨best', hbest', h⟩
  rwa [hbest.unique hbest']

/-- An accepted frame of one plate. -/
def acceptedFrame (confidence : ℚ) (degraded : Bool) : PlateRecognitionResult ℚ ℚ :=
  { PlateRecognitionResult.default with
    status := .accepted, plate := ascii "34ABC123", confidence, degraded }

theorem stable_after_degraded :
    (observe defaultConfig (runHistory defaultConfig [.observe (acceptedFrame (9 / 10) true) 0])
      (acceptedFrame 1 false) 100).2.stableResult =
        some (stableResultOf (ascii "34ABC123") 1 (acceptedFrame 1 false)) := by
  decide +kernel

/-- The consensus does not keep the degraded state of every vote. -/
theorem not_degraded_preserved : ¬ ∀ (c : Config ℚ) (calls : List (ConsensusCall ℚ ℚ))
    (frameResult : PlateRecognitionResult ℚ ℚ) (timestamp : ℤ) (window : List (Observation ℚ ℚ))
    (output : TemporalConsensusResult ℚ ℚ) (stable : PlateRecognitionResult ℚ ℚ),
      observe c (runHistory c calls) frameResult timestamp = (window, output) →
      output.stableResult = some stable →
      HasDegraded (votesFor (votes c.config window) stable.plate) → stable.degraded = true := by
  intro hclaim
  have hvote : ∃ vote ∈ votesFor (votes defaultConfig.config (observe defaultConfig
      (runHistory defaultConfig [.observe (acceptedFrame (9 / 10) true) 0])
      (acceptedFrame 1 false) 100).1) (ascii "34ABC123"), vote.degraded = true := by
    decide +kernel
  have hdegraded := hclaim defaultConfig [.observe (acceptedFrame (9 / 10) true) 0]
    (acceptedFrame 1 false) 100 _ _ _ rfl stable_after_degraded hvote
  cases hdegraded

theorem degraded_preserved_afterClean : ∃ stable,
    (observe defaultConfig (runHistory defaultConfig [.observe (acceptedFrame (9 / 10) false) 0])
      (acceptedFrame 1 true) 100).2.stableResult = some stable ∧ stable.degraded = true := by
  have hstable : (observe defaultConfig
      (runHistory defaultConfig [.observe (acceptedFrame (9 / 10) false) 0])
      (acceptedFrame 1 true) 100).2.stableResult =
        some (stableResultOf (ascii "34ABC123") 1 (acceptedFrame 1 true)) := by
    decide +kernel
  have hvotes : votesFor (votes defaultConfig.config (observe defaultConfig
      (runHistory defaultConfig [.observe (acceptedFrame (9 / 10) false) 0])
      (acceptedFrame 1 true) 100).1) (ascii "34ABC123") =
        [acceptedFrame (9 / 10) false, acceptedFrame 1 true] := by
    decide +kernel
  have hbest : IsBest [acceptedFrame (9 / 10) false, acceptedFrame 1 true] (acceptedFrame 1 true) :=
    ⟨[acceptedFrame (9 / 10) false], [], rfl, by decide +kernel, by simp⟩
  have hiff := degraded_preserved_iff defaultConfig [.observe (acceptedFrame (9 / 10) false) 0]
    (acceptedFrame 1 true) 100 Prod.mk.eta.symm hstable
  refine ⟨_, hstable, hiff.mpr (fun _ => ?_) ?_⟩
  · exact hvotes ▸ ⟨_, hbest, rfl⟩
  · exact hvotes ▸ ⟨_, hbest.mem, rfl⟩

end TemporalPlateConsensus

end FacLpr
