import FacLpr.Application.TemporalPlateConsensus
import Mathlib.Data.List.Chain

/-!
# Application/StablePlateEventFilter — duplicate suppression of stable results

The filter remembers the last emission only.  So an emission is kept apart from the one before it
when both are of one plate (`emissions_chain`), and another plate in between re-arms it
(`emits_again_after_other_plate`).
-/

namespace FacLpr

structure StablePlateEventFilterConfig where
  duplicateCooldown : ℤ := 2000

/-- The checks of the constructor. -/
def StablePlateEventFilterConfig.check (config : StablePlateEventFilterConfig) :
    Except EngineError Unit := do
  require (0 ≤ config.duplicateCooldown)
    (configurationError "duplicate_cooldown cannot be negative")
  require (config.duplicateCooldown ≤ 24 * 60 * 60 * 1000)
    (configurationError "duplicate_cooldown cannot exceed 24 hours")

structure StablePlateEventFilterStats where
  emitted : ℕ
  suppressed : ℕ
  deriving DecidableEq

structure StablePlateEventFilterResult (F D : Type) where
  emittedResult : Option (PlateRecognitionResult F D)
  duplicateSuppressed : Bool

/-- The state of a filter. -/
structure StablePlateEventFilter (F D : Type) where
  lastEmitted : Option (PlateRecognitionResult F D)
  lastEmittedAt : Option ℤ
  stats : StablePlateEventFilterStats

namespace StablePlateEventFilter

variable {F D : Type}

/-- The state the constructor and `reset` leave. -/
def initial : StablePlateEventFilter F D := ⟨none, none, ⟨0, 0⟩⟩

/-- The last emission is of this plate and less than the cooldown ago. -/
def insideCooldown (config : StablePlateEventFilterConfig) (filter : StablePlateEventFilter F D)
    (plate : Text) (timestamp : ℤ) : Bool :=
  let samePlate := (filter.lastEmitted.map PlateRecognitionResult.plate) == some plate
  match filter.lastEmittedAt with
  | none => false
  | some emittedAt => samePlate && decide (emittedAt ≤ timestamp) &&
      decide (timestamp - emittedAt < milliseconds config.duplicateCooldown)

/-- `StablePlateEventFilter::observe`. -/
def observe (config : StablePlateEventFilterConfig) (filter : StablePlateEventFilter F D)
    (consensus : TemporalConsensusResult F D) (timestamp : ℤ) :
    StablePlateEventFilter F D × StablePlateEventFilterResult F D :=
  match consensus.stableResult with
  | none => (filter, ⟨none, false⟩)
  | some current =>
      if insideCooldown config filter current.plate timestamp then
        ({ filter with
            stats := { filter.stats with suppressed := filter.stats.suppressed + 1 } },
          ⟨none, true⟩)
      else
        ({ lastEmitted := some current
           lastEmittedAt := some timestamp
           stats := { filter.stats with emitted := filter.stats.emitted + 1 } },
          ⟨some current, false⟩)

/-- An emission: its plate and its time. -/
structure Emission where
  plate : Text
  timestamp : ℤ
  deriving DecidableEq

/-- The emission of one call, if any. -/
def emissionOf (result : StablePlateEventFilterResult F D) (timestamp : ℤ) : Option Emission :=
  result.emittedResult.map fun r => ⟨r.plate, timestamp⟩

/-- The emissions of a run of calls, in order. -/
def emissions (config : StablePlateEventFilterConfig) :
    StablePlateEventFilter F D → List (TemporalConsensusResult F D × ℤ) → List Emission
  | _, [] => []
  | filter, (consensus, timestamp) :: rest =>
      let (next, result) := observe config filter consensus timestamp
      (emissionOf result timestamp).toList ++ emissions config next rest

/-! ## One call -/

/-- **Every stable consensus is counted once**, as emitted or as suppressed. -/
theorem observe_stats (config : StablePlateEventFilterConfig) (filter : StablePlateEventFilter F D)
    (consensus : TemporalConsensusResult F D) (timestamp : ℤ) :
    (observe config filter consensus timestamp).1.stats.emitted +
        (observe config filter consensus timestamp).1.stats.suppressed =
      filter.stats.emitted + filter.stats.suppressed +
        if consensus.stableResult.isSome then 1 else 0 := by
  unfold observe
  split
  · rename_i h
    simp [h]
  · rename_i current h
    split
    · simp only [h, Option.isSome_some, if_true]
      omega
    · simp only [h, Option.isSome_some, if_true]
      omega

/-- Only a stable result is emitted, as it is. -/
theorem stableResult_of_emitted {config : StablePlateEventFilterConfig}
    {filter : StablePlateEventFilter F D} {consensus : TemporalConsensusResult F D} {timestamp : ℤ}
    {event : PlateRecognitionResult F D}
    (h : (observe config filter consensus timestamp).2.emittedResult = some event) :
    consensus.stableResult = some event := by
  unfold observe at h
  split at h
  · cases h
  · rename_i current hcurrent
    split at h
    · cases h
    · rw [hcurrent]
      exact h

/-- The filter remembers this emission as its last. -/
def Remembers (filter : StablePlateEventFilter F D) (last : Option Emission) : Prop :=
  filter.lastEmitted.map PlateRecognitionResult.plate = last.map Emission.plate ∧
    filter.lastEmittedAt = last.map Emission.timestamp

/-- **One call** keeps what the filter remembers up to date, and emits the plate of the last
emission only when the cooldown is over. -/
theorem observe_spec (config : StablePlateEventFilterConfig) {filter : StablePlateEventFilter F D}
    {last : Option Emission} (hlast : filter.Remembers last)
    (consensus : TemporalConsensusResult F D) {timestamp : ℤ}
    (htime : ∀ e ∈ last, e.timestamp ≤ timestamp) :
    ((observe config filter consensus timestamp).1.Remembers
      ((emissionOf (observe config filter consensus timestamp).2 timestamp).or last)) ∧
    ∀ e ∈ emissionOf (observe config filter consensus timestamp).2 timestamp,
      e.timestamp = timestamp ∧ ∀ l ∈ last, l.plate = e.plate →
        milliseconds config.duplicateCooldown ≤ timestamp - l.timestamp := by
  unfold observe
  split
  · exact ⟨hlast, fun e he => by cases he⟩
  · rename_i current hcurrent
    split
    · exact ⟨hlast, fun e he => by cases he⟩
    · rename_i hoff
      refine ⟨⟨rfl, rfl⟩, fun e he => ?_⟩
      obtain rfl : ⟨current.plate, timestamp⟩ = e := Option.some.inj he
      refine ⟨rfl, fun l hl hplate => ?_⟩
      have hplate : l.plate = current.plate := hplate
      obtain rfl : last = some l := hl
      have hbefore := htime l rfl
      by_contra hgap
      refine hoff ?_
      simp only [insideCooldown, hlast.1, hlast.2, Option.map_some, hplate]
      simp only [BEq.rfl, Bool.true_and, Bool.and_eq_true, decide_eq_true_eq]
      omega

/-! ## A run -/

/-- Two emissions of one plate are at least the cooldown apart. -/
def Apart (config : StablePlateEventFilterConfig) (e e' : Emission) : Prop :=
  e.timestamp ≤ e'.timestamp ∧
    (e.plate = e'.plate → milliseconds config.duplicateCooldown ≤ e'.timestamp - e.timestamp)

/-- **Consecutive emissions of a run are apart.** -/
theorem emissions_chain (config : StablePlateEventFilterConfig)
    {calls : List (TemporalConsensusResult F D × ℤ)}
    (hordered : calls.Pairwise fun c c' => c.2 ≤ c'.2) {filter : StablePlateEventFilter F D}
    {last : Option Emission} (hlast : filter.Remembers last)
    (htime : ∀ e ∈ last, ∀ c ∈ calls, e.timestamp ≤ c.2) :
    (last.toList ++ emissions config filter calls).IsChain (Apart config) := by
  induction calls generalizing filter last with
  | nil => cases last <;> simp [emissions]
  | cons call calls ih =>
    obtain ⟨consensus, timestamp⟩ := call
    obtain ⟨hhead, htail⟩ := List.pairwise_cons.mp hordered
    have hnow : ∀ e ∈ last, e.timestamp ≤ timestamp := fun e he => htime e he _ List.mem_cons_self
    obtain ⟨hnext, hemitted⟩ := observe_spec config hlast consensus hnow
    rw [emissions]
    cases hemission : emissionOf (observe config filter consensus timestamp).2 timestamp with
    | none =>
      rw [hemission, Option.none_or] at hnext
      simpa only [hemission, Option.toList_none, List.nil_append] using
        ih htail hnext fun e he c hc => htime e he c (List.mem_cons_of_mem _ hc)
    | some e =>
      rw [hemission, Option.some_or] at hnext
      obtain ⟨htimestamp, hapart⟩ := hemitted e hemission
      have hrest := ih htail hnext fun e' he' c hc => by
        obtain rfl := Option.some.inj he'
        exact htimestamp.trans_le (hhead c hc)
      simp only [hemission, Option.toList_some, List.singleton_append] at hrest ⊢
      cases last with
      | none => exact hrest
      | some l =>
        refine List.isChain_cons_cons.mpr ⟨⟨?_, fun hplate => ?_⟩, hrest⟩
        · exact htimestamp ▸ hnow l rfl
        · exact htimestamp ▸ hapart l rfl hplate

/-- Along a chain of emissions of one plate, the first and the last are apart. -/
theorem apart_of_isChain {config : StablePlateEventFilterConfig} {a b : Emission}
    {mid : List Emission} (h : (a :: (mid ++ [b])).IsChain (Apart config))
    (hplate : ∀ m ∈ mid, m.plate = a.plate) (hb : b.plate = a.plate) :
    milliseconds config.duplicateCooldown ≤ b.timestamp - a.timestamp := by
  induction mid generalizing a with
  | nil =>
    obtain ⟨hab, -⟩ := List.isChain_cons_cons.mp h
    exact hab.2 hb.symm
  | cons m mid ih =>
    obtain ⟨ham, hrest⟩ := List.isChain_cons_cons.mp h
    have hm := hplate m List.mem_cons_self
    have hgap := ih hrest (fun m' hm' => (hplate m' (List.mem_cons_of_mem _ hm')).trans hm.symm)
      (hb.trans hm.symm)
    have hle := ham.1
    omega

/-- **Per-plate cooldown.**  In a run with nondecreasing timestamps, two emissions of one plate with
no emission of another plate between them are at least the cooldown apart. -/
theorem cooldown_of_no_other_plate (config : StablePlateEventFilterConfig)
    {calls : List (TemporalConsensusResult F D × ℤ)}
    (hordered : calls.Pairwise fun c c' => c.2 ≤ c'.2) {before mid after : List Emission}
    {a b : Emission} (h : emissions config initial calls = before ++ a :: (mid ++ b :: after))
    (hplate : ∀ m ∈ mid, m.plate = a.plate) (hb : b.plate = a.plate) :
    milliseconds config.duplicateCooldown ≤ b.timestamp - a.timestamp := by
  have hinitial : (initial : StablePlateEventFilter F D).Remembers none := ⟨rfl, rfl⟩
  have hchain := emissions_chain config hordered hinitial fun e he => by cases he
  have hsplit : before ++ a :: (mid ++ b :: after) = before ++ (a :: (mid ++ [b]) ++ after) := by
    simp
  rw [Option.toList_none, List.nil_append, h, hsplit] at hchain
  exact apart_of_isChain hchain.right_of_append.left_of_append hplate hb

/-! ### Another plate in between -/

/-- A consensus stable on a plate. -/
def stableOn (plate : Text) : TemporalConsensusResult ℚ ℚ where
  stableResult := some { PlateRecognitionResult.default with status := .accepted, plate }
  historySize := 1
  supportingFrames := 1
  support := 1

/-- Two plates seen by turns, a tenth of a second apart. -/
def alternatingCalls : List (TemporalConsensusResult ℚ ℚ × ℤ) :=
  [(stableOn (ascii "34ABC123"), 0), (stableOn (ascii "06XYZ456"), milliseconds 100),
    (stableOn (ascii "34ABC123"), milliseconds 200)]

theorem cooldown_of_no_other_plate_repeated : ∃ e e' : Emission,
    emissions {} initial [(stableOn (ascii "34ABC123"), 0),
      (stableOn (ascii "34ABC123"), milliseconds 100),
      (stableOn (ascii "34ABC123"), milliseconds 2000)] = [e, e'] ∧
        milliseconds 2000 ≤ e'.timestamp - e.timestamp := by
  have hrun : emissions {} initial [(stableOn (ascii "34ABC123"), 0),
      (stableOn (ascii "34ABC123"), milliseconds 100),
      (stableOn (ascii "34ABC123"), milliseconds 2000)] =
        [] ++ ⟨ascii "34ABC123", 0⟩ :: ([] ++ ⟨ascii "34ABC123", milliseconds 2000⟩ :: []) := by
    decide
  exact ⟨_, _, hrun, cooldown_of_no_other_plate {} (by decide) hrun (by simp) rfl⟩

theorem emits_again_after_other_plate :
    ¬ ∀ calls : List (TemporalConsensusResult ℚ ℚ × ℤ), (calls.Pairwise fun c c' => c.2 ≤ c'.2) →
      (emissions {} initial calls).Pairwise fun e e' => e.plate = e'.plate →
        milliseconds 2000 ≤ e'.timestamp - e.timestamp := by
  intro h
  have halternating := h alternatingCalls (by decide)
  revert halternating
  decide

end StablePlateEventFilter

end FacLpr
