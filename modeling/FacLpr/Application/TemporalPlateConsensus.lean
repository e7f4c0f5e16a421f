import FacLpr.Application.Config
import FacLpr.Domain.Recognition
import FacLpr.Foundations.OrdMap
import Mathlib.Data.List.Basic

/-!
# Application/TemporalPlateConsensus — the consensus window over frames

A time point is an integer number of nanoseconds and a configured duration one of milliseconds.  The
readings of a steady clock lie so close together that their difference fits in 64 bits; the
configured time to live need not, and expiry compares with what its conversion makes of it
(`nanoseconds`).  `observe_spec` says what a call leaves behind: a suffix of the old window with the
new frame at its end, nothing in it older than the time to live, and a support count that is the
number of eligible frames of one plate in it.
-/

namespace FacLpr

/-- A duration in milliseconds, in nanoseconds. -/
def milliseconds (count : ℤ) : ℤ := count * 1000000

/-- A duration in milliseconds as `std::chrono` converts it to compare it with one in nanoseconds:
the product is taken in 64 bits, and past them it wraps. -/
def nanoseconds (count : ℤ) : ℤ := (milliseconds count).bmod (2 ^ 64)

/-- The longest duration in milliseconds whose nanoseconds fit in 64 bits. -/
def longestDuration : ℤ := 9223372036854

/-- Up to the longest duration the conversion is exact. -/
theorem nanoseconds_eq {count : ℤ} (hnonneg : 0 ≤ count) (h : count ≤ longestDuration) :
    nanoseconds count = milliseconds count := by
  simp only [longestDuration] at h
  refine Int.bmod_eq_of_le_mul_two ?_ ?_ <;> simp only [milliseconds] <;> push_cast <;> omega

/-- What wraps comes out shorter. -/
theorem nanoseconds_lt {count : ℤ} (h : longestDuration < count) :
    nanoseconds count < milliseconds count := by
  have hbound : nanoseconds count < 2 ^ 63 := Int.bmod_lt (by decide)
  have hlong : (2 : ℤ) ^ 63 ≤ milliseconds count := by
    simp only [longestDuration, milliseconds] at h ⊢
    omega
  exact hbound.trans_le hlong

/-- The conversion never lengthens a duration. -/
theorem nanoseconds_le {count : ℤ} (h : 0 ≤ count) : nanoseconds count ≤ milliseconds count := by
  rcases le_or_gt count longestDuration with hfits | hwraps
  · exact (nanoseconds_eq h hfits).le
  · exact (nanoseconds_lt hwraps).le

structure TemporalPlateConsensusConfig (F : Type) [Scalar F] where
  maxHistory : ℕ := 8
  historyTtl : ℤ := 1500
  minimumSupportingFrames : ℕ := 2
  minimumFrameConfidence : F := Scalar.ofRat (1 / 2)
  stableConfidenceThreshold : F := Scalar.ofRat (3 / 4)
  conflictMargin : F := Scalar.ofRat (1 / 10)

/-- The checks of the constructor. -/
def TemporalPlateConsensusConfig.check {F : Type} [Scalar F]
    (config : TemporalPlateConsensusConfig F) : Except EngineError Unit := do
  require (config.maxHistory ≠ 0 ∧ config.maxHistory ≤ 1024)
    (configurationError "temporal max_history must be in [1,1024]")
  require (0 < config.historyTtl) (configurationError "temporal history_ttl must be positive")
  require (config.minimumSupportingFrames ≠ 0 ∧
      config.minimumSupportingFrames ≤ config.maxHistory)
    (configurationError "temporal minimum_supporting_frames must be in [1,max_history]")
  requireProbability config.minimumFrameConfidence "minimum_frame_confidence"
  requireProbability config.stableConfidenceThreshold "stable_confidence_threshold"
  requireProbability config.conflictMargin "conflict_margin"

structure TemporalConsensusResult (F D : Type) where
  stableResult : Option (PlateRecognitionResult F D)
  historySize : ℕ
  supportingFrames : ℕ
  support : F

/-- A frame of the window. -/
structure Observation (F D : Type) where
  result : PlateRecognitionResult F D
  timestamp : ℤ

/-- What the window holds of one plate. -/
structure Aggregate (F D : Type) where
  weightedSupport : F
  frames : ℕ
  best : Option (PlateRecognitionResult F D)

namespace TemporalPlateConsensus

variable {F D : Type}

/-- A consensus its constructor accepted. -/
structure Config (F : Type) [Scalar F] where
  config : TemporalPlateConsensusConfig F
  accepted : config.check = .ok ()

/-- A consensus of the default configuration. -/
def defaultConfig : Config ℚ := ⟨{}, by decide +kernel⟩

/-- An accepted time to live is positive. -/
theorem Config.historyTtl_pos [Scalar F] (c : Config F) : 0 < c.config.historyTtl := by
  have haccepted := c.accepted
  simp only [TemporalPlateConsensusConfig.check, except_bind_eq_ok, require_eq_ok,
    decide_eq_true_eq] at haccepted
  obtain ⟨-, -, -, hpositive, -⟩ := haccepted
  exact hpositive

theorem Config.maxHistory_ne_zero [Scalar F] (c : Config F) : c.config.maxHistory ≠ 0 := by
  have haccepted := c.accepted
  simp only [TemporalPlateConsensusConfig.check, except_bind_eq_ok, require_eq_ok,
    decide_eq_true_eq] at haccepted
  obtain ⟨-, ⟨hmax, -⟩, -⟩ := haccepted
  exact hmax

theorem Config.minimumSupportingFrames_ne_zero [Scalar F] (c : Config F) :
    c.config.minimumSupportingFrames ≠ 0 := by
  have haccepted := c.accepted
  simp only [TemporalPlateConsensusConfig.check, except_bind_eq_ok, require_eq_ok,
    decide_eq_true_eq] at haccepted
  obtain ⟨-, -, -, -, -, ⟨hframes, -⟩, -⟩ := haccepted
  exact hframes

/-! ## The window -/

/-- Drop the frames that outlived the time to live, from the front. -/
def expire (ttl : ℤ) (now : ℤ) : List (Observation F D) → List (Observation F D)
  | [] => []
  | oldest :: rest =>
      if now < oldest.timestamp ∨ now - oldest.timestamp ≤ nanoseconds ttl then oldest :: rest
      else expire ttl now rest

/-- Pop from the front down to `limit` frames. -/
def evict (limit : ℕ) (history : List (Observation F D)) : List (Observation F D) :=
  history.drop (history.length - limit)

/-- Expiry keeps a suffix. -/
theorem expire_suffix (ttl : ℤ) (now : ℤ) (history : List (Observation F D)) :
    expire ttl now history <:+ history := by
  induction history with
  | nil => exact List.suffix_refl _
  | cons oldest rest ih =>
    rw [expire]
    split
    · exact List.suffix_refl _
    · exact ih.trans (List.suffix_cons _ _)

theorem evict_suffix (limit : ℕ) (history : List (Observation F D)) :
    evict limit history <:+ history :=
  List.drop_suffix _ _

/-- **Expiry leaves nothing older than the time to live**, when the window is in order. -/
theorem sub_le_of_mem_expire {ttl : ℤ} {now : ℤ} {history : List (Observation F D)}
    (hordered : history.Pairwise fun o o' => o.timestamp ≤ o'.timestamp)
    (hnow : ∀ o ∈ history, o.timestamp ≤ now) :
    ∀ o ∈ expire ttl now history, now - o.timestamp ≤ nanoseconds ttl := by
  induction history with
  | nil => simp [expire]
  | cons oldest rest ih =>
    obtain ⟨hhead, htail⟩ := List.pairwise_cons.mp hordered
    rw [expire]
    split
    · rename_i hkeep
      have holdest := hnow oldest List.mem_cons_self
      have hfresh : now - oldest.timestamp ≤ nanoseconds ttl := hkeep.resolve_left (by omega)
      intro o ho
      rcases List.mem_cons.mp ho with rfl | ho
      · exact hfresh
      · have := hhead o ho
        omega
    · exact ih htail fun o ho => hnow o (List.mem_cons_of_mem _ ho)

/-! ## The consensus -/

variable [Scalar F]

/-- The frames that count: accepted, with a plate and a confidence in the configured range. -/
def isEligible (config : TemporalPlateConsensusConfig F) (result : PlateRecognitionResult F D) :
    Bool :=
  !(result.plate.isEmpty || result.status != .accepted || !Scalar.isFinite result.confidence ||
    decide (result.confidence < config.minimumFrameConfidence) ||
    decide (1 < result.confidence))

/-- The accumulation of an eligible frame into the aggregate of its plate. -/
def Aggregate.add (result : PlateRecognitionResult F D) (stored : Option (Aggregate F D)) :
    Aggregate F D :=
  let aggregate := stored.getD ⟨0, 0, none⟩
  { weightedSupport := aggregate.weightedSupport + result.confidence
    frames := aggregate.frames + 1
    best :=
      match aggregate.best with
      | none => some result
      | some best => if best.confidence < result.confidence then some result else some best }

/-- The aggregates by plate, over the eligible frames of the window. -/
def aggregatesOf (config : TemporalPlateConsensusConfig F) (history : List (Observation F D)) :
    OrdMap Text (Aggregate F D) :=
  history.foldl (fun aggregates observation =>
    if isEligible config observation.result then
      aggregates.upsert observation.result.plate (Aggregate.add observation.result)
    else aggregates) OrdMap.empty

/-- The total weight of the eligible frames. -/
def totalEligibleWeight (config : TemporalPlateConsensusConfig F)
    (history : List (Observation F D)) : F :=
  history.foldl (fun total observation =>
    if isEligible config observation.result then total + observation.result.confidence
    else total) 0

/-- One iteration of the search for the winner: the winner so far and the runner-up's support. -/
def winnerStep (state : (Text × Aggregate F D) × F) (entry : Text × Aggregate F D) :
    (Text × Aggregate F D) × F :=
  let winner := state.1
  if winner.2.weightedSupport < entry.2.weightedSupport ∨
      (entry.2.weightedSupport == winner.2.weightedSupport ∧ entry.1 < winner.1) then
    (entry, Scalar.max state.2 winner.2.weightedSupport)
  else if entry.1 ≠ winner.1 then
    (winner, Scalar.max state.2 entry.2.weightedSupport)
  else state

/-- The stable result made of the winner's best frame. -/
def stableResultOf (plate : Text) (support : F) (best : PlateRecognitionResult F D) :
    PlateRecognitionResult F D :=
  { best with
    plate
    confidence := support
    status := .accepted
    decisionReasons := [.acceptedConsensus] }

/-- The result computed from the window. -/
def conclude (config : TemporalPlateConsensusConfig F) (history : List (Observation F D)) :
    TemporalConsensusResult F D :=
  let totalWeight := totalEligibleWeight config history
  match (aggregatesOf config history).entries with
  | [] => ⟨none, history.length, 0, 0⟩
  | first :: entries =>
      if totalWeight ≤ 0 then ⟨none, history.length, 0, 0⟩
      else
        let (winner, runnerUpSupport) := (first :: entries).foldl winnerStep (first, 0)
        let support := Scalar.clamp01 (winner.2.weightedSupport / totalWeight)
        let runnerUpRatio := Scalar.clamp01 (runnerUpSupport / totalWeight)
        let hasMargin := config.conflictMargin ≤ support - runnerUpRatio
        let stableResult :=
          if winner.2.frames < config.minimumSupportingFrames ∨
              support < config.stableConfidenceThreshold ∨ ¬ hasMargin then none
          else winner.2.best.map (stableResultOf winner.1 support)
        ⟨stableResult, history.length, winner.2.frames, support⟩

/-- `TemporalPlateConsensus::observe`: the new window and the result. -/
def observe (c : Config F) (history : List (Observation F D))
    (frameResult : PlateRecognitionResult F D) (timestamp : ℤ) :
    List (Observation F D) × TemporalConsensusResult F D :=
  let history := evict c.config.maxHistory
    (expire c.config.historyTtl timestamp history ++ [⟨frameResult, timestamp⟩])
  (history, conclude c.config history)

/-! ## The aggregates -/

/-- The eligible frames of a plate. -/
def supports (config : TemporalPlateConsensusConfig F) (plate : Text)
    (result : PlateRecognitionResult F D) : Bool :=
  isEligible config result && result.plate == plate

/-- **The frames of an aggregate are the eligible frames of its plate.** -/
theorem frames_aggregatesOf (config : TemporalPlateConsensusConfig F)
    (history : List (Observation F D)) (plate : Text) :
    (((aggregatesOf config history).find? plate).map Aggregate.frames).getD 0 =
      history.countP fun o => supports config plate o.result := by
  have hstored : (aggregatesOf config history).find? plate =
      (history.filter fun o => supports config plate o.result).foldl
        (fun stored o => some (Aggregate.add o.result stored)) none :=
    OrdMap.find?_foldl_upsert_if (fun o : Observation F D => isEligible config o.result)
      (fun o => o.result.plate) (fun o => Aggregate.add o.result) plate history OrdMap.empty
  have hframes : ∀ (l : List (Observation F D)) (stored : Option (Aggregate F D)),
      ((l.foldl (fun stored o => some (Aggregate.add o.result stored)) stored).map
        Aggregate.frames).getD 0 = (stored.map Aggregate.frames).getD 0 + l.length := by
    intro l
    induction l with
    | nil => exact fun _ => rfl
    | cons o l ih =>
      intro stored
      rw [List.foldl_cons, ih, List.length_cons]
      cases stored with
      | none => simp [Aggregate.add]; omega
      | some aggregate => simp [Aggregate.add]; omega
  rw [hstored, hframes, List.countP_eq_length_filter]
  simp

/-- The winner is one of the aggregates. -/
theorem mem_foldl_winnerStep {entries all : List (Text × Aggregate F D)}
    {state : (Text × Aggregate F D) × F} (hstate : state.1 ∈ all)
    (hentries : ∀ e ∈ entries, e ∈ all) :
    (entries.foldl winnerStep state).1 ∈ all := by
  induction entries generalizing state with
  | nil => exact hstate
  | cons entry entries ih =>
    refine ih ?_ fun e he => hentries e (List.mem_cons_of_mem _ he)
    simp only [winnerStep]
    split
    · exact hentries entry List.mem_cons_self
    · split <;> exact hstate

/-- **What the window concludes** rests on the eligible frames of one plate. -/
theorem conclude_spec (config : TemporalPlateConsensusConfig F) (history : List (Observation F D)) :
    ∃ plate, ((conclude config history).supportingFrames ≤
        history.countP fun o => supports config plate o.result) ∧
      ∀ stable, (conclude config history).stableResult = some stable → stable.plate = plate ∧
        config.minimumSupportingFrames ≤ (conclude config history).supportingFrames := by
  unfold conclude
  split
  · exact ⟨[], Nat.zero_le _, fun _ h => by cases h⟩
  · rename_i first entries hentries
    simp only
    split
    · exact ⟨[], Nat.zero_le _, fun _ h => by cases h⟩
    · have hmem : ((first :: entries).foldl winnerStep (first, 0)).1 ∈
          (aggregatesOf config history).entries :=
        mem_foldl_winnerStep (hentries ▸ List.mem_cons_self) fun _ he => hentries ▸ he
      generalize (first :: entries).foldl winnerStep (first, 0) = state at hmem
      obtain ⟨⟨plate, aggregate⟩, runnerUp⟩ := state
      have hframes := frames_aggregatesOf config history plate
      rw [OrdMap.mem_entries.mp hmem] at hframes
      refine ⟨plate, hframes.le, fun stable h => ?_⟩
      simp only at h
      split at h
      · cases h
      · rename_i hgates
        rw [not_or, not_lt] at hgates
        obtain ⟨best, -, rfl⟩ := Option.map_eq_some_iff.mp h
        exact ⟨rfl, hgates.1⟩

/-- **Only eligible frames count.**  Apart from its size, the conclusion is that of the eligible
frames of the window. -/
theorem conclude_filter (config : TemporalPlateConsensusConfig F)
    (history : List (Observation F D)) :
    conclude config history =
      { conclude config (history.filter fun o => isEligible config o.result) with
        historySize := (conclude config history).historySize } := by
  have haggregates : aggregatesOf config (history.filter fun o => isEligible config o.result) =
      aggregatesOf config history := by
    rw [aggregatesOf, aggregatesOf, List.foldl_filter]
    congr 1
    funext m o
    split <;> rfl
  have hweight : totalEligibleWeight config (history.filter fun o => isEligible config o.result) =
      totalEligibleWeight config history := by
    rw [totalEligibleWeight, totalEligibleWeight, List.foldl_filter]
    congr 1
    funext total o
    split <;> rfl
  simp only [conclude, haggregates, hweight]
  split
  · rfl
  · split <;> rfl

/-! ## One call -/

theorem observe_snd (c : Config F) (history : List (Observation F D))
    (frameResult : PlateRecognitionResult F D) (timestamp : ℤ) :
    (observe c history frameResult timestamp).2 =
      conclude c.config (observe c history frameResult timestamp).1 := rfl

/-- **The window of a call** is a suffix of the old one with the new frame at its end, and holds
nothing older than the time to live. -/
theorem observe_spec (c : Config F) {history : List (Observation F D)}
    (hordered : history.Pairwise fun o o' => o.timestamp ≤ o'.timestamp) {timestamp : ℤ}
    (hnow : ∀ o ∈ history, o.timestamp ≤ timestamp) (frameResult : PlateRecognitionResult F D) :
    ((observe c history frameResult timestamp).1 <:+ history ++ [⟨frameResult, timestamp⟩]) ∧
      ∀ o ∈ (observe c history frameResult timestamp).1,
        timestamp - milliseconds c.config.historyTtl ≤ o.timestamp ∧ o.timestamp ≤ timestamp := by
  have hsuffix : evict c.config.maxHistory
      (expire c.config.historyTtl timestamp history ++ [⟨frameResult, timestamp⟩]) <:+
        expire c.config.historyTtl timestamp history ++ [⟨frameResult, timestamp⟩] :=
    evict_suffix _ _
  have hexpired := expire_suffix c.config.historyTtl timestamp history
  refine ⟨hsuffix.trans (List.suffix_append_self_iff.mpr hexpired), fun o ho => ?_⟩
  · rcases List.mem_append.mp (hsuffix.mem ho) with ho | ho
    · have hfresh := sub_le_of_mem_expire hordered hnow o ho
      have hconverted := nanoseconds_le c.historyTtl_pos.le
      have hpast := hnow o (hexpired.mem ho)
      omega
    · obtain rfl := List.mem_singleton.mp ho
      have hpositive := c.historyTtl_pos
      simp only [milliseconds]
      omega

end TemporalPlateConsensus

end FacLpr
