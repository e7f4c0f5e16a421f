import FacLpr.Application.ComposedPipeline
import FacLpr.CApi.TwoPass

/-!
# CApi/SerializableResults — what the pipeline returns can be serialized

The serializer checks every number again.  A result whose numbers are in range (`WireResult`)
passes, so only its size can stop it; and every result of the composed pipeline is such a result
(`serializeResultV1_recognize`).
-/

namespace FacLpr

/-! ## Numbers -/

/-- A probability passes every check of the wire. -/
theorem Binary32.isProbability_wire {v : Binary32} (h : Scalar.isProbability v = true) :
    v.isFinite = true ∧ v.isNegative = false ∧ v.exceedsOne = false := by
  obtain ⟨hle, hsign⟩ : v.magnitude ≤ binary32.one ∧ (v.sign = false ∨ v.magnitude = 0) :=
    isProbability_iff.mp h
  have hone : binary32.one = 0x3F800000 := by decide +kernel
  rw [hone] at hle
  refine ⟨decide_eq_true (lt_of_le_of_lt hle (by decide)), isNegative_eq_false.mpr hsign, ?_⟩
  simp [exceedsOne, hle]

/-- A latency the wire can carry. -/
structure Binary64.IsLatency (v : Binary64) : Prop where
  isFinite : v.isFinite = true
  isNegative : v.isNegative = false
  exceedsFloat : v.exceedsFloat = false

/-- A time of at most 2^64 milliseconds is a latency, if it is not negative. -/
theorem Binary64.isLatency_of_magnitude_le {v : Binary64} (h : v.magnitude ≤ twoPow64)
    (hnegative : v.isNegative = false) : v.IsLatency := by
  refine ⟨decide_eq_true (lt_of_le_of_lt h (by decide)), hnegative, ?_⟩
  have hle : v.magnitude ≤ 0x47EFFFFFE0000000 := h.trans (by decide)
  simp [exceedsFloat, hle]

theorem Binary64.isLatency_zero : (0 : Binary64).IsLatency :=
  isLatency_of_magnitude_le (by decide +kernel) (by decide +kernel)

section

variable {started finished : ℤ} (hstarted : -2 ^ 63 ≤ started ∧ started < 2 ^ 63)
  (hfinished : -2 ^ 63 ≤ finished ∧ finished < 2 ^ 63)
include hstarted hfinished

/-- The time between two readings, as a `double`. -/
theorem magnitude_elapsedMs_le : (elapsedMs started finished : Binary64).magnitude ≤
      Binary64.twoPow64 ∧
    (started ≤ finished → (elapsedMs started finished : Binary64).isNegative = false) := by
  have hcount : |(finished - started : ℚ)| ≤ 2 ^ 64 := by
    have hint : |finished - started| ≤ 2 ^ 64 := abs_le.mpr ⟨by omega, by omega⟩
    exact_mod_cast hint
  obtain ⟨hle, hsign⟩ := magnitude_count_div_le hcount (r := 1000000) (by norm_num) (by norm_num)
  exact ⟨hle, fun h => hsign (sub_nonneg.mpr (Int.cast_le.mpr h))⟩

/-- The time between two readings in order is one. -/
theorem isLatency_elapsedMs (h : started ≤ finished) :
    (elapsedMs started finished : Binary64).IsLatency :=
  have hmagnitude := magnitude_elapsedMs_le hstarted hfinished
  Binary64.isLatency_of_magnitude_le hmagnitude.1 (hmagnitude.2 h)

/-- A clamped latency does not need the readings to be in order. -/
theorem isLatency_max_elapsedMs :
    (Scalar.max 0 (elapsedMs started finished) : Binary64).IsLatency := by
  unfold Scalar.max
  split
  · rename_i hpos
    refine Binary64.isLatency_of_magnitude_le (magnitude_elapsedMs_le hstarted hfinished).1 ?_
    have hkey := (lt_iff_key.mp hpos).2.2
    rw [key_zero] at hkey
    exact Binary64.isNegative_eq_false.mpr (key_nonneg.mp hkey.le)
  · exact Binary64.isLatency_zero

end

/-! ## The serializer -/

namespace Wire

open Program

/-- The only exceptions are those of a budget. -/
def Exhausts {α : Type} (x : Wire α) : Prop :=
  Throws x fun fault => ∀ error, fault = .engine error → error.code = .resourceExhausted

section

variable {α β T : Type} [WireStruct T]

/-- A budget that is spent, -/
theorem exhausts_raise (message : String) :
    Exhausts (raise (resourceExhaustedError message) : Wire α) := by
  refine throws_throw fun error herror => ?_
  cases herror
  rfl

/-- and a size that wraps: no exception of the source. -/
theorem exhausts_wrap : Exhausts (throw .wrap : Wire α) :=
  throws_throw fun _ herror => nomatch herror

theorem exhausts_sizeAdd (a b : ℕ) : Exhausts (sizeAdd a b) :=
  Throws.ite exhausts_wrap throws_pure

theorem exhausts_sizeSub (a b : ℕ) : Exhausts (sizeSub a b) :=
  Throws.ite exhausts_wrap throws_pure

theorem exhausts_sizeMul (a b : ℕ) : Exhausts (sizeMul a b) :=
  Throws.ite exhausts_wrap throws_pure

theorem exhausts_narrow (value : ℕ) : Exhausts (narrow value) :=
  Throws.ite exhausts_wrap throws_pure

theorem exhausts_toU32 (value : ℕ) (field : String) : Exhausts (toU32 value field) :=
  Throws.ite (exhausts_raise _) (exhausts_narrow value)

theorem exhausts_checkedArrayBytes (count elementSize : ℕ) (field : String) :
    Exhausts (checkedArrayBytes count elementSize field) :=
  Throws.ite (exhausts_raise _) ((exhausts_sizeMul _ _).bind fun _ =>
    Throws.ite (exhausts_raise _) throws_pure)

theorem exhausts_elementOffset (base : UInt32) (index elementSize : ℕ) :
    Exhausts (elementOffset base index elementSize) :=
  (exhausts_checkedArrayBytes _ _ _).bind fun _ => (exhausts_sizeAdd _ _).bind fun _ =>
    exhausts_toU32 _ _

theorem exhausts_alignPosition (value : ℕ) : Exhausts (alignPosition value) :=
  Throws.ite throws_pure ((exhausts_sizeSub _ _).bind fun _ => (exhausts_sizeSub _ _).bind fun _ =>
    Throws.ite (exhausts_raise _) (exhausts_sizeAdd _ _))

/-- Reserving throws for a budget only. -/
theorem exhausts_reserve (bytes : ℕ) : Exhausts (reserve bytes) := by
  refine throws_get.bind fun writer => (exhausts_alignPosition _).bind fun aligned => ?_
  refine (exhausts_sizeSub _ _).bind fun room => Throws.ite (exhausts_raise _) ?_
  refine (exhausts_sizeAdd _ _).bind fun finish => Throws.ite (exhausts_raise _) ?_
  refine Throws.ite (exhausts_raise _) (Throws.ite (exhausts_raise _) ?_)
  exact throws_set.bind fun _ => exhausts_narrow _

/-- So does copying what was reserved. -/
theorem exhausts_copyBytes (message : String) (offset : UInt32) (value : List UInt8) :
    Exhausts (copyBytes message offset value) := by
  refine throws_get.bind fun writer => ?_
  cases writer.bytes with
  | none => exact throws_pure
  | some mem =>
    exact Throws.ite (exhausts_raise _) ((exhausts_sizeSub _ _).bind fun _ =>
      Throws.ite (exhausts_raise _) throws_set)

theorem exhausts_write (offset : UInt32) (value : T) : Exhausts (write offset value) :=
  exhausts_copyBytes _ _ _

theorem exhausts_appendText (text : Text) : Exhausts (appendText text) :=
  Throws.ite throws_pure ((exhausts_reserve _).bind fun _ =>
    (Throws.ite throws_pure (exhausts_copyBytes _ _ _) : Exhausts (writeBytes _ text)).bind fun _ =>
      (exhausts_toU32 _ _).bind fun _ => throws_pure)

/-- **An array of values that pass.** -/
theorem exhausts_appendArray (field : String) {serialize : β → Wire T} {items : List β}
    (h : ∀ item ∈ items, Exhausts (serialize item)) :
    Exhausts (appendArray field serialize items) := by
  have hloop : ∀ (offset : UInt32) (rest : List β) (index : ℕ),
      (∀ item ∈ rest, Exhausts (serialize item)) →
        Exhausts (writeElements serialize offset index rest) := by
    intro offset rest
    induction rest with
    | nil => exact fun _ _ => throws_pure
    | cons item rest ih =>
      intro index hrest
      refine (hrest item List.mem_cons_self).bind fun wire => ?_
      refine (exhausts_elementOffset _ _ _).bind fun place => ?_
      exact (exhausts_write _ _).bind fun _ =>
        ih _ fun other hother => hrest other (List.mem_cons_of_mem _ hother)
  refine Throws.ite throws_pure ?_
  refine (exhausts_checkedArrayBytes _ _ _).bind fun bytes => ?_
  refine (exhausts_reserve _).bind fun offset => ?_
  exact (hloop offset items 0 h).bind fun _ => throws_pure

omit [WireStruct T] in
/-- An optional value that passes. -/
theorem exhausts_serializeOption {zero : T} {serialize : β → Wire T} {value : Option β}
    (h : ∀ v, value = some v → Exhausts (serialize v)) :
    Exhausts (serializeOption zero serialize value) := by
  cases value with
  | none => exact throws_pure
  | some v => exact (h v rfl).bind fun _ => throws_pure

end

/-! ## The checks of the numbers -/

/-- The check of a number throws nothing for one that is finite. -/
theorem exhausts_finiteFloat {value : Binary32} (h : Scalar.isFinite value = true)
    (field : String) : Exhausts (finiteFloat value field) := by
  have hfinite : value.isFinite = true := h
  rw [finiteFloat, hfinite]
  exact throws_pure

theorem exhausts_probabilityFloat {value : Binary32} (h : Scalar.isProbability value = true)
    (field : String) : Exhausts (probabilityFloat value field) := by
  obtain ⟨hfinite, hnegative, hone⟩ := Binary32.isProbability_wire h
  rw [probabilityFloat, if_neg (by simp [hfinite, hnegative, hone])]
  exact throws_pure

theorem exhausts_latencyToFloat {value : Binary64} (h : value.IsLatency) :
    Exhausts (latencyToFloat value) := by
  rw [latencyToFloat, if_neg (by simp [h.isFinite, h.isNegative, h.exceedsFloat])]
  exact throws_pure

/-- **A probable candidate** is written, within the budget, -/
theorem exhausts_serializeCandidate {candidate : PlateCandidate Binary32}
    (h : ProbableCandidate candidate) : Exhausts (serializeCandidate candidate) :=
  (exhausts_appendText _).bind fun _ => (exhausts_probabilityFloat h.confidence _).bind fun _ =>
    (exhausts_probabilityFloat h.calibratedConfidence _).bind fun _ => throws_pure

/-- and so is **probable evidence**, -/
theorem exhausts_serializeEvidence {item : RecognitionEvidence Binary32 Binary64}
    (h : ProbableEvidence Binary64.IsLatency item) : Exhausts (serializeEvidence item) := by
  refine (exhausts_appendArray _ fun candidate hcandidate =>
    exhausts_serializeCandidate (h.candidates candidate hcandidate)).bind fun _ => ?_
  refine (exhausts_appendText _).bind fun _ => ?_
  refine (exhausts_probabilityFloat h.cropQuality _).bind fun _ => ?_
  refine (exhausts_latencyToFloat h.latencyMs).bind fun _ => ?_
  exact (exhausts_toU32 _ _).bind fun _ => throws_pure

theorem exhausts_serializeBbox {bbox : BoundingBox Binary32} (h : FiniteBox bbox) :
    Exhausts (serializeBbox bbox) :=
  (exhausts_finiteFloat h.x _).bind fun _ => (exhausts_finiteFloat h.y _).bind fun _ =>
    (exhausts_finiteFloat h.width _).bind fun _ =>
      (exhausts_finiteFloat h.height _).bind fun _ => throws_pure

/-- a quadrilateral -/
theorem exhausts_serializeQuadrilateral {quadrilateral : PlateQuadrilateral Binary32}
    (h : ProbableQuadrilateral quadrilateral) :
    Exhausts (serializeQuadrilateral quadrilateral) := by
  have hcorner : ∀ index, Exhausts (serializeCorner quadrilateral index) := fun index =>
    (exhausts_finiteFloat (h.points index).1 _).bind fun _ =>
      (exhausts_finiteFloat (h.points index).2 _).bind fun _ =>
        (exhausts_probabilityFloat (h.confidences index) _).bind fun _ => throws_pure
  exact (hcorner 0).bind fun _ => (hcorner 1).bind fun _ => (hcorner 2).bind fun _ =>
    (hcorner 3).bind fun _ => throws_pure

/-- and **a probable recognition**. -/
theorem exhausts_serializePlate {recognition : PlateRecognitionResult Binary32 Binary64}
    (h : ProbableRecognition Binary64.IsLatency recognition)
    (hlatency : recognition.totalLatencyMs.IsLatency) : Exhausts (serializePlate recognition) := by
  refine (exhausts_appendText _).bind fun _ => ?_
  refine (exhausts_probabilityFloat h.confidence _).bind fun _ => ?_
  refine (exhausts_probabilityFloat h.detectorConfidence _).bind fun _ => ?_
  refine (exhausts_probabilityFloat h.geometryScore _).bind fun _ => ?_
  refine (exhausts_probabilityFloat h.cropQuality _).bind fun _ => ?_
  refine (exhausts_latencyToFloat hlatency).bind fun _ => ?_
  refine (exhausts_serializeOption fun box hbox =>
    exhausts_serializeBbox (h.bbox box hbox)).bind fun _ => ?_
  refine (exhausts_serializeOption fun quadrilateral hquadrilateral =>
    exhausts_serializeQuadrilateral (h.quadrilateral quadrilateral hquadrilateral)).bind fun _ => ?_
  refine (exhausts_toU32 _ _).bind fun _ => (exhausts_appendArray _ fun item hitem =>
    exhausts_serializeEvidence (h.evidence item hitem)).bind fun _ => ?_
  refine (exhausts_toU32 _ _).bind fun _ => (exhausts_appendArray _ fun candidate hcandidate =>
    exhausts_serializeCandidate (h.alternatives candidate hcandidate)).bind fun _ => ?_
  refine (exhausts_toU32 _ _).bind fun _ => ?_
  exact (exhausts_appendArray _ fun _ _ => throws_pure).bind fun _ => throws_pure

/-- **A result the serializer does not reject.** -/
structure WireResult (result : LprPipelineResult Binary32 Binary64) : Prop where
  recognitions : ∀ recognition ∈ result.recognitions,
    ProbableRecognition Binary64.IsLatency recognition ∧ recognition.totalLatencyMs.IsLatency
  totalLatencyMs : result.totalLatencyMs.IsLatency

/-- **A result whose values are those of the wire** is written, within the budget. -/
theorem exhausts_serializeRoot {result : LprPipelineResult Binary32 Binary64}
    (h : WireResult result) : Exhausts (serializeRoot result) := by
  refine (exhausts_appendArray _ fun recognition hrecognition =>
    exhausts_serializePlate (h.recognitions recognition hrecognition).1
      (h.recognitions recognition hrecognition).2).bind fun _ => ?_
  refine (exhausts_toU32 _ _).bind fun _ => (exhausts_latencyToFloat h.totalLatencyMs).bind
    fun _ => ?_
  exact (exhausts_toU32 _ _).bind fun _ => throws_pure

/-- **Measuring such a result** throws at its size only. -/
theorem code_of_serializeImpl_error {result : LprPipelineResult Binary32 Binary64}
    (h : WireResult result) {error : EngineError} {w : BufferWriter}
    (herror : serializeImpl result (.fresh none 0) = .error (.engine error) w) :
    error.code = .resourceExhausted := by
  have hroot : reserve (WireStruct.size ResultV1) (.fresh none 0) =
      .ok 0 ⟨none, 0, 32, [(0, 32)]⟩ := rfl
  have hrest : Exhausts (do
      let root ← serializeRoot result
      write 0 root
      return (← get).position : Wire ℕ) :=
    (exhausts_serializeRoot h).bind fun _ => (exhausts_write _ _).bind fun _ =>
      throws_get.bind fun _ => throws_pure
  rw [serializeImpl, bind_run_ok hroot, if_neg (not_not.mpr rfl)] at herror
  exact hrest _ _ _ herror error rfl

end Wire

/-! ## Every result of the pipeline -/

section

variable {σ : Type} [World σ] [PixelArithmetic Binary32 Binary64]

open LprPipeline Program

/-- **A run of the composed pipeline returns such a result.** -/
theorem returns_recognize_wireResult (clock : SteadyClock σ)
    {deps : LprPipelineDependencies σ Binary32 Binary64}
    (hproviders : ProvidersLetTimePass clock deps)
    (hdetector : ∀ image context, Returns (deps.detector image context) fun detections =>
      ∀ detection ∈ detections, ProbableDetection detection)
    (generator : CropHypothesisGenerator Binary32) (calibrator : ConfidenceCalibrator Binary32)
    (c : CandidateFusion.Config Binary32) (p : SafeDecisionPolicy.Config Binary32)
    (image : ImageView) (context : OperationContext) :
    Returns (recognize (composed deps generator calibrator c p) image context)
      Wire.WireResult := by
  intro s result s' hrun
  have hprobable := returns_recognize_composed deps generator calibrator c p hdetector image context
    s result s' hrun
  obtain ⟨started, hlow, hhigh, ⟨finished, htotal, hle, hrange⟩, htimely⟩ :=
    returns_recognize_timely (letTimePass_composed hproviders generator calibrator c p)
      image context s result s' hrun
  have hreading : ∀ reading, IsReading σ reading → -2 ^ 63 ≤ reading ∧ reading < 2 ^ 63 := by
    rintro _ ⟨t, rfl⟩
    exact clock.range t
  refine ⟨fun recognition hmem => ⟨(hprobable recognition hmem).mono ?_, ?_⟩, ?_⟩
  · rintro latencyMs ⟨before, after, hbefore, hafter, rfl⟩
    exact isLatency_max_elapsedMs (hreading before hbefore) (hreading after hafter)
  · obtain ⟨reading, heq, hlater, hreadingRange⟩ := htimely recognition hmem
    rw [heq]
    exact isLatency_elapsedMs ⟨hlow, hhigh⟩ ⟨hlow.trans hlater, hreadingRange⟩ hlater
  · rw [htotal]
    exact isLatency_max_elapsedMs ⟨hlow, hhigh⟩ ⟨hlow.trans hle, hrange⟩

/-- **The pipeline only produces serializable results**: whatever the recognizers and the evaluators
return, only the caller's buffer or the size of the result keeps a call from returning OK. -/
theorem serializeResultV1_recognize (clock : SteadyClock σ)
    (deps : LprPipelineDependencies σ Binary32 Binary64)
    (hproviders : ProvidersLetTimePass clock deps)
    (hdetector : ∀ image context, Returns (deps.detector image context) fun detections =>
      ∀ detection ∈ detections, ProbableDetection detection)
    (generator : CropHypothesisGenerator Binary32) (calibrator : ConfidenceCalibrator Binary32)
    (c : CandidateFusion.Config Binary32) (p : SafeDecisionPolicy.Config Binary32)
    (image : ImageView) (context : OperationContext) {s s' : σ}
    {result : LprPipelineResult Binary32 Binary64}
    (h : recognize (composed deps generator calibrator c p) image context s = .ok result s')
    (buffer : OutputBuffer) (requiredIsNull : Bool) :
    ∃ outcome, serializeResultV1 result buffer requiredIsNull = some outcome ∧
      (outcome.status = .ok ∨ outcome.status = .bufferTooSmall ∨
        outcome.status = .resourceExhausted ∨ outcome.status = .configurationError ∧
          (requiredIsNull = true ∨ buffer.address % wireAlignment ≠ 0)) := by
  have hwire := returns_recognize_wireResult clock hproviders hdetector generator calibrator c p
    image context s result s' h
  cases requiredIsNull with
  | true => exact ⟨_, rfl, Or.inr (Or.inr (Or.inr ⟨rfl, Or.inl rfl⟩))⟩
  | false =>
    rcases serialize_outcomes result with
      ⟨error, ⟨w, hmeasure⟩, hall⟩ | ⟨l, -, -, -, -, -, hall⟩
    · refine ⟨_, hall buffer, Or.inr (Or.inr (Or.inl ?_))⟩
      exact congrArg toCStatus (Wire.code_of_serializeImpl_error hwire hmeasure)
    · refine ⟨_, hall buffer, ?_⟩
      unfold outcomeOf
      split
      · exact Or.inr (Or.inl rfl)
      · split
        · exact Or.inr (Or.inr (Or.inr ⟨rfl, Or.inr ‹_›⟩))
        · exact Or.inl rfl

end

/-! ### Providers that return NaNs -/

namespace LprPipeline

open Program

/-- A NaN. -/
def quietNan : Binary32 := ⟨0x7FC00000⟩

/-- A recognizer that gives one plate the given confidence. -/
def readerOf (name : String) (confidence : Binary32) :
    PlateRecognizer Frozen Binary32 Binary64 where
  name := ascii name
  recognize _ _ :=
    pure ⟨ascii name, [⟨ascii "34ABC123", confidence, confidence, true⟩], quietNan, 0⟩

/-- One certain detection; everything else is a NaN, but for one recognizer. -/
def nanPipeline : LprPipelineDependencies Frozen Binary32 Binary64 where
  detector _ _ := pure [⟨⟨0, 0, 1, 1⟩, none, 1, quietNan, ascii "detector"⟩]
  geometry _ _ := pure ⟨true, quietNan⟩
  aligner _ _ _ := pure none
  cropGenerator _ _ _ _ := pure []
  recognitionEnsemble := ⟨[⟨readerOf "reader" 1, 1, 1000, false, true⟩,
    ⟨readerOf "broken" quietNan, 1, 1000, false, true⟩], by decide +kernel⟩
  calibrator _ _ _ _ := pure quietNan
  layoutAnalyzer _ _ _ := pure ⟨true, none, none, quietNan⟩
  candidateFusion _ _ := pure []
  decisionPolicy _ _ _ _ := Run.throw (providerError "no policy")
  diagnostics := none

/-- A generator that accepts single pixels. -/
def pixelGenerator : CropHypothesisGenerator Binary32 :=
  ⟨{ minimumWidth := 1, minimumHeight := 1 }, by decide +kernel⟩

/-- A clock that stands still. -/
def frozenClock : SteadyClock Frozen where
  time _ := 0
  time_le_now _ := le_refl 0
  now_le_time _ := le_refl 0
  time_le_stopRequested _ := le_refl 0
  range _ := ⟨(by decide : (-2 ^ 63 : ℤ) ≤ 0), (by decide : (0 : ℤ) < 2 ^ 63)⟩

theorem nanPipeline_letTimePass : ProvidersLetTimePass frozenClock nanPipeline where
  detector _ _ _ := maintains_pure trivial
  geometry _ _ _ := maintains_pure trivial
  aligner _ _ _ _ := maintains_pure trivial
  recognizers registration hmem plate context m := by
    rcases List.mem_pair.mp hmem with rfl | rfl
    · exact maintains_pure trivial
    · exact maintains_pure trivial
  layoutAnalyzer _ _ _ _ := maintains_pure trivial

theorem nanPipeline_detector (image : ImageView) (context : OperationContext) :
    Returns (nanPipeline.detector image context) fun detections =>
      ∀ detection ∈ detections, ProbableDetection detection := by
  have hzero : Scalar.isFinite (0 : Binary32) = true := by decide +kernel
  have hone : Scalar.isFinite (1 : Binary32) = true := by decide +kernel
  exact returns_pure (List.forall_mem_singleton.mpr
    ⟨⟨hzero, hzero, hone, hone⟩, (fun _ hnone => nomatch hnone), by decide +kernel⟩)

theorem serializeResultV1_recognize_nanPipeline : ∃ result : LprPipelineResult Binary32 Binary64,
    result.recognitions.map (fun recognition => recognition.alternatives.length) = [1] ∧
      ∃ outcome, serializeResultV1 result ⟨4096, 4096, fun _ => 0⟩ false = some outcome ∧
        (outcome.status = .ok ∨ outcome.status = .bufferTooSmall ∨
          outcome.status = .resourceExhausted ∨ outcome.status = .configurationError ∧
            (false = true ∨ 4096 % wireAlignment ≠ 0)) := by
  have hreads : ((recognize (composed nanPipeline pixelGenerator .identity
      ⟨{}, by decide +kernel⟩ ⟨{}, by decide +kernel⟩) onePixel ⟨none⟩).returned?
        Frozen.frozen).map (fun result => result.recognitions.map fun recognition =>
          recognition.alternatives.length) = some [1] := by decide +kernel
  obtain ⟨result, hreturned, hlength⟩ := Option.map_eq_some_iff.mp hreads
  obtain ⟨s', hrun⟩ := returned?_eq_some.mp hreturned
  exact ⟨result, hlength, serializeResultV1_recognize frozenClock nanPipeline
    nanPipeline_letTimePass nanPipeline_detector pixelGenerator .identity _ _ onePixel ⟨none⟩ hrun
    ⟨4096, 4096, fun _ => 0⟩ false⟩

end LprPipeline

end FacLpr
