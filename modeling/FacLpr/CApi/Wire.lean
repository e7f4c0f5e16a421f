import FacLpr.Application.Error
import FacLpr.Foundations.Binary
import FacLpr.Foundations.Memory
import Mathlib.Data.Fin.VecNotation
import Mathlib.Tactic.FinCases

/-!
# CApi/Wire — the v1 structs of the C interface

Every field is 32 bits wide, so a struct is its fields in order without padding.
-/

namespace FacLpr

/-- `fac_lpr_status`. -/
inductive FacLprStatus where
  | ok
  | configurationError
  | modelLoadError
  | inferenceError
  | invalidImage
  | providerError
  | cancelled
  | timeout
  | resourceExhausted
  | internalError
  | bufferTooSmall
  deriving DecidableEq, Repr

def toCStatus : EngineErrorCode → FacLprStatus
  | .configuration => .configurationError
  | .modelLoad => .modelLoadError
  | .inference => .inferenceError
  | .invalidImage => .invalidImage
  | .provider => .providerError
  | .cancelled => .cancelled
  | .timeout => .timeout
  | .resourceExhausted => .resourceExhausted
  | .internal => .internalError

/-- `FAC_LPR_ABI_VERSION_V1`. -/
def abiVersion : UInt32 := 1

/-- `FAC_LPR_RESULT_BUFFER_ALIGNMENT_V1`. -/
def wireAlignment : ℕ := 4

structure TextRefV1 where
  offset : UInt32
  length : UInt32

structure PointV1 where
  x : Binary32
  y : Binary32

structure BboxV1 where
  x : Binary32
  y : Binary32
  width : Binary32
  height : Binary32

instance instNeZeroFour : NeZero 4 := ⟨by decide⟩

structure QuadrilateralV1 where
  points : Fin 4 → PointV1
  confidences : Fin 4 → Binary32

structure CandidateV1 where
  structSize : UInt32
  abiVersion : UInt32
  text : TextRefV1
  confidence : Binary32
  calibratedConfidence : Binary32
  formatValid : UInt32
  reservedZero : UInt32

structure EvidenceV1 where
  structSize : UInt32
  abiVersion : UInt32
  source : TextRefV1
  cropQuality : Binary32
  latencyMs : Binary32
  candidateCount : UInt32
  candidatesOffset : UInt32

/-- `fac_lpr_decision_reason_v1`, a plain word. -/
structure DecisionReasonV1 where
  value : UInt32

structure PlateResultV1 where
  structSize : UInt32
  abiVersion : UInt32
  status : UInt32
  degraded : UInt32
  plate : TextRefV1
  confidence : Binary32
  detectorConfidence : Binary32
  geometryScore : Binary32
  cropQuality : Binary32
  totalLatencyMs : Binary32
  hasBbox : UInt32
  bbox : BboxV1
  hasQuadrilateral : UInt32
  quadrilateral : QuadrilateralV1
  evidenceCount : UInt32
  evidenceOffset : UInt32
  alternativesCount : UInt32
  alternativesOffset : UInt32
  decisionReasonCount : UInt32
  decisionReasonsOffset : UInt32

structure ResultV1 where
  structSize : UInt32
  abiVersion : UInt32
  recognitionCount : UInt32
  recognitionsOffset : UInt32
  totalLatencyMs : Binary32
  degraded : UInt32
  providerFailureCount : UInt32
  reservedZero : UInt32

/-! ## Their layout -/

namespace WireStruct

/-- The `k`-th field of a record. -/
def field (ws : List UInt32) (k : ℕ) : UInt32 := ws.getD k 0

/-- The `k`-th field of a record, a `float`. -/
def floatField (ws : List UInt32) (k : ℕ) : Binary32 := ⟨field ws k⟩

end WireStruct

open WireStruct

instance : WireStruct CandidateV1 where
  words := 8
  encode c := [c.structSize, c.abiVersion, c.text.offset, c.text.length, c.confidence.bits,
    c.calibratedConfidence.bits, c.formatValid, c.reservedZero]
  decode ws := {
    structSize := field ws 0
    abiVersion := field ws 1
    text := ⟨field ws 2, field ws 3⟩
    confidence := floatField ws 4
    calibratedConfidence := floatField ws 5
    formatValid := field ws 6
    reservedZero := field ws 7 }
  length_encode _ := rfl
  decode_encode _ := rfl

instance : WireStruct EvidenceV1 where
  words := 8
  encode e := [e.structSize, e.abiVersion, e.source.offset, e.source.length, e.cropQuality.bits,
    e.latencyMs.bits, e.candidateCount, e.candidatesOffset]
  decode ws := {
    structSize := field ws 0
    abiVersion := field ws 1
    source := ⟨field ws 2, field ws 3⟩
    cropQuality := floatField ws 4
    latencyMs := floatField ws 5
    candidateCount := field ws 6
    candidatesOffset := field ws 7 }
  length_encode _ := rfl
  decode_encode _ := rfl

instance : WireStruct DecisionReasonV1 where
  words := 1
  encode r := [r.value]
  decode ws := ⟨field ws 0⟩
  length_encode _ := rfl
  decode_encode _ := rfl

/-- The words of a quadrilateral: its points, then its confidences. -/
def QuadrilateralV1.encode (q : QuadrilateralV1) : List UInt32 :=
  [(q.points 0).x.bits, (q.points 0).y.bits, (q.points 1).x.bits, (q.points 1).y.bits,
    (q.points 2).x.bits, (q.points 2).y.bits, (q.points 3).x.bits, (q.points 3).y.bits,
    (q.confidences 0).bits, (q.confidences 1).bits, (q.confidences 2).bits, (q.confidences 3).bits]

/-- The quadrilateral whose first field is the `k`-th of a record. -/
def QuadrilateralV1.decode (ws : List UInt32) (k : ℕ) : QuadrilateralV1 where
  points i := ⟨floatField ws (k + 2 * i), floatField ws (k + 2 * i + 1)⟩
  confidences i := floatField ws (k + 8 + i)

/-- A quadrilateral is read back from the middle of a record. -/
theorem QuadrilateralV1.decode_encode (before after : List UInt32) (q : QuadrilateralV1) :
    QuadrilateralV1.decode (before ++ (q.encode ++ after)) before.length = q := by
  have hfield : ∀ k, field (before ++ (q.encode ++ after)) (before.length + k) =
      field (q.encode ++ after) k := fun k => by
    rw [field, field, List.getD_eq_getElem?_getD, List.getD_eq_getElem?_getD,
      List.getElem?_append_right (Nat.le_add_right _ _), Nat.add_sub_cancel_left]
  have hpoints : (QuadrilateralV1.decode (before ++ (q.encode ++ after)) before.length).points =
      q.points := by
    funext i
    simp only [decode, floatField, Nat.add_assoc, hfield]
    fin_cases i <;> rfl
  have hconfidences :
      (QuadrilateralV1.decode (before ++ (q.encode ++ after)) before.length).confidences =
        q.confidences := by
    funext i
    simp only [decode, floatField, Nat.add_assoc, hfield]
    fin_cases i <;> rfl
  cases q
  exact congrArg₂ QuadrilateralV1.mk hpoints hconfidences

/-- The words of a plate result before its quadrilateral. -/
def PlateResultV1.before (p : PlateResultV1) : List UInt32 :=
  [p.structSize, p.abiVersion, p.status, p.degraded, p.plate.offset, p.plate.length,
    p.confidence.bits, p.detectorConfidence.bits, p.geometryScore.bits, p.cropQuality.bits,
    p.totalLatencyMs.bits, p.hasBbox, p.bbox.x.bits, p.bbox.y.bits, p.bbox.width.bits,
    p.bbox.height.bits, p.hasQuadrilateral]

/-- The words of a plate result after its quadrilateral. -/
def PlateResultV1.after (p : PlateResultV1) : List UInt32 :=
  [p.evidenceCount, p.evidenceOffset, p.alternativesCount, p.alternativesOffset,
    p.decisionReasonCount, p.decisionReasonsOffset]

instance : WireStruct PlateResultV1 where
  words := 35
  encode p := p.before ++ (p.quadrilateral.encode ++ p.after)
  decode ws := {
    structSize := field ws 0
    abiVersion := field ws 1
    status := field ws 2
    degraded := field ws 3
    plate := ⟨field ws 4, field ws 5⟩
    confidence := floatField ws 6
    detectorConfidence := floatField ws 7
    geometryScore := floatField ws 8
    cropQuality := floatField ws 9
    totalLatencyMs := floatField ws 10
    hasBbox := field ws 11
    bbox := ⟨floatField ws 12, floatField ws 13, floatField ws 14, floatField ws 15⟩
    hasQuadrilateral := field ws 16
    quadrilateral := QuadrilateralV1.decode ws 17
    evidenceCount := field ws 29
    evidenceOffset := field ws 30
    alternativesCount := field ws 31
    alternativesOffset := field ws 32
    decisionReasonCount := field ws 33
    decisionReasonsOffset := field ws 34 }
  length_encode _ := rfl
  decode_encode p := congrArg (fun q => { p with quadrilateral := q })
    (QuadrilateralV1.decode_encode p.before p.after p.quadrilateral)

instance : WireStruct ResultV1 where
  words := 8
  encode r := [r.structSize, r.abiVersion, r.recognitionCount, r.recognitionsOffset,
    r.totalLatencyMs.bits, r.degraded, r.providerFailureCount, r.reservedZero]
  decode ws := {
    structSize := field ws 0
    abiVersion := field ws 1
    recognitionCount := field ws 2
    recognitionsOffset := field ws 3
    totalLatencyMs := floatField ws 4
    degraded := field ws 5
    providerFailureCount := field ws 6
    reservedZero := field ws 7 }
  length_encode _ := rfl
  decode_encode _ := rfl

end FacLpr
