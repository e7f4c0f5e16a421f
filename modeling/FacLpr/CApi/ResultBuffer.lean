import FacLpr.Application.PipelineResult
import FacLpr.CApi.BufferWriter

/-!
# CApi/ResultBuffer — `serialize_result_v1`

A pipeline result is laid out as its root record, the array of plates, and behind each plate its
text and nested arrays; an array is reserved before its elements' own data and filled in after it.
-/

namespace FacLpr

open WireStruct

namespace Wire

def finiteFloat (value : Binary32) (field : String) : Wire Binary32 :=
  if !value.isFinite then raise (providerError (field ++ " is not finite")) else pure value

def probabilityFloat (value : Binary32) (field : String) : Wire Binary32 :=
  if !value.isFinite ∨ value.isNegative ∨ value.exceedsOne then
    raise (providerError (field ++ " is outside [0,1]"))
  else pure value

def latencyToFloat (value : Binary64) : Wire Binary32 :=
  if !value.isFinite ∨ value.isNegative ∨ value.exceedsFloat then
    raise (providerError "result latency is outside v1 wire range")
  else pure value.narrow

def mapStatus : RecognitionStatus → UInt32
  | .accepted => 0
  | .review => 1
  | .rejected => 2

def mapReason : RecognitionDecisionReason → UInt32
  | .acceptedConsensus => 0
  | .fatalProviderFailure => 1
  | .degradedProviderSet => 2
  | .detectorConfidenceBelowMinimum => 3
  | .geometryBelowMinimum => 4
  | .cropQualityBelowMinimum => 5
  | .noValidCandidate => 6
  | .candidateConfidenceBelowReview => 7
  | .candidateConfidenceBelowAccept => 8
  | .conflictingStrongCandidates => 9

/-- `sizeof(T)`, as the wire carries it. -/
def structSizeOf (T : Type) [WireStruct T] : UInt32 := UInt32.ofNat (size T)

def flagOf (value : Bool) : UInt32 := if value then 1 else 0

def appendText (text : Text) : Wire TextRefV1 :=
  if text.isEmpty then pure ⟨0, 0⟩
  else do
    let offset ← reserve text.length
    writeBytes offset text
    return ⟨offset, ← toU32 text.length "text length"⟩

/-- The loop that fills in an array: every element is serialized, then written to its place. -/
def writeElements {β T : Type} [WireStruct T] (serialize : β → Wire T) (offset : UInt32) :
    ℕ → List β → Wire Unit
  | _, [] => pure ()
  | index, item :: rest => do
      let wire ← serialize item
      let place ← elementOffset offset index (size T)
      write place wire
      writeElements serialize offset (index + 1) rest

/-- What the four `append_*` array functions have in common: the offset of an empty array is zero,
any other is reserved, then filled in. -/
def appendArray {β T : Type} [WireStruct T] (field : String) (serialize : β → Wire T)
    (items : List β) : Wire UInt32 :=
  if items.isEmpty then pure 0
  else do
    let bytes ← checkedArrayBytes items.length (size T) field
    let offset ← reserve bytes
    writeElements serialize offset 0 items
    return offset

def serializeCandidate (candidate : PlateCandidate Binary32) : Wire CandidateV1 := do
  let text ← appendText candidate.text
  let confidence ← probabilityFloat candidate.confidence "candidate confidence"
  let calibratedConfidence ←
    probabilityFloat candidate.calibratedConfidence "candidate calibrated confidence"
  return {
    structSize := structSizeOf CandidateV1
    abiVersion
    text
    confidence
    calibratedConfidence
    formatValid := flagOf candidate.formatValid
    reservedZero := 0 }

def appendCandidates (candidates : List (PlateCandidate Binary32)) : Wire UInt32 :=
  appendArray "candidate array size" serializeCandidate candidates

/-- The body of the loop of `append_evidence`. -/
def serializeEvidence (item : RecognitionEvidence Binary32 Binary64) : Wire EvidenceV1 := do
  let candidatesOffset ← appendCandidates item.candidates
  let source ← appendText item.source
  let cropQuality ← probabilityFloat item.cropQuality "evidence crop quality"
  let latencyMs ← latencyToFloat item.latencyMs
  let candidateCount ← toU32 item.candidates.length "evidence candidate count"
  return {
    structSize := structSizeOf EvidenceV1
    abiVersion
    source
    cropQuality
    latencyMs
    candidateCount
    candidatesOffset }

def appendEvidence (evidence : List (RecognitionEvidence Binary32 Binary64)) : Wire UInt32 :=
  appendArray "evidence array size" serializeEvidence evidence

def appendReasons (reasons : List RecognitionDecisionReason) : Wire UInt32 :=
  appendArray "decision reason array size"
    (fun reason => (pure ⟨mapReason reason⟩ : Wire DecisionReasonV1)) reasons

def serializeBbox (bbox : BoundingBox Binary32) : Wire BboxV1 := do
  let x ← finiteFloat bbox.x "bbox x"
  let y ← finiteFloat bbox.y "bbox y"
  let width ← finiteFloat bbox.width "bbox width"
  let height ← finiteFloat bbox.height "bbox height"
  return ⟨x, y, width, height⟩

/-- One iteration of the loop over the corners of a quadrilateral. -/
def serializeCorner (quadrilateral : PlateQuadrilateral Binary32) (index : Fin 4) :
    Wire (PointV1 × Binary32) := do
  let x ← finiteFloat (quadrilateral.points index).x "quadrilateral x"
  let y ← finiteFloat (quadrilateral.points index).y "quadrilateral y"
  let confidence ←
    probabilityFloat (quadrilateral.confidences index) "quadrilateral confidence"
  return (⟨x, y⟩, confidence)

def serializeQuadrilateral (quadrilateral : PlateQuadrilateral Binary32) :
    Wire QuadrilateralV1 := do
  let c₀ ← serializeCorner quadrilateral 0
  let c₁ ← serializeCorner quadrilateral 1
  let c₂ ← serializeCorner quadrilateral 2
  let c₃ ← serializeCorner quadrilateral 3
  return ⟨![c₀.1, c₁.1, c₂.1, c₃.1], ![c₀.2, c₁.2, c₂.2, c₃.2]⟩

/-- A zero-initialized `float`. -/
def zeroFloat : Binary32 := ⟨0⟩

/-- An optional part of a record: its flag and its value, zero-initialized when it is absent. -/
def serializeOption {β T : Type} (zero : T) (serialize : β → Wire T) :
    Option β → Wire (UInt32 × T)
  | none => pure (0, zero)
  | some value => do return (1, ← serialize value)

def serializePlate (result : PlateRecognitionResult Binary32 Binary64) : Wire PlateResultV1 := do
  let plate ← appendText result.plate
  let confidence ← probabilityFloat result.confidence "recognition confidence"
  let detectorConfidence ← probabilityFloat result.detectorConfidence "detector confidence"
  let geometryScore ← probabilityFloat result.geometryScore "geometry score"
  let cropQuality ← probabilityFloat result.cropQuality "crop quality"
  let totalLatencyMs ← latencyToFloat result.totalLatencyMs
  let bbox ← serializeOption ⟨zeroFloat, zeroFloat, zeroFloat, zeroFloat⟩ serializeBbox result.bbox
  let quadrilateral ← serializeOption ⟨fun _ => ⟨zeroFloat, zeroFloat⟩, fun _ => zeroFloat⟩
    serializeQuadrilateral result.quadrilateral
  let evidenceCount ← toU32 result.evidence.length "evidence count"
  let evidenceOffset ← appendEvidence result.evidence
  let alternativesCount ← toU32 result.alternatives.length "alternative count"
  let alternativesOffset ← appendCandidates result.alternatives
  let decisionReasonCount ← toU32 result.decisionReasons.length "decision reason count"
  let decisionReasonsOffset ← appendReasons result.decisionReasons
  return {
    structSize := structSizeOf PlateResultV1
    abiVersion
    status := mapStatus result.status
    degraded := flagOf result.degraded
    plate
    confidence
    detectorConfidence
    geometryScore
    cropQuality
    totalLatencyMs
    hasBbox := bbox.1
    bbox := bbox.2
    hasQuadrilateral := quadrilateral.1
    quadrilateral := quadrilateral.2
    evidenceCount
    evidenceOffset
    alternativesCount
    alternativesOffset
    decisionReasonCount
    decisionReasonsOffset }

/-- The part of `serialize_impl` after the root is reserved: the recognitions, then the root. -/
def serializeRoot (result : LprPipelineResult Binary32 Binary64) : Wire ResultV1 := do
  let recognitionsOffset ←
    appendArray "recognition array size" serializePlate result.recognitions
  let recognitionCount ← toU32 result.recognitions.length "recognition count"
  let totalLatencyMs ← latencyToFloat result.totalLatencyMs
  let providerFailureCount ← toU32 result.providerFailureCount "provider failure count"
  return {
    structSize := structSizeOf ResultV1
    abiVersion
    recognitionCount
    recognitionsOffset
    totalLatencyMs
    degraded := flagOf result.degraded
    providerFailureCount
    reservedZero := 0 }

/-- `serialize_impl` on a fresh writer; the size it returns is the writer's position. -/
def serializeImpl (result : LprPipelineResult Binary32 Binary64) : Wire ℕ := do
  let rootOffset ← reserve (size ResultV1)
  if rootOffset ≠ 0 then raise (internalError "v1 result root must start at buffer offset zero")
  else
    let root ← serializeRoot result
    write rootOffset root
    return (← get).position

end Wire

/-- The writer a pass starts with. -/
def BufferWriter.fresh (bytes : Option Memory) (capacity : ℕ) : BufferWriter where
  bytes
  capacity
  position := 0
  reserved := []

/-- A caller's buffer: its address, zero when it is null, the capacity claimed for it, and the
memory from its start on. -/
structure OutputBuffer where
  address : ℕ
  capacity : ℕ
  contents : Memory

/-- What a call returns: the status, the required size (`none` when the caller's pointer to it is
null), and the memory of the buffer afterwards. -/
structure SerializeOutcome where
  status : FacLprStatus
  required : Option ℕ
  contents : Memory

/-- The status a caught exception is turned into; `none` when a size computation wrapped. -/
def caughtStatus : Fault → Option FacLprStatus
  | .engine error => some (toCStatus error.code)
  | .wrap => none

/-- The memory of the caller's buffer after a pass. -/
def BufferWriter.contents (writer : BufferWriter) (buffer : OutputBuffer) : Memory :=
  writer.bytes.getD buffer.contents

/-- `serialize_result_v1`; `none` when a size computation wraps. -/
def serializeResultV1 (result : LprPipelineResult Binary32 Binary64) (buffer : OutputBuffer)
    (requiredIsNull : Bool) : Option SerializeOutcome :=
  if requiredIsNull then some ⟨.configurationError, none, buffer.contents⟩
  else
    match Wire.serializeImpl result (BufferWriter.fresh none 0) with
    | .error fault _ => (caughtStatus fault).map fun status => ⟨status, some 0, buffer.contents⟩
    | .ok required _ =>
        if buffer.address = 0 ∨ buffer.capacity < required then
          some ⟨.bufferTooSmall, some required, buffer.contents⟩
        else if buffer.address % wireAlignment ≠ 0 then
          some ⟨.configurationError, some required, buffer.contents⟩
        else
          match Wire.serializeImpl result
              (BufferWriter.fresh (some buffer.contents) buffer.capacity) with
          | .error fault writer => (caughtStatus fault).map fun status =>
              ⟨status, some required, writer.contents buffer⟩
          | .ok written writer =>
              some ⟨if written = required then .ok else .internalError, some required,
                writer.contents buffer⟩

end FacLpr
