import FacLpr.Foundations.PrintedNumbers
import FacLpr.Foundations.SizeArithmetic

/-!
# Tools/ModelInspector — the model inspector's reader of ONNX files

`parse_model` walks over the bytes of the file with an offset, in wrapping 64-bit arithmetic.  A
byte read or a subspan taken outside the bytes is a fault of its own (`InspectorFault.outOfBounds`),
and so is a loop that does not come to its end.
-/

namespace FacLpr

namespace ModelInspector

structure OpsetImport where
  domain : Text := []
  version : UInt64 := 0
  deriving DecidableEq

structure TensorInfo where
  name : Text := []
  elementType : UInt64 := 0
  dimensions : List Text := []
  deriving DecidableEq

structure MetadataEntry where
  key : Text := []
  value : Text := []
  deriving DecidableEq

structure ModelInfo where
  irVersion : UInt64 := 0
  producerName : Text := []
  producerVersion : Text := []
  domain : Text := []
  modelVersion : UInt64 := 0
  docString : Text := []
  graphName : Text := []
  graphDocString : Text := []
  opsets : List OpsetImport := []
  metadata : List MetadataEntry := []
  inputs : List TensorInfo := []
  outputs : List TensorInfo := []
  deriving DecidableEq

/-- What ends a call early: a `std::runtime_error`, a read outside the bytes, or nothing at all. -/
inductive InspectorFault where
  | runtimeError (message : String)
  | outOfBounds
  | diverges
  deriving DecidableEq

/-! ## Reading at an offset -/

/-- The rounds of `read_varint`: ten pass the guard on `shift`, the eleventh throws. -/
def readVarintFrom (data : ByteSpan) :
    (rounds : ℕ) → (offset value : UInt64) → (shift : ℕ) →
      Except InspectorFault (UInt64 × UInt64)
  | 0, _, _, _ => .error .diverges
  | rounds + 1, offset, value, shift =>
    if offset < data.size ∧ shift < 64 then
      match data.bytes[offset.toNat]? with
      | none => .error .outOfBounds
      | some byte =>
        let value := value ||| ((byte &&& 0x7F).toUInt64 <<< UInt64.ofNat shift)
        if byte &&& 0x80 = 0 then .ok (value, offset + 1)
        else readVarintFrom data rounds (offset + 1) value (shift + 7)
    else .error (.runtimeError "invalid protobuf varint")

/-- `read_varint`. -/
def readVarint (data : ByteSpan) (offset : UInt64) : Except InspectorFault (UInt64 × UInt64) :=
  readVarintFrom data 11 offset 0 0

/-- `data.subspan(offset, count)`, which must be inside. -/
def subspanWithin (data : ByteSpan) (offset count : UInt64) : Except InspectorFault ByteSpan :=
  if offset ≤ data.size ∧ count ≤ data.size - offset then .ok (data.subspan offset count)
  else .error .outOfBounds

/-- `read_bytes`. -/
def readBytes (data : ByteSpan) (offset : UInt64) (field : String) :
    Except InspectorFault (ByteSpan × UInt64) := do
  let (length, offset) ← readVarint data offset
  if data.size - offset < length then
    .error (.runtimeError ("truncated protobuf field: " ++ field))
  else
    let result ← subspanWithin data offset length
    .ok (result, offset + length)

/-- `read_string`. -/
def readString (data : ByteSpan) (offset : UInt64) (field : String) :
    Except InspectorFault (Text × UInt64) := do
  let (bytes, offset) ← readBytes data offset field
  .ok (bytes.bytes, offset)

/-- `skip_field`. -/
def skipField (data : ByteSpan) (offset : UInt64) (wireType : UInt32) :
    Except InspectorFault UInt64 :=
  if wireType = 0 then do
    let (_, offset) ← readVarint data offset
    .ok offset
  else if wireType = 1 then
    if data.size - offset < 8 then .error (.runtimeError "truncated protobuf fixed64 field")
    else .ok (offset + 8)
  else if wireType = 2 then do
    let (_, offset) ← readBytes data offset "length-delimited"
    .ok offset
  else if wireType = 5 then
    if data.size - offset < 4 then .error (.runtimeError "truncated protobuf fixed32 field")
    else .ok (offset + 4)
  else .error (.runtimeError "unsupported protobuf wire type")

/-- The fields none of the branches reads. -/
def skipInto {σ : Type} (data : ByteSpan) (result : σ) (wire : UInt32) (offset : UInt64) :
    Except InspectorFault (σ × UInt64) := do
  let offset ← skipField data offset wire
  .ok (result, offset)

/-! ## The loops over the fields -/

section Loop

variable {σ : Type}

/-- What a body does with one field: its number, wire type and offset are given. -/
abbrev FieldBody (σ : Type) : Type :=
  σ → (field wire : UInt32) → (offset : UInt64) → Except InspectorFault (σ × UInt64)

/-- `while (offset < bytes.size())` over the body. -/
def fieldsFrom (bytes : ByteSpan) (onField : FieldBody σ) :
    (rounds : ℕ) → (offset : UInt64) → σ → Except InspectorFault σ
  | 0, _, _ => .error .diverges
  | rounds + 1, offset, result =>
    if offset < bytes.size then do
      let (tag, offset) ← readVarint bytes offset
      let (result, offset) ← onField result (tag >>> 3).toUInt32 (tag &&& 0x07).toUInt32 offset
      fieldsFrom bytes onField rounds offset result
    else .ok result

/-- The loop from the first byte: every round moves the offset, so there are no more of them than
bytes. -/
def parseFields (bytes : ByteSpan) (onField : FieldBody σ) (result : σ) :
    Except InspectorFault σ :=
  fieldsFrom bytes onField (bytes.bytes.length + 1) 0 result

end Loop

def parseOpset (bytes : ByteSpan) : Except InspectorFault OpsetImport :=
  parseFields bytes (fun result field wire offset =>
    if field = 1 ∧ wire = 2 then do
      let (domain, offset) ← readString bytes offset "opset domain"
      .ok ({ result with domain := domain }, offset)
    else if field = 2 ∧ wire = 0 then do
      let (version, offset) ← readVarint bytes offset
      .ok ({ result with version := version }, offset)
    else skipInto bytes result wire offset) {}

def parseMetadata (bytes : ByteSpan) : Except InspectorFault MetadataEntry :=
  parseFields bytes (fun result field wire offset =>
    if field = 1 ∧ wire = 2 then do
      let (key, offset) ← readString bytes offset "metadata key"
      .ok ({ result with key := key }, offset)
    else if field = 2 ∧ wire = 2 then do
      let (value, offset) ← readString bytes offset "metadata value"
      .ok ({ result with value := value }, offset)
    else skipInto bytes result wire offset) {}

/-- The inner loop of `parse_shape`. -/
def parseDimension (bytes : ByteSpan) : Except InspectorFault Text :=
  parseFields bytes (fun dimension field wire offset =>
    if field = 1 ∧ wire = 0 then do
      let (value, offset) ← readVarint bytes offset
      .ok (decimal value.toNat, offset)
    else if field = 2 ∧ wire = 2 then do
      let (dimension, offset) ← readString bytes offset "symbolic dimension"
      .ok (dimension, offset)
    else skipInto bytes dimension wire offset) (ascii "?")

def parseShape (bytes : ByteSpan) : Except InspectorFault (List Text) :=
  parseFields bytes (fun dimensions field wire offset =>
    if field ≠ 1 ∨ wire ≠ 2 then skipInto bytes dimensions wire offset
    else do
      let (dimensionBytes, offset) ← readBytes bytes offset "tensor dimension"
      let dimension ← parseDimension dimensionBytes
      .ok (dimensions ++ [dimension], offset)) []

def parseTensorType (bytes : ByteSpan) : Except InspectorFault (UInt64 × List Text) :=
  parseFields bytes (fun result field wire offset =>
    if field = 1 ∧ wire = 0 then do
      let (elementType, offset) ← readVarint bytes offset
      .ok ((elementType, result.2), offset)
    else if field = 2 ∧ wire = 2 then do
      let (shapeBytes, offset) ← readBytes bytes offset "tensor shape"
      let shape ← parseShape shapeBytes
      .ok ((result.1, shape), offset)
    else skipInto bytes result wire offset) (0, [])

/-- The loop of `parse_type`, which returns at the first tensor type. -/
def parseTypeFrom (bytes : ByteSpan) :
    (rounds : ℕ) → (offset : UInt64) → Except InspectorFault (UInt64 × List Text)
  | 0, _ => .error .diverges
  | rounds + 1, offset =>
    if offset < bytes.size then do
      let (tag, offset) ← readVarint bytes offset
      if (tag >>> 3).toUInt32 = 1 ∧ (tag &&& 0x07).toUInt32 = 2 then do
        let (tensorType, _) ← readBytes bytes offset "tensor type"
        parseTensorType tensorType
      else do
        let offset ← skipField bytes offset (tag &&& 0x07).toUInt32
        parseTypeFrom bytes rounds offset
    else .ok (0, [])

def parseType (bytes : ByteSpan) : Except InspectorFault (UInt64 × List Text) :=
  parseTypeFrom bytes (bytes.bytes.length + 1) 0

def parseValueInfo (bytes : ByteSpan) : Except InspectorFault TensorInfo :=
  parseFields bytes (fun result field wire offset =>
    if field = 1 ∧ wire = 2 then do
      let (name, offset) ← readString bytes offset "value name"
      .ok ({ result with name := name }, offset)
    else if field = 2 ∧ wire = 2 then do
      let (typeBytes, offset) ← readBytes bytes offset "value type"
      let type ← parseType typeBytes
      .ok ({ result with elementType := type.1, dimensions := type.2 }, offset)
    else skipInto bytes result wire offset) {}

def parseGraph (bytes : ByteSpan) (model : ModelInfo) : Except InspectorFault ModelInfo :=
  parseFields bytes (fun model field wire offset =>
    if field = 2 ∧ wire = 2 then do
      let (graphName, offset) ← readString bytes offset "graph name"
      .ok ({ model with graphName := graphName }, offset)
    else if field = 10 ∧ wire = 2 then do
      let (graphDocString, offset) ← readString bytes offset "graph doc string"
      .ok ({ model with graphDocString := graphDocString }, offset)
    else if field = 11 ∧ wire = 2 then do
      let (inputBytes, offset) ← readBytes bytes offset "graph input"
      let input ← parseValueInfo inputBytes
      .ok ({ model with inputs := model.inputs ++ [input] }, offset)
    else if field = 12 ∧ wire = 2 then do
      let (outputBytes, offset) ← readBytes bytes offset "graph output"
      let output ← parseValueInfo outputBytes
      .ok ({ model with outputs := model.outputs ++ [output] }, offset)
    else skipInto bytes model wire offset) model

/-- One round of the loop of `parse_model`. -/
def modelField (bytes : ByteSpan) : FieldBody ModelInfo := fun model field wire offset =>
  if field = 1 ∧ wire = 0 then do
    let (irVersion, offset) ← readVarint bytes offset
    .ok ({ model with irVersion := irVersion }, offset)
  else if field = 2 ∧ wire = 2 then do
    let (producerName, offset) ← readString bytes offset "producer name"
    .ok ({ model with producerName := producerName }, offset)
  else if field = 3 ∧ wire = 2 then do
    let (producerVersion, offset) ← readString bytes offset "producer version"
    .ok ({ model with producerVersion := producerVersion }, offset)
  else if field = 4 ∧ wire = 2 then do
    let (domain, offset) ← readString bytes offset "domain"
    .ok ({ model with domain := domain }, offset)
  else if field = 5 ∧ wire = 0 then do
    let (modelVersion, offset) ← readVarint bytes offset
    .ok ({ model with modelVersion := modelVersion }, offset)
  else if field = 6 ∧ wire = 2 then do
    let (docString, offset) ← readString bytes offset "model doc string"
    .ok ({ model with docString := docString }, offset)
  else if field = 7 ∧ wire = 2 then do
    let (graphBytes, offset) ← readBytes bytes offset "graph"
    let model ← parseGraph graphBytes model
    .ok (model, offset)
  else if field = 8 ∧ wire = 2 then do
    let (opsetBytes, offset) ← readBytes bytes offset "opset import"
    let opset ← parseOpset opsetBytes
    .ok ({ model with opsets := model.opsets ++ [opset] }, offset)
  else if field = 14 ∧ wire = 2 then do
    let (metadataBytes, offset) ← readBytes bytes offset "metadata entry"
    let entry ← parseMetadata metadataBytes
    .ok ({ model with metadata := model.metadata ++ [entry] }, offset)
  else skipInto bytes model wire offset

/-! ## The file -/

/-- The open file: what `tellg` says at its end, negative where it fails, and the bytes that are
read. -/
structure ModelStream where
  tellg : ℤ
  bytes : Text

/-- `maximum_inspector_model_bytes`. -/
def maximumInspectorModelBytes : ℕ := 2 * 1024 * 1024 * 1024

def readModelBytes (stream : Option ModelStream) : Except InspectorFault ByteSpan :=
  match stream with
  | none => .error (.runtimeError "cannot open model file")
  | some stream =>
    if stream.tellg < 0 then .error (.runtimeError "cannot determine model file size")
    else if h : maximumInspectorModelBytes < stream.tellg.toNat ∨ sizeMax < stream.tellg.toNat then
      .error (.runtimeError "model is too large for inspector safety limit")
    else if stream.bytes.length < stream.tellg.toNat then
      .error (.runtimeError "cannot read complete model file")
    else .ok ⟨stream.bytes.take stream.tellg.toNat,
      (List.length_take_le _ _).trans (not_lt.mp (not_or.mp h).2)⟩

/-- `parse_model`. -/
def parseModel (stream : Option ModelStream) : Except InspectorFault ModelInfo := do
  let bytes ← readModelBytes stream
  let model ← parseFields bytes (modelField bytes) {}
  if model.inputs = [] ∨ model.outputs = [] then
    .error (.runtimeError "model has no tensor inputs or outputs")
  else .ok model

end ModelInspector

end FacLpr
