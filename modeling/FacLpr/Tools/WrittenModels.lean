import FacLpr.Tools.InspectedModels

/-!
# Tools/WrittenModels — files of ONNX models, and what the inspector says of them

A model is described by a file in many ways: a writer puts nodes, weights and whatever later
versions of the format add between the fields the inspector knows, at every level.  Whatever is
between them, the inspector reads the model (`parseModel_of_writesModel`).  `writeModel` is one such
writer (`writesModel_writeModel`).
-/

namespace FacLpr

open TaggedFields

namespace ModelInspector

/-! ## Models -/

/-- An extent of a tensor: not said, a number, or a name. -/
inductive Dimension where
  | unknown
  | value (number : UInt64)
  | symbol (name : Text)

/-- How an extent is shown. -/
def Dimension.text : Dimension → Text
  | .unknown => ascii "?"
  | .value number => decimal number.toNat
  | .symbol name => name

/-- A named value of the graph: the type of its elements and its shape. -/
structure ValueInfo where
  name : Text
  elementType : UInt64
  shape : List Dimension

/-- What there is to say of a value. -/
def ValueInfo.tensorInfo (value : ValueInfo) : TensorInfo :=
  ⟨value.name, value.elementType, value.shape.map Dimension.text⟩

/-- A model, as far as the inspector looks at it. -/
structure OnnxModel where
  irVersion : UInt64
  producerName : Text
  producerVersion : Text
  domain : Text
  modelVersion : UInt64
  docString : Text
  graphName : Text
  graphDocString : Text
  opsets : List OpsetImport
  metadata : List MetadataEntry
  inputs : List ValueInfo
  outputs : List ValueInfo

/-- What there is to say of a model. -/
def OnnxModel.modelInfo (model : OnnxModel) : ModelInfo where
  irVersion := model.irVersion
  producerName := model.producerName
  producerVersion := model.producerVersion
  domain := model.domain
  modelVersion := model.modelVersion
  docString := model.docString
  graphName := model.graphName
  graphDocString := model.graphDocString
  opsets := model.opsets
  metadata := model.metadata
  inputs := model.inputs.map ValueInfo.tensorInfo
  outputs := model.outputs.map ValueInfo.tensorInfo

/-! ## The fields that are known

A field is known to a reader when it has the number and the kind of payload one of the reader's
cases asks for. -/

def isOpsetField (field : Field) : Bool := (field.bytesAt 1).isSome || (field.varintAt 2).isSome

def isMetadataField (field : Field) : Bool := (field.bytesAt 1).isSome || (field.bytesAt 2).isSome

/-- An extent is a number or a name. -/
def isDimensionField (field : Field) : Bool := (field.varintAt 1).isSome || (field.bytesAt 2).isSome

def isShapeField (field : Field) : Bool := (field.bytesAt 1).isSome

/-- The element type and the shape. -/
def isTensorTypeField (field : Field) : Bool :=
  (field.varintAt 1).isSome || (field.bytesAt 2).isSome

def isTypeField (field : Field) : Bool := (field.bytesAt 1).isSome

def isValueInfoField (field : Field) : Bool := (field.bytesAt 1).isSome || (field.bytesAt 2).isSome

/-- The name of a graph, its description, its inputs and its outputs. -/
def isGraphField (field : Field) : Bool :=
  (field.bytesAt 2).isSome || (field.bytesAt 10).isSome || (field.bytesAt 11).isSome ||
    (field.bytesAt 12).isSome

/-- The fields of `parse_model`: versions, producer, domain, description, graph, operator sets and
metadata. -/
def isModelField (field : Field) : Bool :=
  (field.varintAt 1).isSome || (field.bytesAt 2).isSome || (field.bytesAt 3).isSome ||
    (field.bytesAt 4).isSome || (field.varintAt 5).isSome || (field.bytesAt 6).isSome ||
    (field.bytesAt 7).isSome || (field.bytesAt 8).isSome || (field.bytesAt 14).isSome

/-! ## Writings -/

/-- The fields of an operator set. -/
def opsetFields (opset : OpsetImport) : List Field :=
  [⟨1, .bytes opset.domain⟩, ⟨2, .varint opset.version⟩]

/-- The fields of a metadata entry. -/
def metadataFields (entry : MetadataEntry) : List Field :=
  [⟨1, .bytes entry.key⟩, ⟨2, .bytes entry.value⟩]

/-- The fields of an extent: none when it is not said. -/
def dimensionFields : Dimension → List Field
  | .unknown => []
  | .value number => [⟨1, .varint number⟩]
  | .symbol name => [⟨2, .bytes name⟩]

/-- A message that carries the operator set. -/
def WritesOpset (opset : OpsetImport) (bytes : Text) : Prop :=
  Carries isOpsetField (opsetFields opset) bytes

/-- A message that carries the metadata entry. -/
def WritesMetadata (entry : MetadataEntry) (bytes : Text) : Prop :=
  Carries isMetadataField (metadataFields entry) bytes

/-- A message that carries the extent. -/
def WritesDimension (dimension : Dimension) (bytes : Text) : Prop :=
  Carries isDimensionField (dimensionFields dimension) bytes

/-- A message that carries the writings of the extents, in their order. -/
def WritesShape (shape : List Dimension) (bytes : Text) : Prop :=
  ∃ dimensions, List.Forall₂ WritesDimension shape dimensions ∧
    Carries isShapeField (dimensions.map fun content => ⟨1, .bytes content⟩) bytes

/-- A message that carries the element type and a writing of the shape. -/
def WritesTensorType (value : ValueInfo) (bytes : Text) : Prop :=
  ∃ shape, WritesShape value.shape shape ∧
    Carries isTensorTypeField [⟨1, .varint value.elementType⟩, ⟨2, .bytes shape⟩] bytes

/-- The tensor type sits in a message of its own. -/
def WritesType (value : ValueInfo) (bytes : Text) : Prop :=
  ∃ tensorType, WritesTensorType value tensorType ∧
    Carries isTypeField [⟨1, .bytes tensorType⟩] bytes

/-- A message that carries the name of a value and a writing of its type. -/
def WritesValueInfo (value : ValueInfo) (bytes : Text) : Prop :=
  ∃ type, WritesType value type ∧
    Carries isValueInfoField [⟨1, .bytes value.name⟩, ⟨2, .bytes type⟩] bytes

/-- The fields of a graph around the writings of its inputs and outputs. -/
def graphFields (model : OnnxModel) (inputs outputs : List Text) : List Field :=
  [⟨2, .bytes model.graphName⟩, ⟨10, .bytes model.graphDocString⟩] ++
    inputs.map (fun content => ⟨11, .bytes content⟩) ++
    outputs.map fun content => ⟨12, .bytes content⟩

/-- A message that carries a graph around writings of its inputs and outputs. -/
def WritesGraph (model : OnnxModel) (bytes : Text) : Prop :=
  ∃ inputs outputs, List.Forall₂ WritesValueInfo model.inputs inputs ∧
    List.Forall₂ WritesValueInfo model.outputs outputs ∧
    Carries isGraphField (graphFields model inputs outputs) bytes

/-- The fields of a model around the writings of its graph, operator sets and metadata. -/
def modelFields (model : OnnxModel) (graph : Text) (opsets metadata : List Text) : List Field :=
  [⟨1, .varint model.irVersion⟩, ⟨2, .bytes model.producerName⟩, ⟨3, .bytes model.producerVersion⟩,
    ⟨4, .bytes model.domain⟩, ⟨5, .varint model.modelVersion⟩, ⟨6, .bytes model.docString⟩,
    ⟨7, .bytes graph⟩] ++
    opsets.map (fun content => ⟨8, .bytes content⟩) ++
    metadata.map fun content => ⟨14, .bytes content⟩

/-- **A file that describes the model**, whatever else is in it. -/
def WritesModel (model : OnnxModel) (bytes : Text) : Prop :=
  ∃ graph opsets metadata, WritesGraph model graph ∧
    List.Forall₂ WritesOpset model.opsets opsets ∧
    List.Forall₂ WritesMetadata model.metadata metadata ∧
    Carries isModelField (modelFields model graph opsets metadata) bytes

/-! ## They are read -/

/-- A field that is none of several is none of the last. -/
theorem isNone_of_or {a : Bool} {α : Type} {o : Option α} (h : (a || o.isSome) = false) :
    a = false ∧ o = none := by
  rw [Bool.or_eq_false_iff, Option.isSome_eq_false_iff, Option.isNone_iff_eq_none] at h
  exact h

theorem isNone_of_isSome {α : Type} {o : Option α} (h : o.isSome = false) : o = none := by
  rwa [Option.isSome_eq_false_iff, Option.isNone_iff_eq_none] at h

/-- An operator set is read back. -/
theorem foldFields_opset {opset : OpsetImport} {bytes : Text} (h : WritesOpset opset bytes) :
    foldFields opsetOf {} bytes = some opset := by
  refine (h.foldFields_eq (fun result field hfield => ?_) _).trans rfl
  obtain ⟨hdomain, hversion⟩ := isNone_of_or hfield
  rw [opsetOf, isNone_of_isSome hdomain, hversion]

/-- A metadata entry is read back. -/
theorem foldFields_metadata {entry : MetadataEntry} {bytes : Text}
    (h : WritesMetadata entry bytes) : foldFields metadataOf {} bytes = some entry := by
  refine (h.foldFields_eq (fun result field hfield => ?_) _).trans rfl
  obtain ⟨hkey, hvalue⟩ := isNone_of_or hfield
  rw [metadataOf, isNone_of_isSome hkey, hvalue]

/-- An extent is read as the text it is shown by. -/
theorem foldFields_dimension {dimension : Dimension} {bytes : Text}
    (h : WritesDimension dimension bytes) :
    foldFields dimensionOf (ascii "?") bytes = some dimension.text := by
  refine (h.foldFields_eq (fun text field hfield => ?_) _).trans ?_
  · obtain ⟨hvalue, hname⟩ := isNone_of_or hfield
    rw [dimensionOf, isNone_of_isSome hvalue, hname]
  · cases dimension <;> rfl

/-- Items put behind a list one at a time are put behind it together. -/
theorem foldl_put {σ ι β : Type} (put : σ → List β → σ) (hnil : ∀ value, put value [] = value)
    (happend : ∀ value items more, put (put value items) more = put value (items ++ more))
    (f : ι → β) (items : List ι) (value : σ) :
    items.foldl (fun value item => put value [f item]) value = put value (items.map f) := by
  induction items generalizing value with
  | nil => exact (hnil value).symm
  | cons item items ih => rw [List.foldl_cons, ih, happend, List.map_cons, List.singleton_append]

/-- A shape is read back, in the order of its extents. -/
theorem foldFields_shape {shape : List Dimension} {bytes : Text} (h : WritesShape shape bytes) :
    foldFields shapeOf [] bytes = some (shape.map Dimension.text) := by
  obtain ⟨dimensions, hdimensions, hcarries⟩ := h
  rw [hcarries.foldFields_eq fun result field hfield => by rw [shapeOf, isNone_of_isSome hfield]]
  have hwritten : List.Forall₂ (fun (dimension : Dimension) content => ∀ result : List Text,
      shapeOf result ⟨1, .bytes content⟩ = some (result ++ [dimension.text])) shape dimensions := by
    refine hdimensions.imp fun dimension content hdimension result => ?_
    rw [shapeOf, Field.bytesAt_self]
    simp only [foldFields_dimension hdimension, Option.map_some]
  rw [foldlM_writings hwritten, foldl_put (· ++ ·) List.append_nil List.append_assoc,
    List.nil_append]

theorem foldFields_tensorType {value : ValueInfo} {bytes : Text}
    (h : WritesTensorType value bytes) :
    foldFields tensorTypeOf (0, []) bytes =
      some (value.elementType, value.shape.map Dimension.text) := by
  obtain ⟨shape, hshape, hcarries⟩ := h
  refine (hcarries.foldFields_eq (fun result field hfield => ?_) _).trans ?_
  · obtain ⟨htype, hshape⟩ := isNone_of_or hfield
    rw [tensorTypeOf, isNone_of_isSome htype, hshape]
  · simp [tensorTypeOf, Field.varintAt, foldFields_shape hshape]

/-- The first tensor type of the message is the one that is read. -/
theorem typeOf_writesType {value : ValueInfo} {bytes : Text} (h : WritesType value bytes) :
    typeOf bytes = some (value.elementType, value.shape.map Dimension.text) := by
  obtain ⟨tensorType, htensorType, hcarries⟩ := h
  rw [typeOf, Carries.findBytes_eq hcarries (Field.bytesAt_self 1 tensorType)]
  exact foldFields_tensorType htensorType

/-- A value is read back. -/
theorem foldFields_valueInfo {value : ValueInfo} {bytes : Text} (h : WritesValueInfo value bytes) :
    foldFields valueInfoOf {} bytes = some value.tensorInfo := by
  obtain ⟨type, htype, hcarries⟩ := h
  refine (hcarries.foldFields_eq (fun result field hfield => ?_) _).trans ?_
  · obtain ⟨hname, htype⟩ := isNone_of_or hfield
    rw [valueInfoOf, isNone_of_isSome hname, htype]
  · simp [valueInfoOf, Field.bytesAt, typeOf_writesType htype, ValueInfo.tensorInfo]

/-- Put inputs behind those that were read. -/
def ModelInfo.addInputs (info : ModelInfo) (inputs : List TensorInfo) : ModelInfo :=
  { info with inputs := info.inputs ++ inputs }

/-- Put outputs behind those that were read. -/
def ModelInfo.addOutputs (info : ModelInfo) (outputs : List TensorInfo) : ModelInfo :=
  { info with outputs := info.outputs ++ outputs }

/-- Put operator sets behind those that were read. -/
def ModelInfo.addOpsets (info : ModelInfo) (opsets : List OpsetImport) : ModelInfo :=
  { info with opsets := info.opsets ++ opsets }

/-- Put metadata entries behind those that were read. -/
def ModelInfo.addMetadata (info : ModelInfo) (metadata : List MetadataEntry) : ModelInfo :=
  { info with metadata := info.metadata ++ metadata }

/-- **A graph is read back**: its names are set, and its values come behind those that were read. -/
theorem foldFields_graph {model : OnnxModel} {bytes : Text} (h : WritesGraph model bytes)
    (info : ModelInfo) :
    foldFields graphOf info bytes = some { info with
      graphName := model.graphName
      graphDocString := model.graphDocString
      inputs := info.inputs ++ model.inputs.map ValueInfo.tensorInfo
      outputs := info.outputs ++ model.outputs.map ValueInfo.tensorInfo } := by
  obtain ⟨inputs, outputs, hinputs, houtputs, hcarries⟩ := h
  refine (hcarries.foldFields_eq (fun result field hfield => ?_) _).trans ?_
  · obtain ⟨hfield, houtput⟩ := isNone_of_or hfield
    obtain ⟨hfield, hinput⟩ := isNone_of_or hfield
    obtain ⟨hname, hdoc⟩ := isNone_of_or hfield
    rw [graphOf, isNone_of_isSome hname, hdoc, hinput, houtput]
  have hinput : List.Forall₂ (fun (value : ValueInfo) content => ∀ info : ModelInfo,
      graphOf info ⟨11, .bytes content⟩ =
        some (info.addInputs [value.tensorInfo])) model.inputs inputs :=
    hinputs.imp fun value content hvalue info =>
      congrArg (Option.map _) (foldFields_valueInfo hvalue)
  have houtput : List.Forall₂ (fun (value : ValueInfo) content => ∀ info : ModelInfo,
      graphOf info ⟨12, .bytes content⟩ =
        some (info.addOutputs [value.tensorInfo])) model.outputs outputs :=
    houtputs.imp fun value content hvalue info =>
      congrArg (Option.map _) (foldFields_valueInfo hvalue)
  have hnames : List.foldlM graphOf info
      [⟨2, .bytes model.graphName⟩, ⟨10, .bytes model.graphDocString⟩] =
      some { info with graphName := model.graphName, graphDocString := model.graphDocString } := rfl
  rw [graphFields, List.foldlM_append, List.foldlM_append, hnames, Option.bind_eq_bind,
    Option.bind_some, foldlM_writings hinput, Option.bind_some,
    foldlM_writings houtput,
    foldl_put ModelInfo.addInputs (by simp [ModelInfo.addInputs]) (by simp [ModelInfo.addInputs]),
    foldl_put ModelInfo.addOutputs (by simp [ModelInfo.addOutputs])
      (by simp [ModelInfo.addOutputs])]
  rfl

/-- **A model is read back.** -/
theorem foldFields_model {model : OnnxModel} {bytes : Text} (h : WritesModel model bytes) :
    foldFields modelFieldOf {} bytes = some model.modelInfo := by
  obtain ⟨graph, opsets, metadata, hgraph, hopsets, hmetadata, hcarries⟩ := h
  refine (hcarries.foldFields_eq (fun result field hfield => ?_) _).trans ?_
  · obtain ⟨hfield, h14⟩ := isNone_of_or hfield
    obtain ⟨hfield, h8⟩ := isNone_of_or hfield
    obtain ⟨hfield, h7⟩ := isNone_of_or hfield
    obtain ⟨hfield, h6⟩ := isNone_of_or hfield
    obtain ⟨hfield, h5⟩ := isNone_of_or hfield
    obtain ⟨hfield, h4⟩ := isNone_of_or hfield
    obtain ⟨hfield, h3⟩ := isNone_of_or hfield
    obtain ⟨h1, h2⟩ := isNone_of_or hfield
    rw [modelFieldOf, isNone_of_isSome h1, h2, h3, h4, h5, h6, h7, h8, h14]
  have hopset : List.Forall₂ (fun opset content => ∀ info : ModelInfo,
      modelFieldOf info ⟨8, .bytes content⟩ =
        some (info.addOpsets [opset])) model.opsets opsets :=
    hopsets.imp fun opset content hopset info =>
      congrArg (Option.map _) (foldFields_opset hopset)
  have hentry : List.Forall₂ (fun entry content => ∀ info : ModelInfo,
      modelFieldOf info ⟨14, .bytes content⟩ =
        some (info.addMetadata [entry])) model.metadata metadata :=
    hmetadata.imp fun entry content hentry info =>
      congrArg (Option.map _) (foldFields_metadata hentry)
  have hfirst : List.foldlM modelFieldOf {} [⟨1, .varint model.irVersion⟩,
      ⟨2, .bytes model.producerName⟩, ⟨3, .bytes model.producerVersion⟩, ⟨4, .bytes model.domain⟩,
      ⟨5, .varint model.modelVersion⟩, ⟨6, .bytes model.docString⟩, ⟨7, .bytes graph⟩] =
      some { model.modelInfo with opsets := [], metadata := [] } := by
    simp [modelFieldOf, Field.varintAt, Field.bytesAt, foldFields_graph hgraph, OnnxModel.modelInfo]
  rw [modelFields, List.foldlM_append, List.foldlM_append, hfirst, Option.bind_eq_bind,
    Option.bind_some, foldlM_writings hopset, Option.bind_some,
    foldlM_writings hentry]
  have hopsets := foldl_put ModelInfo.addOpsets (by simp [ModelInfo.addOpsets])
    (by simp [ModelInfo.addOpsets]) id model.opsets
  have hmetadata := foldl_put ModelInfo.addMetadata (by simp [ModelInfo.addMetadata])
    (by simp [ModelInfo.addMetadata]) id model.metadata
  simp only [id_eq, List.map_id] at hopsets hmetadata
  rw [hopsets, hmetadata]
  rfl

/-! ## A writer -/

/-- The extents of a shape, one message each. -/
def writeShape (shape : List Dimension) : Text :=
  write ((shape.map fun dimension => write (dimensionFields dimension)).map
    fun content => ⟨1, .bytes content⟩)

def writeTensorType (value : ValueInfo) : Text :=
  write [⟨1, .varint value.elementType⟩, ⟨2, .bytes (writeShape value.shape)⟩]

def writeType (value : ValueInfo) : Text := write [⟨1, .bytes (writeTensorType value)⟩]

/-- The name of a value and its type, three messages deep. -/
def writeValueInfo (value : ValueInfo) : Text :=
  write [⟨1, .bytes value.name⟩, ⟨2, .bytes (writeType value)⟩]

/-- The fields of the graph and no others. -/
def writeGraph (model : OnnxModel) : Text :=
  write (graphFields model (model.inputs.map writeValueInfo) (model.outputs.map writeValueInfo))

/-- The fields of the model, in the order of their numbers, and no others. -/
def writeModel (model : OnnxModel) : Text :=
  write (modelFields model (writeGraph model)
    (model.opsets.map fun opset => write (opsetFields opset))
    (model.metadata.map fun entry => write (metadataFields entry)))

theorem writesShape_writeShape {shape : List Dimension} (h : (writeShape shape).length < 2 ^ 64) :
    WritesShape shape (writeShape shape) := by
  refine ⟨shape.map fun dimension => write (dimensionFields dimension), ?_, carries_write h ?_ ?_⟩
  · rw [List.forall₂_map_right_iff, List.forall₂_same]
    intro dimension hmem
    refine carries_write ((length_content_le_write 1 ?_).trans_lt h) ?_ ?_
    · simpa using ⟨dimension, hmem, rfl⟩
    all_goals cases dimension <;> simp [dimensionFields, Payload.wireType, isDimensionField]
  all_goals simp [Payload.wireType, isShapeField]

/-- A written value is a writing of it: every message in it is shorter than the whole. -/
theorem writesValueInfo_writeValueInfo {value : ValueInfo}
    (h : (writeValueInfo value).length < 2 ^ 64) :
    WritesValueInfo value (writeValueInfo value) := by
  have htype : (writeType value).length < 2 ^ 64 :=
    (length_content_le_write 2 (by simp)).trans_lt h
  have htensor : (writeTensorType value).length < 2 ^ 64 :=
    (length_content_le_write 1 (by simp)).trans_lt htype
  have hshape : (writeShape value.shape).length < 2 ^ 64 :=
    (length_content_le_write 2 (by simp)).trans_lt htensor
  refine ⟨writeType value, ⟨writeTensorType value, ⟨writeShape value.shape,
    writesShape_writeShape hshape, carries_write htensor ?_ ?_⟩, carries_write htype ?_ ?_⟩,
    carries_write h ?_ ?_⟩
  all_goals simp [Payload.wireType, isTensorTypeField, isTypeField, isValueInfoField]

theorem writesGraph_writeGraph {model : OnnxModel} (h : (writeGraph model).length < 2 ^ 64) :
    WritesGraph model (writeGraph model) := by
  refine ⟨_, _, ?_, ?_, carries_write h ?_ ?_⟩
  · rw [List.forall₂_map_right_iff, List.forall₂_same]
    intro value hmem
    refine writesValueInfo_writeValueInfo ((length_content_le_write 11 ?_).trans_lt h)
    · simpa [graphFields] using ⟨value, hmem, rfl⟩
  · rw [List.forall₂_map_right_iff, List.forall₂_same]
    intro value hmem
    refine writesValueInfo_writeValueInfo ((length_content_le_write 12 ?_).trans_lt h)
    · simpa [graphFields] using ⟨value, hmem, rfl⟩
  all_goals
    intro field hfield
    simp only [graphFields, List.mem_append, List.mem_cons, List.mem_map, List.not_mem_nil,
      or_false] at hfield
    rcases hfield with ((rfl | rfl) | ⟨content, -, rfl⟩) | ⟨content, -, rfl⟩ <;>
      simp [Payload.wireType, isGraphField]

/-- **The writer writes the model**, if the length of the file is a size. -/
theorem writesModel_writeModel {model : OnnxModel} (h : (writeModel model).length < 2 ^ 64) :
    WritesModel model (writeModel model) := by
  have hgraph : (writeGraph model).length < 2 ^ 64 :=
    (length_content_le_write 7 (by simp [modelFields])).trans_lt h
  refine ⟨_, _, _, writesGraph_writeGraph hgraph, ?_, ?_, carries_write h ?_ ?_⟩
  · rw [List.forall₂_map_right_iff, List.forall₂_same]
    intro opset hmem
    refine carries_write ((length_content_le_write 8 ?_).trans_lt h) ?_ ?_
    · simpa [modelFields] using ⟨opset, hmem, rfl⟩
    all_goals simp [opsetFields, Payload.wireType, isOpsetField]
  · rw [List.forall₂_map_right_iff, List.forall₂_same]
    intro entry hmem
    refine carries_write ((length_content_le_write 14 ?_).trans_lt h) ?_ ?_
    · simpa [modelFields] using ⟨entry, hmem, rfl⟩
    all_goals simp [metadataFields, Payload.wireType, isMetadataField]
  all_goals
    intro field hfield
    simp only [modelFields, List.mem_append, List.mem_cons, List.mem_map, List.not_mem_nil,
      or_false] at hfield
    rcases hfield with ((rfl | rfl | rfl | rfl | rfl | rfl | rfl) | ⟨content, -, rfl⟩) |
      ⟨content, -, rfl⟩ <;> simp [Payload.wireType, isModelField]

/-! ## The inspector reads it -/

/-- **The inspector reads the model a file describes**, whatever fields it does not know are in the
file, at any level. -/
theorem parseModel_of_writesModel {model : OnnxModel} {bytes : Text} (h : WritesModel model bytes)
    (hinputs : model.inputs ≠ []) (houtputs : model.outputs ≠ [])
    (hsize : bytes.length ≤ maximumInspectorModelBytes) :
    parseModel (some ⟨bytes.length, bytes⟩) = .ok model.modelInfo := by
  have hread := parseModel_eq_modelOf (some ⟨bytes.length, bytes⟩)
  have hcontents : contentsOf ⟨bytes.length, bytes⟩ = some bytes := by
    rw [contentsOf, if_pos ⟨by positivity, Int.ofNat_le.mpr hsize, le_rfl⟩]
    simp
  have hsome : modelOf bytes = some model.modelInfo := by
    rw [modelOf, foldFields_model h, Option.bind_some, if_neg]
    simp [OnnxModel.modelInfo, hinputs, houtputs]
  simp only [Option.bind_some, hcontents, hsome] at hread
  exact hread

/-- A recognizer with one input and one output. -/
def sampleModel : OnnxModel where
  irVersion := 8
  producerName := ascii "pytorch"
  producerVersion := ascii "2.1"
  domain := []
  modelVersion := 300
  docString := []
  graphName := ascii "lprnet"
  graphDocString := []
  opsets := [⟨[], 17⟩]
  metadata := [⟨ascii "charset", ascii "tr"⟩]
  inputs := [⟨ascii "images", 1, [.value 1, .value 3, .symbol (ascii "h"), .unknown]⟩]
  outputs := [⟨ascii "logits", 1, [.value 1, .value 37]⟩]

/-- Put a field behind every field. -/
def withOthers (other : Field) (fields : List Field) : List Field :=
  fields.flatMap fun field => [field, other]

/-- A message with fields between its known ones carries the known ones. -/
theorem carries_withOthers {known : Field → Bool} {other : Field} {fields : List Field}
    (hlength : (write (withOthers other fields)).length < 2 ^ 64)
    (hshape : ∀ field ∈ withOthers other fields,
      field.payload.wireType = 0 ∨ field.payload.wireType = 2)
    (hknown : ∀ field ∈ fields, known field = true) (hother : known other = false) :
    Carries known fields (write (withOthers other fields)) := by
  have hfilter : (withOthers other fields).filter known = fields := by
    rw [withOthers, List.filter_flatMap]
    have hpair : ∀ field ∈ fields, [field, other].filter known = [field] := by
      intro field hfield
      simp [hknown field hfield, hother]
    rw [List.flatMap_congr hpair, List.flatMap_singleton']
  have hcarries := carries_write_filter known hlength hshape
  rwa [hfilter] at hcarries

/-- The graph, with its weights. -/
def sampleGraph : Text :=
  write (withOthers ⟨5, .bytes (ascii "weights")⟩ (graphFields sampleModel
    (sampleModel.inputs.map writeValueInfo) (sampleModel.outputs.map writeValueInfo)))

/-- The model as a later version of the format might have it. -/
def sampleFile : Text :=
  write (withOthers ⟨20, .varint 1⟩ (modelFields sampleModel sampleGraph
    (sampleModel.opsets.map fun opset => write (opsetFields opset))
    (sampleModel.metadata.map fun entry => write (metadataFields entry))))

theorem writesModel_sampleFile : WritesModel sampleModel sampleFile := by
  have hgraph : WritesGraph sampleModel sampleGraph :=
    ⟨_, _, .cons (writesValueInfo_writeValueInfo (by decide +kernel)) .nil,
      .cons (writesValueInfo_writeValueInfo (by decide +kernel)) .nil,
      carries_withOthers (by decide +kernel) (by decide +kernel) (by decide +kernel) (by decide)⟩
  refine ⟨sampleGraph, _, _, hgraph, .cons ?_ .nil, .cons ?_ .nil,
    carries_withOthers (by decide +kernel) (by decide +kernel) (by decide +kernel) (by decide)⟩
  · exact carries_write (by decide +kernel) (by decide +kernel) (by decide +kernel)
  · exact carries_write (by decide +kernel) (by decide +kernel) (by decide +kernel)

theorem parseModel_sampleModel :
    parseModel (some ⟨(writeModel sampleModel).length, writeModel sampleModel⟩) =
        .ok sampleModel.modelInfo ∧
      parseModel (some ⟨sampleFile.length, sampleFile⟩) = .ok sampleModel.modelInfo :=
  ⟨parseModel_of_writesModel (writesModel_writeModel (by decide +kernel)) (by decide) (by decide)
    (by decide +kernel),
    parseModel_of_writesModel writesModel_sampleFile (by decide) (by decide) (by decide +kernel)⟩

end ModelInspector

end FacLpr
