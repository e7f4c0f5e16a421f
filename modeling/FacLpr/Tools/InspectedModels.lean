import FacLpr.Foundations.TaggedFields
import FacLpr.Tools.ModelInspector

/-!
# Tools/InspectedModels — what the model inspector reads

A file is a message of tagged fields, and what the inspector says of it is a fold over them
(`modelOf`): the last field of a kind holds, repeated ones are listed in order, and fields it does
not know are passed over.

Every call of the inspector that moves an offset agrees with a reader of the bytes behind it
(`Refines`, `Behind`): it returns what the reader reads and the offset of the rest, or throws.  So
the inspector returns what the fold yields, throws where there is no message, and neither reads a
byte outside the file nor loops (`parseModel_eq_modelOf`).
-/

namespace FacLpr

open TaggedFields

namespace ModelInspector

/-! ## The meaning of a file -/

/-- What a field means in an operator set: its domain or its version. -/
def opsetOf (result : OpsetImport) (field : Field) : Option OpsetImport :=
  if let some domain := field.bytesAt 1 then some { result with domain := domain }
  else if let some version := field.varintAt 2 then some { result with version := version }
  else some result

/-- In a metadata entry: its key or its value. -/
def metadataOf (result : MetadataEntry) (field : Field) : Option MetadataEntry :=
  if let some key := field.bytesAt 1 then some { result with key := key }
  else if let some value := field.bytesAt 2 then some { result with value := value }
  else some result

/-- In a dimension: its size, or its name; the last one counts. -/
def dimensionOf (dimension : Text) (field : Field) : Option Text :=
  if let some value := field.varintAt 1 then some (decimal value.toNat)
  else if let some name := field.bytesAt 2 then some name
  else some dimension

/-- In a shape: one more dimension. -/
def shapeOf (dimensions : List Text) (field : Field) : Option (List Text) :=
  if let some content := field.bytesAt 1 then
    (foldFields dimensionOf (ascii "?") content).map fun dimension => dimensions ++ [dimension]
  else some dimensions

/-- In the type of a tensor: its element type, or its shape. -/
def tensorTypeOf (result : UInt64 × List Text) (field : Field) : Option (UInt64 × List Text) :=
  if let some elementType := field.varintAt 1 then some (elementType, result.2)
  else if let some content := field.bytesAt 2 then
    (foldFields shapeOf [] content).map fun shape => (result.1, shape)
  else some result

def typeOfFound : Option Text → Option (UInt64 × List Text)
  | some content => foldFields tensorTypeOf (0, []) content
  | none => some (0, [])

/-- The first tensor type counts, and what is behind it is not read. -/
def typeOf (bytes : Text) : Option (UInt64 × List Text) := (findBytes 1 bytes).bind typeOfFound

/-- In a tensor: its name, or its type. -/
def valueInfoOf (result : TensorInfo) (field : Field) : Option TensorInfo :=
  if let some name := field.bytesAt 1 then some { result with name := name }
  else if let some content := field.bytesAt 2 then
    (typeOf content).map fun type =>
      { result with elementType := type.1, dimensions := type.2 }
  else some result

/-- In a graph: its name, its description, or one more input or output. -/
def graphOf (model : ModelInfo) (field : Field) : Option ModelInfo :=
  if let some graphName := field.bytesAt 2 then some { model with graphName := graphName }
  else if let some graphDocString := field.bytesAt 10 then
    some { model with graphDocString := graphDocString }
  else if let some content := field.bytesAt 11 then
    (foldFields valueInfoOf {} content).map fun input =>
      { model with inputs := model.inputs ++ [input] }
  else if let some content := field.bytesAt 12 then
    (foldFields valueInfoOf {} content).map fun output =>
      { model with outputs := model.outputs ++ [output] }
  else some model

/-- In a model: a value of its header, its graph, or one more operator set or metadata entry. -/
def modelFieldOf (model : ModelInfo) (field : Field) : Option ModelInfo :=
  if let some irVersion := field.varintAt 1 then some { model with irVersion := irVersion }
  else if let some producerName := field.bytesAt 2 then
    some { model with producerName := producerName }
  else if let some producerVersion := field.bytesAt 3 then
    some { model with producerVersion := producerVersion }
  else if let some domain := field.bytesAt 4 then some { model with domain := domain }
  else if let some modelVersion := field.varintAt 5 then
    some { model with modelVersion := modelVersion }
  else if let some docString := field.bytesAt 6 then some { model with docString := docString }
  else if let some content := field.bytesAt 7 then foldFields graphOf model content
  else if let some content := field.bytesAt 8 then
    (foldFields opsetOf {} content).map fun opset =>
      { model with opsets := model.opsets ++ [opset] }
  else if let some content := field.bytesAt 14 then
    (foldFields metadataOf {} content).map fun entry =>
      { model with metadata := model.metadata ++ [entry] }
  else some model

/-- What the bytes of a file say: there is none without an input or without an output. -/
def modelOf (bytes : Text) : Option ModelInfo :=
  (foldFields modelFieldOf {} bytes).bind fun model =>
    if model.inputs = [] ∨ model.outputs = [] then none else some model

/-! ## Calls that agree with readers -/

/-- The call returns what the reading yields, and throws where it yields nothing. -/
def Refines {α β : Type} (rel : α → β → Prop) (call : Except InspectorFault α) :
    Option β → Prop
  | some b => ∃ a, call = .ok a ∧ rel a b
  | none => ∃ message, call = .error (.runtimeError message)

/-- The offset is inside, and this is behind it. -/
def At (data : ByteSpan) (offset : UInt64) (rest : Text) : Prop :=
  offset.toNat ≤ data.bytes.length ∧ data.bytes.drop offset.toNat = rest

/-- A value and an offset, against a value and a rest. -/
def Behind {α β : Type} (rel : α → β → Prop) (data : ByteSpan) (a : α × UInt64)
    (b : β × Text) : Prop :=
  rel a.1 b.1 ∧ At data a.2 b.2

section Refines

variable {α α' β β' : Type} {rel : α → β → Prop} {rel' : α' → β' → Prop}
  {call : Except InspectorFault α} {reading : Option β}

/-- Two calls refine two readings one behind the other, -/
theorem Refines.bind_of_eq (h : Refines rel call reading) {next : α → Except InspectorFault α'}
    {next' : β → Option β'}
    (hnext : ∀ a b, reading = some b → rel a b → Refines rel' (next a) (next' b)) :
    Refines rel' (call >>= next) (reading.bind next') := by
  cases reading with
  | none =>
    obtain ⟨message, rfl⟩ := h
    exact ⟨message, rfl⟩
  | some b =>
    obtain ⟨a, rfl, hrel⟩ := h
    exact hnext a b rfl hrel

theorem Refines.bind (h : Refines rel call reading) {next : α → Except InspectorFault α'}
    {next' : β → Option β'} (hnext : ∀ a b, rel a b → Refines rel' (next a) (next' b)) :
    Refines rel' (call >>= next) (reading.bind next') :=
  h.bind_of_eq fun a b _ => hnext a b

theorem Refines.map (h : Refines rel call reading) {next : α → α'} {next' : β → β'}
    (hnext : ∀ a b, rel a b → rel' (next a) (next' b)) :
    Refines rel' (call >>= fun a => .ok (next a)) (reading.map next') := by
  rw [Option.map_eq_bind]
  exact h.bind fun a b hrel => ⟨next a, rfl, hnext a b hrel⟩

theorem Refines.map_reading {rel' : α → β' → Prop} (h : Refines rel call reading) {f : β → β'}
    (hf : ∀ a b, rel a b → rel' a (f b)) : Refines rel' call (reading.map f) := by
  cases reading with
  | none => exact h
  | some b =>
    obtain ⟨a, hcall, hrel⟩ := h
    exact ⟨a, hcall, hf a b hrel⟩

theorem refines_ok {a : α} {b : β} (h : rel a b) : Refines rel (.ok a) (some b) := ⟨a, rfl, h⟩

theorem refines_error {message : String} :
    Refines rel (.error (.runtimeError message)) (none : Option β) := ⟨message, rfl⟩

end Refines

section At

variable {data : ByteSpan} {offset : UInt64} {rest used : Text}

theorem at_zero : At data 0 data.bytes := ⟨Nat.zero_le _, rfl⟩

/-- Where a rest starts, and how long it is, make the size of the data. -/
theorem At.length (h : At data offset rest) : data.bytes.length = offset.toNat + rest.length := by
  obtain ⟨hle, rfl⟩ := h
  rw [List.length_drop]
  omega

theorem At.toNat_sub (h : At data offset rest) : (data.size - offset).toNat = rest.length := by
  have hlength := h.length
  rw [UInt64.toNat_sub_of_le _ _ (by rw [UInt64.le_iff_toNat_le, ByteSpan.toNat_size]; exact h.1),
    ByteSpan.toNat_size]
  omega

theorem At.lt_size_iff (h : At data offset rest) : offset < data.size ↔ rest ≠ [] := by
  have hlength := h.length
  rw [UInt64.lt_iff_toNat_lt, ByteSpan.toNat_size, ← List.length_pos_iff]
  omega

/-- The offset behind what is used does not wrap. -/
theorem At.toNat_add (h : At data offset (used ++ rest)) {count : UInt64}
    (hcount : count.toNat = used.length) :
    (offset + count).toNat = offset.toNat + used.length := by
  have hlength := h.length
  have hfits := data.fits
  rw [List.length_append] at hlength
  rw [toNat_add_of_le (by omega), hcount]

/-- Behind what was used the rest starts. -/
theorem At.advance {count : UInt64} (h : At data offset (used ++ rest))
    (hcount : count.toNat = used.length) : At data (offset + count) rest := by
  have hlength := h.length
  rw [List.length_append] at hlength
  refine ⟨by rw [h.toNat_add hcount]; omega, ?_⟩
  rw [h.toNat_add hcount, ← List.drop_drop, h.2, List.drop_left]

/-- The byte at the offset. -/
theorem At.getElem? {b : Byte} (h : At data offset (b :: rest)) :
    data.bytes[offset.toNat]? = some b := by
  have hdrop : (data.bytes.drop offset.toNat)[0]? = data.bytes[offset.toNat + 0]? :=
    List.getElem?_drop
  rw [h.2] at hdrop
  exact hdrop.symm

end At

/-! ## The calls at an offset -/

section Numbers

/-- The bits of a byte's number, put above a number below them. -/
theorem or_shiftLeft {value : UInt64} {shift : ℕ} (hshift : shift < 64)
    (hvalue : value.toNat < 2 ^ shift) (b : Byte) :
    value ||| ((b &&& 0x7F).toUInt64 <<< UInt64.ofNat shift) =
      UInt64.ofNat (value.toNat + 2 ^ shift * (b.toNat % 128)) := by
  have hlow : (b &&& 0x7F).toNat = b.toNat % 128 := by
    rw [UInt8.toNat_and]
    exact Nat.and_two_pow_sub_one_eq_mod b.toNat 7
  have hamount : (UInt64.ofNat shift).toNat = shift := by
    rw [UInt64.toNat_ofNat', Nat.mod_eq_of_lt (by omega)]
  have hpower : (2 : ℕ) ^ 64 = 2 ^ shift * 2 ^ (64 - shift) := by
    rw [← pow_add, Nat.add_sub_cancel' hshift.le]
  apply UInt64.toNat_inj.mp
  rw [UInt64.toNat_or, UInt64.toNat_shiftLeft, UInt8.toNat_toUInt64, hlow, hamount,
    UInt64.toNat_ofNat', Nat.mod_eq_of_lt hshift, Nat.shiftLeft_eq, hpower,
    Nat.mul_comm (b.toNat % 128), Nat.mul_mod_mul_left, Nat.mod_mul,
    Nat.add_mul_mod_self_left, Nat.mod_eq_of_lt hvalue,
    Nat.add_mul_div_left _ _ (Nat.two_pow_pos shift), Nat.div_eq_of_lt hvalue, Nat.zero_add,
    Nat.or_comm, ← Nat.two_pow_add_eq_or_of_lt hvalue, Nat.add_comm]

theorem and_high_eq_zero (b : Byte) : b &&& 0x80 = 0 ↔ b.toNat < 128 := by
  have hall : ∀ n : Fin 256, UInt8.ofNat n &&& 0x80 = 0 ↔ (n : ℕ) < 128 := by decide +kernel
  simpa using hall ⟨b.toNat, b.toNat_lt⟩

variable {data : ByteSpan} {offset : UInt64} {rest : Text}

/-- The rounds from the `k`-th on put the number they read above the bits they have. -/
theorem refines_readVarintFrom {n k : ℕ} (hround : n + k = 10) {value : UInt64}
    (hvalue : value.toNat < 2 ^ (7 * k)) (h : At data offset rest) :
    Refines (Behind Eq data) (readVarintFrom data (n + 1) offset value (7 * k))
      ((takeVarint n rest).map fun r => (UInt64.ofNat (value.toNat + 2 ^ (7 * k) * r.1), r.2)) := by
  induction n generalizing k value offset rest with
  | zero =>
    rw [readVarintFrom, if_neg (by omega)]
    exact refines_error
  | succ n ih =>
    rw [readVarintFrom]
    cases rest with
    | nil =>
      rw [if_neg fun hguard => h.lt_size_iff.mp hguard.1 rfl]
      exact refines_error
    | cons b rest =>
      rw [if_pos ⟨h.lt_size_iff.mpr (List.cons_ne_nil b rest), by omega⟩]
      simp only [h.getElem?, or_shiftLeft (show 7 * k < 64 by omega) hvalue, and_high_eq_zero,
        takeVarint]
      have hused : At data offset ([b] ++ rest) := h
      have hnext : At data (offset + 1) rest := hused.advance rfl
      split_ifs with hlast
      · rw [Nat.mod_eq_of_lt hlast]
        exact refines_ok ⟨rfl, hnext⟩
      · have hb := b.toNat_lt
        have hmod : b.toNat % 128 = b.toNat - 128 := by omega
        have hsum : (UInt64.ofNat (value.toNat + 2 ^ (7 * k) * (b.toNat - 128))).toNat =
            (value.toNat + 2 ^ (7 * k) * (b.toNat - 128)) % 2 ^ 64 := UInt64.toNat_ofNat'
        have hpow : (2 : ℕ) ^ (7 * (k + 1)) = 2 ^ (7 * k) * 128 := by
          rw [Nat.mul_succ, pow_add]
          rfl
        have hlt : value.toNat + 2 ^ (7 * k) * (b.toNat - 128) < 2 ^ (7 * (k + 1)) := by
          have hle : 2 ^ (7 * k) * (b.toNat - 128) ≤ 2 ^ (7 * k) * 127 :=
            Nat.mul_le_mul_left _ (by omega)
          omega
        have hrest := ih (show n + (k + 1) = 10 by omega)
          (by rw [hsum]; exact (Nat.mod_le _ _).trans_lt hlt) hnext
        rw [hmod, Option.map_map]
        refine (congrArg (Refines _ _) (Option.map_congr fun r _ => ?_)).mp hrest
        refine Prod.ext (UInt64.toNat_inj.mp ?_) rfl
        simp only [Function.comp_apply]
        rw [hsum, hpow, UInt64.toNat_ofNat', UInt64.toNat_ofNat', Nat.mod_add_mod, Nat.mul_add,
          Nat.mul_assoc, Nat.add_assoc]

/-- **`read_varint` refines** the reader of varints, -/
theorem refines_readVarint (h : At data offset rest) :
    Refines (Behind Eq data) (readVarint data offset) (TaggedFields.readVarint rest) := by
  have hvalue : (0 : UInt64).toNat < 2 ^ (7 * 0) := by decide
  have hread := refines_readVarintFrom (show 10 + 0 = 10 from rfl) hvalue h
  simpa [TaggedFields.readVarint, readVarint] using hread

/-- The bytes of a span. -/
def Bytes (span : ByteSpan) (bytes : Text) : Prop := span.bytes = bytes

/-- **`read_bytes`** the reader of counted bytes, -/
theorem refines_readBytes (field : String) (h : At data offset rest) :
    Refines (Behind Bytes data) (readBytes data offset field) (TaggedFields.readBytes rest) := by
  refine (refines_readVarint h).bind ?_
  rintro ⟨length, offset⟩ ⟨_, rest⟩ ⟨rfl, hat⟩
  have hsub := hat.toNat_sub
  dsimp only [takeBytes] at hat hsub ⊢
  split_ifs with hshort hle hle
  · rw [UInt64.lt_iff_toNat_lt, hsub] at hshort
    omega
  · exact refines_error
  · have hinside : offset ≤ data.size ∧ length ≤ data.size - offset := by
      rw [UInt64.le_iff_toNat_le, UInt64.le_iff_toNat_le, ByteSpan.toNat_size, hsub]
      exact ⟨hat.1, hle⟩
    rw [subspanWithin, if_pos hinside]
    refine refines_ok ⟨?_, ?_⟩
    · exact congrArg (List.take length.toNat) hat.2
    · rw [← List.take_append_drop length.toNat rest] at hat
      exact hat.advance (List.length_take_of_le hle).symm
  · rw [UInt64.lt_iff_toNat_lt, hsub] at hshort
    omega

/-- and so does **`read_string`**. -/
theorem refines_readString (field : String) (h : At data offset rest) :
    Refines (Behind Eq data) (readString data offset field) (TaggedFields.readBytes rest) := by
  have hread : Refines (Behind Eq data) (readString data offset field)
      ((TaggedFields.readBytes rest).map id) :=
    (refines_readBytes field h).map fun a b hrel => hrel
  rwa [Option.map_id] at hread

/-- A skipped payload of `count` bytes. -/
theorem refines_skipBytes (count : UInt64) {message : String} (h : At data offset rest) :
    Refines (fun offset r => At data offset r.2)
      (if data.size - offset < count then .error (.runtimeError message) else .ok (offset + count))
      (takeBytes count.toNat rest) := by
  have hsub := h.toNat_sub
  rw [takeBytes]
  split_ifs with hshort hle hle
  · rw [UInt64.lt_iff_toNat_lt, hsub] at hshort
    omega
  · exact refines_error
  · rw [← List.take_append_drop count.toNat rest] at h
    exact refines_ok (h.advance (List.length_take_of_le hle).symm)
  · rw [UInt64.lt_iff_toNat_lt, hsub] at hshort
    omega

/-- **`skip_field`** throws where a payload cannot be read, and else stops behind it. -/
theorem refines_skipField {wireType : UInt32} (h : At data offset rest) :
    Refines (fun offset r => At data offset r.2) (skipField data offset wireType)
      (readPayload wireType.toNat rest) := by
  rw [skipField]
  by_cases h0 : wireType = 0
  · rw [if_pos h0, h0]
    exact (refines_readVarint h).map fun a b hrel => hrel.2
  rw [if_neg h0]
  by_cases h1 : wireType = 1
  · rw [if_pos h1, h1]
    exact (refines_skipBytes 8 h).map_reading fun a b hrel => hrel
  rw [if_neg h1]
  by_cases h2 : wireType = 2
  · rw [if_pos h2, h2]
    exact (refines_readBytes _ h).map fun a b hrel => hrel.2
  rw [if_neg h2]
  by_cases h5 : wireType = 5
  · rw [if_pos h5, h5]
    exact (refines_skipBytes 4 h).map_reading fun a b hrel => hrel
  have hne (n : UInt32) (hwire : ¬ wireType = n) : wireType.toNat ≠ n.toNat := fun heq =>
    hwire (UInt32.toNat_inj.mp heq)
  rw [if_neg h5, readPayload_eq_none (hne 0 h0) (hne 1 h1) (hne 2 h2) (hne 5 h5)]
  exact refines_error

end Numbers

/-! ## The loops -/

theorem toUInt32_shiftRight (tag : UInt64) :
    (tag >>> 3).toUInt32 = UInt32.ofNat (tag.toNat / 8) := by
  apply UInt32.toNat_inj.mp
  rw [UInt64.toNat_toUInt32, UInt64.toNat_shiftRight, UInt32.toNat_ofNat',
    Nat.shiftRight_eq_div_pow]
  rfl

theorem toNat_toUInt32_and (tag : UInt64) : (tag &&& 0x07).toUInt32.toNat = tag.toNat % 8 := by
  have hmod := Nat.and_two_pow_sub_one_eq_mod tag.toNat 3
  have hlow : (tag &&& 0x07).toNat = tag.toNat % 8 := by
    rw [UInt64.toNat_and]
    exact hmod
  rw [UInt64.toNat_toUInt32, hlow]
  omega

section Loop

variable {σ : Type} {data : ByteSpan} {offset : UInt64} {rest : Text}

/-- The body does with the field at an offset what `onValue` does with its value. -/
def ReadsField (data : ByteSpan) (onField : FieldBody σ) (onValue : σ → Field → Option σ) : Prop :=
  ∀ (state : σ) (field wire : UInt32) {offset : UInt64} {rest : Text}, At data offset rest →
    Refines (Behind Eq data) (onField state field wire offset)
      ((readPayload wire.toNat rest).bind fun r =>
        (onValue state ⟨field, r.1⟩).map fun state => (state, r.2))

/-- **A loop over the fields folds their values**, if it has a round for every byte. -/
theorem refines_fieldsFrom {onField : FieldBody σ} {onValue : σ → Field → Option σ}
    (hfield : ReadsField data onField onValue) {rounds : ℕ} (state : σ) (h : At data offset rest)
    (hrounds : rest.length < rounds) :
    Refines Eq (fieldsFrom data onField rounds offset state)
      (foldFields onValue state rest) := by
  induction rounds generalizing offset rest state with
  | zero => omega
  | succ rounds ih =>
    rw [fieldsFrom]
    by_cases hne : rest = []
    · rw [if_neg fun hguard => h.lt_size_iff.mp hguard hne, hne]
      exact refines_ok rfl
    rw [if_pos (h.lt_size_iff.mpr hne), foldFields_of_ne_nil onValue state hne, Field.read,
      Option.bind_assoc]
    refine (refines_readVarint h).bind_of_eq ?_
    rintro ⟨tag, offset⟩ ⟨_, middle⟩ htag ⟨rfl, hat⟩
    have hlt := readVarint_length htag
    have hbody := hfield state (UInt32.ofNat (tag.toNat / 8)) (tag &&& 0x07).toUInt32 hat
    rw [toNat_toUInt32_and] at hbody
    dsimp only at hbody ⊢
    rw [toUInt32_shiftRight, Option.bind_map]
    suffices hnext : Refines Eq
        (onField state (UInt32.ofNat (tag.toNat / 8)) (tag &&& 0x07).toUInt32 offset >>= fun r =>
          fieldsFrom data onField rounds r.2 r.1)
        (((readPayload (tag.toNat % 8) middle).bind fun r =>
          (onValue state ⟨UInt32.ofNat (tag.toNat / 8), r.1⟩).map fun state => (state, r.2)).bind
            fun r => foldFields onValue r.1 r.2) by
      rw [Option.bind_assoc] at hnext
      simp only [Option.bind_map] at hnext
      exact hnext
    refine hbody.bind_of_eq ?_
    rintro ⟨state, offset⟩ ⟨_, rest⟩ hread ⟨rfl, hat⟩
    obtain ⟨⟨payload, rest'⟩, hpayload, hmap⟩ := Option.bind_eq_some_iff.mp hread
    obtain ⟨_, -, heq⟩ := Option.map_eq_some_iff.mp hmap
    obtain ⟨-, rfl⟩ := Prod.mk.inj heq
    have hle := (local_readPayload _).length_le hpayload
    exact ih state hat (show rest'.length < rounds by omega)

/-- **The loop over the fields** refines the fold over them, when its body refines a step. -/
theorem refines_parseFields {onField : FieldBody σ} {onValue : σ → Field → Option σ}
    (hfield : ReadsField data onField onValue) (state : σ) :
    Refines Eq (parseFields data onField state) (foldFields onValue state data.bytes) :=
  refines_fieldsFrom hfield state at_zero (Nat.lt_succ_self _)

/-! ## The branches of a body -/

variable (onValue : σ → Field → Option σ) {state : σ} {field wire : UInt32}

/-- A branch that takes a string. -/
theorem refines_stringField {name : String} (set : Text → σ) (h : At data offset rest)
    (hset : ∀ content, onValue state ⟨field, .bytes content⟩ = some (set content)) :
    Refines (Behind Eq data)
      (readString data offset name >>= fun r => .ok (set r.1, r.2))
      ((readPayload (2 : UInt32).toNat rest).bind fun r =>
        (onValue state ⟨field, r.1⟩).map fun state => (state, r.2)) := by
  have hread : readPayload (2 : UInt32).toNat rest =
      (TaggedFields.readBytes rest).map fun r => (.bytes r.1, r.2) := rfl
  rw [hread, Option.bind_map]
  simp only [Function.comp_def, hset, Option.map_some]
  refine (refines_readString name h).bind fun a b hrel => refines_ok ⟨?_, hrel.2⟩
  rw [hrel.1]

/-- A branch that takes a number. -/
theorem refines_varintField (set : UInt64 → σ) (h : At data offset rest)
    (hset : ∀ value, onValue state ⟨field, .varint value⟩ = some (set value)) :
    Refines (Behind Eq data)
      (readVarint data offset >>= fun r => .ok (set r.1, r.2))
      ((readPayload (0 : UInt32).toNat rest).bind fun r =>
        (onValue state ⟨field, r.1⟩).map fun state => (state, r.2)) := by
  have hread : readPayload (0 : UInt32).toNat rest =
      (TaggedFields.readVarint rest).map fun r => (.varint r.1, r.2) := rfl
  rw [hread, Option.bind_map]
  simp only [Function.comp_def, hset, Option.map_some]
  refine (refines_readVarint h).bind fun a b hrel => refines_ok ⟨?_, hrel.2⟩
  rw [hrel.1]

/-- A branch that parses a message inside. -/
theorem refines_messageField {τ : Type} {name : String} {parse : ByteSpan → Except InspectorFault τ}
    {meaning : Text → Option τ} (set : τ → σ) (h : At data offset rest)
    (hparse : ∀ bytes, Refines Eq (parse bytes) (meaning bytes.bytes))
    (hset : ∀ content, onValue state ⟨field, .bytes content⟩ = (meaning content).map set) :
    Refines (Behind Eq data)
      (readBytes data offset name >>= fun r => parse r.1 >>= fun value => .ok (set value, r.2))
      ((readPayload (2 : UInt32).toNat rest).bind fun r =>
        (onValue state ⟨field, r.1⟩).map fun state => (state, r.2)) := by
  have hread : readPayload (2 : UInt32).toNat rest =
      (TaggedFields.readBytes rest).map fun r => (.bytes r.1, r.2) := rfl
  rw [hread, Option.bind_map]
  simp only [Function.comp_def, hset, Option.map_map]
  refine (refines_readBytes name h).bind fun a b hrel => ?_
  have hvalue := hparse a.1
  rw [show a.1.bytes = b.1 from hrel.1] at hvalue
  exact hvalue.map fun value value' heq => ⟨congrArg set heq, hrel.2⟩

/-- The branch that skips. -/
theorem refines_skipInto (h : At data offset rest)
    (hskip : ∀ payload : Payload, payload.wireType = wire.toNat →
      onValue state ⟨field, payload⟩ = some state) :
    Refines (Behind Eq data) (skipInto data state wire offset)
      ((readPayload wire.toNat rest).bind fun r =>
        (onValue state ⟨field, r.1⟩).map fun state => (state, r.2)) := by
  have hreading : ((readPayload wire.toNat rest).bind fun r =>
      (onValue state ⟨field, r.1⟩).map fun state => (state, r.2)) =
      (readPayload wire.toNat rest).map fun r => (state, r.2) := by
    rw [Option.map_eq_bind]
    refine Option.bind_congr fun r hr => ?_
    rw [hskip r.1 (wireType_of_readPayload hr)]
    rfl
  rw [hreading]
  exact (refines_skipField h).map fun a b hrel => ⟨rfl, hrel⟩

theorem bytesAt_of_not {number : UInt32} {payload : Payload} (h : ¬ (field = number ∧ wire = 2))
    (hwire : payload.wireType = wire.toNat) : Field.bytesAt number ⟨field, payload⟩ = none :=
  Field.bytesAt_eq_none fun hboth => h ⟨hboth.1, UInt32.toNat_inj.mp (hwire.symm.trans hboth.2)⟩

theorem varintAt_of_not {number : UInt32} {payload : Payload} (h : ¬ (field = number ∧ wire = 0))
    (hwire : payload.wireType = wire.toNat) : Field.varintAt number ⟨field, payload⟩ = none :=
  Field.varintAt_eq_none fun hboth => h ⟨hboth.1, UInt32.toNat_inj.mp (hwire.symm.trans hboth.2)⟩

end Loop

/-! ## The parsers -/

/-- **The parsers of the records** refine the folds that say what the records mean. -/
theorem refines_parseOpset (bytes : ByteSpan) :
    Refines Eq (parseOpset bytes) (foldFields opsetOf {} bytes.bytes) := by
  refine refines_parseFields (fun result field wire {_ _} h => ?_) _
  split_ifs with hdomain hversion
  · obtain ⟨rfl, rfl⟩ := hdomain
    exact refines_stringField opsetOf (fun domain => { result with domain := domain }) h
      fun _ => rfl
  · obtain ⟨rfl, rfl⟩ := hversion
    exact refines_varintField opsetOf (fun version => { result with version := version }) h
      fun _ => rfl
  · refine refines_skipInto opsetOf h fun payload hwire => ?_
    rw [opsetOf, bytesAt_of_not hdomain hwire, varintAt_of_not hversion hwire]

theorem refines_parseMetadata (bytes : ByteSpan) :
    Refines Eq (parseMetadata bytes) (foldFields metadataOf {} bytes.bytes) := by
  refine refines_parseFields (fun result field wire {_ _} h => ?_) _
  split_ifs with hkey hvalue
  · obtain ⟨rfl, rfl⟩ := hkey
    exact refines_stringField metadataOf (fun key => { result with key := key }) h fun _ => rfl
  · obtain ⟨rfl, rfl⟩ := hvalue
    exact refines_stringField metadataOf (fun value => { result with value := value }) h
      fun _ => rfl
  · refine refines_skipInto metadataOf h fun payload hwire => ?_
    rw [metadataOf, bytesAt_of_not hkey hwire, bytesAt_of_not hvalue hwire]

theorem refines_parseDimension (bytes : ByteSpan) :
    Refines Eq (parseDimension bytes) (foldFields dimensionOf (ascii "?") bytes.bytes) := by
  refine refines_parseFields (fun dimension field wire {_ _} h => ?_) _
  split_ifs with hvalue hname
  · obtain ⟨rfl, rfl⟩ := hvalue
    exact refines_varintField dimensionOf (fun value => decimal value.toNat) h fun _ => rfl
  · obtain ⟨rfl, rfl⟩ := hname
    exact refines_stringField dimensionOf id h fun _ => rfl
  · refine refines_skipInto dimensionOf h fun payload hwire => ?_
    rw [dimensionOf, varintAt_of_not hvalue hwire, bytesAt_of_not hname hwire]

theorem refines_parseShape (bytes : ByteSpan) :
    Refines Eq (parseShape bytes) (foldFields shapeOf [] bytes.bytes) := by
  refine refines_parseFields (fun dimensions field wire {_ _} h => ?_) _
  by_cases hdimension : field = 1 ∧ wire = 2
  · rw [if_neg (by simp [hdimension])]
    obtain ⟨rfl, rfl⟩ := hdimension
    exact refines_messageField shapeOf (fun dimension => dimensions ++ [dimension]) h
      refines_parseDimension fun _ => rfl
  · rw [if_pos (by rwa [← not_and_or])]
    refine refines_skipInto shapeOf h fun payload hwire => ?_
    rw [shapeOf, bytesAt_of_not hdimension hwire]

theorem refines_parseTensorType (bytes : ByteSpan) :
    Refines Eq (parseTensorType bytes) (foldFields tensorTypeOf (0, []) bytes.bytes) := by
  refine refines_parseFields (fun result field wire {_ _} h => ?_) _
  split_ifs with htype hshape
  · obtain ⟨rfl, rfl⟩ := htype
    exact refines_varintField tensorTypeOf (fun elementType => (elementType, result.2)) h
      fun _ => rfl
  · obtain ⟨rfl, rfl⟩ := hshape
    exact refines_messageField tensorTypeOf (fun shape => (result.1, shape)) h
      refines_parseShape fun _ => rfl
  · refine refines_skipInto tensorTypeOf h fun payload hwire => ?_
    rw [tensorTypeOf, varintAt_of_not htype hwire, bytesAt_of_not hshape hwire]

/-- **The loop that returns at the first tensor type** reads the first of them. -/
theorem refines_parseTypeFrom {data : ByteSpan} {offset : UInt64} {rest : Text} {rounds limit : ℕ}
    (h : At data offset rest) (hrounds : rest.length < rounds) (hlimit : rest.length ≤ limit) :
    Refines Eq (parseTypeFrom data rounds offset)
      ((findBytesWithin 1 limit rest).bind typeOfFound) := by
  induction rounds generalizing offset rest limit with
  | zero => omega
  | succ rounds ih =>
    rw [parseTypeFrom]
    cases rest with
    | nil =>
      rw [if_neg fun hguard => h.lt_size_iff.mp hguard rfl]
      cases limit <;> exact refines_ok rfl
    | cons b bytes =>
      obtain ⟨limit, rfl⟩ : ∃ k, limit = k + 1 :=
        ⟨limit - 1, by simp only [List.length_cons] at hlimit; omega⟩
      rw [if_pos (h.lt_size_iff.mpr (List.cons_ne_nil b bytes)), findBytesWithin, Field.read,
        Option.bind_assoc, Option.bind_assoc]
      refine (refines_readVarint h).bind_of_eq ?_
      rintro ⟨tag, offset⟩ ⟨_, middle⟩ htag ⟨rfl, hat⟩
      have hlt := readVarint_length htag
      simp only [List.length_cons] at hlt hrounds hlimit
      dsimp only at hat ⊢
      rw [toUInt32_shiftRight, ← toNat_toUInt32_and, Option.bind_map]
      by_cases hfirst : UInt32.ofNat (tag.toNat / 8) = 1 ∧ (tag &&& 0x07).toUInt32 = 2
      · rw [if_pos hfirst, hfirst.1, hfirst.2]
        have hread : readPayload (2 : UInt32).toNat middle =
            (TaggedFields.readBytes middle).map fun r => (.bytes r.1, r.2) := rfl
        rw [hread, Option.bind_map]
        refine (refines_readBytes _ hat).bind fun a b hrel => ?_
        have hparse := refines_parseTensorType a.1
        rw [show a.1.bytes = b.1 from hrel.1] at hparse
        exact hparse
      · rw [if_neg hfirst]
        refine (refines_skipField hat).bind_of_eq fun offset r hread hnext => ?_
        have hle := (local_readPayload _).length_le hread
        simp only [Function.comp_apply, bytesAt_of_not hfirst (wireType_of_readPayload hread)]
        exact ih hnext (by omega) (by omega)

theorem refines_parseType (bytes : ByteSpan) :
    Refines Eq (parseType bytes) (typeOf bytes.bytes) :=
  refines_parseTypeFrom at_zero (Nat.lt_succ_self _) le_rfl

theorem refines_parseValueInfo (bytes : ByteSpan) :
    Refines Eq (parseValueInfo bytes) (foldFields valueInfoOf {} bytes.bytes) := by
  refine refines_parseFields (fun result field wire {_ _} h => ?_) _
  split_ifs with hname htype
  · obtain ⟨rfl, rfl⟩ := hname
    exact refines_stringField valueInfoOf (fun name => { result with name := name }) h fun _ => rfl
  · obtain ⟨rfl, rfl⟩ := htype
    exact refines_messageField valueInfoOf
      (fun type : UInt64 × List Text =>
        { result with elementType := type.1, dimensions := type.2 }) h
      refines_parseType fun _ => rfl
  · refine refines_skipInto valueInfoOf h fun payload hwire => ?_
    rw [valueInfoOf, bytesAt_of_not hname hwire, bytesAt_of_not htype hwire]

/-- **A graph** adds its name, its inputs and its outputs to the model. -/
theorem refines_parseGraph (bytes : ByteSpan) (model : ModelInfo) :
    Refines Eq (parseGraph bytes model) (foldFields graphOf model bytes.bytes) := by
  refine refines_parseFields (fun model field wire {_ _} h => ?_) _
  split_ifs with hname hdoc hinput houtput
  · obtain ⟨rfl, rfl⟩ := hname
    exact refines_stringField graphOf (fun graphName => { model with graphName := graphName }) h
      fun _ => rfl
  · obtain ⟨rfl, rfl⟩ := hdoc
    exact refines_stringField graphOf
      (fun graphDocString => { model with graphDocString := graphDocString }) h fun _ => rfl
  · obtain ⟨rfl, rfl⟩ := hinput
    exact refines_messageField graphOf
      (fun input => { model with inputs := model.inputs ++ [input] }) h
      refines_parseValueInfo fun _ => rfl
  · obtain ⟨rfl, rfl⟩ := houtput
    exact refines_messageField graphOf
      (fun output => { model with outputs := model.outputs ++ [output] }) h
      refines_parseValueInfo fun _ => rfl
  · refine refines_skipInto graphOf h fun payload hwire => ?_
    rw [graphOf, bytesAt_of_not hname hwire, bytesAt_of_not hdoc hwire,
      bytesAt_of_not hinput hwire, bytesAt_of_not houtput hwire]

/-- A field of the model is read as what it means there. -/
theorem readsField_modelField (bytes : ByteSpan) :
    ReadsField bytes (modelField bytes) modelFieldOf := by
  intro model field wire _ _ h
  rw [modelField]
  split_ifs with h1 h2 h3 h4 h5 h6 h7 h8 h14
  · obtain ⟨rfl, rfl⟩ := h1
    exact refines_varintField modelFieldOf (fun irVersion => { model with irVersion := irVersion })
      h fun _ => rfl
  · obtain ⟨rfl, rfl⟩ := h2
    exact refines_stringField modelFieldOf
      (fun producerName => { model with producerName := producerName }) h fun _ => rfl
  · obtain ⟨rfl, rfl⟩ := h3
    exact refines_stringField modelFieldOf
      (fun producerVersion => { model with producerVersion := producerVersion }) h fun _ => rfl
  · obtain ⟨rfl, rfl⟩ := h4
    exact refines_stringField modelFieldOf (fun domain => { model with domain := domain }) h
      fun _ => rfl
  · obtain ⟨rfl, rfl⟩ := h5
    exact refines_varintField modelFieldOf
      (fun modelVersion => { model with modelVersion := modelVersion }) h fun _ => rfl
  · obtain ⟨rfl, rfl⟩ := h6
    exact refines_stringField modelFieldOf (fun docString => { model with docString := docString })
      h fun _ => rfl
  · obtain ⟨rfl, rfl⟩ := h7
    exact refines_messageField modelFieldOf id h (fun bytes => refines_parseGraph bytes model)
      fun content => (congrFun Option.map_id _).symm
  · obtain ⟨rfl, rfl⟩ := h8
    exact refines_messageField modelFieldOf
      (fun opset => { model with opsets := model.opsets ++ [opset] }) h
      refines_parseOpset fun _ => rfl
  · obtain ⟨rfl, rfl⟩ := h14
    exact refines_messageField modelFieldOf
      (fun entry => { model with metadata := model.metadata ++ [entry] }) h
      refines_parseMetadata fun _ => rfl
  · refine refines_skipInto modelFieldOf h fun payload hwire => ?_
    rw [modelFieldOf, varintAt_of_not h1 hwire, bytesAt_of_not h2 hwire, bytesAt_of_not h3 hwire,
      bytesAt_of_not h4 hwire, varintAt_of_not h5 hwire, bytesAt_of_not h6 hwire,
      bytesAt_of_not h7 hwire, bytesAt_of_not h8 hwire, bytesAt_of_not h14 hwire]

/-! ## The file -/

/-- What can be read of a file: as many bytes as it has, if they are not too many. -/
def contentsOf (stream : ModelStream) : Option Text :=
  if 0 ≤ stream.tellg ∧ stream.tellg ≤ maximumInspectorModelBytes ∧
      stream.tellg ≤ stream.bytes.length then
    some (stream.bytes.take stream.tellg.toNat)
  else none

/-- **The bytes of the file** are read whole, or not at all. -/
theorem refines_readModelBytes (stream : Option ModelStream) :
    Refines Bytes (readModelBytes stream) (stream.bind contentsOf) := by
  cases stream with
  | none => exact refines_error
  | some stream =>
    rw [readModelBytes, Option.bind_some, contentsOf]
    have hmaximum : maximumInspectorModelBytes ≤ sizeMax := by decide
    split_ifs with hnegative hinside hinside hlarge
    all_goals first | exact refines_error | exact refines_ok rfl | omega

/-- **The inspector reads the meaning of a file.**  It returns it, and throws where there is none;
it never reads outside the file, and it always ends. -/
theorem parseModel_eq_modelOf (stream : Option ModelStream) :
    match (stream.bind contentsOf).bind modelOf with
    | some model => parseModel stream = .ok model
    | none => ∃ message, parseModel stream = .error (.runtimeError message) := by
  have hrefines : Refines Eq (parseModel stream) ((stream.bind contentsOf).bind modelOf) := by
    refine (refines_readModelBytes stream).bind fun bytes content hbytes => ?_
    obtain rfl : bytes.bytes = content := hbytes
    refine (refines_parseFields (readsField_modelField bytes) {}).bind ?_
    rintro model _ rfl
    split_ifs
    · exact refines_error
    · exact refines_ok rfl
  cases hmodel : (stream.bind contentsOf).bind modelOf with
  | some model =>
    rw [hmodel] at hrefines
    obtain ⟨_, hcall, rfl⟩ := hrefines
    exact hcall
  | none =>
    rw [hmodel] at hrefines
    exact hrefines

end ModelInspector

end FacLpr
