import FacLpr.Foundations.Text
import Mathlib.Algebra.Order.BigOperators.Group.List
import Mathlib.Data.List.Forall2
import Mathlib.Tactic.Ring

/-!
# Foundations/TaggedFields — messages of tagged fields

The wire format of protocol buffers.  A number is written seven bits a byte, low bits first, with
the high bit set on every byte but the last.  A field is a tag, which holds its number and the shape
of its payload, and the payload; a message is its fields one behind another.

Readers are functions to an optional value and the rest.  All of them are *local*
(`Local`): what they read does not depend on what follows it.  A written message is read as its
fields (`readFields_write`), and fields between them that mean nothing to a reader change nothing
(`Carries.foldFields_eq`).
-/

namespace FacLpr

namespace TaggedFields

/-! ## Local readers -/

/-- What it reads, it reads with anything behind. -/
def Local {α : Type} (reader : Text → Option (α × Text)) : Prop :=
  ∀ bytes value rest, reader bytes = some (value, rest) →
    ∃ used, bytes = used ++ rest ∧ ∀ behind, reader (used ++ behind) = some (value, behind)

section Local

variable {α β : Type} {reader : Text → Option (α × Text)}

theorem Local.length_le (h : Local reader) {bytes rest : Text} {value : α}
    (hread : reader bytes = some (value, rest)) : rest.length ≤ bytes.length := by
  obtain ⟨used, rfl, -⟩ := h _ _ _ hread
  simp

/-- One reader behind another. -/
theorem Local.bind (h : Local reader) {next : α → Text → Option (β × Text)}
    (hnext : ∀ value, Local (next value)) :
    Local fun bytes => (reader bytes).bind fun r => next r.1 r.2 := by
  intro bytes value rest hread
  obtain ⟨⟨first, middle⟩, hfirst, hsecond⟩ := Option.bind_eq_some_iff.mp hread
  obtain ⟨used, rfl, hused⟩ := h _ _ _ hfirst
  obtain ⟨used', rfl, hused'⟩ := hnext first _ _ _ hsecond
  refine ⟨used ++ used', (List.append_assoc ..).symm, fun behind => ?_⟩
  simp only [List.append_assoc, hused, Option.bind_some]
  exact hused' behind

theorem Local.map (h : Local reader) (f : α → β) :
    Local fun bytes => (reader bytes).map fun r => (f r.1, r.2) := by
  intro bytes value rest hread
  obtain ⟨⟨first, middle⟩, hfirst, heq⟩ := Option.map_eq_some_iff.mp hread
  obtain ⟨rfl, rfl⟩ := Prod.mk.inj heq
  obtain ⟨used, rfl, hused⟩ := h _ _ _ hfirst
  exact ⟨used, rfl, fun behind => by simp only [hused, Option.map_some]⟩

end Local

/-- Read `count` bytes. -/
def takeBytes (count : ℕ) (bytes : Text) : Option (Text × Text) :=
  if count ≤ bytes.length then some (bytes.take count, bytes.drop count) else none

theorem takeBytes_append {count : ℕ} {bytes : Text} (h : bytes.length = count) (rest : Text) :
    takeBytes count (bytes ++ rest) = some (bytes, rest) := by
  subst h
  rw [takeBytes, if_pos (by simp), List.take_left, List.drop_left]

theorem takeBytes_eq_some {count : ℕ} {bytes value rest : Text} :
    takeBytes count bytes = some (value, rest) ↔ bytes = value ++ rest ∧ value.length = count := by
  constructor
  · intro h
    rw [takeBytes] at h
    split_ifs at h with hle
    obtain ⟨rfl, rfl⟩ := Prod.mk.inj (Option.some.inj h)
    exact ⟨(List.take_append_drop ..).symm, List.length_take_of_le hle⟩
  · rintro ⟨rfl, hlength⟩
    exact takeBytes_append hlength rest

theorem local_takeBytes (count : ℕ) : Local (takeBytes count) := by
  intro bytes value rest h
  obtain ⟨rfl, hlength⟩ := takeBytes_eq_some.mp h
  exact ⟨value, rfl, takeBytes_append hlength⟩

/-! ## Numbers -/

/-- A number, seven bits a byte. -/
def varint (n : ℕ) : Text :=
  if n < 128 then [UInt8.ofNat n] else UInt8.ofNat (n % 128 + 128) :: varint (n / 128)

/-- Read a number of at most `rounds` bytes. -/
def takeVarint : ℕ → Text → Option (ℕ × Text)
  | 0, _ => none
  | _ + 1, [] => none
  | rounds + 1, b :: rest =>
    if b.toNat < 128 then some (b.toNat, rest)
    else (takeVarint rounds rest).map fun r => (b.toNat - 128 + 128 * r.1, r.2)

theorem takeVarint_varint {rounds n : ℕ} (h : n < 128 ^ (rounds + 1)) (rest : Text) :
    takeVarint (rounds + 1) (varint n ++ rest) = some (n, rest) := by
  induction rounds generalizing n with
  | zero =>
    have hlast : n < 128 := by simpa using h
    have hbyte : (UInt8.ofNat n).toNat = n := by rw [UInt8.toNat_ofNat']; omega
    rw [varint, if_pos hlast, List.cons_append, List.nil_append, takeVarint, hbyte, if_pos hlast]
  | succ rounds ih =>
    rw [varint]
    split_ifs with hlast
    · have hbyte : (UInt8.ofNat n).toNat = n := by rw [UInt8.toNat_ofNat']; omega
      rw [List.cons_append, List.nil_append, takeVarint, hbyte, if_pos hlast]
    · have hbyte : (UInt8.ofNat (n % 128 + 128)).toNat = n % 128 + 128 := by
        rw [UInt8.toNat_ofNat']; omega
      have hdiv : n / 128 < 128 ^ (rounds + 1) := by
        rw [Nat.div_lt_iff_lt_mul (by decide)]
        simpa only [pow_succ] using h
      rw [List.cons_append, takeVarint, hbyte, if_neg (by omega), ih hdiv, Option.map_some,
        show n % 128 + 128 - 128 + 128 * (n / 128) = n by omega]

theorem local_takeVarint (rounds : ℕ) : Local (takeVarint rounds) := by
  induction rounds with
  | zero => intro bytes value rest h; cases h
  | succ rounds ih =>
    intro bytes value rest h
    cases bytes with
    | nil => cases h
    | cons b bytes =>
      rw [takeVarint] at h
      split_ifs at h with hlast
      · obtain ⟨rfl, rfl⟩ := Prod.mk.inj (Option.some.inj h)
        exact ⟨[b], rfl, fun behind => by simp [takeVarint, hlast]⟩
      · obtain ⟨used, rfl, hused⟩ := ih.map (fun n => b.toNat - 128 + 128 * n) _ _ _ h
        refine ⟨b :: used, rfl, fun behind => ?_⟩
        rw [List.cons_append, takeVarint, if_neg hlast]
        exact hused behind

theorem takeVarint_length {rounds n : ℕ} {bytes rest : Text}
    (h : takeVarint rounds bytes = some (n, rest)) : rest.length < bytes.length := by
  induction rounds generalizing bytes n with
  | zero => cases h
  | succ rounds ih =>
    cases bytes with
    | nil => cases h
    | cons b bytes =>
      rw [takeVarint] at h
      split_ifs at h with hlast
      · obtain ⟨rfl, rfl⟩ := Prod.mk.inj (Option.some.inj h)
        simp
      · obtain ⟨⟨m, rest'⟩, hrest, heq⟩ := Option.map_eq_some_iff.mp h
        obtain ⟨-, rfl⟩ := Prod.mk.inj heq
        exact (ih hrest).trans (by simp)

/-- Read a number of 64 bits: at most ten bytes, the bits above the 64th dropped. -/
def readVarint (bytes : Text) : Option (UInt64 × Text) :=
  (takeVarint 10 bytes).map fun r => (UInt64.ofNat r.1, r.2)

theorem readVarint_varint (value : UInt64) (rest : Text) :
    readVarint (varint value.toNat ++ rest) = some (value, rest) := by
  have hlt : value.toNat < 128 ^ (9 + 1) := value.toNat_lt.trans_le (by decide)
  rw [readVarint, takeVarint_varint hlt, Option.map_some, UInt64.ofNat_toNat]

theorem local_readVarint : Local readVarint := (local_takeVarint 10).map UInt64.ofNat

theorem readVarint_length {value : UInt64} {bytes rest : Text}
    (h : readVarint bytes = some (value, rest)) : rest.length < bytes.length := by
  obtain ⟨⟨n, rest'⟩, hread, heq⟩ := Option.map_eq_some_iff.mp h
  obtain ⟨-, rfl⟩ := Prod.mk.inj heq
  exact takeVarint_length hread

/-- Read a number, and as many bytes. -/
def readBytes (bytes : Text) : Option (Text × Text) :=
  (readVarint bytes).bind fun r => takeBytes r.1.toNat r.2

theorem readBytes_append {bytes : Text} (h : bytes.length < 2 ^ 64) (rest : Text) :
    readBytes (varint bytes.length ++ bytes ++ rest) = some (bytes, rest) := by
  have hlength : (UInt64.ofNat bytes.length).toNat = bytes.length := by
    rw [UInt64.toNat_ofNat', Nat.mod_eq_of_lt h]
  have hread := readVarint_varint (UInt64.ofNat bytes.length) (bytes ++ rest)
  rw [hlength] at hread
  rw [readBytes, List.append_assoc, hread]
  exact takeBytes_append hlength.symm rest

theorem local_readBytes : Local readBytes :=
  local_readVarint.bind fun count => local_takeBytes count.toNat

/-! ## Fields -/

/-- What a field holds: a number, eight bytes, any number of bytes, or four. -/
inductive Payload where
  | varint (value : UInt64)
  | fixed64 (content : Text)
  | bytes (content : Text)
  | fixed32 (content : Text)
  deriving DecidableEq

namespace Payload

/-- The shape of a payload, as its tag holds it. -/
def wireType : Payload → ℕ
  | .varint _ => 0
  | .fixed64 _ => 1
  | .bytes _ => 2
  | .fixed32 _ => 5

def write : Payload → Text
  | .varint value => TaggedFields.varint value.toNat
  | .fixed64 content => content
  | .bytes content => TaggedFields.varint content.length ++ content
  | .fixed32 content => content

/-- As many bytes as the shape says, or a number of bytes that has 64 bits. -/
def WellFormed : Payload → Prop
  | .varint _ => True
  | .fixed64 content => content.length = 8
  | .bytes content => content.length < 2 ^ 64
  | .fixed32 content => content.length = 4

end Payload

/-- Read a payload of this shape. -/
def readPayload : ℕ → Text → Option (Payload × Text)
  | 0, bytes => (readVarint bytes).map fun r => (.varint r.1, r.2)
  | 1, bytes => (takeBytes 8 bytes).map fun r => (.fixed64 r.1, r.2)
  | 2, bytes => (readBytes bytes).map fun r => (.bytes r.1, r.2)
  | 5, bytes => (takeBytes 4 bytes).map fun r => (.fixed32 r.1, r.2)
  | _, _ => none

theorem readPayload_write {payload : Payload} (h : payload.WellFormed) (rest : Text) :
    readPayload payload.wireType (payload.write ++ rest) = some (payload, rest) := by
  cases payload with
  | varint value =>
    rw [Payload.wireType, readPayload, Payload.write, readVarint_varint, Option.map_some]
  | fixed64 content =>
    rw [Payload.wireType, readPayload, Payload.write, takeBytes_append h, Option.map_some]
  | bytes content =>
    rw [Payload.wireType, readPayload, Payload.write, readBytes_append h, Option.map_some]
  | fixed32 content =>
    rw [Payload.wireType, readPayload, Payload.write, takeBytes_append h, Option.map_some]

/-- No other shape is known. -/
theorem readPayload_eq_none {wireType : ℕ} (h0 : wireType ≠ 0) (h1 : wireType ≠ 1)
    (h2 : wireType ≠ 2) (h5 : wireType ≠ 5) (bytes : Text) : readPayload wireType bytes = none := by
  match wireType with
  | 0 => exact absurd rfl h0
  | 1 => exact absurd rfl h1
  | 2 => exact absurd rfl h2
  | 5 => exact absurd rfl h5
  | 3 | 4 | _ + 6 => rfl

/-- A payload that is read has the shape it was read for. -/
theorem wireType_of_readPayload {wireType : ℕ} {bytes rest : Text} {payload : Payload}
    (h : readPayload wireType bytes = some (payload, rest)) : payload.wireType = wireType := by
  match wireType with
  | 0 | 1 | 2 | 5 =>
    obtain ⟨_, -, heq⟩ := Option.map_eq_some_iff.mp h
    obtain ⟨rfl, -⟩ := Prod.mk.inj heq
    rfl
  | 3 | 4 | _ + 6 => cases h

theorem local_readPayload : ∀ wireType, Local (readPayload wireType)
  | 0 => local_readVarint.map Payload.varint
  | 1 => (local_takeBytes 8).map Payload.fixed64
  | 2 => local_readBytes.map Payload.bytes
  | 5 => (local_takeBytes 4).map Payload.fixed32
  | 3 | 4 | _ + 6 => fun _ _ _ h => by cases h

@[ext] structure Field where
  number : UInt32
  payload : Payload
  deriving DecidableEq

namespace Field

/-- The number above the shape. -/
def tag (field : Field) : ℕ := 8 * field.number.toNat + field.payload.wireType

def write (field : Field) : Text := TaggedFields.varint field.tag ++ field.payload.write

/-- Read a tag and the payload it announces. -/
def read (bytes : Text) : Option (Field × Text) :=
  (readVarint bytes).bind fun r =>
    (readPayload (r.1.toNat % 8) r.2).map fun r' => (⟨UInt32.ofNat (r.1.toNat / 8), r'.1⟩, r'.2)

theorem read_write {field : Field} (h : field.payload.WellFormed) (rest : Text) :
    read (field.write ++ rest) = some (field, rest) := by
  have hwire : field.payload.wireType < 8 := by cases field.payload <;> simp [Payload.wireType]
  have hnumber := field.number.toNat_lt
  have htag : (UInt64.ofNat field.tag).toNat = field.tag := by
    rw [UInt64.toNat_ofNat', Nat.mod_eq_of_lt (by unfold tag; omega)]
  have hread := readVarint_varint (UInt64.ofNat field.tag) (field.payload.write ++ rest)
  rw [htag] at hread
  have hshape : field.tag % 8 = field.payload.wireType := by unfold tag; omega
  have hquotient : field.tag / 8 = field.number.toNat := by unfold tag; omega
  rw [read, write, List.append_assoc, hread, Option.bind_some, htag, hshape, hquotient,
    readPayload_write h, Option.map_some, UInt32.ofNat_toNat]

/-- A field is at least a byte long. -/
theorem read_length {field : Field} {bytes rest : Text} (h : read bytes = some (field, rest)) :
    rest.length < bytes.length := by
  obtain ⟨⟨tag, middle⟩, htag, hpayload⟩ := Option.bind_eq_some_iff.mp h
  obtain ⟨⟨payload, rest'⟩, hread, heq⟩ := Option.map_eq_some_iff.mp hpayload
  obtain ⟨-, rfl⟩ := Prod.mk.inj heq
  exact ((local_readPayload _).length_le hread).trans_lt (readVarint_length htag)

/-- The bytes a field of this number holds. -/
def bytesAt (number : UInt32) (field : Field) : Option Text :=
  match field.payload with
  | .bytes content => if field.number = number then some content else none
  | _ => none

/-- The number a field of this number holds. -/
def varintAt (number : UInt32) (field : Field) : Option UInt64 :=
  match field.payload with
  | .varint value => if field.number = number then some value else none
  | _ => none

@[simp] theorem bytesAt_self (number : UInt32) (content : Text) :
    bytesAt number ⟨number, .bytes content⟩ = some content := if_pos rfl

@[simp] theorem varintAt_self (number : UInt32) (value : UInt64) :
    varintAt number ⟨number, .varint value⟩ = some value := if_pos rfl

theorem bytesAt_eq_none {number : UInt32} {field : Field}
    (h : ¬ (field.number = number ∧ field.payload.wireType = 2)) : field.bytesAt number = none := by
  obtain ⟨n, payload⟩ := field
  cases payload with
  | bytes content => exact if_neg fun heq => h ⟨heq, rfl⟩
  | varint value => rfl
  | fixed64 content => rfl
  | fixed32 content => rfl

theorem varintAt_eq_none {number : UInt32} {field : Field}
    (h : ¬ (field.number = number ∧ field.payload.wireType = 0)) :
    field.varintAt number = none := by
  obtain ⟨n, payload⟩ := field
  cases payload with
  | varint value => exact if_neg fun heq => h ⟨heq, rfl⟩
  | bytes content => rfl
  | fixed64 content => rfl
  | fixed32 content => rfl

end Field

/-! ## Messages -/

/-- Read at most `limit` fields, up to the end. -/
def readFieldsWithin : ℕ → Text → Option (List Field)
  | _, [] => some []
  | 0, _ :: _ => none
  | limit + 1, b :: bytes =>
    (Field.read (b :: bytes)).bind fun r =>
      (readFieldsWithin limit r.2).map fun fields => r.1 :: fields

/-- The fields of a message. -/
def readFields (bytes : Text) : Option (List Field) := readFieldsWithin bytes.length bytes

def write (fields : List Field) : Text := fields.flatMap Field.write

theorem write_cons (field : Field) (fields : List Field) :
    write (field :: fields) = field.write ++ write fields := List.flatMap_cons

/-- There are no more fields than bytes. -/
theorem readFieldsWithin_eq {limit : ℕ} {bytes : Text} (h : bytes.length ≤ limit) :
    readFieldsWithin limit bytes = readFields bytes := by
  suffices key : ∀ (limit limit' : ℕ) (bytes : Text), bytes.length ≤ limit →
      bytes.length ≤ limit' → readFieldsWithin limit bytes = readFieldsWithin limit' bytes from
    key limit bytes.length bytes h le_rfl
  intro limit
  induction limit with
  | zero =>
    intro limit' bytes hle _
    obtain rfl : bytes = [] := List.length_eq_zero_iff.mp (by omega)
    simp [readFieldsWithin]
  | succ limit ih =>
    intro limit' bytes hle hle'
    cases bytes with
    | nil => simp [readFieldsWithin]
    | cons b bytes =>
      obtain ⟨limit', rfl⟩ : ∃ k, limit' = k + 1 :=
        ⟨limit' - 1, by simp only [List.length_cons] at hle'; omega⟩
      rw [readFieldsWithin, readFieldsWithin]
      refine Option.bind_congr fun r hr => ?_
      have hlt : r.2.length < _ := Field.read_length hr
      rw [ih limit' r.2 (by omega) (by omega)]

@[simp] theorem readFields_nil : readFields [] = some [] := rfl

theorem readFields_of_ne_nil {bytes : Text} (h : bytes ≠ []) :
    readFields bytes = (Field.read bytes).bind fun r =>
      (readFields r.2).map fun fields => r.1 :: fields := by
  obtain ⟨b, tail, rfl⟩ := List.exists_cons_of_ne_nil h
  rw [readFields, List.length_cons, readFieldsWithin]
  refine Option.bind_congr fun r hr => ?_
  have hlt : r.2.length < _ := Field.read_length hr
  rw [readFieldsWithin_eq (by simp only [List.length_cons] at hlt; omega)]

/-- A field in front. -/
theorem readFields_of_read {bytes rest : Text} {field : Field}
    (h : Field.read bytes = some (field, rest)) :
    readFields bytes = (readFields rest).map fun fields => field :: fields := by
  have hne : bytes ≠ [] := by
    rintro rfl
    cases h
  rw [readFields_of_ne_nil hne, h, Option.bind_some]

/-- The value of a message: what its fields make of one, one after another. -/
def foldFields {σ : Type} (onField : σ → Field → Option σ) (value : σ) (bytes : Text) : Option σ :=
  (readFields bytes).bind fun fields => fields.foldlM onField value

/-- The message is read as these fields, with others between them. -/
def Carries (known : Field → Bool) (fields : List Field) (bytes : Text) : Prop :=
  ∃ all, readFields bytes = some all ∧ all.filter known = fields

/-- Fields that change nothing are passed over. -/
theorem foldlM_filter {σ : Type} {onField : σ → Field → Option σ} {known : Field → Bool}
    (h : ∀ value field, known field = false → onField value field = some value) (value : σ)
    (fields : List Field) :
    fields.foldlM onField value = (fields.filter known).foldlM onField value := by
  induction fields generalizing value with
  | nil => rfl
  | cons field fields ih =>
    rw [List.filter_cons]
    cases hknown : known field with
    | true =>
      rw [if_pos rfl, List.foldlM_cons, List.foldlM_cons]
      exact Option.bind_congr fun value _ => ih value
    | false =>
      rw [if_neg Bool.false_ne_true, List.foldlM_cons, h value field hknown]
      exact ih value

theorem Carries.foldFields_eq {σ : Type} {onField : σ → Field → Option σ} {known : Field → Bool}
    {fields : List Field} {bytes : Text} (hcarries : Carries known fields bytes)
    (h : ∀ value field, known field = false → onField value field = some value) (value : σ) :
    foldFields onField value bytes = fields.foldlM onField value := by
  obtain ⟨all, hread, rfl⟩ := hcarries
  rw [foldFields, hread, Option.bind_some, foldlM_filter h]

/-- A fold over fields that hold the writings of items adds the items. -/
theorem foldlM_writings {σ ι : Type} {onField : σ → Field → Option σ} {field : Text → Field}
    {add : σ → ι → σ} {items : List ι} {writings : List Text}
    (h : List.Forall₂ (fun item content => ∀ value, onField value (field content) =
      some (add value item)) items writings) (value : σ) :
    (writings.map field).foldlM onField value = some (items.foldl add value) := by
  induction h generalizing value with
  | nil => rfl
  | cons hitem _ ih =>
    rw [List.map_cons, List.foldlM_cons, hitem]
    exact ih _

theorem foldFields_of_ne_nil {σ : Type} (onField : σ → Field → Option σ) (value : σ) {bytes : Text}
    (h : bytes ≠ []) :
    foldFields onField value bytes = (Field.read bytes).bind fun r =>
      (onField value r.1).bind fun value => foldFields onField value r.2 := by
  rw [foldFields, readFields_of_ne_nil h, Option.bind_assoc]
  refine Option.bind_congr fun r _ => ?_
  rw [Option.bind_map]
  exact Option.bind_comm (readFields r.2) (onField value r.1)

/-- **A written message is read as its fields.** -/
theorem readFields_write {fields : List Field} (h : ∀ field ∈ fields, field.payload.WellFormed) :
    readFields (write fields) = some fields := by
  induction fields with
  | nil => rfl
  | cons field fields ih =>
    have hfield := Field.read_write (h field (List.mem_cons_self ..)) (write fields)
    rw [write_cons, readFields_of_read hfield, ih fun f hf => h f (List.mem_cons_of_mem _ hf),
      Option.map_some]

/-- The bytes of the first field of this number that holds some, read no further. -/
def findBytesWithin (number : UInt32) : ℕ → Text → Option (Option Text)
  | _, [] => some none
  | 0, _ :: _ => none
  | limit + 1, b :: bytes =>
    (Field.read (b :: bytes)).bind fun r =>
      match r.1.bytesAt number with
      | some content => some (some content)
      | none => findBytesWithin number limit r.2

def findBytes (number : UInt32) (bytes : Text) : Option (Option Text) :=
  findBytesWithin number bytes.length bytes

/-- In a message that is read to its end, the first of its fields. -/
theorem findBytesWithin_eq {number : UInt32} {limit : ℕ} {bytes : Text} {fields : List Field}
    (hlimit : bytes.length ≤ limit) (h : readFields bytes = some fields) :
    findBytesWithin number limit bytes = some (fields.findSome? (Field.bytesAt number)) := by
  induction limit generalizing bytes fields with
  | zero =>
    obtain rfl : bytes = [] := List.length_eq_zero_iff.mp (by omega)
    obtain rfl : [] = fields := Option.some.inj h
    rfl
  | succ limit ih =>
    cases bytes with
    | nil =>
      obtain rfl : [] = fields := Option.some.inj h
      rfl
    | cons b bytes =>
      rw [readFields_of_ne_nil (List.cons_ne_nil b bytes)] at h
      obtain ⟨⟨field, rest⟩, hfield, hmore⟩ := Option.bind_eq_some_iff.mp h
      obtain ⟨fields', hfields', rfl⟩ := Option.map_eq_some_iff.mp hmore
      have hlt := Field.read_length hfield
      simp only [List.length_cons] at hlt hlimit
      rw [findBytesWithin, hfield, Option.bind_some, List.findSome?_cons]
      cases field.bytesAt number with
      | some content => rfl
      | none => exact ih (show rest.length ≤ limit by omega) hfields'

theorem findBytes_eq {number : UInt32} {bytes : Text} {fields : List Field}
    (h : readFields bytes = some fields) :
    findBytes number bytes = some (fields.findSome? (Field.bytesAt number)) :=
  findBytesWithin_eq le_rfl h

theorem Carries.findBytes_eq {number : UInt32} {field : Field} {fields : List Field} {bytes : Text}
    {content : Text}
    (h : Carries (fun field => (field.bytesAt number).isSome) (field :: fields) bytes)
    (hcontent : field.bytesAt number = some content) :
    findBytes number bytes = some (some content) := by
  obtain ⟨all, hread, hfilter⟩ := h
  rw [TaggedFields.findBytes_eq hread]
  suffices key : ∀ all : List Field,
      all.filter (fun field => (field.bytesAt number).isSome) = field :: fields →
        all.findSome? (Field.bytesAt number) = some content from congrArg some (key all hfilter)
  intro all
  induction all with
  | nil => intro h; cases h
  | cons first all ih =>
    intro h
    rw [List.filter_cons] at h
    rw [List.findSome?_cons]
    cases hfirst : first.bytesAt number with
    | none =>
      rw [hfirst, if_neg (by simp)] at h
      exact ih h
    | some found =>
      rw [hfirst, if_pos Option.isSome_some] at h
      obtain ⟨rfl, -⟩ := List.cons.inj h
      exact hfirst.symm.trans hcontent

theorem length_content_le {field : Field} {content : Text} (h : field.payload = .bytes content) :
    content.length ≤ field.write.length := by
  rw [Field.write, h, Payload.write]
  simp only [List.length_append]
  omega

theorem length_le_write {field : Field} {fields : List Field} (h : field ∈ fields) :
    field.write.length ≤ (write fields).length := by
  rw [write, List.length_flatMap]
  exact List.single_le_sum (by simp) _ (List.mem_map_of_mem h)

/-- What a field of a written message holds is no longer than the message. -/
theorem length_content_le_write (number : UInt32) {content : Text} {fields : List Field}
    (h : ⟨number, .bytes content⟩ ∈ fields) : content.length ≤ (write fields).length :=
  (length_content_le rfl).trans (length_le_write h)

/-- **A written message holds its known fields**, if none is of a fixed size and the length of the
message is a size. -/
theorem carries_write_filter (known : Field → Bool) {fields : List Field}
    (hlength : (write fields).length < 2 ^ 64)
    (hshape : ∀ field ∈ fields, field.payload.wireType = 0 ∨ field.payload.wireType = 2) :
    Carries known (fields.filter known) (write fields) := by
  refine ⟨fields, readFields_write fun field hfield => ?_, rfl⟩
  obtain ⟨number, payload⟩ := field
  cases payload with
  | varint value => trivial
  | bytes content => exact (length_content_le_write number hfield).trans_lt hlength
  | fixed64 content => rcases hshape _ hfield with h | h <;> cases h
  | fixed32 content => rcases hshape _ hfield with h | h <;> cases h

/-- It holds all of them, if they are all known. -/
theorem carries_write {known : Field → Bool} {fields : List Field}
    (hlength : (write fields).length < 2 ^ 64)
    (hshape : ∀ field ∈ fields, field.payload.wireType = 0 ∨ field.payload.wireType = 2)
    (hknown : ∀ field ∈ fields, known field = true) : Carries known fields (write fields) := by
  have hcarries := carries_write_filter known hlength hshape
  rwa [List.filter_eq_self.mpr hknown] at hcarries

end TaggedFields

end FacLpr
