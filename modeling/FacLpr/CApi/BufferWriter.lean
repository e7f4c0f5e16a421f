import FacLpr.CApi.Wire
import Mathlib.Data.List.Pairwise

/-!
# CApi/BufferWriter — the two-pass writer of the result buffer

The writer of the source runs twice: over a null buffer to measure, then over the caller's buffer.
Sizes are computed in `size_t`, and a step that would wrap or lose bits faults instead (`wrap`).

`Lays m p Q` is the specification both passes share: started at position `p`, the program `m` either
throws while measuring, or has a fixed `Layout` — the position it ends at, the ranges it reserves
and the writes it makes — that the measuring pass computes and the writing pass carries out,
whenever the layout fits the capacity.
-/

namespace FacLpr

/-- What interrupts a pass: an exception of the engine, or a size computation that wraps. -/
inductive Fault where
  | engine (error : EngineError)
  | wrap

/-- The writer's fields.  `reserved` records the ranges handed out so far, for the proofs; the
source does not keep it. -/
structure BufferWriter where
  bytes : Option Memory
  capacity : ℕ
  position : ℕ
  reserved : List (ℕ × ℕ)

/-- A computation on the writer. -/
abbrev Wire := EStateM Fault BufferWriter

/-- `application::default_resource_budget.max_result_bytes`. -/
def maxResultBytes : ℕ := 64 * 1024 * 1024

namespace Wire

def raise {α : Type} (error : EngineError) : Wire α := throw (.engine error)

/-! ## `size_t` arithmetic -/

def sizeAdd (a b : ℕ) : Wire ℕ := if sizeMax < a + b then throw .wrap else pure (a + b)

def sizeSub (a b : ℕ) : Wire ℕ := if a < b then throw .wrap else pure (a - b)

def sizeMul (a b : ℕ) : Wire ℕ := if sizeMax < a * b then throw .wrap else pure (a * b)

/-- `static_cast<std::uint32_t>(value)`. -/
def narrow (value : ℕ) : Wire UInt32 :=
  if uint32Max < value then throw .wrap else pure (UInt32.ofNat value)

def toU32 (value : ℕ) (field : String) : Wire UInt32 :=
  if uint32Max < value then
    raise (resourceExhaustedError (field ++ " exceeds v1 32-bit wire limit"))
  else narrow value

def checkedArrayBytes (count elementSize : ℕ) (field : String) : Wire ℕ :=
  if count ≠ 0 ∧ sizeMax / count < elementSize then
    raise (resourceExhaustedError (field ++ " overflows size_t"))
  else do
    let bytes ← sizeMul count elementSize
    if maxResultBytes < bytes then
      raise (resourceExhaustedError (field ++ " exceeds result memory budget"))
    else pure bytes

def elementOffset (base : UInt32) (index elementSize : ℕ) : Wire UInt32 := do
  let relative ← checkedArrayBytes index elementSize "wire element offset"
  let total ← sizeAdd base.toNat relative
  toU32 total "wire element offset"

/-! ## The writer -/

def alignPosition (value : ℕ) : Wire ℕ :=
  let remainder := value % wireAlignment
  if remainder = 0 then pure value
  else do
    let padding ← sizeSub wireAlignment remainder
    let room ← sizeSub sizeMax value
    if room < padding then raise (resourceExhaustedError "result alignment overflows size_t")
    else sizeAdd value padding

/-- `BufferWriter::reserve`. -/
def reserve (bytes : ℕ) : Wire UInt32 := do
  let writer ← get
  let aligned ← alignPosition writer.position
  let room ← sizeSub sizeMax aligned
  if room < bytes then raise (resourceExhaustedError "result buffer size overflows size_t")
  else
    let finish ← sizeAdd aligned bytes
    if maxResultBytes < finish then
      raise (resourceExhaustedError "result buffer exceeds configured 64 MiB resource budget")
    else if uint32Max < finish then
      raise (resourceExhaustedError "result buffer exceeds v1 32-bit offset range")
    else if writer.bytes.isSome ∧ writer.capacity < finish then
      raise (resourceExhaustedError "internal result writer exceeded caller capacity")
    else
      set { writer with
        position := finish, reserved := writer.reserved ++ [(aligned, bytes)] }
      narrow aligned

/-- The bounds check and copy of `BufferWriter::write` and `BufferWriter::write_bytes`. -/
def copyBytes (message : String) (offset : UInt32) (value : List UInt8) : Wire Unit := do
  let writer ← get
  match writer.bytes with
  | none => pure ()
  | some mem =>
      let start := offset.toNat
      if writer.capacity < start then raise (resourceExhaustedError message)
      else
        let room ← sizeSub writer.capacity start
        if room < value.length then raise (resourceExhaustedError message)
        else set { writer with bytes := some (applyWrite mem (start, value)) }

/-- `BufferWriter::write`. -/
def write {T : Type} [WireStruct T] (offset : UInt32) (value : T) : Wire Unit :=
  copyBytes "internal result write exceeded caller capacity" offset (WireStruct.bytes value)

/-- `BufferWriter::write_bytes`. -/
def writeBytes (offset : UInt32) (value : List UInt8) : Wire Unit :=
  if value.isEmpty then pure ()
  else copyBytes "internal text write exceeded caller capacity" offset value

end Wire

/-! ## Layouts -/

/-- What a program does to the writer: where it ends, the ranges it reserves and the writes it
makes. -/
structure Layout where
  finish : ℕ
  reserved : List (ℕ × ℕ)
  writes : List Write

namespace Layout

/-- The layout of a program that leaves the writer alone. -/
def skip (p : ℕ) : Layout := ⟨p, [], []⟩

instance : Append Layout :=
  ⟨fun l l' => ⟨l'.finish, l.reserved ++ l'.reserved, l.writes ++ l'.writes⟩⟩

@[simp] theorem finish_append (l l' : Layout) : (l ++ l').finish = l'.finish := rfl

@[simp] theorem reserved_append (l l' : Layout) :
    (l ++ l').reserved = l.reserved ++ l'.reserved := rfl

@[simp] theorem writes_append (l l' : Layout) : (l ++ l').writes = l.writes ++ l'.writes := rfl

@[simp] theorem finish_skip (p : ℕ) : (skip p).finish = p := rfl

@[simp] theorem reserved_skip (p : ℕ) : (skip p).reserved = [] := rfl

@[simp] theorem writes_skip (p : ℕ) : (skip p).writes = [] := rfl

end Layout

/-- Carry out a layout. -/
def BufferWriter.advance (w : BufferWriter) (l : Layout) : BufferWriter where
  bytes := w.bytes.map fun mem => applyWrites mem l.writes
  capacity := w.capacity
  position := l.finish
  reserved := w.reserved ++ l.reserved

theorem BufferWriter.advance_append (w : BufferWriter) (l l' : Layout) :
    (w.advance l).advance l' = w.advance (l ++ l') := by
  simp only [advance, Layout.finish_append, Layout.reserved_append, Layout.writes_append,
    Option.map_map, List.append_assoc, Function.comp_def, applyWrites_append]

theorem BufferWriter.advance_skip (w : BufferWriter) :
    w.advance (Layout.skip w.position) = w := by
  cases w
  simp [advance, applyWrites]

/-- Aligned ranges one after the other, between `p` and `e`. -/
def Tiles : ℕ → List (ℕ × ℕ) → ℕ → Prop
  | p, [], e => p ≤ e
  | p, r :: rs, e => p ≤ r.1 ∧ r.1 % wireAlignment = 0 ∧ Tiles (r.1 + r.2) rs e

namespace Tiles

theorem le : ∀ {p : ℕ} {rs : List (ℕ × ℕ)} {e : ℕ}, Tiles p rs e → p ≤ e
  | _, [], _, h => h
  | _, _ :: _, _, ⟨h1, _, h2⟩ => h1.trans ((Nat.le_add_right _ _).trans h2.le)

theorem append : ∀ {p : ℕ} {rs rs' : List (ℕ × ℕ)} {q e : ℕ}, Tiles p rs q → Tiles q rs' e →
    Tiles p (rs ++ rs') e
  | _, [], [], _, _, h, h' => le_trans h h'
  | _, [], _ :: _, _, _, h, ⟨h1, h2⟩ => ⟨le_trans h h1, h2⟩
  | _, _ :: _, _, _, _, ⟨h1, h2, h3⟩, h' => ⟨h1, h2, h3.append h'⟩

/-- Every range is aligned and lies in the interval. -/
theorem mem_bounds : ∀ {p : ℕ} {rs : List (ℕ × ℕ)} {e : ℕ}, Tiles p rs e → ∀ r ∈ rs,
    r.1 % wireAlignment = 0 ∧ p ≤ r.1 ∧ r.1 + r.2 ≤ e
  | _, r :: _, _, ⟨h1, h2, h3⟩, s, hs => by
      rcases List.mem_cons.mp hs with rfl | hs
      · exact ⟨h2, h1, h3.le⟩
      · obtain ⟨ha, hp, he⟩ := h3.mem_bounds s hs
        exact ⟨ha, h1.trans ((Nat.le_add_right _ _).trans hp), he⟩

/-- Each range ends before the next ones start. -/
theorem pairwise : ∀ {p : ℕ} {rs : List (ℕ × ℕ)} {e : ℕ}, Tiles p rs e →
    rs.Pairwise fun r s => r.1 + r.2 ≤ s.1
  | _, [], _, _ => List.Pairwise.nil
  | _, _ :: _, _, ⟨_, _, h3⟩ =>
      List.pairwise_cons.mpr ⟨fun s hs => (h3.mem_bounds s hs).2.1, h3.pairwise⟩

end Tiles

/-! ## The specification of both passes -/

/-- **Both passes follow one layout.**  From position `p`, measuring `m` throws an exception, or `m`
returns an `a` with a layout such that `Q a` holds, which either pass carries out when it fits. -/
def Lays {α : Type} (m : Wire α) (p : ℕ) (Q : α → Layout → Prop) : Prop :=
  p ≤ maxResultBytes →
    (∃ error, ∀ w : BufferWriter, w.position = p → w.bytes = none →
      ∃ w', m w = .error (.engine error) w') ∨
    ∃ a l, Q a l ∧ Tiles p l.reserved l.finish ∧ l.finish ≤ maxResultBytes ∧
      ∀ w : BufferWriter, w.position = p → w.bytes = none ∨ l.finish ≤ w.capacity →
        m w = .ok a (w.advance l)

namespace Lays

variable {α β : Type} {m : Wire α} {p : ℕ} {Q R : α → Layout → Prop}

theorem mono (h : Lays m p Q) (hQR : ∀ a l, Q a l → R a l) : Lays m p R := fun hp =>
  (h hp).imp id fun ⟨a, l, hQ, h⟩ => ⟨a, l, hQR a l hQ, h⟩

theorem pure {a : α} (h : Q a (Layout.skip p)) : Lays (Pure.pure a) p Q := fun hp =>
  Or.inr ⟨a, Layout.skip p, h, le_refl p, hp, fun w hw _ => by
    subst hw
    rw [w.advance_skip]
    rfl⟩

theorem raise (error : EngineError) : Lays (Wire.raise error) p Q := fun _ =>
  Or.inl ⟨error, fun w _ _ => ⟨w, rfl⟩⟩

/-- **Sequencing concatenates the layouts.** -/
theorem bind {f : α → Wire β} {S : β → Layout → Prop} (hm : Lays m p Q)
    (hf : ∀ a l, Q a l → Lays (f a) l.finish fun b l' => S b (l ++ l')) :
    Lays (m >>= f) p S := by
  intro hp
  rcases hm hp with ⟨error, herror⟩ | ⟨a, l, hQ, htiles, hmax, hrun⟩
  · refine Or.inl ⟨error, fun w hw hnull => ?_⟩
    obtain ⟨w', h⟩ := herror w hw hnull
    exact ⟨w', by simp only [Bind.bind, EStateM.bind, h]⟩
  rcases hf a l hQ hmax with ⟨error, herror⟩ | ⟨b, l', hS, htiles', hmax', hrun'⟩
  · refine Or.inl ⟨error, fun w hw hnull => ?_⟩
    have hadvance : (w.advance l).bytes = none := by rw [BufferWriter.advance, hnull]; rfl
    obtain ⟨w', h⟩ := herror (w.advance l) rfl hadvance
    exact ⟨w', by simp only [Bind.bind, EStateM.bind, hrun w hw (Or.inl hnull), h]⟩
  · refine Or.inr ⟨b, l ++ l', hS, htiles.append htiles', hmax', fun w hw hroom => ?_⟩
    have hfirst : w.bytes = none ∨ l.finish ≤ w.capacity := hroom.imp id (htiles'.le.trans)
    have hsecond : (w.advance l).bytes = none ∨ l'.finish ≤ (w.advance l).capacity :=
      hroom.imp (fun h => by rw [BufferWriter.advance, h]; rfl) id
    simp only [Bind.bind, EStateM.bind, hrun w hw hfirst, hrun' _ rfl hsecond,
      BufferWriter.advance_append]

/-- A test picks one of two programs. -/
theorem ite {c : Prop} [Decidable c] {m' : Wire α} (h : c → Lays m p Q) (h' : ¬ c → Lays m' p Q) :
    Lays (if c then m else m') p Q := by
  split
  · exact h ‹_›
  · exact h' ‹_›

/-! ### The operations of the writer -/

section Operations

open Wire

theorem toU32 (value : ℕ) (field : String) :
    Lays (Wire.toU32 value field) p fun word l => word.toNat = value ∧ l = Layout.skip p := by
  refine Lays.ite (fun _ => Lays.raise _) fun h => ?_
  rw [narrow, if_neg h]
  have hlt : value < 2 ^ 32 := by
    unfold uint32Max at h
    omega
  exact Lays.pure ⟨UInt32.toNat_ofNat_of_lt' hlt, rfl⟩

/-- The size of an array is checked before it is computed. -/
theorem checkedArrayBytes (count elementSize : ℕ) (field : String) :
    Lays (Wire.checkedArrayBytes count elementSize field) p fun bytes l =>
      bytes = count * elementSize ∧ bytes ≤ maxResultBytes ∧ l = Layout.skip p := by
  refine Lays.ite (fun _ => Lays.raise _) fun h => ?_
  have hfits : count * elementSize ≤ sizeMax := by
    rcases Nat.eq_zero_or_pos count with rfl | hpos
    · simp
    · have hle : elementSize ≤ sizeMax / count := not_lt.mp fun hlt => h ⟨hpos.ne', hlt⟩
      rw [Nat.mul_comm]
      exact (Nat.le_div_iff_mul_le hpos).mp hle
  have hmul : sizeMul count elementSize = Pure.pure (count * elementSize) :=
    if_neg (not_lt.mpr hfits)
  rw [hmul, pure_bind]
  exact Lays.ite (fun _ => Lays.raise _) fun h => Lays.pure ⟨rfl, not_lt.mp h, rfl⟩

/-- The offset of an element never wraps. -/
theorem elementOffset (base : UInt32) (index elementSize : ℕ) :
    Lays (Wire.elementOffset base index elementSize) p fun offset l =>
      offset.toNat = base.toNat + index * elementSize ∧ l = Layout.skip p := by
  refine (Lays.checkedArrayBytes index elementSize _).bind fun relative l h => ?_
  obtain ⟨rfl, hmax, rfl⟩ := h
  have hbase := base.toNat_lt
  have hadd : sizeAdd base.toNat (index * elementSize) =
      Pure.pure (base.toNat + index * elementSize) := by
    refine if_neg (not_lt.mpr ?_)
    unfold sizeMax
    unfold maxResultBytes at hmax
    omega
  rw [hadd, pure_bind]
  exact (Lays.toU32 _ _).mono fun _ _ ⟨h, hl⟩ => ⟨h, by rw [hl]; rfl⟩

/-- The next aligned position. -/
def alignUp (value : ℕ) : ℕ :=
  if value % wireAlignment = 0 then value else value + (wireAlignment - value % wireAlignment)

theorem alignPosition_eq {value : ℕ} (h : value ≤ maxResultBytes) :
    alignPosition value = Pure.pure (alignUp value) := by
  have hlt := Nat.mod_lt value (show 0 < wireAlignment by decide)
  have hmax : maxResultBytes + 8 ≤ sizeMax := by decide
  have hfour : wireAlignment = 4 := rfl
  unfold alignPosition alignUp
  by_cases hrem : value % wireAlignment = 0
  · simp only [hrem, if_true]
  · have hpadding : sizeSub wireAlignment (value % wireAlignment) =
        Pure.pure (wireAlignment - value % wireAlignment) := if_neg (by omega)
    have hroom : sizeSub sizeMax value = Pure.pure (sizeMax - value) := if_neg (by omega)
    have hadd : sizeAdd value (wireAlignment - value % wireAlignment) =
        Pure.pure (value + (wireAlignment - value % wireAlignment)) := if_neg (by omega)
    simp only [hrem, if_false, hpadding, hroom, hadd, pure_bind]
    exact if_neg (by omega)

theorem alignUp_spec (value : ℕ) :
    alignUp value % wireAlignment = 0 ∧ value ≤ alignUp value ∧ alignUp value < value + 4 := by
  unfold alignUp wireAlignment
  split <;> omega

/-- **A reservation** hands out an aligned range after everything reserved so far. -/
theorem reserve (bytes : ℕ) : Lays (Wire.reserve bytes) p fun offset l =>
    offset.toNat % wireAlignment = 0 ∧ p ≤ offset.toNat ∧
      l = ⟨offset.toNat + bytes, [(offset.toNat, bytes)], []⟩ := by
  intro hp
  obtain ⟨haligned, hle, hlt⟩ := alignUp_spec p
  have hmax : maxResultBytes + 8 ≤ uint32Max ∧ uint32Max ≤ sizeMax := by decide
  have hrun : ∀ w : BufferWriter, w.position = p → Wire.reserve bytes w =
      if sizeMax - alignUp p < bytes then
        .error (.engine (resourceExhaustedError "result buffer size overflows size_t")) w
      else if maxResultBytes < alignUp p + bytes then
        .error (.engine (resourceExhaustedError
          "result buffer exceeds configured 64 MiB resource budget")) w
      else if uint32Max < alignUp p + bytes then
        .error (.engine (resourceExhaustedError
          "result buffer exceeds v1 32-bit offset range")) w
      else if w.bytes.isSome ∧ w.capacity < alignUp p + bytes then
        .error (.engine (resourceExhaustedError
          "internal result writer exceeded caller capacity")) w
      else .ok (UInt32.ofNat (alignUp p)) { w with
        position := alignUp p + bytes, reserved := w.reserved ++ [(alignUp p, bytes)] } := by
    intro w hw
    have hroom : sizeSub sizeMax (alignUp p) = Pure.pure (sizeMax - alignUp p) :=
      if_neg (by omega)
    have hnarrow : narrow (alignUp p) = Pure.pure (UInt32.ofNat (alignUp p)) := if_neg (by omega)
    have hget : ∀ {γ : Type} (f : BufferWriter → Wire γ), (get >>= f) w = f w w := fun _ => rfl
    rw [Wire.reserve, hget, hw, alignPosition_eq hp, pure_bind, hroom, pure_bind, hnarrow]
    by_cases h1 : sizeMax - alignUp p < bytes
    · rw [if_pos h1, if_pos h1]
      rfl
    have hadd : sizeAdd (alignUp p) bytes = Pure.pure (alignUp p + bytes) := if_neg (by omega)
    rw [if_neg h1, if_neg h1, hadd, pure_bind]
    by_cases h2 : maxResultBytes < alignUp p + bytes
    · rw [if_pos h2, if_pos h2]
      rfl
    rw [if_neg h2, if_neg h2]
    by_cases h3 : uint32Max < alignUp p + bytes
    · rw [if_pos h3, if_pos h3]
      rfl
    rw [if_neg h3, if_neg h3]
    by_cases h4 : w.bytes.isSome ∧ w.capacity < alignUp p + bytes
    · rw [if_pos h4, if_pos h4]
      rfl
    · rw [if_neg h4, if_neg h4]
      rfl
  by_cases h1 : sizeMax - alignUp p < bytes
  · exact Or.inl ⟨_, fun w hw _ => ⟨w, by rw [hrun w hw, if_pos h1]⟩⟩
  by_cases h2 : maxResultBytes < alignUp p + bytes
  · exact Or.inl ⟨_, fun w hw _ => ⟨w, by rw [hrun w hw, if_neg h1, if_pos h2]⟩⟩
  have htoNat : (UInt32.ofNat (alignUp p)).toNat = alignUp p := by
    refine UInt32.toNat_ofNat_of_lt' (show alignUp p < 2 ^ 32 from ?_)
    unfold uint32Max at hmax
    omega
  refine Or.inr ⟨UInt32.ofNat (alignUp p), ⟨alignUp p + bytes, [(alignUp p, bytes)], []⟩,
    ⟨htoNat.symm ▸ haligned, htoNat.symm ▸ hle, by rw [htoNat]⟩, ⟨hle, haligned, le_refl _⟩,
    not_lt.mp h2, fun w hw hroom => ?_⟩
  have hcapacity : ¬ (w.bytes.isSome ∧ w.capacity < alignUp p + bytes) := by
    rintro ⟨hsome, hlt⟩
    rcases hroom with hnull | hroom
    · rw [hnull] at hsome
      cases hsome
    · exact absurd hlt (not_lt.mpr hroom)
  rw [hrun w hw, if_neg h1, if_neg h2, if_neg (by omega), if_neg hcapacity]
  cases w with
  | mk bytes capacity position reserved => cases bytes <;> rfl

/-- **A write inside the ranges reserved so far** never fails. -/
theorem copyBytes (message : String) (offset : UInt32) (value : List UInt8)
    (hfits : offset.toNat + value.length ≤ p) :
    Lays (Wire.copyBytes message offset value) p fun _ l =>
      l = ⟨p, [], [(offset.toNat, value)]⟩ := by
  refine fun hp => Or.inr ⟨(), _, rfl, le_refl p, hp, fun w hw hroom => ?_⟩
  cases w with
  | mk bytes capacity position reserved =>
    obtain rfl : position = p := hw
    cases bytes with
    | none => simp [Wire.copyBytes, BufferWriter.advance]; rfl
    | some mem =>
      have hcapacity : position ≤ capacity := hroom.resolve_left (by simp)
      have hsub : sizeSub capacity offset.toNat = Pure.pure (capacity - offset.toNat) :=
        if_neg (by omega)
      have hget : ∀ {γ : Type} (f : BufferWriter → Wire γ) (w : BufferWriter),
        (get >>= f) w = f w w := fun _ _ => rfl
      rw [Wire.copyBytes, hget]
      simp only [hsub, pure_bind]
      rw [if_neg (by omega), if_neg (by omega)]
      simp only [BufferWriter.advance, Option.map_some, applyWrites, List.foldl_cons,
        List.foldl_nil, List.append_nil]
      rfl

theorem write {T : Type} [WireStruct T] (offset : UInt32) (value : T)
    (hfits : offset.toNat + WireStruct.size T ≤ p) :
    Lays (Wire.write offset value) p fun _ l =>
      l = ⟨p, [], [(offset.toNat, WireStruct.bytes value)]⟩ :=
  Lays.copyBytes _ _ _ (by rwa [WireStruct.length_bytes])

end Operations

end Lays

end FacLpr
