import Mathlib.Data.List.Basic

/-!
# Foundations/RecordFields — records read member by member

A reader of configurations goes through the fields of a record.  A member the object lacks leaves
its field as it was; one it has is read into the field, or the reading fails.  When the fields are
kept apart and make up the record (`Separate`), what is read does not depend on their order:
`readMembers_eq_ok` says it field by field.
-/

namespace FacLpr

/-- A field of the record `σ`: the key of its member, where it is kept, and how it is read. -/
structure RecordField (K V ε σ : Type) where
  key : K
  Value : Type
  get : σ → Value
  set : σ → Value → σ
  read : V → Except ε Value
  get_set : ∀ s x, get (set s x) = x

namespace RecordField

variable {K V ε σ : Type} [BEq K]

/-- Read the member of a field, where there is one. -/
def readMember (members : List (K × V)) (s : σ) (field : RecordField K V ε σ) : Except ε σ :=
  match members.lookup field.key with
  | none => .ok s
  | some v => (field.read v).map (field.set s)

/-- The fields are read one after the other. -/
def readMembers (fields : List (RecordField K V ε σ)) (members : List (K × V)) (s : σ) :
    Except ε σ :=
  fields.foldlM (readMember members) s

/-- What a member makes of its field. -/
def Reads (members : List (K × V)) (s s' : σ) (field : RecordField K V ε σ) : Prop :=
  match members.lookup field.key with
  | none => field.get s' = field.get s
  | some v => field.read v = .ok (field.get s')

/-- Storing the one field leaves the other. -/
def Spares (field other : RecordField K V ε σ) : Prop :=
  ∀ s x, other.get (field.set s x) = other.get s

/-- Fields that are kept apart, and that are the whole of the record. -/
structure Separate (fields : List (RecordField K V ε σ)) : Prop where
  spares : fields.Pairwise fun f g => f.Spares g ∧ g.Spares f
  ext : ∀ s s' : σ, (∀ f ∈ fields, f.get s = f.get s') → s = s'

/-! ## One member -/

/-- One field reads its member, and spares what the others read. -/
theorem readMember_eq_ok {members : List (K × V)} {s t : σ} {field : RecordField K V ε σ}
    (h : readMember members s field = .ok t) :
    Reads members s t field ∧ ∀ other, field.Spares other → other.get t = other.get s := by
  unfold readMember at h
  unfold Reads
  cases hlookup : members.lookup field.key with
  | none =>
    simp only [hlookup] at h ⊢
    obtain rfl := Except.ok.inj h
    exact ⟨rfl, fun _ _ => rfl⟩
  | some v =>
    simp only [hlookup] at h ⊢
    cases hread : field.read v with
    | error e =>
      rw [hread] at h
      cases h
    | ok x =>
      rw [hread] at h
      obtain rfl := Except.ok.inj h
      exact ⟨by rw [field.get_set], fun _ hspares => hspares s x⟩

theorem exists_readMember {members : List (K × V)} {s s' : σ} {field : RecordField K V ε σ}
    (h : Reads members s s' field) : ∃ t, readMember members s field = .ok t := by
  unfold Reads at h
  unfold readMember
  cases hlookup : members.lookup field.key with
  | none => exact ⟨s, rfl⟩
  | some v =>
    simp only [hlookup] at h ⊢
    exact ⟨field.set s (field.get s'), by rw [h]; rfl⟩

/-- What is read of a field depends on the field alone. -/
theorem reads_congr {members : List (K × V)} {s t s' : σ} {field : RecordField K V ε σ}
    (h : field.get t = field.get s) : Reads members t s' field ↔ Reads members s s' field := by
  unfold Reads
  cases members.lookup field.key with
  | none => simp only [h]
  | some v => rfl

/-- What a member says of a field is one value. -/
theorem reads_unique {members : List (K × V)} {s s' t : σ} {field : RecordField K V ε σ}
    (h : Reads members s s' field) (ht : Reads members s t field) : field.get s' = field.get t := by
  unfold Reads at h ht
  cases hlookup : members.lookup field.key with
  | none =>
    simp only [hlookup] at h ht
    rw [h, ht]
  | some v =>
    simp only [hlookup] at h ht
    exact Except.ok.inj (h.symm.trans ht)

/-! ## All members -/

/-- **Fields that spare each other** have each read its member, -/
theorem reads_of_readMembers {members : List (K × V)} :
    ∀ {fields : List (RecordField K V ε σ)} {s t : σ},
      (fields.Pairwise fun f g => f.Spares g ∧ g.Spares f) →
      readMembers fields members s = .ok t →
      (∀ f ∈ fields, Reads members s t f) ∧
        ∀ other, (∀ f ∈ fields, f.Spares other) → other.get t = other.get s
  | [], s, t, _, h => by
      obtain rfl := Except.ok.inj h
      exact ⟨fun _ hf => absurd hf List.not_mem_nil, fun _ _ => rfl⟩
  | field :: fields, s, t, hspares, h => by
      obtain ⟨hfield, hfields⟩ := List.pairwise_cons.mp hspares
      rw [readMembers, List.foldlM_cons] at h
      obtain ⟨s₁, hone⟩ : ∃ s₁, readMember members s field = .ok s₁ := by
        cases hone : readMember members s field with
        | error e =>
          rw [hone] at h
          cases h
        | ok s₁ => exact ⟨s₁, rfl⟩
      rw [hone] at h
      obtain ⟨hreads, hkept⟩ := readMember_eq_ok hone
      obtain ⟨hreads', hkept'⟩ := reads_of_readMembers hfields h
      have hlater : field.get t = field.get s₁ := hkept' field fun f hf => (hfield f hf).2
      refine ⟨fun f hf => ?_, fun other hother => ?_⟩
      · rcases List.mem_cons.mp hf with rfl | hf
        · unfold Reads at hreads ⊢
          rwa [hlater]
        · exact (reads_congr (hkept f (hfield f hf).1)).mp (hreads' f hf)
      · rw [hkept' other fun f hf => hother f (List.mem_cons_of_mem _ hf),
          hkept other (hother field List.mem_cons_self)]

/-- **and are read** where each can be. -/
theorem exists_readMembers {members : List (K × V)} :
    ∀ {fields : List (RecordField K V ε σ)} {s s' : σ},
      (fields.Pairwise fun f g => f.Spares g ∧ g.Spares f) →
      (∀ f ∈ fields, Reads members s s' f) → ∃ t, readMembers fields members s = .ok t
  | [], s, _, _, _ => ⟨s, rfl⟩
  | field :: fields, s, s', hspares, h => by
      obtain ⟨hfield, hfields⟩ := List.pairwise_cons.mp hspares
      obtain ⟨s₁, hone⟩ := exists_readMember (h field List.mem_cons_self)
      have hkept := (readMember_eq_ok hone).2
      obtain ⟨t, ht⟩ := exists_readMembers (s := s₁) hfields fun f hf =>
        (reads_congr (hkept f (hfield f hf).1)).mpr (h f (List.mem_cons_of_mem _ hf))
      refine ⟨t, ?_⟩
      rw [readMembers, List.foldlM_cons, hone]
      exact ht

/-- Members under other keys are not read. -/
theorem readMembers_congr {fields : List (RecordField K V ε σ)}
    {members members' : List (K × V)}
    (h : ∀ f ∈ fields, members'.lookup f.key = members.lookup f.key) (s : σ) :
    readMembers fields members' s = readMembers fields members s := by
  unfold readMembers
  induction fields generalizing s with
  | nil => rfl
  | cons field fields ih =>
    rw [List.foldlM_cons, List.foldlM_cons, readMember, readMember, h field List.mem_cons_self]
    refine congrArg _ (funext fun t => ?_)
    exact ih (fun f hf => h f (List.mem_cons_of_mem _ hf)) t

/-- **A record is read when each of its fields is**, whatever their order. -/
theorem readMembers_eq_ok {fields : List (RecordField K V ε σ)} (hfields : Separate fields)
    {members : List (K × V)} {s s' : σ} :
    readMembers fields members s = .ok s' ↔ ∀ f ∈ fields, Reads members s s' f := by
  refine ⟨fun h => (reads_of_readMembers hfields.spares h).1, fun h => ?_⟩
  obtain ⟨t, ht⟩ := exists_readMembers hfields.spares h
  have hreads := (reads_of_readMembers hfields.spares ht).1
  rw [ht, hfields.ext s' t fun f hf => reads_unique (h f hf) (hreads f hf)]

end RecordField

/-! ## Fewer members -/

section Lookup

variable {K V : Type} [BEq K] [LawfulBEq K]

/-- Pruning unknown members hides no known one. -/
theorem lookup_filter_fst {known : K → Bool} {k : K} (hk : known k = true) :
    ∀ members : List (K × V),
      (members.filter fun member => known member.1).lookup k = members.lookup k
  | [] => rfl
  | (k', v) :: members => by
      by_cases hkey : k = k'
      · subst hkey
        rw [List.filter_cons_of_pos (by exact hk), List.lookup_cons_self, List.lookup_cons_self]
      · have hne : (k == k') = false := beq_false_of_ne hkey
        rw [List.lookup_cons, hne, ← lookup_filter_fst hk members]
        by_cases hknown : known k' = true
        · rw [List.filter_cons_of_pos (by exact hknown), List.lookup_cons, hne]
        · rw [List.filter_cons_of_neg (by exact hknown)]

theorem lookup_filter_fst_eq_none {known : K → Bool} {k : K} (hk : known k = false)
    (members : List (K × V)) : (members.filter fun member => known member.1).lookup k = none := by
  refine List.lookup_eq_none_iff.mpr fun member hmember => bne_iff_ne.mpr fun hkey => ?_
  have hknown := (List.mem_filter.mp hmember).2
  rw [← hkey, hk] at hknown
  cases hknown

theorem lookup_of_mem_nodup {k : K} {v : V} :
    ∀ {members : List (K × V)}, (members.map Prod.fst).Nodup → (k, v) ∈ members →
      members.lookup k = some v
  | (k', v') :: members, hnodup, hmem => by
      obtain ⟨hnew, hnodup⟩ := List.nodup_cons.mp hnodup
      rcases List.mem_cons.mp hmem with hhead | htail
      · obtain ⟨rfl, rfl⟩ := Prod.mk.inj hhead
        exact List.lookup_cons_self
      · have hne : k ≠ k' := fun hkey => hnew (List.mem_map.mpr ⟨(k, v), htail, hkey⟩)
        rw [List.lookup_cons, beq_false_of_ne hne]
        exact lookup_of_mem_nodup hnodup htail

theorem lookup_map_snd {W : Type} (f : K → V → W) (k : K) :
    ∀ members : List (K × V),
      (members.map fun member => (member.1, f member.1 member.2)).lookup k =
        (members.lookup k).map (f k)
  | [] => rfl
  | (k', v) :: members => by
      by_cases hkey : k = k'
      · subst hkey
        rw [List.map_cons, List.lookup_cons_self, List.lookup_cons_self]
        rfl
      · have hne : (k == k') = false := beq_false_of_ne hkey
        rw [List.map_cons, List.lookup_cons, List.lookup_cons, hne]
        exact lookup_map_snd f k members

end Lookup

end FacLpr
