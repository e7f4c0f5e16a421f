import Mathlib.Order.Defs.LinearOrder
import Mathlib.Data.List.Nodup
import Mathlib.Order.Lattice

/-!
# Foundations/OrdMap — `std::map`

A map is its list of entries in increasing key order, so iteration is the list itself.  The one
update is `upsert`: it hands the value already stored (or `none`) to a function and stores the
result, which covers `emplace`, `operator[]` and every accumulate loop.
-/

namespace FacLpr

variable {κ ν : Type*} [LinearOrder κ]

/-- A map, as its entries in strictly increasing key order. -/
structure OrdMap (κ ν : Type*) [LinearOrder κ] where
  entries : List (κ × ν)
  sorted : entries.Pairwise fun p q => p.1 < q.1

namespace OrdMap

/-- The map with no entries. -/
def empty : OrdMap κ ν := ⟨[], List.Pairwise.nil⟩

instance : Inhabited (OrdMap κ ν) := ⟨empty⟩

/-- The value stored at a key. -/
def find? (m : OrdMap κ ν) (k : κ) : Option ν := m.entries.lookup k

/-- The number of entries. -/
def size (m : OrdMap κ ν) : ℕ := m.entries.length

/-- Replace or insert the value at `k`, keeping the entries sorted. -/
def upsertList (k : κ) (f : Option ν → ν) : List (κ × ν) → List (κ × ν)
  | [] => [(k, f none)]
  | (k', v) :: l =>
      if k < k' then (k, f none) :: (k', v) :: l
      else if k = k' then (k', f (some v)) :: l
      else (k', v) :: upsertList k f l

/-- Every key after an update was there before it, or is the updated one. -/
theorem fst_of_mem_upsertList {k : κ} {f : Option ν → ν} :
    ∀ {l : List (κ × ν)} {p : κ × ν}, p ∈ upsertList k f l → p.1 = k ∨ ∃ q ∈ l, q.1 = p.1
  | [], p, hp => by
      simp only [upsertList, List.mem_singleton] at hp
      exact Or.inl (by rw [hp])
  | (k', v) :: l, p, hp => by
      rw [upsertList] at hp
      split at hp
      · rcases List.mem_cons.mp hp with rfl | hp
        · exact Or.inl rfl
        · exact Or.inr ⟨p, hp, rfl⟩
      · split at hp
        · rcases List.mem_cons.mp hp with rfl | hp
          · exact Or.inr ⟨(k', v), List.mem_cons_self, rfl⟩
          · exact Or.inr ⟨p, List.mem_cons_of_mem _ hp, rfl⟩
        · rcases List.mem_cons.mp hp with rfl | hp
          · exact Or.inr ⟨(k', v), List.mem_cons_self, rfl⟩
          · rcases fst_of_mem_upsertList hp with h | ⟨q, hq, hqp⟩
            · exact Or.inl h
            · exact Or.inr ⟨q, List.mem_cons_of_mem _ hq, hqp⟩

/-- Updating keeps the keys strictly increasing. -/
theorem pairwise_upsertList (k : κ) (f : Option ν → ν) : ∀ {l : List (κ × ν)},
    (l.Pairwise fun p q => p.1 < q.1) → (upsertList k f l).Pairwise fun p q => p.1 < q.1
  | [], _ => List.pairwise_singleton _ _
  | (k', v) :: l, h => by
      obtain ⟨hhead, htail⟩ := List.pairwise_cons.mp h
      rw [upsertList]
      split
      · rename_i hlt
        refine List.pairwise_cons.mpr ⟨fun q hq => ?_, h⟩
        rcases List.mem_cons.mp hq with rfl | hq
        · exact hlt
        · exact lt_trans hlt (hhead q hq)
      · split
        · exact List.pairwise_cons.mpr ⟨hhead, htail⟩
        · rename_i hnlt hne
          refine List.pairwise_cons.mpr ⟨fun q hq => ?_, pairwise_upsertList k f htail⟩
          rcases fst_of_mem_upsertList hq with hk | ⟨p, hp, hpq⟩
          · rw [hk]
            exact lt_of_le_of_ne (not_lt.mp hnlt) (Ne.symm hne)
          · rw [← hpq]
            exact hhead p hp

/-- Hand the stored value (or `none`) to `f` and store what it returns. -/
def upsert (m : OrdMap κ ν) (k : κ) (f : Option ν → ν) : OrdMap κ ν :=
  ⟨upsertList k f m.entries, pairwise_upsertList k f m.sorted⟩

@[simp] theorem find?_empty (k : κ) : (empty : OrdMap κ ν).find? k = none := rfl

/-- A key below every stored one is not stored. -/
theorem lookup_eq_none_of_lt {k : κ} : ∀ {l : List (κ × ν)},
    (∀ p ∈ l, k < p.1) → l.lookup k = none
  | [], _ => rfl
  | (k', v) :: l, h => by
      have hne : (k == k') = false := beq_false_of_ne (ne_of_lt (h _ List.mem_cons_self))
      rw [List.lookup_cons, hne]
      exact lookup_eq_none_of_lt fun p hp => h p (List.mem_cons_of_mem _ hp)

theorem lookup_upsertList_self (k : κ) (f : Option ν → ν) : ∀ {l : List (κ × ν)},
    (l.Pairwise fun p q => p.1 < q.1) → (upsertList k f l).lookup k = some (f (l.lookup k))
  | [], _ => by simp [upsertList]
  | (k', v) :: l, h => by
      obtain ⟨hhead, htail⟩ := List.pairwise_cons.mp h
      rw [upsertList]
      split
      · rename_i hlt
        have hnone : ((k', v) :: l).lookup k = none := lookup_eq_none_of_lt fun p hp => by
          rcases List.mem_cons.mp hp with rfl | hp
          · exact hlt
          · exact lt_trans hlt (hhead p hp)
        rw [hnone]
        simp
      · split
        · rename_i heq
          subst heq
          simp
        · rename_i hne
          have hbeq : (k == k') = false := beq_false_of_ne hne
          rw [List.lookup_cons, hbeq, List.lookup_cons, hbeq]
          exact lookup_upsertList_self k f htail

theorem lookup_upsertList_of_ne {k j : κ} (f : Option ν → ν) (hkj : j ≠ k) :
    ∀ l : List (κ × ν), (upsertList k f l).lookup j = l.lookup j
  | [] => by simp [upsertList, hkj]
  | (k', v) :: l => by
      rw [upsertList]
      split
      · simp [List.lookup_cons, beq_false_of_ne hkj]
      · split
        · rename_i heq
          subst heq
          simp [List.lookup_cons, beq_false_of_ne hkj]
        · rw [List.lookup_cons, List.lookup_cons, lookup_upsertList_of_ne f hkj l]

/-- **The updated key holds what the function made of its old value.** -/
@[simp] theorem find?_upsert_self (m : OrdMap κ ν) (k : κ) (f : Option ν → ν) :
    (m.upsert k f).find? k = some (f (m.find? k)) := lookup_upsertList_self k f m.sorted

/-- **Every other key is unchanged.** -/
theorem find?_upsert_of_ne (m : OrdMap κ ν) {k j : κ} (f : Option ν → ν) (h : j ≠ k) :
    (m.upsert k f).find? j = m.find? j := lookup_upsertList_of_ne f h m.entries

theorem mem_of_lookup {k : κ} {v : ν} : ∀ {l : List (κ × ν)}, l.lookup k = some v → (k, v) ∈ l
  | [], h => by simp at h
  | (k', v') :: l, h => by
      rw [List.lookup_cons] at h
      split at h
      · rename_i heq
        obtain rfl := eq_of_beq heq
        obtain rfl := Option.some.inj h
        exact List.mem_cons_self
      · exact List.mem_cons_of_mem _ (mem_of_lookup h)

theorem lookup_of_mem {k : κ} {v : ν} : ∀ {l : List (κ × ν)},
    (l.Pairwise fun p q => p.1 < q.1) → (k, v) ∈ l → l.lookup k = some v
  | (k', v') :: l, h, hm => by
      obtain ⟨hhead, htail⟩ := List.pairwise_cons.mp h
      rcases List.mem_cons.mp hm with heq | hm
      · obtain ⟨rfl, rfl⟩ := Prod.mk.inj heq
        simp
      · have hne : (k == k') = false := beq_false_of_ne (ne_of_gt (hhead _ hm))
        rw [List.lookup_cons, hne]
        exact lookup_of_mem htail hm

/-- The entries are exactly the stored values. -/
theorem mem_entries {m : OrdMap κ ν} {k : κ} {v : ν} :
    (k, v) ∈ m.entries ↔ m.find? k = some v :=
  ⟨lookup_of_mem m.sorted, mem_of_lookup⟩

/-- Each key is listed once. -/
theorem nodup_keys (m : OrdMap κ ν) : (m.entries.map Prod.fst).Nodup :=
  (List.pairwise_map.mpr m.sorted).imp fun h => ne_of_lt h

/-- Lists made for the keys share nothing, when an element tells the key of its list. -/
theorem nodup_flatten_map_keys {ι : Type*} (m : OrdMap κ ν) {f : κ → List ι} {key : ι → κ}
    (hnodup : ∀ k, (f k).Nodup) (hkey : ∀ {k i}, i ∈ f k → key i = k) :
    (m.entries.map fun entry => f entry.1).flatten.Nodup := by
  refine List.nodup_flatten.mpr ⟨fun l hl => ?_, ?_⟩
  · obtain ⟨entry, -, rfl⟩ := List.mem_map.mp hl
    exact hnodup entry.1
  · refine List.pairwise_map.mpr (m.sorted.imp fun {entry entry'} hlt i hi hi' => ?_)
    exact hlt.ne ((hkey hi).symm.trans (hkey hi'))

/-- A map with one key. -/
theorem entries_eq_singleton {m : OrdMap κ ν} {k : κ} (hmem : ∃ v, (k, v) ∈ m.entries)
    (honly : ∀ entry ∈ m.entries, entry.1 = k) : ∃ v, m.entries = [(k, v)] := by
  have hnodup := m.nodup_keys
  obtain ⟨v, hv⟩ := hmem
  match hentries : m.entries with
  | [] =>
    rw [hentries] at hv
    cases hv
  | [entry] =>
    rw [hentries] at honly
    obtain rfl := honly entry (List.mem_singleton_self entry)
    exact ⟨entry.2, rfl⟩
  | first :: second :: rest =>
    rw [hentries] at hnodup honly
    have hfirst := honly first List.mem_cons_self
    have hsecond := honly second (List.mem_cons_of_mem _ List.mem_cons_self)
    simp [hfirst, hsecond] at hnodup

/-! ## Mapping the values -/

/-- The map with every value replaced by its image. -/
def map {ω : Type*} (f : ν → ω) (m : OrdMap κ ν) : OrdMap κ ω :=
  ⟨m.entries.map fun p => (p.1, f p.2), List.pairwise_map.mpr m.sorted⟩

theorem map_upsertList {ω : Type*} {f : ν → ω} {u : Option ν → ν} {u' : Option ω → ω}
    (h : ∀ stored, u' (stored.map f) = f (u stored)) (k : κ) : ∀ l : List (κ × ν),
    upsertList k u' (l.map fun p => (p.1, f p.2)) =
      (upsertList k u l).map fun p => (p.1, f p.2)
  | [] => by
      rw [upsertList, List.map_singleton, ← h none]
      rfl
  | (k', v) :: l => by
      have hnone : u' none = f (u none) := h none
      have hsome : u' (some (f v)) = f (u (some v)) := h (some v)
      rw [List.map_cons, upsertList, upsertList]
      split
      · rw [hnone]
        rfl
      · split
        · rw [hsome]
          rfl
        · rw [map_upsertList h k l]
          rfl

/-- **An update commutes with a map of the values** when what it stores does. -/
theorem map_upsert {ω : Type*} {f : ν → ω} {u : Option ν → ν} {u' : Option ω → ω}
    (h : ∀ stored, u' (stored.map f) = f (u stored)) (m : OrdMap κ ν) (k : κ) :
    (m.map f).upsert k u' = (m.upsert k u).map f := by
  obtain ⟨entries, hsorted⟩ := m
  simp only [map, upsert, mk.injEq]
  exact map_upsertList h k entries

/-! ## Loops of updates -/

/-- **A loop of updates, at one key**, is the loop over the elements with that key. -/
theorem find?_foldl_upsert [BEq κ] [LawfulBEq κ] {α : Type*}
    (key : α → κ) (f : α → Option ν → ν) (k : κ) (l : List α)
    (m : OrdMap κ ν) :
    (l.foldl (fun m a => m.upsert (key a) (f a)) m).find? k =
      (l.filter fun a => key a == k).foldl (fun stored a => some (f a stored)) (m.find? k) := by
  induction l generalizing m with
  | nil => rfl
  | cons a l ih =>
    rw [List.foldl_cons, ih, List.filter_cons]
    by_cases h : key a = k
    · rw [h, find?_upsert_self, if_pos (beq_self_eq_true k), List.foldl_cons]
    · rw [find?_upsert_of_ne m (f a) (Ne.symm h), if_neg (by simpa using h)]

/-- The same, for a loop that skips elements. -/
theorem find?_foldl_upsert_if [BEq κ] [LawfulBEq κ] {α : Type*} (p : α → Bool) (key : α → κ)
    (f : α → Option ν → ν) (k : κ) (l : List α) (m : OrdMap κ ν) :
    (l.foldl (fun m a => if p a then m.upsert (key a) (f a) else m) m).find? k =
      (l.filter fun a => p a && key a == k).foldl (fun stored a => some (f a stored))
        (m.find? k) := by
  rw [← List.foldl_filter, find?_foldl_upsert key f, List.filter_filter]
  simp only [Bool.and_comm]

/-- The entries with one key. -/
theorem filter_entries (m : OrdMap κ ν) (k : κ) :
    (m.entries.filter fun p => p.1 == k) = ((m.find? k).map (Prod.mk k)).toList := by
  obtain ⟨entries, hsorted⟩ := m
  simp only [find?]
  induction entries with
  | nil => rfl
  | cons p l ih =>
    obtain ⟨k', v⟩ := p
    obtain ⟨hhead, htail⟩ := List.pairwise_cons.mp hsorted
    rw [List.filter_cons, List.lookup_cons]
    by_cases h : k' = k
    · subst h
      have hnone : (l.filter fun p => p.1 == k') = [] :=
        List.filter_eq_nil_iff.mpr fun p hp => by simpa using ne_of_gt (hhead p hp)
      simp [hnone]
    · simp [h, beq_false_of_ne (Ne.symm h), ih htail]

/-- A loop of updates over the entries of a map, at one key. -/
theorem find?_foldl_entries {ω : Type*} (f : ω → Option ν → ν) (votes : OrdMap κ ω) (k : κ)
    (m : OrdMap κ ν) :
    (votes.entries.foldl (fun m p => m.upsert p.1 (f p.2)) m).find? k =
      ((votes.find? k).map fun v => f v (m.find? k)).or (m.find? k) := by
  rw [find?_foldl_upsert Prod.fst (fun p => f p.2), filter_entries]
  cases votes.find? k <;> rfl

end OrdMap

end FacLpr
