import Mathlib.Data.List.Basic
import Mathlib.Data.List.Perm.Subperm

/-!
# Foundations/Stores — stores into a vector

A list of stores is carried out in order (`storeAll`).  Where every index is stored to, nothing of
the old contents is left (`storeAll_eq_of_covered`); where every index is stored to once, every store
can be read back (`getElem?_storeAll`).
-/

namespace FacLpr

variable {α : Type*}

/-- Carry out the stores, in order. -/
def storeAll (values : List α) (stores : List (ℕ × α)) : List α :=
  stores.foldl (fun values store => values.set store.1 store.2) values

/-- Vectors of one length are equal after stores to every index where they differ. -/
theorem storeAll_eq_of_differ {values values' : List α} (hlength : values.length = values'.length)
    {stores : List (ℕ × α)}
    (h : ∀ i, values[i]? ≠ values'[i]? → ∃ store ∈ stores, store.1 = i) :
    storeAll values stores = storeAll values' stores := by
  induction stores generalizing values values' with
  | nil =>
    refine List.ext_getElem? fun i => ?_
    by_contra hne
    obtain ⟨store, hmem, -⟩ := h i hne
    exact absurd hmem List.not_mem_nil
  | cons store stores ih =>
    refine ih (by rw [List.length_set, List.length_set, hlength]) fun i hne => ?_
    change (values.set store.1 store.2)[i]? ≠ (values'.set store.1 store.2)[i]? at hne
    -- the first store makes the two equal at its index
    have hother : store.1 ≠ i := by
      rintro rfl
      exact hne (by rw [List.getElem?_set, List.getElem?_set, hlength, if_pos rfl, if_pos rfl])
    rw [List.getElem?_set_ne hother, List.getElem?_set_ne hother] at hne
    obtain ⟨store', hmem, hstore'⟩ := h i hne
    rcases List.mem_cons.mp hmem with rfl | hmem
    · exact absurd hstore' hother
    · exact ⟨store', hmem, hstore'⟩

/-- **Stores to every index** leave nothing of the old contents. -/
theorem storeAll_eq_of_covered {values values' : List α} (hlength : values.length = values'.length)
    {stores : List (ℕ × α)} (h : ∀ i < values.length, ∃ store ∈ stores, store.1 = i) :
    storeAll values stores = storeAll values' stores := by
  refine storeAll_eq_of_differ hlength fun i hne => h i (Nat.lt_of_not_le fun hle => hne ?_)
  rw [List.getElem?_eq_none hle, List.getElem?_eq_none (hlength ▸ hle)]

@[simp] theorem length_storeAll (values : List α) (stores : List (ℕ × α)) :
    (storeAll values stores).length = values.length := by
  induction stores generalizing values with
  | nil => rfl
  | cons store stores ih => exact (ih _).trans List.length_set

theorem getElem?_storeAll_of_notMem {values : List α} {stores : List (ℕ × α)} {i : ℕ}
    (h : i ∉ stores.map Prod.fst) : (storeAll values stores)[i]? = values[i]? := by
  induction stores generalizing values with
  | nil => rfl
  | cons store stores ih =>
    rw [List.map_cons, List.mem_cons, not_or] at h
    exact (ih h.2).trans (List.getElem?_set_ne (Ne.symm h.1))

/-- **What is stored once** is read back. -/
theorem getElem?_storeAll {values : List α} {stores : List (ℕ × α)}
    (hnodup : (stores.map Prod.fst).Nodup) {i : ℕ} {value : α} (h : (i, value) ∈ stores)
    (hi : i < values.length) : (storeAll values stores)[i]? = some value := by
  induction stores generalizing values with
  | nil => exact absurd h List.not_mem_nil
  | cons store stores ih =>
    obtain ⟨hfresh, hrest⟩ := List.nodup_cons.mp hnodup
    rcases List.mem_cons.mp h with rfl | h
    · exact (getElem?_storeAll_of_notMem hfresh).trans (List.getElem?_set_self hi)
    · exact ih hrest h (by rwa [List.length_set])

/-- Stores to as many indices as there are, and to every one, are stores to each of them once. -/
theorem map_fst_perm_range {stores : List (ℕ × α)} {n : ℕ} (hlength : stores.length = n)
    (h : ∀ i < n, ∃ store ∈ stores, store.1 = i) : (stores.map Prod.fst).Perm (List.range n) := by
  have hsubset : List.range n ⊆ stores.map Prod.fst := fun i hi =>
    List.mem_map.mpr (h i (List.mem_range.mp hi))
  refine ((List.nodup_range.subperm hsubset).perm_of_length_le (Nat.le_of_eq ?_)).symm
  rw [List.length_map, List.length_range, hlength]

/-- The stores of a loop, one body after another. -/
theorem storeAll_flatMap {β : Type*} (l : List β) (stores : β → List (ℕ × α)) (values : List α) :
    storeAll values (l.flatMap stores) =
      l.foldl (fun values b => storeAll values (stores b)) values :=
  List.foldl_flatMap

end FacLpr
