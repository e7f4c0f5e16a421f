import Mathlib.Data.List.Dedup
import Mathlib.Data.List.Nodup

/-!
# Foundations/LruMap — a map that keeps what was used last

A map of bounded size lists its entries, the most recently used first.  Storing an entry or finding
it is a use, and moves the entry to the front; what falls off the end is the entry used longest ago.
So after any uses the map holds the keys used last, in that order (`Follows.keys_eq`), each with the
value last stored (`Follows.find?_eq`).
-/

namespace FacLpr

variable {κ ν : Type} [DecidableEq κ]

/-! ## The keys of a list of uses -/

/-- The keys of some uses, the most recently used first. -/
def recent (uses : List κ) : List κ := uses.dedup.reverse

theorem dedup_concat (uses : List κ) (key : κ) :
    (uses ++ [key]).dedup = uses.dedup.erase key ++ [key] := by
  induction uses with
  | nil => simp
  | cons k uses ih =>
    rw [List.cons_append]
    by_cases hmem : k ∈ uses
    · rw [List.dedup_cons_of_mem (List.mem_append_left _ hmem), ih, List.dedup_cons_of_mem hmem]
    · by_cases hk : k = key
      · subst hk
        have hnot : k ∉ uses.dedup := fun h => hmem (List.mem_dedup.mp h)
        rw [List.dedup_cons_of_mem (by simp), ih, List.dedup_cons_of_notMem hmem,
          List.erase_cons_head, List.erase_of_not_mem hnot]
      · rw [List.dedup_cons_of_notMem (by simp [hmem, hk]), ih, List.dedup_cons_of_notMem hmem,
          List.erase_cons_tail (by simpa using hk), List.cons_append]

theorem nodup_recent (uses : List κ) : (recent uses).Nodup :=
  List.nodup_reverse.mpr uses.nodup_dedup

/-- **A use moves its key to the front.** -/
theorem recent_concat (uses : List κ) (key : κ) :
    recent (uses ++ [key]) = key :: (recent uses).filter (· != key) := by
  rw [recent, dedup_concat, List.reverse_append, List.reverse_singleton, List.singleton_append,
    recent, uses.nodup_dedup.erase_eq_filter, List.filter_reverse]

/-- Removing a key from the first keys takes at most one of them. -/
theorem take_erase (key : κ) : ∀ (keys : List κ) (n : ℕ),
    (keys.erase key).take n = ((keys.take (n + 1)).erase key).take n
  | [], n => by simp
  | k :: keys, n => by
      rw [List.take_succ_cons, List.erase_cons, List.erase_cons]
      split
      · rw [List.take_take, Nat.min_self]
      · cases n with
        | zero => rfl
        | succ n => rw [List.take_succ_cons, List.take_succ_cons, take_erase key keys n]

/-- **The keys used last are the same whether the others were kept or not.** -/
theorem take_use {keys : List κ} (h : keys.Nodup) (key : κ) (n : ℕ) :
    (key :: (keys.take n).filter (· != key)).take n = (key :: keys.filter (· != key)).take n := by
  cases n with
  | zero => rfl
  | succ n =>
    rw [List.take_succ_cons, List.take_succ_cons, ← h.erase_eq_filter, take_erase key keys n,
      ← (h.sublist (List.take_sublist _ _)).erase_eq_filter]

/-! ## The map -/

/-- A map of at most `capacity` entries, the most recently used first. -/
structure LruMap (κ ν : Type) (capacity : ℕ) where
  entries : List (κ × ν)
  nodup : (entries.map Prod.fst).Nodup
  bounded : entries.length ≤ capacity

/-- The entries of the other keys. -/
def others (key : κ) (entries : List (κ × ν)) : List (κ × ν) :=
  entries.filter fun entry => entry.1 != key

theorem map_fst_others (key : κ) (entries : List (κ × ν)) :
    (others key entries).map Prod.fst = (entries.map Prod.fst).filter (· != key) := by
  rw [others, List.filter_map]
  rfl

namespace LruMap

variable {capacity : ℕ}

def empty : LruMap κ ν capacity := ⟨[], List.nodup_nil, Nat.zero_le _⟩

/-- The keys, the most recently used first. -/
def keys (m : LruMap κ ν capacity) : List κ := m.entries.map Prod.fst

def find? (m : LruMap κ ν capacity) (key : κ) : Option ν := m.entries.lookup key

/-- Use an entry: it comes to the front, and the last one falls off when there are too many. -/
def use (m : LruMap κ ν capacity) (key : κ) (value : ν) : LruMap κ ν capacity where
  entries := ((key, value) :: others key m.entries).take capacity
  nodup := by
    have hcons : (((key, value) :: others key m.entries).map Prod.fst).Nodup := by
      rw [List.map_cons, map_fst_others]
      exact List.nodup_cons.mpr ⟨by simp, m.nodup.filter _⟩
    rw [List.map_take]
    exact hcons.sublist (List.take_sublist _ _)
  bounded := List.length_take_le _ _

theorem entries_use (m : LruMap κ ν capacity) (key : κ) (value : ν) :
    (m.use key value).entries = ((key, value) :: others key m.entries).take capacity := rfl

theorem keys_use (m : LruMap κ ν capacity) (key : κ) (value : ν) :
    (m.use key value).keys = (key :: m.keys.filter (· != key)).take capacity := by
  rw [keys, entries_use, List.map_take, List.map_cons, map_fst_others, keys]

theorem keys_use_of_notMem {m : LruMap κ ν capacity} {key : κ} (h : key ∉ m.keys) (value : ν) :
    (m.use key value).keys = (key :: m.keys).take capacity := by
  have hsame : m.keys.filter (· != key) = m.keys := by
    refine List.filter_eq_self.mpr fun k hk => bne_iff_ne.mpr ?_
    rintro rfl
    exact h hk
  rw [keys_use, hsame]

/-- An entry is found under its key. -/
theorem find?_eq_some_iff {m : LruMap κ ν capacity} {key : κ} {value : ν} :
    m.find? key = some value ↔ (key, value) ∈ m.entries := by
  rw [find?, List.lookup_eq_some_iff]
  constructor
  · rintro ⟨before, after, heq, -⟩
    rw [heq]
    exact List.mem_append_right _ List.mem_cons_self
  · intro hmem
    obtain ⟨before, after, heq⟩ := List.append_of_mem hmem
    refine ⟨before, after, heq, fun entry hentry => ?_⟩
    have hnodup := m.nodup
    rw [heq, List.map_append, List.map_cons, List.nodup_append] at hnodup
    have hne := hnodup.2.2 entry.1 (List.mem_map_of_mem hentry) key List.mem_cons_self
    simpa using hne.symm

/-- A use changes no other value. -/
theorem find?_use {m : LruMap κ ν capacity} {key k : κ} {value v : ν}
    (h : (m.use key value).find? k = some v) :
    (k = key ∧ v = value) ∨ (k ≠ key ∧ m.find? k = some v) := by
  rw [find?_eq_some_iff, entries_use] at h
  rcases List.mem_cons.mp (List.mem_of_mem_take h) with heq | hmem
  · exact Or.inl (Prod.mk.inj heq)
  · obtain ⟨hmem, hne⟩ := List.mem_filter.mp hmem
    exact Or.inr ⟨by simpa using hne, find?_eq_some_iff.mpr hmem⟩

end LruMap

/-! ## The uses of a map -/

/-- A use of a map: an entry found, or an entry stored. -/
inductive LruUse (κ ν : Type) where
  | hit (key : κ) (value : ν)
  | put (key : κ) (value : ν)

def LruUse.key : LruUse κ ν → κ
  | .hit key _ | .put key _ => key

/-- The value last stored under a key. -/
def lastPut (key : κ) : List (LruUse κ ν) → Option ν
  | [] => none
  | .hit _ _ :: uses => lastPut key uses
  | .put k value :: uses => (lastPut key uses).or (if k = key then some value else none)

namespace LruMap

variable {capacity : ℕ}

/-- The uses that led to a map: what is hit is in the map. -/
inductive Follows : List (LruUse κ ν) → LruMap κ ν capacity → Prop
  | empty : Follows [] empty
  | hit {uses : List (LruUse κ ν)} {m : LruMap κ ν capacity} {key : κ} {value : ν}
      (h : Follows uses m) (hfound : m.find? key = some value) :
      Follows (uses ++ [.hit key value]) (m.use key value)
  | put {uses : List (LruUse κ ν)} {m : LruMap κ ν capacity} (key : κ) (value : ν)
      (h : Follows uses m) : Follows (uses ++ [.put key value]) (m.use key value)

/-- **The map holds the keys used last**, in the order of their last uses. -/
theorem Follows.keys_eq {uses : List (LruUse κ ν)} {m : LruMap κ ν capacity} (h : Follows uses m) :
    m.keys = (recent (uses.map LruUse.key)).take capacity := by
  induction h with
  | empty => simp [keys, LruMap.empty, recent]
  | hit _ _ ih | put _ _ _ ih =>
    rw [keys_use, ih, List.map_append, List.map_singleton, LruUse.key, recent_concat,
      take_use (nodup_recent _)]

theorem lastPut_hit (k : κ) (uses : List (LruUse κ ν)) (key : κ) (value : ν) :
    lastPut k (uses ++ [.hit key value]) = lastPut k uses := by
  induction uses with
  | nil => rfl
  | cons use uses ih => cases use <;> simp only [List.cons_append, lastPut, ih]

theorem lastPut_put (k : κ) (uses : List (LruUse κ ν)) (key : κ) (value : ν) :
    lastPut k (uses ++ [.put key value]) = if key = k then some value else lastPut k uses := by
  induction uses with
  | nil => simp [lastPut]
  | cons use uses ih =>
    cases use <;> simp only [List.cons_append, lastPut, ih]
    split <;> simp

/-- The value last stored was stored. -/
theorem put_mem_of_lastPut {k : κ} {v : ν} {uses : List (LruUse κ ν)}
    (h : lastPut k uses = some v) : .put k v ∈ uses := by
  induction uses with
  | nil => cases h
  | cons use uses ih =>
    cases use with
    | hit key value => exact List.mem_cons_of_mem _ (ih h)
    | put key value =>
      rw [lastPut, Option.or_eq_some_iff] at h
      rcases h with h | ⟨-, h⟩
      · exact List.mem_cons_of_mem _ (ih h)
      · rw [Option.ite_none_right_eq_some] at h
        obtain ⟨rfl, h⟩ := h
        rw [Option.some.inj h]
        exact List.mem_cons_self

/-- **The map holds the values last stored.** -/
theorem Follows.find?_eq {uses : List (LruUse κ ν)} {m : LruMap κ ν capacity} (h : Follows uses m) :
    ∀ {k : κ} {v : ν}, m.find? k = some v → lastPut k uses = some v := by
  induction h with
  | empty => exact nofun
  | hit _ hfound ih =>
    intro k v hv
    rw [lastPut_hit]
    rcases find?_use hv with ⟨rfl, rfl⟩ | ⟨-, hv⟩
    · exact ih hfound
    · exact ih hv
  | put key value _ ih =>
    intro k v hv
    rw [lastPut_put]
    rcases find?_use hv with ⟨rfl, rfl⟩ | ⟨hne, hv⟩
    · rw [if_pos rfl]
    · rw [if_neg (Ne.symm hne), ih hv]

end LruMap

end FacLpr
