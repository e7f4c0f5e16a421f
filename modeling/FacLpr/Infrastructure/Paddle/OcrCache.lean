import FacLpr.Foundations.LruMap
import FacLpr.Foundations.Text
import Mathlib.Data.List.AList

/-!
# Infrastructure/Paddle/OcrCache — a map beside a recency list

The cache is a map from keys to entries and a list of keys in the order of their last uses, and an
entry holds the iterator of its key in the list.  A list iterator is the identity of its node, which
moves with the node.

As long as the two are in step (`WellFormed`), the cache is a map that keeps what was used last
(`Refines`): a hit and a store are each a use.
-/

namespace FacLpr

structure CacheEntry (ν : Type) where
  evidence : ν
  lruIterator : ℕ

/-- `lru_` and `cache_`; `nextNode` is the identity of the next node allocated, and `log` is not a
member: it records the hits and the stores. -/
structure OcrCache (ν : Type) where
  lru : List (ℕ × Text)
  cache : AList fun _ : Text => CacheEntry ν
  nextNode : ℕ
  log : List (LruUse Text ν)

namespace OcrCache

variable {ν : Type}

def empty : OcrCache ν := ⟨[], ∅, 0, []⟩

/-- `lru_.splice(lru_.begin(), lru_, iterator)`. -/
def splice (lru : List (ℕ × Text)) (iterator : ℕ) : List (ℕ × Text) :=
  (lru.filter fun node => node.1 == iterator) ++ lru.filter fun node => node.1 != iterator

/-- `try_get_cached`. -/
def tryGetCached (capacity : ℕ) (c : OcrCache ν) (key : Text) : Option ν × OcrCache ν :=
  if capacity = 0 then (none, c)
  else
    match c.cache.lookup key with
    | none => (none, c)
    | some entry =>
        (some entry.evidence,
          { c with
            lru := splice c.lru entry.lruIterator
            log := c.log ++ [.hit key entry.evidence] })

/-- The eviction loop, for as many rounds as there are nodes. -/
def evict (capacity : ℕ) : ℕ → OcrCache ν → OcrCache ν
  | 0, c => c
  | rounds + 1, c =>
      if capacity < c.cache.keys.length then
        match c.lru.getLast? with
        | none => c
        | some expired =>
            evict capacity rounds
              { c with cache := c.cache.erase expired.2, lru := c.lru.dropLast }
      else c

/-- `store_cached`. -/
def storeCached (capacity : ℕ) (c : OcrCache ν) (key : Text) (evidence : ν) : OcrCache ν :=
  if capacity = 0 then c
  else
    match c.cache.lookup key with
    | some entry =>
        { c with
          lru := splice c.lru entry.lruIterator
          cache := c.cache.insert key { entry with evidence := evidence }
          log := c.log ++ [.put key evidence] }
    | none =>
        evict capacity (c.lru.length + 1)
          { lru := (c.nextNode, key) :: c.lru
            cache := c.cache.insert key ⟨evidence, c.nextNode⟩
            nextNode := c.nextNode + 1
            log := c.log ++ [.put key evidence] }

/-- The keys of the recency list. -/
def lruKeys (c : OcrCache ν) : List Text := c.lru.map Prod.snd

/-- The list and the map are in step. -/
structure InStep (c : OcrCache ν) : Prop where
  nodes : (c.lru.map Prod.fst).Nodup
  keys : c.lruKeys.Nodup
  sameKeys : ∀ key, key ∈ c.lruKeys ↔ key ∈ c.cache
  iterator : ∀ {key entry}, c.cache.lookup key = some entry → (entry.lruIterator, key) ∈ c.lru
  fresh : ∀ node ∈ c.lru, node.1 < c.nextNode

/-- What a map holds under the keys of a list. -/
def viewOf (cache : AList fun _ : Text => CacheEntry ν) (lru : List (ℕ × Text)) :
    List (Text × ν) :=
  lru.filterMap fun node => (cache.lookup node.2).map fun entry => (node.2, entry.evidence)

/-- What the cache holds, the most recently used first. -/
def view (c : OcrCache ν) : List (Text × ν) := viewOf c.cache c.lru

theorem inStep_empty : InStep (empty : OcrCache ν) :=
  ⟨List.nodup_nil, List.nodup_nil, fun key => by simp [lruKeys, empty], nofun, nofun⟩

/-- The keys are as many in the list as in the map. -/
theorem InStep.perm_keys {c : OcrCache ν} (h : c.InStep) : c.lruKeys.Perm c.cache.keys :=
  (List.perm_ext_iff_of_nodup h.keys c.cache.nodupKeys).mpr fun key =>
    (h.sameKeys key).trans AList.mem_keys.symm

/-! ## Moving a node -/

theorem perm_splice (lru : List (ℕ × Text)) (iterator : ℕ) : (splice lru iterator).Perm lru := by
  have h := List.filter_append_perm (fun node : ℕ × Text => node.1 == iterator) lru
  simpa only [splice, bne, decide_not, Bool.decide_eq_true] using h

/-- Moving nodes keeps the list and the map in step. -/
theorem InStep.of_perm {c : OcrCache ν} (h : c.InStep) {lru : List (ℕ × Text)}
    (hperm : lru.Perm c.lru) (log : List (LruUse Text ν)) :
    InStep { c with lru := lru, log := log } where
  nodes := (hperm.map Prod.fst).nodup_iff.mpr h.nodes
  keys := (hperm.map Prod.snd).nodup_iff.mpr h.keys
  sameKeys key := ((hperm.map Prod.snd).mem_iff).trans (h.sameKeys key)
  iterator hlookup := hperm.mem_iff.mpr (h.iterator hlookup)
  fresh node hnode := h.fresh node (hperm.mem_iff.mp hnode)

/-- **The iterator of an entry is that of its own key**, which `splice` brings to the front. -/
theorem InStep.splice_eq {c : OcrCache ν} (h : c.InStep) {key : Text} {entry : CacheEntry ν}
    (hlookup : c.cache.lookup key = some entry) :
    splice c.lru entry.lruIterator =
      (entry.lruIterator, key) :: c.lru.filter fun node => node.2 != key := by
  have hmem := h.iterator hlookup
  have hnode : ∀ node ∈ c.lru, node.1 = entry.lruIterator ↔ node = (entry.lruIterator, key) :=
    fun node hnode => ⟨fun heq => List.inj_on_of_nodup_map h.nodes hnode hmem heq,
      fun heq => by rw [heq]⟩
  have hkey : ∀ node ∈ c.lru, node.2 = key ↔ node = (entry.lruIterator, key) :=
    fun node hnode => ⟨fun heq => List.inj_on_of_nodup_map h.keys hnode hmem heq,
      fun heq => by rw [heq]⟩
  have hfront : (c.lru.filter fun node => node.1 == entry.lruIterator) =
      [(entry.lruIterator, key)] := by
    rw [List.filter_congr (q := fun node => node == (entry.lruIterator, key)) fun node hmem' => by
      rw [Bool.eq_iff_iff, beq_iff_eq, beq_iff_eq, hnode node hmem']]
    rw [List.filter_beq, List.count_eq_one_of_mem h.nodes.of_map hmem, List.replicate_one]
  have hrest : (c.lru.filter fun node => node.1 != entry.lruIterator) =
      c.lru.filter fun node => node.2 != key := by
    refine List.filter_congr fun node hmem' => ?_
    rw [Bool.eq_iff_iff, bne_iff_ne, bne_iff_ne, ne_eq, ne_eq, hnode node hmem', hkey node hmem']
  rw [splice, hfront, hrest, List.singleton_append]

/-! ## What the cache holds -/

theorem viewOf_cons {cache : AList fun _ : Text => CacheEntry ν} {node : ℕ × Text}
    {lru : List (ℕ × Text)} {entry : CacheEntry ν} (h : cache.lookup node.2 = some entry) :
    viewOf cache (node :: lru) = (node.2, entry.evidence) :: viewOf cache lru := by
  rw [viewOf, List.filterMap_cons, h]
  rfl

/-- Maps that say the same of the keys of a list show the same. -/
theorem viewOf_congr {cache cache' : AList fun _ : Text => CacheEntry ν} {lru : List (ℕ × Text)}
    (h : ∀ node ∈ lru, cache'.lookup node.2 = cache.lookup node.2) :
    viewOf cache' lru = viewOf cache lru :=
  List.filterMap_congr fun node hnode => by rw [h node hnode]

theorem viewOf_filter (cache : AList fun _ : Text => CacheEntry ν) (lru : List (ℕ × Text))
    (key : Text) :
    viewOf cache (lru.filter fun node => node.2 != key) = others key (viewOf cache lru) := by
  induction lru with
  | nil => rfl
  | cons node lru ih =>
    cases hlookup : cache.lookup node.2 with
    | none =>
      have hskip : viewOf cache (node :: lru) = viewOf cache lru := by
        rw [viewOf, List.filterMap_cons, hlookup]
        rfl
      rw [hskip, ← ih, List.filter_cons]
      split
      · rw [viewOf, List.filterMap_cons, hlookup]
        rfl
      · rfl
    | some entry =>
      rw [viewOf_cons hlookup]
      by_cases hkey : node.2 = key
      · rw [List.filter_cons_of_neg (by simpa using hkey), ih, others, others,
          List.filter_cons_of_neg (by simpa using hkey)]
      · rw [List.filter_cons_of_pos (by simpa using hkey), viewOf_cons hlookup, ih, others, others,
          List.filter_cons_of_pos (by simpa using hkey)]

/-- Every node has its entry. -/
theorem InStep.exists_entry {c : OcrCache ν} (h : c.InStep) {node : ℕ × Text}
    (hnode : node ∈ c.lru) : ∃ entry, c.cache.lookup node.2 = some entry :=
  Option.isSome_iff_exists.mp
    (AList.lookup_isSome.mpr ((h.sameKeys node.2).mp (List.mem_map_of_mem hnode)))

theorem length_viewOf {cache : AList fun _ : Text => CacheEntry ν} {lru : List (ℕ × Text)}
    (h : ∀ node ∈ lru, ∃ entry, cache.lookup node.2 = some entry) :
    (viewOf cache lru).length = lru.length := by
  induction lru with
  | nil => rfl
  | cons node lru ih =>
    obtain ⟨entry, hentry⟩ := h node List.mem_cons_self
    rw [viewOf_cons hentry, List.length_cons, List.length_cons,
      ih fun node hnode => h node (List.mem_cons_of_mem _ hnode)]

/-- **What is shown is what is looked up.** -/
theorem InStep.mem_view {c : OcrCache ν} (h : c.InStep) {key : Text} {evidence : ν} :
    (key, evidence) ∈ c.view ↔ ∃ entry, c.cache.lookup key = some entry ∧
      entry.evidence = evidence := by
  simp only [view, viewOf, List.mem_filterMap, Option.map_eq_some_iff, Prod.mk.injEq]
  constructor
  · rintro ⟨node, -, entry, hentry, rfl, rfl⟩
    exact ⟨entry, hentry, rfl⟩
  · rintro ⟨entry, hentry, rfl⟩
    exact ⟨_, h.iterator hentry, entry, hentry, rfl, rfl⟩

/-! ## The operations -/

/-- **A hit brings its entry to the front.** -/
theorem InStep.view_splice {c : OcrCache ν} (h : c.InStep) {key : Text} {entry : CacheEntry ν}
    (hlookup : c.cache.lookup key = some entry) :
    viewOf c.cache (splice c.lru entry.lruIterator) =
      (key, entry.evidence) :: others key c.view := by
  rw [h.splice_eq hlookup, viewOf_cons hlookup, viewOf_filter, view]

/-- A new value in the place of another. -/
theorem InStep.update {c : OcrCache ν} (h : c.InStep) {key : Text} {entry : CacheEntry ν}
    (hlookup : c.cache.lookup key = some entry) (evidence : ν) :
    InStep { c with cache := c.cache.insert key { entry with evidence := evidence } } where
  nodes := h.nodes
  keys := h.keys
  sameKeys k := by
    rw [AList.mem_insert]
    refine ⟨fun hk => Or.inr ((h.sameKeys k).mp hk), fun hk => (h.sameKeys k).mpr ?_⟩
    rcases hk with rfl | hk
    · exact AList.lookup_isSome.mp (hlookup ▸ rfl)
    · exact hk
  iterator := by
    intro k e he
    by_cases hk : k = key
    · subst hk
      rw [AList.lookup_insert] at he
      obtain rfl := Option.some.inj he
      have hnode := h.iterator hlookup
      exact hnode
    · rw [AList.lookup_insert_ne hk] at he
      exact h.iterator he
  fresh := h.fresh

/-- A key the map lacks, at the front of the list. -/
theorem InStep.push {c : OcrCache ν} (h : c.InStep) {key : Text}
    (hlookup : c.cache.lookup key = none) (evidence : ν) (log : List (LruUse Text ν)) :
    InStep { lru := (c.nextNode, key) :: c.lru
             cache := c.cache.insert key ⟨evidence, c.nextNode⟩
             nextNode := c.nextNode + 1
             log := log } where
  nodes := by
    refine List.nodup_cons.mpr ⟨fun hmem => ?_, h.nodes⟩
    obtain ⟨node, hnode, heq⟩ := List.mem_map.mp hmem
    exact absurd heq (Nat.ne_of_lt (h.fresh node hnode))
  keys := List.nodup_cons.mpr
    ⟨fun hmem => AList.lookup_eq_none.mp hlookup ((h.sameKeys key).mp hmem), h.keys⟩
  sameKeys k := by
    rw [AList.mem_insert, ← h.sameKeys k]
    exact List.mem_cons
  iterator := by
    intro k e he
    by_cases hk : k = key
    · subst hk
      rw [AList.lookup_insert] at he
      obtain rfl := Option.some.inj he
      exact List.mem_cons_self
    · rw [AList.lookup_insert_ne hk] at he
      exact List.mem_cons_of_mem _ (h.iterator he)
  fresh node hnode := by
    rcases List.mem_cons.mp hnode with rfl | hnode
    · exact Nat.lt_succ_self _
    · exact Nat.lt_succ_of_lt (h.fresh node hnode)

/-- A stored value shows at the front. -/
theorem view_insert (c : OcrCache ν) (key : Text) (entry : CacheEntry ν)
    (lru : List (ℕ × Text)) (id : ℕ)
    (hlru : lru = (id, key) :: c.lru.filter fun node => node.2 != key) :
    viewOf (c.cache.insert key entry) lru = (key, entry.evidence) :: others key c.view := by
  have hfront : (c.cache.insert key entry).lookup (id, key).2 = some entry := AList.lookup_insert _
  rw [hlru, viewOf_cons hfront, view, ← viewOf_filter]
  refine congrArg _ (viewOf_congr fun node hnode => AList.lookup_insert_ne ?_)
  simpa using (List.mem_filter.mp hnode).2

/-- The last node goes, and its entry with it. -/
theorem InStep.dropLast {c : OcrCache ν} (h : c.InStep) {kept : List (ℕ × Text)}
    {expired : ℕ × Text} (hlru : c.lru = kept ++ [expired]) :
    InStep { c with cache := c.cache.erase expired.2, lru := kept } ∧
      ∃ entry, c.view = viewOf (c.cache.erase expired.2) kept ++ [entry] := by
  have hsub : kept.Sublist c.lru := hlru ▸ List.sublist_append_left _ _
  have hne : ∀ node ∈ kept, node.2 ≠ expired.2 := by
    have hkeys := h.keys
    rw [lruKeys, hlru, List.map_append, List.nodup_append] at hkeys
    exact fun node hnode => hkeys.2.2 _ (List.mem_map_of_mem hnode) _ (List.mem_singleton_self _)
  have hmem : ∀ node, node ∈ c.lru ↔ node ∈ kept ∨ node = expired := by
    intro node
    rw [hlru, List.mem_append, List.mem_singleton]
  constructor
  · constructor
    case nodes => exact h.nodes.sublist (hsub.map _)
    case keys => exact h.keys.sublist (hsub.map _)
    case sameKeys =>
      intro key
      rw [AList.mem_erase, ← h.sameKeys key]
      simp only [lruKeys, List.mem_map, hmem]
      constructor
      · rintro ⟨node, hnode, rfl⟩
        exact ⟨hne node hnode, node, Or.inl hnode, rfl⟩
      · rintro ⟨hkey, node, hnode | rfl, rfl⟩
        · exact ⟨node, hnode, rfl⟩
        · exact absurd rfl hkey
    case iterator =>
      intro key entry hentry
      have hkey : key ≠ expired.2 := by
        rintro rfl
        rw [AList.lookup_erase] at hentry
        cases hentry
      rw [AList.lookup_erase_ne hkey] at hentry
      rcases (hmem _).mp (h.iterator hentry) with hnode | hnode
      · exact hnode
      · exact absurd (congrArg Prod.snd hnode) hkey
    case fresh => exact fun node hnode => h.fresh node (hsub.subset hnode)
  · obtain ⟨entry, hentry⟩ := h.exists_entry ((hmem expired).mpr (Or.inr rfl))
    refine ⟨(expired.2, entry.evidence), ?_⟩
    have hkept : viewOf (c.cache.erase expired.2) kept = viewOf c.cache kept :=
      viewOf_congr fun node hnode => AList.lookup_erase_ne (hne node hnode)
    have hlast : viewOf c.cache [expired] = [(expired.2, entry.evidence)] := viewOf_cons hentry
    rw [hkept, ← hlast, view, hlru]
    exact List.filterMap_append

/-- **The eviction loop keeps the first nodes**, and the map in step with them. -/
theorem evict_spec {capacity : ℕ} : ∀ {rounds : ℕ} {c : OcrCache ν}, c.InStep →
    c.lru.length ≤ capacity + rounds →
      (evict capacity rounds c).InStep ∧ (evict capacity rounds c).lru.length ≤ capacity ∧
        (evict capacity rounds c).view = c.view.take capacity ∧
        (evict capacity rounds c).log = c.log
  | 0, c, h, hlen => by
      have hview : c.view.length ≤ capacity := by
        rw [view, length_viewOf fun node hnode => h.exists_entry hnode]
        omega
      exact ⟨h, by simpa [evict] using hlen, (List.take_of_length_le hview).symm, rfl⟩
  | rounds + 1, c, h, hlen => by
      have hsize : c.cache.keys.length = c.lru.length := by
        rw [← h.perm_keys.length_eq, lruKeys, List.length_map]
      have hview : c.view.length = c.lru.length :=
        length_viewOf fun node hnode => h.exists_entry hnode
      rw [evict]
      split
      · rename_i hfull
        rcases List.eq_nil_or_concat c.lru with hnil | ⟨kept, expired, hlru⟩
        · rw [hsize, hnil] at hfull
          exact absurd hfull (Nat.not_lt_zero _)
        rw [List.concat_eq_append] at hlru
        obtain ⟨hkept, entry, hshown⟩ := h.dropLast hlru
        have hlength : c.lru.length = kept.length + 1 := by rw [hlru]; simp
        have hlast : c.lru.getLast? = some expired := by rw [hlru, List.getLast?_concat]
        have hdrop : c.lru.dropLast = kept := by rw [hlru, List.dropLast_concat]
        have hshort : kept.length ≤ capacity + rounds := by omega
        obtain ⟨hstep, hbound, hrest, hlog⟩ := evict_spec hkept hshort
        simp only [hlast, hdrop]
        refine ⟨hstep, hbound, ?_, hlog⟩
        have hlong : capacity ≤ (viewOf (c.cache.erase expired.2) kept).length := by
          rw [hshown, List.length_append, List.length_singleton] at hview
          omega
        rw [hrest, hshown, List.take_append_of_le_length hlong]
        rfl
      · rename_i hfits
        refine ⟨h, by omega, (List.take_of_length_le (by omega)).symm, rfl⟩

/-! ## The refinement -/

/-- The list and the map are in step, and within the capacity. -/
structure WellFormed (capacity : ℕ) (c : OcrCache ν) : Prop extends InStep c where
  bounded : c.lru.length ≤ capacity

/-- **The cache is a map that keeps what was used last**, its uses the hits and the stores. -/
structure Refines {capacity : ℕ} (c : OcrCache ν) (m : LruMap Text ν capacity) : Prop where
  wellFormed : WellFormed capacity c
  view_eq : c.view = m.entries
  follows : m.Follows c.log

variable {capacity : ℕ}

theorem refines_empty : Refines (empty : OcrCache ν) (LruMap.empty : LruMap Text ν capacity) :=
  ⟨⟨inStep_empty, Nat.zero_le _⟩, rfl, .empty⟩

/-- The two list the same keys. -/
theorem Refines.lruKeys_eq {c : OcrCache ν} {m : LruMap Text ν capacity} (h : c.Refines m) :
    c.lruKeys = m.keys := by
  have hkeys : ∀ lru : List (ℕ × Text),
      (∀ node ∈ lru, ∃ entry, c.cache.lookup node.2 = some entry) →
      (viewOf c.cache lru).map Prod.fst = lru.map Prod.snd := by
    intro lru hlru
    induction lru with
    | nil => rfl
    | cons node lru ih =>
      obtain ⟨entry, hentry⟩ := hlru node List.mem_cons_self
      rw [viewOf_cons hentry, List.map_cons, List.map_cons,
        ih fun node hnode => hlru node (List.mem_cons_of_mem _ hnode)]
  rw [LruMap.keys, ← h.view_eq, view, hkeys _ fun node hnode => h.wellFormed.exists_entry hnode,
    lruKeys]

/-- The two find the same. -/
theorem Refines.find?_eq {c : OcrCache ν} {m : LruMap Text ν capacity} (h : c.Refines m)
    (key : Text) : m.find? key = (c.cache.lookup key).map CacheEntry.evidence := by
  refine Option.ext fun evidence => ?_
  rw [LruMap.find?_eq_some_iff, ← h.view_eq, h.wellFormed.mem_view, Option.map_eq_some_iff]

/-- What is used shows at the front, when there is room for it. -/
theorem Refines.entries_use_of_lookup {c : OcrCache ν} {m : LruMap Text ν capacity}
    (h : c.Refines m)
    {key : Text} {entry : CacheEntry ν} (hlookup : c.cache.lookup key = some entry)
    (evidence : ν) : (m.use key evidence).entries = (key, evidence) :: others key c.view := by
  have hinStep := h.wellFormed.toInStep
  have hlength : c.view.length = c.lru.length :=
    length_viewOf fun node hnode => hinStep.exists_entry hnode
  have hshown : (key, entry.evidence) ∈ c.view := hinStep.mem_view.mpr ⟨entry, hlookup, rfl⟩
  have hfewer : (others key c.view).length < c.view.length :=
    List.length_filter_lt_length_iff_exists.mpr ⟨_, hshown, by simp⟩
  have hbounded := h.wellFormed.bounded
  rw [LruMap.entries_use, ← h.view_eq]
  exact List.take_of_length_le (by rw [List.length_cons]; omega)

/-- **`try_get_cached` is a use of what is found**, and nothing otherwise. -/
theorem Refines.tryGetCached {c : OcrCache ν} {m : LruMap Text ν capacity} (h : c.Refines m)
    (hcapacity : capacity ≠ 0) (key : Text) :
    (m.find? key = none ∧ c.tryGetCached capacity key = (none, c)) ∨
    ∃ evidence c', m.find? key = some evidence ∧
      c.tryGetCached capacity key = (some evidence, c') ∧
      c'.log = c.log ++ [.hit key evidence] ∧ c'.Refines (m.use key evidence) := by
  rw [h.find?_eq, OcrCache.tryGetCached, if_neg hcapacity]
  cases hlookup : c.cache.lookup key with
  | none => exact Or.inl ⟨rfl, rfl⟩
  | some entry =>
    refine Or.inr ⟨entry.evidence, _, rfl, rfl, rfl, ?_⟩
    have hinStep := h.wellFormed.toInStep
    have hperm := perm_splice c.lru entry.lruIterator
    constructor
    case wellFormed => exact ⟨hinStep.of_perm hperm _, hperm.length_eq ▸ h.wellFormed.bounded⟩
    case view_eq =>
      exact (hinStep.view_splice hlookup).trans (h.entries_use_of_lookup hlookup _).symm
    case follows => exact h.follows.hit (by rw [h.find?_eq, hlookup]; rfl)

/-- **`store_cached` is a use.** -/
theorem Refines.storeCached {c : OcrCache ν} {m : LruMap Text ν capacity} (h : c.Refines m)
    (hcapacity : capacity ≠ 0) (key : Text) (evidence : ν) :
    (c.storeCached capacity key evidence).Refines (m.use key evidence) ∧
      (c.storeCached capacity key evidence).log = c.log ++ [.put key evidence] := by
  rw [OcrCache.storeCached, if_neg hcapacity]
  have hinStep := h.wellFormed.toInStep
  cases hlookup : c.cache.lookup key with
  | some entry =>
    refine ⟨?_, rfl⟩
    have hperm := perm_splice c.lru entry.lruIterator
    constructor
    case wellFormed =>
      exact ⟨(hinStep.update hlookup evidence).of_perm hperm _,
        hperm.length_eq ▸ h.wellFormed.bounded⟩
    case view_eq =>
      exact (view_insert c key _ _ _ (hinStep.splice_eq hlookup)).trans
        (h.entries_use_of_lookup hlookup evidence).symm
    case follows => exact h.follows.put key evidence
  | none =>
    have hpush := hinStep.push hlookup evidence (c.log ++ [.put key evidence])
    obtain ⟨hkept, hbound, hview, hlog⟩ := evict_spec hpush
      (show ((c.nextNode, key) :: c.lru).length ≤ capacity + (c.lru.length + 1) by simp)
    refine ⟨⟨⟨hkept, hbound⟩, ?_, ?_⟩, hlog⟩
    · have hnew : c.lru.filter (fun node => node.2 != key) = c.lru := by
        refine List.filter_eq_self.mpr fun node hnode => bne_iff_ne.mpr ?_
        rintro rfl
        obtain ⟨entry, hentry⟩ := hinStep.exists_entry hnode
        exact absurd (hlookup.symm.trans hentry) nofun
      refine hview.trans ?_
      rw [LruMap.entries_use, ← h.view_eq]
      exact congrArg _ (view_insert c key _ _ _ (by rw [hnew]))
    · rw [hlog]
      exact h.follows.put key evidence

/-- What is not found is not stored. -/
theorem Refines.notMem_of_miss {c : OcrCache ν} {m : LruMap Text ν capacity} (h : c.Refines m)
    {key : Text} (hmiss : c.tryGetCached capacity key = (none, c)) : key ∉ c.cache := by
  intro hmem
  by_cases hcapacity : capacity = 0
  · obtain ⟨node, hnode, -⟩ := List.mem_map.mp ((h.wellFormed.sameKeys key).mpr hmem)
    have hbounded := h.wellFormed.bounded
    rw [hcapacity, Nat.le_zero, List.length_eq_zero_iff] at hbounded
    rw [hbounded] at hnode
    exact absurd hnode List.not_mem_nil
  · rcases h.tryGetCached hcapacity key with ⟨hnone, -⟩ | ⟨e, c', -, hsome, -⟩
    · rw [h.find?_eq, Option.map_eq_none_iff] at hnone
      exact AList.lookup_eq_none.mp hnone hmem
    · exact nomatch (Prod.mk.inj (hmiss.symm.trans hsome)).1

/-- **A store after a miss** puts a new key at the front, and the key used longest ago goes when
there are too many. -/
theorem Refines.storeCached_of_miss {c : OcrCache ν} {m : LruMap Text ν capacity} (h : c.Refines m)
    {key : Text} (hmiss : c.tryGetCached capacity key = (none, c)) (evidence : ν) :
    capacity = 0 ∧ c.storeCached capacity key evidence = c ∨
      (c.storeCached capacity key evidence).log = c.log ++ [.put key evidence] ∧
        (c.storeCached capacity key evidence).lruKeys = (key :: c.lruKeys).take capacity := by
  by_cases hcapacity : capacity = 0
  · exact Or.inl ⟨hcapacity, by rw [OcrCache.storeCached, if_pos hcapacity]⟩
  · have hnew := h.notMem_of_miss hmiss
    obtain ⟨hstored, hlog⟩ := h.storeCached hcapacity key evidence
    refine Or.inr ⟨hlog, ?_⟩
    rw [hstored.lruKeys_eq, LruMap.keys_use_of_notMem, h.lruKeys_eq]
    rw [← h.lruKeys_eq]
    exact fun hmem => hnew ((h.wellFormed.sameKeys key).mp hmem)

/-- A miss changes nothing. -/
theorem eq_of_tryGetCached_none {c next : OcrCache ν} {key : Text}
    (h : c.tryGetCached capacity key = (none, next)) : next = c := by
  rw [OcrCache.tryGetCached] at h
  split at h
  · exact (Prod.mk.inj h).2.symm
  · split at h
    · exact (Prod.mk.inj h).2.symm
    · exact nomatch (Prod.mk.inj h).1

/-- Without room there is no cache. -/
theorem tryGetCached_zero (c : OcrCache ν) (key : Text) : c.tryGetCached 0 key = (none, c) := rfl

theorem storeCached_zero (c : OcrCache ν) (key : Text) (evidence : ν) :
    c.storeCached 0 key evidence = c := rfl

end OcrCache

end FacLpr
