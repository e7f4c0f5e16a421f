import FacLpr.Foundations.DisjointSet
import Mathlib.Data.Fintype.Card
import Mathlib.Data.List.OfFn

/-!
# Application/DisjointSetVectors — the disjoint set of the fusion, as the vectors it keeps

The class keeps a vector of parents and one of ranks, and `find` recurses along the parents with
nothing in it that ends the recursion.  Whatever was done to the vectors before, they are those of a
`DisjointSet` (`exists_run`): the ranks grow along the parents, so `find` returns before it has
recursed once for each element.
-/

namespace FacLpr

/-- The members of the class `DisjointSet`. -/
structure DisjointSetVectors where
  parent : List ℕ
  rank : List ℕ

/-- A call of a member function, on elements there are. -/
inductive DisjointSetOp (n : ℕ) where
  | find (value : Fin n)
  | unite (lhs rhs : Fin n)

namespace DisjointSetVectors

/-- The constructor. -/
def make (size : ℕ) : DisjointSetVectors := ⟨List.range size, List.replicate size 0⟩

/-- `find`, in at most `depth` calls of itself; it does not return when it needs more, or when it
reads outside the vectors. -/
def find : ℕ → DisjointSetVectors → ℕ → Option (DisjointSetVectors × ℕ)
  | 0, _, _ => none
  | depth + 1, s, value => do
      let parent ← s.parent[value]?
      if parent ≠ value then
        let found ← find depth s parent
        return ({ found.1 with parent := found.1.parent.set value found.2 }, found.2)
      else return (s, parent)

/-- `unite`. -/
def unite (depth : ℕ) (s : DisjointSetVectors) (lhs rhs : ℕ) : Option DisjointSetVectors := do
  let left ← find depth s lhs
  let right ← find depth left.1 rhs
  if left.2 = right.2 then return right.1
  else
    let leftRank ← right.1.rank[left.2]?
    let rightRank ← right.1.rank[right.2]?
    -- `std::swap`
    let upper := if leftRank < rightRank then right.2 else left.2
    let lower := if leftRank < rightRank then left.2 else right.2
    let upperRank ← right.1.rank[upper]?
    let lowerRank ← right.1.rank[lower]?
    return {
      parent := right.1.parent.set lower upper
      rank := if upperRank = lowerRank then right.1.rank.set upper (upperRank + 1)
        else right.1.rank }

def apply {n : ℕ} (s : DisjointSetVectors) : DisjointSetOp n → Option DisjointSetVectors
  | .find value => (find n s value).map Prod.fst
  | .unite lhs rhs => unite n s lhs rhs

/-- The structure a sequence of calls reaches, when all of them return. -/
def run {n : ℕ} (ops : List (DisjointSetOp n)) : Option DisjointSetVectors :=
  ops.foldlM apply (make n)

section

variable {s : DisjointSetVectors} {depth value : ℕ}

theorem find_of_isRoot (h : s.parent[value]? = some value) :
    find (depth + 1) s value = some (s, value) := by
  simp [find, h]

theorem find_of_not_isRoot {parent : ℕ} {found : DisjointSetVectors × ℕ}
    (h : s.parent[value]? = some parent) (hne : parent ≠ value)
    (hfound : find depth s parent = some found) : find (depth + 1) s value =
      some ({ found.1 with parent := found.1.parent.set value found.2 }, found.2) := by
  simp [find, h, hne, hfound]

variable {lhs rhs : ℕ} {left right : DisjointSetVectors × ℕ}

theorem unite_of_eq (hleft : find depth s lhs = some left)
    (hright : find depth left.1 rhs = some right) (h : left.2 = right.2) :
    unite depth s lhs rhs = some right.1 := by
  simp [unite, hleft, hright, h]

theorem unite_of_ne {leftRank rightRank upper lower upperRank lowerRank : ℕ}
    (hleft : find depth s lhs = some left) (hright : find depth left.1 rhs = some right)
    (h : left.2 ≠ right.2) (hleftRank : right.1.rank[left.2]? = some leftRank)
    (hrightRank : right.1.rank[right.2]? = some rightRank)
    (hupper : upper = if leftRank < rightRank then right.2 else left.2)
    (hlower : lower = if leftRank < rightRank then left.2 else right.2)
    (hupperRank : right.1.rank[upper]? = some upperRank)
    (hlowerRank : right.1.rank[lower]? = some lowerRank) :
    unite depth s lhs rhs = some {
      parent := right.1.parent.set lower upper
      rank := if upperRank = lowerRank then right.1.rank.set upper (upperRank + 1)
        else right.1.rank } := by
  subst hupper hlower
  simp only [unite, hleft, hright, h, hleftRank, hrightRank, hupperRank, hlowerRank, bind,
    Option.bind_some, if_false, pure]

end

/-! ## The vectors of a forest -/

variable {n : ℕ}

/-- These are the vectors of the forest. -/
structure Represents (v : DisjointSetVectors) (s : DisjointSet n) : Prop where
  parent : v.parent = List.ofFn fun i => (s.parent i : ℕ)
  rank : v.rank = List.ofFn s.rank

theorem represents_make (n : ℕ) : Represents (make n) (DisjointSet.make n) where
  parent := by
    refine List.ext_getElem (by simp [make]) fun i hi hi' => ?_
    simp [make, DisjointSet.make]
  rank := by
    refine List.ext_getElem (by simp [make]) fun i hi hi' => ?_
    simp [make, DisjointSet.make]

theorem set_ofFn {α : Type} (f : Fin n → α) (i : Fin n) (a : α) :
    (List.ofFn f).set i a = List.ofFn (Function.update f i a) := by
  refine List.ext_getElem (by simp) fun j hj hj' => ?_
  rw [List.getElem_set, List.getElem_ofFn, List.getElem_ofFn]
  by_cases hij : (i : ℕ) = j
  · rw [if_pos hij, Function.update_apply, if_pos (Fin.ext hij.symm)]
  · rw [if_neg hij, Function.update_apply, if_neg fun h => hij (congrArg Fin.val h).symm]

theorem set_ofFn_val (f : Fin n → Fin n) (i a : Fin n) :
    (List.ofFn fun j => (f j : ℕ)).set i a = List.ofFn fun j => (Function.update f i a j : ℕ) := by
  rw [set_ofFn]
  refine congrArg List.ofFn (funext fun j => ?_)
  rw [Function.update_apply, Function.update_apply]
  exact (apply_ite Fin.val _ _ _).symm

theorem Represents.getElem?_parent {v : DisjointSetVectors} {s : DisjointSet n}
    (h : Represents v s) (i : Fin n) : v.parent[(i : ℕ)]? = some (s.parent i : ℕ) := by
  rw [h.parent, List.getElem?_ofFn, dif_pos i.isLt]

theorem Represents.getElem?_rank {v : DisjointSetVectors} {s : DisjointSet n}
    (h : Represents v s) (i : Fin n) : v.rank[(i : ℕ)]? = some (s.rank i) := by
  rw [h.rank, List.getElem?_ofFn, dif_pos i.isLt]

/-! ## The recursion ends -/

/-- The elements `find` may still come to: they have a larger rank. -/
def above (s : DisjointSet n) (value : Fin n) : Finset (Fin n) :=
  Finset.univ.filter fun i => s.rank value < s.rank i

theorem card_above_parent_lt {s : DisjointSet n} {value : Fin n} (h : s.parent value ≠ value) :
    (above s (s.parent value)).card < (above s value).card := by
  have hlt := s.rank_lt value h
  have hsub : above s (s.parent value) ⊆ above s value := fun i hi => by
    simp only [above, Finset.mem_filter, Finset.mem_univ, true_and] at hi ⊢
    exact hlt.trans hi
  refine Finset.card_lt_card ((Finset.ssubset_iff_of_subset hsub).mpr ⟨s.parent value, ?_, ?_⟩)
  · simpa [above] using hlt
  · simp [above]

theorem card_above_lt (s : DisjointSet n) (value : Fin n) : (above s value).card < n := by
  have hsub : above s value ⊂ Finset.univ :=
    Finset.ssubset_univ_iff.mpr fun h => by
      have hself : value ∈ above s value := h ▸ Finset.mem_univ value
      simp [above] at hself
  simpa using Finset.card_lt_card hsub

/-- **`find` on the vectors of a forest** finds its root and leaves the vectors of what it
compressed. -/
theorem Represents.find {v : DisjointSetVectors} {s : DisjointSet n} (h : Represents v s)
    {depth : ℕ} {value : Fin n} (hdepth : (above s value).card < depth) :
    ∃ v', DisjointSetVectors.find depth v value = some (v', ((s.find value).root : ℕ)) ∧
      Represents v' (s.find value).set := by
  induction depth generalizing value with
  | zero => exact absurd hdepth (Nat.not_lt_zero _)
  | succ depth ih =>
    have hread := h.getElem?_parent value
    by_cases hroot : s.parent value = value
    · obtain ⟨hvalue, hset⟩ := DisjointSet.find_of_isRoot hroot
      rw [hroot] at hread
      rw [hvalue, hset]
      exact ⟨v, find_of_isRoot hread, h⟩
    · obtain ⟨hvalue, hparent⟩ := DisjointSet.find_of_not_isRoot hroot
      have hless := card_above_parent_lt hroot
      obtain ⟨v', hfound, hrepresents⟩ := @ih (s.parent value) (by omega)
      have hne : (s.parent value : ℕ) ≠ value := fun heq => hroot (Fin.ext heq)
      rw [hvalue]
      refine ⟨_, find_of_not_isRoot hread hne hfound, ?_, ?_⟩
      · rw [hparent, ← set_ofFn_val, ← hrepresents.parent]
      · rw [(s.find value).rank_eq, ← (s.find (s.parent value)).rank_eq]
        exact hrepresents.rank

/-- What the calls do to the forest. -/
def applyForest (s : DisjointSet n) : DisjointSetOp n → DisjointSet n
  | .find value => (s.find value).set
  | .unite lhs rhs => s.unite lhs rhs

/-- **`unite` on the vectors of a forest** unites its trees. -/
theorem Represents.unite {v : DisjointSetVectors} {s : DisjointSet n} (h : Represents v s)
    (lhs rhs : Fin n) : ∃ v', DisjointSetVectors.unite n v lhs rhs = some v' ∧
      Represents v' (s.unite lhs rhs) := by
  obtain ⟨v₁, hleft, h₁⟩ := h.find (card_above_lt s lhs)
  obtain ⟨v₂, hright, h₂⟩ := h₁.find (card_above_lt (s.find lhs).set rhs)
  rcases s.unite_cases lhs rhs with ⟨heq, hset⟩ | ⟨hne, hparent, hrank⟩
  · rw [hset]
    exact ⟨v₂, unite_of_eq hleft hright (congrArg Fin.val heq), h₂⟩
  · have hval : ((s.find lhs).root : ℕ) ≠ ((s.find lhs).set.find rhs).root :=
      fun heq => hne (Fin.ext heq)
    refine ⟨_, unite_of_ne hleft hright hval (h₂.getElem?_rank _) (h₂.getElem?_rank _)
      (apply_ite Fin.val _ _ _) (apply_ite Fin.val _ _ _) (h₂.getElem?_rank _)
      (h₂.getElem?_rank _), ?_, ?_⟩
    · rw [hparent, ← set_ofFn_val, ← h₂.parent]
    · rw [hrank, apply_ite List.ofFn, ← set_ofFn, ← h₂.rank]

/-- **Any call** returns, and keeps the vectors those of a forest. -/
theorem Represents.apply {v : DisjointSetVectors} {s : DisjointSet n} (h : Represents v s)
    (op : DisjointSetOp n) : ∃ v', DisjointSetVectors.apply v op = some v' ∧
      Represents v' (applyForest s op) := by
  cases op with
  | find value =>
    obtain ⟨v', hfind, hrepresents⟩ := h.find (card_above_lt s value)
    exact ⟨v', congrArg (Option.map Prod.fst) hfind, hrepresents⟩
  | unite lhs rhs => exact h.unite lhs rhs

/-- **Any sequence of calls** does. -/
theorem Represents.foldlM_apply {v : DisjointSetVectors} {s : DisjointSet n} (h : Represents v s)
    (ops : List (DisjointSetOp n)) : ∃ v', ops.foldlM DisjointSetVectors.apply v = some v' ∧
      Represents v' (ops.foldl applyForest s) := by
  induction ops generalizing v s with
  | nil => exact ⟨v, rfl, h⟩
  | cons op ops ih =>
    obtain ⟨v₁, hop, h₁⟩ := h.apply op
    obtain ⟨v', hrun, hrepresents⟩ := ih h₁
    exact ⟨v', by rw [List.foldlM_cons, hop]; exact hrun, hrepresents⟩

/-- **Every reachable structure** holds the vectors of a forest. -/
theorem exists_run (ops : List (DisjointSetOp n)) :
    ∃ v, run ops = some v ∧ Represents v (ops.foldl applyForest (DisjointSet.make n)) :=
  (represents_make n).foldlM_apply ops

/-! ## What the calls connect -/

/-- A call connects the pair it unites, and nothing else. -/
theorem joins_applyForest {s : DisjointSet n} {R : Fin n → Fin n → Prop} (h : s.Joins R)
    (op : DisjointSetOp n) : (applyForest s op).Joins fun i j => R i j ∨ .unite i j = op := by
  cases op with
  | find value =>
    intro i j
    simpa [applyForest] using h i j
  | unite lhs rhs => simpa [applyForest] using h.unite lhs rhs

theorem joins_foldl_applyForest {s : DisjointSet n} {R : Fin n → Fin n → Prop} (h : s.Joins R)
    (ops : List (DisjointSetOp n)) :
    (ops.foldl applyForest s).Joins fun i j => R i j ∨ DisjointSetOp.unite i j ∈ ops := by
  induction ops generalizing s R with
  | nil => simpa using h
  | cons op ops ih =>
    rw [List.foldl_cons]
    simpa only [List.mem_cons, or_assoc] using ih (joins_applyForest h op)

/-- **The roots tell apart what the pairs united do not connect.** -/
theorem joins_ops (ops : List (DisjointSetOp n)) :
    (ops.foldl applyForest (DisjointSet.make n)).Joins fun i j =>
      DisjointSetOp.unite i j ∈ ops := by
  simpa only [false_or] using joins_foldl_applyForest DisjointSet.joins_make ops

/-- **Two calls of `find` on a reachable structure** return, and return the same when the pairs
united connect the two elements. -/
theorem exists_find_find {ops : List (DisjointSetOp n)} {v : DisjointSetVectors}
    (h : Represents v (ops.foldl applyForest (DisjointSet.make n))) (i j : Fin n) :
    ∃ v₁ v₂ root root', find n v i = some (v₁, root) ∧ find n v₁ j = some (v₂, root') ∧
      (root = root' ↔ Relation.EqvGen (fun i j => DisjointSetOp.unite i j ∈ ops) i j) := by
  obtain ⟨v₁, hfirst, h₁⟩ := h.find (card_above_lt _ i)
  obtain ⟨v₂, hsecond, -⟩ := h₁.find (card_above_lt _ j)
  refine ⟨v₁, v₂, _, _, hfirst, hsecond, ?_⟩
  rw [← joins_ops ops i j, Fin.val_inj]
  exact Eq.congr_right (DisjointSet.root_find _ i j)

end DisjointSetVectors

end FacLpr
