import FacLpr.Foundations.WeightedPaths
import Mathlib.Algebra.BigOperators.Fin
import Mathlib.Data.Fin.Tuple.Basic
import Mathlib.Data.List.Destutter
import Mathlib.Data.List.Sections
import Mathlib.Data.Prod.Lex

/-!
# Foundations/CtcAlignments — what connectionist temporal classification sums

A class sequence is an **alignment** of the word it collapses to: drop the repeats, then the blanks
(`collapse`).  Every class that survives emits one of several weighted letters (`spellings`), and
the **mass** of a word is its total weight over all alignments and all choices of letters.

`step` is the transition system of a prefix search — its state is the word so far and the last
class — and `pairing_paths` says its weighted paths are the alignments, so `mass_eq_pairing` reads
the mass of a word off the states it ends in.  A step passes at most its weight on to a word and the
word with one more letter, unless a class is read as that letter more than once
(`pairing_keepsOrAppends_le`).
-/

namespace FacLpr

open Weighted

/-! ## Collapsing a class sequence -/

/-- Drop the repeats, then the blanks. -/
def collapse (blank : ℕ) (π : List ℕ) : List ℕ := (π.destutter (· ≠ ·)).filter (· ≠ blank)

/-- The class a sequence ends in, the blank for the empty one. -/
def lastClass (blank : ℕ) (π : List ℕ) : ℕ := π.getLastD blank

@[simp] theorem lastClass_concat (blank : ℕ) (π : List ℕ) (c : ℕ) :
    lastClass blank (π ++ [c]) = c := by
  rw [lastClass, List.getLastD_eq_getLast?, List.getLast?_concat, Option.getD_some]

/-- Destuttering keeps a new last class unless it repeats the one before. -/
theorem destutter'_concat (a : ℕ) (π : List ℕ) (c : ℕ) :
    (π ++ [c]).destutter' (· ≠ ·) a =
      π.destutter' (· ≠ ·) a ++ if c = π.getLastD a then [] else [c] := by
  induction π generalizing a with
  | nil => by_cases h : c = a <;> simp [List.destutter', h, Ne.symm]
  | cons b π ih =>
    by_cases hab : a = b
    · subst hab
      rw [List.cons_append, List.destutter'_cons_neg _ (by simp),
        List.destutter'_cons_neg _ (by simp), ih, List.getLastD_cons]
    · rw [List.cons_append, List.destutter'_cons_pos _ hab, List.destutter'_cons_pos _ hab, ih,
        List.getLastD_cons, List.cons_append]

/-- What a class adds to the collapsed sequence after the class `last`. -/
def kept (blank last c : ℕ) : List ℕ := if c = blank ∨ c = last then [] else [c]

/-- **A blank or a repeat collapses away, any other class is kept.** -/
theorem collapse_concat (blank : ℕ) (π : List ℕ) (c : ℕ) :
    collapse blank (π ++ [c]) = collapse blank π ++ kept blank (lastClass blank π) c := by
  have hd : (π ++ [c]).destutter (· ≠ ·) =
      π.destutter (· ≠ ·) ++ if π ≠ [] ∧ c = lastClass blank π then [] else [c] := by
    cases π with
    | nil => rfl
    | cons a π =>
      rw [List.cons_append, List.destutter_cons', List.destutter_cons', destutter'_concat,
        lastClass, List.getLastD_cons]
      simp
  rw [collapse, hd, List.filter_append, ← collapse, kept]
  congr 1
  by_cases hb : c = blank
  · rw [if_pos (Or.inl hb)]
    split <;> simp [hb]
  · by_cases hl : c = lastClass blank π
    · have hne : π ≠ [] := fun h => hb (by rw [hl, h]; rfl)
      rw [if_pos ⟨hne, hl⟩, if_pos (Or.inr hl)]
      rfl
    · rw [if_neg fun h => hl h.2, if_neg (by tauto)]
      simp [hb]

/-- A longer sequence collapses to a longer word. -/
theorem collapse_prefix (blank : ℕ) (π ρ : List ℕ) :
    collapse blank π <+: collapse blank (π ++ ρ) := by
  induction ρ using List.reverseRecOn with
  | nil => rw [List.append_nil]
  | append_singleton ρ c ih =>
    rw [← List.append_assoc, collapse_concat]
    exact ih.trans (List.prefix_append _ _)

/-- A sequence that does not end in a blank collapses to a word that ends as it does. -/
theorem exists_collapse_eq_concat {blank c : ℕ} (hc : c ≠ blank) {π : List ℕ}
    (h : lastClass blank π = c) : ∃ word, collapse blank π = word ++ [c] := by
  induction π using List.reverseRecOn with
  | nil => exact absurd h.symm hc
  | append_singleton π c' ih =>
    rw [lastClass_concat] at h
    subst h
    rw [collapse_concat, kept]
    split
    · rename_i hkept
      obtain ⟨word, hword⟩ := ih (hkept.resolve_left hc).symm
      exact ⟨word, by rw [hword, List.append_nil]⟩
    · exact ⟨_, rfl⟩

theorem collapse_append_replicate (blank : ℕ) (π : List ℕ) (n : ℕ) :
    collapse blank (π ++ List.replicate n blank) = collapse blank π := by
  induction n with
  | zero => rw [List.replicate_zero, List.append_nil]
  | succ n ih =>
    rw [List.replicate_succ', ← List.append_assoc, collapse_concat, ih, kept, if_pos (Or.inl rfl),
      List.append_nil]

/-- **A class repeated across blanks is kept twice.** -/
theorem exists_collapse_eq_repeat {blank c : ℕ} (hc : c ≠ blank) (π ρ : List ℕ) (n : ℕ) :
    ∃ before after, collapse blank (π ++ [c]) = before ++ [c] ∧
      collapse blank (π ++ [c] ++ List.replicate (n + 1) blank ++ [c] ++ ρ) =
        before ++ [c, c] ++ after := by
  obtain ⟨before, hbefore⟩ := exists_collapse_eq_concat hc (lastClass_concat blank π c)
  obtain ⟨after, hafter⟩ :=
    collapse_prefix blank (π ++ [c] ++ List.replicate (n + 1) blank ++ [c]) ρ
  have hlast : lastClass blank (π ++ [c] ++ List.replicate (n + 1) blank) = blank := by
    rw [List.replicate_succ', ← List.append_assoc, lastClass_concat]
  refine ⟨before, after, hbefore, ?_⟩
  rw [← hafter, collapse_concat, collapse_append_replicate, hbefore, hlast, kept,
    if_neg (by tauto), List.append_assoc before]
  rfl

/-! ## Spelling a collapsed sequence -/

/-- What a class sequence is read with: its blank, the number of classes, and the weighted letters
each class may emit. -/
structure CtcAlphabet (β W : Type*) where
  blank : ℕ
  classes : ℕ
  emissions : ℕ → List (β × W)

namespace CtcAlphabet

variable {β W : Type*} (A : CtcAlphabet β W)

/-- The classes of a sequence, as numbers. -/
def classList {T : ℕ} (π : Fin T → Fin A.classes) : List ℕ := List.ofFn fun t => (π t : ℕ)

theorem classList_snoc {T : ℕ} (π : Fin T → Fin A.classes) (c : Fin A.classes) :
    A.classList (Fin.snoc π c : Fin (T + 1) → Fin A.classes) = A.classList π ++ [(c : ℕ)] := by
  rw [classList, List.ofFn_succ', List.concat_eq_append]
  simp [classList]

variable [CommSemiring W]

/-- The words a collapsed sequence spells: one letter chosen for every class, weighted by the
product of the choices. -/
def spellings (cs : List ℕ) : List (List β × W) :=
  (cs.map A.emissions).sections.map fun choice => (choice.map Prod.fst, (choice.map Prod.snd).prod)

theorem pairing_spellings_nil (g : List β → W) : pairing (A.spellings []) g = g [] := by
  simp [spellings]

/-- One class spells its letters. -/
theorem spellings_singleton (c : ℕ) :
    A.spellings [c] = (A.emissions c).map fun e => ([e.1], e.2) := by
  simp [spellings, List.sections, Function.comp_def]

/-- The first class is spelled by one of its letters. -/
theorem pairing_spellings_cons (c : ℕ) (cs : List ℕ) (g : List β → W) :
    pairing (A.spellings (c :: cs)) g =
      pairing (A.spellings cs) fun word => pairing (A.emissions c) fun x => g (x :: word) := by
  have hmap : A.spellings (c :: cs) = (cs.map A.emissions).sections.flatMap fun choice =>
      (A.emissions c).map fun e =>
        (e.1 :: choice.map Prod.fst, (choice.map Prod.snd).prod * e.2) := by
    simp [spellings, List.sections, List.map_flatMap, Function.comp_def, mul_comm]
  have hinner : ∀ choice : List (β × W),
      (pairing ((A.emissions c).map fun e =>
        (e.1 :: choice.map Prod.fst, (choice.map Prod.snd).prod * e.2)) g) =
      (choice.map Prod.snd).prod *
        pairing (A.emissions c) fun x => g (x :: choice.map Prod.fst) := fun choice => by
    simp only [pairing, List.map_map, Function.comp_def, mul_assoc, List.sum_map_mul_left]
  rw [hmap, pairing_flatMap]
  simp only [hinner]
  simp only [spellings, pairing, List.map_map, Function.comp_def]

/-- **A concatenation is spelled part by part.** -/
theorem pairing_spellings_append (cs ds : List ℕ) (g : List β → W) :
    pairing (A.spellings (cs ++ ds)) g =
      pairing (A.spellings cs) fun word => pairing (A.spellings ds) fun x => g (word ++ x) := by
  induction cs generalizing g with
  | nil =>
    rw [List.nil_append, pairing_spellings_nil]
    rfl
  | cons c cs ih =>
    rw [List.cons_append, pairing_spellings_cons, ih, pairing_spellings_cons]
    refine congrArg _ (funext fun word => ?_)
    rw [pairing_comm]
    rfl

/-- A word is spelled when each of its letters is emitted by the class in its place. -/
theorem mem_keys_spellings {cs : List ℕ} {word : List β} :
    word ∈ keys (A.spellings cs) ↔ List.Forall₂ (fun x c => x ∈ keys (A.emissions c)) word cs := by
  induction cs generalizing word with
  | nil => simp [spellings, keys]
  | cons c cs ih =>
    have hkeys : ∀ cs, keys (A.spellings cs) =
        (cs.map A.emissions).sections.map (List.map Prod.fst) := fun cs => by
      simp [spellings, keys, Function.comp_def]
    rw [List.forall₂_cons_right_iff]
    rw [hkeys, List.map_cons, List.sections]
    simp only [List.map_flatMap, List.mem_flatMap, List.map_map, List.mem_map, Function.comp_apply,
      List.map_cons]
    constructor
    · rintro ⟨choice, hchoice, e, he, rfl⟩
      refine ⟨e.1, choice.map Prod.fst, List.mem_map_of_mem he, ih.mp ?_, rfl⟩
      rw [hkeys]
      exact List.mem_map_of_mem hchoice
    · rintro ⟨x, word, hx, hword, rfl⟩
      obtain ⟨e, he, rfl⟩ := List.mem_map.mp hx
      rw [← ih, hkeys] at hword
      obtain ⟨choice, hchoice, rfl⟩ := List.mem_map.mp hword
      exact ⟨choice, hchoice, e, he, rfl⟩

/-- Every letter of a spelled word is emitted by some class. -/
theorem exists_class_of_mem_keys_spellings {cs : List ℕ} {word : List β}
    (h : word ∈ keys (A.spellings cs)) {x : β} (hx : x ∈ word) :
    ∃ c ∈ cs, x ∈ keys (A.emissions c) := by
  rw [mem_keys_spellings] at h
  induction h with
  | nil => cases hx
  | @cons y c word cs hy _ ih =>
    rcases List.mem_cons.mp hx with rfl | hx
    · exact ⟨c, List.mem_cons_self, hy⟩
    · obtain ⟨c', hc', hmem⟩ := ih hx
      exact ⟨c', List.mem_cons_of_mem _ hc', hmem⟩

theorem mem_keys_spellings_append {cs ds : List ℕ} {word : List β} :
    word ∈ keys (A.spellings (cs ++ ds)) ↔
      ∃ w ∈ keys (A.spellings cs), ∃ x ∈ keys (A.spellings ds), word = w ++ x := by
  simp only [mem_keys_spellings]
  constructor
  · intro h
    exact ⟨_, List.forall₂_take_append _ _ _ h, _, List.forall₂_drop_append _ _ _ h,
      (List.take_append_drop _ _).symm⟩
  · rintro ⟨w, hw, x, hx, rfl⟩
    exact List.rel_append hw hx

/-! ## The prefix search -/

/-- One timestep from a word and its last class: a blank or a repeat leaves the word alone, any
other class spells one of its letters. -/
def step (w : ℕ → W) (state : List β ×ₗ ℕ) : List ((List β ×ₗ ℕ) × W) :=
  (List.range A.classes).flatMap fun c =>
    (A.spellings (kept A.blank (ofLex state).2 c)).map fun e =>
      (toLex ((ofLex state).1 ++ e.1, c), w c * e.2)

/-- The prefix search starts from the empty word after a blank. -/
def start : List β ×ₗ ℕ := toLex ([], A.blank)

variable (weight : ℕ → ℕ → W)

/-- The weight of a class sequence. -/
def sequenceWeight {T : ℕ} (π : Fin T → Fin A.classes) : W := ∏ t : Fin T, weight t (π t)

/-- **The mass of a word**: over all class sequences of length `T` and all choices of letters that
spell the word, the sum of the products of the weights. -/
def mass [DecidableEq β] (T : ℕ) (word : List β) : W :=
  ∑ π : Fin T → Fin A.classes,
    A.sequenceWeight weight π * coeff (A.spellings (collapse A.blank (A.classList π))) word

theorem sequenceWeight_snoc {T : ℕ} (π : Fin T → Fin A.classes) (c : Fin A.classes) :
    A.sequenceWeight weight (Fin.snoc π c : Fin (T + 1) → Fin A.classes) =
      A.sequenceWeight weight π * weight T c := by
  rw [sequenceWeight, Fin.prod_univ_castSucc]
  simp [sequenceWeight]

/-- One step is integrated class by class. -/
theorem pairing_step (w : ℕ → W) (state : List β ×ₗ ℕ) (g : List β ×ₗ ℕ → W) :
    pairing (A.step w state) g = ∑ c : Fin A.classes, w c *
      pairing (A.spellings (kept A.blank (ofLex state).2 c)) fun x =>
        g (toLex ((ofLex state).1 ++ x, (c : ℕ))) := by
  rw [step, pairing_flatMap, ← List.sum_toFinset _ List.nodup_range, List.toFinset_range,
    Finset.sum_range]
  simp only [pairing, List.map_map, Function.comp_def, mul_assoc, List.sum_map_mul_left]

/-- **The weighted paths of the prefix search are the alignments**, by the word they spell and the
class they end in. -/
theorem pairing_paths (T : ℕ) (g : List β ×ₗ ℕ → W) :
    pairing (paths A.start (fun t => A.step (weight t)) T) g =
      ∑ π : Fin T → Fin A.classes, A.sequenceWeight weight π *
        pairing (A.spellings (collapse A.blank (A.classList π))) fun word =>
          g (toLex (word, lastClass A.blank (A.classList π))) := by
  induction T generalizing g with
  | zero =>
    simp [paths, sequenceWeight, classList, collapse, pairing_spellings_nil, start, lastClass]
  | succ T ih =>
    rw [paths, pairing_bind, ih, ← (Fin.snocEquiv fun _ => Fin A.classes).sum_comp,
      Fintype.sum_prod_type_right]
    refine Finset.sum_congr rfl fun π _ => ?_
    simp only [pairing_step, ofLex_toLex, pairing_finset_sum, pairing_const_mul, Finset.mul_sum]
    refine Finset.sum_congr rfl fun c _ => ?_
    have happ : (Fin.snocEquiv fun _ => Fin A.classes) (c, π) = Fin.snoc π c := rfl
    rw [happ, classList_snoc, sequenceWeight_snoc, collapse_concat,
      lastClass_concat, pairing_spellings_append, mul_assoc]

/-- **The mass of a word is the weight of the paths that end in it.** -/
theorem mass_eq_pairing [DecidableEq β] (T : ℕ) (word : List β) :
    A.mass weight T word = pairing (paths A.start (fun t => A.step (weight t)) T)
      fun state => if (ofLex state).1 = word then 1 else 0 := by
  rw [pairing_paths, mass]
  rfl

/-- A word is **spelled** when some class sequence of length `T` collapses to classes that emit its
letters. -/
def IsSpelled (T : ℕ) (word : List β) : Prop :=
  ∃ π : Fin T → Fin A.classes, word ∈ keys (A.spellings (collapse A.blank (A.classList π)))

/-- One step reaches what a class of the alphabet spells. -/
theorem mem_keys_step {w : ℕ → W} {state state' : List β ×ₗ ℕ} :
    state' ∈ keys (A.step w state) ↔ ∃ c : Fin A.classes,
      ∃ x ∈ keys (A.spellings (kept A.blank (ofLex state).2 c)),
        state' = toLex ((ofLex state).1 ++ x, (c : ℕ)) := by
  simp only [step, keys, List.map_flatMap, List.mem_flatMap, List.mem_range, List.map_map,
    List.mem_map, Function.comp_apply]
  constructor
  · rintro ⟨c, hc, e, he, rfl⟩
    exact ⟨⟨c, hc⟩, e.1, ⟨e, he, rfl⟩, rfl⟩
  · rintro ⟨c, x, ⟨e, he, rfl⟩, rfl⟩
    exact ⟨c, c.isLt, e, he, rfl⟩

/-- The prefix search reaches a word and a last class when some class sequence spells the word and
ends in the class. -/
theorem mem_keys_paths {T : ℕ} {state : List β ×ₗ ℕ} :
    state ∈ keys (paths A.start (fun t => A.step (weight t)) T) ↔
      ∃ π : Fin T → Fin A.classes,
        (ofLex state).1 ∈ keys (A.spellings (collapse A.blank (A.classList π))) ∧
          (ofLex state).2 = lastClass A.blank (A.classList π) := by
  induction T generalizing state with
  | zero =>
    have hzero : ∀ π : Fin 0 → Fin A.classes, A.classList π = [] := fun π => rfl
    simp only [paths, keys, List.map_cons, List.map_nil, List.mem_singleton, hzero, start]
    constructor
    · rintro rfl
      exact ⟨Fin.elim0, by simp [spellings, collapse], rfl⟩
    · rintro ⟨-, hword, hlast⟩
      have hnil : (ofLex state).1 = [] := by simpa [spellings, collapse] using hword
      exact congrArg toLex (Prod.ext hnil hlast)
  | succ T ih =>
    rw [paths, mem_keys_bind]
    constructor
    · rintro ⟨prev, hprev, hstep⟩
      obtain ⟨π, hword, hlast⟩ := ih.mp hprev
      obtain ⟨c, x, hx, rfl⟩ := A.mem_keys_step.mp hstep
      refine ⟨Fin.snoc π c, ?_, ?_⟩
      · rw [classList_snoc, collapse_concat, mem_keys_spellings_append, ← hlast]
        exact ⟨_, hword, x, hx, rfl⟩
      · rw [classList_snoc, lastClass_concat]
        rfl
    · rintro ⟨π', hword, hlast⟩
      obtain ⟨⟨c, π⟩, rfl⟩ := (Fin.snocEquiv fun _ => Fin A.classes).surjective π'
      have happ : (Fin.snocEquiv fun _ => Fin A.classes) (c, π) = Fin.snoc π c := rfl
      rw [happ, classList_snoc, collapse_concat, mem_keys_spellings_append] at hword
      rw [happ, classList_snoc, lastClass_concat] at hlast
      obtain ⟨w, hw, x, hx, hwx⟩ := hword
      exact ⟨toLex (w, lastClass A.blank (A.classList π)), ih.mpr ⟨π, hw, rfl⟩,
        A.mem_keys_step.mpr ⟨c, x, hx, congrArg toLex (Prod.ext hwx hlast)⟩⟩

/-! ## Searches that look at fewer classes and drop words -/

/-- One timestep of a search that looks at the `selected` classes only and drops the new words an
oracle rejects. -/
def prunedStep (selected : List ℕ) (valid : List β → Bool) (w : ℕ → W) (state : List β ×ₗ ℕ) :
    List ((List β ×ₗ ℕ) × W) :=
  selected.flatMap fun c =>
    ((A.spellings (kept A.blank (ofLex state).2 c)).filter fun e =>
      e.1.isEmpty || valid ((ofLex state).1 ++ e.1)).map fun e =>
        (toLex ((ofLex state).1 ++ e.1, c), w c * e.2)

variable {selected : List ℕ} {valid : List β → Bool} {w : ℕ → W} {state state' : List β ×ₗ ℕ}

/-- A search that looks at every class misses only the words the oracle rejects. -/
theorem coeff_prunedStep [DecidableEq β] (hsel : selected.Perm (List.range A.classes))
    (hvalid : valid (ofLex state').1 = true) :
    coeff (A.prunedStep selected valid w state) state' = coeff (A.step w state) state' := by
  have hall : coeff (A.step w state) state' = coeff (selected.flatMap fun c =>
      (A.spellings (kept A.blank (ofLex state).2 c)).map fun e =>
        (toLex ((ofLex state).1 ++ e.1, c), w c * e.2)) state' :=
    pairing_perm (hsel.symm.flatMap fun _ _ => List.Perm.refl _) _
  rw [hall, prunedStep, coeff_flatMap, coeff_flatMap]
  refine congrArg List.sum (List.map_congr_left fun c _ => coeff_map_filter _ _ _ fun e _ he => ?_)
  subst he
  exact Bool.or_eq_true _ _ ▸ Or.inr hvalid

theorem mem_keys_prunedStep (hsel : selected.Perm (List.range A.classes))
    (hvalid : valid (ofLex state').1 = true) :
    state' ∈ keys (A.prunedStep selected valid w state) ↔ state' ∈ keys (A.step w state) := by
  simp only [prunedStep, step, keys, List.map_flatMap, List.mem_flatMap, List.map_map,
    List.mem_map, List.mem_filter, Function.comp_apply, hsel.mem_iff]
  refine exists_congr fun c => and_congr_right fun _ => ⟨?_, ?_⟩
  · rintro ⟨e, ⟨he, -⟩, rfl⟩
    exact ⟨e, he, rfl⟩
  · rintro ⟨e, he, rfl⟩
    exact ⟨e, ⟨he, Bool.or_eq_true _ _ ▸ Or.inr hvalid⟩, rfl⟩

/-- A step lengthens the word by at most one letter. -/
theorem word_of_mem_keys_step (h : state' ∈ keys (A.step w state)) :
    (ofLex state').1 = (ofLex state).1 ∨ ∃ x, (ofLex state').1 = (ofLex state).1 ++ [x] := by
  obtain ⟨c, x, hx, rfl⟩ := A.mem_keys_step.mp h
  rw [mem_keys_spellings, kept] at hx
  split at hx
  · rw [List.forall₂_nil_right_iff.mp hx]
    exact Or.inl (List.append_nil _)
  · obtain ⟨x, _, -, hnil, rfl⟩ := List.forall₂_cons_right_iff.mp hx
    rw [List.forall₂_nil_right_iff.mp hnil]
    exact Or.inr ⟨x, rfl⟩

/-- **A search that drops classes and words never over-counts a step.** -/
theorem coeff_prunedStep_le [DecidableEq β] [PartialOrder W] [IsOrderedRing W]
    [CanonicallyOrderedAdd W] (hsel : selected.Subperm (List.range A.classes)) :
    coeff (A.prunedStep selected valid w state) state' ≤ coeff (A.step w state) state' :=
  coeff_flatMap_le hsel fun _ =>
    coeff_le_of_subperm ((List.filter_sublist.map _).subperm) state'

/-- A pruned step too lengthens the word by at most one letter. -/
theorem word_of_mem_keys_prunedStep (h : state' ∈ keys (A.prunedStep selected valid w state)) :
    (ofLex state').1 = (ofLex state).1 ∨ ∃ x, (ofLex state').1 = (ofLex state).1 ++ [x] := by
  simp only [prunedStep, keys, List.map_flatMap, List.mem_flatMap, List.map_map, List.mem_map,
    List.mem_filter, Function.comp_apply] at h
  obtain ⟨c, -, e, ⟨he, -⟩, rfl⟩ := h
  have hword := A.mem_keys_spellings.mp (List.mem_map_of_mem he)
  rw [kept] at hword
  split at hword
  · rw [List.forall₂_nil_right_iff.mp hword]
    exact Or.inl (List.append_nil _)
  · obtain ⟨x, _, -, hnil, hx⟩ := List.forall₂_cons_right_iff.mp hword
    rw [hx, List.forall₂_nil_right_iff.mp hnil]
    exact Or.inr ⟨x, rfl⟩

/-- A class other than the blank. -/
def IsLetterClass (c : ℕ) : Prop := c < A.classes ∧ c ≠ A.blank

/-! ## What a step passes on -/

section Passed

variable [DecidableEq β]

/-- A step kept the word, or lengthened it by `x`. -/
def keepsOrAppends (word : List β) (x : β) (state : List β ×ₗ ℕ) : W :=
  if (ofLex state).1 = word ∨ (ofLex state).1 = word ++ [x] then 1 else 0

/-- A step kept the word. -/
def keeps (word : List β) (state : List β ×ₗ ℕ) : W := if (ofLex state).1 = word then 1 else 0

/-- **What is on the way to a word after a step** was before it, and either is that word or goes on
by its next letter. -/
theorem pairing_prefix_prunedStep (word : List β) :
    pairing (A.prunedStep selected valid w state) (fun s => if (ofLex s).1 <+: word then 1 else 0) =
      if (ofLex state).1 <+: word then
        match word[(ofLex state).1.length]? with
        | some x => pairing (A.prunedStep selected valid w state)
            (keepsOrAppends (ofLex state).1 x)
        | none => pairing (A.prunedStep selected valid w state) (keeps (ofLex state).1)
      else 0 := by
  split
  · rename_i hprefix
    obtain ⟨rest, rfl⟩ := hprefix
    cases rest with
    | nil =>
      simp only [List.append_nil, List.getElem?_length]
      refine pairing_congr_keys fun s hs => ?_
      rcases A.word_of_mem_keys_prunedStep hs with heq | ⟨y, heq⟩
      · rw [keeps, heq, if_pos rfl, if_pos (List.prefix_refl _)]
      · rw [keeps, heq, if_neg fun h => by simpa using h.length_le, if_neg (by simp)]
    | cons x rest =>
      simp only [List.getElem?_append_right (le_refl _), Nat.sub_self, List.getElem?_cons_zero]
      refine pairing_congr_keys fun s hs => ?_
      rcases A.word_of_mem_keys_prunedStep hs with heq | ⟨y, heq⟩
      · rw [keepsOrAppends, heq, if_pos (Or.inl rfl), if_pos (List.prefix_append _ _)]
      · have hiff : (ofLex state).1 ++ [y] <+: (ofLex state).1 ++ x :: rest ↔ y = x := by
          rw [List.prefix_append_right_inj, List.cons_prefix_cons, and_iff_left List.nil_prefix]
        simp only [keepsOrAppends, heq, hiff, List.append_right_inj, List.cons.injEq, and_true,
          List.append_right_eq_self, List.cons_ne_nil, false_or]
  · rename_i hnot
    have hzero : pairing (A.prunedStep selected valid w state) (fun _ => (0 : W)) = 0 := by
      simp [pairing]
    refine (pairing_congr_keys fun s hs => if_neg fun hprefix => hnot ?_).trans hzero
    rcases A.word_of_mem_keys_prunedStep hs with heq | ⟨y, heq⟩
    · exact heq ▸ hprefix
    · exact (List.prefix_append _ [y]).trans (heq ▸ hprefix)

variable [PartialOrder W] [IsOrderedRing W] [CanonicallyOrderedAdd W]

/-- **A step of distributed weights passes on at most one**, where no class is read more than once
as what is counted. -/
theorem pairing_prunedStep_le (hsel : selected.Subperm (List.range A.classes))
    {g : List β ×ₗ ℕ → W} (h : ∀ c ∈ selected,
      pairing (A.spellings (kept A.blank (ofLex state).2 c))
        (fun x => g (toLex ((ofLex state).1 ++ x, c))) ≤ 1) :
    pairing (A.prunedStep selected valid w state) g ≤ ∑ c : Fin A.classes, w c := by
  have hclass : ∀ c ∈ selected,
      pairing (((A.spellings (kept A.blank (ofLex state).2 c)).filter fun e =>
        e.1.isEmpty || valid ((ofLex state).1 ++ e.1)).map fun e =>
          (toLex ((ofLex state).1 ++ e.1, c), w c * e.2)) g ≤ w c := by
    intro c hc
    have hdropped : pairing ((A.spellings (kept A.blank (ofLex state).2 c)).filter fun e =>
        e.1.isEmpty || valid ((ofLex state).1 ++ e.1))
          (fun x => g (toLex ((ofLex state).1 ++ x, c))) ≤ 1 :=
      (pairing_mono (coeff_le_of_subperm List.filter_sublist.subperm) fun _ => le_rfl).trans
        (h c hc)
    calc _ = w c * pairing ((A.spellings (kept A.blank (ofLex state).2 c)).filter fun e =>
          e.1.isEmpty || valid ((ofLex state).1 ++ e.1))
            (fun x => g (toLex ((ofLex state).1 ++ x, c))) := by
          simp only [pairing, List.map_map, Function.comp_def, mul_assoc, List.sum_map_mul_left]
      _ ≤ w c := mul_le_of_le_one_right zero_le hdropped
  obtain ⟨l, hperm, hsub⟩ := hsel
  calc pairing (A.prunedStep selected valid w state) g ≤ (selected.map w).sum := by
        rw [prunedStep, pairing_flatMap]
        exact List.sum_le_sum hclass
    _ = (l.map w).sum := ((hperm.map w).sum_eq).symm
    _ ≤ ((List.range A.classes).map w).sum := (hsub.map w).sum_le_sum fun _ _ => zero_le
    _ = ∑ c : Fin A.classes, w c := by
        rw [← List.sum_toFinset _ List.nodup_range, List.toFinset_range, Finset.sum_range]

/-- What keeps its word is at most what there was. -/
theorem pairing_keeps_le (hsel : selected.Subperm (List.range A.classes)) :
    pairing (A.prunedStep selected valid w state) (keeps (ofLex state).1) ≤
      ∑ c : Fin A.classes, w c := by
  refine A.pairing_prunedStep_le hsel fun c _ => ?_
  rw [kept]
  split
  · rw [pairing_spellings_nil]
    exact (if_pos (List.append_nil _)).le
  · rw [spellings_singleton]
    simp [pairing, keeps, Function.comp_def]

/-- And so is what keeps it or appends a letter no class looked at is read as more than once. -/
theorem pairing_keepsOrAppends_le (hsel : selected.Subperm (List.range A.classes)) {x : β}
    (h : ∀ c ∈ selected, c ≠ A.blank → coeff (A.emissions c) x ≤ 1) :
    pairing (A.prunedStep selected valid w state) (keepsOrAppends (ofLex state).1 x) ≤
      ∑ c : Fin A.classes, w c := by
  refine A.pairing_prunedStep_le hsel fun c hc => ?_
  rw [kept]
  split
  · rw [pairing_spellings_nil]
    exact (if_pos (Or.inl (List.append_nil _))).le
  · rename_i hkept
    refine le_trans (le_of_eq ?_) (h c hc (not_or.mp hkept).1)
    rw [spellings_singleton]
    simp [pairing, coeff, keepsOrAppends, Function.comp_def]

end Passed

/-! ## When the mass of a word is a probability -/

omit [CommSemiring W] in
theorem isLetterClass_of_mem_collapse {T : ℕ} {π : Fin T → Fin A.classes} {c : ℕ}
    (h : c ∈ collapse A.blank (A.classList π)) : A.IsLetterClass c := by
  obtain ⟨hmem, hne⟩ := List.mem_filter.mp h
  obtain ⟨t, rfl⟩ := List.mem_ofFn.mp ((List.destutter_sublist _ _).mem hmem)
  exact ⟨(π t).isLt, by simpa using hne⟩

omit [CommSemiring W] in
/-- Every sequence without blanks is the collapse of one that puts a blank before each class. -/
theorem exists_collapse_eq (hblank : A.blank < A.classes) {cs : List ℕ}
    (hcs : ∀ c ∈ cs, A.IsLetterClass c) :
    ∃ (T : ℕ) (π : Fin T → Fin A.classes), collapse A.blank (A.classList π) = cs := by
  induction cs using List.reverseRecOn with
  | nil => exact ⟨0, Fin.elim0, rfl⟩
  | append_singleton cs c ih =>
    obtain ⟨T, π, hπ⟩ := ih fun c hc => hcs c (List.mem_append_left _ hc)
    obtain ⟨hc, hne⟩ := hcs c (List.mem_append_right _ (List.mem_singleton_self c))
    refine ⟨T + 2, Fin.snoc (Fin.snoc π ⟨A.blank, hblank⟩ : Fin (T + 1) → Fin A.classes) ⟨c, hc⟩,
      ?_⟩
    rw [classList_snoc, classList_snoc, collapse_concat, collapse_concat, lastClass_concat, hπ,
      kept, kept, if_pos (Or.inl rfl), if_neg (by tauto), List.append_nil]

/-- The weights of all class sequences multiply out. -/
theorem sum_sequenceWeight (T : ℕ) :
    ∑ π : Fin T → Fin A.classes, A.sequenceWeight weight π =
      ∏ t : Fin T, ∑ c : Fin A.classes, weight t c :=
  (Fintype.prod_sum fun (t : Fin T) (c : Fin A.classes) => weight t c).symm

/-- The weights of one sequence only: every row picks its class. -/
def oneHot {T : ℕ} (π : Fin T → Fin A.classes) (t c : ℕ) : W :=
  if h : t < T then if (π ⟨t, h⟩ : ℕ) = c then 1 else 0 else if c = A.blank then 1 else 0

theorem sum_oneHot (hblank : A.blank < A.classes) {T : ℕ} (π : Fin T → Fin A.classes) (t : ℕ) :
    ∑ c : Fin A.classes, (A.oneHot π t c : W) = 1 := by
  unfold oneHot
  split
  · rename_i h
    simp [Fin.val_inj]
  · have hval : ∀ c : Fin A.classes, (c : ℕ) = A.blank ↔ c = ⟨A.blank, hblank⟩ := fun c => by
      rw [Fin.ext_iff]
    simp [hval]

section Bound

variable [DecidableEq β]

/-- A word and a sequence are spelled letter by letter. -/
theorem coeff_spellings_cons (c : ℕ) (cs : List ℕ) (x : β) (word : List β) :
    coeff (A.spellings (c :: cs)) (x :: word) =
      coeff (A.emissions c) x * coeff (A.spellings cs) word := by
  have hconst := pairing_const_mul (A.spellings cs) (coeff (A.emissions c) x)
    fun rest => if rest = word then 1 else 0
  rw [coeff, pairing_spellings_cons]
  refine Eq.trans (congrArg _ (funext fun rest => ?_)) hconst
  by_cases h : rest = word
  · rw [if_pos h, mul_one]
    simp [h, coeff]
  · rw [if_neg h, mul_zero]
    simp [h, pairing]

theorem coeff_spellings_nil : coeff (A.spellings []) [] = 1 := by
  rw [coeff, pairing_spellings_nil, if_pos rfl]

/-- A word and a sequence of other lengths are not spelled. -/
theorem coeff_spellings_of_length_ne {cs : List ℕ} {word : List β} (h : word.length ≠ cs.length) :
    coeff (A.spellings cs) word = 0 :=
  coeff_eq_zero fun hmem => h (A.mem_keys_spellings.mp hmem).length_eq

/-- One-hot rows give a word what their sequence spells. -/
theorem mass_oneHot {T : ℕ} (π : Fin T → Fin A.classes) (word : List β) :
    A.mass (A.oneHot π) T word =
      coeff (A.spellings (collapse A.blank (A.classList π))) word := by
  have hweight : ∀ π' : Fin T → Fin A.classes,
      A.sequenceWeight (A.oneHot π : ℕ → ℕ → W) π' = if π' = π then 1 else 0 := by
    intro π'
    simp only [sequenceWeight, oneHot, Fin.is_lt, dif_pos, Fin.val_inj]
    rw [Finset.prod_ite_zero]
    simp [funext_iff, eq_comm]
  simp [mass, hweight]

/-- A word with a letter no class emits has no mass. -/
theorem mass_eq_zero {T : ℕ} {word : List β} {x : β} (hx : x ∈ word)
    (h : ∀ c, A.IsLetterClass c → x ∉ keys (A.emissions c)) : A.mass weight T word = 0 := by
  refine Finset.sum_eq_zero fun π _ => ?_
  have hnot : word ∉ keys (A.spellings (collapse A.blank (A.classList π))) := by
    intro hmem
    obtain ⟨c, hc, hemits⟩ := A.exists_class_of_mem_keys_spellings hmem hx
    exact h c (A.isLetterClass_of_mem_collapse hc) hemits
  rw [coeff_eq_zero hnot, mul_zero]

section Canonical

variable [PartialOrder W] [CanonicallyOrderedAdd W]

/-- A word no class over-counts a letter of is spelled with at most its weight. -/
theorem coeff_spellings_le_one {cs : List ℕ} {word : List β}
    (h : ∀ c ∈ cs, ∀ x ∈ word, coeff (A.emissions c) x ≤ 1) :
    coeff (A.spellings cs) word ≤ 1 := by
  induction cs generalizing word with
  | nil =>
    cases word with
    | nil => exact A.coeff_spellings_nil.le
    | cons x word => exact (A.coeff_spellings_of_length_ne (by simp)).trans_le zero_le
  | cons c cs ih =>
    cases word with
    | nil => exact (A.coeff_spellings_of_length_ne (by simp)).trans_le zero_le
    | cons x word =>
      rw [coeff_spellings_cons]
      refine mul_le_one' (h c List.mem_cons_self x List.mem_cons_self) (ih fun c hc y hy => ?_)
      exact h c (List.mem_cons_of_mem _ hc) y (List.mem_cons_of_mem _ hy)

/-- A word of letters that classes emit is spelled with at least any one of its letters' weights. -/
theorem exists_le_coeff_spellings {word : List β}
    (hword : ∀ x ∈ word, ∃ c, A.IsLetterClass c ∧ 1 ≤ coeff (A.emissions c) x) :
    (∃ cs : List ℕ, (∀ c ∈ cs, A.IsLetterClass c) ∧ 1 ≤ coeff (A.spellings cs) word) ∧
      ∀ x ∈ word, ∀ c, A.IsLetterClass c → ∃ cs : List ℕ, (∀ c ∈ cs, A.IsLetterClass c) ∧
        coeff (A.emissions c) x ≤ coeff (A.spellings cs) word := by
  induction word with
  | nil => exact ⟨⟨[], by simp, A.coeff_spellings_nil.ge⟩, by simp⟩
  | cons y word ih =>
    obtain ⟨⟨cy, hcy, hy⟩, hrest⟩ := List.forall_mem_cons.mp hword
    obtain ⟨⟨cs, hcs, hone⟩, hletters⟩ := ih hrest
    refine ⟨⟨cy :: cs, List.forall_mem_cons.mpr ⟨hcy, hcs⟩, ?_⟩, fun x hx c hc => ?_⟩
    · rw [coeff_spellings_cons]
      exact one_le_mul hy hone
    · rcases List.mem_cons.mp hx with rfl | hx
      · refine ⟨c :: cs, List.forall_mem_cons.mpr ⟨hc, hcs⟩, ?_⟩
        rw [coeff_spellings_cons]
        exact le_mul_of_one_le_right' hone
      · obtain ⟨cs', hcs', hle⟩ := hletters x hx c hc
        refine ⟨cy :: cs', List.forall_mem_cons.mpr ⟨hcy, hcs'⟩, ?_⟩
        rw [coeff_spellings_cons]
        exact hle.trans (le_mul_of_one_le_left' hy)

end Canonical

variable [PartialOrder W] [IsOrderedRing W] [CanonicallyOrderedAdd W]

/-- **The mass of a word is at most one** when the rows are distributions and no class over-counts a
letter of the word. -/
theorem mass_le_one {T : ℕ} {word : List β} (hrows : ∀ t < T, ∑ c : Fin A.classes, weight t c = 1)
    (h : ∀ c, A.IsLetterClass c → ∀ x ∈ word, coeff (A.emissions c) x ≤ 1) :
    A.mass weight T word ≤ 1 := by
  calc A.mass weight T word
      ≤ ∑ π : Fin T → Fin A.classes, A.sequenceWeight weight π := by
        refine Finset.sum_le_sum fun π _ => mul_le_of_le_one_right' ?_
        exact A.coeff_spellings_le_one fun c hc => h c (A.isLetterClass_of_mem_collapse hc)
    _ = ∏ t : Fin T, ∑ c : Fin A.classes, weight t c := A.sum_sequenceWeight weight T
    _ = 1 := Finset.prod_eq_one fun t _ => hrows t t.isLt

/-- **…and only then**, for a word whose letters have classes of their own. -/
theorem mass_le_one_iff (hblank : A.blank < A.classes) {word : List β}
    (hword : ∀ x ∈ word, ∃ c, A.IsLetterClass c ∧ 1 ≤ coeff (A.emissions c) x) :
    (∀ (T : ℕ) (weight : ℕ → ℕ → W), (∀ t < T, ∑ c : Fin A.classes, weight t c = 1) →
        A.mass weight T word ≤ 1) ↔
      ∀ c, A.IsLetterClass c → ∀ x ∈ word, coeff (A.emissions c) x ≤ 1 := by
  refine ⟨fun h c hc x hx => ?_, fun h T weight hrows => A.mass_le_one weight hrows h⟩
  obtain ⟨cs, hcs, hle⟩ := (A.exists_le_coeff_spellings hword).2 x hx c hc
  obtain ⟨T, π, rfl⟩ := A.exists_collapse_eq hblank hcs
  rw [← mass_oneHot] at hle
  exact hle.trans (h T _ fun t _ => A.sum_oneHot hblank π t)

end Bound

end CtcAlphabet

end FacLpr
