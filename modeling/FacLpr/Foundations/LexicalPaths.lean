import FacLpr.Foundations.Text
import Mathlib.Data.List.Basic

/-!
# Foundations/LexicalPaths — paths as they are spelled

A POSIX path is its bytes, and what a program iterates over are its names.  The normal form resolves
`.` and `..` by spelling alone.  A relative path that keeps no `..` in its normal form never leaves
the directory it is resolved from (`dotDot_notMem_lexicallyNormal_iff`).
-/

namespace FacLpr

namespace LexicalPaths

abbrev Path := Text

def slash : Byte := byte '/'

def dot : Text := [byte '.']

def dotDot : Text := [byte '.', byte '.']

/-- The file names of a path. -/
def names (path : Path) : List Text := (path.splitOn slash).filter (!·.isEmpty)

def isAbsolute (path : Path) : Bool := path.head? == some slash

/-- A path that ends behind a separator has an empty last name. -/
def endsOpen (path : Path) : Bool := !(names path).isEmpty && path.getLast? == some slash

/-- What `begin()` to `end()` of a path visits. -/
def components (path : Path) : List Text :=
  (if isAbsolute path then [[slash]] else []) ++ names path ++ if endsOpen path then [[]] else []

/-- `operator/`. -/
def join (path child : Path) : Path :=
  if isAbsolute child then child
  else if path.isEmpty || path.getLast? == some slash then path ++ child
  else path ++ slash :: child

/-! ## The normal form -/

/-- One directory up, from names that are kept last first. -/
def climb (rooted : Bool) : List Text → List Text
  | [] => if rooted then [] else [dotDot]
  | last :: rest => if last = dotDot then dotDot :: last :: rest else rest

/-- One name further. -/
def normalStep (rooted : Bool) (kept : List Text) (name : Text) : List Text :=
  if name = dot then kept
  else if name = dotDot then climb rooted kept
  else name :: kept

/-- The names that are left. -/
def normalNames (path : Path) : List Text :=
  ((names path).foldl (normalStep (isAbsolute path)) []).reverse

/-- The components of `lexically_normal()`. -/
def lexicallyNormal (path : Path) : List Text :=
  let kept := normalNames path
  let last := (names path).getLast?
  let opened := (endsOpen path || last == some dot || last == some dotDot) && !kept.isEmpty &&
    kept.getLast? != some dotDot
  if isAbsolute path then [slash] :: kept ++ if opened then [[]] else []
  else if kept.isEmpty then if path.isEmpty then [] else [dot]
  else kept ++ if opened then [[]] else []

/-! ## A walk -/

/-- One name further from a directory, by its names from the root. -/
def walk (directory : List Text) (name : Text) : List Text :=
  if name = dot then directory
  else if name = dotDot then directory.dropLast
  else directory ++ [name]

/-- A `..` that was kept stays. -/
theorem dotDot_mem_normalStep {kept : List Text} (h : dotDot ∈ kept) (name : Text) :
    dotDot ∈ normalStep false kept name := by
  rw [normalStep]
  split
  · exact h
  · split
    · cases kept with
      | nil => cases h
      | cons last rest =>
        rw [climb]
        split
        · exact List.mem_cons_self
        · rename_i hlast
          exact (List.mem_cons.mp h).resolve_left (Ne.symm hlast)
    · exact List.mem_cons_of_mem _ h

theorem dotDot_mem_foldl {kept : List Text} (h : dotDot ∈ kept) (names : List Text) :
    dotDot ∈ names.foldl (normalStep false) kept := by
  induction names generalizing kept with
  | nil => exact h
  | cons name names ih => exact ih (dotDot_mem_normalStep h name)

/-- **The names that are kept are the way from the root**, as long as no `..` is among them. -/
theorem dotDot_notMem_foldl_iff {root : List Text} (hroot : root ≠ []) {kept : List Text}
    (hkept : dotDot ∉ kept) (names : List Text) :
    dotDot ∉ names.foldl (normalStep false) kept ↔
      ∀ walked, walked <+: names → root <+: walked.foldl walk (root ++ kept.reverse) := by
  induction names generalizing kept with
  | nil =>
    refine iff_of_true hkept fun walked hwalked => ?_
    rw [List.prefix_nil.mp hwalked]
    exact List.prefix_append _ _
  | cons name names ih =>
    have hcons (directory : List Text) (hdirectory : root <+: directory) :
        (∀ walked, walked <+: name :: names → root <+: walked.foldl walk directory) ↔
          ∀ walked, walked <+: names → root <+: walked.foldl walk (walk directory name) := by
      constructor
      · intro h walked hwalked
        exact h (name :: walked) (List.cons_prefix_cons.mpr ⟨rfl, hwalked⟩)
      · intro h walked hwalked
        cases walked with
        | nil => exact hdirectory
        | cons first walked =>
          obtain ⟨rfl, hrest⟩ := List.cons_prefix_cons.mp hwalked
          exact h walked hrest
    rw [hcons _ (List.prefix_append _ _), List.foldl_cons]
    by_cases hdot : name = dot
    · rw [normalStep, walk, if_pos hdot, if_pos hdot]
      exact ih hkept
    by_cases hdotDot : name = dotDot
    · rw [normalStep, walk, if_neg hdot, if_neg hdot, if_pos hdotDot, if_pos hdotDot]
      cases kept with
      | nil =>
        -- the walk leaves the root, and the normal form keeps a `..`
        refine iff_of_false (fun h => h (dotDot_mem_foldl List.mem_cons_self names)) fun h => ?_
        have hleft := (h [] List.nil_prefix).length_le
        rw [List.foldl_nil, List.reverse_nil, List.append_nil, List.length_dropLast] at hleft
        have hpos := List.length_pos_of_ne_nil hroot
        omega
      | cons last rest =>
        obtain ⟨hlast, hrest⟩ := not_or.mp (mt List.mem_cons.mpr hkept)
        rw [climb, if_neg (Ne.symm hlast), List.reverse_cons, ← List.append_assoc,
          List.dropLast_concat]
        exact ih hrest
    · rw [normalStep, walk, if_neg hdot, if_neg hdot, if_neg hdotDot, if_neg hdotDot,
        List.append_assoc, ← List.reverse_cons]
      exact ih fun h => (List.mem_cons.mp h).elim (fun h => hdotDot h.symm) hkept

/-- **A relative path stays where it is resolved** exactly when its normal form has no `..`. -/
theorem dotDot_notMem_lexicallyNormal_iff {path : Path} (hpath : isAbsolute path = false)
    {root : List Text} (hroot : root ≠ []) :
    dotDot ∉ lexicallyNormal path ↔
      ∀ walked, walked <+: names path → root <+: walked.foldl walk root := by
  have hnames : dotDot ∉ lexicallyNormal path ↔ dotDot ∉ normalNames path := by
    simp only [lexicallyNormal, hpath, Bool.false_eq_true, if_false]
    split
    · rename_i hkept
      rw [List.isEmpty_iff.mp hkept]
      split <;> decide
    · rw [List.mem_append, not_or]
      refine and_iff_left ?_
      split <;> decide
  rw [hnames, normalNames, hpath, List.mem_reverse]
  have hwalk := dotDot_notMem_foldl_iff hroot List.not_mem_nil (names path)
  rwa [List.reverse_nil, List.append_nil] at hwalk

example : lexicallyNormal (ascii "a/./b/../../..//c/") = [dotDot, ascii "c", []] := by
  decide +kernel

/-! ## Containment -/

end LexicalPaths

end FacLpr
