import FacLpr.Application.Error
import FacLpr.Foundations.OrdMap
import FacLpr.Foundations.Run
import FacLpr.Foundations.TextLines
import Mathlib.Data.List.ReduceOption

/-!
# Tools/ContractFile — the production contract

The contract is a file of `key = value` lines, with blank lines and comments.  The engine factory of
the command line and the activation gate read it with the same function, but for a word of its
messages.  It accepts exactly the files that are laid out so and give no key twice
and otherwise names the first line that is not (`loadContract_decides`).
-/

namespace FacLpr

open TextLines

abbrev Contract := OrdMap Text Text

namespace ContractFile

def comment : Byte := byte '#'

def equals : Byte := byte '='

/-- Which of the two readers it is, as its messages say. -/
inductive Reader where
  | cli
  | production
  deriving DecidableEq

def Reader.word : Reader → String
  | .cli => "CLI"
  | .production => "production"

def invalidLine (reader : Reader) (number : ℕ) : EngineError :=
  configurationError ("invalid " ++ reader.word ++ " contract line " ++ toString number)

def invalidKey (reader : Reader) (number : ℕ) : EngineError :=
  configurationError
    ("empty/duplicate " ++ reader.word ++ " contract key at line " ++ toString number)

/-- The body of the loop of `load_contract`. -/
def contractLine (reader : Reader) (values : Contract) (numbered : Text × ℕ) :
    Except EngineError Contract :=
  let line := trim numbered.1
  if line.isEmpty || line.head? == some comment then .ok values
  else
    match cut equals line with
    | none => .error (invalidLine reader numbered.2)
    | some (key, value) =>
        let key := trim key
        let value := trim value
        if key.isEmpty || value.isEmpty || (values.find? key).isSome then
          .error (invalidKey reader numbered.2)
        else .ok (values.upsert key fun _ => value)

/-- `load_contract`; no file is one that does not open. -/
def loadContract (reader : Reader) (file : Option Text) : Except EngineError Contract :=
  match file with
  | none => .error (configurationError ("cannot open " ++ reader.word ++ " contract file"))
  | some text => ((lines text).zipIdx 1).foldlM (contractLine reader) OrdMap.empty

/-- `required`. -/
def required (reader : Reader) (contract : Contract) (key : Text) : Except EngineError Text :=
  match contract.find? key with
  | some value =>
      if value.isEmpty then
        .error (configurationError
          ("missing " ++ reader.word ++ " contract key: " ++ messageOf key))
      else .ok value
  | none =>
      .error (configurationError
        ("missing " ++ reader.word ++ " contract key: " ++ messageOf key))

/-- `parse_size`. -/
def parseSize (contract : Contract) (key : Text) : Except EngineError ℕ := do
  let text ← required .cli contract key
  match fromChars (2 ^ 64) text with
  | some (value, []) => return value
  | _ => throw (configurationError ("invalid integer CLI contract value: " ++ messageOf key))

/-- A key and its value, as a contract can hold them. -/
structure IsEntry (key value : Text) : Prop where
  key_ne : key ≠ []
  value_ne : value ≠ []
  bareKey : Bare key
  bareValue : Bare value
  key_equals : equals ∉ key
  key_comment : key.head? ≠ some comment

/-- A line of a contract and the entry it makes, if it makes one. -/
inductive IsLine : Text → Option (Text × Text) → Prop
  | blank {line : Text} : Blank line → IsLine line none
  | comment {left : Text} (rest : Text) : Blank left → IsLine (left ++ comment :: rest) none
  | entry {left key middle middle' value right : Text} : IsEntry key value → Blank left →
      Blank middle → Blank middle' → Blank right →
      IsLine (left ++ (key ++ middle ++ equals :: (middle' ++ value) ++ right)) (some (key, value))

/-- What a line adds to the map. -/
def putLine (made : Option (Text × Text)) (values : Contract) : Contract :=
  match made with
  | none => values
  | some (key, value) => values.upsert key fun _ => value

/-- Entries put into a map one after the other. -/
def putAll (entries : List (Text × Text)) (values : Contract) : Contract :=
  entries.foldl (fun values entry => values.upsert entry.1 fun _ => entry.2) values

/-- The entries as a map. -/
def valuesOf (entries : List (Text × Text)) : Contract := putAll entries OrdMap.empty

/-- **A contract as it is written**: its lines make the entries, and no two have the same key. -/
def IsContract (entries : List (Text × Text)) (text : Text) : Prop :=
  (∃ read made, LinesOf read text ∧ List.Forall₂ IsLine read made ∧ entries = made.reduceOption) ∧
    (entries.map Prod.fst).Nodup

/-! ## One line -/

theorem isSpace_comment : isSpace comment = false := by decide

theorem isSpace_equals : isSpace equals = false := by decide

theorem notMem_of_blank {text : Text} (h : Blank text) : equals ∉ text := fun hmem => by
  have hspace := h equals hmem
  rw [isSpace_equals] at hspace
  cases hspace

/-- A line that starts a comment. -/
theorem isLine_of_head {line : Text} (h : (trim line).head? = some comment) : IsLine line none := by
  obtain ⟨left, right, hleft, -, hline⟩ := exists_trim line
  obtain ⟨rest, hrest⟩ := List.head?_eq_some_iff.mp h
  rw [hline, hrest, List.cons_append]
  exact .comment _ hleft

/-- A line with a key and a value. -/
theorem isLine_of_cut {line before behind : Text} (hcomment : (trim line).head? ≠ some comment)
    (hcut : cut equals (trim line) = some (before, behind)) (hkey : trim before ≠ [])
    (hvalue : trim behind ≠ []) : IsLine line (some (trim before, trim behind)) := by
  obtain ⟨left, right, hleft, hright, hline⟩ := exists_trim line
  obtain ⟨left', middle, hleft', hmiddle, hbefore⟩ := exists_trim before
  obtain ⟨middle', right', hmiddle', hright', hbehind⟩ := exists_trim behind
  obtain ⟨hequals, htrim⟩ := cut_eq_some.mp hcut
  -- nothing stands before the key, since nothing but the line's own spaces was cut off
  have hnil : left' = [] := by
    cases left' with
    | nil => rfl
    | cons b left' =>
      have hhead : (trim line).head? = some b := by
        rw [htrim, hbefore]
        rfl
      have hspace := (bare_trim line).head b hhead
      rw [hleft' b List.mem_cons_self] at hspace
      cases hspace
  subst hnil
  rw [List.nil_append] at hbefore
  have hentry : IsEntry (trim before) (trim behind) := by
    refine ⟨hkey, hvalue, bare_trim _, bare_trim _, fun hmem => hequals ?_, fun hhead => ?_⟩
    · rw [hbefore]
      exact List.mem_append_left _ hmem
    · refine hcomment ?_
      rw [htrim, hbefore, List.append_assoc, List.head?_append, hhead, Option.some_or]
  have hrest : behind ++ right = middle' ++ trim behind ++ (right' ++ right) := by
    rw [← List.append_assoc, List.append_assoc middle', ← hbehind]
  have hwritten : line = left ++ (trim before ++ middle ++ equals :: (middle' ++ trim behind) ++
      (right' ++ right)) := by
    rw [hline, htrim, ← hbefore, List.append_assoc, List.cons_append, hrest,
      List.append_assoc before, List.cons_append]
  rw [hwritten]
  exact .entry hentry hleft hmiddle hmiddle' (List.forall_mem_append.mpr ⟨hright', hright⟩)

/-- An entry with the spaces around it gone. -/
theorem trim_entry {left key middle middle' value right : Text} (h : IsEntry key value)
    (hleft : Blank left) (hright : Blank right) :
    trim (left ++ (key ++ middle ++ equals :: (middle' ++ value) ++ right)) =
      key ++ middle ++ equals :: (middle' ++ value) := by
  refine trim_of_blank ⟨fun b hb => ?_, fun b hb => ?_⟩ hleft hright
  · obtain ⟨first, rest, hkey⟩ := List.exists_cons_of_ne_nil h.key_ne
    refine h.bareKey.head b ?_
    rw [hkey] at hb ⊢
    exact hb
  · refine h.bareValue.last b ?_
    rw [← List.cons_append, ← List.append_assoc, List.getLast?_append_of_ne_nil _ h.value_ne] at hb
    exact hb

/-- **What a line does**: it makes nothing, or an entry with a new key, or it is an error. -/
theorem contractLine_of_isLine {reader : Reader} {values : Contract} {line : Text} {n : ℕ}
    {made : Option (Text × Text)} (h : IsLine line made)
    (hnew : ∀ entry, made = some entry → values.find? entry.1 = none) :
    contractLine reader values (line, n) = .ok (putLine made values) := by
  cases h with
  | blank hblank =>
    rw [contractLine, trim_eq_nil_iff.mpr hblank]
    rfl
  | @comment left rest hleft =>
    have hhead : (trim (left ++ comment :: rest)).head? = some comment := by
      rw [trim_append_left hleft]
      exact head?_trim rfl isSpace_comment
    rw [contractLine, hhead]
    simp [putLine]
  | @entry left key middle middle' value right hentry hleft hmiddle hmiddle' hright =>
    have hhead : (key ++ middle ++ equals :: (middle' ++ value)).head? ≠ some comment := by
      obtain ⟨first, rest, rfl⟩ := List.exists_cons_of_ne_nil hentry.key_ne
      exact hentry.key_comment
    have hline : ((key ++ middle ++ equals :: (middle' ++ value)).isEmpty ||
        (key ++ middle ++ equals :: (middle' ++ value)).head? == some comment) = false := by
      rw [Bool.or_eq_false_iff, List.isEmpty_eq_false_iff, beq_eq_false_iff_ne]
      exact ⟨by simp, hhead⟩
    have hcut : cut equals (key ++ middle ++ equals :: (middle' ++ value)) =
        some (key ++ middle, middle' ++ value) :=
      cut_eq_some.mpr ⟨by simp [hentry.key_equals, notMem_of_blank hmiddle], rfl⟩
    have hkey : trim (key ++ middle) = key :=
      trim_of_blank hentry.bareKey (fun _ hb => absurd hb List.not_mem_nil) hmiddle
    have hvalue : trim (middle' ++ value) = value := by
      have hnone : Blank [] := fun _ hb => absurd hb List.not_mem_nil
      have htrim := trim_of_blank hentry.bareValue hmiddle' hnone
      rwa [List.append_nil] at htrim
    have hentries : (key.isEmpty || value.isEmpty || (values.find? key).isSome) = false := by
      rw [hnew _ rfl, Bool.or_eq_false_iff, Bool.or_eq_false_iff, List.isEmpty_eq_false_iff,
        List.isEmpty_eq_false_iff]
      exact ⟨⟨hentry.key_ne, hentry.value_ne⟩, rfl⟩
    simp only [contractLine, trim_entry hentry hleft hright, hline, hcut, hkey, hvalue, hentries,
      Bool.false_eq_true, if_false, putLine]

theorem isLine_of_contractLine {reader : Reader} {values values' : Contract} {line : Text} {n : ℕ}
    (h : contractLine reader values (line, n) = .ok values') :
    ∃ made, IsLine line made ∧ ∀ entry, made = some entry → values.find? entry.1 = none := by
  rw [contractLine] at h
  dsimp only at h
  split at h
  · rename_i hskip
    refine ⟨none, ?_, fun entry hentry => by cases hentry⟩
    rcases Bool.or_eq_true_iff.mp hskip with hempty | hcomment
    · exact .blank (trim_eq_nil_iff.mp (List.isEmpty_iff.mp hempty))
    · exact isLine_of_head (beq_iff_eq.mp hcomment)
  · rename_i hskip
    rw [Bool.or_eq_true, not_or, beq_iff_eq] at hskip
    split at h
    · cases h
    · rename_i before behind hcut
      split at h
      · cases h
      · rename_i hnew
        rw [Bool.or_eq_true, Bool.or_eq_true, not_or, not_or, List.isEmpty_iff, List.isEmpty_iff,
          Option.not_isSome_iff_eq_none] at hnew
        refine ⟨some (trim before, trim behind),
          isLine_of_cut hskip.2 hcut hnew.1.1 hnew.1.2, fun entry hentry => ?_⟩
        obtain rfl := Option.some.inj hentry
        exact hnew.2

/-- The error of a line. -/
theorem contractLine_eq_error {reader : Reader} {values : Contract} {line : Text} {n : ℕ}
    {e : EngineError} (h : contractLine reader values (line, n) = .error e) :
    e = if equals ∈ trim line then invalidKey reader n else invalidLine reader n := by
  rw [contractLine] at h
  dsimp only at h
  split at h
  · cases h
  · split at h
    · rename_i hcut
      rw [if_neg (cut_eq_none.mp hcut)]
      exact (Except.error.inj h).symm
    · rename_i before behind hcut
      obtain ⟨-, htrim⟩ := cut_eq_some.mp hcut
      rw [if_pos (by rw [htrim]; simp)]
      split at h
      · exact (Except.error.inj h).symm
      · cases h

/-! ## All lines -/

theorem find?_putAll_of_notMem {entries : List (Text × Text)} {key : Text}
    (h : key ∉ entries.map Prod.fst) (values : Contract) :
    (putAll entries values).find? key = values.find? key := by
  induction entries generalizing values with
  | nil => rfl
  | cons entry entries ih =>
    obtain ⟨hne, hnot⟩ := not_or.mp (mt List.mem_cons.mpr h)
    exact (ih hnot _).trans (OrdMap.find?_upsert_of_ne _ _ hne)

/-- **The map holds the entries.** -/
theorem find?_valuesOf {entries : List (Text × Text)} (h : (entries.map Prod.fst).Nodup)
    {key value : Text} : (valuesOf entries).find? key = some value ↔ (key, value) ∈ entries := by
  have hput (values : Contract) (hvalues : ∀ entry ∈ entries, values.find? entry.1 = none) :
      (putAll entries values).find? key = some value ↔
        (key, value) ∈ entries ∨ values.find? key = some value := by
    induction entries generalizing values with
    | nil => simp [putAll]
    | cons entry entries ih =>
      obtain ⟨hnot, hnodup⟩ := List.nodup_cons.mp h
      obtain ⟨hentry, hentries⟩ := List.forall_mem_cons.mp hvalues
      have hnext : ∀ other ∈ entries, (values.upsert entry.1 fun _ => entry.2).find? other.1 =
          none := by
        intro other hother
        have hne : other.1 ≠ entry.1 := fun heq => hnot (heq ▸ List.mem_map_of_mem hother)
        rw [OrdMap.find?_upsert_of_ne _ _ hne]
        exact hentries other hother
      refine (ih hnodup _ hnext).trans ?_
      by_cases hkey : key = entry.1
      · subst hkey
        rw [OrdMap.find?_upsert_self, hentry, List.mem_cons]
        have hnotMem : (entry.1, value) ∉ entries := fun hmem =>
          hnot (List.mem_map.mpr ⟨_, hmem, rfl⟩)
        simp [hnotMem, Prod.ext_iff, eq_comm]
      · have hne : (key, value) ≠ entry := fun heq => hkey (congrArg Prod.fst heq)
        rw [OrdMap.find?_upsert_of_ne _ _ hkey, List.mem_cons]
        simp [hne]
  exact (hput OrdMap.empty fun _ _ => rfl).trans (or_iff_left (by simp))

/-- **The loop over the lines** goes on as long as they make new entries. -/
theorem foldlM_contractLine {reader : Reader} {read : List Text} {n : ℕ}
    {values values' : Contract} :
    (read.zipIdx n).foldlM (contractLine reader) values = .ok values' ↔
      ∃ made, List.Forall₂ IsLine read made ∧ (made.reduceOption.map Prod.fst).Nodup ∧
        (∀ entry ∈ made.reduceOption, values.find? entry.1 = none) ∧
        values' = putAll made.reduceOption values := by
  induction read generalizing n values with
  | nil =>
    constructor
    · intro h
      obtain rfl := Except.ok.inj h
      exact ⟨[], .nil, List.nodup_nil, fun _ h => absurd h List.not_mem_nil, rfl⟩
    · rintro ⟨made, hmade, -, -, rfl⟩
      cases hmade
      rfl
  | cons line read ih =>
    rw [List.zipIdx_cons, List.foldlM_cons, except_bind_eq_ok]
    constructor
    · rintro ⟨values₁, hline, hread⟩
      obtain ⟨first, hfirst, hnew⟩ := isLine_of_contractLine hline
      obtain rfl := Except.ok.inj (hline.symm.trans (contractLine_of_isLine hfirst hnew))
      obtain ⟨made, hmade, hnodup, hfresh, rfl⟩ := ih.mp hread
      refine ⟨first :: made, .cons hfirst hmade, ?_⟩
      cases first with
      | none => exact ⟨hnodup, hfresh, rfl⟩
      | some entry =>
        rw [List.reduceOption_cons_of_some]
        have hne : ∀ other ∈ made.reduceOption, other.1 ≠ entry.1 := by
          intro other hother heq
          have hfind := hfresh other hother
          rw [heq, putLine, OrdMap.find?_upsert_self] at hfind
          cases hfind
        refine ⟨List.nodup_cons.mpr ⟨fun hmem => ?_, hnodup⟩, List.forall_mem_cons.mpr
          ⟨hnew entry rfl, fun other hother => ?_⟩, rfl⟩
        · obtain ⟨other, hother, heq⟩ := List.mem_map.mp hmem
          exact hne other hother heq
        · rw [← OrdMap.find?_upsert_of_ne values (fun _ => entry.2) (hne other hother)]
          exact hfresh other hother
    · rintro ⟨made, hmade, hnodup, hfresh, rfl⟩
      cases hmade with
      | @cons _ first _ made hfirst hmade =>
      cases first with
      | none =>
        exact ⟨values, contractLine_of_isLine hfirst (fun _ h => by cases h),
          ih.mpr ⟨made, hmade, hnodup, hfresh, rfl⟩⟩
      | some entry =>
        rw [List.reduceOption_cons_of_some] at hnodup hfresh ⊢
        obtain ⟨hnot, hnodup⟩ := List.nodup_cons.mp hnodup
        obtain ⟨hentry, hentries⟩ := List.forall_mem_cons.mp hfresh
        refine ⟨_, contractLine_of_isLine hfirst fun other hother => ?_,
          ih.mpr ⟨made, hmade, hnodup, fun other hother => ?_, rfl⟩⟩
        · obtain rfl := Option.some.inj hother
          exact hentry
        · have hne : other.1 ≠ entry.1 := fun heq => hnot (heq ▸ List.mem_map_of_mem hother)
          exact (OrdMap.find?_upsert_of_ne _ _ hne).trans (hentries other hother)

/-- **A contract is accepted exactly as it is written**: a file that opens, whose lines are blank,
comments and entries, no two with the same key; and what is returned is its entries. -/
theorem loadContract_eq_ok {reader : Reader} {file : Option Text} {values : Contract} :
    loadContract reader file = .ok values ↔
      ∃ text entries, file = some text ∧ IsContract entries text ∧ values = valuesOf entries := by
  cases file with
  | none => simp [loadContract]
  | some text =>
    rw [loadContract, foldlM_contractLine]
    constructor
    · rintro ⟨made, hmade, hnodup, -, rfl⟩
      exact ⟨text, _, rfl, ⟨⟨_, made, linesOf_lines text, hmade, rfl⟩, hnodup⟩, rfl⟩
    · rintro ⟨_, entries, hfile, ⟨⟨read, made, hread, hmade, rfl⟩, hnodup⟩, rfl⟩
      obtain rfl := Option.some.inj hfile
      obtain rfl := lines_eq_iff.mpr hread
      exact ⟨made, hmade, hnodup, fun _ _ => rfl, rfl⟩

/-- **A contract is refused for its first bad line**: one that is neither blank nor a comment and
makes no entry, or one whose key an earlier line has given. -/
theorem loadContract_eq_error {reader : Reader} {text : Text} {e : EngineError} :
    loadContract reader (some text) = .error e ↔
      ∃ before line behind made, LinesOf (before ++ line :: behind) text ∧
        List.Forall₂ IsLine before made ∧ (made.reduceOption.map Prod.fst).Nodup ∧
        (∀ entry, IsLine line entry → ∃ pair, entry = some pair ∧
          pair.1 ∈ made.reduceOption.map Prod.fst) ∧
        e = if equals ∈ trim line then invalidKey reader (before.length + 1)
          else invalidLine reader (before.length + 1) := by
  rw [loadContract, except_foldlM_eq_error]
  constructor
  · rintro ⟨numbered, ⟨line, n⟩, behind, values, hsplit, hbefore, hline⟩
    obtain ⟨before, rest, hlines, rfl, hrest⟩ := List.zipIdx_eq_append_iff.mp hsplit
    obtain ⟨line', behind', rfl, hhead, -⟩ := List.zipIdx_eq_cons_iff.mp hrest.symm
    obtain ⟨rfl, rfl⟩ := Prod.mk.inj hhead
    obtain ⟨made, hmade, hnodup, -, rfl⟩ := foldlM_contractLine.mp hbefore
    refine ⟨before, line, behind', made, hlines ▸ linesOf_lines text, hmade, hnodup,
      fun entry hentry => ?_, ?_⟩
    · by_contra hnone
      have hok := @contractLine_of_isLine reader _ _ (1 + before.length) _ hentry
        fun pair hpair => find?_putAll_of_notMem
          (fun hmem => hnone ⟨pair, hpair, hmem⟩) OrdMap.empty
      rw [hok] at hline
      cases hline
    · rw [contractLine_eq_error hline, Nat.add_comm 1]
  · rintro ⟨before, line, behind, made, hread, hmade, hnodup, hbad, rfl⟩
    have hsplit : (lines text).zipIdx 1 = before.zipIdx 1 ++
        (line, 1 + before.length) :: behind.zipIdx (1 + before.length + 1) := by
      rw [lines_eq_iff.mpr hread, List.zipIdx_append, List.zipIdx_cons]
    refine ⟨_, _, _, _, hsplit, foldlM_contractLine.mpr ⟨made, hmade, hnodup, fun _ _ => rfl, rfl⟩,
      ?_⟩
    cases hline : contractLine reader (putAll made.reduceOption OrdMap.empty)
        (line, 1 + before.length) with
    | error e => rw [contractLine_eq_error hline, Nat.add_comm 1]
    | ok values =>
      obtain ⟨entry, hentry, hnew⟩ := isLine_of_contractLine hline
      obtain ⟨pair, rfl, hmem⟩ := hbad entry hentry
      obtain ⟨other, hother, hkey⟩ := List.mem_map.mp hmem
      have hpair : (other.1, other.2) ∈ made.reduceOption := hother
      have hfind := (find?_valuesOf hnodup).mpr hpair
      rw [hkey, valuesOf, hnew pair rfl] at hfind
      cases hfind

/-- **The contract reader says what the file says**: it returns the entries of a well laid out file,
and of any other file the first line that is wrong, and how. -/
theorem loadContract_decides (reader : Reader) (text : Text) (values : Contract) (e : EngineError) :
    (loadContract reader (some text) = .ok values ↔
      ∃ entries, IsContract entries text ∧ values = valuesOf entries) ∧
    (loadContract reader (some text) = .error e ↔
      ∃ before line behind made, LinesOf (before ++ line :: behind) text ∧
        List.Forall₂ IsLine before made ∧ (made.reduceOption.map Prod.fst).Nodup ∧
        (∀ entry, IsLine line entry → ∃ pair, entry = some pair ∧
          pair.1 ∈ made.reduceOption.map Prod.fst) ∧
        e = if equals ∈ trim line then invalidKey reader (before.length + 1)
          else invalidLine reader (before.length + 1)) := by
  refine ⟨loadContract_eq_ok.trans ⟨?_, ?_⟩, loadContract_eq_error⟩
  · rintro ⟨_, entries, hfile, hentries, rfl⟩
    obtain rfl := Option.some.inj hfile
    exact ⟨entries, hentries, rfl⟩
  · rintro ⟨entries, hentries, rfl⟩
    exact ⟨text, entries, rfl, hentries, rfl⟩

/-! ## Values -/

end ContractFile

end FacLpr
