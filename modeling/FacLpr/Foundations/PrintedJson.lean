import FacLpr.Foundations.Json

/-!
# Foundations/PrintedJson — what a printed text reads as

A text is printed piece by piece, and some pieces may not be what they should be.  A piece that
reads as its value exactly under a condition (`Reads`) is used in an array or an object, which then
reads as its value exactly when every piece meets its own.
-/

namespace FacLpr

namespace Json

/-- What follows a value: no byte that would go on with a number. -/
def Stops (rest : Text) : Prop :=
  ∀ b ∈ rest.head?, isDigit b = false ∧ b ≠ 0x2E ∧ b ≠ 0x65 ∧ b ≠ 0x45

/-- A reader takes the text for the value when the condition holds, and nothing else for it. -/
structure Reads {α : Type} (reader : Text → Option (α × Text)) (text : Text) (ok : Prop)
    (value : α) : Prop where
  accepts : ok → ∀ rest, Stops rest → reader (text ++ rest) = some (value, rest)
  rejects : ¬ ok → ∀ rest, Stops rest → reader (text ++ rest) = none

/-- The first byte of the text is neither space nor the end of an array or an object. -/
def Starts (text : Text) : Prop :=
  ∃ b ∈ text.head?, isSpace b = false ∧ b ≠ closeBracket ∧ b ≠ closeBrace

/-- The text of a value, whatever is around it. -/
structure ReadsValue (text : Text) (ok : Prop) (value : Json) : Prop where
  starts : Starts text
  reads : ∀ depth, text.length ≤ depth → Reads (readValue depth) text ok value

theorem Reads.congr {α : Type} {reader : Text → Option (α × Text)} {text : Text} {ok ok' : Prop}
    {value : α} (h : Reads reader text ok value) (hok : ok ↔ ok') : Reads reader text ok' value :=
  propext hok ▸ h

theorem ReadsValue.congr {text : Text} {ok ok' : Prop} {value : Json}
    (h : ReadsValue text ok value) (hok : ok ↔ ok') : ReadsValue text ok' value := propext hok ▸ h

/-- A reader that reads the text whatever follows it, -/
theorem Reads.of_forall {α : Type} {reader : Text → Option (α × Text)} {text : Text} {value : α}
    (h : ∀ rest, Stops rest → reader (text ++ rest) = some (value, rest)) :
    Reads reader text True value := ⟨fun _ => h, fun hnot => absurd trivial hnot⟩

/-- and one that never does. -/
theorem Reads.never {α : Type} {reader : Text → Option (α × Text)} {text : Text} {value : α}
    (h : ∀ rest, Stops rest → reader (text ++ rest) = none) : Reads reader text False value :=
  ⟨False.elim, fun _ => h⟩

/-- A reader that begins like another one. -/
theorem Reads.map {α β : Type} {reader : Text → Option (α × Text)}
    {reader' : Text → Option (β × Text)} {text text' : Text} {ok : Prop} {value : α} (f : α → β)
    (h : Reads reader text ok value) (heq : ∀ rest, reader' (text' ++ rest) =
      (reader (text ++ rest)).map fun (value, t) => (f value, t)) :
    Reads reader' text' ok (f value) := by
  refine ⟨fun hok rest hrest => ?_, fun hnot rest hrest => ?_⟩
  · rw [heq, h.accepts hok rest hrest]
    rfl
  · rw [heq, h.rejects hnot rest hrest]
    rfl

theorem stops_nil : Stops [] := fun _ h => nomatch h

theorem stops_cons {b : Byte} {rest : Text}
    (h : isDigit b = false ∧ b ≠ 0x2E ∧ b ≠ 0x65 ∧ b ≠ 0x45) : Stops (b :: rest) := by
  rintro _ ⟨rfl⟩
  exact h

theorem stops_comma {rest : Text} : Stops (comma :: rest) := stops_cons (by decide)

/-- A text that starts a value is not empty, and its first byte closes nothing. -/
theorem Starts.exists_cons {text : Text} (h : Starts text) : ∃ b rest, text = b :: rest ∧
    isSpace b = false ∧ b ≠ closeBracket ∧ b ≠ closeBrace := by
  obtain ⟨b, hb, hstart⟩ := h
  cases text with
  | nil => exact nomatch hb
  | cons c rest =>
    cases hb
    exact ⟨b, rest, rfl, hstart⟩

theorem starts_of_cons {b : Byte} {rest : Text}
    (h : isSpace b = false ∧ b ≠ closeBracket ∧ b ≠ closeBrace) : Starts (b :: rest) :=
  ⟨b, rfl, h⟩

/-- A text that is not empty leaves a level to read it at. -/
theorem readsValue_of_cons {text rest : Text} {b : Byte} {ok : Prop} {value : Json}
    (htext : text = b :: rest) (hstart : isSpace b = false ∧ b ≠ closeBracket ∧ b ≠ closeBrace)
    (h : ∀ depth, rest.length ≤ depth → Reads (readValue (depth + 1)) text ok value) :
    ReadsValue text ok value := by
  refine ⟨htext ▸ starts_of_cons hstart, fun depth hdepth => ?_⟩
  rw [htext, List.length_cons] at hdepth
  obtain ⟨depth, rfl⟩ := Nat.exists_eq_succ_of_ne_zero (Nat.ne_zero_of_lt hdepth)
  exact h depth (Nat.le_of_succ_le_succ hdepth)

theorem Starts.append {text : Text} (h : Starts text) (rest : Text) : Starts (text ++ rest) := by
  obtain ⟨b, tail, rfl, hstart⟩ := h.exists_cons
  exact ⟨b, rfl, hstart⟩

theorem Starts.skipSpace {text : Text} (h : Starts text) : skipSpace text = text := by
  obtain ⟨b, rest, rfl, hspace, -⟩ := h.exists_cons
  exact List.dropWhile_cons_of_neg (by rw [hspace]; decide)

theorem skipSpace_cons {b : Byte} {rest : Text} (h : isSpace b = false) :
    Json.skipSpace (b :: rest) = b :: rest :=
  List.dropWhile_cons_of_neg (by rw [h]; decide)

/-! ## Arrays and objects -/

/-- Texts with a comma before each. -/
def behindCommas (texts : List Text) : Text := (texts.map (comma :: ·)).flatten

/-- Texts with commas between them. -/
def separated : List Text → Text
  | [] => []
  | text :: texts => text ++ behindCommas texts

/-- A comma stands between two texts. -/
theorem separated_cons_cons (text next : Text) (texts : List Text) :
    separated (text :: next :: texts) = text ++ comma :: separated (next :: texts) := by
  simp [separated, behindCommas]

section

variable {α β : Type} {reader : Text → Option (α × Text)} {close : Byte} {text : β → Text}
  {ok : β → Prop} {value : β → α}

/-- The items are no more than their bytes. -/
theorem length_le_length_separated (l : List β) (hstarts : ∀ b ∈ l, Starts (text b)) :
    l.length ≤ (separated (l.map text)).length := by
  induction l with
  | nil => exact Nat.zero_le _
  | cons b l ih =>
    obtain ⟨first, rest, htext, -⟩ := (hstarts b List.mem_cons_self).exists_cons
    have htail := ih fun b hb => hstarts b (List.mem_cons_of_mem _ hb)
    cases l with
    | nil => simp [separated, behindCommas, htext]
    | cons b' l =>
      rw [List.map_cons, List.map_cons, separated_cons_cons, htext]
      simp only [List.length_append, List.length_cons] at htail ⊢
      simp only [List.map_cons] at htail
      omega

/-- Items end in a failure where the first is none, -/
theorem readItems_of_none {t : Text} (h : reader (skipSpace t) = none) (count : ℕ) :
    readItems reader close (count + 1) t = none := by
  rw [readItems, h]
  rfl

/-- with one item where the list is closed behind it, -/
theorem readItems_of_close {t rest : Text} {first : α} (hspace : isSpace close = false)
    (h : reader (skipSpace t) = some (first, close :: rest)) (count : ℕ) :
    readItems reader close (count + 1) t = some ([first], rest) := by
  rw [readItems, h]
  simp [skipSpace_cons hspace]

/-- and go on behind a comma. -/
theorem readItems_of_comma {t rest : Text} {first : α} (hclose : close ≠ comma)
    (h : reader (skipSpace t) = some (first, comma :: rest)) (count : ℕ) :
    readItems reader close (count + 1) t =
      (readItems reader close count rest).map fun (others, t) => (first :: others, t) := by
  have hspace : isSpace comma = false := by decide
  rw [readItems, h]
  simp only [Option.bind_eq_bind, Option.bind_some, skipSpace_cons hspace, hclose.symm, if_false,
    if_true]
  cases readItems reader close count rest <;> rfl

/-- The last item, and the closing byte. -/
theorem reads_readItems_last (hspace : isSpace close = false)
    (hstop : ∀ rest, Stops (close :: rest)) {item : Text} {ok : Prop} {value : α}
    (hstart : Starts item) (hread : Reads reader item ok value) (count : ℕ) :
    Reads (readItems reader close (count + 1)) (item ++ [close]) ok [value] := by
  refine ⟨fun hok rest _ => ?_, fun hnot rest _ => ?_⟩
  · rw [List.append_assoc]
    refine readItems_of_close hspace ?_ count
    rw [(hstart.append _).skipSpace]
    exact hread.accepts hok _ (hstop rest)
  · rw [List.append_assoc]
    refine readItems_of_none ?_ count
    rw [(hstart.append _).skipSpace]
    exact hread.rejects hnot _ (hstop rest)

/-- An item with more behind it. -/
theorem reads_readItems_more (hclose : close ≠ comma) {item others : Text} {ok oks : Prop}
    {value : α} {values : List α} {count : ℕ} (hstart : Starts item)
    (hread : Reads reader item ok value)
    (hothers : Reads (readItems reader close count) others oks values) :
    Reads (readItems reader close (count + 1)) (item ++ comma :: others) (ok ∧ oks)
      (value :: values) := by
  by_cases hok : ok
  · have hmore : Reads (readItems reader close (count + 1)) (item ++ comma :: others) oks
        (value :: values) := hothers.map (value :: ·) fun rest => by
      rw [List.append_assoc]
      refine readItems_of_comma hclose ?_ count
      rw [(hstart.append _).skipSpace]
      exact hread.accepts hok _ stops_comma
    exact hmore.congr (and_iff_right hok).symm
  · refine ⟨fun hboth => absurd hboth.1 hok, fun _ rest _ => ?_⟩
    rw [List.append_assoc]
    refine readItems_of_none ?_ count
    rw [(hstart.append _).skipSpace]
    exact hread.rejects hok _ stops_comma

/-- **The items up to the closing byte** read as their values when each of them does. -/
theorem reads_readItems (hclose : close ≠ comma) (hspace : isSpace close = false)
    (hstop : ∀ rest, Stops (close :: rest)) (l : List β) (hne : l ≠ [])
    (hstarts : ∀ b ∈ l, Starts (text b)) (hreads : ∀ b ∈ l, Reads reader (text b) (ok b) (value b))
    (count : ℕ) (hcount : l.length ≤ count) :
    Reads (readItems reader close count) (separated (l.map text) ++ [close]) (∀ b ∈ l, ok b)
      (l.map value) := by
  induction l generalizing count with
  | nil => exact absurd rfl hne
  | cons b l ih =>
    obtain ⟨count, rfl⟩ := Nat.exists_eq_succ_of_ne_zero (Nat.ne_zero_of_lt hcount)
    obtain ⟨hstart, hstarts⟩ := List.forall_mem_cons.mp hstarts
    obtain ⟨hread, hreads⟩ := List.forall_mem_cons.mp hreads
    cases l with
    | nil =>
      have htext : separated ([b].map text) = text b := by simp [separated, behindCommas]
      rw [htext]
      exact (reads_readItems_last hspace hstop hstart hread count).congr
        List.forall_mem_singleton.symm
    | cons b' l =>
      have hothers := ih (List.cons_ne_nil _ _) hstarts hreads count
        (Nat.le_of_succ_le_succ hcount)
      rw [List.map_cons, List.map_cons, separated_cons_cons, List.append_assoc, List.cons_append]
      exact (reads_readItems_more hclose hstart hread hothers).congr List.forall_mem_cons.symm

/-- **A sequence is read back** exactly when each of its items is. -/
theorem reads_readSequence (hclose : close = closeBracket ∨ close = closeBrace) (l : List β)
    (hstarts : ∀ b ∈ l, Starts (text b))
    (hreads : ∀ b ∈ l, Reads reader (text b) (ok b) (value b)) :
    Reads (readSequence reader close) (separated (l.map text) ++ [close]) (∀ b ∈ l, ok b)
      (l.map value) := by
  have hcomma : close ≠ comma := by rcases hclose with rfl | rfl <;> decide
  have hspace : isSpace close = false := by rcases hclose with rfl | rfl <;> decide
  have hstop (rest : Text) : Stops (close :: rest) := by
    rcases hclose with rfl | rfl <;> exact stops_cons (by decide)
  cases l with
  | nil =>
    refine ⟨fun _ rest _ => ?_, fun hnot => absurd (fun _ h => nomatch h) hnot⟩
    simp [separated, readSequence, skipSpace_cons hspace]
  | cons b l =>
    have hlength := length_le_length_separated (b :: l) hstarts
    obtain ⟨first, others, htext, hfirst, hbracket, hbrace⟩ :=
      (hstarts b List.mem_cons_self).exists_cons
    -- the first item does not look like the end
    have hitems (rest : Text) : readSequence reader close
        (separated ((b :: l).map text) ++ [close] ++ rest) =
        readItems reader close (separated ((b :: l).map text) ++ [close] ++ rest).length
          (separated ((b :: l).map text) ++ [close] ++ rest) := by
      have hne : first ≠ close := by rcases hclose with rfl | rfl <;> assumption
      simp only [List.map_cons, separated, htext, List.cons_append]
      rw [readSequence, skipSpace_cons hfirst]
      exact if_neg hne
    have hreaditems (rest : Text) := reads_readItems hcomma hspace hstop (b :: l)
      (List.cons_ne_nil _ _) hstarts hreads
      (separated ((b :: l).map text) ++ [close] ++ rest).length (by
        simp only [List.length_append] at hlength ⊢
        omega)
    refine ⟨fun hok rest hrest => ?_, fun hnot rest hrest => ?_⟩
    · rw [hitems]
      exact (hreaditems rest).accepts hok rest hrest
    · rw [hitems]
      exact (hreaditems rest).rejects hnot rest hrest

end

theorem length_le_of_mem {texts : List Text} {text : Text} (h : text ∈ texts) :
    text.length ≤ (separated texts).length := by
  induction texts with
  | nil => exact nomatch h
  | cons first others ih =>
    rcases List.mem_cons.mp h with rfl | hmem
    · simp [separated, behindCommas]
    · cases others with
      | nil => exact nomatch hmem
      | cons next others =>
        have hle := ih hmem
        rw [separated_cons_cons]
        simp only [List.length_append, List.length_cons]
        omega

/-- An array as it is printed. -/
def arrayText (items : List Text) : Text := openBracket :: (separated items ++ [closeBracket])

/-- **An array reads as its items do.** -/
theorem readsValue_array {β : Type} (l : List β) {text : β → Text} {ok : β → Prop}
    {value : β → Json} (h : ∀ b ∈ l, ReadsValue (text b) (ok b) (value b)) :
    ReadsValue (arrayText (l.map text)) (∀ b ∈ l, ok b) (.array (l.map value)) := by
  refine readsValue_of_cons rfl (by decide) fun depth hdepth => ?_
  rw [List.length_append] at hdepth
  have hitem (b : β) (hb : b ∈ l) : Reads (readValue depth) (text b) (ok b) (value b) := by
    have hle := length_le_of_mem (List.mem_map_of_mem (f := text) hb)
    exact (h b hb).reads depth (by omega)
  have hitems := reads_readSequence (Or.inl rfl) l (fun b hb => (h b hb).starts) hitem
  exact hitems.map Json.array fun rest => rfl

/-! ## Strings -/

/-- Bytes that stand for themselves in a string. -/
def IsPlain (b : Byte) : Prop := 0x20 ≤ b ∧ b ≠ quotationMark ∧ b ≠ reverseSolidus

instance (b : Byte) : Decidable (IsPlain b) := inferInstanceAs (Decidable (_ ∧ _))

/-- A body between quotation marks. -/
def quoted (body : Text) : Text := quotationMark :: (body ++ [quotationMark])

/-- A string ends at its quotation mark. -/
theorem readUnits_quotationMark (rest : Text) :
    readUnits (quotationMark :: rest) = some ([], rest) := by
  rw [readUnits.eq_def]
  exact if_pos rfl

/-- A plain byte stands for itself, -/
theorem readUnits_plain {b : Byte} (h : IsPlain b) (rest : Text) :
    readUnits (b :: rest) =
      (readUnits rest).map fun (units, t) => (.plain b :: units, t) := by
  obtain ⟨hcontrol, hquote, hescape⟩ := h
  rw [readUnits.eq_def]
  simp only [hquote, hescape, not_lt.mpr hcontrol, if_false]
  cases readUnits rest <;> rfl

/-- a control byte may not stand in a string, -/
theorem readUnits_control {b : Byte} (h : b < 0x20) (rest : Text) :
    readUnits (b :: rest) = none := by
  have hquote : b ≠ quotationMark := ne_of_lt (h.trans (by decide))
  have hescape : b ≠ reverseSolidus := ne_of_lt (h.trans (by decide))
  rw [readUnits.eq_def]
  simp only [hquote, hescape, h, if_false, if_true]

/-- and an escape stands for its byte. -/
theorem readUnits_escape {letter b : Byte} (hletter : letter ≠ 0x75)
    (h : escapedBy letter = some b) (rest : Text) :
    readUnits (reverseSolidus :: letter :: rest) =
      (readUnits rest).map fun (units, t) => (.plain b :: units, t) := by
  have hquote : reverseSolidus ≠ quotationMark := by decide
  rw [readUnits.eq_def]
  simp only [hquote, hletter, h, if_false, if_true]
  cases readUnits rest <;> rfl

theorem decodeUnits_plain (value : Text) :
    decodeUnits (value.map .plain) = some value := by
  induction value with
  | nil => rfl
  | cons b value ih =>
    rw [List.map_cons, decodeUnits, ih]
    rfl

/-- A body is read for the bytes of a value, up to the closing quotation mark. -/
def ReadsBody (body : Text) (ok : Prop) (value : Text) : Prop :=
  Reads readUnits (body ++ [quotationMark]) ok (value.map .plain)

/-- A body of plain bytes stands for itself. -/
theorem readsBody_of_isPlain {body : Text} (h : ∀ b ∈ body, IsPlain b) :
    ReadsBody body True body := by
  induction body with
  | nil => exact Reads.of_forall fun rest _ => readUnits_quotationMark rest
  | cons b body ih =>
    have hread := ih fun c hc => h c (List.mem_cons_of_mem _ hc)
    exact hread.map (StringUnit.plain b :: ·) fun rest =>
      readUnits_plain (h b List.mem_cons_self) _

/-- **A string is read back** from its quoted body. -/
theorem ReadsBody.reads_readString {body value : Text} {ok : Prop} (h : ReadsBody body ok value) :
    Reads readString (quoted body) ok value := by
  refine ⟨fun hok rest hrest => ?_, fun hnot rest hrest => ?_⟩
  · have hunits := h.accepts hok rest hrest
    change readString (quotationMark :: (body ++ [quotationMark] ++ rest)) = _
    rw [readString, if_pos rfl, hunits]
    simp [decodeUnits_plain]
  · have hunits := h.rejects hnot rest hrest
    change readString (quotationMark :: (body ++ [quotationMark] ++ rest)) = _
    rw [readString, if_pos rfl, hunits]
    rfl

/-- **A quoted body is a string** when it reads as one. -/
theorem ReadsBody.readsValue {body value : Text} {ok : Prop} (h : ReadsBody body ok value) :
    ReadsValue (quoted body) ok (.string value) :=
  readsValue_of_cons rfl (by decide) fun _ _ => h.reads_readString.map Json.string fun _ => rfl

/-! ## Objects -/

/-- A member as it is printed. -/
def memberText (name text : Text) : Text := quoted name ++ colon :: text

/-- An object as it is printed. -/
def objectText (members : List Text) : Text := openBrace :: (separated members ++ [closeBrace])

theorem starts_memberText (name text : Text) : Starts (memberText name text) :=
  starts_of_cons (by decide)

/-- **A member is read back** when its value is. -/
theorem reads_readMember {reader : Text → Option (Json × Text)} {name text : Text} {ok : Prop}
    {value : Json} (hname : ∀ b ∈ name, IsPlain b) (hstarts : Starts text)
    (h : Reads reader text ok value) :
    Reads (readMember reader) (memberText name text) ok (name, value) := by
  have hcolon : isSpace colon = false := by decide
  have hstop (rest : Text) : Stops (colon :: rest) := stops_cons (by decide)
  have hstring := (readsBody_of_isPlain hname).reads_readString
  refine h.map (fun value => (name, value)) fun rest => ?_
  unfold memberText
  rw [List.append_assoc, List.cons_append, readMember,
    hstring.accepts trivial (colon :: (text ++ rest)) (hstop _)]
  simp only [Option.bind_eq_bind, Option.bind_some, skipSpace_cons hcolon, if_true,
    (hstarts.append rest).skipSpace]
  cases reader (text ++ rest) <;> rfl

/-- **An object reads as its members do.** -/
theorem readsValue_object {β : Type} (l : List β) {name text : β → Text} {ok : β → Prop}
    {value : β → Json} (hname : ∀ b ∈ l, ∀ c ∈ name b, IsPlain c)
    (h : ∀ b ∈ l, ReadsValue (text b) (ok b) (value b)) :
    ReadsValue (objectText (l.map fun b => memberText (name b) (text b))) (∀ b ∈ l, ok b)
      (.object (l.map fun b => (name b, value b))) := by
  refine readsValue_of_cons rfl (by decide) fun depth hdepth => ?_
  rw [List.length_append] at hdepth
  have hmember (b : β) (hb : b ∈ l) : Reads (readMember (readValue depth))
      (memberText (name b) (text b)) (ok b) (name b, value b) := by
    have hle := length_le_of_mem
      (List.mem_map_of_mem (f := fun b => memberText (name b) (text b)) hb)
    rw [memberText, List.length_append, List.length_cons] at hle
    exact reads_readMember (hname b hb) (h b hb).starts ((h b hb).reads depth (by omega))
  have hmembers := reads_readSequence (Or.inr rfl) l
    (fun b _ => starts_memberText (name b) (text b)) hmember
  exact hmembers.map Json.object fun rest => rfl

/-! ## Words and numbers -/

theorem readsValue_null : ReadsValue (ascii "null") True .null :=
  readsValue_of_cons rfl (by decide) fun _ _ => Reads.of_forall fun _ _ => rfl

theorem readsValue_bool (value : Bool) :
    ReadsValue (ascii (if value then "true" else "false")) True (.bool value) := by
  cases value
  · exact readsValue_of_cons rfl (by decide) fun _ _ => Reads.of_forall fun _ _ => rfl
  · exact readsValue_of_cons rfl (by decide) fun _ _ => Reads.of_forall fun _ _ => rfl

/-- A run of digits. -/
def AreDigits (t : Text) : Prop := t ≠ [] ∧ ∀ b ∈ t, isDigit b = true

/-- The digits before the point: a zero alone, or no zero first. -/
def IsInteger (t : Text) : Prop := t = [0x30] ∨ AreDigits t ∧ t.head? ≠ some 0x30

/-- The digits behind the point, if any. -/
def IsFraction (t : Text) : Prop := t = [] ∨ ∃ digits, AreDigits digits ∧ t = 0x2E :: digits

/-- An exponent with its sign. -/
def IsExponent (t : Text) : Prop :=
  t = [] ∨ ∃ sign digits, AreDigits digits ∧ (sign = 0x2B ∨ sign = 0x2D) ∧
    t = 0x65 :: sign :: digits

/-- A number by its parts. -/
structure IsNumeral (negative : Bool) (integer fraction exponent : Text) : Prop where
  integer : IsInteger integer
  fraction : IsFraction fraction
  exponent : IsExponent exponent

def signText (negative : Bool) : Text := if negative then [0x2D] else []

/-- A number, as it is printed. -/
def numberText (negative : Bool) (integer fraction exponent : Text) : Text :=
  signText negative ++ (integer ++ (fraction ++ exponent))

/-- No digit follows. -/
def NoDigit (rest : Text) : Prop := ∀ b ∈ rest.head?, isDigit b = false

theorem noDigit_cons {b : Byte} {rest : Text} (h : isDigit b = false) : NoDigit (b :: rest) := by
  rintro _ ⟨rfl⟩
  exact h

theorem Stops.noDigit {rest : Text} (h : Stops rest) : NoDigit rest := fun b hb => (h b hb).1

/-- Digits are read up to what is none, -/
theorem readDigits_append {digits rest : Text} (h : AreDigits digits) (hrest : NoDigit rest) :
    readDigits (digits ++ rest) = some (digits, rest) := by
  have htake : rest.takeWhile isDigit = [] := by
    cases rest with
    | nil => rfl
    | cons b rest => exact List.takeWhile_cons_of_neg (by rw [hrest b rfl]; decide)
  have hdrop : rest.dropWhile isDigit = rest := by
    cases rest with
    | nil => rfl
    | cons b rest => exact List.dropWhile_cons_of_neg (by rw [hrest b rfl]; decide)
  unfold readDigits
  rw [List.takeWhile_append_of_pos h.2, List.dropWhile_append_of_pos h.2, htake, hdrop,
    List.append_nil, if_neg h.1]

/-- the integer up to what is no digit, -/
theorem readInteger_append {integer rest : Text} (h : IsInteger integer) (hrest : NoDigit rest) :
    readInteger (integer ++ rest) = some (integer, rest) := by
  rcases h with rfl | ⟨hdigits, hhead⟩
  · rfl
  · cases integer with
    | nil => exact absurd rfl hdigits.1
    | cons b integer =>
      have hb : b ≠ 0x30 := fun heq => hhead (congrArg some heq)
      rw [← readDigits_append hdigits hrest]
      exact if_neg hb

/-- the fraction up to what is neither a digit nor a point, -/
theorem readFraction_append {fraction rest : Text} (h : IsFraction fraction)
    (hrest : NoDigit rest) (hpoint : ∀ b ∈ rest.head?, b ≠ 0x2E) :
    readFraction (fraction ++ rest) = some (fraction, rest) := by
  rcases h with rfl | ⟨digits, hdigits, rfl⟩
  · cases rest with
    | nil => rfl
    | cons b rest => exact if_neg (hpoint b rfl)
  · change (readDigits (digits ++ rest)).map _ = _
    rw [readDigits_append hdigits hrest]
    rfl

/-- and the exponent up to what may follow a number. -/
theorem readExponent_append {exponent rest : Text} (h : IsExponent exponent) (hrest : Stops rest) :
    readExponent (exponent ++ rest) = some (exponent, rest) := by
  rcases h with rfl | ⟨sign, digits, hdigits, hsign, rfl⟩
  · cases rest with
    | nil => rfl
    | cons b rest =>
      obtain ⟨-, -, he, hE⟩ := hrest b rfl
      exact if_neg (not_or.mpr ⟨he, hE⟩)
  · have hread := readDigits_append hdigits hrest.noDigit
    rcases hsign with rfl | rfl
    · change (readDigits (digits ++ rest)).map _ = _
      rw [hread]
      rfl
    · change (readDigits (digits ++ rest)).map _ = _
      rw [hread]
      rfl

section

variable {negative : Bool} {integer fraction exponent : Text}

theorem IsInteger.exists_cons (h : IsInteger integer) :
    ∃ b rest, integer = b :: rest ∧ isDigit b = true := by
  rcases h with rfl | ⟨⟨hne, hdigits⟩, -⟩
  · exact ⟨0x30, [], rfl, by decide⟩
  · cases integer with
    | nil => exact absurd rfl hne
    | cons b rest => exact ⟨b, rest, rfl, hdigits b List.mem_cons_self⟩

theorem ne_of_isDigit {b c : Byte} (hb : isDigit b = true) (hc : isDigit c = false) : b ≠ c := by
  rintro rfl
  exact Bool.false_ne_true (hc.symm.trans hb)

theorem readOptional_minus (h : IsInteger integer) (rest : Text) :
    readOptional (· == 0x2D) (signText negative ++ (integer ++ rest)) =
      (signText negative, integer ++ rest) := by
  cases negative with
  | true => rfl
  | false =>
    obtain ⟨b, tail, rfl, hb⟩ := h.exists_cons
    have hminus : (b == 0x2D) = false := beq_false_of_ne (ne_of_isDigit hb (by decide))
    change readOptional _ (b :: (tail ++ rest)) = _
    rw [readOptional, hminus]
    rfl

/-- **A number is read whole.** -/
theorem IsNumeral.readNumber_eq (h : IsNumeral negative integer fraction exponent) {rest : Text}
    (hrest : Stops rest) :
    readNumber (numberText negative integer fraction exponent ++ rest) =
      some (numberText negative integer fraction exponent, rest) := by
  -- what stands behind each part does not go on with it
  have hexponent : NoDigit (exponent ++ rest) ∧ ∀ b ∈ (exponent ++ rest).head?, b ≠ 0x2E := by
    rcases h.exponent with rfl | ⟨sign, digits, -, -, rfl⟩
    · exact ⟨hrest.noDigit, fun b hb => (hrest b hb).2.1⟩
    · refine ⟨noDigit_cons (by decide), ?_⟩
      rintro _ ⟨rfl⟩
      decide
  have hfraction : NoDigit (fraction ++ (exponent ++ rest)) := by
    rcases h.fraction with rfl | ⟨digits, -, rfl⟩
    · exact hexponent.1
    · exact noDigit_cons (by decide)
  unfold numberText
  simp only [List.append_assoc]
  rw [readNumber, readOptional_minus h.integer]
  simp only [readInteger_append h.integer hfraction,
    readFraction_append h.fraction hexponent.1 hexponent.2,
    readExponent_append h.exponent hrest, Option.bind_eq_bind, Option.bind_some,
    Option.pure_def, List.append_assoc]

/-- The byte a number starts with. -/
theorem IsNumeral.exists_cons (h : IsNumeral negative integer fraction exponent) :
    ∃ b rest, numberText negative integer fraction exponent = b :: rest ∧
      ∀ c, c ≠ 0x2D → isDigit c = false → b ≠ c := by
  cases negative with
  | true => exact ⟨0x2D, _, rfl, fun c hc _ => hc.symm⟩
  | false =>
    obtain ⟨b, rest, rfl, hb⟩ := h.integer.exists_cons
    exact ⟨b, _, rfl, fun c _ hc => ne_of_isDigit hb hc⟩

/-- **A numeral is read back**, as the text it is. -/
theorem IsNumeral.readsValue (h : IsNumeral negative integer fraction exponent) :
    ReadsValue (numberText negative integer fraction exponent) True
      (.number (numberText negative integer fraction exponent)) := by
  obtain ⟨b, tail, htext, hb⟩ := h.exists_cons
  have hspace : isSpace b = false := by
    unfold isSpace
    simp only [Bool.or_eq_false_iff, beq_eq_false_iff_ne]
    refine ⟨⟨⟨?_, ?_⟩, ?_⟩, ?_⟩
    all_goals exact hb _ (by decide) (by decide)
  refine readsValue_of_cons htext
    ⟨hspace, hb _ (by decide) (by decide), hb _ (by decide) (by decide)⟩ fun depth _ => ?_
  refine Reads.of_forall fun rest hrest => ?_
  have hnumber := h.readNumber_eq hrest
  rw [htext, List.cons_append] at hnumber ⊢
  rw [readValue, if_neg (hb _ (by decide) (by decide)), if_neg (hb _ (by decide) (by decide)),
    if_neg (hb _ (by decide) (by decide)), if_neg (hb _ (by decide) (by decide)),
    if_neg (hb _ (by decide) (by decide)), if_neg (hb _ (by decide) (by decide)), hnumber]
  rfl

end

/-! ## Texts -/

/-- **A text parses** exactly when its value reads. -/
theorem ReadsValue.parse_eq {text rest : Text} {ok : Prop} {value : Json}
    (h : ReadsValue text ok value) (hrest : Stops rest) (hspace : Json.skipSpace rest = []) :
    (ok → parse (text ++ rest) = some value) ∧ (¬ ok → parse (text ++ rest) = none) := by
  have hread := h.reads (text ++ rest).length (by rw [List.length_append]; omega)
  constructor
  · intro hok
    rw [parse, (h.starts.append rest).skipSpace, hread.accepts hok rest hrest]
    simp [hspace]
  · intro hnot
    rw [parse, (h.starts.append rest).skipSpace, hread.rejects hnot rest hrest]
    rfl

/-! ## Printed values -/

/-- A value as it is printed: its text is read as the value exactly when the condition holds. -/
structure Printed where
  text : Text
  ok : Prop
  value : Json
  reads : ReadsValue text ok value

/-- A text that stands for itself in a string. -/
abbrev PlainText := {text : Text // ∀ b ∈ text, IsPlain b}

namespace Printed

def null : Printed := ⟨_, _, _, readsValue_null⟩

def bool (value : Bool) : Printed := ⟨_, _, _, readsValue_bool value⟩

/-- A string of plain bytes. -/
def word (text : PlainText) : Printed := ⟨_, _, _, (readsBody_of_isPlain text.2).readsValue⟩

def array (items : List Printed) : Printed :=
  ⟨_, _, _, readsValue_array items fun item _ => item.reads⟩

def object (members : List (PlainText × Printed)) : Printed :=
  ⟨_, _, _, readsValue_object members (fun member _ => member.1.2) fun member _ => member.2.reads⟩

@[simp] theorem text_bool (value : Bool) :
    (bool value).text = ascii (if value then "true" else "false") := rfl

@[simp] theorem text_word (text : PlainText) : (word text).text = quoted text := rfl

@[simp] theorem text_array (items : List Printed) :
    (array items).text = arrayText (items.map Printed.text) := rfl

@[simp] theorem text_object (members : List (PlainText × Printed)) :
    (object members).text =
      objectText (members.map fun member => memberText member.1 member.2.text) := rfl

@[simp] theorem ok_null : null.ok ↔ True := Iff.rfl

@[simp] theorem ok_bool (value : Bool) : (bool value).ok ↔ True := Iff.rfl

@[simp] theorem ok_word (text : PlainText) : (word text).ok ↔ True := Iff.rfl

@[simp] theorem ok_array (items : List Printed) : (array items).ok ↔ ∀ item ∈ items, item.ok :=
  Iff.rfl

@[simp] theorem ok_object (members : List (PlainText × Printed)) :
    (object members).ok ↔ ∀ member ∈ members, member.2.ok := Iff.rfl

end Printed

end Json

end FacLpr
