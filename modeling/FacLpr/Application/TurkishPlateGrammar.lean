import FacLpr.Application.Error
import FacLpr.Foundations.Text
import Mathlib.Data.List.TakeWhile

/-!
# Application/TurkishPlateGrammar — the plate grammar and its prefix oracle

A normalized plate is a province code `01`–`81`, one to three letters, then digits whose number
depends on the number of letters.  `isValidPrefix_iff` reads the prefix oracle back as that shape
cut short, from which it is closed under dropping the last character — what the beam search needs
of it.
-/

namespace FacLpr

def isAsciiDigit (value : Byte) : Bool := byte '0' ≤ value ∧ value ≤ byte '9'

def isAsciiSpace (value : Byte) : Bool :=
  value == byte ' ' || value == byte '\t' || value == byte '\r' || value == byte '\n'

def asciiUpper (value : Byte) : Byte :=
  if byte 'a' ≤ value ∧ value ≤ byte 'z' then value - (byte 'a' - byte 'A') else value

def allowedDigitCount (letterCount digitCount : ℕ) : Bool :=
  match letterCount with
  | 1 => digitCount == 4 || digitCount == 5
  | 2 => digitCount == 3 || digitCount == 4
  | 3 => digitCount == 2 || digitCount == 3
  | _ => false

def maximumDigitCount (letterCount : ℕ) : ℕ :=
  match letterCount with
  | 1 => 5
  | 2 => 4
  | 3 => 3
  | _ => 0

structure TurkishPlateGrammarConfig where
  allowedLetters : Text := ascii "ABCDEFGHIJKLMNOPRSTUVYZ"
  stripAsciiWhitespace : Bool := true
  stripHyphen : Bool := true
  maximumInputLength : ℕ := 32
  deriving DecidableEq

namespace TurkishPlateGrammarConfig

/-- The constructor's loop over the letters: each one is an ASCII letter once uppercased, and not
one already seen. -/
def lettersUnique : Text → Text → Bool
  | _, [] => true
  | seen, raw :: rest =>
      let value := asciiUpper raw
      if 128 ≤ value ∨ value < byte 'A' ∨ byte 'Z' < value ∨ value ∈ seen then false
      else lettersUnique (value :: seen) rest

/-- The checks of the grammar's constructor. -/
def check (config : TurkishPlateGrammarConfig) : Except EngineError Unit := do
  require (config.allowedLetters ≠ [] ∧ config.allowedLetters.length ≤ 26 ∧
      config.maximumInputLength ≠ 0 ∧ config.maximumInputLength ≤ 256)
    (configurationError "Turkish plate grammar configuration is invalid")
  require (lettersUnique [] config.allowedLetters)
    (configurationError "Turkish plate allowed letter set must contain unique ASCII letters")

end TurkishPlateGrammarConfig

/-- A grammar its constructor accepted. -/
structure TurkishPlateGrammar where
  config : TurkishPlateGrammarConfig
  accepted : config.check = .ok ()

namespace TurkishPlateGrammar

/-- The grammar of the default configuration. -/
def default : TurkishPlateGrammar := ⟨{}, by decide⟩

variable (g : TurkishPlateGrammar)

/-- The loop of `normalize`; `none` is its early return on a non-ASCII byte. -/
def normalizeBytes : Text → Option Text
  | [] => some []
  | raw :: rest =>
      if 128 ≤ raw then none
      else if g.config.stripAsciiWhitespace && isAsciiSpace raw then normalizeBytes rest
      else if g.config.stripHyphen && raw == byte '-' then normalizeBytes rest
      else (normalizeBytes rest).map (asciiUpper raw :: ·)

def normalize (text : Text) : Text :=
  if g.config.maximumInputLength < text.length then []
  else (g.normalizeBytes text).getD []

def isAllowedLetter (value : Byte) : Bool :=
  value < 128 ∧ value ∈ g.config.allowedLetters.map asciiUpper

/-- The two-digit province code. -/
def codeOf (d₀ d₁ : Byte) : ℕ := (d₀.toNat - (byte '0').toNat) * 10 + (d₁.toNat - (byte '0').toNat)

/-- The letter loop: the number of letters and what follows them, or `none` past three letters. -/
def scanLetters : Text → ℕ → Option (ℕ × Text)
  | [], count => some (count, [])
  | value :: rest, count =>
      if g.isAllowedLetter value then
        if 3 < count + 1 then none else scanLetters rest (count + 1)
      else some (count, value :: rest)

/-- What is left after the digit loop. -/
def skipDigits (text : Text) : Text := text.dropWhile isAsciiDigit

def isValidNormalized (normalized : Text) : Bool :=
  if normalized.length < 6 ∨ 8 < normalized.length then false
  else
    match normalized with
    | d₀ :: d₁ :: rest =>
        if !isAsciiDigit d₀ || !isAsciiDigit d₁ then false
        else if codeOf d₀ d₁ < 1 ∨ 81 < codeOf d₀ d₁ then false
        else
          match g.scanLetters rest 0 with
          | none => false
          | some (letterCount, tail) =>
              if letterCount = 0 then false
              else if skipDigits tail ≠ [] then false
              else allowedDigitCount letterCount tail.length
    | _ => false

def isValid (text : Text) : Bool :=
  !(g.normalize text).isEmpty && g.isValidNormalized (g.normalize text)

/-- The checks `is_valid_prefix` makes on the normalized text. -/
def isValidPrefixNormalized (normalized : Text) : Bool :=
  if normalized.isEmpty ∨ 8 < normalized.length then false
  else
    match normalized with
    | [] => false
    | d₀ :: after =>
        if !isAsciiDigit d₀ then false
        else
          match after with
          | [] => byte '0' ≤ d₀ ∧ d₀ ≤ byte '8'
          | d₁ :: rest =>
              if !isAsciiDigit d₁ then false
              else if codeOf d₀ d₁ < 1 ∨ 81 < codeOf d₀ d₁ then false
              else if rest.isEmpty then true
              else
                match g.scanLetters rest 0 with
                | none => false
                | some (letterCount, tail) =>
                    if letterCount = 0 then false
                    else if tail.isEmpty then true
                    else if skipDigits tail ≠ [] then false
                    else 0 < tail.length ∧ tail.length ≤ maximumDigitCount letterCount

def isValidPrefix (pre : Text) : Bool :=
  if pre.isEmpty then true else g.isValidPrefixNormalized (g.normalize pre)

/-! ## What the constructor guarantees of the letters -/

theorem bounds_of_lettersUnique : ∀ {seen letters : Text},
    TurkishPlateGrammarConfig.lettersUnique seen letters = true →
      ∀ v ∈ letters.map asciiUpper, byte 'A' ≤ v ∧ v ≤ byte 'Z'
  | _, [], _, v, hv => absurd hv (by simp)
  | seen, raw :: rest, h, v, hv => by
      rw [TurkishPlateGrammarConfig.lettersUnique] at h
      split at h
      · cases h
      · rename_i hok
        simp only [not_or, not_lt] at hok
        rcases List.mem_cons.mp hv with rfl | hv
        · exact ⟨hok.2.1, hok.2.2.1⟩
        · exact bounds_of_lettersUnique h v hv

variable {g}

/-- The length limit the constructor accepted is positive. -/
theorem maximumInputLength_pos : 0 < g.config.maximumInputLength := by
  obtain ⟨_, h, _⟩ := except_bind_eq_ok.mp g.accepted
  simp only [require_eq_ok, decide_eq_true_eq] at h
  omega

/-- An allowed letter is an ASCII capital. -/
theorem isAllowedLetter_bounds {v : Byte} (h : g.isAllowedLetter v = true) :
    byte 'A' ≤ v ∧ v ≤ byte 'Z' := by
  obtain ⟨_, _, hletters⟩ := except_bind_eq_ok.mp g.accepted
  simp only [isAllowedLetter, decide_eq_true_eq] at h
  exact bounds_of_lettersUnique (require_eq_ok.mp hletters) v h.2

/-- No digit is an allowed letter. -/
theorem isAllowedLetter_of_isAsciiDigit {v : Byte} (h : isAsciiDigit v = true) :
    g.isAllowedLetter v = false := by
  refine Bool.eq_false_iff.mpr fun hl => ?_
  have hA := (isAllowedLetter_bounds hl).1
  simp only [isAsciiDigit, decide_eq_true_eq] at h
  exact absurd (le_trans hA h.2) (by decide)

/-! ## The letter loop -/

/-- **The letter loop splits the text after its leading letters.** -/
theorem scanLetters_append : ∀ {letters tail : Text} {count : ℕ},
    (∀ v ∈ letters, g.isAllowedLetter v = true) → (∀ v ∈ tail.head?, g.isAllowedLetter v = false) →
      count + letters.length ≤ 3 →
        g.scanLetters (letters ++ tail) count = some (count + letters.length, tail)
  | [], [], count, _, _, _ => rfl
  | [], v :: tail, count, _, htail, _ => by
      rw [List.nil_append, scanLetters, htail v rfl]
      rfl
  | v :: letters, tail, count, hl, htail, hlen => by
      rw [List.length_cons] at hlen
      rw [List.cons_append, scanLetters, if_pos (hl v List.mem_cons_self), if_neg (by omega),
        scanLetters_append (fun w hw => hl w (List.mem_cons_of_mem _ hw)) htail (by omega),
        List.length_cons, Nat.add_right_comm, Nat.add_assoc]

/-- …and what it returns is such a split. -/
theorem scanLetters_eq_some : ∀ {text tail : Text} {count total : ℕ},
    g.scanLetters text count = some (total, tail) → count ≤ 3 →
      ∃ letters, text = letters ++ tail ∧ (∀ v ∈ letters, g.isAllowedLetter v = true) ∧
        total = count + letters.length ∧ total ≤ 3
  | [], tail, count, total, h, hcount => by
      simp only [scanLetters, Option.some.injEq, Prod.mk.injEq] at h
      obtain ⟨rfl, rfl⟩ := h
      exact ⟨[], rfl, by simp, by simp, hcount⟩
  | v :: text, tail, count, total, h, hcount => by
      rw [scanLetters] at h
      split at h
      · rename_i hv
        split at h
        · cases h
        · obtain ⟨letters, rfl, hl, htotal, hle⟩ := scanLetters_eq_some h (by omega)
          refine ⟨v :: letters, rfl, ?_, by rw [htotal, List.length_cons]; omega, hle⟩
          intro w hw
          rcases List.mem_cons.mp hw with rfl | hw
          · exact hv
          · exact hl w hw
      · simp only [Option.some.injEq, Prod.mk.injEq] at h
        obtain ⟨rfl, rfl⟩ := h
        exact ⟨[], rfl, by simp, by simp, hcount⟩

theorem skipDigits_eq_nil {text : Text} :
    skipDigits text = [] ↔ ∀ v ∈ text, isAsciiDigit v = true := List.dropWhile_eq_nil_iff

/-- Digits start with no letter. -/
theorem head_not_letter {digits : Text} (h : ∀ v ∈ digits, isAsciiDigit v = true) :
    ∀ v ∈ digits.head?, g.isAllowedLetter v = false := fun v hv =>
  isAllowedLetter_of_isAsciiDigit (h v (List.mem_of_mem_head? hv))

/-- **The two loops** split a text into its letters and digits, and nothing else. -/
theorem scanned_iff {rest tail : Text} {count : ℕ} :
    g.scanLetters rest 0 = some (count, tail) ∧ skipDigits tail = [] ↔
      ∃ letters, rest = letters ++ tail ∧ (∀ v ∈ letters, g.isAllowedLetter v = true) ∧
        (∀ v ∈ tail, isAsciiDigit v = true) ∧ letters.length = count ∧ count ≤ 3 := by
  constructor
  · rintro ⟨hscan, hskip⟩
    obtain ⟨letters, hrest, hl, htotal, hle⟩ := scanLetters_eq_some hscan (by omega)
    exact ⟨letters, hrest, hl, skipDigits_eq_nil.mp hskip, by omega, hle⟩
  · rintro ⟨letters, rfl, hl, hd, rfl, hle⟩
    refine ⟨?_, skipDigits_eq_nil.mpr hd⟩
    rw [scanLetters_append hl (head_not_letter hd) (by omega), Nat.zero_add]

/-! ## The shape of a plate, and of its prefixes -/

/-- A plate cut short after its province code: one to three letters, then no more digits than the
letters allow. -/
def BodyPrefix (g : TurkishPlateGrammar) (rest : Text) : Prop :=
  rest = [] ∨ ∃ letters digits, rest = letters ++ digits ∧
    (∀ v ∈ letters, g.isAllowedLetter v = true) ∧ (∀ v ∈ digits, isAsciiDigit v = true) ∧
    1 ≤ letters.length ∧ letters.length ≤ 3 ∧ digits.length ≤ maximumDigitCount letters.length

/-- A two-digit province code. -/
def IsProvince (d₀ d₁ : Byte) : Prop :=
  isAsciiDigit d₀ = true ∧ isAsciiDigit d₁ = true ∧ 1 ≤ codeOf d₀ d₁ ∧ codeOf d₀ d₁ ≤ 81

theorem maximumDigitCount_le {n : ℕ} (h1 : 1 ≤ n) : n + maximumDigitCount n ≤ 6 ∨ 3 < n := by
  match n with
  | 1 | 2 | 3 => decide
  | n + 4 => omega

theorem le_maximumDigitCount {n d : ℕ} (h : allowedDigitCount n d = true) :
    d ≤ maximumDigitCount n := by
  match n with
  | 0 => simp [allowedDigitCount] at h
  | 1 | 2 | 3 =>
    simp only [allowedDigitCount, Bool.or_eq_true, beq_iff_eq] at h
    simp only [maximumDigitCount]
    omega
  | n + 4 => simp [allowedDigitCount] at h

theorem BodyPrefix.length_le {rest : Text} (h : g.BodyPrefix rest) : rest.length ≤ 6 := by
  rcases h with rfl | ⟨letters, digits, rfl, -, -, h1, h3, hd⟩
  · simp
  · have := maximumDigitCount_le h1
    rw [List.length_append]
    omega

/-- **The prefix oracle past the province code accepts exactly the cut-short plates.** -/
theorem isValidPrefixNormalized_iff {d₀ d₁ : Byte} {rest : Text} :
    g.isValidPrefixNormalized (d₀ :: d₁ :: rest) = true ↔ IsProvince d₀ d₁ ∧ g.BodyPrefix rest := by
  constructor
  · intro h
    simp only [isValidPrefixNormalized, List.isEmpty_cons] at h
    split at h
    · cases h
    split at h
    · cases h
    rename_i hd₀
    split at h
    · cases h
    rename_i hd₁
    split at h
    · cases h
    rename_i hcode
    refine ⟨⟨by simpa using hd₀, by simpa using hd₁, by omega, by omega⟩, ?_⟩
    split at h
    · rename_i hnil
      exact Or.inl (List.isEmpty_iff.mp hnil)
    split at h
    · cases h
    rename_i count tail hscan
    split at h
    · cases h
    rename_i hne
    -- An empty tail is accepted before the digits are looked at.
    have hdigits : skipDigits tail = [] ∧ tail.length ≤ maximumDigitCount count := by
      split at h
      · rename_i hnil
        rw [List.isEmpty_iff.mp hnil]
        exact ⟨rfl, Nat.zero_le _⟩
      split at h
      · cases h
      rename_i hskip
      exact ⟨not_not.mp hskip, (of_decide_eq_true h).2⟩
    obtain ⟨letters, rfl, hl, hd, rfl, hle⟩ := scanned_iff.mp ⟨hscan, hdigits.1⟩
    exact Or.inr ⟨letters, tail, rfl, hl, hd, Nat.one_le_iff_ne_zero.mpr hne, hle, hdigits.2⟩
  · rintro ⟨⟨hd₀, hd₁, hlo, hhi⟩, hbody⟩
    have hlen := hbody.length_le
    have h8 : ¬ (8 < (d₀ :: d₁ :: rest).length) := by simp only [List.length_cons]; omega
    simp only [isValidPrefixNormalized, List.isEmpty_cons, hd₀, hd₁, Bool.not_true,
      Bool.false_eq_true, if_false, false_or, h8,
        show ¬ (codeOf d₀ d₁ < 1 ∨ 81 < codeOf d₀ d₁) by omega]
    rcases hbody with rfl | ⟨letters, digits, rfl, hl, hd, h1, h3, hmax⟩
    · rfl
    · obtain ⟨hscan, hskip⟩ := scanned_iff.mpr ⟨letters, rfl, hl, hd, rfl, h3⟩
      have hne : letters ++ digits ≠ [] := by
        intro h
        rw [List.append_eq_nil_iff] at h
        rw [h.1] at h1
        exact absurd h1 (by simp)
      rw [if_neg (by simpa using hne), hscan]
      simp only [show letters.length ≠ 0 by omega, if_false, hskip, ne_eq, not_true_eq_false]
      by_cases hnil : digits = []
      · simp [hnil]
      · have hpos : 0 < digits.length := List.length_pos_iff.mpr hnil
        simp [hnil, hpos, hmax]

/-- A plate after its province code: letters, then as many digits as they allow. -/
def Body (g : TurkishPlateGrammar) (rest : Text) : Prop :=
  ∃ letters digits, rest = letters ++ digits ∧ (∀ v ∈ letters, g.isAllowedLetter v = true) ∧
    (∀ v ∈ digits, isAsciiDigit v = true) ∧
    allowedDigitCount letters.length digits.length = true

theorem bounds_of_allowedDigitCount {n d : ℕ} (h : allowedDigitCount n d = true) :
    1 ≤ n ∧ n ≤ 3 ∧ 4 ≤ n + d ∧ n + d ≤ 6 := by
  match n with
  | 0 => simp [allowedDigitCount] at h
  | 1 | 2 | 3 =>
    simp only [allowedDigitCount, Bool.or_eq_true, beq_iff_eq] at h
    omega
  | n + 4 => simp [allowedDigitCount] at h

/-- The rest of a plate is not cut too short to be one. -/
theorem Body.bodyPrefix {rest : Text} (h : g.Body rest) : g.BodyPrefix rest := by
  obtain ⟨letters, digits, rfl, hl, hd, hcount⟩ := h
  obtain ⟨h1, h3, -, -⟩ := bounds_of_allowedDigitCount hcount
  exact Or.inr ⟨letters, digits, rfl, hl, hd, h1, h3, le_maximumDigitCount hcount⟩

/-- **The scanner past the province code accepts letters and the digits they allow.** -/
theorem isValidNormalized_cons_iff {d₀ d₁ : Byte} {rest : Text} :
    g.isValidNormalized (d₀ :: d₁ :: rest) = true ↔ IsProvince d₀ d₁ ∧ g.Body rest := by
  constructor
  · intro h
    rw [isValidNormalized] at h
    split at h
    · cases h
    split at h
    · cases h
    rename_i hd
    split at h
    · cases h
    rename_i hcode
    split at h
    · cases h
    rename_i count tail hscan
    split at h
    · cases h
    rename_i hne
    split at h
    · cases h
    rename_i hskip
    obtain ⟨letters, rfl, hl, hdigits, rfl, -⟩ := scanned_iff.mp ⟨hscan, not_not.mp hskip⟩
    simp only [Bool.or_eq_true, Bool.not_eq_true', not_or, Bool.not_eq_false] at hd
    exact ⟨⟨hd.1, hd.2, by omega, by omega⟩, letters, tail, rfl, hl, hdigits, h⟩
  · rintro ⟨⟨hd₀, hd₁, hlo, hhi⟩, letters, digits, rfl, hl, hd, hcount⟩
    obtain ⟨h1, h3, h4, h6⟩ := bounds_of_allowedDigitCount hcount
    have hlen : ¬ ((d₀ :: d₁ :: (letters ++ digits)).length < 6 ∨
        8 < (d₀ :: d₁ :: (letters ++ digits)).length) := by
      simp only [List.length_cons, List.length_append]
      omega
    obtain ⟨hscan, hskip⟩ := scanned_iff.mpr ⟨letters, rfl, hl, hd, rfl, h3⟩
    rw [isValidNormalized, if_neg hlen]
    simp only [hd₀, hd₁, Bool.not_true, Bool.or_self, Bool.false_eq_true, if_false,
      show ¬ (codeOf d₀ d₁ < 1 ∨ 81 < codeOf d₀ d₁) by omega, hscan,
      show letters.length ≠ 0 by omega, hskip, ne_eq, not_true_eq_false, hcount]

/-- **A plate is a cut-short plate.** -/
theorem isValidPrefixNormalized_of_isValidNormalized {p : Text}
    (h : g.isValidNormalized p = true) : g.isValidPrefixNormalized p = true := by
  match p, h with
  | [], h | [_], h => simp [isValidNormalized] at h
  | d₀ :: d₁ :: rest, h =>
    obtain ⟨hprovince, hbody⟩ := isValidNormalized_cons_iff.mp h
    exact isValidPrefixNormalized_iff.mpr ⟨hprovince, hbody.bodyPrefix⟩

theorem BodyPrefix.of_concat {rest : Text} {c : Byte} (h : g.BodyPrefix (rest ++ [c])) :
    g.BodyPrefix rest := by
  rcases h with h | ⟨letters, digits, heq, hl, hd, h1, h3, hmax⟩
  · exact absurd h (by simp)
  rcases List.eq_nil_or_concat digits with rfl | ⟨ds, x, rfl⟩
  · rw [List.append_nil] at heq
    subst heq
    rcases List.eq_nil_or_concat rest with rfl | ⟨ls, y, rfl⟩
    · exact Or.inl rfl
    · rw [List.length_append, List.length_singleton] at h3
      refine Or.inr ⟨ls.concat y, [], by simp, fun v hv => hl v (List.mem_append_left _ hv),
        by simp, by simp, by omega, by simp⟩
  · rw [List.concat_eq_append, ← List.append_assoc] at heq
    obtain ⟨rfl, -⟩ := List.append_inj' heq rfl
    rw [List.concat_eq_append, List.length_append] at hmax
    exact Or.inr ⟨letters, ds, rfl, hl, fun v hv => hd v (by simp [hv]), h1, h3, by omega⟩

/-- A province code starts with one of the digits `0`–`8`. -/
theorem IsProvince.first_le {a b : Byte} (h : IsProvince a b) : byte '0' ≤ a ∧ a ≤ byte '8' := by
  obtain ⟨ha, -, -, hcode⟩ := h
  simp only [isAsciiDigit, decide_eq_true_eq] at ha
  refine ⟨ha.1, ?_⟩
  simp only [codeOf, show (byte '0').toNat = 48 by decide] at hcode
  rw [UInt8.le_iff_toNat_le, show (byte '8').toNat = 56 by decide]
  omega

/-- **Dropping the last character of a cut-short plate leaves one**, or nothing. -/
theorem isValidPrefixNormalized_of_concat {p : Text} {c : Byte}
    (h : g.isValidPrefixNormalized (p ++ [c]) = true) :
    p = [] ∨ g.isValidPrefixNormalized p = true := by
  match p, h with
  | [], _ => exact Or.inl rfl
  | [a], h =>
    have hp := (isValidPrefixNormalized_iff.mp h).1
    exact Or.inr (by simp [isValidPrefixNormalized, hp.1, hp.first_le])
  | a :: b :: rest, h =>
    obtain ⟨hp, hbody⟩ := isValidPrefixNormalized_iff.mp h
    exact Or.inr (isValidPrefixNormalized_iff.mpr ⟨hp, hbody.of_concat⟩)

/-! ## Texts that normalization leaves unchanged -/

/-- **A text over unchanged characters is unchanged**, as long as it is short enough. -/
theorem normalize_eq_self {p : Text} (hp : ∀ c ∈ p, g.normalize [c] = [c])
    (hlen : p.length ≤ g.config.maximumInputLength) : g.normalize p = p := by
  have key : ∀ q : Text, (∀ c ∈ q, g.normalize [c] = [c]) → g.normalizeBytes q = some q := by
    intro q
    induction q with
    | nil => intro _; rfl
    | cons c q ih =>
      intro hq
      have hc := hq c List.mem_cons_self
      have ih := ih fun d hd => hq d (List.mem_cons_of_mem _ hd)
      have hpos := maximumInputLength_pos (g := g)
      rw [normalize, if_neg (by simp only [List.length_singleton]; omega)] at hc
      simp only [normalizeBytes] at hc ⊢
      split at hc
      · cases hc
      split at hc
      · cases hc
      split at hc
      · cases hc
      · rename_i h1 h2 h3
        have hup : asciiUpper c = c := by simpa using hc
        rw [if_neg h1, if_neg h2, if_neg h3, ih, hup]
        rfl
  rw [normalize, if_neg (by omega), key p hp, Option.getD_some]

/-- A text past the length limit is rejected by the prefix oracle. -/
theorem isValidPrefix_eq {p : Text} (hp : ∀ c ∈ p, g.normalize [c] = [c])
    (hmax : 8 ≤ g.config.maximumInputLength) (hne : p ≠ []) :
    g.isValidPrefix p = g.isValidPrefixNormalized p := by
  rw [isValidPrefix, if_neg (by simpa using hne)]
  by_cases hlen : p.length ≤ g.config.maximumInputLength
  · rw [normalize_eq_self hp hlen]
  · have hlong : g.isValidPrefixNormalized p = false := by
      unfold isValidPrefixNormalized
      exact if_pos (Or.inr (by omega))
    rw [normalize, if_pos (by omega), hlong]
    rfl

/-- **On unchanged characters, the prefix oracle never rejects what can still become a plate**: it
accepts every plate, and what it accepts stays accepted when the last character is dropped. -/
theorem isValidPrefix_of_isValidNormalized {p : Text} (hp : ∀ c ∈ p, g.normalize [c] = [c])
    (hmax : 8 ≤ g.config.maximumInputLength) (h : g.isValidNormalized p = true) :
    g.isValidPrefix p = true := by
  have hne : p ≠ [] := by rintro rfl; simp [isValidNormalized] at h
  rw [isValidPrefix_eq hp hmax hne]
  exact isValidPrefixNormalized_of_isValidNormalized h

theorem isValidPrefix_of_concat {p : Text} {c : Byte}
    (hp : ∀ d ∈ p ++ [c], g.normalize [d] = [d]) (hmax : 8 ≤ g.config.maximumInputLength)
    (h : g.isValidPrefix (p ++ [c]) = true) : g.isValidPrefix p = true := by
  rw [isValidPrefix_eq hp hmax (by simp)] at h
  by_cases hne : p = []
  · rw [hne]
    rfl
  · rw [isValidPrefix_eq (fun d hd => hp d (List.mem_append_left _ hd)) hmax hne]
    exact (isValidPrefixNormalized_of_concat h).resolve_left hne

end TurkishPlateGrammar

end FacLpr
