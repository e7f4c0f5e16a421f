import FacLpr.Application.TurkishPlateGrammar

/-!
# Application/PlateLanguage — the language of the plate grammar

A plate is a province code, letters of the alphabet and digits, in one of six shapes (`IsPlate`).
The scanner accepts exactly the plates (`isValidNormalized_iff`), normalization strips the
separators and uppercases the rest (`normalize_eq`), and the prefix oracle accepts exactly what some
suffix completes to a plate (`isValidPrefixNormalized_iff_completes`).
-/

namespace FacLpr

namespace TurkishPlateGrammar

variable (g : TurkishPlateGrammar)

/-! ## The language -/

/-- The numbers of letters and of digits a plate may have. -/
def shapes : List (ℕ × ℕ) := [(1, 4), (1, 5), (2, 3), (2, 4), (3, 2), (3, 3)]

/-- The character of a decimal digit. -/
def digit (n : ℕ) : Byte := byte '0' + UInt8.ofNat n

/-- The letters of the configuration, in upper case. -/
def alphabet : Text := g.config.allowedLetters.map asciiUpper

/-- A province code from `01` to `81`, letters of the alphabet, and digits. -/
def IsPlate (plate : Text) : Prop :=
  ∃ (code : ℕ) (letters digits : Text),
    plate = digit (code / 10) :: digit (code % 10) :: (letters ++ digits) ∧
      (1 ≤ code ∧ code ≤ 81) ∧ (∀ v ∈ letters, v ∈ g.alphabet) ∧
      (∀ v ∈ digits, ∃ n < 10, v = digit n) ∧ (letters.length, digits.length) ∈ shapes

/-- A character normalization removes. -/
def isSeparator (value : Byte) : Bool :=
  (g.config.stripAsciiWhitespace && isAsciiSpace value) ||
    (g.config.stripHyphen && value == byte '-')

/-- A text without its separators, in upper case. -/
def cleaned (text : Text) : Text :=
  (text.filter fun value => !g.isSeparator value).map asciiUpper

/-! ## Characters -/

theorem toNat_digit {n : ℕ} (h : n < 10) : (digit n).toNat = 48 + n := by
  have hzero : (byte '0').toNat = 48 := by decide
  rw [digit, UInt8.toNat_add, hzero, UInt8.toNat_ofNat', Nat.mod_eq_of_lt (by omega : n < 2 ^ 8)]
  omega

theorem isAsciiDigit_iff {v : Byte} : isAsciiDigit v = true ↔ ∃ n < 10, v = digit n := by
  have hzero : (byte '0').toNat = 48 := by decide
  have hnine : (byte '9').toNat = 57 := by decide
  simp only [isAsciiDigit, decide_eq_true_eq, UInt8.le_iff_toNat_le, hzero, hnine]
  constructor
  · rintro ⟨hlo, hhi⟩
    have hlt : v.toNat - 48 < 10 := by omega
    refine ⟨v.toNat - 48, hlt, UInt8.toNat_inj.mp ?_⟩
    rw [toNat_digit hlt]
    omega
  · rintro ⟨n, hn, rfl⟩
    rw [toNat_digit hn]
    omega

/-- A province code is a number from one to 81. -/
theorem isProvince_iff {d₀ d₁ : Byte} :
    IsProvince d₀ d₁ ↔
      ∃ code, (1 ≤ code ∧ code ≤ 81) ∧ d₀ = digit (code / 10) ∧ d₁ = digit (code % 10) := by
  have hzero : (byte '0').toNat = 48 := by decide
  constructor
  · rintro ⟨h₀, h₁, hlo, hhi⟩
    obtain ⟨n, hn, rfl⟩ := isAsciiDigit_iff.mp h₀
    obtain ⟨m, hm, rfl⟩ := isAsciiDigit_iff.mp h₁
    simp only [codeOf, hzero, toNat_digit hn, toNat_digit hm] at hlo hhi
    refine ⟨n * 10 + m, by omega, congrArg digit ?_, congrArg digit ?_⟩ <;> omega
  · rintro ⟨code, hcode, rfl, rfl⟩
    have htens : code / 10 < 10 := by omega
    have hones : code % 10 < 10 := by omega
    refine ⟨isAsciiDigit_iff.mpr ⟨_, htens, rfl⟩, isAsciiDigit_iff.mpr ⟨_, hones, rfl⟩, ?_⟩
    simp only [codeOf, hzero, toNat_digit htens, toNat_digit hones]
    omega

variable {g}

theorem isAllowedLetter_iff {v : Byte} : g.isAllowedLetter v = true ↔ v ∈ g.alphabet := by
  refine ⟨fun h => (of_decide_eq_true h).2, fun h => decide_eq_true ⟨?_, h⟩⟩
  obtain ⟨_, _, hletters⟩ := except_bind_eq_ok.mp g.accepted
  have hupper := (bounds_of_lettersUnique (require_eq_ok.mp hletters) v h).2
  exact lt_of_le_of_lt hupper (by decide)

theorem allowedDigitCount_iff {n d : ℕ} : allowedDigitCount n d = true ↔ (n, d) ∈ shapes := by
  match n with
  | 0 | 1 | 2 | 3 => simp [allowedDigitCount, shapes]
  | n + 4 => simp [allowedDigitCount, shapes]

/-! ## The scanner -/

/-- **The scanner accepts exactly the plates.** -/
theorem isValidNormalized_iff {plate : Text} :
    g.isValidNormalized plate = true ↔ g.IsPlate plate := by
  constructor
  · intro h
    match plate, h with
    | [], h | [_], h => simp [isValidNormalized] at h
    | d₀ :: d₁ :: rest, h =>
      obtain ⟨hprovince, letters, digits, rfl, hl, hd, hcount⟩ := isValidNormalized_cons_iff.mp h
      obtain ⟨code, hcode, rfl, rfl⟩ := isProvince_iff.mp hprovince
      exact ⟨code, letters, digits, rfl, hcode, fun v hv => isAllowedLetter_iff.mp (hl v hv),
        fun v hv => isAsciiDigit_iff.mp (hd v hv), allowedDigitCount_iff.mp hcount⟩
  · rintro ⟨code, letters, digits, rfl, hcode, hl, hd, hshape⟩
    refine isValidNormalized_cons_iff.mpr ⟨isProvince_iff.mpr ⟨code, hcode, rfl, rfl⟩, ?_⟩
    exact ⟨letters, digits, rfl, fun v hv => isAllowedLetter_iff.mpr (hl v hv),
      fun v hv => isAsciiDigit_iff.mpr (hd v hv), allowedDigitCount_iff.mpr hshape⟩

/-! ## Normalization -/

theorem cleaned_cons_of_separator {raw : Byte} {rest : Text} (h : g.isSeparator raw = true) :
    g.cleaned (raw :: rest) = g.cleaned rest := by
  simp [cleaned, h]

theorem cleaned_cons_of_kept {raw : Byte} {rest : Text} (h : g.isSeparator raw = false) :
    g.cleaned (raw :: rest) = asciiUpper raw :: g.cleaned rest := by
  simp [cleaned, h]

/-- Every byte is ASCII. -/
def isAscii (text : Text) : Bool := text.all fun v => decide (v < 128)

theorem isAscii_iff {text : Text} : isAscii text = true ↔ ∀ v ∈ text, v < 128 := by
  simp [isAscii]

/-- The loop of `normalize` cleans an ASCII text and gives up on any other. -/
theorem normalizeBytes_eq (text : Text) :
    g.normalizeBytes text = if isAscii text then some (g.cleaned text) else none := by
  induction text with
  | nil => rfl
  | cons raw rest ih =>
    rw [normalizeBytes]
    by_cases hraw : 128 ≤ raw
    · have hbad : ¬ isAscii (raw :: rest) = true := fun h =>
        absurd hraw (not_le.mpr (isAscii_iff.mp h raw List.mem_cons_self))
      rw [if_pos hraw, if_neg hbad]
    · have hascii : isAscii (raw :: rest) = isAscii rest := by
        rw [isAscii, List.all_cons, decide_eq_true (not_le.mp hraw), Bool.true_and]
        rfl
      rw [if_neg hraw, ih, hascii]
      -- the two strip branches are the two disjuncts of `isSeparator`
      by_cases hspace : g.config.stripAsciiWhitespace && isAsciiSpace raw
      · have hdrop : g.isSeparator raw = true := by rw [isSeparator, hspace, Bool.true_or]
        rw [if_pos hspace, cleaned_cons_of_separator hdrop]
      rw [if_neg hspace]
      by_cases hhyphen : g.config.stripHyphen && raw == byte '-'
      · have hdrop : g.isSeparator raw = true := by rw [isSeparator, hhyphen, Bool.or_true]
        rw [if_pos hhyphen, cleaned_cons_of_separator hdrop]
      have hkeep : g.isSeparator raw = false := by
        rw [isSeparator, Bool.eq_false_iff.mpr hspace, Bool.eq_false_iff.mpr hhyphen]
        rfl
      rw [if_neg hhyphen, cleaned_cons_of_kept hkeep]
      split <;> rfl

/-- **Normalization cleans a short ASCII text**, and empties every other. -/
theorem normalize_eq (text : Text) :
    g.normalize text = if text.length ≤ g.config.maximumInputLength ∧ isAscii text
      then g.cleaned text else [] := by
  rw [normalize, normalizeBytes_eq]
  by_cases hlen : text.length ≤ g.config.maximumInputLength
  · rw [if_neg (not_lt.mpr hlen)]
    by_cases hascii : isAscii text = true
    · rw [if_pos hascii, if_pos ⟨hlen, hascii⟩, Option.getD_some]
    · rw [if_neg hascii, if_neg fun h => hascii h.2, Option.getD_none]
  · rw [if_pos (not_le.mp hlen), if_neg fun h => hlen h.1]

theorem length_cleaned_le (text : Text) : (g.cleaned text).length ≤ text.length := by
  rw [cleaned, List.length_map]
  exact List.length_filter_le _ _

theorem length_normalize_le (text : Text) :
    (g.normalize text).length ≤ g.config.maximumInputLength := by
  rw [normalize_eq]
  split
  · rename_i h
    exact le_trans (length_cleaned_le text) h.1
  · exact Nat.zero_le _

/-- Every byte, upper-cased: an ASCII byte stays one, upper-casing it again changes nothing, and no
letter becomes a separator. -/
theorem asciiUpper_cases (v : Byte) :
    asciiUpper v = v ∨ byte 'A' ≤ asciiUpper v ∧ asciiUpper v ≤ byte 'Z' := by
  rw [asciiUpper]
  split
  · rename_i h
    simp only [UInt8.le_iff_toNat_le, UInt8.toNat_sub, show (byte 'a').toNat = 97 by decide,
      show (byte 'z').toNat = 122 by decide, show (byte 'A').toNat = 65 by decide,
      show (byte 'Z').toNat = 90 by decide, show (byte 'a' - byte 'A').toNat = 32 by decide] at h ⊢
    right
    omega
  · exact Or.inl rfl

/-- A capital is kept as it is. -/
theorem normalize_capital {v : Byte} (h : byte 'A' ≤ v ∧ v ≤ byte 'Z') :
    g.normalize [v] = [v] := by
  have hpos := maximumInputLength_pos (g := g)
  obtain ⟨hlo, hhi⟩ := h
  have hspace : isAsciiSpace v = false := by
    refine Bool.eq_false_iff.mpr fun hspace => ?_
    simp only [isAsciiSpace, Bool.or_eq_true, beq_iff_eq] at hspace
    rcases hspace with ((rfl | rfl) | rfl) | rfl <;> exact absurd hlo (by decide)
  have hhyphen : (v == byte '-') = false := by
    refine Bool.eq_false_iff.mpr fun hv => ?_
    rw [beq_iff_eq] at hv
    subst hv
    exact absurd hlo (by decide)
  have hupper : asciiUpper v = v :=
    if_neg fun h => absurd (le_trans h.1 hhi) (by decide)
  have hascii : v < 128 := lt_of_le_of_lt hhi (by decide)
  rw [normalize_eq, if_pos ⟨hpos, isAscii_iff.mpr (by simpa using hascii)⟩]
  simp [cleaned, isSeparator, hspace, hhyphen, hupper]

/-- **Every character of a normalized text is kept by normalization.** -/
theorem normalize_of_mem {text : Text} {v : Byte} (hv : v ∈ g.normalize text) :
    g.normalize [v] = [v] := by
  have hpos := maximumInputLength_pos (g := g)
  rw [normalize_eq] at hv
  split at hv
  · rename_i h
    obtain ⟨raw, hraw, rfl⟩ := List.mem_map.mp hv
    obtain ⟨hmem, hkeep⟩ := List.mem_filter.mp hraw
    rcases asciiUpper_cases raw with hsame | hcapital
    · have hascii : isAscii [raw] = true :=
        isAscii_iff.mpr (by simpa using isAscii_iff.mp h.2 raw hmem)
      rw [hsame, normalize_eq, if_pos ⟨hpos, hascii⟩,
        cleaned_cons_of_kept (by simpa using hkeep), hsame]
      rfl
    · exact normalize_capital hcapital
  · exact absurd hv List.not_mem_nil

/-- A part of a normalized text is normalized. -/
theorem normalize_of_prefix {text q : Text} (hq : q <+: g.normalize text) : g.normalize q = q :=
  normalize_eq_self (fun _ hv => normalize_of_mem (hq.subset hv))
    (le_trans hq.length_le (length_normalize_le text))

theorem isPlate_ne_nil {plate : Text} (h : g.IsPlate plate) : plate ≠ [] := by
  obtain ⟨code, letters, digits, rfl, -⟩ := h
  exact List.cons_ne_nil _ _

variable (g) in
/-- **The language of the grammar**: a text is valid exactly when it is short, ASCII and a plate
once its separators are removed and its letters uppercased; normalizing twice changes nothing. -/
theorem isValid_iff_isPlate :
    (∀ text, g.isValid text = true ↔ text.length ≤ g.config.maximumInputLength ∧
      (∀ v ∈ text, v < 128) ∧ g.IsPlate (g.cleaned text)) ∧
    ∀ text, g.normalize (g.normalize text) = g.normalize text := by
  refine ⟨fun text => ?_, fun text => normalize_of_prefix (List.prefix_refl _)⟩
  simp only [isValid, Bool.and_eq_true, Bool.not_eq_true', isValidNormalized_iff]
  rw [normalize_eq, ← and_assoc, ← isAscii_iff]
  by_cases h : text.length ≤ g.config.maximumInputLength ∧ isAscii text = true
  · rw [if_pos h]
    refine ⟨fun hplate => ⟨h, hplate.2⟩, fun hplate => ⟨?_, hplate.2⟩⟩
    exact List.isEmpty_eq_false_iff.mpr (isPlate_ne_nil hplate.2)
  · rw [if_neg h]
    exact ⟨fun hempty => absurd hempty.1 (by simp), fun hplate => absurd hplate.1 h⟩

/-! ## The prefix oracle -/

/-- The most digits the letters allow is a number of digits they allow. -/
theorem allowedDigitCount_maximum {n : ℕ} (h1 : 1 ≤ n) (h3 : n ≤ 3) :
    allowedDigitCount n (maximumDigitCount n) = true := by
  match n with
  | 1 | 2 | 3 => rfl
  | n + 4 => omega

theorem isAsciiDigit_of_mem_replicate {n : ℕ} {v : Byte}
    (hv : v ∈ List.replicate n (digit 0)) : isAsciiDigit v = true := by
  rw [(List.mem_replicate.mp hv).2]
  decide

/-- **A cut-short plate is completed by padding its digits**, after a letter if it has none. -/
theorem BodyPrefix.completes {rest : Text} (h : g.BodyPrefix rest) : ∃ s, g.Body (rest ++ s) := by
  rcases h with rfl | ⟨letters, digits, rfl, hl, hd, h1, h3, hmax⟩
  · obtain ⟨_, hchecks, _⟩ := except_bind_eq_ok.mp g.accepted
    simp only [require_eq_ok, decide_eq_true_eq] at hchecks
    obtain ⟨letter, hletter⟩ := List.exists_mem_of_ne_nil g.alphabet (by simp [alphabet, hchecks.1])
    refine ⟨[letter] ++ List.replicate 5 (digit 0), [letter], _, rfl, ?_,
      fun v hv => isAsciiDigit_of_mem_replicate hv, by simp [allowedDigitCount]⟩
    intro v hv
    rw [List.mem_singleton.mp hv]
    exact isAllowedLetter_iff.mpr hletter
  · refine ⟨List.replicate (maximumDigitCount letters.length - digits.length) (digit 0), letters,
      digits ++ List.replicate (maximumDigitCount letters.length - digits.length) (digit 0),
      List.append_assoc _ _ _, hl, fun v hv => ?_, ?_⟩
    · rcases List.mem_append.mp hv with hv | hv
      · exact hd v hv
      · exact isAsciiDigit_of_mem_replicate hv
    · rw [List.length_append, List.length_replicate, Nat.add_sub_cancel' hmax]
      exact allowedDigitCount_maximum h1 h3

/-- A first digit up to eight starts the province code ending in one. -/
theorem isProvince_first {d : Byte} (hd : isAsciiDigit d = true) (h8 : d ≤ byte '8') :
    IsProvince d (digit 1) := by
  obtain ⟨n, hn, rfl⟩ := isAsciiDigit_iff.mp hd
  rw [UInt8.le_iff_toNat_le, toNat_digit hn, show (byte '8').toNat = 56 by decide] at h8
  refine isProvince_iff.mpr ⟨n * 10 + 1, by omega, congrArg digit ?_, congrArg digit ?_⟩ <;> omega

/-- Cutting an accepted text short leaves an accepted one, or nothing. -/
theorem isValidPrefixNormalized_of_append {p s : Text} (hp : p ≠ [])
    (h : g.isValidPrefixNormalized (p ++ s) = true) : g.isValidPrefixNormalized p = true := by
  induction s using List.reverseRecOn with
  | nil => rwa [List.append_nil] at h
  | append_singleton s c ih =>
    rw [← List.append_assoc] at h
    have hne : p ++ s ≠ [] := fun hnil => hp (List.append_eq_nil_iff.mp hnil).1
    exact ih ((isValidPrefixNormalized_of_concat h).resolve_left hne)

/-- **The prefix oracle accepts exactly what some suffix completes.** -/
theorem isValidPrefixNormalized_iff_completes {p : Text} :
    g.isValidPrefixNormalized p = true ↔
      p ≠ [] ∧ ∃ s, g.isValidNormalized (p ++ s) = true := by
  constructor
  · intro h
    match p, h with
    | [], h => simp [isValidPrefixNormalized] at h
    | [d₀], h =>
      obtain ⟨s, hs⟩ := BodyPrefix.completes (g := g) (Or.inl rfl)
      have hd : isAsciiDigit d₀ = true ∧ d₀ ≤ byte '8' := by
        simp only [isValidPrefixNormalized, List.isEmpty_cons, List.length_singleton] at h
        split at h
        · cases h
        split at h
        · cases h
        rename_i hdigit
        exact ⟨by simpa using hdigit, (of_decide_eq_true h).2⟩
      exact ⟨List.cons_ne_nil _ _, digit 1 :: s,
        isValidNormalized_cons_iff.mpr ⟨isProvince_first hd.1 hd.2, hs⟩⟩
    | d₀ :: d₁ :: rest, h =>
      obtain ⟨hprovince, hbody⟩ := isValidPrefixNormalized_iff.mp h
      obtain ⟨s, hs⟩ := hbody.completes
      exact ⟨List.cons_ne_nil _ _, s, isValidNormalized_cons_iff.mpr ⟨hprovince, hs⟩⟩
  · rintro ⟨hp, s, hs⟩
    exact isValidPrefixNormalized_of_append hp (isValidPrefixNormalized_of_isValidNormalized hs)

variable (g) in
/-- **The prefix oracle is exact**: it accepts nothing but the empty text and what some suffix
completes to a plate, and every part of a normalized text it accepts. -/
theorem isValidPrefix_iff_completes :
    (∀ p, g.isValidPrefix p = true ↔ p = [] ∨
      g.normalize p ≠ [] ∧ ∃ s, g.isValidNormalized (g.normalize p ++ s) = true) ∧
    ∀ p q, g.isValidPrefix p = true → q <+: g.normalize p →
      g.normalize q = q ∧ g.isValidPrefix q = true := by
  have hiff : ∀ p, g.isValidPrefix p = true ↔ p = [] ∨
      g.isValidPrefixNormalized (g.normalize p) = true := by
    intro p
    rw [isValidPrefix]
    by_cases hp : p = []
    · simp [hp]
    · simp [hp]
  refine ⟨fun p => by rw [hiff, isValidPrefixNormalized_iff_completes], fun p q h hq => ?_⟩
  have hnormal := normalize_of_prefix hq
  refine ⟨hnormal, (hiff q).mpr ?_⟩
  rw [hnormal]
  refine or_iff_not_imp_left.mpr fun hne => ?_
  obtain ⟨s, hs⟩ := hq
  rcases (hiff p).mp h with rfl | h
  · rw [normalize_eq, cleaned] at hs
    simp only [List.filter_nil, List.map_nil, ite_self, List.append_eq_nil_iff] at hs
    exact absurd hs.1 hne
  · rw [← hs] at h
    exact isValidPrefixNormalized_of_append hne h

end TurkishPlateGrammar

end FacLpr
