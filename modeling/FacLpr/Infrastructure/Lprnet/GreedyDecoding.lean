import FacLpr.Infrastructure.Lprnet.BeamExactness

/-!
# Infrastructure/Lprnet/GreedyDecoding — greedy decoding is the collapse of the best classes

A row votes for its `bestClass`, the first class whose logit no other exceeds, and the decoder
spells the collapse of the votes.  `Spelled` is the invariant of its loop: the text so far spells
the collapse of the rows read, with a confidence for each character, and the previous class is the
last vote.  No class can leave the charset, so decoding fails on what its checks refuse and on
nothing else (`decode_greedy`).
-/

namespace FacLpr

/-- The character of a class, if the charset has it. -/
def GreedyCtcDecoderConfig.character? (config : GreedyCtcDecoderConfig) (classIndex : ℕ) :
    Option Byte := config.charset[config.charsetIndex classIndex]?

namespace GreedyCtcDecoder

variable {F : Type} [Scalar F]

/-- The first class whose logit no other logit of the row exceeds. -/
def bestClass (row : List F) : ℕ :=
  row.findIdx fun value => row.all fun other => !decide (value < other)

/-- The best class of every row. -/
def bestPath (logits : List F) (timesteps classes : ℕ) : List ℕ :=
  (List.range timesteps).map fun timestep => bestClass (logitsRow logits classes timestep)

/-! ## The argmax loop -/

/-- The largest logit of a row, and where it first occurs. -/
structure IsFirstMax (row : List F) (index : ℕ) (maximum : F) : Prop where
  getElem? : row[index]? = some maximum
  not_lt : ∀ value ∈ row, ¬ maximum < value
  before : ∀ k < index, ∀ value, row[k]? = some value → value < maximum

theorem IsFirstMax.lt {row : List F} {index : ℕ} {maximum : F} (h : IsFirstMax row index maximum) :
    index < row.length :=
  (List.getElem?_eq_some_iff.mp h.getElem?).1

theorem IsFirstMax.bestClass_eq {row : List F} {index : ℕ} {maximum : F}
    (h : IsFirstMax row index maximum) : bestClass row = index := by
  obtain ⟨hlt, hget⟩ := List.getElem?_eq_some_iff.mp h.getElem?
  rw [bestClass, List.findIdx_eq hlt]
  refine ⟨?_, fun k hk => ?_⟩
  · rw [hget, List.all_eq_true]
    intro value hvalue
    simpa using h.not_lt value hvalue
  · rw [List.all_eq_false]
    refine ⟨maximum, hget ▸ List.getElem_mem hlt, ?_⟩
    simpa using h.before k hk _ (List.getElem?_eq_getElem (hk.trans hlt))

/-- What the argmax loop holds of the logits read so far. -/
def Holds (row : List F) : Option (F × ℕ) → Prop
  | none => row = []
  | some (maximum, index) => IsFirstMax row index maximum

theorem IsFirstMax.concat {row : List F} {index : ℕ} {maximum value : F}
    (h : IsFirstMax row index maximum) (hle : ¬ maximum < value) :
    IsFirstMax (row ++ [value]) index maximum where
  getElem? := by rw [List.getElem?_append_left h.lt, h.getElem?]
  not_lt other hother := by
    rcases List.mem_append.mp hother with hother | hother
    · exact h.not_lt other hother
    · exact List.mem_singleton.mp hother ▸ hle
  before k hk other hother := by
    rw [List.getElem?_append_left (hk.trans h.lt)] at hother
    exact h.before k hk other hother

/-- The argmax loop returns on finite logits only. -/
theorem isFinite_of_argmaxLoop {row : List F} {index : ℕ} {best best' : Option (F × ℕ)}
    (h : argmaxLoop row index best = .ok best') : ∀ value ∈ row, Scalar.isFinite value = true := by
  induction row generalizing index best with
  | nil => simp
  | cons value rest ih =>
    rw [argmaxLoop.eq_def] at h
    dsimp only at h
    split at h
    · cases h
    · rename_i hfinite
      rw [Bool.not_eq_true, Bool.not_eq_false'] at hfinite
      exact List.forall_mem_cons.mpr ⟨hfinite, ih h⟩

variable [LawfulScalar F]

/-- A logit above the largest so far is the largest, for the first time. -/
theorem IsFirstMax.concat_of_lt {row : List F} {index : ℕ} {maximum value : F}
    (h : IsFirstMax row index maximum) (hfinite : ∀ other ∈ row, Scalar.isFinite other = true)
    (hlt : maximum < value) : IsFirstMax (row ++ [value]) row.length value := by
  have hmaximum := hfinite maximum (List.mem_of_getElem? h.getElem?)
  have hbelow : ∀ other ∈ row, other < value := fun other hother =>
    LawfulScalar.lt_of_not_lt (hfinite other hother) hmaximum (h.not_lt other hother) hlt
  refine ⟨List.getElem?_concat_length, fun other hother hlt => ?_, fun k hk other hother => ?_⟩
  · rcases List.mem_append.mp hother with hother | hother
    · exact LawfulScalar.lt_irrefl _ (LawfulScalar.lt_trans hlt (hbelow other hother))
    · exact LawfulScalar.lt_irrefl _ (List.mem_singleton.mp hother ▸ hlt)
  · rw [List.getElem?_append_left hk] at hother
    exact hbelow other (List.mem_of_getElem? hother)

/-- **The argmax loop finds the first maximum** of finite logits. -/
theorem exists_argmaxLoop_eq_ok {done rest : List F} {best : Option (F × ℕ)}
    (hholds : Holds done best) (hfinite : ∀ value ∈ done ++ rest, Scalar.isFinite value = true) :
    ∃ best', argmaxLoop rest done.length best = .ok best' ∧ Holds (done ++ rest) best' := by
  induction rest generalizing done best with
  | nil => exact ⟨best, rfl, (List.append_nil done).symm ▸ hholds⟩
  | cons value rest ih =>
    have hvalue := hfinite value (List.mem_append_right _ List.mem_cons_self)
    have hdone := fun other hother => hfinite other (List.mem_append_left _ hother)
    have hcons : done ++ value :: rest = done ++ [value] ++ rest := by simp
    rw [hcons] at hfinite ⊢
    rw [argmaxLoop.eq_def]
    dsimp only
    rw [hvalue, Bool.not_true, if_neg Bool.false_ne_true]
    have hlength : (done ++ [value]).length = done.length + 1 := List.length_append
    rw [← hlength]
    refine ih ?_ hfinite
    cases best with
    | none =>
      rw [show done = [] from hholds]
      exact ⟨rfl, by simp [LawfulScalar.lt_irrefl], fun k hk => absurd hk (Nat.not_lt_zero k)⟩
    | some best =>
      dsimp only
      split
      · exact IsFirstMax.concat_of_lt hholds hdone ‹_›
      · exact IsFirstMax.concat hholds ‹_›

/-! ## One row -/

variable {W : Type} [Scalar W] [CtcArithmetic F W]

variable (W) in
/-- The softmax denominator of a row with this maximum. -/
def softmaxDenominator (row : List F) (maximum : F) : W :=
  row.foldl (fun sum value => sum + CtcArithmetic.expDiff value maximum) 0

variable (W) in
/-- A row of finite logits with a softmax. -/
structure IsRow (row : List F) : Prop where
  isFinite : ∀ value ∈ row, Scalar.isFinite value = true
  softmax : ∃ maximum, row[bestClass row]? = some maximum ∧
    Scalar.isFinite (softmaxDenominator W row maximum) = true ∧
      ¬ softmaxDenominator W row maximum ≤ 0

/-- **A row votes for its best class.** -/
theorem argmaxProbability_eq_ok {row : List F} {vote : ℕ × F} :
    argmaxProbability W row = .ok vote → IsRow W row ∧ vote.1 = bestClass row := by
  intro h
  obtain ⟨best, hloop, h⟩ := except_bind_eq_ok.mp h
  have hfinite := isFinite_of_argmaxLoop hloop
  obtain ⟨best', hloop', hholds⟩ := @exists_argmaxLoop_eq_ok F _ _ [] row none rfl hfinite
  rw [List.length_nil, hloop] at hloop'
  obtain rfl := Except.ok.inj hloop'
  cases best with
  | none => cases h
  | some best =>
    obtain ⟨u, hcheck, h⟩ := except_bind_eq_ok.mp h
    obtain rfl := Except.ok.inj h
    have hmax : IsFirstMax row best.2 best.1 := hholds
    rw [require_eq_ok, decide_eq_true_eq] at hcheck
    exact ⟨⟨hfinite, best.1, hmax.bestClass_eq ▸ hmax.getElem?, hcheck⟩, hmax.bestClass_eq.symm⟩

theorem exists_argmaxProbability_eq_ok {row : List F} (h : IsRow W row) :
    ∃ probability, argmaxProbability W row = .ok (bestClass row, probability) := by
  obtain ⟨best, hloop, hholds⟩ := @exists_argmaxLoop_eq_ok F _ _ [] row none rfl h.isFinite
  obtain ⟨maximum, hmaximum, hsoftmax⟩ := h.softmax
  cases best with
  | none =>
    rw [show row = [] from hholds] at hmaximum
    cases hmaximum
  | some best =>
    have hmax : IsFirstMax row best.2 best.1 := hholds
    rw [hmax.bestClass_eq, hmax.getElem?] at hmaximum
    obtain rfl := Option.some.inj hmaximum
    refine ⟨CtcArithmetic.toFloat (Scalar.clamp (1 / softmaxDenominator W row best.1) 0 1),
      except_bind_eq_ok.mpr ⟨some best, hloop, except_bind_eq_ok.mpr ⟨(), ?_, ?_⟩⟩⟩
    · rw [require_eq_ok, decide_eq_true_eq]
      exact hsoftmax
    · rw [hmax.bestClass_eq]
      rfl

omit [LawfulScalar F] in
theorem IsRow.bestClass_lt {row : List F} (h : IsRow W row) : bestClass row < row.length := by
  obtain ⟨maximum, hmaximum, -⟩ := h.softmax
  exact (List.getElem?_eq_some_iff.mp hmaximum).1

/-! ## The loop -/

/-- Every class but the blank has a character, and it is in the charset. -/
theorem exists_character (d : GreedyCtcDecoder) {classIndex : ℕ}
    (hblank : classIndex ≠ d.config.blankIndex) (hlt : classIndex < d.classCount) :
    ∃ character ∈ d.config.charset, d.config.character? classIndex = some character ∧
      ∀ blankError rangeError,
        d.config.classToCharacter blankError rangeError classIndex = .ok character := by
  have hindex := GreedyCtcDecoderConfig.charsetIndex_lt d.accepted hblank hlt
  have hcharacter : d.config.character? classIndex =
      some (d.config.charset[d.config.charsetIndex classIndex]) := List.getElem?_eq_getElem hindex
  refine ⟨_, List.getElem_mem hindex, hcharacter, fun blankError rangeError => ?_⟩
  rw [GreedyCtcDecoderConfig.classToCharacter, if_neg hblank]
  simp only [GreedyCtcDecoderConfig.character?] at hcharacter
  rw [hcharacter]

/-- **The invariant of the loop**: the text so far spells the collapse of the classes so far. -/
structure Spelled (d : GreedyCtcDecoder) (path : List ℕ) (st : LoopState F W) : Prop where
  text : st.text.map some = (collapse d.config.blankIndex path).map d.config.character?
  length : st.characterConfidences.length = st.text.length
  previousClass : st.previousClass = path.getLast?

/-- The loop spells a class when collapsing keeps it. -/
theorem kept_eq {blank c : ℕ} {path : List ℕ} : kept blank (lastClass blank path) c =
    if c ≠ blank ∧ some c ≠ path.getLast? then [c] else [] := by
  rw [kept, lastClass, List.getLastD_eq_getLast?]
  cases path.getLast? with
  | none => by_cases hc : c = blank <;> simp [hc]
  | some last => by_cases hc : c = blank <;> by_cases hl : c = last <;> simp [hc, hl]

/-- **One timestep spells one more class.** -/
theorem Spelled.decodeRow {d : GreedyCtcDecoder} {path : List ℕ} {st : LoopState F W}
    (h : Spelled d path st) {row : List F} (hlength : row.length = d.classCount)
    (hrow : IsRow W row) : ∃ st', decodeRow W d st row = .ok st' ∧
      Spelled d (path ++ [bestClass row]) st' := by
  obtain ⟨probability, hvote⟩ := exists_argmaxProbability_eq_ok hrow
  have hcollapse := collapse_concat d.config.blankIndex path (bestClass row)
  rw [kept_eq, ← h.previousClass] at hcollapse
  rw [GreedyCtcDecoder.decodeRow, hvote]
  by_cases hkept : bestClass row ≠ d.config.blankIndex ∧ some (bestClass row) ≠ st.previousClass
  · obtain ⟨character, -, hcharacter, hmap⟩ :=
      d.exists_character hkept.1 (hlength ▸ hrow.bestClass_lt)
    refine ⟨{
      text := st.text ++ [character]
      characterConfidences := st.characterConfidences ++ [probability]
      previousClass := some (bestClass row)
      confidenceSum := st.confidenceSum + CtcArithmetic.ofFloat probability }, ?_, ?_, ?_, ?_⟩
    · change (if _ then _ else _) = _
      rw [if_pos hkept, hmap]
      rfl
    · rw [hcollapse, if_pos hkept, List.map_append, List.map_append, h.text, List.map_singleton,
        List.map_singleton, hcharacter]
    · rw [List.length_append, List.length_append, h.length]
      rfl
    · exact List.getLast?_concat.symm
  · refine ⟨{ st with previousClass := some (bestClass row) }, if_neg hkept, ?_, h.length, ?_⟩
    · rw [hcollapse, if_neg hkept, List.append_nil]
      exact h.text
    · exact List.getLast?_concat.symm

/-- **The loop spells the collapse of the best classes** of its rows. -/
theorem Spelled.exists_run {d : GreedyCtcDecoder} {path : List ℕ} {st : LoopState F W}
    (h : Spelled d path st) {rows : List (List F)}
    (hrows : ∀ row ∈ rows, row.length = d.classCount ∧ IsRow W row) :
    ∃ st', rows.foldlM (GreedyCtcDecoder.decodeRow W d) st = .ok st' ∧
      Spelled d (path ++ rows.map bestClass) st' := by
  induction rows generalizing path st with
  | nil => exact ⟨st, rfl, (List.append_nil path).symm ▸ h⟩
  | cons row rest ih =>
    obtain ⟨⟨hlength, hrow⟩, hrest⟩ := List.forall_mem_cons.mp hrows
    obtain ⟨next, hnext, hspelled⟩ := h.decodeRow hlength hrow
    obtain ⟨st', hst', hspelled'⟩ := ih hspelled hrest
    refine ⟨st', ?_, ?_⟩
    · rw [List.foldlM_cons, hnext]
      exact hst'
    · rw [List.map_cons, List.append_cons]
      exact hspelled'

/-- A loop that returns read rows with a softmax. -/
theorem isRow_of_run {d : GreedyCtcDecoder} {st st' : LoopState F W} {rows : List (List F)}
    (h : rows.foldlM (GreedyCtcDecoder.decodeRow W d) st = .ok st') :
    ∀ row ∈ rows, IsRow W row := by
  intro row hrow
  obtain ⟨before, after, hdecode⟩ := except_foldlM_eq_ok h row hrow
  obtain ⟨vote, hvote, -⟩ := except_bind_eq_ok.mp hdecode
  exact (argmaxProbability_eq_ok hvote).1

/-! ## Decoding -/

variable (W) in
/-- What `decode` checks of its input. -/
structure Accepts (d : GreedyCtcDecoder) (logits : List F) (timesteps classes : ℕ) : Prop where
  timesteps_ne_zero : timesteps ≠ 0
  timesteps_le : timesteps ≤ d.config.maximumTimesteps
  classes_eq : classes = d.classCount
  noOverflow : timesteps ≤ sizeMax / classes
  length : logits.length = timesteps * classes
  isRow : ∀ timestep < timesteps, IsRow W (logitsRow logits classes timestep)

/-- The greedy decoding of a path: its collapse, character by character and with a confidence for
each.  No class of it leaves the charset, and a class repeated across blanks is spelled twice. -/
structure IsGreedyDecoding (d : GreedyCtcDecoder) (path : List ℕ) (result : CtcDecodeResult F) :
    Prop where
  text : result.text.map some = (collapse d.config.blankIndex path).map d.config.character?
  length : result.characterConfidences.length = result.text.length
  inCharset : ∀ c ∈ collapse d.config.blankIndex path,
    d.config.charsetIndex c < d.config.charset.length
  repeated : ∀ (before after : List ℕ) (n c : ℕ), c ≠ d.config.blankIndex →
    path = before ++ [c] ++ List.replicate (n + 1) d.config.blankIndex ++ [c] ++ after →
      ∃ (character : Byte) (l r : Text), d.config.character? c = some character ∧
        (l ++ [character]).map some =
          (collapse d.config.blankIndex (before ++ [c])).map d.config.character? ∧
        result.text = l ++ [character, character] ++ r

omit [Scalar F] [LawfulScalar F] [Scalar W] [CtcArithmetic F W] in
/-- A spelled path is decoded greedily. -/
theorem Spelled.isGreedyDecoding {d : GreedyCtcDecoder} {path : List ℕ} {st : LoopState F W}
    (h : Spelled d path st) (hpath : ∀ c ∈ path, c < d.classCount) {confidence : F} :
    IsGreedyDecoding d path ⟨st.text, confidence, st.characterConfidences⟩ where
  text := h.text
  length := h.length
  inCharset c hc := by
    obtain ⟨hmem, hne⟩ := List.mem_filter.mp hc
    exact GreedyCtcDecoderConfig.charsetIndex_lt d.accepted (by simpa using hne)
      (hpath c ((List.destutter_sublist _ _).mem hmem))
  repeated before after n c hc heq := by
    obtain ⟨first, rest, hfirst, hrest⟩ := exists_collapse_eq_repeat hc before after n
    have hlt : c < d.classCount := hpath c (heq ▸ by simp)
    obtain ⟨character, -, hcharacter, -⟩ := d.exists_character hc hlt
    have htext := h.text
    rw [heq, hrest, List.map_append, List.map_append, List.map_eq_append_iff] at htext
    obtain ⟨front, r, hsplit, hfront, -⟩ := htext
    obtain ⟨l, twice, rfl, hl, htwice⟩ := List.map_eq_append_iff.mp hfront
    have htwice' : twice = [character, character] := by
      refine (Option.some_injective _).list_map ?_
      rw [htwice, List.map_cons, List.map_singleton, hcharacter]
      rfl
    refine ⟨character, l, r, hcharacter, ?_, htwice' ▸ hsplit⟩
    rw [hfirst, List.map_append, List.map_append, hl, List.map_singleton, List.map_singleton,
      hcharacter]

omit [LawfulScalar F] in
/-- The loop of `decode` reads the rows of the tensor. -/
theorem foldlM_rows (d : GreedyCtcDecoder) (logits : List F) (timesteps classes : ℕ)
    (st : LoopState F W) : (List.range timesteps).foldlM
      (fun st timestep => GreedyCtcDecoder.decodeRow W d st (logitsRow logits classes timestep)) st =
        ((List.range timesteps).map (logitsRow logits classes)).foldlM
          (GreedyCtcDecoder.decodeRow W d) st :=
  List.foldlM_map.symm

/-- An input that is decoded passes the checks. -/
theorem accepts_of_decode {d : GreedyCtcDecoder} {logits : List F} {timesteps classes : ℕ}
    {result : CtcDecodeResult F} (h : decode W d logits timesteps classes = .ok result) :
    Accepts W d logits timesteps classes := by
  simp only [decode, checkedElementCount, except_bind_eq_ok, require_eq_ok, decide_eq_true_eq] at h
  obtain ⟨-, ⟨htimesteps, -⟩, -, hclasses, count, ⟨-, hne, -, hfits, hcount⟩, -, hlength, st, hrun,
    -⟩ := h
  obtain rfl := Except.ok.inj hcount
  rw [foldlM_rows] at hrun
  refine ⟨hne.1, htimesteps, hclasses, hfits, hlength, fun timestep hlt => ?_⟩
  exact isRow_of_run hrun _ (List.mem_map_of_mem (List.mem_range.mpr hlt))

/-- An accepted decoder has room for its classes. -/
theorem classCount_le (d : GreedyCtcDecoder) : d.classCount ≤ d.config.maximumClasses := by
  have haccepted := d.accepted
  simp only [GreedyCtcDecoderConfig.check, except_bind_eq_ok, require_eq_ok,
    decide_eq_true_eq] at haccepted
  obtain ⟨-, -, -, -, -, -, -, ⟨-, -, hclasses⟩, -⟩ := haccepted
  exact hclasses

/-- An input that passes the checks is decoded greedily. -/
theorem Accepts.exists_decode {d : GreedyCtcDecoder} {logits : List F} {timesteps classes : ℕ}
    (h : Accepts W d logits timesteps classes) :
    ∃ result, decode W d logits timesteps classes = .ok result ∧
      IsGreedyDecoding d (bestPath logits timesteps classes) result := by
  have hrows : ∀ row ∈ (List.range timesteps).map (logitsRow logits classes),
      row.length = d.classCount ∧ IsRow W row := by
    intro row hrow
    refine ⟨h.classes_eq ▸ length_of_mem_rows h.length row hrow, ?_⟩
    obtain ⟨timestep, hlt, rfl⟩ := List.mem_map.mp hrow
    exact h.isRow timestep (List.mem_range.mp hlt)
  have hstart : Spelled d [] (⟨[], [], none, 0⟩ : LoopState F W) := ⟨rfl, rfl, rfl⟩
  obtain ⟨st, hrun, hspelled⟩ := hstart.exists_run hrows
  have hpath : [] ++ ((List.range timesteps).map (logitsRow logits classes)).map bestClass =
      bestPath logits timesteps classes := List.map_map
  rw [hpath] at hspelled
  have hclass : ∀ c ∈ bestPath logits timesteps classes, c < d.classCount := by
    intro c hc
    rw [← hpath, List.nil_append] at hc
    obtain ⟨row, hrow, rfl⟩ := List.mem_map.mp hc
    exact (hrows row hrow).1 ▸ (hrows row hrow).2.bestClass_lt
  have hne : timesteps ≠ 0 ∧ classes ≠ 0 :=
    ⟨h.timesteps_ne_zero, h.classes_eq ▸ Nat.succ_ne_zero _⟩
  have hlimits : timesteps ≤ d.config.maximumTimesteps ∧ classes ≤ d.config.maximumClasses :=
    ⟨h.timesteps_le, h.classes_eq ▸ d.classCount_le⟩
  have hdecode : ∃ confidence, decode W d logits timesteps classes =
      .ok ⟨st.text, confidence, st.characterConfidences⟩ := by
    simp only [decode, checkedElementCount, except_bind_eq_ok, require_eq_ok, decide_eq_true_eq]
    exact ⟨_, (), hlimits, (), h.classes_eq, _, ⟨(), hne, (), h.noOverflow, rfl⟩, (), h.length, st,
      (foldlM_rows d logits timesteps classes _).trans hrun, rfl⟩
  obtain ⟨confidence, hdecode⟩ := hdecode
  exact ⟨_, hdecode, hspelled.isGreedyDecoding hclass⟩

/-- **Greedy decoding.**  The decoder accepts what passes its checks, and returns the greedy
decoding of the best classes of the rows. -/
theorem decode_greedy (d : GreedyCtcDecoder) (logits : List F) (timesteps classes : ℕ) :
    ((∃ result, decode W d logits timesteps classes = .ok result) ↔
        Accepts W d logits timesteps classes) ∧
      ∀ result, decode W d logits timesteps classes = .ok result →
        IsGreedyDecoding d (bestPath logits timesteps classes) result := by
  refine ⟨⟨fun ⟨result, hdecode⟩ => accepts_of_decode hdecode, fun h => ?_⟩, fun result hdecode => ?_⟩
  · obtain ⟨result, hdecode, -⟩ := h.exists_decode
    exact ⟨result, hdecode⟩
  · obtain ⟨result', hdecode', hgreedy⟩ := (accepts_of_decode hdecode).exists_decode
    rw [hdecode] at hdecode'
    obtain rfl := Except.ok.inj hdecode'
    exact hgreedy

section OneHot

attribute [local instance] ConstrainedCtcBeamSearch.oneHotArithmetic

/-- A decoder for the characters `1` and `A`. -/
def oneHotDecoder : GreedyCtcDecoder := ⟨{ charset := ascii "1A" }, by decide⟩

/-- The logits of `11A`: a run of the same class, a blank, the class again and a run of another. -/
def oneHotLogits : List ℚ :=
  [1, 1, 0, 1, 2, 2].flatMap fun c => (List.range 3).map fun k => if k = c then 0 else -1000

theorem decode_greedy_oneHot : ∃ result, oneHotDecoder.decode ℚ≥0 oneHotLogits 6 3 = .ok result ∧
    result.text = ascii "11A" ∧ result.characterConfidences.length = 3 := by
  have haccepts : Accepts ℚ≥0 oneHotDecoder oneHotLogits 6 3 := by
    refine ⟨by decide, by decide, rfl, by decide, by decide, ?_⟩
    have hsoftmax : ∀ timestep < 6, ∃ maximum ∈ (logitsRow oneHotLogits 3 timestep)[bestClass
        (logitsRow oneHotLogits 3 timestep)]?,
          ¬ softmaxDenominator ℚ≥0 (logitsRow oneHotLogits 3 timestep) maximum ≤ 0 := by
      decide +kernel
    intro timestep hlt
    obtain ⟨maximum, hmaximum, hpositive⟩ := hsoftmax timestep hlt
    exact ⟨fun _ _ => rfl, maximum, hmaximum, rfl, hpositive⟩
  have hgreedy := decode_greedy (W := ℚ≥0) oneHotDecoder oneHotLogits 6 3
  obtain ⟨result, hdecode⟩ := hgreedy.1.mpr haccepts
  have hresult := hgreedy.2 result hdecode
  have hpath : (collapse 0 (bestPath oneHotLogits 6 3)).map oneHotDecoder.config.character? =
      (ascii "11A").map some := by
    decide +kernel
  have htext : result.text = ascii "11A" :=
    (Option.some_injective _).list_map (hresult.text.trans hpath)
  exact ⟨result, hdecode, htext, by rw [hresult.length, htext]; rfl⟩

end OneHot

end GreedyCtcDecoder

end FacLpr
