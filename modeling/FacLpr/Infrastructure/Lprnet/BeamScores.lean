import FacLpr.Infrastructure.Lprnet.BeamExactness

/-!
# Infrastructure/Lprnet/BeamScores — when the scores of the beam search are probabilities

A confusion pair adds mass beyond the softmax rows: a class is read as its own character with weight
one and as the other one with the confusion weight, once for every pair that joins the two.  The sum
over all alignments stays a probability exactly when these weights never add up to more than one on
a character of a plate (`alphabet_mass_le_one_iff`).  A run keeps within one when no state of its
beams passes more than its weight on to a plate (`unamplifiedRun`): then the clamp of the confidence
is idle and the candidates are ranked by their scores (`scoresAreProbabilities`).
-/

namespace FacLpr

open Weighted

/-- The conversions in exact arithmetic: floats are read as they are, and the root grows with its
argument and leaves one alone. -/
class ExactCtcArithmetic [CtcArithmetic ℚ ℚ≥0] : Prop where
  ofFloat {value : ℚ} : 0 ≤ value → ((CtcArithmetic.ofFloat value : ℚ≥0) : ℚ) = value
  toFloat (w : ℚ≥0) : CtcArithmetic.toFloat w = (w : ℚ)
  root_one {timesteps : ℕ} : timesteps ≠ 0 → CtcArithmetic.root ℚ (1 : ℚ≥0) timesteps = 1
  root_lt_root {timesteps : ℕ} {v w : ℚ≥0} : timesteps ≠ 0 → v < w →
    CtcArithmetic.root ℚ v timesteps < CtcArithmetic.root ℚ w timesteps

namespace ConstrainedCtcBeamSearch

/-! ## Confusion pairs -/

/-- An accepted confusion weight is positive and at most one. -/
theorem confusionWeight_mem (b : ConstrainedCtcBeamSearch ℚ) :
    0 < b.config.confusionWeight ∧ b.config.confusionWeight ≤ 1 := by
  obtain ⟨_, -, haccepted⟩ := except_bind_eq_ok.mp b.accepted
  obtain ⟨_, hlimits, -⟩ := except_bind_eq_ok.mp haccepted
  have hweight := require_eq_ok.mp hlimits
  simp only [decide_eq_true_eq, not_le, not_lt] at hweight
  exact hweight.2.2.2.2.2.2.2

section

variable {F : Type} [Scalar F]

/-- How many confusion pairs read the character `a` as `x`. -/
def confusionCount (b : ConstrainedCtcBeamSearch F) (a x : Byte) : ℕ :=
  b.config.confusionPairs.countP fun pair => alternativeOf a pair = x

/-- **No plate over the charset is amplified**: none has a character that the confusion pairs of a
charset character read it as with a total weight above one. -/
def Unamplified (b : ConstrainedCtcBeamSearch ℚ) : Prop :=
  ∀ plate, b.grammar.isValidNormalized plate = true → (∀ x ∈ plate, x ∈ b.config.ctc.charset) →
    ∀ x ∈ plate, ∀ a ∈ b.config.ctc.charset,
      (b.confusionCount a x : ℚ) * b.config.confusionWeight ≤ 1

variable {b : ConstrainedCtcBeamSearch F}

theorem distinct_of_mem_confusionPairs {pair : Byte × Byte} (h : pair ∈ b.config.confusionPairs) :
    pair.1 ≠ pair.2 := by
  obtain ⟨_, -, haccepted⟩ := except_bind_eq_ok.mp b.accepted
  obtain ⟨_, -, haccepted⟩ := except_bind_eq_ok.mp haccepted
  have hpairs := List.all_eq_true.mp (require_eq_ok.mp haccepted) pair h
  simp only [decide_eq_true_eq] at hpairs
  exact hpairs.2.2

/-- What a pair reads a character as, when it does. -/
theorem alternativeOf_eq_iff {a x : Byte} (hx : x ≠ 0) {pair : Byte × Byte} :
    alternativeOf a pair = x ↔ pair = (a, x) ∨ (a ≠ pair.1 ∧ pair = (x, a)) := by
  obtain ⟨left, right⟩ := pair
  simp only [alternativeOf, Prod.mk.injEq]
  split
  · rename_i h
    simp [h]
  · split
    · rename_i h h'
      subst h'
      simp [h, Ne.symm h]
    · rename_i h h'
      simp [Ne.symm hx, Ne.symm h, Ne.symm h']

/-- No pair reads a character as itself. -/
theorem confusionCount_self {x : Byte} (hx : x ≠ 0) : b.confusionCount x x = 0 := by
  refine List.countP_eq_zero.mpr fun pair hpair => ?_
  have hne := distinct_of_mem_confusionPairs hpair
  rw [decide_eq_true_eq, alternativeOf_eq_iff hx]
  rintro (rfl | ⟨-, rfl⟩)
  · exact hne rfl
  · exact hne rfl

/-- A character two distinct pairs never read alike is read by one pair at most. -/
theorem confusionCount_le_one
    (h : b.config.confusionPairs.Pairwise fun p q => p ≠ q ∧ p ≠ q.swap) {a x : Byte} (hx : x ≠ 0) :
    b.confusionCount a x ≤ 1 := by
  unfold confusionCount
  generalize b.config.confusionPairs = pairs at h
  induction pairs with
  | nil => exact zero_le_one
  | cons pair pairs ih =>
    obtain ⟨hhead, htail⟩ := List.pairwise_cons.mp h
    rw [List.countP_cons]
    split
    · rename_i hpair
      have hnone : pairs.countP (fun pair => alternativeOf a pair = x) = 0 := by
        refine List.countP_eq_zero.mpr fun other hother => ?_
        obtain ⟨hne, hswap⟩ := hhead other hother
        simp only [decide_eq_true_eq, alternativeOf_eq_iff hx] at hpair ⊢
        rintro (rfl | ⟨-, rfl⟩)
        · rcases hpair with rfl | ⟨-, rfl⟩
          · exact hne rfl
          · exact hswap rfl
        · rcases hpair with rfl | ⟨-, rfl⟩
          · exact hswap rfl
          · exact hne rfl
      rw [hnone]
    · exact ih htail

end

/-- Pairs that are neither repeated nor mirrored amplify nothing. -/
theorem unamplified_of_pairwise {b : ConstrainedCtcBeamSearch ℚ}
    (h : b.config.confusionPairs.Pairwise fun p q => p ≠ q ∧ p ≠ q.swap) : b.Unamplified := by
  intro plate _ hcharset x hx a _
  have hzero : x ≠ 0 := fun h0 =>
    GreedyCtcDecoderConfig.zero_notMem_charset ctc_accepted (h0 ▸ hcharset x hx)
  have hcount : (b.confusionCount a x : ℚ) ≤ 1 := by
    exact_mod_cast confusionCount_le_one h hzero
  exact mul_le_one₀ hcount b.confusionWeight_mem.1.le b.confusionWeight_mem.2

/-! ## What a class is read as -/

section

variable {F : Type} [Scalar F] [CtcArithmetic F ℚ≥0] {b : ConstrainedCtcBeamSearch F}

theorem characterOf_mem {c : ℕ} (hc : b.alphabet.IsLetterClass c) :
    b.characterOf c ∈ b.config.ctc.charset := by
  have hindex := GreedyCtcDecoderConfig.charsetIndex_lt ctc_accepted hc.2 hc.1
  rw [characterOf, List.getElem?_eq_getElem hindex]
  exact List.getElem_mem hindex

/-- A class is read as charset characters only. -/
theorem mem_charset_of_mem_keys {c : ℕ} (hc : b.alphabet.IsLetterClass c) {x : Byte}
    (h : x ∈ keys (b.alphabet.emissions c)) : x ∈ b.config.ctc.charset := by
  obtain ⟨v, hv⟩ := mem_keys.mp h
  rcases List.mem_cons.mp hv with heq | hmem
  · obtain rfl := (Prod.mk.inj heq).1
    exact characterOf_mem hc
  · obtain ⟨other, hother, heq⟩ := List.mem_map.mp hmem
    obtain rfl := (Prod.mk.inj heq).1
    simpa using List.of_mem_filter hother

/-- **The weight a class is read as a character with**: one for its own, and the confusion weight
for every pair that joins the two. -/
theorem coeff_emissions (c : ℕ) {x : Byte} (hx : x ∈ b.config.ctc.charset) :
    coeff (b.alphabet.emissions c) x = (if b.characterOf c = x then 1 else 0) +
      b.confusionCount (b.characterOf c) x * CtcArithmetic.ofFloat b.config.confusionWeight := by
  have hzero : x ≠ 0 := fun h0 =>
    GreedyCtcDecoderConfig.zero_notMem_charset ctc_accepted (h0 ▸ hx)
  have hpairs : ∀ (a : Byte) (w : ℚ≥0) (pairs : List (Byte × Byte)),
      coeff (pairs.flatMap fun pair =>
        if alternativeOf a pair ≠ 0 ∧ charsetContains b.config.ctc (alternativeOf a pair) then
          [(alternativeOf a pair, w)] else []) x =
        pairs.countP (fun pair => alternativeOf a pair = x) * w := by
    intro a w pairs
    induction pairs with
    | nil => simp
    | cons pair pairs ih =>
      rw [List.flatMap_cons, coeff, pairing_append, ← coeff, ← coeff, ih, List.countP_cons]
      by_cases halternative : alternativeOf a pair = x
      · simp [halternative, hzero, charsetContains, hx, add_mul, add_comm]
      · have hother : coeff (if alternativeOf a pair ≠ 0 ∧
            charsetContains b.config.ctc (alternativeOf a pair) then
              [(alternativeOf a pair, w)] else []) x = 0 := by
          refine coeff_eq_zero fun hmem => halternative ?_
          split at hmem
          · simpa [keys, eq_comm] using hmem
          · simp [keys] at hmem
        rw [hother]
        simp [halternative]
  have hemissions : b.alphabet.emissions c = (b.characterOf c, 1) ::
      b.config.confusionPairs.flatMap fun pair =>
        if alternativeOf (b.characterOf c) pair ≠ 0 ∧
            charsetContains b.config.ctc (alternativeOf (b.characterOf c) pair) then
          [(alternativeOf (b.characterOf c) pair,
            CtcArithmetic.ofFloat b.config.confusionWeight)] else [] := by
    rw [confusions_eq]
    rfl
  rw [hemissions, coeff_cons, hpairs]
  rfl

/-! ## Softmax rows -/

/-- A softmax row is a distribution. -/
theorem sum_logSoftmax {row : List F} {weights : List ℚ≥0}
    (h : logSoftmax ℚ≥0 row = .ok weights) : weights.sum = 1 := by
  obtain ⟨maximum, -, h⟩ := except_bind_eq_ok.mp h
  cases maximum with
  | none => cases h
  | some maximum =>
    obtain ⟨_, hdenominator, h⟩ := except_bind_eq_ok.mp h
    have hpos := require_eq_ok.mp hdenominator
    simp only [decide_eq_true_eq, not_le] at hpos
    have hsum : row.foldl (fun sum value => sum + CtcArithmetic.expDiff value maximum) 0 =
        (row.map fun value => (CtcArithmetic.expDiff value maximum : ℚ≥0)).sum := by
      rw [List.sum_eq_foldl, List.foldl_map]
    rw [← Except.ok.inj h]
    simp only [div_eq_mul_inv]
    rw [List.sum_map_mul_right, ← hsum, mul_inv_cancel₀ hpos.2.ne']

end

section

variable [CtcArithmetic ℚ ℚ≥0] [ExactCtcArithmetic] {b : ConstrainedCtcBeamSearch ℚ}

/-- A class over-counts no character of a plate exactly when the pairs of its character do not. -/
theorem coeff_emissions_le_one_iff {c : ℕ} {x : Byte} (hx : x ∈ b.config.ctc.charset) :
    coeff (b.alphabet.emissions c) x ≤ 1 ↔
      (b.confusionCount (b.characterOf c) x : ℚ) * b.config.confusionWeight ≤ 1 := by
  have hzero : x ≠ 0 := fun h0 =>
    GreedyCtcDecoderConfig.zero_notMem_charset ctc_accepted (h0 ▸ hx)
  have hweight : ((CtcArithmetic.ofFloat b.config.confusionWeight : ℚ≥0) : ℚ) =
      b.config.confusionWeight := ExactCtcArithmetic.ofFloat b.confusionWeight_mem.1.le
  rw [coeff_emissions c hx]
  by_cases hown : b.characterOf c = x
  · rw [hown, confusionCount_self hzero]
    simp
  · rw [if_neg hown, zero_add, ← NNRat.coe_le_coe]
    push_cast
    rw [hweight]

/-- **The sum over all alignments is a probability for every plate exactly when no plate is
amplified.** -/
theorem alphabet_mass_le_one_iff :
    (∀ plate, b.grammar.isValidNormalized plate = true → ∀ (T : ℕ) (weight : ℕ → ℕ → ℚ≥0),
        (∀ t < T, ∑ c : Fin b.alphabet.classes, weight t c = 1) →
          b.alphabet.mass weight T plate ≤ 1) ↔ b.Unamplified := by
  have hblank : b.alphabet.blank < b.alphabet.classes :=
    GreedyCtcDecoderConfig.blankIndex_lt ctc_accepted
  have hclass : ∀ x ∈ b.config.ctc.charset, ∃ c, b.alphabet.IsLetterClass c ∧
      b.characterOf c = x := by
    intro x hx
    obtain ⟨c, hlt, hne, hget⟩ := GreedyCtcDecoderConfig.exists_class_of_mem_charset hx
    exact ⟨c, ⟨hlt, hne⟩, by rw [characterOf, hget]; rfl⟩
  have hplate : ∀ plate : Text, (∀ x ∈ plate, x ∈ b.config.ctc.charset) →
      ((∀ (T : ℕ) (weight : ℕ → ℕ → ℚ≥0),
        (∀ t < T, ∑ c : Fin b.alphabet.classes, weight t c = 1) →
          b.alphabet.mass weight T plate ≤ 1) ↔
        ∀ x ∈ plate, ∀ a ∈ b.config.ctc.charset,
          (b.confusionCount a x : ℚ) * b.config.confusionWeight ≤ 1) := by
    intro plate hcharset
    rw [b.alphabet.mass_le_one_iff hblank]
    · constructor
      · intro h x hx a ha
        obtain ⟨c, hc, rfl⟩ := hclass a ha
        exact (coeff_emissions_le_one_iff (hcharset x hx)).mp (h c hc x hx)
      · intro h c hc x hx
        exact (coeff_emissions_le_one_iff (hcharset x hx)).mpr (h x hx _ (characterOf_mem hc))
    · intro x hx
      obtain ⟨c, hc, rfl⟩ := hclass x (hcharset x hx)
      refine ⟨c, hc, ?_⟩
      rw [coeff_emissions c (hcharset _ hx), if_pos rfl]
      exact le_self_add
  constructor
  · exact fun h plate hvalid hcharset => (hplate plate hcharset).mp (h plate hvalid)
  · intro h plate hvalid
    by_cases hcharset : ∀ x ∈ plate, x ∈ b.config.ctc.charset
    · exact (hplate plate hcharset).mpr (h plate hvalid hcharset)
    · push Not at hcharset
      obtain ⟨x, hx, hnot⟩ := hcharset
      intro T weight _
      rw [b.alphabet.mass_eq_zero weight hx fun c hc hmem => hnot (mem_charset_of_mem_keys hc hmem)]
      exact zero_le_one

/-! ## Runs that amplify nothing -/

/-- The weight of the `merge_state` calls that keep a text or append the character `x` to it. -/
def passedOn (calls : List (BeamState ℚ≥0)) (text : Text) (x : Byte) : ℚ≥0 :=
  ((calls.filter fun call => call.text = text ∨ call.text = text ++ [x]).map BeamState.weight).sum

/-- The character a plate goes on with after a text. -/
def nextOf (plate text : Text) : List Byte :=
  if text <+: plate then plate[text.length]?.toList else []

/-- At no timestep does a state of the beam pass more than its weight on to its text and the text
with one of the characters that follow. -/
def unamplifiedRun (b : ConstrainedCtcBeamSearch ℚ) (follow : Text → List Byte) (classes : ℕ) :
    List (List ℚ) → List (BeamState ℚ≥0) → Bool
  | [], _ => true
  | row :: rows, beam =>
      match b.stepClasses ℚ≥0 row classes, b.mergeRow row classes beam with
      | .ok (weights, selected), .ok merged =>
          (beam.all fun st =>
            match b.expandBeam weights selected [st] with
            | .ok calls => (follow st.text).all fun x => passedOn calls st.text x ≤ st.weight
            | .error _ => true) && unamplifiedRun b follow classes rows (b.cutBeam merged)
      | _, _ => true

omit [CtcArithmetic ℚ ℚ≥0] [ExactCtcArithmetic] in
theorem passedOn_eq_pairing (calls : List (BeamState ℚ≥0)) (text : Text) (x : Byte) :
    passedOn calls text x = pairing calls (CtcAlphabet.keepsOrAppends text x) := by
  induction calls with
  | nil => rfl
  | cons call calls ih =>
    rw [pairing_cons, ← ih, passedOn, passedOn, CtcAlphabet.keepsOrAppends]
    by_cases h : (ofLex call.1).1 = text ∨ (ofLex call.1).1 = text ++ [x]
    · have hcall : call.text = text ∨ call.text = text ++ [x] := h
      rw [List.filter_cons, if_pos (by simpa using hcall), if_pos h, mul_one, List.map_cons,
        List.sum_cons]
      rfl
    · have hcall : ¬ (call.text = text ∨ call.text = text ++ [x]) := h
      rw [List.filter_cons, if_neg (by simpa using hcall), if_neg h, mul_zero, zero_add]

omit [CtcArithmetic ℚ ℚ≥0] [ExactCtcArithmetic] in
/-- What a state passes on is its weight times what a step from it does. -/
theorem passedOn_bind (st : BeamState ℚ≥0) (f : BeamKey → List (BeamState ℚ≥0)) (text : Text)
    (x : Byte) : passedOn (Weighted.bind [st] f) text x =
      st.weight * pairing (f st.1) (CtcAlphabet.keepsOrAppends text x) := by
  rw [passedOn_eq_pairing, pairing_bind, pairing_cons, pairing_nil, add_zero]
  rfl

omit [ExactCtcArithmetic] in
/-- **One timestep of a run that amplifies nothing.** -/
theorem unamplifiedRun_cons {follow : Text → List Byte} {classes : ℕ} {row : List ℚ}
    {rows : List (List ℚ)} {beam : List (BeamState ℚ≥0)} {merged : OrdMap BeamKey ℚ≥0}
    {weights : List ℚ≥0} (hweights : logSoftmax ℚ≥0 row = .ok weights)
    (hlength : weights.length = b.alphabet.classes) (hclasses : classes = b.alphabet.classes)
    (hmerged : b.mergeRow row classes beam = .ok merged) :
    b.unamplifiedRun follow classes (row :: rows) beam = true ↔
      (∀ st ∈ beam, ∀ x ∈ follow st.text, st.weight * pairing (b.searchStep weights st.1)
        (CtcAlphabet.keepsOrAppends st.text x) ≤ st.weight) ∧
      b.unamplifiedRun follow classes rows (b.cutBeam merged) = true := by
  have hstep : b.stepClasses ℚ≥0 row classes = .ok (weights, selectClasses weights
      (min b.config.classesPerStep b.alphabet.classes) b.config.ctc.blankIndex) := by
    rw [stepClasses, hweights, hclasses]
    rfl
  have hblank : b.config.ctc.blankIndex < weights.length :=
    hlength ▸ GreedyCtcDecoderConfig.blankIndex_lt ctc_accepted
  have hcalls : ∀ st : BeamState ℚ≥0, b.expandBeam weights (selectClasses weights
      (min b.config.classesPerStep b.alphabet.classes) b.config.ctc.blankIndex) [st] =
        .ok (Weighted.bind [st] (b.searchStep weights)) := fun st =>
    expandBeam_eq [st] fun c hc => hlength ▸ mem_selectClasses_lt hblank hc
  simp only [unamplifiedRun, hstep, hmerged, hcalls, passedOn_bind, Bool.and_eq_true,
    List.all_eq_true, decide_eq_true_eq]

/-- What is on the way to a plate. -/
def towards (plate : Text) (k : BeamKey) : ℚ≥0 := if (ofLex k).1 <+: plate then 1 else 0

omit [ExactCtcArithmetic] in
/-- The classes of a timestep are classes of the alphabet, each once. -/
theorem selected_subperm {weights : List ℚ≥0} (hlength : weights.length = b.alphabet.classes) :
    (selectClasses weights (min b.config.classesPerStep b.alphabet.classes)
      b.config.ctc.blankIndex).Subperm (List.range b.alphabet.classes) :=
  hlength ▸ selectClasses_subperm (hlength ▸ GreedyCtcDecoderConfig.blankIndex_lt ctc_accepted)

omit [CtcArithmetic ℚ ℚ≥0] [ExactCtcArithmetic] in
theorem sum_getD (weights : List ℚ≥0) :
    ∑ c : Fin weights.length, weights.getD c 0 = weights.sum := by
  simp [← Fin.sum_univ_getElem]

omit [ExactCtcArithmetic] in
/-- **A step from a state raises no plate's share** where it amplifies nothing on the way to it. -/
theorem pairing_searchStep_le {row : List ℚ} {weights : List ℚ≥0}
    (hweights : logSoftmax ℚ≥0 row = .ok weights) (hlength : weights.length = b.alphabet.classes)
    {plate : Text} {st : BeamState ℚ≥0} (h : ∀ x ∈ nextOf plate st.text,
      st.weight * pairing (b.searchStep weights st.1) (CtcAlphabet.keepsOrAppends st.text x) ≤
        st.weight) :
    st.weight * pairing (b.searchStep weights st.1) (towards plate) ≤
      st.weight * towards plate st.1 := by
  have hsplit : pairing (b.searchStep weights st.1) (towards plate) = _ :=
    b.alphabet.pairing_prefix_prunedStep plate
  rw [hsplit, towards]
  split
  · rename_i hprefix
    rw [mul_one]
    cases hnext : plate[(ofLex st.1).1.length]? with
    | some x =>
      refine h x ?_
      change x ∈ nextOf plate (ofLex st.1).1
      rw [nextOf, if_pos hprefix, hnext]
      exact List.mem_singleton_self x
    | none =>
      have hone : ∑ c : Fin b.alphabet.classes, weights.getD c 0 = 1 := by
        rw [← hlength, sum_getD, sum_logSoftmax hweights]
      exact mul_le_of_le_one_right zero_le
        ((b.alphabet.pairing_keeps_le (selected_subperm hlength)).trans hone.le)
  · exact le_rfl

omit [ExactCtcArithmetic] in
/-- **The share of a plate never grows** along a run that amplifies nothing on the way to it. -/
theorem pairing_beamLoop_le {classes : ℕ} (hclasses : classes = b.alphabet.classes) {plate : Text}
    {rows : List (List ℚ)} {beam final : List (BeamState ℚ≥0)}
    (hrows : ∀ row ∈ rows, row.length = classes) (hbeam : beam ≠ [])
    (h : b.beamLoop classes rows beam = .ok final)
    (hrun : b.unamplifiedRun (nextOf plate) classes rows beam = true) :
    pairing final (towards plate) ≤ pairing beam (towards plate) := by
  induction rows generalizing beam with
  | nil => exact (congrArg (fun l => pairing l (towards plate)) (Except.ok.inj h)).ge
  | cons row rows ih =>
    obtain ⟨merged, hmerged, h⟩ := except_bind_eq_ok.mp h
    have hlength := hrows row List.mem_cons_self
    have hne := cutBeam_ne_nil hclasses hlength hbeam hmerged
    rw [if_neg (by simpa using hne)] at h
    obtain ⟨weights, hweights, hclassCount, heq⟩ := mergeRow_eq hclasses hlength hmerged
    obtain ⟨hpassed, hrest⟩ :=
      (unamplifiedRun_cons hweights hclassCount hclasses hmerged).mp hrun
    calc pairing final (towards plate) ≤ pairing (b.cutBeam merged) (towards plate) :=
          ih (fun r hr => hrows r (List.mem_cons_of_mem _ hr)) hne h hrest
      _ ≤ pairing (Weighted.bind beam (b.searchStep weights)) (towards plate) := by
          refine pairing_mono (fun k => ?_) fun _ => le_rfl
          rw [← coeff_merged (Weighted.bind _ _), ← heq]
          exact coeff_cutBeam_le merged k
      _ ≤ pairing beam (towards plate) := pairing_bind_le fun st hst =>
          pairing_searchStep_le hweights hclassCount (hpassed st hst)

omit [ExactCtcArithmetic] in
/-- A run that amplifies nothing on the way to more texts amplifies nothing on the way to fewer. -/
theorem unamplifiedRun_mono {follow follow' : Text → List Byte} {classes : ℕ}
    (hsub : ∀ text, follow text ⊆ follow' text) {rows : List (List ℚ)}
    {beam : List (BeamState ℚ≥0)} (h : b.unamplifiedRun follow' classes rows beam = true) :
    b.unamplifiedRun follow classes rows beam = true := by
  induction rows generalizing beam with
  | nil => rfl
  | cons row rows ih =>
    rw [unamplifiedRun] at h ⊢
    split
    · rename_i weights selected merged hstep hmerged
      rw [hstep, hmerged] at h
      simp only [Bool.and_eq_true, List.all_eq_true] at h ⊢
      refine ⟨fun st hst => ?_, ih h.2⟩
      have hst := h.1 st hst
      split
      · rename_i calls hcalls
        rw [hcalls] at hst
        exact List.all_eq_true.mpr fun x hx => List.all_eq_true.mp hst x (hsub st.text hx)
      · rfl
    · rfl

omit [CtcArithmetic ℚ ℚ≥0] [ExactCtcArithmetic] in
/-- A plate over the charset goes on with a charset character. -/
theorem nextOf_subset {plate : Text} {charset : List Byte} (h : ∀ x ∈ plate, x ∈ charset)
    (text : Text) : nextOf plate text ⊆ charset := by
  intro x hx
  rw [nextOf] at hx
  split at hx
  · exact h x (List.mem_of_getElem? (Option.mem_toList.mp hx))
  · cases hx

/-- **No run amplifies what the confusion pairs do not**: only a duplicate branch can. -/
theorem Unamplified.unamplifiedRun (h : b.Unamplified) {plate : Text}
    (hvalid : b.grammar.isValidNormalized plate = true)
    (hcharset : ∀ x ∈ plate, x ∈ b.config.ctc.charset) {classes : ℕ}
    (hclasses : classes = b.alphabet.classes) {rows : List (List ℚ)}
    (hrows : ∀ row ∈ rows, row.length = classes) (beam : List (BeamState ℚ≥0)) :
    b.unamplifiedRun (nextOf plate) classes rows beam = true := by
  induction rows generalizing beam with
  | nil => rfl
  | cons row rows ih =>
    have hrest := ih fun r hr => hrows r (List.mem_cons_of_mem _ hr)
    cases hmerged : b.mergeRow row classes beam with
    | error e =>
      rw [ConstrainedCtcBeamSearch.unamplifiedRun]
      split
      · rename_i hok
        rw [hmerged] at hok
        cases hok
      · rfl
    | ok merged =>
      obtain ⟨weights, hweights, hlength, -⟩ :=
        mergeRow_eq hclasses (hrows row List.mem_cons_self) hmerged
      refine (unamplifiedRun_cons hweights hlength hclasses hmerged).mpr
        ⟨fun st _ x hx => mul_le_of_le_one_right zero_le ?_, hrest _⟩
      have hmem : x ∈ plate := nextOf_subset (fun _ hy => hy) st.text hx
      have hone : ∑ c : Fin b.alphabet.classes, weights.getD c 0 = 1 := by
        rw [← hlength, sum_getD, sum_logSoftmax hweights]
      refine (b.alphabet.pairing_keepsOrAppends_le (selected_subperm hlength)
        fun c hc hne => ?_).trans hone.le
      have hlt : c < b.alphabet.classes :=
        List.mem_range.mp ((selected_subperm hlength).subset hc)
      exact (coeff_emissions_le_one_iff (hcharset x hmem)).mpr
        (h plate hvalid hcharset x hmem _ (characterOf_mem ⟨hlt, hne⟩))

/-! ## The ranking -/

/-- A probability is not clamped. -/
theorem clamp_root {score : ℚ≥0} {timesteps : ℕ} (ht : timesteps ≠ 0) (h : score ≤ 1) :
    Scalar.clamp (CtcArithmetic.root ℚ score timesteps) 0 1 =
      CtcArithmetic.root ℚ score timesteps := by
  have hroot : CtcArithmetic.root ℚ score timesteps ≤ 1 := by
    rcases h.lt_or_eq with hlt | rfl
    · exact (ExactCtcArithmetic.root_one ht ▸ ExactCtcArithmetic.root_lt_root ht hlt).le
    · exact (ExactCtcArithmetic.root_one ht).le
  rw [Scalar.clamp, if_neg not_lt_zero, if_neg (not_lt.mpr hroot)]

omit [ExactCtcArithmetic] in
theorem confidenceFromWeight_zero (timesteps : ℕ) :
    confidenceFromWeight (0 : ℚ≥0) timesteps = (0 : ℚ) := by
  simp [confidenceFromWeight]

theorem confidenceFromWeight_of_pos {score : ℚ≥0} {timesteps : ℕ} (ht : timesteps ≠ 0)
    (hpos : 0 < score) (h : score ≤ 1) : confidenceFromWeight score timesteps =
      ((CtcArithmetic.root ℚ score timesteps : ℚ≥0) : ℚ) := by
  have hguard : ¬ ((!(Scalar.isFinite score && decide (0 < score))) = true ∨ timesteps = 0) := by
    simp [ht, hpos, show Scalar.isFinite score = true from rfl]
  rw [confidenceFromWeight, if_neg hguard, clamp_root ht h, ExactCtcArithmetic.toFloat]

/-- **The confidence grows with the score**, up to one. -/
theorem confidenceFromWeight_lt {score score' : ℚ≥0} {timesteps : ℕ} (ht : timesteps ≠ 0)
    (hlt : score < score') (h : score' ≤ 1) :
    (confidenceFromWeight score timesteps : ℚ) < confidenceFromWeight score' timesteps := by
  have hroot := ExactCtcArithmetic.root_lt_root ht hlt
  rw [confidenceFromWeight_of_pos ht (zero_le.trans_lt hlt) h]
  rcases (zero_le (a := score)).lt_or_eq with hpos | hzero
  · rw [confidenceFromWeight_of_pos ht hpos (hlt.le.trans h)]
    exact_mod_cast hroot
  · rw [← hzero, confidenceFromWeight_zero]
    exact_mod_cast zero_le.trans_lt hroot

/-- The order of scored texts: by score, then by text. -/
def scoreLess (left right : Text × ℚ≥0) : Bool :=
  if left.2 != right.2 then right.2 < left.2 else left.1 < right.1

/-- Candidates of probabilities are compared as their scores are. -/
theorem candidateLess_scoredCandidate {timesteps : ℕ} (ht : timesteps ≠ 0)
    {left right : Text × ℚ≥0} (hleft : left.2 ≤ 1) (hright : right.2 ≤ 1) :
    scoreLess left right = candidateLess (scoredCandidate timesteps left : PlateCandidate ℚ)
      (scoredCandidate timesteps right) := by
  rcases lt_trichotomy left.2 right.2 with hlt | heq | hlt
  · have hconfidence := confidenceFromWeight_lt ht hlt hright
    rw [scoreLess, if_pos (by simpa using hlt.ne), candidateLess,
      if_pos (by simpa [scoredCandidate] using hconfidence.ne)]
    exact (decide_eq_false hlt.not_gt).trans (decide_eq_false hconfidence.not_gt).symm
  · simp [scoreLess, candidateLess, scoredCandidate, heq]
  · have hconfidence := confidenceFromWeight_lt ht hlt hleft
    rw [scoreLess, if_pos (by simpa using hlt.ne'), candidateLess,
      if_pos (by simpa [scoredCandidate] using hconfidence.ne')]
    exact (decide_eq_true hlt).trans (decide_eq_true hconfidence).symm

/-- **The scores are probabilities**: none exceeds one, so the clamp of the confidence leaves the
root alone and the candidates are the best-scored texts, in the order of their scores; different
scores give different confidences. -/
structure ScoresAreProbabilities (b : ConstrainedCtcBeamSearch ℚ) (timesteps : ℕ)
    (scores : OrdMap Text ℚ≥0) (result : ConstrainedCtcBeamSearchResult ℚ) : Prop where
  le_one : ∀ text score, scores.find? text = some score → score ≤ 1
  unclamped : ∀ text score, scores.find? text = some score →
    Scalar.clamp (CtcArithmetic.root ℚ score timesteps) 0 1 = CtcArithmetic.root ℚ score timesteps
  ranked : result.fallbackUsed = false → result.candidates =
    ((stableSort scoreLess scores.entries).take b.config.resultLimit).map
      (scoredCandidate timesteps)
  distinct : ∀ text text' score score', scores.find? text = some score →
    scores.find? text' = some score' → score ≠ score' →
      (confidenceFromWeight score timesteps : ℚ) ≠ confidenceFromWeight score' timesteps

omit [ExactCtcArithmetic] in
/-- **A score is at most one in a run that amplifies nothing on the way to its plate.** -/
theorem score_le_one {logits : List ℚ} {timesteps classes : ℕ} {beam : List (BeamState ℚ≥0)}
    (hclasses : classes = b.alphabet.classes) (hlen : logits.length = timesteps * classes)
    (hbeam : b.finalBeam ℚ≥0 logits timesteps classes = .ok beam) {text : Text}
    (hrun : b.unamplifiedRun (nextOf text) classes
      ((List.range timesteps).map (logitsRow logits classes)) b.initialBeam = true) {score : ℚ≥0}
    (h : (b.finalScores beam).find? text = some score) : score ≤ 1 := by
  have hscore := getD_finalScores beam (isValidNormalized_of_find? h)
  rw [h, Option.getD_some] at hscore
  calc score = pairing beam fun k => if (ofLex k).1 = text then 1 else 0 := hscore
    _ ≤ pairing beam (towards text) := pairing_mono (fun _ => le_rfl) fun k => by
        rw [towards]
        split
        · rename_i heq
          rw [heq, if_pos (List.prefix_refl _)]
        · exact zero_le
    _ ≤ pairing b.initialBeam (towards text) :=
        pairing_beamLoop_le hclasses (length_of_mem_rows hlen) (List.cons_ne_nil _ _) hbeam hrun
    _ = 1 := by simp [initialBeam, towards]

/-- **Beam scores are probabilities when the run amplifies nothing**: over all plates in charset
characters, no state on the way to the plate passes more than its weight on to it. -/
theorem scoresAreProbabilities (b : ConstrainedCtcBeamSearch ℚ) {logits : List ℚ}
    {timesteps classes : ℕ} (hrun : ∀ plate, b.grammar.isValidNormalized plate = true →
      (∀ x ∈ plate, x ∈ b.config.ctc.charset) → b.unamplifiedRun (nextOf plate) classes
        ((List.range timesteps).map (logitsRow logits classes)) b.initialBeam = true)
    {result : ConstrainedCtcBeamSearchResult ℚ}
    (h : b.decode ℚ≥0 logits timesteps classes = .ok result) :
    ∃ beam, b.finalBeam ℚ≥0 logits timesteps classes = .ok beam ∧
      b.ScoresAreProbabilities timesteps (b.finalScores beam) result := by
  obtain ⟨greedy, beam, -, hclasses, hlen, hbeam, -, -, hcandidates⟩ := decode_eq_ok h
  have ht : timesteps ≠ 0 := by
    obtain ⟨_, -, h⟩ := except_bind_eq_ok.mp h
    obtain ⟨_, -, h⟩ := except_bind_eq_ok.mp h
    obtain ⟨_, hshape, -⟩ := except_bind_eq_ok.mp h
    have := require_eq_ok.mp hshape
    simp only [decide_eq_true_eq] at this
    exact this.1
  have hone : ∀ text score, (b.finalScores beam).find? text = some score → score ≤ 1 := by
    intro text score hscore
    have hvalid := isValidNormalized_of_find? hscore
    by_cases hcharset : ∀ x ∈ text, x ∈ b.config.ctc.charset
    · exact score_le_one hclasses hlen hbeam (hrun text hvalid hcharset) hscore
    · push Not at hcharset
      obtain ⟨x, hx, hnot⟩ := hcharset
      have hnone := b.alphabet.mass_eq_zero (rowWeight logits classes) (T := timesteps) hx
        fun c hc hmem => hnot (mem_charset_of_mem_keys hc hmem)
      exact (score_le_alignmentMass hclasses hlen hbeam hscore).trans
        (hnone.le.trans zero_le_one)
  refine ⟨beam, hbeam, ⟨hone, fun text score hscore => clamp_root ht (hone text score hscore),
    fun hused => ?_, fun text text' score score' hscore hscore' hne => ?_⟩⟩
  · have hentries : ∀ entry ∈ (b.finalScores beam).entries, entry.2 ≤ 1 := fun entry hentry =>
      hone entry.1 entry.2 (OrdMap.mem_entries.mp hentry)
    rcases hcandidates with ⟨-, hcandidates⟩ | ⟨hfallback, -⟩
    · have hsort : (stableSort scoreLess (b.finalScores beam).entries).map
          (scoredCandidate timesteps) = stableSort candidateLess
            ((b.finalScores beam).entries.map (scoredCandidate timesteps : _ → PlateCandidate ℚ)) :=
        map_stableSort fun left hleft right hright =>
          candidateLess_scoredCandidate ht (hentries left hleft) (hentries right hright)
      rw [hcandidates, scoredCandidates, List.map_take, hsort]
    · rw [hused] at hfallback
      cases hfallback
  · rcases lt_or_gt_of_ne hne with hlt | hlt
    · exact (confidenceFromWeight_lt ht hlt (hone _ _ hscore')).ne
    · exact (confidenceFromWeight_lt ht hlt (hone _ _ hscore)).ne'

end

section OneHot

attribute [local instance] oneHotArithmetic

instance exactCtcArithmetic_oneHot : ExactCtcArithmetic where
  ofFloat h := Rat.coe_toNNRat _ h
  toFloat _ := rfl
  root_one _ := rfl
  root_lt_root _ h := h

/-- A search whose mirrored pairs may read `8` as `B` twice, and that looks at two classes. -/
def narrowSearch : ConstrainedCtcBeamSearch ℚ where
  config := { ctc := { charset := ascii "1A8B" }, classesPerStep := 2, confusionWeight := 1,
              confusionPairs := [(byte '8', byte 'B'), (byte 'B', byte '8')] }
  grammar := .default
  accepted := by decide +kernel

/-- The logits of the plate `11A1111` over four characters. -/
def narrowLogits : List ℚ :=
  [1, 0, 1, 2, 1, 0, 1, 0, 1, 0, 1].flatMap fun c =>
    (List.range 5).map fun k => if k = c then 0 else -1000

theorem narrow_run : (match narrowSearch.decode ℚ≥0 narrowLogits 11 5 with
    | .ok result => result.candidates.map PlateCandidate.text == [ascii "11A1111"] &&
        narrowSearch.unamplifiedRun (fun _ => narrowSearch.config.ctc.charset) 5
          ((List.range 11).map (logitsRow narrowLogits 5)) narrowSearch.initialBeam
    | _ => false) = true := by
  decide +kernel

theorem scoresAreProbabilities_narrow :
    ∃ result beam, narrowSearch.decode ℚ≥0 narrowLogits 11 5 = .ok result ∧
      narrowSearch.finalBeam ℚ≥0 narrowLogits 11 5 = .ok beam ∧
        narrowSearch.ScoresAreProbabilities 11 (narrowSearch.finalScores beam) result ∧
          result.candidates.map PlateCandidate.text = [ascii "11A1111"] := by
  have hrun := narrow_run
  cases hdecode : narrowSearch.decode ℚ≥0 narrowLogits 11 5 with
  | error e =>
    rw [hdecode] at hrun
    cases hrun
  | ok result =>
    rw [hdecode] at hrun
    obtain ⟨htexts, hrun⟩ := Bool.and_eq_true_iff.mp hrun
    obtain ⟨beam, hbeam, hscores⟩ := scoresAreProbabilities narrowSearch
      (fun _ _ hcharset => unamplifiedRun_mono (nextOf_subset hcharset) hrun) hdecode
    exact ⟨result, beam, rfl, hbeam, hscores, beq_iff_eq.mp htexts⟩

/-- A search whose one confusion pair is also listed mirrored. -/
def mirroredSearch : ConstrainedCtcBeamSearch ℚ where
  config := { ctc := { charset := ascii "1I" }, confusionWeight := 1,
              confusionPairs := [(byte '1', byte 'I'), (byte 'I', byte '1')] }
  grammar := .default
  accepted := by decide +kernel

/-- The classes of `1` and `I` in turn. -/
def alternatingLogits : List ℚ :=
  [1, 2, 1, 2, 1, 2, 1].flatMap fun c => (List.range 3).map fun k => if k = c then 0 else -1000

theorem mirrored_run : (match mirroredSearch.decode ℚ≥0 alternatingLogits 7 3,
      mirroredSearch.finalBeam ℚ≥0 alternatingLogits 7 3 with
    | .ok result, .ok beam =>
        (mirroredSearch.finalScores beam).find? (ascii "11II111") == some 8 &&
          (mirroredSearch.finalScores beam).find? (ascii "11III11") == some 16 &&
          result.candidates.map PlateCandidate.text ==
            [ascii "11I1111", ascii "11II111", ascii "11III11"] &&
          result.candidates.all fun candidate => candidate.confidence == 1
    | _, _ => false) = true := by
  decide +kernel

/-- **A mirrored pair amplifies**: scores exceed one, the clamp gives every candidate the confidence
one, and a text goes before one with twice its score. -/
theorem mirrored_pair_amplifies :
    ∃ result beam, mirroredSearch.decode ℚ≥0 alternatingLogits 7 3 = .ok result ∧
      mirroredSearch.finalBeam ℚ≥0 alternatingLogits 7 3 = .ok beam ∧
      (mirroredSearch.finalScores beam).find? (ascii "11II111") = some 8 ∧
      (mirroredSearch.finalScores beam).find? (ascii "11III11") = some 16 ∧
      result.candidates.map PlateCandidate.text =
        [ascii "11I1111", ascii "11II111", ascii "11III11"] ∧
      ∀ candidate ∈ result.candidates, candidate.confidence = 1 := by
  have hrun := mirrored_run
  cases hdecode : mirroredSearch.decode ℚ≥0 alternatingLogits 7 3 with
  | error e =>
    rw [hdecode] at hrun
    cases hrun
  | ok result =>
    cases hbeam : mirroredSearch.finalBeam ℚ≥0 alternatingLogits 7 3 with
    | error e =>
      rw [hdecode, hbeam] at hrun
      cases hrun
    | ok beam =>
      rw [hdecode, hbeam] at hrun
      simp only [Bool.and_eq_true, beq_iff_eq, List.all_eq_true] at hrun
      obtain ⟨⟨⟨hlow, hhigh⟩, htexts⟩, hconfidence⟩ := hrun
      exact ⟨result, beam, rfl, rfl, hlow, hhigh, htexts, hconfidence⟩

end OneHot

end ConstrainedCtcBeamSearch

end FacLpr
