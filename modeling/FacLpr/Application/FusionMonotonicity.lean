import FacLpr.Application.FusionConflict

/-!
# Application/FusionMonotonicity — more calibrated confidence, no less support

The fusion reads a calibrated confidence of zero as "not calibrated" and uses the raw confidence
instead.  Above zero the fused support grows with every calibrated confidence; from zero a raise
helps when it reaches the raw confidence (`raiseKeepsSupport_iff`).
-/

namespace FacLpr

/-! ## One place changed -/

section

variable {α β γ : Type}

/-- A loop that does not see the change of one place. -/
theorem foldl_zipIdx_modify {g : β → α × ℕ → β} {f : α → α} {l : List α} {k n : ℕ} {b : β}
    (h : ∀ a, l[k]? = some a → ∀ b, g b (f a, n + k) = g b (a, n + k)) :
    ((l.modify k f).zipIdx n).foldl g b = (l.zipIdx n).foldl g b := by
  induction l generalizing k n b with
  | nil => rw [List.modify_nil]
  | cons a l ih =>
    cases k with
    | zero =>
      rw [List.modify_zero_cons, List.zipIdx_cons, List.zipIdx_cons, List.foldl_cons,
        List.foldl_cons, ← Nat.add_zero n, h a rfl]
    | succ k =>
      rw [List.modify_succ_cons, List.zipIdx_cons, List.zipIdx_cons, List.foldl_cons,
        List.foldl_cons]
      refine ih fun a ha b => ?_
      rw [Nat.add_right_comm]
      exact h a ha b

/-- What is made of the places changes at most at one. -/
theorem forall₂_zipIdx_modify {R : γ → γ → Prop} {g : α × ℕ → γ} {f : α → α} {l : List α} {k : ℕ}
    (hrefl : ∀ x, R (g x) (g x)) (h : ∀ a, l[k]? = some a → R (g (a, k)) (g (f a, k))) :
    List.Forall₂ R (l.zipIdx.map g) ((l.modify k f).zipIdx.map g) := by
  rw [List.forall₂_iff_get]
  refine ⟨by simp, fun j hj _ => ?_⟩
  have hjl : j < l.length := by simpa using hj
  simp only [List.get_eq_getElem, List.getElem_map, List.getElem_zipIdx, Nat.zero_add,
    List.getElem_modify]
  split
  · rename_i hkj
    subst hkj
    exact h _ (List.getElem?_eq_getElem hjl)
  · exact hrefl _

end

/-- The candidate with another calibrated confidence. -/
def PlateCandidate.withCalibrated (candidate : PlateCandidate ℚ) (value : ℚ) : PlateCandidate ℚ :=
  { candidate with calibratedConfidence := value }

@[simp] theorem PlateCandidate.text_withCalibrated (candidate : PlateCandidate ℚ) (value : ℚ) :
    (candidate.withCalibrated value).text = candidate.text := rfl

/-- The item with another calibrated confidence at a place. -/
def RecognitionEvidence.withCalibrated {D : Type} (item : RecognitionEvidence ℚ D) (k : ℕ)
    (value : ℚ) : RecognitionEvidence ℚ D :=
  { item with candidates := item.candidates.modify k fun candidate =>
      candidate.withCalibrated value }

namespace CandidateFusion

variable {D : Type}

/-- The candidate at place `k` of item `i`. -/
def candidateAt (evidence : List (RecognitionEvidence ℚ D)) (i k : ℕ) :
    Option (PlateCandidate ℚ) :=
  evidence[i]?.bind fun item => item.candidates[k]?

/-- The evidence with another calibrated confidence of one candidate. -/
def withCalibrated (evidence : List (RecognitionEvidence ℚ D)) (i k : ℕ) (value : ℚ) :
    List (RecognitionEvidence ℚ D) :=
  evidence.modify i fun item => item.withCalibrated k value

/-- The fused support of a text before the cut; an absent text has none. -/
def untruncatedSupport (config : CandidateFusionConfig ℚ)
    (evidence : List (RecognitionEvidence ℚ D)) (layoutEvidence : List (LayoutEvidence ℚ))
    (text : Text) : ℚ :=
  ((ranked config evidence layoutEvidence).find? fun candidate => candidate.text == text).elim 0
    PlateCandidate.confidence

/-- Raising the calibrated confidence of a candidate to `value` never lowers the support of its
text, whatever the configuration, the evidence around it and the layouts. -/
def RaiseKeepsSupport (D : Type) (candidate : PlateCandidate ℚ) (value : ℚ) : Prop :=
  ∀ (c : Config ℚ) (evidence : List (RecognitionEvidence ℚ D))
    (layoutEvidence : List (LayoutEvidence ℚ)) (i k : ℕ),
    candidateAt evidence i k = some candidate →
    untruncatedSupport c.config evidence layoutEvidence candidate.text ≤
      untruncatedSupport c.config (withCalibrated evidence i k value) layoutEvidence candidate.text

/-! ## The support as a noisy-or of all items -/

theorem untruncatedSupport_eq (c : Config ℚ) (evidence : List (RecognitionEvidence ℚ D))
    (layoutEvidence : List (LayoutEvidence ℚ)) (text : Text) :
    untruncatedSupport c.config evidence layoutEvidence text =
      support c.config evidence layoutEvidence text := by
  unfold untruncatedSupport
  cases hfind : (ranked c.config evidence layoutEvidence).find? fun candidate =>
      candidate.text == text with
  | some candidate =>
    obtain rfl : candidate.text = text := by simpa using List.find?_some hfind
    have hform := (mem_ranked_rat.mp (List.mem_of_find?_eq_some hfind)).2
    exact congrArg PlateCandidate.confidence hform
  | none =>
    have habsent : text ∉ countedTexts c.config evidence := by
      intro hcounted
      have hmem : candidateOf c.config evidence layoutEvidence text ∈
          ranked c.config evidence layoutEvidence := mem_ranked_rat.mpr ⟨hcounted, rfl⟩
      have hne := List.find?_eq_none.mp hfind _ hmem
      exact hne (beq_iff_eq.mpr rfl)
    rw [mem_countedTexts, Bool.not_eq_false, List.isEmpty_iff] at habsent
    simp [support, habsent]

/-- The vote of an item for a text; none when the fusion skips the item. -/
def vote (config : CandidateFusionConfig ℚ) (layoutEvidence : List (LayoutEvidence ℚ)) (text : Text)
    (voter : RecognitionEvidence ℚ D × ℕ) : ℚ :=
  if isUsable config voter.1 then
    bestScore config text voter.1 (layoutQuality layoutEvidence voter.2)
  else 0

theorem vote_mem (c : Config ℚ) (layoutEvidence : List (LayoutEvidence ℚ)) (text : Text)
    (voter : RecognitionEvidence ℚ D × ℕ) :
    0 ≤ vote c.config layoutEvidence text voter ∧ vote c.config layoutEvidence text voter ≤ 1 := by
  unfold vote
  split
  · exact voteFor_mem c layoutEvidence text voter
  · exact ⟨le_refl _, zero_le_one⟩

/-- An item that does not mention the text has no score for it. -/
theorem bestScore_eq_zero {config : CandidateFusionConfig ℚ} {text : Text}
    {item : RecognitionEvidence ℚ D} {layout : ℚ} (h : mentions config text item = false) :
    bestScore config text item layout = 0 := by
  have hempty : (item.candidates.zipIdx.filter fun x =>
      isCounted config x.1 && x.1.text == text) = [] := by
    rw [← List.isEmpty_iff, ← Bool.not_eq_false', not_isEmpty_filter,
      any_zipIdx item.candidates fun candidate => isCounted config candidate &&
        candidate.text == text]
    exact h
  rw [bestScore, hempty]
  rfl

theorem support_eq_noisyOr (config : CandidateFusionConfig ℚ)
    (evidence : List (RecognitionEvidence ℚ D)) (layoutEvidence : List (LayoutEvidence ℚ))
    (text : Text) :
    support config evidence layoutEvidence text =
      noisyOr (evidence.zipIdx.map (vote config layoutEvidence text)) := by
  have hskipped : ∀ voter ∈ evidence.zipIdx,
      (isUsable config voter.1 && mentions config text voter.1) = false →
        vote config layoutEvidence text voter = 0 := by
    intro voter _ h
    unfold vote
    split
    · rename_i husable
      rw [husable, Bool.true_and] at h
      exact bestScore_eq_zero h
    · rfl
  rw [← noisyOr_filter hskipped, support_eq]
  refine congrArg noisyOr (List.map_congr_left fun voter hvoter => ?_)
  have husable := (Bool.and_eq_true _ _ ▸ List.of_mem_filter hvoter).1
  simp [vote, voteFor, husable]

/-! ## One candidate raised -/

/-- The margin reads the other texts of the item only. -/
theorem candidateMargin_withCalibrated {item : RecognitionEvidence ℚ D} {k : ℕ}
    {candidate other : PlateCandidate ℚ} (hk : item.candidates[k]? = some candidate)
    (htext : other.text = candidate.text) (value : ℚ) (index : ℕ) :
    candidateMargin (item.withCalibrated k value) other index =
      candidateMargin item other index := by
  have hloop := foldl_zipIdx_modify (n := 0) (b := (0 : ℚ))
    (f := fun candidate : PlateCandidate ℚ => candidate.withCalibrated value)
    (g := fun highest x => if x.2 = index ∨ x.1.text = other.text then highest
      else Scalar.max highest (effectiveConfidence x.1)) (l := item.candidates) (k := k)
    fun a ha b => by
      obtain rfl := Option.some.inj (hk.symm.trans ha)
      exact (if_pos (Or.inr htext.symm)).trans (if_pos (Or.inr htext.symm)).symm
  exact congrArg (fun highest => Scalar.clamp01 (effectiveConfidence other - highest)) hloop

theorem candidateMargin_mono (item : RecognitionEvidence ℚ D) {a b : PlateCandidate ℚ} (index : ℕ)
    (htext : a.text = b.text) (h : effectiveConfidence a ≤ effectiveConfidence b) :
    candidateMargin item a index ≤ candidateMargin item b index := by
  simp only [candidateMargin, htext]
  exact Scalar.clamp01_mono (sub_le_sub_right h _)

/-- A score grows with the confidence and the margin. -/
theorem score_mono (c : Config ℚ) {item item' : RecognitionEvidence ℚ D} (layout : ℚ)
    {a b : PlateCandidate ℚ} {index : ℕ} (hsource : item.source = item'.source)
    (hquality : item.cropQuality = item'.cropQuality)
    (h : effectiveConfidence a ≤ effectiveConfidence b)
    (hmargin : candidateMargin item a index ≤ candidateMargin item' b index) :
    score c.config item layout a index ≤ score c.config item' layout b index := by
  have hweighted := c.weighted
  have hrecognition := (Scalar.isProbability_rat.mp hweighted.recognition).1
  have hmarginWeight := (Scalar.isProbability_rat.mp hweighted.candidateMargin).1
  have htotal : 0 ≤ c.config.totalWeight := (not_le.mp hweighted.total.2).le
  simp only [score, hsource, hquality]
  refine mul_le_mul_of_nonneg_left (Scalar.clamp01_mono ?_) (sourceWeight_mem c _).1
  gcongr

/-- A best score is the least upper bound of zero and the scores. -/
theorem bestScore_le_iff {config : CandidateFusionConfig ℚ} {text : Text}
    {item : RecognitionEvidence ℚ D} {layout m : ℚ} :
    bestScore config text item layout ≤ m ↔ 0 ≤ m ∧ ∀ candidate index,
      item.candidates[index]? = some candidate → isCounted config candidate = true →
        candidate.text = text → score config item layout candidate index ≤ m := by
  have hfold : ∀ (l : List ℚ) (best : ℚ),
      l.foldl Scalar.max best ≤ m ↔ best ≤ m ∧ ∀ x ∈ l, x ≤ m := by
    intro l
    induction l with
    | nil => simp
    | cons x l ih =>
      intro best
      rw [List.foldl_cons, ih, Scalar.max_rat, max_le_iff, List.forall_mem_cons, and_assoc]
  rw [bestScore, hfold, List.forall_mem_map]
  refine and_congr_right fun _ =>
    ⟨fun h candidate index hget hcounted htext => ?_, fun h x hx => ?_⟩
  · refine h (candidate, index) (List.mem_filter.mpr ⟨List.mem_zipIdx_iff_getElem?.mpr hget, ?_⟩)
    simp [hcounted, htext]
  · obtain ⟨hmem, hflags⟩ := List.mem_filter.mp hx
    rw [Bool.and_eq_true, beq_iff_eq] at hflags
    exact h x.1 x.2 (List.mem_zipIdx_iff_getElem?.mp hmem) hflags.1 hflags.2

/-- **Raising one candidate raises the best score of its text.** -/
theorem bestScore_withCalibrated (c : Config ℚ) {item : RecognitionEvidence ℚ D} (layout : ℚ)
    {k : ℕ} {candidate : PlateCandidate ℚ} {value : ℚ}
    (hk : item.candidates[k]? = some candidate)
    (h : effectiveConfidence candidate ≤ effectiveConfidence (candidate.withCalibrated value)) :
    bestScore c.config candidate.text item layout ≤
      bestScore c.config candidate.text (item.withCalibrated k value) layout := by
  obtain ⟨hnonneg, hbest⟩ := bestScore_le_iff.mp
    (le_refl (bestScore c.config candidate.text (item.withCalibrated k value) layout))
  refine bestScore_le_iff.mpr ⟨hnonneg, fun other index hget hcounted htext => ?_⟩
  by_cases hindex : k = index
  · subst hindex
    obtain rfl := Option.some.inj (hk.symm.trans hget)
    have hget' : (item.withCalibrated k value).candidates[k]? =
        some (candidate.withCalibrated value) := by
      rw [RecognitionEvidence.withCalibrated, List.getElem?_modify_eq, hk]
      rfl
    have hcounted' : isCounted c.config (candidate.withCalibrated value) = true := by
      simp only [isCounted, Bool.not_eq_true', Bool.or_eq_false_iff, decide_eq_false_iff_not,
        not_lt] at hcounted ⊢
      exact ⟨hcounted.1, hcounted.2.trans h⟩
    have hmargin : candidateMargin item candidate k ≤
        candidateMargin (item.withCalibrated k value) (candidate.withCalibrated value) k := by
      have hsame :
          candidateMargin (item.withCalibrated k value) (candidate.withCalibrated value) k =
            candidateMargin item (candidate.withCalibrated value) k :=
        candidateMargin_withCalibrated hk (PlateCandidate.text_withCalibrated candidate value)
          value k
      rw [hsame]
      exact candidateMargin_mono item k rfl h
    have hscore : score c.config item layout candidate k ≤
        score c.config (item.withCalibrated k value) layout (candidate.withCalibrated value) k :=
      score_mono c layout rfl rfl h hmargin
    exact hscore.trans (hbest _ _ hget' hcounted' rfl)
  · have hget' : (item.withCalibrated k value).candidates[index]? = some other := by
      rw [RecognitionEvidence.withCalibrated, List.getElem?_modify_ne _ _ hindex, hget]
    have hmargin : candidateMargin item other index ≤
        candidateMargin (item.withCalibrated k value) other index :=
      (candidateMargin_withCalibrated hk htext value index).ge
    have hscore : score c.config item layout other index ≤
        score c.config (item.withCalibrated k value) layout other index :=
      score_mono c layout rfl rfl (le_refl _) hmargin
    exact hscore.trans (hbest _ _ hget' hcounted htext)

/-- **Raising one candidate raises the support of its text.** -/
theorem support_withCalibrated (c : Config ℚ) {evidence : List (RecognitionEvidence ℚ D)}
    (layoutEvidence : List (LayoutEvidence ℚ)) {i k : ℕ} {candidate : PlateCandidate ℚ} {value : ℚ}
    (hat : candidateAt evidence i k = some candidate)
    (h : effectiveConfidence candidate ≤ effectiveConfidence (candidate.withCalibrated value)) :
    support c.config evidence layoutEvidence candidate.text ≤
      support c.config (withCalibrated evidence i k value) layoutEvidence candidate.text := by
  rw [support_eq_noisyOr, support_eq_noisyOr]
  refine noisyOr_mono (forall₂_zipIdx_modify (fun voter => ⟨le_refl _, (vote_mem c _ _ _).2⟩) ?_)
  intro item hitem
  refine ⟨?_, (vote_mem c _ _ _).2⟩
  have hk : item.candidates[k]? = some candidate := by
    rwa [candidateAt, hitem, Option.bind_some] at hat
  have husable : isUsable c.config (item.withCalibrated k value) = isUsable c.config item := rfl
  unfold vote
  rw [husable]
  split
  · exact bestScore_withCalibrated c _ hk h
  · exact le_refl _

/-! ## When a raise raises the confidence -/

/-- The raise of the calibrated confidence raises the confidence the fusion uses: it starts above
zero, or reaches the raw confidence, or leaves zero alone. -/
def RaisesEffective (candidate : PlateCandidate ℚ) (value : ℚ) : Prop :=
  0 < candidate.calibratedConfidence ∨ Scalar.clamp01 candidate.confidence ≤ value ∨ value = 0

theorem effectiveConfidence_of_pos {candidate : PlateCandidate ℚ}
    (h : 0 < candidate.calibratedConfidence) :
    effectiveConfidence candidate = Scalar.clamp01 candidate.calibratedConfidence := by
  simp [effectiveConfidence, h]

theorem effectiveConfidence_of_eq_zero {candidate : PlateCandidate ℚ}
    (h : candidate.calibratedConfidence = 0) :
    effectiveConfidence candidate = Scalar.clamp01 candidate.confidence := by
  simp [effectiveConfidence, h]

theorem effectiveConfidence_le_iff {candidate : PlateCandidate ℚ} {value : ℚ}
    (h0 : 0 ≤ candidate.calibratedConfidence) (hraise : candidate.calibratedConfidence ≤ value)
    (h1 : value ≤ 1) :
    effectiveConfidence candidate ≤ effectiveConfidence (candidate.withCalibrated value) ↔
      RaisesEffective candidate value := by
  rcases h0.lt_or_eq with hpos | hzero
  · refine iff_of_true ?_ (Or.inl hpos)
    have hpos' : 0 < (candidate.withCalibrated value).calibratedConfidence := hpos.trans_le hraise
    rw [effectiveConfidence_of_pos hpos, effectiveConfidence_of_pos hpos']
    exact Scalar.clamp01_mono hraise
  · rw [RaisesEffective, ← hzero, effectiveConfidence_of_eq_zero hzero.symm,
      or_iff_right (lt_irrefl _)]
    rcases (hzero.trans_le hraise).lt_or_eq with hvalue | hvalue
    · have hpos' : 0 < (candidate.withCalibrated value).calibratedConfidence := hvalue
      rw [effectiveConfidence_of_pos hpos', or_iff_left hvalue.ne',
        Scalar.clamp01_of_mem hpos'.le h1]
      rfl
    · subst hvalue
      exact iff_of_true (effectiveConfidence_of_eq_zero rfl).ge (Or.inr rfl)

/-- A fusion that weighs nothing but the recognition. -/
def Config.recognitionOnly : Config ℚ :=
  ⟨{ recognitionWeight := 1, cropQualityWeight := 0, candidateMarginWeight := 0, layoutWeight := 0,
     minimumCandidateConfidence := 0 }, by decide +kernel⟩

/-- Evidence of one candidate. -/
def lone [Zero D] (candidate : PlateCandidate ℚ) : List (RecognitionEvidence ℚ D) :=
  [⟨[], [candidate], 1, 0⟩]

/-- A lone candidate is supported by its confidence. -/
theorem support_lone [Zero D] {candidate : PlateCandidate ℚ} (htext : candidate.text ≠ []) :
    support Config.recognitionOnly.config (lone candidate : List (RecognitionEvidence ℚ D)) []
      candidate.text = effectiveConfidence candidate := by
  have hunit := effectiveConfidence_mem candidate
  have hweight : ∀ source, sourceWeight Config.recognitionOnly.config source = 1 := fun _ => rfl
  have htotal : Config.recognitionOnly.config.totalWeight = 1 := by decide +kernel
  have hcounted : isCounted Config.recognitionOnly.config candidate = true := by
    have hmin : ¬ effectiveConfidence candidate <
        Config.recognitionOnly.config.minimumCandidateConfidence := not_lt.mpr hunit.1
    rw [isCounted, decide_eq_false hmin, Bool.or_false, Bool.not_eq_true',
      List.isEmpty_eq_false_iff]
    exact htext
  have hscore : score Config.recognitionOnly.config (⟨[], [candidate], 1, 0⟩ :
      RecognitionEvidence ℚ D) (layoutQuality [] 0) candidate 0 =
        effectiveConfidence candidate := by
    rw [score, hweight, htotal]
    simp [Config.recognitionOnly, Scalar.clamp01_of_mem hunit.1 hunit.2]
  rw [support_eq_noisyOr]
  simp [lone, vote, isUsable, hweight, bestScore, hcounted, hscore, noisyOr, Scalar.max_rat,
    hunit.1]

/-- **Exactly when a raise of the calibrated confidence never lowers the support**: from above zero
always; from zero, which stands for "not calibrated", when it reaches the raw confidence. -/
theorem raiseKeepsSupport_iff [Zero D] {candidate : PlateCandidate ℚ} {value : ℚ}
    (htext : candidate.text ≠ []) (h0 : 0 ≤ candidate.calibratedConfidence)
    (hraise : candidate.calibratedConfidence ≤ value) (h1 : value ≤ 1) :
    RaiseKeepsSupport D candidate value ↔ RaisesEffective candidate value := by
  rw [← effectiveConfidence_le_iff h0 hraise h1]
  constructor
  · intro hkeeps
    have hlone := hkeeps Config.recognitionOnly (lone candidate) [] 0 0 rfl
    have hraised : withCalibrated (lone candidate : List (RecognitionEvidence ℚ D)) 0 0 value =
        lone (candidate.withCalibrated value) := rfl
    have htext' : (candidate.withCalibrated value).text ≠ [] := htext
    rw [hraised, untruncatedSupport_eq, untruncatedSupport_eq, support_lone htext] at hlone
    exact hlone.trans_eq (support_lone htext')
  · intro h c evidence layoutEvidence i k hat
    rw [untruncatedSupport_eq, untruncatedSupport_eq]
    exact support_withCalibrated c layoutEvidence hat h

/-- A raise from a calibrated half to three quarters. -/
theorem raiseKeepsSupport_iff_calibrated :
    RaiseKeepsSupport ℚ ⟨ascii "34A1234", 9 / 10, 1 / 2, true⟩ (3 / 4) ↔
      RaisesEffective ⟨ascii "34A1234", 9 / 10, 1 / 2, true⟩ (3 / 4) :=
  raiseKeepsSupport_iff (by decide) (by norm_num) (by norm_num) (by norm_num)

/-- A calibrated confidence of zero counts as the raw confidence, so raising it to a tenth lowers
the support. -/
theorem raise_from_zero_lowers_support :
    let candidate : PlateCandidate ℚ := ⟨ascii "34A1234", 9 / 10, 0, true⟩
    let evidence : List (RecognitionEvidence ℚ ℚ) := lone candidate
    candidateAt evidence 0 0 = some candidate ∧ candidate.calibratedConfidence ≤ 1 / 10 ∧
      ¬ untruncatedSupport Config.default.config evidence [] candidate.text ≤
        untruncatedSupport Config.default.config (withCalibrated evidence 0 0 (1 / 10)) []
          candidate.text := by
  decide +kernel

end CandidateFusion

end FacLpr
