import FacLpr.Application.SafeDecisionPolicy
import FacLpr.Foundations.NoisyOr
import Mathlib.Algebra.Order.BigOperators.Group.List

/-!
# Application/FusionConflict — what the cut of the fused list hides from the policy

In exact arithmetic the support of a text is the noisy-or of its votes, and a text survives the cut
when fewer than `maxCandidates` texts rank ahead of it, format-valid or not.  So the policy misses a
strong rival exactly when the cut keeps the plate and no other format-valid text
(`decisionNeutral_iff`).
-/

namespace FacLpr

namespace CandidateFusion

variable {D : Type}

/-! ## Support as a noisy-or -/

/-- The fused support of a text over all the evidence. -/
def support (config : CandidateFusionConfig ℚ) (evidence : List (RecognitionEvidence ℚ D))
    (layoutEvidence : List (LayoutEvidence ℚ)) (text : Text) : ℚ :=
  1 - ((voters config text evidence).map fun voter =>
    1 - (voteFor config layoutEvidence text voter).support).prod

/-- Some vote for the text is of a format-valid candidate. -/
def isFormatValid (config : CandidateFusionConfig ℚ) (evidence : List (RecognitionEvidence ℚ D))
    (text : Text) : Bool :=
  (voters config text evidence).any fun voter => mentionsValid config text voter.1

/-- The texts some item votes for. -/
def countedTexts (config : CandidateFusionConfig ℚ) (evidence : List (RecognitionEvidence ℚ D)) :
    List Text :=
  ((evidence.filter (isUsable config)).flatMap fun item =>
    (item.candidates.filter (isCounted config)).map PlateCandidate.text).dedup

theorem mem_countedTexts {config : CandidateFusionConfig ℚ}
    {evidence : List (RecognitionEvidence ℚ D)} {text : Text} :
    text ∈ countedTexts config evidence ↔ (voters config text evidence).isEmpty = false := by
  rw [← Bool.not_eq_true', voters, not_isEmpty_filter,
    any_zipIdx evidence fun item => isUsable config item && mentions config text item]
  simp only [countedTexts, List.mem_dedup, List.mem_flatMap, List.mem_filter, List.mem_map,
    List.any_eq_true, mentions, Bool.and_eq_true, beq_iff_eq]
  grind

theorem ne_nil_of_mem_countedTexts {config : CandidateFusionConfig ℚ}
    {evidence : List (RecognitionEvidence ℚ D)} {text : Text}
    (h : text ∈ countedTexts config evidence) : text ≠ [] := by
  simp only [countedTexts, List.mem_dedup, List.mem_flatMap, List.mem_filter, List.mem_map] at h
  obtain ⟨item, -, candidate, ⟨-, hcounted⟩, rfl⟩ := h
  intro hnil
  simp [isCounted, hnil] at hcounted

theorem effectiveConfidence_mem (candidate : PlateCandidate ℚ) :
    0 ≤ effectiveConfidence candidate ∧ effectiveConfidence candidate ≤ 1 := by
  unfold effectiveConfidence
  split
  · exact ⟨Scalar.clamp01_nonneg _, Scalar.clamp01_le_one _⟩
  · split
    · exact ⟨Scalar.clamp01_nonneg _, Scalar.clamp01_le_one _⟩
    · exact ⟨le_refl 0, zero_le_one⟩

/-- A source weight of an accepted configuration is a probability. -/
theorem sourceWeight_mem (c : Config ℚ) (source : Text) :
    0 ≤ sourceWeight c.config source ∧ sourceWeight c.config source ≤ 1 :=
  Scalar.isProbability_rat.mp (isProbability_sourceWeight c source)

theorem foldl_max_mem {l : List ℚ} {best : ℚ} (hbest : 0 ≤ best ∧ best ≤ 1)
    (hl : ∀ x ∈ l, 0 ≤ x ∧ x ≤ 1) : 0 ≤ l.foldl Scalar.max best ∧ l.foldl Scalar.max best ≤ 1 := by
  induction l generalizing best with
  | nil => exact hbest
  | cons x l ih =>
    have hx := hl x List.mem_cons_self
    refine ih ?_ fun y hy => hl y (List.mem_cons_of_mem _ hy)
    rw [Scalar.max_rat]
    exact ⟨hbest.1.trans le_sup_left, sup_le hbest.2 hx.2⟩

/-- A vote is a probability. -/
theorem voteFor_mem (c : Config ℚ) (layoutEvidence : List (LayoutEvidence ℚ)) (text : Text)
    (voter : RecognitionEvidence ℚ D × ℕ) :
    0 ≤ (voteFor c.config layoutEvidence text voter).support ∧
      (voteFor c.config layoutEvidence text voter).support ≤ 1 := by
  refine foldl_max_mem ⟨le_refl _, zero_le_one⟩ fun x hx => ?_
  obtain ⟨⟨candidate, index⟩, -, rfl⟩ := List.mem_map.mp hx
  obtain ⟨hweight, hweight'⟩ := sourceWeight_mem c voter.1.source
  simp only [score]
  exact ⟨mul_nonneg hweight (Scalar.clamp01_nonneg _),
    mul_le_one₀ hweight' (Scalar.clamp01_nonneg _) (Scalar.clamp01_le_one _)⟩

/-- Votes combine as a noisy-or. -/
theorem foldl_addVote_rat {α : Type} {vote : α → Aggregate ℚ} {l : List α}
    (hvote : ∀ a ∈ l, 0 ≤ (vote a).support ∧ (vote a).support ≤ 1) {miss : ℚ}
    (hmiss : 0 ≤ miss ∧ miss ≤ 1) (formatValid : Bool) :
    l.foldl (fun stored a => some (addVote (vote a) stored)) (some ⟨1 - miss, formatValid⟩) =
      some ⟨1 - miss * (l.map fun a => 1 - (vote a).support).prod,
        formatValid || l.any fun a => (vote a).formatValid⟩ := by
  induction l generalizing miss formatValid with
  | nil => simp
  | cons a l ih =>
    obtain ⟨h0, h1⟩ := hvote a List.mem_cons_self
    have hmiss' : 0 ≤ miss * (1 - (vote a).support) ∧ miss * (1 - (vote a).support) ≤ 1 :=
      ⟨mul_nonneg hmiss.1 (by linarith), mul_le_one₀ hmiss.2 (by linarith) (by linarith)⟩
    have hstep : addVote (vote a) (some ⟨1 - miss, formatValid⟩) =
        ⟨1 - miss * (1 - (vote a).support), formatValid || (vote a).formatValid⟩ := by
      simp only [addVote, Option.getD_some, sub_sub_cancel]
      rw [Scalar.clamp01_of_mem (by linarith) (by linarith)]
    rw [List.foldl_cons, hstep, ih (fun b hb => hvote b (List.mem_cons_of_mem _ hb)) hmiss',
      List.map_cons, List.prod_cons, List.any_cons, mul_assoc, Bool.or_assoc]

/-- **What the fusion stores of a text**: its noisy-or support over all the votes. -/
theorem find?_aggregate_rat (c : Config ℚ) (evidence : List (RecognitionEvidence ℚ D))
    (layoutEvidence : List (LayoutEvidence ℚ)) (text : Text) :
    (aggregate c.config evidence layoutEvidence).find? text =
      if text ∈ countedTexts c.config evidence then
        some ⟨support c.config evidence layoutEvidence text,
          isFormatValid c.config evidence text⟩
      else none := by
  have hvotes := fun (voter) (_ : voter ∈ voters c.config text evidence) =>
    voteFor_mem c layoutEvidence text voter
  rw [find?_aggregate]
  simp only [mem_countedTexts, support, isFormatValid]
  cases hvoters : voters c.config text evidence with
  | nil => rfl
  | cons voter voters =>
    rw [hvoters] at hvotes
    have hone : (0 : ℚ) ≤ 1 ∧ (1 : ℚ) ≤ 1 := ⟨zero_le_one, le_refl _⟩
    have hnoisy := foldl_addVote_rat hvotes hone false
    rw [one_mul, sub_self, Bool.false_or] at hnoisy
    exact hnoisy

/-- The support is the noisy-or of the votes. -/
theorem support_eq (config : CandidateFusionConfig ℚ) (evidence : List (RecognitionEvidence ℚ D))
    (layoutEvidence : List (LayoutEvidence ℚ)) (text : Text) :
    support config evidence layoutEvidence text = noisyOr ((voters config text evidence).map
      fun voter => (voteFor config layoutEvidence text voter).support) := by
  rw [support, noisyOr, List.map_map]
  rfl

/-- A support is a probability. -/
theorem support_mem (c : Config ℚ) (evidence : List (RecognitionEvidence ℚ D))
    (layoutEvidence : List (LayoutEvidence ℚ)) (text : Text) :
    0 ≤ support c.config evidence layoutEvidence text ∧
      support c.config evidence layoutEvidence text ≤ 1 := by
  rw [support_eq]
  exact noisyOr_mem (List.forall_mem_map.mpr fun voter _ => voteFor_mem c layoutEvidence text voter)

/-! ## The rank of a text -/

/-- A text goes ahead of another: more support, or as much and a smaller text. -/
def ahead (config : CandidateFusionConfig ℚ) (evidence : List (RecognitionEvidence ℚ D))
    (layoutEvidence : List (LayoutEvidence ℚ)) (left right : Text) : Bool :=
  if support config evidence layoutEvidence left !=
      support config evidence layoutEvidence right then
    support config evidence layoutEvidence right < support config evidence layoutEvidence left
  else left < right

/-- How many counted texts, format-valid or not, are ahead of a text. -/
def rank (config : CandidateFusionConfig ℚ) (evidence : List (RecognitionEvidence ℚ D))
    (layoutEvidence : List (LayoutEvidence ℚ)) (text : Text) : ℕ :=
  (countedTexts config evidence).countP fun other => ahead config evidence layoutEvidence other text

/-- The fused candidate of a text. -/
def candidateOf (config : CandidateFusionConfig ℚ) (evidence : List (RecognitionEvidence ℚ D))
    (layoutEvidence : List (LayoutEvidence ℚ)) (text : Text) : PlateCandidate ℚ where
  text
  confidence := support config evidence layoutEvidence text
  calibratedConfidence := support config evidence layoutEvidence text
  formatValid := isFormatValid config evidence text

theorem before_rat (score : PlateCandidate ℚ → ℚ) (left right : PlateCandidate ℚ) :
    PlateCandidate.before score left right = true ↔
      score right < score left ∨ (score left = score right ∧ left.text < right.text) := by
  unfold PlateCandidate.before
  split
  · rename_i h
    have hne : score left ≠ score right := by simpa using h
    simp [hne]
  · rename_i h
    have heq : score left = score right := by simpa using h
    simp [heq]

/-- The order of candidates is one `std::stable_sort` accepts. -/
theorem strictWeakOrder_before (score : PlateCandidate ℚ → ℚ) :
    StrictWeakOrder (PlateCandidate.before score) where
  asymm a b h := by
    rw [← Bool.not_eq_true, before_rat]
    rw [before_rat] at h
    rcases h with h | ⟨h, h'⟩
    · rintro (h'' | ⟨h'', -⟩)
      · exact lt_asymm h h''
      · exact h.ne h''
    · rintro (h'' | ⟨-, h''⟩)
      · exact h''.ne h
      · exact lt_asymm h' h''
  negTrans a b c hba hcb := by
    rw [← Bool.not_eq_true, before_rat, not_or, not_and, not_lt, not_lt] at hba hcb ⊢
    refine ⟨hcb.1.trans hba.1, fun hca => ?_⟩
    have hcb' : score c = score b := le_antisymm hcb.1 (hba.1.trans hca.ge)
    exact (hba.2 (hcb'.symm.trans hca)).trans (hcb.2 hcb')

/-- **The fused list before the cut** holds the candidate of each counted text. -/
theorem mem_ranked_rat {c : Config ℚ} {evidence : List (RecognitionEvidence ℚ D)}
    {layoutEvidence : List (LayoutEvidence ℚ)} {candidate : PlateCandidate ℚ} :
    candidate ∈ ranked c.config evidence layoutEvidence ↔
      candidate.text ∈ countedTexts c.config evidence ∧
        candidate = candidateOf c.config evidence layoutEvidence candidate.text := by
  rw [mem_ranked, find?_aggregate_rat]
  constructor
  · rintro ⟨value, hfind, heq⟩
    split at hfind
    · rename_i hcounted
      obtain rfl := Option.some.inj hfind
      exact ⟨hcounted, heq.symm⟩
    · cases hfind
  · rintro ⟨hcounted, heq⟩
    exact ⟨_, if_pos hcounted, heq.symm⟩

theorem nodup_texts_ranked (c : Config ℚ) (evidence : List (RecognitionEvidence ℚ D))
    (layoutEvidence : List (LayoutEvidence ℚ)) :
    ((ranked c.config evidence layoutEvidence).map PlateCandidate.text).Nodup := by
  have hperm := (stableSort_perm (PlateCandidate.before PlateCandidate.confidence)
    ((aggregate c.config evidence layoutEvidence).entries.map fusedCandidate)).map
      PlateCandidate.text
  refine hperm.nodup_iff.mpr ?_
  rw [List.map_map]
  exact (aggregate c.config evidence layoutEvidence).nodup_keys

/-- The fused list is strictly sorted. -/
theorem pairwise_ranked (c : Config ℚ) (evidence : List (RecognitionEvidence ℚ D))
    (layoutEvidence : List (LayoutEvidence ℚ)) :
    (ranked c.config evidence layoutEvidence).Pairwise fun a b =>
      PlateCandidate.before PlateCandidate.confidence a b = true := by
  have hsorted := pairwise_stableSort (strictWeakOrder_before PlateCandidate.confidence)
    ((aggregate c.config evidence layoutEvidence).entries.map fusedCandidate)
  have htexts := List.pairwise_map.mp (nodup_texts_ranked c evidence layoutEvidence)
  refine (hsorted.and htexts).imp fun {a b} ⟨hba, hne⟩ => ?_
  rw [← Bool.not_eq_true, before_rat, not_or, not_and, not_lt, not_lt] at hba
  rw [before_rat]
  rcases hba.1.lt_or_eq with h | h
  · exact Or.inl h
  · exact Or.inr ⟨h.symm, lt_of_le_of_ne (hba.2 h) hne⟩

/-- The place of a text in the fused list is its rank. -/
theorem countP_ranked (c : Config ℚ) (evidence : List (RecognitionEvidence ℚ D))
    (layoutEvidence : List (LayoutEvidence ℚ)) (text : Text) :
    ((ranked c.config evidence layoutEvidence).countP fun other =>
      PlateCandidate.before PlateCandidate.confidence other
        (candidateOf c.config evidence layoutEvidence text)) =
      rank c.config evidence layoutEvidence text := by
  have hperm : ((ranked c.config evidence layoutEvidence).map PlateCandidate.text).Perm
      (countedTexts c.config evidence) := by
    refine (List.perm_ext_iff_of_nodup (nodup_texts_ranked c evidence layoutEvidence)
      (List.nodup_dedup _)).mpr fun t => ?_
    rw [List.mem_map]
    constructor
    · rintro ⟨candidate, hmem, rfl⟩
      exact (mem_ranked_rat.mp hmem).1
    · exact fun h => ⟨candidateOf c.config evidence layoutEvidence t, mem_ranked_rat.mpr ⟨h, rfl⟩,
        rfl⟩
  rw [rank, ← hperm.countP_eq, List.countP_map]
  refine List.countP_congr fun other hother => ?_
  rw [(mem_ranked_rat.mp hother).2]
  rfl

/-- **A counted text survives the cut** when fewer than `maxCandidates` texts are ahead of it. -/
theorem candidateOf_mem_fuse {c : Config ℚ} {evidence : List (RecognitionEvidence ℚ D)}
    {layoutEvidence : List (LayoutEvidence ℚ)} {text : Text}
    (h : text ∈ countedTexts c.config evidence) :
    candidateOf c.config evidence layoutEvidence text ∈ fuse c evidence layoutEvidence ↔
      rank c.config evidence layoutEvidence text < c.config.maxCandidates := by
  rw [fuse, mem_take_iff_countP_lt (strictWeakOrder_before PlateCandidate.confidence).asymm
    (pairwise_ranked c evidence layoutEvidence) (mem_ranked_rat.mpr ⟨h, rfl⟩), countP_ranked]

/-- What the cut keeps is ahead of what it drops. -/
theorem support_le_of_mem_fuse {c : Config ℚ} {evidence : List (RecognitionEvidence ℚ D)}
    {layoutEvidence : List (LayoutEvidence ℚ)} {kept : PlateCandidate ℚ} {text : Text}
    (hkept : kept ∈ fuse c evidence layoutEvidence) (htext : text ∈ countedTexts c.config evidence)
    (hcut : candidateOf c.config evidence layoutEvidence text ∉ fuse c evidence layoutEvidence) :
    support c.config evidence layoutEvidence text ≤ kept.confidence := by
  have hmem : candidateOf c.config evidence layoutEvidence text ∈
      ranked c.config evidence layoutEvidence := mem_ranked_rat.mpr ⟨htext, rfl⟩
  have hsorted := pairwise_ranked c evidence layoutEvidence
  rw [← List.take_append_drop c.config.maxCandidates (ranked c.config evidence layoutEvidence)]
    at hmem hsorted
  have hdrop := (List.mem_append.mp hmem).resolve_left hcut
  have hbefore := (List.pairwise_append.mp hsorted).2.2 kept hkept _ hdrop
  rcases (before_rat _ _ _).mp hbefore with h | h
  · exact h.le
  · exact h.1.ge

end CandidateFusion

namespace FusionConflict

open CandidateFusion SafeDecisionPolicy

variable {D : Type}

/-! ## The policy on a fused list -/

theorem effectiveValue_fused {c : CandidateFusion.Config ℚ}
    {evidence : List (RecognitionEvidence ℚ D)}
    {layoutEvidence : List (LayoutEvidence ℚ)} {candidate : PlateCandidate ℚ}
    (h : candidate ∈ fuse c evidence layoutEvidence) :
    effectiveValue candidate = candidate.confidence := by
  rw [(mem_ranked_rat.mp (List.mem_of_mem_take h)).2]
  exact ite_self _

/-- The policy reads the format-valid candidates of a fused list in its order. -/
theorem validCandidates_fuse (c : CandidateFusion.Config ℚ)
    (evidence : List (RecognitionEvidence ℚ D)) (layoutEvidence : List (LayoutEvidence ℚ)) :
    validCandidates (fuse c evidence layoutEvidence) =
      (fuse c evidence layoutEvidence).filter PlateCandidate.formatValid := by
  have hnonempty : ((fuse c evidence layoutEvidence).filter fun candidate =>
      candidate.formatValid && !candidate.text.isEmpty) =
        (fuse c evidence layoutEvidence).filter PlateCandidate.formatValid := by
    refine List.filter_congr fun candidate hmem => ?_
    have htext := ne_nil_of_mem_countedTexts (mem_ranked_rat.mp (List.mem_of_mem_take hmem)).1
    simp [htext]
  rw [validCandidates, hnonempty]
  refine stableSort_eq_self ?_
  have hsorted := ((pairwise_ranked c evidence layoutEvidence).sublist
    (List.take_sublist c.config.maxCandidates _)).filter PlateCandidate.formatValid
  refine hsorted.imp_of_mem fun {a b} ha hb hab => ?_
  rw [PlateCandidate.before, effectiveValue_fused (List.mem_of_mem_filter ha),
    effectiveValue_fused (List.mem_of_mem_filter hb), ← PlateCandidate.before]
  exact (strictWeakOrder_before PlateCandidate.confidence).asymm _ _ hab

/-- **The cut is neutral to the decision**: an accepted plate has no format-valid rival of strong
support over all the evidence. -/
def DecisionNeutral [Zero D] (c : CandidateFusion.Config ℚ) (p : SafeDecisionPolicy.Config ℚ)
    (evidence : List (RecognitionEvidence ℚ D)) (layoutEvidence : List (LayoutEvidence ℚ))
    (detection : Detection ℚ) (context : RecognitionDecisionContext) : Prop :=
  ∀ result : PlateRecognitionResult ℚ D,
    SafeDecisionPolicy.decide p detection evidence (fuse c evidence layoutEvidence) context =
      .ok result → result.status = .accepted →
    ∀ text value, (aggregate c.config evidence layoutEvidence).find? text = some value →
      value.formatValid = true → text ≠ result.plate →
      value.support < p.config.strongConflictThreshold

/-- **The cut hides a conflict**: the gates that do not look at the rivals hold, exactly one
format-valid text ranks among the first `maxCandidates`, and a format-valid text that does not has
strong support. -/
structure HidesConflict (c : CandidateFusion.Config ℚ) (p : SafeDecisionPolicy.Config ℚ)
    (evidence : List (RecognitionEvidence ℚ D)) (layoutEvidence : List (LayoutEvidence ℚ))
    (detection : Detection ℚ) (context : RecognitionDecisionContext) (plate rival : Text) :
    Prop where
  admissible : Admissible p.config detection evidence context
  cropQuality : ∀ item ∈ evidence, Scalar.isProbability item.cropQuality = true
  counted : plate ∈ countedTexts c.config evidence
  formatValid : isFormatValid c.config evidence plate = true
  kept : rank c.config evidence layoutEvidence plate < c.config.maxCandidates
  review : p.config.reviewConfidenceThreshold ≤ support c.config evidence layoutEvidence plate
  accept : p.config.acceptedConfidenceThreshold ≤ support c.config evidence layoutEvidence plate
  alone : ∀ text ∈ countedTexts c.config evidence, isFormatValid c.config evidence text = true →
    text ≠ plate → c.config.maxCandidates ≤ rank c.config evidence layoutEvidence text
  rivalCounted : rival ∈ countedTexts c.config evidence
  rivalFormatValid : isFormatValid c.config evidence rival = true
  rivalOther : rival ≠ plate
  strong : p.config.strongConflictThreshold ≤ support c.config evidence layoutEvidence rival

theorem checkInputs_fuse {c : CandidateFusion.Config ℚ} {evidence : List (RecognitionEvidence ℚ D)}
    {layoutEvidence : List (LayoutEvidence ℚ)}
    (h : ∀ item ∈ evidence, Scalar.isProbability item.cropQuality = true) :
    checkInputs evidence (fuse c evidence layoutEvidence) = .ok () := by
  refine checkInputs_eq_ok.mpr ⟨h, fun candidate hmem => ?_⟩
  rw [effectiveValue_fused hmem, (mem_ranked_rat.mp (List.mem_of_mem_take hmem)).2]
  exact Scalar.isProbability_rat.mpr (support_mem c evidence layoutEvidence _)

/-- A format-valid text that survives the cut is one of the policy's candidates. -/
theorem candidateOf_mem_valid {c : CandidateFusion.Config ℚ}
    {evidence : List (RecognitionEvidence ℚ D)} {layoutEvidence : List (LayoutEvidence ℚ)}
    {text : Text} :
    candidateOf c.config evidence layoutEvidence text ∈
        validCandidates (fuse c evidence layoutEvidence) ↔
      candidateOf c.config evidence layoutEvidence text ∈ fuse c evidence layoutEvidence ∧
        isFormatValid c.config evidence text = true := by
  rw [validCandidates_fuse, List.mem_filter]
  rfl

theorem mem_fuse_of_mem_validCandidates {fusedCandidates : List (PlateCandidate ℚ)}
    {candidate : PlateCandidate ℚ} (h : candidate ∈ validCandidates fusedCandidates) :
    candidate ∈ fusedCandidates :=
  List.mem_of_mem_filter (mem_stableSort.mp h)

/-- The policy's candidates are those of the format-valid texts that survive the cut. -/
theorem of_mem_validCandidates {c : CandidateFusion.Config ℚ}
    {evidence : List (RecognitionEvidence ℚ D)} {layoutEvidence : List (LayoutEvidence ℚ)}
    {candidate : PlateCandidate ℚ}
    (h : candidate ∈ validCandidates (fuse c evidence layoutEvidence)) :
    candidate.text ∈ countedTexts c.config evidence ∧
      candidate = candidateOf c.config evidence layoutEvidence candidate.text ∧
      rank c.config evidence layoutEvidence candidate.text < c.config.maxCandidates ∧
      isFormatValid c.config evidence candidate.text = true := by
  obtain ⟨hcounted, heq⟩ :=
    mem_ranked_rat.mp (List.mem_of_mem_take (mem_fuse_of_mem_validCandidates h))
  rw [heq] at h
  obtain ⟨hfuse, hvalid⟩ := candidateOf_mem_valid.mp h
  exact ⟨hcounted, heq, (candidateOf_mem_fuse hcounted).mp hfuse, hvalid⟩

theorem pairwise_validCandidates (c : CandidateFusion.Config ℚ)
    (evidence : List (RecognitionEvidence ℚ D)) (layoutEvidence : List (LayoutEvidence ℚ)) :
    (validCandidates (fuse c evidence layoutEvidence)).Pairwise fun a b =>
      PlateCandidate.before PlateCandidate.confidence a b = true := by
  rw [validCandidates_fuse]
  exact ((pairwise_ranked c evidence layoutEvidence).sublist
    (List.take_sublist c.config.maxCandidates _)).filter PlateCandidate.formatValid

/-- Once a second format-valid text survives the cut, the policy's conflict gate speaks for every
rival. -/
theorem support_lt_of_second {c : CandidateFusion.Config ℚ} {config : DecisionConfig ℚ}
    {evidence : List (RecognitionEvidence ℚ D)} {layoutEvidence : List (LayoutEvidence ℚ)}
    {best : PlateCandidate ℚ} {rest : List (PlateCandidate ℚ)}
    (hvalid : validCandidates (fuse c evidence layoutEvidence) = best :: rest)
    (hconflict : hasStrongConflict config (best :: rest) = false) {text : Text}
    (htext : text ∈ countedTexts c.config evidence)
    (htextValid : isFormatValid c.config evidence text = true) (hne : text ≠ best.text)
    (hrank : rank c.config evidence layoutEvidence text < c.config.maxCandidates) {rival : Text}
    (hrival : rival ∈ countedTexts c.config evidence)
    (hrivalValid : isFormatValid c.config evidence rival = true) (hother : rival ≠ best.text) :
    support c.config evidence layoutEvidence rival < config.strongConflictThreshold := by
  have hafter : ∀ {t : Text}, isFormatValid c.config evidence t = true → t ≠ best.text →
      candidateOf c.config evidence layoutEvidence t ∈ fuse c evidence layoutEvidence →
      candidateOf c.config evidence layoutEvidence t ∈ rest := by
    intro t ht hne hfuse
    have hmem := candidateOf_mem_valid.mpr ⟨hfuse, ht⟩
    rw [hvalid] at hmem
    refine (List.mem_cons.mp hmem).resolve_left fun heq => hne ?_
    exact congrArg PlateCandidate.text heq
  have hsorted := pairwise_validCandidates c evidence layoutEvidence
  rw [hvalid] at hsorted
  cases rest with
  | nil => cases hafter htextValid hne ((candidateOf_mem_fuse htext).mpr hrank)
  | cons second rest =>
    obtain ⟨hhead, htail⟩ := List.pairwise_cons.mp hsorted
    have hsecond : second ∈ validCandidates (fuse c evidence layoutEvidence) :=
      hvalid ▸ List.mem_cons_of_mem _ List.mem_cons_self
    have hbest : best ∈ validCandidates (fuse c evidence layoutEvidence) :=
      hvalid ▸ List.mem_cons_self
    have htexts : second.text ≠ best.text := by
      intro heq
      have hsame : second = best := by
        rw [(of_mem_validCandidates hsecond).2.1, heq, ← (of_mem_validCandidates hbest).2.1]
      have hbefore := hhead second List.mem_cons_self
      have hasymm := (strictWeakOrder_before PlateCandidate.confidence).asymm _ _ hbefore
      rw [hsame] at hbefore hasymm
      cases hbefore.symm.trans hasymm
    have hweak : second.confidence < config.strongConflictThreshold := by
      rw [← effectiveValue_fused (mem_fuse_of_mem_validCandidates hsecond)]
      simpa [hasStrongConflict, htexts] using hconflict
    refine lt_of_le_of_lt ?_ hweak
    by_cases hfuse : candidateOf c.config evidence layoutEvidence rival ∈
        fuse c evidence layoutEvidence
    · rcases List.mem_cons.mp (hafter hrivalValid hother hfuse) with heq | hmem
      · exact (congrArg PlateCandidate.confidence heq).le
      · rcases (before_rat _ _ _).mp ((List.pairwise_cons.mp htail).1 _ hmem) with h | h
        · exact h.le
        · exact h.1.ge
    · exact support_le_of_mem_fuse (mem_fuse_of_mem_validCandidates hsecond) hrival hfuse

/-- A cut that hides a conflict lets the plate be accepted. -/
theorem HidesConflict.accepted [Zero D] {c : CandidateFusion.Config ℚ}
    {p : SafeDecisionPolicy.Config ℚ} {evidence : List (RecognitionEvidence ℚ D)}
    {layoutEvidence : List (LayoutEvidence ℚ)} {detection : Detection ℚ}
    {context : RecognitionDecisionContext} {plate rival : Text}
    (h : HidesConflict c p evidence layoutEvidence detection context plate rival) :
    ∃ result, SafeDecisionPolicy.decide p detection evidence (fuse c evidence layoutEvidence)
      context = .ok result ∧ result.status = .accepted ∧ result.plate = plate := by
  have honly : ∀ candidate ∈ validCandidates (fuse c evidence layoutEvidence),
      candidate = candidateOf c.config evidence layoutEvidence plate := by
    intro candidate hmem
    obtain ⟨hcounted, heq, hkept, hvalid⟩ := of_mem_validCandidates hmem
    by_contra hne
    have hother : candidate.text ≠ plate := fun htext => hne (htext ▸ heq)
    exact absurd hkept (not_lt.mpr (h.alone _ hcounted hvalid hother))
  have hplate : candidateOf c.config evidence layoutEvidence plate ∈
      validCandidates (fuse c evidence layoutEvidence) :=
    candidateOf_mem_valid.mpr ⟨(candidateOf_mem_fuse h.counted).mpr h.kept, h.formatValid⟩
  have hvalid : validCandidates (fuse c evidence layoutEvidence) =
      [candidateOf c.config evidence layoutEvidence plate] := by
    have hsorted := pairwise_validCandidates c evidence layoutEvidence
    generalize validCandidates (fuse c evidence layoutEvidence) = valid at honly hplate hsorted ⊢
    rcases valid with _ | ⟨first, _ | ⟨second, rest⟩⟩
    · cases hplate
    · rw [honly first List.mem_cons_self]
    · have hbefore := (List.pairwise_cons.mp hsorted).1 second List.mem_cons_self
      have hasymm := (strictWeakOrder_before PlateCandidate.confidence).asymm _ _ hbefore
      rw [honly first List.mem_cons_self,
        honly second (List.mem_cons_of_mem _ List.mem_cons_self)] at hbefore hasymm
      cases hbefore.symm.trans hasymm
  have heffective : effectiveValue (candidateOf c.config evidence layoutEvidence plate) =
      support c.config evidence layoutEvidence plate := ite_self _
  refine ⟨_, decide_eq_ok.mpr ⟨checkInputs_fuse h.cropQuality, rfl⟩,
    status_accepted_iff.mpr ⟨h.admissible, _, [], hvalid, ?_, ?_, rfl⟩, ?_⟩
  · rw [heffective]
    exact not_lt.mpr h.review
  · rw [heffective]
    exact not_lt.mpr h.accept
  · obtain ⟨status, reasons, happly⟩ := applyGates_eq p.config detection
      (validCandidates (fuse c evidence layoutEvidence)) context
      (resultOf detection evidence (fuse c evidence layoutEvidence) context)
    rw [happly]
    simp [resultOf, hvalid, candidateOf]

/-- **When the cut is neutral.**  It is, exactly when it hides no conflict. -/
theorem decisionNeutral_iff [Zero D] (c : CandidateFusion.Config ℚ)
    (p : SafeDecisionPolicy.Config ℚ) (evidence : List (RecognitionEvidence ℚ D))
    (layoutEvidence : List (LayoutEvidence ℚ)) (detection : Detection ℚ)
    (context : RecognitionDecisionContext) :
    DecisionNeutral c p evidence layoutEvidence detection context ↔
      ∀ plate rival,
        ¬ HidesConflict c p evidence layoutEvidence detection context plate rival := by
  constructor
  · intro hneutral plate rival h
    obtain ⟨result, hok, hstatus, hplate⟩ := h.accepted
    have hfind := find?_aggregate_rat c evidence layoutEvidence rival
    rw [if_pos h.rivalCounted] at hfind
    have hweak := hneutral result hok hstatus rival _ hfind h.rivalFormatValid
      (hplate ▸ h.rivalOther)
    exact absurd h.strong (not_le.mpr hweak)
  · intro hhides result hok hstatus rival value hfind hvalue hother
    by_contra hstrong
    rw [not_lt] at hstrong
    rw [find?_aggregate_rat] at hfind
    split at hfind
    · rename_i hcounted
      obtain rfl := Option.some.inj hfind
      obtain ⟨hinputs, rfl⟩ := decide_eq_ok.mp hok
      obtain ⟨hadmissible, best, rest, hvalid, hreview, haccept, hconflict⟩ :=
        status_accepted_iff.mp hstatus
      have hbest : best ∈ validCandidates (fuse c evidence layoutEvidence) :=
        hvalid ▸ List.mem_cons_self
      obtain ⟨hbestCounted, hbestEq, hkept, hbestValid⟩ := of_mem_validCandidates hbest
      have heffective := effectiveValue_fused (mem_fuse_of_mem_validCandidates hbest)
      have hsupport : effectiveValue best = support c.config evidence layoutEvidence best.text := by
        rw [heffective]
        exact congrArg PlateCandidate.confidence hbestEq
      have hplate : ∃ status reasons, applyGates p.config detection
          (validCandidates (fuse c evidence layoutEvidence)) context
          (resultOf detection evidence (fuse c evidence layoutEvidence) context) = _ :=
        applyGates_eq _ _ _ _ _
      obtain ⟨status, reasons, happly⟩ := hplate
      rw [happly] at hother
      have hother : rival ≠ best.text := by simpa [resultOf, hvalid] using hother
      refine hhides best.text rival
        { admissible := hadmissible
          cropQuality := (checkInputs_eq_ok.mp hinputs).1
          counted := hbestCounted
          formatValid := hbestValid
          kept := hkept
          review := hsupport ▸ not_lt.mp hreview
          accept := hsupport ▸ not_lt.mp haccept
          alone := fun text htext htextValid hne => ?_
          rivalCounted := hcounted
          rivalFormatValid := hvalue
          rivalOther := hother
          strong := hstrong }
      by_contra hrank
      exact absurd hstrong (not_le.mpr (support_lt_of_second hvalid hconflict htext htextValid hne
        (not_le.mp hrank) hcounted hvalue hother))
    · cases hfind

/-! ### A rival below five equally supported texts -/

/-- Six texts read with full confidence off one perfect crop; the first and the last are plates. -/
def crowdedEvidence : RecognitionEvidence ℚ ℚ where
  source := ascii "ocr"
  candidates :=
    [⟨ascii "34ABC123", 1, 1, true⟩, ⟨ascii "34ABC12A", 1, 1, false⟩,
      ⟨ascii "34ABC12B", 1, 1, false⟩, ⟨ascii "34ABC12C", 1, 1, false⟩,
      ⟨ascii "34ABC12D", 1, 1, false⟩, ⟨ascii "34ABC999", 1, 1, true⟩]
  cropQuality := 1
  latencyMs := 0

def certainDetection : Detection ℚ where
  bbox := ⟨0, 0, 120, 30⟩
  quadrilateral := none
  confidence := 1
  geometryScore := 1
  provider := ascii "detector"

theorem hidesConflict_crowdedEvidence : HidesConflict
    CandidateFusion.Config.default SafeDecisionPolicy.Config.default [crowdedEvidence] []
    certainDetection RecognitionDecisionContext.default (ascii "34ABC123")
    (ascii "34ABC999") where
  admissible :=
    { fatal := rfl
      detector := by decide +kernel
      geometry := by decide +kernel
      cropQuality := by decide +kernel
      degraded := rfl }
  cropQuality := by decide +kernel
  counted := by decide +kernel
  formatValid := by decide +kernel
  kept := by decide +kernel
  review := by decide +kernel
  accept := by decide +kernel
  alone := by decide +kernel
  rivalCounted := by decide +kernel
  rivalFormatValid := by decide +kernel
  rivalOther := by decide
  strong := by decide +kernel

theorem default_cut_not_neutral : ¬ ∀ (c : CandidateFusion.Config ℚ)
    (p : SafeDecisionPolicy.Config ℚ) (evidence : List (RecognitionEvidence ℚ ℚ))
    (layoutEvidence : List (LayoutEvidence ℚ)) (detection : Detection ℚ)
    (context : RecognitionDecisionContext),
      DecisionNeutral c p evidence layoutEvidence detection context := by
  intro hneutral
  obtain ⟨result, hok, hstatus, hplate⟩ := hidesConflict_crowdedEvidence.accepted
  have hfind : (aggregate CandidateFusion.Config.default.config [crowdedEvidence] []).find?
      (ascii "34ABC999") =
      some ⟨8 / 10, true⟩ := by decide +kernel
  have hweak := hneutral _ _ _ _ _ _ result hok hstatus _ _ hfind rfl (by rw [hplate]; decide)
  revert hweak
  decide +kernel

end FusionConflict

end FacLpr
