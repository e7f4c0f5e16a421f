import FacLpr.Application.SafeDecisionPolicy

/-!
# Application/AcceptanceSoundness — what an accepted plate promises

The policy looks for a strong rival at the second place of its ranking only.  So an accepted plate
has none, exactly when its text does not take the first two places from a strong rival below
(`acceptanceSound_iff`); a list of distinct texts never does that.

The comparisons are those of any scalar whose finite values are ordered, rounding or not.
-/

namespace FacLpr

namespace SafeDecisionPolicy

variable {F D : Type} [Scalar F]

/-- The candidates the policy ranks. -/
def formatValid (fusedCandidates : List (PlateCandidate F)) : List (PlateCandidate F) :=
  fusedCandidates.filter fun candidate => candidate.formatValid && !candidate.text.isEmpty

/-- Ranked ahead of every candidate with another text. -/
def outranks (candidates : List (PlateCandidate F)) (candidate : PlateCandidate F) : Bool :=
  candidates.all fun other =>
    other.text == candidate.text || PlateCandidate.before effectiveValue candidate other

/-- An accepted result reports a format-valid candidate that reaches the threshold, every other gate
holds, and no format-valid candidate with another text is strong. -/
def AcceptanceSound [Zero D] (c : Config F) (detection : Detection F)
    (evidence : List (RecognitionEvidence F D)) (fusedCandidates : List (PlateCandidate F))
    (context : RecognitionDecisionContext) : Prop :=
  ∀ result, SafeDecisionPolicy.decide c detection evidence fusedCandidates context = .ok result →
    result.status = .accepted →
    Admissible c.config detection evidence context ∧
      (∃ winner ∈ formatValid fusedCandidates, winner.text = result.plate ∧
        c.config.acceptedConfidenceThreshold ≤ effectiveValue winner) ∧
      ∀ rival ∈ formatValid fusedCandidates, rival.text ≠ result.plate →
        effectiveValue rival < c.config.strongConflictThreshold

/-- The policy accepts the plate and misses the rival: every other gate holds, and the plate takes
the first two places. -/
structure MissesConflict (config : DecisionConfig F) (detection : Detection F)
    (evidence : List (RecognitionEvidence F D)) (fusedCandidates : List (PlateCandidate F))
    (context : RecognitionDecisionContext) (plate : Text) (rival : PlateCandidate F) : Prop where
  inputs : checkInputs evidence fusedCandidates = .ok ()
  admissible : Admissible config detection evidence context
  ahead : 2 ≤ (formatValid fusedCandidates).countP fun candidate =>
    candidate.text == plate && outranks (formatValid fusedCandidates) candidate
  confident : ∃ candidate ∈ formatValid fusedCandidates, candidate.text = plate ∧
    config.reviewConfidenceThreshold ≤ effectiveValue candidate ∧
    config.acceptedConfidenceThreshold ≤ effectiveValue candidate
  mem : rival ∈ formatValid fusedCandidates
  other : rival.text ≠ plate
  strong : config.strongConflictThreshold ≤ effectiveValue rival

/-! ## The ranking -/

/-- The key of a candidate's effective value. -/
def valueKey (key : F → ℚ) (candidate : PlateCandidate F) : ℚ := key (effectiveValue candidate)

/-- The ranking of the policy, by the key of the confidence. -/
def byKey (key : F → ℚ) : PlateCandidate F → PlateCandidate F → Bool :=
  lexOrder (valueKey key) (· > ·) fun a b => decide (a.text < b.text)

theorem strictWeakOrder_byKey (key : F → ℚ) : StrictWeakOrder (byKey key) := by
  have htext : StrictWeakOrder fun a b : PlateCandidate F => decide (a.text < b.text) := by
    convert strictWeakOrder_key (PlateCandidate.text (F := F))
  exact htext.lexOrder (κ := ℚ)

section

variable {key : F → ℚ} {a b : PlateCandidate F}

theorem before_eq_byKey (hkey : Scalar.IsKey key) (ha : Scalar.isFinite (effectiveValue a) = true)
    (hb : Scalar.isFinite (effectiveValue b) = true) :
    PlateCandidate.before effectiveValue a b = byKey key a b := by
  have hbeq : (effectiveValue a == effectiveValue b) = (valueKey key a == valueKey key b) := by
    rw [Bool.eq_iff_iff, hkey.beq_iff ha hb, beq_iff_eq]
    rfl
  unfold PlateCandidate.before byKey lexOrder bne
  rw [hbeq]
  split
  · exact decide_eq_decide.mpr (hkey.lt_iff hb ha)
  · rfl

/-- A candidate ranked no later has at least the key of the other. -/
theorem valueKey_le_of_byKey_eq_false (h : byKey key b a = false) :
    valueKey key b ≤ valueKey key a := by
  by_cases heq : valueKey key b = valueKey key a
  · exact heq.le
  · rw [byKey, lexOrder_of_ne heq] at h
    exact not_lt.mp (of_decide_eq_false h)

/-- Candidates with different texts are ranked. -/
theorem byKey_of_byKey_eq_false (h : byKey key b a = false) (htext : b.text ≠ a.text) :
    byKey key a b = true := by
  by_contra hab
  rw [Bool.not_eq_true] at hab
  obtain ⟨-, hba, hab⟩ := lexOrder_tie h hab
  exact htext (le_antisymm (not_lt.mp (of_decide_eq_false hab))
    (not_lt.mp (of_decide_eq_false hba)))

/-- **The first two places**: they have one text when two candidates with that text are ranked ahead
of every other text. -/
theorem exists_first_two {l : List (PlateCandidate F)}
    (hsorted : l.Pairwise fun a b => byKey key b a = false) {plate : Text}
    (h : 2 ≤ l.countP fun a =>
      a.text == plate && l.all fun b => b.text == a.text || byKey key a b) :
    ∃ best second rest, l = best :: second :: rest ∧ best.text = plate ∧ second.text = plate := by
  have hzero : ∀ {s : List (PlateCandidate F)} {b : PlateCandidate F}, b ∈ l → b.text ≠ plate →
      (∀ a ∈ s, byKey key a b = false) → s.countP (fun a =>
        a.text == plate && l.all fun b => b.text == a.text || byKey key a b) = 0 := by
    intro s b hb hplate hs
    rw [List.countP_eq_zero]
    intro a ha hcounted
    rw [Bool.and_eq_true, beq_iff_eq, List.all_eq_true] at hcounted
    obtain ⟨rfl, hall⟩ := hcounted
    have hahead := hall b hb
    rw [hs a ha, Bool.or_false, beq_iff_eq] at hahead
    exact hplate hahead
  have hself : ∀ b, byKey key b b = false := fun b => by
    by_contra hb
    rw [Bool.not_eq_false] at hb
    exact Bool.false_ne_true (((strictWeakOrder_byKey key).asymm _ _ hb).symm.trans hb)
  rcases l with _ | ⟨best, _ | ⟨second, rest⟩⟩
  · exact absurd h (by simp)
  · exact absurd (h.trans List.countP_le_length) (by simp)
  obtain ⟨hbest, htail⟩ := List.pairwise_cons.mp hsorted
  obtain ⟨hsecond, -⟩ := List.pairwise_cons.mp htail
  have hplate : best.text = plate := by
    by_contra hplate
    have := hzero List.mem_cons_self hplate (List.forall_mem_cons.mpr ⟨hself best, hbest⟩)
    omega
  refine ⟨best, second, rest, rfl, hplate, ?_⟩
  by_contra hplate'
  have := hzero (List.mem_cons_of_mem _ List.mem_cons_self) hplate'
    (List.forall_mem_cons.mpr ⟨hself second, hsecond⟩)
  rw [List.countP_cons] at h
  split at h <;> omega

/-- A text that takes the first two places ranks ahead of every other text with both. -/
theorem two_le_countP {best second : PlateCandidate F} {rest : List (PlateCandidate F)}
    (hsorted : (best :: second :: rest).Pairwise fun a b => byKey key b a = false)
    (htext : second.text = best.text) :
    2 ≤ (best :: second :: rest).countP fun a => a.text == best.text &&
      (best :: second :: rest).all fun b => b.text == a.text || byKey key a b := by
  obtain ⟨hbest, htail⟩ := List.pairwise_cons.mp hsorted
  obtain ⟨hsecond, -⟩ := List.pairwise_cons.mp htail
  have hahead : ∀ {a : PlateCandidate F}, (∀ b ∈ rest, byKey key b a = false) →
      a.text = best.text → (a.text == best.text && (best :: second :: rest).all fun b =>
        b.text == a.text || byKey key a b) = true := by
    intro a ha hatext
    rw [Bool.and_eq_true, beq_iff_eq, List.all_cons, List.all_cons, hatext, htext]
    simp only [BEq.rfl, Bool.true_or, Bool.true_and, List.all_eq_true, Bool.or_eq_true, beq_iff_eq,
      true_and]
    intro b hb
    by_cases hb' : b.text = best.text
    · exact Or.inl hb'
    · exact Or.inr (byKey_of_byKey_eq_false (ha b hb) (hatext ▸ hb'))
  have hfirst := hahead (fun b hb => hbest b (List.mem_cons_of_mem _ hb)) rfl
  rw [List.countP_cons, List.countP_cons, if_pos hfirst, if_pos (hahead hsecond htext)]
  omega

end

section

variable {key : F → ℚ} {evidence : List (RecognitionEvidence F D)}
  {fusedCandidates : List (PlateCandidate F)}

theorem mem_validCandidates {candidate : PlateCandidate F} :
    candidate ∈ validCandidates fusedCandidates ↔ candidate ∈ formatValid fusedCandidates :=
  mem_stableSort

/-- The candidates of an accepted call are finite. -/
theorem isFinite_effectiveValue (hinputs : checkInputs evidence fusedCandidates = .ok ())
    {candidate : PlateCandidate F} (h : candidate ∈ formatValid fusedCandidates) :
    Scalar.isFinite (effectiveValue candidate) = true :=
  Scalar.isFinite_of_isProbability
    ((checkInputs_eq_ok.mp hinputs).2 candidate (List.mem_of_mem_filter h))

theorem pairwise_validCandidates_byKey (hkey : Scalar.IsKey key)
    (hinputs : checkInputs evidence fusedCandidates = .ok ()) :
    (validCandidates fusedCandidates).Pairwise fun a b => byKey key b a = false := by
  have hsame : validCandidates fusedCandidates =
      stableSort (byKey key) (formatValid fusedCandidates) :=
    stableSort_congr fun a ha b hb => before_eq_byKey hkey (isFinite_effectiveValue hinputs ha)
      (isFinite_effectiveValue hinputs hb)
  rw [hsame]
  exact pairwise_stableSort (strictWeakOrder_byKey key) _

/-- The count of `MissesConflict` is one over the ranking. -/
theorem countP_ahead (hkey : Scalar.IsKey key)
    (hinputs : checkInputs evidence fusedCandidates = .ok ()) (plate : Text) :
    ((formatValid fusedCandidates).countP fun candidate =>
        candidate.text == plate && outranks (formatValid fusedCandidates) candidate) =
      (validCandidates fusedCandidates).countP fun a => a.text == plate &&
        (validCandidates fusedCandidates).all fun b => b.text == a.text || byKey key a b := by
  have hperm : (validCandidates fusedCandidates).Perm (formatValid fusedCandidates) :=
    stableSort_perm _ _
  rw [hperm.countP_eq]
  refine List.countP_congr fun a ha => ?_
  rw [outranks, hperm.all_eq, Bool.and_eq_true, Bool.and_eq_true, List.all_eq_true,
    List.all_eq_true]
  refine and_congr_right fun _ => forall₂_congr fun b hb => ?_
  rw [before_eq_byKey hkey (isFinite_effectiveValue hinputs ha)
    (isFinite_effectiveValue hinputs hb)]

end

/-- The thresholds of an accepted configuration are finite. -/
theorem isFinite_thresholds [OrderedScalar F] (c : Config F) :
    Scalar.isFinite c.config.acceptedConfidenceThreshold = true ∧
      Scalar.isFinite c.config.reviewConfidenceThreshold = true ∧
      Scalar.isFinite c.config.strongConflictThreshold = true := by
  have haccepted := c.accepted
  simp only [DecisionConfig.check, requireUnitInterval, except_bind_eq_ok, require_eq_ok,
    Bool.and_eq_true, decide_eq_true_eq] at haccepted
  obtain ⟨-, haccept, -, hreview, -, hstrong, -⟩ := haccepted
  exact ⟨OrderedScalar.isFinite_of_mem haccept.1 haccept.2,
    OrderedScalar.isFinite_of_mem hreview.1 hreview.2,
    OrderedScalar.isFinite_of_mem hstrong.1 hstrong.2⟩

/-- The plate of a decision is the best candidate's text. -/
theorem plate_applyGates [Zero D] {config : DecisionConfig F} {detection : Detection F}
    {evidence : List (RecognitionEvidence F D)} {fusedCandidates : List (PlateCandidate F)}
    {context : RecognitionDecisionContext} {best : PlateCandidate F}
    {rest : List (PlateCandidate F)} (h : validCandidates fusedCandidates = best :: rest) :
    (applyGates config detection (validCandidates fusedCandidates) context
      (resultOf detection evidence fusedCandidates context)).plate = best.text := by
  obtain ⟨status, reasons, happly⟩ := applyGates_eq config detection
    (validCandidates fusedCandidates) context
    (resultOf detection evidence fusedCandidates context)
  rw [happly]
  simp [resultOf, h]

section

variable {key : F → ℚ} {evidence : List (RecognitionEvidence F D)}
  {fusedCandidates : List (PlateCandidate F)} {m : F} {a b : PlateCandidate F}

/-- A candidate ranked no later reaches what the other reaches. -/
theorem le_effectiveValue_of_ranked (hkey : Scalar.IsKey key)
    (hinputs : checkInputs evidence fusedCandidates = .ok ()) (hm : Scalar.isFinite m = true)
    (ha : a ∈ formatValid fusedCandidates) (hb : b ∈ formatValid fusedCandidates)
    (hranked : byKey key b a = false) (h : m ≤ effectiveValue b) : m ≤ effectiveValue a := by
  rw [hkey.le_iff hm (isFinite_effectiveValue hinputs ha)]
  rw [hkey.le_iff hm (isFinite_effectiveValue hinputs hb)] at h
  exact h.trans (valueKey_le_of_byKey_eq_false hranked)

theorem not_lt_iff_le (hkey : Scalar.IsKey key) {x y : F} (hx : Scalar.isFinite x = true)
    (hy : Scalar.isFinite y = true) : ¬ x < y ↔ y ≤ x := by
  rw [hkey.lt_iff hx hy, hkey.le_iff hy hx, not_lt]

end

/-- A plate that takes the first two places is accepted, whatever ranks below. -/
theorem MissesConflict.accepted [OrderedScalar F] [Zero D] {key : F → ℚ}
    (hkey : Scalar.IsKey key) {c : Config F}
    {detection : Detection F} {evidence : List (RecognitionEvidence F D)}
    {fusedCandidates : List (PlateCandidate F)} {context : RecognitionDecisionContext}
    {plate : Text} {rival : PlateCandidate F}
    (h : MissesConflict c.config detection evidence fusedCandidates context plate rival) :
    ∃ result, SafeDecisionPolicy.decide c detection evidence fusedCandidates context = .ok result ∧
      result.status = .accepted ∧ result.plate = plate := by
  have hsorted := pairwise_validCandidates_byKey hkey h.inputs
  have hahead := h.ahead
  rw [countP_ahead hkey h.inputs] at hahead
  obtain ⟨best, second, rest, hvalid, rfl, hsecond⟩ := exists_first_two hsorted hahead
  have hmem : best ∈ formatValid fusedCandidates :=
    mem_validCandidates.mp (hvalid ▸ List.mem_cons_self)
  obtain ⟨haccept, hreview, -⟩ := isFinite_thresholds c
  have hreaches : ∀ {m : F}, Scalar.isFinite m = true → ∀ candidate ∈ formatValid fusedCandidates,
      m ≤ effectiveValue candidate → ¬ effectiveValue best < m := by
    intro m hm candidate hcandidate hle
    rw [not_lt_iff_le hkey (isFinite_effectiveValue h.inputs hmem) hm]
    have hcandidate' := mem_validCandidates.mpr hcandidate
    rw [hvalid] at hcandidate' hsorted
    rcases List.mem_cons.mp hcandidate' with rfl | htail
    · exact hle
    · exact le_effectiveValue_of_ranked hkey h.inputs hm hmem hcandidate
        ((List.pairwise_cons.mp hsorted).1 _ htail) hle
  obtain ⟨candidate, hcandidate, -, hcandidateReview, hcandidateAccept⟩ := h.confident
  have hnone : hasStrongConflict c.config (best :: second :: rest) = false := by
    rw [hasStrongConflict, hsecond, bne_self_eq_false, Bool.false_and]
  have hstatus : (applyGates c.config detection (validCandidates fusedCandidates) context
      (resultOf detection evidence fusedCandidates context)).status = .accepted :=
    status_accepted_iff.mpr ⟨h.admissible, best, second :: rest, hvalid,
      hreaches hreview candidate hcandidate hcandidateReview,
      hreaches haccept candidate hcandidate hcandidateAccept, hnone⟩
  exact ⟨_, decide_eq_ok.mpr ⟨h.inputs, rfl⟩, hstatus, plate_applyGates hvalid⟩

/-- A rival that an accepted plate hides is below the first two places. -/
theorem missesConflict_of_accepted [OrderedScalar F] [Zero D] {key : F → ℚ}
    (hkey : Scalar.IsKey key) {c : Config F} {detection : Detection F}
    {evidence : List (RecognitionEvidence F D)} {fusedCandidates : List (PlateCandidate F)}
    {context : RecognitionDecisionContext} {best : PlateCandidate F}
    {rest : List (PlateCandidate F)} (hinputs : checkInputs evidence fusedCandidates = .ok ())
    (hadmissible : Admissible c.config detection evidence context)
    (hvalid : validCandidates fusedCandidates = best :: rest)
    (hreview : c.config.reviewConfidenceThreshold ≤ effectiveValue best)
    (haccept : c.config.acceptedConfidenceThreshold ≤ effectiveValue best)
    (hconflict : hasStrongConflict c.config (best :: rest) = false) {rival : PlateCandidate F}
    (hrival : rival ∈ formatValid fusedCandidates) (hother : rival.text ≠ best.text)
    (hweak : c.config.strongConflictThreshold ≤ effectiveValue rival) :
    MissesConflict c.config detection evidence fusedCandidates context best.text rival := by
  have hstrong := (isFinite_thresholds c).2.2
  have hmem : best ∈ formatValid fusedCandidates :=
    mem_validCandidates.mp (hvalid ▸ List.mem_cons_self)
  have hsorted := pairwise_validCandidates_byKey hkey hinputs
  have hrival' := mem_validCandidates.mpr hrival
  rw [hvalid] at hrival' hsorted
  have htail := (List.mem_cons.mp hrival').resolve_left fun h => hother (h ▸ rfl)
  rcases rest with _ | ⟨second, rest⟩
  · exact absurd htail List.not_mem_nil
  have hsecondMem : second ∈ formatValid fusedCandidates :=
    mem_validCandidates.mp (hvalid ▸ List.mem_cons_of_mem _ List.mem_cons_self)
  have hsecondStrong : c.config.strongConflictThreshold ≤ effectiveValue second := by
    rcases List.mem_cons.mp htail with rfl | hrest
    · exact hweak
    · exact le_effectiveValue_of_ranked hkey hinputs hstrong hsecondMem hrival
        ((List.pairwise_cons.mp (List.pairwise_cons.mp hsorted).2).1 _ hrest) hweak
  have htext : second.text = best.text := by
    by_contra htext
    rw [hasStrongConflict, bne_iff_ne.mpr htext, Bool.true_and] at hconflict
    exact of_decide_eq_false hconflict hsecondStrong
  refine
    { inputs := hinputs
      admissible := hadmissible
      ahead := ?_
      confident := ⟨best, hmem, rfl, hreview, haccept⟩
      mem := hrival
      other := hother
      strong := hweak }
  rw [countP_ahead hkey hinputs, hvalid]
  exact two_le_countP hsorted htext

theorem acceptanceSound_of_not_misses [OrderedScalar F] [Zero D] {c : Config F}
    {detection : Detection F} {evidence : List (RecognitionEvidence F D)}
    {fusedCandidates : List (PlateCandidate F)} {context : RecognitionDecisionContext}
    (h : ∀ plate rival,
      ¬ MissesConflict c.config detection evidence fusedCandidates context plate rival) :
    AcceptanceSound c detection evidence fusedCandidates context := by
  obtain ⟨key, hkey⟩ := OrderedScalar.exists_key (F := F)
  obtain ⟨haccept, hreview, hstrong⟩ := isFinite_thresholds c
  intro result hok hstatus
  obtain ⟨hinputs, rfl⟩ := decide_eq_ok.mp hok
  obtain ⟨hadmissible, best, rest, hvalid, hbestReview, hbestAccept, hconflict⟩ :=
    status_accepted_iff.mp hstatus
  have hmem : best ∈ formatValid fusedCandidates :=
    mem_validCandidates.mp (hvalid ▸ List.mem_cons_self)
  have hfinite := isFinite_effectiveValue hinputs hmem
  rw [not_lt_iff_le hkey hfinite haccept] at hbestAccept
  rw [not_lt_iff_le hkey hfinite hreview] at hbestReview
  rw [plate_applyGates hvalid]
  refine ⟨hadmissible, ⟨best, hmem, rfl, hbestAccept⟩, fun rival hrival hother => ?_⟩
  by_contra hweak
  rw [not_lt_iff_le hkey (isFinite_effectiveValue hinputs hrival) hstrong] at hweak
  exact h best.text rival (missesConflict_of_accepted hkey hinputs hadmissible hvalid hbestReview
    hbestAccept hconflict hrival hother hweak)

/-- Candidates with distinct texts, which is what the fusion hands over, hide no rival. -/
theorem acceptanceSound_of_nodup [OrderedScalar F] [Zero D] {c : Config F}
    {detection : Detection F} {evidence : List (RecognitionEvidence F D)}
    {fusedCandidates : List (PlateCandidate F)} {context : RecognitionDecisionContext}
    (h : (fusedCandidates.map PlateCandidate.text).Nodup) :
    AcceptanceSound c detection evidence fusedCandidates context := by
  refine acceptanceSound_of_not_misses fun plate rival hmisses => ?_
  have hone : (formatValid fusedCandidates).countP (fun candidate => candidate.text == plate &&
      outranks (formatValid fusedCandidates) candidate) ≤ 1 :=
    calc _ ≤ (formatValid fusedCandidates).countP fun candidate => candidate.text == plate :=
          List.countP_mono_left fun candidate _ hcandidate => (Bool.and_eq_true_iff.mp hcandidate).1
      _ ≤ fusedCandidates.countP fun candidate => candidate.text == plate :=
          List.filter_sublist.countP_le
      _ = (fusedCandidates.map PlateCandidate.text).count plate := by
          rw [List.count, List.countP_map]
          rfl
      _ ≤ 1 := List.nodup_iff_count_le_one.mp h plate
  exact absurd (hmisses.ahead.trans hone) (by decide)

/-- **Soundness of acceptance.**  It holds of a call exactly when the plate does not take the first
two places from a strong rival. -/
theorem acceptanceSound_iff [OrderedScalar F] [Zero D] (c : Config F) (detection : Detection F)
    (evidence : List (RecognitionEvidence F D)) (fusedCandidates : List (PlateCandidate F))
    (context : RecognitionDecisionContext) :
    AcceptanceSound c detection evidence fusedCandidates context ↔ ∀ plate rival,
      ¬ MissesConflict c.config detection evidence fusedCandidates context plate rival := by
  refine ⟨fun hsound plate rival h => ?_, acceptanceSound_of_not_misses⟩
  obtain ⟨key, hkey⟩ := OrderedScalar.exists_key (F := F)
  obtain ⟨result, hok, hstatus, hplate⟩ := h.accepted hkey
  have hweak := (hsound result hok hstatus).2.2 rival h.mem (hplate ▸ h.other)
  exact (not_lt_iff_le hkey (isFinite_effectiveValue h.inputs h.mem)
    (isFinite_thresholds c).2.2).mpr h.strong hweak

/-! ### A text that comes twice -/

def clearDetection : Detection ℚ := ⟨⟨0, 0, 120, 30⟩, none, 1, 1, ascii "detector"⟩

def clearEvidence : RecognitionEvidence ℚ ℚ := ⟨ascii "ocr", [], 1, 0⟩

/-- The best text twice, then a strong rival. -/
def repeatedCandidates : List (PlateCandidate ℚ) :=
  [⟨ascii "34ABC123", 0, 95 / 100, true⟩, ⟨ascii "34ABC123", 0, 94 / 100, true⟩,
    ⟨ascii "34ABC128", 0, 93 / 100, true⟩]

theorem acceptanceSound_iff_repeated :
    AcceptanceSound Config.default clearDetection [clearEvidence] repeatedCandidates
        RecognitionDecisionContext.default ↔ ∀ plate rival,
      ¬ MissesConflict Config.default.config clearDetection [clearEvidence] repeatedCandidates
        RecognitionDecisionContext.default plate rival :=
  acceptanceSound_iff _ _ _ _ _

theorem repeated_text_hides_rival : ¬ AcceptanceSound Config.default clearDetection
    [clearEvidence] repeatedCandidates RecognitionDecisionContext.default := by
  intro hsound
  have hmisses : MissesConflict Config.default.config clearDetection [clearEvidence]
      repeatedCandidates RecognitionDecisionContext.default (ascii "34ABC123")
      ⟨ascii "34ABC128", 0, 93 / 100, true⟩ :=
    { inputs := by decide +kernel
      admissible :=
        { fatal := rfl
          detector := by decide +kernel
          geometry := by decide +kernel
          cropQuality := by decide +kernel
          degraded := rfl }
      ahead := by decide +kernel
      confident := by decide +kernel
      mem := by decide +kernel
      other := by decide
      strong := by decide +kernel }
  obtain ⟨key, hkey⟩ := OrderedScalar.exists_key (F := ℚ)
  obtain ⟨result, hok, hstatus, hplate⟩ := hmisses.accepted hkey
  obtain ⟨-, -, hrivals⟩ := hsound result hok hstatus
  rw [hplate] at hrivals
  have hweak := hrivals _ hmisses.mem hmisses.other
  exact absurd hweak (by decide +kernel)

end SafeDecisionPolicy

end FacLpr
