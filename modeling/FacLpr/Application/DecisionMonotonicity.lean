import FacLpr.Application.SafeDecisionPolicy

/-!
# Application/DecisionMonotonicity — better evidence is never decided worse

Of two inputs with the same candidates, the one that is no worse passes every gate the other passes:
the gates that reject, and one by one those that ask for a review (`reviewReasons_sublist`).  The
comparisons are those of any scalar whose finite values are ordered, rounding or not.
-/

namespace FacLpr

/-- Rejected, then for a review, then accepted. -/
def RecognitionStatus.rank : RecognitionStatus → ℕ
  | .rejected => 0
  | .review => 1
  | .accepted => 2

namespace SafeDecisionPolicy

variable {F D : Type} [Scalar F]

/-- The second inputs are the first with scores as high, and no more failures. -/
structure NoWorse (detection detection' : Detection F)
    (evidence evidence' : List (RecognitionEvidence F D))
    (context context' : RecognitionDecisionContext) : Prop where
  sameBox : detection' = { detection with
    confidence := detection'.confidence
    geometryScore := detection'.geometryScore }
  confidence : detection.confidence ≤ detection'.confidence
  geometryScore : detection.geometryScore ≤ detection'.geometryScore
  cropQuality : List.Forall₂ (fun item item' =>
    item' = { item with cropQuality := item'.cropQuality } ∧ item.cropQuality ≤ item'.cropQuality)
    evidence evidence'
  failures : context'.providerFailureCount ≤ context.providerFailureCount
  degraded : context'.degraded = true → context.degraded = true
  fatal : context'.fatalProviderFailure = true → context.fatalProviderFailure = true

/-! ## One gate -/

theorem not_lt_of_not_lt [LawfulScalar F] [OrderedScalar F] {score score' minimum : F}
    (hscore : Scalar.isFinite score = true) (hscore' : Scalar.isFinite score' = true)
    (hle : score ≤ score') (h : ¬ score < minimum) : ¬ score' < minimum :=
  fun hlt => h (LawfulScalar.lt_of_not_lt hscore hscore' (Scalar.not_lt_of_le hscore hscore' hle)
    hlt)

/-- A gate that fails when another does adds no reason the other does not. -/
theorem ite_sublist {α : Type} {p q : Prop} [Decidable p] [Decidable q] (h : p → q) (a : α) :
    (if p then [a] else []).Sublist (if q then [a] else []) := by
  by_cases hp : p
  · rw [if_pos hp, if_pos (h hp)]
  · rw [if_neg hp]
    exact List.nil_sublist _

theorem exists_of_forall₂ {α β : Type} {R : α → β → Prop} {l : List α} {l' : List β}
    (h : List.Forall₂ R l l') {a : α} (ha : a ∈ l) : ∃ b ∈ l', R a b := by
  induction h with
  | nil => exact absurd ha List.not_mem_nil
  | cons hR _ ih =>
    rcases List.mem_cons.mp ha with rfl | ha
    · exact ⟨_, List.mem_cons_self, hR⟩
    · obtain ⟨b, hb, hab⟩ := ih ha
      exact ⟨b, List.mem_cons_of_mem _ hb, hab⟩

/-! ## The cascade -/

namespace NoWorse

variable [UnitScalar F] [OrderedScalar F] {detection detection' : Detection F}
  {evidence evidence' : List (RecognitionEvidence F D)}
  {context context' : RecognitionDecisionContext} {config : DecisionConfig F}
  {valid : List (PlateCandidate F)}

theorem bestCropQuality_lt (h : NoWorse detection detection' evidence evidence' context context')
    (hevidence : ∀ item ∈ evidence, Scalar.isFinite item.cropQuality = true)
    (hevidence' : ∀ item ∈ evidence', Scalar.isFinite item.cropQuality = true) {minimum : F}
    (hlt : bestCropQuality evidence' < minimum) : bestCropQuality evidence < minimum := by
  have hbest : ∀ l : List (RecognitionEvidence F D),
      (∀ item ∈ l, Scalar.isFinite item.cropQuality = true) →
        (bestCropQuality l < minimum ↔ 0 < minimum ∧ ∀ item ∈ l, item.cropQuality < minimum) := by
    intro l hl
    rw [bestCropQuality, ← List.foldl_map, Scalar.foldl_max_lt_iff _ UnitScalar.isFinite_zero
      (List.forall_mem_map.mpr hl), List.forall_mem_map]
  rw [hbest evidence' hevidence'] at hlt
  rw [hbest evidence hevidence]
  refine ⟨hlt.1, fun item hitem => ?_⟩
  obtain ⟨item', hitem', -, hle⟩ := exists_of_forall₂ h.cropQuality hitem
  by_contra hnot
  exact not_lt_of_not_lt (hevidence item hitem) (hevidence' item' hitem') hle hnot
    (hlt.2 item' hitem')

omit [UnitScalar F] [OrderedScalar F] in
theorem isDegraded (h : NoWorse detection detection' evidence evidence' context context')
    (hdegraded : isDegraded context' = true) : isDegraded context = true := by
  simp only [SafeDecisionPolicy.isDegraded, Bool.or_eq_true, decide_eq_true_eq] at hdegraded ⊢
  exact hdegraded.imp h.degraded fun hpos => hpos.trans_le h.failures

/-- **What the better input is rejected for** the other is rejected for. -/
theorem rejection_eq_none (h : NoWorse detection detection' evidence evidence' context context')
    (hconfidence : Scalar.isFinite detection'.confidence = true)
    (hnone : rejection config detection valid context = none) :
    rejection config detection' valid context' = none := by
  obtain ⟨hfatal, ⟨hfinite, hdetector⟩, hbest⟩ := SafeDecisionPolicy.rejection_eq_none.mp hnone
  refine SafeDecisionPolicy.rejection_eq_none.mpr ⟨?_, ⟨hconfidence, ?_⟩, hbest⟩
  · by_contra hfatal'
    exact Bool.false_ne_true (hfatal.symm.trans (h.fatal (Bool.not_eq_false _ ▸ hfatal')))
  · exact not_lt_of_not_lt hfinite hconfidence h.confidence hdetector

/-- **What the better input is reviewed for** the other is reviewed for. -/
theorem reviewReasons_sublist [Zero D] (config : DecisionConfig F)
    (valid fusedCandidates : List (PlateCandidate F))
    (h : NoWorse detection detection' evidence evidence' context context')
    (hgeometry : Scalar.isFinite detection'.geometryScore = true)
    (hevidence : ∀ item ∈ evidence, Scalar.isFinite item.cropQuality = true)
    (hevidence' : ∀ item ∈ evidence', Scalar.isFinite item.cropQuality = true) :
    (reviewReasons config detection' (resultOf detection' evidence' fusedCandidates context')
        valid).Sublist
      (reviewReasons config detection (resultOf detection evidence fusedCandidates context)
        valid) := by
  unfold reviewReasons
  refine ((((ite_sublist ?_ _).append (ite_sublist ?_ _)).append (ite_sublist id _)).append
    (ite_sublist id _)).append (ite_sublist h.isDegraded _)
  · rintro (hinfinite | hlt)
    · rw [hgeometry] at hinfinite
      exact absurd hinfinite Bool.false_ne_true
    · by_contra hpass
      rw [not_or, Bool.not_eq_true', Bool.not_eq_false] at hpass
      exact not_lt_of_not_lt hpass.1 hgeometry h.geometryScore hpass.2 hlt
  · exact h.bestCropQuality_lt hevidence hevidence'

end NoWorse

theorem rank_applyGates (config : DecisionConfig F) (detection : Detection F)
    (valid : List (PlateCandidate F)) (context : RecognitionDecisionContext)
    (result : PlateRecognitionResult F D) :
    (applyGates config detection valid context result).status.rank =
      if rejection config detection valid context = none then
        if reviewReasons config detection result valid = [] then 2 else 1
      else 0 := by
  unfold applyGates
  cases rejection config detection valid context with
  | some reason => rfl
  | none => cases reviewReasons config detection result valid <;> rfl

/-- **The decision is monotone**: the better of two inputs with the same candidates is not decided
worse. -/
theorem decide_monotone [UnitScalar F] [OrderedScalar F] [Zero D] (c : Config F)
    {detection detection' : Detection F} {evidence evidence' : List (RecognitionEvidence F D)}
    {context context' : RecognitionDecisionContext} {fusedCandidates : List (PlateCandidate F)}
    {result result' : PlateRecognitionResult F D}
    (h : NoWorse detection detection' evidence evidence' context context')
    (hfinite : Scalar.isFinite detection'.confidence = true ∧
      Scalar.isFinite detection'.geometryScore = true)
    (hresult : SafeDecisionPolicy.decide c detection evidence fusedCandidates context = .ok result)
    (hresult' : SafeDecisionPolicy.decide c detection' evidence' fusedCandidates context' =
      .ok result') : result.status.rank ≤ result'.status.rank := by
  obtain ⟨hinputs, rfl⟩ := decide_eq_ok.mp hresult
  obtain ⟨hinputs', rfl⟩ := decide_eq_ok.mp hresult'
  have hqualities := fun item hitem =>
    Scalar.isFinite_of_isProbability ((checkInputs_eq_ok.mp hinputs).1 item hitem)
  have hqualities' := fun item hitem =>
    Scalar.isFinite_of_isProbability ((checkInputs_eq_ok.mp hinputs').1 item hitem)
  have hreviews := h.reviewReasons_sublist c.config (validCandidates fusedCandidates)
    fusedCandidates hfinite.2 hqualities hqualities'
  rw [rank_applyGates, rank_applyGates]
  by_cases hnone : rejection c.config detection (validCandidates fusedCandidates) context = none
  · rw [if_pos hnone, if_pos (h.rejection_eq_none hfinite.1 hnone)]
    by_cases hnil : reviewReasons c.config detection
        (resultOf detection evidence fusedCandidates context) (validCandidates fusedCandidates) = []
    · rw [hnil, List.sublist_nil] at hreviews
      rw [if_pos hnil, if_pos hreviews]
    · rw [if_neg hnil]
      split <;> decide
  · rw [if_neg hnone]
    exact Nat.zero_le _

/-- A plate in a distorted box, read from a blurred crop. -/
def distortedDetection : Detection ℚ := ⟨⟨0, 0, 120, 30⟩, none, 6 / 10, 1 / 10, ascii "detector"⟩

/-- The plate in a straight box. -/
def straightDetection : Detection ℚ :=
  { distortedDetection with confidence := 9 / 10, geometryScore := 8 / 10 }

def blurredEvidence : RecognitionEvidence ℚ ℚ := ⟨ascii "ocr", [], 2 / 10, 0⟩

def sharpEvidence : RecognitionEvidence ℚ ℚ := { blurredEvidence with cropQuality := 9 / 10 }

def oneCandidate : List (PlateCandidate ℚ) := [⟨ascii "34ABC123", 0, 95 / 100, true⟩]

theorem noWorse_straight : NoWorse distortedDetection straightDetection [blurredEvidence]
    [sharpEvidence] ⟨false, false, 1⟩ ⟨false, false, 0⟩ where
  sameBox := rfl
  confidence := by decide +kernel
  geometryScore := by decide +kernel
  cropQuality := .cons ⟨rfl, by decide +kernel⟩ .nil
  failures := Nat.zero_le 1
  degraded := id
  fatal := id

/-- The distorted plate, with a failed provider, is for a review; the straight one is accepted. -/
theorem decide_monotone_straight :
    ∃ result result' : PlateRecognitionResult ℚ ℚ,
      SafeDecisionPolicy.decide Config.default distortedDetection [blurredEvidence] oneCandidate
          ⟨false, false, 1⟩ = .ok result ∧
        SafeDecisionPolicy.decide Config.default straightDetection [sharpEvidence] oneCandidate
          ⟨false, false, 0⟩ = .ok result' ∧
        result.status = .review ∧ result'.status = .accepted ∧
        result.status.rank ≤ result'.status.rank := by
  have hresult : SafeDecisionPolicy.decide Config.default distortedDetection [blurredEvidence]
      oneCandidate ⟨false, false, 1⟩ = .ok _ := decide_eq_ok.mpr ⟨by decide +kernel, rfl⟩
  have hresult' : SafeDecisionPolicy.decide Config.default straightDetection [sharpEvidence]
      oneCandidate ⟨false, false, 0⟩ = .ok _ := decide_eq_ok.mpr ⟨by decide +kernel, rfl⟩
  exact ⟨_, _, hresult, hresult', by decide +kernel, by decide +kernel,
    decide_monotone Config.default noWorse_straight ⟨rfl, rfl⟩ hresult hresult'⟩

end SafeDecisionPolicy

end FacLpr
