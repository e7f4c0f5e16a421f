import FacLpr.Infrastructure.Yolo.DecodedCandidates
import Mathlib.Data.Prod.Lex

/-!
# Infrastructure/Yolo/SelectedCandidates — the order the candidates are suppressed in

The confidence of a row is a probability, so the comparator of the sort is an order by keys on what
was decoded: the sorted candidates are strictly ordered (`pairwise_sorted`), and what is returned of
them is ordered and accounts for all of them (`accountedFor_selectCandidates`).
-/

namespace FacLpr

namespace YoloPoseOutputParser

variable {F : Type} [Scalar F]

/-! ## What is decoded -/

section Rows

variable {spec : YoloPoseOutputSpec F} {letterbox : LetterboxMetadata F} {row : ℕ → F} {n : ℕ}
  {cells : ℕ → ℕ → F}

/-- A row is decoded unless its confidence is too small or its box is none. -/
theorem decode_eq_some {detection : Detection F} :
    Row.decode spec letterbox row = some detection ↔
      ¬ Row.confidence spec row < spec.confidenceThreshold ∧
        ∃ bbox, Row.bbox spec letterbox row = some bbox ∧
          detection = ⟨bbox, Row.keypoints spec letterbox row, Row.confidence spec row, 0,
            spec.providerName⟩ := by
  unfold Row.decode
  split
  · simp [*]
  · simp [*, eq_comm]

/-- The candidates are the rows that decode, by their index. -/
theorem mem_decodedRows {ranked : RankedDetection F} :
    ranked ∈ decodedRows spec letterbox n cells ↔ ranked.sourceIndex < n ∧
      Row.decode spec letterbox (fun feature => cells feature ranked.sourceIndex) =
        some ranked.detection := by
  unfold decodedRows
  rw [List.mem_filterMap]
  constructor
  · rintro ⟨candidate, hmem, h⟩
    obtain ⟨detection, hdecode, rfl⟩ := Option.map_eq_some_iff.mp h
    exact ⟨List.mem_range.mp hmem, hdecode⟩
  · rintro ⟨hlt, hdecode⟩
    exact ⟨ranked.sourceIndex, List.mem_range.mpr hlt, by rw [hdecode]; rfl⟩

/-- The candidates are decoded in their order. -/
theorem pairwise_decodedRows : (decodedRows spec letterbox n cells).Pairwise fun a b =>
    a.sourceIndex < b.sourceIndex := by
  refine List.pairwise_filterMap.mpr (List.pairwise_lt_range.imp fun hlt a ha b hb => ?_)
  obtain ⟨_, -, rfl⟩ := Option.map_eq_some_iff.mp ha
  obtain ⟨_, -, rfl⟩ := Option.map_eq_some_iff.mp hb
  exact hlt

variable [ProbabilityScalar F]

theorem isProbability_finiteProbability (value : F) :
    Scalar.isProbability (finiteProbability value) = true := by
  unfold finiteProbability
  split
  · exact ProbabilityScalar.isProbability_clamp01 ‹_›
  · exact ProbabilityScalar.isProbability_zero

/-- **The confidence of a row is a probability.** -/
theorem isProbability_confidence : Scalar.isProbability (Row.confidence spec row) = true := by
  refine ProbabilityScalar.isProbability_mul ?_ ?_
  · unfold Row.classConfidence
    rw [← List.foldl_map]
    refine Scalar.isProbability_foldl_max ProbabilityScalar.isProbability_zero fun score hscore => ?_
    obtain ⟨classIndex, -, rfl⟩ := List.mem_map.mp hscore
    exact isProbability_finiteProbability _
  · unfold Row.objectness
    split
    · exact ProbabilityScalar.isProbability_one
    · exact isProbability_finiteProbability _

theorem isProbability_of_mem {ranked : RankedDetection F}
    (h : ranked ∈ decodedRows spec letterbox n cells) :
    Scalar.isProbability ranked.detection.confidence = true := by
  obtain ⟨-, bbox, -, heq⟩ := decode_eq_some.mp (mem_decodedRows.mp h).2
  rw [heq]
  exact isProbability_confidence

end Rows

/-! ## The order -/

/-- A higher confidence goes first, then the earlier candidate. -/
def Precedes (a b : RankedDetection F) : Prop :=
  b.detection.confidence < a.detection.confidence ∨
    ((a.detection.confidence == b.detection.confidence) = true ∧ a.sourceIndex < b.sourceIndex)

/-- The confidence, the highest first, and the candidate. -/
def rankKey (key : F → ℚ) (ranked : RankedDetection F) : ℚᵒᵈ ×ₗ ℕ :=
  toLex (OrderDual.toDual (key ranked.detection.confidence), ranked.sourceIndex)

section Order

variable {key : F → ℚ} {a b : RankedDetection F} {l : List (RankedDetection F)}

/-- Candidates are ranked by their keys, and then by their index. -/
theorem rankedBefore_iff (hkey : Scalar.IsKey key)
    (ha : Scalar.isFinite a.detection.confidence = true)
    (hb : Scalar.isFinite b.detection.confidence = true) :
    rankedBefore a b = true ↔ rankKey key a < rankKey key b := by
  have hbeq := hkey.beq_iff ha hb
  have hlt := hkey.lt_iff hb ha
  unfold rankedBefore rankKey
  rw [Prod.Lex.toLex_lt_toLex, OrderDual.toDual_lt_toDual, EmbeddingLike.apply_eq_iff_eq, bne]
  cases heq : a.detection.confidence == b.detection.confidence with
  | true => simp [hbeq.mp heq]
  | false =>
    have hne : key a.detection.confidence ≠ key b.detection.confidence := fun h => by
      rw [hbeq.mpr h] at heq
      cases heq
    simp [hlt, hne]

theorem precedes_iff (hkey : Scalar.IsKey key)
    (ha : Scalar.isFinite a.detection.confidence = true)
    (hb : Scalar.isFinite b.detection.confidence = true) :
    Precedes a b ↔ rankKey key a < rankKey key b := by
  unfold Precedes rankKey
  rw [Prod.Lex.toLex_lt_toLex, OrderDual.toDual_lt_toDual, EmbeddingLike.apply_eq_iff_eq,
    hkey.lt_iff hb ha, hkey.beq_iff ha hb]

/-- **The sorted candidates are ordered**: no two of them are equivalent. -/
theorem pairwise_sorted [OrderedScalar F]
    (hfinite : ∀ r ∈ l, Scalar.isFinite r.detection.confidence = true)
    (hindex : l.Pairwise fun a b => a.sourceIndex ≠ b.sourceIndex) :
    (stableSort rankedBefore l).Pairwise Precedes := by
  obtain ⟨key, hkey⟩ := OrderedScalar.exists_key (F := F)
  have hsort : stableSort rankedBefore l =
      stableSort (fun a b => decide (rankKey key a < rankKey key b)) l :=
    stableSort_congr fun a ha b hb => by
      rw [Bool.eq_iff_iff, decide_eq_true_eq]
      exact rankedBefore_iff hkey (hfinite a ha) (hfinite b hb)
  have hdistinct : (stableSort rankedBefore l).Pairwise fun a b => a.sourceIndex ≠ b.sourceIndex :=
    ((stableSort_perm rankedBefore l).pairwise_iff fun h => h.symm).mpr hindex
  have hsorted := pairwise_stableSort (strictWeakOrder_key (rankKey key)) l
  rw [← hsort] at hsorted
  refine (hsorted.and hdistinct).imp_of_mem fun {a b} ha hb h => ?_
  obtain ⟨hnot, hne⟩ := h
  refine (precedes_iff hkey (hfinite a (mem_stableSort.mp ha))
    (hfinite b (mem_stableSort.mp hb))).mpr ?_
  refine lt_of_le_of_ne (not_lt.mp (of_decide_eq_false hnot)) fun heq => hne ?_
  exact congrArg (fun k => (ofLex k).2) heq

end Order

/-! ## What is returned -/

section Selection

variable {spec : YoloPoseOutputSpec F} {letterbox : LetterboxMetadata F} {n : ℕ}
  {cells : ℕ → ℕ → F}

theorem mem_decodedRows_of_selectedRows {ranked : RankedDetection F}
    (h : ranked ∈ selectedRows spec letterbox n cells) :
    ranked ∈ decodedRows spec letterbox n cells :=
  mem_stableSort.mp ((suppress_sublist _).subset h)

variable [ProbabilityScalar F]

theorem pairwise_sorted_decodedRows :
    (stableSort rankedBefore (decodedRows spec letterbox n cells)).Pairwise Precedes :=
  pairwise_sorted (fun _ hr => Scalar.isFinite_of_isProbability (isProbability_of_mem hr))
    (pairwise_decodedRows.imp fun h => h.ne)

/-- **The selected candidates are in order.** -/
theorem pairwise_selectedRows : (selectedRows spec letterbox n cells).Pairwise Precedes :=
  pairwise_sorted_decodedRows.sublist (suppress_sublist _)

/-- **Every candidate is accounted for**: returned, or overlapping a better one that is, or after
the last one there was room for. -/
theorem accountedFor_selectedRows {ranked : RankedDetection F}
    (h : ranked ∈ decodedRows spec letterbox n cells) :
    AccountedFor (overlapping spec) spec.maximumDetections.toNat Precedes
      (selectedRows spec letterbox n cells) ranked :=
  suppress_complete pairwise_sorted_decodedRows ranked
    (mem_stableSort.mpr h)

end Selection

end YoloPoseOutputParser

end FacLpr
