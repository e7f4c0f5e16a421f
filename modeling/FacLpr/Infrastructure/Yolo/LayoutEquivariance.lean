import FacLpr.Foundations.BinaryScalar
import FacLpr.Infrastructure.Yolo.SelectedCandidates
import Mathlib.Data.List.FinRange

/-!
# Infrastructure/Yolo/LayoutEquivariance — the layout and the order of the candidates

A transposed tensor under the other layout has the same elements (`cell_transpose`), so it is parsed
to the same detections.  The order of the candidates is seen by the sort alone, which only looks at
it where two confidences are equal.
-/

namespace FacLpr

def CandidateLayout.other : CandidateLayout → CandidateLayout
  | .featuresFirst => .candidatesFirst
  | .candidatesFirst => .featuresFirst

/-- The shape with its last two dimensions exchanged. -/
def transposedShape : List Int64 → List Int64
  | [batch, first, second] => [batch, second, first]
  | [first, second] => [second, first]
  | shape => shape

/-- The last but one dimension, and the last. -/
def matrixExtents : List Int64 → ℕ × ℕ
  | [_, first, second] => (first.toUInt64.toNat, second.toUInt64.toNat)
  | [first, second] => (first.toUInt64.toNat, second.toUInt64.toNat)
  | _ => (0, 0)

/-- The elements of a matrix with the given extents, column by column. -/
def transposeElements {F : Type} [Zero F] (extents : ℕ × ℕ) (elements : List F) : List F :=
  (List.range elements.length).map fun k =>
    elements[k % extents.1 * extents.2 + k / extents.1]?.getD 0

/-- The transposed tensor. -/
def ElementSpan.transpose {F : Type} [Zero F] (output : ElementSpan F) (shape : List Int64) :
    ElementSpan F where
  elements := transposeElements (matrixExtents shape) output.elements
  fits := by
    rw [transposeElements, List.length_map, List.length_range]
    exact output.fits

@[simp] theorem length_transposeElements {F : Type} [Zero F] (extents : ℕ × ℕ)
    (elements : List F) : (transposeElements extents elements).length = elements.length := by
  rw [transposeElements, List.length_map, List.length_range]

/-- **The transposed elements** are those of the matrix, with the indices exchanged. -/
theorem getElem?_transposeElements {F : Type} [Zero F] {extents : ℕ × ℕ} {elements : List F}
    (h : elements.length = extents.1 * extents.2) {i j : ℕ} (hi : i < extents.1)
    (hj : j < extents.2) :
    (transposeElements extents elements)[j * extents.1 + i]?.getD 0 =
      elements[i * extents.2 + j]?.getD 0 := by
  have hlt : j * extents.1 + i < elements.length := by
    rw [h, Nat.mul_comm extents.1]
    exact OutputMatrix.mul_add_lt_mul hj hi
  have hmod : (j * extents.1 + i) % extents.1 = i := by
    rw [Nat.mul_comm, Nat.mul_add_mod, Nat.mod_eq_of_lt hi]
  have hdiv : (j * extents.1 + i) / extents.1 = j := by
    rw [Nat.mul_comm, Nat.mul_add_div (by omega), Nat.div_eq_of_lt hi, Nat.add_zero]
  rw [transposeElements, List.getElem?_map, List.getElem?_range hlt, Option.map_some,
    Option.getD_some, hmod, hdiv]

namespace YoloPoseOutputParser

/-! ## Transposed shapes -/

theorem checkedDimension_eq_ok {value : Int64} {field : String} {dimension : UInt64} :
    checkedDimension value field = .ok dimension ↔ 0 < value ∧ value.toUInt64 = dimension := by
  have hle : ¬ maxSize < value.toUInt64 := by
    rw [UInt64.lt_iff_toNat_lt, toNat_maxSize, Nat.not_lt]
    exact toNat_le_sizeMax _
  simp [checkedDimension, except_bind_eq_ok, hle, pure, Except.pure]

theorem checkedDimensions_transposedShape {shape : List Int64} {first second : UInt64} :
    checkedDimensions (transposedShape shape) = .ok (second, first) ↔
      checkedDimensions shape = .ok (first, second) := by
  unfold transposedShape
  split
  · simp only [checkedDimensions, except_bind_eq_ok, checkedDimension_eq_ok, pure, Except.pure]
    grind
  · simp only [checkedDimensions, except_bind_eq_ok, checkedDimension_eq_ok, pure, Except.pure]
    grind
  · rename_i h3 h2
    unfold checkedDimensions
    split
    · exact absurd rfl (h3 _ _ _)
    · exact absurd rfl (h2 _ _)
    · exact ⟨(fun h => by cases h), (fun h => by cases h)⟩

theorem matrixExtents_of_checkedDimensions {shape : List Int64} {dimensions : UInt64 × UInt64}
    (h : checkedDimensions shape = .ok dimensions) :
    matrixExtents shape = (dimensions.1.toNat, dimensions.2.toNat) := by
  unfold checkedDimensions at h
  split at h
  · simp only [except_bind_eq_ok, checkedDimension_eq_ok] at h
    obtain ⟨-, -, first, ⟨-, rfl⟩, second, ⟨-, rfl⟩, h⟩ := h
    obtain rfl := Except.ok.inj h
    rfl
  · simp only [except_bind_eq_ok, checkedDimension_eq_ok] at h
    obtain ⟨first, ⟨-, rfl⟩, second, ⟨-, rfl⟩, h⟩ := h
    obtain rfl := Except.ok.inj h
    rfl
  · cases h

/-! ## Transposed matrices -/

section Matrix

variable {F : Type} [Zero F] {output : ElementSpan F} {shape : List Int64}
  {layout : CandidateLayout}

/-- The matrix of the other elements, in the other layout. -/
def transposedMatrix (matrix : OutputMatrix F) (output : ElementSpan F) : OutputMatrix F :=
  ⟨matrix.features, matrix.candidates, matrix.layout.other, output⟩

theorem resolveMatrix_transpose {matrix' : OutputMatrix F} :
    resolveMatrix (output.transpose shape) (transposedShape shape) layout.other = .ok matrix' ↔
      ∃ matrix, resolveMatrix output shape layout = .ok matrix ∧
        matrix' = transposedMatrix matrix (output.transpose shape) := by
  have hlength : (output.transpose shape).elements.length = output.elements.length :=
    length_transposeElements _ _
  simp only [resolveMatrix_eq_ok, hlength]
  constructor
  · rintro ⟨⟨second, first⟩, hdimensions, hsize, rfl⟩
    refine ⟨_, ⟨(first, second), checkedDimensions_transposedShape.mp hdimensions,
      (Nat.mul_comm _ _).trans hsize, rfl⟩, ?_⟩
    cases layout <;> rfl
  · rintro ⟨_, ⟨⟨first, second⟩, hdimensions, hsize, rfl⟩, rfl⟩
    refine ⟨(second, first), checkedDimensions_transposedShape.mpr hdimensions,
      (Nat.mul_comm _ _).trans hsize, ?_⟩
    cases layout <;> rfl

/-- **A transposed tensor has the same elements.** -/
theorem cell_transpose {matrix : OutputMatrix F}
    (h : resolveMatrix output shape layout = .ok matrix) :
    (transposedMatrix matrix (output.transpose shape)).cell = matrix.cell := by
  obtain ⟨dimensions, hdimensions, hsize, rfl⟩ := resolveMatrix_eq_ok.mp h
  have helements : (output.transpose shape).elements =
      transposeElements (dimensions.1.toNat, dimensions.2.toNat) output.elements :=
    congrArg (transposeElements · output.elements) (matrixExtents_of_checkedDimensions hdimensions)
  funext feature candidate
  cases layout with
  | featuresFirst =>
    dsimp only [OutputMatrix.cell, OutputMatrix.exactIndex, transposedMatrix,
      CandidateLayout.other]
    rw [helements]
    exact ite_congr rfl (fun hlt => getElem?_transposeElements hsize.symm hlt.1 hlt.2) fun _ => rfl
  | candidatesFirst =>
    dsimp only [OutputMatrix.cell, OutputMatrix.exactIndex, transposedMatrix,
      CandidateLayout.other]
    rw [helements]
    exact ite_congr rfl (fun hlt => getElem?_transposeElements hsize.symm hlt.2 hlt.1) fun _ => rfl

end Matrix

/-! ## Permuted candidates -/

section Permuted

variable {F : Type} {output output' : ElementSpan F} {matrix : OutputMatrix F}
  {σ : Equiv.Perm (Fin matrix.candidates.toNat)}

/-- The elements of one matrix are those of the other, with the candidates permuted. -/
def PermutesCandidates (matrix : OutputMatrix F) (output output' : ElementSpan F)
    (σ : Equiv.Perm (Fin matrix.candidates.toNat)) : Prop :=
  output'.elements.length = output.elements.length ∧
    ∀ feature < matrix.features.toNat, ∀ candidate : Fin matrix.candidates.toNat,
      output'.elements[matrix.exactIndex feature candidate]? =
        output.elements[matrix.exactIndex feature (σ candidate)]?

/-- The permuted tensor has the matrix of its elements. -/
theorem PermutesCandidates.resolveMatrix_eq (h : PermutesCandidates matrix output output' σ)
    {shape : List Int64} {layout : CandidateLayout}
    (hresolved : resolveMatrix output shape layout = .ok matrix) :
    resolveMatrix output' shape layout = .ok { matrix with data := output' } := by
  obtain ⟨dimensions, hdimensions, hsize, heq⟩ := resolveMatrix_eq_ok.mp hresolved
  refine resolveMatrix_eq_ok.mpr ⟨dimensions, hdimensions, hsize.trans h.1.symm, ?_⟩
  rw [heq]
  cases layout <;> rfl

theorem PermutesCandidates.cell_eq [Zero F] (h : PermutesCandidates matrix output output' σ)
    (hdata : matrix.data = output) (feature : ℕ) (candidate : Fin matrix.candidates.toNat) :
    ({ matrix with data := output' } : OutputMatrix F).cell feature candidate =
      matrix.cell feature (σ candidate) := by
  unfold OutputMatrix.cell
  by_cases hlt : feature < matrix.features.toNat
  · rw [if_pos ⟨hlt, candidate.isLt⟩, if_pos ⟨hlt, (σ candidate).isLt⟩, hdata]
    exact congrArg (Option.getD · 0) (h.2 feature hlt candidate)
  · rw [if_neg fun h => hlt h.1, if_neg fun h => hlt h.1]

end Permuted

/-! ## Transposed runs -/

section Parse

variable {F : Type} [Scalar F]

/-- The parser of the same specification with another layout. -/
def withLayout (parser : YoloPoseOutputParser F) (layout : CandidateLayout) :
    YoloPoseOutputParser F :=
  ⟨{ parser.spec with layout }, parser.accepted⟩

/-- **What a parser returns**, if it returns. -/
theorem returned_parse_iff {parser : YoloPoseOutputParser F} {output : ElementSpan F}
    {shape : List Int64} {letterbox : LetterboxMetadata F} {detections : List (Detection F)} :
    (parser.parse output shape letterbox).returned? [] = some detections ↔
      (output.elements = [] ∧ detections = []) ∨
        (isValidLetterbox letterbox = true ∧ ∃ matrix, PassesChecks parser output shape matrix ∧
          detections = (selectedRows parser.spec letterbox matrix.candidates.toNat
            matrix.cell).map RankedDetection.detection) := by
  constructor
  · intro h
    obtain ⟨log, hrun⟩ := Program.returned?_eq_some.mp h
    unfold parse at hrun
    split at hrun
    · rename_i hempty
      cases hrun
      exact Or.inl ⟨List.isEmpty_iff.mp hempty, rfl⟩
    · simp only [Program.bind_eq_ok, Program.ofExcept_eq_ok, require_eq_ok, Bool.not_eq_true',
        decide_eq_false_iff_not, UInt64.not_lt] at hrun
      obtain ⟨-, -, ⟨hletterbox, -⟩, matrix, -, ⟨hresolved, -⟩, required, -, ⟨hrequired, -⟩, -, -,
        ⟨hle, -⟩, -⟩ := hrun
      have hchecks := passesChecks hresolved hrequired hle
      rw [(yields_parse hchecks hletterbox).returned] at h
      exact Or.inr ⟨hletterbox, matrix, hchecks, (Option.some.inj h).symm⟩
  · rintro (⟨hempty, rfl⟩ | ⟨hletterbox, matrix, hchecks, rfl⟩)
    · rw [parse, hempty]
      rfl
    · exact (yields_parse hchecks hletterbox).returned []

/-- **Transposing a tensor and the layout changes nothing.** -/
theorem parse_transpose (parser : YoloPoseOutputParser F) (output : ElementSpan F)
    (shape : List Int64) (letterbox : LetterboxMetadata F) :
    ((parser.withLayout parser.spec.layout.other).parse (output.transpose shape)
      (transposedShape shape) letterbox).returned? [] =
      (parser.parse output shape letterbox).returned? [] := by
  have hempty : (output.transpose shape).elements = [] ↔ output.elements = [] := by
    rw [← List.length_eq_zero_iff, ← List.length_eq_zero_iff]
    exact Eq.congr_left (length_transposeElements _ _)
  refine Option.ext fun detections => ?_
  rw [returned_parse_iff, returned_parse_iff, hempty]
  refine or_congr_right (and_congr_right fun _ => ?_)
  constructor
  · rintro ⟨matrix', hchecks, rfl⟩
    obtain ⟨matrix, hresolved, rfl⟩ := resolveMatrix_transpose.mp hchecks.resolved
    exact ⟨matrix, ⟨hresolved, hchecks.features⟩, by rw [cell_transpose hresolved]; rfl⟩
  · rintro ⟨matrix, hchecks, rfl⟩
    have hcell := cell_transpose hchecks.resolved
    exact ⟨_, ⟨resolveMatrix_transpose.mpr ⟨matrix, hchecks.resolved, rfl⟩, hchecks.features⟩,
      by rw [hcell]; rfl⟩

/-! ## Distinct confidences -/

/-- No two candidates that are decoded have the same confidence. -/
def DistinctConfidences (spec : YoloPoseOutputSpec F) (letterbox : LetterboxMetadata F)
    (matrix : OutputMatrix F) : Prop :=
  (decodedRows spec letterbox matrix.candidates.toNat matrix.cell).Pairwise fun a b =>
    (a.detection.confidence == b.detection.confidence) = false

/-- A detection overlaps one that was kept. -/
def overlappingDetections (spec : YoloPoseOutputSpec F) (candidate accepted : Detection F) : Bool :=
  decide (spec.nmsIouThreshold < intersectionOverUnion candidate.bbox accepted.bbox)

section Permutation

variable [ProbabilityScalar F] {spec : YoloPoseOutputSpec F} {letterbox : LetterboxMetadata F}
  {n : ℕ} {cells cells' : ℕ → ℕ → F}

/-- The confidences of what is decoded differ, as keys. -/
theorem pairwise_key_ne {key : F → ℚ} (hkey : Scalar.IsKey key)
    (hdistinct : (decodedRows spec letterbox n cells).Pairwise fun a b =>
      (a.detection.confidence == b.detection.confidence) = false) :
    ((decodedRows spec letterbox n cells).map RankedDetection.detection).Pairwise fun a b =>
      key a.confidence ≠ key b.confidence := by
  refine List.pairwise_map.mpr (hdistinct.imp_of_mem fun {a b} ha hb hne heq => ?_)
  rw [(hkey.beq_iff (Scalar.isFinite_of_isProbability (isProbability_of_mem ha))
    (Scalar.isFinite_of_isProbability (isProbability_of_mem hb))).mpr heq] at hne
  cases hne

/-- The sorted detections, when their confidences differ: the candidates are not looked at. -/
theorem map_sorted {key : F → ℚ} (hkey : Scalar.IsKey key)
    (hdistinct : ((decodedRows spec letterbox n cells).map RankedDetection.detection).Pairwise
      fun a b => key a.confidence ≠ key b.confidence) :
    (stableSort rankedBefore (decodedRows spec letterbox n cells)).map RankedDetection.detection =
      stableSort (fun a b => decide (OrderDual.toDual (key a.confidence) <
          OrderDual.toDual (key b.confidence)))
        ((decodedRows spec letterbox n cells).map RankedDetection.detection) := by
  have hsymm : Std.Symm fun a b : RankedDetection F =>
      key a.detection.confidence ≠ key b.detection.confidence := ⟨fun _ _ h => h.symm⟩
  refine map_stableSort fun a ha b hb => ?_
  have hafinite := Scalar.isFinite_of_isProbability (isProbability_of_mem ha)
  have hbfinite := Scalar.isFinite_of_isProbability (isProbability_of_mem hb)
  rw [Bool.eq_iff_iff, decide_eq_true_eq, rankedBefore_iff hkey hafinite hbfinite, rankKey, rankKey,
    Prod.Lex.toLex_lt_toLex]
  constructor
  · rintro (hlt | ⟨heq, hlt⟩)
    · exact hlt
    · have hab : a ≠ b := fun h => by
        rw [h] at hlt
        exact lt_irrefl _ hlt
      exact absurd heq ((List.pairwise_map.mp hdistinct).forall ha hb hab)
  · exact Or.inl

/-- **Permuting the candidates** permutes what is decoded, and the sort forgets it. -/
theorem map_selectedRows_perm (σ : Equiv.Perm (Fin n))
    (hcells : ∀ feature, ∀ candidate : Fin n, cells' feature candidate = cells feature (σ candidate))
    (hdistinct : (decodedRows spec letterbox n cells).Pairwise fun a b =>
      (a.detection.confidence == b.detection.confidence) = false) :
    (selectedRows spec letterbox n cells').map RankedDetection.detection =
      (selectedRows spec letterbox n cells).map RankedDetection.detection := by
  obtain ⟨key, hkey⟩ := OrderedScalar.exists_key (F := F)
  have hdetections : ∀ cells : ℕ → ℕ → F,
      (decodedRows spec letterbox n cells).map RankedDetection.detection =
        (List.finRange n).filterMap fun candidate : Fin n =>
          Row.decode spec letterbox fun feature => cells feature candidate := by
    intro cells
    rw [decodedRows, List.map_filterMap, ← List.map_coe_finRange_eq_range, List.filterMap_map]
    refine List.filterMap_congr fun candidate _ => ?_
    exact (Option.map_map _ _ _).trans (congrFun Option.map_id _)
  have hperm : ((decodedRows spec letterbox n cells').map RankedDetection.detection).Perm
      ((decodedRows spec letterbox n cells).map RankedDetection.detection) := by
    rw [hdetections, hdetections]
    simp only [hcells]
    have hmap := σ.map_finRange_perm.filterMap fun candidate : Fin n =>
      Row.decode spec letterbox fun feature => cells feature candidate
    rwa [List.filterMap_map] at hmap
  have hne := pairwise_key_ne hkey hdistinct
  have hne' := (hperm.pairwise_iff fun h => h.symm).mpr hne
  have hsorted : (stableSort rankedBefore (decodedRows spec letterbox n cells')).map
      RankedDetection.detection =
        (stableSort rankedBefore (decodedRows spec letterbox n cells)).map
          RankedDetection.detection := by
    rw [map_sorted hkey hne, map_sorted hkey hne']
    refine StdSort.stable.sort_eq_of_perm
      (strictWeakOrder_key fun d : Detection F => OrderDual.toDual (key d.confidence))
      (fun a ha b hb hab hba => ?_) hperm
    by_contra hab'
    have hsymm : Std.Symm fun a b : Detection F => key a.confidence ≠ key b.confidence :=
      ⟨fun _ _ h => h.symm⟩
    refine hne'.forall ha hb hab' ?_
    exact le_antisymm (not_lt.mp (of_decide_eq_false hab)) (not_lt.mp (of_decide_eq_false hba))
  have hselected : ∀ cells : ℕ → ℕ → F,
      (selectedRows spec letterbox n cells).map RankedDetection.detection =
        suppress (overlappingDetections spec) spec.maximumDetections.toNat
          ((stableSort rankedBefore (decodedRows spec letterbox n cells)).map
            RankedDetection.detection) := by
    intro cells
    rw [selectedRows, selectCandidates, show overlapping spec = fun a b =>
      overlappingDetections spec a.detection b.detection from rfl, map_suppress]
  rw [hselected, hselected, hsorted]

end Permutation

variable [ProbabilityScalar F]

/-- **The parser does not depend on the layout**, nor on the order of candidates whose confidences
differ. -/
theorem parse_equivariant (parser : YoloPoseOutputParser F) (output : ElementSpan F)
    (shape : List Int64) (letterbox : LetterboxMetadata F) :
    ((parser.withLayout parser.spec.layout.other).parse (output.transpose shape)
      (transposedShape shape) letterbox).returned? [] =
        (parser.parse output shape letterbox).returned? [] ∧
    ∀ (output' : ElementSpan F) (matrix : OutputMatrix F)
      (σ : Equiv.Perm (Fin matrix.candidates.toNat)),
      resolveMatrix output shape parser.spec.layout = .ok matrix →
      PermutesCandidates matrix output output' σ →
      DistinctConfidences parser.spec letterbox matrix →
        (parser.parse output' shape letterbox).returned? [] =
          (parser.parse output shape letterbox).returned? [] := by
  refine ⟨parse_transpose parser output shape letterbox,
    fun output' matrix σ hresolved hpermutes hdistinct => ?_⟩
  have hempty : output'.elements = [] ↔ output.elements = [] := by
    rw [← List.length_eq_zero_iff, ← List.length_eq_zero_iff, hpermutes.1]
  have hresolved' := hpermutes.resolveMatrix_eq hresolved
  have hselected := map_selectedRows_perm σ
    (hpermutes.cell_eq (data_of_resolveMatrix hresolved).2.1) hdistinct
  refine Option.ext fun detections => ?_
  rw [returned_parse_iff, returned_parse_iff, hempty]
  refine or_congr_right (and_congr_right fun _ => ?_)
  constructor
  · rintro ⟨other, hchecks, rfl⟩
    obtain rfl := Except.ok.inj (hresolved'.symm.trans hchecks.resolved)
    exact ⟨matrix, ⟨hresolved, hchecks.features⟩, hselected⟩
  · rintro ⟨other, hchecks, rfl⟩
    obtain rfl := Except.ok.inj (hresolved.symm.trans hchecks.resolved)
    exact ⟨_, ⟨hresolved', hchecks.features⟩, hselected.symm⟩

end Parse

/-- The parser of the default specification, on `float`. -/
def floatPose : YoloPoseOutputParser Binary32 := ⟨{}, by decide +kernel⟩

/-- Two plates of one box and keypoint, with the confidences `first` and `second`. -/
def twoPlates (first second : Binary32) : ElementSpan Binary32 where
  elements := List.replicate 4 ⟨0x42480000⟩ ++ List.replicate 4 ⟨0x42A00000⟩ ++ [first, second] ++
    List.replicate 24 ⟨0x41200000⟩
  fits := by simp [sizeMax]

def twoPlatesMatrix (first second : Binary32) : OutputMatrix Binary32 :=
  ⟨17, 2, .featuresFirst, twoPlates first second⟩

theorem parse_equivariant_twoPlates :
    (floatPose.parse (twoPlates ⟨0x3F4CCCCD⟩ ⟨0x3F666666⟩) [17, 2]
      { sourceWidth := 100, sourceHeight := 100 }).returned? [] =
    (floatPose.parse (twoPlates ⟨0x3F666666⟩ ⟨0x3F4CCCCD⟩) [17, 2]
      { sourceWidth := 100, sourceHeight := 100 }).returned? [] := by
  refine (parse_equivariant floatPose (twoPlates ⟨0x3F666666⟩ ⟨0x3F4CCCCD⟩) [17, 2]
    { sourceWidth := 100, sourceHeight := 100 }).2 (twoPlates ⟨0x3F4CCCCD⟩ ⟨0x3F666666⟩)
    (twoPlatesMatrix ⟨0x3F666666⟩ ⟨0x3F4CCCCD⟩) Fin.revPerm
    (resolveMatrix_eq_ok.mpr ⟨(17, 2), by decide +kernel, by decide +kernel, rfl⟩)
    ⟨rfl, by decide +kernel⟩ ?_
  unfold DistinctConfidences
  decide +kernel

end YoloPoseOutputParser

end FacLpr
