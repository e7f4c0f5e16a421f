import FacLpr.Foundations.ReadLogs
import FacLpr.Infrastructure.Yolo.YoloPoseOutputParser

/-!
# Infrastructure/Yolo/DecodedCandidates — what the parser decodes, without its indices

The features of a candidate are a row, and what is decoded of it is a function of the row
(`Row.decode`).  Where the shape of a tensor is its size and the features of a specification fit,
no index wraps or leaves the tensor, so the decoding loop reads the rows of the matrix and nothing
else (`yields_decodeCandidates`).
-/

namespace FacLpr

/-! ## The elements of a matrix -/

namespace OutputMatrix

variable {F : Type}

/-- Where an element lies. -/
def exactIndex (matrix : OutputMatrix F) (feature candidate : ℕ) : ℕ :=
  match matrix.layout with
  | .featuresFirst => feature * matrix.candidates.toNat + candidate
  | .candidatesFirst => candidate * matrix.features.toNat + feature

/-- An element; there is none outside the matrix. -/
def cell [Zero F] (matrix : OutputMatrix F) (feature candidate : ℕ) : F :=
  if feature < matrix.features.toNat ∧ candidate < matrix.candidates.toNat then
    matrix.data.elements[matrix.exactIndex feature candidate]?.getD 0
  else 0

/-- There is an element for every feature of every candidate. -/
def WellSized (matrix : OutputMatrix F) : Prop :=
  matrix.features.toNat * matrix.candidates.toNat = matrix.data.elements.length

/-- The read is of an element of the matrix, where it lies in the data. -/
structure InBounds (matrix : OutputMatrix F) (read : ElementRead) : Prop where
  feature_lt : read.feature.toNat < matrix.features.toNat
  candidate_lt : read.candidate.toNat < matrix.candidates.toNat
  index_eq : read.index.toNat = matrix.exactIndex read.feature.toNat read.candidate.toNat
  index_lt : read.index.toNat < matrix.data.elements.length

/-- A row-major index is below the product of the extents. -/
theorem mul_add_lt_mul {i j m n : ℕ} (hi : i < m) (hj : j < n) : i * n + j < m * n :=
  calc i * n + j < i * n + n := Nat.add_lt_add_left hj _
    _ = (i + 1) * n := (Nat.succ_mul i n).symm
    _ ≤ m * n := Nat.mul_le_mul_right n hi

theorem WellSized.exactIndex_lt {matrix : OutputMatrix F} (h : matrix.WellSized)
    {feature candidate : ℕ} (hfeature : feature < matrix.features.toNat)
    (hcandidate : candidate < matrix.candidates.toNat) :
    matrix.exactIndex feature candidate < matrix.data.elements.length := by
  rw [← h]
  unfold exactIndex
  split
  · exact mul_add_lt_mul hfeature hcandidate
  · rw [Nat.mul_comm matrix.features.toNat]
    exact mul_add_lt_mul hcandidate hfeature

/-- **The index of an element does not wrap.** -/
theorem WellSized.toNat_index [Zero F] {matrix : OutputMatrix F} (h : matrix.WellSized)
    {feature candidate : UInt64} (hfeature : feature.toNat < matrix.features.toNat)
    (hcandidate : candidate.toNat < matrix.candidates.toNat) :
    (matrix.index feature candidate).toNat =
      matrix.exactIndex feature.toNat candidate.toNat := by
  have hlt := h.exactIndex_lt hfeature hcandidate
  have hfits := matrix.data.fits
  unfold exactIndex at hlt ⊢
  unfold index
  cases hlayout : matrix.layout with
  | featuresFirst =>
    simp only [hlayout] at hlt ⊢
    have hmul : (feature * matrix.candidates).toNat =
        feature.toNat * matrix.candidates.toNat := toNat_mul_of_le (by omega)
    rw [toNat_add_of_le (by rw [hmul]; omega), hmul]
  | candidatesFirst =>
    simp only [hlayout] at hlt ⊢
    have hmul : (candidate * matrix.features).toNat =
        candidate.toNat * matrix.features.toNat := toNat_mul_of_le (by omega)
    rw [toNat_add_of_le (by rw [hmul]; omega), hmul]

/-- **An access with a feature and a candidate of the matrix** reads their element. -/
theorem WellSized.yields_at [Zero F] {matrix : OutputMatrix F} (h : matrix.WellSized)
    {feature candidate : UInt64} (hfeature : feature.toNat < matrix.features.toNat)
    (hcandidate : candidate.toNat < matrix.candidates.toNat) :
    Program.Yields matrix.InBounds (matrix.at feature candidate)
      (matrix.cell feature.toNat candidate.toNat) := by
  have hindex := h.toNat_index hfeature hcandidate
  have hbounds : ¬ (matrix.features ≤ feature ∨ matrix.candidates ≤ candidate) := by
    rw [UInt64.le_iff_toNat_le, UInt64.le_iff_toNat_le]
    omega
  rw [«at», if_neg hbounds, cell, if_pos ⟨hfeature, hcandidate⟩, ← hindex]
  exact Program.yields_log ⟨hfeature, hcandidate, hindex,
    hindex ▸ h.exactIndex_lt hfeature hcandidate⟩ _

end OutputMatrix

namespace YoloPoseOutputParser

variable {F : Type}

/-! ## The shape -/

theorem toNat_ne_zero_of_checkedDimension {value : Int64} {field : String} {dimension : UInt64}
    (h : checkedDimension value field = .ok dimension) : dimension.toNat ≠ 0 := by
  simp only [checkedDimension, except_bind_eq_ok, require_eq_ok, Bool.not_eq_true',
    decide_eq_false_iff_not] at h
  obtain ⟨-, hpos, -, -, h⟩ := h
  obtain rfl := Except.ok.inj h
  have hlt := Int64.lt_iff_toInt_lt.mp (Int64.not_le.mp hpos)
  rw [Int64.toNat_toUInt64_of_le (Int64.le_of_lt (Int64.not_le.mp hpos)), Int64.toNatClampNeg]
  simp only [Int64.toInt_zero] at hlt
  omega

theorem ne_zero_of_checkedDimensions {shape : List Int64} {dimensions : UInt64 × UInt64}
    (h : checkedDimensions shape = .ok dimensions) :
    dimensions.1.toNat ≠ 0 ∧ dimensions.2.toNat ≠ 0 := by
  unfold checkedDimensions at h
  split at h
  · simp only [except_bind_eq_ok] at h
    obtain ⟨-, -, first, hfirst, second, hsecond, h⟩ := h
    obtain rfl := Except.ok.inj h
    exact ⟨toNat_ne_zero_of_checkedDimension hfirst, toNat_ne_zero_of_checkedDimension hsecond⟩
  · simp only [except_bind_eq_ok] at h
    obtain ⟨first, hfirst, second, hsecond, h⟩ := h
    obtain rfl := Except.ok.inj h
    exact ⟨toNat_ne_zero_of_checkedDimension hfirst, toNat_ne_zero_of_checkedDimension hsecond⟩
  · cases h

/-- **A matrix has the size of its shape.** -/
theorem resolveMatrix_eq_ok {output : ElementSpan F} {shape : List Int64}
    {layout : CandidateLayout} {matrix : OutputMatrix F} :
    resolveMatrix output shape layout = .ok matrix ↔
      ∃ dimensions, checkedDimensions shape = .ok dimensions ∧
        dimensions.1.toNat * dimensions.2.toNat = output.elements.length ∧
        matrix = match layout with
          | .featuresFirst => ⟨dimensions.1, dimensions.2, layout, output⟩
          | .candidatesFirst => ⟨dimensions.2, dimensions.1, layout, output⟩ := by
  have hsize : ∀ {first second : UInt64}, second.toNat ≠ 0 →
      ((!(decide (maxSize / second < first) || first * second != output.size)) = true ↔
        first.toNat * second.toNat = output.elements.length) := by
    intro first second hne
    have hle := toNat_le_sizeMax output.size
    rw [output.toNat_size] at hle
    rw [Bool.not_eq_true', Bool.or_eq_false_iff, decide_eq_false_iff_not, bne_eq_false_iff_eq,
      UInt64.lt_iff_toNat_lt, UInt64.toNat_div, toNat_maxSize, Nat.not_lt,
      Nat.le_div_iff_mul_le (Nat.pos_of_ne_zero hne), ← UInt64.toNat_inj, output.toNat_size]
    constructor
    · rintro ⟨hfits, heq⟩
      rwa [toNat_mul_of_le hfits] at heq
    · intro heq
      have hfits : first.toNat * second.toNat ≤ sizeMax := heq ▸ hle
      exact ⟨hfits, by rw [toNat_mul_of_le hfits, heq]⟩
  simp only [resolveMatrix, except_bind_eq_ok, require_eq_ok, pure, Except.pure, Except.ok.injEq]
  constructor
  · rintro ⟨dimensions, hdimensions, -, hcheck, rfl⟩
    exact ⟨dimensions, hdimensions, (hsize (ne_zero_of_checkedDimensions hdimensions).2).mp hcheck,
      rfl⟩
  · rintro ⟨dimensions, hdimensions, hcheck, rfl⟩
    exact ⟨dimensions, hdimensions, (),
      (hsize (ne_zero_of_checkedDimensions hdimensions).2).mpr hcheck, rfl⟩

/-- The matrix has the layout that was asked for, and elements of the output. -/
theorem data_of_resolveMatrix {output : ElementSpan F} {shape : List Int64}
    {layout : CandidateLayout} {matrix : OutputMatrix F}
    (h : resolveMatrix output shape layout = .ok matrix) :
    matrix.layout = layout ∧ matrix.data = output ∧ matrix.WellSized ∧ output.elements ≠ [] := by
  obtain ⟨dimensions, hdimensions, hsize, rfl⟩ := resolveMatrix_eq_ok.mp h
  obtain ⟨hfirst, hsecond⟩ := ne_zero_of_checkedDimensions hdimensions
  have hne : output.elements ≠ [] := fun hnil => by
    rw [hnil, List.length_nil] at hsize
    exact (Nat.mul_ne_zero hfirst hsecond) hsize
  cases layout with
  | featuresFirst => exact ⟨rfl, rfl, hsize, hne⟩
  | candidatesFirst => exact ⟨rfl, rfl, (Nat.mul_comm _ _).trans hsize, hne⟩

/-! ## The specification -/

variable [Scalar F]

theorem checkedAdd_eq_ok {left right sum : UInt64} {field : String} :
    checkedAdd left right field = .ok sum ↔
      left.toNat + right.toNat ≤ sizeMax ∧ left + right = sum := by
  simp [checkedAdd, except_bind_eq_ok, addOverflows_eq_false, pure, Except.pure]

theorem checkedMultiply_eq_ok {left right product : UInt64} {field : String} :
    checkedMultiply left right field = .ok product ↔
      left.toNat * right.toNat ≤ sizeMax ∧ left * right = product := by
  simp [checkedMultiply, except_bind_eq_ok, mulOverflows_eq_false, pure, Except.pure]

/-- Every feature the specification names is below the count. -/
structure FeaturesFit (spec : YoloPoseOutputSpec F) (features : ℕ) : Prop where
  box : spec.boxOffset.toNat + 4 ≤ features
  classes : spec.classScoreOffset.toNat + spec.classCount.toNat ≤ features
  keypoints : spec.keypointOffset.toNat + spec.keypointCount.toNat * spec.keypointStride.toNat ≤
    features
  objectness : ∀ offset ∈ spec.objectnessOffset, offset.toNat < features

theorem FeaturesFit.mono {spec : YoloPoseOutputSpec F} {n m : ℕ} (h : FeaturesFit spec n)
    (hle : n ≤ m) : FeaturesFit spec m where
  box := h.box.trans hle
  classes := h.classes.trans hle
  keypoints := h.keypoints.trans hle
  objectness offset hoffset := (h.objectness offset hoffset).trans_le hle

/-- **What is required is enough.** -/
theorem featuresFit_of_requiredFeatures {spec : YoloPoseOutputSpec F} {required : UInt64}
    (h : requiredFeatures spec = .ok required) : FeaturesFit spec required.toNat := by
  simp only [requiredFeatures, except_bind_eq_ok, checkedAdd_eq_ok, checkedMultiply_eq_ok] at h
  obtain ⟨box, ⟨hbox, rfl⟩, classes, ⟨hclasses, rfl⟩, span, ⟨hspan, rfl⟩, keypoints,
    ⟨hkeypoints, rfl⟩, h⟩ := h
  have hbox' := toNat_add_of_le hbox
  have hclasses' := toNat_add_of_le hclasses
  have hkeypoints' := toNat_add_of_le hkeypoints
  rw [toNat_mul_of_le hspan] at hkeypoints'
  have hmax := toNat_le_max (spec.boxOffset + 4) (spec.classScoreOffset + spec.classCount)
  set most := max (spec.boxOffset + 4) (spec.classScoreOffset + spec.classCount)
  have hmax' := toNat_le_max most
    (spec.keypointOffset + spec.keypointCount * spec.keypointStride)
  set all := max most (spec.keypointOffset + spec.keypointCount * spec.keypointStride)
  have hall : ∀ features : UInt64, all.toNat ≤ features.toNat →
      (∀ offset ∈ spec.objectnessOffset, offset.toNat < features.toNat) →
      FeaturesFit spec features.toNat := fun features hle hobjectness =>
    ⟨by rw [show (4 : UInt64).toNat = 4 from rfl] at hbox'; omega, by omega, by omega, hobjectness⟩
  cases hoffset : spec.objectnessOffset with
  | none =>
    rw [hoffset] at h
    obtain rfl := Except.ok.inj h
    exact hall all (le_refl _) fun offset ho => by rw [hoffset] at ho; cases ho
  | some offset =>
    rw [hoffset] at h
    simp only [except_bind_eq_ok, checkedAdd_eq_ok] at h
    obtain ⟨last, ⟨hlast, rfl⟩, h⟩ := h
    obtain rfl := Except.ok.inj h
    have hlast' := toNat_add_of_le hlast
    have hmax'' := toNat_le_max all (offset + 1)
    refine hall _ hmax''.1 fun offset' ho => ?_
    rw [hoffset] at ho
    cases ho
    rw [show (1 : UInt64).toNat = 1 from rfl] at hlast'
    omega

/-- What the constructor checks. -/
structure ValidSpec (spec : YoloPoseOutputSpec F) : Prop where
  keypointCount : spec.keypointCount = 4
  xOffset_lt : spec.keypointXOffset.toNat < spec.keypointStride.toNat
  yOffset_lt : spec.keypointYOffset.toNat < spec.keypointStride.toNat
  confidenceOffset_lt : ∀ offset ∈ spec.keypointConfidenceOffset,
    offset.toNat < spec.keypointStride.toNat
  confidenceThreshold : Scalar.isProbability spec.confidenceThreshold = true
  nmsIouThreshold : Scalar.isProbability spec.nmsIouThreshold = true
  maximumDetections_pos : 0 < spec.maximumDetections.toNat
  exists_required : ∃ required, requiredFeatures spec = .ok required

theorem validSpec (parser : YoloPoseOutputParser F) : ValidSpec parser.spec := by
  have h := parser.accepted
  simp only [validateSpec, except_bind_eq_ok, require_eq_ok, Bool.not_eq_true', Bool.or_eq_false_iff,
    Bool.and_eq_true, decide_eq_true_eq, decide_eq_false_iff_not, UInt64.not_le,
    UInt64.lt_iff_toNat_lt, beq_eq_false_iff_ne] at h
  obtain ⟨-, -, -, hcount, -, ⟨⟨-, hx⟩, hy⟩, -, hconfidence, -, ⟨hthreshold, hiou⟩, -, ⟨hmax, -⟩, -,
    -, required, hrequired, -⟩ := h
  refine ⟨hcount, hx, hy, fun offset ho => ?_, hthreshold, hiou,
    Nat.pos_of_ne_zero (size_ne_zero_iff.mp hmax), required, hrequired⟩
  rw [Option.mem_def.mp ho, Option.any_some, decide_eq_false_iff_not, UInt64.le_iff_toNat_le]
    at hconfidence
  omega

/-! ## Rows -/

namespace Row

variable (spec : YoloPoseOutputSpec F) (letterbox : LetterboxMetadata F) (row : ℕ → F)

def classConfidence : F :=
  (List.range spec.classCount.toNat).foldl (fun confidence classIndex =>
    Scalar.max confidence (finiteProbability (row (spec.classScoreOffset.toNat + classIndex)))) 0

def objectness : F :=
  match spec.objectnessOffset with
  | none => 1
  | some offset => finiteProbability (row offset.toNat)

def confidence : F := classConfidence spec row * objectness spec row

/-- Where the features of a keypoint start. -/
def keypointBase (point : ℕ) : ℕ :=
  spec.keypointOffset.toNat + point * spec.keypointStride.toNat

def keypointConfidence (base : ℕ) : F :=
  match spec.keypointConfidenceOffset with
  | none => confidence spec row
  | some offset => finiteProbability (row (base + offset.toNat))

def keypointStep : Option (PlateQuadrilateral F) → ℕ → Option (PlateQuadrilateral F)
  | none, _ => none
  | some quadrilateral, point =>
      let base := keypointBase spec point
      let modelX := row (base + spec.keypointXOffset.toNat)
      let modelY := row (base + spec.keypointYOffset.toNat)
      if !Scalar.isFinite modelX || !Scalar.isFinite modelY then none
      else some (storePoint quadrilateral point ⟨sourceX modelX letterbox, sourceY modelY letterbox⟩
        (keypointConfidence spec row base))

def keypoints : Option (PlateQuadrilateral F) :=
  (List.range spec.keypointCount.toNat).foldl (keypointStep spec letterbox row)
    (some ⟨fun _ => ⟨0, 0⟩, fun _ => 0⟩)

def bbox : Option (BoundingBox F) :=
  let box := spec.boxOffset.toNat
  sourceBox letterbox (row box) (row (box + 1)) (row (box + 2)) (row (box + 3))

/-- The detection of a row, if it has one. -/
def decode : Option (Detection F) :=
  if confidence spec row < spec.confidenceThreshold then none
  else (bbox spec letterbox row).map fun bbox => {
    bbox
    quadrilateral := keypoints spec letterbox row
    confidence := confidence spec row
    geometryScore := 0
    provider := spec.providerName }

end Row

/-- The detections of `n` rows, in their order. -/
def decodedRows (spec : YoloPoseOutputSpec F) (letterbox : LetterboxMetadata F) (n : ℕ)
    (cells : ℕ → ℕ → F) : List (RankedDetection F) :=
  (List.range n).filterMap fun candidate =>
    (Row.decode spec letterbox fun feature => cells feature candidate).map fun detection =>
      ⟨detection, candidate⟩

/-! ## The loops read the rows -/

/-- The specification is of the matrix: it has the features, and each of them has its element. -/
structure Describes (spec : YoloPoseOutputSpec F) (matrix : OutputMatrix F) : Prop where
  valid : ValidSpec spec
  sized : matrix.WellSized
  features : FeaturesFit spec matrix.features.toNat

/-- The row of a candidate. -/
def rowOf (matrix : OutputMatrix F) (candidate : UInt64) : ℕ → F :=
  fun feature => matrix.cell feature candidate.toNat

section Loops

variable {spec : YoloPoseOutputSpec F} {letterbox : LetterboxMetadata F} {matrix : OutputMatrix F}
  {candidate : UInt64}

theorem Describes.yields_at (h : Describes spec matrix)
    (hcandidate : candidate.toNat < matrix.candidates.toNat) {feature : UInt64} {n : ℕ}
    (hfeature : feature.toNat = n) (hn : n < matrix.features.toNat) :
    Program.Yields matrix.InBounds (matrix.at feature candidate) (rowOf matrix candidate n) := by
  subst hfeature
  exact h.sized.yields_at hn hcandidate

theorem yields_classConfidence (h : Describes spec matrix)
    (hcandidate : candidate.toNat < matrix.candidates.toNat) :
    Program.Yields matrix.InBounds (classConfidence spec matrix candidate)
      (Row.classConfidence spec (rowOf matrix candidate)) := by
  refine Program.yields_foldlM (fun classIndex hclass confidence => ?_) 0
  have hlt := List.mem_range.mp hclass
  have hclasses := h.features.classes
  have hindex := toNat_ofNat_of_lt hlt
  have hfeature : (spec.classScoreOffset + UInt64.ofNat classIndex).toNat =
      spec.classScoreOffset.toNat + classIndex := by
    have hsum : spec.classScoreOffset.toNat + (UInt64.ofNat classIndex).toNat <
        matrix.features.toNat := by omega
    rw [toNat_add_of_lt hsum, hindex]
  exact (h.yields_at hcandidate hfeature (by omega)).bind (Program.yields_pure _)

theorem yields_objectness (h : Describes spec matrix)
    (hcandidate : candidate.toNat < matrix.candidates.toNat) :
    Program.Yields matrix.InBounds (objectness spec matrix candidate)
      (Row.objectness spec (rowOf matrix candidate)) := by
  unfold objectness Row.objectness
  cases hoffset : spec.objectnessOffset with
  | none => exact Program.yields_pure 1
  | some offset =>
    exact (h.yields_at hcandidate rfl (h.features.objectness offset hoffset)).map finiteProbability

/-- The features of a keypoint are below the count of features. -/
theorem Describes.keypoint_lt (h : Describes spec matrix) {point : ℕ}
    (hpoint : point < spec.keypointCount.toNat) {offset : ℕ}
    (hoffset : offset < spec.keypointStride.toNat) :
    Row.keypointBase spec point + offset < matrix.features.toNat := by
  have hkeypoints := h.features.keypoints
  have hlt := OutputMatrix.mul_add_lt_mul hpoint hoffset
  unfold Row.keypointBase
  omega

/-- The base of a keypoint does not wrap. -/
theorem Describes.toNat_base (h : Describes spec matrix) {point : ℕ}
    (hpoint : point < spec.keypointCount.toNat) :
    (spec.keypointOffset + UInt64.ofNat point * spec.keypointStride).toNat =
      Row.keypointBase spec point := by
  have hlt := h.keypoint_lt hpoint h.valid.xOffset_lt
  have hle := toNat_le_sizeMax matrix.features
  have hpoint' := toNat_ofNat_of_lt hpoint
  unfold Row.keypointBase at hlt ⊢
  have hmul : (UInt64.ofNat point * spec.keypointStride).toNat =
      point * spec.keypointStride.toNat := by
    rw [toNat_mul_of_le (by rw [hpoint']; omega), hpoint']
  rw [toNat_add_of_le (by rw [hmul]; omega), hmul]

theorem yields_keypointStep (h : Describes spec matrix)
    (hcandidate : candidate.toNat < matrix.candidates.toNat) {point : ℕ}
    (hpoint : point < spec.keypointCount.toNat) (stored : Option (PlateQuadrilateral F)) :
    Program.Yields matrix.InBounds
      (keypointStep spec letterbox matrix candidate (Row.confidence spec (rowOf matrix candidate))
        stored point)
      (Row.keypointStep spec letterbox (rowOf matrix candidate) stored point) := by
  cases stored with
  | none => exact Program.yields_pure none
  | some quadrilateral =>
    have hbase := h.toNat_base hpoint
    have hread : ∀ {offset : UInt64}, offset.toNat < spec.keypointStride.toNat →
        Program.Yields matrix.InBounds
          (matrix.at (spec.keypointOffset + UInt64.ofNat point * spec.keypointStride + offset)
            candidate)
          (rowOf matrix candidate (Row.keypointBase spec point + offset.toNat)) := by
      intro offset hoffset
      have hlt := h.keypoint_lt hpoint hoffset
      rw [← hbase] at hlt ⊢
      exact h.yields_at hcandidate (toNat_add_of_lt hlt) hlt
    refine (hread h.valid.xOffset_lt).bind ((hread h.valid.yOffset_lt).bind ?_)
    unfold Row.keypointStep
    dsimp only
    split
    · exact Program.yields_pure none
    · refine Program.Yields.bind ?_ (Program.yields_pure _)
      unfold keypointConfidence Row.keypointConfidence
      cases hoffset : spec.keypointConfidenceOffset with
      | none => exact Program.yields_pure _
      | some offset =>
        exact (hread (h.valid.confidenceOffset_lt offset hoffset)).map finiteProbability

theorem yields_keypoints (h : Describes spec matrix)
    (hcandidate : candidate.toNat < matrix.candidates.toNat) :
    Program.Yields matrix.InBounds
      (keypoints spec letterbox matrix candidate (Row.confidence spec (rowOf matrix candidate)))
      (Row.keypoints spec letterbox (rowOf matrix candidate)) :=
  Program.yields_foldlM (fun _ hpoint stored =>
    yields_keypointStep h hcandidate (List.mem_range.mp hpoint) stored) _

/-- **A candidate is decoded from its row.** -/
theorem yields_decodeCandidate (h : Describes spec matrix)
    (hcandidate : candidate.toNat < matrix.candidates.toNat) :
    Program.Yields matrix.InBounds (decodeCandidate spec letterbox matrix candidate)
      (Row.decode spec letterbox (rowOf matrix candidate)) := by
  have hbox := h.features.box
  have hread : ∀ offset : UInt64, offset.toNat < 4 → Program.Yields matrix.InBounds
      (matrix.at (spec.boxOffset + offset) candidate)
      (rowOf matrix candidate (spec.boxOffset.toNat + offset.toNat)) := by
    intro offset hlt
    have hsum : spec.boxOffset.toNat + offset.toNat < matrix.features.toNat := by omega
    exact h.yields_at hcandidate (toNat_add_of_lt hsum) hsum
  refine (yields_classConfidence h hcandidate).bind ((yields_objectness h hcandidate).bind ?_)
  unfold Row.decode
  dsimp only
  rw [show Row.classConfidence spec (rowOf matrix candidate) *
    Row.objectness spec (rowOf matrix candidate) =
      Row.confidence spec (rowOf matrix candidate) from rfl]
  split
  · exact Program.yields_pure none
  · refine (h.yields_at hcandidate rfl (by omega)).bind ((hread 1 (by decide)).bind
      ((hread 2 (by decide)).bind ((hread 3 (by decide)).bind ?_)))
    have hbbox : sourceBox letterbox (rowOf matrix candidate spec.boxOffset.toNat)
        (rowOf matrix candidate (spec.boxOffset.toNat + UInt64.toNat 1))
        (rowOf matrix candidate (spec.boxOffset.toNat + UInt64.toNat 2))
        (rowOf matrix candidate (spec.boxOffset.toNat + UInt64.toNat 3)) =
        Row.bbox spec letterbox (rowOf matrix candidate) := rfl
    rw [hbbox]
    cases Row.bbox spec letterbox (rowOf matrix candidate) with
    | none => exact Program.yields_pure none
    | some bbox => exact (yields_keypoints h hcandidate).bind (Program.yields_pure _)

/-- **The loop decodes the rows of the matrix**, and reads nothing else. -/
theorem yields_decodeCandidates (h : Describes spec matrix) :
    Program.Yields matrix.InBounds (decodeCandidates spec letterbox matrix)
      (decodedRows spec letterbox matrix.candidates.toNat matrix.cell) := by
  unfold decodeCandidates decodedRows
  rw [List.filterMap_eq_flatMap_toList, List.flatMap_eq_foldl]
  refine Program.yields_foldlM (fun candidate hmem candidates => ?_) []
  have hlt := List.mem_range.mp hmem
  have hcandidate := toNat_ofNat_of_lt hlt
  have hrow : Program.Yields matrix.InBounds
      (decodeCandidate spec letterbox matrix (UInt64.ofNat candidate))
      (Row.decode spec letterbox fun feature => matrix.cell feature candidate) := by
    conv => enter [3, 3]; rw [← hcandidate]
    exact yields_decodeCandidate h (by rwa [hcandidate])
  exact hrow.bind (Program.yields_pure _)

end Loops

/-! ## The whole parser -/

/-- The candidates that are returned of `n` rows. -/
def selectedRows (spec : YoloPoseOutputSpec F) (letterbox : LetterboxMetadata F) (n : ℕ)
    (cells : ℕ → ℕ → F) : List (RankedDetection F) :=
  selectCandidates spec (decodedRows spec letterbox n cells)

/-- The checks of the tensor and its shape. -/
structure PassesChecks (parser : YoloPoseOutputParser F) (output : ElementSpan F)
    (shape : List Int64) (matrix : OutputMatrix F) : Prop where
  resolved : resolveMatrix output shape parser.spec.layout = .ok matrix
  features : ∀ required, requiredFeatures parser.spec = .ok required → required ≤ matrix.features

theorem passesChecks {parser : YoloPoseOutputParser F} {output : ElementSpan F}
    {shape : List Int64} {matrix : OutputMatrix F} {required : UInt64}
    (hresolved : resolveMatrix output shape parser.spec.layout = .ok matrix)
    (hrequired : requiredFeatures parser.spec = .ok required) (hle : required ≤ matrix.features) :
    PassesChecks parser output shape matrix where
  resolved := hresolved
  features required' h := by
    obtain rfl := Except.ok.inj (hrequired.symm.trans h)
    exact hle

section Parse

variable {parser : YoloPoseOutputParser F} {output : ElementSpan F} {shape : List Int64}
  {matrix : OutputMatrix F} {letterbox : LetterboxMetadata F}

theorem PassesChecks.describes (h : PassesChecks parser output shape matrix) :
    Describes parser.spec matrix := by
  have hvalid := validSpec parser
  obtain ⟨required, hrequired⟩ := hvalid.exists_required
  exact ⟨hvalid, (data_of_resolveMatrix h.resolved).2.2.1,
    (featuresFit_of_requiredFeatures hrequired).mono
      (UInt64.le_iff_toNat_le.mp (h.features required hrequired))⟩

/-- **A tensor that passes the checks is parsed from its rows.** -/
theorem yields_parse (h : PassesChecks parser output shape matrix)
    (hletterbox : isValidLetterbox letterbox = true) :
    Program.Yields matrix.InBounds (parser.parse output shape letterbox)
      ((selectedRows parser.spec letterbox matrix.candidates.toNat matrix.cell).map
        RankedDetection.detection) := by
  obtain ⟨required, hrequired⟩ := (validSpec parser).exists_required
  have hfeatures : (!decide (matrix.features < required)) = true := by
    rw [Bool.not_eq_true', decide_eq_false_iff_not, UInt64.not_lt]
    exact h.features required hrequired
  have hdecoded : Program.Yields matrix.InBounds (decodeCandidates parser.spec letterbox matrix)
      (decodedRows parser.spec letterbox matrix.candidates.toNat matrix.cell) :=
    yields_decodeCandidates h.describes
  have hne := (data_of_resolveMatrix h.resolved).2.2.2
  rw [parse, if_neg (by simpa using hne)]
  exact (Program.yields_ofExcept ((require_eq_ok (u := ())).mpr hletterbox)).bind
    ((Program.yields_ofExcept h.resolved).bind ((Program.yields_ofExcept hrequired).bind
      ((Program.yields_ofExcept ((require_eq_ok (u := ())).mpr hfeatures)).bind
        (hdecoded.bind (Program.yields_pure _)))))

/-- **Every access is in bounds** — where the tensor and its shape pass the checks, decoding reads
elements that lie in the data, at indices that did not wrap, and the accessor never throws. -/
theorem parse_inBounds (parser : YoloPoseOutputParser F) (output : ElementSpan F)
    (shape : List Int64) (matrix : OutputMatrix F) (letterbox : LetterboxMetadata F)
    (h : PassesChecks parser output shape matrix) :
    (isValidLetterbox letterbox = true → ∃ detections reads,
      parser.parse output shape letterbox [] = .ok detections reads ∧
        ∀ read ∈ reads, matrix.InBounds read ∧ read.index.toNat < output.elements.length) ∧
    (isValidLetterbox letterbox = false →
      parser.parse output shape letterbox [] =
        .error (inferenceError "YOLO letterbox metadata is invalid") []) := by
  obtain ⟨-, hdata, -, hne⟩ := data_of_resolveMatrix h.resolved
  constructor
  · intro hletterbox
    obtain ⟨reads, hrun, hgood⟩ := yields_parse h hletterbox []
    refine ⟨_, reads, hrun, fun read hread => ⟨hgood read hread, ?_⟩⟩
    rw [← hdata]
    exact (hgood read hread).index_lt
  · intro hletterbox
    rw [parse, if_neg (by simpa using hne), hletterbox]
    rfl

end Parse

/-! ## A tensor of one candidate -/

/-- The parser of the default specification. -/
def platePose : YoloPoseOutputParser ℚ := ⟨{}, by decide +kernel⟩

/-- A plate with a margin of ten in an image of a hundred pixels. -/
def plateOutput : ElementSpan ℚ :=
  ⟨[50, 50, 80, 80, 9 / 10, 10, 10, 1, 90, 10, 1, 90, 90, 1, 10, 90, 1], by decide⟩

def plateMatrix : OutputMatrix ℚ := ⟨17, 1, .featuresFirst, plateOutput⟩

theorem parse_inBounds_plate : ∃ detections reads,
    platePose.parse plateOutput [1, 17, 1] { sourceWidth := 100, sourceHeight := 100 } [] =
      .ok detections reads ∧
    ∀ read ∈ reads, plateMatrix.InBounds read ∧ read.index.toNat < 17 := by
  have hchecks : PassesChecks platePose plateOutput [1, 17, 1] plateMatrix :=
    passesChecks
      (resolveMatrix_eq_ok.mpr ⟨(17, 1), by decide +kernel, by decide +kernel, rfl⟩)
      (show requiredFeatures platePose.spec = .ok 17 by decide +kernel) (by decide +kernel)
  exact (parse_inBounds platePose plateOutput [1, 17, 1] plateMatrix
    { sourceWidth := 100, sourceHeight := 100 } hchecks).1 (by decide +kernel)

end YoloPoseOutputParser

end FacLpr
