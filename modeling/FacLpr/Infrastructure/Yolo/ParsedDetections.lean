import FacLpr.Infrastructure.Yolo.SelectedCandidates

/-!
# Infrastructure/Yolo/ParsedDetections — what the parser returns, in exact arithmetic

A tensor may hold infinities and NaN.  Whatever it holds, the letterbox takes a finite coordinate
into the image (`sourceCoordinate_exact`), and the box of a candidate is the one its four numbers
have there (`sourceBox_eq_some`).  So what is decoded lies in the image
(`insideImage_of_decode`), and what is returned is the greedy suppression of what was decoded
(`parse_suppression`).
-/

namespace FacLpr

namespace YoloPoseOutputParser

open ExactFloat

/-! ## The overlap of two boxes -/

/-- The overlap of valid boxes is the share of what they cover that they have in common. -/
theorem intersectionOverUnion_exact {left right : BoundingBox ℚ} (hleft : left.isValid = true)
    (hright : right.isValid = true) :
    intersectionOverUnion left.exact right.exact = .finite (left.overlap right) := by
  have hpos : ¬ left.unionArea right ≤ 0 := not_le.mpr (BoundingBox.unionArea_pos right hleft)
  simp only [intersectionOverUnion, BoundingBox.isValid_exact, hleft, hright,
    BoundingBox.hasFiniteEdges_exact, BoundingBox.unionArea_exact, zero_eq, finite_le, hpos,
    isFinite_finite, Bool.not_true, Bool.or_false, decide_false, Bool.false_eq_true, if_false]
  rw [← BoundingBox.unionArea_exact]
  exact BoundingBox.clamp01_exact right hleft

/-- **The overlap is finite, and the same both ways.** -/
theorem intersectionOverUnion_comm (left right : BoundingBox ExactFloat) :
    Scalar.isFinite (intersectionOverUnion left right) = true ∧
      intersectionOverUnion left right = intersectionOverUnion right left := by
  by_cases hvalid : left.isValid = true ∧ right.isValid = true
  · obtain ⟨left, rfl⟩ := BoundingBox.exists_eq_exact hvalid.1
    obtain ⟨right, rfl⟩ := BoundingBox.exists_eq_exact hvalid.2
    rw [BoundingBox.isValid_exact, BoundingBox.isValid_exact] at hvalid
    rw [intersectionOverUnion_exact hvalid.1 hvalid.2,
      intersectionOverUnion_exact hvalid.2 hvalid.1, BoundingBox.overlap_comm]
    exact ⟨rfl, rfl⟩
  · have hinvalid : (!left.isValid || !right.isValid) = true := by
      rw [← Bool.not_and, Bool.not_eq_true', ← Bool.not_eq_true, Bool.and_eq_true]
      exact hvalid
    have hinvalid' : (!right.isValid || !left.isValid) = true := by rwa [Bool.or_comm]
    unfold intersectionOverUnion
    rw [if_pos hinvalid, if_pos hinvalid']
    exact ⟨rfl, rfl⟩

/-! ## Coordinates -/

section Coordinates

variable {letterbox : LetterboxMetadata ExactFloat}

/-- A value from zero to `extent`. -/
def Within (value : ExactFloat) (extent : ℕ) : Prop :=
  0 ≤ value ∧ value ≤ (Scalar.ofRat extent : ExactFloat)

theorem within_finite {q : ℚ} {extent : ℕ} : Within (finite q) extent ↔ 0 ≤ q ∧ q ≤ extent := by
  rw [Within, zero_eq, ofRat_eq, finite_le, finite_le]

theorem exists_scale (h : isValidLetterbox letterbox = true) :
    ∃ scale, letterbox.scale = finite scale ∧ 0 < scale := by
  simp only [isValidLetterbox, Bool.not_eq_true', Bool.or_eq_false_iff, Bool.not_eq_false',
    decide_eq_false_iff_not] at h
  obtain ⟨⟨⟨hfinite, hpos⟩, -⟩, -⟩ := h
  obtain ⟨scale, hscale⟩ := isFinite_iff.mp hfinite
  rw [hscale, zero_eq, finite_le, not_le] at hpos
  exact ⟨scale, hscale, hpos⟩

/-- A coordinate of the model's input, taken to the source: the padding taken off, the scale undone,
and what is outside the image cut to it. -/
def inSource (value scale : ℚ) (pad extent : ℕ) : ℚ := 0 ⊔ ((value - pad) / scale ⊓ extent)

theorem inSource_mem (value scale : ℚ) (pad extent : ℕ) :
    0 ≤ inSource value scale pad extent ∧ inSource value scale pad extent ≤ extent :=
  ⟨le_max_left _ _, max_le (Nat.cast_nonneg extent) (min_le_right _ _)⟩

/-- **The letterbox undoes the resize**, for a finite coordinate. -/
theorem sourceCoordinate_exact {scale : ℚ} (hscale : 0 < scale) (value : ℚ) (pad extent : ℕ) :
    sourceCoordinate (finite value) pad extent (finite scale) =
      finite (inSource value scale pad extent) := by
  rw [sourceCoordinate, ofRat_eq, ofRat_eq, finite_sub, finite_div hscale.ne', zero_eq,
    finite_clamp, Scalar.clamp_rat (Nat.cast_nonneg extent), inSource]

/-- It takes a finite coordinate into the image. -/
theorem within_sourceCoordinate (h : isValidLetterbox letterbox = true) {value : ExactFloat}
    (hvalue : Scalar.isFinite value = true) (pad extent : ℕ) :
    Within (sourceCoordinate value pad extent letterbox.scale) extent := by
  obtain ⟨scale, hscale, hpos⟩ := exists_scale h
  obtain ⟨value, rfl⟩ := isFinite_iff.mp hvalue
  rw [hscale, sourceCoordinate_exact hpos]
  exact within_finite.mpr (inSource_mem value scale pad extent)

/-! ## Boxes and quadrilaterals -/

/-- The box has a positive size and lies in the image. -/
structure BoxInside (letterbox : LetterboxMetadata ExactFloat) (b : BoundingBox ExactFloat) :
    Prop where
  left : 0 ≤ b.x
  top : 0 ≤ b.y
  width : 0 < b.width
  height : 0 < b.height
  right : b.x + b.width ≤ Scalar.ofRat letterbox.sourceWidth
  bottom : b.y + b.height ≤ Scalar.ofRat letterbox.sourceHeight

def PointsInside (letterbox : LetterboxMetadata ExactFloat)
    (quadrilateral : PlateQuadrilateral ExactFloat) : Prop :=
  ∀ i, Within (quadrilateral.points i).x letterbox.sourceWidth ∧
    Within (quadrilateral.points i).y letterbox.sourceHeight

/-- The box of a candidate in the source: its edges are those of the model's input, taken there. -/
def boxInSource (letterbox : LetterboxMetadata ExactFloat) (scale cx cy width height : ℚ) :
    BoundingBox ℚ :=
  let left := inSource (cx - width / 2) scale letterbox.padLeft letterbox.sourceWidth
  let top := inSource (cy - height / 2) scale letterbox.padTop letterbox.sourceHeight
  let right := inSource (cx + width / 2) scale letterbox.padLeft letterbox.sourceWidth
  let bottom := inSource (cy + height / 2) scale letterbox.padTop letterbox.sourceHeight
  ⟨left, top, right - left, bottom - top⟩

/-- **The decoded box, written out** — a candidate has a box when its numbers are finite, its size
is positive, and something of it is left in the image. -/
theorem sourceBox_eq_some {scale : ℚ} (hscale : letterbox.scale = finite scale) (hpos : 0 < scale)
    {cx cy width height : ExactFloat} {bbox : BoundingBox ExactFloat} :
    sourceBox letterbox cx cy width height = some bbox ↔
      ∃ x y w h : ℚ, cx = finite x ∧ cy = finite y ∧ width = finite w ∧ height = finite h ∧
        0 < w ∧ 0 < h ∧ 0 < (boxInSource letterbox scale x y w h).width ∧
        0 < (boxInSource letterbox scale x y w h).height ∧
        bbox = (boxInSource letterbox scale x y w h).exact := by
  by_cases hfinite : Scalar.isFinite cx = true ∧ Scalar.isFinite cy = true ∧
      Scalar.isFinite width = true ∧ Scalar.isFinite height = true
  · obtain ⟨⟨x, rfl⟩, ⟨y, rfl⟩, ⟨w, rfl⟩, ⟨h, rfl⟩⟩ :=
      And.imp isFinite_iff.mp (And.imp isFinite_iff.mp (And.imp isFinite_iff.mp isFinite_iff.mp))
        hfinite
    have hhalf : ∀ q : ℚ, q * (1 / 2) = q / 2 := fun q => by ring
    simp only [sourceBox, sourceX, sourceY, hscale, isFinite_finite, zero_eq, finite_le, ofRat_eq,
      finite_mul, finite_sub, finite_add, hhalf, sourceCoordinate_exact hpos, boxInSource,
      BoundingBox.exact, finite.injEq]
    grind
  · have hnone : sourceBox letterbox cx cy width height = none := by
      unfold sourceBox
      rw [if_pos]
      grind
    rw [hnone]
    constructor
    · exact fun h => nomatch h
    · rintro ⟨x, y, w, h, rfl, rfl, rfl, rfl, -⟩
      exact absurd ⟨rfl, rfl, rfl, rfl⟩ hfinite

theorem boxInside_of_sourceBox (h : isValidLetterbox letterbox = true)
    {cx cy width height : ExactFloat} {bbox : BoundingBox ExactFloat}
    (hbox : sourceBox letterbox cx cy width height = some bbox) : BoxInside letterbox bbox := by
  obtain ⟨scale, hscale, hpos⟩ := exists_scale h
  obtain ⟨x, y, w, h, -, -, -, -, -, -, hwidth, hheight, rfl⟩ :=
    (sourceBox_eq_some hscale hpos).mp hbox
  have hadd : ∀ a b : ℚ, a + (b - a) = b := fun a b => by ring
  refine ⟨finite_le.mpr (inSource_mem _ _ _ _).1, finite_le.mpr (inSource_mem _ _ _ _).1,
    finite_lt.mpr hwidth, finite_lt.mpr hheight, ?_, ?_⟩
  · exact finite_le.mpr ((hadd _ _).trans_le (inSource_mem _ _ _ _).2)
  · exact finite_le.mpr ((hadd _ _).trans_le (inSource_mem _ _ _ _).2)

theorem pointsInside_keypoints (h : isValidLetterbox letterbox = true)
    (spec : YoloPoseOutputSpec ExactFloat) (row : ℕ → ExactFloat) :
    ∀ quadrilateral ∈ Row.keypoints spec letterbox row, PointsInside letterbox quadrilateral := by
  have hzero : ∀ extent : ℕ, Within 0 extent := fun extent =>
    within_finite.mpr ⟨le_refl 0, Nat.cast_nonneg extent⟩
  refine List.foldlRecOn (motive := fun stored : Option (PlateQuadrilateral ExactFloat) =>
      ∀ quadrilateral ∈ stored, PointsInside letterbox quadrilateral) _ _ ?_ ?_
  · rintro quadrilateral hq i
    obtain rfl := Option.some.inj hq
    exact ⟨hzero _, hzero _⟩
  · rintro stored hstored point - quadrilateral hq
    cases stored with
    | none => cases hq
    | some before =>
      unfold Row.keypointStep at hq
      dsimp only at hq
      split at hq
      · cases hq
      · rename_i hfinite
        rw [Bool.or_eq_true, not_or, Bool.not_eq_true', Bool.not_eq_true', Bool.not_eq_false,
          Bool.not_eq_false] at hfinite
        obtain rfl := Option.some.inj hq
        intro i
        unfold storePoint
        dsimp only
        split
        · exact ⟨within_sourceCoordinate h hfinite.1 _ _, within_sourceCoordinate h hfinite.2 _ _⟩
        · exact hstored before rfl i

/-- The detection lies in the image. -/
structure InsideImage (letterbox : LetterboxMetadata ExactFloat)
    (detection : Detection ExactFloat) : Prop where
  bbox : BoxInside letterbox detection.bbox
  points : ∀ quadrilateral ∈ detection.quadrilateral, PointsInside letterbox quadrilateral

/-- **What is decoded lies in the image.** -/
theorem insideImage_of_decode (h : isValidLetterbox letterbox = true)
    {spec : YoloPoseOutputSpec ExactFloat} {row : ℕ → ExactFloat} {detection : Detection ExactFloat}
    (hdecode : Row.decode spec letterbox row = some detection) :
    InsideImage letterbox detection := by
  obtain ⟨-, bbox, hbox, rfl⟩ := decode_eq_some.mp hdecode
  exact ⟨boxInside_of_sourceBox h hbox, pointsInside_keypoints h spec row⟩

/-- The box of what is decoded is the one the row's four numbers have in the source. -/
theorem bbox_of_decode (h : isValidLetterbox letterbox = true)
    {spec : YoloPoseOutputSpec ExactFloat} {row : ℕ → ExactFloat} {detection : Detection ExactFloat}
    (hdecode : Row.decode spec letterbox row = some detection) :
    ∃ scale x y width height : ℚ, letterbox.scale = finite scale ∧
      row spec.boxOffset.toNat = finite x ∧ row (spec.boxOffset.toNat + 1) = finite y ∧
      row (spec.boxOffset.toNat + 2) = finite width ∧
      row (spec.boxOffset.toNat + 3) = finite height ∧
      detection.bbox = (boxInSource letterbox scale x y width height).exact := by
  obtain ⟨scale, hscale, hpos⟩ := exists_scale h
  obtain ⟨-, bbox, hbox, rfl⟩ := decode_eq_some.mp hdecode
  obtain ⟨x, y, width, height, hx, hy, hwidth, hheight, -, -, -, -, hbbox⟩ :=
    (sourceBox_eq_some hscale hpos).mp hbox
  exact ⟨scale, x, y, width, height, hscale, hx, hy, hwidth, hheight, hbbox⟩

end Coordinates

/-! ## The whole parser -/

/-- The confidence of what is decoded is from the threshold to one. -/
theorem confidence_of_decode {spec : YoloPoseOutputSpec ExactFloat} (hspec : ValidSpec spec)
    {letterbox : LetterboxMetadata ExactFloat} {row : ℕ → ExactFloat}
    {detection : Detection ExactFloat}
    (hdecode : Row.decode spec letterbox row = some detection) :
    spec.confidenceThreshold ≤ detection.confidence ∧ detection.confidence ≤ 1 := by
  obtain ⟨hnot, bbox, -, rfl⟩ := decode_eq_some.mp hdecode
  have hconfidence : Scalar.isProbability (Row.confidence spec row) = true :=
    isProbability_confidence
  exact ⟨Scalar.le_of_not_lt (Scalar.isFinite_of_isProbability hspec.confidenceThreshold)
    (Scalar.isFinite_of_isProbability hconfidence) hnot,
    (ProbabilityScalar.isProbability_iff.mp hconfidence).2.2⟩

/-- **Decoding and suppression** — what is returned lies in the image, from the threshold on and in
the order of confidence, without overlaps; and what is decoded but not returned overlaps something
better that is, or came after the last detection there was room for. -/
theorem parse_suppression (parser : YoloPoseOutputParser ExactFloat)
    (output : ElementSpan ExactFloat) (shape : List Int64) (matrix : OutputMatrix ExactFloat)
    (letterbox : LetterboxMetadata ExactFloat) (h : PassesChecks parser output shape matrix)
    (hletterbox : isValidLetterbox letterbox = true) :
    ∃ kept : List (RankedDetection ExactFloat),
      (∃ reads, parser.parse output shape letterbox [] =
        .ok (kept.map RankedDetection.detection) reads) ∧
      (∀ r ∈ kept, InsideImage letterbox r.detection ∧
        parser.spec.confidenceThreshold ≤ r.detection.confidence ∧ r.detection.confidence ≤ 1 ∧
        r.sourceIndex < matrix.candidates.toNat ∧
        Row.decode parser.spec letterbox (fun feature => matrix.cell feature r.sourceIndex) =
          some r.detection) ∧
      kept.Pairwise Precedes ∧
      kept.length ≤ parser.spec.maximumDetections.toNat ∧
      (kept.Pairwise fun a b =>
        intersectionOverUnion a.detection.bbox b.detection.bbox ≤ parser.spec.nmsIouThreshold ∧
        intersectionOverUnion b.detection.bbox a.detection.bbox ≤ parser.spec.nmsIouThreshold) ∧
      ∀ candidate < matrix.candidates.toNat, ∀ detection,
        Row.decode parser.spec letterbox (fun feature => matrix.cell feature candidate) =
          some detection →
        (⟨detection, candidate⟩ : RankedDetection ExactFloat) ∈ kept ∨
        (∃ r ∈ kept, Precedes r ⟨detection, candidate⟩ ∧
          parser.spec.nmsIouThreshold <
            intersectionOverUnion detection.bbox r.detection.bbox) ∨
        (kept.length = parser.spec.maximumDetections.toNat ∧
          ∀ r ∈ kept, Precedes r ⟨detection, candidate⟩) := by
  have hspec := validSpec parser
  obtain ⟨reads, hrun, -⟩ := yields_parse h hletterbox []
  have hlength : (selectedRows parser.spec letterbox matrix.candidates.toNat matrix.cell).length ≤
      parser.spec.maximumDetections.toNat := length_suppress_le hspec.maximumDetections_pos _
  refine ⟨_, ⟨reads, hrun⟩, fun r hr => ?_, pairwise_selectedRows, hlength,
    (pairwise_suppress _).imp fun {a b} hclear => ?_, fun candidate hlt detection hdecode => ?_⟩
  · obtain ⟨hlt, hdecode⟩ := mem_decodedRows.mp (mem_decodedRows_of_selectedRows hr)
    obtain ⟨hthreshold, hone⟩ := confidence_of_decode hspec hdecode
    exact ⟨insideImage_of_decode hletterbox hdecode, hthreshold, hone, hlt, hdecode⟩
  · obtain ⟨hfinite, hcomm⟩ := intersectionOverUnion_comm b.detection.bbox a.detection.bbox
    have hle := Scalar.le_of_not_lt hfinite
      (Scalar.isFinite_of_isProbability hspec.nmsIouThreshold) (of_decide_eq_false hclear)
    exact ⟨hcomm ▸ hle, hle⟩
  · have hmem : (⟨detection, candidate⟩ : RankedDetection ExactFloat) ∈
        decodedRows parser.spec letterbox matrix.candidates.toNat matrix.cell :=
      mem_decodedRows.mpr ⟨hlt, hdecode⟩
    rcases accountedFor_selectedRows hmem with
      hkept | ⟨r, hr, hahead, hoverlap⟩ | ⟨hfull, hahead⟩
    · exact Or.inl hkept
    · exact Or.inr (Or.inl ⟨r, hr, hahead, of_decide_eq_true hoverlap⟩)
    · exact Or.inr (Or.inr ⟨le_antisymm hlength hfull, hahead⟩)

/-- The parser of the default specification. -/
def exactPose : YoloPoseOutputParser ExactFloat := ⟨{}, by decide +kernel⟩

/-- A plate, a candidate that has a box but no number for its confidence, and the plate once more,
with less confidence. -/
def partialOutput : ElementSpan ExactFloat :=
  ⟨List.replicate 6 (finite 50) ++ List.replicate 6 (finite 80) ++
    [finite (9 / 10), nan, finite (8 / 10)] ++ List.replicate 36 (finite 10), by decide⟩

def partialMatrix : OutputMatrix ExactFloat := ⟨17, 3, .featuresFirst, partialOutput⟩

theorem parse_suppression_partial : ∃ detections reads again,
    exactPose.parse partialOutput [17, 3] { sourceWidth := 100, sourceHeight := 100 } [] =
      .ok detections reads ∧
    detections.map Detection.confidence = [finite (9 / 10)] ∧
    (∀ d ∈ detections, InsideImage { sourceWidth := 100, sourceHeight := 100 } d) ∧
    Row.decode exactPose.spec { sourceWidth := 100, sourceHeight := 100 }
      (fun feature => partialMatrix.cell feature 2) = some again ∧
    ∃ d ∈ detections, exactPose.spec.nmsIouThreshold < intersectionOverUnion again.bbox d.bbox := by
  have hchecks : PassesChecks exactPose partialOutput [17, 3] partialMatrix :=
    passesChecks
      (resolveMatrix_eq_ok.mpr ⟨(17, 3), by decide +kernel, by decide +kernel, rfl⟩)
      (show requiredFeatures exactPose.spec = .ok 17 by decide +kernel) (by decide +kernel)
  obtain ⟨kept, ⟨reads, hrun⟩, hkept, -, -, -, haccounted⟩ :=
    parse_suppression exactPose partialOutput [17, 3] partialMatrix
      { sourceWidth := 100, sourceHeight := 100 } hchecks (by decide +kernel)
  have hconfidences : (kept.map RankedDetection.detection).map Detection.confidence =
      [finite (9 / 10)] := by
    have hparse : (Program.returned? (exactPose.parse partialOutput [17, 3]
        { sourceWidth := 100, sourceHeight := 100 }) []).map (List.map Detection.confidence) =
        some [finite (9 / 10)] := by decide +kernel
    rw [Program.returned?_eq_some.mpr ⟨reads, hrun⟩] at hparse
    exact Option.some.inj hparse
  obtain ⟨again, hagain, hconfidence⟩ : ∃ again, Row.decode exactPose.spec
      { sourceWidth := 100, sourceHeight := 100 } (fun feature => partialMatrix.cell feature 2) =
        some again ∧ again.confidence = finite (8 / 10) :=
    Option.map_eq_some_iff.mp (by decide +kernel)
  refine ⟨_, reads, again, hrun, hconfidences, fun d hd => ?_, hagain, ?_⟩
  · obtain ⟨r, hr, rfl⟩ := List.mem_map.mp hd
    exact (hkept r hr).1
  · -- it is not the plate, and there was room for more: the plate is what it overlaps
    rcases haccounted 2 (by decide) again hagain with hmem | ⟨r, hr, -, hoverlap⟩ | ⟨hfull, -⟩
    · have hplate := List.mem_map_of_mem (f := Detection.confidence)
        (List.mem_map_of_mem (f := RankedDetection.detection) hmem)
      rw [hconfidences, hconfidence, List.mem_singleton, finite.injEq] at hplate
      exact absurd hplate (by decide +kernel)
    · exact ⟨r.detection, List.mem_map_of_mem hr, hoverlap⟩
    · have hlength := congrArg List.length hconfidences
      rw [List.length_map, List.length_map, hfull] at hlength
      exact absurd hlength (by decide)

end YoloPoseOutputParser

end FacLpr
