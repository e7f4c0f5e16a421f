import FacLpr.Infrastructure.Yolo.YoloPoseOutputParser

/-!
# Infrastructure/Yolo/LetterboxInversion — the parser undoes the letterbox

The preprocessor rounds the extents of the resized image to whole pixels and the parser divides by
the scale before the rounding.  On each axis the two are within half a pixel of the input; where the
resized extent is clamped up to one pixel, it is the clamp of the parser that keeps the bound.
-/

namespace FacLpr

/-! ## One axis -/

/-- The scale fits the extent of the image into that of the input. -/
structure FitsAxis (extent limit : ℕ) (scale : ℚ) : Prop where
  extent_pos : 0 < extent
  limit_pos : 0 < limit
  scale_pos : 0 < scale
  fits : extent * scale ≤ limit

/-- The extent after scaling, in whole pixels. -/
def resizedExtent (extent limit : ℕ) (scale : ℚ) : ℕ :=
  max 1 (min (ImageArithmetic.roundWide ℚ (extent * scale)) limit)

theorem abs_roundWide_sub_le {q : ℚ} (hq : 0 ≤ q) :
    |(ImageArithmetic.roundWide ℚ q : ℚ) - q| ≤ 1 / 2 := by
  have hfloor : 0 ≤ ⌊q + 1 / 2⌋ := Int.floor_nonneg.mpr (by linarith)
  have hcast : (ImageArithmetic.roundWide ℚ q : ℚ) = ⌊q + 1 / 2⌋ := by
    have htoNat : (⌊q + 1 / 2⌋.toNat : ℤ) = ⌊q + 1 / 2⌋ := Int.toNat_of_nonneg hfloor
    exact_mod_cast htoNat
  have hlow := Int.floor_le (q + 1 / 2)
  have hhigh := Int.lt_floor_add_one (q + 1 / 2)
  rw [hcast, abs_le]
  constructor <;> linarith

theorem roundWide_natCast (n : ℕ) : ImageArithmetic.roundWide ℚ (n : ℚ) = n := by
  have hfloor : ⌊(n : ℚ) + 1 / 2⌋ = n := by
    rw [Int.floor_eq_iff]
    constructor
    · push_cast
      linarith
    · push_cast
      linarith
  change ⌊(n : ℚ) + 1 / 2⌋.toNat = n
  rw [hfloor, Int.toNat_natCast]

namespace FitsAxis

variable {extent limit : ℕ} {scale p : ℚ}

theorem resizedExtent_pos : 0 < resizedExtent extent limit scale :=
  lt_max_of_lt_left Nat.one_pos

theorem resizedExtent_le (h : FitsAxis extent limit scale) :
    resizedExtent extent limit scale ≤ limit :=
  max_le h.limit_pos (min_le_right _ _)

/-- An axis that the scale fills is filled to the pixel. -/
theorem resizedExtent_eq (h : FitsAxis extent limit scale) (htight : extent * scale = limit) :
    resizedExtent extent limit scale = limit := by
  unfold resizedExtent
  rw [htight, roundWide_natCast, min_self]
  exact max_eq_right h.limit_pos

theorem product_pos (h : FitsAxis extent limit scale) : 0 < extent * scale :=
  mul_pos (Nat.cast_pos.mpr h.extent_pos) h.scale_pos

/-- **The rounding**: by half a pixel, or up to the one pixel there has to be. -/
theorem abs_resizedExtent_sub_le (h : FitsAxis extent limit scale) :
    |(resizedExtent extent limit scale : ℚ) - extent * scale| ≤ 1 / 2 ∨
      resizedExtent extent limit scale = 1 ∧ extent * scale ≤ 1 / 2 := by
  have hround := abs_roundWide_sub_le h.product_pos.le
  have hle : ImageArithmetic.roundWide ℚ (extent * scale) ≤ limit := by
    have hbound := (abs_le.mp hround).2
    have hlt : (ImageArithmetic.roundWide ℚ (extent * scale) : ℚ) < (limit + 1 : ℕ) := by
      push_cast
      linarith [h.fits]
    exact Nat.lt_succ_iff.mp (Nat.cast_lt.mp hlt)
  unfold resizedExtent
  rw [min_eq_left hle]
  rcases Nat.eq_zero_or_pos (ImageArithmetic.roundWide ℚ (extent * scale)) with hzero | hpos
  · refine Or.inr ⟨by rw [hzero]; rfl, ?_⟩
    rw [hzero, Nat.cast_zero, zero_sub, abs_neg, abs_of_pos h.product_pos] at hround
    exact hround
  · rw [max_eq_right hpos]
    exact Or.inl hround

/-- **Into the letterbox and back**, on one axis. -/
theorem abs_clamp_sub_le (h : FitsAxis extent limit scale) (hp : 0 ≤ p) (hle : p ≤ extent) :
    |Scalar.clamp (p * resizedExtent extent limit scale / extent / scale) 0 (extent : ℚ) - p| ≤
      1 / 2 / scale := by
  have hextent : (0 : ℚ) < extent := Nat.cast_pos.mpr h.extent_pos
  rcases h.abs_resizedExtent_sub_le with hround | ⟨hone, hsmall⟩
  · refine (Scalar.abs_clamp_sub_le hp hle).trans ?_
    -- the error of the rounding, scaled back
    have herror : p * resizedExtent extent limit scale / extent / scale - p =
        p / extent * ((resizedExtent extent limit scale - extent * scale) / scale) := by
      have hscale := h.scale_pos.ne'
      field_simp
    rw [herror, abs_mul, abs_div _ scale, abs_of_pos h.scale_pos,
      abs_of_nonneg (div_nonneg hp hextent.le)]
    calc p / extent * (|(resizedExtent extent limit scale : ℚ) - extent * scale| / scale)
        ≤ 1 * (1 / 2 / scale) := by
          refine mul_le_mul ((div_le_one hextent).mpr hle) ?_ ?_ zero_le_one
          · exact div_le_div_of_nonneg_right hround h.scale_pos.le
          · exact div_nonneg (abs_nonneg _) h.scale_pos.le
      _ = 1 / 2 / scale := one_mul _
  · -- The whole image is within the bound, and the clamp stays in the image.
    obtain ⟨hlow, hhigh⟩ := Scalar.clamp_mem (v := p * resizedExtent extent limit scale / extent / scale)
      hextent.le
    have hwhole : (extent : ℚ) ≤ 1 / 2 / scale := (le_div_iff₀ h.scale_pos).mpr hsmall
    rw [abs_le]
    constructor <;> linarith

end FitsAxis

/-! ## The letterbox -/

namespace YoloPosePreprocessor

open YoloPoseOutputParser

/-- The scale of the letterbox. -/
def letterboxScale (image : ImageView) (spec : YoloInputSpec ℚ) : ℚ :=
  min ((spec.width : ℚ) / image.width) ((spec.height : ℚ) / image.height)

variable {spec : YoloInputSpec ℚ} {image : ImageView}

/-- What the constructor and the check of the image leave: nothing is empty. -/
structure Fits (spec : YoloInputSpec ℚ) (image : ImageView) : Prop where
  input : 0 < spec.width ∧ 0 < spec.height
  image : 0 < image.width ∧ 0 < image.height

namespace Fits

theorem scale_pos (h : Fits spec image) : 0 < letterboxScale image spec :=
  lt_min (div_pos (Nat.cast_pos.mpr h.input.1) (Nat.cast_pos.mpr h.image.1))
    (div_pos (Nat.cast_pos.mpr h.input.2) (Nat.cast_pos.mpr h.image.2))

theorem horizontal (h : Fits spec image) :
    FitsAxis image.width spec.width (letterboxScale image spec) where
  extent_pos := h.image.1
  limit_pos := h.input.1
  scale_pos := h.scale_pos
  fits := (le_div_iff₀' (Nat.cast_pos.mpr h.image.1)).mp (min_le_left _ _)

theorem vertical (h : Fits spec image) :
    FitsAxis image.height spec.height (letterboxScale image spec) where
  extent_pos := h.image.2
  limit_pos := h.input.2
  scale_pos := h.scale_pos
  fits := (le_div_iff₀' (Nat.cast_pos.mpr h.image.2)).mp (min_le_right _ _)

end Fits

/-- The metadata, axis by axis. -/
def letterboxMetadata (image : ImageView) (spec : YoloInputSpec ℚ) : LetterboxMetadata ℚ :=
  let resizedWidth := resizedExtent image.width spec.width (letterboxScale image spec)
  let resizedHeight := resizedExtent image.height spec.height (letterboxScale image spec)
  { sourceWidth := image.width
    sourceHeight := image.height
    inputWidth := spec.width
    inputHeight := spec.height
    scale := letterboxScale image spec
    padLeft := (spec.width - resizedWidth) / 2
    padTop := (spec.height - resizedHeight) / 2
    resizedWidth
    resizedHeight }

theorem makeLetterboxMetadata_rat (h : Fits spec image) :
    makeLetterboxMetadata ℚ image spec = .ok (letterboxMetadata image spec) := by
  have hscale : Scalar.min ((spec.width : ℚ) / image.width) ((spec.height : ℚ) / image.height) =
      letterboxScale image spec := Scalar.min_rat _ _
  have hpos : decide (letterboxScale image spec ≤ 0) = false :=
    decide_eq_false (not_le.mpr h.scale_pos)
  unfold makeLetterboxMetadata
  simp only [Scalar.ofRat_rat, hscale, Scalar.isFinite_rat, hpos]
  rfl

/-- The stores of a sample of the image are in the tensor. -/
theorem lt_of_mem_sampleStores {sample : RgbSample ℚ} {index : ℕ} {store : ℕ × ℚ}
    (hindex : index < spec.width * spec.height) (h : store ∈ sampleStores spec sample index) :
    store.1 < spec.width * spec.height * 3 := by
  simp only [sampleStores, List.mem_cons, List.not_mem_nil, or_false] at h
  rcases h with rfl | rfl | rfl <;> omega

/-- A pixel of the resized image is one of the input. -/
theorem outputIndex_lt (h : Fits spec image) {x y : ℕ}
    (hx : x < (letterboxMetadata image spec).resizedWidth)
    (hy : y < (letterboxMetadata image spec).resizedHeight) :
    ((letterboxMetadata image spec).padTop + y) * spec.width +
      ((letterboxMetadata image spec).padLeft + x) < spec.width * spec.height := by
  have hwidth : (letterboxMetadata image spec).resizedWidth ≤ spec.width :=
    h.horizontal.resizedExtent_le
  have hheight : (letterboxMetadata image spec).resizedHeight ≤ spec.height :=
    h.vertical.resizedExtent_le
  have hleft : (letterboxMetadata image spec).padLeft =
      (spec.width - (letterboxMetadata image spec).resizedWidth) / 2 := rfl
  have htop : (letterboxMetadata image spec).padTop =
      (spec.height - (letterboxMetadata image spec).resizedHeight) / 2 := rfl
  have hcolumn : (letterboxMetadata image spec).padLeft + x < spec.width := by omega
  have hrow : (letterboxMetadata image spec).padTop + y + 1 ≤ spec.height := by omega
  calc ((letterboxMetadata image spec).padTop + y) * spec.width +
        ((letterboxMetadata image spec).padLeft + x)
      < ((letterboxMetadata image spec).padTop + y) * spec.width + spec.width :=
        Nat.add_lt_add_left hcolumn _
    _ = ((letterboxMetadata image spec).padTop + y + 1) * spec.width := (Nat.succ_mul _ _).symm
    _ ≤ spec.height * spec.width := Nat.mul_le_mul_right _ hrow
    _ = spec.width * spec.height := Nat.mul_comm _ _

theorem lt_of_mem_imageStores (h : Fits spec image) {store : ℕ × ℚ}
    (hstore : store ∈ imageStores ℚ spec image (letterboxMetadata image spec)) :
    store.1 < spec.width * spec.height * 3 := by
  unfold imageStores at hstore
  obtain ⟨y, hy, hstore⟩ := List.mem_flatMap.mp hstore
  obtain ⟨x, hx, hstore⟩ := List.mem_flatMap.mp hstore
  exact lt_of_mem_sampleStores
    (outputIndex_lt h (List.mem_range.mp hx) (List.mem_range.mp hy)) hstore

/-- The tight axis is filled. -/
theorem resizedWidth_eq (h : Fits spec image)
    (htight : (spec.width : ℚ) / image.width ≤ spec.height / image.height) :
    (letterboxMetadata image spec).resizedWidth = spec.width := by
  refine h.horizontal.resizedExtent_eq ?_
  rw [letterboxScale, min_eq_left htight]
  exact mul_div_cancel₀ _ (Nat.cast_ne_zero.mpr h.image.1.ne')

theorem resizedHeight_eq (h : Fits spec image)
    (htight : (spec.height : ℚ) / image.height ≤ spec.width / image.width) :
    (letterboxMetadata image spec).resizedHeight = spec.height := by
  refine h.vertical.resizedExtent_eq ?_
  rw [letterboxScale, min_eq_right htight]
  exact mul_div_cancel₀ _ (Nat.cast_ne_zero.mpr h.image.2.ne')

theorem sourceX_letterbox (px : ℚ) :
    sourceX ((letterboxMetadata image spec).padLeft +
        px * (letterboxMetadata image spec).resizedWidth / image.width)
        (letterboxMetadata image spec) =
      Scalar.clamp (px * resizedExtent image.width spec.width (letterboxScale image spec) /
        image.width / letterboxScale image spec) 0 image.width := by
  have hpad : ((letterboxMetadata image spec).padLeft : ℚ) +
      px * (letterboxMetadata image spec).resizedWidth / image.width -
        (letterboxMetadata image spec).padLeft =
      px * (letterboxMetadata image spec).resizedWidth / image.width := add_sub_cancel_left _ _
  unfold sourceX YoloPoseOutputParser.sourceCoordinate
  rw [Scalar.ofRat_rat, hpad]
  rfl

theorem sourceY_letterbox (py : ℚ) :
    sourceY ((letterboxMetadata image spec).padTop +
        py * (letterboxMetadata image spec).resizedHeight / image.height)
        (letterboxMetadata image spec) =
      Scalar.clamp (py * resizedExtent image.height spec.height (letterboxScale image spec) /
        image.height / letterboxScale image spec) 0 image.height := by
  have hpad : ((letterboxMetadata image spec).padTop : ℚ) +
      py * (letterboxMetadata image spec).resizedHeight / image.height -
        (letterboxMetadata image spec).padTop =
      py * (letterboxMetadata image spec).resizedHeight / image.height := add_sub_cancel_left _ _
  unfold sourceY YoloPoseOutputParser.sourceCoordinate
  rw [Scalar.ofRat_rat, hpad]
  rfl

theorem spec_elements (preprocessor : YoloPosePreprocessor ℚ) :
    preprocessor.tensorElements = preprocessor.spec.width * preprocessor.spec.height * 3 := by
  have haccepted := preprocessor.accepted
  simp only [YoloInputSpec.checkedTensorSize, except_bind_eq_ok, require_eq_ok,
    decide_eq_true_eq] at haccepted
  obtain ⟨-, ⟨-, -, hchannels⟩, -, -, -, -, -, -, helements⟩ := haccepted
  rw [← Except.ok.inj helements, hchannels]

/-- **The letterbox is inverted**: the resized image fits the input and fills its tight axis, every
store is in the tensor, and a point of the image comes back to within half a pixel of the input. -/
theorem letterbox_inverted (preprocessor : YoloPosePreprocessor ℚ) {image : ImageView}
    {limits : ImageLimits} {validated : ValidatedImage}
    (h : validateImage image limits = .ok validated) :
    ∃ metadata, makeLetterboxMetadata ℚ validated.view preprocessor.spec = .ok metadata ∧
      (1 ≤ metadata.resizedWidth ∧ metadata.resizedWidth ≤ preprocessor.spec.width) ∧
      (1 ≤ metadata.resizedHeight ∧ metadata.resizedHeight ≤ preprocessor.spec.height) ∧
      ((preprocessor.spec.width : ℚ) / image.width ≤ preprocessor.spec.height / image.height →
        metadata.resizedWidth = preprocessor.spec.width) ∧
      ((preprocessor.spec.height : ℚ) / image.height ≤ preprocessor.spec.width / image.width →
        metadata.resizedHeight = preprocessor.spec.height) ∧
      (∀ store ∈ imageStores ℚ preprocessor.spec validated.view metadata,
        store.1 < preprocessor.tensorElements) ∧
      ∀ px py : ℚ, (0 ≤ px ∧ px ≤ image.width) → (0 ≤ py ∧ py ≤ image.height) →
        |sourceX (metadata.padLeft + px * metadata.resizedWidth / image.width) metadata - px| ≤
            1 / 2 / metadata.scale ∧
          |sourceY (metadata.padTop + py * metadata.resizedHeight / image.height) metadata - py| ≤
            1 / 2 / metadata.scale := by
  obtain ⟨haccepted, hview⟩ := accepted_of_validateImage h
  have hspec := preprocessor.spec_bounds
  have hfits : Fits preprocessor.spec image :=
    ⟨⟨hspec.1.1, hspec.2.1⟩, haccepted.width.1, haccepted.height.1⟩
  rw [hview, preprocessor.spec_elements]
  refine ⟨letterboxMetadata image preprocessor.spec, makeLetterboxMetadata_rat hfits,
    ⟨FitsAxis.resizedExtent_pos, hfits.horizontal.resizedExtent_le⟩,
    ⟨FitsAxis.resizedExtent_pos, hfits.vertical.resizedExtent_le⟩, resizedWidth_eq hfits,
    resizedHeight_eq hfits, fun _ => lt_of_mem_imageStores hfits, fun px py hpx hpy => ⟨?_, ?_⟩⟩
  · rw [sourceX_letterbox]
    exact hfits.horizontal.abs_clamp_sub_le hpx.1 hpx.2
  · rw [sourceY_letterbox]
    exact hfits.vertical.abs_clamp_sub_le hpy.1 hpy.2

/-- An input of `4` by `4` pixels. -/
def fourInput : YoloPosePreprocessor ℚ := ⟨{ width := 4, height := 4 }, 48, by decide +kernel⟩

/-- A row of nine gray pixels. -/
def grayRow : ImageView := ⟨List.replicate 9 7, 9, 1, 9, .gray8⟩

/-- The row is less than half a pixel high in the input: its lower edge comes back by the clamp. -/
theorem letterbox_inverted_grayRow :
    ∃ metadata, makeLetterboxMetadata ℚ grayRow fourInput.spec = .ok metadata ∧
      metadata.resizedWidth = 4 ∧ 1 ≤ metadata.resizedHeight ∧
      |sourceY ((metadata.padTop : ℚ) + metadata.resizedHeight) metadata - 1| ≤
        1 / 2 / metadata.scale := by
  have himage : validateImage grayRow {} = .ok ⟨grayRow, 1, 9, 9⟩ := rfl
  obtain ⟨metadata, hok, -, hheight, hwidth, -, -, hpoint⟩ := letterbox_inverted fourInput himage
  refine ⟨metadata, hok, hwidth (by decide +kernel), hheight.1, ?_⟩
  have hy := (hpoint 0 1 ⟨le_rfl, Nat.cast_nonneg _⟩ ⟨zero_le_one, by decide +kernel⟩).2
  simpa [grayRow] using hy

end YoloPosePreprocessor

end FacLpr
