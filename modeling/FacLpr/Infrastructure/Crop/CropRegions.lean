import FacLpr.Infrastructure.Crop.CropHypothesisGenerator
import FacLpr.Infrastructure.CropViews

/-!
# Infrastructure/Crop/CropRegions — the regions of a detection, in exact arithmetic

A box is padded, clamped to the source and rounded outward, and the result may be empty.  Its pixels
are those between the rounded edges (`mem_pixels_bboxRegion`), so more padding keeps every pixel
(`bboxRegion_subset`) and none leaves the source (`bboxRegion_inside`).
-/

namespace FacLpr

/-- The pixels of a region, by column and row. -/
def ImageRegion.pixels (region : ImageRegion) : Set (ℕ × ℕ) :=
  {p | (region.x ≤ p.1 ∧ p.1 < region.x + region.width) ∧
    region.y ≤ p.2 ∧ p.2 < region.y + region.height}

/-- The pixels of a view. -/
def ImageView.whole (image : ImageView) : ImageRegion := ⟨0, 0, image.width, image.height⟩

/-- The pixels of a region are those of the view, when it is inside or empty. -/
theorem ImageRegion.pixels_subset {region : ImageRegion} {image : ImageView}
    (h : region.empty = false → region.Inside image.width image.height) :
    region.pixels ⊆ image.whole.pixels := by
  rintro p ⟨hcolumn, hrow⟩
  obtain ⟨-, hright, hbottom⟩ := h (ImageRegion.empty_eq_false.mpr (by omega))
  refine ⟨⟨Nat.zero_le _, ?_⟩, Nat.zero_le _, ?_⟩ <;> simp only [ImageView.whole] <;> omega

/-! ## What the constructor accepts -/

namespace CropHypothesisGeneratorConfig

/-- The ratios of an accepted configuration. -/
structure Ratios (config : CropHypothesisGeneratorConfig ℚ) : Prop where
  horizontalPadding : 0 ≤ config.horizontalPaddingRatio
  verticalPadding : 0 ≤ config.verticalPaddingRatio
  leftInset : 0 ≤ config.plateDominantTextLeftInsetRatio
  rightInset : 0 ≤ config.plateDominantTextRightInsetRatio
  verticalInset : 0 ≤ config.plateDominantTextVerticalInsetRatio
  horizontalInsets : config.plateDominantTextLeftInsetRatio +
    config.plateDominantTextRightInsetRatio < 3 / 4
  verticalInsets : config.plateDominantTextVerticalInsetRatio * 2 < 3 / 4

theorem ratios_of_check {config : CropHypothesisGeneratorConfig ℚ} (h : config.check = .ok ()) :
    config.Ratios := by
  obtain ⟨_, hratios, -⟩ := except_bind_eq_ok.mp h
  simp [validPadding, validInset] at hratios
  obtain ⟨⟨⟨⟨⟨⟨⟨-, hhorizontal⟩, hvertical⟩, -⟩, hleft⟩, hright⟩, hinset⟩, hsum⟩ := hratios.1
  exact ⟨hhorizontal.1, hvertical.1, hleft.1, hright.1, hinset.1, hsum, hratios.2⟩

end CropHypothesisGeneratorConfig

namespace CropHypothesisGenerator

variable {box : BoundingBox ℚ} {source : ImageView} {horizontal vertical : ℚ}

/-! ## The box -/

/-- The columns a padded box reaches. -/
def boxColumns (box : BoundingBox ℚ) (source : ImageView) (horizontal : ℚ) : ℚ × ℚ :=
  clampedSpan box.x box.width (box.width * horizontal) source.width

/-- The rows a padded box reaches. -/
def boxRows (box : BoundingBox ℚ) (source : ImageView) (vertical : ℚ) : ℚ × ℚ :=
  clampedSpan box.y box.height (box.height * vertical) source.height

/-- The indices of a span, rounded outward. -/
def outward (span : ℚ × ℚ) (size : ℕ) : ℕ × ℕ := (⌊span.1⌋.toNat, min size ⌈span.2⌉.toNat)

/-- More padding widens a span. -/
theorem clampedSpan_mono (start extent : ℚ) {padding padding' : ℚ} (h : padding ≤ padding')
    (size : ℕ) :
    (clampedSpan start extent padding' size).1 ≤ (clampedSpan start extent padding size).1 ∧
      (clampedSpan start extent padding size).2 ≤ (clampedSpan start extent padding' size).2 :=
  ⟨Scalar.clamp_mono (Nat.cast_nonneg size) (sub_le_sub_left h start),
    Scalar.clamp_mono (Nat.cast_nonneg size) (add_le_add_right h (start + extent))⟩

theorem boxColumns_mono (box : BoundingBox ℚ) (source : ImageView) (hbox : 0 ≤ box.width)
    {horizontal horizontal' : ℚ} (h : horizontal ≤ horizontal') :
    (boxColumns box source horizontal').1 ≤ (boxColumns box source horizontal).1 ∧
      (boxColumns box source horizontal).2 ≤ (boxColumns box source horizontal').2 :=
  clampedSpan_mono box.x box.width (mul_le_mul_of_nonneg_left h hbox) source.width

theorem boxRows_mono (box : BoundingBox ℚ) (source : ImageView) (hbox : 0 ≤ box.height)
    {vertical vertical' : ℚ} (h : vertical ≤ vertical') :
    (boxRows box source vertical').1 ≤ (boxRows box source vertical).1 ∧
      (boxRows box source vertical).2 ≤ (boxRows box source vertical').2 :=
  clampedSpan_mono box.y box.height (mul_le_mul_of_nonneg_left h hbox) source.height

/-- A wider span rounds to one that is no narrower. -/
theorem outward_mono {span span' : ℚ × ℚ} (h : span'.1 ≤ span.1 ∧ span.2 ≤ span'.2) (size : ℕ) :
    (outward span' size).1 ≤ (outward span size).1 ∧
      (outward span size).2 ≤ (outward span' size).2 :=
  ⟨Int.toNat_le_toNat (Int.floor_le_floor h.1),
    min_le_min_left _ (Int.toNat_le_toNat (Int.ceil_le_ceil h.2))⟩

/-- The box has an extent, and so do its clamped edges, before and after rounding. -/
structure Reaches (box : BoundingBox ℚ) (source : ImageView) (horizontal vertical : ℚ) : Prop where
  extent : 0 < box.width ∧ 0 < box.height
  edges : (boxColumns box source horizontal).1 < (boxColumns box source horizontal).2 ∧
    (boxRows box source vertical).1 < (boxRows box source vertical).2
  indices : (outward (boxColumns box source horizontal) source.width).1 <
      (outward (boxColumns box source horizontal) source.width).2 ∧
    (outward (boxRows box source vertical) source.height).1 <
      (outward (boxRows box source vertical) source.height).2

/-- The region between the rounded edges. -/
def edgeRegion (columns rows : ℕ × ℕ) : ImageRegion :=
  ⟨columns.1, rows.1, columns.2 - columns.1, rows.2 - rows.1⟩

theorem bboxRegion_of_reaches (h : Reaches box source horizontal vertical) :
    bboxRegion ℚ box source horizontal vertical =
      edgeRegion (outward (boxColumns box source horizontal) source.width)
        (outward (boxRows box source vertical) source.height) := by
  have hvalid : (!box.isValid) = false := by rw [BoundingBox.isValid_rat.mpr h.extent]; rfl
  unfold bboxRegion
  rw [hvalid, if_neg Bool.false_ne_true]
  exact (if_neg (not_not.mpr h.edges)).trans (if_pos h.indices)

theorem bboxRegion_of_not_reaches (h : ¬ Reaches box source horizontal vertical) :
    bboxRegion ℚ box source horizontal vertical = noRegion := by
  unfold bboxRegion
  by_cases hvalid : box.isValid = true
  · rw [if_neg (by rw [hvalid]; decide)]
    by_cases hedges : (boxColumns box source horizontal).1 < (boxColumns box source horizontal).2 ∧
        (boxRows box source vertical).1 < (boxRows box source vertical).2
    · exact (if_neg (not_not.mpr hedges)).trans
        (if_neg fun hindices => h ⟨BoundingBox.isValid_rat.mp hvalid, hedges, hindices⟩)
    · exact if_pos hedges
  · rw [Bool.not_eq_true] at hvalid
    rw [hvalid]
    rfl

/-- The pixels of a box are those between its edges, rounded outward. -/
theorem mem_pixels_bboxRegion {p : ℕ × ℕ} :
    p ∈ (bboxRegion ℚ box source horizontal vertical).pixels ↔
      Reaches box source horizontal vertical ∧
        ((outward (boxColumns box source horizontal) source.width).1 ≤ p.1 ∧
          p.1 < (outward (boxColumns box source horizontal) source.width).2) ∧
        (outward (boxRows box source vertical) source.height).1 ≤ p.2 ∧
          p.2 < (outward (boxRows box source vertical) source.height).2 := by
  by_cases h : Reaches box source horizontal vertical
  · have hindices := h.indices
    rw [bboxRegion_of_reaches h]
    simp only [ImageRegion.pixels, edgeRegion, Set.mem_ofPred_eq, h, true_and]
    omega
  · rw [bboxRegion_of_not_reaches h]
    exact ⟨fun hp => absurd hp.1.2 (Nat.not_lt_zero _), fun hp => absurd hp.1 h⟩

/-- More padding reaches whatever less does. -/
theorem Reaches.mono {horizontal' vertical' : ℚ} (h : Reaches box source horizontal vertical)
    (hhorizontal : horizontal ≤ horizontal') (hvertical : vertical ≤ vertical') :
    Reaches box source horizontal' vertical' := by
  have hcolumns := boxColumns_mono box source h.extent.1.le hhorizontal
  have hrows := boxRows_mono box source h.extent.2.le hvertical
  have hleft := outward_mono hcolumns source.width
  have htop := outward_mono hrows source.height
  obtain ⟨hextent, hedges, hindices⟩ := h
  exact ⟨hextent, ⟨by linarith, by linarith⟩, by omega, by omega⟩

/-- **More padding keeps every pixel.** -/
theorem bboxRegion_subset {horizontal' vertical' : ℚ} (hhorizontal : horizontal ≤ horizontal')
    (hvertical : vertical ≤ vertical') :
    (bboxRegion ℚ box source horizontal vertical).pixels ⊆
      (bboxRegion ℚ box source horizontal' vertical').pixels := by
  intro p hp
  obtain ⟨h, hp⟩ := mem_pixels_bboxRegion.mp hp
  have hleft := outward_mono (boxColumns_mono box source h.extent.1.le hhorizontal) source.width
  have htop := outward_mono (boxRows_mono box source h.extent.2.le hvertical) source.height
  exact mem_pixels_bboxRegion.mpr ⟨h.mono hhorizontal hvertical, by omega, by omega⟩

/-- **A region of a box is inside the source**, or empty. -/
theorem bboxRegion_inside (h : (bboxRegion ℚ box source horizontal vertical).empty = false) :
    (bboxRegion ℚ box source horizontal vertical).Inside source.width source.height := by
  by_cases hreaches : Reaches box source horizontal vertical
  · have hindices := hreaches.indices
    have hright : (outward (boxColumns box source horizontal) source.width).2 ≤ source.width :=
      min_le_left _ _
    have hbottom : (outward (boxRows box source vertical) source.height).2 ≤ source.height :=
      min_le_left _ _
    refine ⟨h, ?_⟩
    rw [bboxRegion_of_reaches hreaches]
    simp only [edgeRegion]
    omega
  · rw [bboxRegion_of_not_reaches hreaches] at h
    cases h

/-! ## The text of a plate -/

/-- The insets of an accepted configuration leave a part of a size. -/
theorem floor_inset_add_lt {size : ℕ} (hsize : 0 < size) {ratio ratio' : ℚ} (h : 0 ≤ ratio)
    (h' : 0 ≤ ratio') (hsum : ratio + ratio' < 1) :
    ⌊(size : ℚ) * ratio⌋.toNat + ⌊(size : ℚ) * ratio'⌋.toNat < size := by
  have hpositive : (0 : ℚ) < size := by exact_mod_cast hsize
  have hfloor : ∀ v : ℚ, 0 ≤ v → (⌊v⌋.toNat : ℚ) ≤ v := fun v hv => by
    have hcast : ((⌊v⌋.toNat : ℤ) : ℚ) = ⌊v⌋ :=
      congrArg _ (Int.toNat_of_nonneg (Int.floor_nonneg.mpr hv))
    exact (Int.cast_natCast ⌊v⌋.toNat).symm.trans hcast |>.le.trans (Int.floor_le v)
  have hfirst := hfloor _ (mul_nonneg hpositive.le h)
  have hsecond := hfloor _ (mul_nonneg hpositive.le h')
  have hpart : (size : ℚ) * (ratio + ratio') < size := mul_lt_of_lt_one_right hpositive hsum
  rw [mul_add] at hpart
  have hlt : ((⌊(size : ℚ) * ratio⌋.toNat + ⌊(size : ℚ) * ratio'⌋.toNat : ℕ) : ℚ) < size := by
    push_cast
    linarith
  exact_mod_cast hlt

/-- **The text region of an accepted configuration** is inside the source, and no sum of the source
wraps. -/
theorem plateTextRegion_inside {config : CropHypothesisGeneratorConfig ℚ} (h : config.Ratios)
    (hwidth : 0 < source.width) (hheight : 0 < source.height) :
    (plateTextRegion ℚ source config).Inside source.width source.height := by
  obtain ⟨left, hleft⟩ : ∃ left, left =
      ⌊(source.width : ℚ) * config.plateDominantTextLeftInsetRatio⌋.toNat := ⟨_, rfl⟩
  obtain ⟨right, hright⟩ : ∃ right, right =
      ⌊(source.width : ℚ) * config.plateDominantTextRightInsetRatio⌋.toNat := ⟨_, rfl⟩
  obtain ⟨vertical, hvertical⟩ : ∃ vertical, vertical =
      ⌊(source.height : ℚ) * config.plateDominantTextVerticalInsetRatio⌋.toNat := ⟨_, rfl⟩
  have hcolumns := floor_inset_add_lt hwidth h.leftInset h.rightInset
    (h.horizontalInsets.trans (by norm_num))
  have hrows := floor_inset_add_lt hheight h.verticalInset h.verticalInset
    (by linarith [h.verticalInsets])
  rw [← hleft, ← hright] at hcolumns
  rw [← hvertical] at hrows
  have hregion : plateTextRegion ℚ source config =
      ⟨left, vertical, source.width - left - right, source.height - vertical * 2⟩ := by
    have hroom : ¬ (source.width ≤ left + right ∨ source.height ≤ vertical * 2) := by omega
    subst hleft hright hvertical
    exact (if_neg (by omega)).trans (if_neg hroom)
  rw [hregion, ImageRegion.Inside, ImageRegion.empty_eq_false]
  simp only
  omega

end CropHypothesisGenerator

end FacLpr
