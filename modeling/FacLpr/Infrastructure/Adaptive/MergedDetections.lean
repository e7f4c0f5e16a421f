import FacLpr.Infrastructure.Adaptive.ScannedTiles

/-!
# Infrastructure/Adaptive/MergedDetections — what the merge keeps, in exact arithmetic

A detector may report infinities and NaN.  A detection of a tile is moved to where the tile lies and
cut to the image: its box becomes the part of the moved box inside the image
(`region_translateDetection`).  The merge is a greedy suppression in the order of confidence, so
what it drops overlaps something it keeps that is no less confident, unless there was no room
(`detect_merges`).

It sorts before it skips what has no finite confidence.  A NaN next to two different confidences is
nothing `std::stable_sort` may be given (`not_negTrans_of_not_sortable`), and a less confident
detection may then go before a more confident one that it overlaps (`detect_loses`).
-/

namespace FacLpr

open ExactFloat

/-- The box, moved. -/
def BoundingBox.translate (b : BoundingBox ExactFloat) (x y : ℕ) : BoundingBox ExactFloat :=
  { b with x := b.x + Scalar.ofRat x, y := b.y + Scalar.ofRat y }

/-- The points of an image of this size. -/
def sourceRegion (width height : ℕ) : Set (ℚ × ℚ) :=
  Set.Icc 0 (width : ℚ) ×ˢ Set.Icc 0 (height : ℚ)

namespace AdaptiveTileDetector

/-! ## Moving a detection -/

/-- What is left of an interval has two finite ends. -/
theorem exists_ends {extent : ℚ} {low high : ExactFloat}
    (h : 0 < Scalar.max 0 (cut extent high - cut extent low)) :
    ∃ l r, cut extent low = finite l ∧ cut extent high = finite r ∧ l < r := by
  have hcases : ∀ v, (∃ q, cut extent v = finite q) ∨ cut extent v = nan := by
    intro v
    cases v with
    | finite q => exact Or.inl ⟨_, rfl⟩
    | infinite n => exact Or.inl ⟨_, rfl⟩
    | nan => exact Or.inr rfl
  rcases hcases high with ⟨r, hr⟩ | hr
  · rcases hcases low with ⟨l, hl⟩ | hl
    · rw [hr, hl, finite_sub, zero_eq, finite_max, finite_lt, Scalar.max_rat, lt_sup_iff,
        or_iff_right (lt_irrefl 0), sub_pos] at h
      exact ⟨l, r, hl, hr, h⟩
    · rw [hr, hl] at h
      cases h
  · rw [hr] at h
    cases hlow : cut extent low <;> rw [hlow] at h <;> cases h

/-- **Clamping the ends of an interval** cuts it, if anything is left. -/
theorem mem_cut_iff {extent : ℚ} (hextent : 0 ≤ extent) {low high : ExactFloat}
    (h : 0 < Scalar.max 0 (cut extent high - cut extent low)) (p : ℚ) :
    (cut extent low ≤ finite p ∧
        finite p ≤ cut extent low + Scalar.max 0 (cut extent high - cut extent low)) ↔
      (low ≤ finite p ∧ finite p ≤ high) ∧ 0 ≤ p ∧ p ≤ extent := by
  obtain ⟨l, r, hl, hr, hlt⟩ := exists_ends h
  obtain ⟨hl0, -⟩ := mem_of_cut_eq hextent hl
  obtain ⟨-, hrextent⟩ := mem_of_cut_eq hextent hr
  rw [hl, hr, finite_sub, zero_eq, finite_max, Scalar.max_rat, max_eq_right (sub_pos.mpr hlt).le,
    finite_add, add_sub_cancel, finite_le, finite_le]
  constructor
  · rintro ⟨hlp, hpr⟩
    exact ⟨⟨(le_iff_of_cut_eq hl (hlt.trans_le hrextent) (hl0.trans hlp)).mpr hlp,
      (le_iff_of_cut_eq' hr (hl0.trans_lt hlt) (hpr.trans hrextent)).mpr hpr⟩,
      hl0.trans hlp, hpr.trans hrextent⟩
  · rintro ⟨⟨hlow, hhigh⟩, hp0, hpextent⟩
    exact ⟨(le_iff_of_cut_eq hl (hlt.trans_le hrextent) hp0).mp hlow,
      (le_iff_of_cut_eq' hr (hl0.trans_lt hlt) hpextent).mp hhigh⟩

variable {detection : Detection ExactFloat} {x y width height : ℕ}

/-- The box is moved, and its edges are cut to the image. -/
theorem bbox_translateDetection :
    (translateDetection detection x y width height).bbox =
      ⟨cut width (detection.bbox.translate x y).x, cut height (detection.bbox.translate x y).y,
        Scalar.max 0 (cut width ((detection.bbox.translate x y).x + detection.bbox.width) -
          cut width (detection.bbox.translate x y).x),
        Scalar.max 0 (cut height ((detection.bbox.translate x y).y + detection.bbox.height) -
          cut height (detection.bbox.translate x y).y)⟩ := by
  simp only [translateDetection, BoundingBox.translate, ofRat_eq,
    clamp_eq_cut (Nat.cast_nonneg _)]

/-- **The box that is left** is the part of the moved box inside the image. -/
theorem region_translateDetection
    (h : (translateDetection detection x y width height).bbox.isValid = true) :
    (translateDetection detection x y width height).bbox.region =
      (detection.bbox.translate x y).region ∩ sourceRegion width height := by
  rw [bbox_translateDetection] at h ⊢
  simp only [BoundingBox.isValid, Bool.and_eq_true, decide_eq_true_eq] at h
  ext p
  have hx := mem_cut_iff (Nat.cast_nonneg width) h.1.2 p.1
  have hy := mem_cut_iff (Nat.cast_nonneg height) h.2 p.2
  simp only [BoundingBox.region, sourceRegion, Set.mem_ofPred_eq, Set.mem_inter_iff, Set.mem_prod,
    Set.mem_Icc, hx, hy]
  exact and_and_and_comm

/-- A detection of a tile at an origin, seen in an image of this size: its box is cut to the image,
its points are moved to the nearest ones of it, and the rest is left alone. -/
structure IsTranslated (x y width height : ℕ) (found moved : Detection ExactFloat) : Prop where
  region : moved.bbox.region = (found.bbox.translate x y).region ∩ sourceRegion width height
  points : moved.quadrilateral = found.quadrilateral.map fun quadrilateral =>
    ⟨fun i => ⟨cut width ((quadrilateral.points i).x + Scalar.ofRat x),
      cut height ((quadrilateral.points i).y + Scalar.ofRat y)⟩, quadrilateral.confidences⟩
  confidence : moved.confidence = found.confidence
  geometryScore : moved.geometryScore = found.geometryScore
  provider : moved.provider = found.provider

theorem isTranslated_translateDetection
    (h : (translateDetection detection x y width height).bbox.isValid = true) :
    IsTranslated x y width height detection (translateDetection detection x y width height) where
  region := region_translateDetection h
  points := by
    simp only [translateDetection, ofRat_eq, clamp_eq_cut (Nat.cast_nonneg _)]
  confidence := rfl
  geometryScore := rfl
  provider := rfl

/-! ## The overlap of two boxes -/

/-- The overlap of valid boxes is the share of what they cover that they have in common. -/
theorem iou_exact {left right : BoundingBox ℚ} (hleft : left.isValid = true)
    (hright : right.isValid = true) :
    iou left.exact right.exact = .finite (left.overlap right) := by
  simp only [iou, BoundingBox.isValid_exact, hleft, hright, BoundingBox.hasFiniteEdges_exact,
    BoundingBox.unionArea_exact, zero_eq, finite_lt, BoundingBox.unionArea_pos right hleft,
    isFinite_finite, Bool.not_true, Bool.or_false, decide_true, Bool.and_self, Bool.false_eq_true,
    if_false, if_true]
  rw [← BoundingBox.unionArea_exact]
  exact BoundingBox.clamp01_exact right hleft

/-- **The overlap is finite, and the same both ways.** -/
theorem iou_comm (left right : BoundingBox ExactFloat) :
    Scalar.isFinite (iou left right) = true ∧ iou left right = iou right left := by
  by_cases hvalid : left.isValid = true ∧ right.isValid = true
  · obtain ⟨left, rfl⟩ := BoundingBox.exists_eq_exact hvalid.1
    obtain ⟨right, rfl⟩ := BoundingBox.exists_eq_exact hvalid.2
    rw [BoundingBox.isValid_exact, BoundingBox.isValid_exact] at hvalid
    rw [iou_exact hvalid.1 hvalid.2, iou_exact hvalid.2 hvalid.1, BoundingBox.overlap_comm]
    exact ⟨rfl, rfl⟩
  · have hinvalid : (!left.isValid || !right.isValid) = true := by
      rw [← Bool.not_and, Bool.not_eq_true', ← Bool.not_eq_true, Bool.and_eq_true]
      exact hvalid
    have hinvalid' : (!right.isValid || !left.isValid) = true := by rwa [Bool.or_comm]
    unfold iou
    rw [if_pos hinvalid, if_pos hinvalid']
    exact ⟨rfl, rfl⟩

/-! ## Sorting by confidence -/

/-- No NaN stands next to two different confidences. -/
def Sortable (detections : List (Detection ExactFloat)) : Prop :=
  ∀ unordered ∈ detections, unordered.confidence = nan →
    ∀ a ∈ detections, ∀ b ∈ detections, ¬ a.confidence < b.confidence

theorem sortable_of_ne_nan {detections : List (Detection ExactFloat)}
    (h : ∀ detection ∈ detections, detection.confidence ≠ nan) : Sortable detections :=
  fun unordered hmem hnan => absurd hnan (h unordered hmem)

/-- What goes first is no less confident. -/
theorem confidence_le_of_mergeOrder {a b : Detection ExactFloat} (h : mergeOrder a b = true) :
    b.confidence ≤ a.confidence := by
  unfold mergeOrder at h
  split at h
  · exact ExactFloat.le_of_lt (of_decide_eq_true h)
  · rename_i heq
    have hbeq : (a.confidence == b.confidence) = true := by simpa [bne] using heq
    exact le_of_beq ((ExactFloat.beq_comm _ _).trans hbeq)

/-- And what need not, where there is no NaN. -/
theorem confidence_le_of_mergeOrder_eq_false {a b : Detection ExactFloat} (ha : a.confidence ≠ nan)
    (hb : b.confidence ≠ nan) (h : mergeOrder b a = false) : b.confidence ≤ a.confidence := by
  unfold mergeOrder at h
  split at h
  · exact ExactFloat.le_of_not_lt hb ha (of_decide_eq_false h)
  · rename_i heq
    exact le_of_beq (by simpa [bne] using heq)

variable {config : AdaptiveTileConfig ExactFloat} {detections : List (Detection ExactFloat)}

/-- **Without a NaN the comparator sorts by confidence**; with one, there is nothing to sort. -/
theorem pairwise_sorted_confidence (h : Sortable detections) :
    ((stableSort mergeOrder detections).filter isMergeable).Pairwise fun a b =>
      b.confidence ≤ a.confidence := by
  by_cases hnan : ∃ unordered ∈ detections, unordered.confidence = nan
  · obtain ⟨unordered, hmem, hunordered⟩ := hnan
    refine List.pairwise_of_forall_mem_list fun a ha b hb => ?_
    rw [List.mem_filter, mem_stableSort, isMergeable, Bool.and_eq_true] at ha hb
    obtain ⟨p, hp⟩ := isFinite_iff.mp ha.2.2
    obtain ⟨q, hq⟩ := isFinite_iff.mp hb.2.2
    exact ExactFloat.le_of_not_lt (hq ▸ nofun) (hp ▸ nofun)
      (h unordered hmem hunordered a ha.1 b hb.1)
  · push Not at hnan
    refine (pairwise_stableSort_of
      (R := fun a b : Detection ExactFloat => b.confidence ≤ a.confidence)
      (fun a b c hab hbc => ExactFloat.le_trans hbc hab)
      (fun a _ b _ hless => confidence_le_of_mergeOrder hless)
      fun a ha b hb hkeep => ?_).sublist List.filter_sublist
    exact confidence_le_of_mergeOrder_eq_false (hnan a ha) (hnan b hb) hkeep

/-- **A NaN next to two different confidences is not ordered**: the comparator is not one the sort
accepts. -/
theorem not_negTrans_of_not_sortable (h : ¬ Sortable detections) :
    ∃ a ∈ detections, ∃ b ∈ detections, ∃ c ∈ detections,
      mergeOrder b a = false ∧ mergeOrder c b = false ∧ mergeOrder c a = true := by
  unfold Sortable at h
  push Not at h
  obtain ⟨unordered, hmem, hnan, a, ha, b, hb, hlt⟩ := h
  refine ⟨a, ha, unordered, hmem, b, hb, ?_, ?_, ?_⟩
  · rw [mergeOrder, hnan]
    exact decide_eq_false (not_lt_nan _)
  · rw [mergeOrder, hnan, if_pos (by cases b.confidence <;> rfl)]
    exact decide_eq_false (not_nan_lt _)
  · rw [mergeOrder, if_pos (bne_of_lt hlt)]
    exact decide_eq_true hlt

/-! ## Merging -/

/-- An accepted threshold is finite. -/
theorem isFinite_mergeIouThreshold {σ : Type} (adaptive : AdaptiveTileDetector σ ExactFloat) :
    Scalar.isFinite adaptive.config.mergeIouThreshold = true := by
  have h := adaptive.accepted
  simp only [validateConfig, require_eq_ok, Bool.not_eq_true', Bool.or_eq_false_iff,
    Bool.not_eq_false'] at h
  exact Scalar.isFinite_of_isProbability h.2

theorem mem_sorted : detection ∈ (stableSort mergeOrder detections).filter isMergeable ↔
    detection ∈ detections ∧ isMergeable detection = true := by
  rw [List.mem_filter, mem_stableSort]

theorem mem_of_mem_merge (h : detection ∈ mergeDetections config detections) :
    detection ∈ detections ∧ isMergeable detection = true :=
  mem_sorted.mp ((suppress_sublist _).subset h)

/-- **No two returned detections overlap** more than they may. -/
theorem pairwise_merge (hthreshold : Scalar.isFinite config.mergeIouThreshold = true) :
    (mergeDetections config detections).Pairwise fun a b =>
      iou a.bbox b.bbox ≤ config.mergeIouThreshold ∧
        iou b.bbox a.bbox ≤ config.mergeIouThreshold := by
  refine (pairwise_suppress _).imp fun {a b} hclear => ?_
  obtain ⟨hfinite, hcomm⟩ := iou_comm b.bbox a.bbox
  have hle := Scalar.le_of_not_lt hfinite hthreshold (of_decide_eq_false hclear)
  exact ⟨hcomm ▸ hle, hle⟩

/-- **Nothing is lost**: what has a valid box and a finite confidence is returned, or overlaps
something returned that is no less confident, or there was no room for more. -/
def LosesNothing (config : AdaptiveTileConfig ExactFloat)
    (detections result : List (Detection ExactFloat)) : Prop :=
  ∀ detection ∈ detections,
    detection.bbox.isValid = true → Scalar.isFinite detection.confidence = true →
      detection ∈ result ∨
      (∃ kept ∈ result, detection.confidence ≤ kept.confidence ∧
        config.mergeIouThreshold < iou detection.bbox kept.bbox) ∨
      result.length = config.maximumDetections.toNat

/-- **What is dropped** overlaps something better that is returned, or there was no room. -/
theorem losesNothing_merge (hpos : 0 < config.maximumDetections.toNat) (h : Sortable detections) :
    LosesNothing config detections (mergeDetections config detections) := by
  intro detection hmem hvalid hfinite
  have hmergeable : isMergeable detection = true := by
    rw [isMergeable, hvalid, hfinite, Bool.and_self]
  rcases suppress_complete (pairwise_sorted_confidence h) detection
    (mem_sorted.mpr ⟨hmem, hmergeable⟩) with hkept | ⟨kept, hkept, hahead, hoverlap⟩ | ⟨hfull, -⟩
  · exact Or.inl hkept
  · exact Or.inr (Or.inl ⟨kept, hkept, hahead, of_decide_eq_true hoverlap⟩)
  · exact Or.inr (Or.inr (le_antisymm (length_suppress_le hpos _) hfull))

/-! ## The whole scan -/

/-- **The merge loses nothing that it can sort.**  A run of the scan shows the detector the image
and its tiles.  What it returns was found in the image or, moved and cut, in a tile; no two returned
detections overlap; and, unless a NaN was found next to two different confidences, what was found
but is not returned overlaps something better that is, or there was no room for more. -/
theorem detect_merges {σ D : Type} [World σ] [Scalar D] [PixelArithmetic ExactFloat D]
    (adaptive : AdaptiveTileDetector σ ExactFloat) (image : ImageView) (context : OperationContext)
    (s s' : σ) (result : List (Detection ExactFloat))
    (hrun : adaptive.detect D image context s = .ok result s') :
    ∃ (found : List (Detection ExactFloat)) (tiles : List (ScannedTile ExactFloat)),
      adaptive.recorded.detect D image context (s, []) =
        .ok result (s', ⟨image, found⟩ :: tiles.map (ScannedTile.shown image)) ∧
      (result.Pairwise fun a b => iou a.bbox b.bbox ≤ adaptive.config.mergeIouThreshold ∧
        iou b.bbox a.bbox ≤ adaptive.config.mergeIouThreshold) ∧
      (Sortable (found ++ tiles.flatMap (ScannedTile.detections image)) →
        LosesNothing adaptive.config (found ++ tiles.flatMap (ScannedTile.detections image))
          result) ∧
      ∀ detection ∈ result, detection ∈ found ∨ ∃ tile ∈ tiles, ∃ inTile ∈ tile.found,
        IsTranslated tile.region.x tile.region.y image.width image.height inTile detection := by
  obtain ⟨log, hlogged⟩ := (lifts_detect adaptive image context s []).1 result s' hrun
  obtain ⟨more, hmore, found, tiles, hscan, hshown⟩ :=
    appends_detect adaptive image context s [] result s' log hlogged
  obtain rfl : log = _ := hmore.trans hshown
  obtain rfl := hscan.merged
  obtain ⟨-, -, -, -, -, hpos⟩ := tileConfig_of_accepted adaptive
  refine ⟨found, tiles, hlogged, pairwise_merge (isFinite_mergeIouThreshold adaptive),
    losesNothing_merge hpos, fun detection hkept => ?_⟩
  obtain ⟨hmem, hmergeable⟩ := mem_of_mem_merge hkept
  rw [isMergeable, Bool.and_eq_true] at hmergeable
  refine (List.mem_append.mp hmem).imp_right fun hmem => ?_
  obtain ⟨tile, htile, hmoved⟩ := List.mem_flatMap.mp hmem
  obtain ⟨inTile, hinTile, rfl⟩ := List.mem_map.mp hmoved
  exact ⟨tile, htile, inTile, hinTile, isTranslated_translateDetection hmergeable.1⟩

/-- A plate at the left edge of an image. -/
def edgePlate : Detection ExactFloat :=
  ⟨⟨finite 0, finite 0, finite 2, finite 1⟩, none, finite (9 / 10), finite 0, []⟩

/-- The same box, found in a tile. -/
def tilePlate : Detection ExactFloat := { edgePlate with confidence := finite (8 / 10) }

/-- A scan by tiles of four pixels, by a detector that is less certain of what it finds in a
tile. -/
def edgeTiles : AdaptiveTileDetector Frozen ExactFloat where
  detector := ⟨[], fun image _ => pure [if image.width = 5 then edgePlate else tilePlate]⟩
  config := { tileWidth := 4, tileHeight := 4, overlapRatio := finite (1 / 4) }
  imageLimits := {}
  accepted := by decide +kernel

/-- What is found in the image and in its two tiles. -/
def edgeFinds : List (Detection ExactFloat) :=
  [edgePlate, translateDetection tilePlate 0 0 5 1, translateDetection tilePlate 1 0 5 1]

/-- What a log keeps of the scan. -/
def edgeLog : List (Shown ExactFloat) :=
  [⟨fivePixels, [edgePlate]⟩, ⟨fivePixels.crop ⟨0, 0, 4, 1⟩, [tilePlate]⟩,
    ⟨fivePixels.crop ⟨1, 0, 4, 1⟩, [tilePlate]⟩]

theorem detect_edgeFinds : edgeTiles.recorded.detect ExactFloat fivePixels ⟨none⟩
    (Frozen.frozen, []) =
      .ok (mergeDetections edgeTiles.config edgeFinds) (Frozen.frozen, edgeLog) := by
  refine Program.bind_eq_ok.mpr ⟨(), (Frozen.frozen, []), rfl, Program.bind_eq_ok.mpr
    ⟨⟨fivePixels, 1, 5, 5⟩, (Frozen.frozen, []), rfl, Program.bind_eq_ok.mpr
      ⟨[edgePlate], (Frozen.frozen, [⟨fivePixels, [edgePlate]⟩]), rfl, ?_⟩⟩⟩
  refine Program.bind_eq_ok.mpr ⟨[⟨0, 0, 4, 1⟩, ⟨1, 0, 4, 1⟩],
    (Frozen.frozen, [⟨fivePixels, [edgePlate]⟩]), ?_, rfl⟩
  change Run.ofExcept (tilesOf ExactFloat edgeTiles.config fivePixels) _ = _
  rw [tilesOf_fivePixels rfl rfl rfl (by decide +kernel)]
  rfl

/-- One of the three is merged away. -/
theorem detect_merges_edgeFinds :
    ∃ (found : List (Detection ExactFloat)) (tiles : List (ScannedTile ExactFloat)),
      edgeTiles.recorded.detect ExactFloat fivePixels ⟨none⟩ (Frozen.frozen, []) =
        .ok (mergeDetections edgeTiles.config edgeFinds)
          (Frozen.frozen, ⟨fivePixels, found⟩ :: tiles.map (ScannedTile.shown fivePixels)) ∧
      (found ++ tiles.flatMap (ScannedTile.detections fivePixels)).length = 3 ∧
      (mergeDetections edgeTiles.config edgeFinds).length = 2 ∧
      LosesNothing edgeTiles.config (found ++ tiles.flatMap (ScannedTile.detections fivePixels))
        (mergeDetections edgeTiles.config edgeFinds) := by
  have hlifts := lifts_detect (D := ExactFloat) edgeTiles fivePixels ⟨none⟩ Frozen.frozen []
  cases hrun : edgeTiles.detect ExactFloat fivePixels ⟨none⟩ Frozen.frozen with
  | error e s' =>
    obtain ⟨log, hlogged⟩ := hlifts.2 e s' hrun
    rw [detect_edgeFinds] at hlogged
    cases hlogged
  | ok result s' =>
    obtain ⟨found, tiles, hlogged, -, hkeeps, -⟩ :=
      detect_merges edgeTiles fivePixels ⟨none⟩ Frozen.frozen s' result hrun
    obtain ⟨rfl, hstate⟩ := EStateM.Result.ok.inj (detect_edgeFinds.symm.trans hlogged)
    obtain ⟨rfl, hlog⟩ := Prod.mk.inj hstate
    have hfinds : [[edgePlate], [tilePlate], [tilePlate]] =
        found :: tiles.map ScannedTile.found := by
      have hmap := congrArg (List.map Shown.found) hlog
      rwa [List.map_cons, List.map_map] at hmap
    obtain ⟨rfl, htiles⟩ := List.cons.inj hfinds
    have hsortable : Sortable ([edgePlate] ++
        tiles.flatMap (ScannedTile.detections fivePixels)) := by
      refine sortable_of_ne_nan fun detection hmem hnan => ?_
      rcases List.mem_append.mp hmem with hmem | hmem
      · rw [List.mem_singleton.mp hmem] at hnan
        cases hnan
      · obtain ⟨tile, htile, hmoved⟩ := List.mem_flatMap.mp hmem
        obtain ⟨inTile, hinTile, rfl⟩ := List.mem_map.mp hmoved
        have hfound : tile.found ∈ [[tilePlate], [tilePlate]] :=
          htiles ▸ List.mem_map_of_mem htile
        have hplate : inTile = tilePlate := by
          simp only [List.mem_cons, List.not_mem_nil, or_false, or_self] at hfound
          rwa [hfound, List.mem_singleton] at hinTile
        rw [hplate] at hnan
        cases hnan
    refine ⟨_, tiles, hlogged, ?_, by decide +kernel, hkeeps hsortable⟩
    have hlengths : tiles.map (fun tile => (tile.detections fivePixels).length) =
        (tiles.map ScannedTile.found).map List.length := by
      simp [ScannedTile.detections]
    rw [List.length_append, List.length_flatMap, hlengths, ← htiles]
    rfl

/-- What a detector reports: a plate, and one box twice, with a NaN between. -/
def nanFinds : List (Detection ExactFloat) :=
  [⟨⟨finite 2, finite 0, finite 1, finite 1⟩, none, finite (5 / 10), finite 0, []⟩,
    ⟨⟨finite 0, finite 0, finite 1, finite 1⟩, none, finite (3 / 10), finite 0, []⟩,
    ⟨⟨finite 4, finite 0, finite 1, finite 1⟩, none, nan, finite 0, []⟩,
    ⟨⟨finite 0, finite 0, finite 1, finite 1⟩, none, finite (4 / 10), finite 0, []⟩]

def nanScan : AdaptiveTileDetector Frozen ExactFloat where
  detector := ⟨[], fun _ _ => pure nanFinds⟩
  config := {}
  imageLimits := {}
  accepted := by decide +kernel

/-- **The better of two duplicates is lost** behind a NaN. -/
theorem detect_loses : nanScan.recorded.detect ExactFloat fivePixels ⟨none⟩ (Frozen.frozen, []) =
      .ok (nanFinds.take 2) (Frozen.frozen, [⟨fivePixels, nanFinds⟩]) ∧
    ¬ LosesNothing nanScan.config nanFinds (nanFinds.take 2) := by
  constructor
  · have hmerged : mergeDetections nanScan.config nanFinds = nanFinds.take 2 := by decide +kernel
    rw [← hmerged]
    exact Program.bind_eq_ok.mpr ⟨(), (Frozen.frozen, []), rfl, Program.bind_eq_ok.mpr
      ⟨⟨fivePixels, 1, 5, 5⟩, (Frozen.frozen, []), rfl, Program.bind_eq_ok.mpr
        ⟨nanFinds, (Frozen.frozen, [⟨fivePixels, nanFinds⟩]), rfl, rfl⟩⟩⟩
  · unfold LosesNothing
    decide +kernel

end AdaptiveTileDetector

end FacLpr
