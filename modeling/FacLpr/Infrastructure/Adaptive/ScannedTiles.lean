import FacLpr.Foundations.AxisTilings
import FacLpr.Foundations.ReadLogs
import FacLpr.Infrastructure.Adaptive.AdaptiveTileDetector
import FacLpr.Infrastructure.CropViews

/-!
# Infrastructure/Adaptive/ScannedTiles — the tiles of an image cover it

The origins along an axis are those of a `Tiling` that overlaps as configured
(`tiling_axisOrigins`), so an object no larger than the overlaps lies in one tile.  A detector that
keeps a log of what it was shown (`PlateDetector.recorded`) shows that a run scans all of them, and
what becomes of what is found there (`appends_detect`).
-/

namespace FacLpr

/-- The object lies in the region. -/
def ImageRegion.Holds (region : ImageRegion) (object : BoundingBox ℚ) : Prop :=
  ((region.x : ℚ) ≤ object.x ∧ object.x + object.width ≤ (region.x + region.width : ℕ)) ∧
    (region.y : ℚ) ≤ object.y ∧ object.y + object.height ≤ (region.y + region.height : ℕ)

instance (region : ImageRegion) (object : BoundingBox ℚ) : Decidable (region.Holds object) :=
  inferInstanceAs (Decidable ((_ ∧ _) ∧ _ ∧ _))

namespace AdaptiveTileDetector

/-! ## Where the tiles start -/

section Origins

variable {extent tile step origin : UInt64}

/-- The next origin is a step further, or that of the last tile. -/
theorem toNat_nextOrigin (hstep : step.toNat ≤ tile.toNat)
    (h : origin.toNat + tile.toNat ≤ extent.toNat) :
    (nextOrigin extent tile step origin).toNat =
      min (origin.toNat + step.toNat) (extent.toNat - tile.toNat) := by
  have hextent := toNat_le_sizeMax extent
  have hguard : addOverflows step origin = false :=
    addOverflows_eq_false.mpr (by omega)
  have hlast : (extent - tile).toNat = extent.toNat - tile.toNat :=
    UInt64.toNat_sub_of_le _ _ (UInt64.le_iff_toNat_le.mpr (by omega))
  rw [nextOrigin, if_neg (of_decide_eq_false hguard), toNat_min, hlast,
    toNat_add_of_le (by omega)]

theorem toNat_origin_add (h : origin.toNat + tile.toNat ≤ extent.toNat) :
    (origin + tile).toNat = origin.toNat + tile.toNat :=
  toNat_add_of_le (h.trans (toNat_le_sizeMax extent))

/-- **The loop of `axis_origins`** tiles what is left of the axis. -/
theorem tiling_originsFrom {overlap : ℕ} (hstep : step.toNat + overlap = tile.toNat)
    (hpos : 0 < step.toNat) (h : origin.toNat + tile.toNat ≤ extent.toNat) :
    Tiling extent.toNat tile.toNat overlap origin.toNat
      ((originsFrom extent tile step origin).map UInt64.toNat) := by
  induction origin using originsFrom.induct extent tile step with
  | case1 origin hend =>
    rw [originsFrom, if_pos hend]
    rw [UInt64.le_iff_toNat_le, toNat_origin_add h] at hend
    exact Tiling.last (by omega) hend
  | case2 origin hend hstuck =>
    -- the next origin is a step further, or the tile reaches the end
    rw [UInt64.le_iff_toNat_le, toNat_origin_add h] at hend
    rw [UInt64.le_iff_toNat_le, toNat_nextOrigin (by omega) h] at hstuck
    omega
  | case3 origin hend hmoves ih =>
    rw [originsFrom, if_neg hend, if_neg hmoves, List.map_cons]
    have hnext := @toNat_nextOrigin extent tile step origin (by omega) h
    rw [UInt64.le_iff_toNat_le, toNat_origin_add h] at hend
    exact Tiling.cons (by omega) (by omega) (ih (by omega))

end Origins

variable {σ F D : Type} [Scalar F] [Scalar D] [PixelArithmetic F D]

section Overlap

variable [LawfulTileArithmetic F D] {tile : UInt64} {ratio : F}

theorem floorWide_tile_lt (htile : 1 ≤ tile) (hfinite : Scalar.isFinite ratio = true)
    (hnonneg : ¬ ratio < 0) (hhalf : ¬ (Scalar.ofRat (50 / 100) : F) ≤ ratio) :
    PixelArithmetic.floorWide F ((Scalar.ofRat tile.toNat : D) * PixelArithmetic.widen ratio) <
      tile.toNat :=
  LawfulTileArithmetic.floorWide_mul_lt (UInt64.le_iff_toNat_le.mp htile) tile.toNat_lt hfinite
    hnonneg hhalf

theorem toNat_tileOverlap (htile : 1 ≤ tile) (hfinite : Scalar.isFinite ratio = true)
    (hnonneg : ¬ ratio < 0) (hhalf : ¬ (Scalar.ofRat (50 / 100) : F) ≤ ratio) :
    (tileOverlap D tile ratio).toNat = PixelArithmetic.floorWide F
      ((Scalar.ofRat tile.toNat : D) * PixelArithmetic.widen ratio) :=
  toNat_ofNat_of_lt (floorWide_tile_lt htile hfinite hnonneg hhalf)

/-- An overlap is shorter than its tile. -/
theorem toNat_tileOverlap_lt (htile : 1 ≤ tile) (hfinite : Scalar.isFinite ratio = true)
    (hnonneg : ¬ ratio < 0) (hhalf : ¬ (Scalar.ofRat (50 / 100) : F) ≤ ratio) :
    (tileOverlap D tile ratio).toNat < tile.toNat := by
  rw [toNat_tileOverlap htile hfinite hnonneg hhalf]
  exact floorWide_tile_lt htile hfinite hnonneg hhalf

end Overlap

/-- **`axis_origins` tiles the axis**, and the tiles overlap by the part asked for. -/
theorem tiling_axisOrigins [LawfulTileArithmetic F D] {extent tile : UInt64} {ratio : F}
    (hextent : 1 ≤ extent) (htile : 1 ≤ tile) (hfinite : Scalar.isFinite ratio = true)
    (hnonneg : ¬ ratio < 0) (hhalf : ¬ (Scalar.ofRat (50 / 100) : F) ≤ ratio) :
    ∃ origins, axisOrigins D extent tile ratio = .ok origins ∧
      Tiling extent.toNat tile.toNat (tileOverlap D tile ratio).toNat 0
        (origins.map UInt64.toNat) := by
  rw [UInt64.le_iff_toNat_le] at hextent
  unfold axisOrigins
  split
  · rename_i hwhole
    rw [UInt64.le_iff_toNat_le] at hwhole
    exact ⟨[0], rfl, Tiling.last hextent (by omega)⟩
  · rename_i hlong
    rw [UInt64.le_iff_toNat_le] at hlong
    have hoverlap := toNat_tileOverlap_lt (D := D) htile hfinite hnonneg hhalf
    have hstep : (tile - tileOverlap D tile ratio).toNat =
        tile.toNat - (tileOverlap D tile ratio).toNat :=
      UInt64.toNat_sub_of_le _ _ (UInt64.le_iff_toNat_le.mpr hoverlap.le)
    have htiling := @tiling_originsFrom extent tile (tile - tileOverlap D tile ratio) 0
      (tileOverlap D tile ratio).toNat (hstep ▸ Nat.sub_add_cancel hoverlap.le) (by omega)
      (by rw [UInt64.toNat_zero]; omega)
    rw [UInt64.toNat_zero] at htiling
    refine ⟨originsFrom extent tile (tile - tileOverlap D tile ratio) 0, ?_, htiling⟩
    have hne : (tile - tileOverlap D tile ratio != 0) = true :=
      bne_iff_ne.mpr (size_ne_zero_iff.mpr (by omega))
    exact except_bind_eq_ok.mpr ⟨(), require_eq_ok.mpr hne, rfl⟩

end AdaptiveTileDetector

/-! ## What the detector is shown -/

section

variable {σ F ℓ : Type} [World σ]

theorem appends_checkContext (context : OperationContext) (cancelled timeout : String) :
    Program.Appends (checkContext context cancelled timeout : Run (σ × List ℓ) Unit)
      fun _ more => True ∧ more = [] := by
  have hstopped : Program.Appends (OperationContext.cancellationRequested : Run (σ × List ℓ) Bool)
      fun _ more => True ∧ more = [] := by
    intro s log a s' log' hrun
    cases hrun
    exact ⟨[], (List.append_nil log).symm, trivial, rfl⟩
  have hexceeded : Program.Appends (context.deadlineExceeded : Run (σ × List ℓ) Bool)
      fun _ more => True ∧ more = [] := by
    intro s log a s' log' hrun
    obtain ⟨_ | deadline⟩ := context <;> cases hrun <;>
      exact ⟨[], (List.append_nil log).symm, trivial, rfl⟩
  refine hstopped.bind_silent fun stopped _ => ?_
  split
  · exact Program.appends_throw _ _
  · refine hexceeded.bind_silent fun exceeded _ => ?_
    split
    · exact Program.appends_throw _ _
    · exact Program.appends_pure ⟨trivial, rfl⟩

omit [World σ] in
theorem appends_runOfExcept {α : Type} (v : Except EngineError α) :
    Program.Appends (Run.ofExcept v : Run (σ × List ℓ) α) fun a more => v = .ok a ∧ more = [] := by
  cases v with
  | ok a => exact Program.appends_pure ⟨rfl, rfl⟩
  | error e => exact Program.appends_throw _ _

/-- What a detector was shown, and what it found there. -/
structure Shown (F : Type) where
  view : ImageView
  found : List (Detection F)

/-- The detector, with a log of what it was shown and found. -/
def PlateDetector.recorded (detector : PlateDetector σ F) :
    PlateDetector (σ × List (Shown F)) F where
  name := detector.name
  detect image context := fun (s, log) =>
    match detector.detect image context s with
    | .ok found s' => .ok found (s', log ++ [⟨image, found⟩])
    | .error e s' => .error e (s', log)

omit [World σ] in
theorem lifts_recordedDetect (detector : PlateDetector σ F) (image : ImageView)
    (context : OperationContext) :
    Program.Lifts (detector.detect image context) (detector.recorded.detect image context) := by
  refine fun s log => ⟨fun found s' h => ⟨log ++ [⟨image, found⟩], ?_⟩, fun e s' h => ⟨log, ?_⟩⟩
  all_goals simp only [PlateDetector.recorded, h]

omit [World σ] in
theorem appends_recordedDetect (detector : PlateDetector σ F) (image : ImageView)
    (context : OperationContext) :
    Program.Appends (detector.recorded.detect image context)
      fun found more => more = [⟨image, found⟩] := by
  intro s log found s' log' hrun
  simp only [PlateDetector.recorded] at hrun
  cases hdetect : detector.detect image context s with
  | ok a t =>
    rw [hdetect] at hrun
    cases hrun
    exact ⟨_, rfl, rfl⟩
  | error e t =>
    rw [hdetect] at hrun
    cases hrun

end

namespace AdaptiveTileDetector

/-- A tile that was scanned. -/
structure ScannedTile (F : Type) where
  region : ImageRegion
  found : List (Detection F)

section

variable {F : Type} [Scalar F]

/-- What was found in a tile, where it lies in the image. -/
def ScannedTile.detections (image : ImageView) (tile : ScannedTile F) : List (Detection F) :=
  tile.found.map fun detection =>
    translateDetection detection tile.region.x tile.region.y image.width image.height

/-- What the detector was shown of the tile. -/
def ScannedTile.shown (image : ImageView) (tile : ScannedTile F) : Shown F :=
  ⟨image.crop tile.region, tile.found⟩

end

variable {σ F D : Type} [Scalar F] [Scalar D] [PixelArithmetic F D]

/-- The scan, by a detector that logs. -/
def recorded (adaptive : AdaptiveTileDetector σ F) :
    AdaptiveTileDetector (σ × List (Shown F)) F where
  detector := adaptive.detector.recorded
  config := adaptive.config
  imageLimits := adaptive.imageLimits
  accepted := adaptive.accepted

/-- What a run of the scan did: the tiles it scanned, and what it returned. -/
structure Scan (D : Type) [Scalar D] [PixelArithmetic F D] (adaptive : AdaptiveTileDetector σ F)
    (image : ImageView) (found result : List (Detection F)) (tiles : List (ScannedTile F)) :
    Prop where
  accepted : image.Accepted adaptive.imageLimits
  regions : (needsTiles adaptive.config image = false ∧ tiles = []) ∨
    needsTiles adaptive.config image = true ∧
      tilesOf D adaptive.config image = .ok (tiles.map ScannedTile.region)
  inside : ∀ tile ∈ tiles, tile.region.Inside image.width image.height
  merged : result = mergeDetections adaptive.config
    (found ++ tiles.flatMap (ScannedTile.detections image))

section

variable [World σ]

/-- The logged scan returns what the scan does. -/
theorem lifts_detect (adaptive : AdaptiveTileDetector σ F) (image : ImageView)
    (context : OperationContext) :
    Program.Lifts (adaptive.detect D image context) (adaptive.recorded.detect D image context) := by
  have hcontext : Program.Lifts (checkContext context)
      (checkContext context : Run (σ × List (Shown F)) Unit) := lifts_checkContext _ _ _
  refine hcontext.bind fun _ => (lifts_runOfExcept _).bind fun validated => ?_
  refine (lifts_recordedDetect _ _ _).bind fun found => ?_
  change Program.Lifts (if (!needsTiles adaptive.config validated.view) = true then _ else _)
    (if (!needsTiles adaptive.config validated.view) = true then _ else _)
  by_cases hwhole : (!needsTiles adaptive.config validated.view) = true
  · rw [if_pos hwhole, if_pos hwhole]
    exact Program.lifts_pure _
  · rw [if_neg hwhole, if_neg hwhole]
    refine (lifts_runOfExcept _).bind fun regions => ?_
    refine (Program.lifts_foldlM (fun region _ combined => ?_) found).bind fun combined =>
      Program.lifts_pure _
    exact hcontext.bind fun _ => (lifts_runOfExcept _).bind fun tile =>
      (lifts_recordedDetect _ _ _).bind fun _ => Program.lifts_pure _

/-- **One tile** is shown to the detector, and what is found there is added. -/
theorem appends_scanTile (detector : PlateDetector σ F) (image : ImageView)
    (context : OperationContext) (combined : List (Detection F)) (region : ImageRegion) :
    Program.Appends (scanTile detector.recorded image context combined region) fun after more =>
      ∃ tile : ScannedTile F, tile.region = region ∧ region.Inside image.width image.height ∧
        after = combined ++ tile.detections image ∧ more = [tile.shown image] := by
  refine (appends_checkContext _ _ _).bind_silent fun _ _ => ?_
  refine (appends_runOfExcept _).bind_silent fun tile htile => ?_
  obtain ⟨hinside, rfl⟩ := NativeImage.crop_of_makeCropView htile
  refine (appends_recordedDetect _ _ _).bind fun found before hbefore => ?_
  subst hbefore
  exact Program.appends_pure ⟨⟨region, found⟩, rfl, hinside, rfl, rfl⟩

/-- **The loops over the tiles** scan them one after the other. -/
theorem appends_scanTiles (detector : PlateDetector σ F) (image : ImageView)
    (context : OperationContext) (regions : List ImageRegion) (combined : List (Detection F)) :
    Program.Appends (regions.foldlM (scanTile detector.recorded image context) combined)
      fun after more => ∃ tiles : List (ScannedTile F), tiles.map ScannedTile.region = regions ∧
        (∀ tile ∈ tiles, tile.region.Inside image.width image.height) ∧
        after = combined ++ tiles.flatMap (ScannedTile.detections image) ∧
        more = tiles.map (ScannedTile.shown image) := by
  induction regions generalizing combined with
  | nil => exact Program.appends_pure ⟨[], rfl, by simp, by simp, rfl⟩
  | cons region regions ih =>
    rw [List.foldlM_cons]
    refine (appends_scanTile detector image context combined region).bind fun after before h => ?_
    obtain ⟨tile, rfl, hinside, rfl, rfl⟩ := h
    refine (ih _).mono fun result more h => ?_
    obtain ⟨tiles, rfl, hrest, rfl, rfl⟩ := h
    refine ⟨tile :: tiles, rfl, List.forall_mem_cons.mpr ⟨hinside, hrest⟩, ?_, rfl⟩
    rw [List.flatMap_cons, List.append_assoc]

/-- **What a run of the scan did**: it showed the detector the image, then the tiles. -/
theorem appends_detect (adaptive : AdaptiveTileDetector σ F) (image : ImageView)
    (context : OperationContext) :
    Program.Appends (adaptive.recorded.detect D image context) fun result more =>
      ∃ found tiles, Scan D adaptive image found result tiles ∧
        more = ⟨image, found⟩ :: tiles.map (ScannedTile.shown image) := by
  refine (appends_checkContext _ _ _).bind_silent fun _ _ => ?_
  refine (appends_runOfExcept _).bind_silent fun validated hvalidated => ?_
  obtain ⟨haccepted, hview⟩ := accepted_of_validateImage hvalidated
  rw [hview]
  refine (appends_recordedDetect _ _ _).bind fun found before hbefore => ?_
  subst hbefore
  change Program.Appends (if (!needsTiles adaptive.config image) = true then _ else _) _
  split
  · rename_i hneeds
    rw [Bool.not_eq_true'] at hneeds
    exact Program.appends_pure ⟨found, [], {
      accepted := haccepted
      regions := Or.inl ⟨hneeds, rfl⟩
      inside := by simp
      merged := by rw [List.flatMap_nil, List.append_nil]; rfl }, rfl⟩
  · rename_i hneeds
    rw [Bool.not_eq_true', Bool.not_eq_false] at hneeds
    refine (appends_runOfExcept _).bind_silent fun regions hregions => ?_
    refine (appends_scanTiles adaptive.detector image context regions found).bind
      fun combined before h => ?_
    obtain ⟨tiles, rfl, hinside, rfl, rfl⟩ := h
    refine Program.appends_pure ⟨found, tiles, {
      accepted := haccepted
      regions := Or.inr ⟨hneeds, hregions⟩
      inside := hinside
      merged := rfl }, ?_⟩
    rw [List.append_nil, List.singleton_append]

end

/-! ## The tiles cover the image -/

omit [PixelArithmetic F D] [Scalar D] in
/-- What the constructor asks of the tiles, and of the room for detections. -/
theorem tileConfig_of_accepted (adaptive : AdaptiveTileDetector σ F) :
    1 ≤ adaptive.config.tileWidth ∧ 1 ≤ adaptive.config.tileHeight ∧
      Scalar.isFinite adaptive.config.overlapRatio = true ∧ ¬ adaptive.config.overlapRatio < 0 ∧
      ¬ (Scalar.ofRat (50 / 100) : F) ≤ adaptive.config.overlapRatio ∧
      0 < adaptive.config.maximumDetections.toNat := by
  have h := adaptive.accepted
  simp only [validateConfig, require_eq_ok, Bool.not_eq_true', Bool.or_eq_false_iff,
    Bool.not_eq_false', decide_eq_false_iff_not, beq_eq_false_iff_ne, size_ne_zero_iff] at h
  obtain ⟨⟨⟨⟨⟨⟨⟨⟨⟨hwidth, hheight⟩, -⟩, -⟩, hroom⟩, -⟩, hfinite⟩, hnonneg⟩, hhalf⟩, -⟩ := h
  exact ⟨UInt64.le_iff_toNat_le.mpr (Nat.one_le_iff_ne_zero.mpr hwidth),
    UInt64.le_iff_toNat_le.mpr (Nat.one_le_iff_ne_zero.mpr hheight), hfinite, hnonneg, hhalf,
    Nat.pos_of_ne_zero hroom⟩

/-- The tiles of an image are those of its axes. -/
theorem tileRegions_of_tilesOf {config : AdaptiveTileConfig F} {image : ImageView}
    {regions : List ImageRegion} (h : tilesOf D config image = .ok regions) :
    ∃ xOrigins yOrigins,
      axisOrigins D (UInt64.ofNat image.width) config.tileWidth config.overlapRatio =
        .ok xOrigins ∧
      axisOrigins D (UInt64.ofNat image.height) config.tileHeight config.overlapRatio =
        .ok yOrigins ∧
      regions = tileRegions config image xOrigins yOrigins := by
  simp only [tilesOf, except_bind_eq_ok] at h
  obtain ⟨xOrigins, hx, yOrigins, hy, -, -, h⟩ := h
  exact ⟨xOrigins, yOrigins, hx, hy, (Except.ok.inj h).symm⟩

/-- The sides of an accepted image are sizes. -/
theorem toNat_ofNat_side {image : ImageView} {limits : ImageLimits} (h : image.Accepted limits) :
    (UInt64.ofNat image.width).toNat = image.width ∧
      (UInt64.ofNat image.height).toNat = image.height := by
  have hchannels : 1 ≤ pixelFormatChannels image.format := by cases image.format <;> decide
  have hwidth : image.width ≤ image.width * pixelFormatChannels image.format :=
    Nat.le_mul_of_pos_right _ hchannels
  have hrow := h.row
  have hpos := h.width.1
  have hstride : 1 ≤ image.strideBytes := by
    have := h.stride
    omega
  have hheight : image.height - 1 ≤ image.strideBytes * (image.height - 1) :=
    Nat.le_mul_of_pos_left _ hstride
  have hextent := h.extent
  rw [UInt64.toNat_ofNat', UInt64.toNat_ofNat', mod_of_le_sizeMax (by omega),
    mod_of_le_sizeMax (by omega)]
  exact ⟨rfl, rfl⟩

/-- **Along an axis**, what is no longer than the overlap lies in a tile. -/
theorem exists_axisTile [LawfulTileArithmetic F D] {extent : ℕ} {tile : UInt64} {ratio : F}
    {origins : List UInt64} (hsize : (UInt64.ofNat extent).toNat = extent) (hpos : 0 < extent)
    (htile : 1 ≤ tile) (hfinite : Scalar.isFinite ratio = true) (hnonneg : ¬ ratio < 0)
    (hhalf : ¬ (Scalar.ofRat (50 / 100) : F) ≤ ratio)
    (h : axisOrigins D (UInt64.ofNat extent) tile ratio = .ok origins) {start length : ℚ}
    (hstart : 0 ≤ start) (hend : start + length ≤ extent) (hlength : 0 ≤ length)
    (hoverlap : length ≤ (tileOverlap D tile ratio).toNat) :
    ∃ o ∈ origins, (o.toNat : ℚ) ≤ start ∧
      start + length ≤ (o.toNat + min tile.toNat (extent - o.toNat) : ℕ) := by
  have hextent : 1 ≤ UInt64.ofNat extent :=
    UInt64.le_iff_toNat_le.mpr (by rw [hsize]; exact hpos)
  obtain ⟨origins', horigins, htiling⟩ :=
    tiling_axisOrigins (D := D) hextent htile hfinite hnonneg hhalf
  obtain rfl : origins = origins' := Except.ok.inj (h.symm.trans horigins)
  rw [hsize] at htiling
  obtain ⟨o, ho, hbegin, hreach⟩ := htiling.exists_tile_of_le hstart (by linarith) hend
    (by linarith)
  obtain ⟨origin, horigin, rfl⟩ := List.mem_map.mp ho
  exact ⟨origin, horigin, hbegin, hreach⟩

/-- **An object no larger than the overlaps lies in a tile** that was scanned. -/
theorem Scan.exists_tile [LawfulTileArithmetic F D] {adaptive : AdaptiveTileDetector σ F}
    {image : ImageView} {found result : List (Detection F)} {tiles : List (ScannedTile F)}
    (h : Scan D adaptive image found result tiles)
    (hneeds : needsTiles adaptive.config image = true) {object : BoundingBox ℚ}
    (hobject : (ImageRegion.mk 0 0 image.width image.height).Holds object)
    (hwidth : 0 ≤ object.width ∧ object.width ≤
      (tileOverlap D adaptive.config.tileWidth adaptive.config.overlapRatio).toNat)
    (hheight : 0 ≤ object.height ∧ object.height ≤
      (tileOverlap D adaptive.config.tileHeight adaptive.config.overlapRatio).toNat) :
    ∃ tile ∈ tiles, tile.region.Holds object := by
  obtain ⟨htileWidth, htileHeight, hfinite, hnonneg, hhalf, -⟩ := tileConfig_of_accepted adaptive
  obtain ⟨⟨hleft, hright⟩, htop, hbottom⟩ := hobject
  rw [Nat.cast_zero] at hleft htop
  rw [Nat.zero_add] at hright hbottom
  obtain ⟨hsizeX, hsizeY⟩ := toNat_ofNat_side h.accepted
  have htilesOf := (h.regions.resolve_left fun hwhole => by simp [hneeds] at hwhole).2
  obtain ⟨xOrigins, yOrigins, hx, hy, hregions⟩ := tileRegions_of_tilesOf htilesOf
  obtain ⟨x, hxmem, hxobject⟩ := exists_axisTile hsizeX h.accepted.width.1 htileWidth hfinite
    hnonneg hhalf hx hleft hright hwidth.1 hwidth.2
  obtain ⟨y, hymem, hyobject⟩ := exists_axisTile hsizeY h.accepted.height.1 htileHeight hfinite
    hnonneg hhalf hy htop hbottom hheight.1 hheight.2
  have hmem : ImageRegion.mk x.toNat y.toNat
      (min adaptive.config.tileWidth.toNat (image.width - x.toNat))
      (min adaptive.config.tileHeight.toNat (image.height - y.toNat)) ∈
        tiles.map ScannedTile.region := by
    rw [hregions]
    exact List.mem_flatMap.mpr ⟨y, hymem, List.mem_map.mpr ⟨x, hxmem, rfl⟩⟩
  obtain ⟨tile, htile, hregion⟩ := List.mem_map.mp hmem
  exact ⟨tile, htile, hregion ▸ ⟨hxobject, hyobject⟩⟩

/-- Tiles of an axis: they start at increasing origins from zero on, lie on the axis, cover it, and
an interval no longer than the overlap lies in one of them. -/
structure CoversAxis (extent tile overlap : ℕ) (origins : List ℕ) : Prop where
  first : origins.head? = some 0
  increasing : origins.Pairwise (· < ·)
  inside : ∀ o ∈ origins, o + min tile (extent - o) ≤ extent
  union : ∀ point, point < extent ↔
    ∃ o ∈ origins, o ≤ point ∧ point < o + min tile (extent - o)
  interval : ∀ start length, start + length ≤ extent → length ≤ overlap →
    ∃ o ∈ origins, o ≤ start ∧ start + length ≤ o + min tile (extent - o)

theorem coversAxis_of_tiling {extent tile overlap : ℕ} {origins : List ℕ}
    (h : Tiling extent tile overlap 0 origins) : CoversAxis extent tile overlap origins where
  first := h.head?_eq
  increasing := h.pairwise_lt
  inside o ho := by
    have := h.origin_lt o ho
    omega
  union := h.covers
  interval start length hend hlength :=
    h.exists_tile start length (Nat.zero_le _) hend (by omega)

/-- **The tiles cover the image.**  Along each axis they cover the extent and hold every interval no
longer than the overlap; so the detector is shown, whole, every object no wider and no higher than
the overlaps. -/
theorem tiles_cover [World σ] [LawfulTileArithmetic F D] :
    (∀ (extent tile : UInt64) (ratio : F), 1 ≤ extent → 1 ≤ tile →
      Scalar.isFinite ratio = true → ¬ ratio < 0 → ¬ (Scalar.ofRat (50 / 100) : F) ≤ ratio →
        (tileOverlap D tile ratio).toNat = PixelArithmetic.floorWide F
          ((Scalar.ofRat tile.toNat : D) * PixelArithmetic.widen ratio) ∧
        ∃ origins, axisOrigins D extent tile ratio = .ok origins ∧
          CoversAxis extent.toNat tile.toNat (tileOverlap D tile ratio).toNat
            (origins.map UInt64.toNat)) ∧
    ∀ (adaptive : AdaptiveTileDetector σ F) (image : ImageView) (context : OperationContext)
      (s s' : σ) (result : List (Detection F)),
      adaptive.detect D image context s = .ok result s' →
        ∃ log, adaptive.recorded.detect D image context (s, []) = .ok result (s', log) ∧
          image ∈ log.map Shown.view ∧
          (needsTiles adaptive.config image = true → ∀ object : BoundingBox ℚ,
            (ImageRegion.mk 0 0 image.width image.height).Holds object →
            0 ≤ object.width ∧ object.width ≤
              (tileOverlap D adaptive.config.tileWidth adaptive.config.overlapRatio).toNat →
            0 ≤ object.height ∧ object.height ≤
              (tileOverlap D adaptive.config.tileHeight adaptive.config.overlapRatio).toNat →
            ∃ region : ImageRegion, region.Inside image.width image.height ∧
              region.Holds object ∧ image.crop region ∈ log.map Shown.view) := by
  refine ⟨fun extent tile ratio hextent htile hfinite hnonneg hhalf => ⟨?_, ?_⟩,
    fun adaptive image context s s' result hrun => ?_⟩
  · exact toNat_tileOverlap htile hfinite hnonneg hhalf
  · obtain ⟨origins, horigins, htiling⟩ :=
      tiling_axisOrigins (D := D) hextent htile hfinite hnonneg hhalf
    exact ⟨origins, horigins, coversAxis_of_tiling htiling⟩
  · obtain ⟨log, hlogged⟩ := (lifts_detect adaptive image context s []).1 result s' hrun
    obtain ⟨more, hmore, found, tiles, hscan, hshown⟩ :=
      appends_detect adaptive image context s [] result s' log hlogged
    obtain rfl : log = _ := hmore.trans hshown
    refine ⟨_, hlogged, List.mem_map.mpr ⟨_, List.mem_cons_self, rfl⟩,
      fun hneeds object hobject hwidth hheight => ?_⟩
    obtain ⟨tile, htile, hholds⟩ := hscan.exists_tile hneeds hobject hwidth hheight
    exact ⟨tile.region, hscan.inside tile htile, hholds, List.mem_map.mpr
      ⟨_, List.mem_cons_of_mem _ (List.mem_map.mpr ⟨tile, htile, rfl⟩), rfl⟩⟩

/-- A scan by tiles of four pixels, a quarter of which overlaps. -/
def quarterTiles : AdaptiveTileDetector Frozen Binary32 where
  detector := ⟨[], fun _ _ => pure []⟩
  config := { tileWidth := 4, tileHeight := 4, overlapRatio := Scalar.ofRat (1 / 4) }
  imageLimits := {}
  accepted := by decide +kernel

/-- A row of five pixels. -/
def fivePixels : ImageView := ⟨[1, 2, 3, 4, 5], 5, 1, 5, .gray8⟩

theorem tilesOf_fivePixels {config : AdaptiveTileConfig F} (hwidth : config.tileWidth = 4)
    (hheight : config.tileHeight = 4) (hcount : config.maximumTiles = 32)
    (hoverlap : tileOverlap D 4 config.overlapRatio = 1) :
    tilesOf D config fivePixels = .ok [⟨0, 0, 4, 1⟩, ⟨1, 0, 4, 1⟩] := by
  have horigins : originsFrom 5 4 3 0 = [0, 1] := by
    rw [originsFrom, if_neg (by decide), if_neg (by decide),
      show nextOrigin 5 4 3 0 = 1 by decide, originsFrom, if_pos (by decide)]
  have hx : axisOrigins D 5 config.tileWidth config.overlapRatio = .ok [0, 1] := by
    rw [axisOrigins, hwidth, if_neg (by decide), hoverlap]
    exact except_bind_eq_ok.mpr ⟨(), rfl, congrArg Except.ok horigins⟩
  have hy : axisOrigins D 1 config.tileHeight config.overlapRatio = .ok [0] := by
    rw [axisOrigins, hheight, if_pos (by decide)]
    rfl
  refine except_bind_eq_ok.mpr ⟨_, hx, except_bind_eq_ok.mpr ⟨_, hy, ?_⟩⟩
  rw [hcount, tileRegions, hwidth, hheight]
  rfl

theorem detect_fivePixels : quarterTiles.detect Binary64 fivePixels ⟨none⟩ Frozen.frozen =
    .ok [] Frozen.frozen := by
  refine Program.bind_eq_ok.mpr ⟨(), Frozen.frozen, rfl, Program.bind_eq_ok.mpr
    ⟨⟨fivePixels, 1, 5, 5⟩, Frozen.frozen, rfl, Program.bind_eq_ok.mpr
      ⟨[], Frozen.frozen, rfl, ?_⟩⟩⟩
  refine Program.bind_eq_ok.mpr ⟨[⟨0, 0, 4, 1⟩, ⟨1, 0, 4, 1⟩], Frozen.frozen, ?_, rfl⟩
  change Run.ofExcept (tilesOf Binary64 quarterTiles.config fivePixels) _ = _
  rw [tilesOf_fivePixels rfl rfl rfl (by decide +kernel)]
  rfl

theorem tiles_cover_fivePixels :
    (∃ origins, axisOrigins Binary64 5 4 (Scalar.ofRat (1 / 4) : Binary32) = .ok origins ∧
      CoversAxis 5 4 1 (origins.map UInt64.toNat)) ∧
    ∃ region : ImageRegion, region.Inside 5 1 ∧ region.Holds ⟨7 / 2, 0, 1, 1⟩ := by
  have hoverlap : tileOverlap Binary64 4 (Scalar.ofRat (1 / 4) : Binary32) = 1 := by
    decide +kernel
  have hcover := @tiles_cover Frozen Binary32 Binary64 _ _ _ _ _
  constructor
  · obtain ⟨-, origins, horigins, hcovers⟩ := hcover.1 5 4 (Scalar.ofRat (1 / 4)) (by decide)
      (by decide) (by decide +kernel) (by decide +kernel) (by decide +kernel)
    rw [hoverlap] at hcovers
    exact ⟨origins, horigins, hcovers⟩
  · obtain ⟨log, -, -, hscanned⟩ := hcover.2 quarterTiles fivePixels ⟨none⟩ _ _ []
      detect_fivePixels
    obtain ⟨region, hinside, hholds, -⟩ := hscanned (by decide) ⟨7 / 2, 0, 1, 1⟩
      (by decide +kernel) (by decide +kernel) (by decide +kernel)
    exact ⟨region, hinside, hholds⟩

end AdaptiveTileDetector

end FacLpr
