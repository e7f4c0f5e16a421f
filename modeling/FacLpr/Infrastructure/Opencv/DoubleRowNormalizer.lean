import FacLpr.Application.Image
import FacLpr.Foundations.PixelArithmetic

/-!
# Infrastructure/Opencv/DoubleRowNormalizer — where a plate of two rows is split

The image is made a binary matrix, and split at the row with the least foreground in a window around
its middle.  The bounds of the window are clamped to the rows, which takes three of them
(`splitInRange_iff`); the configuration admits images with fewer.
-/

namespace FacLpr

structure DoubleRowNormalizerConfig (F : Type) [Scalar F] where
  enabled : Bool := true
  minimumWidth : ℕ := 40
  minimumHeight : ℕ := 28
  minimumAspectRatio : F := Scalar.ofRat (65 / 100)
  maximumAspectRatio : F := Scalar.ofRat (220 / 100)
  splitSearchMinRatio : F := Scalar.ofRat (30 / 100)
  splitSearchMaxRatio : F := Scalar.ofRat (70 / 100)
  minimumRowForegroundRatio : F := Scalar.ofRat (15 / 1000)
  maximumRowForegroundRatio : F := Scalar.ofRat (55 / 100)
  targetRowHeight : ℕ := 32
  separatorWidth : ℕ := 4
  maximumOutputWidth : ℕ := 512

/-- A `cv::Mat` of one channel. -/
structure BinaryMat where
  rows : ℕ
  cols : ℕ
  pixel : ℕ → ℕ → ℕ

/-- `!empty()`. -/
def BinaryMat.Nonempty (binary : BinaryMat) : Prop := 0 < binary.rows ∧ 0 < binary.cols

/-- The rows from `first` to before `last`, as a matrix. -/
def BinaryMat.rowRange (binary : BinaryMat) (first last : ℤ) : BinaryMat where
  rows := (last - first).toNat
  cols := binary.cols
  pixel y x := binary.pixel (first.toNat + y) x

/-- What the standard library and OpenCV leave undefined, or assert against. -/
inductive MatFault where
  /-- `std::clamp` with its lower bound above its upper one. -/
  | clampBounds (lo hi : ℤ)
  /-- `cv::Mat::row` of a row there is not. -/
  | rowOutside (row : ℤ)
  deriving DecidableEq

namespace DoubleRowPlateNormalizer

variable {F D : Type} [Scalar F]

/-- `require_ratio`. -/
def requireRatio (value : F) (name : String) : Except EngineError Unit :=
  require (Scalar.isFinite value && !decide (value ≤ 0) && !decide (1 < value))
    (configurationError (name ++ " must be a finite value in (0,1]"))

/-- The checks of the constructor. -/
def checkConfig (config : DoubleRowNormalizerConfig F) : Except EngineError Unit := do
  require (!(config.minimumWidth = 0 ∨ config.minimumHeight = 0 ∨
      !Scalar.isFinite config.minimumAspectRatio ∨ !Scalar.isFinite config.maximumAspectRatio ∨
      config.minimumAspectRatio ≤ 0 ∨ config.maximumAspectRatio ≤ config.minimumAspectRatio ∨
      Scalar.ofRat 10 < config.maximumAspectRatio))
    (configurationError "double-row aspect/dimension configuration is invalid")
  requireRatio config.splitSearchMinRatio "split_search_min_ratio"
  requireRatio config.splitSearchMaxRatio "split_search_max_ratio"
  requireRatio config.minimumRowForegroundRatio "minimum_row_foreground_ratio"
  requireRatio config.maximumRowForegroundRatio "maximum_row_foreground_ratio"
  require (!(config.splitSearchMaxRatio ≤ config.splitSearchMinRatio ∨
      config.maximumRowForegroundRatio ≤ config.minimumRowForegroundRatio ∨
      config.targetRowHeight = 0 ∨ 4096 < config.targetRowHeight ∨ 128 < config.separatorWidth ∨
      config.maximumOutputWidth = 0 ∨ 16384 < config.maximumOutputWidth))
    (configurationError "double-row normalizer configuration is invalid")

/-- A normalizer its constructor accepted. -/
structure Config (F : Type) [Scalar F] where
  config : DoubleRowNormalizerConfig F
  accepted : checkConfig config = .ok ()

/-- `should_apply`. -/
def shouldApply (c : Config F) (input : ImageView) : Bool :=
  if !c.config.enabled ∨ input.width < c.config.minimumWidth ∨
      input.height < c.config.minimumHeight ∨ input.height = 0 then false
  else
    let ratio : F := Scalar.ofRat input.width / Scalar.ofRat input.height
    Scalar.isFinite ratio && decide (c.config.minimumAspectRatio ≤ ratio) &&
      decide (ratio ≤ c.config.maximumAspectRatio)

/-! ## The split -/

/-- `std::clamp`, of an `int`. -/
def clampInt (v lo hi : ℤ) : Except MatFault ℤ :=
  if hi < lo then .error (.clampBounds lo hi)
  else .ok (if v < lo then lo else if hi < v then hi else v)

/-- `cv::countNonZero(binary.row(row))`. -/
def countNonZero (binary : BinaryMat) (row : ℤ) : Except MatFault ℕ :=
  if 0 ≤ row ∧ row < binary.rows then
    .ok ((List.range binary.cols).countP fun x => binary.pixel row.toNat x ≠ 0)
  else .error (.rowOutside row)

/-- The rows from `first` to `last`. -/
def rowsBetween (first last : ℤ) : List ℤ :=
  (List.range (last + 1 - first).toNat).map fun i : ℕ => first + i

/-- The body of the scan: the best row so far, with its foreground. -/
def scanRow (binary : BinaryMat) (best : ℤ × ℕ) (row : ℤ) : Except MatFault (ℤ × ℕ) := do
  let foreground ← countNonZero binary row
  return if foreground < best.2 then (row, foreground) else best

variable (D) in
/-- `find_split_row`. -/
def findSplitRow [Scalar D] [ImageArithmetic F D] (binary : BinaryMat)
    (config : DoubleRowNormalizerConfig F) : Except MatFault ℤ := do
  let rowAt (ratio : F) : ℤ :=
    ImageArithmetic.roundWide F ((Scalar.ofRat binary.rows : D) * PixelArithmetic.widen ratio)
  let minRow ← clampInt (rowAt config.splitSearchMinRatio) 1 (binary.rows - 2)
  let maxRow ← clampInt (rowAt config.splitSearchMaxRatio) minRow (binary.rows - 1)
  let best ← (rowsBetween minRow maxRow).foldlM (scanRow binary) (minRow, 2 ^ 31 - 1)
  return best.1

/-- The mask of the upper row of the plate. -/
def upperMask (binary : BinaryMat) (split : ℤ) : BinaryMat := binary.rowRange 0 split

/-- The mask of the lower row of the plate. -/
def lowerMask (binary : BinaryMat) (split : ℤ) : BinaryMat := binary.rowRange split binary.rows

/-! ## The split is in range -/

theorem clampInt_eq_ok (v : ℤ) {lo hi : ℤ} (h : lo ≤ hi) :
    ∃ w, clampInt v lo hi = .ok w ∧ lo ≤ w ∧ w ≤ hi := by
  refine ⟨_, if_neg (not_lt.mpr h), ?_⟩
  split
  · exact ⟨le_rfl, h⟩
  · split
    · exact ⟨h, le_rfl⟩
    · exact ⟨not_lt.mp ‹_›, not_lt.mp ‹_›⟩

theorem clampInt_eq_error (v : ℤ) {lo hi : ℤ} (h : hi < lo) :
    clampInt v lo hi = .error (.clampBounds lo hi) := if_pos h

theorem mem_rowsBetween {first last row : ℤ} (h : row ∈ rowsBetween first last) :
    first ≤ row ∧ row ≤ last := by
  obtain ⟨i, hi, rfl⟩ := List.mem_map.mp h
  have hlt := List.mem_range.mp hi
  omega

/-- **The scan of rows that exist** does not fail, and its best row is one it started from or saw. -/
theorem foldlM_scanRow_eq_ok {binary : BinaryMat} {rows : List ℤ}
    (h : ∀ row ∈ rows, 0 ≤ row ∧ row < binary.rows) (best : ℤ × ℕ) :
    ∃ found, rows.foldlM (scanRow binary) best = .ok found ∧ found.1 ∈ best.1 :: rows := by
  induction rows generalizing best with
  | nil => exact ⟨best, rfl, List.mem_cons_self⟩
  | cons row rows ih =>
    obtain ⟨hrow, hrows⟩ := List.forall_mem_cons.mp h
    obtain ⟨next, hnext, hmem⟩ : ∃ next, scanRow binary best row = .ok next ∧
        (next.1 = row ∨ next.1 = best.1) := by
      refine ⟨_, except_bind_eq_ok.mpr ⟨_, if_pos hrow, rfl⟩, ?_⟩
      split
      · exact Or.inl rfl
      · exact Or.inr rfl
    obtain ⟨found, hfound, hfoundMem⟩ := ih hrows next
    refine ⟨found, ?_, ?_⟩
    · rw [List.foldlM_cons]
      exact except_bind_eq_ok.mpr ⟨next, hnext, hfound⟩
    · rcases List.mem_cons.mp hfoundMem with hfirst | hlater
      · rcases hmem with hmem | hmem
        · exact List.mem_cons_of_mem _ (hfirst.trans hmem ▸ List.mem_cons_self)
        · exact hfirst.trans hmem ▸ List.mem_cons_self
      · exact List.mem_cons_of_mem _ (List.mem_cons_of_mem _ hlater)

variable [Scalar D] [ImageArithmetic F D]

/-- With three rows or more both clamps have room. -/
theorem findSplitRow_eq_ok {binary : BinaryMat} (config : DoubleRowNormalizerConfig F)
    (h : 3 ≤ binary.rows) :
    ∃ split, findSplitRow D binary config = .ok split ∧ 1 ≤ split ∧ split ≤ binary.rows - 1 := by
  let rowAt (ratio : F) : ℤ :=
    ImageArithmetic.roundWide F ((Scalar.ofRat binary.rows : D) * PixelArithmetic.widen ratio)
  have hfirst : (1 : ℤ) ≤ binary.rows - 2 := by omega
  obtain ⟨minRow, hmin, hminLow, hminHigh⟩ :=
    clampInt_eq_ok (rowAt config.splitSearchMinRatio) hfirst
  have hsecond : minRow ≤ binary.rows - 1 := by omega
  obtain ⟨maxRow, hmax, hmaxLow, hmaxHigh⟩ :=
    clampInt_eq_ok (rowAt config.splitSearchMaxRatio) hsecond
  have hrows : ∀ row ∈ rowsBetween minRow maxRow, 0 ≤ row ∧ row < binary.rows := fun row hrow => by
    have hbetween := mem_rowsBetween hrow
    omega
  obtain ⟨best, hbest, hmem⟩ := foldlM_scanRow_eq_ok hrows (minRow, 2 ^ 31 - 1)
  refine ⟨best.1, except_bind_eq_ok.mpr ⟨minRow, hmin, except_bind_eq_ok.mpr ⟨maxRow, hmax,
    except_bind_eq_ok.mpr ⟨best, hbest, rfl⟩⟩⟩, ?_⟩
  rcases List.mem_cons.mp hmem with hstart | hseen
  · omega
  · have hbetween := mem_rowsBetween hseen
    omega

/-- With fewer rows the first clamp has its bounds in the wrong order. -/
theorem findSplitRow_eq_error {binary : BinaryMat} (config : DoubleRowNormalizerConfig F)
    (h : binary.rows < 3) :
    findSplitRow D binary config = .error (.clampBounds 1 (binary.rows - 2)) := by
  have hbounds : (binary.rows : ℤ) - 2 < 1 := by omega
  unfold findSplitRow
  simp only [clampInt_eq_error _ hbounds]
  rfl

variable (D) in
/-- The split meets no fault, it is a row but the first, and neither mask is empty. -/
def SplitInRange (config : DoubleRowNormalizerConfig F) (binary : BinaryMat) : Prop :=
  ∃ split, findSplitRow D binary config = .ok split ∧
    (1 ≤ split ∧ split ≤ binary.rows - 1) ∧
    (upperMask binary split).Nonempty ∧ (lowerMask binary split).Nonempty

/-- A call of `normalize` that comes to the split: the image is one to apply it to, and valid, and
thresholding left a matrix of its size. -/
structure SplitCall (c : Config F) (input : ImageView) (binary : BinaryMat) : Prop where
  applies : shouldApply c input = true
  validated : ∃ validated, validateImage input {} = .ok validated
  rows : binary.rows = input.height
  cols : binary.cols = input.width

theorem SplitCall.splitInRange {c : Config F} {input : ImageView} {binary : BinaryMat}
    (h : SplitCall c input binary) (hrows : 3 ≤ binary.rows) : SplitInRange D c.config binary := by
  obtain ⟨validated, hvalidated⟩ := h.validated
  have hwidth : 0 < binary.cols := by
    rw [h.cols]
    exact (accepted_of_validateImage hvalidated).1.width.1
  obtain ⟨split, hsplit, hlow, hhigh⟩ := findSplitRow_eq_ok (D := D) c.config hrows
  refine ⟨split, hsplit, ⟨hlow, hhigh⟩, ⟨?_, hwidth⟩, ⟨?_, hwidth⟩⟩
  · change 0 < (split - 0).toNat
    omega
  · change 0 < ((binary.rows : ℤ) - split).toNat
    omega

theorem not_splitInRange (config : DoubleRowNormalizerConfig F) {binary : BinaryMat}
    (h : binary.rows < 3) : ¬ SplitInRange D config binary := by
  rintro ⟨split, hsplit, -⟩
  rw [findSplitRow_eq_error config h] at hsplit
  cases hsplit

/-- A configuration that asks for three rows never comes to an undefined split. -/
theorem SplitCall.splitInRange_of_minimumHeight {c : Config F} {input : ImageView}
    {binary : BinaryMat} (h : SplitCall c input binary) (hminimum : 3 ≤ c.config.minimumHeight) :
    SplitInRange D c.config binary := by
  refine h.splitInRange (h.rows ▸ hminimum.trans ?_)
  by_contra hlow
  have hnot : shouldApply c input = false := if_pos (Or.inr (Or.inr (Or.inl (not_le.mp hlow))))
  exact Bool.false_ne_true (hnot.symm.trans h.applies)

/-- **The split is in range** exactly when the image has three rows. -/
theorem splitInRange_iff {c : Config F} {input : ImageView} {binary : BinaryMat}
    (h : SplitCall c input binary) : SplitInRange D c.config binary ↔ 3 ≤ input.height := by
  rw [← h.rows]
  exact ⟨fun hrange => not_lt.mp fun hfew => not_splitInRange c.config hfew hrange,
    h.splitInRange⟩

/-- A normalizer of images of any size. -/
def anySize : Config ℚ := ⟨{ minimumWidth := 1, minimumHeight := 1 }, by decide +kernel⟩

/-- A square of gray pixels. -/
def graySquare (side : ℕ) : ImageView := ⟨List.replicate (side * side) 7, side, side, side, .gray8⟩

/-- A square of foreground. -/
def darkSquare (side : ℕ) : BinaryMat := ⟨side, side, fun _ _ => 255⟩

theorem splitInRange_iff_threeRows : SplitInRange ℚ anySize.config (darkSquare 3) := by
  have hcall : SplitCall anySize (graySquare 3) (darkSquare 3) :=
    ⟨by decide +kernel, ⟨⟨graySquare 3, 1, 3, 9⟩, rfl⟩, rfl, rfl⟩
  exact (splitInRange_iff hcall).mpr le_rfl

/-- Two rows pass every check, and the split of their matrix is undefined. -/
theorem twoRows_split_undefined : SplitCall anySize (graySquare 2) (darkSquare 2) ∧
    findSplitRow ℚ (darkSquare 2) anySize.config = .error (.clampBounds 1 0) ∧
    ¬ SplitInRange ℚ anySize.config (darkSquare 2) :=
  have hrows : (darkSquare 2).rows < 3 := Nat.lt_succ_self 2
  ⟨⟨by decide +kernel, ⟨⟨graySquare 2, 1, 2, 4⟩, rfl⟩, rfl, rfl⟩, findSplitRow_eq_error _ hrows,
    not_splitInRange _ hrows⟩

end DoubleRowPlateNormalizer

end FacLpr
