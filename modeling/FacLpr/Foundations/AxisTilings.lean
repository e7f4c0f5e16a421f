import Mathlib.Data.List.Basic
import Mathlib.Data.Rat.Floor

/-!
# Foundations/AxisTilings — overlapping tiles along an axis

A `Tiling` of an axis starts its tiles at increasing origins, each so soon that it overlaps the one
before it as asked, until a tile reaches the end.  Then the tiles cover the axis (`Tiling.covers`),
and every interval that is not longer than the overlap lies in one of them (`Tiling.exists_tile`),
wherever between two points it begins and ends (`Tiling.exists_tile_of_le`).
-/

namespace FacLpr

/-- The tiles that start at `origins`, the first of them at a given origin. -/
inductive Tiling (extent tile overlap : ℕ) : ℕ → List ℕ → Prop where
  | last {origin : ℕ} : origin < extent → extent ≤ origin + tile →
      Tiling extent tile overlap origin [origin]
  | cons {origin next : ℕ} {rest : List ℕ} : origin < next → next + overlap ≤ origin + tile →
      Tiling extent tile overlap next rest → Tiling extent tile overlap origin (origin :: rest)

/-- How much of the axis a tile covers. -/
def tileLength (extent tile origin : ℕ) : ℕ := min tile (extent - origin)

namespace Tiling

variable {extent tile overlap origin : ℕ} {origins : List ℕ}

theorem origin_le (h : Tiling extent tile overlap origin origins) : ∀ o ∈ origins, origin ≤ o := by
  induction h with
  | last _ _ => simp
  | cons hlt _ _ ih =>
    exact List.forall_mem_cons.mpr ⟨le_refl _, fun o ho => hlt.le.trans (ih o ho)⟩

theorem head?_eq (h : Tiling extent tile overlap origin origins) :
    origins.head? = some origin := by
  cases h <;> rfl

/-- **The origins increase.** -/
theorem pairwise_lt (h : Tiling extent tile overlap origin origins) : origins.Pairwise (· < ·) := by
  induction h with
  | last _ _ => exact List.pairwise_singleton _ _
  | cons hlt _ hrest ih =>
    exact List.pairwise_cons.mpr ⟨fun o ho => hlt.trans_le (hrest.origin_le o ho), ih⟩

/-- **Every tile is a part of the axis**, and not an empty one. -/
theorem origin_lt (h : Tiling extent tile overlap origin origins) : ∀ o ∈ origins, o < extent := by
  induction h with
  | last hlt _ => simpa using hlt
  | cons hlt _ hrest ih =>
    have hnext := ih _ (List.mem_of_mem_head? hrest.head?_eq)
    exact List.forall_mem_cons.mpr ⟨hlt.trans hnext, ih⟩

/-- **An interval no longer than the overlap lies in one tile**; so does one that is longer by
one. -/
theorem exists_tile (h : Tiling extent tile overlap origin origins) (start length : ℕ)
    (hstart : origin ≤ start) (hend : start + length ≤ extent) (hlength : length ≤ overlap + 1) :
    ∃ o ∈ origins, o ≤ start ∧ start + length ≤ o + tileLength extent tile o := by
  unfold tileLength
  induction h with
  | last _ hreach => exact ⟨_, List.mem_singleton_self _, hstart, by omega⟩
  | @cons origin next rest hlt hoverlap hrest ih =>
    by_cases hin : start + length ≤ origin + tile
    · exact ⟨origin, List.mem_cons_self, hstart, by omega⟩
    · -- what the first tile does not hold starts where the next one does, or later
      obtain ⟨o, ho, hle⟩ := ih (by omega)
      exact ⟨o, List.mem_cons_of_mem _ ho, hle⟩

/-- **The tiles cover the axis**, and nothing else. -/
theorem covers (h : Tiling extent tile overlap 0 origins) (point : ℕ) :
    point < extent ↔ ∃ o ∈ origins, o ≤ point ∧ point < o + tileLength extent tile o := by
  refine ⟨fun hpoint => h.exists_tile point 1 (Nat.zero_le _) hpoint (by omega), ?_⟩
  rintro ⟨o, -, hle, hlt⟩
  unfold tileLength at hlt
  omega

/-- **An interval between points** is no longer than one more than its points: it lies in a tile
too. -/
theorem exists_tile_of_le {α : Type} [Field α] [LinearOrder α] [IsStrictOrderedRing α]
    [FloorSemiring α] (h : Tiling extent tile overlap 0 origins) {start finish : α}
    (hstart : 0 ≤ start) (hle : start ≤ finish) (hfinish : finish ≤ extent)
    (hlength : finish ≤ start + overlap) :
    ∃ o ∈ origins, (o : α) ≤ start ∧ finish ≤ ((o + tileLength extent tile o : ℕ) : α) := by
  have hend : ⌈finish⌉₊ ≤ extent := Nat.ceil_le.mpr hfinish
  have hordered : ⌊start⌋₊ ≤ ⌈finish⌉₊ := Nat.floor_le_ceil start |>.trans (Nat.ceil_mono hle)
  have hshort : (⌈finish⌉₊ : α) < ((⌊start⌋₊ + overlap + 2 : ℕ) : α) := by
    have hceil := Nat.ceil_lt_add_one (hstart.trans hle)
    have hfloor := Nat.lt_floor_add_one start
    push_cast
    linarith
  rw [Nat.cast_lt] at hshort
  obtain ⟨o, ho, hbegin, hreach⟩ := h.exists_tile ⌊start⌋₊ (⌈finish⌉₊ - ⌊start⌋₊) (Nat.zero_le _)
    (by rwa [Nat.add_sub_of_le hordered]) (by omega)
  rw [Nat.add_sub_of_le hordered] at hreach
  refine ⟨o, ho, (Nat.cast_le.mpr hbegin).trans (Nat.floor_le hstart), ?_⟩
  exact (Nat.le_ceil finish).trans (Nat.cast_le.mpr hreach)

end Tiling

end FacLpr
