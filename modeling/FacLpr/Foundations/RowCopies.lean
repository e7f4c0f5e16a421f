import FacLpr.Foundations.Memory

/-!
# Foundations/RowCopies — rows copied from one part of a memory to another

`copyRows` copies rows of one length between two layouts with strides of their own.  Where the
layouts do not overlap the copies are disjoint writes of what was there before
(`memory_copyRows`), so every row arrives and every other byte stays (`copyRows_row`,
`copyRows_frame`).
-/

namespace FacLpr

/-- A range of a memory: where it starts, and how many bytes it has. -/
structure MemoryRange where
  start : ℕ
  length : ℕ

namespace MemoryRange

def Contains (range : MemoryRange) (address : ℕ) : Prop :=
  range.start ≤ address ∧ address < range.start + range.length

def Within (range outer : MemoryRange) : Prop :=
  outer.start ≤ range.start ∧ range.start + range.length ≤ outer.start + outer.length

theorem Within.contains {range outer : MemoryRange} (h : range.Within outer) {address : ℕ}
    (haddress : range.Contains address) : outer.Contains address :=
  ⟨h.1.trans haddress.1, haddress.2.trans_le h.2⟩

/-- Two ranges have no byte in common. -/
def Disjoint (range range' : MemoryRange) : Prop :=
  ∀ address, range.Contains address → ¬ range'.Contains address

end MemoryRange

/-- A memory, with a record of the ranges that were read or written. -/
structure TracedMemory where
  memory : Memory
  touched : List MemoryRange

/-- `std::memcpy`. -/
def memcpy (destination source count : ℕ) (s : TracedMemory) : TracedMemory where
  memory := applyWrite s.memory (destination, (List.range count).map fun i => s.memory (source + i))
  touched := s.touched ++ [⟨source, count⟩, ⟨destination, count⟩]

/-- A layout of rows: where the first one starts, and how far apart they are. -/
structure RowLayout where
  start : ℕ
  stride : ℕ

/-- The start of a row. -/
def RowLayout.row (layout : RowLayout) (y : ℕ) : ℕ := layout.start + y * layout.stride

/-- Copy the rows, one after another. -/
def copyRows (source destination : RowLayout) (count rows : ℕ) (s : TracedMemory) : TracedMemory :=
  (List.range rows).foldl (fun s y => memcpy (destination.row y) (source.row y) count s) s

/-- The write a row is. -/
def rowWrite (source destination : RowLayout) (count : ℕ) (mem : Memory) (y : ℕ) : Write :=
  (destination.row y, (List.range count).map fun i => mem (source.row y + i))

section

variable {source destination : RowLayout} {count rows : ℕ}

/-- The rows of the source have no byte in common with those of the destination. -/
def RowsApart (source destination : RowLayout) (count rows : ℕ) : Prop :=
  ∀ y < rows, ∀ y' < rows,
    MemoryRange.Disjoint ⟨source.row y, count⟩ ⟨destination.row y', count⟩

theorem length_rowWrite (mem : Memory) (y : ℕ) :
    (rowWrite source destination count mem y).2.length = count := by
  rw [rowWrite, List.length_map, List.length_range]

theorem copyRows_succ (s : TracedMemory) : copyRows source destination count (rows + 1) s =
    memcpy (destination.row rows) (source.row rows) count
      (copyRows source destination count rows s) := by
  rw [copyRows, List.range_succ, List.foldl_append]
  rfl

/-- **Copied rows are writes of what the source held before.** -/
theorem memory_copyRows (h : RowsApart source destination count rows) (s : TracedMemory) :
    (copyRows source destination count rows s).memory = applyWrites s.memory
      ((List.range rows).map (rowWrite source destination count s.memory)) := by
  induction rows with
  | zero => rfl
  | succ rows ih =>
    have hrows := ih fun y hy y' hy' => h y (Nat.lt_succ_of_lt hy) y' (Nat.lt_succ_of_lt hy')
    -- the rows written so far are not read again
    have hread : ∀ i < count, (copyRows source destination count rows s).memory
        (source.row rows + i) = s.memory (source.row rows + i) := by
      intro i hi
      rw [hrows]
      refine applyWrites_of_notMem fun w hw => ?_
      obtain ⟨y, hy, rfl⟩ := List.mem_map.mp hw
      have hapart := h rows (Nat.lt_succ_self rows) y
        (Nat.lt_succ_of_lt (List.mem_range.mp hy)) (source.row rows + i)
        ⟨Nat.le_add_right _ _, Nat.add_lt_add_left hi _⟩
      rw [Write.finish, length_rowWrite]
      simp only [MemoryRange.Contains, rowWrite] at hapart ⊢
      omega
    have hwrite : rowWrite source destination count
        (copyRows source destination count rows s).memory rows =
          rowWrite source destination count s.memory rows :=
      congrArg (Prod.mk _) (List.map_congr_left fun i hi => hread i (List.mem_range.mp hi))
    rw [copyRows_succ, List.range_succ, List.map_append, applyWrites_append, ← hrows]
    exact congrArg (applyWrite _) hwrite

/-- Rows a stride apart do not overlap. -/
theorem pairwise_rowWrite (hstride : count ≤ destination.stride) (mem : Memory) (rows : ℕ) :
    ((List.range rows).map (rowWrite source destination count mem)).Pairwise Write.Disjoint := by
  rw [List.pairwise_map]
  refine (List.pairwise_lt_range (n := rows)).imp fun {y y'} hlt => Or.inl ?_
  have hnext : (y + 1) * destination.stride ≤ y' * destination.stride :=
    Nat.mul_le_mul_right _ hlt
  rw [Nat.succ_mul] at hnext
  rw [Write.finish, length_rowWrite]
  simp only [rowWrite, RowLayout.row]
  omega

/-- **Every row arrives.** -/
theorem copyRows_row (h : RowsApart source destination count rows)
    (hstride : count ≤ destination.stride) (s : TracedMemory) {y i : ℕ} (hy : y < rows)
    (hi : i < count) : (copyRows source destination count rows s).memory (destination.row y + i) =
      s.memory (source.row y + i) := by
  have hholds := holds_applyWrites s.memory
    (@pairwise_rowWrite source destination count hstride s.memory rows)
  have hrow := hholds _ (List.mem_map_of_mem (List.mem_range.mpr hy)) i
    ((length_rowWrite s.memory y).symm ▸ hi)
  rw [memory_copyRows h]
  refine hrow.trans ?_
  simp [rowWrite]

/-- **Every other byte stays.** -/
theorem copyRows_frame (h : RowsApart source destination count rows) (s : TracedMemory)
    {address : ℕ}
    (hout : ∀ y < rows, ¬ MemoryRange.Contains ⟨destination.row y, count⟩ address) :
    (copyRows source destination count rows s).memory address = s.memory address := by
  rw [memory_copyRows h]
  refine applyWrites_of_notMem fun w hw => ?_
  obtain ⟨y, hy, rfl⟩ := List.mem_map.mp hw
  have hrow := hout y (List.mem_range.mp hy)
  rw [Write.finish, length_rowWrite]
  simp only [MemoryRange.Contains, rowWrite] at hrow ⊢
  omega

/-- What the copies touch: the rows, of the source and of the destination. -/
theorem touched_copyRows (s : TracedMemory) : ∃ ranges,
    (copyRows source destination count rows s).touched = s.touched ++ ranges ∧
      ∀ range ∈ ranges, ∃ y < rows,
        range = ⟨source.row y, count⟩ ∨ range = ⟨destination.row y, count⟩ := by
  induction rows with
  | zero => exact ⟨[], (List.append_nil _).symm, by simp⟩
  | succ rows ih =>
    obtain ⟨ranges, htouched, hranges⟩ := ih
    refine ⟨ranges ++ [⟨source.row rows, count⟩, ⟨destination.row rows, count⟩], ?_, ?_⟩
    · rw [copyRows_succ, ← List.append_assoc, ← htouched]
      rfl
    · intro range hrange
      rcases List.mem_append.mp hrange with hrange | hrange
      · obtain ⟨y, hy, hrow⟩ := hranges range hrange
        exact ⟨y, Nat.lt_succ_of_lt hy, hrow⟩
      · exact ⟨rows, Nat.lt_succ_self rows, by simpa using hrange⟩

end

end FacLpr
