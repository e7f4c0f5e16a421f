import FacLpr.Application.DiagnosticsCounts

/-!
# Application/DiagnosticsSnapshots — a snapshot while others record

A snapshot taken while others record is not the state at one moment: it is put together from five
(`Moments`).  The moments of one thread follow each other, so nothing it reads ever goes back
(`returned_grows`).
-/

namespace FacLpr

namespace DiagnosticsState

variable {D L : Type}

/-! ## Snapshots among updates -/

/-- How many updates there were at each statement of a call of `snapshot`. -/
structure Moments where
  accepted : ℕ
  review : ℕ
  rejected : ℕ
  providerFailures : ℕ
  copy : ℕ

namespace Moments

def list (m : Moments) : List ℕ := [m.accepted, m.review, m.rejected, m.providerFailures, m.copy]

/-- The moment a counter was loaded at. -/
def loaded (m : Moments) : Counter → ℕ
  | .accepted => m.accepted
  | .review => m.review
  | .rejected => m.rejected
  | .providerFailures => m.providerFailures

end Moments

section

variable [Scalar D] [Scalar L] [WideScalar D L] {std : StdSort} {order : HashOrder}

/-- The snapshot that is read at some moments of a log. -/
def Moments.seen (L : Type) [Scalar L] [WideScalar D L] (std : StdSort) (order : HashOrder)
    (log : List (Update D)) (m : Moments) : EngineDiagnosticsSnapshot D :=
  (after (log.take m.copy) : DiagnosticsState D L).copyGuarded std order
    { accepted := (after (log.take m.accepted) : DiagnosticsState D L).accepted
      review := (after (log.take m.review) : DiagnosticsState D L).review
      rejected := (after (log.take m.rejected) : DiagnosticsState D L).rejected
      providerFailures :=
        (after (log.take m.providerFailures) : DiagnosticsState D L).providerFailures }

/-- A snapshot under way, and the moments it has been read at. -/
inductive Loading (L : Type) [Scalar L] [WideScalar D L] (log : List (Update D)) :
    SnapshotLine → EngineDiagnosticsSnapshot D → List ℕ → Prop
  | loadAccepted : Loading L log .loadAccepted {} []
  | loadReview (a : ℕ) : Loading L log .loadReview
      { accepted := (after (log.take a) : DiagnosticsState D L).accepted } [a]
  | loadRejected (a r : ℕ) : Loading L log .loadRejected
      { accepted := (after (log.take a) : DiagnosticsState D L).accepted
        review := (after (log.take r) : DiagnosticsState D L).review } [a, r]
  | loadProviderFailures (a r j : ℕ) : Loading L log .loadProviderFailures
      { accepted := (after (log.take a) : DiagnosticsState D L).accepted
        review := (after (log.take r) : DiagnosticsState D L).review
        rejected := (after (log.take j) : DiagnosticsState D L).rejected } [a, r, j]
  | copy (a r j p : ℕ) : Loading L log .copy
      { accepted := (after (log.take a) : DiagnosticsState D L).accepted
        review := (after (log.take r) : DiagnosticsState D L).review
        rejected := (after (log.take j) : DiagnosticsState D L).rejected
        providerFailures := (after (log.take p) : DiagnosticsState D L).providerFailures }
      [a, r, j, p]

/-- What a moment saw does not change when the log grows. -/
theorem Loading.append {log : List (Update D)} {line : SnapshotLine}
    {result : EngineDiagnosticsSnapshot D} {marks : List ℕ} (h : Loading L log line result marks)
    (hmarks : ∀ n ∈ marks, n ≤ log.length) (u : Update D) :
    Loading L (log ++ [u]) line result marks := by
  have htake {n : ℕ} (hn : n ∈ marks) : log.take n = (log ++ [u]).take n :=
    (List.take_append_of_le_length (hmarks n hn)).symm
  cases h with
  | loadAccepted => exact .loadAccepted
  | loadReview a =>
    rw [htake (n := a) (by simp)]
    exact .loadReview a
  | loadRejected a r =>
    rw [htake (n := a) (by simp), htake (n := r) (by simp)]
    exact .loadRejected a r
  | loadProviderFailures a r j =>
    rw [htake (n := a) (by simp), htake (n := r) (by simp), htake (n := j) (by simp)]
    exact .loadProviderFailures a r j
  | copy a r j p =>
    rw [htake (n := a) (by simp), htake (n := r) (by simp), htake (n := j) (by simp),
      htake (n := p) (by simp)]
    exact .copy a r j p

theorem Moments.seen_append {log : List (Update D)} {m : Moments}
    (hm : ∀ n ∈ m.list, n ≤ log.length) (u : Update D) :
    m.seen L std order (log ++ [u]) = m.seen L std order log := by
  have htake {n : ℕ} (hn : n ∈ m.list) : (log ++ [u]).take n = log.take n :=
    List.take_append_of_le_length (hm n hn)
  rw [Moments.seen, htake (n := m.copy) (by simp [Moments.list]),
    htake (n := m.accepted) (by simp [Moments.list]),
    htake (n := m.review) (by simp [Moments.list]),
    htake (n := m.rejected) (by simp [Moments.list]),
    htake (n := m.providerFailures) (by simp [Moments.list])]
  rfl

/-- **A thread's snapshots were read at moments in order**, and so is the one under way. -/
structure Thread.Observes (L : Type) [Scalar L] [WideScalar D L] (std : StdSort) (order : HashOrder)
    (log : List (Update D)) (t : Thread D) (seen : List Moments) (marks : List ℕ) : Prop where
  returned : t.returned = seen.map (Moments.seen L std order log)
  loading : Loading L log t.line t.result marks
  ascending : (seen.flatMap Moments.list ++ marks ++ [log.length]).Pairwise (· ≤ ·)

theorem Thread.Observes.le_length {log : List (Update D)} {t : Thread D} {seen : List Moments}
    {marks : List ℕ} (h : t.Observes L std order log seen marks) {n : ℕ}
    (hn : n ∈ seen.flatMap Moments.list ++ marks) : n ≤ log.length :=
  (List.pairwise_append.mp h.ascending).2.2 n hn _ List.mem_cons_self

/-- Another thread's update. -/
theorem Thread.Observes.append {log : List (Update D)} {t : Thread D} {seen : List Moments}
    {marks : List ℕ} (h : t.Observes L std order log seen marks) (u : Update D) :
    t.Observes L std order (log ++ [u]) seen marks where
  returned := by
    refine h.returned.trans (List.map_congr_left fun m hm => ?_)
    exact (Moments.seen_append (fun n hn => h.le_length
      (List.mem_append_left _ (List.mem_flatMap.mpr ⟨m, hm, hn⟩))) u).symm
  loading := h.loading.append (fun n hn => h.le_length (List.mem_append_right _ hn)) u
  ascending := by
    obtain ⟨hbefore, -, -⟩ := List.pairwise_append.mp h.ascending
    refine List.pairwise_append.mpr ⟨hbefore, List.pairwise_singleton _ _, fun n hn m hm => ?_⟩
    obtain rfl := List.mem_singleton.mp hm
    exact (h.le_length hn).trans (by simp)

/-- Its own statement of `snapshot`. -/
theorem Thread.Observes.read {log : List (Update D)} {t : Thread D} {seen : List Moments}
    {marks : List ℕ} (h : t.Observes L std order log seen marks) (rest : List (Call D)) :
    ∃ seen' marks', (t.read std order (after log : DiagnosticsState D L) rest).Observes L std order
      log seen' marks' := by
  obtain ⟨calls, line, result, returned⟩ := t
  obtain ⟨hreturned, hloading, hascending⟩ := h
  have hgrown : (seen.flatMap Moments.list ++ (marks ++ [log.length]) ++ [log.length]).Pairwise
      (· ≤ ·) := by
    rw [← List.append_assoc]
    refine List.pairwise_append.mpr ⟨hascending, List.pairwise_singleton _ _, fun n hn m hm => ?_⟩
    obtain rfl := List.mem_singleton.mp hm
    rcases List.mem_append.mp hn with hn | hn
    · exact (List.pairwise_append.mp hascending).2.2 n hn _ List.mem_cons_self
    · exact (List.mem_singleton.mp hn).le
  cases hloading with
  | loadAccepted =>
    have hnext : Loading L log _ _ _ := .loadReview log.length
    rw [List.take_length] at hnext
    exact ⟨seen, _, hreturned, hnext, hgrown⟩
  | loadReview a =>
    have hnext : Loading L log _ _ _ := .loadRejected a log.length
    rw [List.take_length] at hnext
    exact ⟨seen, _, hreturned, hnext, hgrown⟩
  | loadRejected a r =>
    have hnext : Loading L log _ _ _ := .loadProviderFailures a r log.length
    rw [List.take_length] at hnext
    exact ⟨seen, _, hreturned, hnext, hgrown⟩
  | loadProviderFailures a r j =>
    have hnext : Loading L log _ _ _ := .copy a r j log.length
    rw [List.take_length] at hnext
    exact ⟨seen, _, hreturned, hnext, hgrown⟩
  | copy a r j p =>
    refine ⟨seen ++ [⟨a, r, j, p, log.length⟩], [], ?_, .loadAccepted, ?_⟩
    · rw [List.map_append, ← hreturned]
      simp [Thread.read, Moments.seen]
    · rw [List.flatMap_append, List.append_nil, List.flatMap_singleton, Moments.list]
      exact hgrown

/-- **Every thread observes the log**, and the log is the state. -/
structure Consistent (updates : List (Update D)) (std : StdSort) (order : HashOrder)
    (shared : Shared D L) : Prop where
  logged : Logged updates shared
  observes : ∀ t ∈ shared.threads, ∃ seen marks, t.Observes L std order shared.log seen marks

theorem Consistent.step {updates : List (Update D)} {shared shared' : Shared D L} {i : ℕ}
    (hconsistent : Consistent updates std order shared)
    (h : step std order shared i = some shared') : Consistent updates std order shared' := by
  refine ⟨hconsistent.logged.step h, ?_⟩
  obtain ⟨t, ht, ⟨u, rest, hcalls, rfl⟩ | ⟨rest, hcalls, rfl⟩⟩ := step_effect h
  · intro t' ht'
    rcases List.mem_or_eq_of_mem_set ht' with ht' | rfl
    · obtain ⟨seen, marks, hobserves⟩ := hconsistent.observes t' ht'
      exact ⟨seen, marks, hobserves.append u⟩
    · obtain ⟨seen, marks, hobserves⟩ := hconsistent.observes t (List.mem_of_getElem? ht)
      have hgrown := hobserves.append u
      exact ⟨seen, marks, hgrown.returned, hgrown.loading, hgrown.ascending⟩
  · intro t' ht'
    rcases List.mem_or_eq_of_mem_set ht' with ht' | rfl
    · exact hconsistent.observes t' ht'
    · obtain ⟨seen, marks, hobserves⟩ := hconsistent.observes t (List.mem_of_getElem? ht)
      rw [hconsistent.logged.state]
      exact hobserves.read rest

theorem consistent_of_run {threads : List (List (Call D))} {schedule : List ℕ}
    {shared : Shared D L} (h : runSteps (step std order) (.start threads) schedule = some shared) :
    Consistent (threads.flatMap updatesOf) std order shared := by
  refine runSteps_invariant (fun _ _ _ hconsistent hstep => hconsistent.step hstep)
    ⟨logged_start threads, fun t ht => ?_⟩ h
  obtain ⟨calls, -, rfl⟩ := List.mem_map.mp ht
  exact ⟨[], [], rfl, .loadAccepted, List.pairwise_singleton _ _⟩

end

/-! ## Nothing goes back -/

/-- Every counter has grown, and every row stands for more samples. -/
def Grows (earlier later : EngineDiagnosticsSnapshot ℚ) : Prop :=
  (∀ c : Counter, c.shown earlier ≤ c.shown later) ∧
    ∀ row ∈ earlier.stageLatencies, ∃ row' ∈ later.stageLatencies, row'.stage = row.stage ∧
      row.count ≤ row'.count ∧ row'.minMs ≤ row.minMs ∧ row.maxMs ≤ row'.maxMs

theorem ofNat_le_ofNat {m n : ℕ} (h : m ≤ n) (hn : n < 2 ^ 64) :
    UInt64.ofNat m ≤ UInt64.ofNat n := by
  rw [UInt64.le_iff_toNat_le, UInt64.toNat_ofNat_of_lt' (lt_of_le_of_lt h hn),
    UInt64.toNat_ofNat_of_lt' hn]
  exact h

theorem ofNat_length_ne_zero {l : List ℚ} (hnil : l ≠ []) (hl : l.length < 2 ^ 64) :
    UInt64.ofNat l.length ≠ 0 := by
  intro h
  have hzero := congrArg UInt64.toNat h
  rw [UInt64.toNat_ofNat_of_lt' hl] at hzero
  exact hnil (List.length_eq_zero_iff.mp hzero)

theorem minMs_rowOf (stage : Text) {l : List ℚ} (hnil : l ≠ []) (hl : l.length < 2 ^ 64) :
    l.min? = some (rowOf stage l).minMs := by
  obtain ⟨a, ha⟩ := Option.ne_none_iff_exists'.mp (mt List.min?_eq_none_iff.mp hnil)
  simp only [rowOf, if_neg (ofNat_length_ne_zero hnil hl), ha, Option.getD_some]

/-- A row with more samples. -/
theorem rowOf_append (stage : Text) {l : List ℚ} (l' : List ℚ) (hnil : l ≠ [])
    (hlength : (l ++ l').length < 2 ^ 64) :
    (rowOf stage l).count ≤ (rowOf stage (l ++ l')).count ∧
      (rowOf stage (l ++ l')).minMs ≤ (rowOf stage l).minMs ∧
      (rowOf stage l).maxMs ≤ (rowOf stage (l ++ l')).maxMs := by
  have hle : l.length ≤ (l ++ l').length := by simp
  refine ⟨ofNat_le_ofNat hle hlength, ?_, ?_⟩
  · have hmin := List.min?_eq_some_iff.mp
      (minMs_rowOf stage hnil (lt_of_le_of_lt hle hlength))
    have hmin' := List.min?_eq_some_iff.mp
      (minMs_rowOf stage (l := l ++ l') (by simp [hnil]) hlength)
    exact hmin'.2 _ (List.mem_append_left _ hmin.1)
  · rw [rowOf, rowOf, List.foldl_append]
    exact (le_max_left _ _).trans_eq List.foldl_max.symm

theorem shown_seen (std : StdSort) (order : HashOrder) (log : List (Update ℚ)) (m : Moments)
    (c : Counter) :
    c.shown (m.seen ℚ std order log) = UInt64.ofNat (c.total (log.take (m.loaded c))) := by
  rw [← value_after (L := ℚ) c]
  cases c <;> rfl

/-- Later moments see more. -/
theorem grows_seen (std : StdSort) (order : HashOrder) {log : List (Update ℚ)}
    (hcounters : ∀ c : Counter, c.total log < 2 ^ 64) (hlength : log.length < 2 ^ 64)
    {m m' : Moments} (hm : ∀ x ∈ m.list, ∀ y ∈ m'.list, x ≤ y) :
    Grows (m.seen ℚ std order log) (m'.seen ℚ std order log) := by
  refine ⟨fun c => ?_, fun row hrow => ?_⟩
  · rw [shown_seen, shown_seen]
    have hloaded : m.loaded c ≤ m'.loaded c := by
      cases c <;> exact hm _ (by simp [Moments.list, Moments.loaded]) _
        (by simp [Moments.list, Moments.loaded])
    have hlog : c.total (log.take (m'.loaded c)) ≤ c.total log :=
      ((List.take_sublist _ _).map c.added).sum_le_sum fun _ _ => Nat.zero_le _
    exact ofNat_le_ofNat (c.total_take_le log hloaded) (lt_of_le_of_lt hlog (hcounters c))
  · have hcopy : m.copy ≤ m'.copy := hm _ (by simp [Moments.list]) _ (by simp [Moments.list])
    obtain ⟨before, hbefore⟩ : log.take m.copy <+: log.take m'.copy :=
      List.take_prefix_take_left hcopy
    obtain ⟨hnil, hrow⟩ := ((rows_copyGuarded_after std order (log.take m.copy) _).2 row).mp hrow
    have hsamples : samples row.stage (log.take m'.copy) =
        samples row.stage (log.take m.copy) ++ samples row.stage before := by
      rw [← hbefore, samples, List.filterMap_append]
      rfl
    have hshort : (samples row.stage (log.take m'.copy)).length < 2 ^ 64 :=
      lt_of_le_of_lt ((List.length_filterMap_le _ _).trans (List.length_take_le' _ _)) hlength
    refine ⟨rowOf row.stage (samples row.stage (log.take m'.copy)), ?_, rfl, ?_⟩
    · refine ((rows_copyGuarded_after std order (log.take m'.copy) _).2 _).mpr ⟨?_, rfl⟩
      change samples row.stage (log.take m'.copy) ≠ []
      rw [hsamples]
      simp [hnil]
    · rw [hsamples] at hshort ⊢
      have hgrown := rowOf_append row.stage (samples row.stage before) hnil hshort
      rw [← hrow] at hgrown
      exact hgrown

/-- **Nothing a thread reads goes back**: in any interleaving, each of its snapshots has grown from
the one before, and the engine's state from all of them. -/
theorem returned_grows {std : StdSort} {order : HashOrder} {threads : List (List (Call ℚ))}
    (hcounters : ∀ c : Counter, c.total (threads.flatMap updatesOf) < 2 ^ 64)
    (hlength : (threads.flatMap updatesOf).length < 2 ^ 64) {schedule : List ℕ}
    {shared : Shared ℚ ℚ}
    (h : runSteps (step std order) (.start threads) schedule = some shared) {t : Thread ℚ}
    (ht : t ∈ shared.threads) :
    (t.returned ++ [shared.state.snapshot std order]).Pairwise Grows := by
  have hconsistent := consistent_of_run h
  obtain ⟨seen, marks, hobserves⟩ := hconsistent.observes t ht
  have hkept := hconsistent.logged.kept
  have hcounters' (c : Counter) : c.total shared.log < 2 ^ 64 := by
    have htotal := c.total_append shared.log (shared.threads.flatMap fun t => updatesOf t.calls)
    rw [c.total_perm hkept] at htotal
    have := hcounters c
    omega
  have hlength' : shared.log.length < 2 ^ 64 := by
    have hlog := hkept.length_eq
    rw [List.length_append] at hlog
    omega
  let now : Moments := ⟨shared.log.length, shared.log.length, shared.log.length, shared.log.length,
    shared.log.length⟩
  have hnow : shared.state.snapshot std order = now.seen ℚ std order shared.log := by
    rw [hconsistent.logged.state, Moments.seen]
    simp only [now, List.take_length]
    rfl
  rw [hobserves.returned, hnow, ← List.map_singleton, ← List.map_append, List.pairwise_map]
  have hpairs := (List.pairwise_append.mp (List.pairwise_append.mp hobserves.ascending).1).1
  refine List.Pairwise.imp (fun hm => grows_seen std order hcounters' hlength' hm)
    (List.pairwise_append.mpr ⟨(List.pairwise_flatMap.mp hpairs).2, List.pairwise_singleton _ _,
      fun m hm m' hm' x hx y hy => ?_⟩)
  obtain rfl := List.mem_singleton.mp hm'
  have hy : y = shared.log.length := by simpa [now, Moments.list] using hy
  rw [hy]
  exact hobserves.le_length (List.mem_append_left _ (List.mem_flatMap.mpr ⟨m, hm, hx⟩))

def sampleReader : Thread ℚ := sampleEnd.threads.getD 2 { calls := [] }

theorem returned_grows_sampleEnd : sampleReader.returned.length = 2 ∧
    (sampleReader.returned ++ [sampleEnd.state.snapshot .stable .keys]).Pairwise Grows := by
  have hreader : sampleEnd.threads[2]? = some sampleReader := rfl
  exact ⟨rfl, returned_grows (fun c => by cases c <;> decide) (by decide) runSteps_sampleServing
    (List.mem_of_getElem? hreader)⟩

end DiagnosticsState

end FacLpr
