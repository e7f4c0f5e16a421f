import FacLpr.Application.EngineDiagnostics
import FacLpr.Foundations.Threads
import Mathlib.Algebra.BigOperators.Group.List.Basic
import Mathlib.Data.List.Perm.Basic

/-!
# Application/DiagnosticsCounts — what the counters of an engine count

A counter adds up what the updates add to it, and a row summarises the samples of its stage
(`Reports`).  Neither sees the order of the updates, so whatever the interleaving, the threads of a
finished run have lost none of them (`published_of_done`).
-/

namespace FacLpr

namespace DiagnosticsState

/-! ## What the updates add up to -/

inductive Counter where
  | accepted
  | review
  | rejected
  | providerFailures
  deriving DecidableEq

variable {F D L : Type}

def Counter.value (s : DiagnosticsState D L) : Counter → UInt64
  | .accepted => s.accepted
  | .review => s.review
  | .rejected => s.rejected
  | .providerFailures => s.providerFailures

/-- The field of a snapshot. -/
def Counter.shown (snapshot : EngineDiagnosticsSnapshot D) : Counter → UInt64
  | .accepted => snapshot.accepted
  | .review => snapshot.review
  | .rejected => snapshot.rejected
  | .providerFailures => snapshot.providerFailures

/-- What an update adds to a counter. -/
def Counter.added : Counter → Update D → ℕ
  | .accepted, .recognition .accepted => 1
  | .review, .recognition .review => 1
  | .rejected, .recognition .rejected => 1
  | .providerFailures, .providerFailures count => count
  | _, _ => 0

def Counter.total (c : Counter) (updates : List (Update D)) : ℕ := (updates.map c.added).sum

theorem Counter.total_append (c : Counter) (before after : List (Update D)) :
    c.total (before ++ after) = c.total before + c.total after := by
  rw [total, List.map_append, List.sum_append, total, total]

theorem Counter.total_perm (c : Counter) {updates updates' : List (Update D)}
    (h : updates.Perm updates') : c.total updates = c.total updates' :=
  (h.map c.added).sum_eq

theorem Counter.total_take_le (c : Counter) (updates : List (Update D)) {m n : ℕ} (h : m ≤ n) :
    c.total (updates.take m) ≤ c.total (updates.take n) :=
  ((List.take_sublist_take_left h).map c.added).sum_le_sum fun _ _ => Nat.zero_le _

/-- The counter of a status. -/
def Counter.ofStatus : RecognitionStatus → Counter
  | .accepted => .accepted
  | .review => .review
  | .rejected => .rejected

theorem Counter.total_map_eq_zero {ι : Type} (c : Counter) {f : ι → Update D} {l : List ι}
    (h : ∀ a ∈ l, c.added (f a) = 0) : c.total (l.map f) = 0 := by
  rw [total, List.map_map]
  exact List.sum_eq_zero (List.forall_mem_map.mpr h)

/-- The recognitions of a result are counted by their status. -/
theorem total_ofStatus_publication (status : RecognitionStatus) (result : LprPipelineResult F D) :
    (Counter.ofStatus status).total (publication result) =
      result.recognitions.countP fun recognition => recognition.status = status := by
  have hcount (l : List (PlateRecognitionResult F D)) :
      (Counter.ofStatus status).total (l.map fun recognition => Update.recognition (D := D)
        recognition.status) = l.countP fun recognition => recognition.status = status := by
    induction l with
    | nil => rfl
    | cons recognition l ih =>
      rw [List.map_cons, List.countP_cons, ← ih, Counter.total, Counter.total, List.map_cons,
        List.sum_cons, add_comm]
      congr 1
      cases status <;> cases recognition.status <;> rfl
  have htimings : (Counter.ofStatus status).total (result.stageTimings.map fun timing =>
      Update.stageLatency timing.stage timing.latencyMs) = 0 :=
    Counter.total_map_eq_zero _ fun _ _ => by cases status <;> rfl
  rw [publication, Counter.total_append, hcount, ← List.singleton_append, Counter.total_append,
    htimings]
  cases status <;> rfl

/-- The samples of a stage that are kept, in order. -/
def samples [Scalar D] (stage : Text) (updates : List (Update D)) : List D :=
  updates.filterMap fun
    | .stageLatency stage' latencyMs =>
        if validSample stage' latencyMs ∧ stage' = stage then some latencyMs else none
    | _ => none

/-- The row of a stage with some samples, in exact arithmetic. -/
def rowOf (stage : Text) (samples : List ℚ) : StageLatencySummary ℚ where
  stage := stage
  count := UInt64.ofNat samples.length
  meanMs :=
    if UInt64.ofNat samples.length = 0 then 0
    else samples.sum / (UInt64.ofNat samples.length).toNat
  minMs := if UInt64.ofNat samples.length = 0 then 0 else samples.min?.getD 0
  maxMs := samples.foldl max 0

theorem rowOf_perm (stage : Text) {l l' : List ℚ} (h : l.Perm l') :
    rowOf stage l = rowOf stage l' := by
  have hmin : l.min? = l'.min? := by
    refine Option.ext fun a => ?_
    rw [List.min?_eq_some_iff, List.min?_eq_some_iff, h.mem_iff]
    exact and_congr_right fun _ => forall_congr' fun b => by rw [h.mem_iff]
  rw [rowOf, rowOf, h.length_eq, h.sum_eq, hmin, h.foldl_eq]

/-- **A snapshot reports some updates**: every counter is their total modulo `2 ^ 64`, and there is
one row for each stage with a sample, in the order of the stages. -/
structure Reports (updates : List (Update ℚ)) (snapshot : EngineDiagnosticsSnapshot ℚ) : Prop where
  counters : ∀ c : Counter, c.shown snapshot = UInt64.ofNat (c.total updates)
  sorted : snapshot.stageLatencies.Pairwise fun row row' => row.stage < row'.stage
  rows : ∀ row, row ∈ snapshot.stageLatencies ↔
    samples row.stage updates ≠ [] ∧ row = rowOf row.stage (samples row.stage updates)

/-- The order of the updates does not matter. -/
theorem Reports.perm {updates updates' : List (Update ℚ)} {snapshot : EngineDiagnosticsSnapshot ℚ}
    (h : Reports updates snapshot) (hperm : updates.Perm updates') : Reports updates' snapshot where
  counters c := by rw [h.counters, c.total_perm hperm]
  sorted := h.sorted
  rows row := by
    have hsamples : (samples row.stage updates).Perm (samples row.stage updates') :=
      hperm.filterMap _
    have hnil : samples row.stage updates = [] ↔ samples row.stage updates' = [] :=
      ⟨fun h => List.nil_perm.mp (h ▸ hsamples), fun h => List.perm_nil.mp (h ▸ hsamples)⟩
    rw [h.rows, rowOf_perm _ hsamples, Ne, hnil]

/-! ## What a state holds -/

/-- The state after some updates. -/
def after [Scalar D] [Scalar L] [WideScalar D L] (updates : List (Update D)) :
    DiagnosticsState D L :=
  updates.foldl update {}

theorem value_update [Scalar D] [Scalar L] [WideScalar D L] (c : Counter)
    (s : DiagnosticsState D L) (u : Update D) :
    c.value (s.update u) = c.value s + UInt64.ofNat (c.added u) := by
  cases u with
  | recognition status => cases status <;> cases c <;> simp [Counter.value, update,
      recordRecognition, Counter.added]
  | providerFailures count => cases c <;> simp [Counter.value, update, recordProviderFailures,
      Counter.added]
  | stageLatency stage latencyMs =>
    rw [update, recordStageLatency]
    split <;> cases c <;> simp [Counter.value, Counter.added]
  | _ => cases c <;> simp [Counter.value, update, setReadiness, setProviders, setModels,
      setWorkerQueue, setLastErrorSummary, Counter.added]

theorem value_after [Scalar D] [Scalar L] [WideScalar D L] (c : Counter)
    (updates : List (Update D)) :
    c.value (after updates : DiagnosticsState D L) = UInt64.ofNat (c.total updates) := by
  induction updates using List.reverseRecOn with
  | nil => cases c <;> rfl
  | append_singleton updates u ih =>
    rw [after, List.foldl_append, List.foldl_cons, List.foldl_nil, value_update, ← after, ih,
      ← UInt64.ofNat_add, Counter.total_append]
    rfl

/-- What is stored for a stage after some samples. -/
def accumulated [Scalar D] [Scalar L] [WideScalar D L] (samples : List D) :
    Option (LatencyAccumulator D L) :=
  samples.foldl (fun accumulator latencyMs => some ((accumulator.getD .fresh).add latencyMs)) none

theorem find?_after [Scalar D] [Scalar L] [WideScalar D L] (updates : List (Update D))
    (stage : Text) :
    (after updates : DiagnosticsState D L).stageLatencies.find? stage =
      accumulated (samples stage updates) := by
  induction updates using List.reverseRecOn with
  | nil => rfl
  | append_singleton updates u ih =>
    rw [after, List.foldl_append, List.foldl_cons, List.foldl_nil, ← after, samples,
      List.filterMap_append, ← samples, accumulated, List.foldl_append, ← accumulated, ← ih]
    cases u with
    | stageLatency stage' latencyMs =>
      rw [update, recordStageLatency]
      by_cases hvalid : validSample stage' latencyMs
      · rw [if_pos hvalid]
        by_cases hstage : stage' = stage
        · subst hstage
          rw [OrdMap.find?_upsert_self]
          simp [hvalid]
        · rw [OrdMap.find?_upsert_of_ne _ _ (Ne.symm hstage)]
          simp [hstage]
      · rw [if_neg hvalid]
        simp [hvalid]
    | recognition status => cases status <;> rfl
    | _ => rfl

theorem min?_concat (samples : List ℚ) (latencyMs : ℚ) :
    (samples ++ [latencyMs]).min? =
      some (match samples.min? with
        | none => latencyMs
        | some minMs => if latencyMs < minMs then latencyMs else minMs) := by
  cases samples with
  | nil => rfl
  | cons sample samples =>
    rw [List.cons_append, List.min?_cons', List.min?_cons', List.foldl_append]
    refine congrArg some ?_
    rw [List.foldl_cons, List.foldl_nil, min_comm, min_def_lt]

/-- **What is stored for a stage**, in exact arithmetic: the number of its samples, their sum and
their bounds. -/
theorem accumulated_rat {samples : List ℚ} (hnil : samples ≠ []) :
    accumulated (L := ℚ) samples = some ⟨UInt64.ofNat samples.length, samples.sum, samples.min?,
      samples.foldl max 0⟩ := by
  induction samples using List.reverseRecOn with
  | nil => exact absurd rfl hnil
  | append_singleton samples latencyMs ih =>
    rw [accumulated, List.foldl_append, ← accumulated, List.foldl_cons, List.foldl_nil,
      min?_concat, List.foldl_append, List.foldl_cons, List.foldl_nil, List.sum_append,
      List.sum_singleton, List.length_append, List.length_singleton, UInt64.ofNat_add, max_def_lt]
    by_cases hsamples : samples = []
    · subst hsamples
      rfl
    · rw [ih hsamples, Option.getD_some, LatencyAccumulator.add]
      cases samples.min? <;> congr

/-! ## A snapshot of one state -/

section

variable (std : StdSort) (order : HashOrder)

/-- `snapshot`, when nothing is recorded meanwhile. -/
def snapshot [Scalar D] [Scalar L] [WideScalar D L] (s : DiagnosticsState D L) :
    EngineDiagnosticsSnapshot D :=
  s.copyGuarded std order { accepted := s.accepted, review := s.review, rejected := s.rejected,
                            providerFailures := s.providerFailures }

theorem strictWeakOrder_stage : StrictWeakOrder fun left right : StageLatencySummary D =>
    decide (left.stage < right.stage) := by
  have hkey := strictWeakOrder_key (StageLatencySummary.stage (D := D))
  convert hkey

/-- The rows of a copy are those of the updates before it. -/
theorem rows_copyGuarded_after (updates : List (Update ℚ)) (result : EngineDiagnosticsSnapshot ℚ) :
    ((after updates : DiagnosticsState ℚ ℚ).copyGuarded std order result).stageLatencies.Pairwise
        (fun row row' => row.stage < row'.stage) ∧
      ∀ row, row ∈ ((after updates : DiagnosticsState ℚ ℚ).copyGuarded std order
          result).stageLatencies ↔
        samples row.stage updates ≠ [] ∧ row = rowOf row.stage (samples row.stage updates) := by
  have hentries := (after updates : DiagnosticsState ℚ ℚ).stageLatencies.sorted
  have hvisited := order.perm (after updates : DiagnosticsState ℚ ℚ).stageLatencies.entries
  have hsorted := std.perm (fun left right => decide (left.stage < right.stage))
    ((order.visit (after updates : DiagnosticsState ℚ ℚ).stageLatencies.entries).map
      fun entry => entry.2.summary entry.1)
  refine ⟨?_, fun row => ?_⟩
  · -- the keys are distinct, so rows that are not out of order are in order
    have hdistinct : ((order.visit
        (after updates : DiagnosticsState ℚ ℚ).stageLatencies.entries).map
          fun entry => entry.2.summary entry.1).Pairwise fun row row' => row.stage ≠ row'.stage :=
      List.pairwise_map.mpr ((hvisited.pairwise_iff fun h => Ne.symm h).mpr
        (hentries.imp fun h => ne_of_lt h))
    have hordered := std.pairwise (strictWeakOrder_stage (D := ℚ))
      ((order.visit (after updates : DiagnosticsState ℚ ℚ).stageLatencies.entries).map
        fun entry => entry.2.summary entry.1)
    refine (hordered.and ((hsorted.pairwise_iff fun h => Ne.symm h).mpr hdistinct)).imp ?_
    rintro row row' ⟨hle, hne⟩
    exact lt_of_le_of_ne (not_lt.mp (of_decide_eq_false hle)) hne
  · rw [copyGuarded, hsorted.mem_iff, List.mem_map]
    constructor
    · rintro ⟨⟨stage, accumulator⟩, hentry, rfl⟩
      have hfind := OrdMap.mem_entries.mp (hvisited.mem_iff.mp hentry)
      rw [find?_after] at hfind
      have hnil : samples stage updates ≠ [] := by
        intro hnil
        rw [hnil] at hfind
        cases hfind
      rw [accumulated_rat hnil] at hfind
      obtain rfl := Option.some.inj hfind
      exact ⟨hnil, rfl⟩
    · rintro ⟨hnil, hrow⟩
      refine ⟨(row.stage, ⟨UInt64.ofNat (samples row.stage updates).length,
        (samples row.stage updates).sum, (samples row.stage updates).min?,
        (samples row.stage updates).foldl max 0⟩), ?_, hrow.symm⟩
      refine hvisited.mem_iff.mpr (OrdMap.mem_entries.mpr ?_)
      rw [find?_after, accumulated_rat hnil]

theorem reports_snapshot_after (updates : List (Update ℚ)) :
    Reports updates ((after updates : DiagnosticsState ℚ ℚ).snapshot std order) where
  counters c := by
    rw [← value_after (L := ℚ) c updates]
    cases c <;> rfl
  sorted := (rows_copyGuarded_after std order updates _).1
  rows := (rows_copyGuarded_after std order updates _).2

end

/-! ## Runs -/

def Call.update? : Call D → Option (Update D)
  | .update u => some u
  | .snapshot => none

/-- The updates of some calls, in order. -/
def updatesOf (calls : List (Call D)) : List (Update D) := calls.filterMap Call.update?

section

variable [Scalar D] [Scalar L] [WideScalar D L] {std : StdSort} {order : HashOrder}

/-- **What a step can do**: a thread makes its next update, or goes one statement on in its
snapshot. -/
theorem step_effect {shared shared' : Shared D L} {i : ℕ}
    (h : step std order shared i = some shared') :
    ∃ t, shared.threads[i]? = some t ∧
      ((∃ u rest, t.calls = .update u :: rest ∧
          shared' = ⟨shared.state.update u, shared.threads.set i { t with calls := rest },
            shared.log ++ [u]⟩) ∨
        ∃ rest, t.calls = .snapshot :: rest ∧ shared' = { shared with
          threads := shared.threads.set i (t.read std order shared.state rest) }) := by
  obtain ⟨t, ht, hstep⟩ := Option.bind_eq_some_iff.mp h
  refine ⟨t, ht, ?_⟩
  split at hstep
  · cases hstep
  · rename_i u rest hcalls
    exact .inl ⟨u, rest, hcalls, (Option.some.inj hstep).symm⟩
  · rename_i rest hcalls
    exact .inr ⟨rest, hcalls, (Option.some.inj hstep).symm⟩

/-- A reader still has the updates behind its snapshot to make. -/
theorem updatesOf_read {t : Thread D} {rest : List (Call D)} (hcalls : t.calls = .snapshot :: rest)
    (s : DiagnosticsState D L) :
    updatesOf (t.read std order s rest).calls = updatesOf t.calls := by
  have hrest : updatesOf (Call.snapshot :: rest) = updatesOf rest := rfl
  rw [Thread.read]
  split <;> simp only [hcalls, hrest]

/-- **The log is the state, and what it lacks is still to come.** -/
structure Logged (updates : List (Update D)) (shared : Shared D L) : Prop where
  state : shared.state = after shared.log
  kept : (shared.log ++ shared.threads.flatMap fun t => updatesOf t.calls).Perm updates

theorem logged_start (threads : List (List (Call D))) :
    Logged (threads.flatMap updatesOf) (Shared.start threads : Shared D L) where
  state := rfl
  kept := by
    rw [Shared.start, List.nil_append, List.flatMap_map]

theorem Logged.step {updates : List (Update D)} {shared shared' : Shared D L} {i : ℕ}
    (hlogged : Logged updates shared) (h : step std order shared i = some shared') :
    Logged updates shared' := by
  obtain ⟨t, ht, ⟨u, rest, hcalls, rfl⟩ | ⟨rest, hcalls, rfl⟩⟩ := step_effect h
  · refine ⟨?_, .trans ?_ hlogged.kept⟩
    · rw [after, List.foldl_append, ← after, ← hlogged.state]
      rfl
    · have hset := perm_flatMap_set ht { t with calls := rest } fun t => updatesOf t.calls
      have hhead : updatesOf t.calls = u :: updatesOf rest := by
        rw [hcalls]
        rfl
      rw [hhead, List.cons_append, ← List.cons_append] at hset
      rw [List.append_assoc, List.singleton_append]
      refine List.Perm.append_left _ ?_
      exact (List.perm_append_left_iff (updatesOf rest)).mp
        ((List.perm_middle).trans hset)
  · refine ⟨hlogged.state, .trans (List.Perm.append_left _ ?_) hlogged.kept⟩
    have hset := perm_flatMap_set ht (t.read std order shared.state rest) fun t => updatesOf t.calls
    simp only [updatesOf_read hcalls] at hset
    exact (List.perm_append_left_iff _).mp hset

theorem logged_of_run {threads : List (List (Call D))} {schedule : List ℕ} {shared : Shared D L}
    (h : runSteps (step std order) (.start threads) schedule = some shared) :
    Logged (threads.flatMap updatesOf) shared :=
  runSteps_invariant (fun _ _ _ hlogged hstep => hlogged.step hstep) (logged_start threads) h

end

/-- However the threads were interleaved, a snapshot after all of them reports every update of every
thread once. -/
theorem reports_of_run {std : StdSort} {order : HashOrder} {threads : List (List (Call ℚ))}
    {schedule : List ℕ} {shared : Shared ℚ ℚ}
    (h : runSteps (step std order) (.start threads) schedule = some shared) (hdone : shared.Done) :
    Reports (threads.flatMap updatesOf) (shared.state.snapshot std order) := by
  have hlogged := logged_of_run h
  have hnone : (shared.threads.flatMap fun t => updatesOf t.calls) = [] := by
    refine List.flatMap_eq_nil_iff.mpr fun t ht => ?_
    rw [hdone t ht]
    rfl
  have hkept := hlogged.kept
  rw [hnone, List.append_nil] at hkept
  rw [hlogged.state]
  exact (reports_snapshot_after std order shared.log).perm hkept

/-! ## Pipelines that publish -/

/-- **A pipeline that publishes its results** makes these calls, one result after the other. -/
theorem publishDiagnostics_results [Scalar D] [Scalar L] [WideScalar D L]
    (results : List (LprPipelineResult F D)) (s : DiagnosticsState D L) :
    results.forM (LprPipeline.publishDiagnostics (some service)) s =
      .ok () ((results.flatMap publication).foldl update s) := by
  induction results generalizing s with
  | nil => rfl
  | cons result results ih =>
    rw [List.flatMap_cons, List.foldl_append]
    exact Program.bind_eq_ok.mpr ⟨(), _, publishDiagnostics_service result s, ih _⟩

/-- The threads of some pipelines, each with the results it publishes, and of some readers, each
with the number of snapshots it takes. -/
def serving (pipelines : List (List (LprPipelineResult F D))) (readers : List ℕ) :
    List (List (Call D)) :=
  pipelines.map (fun results => (results.flatMap publication).map .update) ++
    readers.map fun n => .replicate n .snapshot

theorem updatesOf_serving (pipelines : List (List (LprPipelineResult F D))) (readers : List ℕ) :
    (serving pipelines readers).flatMap updatesOf = pipelines.flatten.flatMap publication := by
  have hwriters (updates : List (Update D)) : updatesOf (updates.map .update) = updates :=
    List.filterMap_map.trans List.filterMap_some
  have hreaders : (readers.map fun n => List.replicate n Call.snapshot).flatMap
      (updatesOf (D := D)) = [] := by
    refine List.flatMap_eq_nil_iff.mpr fun calls hcalls => List.filterMap_eq_nil_iff.mpr ?_
    intro call hcall
    obtain ⟨n, -, rfl⟩ := List.mem_map.mp hcalls
    rw [List.eq_of_mem_replicate hcall]
    rfl
  rw [serving, List.flatMap_append, hreaders, List.append_nil, List.flatMap_map]
  simp only [hwriters]
  rw [← List.flatMap_id, List.flatMap_assoc]
  rfl

/-- The latencies some results report for a stage, of those that are kept. -/
def latencies [Scalar D] (stage : Text) (results : List (LprPipelineResult F D)) : List D :=
  (results.flatMap LprPipelineResult.stageTimings).filterMap fun timing =>
    if validSample timing.stage timing.latencyMs ∧ timing.stage = stage then some timing.latencyMs
    else none

theorem samples_publication [Scalar D] (stage : Text) (results : List (LprPipelineResult F D)) :
    samples stage (results.flatMap publication) = latencies stage results := by
  have hone (result : LprPipelineResult F D) : samples stage (publication result) =
      result.stageTimings.filterMap fun timing =>
        if validSample timing.stage timing.latencyMs ∧ timing.stage = stage
        then some timing.latencyMs else none := by
    have hrecognitions : (result.recognitions.map fun recognition =>
        Update.recognition (D := D) recognition.status).filterMap (fun
          | .stageLatency stage' latencyMs =>
              if validSample stage' latencyMs ∧ stage' = stage then some latencyMs else none
          | _ => none) = [] := by
      refine List.filterMap_eq_nil_iff.mpr fun u hu => ?_
      obtain ⟨recognition, -, rfl⟩ := List.mem_map.mp hu
      rfl
    rw [publication, samples, List.filterMap_append, hrecognitions, List.nil_append,
      List.filterMap_cons_none rfl, List.filterMap_map]
    rfl
  induction results with
  | nil => rfl
  | cons result results ih =>
    rw [List.flatMap_cons, samples, List.filterMap_append, ← samples, ← samples, hone, ih,
      latencies, latencies, List.flatMap_cons, List.filterMap_append]

theorem total_ofStatus_publications (status : RecognitionStatus)
    (results : List (LprPipelineResult F D)) :
    (Counter.ofStatus status).total (results.flatMap publication) =
      (results.flatMap LprPipelineResult.recognitions).countP fun recognition =>
        recognition.status = status := by
  induction results with
  | nil => rfl
  | cons result results ih =>
    rw [List.flatMap_cons, Counter.total_append, ih, total_ofStatus_publication, List.flatMap_cons,
      List.countP_append]

theorem total_providerFailures_publications (results : List (LprPipelineResult F D)) :
    Counter.providerFailures.total (results.flatMap publication) =
      (results.map LprPipelineResult.providerFailureCount).sum := by
  induction results with
  | nil => rfl
  | cons result results ih =>
    have hone : Counter.providerFailures.total (publication result) =
        result.providerFailureCount := by
      rw [publication, Counter.total_append, Counter.total_map_eq_zero _ fun _ _ => rfl,
        ← List.singleton_append, Counter.total_append, Counter.total_map_eq_zero _ fun _ _ => rfl]
      simp [Counter.total, Counter.added]
    rw [List.flatMap_cons, Counter.total_append, ih, hone, List.map_cons, List.sum_cons]

/-- **No publication is lost**: however some pipelines and readers were interleaved, a snapshot
after all of them counts every recognition and every failure of every result once, and has for each
stage the row of the latencies the results report for it. -/
theorem published_of_done {std : StdSort} {order : HashOrder}
    {pipelines : List (List (LprPipelineResult F ℚ))} {readers schedule : List ℕ}
    {shared : Shared ℚ ℚ}
    (h : runSteps (step std order) (.start (serving pipelines readers)) schedule = some shared)
    (hdone : shared.Done) :
    let results := pipelines.flatten
    let snapshot := shared.state.snapshot std order
    (∀ status, (Counter.ofStatus status).shown snapshot = UInt64.ofNat
      ((results.flatMap LprPipelineResult.recognitions).countP fun recognition =>
        recognition.status = status)) ∧
    snapshot.providerFailures =
      UInt64.ofNat (results.map LprPipelineResult.providerFailureCount).sum ∧
    snapshot.stageLatencies.Pairwise (fun row row' => row.stage < row'.stage) ∧
    ∀ row, row ∈ snapshot.stageLatencies ↔
      latencies row.stage results ≠ [] ∧ row = rowOf row.stage (latencies row.stage results) := by
  have hreports := reports_of_run h hdone
  rw [updatesOf_serving] at hreports
  refine ⟨fun status => ?_, ?_, hreports.sorted, fun row => ?_⟩
  · rw [hreports.counters, total_ofStatus_publications]
  · rw [← total_providerFailures_publications]
    exact hreports.counters .providerFailures
  · rw [hreports.rows, samples_publication]

/-! ## Two pipelines and a reader -/

/-- One accepted plate, read in a stage of `4` milliseconds. -/
def sampleResult : LprPipelineResult ℚ ℚ where
  recognitions := [⟨.accepted, ascii "34ABC123", 1, none, none, 1, 1, 1, [], [], [], false, 4⟩]
  stageTimings := [⟨ascii "fusion", 0, 0, 4⟩]
  failures := []
  totalLatencyMs := 4
  providerFailureCount := 3
  degraded := false

def sampleServing : List (List (Call ℚ)) := serving [[sampleResult], [sampleResult]] [2]

/-- The reader is overtaken in the middle of both its snapshots. -/
def sampleSchedule : List ℕ := [2, 0, 2, 2, 1, 2, 2, 2, 0, 2, 2, 1, 2, 2, 0, 1]

def sampleEnd : Shared ℚ ℚ :=
  (runSteps (step .stable .keys) (.start sampleServing) sampleSchedule).getD (.start [])

theorem runSteps_sampleServing :
    runSteps (step .stable .keys) (.start sampleServing) sampleSchedule = some sampleEnd := rfl

theorem published_sampleEnd :
    (sampleEnd.state.snapshot .stable .keys).accepted = 2 ∧
      (sampleEnd.state.snapshot .stable .keys).providerFailures = 6 := by
  have h := published_of_done runSteps_sampleServing (by unfold Shared.Done; decide)
  exact ⟨h.1 .accepted, h.2.1⟩

end DiagnosticsState

end FacLpr
