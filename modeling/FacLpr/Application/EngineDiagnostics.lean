import FacLpr.Application.StartupSelfTest
import FacLpr.Foundations.OrdMap
import FacLpr.Foundations.StableSort
import FacLpr.Foundations.Transition

/-!
# Application/EngineDiagnostics — the counters of an engine, shared by its threads

The counters are atomics and everything else is behind one mutex, so a call that records is one step
of its thread.  A call of `snapshot` is five: four loads, then the copy of what the mutex guards.
`step` lets any thread take its next step, so a list of thread numbers is an interleaving of any
number of pipelines that publish with any number of readers.
-/

namespace FacLpr

/-- A `long double` beside a `double`. -/
class WideScalar (D L : Type) where
  widen : D → L
  narrow : L → D

/-- Exact arithmetic has one width. -/
instance : WideScalar ℚ ℚ where
  widen q := q
  narrow q := q

structure DiagnosticProviderInfo where
  name : Text
  version : Text
  role : Text
  deriving DecidableEq

structure WorkerQueueSnapshot where
  workers : ℕ := 0
  active : ℕ := 0
  pending : ℕ := 0
  capacity : ℕ := 0
  dropped : UInt64 := 0
  deriving DecidableEq

structure StageLatencySummary (D : Type) where
  stage : Text
  count : UInt64
  meanMs : D
  minMs : D
  maxMs : D
  deriving DecidableEq

structure EngineDiagnosticsSnapshot (D : Type) where
  readiness : ReadinessState := .failed
  startupChecks : List StartupCheckSnapshot := []
  accepted : UInt64 := 0
  review : UInt64 := 0
  rejected : UInt64 := 0
  providerFailures : UInt64 := 0
  providers : List DiagnosticProviderInfo := []
  models : List DiagnosticModelInfo := []
  stageLatencies : List (StageLatencySummary D) := []
  workerQueue : WorkerQueueSnapshot := {}
  lastErrorSummary : Text := []

/-- `LatencyAccumulator`; no minimum is the infinity it starts from. -/
structure LatencyAccumulator (D L : Type) where
  count : UInt64
  totalMs : L
  minMs : Option D
  maxMs : D

/-- The members of `EngineDiagnostics`. -/
structure DiagnosticsState (D L : Type) where
  accepted : UInt64 := 0
  review : UInt64 := 0
  rejected : UInt64 := 0
  providerFailures : UInt64 := 0
  readiness : ReadinessState := .failed
  startupChecks : List StartupCheckSnapshot := []
  stageLatencies : OrdMap Text (LatencyAccumulator D L) := OrdMap.empty
  providers : List DiagnosticProviderInfo := []
  models : List DiagnosticModelInfo := []
  workerQueue : WorkerQueueSnapshot := {}
  lastErrorSummary : Text := []

variable {F D L : Type} [Scalar D] [Scalar L] [WideScalar D L]

/-- `operator[]` makes an entry with no sample. -/
def LatencyAccumulator.fresh : LatencyAccumulator D L := ⟨0, 0, none, 0⟩

/-- One more sample. -/
def LatencyAccumulator.add (accumulator : LatencyAccumulator D L) (latencyMs : D) :
    LatencyAccumulator D L where
  count := accumulator.count + 1
  totalMs := accumulator.totalMs + WideScalar.widen latencyMs
  minMs := some (match accumulator.minMs with
    | none => latencyMs
    | some minMs => if latencyMs < minMs then latencyMs else minMs)
  maxMs := if accumulator.maxMs < latencyMs then latencyMs else accumulator.maxMs

/-- One row of a snapshot. -/
def LatencyAccumulator.summary (stage : Text) (accumulator : LatencyAccumulator D L) :
    StageLatencySummary D where
  stage := stage
  count := accumulator.count
  meanMs :=
    if accumulator.count = 0 then 0
    else WideScalar.narrow (accumulator.totalMs / Scalar.ofRat accumulator.count.toNat)
  minMs := if accumulator.count = 0 then 0 else accumulator.minMs.getD 0
  maxMs := accumulator.maxMs

/-- The order `std::unordered_map` is iterated in. -/
structure HashOrder where
  visit : {α : Type} → List α → List α
  perm : ∀ {α : Type} (l : List α), (visit l).Perm l

/-- The order of the keys is one. -/
def HashOrder.keys : HashOrder where
  visit l := l
  perm l := List.Perm.refl l

namespace DiagnosticsState

/-! ## The calls -/

/-- `record_recognition`. -/
def recordRecognition (status : RecognitionStatus) (s : DiagnosticsState D L) :
    DiagnosticsState D L :=
  match status with
  | .accepted => { s with accepted := s.accepted + 1 }
  | .review => { s with review := s.review + 1 }
  | .rejected => { s with rejected := s.rejected + 1 }

/-- `record_provider_failures`. -/
def recordProviderFailures (count : ℕ) (s : DiagnosticsState D L) : DiagnosticsState D L :=
  { s with providerFailures := s.providerFailures + UInt64.ofNat count }

/-- The samples that are kept. -/
def validSample (stage : Text) (latencyMs : D) : Bool :=
  !stage.isEmpty && Scalar.isFinite latencyMs && !decide (latencyMs < 0)

/-- `record_stage_latency`. -/
def recordStageLatency (stage : Text) (latencyMs : D) (s : DiagnosticsState D L) :
    DiagnosticsState D L :=
  if validSample stage latencyMs then
    { s with stageLatencies := s.stageLatencies.upsert stage fun accumulator =>
        (accumulator.getD .fresh).add latencyMs }
  else s

def setReadiness (state : ReadinessState) (checks : List StartupCheckSnapshot)
    (s : DiagnosticsState D L) : DiagnosticsState D L :=
  { s with readiness := state, startupChecks := checks }

def setProviders (providers : List DiagnosticProviderInfo) (s : DiagnosticsState D L) :
    DiagnosticsState D L :=
  { s with providers }

def setModels (models : List DiagnosticModelInfo) (s : DiagnosticsState D L) :
    DiagnosticsState D L :=
  { s with models }

def setWorkerQueue (snapshot : WorkerQueueSnapshot) (s : DiagnosticsState D L) :
    DiagnosticsState D L :=
  { s with workerQueue := snapshot }

/-- `set_last_error_summary`: the first 256 bytes. -/
def setLastErrorSummary (summary : Text) (s : DiagnosticsState D L) : DiagnosticsState D L :=
  { s with lastErrorSummary := summary.take 256 }

/-- The critical section of `snapshot`. -/
def copyGuarded (std : StdSort) (order : HashOrder) (s : DiagnosticsState D L)
    (result : EngineDiagnosticsSnapshot D) : EngineDiagnosticsSnapshot D :=
  { result with
    readiness := s.readiness
    startupChecks := s.startupChecks
    providers := s.providers
    models := s.models
    workerQueue := s.workerQueue
    lastErrorSummary := s.lastErrorSummary
    stageLatencies := std.sort (fun left right => decide (left.stage < right.stage))
      ((order.visit s.stageLatencies.entries).map fun entry => entry.2.summary entry.1) }

/-- What the pipeline calls of it. -/
def service : EngineDiagnostics (DiagnosticsState D L) D where
  recordRecognition := recordRecognition
  recordProviderFailures := recordProviderFailures
  recordStageLatency := recordStageLatency

/-! ## Updates -/

/-- A call that writes. -/
inductive Update (D : Type) where
  | recognition (status : RecognitionStatus)
  | providerFailures (count : ℕ)
  | stageLatency (stage : Text) (latencyMs : D)
  | readiness (state : ReadinessState) (checks : List StartupCheckSnapshot)
  | providers (providers : List DiagnosticProviderInfo)
  | models (models : List DiagnosticModelInfo)
  | workerQueue (snapshot : WorkerQueueSnapshot)
  | lastErrorSummary (summary : Text)

def update (s : DiagnosticsState D L) : Update D → DiagnosticsState D L
  | .recognition status => s.recordRecognition status
  | .providerFailures count => s.recordProviderFailures count
  | .stageLatency stage latencyMs => s.recordStageLatency stage latencyMs
  | .readiness state checks => s.setReadiness state checks
  | .providers providers => s.setProviders providers
  | .models models => s.setModels models
  | .workerQueue snapshot => s.setWorkerQueue snapshot
  | .lastErrorSummary summary => s.setLastErrorSummary summary

/-- The calls `publish_diagnostics` makes for a result. -/
def publication (result : LprPipelineResult F D) : List (Update D) :=
  result.recognitions.map (fun recognition => .recognition recognition.status) ++
    .providerFailures result.providerFailureCount ::
      result.stageTimings.map fun timing => .stageLatency timing.stage timing.latencyMs

/-- **What the pipeline publishes** is these calls, one after the other. -/
theorem publishDiagnostics_service (result : LprPipelineResult F D) (s : DiagnosticsState D L) :
    LprPipeline.publishDiagnostics (some service) result s =
      .ok () ((publication result).foldl update s) := by
  rw [publication, List.foldl_append, List.foldl_cons, List.foldl_map, List.foldl_map]
  rfl

/-! ## Threads -/

inductive Call (D : Type) where
  | update (update : Update D)
  | snapshot

/-- The statement of `snapshot` a call is at. -/
inductive SnapshotLine where
  | loadAccepted
  | loadReview
  | loadRejected
  | loadProviderFailures
  | copy
  deriving DecidableEq

/-- A thread: the calls it has still to make, the snapshot under way, and those it was given. -/
structure Thread (D : Type) where
  calls : List (Call D)
  line : SnapshotLine := .loadAccepted
  result : EngineDiagnosticsSnapshot D := {}
  returned : List (EngineDiagnosticsSnapshot D) := []

/-- The members, the threads, and the updates so far, which no step reads. -/
structure Shared (D L : Type) where
  state : DiagnosticsState D L
  threads : List (Thread D)
  log : List (Update D)

def Shared.start (threads : List (List (Call D))) : Shared D L :=
  ⟨{}, threads.map fun calls => { calls }, []⟩

/-- One statement of `snapshot`. -/
def Thread.read (std : StdSort) (order : HashOrder) (s : DiagnosticsState D L) (t : Thread D)
    (rest : List (Call D)) : Thread D :=
  match t.line with
  | .loadAccepted =>
      { t with result := { t.result with accepted := s.accepted }, line := .loadReview }
  | .loadReview =>
      { t with result := { t.result with review := s.review }, line := .loadRejected }
  | .loadRejected =>
      { t with result := { t.result with rejected := s.rejected }, line := .loadProviderFailures }
  | .loadProviderFailures =>
      { t with result := { t.result with providerFailures := s.providerFailures }, line := .copy }
  | .copy => { calls := rest, returned := t.returned ++ [s.copyGuarded std order t.result] }

/-- The thread with a number takes its next step. -/
def step (std : StdSort) (order : HashOrder) (shared : Shared D L) (i : ℕ) :
    Option (Shared D L) := do
  let t ← shared.threads[i]?
  match t.calls with
  | [] => none
  | .update u :: rest =>
      return ⟨shared.state.update u, shared.threads.set i { t with calls := rest },
        shared.log ++ [u]⟩
  | .snapshot :: rest =>
      return { shared with threads := shared.threads.set i (t.read std order shared.state rest) }

/-- Every thread has made its calls. -/
def Shared.Done (shared : Shared D L) : Prop := ∀ t ∈ shared.threads, t.calls = []

end DiagnosticsState

end FacLpr
