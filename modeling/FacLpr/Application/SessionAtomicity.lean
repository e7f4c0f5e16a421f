import FacLpr.Application.RecognitionStreamSession
import FacLpr.Foundations.Run

/-!
# Application/SessionAtomicity — a call that throws leaves no trace

Here each call is its source's statements in order, over a state that an exception does not roll
back, so a call could stop half-way through its updates.  None does (`recognizeLocked_run`): every
exception comes before the first of them, and a run with a failed call in it goes on as if the call
had not been made (`failed_call_leaves_no_trace`).
-/

namespace FacLpr

namespace RecognitionStreamSession

open Program

variable {F D : Type} [Scalar F]

/-! ## The statements of a call -/

/-- A program over the members of a session. -/
abbrev SessionProgram (F D α : Type) := Program Exn (RecognitionStreamSession F D) α

/-- `consensus_.observe`: expire, push, pop to the limit, then conclude. -/
def observeConsensus (c : Config F) (frameResult : PlateRecognitionResult F D) (timestamp : ℤ) :
    SessionProgram F D (TemporalConsensusResult F D) := do
  modify fun session => { session with
    history := TemporalPlateConsensus.expire c.temporal.config.historyTtl timestamp
      session.history }
  modify fun session => { session with history := session.history ++ [⟨frameResult, timestamp⟩] }
  modify fun session => { session with
    history := TemporalPlateConsensus.evict c.temporal.config.maxHistory session.history }
  return TemporalPlateConsensus.conclude c.temporal.config (← get).history

/-- `emission_filter_.observe`. -/
def observeEmission (c : Config F) (temporal : TemporalConsensusResult F D) (timestamp : ℤ) :
    SessionProgram F D (StablePlateEventFilterResult F D) := do
  let (emissionFilter, emission) :=
    StablePlateEventFilter.observe c.emission (← get).emissionFilter temporal timestamp
  modify fun session => { session with emissionFilter }
  return emission

/-- The end of `recognize_locked`, from the assignment of the last timestamp on. -/
def applyFrame (c : Config F) (frameResult : LprPipelineResult F D) (timestamp : ℤ) :
    SessionProgram F D (RecognitionStreamSessionResult F D) := do
  modify fun session => { session with lastTimestamp := some timestamp }
  match frameResult.recognitions with
  | [recognition] =>
      let temporal ← observeConsensus c recognition timestamp
      let emission ← observeEmission c temporal timestamp
      return ⟨frameResult, temporal, emission, true, false⟩
  | recognitions =>
      let historySize := (← get).history.length
      return ⟨frameResult, ⟨none, historySize, 0, 0⟩, ⟨none, false⟩, false,
        decide (1 < recognitions.length)⟩

/-- `RecognitionStreamSession::recognize_locked`, for what the pipeline does on the image. -/
def recognizeLocked (c : Config F) (pipeline : Except Exn (LprPipelineResult F D)) (timestamp : ℤ) :
    SessionProgram F D (RecognitionStreamSessionResult F D) := do
  if (← get).closed then
    throw closedError
  if (← get).lastTimestamp.any (timestamp < ·) then
    throw (.engine (configurationError "recognition stream timestamp must be monotonic"))
  let frameResult ← Program.ofExcept pipeline
  applyFrame c frameResult timestamp

/-- The updates `reset` and `close` share. -/
def clear : SessionProgram F D Unit := do
  modify fun session => { session with history := [] }
  modify fun session => { session with emissionFilter := StablePlateEventFilter.initial }
  modify fun session => { session with lastTimestamp := none }

/-- `RecognitionStreamSession::reset`. -/
def resetLocked : SessionProgram F D Unit := do
  if (← get).closed then
    throw closedError
  clear

/-- `RecognitionStreamSession::close`. -/
def closeLocked : SessionProgram F D Unit := do
  if (← get).closed then
    return
  clear
  modify fun session => { session with closed := true }

/-! ## Calls -/

/-- A call of the public interface; `recognize` is a `recognizeAt` at the time of the clock. -/
inductive Request (F D : Type) where
  | recognizeAt (pipeline : Except Exn (LprPipelineResult F D)) (timestamp : ℤ)
  | reset
  | close
  | closed
  | historySize
  | emissionStats

/-- What a call answers. -/
inductive Answer (F D : Type) where
  | returned (output : RecognitionStreamSessionResult F D)
  | done
  | flag (closed : Bool)
  | size (count : ℕ)
  | stats (stats : StablePlateEventFilterStats)
  | threw (error : Exn)

def perform (c : Config F) : Request F D → SessionProgram F D (Answer F D)
  | .recognizeAt pipeline timestamp => do return .returned (← recognizeLocked c pipeline timestamp)
  | .reset => do resetLocked; return .done
  | .close => do closeLocked; return .done
  | .closed => do return .flag (← get).closed
  | .historySize => do return .size (← get).history.length
  | .emissionStats => do return .stats (← get).emissionFilter.stats

/-- One call: the session it leaves, whether it returns or throws, and its answer. -/
def step (c : Config F) (session : RecognitionStreamSession F D) (request : Request F D) :
    RecognitionStreamSession F D × Answer F D :=
  match perform c request session with
  | .ok answer next => (next, answer)
  | .error e next => (next, .threw e)

/-- The session after some calls. -/
def sessionAfter (c : Config F) (session : RecognitionStreamSession F D)
    (requests : List (Request F D)) : RecognitionStreamSession F D :=
  requests.foldl (fun session request => (step c session request).1) session

/-- The answers to some calls. -/
def answers (c : Config F) : RecognitionStreamSession F D → List (Request F D) → List (Answer F D)
  | _, [] => []
  | session, request :: requests =>
      (step c session request).2 :: answers c (step c session request).1 requests

theorem sessionAfter_append (c : Config F) (session : RecognitionStreamSession F D)
    (before after : List (Request F D)) :
    sessionAfter c session (before ++ after) =
      sessionAfter c (sessionAfter c session before) after :=
  List.foldl_append

theorem answers_append (c : Config F) (session : RecognitionStreamSession F D)
    (before after : List (Request F D)) :
    answers c session (before ++ after) =
      answers c session before ++ answers c (sessionAfter c session before) after := by
  induction before generalizing session with
  | nil => rfl
  | cons request before ih =>
    rw [List.cons_append, answers, ih, answers, List.cons_append]
    rfl

/-! ## What a call does -/

theorem observeConsensus_run (c : Config F) (frameResult : PlateRecognitionResult F D)
    (timestamp : ℤ) (session : RecognitionStreamSession F D) :
    observeConsensus c frameResult timestamp session =
      .ok (TemporalPlateConsensus.observe c.temporal session.history frameResult timestamp).2
        { session with history :=
            (TemporalPlateConsensus.observe c.temporal session.history frameResult timestamp).1 } :=
  rfl

theorem observeEmission_run (c : Config F) (temporal : TemporalConsensusResult F D) (timestamp : ℤ)
    (session : RecognitionStreamSession F D) :
    observeEmission c temporal timestamp session =
      .ok (StablePlateEventFilter.observe c.emission session.emissionFilter temporal timestamp).2
        { session with emissionFilter :=
            (StablePlateEventFilter.observe c.emission session.emissionFilter temporal
              timestamp).1 } :=
  rfl

/-- **The end of `recognize_locked`** is `observeFrame`. -/
theorem applyFrame_run (c : Config F) (frameResult : LprPipelineResult F D) (timestamp : ℤ)
    (session : RecognitionStreamSession F D) :
    applyFrame c frameResult timestamp session =
      .ok (observeFrame c session frameResult timestamp).2
        (observeFrame c session frameResult timestamp).1 := by
  unfold applyFrame observeFrame
  rw [bind_run_ok (modify_run _ session)]
  obtain ⟨recognitions, _, _, _, _, _⟩ := frameResult
  rcases recognitions with _ | ⟨recognition, _ | ⟨second, rest⟩⟩
  · rfl
  · simp only
    rw [bind_run_ok (observeConsensus_run c recognition timestamp _),
      bind_run_ok (observeEmission_run c _ timestamp _)]
    rfl
  · rfl

/-- **`recognize_locked` is `recognizeAt`**: an exception comes before the first update. -/
theorem recognizeLocked_run (c : Config F) (pipeline : Except Exn (LprPipelineResult F D))
    (timestamp : ℤ) (session : RecognitionStreamSession F D) :
    recognizeLocked c pipeline timestamp session =
      match recognizeAt c session pipeline timestamp with
      | .ok (next, output) => .ok output next
      | .error e => .error e session := by
  unfold recognizeLocked recognizeAt
  rw [bind_run_ok (get_run session)]
  by_cases hclosed : session.closed = true
  · rw [if_pos hclosed, if_pos hclosed]
    rfl
  · rw [if_neg hclosed, if_neg hclosed]
    simp only
    rw [bind_run_ok (get_run session)]
    by_cases hpast : session.lastTimestamp.any (timestamp < ·) = true
    · rw [if_pos hpast, if_pos hpast]
      rfl
    · rw [if_neg hpast, if_neg hpast]
      cases pipeline with
      | error e => rfl
      | ok frameResult => exact applyFrame_run c frameResult timestamp session

omit [Scalar F] in
theorem resetLocked_run (session : RecognitionStreamSession F D) :
    resetLocked session = match reset session with
      | .ok next => .ok () next
      | .error e => .error e session := by
  unfold resetLocked reset
  rw [bind_run_ok (get_run session)]
  cases session with
  | mk history emissionFilter lastTimestamp closed =>
    cases closed with
    | true => rfl
    | false => rfl

omit [Scalar F] in
theorem closeLocked_run (session : RecognitionStreamSession F D) :
    closeLocked session = .ok () (close session) := by
  unfold closeLocked close
  rw [bind_run_ok (get_run session)]
  cases session with
  | mk history emissionFilter lastTimestamp closed =>
    cases closed with
    | true => rfl
    | false => rfl

/-- The same call, as the transcripts of a session have it. -/
def Request.call? : Request F D → Option (Call F D)
  | .recognizeAt pipeline timestamp => some (.recognizeAt pipeline timestamp)
  | .reset => some .reset
  | .close => some .close
  | .closed => none
  | .historySize => none
  | .emissionStats => none

def Answer.ofResponse : Response F D → Answer F D
  | .returned output => .returned output
  | .done => .done
  | .threw e => .threw e

/-- **A call is the call of a transcript.** -/
theorem step_eq_call (c : Config F) (session : RecognitionStreamSession F D)
    {request : Request F D} {request' : Call F D} (h : request.call? = some request') :
    step c session request =
      ((call c session request').1, Answer.ofResponse (call c session request').2) := by
  cases request with
  | recognizeAt pipeline timestamp =>
    obtain rfl := Option.some.inj h
    have hrun := recognizeLocked_run c pipeline timestamp session
    simp only [step, perform, call]
    cases hrecognize : recognizeAt c session pipeline timestamp with
    | ok returned =>
      rw [hrecognize] at hrun
      rw [bind_run_ok hrun]
      rfl
    | error e =>
      rw [hrecognize] at hrun
      rw [bind_run_error hrun]
      rfl
  | reset =>
    obtain rfl := Option.some.inj h
    have hrun := resetLocked_run session
    simp only [step, perform, call]
    cases hreset : reset session with
    | ok next =>
      rw [hreset] at hrun
      rw [bind_run_ok hrun]
      rfl
    | error e =>
      rw [hreset] at hrun
      rw [bind_run_error hrun]
      rfl
  | close =>
    obtain rfl := Option.some.inj h
    simp only [step, perform, call]
    rw [bind_run_ok (closeLocked_run session)]
    rfl
  | closed => cases h
  | historySize => cases h
  | emissionStats => cases h

/-! ## Calls that throw -/

/-- **A call that throws leaves the session as it was.** -/
theorem step_of_threw (c : Config F) {session : RecognitionStreamSession F D}
    {request : Request F D} {e : Exn} (h : (step c session request).2 = .threw e) :
    (step c session request).1 = session := by
  cases hcall : request.call? with
  | none =>
    cases request with
    | recognizeAt => cases hcall
    | reset => cases hcall
    | close => cases hcall
    | closed => rfl
    | historySize => rfl
    | emissionStats => rfl
  | some request' =>
    rw [step_eq_call c session hcall] at h ⊢
    cases request' with
    | recognizeAt pipeline timestamp =>
      simp only [call] at h ⊢
      cases hrecognize : recognizeAt c session pipeline timestamp with
      | ok returned => rw [hrecognize] at h; cases h
      | error e => rfl
    | reset =>
      simp only [call] at h ⊢
      cases hreset : reset session with
      | ok next => rw [hreset] at h; cases h
      | error e => rfl
    | close => cases h

/-- **A closed session answers no call but the ones that read it**, and stays as it is. -/
theorem step_of_closed (c : Config F) {session : RecognitionStreamSession F D}
    (h : session.closed = true) (request : Request F D) :
    (step c session request).1 = session ∧
      ∀ request', request.call? = some request' → request' ≠ .close →
        (step c session request).2 = .threw closedError := by
  cases request with
  | recognizeAt pipeline timestamp =>
    rw [step_eq_call c session rfl]
    simp [call, recognizeAt, h, Answer.ofResponse]
  | reset =>
    rw [step_eq_call c session rfl]
    simp [call, reset, h, Answer.ofResponse]
  | close =>
    rw [step_eq_call c session rfl]
    simp [call, close, h, Request.call?]
  | closed => exact ⟨rfl, fun _ hcall => (by cases hcall)⟩
  | historySize => exact ⟨rfl, fun _ hcall => (by cases hcall)⟩
  | emissionStats => exact ⟨rfl, fun _ hcall => (by cases hcall)⟩

theorem sessionAfter_of_closed (c : Config F) {session : RecognitionStreamSession F D}
    (h : session.closed = true) (requests : List (Request F D)) :
    sessionAfter c session requests = session := by
  induction requests with
  | nil => rfl
  | cons request requests ih =>
    rw [sessionAfter, List.foldl_cons, (step_of_closed c h request).1]
    exact ih

/-- **Session atomicity.**  A call that throws changes nothing, and a run with it in goes on exactly
as the run without it.  And a session once closed stays closed: each later call to recognize or
reset throws. -/
theorem failed_call_leaves_no_trace (c : Config F) (before : List (Request F D)) :
    (∀ (request : Request F D) (e : Exn),
      (step c (sessionAfter c initial before) request).2 = .threw e →
      (step c (sessionAfter c initial before) request).1 = sessionAfter c initial before ∧
      ∀ after, sessionAfter c initial (before ++ request :: after) =
          sessionAfter c initial (before ++ after) ∧
        ∃ rest, answers c initial (before ++ after) = answers c initial before ++ rest ∧
          answers c initial (before ++ request :: after) =
            answers c initial before ++ .threw e :: rest) ∧
    ((sessionAfter c initial before).closed = true → ∀ after : List (Request F D),
      (sessionAfter c initial (before ++ after)).closed = true ∧
      (∀ pipeline timestamp, (step c (sessionAfter c initial (before ++ after))
        (.recognizeAt pipeline timestamp)).2 = .threw closedError) ∧
      (step c (sessionAfter c initial (before ++ after)) .reset).2 = .threw closedError) := by
  refine ⟨fun request e hthrew => ?_, fun hclosed after => ?_⟩
  · have hsame := step_of_threw c hthrew
    refine ⟨hsame, fun after => ⟨?_, answers c (sessionAfter c initial before) after,
      answers_append c initial before after, ?_⟩⟩
    · rw [sessionAfter_append, sessionAfter_append, sessionAfter, List.foldl_cons, hsame]
      rfl
    · rw [answers_append, answers, hthrew, hsame]
  · rw [sessionAfter_append, sessionAfter_of_closed c hclosed]
    exact ⟨hclosed, fun pipeline timestamp => (step_of_closed c hclosed _).2 _ rfl nofun,
      (step_of_closed c hclosed _).2 _ rfl nofun⟩

theorem failed_call_leaves_no_trace_outOfOrder :
    sessionAfter defaultConfig initial
        ([.recognizeAt (.ok acceptedFrame) 5] ++ .recognizeAt (.ok acceptedFrame) 2 :: [.close]) =
      sessionAfter defaultConfig initial ([.recognizeAt (.ok acceptedFrame) 5] ++ [.close]) :=
  (((failed_call_leaves_no_trace defaultConfig [.recognizeAt (.ok acceptedFrame) 5]).1
    (.recognizeAt (.ok acceptedFrame) 2) _ rfl).2 [.close]).1

end RecognitionStreamSession

end FacLpr
