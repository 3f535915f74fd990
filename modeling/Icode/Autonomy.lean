import Icode.FailurePolicy
import Icode.Sha256
import Icode.Checks
import Icode.Transition

/-!
# Autonomous runs

An `AutonomyManager` starts a worker thread for a ticket, which asks an executor to
work and passes safe points on its way. What is known of a run is persisted in the
metadata of its ticket (`autonomous_run`), with a revision that grows. Intents from
outside start, pause, resume, cancel and take over; the manager may shut down.

`Manager` is the state of one manager with its workers, the metadata of all tickets
and a history of what happened; `step` is one section of code that runs under the lock
of the manager, or a step of a worker outside it. What the control plane answers to a
read and write of metadata is part of the action (`StoreAnswer`), and so is what the
executor does.

A worker learns of a stop at its next safe point. `stop_never_lost` says that it does:
after a stop has been accepted for a run, or a shutdown has begun, nothing that is
persisted says that the run is starting or running, and a safe point of the run raises.
-/

namespace Icode

open Py

/-! ## Metadata of a run -/

/-- The intents that stop a run, and the shutdown. -/
inductive StopIntent where
  | pause
  | cancel
  | takeover
  | interrupted
  deriving DecidableEq

/-- `INTENTS` -/
inductive Intent where
  | start
  | resume
  | pause
  | cancel
  | takeover
  deriving DecidableEq

def Intent.text : Intent → PyStr
  | .start => "start"
  | .resume => "resume"
  | .pause => "pause"
  | .cancel => "cancel"
  | .takeover => "takeover"

def intents : List Intent :=
  [.start, .pause, .resume, .cancel, .takeover]

/-- `TERMINAL_RESULT_STATES` -/
inductive ResultState where
  | succeeded
  | failed
  | blocked
  deriving DecidableEq

def ResultState.text : ResultState → PyStr
  | .succeeded => "succeeded"
  | .failed => "failed"
  | .blocked => "blocked"

/-- `[A-Za-z0-9._:-]{1,n}`, the whole text. -/
def isToken (n : ℕ) (s : PyStr) : Bool :=
  !s.isEmpty && s.length ≤ n && s.all fun c =>
    (48 ≤ c.ord && c.ord ≤ 57) || (65 ≤ c.ord && c.ord ≤ 90) || (97 ≤ c.ord && c.ord ≤ 122) ||
      c == .scalar '.' || c == .scalar '_' || c == .scalar ':' || c == .scalar '-'

/-- `_REQUEST_ID_RE` -/
def isRequestId (s : PyStr) : Bool :=
  isToken 140 s

/-- `_STEP_RE` -/
def isStep (s : PyStr) : Bool :=
  isToken 96 s

/-- `_STABLE_CODE_RE`: `[a-z][a-z0-9_]{0,63}` -/
def isStableCode (s : PyStr) : Bool :=
  s.length ≤ 64 && (s.head?.any fun c => 97 ≤ c.ord && c.ord ≤ 122) && s.tail.all fun c =>
    (48 ≤ c.ord && c.ord ≤ 57) || (97 ≤ c.ord && c.ord ≤ 122) || c == .scalar '_'

/-- `ExecutionResult`. -/
structure ExecutionResult where
  state : ResultState
  lastStep : Option PyStr
  errorCode : Option PyStr
  step_valid : lastStep.all isStep = true
  code_valid : errorCode.all isStableCode = true

/-- `AutonomyError`, by its code, and the other exceptions of an intent. -/
inductive AutonomyError where
  | invalidIntent
  | managerShutdown
  | capabilityDisabled
  | autonomousNotRequested
  | invalidTransition
  | ticketNotFound
  | statePersistenceFailed
  | workspaceBusy
  | workspaceSetupFailed
  | workerStartFailed
  /-- `TypeError`: a list or a dict is looked up in a set. -/
  | typeError
  deriving DecidableEq

/-- `ACTIVE_STATES` -/
def activeStates : List PyStr :=
  [lit "starting", lit "running", lit "pause_requested", lit "cancel_requested"]

/-- `_INTENT_RECEIPT_LIMIT` -/
def intentReceiptLimit : ℕ :=
  64

/-- The texts of a list; `[]` for anything else. -/
def textItems : Json → List PyStr
  | .arr items => items.filterMap fun item =>
    match item with
    | .str s => some s
    | _ => none
  | _ => []

namespace Runtime

/-- `runtime.get("state") in names` -/
def stateIn (rt : Members) (names : List PyStr) : Bool :=
  names.any fun name => (rt.get "state").pyEq (.str name)

/-- `runtime.get("run_id") == run_id` -/
def isRun (rt : Members) (run : PyStr) : Bool :=
  (rt.get "run_id").pyEq (.str run)

/-- `_revision`. -/
def revision (rt : Members) : ℤ :=
  match rt.get "revision" with
  | .int n => if 0 ≤ n then n else 0
  | _ => 0

/-- `_intent_receipt_token`. -/
def intentReceiptToken (ticket : PyStr) (intent request : PyStr) : PyStr :=
  sha256 (encodePass (ticket ++ CodePoint.scalar '|' :: intent ++ CodePoint.scalar '|' :: request))

/-- `_intent_receipts`. -/
def intentReceipts (ticket : PyStr) (rt : Members) : Except AutonomyError (List PyStr) := do
  let receipts := (textItems (rt.get "intent_receipts")).filter (isHexText 64)
  require (rt.get "last_intent").hashable .typeError
  match rt.get "last_intent", rt.get "last_intent_request_id" with
  | .str intent, .str request =>
    if intents.any (fun i => i.text == intent) && isRequestId request then
      let legacy := intentReceiptToken ticket intent request
      let receipts := if receipts.contains legacy then receipts else receipts ++ [legacy]
      pure (lastItems intentReceiptLimit receipts)
    else pure (lastItems intentReceiptLimit receipts)
  | _, _ => pure (lastItems intentReceiptLimit receipts)

/-- `_append_intent_receipt`. -/
def appendIntentReceipt (ticket : PyStr) (receipts : List PyStr) (intent request : PyStr) : Json :=
  let token := intentReceiptToken ticket intent request
  let receipts := if receipts.contains token then receipts else receipts ++ [token]
  .arr ((lastItems intentReceiptLimit receipts).map .str)

/-- The keys that every update of a run sets: its state, revision and time. -/
def moved (rt : Members) (state now : PyStr) : Members :=
  Dict.update rt [("state", .str state), ("revision", .int (revision rt + 1)),
    ("updated_at", .str now)]

/-- `moved`, to an end of the run. -/
def finished (rt : Members) (state now : PyStr) : Members :=
  Dict.set (moved rt state now) "finished_at" (.str now)

/-- The `starting` record of `_start_or_resume_locked`. -/
def starting (rt : Members) (ticket run now intent request : PyStr) (receipts : List PyStr) :
    Members :=
  let fresh : Members := [("state", .str "starting"), ("run_id", .str run),
    ("revision", .int (revision rt + 1)), ("requested_at", .str now), ("updated_at", .str now),
    ("last_intent", .str intent), ("last_intent_request_id", .str request),
    ("intent_receipts", appendIntentReceipt ticket receipts intent request)]
  let kept := lastItems historyLimit (textItems (rt.get "failure_history"))
  if kept.isEmpty then fresh else Dict.set fresh "failure_history" (.arr (kept.map .str))

/-- The `requested` record of `_request_stop_locked`. -/
def requested (rt : Members) (ticket : PyStr) (intent : Intent) (request now : PyStr)
    (receipts : List PyStr) : Members :=
  Dict.update (moved rt (if intent = .cancel then "cancel_requested" else "pause_requested") now)
    [("last_intent", .str intent.text), ("last_intent_request_id", .str request),
      ("intent_receipts", appendIntentReceipt ticket receipts intent.text request)]

/-- `_failure_history`: the history, the number of this attempt and the fingerprint. -/
def failureHistory (rt : Members) (errorCode lastStep : Option PyStr) : List PyStr × ℕ × PyStr :=
  let history := textItems (rt.get "failure_history")
  let fingerprint := failureFingerprint errorCode lastStep
  (history, history.count fingerprint + 1, fingerprint)

/-- `_failure_decision_for`; `answer` is what the executor decides, if it does. -/
def failureDecisionFor (result : ExecutionResult) (answer : Option FailureDecision) :
    FailureDecision :=
  answer.getD (decideFailure (classifyFailure result.errorCode))

/-- The error code that is persisted for a result. -/
def resultError (result : ExecutionResult) : Option PyStr :=
  match result.errorCode, result.state with
  | some code, _ => some code
  | none, .failed => some "executor_failed"
  | none, .blocked => some "execution_blocked"
  | none, .succeeded => none

/-- The keys a failure adds to the `terminal` record. -/
def withFailure (terminal rt : Members) (result : ExecutionResult) (code : PyStr)
    (answer : Option FailureDecision) : Members :=
  let (history, _, fingerprint) := failureHistory rt (some code) result.lastStep
  let stuck := isStuck history fingerprint
  let decision := failureDecisionFor result answer
  let decision := if stuck then stopForNoProgress decision else decision
  let terminal := Dict.set terminal "failure_decision"
    (.obj (Dict.set decision.toPublic "stuck" (.bool stuck)))
  let terminal := Dict.set terminal "failure_history"
    (.arr ((recordFailure history fingerprint).map .str))
  if stuck then Dict.set terminal "error_code" (.str "no_progress_stuck") else terminal

/-- The `terminal` record of `_worker_main`. -/
def terminal (rt : Members) (result : ExecutionResult) (now : PyStr)
    (answer : Option FailureDecision) : Members :=
  let rec₁ := finished rt result.state.text now
  let rec₂ : Members :=
    match result.lastStep with
    | some step => Dict.set rec₁ "last_step" (.str step)
    | none => rec₁
  let rec₃ : Members :=
    match resultError result with
    | some code => Dict.set rec₂ "error_code" (.str code)
    | none => Dict.erase rec₂ "error_code"
  let rec₄ : Members :=
    if result.state = .succeeded then
      Dict.set (Dict.erase rec₃ "failure_decision") "failure_history" (.arr [])
    else rec₃
  match resultError result with
  | some code => withFailure rec₄ rt result code answer
  | none => rec₄

/-- The state a safe point persists. -/
def safePointState : Option StopIntent → PyStr
  | none => "running"
  | some .cancel => "cancelled"
  | some .pause => "paused"
  | some .takeover => "paused"
  | some .interrupted => "interrupted"

/-- The `next_runtime` record of `_safe_point`. -/
def safePoint (rt : Members) (stop : Option StopIntent) (step now : PyStr) : Members :=
  let next := Dict.set (moved rt (safePointState stop) now) "last_step" (.str step)
  match stop with
  | none => next
  | some .interrupted =>
    Dict.update next [("error_code", .str "shutdown"), ("finished_at", .str now)]
  | some _ => Dict.set next "finished_at" (.str now)

/-- What a safe point writes to the extension beside the run. -/
def safePointMode : Option StopIntent → Members
  | some .cancel => [("effective_execution_mode", .str "interactive"),
      ("mode_status", .str "pending_activation")]
  | some .takeover => [("effective_execution_mode", .str "interactive"),
      ("mode_status", .str "pending_activation")]
  | some .interrupted => [("effective_execution_mode", .str "interactive"),
      ("mode_status", .str "pending_activation")]
  | _ => []

/-- An interruption, with its error code. -/
def interrupted (rt : Members) (code now : PyStr) : Members :=
  Dict.set (finished rt "interrupted" now) "error_code" (.str code)

/-- The `failed` record of `_record_executor_failure`. -/
def failed (rt : Members) (now : PyStr) : Members :=
  Dict.set (finished rt "failed" now) "error_code" (.str "executor_error")

/-! ## The state of an update -/

@[simp] theorem state_moved (rt : Members) (state now : PyStr) :
    (moved rt state now).get "state" = .str state := by
  simp [moved, Dict.update]

@[simp] theorem run_moved (rt : Members) (state now : PyStr) :
    (moved rt state now).get "run_id" = rt.get "run_id" := by
  simp [moved, Dict.update]

@[simp] theorem state_finished (rt : Members) (state now : PyStr) :
    (finished rt state now).get "state" = .str state := by
  simp [finished]

@[simp] theorem state_interrupted (rt : Members) (code now : PyStr) :
    (interrupted rt code now).get "state" = .str "interrupted" := by
  simp [interrupted]

@[simp] theorem state_failed (rt : Members) (now : PyStr) :
    (failed rt now).get "state" = .str "failed" := by
  simp [failed]

@[simp] theorem run_starting (rt : Members) (ticket run now intent request : PyStr)
    (receipts : List PyStr) :
    (starting rt ticket run now intent request receipts).get "run_id" = .str run := by
  unfold starting
  simp only
  split_ifs
  · rfl
  · rw [Members.get_set]
    rfl

@[simp] theorem state_requested (rt : Members) (ticket : PyStr) (intent : Intent)
    (request now : PyStr) (receipts : List PyStr) :
    (requested rt ticket intent request now receipts).get "state" =
      .str (if intent = .cancel then "cancel_requested" else "pause_requested") := by
  simp [requested, Dict.update]

@[simp] theorem state_withFailure (terminal rt : Members) (result : ExecutionResult) (code : PyStr)
    (answer : Option FailureDecision) :
    (withFailure terminal rt result code answer).get "state" = terminal.get "state" := by
  unfold withFailure
  simp only
  split_ifs <;> simp

@[simp] theorem state_terminal (rt : Members) (result : ExecutionResult) (now : PyStr)
    (answer : Option FailureDecision) :
    (terminal rt result now answer).get "state" = .str result.state.text := by
  unfold terminal
  cases result.lastStep <;> cases resultError result <;> simp only <;> split_ifs <;> simp

@[simp] theorem state_safePoint (rt : Members) (stop : Option StopIntent) (step now : PyStr) :
    (safePoint rt stop step now).get "state" = .str (safePointState stop) := by
  unfold safePoint
  rcases stop with _ | _ | _ | _ | _ <;> simp [Dict.update]

@[simp] theorem run_safePoint (rt : Members) (stop : Option StopIntent) (step now : PyStr) :
    (safePoint rt stop step now).get "run_id" = rt.get "run_id" := by
  unfold safePoint
  rcases stop with _ | _ | _ | _ | _ <;> simp [Dict.update]

/-- The run is starting or running. -/
def Live (rt : Members) : Prop :=
  rt.get "state" = .str "starting" ∨ rt.get "state" = .str "running"

theorem not_live_terminal (rt : Members) (result : ExecutionResult) (now : PyStr)
    (answer : Option FailureDecision) : ¬Live (terminal rt result now answer) := by
  simp only [Live, state_terminal]
  cases result.state <;> simp [ResultState.text]

theorem not_live_safePoint (rt : Members) {stop : Option StopIntent} (hs : stop ≠ none)
    (step now : PyStr) : ¬Live (safePoint rt stop step now) := by
  simp only [Live, state_safePoint]
  rcases stop with _ | _ | _ | _ | _ <;> simp_all [safePointState]

theorem not_live_requested (rt : Members) (ticket : PyStr) (intent : Intent) (request now : PyStr)
    (receipts : List PyStr) : ¬Live (requested rt ticket intent request now receipts) := by
  simp only [Live, state_requested]
  split_ifs <;> simp

end Runtime

/-! ## The manager -/

/-- What the control plane does with a read and write of the metadata of a ticket. -/
inductive StoreAnswer where
  | accepted
  /-- The write is refused. -/
  | refused
  /-- The write is done, but the answer is an error. -/
  | unconfirmed
  /-- The ticket cannot be read. -/
  | unreadable
  deriving DecidableEq

/-- Where a worker thread stands. -/
inductive WorkerPc where
  /-- The thread has been started. -/
  | entered
  /-- The executor runs, for the first or the second time. -/
  | executing (retried : Bool)
  /-- It has returned for the first time. -/
  | returned (result : ExecutionResult)
  /-- The decision is to retry. -/
  | retrying (result : ExecutionResult)
  /-- The result is to be persisted. -/
  | finishing (result : ExecutionResult)
  /-- An exception other than `_RunStopped` has been raised. -/
  | raised
  /-- The `finally` block. -/
  | leaving
  | ended

/-- A `RunControl` and its thread. -/
structure Worker where
  ticket : PyStr
  stopIntent : Option StopIntent
  pc : WorkerPc

/-- What a safe point does. -/
inductive SafePointOutcome where
  | continues
  /-- It raises `_RunStopped`. -/
  | stops
  /-- It raises because the control plane did not do what it was asked. -/
  | fails
  deriving DecidableEq

/-- What has happened. -/
inductive RunEvent where
  /-- The run of a ticket has been persisted. -/
  | persisted (ticket : PyStr) (runtime : Members)
  /-- A pause, cancel or takeover of the run has been accepted. -/
  | stopAccepted (run : PyStr)
  /-- The shutdown has begun. -/
  | shutdown
  | safePoint (run : PyStr) (answer : StoreAnswer) (outcome : SafePointOutcome)

/-- The event stops the run: a stop of it, or the shutdown. -/
def RunEvent.Stops (e : RunEvent) (run : PyStr) : Prop :=
  e = .stopAccepted run ∨ e = .shutdown

/-- The event is one that may follow a stop of the run: no record that says it is starting or
running, and a safe point that raises, `_RunStopped` if the control plane does what it is asked. -/
def RunEvent.Quiet (run : PyStr) : RunEvent → Prop
  | .persisted _ rt => rt.get "run_id" = .str run → ¬Runtime.Live rt
  | .safePoint r answer outcome =>
    r = run → outcome ≠ .continues ∧ (answer = .accepted → outcome = .stops)
  | .stopAccepted _ => True
  | .shutdown => True

/-- An `AutonomyManager`, alone in its process. -/
structure Manager where
  enabled : Bool
  /-- `extensions.icode_agent` of each ticket. -/
  agent : PyStr → Members
  shuttingDown : Bool
  /-- `_controls` and `_workers`, which are set and cleared together: the run of a ticket. -/
  controls : Dict PyStr PyStr
  /-- `_PROCESS_WORKERS`, by ticket. -/
  processWorkers : Dict PyStr PyStr
  /-- The keys of `_receipts`. -/
  receipts : List (PyStr × Intent × PyStr)
  /-- The runs of this process, by run id. -/
  workers : PyStr → Option Worker
  /-- Latest first. -/
  history : List RunEvent

/-- What the environment does during an intent. -/
structure IntentEnv where
  answer : StoreAnswer
  /-- `uuid.uuid4()` -/
  run : PyStr
  now : PyStr
  /-- The exception of `workspace_manager.open`. -/
  openError : Option AutonomyError
  /-- `thread.start()` returns. -/
  started : Bool
  /-- The answer to the write that follows a failed start. -/
  startFailed : StoreAnswer

/-- One step of the manager or of a worker. -/
inductive ManagerAction where
  | intent (ticket : PyStr) (payload : Json) (env : IntentEnv)
  /-- The first section of `_worker_main`. -/
  | workerStart (run : PyStr) (answer : StoreAnswer) (now : PyStr)
  | safePoint (run step : PyStr) (answer : StoreAnswer) (now : PyStr)
  /-- `executor.execute` returns. -/
  | executorReturned (run : PyStr) (result : ExecutionResult)
  /-- It raises an exception that no safe point has raised to stop it. -/
  | executorRaised (run : PyStr)
  /-- The retry decision after the first result. -/
  | decideRetry (run : PyStr) (answer : StoreAnswer) (decision : Option FailureDecision)
  /-- The section that looks whether the run is still owned. -/
  | retry (run : PyStr)
  /-- The section that persists the result. -/
  | finish (run : PyStr) (answer : StoreAnswer) (now : PyStr) (decision : Option FailureDecision)
  /-- `_record_executor_failure`. -/
  | recordFailure (run : PyStr) (answer : StoreAnswer) (now : PyStr)
  /-- The `finally` block of `_worker_main`. -/
  | leave (run : PyStr)
  | shutdown (answers : PyStr → StoreAnswer) (now : PyStr)

namespace Manager

/-- A manager that has just been built, over the metadata it finds. -/
def initial (enabled : Bool) (agent : PyStr → Members) : Manager :=
  ⟨enabled, agent, false, [], [], [], fun _ => none, []⟩

variable (s : Manager)

/-- `_raw_runtime`. -/
def runtime (ticket : PyStr) : Members :=
  match (s.agent ticket).get "autonomous_run" with
  | .obj ms => ms
  | _ => []

/-- The metadata of a ticket takes the patch. -/
def write (ticket : PyStr) (rt patch : Members) : Manager :=
  { s with
    agent := Function.update s.agent ticket
      (Dict.set (Dict.update (s.agent ticket) patch) "autonomous_run" (.obj rt)),
    history := .persisted ticket rt :: s.history }

/-- `update_agent_extension`, and whether it returns. -/
def persist (ticket : PyStr) (rt patch : Members) : StoreAnswer → Manager × Bool
  | .accepted => (s.write ticket rt patch, true)
  | .unconfirmed => (s.write ticket rt patch, false)
  | .refused => (s, false)
  | .unreadable => (s, false)

def emit (e : RunEvent) : Manager :=
  { s with history := e :: s.history }

def setWorker (run : PyStr) (w : Worker) : Manager :=
  { s with workers := Function.update s.workers run (some w) }

/-- The worker at another place. -/
def goto (run : PyStr) (w : Worker) (pc : WorkerPc) : Manager :=
  s.setWorker run { w with pc }

/-- `_release_worker_locked`. -/
def release (ticket run : PyStr) : Manager :=
  if s.controls.get? ticket = some run then
    { s with
      controls := s.controls.erase ticket,
      processWorkers :=
        if s.processWorkers.get? ticket = some run then s.processWorkers.erase ticket
        else s.processWorkers }
  else s

/-- The worker of the run is alive. -/
def isAlive (run : PyStr) : Bool :=
  (s.workers run).any fun w =>
    match w.pc with
    | .ended => false
    | _ => true

/-- The run is the one that is registered for its ticket. -/
def owns (run : PyStr) (w : Worker) : Bool :=
  s.controls.get? w.ticket == some run

def interactivePatch : Members :=
  [("effective_execution_mode", .str "interactive"), ("mode_status", .str "pending_activation")]

def autonomousPatch : Members :=
  [("effective_execution_mode", .str "autonomous"), ("mode_status", .str "active")]

/-! ## Intents -/

/-- `normalize_intent_payload`. -/
def normalizeIntentPayload : Json → Except AutonomyError (Intent × PyStr)
  | .obj ms =>
    match Members.keysAre ms [lit "intent", lit "request_id"], Members.get ms "intent",
      Members.get ms "request_id" with
    | true, .str name, .str request =>
      match intents.find? fun i => i.text == name with
      | some intent => if isRequestId request then .ok (intent, request) else .error .invalidIntent
      | none => .error .invalidIntent
    | _, _, _ => .error .invalidIntent
  | _ => .error .invalidIntent

/-- `_require_capability`. -/
def requireCapability (ticket : PyStr) : Except AutonomyError Unit := do
  require s.enabled .capabilityDisabled
  require (((s.agent ticket).get "requested_execution_mode").pyEq (.str "autonomous"))
    .autonomousNotRequested

/-- The states in which a run may be started or resumed. -/
def mayBegin (intent : Intent) (rt : Members) : Bool :=
  if intent = .start then
    (rt.get "state").pyEq .null || Runtime.stateIn rt [lit "pending", lit "cancelled",
      lit "succeeded", lit "failed", lit "blocked", lit "interrupted"]
  else Runtime.stateIn rt [lit "paused", lit "failed", lit "blocked", lit "interrupted"]

/-- The checks of `_start_or_resume_locked`, up to the reservation. -/
def beginCheck (ticket : PyStr) (intent : Intent) : Except AutonomyError Unit := do
  s.requireCapability ticket
  require (!(s.controls.get? ticket).any s.isAlive) .invalidTransition
  require ((s.runtime ticket).get "state").hashable .typeError
  require (mayBegin intent (s.runtime ticket)) .invalidTransition
  require (!(s.processWorkers.get? ticket).any s.isAlive) .invalidTransition

/-- The registration of a new run, which has not begun. -/
def reserve (ticket run : PyStr) : Manager :=
  { s with
    controls := s.controls.set ticket run,
    processWorkers := s.processWorkers.set ticket run,
    workers := Function.update s.workers run (some ⟨ticket, none, .ended⟩) }

/-- `_start_or_resume_locked`. -/
def startOrResume (ticket : PyStr) (intent : Intent) (request : PyStr) (receipts : List PyStr)
    (env : IntentEnv) : Manager × Except AutonomyError Unit :=
  match s.beginCheck ticket intent with
  | .error e => (s, .error e)
  | .ok () =>
    let rt := Runtime.starting (s.runtime ticket) ticket env.run env.now intent.text request receipts
    let s := s.reserve ticket env.run
    match env.openError with
    | some e => (s.release ticket env.run, .error e)
    | none =>
      match s.persist ticket rt autonomousPatch env.answer with
      | (s, false) => (s.release ticket env.run, .error .statePersistenceFailed)
      | (s, true) =>
        if env.started then (s.setWorker env.run ⟨ticket, none, .entered⟩, .ok ())
        else
          let s := s.release ticket env.run
          let rt := Runtime.interrupted rt "worker_start_failed" env.now
          match s.persist ticket rt interactivePatch env.startFailed with
          | (s, false) => (s, .error .statePersistenceFailed)
          | (s, true) => (s, .error .workerStartFailed)

/-- The intent that a run is to see at its next safe point. -/
def stopOf : Intent → StopIntent
  | .cancel => .cancel
  | .takeover => .takeover
  | _ => .pause

/-- `_request_stop_locked`. -/
def requestStop (ticket : PyStr) (intent : Intent) (request : PyStr) (receipts : List PyStr)
    (env : IntentEnv) : Manager × Except AutonomyError Unit :=
  let rt := s.runtime ticket
  match s.controls.get? ticket with
  | none => (s, .error .invalidTransition)
  | some run =>
    match s.workers run with
    | none => (s, .error .invalidTransition)
    | some w =>
      if !s.isAlive run ||
          !Runtime.stateIn rt [lit "starting", lit "running", lit "pause_requested"] then
        (s, .error (if (rt.get "state").hashable then .invalidTransition else .typeError))
      else if Runtime.stateIn rt [lit "pause_requested"] && intent == .pause then
        (s, .error .invalidTransition)
      else
        match s.persist ticket (Runtime.requested rt ticket intent request env.now receipts) []
          env.answer with
        | (s, false) => (s, .error .statePersistenceFailed)
        | (s, true) =>
          ((s.setWorker run { w with stopIntent := some (stopOf intent) }).emit
            (.stopAccepted run), .ok ())

/-- The part of `handle_intent` that acts on a new request. -/
def applyIntent (ticket : PyStr) (intent : Intent) (request : PyStr) (receipts : List PyStr)
    (env : IntentEnv) : Manager × Except AutonomyError Unit :=
  match intent with
  | .start => s.startOrResume ticket .start request receipts env
  | .resume => s.startOrResume ticket .resume request receipts env
  | .pause => s.requestStop ticket .pause request receipts env
  | .cancel => s.requestStop ticket .cancel request receipts env
  | .takeover => s.requestStop ticket .takeover request receipts env

instance : LawfulBEq (PyStr × Intent × PyStr) :=
  inferInstance

/-- A request that has been handled. -/
def remember (key : PyStr × Intent × PyStr) : Manager :=
  { s with receipts := key :: s.receipts }

/-- The request is the last one that was accepted. -/
def isLastIntent (rt : Members) (intent : Intent) (request : PyStr) : Bool :=
  (rt.get "last_intent").pyEq (.str intent.text) &&
    (rt.get "last_intent_request_id").pyEq (.str request)

/-- `handle_intent`. -/
def handleIntent (ticket : PyStr) (payload : Json) (env : IntentEnv) :
    Manager × Except AutonomyError Unit :=
  match normalizeIntentPayload payload with
  | .error e => (s, .error e)
  | .ok (intent, request) =>
    let key := (ticket, intent, request)
    if key ∈ s.receipts then (s, .ok ())
    else if s.shuttingDown then (s, .error .managerShutdown)
    else if env.answer = .unreadable then (s, .error .ticketNotFound)
    else
      match Runtime.intentReceipts ticket (s.runtime ticket) with
      | .error e => (s, .error e)
      | .ok receipts =>
        if receipts.contains (Runtime.intentReceiptToken ticket intent.text request) then
          (s.remember key, .ok ())
        else if isLastIntent (s.runtime ticket) intent request then (s.remember key, .ok ())
        else
          match s.applyIntent ticket intent request receipts env with
          | (s, .ok ()) => (s.remember key, .ok ())
          | (s, .error e) => (s, .error e)

/-! ## Workers -/

/-- The first section of `_worker_main`. -/
def workerStart (run : PyStr) (w : Worker) (answer : StoreAnswer) (now : PyStr) : Manager :=
  let rt := s.runtime w.ticket
  if answer = .unreadable then s.goto run w .raised
  else if s.shuttingDown || !Runtime.isRun rt run then s.goto run w .leaving
  else if Runtime.stateIn rt [lit "starting"] then
    let rt := Dict.set (Runtime.moved rt "running" now) "started_at" (.str now)
    match s.persist w.ticket rt [] answer with
    | (s, true) => s.goto run w (.executing false)
    | (s, false) => s.goto run w .raised
  else s.goto run w (.executing false)

/-- The stop that a safe point of the run sees. -/
def stopSeen (w : Worker) : Option StopIntent :=
  if s.shuttingDown then some .interrupted else w.stopIntent

/-- `_safe_point`; the executor lets `_RunStopped` through. -/
def safePoint (run : PyStr) (w : Worker) (step : PyStr) (answer : StoreAnswer) (now : PyStr) :
    Manager :=
  let rt := s.runtime w.ticket
  if !s.owns run w then (s.goto run w .leaving).emit (.safePoint run answer .stops)
  else if answer = .unreadable then s.emit (.safePoint run answer .fails)
  else if !Runtime.isRun rt run then (s.goto run w .leaving).emit (.safePoint run answer .stops)
  else
    match s.stopSeen w, s.persist w.ticket (Runtime.safePoint rt (s.stopSeen w) step now)
      (Runtime.safePointMode (s.stopSeen w)) answer with
    | _, (s, false) => s.emit (.safePoint run answer .fails)
    | none, (s, true) => s.emit (.safePoint run answer .continues)
    | some _, (s, true) => (s.goto run w .leaving).emit (.safePoint run answer .stops)

/-- The section that persists the result of a run. -/
def finish (run : PyStr) (w : Worker) (result : ExecutionResult) (answer : StoreAnswer)
    (now : PyStr) (decision : Option FailureDecision) : Manager :=
  let rt := s.runtime w.ticket
  if s.shuttingDown || !s.owns run w then s.goto run w .leaving
  else if answer = .unreadable then s.goto run w .raised
  else if !Runtime.isRun rt run then s.goto run w .leaving
  else
    match s.persist w.ticket (Runtime.terminal rt result now decision) [] answer with
    | (s, true) => s.goto run w .leaving
    | (s, false) => s.goto run w .raised

/-- `_record_executor_failure`. -/
def recordFailure (run : PyStr) (w : Worker) (answer : StoreAnswer) (now : PyStr) : Manager :=
  let rt := s.runtime w.ticket
  if s.shuttingDown || !s.owns run w || answer = .unreadable || !Runtime.isRun rt run then
    s.goto run w .leaving
  else ((s.persist w.ticket (Runtime.failed rt now) [] answer).1).goto run w .leaving

/-- One ticket of the loop of `shutdown`. -/
def interrupt (answers : PyStr → StoreAnswer) (now : PyStr) (item : PyStr × PyStr) : Manager :=
  let s : Manager :=
    match s.workers item.2 with
    | some w => s.setWorker item.2 { w with stopIntent := some .interrupted }
    | none => s
  let rt := s.runtime item.1
  if answers item.1 = .unreadable || !Runtime.stateIn rt activeStates then s
  else (s.persist item.1 (Runtime.interrupted rt "shutdown" now) interactivePatch
    (answers item.1)).1

/-- The section of `shutdown` under the lock. -/
def shutdown (answers : PyStr → StoreAnswer) (now : PyStr) : Manager :=
  if s.shuttingDown then s
  else s.controls.foldl (fun s item => s.interrupt answers now item)
    ({ s with shuttingDown := true }.emit .shutdown)

/-- One action; an action that cannot be taken now has no successor. -/
def step : ManagerAction → Option Manager
  | .intent ticket payload env =>
    -- a run id is never used twice
    if (s.workers env.run).isSome then none else some (s.handleIntent ticket payload env).1
  | .workerStart run answer now =>
    match s.workers run with
    | some w =>
      match w.pc with
      | .entered => some (s.workerStart run w answer now)
      | _ => none
    | none => none
  | .safePoint run step answer now =>
    match s.workers run with
    | some w =>
      match w.pc with
      | .executing _ => if isStep step then some (s.safePoint run w step answer now) else none
      | _ => none
    | none => none
  | .executorReturned run result =>
    match s.workers run with
    | some w =>
      match w.pc with
      | .executing false => some (s.goto run w (.returned result))
      | .executing true => some (s.goto run w (.finishing result))
      | _ => none
    | none => none
  | .executorRaised run =>
    match s.workers run with
    | some w =>
      match w.pc with
      | .executing _ => some (s.goto run w .raised)
      | _ => none
    | none => none
  | .decideRetry run answer decision =>
    match s.workers run with
    | some w =>
      match w.pc with
      | .returned result =>
        if answer = .unreadable then some (s.goto run w .raised)
        else if result.errorCode.isSome ∧
            (Runtime.failureDecisionFor result decision).action = .retry then
          some (s.goto run w (.retrying result))
        else some (s.goto run w (.finishing result))
      | _ => none
    | none => none
  | .retry run =>
    match s.workers run with
    | some w =>
      match w.pc with
      | .retrying result =>
        if !s.shuttingDown && s.owns run w then some (s.goto run w (.executing true))
        else some (s.goto run w (.finishing result))
      | _ => none
    | none => none
  | .finish run answer now decision =>
    match s.workers run with
    | some w =>
      match w.pc with
      | .finishing result => some (s.finish run w result answer now decision)
      | _ => none
    | none => none
  | .recordFailure run answer now =>
    match s.workers run with
    | some w =>
      match w.pc with
      | .raised => some (s.recordFailure run w answer now)
      | _ => none
    | none => none
  | .leave run =>
    match s.workers run with
    | some w =>
      match w.pc with
      | .leaving => some ((s.release w.ticket run).goto run w .ended)
      | _ => none
    | none => none
  | .shutdown answers now => some (s.shutdown answers now)

/-! ## The invariant -/

/-- A stop of the run has been accepted, or the manager shuts down. -/
def StoppedFor (run : PyStr) : Prop :=
  .stopAccepted run ∈ s.history ∨ s.shuttingDown = true

/-- What every step keeps. -/
structure Inv : Prop where
  registered : ∀ ticket run, s.controls.get? ticket = some run →
    ∃ w, s.workers run = some w ∧ w.ticket = ticket
  stopped : ∀ run, .stopAccepted run ∈ s.history → ∃ w, s.workers run = some w ∧
    w.stopIntent ≠ none ∧ ((s.runtime w.ticket).get "run_id" = .str run →
      ¬Runtime.Live (s.runtime w.ticket))
  shutdown : .shutdown ∈ s.history → s.shuttingDown = true
  order : s.history.Pairwise fun later earlier => ∀ run, earlier.Stops run → later.Quiet run

variable {s} {s' : Manager} {ticket run : PyStr} {w w' : Worker}

theorem runtime_write (t rt patch) (ticket : PyStr) :
    (s.write t rt patch).runtime ticket = if ticket = t then rt else s.runtime ticket := by
  unfold runtime write
  split_ifs with ht
  · simp [ht]
  · simp [ht]

theorem Inv.stoppedFor (h : s.Inv) {e : RunEvent} (he : e ∈ s.history) (hs : e.Stops run) :
    s.StoppedFor run := by
  rcases hs with rfl | rfl
  · exact Or.inl he
  · exact Or.inr (h.shutdown he)

/-- What is persisted says nothing wrong about a run that is stopped. -/
theorem Inv.write (h : s.Inv) {rt patch : Members}
    (hq : ∀ run, s.StoppedFor run → rt.get "run_id" = .str run → ¬Runtime.Live rt) :
    (s.write ticket rt patch).Inv where
  registered := h.registered
  stopped run hm := by
    have hm : .stopAccepted run ∈ s.history := by simpa [Manager.write] using hm
    obtain ⟨w, hw, hi, hl⟩ := h.stopped run hm
    refine ⟨w, hw, hi, ?_⟩
    rw [runtime_write]
    split_ifs
    · exact hq run (Or.inl hm)
    · exact hl
  shutdown hm := h.shutdown (by simpa [Manager.write] using hm)
  order := List.pairwise_cons.mpr
    ⟨fun _ he run hs => hq run (h.stoppedFor he hs), h.order⟩

theorem Inv.persist (h : s.Inv) (ticket : PyStr) (rt patch : Members) (answer : StoreAnswer)
    (hq : ∀ run, s.StoppedFor run → rt.get "run_id" = .str run → ¬Runtime.Live rt) :
    (s.persist ticket rt patch answer).1.Inv := by
  cases answer with
  | accepted => exact h.write hq
  | unconfirmed => exact h.write hq
  | refused => exact h
  | unreadable => exact h

/-- A worker moves on; a stop it has been told stays. -/
theorem Inv.setWorker (h : s.Inv) (hw : s.workers run = some w) (w' : Worker)
    (ht : w'.ticket = w.ticket) (hi : w.stopIntent ≠ none → w'.stopIntent ≠ none) : (s.setWorker run w').Inv where
  registered t r hr := by
    obtain ⟨v, hv, hvt⟩ := h.registered t r hr
    by_cases hrr : r = run
    · subst hrr
      obtain rfl : w = v := Option.some.inj (hw.symm.trans hv)
      exact ⟨w', by simp [Manager.setWorker], ht.trans hvt⟩
    · exact ⟨v, by simpa [Manager.setWorker, hrr] using hv, hvt⟩
  stopped r hm := by
    obtain ⟨v, hv, hvi, hl⟩ := h.stopped r hm
    by_cases hrr : r = run
    · subst hrr
      obtain rfl : w = v := Option.some.inj (hw.symm.trans hv)
      exact ⟨w', by simp [Manager.setWorker], hi hvi, by rw [ht]; exact hl⟩
    · exact ⟨v, by simpa [Manager.setWorker, hrr] using hv, hvi, hl⟩
  shutdown := h.shutdown
  order := h.order

theorem Inv.goto (h : s.Inv) (hw : s.workers run = some w) (pc : WorkerPc) :
    (s.goto run w pc).Inv :=
  h.setWorker hw _ rfl id

theorem Inv.emit_safePoint (h : s.Inv) {answer : StoreAnswer} {outcome : SafePointOutcome}
    (hq : s.StoppedFor run → outcome ≠ .continues ∧ (answer = .accepted → outcome = .stops)) :
    (s.emit (.safePoint run answer outcome)).Inv where
  registered := h.registered
  stopped r hm := h.stopped r (by simpa [Manager.emit] using hm)
  shutdown hm := h.shutdown (by simpa [Manager.emit] using hm)
  order := List.pairwise_cons.mpr ⟨fun _ he r hs hr => hq (hr ▸ h.stoppedFor he hs), h.order⟩

theorem Inv.emit_stopAccepted (h : s.Inv) (hw : s.workers run = some w) (hi : w.stopIntent ≠ none)
    (hl : ¬Runtime.Live (s.runtime w.ticket)) : (s.emit (.stopAccepted run)).Inv where
  registered := h.registered
  stopped r hm := by
    rcases List.mem_cons.mp hm with hr | hm
    · obtain rfl := RunEvent.stopAccepted.inj hr
      exact ⟨w, hw, hi, fun _ => hl⟩
    · exact h.stopped r hm
  shutdown hm := h.shutdown (by simpa [Manager.emit] using hm)
  order := List.pairwise_cons.mpr ⟨fun _ _ _ _ => trivial, h.order⟩

theorem Inv.release (h : s.Inv) (ticket run : PyStr) : (s.release ticket run).Inv := by
  unfold Manager.release
  by_cases hc : s.controls.get? ticket = some run
  · rw [if_pos hc]
    refine ⟨fun t r hr => h.registered t r ?_, h.stopped, h.shutdown, h.order⟩
    have hr : (s.controls.erase ticket).get? t = some r := hr
    rw [Dict.get?_erase] at hr
    split_ifs at hr
    exact hr
  · rw [if_neg hc]
    exact h

/-- A new run: nothing has been stopped that has its id. -/
theorem Inv.reserve (h : s.Inv) (ticket : PyStr) (hfresh : s.workers run = none) :
    (s.reserve ticket run).Inv where
  registered t r hr := by
    have hr : (s.controls.set ticket run).get? t = some r := hr
    rw [Dict.get?_set] at hr
    split_ifs at hr with ht
    · obtain rfl := Option.some.inj hr
      exact ⟨⟨ticket, none, .ended⟩, by simp [Manager.reserve], ht.symm⟩
    · obtain ⟨v, hv, hvt⟩ := h.registered t r hr
      have hne : r ≠ run := by
        rintro rfl
        rw [hfresh] at hv
        cases hv
      exact ⟨v, by simpa [Manager.reserve, hne] using hv, hvt⟩
  stopped r hm := by
    obtain ⟨v, hv, hvi, hl⟩ := h.stopped r hm
    have hne : r ≠ run := by
      rintro rfl
      rw [hfresh] at hv
      cases hv
    exact ⟨v, by simpa [Manager.reserve, hne] using hv, hvi, hl⟩
  shutdown := h.shutdown
  order := h.order

@[simp] theorem workers_persist (t : PyStr) (rt patch : Members) (answer : StoreAnswer) :
    (s.persist t rt patch answer).1.workers = s.workers := by
  cases answer <;> rfl

@[simp] theorem workers_release (ticket run : PyStr) : (s.release ticket run).workers = s.workers := by
  unfold Manager.release
  split_ifs <;> rfl

theorem stoppedFor_persist (t : PyStr) (rt patch : Members) (answer : StoreAnswer) :
    (s.persist t rt patch answer).1.StoppedFor run ↔ s.StoppedFor run := by
  cases answer <;> simp [Manager.persist, StoppedFor, Manager.write]

theorem Inv.not_stoppedFor (h : s.Inv) (hfresh : s.workers run = none)
    (hshut : s.shuttingDown = false) : ¬s.StoppedFor run := by
  rintro (hm | hm)
  · obtain ⟨v, hv, -⟩ := h.stopped run hm
    rw [hfresh] at hv
    cases hv
  · rw [hshut] at hm
    cases hm

/-! ## What a section keeps -/

theorem Inv.startOrResume (h : s.Inv) (hshut : s.shuttingDown = false) {intent : Intent}
    {request : PyStr} {receipts : List PyStr} {env : IntentEnv}
    (hfresh : s.workers env.run = none) :
    (s.startOrResume ticket intent request receipts env).1.Inv := by
  unfold Manager.startOrResume
  cases s.beginCheck ticket intent with
  | error e => exact h
  | ok u =>
    have hr := h.reserve ticket hfresh
    have hno : ¬(s.reserve ticket env.run).StoppedFor env.run := h.not_stoppedFor hfresh hshut
    have hrun := Runtime.run_starting (s.runtime ticket) ticket env.run env.now intent.text request
      receipts
    generalize Runtime.starting (s.runtime ticket) ticket env.run env.now intent.text request
      receipts = rt at hrun ⊢
    have hw : (s.reserve ticket env.run).workers env.run = some ⟨ticket, none, .ended⟩ := by
      simp [Manager.reserve]
    have hp : ((s.reserve ticket env.run).persist ticket rt autonomousPatch env.answer).1.Inv := by
      refine hr.persist _ _ _ _ fun r hs hr' => ?_
      obtain rfl : env.run = r := by simpa [hrun] using hr'
      exact absurd hs hno
    rw [← workers_persist ticket rt autonomousPatch env.answer] at hw
    simp only
    cases env.openError with
    | some e => exact hr.release ticket env.run
    | none =>
      simp only
      rcases hpe : (s.reserve ticket env.run).persist ticket rt autonomousPatch env.answer with
        ⟨s₁, _ | _⟩
      · rw [hpe] at hp
        exact hp.release ticket env.run
      · rw [hpe] at hp hw
        simp only
        split_ifs
        · exact hp.setWorker hw _ rfl fun hi => absurd rfl hi
        · have hq := (hp.release ticket env.run).persist ticket
            (Runtime.interrupted rt "worker_start_failed" env.now) interactivePatch env.startFailed
            fun _ _ _ => by simp [Runtime.Live]
          rcases hpe' : (s₁.release ticket env.run).persist ticket
            (Runtime.interrupted rt "worker_start_failed" env.now) interactivePatch
              env.startFailed with ⟨s₂, _ | _⟩ <;> rw [hpe'] at hq <;> exact hq

/-- An accepted stop: the worker is told, and the record says so. -/
theorem Inv.requestStop (h : s.Inv) {intent : Intent} {request : PyStr} {receipts : List PyStr}
    {env : IntentEnv} : (s.requestStop ticket intent request receipts env).1.Inv := by
  unfold Manager.requestStop
  cases hc : s.controls.get? ticket with
  | none => exact h
  | some run =>
    simp only
    cases hw : s.workers run with
    | none => exact h
    | some w =>
      have hno := Runtime.not_live_requested (s.runtime ticket) ticket intent request env.now receipts
      generalize Runtime.requested (s.runtime ticket) ticket intent request env.now receipts = rt
        at hno ⊢
      simp only
      split_ifs
      · exact h
      · exact h
      · exact h
      · cases env.answer with
        | accepted =>
          have hwr : (s.write ticket rt []).Inv := h.write fun _ _ _ => hno
          have hset := hwr.setWorker hw { w with stopIntent := some (stopOf intent) } rfl
            fun _ => by simp
          refine hset.emit_stopAccepted (Function.update_self ..) (by simp) ?_
          obtain ⟨v, hv, hvt⟩ := h.registered ticket run hc
          obtain rfl : w = v := Option.some.inj (hw.symm.trans hv)
          change ¬Runtime.Live ((s.write ticket rt []).runtime w.ticket)
          rwa [runtime_write, if_pos hvt]
        | unconfirmed => exact h.write fun _ _ _ => hno
        | refused => exact h
        | unreadable => exact h

theorem Inv.remember (h : s.Inv) (key : PyStr × Intent × PyStr) : (s.remember key).Inv :=
  ⟨h.registered, h.stopped, h.shutdown, h.order⟩

theorem Inv.applyIntent (h : s.Inv) (hshut : s.shuttingDown = false) (ticket : PyStr)
    (intent : Intent) (request : PyStr) (receipts : List PyStr) {env : IntentEnv}
    (hfresh : s.workers env.run = none) :
    (s.applyIntent ticket intent request receipts env).1.Inv := by
  cases intent with
  | start => exact h.startOrResume hshut hfresh
  | resume => exact h.startOrResume hshut hfresh
  | pause => exact h.requestStop
  | cancel => exact h.requestStop
  | takeover => exact h.requestStop

theorem Inv.handleIntent (h : s.Inv) {payload : Json} {env : IntentEnv}
    (hfresh : s.workers env.run = none) : (s.handleIntent ticket payload env).1.Inv := by
  unfold Manager.handleIntent
  cases normalizeIntentPayload payload with
  | error e => exact h
  | ok r =>
    obtain ⟨intent, request⟩ := r
    by_cases hkey : (ticket, intent, request) ∈ s.receipts
    · simpa only [if_pos hkey] using h
    by_cases hshut : s.shuttingDown = true
    · simpa only [if_neg hkey, if_pos hshut] using h
    by_cases hans : env.answer = .unreadable
    · simpa only [if_neg hkey, if_neg hshut, if_pos hans] using h
    simp only [if_neg hkey, if_neg hshut, if_neg hans]
    cases Runtime.intentReceipts ticket (s.runtime ticket) with
    | error e => exact h
    | ok receipts =>
      simp only
      split
      · exact h.remember _
      · split
        · exact h.remember _
        · have ha := h.applyIntent (by simpa using hshut) ticket intent request receipts hfresh
          split <;> rename_i heq <;> rw [heq] at ha
          · exact ha.remember _
          · exact ha

theorem Inv.workerStart (h : s.Inv) (hw : s.workers run = some w) {answer : StoreAnswer}
    {now : PyStr} : (s.workerStart run w answer now).Inv := by
  unfold Manager.workerStart
  simp only
  split_ifs with _ hown hst
  · exact h.goto hw _
  · exact h.goto hw _
  · generalize hrt : Dict.set (Runtime.moved (s.runtime w.ticket) "running" now) "started_at"
      (.str now) = rt
    simp only [Bool.or_eq_true, Bool.not_eq_true', not_or, Bool.not_eq_true,
      Bool.not_eq_false] at hown
    have hp : (s.persist w.ticket rt [] answer).1.Inv := by
      refine h.persist _ _ _ _ fun r hs hr => ?_
      have hrun : (s.runtime w.ticket).get "run_id" = .str run := by
        simpa [Runtime.isRun] using hown.2
      obtain rfl : run = r := by simpa [← hrt, hrun] using hr
      rcases hs with hs | hs
      · -- the record of a stopped run is not `starting`
        obtain ⟨v, hv, -, hl⟩ := h.stopped run hs
        obtain rfl : w = v := Option.some.inj (hw.symm.trans hv)
        exact absurd (Or.inl (by simpa [Runtime.stateIn] using hst)) (hl hrun)
      · rw [hown.1] at hs
        cases hs
    rw [← workers_persist w.ticket rt [] answer] at hw
    split <;> rename_i heq <;> rw [heq] at hp hw <;> exact hp.goto hw _
  · exact h.goto hw _

theorem Inv.safePoint (h : s.Inv) (hw : s.workers run = some w) {step : PyStr}
    {answer : StoreAnswer} {now : PyStr} : (s.safePoint run w step answer now).Inv := by
  unfold Manager.safePoint
  simp only
  split_ifs with _ hans hrun
  · exact (h.goto hw _).emit_safePoint fun _ => by simp
  · exact h.emit_safePoint fun _ => by simp [hans]
  · exact (h.goto hw _).emit_safePoint fun _ => by simp
  · have hstop : ∀ {r}, s.StoppedFor r → r = run → s.stopSeen w ≠ none := by
      rintro r (hs | hs) rfl
      · obtain ⟨v, hv, hi, -⟩ := h.stopped r hs
        obtain rfl : w = v := Option.some.inj (hw.symm.trans hv)
        unfold stopSeen
        split_ifs
        · simp
        · exact hi
      · simp [stopSeen, hs]
    have hp : (s.persist w.ticket (Runtime.safePoint (s.runtime w.ticket) (s.stopSeen w) step now)
        (Runtime.safePointMode (s.stopSeen w)) answer).1.Inv := by
      refine h.persist _ _ _ _ fun r hs hr => ?_
      have hrr : r = run := by
        have : (s.runtime w.ticket).get "run_id" = .str run := by simpa [Runtime.isRun] using hrun
        simpa [this, eq_comm] using hr
      exact Runtime.not_live_safePoint _ (hstop hs hrr) step now
    have hold : (s.persist w.ticket (Runtime.safePoint (s.runtime w.ticket) (s.stopSeen w) step now)
        (Runtime.safePointMode (s.stopSeen w)) answer).1.StoppedFor run → s.stopSeen w ≠ none :=
      fun hs => hstop ((stoppedFor_persist _ _ _ _).mp hs) rfl
    rw [← workers_persist w.ticket (Runtime.safePoint (s.runtime w.ticket) (s.stopSeen w) step now)
      (Runtime.safePointMode (s.stopSeen w)) answer] at hw
    split <;> rename_i hst heq <;> rw [heq] at hp hw hold
    · refine hp.emit_safePoint fun _ => ⟨by simp, fun ha => ?_⟩
      subst ha
      cases heq
    · exact hp.emit_safePoint fun hs => absurd hst (hold hs)
    · exact (hp.goto hw _).emit_safePoint fun _ => by simp

theorem Inv.finish (h : s.Inv) (hw : s.workers run = some w) {result : ExecutionResult}
    {answer : StoreAnswer} {now : PyStr} {decision : Option FailureDecision} :
    (s.finish run w result answer now decision).Inv := by
  unfold Manager.finish
  simp only
  split_ifs
  · exact h.goto hw _
  · exact h.goto hw _
  · exact h.goto hw _
  · have hp := h.persist w.ticket (Runtime.terminal (s.runtime w.ticket) result now decision) []
      answer fun _ _ _ => Runtime.not_live_terminal _ _ _ _
    rw [← workers_persist w.ticket (Runtime.terminal (s.runtime w.ticket) result now decision) []
      answer] at hw
    split <;> rename_i heq <;> rw [heq] at hp hw <;> exact hp.goto hw _

theorem Inv.recordFailure (h : s.Inv) (hw : s.workers run = some w) {answer : StoreAnswer}
    {now : PyStr} : (s.recordFailure run w answer now).Inv := by
  unfold Manager.recordFailure
  simp only
  split_ifs
  · exact h.goto hw _
  · have hp := h.persist w.ticket (Runtime.failed (s.runtime w.ticket) now) [] answer
      fun _ _ _ => by simp [Runtime.Live]
    exact hp.goto (by simpa using hw) _

theorem Inv.interrupt (h : s.Inv) (answers : PyStr → StoreAnswer) (now : PyStr)
    (item : PyStr × PyStr) : (s.interrupt answers now item).Inv := by
  unfold Manager.interrupt
  have hset : Inv (match s.workers item.2 with
      | some w => s.setWorker item.2 { w with stopIntent := some .interrupted }
      | none => s) := by
    cases hw : s.workers item.2 with
    | none => exact h
    | some w => exact h.setWorker hw _ rfl fun _ => by simp
  simp only
  split_ifs
  · exact hset
  · exact hset.persist _ _ _ _ fun _ _ _ => by simp [Runtime.Live]

theorem Inv.shutdown' (h : s.Inv) (answers : PyStr → StoreAnswer) (now : PyStr) :
    (s.shutdown answers now).Inv := by
  unfold Manager.shutdown
  split_ifs
  · exact h
  · have hbegin : Inv ({ s with shuttingDown := true }.emit .shutdown) := by
      refine ⟨h.registered, fun r hm => h.stopped r (by simpa [Manager.emit] using hm),
        fun _ => rfl, List.pairwise_cons.mpr ⟨fun _ _ _ _ => trivial, h.order⟩⟩
    generalize ({ s with shuttingDown := true }.emit .shutdown) = t at hbegin
    induction s.controls generalizing t with
    | nil => exact hbegin
    | cons item items ih => exact ih _ (hbegin.interrupt answers now item)

/-- One action keeps the invariant. -/
theorem Inv.step (h : s.Inv) {a : ManagerAction} (hs : s.step a = some s') : s'.Inv := by
  cases a with
  | intent ticket payload env =>
    simp only [Manager.step] at hs
    split_ifs at hs with hf
    obtain rfl := Option.some.inj hs
    exact h.handleIntent (by simpa using hf)
  | shutdown answers now =>
    obtain rfl := Option.some.inj hs
    exact h.shutdown' answers now
  | workerStart run answer now =>
    simp only [Manager.step] at hs
    split at hs
    · rename_i w hw
      split at hs
      · obtain rfl := Option.some.inj hs
        exact h.workerStart hw
      · cases hs
    · cases hs
  | safePoint run step answer now =>
    simp only [Manager.step] at hs
    split at hs
    · rename_i w hw
      split at hs
      · split_ifs at hs
        obtain rfl := Option.some.inj hs
        exact h.safePoint hw
      · cases hs
    · cases hs
  | executorReturned run result =>
    simp only [Manager.step] at hs
    split at hs
    · rename_i w hw
      split at hs
      · obtain rfl := Option.some.inj hs
        exact h.goto hw _
      · obtain rfl := Option.some.inj hs
        exact h.goto hw _
      · cases hs
    · cases hs
  | executorRaised run =>
    simp only [Manager.step] at hs
    split at hs
    · rename_i w hw
      split at hs
      · obtain rfl := Option.some.inj hs
        exact h.goto hw _
      · cases hs
    · cases hs
  | decideRetry run answer decision =>
    simp only [Manager.step] at hs
    split at hs
    · rename_i w hw
      split at hs
      · split_ifs at hs <;> obtain rfl := Option.some.inj hs <;> exact h.goto hw _
      · cases hs
    · cases hs
  | retry run =>
    simp only [Manager.step] at hs
    split at hs
    · rename_i w hw
      split at hs
      · split_ifs at hs <;> obtain rfl := Option.some.inj hs <;> exact h.goto hw _
      · cases hs
    · cases hs
  | finish run answer now decision =>
    simp only [Manager.step] at hs
    split at hs
    · rename_i w hw
      split at hs
      · obtain rfl := Option.some.inj hs
        exact h.finish hw
      · cases hs
    · cases hs
  | recordFailure run answer now =>
    simp only [Manager.step] at hs
    split at hs
    · rename_i w hw
      split at hs
      · obtain rfl := Option.some.inj hs
        exact h.recordFailure hw
      · cases hs
    · cases hs
  | leave run =>
    simp only [Manager.step] at hs
    split at hs
    · rename_i w hw
      split at hs
      · obtain rfl := Option.some.inj hs
        exact (h.release w.ticket run).goto (by simpa using hw) _
      · cases hs
    · cases hs

theorem inv_initial (enabled : Bool) (agent : PyStr → Members) : (initial enabled agent).Inv :=
  ⟨fun _ _ h => (by cases h), fun _ h => (by cases h), fun h => (by cases h), List.Pairwise.nil⟩

/-- After a stop of the run has been accepted, or the shutdown has begun, no record is persisted
that says that the run is starting or running, and every safe point of the run raises: it raises
`_RunStopped` if the control plane does what it is asked. -/
theorem stop_never_lost (enabled : Bool) (agent : PyStr → Members) (acts : List ManagerAction)
    (s : Manager) (hrun : Transition.run step (initial enabled agent) acts = some s)
    (e : RunEvent) (later earlier : List RunEvent) (hhist : s.history = later ++ e :: earlier)
    (run : PyStr) (he : e = .stopAccepted run ∨ e = .shutdown) :
    (∀ ticket rt, .persisted ticket rt ∈ later → rt.get "run_id" = .str run →
      rt.get "state" ≠ .str "starting" ∧ rt.get "state" ≠ .str "running") ∧
    ∀ answer outcome, .safePoint run answer outcome ∈ later →
      outcome ≠ .continues ∧ (answer = .accepted → outcome = .stops) := by
  have h : s.Inv := Transition.run_invariant (fun _ _ _ h hs => h.step hs) (inv_initial _ _) hrun
  have horder := h.order
  rw [hhist, List.pairwise_append] at horder
  have hquiet : ∀ later' ∈ later, later'.Quiet run := fun _ hm => horder.2.2 _ hm e (by simp) run he
  exact ⟨fun t rt hm hr => not_or.mp (hquiet _ hm hr), fun _ _ hm => hquiet _ hm rfl⟩

/-! ## A pause during a run -/

/-- A ticket for which the automatic mode has been asked. -/
def autonomousTicket (_ : PyStr) : Members :=
  [("requested_execution_mode", .str "autonomous"),
    ("autonomous_run", .obj [("state", .str "pending"), ("revision", .int 0)])]

/-- The control plane does what it is asked. -/
def obedient : IntentEnv :=
  ⟨.accepted, "run-1", "t", none, true, .accepted⟩

def request (intent name : String) : Json :=
  .obj [("intent", .str intent), ("request_id", .str name)]

/-- A run is started and paused; the next safe point sees it. -/
def pausedRun : List ManagerAction :=
  [.intent "T" (request "start" "a") obedient, .workerStart "run-1" .accepted "t",
    .intent "T" (request "pause" "b") { obedient with run := "run-2" },
    .safePoint "run-1" "code" .accepted "t"]

/-- The run of an accepted stop that two events follow. -/
def stopBeforeTwo : List RunEvent → Option PyStr
  | _ :: _ :: .stopAccepted run :: _ => some run
  | _ => none

theorem stop_never_lost_pause : ∃ s later earlier,
    Transition.run step (initial true autonomousTicket) pausedRun = some s ∧
      s.history = later ++ .stopAccepted "run-1" :: earlier ∧ later.length = 2 ∧
      ∀ answer outcome, .safePoint "run-1" answer outcome ∈ later → outcome ≠ .continues := by
  have hrun : ((Transition.run step (initial true autonomousTicket) pausedRun).any fun s =>
      stopBeforeTwo s.history == some "run-1") = true := by
    decide +kernel
  obtain ⟨s, hs, hl⟩ := (Option.any_eq_true _ _).mp hrun
  unfold stopBeforeTwo at hl
  split at hl
  · rename_i e₁ e₂ run earlier hist
    obtain rfl := Option.some.inj (beq_iff_eq.mp hl)
    refine ⟨s, [e₁, e₂], earlier, hs, hist, rfl, fun answer outcome hm => ?_⟩
    exact ((stop_never_lost true _ _ s hs _ [e₁, e₂] earlier hist "run-1"
      (Or.inl rfl)).2 answer outcome hm).1
  · cases hl

end Manager

end Icode
