import Icode.Autonomy

/-!
# The managers of one process

A process may have several `AutonomyManager`s: a new one is built while a worker of the one before
still runs. Each has a lock of its own; what they share is the metadata of the tickets and
`_PROCESS_WORKERS`, the table of the workers of the process by ticket directory.

`Manager` takes a section under the lock as one step. Here a section is the list of its accesses to
what the managers share (`LockedOp`), and `todo` is what is left of the section that holds the lock,
or of `_recover_stale_runs`, which runs before the manager can be called. An action `advance` does
the next access; between two of them anything may happen at other managers, their workers included.
A read and an update of metadata are one access each.
-/

namespace Icode

open Py

/-! ## What an update of a record keeps -/

namespace Runtime

theorem revision_nonneg (rt : Members) : 0 ≤ revision rt := by
  unfold revision
  split
  · split_ifs with h
    · exact h
    · exact le_rfl
  · exact le_rfl

theorem revision_of_get {rt next : Members} (h : next.get "revision" = .int (revision rt + 1)) :
    revision next = revision rt + 1 := by
  have hn : 0 ≤ revision rt + 1 := by
    have := revision_nonneg rt
    omega
  rw [revision, h]
  exact if_pos hn

theorem revision_starting (rt : Members) (ticket run now intent request : PyStr)
    (receipts : List PyStr) :
    revision (starting rt ticket run now intent request receipts) = revision rt + 1 := by
  refine revision_of_get ?_
  unfold starting
  simp only
  split_ifs
  · rfl
  · rw [Members.get_set]
    rfl

theorem revision_requested (rt : Members) (ticket : PyStr) (intent : Intent) (request now : PyStr)
    (receipts : List PyStr) :
    revision (requested rt ticket intent request now receipts) = revision rt + 1 :=
  revision_of_get (by simp [requested, moved, Dict.update])

/-- The keys of a record that say how often it has been updated and which intents it has taken. -/
def intentKeys : List PyStr :=
  [lit "intent_receipts", lit "last_intent", lit "last_intent_request_id"]

/-- `next` is an update of the record `rt` that takes no intent. -/
structure Succeeds (rt next : Members) : Prop where
  revision : revision next = revision rt + 1
  intents : ∀ key ∈ intentKeys, next.get key = rt.get key

theorem succeeds_moved (rt : Members) (state now : PyStr) : Succeeds rt (moved rt state now) where
  revision := revision_of_get (by simp [moved, Dict.update])
  intents key hkey := by
    simp only [intentKeys, List.mem_cons, List.not_mem_nil, or_false] at hkey
    rcases hkey with rfl | rfl | rfl <;> simp [moved, Dict.update]

theorem Succeeds.set {rt next : Members} (h : Succeeds rt next) (key : PyStr)
    (hkey : key ∉ lit "revision" :: intentKeys) (v : Json) :
    Succeeds rt (Dict.set next key v) := by
  have hne : lit "revision" ≠ key := by
    rintro rfl
    exact hkey List.mem_cons_self
  refine ⟨?_, fun k hk => ?_⟩
  · rw [← h.revision]
    simp only [Runtime.revision, Members.get_set, if_neg hne]
  · rw [Members.get_set, if_neg, h.intents k hk]
    rintro rfl
    exact hkey (List.mem_cons_of_mem _ hk)

theorem Succeeds.erase {rt next : Members} (h : Succeeds rt next) (key : PyStr)
    (hkey : key ∉ lit "revision" :: intentKeys) : Succeeds rt (Dict.erase next key) := by
  have hne : lit "revision" ≠ key := by
    rintro rfl
    exact hkey List.mem_cons_self
  refine ⟨?_, fun k hk => ?_⟩
  · rw [← h.revision]
    simp only [Runtime.revision, Members.get_erase, if_neg hne]
  · rw [Members.get_erase, if_neg, h.intents k hk]
    rintro rfl
    exact hkey (List.mem_cons_of_mem _ hk)

theorem succeeds_running (rt : Members) (now : PyStr) :
    Succeeds rt (Dict.set (moved rt "running" now) "started_at" (.str now)) :=
  (succeeds_moved rt _ now).set "started_at" (by decide) _

theorem succeeds_finished (rt : Members) (state now : PyStr) :
    Succeeds rt (finished rt state now) :=
  (succeeds_moved rt state now).set "finished_at" (by decide) _

theorem succeeds_interrupted (rt : Members) (code now : PyStr) :
    Succeeds rt (interrupted rt code now) :=
  (succeeds_finished rt _ now).set "error_code" (by decide) _

theorem succeeds_failed (rt : Members) (now : PyStr) : Succeeds rt (failed rt now) :=
  (succeeds_finished rt _ now).set "error_code" (by decide) _

theorem succeeds_safePoint (rt : Members) (stop : Option StopIntent) (step now : PyStr) :
    Succeeds rt (safePoint rt stop step now) := by
  have hnext := (succeeds_moved rt (safePointState stop) now).set "last_step" (by decide) (.str step)
  unfold safePoint
  rcases stop with _ | _ | _ | _ | _
  · exact hnext
  · exact hnext.set "finished_at" (by decide) _
  · exact hnext.set "finished_at" (by decide) _
  · exact hnext.set "finished_at" (by decide) _
  · exact (hnext.set "error_code" (by decide) _).set "finished_at" (by decide) _

theorem Succeeds.withFailure {rt next : Members} (h : Succeeds rt next) (result : ExecutionResult)
    (code : PyStr) (answer : Option FailureDecision) :
    Succeeds rt (withFailure next rt result code answer) := by
  unfold Runtime.withFailure
  have hkept (v w : Json) := (h.set "failure_decision" (by decide) v).set "failure_history"
    (by decide) w
  simp only
  split_ifs
  · exact (hkept _ _).set "error_code" (by decide) _
  · exact hkept _ _

theorem Succeeds.lastStep {rt next : Members} (h : Succeeds rt next) (step : Option PyStr) :
    Succeeds rt (match step with
      | some step => Dict.set next "last_step" (.str step)
      | none => next) := by
  cases step with
  | none => exact h
  | some step => exact h.set "last_step" (by decide) _

theorem succeeds_terminal (rt : Members) (result : ExecutionResult) (now : PyStr)
    (answer : Option FailureDecision) : Succeeds rt (terminal rt result now answer) := by
  have hstep := (succeeds_finished rt result.state.text now).lastStep result.lastStep
  have hcleared {next : Members} (h : Succeeds rt next) :=
    (h.erase "failure_decision" (by decide)).set "failure_history" (by decide) (.arr [])
  unfold terminal
  simp only
  cases resultError result with
  | none =>
    simp only
    split_ifs
    · exact hcleared (hstep.erase "error_code" (by decide))
    · exact hstep.erase "error_code" (by decide)
  | some code =>
    have hcode := hstep.set "error_code" (by decide) (.str code)
    simp only
    split_ifs
    · exact (hcleared hcode).withFailure result code answer
    · exact hcode.withFailure result code answer

end Runtime

/-! ## Sections -/

/-- A record that is to be persisted, made from the record that has been read. -/
structure RunUpdate where
  ticket : PyStr
  read : Members
  next : Members
  /-- What is written beside it. -/
  patch : Members

/-- What a section does after an update. -/
inductive AfterUpdate where
  /-- `_recover_stale_runs`, with the id of the run that was live when it read. -/
  | recovered (live : Option PyStr)
  /-- The loop of `shutdown` goes on. -/
  | interrupted (run : ℕ)
  | launch (run : ℕ) (intent : Intent) (request : PyStr)
  | startFailed
  | stop (run : ℕ) (intent : Intent) (request : PyStr)
  /-- A worker goes on, at one place if the update returns and at another if it raises. -/
  | goto (run : ℕ) (next failed : WorkerPc)

/-- The intent that an update accepts. -/
def AfterUpdate.intent? : AfterUpdate → Option (Intent × PyStr)
  | .launch _ intent request => some (intent, request)
  | .stop _ intent request => some (intent, request)
  | _ => none

/-- One access of a section to what the managers share, with what the section knows by then. -/
inductive LockedOp where
  /-- `_ticket`, for a request that has been handled. -/
  | replay (ticket : PyStr)
  /-- `_ticket`, for a new request. -/
  | ticket (ticket : PyStr) (intent : Intent) (request : PyStr)
  /-- The check of the persisted receipts. -/
  | receipts (ticket : PyStr) (intent : Intent) (request : PyStr) (mode : Json)
  /-- `_start_or_resume_locked` up to its read of the run. -/
  | startOrResume (ticket : PyStr) (intent : Intent) (request : PyStr) (mode : Json)
  /-- `_reserve_process_worker`. -/
  | reserve (ticket : PyStr) (intent : Intent) (request : PyStr) (read : Members)
      (receipts : List PyStr)
  /-- `workspace_manager.open`. -/
  | openWorkspace (run : ℕ) (intent : Intent) (request : PyStr) (u : RunUpdate)
  | update (u : RunUpdate) (after : AfterUpdate)
  /-- `thread.start()`. -/
  | launch (run : ℕ) (intent : Intent) (request : PyStr) (u : RunUpdate)
  /-- `_release_worker_locked`. -/
  | release (ticket : PyStr) (run : ℕ)
  /-- `_request_stop_locked` up to its update. -/
  | requestStop (ticket : PyStr) (intent : Intent) (request : PyStr)
  /-- One control of the loop of `shutdown`. -/
  | interrupt (ticket : PyStr) (run : ℕ)
  /-- One ticket of `_recover_stale_runs`: the read. -/
  | recover (ticket : PyStr)
  /-- `_has_live_process_worker`. -/
  | recoverCheck (ticket : PyStr) (read : Members) (live : Option PyStr)

/-- The access is the one that the worker of run `n` waits for. -/
def LockedOp.resumes (n : ℕ) : LockedOp → Bool
  | .update _ (.goto k _ _) => k == n
  | _ => false

/-- The access is one that a worker waits for. -/
def LockedOp.ofWorker : LockedOp → Bool
  | .update _ (.goto _ _ _) => true
  | _ => false

/-- An access that carries nothing of what has been read of a run. -/
def LockedOp.plain : LockedOp → Bool
  | .replay _ => true
  | .ticket _ _ _ => true
  | .receipts _ _ _ _ => true
  | .release _ _ => true
  | .interrupt _ _ => true
  | .recover _ => true
  | _ => false

/-- An `AutonomyManager`. -/
structure ProcessManager where
  enabled : Bool
  shuttingDown : Bool
  /-- `_controls` and `_workers`, which are set and cleared together. -/
  controls : Dict PyStr ℕ
  /-- The keys of `_receipts`. -/
  receipts : List (PyStr × Intent × PyStr)
  /-- What is left of the section that holds the lock. -/
  todo : List LockedOp
  /-- How the last intent has ended. -/
  reply : Option (Except AutonomyError Unit)

/-- A `RunControl` and its thread. -/
structure RunControl where
  manager : ℕ
  ticket : PyStr
  runId : PyStr
  stopIntent : Option StopIntent
  /-- Where the thread stands; `none` as long as it has no `ident`. -/
  thread : Option WorkerPc
  /-- Between `_reserve_process_worker` and `_release_process_worker`. -/
  reserved : Bool

/-- `self._controls.get(ticket_id) is control` -/
def ProcessManager.owns (m : ProcessManager) (n : ℕ) (r : RunControl) : Bool :=
  m.controls.get? r.ticket == some n

/-- The stop that a safe point of the run sees. -/
def ProcessManager.stopSeen (m : ProcessManager) (r : RunControl) : Option StopIntent :=
  if m.shuttingDown then some .interrupted else r.stopIntent

/-- An update that has been done: what it has replaced, and what is to follow it. -/
structure Replacement where
  old : Members
  update : RunUpdate
  after : AfterUpdate

/-- A process with its managers and workers. -/
structure AutonomyProcess where
  /-- The directory of a ticket. -/
  outDir : PyStr → PyStr
  /-- `extensions.icode_agent` of each ticket. -/
  agent : PyStr → Members
  /-- `_PROCESS_WORKERS` -/
  processWorkers : Dict PyStr ℕ
  /-- By the order in which they have been built. -/
  managers : ℕ → Option ProcessManager
  built : ℕ
  runs : ℕ → Option RunControl
  nextRun : ℕ
  /-- The updates that have been done, latest first. -/
  log : List Replacement

/-- What the environment does during one access. -/
structure OpEnv where
  /-- The ticket can be read. -/
  readable : Bool
  answer : StoreAnswer
  /-- `uuid.uuid4()` -/
  runId : PyStr
  now : PyStr
  /-- The exception of `workspace_manager.open`. -/
  openError : Option AutonomyError
  /-- `thread.start()` returns. -/
  started : Bool

/-- One step of `_worker_main`. -/
inductive WorkerAction where
  /-- The first section. -/
  | start (readable : Bool) (now : PyStr)
  | safePoint (step : PyStr) (readable : Bool) (now : PyStr)
  | executorReturned (result : ExecutionResult)
  | executorRaised
  /-- `_RunStopped` leaves the executor. -/
  | executorStopped
  /-- The retry decision after the first result. -/
  | decideRetry (readable : Bool) (decision : Option FailureDecision)
  /-- The section that looks whether the run is still owned. -/
  | retry
  /-- The section that persists the result. -/
  | finish (readable : Bool) (now : PyStr) (decision : Option FailureDecision)
  /-- `_record_executor_failure`. -/
  | recordFailure (readable : Bool) (now : PyStr)
  /-- The `finally` block. -/
  | leave

/-- The step is one of the executor, outside the lock. -/
def WorkerAction.ofExecutor : WorkerAction → Bool
  | .executorReturned _ => true
  | .executorRaised => true
  | .executorStopped => true
  | _ => false

inductive ProcessAction where
  /-- A manager is built; `tickets` is the snapshot it recovers. -/
  | build (enabled : Bool) (tickets : List PyStr)
  | intent (manager : ℕ) (ticket : PyStr) (payload : Json)
  | shutdown (manager : ℕ)
  /-- The section of a manager does its next access. -/
  | advance (manager : ℕ) (env : OpEnv)
  | work (run : ℕ) (a : WorkerAction)
  /-- The process ends, and another one begins. -/
  | exit

namespace AutonomyProcess

/-- A process without a manager, over the metadata it finds. -/
def initial (outDir : PyStr → PyStr) (agent : PyStr → Members) : AutonomyProcess :=
  ⟨outDir, agent, [], fun _ => none, 0, fun _ => none, 0, []⟩

variable (s : AutonomyProcess)

/-- `_raw_runtime`. -/
def runtime (ticket : PyStr) : Members :=
  match (s.agent ticket).get "autonomous_run" with
  | .obj ms => ms
  | _ => []

/-! ## Changes -/

def modifyManager (i : ℕ) (f : ProcessManager → ProcessManager) : AutonomyProcess :=
  { s with managers := Function.update s.managers i ((s.managers i).map f) }

def modifyRun (n : ℕ) (f : RunControl → RunControl) : AutonomyProcess :=
  { s with runs := Function.update s.runs n ((s.runs n).map f) }

/-- The section goes on with these accesses. -/
def push (i : ℕ) (ops : List LockedOp) : AutonomyProcess :=
  s.modifyManager i fun m => { m with todo := ops ++ m.todo }

/-- The intent ends. -/
def answer (i : ℕ) (reply : Except AutonomyError Unit) : AutonomyProcess :=
  s.modifyManager i fun m => { m with reply := some reply }

/-- The intent ends well, and its request is kept in `_receipts`. -/
def remember (i : ℕ) (key : PyStr × Intent × PyStr) : AutonomyProcess :=
  s.modifyManager i fun m => { m with receipts := key :: m.receipts, reply := some (.ok ()) }

/-- The thread of the run at another place. -/
def goto (n : ℕ) (pc : WorkerPc) : AutonomyProcess :=
  s.modifyRun n fun r => { r with thread := some pc }

/-- The metadata of the ticket takes the update. -/
def record (u : RunUpdate) (after : AfterUpdate) : AutonomyProcess :=
  { s with
    agent := Function.update s.agent u.ticket
      (Dict.set (Dict.update (s.agent u.ticket) u.patch) "autonomous_run" (.obj u.next)),
    log := ⟨s.runtime u.ticket, u, after⟩ :: s.log }

/-- `worker.ident is None or worker.is_alive()` -/
def occupied (n : ℕ) : Bool :=
  (s.runs n).any fun r =>
    match r.thread with
    | some .ended => false
    | _ => true

/-- `worker.is_alive()` -/
def isAlive (n : ℕ) : Bool :=
  (s.runs n).any fun r =>
    match r.thread with
    | some .ended => false
    | some _ => true
    | none => false

/-- The id of the run that is live for a ticket. -/
def liveRun (ticket : PyStr) : Option PyStr :=
  (s.processWorkers.get? (s.outDir ticket)).bind fun n =>
    if s.occupied n then (s.runs n).map RunControl.runId else none

/-- `_release_worker_locked`. -/
def release (n : ℕ) : AutonomyProcess :=
  match s.runs n with
  | none => s
  | some r =>
    match s.managers r.manager with
    | none => s
    | some m =>
      if m.controls.get? r.ticket = some n then
        (({ s with
          processWorkers :=
            if s.processWorkers.get? (s.outDir r.ticket) = some n then
              s.processWorkers.erase (s.outDir r.ticket)
            else s.processWorkers }.modifyManager r.manager fun m =>
          { m with controls := m.controls.erase r.ticket }).modifyRun n fun r =>
        { r with reserved := false })
      else s

/-! ## Accesses -/

/-- What a section does when an update has returned, or raised. -/
def follow (i : ℕ) (u : RunUpdate) : AfterUpdate → Bool → AutonomyProcess
  | .recovered _, _ => s
  | .interrupted _, _ => s
  | .launch n intent request, true => s.push i [.launch n intent request u]
  | .launch n _ _, false =>
    (s.answer i (.error .statePersistenceFailed)).push i [.release u.ticket n]
  | .startFailed, true => s.answer i (.error .workerStartFailed)
  | .startFailed, false => s.answer i (.error .statePersistenceFailed)
  | .stop n intent request, true =>
    (s.modifyRun n fun r => { r with stopIntent := some (Manager.stopOf intent) }).remember i
      (u.ticket, intent, request)
  | .stop _ _ _, false => s.answer i (.error .statePersistenceFailed)
  | .goto n next _, true => s.goto n next
  | .goto n _ failed, false => s.goto n failed

/-- `update_agent_extension`, and what the section does then. -/
def update (i : ℕ) (u : RunUpdate) (after : AfterUpdate) : StoreAnswer → AutonomyProcess
  | .accepted => (s.record u after).follow i u after true
  | .unconfirmed => (s.record u after).follow i u after false
  | .refused => s.follow i u after false
  | .unreadable => s.follow i u after false

/-- The checks of `_start_or_resume_locked`, up to the reservation, with its read of the run. -/
def beginCheck (m : ProcessManager) (ticket : PyStr) (intent : Intent) (mode : Json)
    (readable : Bool) : Except AutonomyError (List PyStr) := do
  require m.enabled .capabilityDisabled
  require (mode.pyEq (.str "autonomous")) .autonomousNotRequested
  require (!(m.controls.get? ticket).any s.isAlive) .invalidTransition
  require readable .ticketNotFound
  require ((s.runtime ticket).get "state").hashable .typeError
  require (Manager.mayBegin intent (s.runtime ticket)) .invalidTransition
  Runtime.intentReceipts ticket (s.runtime ticket)

/-- The checks of `_request_stop_locked`: the run, and the receipts that have been read. -/
def stopCheck (m : ProcessManager) (ticket : PyStr) (intent : Intent) (readable : Bool) :
    Except AutonomyError (ℕ × List PyStr) := do
  require readable .ticketNotFound
  let n ← orRaise (m.controls.get? ticket) .invalidTransition
  require (s.isAlive n) .invalidTransition
  require ((s.runtime ticket).get "state").hashable .typeError
  require (Runtime.stateIn (s.runtime ticket)
    [lit "starting", lit "running", lit "pause_requested"]) .invalidTransition
  require (!(Runtime.stateIn (s.runtime ticket) [lit "pause_requested"] && intent == .pause))
    .invalidTransition
  let receipts ← Runtime.intentReceipts ticket (s.runtime ticket)
  pure (n, receipts)

/-- A new run takes the place of its ticket in `_PROCESS_WORKERS`. -/
def reserve (i : ℕ) (ticket runId : PyStr) : AutonomyProcess :=
  { s with
    processWorkers := (s.processWorkers.erase (s.outDir ticket)).set (s.outDir ticket) s.nextRun,
    runs := Function.update s.runs s.nextRun (some ⟨i, ticket, runId, none, none, true⟩),
    nextRun := s.nextRun + 1 }.modifyManager i fun m =>
      { m with controls := m.controls.set ticket s.nextRun }

/-- `handle_intent` goes on with a new request. -/
def applyIntent (i : ℕ) (ticket : PyStr) (intent : Intent) (request : PyStr) (mode : Json) :
    AutonomyProcess :=
  match intent with
  | .start => s.push i [.startOrResume ticket .start request mode]
  | .resume => s.push i [.startOrResume ticket .resume request mode]
  | .pause => s.push i [.requestStop ticket .pause request]
  | .cancel => s.push i [.requestStop ticket .cancel request]
  | .takeover => s.push i [.requestStop ticket .takeover request]

/-- `handle_intent` looks whether the request has been accepted before. -/
def checkReceipts (i : ℕ) (ticket : PyStr) (intent : Intent) (request : PyStr) (mode : Json) :
    AutonomyProcess :=
  match Runtime.intentReceipts ticket (s.runtime ticket) with
  | .error e => s.answer i (.error e)
  | .ok receipts =>
    if receipts.contains (Runtime.intentReceiptToken ticket intent.text request) ||
        Manager.isLastIntent (s.runtime ticket) intent request then
      s.remember i (ticket, intent, request)
    else s.applyIntent i ticket intent request mode

/-- The next access of the section of manager `i`, which is `m`. -/
def perform (i : ℕ) (m : ProcessManager) (env : OpEnv) : LockedOp → AutonomyProcess
  | .replay _ =>
    if env.readable then s.answer i (.ok ()) else s.answer i (.error .ticketNotFound)
  | .ticket ticket intent request =>
    if env.readable then
      s.push i [.receipts ticket intent request
        ((s.agent ticket).get "requested_execution_mode")]
    else s.answer i (.error .ticketNotFound)
  | .receipts ticket intent request mode =>
    if !env.readable then s.answer i (.error .ticketNotFound)
    else s.checkReceipts i ticket intent request mode
  | .startOrResume ticket intent request mode =>
    match s.beginCheck m ticket intent mode env.readable with
    | .error e => s.answer i (.error e)
    | .ok receipts => s.push i [.reserve ticket intent request (s.runtime ticket) receipts]
  | .reserve ticket intent request read receipts =>
    if !env.readable then s.answer i (.error .ticketNotFound)
    else if (s.processWorkers.get? (s.outDir ticket)).any s.occupied then
      s.answer i (.error .invalidTransition)
    else
      (s.reserve i ticket env.runId).push i [.openWorkspace s.nextRun intent request
        ⟨ticket, read,
          Runtime.starting read ticket env.runId env.now intent.text request receipts,
          Manager.autonomousPatch⟩]
  | .openWorkspace n intent request u =>
    match env.openError with
    | some e => (s.answer i (.error e)).push i [.release u.ticket n]
    | none => s.push i [.update u (.launch n intent request)]
  | .update u after => s.update i u after env.answer
  | .launch n intent request u =>
    if env.started then (s.goto n .entered).remember i (u.ticket, intent, request)
    else
      s.push i [.release u.ticket n, .update ⟨u.ticket, u.next,
        Runtime.interrupted u.next "worker_start_failed" env.now, Manager.interactivePatch⟩
        .startFailed]
  | .release _ n => s.release n
  | .requestStop ticket intent request =>
    match s.stopCheck m ticket intent env.readable with
    | .error e => s.answer i (.error e)
    | .ok (n, receipts) =>
      s.push i [.update ⟨ticket, s.runtime ticket,
        Runtime.requested (s.runtime ticket) ticket intent request env.now receipts, []⟩
        (.stop n intent request)]
  | .interrupt ticket n =>
    let s := s.modifyRun n fun r => { r with stopIntent := some .interrupted }
    if !env.readable || !Runtime.stateIn (s.runtime ticket) activeStates then s
    else
      s.push i [.update ⟨ticket, s.runtime ticket,
        Runtime.interrupted (s.runtime ticket) "shutdown" env.now, Manager.interactivePatch⟩
        (.interrupted n)]
  | .recover ticket =>
    if !env.readable then s
    else if !((s.runtime ticket).get "state").hashable then
      -- the constructor raises
      { s with managers := Function.update s.managers i none }
    else if !Runtime.stateIn (s.runtime ticket) activeStates then s
    else s.push i [.recoverCheck ticket (s.runtime ticket) (s.liveRun ticket)]
  | .recoverCheck ticket read live =>
    if !env.readable || (s.processWorkers.get? (s.outDir ticket)).any s.occupied then s
    else
      { s with processWorkers := s.processWorkers.erase (s.outDir ticket) }.push i
        [.update ⟨ticket, read, Runtime.interrupted read "process_restarted" env.now,
          Manager.interactivePatch⟩ (.recovered live)]

/-! ## Workers -/

/-- The worker of run `n` is about to persist a record, made from the one it has read. -/
def persist (n : ℕ) (r : RunControl) (next : Members) (patch : Members) (pc failed : WorkerPc) :
    AutonomyProcess :=
  s.push r.manager [.update ⟨r.ticket, s.runtime r.ticket, next, patch⟩ (.goto n pc failed)]

/-- One step of the worker of run `n` of manager `m`, by where the thread stands. -/
def workerStep (m : ProcessManager) (n : ℕ) (r : RunControl) :
    WorkerAction → WorkerPc → Option AutonomyProcess
  | .start readable now, .entered =>
    if !readable then some (s.goto n .raised)
    else if m.shuttingDown || !Runtime.isRun (s.runtime r.ticket) r.runId then some (s.goto n .leaving)
    else if Runtime.stateIn (s.runtime r.ticket) [lit "starting"] then
      some (s.persist n r
        (Dict.set (Runtime.moved (s.runtime r.ticket) "running" now) "started_at" (.str now)) []
        (.executing false) .raised)
    else some (s.goto n (.executing false))
  | .safePoint step readable now, .executing retried =>
    if !isStep step || !m.owns n r || !readable || !Runtime.isRun (s.runtime r.ticket) r.runId then
      -- it raises, and the executor goes on with that
      some s
    else
      some (s.persist n r (Runtime.safePoint (s.runtime r.ticket) (m.stopSeen r) step now)
        (Runtime.safePointMode (m.stopSeen r)) (.executing retried) (.executing retried))
  | .executorReturned result, .executing false => some (s.goto n (.returned result))
  | .executorReturned result, .executing true => some (s.goto n (.finishing result))
  | .executorRaised, .executing _ => some (s.goto n .raised)
  | .executorStopped, .executing _ => some (s.goto n .leaving)
  | .decideRetry readable decision, .returned result =>
    if !readable then some (s.goto n .raised)
    else if result.errorCode.isSome ∧
        (Runtime.failureDecisionFor result decision).action = .retry then
      some (s.goto n (.retrying result))
    else some (s.goto n (.finishing result))
  | .retry, .retrying result =>
    if !m.shuttingDown && m.owns n r then some (s.goto n (.executing true))
    else some (s.goto n (.finishing result))
  | .finish readable now decision, .finishing result =>
    if m.shuttingDown || !m.owns n r then some (s.goto n .leaving)
    else if !readable then some (s.goto n .raised)
    else if !Runtime.isRun (s.runtime r.ticket) r.runId then some (s.goto n .leaving)
    else
      some (s.persist n r (Runtime.terminal (s.runtime r.ticket) result now decision) [] .leaving
        .raised)
  | .recordFailure readable now, .raised =>
    if m.shuttingDown || !m.owns n r || !readable ||
        !Runtime.isRun (s.runtime r.ticket) r.runId then
      some (s.goto n .leaving)
    else
      some (s.persist n r (Runtime.failed (s.runtime r.ticket) now) [] .leaving .leaving)
  | .leave, .leaving => some ((s.release n).goto n .ended)
  | _, _ => none

/-! ## Steps -/

/-- `handle_intent` of manager `m`, up to its first access. -/
def call (i : ℕ) (m : ProcessManager) (ticket : PyStr) (intent : Intent) (request : PyStr) :
    AutonomyProcess :=
  if (ticket, intent, request) ∈ m.receipts then
    s.modifyManager i fun m => { m with todo := [.replay ticket], reply := none }
  else if m.shuttingDown then s.answer i (.error .managerShutdown)
  else s.modifyManager i fun m => { m with todo := [.ticket ticket intent request], reply := none }

/-- One action; an action that cannot be taken now has no successor. -/
def step : ProcessAction → Option AutonomyProcess
  | .build enabled tickets =>
    some { s with
      managers := Function.update s.managers s.built
        (some ⟨enabled, false, [], [], tickets.map .recover, none⟩),
      built := s.built + 1 }
  | .intent i ticket payload =>
    match s.managers i with
    | some m =>
      if m.todo.isEmpty then
        match Manager.normalizeIntentPayload payload with
        | .error e => some (s.answer i (.error e))
        | .ok (intent, request) => some (s.call i m ticket intent request)
      else none
    | none => none
  | .shutdown i =>
    match s.managers i with
    | some m =>
      if m.todo.isEmpty then
        if m.shuttingDown then some s
        else
          some (s.modifyManager i fun m =>
            { m with
              shuttingDown := true,
              todo := m.controls.map fun item => .interrupt item.1 item.2 })
      else none
    | none => none
  | .advance i env =>
    match s.managers i with
    | some m =>
      match m.todo with
      | op :: rest =>
        some ({ s with
          managers := Function.update s.managers i (some { m with todo := rest }) }.perform i m env
            op)
      | [] => none
    | none => none
  | .work n a =>
    match s.runs n with
    | some r =>
      match s.managers r.manager, r.thread with
      | some m, some pc =>
        -- a worker needs the lock, or is in the executor and not in a section of its own
        if m.todo.isEmpty || (a.ofExecutor && !m.todo.any (LockedOp.resumes n)) then
          s.workerStep m n r a pc
        else none
      | _, _ => none
    | none => none
  | .exit =>
    some { s with processWorkers := [], managers := fun _ => none, runs := fun _ => none }

/-! ## What a change leaves -/

variable {s s' : AutonomyProcess} {a : ProcessAction} {i j n k : ℕ}
  {f : ProcessManager → ProcessManager} {g : RunControl → RunControl} {op : LockedOp}

theorem managers_modifyManager : (s.modifyManager i f).managers j =
    if j = i then (s.managers i).map f else s.managers j := by
  unfold modifyManager
  split_ifs with h
  · subst h
    exact Function.update_self ..
  · exact Function.update_of_ne h ..

theorem runs_modifyRun : (s.modifyRun n g).runs k =
    if k = n then (s.runs n).map g else s.runs k := by
  unfold modifyRun
  split_ifs with h
  · subst h
    exact Function.update_self ..
  · exact Function.update_of_ne h ..

theorem runtime_record (u : RunUpdate) (after : AfterUpdate) (ticket : PyStr) :
    (s.record u after).runtime ticket = if ticket = u.ticket then u.next else s.runtime ticket := by
  unfold runtime record
  split_ifs with ht
  · simp [ht]
  · simp [ht]

theorem runtime_of_agent (h : s'.agent = s.agent) : s'.runtime = s.runtime := by
  funext ticket
  rw [runtime, h, runtime]

theorem agent_release (s : AutonomyProcess) (n : ℕ) : (s.release n).agent = s.agent := by
  unfold release
  split
  · rfl
  · split
    · rfl
    · split_ifs <;> rfl

theorem log_release (s : AutonomyProcess) (n : ℕ) : (s.release n).log = s.log := by
  unfold release
  split
  · rfl
  · split
    · rfl
    · split_ifs <;> rfl

theorem agent_follow (s : AutonomyProcess) (i : ℕ) (u : RunUpdate) (after : AfterUpdate)
    (returned : Bool) : (s.follow i u after returned).agent = s.agent := by
  cases after <;> cases returned <;> rfl

theorem log_follow (s : AutonomyProcess) (i : ℕ) (u : RunUpdate) (after : AfterUpdate)
    (returned : Bool) : (s.follow i u after returned).log = s.log := by
  cases after <;> cases returned <;> rfl

theorem agent_checkReceipts (s : AutonomyProcess) (i : ℕ) (ticket : PyStr) (intent : Intent)
    (request : PyStr) (mode : Json) :
    (s.checkReceipts i ticket intent request mode).agent = s.agent := by
  unfold checkReceipts
  split
  · rfl
  · split_ifs
    · rfl
    · cases intent <;> rfl

theorem log_checkReceipts (s : AutonomyProcess) (i : ℕ) (ticket : PyStr) (intent : Intent)
    (request : PyStr) (mode : Json) :
    (s.checkReceipts i ticket intent request mode).log = s.log := by
  unfold checkReceipts
  split
  · rfl
  · split_ifs
    · rfl
    · cases intent <;> rfl

/-! ## What a section plans -/

/-- The section of manager `i` does this access next. -/
def Heads (s : AutonomyProcess) (i : ℕ) (op : LockedOp) : Prop :=
  ∃ m rest, s.managers i = some m ∧ m.todo = op :: rest

/-- What the accesses that are left satisfy. -/
def Todo (s : AutonomyProcess) (P : ℕ → LockedOp → Prop) : Prop :=
  ∀ i m op, s.managers i = some m → op ∈ m.todo → P i op

theorem Todo.set {P : ℕ → LockedOp → Prop} (h : s.Todo P) {x : Option ProcessManager}
    (hx : ∀ m, x = some m → ∀ op ∈ m.todo, P i op) :
    Todo { s with managers := Function.update s.managers i x } P := by
  intro j m' op hm' hop
  have hm' : Function.update s.managers i x j = some m' := hm'
  by_cases hj : j = i
  · subst hj
    rw [Function.update_self] at hm'
    exact hx m' hm' op hop
  · rw [Function.update_of_ne hj] at hm'
    exact h j m' op hm' hop

theorem Todo.modifyManager {P : ℕ → LockedOp → Prop} (h : s.Todo P)
    (hf : ∀ m, s.managers i = some m → ∀ op ∈ (f m).todo, op ∈ m.todo ∨ P i op) :
    (s.modifyManager i f).Todo P := by
  refine h.set fun m' hm' op hop => ?_
  obtain ⟨m, hm, rfl⟩ := Option.map_eq_some_iff.mp hm'
  exact (hf m hm op hop).elim (h i m op hm) id

theorem Todo.push {P : ℕ → LockedOp → Prop} (h : s.Todo P) {ops : List LockedOp}
    (hops : ∀ op ∈ ops, P i op) : (s.push i ops).Todo P :=
  h.modifyManager fun _ _ op hop => (List.mem_append.mp hop).symm.imp_right (hops op)

theorem Todo.answer {P : ℕ → LockedOp → Prop} (h : s.Todo P)
    (reply : Except AutonomyError Unit) : (s.answer i reply).Todo P :=
  h.modifyManager fun _ _ _ hop => Or.inl hop

theorem Todo.remember {P : ℕ → LockedOp → Prop} (h : s.Todo P) (key : PyStr × Intent × PyStr) :
    (s.remember i key).Todo P :=
  h.modifyManager fun _ _ _ hop => Or.inl hop

theorem Todo.release {P : ℕ → LockedOp → Prop} (h : s.Todo P) : (s.release n).Todo P := by
  unfold AutonomyProcess.release
  split
  · exact h
  · split
    · exact h
    · split_ifs
      · exact Todo.modifyManager (i := _) (s := { s with processWorkers := _ }) h
          fun _ _ _ hop => Or.inl hop
      · exact Todo.modifyManager (i := _) (s := { s with processWorkers := _ }) h
          fun _ _ _ hop => Or.inl hop
      · exact h

theorem Todo.follow {P : ℕ → LockedOp → Prop} (h : s.Todo P) {u : RunUpdate} {after : AfterUpdate}
    {returned : Bool} (hrelease : ∀ n, P i (.release u.ticket n))
    (hlaunch : ∀ n intent request, after = .launch n intent request → returned = true →
      P i (.launch n intent request u)) : (s.follow i u after returned).Todo P := by
  have hone : ∀ {op : LockedOp}, P i op → ∀ x ∈ [op], P i x := by
    intro op hop x hx
    rwa [List.mem_singleton.mp hx]
  cases after with
  | recovered live => cases returned <;> exact h
  | interrupted n => cases returned <;> exact h
  | startFailed => cases returned <;> exact h.answer _
  | goto n next failed => cases returned <;> exact h
  | launch n intent request =>
    cases returned with
    | true => exact h.push (hone (hlaunch n intent request rfl rfl))
    | false => exact (h.answer _).push (hone (hrelease n))
  | stop n intent request =>
    cases returned with
    | true => exact Todo.remember (s := s.modifyRun n _) h _
    | false => exact h.answer _

/-- The accesses that a step from `s` to `s'` may add to the section of manager `i`: what each one
carries comes from the record as it is read, or from the access before. -/
inductive Plans (s s' : AutonomyProcess) (i : ℕ) : LockedOp → Prop
  | plain {op : LockedOp} (h : op.plain = true) : Plans s s' i op
  | startOrResume {ticket : PyStr} {intent : Intent} {request : PyStr} {mode : Json}
      {receipts : List PyStr}
      (hread : Runtime.intentReceipts ticket (s.runtime ticket) = .ok receipts)
      (hnew : Runtime.intentReceiptToken ticket intent.text request ∉ receipts)
      (hsame : s'.runtime = s.runtime) :
      Plans s s' i (.startOrResume ticket intent request mode)
  | requestStop {ticket : PyStr} {intent : Intent} {request : PyStr} {receipts : List PyStr}
      (hread : Runtime.intentReceipts ticket (s.runtime ticket) = .ok receipts)
      (hnew : Runtime.intentReceiptToken ticket intent.text request ∉ receipts)
      (hsame : s'.runtime = s.runtime) :
      Plans s s' i (.requestStop ticket intent request)
  | reserve {ticket : PyStr} {intent : Intent} {request : PyStr} {mode : Json}
      {receipts : List PyStr} (hop : s.Heads i (.startOrResume ticket intent request mode))
      (hread : Runtime.intentReceipts ticket (s.runtime ticket) = .ok receipts)
      (hsame : s'.runtime = s.runtime) :
      Plans s s' i (.reserve ticket intent request (s.runtime ticket) receipts)
  | openWorkspace {ticket : PyStr} {intent : Intent} {request : PyStr} {read : Members}
      {receipts : List PyStr} {runId now : PyStr}
      (hop : s.Heads i (.reserve ticket intent request read receipts))
      (hsame : s'.runtime = s.runtime) :
      Plans s s' i (.openWorkspace s.nextRun intent request ⟨ticket, read,
        Runtime.starting read ticket runId now intent.text request receipts,
        Manager.autonomousPatch⟩)
  | starting {run : ℕ} {intent : Intent} {request : PyStr} {u : RunUpdate}
      (hop : s.Heads i (.openWorkspace run intent request u)) (hsame : s'.runtime = s.runtime) :
      Plans s s' i (.update u (.launch run intent request))
  | launch {run : ℕ} {intent : Intent} {request : PyStr} {u : RunUpdate}
      (hop : s.Heads i (.update u (.launch run intent request)))
      (hdone : s'.runtime u.ticket = u.next) : Plans s s' i (.launch run intent request u)
  | startFailed {run : ℕ} {intent : Intent} {request now : PyStr} {u : RunUpdate}
      (hop : s.Heads i (.launch run intent request u)) (hsame : s'.runtime = s.runtime) :
      Plans s s' i (.update ⟨u.ticket, u.next,
        Runtime.interrupted u.next "worker_start_failed" now, Manager.interactivePatch⟩
        .startFailed)
  | stop {run : ℕ} {ticket : PyStr} {intent : Intent} {request now : PyStr}
      {receipts : List PyStr}
      (hop : s.Heads i (.requestStop ticket intent request))
      (hread : Runtime.intentReceipts ticket (s.runtime ticket) = .ok receipts)
      (hsame : s'.runtime = s.runtime) :
      Plans s s' i (.update ⟨ticket, s.runtime ticket,
        Runtime.requested (s.runtime ticket) ticket intent request now receipts, []⟩
        (.stop run intent request))
  | interrupted {run : ℕ} {ticket now : PyStr} (hop : s.Heads i (.interrupt ticket run))
      (hsame : s'.runtime = s.runtime) :
      Plans s s' i (.update ⟨ticket, s.runtime ticket,
        Runtime.interrupted (s.runtime ticket) "shutdown" now, Manager.interactivePatch⟩
        (.interrupted run))
  | recoverCheck {ticket : PyStr}
      (hactive : Runtime.stateIn (s.runtime ticket) activeStates = true)
      (hsame : s'.runtime = s.runtime) :
      Plans s s' i (.recoverCheck ticket (s.runtime ticket) (s.liveRun ticket))
  | recovered {ticket now : PyStr} {read : Members} {live : Option PyStr}
      (hop : s.Heads i (.recoverCheck ticket read live)) (hsame : s'.runtime = s.runtime) :
      Plans s s' i (.update ⟨ticket, read, Runtime.interrupted read "process_restarted" now,
        Manager.interactivePatch⟩ (.recovered live))
  | worker {run : ℕ} {r : RunControl} {next patch : Members} {pc failed : WorkerPc}
      (hrun : s.runs run = some r) (hi : r.manager = i)
      (hnext : Runtime.Succeeds (s.runtime r.ticket) next) (hsame : s'.runtime = s.runtime) :
      Plans s s' i (.update ⟨r.ticket, s.runtime r.ticket, next, patch⟩ (.goto run pc failed))

theorem receipts_of_beginCheck {m : ProcessManager} {ticket : PyStr} {intent : Intent} {mode : Json}
    {readable : Bool} {receipts : List PyStr}
    (h : s.beginCheck m ticket intent mode readable = .ok receipts) :
    Runtime.intentReceipts ticket (s.runtime ticket) = .ok receipts := by
  unfold beginCheck at h
  simp only [bind_eq_ok, require_eq_ok] at h
  obtain ⟨_, -, _, -, _, -, _, -, _, -, _, -, h⟩ := h
  exact h

theorem receipts_of_stopCheck {m : ProcessManager} {ticket : PyStr} {intent : Intent}
    {readable : Bool} {receipts : List PyStr}
    (h : s.stopCheck m ticket intent readable = .ok (n, receipts)) :
    m.controls.get? ticket = some n ∧ s.isAlive n = true ∧
      Runtime.intentReceipts ticket (s.runtime ticket) = .ok receipts := by
  unfold stopCheck at h
  simp only [bind_eq_ok, require_eq_ok, orRaise_eq_ok] at h
  obtain ⟨_, -, k, hk, _, halive, _, -, _, -, _, -, rs, hrs, h⟩ := h
  obtain ⟨rfl, rfl⟩ := Prod.mk.inj (Except.ok.inj h)
  exact ⟨hk, halive, hrs⟩

/-- The process whose section of manager `i` has this left. -/
def pop (s : AutonomyProcess) (i : ℕ) (m : ProcessManager) (rest : List LockedOp) :
    AutonomyProcess :=
  { s with managers := Function.update s.managers i (some { m with todo := rest }) }

/-- The steps of a section keep what is left of it, and add what `Plans` says, but nothing that a
worker waits for. -/
theorem todo_perform {P : ℕ → LockedOp → Prop} {m : ProcessManager} {env : OpEnv}
    {rest : List LockedOp} (hop : s.Heads i op) (h₁ : (s.pop i m rest).Todo P)
    (hs : s' = (s.pop i m rest).perform i m env op)
    (hplan : ∀ op, op.ofWorker = false → Plans s s' i op → P i op) : s'.Todo P := by
  have hs := congrArg some hs.symm
  set s₁ := s.pop i m rest with hs₁
  have hone : ∀ {op' : LockedOp}, P i op' → ∀ x ∈ [op'], P i x := by
    intro op' hop' x hx
    rwa [List.mem_singleton.mp hx]
  cases op with
  | replay ticket =>
    simp only [perform] at hs
    split_ifs at hs <;> obtain rfl := Option.some.inj hs <;> exact h₁.answer _
  | ticket ticket intent request =>
    simp only [perform] at hs
    split_ifs at hs <;> obtain rfl := Option.some.inj hs
    · exact h₁.push (hone (hplan _ rfl (.plain rfl)))
    · exact h₁.answer _
  | receipts ticket intent request mode =>
    simp only [perform] at hs
    split_ifs at hs
    · obtain rfl := Option.some.inj hs
      exact h₁.answer _
    · obtain rfl := Option.some.inj hs
      have hsame : (s₁.checkReceipts i ticket intent request mode).runtime = s.runtime :=
        runtime_of_agent (agent_checkReceipts s₁ i ticket intent request mode)
      rw [checkReceipts]
      split
      · exact h₁.answer _
      · rename_i receipts hread
        split_ifs with hmem
        · exact h₁.remember _
        · have hnew : Runtime.intentReceiptToken ticket intent.text request ∉ receipts := by
            rw [Bool.or_eq_true, not_or] at hmem
            simpa using hmem.1
          cases intent with
          | start => exact h₁.push (hone (hplan _ rfl (.startOrResume hread hnew hsame)))
          | resume => exact h₁.push (hone (hplan _ rfl (.startOrResume hread hnew hsame)))
          | pause => exact h₁.push (hone (hplan _ rfl (.requestStop hread hnew hsame)))
          | cancel => exact h₁.push (hone (hplan _ rfl (.requestStop hread hnew hsame)))
          | takeover => exact h₁.push (hone (hplan _ rfl (.requestStop hread hnew hsame)))
  | startOrResume ticket intent request mode =>
    simp only [perform] at hs
    split at hs
    · obtain rfl := Option.some.inj hs
      exact h₁.answer _
    · rename_i receipts hcheck
      obtain rfl := Option.some.inj hs
      exact h₁.push (hone (hplan _ rfl (.reserve hop (receipts_of_beginCheck hcheck) rfl)))
  | reserve ticket intent request read receipts =>
    simp only [perform] at hs
    split_ifs at hs
    · obtain rfl := Option.some.inj hs
      exact h₁.answer _
    · obtain rfl := Option.some.inj hs
      exact h₁.answer _
    · obtain rfl := Option.some.inj hs
      refine Todo.push ?_ (hone (hplan _ rfl (.openWorkspace hop rfl)))
      exact Todo.modifyManager (s := { s₁ with processWorkers := _, runs := _, nextRun := _ }) h₁
        fun _ _ _ hop' => Or.inl hop'
  | openWorkspace n intent request u =>
    simp only [perform] at hs
    split at hs <;> obtain rfl := Option.some.inj hs
    · exact (h₁.answer _).push (hone (hplan _ rfl (.plain rfl)))
    · exact h₁.push (hone (hplan _ rfl (.starting hop rfl)))
  | update u after =>
    obtain rfl := Option.some.inj hs
    have hrelease : ∀ n, P i (.release u.ticket n) := fun n => hplan _ rfl (.plain rfl)
    simp only [perform, update]
    cases hanswer : env.answer with
    | accepted =>
      refine Todo.follow (s := s₁.record u after) h₁ hrelease fun n intent request hafter _ => ?_
      subst hafter
      refine hplan _ rfl (.launch hop ?_)
      simp only [perform, update, hanswer]
      rw [runtime_of_agent (agent_follow ..), runtime_record, if_pos rfl]
    | unconfirmed => exact Todo.follow (s := s₁.record u after) h₁ hrelease (by simp)
    | refused => exact h₁.follow hrelease (by simp)
    | unreadable => exact h₁.follow hrelease (by simp)
  | launch n intent request u =>
    simp only [perform] at hs
    split_ifs at hs <;> obtain rfl := Option.some.inj hs
    · exact Todo.remember (s := s₁.goto n .entered) h₁ _
    · refine h₁.push fun x hx => ?_
      rcases List.mem_cons.mp hx with rfl | hx
      · exact hplan _ rfl (.plain rfl)
      · rw [List.mem_singleton.mp hx]
        exact hplan _ rfl (.startFailed hop rfl)
  | release ticket n =>
    obtain rfl := Option.some.inj hs
    exact h₁.release
  | requestStop ticket intent request =>
    simp only [perform] at hs
    split at hs
    · obtain rfl := Option.some.inj hs
      exact h₁.answer _
    · rename_i n receipts hcheck
      obtain rfl := Option.some.inj hs
      exact h₁.push (hone (hplan _ rfl (.stop hop (receipts_of_stopCheck hcheck).2.2 rfl)))
  | interrupt ticket n =>
    simp only [perform] at hs
    split_ifs at hs <;> obtain rfl := Option.some.inj hs
    · exact h₁
    · exact Todo.push (s := s₁.modifyRun n _) h₁ (hone (hplan _ rfl (.interrupted hop rfl)))
  | recover ticket =>
    simp only [perform] at hs
    split_ifs at hs with _ _ hactive
    · obtain rfl := Option.some.inj hs
      exact h₁
    · obtain rfl := Option.some.inj hs
      exact h₁.set fun _ hm' => (by cases hm')
    · obtain rfl := Option.some.inj hs
      exact h₁
    · obtain rfl := Option.some.inj hs
      have hactive : Runtime.stateIn (s.runtime ticket) activeStates = true := by
        rwa [Bool.not_eq_true', Bool.not_eq_false] at hactive
      exact h₁.push (hone (hplan _ rfl (.recoverCheck hactive rfl)))
  | recoverCheck ticket read live =>
    simp only [perform] at hs
    split_ifs at hs <;> obtain rfl := Option.some.inj hs
    · exact h₁
    · exact Todo.push (s := { s₁ with processWorkers := _ }) h₁
        (hone (hplan _ rfl (.recovered hop rfl)))

theorem todo_workerStep {P : ℕ → LockedOp → Prop} {m : ProcessManager} {r : RunControl}
    {w : WorkerAction} {pc : WorkerPc} (h : s.Todo P) (hs : s.workerStep m n r w pc = some s')
    (hplan : ∀ next patch pc failed, Runtime.Succeeds (s.runtime r.ticket) next →
      s'.runtime = s.runtime →
        P r.manager (.update ⟨r.ticket, s.runtime r.ticket, next, patch⟩ (.goto n pc failed))) :
    s'.Todo P := by
  have hpersist : ∀ {next patch : Members} {pc failed : WorkerPc},
      Runtime.Succeeds (s.runtime r.ticket) next → s' = s.persist n r next patch pc failed →
        s'.Todo P := by
    intro next patch pc failed hnext heq
    subst heq
    refine h.push fun op hop => ?_
    rw [List.mem_singleton.mp hop]
    exact hplan next patch pc failed hnext rfl
  unfold workerStep at hs
  split at hs
  · split_ifs at hs
    · obtain rfl := Option.some.inj hs
      exact h
    · obtain rfl := Option.some.inj hs
      exact h
    · exact hpersist (Runtime.succeeds_running _ _) (Option.some.inj hs).symm
    · obtain rfl := Option.some.inj hs
      exact h
  · split_ifs at hs
    · obtain rfl := Option.some.inj hs
      exact h
    · exact hpersist (Runtime.succeeds_safePoint _ _ _ _) (Option.some.inj hs).symm
  · obtain rfl := Option.some.inj hs
    exact h
  · obtain rfl := Option.some.inj hs
    exact h
  · obtain rfl := Option.some.inj hs
    exact h
  · obtain rfl := Option.some.inj hs
    exact h
  · split_ifs at hs <;> obtain rfl := Option.some.inj hs <;> exact h
  · split_ifs at hs <;> obtain rfl := Option.some.inj hs <;> exact h
  · split_ifs at hs
    · obtain rfl := Option.some.inj hs
      exact h
    · obtain rfl := Option.some.inj hs
      exact h
    · obtain rfl := Option.some.inj hs
      exact h
    · exact hpersist (Runtime.succeeds_terminal _ _ _ _) (Option.some.inj hs).symm
  · split_ifs at hs
    · obtain rfl := Option.some.inj hs
      exact h
    · exact hpersist (Runtime.succeeds_failed _ _) (Option.some.inj hs).symm
  · obtain rfl := Option.some.inj hs
    exact h.release
  · cases hs

theorem todo_call {P : ℕ → LockedOp → Prop} {m : ProcessManager} {ticket : PyStr} {intent : Intent}
    {request : PyStr} (h : s.Todo P) (hplan : ∀ op, op.plain = true → P i op) :
    (s.call i m ticket intent request).Todo P := by
  unfold call
  split_ifs
  · refine h.modifyManager fun _ _ op hop => Or.inr ?_
    rw [List.mem_singleton.mp hop]
    exact hplan _ rfl
  · exact h.answer _
  · refine h.modifyManager fun _ _ op hop => Or.inr ?_
    rw [List.mem_singleton.mp hop]
    exact hplan _ rfl

/-- What a step leaves of the section of a manager. -/
def left (a : ProcessAction) (i : ℕ) (m : ProcessManager) : List LockedOp :=
  match a with
  | .advance j _ => if j = i then m.todo.tail else m.todo
  | _ => m.todo

theorem mem_of_mem_left {m : ProcessManager} (h : op ∈ left a i m) : op ∈ m.todo := by
  unfold left at h
  split at h
  · split_ifs at h
    · exact List.mem_of_mem_tail h
    · exact h
  · exact h

/-- What there is to do after a step is what the step has left, or what `Plans` says. -/
theorem todo_step (hs : s.step a = some s') :
    s'.Todo fun i op => (∃ m, s.managers i = some m ∧ op ∈ left a i m) ∨ Plans s s' i op := by
  have h (ha : ∀ j m, left a j m = m.todo) :
      s.Todo fun i op => (∃ m, s.managers i = some m ∧ op ∈ left a i m) ∨ Plans s s' i op :=
    fun i m op hm hop => Or.inl ⟨m, hm, ha i m ▸ hop⟩
  cases a with
  | build enabled tickets =>
    obtain rfl := Option.some.inj hs
    refine Todo.set (s := { s with built := _ }) (h fun _ _ => rfl) fun m hm op hop => Or.inr ?_
    obtain rfl := Option.some.inj hm
    obtain ⟨ticket, -, rfl⟩ := List.mem_map.mp hop
    exact .plain rfl
  | intent i ticket payload =>
    simp only [step] at hs
    split at hs
    · rename_i m hm
      split_ifs at hs
      split at hs
      · obtain rfl := Option.some.inj hs
        exact (h fun _ _ => rfl).answer _
      · rename_i intent request _
        obtain rfl := Option.some.inj hs
        exact todo_call (h fun _ _ => rfl) fun _ hplain => Or.inr (.plain hplain)
    · cases hs
  | shutdown i =>
    simp only [step] at hs
    split at hs
    · split_ifs at hs
      · obtain rfl := Option.some.inj hs
        exact h fun _ _ => rfl
      · obtain rfl := Option.some.inj hs
        refine (h fun _ _ => rfl).modifyManager fun m hm op hop => Or.inr <| Or.inr ?_
        obtain ⟨item, -, rfl⟩ := List.mem_map.mp hop
        exact .plain rfl
    · cases hs
  | advance i env =>
    simp only [step] at hs
    split at hs
    · rename_i m hm
      split at hs
      · rename_i op rest htodo
        have h₁ : (s.pop i m rest).Todo fun j op =>
            (∃ m, s.managers j = some m ∧ op ∈ left (.advance i env) j m) ∨ Plans s s' j op := by
          intro j k x hk hx
          have hk : Function.update s.managers i (some { m with todo := rest }) j = some k := hk
          by_cases hj : j = i
          · subst hj
            rw [Function.update_self] at hk
            obtain rfl := Option.some.inj hk
            exact Or.inl ⟨m, hm, by simpa [left, htodo] using hx⟩
          · rw [Function.update_of_ne hj] at hk
            exact Or.inl ⟨k, hk, by simpa [left, Ne.symm hj] using hx⟩
        exact todo_perform ⟨m, rest, hm, htodo⟩ h₁ (Option.some.inj hs).symm fun _ _ => Or.inr
      · cases hs
    · cases hs
  | work n w =>
    simp only [step] at hs
    split at hs
    · rename_i r hr
      split at hs
      · split_ifs at hs
        exact todo_workerStep (h fun _ _ => rfl) hs fun _ _ _ _ hnext hsame =>
          Or.inr (.worker hr rfl hnext hsame)
      · cases hs
    · cases hs
  | exit =>
    obtain rfl := Option.some.inj hs
    exact fun _ _ _ hm => (by cases hm)

/-! ## What a step writes -/

/-- The step does an update of the metadata. -/
def Writes (s : AutonomyProcess) (a : ProcessAction) (u : RunUpdate) (after : AfterUpdate) : Prop :=
  ∃ i env, a = .advance i env ∧ s.Heads i (.update u after) ∧
    (env.answer = .accepted ∨ env.answer = .unconfirmed)

theorem agent_perform {m : ProcessManager} {env : OpEnv} (hop : ∀ u after, op ≠ .update u after) :
    (s.perform i m env op).agent = s.agent ∧ (s.perform i m env op).log = s.log := by
  cases op with
  | update u after => exact absurd rfl (hop u after)
  | release ticket n => exact ⟨agent_release s n, log_release s n⟩
  | receipts ticket intent request mode =>
    simp only [perform]
    split_ifs
    · exact ⟨rfl, rfl⟩
    · exact ⟨agent_checkReceipts .., log_checkReceipts ..⟩
  | _ =>
    simp only [perform]
    repeat' split
    all_goals exact ⟨rfl, rfl⟩

theorem agent_workerStep {m : ProcessManager} {r : RunControl} {w : WorkerAction} {pc : WorkerPc}
    (hs : s.workerStep m n r w pc = some s') : s'.agent = s.agent ∧ s'.log = s.log := by
  unfold workerStep at hs
  repeat' split at hs
  all_goals cases hs
  all_goals first | exact ⟨rfl, rfl⟩ | exact ⟨agent_release s n, log_release s n⟩

theorem log_record (u : RunUpdate) (after : AfterUpdate) :
    (s.record u after).log = ⟨s.runtime u.ticket, u, after⟩ :: s.log :=
  rfl

/-- A step that does an update has the metadata take it. -/
theorem record_of_writes {u : RunUpdate} {after : AfterUpdate} (hw : s.Writes a u after)
    (hs : s.step a = some s') :
    s'.agent = (s.record u after).agent ∧ s'.log = (s.record u after).log := by
  obtain ⟨i, env, rfl, ⟨m, rest, hm, htodo⟩, hanswer⟩ := hw
  simp only [step, hm, htodo] at hs
  obtain rfl := Option.some.inj hs
  rcases hanswer with hanswer | hanswer <;> simp only [perform, update, hanswer] <;>
    exact ⟨agent_follow .., log_follow ..⟩

/-- Any other step leaves the metadata as they are. -/
theorem writes_or_same (hs : s.step a = some s') :
    (s'.agent = s.agent ∧ s'.log = s.log) ∨ ∃ u after, s.Writes a u after := by
  cases a with
  | build enabled tickets =>
    obtain rfl := Option.some.inj hs
    exact Or.inl ⟨rfl, rfl⟩
  | intent i ticket payload =>
    left
    simp only [step] at hs
    split at hs
    · split_ifs at hs
      split at hs
      · obtain rfl := Option.some.inj hs
        exact ⟨rfl, rfl⟩
      · obtain rfl := Option.some.inj hs
        unfold call
        split_ifs <;> exact ⟨rfl, rfl⟩
    · cases hs
  | shutdown i =>
    left
    simp only [step] at hs
    split at hs
    · split_ifs at hs <;> obtain rfl := Option.some.inj hs <;> exact ⟨rfl, rfl⟩
    · cases hs
  | advance i env =>
    simp only [step] at hs
    split at hs
    · rename_i m hm
      split at hs
      · rename_i op rest htodo
        obtain rfl := Option.some.inj hs
        by_cases hop : ∃ u after, op = .update u after
        · obtain ⟨u, after, rfl⟩ := hop
          cases hanswer : env.answer with
          | accepted => exact Or.inr ⟨u, after, i, env, rfl, ⟨m, rest, hm, htodo⟩, Or.inl hanswer⟩
          | unconfirmed =>
            exact Or.inr ⟨u, after, i, env, rfl, ⟨m, rest, hm, htodo⟩, Or.inr hanswer⟩
          | refused =>
            simp only [perform, update, hanswer]
            exact Or.inl ⟨agent_follow .., log_follow ..⟩
          | unreadable =>
            simp only [perform, update, hanswer]
            exact Or.inl ⟨agent_follow .., log_follow ..⟩
        · exact Or.inl (agent_perform fun u after h => hop ⟨u, after, h⟩)
      · cases hs
    · cases hs
  | work n w =>
    left
    simp only [step] at hs
    split at hs
    · split at hs
      · split_ifs at hs
        exact agent_workerStep hs
      · cases hs
    · cases hs
  | exit =>
    obtain rfl := Option.some.inj hs
    exact Or.inl ⟨rfl, rfl⟩

/-! ## A run that is started -/

/-- Everything goes well. -/
def smooth : OpEnv :=
  ⟨true, .accepted, "run-1", "t", none, true⟩

/-- The executor has succeeded. -/
def success : ExecutionResult :=
  ⟨.succeeded, none, none, rfl, rfl⟩

/-- A manager starts a run, and its worker is in the executor. -/
def startedRun : List ProcessAction :=
  [.build true [], .intent 0 "T" (Manager.request "start" "a")] ++
    List.replicate 7 (.advance 0 smooth) ++ [.work 0 (.start true "t"), .advance 0 smooth]

end AutonomyProcess

end Icode
