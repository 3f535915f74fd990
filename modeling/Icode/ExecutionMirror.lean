import Icode.ContractSnapshot

/-!
# The mirror of versioned execution

Events whose payload carries `execution_model_version` 1 record what a run did :
a step attempt is started and finished, its gates and artifacts lie in between,
and an operation is started and finished. `ExecutionMirror`
(`_ExecutionEventMirror`) replays them and collects an `ExecutionProblem` for
each event that does not fit. It keeps the attempts seen, keyed by a fingerprint
of their text, the operations with side effects that are open, and the latest
attempt of the step that stands for `completed`.

`consume` raises a `TypeError` on an event type that cannot be hashed, so it
returns an `Except`. An event of a text type is always consumed
(`consume_isOk`), and what was reported stays reported (`sameContract_consume`).
-/

namespace Py

/-- A `TypeError`: the value is used as a member of a set and has no hash. -/
inductive TypeError where
  | unhashable
  deriving DecidableEq, Repr

end Py

namespace Icode

open Py

/-! ## Problems -/

/-- What the mirror reports; an index is that of the event. -/
inductive ExecutionProblem where
  /-- contracts.json completion_receipt 结构无效 -/
  | receipt
  /-- contracts.json completion_receipt 缺 execution_model 快照 -/
  | receiptWithoutModel
  /-- contracts.json execution_model 结构无效 -/
  | model
  /-- contracts.json completion_receipt 与 execution_model 不一致 -/
  | receiptModel
  /-- 第 i 条 state_changed.completed 缺 completion_receipt <step> step_started -/
  | completedNoStart (i : ℕ) (step : PyStr)
  /-- 第 i 条 state_changed.completed 缺先于迁移的 completion_receipt <step> step_finished -/
  | completedNoFinish (i : ℕ) (step : PyStr)
  /-- 第 i 条 state_changed.completed 的 completion_receipt outcome 不可推进 -/
  | completedOutcome (i : ℕ)
  /-- 第 i 条 state_changed.completed 的 completion_receipt finish checks 与 gate_checked 不一致 -/
  | completedChecks (i : ℕ)
  /-- 第 i 条 state_changed.completed 的 completion_receipt 最新必需检查未通过：<boundary> -/
  | completedBoundary (i : ℕ) (boundary : PyStr)
  /-- 第 i 条 state_changed 在有副作用 operation 未终结时推进状态 -/
  | openOperation (i : ℕ)
  /-- 第 i 条 <event_type> 缺非空 attempt -/
  | attempt (i : ℕ)
  /-- 第 i 条 <event_type>.<field> 非法 -/
  | field (i : ℕ) (name : PyStr)
  /-- 第 i 条 step_started attempt 重复启动 -/
  | stepStartedTwice (i : ℕ)
  /-- 第 i 条 <event_type> 引用不存在的 step attempt -/
  | stepUnknown (i : ℕ)
  /-- 第 i 条 step attempt 重复终结 -/
  | stepFinishedTwice (i : ℕ)
  /-- 第 i 条 <event_type> 出现在 step_finished 之后 -/
  | afterStepFinished (i : ℕ)
  /-- 第 i 条 <event_type>.step 与启动事件不一致 -/
  | stepName (i : ℕ)
  /-- 第 i 条 operation_started.idempotency_provided 非布尔 -/
  | idempotency (i : ℕ)
  /-- 第 i 条 operation attempt 重复启动 -/
  | operationStartedTwice (i : ℕ)
  /-- 第 i 条 operation_finished 引用不存在的 attempt -/
  | operationUnknown (i : ℕ)
  /-- 第 i 条 operation attempt 重复终结 -/
  | operationFinishedTwice (i : ℕ)
  /-- 第 i 条 operation_finished 与启动事件身份不一致 -/
  | operationIdentity (i : ℕ)
  /-- 第 i 条 operation_finished 缺 <field> -/
  | missing (i : ℕ) (name : PyStr)
  /-- 第 i 条 operation_finished.failure 与 success 冲突 -/
  | failureConflict (i : ℕ)
  /-- 第 i 条 operation_finished.failure 缺失 -/
  | failureMissing (i : ℕ)
  /-- 第 i 条 operation_finished.failure 未登记 -/
  | failureUnknown (i : ℕ)
  /-- 第 i 条 operation_finished.decision 与 success policy 不一致 -/
  | successDecision (i : ℕ)
  deriving DecidableEq, Repr

/-! ## The registers -/

/-- An attempt of a step: its name, and whether it is finished. -/
structure StepState where
  step : Option PyStr
  finished : Bool

/-- An attempt of an operation. -/
structure OperationState where
  name : Option Bytes
  class_ : Option PyStr
  finished : Bool

/-- The latest attempt of the step that stands for `completed`. -/
structure CompletionState where
  step : PyStr
  startedAt : ℕ
  gateResults : Members
  outcome : Json
  checks : Json
  finishedAt : Option ℕ

/-- `_ExecutionEventMirror`. -/
structure ExecutionMirror where
  enabled : Bool
  problems : List ExecutionProblem
  hasVersionedEvents : Bool
  steps : Dict Bytes StepState
  operations : Dict Bytes OperationState
  openSideEffectOperations : List Bytes
  completionPolicy : Option CompletionReceipt
  versionedTicketBirth : Bool
  completedTransitionSeen : Bool
  latestCompletionAttempt : Option Bytes
  latestCompletionState : Option CompletionState
  /-- The names of the model; nothing when the mirror is not enabled. -/
  model : ExecutionModel

/-- `_fingerprint`. -/
def fingerprint (s : PyStr) : Bytes :=
  sha256Digest (encodePass s)

/-- `isinstance(value, int) and value >= 0`; a `bool` is an `int`. -/
def isDuration : Json → Bool
  | .int n => 0 ≤ n
  | .bool _ => true
  | _ => false

/-- `isinstance(value, bool)`. -/
def isBool : Json → Bool
  | .bool _ => true
  | _ => false

/-- `attempt`, when it is a text that is not empty. -/
def attempt? (payload : Members) : Option PyStr :=
  (payload.get "attempt").text?.filter fun s => !s.isEmpty

theorem attempt?_eq_some {payload : Members} {a : PyStr} :
    attempt? payload = some a ↔ payload.get "attempt" = .str a ∧ a ≠ [] := by
  simp [attempt?, Option.filter_eq_some_iff]

/-- `_has_pinned_success_decision`. -/
def hasPinnedSuccessDecision (decision : Members) : Bool :=
  Members.keysAre decision ["action", "reason", "conclusion_ceiling", "auto_retry"] &&
    (decision.get "action").isText "complete" &&
    (decision.get "reason").isText "operation_succeeded" &&
    (decision.get "conclusion_ceiling").isText "verified" &&
    match decision.get "auto_retry" with
    | .bool b => !b
    | _ => false

namespace ExecutionMirror

/-- The names of no model. -/
def noModel : ExecutionModel :=
  ⟨[], [], [], [], none, none⟩

/-- The receipt does not fit the model. -/
def receiptUnfit (model : ExecutionModel) (policy : CompletionReceipt) : Bool :=
  !model.steps.contains policy.step ||
    policy.requiredChecks.any fun boundary => !model.boundaries.contains boundary

/-- `_ExecutionEventMirror(execution_model, completion_receipt)`; an argument that is not given
is `none`. -/
def init (executionModel completionReceipt : Option Json) : ExecutionMirror :=
  let given := executionModel.filter fun v => !v.pyEq .null
  let policy := completionReceipt.bind fun v => (normalizeCompletionReceipt v).toOption
  let problems :=
    issueUnless (completionReceipt.isNone || policy.isSome) .receipt ++
      issueUnless (policy.isNone || given.isSome) .receiptWithoutModel
  let m : ExecutionMirror :=
    { enabled := given.isSome
      problems := problems
      hasVersionedEvents := false
      steps := []
      operations := []
      openSideEffectOperations := []
      completionPolicy := policy
      versionedTicketBirth := false
      completedTransitionSeen := false
      latestCompletionAttempt := none
      latestCompletionState := none
      model := noModel }
  match given with
  | none => m
  | some v =>
    match normalizeExecutionModel v true with
    | .error _ => { m with enabled := false, problems := problems ++ [.model] }
    | .ok model =>
      { m with
        model := model
        problems := problems ++ issueUnless (policy.all fun p => !receiptUnfit model p) .receiptModel }

/-- `self.problems.append(p)` for each of `ps`. -/
def report (m : ExecutionMirror) (ps : List ExecutionProblem) : ExecutionMirror :=
  { m with problems := m.problems ++ ps }

/-! ## The completion receipt -/

/-- `_track_completion_attempt` on an event of the tracked attempt. -/
def trackGate (event payload : Members) (i : ℕ) (state : CompletionState) : CompletionState :=
  if isKind event "gate_checked" then
    match payload.get "boundary", payload.get "result" with
    | .str boundary, .str result =>
      { state with gateResults := Dict.set state.gateResults boundary (.str result) }
    | _, _ => state
  else if isKind event "step_finished" then
    { state with
      outcome := payload.get "outcome"
      checks := payload.get "checks"
      finishedAt := some i }
  else state

/-- `_track_completion_attempt`. -/
def trackCompletionAttempt (m : ExecutionMirror) (event payload : Members) (i : ℕ) :
    ExecutionMirror :=
  match m.completionPolicy, attempt? payload with
  | some policy, some attempt =>
    let ofStep := (payload.get "step").isText policy.step
    if isKind event "step_started" && ofStep then
      { m with
        latestCompletionAttempt := some (fingerprint attempt)
        latestCompletionState := some ⟨policy.step, i, [], .null, .null, none⟩ }
    else
      match m.latestCompletionState with
      | some state =>
        if m.latestCompletionAttempt == some (fingerprint attempt) && ofStep then
          { m with latestCompletionState := some (trackGate event payload i state) }
        else m
      | none => m
  | _, _ => m

/-- The checks of a finished attempt, in `_check_completion_receipt`. -/
def finishedProblems (policy : CompletionReceipt) (state : CompletionState) (i : ℕ) :
    List ExecutionProblem :=
  issueUnless (textSatisfies (fun s => s == lit "success" || s == lit "degraded") state.outcome)
    (.completedOutcome i) ++
  issueUnless (state.checks.isObj && state.checks.pyEq (.obj state.gateResults))
    (.completedChecks i) ++
  (policy.requiredChecks.filter fun b => !(state.gateResults.get b).isText "pass").map
    (.completedBoundary i)

/-- What `_check_completion_receipt` reports. -/
def receiptProblems (m : ExecutionMirror) (payload : Members) (i : ℕ) : List ExecutionProblem :=
  match m.completionPolicy with
  | none => []
  | some policy =>
    let skipped := match payload.get "gates_skipped_for_test" with
      | .bool b => b
      | _ => false
    match m.latestCompletionState with
    | none => if m.versionedTicketBirth && !skipped then [.completedNoStart i policy.step] else []
    | some state =>
      if state.finishedAt.all fun f => i ≤ f then [.completedNoFinish i policy.step]
      else finishedProblems policy state i

/-! ## The branches of `consume` -/

/-- `state_changed`. -/
def stateChanged (m : ExecutionMirror) (payload : Members) (i : ℕ) : ExecutionMirror :=
  let m := m.report (issueUnless m.openSideEffectOperations.isEmpty (.openOperation i))
  if (payload.get "to").isText "completed" then
    { m.report (m.receiptProblems payload i) with completedTransitionSeen := true }
  else m

/-- A versioned event of a mirror that is not enabled. -/
def consumeDisabled (m : ExecutionMirror) (event payload : Members) : ExecutionMirror :=
  match attempt? payload with
  | none => m
  | some attempt =>
    if isKind event "operation_started" then
      if (payload.get "class").isText "read_only" then m
      else { m with
        openSideEffectOperations := m.openSideEffectOperations.insert (fingerprint attempt) }
    else if isKind event "operation_finished" then
      { m with
        openSideEffectOperations := m.openSideEffectOperations.filter (· ≠ fingerprint attempt) }
    else m

/-- `if not self._valid_digest(payload.get(name))`. -/
def digestIssue (payload : Members) (i : ℕ) (name : PyStr) : List ExecutionProblem :=
  issueUnless (textSatisfies (isHexText 64) (payload.get name)) (.field i name)

/-- The check that a field is one of the declared names. -/
def nameIssue (names : List PyStr) (payload : Members) (i : ℕ) (name : PyStr) :
    List ExecutionProblem :=
  issueUnless (textSatisfies (names.contains ·) (payload.get name)) (.field i name)

/-- `step_started`. -/
def stepStarted (m : ExecutionMirror) (key : Bytes) (payload : Members) (i : ℕ) :
    ExecutionMirror :=
  { m.report
      (nameIssue m.model.steps payload i "step" ++
        issueUnless (!Dict.has m.steps key) (.stepStartedTwice i) ++
        digestIssue payload i "input_digest" ++
        digestIssue payload i "contract_digest") with
    steps := Dict.set m.steps key ⟨(payload.get "step").text?, false⟩ }

/-- What `gate_checked`, `artifact_written` and `step_finished` are checked for by themselves. -/
def stepEventIssues (m : ExecutionMirror) (event payload : Members) (i : ℕ) :
    List ExecutionProblem :=
  if isKind event "gate_checked" then
    nameIssue m.model.boundaries payload i "boundary" ++
      nameIssue ["pass", "blocked"] payload i "result" ++
      digestIssue payload i "captured_digest" ++ digestIssue payload i "current_digest"
  else if isKind event "artifact_written" then digestIssue payload i "sha256"
  else
    nameIssue m.model.stepOutcomes payload i "outcome" ++
      issueUnless (isDuration (payload.get "duration_ms")) (.field i "duration_ms")

/-- `gate_checked`, `artifact_written` and `step_finished`. -/
def stepEvent (m : ExecutionMirror) (key : Bytes) (event payload : Members) (i : ℕ) :
    ExecutionMirror :=
  match Dict.get? m.steps key with
  | none => m.report [.stepUnknown i]
  | some state =>
    let finishes := isKind event "step_finished"
    { m.report
        (issueUnless (!state.finished)
            (if finishes then .stepFinishedTwice i else .afterStepFinished i) ++
          issueUnless ((payload.get "step").pyEq (.ofText? state.step)) (.stepName i) ++
          m.stepEventIssues event payload i) with
      steps := if finishes then Dict.set m.steps key { state with finished := true } else m.steps }

/-- `operation_started`. -/
def operationStarted (m : ExecutionMirror) (key : Bytes) (payload : Members) (i : ℕ) :
    ExecutionMirror :=
  { m.report
      (issueUnless (textSatisfies (fun s => !s.isEmpty) (payload.get "name")) (.field i "name") ++
        nameIssue m.model.operationClasses payload i "class" ++
        digestIssue payload i "input_digest" ++
        issueUnless (isBool (payload.get "idempotency_provided")) (.idempotency i) ++
        issueUnless (!Dict.has m.operations key) (.operationStartedTwice i)) with
    operations := Dict.set m.operations key
      ⟨(payload.get "name").text?.map fingerprint, (payload.get "class").text?, false⟩
    openSideEffectOperations :=
      if (payload.get "class").isText "read_only" then m.openSideEffectOperations
      else m.openSideEffectOperations.insert key }

/-- The checks of `failure` against the declared failure classes. -/
def failureIssues (m : ExecutionMirror) (payload : Members) (i : ℕ) : List ExecutionProblem :=
  match m.model.failureClasses with
  | none => []
  | some classes =>
    let failure := payload.get "failure"
    if (payload.get "outcome").isText "success" then
      issueUnless (failure.pyEq .null || failure.isText "") (.failureConflict i)
    else
      match failure with
      | .str s =>
        if (strip s).isEmpty then [.failureMissing i]
        else issueUnless (classes.contains s) (.failureUnknown i)
      | _ => [.failureMissing i]

/-- The check of the decision of a success. -/
def decisionIssues (m : ExecutionMirror) (payload : Members) (i : ℕ) : List ExecutionProblem :=
  match payload.get "decision" with
  | .obj decision =>
    issueUnless (!(m.model.successDecisionVersion == some 1 &&
      (payload.get "outcome").isText "success" && !hasPinnedSuccessDecision decision))
      (.successDecision i)
  | _ => []

/-- What `operation_finished` is checked for by itself. -/
def operationFinishedIssues (m : ExecutionMirror) (payload : Members) (i : ℕ) :
    List ExecutionProblem :=
  nameIssue m.model.stepOutcomes payload i "outcome" ++
    issueUnless (isDuration (payload.get "duration_ms")) (.field i "duration_ms") ++
    issueUnless (textSatisfies (fun s => !(strip s).isEmpty) (payload.get "evidence"))
      (.missing i "evidence") ++
    issueUnless (textSatisfies (fun s => !(strip s).isEmpty) (payload.get "after_check"))
      (.missing i "after_check") ++
    issueUnless (payload.get "decision").isObj (.missing i "decision") ++
    m.failureIssues payload i ++ m.decisionIssues payload i

/-- `operation_finished`. -/
def operationFinished (m : ExecutionMirror) (key : Bytes) (payload : Members) (i : ℕ) :
    ExecutionMirror :=
  match Dict.get? m.operations key with
  | none => m.report [.operationUnknown i]
  | some state =>
    { m.report
        (issueUnless (!state.finished) (.operationFinishedTwice i) ++
          issueUnless ((payload.get "name").text?.any (fun s => state.name == some (fingerprint s)) &&
            (payload.get "class").pyEq (.ofText? state.class_)) (.operationIdentity i) ++
          m.operationFinishedIssues payload i) with
      operations := Dict.set m.operations key { state with finished := true }
      openSideEffectOperations :=
        if state.class_ == some (lit "read_only") then m.openSideEffectOperations
        else m.openSideEffectOperations.filter (· ≠ key) }

/-- A versioned event of an enabled mirror. -/
def consumeVersioned (m : ExecutionMirror) (event payload : Members) (i : ℕ) :
    Except TypeError ExecutionMirror :=
  match attempt? payload with
  | none => .ok (m.report [.attempt i])
  | some attempt =>
    let key := fingerprint attempt
    if isKind event "step_started" then .ok (m.stepStarted key payload i)
    -- `event_type in {…}`
    else if !(event.get "event_type").hashable then .error .unhashable
    else if isKind event "gate_checked" || isKind event "artifact_written" ||
        isKind event "step_finished" then .ok (m.stepEvent key event payload i)
    else if isKind event "operation_started" then .ok (m.operationStarted key payload i)
    else if isKind event "operation_finished" then .ok (m.operationFinished key payload i)
    else .ok m

/-- The payload carries `execution_model_version` 1. -/
def isVersioned (payload : Members) : Bool :=
  (payload.get "execution_model_version").pyEq (.int 1)

/-- `consume`. -/
def consume (m : ExecutionMirror) (event : Members) (i : ℕ) : Except TypeError ExecutionMirror :=
  match payload? event with
  | none => .ok m
  | some payload =>
    if isKind event "ticket_created" then
      if (payload.get "execution_contract_version").isExactly 1 then
        .ok { m with versionedTicketBirth := true }
      else .ok m
    else if isKind event "state_changed" then .ok (m.stateChanged payload i)
    else if !isVersioned payload then .ok m
    else
      let m := { m with hasVersionedEvents := true }.trackCompletionAttempt event payload i
      if !m.enabled then .ok (m.consumeDisabled event payload)
      else m.consumeVersioned event payload i

/-- `finish`; attempts that are open at the end are no problem. -/
def finish (m : ExecutionMirror) : List ExecutionProblem :=
  m.problems

/-- The mirror after the events; `i` is the number of events before them. -/
def consumeAll (m : ExecutionMirror) (i : ℕ) : List Members → Except TypeError ExecutionMirror
  | [] => .ok m
  | event :: events =>
    match m.consume event (i + 1) with
    | .ok n => n.consumeAll (i + 1) events
    | .error e => .error e

/-! ## Every event -/

variable {m n : ExecutionMirror} {event payload : Members} {i : ℕ}

/-- The parts of the mirror no event changes. -/
structure SameContract (m n : ExecutionMirror) : Prop where
  enabled : n.enabled = m.enabled
  completionPolicy : n.completionPolicy = m.completionPolicy
  model : n.model = m.model
  problems : ∃ ps, n.problems = m.problems ++ ps

theorem SameContract.refl (m : ExecutionMirror) : SameContract m m :=
  ⟨rfl, rfl, rfl, [], by simp⟩

theorem SameContract.trans {m n k : ExecutionMirror} (h : SameContract m n)
    (h' : SameContract n k) : SameContract m k := by
  obtain ⟨ps, hps⟩ := h.problems
  obtain ⟨qs, hqs⟩ := h'.problems
  exact ⟨h'.enabled.trans h.enabled, h'.completionPolicy.trans h.completionPolicy,
    h'.model.trans h.model, ps ++ qs, by rw [hqs, hps, List.append_assoc]⟩

theorem sameContract_report (ps : List ExecutionProblem) : SameContract m (m.report ps) :=
  ⟨rfl, rfl, rfl, ps, rfl⟩

/-- Tracking the completion attempt changes nothing else. -/
theorem trackCompletionAttempt_eq (m : ExecutionMirror) (event payload : Members) (i : ℕ) :
    ∃ attempt state, m.trackCompletionAttempt event payload i =
      { m with latestCompletionAttempt := attempt, latestCompletionState := state } := by
  unfold trackCompletionAttempt
  split
  · dsimp only
    split
    · exact ⟨_, _, rfl⟩
    · split
      · split <;> exact ⟨_, _, rfl⟩
      · exact ⟨_, _, rfl⟩
  · exact ⟨_, _, rfl⟩

theorem sameContract_stateChanged : SameContract m (m.stateChanged payload i) := by
  unfold stateChanged
  dsimp only
  split_ifs
  · exact (sameContract_report _).trans ⟨rfl, rfl, rfl, _, rfl⟩
  · exact sameContract_report _

theorem sameContract_consumeDisabled : SameContract m (m.consumeDisabled event payload) := by
  unfold consumeDisabled
  split
  · exact SameContract.refl m
  · split_ifs <;> exact ⟨rfl, rfl, rfl, [], by simp⟩

theorem sameContract_consumeVersioned (h : m.consumeVersioned event payload i = .ok n) :
    SameContract m n := by
  unfold consumeVersioned at h
  split at h
  · obtain rfl := Except.ok.inj h
    exact sameContract_report _
  · dsimp only at h
    split_ifs at h
    · obtain rfl := Except.ok.inj h
      exact ⟨rfl, rfl, rfl, _, rfl⟩
    · obtain rfl := Except.ok.inj h
      unfold stepEvent
      split
      · exact sameContract_report _
      · exact ⟨rfl, rfl, rfl, _, rfl⟩
    · obtain rfl := Except.ok.inj h
      exact ⟨rfl, rfl, rfl, _, rfl⟩
    · obtain rfl := Except.ok.inj h
      unfold operationFinished
      split
      · exact sameContract_report _
      · exact ⟨rfl, rfl, rfl, _, rfl⟩
    · obtain rfl := Except.ok.inj h
      exact SameContract.refl m

/-- What was reported stays reported. -/
theorem sameContract_consume (h : m.consume event i = .ok n) : SameContract m n := by
  unfold consume at h
  split at h
  · obtain rfl := Except.ok.inj h
    exact SameContract.refl m
  · split_ifs at h with hcreated hmarker hstate hversioned
    · obtain rfl := Except.ok.inj h
      exact ⟨rfl, rfl, rfl, [], by simp⟩
    · obtain rfl := Except.ok.inj h
      exact SameContract.refl m
    · obtain rfl := Except.ok.inj h
      exact sameContract_stateChanged
    · obtain rfl := Except.ok.inj h
      exact SameContract.refl m
    · rename_i payload hp
      obtain ⟨attempt, state, htrack⟩ :=
        trackCompletionAttempt_eq { m with hasVersionedEvents := true } event payload i
      rw [htrack] at h
      dsimp only at h
      refine SameContract.trans (n := { m with
        hasVersionedEvents := true
        latestCompletionAttempt := attempt
        latestCompletionState := state }) ⟨rfl, rfl, rfl, [], by simp⟩ ?_
      split at h
      · obtain rfl := Except.ok.inj h
        exact sameContract_consumeDisabled
      · exact sameContract_consumeVersioned h

/-- An event of a text type is consumed. -/
theorem consume_isOk (m : ExecutionMirror) {kind : PyStr}
    (htype : event.get "event_type" = .str kind) (i : ℕ) : ∃ n, m.consume event i = .ok n := by
  have hversioned : ∀ (m : ExecutionMirror) (payload : Members),
      ∃ n, m.consumeVersioned event payload i = .ok n := by
    intro m payload
    unfold consumeVersioned
    split
    · exact ⟨_, rfl⟩
    · simp only [htype, Json.hashable]
      split_ifs <;> first | exact ⟨_, rfl⟩ | simp at *
  unfold consume
  split
  · exact ⟨_, rfl⟩
  · split_ifs
    · exact ⟨_, rfl⟩
    · exact ⟨_, rfl⟩
    · exact ⟨_, rfl⟩
    · exact ⟨_, rfl⟩
    · dsimp only
      split
      · exact ⟨_, rfl⟩
      · exact hversioned _ _

theorem consumeAll_append {es fs : List Members} : ∀ {m n : ExecutionMirror} {i : ℕ},
    m.consumeAll i (es ++ fs) = .ok n ↔
      ∃ k, m.consumeAll i es = .ok k ∧ k.consumeAll (i + es.length) fs = .ok n := by
  induction es with
  | nil =>
    intro m n i
    simp [consumeAll]
  | cons e es ih =>
    intro m n i
    simp only [List.cons_append, consumeAll, List.length_cons]
    cases m.consume e (i + 1) with
    | error err => simp
    | ok k =>
      simp only [ih]
      rw [show i + 1 + es.length = i + (es.length + 1) by omega]

theorem sameContract_consumeAll {es : List Members} : ∀ {m n : ExecutionMirror} {i : ℕ},
    m.consumeAll i es = .ok n → SameContract m n := by
  induction es with
  | nil =>
    intro m n i h
    obtain rfl := Except.ok.inj h
    exact SameContract.refl m
  | cons e es ih =>
    intro m n i h
    rw [consumeAll] at h
    cases hc : m.consume e (i + 1) with
    | error err =>
      rw [hc] at h
      cases h
    | ok k =>
      rw [hc] at h
      exact (sameContract_consume hc).trans (ih h)

end ExecutionMirror

end Icode
