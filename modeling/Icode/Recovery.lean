import Icode.AnchorAttach
import Icode.Compaction
import Icode.JsonRecursion

/-!
# Recovery after a crash

`Recoverer.analyze` decides how an interrupted ticket goes on. It reads what the trace of the
control plane has left open, the outputs that the events file registers, and the checkpoint, which
is a hint only.

`analyze_action` : the action is that of the trace, whatever the checkpoint is.
`analyze_sound_iff` : a decision is given, and a fresh start only without open items, exactly when
the files hold what their writers put in them and no agent alone is open.
-/

namespace Icode

open Py

namespace Recovery

/-! ## What is read -/

/-- The projections of a readable trace; one that is missing has no members. -/
structure Projections where
  openSteps : Members
  openOperations : Members
  openAgents : Members

/-- What `ControlPlane.trace` gives. -/
inductive TraceAnswer where
  /-- It raises `ControlError`. -/
  | error
  /-- The return code is not zero, or `ok` is not `True`. -/
  | unsuccessful
  | success (projections : Projections)

/-- `LoopCheckpoint` -/
structure LoopCheckpoint where
  ticketId : Json
  step : Json
  attempt : Json
  turnIndex : Json
  toolCalls : Json
  historyDigest : Json
  pendingApprovals : Json
  stopReason : Json
  updatedAt : Json
  schemaVersion : Json
  generator : Json
  note : Json

/-- What `analyze` raises. -/
inductive RecoveryError where
  /-- `UnicodeDecodeError` for the events file. -/
  | eventsText
  /-- `RecursionError`, or a `ValueError` that is no `JSONDecodeError`, for a line of it. -/
  | eventsValue
  /-- `AttributeError` for a line of it. -/
  | eventsShape
  /-- `UnicodeDecodeError` for the checkpoint. -/
  | checkpointText
  /-- `RecursionError`, or a `ValueError` that is no `JSONDecodeError`, for the checkpoint. -/
  | checkpointValue
  /-- `CheckpointError`: 检查点不可解析 -/
  | checkpointUnreadable
  /-- `CheckpointError`: 检查点结构异常 -/
  | checkpointShape
  /-- `TypeError` for a checkpoint without a field that has no default. -/
  | checkpointFields
  /-- `TypeError` for an attempt that cannot be hashed. -/
  | checkpointAttempt
  deriving DecidableEq

section Read

variable (printable : CodePoint → Bool) (f : Flavour) (limit : ℕ)

/-- `payload` of an event. -/
def eventPayload (event : Members) : Json :=
  Compaction.pyOr (event.get "payload") (.obj [])

/-- The name under which an output is registered. -/
def outputName (payload : Members) : PyStr :=
  let rawPath := (Compaction.pyOr (payload.get "path") (.str [])).pyStr printable
  if rawPath.isEmpty then (Compaction.pyOr (payload.get "output") (.str [])).pyStr printable
  else (PurePath.parse f rawPath).name

/-- One line of the events file, with the outputs before it. -/
def readLine (out : List PyStr) (line : PyStr) : Except RecoveryError (List PyStr) :=
  let line := strip line
  if line.isEmpty then .ok out
  else
    match loadsWithin limit line with
    | .error (.json .decode) => .ok out
    | .error _ => .error .eventsValue
    | .ok (.obj event) =>
      if !(Members.get event "event_type").isText "artifact_written" then .ok out
      else
        match eventPayload event with
        | .obj payload =>
          let name := outputName printable f payload
          if name.isEmpty || out.contains name then .ok out else .ok (out ++ [name])
        | _ => .error .eventsShape
    | .ok _ => .error .eventsShape

/-- The characters at which `str.splitlines` splits. -/
def isLineBreak (c : CodePoint) : Bool :=
  (10 ≤ c.ord && c.ord ≤ 13) || (28 ≤ c.ord && c.ord ≤ 30) || c.ord == 0x85 || c.ord == 0x2028 ||
    c.ord == 0x2029

/-- The lines of a file. What `splitlines` and this split differently are empty lines. -/
def fileLines (text : PyStr) : List PyStr :=
  (universalNewlines text).splitOnP isLineBreak

/-- `_registered_outputs`; `none` is a file that is missing. -/
def registeredOutputs : Option Bytes → Except RecoveryError (List PyStr)
  | none => .ok []
  | some content =>
    match decode content with
    | none => .error .eventsText
    | some text => (fileLines text).foldlM (readLine printable f limit) []

/-- The fields of `LoopCheckpoint` without a default. -/
def requiredFields : List PyStr :=
  ["ticket_id", "step", "attempt"].map lit

/-- `data[key]`, or the default. -/
def fieldOr (data : Members) (key : PyStr) (default : Json) : Json :=
  (Dict.get? data key).getD default

/-- `LoopCheckpoint.from_dict` -/
def LoopCheckpoint.fromDict (data : Members) : Except RecoveryError LoopCheckpoint :=
  if requiredFields.all (Dict.has data) then
    .ok
      { ticketId := data.get "ticket_id"
        step := data.get "step"
        attempt := data.get "attempt"
        turnIndex := fieldOr data "turn_index" (.int 0)
        toolCalls := fieldOr data "tool_calls" (.int 0)
        historyDigest := fieldOr data "history_digest" (.str [])
        pendingApprovals := fieldOr data "pending_approvals" (.int 0)
        stopReason := fieldOr data "stop_reason" (.str [])
        updatedAt := fieldOr data "updated_at" (.str [])
        schemaVersion := fieldOr data "schema_version" (.int 1)
        generator := fieldOr data "generator" (.obj [])
        note := fieldOr data "note" (.str "不保存模型正文；恢复时以事件链为准重新水合上下文") }
  else .error .checkpointFields

/-- `Checkpointer.load` of a file that is there. -/
def loadCheckpoint (content : Bytes) : Except RecoveryError LoopCheckpoint :=
  match decode content with
  | none => .error .checkpointText
  | some text =>
    match loadsWithin limit (universalNewlines text) with
    | .error (.json .decode) => .error .checkpointUnreadable
    | .error _ => .error .checkpointValue
    | .ok (.obj data) => LoopCheckpoint.fromDict data
    | .ok _ => .error .checkpointShape

end Read

/-! ## What is open -/

/-- An operation that is not finished. -/
structure OpenOperation where
  attempt : PyStr
  opclass : PyStr
  name : Json

section Open

variable (printable : CodePoint → Bool)

/-- `info if isinstance(info, dict) else {}` -/
def operationData : Json → Members
  | .obj data => data
  | _ => []

/-- The class of an operation, empty when it has none. -/
def operationClass (info : Json) : PyStr :=
  let data := operationData info
  (Compaction.pyOr (data.get "class") (Compaction.pyOr (data.get "opclass") (.str []))).pyStr
    printable

/-- `READ_ONLY_CLASS` -/
def readOnlyClass : PyStr :=
  "read_only"

def isReadOnly (item : PyStr × Json) : Bool :=
  operationClass printable item.2 == readOnlyClass

def openOperation (item : PyStr × Json) : OpenOperation where
  attempt := item.1
  opclass :=
    let opclass := operationClass printable item.2
    if opclass.isEmpty then "unknown" else opclass
  name :=
    let data := operationData item.2
    Compaction.pyOr (data.get "name") (Compaction.pyOr (data.get "action") (.str []))

/-- The first part of `_classify_open_operations`: what is not known to be read-only. -/
def sideEffects (operations : Members) : List OpenOperation :=
  (operations.filter fun item => !isReadOnly printable item).map (openOperation printable)

/-- The second part of `_classify_open_operations`. -/
def readOnly (operations : Members) : List OpenOperation :=
  (operations.filter (isReadOnly printable)).map (openOperation printable)

/-- `_collect_attempts` -/
def collectAttempts (openSteps : Members) : List PyStr :=
  openSteps.flatMap fun (key, value) =>
    let inner := (operationData value).get "attempt"
    if inner.truthy then [key, inner.pyStr printable] else [key]

end Open

/-! ## The decision -/

inductive RecoveryAction where
  | startFresh
  | resume
  | verifySideEffect
  | blocked
  deriving DecidableEq

inductive RecoveryReason where
  | traceFailed
  | traceUnsuccessful
  | noOpenItem
  | sideEffects (operations : List OpenOperation)
  | openSteps (attempts : List PyStr)
  | readOnlyOperations (attempts : List PyStr)
  | checkpointDropped

inductive RecoveryWarning where
  | otherTicket
  | attemptNotOpen
  | noOpenStep
  | pendingApprovals (count : Json)

/-- `RecoveryDecision` -/
structure RecoveryDecision where
  action : RecoveryAction
  reason : RecoveryReason
  step : PyStr
  openSteps : Members
  openOperations : Members
  openAgents : Members
  checkpoint : Option LoopCheckpoint
  checkpointValid : Bool
  registeredOutputs : List PyStr
  sideEffectOperations : List OpenOperation
  warnings : List RecoveryWarning

/-- A decision for a trace that cannot be read. -/
def RecoveryDecision.stopped (step : PyStr) (reason : RecoveryReason) : RecoveryDecision where
  action := .blocked
  reason := reason
  step := step
  openSteps := []
  openOperations := []
  openAgents := []
  checkpoint := none
  checkpointValid := false
  registeredOutputs := []
  sideEffectOperations := []
  warnings := []

/-- What the comparison of a checkpoint with the trace finds. -/
inductive CheckpointFinding where
  | valid
  /-- It belongs to another ticket, and is left where it is. -/
  | ignored
  /-- It is removed. -/
  | dropped (warning : RecoveryWarning)

section Analyze

variable (printable : CodePoint → Bool) (f : Flavour) (limit : ℕ) (ticketId step : PyStr)

/-- The comparison of a checkpoint with the trace. -/
def compareCheckpoint (openSteps : Members) (cp : LoopCheckpoint) :
    Except RecoveryError CheckpointFinding :=
  let openAttempts := collectAttempts printable openSteps
  if !cp.ticketId.isText ticketId then .ok .ignored
  else if openAttempts.isEmpty then .ok (.dropped .noOpenStep)
  else if !cp.attempt.hashable then .error .checkpointAttempt
  else if openAttempts.any cp.attempt.isText then .ok .valid
  else .ok (.dropped .attemptNotOpen)

/-- The decision and what is left of the checkpoint, before the action is chosen. -/
def beforeAction (p : Projections) (events checkpoint : Option Bytes) :
    Except RecoveryError (RecoveryDecision × Option Bytes) := do
  let outputs ← registeredOutputs printable f limit events
  let decision : RecoveryDecision :=
    { action := .startFresh
      reason := .noOpenItem
      step
      openSteps := p.openSteps
      openOperations := p.openOperations
      openAgents := p.openAgents
      checkpoint := none
      checkpointValid := false
      registeredOutputs := outputs
      sideEffectOperations := sideEffects printable p.openOperations
      warnings := [] }
  match checkpoint with
  | none => pure (decision, none)
  | some content =>
    let cp ← loadCheckpoint limit content
    let finding ← compareCheckpoint printable ticketId p.openSteps cp
    let pending := if cp.pendingApprovals.truthy then
      [RecoveryWarning.pendingApprovals cp.pendingApprovals] else []
    match finding with
    | .valid => pure ({ decision with
        checkpoint := some cp, checkpointValid := true, warnings := pending }, some content)
    | .ignored => pure ({ decision with
        checkpoint := some cp, warnings := .otherTicket :: pending }, some content)
    | .dropped warning => pure ({ decision with
        checkpoint := some cp, warnings := warning :: pending }, none)

/-- The choice of the action. -/
def chooseAction (decision : RecoveryDecision) : RecoveryDecision :=
  let readOnlyOperations := readOnly printable decision.openOperations
  if !decision.sideEffectOperations.isEmpty then
    { decision with
      action := .verifySideEffect, reason := .sideEffects decision.sideEffectOperations }
  else if !decision.openSteps.isEmpty then
    { decision with action := .resume, reason := .openSteps (Dict.keys decision.openSteps) }
  else if !readOnlyOperations.isEmpty then
    { decision with
      action := .resume, reason := .readOnlyOperations (readOnlyOperations.map (·.attempt)) }
  else if decision.checkpoint.isSome && !decision.checkpointValid then
    { decision with reason := .checkpointDropped }
  else decision

/-- `Recoverer.analyze`, with what is left of the checkpoint. A checkpoint is `none` when there is
no file, or nobody who reads it. -/
def analyze (trace : TraceAnswer) (events checkpoint : Option Bytes) :
    Except RecoveryError (RecoveryDecision × Option Bytes) :=
  match trace with
  | .error => .ok (.stopped step .traceFailed, checkpoint)
  | .unsuccessful => .ok (.stopped step .traceUnsuccessful, checkpoint)
  | .success p => do
    let (decision, left) ← beforeAction printable f limit ticketId step p events checkpoint
    pure (chooseAction printable decision, left)

end Analyze

/-! ## The events file -/

section Events

variable {printable : CodePoint → Bool} {f : Flavour} {limit : ℕ}

/-- A line that can be read: blank, no JSON, or an object, with an object or nothing as the payload
when it registers an output. -/
def LineReadable (limit : ℕ) (line : PyStr) : Prop :=
  strip line = [] ∨ loadsWithin limit (strip line) = .error (.json .decode) ∨
    ∃ event : Members, loadsWithin limit (strip line) = .ok (.obj event) ∧
      (event.get "event_type" = .str "artifact_written" →
        ∃ payload, eventPayload event = .obj payload)

/-- An events file that can be read, or none. -/
def EventsReadable (limit : ℕ) (events : Option Bytes) : Prop :=
  ∀ content, events = some content → ∃ text, decode content = some text ∧
    ∀ line ∈ fileLines text, LineReadable limit line

theorem readLine_isOk {out : List PyStr} {line : PyStr} :
    (∃ out', readLine printable f limit out line = .ok out') ↔ LineReadable limit line := by
  unfold readLine LineReadable
  dsimp only
  by_cases hblank : strip line = []
  · simp [hblank]
  have hempty : (strip line).isEmpty = false := by simpa using hblank
  simp only [hempty, Bool.false_eq_true, if_false, hblank, false_or]
  cases hload : loadsWithin limit (strip line) with
  | error e =>
    cases e with
    | recursion => simp
    | json e => cases e <;> simp
  | ok v =>
    cases v with
    | obj event =>
      simp only [reduceCtorEq, false_or, Except.ok.injEq, Json.obj.injEq, exists_eq_left']
      by_cases htype : Members.get event "event_type" = .str "artifact_written"
      · have htext : (Members.get event "event_type").isText "artifact_written" = true :=
          Json.isText_iff.mpr htype
        simp only [htext, Bool.not_true, Bool.false_eq_true, if_false]
        cases hpayload : eventPayload event with
        | obj payload =>
          simp only [Json.obj.injEq, exists_eq', implies_true, iff_true]
          split_ifs
          · exact ⟨_, rfl⟩
          · exact ⟨_, rfl⟩
        | _ => simp [htype]
      · have htext : (Members.get event "event_type").isText "artifact_written" = false := by
          rw [← Bool.not_eq_true, Json.isText_iff]
          exact htype
        simp [htext, htype]
    | _ => simp

/-- A loop that stops at the items that are not good, whatever came before. -/
theorem exists_foldlM {α β ε : Type} {g : β → α → Except ε β} {good : α → Prop}
    (h : ∀ b a, (∃ b', g b a = .ok b') ↔ good a) :
    ∀ (l : List α) (b : β), (∃ b', l.foldlM g b = .ok b') ↔ ∀ a ∈ l, good a
  | [], b => by simp [pure, Except.pure]
  | a :: l, b => by
    rw [List.forall_mem_cons, List.foldlM_cons]
    simp only [bind_eq_ok]
    constructor
    · rintro ⟨b', b₁, hfirst, hrest⟩
      exact ⟨(h b a).mp ⟨b₁, hfirst⟩, (exists_foldlM h l b₁).mp ⟨b', hrest⟩⟩
    · rintro ⟨ha, hl⟩
      obtain ⟨b₁, hfirst⟩ := (h b a).mpr ha
      obtain ⟨b', hrest⟩ := (exists_foldlM h l b₁).mpr hl
      exact ⟨b', b₁, hfirst, hrest⟩

theorem registeredOutputs_isOk {events : Option Bytes} :
    (∃ out, registeredOutputs printable f limit events = .ok out) ↔
      EventsReadable limit events := by
  cases events with
  | none => simp [registeredOutputs, EventsReadable]
  | some content =>
    simp only [registeredOutputs, EventsReadable, Option.some.injEq, forall_eq']
    cases hdecode : decode content with
    | none => simp
    | some text =>
      simp only [Option.some.injEq, exists_eq_left']
      have hline : ∀ out line, (∃ out', readLine printable f limit out line = .ok out') ↔
          LineReadable limit line := fun _ _ => readLine_isOk
      exact exists_foldlM hline _ _

end Events

/-! ## The checkpoint -/

section Checkpoint

variable {printable : CodePoint → Bool} {limit : ℕ} {ticketId : PyStr} {openSteps : Members}

/-- A checkpoint that can be read, or none: an object with the fields that have no default. The
attempt is hashed only when it is looked for among those that are open. -/
def CheckpointReadable (limit : ℕ) (ticketId : PyStr) (openSteps : Members)
    (checkpoint : Option Bytes) : Prop :=
  ∀ content, checkpoint = some content → ∃ text, ∃ data : Members, decode content = some text ∧
    loadsWithin limit (universalNewlines text) = .ok (.obj data) ∧
    requiredFields.all (Dict.has data) = true ∧
    (data.get "ticket_id" = .str ticketId → openSteps ≠ [] →
      (data.get "attempt").hashable = true)

theorem loadCheckpoint_eq_ok {content : Bytes} {cp : LoopCheckpoint} :
    loadCheckpoint limit content = .ok cp ↔ ∃ text data, decode content = some text ∧
      loadsWithin limit (universalNewlines text) = .ok (.obj data) ∧
      LoopCheckpoint.fromDict data = .ok cp := by
  unfold loadCheckpoint
  cases hdecode : decode content with
  | none => simp
  | some text =>
    simp only [Option.some.injEq]
    cases hload : loadsWithin limit (universalNewlines text) with
    | error e =>
      cases e with
      | recursion => simp [hload]
      | json e => cases e <;> simp [hload]
    | ok v => cases v <;> simp [hload]

theorem fromDict_eq_ok {data : Members} {cp : LoopCheckpoint}
    (h : LoopCheckpoint.fromDict data = .ok cp) :
    cp.ticketId = data.get "ticket_id" ∧ cp.attempt = data.get "attempt" := by
  unfold LoopCheckpoint.fromDict at h
  split_ifs at h
  obtain rfl := Except.ok.inj h
  exact ⟨rfl, rfl⟩

theorem fromDict_isOk {data : Members} : (∃ cp, LoopCheckpoint.fromDict data = .ok cp) ↔
    requiredFields.all (Dict.has data) = true := by
  unfold LoopCheckpoint.fromDict
  split_ifs with hall
  · simp [hall]
  · simp [hall]

/-- There are attempts when there are steps. -/
theorem collectAttempts_isEmpty :
    (collectAttempts printable openSteps).isEmpty = openSteps.isEmpty := by
  cases openSteps with
  | nil => rfl
  | cons item items =>
    rw [collectAttempts, List.flatMap_cons]
    dsimp only
    split_ifs <;> rfl

theorem compareCheckpoint_isOk {cp : LoopCheckpoint} :
    (∃ finding, compareCheckpoint printable ticketId openSteps cp = .ok finding) ↔
      (cp.ticketId = .str ticketId → openSteps ≠ [] → cp.attempt.hashable = true) := by
  unfold compareCheckpoint
  dsimp only
  rw [collectAttempts_isEmpty]
  split_ifs with hticket hempty hhash hopen
  · simp only [Except.ok.injEq, exists_eq', true_iff]
    intro hsame
    rw [hsame] at hticket
    simp at hticket
  · simp only [Except.ok.injEq, exists_eq', true_iff]
    intro _ hne
    exact absurd (List.isEmpty_iff.mp hempty) hne
  · have hsame : cp.ticketId = .str ticketId := by simpa using hticket
    have hne : openSteps ≠ [] := by simpa using hempty
    simpa [hsame, hne] using hhash
  · simp only [Except.ok.injEq, exists_eq', true_iff]
    intro _ _
    simpa using hhash
  · simp only [Except.ok.injEq, exists_eq', true_iff]
    intro _ _
    simpa using hhash

/-- A checkpoint can be read when it is loaded and compared. -/
theorem checkpointReadable_some (printable : CodePoint → Bool) {content : Bytes} :
    CheckpointReadable limit ticketId openSteps (some content) ↔
      ∃ cp, loadCheckpoint limit content = .ok cp ∧
        ∃ finding, compareCheckpoint printable ticketId openSteps cp = .ok finding := by
  simp only [CheckpointReadable, Option.some.injEq, forall_eq', compareCheckpoint_isOk,
    loadCheckpoint_eq_ok]
  constructor
  · rintro ⟨text, data, hdecode, hload, hfields, hattempt⟩
    obtain ⟨cp, hcp⟩ := fromDict_isOk.mpr hfields
    obtain ⟨hticket, hsame⟩ := fromDict_eq_ok hcp
    exact ⟨cp, ⟨text, data, hdecode, hload, hcp⟩, by rwa [hticket, hsame]⟩
  · rintro ⟨cp, ⟨text, data, hdecode, hload, hcp⟩, hattempt⟩
    obtain ⟨hticket, hsame⟩ := fromDict_eq_ok hcp
    rw [hticket, hsame] at hattempt
    exact ⟨text, data, hdecode, hload, fromDict_isOk.mp ⟨cp, hcp⟩, hattempt⟩

end Checkpoint

/-! ## The action -/

section Action

variable {printable : CodePoint → Bool} {f : Flavour} {limit : ℕ} {ticketId step : PyStr}
  {p : Projections} {events checkpoint left : Option Bytes} {decision : RecoveryDecision}

/-- The action that a trace calls for. -/
def actionOf (printable : CodePoint → Bool) (p : Projections) : RecoveryAction :=
  if !(sideEffects printable p.openOperations).isEmpty then .verifySideEffect
  else if !p.openSteps.isEmpty || !(readOnly printable p.openOperations).isEmpty then .resume
  else .startFresh

/-- What the checkpoint leaves as the trace has it. -/
structure FromTrace (printable : CodePoint → Bool) (p : Projections) (decision : RecoveryDecision) :
    Prop where
  fresh : decision.action = .startFresh
  openSteps : decision.openSteps = p.openSteps
  openOperations : decision.openOperations = p.openOperations
  sideEffects : decision.sideEffectOperations = sideEffects printable p.openOperations

theorem beforeAction_fromTrace
    (h : beforeAction printable f limit ticketId step p events checkpoint = .ok (decision, left)) :
    FromTrace printable p decision := by
  simp only [beforeAction, bind_eq_ok] at h
  obtain ⟨outputs, -, h⟩ := h
  cases checkpoint with
  | none =>
    obtain ⟨rfl, -⟩ := Prod.mk.inj (Except.ok.inj h)
    exact ⟨rfl, rfl, rfl, rfl⟩
  | some content =>
    simp only [bind_eq_ok] at h
    obtain ⟨cp, -, finding, -, h⟩ := h
    cases finding with
    | valid =>
      obtain ⟨rfl, -⟩ := Prod.mk.inj (Except.ok.inj h)
      exact ⟨rfl, rfl, rfl, rfl⟩
    | ignored =>
      obtain ⟨rfl, -⟩ := Prod.mk.inj (Except.ok.inj h)
      exact ⟨rfl, rfl, rfl, rfl⟩
    | dropped warning =>
      obtain ⟨rfl, -⟩ := Prod.mk.inj (Except.ok.inj h)
      exact ⟨rfl, rfl, rfl, rfl⟩

theorem chooseAction_action (h : FromTrace printable p decision) :
    (chooseAction printable decision).action = actionOf printable p := by
  obtain ⟨hfresh, hsteps, hoperations, heffects⟩ := h
  unfold chooseAction actionOf
  dsimp only
  rw [heffects, hsteps, hoperations]
  by_cases h1 : (!(sideEffects printable p.openOperations).isEmpty) = true
  · rw [if_pos h1, if_pos h1]
  rw [if_neg h1, if_neg h1]
  by_cases h2 : (!p.openSteps.isEmpty) = true
  · rw [if_pos h2, h2, Bool.true_or, if_pos rfl]
  rw [if_neg h2, Bool.eq_false_iff.mpr h2, Bool.false_or]
  by_cases h3 : (!(readOnly printable p.openOperations).isEmpty) = true
  · rw [if_pos h3, if_pos h3]
  rw [if_neg h3, if_neg h3]
  split_ifs
  · exact hfresh
  · exact hfresh

/-- The action is that of the trace, whatever the files hold. -/
theorem analyze_action
    (h : analyze printable f limit ticketId step (.success p) events checkpoint =
      .ok (decision, left)) : decision.action = actionOf printable p := by
  simp only [analyze, bind_eq_ok] at h
  obtain ⟨⟨before, left'⟩, hbefore, h⟩ := h
  obtain ⟨rfl, -⟩ := Prod.mk.inj (Except.ok.inj h)
  exact chooseAction_action (beforeAction_fromTrace hbefore)

theorem beforeAction_isOk :
    (∃ result, beforeAction printable f limit ticketId step p events checkpoint = .ok result) ↔
      EventsReadable limit events ∧ CheckpointReadable limit ticketId p.openSteps checkpoint := by
  have hevents : (∃ out, registeredOutputs printable f limit events = .ok out) ↔
      EventsReadable limit events := registeredOutputs_isOk
  rw [← hevents]
  simp only [beforeAction, bind_eq_ok]
  cases checkpoint with
  | none =>
    have hnone : CheckpointReadable limit ticketId p.openSteps none := by
      intro content hcontent
      cases hcontent
    simp [hnone, pure, Except.pure]
  | some content =>
    rw [checkpointReadable_some printable]
    simp only [bind_eq_ok]
    constructor
    · rintro ⟨result, outputs, houtputs, cp, hcp, finding, hfinding, -⟩
      exact ⟨⟨outputs, houtputs⟩, cp, hcp, finding, hfinding⟩
    · rintro ⟨⟨outputs, houtputs⟩, cp, hcp, finding, hfinding⟩
      cases finding with
      | valid => exact ⟨_, outputs, houtputs, cp, hcp, .valid, hfinding, rfl⟩
      | ignored => exact ⟨_, outputs, houtputs, cp, hcp, .ignored, hfinding, rfl⟩
      | dropped warning => exact ⟨_, outputs, houtputs, cp, hcp, .dropped warning, hfinding, rfl⟩

/-- A decision is given exactly when both files can be read. -/
theorem analyze_isOk :
    (∃ decision left, analyze printable f limit ticketId step (.success p) events checkpoint =
      .ok (decision, left)) ↔
      EventsReadable limit events ∧ CheckpointReadable limit ticketId p.openSteps checkpoint := by
  have hbefore : (∃ result, beforeAction printable f limit ticketId step p events checkpoint =
      .ok result) ↔ _ := beforeAction_isOk
  rw [← hbefore]
  simp only [analyze, bind_eq_ok]
  constructor
  · rintro ⟨decision, left, result, hresult, -⟩
    exact ⟨result, hresult⟩
  · rintro ⟨⟨decision, left⟩, hresult⟩
    exact ⟨chooseAction printable decision, left, (decision, left), hresult, rfl⟩

/-- Every open operation is a side effect or read-only. -/
theorem operations_isEmpty {operations : Members}
    (heffects : (sideEffects printable operations).isEmpty = true)
    (hreadOnly : (readOnly printable operations).isEmpty = true) : operations = [] := by
  rw [List.isEmpty_iff, sideEffects, List.map_eq_nil_iff, List.filter_eq_nil_iff] at heffects
  rw [List.isEmpty_iff, readOnly, List.map_eq_nil_iff, List.filter_eq_nil_iff] at hreadOnly
  refine List.eq_nil_iff_forall_not_mem.mpr fun item hitem => ?_
  have hnot := heffects item hitem
  rw [Bool.not_eq_true, Bool.not_eq_false'] at hnot
  exact hreadOnly item hitem hnot

/-- A fresh start is the action of a trace without open steps and operations. -/
theorem actionOf_eq_startFresh :
    actionOf printable p = .startFresh ↔ p.openSteps = [] ∧ p.openOperations = [] := by
  constructor
  · intro h
    unfold actionOf at h
    split_ifs at h with heffects hresume
    simp only [Bool.or_eq_true, Bool.not_eq_true', not_or, Bool.not_eq_false] at heffects hresume
    exact ⟨List.isEmpty_iff.mp hresume.1, operations_isEmpty heffects hresume.2⟩
  · rintro ⟨hsteps, hoperations⟩
    rw [actionOf, hsteps, hoperations]
    rfl

end Action

/-! ## Recovery from the event chain alone -/

section Sound

variable (printable : CodePoint → Bool) (f : Flavour) (limit : ℕ) (ticketId step : PyStr)

/-- A decision is given, with the action that is given without a checkpoint, and a fresh start only
when nothing is open. -/
def Sound (p : Projections) (events checkpoint : Option Bytes) : Prop :=
  ∃ decision left,
    analyze printable f limit ticketId step (.success p) events checkpoint = .ok (decision, left) ∧
    (∃ plain left', analyze printable f limit ticketId step (.success p) events none =
      .ok (plain, left') ∧ decision.action = plain.action) ∧
    (decision.action = .startFresh →
      p.openSteps = [] ∧ p.openOperations = [] ∧ p.openAgents = [])

/-- Recovery is sound exactly when both files can be read and no agent alone is open. -/
theorem analyze_sound_iff (p : Projections) (events checkpoint : Option Bytes) :
    Sound printable f limit ticketId step p events checkpoint ↔
      EventsReadable limit events ∧
      CheckpointReadable limit ticketId p.openSteps checkpoint ∧
      (p.openAgents ≠ [] → p.openSteps ≠ [] ∨ p.openOperations ≠ []) := by
  constructor
  · rintro ⟨decision, left, hdecision, -, hfresh⟩
    obtain ⟨hevents, hcheckpoint⟩ := analyze_isOk.mp ⟨decision, left, hdecision⟩
    refine ⟨hevents, hcheckpoint, fun hagents => ?_⟩
    by_contra hopen
    rw [not_or, not_not, not_not] at hopen
    have haction := analyze_action hdecision
    rw [actionOf_eq_startFresh.mpr hopen] at haction
    exact hagents (hfresh haction).2.2
  · rintro ⟨hevents, hcheckpoint, hagents⟩
    obtain ⟨decision, left, hdecision⟩ := analyze_isOk.mpr ⟨hevents, hcheckpoint⟩
    have hnone : CheckpointReadable limit ticketId p.openSteps none := by
      intro content hcontent
      cases hcontent
    obtain ⟨plain, left', hplain⟩ := analyze_isOk.mpr ⟨hevents, hnone⟩
    have haction := analyze_action hdecision
    refine ⟨decision, left, hdecision,
      ⟨plain, left', hplain, haction.trans (analyze_action hplain).symm⟩, fun hfresh => ?_⟩
    rw [hfresh] at haction
    obtain ⟨hsteps, hoperations⟩ := actionOf_eq_startFresh.mp haction.symm
    refine ⟨hsteps, hoperations, ?_⟩
    by_contra hne
    exact (hagents hne).elim (· hsteps) (· hoperations)

end Sound

/-- A checkpoint that was cut off raises, and an agent that is open is overlooked. -/
theorem recovery_unsound :
    ¬Sound (fun _ => true) .posix 1000 (lit "T") (lit "plan") ⟨[], [], []⟩ none (some [0x7B]) ∧
    ¬Sound (fun _ => true) .posix 1000 (lit "T") (lit "plan")
      ⟨[], [], [(lit "worker", .obj [])]⟩ none none := by
  constructor
  · rintro ⟨decision, left, hdecision, -⟩
    have hraises : analyze (fun _ => true) .posix 1000 (lit "T") (lit "plan")
        (.success ⟨[], [], []⟩) none (some [0x7B]) = .error .checkpointUnreadable := rfl
    rw [hraises] at hdecision
    cases hdecision
  · rintro ⟨decision, left, hdecision, -, hfresh⟩
    have haction : decision.action = .startFresh := analyze_action hdecision
    obtain ⟨-, -, hagents⟩ := hfresh haction
    cases hagents

end Recovery

end Icode
