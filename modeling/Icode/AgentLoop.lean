import Icode.AgentTools
import Icode.JsonLoads

/-!
# The agent loop

`run` (`AgentLoop.run`) is the bounded loop from the model to the tools and back. A
`World` answers every call the loop makes (the model, the guard, the approver, the
control plane, the tools, the hooks and the files of the ticket) from everything that
happened before, and the `trace` of a `Loop` records the calls. A function of the loop
either returns or ends the run (`Ended`), with the result it returns or by an exception.

`invoke` (`_invoke`) takes up one call of a tool : the decision, the approval, the start
receipt, the tool, and the finish receipt. `handleCall` is the body of the loop over
the calls of one message, with the choice of the next tool.
-/

namespace Icode.Agent

open Compaction Py

/-! ## The world -/

inductive Decision where
  | allow
  | requireApproval
  | deny
  deriving DecidableEq, Repr

def Decision.value : Decision → PyStr
  | .allow => "allow"
  | .requireApproval => "require_approval"
  | .deny => "deny"

structure Verdict where
  decision : Decision
  reason : PyStr

/-- A check of the guard. -/
inductive GuardCheck where
  | read (path : PyStr)
  | write (path : PyStr)
  | command (argv : Json)

structure ApprovalRequest where
  tool : PyStr
  arguments : Members
  reason : PyStr
  opclass : PyStr
  workspace : PyStr

/-- The arguments of `operations.start`. -/
structure OperationStart where
  name : PyStr
  opclass : PyStr
  inputDesc : PyStr

/-- The arguments of `operations.finish`. -/
structure OperationFinish where
  attempt : PyStr
  outcome : PyStr
  evidence : PyStr
  checkRef : PyStr
  failure : Option PyStr

/-- What the model gives: a message, with the tokens it used when they are known. -/
inductive Reply where
  | assistant (msg : AssistantMessage) (lastUsage : Option ℤ)
  | error (text : PyStr)
  | interrupted

/-- What happened. An answer that is missing is an exception. -/
inductive Event where
  | hook (kind : PyStr) (raised : Bool)
  | model (history : List Members) (toolChoice : PyStr) (reply : Reply)
  | compacted (operations : List PyStr) (history : List Members)
  /-- The loop takes up a call, while `forced` is the only tool allowed. -/
  | called (name : PyStr) (arguments : Members) (forced : Option PyStr)
  | guarded (check : GuardCheck) (verdict : Option Verdict)
  | decided (verdict : Verdict)
  | asked (request : ApprovalRequest) (approved : Option Bool)
  | started (tool : PyStr) (request : OperationStart) (op : Option StartedOperation)
  | invoked (name : PyStr) (arguments : Members) (opclass : PyStr) (attempt : Option PyStr)
      (outcome : ToolOutcome)
  | finished (tool : PyStr) (request : OperationFinish) (answer : Option Bool)
  /-- The files of the ticket were looked at. -/
  | probed

/-- What `json.loads` gives; `RecursionError` is no `ValueError`. -/
inductive Loaded where
  | value (v : Json)
  | error
  | recursion

/-- The answers to the calls, after what happened before. -/
structure World where
  complete : List Event → List Members → PyStr → Reply
  guard : List Event → GuardCheck → Option Verdict
  ask : List Event → ApprovalRequest → Option Bool
  operationStart : List Event → OperationStart → Option ControlResult
  operationFinish : List Event → OperationFinish → Option ControlResult
  tool : List Event → PyStr → Members → ToolOutcome
  /-- `on_event` raises. -/
  hookRaises : List Event → PyStr → Bool
  /-- `(root / name).is_file()` in the directory of the ticket. -/
  isTicketFile : List Event → PyStr → Bool
  /-- A regular file of the directory matches; listing it may raise. -/
  hasTicketMatch : List Event → PyStr → Option Bool
  /-- `code_worklist.json`, unless it cannot be read. -/
  worklist : List Event → Option Json
  /-- `Path(value).resolve(strict=True)`, unless it raises. -/
  resolve : List Event → MetaValue → Option PyStr

/-! ## The configuration -/

structure LoopConfig where
  maxTurns : ℤ
  maxToolCallsPerTurn : ℤ
  toolChoice : PyStr
  toolChoiceAfterRead : Option PyStr
  toolChoiceOnNoTool : Option PyStr
  forceToolAfterTurns : Option ℤ
  forceToolAfterTurnsTool : Option PyStr
  forceToolPrompt : Option PyStr
  requiredToolRetryCount : ℤ
  requiredToolTurnReserve : ℤ
  compactBudgetChars : ℤ

/-- An output the contract of a step declares. -/
structure Port where
  kind : PyStr
  value : PyStr
  deriving DecidableEq

/-- What an agent loop is built with. -/
structure Env where
  config : LoopConfig
  registry : ToolRegistry
  /-- `operations is not None`. -/
  operations : Bool
  budget : Budget
  /-- `guard.scope.allowed_read_files`. -/
  allowedReadFiles : List PyStr
  root : PyStr
  outputLimit : ℤ
  reviewSubmissionEnabled : Bool
  readOnlyWorkspace : Bool
  hasChangeBaseline : Bool
  /-- The outputs of the contract of the artifact broker, when there is one. -/
  artifactBroker : Option (List Port)
  flavour : Flavour
  /-- `str.isprintable` of a character. -/
  printable : CodePoint → Bool
  /-- The value of a decimal digit of any script. -/
  decimal : CodePoint → Option ℕ
  /-- `json.loads`. -/
  loads : PyStr → Loaded

/-! ## The state of a run -/

structure Turn where
  index : ℤ
  assistant : AssistantMessage
  invocations : List ToolInvocation

/-- The files that were read: their spans, their lengths, and those read to the end. -/
structure Reads where
  spans : Dict PyStr (List (ℤ × ℤ))
  totals : Dict PyStr ℤ
  completed : List PyStr

/-- The local variables of `run`, the open operations and the tokens used, and what happened. -/
structure Loop where
  history : List Members
  turns : List Turn
  totalToolCalls : ℕ
  toolChoice : PyStr
  toolChoiceOnNoTool : Option PyStr
  retryRemaining : ℤ
  reads : Reads
  forcedOutputTool : Option PyStr
  forcedEditPaths : List PyStr
  deliveryEditRequired : Bool
  forcedDeliveryComplete : Bool
  inspectionPhaseRequired : Option PyStr
  inspectionExpectedPaths : List PyStr
  inspectionReadPaths : List PyStr
  unclosed : List PyStr
  totalTokens : ℤ
  trace : List Event

structure LoopResult where
  ok : Bool
  stopReason : PyStr
  error : PyStr

/-- How a run ends: with a result, or by an exception. -/
structure Ended where
  result : Option LoopResult
  loop : Loop

namespace Loop

def log (l : Loop) (e : Event) : Loop :=
  { l with trace := l.trace ++ [e] }

/-- An exception leaves the run. -/
def raise {α : Type} (l : Loop) : Except Ended α :=
  .error ⟨none, l⟩

/-- The run returns. -/
def finish {α : Type} (l : Loop) (ok : Bool) (stopReason error : PyStr) : Except Ended α :=
  .error ⟨some ⟨ok, stopReason, error⟩, l⟩

/-- `self.on_event`. -/
def emit (w : World) (l : Loop) (kind : PyStr) : Except Ended Loop :=
  let raised := w.hookRaises l.trace kind
  let l := l.log (.hook kind raised)
  if raised then l.raise else .ok l

/-- `history.append`. -/
def append (l : Loop) (message : Members) : Loop :=
  { l with history := l.history ++ [message] }

/-- A message of the host. -/
def prompt (l : Loop) (text : PyStr) : Loop :=
  l.append (userMessage text)

/-- The open operations keep the last eight labels. -/
def pushUnclosed (l : Loop) (label : PyStr) : Loop :=
  let labels := l.unclosed ++ [label]
  { l with unclosed := labels.drop (labels.length - 8) }

end Loop

/-! ## One call of a tool -/

section Invoke

variable (env : Env) (w : World)

/-- A check of the guard. -/
def guardCheck (l : Loop) (check : GuardCheck) : Except Ended (Verdict × Loop) :=
  let verdict := w.guard l.trace check
  let l := l.log (.guarded check verdict)
  match verdict with
  | some verdict => .ok (verdict, l)
  | none => l.raise

/-- `_decide`. -/
def decideCall (l : Loop) (name : PyStr) (args : Members) : Except Ended (Verdict × Loop) :=
  if name = lit "submit_review" then
    if env.reviewSubmissionEnabled && env.readOnlyWorkspace && env.hasChangeBaseline then
      .ok (⟨.allow, "只读 Reviewer 的结构化输出端口"⟩, l)
    else .ok (⟨.deny, "结构化审查提交仅在独立只读 Reviewer 中开放"⟩, l)
  else if name = lit "submit_artifact" ∨ name = lit "read_artifact" then
    if env.artifactBroker.isNone then .ok (⟨.deny, "当前步骤未开放受控产物端口"⟩, l)
    else .ok (⟨.allow, "受控产物端口按步骤合同校验"⟩, l)
  else if name = lit "read_file" ∨ name = lit "grep" then
    guardCheck w l (.read ((pyOr (args.get "path") (.str ".")).pyStr env.printable))
  else if name = lit "glob" then guardCheck w l (.read env.root)
  else if name = lit "write_file" ∨ name = lit "edit_file" then
    guardCheck w l (.write ((pyOr (args.get "path") (.str [])).pyStr env.printable))
  else if name = lit "run_command" then
    guardCheck w l (.command (pyOr (args.get "argv") (.arr [])))
  else guardCheck w l (.read env.root)

/-- `safe_args`: the names of the arguments and their digest; `None` when a text of the
arguments cannot be encoded. -/
def safeArgs (args : Members) : Option PyStr := do
  let bytes ← encode (Json.obj args).canonical.dumpsSpaced
  let keys := (Members.sort args).keys.map Json.str
  pure (Json.obj [("arg_keys", .arr keys), ("args_sha256", .str (sha256 bytes))]).dumpsSpaced

/-- An operation could not be started: the call is refused. -/
def ambiguousOperation (l : Loop) (inv : ToolInvocation) (opclass : PyStr)
    (op : StartedOperation) : Except Ended (ToolInvocation × Loop) := do
  let content :=
    (if op.alreadyApplied then lit "此前动作的回执不能用于再次执行："
      else lit "副作用回执不明确，已停止执行并等待人工核对（禁止盲目重放）：") ++
    (if op.detail.isEmpty then lit "ambiguous_side_effect" else op.detail)
  let l ← l.emit w "operation_ambiguous"
  let inv := { inv with
    result := some (failure content "ambiguous_side_effect" opclass)
    note := if op.alreadyApplied then "此前动作的回执不能用于再次执行" else "副作用歧义，拒绝重放" }
  pure (inv, l.pushUnclosed (inv.name ++ lit ":" ++ op.detail.take 80))

/-- The finish receipt of an attempt. -/
def finishOperation (l : Loop) (inv : ToolInvocation) (attempt : PyStr) (result : ToolResult) :
    Except Ended (ToolInvocation × Loop) :=
  match result.metadata.dumps with
  | none => l.raise
  | some checkRef =>
    let request : OperationFinish :=
      { attempt := attempt
        outcome := if result.ok then "success" else "failure"
        evidence := (lit "tool=" ++ inv.name).take 120
        checkRef := checkRef.take 200
        failure := if result.ok then none else some "deterministic_failure" }
    let answer := (w.operationFinish l.trace request).map finishedOperation
    let l := l.log (.finished inv.name request answer)
    match answer with
    | none => l.raise
    | some true => .ok (inv, l)
    | some false => do
      let inv := { inv with
        note := (if inv.note.isEmpty then [] else inv.note ++ lit "｜") ++ lit "副作用回执终结失败"
        result := some { result with
          metadata := Dict.set result.metadata "operation_finish_failed" (.json (.bool true)) } }
      let l ← l.emit w "operation_finish_failed"
      pure (inv, l.pushUnclosed (inv.name ++ lit ":" ++ attempt.take 80))

/-- The tool is called, and the attempt of its receipt finished. -/
def execute (l : Loop) (inv : ToolInvocation) (opclass : PyStr) (attempt : Option PyStr) :
    Except Ended (ToolInvocation × Loop) := do
  let l ← l.emit w "tool_start"
  let outcome := w.tool l.trace inv.name inv.arguments
  let l := l.log (.invoked inv.name inv.arguments opclass attempt outcome)
  match invokeTool env.registry inv.name outcome with
  | none => l.raise
  | some result => do
    let inv := { inv with approved := true, result := some result }
    let l ← l.emit w "tool_result"
    match attempt.filter (fun a => !a.isEmpty) with
    | none => pure (inv, l)
    | some attempt => finishOperation w l inv attempt result

/-- The receipt of the start, where the action has a side effect, and the tool. -/
def perform (l : Loop) (inv : ToolInvocation) (opclass : PyStr) :
    Except Ended (ToolInvocation × Loop) :=
  match safeArgs inv.arguments with
  | none => l.raise
  | some inputDesc =>
    if env.operations && opclass != opclassReadOnly then
      let request : OperationStart := ⟨lit "tool:" ++ inv.name, opclass, inputDesc⟩
      let op := (w.operationStart l.trace request).map (startedOperation env.printable)
      let l := l.log (.started inv.name request op)
      match op with
      | none => l.raise
      | some op =>
        if op.canExecute then execute env w l inv opclass op.attempt
        else ambiguousOperation w l inv opclass op
    else execute env w l inv opclass none

/-- The approver is asked. -/
def askApprover (l : Loop) (request : ApprovalRequest) : Except Ended (Bool × Loop) :=
  let approved := w.ask l.trace request
  let l := l.log (.asked request approved)
  match approved with
  | some approved => .ok (approved, l)
  | none => l.raise

/-- `_invoke`. -/
def invoke (l : Loop) (name : PyStr) (args : Members) : Except Ended (ToolInvocation × Loop) :=
  let l := l.log (.called name args l.forcedOutputTool)
  match Dict.get? env.registry name with
  | none =>
    .ok (⟨name, args, "deny", false,
      some (failure (lit "未知工具：" ++ name) "unknown_tool" opclassReadOnly), "工具不存在"⟩, l)
  | some opclass => do
    let (verdict, l) ← decideCall env w l name args
    let l := l.log (.decided verdict)
    let inv : ToolInvocation := ⟨name, args, verdict.decision.value, false, none, verdict.reason⟩
    match verdict.decision with
    | .deny => do
      let l ← l.emit w "tool_denied"
      let metadata : Metadata := [("error", .json (.str "denied")),
        ("error_code", .json (.str "policy_denied")),
        ("violation_receipt", .json (policyViolationReceipt name "guard_denied"))]
      pure ({ inv with
        note := policyDeniedUserMessage
        result := some ⟨false, policyDeniedUserMessage, metadata, opclass⟩ }, l)
    | .allow => perform env w l inv opclass
    | .requireApproval => do
      let l ← l.emit w "approval_requested"
      let (approved, l) ← askApprover w l ⟨name, args, verdict.reason, opclass, env.root⟩
      if approved then
        perform env w l { inv with note := verdict.reason ++ lit "｜已人工放行" } opclass
      else do
        let l ← l.emit w "approval_denied"
        pure ({ inv with
          result := some (failure "人工未放行，已跳过该动作" "not_approved" opclass) }, l)

end Invoke

/-! ## Files read to the end -/

/-- `a <= b` of two spans. -/
def spanLe (a b : ℤ × ℤ) : Prop :=
  a.1 < b.1 ∨ (a.1 = b.1 ∧ a.2 ≤ b.2)

instance : DecidableRel spanLe := fun a b =>
  inferInstanceAs (Decidable (a.1 < b.1 ∨ (a.1 = b.1 ∧ a.2 ≤ b.2)))

/-- The first line the sorted spans leave out, from a line on. -/
def nextLine : ℤ → List (ℤ × ℤ) → Option ℤ
  | next, [] => some next
  | next, (first, last) :: spans =>
    if last < next then nextLine next spans
    else if next < first then none
    else nextLine (max next (last + 1)) spans

/-- An `int` in the metadata of a result. -/
def metadataInt (metadata : Metadata) (key : PyStr) : Option ℤ :=
  match metadata.get key with
  | .int n => some n
  | _ => none

/-- The span of lines a result says it shows, and the length of the file. -/
def readSpan (metadata : Metadata) : Option (ℤ × ℤ × ℤ) := do
  let first ← metadataInt metadata "start"
  let last ← metadataInt metadata "end"
  let total ← metadataInt metadata "total_lines"
  if total < 0 then none else some (first, last, total)

/-- A successful read that shows all of its span: the file that was read, and the span. -/
def shownSpan (env : Env) (w : World) (l : Loop) (inv : ToolInvocation) :
    Option (PyStr × ℤ × ℤ × ℤ) := do
  let result ← inv.result
  if inv.name ≠ lit "read_file" ∨ !result.ok ∨
      result.clipped env.outputLimit ≠ result.content then none
  else
    let value ← Dict.get? result.metadata "path"
    let path ← w.resolve l.trace value
    let span ← readSpan result.metadata
    if env.allowedReadFiles.contains path then some (path, span) else none

/-- `_record_complete_read_file`, once the span is known: the file, if it is complete now. -/
def Reads.record (r : Reads) (path : PyStr) (first last total : ℤ) : Option PyStr × Reads :=
  let known := (Dict.get? r.totals path).getD total
  if known ≠ total then
    (none, { r with totals := r.totals.erase path, spans := r.spans.erase path })
  else
    let spans := (Dict.get? r.spans path).getD [] ++ [(first, last)]
    let r := { r with totals := r.totals.set path total, spans := r.spans.set path spans }
    if total = 0 then (if first = 1 ∧ last = 0 then some path else none, r)
    else
      match nextLine 1 (spans.insertionSort spanLe) with
      | some next => (if total < next then some path else none, r)
      | none => (none, r)

/-- `_record_complete_read_file`, and the files complete so far. -/
def recordRead (env : Env) (w : World) (l : Loop) (inv : ToolInvocation) : Loop :=
  match shownSpan env w l inv with
  | none => l.log .probed
  | some (path, first, last, total) =>
    let (completed, reads) := l.reads.record path first last total
    let reads :=
      match completed with
      | none => reads
      | some path => { reads with completed := path :: reads.completed }
    { l.log .probed with reads := reads }

/-! ## The files of the ticket -/

/-- `artifact_outputs`. -/
def artifactOutputs (env : Env) : List Port :=
  (env.artifactBroker.getD []).filter fun port => port.value != lit "review_manifest.json"

/-- The outputs that are not there; `None` when the directory cannot be listed. -/
def missingPorts (w : World) (trace : List Event) : List Port → Option (List PyStr)
  | [] => some []
  | port :: ports => do
    let present ←
      if port.kind = lit "ticket_file" then some (w.isTicketFile trace port.value)
      else if port.kind = lit "ticket_glob" then w.hasTicketMatch trace port.value
      else some true
    let missing ← missingPorts w trace ports
    pure (if present then missing else port.value :: missing)

/-- `missing_artifacts`. -/
def missingArtifacts (env : Env) (w : World) (l : Loop) : Except Ended (List PyStr × Loop) :=
  match missingPorts w l.trace (artifactOutputs env) with
  | none => (l.log .probed).raise
  | some missing => .ok (missing, l.log .probed)

/-- The exceptions of the reader of a worklist. -/
inductive WorklistError where
  | attribute
  | type

/-- `value.get(key, default)`; only a dict has it. -/
def getAttr (value : Json) (key : PyStr) (default : Json) : Except WorklistError Json :=
  match value with
  | .obj ms => .ok ((Dict.get? ms key).getD default)
  | _ => .error .attribute

/-- `for x in value`. -/
def iterateWorklist (value : Json) : Except WorklistError (List Json) :=
  orRaise (iterate value) .type

/-- The paths of a worklist, each once. -/
def worklistPaths (payload : Json) : Except WorklistError (List PyStr) := do
  let units ← getAttr payload "units" (.arr []) >>= iterateWorklist
  units.foldlM (fun expected unit => do
    let files ← getAttr unit "files" (.arr []) >>= iterateWorklist
    files.foldlM (fun expected item => do
      match ← getAttr item "path" .null with
      | .str path =>
        pure (if path.isEmpty || expected.contains path then expected else expected ++ [path])
      | _ => pure expected) expected) []

/-- The paths `inspection` has to read next; an unreadable worklist has none. -/
def expectedPaths (env : Env) (w : World) (l : Loop) : Except Ended (List PyStr × Loop) :=
  if env.artifactBroker.isNone then .ok ([], l)
  else
    match w.worklist l.trace with
    | none => .ok ([], l.log .probed)
    | some payload =>
      match worklistPaths payload with
      | .ok paths => .ok (paths, l.log .probed)
      | .error .attribute => .ok ([], l.log .probed)
      | .error .type => (l.log .probed).raise

/-! ## The call a provider meant -/

/-- The digits of `review_round_(\d+)\.json`. -/
def reviewRoundDigits (env : Env) (name : PyStr) : Option (List ℕ) := do
  let digits ← ((name.drop 13).take (name.length - 18)).mapM env.decimal
  if (lit "review_round_").isPrefixOf name ∧ (lit ".json").isSuffixOf name ∧ 18 < name.length then
    some digits
  else none

/-- The payload of a generic artifact call; `json.loads` may leave it by a `RecursionError`. -/
def reviewPayload (env : Env) : Json → Loaded
  | .obj ms => .value (.obj ms)
  | .str text => env.loads text
  | _ => .error

/-- A list of texts. -/
def isTextList : Json → Bool
  | .arr xs => xs.all Json.isStr
  | _ => false

/-- `_review_round_alias_arguments`; `none` for an exception. -/
def reviewRoundAliasArguments (env : Env) (arguments : Members) : Option (Option Members) :=
  match arguments.get "name" with
  | .str name =>
    if !((lit "review_round_").isPrefixOf name && (lit ".json").isSuffixOf name) then some none
    else
      match reviewPayload env (arguments.get "content") with
      | .recursion => none
      | .error => some none
      | .value (.obj payload) =>
        match reviewRoundDigits env name, Members.get payload "round" with
        | none, _ => some none
        | some digits, .int round =>
          -- `int(text)` refuses more than 4300 digits
          if intMaxStrDigits < digits.length then none
          else if round ≠ ((digits.foldl (fun n d => n * 10 + d) 0 : ℕ) : ℤ) then some none
          else
            let keys : List PyStr := ["new_issues", "refuted_issues", "pending_verification"]
            if keys.all fun key => isTextList (Members.get payload key) then
              some (some (("round", .int round) :: keys.map fun key =>
                (key, Members.get payload key)))
            else some none
        | some _, _ => some none
      | .value _ => some none
  | _ => some none

/-! ## The calls of one message -/

/-- The local variables of one turn. -/
structure Round where
  loop : Loop
  invocations : List ToolInvocation
  /-- `post_tool_prompts`. -/
  prompts : List PyStr
  /-- The tool of `deferred_tool_transition`. -/
  transition : Option PyStr

namespace Round

/-- The reply to a call. -/
def reply (r : Round) (callId : PyStr) (inv : ToolInvocation) : Round :=
  { r with
    loop := r.loop.append (toolMessage callId inv)
    invocations := r.invocations ++ [inv] }

def prompt (r : Round) (text : PyStr) : Round :=
  { r with prompts := r.prompts ++ [text] }

end Round

section Calls

variable (env : Env) (w : World)

/-- A result that is there and `ok`. -/
def isOk (inv : ToolInvocation) : Bool :=
  inv.result.any (·.ok)

/-- `"、".join(names)`. -/
def joinNames (names : List PyStr) : PyStr :=
  joinWith '、' names

/-- A valid `review_round` payload in the generic artifact call. -/
def aliasCall (l : Loop) (call : ToolCall) : Option ToolCall :=
  if l.forcedOutputTool = some (lit "submit_review_round") ∧ call.name = lit "submit_artifact" then
    (reviewRoundAliasArguments env (callArguments call)).map fun
      | some args => ⟨call.id, "submit_review_round", .obj args⟩
      | none => call
  else some call

/-- A call of another tool than the forced one. -/
def forcedToolOnly (forced : PyStr) (call : ToolCall) : ToolInvocation :=
  refusedInvocation call
    (lit "本回合只能调用 " ++ forced ++ lit "，未执行 " ++ call.name ++ lit "。")
    [("error", .json (.str "forced_tool_only")), ("required_tool", .json (.str forced))]
    "强制交付回合拒绝非目标工具"

/-- A call of `inspection` in another phase than the required one. -/
def inspectionPhaseOrder (phase : PyStr) (call : ToolCall) : ToolInvocation :=
  refusedInvocation call (lit "当前 inspection 阶段只能调用 phase=" ++ phase ++ lit "。")
    [("error", .json (.str "inspection_phase_order")), ("required_phase", .json (.str phase))]
    "inspection 阶段顺序未满足，未执行"

/-- All files of the list were read: the final tool is required. -/
def chooseAfterRead (l : Loop) : Loop :=
  match env.config.toolChoiceAfterRead with
  | none => l
  | some tool =>
    if l.toolChoice = env.config.toolChoice ∧
        env.allowedReadFiles.all (fun path => l.reads.completed.contains path) then
      { l with toolChoice := tool }
    else l

/-- The tools that submit what a step has to deliver. -/
def submitTools : List PyStr :=
  ["submit_review", "submit_artifact", "submit_review_round"]

def artifactTools : List PyStr :=
  ["submit_artifact", "submit_review_round"]

/-- Nothing that has to be delivered is missing, or the review was accepted. -/
def isDelivered (l : Loop) (name : PyStr) (inv : ToolInvocation) : Except Ended (Bool × Loop) := do
  let accepted := inv.result.any fun r => (r.metadata.get "review_output").isText "schema_valid"
  if artifactTools.contains name then
    let (missing, l) ← missingArtifacts env w l
    pure (missing.isEmpty || accepted, l)
  else pure (accepted, l)

/-- A valid submission frees the choice of the tool. -/
def freeAfterSubmission (l : Loop) (name : PyStr) (inv : ToolInvocation) : Except Ended Loop :=
  if l.toolChoice ≠ lit "auto" ∧ submitTools.contains name ∧ isOk inv then do
    let (delivered, l) ← isDelivered env w l name inv
    if delivered then
      let forced := if l.forcedOutputTool = some name then none else l.forcedOutputTool
      pure { l with
        toolChoice := "auto", forcedDeliveryComplete := true, forcedOutputTool := forced }
    else pure l
  else pure l

/-- After an edit: two edited files and missing outputs ask for the next tool. -/
def afterEdit (r : Round) (inv : ToolInvocation) : Except Ended Round := do
  let path := (pyOr (inv.arguments.get "path") (.str [])).pyStr env.printable
  let name := (PurePath.parse env.flavour path).tail.getLastD []
  let edited :=
    if path.isEmpty || r.loop.forcedEditPaths.contains name then r.loop.forcedEditPaths
    else r.loop.forcedEditPaths ++ [name]
  let (missing, l) ← missingArtifacts env w { r.loop with forcedEditPaths := edited }
  let r := { r with loop := l }
  if 2 ≤ edited.length ∧ missing ≠ [] then
    let r := { r with loop := { l with
      inspectionPhaseRequired := some "prepare"
      inspectionExpectedPaths := []
      inspectionReadPaths := [] } }
    if Dict.has env.registry "inspection" then
      pure (Round.prompt { r with transition := some "inspection" }
        (lit "代码文件已实际修改，旧 worklist 可能已过期；现在必须重新调用 " ++
          lit "inspection，第一步只能用 phase=prepare 重建当前 code 工作清单。" ++
          lit "prepare 成功后按宿主提示逐个用 phase=read、read_phase=code_review " ++
          lit "登记，最后用 phase=check 完成机器审查。不要提交 code_worklist.json，" ++
          lit "也不要再执行 run_command。"))
    else
      pure (Round.prompt { r with transition := some "submit_artifact" }
        (lit "代码文件已实际修改；现在必须调用 submit_artifact，" ++
          lit "逐项提交以下全部 code 产物：" ++ joinNames missing ++
          lit "。每次只提交一个文件，name/content 都必须是字符串，" ++ lit "不要再读取或执行命令。"))
  else pure r

/-- After `inspection phase=prepare`: the paths to read. -/
def afterPrepare (r : Round) : Except Ended Round := do
  let (expected, l) ← expectedPaths env w r.loop
  let expected :=
    if expected.isEmpty then l.forcedEditPaths.insertionSort (fun a b => strLe a b = true)
    else expected
  let l := { l with
    inspectionExpectedPaths := expected
    inspectionReadPaths := []
    inspectionPhaseRequired := some "read" }
  pure (Round.prompt { r with loop := l }
    (lit "inspection prepare 已成功。现在只能调用 inspection 的 " ++
      lit "phase=read，read_phase=code_review；请按顺序逐个读取这些路径：" ++
      joinNames expected ++ lit "。全部 read 成功后再调用 phase=check。"))

/-- After `inspection phase=read`: the paths that remain. -/
def afterRead (r : Round) (inv : ToolInvocation) : Round :=
  let read :=
    match inv.arguments.get "path" with
    | .str path => path :: r.loop.inspectionReadPaths
    | _ => r.loop.inspectionReadPaths
  let remaining := r.loop.inspectionExpectedPaths.filter fun item => !read.contains item
  let l := { r.loop with inspectionReadPaths := read }
  if remaining.isEmpty then
    Round.prompt { r with loop := { l with inspectionPhaseRequired := some "check" } }
      (lit "所有 inspection read 已登记；现在只能调用 phase=check，" ++ lit "不要调用其它工具。")
  else
    Round.prompt { r with loop := { l with inspectionPhaseRequired := some "read" } }
      (lit "inspection read 已登记；继续只能调用 phase=read、" ++
        lit "read_phase=code_review，剩余路径：" ++ joinNames remaining)

/-- After `inspection phase=check`: the outputs still missing. -/
def afterCheck (r : Round) : Except Ended Round := do
  let (missing, l) ← missingArtifacts env w { r.loop with inspectionPhaseRequired := none }
  if missing.isEmpty then pure { r with loop := l, transition := some "auto" }
  else
    pure (Round.prompt { r with loop := l, transition := some "submit_artifact" }
      (lit "inspection check 已成功；现在只能调用 submit_artifact，" ++
        lit "提交缺失的模型产物：" ++ joinNames missing ++
        lit "。name/content 必须是字符串，不要提交机器生成的 worklist。"))

/-- After a successful `inspection`. -/
def afterInspection (r : Round) (inv : ToolInvocation) : Except Ended Round :=
  let phase := inv.arguments.get "phase"
  if phase.isText "prepare" then afterPrepare env w r
  else if phase.isText "read" then pure (afterRead r inv)
  else if phase.isText "check" then afterCheck env w r
  else
    let required :=
      match r.loop.inspectionPhaseRequired with
      | some phase => if phase.isEmpty then lit "prepare" else phase
      | none => "prepare"
    pure (Round.prompt { r with loop := { r.loop with inspectionPhaseRequired := some required } }
      (lit "inspection 调用未完成；请按当前要求重试 phase=" ++ required ++
        lit "，不要调用其它工具或用普通文本结束。"))

/-- After a successful call of the forced tool, or of a required edit. -/
def afterForced (r : Round) (name : PyStr) (inv : ToolInvocation) : Except Ended Round :=
  let required := r.loop.forcedOutputTool = some name ∨
    (r.loop.deliveryEditRequired ∧ name = lit "edit_file")
  if required ∧ ¬artifactTools.contains name ∧ isOk inv then
    if name = lit "edit_file" ∧ env.artifactBroker.isSome then afterEdit env w r inv
    else if name = lit "inspection" then afterInspection env w r inv
    else pure { r with loop := { r.loop with toolChoice := "auto", forcedOutputTool := none } }
  else pure r

/-- After a successful `submit_artifact`: what is still missing. -/
def afterArtifact (r : Round) (name : PyStr) (inv : ToolInvocation) : Except Ended Round :=
  if r.loop.toolChoice ≠ lit "auto" ∧ name = lit "submit_artifact" ∧ isOk inv then do
    let (missing, l) ← missingArtifacts env w r.loop
    let r := { r with loop := l }
    if missing.isEmpty then pure r
    else
      let text := lit "仍缺少以下步骤产物：" ++ joinNames missing ++ lit "。"
      if Dict.has env.registry "submit_review_round" ∧
          missing.any (fun file => (lit "review_round_").isPrefixOf file) then
        pure (Round.prompt { r with transition := some "submit_review_round" }
          (text ++ lit "仍缺少 review round；现在必须调用 submit_review_round，" ++
            lit "参数使用 round=1、new_issues/refuted_issues/pending_verification" ++
            lit " 三个字符串数组。不要再次调用 submit_artifact，也不要用普通文本结束。"))
      else
        pure (r.prompt (text ++ lit "请继续调用 submit_artifact，逐项提交缺失产物；" ++
          lit "不要以普通文本结束，也不要提交 review_manifest.json。"))
  else pure r

/-- What follows a call that was invoked. -/
def afterInvoke (r : Round) (name : PyStr) (inv : ToolInvocation) : Except Ended Round := do
  let l := chooseAfterRead env (recordRead env w r.loop inv)
  let l ← freeAfterSubmission env w l name inv
  let r ← afterForced env w { r with loop := l } name inv
  afterArtifact env w r name inv

/-- The phase a call of `inspection` has to be in, when it is in another one. -/
def wrongPhase (l : Loop) (call : ToolCall) : Option PyStr :=
  match l.inspectionPhaseRequired with
  | some phase =>
    if call.name = lit "inspection" ∧ !((callArguments call).get "phase").isText phase then
      some phase
    else none
  | none => none

/-- The body of `for call in allowed`. -/
def handleCall (r : Round) (call : ToolCall) : Except Ended Round :=
  match aliasCall env r.loop call with
  | none => r.loop.raise
  | some call =>
    match r.loop.forcedOutputTool.filter (call.name ≠ ·) with
    | some forced =>
      .ok ((r.reply call.id (forcedToolOnly forced call)).prompt
        (lit "请立即改用唯一允许的 " ++ forced ++ lit " 工具；" ++
          lit "不要再调用其它工具，也不要用普通文本结束。"))
    | none =>
      match wrongPhase r.loop call with
      | some phase =>
        .ok ((r.reply call.id (inspectionPhaseOrder phase call)).prompt
          (lit "inspection 阶段顺序必须严格执行：" ++ lit "现在只能调用 phase=" ++ phase ++
            lit "，不要调用其它工具。"))
      | none => do
        let (inv, l) ← invoke env w r.loop call.name (callArguments call)
        afterInvoke env w (Round.reply { r with loop := l } call.id inv) call.name inv

/-- The body of `for call in skipped`. -/
def skipCall (r : Round) (call : ToolCall) : Except Ended Round := do
  let inv := refusedInvocation call
    (lit "未执行：本回合工具调用数超过上限（" ++
      ofChars (intText env.config.maxToolCallsPerTurn) ++ lit "）。" ++
      lit "请缩小批次，在下一回合重发这条调用。")
    [("error", .json (.str "turn_tool_budget"))] "超出单回合工具调用上限，未执行"
  let r := r.reply call.id inv
  let l ← r.loop.emit w "tool_skipped_budget"
  pure { r with loop := l }

/-- The body of the loop over the calls of a message that comes over the budget. -/
def refuseCall (r : Round) (call : ToolCall) : Except Ended Round := do
  let inv := refusedInvocation call "未执行：运行预算超限，已停止本次调用。"
    [("error", .json (.str "budget_exceeded"))] "运行预算超限，未执行"
  let r := r.reply call.id inv
  let l ← r.loop.emit w "tool_skipped_budget"
  pure { r with loop := l }

end Calls

/-! ## The run -/

section Run

variable (env : Env) (w : World)

/-- `self.budget.verdict`; the ratio may overflow. -/
def budgetVerdict (l : Loop) : Except Ended BudgetVerdict :=
  match env.budget.verdict l.totalTokens with
  | some verdict => .ok verdict
  | none => l.raise

/-- The locals at the start of `run`. -/
def Loop.init (messages : List Members) (unclosed : List PyStr) (totalTokens : ℤ) : Loop where
  history := messages
  turns := []
  totalToolCalls := 0
  toolChoice := env.config.toolChoice
  toolChoiceOnNoTool := env.config.toolChoiceOnNoTool
  retryRemaining :=
    if env.config.toolChoice = lit "auto" then 0 else env.config.requiredToolRetryCount
  reads := ⟨[], [], []⟩
  forcedOutputTool := none
  forcedEditPaths := []
  deliveryEditRequired := false
  forcedDeliveryComplete := false
  inspectionPhaseRequired := none
  inspectionExpectedPaths := []
  inspectionReadPaths := []
  unclosed := unclosed
  totalTokens := totalTokens
  trace := []

/-- A worklist that is already there has to be bound to the tree again. -/
def resumeWorklist (l : Loop) : Loop :=
  let existing := (artifactOutputs env).filter fun port =>
    (lit "_worklist.json").isSuffixOf port.value && w.isTicketFile l.trace port.value
  let l := l.log .probed
  if !existing.isEmpty ∧ l.toolChoice = lit "auto" then
    { l.prompt (lit "检测到已有 inspection worklist；它可能对应旧源码状态。" ++
        lit "恢复本步骤时必须先调用 inspection phase=prepare 重新绑定，" ++
        lit "然后按宿主提示完成 read(code_review) 与 check。") with
      inspectionPhaseRequired := some "prepare"
      toolChoice := "inspection"
      forcedOutputTool := some "inspection" }
  else l

/-- The turns kept for the required tool are reached before everything was read. -/
def reserveExhausted (l : Loop) (index : ℤ) : Bool :=
  env.config.requiredToolTurnReserve != 0 && env.config.toolChoiceAfterRead.isSome &&
    l.toolChoice == env.config.toolChoice &&
    decide (env.config.maxTurns - env.config.requiredToolTurnReserve < index)

/-- The tool is forced from a turn on. -/
def forceTool (l : Loop) (index : ℤ) : Loop :=
  let due := env.config.forceToolAfterTurns.any fun turn => decide (turn ≤ index)
  if due ∧ l.toolChoice = lit "auto" ∧ ¬l.forcedDeliveryComplete ∧
      (env.config.forceToolAfterTurnsTool.isSome ∨ env.config.toolChoiceOnNoTool.isSome) then
    let tool := (env.config.forceToolAfterTurnsTool.filter fun tool => !tool.isEmpty).or
      env.config.toolChoiceOnNoTool
    let l := { l with
      toolChoice := tool.getD []
      forcedOutputTool := tool
      deliveryEditRequired := l.deliveryEditRequired || tool == some (lit "edit_file")
      retryRemaining := env.config.requiredToolRetryCount }
    match env.config.forceToolPrompt.filter fun text => !text.isEmpty with
    | some text => l.prompt text
    | none => l
  else l

/-- The history is compacted when it is over its budget. -/
def compact (l : Loop) : Except Ended Loop :=
  if env.config.compactBudgetChars = 0 then .ok l
  else
    match historyChars env.printable l.history with
    | none => l.raise
    | some chars =>
      if chars ≤ env.config.compactBudgetChars then .ok l
      else
        match compactHistory env.printable l.history env.config.compactBudgetChars
            (l.unclosed.map Json.str) 2 with
        | .error _ => l.raise
        | .ok compacted =>
          if compacted.compacted then
            Loop.emit w ({ l with history := compacted.messages }.log
              (.compacted l.unclosed compacted.messages)) "context_compacted"
          else .ok l

/-- What happens before the model is called in a turn. -/
def beginTurn (l : Loop) (index : ℤ) : Except Ended Loop := do
  let verdict ← budgetVerdict env l
  if verdict = .overBudget then l.finish false "budget_exceeded" []
  else if reserveExhausted env l index then
    l.finish false "required_tool_turn_reserve_exhausted"
      "Reviewer 未在只读回合额度内完整读取改动；保留提交回合并失败关闭"
  else compact env w (forceTool env l index)

/-- The call of the model. -/
def complete (l : Loop) : Except Ended (AssistantMessage × Loop) :=
  let reply := w.complete l.trace l.history l.toolChoice
  let l := l.log (.model l.history l.toolChoice reply)
  match reply with
  | .assistant msg lastUsage =>
    .ok (msg, { l with totalTokens := l.totalTokens + lastUsage.getD 0 })
  | .error text => l.finish false "backend_error" text
  | .interrupted => l.raise

/-- A message without calls: the run ends, or the model is asked for a tool. -/
def plainText (l : Loop) (turn : Turn) : Except Ended Loop :=
  let l := { l with turns := l.turns ++ [turn] }
  match l.toolChoiceOnNoTool with
  | some tool =>
    if l.toolChoice = lit "auto" then
      .ok { l.prompt (lit "本步骤不能以普通文本结束；请立即调用指定的结构化提交工具，" ++
          lit "提交真实审查内容，不要重复环境探查。") with
        toolChoice := tool
        retryRemaining := env.config.requiredToolRetryCount
        toolChoiceOnNoTool := none
        forcedOutputTool := some tool }
    else retry l
  | none =>
    if l.toolChoice = lit "auto" then l.finish true "no_tool_calls" []
    else retry l
where
  /-- A required tool was not called. -/
  retry (l : Loop) : Except Ended Loop :=
    if 0 < l.retryRemaining then
      .ok { l.prompt (lit "本步骤要求通过已提供的工具完成操作；上一条普通文本不会被采纳。" ++
          lit "请按当前 system 指令调用所需工具，不要用自由文本代替。") with
        retryRemaining := l.retryRemaining - 1 }
    else l.finish false "required_tool_not_called" "必需工具模式下模型连续未调用工具，已失败关闭"

/-- The choice of the tool once every reply of the message stands in the history. -/
def applyTransition (l : Loop) (transition : Option PyStr) : Loop :=
  match transition with
  | none => l
  | some next =>
    { l with
      toolChoice := next
      forcedOutputTool := if next = lit "auto" then none else some next
      forcedDeliveryComplete := l.forcedDeliveryComplete || next == lit "auto"
      deliveryEditRequired := l.deliveryEditRequired && next != lit "inspection" }

/-- A message with calls. -/
def toolCallsTurn (l : Loop) (turn : Turn) : Except Ended Loop := do
  let calls := turn.assistant.toolCalls
  let allowed := sliceTo calls env.config.maxToolCallsPerTurn
  let skipped := calls.drop allowed.length
  let r ← allowed.foldlM (handleCall env w) ⟨l, [], [], none⟩
  let r ← skipped.foldlM (skipCall env w) r
  let l := r.prompts.foldl Loop.prompt (applyTransition r.loop r.transition)
  pure { l with
    totalToolCalls := l.totalToolCalls + r.invocations.length
    turns := l.turns ++ [{ turn with invocations := r.invocations }] }

/-- A message over the budget: none of its calls is invoked. -/
def overBudgetTurn (l : Loop) (turn : Turn) : Except Ended Loop := do
  let r ← turn.assistant.toolCalls.foldlM (refuseCall w) ⟨l, [], [], none⟩
  Loop.finish { r.loop with turns := r.loop.turns ++ [{ turn with invocations := r.invocations }] }
    false "budget_exceeded" []

/-- The body of `for index in range(1, max_turns + 1)`; `_notify_turn` never raises. -/
def turn (l : Loop) (index : ℤ) : Except Ended Loop := do
  let l ← beginTurn env w l index
  let (msg, l) ← complete w l
  let l ← (l.append (assistantMessage msg)).emit w "assistant"
  let verdict ← budgetVerdict env l
  if verdict = .overBudget then overBudgetTurn w l ⟨index, msg, []⟩
  else if msg.toolCalls.isEmpty then plainText env l ⟨index, msg, []⟩
  else toolCallsTurn env w l ⟨index, msg, []⟩

/-- The indices of the turns. -/
def turnIndices : List ℤ :=
  (List.range env.config.maxTurns.toNat).map fun i => (i : ℤ) + 1

/-- `run`, with the open operations of earlier runs and the tokens used before. -/
def run (messages : List Members) (unclosed : List PyStr) (totalTokens : ℤ) : Ended :=
  let start := resumeWorklist env w (Loop.init env messages unclosed totalTokens)
  match (turnIndices env).foldlM (turn env w) start with
  | .error ended => ended
  | .ok l => ⟨some ⟨false, "max_turns", []⟩, l⟩

end Run

end Icode.Agent
