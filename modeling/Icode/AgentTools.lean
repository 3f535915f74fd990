import Icode.Compaction
import Icode.Sha256

/-!
# What an agent loop works with

The calls a model makes and the messages about them, the tools behind the registry
(`invokeTool`, `ToolRegistry.invoke`), the receipts of actions with a side effect
(`StartedOperation`, `startedOperation`), and the budget (`Budget.verdict`).

A tool ends with a result or an exception, and the registry turns every `Exception`
into a failing result : only what is no `Exception` leaves it (`invokeTool_eq_none`).
-/

namespace Icode.Agent

open Compaction Py

/-! ## Calls and messages -/

/-- `ToolCall`; the arguments of a provider need not be an object. -/
structure ToolCall where
  id : PyStr
  name : PyStr
  arguments : Json

structure AssistantMessage where
  content : PyStr
  toolCalls : List ToolCall

/-- `call_arguments`. -/
def callArguments (call : ToolCall) : Members :=
  match call.arguments with
  | .obj ms => ms
  | _ => []

/-- `_assistant_message`. -/
def assistantMessage (msg : AssistantMessage) : Members :=
  let payload : Members := [("role", .str "assistant"), ("content", .str msg.content)]
  let toolCalls : Members := [("tool_calls", .arr (msg.toolCalls.map fun c =>
    .obj [("id", .str c.id), ("type", .str "function"), ("function", .obj
      [("name", .str c.name), ("arguments", .str c.arguments.dumpsSpaced)])]))]
  if msg.toolCalls.isEmpty then payload else payload ++ toolCalls

/-- A message of the host. -/
def userMessage (text : PyStr) : Members :=
  [("role", .str "user"), ("content", .str text)]

/-! ## Results of tools -/

def policyDeniedUserMessage : PyStr :=
  "此操作超出当前任务范围，已阻止。"

/-- `OPCLASS_READ_ONLY`. -/
def opclassReadOnly : PyStr :=
  "read_only"

/-- `DEFAULT_OUTPUT_LIMIT`. -/
def defaultOutputLimit : ℤ := 8000

/-- A value in the metadata of a result: JSON, or a Python value `json.dumps` refuses. -/
inductive MetaValue where
  | json (v : Json)
  | foreign (typeName : PyStr) (hashable : Bool)

abbrev Metadata := Dict PyStr MetaValue

/-- `meta.get(key)`, where only JSON values matter. -/
def Metadata.get (metadata : Metadata) (key : PyStr) : Json :=
  match Dict.get? metadata key with
  | some (.json v) => v
  | _ => .null

/-- `json.dumps(meta, ensure_ascii=False)`; `TypeError` when a value is refused. -/
def Metadata.dumps (metadata : Metadata) : Option PyStr := do
  let members ← metadata.mapM fun
    | (k, .json v) => some (k, v)
    | (_, .foreign _ _) => none
  pure (Json.obj members).dumpsSpaced

structure ToolResult where
  ok : Bool
  content : PyStr
  metadata : Metadata
  opclass : PyStr

/-- `text[:n]`. -/
def sliceTo {α : Type} (xs : List α) (n : ℤ) : List α :=
  if 0 ≤ n then xs.take n.toNat else xs.take (xs.length - n.natAbs)

/-- `text[n:]`. -/
def sliceFrom {α : Type} (xs : List α) (n : ℤ) : List α :=
  if 0 ≤ n then xs.drop n.toNat else xs.drop (xs.length - n.natAbs)

/-- `ToolResult.clipped`. -/
def ToolResult.clipped (r : ToolResult) (limit : ℤ) : PyStr :=
  if r.content.length ≤ limit then r.content
  else
    sliceTo r.content (limit.fdiv 2) ++ lit "\n…（输出过长已截断 " ++
      ofChars (intText (r.content.length - limit)) ++ lit " 字符）…\n" ++
      sliceFrom r.content ((-limit).fdiv 2)

/-- A result without metadata but the error. -/
def failure (content : PyStr) (error : String) (opclass : PyStr) : ToolResult :=
  ⟨false, content, [("error", .json (.str error))], opclass⟩

structure ToolInvocation where
  name : PyStr
  arguments : Members
  decision : PyStr
  approved : Bool
  result : Option ToolResult
  note : PyStr

/-- `_tool_message`. -/
def toolMessage (callId : PyStr) (inv : ToolInvocation) : Members :=
  let body :=
    match inv.result with
    | none => if inv.note.isEmpty then lit "动作未执行" else inv.note
    | some r =>
      if r.ok then r.clipped defaultOutputLimit
      else lit "[失败] " ++ r.clipped defaultOutputLimit
  [("role", .str "tool"), ("tool_call_id", .str callId), ("content", .str body)]

/-- An invocation that is refused before anything is decided about it. -/
def refusedInvocation (call : ToolCall) (content : PyStr) (metadata : Metadata) (note : PyStr) :
    ToolInvocation where
  name := call.name
  arguments := callArguments call
  decision := "deny"
  approved := false
  result := some ⟨false, content, metadata, opclassReadOnly⟩
  note := note

/-! ## The registry -/

/-- The registered tools, with the class of their actions. -/
abbrev ToolRegistry := Dict PyStr PyStr

/-- How a tool ends. -/
inductive ToolOutcome where
  | returned (r : ToolResult)
  /-- `TypeError`, with its text. -/
  | typeError (text : PyStr)
  /-- Another `Exception`, with its type and text. -/
  | failed (text : PyStr)
  /-- An exception that is no `Exception`: it leaves the registry. -/
  | interrupted

/-- `_POLICY_DENIAL_ERRORS`. -/
def policyDenialErrors : List PyStr :=
  ["read_denied", "write_denied"]

/-- An ASCII letter or digit. -/
def isAsciiAlnum (c : CodePoint) : Bool :=
  (48 ≤ c.ord && c.ord ≤ 57) || (65 ≤ c.ord && c.ord ≤ 90) || (97 ≤ c.ord && c.ord ≤ 122)

/-- A name a receipt shows. -/
def isReceiptName (operation : PyStr) : Bool :=
  match operation with
  | [] => false
  | c :: cs =>
    decide (operation.length ≤ 64) && (isAsciiAlnum c || c == .scalar '_') &&
      cs.all fun d => isAsciiAlnum d || d == .scalar '_' || d == .scalar '.' || d == .scalar '-'

/-- `application_policy_violation_receipt`, for a category it supports. -/
def policyViolationReceipt (operation category : PyStr) : Json :=
  .obj [("schema_version", .int 1), ("enforcement_layer", .str "application_policy"),
    ("os_enforced", .bool false), ("category", .str category),
    ("operation", .str (if isReceiptName operation then operation else lit "other"))]

/-- The type name of a value that cannot be hashed. -/
def unhashableType : MetaValue → Option PyStr
  | .json (.arr _) => some "list"
  | .json (.obj _) => some "dict"
  | .json _ => none
  | .foreign typeName hashable => if hashable then none else some typeName

/-- The failing result for a `TypeError`. -/
def badArguments (text opclass : PyStr) : ToolResult :=
  failure (lit "工具参数不合法：" ++ text) "bad_arguments" opclass

/-- What the registry makes of the result of a tool: a denial by a policy gets the message for
the user, and the error looked up in a set has to be hashable. -/
def denialResult (name opclass : PyStr) (r : ToolResult) : ToolResult :=
  if r.ok then r
  else
    match (Dict.get? r.metadata "error").getD (.json .null) with
    | .json (.str error) =>
      if policyDenialErrors.contains error then
        { r with
          content := policyDeniedUserMessage
          metadata := Dict.set (Dict.set r.metadata "error_code" (.json (.str "policy_denied")))
            "violation_receipt" (.json (policyViolationReceipt name error)) }
      else r
    | error =>
      match unhashableType error with
      | some typeName =>
        badArguments (lit "unhashable type: '" ++ typeName ++ lit "'") opclass
      | none => r

/-- `ToolRegistry.invoke`; `none` when an exception leaves it. -/
def invokeTool (registry : ToolRegistry) (name : PyStr) (outcome : ToolOutcome) :
    Option ToolResult :=
  match Dict.get? registry name with
  | none => some (failure
      (lit "未知工具：" ++ name ++ lit "。可用：" ++ joinComma (Dict.keys registry))
      "unknown_tool" opclassReadOnly)
  | some opclass =>
    match outcome with
    | .returned r => some (denialResult name opclass r)
    | .typeError text => some (badArguments text opclass)
    | .failed text => some (failure text "tool_exception" opclass)
    | .interrupted => none

/-- Only what is no `Exception` leaves the registry. -/
theorem invokeTool_eq_none {registry : ToolRegistry} {name : PyStr} {outcome : ToolOutcome} :
    invokeTool registry name outcome = none ↔
      Dict.get? registry name ≠ none ∧ outcome = .interrupted := by
  unfold invokeTool
  split
  · next h => simp [h]
  · next h => cases outcome <;> simp [h]

/-! ## Receipts of actions -/

/-- What the control plane answers. -/
structure ControlResult where
  returncode : ℤ
  data : Members

/-- `value is True`. -/
def isTrue : Json → Bool
  | .bool b => b
  | _ => false

structure StartedOperation where
  attempt : Option PyStr
  ok : Bool
  ambiguous : Bool
  detail : PyStr
  alreadyApplied : Bool

/-- `can_execute`. -/
def StartedOperation.canExecute (op : StartedOperation) : Bool :=
  op.ok && !op.ambiguous && op.attempt.any (fun a => !a.isEmpty) && !op.alreadyApplied

/-- `OperationRecorder.start`, from the answer of the control plane. -/
def startedOperation (printable : CodePoint → Bool) (res : ControlResult) : StartedOperation :=
  let data := res.data
  let attempt := data.get "attempt"
  let error := (Dict.get? data "error").getD (.str [])
  let ambiguous := (data.get "ambiguous_side_effect").truthy ||
    (data.get "gate_id").isText "ambiguous_side_effect" ||
    contains (error.pyStr printable) "ambiguous_side_effect"
  let ok := res.returncode == 0 && isTrue (data.get "ok")
  let detail := ((pyOr (pyOr (data.get "error") (data.get "message")) (.str [])).pyStr
    printable).take 300
  let attempt := if attempt.truthy then some (attempt.pyStr printable) else none
  match (Dict.get? data "already_applied").getD (.bool false) with
  | .bool alreadyApplied => ⟨attempt, ok, ambiguous, detail, alreadyApplied⟩
  | _ => ⟨attempt, false, ambiguous,
      "operation_start_protocol_invalid: already_applied 必须是 bool", false⟩

/-- `OperationRecorder.finish`, from the answer of the control plane. -/
def finishedOperation (res : ControlResult) : Bool :=
  res.returncode == 0 && isTrue (res.data.get "ok")

/-! ## The budget -/

inductive BudgetVerdict where
  | observeOnly
  | overBudget
  | aboveExpected
  | withinBudget
  deriving DecidableEq, Repr

structure Budget where
  expectedTokens : ℤ
  hardRatio : PyFloat

/-- `q > x`. -/
def exceeds (q : ℚ) (x : PyFloat) : Bool :=
  match x.toRat with
  | some r => decide (r < q)
  | none => x == PyFloat.inf true

/-- `total / expected`, the nearest binary64; `none` is an overflow. -/
def ratio (total expected : ℤ) : Option ℚ := do
  let (m, e) ← PyFloat.nearest total.natAbs expected.natAbs
  let q : ℚ := m * (2 : ℚ) ^ e
  pure (if total < 0 then -q else q)

/-- `Budget.verdict`; it raises when the ratio overflows. -/
def Budget.verdict (b : Budget) (totalTokens : ℤ) : Option BudgetVerdict :=
  if b.expectedTokens ≤ 0 then some .observeOnly
  else
    (ratio totalTokens b.expectedTokens).map fun q =>
      if exceeds q b.hardRatio then .overBudget
      else if 1 < q then .aboveExpected
      else .withinBudget

end Icode.Agent
