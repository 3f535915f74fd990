import Icode.ControlFiles
import Icode.EventSchema

/-!
# Engineering receipts

A receipt of the kind `engineering_verification` records one run of the checks of a plan.
`checkReceipt` and `receiptValues` are `engineering_receipt_values` : the first validates
the closed observations, the second derives the digests from them, and `engineeringReceiptValues`
is both. `loadVerificationsJson` reads the file of all receipts of a ticket.

A row is a dict with exactly the fields its kind has (`Row`), so every access to a field of it is
one that Python makes without a `KeyError`.
-/

namespace Icode

open Py

/-! ## Rows -/

/-- A dict whose keys are exactly `fields`. -/
structure Row (fields : List PyStr) where
  members : Members
  shape : members.keysAre fields = true

/-- `row[key]`. -/
def Row.get {fields : List PyStr} (row : Row fields) (key : PyStr) (_h : key ∈ fields) : Json :=
  Members.get row.members key

/-- What the checks of a receipt raise; all of these are `ValueError`s. -/
inductive ReceiptError where
  /-- 字段集合无效 -/
  | shape
  /-- 文本字段无效 -/
  | text
  /-- 文本超过安全上限 -/
  | textLimit
  /-- SHA256 无效 -/
  | hash
  /-- schema_version 必须为严格整数 1 -/
  | schemaVersion
  /-- coverage 无效 -/
  | coverage
  /-- exit_code 无效 -/
  | exitCode
  /-- 适用范围无效 -/
  | scope
  /-- 检查数量无效 -/
  | checkCount
  /-- 检查身份重复或无效 -/
  | checkIdentity
  /-- 检查类型无效 -/
  | checkKind
  /-- adapter 无效 -/
  | adapter
  /-- 检查限额无效 -/
  | checkLimit
  /-- 计划限额或必需测试无效 -/
  | plan
  /-- 执行身份不一致 -/
  | runIdentity
  /-- 受测源码绑定不一致 -/
  | sourceBinding
  /-- 执行状态无效 -/
  | runStatus
  /-- passed 与源码变化矛盾 -/
  | passedSource
  /-- 结果数量不一致 -/
  | resultCount
  /-- 结果身份或状态无效 -/
  | resultIdentity
  /-- 退出码无效 -/
  | resultExitCode
  /-- 测试计数无效 -/
  | resultTests
  /-- 输出限额无效 -/
  | resultOutput
  /-- 清理状态无效 -/
  | cleanup
  /-- 清理范围无效 -/
  | cleanupScope
  /-- 通道状态无效 -/
  | channel
  /-- 固定错误无效 -/
  | fixedError
  /-- 首败后仍执行检查 -/
  | afterStop
  /-- 未运行检查含结果信用 -/
  | notRun
  /-- 完整结果缺退出或输出 -/
  | incomplete
  /-- passed/exit/count 矛盾 -/
  | contradiction
  /-- 未知执行含完整结果信用 -/
  | unknownCredit
  /-- 聚合状态矛盾 -/
  | aggregate
  /-- A text or a float cannot be digested. -/
  | digest
  /-- ticket_id 与工单不一致 -/
  | ticketId
  /-- 语义或摘要不一致 -/
  | semantics
  /-- verifications.json 包装结构无效 -/
  | wrapper
  | control (e : ControlError)
  deriving Inhabited

/-- `_engineering_shape`. -/
def engineeringShape (value : Json) (fields : List PyStr) : Except ReceiptError (Row fields) :=
  match value with
  | .obj ms => if h : Members.keysAre ms fields = true then .ok ⟨ms, h⟩ else .error .shape
  | _ => .error .shape

/-- `_engineering_text`. -/
def engineeringText (value : Json) (required : Bool) (maximum : ℕ) : Except ReceiptError PyStr := do
  let s ← orRaise value.text? .text
  require (!s.contains (.scalar (Char.ofNat 0)) && !(required && s.isEmpty)) .text
  require (s.length ≤ maximum) .textLimit
  let raw ← orRaise (encode s) .text
  require (raw.length ≤ maximum) .textLimit
  .ok s

/-- `_engineering_hash`. -/
def engineeringHash (value : Json) (empty : Bool) : Except ReceiptError PyStr := do
  let s ← orRaise value.text? .hash
  require (empty && s.isEmpty || isHexText 64 s) .hash
  .ok s

/-- A text of the set, or the error. -/
def textIn (allowed : List PyStr) (value : Json) (err : ReceiptError) : Except ReceiptError PyStr :=
  orRaise (value.text?.filter allowed.contains) err

/-- `None` or a bool. -/
def optionalBool (value : Json) (err : ReceiptError) : Except ReceiptError (Option Bool) :=
  match value with
  | .null => .ok none
  | .bool b => .ok (some b)
  | _ => .error err

/-! ## The plan -/

/-- `_ENGINEERING_COVERAGE` -/
def engineeringCoverage : Members :=
  [("record_scope", .str "engineering_result_snapshot"), ("session_replay", .str "not_included"),
    ("unrecorded_side_effects", .str "not_proven"), ("execution_source", .str "not_authenticated"),
    ("test_quality", .str "not_authenticated")]

/-- `_ENGINEERING_BINDING_TEXT_FIELDS` -/
@[simp] def engineeringBindingTextFields : List PyStr :=
  ["step", "attempt", "execution_attempt", "verify_kind", "environment_fingerprint",
    "diff_fingerprint", "base_commit_sha", "initial_worktree_fingerprint",
    "tested_worktree_fingerprint", "git_object_format", "test_head_before_sha",
    "test_head_after_sha", "test_head_status", "tested_git_tree_oid", "tested_git_tree_status",
    "result_commit_sha", "result_commit_tree_oid", "result_commit_tree_status",
    "result_commit_timing_status", "result_commit_checked_at", "captured_at"]

/-- `_ENGINEERING_REPAIR_BINDING_FIELDS` -/
def engineeringRepairBindingFields : List PyStr :=
  ["environment_fingerprint", "artifact_hashes_sha256", "diff_fingerprint", "base_commit_sha",
    "initial_worktree_fingerprint", "tested_worktree_fingerprint", "git_object_format",
    "tested_git_tree_oid"]

@[simp] def receiptFields : List PyStr :=
  ["kind", "schema_version", "coverage", "binding", "public_plan", "public_projection_digest",
    "run", "category", "passed", "fingerprint", "repair_fingerprint"]

@[simp] def bindingFields : List PyStr :=
  engineeringBindingTextFields ++
    (["exit_code", "command_sha256", "artifact_hashes_sha256", "output_sha256"] : List PyStr)

@[simp] def planFields : List PyStr :=
  ["run_id", "ticket_id", "workspace_sha256", "environment_sha256", "steps", "platforms", "checks"]

@[simp] def checkFields : List PyStr :=
  ["check_id", "kind", "adapter", "required", "tool_sha256", "parameters_sha256", "timeout_seconds",
    "output_limit_bytes"]

@[simp] def runFields : List PyStr :=
  ["plan_digest", "step", "attempt", "status", "source_before", "source_after", "os_enforced",
    "checks"]

@[simp] def resultFields : List PyStr :=
  ["check_id", "status", "exit_code", "tests_passed", "output_sha256", "output_bytes", "cleanup_ok",
    "cleanup_scope", "cache_owner_cleanup_confirmed", "scope_cleanup_ok", "resource_channel_status",
    "violation_observer_status", "resource_receipt_sha256", "error"]

/-- The list when its length is between the bounds. -/
def listBetween (low high : ℕ) (value : Json) (err : ReceiptError) :
    Except ReceiptError (List Json) :=
  match value with
  | .arr xs => if low ≤ xs.length ∧ xs.length ≤ high then .ok xs else .error err
  | _ => .error err

/-- One to three different texts of the set. -/
def scopeOf (allowed : List PyStr) (value : Json) : Except ReceiptError (List PyStr) := do
  let items ← listBetween 1 3 value .scope
  let names ← mapAll (fun v => textIn allowed v .scope) items
  require (decide names.Nodup) .scope
  .ok names

/-- `[A-Za-z0-9][A-Za-z0-9_.-]{0,63}`. -/
def isCheckId (s : PyStr) : Bool :=
  let alnum (c : CodePoint) : Bool :=
    (48 ≤ c.ord && c.ord ≤ 57) || (65 ≤ c.ord && c.ord ≤ 90) || (97 ≤ c.ord && c.ord ≤ 122)
  1 ≤ s.length && s.length ≤ 64 && (s.take 1).all alnum &&
    s.all fun c => alnum c || c == .scalar '_' || c == .scalar '.' || c == .scalar '-'

/-- A check of the plan, with what the checks of its result use. -/
structure PlanCheck where
  checkId : PyStr
  kind : PyStr
  required : Bool
  timeout : Json
  outputLimit : ℤ

/-- A number strictly above `low` and at most `high`. -/
def numberBetween (low high : ℚ) (v : Json) : Bool :=
  v.number.any fun q => low < q && q ≤ high

/-- `a + b` of an `int` or a `float` each. -/
def addNumbers (a b : Json) : Json :=
  match a, b with
  | .int m, .int n => .int (m + n)
  | a, b => .float (PyFloat.ofRat (a.number.getD 0 + b.number.getD 0))

/-- The body of the loop over the checks of the plan, with the ids seen before. -/
def checkPlanRow (ids : List PyStr) (value : Json) : Except ReceiptError PlanCheck := do
  let row ← engineeringShape value checkFields
  let checkId ← orRaise ((row.get "check_id" (by simp)).text?.filter fun s =>
    isCheckId s && !ids.contains s) .checkIdentity
  let kind ← textIn ["test", "lint", "build"] (row.get "kind" (by simp)) .checkKind
  let required ← orRaise (match row.get "required" (by simp) with
    | .bool b => some b
    | _ => none) .checkKind
  let _ ← textIn (if kind = lit "test" then ["unittest_summary_v1", "go_test_json_v1"]
    else ["exit_status_v1"]) (row.get "adapter" (by simp)) .adapter
  let _ ← engineeringHash (row.get "tool_sha256" (by simp)) false
  let _ ← engineeringHash (row.get "parameters_sha256" (by simp)) false
  let timeout := row.get "timeout_seconds" (by simp)
  require (match timeout with
    | .int _ => true
    | .float _ => true
    | _ => false) .checkLimit
  require (numberBetween 0 1800 timeout) .checkLimit
  match row.get "output_limit_bytes" (by simp) with
  | .int n =>
    if 1 ≤ n ∧ n ≤ 8 * 1024 * 1024 then .ok ⟨checkId, kind, required, timeout, n⟩
    else .error .checkLimit
  | _ => .error .checkLimit

/-- The loop over the checks of the plan. -/
def checkPlanRows (ids : List PyStr) : List Json → Except ReceiptError (List PlanCheck)
  | [] => .ok []
  | value :: values => do
    let check ← checkPlanRow ids value
    let checks ← checkPlanRows (check.checkId :: ids) values
    .ok (check :: checks)

/-- The limits of the whole plan, and its required test. -/
def planOk (checks : List PlanCheck) : Bool :=
  let timeoutTotal := checks.foldl (fun total c => addNumbers total c.timeout) (.int 0)
  let outputTotal := checks.foldl (fun total c => total + c.outputLimit) 0
  !(timeoutTotal.number.any (1800 < ·)) && outputTotal ≤ 8 * 1024 * 1024 &&
    checks.any fun c => c.required && c.kind == lit "test"

/-! ## The results -/

/-- `_ENGINEERING_CHECK_STATUSES` -/
def engineeringCheckStatuses : List PyStr :=
  ["passed", "failed", "not_run", "tool_changed", "missing_command", "execution_unavailable",
    "output_incomplete"]

/-- `_ENGINEERING_RUN_STATUSES` -/
def engineeringRunStatuses : List PyStr :=
  ["passed", "failed", "tool_changed", "missing_command", "execution_unavailable",
    "output_incomplete", "source_changed", "source_unavailable", "binding_changed",
    "cache_cleanup_unconfirmed"]

/-- `_ENGINEERING_FIXED_ERRORS` -/
def engineeringFixedErrors : List PyStr :=
  ["", "invalid_cwd", "binding_changed", "isolation_unavailable", "execution_receipt_incomplete",
    "VerificationOutputError", "VerificationOutputLimitError", "VerificationOutputCaptureError",
    "TimeoutExpired", "OSError", "BlockingIOError", "ChildProcessError", "ConnectionError",
    "BrokenPipeError", "ConnectionAbortedError", "ConnectionRefusedError", "ConnectionResetError",
    "FileExistsError", "FileNotFoundError", "InterruptedError", "IsADirectoryError",
    "NotADirectoryError", "PermissionError", "ProcessLookupError", "TimeoutError"]

/-- A check that did not pass, as it is digested. -/
structure FailedCheck where
  checkId : PyStr
  kind : PyStr
  status : PyStr
  exitCode : Option ℤ
  testsPassed : ℤ
  error : PyStr

/-- An exit code in a dict. -/
def exitCodeJson : Option ℤ → Json
  | none => .null
  | some n => .int n

def FailedCheck.toJson (f : FailedCheck) : Json :=
  .obj [("check_id", .str f.checkId), ("kind", .str f.kind), ("status", .str f.status),
    ("exit_code", exitCodeJson f.exitCode), ("tests_passed", .int f.testsPassed),
    ("error", .str f.error)]

/-- What the loop over the results has found. -/
structure RunState where
  unknown : Bool
  failed : List FailedCheck
  stopped : Bool
  statuses : List PyStr

/-- `None` or an exit code of some platform. -/
def checkedExitCode (value : Json) : Except ReceiptError (Option ℤ) :=
  match value with
  | .null => .ok none
  | .int n => if -(2 ^ 31) ≤ n ∧ n ≤ 2 ^ 32 - 1 then .ok (some n) else .error .resultExitCode
  | _ => .error .resultExitCode

/-- An integer from zero to the limit. -/
def checkedCount (limit : ℤ) (value : Json) (err : ReceiptError) : Except ReceiptError ℤ :=
  match value with
  | .int n => if 0 ≤ n ∧ n ≤ limit then .ok n else .error err
  | _ => .error err

/-- A result, once its fields are valid. -/
structure CheckResult where
  status : PyStr
  code : Option ℤ
  count : ℤ
  outputBytes : ℤ
  outputSha256 : PyStr
  resourceReceipt : PyStr
  cleanupOk : Option Bool
  scopeCleanupOk : Option Bool
  cacheOwnerConfirmed : Option Bool
  cleanupScope : PyStr
  resourceChannel : PyStr
  violationObserver : PyStr
  error : PyStr

/-- The fields of a result. -/
def checkResultRow (check : PlanCheck) (value : Json) : Except ReceiptError CheckResult := do
  let row ← engineeringShape value resultFields
  require ((row.get "check_id" (by simp)).isText check.checkId) .resultIdentity
  let status ← textIn engineeringCheckStatuses (row.get "status" (by simp)) .resultIdentity
  let code ← checkedExitCode (row.get "exit_code" (by simp))
  let count ← checkedCount 10000000 (row.get "tests_passed" (by simp)) .resultTests
  require (check.kind == lit "test" || count == 0) .resultTests
  let outputBytes ← checkedCount check.outputLimit (row.get "output_bytes" (by simp)) .resultOutput
  let outputSha256 ← engineeringHash (row.get "output_sha256" (by simp)) true
  let resourceReceipt ← engineeringHash (row.get "resource_receipt_sha256" (by simp)) true
  let cleanupOk ← optionalBool (row.get "cleanup_ok" (by simp)) .cleanup
  let scopeCleanupOk ← optionalBool (row.get "scope_cleanup_ok" (by simp)) .cleanup
  let cacheOwnerConfirmed ←
    optionalBool (row.get "cache_owner_cleanup_confirmed" (by simp)) .cleanup
  let cleanupScope ←
    textIn ["unknown", "not_started", "process_group", "job_tree", "linux_task_scope"]
      (row.get "cleanup_scope" (by simp)) .cleanupScope
  let channels : List PyStr := ["not_required", "complete", "incomplete"]
  let resourceChannel ← textIn channels (row.get "resource_channel_status" (by simp)) .channel
  let violationObserver ← textIn channels (row.get "violation_observer_status" (by simp)) .channel
  let error ← textIn engineeringFixedErrors (row.get "error" (by simp)) .fixedError
  .ok ⟨status, code, count, outputBytes, outputSha256, resourceReceipt, cleanupOk, scopeCleanupOk,
    cacheOwnerConfirmed, cleanupScope, resourceChannel, violationObserver, error⟩

/-- The cleanup of the check is confirmed. -/
def CheckResult.closed (r : CheckResult) : Bool :=
  r.cleanupOk == some true && r.cacheOwnerConfirmed == some true &&
    (r.cleanupScope == lit "job_tree" && r.scopeCleanupOk != some false &&
        r.resourceChannel == lit "not_required" && r.violationObserver == lit "not_required" &&
        r.resourceReceipt.isEmpty ||
      r.cleanupScope == lit "linux_task_scope" && r.scopeCleanupOk == some true &&
        r.resourceChannel == lit "complete" && r.violationObserver == lit "complete" &&
        !r.resourceReceipt.isEmpty)

/-- A check that was run: the status fits the exit code, the count and the output. -/
def executedError (check : PlanCheck) (r : CheckResult) : Option ReceiptError :=
  if r.status = lit "passed" ∨ r.status = lit "failed" then
    if r.code.isNone || r.outputSha256.isEmpty then some .incomplete
    else
      let expectedPass := r.code == some 0 && (check.kind != lit "test" || 0 < r.count)
      if (r.status == lit "passed") != expectedPass || r.status == lit "failed" && r.count != 0 then
        some .contradiction
      else none
  else if r.count != 0 || !r.outputSha256.isEmpty || r.outputBytes != 0 then some .unknownCredit
  else none

/-- The state after a check that was run. -/
def RunState.executed (s : RunState) (check : PlanCheck) (r : CheckResult) : RunState where
  unknown := s.unknown || !r.closed || (r.status != lit "passed" && r.status != lit "failed") ||
    !r.error.isEmpty
  failed :=
    if r.status = lit "passed" then s.failed
    else s.failed ++ [⟨check.checkId, check.kind, r.status, r.code, r.count, r.error⟩]
  stopped := s.stopped || r.status != lit "passed"
  statuses := s.statuses ++ [r.status]

/-- The body of the loop over the results. -/
def RunState.step (s : RunState) (check : PlanCheck) (value : Json) :
    Except ReceiptError RunState := do
  let r ← checkResultRow check value
  require (!s.stopped || r.status == lit "not_run") .afterStop
  if r.status = lit "not_run" then
    require (r.code.isNone && r.count == 0 && r.outputSha256.isEmpty && r.outputBytes == 0) .notRun
    .ok { s with stopped := true, statuses := s.statuses ++ [r.status] }
  else
    match executedError check r with
    | some err => .error err
    | none => .ok (s.executed check r)

/-! ## A receipt -/

/-- A receipt whose observations are valid, with its parts. -/
structure CheckedReceipt where
  row : Row receiptFields
  binding : Row bindingFields
  plan : Row planFields
  ticketId : PyStr
  run : Row runFields
  step : PyStr
  status : PyStr
  sourceBefore : PyStr
  sourceAfter : PyStr
  category : PyStr
  passed : Bool
  exitCode : Option ℤ
  failed : List FailedCheck

/-- The binding of a receipt. -/
def checkBinding (row : Row receiptFields) : Except ReceiptError (Row bindingFields) := do
  let binding ← engineeringShape (row.get "binding" (by simp)) bindingFields
  let _ ← mapAll (fun field => engineeringText (Members.get binding.members field)
    ((["step", "attempt", "execution_attempt"] : List PyStr).contains field) 8192)
      engineeringBindingTextFields
  let _ ← engineeringHash (binding.get "command_sha256" (by simp)) false
  let _ ← engineeringHash (binding.get "artifact_hashes_sha256" (by simp)) false
  let _ ← engineeringHash (binding.get "output_sha256" (by simp)) false
  require (match binding.get "exit_code" (by simp) with
    | .null => true
    | .int _ => true
    | _ => false) .exitCode
  .ok binding

/-- The plan of a receipt: its row, its ticket, its steps and its checks. -/
def checkPlan (row : Row receiptFields) :
    Except ReceiptError (Row planFields × PyStr × List PyStr × List PlanCheck) := do
  let plan ← engineeringShape (row.get "public_plan" (by simp)) planFields
  let _ ← engineeringText (plan.get "run_id" (by simp)) true 256
  let ticketId ← engineeringText (plan.get "ticket_id" (by simp)) true 256
  let _ ← engineeringHash (plan.get "workspace_sha256" (by simp)) false
  let _ ← engineeringHash (plan.get "environment_sha256" (by simp)) false
  let steps ← scopeOf ["task", "code", "deepcheck"] (plan.get "steps" (by simp))
  let _ ← scopeOf ["Linux", "Darwin", "Windows"] (plan.get "platforms" (by simp))
  let rows ← listBetween 1 16 (plan.get "checks" (by simp)) .checkCount
  let checks ← checkPlanRows [] rows
  require (planOk checks) .plan
  .ok (plan, ticketId, steps, checks)

/-- `engineering_receipt_values` up to the digests. -/
def checkReceipt (receipt : Json) : Except ReceiptError CheckedReceipt := do
  let row ← engineeringShape receipt receiptFields
  require ((row.get "kind" (by simp)).isText (lit "engineering_verification") &&
    (row.get "schema_version" (by simp)).isExactly 1) .schemaVersion
  require ((row.get "coverage" (by simp)).pyEq (.obj engineeringCoverage)) .coverage
  let binding ← checkBinding row
  let (plan, ticketId, steps, checks) ← checkPlan row
  let run ← engineeringShape (row.get "run" (by simp)) runFields
  let _ ← engineeringHash (run.get "plan_digest" (by simp)) false
  let step ← engineeringText (run.get "step" (by simp)) true 256
  let attempt ← engineeringText (run.get "attempt" (by simp)) true 256
  require ((binding.get "step" (by simp)).isText step && steps.contains step &&
    (binding.get "execution_attempt" (by simp)).isText attempt) .runIdentity
  let before ← engineeringHash (run.get "source_before" (by simp)) true
  let after ← engineeringHash (run.get "source_after" (by simp)) true
  require ((binding.get "tested_worktree_fingerprint" (by simp)).isText after) .sourceBinding
  let status ← textIn engineeringRunStatuses (run.get "status" (by simp)) .runStatus
  require (match run.get "os_enforced" (by simp) with
    | .bool _ => true
    | _ => false) .runStatus
  require (!(status == lit "passed" && !before.isEmpty && !after.isEmpty && before != after))
    .passedSource
  let results ← listBetween checks.length checks.length (run.get "checks" (by simp)) .resultCount
  let s ← (checks.zip results).foldlM (fun (s : RunState) (c : PlanCheck × Json) => s.step c.1 c.2)
    ⟨before.isEmpty || after.isEmpty || before != after, [], false, []⟩
  let allPassed := s.statuses.all (· == lit "passed")
  require (!(status == lit "passed" && !allPassed || status == lit "failed" && s.failed.isEmpty))
    .aggregate
  let unknown := s.unknown || (status != lit "passed" && status != lit "failed")
  let passed := status == lit "passed" && allPassed && !unknown
  .ok {
    row := row
    binding := binding
    plan := plan
    ticketId := ticketId
    run := run
    step := step
    status := status
    sourceBefore := before
    sourceAfter := after
    category :=
      if unknown then "side_effect_unknown" else if s.failed.isEmpty then "test" else "code"
    passed := passed
    exitCode := if passed then some 0 else s.failed.findSome? FailedCheck.exitCode
    failed := s.failed }

/-! ## Digests -/

mutual

/-- No float of the value is `nan` or infinite. -/
def finite : Json → Bool
  | .float x => x.isFinite
  | .arr xs => finiteList xs
  | .obj ms => finiteMembers ms
  | _ => true

def finiteList : List Json → Bool
  | [] => true
  | x :: xs => finite x && finiteList xs

def finiteMembers : Members → Bool
  | [] => true
  | (_, x) :: ms => finite x && finiteMembers ms

end

/-- `_engineering_digest`. -/
def engineeringDigest (value : Json) : Except ReceiptError PyStr := do
  require (finite value) .digest
  let raw ← orRaise (encode (Json.dumps value)) .digest
  .ok (sha256 raw)

/-- `{k: v for k, v in members.items() if k not in names}`. -/
def without (members : Members) (names : List PyStr) : Members :=
  members.filter fun m => !names.contains m.1

/-- What `engineering_receipt_values` returns. -/
structure ReceiptValues where
  publicProjectionDigest : PyStr
  fingerprint : PyStr
  repairFingerprint : PyStr
  category : PyStr
  passed : Bool
  bindingExitCode : Option ℤ

/-- The view of a receipt that its fingerprint digests. -/
def CheckedReceipt.auditView (c : CheckedReceipt) : Json :=
  .obj [("domain", .str "icode.engineering.audit.v1"), ("schema_version", .int 1),
    ("coverage", c.row.get "coverage" (by simp)),
    ("binding", .obj (without c.binding.members
      ["attempt", "execution_attempt", "captured_at", "result_commit_checked_at"])),
    ("public_plan", .obj c.plan.members), ("run", .obj (without c.run.members ["attempt"])),
    ("category", .str c.category), ("passed", .bool c.passed)]

/-- The view of a receipt that its repair fingerprint digests. -/
def CheckedReceipt.repairView (c : CheckedReceipt) : Json :=
  .obj [("domain", .str "icode.engineering.repair.v1"), ("schema_version", .int 1),
    ("step", .str c.step), ("public_plan", .obj (without c.plan.members ["run_id", "ticket_id"])),
    ("source_before", .str c.sourceBefore), ("source_after", .str c.sourceAfter),
    ("binding", .obj (engineeringRepairBindingFields.map fun k =>
      (k, Members.get c.binding.members k))),
    ("status", .str c.status), ("category", .str c.category),
    ("failures", .arr (c.failed.map FailedCheck.toJson))]

/-- The digests of a receipt. -/
def CheckedReceipt.values (c : CheckedReceipt) : Except ReceiptError ReceiptValues := do
  let projection ← engineeringDigest (.obj c.plan.members)
  let fingerprint ← engineeringDigest c.auditView
  let repair ← engineeringDigest c.repairView
  .ok ⟨projection, fingerprint, repair, c.category, c.passed, c.exitCode⟩

/-- `engineering_receipt_values`. -/
def engineeringReceiptValues (receipt : Json) : Except ReceiptError ReceiptValues := do
  let c ← checkReceipt receipt
  c.values

/-- The receipt carries the derived values. -/
def CheckedReceipt.carries (c : CheckedReceipt) (v : ReceiptValues) : Bool :=
  (c.binding.get "exit_code" (by simp)).pyEq (exitCodeJson v.bindingExitCode) &&
    (c.row.get "public_projection_digest" (by simp)).isText v.publicProjectionDigest &&
    (c.row.get "fingerprint" (by simp)).isText v.fingerprint &&
    (c.row.get "repair_fingerprint" (by simp)).isText v.repairFingerprint &&
    (c.row.get "category" (by simp)).isText v.category &&
    (match c.row.get "passed" (by simp) with
      | .bool b => b == v.passed
      | _ => false)

/-- `validate_engineering_receipt`; a receipt of another kind has no values. -/
def validateEngineeringReceipt (receipt : Json) (expectedTicketId : Option PyStr) :
    Except ReceiptError (Option ReceiptValues) :=
  match receipt with
  | .obj ms =>
    if (Members.get ms "kind").isText (lit "engineering_verification") then do
      let c ← checkReceipt receipt
      let values ← c.values
      require (expectedTicketId.all fun expected => c.ticketId == expected) .ticketId
      require (c.carries values) .semantics
      .ok (some values)
    else .ok none
  | _ => .ok none

/-! ## The file of all receipts -/

/-- `_MAX_VERIFICATIONS_JSON_BYTES` -/
def maxVerificationsJsonBytes : ℕ := 8 * 1024 * 1024

/-- `_MAX_VERIFICATION_RECEIPTS` -/
def maxVerificationReceipts : ℕ := 10000

/-- The body of the loop over the receipts. -/
def checkReceiptEntry (expectedTicketId : Option PyStr) (receipt : Json) :
    Except ReceiptError (Option ReceiptValues) :=
  match interopError 0 receipt with
  | some e => .error (.control (.json e))
  | none => validateEngineeringReceipt receipt expectedTicketId

/-- `load_verifications_json`. -/
def loadVerificationsJson (content : Bytes) (expectedTicketId : Option PyStr) :
    Except ReceiptError Members := do
  let text ← (readBoundedText content maxVerificationsJsonBytes).mapError .control
  (checkStructuralTokenBudget text (some (maxJsonContainerDepth + 2))).mapError
    fun e => .control (.json e)
  let value ← (loads text).mapError fun e => .control (.json e)
  let row ← engineeringShape value ["schema_version", "receipts"]
  require ((row.get "schema_version" (by simp)).isExactly 1) .wrapper
  let receipts ← listBetween 0 maxVerificationReceipts (row.get "receipts" (by simp)) .wrapper
  let _ ← mapAll (checkReceiptEntry expectedTicketId) receipts
  .ok row.members

end Icode
