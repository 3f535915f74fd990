import Icode.Json

/-!
# Failures of a run

An executor that fails gives an error code and a last step. `classifyFailure`
brings the code to one of six classes, `decideFailure` decides what follows when no
machine policy says otherwise, and a fingerprint of step and code (`failureFingerprint`)
goes into a bounded history. `isStuck` sees the same failure twice in a row, and
`stopForNoProgress` then stops.
-/

namespace Icode

open Py

/-- `FAILURE_CLASSES` -/
inductive FailureClass where
  | retryableTransport
  | capabilityUnavailable
  | deterministicFailure
  | policySchemaSecurity
  | ambiguousSideEffect
  | destructiveRisk
  deriving DecidableEq

/-- `ACTIONS` -/
inductive FailureAction where
  | retry
  | fallback
  | manual
  | stop
  deriving DecidableEq

def FailureClass.text : FailureClass → PyStr
  | .retryableTransport => "retryable_transport"
  | .capabilityUnavailable => "capability_unavailable"
  | .deterministicFailure => "deterministic_failure"
  | .policySchemaSecurity => "policy_schema_security"
  | .ambiguousSideEffect => "ambiguous_side_effect"
  | .destructiveRisk => "destructive_risk"

def FailureAction.text : FailureAction → PyStr
  | .retry => "retry"
  | .fallback => "fallback"
  | .manual => "manual"
  | .stop => "stop"

/-- `FailureDecision`, without the backoff, which nothing reads. -/
structure FailureDecision where
  failureClass : FailureClass
  action : FailureAction
  autoRetry : Bool
  maxAttempts : ℤ
  conclusionCeiling : PyStr
  reason : PyStr
  deriving DecidableEq

/-- `to_public`. -/
def FailureDecision.toPublic (d : FailureDecision) : Members :=
  [("class", .str d.failureClass.text), ("action", .str d.action.text),
    ("auto_retry", .bool d.autoRetry), ("max_attempts", .int d.maxAttempts),
    ("conclusion_ceiling", .str d.conclusionCeiling), ("reason", .str d.reason)]

/-- `_CLASS_BY_ERROR` -/
def classByError : Dict PyStr FailureClass :=
  [("isolation_unavailable", .capabilityUnavailable),
    ("execution_unavailable", .capabilityUnavailable),
    ("verification_plan_provider_failed", .capabilityUnavailable),
    ("backend_error", .capabilityUnavailable),
    ("status_unavailable", .capabilityUnavailable),
    ("invalid_ticket", .policySchemaSecurity),
    ("invalid_status", .policySchemaSecurity),
    ("verification_plan_invalid", .policySchemaSecurity),
    ("verification_plan_identity_mismatch", .policySchemaSecurity),
    ("verification_plan_required", .policySchemaSecurity),
    ("chain_failed", .deterministicFailure),
    ("step_blocked", .deterministicFailure),
    ("gate_blocked", .deterministicFailure),
    ("executor_failed", .deterministicFailure),
    ("chain_error", .ambiguousSideEffect),
    ("executor_error", .ambiguousSideEffect),
    ("no_progress_stuck", .ambiguousSideEffect)]

/-- `classify_failure`. -/
def classifyFailure (errorCode : Option PyStr) : FailureClass :=
  match errorCode with
  | none => .ambiguousSideEffect
  | some code => (classByError.get? code).getD .ambiguousSideEffect

/-- A text, or `-` for none or an empty one. -/
def orDash : Option PyStr → PyStr
  | none => "-"
  | some s => if s.isEmpty then "-" else s

/-- `failure_fingerprint`. -/
def failureFingerprint (errorCode step : Option PyStr) : PyStr :=
  orDash step ++ CodePoint.scalar ':' :: orDash errorCode

/-- `HISTORY_LIMIT` -/
def historyLimit : ℕ :=
  8

/-- `items[-n:]`, for a positive `n`. -/
def lastItems {α : Type*} (n : ℕ) (items : List α) : List α :=
  items.drop (items.length - n)

/-- `is_stuck`: `STUCK_THRESHOLD` is two. -/
def isStuck (history : List PyStr) (fingerprint : PyStr) : Bool :=
  !fingerprint.isEmpty && history.getLast? == some fingerprint

/-- `record_failure`. -/
def recordFailure (history : List PyStr) (fingerprint : PyStr) : List PyStr :=
  lastItems historyLimit (lastItems historyLimit history ++ [fingerprint])

/-- `decide_failure` without a machine policy: it never retries. -/
def decideFailure (cls : FailureClass) : FailureDecision :=
  match cls with
  | .policySchemaSecurity => ⟨cls, .stop, false, 0, "", "策略/schema/安全门禁：立即阻断"⟩
  | .destructiveRisk => ⟨cls, .manual, false, 0, "", "破坏型动作：交人工决定"⟩
  | _ => ⟨cls, .manual, false, 0, "", "缺少可信机器策略：不自行重试，交人工或修复流程"⟩

/-- `stop_for_no_progress`. -/
def stopForNoProgress (d : FailureDecision) : FailureDecision :=
  if d.action = .stop then d
  else { d with
    action := .stop, autoRetry := false, reason := "相同失败证据重复出现：无进展，停止并交人工" }

end Icode
