import Icode.Pipe
import Icode.PyText
import Mathlib.Logic.Function.Basic

/-!
# Captured output of a verification

The two pipes of a verification share one budget. `Capture` is what was retained of them, and
`retain` (`_retain_verification_output`) what happens to a chunk. A capture that was never exceeded
has retained everything that was delivered, and never more than the budget (`Capture.Inv`).

A `View` is what the result of a runner is judged by: the pipes, the capture, the read errors, and
whether the cleanup of the process was confirmed. It is `Sound` when the runner returns complete
output or raises.
-/

namespace Icode.VerificationProcess

open Py

/-- The two output pipes. -/
inductive Stream where
  | stdout
  | stderr
  deriving DecidableEq

/-- `_VERIFICATION_OUTPUT_READ_CHUNK_BYTES` -/
def readChunkBytes : ℕ := 64 * 1024

/-! ## The capture -/

/-- The bytes retained of each stream, their number, and whether bytes were dropped. -/
structure Capture where
  chunks : Stream → Bytes
  captured : ℕ
  exceeded : Bool

namespace Capture

def empty : Capture :=
  ⟨fun _ => [], 0, false⟩

/-- `_retain_verification_output`, and what its caller does with the answer. -/
def retain (outputLimitBytes : ℕ) (c : Capture) (stream : Stream) (chunk : Bytes) : Capture :=
  let available := outputLimitBytes - c.captured
  let keep := min available chunk.length
  { chunks := Function.update c.chunks stream (c.chunks stream ++ chunk.take keep)
    captured := c.captured + keep
    exceeded := c.exceeded || keep != chunk.length }

/-- The bytes retained of both streams. -/
def total (c : Capture) : ℕ :=
  (c.chunks .stdout).length + (c.chunks .stderr).length

/-- What holds of a capture to which `delivered` was given. -/
structure Inv (limit : ℕ) (delivered : Stream → Bytes) (c : Capture) : Prop where
  captured : c.captured = c.total
  le : c.captured ≤ limit
  lossless : c.exceeded = false → ∀ stream, c.chunks stream = delivered stream

variable {limit : ℕ} {delivered : Stream → Bytes} {c : Capture}

theorem inv_empty : Inv limit (fun _ => []) empty :=
  ⟨rfl, Nat.zero_le _, fun _ _ => rfl⟩

theorem Inv.total_le (h : c.Inv limit delivered) : c.total ≤ limit := by
  rw [← h.captured]
  exact h.le

theorem total_update (chunks : Stream → Bytes) (captured : ℕ) (exceeded : Bool) (stream : Stream)
    (kept : Bytes) :
    (Capture.mk (Function.update chunks stream (chunks stream ++ kept)) captured exceeded).total =
      (Capture.mk chunks captured exceeded).total + kept.length := by
  cases stream with
  | stdout =>
    simp only [total, Function.update_self, ne_eq, reduceCtorEq, not_false_eq_true,
      Function.update_of_ne, List.length_append]
    omega
  | stderr =>
    simp only [total, Function.update_self, ne_eq, reduceCtorEq, not_false_eq_true,
      Function.update_of_ne, List.length_append]
    omega

/-- A chunk that is given to the capture is retained as far as the budget goes. -/
theorem Inv.retain (h : c.Inv limit delivered) (stream : Stream) (chunk : Bytes) :
    (c.retain limit stream chunk).Inv limit
      (Function.update delivered stream (delivered stream ++ chunk)) := by
  have hle := h.le
  refine ⟨?_, ?_, fun hexceeded other => ?_⟩
  · have htotal := total_update c.chunks (c.captured + min (limit - c.captured) chunk.length)
      (c.exceeded || min (limit - c.captured) chunk.length != chunk.length) stream
      (chunk.take (min (limit - c.captured) chunk.length))
    have hcaptured : c.captured = (Capture.mk c.chunks
        (c.captured + min (limit - c.captured) chunk.length)
        (c.exceeded || min (limit - c.captured) chunk.length != chunk.length)).total := h.captured
    rw [List.length_take, Nat.min_eq_left (Nat.min_le_right _ _), ← hcaptured] at htotal
    exact htotal.symm
  · show c.captured + min (limit - c.captured) chunk.length ≤ limit
    omega
  · simp only [Capture.retain, Bool.or_eq_false_iff, bne_eq_false_iff_eq] at hexceeded ⊢
    rw [hexceeded.2, List.take_length, h.lossless hexceeded.1 stream]
    by_cases hother : other = stream
    · rw [hother, Function.update_self, Function.update_self]
    · rw [Function.update_of_ne hother, Function.update_of_ne hother, h.lossless hexceeded.1 other]

end Capture

/-! ## The result of a runner -/

/-- What a runner raises, by its message. -/
inductive RunError where
  /-- `output_limit_bytes must be a positive integer` -/
  | invalidLimit
  /-- 无法建立独立验证输出选择器；已拒绝不完整验证 -/
  | selector
  /-- 无法建立安全的 POSIX 进程退出监视；拒绝运行独立验证 -/
  | monitor
  /-- 独立验证子进程状态已被外部回收；拒绝生成完整验证证据 -/
  | statusLost
  /-- 独立验证进程在终止信号后仍未退出；拒绝生成完整验证证据 -/
  | stillRunning
  /-- `TimeoutExpired`, with the output so far. -/
  | timeout (stdout stderr : Bytes)
  /-- 独立验证退出后，输出管道未在有界期限内关闭；拒绝使用不完整输出 -/
  | undrained (returnCode : ℤ)
  /-- 独立验证进程组清理未确认（errno={errno}）；拒绝生成完整验证证据 -/
  | groupCleanup (errno : Option ℤ) (returnCode : ℤ)
  /-- 独立验证输出读取失败 -/
  | readFailed
  /-- `VerificationOutputLimitError` -/
  | limit (returnCode : ℤ)
  /-- 独立验证启动失败后，验证进程树清理未确认 -/
  | startCleanup
  /-- Windows Job 绑定失败后，未能确认验证进程树和管道均已清理 -/
  | bindingCleanup
  /-- Windows Job 绑定或主线程恢复失败；验证 payload 未获准运行 -/
  | binding
  /-- 独立验证超时后，验证进程树或输出读取线程清理未确认 -/
  | timeoutCleanup
  /-- 独立验证异常后，验证进程树清理未确认 -/
  | waitCleanup
  /-- 验证器退出后仍有 Job 成员，且进程树/管道清理未确认 -/
  | descendantsCleanup (returnCode : ℤ)
  /-- 验证器退出后仍有 Job 后代；已终止进程树并拒绝生成验证证据 -/
  | descendants (returnCode : ℤ)
  /-- 独立验证退出后，输出读取线程清理未确认；拒绝使用不完整输出 -/
  | readersAlive (returnCode : ℤ)
  /-- Any other exception. -/
  | other
  deriving DecidableEq

/-- How a runner ends. -/
inductive RunResult where
  | returned (returnCode : ℤ) (stdout stderr : Bytes)
  | raised (e : RunError)
  deriving DecidableEq

/-- What the result of a runner is judged by. -/
structure View where
  pipes : Stream → Pipe UInt8
  capture : Capture
  /-- The number of errors that reading a pipe has given. -/
  readErrors : ℕ
  /-- The cleanup of the process is confirmed. -/
  CleanedUp : Prop
  result : Option RunResult

namespace View

/-- The output is all that the process wrote up to the end of both pipes, it fits into the budget,
every read succeeded and the cleanup of the process is confirmed. -/
structure Complete (limit : ℕ) (v : View) (stdout stderr : Bytes) : Prop where
  stdout_eq : stdout = (v.pipes .stdout).written
  stderr_eq : stderr = (v.pipes .stderr).written
  atEnd : ∀ stream, (v.pipes stream).AtEnd
  le : stdout.length + stderr.length ≤ limit
  retained : v.capture.total = stdout.length + stderr.length
  readErrors : v.readErrors = 0
  cleanedUp : v.CleanedUp

/-- A byte was read and not retained, a read failed, a pipe has not ended, or the cleanup is not
confirmed. -/
def Fault (v : View) : Prop :=
  v.capture.total < (v.pipes .stdout).consumed.length + (v.pipes .stderr).consumed.length ∨
    v.readErrors ≠ 0 ∨ (∃ stream, ¬(v.pipes stream).AtEnd) ∨ ¬v.CleanedUp

/-- Never more than the budget is retained; the runner returns complete output only, and raises
after a fault. -/
structure Sound (limit : ℕ) (v : View) : Prop where
  retained : v.capture.total ≤ limit
  returned : ∀ returnCode stdout stderr, v.result = some (.returned returnCode stdout stderr) →
    v.Complete limit stdout stderr
  refused : v.Fault → ∀ result, v.result = some result → ∃ e, result = .raised e

variable {limit : ℕ} {v : View} {stdout stderr : Bytes}

/-- Complete output has no fault. -/
theorem Complete.not_fault (h : v.Complete limit stdout stderr) : ¬v.Fault := by
  rintro (hdropped | herrors | ⟨stream, hend⟩ | hcleanup)
  · have hretained := h.retained
    rw [h.stdout_eq, h.stderr_eq, ← (h.atEnd .stdout).consumed_eq, ← (h.atEnd .stderr).consumed_eq]
      at hretained
    omega
  · exact herrors h.readErrors
  · exact hend (h.atEnd stream)
  · exact hcleanup h.cleanedUp

/-- A runner that returns complete output only raises after a fault. -/
theorem sound_of_returned (hretained : v.capture.total ≤ limit)
    (h : ∀ returnCode stdout stderr, v.result = some (.returned returnCode stdout stderr) →
      v.Complete limit stdout stderr) : v.Sound limit := by
  refine ⟨hretained, h, fun hfault result hresult => ?_⟩
  cases result with
  | returned returnCode stdout stderr =>
    exact absurd hfault (h returnCode stdout stderr hresult).not_fault
  | raised e => exact ⟨e, rfl⟩

/-- What was captured without a loss of pipes that have ended is complete. -/
theorem complete_of_capture (hcapture : v.capture.Inv limit fun k => (v.pipes k).consumed)
    (hexceeded : v.capture.exceeded = false) (hend : ∀ stream, (v.pipes stream).AtEnd)
    (herrors : v.readErrors = 0) (hcleanup : v.CleanedUp) :
    v.Complete limit (v.capture.chunks .stdout) (v.capture.chunks .stderr) where
  stdout_eq := (hcapture.lossless hexceeded .stdout).trans (hend .stdout).consumed_eq
  stderr_eq := (hcapture.lossless hexceeded .stderr).trans (hend .stderr).consumed_eq
  atEnd := hend
  le := hcapture.total_le
  retained := rfl
  readErrors := herrors
  cleanedUp := hcleanup

end View

end Icode.VerificationProcess
