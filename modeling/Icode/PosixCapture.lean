import Icode.Transition
import Icode.VerificationOutput
import Mathlib.Algebra.Order.Ring.Unbundled.Rat

/-!
# The POSIX runner of a verification

`step` is `_run_posix_bounded_output`, one part at a time: the setup, one turn of the loop up to
`selector.select`, and one read of a pipe that is ready. The processes that hold the writing ends
write and close at any time between these parts. What the system answers, and the readings of the
clock, are part of the action.

A pipe leaves the selector at its end or on an error, and the loop is left when none is in it and
the process group was killed and its leader reaped. So every run is sound
(`PosixRun.sound_of_run`): output that is returned is complete, and after a fault the runner raises.
Once the deadlines are over, it ends within two turns (`PosixRun.returnCode_of_deadline`,
`PosixRun.result_of_drainDeadline`).
-/

namespace Icode.VerificationProcess

open Py

/-! ## The process group -/

/-- What `os.killpg` and `proc.kill` do. -/
inductive KillEnd where
  | done
  /-- `ProcessLookupError`. -/
  | lookup
  /-- Another `OSError`. -/
  | error (errno : ℤ)
  deriving DecidableEq

/-- `errno.EPERM` -/
def eperm : ℤ := 1

/-- The answers that `_terminate_posix_verification_group` gets. -/
structure GroupKill where
  killpg : KillEnd
  kill : KillEnd
  /-- `sys.platform == "darwin"` -/
  darwin : Bool
  /-- `_darwin_process_group_has_live_members` -/
  liveMembers : Option Bool
  deriving DecidableEq

/-- `_terminate_posix_verification_group` -/
def GroupKill.terminate (k : GroupKill) (processExited : Bool) : Bool × Option ℤ :=
  match k.killpg with
  | .done => (true, none)
  | .lookup =>
    if processExited then (true, none)
    else
      match k.kill with
      | .error errno => (false, some errno)
      | _ => (true, none)
  | .error errno =>
    if processExited && k.darwin && errno == eperm && k.liveMembers == some false then (true, none)
    else (false, some errno)

/-- The group is gone: the signal was delivered, or there was no group, or `ps` has confirmed that
only zombies are left. -/
def GroupKill.Confirmed (k : GroupKill) : Prop :=
  k.killpg = .done ∨ k.killpg = .lookup ∨ (k.killpg = .error eperm ∧ k.liveMembers = some false)

theorem GroupKill.confirmed_of_terminate {k : GroupKill} (h : (k.terminate true).1 = true) :
    k.Confirmed := by
  unfold terminate at h
  split at h
  · rename_i hk
    exact .inl hk
  · rename_i hk
    exact .inr (.inl hk)
  · rename_i errno hk
    split_ifs at h with hzombies
    simp only [Bool.true_and, Bool.and_eq_true, beq_iff_eq] at hzombies
    obtain ⟨⟨-, rfl⟩, hlive⟩ := hzombies
    exact .inr (.inr ⟨hk, hlive⟩)

/-- How `_reap_posix_verification_process` ends. -/
inductive ReapEnd where
  | exited (returnCode : ℤ)
  /-- `ChildProcessError`. -/
  | lost
  /-- The leader has not exited within the bound. -/
  | running
  deriving DecidableEq

/-- `_reap_posix_verification_process` -/
def ReapEnd.result : ReapEnd → Except RunError ℤ
  | .exited returnCode => .ok returnCode
  | .lost => .error .statusLost
  | .running => .error .stillRunning

/-! ## The state -/

/-- `_VERIFICATION_OUTPUT_DRAIN_TIMEOUT_SECONDS` -/
def drainTimeout : ℚ := 2

/-- What does not change in a run. -/
structure PosixConfig where
  outputLimitBytes : ℕ
  processDeadline : ℚ

/-- The local variables of `_run_posix_bounded_output`, with the pipes of the system. -/
structure PosixRun where
  pipes : Stream → Pipe UInt8
  /-- The selector and the exit monitor are there. -/
  started : Bool
  /-- `selector.get_map()` -/
  registered : List Stream
  /-- What is left of the keys that `select` has given. -/
  ready : List Stream
  capture : Capture
  readErrors : ℕ
  returnCode : Option ℤ
  drainDeadline : Option ℚ
  timedOut : Bool
  groupCleanupOk : Bool
  groupCleanupErrno : Option ℤ
  /-- The calls of `_terminate_posix_verification_group`, with their `process_exited`. -/
  terminations : List (GroupKill × Bool)
  result : Option RunResult

/-- How the setup of the selector and of the exit monitor ends. -/
inductive SetupEnd where
  | done
  | selector
  | monitor
  | other
  deriving DecidableEq

/-- The answers of the system in one turn of the loop. -/
structure Turn where
  /-- The reading of the clock at the head. -/
  now : ℚ
  /-- `exit_monitor.exited(proc)`; `none` raises. -/
  exited : Option Bool
  kill : GroupKill
  reap : ReapEnd
  /-- The reading of the clock after the kill of a timeout. -/
  killed : ℚ
  /-- The reading of the clock before the wait. -/
  later : ℚ
  /-- The keys that `select` gives. -/
  ready : List Stream
  /-- The `finally` block raises nothing. -/
  closes : Bool

/-- How `os.read` and, at the end of a pipe, `key.fileobj.close()` end. -/
inductive ReadEnd where
  | some (size : ℕ) (closes : Bool)
  /-- An `OSError` that is no `BlockingIOError`. -/
  | error

/-- One action. -/
inductive PosixAction where
  /-- A process writes. -/
  | write (stream : Stream) (data : Bytes)
  /-- The last process closes the writing end. -/
  | close (stream : Stream)
  | setup (setupEnd : SetupEnd)
  | turn (turn : Turn)
  | read (readEnd : ReadEnd)
  /-- An exception between the calls, such as `KeyboardInterrupt`. -/
  | interrupt

namespace PosixRun

/-- Right after `Popen`. -/
def initial : PosixRun where
  pipes := fun _ => Pipe.empty
  started := false
  registered := []
  ready := []
  capture := Capture.empty
  readErrors := 0
  returnCode := none
  drainDeadline := none
  timedOut := false
  groupCleanupOk := true
  groupCleanupErrno := none
  terminations := []
  result := none

/-- An exception leaves the function. The handler kills the group if nobody has tried that, which
changes neither the exception nor what was captured. -/
def raise (s : PosixRun) (e : RunError) : PosixRun :=
  { s with result := some (.raised e) }

/-- The group is terminated and the leader reaped. -/
def terminate (s : PosixRun) (t : Turn) (processExited : Bool) (drainStart : ℚ) :
    Except RunError PosixRun :=
  let (ok, errno) := t.kill.terminate processExited
  t.reap.result.map fun returnCode =>
    { s with
      groupCleanupOk := ok && s.groupCleanupOk
      groupCleanupErrno := errno.or s.groupCleanupErrno
      terminations := s.terminations ++ [(t.kill, processExited)]
      returnCode := some returnCode
      drainDeadline := some (drainStart + drainTimeout) }

/-- The first part of a turn: the exit of the process is observed once. -/
def observeExit (s : PosixRun) (t : Turn) : Except RunError (Bool × PosixRun) :=
  if s.returnCode.isSome then .ok (true, s)
  else
    match t.exited with
    | none => .error .other
    | some false => .ok (false, s)
    | some true => (s.terminate t true t.now).map fun s => (true, s)

/-- The second part of a turn: the deadline of the process. -/
def expire (config : PosixConfig) (s : PosixRun) (t : Turn) (processExited : Bool) :
    Except RunError PosixRun :=
  if !processExited && s.returnCode.isNone && config.processDeadline ≤ t.now then
    { s with timedOut := true }.terminate t false t.killed
  else .ok s

/-- The checks after the loop. -/
def finish (s : PosixRun) (t : Turn) (incomplete : Bool) : PosixRun :=
  let code := s.returnCode.getD 0
  if s.timedOut then s.raise (.timeout (s.capture.chunks .stdout) (s.capture.chunks .stderr))
  else if incomplete then s.raise (.undrained code)
  else if !s.groupCleanupOk then s.raise (.groupCleanup s.groupCleanupErrno code)
  else if s.readErrors ≠ 0 then s.raise .readFailed
  else if s.capture.exceeded then s.raise (.limit code)
  else if !t.closes then s.raise .other
  else
    { s with
      result := some (.returned code (s.capture.chunks .stdout) (s.capture.chunks .stderr)) }

/-- What stands after the loop. -/
def conclude (s : PosixRun) (t : Turn) (incomplete : Bool) : PosixRun :=
  if s.returnCode.isSome then s.finish t incomplete
  else
    match s.terminate t false t.killed with
    | .error e => s.raise e
    | .ok s => s.finish t incomplete

/-- One turn of the loop, up to the keys that `select` gives. -/
def turn (config : PosixConfig) (s : PosixRun) (t : Turn) : Option PosixRun :=
  match s.observeExit t with
  | .error e => some (s.raise e)
  | .ok (processExited, s) =>
    if s.returnCode.isSome ∧ s.registered = [] then some (s.conclude t false)
    else
      match s.expire config t processExited with
      | .error e => some (s.raise e)
      | .ok s =>
        if s.registered = [] then some s
        else if s.drainDeadline.any fun deadline => deadline ≤ t.later then
          some (s.conclude t true)
        else if t.ready.Nodup ∧ t.ready ⊆ s.registered then some { s with ready := t.ready }
        else none

/-- The selector forgets a pipe. -/
def unregister (s : PosixRun) (stream : Stream) : PosixRun :=
  { s with registered := s.registered.filter (· ≠ stream) }

/-- The read of one key, of which `rest` are left. -/
def readKey (config : PosixConfig) (s : PosixRun) (stream : Stream) (rest : List Stream) :
    ReadEnd → PosixRun
  | .error => { s.unregister stream with ready := rest, readErrors := s.readErrors + 1 }
  | .some size closes =>
    match (s.pipes stream).read (min size (readChunkBytes - 1)) with
    | (.wouldBlock, _) => { s with ready := rest }
    | (.eof, _) =>
      if closes then { s.unregister stream with ready := rest } else s.raise .other
    | (.data chunk, pipe) =>
      { s with
        ready := rest
        pipes := Function.update s.pipes stream pipe
        capture := s.capture.retain config.outputLimitBytes stream chunk }

/-- One action; an action that cannot be taken now has no successor. -/
def step (config : PosixConfig) (s : PosixRun) : PosixAction → Option PosixRun
  | .write stream data =>
    some { s with pipes := Function.update s.pipes stream ((s.pipes stream).write data) }
  | .close stream =>
    some { s with pipes := Function.update s.pipes stream (s.pipes stream).closeWriters }
  | .setup setupEnd =>
    if s.started || s.result.isSome then none
    else
      match setupEnd with
      | .done => some { s with started := true, registered := [.stdout, .stderr] }
      | .selector => some (s.raise .selector)
      | .monitor => some (s.raise .monitor)
      | .other => some (s.raise .other)
  | .turn t =>
    if s.started && s.ready.isEmpty && s.result.isNone then s.turn config t else none
  | .read readEnd =>
    match s.ready with
    | [] => none
    | stream :: rest =>
      if s.result.isNone then some (s.readKey config stream rest readEnd) else none
  | .interrupt => if s.result.isNone then some (s.raise .other) else none

/-- The group was terminated once, after the exit of its leader was observed, with a confirmed
answer, and the leader was reaped. -/
def CleanedUp (s : PosixRun) : Prop :=
  ∃ k returnCode, s.terminations = [(k, true)] ∧ k.Confirmed ∧ s.returnCode = some returnCode

/-- What the result is judged by. -/
def view (s : PosixRun) : View :=
  ⟨s.pipes, s.capture, s.readErrors, s.CleanedUp, s.result⟩

/-! ## The invariant -/

variable {config : PosixConfig} {s s' : PosixRun} {t : Turn}

/-- What holds in every run. -/
structure Inv (config : PosixConfig) (s : PosixRun) : Prop where
  capture : s.capture.Inv config.outputLimitBytes fun stream => (s.pipes stream).consumed
  /-- A pipe leaves the selector at its end, or on an error. -/
  ended : s.started = true → ∀ stream, stream ∉ s.registered →
    (s.pipes stream).AtEnd ∨ s.readErrors ≠ 0
  fresh : s.returnCode = none → s.terminations = [] ∧ s.timedOut = false
  drain : s.drainDeadline.isSome = true → s.returnCode.isSome = true
  cleanedUp : s.returnCode.isSome = true → s.timedOut = false → s.groupCleanupOk = true →
    s.CleanedUp
  returned : ∀ returnCode stdout stderr, s.result = some (.returned returnCode stdout stderr) →
    s.view.Complete config.outputLimitBytes stdout stderr

theorem inv_initial : Inv config initial where
  capture := Capture.inv_empty
  ended := nofun
  fresh := fun _ => ⟨rfl, rfl⟩
  drain := nofun
  cleanedUp := nofun
  returned := nofun

theorem Inv.raise (h : Inv config s) (e : RunError) : Inv config (s.raise e) :=
  ⟨h.capture, h.ended, h.fresh, h.drain, h.cleanedUp, nofun⟩

/-- What the processes do to a pipe changes nothing that was read, and nothing at its end. -/
theorem Inv.environment (h : Inv config s) (stream : Stream) {pipe : Pipe UInt8}
    (hconsumed : pipe.consumed = (s.pipes stream).consumed)
    (hend : (s.pipes stream).AtEnd → pipe = s.pipes stream) :
    Inv config { s with pipes := Function.update s.pipes stream pipe } := by
  refine ⟨?_, ?_, h.fresh, h.drain, h.cleanedUp, ?_⟩
  · simp only [Pipe.consumed_update hconsumed]
    exact h.capture
  · exact fun hstarted other hother =>
      (h.ended hstarted other hother).imp_left (Pipe.AtEnd.update hend)
  · intro returnCode stdout stderr hresult
    have hcomplete := h.returned returnCode stdout stderr hresult
    rw [Pipe.update_of_atEnd hend (hcomplete.atEnd stream)]
    exact hcomplete

/-- After the leader was reaped, the cleanup was confirmed or is known not to be. -/
theorem Inv.terminate (h : Inv config s) (hresult : s.result = none)
    (hfresh : s.terminations = []) {processExited timedOut : Bool}
    (hexited : processExited = !timedOut) {drainStart : ℚ}
    (hs' : { s with timedOut }.terminate t processExited drainStart = .ok s') :
    Inv config s' ∧ s'.result = none ∧ s'.started = s.started ∧ s'.returnCode.isSome = true := by
  unfold PosixRun.terminate at hs'
  cases hreap : t.reap.result with
  | error e =>
    rw [hreap] at hs'
    cases hs'
  | ok returnCode =>
    rw [hreap] at hs'
    obtain rfl := Except.ok.inj hs'
    refine ⟨⟨h.capture, h.ended, nofun, fun _ => rfl, fun _ htimedOut hok => ?_, ?_⟩, hresult, rfl,
      rfl⟩
    · have htimedOut' : timedOut = false := htimedOut
      rw [htimedOut'] at hexited
      subst hexited
      have hconfirmed : (t.kill.terminate true).1 = true := (Bool.and_eq_true_iff.mp hok).1
      refine ⟨t.kill, returnCode, ?_, GroupKill.confirmed_of_terminate hconfirmed, rfl⟩
      show s.terminations ++ [(t.kill, true)] = [(t.kill, true)]
      rw [hfresh, List.nil_append]
    · intro code stdout stderr hreturned
      have hnone : s.result = some (.returned code stdout stderr) := hreturned
      rw [hresult] at hnone
      cases hnone

/-- Behind the loop, only complete output is returned. -/
theorem Inv.conclude (h : Inv config s) (hcode : s.returnCode.isSome = true) {incomplete : Bool}
    (hend : incomplete = false → ∀ stream, (s.pipes stream).AtEnd ∨ s.readErrors ≠ 0) :
    Inv config (s.conclude t incomplete) := by
  rw [PosixRun.conclude, if_pos hcode]
  unfold finish
  dsimp only
  split_ifs with htimedOut hincomplete hcleanup herrors hexceeded hcloses
  all_goals first | exact h.raise _ | skip
  refine ⟨h.capture, h.ended, h.fresh, h.drain, h.cleanedUp, ?_⟩
  intro code stdout stderr hresult
  obtain ⟨-, rfl, rfl⟩ := RunResult.returned.inj (Option.some.inj hresult)
  have herrors' : s.readErrors = 0 := not_not.mp herrors
  have hatEnd : ∀ stream, (s.pipes stream).AtEnd := fun stream =>
    (hend (by simpa using hincomplete) stream).resolve_right (not_not.mpr herrors')
  have hcleanedUp : s.CleanedUp :=
    h.cleanedUp hcode (by simpa using htimedOut) (by simpa using hcleanup)
  have hlossless : s.capture.exceeded = false := by simpa using hexceeded
  exact View.complete_of_capture h.capture hlossless hatEnd herrors' hcleanedUp

/-- What a turn keeps on its way: the invariant, and that it goes on. -/
structure Going (config : PosixConfig) (s s' : PosixRun) : Prop where
  inv : Inv config s'
  result : s'.result = none
  started : s'.started = s.started

theorem Inv.observeExit (h : Inv config s) (hresult : s.result = none) {processExited : Bool}
    (hs' : s.observeExit t = .ok (processExited, s')) : Going config s s' := by
  unfold PosixRun.observeExit at hs'
  split_ifs at hs' with hcode
  · obtain ⟨-, rfl⟩ := Prod.mk.inj (Except.ok.inj hs')
    exact ⟨h, hresult, rfl⟩
  · obtain ⟨hterminations, htimedOut⟩ := h.fresh (by simpa using hcode)
    split at hs'
    · cases hs'
    · obtain ⟨-, rfl⟩ := Prod.mk.inj (Except.ok.inj hs')
      exact ⟨h, hresult, rfl⟩
    · cases hterminate : s.terminate t true t.now with
      | error e =>
        rw [hterminate] at hs'
        cases hs'
      | ok after =>
        rw [hterminate] at hs'
        obtain ⟨-, rfl⟩ := Prod.mk.inj (Except.ok.inj hs')
        have hsame : { s with timedOut := false } = s := by rw [← htimedOut]
        rw [← hsame] at hterminate
        obtain ⟨hinv, hnone, hstarted, -⟩ := h.terminate hresult hterminations rfl hterminate
        exact ⟨hinv, hnone, hstarted⟩

theorem Inv.expire (h : Inv config s) (hresult : s.result = none) {processExited : Bool}
    (hs' : s.expire config t processExited = .ok s') : Going config s s' := by
  unfold PosixRun.expire at hs'
  split_ifs at hs' with hlate
  · have hcode : s.returnCode = none := by
      simp only [Bool.and_eq_true, Option.isNone_iff_eq_none] at hlate
      exact hlate.1.2
    obtain ⟨hinv, hnone, hstarted, -⟩ := h.terminate hresult (h.fresh hcode).1 rfl hs'
    exact ⟨hinv, hnone, hstarted⟩
  · obtain rfl := Except.ok.inj hs'
    exact ⟨h, hresult, rfl⟩

theorem Inv.turn (h : Inv config s) (hresult : s.result = none) (hstarted : s.started = true)
    (hs' : s.turn config t = some s') : Inv config s' := by
  unfold PosixRun.turn at hs'
  split at hs'
  · obtain rfl := Option.some.inj hs'
    exact h.raise _
  · rename_i processExited observed hobserve
    obtain ⟨hobserved, hnone, hgoing⟩ := h.observeExit hresult hobserve
    split_ifs at hs' with hdone
    · obtain rfl := Option.some.inj hs'
      refine hobserved.conclude hdone.1 fun _ stream => ?_
      exact hobserved.ended (hgoing.trans hstarted) stream (by simp [hdone.2])
    · split at hs'
      · obtain rfl := Option.some.inj hs'
        exact hobserved.raise _
      · rename_i after hexpire
        obtain ⟨hafter, hnone', -⟩ := hobserved.expire hnone hexpire
        split_ifs at hs' with hempty hlate hready
        · obtain rfl := Option.some.inj hs'
          exact hafter
        · obtain rfl := Option.some.inj hs'
          refine hafter.conclude (hafter.drain ?_) nofun
          cases hdeadline : after.drainDeadline with
          | none => simp [hdeadline] at hlate
          | some deadline => rfl
        · obtain rfl := Option.some.inj hs'
          exact ⟨hafter.capture, hafter.ended, hafter.fresh, hafter.drain, hafter.cleanedUp,
            hafter.returned⟩

theorem notMem_unregister {stream other : Stream} (h : other ∉ (s.unregister stream).registered) :
    other = stream ∨ other ∉ s.registered := by
  simp only [unregister, List.mem_filter, decide_eq_true_eq, not_and, not_not] at h
  by_cases hmem : other ∈ s.registered
  · exact .inl (h hmem)
  · exact .inr hmem

theorem Inv.readKey (h : Inv config s) (hresult : s.result = none) (stream : Stream)
    (rest : List Stream) (readEnd : ReadEnd) :
    Inv config (s.readKey config stream rest readEnd) := by
  have hreturned : ∀ {returnCode stdout stderr} {P : Prop},
      s.result = some (.returned returnCode stdout stderr) → P := by
    intro returnCode stdout stderr P hreturned
    rw [hresult] at hreturned
    cases hreturned
  cases readEnd with
  | error =>
    refine ⟨h.capture, fun hstarted other hother => ?_, h.fresh, h.drain, h.cleanedUp,
      fun _ _ _ => hreturned⟩
    exact .inr (Nat.succ_ne_zero _)
  | some size closes =>
    unfold PosixRun.readKey
    dsimp only
    split
    · exact ⟨h.capture, h.ended, h.fresh, h.drain, h.cleanedUp, fun _ _ _ => hreturned⟩
    · rename_i pipe hread
      split_ifs
      · refine ⟨h.capture, fun hstarted other hother => ?_, h.fresh, h.drain, h.cleanedUp,
          fun _ _ _ => hreturned⟩
        rcases notMem_unregister hother with rfl | hother
        · exact .inl (Pipe.read_eof hread).1
        · exact h.ended hstarted other hother
      · exact h.raise _
    · rename_i chunk pipe hread
      obtain ⟨hne, -, hconsumed, -⟩ := Pipe.read_data hread
      refine ⟨?_, fun hstarted other hother => ?_, h.fresh, h.drain, h.cleanedUp,
        fun _ _ _ => hreturned⟩
      · have hdelivered : (fun other => (Function.update s.pipes stream pipe other).consumed) =
            Function.update (fun other => (s.pipes other).consumed) stream
              ((s.pipes stream).consumed ++ chunk) := by
          funext other
          by_cases hother : other = stream
          · rw [hother, Function.update_self, Function.update_self, hconsumed]
          · rw [Function.update_of_ne hother, Function.update_of_ne hother]
        show (s.capture.retain config.outputLimitBytes stream chunk).Inv config.outputLimitBytes
          fun other => (Function.update s.pipes stream pipe other).consumed
        rw [hdelivered]
        exact h.capture.retain stream chunk
      · refine (h.ended hstarted other hother).imp_left (Pipe.AtEnd.update fun hend => ?_)
        rw [hend.read] at hread
        cases hread

/-- Every action keeps the invariant. -/
theorem Inv.step (h : Inv config s) {action : PosixAction} (hs' : s.step config action = some s') :
    Inv config s' := by
  cases action with
  | write stream data =>
    obtain rfl := Option.some.inj hs'
    exact h.environment stream Pipe.consumed_write fun hend => hend.write data
  | close stream =>
    obtain rfl := Option.some.inj hs'
    exact h.environment stream Pipe.consumed_closeWriters Pipe.AtEnd.closeWriters
  | setup setupEnd =>
    unfold PosixRun.step at hs'
    dsimp only at hs'
    split_ifs at hs' with hguard
    simp only [Bool.or_eq_true, not_or, Bool.not_eq_true] at hguard
    cases setupEnd with
    | done =>
      obtain rfl := Option.some.inj hs'
      refine ⟨h.capture, fun _ stream hstream => ?_, h.fresh, h.drain, h.cleanedUp, h.returned⟩
      cases stream <;> simp at hstream
    | _ =>
      obtain rfl := Option.some.inj hs'
      exact h.raise _
  | turn t =>
    unfold PosixRun.step at hs'
    dsimp only at hs'
    split_ifs at hs' with hguard
    simp only [Bool.and_eq_true, Option.isNone_iff_eq_none] at hguard
    exact h.turn hguard.2 hguard.1.1 hs'
  | read readEnd =>
    unfold PosixRun.step at hs'
    dsimp only at hs'
    split at hs'
    · cases hs'
    · split_ifs at hs' with hguard
      obtain rfl := Option.some.inj hs'
      exact h.readKey (Option.isNone_iff_eq_none.mp hguard) _ _ _
  | interrupt =>
    unfold PosixRun.step at hs'
    dsimp only at hs'
    split_ifs at hs'
    obtain rfl := Option.some.inj hs'
    exact h.raise _

/-- Every state that a run reaches is sound. -/
theorem sound_of_run {actions : List PosixAction}
    (hrun : Transition.run (PosixRun.step config) initial actions = some s) :
    s.view.Sound config.outputLimitBytes := by
  have hinv : Inv config s :=
    Transition.run_invariant (fun _ _ _ h hs' => Inv.step h hs') inv_initial hrun
  exact View.sound_of_returned hinv.capture.total_le hinv.returned

/-! ## The deadlines -/

theorem result_conclude (s : PosixRun) (t : Turn) (incomplete : Bool) :
    (s.conclude t incomplete).result.isSome = true := by
  have hfinish : ∀ s : PosixRun, (s.finish t incomplete).result.isSome = true := by
    intro s
    unfold finish
    dsimp only
    split_ifs <;> rfl
  unfold PosixRun.conclude
  split_ifs
  · exact hfinish s
  · split
    · rfl
    · exact hfinish _

theorem returnCode_terminate {processExited : Bool} {drainStart : ℚ}
    (hs' : s.terminate t processExited drainStart = .ok s') : s'.returnCode.isSome = true := by
  unfold PosixRun.terminate at hs'
  cases hreap : t.reap.result with
  | error e =>
    rw [hreap] at hs'
    cases hs'
  | ok returnCode =>
    rw [hreap] at hs'
    obtain rfl := Except.ok.inj hs'
    rfl

/-- An exit that was not observed leaves no return code. -/
theorem observeExit_eq_ok {processExited : Bool}
    (hs' : s.observeExit t = .ok (processExited, s')) :
    s'.returnCode.isSome = true ∨ (processExited = false ∧ s'.returnCode = none) := by
  unfold PosixRun.observeExit at hs'
  split_ifs at hs' with hcode
  · obtain ⟨-, rfl⟩ := Prod.mk.inj (Except.ok.inj hs')
    exact .inl hcode
  · split at hs'
    · cases hs'
    · obtain ⟨rfl, rfl⟩ := Prod.mk.inj (Except.ok.inj hs')
      exact .inr ⟨rfl, by simpa using hcode⟩
    · cases hterminate : s.terminate t true t.now with
      | error e =>
        rw [hterminate] at hs'
        cases hs'
      | ok after =>
        rw [hterminate] at hs'
        obtain ⟨-, rfl⟩ := Prod.mk.inj (Except.ok.inj hs')
        exact .inl (returnCode_terminate hterminate)

/-- A turn that begins after the deadline of the process leaves no process: its leader was reaped,
or the runner has ended. -/
theorem returnCode_of_deadline (hlate : config.processDeadline ≤ t.now)
    (hs' : s.turn config t = some s') : s'.returnCode.isSome = true ∨ s'.result.isSome = true := by
  unfold PosixRun.turn at hs'
  split at hs'
  · obtain rfl := Option.some.inj hs'
    exact .inr rfl
  · rename_i processExited observed hobserve
    split_ifs at hs' with hdone
    · obtain rfl := Option.some.inj hs'
      exact .inr (result_conclude _ _ _)
    · split at hs'
      · obtain rfl := Option.some.inj hs'
        exact .inr rfl
      · rename_i after hexpire
        have hcode : after.returnCode.isSome = true := by
          rcases observeExit_eq_ok hobserve with hcode | ⟨rfl, hcode⟩
          · rw [PosixRun.expire, if_neg (by simp [Option.isSome_iff_ne_none.mp hcode])] at hexpire
            rwa [← Except.ok.inj hexpire]
          · rw [PosixRun.expire, if_pos (by simp [hcode, hlate])] at hexpire
            exact returnCode_terminate hexpire
        split_ifs at hs'
        · obtain rfl := Option.some.inj hs'
          exact .inl hcode
        · obtain rfl := Option.some.inj hs'
          exact .inr (result_conclude _ _ _)
        · obtain rfl := Option.some.inj hs'
          exact .inl hcode

/-- A turn that waits after the deadline of the pipes ends the runner. -/
theorem result_of_drainDeadline {deadline : ℚ} (hdeadline : s.drainDeadline = some deadline)
    (hcode : s.returnCode.isSome = true) (hlate : deadline ≤ t.later)
    (hs' : s.turn config t = some s') : s'.result.isSome = true := by
  have hobserve : s.observeExit t = .ok (true, s) := if_pos hcode
  have hexpire : s.expire config t true = .ok s := if_neg (by simp)
  have hover : (s.drainDeadline.any fun deadline => deadline ≤ t.later) = true := by
    rw [hdeadline, Option.any_some, decide_eq_true hlate]
  simp only [PosixRun.turn, hobserve, hexpire, hcode, hover, true_and, if_true] at hs'
  split_ifs at hs'
  · obtain rfl := Option.some.inj hs'
    exact result_conclude _ _ _
  · obtain rfl := Option.some.inj hs'
    exact result_conclude _ _ _

end PosixRun

end Icode.VerificationProcess
