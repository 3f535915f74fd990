import Icode.PosixCapture

/-!
# The threaded runner of a verification

`step` is `_run_threaded_bounded_output`: two threads read the two pipes, each with blocking reads,
and share the budget under a lock, while the main thread starts them, waits for the process, for its
job to be empty and for the readers, and checks what they have left. The actions of the readers, of
the main thread and of the processes come in any order.

A reader ends at the end of its pipe unless it was told to stop or a read has failed, and it is told
to stop only on the way to an exception. So every run is sound (`ThreadedRun.sound_of_run`), and
with the POSIX runner every run of the bounded-output runner is
(`BoundedConfig.bounded_output_sound`).
-/

namespace Icode.VerificationProcess

open Py

/-! ## The state -/

/-- Where a reader thread stands in `drain`. -/
inductive ReaderPhase where
  | unstarted
  /-- Before `stop_readers.is_set()`. -/
  | checking
  /-- In `stream.read`. -/
  | reading
  /-- Before `with capture_lock`, with a chunk. -/
  | holding (chunk : Bytes)
  /-- In the handler of an exception. -/
  | failing
  /-- In the `finally` block. -/
  | closing
  | finished
  deriving DecidableEq

/-- The chunk that was read and not retained. -/
def ReaderPhase.pending : ReaderPhase → Bytes
  | .holding chunk => chunk
  | _ => []

/-- The thread of the reader runs. -/
def ReaderPhase.Active (phase : ReaderPhase) : Prop :=
  phase ≠ .unstarted ∧ phase ≠ .finished

/-- Why the main thread gives up. -/
inductive Abort where
  /-- A reader did not start. -/
  | start
  /-- `job.assign_and_resume` has raised. -/
  | assign
  /-- `proc.wait` has raised `TimeoutExpired`. -/
  | timeout
  /-- `proc.wait` has raised something else. -/
  | wait
  /-- The job is not empty after the exit of the verifier. -/
  | descendants (returnCode : ℤ)
  deriving DecidableEq

/-- Where the main thread stands. -/
inductive MainPhase where
  | starting (stream : Stream)
  | assigning
  | waiting
  /-- In `job.wait_until_empty`. -/
  | counting (returnCode : ℤ)
  | joining (returnCode : ℤ)
  /-- Behind the joins, with both readers finished. -/
  | judging (returnCode : ℤ)
  | aborting (why : Abort)
  | ended
  deriving DecidableEq

/-- What does not change in a run. -/
structure ThreadedConfig where
  outputLimitBytes : ℕ
  /-- There is a job, as on Windows. -/
  job : Bool

/-- The variables that the threads share, with the pipes of the system. -/
structure ThreadedRun where
  pipes : Stream → Pipe UInt8
  capture : Capture
  readErrors : ℕ
  /-- `stop_readers` -/
  stop : Bool
  reader : Stream → ReaderPhase
  phase : MainPhase
  /-- `proc.wait` has returned. -/
  returnCode : Option ℤ
  /-- `job.wait_until_empty` has returned `True` after that. -/
  jobEmpty : Bool
  result : Option RunResult

/-- The answers that `_terminate_threaded_verification_tree` gets. -/
structure TreeKill where
  assigned : Bool
  /-- `proc.poll()` gives a return code. -/
  exited : Bool
  /-- `proc.kill()` does not raise. -/
  killed : Bool
  /-- `proc.poll()` gives a return code after that. -/
  exitedAfter : Bool
  /-- `proc.wait` returns. -/
  waited : Bool
  /-- `job.wait_until_empty`; `none` raises. -/
  empty : Option Bool
  deriving DecidableEq

/-- `_terminate_threaded_verification_tree` -/
def TreeKill.terminate (k : TreeKill) : Bool :=
  if !k.exited && !k.killed && !k.exitedAfter then false
  else if !k.waited then false
  else if k.assigned then k.empty.getD false
  else true

/-- What a call of a reader gives. -/
inductive ReaderAnswer where
  | done (size : ℕ)
  | error
  deriving DecidableEq

/-- What a call of the main thread gives. -/
inductive MainAnswer where
  | done
  | raised
  | exited (returnCode : ℤ)
  | timedOut
  /-- `_cancel_windows_pipe_readers`, if it is called. -/
  | cancelled (ok : Bool)
  | aborted (kill : TreeKill) (cancelled : Bool)
  deriving DecidableEq

/-- One action. -/
inductive ThreadedAction where
  /-- A process writes. -/
  | write (stream : Stream) (data : Bytes)
  /-- The last process closes the writing end. -/
  | close (stream : Stream)
  | reader (stream : Stream) (answer : ReaderAnswer)
  | main (answer : MainAnswer)
  /-- An exception between the calls of the main thread. -/
  | interrupt

namespace ThreadedRun

/-- Right after `Popen`. -/
def initial : ThreadedRun where
  pipes := fun _ => Pipe.empty
  capture := Capture.empty
  readErrors := 0
  stop := false
  reader := fun _ => .unstarted
  phase := .starting .stdout
  returnCode := none
  jobEmpty := false
  result := none

def setReader (s : ThreadedRun) (stream : Stream) (phase : ReaderPhase) : ThreadedRun :=
  { s with reader := Function.update s.reader stream phase }

/-- An exception leaves the function. -/
def raise (s : ThreadedRun) (e : RunError) : ThreadedRun :=
  { s with phase := .ended, result := some (.raised e) }

/-- `read_errors.append(exc)`, unless the readers were told to stop. -/
def noteError (s : ThreadedRun) : ThreadedRun :=
  { s with readErrors := if s.stop then s.readErrors else s.readErrors + 1 }

/-- One part of `drain`. -/
def readerStep (config : ThreadedConfig) (s : ThreadedRun) (stream : Stream)
    (answer : ReaderAnswer) : Option ThreadedRun :=
  match s.reader stream, answer with
  | .unstarted, _ => none
  | .checking, _ => some (s.setReader stream (if s.stop then .closing else .reading))
  | .reading, .done size =>
    match (s.pipes stream).read (min size (readChunkBytes - 1)) with
    | (.wouldBlock, _) => none
    | (.eof, _) => some (s.setReader stream .closing)
    | (.data chunk, pipe) =>
      some { s.setReader stream (.holding chunk) with
        pipes := Function.update s.pipes stream pipe }
  | .reading, .error => some (s.setReader stream (if s.stop then .closing else .failing))
  | .holding chunk, _ =>
    some { s.setReader stream .checking with
      capture := s.capture.retain config.outputLimitBytes stream chunk }
  | .failing, _ => some (s.noteError.setReader stream .closing)
  | .closing, .done _ => some (s.setReader stream .finished)
  | .closing, .error => some (s.noteError.setReader stream .finished)
  | .finished, _ => none

/-- `not any(reader.is_alive() for reader in readers)`, of the readers that were started. -/
def readersDone (s : ThreadedRun) : Bool :=
  [Stream.stdout, .stderr].all fun stream =>
    s.reader stream == .unstarted || s.reader stream == .finished

/-- `_cancel_windows_pipe_readers` tells the readers to stop, on Windows. -/
def cancel (config : ThreadedConfig) (s : ThreadedRun) : ThreadedRun :=
  { s with stop := s.stop || config.job }

/-- The exception of a main thread that gives up. `timeout` stands for the `TimeoutExpired` with the
output so far, and `other` for the exception that was caught. -/
def abortError (s : ThreadedRun) (cleanupOk readersOk : Bool) : Abort → RunError
  | .start => if cleanupOk then .other else .startCleanup
  | .assign => if cleanupOk && readersOk then .binding else .bindingCleanup
  | .timeout =>
    if cleanupOk && readersOk then
      .timeout (s.capture.chunks .stdout) (s.capture.chunks .stderr)
    else .timeoutCleanup
  | .wait => if cleanupOk then .other else .waitCleanup
  | .descendants returnCode =>
    if cleanupOk && readersOk then .descendants returnCode else .descendantsCleanup returnCode

/-- The readers are cancelled at once, and not joined first. -/
def Abort.cancelsAtOnce : Abort → Bool
  | .start => true
  | .wait => true
  | _ => false

/-- The main thread gives up: the tree is terminated, and the readers are joined or cancelled. -/
def abort (config : ThreadedConfig) (s : ThreadedRun) (why : Abort) (cleanupOk cancelled : Bool) :
    ThreadedRun :=
  if !Abort.cancelsAtOnce why && s.readersDone then s.raise (s.abortError cleanupOk true why)
  else (s.cancel config).raise (s.abortError cleanupOk cancelled why)

/-- The checks behind the joins; `job.close()` may raise. -/
def judge (s : ThreadedRun) (returnCode : ℤ) (closed : Bool) : ThreadedRun :=
  if s.readErrors ≠ 0 then s.raise .readFailed
  else if s.capture.exceeded then s.raise (.limit returnCode)
  else if !closed then s.raise .other
  else
    { s with
      phase := .ended
      result := some (.returned returnCode (s.capture.chunks .stdout) (s.capture.chunks .stderr)) }

/-- One call of the main thread, with what it does until the next call. -/
def mainStep (config : ThreadedConfig) (s : ThreadedRun) (answer : MainAnswer) :
    Option ThreadedRun :=
  match s.phase, answer with
  | .starting .stdout, .done =>
    some { s.setReader .stdout .checking with phase := .starting .stderr }
  | .starting .stderr, .done =>
    some { s.setReader .stderr .checking with
      phase := if config.job then .assigning else .waiting }
  | .starting _, .raised => some { s with phase := .aborting .start }
  | .assigning, .done => some { s with phase := .waiting }
  | .assigning, .raised => some { s with phase := .aborting .assign }
  | .waiting, .exited returnCode =>
    some { s with
      returnCode := some returnCode
      phase := if config.job then .counting returnCode else .joining returnCode }
  | .waiting, .timedOut => some { s with phase := .aborting .timeout }
  | .waiting, .raised => some { s with phase := .aborting .wait }
  | .counting returnCode, .done => some { s with jobEmpty := true, phase := .joining returnCode }
  | .counting returnCode, .raised => some { s with phase := .aborting (.descendants returnCode) }
  | .joining returnCode, .cancelled ok =>
    if s.readersDone then some { s with phase := .judging returnCode }
    else
      some ((s.cancel config).raise
        (if ok then .undrained returnCode else .readersAlive returnCode))
  | .judging returnCode, .done => some (s.judge returnCode true)
  | .judging returnCode, .raised => some (s.judge returnCode false)
  | .aborting why, .aborted kill cancelled => some (s.abort config why kill.terminate cancelled)
  | _, _ => none

/-- One action; an action that cannot be taken now has no successor. -/
def step (config : ThreadedConfig) (s : ThreadedRun) : ThreadedAction → Option ThreadedRun
  | .write stream data =>
    some { s with pipes := Function.update s.pipes stream ((s.pipes stream).write data) }
  | .close stream =>
    some { s with pipes := Function.update s.pipes stream (s.pipes stream).closeWriters }
  | .reader stream answer => s.readerStep config stream answer
  | .main answer => s.mainStep config answer
  | .interrupt => if s.result.isNone then some (s.raise .other) else none

/-- The verifier has exited and was waited for, and its job is empty. -/
def CleanedUp (config : ThreadedConfig) (s : ThreadedRun) : Prop :=
  s.returnCode.isSome = true ∧ (config.job = true → s.jobEmpty = true)

/-- What the result is judged by. -/
def view (config : ThreadedConfig) (s : ThreadedRun) : View :=
  ⟨s.pipes, s.capture, s.readErrors, s.CleanedUp config, s.result⟩

/-! ## The invariant -/

/-- The readers that were started before the main thread came to a phase. -/
def startedStreams : MainPhase → List Stream
  | .starting .stdout => []
  | .starting .stderr => [.stdout]
  | .aborting _ => []
  | .ended => []
  | _ => [.stdout, .stderr]

/-- What holds in every run. -/
structure Inv (config : ThreadedConfig) (s : ThreadedRun) : Prop where
  /-- What was read is what was delivered to the capture, and the chunk that a reader holds. -/
  capture : ∃ delivered, s.capture.Inv config.outputLimitBytes delivered ∧
    ∀ stream, (s.pipes stream).consumed = delivered stream ++ (s.reader stream).pending
  ended : ∀ stream, s.reader stream = .closing ∨ s.reader stream = .finished →
    (s.pipes stream).AtEnd ∨ s.stop = true ∨ s.readErrors ≠ 0
  /-- The readers are told to stop on the way to an exception only. -/
  stopped : s.stop = true → s.phase = .ended
  going : s.phase ≠ .ended → s.result = none
  fresh : ∀ stream, s.phase = .starting stream → s.reader .stderr = .unstarted ∧
    (stream = .stdout → s.reader .stdout = .unstarted)
  launched : ∀ stream ∈ startedStreams s.phase, s.reader stream ≠ .unstarted
  counting : ∀ returnCode, s.phase = .counting returnCode → s.returnCode.isSome = true
  cleanedUp : ∀ returnCode, s.phase = .joining returnCode ∨ s.phase = .judging returnCode →
    s.CleanedUp config
  judging : ∀ returnCode, s.phase = .judging returnCode → ∀ stream, s.reader stream = .finished
  returned : ∀ returnCode stdout stderr, s.result = some (.returned returnCode stdout stderr) →
    (s.view config).Complete config.outputLimitBytes stdout stderr ∧
      ∀ stream, s.reader stream = .finished

variable {config : ThreadedConfig} {s s' : ThreadedRun}

theorem inv_initial : Inv config initial where
  capture := ⟨fun _ => [], Capture.inv_empty, fun _ => rfl⟩
  ended := by rintro stream (h | h) <;> cases h
  stopped := nofun
  going := fun _ => rfl
  fresh := fun _ _ => ⟨rfl, fun _ => rfl⟩
  launched := nofun
  counting := nofun
  cleanedUp := by rintro returnCode (h | h) <;> cases h
  judging := nofun
  returned := nofun

theorem Inv.raise (h : Inv config s) (e : RunError) : Inv config (s.raise e) where
  capture := h.capture
  ended := h.ended
  stopped := fun _ => rfl
  going := fun hphase => absurd rfl hphase
  fresh := nofun
  launched := nofun
  counting := nofun
  cleanedUp := by rintro returnCode (h | h) <;> cases h
  judging := nofun
  returned := nofun

/-- What the processes do to a pipe changes nothing that was read, and nothing at its end. -/
theorem Inv.environment (h : Inv config s) (stream : Stream) {pipe : Pipe UInt8}
    (hconsumed : pipe.consumed = (s.pipes stream).consumed)
    (hend : (s.pipes stream).AtEnd → pipe = s.pipes stream) :
    Inv config { s with pipes := Function.update s.pipes stream pipe } := by
  obtain ⟨delivered, hcapture, hdelivered⟩ := h.capture
  refine ⟨⟨delivered, hcapture, fun other => ?_⟩, fun other hother => ?_, h.stopped, h.going,
    h.fresh, h.launched, h.counting, h.cleanedUp, h.judging,
    fun returnCode stdout stderr hresult => ?_⟩
  · exact (Pipe.consumed_update hconsumed other).trans (hdelivered other)
  · exact (h.ended other hother).imp_left (Pipe.AtEnd.update hend)
  · obtain ⟨hcomplete, hfinished⟩ := h.returned returnCode stdout stderr hresult
    rw [Pipe.update_of_atEnd hend (hcomplete.atEnd stream)]
    exact ⟨hcomplete, hfinished⟩

/-! ## The readers -/

/-- A reader that runs moves on, with its pipe and the capture. -/
theorem Inv.move (h : Inv config s) (stream : Stream) (phase : ReaderPhase) (pipe : Pipe UInt8)
    {capture : Capture} {delivered : Stream → Bytes} (hactive : (s.reader stream).Active)
    (hstarted : phase ≠ .unstarted) (hcapture : capture.Inv config.outputLimitBytes delivered)
    (hdelivered : ∀ other, (Function.update s.pipes stream pipe other).consumed =
      delivered other ++ (Function.update s.reader stream phase other).pending)
    (hpipe : (s.pipes stream).AtEnd → pipe = s.pipes stream)
    (hended : phase = .closing ∨ phase = .finished →
      (s.pipes stream).AtEnd ∨ s.stop = true ∨ s.readErrors ≠ 0) :
    Inv config { s.setReader stream phase with
      pipes := Function.update s.pipes stream pipe, capture } := by
  have hkept : ∀ {other}, s.reader other = .unstarted →
      Function.update s.reader stream phase other = .unstarted := by
    intro other hother
    rw [Function.update_of_ne]
    · exact hother
    · rintro rfl
      exact hactive.1 hother
  refine ⟨⟨delivered, hcapture, hdelivered⟩, fun other hother => ?_, h.stopped, h.going,
    fun other hphase => ?_, fun other hother => ?_, h.counting, h.cleanedUp,
    fun returnCode hphase => ?_, fun returnCode stdout stderr hresult => ?_⟩
  · have hold : (s.pipes other).AtEnd ∨ s.stop = true ∨ s.readErrors ≠ 0 := by
      by_cases heq : other = stream
      · subst heq
        refine hended ?_
        simpa only [ThreadedRun.setReader, Function.update_self] using hother
      · refine h.ended other ?_
        simpa only [ThreadedRun.setReader, Function.update_of_ne heq] using hother
    exact hold.imp_left (Pipe.AtEnd.update hpipe)
  · obtain ⟨hstderr, hstdout⟩ := h.fresh other hphase
    exact ⟨hkept hstderr, fun heq => hkept (hstdout heq)⟩
  · show Function.update s.reader stream phase other ≠ .unstarted
    by_cases heq : other = stream
    · rwa [heq, Function.update_self]
    · rw [Function.update_of_ne heq]
      exact h.launched other hother
  · exact absurd (h.judging returnCode hphase stream) hactive.2
  · exact absurd ((h.returned returnCode stdout stderr hresult).2 stream) hactive.2

/-- A reader that runs moves on, and neither reads nor delivers. -/
theorem Inv.setReader (h : Inv config s) {stream : Stream} {phase : ReaderPhase}
    (hactive : (s.reader stream).Active) (hpending : phase.pending = (s.reader stream).pending)
    (hstarted : phase ≠ .unstarted)
    (hended : phase = .closing ∨ phase = .finished →
      (s.pipes stream).AtEnd ∨ s.stop = true ∨ s.readErrors ≠ 0) :
    Inv config (s.setReader stream phase) := by
  obtain ⟨delivered, hcapture, hdelivered⟩ := h.capture
  have hmove := h.move stream phase (s.pipes stream) hactive hstarted hcapture (fun other => ?_)
    (fun _ => rfl) hended
  · rw [Function.update_eq_self] at hmove
    exact hmove
  · rw [Function.update_eq_self, hdelivered other]
    by_cases heq : other = stream
    · rw [heq, Function.update_self, hpending]
    · rw [Function.update_of_ne heq]

/-- A read error is noted, or the readers were told to stop. -/
theorem Inv.noteError (h : Inv config s) {stream : Stream}
    (hactive : (s.reader stream).Active) :
    Inv config s.noteError ∧ (s.noteError.stop = true ∨ s.noteError.readErrors ≠ 0) := by
  have hstop : s.stop = true ∨ s.noteError.readErrors ≠ 0 := by
    cases hs : s.stop with
    | true => exact .inl rfl
    | false =>
      right
      simp [ThreadedRun.noteError, hs]
  refine ⟨⟨h.capture, fun other hother => ?_, h.stopped, h.going, h.fresh, h.launched, h.counting,
    h.cleanedUp, h.judging, fun returnCode stdout stderr hresult => ?_⟩, hstop⟩
  · exact (h.ended other hother).imp_right fun _ => hstop
  · exact absurd ((h.returned returnCode stdout stderr hresult).2 stream) hactive.2

/-- A reader that was told to stop goes on to its `finally` block. -/
theorem Inv.heedStop (h : Inv config s) {stream : Stream} {phase : ReaderPhase}
    (hactive : (s.reader stream).Active) (hpending : (s.reader stream).pending = [])
    (hphase : phase = .reading ∨ phase = .failing) :
    Inv config (s.setReader stream (if s.stop then .closing else phase)) := by
  refine h.setReader hactive ?_ ?_ fun hended => ?_
  · rw [hpending]
    rcases hphase with rfl | rfl <;> split_ifs <;> rfl
  · rcases hphase with rfl | rfl <;> split_ifs <;> nofun
  · by_cases hstop : s.stop = true
    · exact .inr (.inl hstop)
    · rw [if_neg hstop] at hended
      rcases hphase with rfl | rfl <;> rcases hended with hended | hended <;> cases hended

/-- A reader has read a chunk. -/
theorem Inv.hold (h : Inv config s) {stream : Stream} (hreading : s.reader stream = .reading)
    {size : ℕ} {chunk : Bytes} {pipe : Pipe UInt8}
    (hread : (s.pipes stream).read size = (.data chunk, pipe)) :
    Inv config { s.setReader stream (.holding chunk) with
      pipes := Function.update s.pipes stream pipe } := by
  obtain ⟨delivered, hcapture, hdelivered⟩ := h.capture
  have hactive : (s.reader stream).Active := by simp [ReaderPhase.Active, hreading]
  refine h.move stream (.holding chunk) pipe hactive nofun hcapture (fun other => ?_)
    (fun hend => ?_)
    (by rintro (h | h) <;> cases h)
  · by_cases heq : other = stream
    · subst heq
      have hbefore := hdelivered other
      rw [hreading, show ReaderPhase.reading.pending = [] from rfl, List.append_nil] at hbefore
      rw [Function.update_self, Function.update_self, (Pipe.read_data hread).2.2.1, hbefore]
      rfl
    · rw [Function.update_of_ne heq, Function.update_of_ne heq]
      exact hdelivered other
  · rw [hend.read] at hread
    cases hread

/-- A reader gives its chunk to the capture. -/
theorem Inv.deliver (h : Inv config s) {stream : Stream} {chunk : Bytes}
    (hholding : s.reader stream = .holding chunk) :
    Inv config { s.setReader stream .checking with
      capture := s.capture.retain config.outputLimitBytes stream chunk } := by
  obtain ⟨delivered, hcapture, hdelivered⟩ := h.capture
  have hactive : (s.reader stream).Active := by simp [ReaderPhase.Active, hholding]
  have hmove := h.move stream .checking (s.pipes stream) hactive nofun
    (hcapture.retain stream chunk) (fun other => ?_) (fun _ => rfl)
    (by rintro (h | h) <;> cases h)
  · rw [Function.update_eq_self] at hmove
    exact hmove
  · rw [Function.update_eq_self]
    by_cases heq : other = stream
    · subst heq
      rw [Function.update_self, Function.update_self, hdelivered other, hholding,
        show ReaderPhase.checking.pending = [] from rfl, List.append_nil]
      rfl
    · rw [Function.update_of_ne heq, Function.update_of_ne heq]
      exact hdelivered other

/-- Every part of `drain` keeps the invariant. -/
theorem Inv.readerStep (h : Inv config s) {stream : Stream} {answer : ReaderAnswer}
    (hs' : s.readerStep config stream answer = some s') : Inv config s' := by
  unfold ThreadedRun.readerStep at hs'
  split at hs'
  case h_1 => cases hs'
  case h_2 hphase =>
    obtain rfl := Option.some.inj hs'
    exact h.heedStop (by simp [ReaderPhase.Active, hphase]) (by rw [hphase]; rfl) (.inl rfl)
  case h_3 size hphase =>
    split at hs'
    · cases hs'
    · rename_i pipe hread
      obtain rfl := Option.some.inj hs'
      exact h.setReader (by simp [ReaderPhase.Active, hphase]) (by rw [hphase]; rfl) nofun fun _ =>
        .inl (Pipe.read_eof hread).1
    · rename_i chunk pipe hread
      obtain rfl := Option.some.inj hs'
      exact h.hold hphase hread
  case h_4 hphase =>
    obtain rfl := Option.some.inj hs'
    exact h.heedStop (by simp [ReaderPhase.Active, hphase]) (by rw [hphase]; rfl) (.inr rfl)
  case h_5 chunk hphase =>
    obtain rfl := Option.some.inj hs'
    exact h.deliver hphase
  case h_6 hphase =>
    obtain rfl := Option.some.inj hs'
    have hactive : (s.reader stream).Active := by simp [ReaderPhase.Active, hphase]
    obtain ⟨hinv, hnoted⟩ := h.noteError hactive
    exact hinv.setReader hactive (by rw [show s.noteError.reader = s.reader from rfl, hphase]; rfl)
      nofun fun _ => .inr hnoted
  case h_7 hphase =>
    obtain rfl := Option.some.inj hs'
    exact h.setReader (by simp [ReaderPhase.Active, hphase]) (by rw [hphase]; rfl) nofun fun _ =>
      h.ended stream (.inl hphase)
  case h_8 hphase =>
    obtain rfl := Option.some.inj hs'
    have hactive : (s.reader stream).Active := by simp [ReaderPhase.Active, hphase]
    obtain ⟨hinv, hnoted⟩ := h.noteError hactive
    exact hinv.setReader hactive (by rw [show s.noteError.reader = s.reader from rfl, hphase]; rfl)
      nofun fun _ => .inr hnoted
  case h_9 => cases hs'

/-! ## The main thread -/

/-- The main thread starts a reader. -/
theorem Inv.launch (h : Inv config s) {stream : Stream} (hphase : s.phase = .starting stream)
    {phase : MainPhase} (hnext : stream = .stdout ∧ phase = .starting .stderr ∨
      stream = .stderr ∧ (phase = .assigning ∨ phase = .waiting)) :
    Inv config { s.setReader stream .checking with phase } := by
  obtain ⟨delivered, hcapture, hdelivered⟩ := h.capture
  obtain ⟨hstderr, hstdout⟩ := h.fresh stream hphase
  have hunstarted : s.reader stream = .unstarted := by
    cases stream with
    | stdout => exact hstdout rfl
    | stderr => exact hstderr
  have hresult : s.result = none := h.going (by simp [hphase])
  refine ⟨⟨delivered, hcapture, fun other => ?_⟩, fun other hother => ?_, fun hstop => ?_,
    fun _ => hresult, fun other hother => ?_, fun other hother => ?_, ?_, ?_, ?_, ?_⟩
  · show (s.pipes other).consumed =
      delivered other ++ (Function.update s.reader stream .checking other).pending
    rw [hdelivered other]
    by_cases heq : other = stream
    · rw [heq, Function.update_self, hunstarted]
      rfl
    · rw [Function.update_of_ne heq]
  · refine h.ended other ?_
    by_cases heq : other = stream
    · simp [ThreadedRun.setReader, heq] at hother
    · simpa only [ThreadedRun.setReader, Function.update_of_ne heq] using hother
  · have hended := h.stopped hstop
    rw [hphase] at hended
    cases hended
  · obtain ⟨rfl, rfl⟩ | ⟨rfl, rfl | rfl⟩ := hnext
    · obtain rfl := MainPhase.starting.inj hother
      exact ⟨hstderr, nofun⟩
    · cases hother
    · cases hother
  · show Function.update s.reader stream .checking other ≠ .unstarted
    by_cases heq : other = stream
    · rw [heq, Function.update_self]
      nofun
    · rw [Function.update_of_ne heq]
      refine h.launched other ?_
      rw [hphase]
      obtain ⟨rfl, rfl⟩ | ⟨rfl, -⟩ := hnext
      · exact absurd (List.mem_singleton.mp hother) heq
      · cases other with
        | stdout => exact List.mem_singleton.mpr rfl
        | stderr => exact absurd rfl heq
  · rintro returnCode rfl
    simp at hnext
  · rintro returnCode (rfl | rfl) <;> simp at hnext
  · rintro returnCode rfl
    simp at hnext
  · intro returnCode stdout stderr hreturned
    rw [show s.result = some (.returned returnCode stdout stderr) from hreturned] at hresult
    cases hresult

/-- The main thread comes to another phase behind the starts. -/
theorem Inv.advance (h : Inv config s) (hphase : s.phase ≠ .ended) {phase : MainPhase}
    {returnCode : Option ℤ} {jobEmpty : Bool}
    (hfresh : ∀ stream, phase ≠ .starting stream)
    (hlaunched : ∀ stream ∈ startedStreams phase, s.reader stream ≠ .unstarted)
    (hcounting : ∀ code, phase = .counting code → returnCode.isSome = true)
    (hcleaned : ∀ code, phase = .joining code ∨ phase = .judging code →
      returnCode.isSome = true ∧ (config.job = true → jobEmpty = true))
    (hjudging : ∀ code, phase = .judging code → ∀ stream, s.reader stream = .finished) :
    Inv config { s with phase, returnCode, jobEmpty } where
  capture := h.capture
  ended := h.ended
  stopped := fun hstop => absurd (h.stopped hstop) hphase
  going := fun _ => h.going hphase
  fresh := fun stream hstarting => absurd hstarting (hfresh stream)
  launched := hlaunched
  counting := hcounting
  cleanedUp := hcleaned
  judging := hjudging
  returned := by
    intro code stdout stderr hreturned
    have hresult := h.going hphase
    rw [show s.result = some (.returned code stdout stderr) from hreturned] at hresult
    cases hresult

/-- Telling the readers to stop, with an exception on its way. -/
theorem Inv.cancel_raise (h : Inv config s) (e : RunError) :
    Inv config ((s.cancel config).raise e) := by
  refine ⟨h.capture, fun stream hstream => ?_, fun _ => rfl, fun hphase => absurd rfl hphase, nofun,
    nofun, nofun, ?_, nofun, nofun⟩
  · refine (h.ended stream hstream).imp_right fun hold => hold.imp_left fun hstop => ?_
    show (s.stop || config.job) = true
    rw [hstop, Bool.true_or]
  · rintro returnCode (h | h) <;> cases h

theorem Inv.abort (h : Inv config s) (why : Abort) (cleanupOk cancelled : Bool) :
    Inv config (s.abort config why cleanupOk cancelled) := by
  unfold ThreadedRun.abort
  split_ifs
  · exact h.raise _
  · exact h.cancel_raise _

/-- Behind the joins, only complete output is returned. -/
theorem Inv.judge (h : Inv config s) {returnCode : ℤ} (hphase : s.phase = .judging returnCode)
    (closed : Bool) : Inv config (s.judge returnCode closed) := by
  obtain ⟨delivered, hcapture, hdelivered⟩ := h.capture
  have hfinished := h.judging returnCode hphase
  unfold ThreadedRun.judge
  split_ifs with herrors hexceeded hclosed
  all_goals first | exact h.raise _ | skip
  have herrors' : s.readErrors = 0 := not_not.mp herrors
  have hnotStopped : ¬s.stop = true := by
    intro hstop
    have hended := h.stopped hstop
    rw [hphase] at hended
    cases hended
  have hatEnd : ∀ stream, (s.pipes stream).AtEnd := by
    intro stream
    rcases h.ended stream (.inr (hfinished stream)) with hend | hstop | hread
    · exact hend
    · exact absurd hstop hnotStopped
    · exact absurd herrors' hread
  have hconsumed : delivered = fun stream => (s.pipes stream).consumed := by
    funext stream
    rw [hdelivered stream, hfinished stream, show ReaderPhase.finished.pending = [] from rfl,
      List.append_nil]
  have hlossless : s.capture.exceeded = false := by simpa using hexceeded
  have hcomplete : ∀ result, View.Complete config.outputLimitBytes
      ⟨s.pipes, s.capture, s.readErrors, s.CleanedUp config, result⟩ (s.capture.chunks .stdout)
      (s.capture.chunks .stderr) := fun result =>
    View.complete_of_capture (hconsumed ▸ hcapture) hlossless hatEnd herrors'
      (h.cleanedUp returnCode (.inr hphase))
  refine ⟨⟨delivered, hcapture, hdelivered⟩, h.ended, fun _ => rfl, fun hphase => absurd rfl hphase,
    nofun, nofun, nofun, ?_, nofun, ?_⟩
  · rintro code (h | h) <;> cases h
  · intro code stdout stderr hresult
    obtain ⟨-, rfl, rfl⟩ := RunResult.returned.inj (Option.some.inj hresult)
    exact ⟨hcomplete _, hfinished⟩

theorem finished_of_readersDone (h : Inv config s) {returnCode : ℤ}
    (hphase : s.phase = .joining returnCode) (hdone : s.readersDone = true) (stream : Stream) :
    s.reader stream = .finished := by
  have hmem : stream ∈ [Stream.stdout, .stderr] := by cases stream <;> simp
  have hstarted : s.reader stream ≠ .unstarted := by
    refine h.launched stream ?_
    rw [hphase]
    exact hmem
  have hstream := List.all_eq_true.mp hdone stream hmem
  simpa [hstarted] using hstream

theorem Inv.giveUp (h : Inv config s) (hphase : s.phase ≠ .ended) (why : Abort) :
    Inv config { s with phase := .aborting why } :=
  h.advance hphase nofun nofun nofun (by rintro code (h | h) <;> cases h) nofun

/-- Every call of the main thread keeps the invariant. -/
theorem Inv.mainStep (h : Inv config s) {answer : MainAnswer}
    (hs' : s.mainStep config answer = some s') : Inv config s' := by
  unfold ThreadedRun.mainStep at hs'
  split at hs'
  case h_1 hphase =>
    obtain rfl := Option.some.inj hs'
    exact h.launch hphase (.inl ⟨rfl, rfl⟩)
  case h_2 hphase =>
    obtain rfl := Option.some.inj hs'
    refine h.launch hphase (.inr ⟨rfl, ?_⟩)
    split_ifs
    · exact .inl rfl
    · exact .inr rfl
  case h_3 hphase =>
    obtain rfl := Option.some.inj hs'
    exact h.giveUp (by simp [hphase]) _
  case h_4 hphase =>
    obtain rfl := Option.some.inj hs'
    refine h.advance (by simp [hphase]) nofun ?_ nofun (by rintro code (h | h) <;> cases h) nofun
    have hlaunched := h.launched
    rwa [hphase] at hlaunched
  case h_5 hphase =>
    obtain rfl := Option.some.inj hs'
    exact h.giveUp (by simp [hphase]) _
  case h_6 returnCode hphase =>
    obtain rfl := Option.some.inj hs'
    have hlaunched := h.launched
    rw [hphase] at hlaunched
    refine h.advance (by simp [hphase]) ?_ ?_ (fun _ _ => rfl) ?_ ?_
    · split_ifs <;> nofun
    · split_ifs <;> exact hlaunched
    · intro code hcode
      refine ⟨rfl, fun hjob => ?_⟩
      rw [if_pos hjob] at hcode
      rcases hcode with hcode | hcode <;> cases hcode
    · split_ifs <;> nofun
  case h_7 hphase =>
    obtain rfl := Option.some.inj hs'
    exact h.giveUp (by simp [hphase]) _
  case h_8 hphase =>
    obtain rfl := Option.some.inj hs'
    exact h.giveUp (by simp [hphase]) _
  case h_9 returnCode hphase =>
    obtain rfl := Option.some.inj hs'
    refine h.advance (by simp [hphase]) nofun ?_ nofun
      (fun _ _ => ⟨h.counting returnCode hphase, fun _ => rfl⟩) nofun
    have hlaunched := h.launched
    rwa [hphase] at hlaunched
  case h_10 hphase =>
    obtain rfl := Option.some.inj hs'
    exact h.giveUp (by simp [hphase]) _
  case h_11 returnCode ok hphase =>
    by_cases hdone : s.readersDone = true
    · rw [if_pos hdone] at hs'
      obtain rfl := Option.some.inj hs'
      refine h.advance (by simp [hphase]) nofun ?_ nofun
        (fun _ _ => h.cleanedUp returnCode (.inl hphase))
        fun _ _ => finished_of_readersDone h hphase hdone
      have hlaunched := h.launched
      rwa [hphase] at hlaunched
    · rw [if_neg hdone] at hs'
      obtain rfl := Option.some.inj hs'
      exact h.cancel_raise _
  case h_12 returnCode hphase =>
    obtain rfl := Option.some.inj hs'
    exact h.judge hphase true
  case h_13 returnCode hphase =>
    obtain rfl := Option.some.inj hs'
    exact h.judge hphase false
  case h_14 why kill cancelled hphase =>
    obtain rfl := Option.some.inj hs'
    exact h.abort why _ _
  case h_15 => cases hs'

/-- Every action keeps the invariant. -/
theorem Inv.step (h : Inv config s) {action : ThreadedAction}
    (hs' : s.step config action = some s') : Inv config s' := by
  cases action with
  | write stream data =>
    obtain rfl := Option.some.inj hs'
    exact h.environment stream Pipe.consumed_write fun hend => hend.write data
  | close stream =>
    obtain rfl := Option.some.inj hs'
    exact h.environment stream Pipe.consumed_closeWriters Pipe.AtEnd.closeWriters
  | reader stream answer => exact h.readerStep hs'
  | main answer => exact h.mainStep hs'
  | interrupt =>
    unfold ThreadedRun.step at hs'
    dsimp only at hs'
    split_ifs at hs'
    obtain rfl := Option.some.inj hs'
    exact h.raise _

/-- Every state that a run reaches is sound. -/
theorem sound_of_run {actions : List ThreadedAction}
    (hrun : Transition.run (ThreadedRun.step config) initial actions = some s) :
    (s.view config).Sound config.outputLimitBytes := by
  have hinv : Inv config s :=
    Transition.run_invariant (fun _ _ _ h hs' => Inv.step h hs') inv_initial hrun
  obtain ⟨delivered, hcapture, -⟩ := hinv.capture
  exact View.sound_of_returned hcapture.total_le fun returnCode stdout stderr hresult =>
    (hinv.returned returnCode stdout stderr hresult).1

end ThreadedRun

/-! ## The bounded-output runner -/

/-- The arguments of `_run_unittest_with_bounded_output` that matter here, and the platform. -/
structure BoundedConfig where
  outputLimitBytes : ℕ
  processDeadline : ℚ
  /-- `os.name == "posix"` -/
  posix : Bool
  /-- `sys.platform == "win32"` -/
  win32 : Bool

/-- The runner of the platform. -/
inductive BoundedRun where
  | posix (s : PosixRun)
  | threaded (s : ThreadedRun)

inductive BoundedAction where
  | posix (action : PosixAction)
  | threaded (action : ThreadedAction)

namespace BoundedConfig

def posixConfig (config : BoundedConfig) : PosixConfig :=
  ⟨config.outputLimitBytes, config.processDeadline⟩

def threadedConfig (config : BoundedConfig) : ThreadedConfig :=
  ⟨config.outputLimitBytes, config.win32⟩

/-- `_run_unittest_with_bounded_output`, up to the runner of the platform. -/
def start (config : BoundedConfig) : Except RunError BoundedRun :=
  if config.outputLimitBytes < 1 then .error .invalidLimit
  else if config.posix then .ok (.posix PosixRun.initial)
  else .ok (.threaded ThreadedRun.initial)

/-- One action of the runner of the platform. -/
def step (config : BoundedConfig) : BoundedRun → BoundedAction → Option BoundedRun
  | .posix s, .posix action => (s.step config.posixConfig action).map .posix
  | .threaded s, .threaded action => (s.step config.threadedConfig action).map .threaded
  | _, _ => none

/-- What the result is judged by. -/
def view (config : BoundedConfig) : BoundedRun → View
  | .posix s => s.view
  | .threaded s => s.view config.threadedConfig

variable {config : BoundedConfig}

theorem step_posix (s : PosixRun) (action : BoundedAction) (t : BoundedRun)
    (h : config.step (.posix s) action = some t) :
    ∃ posixAction after, PosixRun.step config.posixConfig s posixAction = some after ∧
      t = .posix after := by
  cases action with
  | posix action =>
    obtain ⟨after, hafter, rfl⟩ := Option.map_eq_some_iff.mp h
    exact ⟨action, after, hafter, rfl⟩
  | threaded action => cases h

theorem step_threaded (s : ThreadedRun) (action : BoundedAction) (t : BoundedRun)
    (h : config.step (.threaded s) action = some t) :
    ∃ threadedAction after, ThreadedRun.step config.threadedConfig s threadedAction = some after ∧
      t = .threaded after := by
  cases action with
  | posix action => cases h
  | threaded action =>
    obtain ⟨after, hafter, rfl⟩ := Option.map_eq_some_iff.mp h
    exact ⟨action, after, hafter, rfl⟩

/-- In every run of the bounded-output runner, at most the limit is retained, what it returns is all
that the process wrote up to the end of both pipes, with the cleanup confirmed, and after a dropped
byte, a read error, with a pipe that has not ended or a cleanup that is not confirmed it raises. -/
theorem bounded_output_sound {first s : BoundedRun} {actions : List BoundedAction}
    (hstart : config.start = .ok first)
    (hrun : Transition.run config.step first actions = some s) :
    (config.view s).Sound config.outputLimitBytes := by
  unfold start at hstart
  split_ifs at hstart
  · obtain rfl := Except.ok.inj hstart
    obtain ⟨posixActions, after, hposix, rfl⟩ := Transition.run_of_step step_posix hrun
    exact PosixRun.sound_of_run hposix
  · obtain rfl := Except.ok.inj hstart
    obtain ⟨threadedActions, after, hthreaded, rfl⟩ := Transition.run_of_step step_threaded hrun
    exact ThreadedRun.sound_of_run hthreaded

/-- A run on Windows: the verifier writes two bytes, and both readers see the ends of their
pipes. -/
def windowsRun : List BoundedAction :=
  ([.main .done, .main .done, .main .done, .write .stdout [111, 107], .reader .stdout (.done 0),
    .reader .stdout (.done 100), .reader .stdout (.done 0), .close .stdout, .close .stderr,
    .main (.exited 0), .reader .stderr (.done 0), .reader .stderr (.done 100), .main .done,
    .reader .stdout (.done 0), .reader .stdout (.done 100), .reader .stdout (.done 0),
    .reader .stderr (.done 0), .main (.cancelled false), .main .done] :
      List ThreadedAction).map .threaded

def windowsConfig : BoundedConfig :=
  ⟨1024, 60, false, true⟩

theorem sound_windowsRun : ∃ s,
    Transition.run windowsConfig.step (.threaded ThreadedRun.initial) windowsRun = some s ∧
      (windowsConfig.view s).result = some (.returned 0 [111, 107] []) ∧
      (windowsConfig.view s).Sound 1024 := by
  have hstart : windowsConfig.start = .ok (.threaded ThreadedRun.initial) := rfl
  obtain ⟨s, hrun, hresult⟩ : ∃ s,
      Transition.run windowsConfig.step (.threaded ThreadedRun.initial) windowsRun = some s ∧
        (windowsConfig.view s).result = some (.returned 0 [111, 107] []) := ⟨_, rfl, rfl⟩
  exact ⟨s, hrun, hresult, bounded_output_sound hstart hrun⟩

end BoundedConfig

end Icode.VerificationProcess
