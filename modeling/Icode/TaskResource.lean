import Icode.PackSignature
import Icode.Transition
import Mathlib.Data.Rat.Defs
import Mathlib.Algebra.Order.Ring.Rat

/-!
# The resource channel of a task

A `LinuxTaskResourceReceiver` reads the messages of a native writer on a thread of its own:
CONFIGURED, which it acknowledges after a callback, and one terminal, and then end of file. What
the kernel delivers, what the clock says and what fails is up to the environment; `close` may stop
the receiver between any two steps of the thread.

`Transcript` says what a complete channel has received. `receiver_sound` says that no other
transcript is reported as complete, that whatever else happens ends with a channel that is
incomplete and a process that has been killed, that the acknowledgement follows the callback in time
and at most once, and that every descriptor received is closed once.
-/

namespace Icode

open Py Transition

/-! ## Messages -/

/-- `SOL_SOCKET` -/
def solSocket : ℤ :=
  1

/-- `SCM_RIGHTS` -/
def scmRights : ℤ :=
  1

/-- `SCM_CREDENTIALS` -/
def scmCredentials : ℤ :=
  2

/-- `MSG_TRUNC | MSG_CTRUNC` -/
def msgTruncated : ℕ :=
  0x20 ||| 0x8

/-- An item of ancillary data. -/
structure Ancillary where
  level : ℤ
  kind : ℤ
  raw : Bytes

/-- What `recvmsg` delivers. -/
structure Delivery where
  payload : Bytes
  ancillary : List Ancillary
  flags : ℕ

/-- A native 32-bit integer. -/
def int32 (b₀ b₁ b₂ b₃ : UInt8) : ℤ :=
  let n : ℤ := b₀.toNat + 256 * b₁.toNat + 65536 * b₂.toNat + 16777216 * b₃.toNat
  if n < 2147483648 then n else n - 4294967296

/-- The native integers at the start of the bytes; what is left over is dropped. -/
def ints : Bytes → List ℤ
  | b₀ :: b₁ :: b₂ :: b₃ :: rest => int32 b₀ b₁ b₂ b₃ :: ints rest
  | _ => []

namespace Ancillary

def isRights (a : Ancillary) : Bool :=
  a.level == solSocket && a.kind == scmRights

def isCredentials (a : Ancillary) : Bool :=
  a.level == solSocket && a.kind == scmCredentials

def malformed (a : Ancillary) : Bool :=
  if a.isRights then true
  else if a.isCredentials then a.raw.length != 12
  else true

/-- `_CREDENTIALS.unpack(raw)`. -/
def credentials? (a : Ancillary) : Option (ℤ × ℤ × ℤ) :=
  if a.malformed then none
  else
    match ints a.raw with
    | [pid, uid, gid] => some (pid, uid, gid)
    | _ => none

end Ancillary

namespace Delivery

def credentials (d : Delivery) : List (ℤ × ℤ × ℤ) :=
  d.ancillary.filterMap Ancillary.credentials?

/-- The descriptors that are received with the message. -/
def rights (d : Delivery) : List ℤ :=
  (d.ancillary.filter Ancillary.isRights).flatMap fun a => ints a.raw

end Delivery

/-- The whole number a big-endian text stands for. -/
def bigEndian (b : Bytes) : ℕ :=
  b.foldl (fun n x => 256 * n + x.toNat) 0

/-- `struct.pack("!I", n)`. -/
def packWord (n : ℕ) : Bytes :=
  [.ofNat (n / 16777216), .ofNat (n / 65536), .ofNat (n / 256), .ofNat n]

/-- `b"ICQR1"` -/
def frameMagic : Bytes :=
  [0x49, 0x43, 0x51, 0x52, 0x31]

/-- `b"ICQA1"` -/
def ackMagic : Bytes :=
  [0x49, 0x43, 0x51, 0x41, 0x31]

/-- `_FRAME`. -/
structure TaskFrame where
  magic : Bytes
  phase : ℕ
  nonce : Bytes
  limit : ℕ
  deriving DecidableEq

/-- `_FRAME.unpack(payload)`, of a payload of `_FRAME.size` bytes. -/
def unpackFrame (payload : Bytes) : Option TaskFrame :=
  if payload.length != 26 then none
  else
    some ⟨payload.take 5, bigEndian ((payload.drop 5).take 1), (payload.drop 6).take 16,
      bigEndian (payload.drop 22)⟩

/-- `_TERMINALS`. -/
def terminals : ℕ → Option PyStr
  | 2 => some (lit "preexec_failed")
  | 3 => some (lit "finished")
  | 4 => some (lit "cleanup_failed")
  | _ => none

/-- The nonce of `icode-task-([0-9a-f]{32})\.scope`. -/
def unitNonce (unit : PyStr) : Option Bytes :=
  let nonce := (unit.drop 11).take 32
  if unit.take 11 == lit "icode-task-" && isHexText 32 nonce && unit.drop 43 == lit ".scope" then
    bytesFromHex nonce
  else none

/-! ## The receiver -/

/-- A receiver that has been bound and started. -/
structure ReceiverConfig where
  unit : PyStr
  nonce : Bytes
  limit : ℕ
  /-- The pid, uid and gid of the writer. -/
  expected : ℤ × ℤ × ℤ
  /-- `bind_process` has been called, not `bind`. -/
  process : Bool
  /-- `on_configured` is given. -/
  onConfigured : Bool
  deadline : ℚ
  configuredDeadline? : Option ℚ
  unit_eq : unitNonce unit = some nonce
  limit_pos : 1 ≤ limit
  limit_le : limit ≤ 2147483647
  pid_lt : 1 < expected.1
  uid_nonneg : 0 ≤ expected.2.1
  gid_nonneg : 0 ≤ expected.2.2

namespace ReceiverConfig

def configuredDeadline (cfg : ReceiverConfig) : ℚ :=
  cfg.configuredDeadline?.elim cfg.deadline (min cfg.deadline)

/-- `_ACK.pack(b"ICQA1", self._nonce, self._limit)`. -/
def ack (cfg : ReceiverConfig) : Bytes :=
  ackMagic ++ cfg.nonce ++ packWord cfg.limit

/-- What `_message` returns of a delivery; `none` if it raises. -/
def message (cfg : ReceiverConfig) (d : Delivery) : Option Bytes :=
  if d.flags &&& msgTruncated != 0 || d.ancillary.any Ancillary.malformed then none
  else if d.payload.isEmpty && !d.ancillary.isEmpty then none
  else if !d.payload.isEmpty && d.credentials != [cfg.expected] then none
  else some d.payload

end ReceiverConfig

/-- Where the thread stands in `_receive`. -/
inductive ReceiverPc where
  /-- `selectors.DefaultSelector()` -/
  | start
  /-- `selector.register` -/
  | register
  /-- `while not self._stop.is_set()` -/
  | loop
  /-- `time.monotonic()` -/
  | clock
  /-- The deadline has passed. -/
  | expired
  | select
  /-- `recvmsg` -/
  | receive
  /-- The `finally` block of `_message`, with the descriptors to close and what is returned. -/
  | drain (descriptors : List ℤ) (payload : Option Bytes)
  /-- `_message` has returned. -/
  | handle (payload : Bytes)
  /-- `self._on_configured` -/
  | callback
  /-- `self._stop.is_set()`, before the acknowledgement. -/
  | stopCheck
  /-- `time.monotonic() >= configured_deadline` -/
  | ackClock
  /-- `self._control.send` -/
  | send
  /-- The acknowledgement has been sent. -/
  | confirm
  /-- `selector.close()`; an exception may be under way. -/
  | closing (raised : Bool)
  /-- `_fail`, under the lock. -/
  | failing
  /-- `self._process.kill()` -/
  | killing
  /-- `self._done.set()` -/
  | ending
  | ended

/-- The descriptors that are still to be closed. -/
def ReceiverPc.pending : ReceiverPc → List ℤ
  | .drain descriptors _ => descriptors
  | _ => []

/-- What the environment answers to a step. -/
inductive ReceiverAnswer where
  /-- Nothing is asked, or what is asked goes well. -/
  | ok
  | raises
  /-- `BlockingIOError` or `InterruptedError`. -/
  | retry
  | time (now : ℚ)
  | ready (any : Bool)
  | delivered (d : Delivery)
  | sent (n : ℕ)

/-- What the thread has done. -/
inductive ReceiverEvent where
  | received (d : Delivery)
  /-- A descriptor has been passed to `os.close`. -/
  | closed (descriptor : ℤ)
  /-- The callback has returned. -/
  | returned
  /-- The clock before the acknowledgement. -/
  | checked (now : ℚ)
  /-- `send` of the acknowledgement; `none` if it raises. -/
  | acked (n : Option ℕ)
  /-- `kill` of the process. -/
  | killed

/-- A `LinuxTaskResourceReceiver` and its thread. -/
structure Receiver where
  stop : Bool
  done : Bool
  configured : Bool
  terminal : Option ℕ
  complete : Bool
  cleanupUnknown : Bool
  runtimeExpired : Bool
  count : ℕ
  pc : ReceiverPc
  log : List ReceiverEvent

inductive ReceiverAction where
  | work (answer : ReceiverAnswer)
  | close

namespace Receiver

def initial : Receiver :=
  ⟨false, false, false, none, false, false, false, 0, .start, []⟩

def goto (x : Receiver) (pc : ReceiverPc) : Receiver :=
  { x with pc := pc }

def emit (x : Receiver) (e : ReceiverEvent) (pc : ReceiverPc) : Receiver :=
  { x with log := x.log ++ [e], pc := pc }

/-- What the loop does with a message. -/
def handle (cfg : ReceiverConfig) (x : Receiver) (payload : Bytes) : Receiver :=
  if payload.isEmpty then
    if x.terminal.isNone then x.goto (.closing true)
    else { x with complete := true, pc := .closing false }
  else
    match unpackFrame payload with
    | none => x.goto (.closing true)
    | some f =>
      if f.magic != frameMagic || f.nonce != cfg.nonce || f.limit != cfg.limit then
        x.goto (.closing true)
      else if 2 ≤ x.count || x.terminal.isSome then x.goto (.closing true)
      else if f.phase == 1 && x.count == 0 then
        x.goto (if cfg.onConfigured then .callback else .stopCheck)
      else if (terminals f.phase).isSome && (x.count == 1 || f.phase == 2 || f.phase == 4) then
        { x with terminal := some f.phase, count := x.count + 1, pc := .loop }
      else x.goto (.closing true)

/-- One step of `_receive`. -/
def work (cfg : ReceiverConfig) (x : Receiver) (answer : ReceiverAnswer) : Option Receiver :=
  match x.pc, answer with
  | .start, .ok => some (x.goto .register)
  | .start, .raises => some { x with cleanupUnknown := true, pc := .failing }
  | .register, .ok => some (x.goto .loop)
  | .register, .raises => some (x.goto (.closing true))
  | .loop, .ok => some (x.goto (if x.stop then .closing true else .clock))
  | .clock, .time now => some (x.goto (if cfg.deadline - now ≤ 0 then .expired else .select))
  | .expired, .ok =>
    some { x with runtimeExpired := x.runtimeExpired || !x.stop, pc := .closing true }
  | .select, .ready any => some (x.goto (if any then .receive else .loop))
  | .select, .raises => some (x.goto (.closing true))
  | .receive, .retry => some (x.goto .loop)
  | .receive, .raises => some (x.goto (.closing true))
  | .receive, .delivered d => some (x.emit (.received d) (.drain d.rights (cfg.message d)))
  | .drain (fd :: fds) m, .ok => some (x.emit (.closed fd) (.drain fds m))
  | .drain (fd :: fds) m, .raises =>
    -- A descriptor whose close is ambiguous is not closed again.
    some { x.emit (.closed fd) (.drain fds m) with cleanupUnknown := true }
  | .drain [] m, .ok => some (x.goto (m.elim (.closing true) .handle))
  | .handle payload, .ok => some (x.handle cfg payload)
  | .callback, .ok => some (x.emit .returned .stopCheck)
  | .callback, .raises => some (x.goto (.closing true))
  | .stopCheck, .ok => some (x.goto (if x.stop then .closing true else .ackClock))
  | .ackClock, .time now =>
    some (x.emit (.checked now) (if cfg.configuredDeadline ≤ now then .closing true else .send))
  | .send, .sent n =>
    some (x.emit (.acked (some n)) (if n != cfg.ack.length then .closing true else .confirm))
  | .send, .raises => some (x.emit (.acked none) (.closing true))
  | .confirm, .ok => some { x with configured := true, count := x.count + 1, pc := .loop }
  | .closing raised, .ok => some (x.goto (if raised then .failing else .ending))
  | .closing _, .raises => some { x with cleanupUnknown := true, pc := .failing }
  | .failing, .ok =>
    some { x with
      terminal := none
      complete := false
      pc := if cfg.process then .killing else .ending }
  | .killing, .ok => some (x.emit .killed .ending)
  | .killing, .raises => some (x.emit .killed .ending)
  | .ending, .ok => some { x with done := true, pc := .ended }
  | _, _ => none

def step (cfg : ReceiverConfig) (x : Receiver) : ReceiverAction → Option Receiver
  | .work answer => x.work cfg answer
  | .close => some { x with stop := true }

end Receiver

/-- What `receipt` returns. -/
structure TaskReceipt where
  schemaVersion : ℕ
  resource : PyStr
  limit : ℕ
  configured : Bool
  payloadStarted : Option Bool
  terminal : Option PyStr
  channelStatus : PyStr

/-- `receipt`. -/
def Receiver.receipt (cfg : ReceiverConfig) (x : Receiver) : TaskReceipt where
  schemaVersion := 1
  resource := lit "linux_payload_tasks"
  limit := cfg.limit
  configured := x.configured
  payloadStarted := if x.complete && x.terminal == some 2 then some false else none
  terminal := if x.complete then x.terminal.bind terminals else none
  channelStatus := if x.complete then lit "complete" else lit "incomplete"

/-! ## Transcripts -/

namespace Receiver

/-- The deliveries of a log. -/
def received (log : List ReceiverEvent) : List Delivery :=
  log.filterMap fun
    | .received d => some d
    | _ => none

/-- The descriptors a log closes. -/
def closed (log : List ReceiverEvent) : List ℤ :=
  log.filterMap fun
    | .closed fd => some fd
    | _ => none

variable (cfg : ReceiverConfig)

/-- The delivery is a frame of the bound writer, for the unit and its limit. -/
structure Frame (phase : ℕ) (d : Delivery) : Prop where
  whole : d.flags &&& msgTruncated = 0
  rights : d.rights = []
  credentials : d.credentials = [cfg.expected]
  frame : unpackFrame d.payload = some ⟨frameMagic, phase, cfg.nonce, cfg.limit⟩

/-- The delivery is the end of the file. -/
structure EndOfFile (d : Delivery) : Prop where
  payload : d.payload = []
  ancillary : d.ancillary = []

/-- The messages of a complete channel, with the phase of its terminal; the flag says whether they
start with CONFIGURED. -/
inductive Transcript : Bool → ℕ → List Delivery → Prop
  | alone {phase : ℕ} {t e : Delivery} (hphase : phase = 2 ∨ phase = 4) (ht : Frame cfg phase t)
      (he : EndOfFile e) : Transcript false phase [t, e]
  | configured {phase : ℕ} {c t e : Delivery} (hphase : phase = 2 ∨ phase = 3 ∨ phase = 4)
      (hc : Frame cfg 1 c) (ht : Frame cfg phase t) (he : EndOfFile e) :
      Transcript true phase [c, t, e]

/-- The acknowledgement may be sent: CONFIGURED is all that has been received, the callback has
returned, and the clock has then been before the deadline. -/
structure Ready (log : List ReceiverEvent) : Prop where
  first : ∀ n, ReceiverEvent.acked n ∉ log
  configured : ∃ d, received log = [d] ∧ Frame cfg 1 d
  inTime : ∃ before now, log = before ++ [.checked now] ∧ now < cfg.configuredDeadline ∧
    (cfg.onConfigured = true → ∃ earlier, before = earlier ++ [.returned])

/-- What the receiver promises, in any state. -/
structure Sound (x : Receiver) : Prop where
  complete : (x.receipt cfg).channelStatus = lit "complete" →
    ∃ phase, (x.receipt cfg).terminal = terminals phase ∧
      Transcript cfg (x.receipt cfg).configured phase (received x.log)
  finished : (x.receipt cfg).terminal = some (lit "finished") →
    (x.receipt cfg).configured = true ∧ .acked (some cfg.ack.length) ∈ x.log
  acked : ∀ before n after, x.log = before ++ .acked n :: after →
    Ready cfg before ∧ ∀ m, ReceiverEvent.acked m ∉ after
  ended : x.done = true → (x.receipt cfg).channelStatus = lit "complete" ∨
    (x.receipt cfg).channelStatus = lit "incomplete" ∧ (x.receipt cfg).terminal = none ∧
      (cfg.process = true → .killed ∈ x.log)
  closes : closed x.log <+: (received x.log).flatMap Delivery.rights
  closed : x.done = true → closed x.log = (received x.log).flatMap Delivery.rights

/-! ## The invariant of the thread -/

/-- The messages handled so far, with the state the loop keeps of them. -/
inductive Reads : Bool → ℕ → Option ℕ → List Delivery → Prop
  | nothing : Reads false 0 none []
  | configured {c : Delivery} (hc : Frame cfg 1 c) : Reads true 1 none [c]
  | alone {phase : ℕ} {t : Delivery} (hphase : phase = 2 ∨ phase = 4) (ht : Frame cfg phase t) :
      Reads false 1 (some phase) [t]
  | both {phase : ℕ} {c t : Delivery} (hphase : phase = 2 ∨ phase = 3 ∨ phase = 4)
      (hc : Frame cfg 1 c) (ht : Frame cfg phase t) : Reads true 2 (some phase) [c, t]

variable {cfg} {x y : Receiver} {log : List ReceiverEvent} {e : ReceiverEvent}

variable (cfg) in
/-- The loop has handled the deliveries, and goes on. -/
structure Open (x : Receiver) (ds : List Delivery) : Prop where
  complete : x.complete = false
  reads : Reads cfg x.configured x.count x.terminal ds
  acked : x.configured = false → ∀ n, ReceiverEvent.acked n ∉ x.log

variable (cfg) in
/-- CONFIGURED has been received, and is all that has been received. -/
structure Answering (x : Receiver) : Prop where
  complete : x.complete = false
  configured : x.configured = false
  count : x.count = 0
  terminal : x.terminal = none
  received : ∃ d, received x.log = [d] ∧ Frame cfg 1 d

variable (cfg) in
/-- The messages of a complete channel have been received. -/
def Finished (x : Receiver) : Prop :=
  ∃ phase, x.terminal = some phase ∧ Transcript cfg x.configured phase (received x.log)

variable (cfg) in
/-- What holds where the thread stands. -/
def At (x : Receiver) : ReceiverPc → Prop
  | .start | .register | .loop | .clock | .expired | .select | .receive =>
    Open cfg x (received x.log)
  | .drain _ m => ∃ ds d, received x.log = ds ++ [d] ∧ Open cfg x ds ∧ m = cfg.message d
  | .handle p => ∃ ds d, received x.log = ds ++ [d] ∧ Open cfg x ds ∧ some p = cfg.message d
  | .callback => Answering cfg x ∧ ∀ n, ReceiverEvent.acked n ∉ x.log
  | .stopCheck | .ackClock => Answering cfg x ∧ (∀ n, ReceiverEvent.acked n ∉ x.log) ∧
      (cfg.onConfigured = true → ∃ earlier, x.log = earlier ++ [.returned])
  | .send => Answering cfg x ∧ Ready cfg x.log
  | .confirm => Answering cfg x ∧ .acked (some cfg.ack.length) ∈ x.log
  | .closing true => x.complete = false
  | .closing false => x.complete = true ∧ Finished cfg x
  | .failing => x.complete = true → Finished cfg x
  | .killing => x.complete = false
  | .ending | .ended => (x.complete = true ∧ Finished cfg x) ∨
      (x.complete = false ∧ (cfg.process = true → .killed ∈ x.log))

variable (cfg) in
/-- The acknowledgement has been sent once at most, and when it could be. -/
def Acked (log : List ReceiverEvent) : Prop :=
  ∀ before n after, log = before ++ .acked n :: after →
    Ready cfg before ∧ ∀ m, ReceiverEvent.acked m ∉ after

variable (cfg) in
/-- What every step keeps. -/
structure Inv (x : Receiver) : Prop where
  stands : At cfg x x.pc
  configured : x.configured = true → .acked (some cfg.ack.length) ∈ x.log
  acked : Acked cfg x.log
  closes : closed x.log ++ x.pc.pending = (received x.log).flatMap Delivery.rights
  done : x.done = true → x.pc = .ended

/-! ### Logs -/

@[simp] theorem received_append (l r : List ReceiverEvent) :
    received (l ++ r) = received l ++ received r :=
  List.filterMap_append

@[simp] theorem closed_append (l r : List ReceiverEvent) :
    closed (l ++ r) = closed l ++ closed r :=
  List.filterMap_append

/-- A longer log splits before its end, or at it. -/
theorem split_append {before after : List ReceiverEvent} {a : ReceiverEvent}
    (h : log ++ [e] = before ++ a :: after) :
    (after = [] ∧ e = a ∧ log = before) ∨
      ∃ after', after = after' ++ [e] ∧ log = before ++ a :: after' := by
  rcases List.eq_nil_or_concat after with rfl | ⟨after', b, rfl⟩
  · obtain ⟨hl, he⟩ := List.append_inj' h rfl
    exact Or.inl ⟨rfl, List.singleton_inj.mp he, hl⟩
  · have hcons : log ++ [e] = (before ++ a :: after') ++ [b] := by
      rw [h]
      simp
    obtain ⟨hl, he⟩ := List.append_inj' hcons rfl
    obtain rfl := List.singleton_inj.mp he
    exact Or.inr ⟨after', by simp, hl⟩

theorem Acked.append (h : Acked cfg log) (he : ∀ n, e = .acked n → Ready cfg log) :
    Acked cfg (log ++ [e]) := by
  intro before n after hsplit
  rcases split_append hsplit with ⟨rfl, rfl, rfl⟩ | ⟨after', rfl, rfl⟩
  · exact ⟨he n rfl, by simp⟩
  · obtain ⟨hready, hafter⟩ := h before n after' rfl
    refine ⟨hready, fun m hm => ?_⟩
    rcases List.mem_append.mp hm with hm | hm
    · exact hafter m hm
    · -- A second acknowledgement is not ready.
      exact (he m (List.mem_singleton.mp hm).symm).first n
        (List.mem_append_right _ List.mem_cons_self)

theorem acked_nil : Acked cfg [] := fun _ _ _ h =>
  absurd h.symm (by simp)

/-! ### Messages -/

theorem message_eq_some {d : Delivery} {p : Bytes} (h : some p = cfg.message d) :
    p = d.payload ∧ d.flags &&& msgTruncated = 0 ∧ d.ancillary.any Ancillary.malformed = false ∧
      (p = [] → d.ancillary = []) ∧ (p ≠ [] → d.credentials = [cfg.expected]) := by
  unfold ReceiverConfig.message at h
  split_ifs at h with hflags hempty hcredentials
  obtain rfl := Option.some.inj h
  simp only [Bool.or_eq_true, bne_iff_ne, not_or, not_not, Bool.not_eq_true] at hflags
  simp only [Bool.and_eq_true, List.isEmpty_iff, Bool.not_eq_true', List.isEmpty_eq_false_iff,
    not_and, not_not, bne_iff_ne] at hempty hcredentials
  exact ⟨rfl, hflags.1, hflags.2, hempty, hcredentials⟩

theorem rights_eq_nil {d : Delivery} (h : d.ancillary.any Ancillary.malformed = false) :
    d.rights = [] := by
  have hnone : d.ancillary.filter Ancillary.isRights = [] := by
    refine List.filter_eq_nil_iff.mpr fun a ha hr => ?_
    have := List.any_eq_false.mp h a ha
    simp [Ancillary.malformed, hr] at this
  rw [Delivery.rights, hnone]
  rfl

/-- A message that is not empty and has a frame of the unit in it is a frame. -/
theorem frame_of_message {d : Delivery} {p : Bytes} {f : TaskFrame} (h : some p = cfg.message d)
    (hp : p ≠ []) (hf : unpackFrame p = some f) (hm : f.magic = frameMagic)
    (hn : f.nonce = cfg.nonce) (hl : f.limit = cfg.limit) : Frame cfg f.phase d := by
  obtain ⟨rfl, hflags, hmalformed, -, hcredentials⟩ := message_eq_some h
  refine ⟨hflags, rights_eq_nil hmalformed, hcredentials hp, ?_⟩
  rw [hf, ← hm, ← hn, ← hl]

/-! ### Steps -/

/-- What the assertions read is the same. -/
structure Alike (x y : Receiver) : Prop where
  complete : y.complete = x.complete
  configured : y.configured = x.configured
  count : y.count = x.count
  terminal : y.terminal = x.terminal
  log : y.log = x.log

theorem Open.of_alike {ds : List Delivery} (hxy : Alike x y) (h : Open cfg x ds) :
    Open cfg y ds where
  complete := hxy.complete.trans h.complete
  reads := by
    rw [hxy.configured, hxy.count, hxy.terminal]
    exact h.reads
  acked := by
    rw [hxy.configured, hxy.log]
    exact h.acked

theorem Answering.of_alike (hxy : Alike x y) (h : Answering cfg x) : Answering cfg y where
  complete := hxy.complete.trans h.complete
  configured := hxy.configured.trans h.configured
  count := hxy.count.trans h.count
  terminal := hxy.terminal.trans h.terminal
  received := by
    rw [hxy.log]
    exact h.received

theorem At.of_alike {pc : ReceiverPc} (hxy : Alike x y) (h : At cfg x pc) : At cfg y pc := by
  cases pc
  case closing raised => cases raised <;> simpa [At, Finished, hxy.1, hxy.2, hxy.4, hxy.5] using h
  case drain =>
    obtain ⟨ds, d, hd, ho, hm⟩ := h
    exact ⟨ds, d, hxy.log ▸ hd, ho.of_alike hxy, hm⟩
  case handle =>
    obtain ⟨ds, d, hd, ho, hm⟩ := h
    exact ⟨ds, d, hxy.log ▸ hd, ho.of_alike hxy, hm⟩
  case callback => exact ⟨h.1.of_alike hxy, hxy.log ▸ h.2⟩
  case stopCheck => exact ⟨h.1.of_alike hxy, hxy.log ▸ h.2⟩
  case ackClock => exact ⟨h.1.of_alike hxy, hxy.log ▸ h.2⟩
  case send => exact ⟨h.1.of_alike hxy, hxy.log ▸ h.2⟩
  case confirm => exact ⟨h.1.of_alike hxy, hxy.log ▸ h.2⟩
  case failing => simpa [At, Finished, hxy.1, hxy.2, hxy.4, hxy.5] using h
  case killing => exact hxy.complete.trans h
  case ending => simpa [At, Finished, hxy.1, hxy.2, hxy.4, hxy.5] using h
  case ended => simpa [At, Finished, hxy.1, hxy.2, hxy.4, hxy.5] using h
  all_goals
    show Open cfg y (received y.log)
    rw [hxy.log]
    exact Open.of_alike hxy h

theorem Inv.running (h : Inv cfg x) (hpc : x.pc ≠ .ended) : x.done = false := by
  by_contra hdone
  exact hpc (h.done (by simpa using hdone))

/-- A step that leaves the log as it is. -/
theorem Inv.of_log_eq (h : Inv cfg x) (hlog : y.log = x.log) (hpending : y.pc.pending = x.pc.pending)
    (hdone : y.done = true → y.pc = .ended)
    (hconfigured : y.configured = true → .acked (some cfg.ack.length) ∈ x.log)
    (hstands : At cfg y y.pc) : Inv cfg y where
  stands := hstands
  configured := by rwa [hlog]
  acked := by
    rw [hlog]
    exact h.acked
  closes := by
    rw [hlog, hpending]
    exact h.closes
  done := hdone

theorem Inv.goto {pc : ReceiverPc} (h : Inv cfg x) (hpc : x.pc ≠ .ended)
    (hpending : pc.pending = x.pc.pending) (hstands : At cfg x pc) : Inv cfg (x.goto pc) := by
  refine h.of_log_eq rfl hpending (fun hdone => ?_) h.configured (y := x.goto pc) ?_
  · exact absurd hdone (by simp [Receiver.goto, h.running hpc])
  · have hxy : Alike x (x.goto pc) := ⟨rfl, rfl, rfl, rfl, rfl⟩
    exact hstands.of_alike hxy

/-- A step that does something. -/
theorem Inv.emit {pc : ReceiverPc} (h : Inv cfg x) (hpc : x.pc ≠ .ended)
    (he : ∀ n, e = .acked n → Ready cfg x.log)
    (hcloses : closed (x.log ++ [e]) ++ pc.pending =
      (received (x.log ++ [e])).flatMap Delivery.rights)
    (hstands : At cfg (x.emit e pc) pc) : Inv cfg (x.emit e pc) where
  stands := hstands
  configured := fun hc => List.mem_append_left _ (h.configured hc)
  acked := h.acked.append he
  closes := hcloses
  done := fun hdone => absurd hdone (by simp [Receiver.emit, h.running hpc])

theorem inv_initial : Inv cfg initial where
  stands := ⟨rfl, .nothing, by simp [initial]⟩
  configured := nofun
  acked := acked_nil
  closes := rfl
  done := nofun

/-- A step that only changes what the assertions do not read. -/
theorem Inv.of_alike (h : Inv cfg x) (hxy : Alike x y) (hpc : x.pc ≠ .ended)
    (hpending : y.pc.pending = x.pc.pending) (hdone : y.done = x.done)
    (hstands : At cfg x y.pc) : Inv cfg y := by
  refine h.of_log_eq hxy.log hpending (fun hd => ?_) ?_ (hstands.of_alike hxy)
  · exact absurd (hdone.symm.trans hd) (by simp [h.running hpc])
  · rw [hxy.configured]
    exact h.configured

/-- The end of the file. -/
theorem transcript_of_eof {ds : List Delivery} {d : Delivery} {phase : ℕ} (ho : Open cfg x ds)
    (he : EndOfFile d) (hterminal : x.terminal = some phase) :
    Transcript cfg x.configured phase (ds ++ [d]) := by
  have hreads := ho.reads
  rw [hterminal] at hreads
  generalize x.configured = configured at hreads ⊢
  generalize x.count = count at hreads
  cases hreads with
  | alone hphase ht => exact .alone hphase ht he
  | both hphase hc ht => exact .configured hphase hc ht he

/-- A terminal. -/
theorem reads_of_terminal {ds : List Delivery} {d : Delivery} {phase : ℕ} (ho : Open cfg x ds)
    (hf : Frame cfg phase d) (hterminal : x.terminal = none)
    (hphase : phase = 2 ∨ phase = 3 ∨ phase = 4) (hfirst : x.count = 1 ∨ phase = 2 ∨ phase = 4) :
    Reads cfg x.configured (x.count + 1) (some phase) (ds ++ [d]) := by
  have hreads := ho.reads
  rw [hterminal] at hreads
  generalize x.configured = configured at hreads ⊢
  generalize x.count = count at hreads hfirst ⊢
  cases hreads with
  | nothing => exact .alone (by omega) hf
  | configured hc => exact .both hphase hc hf

/-- CONFIGURED is the first message. -/
theorem answering_of_first {ds : List Delivery} {d : Delivery} (hd : received x.log = ds ++ [d])
    (ho : Open cfg x ds) (hf : Frame cfg 1 d) (hcount : x.count = 0) :
    Answering cfg x ∧ ∀ n, ReceiverEvent.acked n ∉ x.log := by
  obtain ⟨hcomplete, hreads, hacked⟩ := ho
  rw [hcount] at hreads
  generalize hc : x.configured = configured at hreads
  generalize ht : x.terminal = terminal at hreads
  cases hreads with
  | nothing => exact ⟨⟨hcomplete, hc, hcount, ht, d, hd, hf⟩, hacked hc⟩

theorem terminals_isSome {phase : ℕ} (h : (terminals phase).isSome = true) :
    phase = 2 ∨ phase = 3 ∨ phase = 4 := by
  unfold terminals at h
  split at h <;> simp_all

theorem Inv.handle {p : Bytes} (h : Inv cfg x) (hpc : x.pc = .handle p) :
    Inv cfg (x.handle cfg p) := by
  have hend : x.pc ≠ .ended := by simp [hpc]
  have hrunning := h.running hend
  have hpending : x.pc.pending = [] := by rw [hpc]; rfl
  have hstands := h.stands
  rw [hpc] at hstands
  obtain ⟨ds, d, hd, ho, hm⟩ := hstands
  have hfail : Inv cfg (x.goto (.closing true)) := h.goto hend hpending.symm ho.complete
  unfold Receiver.handle
  by_cases hempty : p.isEmpty
  · rw [if_pos hempty]
    split
    · exact hfail
    · rename_i hterminal
      obtain ⟨phase, hphase⟩ := Option.ne_none_iff_exists'.mp (by simpa using hterminal)
      obtain ⟨rfl, -, -, hancillary, -⟩ := message_eq_some hm
      have hp : d.payload = [] := List.isEmpty_iff.mp hempty
      have htranscript := transcript_of_eof ho ⟨hp, hancillary hp⟩ hphase
      rw [← hd] at htranscript
      exact h.of_log_eq rfl hpending.symm (fun hdone => absurd hdone (by simp [hrunning]))
        h.configured ⟨rfl, phase, hphase, htranscript⟩
  rw [if_neg hempty]
  have hp : p ≠ [] := fun hp => hempty (by simp [hp])
  split
  · exact hfail
  rename_i f hf
  split
  · exact hfail
  rename_i hfields
  simp only [Bool.or_eq_true, bne_iff_ne, not_or, not_not] at hfields
  have hframe := frame_of_message hm hp hf hfields.1.1 hfields.1.2 hfields.2
  split
  · exact hfail
  rename_i hmany
  simp only [Bool.or_eq_true, decide_eq_true_eq, not_or, not_le, Bool.not_eq_true,
    Option.isSome_eq_false_iff, Option.isNone_iff_eq_none] at hmany
  split
  · rename_i hfirst
    simp only [Bool.and_eq_true, beq_iff_eq] at hfirst
    have hanswering := answering_of_first hd ho (hfirst.1 ▸ hframe) hfirst.2
    split
    · exact h.goto hend hpending.symm hanswering
    · rename_i hcallback
      exact h.goto hend hpending.symm ⟨hanswering.1, hanswering.2, fun hc => absurd hc hcallback⟩
  split
  · rename_i hlast
    simp only [Bool.and_eq_true, Bool.or_eq_true, beq_iff_eq, or_assoc] at hlast
    have hreads := reads_of_terminal ho hframe hmany.2 (terminals_isSome hlast.1) hlast.2
    rw [← hd] at hreads
    exact h.of_log_eq rfl hpending.symm (fun hdone => absurd hdone (by simp [hrunning]))
      h.configured ⟨ho.complete, hreads, ho.acked⟩
  · exact hfail

/-- Something is done to which neither messages nor descriptors belong. -/
theorem Inv.emit_other {pc : ReceiverPc} (h : Inv cfg x) (hpc : x.pc ≠ .ended)
    (hx : x.pc.pending = []) (hp : pc.pending = []) (hr : received [e] = []) (hc : closed [e] = [])
    (he : ∀ n, e = .acked n → Ready cfg x.log) (hstands : At cfg (x.emit e pc) pc) :
    Inv cfg (x.emit e pc) := by
  refine h.emit hpc he ?_ hstands
  have hcloses := h.closes
  rw [hx] at hcloses
  rw [received_append, closed_append, hr, hc, hp]
  simpa using hcloses

/-- A descriptor of the message is closed. -/
theorem Inv.emit_closed {fd : ℤ} {fds : List ℤ} {m : Option Bytes} (h : Inv cfg x)
    (hpc : x.pc = .drain (fd :: fds) m) : Inv cfg (x.emit (.closed fd) (.drain fds m)) := by
  have hstands := h.stands
  have hcloses := h.closes
  rw [hpc] at hstands hcloses
  obtain ⟨ds, d, hd, ho, hm⟩ := hstands
  refine h.emit (by simp [hpc]) nofun ?_ ⟨ds, d, ?_, ⟨ho.complete, ho.reads, ?_⟩, hm⟩
  · simpa [received, closed, ReceiverPc.pending] using hcloses
  · simpa [Receiver.emit, received] using hd
  · intro hc n hn
    simp only [Receiver.emit, List.mem_append, List.mem_singleton, reduceCtorEq, or_false] at hn
    exact ho.acked hc n hn

/-- A message is received. -/
theorem Inv.emit_received {d : Delivery} (h : Inv cfg x) (hpc : x.pc = .receive) :
    Inv cfg (x.emit (.received d) (.drain d.rights (cfg.message d))) := by
  have hstands := h.stands
  have hcloses := h.closes
  rw [hpc] at hstands hcloses
  refine h.emit (by simp [hpc]) nofun ?_ ⟨received x.log, d, ?_, ⟨hstands.complete,
    hstands.reads, fun hc n hn => ?_⟩, rfl⟩
  · have hall : closed x.log = (received x.log).flatMap Delivery.rights := by
      simpa [ReceiverPc.pending] using hcloses
    rw [received_append, closed_append, hall]
    simp [received, closed, ReceiverPc.pending]
  · simp [Receiver.emit, received]
  · simp only [Receiver.emit, List.mem_append, List.mem_singleton, reduceCtorEq, or_false] at hn
    exact hstands.acked hc n hn

theorem Answering.emit {pc : ReceiverPc} (h : Answering cfg x) (hr : Receiver.received [e] = []) :
    Answering cfg (x.emit e pc) where
  complete := h.complete
  configured := h.configured
  count := h.count
  terminal := h.terminal
  received := by
    obtain ⟨d, hd, hf⟩ := h.received
    exact ⟨d, by rw [Receiver.emit, received_append, hd, hr, List.append_nil], hf⟩

/-- CONFIGURED has been acknowledged. -/
theorem open_of_confirm (h : Answering cfg x) :
    Open cfg { x with configured := true, count := x.count + 1, pc := .loop } (received x.log) where
  complete := h.complete
  reads := by
    obtain ⟨d, hd, hf⟩ := h.received
    rw [hd, h.count]
    show Reads cfg true 1 x.terminal [d]
    rw [h.terminal]
    exact .configured hf
  acked := nofun

theorem Inv.work {a : ReceiverAnswer} (h : Inv cfg x) (hw : x.work cfg a = some y) :
    Inv cfg y := by
  have hstands := h.stands
  have hgoto : ∀ {pc}, x.pc ≠ .ended → pc.pending = x.pc.pending → At cfg x pc →
      Inv cfg (x.goto pc) := h.goto
  cases hpc : x.pc <;> rw [hpc] at hstands hgoto <;> cases a <;>
    simp only [Receiver.work, hpc, Option.some.injEq, reduceCtorEq] at hw
  case start.ok =>
    subst hw
    exact hgoto nofun rfl hstands
  case start.raises =>
    subst hw
    exact h.of_alike ⟨rfl, rfl, rfl, rfl, rfl⟩ (by simp [hpc]) (by rw [hpc]; rfl) rfl
      fun hc => absurd (hstands.complete.symm.trans hc) nofun
  case register.ok =>
    subst hw
    exact hgoto nofun rfl hstands
  case register.raises =>
    subst hw
    exact hgoto nofun rfl hstands.complete
  case loop.ok =>
    subst hw
    split
    · exact hgoto nofun rfl hstands.complete
    · exact hgoto nofun rfl hstands
  case clock.time now =>
    subst hw
    split
    · exact hgoto nofun rfl hstands
    · exact hgoto nofun rfl hstands
  case expired.ok =>
    subst hw
    exact h.of_alike ⟨rfl, rfl, rfl, rfl, rfl⟩ (by simp [hpc]) (by rw [hpc]; rfl) rfl
      hstands.complete
  case select.ready any =>
    subst hw
    split
    · exact hgoto nofun rfl hstands
    · exact hgoto nofun rfl hstands
  case select.raises =>
    subst hw
    exact hgoto nofun rfl hstands.complete
  case receive.retry =>
    subst hw
    exact hgoto nofun rfl hstands
  case receive.raises =>
    subst hw
    exact hgoto nofun rfl hstands.complete
  case receive.delivered d =>
    subst hw
    exact h.emit_received hpc
  case drain.ok fds m =>
    cases fds with
    | nil =>
      obtain rfl := Option.some.inj hw
      obtain ⟨ds, d, hd, ho, hm⟩ := hstands
      cases m with
      | none => exact hgoto nofun rfl ho.complete
      | some p => exact hgoto nofun rfl ⟨ds, d, hd, ho, hm⟩
    | cons fd fds =>
      obtain rfl := Option.some.inj hw
      exact h.emit_closed hpc
  case drain.raises fds m =>
    cases fds with
    | nil => cases hw
    | cons fd fds =>
      obtain rfl := Option.some.inj hw
      have hclosed := h.emit_closed hpc
      exact hclosed.of_alike ⟨rfl, rfl, rfl, rfl, rfl⟩ nofun rfl rfl hclosed.stands
  case handle.ok p =>
    subst hw
    exact h.handle hpc
  case callback.ok =>
    subst hw
    exact h.emit_other (by simp [hpc]) (by rw [hpc]; rfl) rfl rfl rfl nofun
      ⟨hstands.1.emit rfl, fun n hn => hstands.2 n (by simpa [Receiver.emit] using hn),
        fun _ => ⟨x.log, rfl⟩⟩
  case callback.raises =>
    subst hw
    exact hgoto nofun rfl hstands.1.complete
  case stopCheck.ok =>
    subst hw
    split
    · exact hgoto nofun rfl hstands.1.complete
    · exact hgoto nofun rfl hstands
  case ackClock.time now =>
    subst hw
    obtain ⟨hanswering, hacked, hreturned⟩ := hstands
    split
    · exact h.emit_other (by simp [hpc]) (by rw [hpc]; rfl) rfl rfl rfl nofun hanswering.complete
    · rename_i hlate
      have hanswering' : Answering cfg (x.emit (.checked now) .send) := hanswering.emit rfl
      refine h.emit_other (by simp [hpc]) (by rw [hpc]; rfl) rfl rfl rfl nofun
        ⟨hanswering', fun n hn => hacked n (by simpa [Receiver.emit] using hn),
          hanswering'.received, x.log, now, rfl, not_le.mp hlate, hreturned⟩
  case send.sent n =>
    subst hw
    obtain ⟨hanswering, hready⟩ := hstands
    split
    · exact h.emit_other (by simp [hpc]) (by rw [hpc]; rfl) rfl rfl rfl (fun _ _ => hready)
        hanswering.complete
    · rename_i hn
      obtain rfl : n = cfg.ack.length := by simpa using hn
      exact h.emit_other (by simp [hpc]) (by rw [hpc]; rfl) rfl rfl rfl (fun _ _ => hready)
        ⟨hanswering.emit rfl, List.mem_append_right _ (List.mem_singleton_self _)⟩
  case send.raises =>
    subst hw
    exact h.emit_other (by simp [hpc]) (by rw [hpc]; rfl) rfl rfl rfl (fun _ _ => hstands.2)
      hstands.1.complete
  case confirm.ok =>
    subst hw
    exact h.of_log_eq rfl (by rw [hpc]; rfl)
      (fun hd => absurd hd (by simp [h.running (by simp [hpc])])) (fun _ => hstands.2)
      (open_of_confirm hstands.1)
  case closing.ok raised =>
    subst hw
    cases raised with
    | true => exact hgoto nofun rfl fun hc => absurd (Eq.trans (Eq.symm hstands) hc) nofun
    | false => exact hgoto nofun rfl (Or.inl hstands)
  case closing.raises raised =>
    subst hw
    refine h.of_alike ⟨rfl, rfl, rfl, rfl, rfl⟩ (by simp [hpc]) (by rw [hpc]; rfl) rfl fun hc => ?_
    cases raised with
    | true => exact absurd (Eq.trans (Eq.symm hstands) hc) nofun
    | false => exact hstands.2
  case failing.ok =>
    subst hw
    refine h.of_log_eq rfl ?_ (fun hd => absurd hd (by simp [h.running (by simp [hpc])]))
      h.configured ?_
    · rw [hpc]
      show (if cfg.process then ReceiverPc.killing else .ending).pending = []
      split <;> rfl
    · show At cfg _ (if cfg.process then ReceiverPc.killing else .ending)
      split
      · rfl
      · rename_i hprocess
        exact Or.inr ⟨rfl, fun hp => absurd hp hprocess⟩
  case killing.ok =>
    subst hw
    exact h.emit_other (by simp [hpc]) (by rw [hpc]; rfl) rfl rfl rfl nofun
      (Or.inr ⟨hstands, fun _ => List.mem_append_right _ (List.mem_singleton_self _)⟩)
  case killing.raises =>
    subst hw
    exact h.emit_other (by simp [hpc]) (by rw [hpc]; rfl) rfl rfl rfl nofun
      (Or.inr ⟨hstands, fun _ => List.mem_append_right _ (List.mem_singleton_self _)⟩)
  case ending.ok =>
    subst hw
    exact h.of_log_eq rfl (by rw [hpc]; rfl) (fun _ => rfl) h.configured hstands

theorem Inv.step {a : ReceiverAction} (h : Inv cfg x) (hs : x.step cfg a = some y) : Inv cfg y := by
  cases a with
  | work a => exact h.work hs
  | close =>
    obtain rfl := Option.some.inj hs
    have hxy : Alike x { x with stop := true } := ⟨rfl, rfl, rfl, rfl, rfl⟩
    exact h.of_log_eq rfl rfl h.done h.configured (h.stands.of_alike hxy)

/-! ## Every run -/

/-- The messages are those of a complete channel when the channel is said to be complete. -/
theorem Inv.finished (h : Inv cfg x) (hc : x.complete = true) : Finished cfg x := by
  have hfalse : x.complete ≠ false := by simp [hc]
  have hstands := h.stands
  cases hpc : x.pc <;> rw [hpc] at hstands
  case drain =>
    obtain ⟨ds, d, -, ho, -⟩ := hstands
    exact absurd ho.complete hfalse
  case handle =>
    obtain ⟨ds, d, -, ho, -⟩ := hstands
    exact absurd ho.complete hfalse
  case callback => exact absurd hstands.1.complete hfalse
  case stopCheck => exact absurd hstands.1.complete hfalse
  case ackClock => exact absurd hstands.1.complete hfalse
  case send => exact absurd hstands.1.complete hfalse
  case confirm => exact absurd hstands.1.complete hfalse
  case closing raised =>
    cases raised with
    | true => exact absurd hstands hfalse
    | false => exact hstands.2
  case failing => exact hstands hc
  case killing => exact absurd hstands hfalse
  case ending => exact (hstands.resolve_right fun hn => hfalse hn.1).2
  case ended => exact (hstands.resolve_right fun hn => hfalse hn.1).2
  all_goals exact absurd hstands.complete hfalse

theorem Transcript.configured_of_finished {configured : Bool} {phase : ℕ} {ds : List Delivery}
    (h : Transcript cfg configured phase ds)
    (hphase : Icode.terminals phase = some (lit "finished")) : configured = true := by
  cases h with
  | alone hp => rcases hp with rfl | rfl <;> simp [Icode.terminals] at hphase
  | configured => rfl

theorem complete_of_status (h : (x.receipt cfg).channelStatus = lit "complete") :
    x.complete = true := by
  by_contra hc
  simp [receipt, hc] at h

theorem Inv.sound (h : Inv cfg x) : Sound cfg x where
  complete hstatus := by
    have hc := complete_of_status hstatus
    obtain ⟨phase, hterminal, htranscript⟩ := h.finished hc
    exact ⟨phase, by simp [receipt, hc, hterminal], htranscript⟩
  finished hterminal := by
    have hc : x.complete = true := by
      by_contra hc
      simp [receipt, hc] at hterminal
    obtain ⟨phase, hphase, htranscript⟩ := h.finished hc
    have hfinished : Icode.terminals phase = some (lit "finished") := by
      simpa [receipt, hc, hphase] using hterminal
    have hconfigured := htranscript.configured_of_finished hfinished
    exact ⟨hconfigured, h.configured hconfigured⟩
  acked := h.acked
  ended hdone := by
    have hstands := h.stands
    rw [h.done hdone] at hstands
    rcases hstands with ⟨hc, -⟩ | ⟨hc, hkilled⟩
    · exact Or.inl (by simp [receipt, hc])
    · exact Or.inr ⟨by simp [receipt, hc], by simp [receipt, hc], hkilled⟩
  closes := ⟨x.pc.pending, h.closes⟩
  closed hdone := by
    have hcloses := h.closes
    rw [h.done hdone] at hcloses
    simpa [ReceiverPc.pending] using hcloses

/-! ## The end of the thread -/

/-- How far the thread is from its end, or from the next look at the clock. -/
def rank : ReceiverPc → ℕ
  | .select => 20
  | .receive => 19
  | .drain _ _ => 18
  | .handle _ => 17
  | .callback => 16
  | .stopCheck => 15
  | .ackClock => 14
  | .send => 13
  | .confirm => 12
  | .start => 11
  | .register => 10
  | .loop => 9
  | .clock => 8
  | .expired => 7
  | .closing _ => 6
  | .failing => 5
  | .killing => 4
  | .ending => 3
  | .ended => 2

variable (cfg) in
/-- A step of the thread that is not a look at the clock that finds time left. -/
def LateStep (y x : Receiver) : Prop :=
  ∃ a, x.work cfg a = some y ∧ ¬∃ now, x.pc = .clock ∧ a = .time now ∧ now < cfg.deadline

theorem rank_handle {p : Bytes} : rank (x.handle cfg p).pc < 17 := by
  unfold Receiver.handle
  split
  · split <;> simp [Receiver.goto, rank]
  · split
    · simp [Receiver.goto, rank]
    · split_ifs <;> simp [Receiver.goto, rank]

/-- Such a step comes closer to the end, or closes a descriptor. -/
theorem LateStep.lt (h : LateStep cfg y x) :
    Prod.Lex (· < ·) (· < ·) (rank y.pc, y.pc.pending.length) (rank x.pc, x.pc.pending.length) := by
  obtain ⟨a, hw, hlate⟩ := h
  rw [Prod.lex_def]
  cases hpc : x.pc <;> cases a <;>
    simp only [Receiver.work, hpc, Option.some.injEq, reduceCtorEq] at hw
  case clock.time now =>
    subst hw
    have hpassed : cfg.deadline - now ≤ 0 := by
      by_contra hleft
      exact hlate ⟨now, hpc, rfl, by linarith⟩
    exact Or.inl (by simp [hpassed, Receiver.goto, rank])
  case drain.ok fds m =>
    cases fds with
    | nil =>
      obtain rfl := Option.some.inj hw
      cases m <;> exact Or.inl (by simp [Receiver.goto, rank])
    | cons fd fds =>
      obtain rfl := Option.some.inj hw
      exact Or.inr ⟨rfl, Nat.lt_succ_self _⟩
  case drain.raises fds m =>
    cases fds with
    | nil => cases hw
    | cons fd fds =>
      obtain rfl := Option.some.inj hw
      exact Or.inr ⟨rfl, Nat.lt_succ_self _⟩
  case handle.ok p =>
    subst hw
    exact Or.inl rank_handle
  all_goals
    subst hw
    refine Or.inl ?_
    simp only [Receiver.goto, Receiver.emit]
    first
    | split <;> simp [rank]
    | simp [rank]

/-- A thread that has not ended is not stuck. -/
theorem exists_work (cfg : ReceiverConfig) (x : Receiver) (h : x.pc ≠ .ended) :
    ∃ a y, x.work cfg a = some y := by
  obtain ⟨stop, done, configured, terminal, complete, cleanupUnknown, runtimeExpired, count, pc,
    log⟩ := x
  cases pc
  case clock => exact ⟨.time 0, _, rfl⟩
  case select => exact ⟨.ready false, _, rfl⟩
  case receive => exact ⟨.retry, _, rfl⟩
  case drain fds m => cases fds <;> exact ⟨.ok, _, rfl⟩
  case ackClock => exact ⟨.time 0, _, rfl⟩
  case send => exact ⟨.raises, _, rfl⟩
  case ended => exact absurd rfl h
  all_goals exact ⟨.ok, _, rfl⟩

/-- In every run the receiver is sound, and its thread comes to its end unless the clock keeps
finding time left. -/
theorem receiver_sound (cfg : ReceiverConfig) :
    (∀ actions, Always (step cfg) (Sound cfg) initial actions) ∧
      WellFounded (LateStep cfg) ∧ ∀ x : Receiver, x.pc ≠ .ended → ∃ a y, x.work cfg a = some y := by
  refine ⟨fun actions => ?_, ?_, exists_work cfg⟩
  · exact always_of_invariant (fun _ => Inv.sound) (fun _ _ _ => Inv.step) inv_initial
  · refine Subrelation.wf (fun h => LateStep.lt h)
      (InvImage.wf (fun x : Receiver => (rank x.pc, x.pc.pending.length)) ?_)
    exact WellFounded.prod_lex wellFounded_lt wellFounded_lt

end Receiver

end Icode
