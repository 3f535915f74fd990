import Icode.History
import Icode.RunnerProtocol

/-!
# The session of the runner pipe

`Server` is the host's end of the pipe (`RunnerPipeServer`). Each call of a method
comes with the answers of the system to its reads and writes, the bytes of the
peer stand in `incoming`, and `step` gives the outcome of the call as an `Event`.

`Step` says once what a call can do, and `step_spec` that the methods do no more.
`orderly_run` says of every sequence of calls and every stream of the peer that the
outputs accepted are numbered 1, 2, 3, …, that at most one answer to a cancel is
accepted, after a cancel was written, and at most one terminal message, the last
one accepted, that at most one spawn and one cancel are written, in that order, and
that after a failure nothing is accepted or written.
-/

namespace Icode.RunnerPipe

open History Py RunnerProtocol

/-- `_MAX_TIMEOUT_MS`. -/
def maxTimeoutMs : ℤ := 120000

inductive PipeError where
  | protocol (e : RunnerProtocolError)
  /-- `RuntimeError`. -/
  | runtime (code : String)
  /-- `ValueError`. -/
  | value (code : String)
  /-- `OSError` or `TimeoutError`. -/
  | os
  deriving DecidableEq, Repr

/-- An error of the protocol is raised as it is. -/
def ofProtocol {α : Type} : Except RunnerProtocolError α → Except PipeError α
  | .ok a => .ok a
  | .error e => .error (.protocol e)

@[simp] theorem ofProtocol_eq_ok {α : Type} {x : Except RunnerProtocolError α} {a : α} :
    ofProtocol x = .ok a ↔ x = .ok a := by
  cases x <;> simp [ofProtocol]

/-- `_validate_timeout`. -/
def validateTimeout : Json → Except PipeError Unit
  | .int n => require (decide (1 ≤ n ∧ n ≤ maxTimeoutMs)) (.value "invalid_pipe_timeout")
  | _ => .error (.value "invalid_pipe_timeout")

/-- `_SID_RE`; the long s matches `S` in any case too. -/
def isSid : PyStr → Bool
  | c :: .scalar '-' :: .scalar '1' :: .scalar '-' :: rest =>
    let parts := splitOn (.scalar '-') rest
    (c == .scalar 'S' || c == .scalar 's' || c == .scalar 'ſ') &&
      decide (2 ≤ parts.length ∧ parts.length ≤ 16) &&
      parts.all fun part => !part.isEmpty && part.all fun d => 48 ≤ d.ord && d.ord ≤ 57
  | _ => false

/-- `_validate_sid`. -/
def validateSid : Json → Except PipeError Unit
  | .str sid => require (isSid sid) (.value "invalid_runner_sid")
  | _ => .error (.value "invalid_runner_sid")

/-- The check of `request_id` in `wait_for_runner_ready`. -/
def checkRequestId : Json → Except PipeError PyStr
  | .str requestId => do
    require (isHexText 32 requestId) (.value "invalid_request_id")
    pure requestId
  | _ => .error (.value "invalid_request_id")

/-! ## Reads -/

/-- How a read goes: to its end when the bytes are there, or until it fails. -/
inductive ReadResult where
  | arrives
  | fails (taken : ℕ)
  deriving DecidableEq, Repr

/-- `_read_exact`, and the bytes behind it. -/
def readExact (incoming : Bytes) (length : ℕ) : ReadResult → Except PipeError Bytes × Bytes
  | .fails taken => (.error .os, incoming.drop taken)
  | .arrives =>
    if length ≤ incoming.length then (.ok (incoming.take length), incoming.drop length)
    else (.error .os, [])

/-- The outcome of a call: what it wrote or accepted, or how it failed. -/
inductive Event where
  | wrote (message : Members) (frame : Bytes)
  /-- Some of the frame may have been written. -/
  | writeFailed (message : Members) (frame : Bytes)
  | accepted (message : Members)
  /-- Receiving failed, or the handshake. -/
  | broken (e : PipeError)
  /-- The call raised before it used the pipe. -/
  | refused (e : PipeError)
  | ready
  | closed

/-- A call of a method, with the answers of the system. -/
inductive Call where
  | sendMessage (message : Members) (timeoutMs : Json) (written : Bool)
  | receiveMessage (timeoutMs : Json) (header body : ReadResult)
  | waitForRunnerReady (expectedUserSid expectedLogonSid requestId timeoutMs : Json)
      (connects : Bool) (header body : ReadResult) (authentic : Bool)
  | close

/-! ## The server -/

/-- `RunnerPipeServer`, with the bytes of the peer that were not read yet. -/
structure Server where
  handle : Bool
  connected : Bool
  readyAttempted : Bool
  authenticatedRequestId : Option PyStr
  spawnRequestSent : Bool
  cancelRequestSent : Bool
  cancelAckReceived : Bool
  nextOutputSequence : ℕ
  terminalReceived : Bool
  protocolFailed : Bool
  incoming : Bytes

/-- The types `receive_message` accepts. -/
def runnerMessageTypes : List PyStr :=
  ["output", "exit", "error", "cancel_ack"]

/-- The types `send_message` writes. -/
def serverMessageTypes : List PyStr :=
  ["spawn_request", "cancel_request"]

namespace Server

def init (incoming : Bytes) : Server :=
  ⟨true, false, false, none, false, false, false, 1, false, false, incoming⟩

/-- The checks of `_receive_wire_message` before it reads. -/
def prepareReceive (s : Server) (timeoutMs : Json) : Except PipeError Unit := do
  require s.connected (.runtime "runner_pipe_not_connected")
  validateTimeout timeoutMs

/-- `_receive_wire_message`, and the bytes behind it. -/
def receiveWireMessage (s : Server) (timeoutMs : Json) (header body : ReadResult) :
    Except PipeError Members × Bytes :=
  match s.prepareReceive timeoutMs with
  | .error e => (.error e, s.incoming)
  | .ok () =>
    match readExact s.incoming 4 header with
    | (.error e, rest) => (.error e, rest)
    | (.ok head, rest) =>
      let bodyLength := unpackUint32 head
      if bodyLength = 0 ∨ maxFrameBytes < bodyLength then
        (.error (.protocol ⟨"frame_too_large_or_empty"⟩), rest)
      else
        match readExact rest bodyLength body with
        | (.error e, rest) => (.error e, rest)
        | (.ok content, rest) => (ofProtocol (decodeFrame (head ++ content)), rest)

/-- `_require_authenticated`. -/
def requireAuthenticated (s : Server) : Except PipeError PyStr := do
  let requestId ← orRaise s.authenticatedRequestId (.runtime "runner_pipe_not_authenticated")
  require (!s.protocolFailed) (.protocol ⟨"runner_pipe_session_failed"⟩)
  require (!s.terminalReceived) (.protocol ⟨"runner_pipe_terminal_message_received"⟩)
  pure requestId

/-- `send_message` up to the write: the frame. -/
def prepareSend (s : Server) (message : Members) (timeoutMs : Json) : Except PipeError Bytes := do
  let requestId ← s.requireAuthenticated
  validateTimeout timeoutMs
  ofProtocol (validateCorrelation (.obj message) requestId)
  let kind := message.get "type"
  require (isNamed serverMessageTypes kind) (.protocol ⟨"unsupported_server_message_type"⟩)
  if kind.isText "spawn_request" then do
    require (!s.cancelRequestSent) (.protocol ⟨"runner_request_cancelled"⟩)
    require (!s.spawnRequestSent) (.protocol ⟨"spawn_request_already_sent"⟩)
  else
    require (!s.cancelRequestSent) (.protocol ⟨"cancel_request_already_sent"⟩)
  ofProtocol (encodeFrame (.obj message))

/-- `send_message`. -/
def sendMessage (s : Server) (message : Members) (timeoutMs : Json) (written : Bool) :
    Event × Server :=
  match s.prepareSend message timeoutMs with
  | .error e => (.refused e, s)
  | .ok frame =>
    if !written then (.writeFailed message frame, { s with protocolFailed := true })
    else if (message.get "type").isText "spawn_request" then
      (.wrote message frame, { s with spawnRequestSent := true })
    else (.wrote message frame, { s with cancelRequestSent := true })

/-- `receive_message` behind `_receive_wire_message`. -/
def accept (s : Server) (requestId : PyStr) (message : Members) : Except PipeError Server := do
  ofProtocol (validateCorrelation (.obj message) requestId)
  let kind := message.get "type"
  require (isNamed runnerMessageTypes kind) (.protocol ⟨"unsupported_runner_message_type"⟩)
  if kind.isText "cancel_ack" then do
    require s.cancelRequestSent (.protocol ⟨"unsolicited_cancel_ack"⟩)
    require (!s.cancelAckReceived) (.protocol ⟨"duplicate_cancel_ack"⟩)
    pure { s with cancelAckReceived := true }
  else do
    require s.spawnRequestSent (.protocol ⟨"runner_response_before_spawn"⟩)
    if kind.isText "output" then do
      require ((message.get "sequence").pyEq (.int s.nextOutputSequence))
        (.protocol ⟨"output_sequence_mismatch"⟩)
      pure { s with nextOutputSequence := s.nextOutputSequence + 1 }
    else pure { s with terminalReceived := true }

/-- `receive_message`. -/
def receiveMessage (s : Server) (timeoutMs : Json) (header body : ReadResult) : Event × Server :=
  match s.requireAuthenticated with
  | .error e => (.refused e, s)
  | .ok requestId =>
    let (received, rest) := s.receiveWireMessage timeoutMs header body
    let s := { s with incoming := rest }
    match (do
      let message ← received
      let s' ← s.accept requestId message
      pure (message, s')) with
    | .error e => (.broken e, { s with protocolFailed := true })
    | .ok (message, s') => (.accepted message, s')

/-- The checks of `wait_for_runner_ready` before it connects. -/
def prepareReady (s : Server) (expectedUserSid expectedLogonSid requestId timeoutMs : Json) :
    Except PipeError PyStr := do
  validateSid expectedUserSid
  validateSid expectedLogonSid
  let requestId ← checkRequestId requestId
  validateTimeout timeoutMs
  require (!s.readyAttempted) (.runtime "runner_ready_already_attempted")
  pure requestId

/-- The message of the handshake, and the client behind the pipe, are as expected. -/
def checkReady (requestId : PyStr) (authentic : Bool) (message : Members) :
    Except PipeError Unit := do
  require ((message.get "type").isText "spawn_ready")
    (.protocol ⟨"runner_ready_message_required"⟩)
  ofProtocol (validateCorrelation (.obj message) requestId)
  require authentic .os

/-- `wait_for_runner_ready`. -/
def waitForRunnerReady (s : Server) (expectedUserSid expectedLogonSid requestId timeoutMs : Json)
    (connects : Bool) (header body : ReadResult) (authentic : Bool) : Event × Server :=
  match s.prepareReady expectedUserSid expectedLogonSid requestId timeoutMs with
  | .error e => (.refused e, s)
  | .ok requestId =>
    let s := { s with readyAttempted := true }
    if !connects then (.broken .os, { s with protocolFailed := true })
    else
      let s := { s with connected := true }
      let (received, rest) := s.receiveWireMessage timeoutMs header body
      let s := { s with incoming := rest }
      match received >>= checkReady requestId authentic with
      | .error e => (.broken e, { s with protocolFailed := true })
      | .ok () => (.ready, { s with authenticatedRequestId := some requestId })

/-- `close`. -/
def close (s : Server) : Event × Server :=
  (.closed, { s with handle := false })

def step (s : Server) : Call → Event × Server
  | .sendMessage message timeoutMs written => s.sendMessage message timeoutMs written
  | .receiveMessage timeoutMs header body => s.receiveMessage timeoutMs header body
  | .waitForRunnerReady userSid logonSid requestId timeoutMs connects header body authentic =>
    s.waitForRunnerReady userSid logonSid requestId timeoutMs connects header body authentic
  | .close => s.close

end Server

/-- The server, and the outcomes of the calls so far. -/
structure Session where
  server : Server
  trace : List Event

namespace Session

def call (x : Session) (c : Call) : Session :=
  ⟨(x.server.step c).2, x.trace ++ [(x.server.step c).1]⟩

def run (incoming : Bytes) (calls : List Call) : Session :=
  calls.foldl call ⟨Server.init incoming, []⟩

end Session

/-! ## What a call can do -/

namespace Event

/-- Some of a message of the type went to the pipe. -/
def Sends (kind : PyStr) : Event → Prop
  | .wrote message _ => message.get "type" = .str kind
  | .writeFailed message _ => message.get "type" = .str kind
  | _ => False

/-- A message of the type was written in full. -/
def Writes (kind : PyStr) : Event → Prop
  | .wrote message _ => message.get "type" = .str kind
  | _ => False

/-- A message of the type was accepted. -/
def Accepts (kind : PyStr) : Event → Prop
  | .accepted message => message.get "type" = .str kind
  | _ => False

def IsSent : Event → Prop
  | .wrote .. => True
  | .writeFailed .. => True
  | _ => False

def IsAccepted : Event → Prop
  | .accepted _ => True
  | _ => False

/-- A terminal message was accepted. -/
def IsTerminal (e : Event) : Prop :=
  e.Accepts "exit" ∨ e.Accepts "error"

/-- A write failed, or what was received is invalid. -/
def IsFailure : Event → Prop
  | .writeFailed .. => True
  | .broken _ => True
  | _ => False

/-- The number of an accepted output. -/
def sequence : Event → Option Json
  | .accepted message =>
    if (message.get "type").isText "output" then some (message.get "sequence") else none
  | _ => none

end Event

namespace Server

/-- A call may use the pipe. -/
def Live (s : Server) : Prop :=
  s.protocolFailed = false ∧ s.terminalReceived = false

end Server

/-- What a call can do, and when. -/
inductive Step (s : Server) : Event → Server → Prop
  | refused (e : PipeError) : Step s (.refused e) s
  | closed : Step s .closed { s with handle := false }
  | ready (s' : Server) (hs' : s' = { s with
      readyAttempted := true, connected := true, incoming := s'.incoming,
      authenticatedRequestId := s'.authenticatedRequestId }) : Step s .ready s'
  | broken (e : PipeError) (s' : Server) (hs' : s' = { s with
      readyAttempted := s'.readyAttempted, connected := s'.connected, incoming := s'.incoming,
      protocolFailed := true }) : Step s (.broken e) s'
  | spawn (message : Members) (frame : Bytes) (hlive : s.Live)
      (hkind : message.get "type" = .str "spawn_request") (hcancel : s.cancelRequestSent = false)
      (hspawn : s.spawnRequestSent = false) :
      Step s (.wrote message frame) { s with spawnRequestSent := true }
  | spawnFailed (message : Members) (frame : Bytes) (hlive : s.Live)
      (hkind : message.get "type" = .str "spawn_request") (hcancel : s.cancelRequestSent = false)
      (hspawn : s.spawnRequestSent = false) :
      Step s (.writeFailed message frame) { s with protocolFailed := true }
  | cancel (message : Members) (frame : Bytes) (hlive : s.Live)
      (hkind : message.get "type" = .str "cancel_request") (hcancel : s.cancelRequestSent = false) :
      Step s (.wrote message frame) { s with cancelRequestSent := true }
  | cancelFailed (message : Members) (frame : Bytes) (hlive : s.Live)
      (hkind : message.get "type" = .str "cancel_request") (hcancel : s.cancelRequestSent = false) :
      Step s (.writeFailed message frame) { s with protocolFailed := true }
  | ack (message : Members) (rest : Bytes) (hlive : s.Live)
      (hkind : message.get "type" = .str "cancel_ack") (hcancel : s.cancelRequestSent = true)
      (hack : s.cancelAckReceived = false) :
      Step s (.accepted message) { s with cancelAckReceived := true, incoming := rest }
  | output (message : Members) (rest : Bytes) (hlive : s.Live)
      (hkind : message.get "type" = .str "output") (hspawn : s.spawnRequestSent = true)
      (hseq : message.get "sequence" = .int s.nextOutputSequence) :
      Step s (.accepted message)
        { s with nextOutputSequence := s.nextOutputSequence + 1, incoming := rest }
  | terminal (message : Members) (rest : Bytes) (hlive : s.Live)
      (hkind : message.get "type" = .str "exit" ∨ message.get "type" = .str "error")
      (hspawn : s.spawnRequestSent = true) :
      Step s (.accepted message) { s with terminalReceived := true, incoming := rest }

theorem requireAuthenticated_eq_ok {s : Server} {requestId : PyStr}
    (h : s.requireAuthenticated = .ok requestId) : s.Live := by
  simp only [Server.requireAuthenticated, bind_eq_ok, orRaise_eq_ok, require_eq_ok,
    Bool.not_eq_true'] at h
  obtain ⟨_, -, -, hfailed, -, hterminal, -⟩ := h
  exact ⟨hfailed, hterminal⟩

theorem isNamed_iff {names : List PyStr} {v : Json} :
    isNamed names v = true ↔ ∃ s ∈ names, v = .str s := by
  cases v <;> simp [isNamed]

/-- What `prepare_send` lets through. -/
theorem prepareSend_eq_ok {s : Server} {message : Members} {timeoutMs : Json} {frame : Bytes}
    (h : s.prepareSend message timeoutMs = .ok frame) :
    s.Live ∧ s.cancelRequestSent = false ∧
      (message.get "type" = .str "spawn_request" ∧ s.spawnRequestSent = false ∨
        message.get "type" = .str "cancel_request") := by
  simp only [Server.prepareSend, bind_eq_ok, require_eq_ok] at h
  obtain ⟨requestId, hauth, -, -, -, -, -, hkind, h⟩ := h
  have hlive := requireAuthenticated_eq_ok hauth
  obtain ⟨kind, hmem, hkind⟩ := (isNamed_iff).mp hkind
  split_ifs at h with hspawn
  · simp only [bind_eq_ok, require_eq_ok, Bool.not_eq_true'] at h
    obtain ⟨-, hcancel, -, hsent, -⟩ := h
    exact ⟨hlive, hcancel, Or.inl ⟨Json.isText_iff.mp hspawn, hsent⟩⟩
  · simp only [bind_eq_ok, require_eq_ok, Bool.not_eq_true'] at h
    obtain ⟨-, hcancel, -⟩ := h
    refine ⟨hlive, hcancel, Or.inr ?_⟩
    rw [hkind] at hspawn ⊢
    simp only [serverMessageTypes, List.mem_cons, List.not_mem_nil, or_false] at hmem
    rcases hmem with rfl | rfl
    · simp at hspawn
    · rfl

theorem sendMessage_spec (s : Server) (message : Members) (timeoutMs : Json) (written : Bool) :
    Step s (s.sendMessage message timeoutMs written).1
      (s.sendMessage message timeoutMs written).2 := by
  unfold Server.sendMessage
  cases h : s.prepareSend message timeoutMs with
  | error e => exact .refused e
  | ok frame =>
    obtain ⟨hlive, hcancel, ⟨hkind, hspawn⟩ | hkind⟩ := prepareSend_eq_ok h
    · cases written
      · exact .spawnFailed message frame hlive hkind hcancel hspawn
      · simpa [hkind] using Step.spawn message frame hlive hkind hcancel hspawn
    · cases written
      · exact .cancelFailed message frame hlive hkind hcancel
      · have hne : ¬(lit "cancel_request" = lit "spawn_request") := by decide
        simpa [hkind, hne] using Step.cancel message frame hlive hkind hcancel

/-- The number of a valid output is an integer. -/
theorem sequence_of_validateCorrelation {message : Members} {requestId : PyStr} {u : Unit}
    (h : validateCorrelation (.obj message) requestId = .ok u)
    (hkind : message.get "type" = .str "output") : ∃ n, message.get "sequence" = .int n := by
  simp only [validateCorrelation, bind_eq_ok, validateMessage] at h
  obtain ⟨-, -, -, ⟨-, -, ⟨kind, fields⟩, htype, -, -, -, -, u, hbody, -⟩, -⟩ := h
  obtain ⟨htype, -⟩ := messageType_eq_ok.mp htype
  obtain rfl : kind = lit "output" := Json.str.inj (htype.symm.trans hkind)
  rw [show validateBody (lit "output") message = validateOutput message from rfl] at hbody
  simp only [validateOutput, bind_eq_ok] at hbody
  obtain ⟨v, hseq, -⟩ := hbody
  obtain ⟨n, hn, -⟩ := requireUint32_eq_ok.mp hseq
  exact ⟨n, hn⟩

theorem accept_spec {s s' : Server} {requestId : PyStr} {message : Members} (rest : Bytes)
    (hlive : s.Live) (h : { s with incoming := rest }.accept requestId message = .ok s') :
    Step s (.accepted message) s' := by
  simp only [Server.accept, bind_eq_ok, ofProtocol_eq_ok, require_eq_ok] at h
  obtain ⟨u, hcorr, -, hnamed, h⟩ := h
  obtain ⟨kind, hmem, hkind⟩ := (isNamed_iff).mp hnamed
  split_ifs at h with hack hout
  · simp only [bind_eq_ok, require_eq_ok, Bool.not_eq_true'] at h
    obtain ⟨-, hcancel, -, hfirst, hs'⟩ := h
    obtain rfl := Except.ok.inj hs'
    exact .ack message rest hlive (Json.isText_iff.mp hack) hcancel hfirst
  · simp only [bind_eq_ok, require_eq_ok] at h
    obtain ⟨-, hspawn, -, hseq, hs'⟩ := h
    obtain rfl := Except.ok.inj hs'
    have hkind := Json.isText_iff.mp hout
    obtain ⟨n, hn⟩ := sequence_of_validateCorrelation hcorr hkind
    refine .output message rest hlive hkind hspawn ?_
    rw [hn] at hseq ⊢
    simp only [Json.pyEq, Json.number, beq_iff_eq] at hseq
    rw [Rat.intCast_inj.mp hseq]
  · simp only [bind_eq_ok, require_eq_ok] at h
    obtain ⟨-, hspawn, hs'⟩ := h
    obtain rfl := Except.ok.inj hs'
    refine .terminal message rest hlive ?_ hspawn
    rw [hkind] at hack hout ⊢
    simp only [runnerMessageTypes, List.mem_cons, List.not_mem_nil, or_false] at hmem
    rcases hmem with rfl | rfl | rfl | rfl
    · simp at hout
    · exact Or.inl rfl
    · exact Or.inr rfl
    · simp at hack

theorem receiveMessage_spec (s : Server) (timeoutMs : Json) (header body : ReadResult) :
    Step s (s.receiveMessage timeoutMs header body).1
      (s.receiveMessage timeoutMs header body).2 := by
  unfold Server.receiveMessage
  cases h : s.requireAuthenticated with
  | error e => exact .refused e
  | ok requestId =>
    have hlive := requireAuthenticated_eq_ok h
    dsimp only
    split
    · exact .broken _ _ rfl
    · next message s' heq =>
      simp only [bind_eq_ok] at heq
      obtain ⟨_, -, _, hacc, hm⟩ := heq
      obtain ⟨rfl, rfl⟩ := Prod.mk.inj (Except.ok.inj hm)
      exact accept_spec _ hlive hacc

theorem waitForRunnerReady_spec (s : Server)
    (userSid logonSid requestId timeoutMs : Json) (connects : Bool) (header body : ReadResult)
    (authentic : Bool) :
    Step s (s.waitForRunnerReady userSid logonSid requestId timeoutMs connects header body
        authentic).1
      (s.waitForRunnerReady userSid logonSid requestId timeoutMs connects header body
        authentic).2 := by
  unfold Server.waitForRunnerReady
  cases h : s.prepareReady userSid logonSid requestId timeoutMs with
  | error e => exact .refused e
  | ok requestId =>
    dsimp only
    split_ifs with hconnects
    · exact .broken _ _ rfl
    · split
      · exact .broken _ _ rfl
      · exact .ready _ rfl

/-- The methods do what a call can do. -/
theorem step_spec (s : Server) (c : Call) : Step s (s.step c).1 (s.step c).2 := by
  cases c with
  | sendMessage message timeoutMs written => exact sendMessage_spec ..
  | receiveMessage timeoutMs header body => exact receiveMessage_spec ..
  | waitForRunnerReady => exact waitForRunnerReady_spec ..
  | close => exact .closed

/-! ## Over every run -/

/-- What an event means for the events before it. -/
structure Rule (before : List Event) (e : Event) : Prop where
  sent : e.IsSent → e.Sends "spawn_request" ∨ e.Sends "cancel_request"
  accepted : e.IsAccepted → e.Accepts "output" ∨ e.Accepts "cancel_ack" ∨ e.IsTerminal
  ack : e.Accepts "cancel_ack" → (∃ x ∈ before, x.Writes "cancel_request") ∧
    ∀ x ∈ before, ¬x.Accepts "cancel_ack"
  afterTerminal : e.IsAccepted → ∀ x ∈ before, ¬x.IsTerminal
  spawn : e.Sends "spawn_request" →
    ∀ x ∈ before, ¬x.Sends "spawn_request" ∧ ¬x.Sends "cancel_request"
  cancel : e.Sends "cancel_request" → ∀ x ∈ before, ¬x.Sends "cancel_request"
  afterFailure : e.IsAccepted ∨ e.IsSent → ∀ x ∈ before, ¬x.IsFailure

/-- The accepted outputs are numbered from 1. -/
def Numbered (n : ℕ) (es : List Event) : Prop :=
  es.filterMap Event.sequence = (List.range n).map fun k : ℕ => Json.int (k + 1)

/-- The flags of the server say what happened. -/
structure Tracks (s : Server) (es : List Event) : Prop where
  ack : s.cancelAckReceived = false → ∀ x ∈ es, ¬x.Accepts "cancel_ack"
  written : s.cancelRequestSent = true → ∃ x ∈ es, x.Writes "cancel_request"
  cancel : s.protocolFailed = false → s.cancelRequestSent = false →
    ∀ x ∈ es, ¬x.Sends "cancel_request"
  spawn : s.protocolFailed = false → s.spawnRequestSent = false →
    ∀ x ∈ es, ¬x.Sends "spawn_request"
  terminal : s.terminalReceived = false → ∀ x ∈ es, ¬x.IsTerminal
  failure : s.protocolFailed = false → ∀ x ∈ es, ¬x.IsFailure
  sequence : ∃ n, s.nextOutputSequence = n + 1 ∧ Numbered n es

variable {s s' : Server} {es : List Event} {e : Event}

theorem tracks_init (incoming : Bytes) : Tracks (Server.init incoming) [] where
  ack := by simp
  written := by simp [Server.init]
  cancel := by simp
  spawn := by simp
  terminal := by simp
  failure := by simp
  sequence := ⟨0, rfl, rfl⟩

/-- A write of a spawn meets the rules. -/
theorem Tracks.rule_spawn (h : Tracks s es) (hlive : s.Live) (hcancel : s.cancelRequestSent = false)
    (hspawn : s.spawnRequestSent = false) (hsends : e.Sends "spawn_request")
    (hsent : ¬e.IsAccepted ∧ ¬e.Accepts "cancel_ack" ∧ ¬e.Sends "cancel_request") : Rule es e where
  sent _ := Or.inl hsends
  accepted he := absurd he hsent.1
  ack he := absurd he hsent.2.1
  afterTerminal he := absurd he hsent.1
  spawn _ x hx := ⟨h.spawn hlive.1 hspawn x hx, h.cancel hlive.1 hcancel x hx⟩
  cancel he := absurd he hsent.2.2
  afterFailure _ := h.failure hlive.1

/-- A write of a cancel meets the rules. -/
theorem Tracks.rule_cancel (h : Tracks s es) (hlive : s.Live)
    (hcancel : s.cancelRequestSent = false) (hsends : e.Sends "cancel_request")
    (hsent : ¬e.IsAccepted ∧ ¬e.Accepts "cancel_ack" ∧ ¬e.Sends "spawn_request") : Rule es e where
  sent _ := Or.inr hsends
  accepted he := absurd he hsent.1
  ack he := absurd he hsent.2.1
  afterTerminal he := absurd he hsent.1
  spawn he := absurd he hsent.2.2
  cancel _ := h.cancel hlive.1 hcancel
  afterFailure _ := h.failure hlive.1

/-- An accepted message meets the rules, if an answer to a cancel does. -/
theorem Tracks.rule_accepted {message : Members} (h : Tracks s es) (hlive : s.Live)
    (hkind : (Event.accepted message).Accepts "output" ∨
      (Event.accepted message).Accepts "cancel_ack" ∨ (Event.accepted message).IsTerminal)
    (hack : (Event.accepted message).Accepts "cancel_ack" →
      s.cancelRequestSent = true ∧ s.cancelAckReceived = false) : Rule es (.accepted message) where
  sent he := he.elim
  accepted _ := hkind
  ack he := ⟨h.written (hack he).1, h.ack (hack he).2⟩
  afterTerminal _ := h.terminal hlive.2
  spawn he := he.elim
  cancel he := he.elim
  afterFailure _ := h.failure hlive.1

/-- What a call does meets the rules for the events the flags report. -/
theorem Tracks.rule (h : Tracks s es) (hstep : Step s e s') : Rule es e := by
  cases hstep with
  | refused => constructor <;> simp [Event.IsSent, Event.IsAccepted, Event.Accepts, Event.Sends]
  | closed => constructor <;> simp [Event.IsSent, Event.IsAccepted, Event.Accepts, Event.Sends]
  | ready => constructor <;> simp [Event.IsSent, Event.IsAccepted, Event.Accepts, Event.Sends]
  | broken => constructor <;> simp [Event.IsSent, Event.IsAccepted, Event.Accepts, Event.Sends]
  | spawn message frame hlive hkind hcancel hspawn =>
    exact h.rule_spawn hlive hcancel hspawn hkind
      (by simp +decide [Event.IsAccepted, Event.Accepts, Event.Sends, hkind])
  | spawnFailed message frame hlive hkind hcancel hspawn =>
    exact h.rule_spawn hlive hcancel hspawn hkind
      (by simp +decide [Event.IsAccepted, Event.Accepts, Event.Sends, hkind])
  | cancel message frame hlive hkind hcancel =>
    exact h.rule_cancel hlive hcancel hkind
      (by simp +decide [Event.IsAccepted, Event.Accepts, Event.Sends, hkind])
  | cancelFailed message frame hlive hkind hcancel =>
    exact h.rule_cancel hlive hcancel hkind
      (by simp +decide [Event.IsAccepted, Event.Accepts, Event.Sends, hkind])
  | ack message rest hlive hkind hcancel hack =>
    exact h.rule_accepted hlive (Or.inr (Or.inl hkind)) fun _ => ⟨hcancel, hack⟩
  | output message rest hlive hkind hspawn hseq =>
    refine h.rule_accepted hlive (Or.inl hkind) fun he => ?_
    simp +decide [Event.Accepts, hkind] at he
  | terminal message rest hlive hkind hspawn =>
    refine h.rule_accepted hlive (Or.inr (Or.inr hkind)) fun he => ?_
    rcases hkind with hkind | hkind <;> simp +decide [Event.Accepts, hkind] at he

/-- A flag that stays clear reports that its event did not happen. -/
structure Reports (s : Server) (e : Event) (s' : Server) : Prop where
  ack : s'.cancelAckReceived = false → s.cancelAckReceived = false ∧ ¬e.Accepts "cancel_ack"
  written : s'.cancelRequestSent = true → s.cancelRequestSent = true ∨ e.Writes "cancel_request"
  cancel : s'.protocolFailed = false → s'.cancelRequestSent = false →
    s.cancelRequestSent = false ∧ ¬e.Sends "cancel_request"
  spawn : s'.protocolFailed = false → s'.spawnRequestSent = false →
    s.spawnRequestSent = false ∧ ¬e.Sends "spawn_request"
  terminal : s'.terminalReceived = false → s.terminalReceived = false ∧ ¬e.IsTerminal
  failure : s'.protocolFailed = false → s.protocolFailed = false ∧ ¬e.IsFailure
  sequence : s'.nextOutputSequence = s.nextOutputSequence ∧ e.sequence = none ∨
    s'.nextOutputSequence = s.nextOutputSequence + 1 ∧
      e.sequence = some (.int s.nextOutputSequence)

/-- Nothing was written or accepted. -/
theorem reports_of_idle (he : e = .closed ∨ e = .ready ∨ ∃ err, e = .broken err ∨ e = .refused err)
    (hack : s'.cancelAckReceived = s.cancelAckReceived)
    (hcancel : s'.cancelRequestSent = s.cancelRequestSent)
    (hspawn : s'.spawnRequestSent = s.spawnRequestSent)
    (hterminal : s'.terminalReceived = s.terminalReceived)
    (hfail : s'.protocolFailed = false → s.protocolFailed = false ∧ ¬e.IsFailure)
    (hseq : s'.nextOutputSequence = s.nextOutputSequence) : Reports s e s' := by
  rcases he with rfl | rfl | ⟨err, rfl | rfl⟩ <;>
    exact ⟨fun h => ⟨hack ▸ h, id⟩, fun h => Or.inl (hcancel ▸ h), fun _ h => ⟨hcancel ▸ h, id⟩,
      fun _ h => ⟨hspawn ▸ h, id⟩, fun h => ⟨hterminal ▸ h, fun he => he.elim id id⟩, hfail,
      Or.inl ⟨hseq, rfl⟩⟩

theorem reports_of_step (hstep : Step s e s') : Reports s e s' := by
  cases hstep with
  | refused err =>
    exact reports_of_idle (by simp) rfl rfl rfl rfl (fun h => ⟨h, id⟩) rfl
  | closed =>
    exact reports_of_idle (by simp) rfl rfl rfl rfl (fun h => ⟨h, id⟩) rfl
  | ready _ hs' =>
    rw [hs']
    exact reports_of_idle (by simp) rfl rfl rfl rfl (fun h => ⟨h, id⟩) rfl
  | broken err _ hs' =>
    rw [hs']
    exact reports_of_idle (by simp) rfl rfl rfl rfl (fun h => (by cases h)) rfl
  | spawn _ _ _ hkind | spawnFailed _ _ _ hkind | cancel _ _ _ hkind | cancelFailed _ _ _ hkind =>
    constructor <;>
      simp +decide [Event.Writes, Event.Sends, Event.Accepts, Event.IsTerminal, Event.IsFailure,
        Event.sequence, hkind]
  | ack _ _ _ hkind =>
    constructor <;>
      simp +decide [Event.Writes, Event.Sends, Event.Accepts, Event.IsTerminal, Event.IsFailure,
        Event.sequence, hkind]
  | output _ _ _ hkind _ hseq =>
    constructor <;>
      simp +decide [Event.Writes, Event.Sends, Event.Accepts, Event.IsTerminal, Event.IsFailure,
        Event.sequence, hkind, hseq]
  | terminal _ _ _ hkind =>
    rcases hkind with hkind | hkind <;> constructor <;>
      simp +decide [Event.Writes, Event.Sends, Event.Accepts, Event.IsTerminal, Event.IsFailure,
        Event.sequence, hkind]

/-- The flags keep saying what happened. -/
theorem Tracks.step (h : Tracks s es) (hstep : Step s e s') : Tracks s' (es ++ [e]) := by
  have hr := reports_of_step hstep
  have hconcat : ∀ {P : Event → Prop}, (∀ x ∈ es, ¬P x) → ¬P e → ∀ x ∈ es ++ [e], ¬P x := by
    intro P hes he x hx
    rcases List.mem_append.mp hx with hx | hx
    · exact hes x hx
    · rwa [List.mem_singleton.mp hx]
  constructor
  · intro hflag
    exact hconcat (h.ack (hr.ack hflag).1) (hr.ack hflag).2
  · intro hflag
    rcases hr.written hflag with hflag | he
    · obtain ⟨x, hx, hw⟩ := h.written hflag
      exact ⟨x, by simp [hx], hw⟩
    · exact ⟨e, by simp, he⟩
  · intro hfail hflag
    obtain ⟨hs, he⟩ := hr.cancel hfail hflag
    exact hconcat (h.cancel (hr.failure hfail).1 hs) he
  · intro hfail hflag
    obtain ⟨hs, he⟩ := hr.spawn hfail hflag
    exact hconcat (h.spawn (hr.failure hfail).1 hs) he
  · intro hflag
    exact hconcat (h.terminal (hr.terminal hflag).1) (hr.terminal hflag).2
  · intro hflag
    exact hconcat (h.failure (hr.failure hflag).1) (hr.failure hflag).2
  · obtain ⟨n, hn, hnumbered⟩ := h.sequence
    rcases hr.sequence with ⟨hs, he⟩ | ⟨hs, he⟩
    · refine ⟨n, hs.trans hn, ?_⟩
      simpa [Numbered, he] using hnumbered
    · refine ⟨n + 1, by rw [hs, hn], ?_⟩
      rw [Numbered] at hnumbered ⊢
      rw [List.filterMap_append, hnumbered, List.range_succ, List.map_append]
      simp [he, hn]

/-- The events of a session that is in order. -/
structure Orderly (es : List Event) : Prop where
  rules : Every Rule es
  numbered : ∃ n, Numbered n es
  acks : AtMostOnce (Event.Accepts "cancel_ack") es
  terminals : AtMostOnce Event.IsTerminal es
  spawns : AtMostOnce (Event.Sends "spawn_request") es
  cancels : AtMostOnce (Event.Sends "cancel_request") es

theorem run_concat (incoming : Bytes) (calls : List Call) (c : Call) :
    Session.run incoming (calls ++ [c]) = (Session.run incoming calls).call c := by
  simp [Session.run]

/-- At every moment of a session the flags say what happened, and it met the rules. -/
theorem tracks_run (incoming : Bytes) (calls : List Call) :
    Tracks (Session.run incoming calls).server (Session.run incoming calls).trace ∧
      Every Rule (Session.run incoming calls).trace := by
  induction calls using List.reverseRecOn with
  | nil => exact ⟨tracks_init incoming, every_nil⟩
  | append_singleton calls c ih =>
    rw [run_concat]
    have hstep := step_spec (Session.run incoming calls).server c
    exact ⟨ih.1.step hstep, every_concat.mpr ⟨ih.2, ih.1.rule hstep⟩⟩

theorem Event.IsTerminal.isAccepted (h : e.IsTerminal) : e.IsAccepted := by
  cases e <;> simp_all [IsTerminal, Accepts, IsAccepted]

/-- In every sequence of calls, for every stream of the peer and whatever reads and writes fail,
the session is in order. -/
theorem orderly_run (incoming : Bytes) (calls : List Call) :
    Orderly (Session.run incoming calls).trace := by
  obtain ⟨htracks, hrules⟩ := tracks_run incoming calls
  obtain ⟨n, -, hnumbered⟩ := htracks.sequence
  exact {
    rules := hrules
    numbered := ⟨n, hnumbered⟩
    acks := hrules.mono fun _ _ h he => (h.ack he).2
    terminals := hrules.mono fun _ _ h he => h.afterTerminal he.isAccepted
    spawns := hrules.mono fun _ _ h he x hx => (h.spawn he x hx).1
    cancels := hrules.mono fun _ _ h he => h.cancel he }

end Icode.RunnerPipe
