import Icode.History
import Icode.PyText
import Mathlib.Data.List.Infix
import Mathlib.Logic.Function.Basic
import Mathlib.Tactic.Cases

/-!
# Relaying a tunnel

`relayStreams` (`_relay_streams`) copies bytes between the two sockets of a lease
tunnel. Every direction has a buffer of at most 256 KiB. A round checks the
lease, closes the write side of a socket whose source has ended and whose buffer
is empty, waits for the sockets, and then receives and sends what is ready.

The `World` answers each call from everything that happened before, and an answer
carries its bound : `recv(n)` gives at most `n` bytes, and `send` takes at most
what it is given. So a world is any schedule of readiness, of split sizes, of
would-block answers and of ends. The `trace` records the calls.

`relayStreams_integrity` says of every world and every number of rounds that what
was sent to a side is at every moment a prefix of what was received from the other,
with at most the limit in between, that `recv` is never called with size 0, that a
write side is closed only after its source has ended and all of it was sent, and
that everything was delivered when the relay returns with both sides ended. It
returns early only on a call that breaks the tunnel.
-/

namespace Icode.RelayStreams

open History Py

/-- `_RELAY_READ_CHUNK_BYTES`. -/
def readChunkBytes : ℕ := 64 * 1024

/-- `_RELAY_BUFFER_LIMIT_BYTES`. -/
def bufferLimitBytes : ℕ := 256 * 1024

/-! ## The sockets -/

inductive Side where
  | client
  | upstream
  deriving DecidableEq, Repr

/-- `peers`. -/
def Side.peer : Side → Side
  | .client => .upstream
  | .upstream => .client

@[simp] theorem Side.peer_peer (s : Side) : s.peer.peer = s := by
  cases s <;> rfl

/-- `for source in (client_socket, upstream_socket)`. -/
def Side.all : List Side :=
  [.client, .upstream]

/-- What `recv(size)` gives. -/
inductive RecvResult (size : ℕ) where
  | data (chunk : Bytes) (hpos : chunk ≠ []) (hle : chunk.length ≤ size)
  | eof
  /-- `BlockingIOError`. -/
  | wouldBlock
  /-- Any other error. -/
  | error

/-- What `send` gives for a buffer of a length. -/
inductive SendResult (length : ℕ) where
  | sent (count : ℕ) (hle : count ≤ length)
  /-- `BlockingIOError`. -/
  | wouldBlock
  /-- Any other error. -/
  | error

/-- What `select` gives; the sockets that are ready come in the order they were asked for. -/
inductive SelectResult (readable writable : List Side) where
  | ready (reads writes : List Side) (hreads : reads.Sublist readable)
      (hwrites : writes.Sublist writable)
  | exceptional
  /-- `OSError` or `ValueError`. -/
  | failed

/-- A call of the relay, with its answer. -/
inductive Event where
  | verifyLease (valid : Bool)
  | shutdown (destination : Side)
  | select (readable writable : List Side) (result : SelectResult readable writable)
  | recv (source : Side) (size : ℕ) (result : RecvResult size)
  | send (destination : Side) (buffer : Bytes) (result : SendResult buffer.length)

/-- The answers to the calls, after what happened before. -/
structure World where
  /-- `now >= next_lease_check`. -/
  leaseDue : List Event → Bool
  /-- `scope.verify_lease()` does not raise. -/
  leaseValid : List Event → Bool
  select : List Event → (readable writable : List Side) → SelectResult readable writable
  recv : List Event → Side → (size : ℕ) → RecvResult size
  send : List Event → Side → (buffer : Bytes) → SendResult buffer.length

/-! ## The relay -/

/-- The local variables of the relay, and the calls so far. -/
structure Relay where
  outgoing : Side → Bytes
  readOpen : Side → Bool
  writeShutdown : Side → Bool
  trace : List Event

/-- How the relay ends. -/
inductive Exit where
  /-- It returns: both sources have ended, and the buffers are empty. -/
  | finished
  /-- It returns at once: the wait failed, a socket is exceptional, or nothing was sent. -/
  | stopped
  /-- An error is raised. -/
  | raised
  deriving DecidableEq, Repr

structure Ended where
  exit : Exit
  relay : Relay

namespace Relay

def init : Relay :=
  ⟨fun _ => [], fun _ => true, fun _ => false, []⟩

def log (r : Relay) (e : Event) : Relay :=
  { r with trace := r.trace ++ [e] }

/-- `if now >= next_lease_check: scope.verify_lease()`. -/
def verifyLease (world : World) (r : Relay) : Except Ended Relay :=
  if world.leaseDue r.trace then
    let valid := world.leaseValid r.trace
    if valid then .ok (r.log (.verifyLease valid))
    else .error ⟨.raised, r.log (.verifyLease valid)⟩
  else .ok r

/-- The body of the loop that closes write sides; an `OSError` of `shutdown` is ignored. -/
def shutdownDrained (r : Relay) (source : Side) : Relay :=
  let destination := source.peer
  if !r.readOpen source && (r.outgoing destination).isEmpty && !r.writeShutdown destination then
    { r.log (.shutdown destination) with
      writeShutdown := Function.update r.writeShutdown destination true }
  else r

/-- `not any(read_open.values()) and not any(outgoing.values())`. -/
def isFinished (r : Relay) : Bool :=
  Side.all.all (fun s => !r.readOpen s) && Side.all.all fun s => (r.outgoing s).isEmpty

def readable (r : Relay) : List Side :=
  Side.all.filter fun source =>
    r.readOpen source && decide ((r.outgoing source.peer).length < bufferLimitBytes)

def writable (r : Relay) : List Side :=
  Side.all.filter fun s => !(r.outgoing s).isEmpty

/-- The body of `for source in ready_to_read`. -/
def receive (world : World) (r : Relay) (source : Side) : Except Ended Relay :=
  let destination := source.peer
  let available := bufferLimitBytes - (r.outgoing destination).length
  let size := min readChunkBytes available
  let result := world.recv r.trace source size
  let r := r.log (.recv source size result)
  match result with
  | .wouldBlock => .ok r
  | .error => .error ⟨.raised, r⟩
  | .eof => .ok { r with readOpen := Function.update r.readOpen source false }
  | .data chunk _ _ =>
    .ok { r with outgoing := Function.update r.outgoing destination (r.outgoing destination ++ chunk) }

/-- The body of `for destination in ready_to_write`. -/
def transmit (world : World) (r : Relay) (destination : Side) : Except Ended Relay :=
  let buffer := r.outgoing destination
  let result := world.send r.trace destination buffer
  let r := r.log (.send destination buffer result)
  match result with
  | .wouldBlock => .ok r
  | .error => .error ⟨.raised, r⟩
  | .sent count _ =>
    if count = 0 then .error ⟨.stopped, r⟩
    else .ok { r with outgoing := Function.update r.outgoing destination (buffer.drop count) }

/-- The rest of a round once the lease is checked and the write sides are closed. -/
def exchange (world : World) (r : Relay) : Except Ended Relay :=
  let result := world.select r.trace r.readable r.writable
  let r' := r.log (.select r.readable r.writable result)
  match result with
  | .failed => .error ⟨.stopped, r'⟩
  | .exceptional => .error ⟨.stopped, r'⟩
  | .ready reads writes _ _ => do
    let r'' ← reads.foldlM (receive world) r'
    writes.foldlM (transmit world) r''

/-- The body of `while True`. -/
def round (world : World) (r : Relay) : Except Ended Relay := do
  let r ← r.verifyLease world
  let r := Side.all.foldl shutdownDrained r
  if r.isFinished then .error ⟨.finished, r⟩ else r.exchange world

/-- `_relay_streams`, for a number of rounds. -/
def relayStreams (world : World) : ℕ → Relay → Except Ended Relay
  | 0, r => .ok r
  | n + 1, r => r.round world >>= relayStreams world n

end Relay

/-- The calls of a run so far. -/
def traceOf : Except Ended Relay → List Event
  | .ok r => r.trace
  | .error e => e.relay.trace

/-! ## What a trace says -/

/-- The bytes a call received from a side. -/
def Event.received (source : Side) : Event → Bytes
  | .recv s _ (.data chunk _ _) => if s = source then chunk else []
  | _ => []

/-- The bytes a call sent to a side. -/
def Event.delivered (destination : Side) : Event → Bytes
  | .send d buffer (.sent count _) => if d = destination then buffer.take count else []
  | _ => []

def receivedFrom (source : Side) (es : List Event) : Bytes :=
  es.flatMap (Event.received source)

def sentTo (destination : Side) (es : List Event) : Bytes :=
  es.flatMap (Event.delivered destination)

/-- The source has ended. -/
def AtEof (source : Side) (es : List Event) : Prop :=
  ∃ size, .recv source size .eof ∈ es

/-- What was sent to a side is a prefix of what was received from the other, and what is in between
fits in the buffer. -/
def Delivers (es : List Event) : Prop :=
  ∀ d, ∃ pending, receivedFrom d.peer es = sentTo d es ++ pending ∧
    pending.length ≤ bufferLimitBytes

/-- What a call may do after the calls before it. -/
def CallRule (before : List Event) : Event → Prop
  | .recv _ size _ => 0 < size
  | .shutdown d => AtEof d.peer before ∧ sentTo d before = receivedFrom d.peer before
  | _ => True

/-- The call stops the relay: the wait failed, a socket is exceptional, or nothing was sent. -/
def Event.Breaks : Event → Prop
  | .select _ _ .failed => True
  | .select _ _ .exceptional => True
  | .send _ _ (.sent count _) => count = 0
  | _ => False

@[simp] theorem receivedFrom_concat (s : Side) (es : List Event) (e : Event) :
    receivedFrom s (es ++ [e]) = receivedFrom s es ++ e.received s := by
  simp [receivedFrom]

@[simp] theorem sentTo_concat (d : Side) (es : List Event) (e : Event) :
    sentTo d (es ++ [e]) = sentTo d es ++ e.delivered d := by
  simp [sentTo]

theorem AtEof.concat {s : Side} {es : List Event} (h : AtEof s es) (e : Event) :
    AtEof s (es ++ [e]) := by
  obtain ⟨size, hmem⟩ := h
  exact ⟨size, List.mem_append_left _ hmem⟩

/-! ## The invariant -/

/-- The buffers hold what was received and is not sent, and every call so far was allowed. -/
structure Faithful (r : Relay) : Prop where
  pending : ∀ d, receivedFrom d.peer r.trace = sentTo d r.trace ++ r.outgoing d
  bounded : ∀ d, (r.outgoing d).length ≤ bufferLimitBytes
  ended : ∀ s, r.readOpen s = false → AtEof s r.trace
  delivers : ∀ es, es <+: r.trace → Delivers es
  calls : Every CallRule r.trace

/-- What the relay ends on: everything is delivered, or a call broke the tunnel. -/
def EndsWith (es : List Event) : Exit → Prop
  | .finished => ∀ s, AtEof s es ∧ sentTo s.peer es = receivedFrom s es
  | .stopped => ∃ e ∈ es, e.Breaks
  | .raised => True

/-- The invariant at the end of a run, or where it stands. -/
def FaithfulRun : Except Ended Relay → Prop
  | .ok r => Faithful r
  | .error e => Faithful e.relay ∧ EndsWith e.relay.trace e.exit

theorem faithful_init : Faithful Relay.init := by
  refine ⟨fun d => rfl, fun d => Nat.zero_le _, fun s h => (by cases h), fun es hes d => ?_,
    every_nil⟩
  obtain rfl := List.prefix_nil.mp hes
  exact ⟨[], rfl, Nat.zero_le _⟩

variable {world : World} {r r' : Relay} {e : Event}

/-- One call, when the buffers are right after it. -/
theorem Faithful.concat (h : Faithful r) (htrace : r'.trace = r.trace ++ [e])
    (hpending : ∀ d, receivedFrom d.peer r'.trace = sentTo d r'.trace ++ r'.outgoing d)
    (hbounded : ∀ d, (r'.outgoing d).length ≤ bufferLimitBytes)
    (hended : ∀ s, r'.readOpen s = false → AtEof s r'.trace) (hrule : CallRule r.trace e) :
    Faithful r' := by
  refine ⟨hpending, hbounded, hended, fun es hes d => ?_, ?_⟩
  · rw [htrace, List.prefix_concat_iff] at hes
    rcases hes with rfl | hes
    · rw [← htrace]
      exact ⟨r'.outgoing d, hpending d, hbounded d⟩
    · exact h.delivers es hes d
  · rw [htrace]
    exact every_concat.mpr ⟨h.calls, hrule⟩

/-- A call that moves no bytes and changes nothing. -/
theorem Faithful.log (h : Faithful r) (hreceived : ∀ s, e.received s = [])
    (hdelivered : ∀ d, e.delivered d = []) (hrule : CallRule r.trace e) : Faithful (r.log e) := by
  refine h.concat rfl (fun d => ?_) h.bounded (fun s hs => (h.ended s hs).concat e) hrule
  rw [Relay.log, receivedFrom_concat, sentTo_concat, hreceived, hdelivered, List.append_nil,
    List.append_nil]
  exact h.pending d

theorem broken_log (hbreaks : e.Breaks) : EndsWith (r.log e).trace .stopped :=
  ⟨e, List.mem_append_right _ (List.mem_singleton.mpr rfl), hbreaks⟩

/-! ## Each part of a round -/

theorem faithful_verifyLease (h : Faithful r) : FaithfulRun (r.verifyLease world) := by
  have hlog : ∀ valid, Faithful (r.log (.verifyLease valid)) := fun valid =>
    h.log (fun _ => rfl) (fun _ => rfl) trivial
  unfold Relay.verifyLease
  dsimp only
  split_ifs
  · exact hlog _
  · exact ⟨hlog _, trivial⟩
  · exact h

/-- A write side is closed when its source has ended and all of it was sent. -/
theorem Faithful.shutdownDrained (h : Faithful r) (source : Side) :
    Faithful (r.shutdownDrained source) := by
  unfold Relay.shutdownDrained
  dsimp only
  split_ifs with hdrained
  · simp only [Bool.and_eq_true, Bool.not_eq_true', List.isEmpty_iff] at hdrained
    obtain ⟨⟨hclosed, hempty⟩, -⟩ := hdrained
    have hsent := h.pending source.peer
    rw [hempty, List.append_nil] at hsent
    have hlog : Faithful (r.log (.shutdown source.peer)) := by
      refine h.log (fun _ => rfl) (fun _ => rfl) ⟨?_, hsent.symm⟩
      rw [Side.peer_peer]
      exact h.ended source hclosed
    exact ⟨hlog.pending, hlog.bounded, hlog.ended, hlog.delivers, hlog.calls⟩
  · exact h

theorem mem_all (s : Side) : s ∈ Side.all := by
  cases s <;> simp [Side.all]

/-- When the relay returns, both sources have ended and all was sent. -/
theorem Faithful.finished (h : Faithful r) (hfin : r.isFinished = true) (s : Side) :
    AtEof s r.trace ∧ sentTo s.peer r.trace = receivedFrom s r.trace := by
  simp only [Relay.isFinished, Bool.and_eq_true, List.all_eq_true, Bool.not_eq_true',
    List.isEmpty_iff] at hfin
  refine ⟨h.ended s (hfin.1 s (mem_all s)), ?_⟩
  have hpending := h.pending s.peer
  rw [hfin.2 s.peer (mem_all _), List.append_nil, Side.peer_peer] at hpending
  exact hpending.symm

theorem faithful_receive (h : Faithful r) {source : Side}
    (hroom : (r.outgoing source.peer).length < bufferLimitBytes) :
    FaithfulRun (r.receive world source) := by
  have hsize : 0 < min readChunkBytes (bufferLimitBytes - (r.outgoing source.peer).length) :=
    Nat.lt_min.mpr ⟨by decide, Nat.sub_pos_of_lt hroom⟩
  unfold Relay.receive
  dsimp only
  cases hresult : world.recv r.trace source
      (min readChunkBytes (bufferLimitBytes - (r.outgoing source.peer).length)) with
  | wouldBlock => exact h.log (fun _ => rfl) (fun _ => rfl) hsize
  | error => exact ⟨h.log (fun _ => rfl) (fun _ => rfl) hsize, trivial⟩
  | eof =>
    have hlog := h.log (e := .recv source _ .eof) (fun _ => rfl) (fun _ => rfl) hsize
    refine ⟨hlog.pending, hlog.bounded, fun s hs => ?_, hlog.delivers, hlog.calls⟩
    by_cases hsource : s = source
    · subst hsource
      exact ⟨_, List.mem_append_right _ (List.mem_singleton.mpr rfl)⟩
    · refine hlog.ended s ?_
      simpa [Relay.log, hsource] using hs
  | data chunk hpos hle =>
    refine h.concat rfl (fun d => ?_) (fun d => ?_) (fun s hs => (h.ended s hs).concat _) hsize
    · have hpending := h.pending d
      by_cases hd : d = source.peer
      · subst hd
        rw [Side.peer_peer] at hpending
        simp [Relay.log, Event.received, Event.delivered, hpending]
      · have hs : source ≠ d.peer := fun hs => hd (by rw [hs, Side.peer_peer])
        simp [Relay.log, Event.received, Event.delivered, hpending, hd, hs]
    · by_cases hd : d = source.peer
      · subst hd
        have := Nat.min_le_right readChunkBytes
          (bufferLimitBytes - (r.outgoing source.peer).length)
        simp only [Relay.log, Function.update_self, List.length_append]
        omega
      · simpa [Relay.log, hd] using h.bounded d

theorem faithful_transmit (h : Faithful r) (destination : Side) :
    FaithfulRun (r.transmit world destination) := by
  unfold Relay.transmit
  dsimp only
  cases hresult : world.send r.trace destination (r.outgoing destination) with
  | wouldBlock => exact h.log (fun _ => rfl) (fun _ => rfl) trivial
  | error => exact ⟨h.log (fun _ => rfl) (fun _ => rfl) trivial, trivial⟩
  | sent count hle =>
    dsimp only
    split_ifs with hzero
    · subst hzero
      refine ⟨h.log (fun _ => rfl) (fun d => ?_) trivial, broken_log rfl⟩
      simp [Event.delivered]
    · refine h.concat rfl (fun d => ?_) (fun d => ?_) (fun s hs => (h.ended s hs).concat _) trivial
      · have hpending := h.pending d
        by_cases hd : d = destination
        · subst hd
          simp [Relay.log, Event.received, Event.delivered, hpending]
        · have hd' : destination ≠ d := fun hd' => hd hd'.symm
          simp [Relay.log, Event.received, Event.delivered, hpending, hd, hd']
      · have hbounded := h.bounded d
        by_cases hd : d = destination
        · subst hd
          simp only [Relay.log, Function.update_self, List.length_drop]
          omega
        · simpa [Relay.log, hd] using hbounded

/-- Receiving from a source leaves the other direction alone. -/
theorem outgoing_receive {source : Side} (hr : r.receive world source = .ok r') {d : Side}
    (hd : d ≠ source.peer) : r'.outgoing d = r.outgoing d := by
  unfold Relay.receive at hr
  dsimp only at hr
  split at hr
  · obtain rfl := Except.ok.inj hr
    rfl
  · cases hr
  · obtain rfl := Except.ok.inj hr
    rfl
  · obtain rfl := Except.ok.inj hr
    simp [Relay.log, hd]

/-! ## A whole run -/

theorem FaithfulRun.bind {x : Except Ended Relay} {f : Relay → Except Ended Relay}
    (hx : FaithfulRun x) (hf : ∀ r, x = .ok r → Faithful r → FaithfulRun (f r)) :
    FaithfulRun (x >>= f) := by
  cases x with
  | ok r => exact hf r rfl hx
  | error e => exact hx

/-- Each source is received from once, so there is room in its buffer until its turn. -/
theorem faithful_reads : ∀ {reads : List Side} {r : Relay}, Faithful r → reads.Nodup →
    (∀ s ∈ reads, (r.outgoing s.peer).length < bufferLimitBytes) →
    FaithfulRun (reads.foldlM (Relay.receive world) r)
  | [], r, h, _, _ => h
  | source :: reads, r, h, hnodup, hroom => by
    rw [List.foldlM_cons]
    obtain ⟨hnotin, hnodup⟩ := List.nodup_cons.mp hnodup
    refine (faithful_receive h (hroom source (by simp))).bind fun r' hr' h' => ?_
    refine faithful_reads h' hnodup fun s hs => ?_
    have hne : s.peer ≠ source.peer := by
      intro hpeer
      have hsame : s = source := by rw [← s.peer_peer, hpeer, Side.peer_peer]
      exact hnotin (hsame ▸ hs)
    rw [outgoing_receive hr' hne]
    exact hroom s (by simp [hs])

theorem faithful_writes : ∀ {writes : List Side} {r : Relay}, Faithful r →
    FaithfulRun (writes.foldlM (Relay.transmit world) r)
  | [], r, h => h
  | destination :: writes, r, h => by
    rw [List.foldlM_cons]
    exact (faithful_transmit h destination).bind fun r' _ h' => faithful_writes h'

theorem faithful_exchange (h : Faithful r) : FaithfulRun (r.exchange world) := by
  unfold Relay.exchange
  dsimp only
  cases hselect : world.select r.trace r.readable r.writable with
  | failed =>
    exact ⟨h.log (fun _ => rfl) (fun _ => rfl) trivial, broken_log trivial⟩
  | exceptional =>
    exact ⟨h.log (fun _ => rfl) (fun _ => rfl) trivial, broken_log trivial⟩
  | ready reads writes hreads hwrites =>
    have hlog := h.log (e := .select r.readable r.writable (.ready reads writes hreads hwrites))
      (fun _ => rfl) (fun _ => rfl) trivial
    have hnodup : Side.all.Nodup := by decide
    refine (faithful_reads hlog ?_ fun s hs => ?_).bind fun r' _ h' => faithful_writes h'
    · exact hreads.nodup (hnodup.filter _)
    · have hmem := List.mem_filter.mp (hreads.subset hs)
      simp only [Bool.and_eq_true, decide_eq_true_eq] at hmem
      exact hmem.2.2

theorem faithful_round (h : Faithful r) : FaithfulRun (r.round world) := by
  unfold Relay.round
  refine (faithful_verifyLease h).bind fun r' _ h' => ?_
  have hdrained : Faithful (Side.all.foldl Relay.shutdownDrained r') :=
    (h'.shutdownDrained .client).shutdownDrained .upstream
  dsimp only
  split_ifs with hfin
  · exact ⟨hdrained, hdrained.finished hfin⟩
  · exact faithful_exchange hdrained

theorem faithful_relayStreams : ∀ (n : ℕ) {r : Relay}, Faithful r →
    FaithfulRun (Relay.relayStreams world n r)
  | 0, _, h => h
  | n + 1, _, h => (faithful_round h).bind fun _ _ h' => faithful_relayStreams n h'

/-- In every world, at every moment of the relay : what was sent to a side is what was received
from the other, in order, up to what its buffer holds; `recv` is never called with size 0; a
write side is closed only after its source has ended and all of it was sent; and when the relay
returns because both sides have ended, everything received was delivered. It returns before that
only on a call that breaks the tunnel. -/
theorem relayStreams_integrity (world : World) (n : ℕ) :
    (∀ es, es <+: traceOf (Relay.init.relayStreams world n) → Delivers es) ∧
      Every CallRule (traceOf (Relay.init.relayStreams world n)) ∧
      ∀ exit r, Relay.init.relayStreams world n = .error ⟨exit, r⟩ → EndsWith r.trace exit := by
  have h : FaithfulRun (Relay.relayStreams world n .init) := faithful_relayStreams n faithful_init
  cases hrun : Relay.relayStreams world n .init with
  | ok r =>
    rw [hrun] at h
    exact ⟨h.delivers, h.calls, fun exit r' hr' => (by cases hr')⟩
  | error e =>
    rw [hrun] at h
    refine ⟨h.1.delivers, h.1.calls, fun exit r hr => ?_⟩
    obtain rfl := Except.error.inj hr
    exact h.2

end Icode.RelayStreams
