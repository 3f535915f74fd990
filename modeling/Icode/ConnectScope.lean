import Icode.Interleaving
import Icode.PyDict

/-!
# The scope of a proxy

A `HostHttpsConnectScope` registers the sockets of accepted clients, opens a tunnel for each of
them, and closes what it owns. Its calls share one lock for its tables; what they ask of the
authority, of the operating system and of the runtime is up to the environment, and the authority
may close a client or an upstream at any time.

`move` is one atomic step of a call. `close` only sees what stands in the tables: when an open fails
and the close of its client fails too, nothing remembers it, and the next `close` returns `True`
(`failedOpenRun_unconfirmed`). `close_confirmed` says that nothing else is lost: when every open that
fails has had its sockets closed, a `close` that has returned `True` has left no open, no client and
no upstream behind, and nothing is registered or opened after it.
-/

namespace Icode

open Py Interleaving

/-! ## The calls -/

/-- An `AuthorizedHttpsTunnel`; `unix` says that releasing its client handle closes the client. -/
structure Tunnel where
  client : ℕ
  upstream : ℕ
  unix : Bool
  closeLock : Option ℕ
  closed : Bool

/-- What the calls have returned. -/
inductive ConnectEvent where
  /-- `register_accepted_client` -/
  | registered (client : ℕ)
  /-- An open has published its tunnel. -/
  | opened (tunnel : ℕ)
  /-- `close` -/
  | closeReturned (confirmed : Bool)
  deriving DecidableEq

/-- A `HostHttpsConnectScope`, the tunnels and upstreams it has made by number, and what has become
of its sockets. -/
structure ConnectScope where
  closed : Bool
  cancelled : Bool
  openCount : ℕ
  acceptedClients : List ℕ
  /-- The clients under way, and whether they are of an open of a Unix socket. -/
  pendingClients : Dict ℕ Bool
  tunnels : List ℕ
  tunnel : ℕ → Option Tunnel
  nextTunnel : ℕ
  nextUpstream : ℕ
  /-- The upstreams that are closed, which their `_closed` says. -/
  closedUpstreams : List ℕ
  /-- The clients of which some close has been confirmed. -/
  confirmed : List ℕ
  /-- The clients that have been registered. -/
  tracked : List ℕ
  /-- The clients an open has taken over. -/
  owned : List ℕ
  log : List ConnectEvent

/-- A call of the scope, of a tunnel, or of a close callback by the authority. -/
inductive ConnectCall where
  | registerAccepted (client : ℕ)
  | releaseAccepted (client : ℕ)
  /-- `_open_connect`, with the family of the client. -/
  | openConnect (client : ℕ) (unixTransport unixFamily : Bool)
  | closeTunnel (tunnel : ℕ)
  | close
  /-- `close_unix_client` -/
  | revokeClient (client : ℕ)
  /-- `_close_from_authority` -/
  | revokeUpstream (upstream : ℕ)

/-- The variables of `_open_connect`. -/
structure OpenCall where
  client : ℕ
  unix : Bool
  /-- `client_handle is not None` -/
  handle : Bool
  upstream : Option ℕ
  deriving DecidableEq

/-- Where an open stands. -/
inductive OpenStep where
  | cancelCheck
  /-- The head is parsed and `verify_request` asked. -/
  | authorize
  /-- The client is registered with the authority. -/
  | register
  /-- The client is moved to the pending clients. -/
  | adopt
  /-- `open_authorized_https_connection` -/
  | connect
  | healthCheck
  | reauthorize
  | publish
  /-- The `except` block: `upstream.close()`. -/
  | closeUpstream
  | closeClient
  | release
  /-- The `finally` block. -/
  | finish (published : Bool)
  deriving DecidableEq

/-- No upstream has been connected yet. -/
def OpenStep.beforeConnect : OpenStep → Bool
  | .cancelCheck | .authorize | .register | .adopt | .connect => true
  | _ => false

/-- Where `AuthorizedHttpsTunnel.close` stands. -/
inductive TunnelStep where
  | enter
  | client
  | upstream (clientClosed : Bool)
  | release (clientClosed upstreamClosed : Bool)
  | settle (clientClosed upstreamClosed : Bool)
  /-- `_forget_tunnel` -/
  | forget
  deriving DecidableEq

/-- What `HostHttpsConnectScope.close` has still to close, and `cleanup_ok`. -/
structure Cleanup where
  accepted : List ℕ
  pending : Dict ℕ Bool
  tunnels : List ℕ
  ok : Bool
  deriving DecidableEq

/-- Where a call stands. -/
inductive ConnectPc where
  | registerAccepted (client : ℕ)
  | releaseAccepted (client : ℕ)
  | openConnect (client : ℕ) (unixTransport unixFamily : Bool)
  /-- The open asks whether the scope is closed. -/
  | admitting (client : ℕ) (unix : Bool)
  /-- The client is closed and the call refused. -/
  | refuse (client : ℕ)
  | opening (step : OpenStep) (o : OpenCall)
  /-- `tunnel.close()`, for the scope if what it has still to close is given. -/
  | tunnel (step : TunnelStep) (tunnel : ℕ) (scope : Option Cleanup)
  | close
  | cleaning (k : Cleanup)
  /-- `_release_active_connection` of a pending client. -/
  | releasing (client : ℕ) (unix : Bool) (k : Cleanup)
  | revokeClient (client : ℕ)
  | revokeUpstream (upstream : ℕ)
  deriving DecidableEq

/-- What the environment answers to a step. -/
inductive ConnectAnswer where
  /-- Nothing is asked, or what is asked goes well. -/
  | ok
  | raises
  /-- `self._runtime._healthy` -/
  | healthy (healthy : Bool)
  /-- `_close_socket` -/
  | closed (confirmed : Bool)
  /-- `release_active_connection`, and what the release callback returns if it is called. -/
  | released (callback : Option Bool)

namespace ConnectScope

def initial : ConnectScope :=
  ⟨false, false, 0, [], [], [], fun _ => none, 0, 0, [], [], [], [], []⟩

/-- `_close_socket(client)`. -/
def closeClient (x : ConnectScope) (client : ℕ) (confirmed : Bool) : ConnectScope :=
  if confirmed then { x with confirmed := client :: x.confirmed } else x

/-- `close` of an upstream; it raises if the socket cannot be closed. -/
def closeUpstream (x : ConnectScope) (upstream : ℕ) (confirmed : Bool) : ConnectScope × Bool :=
  if upstream ∈ x.closedUpstreams then (x, true)
  else if confirmed then ({ x with closedUpstreams := upstream :: x.closedUpstreams }, true)
  else (x, false)

/-- `release_active_connection(handle)` of a client. -/
def releaseHandle (x : ConnectScope) (client : ℕ) (unix : Bool) (callback : Option Bool) :
    ConnectScope :=
  if unix then x.closeClient client (callback.getD false) else x

/-- A tunnel is changed. -/
def setTunnel (x : ConnectScope) (t : ℕ) (tun : Tunnel) : ConnectScope :=
  { x with tunnel := Function.update x.tunnel t (some tun) }

/-- One step of `_open_connect`, once it is counted. -/
def openStep (x : ConnectScope) (o : OpenCall) :
    OpenStep → ConnectAnswer → Option (ConnectScope × Option ConnectPc)
  | .cancelCheck, .ok =>
    some (x, some (.opening (if x.cancelled then .closeUpstream else .authorize) o))
  | .authorize, .ok => some (x, some (.opening .register o))
  | .authorize, .raises => some (x, some (.opening .closeUpstream o))
  | .register, .ok => some (x, some (.opening .adopt { o with handle := true }))
  | .register, .raises => some (x, some (.opening .closeUpstream o))
  | .adopt, .ok =>
    if x.closed || x.cancelled then some (x, some (.opening .closeUpstream o))
    else
      some ({ x with
        acceptedClients := x.acceptedClients.filter (· ≠ o.client)
        pendingClients := x.pendingClients.set o.client o.unix }, some (.opening .connect o))
  | .connect, .ok =>
    some ({ x with nextUpstream := x.nextUpstream + 1 },
      some (.opening .healthCheck { o with upstream := some x.nextUpstream }))
  | .connect, .raises => some (x, some (.opening .closeUpstream o))
  | .healthCheck, .healthy healthy =>
    some (x, some (.opening (if x.cancelled || !healthy then .closeUpstream else .reauthorize) o))
  | .reauthorize, .ok => some (x, some (.opening .publish o))
  | .reauthorize, .raises => some (x, some (.opening .closeUpstream o))
  | .publish, .ok =>
    if x.closed || x.cancelled then some (x, some (.opening .closeUpstream o))
    else
      o.upstream.map fun u =>
        ({ x.setTunnel x.nextTunnel ⟨o.client, u, o.unix, none, false⟩ with
          pendingClients := x.pendingClients.erase o.client
          tunnels := x.tunnels ++ [x.nextTunnel]
          nextTunnel := x.nextTunnel + 1
          log := x.log ++ [.opened x.nextTunnel] }, some (.opening (.finish true) o))
  | .closeUpstream, .closed confirmed =>
    -- An exception of `upstream.close()` is passed over.
    o.upstream.map fun u => ((x.closeUpstream u confirmed).1, some (.opening .closeClient o))
  | .closeUpstream, .ok =>
    if o.upstream.isNone then some (x, some (.opening .closeClient o)) else none
  | .closeClient, .closed confirmed =>
    some (x.closeClient o.client confirmed,
      some (.opening (if o.handle then .release else .finish false) o))
  | .release, .released callback =>
    some (x.releaseHandle o.client o.unix callback, some (.opening (.finish false) o))
  | .finish _, .ok =>
    some ({ x with
      pendingClients := x.pendingClients.erase o.client
      openCount := x.openCount - 1 }, none)
  | _, _ => none

/-- `tunnel.close()` returns. -/
def tunnelReturns (scope : Option Cleanup) (result : Bool) : Option ConnectPc :=
  scope.map fun k => .cleaning { k with ok := result && k.ok }

/-- One step of `AuthorizedHttpsTunnel.close`. -/
def tunnelStep (x : ConnectScope) (call t : ℕ) (tun : Tunnel) (scope : Option Cleanup) :
    TunnelStep → ConnectAnswer → Option (ConnectScope × Option ConnectPc)
  | .enter, .ok =>
    if tun.closeLock ≠ none then none
    else if tun.closed then some (x, tunnelReturns scope true)
    else some (x.setTunnel t { tun with closeLock := some call }, some (.tunnel .client t scope))
  | .client, .closed confirmed =>
    some (x.closeClient tun.client confirmed, some (.tunnel (.upstream confirmed) t scope))
  | .upstream clientClosed, .closed confirmed =>
    let r := x.closeUpstream tun.upstream confirmed
    some (r.1, some (.tunnel (.release clientClosed r.2) t scope))
  | .release clientClosed upstreamClosed, .released callback =>
    some (x.releaseHandle tun.client tun.unix callback,
      some (.tunnel (.settle clientClosed upstreamClosed) t scope))
  | .settle clientClosed upstreamClosed, .ok =>
    if !clientClosed || !upstreamClosed then
      some (x.setTunnel t { tun with closeLock := none }, tunnelReturns scope false)
    else
      some (x.setTunnel t { tun with closeLock := none, closed := true },
        some (.tunnel .forget t scope))
  | .forget, .ok =>
    some ({ x with tunnels := x.tunnels.filter (· ≠ t) }, tunnelReturns scope true)
  | _, _ => none

/-- One step of `HostHttpsConnectScope.close`, after the tables have been read. -/
def cleanStep (x : ConnectScope) (k : Cleanup) (a : ConnectAnswer) :
    Option (ConnectScope × Option ConnectPc) :=
  match k.accepted, k.pending, k.tunnels, a with
  | client :: rest, _, _, .closed confirmed =>
    some (x.closeClient client confirmed,
      some (.cleaning { k with accepted := rest, ok := confirmed && k.ok }))
  | [], (client, unix) :: rest, _, .closed confirmed =>
    some (x.closeClient client confirmed,
      some (.releasing client unix { k with pending := rest, ok := confirmed && k.ok }))
  | [], [], t :: rest, .ok => some (x, some (.tunnel .enter t (some { k with tunnels := rest })))
  | [], [], [], .ok =>
    let result := k.ok && x.openCount == 0 && x.acceptedClients.isEmpty && x.tunnels.isEmpty
    some ({ x with log := x.log ++ [.closeReturned result] }, none)
  | _, _, _, _ => none

/-- One step of a call. -/
def move (x : ConnectScope) (call : ℕ) :
    ConnectPc → ConnectAnswer → Option (ConnectScope × Option ConnectPc)
  | .registerAccepted client, .healthy healthy =>
    if x.closed || !healthy || client ∈ x.acceptedClients then some (x, some (.refuse client))
    else
      some ({ x with
        acceptedClients := x.acceptedClients ++ [client]
        tracked := client :: x.tracked
        log := x.log ++ [.registered client] }, none)
  | .releaseAccepted client, .ok =>
    some ({ x with acceptedClients := x.acceptedClients.filter (· ≠ client) }, none)
  | .openConnect client unixTransport unixFamily, .ok =>
    some (x, some (if unixFamily ≠ unixTransport then .refuse client
      else .admitting client unixTransport))
  | .admitting client unix, .healthy healthy =>
    if x.closed || !healthy then some (x, some (.refuse client))
    else
      some ({ x with openCount := x.openCount + 1, owned := client :: x.owned },
        some (.opening .cancelCheck ⟨client, unix, false, none⟩))
  | .refuse client, .closed confirmed => some (x.closeClient client confirmed, none)
  | .opening step o, a => x.openStep o step a
  | .tunnel step t scope, a => (x.tunnel t).bind fun tun => x.tunnelStep call t tun scope step a
  | .close, .ok =>
    some ({ x with closed := true, cancelled := true, pendingClients := [] },
      some (.cleaning ⟨x.acceptedClients, x.pendingClients, x.tunnels, true⟩))
  | .cleaning k, a => x.cleanStep k a
  | .releasing client unix k, .released callback =>
    some (x.releaseHandle client unix callback, some (.cleaning k))
  | .revokeClient client, .closed confirmed => some (x.closeClient client confirmed, none)
  | .revokeUpstream u, .closed confirmed => some ((x.closeUpstream u confirmed).1, none)
  | _, _ => none

/-- Where a call begins. -/
def enter : ConnectCall → ConnectPc
  | .registerAccepted client => .registerAccepted client
  | .releaseAccepted client => .releaseAccepted client
  | .openConnect client unixTransport unixFamily => .openConnect client unixTransport unixFamily
  | .closeTunnel t => .tunnel .enter t none
  | .close => .close
  | .revokeClient client => .revokeClient client
  | .revokeUpstream u => .revokeUpstream u

def program : Program ConnectScope ConnectPc ConnectCall ConnectAnswer :=
  ⟨enter, move⟩

end ConnectScope

/-- A scope and the calls of its methods. -/
abbrev Connects := State ConnectScope ConnectPc

abbrev ConnectAction := Action ConnectCall ConnectAnswer

namespace Connects

def initial : Connects :=
  State.initial ConnectScope.initial

abbrev step : Connects → ConnectAction → Option Connects :=
  State.step ConnectScope.program

end Connects

/-! ## What is claimed -/

/-- The call is an open that is counted. -/
def ConnectPc.isOpening : ConnectPc → Bool
  | .opening _ _ => true
  | _ => false

/-- Something has been registered or opened. -/
def ConnectEvent.succeeds : ConnectEvent → Bool
  | .registered _ => true
  | .opened _ => true
  | .closeReturned _ => false

/-- The open that returns by an exception. -/
def ConnectPc.failed? : ConnectPc → Option OpenCall
  | .opening (.finish false) o => some o
  | _ => none

/-- The client that is released. -/
def ConnectPc.released? : ConnectPc → Option ℕ
  | .releaseAccepted client => some client
  | _ => none

/-- An open that has failed has had its client and its upstream closed when it returns; with
`peers`, a client is released before an open has taken it over only when it has been closed. -/
def ConnectScope.Settles (peers : Bool) (x : ConnectScope) (p : ConnectPc) : Prop :=
  (∀ o ∈ p.failed?, o.client ∈ x.confirmed ∧ ∀ u ∈ o.upstream, u ∈ x.closedUpstreams) ∧
    (peers = true → ∀ k ∈ p.released?, k ∈ x.acceptedClients → k ∈ x.confirmed ∨ k ∈ x.owned)

instance (peers : Bool) (x : ConnectScope) (p : ConnectPc) : Decidable (x.Settles peers p) :=
  inferInstanceAs (Decidable (_ ∧ (peers = true → ∀ k ∈ p.released?, k ∈ x.acceptedClients →
    k ∈ x.confirmed ∨ k ∈ x.owned)))

namespace Connects

/-- Once `close` has returned `True`, no open is under way, the closes of every client and upstream
have been confirmed, and nothing has been registered or opened since. With `peers`, the clients
that have only been registered count too. -/
structure ShutDown (peers : Bool) (s : Connects) : Prop where
  quiet : .closeReturned true ∈ s.shared.log → ∀ c p, s.calls c = some p → p.isOpening = false
  clients : .closeReturned true ∈ s.shared.log → ∀ k,
    k ∈ s.shared.owned ∨ peers = true ∧ k ∈ s.shared.tracked → k ∈ s.shared.confirmed
  upstreams : .closeReturned true ∈ s.shared.log →
    ∀ u < s.shared.nextUpstream, u ∈ s.shared.closedUpstreams
  last : s.shared.log.Pairwise fun e e' => e = .closeReturned true → e'.succeeds = false

/-- Every action meets the condition where its call stands. -/
def Settles (peers : Bool) (s : Connects) : ConnectAction → Prop
  | .enter _ => True
  | .move c _ => ∀ p ∈ s.calls c, s.shared.Settles peers p

instance (peers : Bool) (s : Connects) : DecidablePred (s.Settles peers)
  | .enter _ => isTrue trivial
  | .move c _ => inferInstanceAs (Decidable (∀ p ∈ s.calls c, s.shared.Settles peers p))

end Connects

/-! ## One step of a call -/

namespace ConnectPc

/-- The call is an open that has not published a tunnel for the client. -/
def Owns (p : ConnectPc) (k : ℕ) : Prop :=
  ∃ st o, p = .opening st o ∧ st ≠ .finish true ∧ o.client = k

/-- The call is an open that has not published a tunnel for its upstream. -/
def Uses (p : ConnectPc) (u : ℕ) : Prop :=
  ∃ st o, p = .opening st o ∧ st ≠ .finish true ∧ o.upstream = some u

theorem not_owns {p : ConnectPc} (h : p.isOpening = false) (k : ℕ) : ¬p.Owns k := by
  rintro ⟨st, o, rfl, -⟩
  cases h

theorem not_uses {p : ConnectPc} (h : p.isOpening = false) (u : ℕ) : ¬p.Uses u := by
  rintro ⟨st, o, rfl, -⟩
  cases h

@[simp] theorem owns_opening {st : OpenStep} {o : OpenCall} {k : ℕ} :
    (ConnectPc.opening st o).Owns k ↔ st ≠ .finish true ∧ o.client = k := by
  constructor
  · rintro ⟨st', o', he, hne, rfl⟩
    obtain ⟨rfl, rfl⟩ := ConnectPc.opening.inj he
    exact ⟨hne, rfl⟩
  · rintro ⟨hne, rfl⟩
    exact ⟨st, o, rfl, hne, rfl⟩

@[simp] theorem uses_opening {st : OpenStep} {o : OpenCall} {u : ℕ} :
    (ConnectPc.opening st o).Uses u ↔ st ≠ .finish true ∧ o.upstream = some u := by
  constructor
  · rintro ⟨st', o', he, hne, hu⟩
    obtain ⟨rfl, rfl⟩ := ConnectPc.opening.inj he
    exact ⟨hne, hu⟩
  · rintro ⟨hne, hu⟩
    exact ⟨st, o, rfl, hne, hu⟩

end ConnectPc

namespace ConnectScope

/-- The client is closed, or the client of a tunnel in the table. -/
def Safe (x : ConnectScope) (k : ℕ) : Prop :=
  k ∈ x.confirmed ∨ ∃ t ∈ x.tunnels, ∃ tun, x.tunnel t = some tun ∧ tun.client = k

/-- The upstream is closed, or the upstream of a tunnel in the table. -/
def SafeUpstream (x : ConnectScope) (u : ℕ) : Prop :=
  u ∈ x.closedUpstreams ∨ ∃ t ∈ x.tunnels, ∃ tun, x.tunnel t = some tun ∧ tun.upstream = u

/-- What holds of the scope between any two steps. -/
structure Sound (x : ConnectScope) : Prop where
  table : ∀ t ∈ x.tunnels, t < x.nextTunnel
  settled : ∀ t tun, x.tunnel t = some tun → tun.closed = true →
    tun.client ∈ x.confirmed ∧ tun.upstream ∈ x.closedUpstreams
  fresh : ∀ t, x.nextTunnel ≤ t → x.tunnel t = none
  returned : .closeReturned true ∈ x.log →
    x.closed = true ∧ x.openCount = 0 ∧ x.acceptedClients = [] ∧ x.tunnels = []
  last : x.log.Pairwise fun e e' => e = .closeReturned true → e'.succeeds = false

/-- What holds where `AuthorizedHttpsTunnel.close` stands. -/
def StandsTunnel (x : ConnectScope) (t : ℕ) : TunnelStep → Prop
  | .upstream b => ∃ tun, x.tunnel t = some tun ∧ (b = true → tun.client ∈ x.confirmed)
  | .release b b' => ∃ tun, x.tunnel t = some tun ∧ (b = true → tun.client ∈ x.confirmed) ∧
      (b' = true → tun.upstream ∈ x.closedUpstreams)
  | .settle b b' => ∃ tun, x.tunnel t = some tun ∧ (b = true → tun.client ∈ x.confirmed) ∧
      (b' = true → tun.upstream ∈ x.closedUpstreams)
  | .forget => ∃ tun, x.tunnel t = some tun ∧ tun.closed = true
  | _ => True

/-- What holds where a call stands. -/
def Stands (x : ConnectScope) : ConnectPc → Prop
  | .opening st o => o.client ∈ x.owned ∧ (st.beforeConnect = true → o.upstream = none)
  | .tunnel st t scope => x.StandsTunnel t st ∧ (scope.isSome = true → x.closed = true)
  | .cleaning _ => x.closed = true
  | .releasing _ _ _ => x.closed = true
  | _ => True

/-- What no step takes back. -/
structure Keeps (x x' : ConnectScope) : Prop where
  confirmed : ∀ k ∈ x.confirmed, k ∈ x'.confirmed
  upstreams : ∀ u ∈ x.closedUpstreams, u ∈ x'.closedUpstreams
  closed : x.closed = true → x'.closed = true
  owned : ∀ k ∈ x.owned, k ∈ x'.owned
  tunnel : ∀ t tun, x.tunnel t = some tun → ∃ tun', x'.tunnel t = some tun' ∧
    tun'.client = tun.client ∧ tun'.upstream = tun.upstream ∧
      (tun.closed = true → tun'.closed = true)

/-- What a step of a call may do. -/
structure Effect (x : ConnectScope) (p : ConnectPc) (x' : ConnectScope) (q : Option ConnectPc) :
    Prop where
  sound : x'.Sound
  stands : ∀ q', q = some q' → x'.Stands q'
  keeps : Keeps x x'
  count : 0 < x.openCount ∨ p.isOpening = false →
    x'.openCount + p.isOpening.toNat = x.openCount + (q.any ConnectPc.isOpening).toNat
  safe : ∀ k, x.Safe k → x'.Safe k
  safeUpstream : ∀ u, x.SafeUpstream u → x'.SafeUpstream u
  owned : ∀ k ∈ x'.owned, k ∈ x.owned ∨ ∃ q', q = some q' ∧ q'.Owns k
  owns : ∀ k, p.Owns k → (∃ q', q = some q' ∧ q'.Owns k) ∨ x'.Safe k ∨ ∃ o, o.client = k ∧
    p = .opening (.finish false) o
  upstreams : ∀ u < x'.nextUpstream, u < x.nextUpstream ∨ ∃ q', q = some q' ∧ q'.Uses u
  uses : ∀ u, p.Uses u → (∃ q', q = some q' ∧ q'.Uses u) ∨ x'.SafeUpstream u ∨
    ∃ o, o.upstream = some u ∧ p = .opening (.finish false) o
  accepted : ∀ k ∈ x.acceptedClients, k ∈ x'.acceptedClients ∨ k ∈ x'.owned ∨
    p = .releaseAccepted k
  tracked : ∀ k ∈ x'.tracked, k ∈ x.tracked ∨ k ∈ x'.acceptedClients

variable {x x' : ConnectScope} {p : ConnectPc} {q : Option ConnectPc} {a : ConnectAnswer}

theorem StandsTunnel.of_keeps {t : ℕ} {st : TunnelStep} (hk : Keeps x x')
    (h : x.StandsTunnel t st) : x'.StandsTunnel t st := by
  cases st
  case upstream b =>
    obtain ⟨tun, ht, hb⟩ := h
    obtain ⟨tun', ht', hclient, -, -⟩ := hk.tunnel t tun ht
    exact ⟨tun', ht', fun hb' => hclient ▸ hk.confirmed _ (hb hb')⟩
  case release b b' =>
    obtain ⟨tun, ht, hb, hb'⟩ := h
    obtain ⟨tun', ht', hclient, hupstream, -⟩ := hk.tunnel t tun ht
    exact ⟨tun', ht', fun h => hclient ▸ hk.confirmed _ (hb h),
      fun h => hupstream ▸ hk.upstreams _ (hb' h)⟩
  case settle b b' =>
    obtain ⟨tun, ht, hb, hb'⟩ := h
    obtain ⟨tun', ht', hclient, hupstream, -⟩ := hk.tunnel t tun ht
    exact ⟨tun', ht', fun h => hclient ▸ hk.confirmed _ (hb h),
      fun h => hupstream ▸ hk.upstreams _ (hb' h)⟩
  case forget =>
    obtain ⟨tun, ht, hclosed⟩ := h
    obtain ⟨tun', ht', -, -, hclosed'⟩ := hk.tunnel t tun ht
    exact ⟨tun', ht', hclosed' hclosed⟩
  all_goals trivial

theorem Stands.of_keeps (hk : Keeps x x') (h : x.Stands p) : x'.Stands p := by
  cases p
  case opening st o => exact ⟨hk.owned _ h.1, h.2⟩
  case tunnel st t scope => exact ⟨h.1.of_keeps hk, fun hs => hk.closed (h.2 hs)⟩
  case cleaning => exact hk.closed h
  case releasing => exact hk.closed h
  all_goals trivial

/-! ### Closes -/

/-- Nothing has changed but that more sockets are closed, and the pending clients. -/
def Grows (x x' : ConnectScope) : Prop :=
  ∃ cs us ps, x' = { x with confirmed := cs, closedUpstreams := us, pendingClients := ps } ∧
    (∀ k ∈ x.confirmed, k ∈ cs) ∧ ∀ u ∈ x.closedUpstreams, u ∈ us

theorem Grows.refl (x : ConnectScope) : Grows x x :=
  ⟨_, _, _, rfl, fun _ h => h, fun _ h => h⟩

theorem grows_closeClient (x : ConnectScope) (k : ℕ) (b : Bool) : Grows x (x.closeClient k b) := by
  cases b with
  | false => exact .refl x
  | true => exact ⟨_, _, _, rfl, fun _ h => List.mem_cons_of_mem k h, fun _ h => h⟩

theorem grows_closeUpstream (x : ConnectScope) (u : ℕ) (b : Bool) :
    Grows x (x.closeUpstream u b).1 := by
  unfold closeUpstream
  split
  · exact .refl x
  · split
    · exact ⟨_, _, _, rfl, fun _ h => h, fun _ h => List.mem_cons_of_mem u h⟩
    · exact .refl x

theorem grows_releaseHandle (x : ConnectScope) (k : ℕ) (unix : Bool) (callback : Option Bool) :
    Grows x (x.releaseHandle k unix callback) := by
  unfold releaseHandle
  split
  · exact grows_closeClient x k _
  · exact .refl x

theorem mem_closeUpstream {u : ℕ} {b : Bool} (h : (x.closeUpstream u b).2 = true) :
    u ∈ (x.closeUpstream u b).1.closedUpstreams := by
  unfold closeUpstream at h ⊢
  split at h
  · rwa [if_pos ‹_›]
  · rw [if_neg ‹_›]
    split at h
    · rw [if_pos ‹_›]
      exact List.mem_cons_self
    · cases h

theorem Grows.keeps (g : Grows x x') : Keeps x x' := by
  obtain ⟨cs, us, ps, rfl, hc, hu⟩ := g
  exact ⟨hc, hu, fun h => h, fun _ h => h, fun t tun h => ⟨tun, h, rfl, rfl, fun h => h⟩⟩

theorem Grows.sound (g : Grows x x') (h : x.Sound) : x'.Sound := by
  obtain ⟨cs, us, ps, rfl, hc, hu⟩ := g
  exact ⟨h.table, fun t tun ht hclosed => (h.settled t tun ht hclosed).imp (hc _) (hu _), h.fresh,
    h.returned, h.last⟩

theorem Grows.safe (g : Grows x x') (k : ℕ) (h : x.Safe k) : x'.Safe k := by
  obtain ⟨cs, us, ps, rfl, hc, hu⟩ := g
  exact h.imp (hc k) fun h => h

theorem Grows.safeUpstream (g : Grows x x') (u : ℕ) (h : x.SafeUpstream u) :
    x'.SafeUpstream u := by
  obtain ⟨cs, us, ps, rfl, hc, hu⟩ := g
  exact h.imp (hu u) fun h => h

/-- A step that closes sockets at most. -/
theorem Grows.effect (g : Grows x x') (h : x.Sound) (hstands : ∀ q', q = some q' → x'.Stands q')
    (hopening : q.any ConnectPc.isOpening = p.isOpening)
    (howns : ∀ k, p.Owns k → ∃ q', q = some q' ∧ q'.Owns k)
    (huses : ∀ u, p.Uses u → ∃ q', q = some q' ∧ q'.Uses u) : Effect x p x' q := by
  have hsound := g.sound h
  have hkeeps := g.keeps
  have hsafe := g.safe
  have hupstream := g.safeUpstream
  obtain ⟨cs, us, ps, rfl, -, -⟩ := g
  exact ⟨hsound, hstands, hkeeps, fun _ => by rw [hopening], hsafe, hupstream,
    fun k hk => Or.inl hk, fun k hk => Or.inl (howns k hk), fun u hu => Or.inl hu,
    fun u hu => Or.inl (huses u hu), fun k hk => Or.inl hk, fun k hk => Or.inl hk⟩

/-- Such a step of a call that is no open. -/
theorem Grows.effect_other (g : Grows x x') (h : x.Sound)
    (hstands : ∀ q', q = some q' → x'.Stands q') (hp : p.isOpening = false)
    (hq : q.any ConnectPc.isOpening = false) : Effect x p x' q :=
  g.effect h hstands (hq.trans hp.symm) (fun k hk => absurd hk (ConnectPc.not_owns hp k))
    fun u hu => absurd hu (ConnectPc.not_uses hp u)

/-! ### Opens -/

/-- An open that goes on with sockets closed at most. -/
theorem Grows.effect_opening {st st' : OpenStep} {o o' : OpenCall} (g : Grows x x') (h : x.Sound)
    (hs : x.Stands (.opening st o)) (hne : st' ≠ .finish true) (hclient : o'.client = o.client)
    (hupstream : o'.upstream = o.upstream)
    (hbefore : st'.beforeConnect = true → st.beforeConnect = true) :
    Effect x (.opening st o) x' (some (.opening st' o')) := by
  refine g.effect h (fun q' hq => ?_) rfl ?_ ?_
  · obtain rfl := Option.some.inj hq
    refine ⟨?_, fun hst => hupstream.trans (hs.2 (hbefore hst))⟩
    rw [hclient]
    exact g.keeps.owned _ hs.1
  · intro k hk
    obtain ⟨-, rfl⟩ := ConnectPc.owns_opening.mp hk
    exact ⟨_, rfl, ConnectPc.owns_opening.mpr ⟨hne, hclient⟩⟩
  · intro u hu
    obtain ⟨-, hu⟩ := ConnectPc.uses_opening.mp hu
    exact ⟨_, rfl, ConnectPc.uses_opening.mpr ⟨hne, hupstream.trans hu⟩⟩

/-- The client is moved to the pending clients. -/
theorem effect_of_adopt {o : OpenCall} (h : x.Sound) (hs : x.Stands (.opening .adopt o)) :
    Effect x (.opening .adopt o)
      { x with
        acceptedClients := x.acceptedClients.filter (· ≠ o.client)
        pendingClients := x.pendingClients.set o.client o.unix } (some (.opening .connect o)) where
  sound := ⟨h.table, h.settled, h.fresh, fun hr => by
    obtain ⟨hclosed, hcount, haccepted, htunnels⟩ := h.returned hr
    exact ⟨hclosed, hcount, by simp [haccepted], htunnels⟩, h.last⟩
  stands q' hq := by
    obtain rfl := Option.some.inj hq
    exact ⟨hs.1, fun _ => hs.2 rfl⟩
  keeps := ⟨fun _ h => h, fun _ h => h, fun h => h, fun _ h => h,
    fun t tun h => ⟨tun, h, rfl, rfl, fun h => h⟩⟩
  count _ := rfl
  safe _ h := h
  safeUpstream _ h := h
  owned k hk := Or.inl hk
  owns k hk := Or.inl ⟨_, rfl, ConnectPc.owns_opening.mpr ⟨nofun, (ConnectPc.owns_opening.mp hk).2⟩⟩
  upstreams u hu := Or.inl hu
  uses u hu := Or.inl ⟨_, rfl, ConnectPc.uses_opening.mpr ⟨nofun, (ConnectPc.uses_opening.mp hu).2⟩⟩
  accepted k hk := by
    by_cases hko : k = o.client
    · subst hko
      exact Or.inr (Or.inl hs.1)
    · exact Or.inl (List.mem_filter.mpr ⟨hk, by simpa using hko⟩)
  tracked k hk := Or.inl hk

/-- The upstream is connected. -/
theorem effect_of_connect {o : OpenCall} (h : x.Sound) (hs : x.Stands (.opening .connect o)) :
    Effect x (.opening .connect o) { x with nextUpstream := x.nextUpstream + 1 }
      (some (.opening .healthCheck { o with upstream := some x.nextUpstream })) where
  sound := ⟨h.table, h.settled, h.fresh, h.returned, h.last⟩
  stands q' hq := by
    obtain rfl := Option.some.inj hq
    exact ⟨hs.1, nofun⟩
  keeps := ⟨fun _ h => h, fun _ h => h, fun h => h, fun _ h => h,
    fun t tun h => ⟨tun, h, rfl, rfl, fun h => h⟩⟩
  count _ := rfl
  safe _ h := h
  safeUpstream _ h := h
  owned k hk := Or.inl hk
  owns k hk := Or.inl ⟨_, rfl, ConnectPc.owns_opening.mpr ⟨nofun, (ConnectPc.owns_opening.mp hk).2⟩⟩
  upstreams u hu := by
    have hu : u < x.nextUpstream + 1 := hu
    rcases Nat.lt_or_ge u x.nextUpstream with hlt | hge
    · exact Or.inl hlt
    · obtain rfl : u = x.nextUpstream := by omega
      exact Or.inr ⟨_, rfl, ConnectPc.uses_opening.mpr ⟨nofun, rfl⟩⟩
  uses u hu := by
    have hsome := (ConnectPc.uses_opening.mp hu).2
    rw [hs.2 rfl] at hsome
    cases hsome
  accepted k hk := Or.inl hk
  tracked k hk := Or.inl hk

/-- The tunnel is published. -/
theorem effect_of_publish {o : OpenCall} {u : ℕ} (h : x.Sound)
    (hs : x.Stands (.opening .publish o)) (hopen : x.closed = false) (hu : o.upstream = some u) :
    Effect x (.opening .publish o)
      { x.setTunnel x.nextTunnel ⟨o.client, u, o.unix, none, false⟩ with
        pendingClients := x.pendingClients.erase o.client
        tunnels := x.tunnels ++ [x.nextTunnel]
        nextTunnel := x.nextTunnel + 1
        log := x.log ++ [.opened x.nextTunnel] } (some (.opening (.finish true) o)) := by
  have hnew : ∀ {t tun}, x.tunnel t = some tun → t ≠ x.nextTunnel := by
    rintro t tun ht rfl
    rw [h.fresh _ le_rfl] at ht
    cases ht
  have hold : ∀ {t tun}, x.tunnel t = some tun → Function.update x.tunnel x.nextTunnel
      (some ⟨o.client, u, o.unix, none, false⟩) t = some tun := fun ht => by simp [hnew ht, ht]
  have hmem : x.nextTunnel ∈ x.tunnels ++ [x.nextTunnel] :=
    List.mem_append_right _ (List.mem_singleton_self _)
  have hnot : ConnectEvent.closeReturned true ∉ x.log := fun hr => by
    rw [(h.returned hr).1] at hopen
    cases hopen
  refine ⟨⟨fun t ht => ?_, fun t tun ht hclosed => ?_, fun t ht => ?_, fun hr => ?_, ?_⟩,
    fun q' hq => ?_, ⟨fun _ h => h, fun _ h => h, fun h => h, fun _ h => h,
      fun t tun ht => ⟨tun, hold ht, rfl, rfl, fun h => h⟩⟩, fun _ => rfl, fun k hk => ?_,
    fun u' hu' => ?_, fun k hk => Or.inl hk, fun k hk => Or.inr (Or.inl ?_),
    fun u' hu' => Or.inl hu', fun u' hu' => Or.inr (Or.inl ?_), fun k hk => Or.inl hk,
    fun k hk => Or.inl hk⟩
  · show t < x.nextTunnel + 1
    rcases List.mem_append.mp ht with ht | ht
    · exact Nat.lt_succ_of_lt (h.table t ht)
    · rw [List.mem_singleton.mp ht]
      exact Nat.lt_succ_self _
  · by_cases htn : t = x.nextTunnel
    · subst htn
      obtain rfl : _ = tun := by simpa [setTunnel] using ht
      cases hclosed
    · exact h.settled t tun (by simpa [setTunnel, htn] using ht) hclosed
  · have ht : x.nextTunnel + 1 ≤ t := ht
    have hne : t ≠ x.nextTunnel := by omega
    simpa [setTunnel, hne] using h.fresh t (by omega)
  · exact absurd (by simpa using hr) hnot
  · rw [List.pairwise_append]
    refine ⟨h.last, List.pairwise_singleton _ _, fun e he e' _ hreturned => ?_⟩
    exact absurd (hreturned ▸ he) hnot
  · obtain rfl := Option.some.inj hq
    exact ⟨hs.1, nofun⟩
  · exact hk.imp (fun h => h) fun ⟨t, ht, tun, htun, he⟩ =>
      ⟨t, List.mem_append_left _ ht, tun, hold htun, he⟩
  · exact hu'.imp (fun h => h) fun ⟨t, ht, tun, htun, he⟩ =>
      ⟨t, List.mem_append_left _ ht, tun, hold htun, he⟩
  · exact Or.inr ⟨_, hmem, _, by simp [setTunnel]; rfl, (ConnectPc.owns_opening.mp hk).2⟩
  · have he := (ConnectPc.uses_opening.mp hu').2
    exact Or.inr ⟨_, hmem, _, by simp [setTunnel]; rfl, Option.some.inj (hu.symm.trans he)⟩

/-- The open returns. -/
theorem effect_of_finish {o : OpenCall} {published : Bool} (h : x.Sound) :
    Effect x (.opening (.finish published) o)
      { x with
        pendingClients := x.pendingClients.erase o.client
        openCount := x.openCount - 1 } none where
  sound := ⟨h.table, h.settled, h.fresh, fun hr => by
    obtain ⟨hclosed, hcount, haccepted, htunnels⟩ := h.returned hr
    exact ⟨hclosed, by simp [hcount], haccepted, htunnels⟩, h.last⟩
  stands := nofun
  keeps := ⟨fun _ h => h, fun _ h => h, fun h => h, fun _ h => h,
    fun t tun h => ⟨tun, h, rfl, rfl, fun h => h⟩⟩
  count hpos := by
    have hpos : 0 < x.openCount := hpos.resolve_right nofun
    show x.openCount - 1 + 1 = x.openCount + 0
    omega
  safe _ h := h
  safeUpstream _ h := h
  owned k hk := Or.inl hk
  owns k hk := by
    obtain ⟨hne, hclient⟩ := ConnectPc.owns_opening.mp hk
    cases published with
    | true => exact absurd rfl hne
    | false => exact Or.inr (Or.inr ⟨o, hclient, rfl⟩)
  upstreams u hu := Or.inl hu
  uses u hu := by
    obtain ⟨hne, hupstream⟩ := ConnectPc.uses_opening.mp hu
    cases published with
    | true => exact absurd rfl hne
    | false => exact Or.inr (Or.inr ⟨o, hupstream, rfl⟩)
  accepted k hk := Or.inl hk
  tracked k hk := Or.inl hk

theorem effect_of_openStep {st : OpenStep} {o : OpenCall} (h : x.Sound)
    (hs : x.Stands (.opening st o)) (hm : x.openStep o st a = some (x', q)) :
    Effect x (.opening st o) x' q := by
  have hgoto : ∀ {st' : OpenStep} {o' : OpenCall}, st' ≠ .finish true → o'.client = o.client →
      o'.upstream = o.upstream → (st'.beforeConnect = true → st.beforeConnect = true) →
      Effect x (.opening st o) x (some (.opening st' o')) := (Grows.refl x).effect_opening h hs
  cases st <;> cases a <;> simp only [openStep, Option.some.injEq, reduceCtorEq, Prod.mk.injEq] at hm
  case cancelCheck.ok =>
    obtain ⟨rfl, rfl⟩ := hm
    split <;> exact hgoto nofun rfl rfl (fun _ => rfl)
  case authorize.ok =>
    obtain ⟨rfl, rfl⟩ := hm
    exact hgoto nofun rfl rfl (fun _ => rfl)
  case authorize.raises =>
    obtain ⟨rfl, rfl⟩ := hm
    exact hgoto nofun rfl rfl (fun _ => rfl)
  case register.ok =>
    obtain ⟨rfl, rfl⟩ := hm
    exact hgoto nofun rfl rfl (fun _ => rfl)
  case register.raises =>
    obtain ⟨rfl, rfl⟩ := hm
    exact hgoto nofun rfl rfl (fun _ => rfl)
  case adopt.ok =>
    split at hm <;> obtain ⟨rfl, rfl⟩ := Prod.mk.inj (Option.some.inj hm)
    · exact hgoto nofun rfl rfl (fun _ => rfl)
    · exact effect_of_adopt h hs
  case connect.ok =>
    obtain ⟨rfl, rfl⟩ := hm
    exact effect_of_connect h hs
  case connect.raises =>
    obtain ⟨rfl, rfl⟩ := hm
    exact hgoto nofun rfl rfl (fun _ => rfl)
  case healthCheck.healthy healthy =>
    obtain ⟨rfl, rfl⟩ := hm
    split <;> exact hgoto nofun rfl rfl nofun
  case reauthorize.ok =>
    obtain ⟨rfl, rfl⟩ := hm
    exact hgoto nofun rfl rfl nofun
  case reauthorize.raises =>
    obtain ⟨rfl, rfl⟩ := hm
    exact hgoto nofun rfl rfl nofun
  case publish.ok =>
    split at hm
    · obtain ⟨rfl, rfl⟩ := Prod.mk.inj (Option.some.inj hm)
      exact hgoto nofun rfl rfl nofun
    · rename_i hopen
      obtain ⟨u, hu, he⟩ := Option.map_eq_some_iff.mp hm
      obtain ⟨rfl, rfl⟩ := Prod.mk.inj he
      exact effect_of_publish h hs (by simp_all) hu
  case closeUpstream.ok =>
    split at hm
    · obtain ⟨rfl, rfl⟩ := Prod.mk.inj (Option.some.inj hm)
      exact hgoto nofun rfl rfl nofun
    · cases hm
  case closeUpstream.closed confirmed =>
    obtain ⟨u, hu, he⟩ := Option.map_eq_some_iff.mp hm
    obtain ⟨rfl, rfl⟩ := Prod.mk.inj he
    exact (grows_closeUpstream x u confirmed).effect_opening h hs nofun rfl rfl nofun
  case closeClient.closed confirmed =>
    obtain ⟨rfl, rfl⟩ := hm
    have hne : (if o.handle = true then OpenStep.release else .finish false) ≠ .finish true := by
      split <;> nofun
    exact (grows_closeClient x _ confirmed).effect_opening h hs hne rfl rfl fun hst => by
      split at hst <;> cases hst
  case release.released callback =>
    obtain ⟨rfl, rfl⟩ := hm
    exact (grows_releaseHandle x _ _ callback).effect_opening h hs nofun rfl rfl nofun
  case finish.ok published =>
    obtain ⟨rfl, rfl⟩ := hm
    exact effect_of_finish h

/-! ### Tunnels -/

theorem isOpening_tunnelReturns {scope : Option Cleanup} {result : Bool} :
    (tunnelReturns scope result).any ConnectPc.isOpening = false := by
  cases scope <;> rfl

theorem stands_tunnelReturns {scope : Option Cleanup} {result : Bool}
    (hclosed : scope.isSome = true → x.closed = true) :
    ∀ q', tunnelReturns scope result = some q' → x.Stands q' := by
  intro q' hq
  obtain ⟨k, rfl, rfl⟩ := Option.map_eq_some_iff.mp hq
  exact hclosed rfl

/-- A tunnel of which the sockets stay the same is changed; it is said to be closed only when they
are. -/
theorem effect_of_setTunnel {t : ℕ} {tun tun' : Tunnel} (h : x.Sound) (ht : x.tunnel t = some tun)
    (hclient : tun'.client = tun.client) (hupstream : tun'.upstream = tun.upstream)
    (hkept : tun.closed = true → tun'.closed = true)
    (hsettled : tun'.closed = true → tun.client ∈ x.confirmed ∧ tun.upstream ∈ x.closedUpstreams)
    (hstands : ∀ q', q = some q' → (x.setTunnel t tun').Stands q') (hp : p.isOpening = false)
    (hq : q.any ConnectPc.isOpening = false) : Effect x p (x.setTunnel t tun') q := by
  have hsame : ∀ {t' tun₀}, x.tunnel t' = some tun₀ → ∃ tun₁,
      (x.setTunnel t tun').tunnel t' = some tun₁ ∧ tun₁.client = tun₀.client ∧
        tun₁.upstream = tun₀.upstream ∧ (tun₀.closed = true → tun₁.closed = true) := by
    intro t' tun₀ h₀
    by_cases htt : t' = t
    · subst htt
      obtain rfl := Option.some.inj (ht.symm.trans h₀)
      exact ⟨tun', by simp [setTunnel], hclient, hupstream, hkept⟩
    · exact ⟨tun₀, by simpa [setTunnel, htt] using h₀, rfl, rfl, fun h => h⟩
  refine ⟨⟨h.table, fun t' tun₀ h₀ hclosed => ?_, fun t' ht' => ?_, h.returned, h.last⟩, hstands,
    ⟨fun _ h => h, fun _ h => h, fun h => h, fun _ h => h, fun _ _ => hsame⟩,
    fun _ => by rw [hp, hq]; rfl, fun k hk => ?_, fun u hu => ?_, fun k hk => Or.inl hk,
    fun k hk => absurd hk (ConnectPc.not_owns hp k), fun u hu => Or.inl hu,
    fun u hu => absurd hu (ConnectPc.not_uses hp u), fun k hk => Or.inl hk, fun k hk => Or.inl hk⟩
  · by_cases htt : t' = t
    · subst htt
      obtain rfl : tun' = tun₀ := by simpa [setTunnel] using h₀
      rw [hclient, hupstream]
      exact hsettled hclosed
    · exact h.settled t' tun₀ (by simpa [setTunnel, htt] using h₀) hclosed
  · have hne : t' ≠ t := by
      rintro rfl
      rw [h.fresh t' ht'] at ht
      cases ht
    simpa [setTunnel, hne] using h.fresh t' ht'
  · refine hk.imp (fun h => h) ?_
    rintro ⟨t', hmem, tun₀, h₀, rfl⟩
    obtain ⟨tun₁, h₁, he, -, -⟩ := hsame h₀
    exact ⟨t', hmem, tun₁, h₁, he⟩
  · refine hu.imp (fun h => h) ?_
    rintro ⟨t', hmem, tun₀, h₀, rfl⟩
    obtain ⟨tun₁, h₁, -, he, -⟩ := hsame h₀
    exact ⟨t', hmem, tun₁, h₁, he⟩

/-- A closed tunnel is taken out of the table. -/
theorem effect_of_forget {t : ℕ} {tun : Tunnel} (h : x.Sound) (ht : x.tunnel t = some tun)
    (hclosed : tun.closed = true) (hstands : ∀ q', q = some q' → x.Stands q')
    (hp : p.isOpening = false) (hq : q.any ConnectPc.isOpening = false) :
    Effect x p { x with tunnels := x.tunnels.filter (· ≠ t) } q := by
  have hkeeps : Keeps x { x with tunnels := x.tunnels.filter (· ≠ t) } :=
    ⟨fun _ h => h, fun _ h => h, fun h => h, fun _ h => h,
      fun t' tun' h' => ⟨tun', h', rfl, rfl, fun h => h⟩⟩
  obtain ⟨hclient, hupstream⟩ := h.settled t tun ht hclosed
  refine ⟨⟨fun t' ht' => h.table t' (List.mem_of_mem_filter ht'), h.settled, h.fresh, fun hr => ?_,
    h.last⟩, fun q' hq' => (hstands q' hq').of_keeps hkeeps, hkeeps, fun _ => by rw [hp, hq],
    fun k hk => ?_, fun u hu => ?_, fun k hk => Or.inl hk,
    fun k hk => absurd hk (ConnectPc.not_owns hp k), fun u hu => Or.inl hu,
    fun u hu => absurd hu (ConnectPc.not_uses hp u), fun k hk => Or.inl hk, fun k hk => Or.inl hk⟩
  · obtain ⟨hc, hcount, haccepted, htunnels⟩ := h.returned hr
    exact ⟨hc, hcount, haccepted, by simp [htunnels]⟩
  · rcases hk with hk | ⟨t', hmem, tun', ht', rfl⟩
    · exact Or.inl hk
    · by_cases htt : t' = t
      · subst htt
        obtain rfl := Option.some.inj (ht.symm.trans ht')
        exact Or.inl hclient
      · exact Or.inr ⟨t', List.mem_filter.mpr ⟨hmem, by simpa using htt⟩, tun', ht', rfl⟩
  · rcases hu with hu | ⟨t', hmem, tun', ht', rfl⟩
    · exact Or.inl hu
    · by_cases htt : t' = t
      · subst htt
        obtain rfl := Option.some.inj (ht.symm.trans ht')
        exact Or.inl hupstream
      · exact Or.inr ⟨t', List.mem_filter.mpr ⟨hmem, by simpa using htt⟩, tun', ht', rfl⟩

theorem effect_of_tunnelStep {c t : ℕ} {st : TunnelStep} {tun : Tunnel} {scope : Option Cleanup}
    (h : x.Sound) (hs : x.Stands (.tunnel st t scope)) (ht : x.tunnel t = some tun)
    (hm : x.tunnelStep c t tun scope st a = some (x', q)) :
    Effect x (.tunnel st t scope) x' q := by
  obtain ⟨hstands, hclosed⟩ := hs
  cases st <;> cases a <;>
    simp only [tunnelStep, Option.some.injEq, reduceCtorEq, Prod.mk.injEq] at hm
  case enter.ok =>
    split at hm
    · cases hm
    split at hm <;> obtain ⟨rfl, rfl⟩ := Prod.mk.inj (Option.some.inj hm)
    · exact (Grows.refl x).effect_other h (stands_tunnelReturns hclosed) rfl
        isOpening_tunnelReturns
    · refine effect_of_setTunnel h ht rfl rfl (fun h => h) (h.settled t tun ht) (fun q' hq => ?_)
        rfl rfl
      obtain rfl := Option.some.inj hq
      exact ⟨trivial, hclosed⟩
  case client.closed b =>
    obtain ⟨rfl, rfl⟩ := hm
    have g := grows_closeClient x tun.client b
    refine g.effect_other h (fun q' hq => ?_) rfl rfl
    obtain rfl := Option.some.inj hq
    obtain ⟨tun', ht', hclient, -, -⟩ := g.keeps.tunnel t tun ht
    refine ⟨⟨tun', ht', fun hb => ?_⟩, fun hscope => g.keeps.closed (hclosed hscope)⟩
    rw [hclient, hb]
    exact List.mem_cons_self
  case upstream.closed clientClosed b =>
    obtain ⟨rfl, rfl⟩ := hm
    have g := grows_closeUpstream x tun.upstream b
    refine g.effect_other h (fun q' hq => ?_) rfl rfl
    obtain rfl := Option.some.inj hq
    obtain ⟨tun₀, ht₀, hclient₀⟩ := hstands
    obtain rfl := Option.some.inj (ht.symm.trans ht₀)
    obtain ⟨tun', ht', hclient, hupstream, -⟩ := g.keeps.tunnel t tun ht
    refine ⟨⟨tun', ht', fun hb => ?_, fun hb => ?_⟩, fun hscope => g.keeps.closed (hclosed hscope)⟩
    · rw [hclient]
      exact g.keeps.confirmed _ (hclient₀ hb)
    · rw [hupstream]
      exact mem_closeUpstream hb
  case release.released clientClosed upstreamClosed callback =>
    obtain ⟨rfl, rfl⟩ := hm
    have g := grows_releaseHandle x tun.client tun.unix callback
    refine g.effect_other h (fun q' hq => ?_) rfl rfl
    obtain rfl := Option.some.inj hq
    have hsettle : x.StandsTunnel t (.settle clientClosed upstreamClosed) := hstands
    exact ⟨hsettle.of_keeps g.keeps, fun hscope => g.keeps.closed (hclosed hscope)⟩
  case settle.ok clientClosed upstreamClosed =>
    obtain ⟨tun₀, ht₀, hclient, hupstream⟩ := hstands
    obtain rfl := Option.some.inj (ht.symm.trans ht₀)
    split at hm <;> obtain ⟨rfl, rfl⟩ := Prod.mk.inj (Option.some.inj hm)
    · exact effect_of_setTunnel h ht rfl rfl (fun h => h) (h.settled t tun ht)
        (stands_tunnelReturns hclosed) rfl isOpening_tunnelReturns
    · rename_i hboth
      simp only [Bool.or_eq_true, Bool.not_eq_true', not_or, Bool.not_eq_false] at hboth
      refine effect_of_setTunnel h ht rfl rfl (fun _ => rfl)
        (fun _ => ⟨hclient hboth.1, hupstream hboth.2⟩) (fun q' hq => ?_) rfl rfl
      obtain rfl := Option.some.inj hq
      exact ⟨⟨_, by simp [setTunnel]; rfl, rfl⟩, hclosed⟩
  case forget.ok =>
    obtain ⟨rfl, rfl⟩ := hm
    obtain ⟨tun₀, ht₀, hset⟩ := hstands
    exact effect_of_forget h ht₀ hset (stands_tunnelReturns hclosed) rfl isOpening_tunnelReturns

/-! ### The scope -/

theorem effect_of_cleanStep {k : Cleanup} (h : x.Sound) (hs : x.Stands (.cleaning k))
    (hm : x.cleanStep k a = some (x', q)) : Effect x (.cleaning k) x' q := by
  have hclosed : x.closed = true := hs
  unfold cleanStep at hm
  split at hm
  · rename_i k' _ b _
    obtain ⟨rfl, rfl⟩ := Prod.mk.inj (Option.some.inj hm)
    have g := grows_closeClient x k' b
    refine g.effect_other h (fun q' hq => ?_) rfl rfl
    obtain rfl := Option.some.inj hq
    exact g.keeps.closed hclosed
  · rename_i k' _ _ b _ _
    obtain ⟨rfl, rfl⟩ := Prod.mk.inj (Option.some.inj hm)
    have g := grows_closeClient x k' b
    refine g.effect_other h (fun q' hq => ?_) rfl rfl
    obtain rfl := Option.some.inj hq
    exact g.keeps.closed hclosed
  · obtain ⟨rfl, rfl⟩ := Prod.mk.inj (Option.some.inj hm)
    refine (Grows.refl x).effect_other h (fun q' hq => ?_) rfl rfl
    obtain rfl := Option.some.inj hq
    exact ⟨trivial, fun _ => hclosed⟩
  · -- `close` returns.
    obtain ⟨rfl, rfl⟩ := Prod.mk.inj (Option.some.inj hm)
    refine ⟨⟨h.table, h.settled, h.fresh, fun hr => ?_, ?_⟩, nofun,
      ⟨fun _ h => h, fun _ h => h, fun h => h, fun _ h => h,
        fun t tun h => ⟨tun, h, rfl, rfl, fun h => h⟩⟩, fun _ => rfl, fun _ h => h, fun _ h => h,
      fun k hk => Or.inl hk, fun k hk => absurd hk (ConnectPc.not_owns rfl k),
      fun u hu => Or.inl hu, fun u hu => absurd hu (ConnectPc.not_uses rfl u),
      fun k hk => Or.inl hk, fun k hk => Or.inl hk⟩
    · rcases List.mem_append.mp hr with hr | hr
      · exact h.returned hr
      · have hresult := (ConnectEvent.closeReturned.inj (List.mem_singleton.mp hr)).symm
        simp only [Bool.and_eq_true, beq_iff_eq, List.isEmpty_iff] at hresult
        obtain ⟨⟨⟨-, hcount⟩, haccepted⟩, htunnels⟩ := hresult
        exact ⟨hclosed, hcount, haccepted, htunnels⟩
    · rw [List.pairwise_append]
      refine ⟨h.last, List.pairwise_singleton _ _, fun e _ e' he' _ => ?_⟩
      rw [List.mem_singleton.mp he']
      rfl
  · cases hm

/-- A client is registered. -/
theorem effect_of_register {k : ℕ} (h : x.Sound) (hopen : x.closed = false) :
    Effect x (.registerAccepted k)
      { x with
        acceptedClients := x.acceptedClients ++ [k]
        tracked := k :: x.tracked
        log := x.log ++ [.registered k] } none := by
  have hnot : ConnectEvent.closeReturned true ∉ x.log := fun hr => by
    rw [(h.returned hr).1] at hopen
    cases hopen
  refine ⟨⟨h.table, h.settled, h.fresh, fun hr => ?_, ?_⟩, nofun,
    ⟨fun _ h => h, fun _ h => h, fun h => h, fun _ h => h,
      fun t tun h => ⟨tun, h, rfl, rfl, fun h => h⟩⟩, fun _ => rfl, fun _ h => h, fun _ h => h,
    fun k hk => Or.inl hk, fun k hk => absurd hk (ConnectPc.not_owns rfl k), fun u hu => Or.inl hu,
    fun u hu => absurd hu (ConnectPc.not_uses rfl u), fun k' hk => Or.inl ?_, fun k' hk => ?_⟩
  · exact absurd (by simpa using hr) hnot
  · rw [List.pairwise_append]
    exact ⟨h.last, List.pairwise_singleton _ _, fun e he e' _ hr => absurd (hr ▸ he) hnot⟩
  · exact List.mem_append_left _ hk
  · rcases List.mem_cons.mp hk with rfl | hk
    · exact Or.inr (List.mem_append_right _ (List.mem_singleton_self _))
    · exact Or.inl hk

/-- An open is counted. -/
theorem effect_of_admitting {k : ℕ} {unix : Bool} (h : x.Sound) (hopen : x.closed = false) :
    Effect x (.admitting k unix) { x with openCount := x.openCount + 1, owned := k :: x.owned }
      (some (.opening .cancelCheck ⟨k, unix, false, none⟩)) where
  sound := ⟨h.table, h.settled, h.fresh,
    fun hr => absurd (hopen.symm.trans (h.returned hr).1) (by simp), h.last⟩
  stands q' hq := by
    obtain rfl := Option.some.inj hq
    exact ⟨List.mem_cons_self, fun _ => rfl⟩
  keeps := ⟨fun _ h => h, fun _ h => h, fun h => h, fun _ h => List.mem_cons_of_mem k h,
    fun t tun h => ⟨tun, h, rfl, rfl, fun h => h⟩⟩
  count _ := rfl
  safe _ h := h
  safeUpstream _ h := h
  owned k' hk := by
    rcases List.mem_cons.mp hk with rfl | hk
    · exact Or.inr ⟨_, rfl, ConnectPc.owns_opening.mpr ⟨nofun, rfl⟩⟩
    · exact Or.inl hk
  owns k hk := absurd hk (ConnectPc.not_owns rfl k)
  upstreams u hu := Or.inl hu
  uses u hu := absurd hu (ConnectPc.not_uses rfl u)
  accepted k hk := Or.inl hk
  tracked k hk := Or.inl hk

/-- A client is released. -/
theorem effect_of_release {k : ℕ} (h : x.Sound) :
    Effect x (.releaseAccepted k)
      { x with acceptedClients := x.acceptedClients.filter (· ≠ k) } none where
  sound := ⟨h.table, h.settled, h.fresh, fun hr => by
    obtain ⟨hclosed, hcount, haccepted, htunnels⟩ := h.returned hr
    exact ⟨hclosed, hcount, by simp [haccepted], htunnels⟩, h.last⟩
  stands := nofun
  keeps := ⟨fun _ h => h, fun _ h => h, fun h => h, fun _ h => h,
    fun t tun h => ⟨tun, h, rfl, rfl, fun h => h⟩⟩
  count _ := rfl
  safe _ h := h
  safeUpstream _ h := h
  owned k hk := Or.inl hk
  owns k hk := absurd hk (ConnectPc.not_owns rfl k)
  upstreams u hu := Or.inl hu
  uses u hu := absurd hu (ConnectPc.not_uses rfl u)
  accepted k' hk := by
    by_cases hkk : k' = k
    · exact Or.inr (Or.inr (by rw [hkk]))
    · exact Or.inl (List.mem_filter.mpr ⟨hk, by simpa using hkk⟩)
  tracked k hk := Or.inl hk

/-- The scope is closed, and its tables are read. -/
theorem effect_of_close (h : x.Sound) :
    Effect x .close { x with closed := true, cancelled := true, pendingClients := [] }
      (some (.cleaning ⟨x.acceptedClients, x.pendingClients, x.tunnels, true⟩)) where
  sound := ⟨h.table, h.settled, h.fresh, fun hr => ⟨rfl, (h.returned hr).2⟩, h.last⟩
  stands q' hq := by
    obtain rfl := Option.some.inj hq
    rfl
  keeps := ⟨fun _ h => h, fun _ h => h, fun _ => rfl, fun _ h => h,
    fun t tun h => ⟨tun, h, rfl, rfl, fun h => h⟩⟩
  count _ := rfl
  safe _ h := h
  safeUpstream _ h := h
  owned k hk := Or.inl hk
  owns k hk := absurd hk (ConnectPc.not_owns rfl k)
  upstreams u hu := Or.inl hu
  uses u hu := absurd hu (ConnectPc.not_uses rfl u)
  accepted k hk := Or.inl hk
  tracked k hk := Or.inl hk

theorem effect_of_move {c : ℕ} (h : x.Sound) (hs : x.Stands p)
    (hm : x.move c p a = some (x', q)) : Effect x p x' q := by
  have hgoto : ∀ {p p' : ConnectPc}, p.isOpening = false → p'.isOpening = false → x.Stands p' →
      Effect x p x (some p') := fun hp hp' hs' =>
    (Grows.refl x).effect_other h (fun q' hq => Option.some.inj hq ▸ hs') hp hp'
  cases p <;> cases a <;>
    simp only [move, Option.some.injEq, reduceCtorEq, Prod.mk.injEq] at hm
  case registerAccepted.healthy k healthy =>
    split at hm <;> rename_i hguard <;> obtain ⟨rfl, rfl⟩ := Prod.mk.inj (Option.some.inj hm)
    · exact hgoto rfl rfl trivial
    · simp only [Bool.or_eq_true, not_or, Bool.not_eq_true] at hguard
      exact effect_of_register h hguard.1.1
  case releaseAccepted.ok k =>
    obtain ⟨rfl, rfl⟩ := hm
    exact effect_of_release h
  case openConnect.ok k unixTransport unixFamily =>
    obtain ⟨rfl, rfl⟩ := hm
    split <;> exact hgoto rfl rfl trivial
  case admitting.healthy k unix healthy =>
    split at hm <;> rename_i hguard <;> obtain ⟨rfl, rfl⟩ := Prod.mk.inj (Option.some.inj hm)
    · exact hgoto rfl rfl trivial
    · simp only [Bool.or_eq_true, not_or, Bool.not_eq_true] at hguard
      exact effect_of_admitting h hguard.1
  case refuse.closed k confirmed =>
    obtain ⟨rfl, rfl⟩ := hm
    exact (grows_closeClient x k confirmed).effect_other h nofun rfl rfl
  case close.ok =>
    obtain ⟨rfl, rfl⟩ := hm
    exact effect_of_close h
  case releasing.released k unix rest callback =>
    obtain ⟨rfl, rfl⟩ := hm
    have g := grows_releaseHandle x k unix callback
    exact g.effect_other h (fun q' hq => Option.some.inj hq ▸ g.keeps.closed hs) rfl rfl
  case revokeClient.closed k confirmed =>
    obtain ⟨rfl, rfl⟩ := hm
    exact (grows_closeClient x k confirmed).effect_other h nofun rfl rfl
  case revokeUpstream.closed u confirmed =>
    obtain ⟨rfl, rfl⟩ := hm
    exact (grows_closeUpstream x u confirmed).effect_other h nofun rfl rfl
  all_goals first
    | exact effect_of_openStep h hs hm
    | exact effect_of_cleanStep h hs hm
    | obtain ⟨tun, ht, hm⟩ := Option.bind_eq_some_iff.mp hm
      exact effect_of_tunnelStep h hs ht hm

/-! ## Every interleaving -/

theorem rule : Rule program (fun _ _ => True) (fun x _ => x.Sound) fun x _ p => x.Stands p where
  enter x n m hx := by
    refine ⟨hx, ?_⟩
    cases m
    case closeTunnel t => exact ⟨trivial, nofun⟩
    all_goals trivial
  own s c p a x q hs _ hc hmove := by
    have he := effect_of_move hs.shared (hs.calls c p hc) hmove
    exact ⟨he.sound, he.stands⟩
  other s c p a x q d p' hs _ hc hmove hd _ :=
    (hs.calls d p' hd).of_keeps (effect_of_move hs.shared (hs.calls c p hc) hmove).keeps

theorem isOpening_enter (m : ConnectCall) : (enter m).isOpening = false := by
  cases m <;> rfl

end ConnectScope

namespace Connects

open ConnectScope

/-- What every action that settles keeps. -/
structure Inv (peers : Bool) (s : Connects) : Prop where
  holds : Holds (fun x _ => ConnectScope.Sound x) (fun x _ p => ConnectScope.Stands x p) s
  count : s.shared.openCount = s.count ConnectPc.isOpening
  owned : ∀ k ∈ s.shared.owned, s.shared.Safe k ∨ s.Any fun _ p => p.Owns k
  upstreams : ∀ u < s.shared.nextUpstream, s.shared.SafeUpstream u ∨ s.Any fun _ p => p.Uses u
  tracked : peers = true → ∀ k ∈ s.shared.tracked,
    k ∈ s.shared.confirmed ∨ k ∈ s.shared.acceptedClients ∨ k ∈ s.shared.owned

variable {peers : Bool} {s s' : Connects} {a : ConnectAction}

theorem inv_initial : Inv peers initial where
  holds := holds_initial ⟨nofun, nofun, fun _ _ => rfl, nofun, .nil⟩
  count := rfl
  owned := nofun
  upstreams := nofun
  tracked _ := nofun

theorem Inv.enter (h : Inv peers s) {m : ConnectCall} (hs : step s (.enter m) = some s') :
    Inv peers s' := by
  have hholds := rule.of_step h.holds trivial hs
  obtain rfl := Option.some.inj hs
  have hfresh := h.holds.fresh s.next le_rfl
  refine ⟨hholds, ?_, fun k hk => (h.owned k hk).imp_right fun hany => hany.of_enter hfresh _,
    fun u hu => (h.upstreams u hu).imp_right fun hany => hany.of_enter hfresh _, h.tracked⟩
  rw [State.count_enter]
  show s.shared.openCount = s.count ConnectPc.isOpening + (ConnectScope.enter m).isOpening.toNat
  rw [isOpening_enter, h.count]
  rfl

/-- A call under way that is an open is counted. -/
theorem Inv.openCount_pos (h : Inv peers s) {c : ℕ} {p : ConnectPc} (hc : s.calls c = some p) :
    0 < s.shared.openCount ∨ p.isOpening = false := by
  cases hp : p.isOpening with
  | false => exact Or.inr rfl
  | true =>
    refine Or.inl (Nat.pos_of_ne_zero fun hzero => ?_)
    rw [State.of_count_eq_zero (h.count.symm.trans hzero) (h.holds.lt hc) hc] at hp
    cases hp

theorem Inv.move (h : Inv peers s) {c : ℕ} {a : ConnectAnswer} (hok : s.Settles peers (.move c a))
    (hs : step s (.move c a) = some s') : Inv peers s' := by
  have hholds := rule.of_step h.holds trivial hs
  obtain ⟨p, x, q, hc, hmove, rfl⟩ := State.step_move.mp hs
  have he := effect_of_move h.holds.shared (h.holds.calls c p hc) hmove
  obtain ⟨hfailed, hreleased⟩ := hok p hc
  -- What some call met is met by the one that moves, or by another call.
  have hnew : ∀ {r : ConnectPc → Prop}, (∃ q', q = some q' ∧ r q') →
      State.Any { s with shared := x, calls := Function.update s.calls c q } fun _ p => r p := by
    rintro r ⟨q', rfl, hr⟩
    exact State.any_update hr x
  refine ⟨hholds, ?_, fun k hk => ?_, fun u hu => ?_, fun hpeers k hk => ?_⟩
  · have hcount := State.count_move (p := ConnectPc.isOpening) (x := x) (q := q) (h.holds.lt hc)
    have hopens := he.count (h.openCount_pos hc)
    rw [hc, Option.any_some, ← h.count] at hcount
    show x.openCount = _
    omega
  · rcases he.owned k hk with hk | hq
    · rcases h.owned k hk with hsafe | hany
      · exact Or.inl (he.safe k hsafe)
      · rcases hany.of_move hc x q with hp | hany
        · rcases he.owns k hp with hq | hsafe | ⟨o, rfl, rfl⟩
          · exact Or.inr (hnew hq)
          · exact Or.inl hsafe
          · exact Or.inl (Or.inl (he.keeps.confirmed _ (hfailed o rfl).1))
        · exact Or.inr hany
    · exact Or.inr (hnew hq)
  · rcases he.upstreams u hu with hu | hq
    · rcases h.upstreams u hu with hsafe | hany
      · exact Or.inl (he.safeUpstream u hsafe)
      · rcases hany.of_move hc x q with hp | hany
        · rcases he.uses u hp with hq | hsafe | ⟨o, ho, rfl⟩
          · exact Or.inr (hnew hq)
          · exact Or.inl hsafe
          · exact Or.inl (Or.inl (he.keeps.upstreams _ ((hfailed o rfl).2 u ho)))
        · exact Or.inr hany
    · exact Or.inr (hnew hq)
  · rcases he.tracked k hk with hk | hk
    · rcases h.tracked hpeers k hk with hk | hk | hk
      · exact Or.inl (he.keeps.confirmed k hk)
      · rcases he.accepted k hk with hk' | hk' | rfl
        · exact Or.inr (Or.inl hk')
        · exact Or.inr (Or.inr hk')
        · rcases hreleased hpeers k rfl hk with hk' | hk'
          · exact Or.inl (he.keeps.confirmed k hk')
          · exact Or.inr (Or.inr (he.keeps.owned k hk'))
      · exact Or.inr (Or.inr (he.keeps.owned k hk))
    · exact Or.inr (Or.inl hk)

theorem Inv.step (h : Inv peers s) (hok : s.Settles peers a) (hs : Connects.step s a = some s') :
    Inv peers s' := by
  cases a with
  | enter m => exact h.enter hs
  | move c a => exact h.move hok hs

theorem Inv.shutDown (h : Inv peers s) : s.ShutDown peers := by
  have hquiet : .closeReturned true ∈ s.shared.log →
      ∀ c p, s.calls c = some p → p.isOpening = false := by
    intro hr c p hc
    obtain ⟨-, hcount, -, -⟩ := h.holds.shared.returned hr
    exact State.of_count_eq_zero (h.count.symm.trans hcount) (h.holds.lt hc) hc
  have howned : .closeReturned true ∈ s.shared.log → ∀ k ∈ s.shared.owned,
      k ∈ s.shared.confirmed := by
    intro hr k hk
    obtain ⟨-, -, -, htunnels⟩ := h.holds.shared.returned hr
    rcases h.owned k hk with (hconfirmed | ⟨t, ht, -⟩) | ⟨c, p, hc, hp⟩
    · exact hconfirmed
    · rw [htunnels] at ht
      cases ht
    · exact absurd hp (ConnectPc.not_owns (hquiet hr c p hc) k)
  refine ⟨hquiet, fun hr k hk => ?_, fun hr u hu => ?_, h.holds.shared.last⟩
  · rcases hk with hk | ⟨hpeers, hk⟩
    · exact howned hr k hk
    · obtain ⟨-, -, haccepted, -⟩ := h.holds.shared.returned hr
      rcases h.tracked hpeers k hk with hk | hk | hk
      · exact hk
      · rw [haccepted] at hk
        cases hk
      · exact howned hr k hk
  · obtain ⟨-, -, -, htunnels⟩ := h.holds.shared.returned hr
    rcases h.upstreams u hu with (hclosed | ⟨t, ht, -⟩) | ⟨c, p, hc, hp⟩
    · exact hclosed
    · rw [htunnels] at ht
      cases ht
    · exact absurd hp (ConnectPc.not_uses (hquiet hr c p hc) u)

/-- When every open that fails has had its sockets closed, a `close` that has returned `True` has
left nothing behind. -/
theorem close_confirmed (peers : Bool) {as : List ConnectAction}
    (h : Transition.Along step (Settles peers) initial as) :
    Transition.Always step (ShutDown peers) initial as :=
  Transition.always_of_along (fun _ => Inv.shutDown) (fun _ _ _ hs => hs.step) inv_initial h

/-- The moves of call `c`. -/
def moves (c : ℕ) (answers : List ConnectAnswer) : List ConnectAction :=
  answers.map (.move c)

/-- An open of client `8`, call `c`, that cannot connect. -/
def failedOpen (c : ℕ) (confirmed : Bool) : List ConnectAction :=
  .enter (.openConnect 8 false false) ::
    moves c [.ok, .healthy true, .ok, .ok, .ok, .ok, .raises, .ok, .closed confirmed, .released none,
      .ok]

/-- Client `7` is registered and gets its tunnel, client `8` does not, and the scope is closed. -/
def settledRun : List ConnectAction :=
  .enter (.registerAccepted 7) :: .move 0 (.healthy true) :: .enter (.openConnect 7 false false) ::
    moves 1 [.ok, .healthy true, .ok, .ok, .ok, .ok, .ok, .healthy true, .ok, .ok, .ok] ++
    failedOpen 2 true ++ .enter .close ::
      moves 3 [.ok, .ok, .ok, .closed true, .closed true, .released none, .ok, .ok, .ok]

theorem close_confirmed_settledRun :
    (Transition.run step initial settledRun).map (fun s => (s.shared.log, s.shared.confirmed)) =
        some ([.registered 7, .opened 0, .closeReturned true], [7, 8]) ∧
      Transition.Always step (ShutDown true) initial settledRun :=
  ⟨by decide, close_confirmed true (by decide)⟩

/-- The open fails, the close of its client fails, and `close` returns `True`. -/
def failedOpenRun : List ConnectAction :=
  failedOpen 0 false ++ .enter .close :: moves 1 [.ok, .ok]

theorem failedOpenRun_unconfirmed :
    ¬Transition.Always step (ShutDown false) initial failedOpenRun := by
  intro h
  have hrun : (Transition.run step initial failedOpenRun).any (fun s =>
      s.shared.log == [.closeReturned true] && s.shared.owned == [8] &&
        s.shared.confirmed == []) = true := by decide
  obtain ⟨s, hs, hlost⟩ := (Option.any_eq_true _ _).mp hrun
  simp only [Bool.and_eq_true, beq_iff_eq] at hlost
  obtain ⟨⟨hlog, howned⟩, hconfirmed⟩ := hlost
  have hclient := (h.of_run hs).clients (by simp [hlog]) 8 (Or.inl (by simp [howned]))
  rw [hconfirmed] at hclient
  cases hclient

end Connects

end Icode
