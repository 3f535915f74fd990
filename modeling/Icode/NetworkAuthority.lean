import Icode.NetworkLease
import Icode.PyDict
import Icode.Transition
import Mathlib.Data.Finset.Basic

/-!
# The network lease authority

A `NetworkLeaseAuthority` signs leases, holds the table of the connections that a
proxy has registered under them, and revokes. Its methods take a lock, but ask the
approver and run the close and release callbacks of a connection between two lock
sections, so other threads move in between. `Authority κ` is its state together
with the calls that are under way and a history of what calls have returned; `step`
is one lock section, or the return of a callback, of some thread.

`revoke` moves the generation of a policy on, marks the policy, closes what is
registered for it and unmarks it. `revoke_barrier` says what a caller may rely on
when it returns: no connection of that policy with an older lease is registered,
and no older lease is accepted afterwards. The invariant (`Authority.Inv`) follows
the entries a revocation has still to close: until it ends, an older connection is
one of them, or its close has failed and the call will raise.
-/

namespace Icode

open Py SandboxPolicy

/-! ## Connections and calls -/

/-- `_NetworkConnectionHandle`; `serial` is the identity of the object. -/
structure Handle where
  connectionId : PyStr
  serial : ℕ
  deriving DecidableEq

/-- `_ActiveNetworkConnection`; `κ` is the type of the callbacks. -/
structure Connection (κ : Type*) where
  handle : Handle
  policyKey : PolicyKey
  lease : NetworkLease
  closeCallback : κ
  releaseCallback : Option κ
  pending : Bool
  closing : Bool
  closeComplete : Bool

/-- The arguments of `request_lease`; `approver` says that it has a method `ask`. -/
structure LeaseRequest where
  policy : SandboxPolicy
  approver : Bool
  purpose : NetworkPurpose
  allowedDomains : List PyStr
  ttlSeconds : ℤ
  now : Option ℤ

/-- The arguments of `register_active_connection`; `clock` says that one is given. -/
structure Registration (κ : Type*) where
  issued : IssuedNetworkLease
  policy : SandboxPolicy
  purpose : NetworkPurpose
  hostname : PyStr
  port : ℤ
  now : ℤ
  close : κ
  pending : Bool
  clock : Bool
  release : Option κ

/-- Where the body of the loop of `_close_active_connections` stands. -/
inductive CloseStage (κ : Type*) where
  /-- The entry is marked as closing. -/
  | claimed
  /-- Its close callback runs. -/
  | calling (callback : κ)
  /-- Another call closes it. -/
  | waiting
  /-- The other call is done with it. -/
  | waited

/-- The loop of `_close_active_connections`, over entries. -/
structure CloseLoop (κ : Type*) where
  current : Option (ℕ × CloseStage κ)
  remaining : List ℕ
  closedCount : ℕ
  failureCount : ℕ

/-- A call between two of its lock sections. -/
inductive Call (κ : Type*) where
  /-- `request_lease` asks the approver. -/
  | requesting (request : LeaseRequest) (key : PolicyKey) (domains : List PyStr) (generation : ℤ)
    (approvalId : PyStr)
  /-- `close_expired_connections`, in some cases for a registration, closes. -/
  | sweeping (now : ℤ) (revokingKeys : Finset PolicyKey) (register : Option (Registration κ))
    (loop : CloseLoop κ)
  /-- `register_active_connection` after the sweep. -/
  | registering (r : Registration κ)
  /-- `revoke` closes. -/
  | revoking (key : PolicyKey) (generation : ℤ) (loop : CloseLoop κ)
  /-- `release_active_connection` runs the release callback of an entry. -/
  | releasing (serial : ℕ) (callback : κ)

/-- What a call has done when it returned. -/
inductive Event where
  | issued (lease : NetworkLease)
  | verified (lease : NetworkLease)
  | registered (lease : NetworkLease)
  | promoted (lease : NetworkLease)
  | revoked (key : PolicyKey) (generation : ℤ)

/-- The lease that `verify_request`, `register_active_connection` or
`promote_active_connection` has accepted. -/
def Event.accepted : Event → Option NetworkLease
  | .verified lease => some lease
  | .registered lease => some lease
  | .promoted lease => some lease
  | .issued _ => none
  | .revoked _ _ => none

/-- A `NetworkLeaseAuthority`, the calls under way and the history, latest first. -/
structure Authority (κ : Type*) where
  key : Bytes
  generations : Dict PolicyKey ℤ
  revokingPolicyKeys : Finset PolicyKey
  /-- `_active_connections`, by entry. -/
  activeConnections : Dict PyStr ℕ
  connections : ℕ → Option (Connection κ)
  calls : ℕ → Option (Call κ)
  next : ℕ
  history : List Event

/-- One part of the loop of `_close_active_connections`. -/
inductive LoopAction where
  /-- The first lock section for the next entry. -/
  | next
  /-- `entry.close_callback()` is called. -/
  | invoke
  /-- It returns, `True` or not, or raises; the lock section after it. -/
  | returned (confirmed : Bool)
  /-- `close_complete` is set. -/
  | wake
  /-- The wait times out. -/
  | timeout
  /-- The lock section after the wait. -/
  | check

/-- One lock section of a call. What the environment answers is part of the action. -/
inductive AuthorityAction (κ : Type*) where
  | requestLease (request : LeaseRequest) (approvalId : PyStr)
  /-- The approver returns `True`, or anything else, or raises. -/
  | answer (call : ℕ) (approved : Bool) (monotonicNs : ℤ) (leaseId : PyStr)
  | verifyScope (issued : IssuedNetworkLease) (policy : SandboxPolicy) (purpose : NetworkPurpose)
    (now : ℤ)
  | verifyRequest (issued : IssuedNetworkLease) (policy : SandboxPolicy) (purpose : NetworkPurpose)
    (hostname : PyStr) (port : ℤ) (now : ℤ)
  | register (r : Registration κ)
  /-- The last part of a registration; `clock` is what the clock returns, if it returns. It is
  asked under the lock, and only tells the time. -/
  | registerConnection (call : ℕ) (clock : Option ℤ) (connectionId : PyStr)
  | promote (handle : Handle) (now : ℤ) (close : κ)
  | release (handle : Handle)
  /-- The release callback returns `True`, or anything else, or raises. -/
  | releaseReturned (call : ℕ) (released : Bool)
  | closeExpired (now : ℤ)
  | revoke (policy : SandboxPolicy)
  | loop (call : ℕ) (a : LoopAction)
  /-- What follows the loop of `_close_active_connections`. -/
  | finish (call : ℕ)

/-- The entries the loop has still to deal with, the current one first. -/
def CloseLoop.entries {κ : Type*} (loop : CloseLoop κ) : List ℕ :=
  loop.current.toList.map Prod.fst ++ loop.remaining

namespace Call

variable {κ : Type*}

/-- The loop the call is in. -/
def closeLoop : Call κ → Option (CloseLoop κ)
  | .sweeping _ _ _ loop => some loop
  | .revoking _ _ loop => some loop
  | _ => none

/-- The call with its loop moved on. -/
def setLoop (loop : CloseLoop κ) : Call κ → Call κ
  | .sweeping now keys register _ => .sweeping now keys register loop
  | .revoking key generation _ => .revoking key generation loop
  | call => call

end Call

/-! ## Operations -/

namespace Authority

variable {κ : Type*} (s : Authority κ)

/-- A fresh authority. -/
def initial (key : Bytes) : Authority κ :=
  ⟨key, [], ∅, [], fun _ => none, fun _ => none, 0, []⟩

/-- `self._generations.get(policy_key, 1)` -/
def generation (key : PolicyKey) : ℤ :=
  (s.generations.get? key).getD 1

/-- `self._active_connections.get(entry.handle.connection_id) is entry` -/
def isActive (entry : ℕ) (conn : Connection κ) : Bool :=
  s.activeConnections.get? conn.handle.connectionId == some entry

/-- `self._active_connections.values()` -/
def entries : List (ℕ × Connection κ) :=
  s.activeConnections.filterMap fun item => (s.connections item.2).map fun conn => (item.2, conn)

/-- The lease of the connection has expired. -/
def isExpired (now : ℤ) (conn : Connection κ) : Bool :=
  conn.lease.expiresAtMonotonicNs ≤ now

/-- The lease of the connection is of another generation than the current one. -/
def isStale (conn : Connection κ) : Bool :=
  conn.lease.generation != s.generation conn.policyKey

def setConnection (entry : ℕ) (conn : Connection κ) : Authority κ :=
  { s with connections := Function.update s.connections entry (some conn) }

def forget (conn : Connection κ) : Authority κ :=
  { s with activeConnections := s.activeConnections.erase conn.handle.connectionId }

/-- `forget`, if the entry is in the table. -/
def discard (entry : ℕ) (conn : Connection κ) : Authority κ :=
  if s.isActive entry conn then s.forget conn else s

def setCall (call : ℕ) (frame : Call κ) : Authority κ :=
  { s with calls := Function.update s.calls call (some frame) }

def endCall (call : ℕ) : Authority κ :=
  { s with calls := Function.update s.calls call none }

/-- A new call. -/
def beginCall (frame : Call κ) : Authority κ :=
  { s with calls := Function.update s.calls s.next (some frame), next := s.next + 1 }

def emit (e : Event) : Authority κ :=
  { s with history := e :: s.history }

/-- The checks of `request_lease` on its arguments. -/
def requestCheck (r : LeaseRequest) : Except NetworkLeaseError (PolicyKey × List PyStr) := do
  let key ← NetworkLease.keyOfPolicy r.policy
  require (!r.allowedDomains.isEmpty && r.allowedDomains.all isExactDnsHostname) .requestedDomains
  let domains := sortedDomains (r.allowedDomains.map fun d => d.map lowerAscii)
  require (domains.length ≤ maxNetworkLeaseDomains) .domainCount
  require (1 ≤ r.ttlSeconds && r.ttlSeconds ≤ maxNetworkLeaseTtlSeconds) .ttlSeconds
  require r.approver .approvalUnavailable
  pure (key, domains)

/-- The second lock section of `request_lease`. -/
def issueLease (r : LeaseRequest) (key : PolicyKey) (domains : List PyStr) (generation : ℤ)
    (approvalId : PyStr) (monotonicNs : ℤ) (leaseId : PyStr) :
    Except NetworkLeaseError IssuedNetworkLease := do
  require (key ∉ s.revokingPolicyKeys && s.generation key == generation) .revokedWhilePending
  let issuedAt := r.now.getD monotonicNs
  let lease ← NetworkLease.make {
    schemaVersion := networkLeaseSchemaVersion, leaseId, approvalId, runId := r.policy.runId,
    ticketId := r.policy.ticketId, step := r.policy.step, policyHash := r.policy.policyHash,
    purpose := r.purpose, allowedDomains := domains, port := httpsPort,
    issuedAtMonotonicNs := issuedAt,
    expiresAtMonotonicNs := issuedAt + r.ttlSeconds * nanosecondsPerSecond, generation }
  pure ⟨lease, hmacSha256 s.key lease.canonicalPayload, isHexText_hmacSha256 _ _⟩

/-- What `_verify_scope_locked` and `_verify_request_locked` begin with. -/
def checkSignature (key : PolicyKey) (issued : IssuedNetworkLease) :
    Except NetworkLeaseError Unit := do
  require (key ∉ s.revokingPolicyKeys) .cleanupIncomplete
  require (hmacSha256 s.key issued.lease.canonicalPayload == issued.signature) .signature

/-- `verify_scope`. -/
def verifyScope (issued : IssuedNetworkLease) (policy : SandboxPolicy) (purpose : NetworkPurpose)
    (now : ℤ) : Except NetworkLeaseError PolicyKey := do
  let key ← NetworkLease.keyOfPolicy policy
  s.checkSignature key issued
  issued.lease.validateScope policy purpose now (s.generation key)
  pure key

/-- `verify_request`. -/
def verifyRequest (issued : IssuedNetworkLease) (policy : SandboxPolicy) (purpose : NetworkPurpose)
    (hostname : PyStr) (port now : ℤ) : Except NetworkLeaseError PolicyKey := do
  let key ← NetworkLease.keyOfPolicy policy
  s.checkSignature key issued
  issued.lease.validateRequest policy purpose hostname port now (s.generation key)
  pure key

/-- The time of a registration. -/
def registrationTime (r : Registration κ) (clock : Option ℤ) : Except NetworkLeaseError ℤ :=
  if r.clock then
    match clock with
    | none => .error .clockFailed
    | some time => if time < 0 then .error .clockValue else .ok time
  else .ok r.now

/-- The checks of the last part of `register_active_connection`. -/
def registerCheck (r : Registration κ) (clock : Option ℤ) : Except NetworkLeaseError PolicyKey := do
  let _ ← NetworkLease.keyOfPolicy r.policy
  let time ← registrationTime r clock
  s.verifyRequest r.issued r.policy r.purpose r.hostname r.port time

/-- The first lock section of `close_expired_connections`. -/
def beginSweep (now : ℤ) (register : Option (Registration κ)) : Authority κ :=
  let expiredPolicyKeys := (s.entries.filter fun e => isExpired now e.2).map fun e => e.2.policyKey
  let revoking := s.revokingPolicyKeys ∪ expiredPolicyKeys.toFinset
  let closing := s.entries.filter fun e => isExpired now e.2 || s.isStale e.2
  { s with revokingPolicyKeys := revoking }.beginCall
    (.sweeping now revoking register ⟨none, closing.map Prod.fst, 0, 0⟩)

/-- The last lock section of `close_expired_connections`. -/
def unmarkSwept (now : ℤ) (revokingKeys : Finset PolicyKey) : Authority κ :=
  { s with revokingPolicyKeys := s.revokingPolicyKeys.filter fun key => ¬(key ∈ revokingKeys ∧
      !s.entries.any fun e => e.2.policyKey == key && (isExpired now e.2 || s.isStale e.2)) }

/-- The first lock section of `revoke`. -/
def beginRevoke (key : PolicyKey) : Authority κ :=
  let generation := s.generation key + 1
  let closing := s.entries.filter fun e => e.2.policyKey == key
  { s with
    generations := s.generations.set key generation,
    revokingPolicyKeys := insert key s.revokingPolicyKeys }.beginCall
      (.revoking key generation ⟨none, closing.map Prod.fst, 0, 0⟩)

/-- The last lock section of `revoke`. -/
def unmarkRevoked (key : PolicyKey) : Authority κ :=
  if s.entries.any fun e => e.2.policyKey == key then s
  else { s with revokingPolicyKeys := s.revokingPolicyKeys.erase key }

/-- The entry that the handle is of, if it is in the table. -/
def lookup (handle : Handle) : Option (ℕ × Connection κ) :=
  match s.activeConnections.get? handle.connectionId with
  | none => none
  | some entry =>
    match s.connections entry with
    | none => none
    | some conn => if conn.handle = handle then some (entry, conn) else none

/-- The condition under which `promote_active_connection` promotes. -/
def mayPromote (now : ℤ) (conn : Connection κ) : Bool :=
  !(conn.closing || !conn.pending || decide (conn.policyKey ∈ s.revokingPolicyKeys) ||
    decide (now < conn.lease.issuedAtMonotonicNs) || isExpired now conn || s.isStale conn)

/-- One part of the loop of `_close_active_connections`. -/
def loopStep (loop : CloseLoop κ) : LoopAction → Option (Authority κ × CloseLoop κ)
  | .next =>
    match loop.current, loop.remaining with
    | none, entry :: remaining =>
      match s.connections entry with
      | none => none
      | some conn =>
        if !s.isActive entry conn then some (s, { loop with remaining })
        else if conn.closing then
          some (s, { loop with current := some (entry, .waiting), remaining })
        else
          some (s.setConnection entry { conn with closing := true, closeComplete := false },
            { loop with current := some (entry, .claimed), remaining })
    | _, _ => none
  | .invoke =>
    match loop.current with
    | some (entry, .claimed) =>
      (s.connections entry).map fun conn =>
        (s, { loop with current := some (entry, .calling conn.closeCallback) })
    | _ => none
  | .returned confirmed =>
    match loop.current with
    | some (entry, .calling _) =>
      match s.connections entry with
      | none => none
      | some conn =>
        if confirmed then
          some ((s.discard entry conn).setConnection entry
              { conn with closing := false, closeComplete := true },
            { loop with current := none, closedCount := loop.closedCount + 1 })
        else
          let closing := if s.isActive entry conn then false else conn.closing
          some (s.setConnection entry { conn with closing, closeComplete := true },
            { loop with current := none, failureCount := loop.failureCount + 1 })
    | _ => none
  | .wake =>
    match loop.current with
    | some (entry, .waiting) =>
      if (s.connections entry).any (·.closeComplete) then
        some (s, { loop with current := some (entry, .waited) })
      else none
    | _ => none
  | .timeout =>
    match loop.current with
    | some (_, .waiting) =>
      some (s, { loop with current := none, failureCount := loop.failureCount + 1 })
    | _ => none
  | .check =>
    match loop.current with
    | some (entry, .waited) =>
      let failed := (s.connections entry).any fun conn => s.isActive entry conn
      some (s, { loop with
        current := none, failureCount := loop.failureCount + if failed then 1 else 0 })
    | _ => none

/-- What follows the loop: it raises when a close has failed. -/
def finish (call : ℕ) : Call κ → Option (Authority κ)
  | .sweeping now revokingKeys register ⟨none, [], _, failureCount⟩ =>
    if 0 < failureCount then some (s.endCall call)
    else
      match register with
      | none => some ((s.unmarkSwept now revokingKeys).endCall call)
      | some r => some ((s.unmarkSwept now revokingKeys).setCall call (.registering r))
  | .revoking key generation ⟨none, [], _, failureCount⟩ =>
    if 0 < failureCount then some (s.endCall call)
    else some (((s.unmarkRevoked key).endCall call).emit (.revoked key generation))
  | _ => none

/-- One action; a call that raises ends and leaves the rest of the state. -/
def step : AuthorityAction κ → Option (Authority κ)
  | .requestLease r approvalId =>
    match requestCheck r with
    | .error _ => some s
    | .ok (key, domains) =>
      if key ∈ s.revokingPolicyKeys then some s
      else some (s.beginCall (.requesting r key domains (s.generation key) approvalId))
  | .answer call approved monotonicNs leaseId =>
    match s.calls call with
    | some (.requesting r key domains generation approvalId) =>
      if approved then
        match s.issueLease r key domains generation approvalId monotonicNs leaseId with
        | .error _ => some (s.endCall call)
        | .ok issued => some ((s.endCall call).emit (.issued issued.lease))
      else some (s.endCall call)
    | _ => none
  | .verifyScope issued policy purpose now =>
    match s.verifyScope issued policy purpose now with
    | .error _ => some s
    | .ok _ => some (s.emit (.verified issued.lease))
  | .verifyRequest issued policy purpose hostname port now =>
    match s.verifyRequest issued policy purpose hostname port now with
    | .error _ => some s
    | .ok _ => some (s.emit (.verified issued.lease))
  | .register r =>
    if (r.pending && !r.clock) || decide (r.now < 0) then some s
    else some (s.beginSweep r.now (some r))
  | .registerConnection call clock connectionId =>
    match s.calls call with
    | some (.registering r) =>
      match s.registerCheck r clock with
      | .error _ => some (s.endCall call)
      | .ok key =>
        some ({ s.endCall call with
          activeConnections := s.activeConnections.set connectionId s.next,
          connections := Function.update s.connections s.next (some {
            handle := ⟨connectionId, s.next⟩, policyKey := key, lease := r.issued.lease,
            closeCallback := r.close, releaseCallback := r.release, pending := r.pending,
            closing := false, closeComplete := false }),
          next := s.next + 1 }.emit (.registered r.issued.lease))
    | _ => none
  | .promote handle now close =>
    if now < 0 then some s
    else
      match s.lookup handle with
      | none => some s
      | some (entry, conn) =>
        if s.mayPromote now conn then
          some ((s.setConnection entry { conn with
            closeCallback := close, pending := false }).emit (.promoted conn.lease))
        else some s
  | .release handle =>
    match s.lookup handle with
    | none => some s
    | some (entry, conn) =>
      if conn.closing then some s
      else
        match conn.releaseCallback with
        | none => some ((s.forget conn).setConnection entry { conn with closeComplete := true })
        | some callback =>
          some ((s.setConnection entry { conn with
            closing := true, closeComplete := false }).beginCall (.releasing entry callback))
  | .releaseReturned call released =>
    match s.calls call with
    | some (.releasing entry _) =>
      match s.connections entry with
      | none => none
      | some conn =>
        let s := s.endCall call
        if !s.isActive entry conn then
          some (s.setConnection entry { conn with closeComplete := true })
        else
          let s' := if released then s.forget conn else s
          some (s'.setConnection entry { conn with closing := false, closeComplete := true })
    | _ => none
  | .closeExpired now => if now < 0 then some s else some (s.beginSweep now none)
  | .revoke policy =>
    match NetworkLease.keyOfPolicy policy with
    | .error _ => some s
    | .ok key => some (s.beginRevoke key)
  | .loop call a =>
    match s.calls call with
    | none => none
    | some frame =>
      match frame.closeLoop with
      | none => none
      | some loop => (s.loopStep loop a).map fun r => r.1.setCall call (frame.setLoop r.2)
  | .finish call =>
    match s.calls call with
    | none => none
    | some frame => s.finish call frame

/-! ## The invariant -/

/-- The table holds entries under the id of their handle, and a lease for the policy of its
connection. -/
structure Table : Prop where
  nodup : s.activeConnections.keys.Nodup
  fresh : ∀ entry, s.next ≤ entry → s.connections entry = none
  active : ∀ id entry, (id, entry) ∈ s.activeConnections →
    ∃ conn, s.connections entry = some conn ∧ conn.handle = ⟨id, entry⟩
  keyed : ∀ entry conn, s.connections entry = some conn → conn.lease.policyKey = conn.policyKey

/-- The generation of the policy is at least `g`, and the connections registered for it with an
older lease are among `pending`. -/
structure Covers (key : PolicyKey) (g : ℤ) (pending : List ℕ) : Prop where
  generation : g ≤ s.generation key
  pending : ∀ entry conn, (entry, conn) ∈ s.entries → conn.policyKey = key →
    conn.lease.generation < g → entry ∈ pending

/-- `later` accepts no lease older than what `earlier` has revoked. -/
def Respects (later earlier : Event) : Prop :=
  ∀ key g lease, earlier = .revoked key g → later.accepted = some lease → lease.policyKey = key →
    g ≤ lease.generation

/-- What every action keeps. -/
structure Inv : Prop where
  table : s.Table
  revoking : ∀ c key g loop, s.calls c = some (.revoking key g loop) → loop.failureCount = 0 →
    s.Covers key g loop.entries
  revoked : ∀ key g, .revoked key g ∈ s.history → s.Covers key g []
  order : s.history.Pairwise Respects

/-- Generations only grow, and a new registration has the current one. -/
structure Evolves (s s' : Authority κ) : Prop where
  generation : ∀ key, s.generation key ≤ s'.generation key
  entries : ∀ entry conn', (entry, conn') ∈ s'.entries →
    (∃ conn, (entry, conn) ∈ s.entries ∧ conn.policyKey = conn'.policyKey ∧
      conn.lease = conn'.lease) ∨ s.generation conn'.policyKey ≤ conn'.lease.generation

variable {s} {s' : Authority κ} {key : PolicyKey} {g : ℤ} {pending : List ℕ} {entry : ℕ}
  {conn conn' : Connection κ}

@[simp] theorem mem_entries : (entry, conn) ∈ s.entries ↔
    ∃ id, (id, entry) ∈ s.activeConnections ∧ s.connections entry = some conn := by
  simp only [entries, List.mem_filterMap, Option.map_eq_some_iff, Prod.mk.injEq]
  constructor
  · rintro ⟨⟨id, e⟩, hm, c, hc, rfl, rfl⟩
    exact ⟨id, hm, hc⟩
  · rintro ⟨id, hm, hc⟩
    exact ⟨(id, entry), hm, conn, hc, rfl, rfl⟩

/-- The test of the code finds exactly the entries in the table. -/
theorem Table.isActive_iff (h : s.Table) (hc : s.connections entry = some conn) :
    s.isActive entry conn = true ↔ ∃ id, (id, entry) ∈ s.activeConnections := by
  simp only [isActive, beq_iff_eq]
  constructor
  · intro hg
    exact ⟨_, Dict.mem_of_get? hg⟩
  · rintro ⟨id, hm⟩
    obtain ⟨c, hc', hh⟩ := h.active id entry hm
    obtain rfl : conn = c := Option.some.inj (hc.symm.trans hc')
    rw [hh]
    exact Dict.get?_of_mem h.nodup hm

theorem Evolves.covers (h : Evolves s s') (hc : s.Covers key g pending) :
    s'.Covers key g pending where
  generation := hc.generation.trans (h.generation key)
  pending entry conn' hm hk hg := by
    rcases h.entries entry conn' hm with ⟨conn, hm', hk', hl⟩ | hnew
    · exact hc.pending entry conn hm' (hk'.trans hk) (hl ▸ hg)
    · have := hc.generation
      rw [← hk] at this
      omega

theorem Evolves.trans {s₁ s₂ s₃ : Authority κ} (h₁ : Evolves s₁ s₂) (h₂ : Evolves s₂ s₃) :
    Evolves s₁ s₃ where
  generation key := (h₁.generation key).trans (h₂.generation key)
  entries e c hm := by
    rcases h₂.entries e c hm with ⟨c', hm', hk, hl⟩ | hnew
    · rcases h₁.entries e c' hm' with ⟨c₀, hm₀, hk₀, hl₀⟩ | hnew
      · exact Or.inl ⟨c₀, hm₀, hk₀.trans hk, hl₀.trans hl⟩
      · exact Or.inr (by rwa [hk, hl] at hnew)
    · exact Or.inr ((h₁.generation _).trans hnew)

/-- An entry that is not in the table need not be closed. -/
theorem Covers.drop (h : s.Covers key g (entry :: pending))
    (hno : ∀ id, (id, entry) ∉ s.activeConnections) : s.Covers key g pending where
  generation := h.generation
  pending e conn hm hk hg := by
    rcases List.mem_cons.mp (h.pending e conn hm hk hg) with rfl | hp
    · obtain ⟨id, hm, -⟩ := mem_entries.mp hm
      exact absurd hm (hno id)
    · exact hp

/-- A state with other calls or marks, and the same table. -/
theorem Evolves.of_eq (hg : s'.generations = s.generations)
    (ha : s'.activeConnections = s.activeConnections) (hc : s'.connections = s.connections) :
    Evolves s s' where
  generation key := by simp [Authority.generation, hg]
  entries entry conn' hm := Or.inl ⟨conn', by simpa [ha, hc] using hm, rfl, rfl⟩

theorem Covers.of_eq (h : s.Covers key g pending) (hg : s'.generations = s.generations)
    (ha : s'.activeConnections = s.activeConnections) (hc : s'.connections = s.connections) :
    s'.Covers key g pending :=
  (Evolves.of_eq hg ha hc).covers h

/-! ## What an operation keeps -/

theorem Inv.evolve (h : s.Inv) (ht : s'.Table) (he : Evolves s s') (hcalls : s'.calls = s.calls)
    (hhist : s'.history = s.history) : s'.Inv where
  table := ht
  revoking c key g loop hl hf := he.covers (h.revoking c key g loop (hcalls ▸ hl) hf)
  revoked key g hm := he.covers (h.revoked key g (hhist ▸ hm))
  order := hhist ▸ h.order

/-- The marks do not matter for what is registered. -/
theorem Inv.mark (h : s.Inv) (keys : Finset PolicyKey) :
    Inv { s with revokingPolicyKeys := keys } :=
  h.evolve ⟨h.table.nodup, h.table.fresh, h.table.active, h.table.keyed⟩ (.of_eq rfl rfl rfl) rfl rfl

theorem Inv.setCall (h : s.Inv) (c : ℕ) {frame : Call κ}
    (hf : ∀ key g loop, frame = .revoking key g loop → loop.failureCount = 0 →
      s.Covers key g loop.entries) : (s.setCall c frame).Inv where
  table := ⟨h.table.nodup, h.table.fresh, h.table.active, h.table.keyed⟩
  revoking c' key g loop hl h0 := by
    by_cases hc : c' = c
    · subst hc
      exact (hf key g loop (by simpa [Authority.setCall] using hl) h0).of_eq rfl rfl rfl
    · exact (h.revoking c' key g loop (by simpa [Authority.setCall, hc] using hl) h0).of_eq
        rfl rfl rfl
  revoked key g hm := (h.revoked key g hm).of_eq rfl rfl rfl
  order := h.order

theorem Inv.endCall (h : s.Inv) (c : ℕ) : (s.endCall c).Inv where
  table := ⟨h.table.nodup, h.table.fresh, h.table.active, h.table.keyed⟩
  revoking c' key g loop hl h0 := by
    by_cases hc : c' = c
    · simp [Authority.endCall, hc] at hl
    · exact (h.revoking c' key g loop (by simpa [Authority.endCall, hc] using hl) h0).of_eq
        rfl rfl rfl
  revoked key g hm := (h.revoked key g hm).of_eq rfl rfl rfl
  order := h.order

theorem Inv.beginCall (h : s.Inv) {frame : Call κ}
    (hf : ∀ key g loop, frame = .revoking key g loop → loop.failureCount = 0 →
      s.Covers key g loop.entries) : (s.beginCall frame).Inv := by
  have hs := h.setCall s.next hf
  exact hs.evolve ⟨hs.table.nodup, fun e he => hs.table.fresh e (Nat.le_of_succ_le he),
    hs.table.active, hs.table.keyed⟩ (.of_eq rfl rfl rfl) rfl rfl

/-- A lease of the current generation is accepted, or a revocation returns that has nothing left to
close. -/
theorem Inv.emit (h : s.Inv) {e : Event}
    (hacc : ∀ lease, e.accepted = some lease → lease.generation = s.generation lease.policyKey)
    (hrev : ∀ key g, e = .revoked key g → s.Covers key g []) : (s.emit e).Inv where
  table := ⟨h.table.nodup, h.table.fresh, h.table.active, h.table.keyed⟩
  revoking c key g loop hl h0 := (h.revoking c key g loop hl h0).of_eq rfl rfl rfl
  revoked key g hm := by
    rcases List.mem_cons.mp hm with he | hm
    · exact (hrev key g he.symm).of_eq rfl rfl rfl
    · exact (h.revoked key g hm).of_eq rfl rfl rfl
  order := by
    refine List.pairwise_cons.mpr ⟨fun earlier hm key g lease he hl hk => ?_, h.order⟩
    subst he
    have := (h.revoked key g hm).generation
    rwa [← hk, ← hacc lease hl] at this

/-- Another state of the same connection. -/
structure Same (conn conn' : Connection κ) : Prop where
  handle : conn'.handle = conn.handle
  policyKey : conn'.policyKey = conn.policyKey
  lease : conn'.lease = conn.lease

theorem same_of_setConnection (hc : s.connections entry = some conn) (hsame : Same conn conn')
    {e : ℕ} {c : Connection κ} (he : (s.setConnection entry conn').connections e = some c) :
    ∃ c₀, s.connections e = some c₀ ∧ Same c₀ c := by
  by_cases hee : e = entry
  · subst hee
    obtain rfl : conn' = c := by simpa [setConnection] using he
    exact ⟨conn, hc, hsame⟩
  · exact ⟨c, by simpa [setConnection, hee] using he, rfl, rfl, rfl⟩

theorem evolves_setConnection (hc : s.connections entry = some conn) (hsame : Same conn conn') :
    Evolves s (s.setConnection entry conn') where
  generation _ := le_rfl
  entries e c hm := by
    obtain ⟨id, hm, hce⟩ := mem_entries.mp hm
    obtain ⟨c₀, hc₀, h₀⟩ := same_of_setConnection hc hsame hce
    exact Or.inl ⟨c₀, mem_entries.mpr ⟨id, hm, hc₀⟩, h₀.policyKey.symm, h₀.lease.symm⟩

theorem Inv.setConnection (h : s.Inv) (hc : s.connections entry = some conn)
    (hsame : Same conn conn') : (s.setConnection entry conn').Inv := by
  refine h.evolve ⟨h.table.nodup, fun e he => ?_, fun id e hm => ?_, fun e c he => ?_⟩
    (evolves_setConnection hc hsame) rfl rfl
  · have hne : e ≠ entry := by
      rintro rfl
      rw [h.table.fresh e he] at hc
      cases hc
    simpa [Authority.setConnection, hne] using h.table.fresh e he
  · obtain ⟨c, hce, hch⟩ := h.table.active id e hm
    by_cases hee : e = entry
    · subst hee
      obtain rfl : conn = c := Option.some.inj (hc.symm.trans hce)
      exact ⟨conn', by simp [Authority.setConnection], hsame.handle.trans hch⟩
    · exact ⟨c, by simpa [Authority.setConnection, hee] using hce, hch⟩
  · obtain ⟨c₀, hc₀, h₀⟩ := same_of_setConnection hc hsame he
    rw [h₀.lease, h₀.policyKey]
    exact h.table.keyed e c₀ hc₀

theorem mem_of_mem_forget {item : PyStr × ℕ} (hm : item ∈ (s.forget conn).activeConnections) :
    item ∈ s.activeConnections :=
  (Dict.mem_erase.mp hm).1

theorem evolves_forget (s : Authority κ) (conn : Connection κ) : Evolves s (s.forget conn) where
  generation _ := le_rfl
  entries e c hm := by
    obtain ⟨id, hm, hc⟩ := mem_entries.mp hm
    exact Or.inl ⟨c, mem_entries.mpr ⟨id, mem_of_mem_forget hm, hc⟩, rfl, rfl⟩

theorem Inv.forget (h : s.Inv) (conn : Connection κ) : (s.forget conn).Inv :=
  h.evolve ⟨Dict.nodup_keys_erase h.table.nodup _, h.table.fresh,
    fun id e hm => h.table.active id e (mem_of_mem_forget hm), h.table.keyed⟩
    (evolves_forget s conn) rfl rfl

/-- A forgotten entry is not in the table. -/
theorem Table.not_mem_forget (h : s.Table) (hc : s.connections entry = some conn) (id : PyStr) :
    (id, entry) ∉ (s.forget conn).activeConnections := by
  intro hm
  obtain ⟨hm, hne⟩ := Dict.mem_erase.mp hm
  obtain ⟨c', hc', hh⟩ := h.active id entry hm
  obtain rfl : conn = c' := Option.some.inj (hc.symm.trans hc')
  rw [hh] at hne
  exact hne rfl

/-! ## Accepted leases -/

/-- An accepted lease is for the policy it came with, and of its current generation. -/
theorem verifyScope_eq_ok {issued : IssuedNetworkLease} {policy : SandboxPolicy}
    {purpose : NetworkPurpose} {now : ℤ}
    (h : s.verifyScope issued policy purpose now = .ok key) :
    issued.lease.policyKey = key ∧ issued.lease.generation = s.generation key := by
  unfold verifyScope at h
  simp only [bind_eq_ok, pure, Except.pure, Except.ok.injEq] at h
  obtain ⟨_, hk, -, -, _, hv, rfl⟩ := h
  exact ⟨NetworkLease.policyKey_of_validateScope hv hk, NetworkLease.generation_of_validateScope hv⟩

theorem verifyRequest_eq_ok {issued : IssuedNetworkLease} {policy : SandboxPolicy}
    {purpose : NetworkPurpose} {hostname : PyStr} {port now : ℤ}
    (h : s.verifyRequest issued policy purpose hostname port now = .ok key) :
    issued.lease.policyKey = key ∧ issued.lease.generation = s.generation key := by
  unfold verifyRequest at h
  simp only [bind_eq_ok, pure, Except.pure, Except.ok.injEq] at h
  obtain ⟨_, hk, -, -, _, hv, rfl⟩ := h
  have hv := NetworkLease.validateScope_of_validateRequest hv
  exact ⟨NetworkLease.policyKey_of_validateScope hv hk, NetworkLease.generation_of_validateScope hv⟩

theorem registerCheck_eq_ok {r : Registration κ} {clock : Option ℤ}
    (h : s.registerCheck r clock = .ok key) :
    r.issued.lease.policyKey = key ∧ r.issued.lease.generation = s.generation key := by
  unfold registerCheck at h
  simp only [bind_eq_ok] at h
  obtain ⟨_, -, _, -, h⟩ := h
  exact verifyRequest_eq_ok h

theorem connections_of_lookup {handle : Handle} (h : s.lookup handle = some (entry, conn)) :
    s.connections entry = some conn := by
  unfold lookup at h
  split at h
  · cases h
  · split at h
    · cases h
    · split_ifs at h
      cases h
      assumption

/-! ## What a step keeps -/

/-- A connection is registered with a lease of the current generation. -/
theorem Inv.addConnection (h : s.Inv) {id : PyStr} (hh : conn.handle = ⟨id, s.next⟩)
    (hk : conn.lease.policyKey = conn.policyKey)
    (hg : conn.lease.generation = s.generation conn.policyKey) :
    Inv { s with
      activeConnections := s.activeConnections.set id s.next,
      connections := Function.update s.connections s.next (some conn), next := s.next + 1 } := by
  have hlook : ∀ {e c}, Function.update s.connections s.next (some conn) e = some c →
      (e = s.next ∧ c = conn) ∨ (e ≠ s.next ∧ s.connections e = some c) := by
    intro e c he
    by_cases hee : e = s.next
    · subst hee
      exact Or.inl ⟨rfl, by simpa using he.symm⟩
    · exact Or.inr ⟨hee, by simpa [hee] using he⟩
  have hact : ∀ {i e}, (i, e) ∈ s.activeConnections.set id s.next →
      (i = id ∧ e = s.next) ∨ (i, e) ∈ s.activeConnections := by
    intro i e hm
    have hget := Dict.get?_of_mem (Dict.nodup_keys_set h.table.nodup id s.next) hm
    rw [Dict.get?_set] at hget
    split_ifs at hget with hi
    · exact Or.inl ⟨hi, (Option.some.inj hget).symm⟩
    · exact Or.inr (Dict.mem_of_get? hget)
  refine h.evolve ⟨Dict.nodup_keys_set h.table.nodup _ _, fun e he => ?_, fun i e hm => ?_,
    fun e c he => ?_⟩ ⟨fun _ => le_rfl, fun e c hm => ?_⟩ rfl rfl
  · have hne : e ≠ s.next := by
      rintro rfl
      exact absurd he (Nat.not_succ_le_self _)
    simpa [hne] using h.table.fresh e (Nat.le_of_succ_le he)
  · rcases hact hm with ⟨rfl, rfl⟩ | hm
    · exact ⟨conn, by simp, hh⟩
    · obtain ⟨c, hc, hch⟩ := h.table.active i e hm
      have hne : e ≠ s.next := by
        rintro rfl
        rw [h.table.fresh _ le_rfl] at hc
        cases hc
      exact ⟨c, by simpa [hne] using hc, hch⟩
  · rcases hlook he with ⟨-, rfl⟩ | ⟨-, hc⟩
    · exact hk
    · exact h.table.keyed e c hc
  · obtain ⟨i, hm, he⟩ := mem_entries.mp hm
    rcases hlook he with ⟨-, rfl⟩ | ⟨hne, hc⟩
    · exact Or.inr hg.ge
    · rcases hact hm with ⟨-, rfl⟩ | hm
      · exact absurd rfl hne
      · exact Or.inl ⟨c, mem_entries.mpr ⟨i, hm, hc⟩, rfl, rfl⟩

theorem Inv.beginSweep (h : s.Inv) (now : ℤ) (register : Option (Registration κ)) :
    (s.beginSweep now register).Inv :=
  (h.mark _).beginCall fun _ _ _ hf => by cases hf

theorem evolves_bump (s : Authority κ) (key : PolicyKey) (keys : Finset PolicyKey) :
    Evolves s { s with
      generations := s.generations.set key (s.generation key + 1), revokingPolicyKeys := keys } := by
  refine ⟨fun k => ?_, fun e c hm => Or.inl ⟨c, hm, rfl, rfl⟩⟩
  simp only [Authority.generation, Dict.get?_set]
  split_ifs with hk
  · subst hk
    simp
  · exact le_rfl

/-- A revocation begins with every connection of its policy. -/
theorem Inv.beginRevoke (h : s.Inv) (key : PolicyKey) : (s.beginRevoke key).Inv := by
  have ht : Table { s with
      generations := s.generations.set key (s.generation key + 1),
      revokingPolicyKeys := insert key s.revokingPolicyKeys } :=
    ⟨h.table.nodup, h.table.fresh, h.table.active, h.table.keyed⟩
  refine (h.evolve ht (evolves_bump s key _) rfl rfl).beginCall fun k g loop hf _ => ?_
  obtain ⟨rfl, rfl, rfl⟩ := Call.revoking.inj hf
  refine ⟨by simp [Authority.generation, Dict.get?_set], fun e c hm hk _ => ?_⟩
  have hm : (e, c) ∈ s.entries := hm
  simp only [CloseLoop.entries, Option.toList_none, List.map_nil, List.nil_append, List.mem_map]
  exact ⟨(e, c), List.mem_filter.mpr ⟨hm, by simp [hk]⟩, rfl⟩

theorem evolves_discard (s : Authority κ) (entry : ℕ) (conn : Connection κ) :
    Evolves s (s.discard entry conn) := by
  unfold Authority.discard
  split_ifs
  · exact evolves_forget s conn
  · exact .of_eq rfl rfl rfl

theorem Inv.discard (h : s.Inv) (entry : ℕ) (conn : Connection κ) : (s.discard entry conn).Inv := by
  unfold Authority.discard
  split_ifs
  · exact h.forget conn
  · exact h

@[simp] theorem connections_discard : (s.discard entry conn).connections = s.connections := by
  unfold Authority.discard
  split_ifs <;> rfl

/-- A discarded entry is not in the table. -/
theorem Table.not_mem_discard (h : s.Table) (hc : s.connections entry = some conn) (id : PyStr) :
    (id, entry) ∉ (s.discard entry conn).activeConnections := by
  unfold Authority.discard
  split_ifs with ha
  · exact h.not_mem_forget hc id
  · exact fun hm => ha ((h.isActive_iff hc).mpr ⟨id, hm⟩)

/-- One part of the loop keeps the invariant, and the entry it is done with is out of the table or
counted as a failure. -/
theorem Inv.loopStep (h : s.Inv) {loop loop' : CloseLoop κ} {a : LoopAction}
    (hs : s.loopStep loop a = some (s', loop')) :
    s'.Inv ∧ ∀ key g, (loop.failureCount = 0 → s.Covers key g loop.entries) →
      loop'.failureCount = 0 → s'.Covers key g loop'.entries := by
  cases a with
  | next =>
    simp only [Authority.loopStep] at hs
    split at hs
    case h_2 => cases hs
    case h_1 e es hcur hrem =>
      have hentries : loop.entries = e :: es := by simp [CloseLoop.entries, hcur, hrem]
      cases hc : s.connections e with
      | none => simp [hc] at hs
      | some conn =>
        simp only [hc] at hs
        split_ifs at hs with ha hcl
        · obtain ⟨rfl, rfl⟩ := Prod.mk.inj (Option.some.inj hs)
          refine ⟨h, fun key g hcov h0 => ?_⟩
          have hdrop : ∀ id, (id, e) ∉ s.activeConnections := by
            intro id hm
            rw [(h.table.isActive_iff hc).mpr ⟨id, hm⟩] at ha
            cases ha
          simpa [CloseLoop.entries, hcur] using (hentries ▸ hcov h0).drop hdrop
        · obtain ⟨rfl, rfl⟩ := Prod.mk.inj (Option.some.inj hs)
          exact ⟨h, fun key g hcov h0 => (hentries ▸ hcov h0 : s.Covers key g (e :: es))⟩
        · obtain ⟨rfl, rfl⟩ := Prod.mk.inj (Option.some.inj hs)
          have hsame : Same conn { conn with closing := true, closeComplete := false } :=
            ⟨rfl, rfl, rfl⟩
          exact ⟨h.setConnection hc hsame, fun key g hcov h0 =>
            (evolves_setConnection hc hsame).covers (hentries ▸ hcov h0 : s.Covers key g (e :: es))⟩
  | invoke =>
    simp only [Authority.loopStep] at hs
    split at hs
    case h_2 => cases hs
    case h_1 e hcur =>
      obtain ⟨conn, hc, hs⟩ := Option.map_eq_some_iff.mp hs
      obtain ⟨rfl, rfl⟩ := Prod.mk.inj hs
      refine ⟨h, fun key g hcov h0 => ?_⟩
      simpa [CloseLoop.entries, hcur] using hcov h0
  | returned confirmed =>
    simp only [Authority.loopStep] at hs
    split at hs
    case h_2 => cases hs
    case h_1 e cb hcur =>
      have hentries : loop.entries = e :: loop.remaining := by simp [CloseLoop.entries, hcur]
      cases hc : s.connections e with
      | none => simp [hc] at hs
      | some conn =>
        simp only [hc] at hs
        cases confirmed with
        | true =>
          obtain ⟨rfl, rfl⟩ := Prod.mk.inj (Option.some.inj hs)
          have hc' : (s.discard e conn).connections e = some conn := by simpa using hc
          have hsame : Same conn { conn with closing := false, closeComplete := true } :=
            ⟨rfl, rfl, rfl⟩
          have hev := (evolves_discard s e conn).trans (evolves_setConnection hc' hsame)
          exact ⟨(h.discard e conn).setConnection hc' hsame, fun key g hcov h0 =>
            (hev.covers (hentries ▸ hcov h0)).drop (h.table.not_mem_discard hc)⟩
        | false =>
          obtain ⟨rfl, rfl⟩ := Prod.mk.inj (Option.some.inj hs)
          exact ⟨h.setConnection hc ⟨rfl, rfl, rfl⟩, fun key g hcov h0 => by simp at h0⟩
  | wake =>
    simp only [Authority.loopStep] at hs
    split at hs
    case h_2 => cases hs
    case h_1 e hcur =>
      split_ifs at hs
      obtain ⟨rfl, rfl⟩ := Prod.mk.inj (Option.some.inj hs)
      refine ⟨h, fun key g hcov h0 => ?_⟩
      simpa [CloseLoop.entries, hcur] using hcov h0
  | timeout =>
    simp only [Authority.loopStep] at hs
    split at hs
    case h_2 => cases hs
    case h_1 e hcur =>
      obtain ⟨rfl, rfl⟩ := Prod.mk.inj (Option.some.inj hs)
      exact ⟨h, fun key g hcov h0 => by simp at h0⟩
  | check =>
    simp only [Authority.loopStep] at hs
    split at hs
    case h_2 => cases hs
    case h_1 e hcur =>
      have hentries : loop.entries = e :: loop.remaining := by simp [CloseLoop.entries, hcur]
      obtain ⟨rfl, rfl⟩ := Prod.mk.inj (Option.some.inj hs)
      refine ⟨h, fun key g hcov h0 => ?_⟩
      simp only [Nat.add_eq_zero_iff, ite_eq_right_iff, one_ne_zero, imp_false] at h0
      refine Covers.drop (hentries ▸ hcov h0.1) fun id hm => h0.2 ?_
      obtain ⟨conn, hc, -⟩ := h.table.active id e hm
      simpa [hc] using (h.table.isActive_iff hc).mpr ⟨id, hm⟩

/-- A call of `revoke` returns when every close has succeeded. -/
theorem Inv.finish (h : s.Inv) {call : ℕ} {frame : Call κ} (hf : s.calls call = some frame)
    (hs : s.finish call frame = some s') : s'.Inv := by
  unfold Authority.finish at hs
  split at hs
  · split_ifs at hs
    · obtain rfl := Option.some.inj hs
      exact h.endCall call
    · split at hs
      · obtain rfl := Option.some.inj hs
        exact (h.mark _).endCall call
      · obtain rfl := Option.some.inj hs
        exact (h.mark _).setCall call fun _ _ _ he => by cases he
  · rename_i key g closed failed
    split_ifs at hs with h0
    · obtain rfl := Option.some.inj hs
      exact h.endCall call
    · obtain rfl := Option.some.inj hs
      have hcov : s.Covers key g [] := h.revoking call key g _ hf (Nat.eq_zero_of_not_pos h0)
      have hun : (s.unmarkRevoked key).Inv ∧ (s.unmarkRevoked key).Covers key g [] := by
        unfold Authority.unmarkRevoked
        split_ifs
        · exact ⟨h, hcov⟩
        · exact ⟨h.mark _, hcov.of_eq rfl rfl rfl⟩
      refine (hun.1.endCall call).emit (fun _ hl => by cases hl) fun key' g' he => ?_
      obtain ⟨rfl, rfl⟩ := Event.revoked.inj he
      exact hun.2.of_eq rfl rfl rfl
  · cases hs

theorem Inv.step (h : s.Inv) {a : AuthorityAction κ} (hs : s.step a = some s') : s'.Inv := by
  cases a with
  | requestLease r approvalId =>
    simp only [Authority.step] at hs
    split at hs
    · obtain rfl := Option.some.inj hs
      exact h
    · split_ifs at hs
      · obtain rfl := Option.some.inj hs
        exact h
      · obtain rfl := Option.some.inj hs
        exact h.beginCall fun _ _ _ he => by cases he
  | answer call approved monotonicNs leaseId =>
    simp only [Authority.step] at hs
    split at hs
    · split_ifs at hs
      · split at hs
        · obtain rfl := Option.some.inj hs
          exact h.endCall call
        · obtain rfl := Option.some.inj hs
          exact (h.endCall call).emit (fun _ hl => by cases hl) fun _ _ he => by cases he
      · obtain rfl := Option.some.inj hs
        exact h.endCall call
    · cases hs
  | verifyScope issued policy purpose now =>
    simp only [Authority.step] at hs
    split at hs
    · obtain rfl := Option.some.inj hs
      exact h
    · rename_i key hv
      obtain rfl := Option.some.inj hs
      obtain ⟨hk, hg⟩ := verifyScope_eq_ok hv
      refine h.emit (fun lease hl => ?_) fun _ _ he => by cases he
      obtain rfl : issued.lease = lease := Option.some.inj hl
      rw [hk, hg]
  | verifyRequest issued policy purpose hostname port now =>
    simp only [Authority.step] at hs
    split at hs
    · obtain rfl := Option.some.inj hs
      exact h
    · rename_i key hv
      obtain rfl := Option.some.inj hs
      obtain ⟨hk, hg⟩ := verifyRequest_eq_ok hv
      refine h.emit (fun lease hl => ?_) fun _ _ he => by cases he
      obtain rfl : issued.lease = lease := Option.some.inj hl
      rw [hk, hg]
  | register r =>
    simp only [Authority.step] at hs
    split_ifs at hs
    · obtain rfl := Option.some.inj hs
      exact h
    · obtain rfl := Option.some.inj hs
      exact h.beginSweep _ _
  | registerConnection call clock connectionId =>
    simp only [Authority.step] at hs
    split at hs
    · rename_i r hr
      split at hs
      · obtain rfl := Option.some.inj hs
        exact h.endCall call
      · rename_i key hv
        obtain rfl := Option.some.inj hs
        obtain ⟨hk, hg⟩ := registerCheck_eq_ok hv
        refine ((h.endCall call).addConnection rfl hk hg).emit (fun lease hl => ?_)
          fun _ _ he => by cases he
        obtain rfl : r.issued.lease = lease := Option.some.inj hl
        rw [hk]
        exact hg
    · cases hs
  | promote handle now close =>
    simp only [Authority.step] at hs
    split_ifs at hs
    · obtain rfl := Option.some.inj hs
      exact h
    · split at hs
      · obtain rfl := Option.some.inj hs
        exact h
      · rename_i entry conn hl
        have hc := connections_of_lookup hl
        split_ifs at hs with hp
        · obtain rfl := Option.some.inj hs
          have hset : (s.setConnection entry { conn with
              closeCallback := close, pending := false }).Inv :=
            h.setConnection hc ⟨rfl, rfl, rfl⟩
          refine hset.emit (fun lease hl => ?_) fun _ _ he => by cases he
          obtain rfl : conn.lease = lease := Option.some.inj hl
          rw [h.table.keyed entry conn hc]
          simp only [mayPromote, isStale, Bool.not_eq_true', Bool.or_eq_false_iff,
            bne_eq_false_iff_eq] at hp
          exact hp.2
        · obtain rfl := Option.some.inj hs
          exact h
  | release handle =>
    simp only [Authority.step] at hs
    split at hs
    · obtain rfl := Option.some.inj hs
      exact h
    · rename_i entry conn hl
      have hc := connections_of_lookup hl
      split_ifs at hs
      · obtain rfl := Option.some.inj hs
        exact h
      · split at hs
        · obtain rfl := Option.some.inj hs
          exact (h.forget conn).setConnection hc ⟨rfl, rfl, rfl⟩
        · obtain rfl := Option.some.inj hs
          have hset : (s.setConnection entry { conn with
              closing := true, closeComplete := false }).Inv :=
            h.setConnection hc ⟨rfl, rfl, rfl⟩
          exact hset.beginCall fun _ _ _ he => by cases he
  | releaseReturned call released =>
    simp only [Authority.step] at hs
    split at hs
    · split at hs
      · cases hs
      · rename_i entry _ _ conn hc
        split_ifs at hs
        all_goals obtain rfl := Option.some.inj hs
        · exact (h.endCall call).setConnection hc ⟨rfl, rfl, rfl⟩
        · exact ((h.endCall call).forget conn).setConnection hc ⟨rfl, rfl, rfl⟩
        · exact (h.endCall call).setConnection hc ⟨rfl, rfl, rfl⟩
    · cases hs
  | closeExpired now =>
    simp only [Authority.step] at hs
    split_ifs at hs
    · obtain rfl := Option.some.inj hs
      exact h
    · obtain rfl := Option.some.inj hs
      exact h.beginSweep _ _
  | revoke policy =>
    simp only [Authority.step] at hs
    split at hs
    · obtain rfl := Option.some.inj hs
      exact h
    · obtain rfl := Option.some.inj hs
      exact h.beginRevoke _
  | loop call a =>
    simp only [Authority.step] at hs
    split at hs
    · cases hs
    · rename_i frame hf
      split at hs
      · cases hs
      · rename_i loop hl
        obtain ⟨⟨s₁, loop'⟩, hstep, rfl⟩ := Option.map_eq_some_iff.mp hs
        obtain ⟨hinv, hcov⟩ := h.loopStep hstep
        refine hinv.setCall call fun key g l he h0 => ?_
        cases frame with
        | revoking key' g' l' =>
          obtain rfl : l' = loop := Option.some.inj hl
          obtain ⟨rfl, rfl, rfl⟩ := Call.revoking.inj he
          exact hcov _ _ (h.revoking call _ _ _ hf) h0
        | _ => cases he
  | finish call =>
    simp only [Authority.step] at hs
    split at hs
    · cases hs
    · rename_i frame hf
      exact h.finish hf hs

theorem inv_initial (key : Bytes) : (initial key : Authority κ).Inv where
  table := ⟨List.nodup_nil, fun _ _ => rfl, fun _ _ h => (by cases h), fun _ _ h => (by cases h)⟩
  revoking _ _ _ _ h := by cases h
  revoked _ _ h := by cases h
  order := List.Pairwise.nil

/-- When a revocation has returned `g`, no connection of its policy with a lease older than `g` is
registered, and no such lease is verified, registered or promoted afterwards. -/
theorem revoke_barrier (secret : Bytes) (acts : List (AuthorityAction κ)) (s : Authority κ)
    (hrun : Transition.run step (initial secret) acts = some s) (key : PolicyKey) (g : ℤ)
    (later earlier : List Event) (hhist : s.history = later ++ .revoked key g :: earlier) :
    (∀ entry conn, (entry, conn) ∈ s.entries → conn.policyKey = key → g ≤ conn.lease.generation) ∧
      ∀ e ∈ later, ∀ lease, e.accepted = some lease → lease.policyKey = key →
        g ≤ lease.generation := by
  have h : s.Inv := Transition.run_invariant (fun _ _ _ h hs => h.step hs) (inv_initial secret) hrun
  refine ⟨fun entry conn hm hk => ?_, fun e he lease hl hk => ?_⟩
  · have hcov := h.revoked key g (by simp [hhist])
    by_contra hlt
    simpa using hcov.pending entry conn hm hk (by omega)
  · have horder := h.order
    rw [hhist, List.pairwise_append] at horder
    exact horder.2.2 e he _ (by simp) key g lease rfl hl hk

/-! ## A revocation in the middle of a run -/

/-- A policy that denies the network. -/
def offlinePolicy : SandboxPolicy where
  schemaVersion := 1
  runId := "run"
  ticketId := "T-1"
  step := "build"
  workspaceRoot := [lit "w"]
  readRoots := [[lit "w"]]
  writeRoots := []
  denyReadRoots := []
  denyWriteRoots := []
  networkMode := .deny
  allowedDomains := []
  processLimit := 4
  wallTimeoutSeconds := 60
  outputLimitBytes := 1024
  protectedPaths := []
  valid := by decide

/-- The key of `offlinePolicy`. -/
def offlineKey : PolicyKey :=
  ("run", "T-1", "build", offlinePolicy.policyHash)

/-- The fields of a lease for `pypi.org` over `offlinePolicy`. -/
def offlineFields (generation : ℤ) : LeaseFields where
  schemaVersion := 2
  leaseId := "0123456789abcdef0123456789abcdef"
  approvalId := "ap-net-1"
  runId := "run"
  ticketId := "T-1"
  step := "build"
  policyHash := offlinePolicy.policyHash
  purpose := .webRead
  allowedDomains := [lit "pypi.org"]
  port := 443
  issuedAtMonotonicNs := 1
  expiresAtMonotonicNs := 1000
  generation := generation

theorem keyOfPolicy_offlinePolicy : NetworkLease.keyOfPolicy offlinePolicy = .ok offlineKey := by
  rw [NetworkLease.keyOfPolicy, offlinePolicy.valid]
  rfl

/-- The fields are valid for every generation, ticket and policy. -/
theorem validate_offlineFields {generation : ℤ} {ticketId policyHash : PyStr}
    (hgeneration : 0 < generation)
    (hticket : ticketId.all isScalar = true ∧ isIdentityText ticketId = true)
    (hhash : isHexText 64 policyHash = true) :
    { offlineFields generation with ticketId, policyHash }.validate = .ok () := by
  have hlife : (1000 : ℤ) - 1 ≤ maxNetworkLeaseTtlSeconds * nanosecondsPerSecond := by decide
  simp only [LeaseFields.validate, LeaseFields.checkText, offlineFields, hhash, hticket,
    bind_eq_ok, require_eq_ok, exists_const, decide_eq_true_eq, hgeneration, hlife, true_and, and_true]
  exact ⟨rfl, by decide, rfl, by decide, by decide, by decide, by decide, rfl, rfl, by simp⟩

/-- The lease of the first generation and the one after it, signed with an empty key. -/
def offlineLease (second : Bool) : IssuedNetworkLease :=
  let lease : NetworkLease :=
    ⟨offlineFields (if second then 2 else 1),
      validate_offlineFields (by cases second <;> decide) (by decide) (isHexText_sha256 _)⟩
  ⟨lease, hmacSha256 [] lease.canonicalPayload, isHexText_hmacSha256 _ _⟩

/-- A lease with these fields is verified for the policy they name. -/
theorem verifyRequest_of_offlineFields {issued : IssuedNetworkLease} {policy : SandboxPolicy}
    {generation now : ℤ} (hkeyOf : NetworkLease.keyOfPolicy policy = .ok key)
    (hpolicy : policy.runId = "run" ∧ policy.step = "build")
    (hfields : issued.lease.toLeaseFields = { offlineFields generation with
      ticketId := policy.ticketId, policyHash := policy.policyHash })
    (hsigned : hmacSha256 [] issued.lease.canonicalPayload = issued.signature)
    (hkey : s.key = []) (hmark : key ∉ s.revokingPolicyKeys)
    (hgeneration : s.generation key = generation) (hnow : 1 ≤ now ∧ now < 1000) :
    s.verifyRequest issued policy .webRead "pypi.org" 443 now = .ok key := by
  have hdeny := hkeyOf
  simp only [NetworkLease.keyOfPolicy, bind_eq_ok, require_eq_ok] at hdeny
  obtain ⟨-, -, -, hdeny, -⟩ := hdeny
  have hsign : s.checkSignature key issued = .ok () := by
    simp [checkSignature, hkey, hmark, hsigned]
  have hscope : issued.lease.validateScope policy .webRead now (s.generation key) = .ok () := by
    have hstart : 0 ≤ now := by omega
    rw [NetworkLease.validateScope, issued.lease.valid, policy.valid, hgeneration]
    simp [hfields, offlineFields, require, rescue, hnow, hpolicy, hdeny, hstart]
  rw [verifyRequest, hkeyOf]
  simp only [NetworkLease.validateRequest, bind_eq_ok, require_eq_ok, pure, Except.pure,
    Except.ok.injEq, exists_const, exists_eq_left', hsign, hscope, hfields, offlineFields, and_true,
    true_and]
  decide

theorem verifyRequest_offlineLease {second : Bool} {now : ℤ} (hkey : s.key = [])
    (hmark : offlineKey ∉ s.revokingPolicyKeys)
    (hgeneration : s.generation offlineKey = if second then 2 else 1)
    (hnow : 1 ≤ now ∧ now < 1000) :
    s.verifyRequest (offlineLease second) offlinePolicy .webRead "pypi.org" 443 now =
      .ok offlineKey :=
  verifyRequest_of_offlineFields keyOfPolicy_offlinePolicy ⟨rfl, rfl⟩ rfl rfl hkey hmark
    hgeneration hnow

theorem registerCheck_offlineLease {s : Authority Unit} {now : ℤ} (hkey : s.key = [])
    (hmark : offlineKey ∉ s.revokingPolicyKeys) (hgeneration : s.generation offlineKey = 1)
    (hnow : 1 ≤ now ∧ now < 1000) :
    s.registerCheck ⟨offlineLease false, offlinePolicy, .webRead, "pypi.org", 443, now, (), false,
      false, none⟩ none = .ok offlineKey := by
  simp only [registerCheck, keyOfPolicy_offlinePolicy, registrationTime, bind, Except.bind]
  exact verifyRequest_offlineLease hkey hmark (by simpa using hgeneration) hnow

/-- A connection is registered and closed by a revocation, and then a request is verified. -/
theorem history_of_revocation {r : Registration κ} {issued : IssuedNetworkLease}
    {policy : SandboxPolicy} {purpose : NetworkPurpose} {hostname : PyStr} {port now : ℤ}
    {key : PolicyKey} (hkey : NetworkLease.keyOfPolicy policy = .ok key)
    (hnow : 0 ≤ r.now) (hclock : r.pending = false)
    (hregister : ∀ s : Authority κ, s.key = [] → key ∉ s.revokingPolicyKeys →
      s.generation key = 1 → s.registerCheck r none = .ok key)
    (hverify : ∀ s : Authority κ, s.key = [] → key ∉ s.revokingPolicyKeys →
      s.generation key = 2 → s.verifyRequest issued policy purpose hostname port now = .ok key) :
    ∃ s : Authority κ, Transition.run step (initial [])
      [.register r, .finish 0, .registerConnection 0 none "c", .revoke policy, .loop 2 .next,
        .loop 2 .invoke, .loop 2 (.returned true), .finish 2,
        .verifyRequest issued policy purpose hostname port now] = some s ∧
      s.history = [.verified issued.lease, .revoked key 2, .registered r.issued.lease] := by
  simp only [Transition.run, step, hkey]
  simp [hclock, hnow.not_gt, initial, entries, beginSweep, beginCall, finish, unmarkSwept, setCall,
    emit, endCall]
  rw [hregister _ rfl (by simp) rfl]
  simp [beginRevoke, generation, beginCall, entries, Dict.set, Dict.get?, Call.closeLoop, loopStep,
    setConnection, isActive, Call.setLoop, discard, forget, unmarkRevoked, Dict.erase]
  rw [hverify _ rfl (by simp) (by simp [generation, Dict.get?])]
  simp

/-- A connection is registered, the policy is revoked and a new lease is verified. -/
def revocationRun : List (AuthorityAction Unit) :=
  [.register ⟨offlineLease false, offlinePolicy, .webRead, "pypi.org", 443, 5, (), false, false,
      none⟩,
    .finish 0, .registerConnection 0 none "c", .revoke offlinePolicy, .loop 2 .next,
    .loop 2 .invoke, .loop 2 (.returned true), .finish 2,
    .verifyRequest (offlineLease true) offlinePolicy .webRead "pypi.org" 443 6]

theorem history_revocationRun : ∃ s : Authority Unit,
    Transition.run step (initial []) revocationRun = some s ∧ s.history =
      [.verified (offlineLease true).lease, .revoked offlineKey 2,
        .registered (offlineLease false).lease] :=
  history_of_revocation keyOfPolicy_offlinePolicy (by decide) rfl
    (fun _ hkey hmark hgeneration =>
      registerCheck_offlineLease hkey hmark hgeneration (by decide))
    (fun _ hkey hmark hgeneration =>
      verifyRequest_offlineLease hkey hmark hgeneration (by decide))

theorem revoke_barrier_run : ∃ s : Authority Unit,
    Transition.run step (initial []) revocationRun = some s ∧ s.history.length = 3 ∧
      ∀ entry conn, (entry, conn) ∈ s.entries → conn.policyKey = offlineKey →
        2 ≤ conn.lease.generation := by
  obtain ⟨s, hs, hhistory⟩ := history_revocationRun
  refine ⟨s, hs, by rw [hhistory]; rfl, ?_⟩
  exact (revoke_barrier [] _ s hs _ _ [_] [_] hhistory).1

end Authority

end Icode
