import Icode.ConnectionCallbacks

/-!
# Sweeps of expired connections

`close_expired_connections` marks the policies of the expired connections as revoking, closes the
connections, and unmarks what has none left. A mark is to keep new leases and connections out while
a close is not confirmed. It does exactly when no sweep ends at a clock reading that is behind
(`always_failClosed_iff`) : the sweep judges the marks of others by its own `now`. And when one
close fails, the sweep raises before it unmarks anything, so that the scopes whose connections have
all been closed stay marked as well (`sweep_alone_iff`).
-/

namespace Icode

open Py SandboxPolicy Transition

namespace Authority

variable {κ : Type*}

/-! ## Marks -/

/-- `entry.lease.expires_at_monotonic_ns <= now or entry.lease.generation != …`: what a sweep
closes. -/
def isDue (s : Authority κ) (now : ℤ) (conn : Connection κ) : Bool :=
  isExpired now conn || s.isStale conn

/-- Some connection of the policy is expired or of an old generation. -/
def due (s : Authority κ) (now : ℤ) (key : PolicyKey) : Bool :=
  s.entries.any fun e => e.2.policyKey == key && s.isDue now e.2

/-- The entries that an action takes up to close them because their lease has expired. -/
def sweptBy (s : Authority κ) : AuthorityAction κ → List ℕ
  | .closeExpired now =>
    if now < 0 then [] else (s.entries.filter fun e => isExpired now e.2).map Prod.fst
  | .register r =>
    if (r.pending && !r.clock) || decide (r.now < 0) then []
    else (s.entries.filter fun e => isExpired r.now e.2).map Prod.fst
  | _ => []

/-- One action, with the entries whose expiry close has been begun. -/
def sweepStep (p : Authority κ × List ℕ) (a : AuthorityAction κ) : Option (Authority κ × List ℕ) :=
  (p.1.step a).map fun s' => (s', p.2 ++ p.1.sweptBy a)

/-- No approver is asked, no lease issued and no connection registered for the policy. -/
structure Blocked (s : Authority κ) (key : PolicyKey) : Prop where
  request : ∀ r domains approvalId, requestCheck r = .ok (key, domains) →
    s.step (.requestLease r approvalId) = some s
  issue : ∀ call r domains g approvalId approved monotonicNs leaseId s',
    s.calls call = some (.requesting r key domains g approvalId) →
    s.step (.answer call approved monotonicNs leaseId) = some s' → s'.history = s.history
  registration : ∀ call r clock connectionId s', s.calls call = some (.registering r) →
    NetworkLease.keyOfPolicy r.policy = .ok key →
    s.step (.registerConnection call clock connectionId) = some s' →
    s'.history = s.history ∧ s'.activeConnections = s.activeConnections

/-- While a connection is registered whose expiry close has been begun, its policy is marked. -/
def FailClosed (p : Authority κ × List ℕ) : Prop :=
  ∀ entry conn, (entry, conn) ∈ p.1.entries → entry ∈ p.2 →
    conn.policyKey ∈ p.1.revokingPolicyKeys ∧ p.1.Blocked conn.policyKey

/-- A sweep that ends without a failure finds something due, at its own clock reading, for each of
the policies that have a registered connection whose expiry close has been begun. -/
def InTime (p : Authority κ × List ℕ) (a : AuthorityAction κ) : Prop :=
  ∀ call now keys register closed, a = .finish call →
    p.1.calls call = some (.sweeping now keys register ⟨none, [], closed, 0⟩) →
    ∀ entry conn, (entry, conn) ∈ p.1.entries → entry ∈ p.2 → conn.policyKey ∈ keys →
      p.1.due now conn.policyKey = true

variable {s s' : Authority κ} {key : PolicyKey} {a : AuthorityAction κ} {swept : List ℕ}

theorem mem_entries_iff {entry : ℕ} {conn : Connection κ} : (entry, conn) ∈ s.entries ↔
    s.Registered entry ∧ s.connections entry = some conn := by
  rw [mem_entries]
  exact ⟨fun ⟨id, hm, hc⟩ => ⟨⟨id, hm⟩, hc⟩, fun ⟨⟨id, hm⟩, hc⟩ => ⟨id, hm, hc⟩⟩

/-- A mark blocks its policy. -/
theorem blocked_of_mem (h : key ∈ s.revokingPolicyKeys) : s.Blocked key where
  request r domains approvalId hcheck := by
    simp [step, hcheck, h]
  issue call r domains g approvalId approved monotonicNs leaseId s' hcall hs := by
    have hissue : s.issueLease r key domains g approvalId monotonicNs leaseId =
        .error .revokedWhilePending := by
      unfold issueLease
      simp [h, require, bind, Except.bind]
    simp only [step, hcall, hissue] at hs
    split_ifs at hs
    · obtain rfl := Option.some.inj hs
      rfl
    · obtain rfl := Option.some.inj hs
      rfl
  registration call r clock connectionId s' hcall hkey hs := by
    cases hcheck : s.registerCheck r clock with
    | error e =>
      simp only [step, hcall, hcheck] at hs
      obtain rfl := Option.some.inj hs
      exact ⟨rfl, rfl⟩
    | ok k =>
      unfold registerCheck verifyRequest checkSignature at hcheck
      simp only [bind_eq_ok, require_eq_ok] at hcheck
      obtain ⟨_, -, _, -, k', hk', -, ⟨-, hnot, -⟩, -⟩ := hcheck
      rw [hkey] at hk'
      obtain rfl := Except.ok.inj hk'
      simp [h] at hnot

/-! ## What an action does to the marks -/

theorem revokingPolicyKeys_loopStep {loop loop' : CloseLoop κ} {a : LoopAction} {t : Authority κ}
    (hs : s.loopStep loop a = some (t, loop')) : t.revokingPolicyKeys = s.revokingPolicyKeys := by
  have hdiscard : ∀ entry conn, (s.discard entry conn).revokingPolicyKeys =
      s.revokingPolicyKeys := by
    intro entry conn
    unfold discard
    split_ifs <;> rfl
  cases a with
  | returned confirmed =>
    simp only [loopStep] at hs
    split at hs
    · split at hs
      · cases hs
      · split_ifs at hs
        all_goals obtain ⟨rfl, -⟩ := Prod.mk.inj (Option.some.inj hs)
        · exact hdiscard _ _
        all_goals rfl
    · cases hs
  | invoke =>
    simp only [loopStep] at hs
    split at hs
    · obtain ⟨conn, -, hs⟩ := Option.map_eq_some_iff.mp hs
      obtain ⟨rfl, -⟩ := Prod.mk.inj hs
      rfl
    · cases hs
  | _ =>
    simp only [loopStep] at hs
    repeat' split at hs
    all_goals cases hs
    all_goals rfl

/-- Only the end of a call unmarks. -/
theorem marks_subset_of_step (hs : s.step a = some s') (ha : ∀ call, a ≠ .finish call) :
    s.revokingPolicyKeys ⊆ s'.revokingPolicyKeys := by
  cases a with
  | finish call => exact absurd rfl (ha call)
  | loop call a =>
    simp only [step] at hs
    split at hs
    · cases hs
    · split at hs
      · cases hs
      · obtain ⟨⟨t, loop'⟩, hstep, rfl⟩ := Option.map_eq_some_iff.mp hs
        exact (revokingPolicyKeys_loopStep hstep).ge
  | register r =>
    simp only [step] at hs
    split_ifs at hs
    all_goals obtain rfl := Option.some.inj hs
    · exact Finset.Subset.refl _
    · exact Finset.subset_union_left
  | closeExpired now =>
    simp only [step] at hs
    split_ifs at hs
    all_goals obtain rfl := Option.some.inj hs
    · exact Finset.Subset.refl _
    · exact Finset.subset_union_left
  | revoke policy =>
    simp only [step] at hs
    split at hs
    all_goals obtain rfl := Option.some.inj hs
    · exact Finset.Subset.refl _
    · exact Finset.subset_insert _ _
  | _ =>
    simp only [step] at hs
    repeat' split at hs
    all_goals cases hs
    all_goals exact Finset.Subset.refl _

/-- What a sweep takes up is registered, and its policy is marked. -/
theorem marked_of_sweptBy (hs : s.step a = some s') {entry : ℕ} (h : entry ∈ s.sweptBy a) :
    ∃ conn, (entry, conn) ∈ s.entries ∧ conn.policyKey ∈ s'.revokingPolicyKeys := by
  have hmarked : ∀ now register, entry ∈ (s.entries.filter fun e => isExpired now e.2).map Prod.fst →
      ∃ conn, (entry, conn) ∈ s.entries ∧
        conn.policyKey ∈ (s.beginSweep now register).revokingPolicyKeys := by
    intro now register hm
    obtain ⟨⟨_, conn⟩, hexpired, rfl⟩ := List.mem_map.mp hm
    refine ⟨conn, (List.mem_filter.mp hexpired).1, Finset.mem_union_right _ ?_⟩
    exact List.mem_toFinset.mpr (List.mem_map.mpr ⟨_, hexpired, rfl⟩)
  cases a with
  | register r =>
    simp only [sweptBy] at h
    simp only [step] at hs
    split_ifs at h hs
    · cases h
    · obtain rfl := Option.some.inj hs
      exact hmarked r.now _ h
  | closeExpired now =>
    simp only [sweptBy] at h
    simp only [step] at hs
    split_ifs at h hs
    · cases h
    · obtain rfl := Option.some.inj hs
      exact hmarked now _ h
  | _ => cases h

/-- The entries after a move were entries before it, or are new. -/
theorem Move.registered_or {events : List (CallbackEvent κ)} (h : Move s s' events) :
    Grows s s' ∧ ∀ e, s'.Registered e → e = s.next ∨ s.Registered e := by
  cases h with
  | registered close hview hholder hactive hgrows hnext => exact ⟨hgrows, hactive⟩
  | quiet hview hholder hactive hgrows => exact ⟨hgrows, fun e he => Or.inr (hactive e he)⟩
  | promoted entry old close hentry hview hholder hactive hgrows =>
    exact ⟨hgrows, fun e he => Or.inr (hactive e he)⟩
  | claimed c entry close release hc hentry hin hview hholder hactive hgrows =>
    exact ⟨hgrows, fun e he => Or.inr (hactive e he)⟩
  | invoked c entry closing close hc hentry hview hholder hactive hgrows =>
    exact ⟨hgrows, fun e he => Or.inr (hactive e he)⟩
  | returned c entry confirmed closing closing' close hc hentry hview hholder hactive hgrows hout =>
    exact ⟨hgrows, fun e he => Or.inr (hactive e he)⟩

/-! ## When the marks stay -/

/-- What every action keeps that is in time. -/
structure MarkInv (p : Authority κ × List ℕ) : Prop where
  inv : p.1.Inv
  calls : ∀ c, p.1.next ≤ c → p.1.calls c = none
  known : ∀ e ∈ p.2, e < p.1.next
  marked : ∀ entry key, p.1.Registered entry → p.1.scope entry = some key → entry ∈ p.2 →
    key ∈ p.1.revokingPolicyKeys

theorem scope_eq_some {entry : ℕ} : s.scope entry = some key ↔
    ∃ conn, s.connections entry = some conn ∧ conn.policyKey = key := by
  simp [scope]

theorem MarkInv.failClosed {p : Authority κ × List ℕ} (h : MarkInv p) : FailClosed p := by
  intro entry conn hm hswept
  obtain ⟨hr, hc⟩ := mem_entries_iff.mp hm
  have hmark := h.marked entry conn.policyKey hr (scope_eq_some.mpr ⟨conn, hc, rfl⟩) hswept
  exact ⟨hmark, blocked_of_mem hmark⟩

/-- The end of a call keeps the mark of a policy that still has a connection, when it is in time. -/
theorem mem_of_finish {call : ℕ} {frame : Call κ} (hf : s.calls call = some frame)
    (hs : s.finish call frame = some s') {entry : ℕ} {conn : Connection κ}
    (hm : (entry, conn) ∈ s.entries) (hmark : conn.policyKey ∈ s.revokingPolicyKeys)
    (hswept : entry ∈ swept) (htime : InTime (s, swept) (.finish call)) :
    conn.policyKey ∈ s'.revokingPolicyKeys := by
  unfold finish at hs
  split at hs
  · rename_i now keys register closed failed
    split_ifs at hs with hfailed
    · obtain rfl := Option.some.inj hs
      exact hmark
    · obtain rfl : failed = 0 := by omega
      have hkeep : conn.policyKey ∈ (s.unmarkSwept now keys).revokingPolicyKeys := by
        refine Finset.mem_filter.mpr ⟨hmark, ?_⟩
        rintro ⟨hkeys, hnone⟩
        have hdue := htime call now keys register closed rfl hf entry conn hm hswept hkeys
        unfold due isDue at hdue
        rw [hdue] at hnone
        cases hnone
      split at hs
      all_goals obtain rfl := Option.some.inj hs
      all_goals exact hkeep
  · rename_i key g closed failed
    split_ifs at hs
    · obtain rfl := Option.some.inj hs
      exact hmark
    · obtain rfl := Option.some.inj hs
      change conn.policyKey ∈ (s.unmarkRevoked key).revokingPolicyKeys
      unfold unmarkRevoked
      split_ifs with hany
      · exact hmark
      · refine Finset.mem_erase.mpr ⟨?_, hmark⟩
        rintro rfl
        exact hany (List.any_eq_true.mpr ⟨_, hm, by simp⟩)
  · cases hs

theorem MarkInv.step {p q : Authority κ × List ℕ} (h : MarkInv p) (htime : InTime p a)
    (hs : sweepStep p a = some q) : MarkInv q := by
  obtain ⟨s, swept⟩ := p
  obtain ⟨s', hstep, rfl⟩ := Option.map_eq_some_iff.mp hs
  have hs : s.step a = some s' := hstep
  obtain ⟨hgrows, hregistered⟩ := (move_of_step h.inv (h.calls _ le_rfl) hs).registered_or
  refine ⟨h.inv.step hs, fun c hc => hgrows.calls c hc (h.calls c (hgrows.next.trans hc)), ?_, ?_⟩
  · intro e he
    refine lt_of_lt_of_le ?_ hgrows.next
    rcases List.mem_append.mp he with he | he
    · exact h.known e he
    · obtain ⟨conn, hm, -⟩ := marked_of_sweptBy hs he
      refine h.inv.lt_of_view ?_
      simp [view, (mem_entries_iff.mp hm).2]
  · intro entry key hr hscope hmem
    rcases List.mem_append.mp hmem with he | he
    · have hlt := h.known entry he
      have hold := (hregistered entry hr).resolve_left hlt.ne
      rw [hgrows.scope entry hlt] at hscope
      have hmark := h.marked entry key hold hscope he
      by_cases hfinish : ∃ call, a = .finish call
      · obtain ⟨call, rfl⟩ := hfinish
        obtain ⟨conn, hc, rfl⟩ := scope_eq_some.mp hscope
        simp only [Authority.step] at hs
        split at hs
        · cases hs
        · rename_i frame hf
          exact mem_of_finish hf hs (mem_entries_iff.mpr ⟨hold, hc⟩) hmark he htime
      · exact marks_subset_of_step hs (fun call hcall => hfinish ⟨call, hcall⟩) hmark
    · obtain ⟨conn, hm, hmark⟩ := marked_of_sweptBy hs he
      obtain ⟨-, hc⟩ := mem_entries_iff.mp hm
      have hlt : entry < s.next := h.inv.lt_of_view (by simp [view, hc])
      rw [hgrows.scope entry hlt, scope, hc] at hscope
      obtain rfl := Option.some.inj hscope
      exact hmark

/-- A sweep that is not in time leaves a policy unmarked. -/
theorem inTime_of_failClosed {p q : Authority κ × List ℕ} (hs : sweepStep p a = some q)
    (h : FailClosed q) : InTime p a := by
  obtain ⟨s, swept⟩ := p
  obtain ⟨s', hstep, rfl⟩ := Option.map_eq_some_iff.mp hs
  rintro call now keys register closed rfl hf entry conn hm hswept hkeys
  have hs : s.finish call (.sweeping now keys register ⟨none, [], closed, 0⟩) = some s' := by
    have hstep : s.step (.finish call) = some s' := hstep
    rw [Authority.step] at hstep
    have hf : s.calls call = _ := hf
    rwa [hf] at hstep
  have hkept : s'.activeConnections = s.activeConnections → s'.connections = s.connections →
      s'.revokingPolicyKeys = (s.unmarkSwept now keys).revokingPolicyKeys →
      s.due now conn.policyKey = true := by
    intro hactive hconnections hmarks
    have hmark := (h entry conn ?_ (List.mem_append_left _ hswept)).1
    · simp only [hmarks] at hmark
      by_contra hnone
      refine (Finset.mem_filter.mp hmark).2 ⟨hkeys, ?_⟩
      unfold due isDue at hnone
      simpa using hnone
    · rw [mem_entries, hactive, hconnections]
      exact mem_entries.mp hm
  unfold finish at hs
  simp only [lt_irrefl, if_false] at hs
  cases register with
  | none =>
    cases hs
    exact hkept rfl rfl rfl
  | some r =>
    cases hs
    exact hkept rfl rfl rfl

/-- The marks stay in every state of a run exactly when its sweeps are in time. -/
theorem always_failClosed_iff (secret : Bytes) (acts : List (AuthorityAction κ)) :
    Always sweepStep FailClosed (initial secret, []) acts ↔
      Along sweepStep InTime (initial secret, []) acts := by
  refine always_iff_along (I := MarkInv) (fun _ h => h.failClosed)
    (fun p a q h htime hs => h.step htime hs) (fun p a q _ hs h => inTime_of_failClosed hs h) ?_
  exact ⟨inv_initial secret, fun _ _ => rfl, fun _ he => (by cases he), fun _ _ _ _ he => (by cases he)⟩

/-- The close of an expired connection fails, a sweep with an older clock reading ends, and another
connection is registered for the same policy, which is not marked then. -/
theorem swept_of_staleClock {first second : Registration κ} {key : PolicyKey}
    (hnow : 0 ≤ first.now ∧ 0 ≤ second.now)
    (hpending : first.pending = false ∧ second.pending = false)
    (hlease : first.issued.lease.expiresAtMonotonicNs = 1000 ∧
      first.issued.lease.generation = 1 ∧ second.now < 1000)
    (hfirst : ∀ s : Authority κ, s.key = [] → key ∉ s.revokingPolicyKeys →
      s.generation key = 1 → s.registerCheck first none = .ok key)
    (hsecond : ∀ s : Authority κ, s.key = [] → key ∉ s.revokingPolicyKeys →
      s.generation key = 1 → s.registerCheck second none = .ok key) :
    ∃ (s : Authority κ) (conn : Connection κ), run sweepStep (initial [], [])
      [.register first, .finish 0, .registerConnection 0 none "c", .closeExpired 1000,
        .loop 2 .next, .loop 2 .invoke, .loop 2 (.returned false), .finish 2, .closeExpired 5,
        .finish 3, .register second, .finish 4, .registerConnection 4 none "d"] = some (s, [1]) ∧
      s.entries.length = 2 ∧ (1, conn) ∈ s.entries ∧ conn.policyKey ∉ s.revokingPolicyKeys := by
  have hdiffer : lit "c" ≠ lit "d" := by decide
  simp only [run, sweepStep, step]
  simp [hpending, hnow.1.not_gt, hnow.2.not_gt, initial, entries, beginSweep, beginCall, finish,
    unmarkSwept, setCall, emit, endCall, sweptBy]
  rw [hfirst _ rfl (by simp) rfl]
  simp [isExpired, isStale, generation, Dict.set, Dict.get?, Call.closeLoop, loopStep,
    setConnection, isActive, Call.setLoop, hlease, hlease.2.2.not_ge, hpending, hdiffer]
  rw [hsecond _ rfl (by simp) (by simp [generation, Dict.get?])]
  simp

/-- A connection with the lease of the first generation. -/
def offlineRegistration (now : ℤ) : Registration Unit :=
  ⟨offlineLease false, offlinePolicy, .webRead, "pypi.org", 443, now, (), false, false, none⟩

/-- The close of an expired connection fails, a sweep with an older clock reading ends, and another
connection is registered for the same policy. -/
def staleClockRun : List (AuthorityAction Unit) :=
  [.register (offlineRegistration 5), .finish 0, .registerConnection 0 none "c",
    .closeExpired 1000, .loop 2 .next, .loop 2 .invoke, .loop 2 (.returned false), .finish 2,
    .closeExpired 5, .finish 3,
    .register (offlineRegistration 6), .finish 4, .registerConnection 4 none "d"]

theorem staleClockRun_not_failClosed : ∃ (s : Authority Unit) (swept : List ℕ),
    run sweepStep (initial [], []) staleClockRun = some (s, swept) ∧ s.entries.length = 2 ∧
      ¬FailClosed (s, swept) := by
  have hcheck : ∀ now : ℤ, 1 ≤ now ∧ now < 1000 → ∀ s : Authority Unit, s.key = [] →
      offlineKey ∉ s.revokingPolicyKeys → s.generation offlineKey = 1 →
      s.registerCheck (offlineRegistration now) none = .ok offlineKey :=
    fun _ hnow _ hkey hmark hgeneration => registerCheck_offlineLease hkey hmark hgeneration hnow
  have hnow : 0 ≤ (offlineRegistration 5).now ∧ 0 ≤ (offlineRegistration 6).now := by decide
  obtain ⟨s, conn, hs, hlength, hm, hmark⟩ := swept_of_staleClock hnow ⟨rfl, rfl⟩
    ⟨rfl, rfl, by decide⟩ (hcheck 5 (by decide)) (hcheck 6 (by decide))
  exact ⟨s, [1], hs, hlength, fun h => hmark (h 1 conn hm (by simp)).1⟩

/-! ## A sweep that runs alone -/

/-- A connection that a sweep alone closes : no other call is closing it, and its callback returns
`True`. -/
def Closes (outcome : ℕ → Bool) (entry : ℕ) (conn : Connection κ) : Prop :=
  conn.closing = false ∧ outcome entry = true

/-- What the close callbacks return is the outcome for the entry. -/
def Answers (call : ℕ) (outcome : ℕ → Bool) (s : Authority κ) (a : AuthorityAction κ) : Prop :=
  ∀ confirmed entry, a = .loop call (.returned confirmed) → s.holder call = some (entry, true) →
    confirmed = outcome entry

/-- A policy that the sweep marks, and that has nothing left that is due, is not marked after it. -/
def Unmarked (s : Authority κ) (now : ℤ) (s' : Authority κ) : Prop :=
  ∀ entry conn, (entry, conn) ∈ s.entries → isExpired now conn = true →
    s'.due now conn.policyKey = false → conn.policyKey ∉ s'.revokingPolicyKeys

/-- Where a sweep that runs alone stands : it is done with the entries of `finished`. -/
structure Sweeping (s : Authority κ) (now : ℤ) (register : Option (Registration κ))
    (outcome : ℕ → Bool) (t : Authority κ) (finished : List ℕ) (loop : CloseLoop κ) : Prop where
  inv : t.Inv
  call : t.calls s.next =
    some (.sweeping now (s.beginSweep now register).revokingPolicyKeys register loop)
  marks : t.revokingPolicyKeys = (s.beginSweep now register).revokingPolicyKeys
  generations : t.generations = s.generations
  picked : (s.entries.filter fun e => s.isDue now e.2).map Prod.fst = finished ++ loop.entries
  connections : ∀ e conn, s.connections e = some conn →
    ∃ conn', t.connections e = some conn' ∧ conn'.policyKey = conn.policyKey ∧
      conn'.lease = conn.lease ∧
      (t.Registered e → conn'.closing = (conn.closing || decide (loop.holds.map Prod.fst = some e)))
  old : ∀ e, t.Registered e → s.Registered e
  registered : ∀ e conn, s.connections e = some conn →
    (t.Registered e ↔ s.Registered e ∧ ¬(e ∈ finished ∧ Closes outcome e conn))
  stage : ∀ e stage, loop.current = some (e, stage) → t.Registered e ∧
    ∀ conn, s.connections e = some conn → conn.closing = !loop.holds.isSome
  failures : loop.failureCount = 0 ↔
    ∀ e ∈ finished, ∀ conn, s.connections e = some conn → Closes outcome e conn

section Sweeping

variable {now : ℤ} {register : Option (Registration κ)} {outcome : ℕ → Bool} {t t' : Authority κ}
  {finished : List ℕ} {loop loop' : CloseLoop κ}

/-- What the sweep takes up is registered. -/
theorem Sweeping.of_mem_entries (h : Sweeping s now register outcome t finished loop) {e : ℕ}
    (he : e ∈ loop.entries) : ∃ conn, s.Registered e ∧ s.connections e = some conn := by
  have hm : e ∈ (s.entries.filter fun e => s.isDue now e.2).map Prod.fst := by
    rw [h.picked]
    exact List.mem_append_right _ he
  obtain ⟨⟨_, conn⟩, hdue, rfl⟩ := List.mem_map.mp hm
  obtain ⟨hr, hc⟩ := mem_entries_iff.mp (List.mem_filter.mp hdue).1
  exact ⟨conn, hr, hc⟩

/-- The loop goes on, and the table stays. -/
theorem Sweeping.stay (h : Sweeping s now register outcome t finished loop) (done : List ℕ)
    (hinv : t'.Inv)
    (ht : t' = t.setCall s.next
      (.sweeping now (s.beginSweep now register).revokingPolicyKeys register loop'))
    (hentries : finished ++ loop.entries = finished ++ done ++ loop'.entries)
    (hholds : loop'.holds.map Prod.fst = loop.holds.map Prod.fst)
    (hdone : ∀ e ∈ done, ∀ conn, s.connections e = some conn → Closes outcome e conn →
      ¬t.Registered e)
    (hstage : ∀ e stage, loop'.current = some (e, stage) → t.Registered e ∧
      ∀ conn, s.connections e = some conn → conn.closing = !loop'.holds.isSome)
    (hfailures : loop'.failureCount = 0 ↔ loop.failureCount = 0 ∧
      ∀ e ∈ done, ∀ conn, s.connections e = some conn → Closes outcome e conn) :
    Sweeping s now register outcome t' (finished ++ done) loop' := by
  subst ht
  refine ⟨hinv, ?_, h.marks, h.generations, h.picked.trans hentries, ?_, h.old, ?_, hstage, ?_⟩
  · simp [setCall]
  · rw [hholds]
    exact h.connections
  · intro e conn hc
    rw [List.mem_append]
    constructor
    · intro hr
      have hr : t.Registered e := hr
      obtain ⟨hold, hnot⟩ := (h.registered e conn hc).mp hr
      refine ⟨hold, ?_⟩
      rintro ⟨he | he, hcloses⟩
      · exact hnot ⟨he, hcloses⟩
      · exact hdone e he conn hc hcloses hr
    · rintro ⟨hold, hnot⟩
      exact (h.registered e conn hc).mpr ⟨hold, fun hc' => hnot ⟨Or.inl hc'.1, hc'.2⟩⟩
  · rw [hfailures, h.failures]
    simp only [List.forall_mem_append]

/-- The table without an entry. -/
theorem registered_discard_iff (h : t.Table) {e e' : ℕ} {conn : Connection κ}
    (hc : t.connections e = some conn) :
    (t.discard e conn).Registered e' ↔ t.Registered e' ∧ e' ≠ e := by
  constructor
  · rintro ⟨id, hm⟩
    refine ⟨registered_discard ⟨id, hm⟩, ?_⟩
    rintro rfl
    exact h.not_mem_discard hc id hm
  · rintro ⟨⟨id, hm⟩, hne⟩
    refine ⟨id, ?_⟩
    unfold discard
    split_ifs with hactive
    · refine Dict.mem_erase.mpr ⟨hm, ?_⟩
      rintro rfl
      have hget : t.activeConnections.get? conn.handle.connectionId = some e := by
        simpa [isActive] using hactive
      rw [Dict.get?_of_mem h.nodup hm] at hget
      exact hne (Option.some.inj hget)
    · exact hm

/-- The close callback of an entry returns, and the loop is done with it. -/
theorem Sweeping.done (h : Sweeping s now register outcome t finished loop) {e : ℕ}
    {callback : κ} (hcur : loop.current = some (e, .calling callback)) {u : Authority κ}
    {conn conn' : Connection κ} {closeComplete : Bool} {failures : ℕ} (hinv : t'.Inv)
    (hc : s.connections e = some conn) (hc' : t.connections e = some conn')
    (hu : u.connections = t.connections ∧ u.calls = t.calls ∧ u.generations = t.generations ∧
      u.revokingPolicyKeys = t.revokingPolicyKeys)
    (hregistered : ∀ e', u.Registered e' ↔
      t.Registered e' ∧ ¬(e' = e ∧ Closes outcome e conn))
    (hfailures : failures = loop.failureCount + if outcome e then 0 else 1)
    {closed : ℕ}
    (ht : t' = (u.setConnection e { conn' with closing := false, closeComplete }).setCall s.next
      (.sweeping now (s.beginSweep now register).revokingPolicyKeys register
        ⟨none, loop.remaining, closed, failures⟩)) :
    Sweeping s now register outcome t' (finished ++ [e]) ⟨none, loop.remaining, closed, failures⟩ := by
  subst ht
  obtain ⟨hconnections, hcalls, hgenerations, hmarks⟩ := hu
  have hholds : loop.holds = some (e, true) := by rw [CloseLoop.holds, hcur]
  have hfree : conn.closing = false := by
    simpa [hholds] using (h.stage e _ hcur).2 conn hc
  refine ⟨hinv, ?_, ?_, ?_, ?_, ?_, fun e₁ hr => h.old e₁ ((hregistered e₁).mp hr).1, ?_, ?_, ?_⟩
  · simp [setCall]
  · exact hmarks.trans h.marks
  · exact hgenerations.trans h.generations
  · rw [h.picked]
    simp [CloseLoop.entries, hcur]
  · intro e₁ conn₁ hc₁
    obtain ⟨conn₁', hc₁', hkey, hlease, hclosing⟩ := h.connections e₁ conn₁ hc₁
    by_cases he : e₁ = e
    · subst he
      obtain rfl : conn₁' = conn' := Option.some.inj (hc₁'.symm.trans hc')
      obtain rfl : conn₁ = conn := Option.some.inj (hc₁.symm.trans hc)
      exact ⟨{ conn₁' with closing := false, closeComplete }, by simp [setCall, setConnection],
        hkey, hlease, fun _ => by simp [CloseLoop.holds, hfree]⟩
    · refine ⟨conn₁', ?_, hkey, hlease, fun hr => ?_⟩
      · simp [setCall, setConnection, he, hconnections, hc₁']
      · rw [hclosing ((hregistered e₁).mp hr).1, hholds]
        simp [CloseLoop.holds, Ne.symm he]
  · intro e₁ conn₁ hc₁
    refine (hregistered e₁).trans ?_
    rw [h.registered e₁ conn₁ hc₁, List.mem_append, List.mem_singleton]
    constructor
    · rintro ⟨⟨hold, hnot⟩, hne⟩
      refine ⟨hold, ?_⟩
      rintro ⟨he | rfl, hcloses⟩
      · exact hnot ⟨he, hcloses⟩
      · obtain rfl : conn₁ = conn := Option.some.inj (hc₁.symm.trans hc)
        exact hne ⟨rfl, hcloses⟩
    · rintro ⟨hold, hnot⟩
      refine ⟨⟨hold, fun hfin => hnot ⟨Or.inl hfin.1, hfin.2⟩⟩, ?_⟩
      rintro ⟨rfl, hcloses⟩
      obtain rfl : conn₁ = conn := Option.some.inj (hc₁.symm.trans hc)
      exact hnot ⟨Or.inr rfl, hcloses⟩
  · exact fun _ _ hnone => by cases hnone
  · rw [hfailures, List.forall_mem_append, ← h.failures]
    simp only [Nat.add_eq_zero_iff, List.mem_singleton, forall_eq, hc, Option.some.injEq,
      forall_eq']
    simp [Closes, hfree]

/-- A free entry is claimed. -/
theorem Sweeping.claim (h : Sweeping s now register outcome t finished loop) {e : ℕ} {es : List ℕ}
    (hcur : loop.current = none) (hrem : loop.remaining = e :: es) {conn conn' : Connection κ}
    (hinv : t'.Inv) (hc : s.connections e = some conn) (hc' : t.connections e = some conn')
    (hr : t.Registered e) (hfree : conn.closing = false)
    (ht : t' = (t.setConnection e { conn' with
      closing := true, closeComplete := false }).setCall s.next
      (.sweeping now (s.beginSweep now register).revokingPolicyKeys register
        { loop with current := some (e, .claimed), remaining := es })) :
    Sweeping s now register outcome t' finished
      { loop with current := some (e, .claimed), remaining := es } := by
  subst ht
  have hnone : loop.holds = none := by rw [CloseLoop.holds, hcur]
  refine ⟨hinv, ?_, h.marks, h.generations, ?_, ?_, h.old, h.registered, ?_, h.failures⟩
  · simp [setCall]
  · rw [h.picked]
    simp [CloseLoop.entries, hcur, hrem]
  · intro e₁ conn₁ hc₁
    obtain ⟨conn₁', hc₁', hkey, hlease, hclosing⟩ := h.connections e₁ conn₁ hc₁
    by_cases he : e₁ = e
    · subst he
      obtain rfl : conn₁' = conn' := Option.some.inj (hc₁'.symm.trans hc')
      exact ⟨{ conn₁' with closing := true, closeComplete := false },
        by simp [setCall, setConnection], hkey, hlease, fun _ => by simp [CloseLoop.holds]⟩
    · refine ⟨conn₁', ?_, hkey, hlease, fun hr₁ => ?_⟩
      · simp [setCall, setConnection, he, hc₁']
      · rw [hclosing hr₁, hnone]
        simp [CloseLoop.holds, Ne.symm he]
  · rintro e₁ stage hcur₁
    obtain ⟨rfl, rfl⟩ := Prod.mk.inj (Option.some.inj hcur₁)
    refine ⟨hr, fun conn₁ hc₁ => ?_⟩
    obtain rfl : conn = conn₁ := Option.some.inj (hc.symm.trans hc₁)
    simpa [CloseLoop.holds] using hfree

/-- The loop is done with an entry that another call was closing : it has failed. -/
theorem Sweeping.failed (h : Sweeping s now register outcome t finished loop) {e : ℕ}
    {stage : CloseStage κ} (hcur : loop.current = some (e, stage)) (hnone : loop.holds = none)
    (hinv : t'.Inv)
    (ht : t' = t.setCall s.next (.sweeping now (s.beginSweep now register).revokingPolicyKeys register
      { loop with current := none, failureCount := loop.failureCount + 1 })) :
    Sweeping s now register outcome t' (finished ++ [e])
      { loop with current := none, failureCount := loop.failureCount + 1 } := by
  obtain ⟨conn, hold, hc⟩ := h.of_mem_entries (e := e) (by simp [CloseLoop.entries, hcur])
  have hnot : ¬Closes outcome e conn := by
    intro hcloses
    have hclosing := (h.stage e stage hcur).2 conn hc
    rw [hnone, hcloses.1] at hclosing
    cases hclosing
  refine h.stay _ hinv ht ?_ ?_ ?_ ?_ ?_
  · simp [CloseLoop.entries, hcur]
  · rw [hnone]
    rfl
  · intro f hf conn₁ hc₁ hcloses
    obtain rfl := List.mem_singleton.mp hf
    obtain rfl : conn₁ = conn := Option.some.inj (hc₁.symm.trans hc)
    exact absurd hcloses hnot
  · exact fun _ _ hnone => by cases hnone
  · simp [hc, hnot]

/-- One part of the loop of a sweep that runs alone. -/
theorem Sweeping.loopStep (h : Sweeping s now register outcome t finished loop) {a : LoopAction}
    (hs : t.step (.loop s.next a) = some t')
    (hanswers : Answers s.next outcome t (.loop s.next a)) :
    ∃ finished' loop', Sweeping s now register outcome t' finished' loop' := by
  have hinv := h.inv.step hs
  simp only [Authority.step, h.call, Call.closeLoop] at hs
  obtain ⟨⟨t₁, loop'⟩, hstep, ht⟩ := Option.map_eq_some_iff.mp hs
  have ht : t' = t₁.setCall s.next
      (.sweeping now (s.beginSweep now register).revokingPolicyKeys register loop') := ht.symm
  have hheld : t.holder s.next = loop.holds := by
    rw [holder_eq_of_calls h.call]
    rfl
  cases a with
  | next =>
    simp only [Authority.loopStep] at hstep
    split at hstep
    case h_2 => cases hstep
    case h_1 e es hcur hrem =>
      have hentries : loop.entries = e :: es := by simp [CloseLoop.entries, hcur, hrem]
      have hnone : loop.holds = none := by rw [CloseLoop.holds, hcur]
      obtain ⟨conn, hold, hc⟩ := h.of_mem_entries (e := e) (by simp [hentries])
      obtain ⟨conn', hc', hkey, hlease, hclosing⟩ := h.connections e conn hc
      have hactive : t.isActive e conn' = true ↔ t.Registered e := h.inv.table.isActive_iff hc'
      simp only [hc'] at hstep
      split_ifs at hstep with ha hcl
      · obtain ⟨rfl, rfl⟩ := Prod.mk.inj (Option.some.inj hstep)
        have hout : ¬t.Registered e := by
          rw [← hactive]
          simpa using ha
        have hcloses : Closes outcome e conn := by
          by_contra hnot
          exact hout ((h.registered e conn hc).mpr ⟨hold, fun hfin => hnot hfin.2⟩)
        refine ⟨_, _, h.stay [e] hinv ht ?_ ?_ ?_ ?_ ?_⟩
        · rw [hentries]
          simp [CloseLoop.entries, hcur]
        · simp [CloseLoop.holds]
        · rintro f hf conn₁ hc₁ -
          rwa [List.mem_singleton.mp hf]
        · intro f stage hf
          rw [hcur] at hf
          cases hf
        · simp [hc, hcloses]
      · obtain ⟨rfl, rfl⟩ := Prod.mk.inj (Option.some.inj hstep)
        have hr : t.Registered e := hactive.mp (by simpa using ha)
        have hclosed : conn.closing = true := by
          have := hclosing hr
          rw [hcl, hnone] at this
          simpa using this
        refine ⟨_, _, h.stay [] hinv ht ?_ ?_ (by simp) ?_ (by simp)⟩
        · rw [hentries]
          simp [CloseLoop.entries]
        · rw [hnone]
          rfl
        · rintro f stage hf
          obtain ⟨rfl, rfl⟩ := Prod.mk.inj (Option.some.inj hf)
          refine ⟨hr, fun conn₁ hc₁ => ?_⟩
          obtain rfl : conn = conn₁ := Option.some.inj (hc.symm.trans hc₁)
          simpa [CloseLoop.holds] using hclosed
      · obtain ⟨rfl, rfl⟩ := Prod.mk.inj (Option.some.inj hstep)
        have hr : t.Registered e := hactive.mp (by simpa using ha)
        have hfree : conn.closing = false := by
          have := hclosing hr
          rw [hnone] at this
          simpa [this] using hcl
        exact ⟨_, _, h.claim hcur hrem hinv hc hc' hr hfree ht⟩
  | invoke =>
    simp only [Authority.loopStep] at hstep
    split at hstep
    case h_2 => cases hstep
    case h_1 e hcur =>
      have hholds : loop.holds = some (e, false) := by rw [CloseLoop.holds, hcur]
      obtain ⟨conn, hc, heq⟩ := Option.map_eq_some_iff.mp hstep
      obtain ⟨rfl, rfl⟩ := Prod.mk.inj heq
      refine ⟨_, _, h.stay [] hinv ht ?_ ?_ (by simp) ?_ (by simp)⟩
      · simp [CloseLoop.entries, hcur]
      · rw [hholds]
        rfl
      · rintro f stage hf
        obtain ⟨rfl, rfl⟩ := Prod.mk.inj (Option.some.inj hf)
        have hstage := h.stage e _ hcur
        rw [hholds] at hstage
        exact hstage
  | returned confirmed =>
    simp only [Authority.loopStep] at hstep
    split at hstep
    case h_2 => cases hstep
    case h_1 e callback hcur =>
      have hholds : loop.holds = some (e, true) := by rw [CloseLoop.holds, hcur]
      obtain ⟨conn, hold, hc⟩ := h.of_mem_entries (e := e) (by simp [CloseLoop.entries, hcur])
      obtain ⟨conn', hc', -⟩ := h.connections e conn hc
      have hfree : conn.closing = false := by
        simpa [hholds] using (h.stage e _ hcur).2 conn hc
      have hactive : t.isActive e conn' = true :=
        (h.inv.table.isActive_iff hc').mpr (h.stage e _ hcur).1
      have houtcome : confirmed = outcome e := hanswers confirmed e rfl (hheld.trans hholds)
      simp only [hc'] at hstep
      cases confirmed with
      | true =>
        obtain ⟨rfl, rfl⟩ := Prod.mk.inj (Option.some.inj hstep)
        refine ⟨_, _, h.done hcur (u := t.discard e conn') hinv hc hc' ?_ (fun e' => ?_) ?_ ht⟩
        · unfold discard
          rw [if_pos hactive]
          exact ⟨rfl, rfl, rfl, rfl⟩
        · rw [registered_discard_iff h.inv.table hc']
          simp [Closes, hfree, ← houtcome]
        · simp [← houtcome]
      | false =>
        obtain ⟨rfl, rfl⟩ := Prod.mk.inj (Option.some.inj hstep)
        rw [hactive] at ht
        refine ⟨_, _, h.done hcur (u := t) hinv hc hc' ⟨rfl, rfl, rfl, rfl⟩ (fun e' => ?_) ?_ ht⟩
        · simp [Closes, ← houtcome]
        · simp [← houtcome]
  | wake =>
    simp only [Authority.loopStep] at hstep
    split at hstep
    case h_2 => cases hstep
    case h_1 e hcur =>
      have hnone : loop.holds = none := by rw [CloseLoop.holds, hcur]
      split_ifs at hstep
      obtain ⟨rfl, rfl⟩ := Prod.mk.inj (Option.some.inj hstep)
      refine ⟨_, _, h.stay [] hinv ht ?_ ?_ (by simp) ?_ (by simp)⟩
      · simp [CloseLoop.entries, hcur]
      · rw [hnone]
        rfl
      · rintro f stage hf
        obtain ⟨rfl, rfl⟩ := Prod.mk.inj (Option.some.inj hf)
        have hstage := h.stage e _ hcur
        rw [hnone] at hstage
        exact hstage
  | timeout =>
    simp only [Authority.loopStep] at hstep
    split at hstep
    case h_2 => cases hstep
    case h_1 e hcur =>
      obtain ⟨rfl, rfl⟩ := Prod.mk.inj (Option.some.inj hstep)
      exact ⟨_, _, h.failed hcur (by rw [CloseLoop.holds, hcur]) hinv ht⟩
  | check =>
    simp only [Authority.loopStep] at hstep
    split at hstep
    case h_2 => cases hstep
    case h_1 e hcur =>
      obtain ⟨conn, -, hc⟩ := h.of_mem_entries (e := e) (by simp [CloseLoop.entries, hcur])
      obtain ⟨conn', hc', -⟩ := h.connections e conn hc
      have hactive : t.isActive e conn' = true :=
        (h.inv.table.isActive_iff hc').mpr (h.stage e _ hcur).1
      obtain ⟨rfl, rfl⟩ := Prod.mk.inj (Option.some.inj hstep)
      simp only [hc', Option.any_some, hactive, if_true] at ht
      exact ⟨_, _, h.failed hcur (by rw [CloseLoop.holds, hcur]) hinv ht⟩

theorem sweeping_beginSweep (h : s.Inv) (now : ℤ) (register : Option (Registration κ))
    (outcome : ℕ → Bool) : ∃ loop, Sweeping s now register outcome (s.beginSweep now register) [] loop := by
  refine ⟨⟨none, (s.entries.filter fun e => s.isDue now e.2).map Prod.fst, 0, 0⟩,
    h.beginSweep now register, ?_, rfl, rfl, ?_, ?_, fun _ hr => hr, ?_, ?_, ?_⟩
  · simp only [beginSweep, beginCall, Function.update_self]
    rfl
  · simp [CloseLoop.entries]
  · exact fun e conn hc => ⟨conn, hc, rfl, rfl, fun _ => by simp [CloseLoop.holds]⟩
  · intro e conn _
    change s.Registered e ↔ _
    simp
  · exact fun _ _ hcur => by cases hcur
  · simp

theorem Sweeping.run {acts : List (AuthorityAction κ)} :
    ∀ {t t' : Authority κ} {finished : List ℕ} {loop : CloseLoop κ},
      Sweeping s now register outcome t finished loop → (∀ a ∈ acts, ∃ x, a = .loop s.next x) →
      Along step (Answers s.next outcome) t acts → Transition.run step t acts = some t' →
      ∃ finished' loop', Sweeping s now register outcome t' finished' loop' := by
  induction acts with
  | nil =>
    intro t t' finished loop h _ _ hrun
    obtain rfl := Option.some.inj hrun
    exact ⟨finished, loop, h⟩
  | cons a acts ih =>
    intro t t' finished loop h hacts halong hrun
    obtain ⟨u, hs, hbehind⟩ := run_cons.mp hrun
    obtain ⟨hanswers, hrest⟩ := halong u hs
    obtain ⟨x, rfl⟩ := hacts a List.mem_cons_self
    obtain ⟨finished', loop', h'⟩ := h.loopStep hs hanswers
    exact ih h' (fun b hb => hacts b (List.mem_cons_of_mem _ hb)) hrest hbehind

/-- In the end it has dealt with what was due. -/
theorem Sweeping.mem_finished_iff (h : Sweeping s now register outcome t finished loop)
    (hloop : loop.entries = []) {e : ℕ} :
    e ∈ finished ↔ ∃ conn, (e, conn) ∈ s.entries ∧ s.isDue now conn = true := by
  have hpicked := h.picked
  rw [hloop, List.append_nil] at hpicked
  rw [← hpicked]
  simp only [List.mem_map, List.mem_filter, Prod.exists, exists_and_right, exists_eq_right]

/-- What is left of a policy when the sweep is done with everything it took up. -/
theorem Sweeping.due_iff (hs : s.Inv) (h : Sweeping s now register outcome t finished loop)
    (hloop : loop.entries = []) (key : PolicyKey) :
    t.due now key = true ↔ ∃ e conn, (e, conn) ∈ s.entries ∧ s.isDue now conn = true ∧
      conn.policyKey = key ∧ ¬Closes outcome e conn := by
  have hgeneration : ∀ k, t.generation k = s.generation k := fun k => by
    rw [generation, generation, h.generations]
  have hdue : ∀ {conn conn' : Connection κ}, conn'.policyKey = conn.policyKey →
      conn'.lease = conn.lease → t.isDue now conn' = s.isDue now conn := by
    intro conn conn' hkey hlease
    simp only [isDue, isExpired, isStale, hkey, hlease, hgeneration]
  simp only [due, List.any_eq_true, Bool.and_eq_true, beq_iff_eq]
  constructor
  · rintro ⟨⟨e, conn'⟩, hm, hkey', hd⟩
    obtain ⟨hr, hc'⟩ := mem_entries_iff.mp hm
    obtain ⟨id, hid⟩ := h.old e hr
    obtain ⟨conn, hc, -⟩ := hs.table.active id e hid
    obtain ⟨conn₁, hc₁, hkey, hlease, -⟩ := h.connections e conn hc
    obtain rfl : conn' = conn₁ := Option.some.inj (hc'.symm.trans hc₁)
    have hmem : (e, conn) ∈ s.entries := mem_entries_iff.mpr ⟨h.old e hr, hc⟩
    have hd : s.isDue now conn = true := (hdue hkey hlease) ▸ hd
    refine ⟨e, conn, hmem, hd, hkey.symm.trans hkey', fun hcloses => ?_⟩
    exact ((h.registered e conn hc).mp hr).2
      ⟨(h.mem_finished_iff hloop).mpr ⟨conn, hmem, hd⟩, hcloses⟩
  · rintro ⟨e, conn, hm, hd, rfl, hnot⟩
    obtain ⟨hr, hc⟩ := mem_entries_iff.mp hm
    obtain ⟨conn', hc', hkey, hlease, -⟩ := h.connections e conn hc
    have hr' : t.Registered e := (h.registered e conn hc).mpr ⟨hr, fun hfin => hnot hfin.2⟩
    exact ⟨(e, conn'), mem_entries_iff.mpr ⟨hr', hc'⟩, hkey, (hdue hkey hlease).symm ▸ hd⟩

end Sweeping

/-- A sweep that runs alone unmarks every policy that it marked and that has nothing left which is
due, exactly when every connection it takes up is closed, or each of the policies that it marks has
one which is not. -/
theorem sweep_alone_iff (secret : Bytes) (before : List (AuthorityAction κ)) (s : Authority κ)
    (hreach : Transition.run step (initial secret) before = some s) (now : ℤ)
    (register : Option (Registration κ)) (outcome : ℕ → Bool) (acts : List (AuthorityAction κ))
    (hacts : ∀ a ∈ acts, ∃ x, a = .loop s.next x)
    (hanswers : Along step (Answers s.next outcome) (s.beginSweep now register) acts)
    (s' : Authority κ)
    (hrun : Transition.run step (s.beginSweep now register) (acts ++ [.finish s.next]) = some s') :
    Unmarked s now s' ↔
      (∀ entry conn, (entry, conn) ∈ s.entries → s.isDue now conn = true →
        Closes outcome entry conn) ∨
      ∀ entry conn, (entry, conn) ∈ s.entries → isExpired now conn = true →
        ∃ e c, (e, c) ∈ s.entries ∧ s.isDue now c = true ∧ c.policyKey = conn.policyKey ∧
          ¬Closes outcome e c := by
  have hinv : s.Inv := run_invariant (fun _ _ _ h hs => h.step hs) (inv_initial secret) hreach
  obtain ⟨t, ht, hlast⟩ := run_append.mp hrun
  obtain ⟨loop₀, h₀⟩ := sweeping_beginSweep hinv now register outcome
  obtain ⟨finished, loop, h⟩ := h₀.run hacts hanswers ht
  obtain ⟨s₁, hfinish, hs₁⟩ := run_cons.mp hlast
  obtain rfl : s₁ = s' := Option.some.inj hs₁
  simp only [Authority.step, h.call] at hfinish
  obtain ⟨current, remaining, closed, failures⟩ := loop
  cases current with
  | some p => cases hfinish
  | none =>
    cases remaining with
    | cons e es => cases hfinish
    | nil =>
      have hdue := h.due_iff hinv rfl
      have hfailures : failures = 0 ↔ ∀ entry conn, (entry, conn) ∈ s.entries →
          s.isDue now conn = true → Closes outcome entry conn := by
        refine h.failures.trans ⟨fun hall entry conn hm hd => ?_, fun hall e he conn hc => ?_⟩
        · exact hall entry ((h.mem_finished_iff rfl).mpr ⟨conn, hm, hd⟩) conn
            (mem_entries_iff.mp hm).2
        · obtain ⟨conn', hm, hd⟩ := (h.mem_finished_iff rfl).mp he
          obtain rfl : conn' = conn := Option.some.inj ((mem_entries_iff.mp hm).2.symm.trans hc)
          exact hall e conn' hm hd
      rw [← hfailures]
      have hmarked : ∀ entry conn, (entry, conn) ∈ s.entries → isExpired now conn = true →
          conn.policyKey ∈ (s.beginSweep now register).revokingPolicyKeys := by
        intro entry conn hm he
        refine Finset.mem_union_right _ (List.mem_toFinset.mpr (List.mem_map.mpr ⟨(entry, conn), ?_, rfl⟩))
        exact List.mem_filter.mpr ⟨hm, he⟩
      unfold Authority.finish at hfinish
      by_cases hfailed : failures = 0
      · refine iff_of_true (fun entry conn hm he hnone hmark => ?_) (Or.inl hfailed)
        have hunmark : s₁.revokingPolicyKeys = (t.unmarkSwept now
            (s.beginSweep now register).revokingPolicyKeys).revokingPolicyKeys ∧
            s₁.due now conn.policyKey = t.due now conn.policyKey := by
          subst hfailed
          cases register <;> cases hfinish <;> exact ⟨rfl, rfl⟩
        rw [hunmark.1] at hmark
        rw [hunmark.2] at hnone
        refine (Finset.mem_filter.mp hmark).2 ⟨hmarked entry conn hm he, ?_⟩
        unfold due isDue at hnone
        rw [hnone]
        rfl
      · have hs₁ : s₁ = t.endCall s.next := by
          dsimp only at hfinish
          rw [if_pos (by omega)] at hfinish
          exact (Option.some.inj hfinish).symm
        subst hs₁
        simp only [hfailed, false_or]
        constructor
        · intro hunmarked entry conn hm he
          refine (hdue conn.policyKey).mp ?_
          by_contra hnone
          refine hunmarked entry conn hm he ?_ ?_
          · change t.due now conn.policyKey = false
            simpa using hnone
          · change conn.policyKey ∈ t.revokingPolicyKeys
            rw [h.marks]
            exact hmarked entry conn hm he
        · intro hleft entry conn hm he hnone
          have hsome := (hdue conn.policyKey).mpr (hleft entry conn hm he)
          change t.due now conn.policyKey = false at hnone
          rw [hsome] at hnone
          cases hnone

/-! ## A sweep over two scopes -/

/-- `offlinePolicy` for another ticket. -/
def otherPolicy : SandboxPolicy :=
  { offlinePolicy with ticketId := "T-2", valid := by decide }

/-- The key of `otherPolicy`. -/
def otherKey : PolicyKey :=
  ("run", "T-2", "build", otherPolicy.policyHash)

/-- A lease over `otherPolicy`, signed with an empty key. -/
def otherLease : IssuedNetworkLease :=
  let lease : NetworkLease :=
    ⟨{ offlineFields 1 with ticketId := "T-2", policyHash := otherPolicy.policyHash },
      validate_offlineFields (by decide) (by decide) (isHexText_sha256 _)⟩
  ⟨lease, hmacSha256 [] lease.canonicalPayload, isHexText_hmacSha256 _ _⟩

/-- A connection is registered for each of the two policies. -/
def twoScopes : List (AuthorityAction Unit) :=
  [.register (offlineRegistration 5), .finish 0, .registerConnection 0 none "c",
    .register { offlineRegistration 5 with issued := otherLease, policy := otherPolicy }, .finish 2,
    .registerConnection 2 none "d"]

/-- Both have expired and the first is closed; the callback of the second returns `second`. -/
def twoScopesSweep (second : Bool) : List (AuthorityAction Unit) :=
  [.loop 4 .next, .loop 4 .invoke, .loop 4 (.returned true), .loop 4 .next, .loop 4 .invoke,
    .loop 4 (.returned second)]

theorem twoScopesSweep_loops (second : Bool) :
    ∀ a ∈ twoScopesSweep second, ∃ x, a = .loop 4 x := by
  simp [twoScopesSweep]

theorem along_of_forall {ok : Authority κ → AuthorityAction κ → Prop}
    {acts : List (AuthorityAction κ)} (h : ∀ a ∈ acts, ∀ s, ok s a) :
    ∀ s, Along step ok s acts := by
  induction acts with
  | nil => exact fun _ => trivial
  | cons a acts ih =>
    intro s s' _
    exact ⟨h a List.mem_cons_self s, ih (fun b hb => h b (List.mem_cons_of_mem _ hb)) s'⟩

theorem keyOfPolicy_otherPolicy : NetworkLease.keyOfPolicy otherPolicy = .ok otherKey := by
  rw [NetworkLease.keyOfPolicy, otherPolicy.valid]
  rfl

/-- A sweep over two connections whose leases have expired, the first of which is closed. -/
theorem marks_of_twoScopes {first second : Registration Unit} {key key' : PolicyKey} (closed : Bool)
    (hne : key ≠ key') (hnow : (0 ≤ first.now ∧ 0 ≤ second.now) ∧ second.now < 1000)
    (hpending : first.pending = false ∧ second.pending = false)
    (hlease : (first.issued.lease.expiresAtMonotonicNs = 1000 ∧
      first.issued.lease.generation = 1) ∧ second.issued.lease.expiresAtMonotonicNs = 1000)
    (hfirst : ∀ s : Authority Unit, s.key = [] → key ∉ s.revokingPolicyKeys →
      s.generation key = 1 → s.registerCheck first none = .ok key)
    (hsecond : ∀ s : Authority Unit, s.key = [] → key' ∉ s.revokingPolicyKeys →
      s.generation key' = 1 → s.registerCheck second none = .ok key') :
    ∃ (s s' : Authority Unit) (c c' : Connection Unit), Transition.run step (initial [])
      [.register first, .finish 0, .registerConnection 0 none "c", .register second, .finish 2,
        .registerConnection 2 none "d"] = some s ∧
      Transition.run step (s.beginSweep 1000 none) (twoScopesSweep closed ++ [.finish 4]) =
        some s' ∧
      s.next = 4 ∧ s.entries = [(1, c), (3, c')] ∧ (c.closing = false ∧ c'.closing = false) ∧
      (closed = false → isExpired 1000 c = true ∧ s'.due 1000 c.policyKey = false ∧
        c.policyKey ∈ s'.revokingPolicyKeys) := by
  have hdiffer : lit "c" ≠ lit "d" := by decide
  simp only [Transition.run, step]
  simp [hpending, hnow.1.1.not_gt, hnow.1.2.not_gt, initial, entries, beginSweep, beginCall,
    finish, unmarkSwept, setCall, emit, endCall]
  rw [hfirst _ rfl (by simp) rfl]
  simp [isExpired, isStale, generation, Dict.set, Dict.get?, hlease, hnow.2.not_ge, hpending,
    hdiffer]
  rw [hsecond _ rfl (by simp) (by simp [generation, Dict.get?])]
  cases closed <;>
    simp [twoScopesSweep, Transition.run, step, entries, hlease, Call.closeLoop, loopStep,
      setConnection, isActive, setCall, Call.setLoop, finish, endCall, discard, forget,
      unmarkSwept, due, isDue, hdiffer.symm, Dict.erase, Dict.get?, hne, hne.symm, isExpired,
      isStale]

/-- The sample run, with the policy of the first connection after the sweep. -/
theorem run_twoScopes (closed : Bool) :
    ∃ (s s' : Authority Unit) (c c' : Connection Unit),
      Transition.run step (initial []) twoScopes = some s ∧
      Transition.run step (s.beginSweep 1000 none) (twoScopesSweep closed ++ [.finish 4]) =
        some s' ∧
      s.next = 4 ∧ s.entries = [(1, c), (3, c')] ∧ (c.closing = false ∧ c'.closing = false) ∧
      (closed = false → isExpired 1000 c = true ∧ s'.due 1000 c.policyKey = false ∧
        c.policyKey ∈ s'.revokingPolicyKeys) := by
  have hfirst : ∀ s : Authority Unit, s.key = [] → offlineKey ∉ s.revokingPolicyKeys →
      s.generation offlineKey = 1 →
      s.registerCheck (offlineRegistration 5) none = .ok offlineKey :=
    fun _ hkey hmark hgeneration =>
      registerCheck_offlineLease hkey hmark hgeneration (by decide)
  have hsecond : ∀ s : Authority Unit, s.key = [] → otherKey ∉ s.revokingPolicyKeys →
      s.generation otherKey = 1 → s.registerCheck { offlineRegistration 5 with
        issued := otherLease, policy := otherPolicy } none = .ok otherKey := by
    intro s hkey hmark hgeneration
    have hfields : otherLease.lease.toLeaseFields = { offlineFields 1 with
      ticketId := otherPolicy.ticketId, policyHash := otherPolicy.policyHash } := rfl
    simp only [registerCheck, keyOfPolicy_otherPolicy, registrationTime, bind, Except.bind]
    exact verifyRequest_of_offlineFields keyOfPolicy_otherPolicy ⟨rfl, rfl⟩ hfields
      (by rw [otherLease]) hkey hmark hgeneration (by decide)
  have hne : offlineKey ≠ otherKey := fun h =>
    absurd (congrArg (fun key => key.2.1) h) (by decide)
  exact marks_of_twoScopes closed hne ⟨by decide, by decide⟩ ⟨rfl, rfl⟩ ⟨⟨rfl, rfl⟩, rfl⟩ hfirst
    hsecond

theorem sweep_alone_iff_twoScopes : ∃ s s' : Authority Unit,
    Transition.run step (initial []) twoScopes = some s ∧
    Transition.run step (s.beginSweep 1000 none) (twoScopesSweep true ++ [.finish 4]) = some s' ∧
      Unmarked s 1000 s' := by
  obtain ⟨s, s', c, c', hs, hs', hnext, hentries, hfree, -⟩ := run_twoScopes true
  refine ⟨s, s', hs, hs', (sweep_alone_iff [] twoScopes s hs 1000 none (fun _ => true)
    (twoScopesSweep true) (hnext ▸ twoScopesSweep_loops true) ?_ s' (hnext ▸ hs')).mpr (Or.inl ?_)⟩
  · refine along_of_forall (fun a ha t => ?_) _
    rintro confirmed entry rfl -
    have hconfirmed : s.next = 4 ∧ confirmed = true := by simpa [twoScopesSweep] using ha
    exact hconfirmed.2
  · intro entry conn hm _
    rw [hentries] at hm
    refine ⟨?_, rfl⟩
    rcases List.mem_pair.mp hm with h | h
    · rw [(Prod.mk.inj h).2, hfree.1]
    · rw [(Prod.mk.inj h).2, hfree.2]

/-- The policy of the connection that has been closed stays marked. -/
theorem twoScopesSweep_not_unmarked : ∃ s s' : Authority Unit,
    Transition.run step (initial []) twoScopes = some s ∧
    Transition.run step (s.beginSweep 1000 none) (twoScopesSweep false ++ [.finish 4]) = some s' ∧
      ¬Unmarked s 1000 s' := by
  obtain ⟨s, s', c, c', hs, hs', -, hentries, -, hmarked⟩ := run_twoScopes false
  obtain ⟨hexpired, hnone, hmark⟩ := hmarked rfl
  exact ⟨s, s', hs, hs', fun h => h 1 c (by simp [hentries]) hexpired hnone hmark⟩

end Authority

end Icode
