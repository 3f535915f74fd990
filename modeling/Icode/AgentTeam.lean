import Icode.AgentConclusion
import Icode.PolicyWire

/-!
# Teams of agents

An `AgentTeam` gives out agents of a ticket (`spawn`), each with the boundary of its context, and
runs the work of an agent (`run`): the checks of the handle, the write lease of the region, the work
itself, and one conclusion in the ledger. How the work ends is a parameter (`WorkEnd`), and so is
what the lock of the lease does (`LockEnd`).

A run changes the ledger and nothing else, and gives its lease back on every way out (`run_eq`). It
ends in a recorded conclusion unless the lock file fails or an exception that is no
`ConclusionError` comes out of the encoder or of the mapping that the work has returned
(`recorded_iff`): a lone surrogate in the step or in the evidence, or an integer that has no text.
-/

namespace Icode

open Py SandboxPolicy

namespace AgentTeam

/-! ## Contexts -/

/-- `Scope` of the guard. -/
structure Scope where
  workspaceRoot : Path
  readableRoots : List Path
  allowedReadRoots : Option (List Path)
  allowedReadFiles : Option (List Path)
  allowedWriteRoots : Option (List Path)
  denyReadRoots : List Path
  denyWriteRoots : List Path
  commandAllowlist : List PyStr

/-- `sorted(texts)` -/
def sortedTexts (texts : List PyStr) : Json :=
  .arr ((texts.insertionSort fun a b => strLe a b = true).map .str)

/-- `_roots` of `scope_fingerprint`. -/
def rootTexts : Option (List Path) → Json
  | none => .null
  | some roots => sortedTexts (roots.map Path.str)

/-- `scope_fingerprint` -/
def scopeFingerprint (scope : Scope) : Except TeamError PyStr :=
  digestSorted
    [("workspace_root", .str scope.workspaceRoot.str),
      ("readable_roots", rootTexts (some scope.readableRoots)),
      ("allowed_read_roots", rootTexts scope.allowedReadRoots),
      ("allowed_read_files", rootTexts scope.allowedReadFiles),
      ("allowed_write_roots", rootTexts scope.allowedWriteRoots),
      ("deny_read_roots", rootTexts (some scope.denyReadRoots)),
      ("deny_write_roots", rootTexts (some scope.denyWriteRoots)),
      ("command_allowlist", sortedTexts scope.commandAllowlist)]

/-- `tuple(Path(p).resolve() for p in paths)` -/
def resolveAll (fs : FileSystem) (paths : List Path) : Except TeamError (List Path) :=
  mapAll (fun path => orRaise (fs.resolve path.str) .resolve) paths

/-- `f(value) if value is not None else None` -/
def unlessNone {α : Type} (f : α → Except TeamError α) : Option α → Except TeamError (Option α)
  | none => .ok none
  | some value => (f value).map some

/-- `replace(scope, allowed_write_roots=())`: the constructor resolves the paths again. -/
def readOnlyScope (fs : FileSystem) (scope : Scope) : Except TeamError Scope := do
  let workspaceRoot ← orRaise (fs.resolve scope.workspaceRoot.str) .resolve
  let readableRoots ← resolveAll fs scope.readableRoots
  let allowedReadRoots ← unlessNone (resolveAll fs) scope.allowedReadRoots
  let allowedReadFiles ← unlessNone (resolveAll fs) scope.allowedReadFiles
  let denyReadRoots ← resolveAll fs scope.denyReadRoots
  let denyWriteRoots ← resolveAll fs scope.denyWriteRoots
  pure { scope with
    workspaceRoot, readableRoots, allowedReadRoots, allowedReadFiles,
    allowedWriteRoots := some [], denyReadRoots, denyWriteRoots }

/-- `derive_agent_guard_scope` -/
def deriveAgentGuardScope (fs : FileSystem) (base : Scope) (role : Role) : Except TeamError Scope :=
  if role.mayWrite then .ok base else readOnlyScope fs base

/-- `derive_agent_policy` -/
def deriveAgentPolicy (fs : FileSystem) (base : SandboxPolicy) (role : Role) :
    Except TeamError SandboxPolicy :=
  if role.mayWrite then .ok base
  else (do
    let candidate ← SandboxPolicy.make fs (reviewerArguments base [])
    tightenPolicy base candidate).mapError .policy

/-- `converge_policy_to_region` -/
def convergePolicyToRegion (fs : FileSystem) (base : SandboxPolicy) (region : RegionArg) :
    Except TeamError SandboxPolicy := do
  let parts ← (normalizeRegion region).mapError .lease
  let regionPath := base.workspaceRoot ++ parts
  let narrowed := (base.writeRoots.filter fun root => isWithin regionPath root).map
    fun _ => Path.str regionPath
  require (!narrowed.isEmpty) (.role .regionOutsideWriteScope)
  (do
    let candidate ← SandboxPolicy.make fs { argumentsOf base with writeRoots := narrowed }
    tightenPolicy base candidate).mapError .policy

/-- `AgentHandle`. -/
structure AgentHandle where
  identity : AgentIdentity
  policy : Option SandboxPolicy
  scope : Option Scope
  contextDigest : PyStr

/-! ## Work -/

/-- What `work` returns: a value, or a `Mapping` of its own class, whose methods may raise. `empty`
is `not produced`, and `items` the items of `dict(produced)`. -/
inductive Produced where
  | value (v : PyValue)
  | custom (empty : Except TeamError Bool) (items : Except TeamError PyItems)

/-- How `work` ends: it raises an `Exception`, or returns. -/
inductive WorkEnd where
  | raised
  | returned (produced : Produced)

/-- What `_acquire_file_lock` and the calls around it do. -/
inductive LockEnd where
  | granted
  /-- Another process has the lock. -/
  | busy
  /-- A `LeaseError` that is no `LeaseBusy`. -/
  | failed
  deriving DecidableEq

/-- `isinstance(produced, Mapping)`, with what `not produced` and `dict(produced)` do. -/
def Produced.mapping? : Produced → Option (Except TeamError Bool × Except TeamError PyItems)
  | .value (.dict items) => some (.ok items.isEmpty, .ok items)
  | .value (.mapping items) => some (.ok items.isEmpty, .ok items)
  | .custom empty items => some (empty, items)
  | .value _ => none

/-- `produced is None` -/
def Produced.isNone : Produced → Bool
  | .value .none => true
  | _ => false

/-- `items[key] = value` of a text key. -/
def setItem (key : PyStr) (value : PyValue) : PyItems → PyItems
  | [] => [(.str key, value)]
  | (.str k, v) :: items =>
    if k = key then (.str k, value) :: items else (.str k, v) :: setItem key value items
  | item :: items => item :: setItem key value items

/-- The evidence of `work`, with the identity and the boundary that the team knows. -/
def mergedEvidence (handle : AgentHandle) (items : PyItems) : PyItems :=
  setItem (lit "context_digest") (.str handle.contextDigest)
    (setItem (lit "agent_id") (.str handle.identity.agentId) items)

theorem setItem_ne_nil (key : PyStr) (value : PyValue) (items : PyItems) :
    setItem key value items ≠ [] := by
  cases items with
  | nil => exact List.cons_ne_nil _ _
  | cons item items =>
    obtain ⟨k, v⟩ := item
    cases k with
    | str k =>
      rw [setItem]
      split_ifs <;> exact List.cons_ne_nil _ _
    | _ => exact List.cons_ne_nil _ _

end AgentTeam

open AgentTeam

/-! ## The team -/

/-- `AgentTeam`, with the leases that its board holds. -/
structure AgentTeam where
  ticketId : PyStr
  policy : Option SandboxPolicy
  scope : Option AgentTeam.Scope
  /-- A lease directory is configured. -/
  leases : Bool
  registry : RoleRegistry
  limit : ℕ
  ledger : List AgentConclusion
  held : Dict Region PyStr

namespace AgentTeam

/-- The lease directory may not stand in the workspace. -/
def checkLeaseDir (fs : FileSystem) (leaseDir : PyStr) (policy : Option SandboxPolicy)
    (scope : Option Scope) : Except TeamError Unit :=
  match (policy.map fun p => p.workspaceRoot).or (scope.map Scope.workspaceRoot) with
  | none => .ok ()
  | some root => do
    let leasePath ← orRaise (fs.resolve leaseDir) .resolve
    let rootPath ← orRaise (fs.resolve root.str) .resolve
    require (!isWithin leasePath rootPath) .invalidLeaseDir

/-- `AgentTeam(…)` -/
def make (fs : FileSystem) (ticketId : PyStr) (leaseDir : Option PyStr)
    (policy : Option SandboxPolicy) (scope : Option Scope) (ledgerLimit : ℤ) :
    Except TeamError AgentTeam := do
  require (isValidTicketId ticketId) (.role .invalidTicket)
  require (1 ≤ ledgerLimit && ledgerLimit ≤ 4096) (.conclusion .invalidLimit)
  match leaseDir with
  | none => pure ()
  | some dir => checkLeaseDir fs dir policy scope
  pure ⟨ticketId, policy, scope, leaseDir.isSome, RoleRegistry.empty, ledgerLimit.toNat, [], []⟩

/-- The boundary of a context. -/
def contextDigestOf : Option SandboxPolicy → Option Scope → Except TeamError PyStr
  | some policy, some scope => do
    let fingerprint ← scopeFingerprint scope
    pure (sha256 (encodePass (policy.policyHash ++ fingerprint)))
  | some policy, none => .ok policy.policyHash
  | none, some scope => scopeFingerprint scope
  | none, none => .error (.role .contextBoundaryMissing)

/-- The context of a new agent. -/
def deriveHandle (fs : FileSystem) (team : AgentTeam) (identity : AgentIdentity) :
    Except TeamError AgentHandle := do
  let policy ← unlessNone (deriveAgentPolicy fs · identity.role) team.policy
  let scope ← unlessNone (deriveAgentGuardScope fs · identity.role) team.scope
  let contextDigest ← contextDigestOf policy scope
  pure ⟨identity, policy, scope, contextDigest⟩

/-- `spawn` -/
def spawn (fs : FileSystem) (team : AgentTeam) (roleName : Option PyStr) :
    Except TeamError AgentHandle × AgentTeam :=
  match team.registry.spawn roleName team.ticketId with
  | (.error e, registry) => (.error (.role e), { team with registry })
  | (.ok identity, registry) => (deriveHandle fs team identity, { team with registry })

/-! ## A run -/

/-- `_validate_step`; `none` is no text. -/
def validateStep : Option PyStr → Except TeamError PyStr
  | none => .error (.role .invalidStep)
  | some step =>
    if (strip step).isEmpty || 64 < step.length then .error (.role .invalidStep)
    else .ok (strip step)

/-- The fields of the conclusion that `_record` makes. -/
def conclusionFields (handle : AgentHandle) (step : PyStr) (outcome : Outcome) (detail : PyStr) :
    ConclusionFields where
  agentId := handle.identity.agentId
  role := handle.identity.role
  ticketId := handle.identity.ticketId
  step := step
  kind := handle.identity.role.conclusionsKind
  contextDigest := handle.contextDigest
  outcome := outcome
  detail := detail

/-- `_record` -/
def record (team : AgentTeam) (handle : AgentHandle) (step : PyStr) (outcome : Outcome)
    (evidence : PyItems) (detail : PyStr) : Except TeamError AgentConclusion × AgentTeam :=
  match (conclusionFields handle step outcome detail).make evidence with
  | .error e => (.error e, team)
  | .ok c =>
    match recordConclusion team.limit team.ledger c with
    | .error e => (.error (.conclusion e), team)
    | .ok ledger => (.ok c, { team with ledger })

/-- What `run` makes of the value that `work` has returned. -/
def judge (team : AgentTeam) (handle : AgentHandle) (step : PyStr) (produced : Produced) :
    Except TeamError AgentConclusion × AgentTeam :=
  match produced.mapping? with
  | none =>
    if produced.isNone then team.record handle step .refused [] (lit "evidence_missing")
    else team.record handle step .failed [] (lit "evidence_invalid")
  | some (.error e, _) => (.error e, team)
  | some (.ok true, _) => team.record handle step .refused [] (lit "evidence_missing")
  | some (.ok false, .error e) => (.error e, team)
  | some (.ok false, .ok items) =>
    team.record handle step .completed (mergedEvidence handle items) []

/-- The handler of `ConclusionError`. -/
def catchConclusion (handle : AgentHandle) (step : PyStr) :
    Except TeamError AgentConclusion × AgentTeam → Except TeamError AgentConclusion × AgentTeam
  | (.error (.conclusion _), team) =>
    team.record handle step .failed [] (lit "evidence_invalid")
  | result => result

/-- The part of `run` from the check of the boundary on. -/
def conclude (team : AgentTeam) (handle : AgentHandle) (step : PyStr)
    (work : AgentHandle → WorkEnd) : Except TeamError AgentConclusion × AgentTeam :=
  if handle.contextDigest.isEmpty then
    team.record handle step .refused [] (lit "context_boundary_missing")
  else
    match work handle with
    | .raised => team.record handle step .failed [] (lit "agent_work_failed")
    | .returned produced => catchConclusion handle step (team.judge handle step produced)

/-- The handle that runs with a write region: its policy is narrowed to the region. -/
def regionHandle (fs : FileSystem) (team : AgentTeam) (handle : AgentHandle)
    (identity : AgentIdentity) (region : RegionArg) : Except TeamError AgentHandle := do
  (team.registry.assertMayWrite identity).mapError .role
  require team.leases .leaseUnavailable
  match handle.policy with
  | none => pure handle
  | some policy => do
    let narrowed ← convergePolicyToRegion fs policy region
    pure ⟨identity, some narrowed, handle.scope, narrowed.policyHash⟩

/-- `WriteLeaseBoard.acquire`: the region and the holder that enter the table. -/
def acquire (team : AgentTeam) (region : RegionArg) (holder : PyStr) (lock : LockEnd) :
    Except TeamError (Region × PyStr) := do
  let (parts, holder) ← (acquireCheck team.held region (some holder)).mapError .lease
  match lock with
  | .granted => pure (parts, holder)
  | .busy => throw (.lease (.busy parts (lit "unknown-cross-process")))
  | .failed => throw .lockFailed

/-- The lease enters the table. -/
def hold (team : AgentTeam) (parts : Region) (holder : PyStr) : AgentTeam :=
  { team with held := team.held.set parts holder }

/-- `release`: the lease leaves the table. -/
def release (team : AgentTeam) (parts : Region) (holder : PyStr) : AgentTeam :=
  if team.held.get? parts = some holder then { team with held := team.held.erase parts } else team

/-- The checks of `run` before its `try`. -/
def enter (team : AgentTeam) (handle : AgentHandle) (step : Option PyStr) :
    Except TeamError (AgentIdentity × PyStr) := do
  let identity ← (team.registry.require handle.identity.agentId).mapError .role
  let stepName ← validateStep step
  (team.registry.assertConclusionKind identity identity.role.conclusionsKind).mapError .role
  pure (identity, stepName)

/-- `run`: what it returns or raises, and the team it leaves. -/
def run (fs : FileSystem) (team : AgentTeam) (handle : AgentHandle) (work : AgentHandle → WorkEnd)
    (lock : LockEnd) (step : Option PyStr) (writeRegion : Option RegionArg) :
    Except TeamError AgentConclusion × AgentTeam :=
  match team.enter handle step with
  | .error e => (.error e, team)
  | .ok (identity, stepName) =>
    match writeRegion with
    | none =>
      if identity.mayWrite then (.error (.role .writeRegionRequired), team)
      else team.conclude handle stepName work
    | some region =>
      match team.regionHandle fs handle identity region with
      | .error e => (.error e, team)
      | .ok runHandle =>
        match team.acquire region identity.agentId lock with
        | .error (.lease (.busy _ _)) =>
          team.record runHandle stepName .refused [] (lit "lease_busy")
        | .error e => (.error e, team)
        | .ok (parts, holder) =>
          let (result, after) := (team.hold parts holder).conclude runHandle stepName work
          (result, after.release parts holder)

/-! ## What a run changes -/

section

variable (team : AgentTeam) (handle : AgentHandle) (step : PyStr)

theorem record_eq (outcome : Outcome) (evidence : PyItems) (detail : PyStr) :
    ∃ ledger, (team.record handle step outcome evidence detail).2 = { team with ledger } := by
  unfold record
  split
  · exact ⟨team.ledger, rfl⟩
  · split
    · exact ⟨team.ledger, rfl⟩
    · exact ⟨_, rfl⟩

theorem judge_eq (produced : Produced) :
    ∃ ledger, (team.judge handle step produced).2 = { team with ledger } := by
  unfold judge
  split
  · split_ifs <;> exact record_eq team handle step _ _ _
  · exact ⟨team.ledger, rfl⟩
  · exact record_eq team handle step _ _ _
  · exact ⟨team.ledger, rfl⟩
  · exact record_eq team handle step _ _ _

theorem conclude_eq (work : AgentHandle → WorkEnd) :
    ∃ ledger, (team.conclude handle step work).2 = { team with ledger } := by
  unfold conclude
  split_ifs
  · exact record_eq team handle step _ _ _
  · split
    · exact record_eq team handle step _ _ _
    · rename_i produced _
      obtain ⟨ledger, hjudge⟩ := judge_eq team handle step produced
      unfold catchConclusion
      split
      · rename_i after hresult
        rw [hresult] at hjudge
        obtain rfl : after = { team with ledger } := hjudge
        obtain ⟨ledger', hrecord⟩ := record_eq { team with ledger } handle step .failed []
          (lit "evidence_invalid")
        exact ⟨ledger', hrecord⟩
      · exact ⟨ledger, hjudge⟩

end

variable {team : AgentTeam} {handle : AgentHandle} {step : PyStr}

/-- A region that overlaps nothing in the table leaves it as it was. -/
theorem release_hold {parts : Region} {holder : PyStr} {ledger : List AgentConclusion}
    (h : parts ∉ team.held.keys) :
    ({ team.hold parts holder with ledger } : AgentTeam).release parts holder =
      { team with ledger } := by
  have hset : team.held.set parts holder = team.held ++ [(parts, holder)] :=
    Dict.set_of_notMem holder h
  have hget : (team.held.set parts holder).get? parts = some holder := by
    rw [Dict.get?_set, if_pos rfl]
  have herase : (team.held.set parts holder).erase parts = team.held := by
    rw [hset, Dict.erase, List.filter_append]
    have hself : team.held.erase parts = team.held := Dict.erase_eq_self h
    rw [Dict.erase] at hself
    rw [hself]
    simp
  simp only [release, hold, hget, if_true, herase]

theorem notMem_of_acquire {region : RegionArg} {holder owner : PyStr} {lock : LockEnd}
    {parts : Region} (h : team.acquire region holder lock = .ok (parts, owner)) :
    parts ∉ team.held.keys := by
  simp only [acquire, bind_eq_ok] at h
  obtain ⟨⟨parts', owner'⟩, hcheck, h⟩ := h
  cases hheld : acquireCheck team.held region (some holder) with
  | error e =>
    rw [hheld] at hcheck
    cases hcheck
  | ok checked =>
    rw [hheld] at hcheck
    obtain rfl := Except.ok.inj hcheck
    cases lock with
    | granted =>
      obtain ⟨rfl, -⟩ := Prod.mk.inj (Except.ok.inj h)
      exact fun hmem => Boards.acquireCheck_clear hheld _ hmem (.inl (List.prefix_refl _))
    | busy => cases h
    | failed => cases h

/-- A run changes the ledger, and no lease is left. -/
theorem run_eq (fs : FileSystem) (team : AgentTeam) (handle : AgentHandle)
    (work : AgentHandle → WorkEnd) (lock : LockEnd) (step : Option PyStr)
    (writeRegion : Option RegionArg) :
    ∃ ledger, (run fs team handle work lock step writeRegion).2 = { team with ledger } := by
  unfold run
  split
  · exact ⟨team.ledger, rfl⟩
  · split
    · split_ifs
      · exact ⟨team.ledger, rfl⟩
      · exact conclude_eq team handle _ work
    · split
      · exact ⟨team.ledger, rfl⟩
      · rename_i runHandle _
        split
        · exact record_eq team runHandle _ _ _ _
        · exact ⟨team.ledger, rfl⟩
        · rename_i parts holder hacquire
          obtain ⟨ledger, hconclude⟩ := conclude_eq (team.hold parts holder) runHandle _ work
          refine ⟨ledger, ?_⟩
          dsimp only
          rw [hconclude, release_hold (notMem_of_acquire hacquire)]

/-! ## Teams and the handles they have given out -/

/-- A handle that may be run: its boundary is a digest, and the step is a step of a conclusion. -/
structure Ready (handle : AgentHandle) (step : PyStr) : Prop where
  digest : isHexText 64 handle.contextDigest = true
  step_ne : step ≠ []
  step_le : step.length ≤ 64

/-- A team, with the handles that it has given out. Between two calls, other runs may have changed
the ledger and the leases. -/
inductive Reachable (fs : FileSystem) : AgentTeam → List AgentHandle → Prop
  | make {ticketId leaseDir policy scope limit team}
      (h : AgentTeam.make fs ticketId leaseDir policy scope limit = .ok team) : Reachable fs team []
  | spawn {team handles} (h : Reachable fs team handles) {roleName handle after}
      (hspawn : spawn fs team roleName = (.ok handle, after)) :
      Reachable fs after (handle :: handles)
  | refuse {team handles} (h : Reachable fs team handles) {roleName e after}
      (hspawn : AgentTeam.spawn fs team roleName = (.error e, after)) : Reachable fs after handles
  | others {team handles} (h : Reachable fs team handles) (ledger : List AgentConclusion)
      (held : Dict Region PyStr) : Reachable fs { team with ledger, held } handles

theorem isHexText_policyHash (policy : SandboxPolicy) : isHexText 64 policy.policyHash = true :=
  isHexText_sha256 _

theorem isHexText_contextDigestOf {policy : Option SandboxPolicy} {scope : Option Scope}
    {digest : PyStr} (h : contextDigestOf policy scope = .ok digest) :
    isHexText 64 digest = true := by
  cases policy with
  | none =>
    cases scope with
    | none => cases h
    | some scope => exact isHexText_of_digestSorted h
  | some policy =>
    cases scope with
    | none =>
      rw [← Except.ok.inj h]
      exact isHexText_policyHash policy
    | some scope =>
      obtain ⟨fingerprint, -, hdigest⟩ := bind_eq_ok.mp h
      rw [← Except.ok.inj hdigest]
      exact isHexText_sha256 _

theorem deriveHandle_eq_ok {fs : FileSystem} {identity : AgentIdentity}
    (h : deriveHandle fs team identity = .ok handle) :
    handle.identity = identity ∧ isHexText 64 handle.contextDigest = true := by
  simp only [deriveHandle, bind_eq_ok] at h
  obtain ⟨policy, -, scope, -, digest, hdigest, h⟩ := h
  rw [← Except.ok.inj h]
  exact ⟨rfl, isHexText_contextDigestOf hdigest⟩

/-- The team knows the handles that it has given out. -/
theorem Reachable.known {fs : FileSystem} {handles : List AgentHandle}
    (h : Reachable fs team handles) : ∀ handle ∈ handles,
      team.registry.Known handle.identity ∧ isHexText 64 handle.contextDigest = true := by
  induction h with
  | make => simp
  | @spawn team handles h roleName handle after hspawn ih =>
    unfold AgentTeam.spawn at hspawn
    split at hspawn
    · cases hspawn
    · rename_i identity registry hregistry
      obtain ⟨hhandle, rfl⟩ := Prod.mk.inj hspawn
      obtain ⟨hidentity, hdigest⟩ := deriveHandle_eq_ok hhandle
      refine List.forall_mem_cons.mpr ⟨⟨?_, hdigest⟩, fun other hother => ⟨?_, (ih other hother).2⟩⟩
      · rw [hidentity]
        exact RoleRegistry.known_spawn hregistry
      · have hknown := (ih other hother).1.spawn roleName team.ticketId
        rwa [hregistry] at hknown
  | @refuse team handles h roleName e after hspawn ih =>
    have hregistry : after.registry = (team.registry.spawn roleName team.ticketId).2 := by
      unfold AgentTeam.spawn at hspawn
      split at hspawn
      all_goals
        rename_i hr
        rw [← (Prod.mk.inj hspawn).2, hr]
    rw [hregistry]
    exact fun other hother => ⟨(ih other hother).1.spawn _ _, (ih other hother).2⟩
  | others h ledger held ih => exact ih

/-- A run is one of the things that other runs may have done. -/
theorem Reachable.run {fs : FileSystem} {handles : List AgentHandle} (h : Reachable fs team handles)
    (handle : AgentHandle) (work : AgentHandle → WorkEnd) (lock : LockEnd) (step : Option PyStr)
    (writeRegion : Option RegionArg) :
    Reachable fs (AgentTeam.run fs team handle work lock step writeRegion).2 handles := by
  obtain ⟨ledger, hledger⟩ := run_eq fs team handle work lock step writeRegion
  rw [hledger]
  exact h.others ledger team.held

/-! ## What a run records -/

/-- The conclusion is returned and stands in the ledger, which has at most one more, and the leases
are what they were. -/
def Recorded (team : AgentTeam) (result : Except TeamError AgentConclusion × AgentTeam) : Prop :=
  ∃ c, result.1 = .ok c ∧ (∃ item ∈ result.2.ledger, item.digest = c.digest) ∧
    (result.2.ledger = team.ledger ∨ result.2.ledger = team.ledger ++ [c]) ∧
    result.2.held = team.held

/-- The error is a `ConclusionError`. -/
def TeamError.isConclusion : TeamError → Bool
  | .conclusion _ => true
  | _ => false

/-- What the work returns can be judged: the methods of its mapping raise nothing but a
`ConclusionError`, and so does the encoder of the evidence. -/
def Fits (handle : AgentHandle) : WorkEnd → Prop
  | .raised => True
  | .returned produced =>
    match produced.mapping? with
    | none => True
    | some (.error e, _) => e.isConclusion = true
    | some (.ok true, _) => True
    | some (.ok false, .error e) => e.isConclusion = true
    | some (.ok false, .ok items) => Digestible (mergedEvidence handle items)

theorem valid_conclusionFields (h : Ready handle step) (outcome : Outcome) (detail : PyStr)
    (hle : detail.length ≤ 200) (hne : outcome ≠ .completed → detail ≠ [])
    (hdetail : detail.all isScalar = true) :
    (conclusionFields handle step outcome detail).Valid where
  checked := by
    have hkind := handle.identity.role.conclusionsKind_ne_nil
    have hkindLe := handle.identity.role.length_conclusionsKind_le
    have hticket := handle.identity.ticketId_ne_nil
    simp only [ConclusionFields.check, conclusionFields, handle.identity.parses, Except.mapError,
      bind_eq_ok, require_eq_ok, beq_self_eq_true, Bool.and_self, h.digest,
      List.isEmpty_eq_false_iff.mpr hkind, List.isEmpty_eq_false_iff.mpr hticket,
      List.isEmpty_eq_false_iff.mpr h.step_ne, h.step_le, hkindLe, decide_true, Bool.not_false,
      Except.ok.injEq, exists_eq_left', exists_const, and_self]
  detail_le := hle
  detail_ne := hne
  agentId := handle.identity.all_isScalar_agentId
  ticketId := handle.identity.all_isScalar_ticketId
  kind := handle.identity.role.all_isScalar_conclusionsKind
  contextDigest := isScalar_of_isHexText h.digest
  detail := hdetail

/-- A conclusion that is made is recorded in a ledger with room. -/
theorem recorded_of_make (hroom : team.ledger.length < team.limit) {outcome : Outcome}
    {evidence : PyItems} {detail : PyStr} {c : AgentConclusion}
    (hmake : (conclusionFields handle step outcome detail).make evidence = .ok c) :
    Recorded team (team.record handle step outcome evidence detail) := by
  obtain ⟨after, hafter, hmem, hledger⟩ := exists_recordConclusion hroom c
  simp only [record, hmake, hafter]
  exact ⟨c, rfl, hmem, hledger, rfl⟩

theorem record_of_error {outcome : Outcome} {evidence : PyItems} {detail : PyStr} {e : TeamError}
    (hmake : (conclusionFields handle step outcome detail).make evidence = .error e) :
    team.record handle step outcome evidence detail = (.error e, team) := by
  simp only [record, hmake]

theorem not_recorded_error {e : TeamError} {after : AgentTeam} :
    ¬Recorded team (.error e, after) := by
  rintro ⟨c, hc, -⟩
  cases hc

theorem catchConclusion_of_recorded {result : Except TeamError AgentConclusion × AgentTeam}
    (h : Recorded team result) : catchConclusion handle step result = result := by
  obtain ⟨c, hc, -⟩ := h
  obtain ⟨outcome, after⟩ := result
  cases hc
  rfl

theorem catchConclusion_of_ne {e : TeamError} (h : ∀ e', e ≠ .conclusion e') :
    catchConclusion handle step (.error e, team) = (.error e, team) := by
  cases e with
  | conclusion e => exact absurd rfl (h e)
  | _ => rfl

/-- An exception of the methods of a mapping leaves the run unless it is a `ConclusionError`. -/
theorem recorded_error_iff {e : TeamError}
    (h : Recorded team (team.record handle step .failed [] (lit "evidence_invalid")) ↔
      step.all isScalar = true) :
    Recorded team (catchConclusion handle step (.error e, team)) ↔
      step.all isScalar = true ∧ e.isConclusion = true := by
  cases e with
  | conclusion e =>
    rw [catchConclusion, h]
    exact ⟨fun hstep => ⟨hstep, rfl⟩, And.left⟩
  | _ => exact iff_of_false not_recorded_error fun hboth => Bool.false_ne_true hboth.2

section Ready

variable (h : Ready handle step) (hroom : team.ledger.length < team.limit)

include h hroom

/-- A conclusion without evidence is recorded when its step can be encoded; otherwise the encoder
raises. -/
theorem record_cases {outcome : Outcome} {detail : PyStr} (houtcome : outcome ≠ .completed)
    (hne : detail ≠ []) (hle : detail.length ≤ 200) (hdetail : detail.all isScalar = true) :
    (Recorded team (team.record handle step outcome [] detail) ∧ step.all isScalar = true) ∨
      (team.record handle step outcome [] detail = (.error .unicodeEncode, team) ∧
        ¬step.all isScalar = true) := by
  have hvalid := valid_conclusionFields h outcome detail hle (fun _ => hne) hdetail
  rcases hvalid.make_cases_of_ne houtcome [] with ⟨⟨c, hmake⟩, hstep⟩ | ⟨hmake, hstep⟩
  · exact .inl ⟨recorded_of_make hroom hmake, hstep⟩
  · exact .inr ⟨record_of_error hmake, hstep⟩

/-- The same of a failure code, also under the handler of `ConclusionError`. -/
theorem recorded_code_iff (outcome : Outcome) (code : String) (houtcome : outcome ≠ .completed)
    (hne : code ≠ "") (hle : (lit code).length ≤ 200) :
    (Recorded team (team.record handle step outcome [] (lit code)) ↔ step.all isScalar = true) ∧
      catchConclusion handle step (team.record handle step outcome [] (lit code)) =
        team.record handle step outcome [] (lit code) := by
  rcases record_cases h hroom houtcome (by simpa using hne) hle Json.isScalar_ofChars with
    ⟨hrecorded, hstep⟩ | ⟨herror, hstep⟩
  · exact ⟨iff_of_true hrecorded hstep, catchConclusion_of_recorded hrecorded⟩
  · rw [herror]
    exact ⟨iff_of_false not_recorded_error hstep, rfl⟩

theorem recorded_completed_iff {evidence : PyItems} (hne : evidence ≠ []) :
    Recorded team (catchConclusion handle step (team.record handle step .completed evidence [])) ↔
      step.all isScalar = true ∧ Digestible evidence := by
  have hvalid := valid_conclusionFields h .completed [] (by simp) (fun hc => absurd rfl hc) rfl
  have hinvalid := (recorded_code_iff h hroom .failed "evidence_invalid" (by simp) (by decide)
    (by decide)).1
  rcases hvalid.make_completed rfl hne with
    ⟨⟨c, hmake⟩, hdigestible, hstep⟩ | ⟨e, hmake, hdigestible⟩ | ⟨e, hmake, hother, hnot⟩
  · have hrecorded := recorded_of_make hroom hmake
    rw [catchConclusion_of_recorded hrecorded]
    exact iff_of_true hrecorded ⟨hstep, hdigestible⟩
  · rw [record_of_error hmake, catchConclusion, hinvalid]
    exact ⟨fun hstep => ⟨hstep, hdigestible⟩, And.left⟩
  · rw [record_of_error hmake, catchConclusion_of_ne hother]
    exact iff_of_false not_recorded_error fun hboth => hnot hboth.symm

/-- What the work returns is judged and recorded when the step can be encoded and nothing but a
`ConclusionError` is raised. -/
theorem recorded_conclude_iff (work : AgentHandle → WorkEnd) :
    Recorded team (team.conclude handle step work) ↔
      step.all isScalar = true ∧ Fits handle (work handle) := by
  have hdigest : handle.contextDigest.isEmpty = false := by
    have hlength := h.digest
    simp only [isHexText, Bool.and_eq_true, beq_iff_eq] at hlength
    rw [List.isEmpty_eq_false_iff]
    intro hnil
    rw [hnil] at hlength
    exact absurd hlength.1 (by decide)
  have hfailed := recorded_code_iff h hroom .failed "agent_work_failed" (by simp) (by decide)
    (by decide)
  have hinvalid := recorded_code_iff h hroom .failed "evidence_invalid" (by simp) (by decide)
    (by decide)
  have hmissing := recorded_code_iff h hroom .refused "evidence_missing" (by simp) (by decide)
    (by decide)
  simp only [conclude, hdigest, Bool.false_eq_true, if_false]
  cases work handle with
  | raised => simpa only [Fits, and_true] using hfailed.1
  | returned produced =>
    simp only [judge, Fits]
    rcases produced.mapping? with _ | ⟨e | missing, items⟩
    · dsimp only
      split_ifs
      · rw [hmissing.2, and_true]
        exact hmissing.1
      · rw [hinvalid.2, and_true]
        exact hinvalid.1
    · exact recorded_error_iff hinvalid.1
    · cases missing with
      | true =>
        dsimp only
        rw [hmissing.2, and_true]
        exact hmissing.1
      | false =>
        cases items with
        | error e => exact recorded_error_iff hinvalid.1
        | ok items => exact recorded_completed_iff h hroom (setItem_ne_nil _ _ _)

end Ready

/-! ## Every run -/

/-- The write region that the role may have: none, or for a role that writes a region that its
policy can be narrowed to. -/
def RegionAllowed (fs : FileSystem) (team : AgentTeam) (handle : AgentHandle) :
    Option RegionArg → Prop
  | none => handle.identity.mayWrite = false
  | some region => handle.identity.mayWrite = true ∧ team.leases = true ∧
      (∃ parts, normalizeRegion region = .ok parts) ∧
      ∀ policy ∈ handle.policy, ∃ narrowed, convergePolicyToRegion fs policy region = .ok narrowed

/-- Nothing in the run raises what is no `ConclusionError`: the step can be encoded, the lock file
does not fail, and when the work is reached, what it returns can be judged. -/
def Harmless (fs : FileSystem) (team : AgentTeam) (handle : AgentHandle)
    (work : AgentHandle → WorkEnd) (lock : LockEnd) (step : PyStr) :
    Option RegionArg → Prop
  | none => (strip step).all isScalar = true ∧ Fits handle (work handle)
  | some region =>
    (strip step).all isScalar = true ∧
      match acquireCheck team.held region (some handle.identity.agentId), lock with
      | .error _, _ => True
      | .ok _, .busy => True
      | .ok _, .failed => False
      | .ok _, .granted => ∀ runHandle,
          team.regionHandle fs handle handle.identity region = .ok runHandle →
            Fits runHandle (work runHandle)

theorem length_strip_le (s : PyStr) : (strip s).length ≤ s.length := by
  unfold strip
  rw [List.length_reverse]
  refine (List.dropWhile_suffix _).length_le.trans ?_
  rw [List.length_reverse]
  exact (List.dropWhile_suffix _).length_le

theorem acquireCheck_eq (held : Dict Region PyStr) {region : RegionArg} {parts : Region}
    (h : normalizeRegion region = .ok parts) (identity : AgentIdentity) :
    acquireCheck held region (some identity.agentId) =
      match held.find? fun item => regionsOverlap item.1 parts with
      | some (existing, owner) => .error (.busy existing owner)
      | none => .ok (parts, strip identity.agentId) := by
  have hne : (strip identity.agentId).isEmpty = false :=
    List.isEmpty_eq_false_iff.mpr identity.strip_agentId_ne_nil
  have hle : (strip identity.agentId).length ≤ 128 :=
    (length_strip_le _).trans (identity.length_agentId_le.trans (by decide))
  simp only [acquireCheck, h, Option.getD_some, hne, decide_eq_true hle, Bool.not_false, require,
    if_true, Bind.bind, Except.bind]
  rfl

/-- The table of leases lets the region pass, or is the reason why it does not. -/
theorem acquireCheck_cases (held : Dict Region PyStr) {region : RegionArg} {parts : Region}
    (h : normalizeRegion region = .ok parts) (identity : AgentIdentity) :
    (∃ r owner, acquireCheck held region (some identity.agentId) = .error (.busy r owner)) ∨
      acquireCheck held region (some identity.agentId) = .ok (parts, strip identity.agentId) := by
  rw [acquireCheck_eq held h]
  cases held.find? fun item => regionsOverlap item.1 parts with
  | none => exact .inr rfl
  | some item => exact .inl ⟨item.1, item.2, rfl⟩

theorem enter_eq_ok (hknown : team.registry.Known handle.identity) {s : PyStr}
    (hne : strip s ≠ []) (hle : s.length ≤ 64) :
    team.enter handle (some s) = .ok (handle.identity, strip s) := by
  have hstep : validateStep (some s) = .ok (strip s) := by
    rw [validateStep, List.isEmpty_eq_false_iff.mpr hne, Bool.false_or, if_neg]
    simpa using hle
  simp only [enter, RoleRegistry.require_eq_ok hknown, hstep, RoleRegistry.assertConclusionKind,
    hknown, decide_true, require, if_true, Except.mapError, Bind.bind, Except.bind, pure,
    Except.pure]

theorem regionHandle_eq_ok {fs : FileSystem} (hknown : team.registry.Known handle.identity)
    (hdigest : isHexText 64 handle.contextDigest = true) {region : RegionArg}
    (h : RegionAllowed fs team handle (some region)) :
    ∃ runHandle, team.regionHandle fs handle handle.identity region = .ok runHandle ∧
      isHexText 64 runHandle.contextDigest = true := by
  obtain ⟨hwrite, hleases, -, hpolicy⟩ := h
  have hmay : team.registry.assertMayWrite handle.identity = .ok () := by
    simp only [RoleRegistry.assertMayWrite, hknown, hwrite, decide_true, require, if_true,
      Bind.bind, Except.bind]
  cases hp : handle.policy with
  | none =>
    refine ⟨handle, ?_, hdigest⟩
    simp only [regionHandle, hmay, hleases, hp, require, if_true, Except.mapError, Bind.bind,
      Except.bind]
    rfl
  | some policy =>
    obtain ⟨narrowed, hnarrowed⟩ := hpolicy policy hp
    refine ⟨⟨handle.identity, some narrowed, handle.scope, narrowed.policyHash⟩, ?_,
      isHexText_policyHash narrowed⟩
    simp only [regionHandle, hmay, hleases, hp, hnarrowed, require, if_true, Except.mapError,
      Bind.bind, Except.bind]
    rfl

/-- Giving the lease back is no part of what is recorded. -/
theorem recorded_release {parts : Region} {holder : PyStr} (h : parts ∉ team.held.keys)
    {result : Except TeamError AgentConclusion × AgentTeam}
    (hresult : ∃ ledger, result.2 = { team.hold parts holder with ledger }) :
    Recorded team (result.1, result.2.release parts holder) ↔
      Recorded (team.hold parts holder) result := by
  obtain ⟨ledger, hledger⟩ := hresult
  obtain ⟨outcome, after⟩ := result
  obtain rfl : after = _ := hledger
  rw [Recorded, Recorded, release_hold h]
  exact exists_congr fun c => and_congr Iff.rfl (and_congr Iff.rfl (and_congr Iff.rfl
    (iff_of_true rfl rfl)))

/-- A run of a handle that the team has given out, with a valid step and a region that the role may
have, over a ledger with room, ends in one recorded conclusion exactly when nothing in it raises
what is no `ConclusionError`. -/
theorem recorded_iff {fs : FileSystem} {team : AgentTeam} {handles : List AgentHandle}
    (hreach : Reachable fs team handles) {handle : AgentHandle} (hmem : handle ∈ handles)
    {step : PyStr} (hne : strip step ≠ []) (hle : step.length ≤ 64)
    {writeRegion : Option RegionArg} (hregion : RegionAllowed fs team handle writeRegion)
    (hroom : team.ledger.length < team.limit) (work : AgentHandle → WorkEnd) (lock : LockEnd) :
    Recorded team (run fs team handle work lock (some step) writeRegion) ↔
      Harmless fs team handle work lock step writeRegion := by
  obtain ⟨hknown, hdigest⟩ := hreach.known handle hmem
  have hready : ∀ {h : AgentHandle}, isHexText 64 h.contextDigest = true → Ready h (strip step) :=
    fun hd => ⟨hd, hne, (length_strip_le step).trans hle⟩
  unfold run
  rw [enter_eq_ok hknown hne hle]
  cases writeRegion with
  | none =>
    have hwrite : handle.identity.mayWrite = false := hregion
    simp only [hwrite, Bool.false_eq_true, if_false, Harmless]
    exact recorded_conclude_iff (hready hdigest) hroom work
  | some region =>
    obtain ⟨runHandle, hhandle, hrun⟩ := regionHandle_eq_ok hknown hdigest hregion
    obtain ⟨-, -, ⟨parts, hparts⟩, -⟩ := hregion
    have hbusy := (recorded_code_iff (hready hrun) hroom .refused "lease_busy" (by simp) (by decide)
      (by decide)).1
    simp only [hhandle, Harmless, Except.ok.injEq, forall_eq']
    rcases acquireCheck_cases team.held hparts handle.identity with
      ⟨r, owner, hcheck⟩ | hcheck
    · simp only [acquire, hcheck, Except.mapError, Bind.bind, Except.bind, and_true]
      exact hbusy
    · cases lock with
      | busy =>
        simp only [acquire, hcheck, Except.mapError, Bind.bind, Except.bind, and_true]
        exact hbusy
      | failed =>
        simp only [acquire, hcheck, Except.mapError, Bind.bind, Except.bind, and_false]
        exact iff_of_false not_recorded_error id
      | granted =>
        have hacquire : team.acquire region handle.identity.agentId .granted =
            .ok (parts, strip handle.identity.agentId) := by
          simp only [acquire, hcheck, Except.mapError, Bind.bind, Except.bind]
          rfl
        simp only [hacquire, hcheck]
        rw [recorded_release (notMem_of_acquire hacquire) (conclude_eq _ _ _ _)]
        have hhold : (team.hold parts (strip handle.identity.agentId)).ledger.length <
            (team.hold parts (strip handle.identity.agentId)).limit := hroom
        exact recorded_conclude_iff (hready hrun) hhold work

/-! ## Evidence of one note -/

/-- The evidence of a note. -/
def noteEvidence (note : PyStr) : PyItems :=
  [(.str (lit "note"), .str note)]

theorem boundItems_noteEvidence (handle : AgentHandle) (note : PyStr) :
    boundItems (mergedEvidence handle (noteEvidence note)) =
      .ok [(lit "note", .str note), (lit "agent_id", .str handle.identity.agentId),
        (lit "context_digest", .str handle.contextDigest)] := by
  rfl

/-- A short note can be judged when it can be encoded. -/
theorem digestible_noteEvidence_iff (hdigest : isHexText 64 handle.contextDigest = true)
    {note : PyStr} (hnote : note.length ≤ 500) :
    Digestible (mergedEvidence handle (noteEvidence note)) ↔ note.all isScalar = true := by
  have hcanonical : (Json.obj [(lit "note", Json.str note),
      (lit "agent_id", Json.str handle.identity.agentId),
      (lit "context_digest", Json.str handle.contextDigest)]).canonical =
        .obj [(lit "agent_id", Json.str handle.identity.agentId),
          (lit "context_digest", Json.str handle.contextDigest), (lit "note", Json.str note)] := by
    rfl
  have hsize : (dumpsSorted [(lit "note", Json.str note),
      (lit "agent_id", Json.str handle.identity.agentId),
      (lit "context_digest", Json.str handle.contextDigest)]).length ≤ 4096 := by
    have hid := Json.length_quote_le handle.identity.agentId
    have hidLe := handle.identity.length_agentId_le
    have hcontext := Json.length_quote_le handle.contextDigest
    have hnoteLe := Json.length_quote_le note
    have hlength : handle.contextDigest.length = 64 := by
      simp only [isHexText, Bool.and_eq_true, beq_iff_eq] at hdigest
      exact hdigest.1
    have hopen : (lit "\x7b").length = 1 := rfl
    have hclose : (lit "\x7d").length = 1 := rfl
    have hcolon : (lit ": ").length = 2 := rfl
    have hcomma : (lit ", ").length = 2 := rfl
    have hkeys : (quote (lit "agent_id")).length = 10 ∧ (quote (lit "context_digest")).length = 16 ∧
        (quote (lit "note")).length = 6 := by decide
    rw [dumpsSorted, hcanonical]
    simp only [Json.dumpsSpaced, Json.dumpsSpacedMembers, joinComma, List.length_append]
    omega
  have hencodable : (Json.obj [(lit "note", Json.str note),
      (lit "agent_id", Json.str handle.identity.agentId),
      (lit "context_digest", Json.str handle.contextDigest)]).Encodable ↔
        note.all isScalar = true := by
    have hkeys : ∀ key : String, (lit key).all isScalar = true := fun _ => Json.isScalar_ofChars
    simp only [Json.encodable_obj, List.forall_mem_cons, List.not_mem_nil, false_implies,
      implies_true, Json.encodable_str, hkeys, handle.identity.all_isScalar_agentId,
      isScalar_of_isHexText hdigest, and_true, true_and]
  simp only [Digestible, boundItems_noteEvidence, Except.ok.injEq, forall_eq', List.forall_mem_cons,
    List.not_mem_nil, false_implies, implies_true, isLongInt, hsize, hencodable, true_and,
    true_implies]

/-! ## A reviewer of a ticket -/

/-- A file system whose every path is the root. -/
def rootFileSystem : FileSystem where
  resolve := fun _ => some []
  resolveStrict := fun _ => some []
  isDir := fun _ => true

/-- A scope with one workspace, as the defaults of the guard make it. -/
def workspaceScope : Scope where
  workspaceRoot := []
  readableRoots := []
  allowedReadRoots := none
  allowedReadFiles := none
  allowedWriteRoots := none
  denyReadRoots := []
  denyWriteRoots := []
  commandAllowlist := [lit "git"]

/-- The team over the scope, without a policy and without leases. -/
def reviewTeam : AgentTeam :=
  ⟨lit "T-1", none, some workspaceScope, false, RoleRegistry.empty, 256, [], []⟩

theorem encodable_sortedTexts {texts : List PyStr} (h : ∀ text ∈ texts, text.all isScalar = true) :
    (sortedTexts texts).Encodable := by
  rw [sortedTexts, Json.encodable_arr, List.forall_mem_map]
  exact fun text htext => h text ((List.mem_insertionSort _).mp htext)

/-- The first reviewer of the ticket. -/
def firstReviewer : AgentIdentity :=
  ⟨lit "reviewer#T-1#1", .reviewer, lit "T-1", 1, by decide, by decide, by decide⟩

/-- The team gives out a reviewer. -/
theorem exists_reviewer : ∃ handle after, Reachable rootFileSystem after [handle] ∧
    handle.identity.mayWrite = false ∧ after.ledger.length < after.limit := by
  have hmake : AgentTeam.make rootFileSystem (lit "T-1") none none (some workspaceScope) 256 =
      .ok reviewTeam := rfl
  obtain ⟨registry, hregistry⟩ : ∃ registry, reviewTeam.registry.spawn (some (lit "reviewer"))
      reviewTeam.ticketId = (.ok firstReviewer, registry) := ⟨_, rfl⟩
  obtain ⟨digest, hdigest⟩ : ∃ digest,
      scopeFingerprint { workspaceScope with allowedWriteRoots := some [] } = .ok digest := by
    refine exists_digestSorted ?_
    have hnil : (sortedTexts []).Encodable := encodable_sortedTexts (by simp)
    have hcommand : (sortedTexts [lit "git"]).Encodable :=
      encodable_sortedTexts (List.forall_mem_singleton.mpr rfl)
    rw [Json.encodable_obj]
    simp only [List.forall_mem_cons, List.not_mem_nil, false_implies, implies_true, and_true]
    exact ⟨⟨rfl, rfl⟩, ⟨rfl, hnil⟩, ⟨rfl, trivial⟩, ⟨rfl, trivial⟩, ⟨rfl, hnil⟩, ⟨rfl, hnil⟩,
      ⟨rfl, hnil⟩, rfl, hcommand⟩
  have hhandle : deriveHandle rootFileSystem reviewTeam firstReviewer = .ok
      ⟨firstReviewer, none, some { workspaceScope with allowedWriteRoots := some [] }, digest⟩ := by
    have hpolicy : unlessNone (deriveAgentPolicy rootFileSystem · firstReviewer.role)
        reviewTeam.policy = .ok none := rfl
    have hscope : unlessNone (deriveAgentGuardScope rootFileSystem · firstReviewer.role)
        reviewTeam.scope = .ok (some { workspaceScope with allowedWriteRoots := some [] }) := rfl
    simp only [deriveHandle, hpolicy, hscope, contextDigestOf, hdigest, Bind.bind, Except.bind]
    rfl
  have hspawn : AgentTeam.spawn rootFileSystem reviewTeam (some (lit "reviewer")) =
      (.ok ⟨firstReviewer, none, some { workspaceScope with allowedWriteRoots := some [] }, digest⟩,
        { reviewTeam with registry }) := by
    simp only [AgentTeam.spawn, hregistry, hhandle]
  exact ⟨_, _, (Reachable.make hmake).spawn hspawn, rfl, show 0 < 256 by decide⟩

/-- A reviewer whose work returns a note. -/
theorem recorded_note : ∃ handle team, Reachable rootFileSystem team [handle] ∧
    Recorded team (run rootFileSystem team handle
      (fun _ => .returned (.value (.dict (noteEvidence (lit "no findings"))))) .granted
      (some (lit "review")) none) := by
  obtain ⟨handle, team, hreach, hwrite, hroom⟩ := exists_reviewer
  have hdigest := (hreach.known handle List.mem_cons_self).2
  have hregion : RegionAllowed rootFileSystem team handle none := hwrite
  refine ⟨handle, team, hreach, (recorded_iff hreach List.mem_cons_self (by decide) (by decide)
    hregion hroom _ .granted).mpr ⟨by decide, ?_⟩⟩
  exact (digestible_noteEvidence_iff hdigest (by decide)).mpr rfl

/-- A run of a handle that the team has given out, over a ledger with room, that records nothing:
the work has returned a note with a lone surrogate. -/
theorem not_recorded_surrogate : ∃ handle team, Reachable rootFileSystem team [handle] ∧
    team.ledger.length < team.limit ∧ RegionAllowed rootFileSystem team handle none ∧
    ¬Recorded team (run rootFileSystem team handle
      (fun _ => .returned (.value (.dict (noteEvidence [.surrogate 0])))) .granted
      (some (lit "review")) none) := by
  obtain ⟨handle, team, hreach, hwrite, hroom⟩ := exists_reviewer
  obtain ⟨hknown, hdigest⟩ := hreach.known handle List.mem_cons_self
  refine ⟨handle, team, hreach, hroom, hwrite, ?_⟩
  rw [run, enter_eq_ok hknown (by decide) (by decide)]
  simp only [hwrite, Bool.false_eq_true, if_false]
  rw [recorded_conclude_iff ⟨hdigest, by decide, by decide⟩ hroom]
  rintro ⟨-, hfits⟩
  have hscalar := (digestible_noteEvidence_iff hdigest (by decide)).mp hfits
  exact absurd hscalar (by decide)

end AgentTeam

end Icode
