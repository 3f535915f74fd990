import Icode.JsonLength
import Icode.RepairFingerprint
import Icode.Sha256

/-!
# The positive loopback policy

A state of the policy is made by `begin` and only changed by the calls after it, each of which
returns a new state (`Op`, `apply`), or a plan between the two calls of a cleanup. A failure keeps
the state going to a cleanup, with the first error in it.

`Path` is the way without a failure, one call for each phase, with what each call has checked.
A state that has no error and has seen both probes has come this way (`Tracked`,
`tracked_of_apply`). So a receipt that says `modeled` is earned (`receipt_earned`).
-/

namespace Icode.PositiveLoopback

open Py

/-- `PolicyError`, by its code. -/
inductive PolicyError where
  /-- `invalid_sid` -/
  | invalidSid
  /-- `admission` -/
  | admission
  /-- `repository` -/
  | repository
  /-- `manifest_text` -/
  | manifestText
  /-- `job_identity` -/
  | jobIdentity
  /-- `profile_identity` -/
  | profileIdentity
  /-- `process_identity` -/
  | processIdentity
  /-- `endpoint` -/
  | endpoint
  /-- `window` -/
  | window
  /-- `clock` -/
  | clock
  /-- `deadline` -/
  | deadline
  /-- `snapshot_entries` -/
  | snapshotEntries
  /-- `snapshot_unverified` -/
  | snapshotUnverified
  /-- `snapshot_identity` -/
  | snapshotIdentity
  /-- `command_result` -/
  | commandResult
  /-- `state_attr` -/
  | stateAttr
  /-- `state_baseline` -/
  | stateBaseline
  /-- `state_ownership` -/
  | stateOwnership
  /-- `phase` -/
  | phase
  /-- `baseline` -/
  | baseline
  /-- `creation` -/
  | creation
  /-- `error` -/
  | error
  /-- `probe_type` -/
  | probeType
  /-- `no_owned_intent` -/
  | noOwnedIntent
  /-- `cleanup_plan` -/
  | cleanupPlan
  /-- `cleanup_type` -/
  | cleanupType
  /-- `receipt_size` -/
  | receiptSize
  deriving DecidableEq

/-! ## SIDs -/

/-- `UINT32_MAX` -/
def uint32Max : ℤ := 2 ^ 32 - 1

/-- `_uint`. -/
def isUint (value : ℤ) (maximum : ℤ) (minimum : ℤ) : Bool :=
  minimum ≤ value && value ≤ maximum

/-- `0|[1-9][0-9]*` -/
def isDecimal (part : PyStr) : Bool :=
  part == lit "0" ||
    match part with
    | [] => false
    | c :: cs => (49 ≤ c.ord && c.ord ≤ 57) && cs.all fun c => 48 ≤ c.ord && c.ord ≤ 57

/-- `int(part)` of decimal digits. -/
def decimalValue (part : PyStr) : ℕ :=
  part.foldl (fun n c => 10 * n + (c.ord - 48)) 0

/-- `value.to_bytes(6, "big")` -/
def toBytes6 (value : ℕ) : Bytes :=
  (List.range 6).map fun i => UInt8.ofNat (value >>> (8 * (5 - i)))

/-- `struct.pack("<I", value)` -/
def packLittle (value : ℕ) : Bytes :=
  (List.range 4).map fun i => UInt8.ofNat (value >>> (8 * i))

/-- `sid_bytes`. -/
def sidBytes (text : PyStr) : Except PolicyError Bytes := do
  require (text.length ≤ 184) .invalidSid
  let parts := text.splitOn (.scalar '-')
  require (4 ≤ parts.length && parts.take 2 == [lit "S", lit "1"] && parts.length ≤ 18) .invalidSid
  require ((parts.drop 2).all isDecimal) .invalidSid
  match (parts.drop 2).map decimalValue with
  | [] => throw .invalidSid
  | authority :: values =>
    require (authority < 2 ^ 48 && values.all fun value => (value : ℤ) ≤ uint32Max) .invalidSid
    pure ([1, UInt8.ofNat values.length] ++ toBytes6 authority ++ values.flatMap packLittle)

/-! ## Manifests -/

/-- `AdmissionFacts`: every one of them is true. -/
structure AdmissionFacts where
  githubActions : Bool
  windows : Bool
  githubHosted : Bool
  explicitlyAuthorized : Bool
  dedicatedRunner : Bool
  valid : (githubActions && windows && githubHosted && explicitlyAuthorized && dedicatedRunner) = true

/-- `WINDOW_MS` -/
def windowMs : ℤ := 60000

structure ManifestFields where
  admission : AdmissionFacts
  repository : PyStr
  sourceSha : PyStr
  runId : PyStr
  runAttempt : ℤ
  job : PyStr
  matrix : PyStr
  accountSid : PyStr
  pid : ℤ
  processCreated : ℤ
  positiveProfile : PyStr
  reviewerProfile : PyStr
  positiveSid : PyStr
  reviewerSid : PyStr
  nonce : PyStr
  ipv4Port : ℤ
  ipv6Port : ℤ
  startedMs : ℤ
  deadlineMs : ℤ

/-- `[1-9][0-9]{0,19}` -/
def isRunId (value : PyStr) : Bool :=
  isDecimal value && value != lit "0" && value.length ≤ 20

/-- `icode-[0-9a-f]{32}` -/
def isProfile (value : PyStr) : Bool :=
  value.take 6 == lit "icode-" && isHexText 32 (value.drop 6)

/-- `Manifest.__post_init__`. -/
def ManifestFields.validate (m : ManifestFields) : Except PolicyError Unit := do
  require (m.repository == lit "ayukyo/icode") .repository
  require (isHexText 40 m.sourceSha && isRunId m.runId && isHexText 32 m.nonce &&
    isProfile m.positiveProfile && isProfile m.reviewerProfile) .manifestText
  require (m.job == lit "windows-reviewer-snapshot-probe" &&
    [lit "x64", lit "ARM64"].contains m.matrix) .jobIdentity
  discard (sidBytes m.accountSid)
  discard (sidBytes m.positiveSid)
  discard (sidBytes m.reviewerSid)
  require ((lit "S-1-5-21-").isPrefixOf m.accountSid && (lit "S-1-15-2-").isPrefixOf m.positiveSid &&
    (lit "S-1-15-2-").isPrefixOf m.reviewerSid && m.positiveSid != m.reviewerSid &&
    m.positiveProfile != m.reviewerProfile) .profileIdentity
  require (isUint m.runAttempt uint32Max 1 && isUint m.pid uint32Max 1 &&
    isUint m.processCreated (2 ^ 64 - 1) 1) .processIdentity
  require (isUint m.ipv4Port 65535 1 && isUint m.ipv6Port 65535 1) .endpoint
  require (isUint m.startedMs (2 ^ 63 - 1) 0 && isUint m.deadlineMs (2 ^ 63 - 1) 0 &&
    0 < m.deadlineMs - m.startedMs && m.deadlineMs - m.startedMs ≤ windowMs) .window

/-- `Manifest`. -/
structure Manifest extends ManifestFields where
  valid : toManifestFields.validate = .ok ()

/-- `_json`. -/
def jsonBytes (value : Json) : Bytes :=
  encodePass value.dumpsAscii

/-- `asdict(manifest)` -/
def Manifest.toDict (m : Manifest) : Json :=
  .obj [("admission", .obj [("github_actions", .bool m.admission.githubActions),
      ("windows", .bool m.admission.windows), ("github_hosted", .bool m.admission.githubHosted),
      ("explicitly_authorized", .bool m.admission.explicitlyAuthorized),
      ("dedicated_runner", .bool m.admission.dedicatedRunner)]),
    ("repository", .str m.repository), ("source_sha", .str m.sourceSha), ("run_id", .str m.runId),
    ("run_attempt", .int m.runAttempt), ("job", .str m.job), ("matrix", .str m.matrix),
    ("account_sid", .str m.accountSid), ("pid", .int m.pid),
    ("process_created", .int m.processCreated), ("positive_profile", .str m.positiveProfile),
    ("reviewer_profile", .str m.reviewerProfile), ("positive_sid", .str m.positiveSid),
    ("reviewer_sid", .str m.reviewerSid), ("nonce", .str m.nonce), ("ipv4_port", .int m.ipv4Port),
    ("ipv6_port", .int m.ipv6Port), ("started_ms", .int m.startedMs),
    ("deadline_ms", .int m.deadlineMs)]

/-- `Manifest.digest` -/
def Manifest.digest (m : Manifest) : PyStr :=
  sha256 (jsonBytes m.toDict)

/-- `_clock`: whether the time is before the deadline. -/
def checkClock (m : Manifest) (nowMs : ℤ) : Except PolicyError Bool := do
  require (isUint nowMs (2 ^ 63 - 1) 0 && m.startedMs ≤ nowMs) .clock
  pure (decide (nowMs < m.deadlineMs))

/-- `_live`. -/
def checkLive (m : Manifest) (nowMs : ℤ) : Except PolicyError Unit := do
  let live ← checkClock m nowMs
  require live .deadline

/-! ## Snapshots -/

/-- `MAX_ENTRIES` -/
def maxEntries : ℕ := 4096

/-- `sid_bytes(sid)` of a SID that is valid. -/
def sidValue (sid : PyStr) : List ℕ :=
  ((sidBytes sid).toOption.getD []).map UInt8.toNat

/-- The order of `sorted(entries, key=lambda entry: sid_bytes(entry[0]))`. -/
def sidLe (a b : PyStr × ℤ) : Prop :=
  sidValue a.1 ≤ sidValue b.1

instance : DecidableRel sidLe := fun a b =>
  inferInstanceAs (Decidable (sidValue a.1 ≤ sidValue b.1))

instance : Std.Total sidLe :=
  ⟨fun a b => le_total (sidValue a.1) (sidValue b.1)⟩

instance : IsTrans (PyStr × ℤ) sidLe :=
  ⟨fun _ _ _ => le_trans⟩

/-- The body of the loop over the entries, with the SIDs that were met. -/
def checkEntry (binary : List Bytes) (entry : PyStr × ℤ) : Except PolicyError (List Bytes) := do
  let value ← sidBytes entry.1
  require (!binary.contains value && isUint entry.2 uint32Max 0) .snapshotIdentity
  pure (value :: binary)

/-- `Snapshot`: SIDs with their attributes, in the order of the SIDs. -/
structure Snapshot where
  entries : Dict PyStr ℤ
  size : entries.length ≤ maxEntries
  sids : ∀ e ∈ entries, isUint e.2 uint32Max 0 = true
  distinct : (entries.map fun e => sidValue e.1).Nodup
  sorted : entries.Pairwise sidLe

theorem checkEntries {entries : List (PyStr × ℤ)} {binary seen : List Bytes}
    (h : entries.foldlM checkEntry binary = .ok seen) :
    (∀ e ∈ entries, isUint e.2 uint32Max 0 = true ∧
      ∀ value ∈ binary, value.map UInt8.toNat ≠ sidValue e.1) ∧
    (entries.map fun e => sidValue e.1).Nodup := by
  induction entries generalizing binary with
  | nil => simp
  | cons entry entries ih =>
    rw [List.foldlM_cons, bind_eq_ok] at h
    obtain ⟨binary', hentry, h⟩ := h
    simp only [checkEntry, bind_eq_ok, require_eq_ok, exists_const, Bool.and_eq_true,
      Bool.not_eq_true', List.contains_eq_mem, decide_eq_false_iff_not, pure, Except.pure,
      Except.ok.injEq] at hentry
    obtain ⟨value, hvalue, ⟨hnew, huint⟩, rfl⟩ := hentry
    obtain ⟨hall, hnodup⟩ := ih h
    have hsid : sidValue entry.1 = value.map UInt8.toNat := by
      rw [sidValue, hvalue]
      rfl
    have hinjective : Function.Injective (List.map UInt8.toNat) :=
      List.map_injective_iff.mpr fun _ _ => UInt8.toNat_inj.mp
    refine ⟨List.forall_mem_cons.mpr ⟨⟨huint, fun v hv heq => ?_⟩, fun e he => ?_⟩, ?_⟩
    · rw [hsid] at heq
      exact hnew (hinjective heq ▸ hv)
    · exact ⟨(hall e he).1, fun v hv => (hall e he).2 v (List.mem_cons_of_mem _ hv)⟩
    · rw [List.map_cons, List.nodup_cons, List.mem_map]
      refine ⟨?_, hnodup⟩
      rintro ⟨e, he, heq⟩
      exact (hall e he).2 value List.mem_cons_self (hsid.symm.trans heq.symm)

/-- The constructor: `Snapshot.__post_init__`. -/
def Snapshot.make (entries : List (PyStr × ℤ)) (apiCode : ℤ) (complete released reaped : Bool) :
    Except PolicyError Snapshot :=
  if hsize : entries.length ≤ maxEntries then
    if apiCode = 0 ∧ (complete && released && reaped) = true then
      match h : entries.foldlM checkEntry [] with
      | .ok _ => .ok {
          entries := entries.insertionSort sidLe
          size := by rwa [List.length_insertionSort]
          sids := fun e he =>
            ((checkEntries h).1 e ((List.perm_insertionSort _ entries).subset he)).1
          distinct := (((List.perm_insertionSort _ entries).map _).nodup_iff).mpr (checkEntries h).2
          sorted := List.pairwise_insertionSort sidLe entries }
      | .error e => .error e
    else .error .snapshotUnverified
  else .error .snapshotEntries

theorem Snapshot.nodup_keys (snapshot : Snapshot) : snapshot.entries.keys.Nodup := by
  have hdistinct := snapshot.distinct
  rw [show (fun e : PyStr × ℤ => sidValue e.1) = sidValue ∘ Prod.fst from rfl,
    ← List.map_map] at hdistinct
  exact hdistinct.of_map _

/-- Two snapshots with the same entries, in any order, are the same. -/
theorem Snapshot.eq_of_perm {a b : Snapshot} (h : a.entries.Perm b.entries) : a = b := by
  have hentries : a.entries = b.entries := by
    refine h.eq_of_pairwise ?_ a.sorted b.sorted
    intro x y hx hy hxy hyx
    have hsid : sidValue x.1 = sidValue y.1 := le_antisymm hxy hyx
    exact List.inj_on_of_nodup_map a.distinct hx (h.symm.subset hy) hsid
  cases a
  cases b
  cases hentries
  rfl

/-- `==` of two dicts. -/
def sameDict (a b : Dict PyStr ℤ) : Bool :=
  a.length == b.length && a.all fun e => b.get? e.1 == some e.2

theorem perm_of_sameDict {a b : Dict PyStr ℤ} (ha : a.keys.Nodup) (h : sameDict a b = true) :
    a.Perm b := by
  rw [sameDict, Bool.and_eq_true, beq_iff_eq, List.all_eq_true] at h
  obtain ⟨hlen, hall⟩ := h
  have hsub : a ⊆ b := by
    intro e he
    have hget := hall e he
    rw [beq_iff_eq] at hget
    exact Dict.mem_of_get? hget
  exact (List.subperm_of_subset (ha.of_map _) hsub).perm_of_length_le (by omega)

/-- `CommandResult`. -/
structure CommandResult where
  exitCode : Option ℤ
  timedOut : Bool
  reaped : Bool
  valid : (exitCode.all (isUint · uint32Max 0) && (exitCode.isSome || timedOut)) = true

/-- `CommandResult.ok` -/
def CommandResult.ok (c : CommandResult) : Bool :=
  c.exitCode == some 0 && !c.timedOut && c.reaped

/-! ## States -/

/-- `_PHASES` -/
inductive Phase where
  | baseline
  | created
  | addIntent
  | added
  | probe
  | cleanup
  | restored
  | unknown
  deriving DecidableEq

/-- `_ERRORS` -/
inductive Failure where
  | addFailed
  | deadline
  | addDelta
  | probeFailed
  | foreignDelta
  | ownerConflict
  | unreaped
  | cleanupFailed
  | observationFailed
  deriving DecidableEq

/-- The name of a failure. -/
def Failure.name : Failure → PyStr
  | .addFailed => "add_failed"
  | .deadline => "deadline"
  | .addDelta => "add_delta"
  | .probeFailed => "probe_failed"
  | .foreignDelta => "foreign_delta"
  | .ownerConflict => "owner_conflict"
  | .unreaped => "unreaped"
  | .cleanupFailed => "cleanup_failed"
  | .observationFailed => "observation_failed"

structure StateFields where
  manifest : Manifest
  baseline : Snapshot
  phase : Phase
  targetAttributes : Option ℤ
  bothNonceReceived : Bool
  firstError : Option Failure
  modeledRestoration : Bool
  ownedIntent : Bool

/-- `State.__post_init__`. -/
def StateFields.validate (s : StateFields) : Except PolicyError Unit := do
  require (s.targetAttributes.all (isUint · uint32Max 0)) .stateAttr
  require (!s.baseline.entries.has s.manifest.positiveSid &&
    !s.baseline.entries.has s.manifest.reviewerSid) .stateBaseline
  require ((!List.contains [.baseline, .created] s.phase || !s.ownedIntent) &&
    (!List.contains [.addIntent, .added, .probe, .cleanup, .restored] s.phase || s.ownedIntent) &&
    (!s.modeledRestoration || s.phase == .restored)) .stateOwnership

/-- `State`. -/
structure State extends StateFields where
  valid : toStateFields.validate = .ok ()

/-- `State(...)`, and `replace(state, ...)` with the new fields. -/
def State.make (s : StateFields) : Except PolicyError State :=
  match h : s.validate with
  | .ok () => .ok ⟨s, h⟩
  | .error e => .error e

/-- `_state`. -/
def checkPhase (s : State) (phases : List Phase) : Except PolicyError Unit :=
  require (phases.contains s.phase) .phase

/-- `begin`. -/
def begin (manifest : Manifest) (first second : Snapshot) (nowMs : ℤ) :
    Except PolicyError State := do
  checkLive manifest nowMs
  require (sameDict first.entries second.entries && !first.entries.has manifest.positiveSid &&
    !first.entries.has manifest.reviewerSid) .baseline
  State.make {
    manifest, baseline := first, phase := .baseline, targetAttributes := none,
    bothNonceReceived := false, firstError := none, modeledRestoration := false,
    ownedIntent := false }

/-- `profile_created`. -/
def profileCreated (s : State) (profile sid : PyStr) (hresult nowMs : ℤ) :
    Except PolicyError State := do
  checkPhase s [.baseline]
  checkLive s.manifest nowMs
  require (profile == s.manifest.positiveProfile && sid == s.manifest.positiveSid && hresult == 0)
    .creation
  State.make { s.toStateFields with phase := .created }

/-- `add_intent`. -/
def addIntent (s : State) (nowMs : ℤ) : Except PolicyError State := do
  checkPhase s [.created]
  checkLive s.manifest nowMs
  State.make { s.toStateFields with phase := .addIntent, ownedIntent := true }

/-- `fail`. -/
def fail (s : State) (error : Failure) : Except PolicyError State :=
  State.make { s.toStateFields with
    phase := .unknown, firstError := some (s.firstError.getD error), modeledRestoration := false }

/-- `add_observed`. -/
def addObserved (s : State) (snapshot : Snapshot) (command : CommandResult) (nowMs : ℤ) :
    Except PolicyError State := do
  checkPhase s [.addIntent]
  let sid := s.manifest.positiveSid
  let target := snapshot.entries.get? sid
  let current := snapshot.entries.erase sid
  let result ← State.make { s.toStateFields with targetAttributes := target }
  let live ← checkClock s.manifest nowMs
  if !live then fail result .deadline
  else if !command.ok then fail result .addFailed
  else if target.isNone || !sameDict current s.baseline.entries then fail result .addDelta
  else State.make { result.toStateFields with phase := .added }

/-- `probe_payload`. -/
def probePayload (m : Manifest) : Bytes :=
  jsonBytes (.obj [("nonce", .str m.nonce), ("appcontainer", .bool true),
    ("package_sid", .str m.positiveSid), ("capability_count", .int 1),
    ("capability_sid", .str "S-1-15-3-3")])

/-- `probe_observed`. -/
def probeObserved (s : State) (ipv4 ipv6 : List Bytes) (tokenVerified jobReaped : Bool)
    (exitCode nowMs : ℤ) : Except PolicyError State := do
  checkPhase s [.added]
  require (isUint exitCode uint32Max 0) .probeType
  let live ← checkClock s.manifest nowMs
  if !live then fail s .deadline
  else if !(ipv4 == ipv6 && ipv6 == [probePayload s.manifest] && tokenVerified && jobReaped &&
      exitCode == 0) then fail s .probeFailed
  else State.make { s.toStateFields with phase := .probe, bothNonceReceived := true }

/-- `CleanupPlan.action` -/
inductive CleanupAction where
  | delete
  | absent
  | refuse
  deriving DecidableEq

/-- `CleanupPlan`. -/
structure CleanupPlan where
  state : State
  before : Snapshot
  action : CleanupAction
  cleanup : state.phase = .cleanup

/-- `CleanupPlan(state, before, action)` -/
def CleanupPlan.make (state : State) (before : Snapshot) (action : CleanupAction) :
    Except PolicyError CleanupPlan :=
  if h : state.phase = .cleanup then .ok ⟨state, before, action, h⟩ else .error .cleanupPlan

/-- `fail` when the check did not hold. -/
def failUnless (ok : Bool) (s : State) (error : Failure) : Except PolicyError State :=
  if ok then .ok s else fail s error

/-- What is done with the entry of the SID : the state after it, and the action. -/
def decideAction (s : State) (target : Option ℤ) (lastCommandReaped : Bool) :
    Except PolicyError (State × CleanupAction) := do
  if !lastCommandReaped then return (← fail s .unreaped, .refuse)
  else if target.isNone then return (s, .absent)
  else if s.targetAttributes.isSome && target != s.targetAttributes then
    return (← fail s .ownerConflict, .refuse)
  else return (s, .delete)

/-- `cleanup_plan`. -/
def cleanupPlan (s : State) (current : Snapshot) (lastCommandReaped : Bool) (nowMs : ℤ) :
    Except PolicyError CleanupPlan := do
  checkPhase s [.addIntent, .added, .probe, .unknown]
  require s.ownedIntent .noOwnedIntent
  let live ← checkClock s.manifest nowMs
  let s ← failUnless live s .deadline
  let target := current.entries.get? s.manifest.positiveSid
  let observed := current.entries.erase s.manifest.positiveSid
  let s ← failUnless (sameDict observed s.baseline.entries) s .foreignDelta
  let (s, action) ← decideAction s target lastCommandReaped
  let planned ← State.make { s.toStateFields with phase := .cleanup }
  CleanupPlan.make planned current action

/-- `cleanup_complete`. -/
def cleanupComplete (plan : CleanupPlan) (post : Snapshot) (command : Option CommandResult)
    (nowMs : ℤ) : Except PolicyError State := do
  let live ← checkClock plan.state.manifest nowMs
  let s ← failUnless live plan.state .deadline
  let expected := plan.before.entries.erase s.manifest.positiveSid
  let commandOk := plan.action == .absent && command.isNone ||
    plan.action == .delete && command.any CommandResult.ok
  if plan.action == .refuse || !commandOk || !sameDict post.entries expected then
    fail s .cleanupFailed
  else State.make { s.toStateFields with phase := .restored, modeledRestoration := true }

/-- `MAX_RECEIPT_BYTES` -/
def maxReceiptBytes : ℕ := 500

/-- The receipt of a state, at a time before the deadline or not. -/
def receipt (s : State) (live : Bool) : Members :=
  let passed := live && s.phase == .restored && s.modeledRestoration && s.bothNonceReceived &&
    s.firstError.isNone
  [("schema_version", .int 1), ("scope", .str "positive_loopback_software_policy"),
    ("binding", .str s.manifest.digest),
    ("status", .str (if passed then lit "modeled" else lit "unknown")),
    ("modeled_restoration", .bool s.modeledRestoration), ("native_authorized", .bool false),
    ("native_restoration_verified", .null),
    ("first_error", match s.firstError with
      | some error => .str error.name
      | none => if live then .null else .str "deadline")]

/-- `encode_receipt`. -/
def encodeReceipt (s : State) (nowMs : ℤ) : Except PolicyError Bytes := do
  let live ← checkClock s.manifest nowMs
  let wire := jsonBytes (.obj (receipt s live))
  require (wire.length ≤ maxReceiptBytes) .receiptSize
  pure wire

/-! ## Histories -/

/-- What a call returns. -/
inductive Value where
  | state (s : State)
  | plan (p : CleanupPlan)

/-- The state of a value. -/
def Value.current : Value → State
  | .state s => s
  | .plan p => p.state

/-- A call on a value, with its other arguments. -/
inductive Op where
  | profileCreated (profile sid : PyStr) (hresult nowMs : ℤ)
  | addIntent (nowMs : ℤ)
  | addObserved (snapshot : Snapshot) (command : CommandResult) (nowMs : ℤ)
  | probeObserved (ipv4 ipv6 : List Bytes) (tokenVerified jobReaped : Bool) (exitCode nowMs : ℤ)
  | fail (error : Failure)
  | cleanupPlan (current : Snapshot) (lastCommandReaped : Bool) (nowMs : ℤ)
  | cleanupComplete (post : Snapshot) (command : Option CommandResult) (nowMs : ℤ)

/-- A call; a plan is no state, and a state is no plan. -/
def apply : Value → Op → Except PolicyError Value
  | .state s, .profileCreated profile sid hresult nowMs =>
    .state <$> profileCreated s profile sid hresult nowMs
  | .state s, .addIntent nowMs => .state <$> addIntent s nowMs
  | .state s, .addObserved snapshot command nowMs => .state <$> addObserved s snapshot command nowMs
  | .state s, .probeObserved ipv4 ipv6 tokenVerified jobReaped exitCode nowMs =>
    .state <$> probeObserved s ipv4 ipv6 tokenVerified jobReaped exitCode nowMs
  | .state s, .fail error => .state <$> fail s error
  | .state s, .cleanupPlan current lastCommandReaped nowMs =>
    .plan <$> cleanupPlan s current lastCommandReaped nowMs
  | .plan p, .cleanupComplete post command nowMs =>
    .state <$> cleanupComplete p post command nowMs
  | .state _, .cleanupComplete .. => .error .cleanupType
  | .plan _, .fail _ => .error .error
  | .plan _, _ => .error .phase

/-- The arguments of `begin`. -/
structure Start where
  manifest : Manifest
  first : Snapshot
  second : Snapshot
  nowMs : ℤ

/-- One call of a run, with the calls that did not raise before it : a call that raises leaves the
value that it was made on. -/
def call (h : List Op × Value) (op : Op) : List Op × Value :=
  match apply h.2 op with
  | .ok w => (h.1 ++ [op], w)
  | .error _ => h

/-- A run of calls after `begin` : the calls that did not raise, and the value they lead to. -/
def run (s : State) (ops : List Op) : List Op × Value :=
  ops.foldl call ([], .state s)

/-! ## The way without a failure -/

/-- The time is before the deadline. -/
def Start.InTime (start : Start) (nowMs : ℤ) : Prop :=
  nowMs < start.manifest.deadlineMs

/-- The snapshot is the baseline with an entry of the positive SID. -/
def Start.AddsOne (start : Start) (snapshot : Snapshot) : Prop :=
  ∃ attributes, snapshot.entries.Perm ((start.manifest.positiveSid, attributes) ::
    start.first.entries)

/-- The calls that lead to a phase without a failure, by way of every phase before it. -/
inductive Path (start : Start) : Phase → List Op → Prop
  | baseline : Path start .baseline []
  | created {ops : List Op} {profile sid : PyStr} {hresult nowMs : ℤ} (h : Path start .baseline ops)
      (htime : start.InTime nowMs) :
      Path start .created (ops ++ [.profileCreated profile sid hresult nowMs])
  | addIntent {ops : List Op} {nowMs : ℤ} (h : Path start .created ops)
      (htime : start.InTime nowMs) : Path start .addIntent (ops ++ [.addIntent nowMs])
  | added {ops : List Op} {snapshot : Snapshot} {command : CommandResult} {nowMs : ℤ}
      (h : Path start .addIntent ops) (htime : start.InTime nowMs) (hok : command.ok = true)
      (hadd : start.AddsOne snapshot) :
      Path start .added (ops ++ [.addObserved snapshot command nowMs])
  | probe {ops : List Op} {nowMs : ℤ} (h : Path start .added ops) (htime : start.InTime nowMs) :
      Path start .probe (ops ++ [.probeObserved [probePayload start.manifest]
        [probePayload start.manifest] true true 0 nowMs])
  | cleanup {ops : List Op} {current : Snapshot} {nowMs : ℤ} (h : Path start .probe ops)
      (htime : start.InTime nowMs) : Path start .cleanup (ops ++ [.cleanupPlan current true nowMs])
  | restored {ops : List Op} {command : Option CommandResult} {nowMs : ℤ}
      (h : Path start .cleanup ops) (htime : start.InTime nowMs) :
      Path start .restored (ops ++ [.cleanupComplete start.first command nowMs])

/-- A state that has no error has come by the path to its phase; after a cleanup this is known when
it has seen both probes. -/
structure Tracked (start : Start) (ops : List Op) (s : State) : Prop where
  manifest : s.manifest = start.manifest
  baseline : s.baseline = start.first
  path : s.firstError = none → s.bothNonceReceived = true ∨ s.phase ≠ .cleanup ∧ s.phase ≠ .restored →
    Path start s.phase ops
  probed : s.firstError = none → s.bothNonceReceived = true →
    s.phase = .probe ∨ s.phase = .cleanup ∨ s.phase = .restored

/-- A value is tracked, and a plan without an error has seen no other entry than the baseline. -/
def Value.Tracked (start : Start) (ops : List Op) : Value → Prop
  | .state s => PositiveLoopback.Tracked start ops s
  | .plan p => PositiveLoopback.Tracked start ops p.state ∧ (p.state.firstError = none →
      sameDict (p.before.entries.erase start.manifest.positiveSid) start.first.entries = true)

/-! ## What a call keeps -/

theorem make_eq_ok {f : StateFields} {s : State} (h : State.make f = .ok s) :
    s.toStateFields = f := by
  unfold State.make at h
  split at h
  · cases h
    rfl
  · cases h

theorem checkClock_eq_ok {m : Manifest} {nowMs : ℤ} {live : Bool}
    (h : checkClock m nowMs = .ok live) : live = decide (nowMs < m.deadlineMs) := by
  simp only [checkClock, bind_eq_ok, require_eq_ok, exists_const, pure, Except.pure,
    Except.ok.injEq] at h
  exact h.2.symm

theorem checkLive_eq_ok {m : Manifest} {nowMs : ℤ} (h : checkLive m nowMs = .ok ()) :
    nowMs < m.deadlineMs := by
  simp only [checkLive, bind_eq_ok, require_eq_ok] at h
  obtain ⟨live, hclock, hlive⟩ := h
  exact of_decide_eq_true ((checkClock_eq_ok hclock).symm.trans hlive)

theorem checkPhase_eq_ok {s : State} {phases : List Phase} (h : checkPhase s phases = .ok ()) :
    s.phase ∈ phases := by
  rw [checkPhase, require_eq_ok] at h
  exact List.contains_iff_mem.mp h

/-- The manifest and the baseline stay, and so does an error. -/
structure Keeps (s s' : State) : Prop where
  manifest : s'.manifest = s.manifest
  baseline : s'.baseline = s.baseline
  error : ∀ e, s.firstError = some e → s'.firstError = some e

theorem Keeps.refl (s : State) : Keeps s s :=
  ⟨rfl, rfl, fun _ h => h⟩

theorem Keeps.trans {s s' s'' : State} (h : Keeps s s') (h' : Keeps s' s'') : Keeps s s'' :=
  ⟨h'.manifest.trans h.manifest, h'.baseline.trans h.baseline,
    fun e he => h'.error e (h.error e he)⟩

theorem Keeps.noError {s s' : State} (h : Keeps s s') (hnone : s'.firstError = none) :
    s.firstError = none := by
  cases herror : s.firstError with
  | none => rfl
  | some e =>
    rw [h.error e herror] at hnone
    cases hnone

/-- New fields that leave the manifest, the baseline and the error. -/
theorem keeps_of_make {s s' : State} {f : StateFields} (h : State.make f = .ok s')
    (hmanifest : f.manifest = s.manifest) (hbaseline : f.baseline = s.baseline)
    (herror : f.firstError = s.firstError) : Keeps s s' := by
  have hfields := make_eq_ok h
  exact ⟨by rw [hfields, hmanifest], by rw [hfields, hbaseline],
    fun e he => by rw [hfields, herror, he]⟩

theorem fail_eq_ok {s s' : State} {error : Failure} (h : fail s error = .ok s') :
    Keeps s s' ∧ s'.firstError ≠ none := by
  have hfields := make_eq_ok h
  refine ⟨⟨by rw [hfields], by rw [hfields], fun e he => ?_⟩, by rw [hfields]; simp⟩
  rw [hfields, he]
  rfl

/-- A call that ends in `fail` leaves no state without an error. -/
theorem failed_of_fail {s t s' : State} {error : Failure} {P : Prop} (hkeeps : Keeps s t)
    (h : fail t error = .ok s') : Keeps s s' ∧ (s'.firstError = none → P) := by
  obtain ⟨hkeeps', hne⟩ := fail_eq_ok h
  exact ⟨hkeeps.trans hkeeps', fun hnone => absurd hnone hne⟩

theorem failUnless_eq_ok {ok : Bool} {s s' : State} {error : Failure}
    (h : failUnless ok s error = .ok s') :
    Keeps s s' ∧ (s'.firstError = none → ok = true ∧ s' = s) := by
  unfold failUnless at h
  split_ifs at h with hok
  · obtain rfl := Except.ok.inj h
    exact ⟨Keeps.refl s, fun _ => ⟨hok, rfl⟩⟩
  · obtain ⟨hkeeps, hne⟩ := fail_eq_ok h
    exact ⟨hkeeps, fun hnone => absurd hnone hne⟩

theorem begin_eq_ok {m : Manifest} {first second : Snapshot} {nowMs : ℤ} {s : State}
    (h : begin m first second nowMs = .ok s) :
    nowMs < m.deadlineMs ∧ first = second ∧ first.entries.has m.positiveSid = false ∧
      first.entries.has m.reviewerSid = false ∧ s.toStateFields = {
        manifest := m, baseline := first, phase := .baseline, targetAttributes := none,
        bothNonceReceived := false, firstError := none, modeledRestoration := false,
        ownedIntent := false } := by
  simp only [begin, bind_eq_ok, require_eq_ok, exists_const, Bool.and_eq_true,
    Bool.not_eq_true'] at h
  obtain ⟨⟨⟩, hlive, ⟨⟨hsame, hpositive⟩, hreviewer⟩, hmake⟩ := h
  exact ⟨checkLive_eq_ok hlive, Snapshot.eq_of_perm (perm_of_sameDict first.nodup_keys hsame),
    hpositive, hreviewer, make_eq_ok hmake⟩

theorem profileCreated_eq_ok {s s' : State} {profile sid : PyStr} {hresult nowMs : ℤ}
    (h : profileCreated s profile sid hresult nowMs = .ok s') :
    Keeps s s' ∧ s.phase = .baseline ∧ nowMs < s.manifest.deadlineMs ∧
      s'.toStateFields = { s.toStateFields with phase := .created } := by
  simp only [profileCreated, bind_eq_ok, require_eq_ok, exists_const] at h
  obtain ⟨⟨⟩, hphase, ⟨⟩, hlive, -, hmake⟩ := h
  exact ⟨keeps_of_make hmake rfl rfl rfl, List.mem_singleton.mp (checkPhase_eq_ok hphase),
    checkLive_eq_ok hlive, make_eq_ok hmake⟩

theorem addIntent_eq_ok {s s' : State} {nowMs : ℤ} (h : addIntent s nowMs = .ok s') :
    Keeps s s' ∧ s.phase = .created ∧ nowMs < s.manifest.deadlineMs ∧
      s'.toStateFields = { s.toStateFields with phase := .addIntent, ownedIntent := true } := by
  simp only [addIntent, bind_eq_ok] at h
  obtain ⟨⟨⟩, hphase, ⟨⟩, hlive, hmake⟩ := h
  exact ⟨keeps_of_make hmake rfl rfl rfl, List.mem_singleton.mp (checkPhase_eq_ok hphase),
    checkLive_eq_ok hlive, make_eq_ok hmake⟩

theorem addObserved_eq_ok {s s' : State} {snapshot : Snapshot} {command : CommandResult} {nowMs : ℤ}
    (h : addObserved s snapshot command nowMs = .ok s') :
    Keeps s s' ∧ (s'.firstError = none → s.phase = .addIntent ∧ nowMs < s.manifest.deadlineMs ∧
      command.ok = true ∧ (snapshot.entries.get? s.manifest.positiveSid).isSome ∧
      sameDict (snapshot.entries.erase s.manifest.positiveSid) s.baseline.entries = true ∧
      s'.phase = .added ∧ s'.bothNonceReceived = s.bothNonceReceived) := by
  simp only [addObserved, bind_eq_ok] at h
  obtain ⟨⟨⟩, hphase, result, hresult, live, hclock, h⟩ := h
  have hkeeps : Keeps s result := keeps_of_make hresult rfl rfl rfl
  split_ifs at h with hlive hcommand hdelta
  · exact failed_of_fail hkeeps h
  · exact failed_of_fail hkeeps h
  · exact failed_of_fail hkeeps h
  · have hfields := make_eq_ok h
    have hfields' := make_eq_ok hresult
    rw [checkClock_eq_ok hclock, Bool.not_eq_true', decide_eq_false_iff_not, not_not] at hlive
    rw [Bool.not_eq_true', Bool.not_eq_false] at hcommand
    rw [Bool.or_eq_true, not_or, Option.isNone_iff_eq_none, ← ne_eq,
      Option.ne_none_iff_isSome, Bool.not_eq_true', Bool.not_eq_false] at hdelta
    refine ⟨hkeeps.trans (keeps_of_make h rfl rfl rfl), fun _ => ⟨List.mem_singleton.mp
      (checkPhase_eq_ok hphase), hlive, hcommand, hdelta.1, hdelta.2, by rw [hfields], ?_⟩⟩
    rw [hfields, hfields']

theorem probeObserved_eq_ok {s s' : State} {ipv4 ipv6 : List Bytes} {tokenVerified jobReaped : Bool}
    {exitCode nowMs : ℤ}
    (h : probeObserved s ipv4 ipv6 tokenVerified jobReaped exitCode nowMs = .ok s') :
    Keeps s s' ∧ (s'.firstError = none → s.phase = .added ∧ nowMs < s.manifest.deadlineMs ∧
      ipv4 = [probePayload s.manifest] ∧ ipv6 = [probePayload s.manifest] ∧ tokenVerified = true ∧
      jobReaped = true ∧ exitCode = 0 ∧ s'.phase = .probe) := by
  simp only [probeObserved, bind_eq_ok, require_eq_ok, exists_const] at h
  obtain ⟨⟨⟩, hphase, -, live, hclock, h⟩ := h
  split_ifs at h with hlive hprobe
  · exact failed_of_fail (Keeps.refl s) h
  · exact failed_of_fail (Keeps.refl s) h
  · have hfields := make_eq_ok h
    rw [checkClock_eq_ok hclock, Bool.not_eq_true', decide_eq_false_iff_not, not_not] at hlive
    simp only [Bool.not_eq_true', Bool.not_eq_false, Bool.and_eq_true, beq_iff_eq] at hprobe
    obtain ⟨⟨⟨⟨rfl, rfl⟩, htoken⟩, hreaped⟩, rfl⟩ := hprobe
    exact ⟨keeps_of_make h rfl rfl rfl, fun _ => ⟨List.mem_singleton.mp (checkPhase_eq_ok hphase),
      hlive, rfl, rfl, htoken, hreaped, rfl, by rw [hfields]⟩⟩

theorem decideAction_eq_ok {s s' : State} {target : Option ℤ} {lastCommandReaped : Bool}
    {action : CleanupAction} (h : decideAction s target lastCommandReaped = .ok (s', action)) :
    Keeps s s' ∧ (s'.firstError = none → lastCommandReaped = true ∧ s' = s) := by
  unfold decideAction at h
  split_ifs at h with hreaped hnone howner
  · simp only [bind_eq_ok, pure, Except.pure, Except.ok.injEq, Prod.mk.injEq] at h
    obtain ⟨t, hfail, rfl, -⟩ := h
    exact failed_of_fail (Keeps.refl s) hfail
  · obtain ⟨rfl, -⟩ := Prod.mk.inj (Except.ok.inj h)
    exact ⟨Keeps.refl s, fun _ => ⟨by simpa using hreaped, rfl⟩⟩
  · simp only [bind_eq_ok, pure, Except.pure, Except.ok.injEq, Prod.mk.injEq] at h
    obtain ⟨t, hfail, rfl, -⟩ := h
    exact failed_of_fail (Keeps.refl s) hfail
  · obtain ⟨rfl, -⟩ := Prod.mk.inj (Except.ok.inj h)
    exact ⟨Keeps.refl s, fun _ => ⟨by simpa using hreaped, rfl⟩⟩

theorem cleanupPlan_eq_ok {s : State} {current : Snapshot} {lastCommandReaped : Bool} {nowMs : ℤ}
    {p : CleanupPlan} (h : cleanupPlan s current lastCommandReaped nowMs = .ok p) :
    Keeps s p.state ∧ p.before = current ∧ (p.state.firstError = none →
      s.phase ∈ [Phase.addIntent, .added, .probe, .unknown] ∧ nowMs < s.manifest.deadlineMs ∧
      sameDict (current.entries.erase s.manifest.positiveSid) s.baseline.entries = true ∧
      lastCommandReaped = true ∧ p.state.bothNonceReceived = s.bothNonceReceived) := by
  simp only [cleanupPlan, bind_eq_ok, require_eq_ok, exists_const] at h
  obtain ⟨⟨⟩, hphase, -, live, hclock, s₁, hlive, s₂, hforeign, ⟨s₃, action⟩, haction, planned,
    hmake, hplan⟩ := h
  obtain ⟨hkeeps₁, hclean₁⟩ := failUnless_eq_ok hlive
  obtain ⟨hkeeps₂, hclean₂⟩ := failUnless_eq_ok hforeign
  obtain ⟨hkeeps₃, hclean₃⟩ := decideAction_eq_ok haction
  have hkeeps₄ : Keeps s₃ planned := keeps_of_make hmake rfl rfl rfl
  have hfields := make_eq_ok hmake
  unfold CleanupPlan.make at hplan
  split_ifs at hplan with hcleanup
  obtain rfl := Except.ok.inj hplan
  refine ⟨((hkeeps₁.trans hkeeps₂).trans hkeeps₃).trans hkeeps₄, rfl, fun hnone => ?_⟩
  have hnone₃ := hkeeps₄.noError hnone
  obtain ⟨hreaped, rfl⟩ := hclean₃ hnone₃
  obtain ⟨hsame, rfl⟩ := hclean₂ hnone₃
  obtain ⟨hintime, rfl⟩ := hclean₁ hnone₃
  rw [checkClock_eq_ok hclock, decide_eq_true_eq] at hintime
  exact ⟨checkPhase_eq_ok hphase, hintime, hsame, hreaped, by rw [hfields]⟩

theorem cleanupComplete_eq_ok {p : CleanupPlan} {s' : State} {post : Snapshot}
    {command : Option CommandResult} {nowMs : ℤ}
    (h : cleanupComplete p post command nowMs = .ok s') :
    Keeps p.state s' ∧ (s'.firstError = none → nowMs < p.state.manifest.deadlineMs ∧
      sameDict post.entries (p.before.entries.erase p.state.manifest.positiveSid) = true ∧
      s'.phase = .restored ∧ s'.bothNonceReceived = p.state.bothNonceReceived) := by
  simp only [cleanupComplete, bind_eq_ok] at h
  obtain ⟨live, hclock, s, hlive, h⟩ := h
  obtain ⟨hkeeps, hclean⟩ := failUnless_eq_ok hlive
  split_ifs at h with hrefuse
  · exact failed_of_fail hkeeps h
  · have hfields := make_eq_ok h
    refine ⟨hkeeps.trans (keeps_of_make h rfl rfl rfl), fun hnone => ?_⟩
    rw [hfields] at hnone
    obtain ⟨hintime, rfl⟩ := hclean hnone
    rw [checkClock_eq_ok hclock, decide_eq_true_eq] at hintime
    simp only [Bool.or_eq_true, not_or, Bool.not_eq_true', Bool.not_eq_false] at hrefuse
    exact ⟨hintime, hrefuse.2, by rw [hfields], by rw [hfields]⟩

/-! ## Runs -/

theorem map_eq_ok {α β ε : Type} {f : α → β} {x : Except ε α} {b : β} :
    f <$> x = .ok b ↔ ∃ a, x = .ok a ∧ f a = b := by
  cases x <;> simp [Functor.map, Except.map]

theorem keeps_of_apply {v w : Value} {op : Op} (h : apply v op = .ok w) :
    Keeps v.current w.current := by
  cases v with
  | state s =>
    cases op with
    | profileCreated profile sid hresult nowMs =>
      obtain ⟨s', hs', rfl⟩ := (map_eq_ok).mp h
      exact (profileCreated_eq_ok hs').1
    | addIntent nowMs =>
      obtain ⟨s', hs', rfl⟩ := (map_eq_ok).mp h
      exact (addIntent_eq_ok hs').1
    | addObserved snapshot command nowMs =>
      obtain ⟨s', hs', rfl⟩ := (map_eq_ok).mp h
      exact (addObserved_eq_ok hs').1
    | probeObserved ipv4 ipv6 tokenVerified jobReaped exitCode nowMs =>
      obtain ⟨s', hs', rfl⟩ := (map_eq_ok).mp h
      exact (probeObserved_eq_ok hs').1
    | fail error =>
      obtain ⟨s', hs', rfl⟩ := (map_eq_ok).mp h
      exact (fail_eq_ok hs').1
    | cleanupPlan current lastCommandReaped nowMs =>
      obtain ⟨p, hp, rfl⟩ := (map_eq_ok).mp h
      exact (cleanupPlan_eq_ok hp).1
    | cleanupComplete post command nowMs => cases h
  | plan p =>
    cases op with
    | cleanupComplete post command nowMs =>
      obtain ⟨s', hs', rfl⟩ := (map_eq_ok).mp h
      exact (cleanupComplete_eq_ok hs').1
    | _ => cases h

variable {start : Start} {ops : List Op}

/-- A state without an error is tracked by what its call has checked. -/
theorem Tracked.of_keeps {op : Op} {s s' : State} (h : Tracked start ops s) (hkeeps : Keeps s s')
    (hpath : s.firstError = none → s'.firstError = none →
      (s'.bothNonceReceived = true ∨ s'.phase ≠ .cleanup ∧ s'.phase ≠ .restored →
        Path start s'.phase (ops ++ [op])) ∧
      (s'.bothNonceReceived = true →
        s'.phase = .probe ∨ s'.phase = .cleanup ∨ s'.phase = .restored)) :
    Tracked start (ops ++ [op]) s' where
  manifest := hkeeps.manifest.trans h.manifest
  baseline := hkeeps.baseline.trans h.baseline
  path hnone := (hpath (hkeeps.noError hnone) hnone).1
  probed hnone := (hpath (hkeeps.noError hnone) hnone).2

/-- The path to a phase before the cleanup. -/
theorem Tracked.path_to {s : State} (h : Tracked start ops s) (hnone : s.firstError = none)
    {phase : Phase} (hphase : s.phase = phase) (hne : phase ≠ .cleanup ∧ phase ≠ .restored) :
    Path start phase ops := by
  subst hphase
  exact h.path hnone (Or.inr hne)

/-- Before the probe no nonce was received. -/
theorem Tracked.unprobed {s : State} (h : Tracked start ops s) (hnone : s.firstError = none)
    {phase : Phase} (hphase : s.phase = phase)
    (hne : phase ≠ .probe ∧ phase ≠ .cleanup ∧ phase ≠ .restored) :
    s.bothNonceReceived = false := by
  subst hphase
  rw [Bool.eq_false_iff]
  intro hboth
  have hprobed := h.probed hnone hboth
  tauto

theorem tracked_profileCreated {s s' : State} {profile sid : PyStr} {hresult nowMs : ℤ}
    (ht : Tracked start ops s) (h : profileCreated s profile sid hresult nowMs = .ok s') :
    Tracked start (ops ++ [.profileCreated profile sid hresult nowMs]) s' := by
  obtain ⟨hkeeps, hphase, htime, hfields⟩ := profileCreated_eq_ok h
  refine ht.of_keeps hkeeps fun hnone _ => ?_
  have hboth := ht.unprobed hnone hphase (by simp)
  rw [hfields]
  refine ⟨fun _ => .created (ht.path_to hnone hphase (by simp)) ?_, fun h => ?_⟩
  · rwa [Start.InTime, ← ht.manifest]
  · rw [hboth] at h
    cases h

theorem tracked_addIntent {s s' : State} {nowMs : ℤ} (ht : Tracked start ops s)
    (h : addIntent s nowMs = .ok s') : Tracked start (ops ++ [.addIntent nowMs]) s' := by
  obtain ⟨hkeeps, hphase, htime, hfields⟩ := addIntent_eq_ok h
  refine ht.of_keeps hkeeps fun hnone _ => ?_
  have hboth := ht.unprobed hnone hphase (by simp)
  rw [hfields]
  refine ⟨fun _ => .addIntent (ht.path_to hnone hphase (by simp)) ?_, fun h => ?_⟩
  · rwa [Start.InTime, ← ht.manifest]
  · rw [hboth] at h
    cases h

/-- A snapshot that has the positive SID and is the baseline without it. -/
theorem addsOne {snapshot : Snapshot}
    (htarget : (snapshot.entries.get? start.manifest.positiveSid).isSome)
    (hsame : sameDict (snapshot.entries.erase start.manifest.positiveSid) start.first.entries = true) :
    start.AddsOne snapshot := by
  obtain ⟨attributes, hattributes⟩ := Option.isSome_iff_exists.mp htarget
  have hperm := perm_of_sameDict (Dict.nodup_keys_erase snapshot.nodup_keys _) hsame
  exact ⟨attributes, (Dict.perm_cons_erase snapshot.nodup_keys hattributes).trans (hperm.cons _)⟩

theorem tracked_addObserved {s s' : State} {snapshot : Snapshot} {command : CommandResult}
    {nowMs : ℤ} (ht : Tracked start ops s) (h : addObserved s snapshot command nowMs = .ok s') :
    Tracked start (ops ++ [.addObserved snapshot command nowMs]) s' := by
  obtain ⟨hkeeps, hclean⟩ := addObserved_eq_ok h
  refine ht.of_keeps hkeeps fun hnone hnone' => ?_
  obtain ⟨hphase, htime, hcommand, htarget, hsame, hphase', hboth'⟩ := hclean hnone'
  have hboth := ht.unprobed hnone hphase (by simp)
  rw [ht.manifest] at htime htarget hsame
  rw [ht.baseline] at hsame
  rw [hphase', hboth', hboth]
  exact ⟨fun _ => .added (ht.path_to hnone hphase (by simp)) htime hcommand (addsOne htarget hsame),
    fun h => by cases h⟩

theorem tracked_probeObserved {s s' : State} {ipv4 ipv6 : List Bytes}
    {tokenVerified jobReaped : Bool} {exitCode nowMs : ℤ} (ht : Tracked start ops s)
    (h : probeObserved s ipv4 ipv6 tokenVerified jobReaped exitCode nowMs = .ok s') :
    Tracked start (ops ++ [.probeObserved ipv4 ipv6 tokenVerified jobReaped exitCode nowMs]) s' := by
  obtain ⟨hkeeps, hclean⟩ := probeObserved_eq_ok h
  refine ht.of_keeps hkeeps fun hnone hnone' => ?_
  obtain ⟨hphase, htime, rfl, rfl, rfl, rfl, rfl, hphase'⟩ := hclean hnone'
  rw [ht.manifest] at htime ⊢
  rw [hphase']
  exact ⟨fun _ => .probe (ht.path_to hnone hphase (by simp)) htime, fun _ => Or.inl rfl⟩

theorem tracked_cleanupPlan {s : State} {current : Snapshot} {lastCommandReaped : Bool} {nowMs : ℤ}
    {p : CleanupPlan} (ht : Tracked start ops s)
    (h : cleanupPlan s current lastCommandReaped nowMs = .ok p) :
    (Value.plan p).Tracked start (ops ++ [.cleanupPlan current lastCommandReaped nowMs]) := by
  obtain ⟨hkeeps, rfl, hclean⟩ := cleanupPlan_eq_ok h
  refine ⟨ht.of_keeps hkeeps fun hnone hnone' => ?_, fun hnone' => ?_⟩
  · obtain ⟨hphase, htime, -, rfl, hboth⟩ := hclean hnone'
    rw [ht.manifest] at htime
    rw [p.cleanup, hboth]
    refine ⟨fun hprobed => ?_, fun _ => Or.inr (Or.inl rfl)⟩
    have hboth' : s.bothNonceReceived = true := hprobed.resolve_right (by simp)
    have hprobe : s.phase = .probe := by
      have hphases := ht.probed hnone hboth'
      simp only [List.mem_cons, List.not_mem_nil, or_false] at hphase
      rcases hphases with h | h | h
      · exact h
      · simp [h] at hphase
      · simp [h] at hphase
    exact .cleanup (ht.path_to hnone hprobe (by simp)) htime
  · obtain ⟨-, -, hsame, -, -⟩ := hclean hnone'
    rwa [ht.manifest, ht.baseline] at hsame

theorem sameDict_trans {a b c : Dict PyStr ℤ} (ha : a.keys.Nodup) (hb : b.keys.Nodup)
    (hab : sameDict a b = true) (hbc : sameDict b c = true) : a.Perm c :=
  (perm_of_sameDict ha hab).trans (perm_of_sameDict hb hbc)

theorem tracked_cleanupComplete {p : CleanupPlan} {s' : State} {post : Snapshot}
    {command : Option CommandResult} {nowMs : ℤ} (ht : (Value.plan p).Tracked start ops)
    (h : cleanupComplete p post command nowMs = .ok s') :
    Tracked start (ops ++ [.cleanupComplete post command nowMs]) s' := by
  obtain ⟨ht, hbefore⟩ := ht
  obtain ⟨hkeeps, hclean⟩ := cleanupComplete_eq_ok h
  refine ht.of_keeps hkeeps fun hnone hnone' => ?_
  obtain ⟨htime, hsame, hphase', hboth'⟩ := hclean hnone'
  rw [ht.manifest] at htime hsame
  have hpost : post = start.first :=
    Snapshot.eq_of_perm (sameDict_trans post.nodup_keys
      (Dict.nodup_keys_erase p.before.nodup_keys _) hsame (hbefore hnone))
  rw [hphase', hboth', hpost]
  refine ⟨fun hprobed => ?_, fun _ => Or.inr (Or.inr rfl)⟩
  have hboth : p.state.bothNonceReceived = true := hprobed.resolve_right (by simp)
  have hpath := ht.path hnone (Or.inl hboth)
  rw [p.cleanup] at hpath
  exact .restored hpath htime

/-- A call keeps a value tracked. -/
theorem tracked_of_apply {v w : Value} {op : Op} (ht : v.Tracked start ops)
    (h : apply v op = .ok w) : w.Tracked start (ops ++ [op]) := by
  cases v with
  | state s =>
    cases op with
    | profileCreated profile sid hresult nowMs =>
      obtain ⟨s', hs', rfl⟩ := (map_eq_ok).mp h
      exact tracked_profileCreated ht hs'
    | addIntent nowMs =>
      obtain ⟨s', hs', rfl⟩ := (map_eq_ok).mp h
      exact tracked_addIntent ht hs'
    | addObserved snapshot command nowMs =>
      obtain ⟨s', hs', rfl⟩ := (map_eq_ok).mp h
      exact tracked_addObserved ht hs'
    | probeObserved ipv4 ipv6 tokenVerified jobReaped exitCode nowMs =>
      obtain ⟨s', hs', rfl⟩ := (map_eq_ok).mp h
      exact tracked_probeObserved ht hs'
    | fail error =>
      obtain ⟨s', hs', rfl⟩ := (map_eq_ok).mp h
      obtain ⟨hkeeps, hne⟩ := fail_eq_ok hs'
      exact ht.of_keeps hkeeps fun _ hnone' => absurd hnone' hne
    | cleanupPlan current lastCommandReaped nowMs =>
      obtain ⟨p, hp, rfl⟩ := (map_eq_ok).mp h
      exact tracked_cleanupPlan ht hp
    | cleanupComplete post command nowMs => cases h
  | plan p =>
    cases op with
    | cleanupComplete post command nowMs =>
      obtain ⟨s', hs', rfl⟩ := (map_eq_ok).mp h
      exact tracked_cleanupComplete ht hs'
    | _ => cases h

theorem tracked_foldl (more : List Op) {h : List Op × Value} (ht : h.2.Tracked start h.1) :
    (more.foldl call h).2.Tracked start (more.foldl call h).1 := by
  induction more generalizing h with
  | nil => exact ht
  | cons op more ih =>
    refine ih ?_
    unfold call
    split
    · next w hw => exact tracked_of_apply ht hw
    · exact ht

theorem keeps_foldl (more : List Op) (h : List Op × Value) :
    Keeps h.2.current (more.foldl call h).2.current := by
  induction more generalizing h with
  | nil => exact Keeps.refl _
  | cons op more ih =>
    refine Keeps.trans ?_ (ih (call h op))
    unfold call
    split
    · next w hw => exact keeps_of_apply hw
    · exact Keeps.refl _

/-- Every run after `begin` is tracked. -/
theorem tracked_run {s : State}
    (h : begin start.manifest start.first start.second start.nowMs = .ok s) (ops : List Op) :
    (run s ops).2.Tracked start (run s ops).1 := by
  obtain ⟨-, -, -, -, hfields⟩ := begin_eq_ok h
  refine tracked_foldl ops ?_
  refine ⟨by rw [hfields], by rw [hfields], fun _ _ => ?_, fun _ hboth => ?_⟩
  · rw [hfields]
    exact .baseline
  · rw [hfields] at hboth
    cases hboth

/-- A run in which nothing failed: the six calls after `begin`, each in time. Both snapshots at the
start are the baseline without the two profiles, the add changes it by the positive SID alone, both
probes answer with the payload while their job is reaped, and at the end there is the baseline. -/
def Earned (start : Start) (ops : List Op) : Prop :=
  start.first = start.second ∧ start.first.entries.has start.manifest.positiveSid = false ∧
    start.first.entries.has start.manifest.reviewerSid = false ∧ start.InTime start.nowMs ∧
    ∃ profile sid hresult t₁ t₂ snapshot command t₃ t₄ current t₅ command' t₆,
      ops = [.profileCreated profile sid hresult t₁, .addIntent t₂,
        .addObserved snapshot command t₃, .probeObserved [probePayload start.manifest]
          [probePayload start.manifest] true true 0 t₄, .cleanupPlan current true t₅,
        .cleanupComplete start.first command' t₆] ∧
      (∀ t ∈ [t₁, t₂, t₃, t₄, t₅, t₆], start.InTime t) ∧ command.ok = true ∧
      start.AddsOne snapshot

theorem earned_of_path {s : State}
    (hbegin : begin start.manifest start.first start.second start.nowMs = .ok s)
    (h : Path start .restored ops) : Earned start ops := by
  obtain ⟨hlive, hsame, hpositive, hreviewer, -⟩ := begin_eq_ok hbegin
  refine ⟨hsame, hpositive, hreviewer, hlive, ?_⟩
  cases h with | @restored _ command' t₆ h h₆ =>
  cases h with | @cleanup _ current t₅ h h₅ =>
  cases h with | @probe _ t₄ h h₄ =>
  cases h with | @added _ snapshot command t₃ h h₃ hok hadd =>
  cases h with | @addIntent _ t₂ h h₂ =>
  cases h with | @created _ profile sid hresult t₁ h h₁ =>
  cases h
  exact ⟨profile, sid, hresult, t₁, t₂, snapshot, command, t₃, t₄, current, t₅, command', t₆, rfl,
    by simp [h₁, h₂, h₃, h₄, h₅, h₆], hok, hadd⟩

/-! ## Receipts -/

/-- A character that `ensure_ascii` leaves as it is. -/
def isAscii (c : CodePoint) : Bool :=
  c.ord < 0x7F

theorem dumpsAscii_eq {v : Json} (h : v.dumps.all isAscii = true) : v.dumpsAscii = v.dumps := by
  have hchar : ∀ c ∈ v.dumps, Json.asciiChar c = [c] := by
    intro c hc
    exact if_pos (of_decide_eq_true (List.all_eq_true.mp h c hc))
  rw [Json.dumpsAscii, List.flatMap_congr hchar, List.flatMap_singleton']

theorem all_isAscii_quote {s : PyStr} (h : s.all isAscii = true) :
    (quote s).all isAscii = true := by
  have hescape : ∀ n < 0x7F, ∀ t ∈ escapeDct n, (ofChars t).all isAscii = true := by decide
  have hchar : ∀ c ∈ s, (escapeChar c).all isAscii = true := by
    intro c hc
    have hascii := List.all_eq_true.mp h c hc
    unfold escapeChar
    split
    · next t ht => exact hescape c.ord (of_decide_eq_true hascii) t ht
    · simpa using hascii
  have hquote : isAscii '"' = true := by decide
  simp only [quote, List.all_cons, List.all_append, List.all_flatMap, List.all_nil, hquote,
    Bool.true_and, Bool.and_true]
  exact List.all_eq_true.mpr hchar

/-- The text of an object of scalars. -/
theorem all_isAscii_obj {ms : Members}
    (h : ∀ m ∈ ms, m.1.all isAscii = true ∧ m.2.canonical = m.2 ∧ m.2.render.all isAscii = true) :
    (Json.obj ms).dumps.all isAscii = true := by
  have hrest : ∀ xs : List PyStr, (∀ x ∈ xs, x.all isAscii = true) →
      (joinRest '\x7d' xs).all isAscii = true := by
    intro xs hxs
    induction xs with
    | nil => decide
    | cons x xs ih =>
      obtain ⟨hx, hxs⟩ := List.forall_mem_cons.mp hxs
      have hcomma : isAscii ',' = true := by decide
      rw [joinRest, List.all_cons, List.all_append, hx, ih hxs, hcomma]
      rfl
  have hitems : ∀ xs : List PyStr, (∀ x ∈ xs, x.all isAscii = true) →
      (joinItems '\x7d' xs).all isAscii = true := by
    intro xs hxs
    cases xs with
    | nil => decide
    | cons x xs =>
      obtain ⟨hx, hxs⟩ := List.forall_mem_cons.mp hxs
      rw [joinItems, List.all_append, hx, hrest xs hxs]
      rfl
  have hvalues : ms.map (fun m => (m.1, m.2.canonical)) = ms := by
    refine (List.map_congr_left fun m hm => ?_).trans (List.map_id ms)
    exact Prod.ext rfl (h m hm).2.1
  rw [Json.dumps, Json.canonical_obj, hvalues, Json.render, List.all_cons, Json.renderMembers_eq,
    hitems]
  · rfl
  · intro x hx
    obtain ⟨m, hm, rfl⟩ := List.mem_map.mp hx
    obtain ⟨hkey, -, hvalue⟩ := h m (ms.sort_perm.subset hm)
    have hcolon : isAscii ':' = true := by decide
    rw [Json.renderMember, List.all_append, List.all_cons, all_isAscii_quote hkey, hvalue, hcolon]
    rfl

theorem all_isAscii_of_isHexText {n : ℕ} {s : PyStr} (h : isHexText n s = true) :
    s.all isAscii = true := by
  simp only [isHexText, Bool.and_eq_true, List.all_eq_true, Bool.or_eq_true,
    decide_eq_true_eq] at h
  refine List.all_eq_true.mpr fun c hc => decide_eq_true ?_
  have hdigit := h.2 c hc
  omega

/-- The first error that a receipt shows. -/
def shownError (s : State) (live : Bool) : Json :=
  match s.firstError with
  | some error => .str error.name
  | none => if live then .null else .str "deadline"

/-- A receipt shows the name of a failure, or nothing. -/
theorem shownError_cases (s : State) (live : Bool) :
    shownError s live = .null ∨ ∃ error : Failure, shownError s live = .str error.name := by
  unfold shownError
  split
  · next error _ => exact Or.inr ⟨error, rfl⟩
  · cases live
    · exact Or.inr ⟨.deadline, rfl⟩
    · exact Or.inl rfl

/-- The failures. -/
def failures : List Failure :=
  [.addFailed, .deadline, .addDelta, .probeFailed, .foreignDelta, .ownerConflict, .unreaped,
    .cleanupFailed, .observationFailed]

/-- The members of receipts, without the digest. -/
def fixedMembers : Members :=
  failures.map (fun error => (lit "first_error", Json.str error.name)) ++
    [(lit "schema_version", .int 1), (lit "scope", .str "positive_loopback_software_policy"),
      (lit "status", .str "modeled"), (lit "status", .str "unknown"),
      (lit "modeled_restoration", .bool true), (lit "modeled_restoration", .bool false),
      (lit "native_authorized", .bool false), (lit "native_restoration_verified", .null),
      (lit "first_error", .null)]

theorem fixedMembers_short : ∀ m ∈ fixedMembers, m.1.all isAscii = true ∧
    m.2.render.all isAscii = true ∧ Json.memberWeight m ≤ 45 := by
  decide

theorem mem_receipt {s : State} {live : Bool} {m : PyStr × Json} (h : m ∈ receipt s live) :
    m = (lit "binding", .str s.manifest.digest) ∨ m ∈ fixedMembers := by
  have hfailures : ∀ error : Failure, (lit "first_error", Json.str error.name) ∈ fixedMembers := by
    intro error
    refine List.mem_append_left _ (List.mem_map.mpr ⟨error, ?_, rfl⟩)
    cases error <;> simp [failures]
  rw [receipt, List.mem_cons, List.mem_cons, List.mem_cons, List.mem_cons, List.mem_cons,
    List.mem_cons, List.mem_cons, List.mem_singleton] at h
  rcases h with rfl | rfl | rfl | rfl | rfl | rfl | rfl | rfl
  · right
    simp [fixedMembers]
  · right
    simp [fixedMembers]
  · left
    rfl
  · right
    split_ifs <;> simp [fixedMembers]
  · right
    cases s.modeledRestoration <;> simp [fixedMembers]
  · right
    simp [fixedMembers]
  · right
    simp [fixedMembers]
  · right
    split
    · exact hfailures _
    · split_ifs
      · simp [fixedMembers]
      · exact hfailures .deadline

/-- The values of a receipt are scalars. -/
theorem canonical_of_mem_fixedMembers {m : PyStr × Json} (h : m ∈ fixedMembers) :
    m.2.canonical = m.2 ∧ m.2.Plain := by
  have hplain : (Nat.toDigits 10 1).length ≤ intMaxStrDigits := by decide
  simp only [fixedMembers, List.mem_append, List.mem_cons, List.mem_map, List.not_mem_nil,
    or_false] at h
  rcases h with ⟨error, -, rfl⟩ | rfl | rfl | rfl | rfl | rfl | rfl | rfl | rfl | rfl
  · exact ⟨rfl, trivial⟩
  · exact ⟨rfl, hplain⟩
  all_goals exact ⟨rfl, trivial⟩

/-- What stands in a receipt is ASCII text. -/
theorem receipt_ascii (s : State) (live : Bool) : ∀ m ∈ receipt s live,
    m.1.all isAscii = true ∧ m.2.canonical = m.2 ∧ m.2.render.all isAscii = true := by
  intro m hm
  rcases mem_receipt hm with rfl | hm
  · have hdigest := all_isAscii_of_isHexText (isHexText_sha256 (jsonBytes s.manifest.toDict))
    exact ⟨show (lit "binding").all isAscii = true by decide, rfl, all_isAscii_quote hdigest⟩
  · obtain ⟨hkey, hvalue, -⟩ := fixedMembers_short m hm
    exact ⟨hkey, (canonical_of_mem_fixedMembers hm).1, hvalue⟩

/-- The wire of a receipt is its canonical text. -/
theorem dumpsAscii_receipt (s : State) (live : Bool) :
    (Json.obj (receipt s live)).dumpsAscii = (Json.obj (receipt s live)).dumps :=
  dumpsAscii_eq (all_isAscii_obj (receipt_ascii s live))

theorem memberWeight_digest (m : Manifest) :
    Json.memberWeight (lit "binding", .str m.digest) = 76 := by
  have hhex : isHexText 64 m.digest = true := isHexText_sha256 _
  simp only [isHexText, Bool.and_eq_true, beq_iff_eq, List.all_eq_true, Bool.or_eq_true,
    decide_eq_true_eq] at hhex
  have hones : (m.digest.map escapedLength).sum = 64 := by
    rw [List.map_congr_left fun c hc => escapedLength_hex (hhex.2 c hc)]
    simp [hhex.1]
  have hkey : byteLength (quote "binding") = 9 := by decide
  rw [Json.memberWeight, hkey, Json.weight_scalar (t := .str m.digest) rfl, Token.weight_str,
    byteLength_quote, hones]

/-- A receipt is shorter than its limit. -/
theorem length_receipt (s : State) (live : Bool) :
    (jsonBytes (.obj (receipt s live))).length ≤ maxReceiptBytes := by
  have hplain : (Json.obj (receipt s live)).Plain := by
    refine Json.plain_obj.mpr fun m hm => ?_
    rcases mem_receipt hm with rfl | hm
    · exact trivial
    · exact (canonical_of_mem_fixedMembers hm).2
  have hweight : ∀ m ∈ receipt s live,
      Json.memberWeight m ≤ if m.1 = lit "binding" then 76 else 45 := by
    intro m hm
    rcases mem_receipt hm with rfl | hm
    · exact (memberWeight_digest s.manifest).le
    · have hshort := (fixedMembers_short m hm).2.2
      split_ifs <;> omega
  have hlength : (jsonBytes (.obj (receipt s live))).length = (Json.obj (receipt s live)).weight := by
    rw [jsonBytes, dumpsAscii_receipt]
    change byteLength (Json.obj (receipt s live)).canonical.render = _
    rw [Json.byteLength_render _ hplain.canonical, Json.weight_canonical]
  have hsum := List.sum_le_sum hweight
  simp only [receipt, List.map_cons, List.map_nil, List.sum_cons, List.sum_nil, lit_inj,
    String.reduceEq, if_true, if_false] at hsum
  rw [hlength, Json.weight_obj]
  simp only [receipt, List.map_cons, List.map_nil, List.sum_cons, List.sum_nil, List.length_cons,
    List.length_nil, maxReceiptBytes]
  omega

/-- The wire is the canonical text of an object with this value under the key. -/
def Says (wire : Bytes) (key : PyStr) (value : Json) : Prop :=
  ∃ ms : Members, wire = encodePass (Json.obj ms).dumps ∧ Members.get ms key = value

/-- A wire says under a key what the receipt has there. -/
theorem same_of_says {s : State} {live : Bool} {key : PyStr} {value : Json}
    (h : Says (jsonBytes (.obj (receipt s live))) key value) :
    Json.Same (Members.get (receipt s live) key) value := by
  obtain ⟨ms, hwire, rfl⟩ := h
  rw [jsonBytes, dumpsAscii_receipt] at hwire
  exact same_fieldOf (Json.dumps_inj.mp (encodePass_injective hwire)) key

theorem says_receipt (s : State) (live : Bool) (key : PyStr) :
    Says (jsonBytes (.obj (receipt s live))) key (Members.get (receipt s live) key) := by
  refine ⟨receipt s live, ?_, rfl⟩
  rw [jsonBytes, dumpsAscii_receipt]

theorem get_native (s : State) (live : Bool) :
    Members.get (receipt s live) "native_authorized" = .bool false := by
  simp [receipt, Members.get]

theorem get_status (s : State) (live : Bool) :
    Members.get (receipt s live) "status" = .str (if live && s.phase == .restored &&
      s.modeledRestoration && s.bothNonceReceived && s.firstError.isNone then lit "modeled"
      else lit "unknown") := by
  simp [receipt, Members.get]

theorem eq_bool_of_same {b : Bool} {value : Json} (h : Json.Same (.bool b) value) :
    value = .bool b := by
  cases value <;> simp_all [Json.Same, Json.canonical]

/-- A receipt that says `modeled` is about a restored state without an error. -/
theorem modeled_of_says {s : State} {live : Bool}
    (h : Says (jsonBytes (.obj (receipt s live))) "status" (.str "modeled")) :
    live = true ∧ s.phase = .restored ∧ s.bothNonceReceived = true ∧ s.firstError = none := by
  have hstatus := same_of_says h
  rw [get_status] at hstatus
  have htext := Json.str.inj (eq_str_of_same hstatus)
  split_ifs at htext with hpassed
  · simp only [Bool.and_eq_true, beq_iff_eq, Option.isNone_iff_eq_none] at hpassed
    exact ⟨hpassed.1.1.1.1, hpassed.1.1.1.2, hpassed.1.2, hpassed.2⟩
  · simp at htext

theorem encodeReceipt_eq_ok {s : State} {nowMs : ℤ} {wire : Bytes} :
    encodeReceipt s nowMs = .ok wire ↔
      ∃ live, checkClock s.manifest nowMs = .ok live ∧ wire = jsonBytes (.obj (receipt s live)) := by
  simp only [encodeReceipt, bind_eq_ok, require_eq_ok, exists_const, length_receipt, decide_true,
    true_and, pure, Except.pure, Except.ok.injEq]
  exact exists_congr fun live => and_congr_right fun _ => eq_comm

/-- A modeled receipt is earned : whatever the calls after `begin`, and whichever of them raise, a
receipt that says `modeled` comes after a run in which nothing failed, and is in time itself. An
error stays the first error of every state after it. No receipt says that anything was authorized
natively, and none is too long. -/
theorem receipt_earned (start : Start) (s : State)
    (hbegin : begin start.manifest start.first start.second start.nowMs = .ok s) (ops : List Op) :
    (∀ final nowMs wire, (run s ops).2 = .state final → encodeReceipt final nowMs = .ok wire →
      Says wire "status" (.str "modeled") → Earned start (run s ops).1 ∧ start.InTime nowMs) ∧
    (∀ more e, (run s ops).2.current.firstError = some e →
      (run s (ops ++ more)).2.current.firstError = some e) ∧
    ∀ final nowMs, (∀ wire, encodeReceipt final nowMs = .ok wire →
      (∀ value, Says wire "native_authorized" value ↔ value = .bool false) ∧ wire.length ≤ 500) ∧
      encodeReceipt final nowMs ≠ .error .receiptSize := by
  refine ⟨fun final nowMs wire hfinal hwire hsays => ?_, fun more e he => ?_, fun final nowMs =>
    ⟨fun wire hwire => ?_, ?_⟩⟩
  · obtain ⟨live, hclock, rfl⟩ := (encodeReceipt_eq_ok).mp hwire
    obtain ⟨rfl, hphase, hboth, hnone⟩ := modeled_of_says hsays
    have htracked : PositiveLoopback.Tracked start (run s ops).1 final := by
      have := tracked_run hbegin ops
      rwa [hfinal] at this
    have hpath := htracked.path hnone (Or.inl hboth)
    rw [hphase] at hpath
    have htime := of_decide_eq_true (checkClock_eq_ok hclock).symm
    rw [htracked.manifest] at htime
    exact ⟨earned_of_path hbegin hpath, htime⟩
  · rw [run, List.foldl_append]
    exact (keeps_foldl more _).error e he
  · obtain ⟨live, -, rfl⟩ := (encodeReceipt_eq_ok).mp hwire
    refine ⟨fun value => ⟨fun hsays => ?_, ?_⟩, length_receipt final live⟩
    · have hsame := same_of_says hsays
      rw [get_native] at hsame
      exact eq_bool_of_same hsame
    · rintro rfl
      have hsays := says_receipt final live "native_authorized"
      rwa [get_native] at hsays
  · intro herror
    cases hclock : checkClock final.manifest nowMs with
    | ok live =>
      rw [(encodeReceipt_eq_ok).mpr ⟨live, hclock, rfl⟩] at herror
      cases herror
    | error e =>
      rw [encodeReceipt, hclock] at herror
      obtain rfl := Except.error.inj herror
      simp only [checkClock, bind_eq_error, require_eq_error, pure, Except.pure, reduceCtorEq,
        and_false, exists_false, or_false] at hclock

/-! ### A sample run -/

def sampleSid (last : String) : PyStr :=
  lit "S-1-15-2-" ++ lit last

def sampleManifest : Manifest where
  admission := ⟨true, true, true, true, true, rfl⟩
  repository := "ayukyo/icode"
  sourceSha := List.replicate 40 (.scalar 'a')
  runId := "1"
  runAttempt := 1
  job := "windows-reviewer-snapshot-probe"
  matrix := "x64"
  accountSid := "S-1-5-21-1"
  pid := 1
  processCreated := 1
  positiveProfile := lit "icode-" ++ List.replicate 32 (.scalar 'a')
  reviewerProfile := lit "icode-" ++ List.replicate 32 (.scalar 'b')
  positiveSid := sampleSid "1"
  reviewerSid := sampleSid "2"
  nonce := List.replicate 32 (.scalar 'c')
  ipv4Port := 1
  ipv6Port := 1
  startedMs := 0
  deadlineMs := 60000
  valid := by decide

def emptySnapshot : Snapshot where
  entries := []
  size := by decide
  sids := by simp
  distinct := by simp
  sorted := by simp

/-- The snapshot after the add. -/
def sampleSnapshot : Snapshot where
  entries := [(sampleSid "1", 0)]
  size := by decide
  sids := by simp [isUint, uint32Max]
  distinct := by simp
  sorted := by simp

def sampleCommand : CommandResult :=
  ⟨some 0, false, true, by decide⟩

def sampleStart : Start :=
  ⟨sampleManifest, emptySnapshot, emptySnapshot, 0⟩

def sampleOps : List Op :=
  [.profileCreated sampleManifest.positiveProfile sampleManifest.positiveSid 0 1, .addIntent 2,
    .addObserved sampleSnapshot sampleCommand 3, .probeObserved [probePayload sampleManifest]
      [probePayload sampleManifest] true true 0 4, .cleanupPlan sampleSnapshot true 5,
    .cleanupComplete emptySnapshot (some sampleCommand) 6]

/-- The run begins, and ends restored. -/
def isRestored (start : Start) (ops : List Op) : Bool :=
  match begin start.manifest start.first start.second start.nowMs with
  | .ok s =>
    match (run s ops).2 with
    | .state final =>
      final.phase == .restored && final.modeledRestoration && final.bothNonceReceived &&
        final.firstError.isNone
    | .plan _ => false
  | .error _ => false

theorem isRestored_sample : isRestored sampleStart sampleOps = true := by
  decide

theorem says_modeled {s : State} (hphase : s.phase = .restored)
    (hrestoration : s.modeledRestoration = true) (hboth : s.bothNonceReceived = true)
    (hnone : s.firstError = none) :
    Says (jsonBytes (.obj (receipt s true))) "status" (.str "modeled") := by
  have hsays := says_receipt s true "status"
  rw [get_status, hphase, hrestoration, hboth, hnone] at hsays
  exact hsays

theorem receipt_earned_sample : ∃ s final wire,
    begin sampleManifest emptySnapshot emptySnapshot 0 = .ok s ∧
      (run s sampleOps).2 = .state final ∧ encodeReceipt final 7 = .ok wire ∧
      Says wire "status" (.str "modeled") ∧ Earned sampleStart (run s sampleOps).1 := by
  have hrestored := isRestored_sample
  unfold isRestored at hrestored
  split at hrestored
  · next s hbegin =>
    split at hrestored
    · next final hfinal =>
      simp only [Bool.and_eq_true, beq_iff_eq, Option.isNone_iff_eq_none] at hrestored
      obtain ⟨⟨⟨hphase, hrestoration⟩, hboth⟩, hnone⟩ := hrestored
      have htracked := tracked_run hbegin sampleOps
      rw [hfinal] at htracked
      have hclock : checkClock final.manifest 7 = .ok true := by
        rw [PositiveLoopback.Tracked.manifest htracked]
        rfl
      have hwire := (encodeReceipt_eq_ok).mpr ⟨true, hclock, rfl⟩
      have hsays := says_modeled hphase hrestoration hboth hnone
      obtain ⟨hearned, -⟩ := receipt_earned sampleStart s hbegin sampleOps
      exact ⟨s, final, _, hbegin, hfinal, hwire, hsays, (hearned final 7 _ hfinal hwire hsays).1⟩
    · cases hrestored
  · cases hrestored

end Icode.PositiveLoopback
