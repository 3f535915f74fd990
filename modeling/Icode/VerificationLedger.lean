import Icode.RepairFingerprint
import Icode.JsonLength
import Icode.JsonLine
import Icode.PyValue

/-!
# The ledger of verifications

`VerificationLedger.record` keeps the key of every verification, and `hasNewEvidence` asks whether
the key of an evidence is there. The key is the repair fingerprint of an engineering evidence
(`engineeringReceipt`), and of any other the digest of its facts (`evidenceFingerprint`).

`record` completes an empty environment fingerprint with that of the ledger before it takes the
key, and `hasNewEvidence` does not : an evidence without an environment fingerprint stays new
after it was recorded. `hasNewEvidence_record_iff` says when the ledger remembers.
-/

namespace Icode

open Py

/-! ## Evidence -/

/-- A value of `engineering_facts` : a scalar, or a tuple of values. -/
inductive Frozen where
  | null
  | bool (b : Bool)
  | int (n : ℤ)
  | float (x : PyFloat)
  | str (s : PyStr)
  | tuple (xs : List Frozen)

/-- `VerificationEvidence` -/
structure VerificationEvidence where
  step : PyStr
  attempt : PyStr
  kind : PyStr
  command : List PyStr
  exitCode : Option ℤ
  output : PyStr
  environmentFingerprint : PyStr
  artifactHashes : Dict PyStr PyStr
  diffFingerprint : PyStr
  baseCommitSha : PyStr
  initialWorktreeFingerprint : PyStr
  testedWorktreeFingerprint : PyStr
  gitObjectFormat : PyStr
  testHeadBeforeSha : PyStr
  testHeadAfterSha : PyStr
  testHeadStatus : PyStr
  testedGitTreeOid : PyStr
  testedGitTreeStatus : PyStr
  resultCommitSha : PyStr
  resultCommitTreeOid : PyStr
  resultCommitTreeStatus : PyStr
  resultCommitTimingStatus : PyStr
  resultCommitCheckedAt : PyStr
  category : PyStr
  capturedAt : PyStr
  rawError : PyStr
  engineeringFacts : Option (List Frozen)

/-- What the ledger raises; all of these are `ValueError`s. -/
inductive LedgerError where
  /-- max_attempts must be >= 1 -/
  | maxAttempts
  /-- engineering evidence exceeds its shape/byte budget -/
  | budget
  /-- invalid frozen engineering facts, object or container -/
  | frozen
  /-- invalid engineering fact fields -/
  | factFields
  /-- invalid engineering run facts -/
  | runFacts
  /-- engineering base outcome contradicts frozen observations -/
  | outcome
  /-- A text or a number cannot be written. -/
  | encode
  | receipt (e : ReceiptError)

/-- `json.dumps(artifact_hashes)`, as a value. -/
def VerificationEvidence.artifacts (e : VerificationEvidence) : Json :=
  .obj (e.artifactHashes.map fun m => (m.1, .str m.2))

/-- `evidence.output_sha256` -/
def VerificationEvidence.outputSha256 (e : VerificationEvidence) : Except LedgerError PyStr := do
  let raw ← orRaise (Py.encode e.output) .encode
  pure (sha256 raw)

/-! ## Frozen facts -/

mutual

/-- `_thaw` -/
def thaw : Frozen → Except LedgerError Json
  | .null => .ok .null
  | .bool b => .ok (.bool b)
  | .int n => .ok (.int n)
  | .float x => .ok (.float x)
  | .str s => .ok (.str s)
  | .tuple [.str tag, .tuple items] =>
    if tag = lit "object" then (thawMembers [] items).map .obj
    else if tag = lit "array" then (thawList items).map .arr
    else .error .frozen
  | .tuple _ => .error .frozen

def thawList : List Frozen → Except LedgerError (List Json)
  | [] => .ok []
  | x :: xs => do
    let v ← thaw x
    let vs ← thawList xs
    pure (v :: vs)

/-- The loop over the pairs of an object. -/
def thawMembers (result : Members) : List Frozen → Except LedgerError Members
  | [] => .ok result
  | .tuple [.str key, value] :: pairs =>
    if result.has key then .error .frozen
    else do
      let v ← thaw value
      thawMembers (result ++ [(key, v)]) pairs
  | _ :: _ => .error .frozen

end

mutual

/-- A frozen value as the encoder writes it. -/
def Frozen.toJson : Frozen → Json
  | .null => .null
  | .bool b => .bool b
  | .int n => .int n
  | .float x => .float x
  | .str s => .str s
  | .tuple xs => .arr (Frozen.toJsonList xs)

def Frozen.toJsonList : List Frozen → List Json
  | [] => []
  | x :: xs => x.toJson :: Frozen.toJsonList xs

end

/-! ## The budget -/

/-- `integer_size_bytes` -/
def integerSizeBytes (n : ℤ) : ℕ :=
  max 1 (n.natAbs.size * 30103 / 100000 + 1) + if n < 0 then 1 else 0

mutual

/-- The bytes that `visit` adds for the scalars and the keys of a value. -/
def scalarBytes : Json → ℕ
  | .null => 4
  | .bool b => if b then 4 else 5
  | .int n => integerSizeBytes n
  | .float x => x.repr.length
  | .str s => byteLength (quote s)
  | .arr xs => scalarBytesList xs
  | .obj ms => scalarBytesMembers ms

def scalarBytesList : List Json → ℕ
  | [] => 0
  | x :: xs => scalarBytes x + scalarBytesList xs

def scalarBytesMembers : Members → ℕ
  | [] => 0
  | (k, x) :: ms => byteLength (quote k) + scalarBytes x + scalarBytesMembers ms

end

mutual

/-- Every integer of the value can be written. -/
def writable : Json → Bool
  | .int n => (intText? n).isSome
  | .arr xs => writableList xs
  | .obj ms => writableMembers ms
  | _ => true

def writableList : List Json → Bool
  | [] => true
  | x :: xs => writable x && writableList xs

def writableMembers : Members → Bool
  | [] => true
  | (_, x) :: ms => writable x && writableMembers ms

end

/-- `_budget(value)` : the value is written within the limits of a file of receipts. -/
def requireBudget (value : Json) : Except LedgerError Unit := do
  require (finite value && scalarBytes value ≤ maxVerificationsJsonBytes &&
    value.depth ≤ maxJsonContainerDepth && value.structuralTokens ≤ maxJsonStructuralTokens)
    .budget
  require (writable value) .budget
  let raw ← orRaise (Py.encode (indentFile value)) .budget
  require (raw.length ≤ maxVerificationsJsonBytes) .budget

/-- `{k: v for k, v in vars(evidence).items() if k not in {"output", "raw_error"}}` -/
def VerificationEvidence.source (e : VerificationEvidence) : Json :=
  .obj [("step", .str e.step), ("attempt", .str e.attempt), ("kind", .str e.kind),
    ("command", .arr (e.command.map .str)), ("exit_code", exitCodeJson e.exitCode),
    ("environment_fingerprint", .str e.environmentFingerprint),
    ("artifact_hashes", e.artifacts), ("diff_fingerprint", .str e.diffFingerprint),
    ("base_commit_sha", .str e.baseCommitSha),
    ("initial_worktree_fingerprint", .str e.initialWorktreeFingerprint),
    ("tested_worktree_fingerprint", .str e.testedWorktreeFingerprint),
    ("git_object_format", .str e.gitObjectFormat),
    ("test_head_before_sha", .str e.testHeadBeforeSha),
    ("test_head_after_sha", .str e.testHeadAfterSha), ("test_head_status", .str e.testHeadStatus),
    ("tested_git_tree_oid", .str e.testedGitTreeOid),
    ("tested_git_tree_status", .str e.testedGitTreeStatus),
    ("result_commit_sha", .str e.resultCommitSha),
    ("result_commit_tree_oid", .str e.resultCommitTreeOid),
    ("result_commit_tree_status", .str e.resultCommitTreeStatus),
    ("result_commit_timing_status", .str e.resultCommitTimingStatus),
    ("result_commit_checked_at", .str e.resultCommitCheckedAt), ("category", .str e.category),
    ("captured_at", .str e.capturedAt),
    ("engineering_facts",
      (e.engineeringFacts.map fun xs => .arr (Frozen.toJsonList xs)).getD .null)]

/-! ## Engineering receipts -/

/-- The texts of the evidence that a binding carries, under the names of the binding, but for the
kind and the attempt of the run. -/
def VerificationEvidence.bindingTexts (e : VerificationEvidence) : List (PyStr × PyStr) :=
  [("step", e.step), ("attempt", e.attempt), ("environment_fingerprint", e.environmentFingerprint),
    ("diff_fingerprint", e.diffFingerprint), ("base_commit_sha", e.baseCommitSha),
    ("initial_worktree_fingerprint", e.initialWorktreeFingerprint),
    ("tested_worktree_fingerprint", e.testedWorktreeFingerprint),
    ("git_object_format", e.gitObjectFormat), ("test_head_before_sha", e.testHeadBeforeSha),
    ("test_head_after_sha", e.testHeadAfterSha), ("test_head_status", e.testHeadStatus),
    ("tested_git_tree_oid", e.testedGitTreeOid),
    ("tested_git_tree_status", e.testedGitTreeStatus), ("result_commit_sha", e.resultCommitSha),
    ("result_commit_tree_oid", e.resultCommitTreeOid),
    ("result_commit_tree_status", e.resultCommitTreeStatus),
    ("result_commit_timing_status", e.resultCommitTimingStatus),
    ("result_commit_checked_at", e.resultCommitCheckedAt), ("captured_at", e.capturedAt)]

/-- The binding of an evidence with the digests. -/
def VerificationEvidence.binding (e : VerificationEvidence)
    (executionAttempt command artifacts output : PyStr) : Members :=
  let digests : Members :=
    [("verify_kind", .str e.kind), ("execution_attempt", .str executionAttempt),
      ("exit_code", exitCodeJson e.exitCode), ("command_sha256", .str command),
      ("artifact_hashes_sha256", .str artifacts), ("output_sha256", .str output)]
  (e.bindingTexts.map fun m => (m.1, Json.str m.2)) ++ digests

/-- `"0" * 64` -/
def zeroDigest : PyStr :=
  List.replicate 64 (.scalar '0')

/-- `_public_binding` -/
def publicBinding (e : VerificationEvidence) (executionAttempt : PyStr) (digests : Bool) :
    Except LedgerError Members := do
  let _ ← mapAll (fun m => (engineeringText (.str m.2) false 8192).mapError .receipt)
    e.bindingTexts
  if digests then do
    let command ← (engineeringDigest (.arr (e.command.map .str))).mapError .receipt
    let artifacts ← (engineeringDigest e.artifacts).mapError .receipt
    let output ← e.outputSha256
    pure (e.binding executionAttempt command artifacts output)
  else pure (e.binding executionAttempt zeroDigest zeroDigest zeroDigest)

/-- The digests and the outcome that a row carries. -/
structure RowLabels where
  publicProjectionDigest : PyStr
  fingerprint : PyStr
  repairFingerprint : PyStr
  category : PyStr
  passed : Bool

/-- The row of a receipt. -/
def receiptRow (binding : Members) (plan run : Json) (labels : RowLabels) : Members :=
  [("kind", .str "engineering_verification"), ("schema_version", .int 1),
    ("coverage", .obj engineeringCoverage), ("binding", .obj binding), ("public_plan", plan),
    ("run", run), ("public_projection_digest", .str labels.publicProjectionDigest),
    ("fingerprint", .str labels.fingerprint),
    ("repair_fingerprint", .str labels.repairFingerprint), ("category", .str labels.category),
    ("passed", .bool labels.passed)]

/-- `engineering_receipt` -/
def engineeringReceipt (e : VerificationEvidence) (engineeringFacts : List Frozen) :
    Except LedgerError Members := do
  requireBudget e.source
  let facts ← thaw (.tuple engineeringFacts)
  match facts with
  | .obj facts =>
    require (Members.keysAre facts ["public_plan", "run"]) .factFields
    let plan := Members.get facts "public_plan"
    match Members.get facts "run" with
    | .obj run =>
      let attempt ← (engineeringText (Members.get run "attempt") true 256).mapError .receipt
      let binding ← publicBinding e attempt false
      let blank : RowLabels := ⟨[], [], [], e.category, false⟩
      let _ ← (checkReceipt (.obj (receiptRow binding plan (.obj run) blank))).mapError .receipt
      let binding ← publicBinding e attempt true
      let values ← (engineeringReceiptValues
        (.obj (receiptRow binding plan (.obj run) blank))).mapError .receipt
      let row := receiptRow binding plan (.obj run) ⟨values.publicProjectionDigest,
        values.fingerprint, values.repairFingerprint, values.category, values.passed⟩
      require (e.category == values.category && e.exitCode == values.bindingExitCode) .outcome
      let _ ← (validateEngineeringReceipt (.obj row) none).mapError .receipt
      pure row
    | _ => throw .runFacts
  | _ => throw .factFields

/-! ## The ledger -/

/-- The facts that `evidence_fingerprint` digests. -/
def VerificationEvidence.payload (e : VerificationEvidence) (outputSha256 : PyStr) : Json :=
  .obj [("step", .str e.step), ("kind", .str e.kind), ("command", .arr (e.command.map .str)),
    ("exit_code", exitCodeJson e.exitCode), ("output_sha256", .str outputSha256),
    ("environment_fingerprint", .str e.environmentFingerprint),
    ("artifact_hashes", e.artifacts), ("diff_fingerprint", .str e.diffFingerprint),
    ("base_commit_sha", .str e.baseCommitSha),
    ("initial_worktree_fingerprint", .str e.initialWorktreeFingerprint),
    ("tested_worktree_fingerprint", .str e.testedWorktreeFingerprint),
    ("git_object_format", .str e.gitObjectFormat),
    ("test_head_before_sha", .str e.testHeadBeforeSha),
    ("test_head_after_sha", .str e.testHeadAfterSha), ("test_head_status", .str e.testHeadStatus),
    ("tested_git_tree_oid", .str e.testedGitTreeOid),
    ("tested_git_tree_status", .str e.testedGitTreeStatus),
    ("result_commit_sha", .str e.resultCommitSha),
    ("result_commit_tree_oid", .str e.resultCommitTreeOid),
    ("result_commit_tree_status", .str e.resultCommitTreeStatus),
    ("result_commit_timing_status", .str e.resultCommitTimingStatus),
    ("category", .str e.category)]

/-- The bytes of the facts. -/
def VerificationEvidence.payloadBytes (e : VerificationEvidence) : Except LedgerError Bytes := do
  let output ← e.outputSha256
  require (e.exitCode.all fun n => (intText? n).isSome) .encode
  orRaise (Py.encode (Json.dumps (e.payload output))) .encode

/-- `_repair_key`; `evidence_fingerprint` of an evidence without engineering facts. -/
def repairKey (e : VerificationEvidence) : Except LedgerError PyStr :=
  match e.engineeringFacts with
  | some facts => do
    let row ← engineeringReceipt e facts
    orRaise (Members.get row "repair_fingerprint").text? .encode
  | none => do
    let raw ← e.payloadBytes
    pure (sha256 raw)

/-- `VerificationLedger`; its environment fingerprint is never empty. -/
structure VerificationLedger where
  maxAttempts : ℕ
  environmentFingerprint : PyStr
  entries : List VerificationEvidence
  seenFingerprints : List PyStr
  environment_ne : environmentFingerprint ≠ []

/-- `VerificationLedger(max_attempts=…, env=…)` on a host whose description
`environment_fingerprint` digests. -/
def VerificationLedger.new (host : Bytes) (maxAttempts : ℤ) (env : PyStr) :
    Except LedgerError VerificationLedger :=
  if maxAttempts < 1 then .error .maxAttempts
  else if h : env = [] then
    .ok ⟨maxAttempts.toNat, sha256 host, [], [], by
      intro hnil
      have := isHexText_sha256 host
      rw [hnil] at this
      exact absurd this (by decide)⟩
  else .ok ⟨maxAttempts.toNat, env, [], [], h⟩

/-- The evidence as the ledger keeps it. -/
def VerificationLedger.bind (ledger : VerificationLedger) (now : PyStr)
    (e : VerificationEvidence) : VerificationEvidence :=
  { e with
    attempt := ofChars (intText (ledger.entries.length + 1))
    environmentFingerprint :=
      if e.engineeringFacts.isSome then e.environmentFingerprint
      else if e.environmentFingerprint.isEmpty then ledger.environmentFingerprint
      else e.environmentFingerprint
    capturedAt := if e.capturedAt.isEmpty then now else e.capturedAt }

/-- `record` -/
def VerificationLedger.record (ledger : VerificationLedger) (now : PyStr)
    (e : VerificationEvidence) :
    Except LedgerError (VerificationLedger × VerificationEvidence) := do
  let bound := ledger.bind now e
  let key ← repairKey bound
  let seen := if ledger.seenFingerprints.contains key then ledger.seenFingerprints
    else ledger.seenFingerprints ++ [key]
  pure ({ ledger with entries := ledger.entries ++ [bound], seenFingerprints := seen }, bound)

/-- `has_new_evidence` -/
def VerificationLedger.hasNewEvidence (ledger : VerificationLedger) (e : VerificationEvidence) :
    Except LedgerError Bool := do
  let fingerprint ← repairKey e
  pure !ledger.seenFingerprints.contains fingerprint

/-! ## What a key does not depend on -/

/-- The evidence differs from `e` at most in the number of the attempt and in the time. -/
def VerificationEvidence.Like (e e' : VerificationEvidence) : Prop :=
  e' = { e with attempt := e'.attempt, capturedAt := e'.capturedAt }

section Like

variable {e e' : VerificationEvidence}

theorem VerificationEvidence.Like.payloadBytes_eq (h : e.Like e') :
    e'.payloadBytes = e.payloadBytes := by
  rw [h]
  rfl

theorem VerificationEvidence.Like.facts_eq (h : e.Like e') :
    e'.engineeringFacts = e.engineeringFacts := by
  rw [h]

theorem VerificationEvidence.Like.get_binding (h : e.Like e')
    (attempt command artifacts output : PyStr) {k : PyStr} (hk : k ∉ bindingLabels) :
    Members.get (e'.binding attempt command artifacts output) k =
      Members.get (e.binding attempt command artifacts output) k := by
  have hattempt : lit "attempt" ≠ k := by
    rintro rfl
    exact hk (by simp [bindingLabels])
  have hcaptured : lit "captured_at" ≠ k := by
    rintro rfl
    exact hk (by simp [bindingLabels])
  rw [h]
  simp [VerificationEvidence.binding, VerificationEvidence.bindingTexts, Members.get,
    Dict.get?_cons, hattempt, hcaptured]

end Like

theorem map_eq_ok {ε α β : Type} {x : Except ε α} {f : α → β} {b : β} :
    x.map f = .ok b ↔ ∃ a, x = .ok a ∧ f a = b := by
  cases x <;> simp [Except.map]

theorem wf_snoc {ms : Members} {key : PyStr} {v : Json} (hms : (Json.obj ms).WF)
    (hnew : Dict.has ms key = false) (hv : v.WF) : (Json.obj (ms ++ [(key, v)])).WF := by
  obtain ⟨hnd, hall⟩ := Json.wf_obj.mp hms
  have hkey : key ∉ Dict.keys ms := by
    intro hmem
    rw [Dict.has_iff_mem.mpr hmem] at hnew
    cases hnew
  refine Json.wf_obj.mpr ⟨?_, ?_⟩
  · rw [Dict.keys] at hnd hkey ⊢
    rw [List.map_append, List.map_singleton]
    exact List.nodup_append.mpr ⟨hnd, by simp, by rintro a ha b hb rfl; simp_all⟩
  · intro m hm
    rcases List.mem_append.mp hm with hm | hm
    · exact hall m hm
    · rwa [List.mem_singleton.mp hm]

/-- What is thawed has distinct keys. -/
theorem thaw_wf (x : Frozen) : ∀ v, thaw x = .ok v → v.WF := by
  refine thaw.induct (fun x => ∀ v, thaw x = .ok v → v.WF)
    (fun xs => ∀ vs, thawList xs = .ok vs → ∀ v ∈ vs, v.WF)
    (fun result pairs => (Json.obj result).WF → ∀ ms, thawMembers result pairs = .ok ms →
      (Json.obj ms).WF) ?null ?bool ?int ?float ?str ?object ?array ?tag ?tuple ?nil ?cons ?done
    ?again ?pair ?other x
  case null | bool | int | float | str =>
    intros
    rename_i h
    cases h
    trivial
  case object =>
    intro items ih v h
    rw [thaw, if_pos rfl, map_eq_ok] at h
    obtain ⟨ms, hms, rfl⟩ := h
    exact ih (by simp [Dict.keys]) ms hms
  case array =>
    intro items hne ih v h
    rw [thaw, if_neg hne, if_pos rfl, map_eq_ok] at h
    obtain ⟨vs, hvs, rfl⟩ := h
    exact Json.wf_arr.mpr (ih vs hvs)
  case tag =>
    intro tag items hobject harray v h
    rw [thaw, if_neg hobject, if_neg harray] at h
    cases h
  case tuple =>
    intro xs hxs v h
    unfold thaw at h
    split at h <;> simp_all
  case nil =>
    intro vs h
    cases h
    simp
  case cons =>
    intro x xs ihx ihxs vs h
    simp only [thawList, bind_eq_ok, pure, Except.pure, Except.ok.injEq] at h
    obtain ⟨v, hv, ws, hws, rfl⟩ := h
    exact List.forall_mem_cons.mpr ⟨ihx v hv, ihxs ws hws⟩
  case done =>
    intro result hresult ms h
    cases h
    exact hresult
  case again =>
    intro result key value pairs hhas _ ms h
    rw [thawMembers, if_pos hhas] at h
    cases h
  case pair =>
    intro result key value pairs hnew ihv ih hresult ms h
    rw [thawMembers, if_neg hnew, bind_eq_ok] at h
    obtain ⟨v, hv, hrest⟩ := h
    exact ih v (wf_snoc hresult (by simpa using hnew) (ihv v hv)) ms hrest
  case other =>
    intro result head tail hhead _ ms h
    unfold thawMembers at h
    split at h <;> simp_all

theorem nodup_bindingKeys (e : VerificationEvidence) (attempt command artifacts output : PyStr) :
    (Dict.keys (e.binding attempt command artifacts output)).Nodup := by
  simp [VerificationEvidence.binding, VerificationEvidence.bindingTexts, Dict.keys]

theorem wf_exitCodeJson (code : Option ℤ) : (exitCodeJson code).WF := by
  cases code <;> exact trivial

theorem wf_binding (e : VerificationEvidence) (attempt command artifacts output : PyStr) :
    (Json.obj (e.binding attempt command artifacts output)).WF := by
  refine Json.wf_obj.mpr ⟨nodup_bindingKeys e attempt command artifacts output, ?_⟩
  intro m hm
  rcases List.mem_append.mp hm with hm | hm
  · obtain ⟨x, -, rfl⟩ := List.mem_map.mp hm
    trivial
  · simp only [List.mem_cons, List.not_mem_nil, or_false] at hm
    have hcode := wf_exitCodeJson e.exitCode
    rcases hm with rfl | rfl | rfl | rfl | rfl | rfl <;> first | exact trivial | exact hcode

theorem wf_receiptRow {binding : Members} {plan run : Json} {labels : RowLabels}
    (hbinding : (Json.obj binding).WF) (hplan : plan.WF) (hrun : run.WF) :
    (Json.obj (receiptRow binding plan run labels)).WF := by
  refine Json.wf_obj.mpr ⟨by simp [receiptRow, Dict.keys], ?_⟩
  intro m hm
  simp only [receiptRow, List.mem_cons, List.not_mem_nil, or_false] at hm
  rcases hm with rfl | rfl | rfl | rfl | rfl | rfl | rfl | rfl | rfl | rfl | rfl
  case inr.inr.inl =>
    refine Json.wf_obj.mpr ⟨by simp [engineeringCoverage, Dict.keys], ?_⟩
    simp only [engineeringCoverage, List.forall_mem_cons]
    exact ⟨trivial, trivial, trivial, trivial, trivial, by simp⟩
  all_goals trivial

section Row

variable (binding : Members) (plan run : Json) (labels : RowLabels) (k : PyStr)

theorem fieldOf_receiptRow_binding :
    fieldOf (fieldOf (.obj (receiptRow binding plan run labels)) "binding") k =
      Members.get binding k := by
  simp [receiptRow, Members.get, Dict.get?_cons]

theorem fieldOf_receiptRow_plan :
    fieldOf (.obj (receiptRow binding plan run labels)) "public_plan" = plan := by
  simp [receiptRow, Members.get, Dict.get?_cons]

theorem fieldOf_receiptRow_run :
    fieldOf (.obj (receiptRow binding plan run labels)) "run" = run := by
  simp [receiptRow, Members.get, Dict.get?_cons]

end Row

/-- The three digests of a binding. -/
structure BindingDigests (e : VerificationEvidence) (command artifacts output : PyStr) : Prop where
  command : engineeringDigest (.arr (e.command.map .str)) = .ok command
  artifacts : engineeringDigest e.artifacts = .ok artifacts
  output : e.outputSha256 = .ok output

theorem publicBinding_eq_ok {e : VerificationEvidence} {attempt : PyStr} {binding : Members}
    (h : publicBinding e attempt true = .ok binding) :
    ∃ command artifacts output, BindingDigests e command artifacts output ∧
      binding = e.binding attempt command artifacts output := by
  simp only [publicBinding, if_true, bind_eq_ok, mapError_eq_ok, pure, Except.pure,
    Except.ok.injEq] at h
  obtain ⟨-, -, command, hcommand, artifacts, hartifacts, output, houtput, rfl⟩ := h
  exact ⟨command, artifacts, output, ⟨hcommand, hartifacts, houtput⟩, rfl⟩

/-- A receipt carries the repair fingerprint of a row with its plan, its run and its binding. -/
theorem engineeringReceipt_eq_ok {e : VerificationEvidence} {facts : List Frozen} {row : Members}
    (h : engineeringReceipt e facts = .ok row) :
    ∃ ms run attempt command artifacts output values, thaw (.tuple facts) = .ok (.obj ms) ∧
      Members.get ms "run" = .obj run ∧
      engineeringText (Members.get run "attempt") true 256 = .ok attempt ∧
      BindingDigests e command artifacts output ∧
      engineeringReceiptValues (.obj (receiptRow (e.binding attempt command artifacts output)
        (Members.get ms "public_plan") (.obj run) ⟨[], [], [], e.category, false⟩)) =
          .ok values ∧
      Members.get row "repair_fingerprint" = .str values.repairFingerprint := by
  simp only [engineeringReceipt, bind_eq_ok] at h
  obtain ⟨-, -, thawed, hthaw, h⟩ := h
  cases thawed with
  | obj ms =>
    simp only [bind_eq_ok] at h
    obtain ⟨-, -, h⟩ := h
    cases hrun : Members.get ms "run" with
    | obj run =>
      rw [hrun] at h
      simp only [bind_eq_ok, mapError_eq_ok, require_eq_ok, pure, Except.pure,
        Except.ok.injEq] at h
      obtain ⟨attempt, hattempt, -, -, -, -, binding, hbinding, values, hvalues, -, -, -, -,
        rfl⟩ := h
      obtain ⟨command, artifacts, output, hdigests, rfl⟩ := publicBinding_eq_ok hbinding
      exact ⟨ms, run, attempt, command, artifacts, output, values, hthaw, hrun, hattempt,
        hdigests, hvalues, by simp [receiptRow, Members.get, Dict.get?_cons]⟩
    | _ =>
      rw [hrun] at h
      cases h
  | _ => cases h

/-- The repair fingerprint does not depend on the number of the attempt and on the time. -/
theorem repairKey_of_like {e e' : VerificationEvidence} {facts : List Frozen} {key key' : PyStr}
    (hlike : e.Like e') (hfacts : e.engineeringFacts = some facts) (hkey : repairKey e = .ok key)
    (hkey' : repairKey e' = .ok key') : key' = key := by
  rw [repairKey, hfacts] at hkey
  rw [repairKey, hlike.facts_eq, hfacts] at hkey'
  simp only [bind_eq_ok, orRaise_eq_ok] at hkey hkey'
  obtain ⟨row, hrow, hkey⟩ := hkey
  obtain ⟨row', hrow', hkey'⟩ := hkey'
  obtain ⟨ms, run, attempt, command, artifacts, output, values, hthaw, hrun, hattempt, hdigests,
    hvalues, hget⟩ := engineeringReceipt_eq_ok hrow
  obtain ⟨ms', run', attempt', command', artifacts', output', values', hthaw', hrun', hattempt',
    hdigests', hvalues', hget'⟩ := engineeringReceipt_eq_ok hrow'
  obtain rfl := Json.obj.inj (Except.ok.inj (hthaw.symm.trans hthaw'))
  obtain rfl := Json.obj.inj (hrun.symm.trans hrun')
  obtain rfl := Except.ok.inj (hattempt.symm.trans hattempt')
  have hsame : BindingDigests e command' artifacts' output' := by
    rw [hlike] at hdigests'
    exact ⟨hdigests'.command, hdigests'.artifacts, hdigests'.output⟩
  obtain rfl := Except.ok.inj (hdigests.command.symm.trans hsame.command)
  obtain rfl := Except.ok.inj (hdigests.artifacts.symm.trans hsame.artifacts)
  obtain rfl := Except.ok.inj (hdigests.output.symm.trans hsame.output)
  have hms := thaw_wf _ _ hthaw
  have hplan := Members.wf_get hms "public_plan"
  have hrunWF : (Json.obj run).WF := hrun ▸ Members.wf_get hms "run"
  have hfingerprint := repairFingerprint_of_sameButLabels
    (wf_receiptRow (wf_binding e attempt command artifacts output) hplan hrunWF)
    (wf_receiptRow (wf_binding e' attempt command artifacts output) hplan hrunWF) hvalues hvalues'
    ⟨fun k hk => ?_, fun k hk => ?_, fun k hk => ?_⟩
  · rw [hget, Json.text?] at hkey
    rw [hget', Json.text?] at hkey'
    rw [← Option.some.inj hkey, ← Option.some.inj hkey', hfingerprint]
  · rw [fieldOf_receiptRow_binding, fieldOf_receiptRow_binding,
      hlike.get_binding attempt command artifacts output hk]
    exact .refl _
  · rw [fieldOf_receiptRow_plan, fieldOf_receiptRow_plan]
    exact .refl _
  · rw [fieldOf_receiptRow_run, fieldOf_receiptRow_run]
    exact .refl _

/-! ## What the ledger remembers -/

section Ledger

variable {ledger ledger' : VerificationLedger} {now key : PyStr}
  {e e' bound : VerificationEvidence}

theorem record_eq_ok (h : ledger.record now e = .ok (ledger', bound)) :
    ∃ key, repairKey (ledger.bind now e) = .ok key ∧
      ∀ k, k ∈ ledger'.seenFingerprints ↔ k = key ∨ k ∈ ledger.seenFingerprints := by
  simp only [VerificationLedger.record, bind_eq_ok, pure, Except.pure, Except.ok.injEq,
    Prod.mk.injEq] at h
  obtain ⟨key, hkey, rfl, -⟩ := h
  refine ⟨key, hkey, fun k => ?_⟩
  dsimp only
  split_ifs with hseen
  · rw [List.contains_iff_mem] at hseen
    constructor
    · exact Or.inr
    · rintro (rfl | hk)
      exacts [hseen, hk]
  · rw [List.mem_append, List.mem_singleton, or_comm]

theorem hasNewEvidence_eq_false :
    ledger.hasNewEvidence e = .ok false ↔
      ∃ key, repairKey e = .ok key ∧ key ∈ ledger.seenFingerprints := by
  simp [VerificationLedger.hasNewEvidence, pure, Except.pure]

/-- Of an engineering evidence the ledger changes the labels only. -/
theorem bind_like (h : e.engineeringFacts.isSome = true) : e.Like (ledger.bind now e) := by
  simp [VerificationEvidence.Like, VerificationLedger.bind, h]

theorem VerificationEvidence.Like.of_both {a b c : VerificationEvidence} (hab : a.Like b)
    (hac : a.Like c) : b.Like c := by
  rw [VerificationEvidence.Like] at hab hac ⊢
  rw [hab, hac]

/-- A filled environment fingerprint is kept. -/
theorem payloadBytes_bind (h : e.environmentFingerprint ≠ []) :
    (ledger.bind now e).payloadBytes = e.payloadBytes := by
  have henv : e.environmentFingerprint.isEmpty = false := by simpa using h
  simp [VerificationLedger.bind, henv, VerificationEvidence.payloadBytes,
    VerificationEvidence.outputSha256, VerificationEvidence.payload, VerificationEvidence.artifacts]

theorem payloadBytes_eq_ok {raw : Bytes} (h : e.payloadBytes = .ok raw) :
    ∃ output, Py.encode (Json.dumps (e.payload output)) = some raw := by
  simp only [VerificationEvidence.payloadBytes, bind_eq_ok, orRaise_eq_ok] at h
  obtain ⟨output, -, -, -, henc⟩ := h
  exact ⟨output, henc⟩

/-- The facts of an evidence fix its environment fingerprint. -/
theorem environment_of_payloadBytes {raw : Bytes} (h : e.payloadBytes = .ok raw)
    (h' : e'.payloadBytes = .ok raw) : e.environmentFingerprint = e'.environmentFingerprint := by
  obtain ⟨output, henc⟩ := payloadBytes_eq_ok h
  obtain ⟨output', henc'⟩ := payloadBytes_eq_ok h'
  have hsame := Json.dumps_inj.mp (encode_inj henc henc')
  have hfield := same_fieldOf hsame "environment_fingerprint"
  have hget : ∀ (x : VerificationEvidence) (s : PyStr),
      fieldOf (x.payload s) "environment_fingerprint" = .str x.environmentFingerprint := by
    intro x s
    simp [VerificationEvidence.payload, Members.get, Dict.get?_cons]
  rw [hget, hget] at hfield
  exact eq_of_same_text hfield

/-- The evidence `e'` is remembered after `e` was recorded. -/
def VerificationLedger.Remembers (ledger : VerificationLedger) (e e' : VerificationEvidence) :
    Prop :=
  match e.engineeringFacts with
  | some facts => ∃ row, engineeringReceipt e' facts = .ok row
  | none => e.environmentFingerprint ≠ [] ∨
      ∃ key, repairKey e' = .ok key ∧ key ∈ ledger.seenFingerprints

/-- After `e` was recorded, an evidence that differs from it only in the number of the attempt and
in the time is not new exactly when it is one that the ledger remembers. -/
theorem hasNewEvidence_record_iff
    (hcol : NoCollision fun raw =>
      e.payloadBytes = .ok raw ∨ (ledger.bind now e).payloadBytes = .ok raw)
    (hrecord : ledger.record now e = .ok (ledger', bound)) (hlike : e.Like e') :
    ledger'.hasNewEvidence e' = .ok false ↔ ledger.Remembers e e' := by
  obtain ⟨key, hkey, hseen⟩ := record_eq_ok hrecord
  rw [hasNewEvidence_eq_false, VerificationLedger.Remembers]
  cases hfacts : e.engineeringFacts with
  | some facts =>
    have hfacts' : e'.engineeringFacts = some facts := hlike.facts_eq.trans hfacts
    constructor
    · rintro ⟨k, hk, -⟩
      simp only [repairKey, hfacts', bind_eq_ok] at hk
      obtain ⟨row, hrow, -⟩ := hk
      exact ⟨row, hrow⟩
    · rintro ⟨row, hrow⟩
      obtain ⟨-, -, -, -, -, -, values, -, -, -, -, -, hget⟩ := engineeringReceipt_eq_ok hrow
      have hk : repairKey e' = .ok values.repairFingerprint := by
        simp only [repairKey, hfacts', bind_eq_ok, orRaise_eq_ok]
        exact ⟨row, hrow, by rw [hget, Json.text?]⟩
      have hbound : e.Like (ledger.bind now e) := bind_like (by rw [hfacts]; rfl)
      have heq := repairKey_of_like (hbound.of_both hlike) (hbound.facts_eq.trans hfacts) hkey hk
      exact ⟨_, hk, (hseen _).mpr (.inl heq)⟩
  | none =>
    have hkeyOf : ∀ {x : VerificationEvidence} {k : PyStr}, x.engineeringFacts = none →
        (repairKey x = .ok k ↔ ∃ raw, x.payloadBytes = .ok raw ∧ sha256 raw = k) := by
      intro x k hx
      simp [repairKey, hx, pure, Except.pure]
    have hfacts' : e'.engineeringFacts = none := hlike.facts_eq.trans hfacts
    have hbound : (ledger.bind now e).engineeringFacts = none := hfacts
    obtain ⟨raw, hraw, hsha⟩ := (hkeyOf hbound).mp hkey
    constructor
    · rintro ⟨k, hk, hmem⟩
      rcases (hseen k).mp hmem with rfl | hold
      · left
        intro hempty
        obtain ⟨raw', hraw', hsha'⟩ := (hkeyOf hfacts').mp hk
        rw [hlike.payloadBytes_eq] at hraw'
        obtain rfl := hcol raw' raw (.inl hraw') (.inr hraw) (hsha'.trans hsha.symm)
        have henv := environment_of_payloadBytes hraw' hraw
        rw [hempty] at henv
        refine ledger.environment_ne ?_
        rw [henv]
        simp [VerificationLedger.bind, hfacts, hempty]
      · exact .inr ⟨k, hk, hold⟩
    · rintro (henv | ⟨k, hk, hold⟩)
      · refine ⟨key, (hkeyOf hfacts').mpr ⟨raw, ?_, hsha⟩, (hseen key).mpr (.inl rfl)⟩
        rw [hlike.payloadBytes_eq, ← payloadBytes_bind henv, hraw]
      · exact ⟨k, hk, (hseen k).mpr (.inr hold)⟩

end Ledger

/-! ## An empty environment fingerprint -/

/-- A failed test, with the environment that was given. -/
def sampleEvidence (env : PyStr) : VerificationEvidence where
  step := "code"
  attempt := "1"
  kind := "test"
  command := []
  exitCode := some 1
  output := []
  environmentFingerprint := env
  artifactHashes := []
  diffFingerprint := []
  baseCommitSha := []
  initialWorktreeFingerprint := []
  testedWorktreeFingerprint := []
  gitObjectFormat := []
  testHeadBeforeSha := []
  testHeadAfterSha := []
  testHeadStatus := []
  testedGitTreeOid := []
  testedGitTreeStatus := []
  resultCommitSha := []
  resultCommitTreeOid := []
  resultCommitTreeStatus := []
  resultCommitTimingStatus := []
  resultCommitCheckedAt := []
  category := "code"
  capturedAt := []
  rawError := []
  engineeringFacts := none

/-- A new ledger with the environment fingerprint `e`. -/
def sampleLedger : VerificationLedger :=
  ⟨3, "e", [], [], by decide⟩

/-- What the ledger answers about the evidence after it was recorded. -/
def sampleAnswer (env : PyStr) : Option Bool :=
  (do
    let (ledger, _) ← sampleLedger.record "t" (sampleEvidence env)
    ledger.hasNewEvidence (sampleEvidence env)).toOption

/-- A new ledger finds the evidence without an environment fingerprint new again. -/
theorem not_remembered : sampleAnswer [] = some true := by
  decide +kernel

/-- The facts of the sample can be written. -/
theorem encodable_samplePayload (env output : PyStr) (henv : env.all isScalar = true)
    (houtput : output.all isScalar = true) :
    (sampleEvidence env).payload output |>.Encodable := by
  simp only [sampleEvidence, VerificationEvidence.payload, VerificationEvidence.artifacts,
    exitCodeJson, Json.encodable_obj, List.forall_mem_cons, all_isScalar_lit, Json.encodable_str,
    Json.encodable_arr, Json.encodable_int, henv, houtput]
  simp

theorem exists_record_sample {env : PyStr} (hne : env ≠ []) (henv : env.all isScalar = true) :
    ∃ r, sampleLedger.record "t" (sampleEvidence env) = .ok r := by
  have henc := Json.encode_dumps (encodable_samplePayload env (sha256 []) henv
    (isScalar_of_isHexText (isHexText_sha256 [])))
  have hbytes : (sampleLedger.bind "t" (sampleEvidence env)).payloadBytes =
      .ok (encodePass (Json.dumps ((sampleEvidence env).payload (sha256 [])))) := by
    rw [payloadBytes_bind (by exact hne)]
    simp only [VerificationEvidence.payloadBytes, bind_eq_ok, orRaise_eq_ok, require_eq_ok]
    exact ⟨_, rfl, (), rfl, henc⟩
  have hfacts : (sampleLedger.bind "t" (sampleEvidence env)).engineeringFacts = none := rfl
  simp only [VerificationLedger.record, repairKey, hfacts, bind_eq_ok, hbytes, pure, Except.pure,
    Except.ok.injEq, exists_eq_left']
  exact ⟨_, rfl⟩

/-- With an environment fingerprint it is remembered. -/
theorem hasNewEvidence_record_iff_sample :
    ∃ ledger bound, sampleLedger.record "t" (sampleEvidence "e") = .ok (ledger, bound) ∧
      (ledger.hasNewEvidence (sampleEvidence "e") = .ok false ↔
        sampleLedger.Remembers (sampleEvidence "e") (sampleEvidence "e")) := by
  obtain ⟨⟨ledger, bound⟩, hrecord⟩ := exists_record_sample (by decide : lit "e" ≠ []) rfl
  refine ⟨ledger, bound, hrecord, hasNewEvidence_record_iff ?_ hrecord rfl⟩
  -- Both evidences have the same facts.
  rintro x y hx hy -
  rw [payloadBytes_bind (by simp [sampleEvidence]), or_self] at hx hy
  exact Except.ok.inj (hx.symm.trans hy)

end Icode