import Icode.AgentRoles
import Icode.JsonLine
import Icode.PyValue
import Icode.SandboxPolicy
import Icode.Sha256

/-!
# Conclusions of agents

An `AgentConclusion` stands for what an agent says of a step: its identity, the boundary of its
context, and its evidence or a failure code. The constructor checks the fields, bounds the evidence
of a completed conclusion and digests the JSON text of everything. The text is encoded as UTF-8, so
the digest exists exactly when no text in the fields has a surrogate (`exists_make_iff`); the
exceptions of the encoder are no `ConclusionError`.
-/

namespace Icode

open Py

namespace AgentTeam

/-- `ConclusionError`, by its code and message. -/
inductive ConclusionError where
  /-- `evidence_missing`: completed 结论必须携带非空证据 -/
  | evidenceMissing
  /-- `evidence_invalid`: 证据键必须为 1..32 字符 -/
  | evidenceKey
  /-- `evidence_invalid`: 证据值必须是标量 -/
  | evidenceValue
  /-- `evidence_invalid`: 证据超过 4096 字节上限 -/
  | evidenceSize
  /-- `agent_id_mismatch`: agent_id 与身份字段不一致 -/
  | agentIdMismatch
  /-- `invalid_ticket`: ticket_id 必须为非空字符串 -/
  | invalidTicket
  /-- `invalid_step`: step 必须为 1..64 字符 -/
  | invalidStep
  /-- `invalid_kind`: kind 必须为 1..64 字符 -/
  | invalidKind
  /-- `conclusion_out_of_role`: 角色 {role} 只能产出 {kind} 结论 -/
  | conclusionOutOfRole (role : Role)
  /-- `invalid_context_digest`: context_digest 必须是 sha256 hex -/
  | invalidContextDigest
  /-- `detail_missing`: failed/refused 结论必须携带稳定失败码 -/
  | detailMissing
  /-- `detail_oversize`: detail 超过 200 字符上限 -/
  | detailOversize
  /-- `invalid_limit`: limit 必须是 1..4096 的整数 -/
  | invalidLimit
  /-- `ledger_full`: 结论账本已满（fail-closed） -/
  | ledgerFull
  deriving DecidableEq

/-- What may leave a method of the team. -/
inductive TeamError where
  | role (e : RoleError)
  | conclusion (e : ConclusionError)
  | policy (e : PolicyError)
  | lease (e : LeaseError)
  /-- `lease_unavailable`: 团队未配置租约目录 -/
  | leaseUnavailable
  /-- `invalid_lease_dir`: 租约目录不得位于工作区内（锁文件不是工作产物） -/
  | invalidLeaseDir
  /-- `lock_failed` and the other `LeaseError` of the lock file. -/
  | lockFailed
  /-- `Path.resolve` raises. -/
  | resolve
  /-- `UnicodeEncodeError` of `encode("utf-8")`. -/
  | unicodeEncode
  /-- `ValueError` of `json.dumps`: the integer has too many digits. -/
  | intDigits
  /-- An exception of the program that uses the team. -/
  | raised
  deriving DecidableEq

/-! ## Evidence -/

/-- A value that is a scalar, as `json.dumps` writes it. -/
def evidenceScalar? : PyValue → Option Json
  | .none => some .null
  | .bool b => some (.bool b)
  | .int n => some (.int n)
  | .float x => some (.float x.val)
  | .str s => some (.str s)
  | _ => none

/-- One item of the loop of `_bounded_evidence`. -/
def boundItem (item : PyKey × PyValue) : Except ConclusionError (PyStr × Json) :=
  match item.1 with
  | .str key => do
    require (!key.isEmpty && key.length ≤ 32) .evidenceKey
    let value ← orRaise (evidenceScalar? item.2) .evidenceValue
    pure (key, value)
  | _ => throw .evidenceKey

/-- `str(n)` raises. -/
def isLongInt : Json → Bool
  | .int n => (intText? n).isNone
  | _ => false

/-- `json.dumps(fields, ensure_ascii=False, sort_keys=True)` -/
def dumpsSorted (fields : Members) : PyStr :=
  (Json.obj fields).canonical.dumpsSpaced

/-- The loop of `_bounded_evidence`. -/
def boundItems (evidence : PyItems) : Except ConclusionError Members :=
  (mapAll boundItem evidence).map fun items => Dict.update [] items

/-- `_bounded_evidence` -/
def boundedEvidence (evidence : PyItems) : Except TeamError Members := do
  require (!evidence.isEmpty) (.conclusion .evidenceMissing)
  let bounded ← (boundItems evidence).mapError .conclusion
  require (!bounded.any fun m => isLongInt m.2) .intDigits
  require ((dumpsSorted bounded).length ≤ 4096) (.conclusion .evidenceSize)
  pure bounded

/-- `sha256(json.dumps(fields, …).encode("utf-8")).hexdigest()` -/
def digestSorted (fields : Members) : Except TeamError PyStr :=
  orRaise ((encode (dumpsSorted fields)).map sha256) .unicodeEncode

theorem all_isScalar_dumpsSorted {fields : Members} :
    (dumpsSorted fields).all isScalar = true ↔ (Json.obj fields).Encodable := by
  rw [dumpsSorted, Json.all_isScalar_dumpsSpaced, Json.encodable_canonical]

/-- Fields whose texts can be encoded are digested. -/
theorem exists_digestSorted {fields : Members} (h : (Json.obj fields).Encodable) :
    ∃ digest, digestSorted fields = .ok digest := by
  refine ⟨sha256 (encodePass (dumpsSorted fields)), ?_⟩
  rw [digestSorted, encode_eq_some.mpr ⟨(all_isScalar_dumpsSorted).mpr h, rfl⟩]
  rfl

/-- Fields with a surrogate are not. -/
theorem digestSorted_eq_error {fields : Members} (h : ¬(Json.obj fields).Encodable) :
    digestSorted fields = .error .unicodeEncode := by
  have hnone : encode (dumpsSorted fields) = none := by
    rw [Option.eq_none_iff_forall_ne_some]
    intro b hb
    exact h (all_isScalar_dumpsSorted.mp (encode_eq_some.mp hb).1)
  rw [digestSorted, hnone]
  rfl

theorem isHexText_of_digestSorted {fields : Members} {digest : PyStr}
    (h : digestSorted fields = .ok digest) : isHexText 64 digest = true := by
  obtain ⟨data, -, rfl⟩ := Option.map_eq_some_iff.mp (orRaise_eq_ok.mp h)
  exact isHexText_sha256 data

/-- Evidence whose encoding raises nothing but a `ConclusionError`. -/
def Digestible (evidence : PyItems) : Prop :=
  ∀ bounded, boundItems evidence = .ok bounded →
    (∀ m ∈ bounded, isLongInt m.2 = false) ∧
      ((dumpsSorted bounded).length ≤ 4096 → (Json.obj bounded).Encodable)

/-! ## Conclusions -/

/-- The outcomes of `_OUTCOMES`. -/
inductive Outcome where
  | completed
  | failed
  | refused
  deriving DecidableEq

/-- The value of an outcome. -/
def Outcome.name : Outcome → PyStr
  | .completed => lit "completed"
  | .failed => lit "failed"
  | .refused => lit "refused"

theorem Outcome.all_isScalar_name (outcome : Outcome) : outcome.name.all isScalar = true := by
  cases outcome <;> rfl

/-- The arguments of the constructor, less the evidence. -/
structure ConclusionFields where
  agentId : PyStr
  role : Role
  ticketId : PyStr
  step : PyStr
  kind : PyStr
  contextDigest : PyStr
  outcome : Outcome
  detail : PyStr
  deriving DecidableEq

/-- `AgentConclusion`. -/
structure AgentConclusion extends ConclusionFields where
  evidence : Members
  digest : PyStr

namespace ConclusionFields

variable (f : ConclusionFields)

/-- What `digest` stands for. -/
def members (evidence : Members) : Members :=
  [("agent_id", .str f.agentId), ("role", .str f.role.name), ("ticket_id", .str f.ticketId),
    ("step", .str f.step), ("kind", .str f.kind), ("context_digest", .str f.contextDigest),
    ("outcome", .str f.outcome.name), ("evidence", .obj evidence), ("detail", .str f.detail)]

/-- The checks of the constructor before it looks at the evidence. -/
def check : Except TeamError Unit := do
  let (role, ticket, _) ← (parseAgentId f.agentId).mapError .role
  require (role == f.role && ticket == f.ticketId) (.conclusion .agentIdMismatch)
  require (!f.ticketId.isEmpty) (.conclusion .invalidTicket)
  require (!f.step.isEmpty && f.step.length ≤ 64) (.conclusion .invalidStep)
  require (!f.kind.isEmpty && f.kind.length ≤ 64) (.conclusion .invalidKind)
  require (f.kind == f.role.conclusionsKind) (.conclusion (.conclusionOutOfRole f.role))
  require (isHexText 64 f.contextDigest) (.conclusion .invalidContextDigest)

/-- The evidence that the conclusion carries. -/
def evidenceOf (evidence : PyItems) : Except TeamError Members :=
  if f.outcome = .completed then boundedEvidence evidence
  else do
    require (!f.detail.isEmpty) (.conclusion .detailMissing)
    pure []

/-- `AgentConclusion(…)`. The `default=str` of its digest is asked nothing: the fields are texts and
scalars. -/
def make (evidence : PyItems) : Except TeamError AgentConclusion := do
  f.check
  let bounded ← f.evidenceOf evidence
  require (f.detail.length ≤ 200) (.conclusion .detailOversize)
  let digest ← digestSorted (f.members bounded)
  pure ⟨f, bounded, digest⟩

/-- Fields that pass the checks, and whose texts but for the step can be encoded. -/
structure Valid : Prop where
  checked : f.check = .ok ()
  detail_le : f.detail.length ≤ 200
  detail_ne : f.outcome ≠ .completed → f.detail ≠ []
  agentId : f.agentId.all isScalar = true
  ticketId : f.ticketId.all isScalar = true
  kind : f.kind.all isScalar = true
  contextDigest : f.contextDigest.all isScalar = true
  detail : f.detail.all isScalar = true

variable {f} (h : f.Valid)

include h

theorem Valid.encodable_members {evidence : Members} :
    (Json.obj (f.members evidence)).Encodable ↔
      f.step.all isScalar = true ∧ (Json.obj evidence).Encodable := by
  have hlit : ∀ s : String, (lit s).all isScalar = true := fun s => Json.isScalar_ofChars
  rw [Json.encodable_obj]
  simp only [members, List.forall_mem_cons, List.not_mem_nil, false_implies, implies_true,
    Json.encodable_str, hlit, h.agentId, h.ticketId, h.kind, h.contextDigest, h.detail,
    f.role.all_isScalar_name, f.outcome.all_isScalar_name, true_and, and_true]

/-- What is left of the constructor once the fields are checked. -/
theorem Valid.make_eq {evidence : PyItems} {bounded : Members}
    (hb : f.evidenceOf evidence = .ok bounded) :
    f.make evidence =
      (digestSorted (f.members bounded)).map fun digest => ⟨f, bounded, digest⟩ := by
  have hdetail : require (decide (f.detail.length ≤ 200)) (TeamError.conclusion .detailOversize)
      = .ok () := require_eq_ok.mpr (decide_eq_true h.detail_le)
  simp only [make, h.checked, hb, hdetail, Bind.bind, Except.bind]
  cases digestSorted (f.members bounded) <;> rfl

theorem Valid.make_eq_error {evidence : PyItems} {e : TeamError}
    (hb : f.evidenceOf evidence = .error e) : f.make evidence = .error e := by
  simp only [make, h.checked, hb, Bind.bind, Except.bind]

/-- Fields with a surrogate in the step or the evidence raise what is no `ConclusionError`. -/
theorem Valid.make_cases {evidence : PyItems} {bounded : Members}
    (hb : f.evidenceOf evidence = .ok bounded) :
    ((∃ c, f.make evidence = .ok c) ∧ f.step.all isScalar = true ∧ (Json.obj bounded).Encodable) ∨
      (f.make evidence = .error .unicodeEncode ∧
        ¬(f.step.all isScalar = true ∧ (Json.obj bounded).Encodable)) := by
  rw [h.make_eq hb, ← h.encodable_members]
  by_cases henc : (Json.obj (f.members bounded)).Encodable
  · obtain ⟨digest, hdigest⟩ := exists_digestSorted henc
    exact .inl ⟨⟨_, by rw [hdigest]; rfl⟩, henc⟩
  · exact .inr ⟨by rw [digestSorted_eq_error henc]; rfl, henc⟩

/-- A conclusion that is not completed carries no evidence. -/
theorem Valid.make_cases_of_ne (hne : f.outcome ≠ .completed) (evidence : PyItems) :
    ((∃ c, f.make evidence = .ok c) ∧ f.step.all isScalar = true) ∨
      (f.make evidence = .error .unicodeEncode ∧ ¬f.step.all isScalar = true) := by
  have hb : f.evidenceOf evidence = .ok [] := by
    rw [evidenceOf, if_neg hne, List.isEmpty_eq_false_iff.mpr (h.detail_ne hne)]
    rfl
  have hnil : (Json.obj []).Encodable := trivial
  simpa only [hnil, and_true] using h.make_cases hb

/-- A completed conclusion is made, or the evidence is refused, or an exception of the encoder
leaves the constructor. -/
theorem Valid.make_completed (hcompleted : f.outcome = .completed) {evidence : PyItems}
    (hne : evidence ≠ []) :
    ((∃ c, f.make evidence = .ok c) ∧ Digestible evidence ∧ f.step.all isScalar = true) ∨
      (∃ e, f.make evidence = .error (.conclusion e) ∧ Digestible evidence) ∨
      ∃ e, f.make evidence = .error e ∧ (∀ e', e ≠ .conclusion e') ∧
        ¬(Digestible evidence ∧ f.step.all isScalar = true) := by
  have hevidence : f.evidenceOf evidence = boundedEvidence evidence := if_pos hcompleted
  have hnonempty : require (!evidence.isEmpty) (TeamError.conclusion .evidenceMissing) = .ok () :=
    require_eq_ok.mpr (by simpa using hne)
  cases hitems : boundItems evidence with
  | error e =>
    refine .inr (.inl ⟨e, h.make_eq_error ?_, ?_⟩)
    · simp only [hevidence, boundedEvidence, hnonempty, hitems, Except.mapError, Bind.bind,
        Except.bind]
    · intro bounded hbounded
      rw [hitems] at hbounded
      cases hbounded
  | ok bounded =>
    have hdigestible : Digestible evidence ↔ (∀ m ∈ bounded, isLongInt m.2 = false) ∧
        ((dumpsSorted bounded).length ≤ 4096 → (Json.obj bounded).Encodable) := by
      simp only [Digestible, hitems, Except.ok.injEq, forall_eq']
    have hbounded : boundedEvidence evidence = (do
        require (!bounded.any fun m => isLongInt m.2) .intDigits
        require ((dumpsSorted bounded).length ≤ 4096) (.conclusion .evidenceSize)
        pure bounded) := by
      simp only [boundedEvidence, hnonempty, hitems, Except.mapError, Bind.bind, Except.bind]
    cases hlong : bounded.any fun m => isLongInt m.2 with
    | true =>
      obtain ⟨m, hm, hint⟩ := List.any_eq_true.mp hlong
      refine .inr (.inr ⟨.intDigits, h.make_eq_error ?_, nofun, ?_⟩)
      · rw [hevidence, hbounded, hlong]
        rfl
      · rintro ⟨hd, -⟩
        rw [(hdigestible.mp hd).1 m hm] at hint
        cases hint
    | false =>
      have hshort : ∀ m ∈ bounded, isLongInt m.2 = false := by
        simpa using List.any_eq_false.mp hlong
      by_cases hsize : (dumpsSorted bounded).length ≤ 4096
      · have hb : f.evidenceOf evidence = .ok bounded := by
          rw [hevidence, hbounded, hlong, decide_eq_true hsize]
          rfl
        rcases h.make_cases hb with ⟨hmade, hstep, henc⟩ | ⟨hmade, hnot⟩
        · exact .inl ⟨hmade, hdigestible.mpr ⟨hshort, fun _ => henc⟩, hstep⟩
        · refine .inr (.inr ⟨.unicodeEncode, hmade, nofun, ?_⟩)
          rintro ⟨hd, hstep⟩
          exact hnot ⟨hstep, (hdigestible.mp hd).2 hsize⟩
      · refine .inr (.inl ⟨.evidenceSize, h.make_eq_error ?_, ?_⟩)
        · rw [hevidence, hbounded, hlong, decide_eq_false hsize]
          rfl
        · exact hdigestible.mpr ⟨hshort, fun hle => absurd hle hsize⟩

end ConclusionFields

/-! ## The ledger -/

/-- `ConclusionLedger.record`, of a ledger that holds at most `limit` conclusions. -/
def recordConclusion (limit : ℕ) (ledger : List AgentConclusion) (c : AgentConclusion) :
    Except ConclusionError (List AgentConclusion) :=
  if ledger.any fun item => item.digest == c.digest then .ok ledger
  else if limit ≤ ledger.length then .error .ledgerFull
  else .ok (ledger ++ [c])

/-- A ledger with room takes a conclusion, or has it already. -/
theorem exists_recordConclusion {limit : ℕ} {ledger : List AgentConclusion}
    (h : ledger.length < limit) (c : AgentConclusion) :
    ∃ after, recordConclusion limit ledger c = .ok after ∧
      (∃ item ∈ after, item.digest = c.digest) ∧ (after = ledger ∨ after = ledger ++ [c]) := by
  unfold recordConclusion
  split_ifs with hany hfull
  · obtain ⟨item, hitem, hdigest⟩ := List.any_eq_true.mp hany
    exact ⟨ledger, rfl, ⟨item, hitem, by simpa using hdigest⟩, .inl rfl⟩
  · omega
  · exact ⟨_, rfl, ⟨c, by simp, rfl⟩, .inr rfl⟩

end AgentTeam

end Icode
