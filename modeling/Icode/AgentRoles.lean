import Icode.JoinedText
import Icode.PyDict
import Icode.WriteLease

/-!
# Agent roles

A role is frozen data: whether it may write, and the one kind of conclusion it gives. An agent has
an identity, whose text `role#ticket#ordinal` determines the rest of it (`AgentIdentity.ext_id`).
`RoleRegistry.spawn` gives out the identities in order, and a text it has given out stands for one
identity only (`RoleRegistry.require_spawn`).
-/

namespace Icode

open Py

namespace AgentTeam

/-! ## Roles -/

/-- The roles of `ROLES`. -/
inductive Role where
  | planner
  | executor
  | reviewer
  | verifier
  | auditor
  deriving DecidableEq

namespace Role

/-- `role.name` -/
def name : Role → PyStr
  | .planner => lit "planner"
  | .executor => lit "executor"
  | .reviewer => lit "reviewer"
  | .verifier => lit "verifier"
  | .auditor => lit "auditor"

/-- `role.may_write` -/
def mayWrite : Role → Bool
  | .executor => true
  | _ => false

/-- `ROLE_CONCLUSION_KIND` -/
def conclusionsKind : Role → PyStr
  | .planner => lit "plan"
  | .executor => lit "execution"
  | .reviewer => lit "review"
  | .verifier => lit "verification"
  | .auditor => lit "audit"

def all : List Role :=
  [.planner, .executor, .reviewer, .verifier, .auditor]

/-- `_ROLES.get(name)` -/
def ofName? (name : PyStr) : Option Role :=
  all.find? fun r => r.name = name

theorem name_injective {r s : Role} (h : r.name = s.name) : r = s := by
  cases r <;> cases s <;> first | rfl | exact absurd h (by decide)

theorem ofName?_eq_some {name : PyStr} {r : Role} : ofName? name = some r ↔ r.name = name := by
  constructor
  · intro h
    simpa using List.find?_some h
  · rintro rfl
    cases r <;> decide

theorem all_isScalar_name (r : Role) : r.name.all isScalar = true := by
  cases r <;> rfl

theorem all_isScalar_conclusionsKind (r : Role) : r.conclusionsKind.all isScalar = true := by
  cases r <;> rfl

theorem length_name_le (r : Role) : r.name.length ≤ 8 := by
  cases r <;> decide

theorem conclusionsKind_ne_nil (r : Role) : r.conclusionsKind ≠ [] := by
  cases r <;> decide

theorem length_conclusionsKind_le (r : Role) : r.conclusionsKind.length ≤ 64 := by
  cases r <;> decide

end Role

/-- `RoleError`, by its code and message. -/
inductive RoleError where
  /-- `unknown_role`: 未知角色：{name} -/
  | unknownRole
  /-- `invalid_ticket`: ticket_id 形态非法 -/
  | invalidTicket
  /-- `invalid_ordinal`: ordinal 必须是 1..999999 的整数 -/
  | invalidOrdinal
  /-- `agent_id_mismatch`: agent_id 与身份字段不一致 -/
  | agentIdMismatch
  /-- `invalid_agent_id`: agent_id 形态非法 -/
  | invalidAgentId
  /-- `unknown_agent`: agent 身份未在本注册表发放 -/
  | unknownAgent
  /-- `role_write_denied`: 角色 {role} 默认只读，不授予写能力 -/
  | roleWriteDenied (role : Role)
  /-- `conclusion_out_of_role`: 角色 {role} 只能产出 {expected} 结论 -/
  | conclusionOutOfRole (role : Role)
  /-- `write_region_required`: executor 运行必须申报 write_region -/
  | writeRegionRequired
  /-- `region_outside_write_scope`: 区域 {region} 不在任何已授权写根之内 -/
  | regionOutsideWriteScope
  /-- `context_boundary_missing`: 团队未配置策略或作用域，无法建立上下文边界 -/
  | contextBoundaryMissing
  /-- `invalid_step`: step 必须为 1..64 字符 -/
  | invalidStep
  deriving DecidableEq

/-- `role(name)`; `none` is no text. -/
def role (name : Option PyStr) : Except RoleError Role :=
  orRaise (name.bind Role.ofName?) .unknownRole

/-! ## Identities -/

def isAsciiDigit (c : CodePoint) : Bool :=
  48 ≤ c.ord && c.ord ≤ 57

/-- The text without a line feed at its end, which `$` does not look at. -/
def dropFinalNewline (s : PyStr) : PyStr :=
  if s.getLast? = some (CodePoint.scalar '\n') then s.dropLast else s

/-- `[A-Za-z0-9._-]{1,64}`, the whole text. -/
def isTicketText (s : PyStr) : Bool :=
  !s.isEmpty && s.length ≤ 64 && s.all isSegmentChar

/-- `is_valid_ticket_id` -/
def isValidTicketId (ticketId : PyStr) : Bool :=
  isTicketText (dropFinalNewline ticketId)

/-- `int(digits)` -/
def ordinalValue (digits : PyStr) : ℕ :=
  digits.foldl (fun n c => 10 * n + (c.ord - 48)) 0

/-- `parse_agent_id`: the role, the ticket and the ordinal. -/
def parseAgentId (agentId : PyStr) : Except RoleError (Role × PyStr × ℕ) :=
  match splitOn '#' agentId with
  | [prefixText, ticket, ordinal] =>
    let digits := dropFinalNewline ordinal
    match Role.ofName? prefixText with
    | none => .error .invalidAgentId
    | some r =>
      if isTicketText ticket && (!digits.isEmpty && digits.length ≤ 6 && digits.all isAsciiDigit)
      then .ok (r, ticket, ordinalValue digits)
      else .error .invalidAgentId
  | _ => .error .invalidAgentId

/-- `AgentIdentity`: its constructor checks that the text stands for the rest. -/
structure AgentIdentity where
  agentId : PyStr
  role : Role
  ticketId : PyStr
  ordinal : ℕ
  parses : parseAgentId agentId = .ok (role, ticketId, ordinal)
  ticket_valid : isValidTicketId ticketId = true
  ordinal_valid : 1 ≤ ordinal ∧ ordinal ≤ 999999
  deriving DecidableEq

namespace AgentIdentity

/-- The constructor. -/
def make (agentId : PyStr) (role : Role) (ticketId : PyStr) (ordinal : ℕ) :
    Except RoleError AgentIdentity :=
  match h : parseAgentId agentId with
  | .error e => .error e
  | .ok parsed =>
    if ht : isValidTicketId ticketId = true then
      if ho : 1 ≤ ordinal ∧ ordinal ≤ 999999 then
        if hp : parsed = (role, ticketId, ordinal) then
          .ok ⟨agentId, role, ticketId, ordinal, hp ▸ h, ht, ho⟩
        else .error .agentIdMismatch
      else .error .invalidOrdinal
    else .error .invalidTicket

/-- `identity.may_write` -/
def mayWrite (identity : AgentIdentity) : Bool :=
  identity.role.mayWrite

/-- The text determines the identity. -/
theorem ext_id {i j : AgentIdentity} (h : i.agentId = j.agentId) : i = j := by
  have hparsed : (i.role, i.ticketId, i.ordinal) = (j.role, j.ticketId, j.ordinal) :=
    Except.ok.inj (i.parses.symm.trans (h ▸ j.parses))
  cases i
  cases j
  cases h
  cases hparsed
  rfl

theorem agentId_make {agentId : PyStr} {role : Role} {ticketId : PyStr} {ordinal : ℕ}
    {identity : AgentIdentity} (h : make agentId role ticketId ordinal = .ok identity) :
    identity.agentId = agentId := by
  unfold make at h
  split at h
  · cases h
  · split_ifs at h
    rw [← Except.ok.inj h]

end AgentIdentity

/-! ## The text of an identity -/

theorem isScalar_of_isSegmentChar {c : CodePoint} (h : isSegmentChar c = true) :
    isScalar c = true := by
  simp only [isSegmentChar, isAsciiLetter, Bool.or_eq_true, Bool.and_eq_true, decide_eq_true_eq,
    beq_iff_eq] at h
  rcases h with (((h | h) | rfl) | rfl) | rfl
  · exact isScalar_of_ord_lt (by omega)
  · exact isScalar_of_ord_lt (by omega)
  all_goals rfl

theorem isScalar_of_isAsciiDigit {c : CodePoint} (h : isAsciiDigit c = true) :
    isScalar c = true := by
  simp only [isAsciiDigit, Bool.and_eq_true, decide_eq_true_eq] at h
  exact isScalar_of_ord_lt (by omega)

/-- A text is what is left without the line feed at its end, and that line feed. -/
theorem dropFinalNewline_cases (s : PyStr) :
    s = dropFinalNewline s ∨ s = dropFinalNewline s ++ [CodePoint.scalar '\n'] := by
  unfold dropFinalNewline
  split_ifs with h
  · exact .inr (List.dropLast_append_getLast? _ h).symm
  · exact .inl rfl

/-- What `parse_agent_id` has seen of a text. -/
theorem parseAgentId_eq_ok {s : PyStr} {r : Role} {ticket : PyStr} {n : ℕ}
    (h : parseAgentId s = .ok (r, ticket, n)) :
    ∃ ordinal, s = r.name ++ CodePoint.scalar '#' :: (ticket ++ CodePoint.scalar '#' :: ordinal) ∧
      isTicketText ticket = true ∧ (dropFinalNewline ordinal).length ≤ 6 ∧
      (dropFinalNewline ordinal).all isAsciiDigit = true := by
  have hjoin := joinWith_splitOn '#' s
  unfold parseAgentId at h
  split at h
  · rename_i prefixText ticket' ordinal hsplit
    split at h
    · cases h
    · rename_i r' hr
      dsimp only at h
      split_ifs at h with hchecks
      simp only [Bool.and_eq_true, decide_eq_true_eq] at hchecks
      obtain ⟨rfl, rfl, -⟩ : r' = r ∧ ticket' = ticket ∧ _ := by simpa using Except.ok.inj h
      rw [hsplit] at hjoin
      refine ⟨ordinal, ?_, hchecks.1, hchecks.2.1.2, hchecks.2.2⟩
      rw [Role.ofName?_eq_some.mp hr, ← hjoin]
      simp [joinWith]
  · cases h

namespace AgentIdentity

variable (identity : AgentIdentity)

theorem isTicketText_ticketId : isTicketText identity.ticketId = true :=
  (parseAgentId_eq_ok identity.parses).choose_spec.2.1

theorem ticketId_ne_nil : identity.ticketId ≠ [] := by
  have h := identity.isTicketText_ticketId
  simp only [isTicketText, Bool.and_eq_true, Bool.not_eq_true', List.isEmpty_eq_false_iff] at h
  exact h.1.1

theorem all_isScalar_ticketId : identity.ticketId.all isScalar = true := by
  have h := identity.isTicketText_ticketId
  simp only [isTicketText, Bool.and_eq_true, List.all_eq_true] at h
  exact List.all_eq_true.mpr fun c hc => isScalar_of_isSegmentChar (h.2 c hc)

theorem all_isScalar_agentId : identity.agentId.all isScalar = true := by
  obtain ⟨ordinal, htext, -, -, hdigits⟩ := parseAgentId_eq_ok identity.parses
  have hordinal : ordinal.all isScalar = true := by
    have hdropped : (dropFinalNewline ordinal).all isScalar = true :=
      List.all_eq_true.mpr fun c hc => isScalar_of_isAsciiDigit (List.all_eq_true.mp hdigits c hc)
    rcases dropFinalNewline_cases ordinal with h | h
    · rwa [h]
    · rw [h, List.all_append, hdropped]
      rfl
  rw [htext, List.all_append, List.all_cons, List.all_append, List.all_cons,
    identity.role.all_isScalar_name, identity.all_isScalar_ticketId, hordinal]
  rfl

theorem length_agentId_le : identity.agentId.length ≤ 81 := by
  obtain ⟨ordinal, htext, hticket, hlength, -⟩ := parseAgentId_eq_ok identity.parses
  have hordinal : ordinal.length ≤ 7 := by
    rcases dropFinalNewline_cases ordinal with h | h
    · rw [h]
      omega
    · rw [h, List.length_append, List.length_singleton]
      omega
  have hname := identity.role.length_name_le
  simp only [isTicketText, Bool.and_eq_true, decide_eq_true_eq] at hticket
  rw [htext, List.length_append, List.length_cons, List.length_append, List.length_cons]
  omega

/-- The text keeps its mark when it is stripped. -/
theorem strip_agentId_ne_nil : strip identity.agentId ≠ [] := by
  obtain ⟨ordinal, htext, -⟩ := parseAgentId_eq_ok identity.parses
  refine strip_ne_nil (c := CodePoint.scalar '#') ?_ (by decide)
  rw [htext]
  simp

end AgentIdentity

/-! ## The registry -/

/-- `RoleRegistry`. -/
structure RoleRegistry where
  identities : Dict PyStr AgentIdentity
  ordinals : Dict (Role × PyStr) ℕ

namespace RoleRegistry

/-- `RoleRegistry()` -/
def empty : RoleRegistry :=
  ⟨[], []⟩

/-- `f"{role}#{ticket}#{ordinal}"` -/
def agentIdText (r : Role) (ticketId : PyStr) (ordinal : ℕ) : PyStr :=
  r.name ++ CodePoint.scalar '#' ::
    (ticketId ++ CodePoint.scalar '#' :: ofChars (Nat.toDigits 10 ordinal))

/-- `spawn`; the ordinal is used up also when the identity is refused. -/
def spawn (registry : RoleRegistry) (roleName : Option PyStr) (ticketId : PyStr) :
    Except RoleError AgentIdentity × RoleRegistry :=
  match role roleName with
  | .error e => (.error e, registry)
  | .ok r =>
    if isValidTicketId ticketId then
      let ordinal := (registry.ordinals.get? (r, ticketId)).getD 0 + 1
      let counted := { registry with ordinals := registry.ordinals.set (r, ticketId) ordinal }
      match AgentIdentity.make (agentIdText r ticketId ordinal) r ticketId ordinal with
      | .error e => (.error e, counted)
      | .ok identity =>
        (.ok identity,
          { counted with identities := registry.identities.set identity.agentId identity })
    else (.error .invalidTicket, registry)

/-- `require` -/
def require (registry : RoleRegistry) (agentId : PyStr) : Except RoleError AgentIdentity :=
  orRaise (registry.identities.get? agentId) .unknownAgent

/-- The identity is the one that was given out under its text. -/
def Known (registry : RoleRegistry) (identity : AgentIdentity) : Prop :=
  registry.identities.get? identity.agentId = some identity

instance (registry : RoleRegistry) (identity : AgentIdentity) :
    Decidable (registry.Known identity) :=
  inferInstanceAs (Decidable (_ = _))

/-- `assert_may_write` -/
def assertMayWrite (registry : RoleRegistry) (identity : AgentIdentity) :
    Except RoleError Unit := do
  Py.require (decide (registry.Known identity)) .unknownAgent
  Py.require identity.mayWrite (.roleWriteDenied identity.role)

/-- `assert_conclusion_kind` -/
def assertConclusionKind (registry : RoleRegistry) (identity : AgentIdentity) (kind : PyStr) :
    Except RoleError Unit := do
  Py.require (decide (registry.Known identity)) .unknownAgent
  Py.require (decide (kind = identity.role.conclusionsKind)) (.conclusionOutOfRole identity.role)

variable {registry : RoleRegistry} {identity : AgentIdentity}

theorem require_eq_ok (h : registry.Known identity) :
    registry.require identity.agentId = .ok identity := by
  rw [require, h]
  rfl

/-- What was given out stays known when something else is given out. -/
theorem Known.spawn (h : registry.Known identity) (roleName : Option PyStr) (ticketId : PyStr) :
    (registry.spawn roleName ticketId).2.Known identity := by
  unfold RoleRegistry.spawn
  split
  · exact h
  · dsimp only
    split_ifs
    · split
      · exact h
      · rename_i given _
        show Dict.get? (registry.identities.set given.agentId given) identity.agentId =
          some identity
        rw [Dict.get?_set]
        split_ifs with hid
        · rw [AgentIdentity.ext_id hid]
        · exact h
    · exact h

/-- What is given out is known. -/
theorem known_spawn {roleName : Option PyStr} {ticketId : PyStr} {after : RoleRegistry}
    (h : registry.spawn roleName ticketId = (.ok identity, after)) : after.Known identity := by
  unfold RoleRegistry.spawn at h
  split at h
  · cases h
  · dsimp only at h
    split_ifs at h
    · split at h
      · cases h
      · rename_i given hgiven
        obtain ⟨hid, rfl⟩ := Prod.mk.inj h
        obtain rfl := Except.ok.inj hid
        show Dict.get? (Dict.set _ given.agentId given) given.agentId = some given
        rw [Dict.get?_set, if_pos rfl]
    · cases h

end RoleRegistry

end AgentTeam

end Icode
