import Icode.JsonRecursion
import Icode.SandboxPolicy
import Icode.Utf8

/-!
# The write gate of the WebUI

`doPost` is `do_POST`, up to the call of `ApprovalRegistry.resolve` : the path, the origin, the
session cookie, the body and its fields are checked in this order. The parser of cookies is a
parameter, and an exception of the handler is an outcome of its own.

The origin is compared by prefix, so `http://localhost.evil.example` passes; and a decision that is a
list or an object raises `TypeError` (`gate_fails`). `web_gate` says that this is all: the gate holds
exactly of the requests that are no `Lookalike`, or are refused for their session or their body, and
`validateDecisionPayload` answers unless the decision cannot be hashed when it is looked up.
-/

namespace Icode

open Py

/-! ## The payload -/

/-- `ALLOWED_FIELDS` -/
def allowedFields : List PyStr :=
  [lit "approval_id", lit "decision", lit "reason"]

/-- `DECISIONS` -/
def decisions : List PyStr :=
  [lit "approve", lit "deny"]

/-- `MAX_REASON_CHARS` -/
def maxDecisionReason : ℕ :=
  500

/-- `MAX_BODY_BYTES` -/
def maxBodyBytes : ℤ :=
  64 * 1024

/-- `SESSION_COOKIE` -/
def sessionCookie : PyStr :=
  lit "icode_session"

/-- A request body that is accepted. -/
structure DecisionPayload where
  approvalId : PyStr
  decision : PyStr
  reason : PyStr
  deriving DecidableEq

/-- Why a payload is refused, by its message. -/
inductive PayloadProblem where
  /-- 请求体必须是 JSON 对象 -/
  | notObject
  /-- 存在未知字段（本接口只接受审批决定，不接受路径/命令）：{sorted(unknown)} -/
  | unknownFields (unknown : List PyStr)
  /-- approval_id 缺失或类型错误 -/
  | approvalId
  /-- decision 必须是 ['approve', 'deny'] 之一 -/
  | decision
  /-- reason 必须是字符串 -/
  | reasonType
  /-- reason 过长（上限 500 字符） -/
  | reasonLength
  deriving DecidableEq

/-- What `validate_decision_payload` ends with when it accepts nothing. -/
inductive PayloadFailure where
  /-- It returns a message. -/
  | refused (e : PayloadProblem)
  /-- It raises the `TypeError` of a value that cannot be hashed. -/
  | raises
  deriving DecidableEq

/-- The members of an object. -/
def objectMembers? : Json → Option Members
  | .obj ms => some ms
  | _ => none

/-- `payload.get("reason", "")`. -/
def reasonOf (ms : Members) : Json :=
  (Dict.get? ms (lit "reason")).getD (.str [])

/-- `validate_decision_payload`. -/
def validateDecisionPayload (payload : Json) : Except PayloadFailure DecisionPayload := do
  let ms ← orRaise (objectMembers? payload) (.refused .notObject)
  let unknown := (Dict.keys ms).filter (· ∉ allowedFields)
  require unknown.isEmpty (.refused (.unknownFields (unknown.mergeSort strLe)))
  let approvalId ← orRaise ((Members.get ms (lit "approval_id")).text?.filter (!·.isEmpty))
    (.refused .approvalId)
  let decision := Members.get ms (lit "decision")
  require decision.hashable .raises
  let decision ← orRaise (decision.text?.filter (· ∈ decisions)) (.refused .decision)
  let reason ← orRaise (reasonOf ms).text? (.refused .reasonType)
  require (reason.length ≤ maxDecisionReason) (.refused .reasonLength)
  pure ⟨approvalId, decision, reason⟩

/-! ## The request -/

/-- A request; the header lines are those of one message, in order. -/
structure PostRequest where
  path : PyStr
  headers : List (PyStr × PyStr)
  rfile : Bytes

/-- A server: its token, the cookie parser and the recursion limit. -/
structure WebUI where
  sessionToken : PyStr
  /-- `SimpleCookie().load(raw)`: the values by name; `none` if it raises. -/
  loadCookie : PyStr → Option (Dict PyStr PyStr)
  recursionLimit : ℕ

namespace PostRequest

/-- `self.headers.get(name)`, with a name in lower case. -/
def header (req : PostRequest) (name : PyStr) : Option PyStr :=
  (req.headers.find? fun h => h.1.map lowerAscii == name).map Prod.snd

/-- The prefixes of `_origin_ok`. -/
def originPrefixes : List PyStr :=
  [lit "http://127.0.0.1", lit "http://localhost", lit "http://[::1]"]

/-- `_origin_ok`. -/
def originOk (req : PostRequest) : Bool :=
  match req.header (lit "origin") with
  | none => true
  | some origin => origin.isEmpty || originPrefixes.any (·.isPrefixOf origin)

/-- `_cookie_ok`; `compare_digest` raises `TypeError` for a text that is not ASCII. -/
def cookieOk (ui : WebUI) (req : PostRequest) : Option Bool :=
  match (req.header (lit "cookie")).filter (!·.isEmpty) with
  | none => some false
  | some raw =>
    match (ui.loadCookie raw).bind (Dict.get? · sessionCookie) with
    | none => some false
    | some value =>
      if value.all (·.ord < 128) && ui.sessionToken.all (·.ord < 128) then
        some (value == ui.sessionToken)
      else none

end PostRequest

/-- The whole number of a run of decimal digits. -/
def digitsValue (digits : PyStr) : ℕ :=
  digits.foldl (fun n c => 10 * n + (c.ord - 48)) 0

/-- Decimal digits, in groups that are parted by underscores. -/
def groupedDigits? (s : PyStr) : Option ℕ :=
  let groups := s.splitOnP (· == CodePoint.scalar '_')
  if groups.all fun group => !group.isEmpty && group.all isDecimalDigit then
    if intMaxStrDigits < groups.flatten.length then none else some (digitsValue groups.flatten)
  else none

/-- `int(text)`, of a text of Latin-1 characters; `none` for a `ValueError`. -/
def intOfText (text : PyStr) : Option ℤ :=
  match strip text with
  | [] => none
  | c :: cs =>
    if c == CodePoint.scalar '-' then (groupedDigits? cs).map fun n => -(n : ℤ)
    else if c == CodePoint.scalar '+' then (groupedDigits? cs).map (↑)
    else (groupedDigits? (c :: cs)).map (↑)

/-- Why a body is refused, by its message. -/
inductive BodyProblem where
  /-- Content-Length 非法 -/
  | contentLength
  /-- 请求体长度非法（须 1..65536 字节） -/
  | length
  /-- Content-Type 必须是 application/json -/
  | contentType
  /-- 请求体不是合法 JSON：{exc} -/
  | json
  deriving DecidableEq

/-- What the handler raises. -/
inductive HandlerError where
  /-- `TypeError` of `compare_digest`. -/
  | cookie
  /-- A `ValueError` that is no `JSONDecodeError`, or a `RecursionError`. -/
  | body (e : LoadsError)
  /-- `TypeError` of `decision not in DECISIONS`. -/
  | decision
  deriving DecidableEq

/-- `json.loads(raw.decode("utf-8"))`, with the exceptions that are caught. -/
def loadBody (ui : WebUI) (raw : Bytes) : Except HandlerError (Except BodyProblem Json) :=
  match decode raw with
  | none => .ok (.error .json)
  | some text =>
    match loadsWithin ui.recursionLimit text with
    | .ok v => .ok (.ok v)
    | .error (.json .decode) => .ok (.error .json)
    | .error e => .error (.body e)

/-- `_read_body`. -/
def readBody (ui : WebUI) (req : PostRequest) : Except HandlerError (Except BodyProblem Json) :=
  let length? := match (req.header (lit "content-length")).filter (!·.isEmpty) with
    | none => some 0
    | some text => intOfText text
  match length? with
  | none => .ok (.error .contentLength)
  | some length =>
    if length ≤ 0 ∨ maxBodyBytes < length then .ok (.error .length)
    else
      let ctype := ((req.header (lit "content-type")).getD []).takeWhile (· ≠ CodePoint.scalar ';')
      if (strip ctype).map lowerAscii ≠ lit "application/json" then .ok (.error .contentType)
      else loadBody ui (req.rfile.take length.toNat)

/-- How `do_POST` ends. -/
inductive PostOutcome where
  | notFound
  /-- 拒绝跨源请求 -/
  | crossOrigin
  /-- 缺少有效会话 Cookie -/
  | noSession
  | badBody (e : BodyProblem)
  | badPayload (e : PayloadProblem)
  | raises (e : HandlerError)
  /-- `ApprovalRegistry.resolve` is called. -/
  | resolves (d : DecisionPayload)
  deriving DecidableEq

/-- `path.split("?", 1)[0] == "/api/decision"`. -/
def PostRequest.toDecision (req : PostRequest) : Bool :=
  req.path.takeWhile (· ≠ CodePoint.scalar '?') == lit "/api/decision"

/-- `do_POST`, from the body on. -/
def postBody (ui : WebUI) (req : PostRequest) : PostOutcome :=
  match readBody ui req with
  | .error e => .raises e
  | .ok (.error e) => .badBody e
  | .ok (.ok payload) =>
    match validateDecisionPayload payload with
    | .error .raises => .raises .decision
    | .error (.refused e) => .badPayload e
    | .ok d => .resolves d

/-- `do_POST`. -/
def doPost (ui : WebUI) (req : PostRequest) : PostOutcome :=
  if !req.toDecision then .notFound
  else if !req.originOk then .crossOrigin
  else
    match req.cookieOk ui with
    | none => .raises .cookie
    | some false => .noSession
    | some true => postBody ui req

/-! ## What is claimed -/

/-- The hosts of the server. -/
def loopbackHosts : List PyStr :=
  [lit "127.0.0.1", lit "localhost", lit "[::1]"]

/-- An origin: `http`, the host, and perhaps a port. -/
def IsHttpOrigin (host origin : PyStr) : Prop :=
  origin = lit "http://" ++ host ∨
    ∃ port, port.all isDecimalDigit = true ∧ origin = lit "http://" ++ host ++ lit ":" ++ port

/-- The origin is absent, empty or one of the server's own. -/
def OriginAllowed (req : PostRequest) : Prop :=
  ∀ origin ∈ req.header (lit "origin"), origin = [] ∨ ∃ host ∈ loopbackHosts, IsHttpOrigin host origin

/-- The session cookie is the token. -/
def SessionMatches (ui : WebUI) (req : PostRequest) : Prop :=
  ∃ raw cookies, req.header (lit "cookie") = some raw ∧ ui.loadCookie raw = some cookies ∧
    Dict.get? cookies sessionCookie = some ui.sessionToken

/-- An object with the allowed fields only, an id, a decision and a bounded reason. -/
structure Decides (payload : Json) (d : DecisionPayload) : Prop where
  object : ∃ ms, payload = .obj ms ∧ (∀ key ∈ Dict.keys ms, key ∈ allowedFields) ∧
    Members.get ms (lit "approval_id") = .str d.approvalId ∧
      Members.get ms (lit "decision") = .str d.decision ∧ reasonOf ms = .str d.reason
  approvalId : d.approvalId ≠ []
  decision : d.decision ∈ decisions
  reason : d.reason.length ≤ maxDecisionReason

/-- The request reaches the registry only when it should. -/
def GateHolds (ui : WebUI) (req : PostRequest) : Prop :=
  ∀ d, doPost ui req = .resolves d → OriginAllowed req ∧ SessionMatches ui req ∧
    ∃ payload, readBody ui req = .ok (.ok payload) ∧ Decides payload d

/-- The payload is answered. -/
def Answers (payload : Json) : Prop :=
  validateDecisionPayload payload ≠ .error .raises

/-- The origin is none of the server's own, but begins like one of them. -/
def Lookalike (req : PostRequest) : Prop :=
  ¬OriginAllowed req ∧ ∃ origin ∈ req.header (lit "origin"),
    ∃ host ∈ loopbackHosts, (lit "http://" ++ host).isPrefixOf origin = true

/-- The payload has allowed fields only and an id, and its decision is a list or an object. -/
def ListDecision (payload : Json) : Prop :=
  ∃ ms id, payload = .obj ms ∧ (∀ key ∈ Dict.keys ms, key ∈ allowedFields) ∧
    Members.get ms (lit "approval_id") = .str id ∧ id ≠ [] ∧
      ((∃ xs, Members.get ms (lit "decision") = .arr xs) ∨
        ∃ ns, Members.get ms (lit "decision") = .obj ns)

/-! ## The answer to a payload -/

theorem objectMembers?_eq_some {payload : Json} {ms : Members} :
    objectMembers? payload = some ms ↔ payload = .obj ms := by
  cases payload <;> simp [objectMembers?]

theorem isEmpty_unknown_iff {ms : Members} :
    ((Dict.keys ms).filter (· ∉ allowedFields)).isEmpty = true ↔
      ∀ key ∈ Dict.keys ms, key ∈ allowedFields := by
  simp [List.isEmpty_iff, List.filter_eq_nil_iff]

theorem text?_filter_eq_some {v : Json} {s : PyStr} {ok : PyStr → Bool} :
    v.text?.filter ok = some s ↔ v = .str s ∧ ok s = true := by
  rw [Option.filter_eq_some_iff, Json.text?_eq_some]

theorem not_hashable_iff {v : Json} :
    v.hashable = false ↔ (∃ xs, v = .arr xs) ∨ ∃ ns, v = .obj ns := by
  cases v <;> simp [Json.hashable]

/-- The payloads that are accepted. -/
theorem validateDecisionPayload_eq_ok {payload : Json} {d : DecisionPayload} :
    validateDecisionPayload payload = .ok d ↔ Decides payload d := by
  obtain ⟨approvalId, decision, reason⟩ := d
  simp only [validateDecisionPayload, bind_eq_ok, require_eq_ok, orRaise_eq_ok,
    objectMembers?_eq_some, isEmpty_unknown_iff, text?_filter_eq_some, Json.text?_eq_some, pure,
    Except.pure, Except.ok.injEq, DecisionPayload.mk.injEq, decide_eq_true_eq]
  constructor
  · rintro ⟨ms, rfl, -, hfields, id, ⟨hid, hne⟩, -, -, text, ⟨hdecision, hmem⟩, why, hreason, -,
      hlength, rfl, rfl, rfl⟩
    exact ⟨⟨ms, rfl, hfields, hid, hdecision, hreason⟩, by simpa using hne, hmem, hlength⟩
  · rintro ⟨⟨ms, rfl, hfields, hid, hdecision, hreason⟩, hne, hmem, hlength⟩
    have hdecision : Members.get ms (lit "decision") = .str decision := hdecision
    exact ⟨ms, rfl, (), hfields, approvalId, ⟨hid, by simpa using hne⟩, (), by rw [hdecision]; rfl,
      decision, ⟨hdecision, hmem⟩, reason, hreason, (), hlength, rfl, rfl, rfl⟩

/-- The payloads that raise. -/
theorem validateDecisionPayload_eq_raises {payload : Json} :
    validateDecisionPayload payload = .error .raises ↔ ListDecision payload := by
  simp only [validateDecisionPayload, bind_eq_error, require_eq_error, orRaise_eq_error,
    require_eq_ok, orRaise_eq_ok, objectMembers?_eq_some, isEmpty_unknown_iff,
    text?_filter_eq_some, not_hashable_iff, pure, Except.pure, reduceCtorEq, and_false, or_false,
    false_or, exists_const, and_true]
  constructor
  · rintro ⟨ms, rfl, hfields, id, ⟨hid, hne⟩, hdecision⟩
    exact ⟨ms, id, rfl, hfields, hid, by simpa using hne, hdecision⟩
  · rintro ⟨ms, id, rfl, hfields, hid, hne, hdecision⟩
    exact ⟨ms, rfl, hfields, id, ⟨hid, by simpa using hne⟩, hdecision⟩

/-! ## The request -/

theorem originPrefixes_eq : PostRequest.originPrefixes = loopbackHosts.map (lit "http://" ++ ·) :=
  rfl

theorem prefix_of_isHttpOrigin {host origin : PyStr} (h : IsHttpOrigin host origin) :
    (lit "http://" ++ host).isPrefixOf origin = true := by
  rw [List.isPrefixOf_iff_prefix]
  rcases h with rfl | ⟨port, -, rfl⟩
  · exact List.prefix_refl _
  · rw [List.append_assoc]
    exact List.prefix_append _ _

/-- What the test of the origin lets through. -/
theorem originOk_iff {req : PostRequest} :
    req.originOk = true ↔ OriginAllowed req ∨ Lookalike req := by
  unfold PostRequest.originOk
  cases ho : req.header (lit "origin") with
  | none => simp [OriginAllowed, ho]
  | some origin =>
    have hallowed : OriginAllowed req ↔
        origin = [] ∨ ∃ host ∈ loopbackHosts, IsHttpOrigin host origin := by
      simp [OriginAllowed, ho]
    have hlike : Lookalike req ↔ ¬OriginAllowed req ∧
        ∃ host ∈ loopbackHosts, (lit "http://" ++ host).isPrefixOf origin = true := by
      simp [Lookalike, ho]
    have hprefix : PostRequest.originPrefixes.any (·.isPrefixOf origin) = true ↔
        ∃ host ∈ loopbackHosts, (lit "http://" ++ host).isPrefixOf origin = true := by
      rw [originPrefixes_eq, List.any_map, List.any_eq_true]
      rfl
    simp only [Bool.or_eq_true, List.isEmpty_iff, hprefix, hlike]
    constructor
    · rintro (rfl | h)
      · exact Or.inl (hallowed.mpr (Or.inl rfl))
      · by_cases hok : OriginAllowed req
        · exact Or.inl hok
        · exact Or.inr ⟨hok, h⟩
    · rintro (h | ⟨-, h⟩)
      · rcases hallowed.mp h with rfl | ⟨host, hhost, horigin⟩
        · exact Or.inl rfl
        · exact Or.inr ⟨host, hhost, prefix_of_isHttpOrigin horigin⟩
      · exact Or.inr h

theorem sessionMatches_of_cookieOk {ui : WebUI} {req : PostRequest}
    (h : req.cookieOk ui = some true) : SessionMatches ui req := by
  unfold PostRequest.cookieOk at h
  split at h
  · cases h
  rename_i raw hraw
  split at h
  · cases h
  rename_i value hvalue
  obtain ⟨cookies, hcookies, hget⟩ := Option.bind_eq_some_iff.mp hvalue
  split at h
  · have htoken : value = ui.sessionToken := by simpa using h
    exact ⟨raw, cookies, (Option.filter_eq_some_iff.mp hraw).1, hcookies, htoken ▸ hget⟩
  · cases h

/-- The requests that reach the registry. -/
theorem doPost_eq_resolves {ui : WebUI} {req : PostRequest} {d : DecisionPayload} :
    doPost ui req = .resolves d ↔ req.toDecision = true ∧ req.originOk = true ∧
      req.cookieOk ui = some true ∧
        ∃ payload, readBody ui req = .ok (.ok payload) ∧ Decides payload d := by
  have hbody : postBody ui req = .resolves d ↔
      ∃ payload, readBody ui req = .ok (.ok payload) ∧ Decides payload d := by
    unfold postBody
    split
    · simp [*]
    · simp [*]
    · rename_i payload hread
      simp only [hread, Except.ok.injEq, exists_eq_left', ← validateDecisionPayload_eq_ok]
      split <;> simp [*]
  unfold doPost
  by_cases hpath : req.toDecision
  · by_cases horigin : req.originOk
    · simp only [hpath, horigin, Bool.not_true, Bool.false_eq_true, if_false, true_and, ← hbody]
      split <;> simp [*]
    · simp [hpath, horigin]
  · simp [hpath]

/-! ## The gate -/

/-- The gate holds exactly of the requests whose origin is no lookalike, or that are refused for their
path, their session or their body; and a payload is answered unless its decision is a list or an
object. -/
theorem web_gate (ui : WebUI) (req : PostRequest) (payload : Json) :
    GateHolds ui req ∧ Answers payload ↔
      (Lookalike req → req.toDecision = true → req.cookieOk ui = some true →
        ¬∃ body d, readBody ui req = .ok (.ok body) ∧ Decides body d) ∧ ¬ListDecision payload := by
  refine and_congr ⟨?_, ?_⟩ (not_congr validateDecisionPayload_eq_raises)
  · rintro h hlike hpath hcookie ⟨body, d, hread, hdecides⟩
    have hresolves := (doPost_eq_resolves).mpr
      ⟨hpath, (originOk_iff).mpr (Or.inr hlike), hcookie, body, hread, hdecides⟩
    exact hlike.1 (h d hresolves).1
  · intro h d hresolves
    obtain ⟨hpath, horigin, hcookie, body, hread, hdecides⟩ := (doPost_eq_resolves).mp hresolves
    refine ⟨?_, sessionMatches_of_cookieOk hcookie, body, hread, hdecides⟩
    refine ((originOk_iff).mp horigin).resolve_right fun hlike => ?_
    exact h hlike hpath hcookie ⟨body, d, hread, hdecides⟩

/-- A server whose parser knows one cookie. -/
def webServer : WebUI where
  sessionToken := lit "t0ken"
  loadCookie raw :=
    if raw = lit "icode_session=t0ken" then some [(sessionCookie, lit "t0ken")] else none
  recursionLimit := 1000

/-- A request of another site, with the cookie. -/
def evilPost : PostRequest where
  path := lit "/api/decision"
  headers := [(lit "Origin", lit "http://localhost.evil.example"),
    (lit "Cookie", lit "icode_session=t0ken"), (lit "Content-Length", lit "43"),
    (lit "Content-Type", lit "application/json")]
  rfile := encodePass (lit "\x7b\"approval_id\":\"ap-1\",\"decision\":\"approve\"\x7d")

/-- A decision that is a list. -/
def listPayload : Json :=
  .obj [(lit "approval_id", .str (lit "ap-1")), (lit "decision", .arr [])]

theorem gate_fails : ¬GateHolds webServer evilPost ∧ ¬Answers listPayload := by
  constructor
  · intro h
    have hresolves : doPost webServer evilPost =
        .resolves ⟨lit "ap-1", lit "approve", []⟩ := by decide +kernel
    have horigin : evilPost.header (lit "origin") = some (lit "http://localhost.evil.example") := by
      decide
    rcases (h _ hresolves).1 _ horigin with hnil | ⟨host, hhost, ho⟩
    · cases hnil
    · have hport : lit "http://" ++ host = lit "http://localhost.evil.example" ∨
          (lit "http://" ++ host ++ lit ":").isPrefixOf (lit "http://localhost.evil.example") = true := by
        rcases ho with ho | ⟨port, -, ho⟩
        · exact Or.inl ho.symm
        · refine Or.inr (List.isPrefixOf_iff_prefix.mpr ⟨port, ?_⟩)
          rw [ho]
      have hnone : ∀ host ∈ loopbackHosts,
          ¬(lit "http://" ++ host = lit "http://localhost.evil.example" ∨
            (lit "http://" ++ host ++ lit ":").isPrefixOf (lit "http://localhost.evil.example") =
              true) := by decide
      exact hnone host hhost hport
  · exact fun h => h (by decide)

end Icode
