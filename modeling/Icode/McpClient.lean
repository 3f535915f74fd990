import Icode.JsonRecursion
import Icode.Checks
import Icode.PyRepr
import Icode.Utf8

/-!
# The requests of the MCP client

A server may send any lines while `request` waits for its response : `dispatch` sorts them, and
`awaitResponse` reads until one of them ends the request. `session` is a client that sends one
request after another. When a line cannot be written, the process is gone or its pipe is broken.

`FrameKind` says what a line is in JSON-RPC, `Good` what the client should do about the lines of one
request. It does so exactly if every line is `Plain` (`inbound_dispatch`) : `isinstance(id, int)`
passes over the requests with a text or a float for an id, and takes `true` and `false` for numbers,
as `==` does with the id of a response.
-/

namespace Icode.McpClient

open Py

/-! ## The client -/

/-- `_CLIENT_METHODS` -/
def clientMethods : List PyStr :=
  [lit "initialize", lit "tools/list", lit "tools/call"]

/-- `_MAX_REFUSALS` -/
def maxRefusals : ℕ :=
  16

/-- The messages of a `protocol_error`. -/
inductive ProtocolProblem where
  /-- 帧不是合法 JSON -/
  | notJson
  /-- 帧不是 JSON-RPC 2.0 对象 -/
  | notObject
  /-- 帧既无 method 也无 id -/
  | neither
  /-- 响应 id 不匹配 -/
  | idMismatch
  /-- result 必须是对象 -/
  | result
  deriving DecidableEq

/-- `McpClientError`, by its code. -/
inductive McpError where
  | notStarted
  | clientMethodRefused (method : PyStr)
  | transportClosed
  | timeout (method : PyStr)
  | oversizeResponse
  | transportError (name : PyStr)
  | protocolError (p : ProtocolProblem)
  | batchNotSupported
  | remoteError (text : PyStr)
  deriving DecidableEq

/-- An entry of `refusals`. -/
structure Refusal where
  method : PyStr
  hadId : Bool
  deriving DecidableEq

/-- A client between two requests. -/
structure Client where
  nextId : ℕ
  refusals : List Refusal

/-- The interpreter: its recursion limit, and `str.isprintable` of a character. -/
structure Interpreter where
  recursionLimit : ℕ
  printable : CodePoint → Bool

/-- What `frames.get` gives while a request waits. -/
inductive Incoming where
  /-- A line, and whether the server can be written to. -/
  | line (raw : Bytes) (writable : Bool)
  /-- The reader has ended. -/
  | closed (error : Option McpError)
  | timeout

/-- `isinstance(value, int)`. -/
def isInstanceInt : Json → Bool
  | .int _ => true
  | .bool _ => true
  | _ => false

/-- `_record_refusal`. -/
def Client.recordRefusal (c : Client) (method : PyStr) (hadId : Bool) : Client :=
  if c.refusals.length < maxRefusals then
    { c with refusals := c.refusals ++ [⟨method.take 64, hadId⟩] }
  else c

/-- The answer to a request of the server. -/
def notSupported (id : Json) : Json :=
  .obj [(lit "jsonrpc", .str (lit "2.0")), (lit "id", id),
    (lit "error", .obj [(lit "code", .int (-32601)),
      (lit "message", .str (lit "method not supported by this client"))])]

/-- What `_dispatch` leaves behind. -/
structure Dispatched where
  client : Client
  /-- The frames that are written. -/
  written : List Json
  result : Except McpError (Option Members)

/-- `json.loads(line.decode("utf-8"))`; every exception is caught. -/
def frameOf (env : Interpreter) (raw : Bytes) : Option Json :=
  (decode raw).bind fun text => (loadsWithin env.recursionLimit text).toOption

/-- `_dispatch`. -/
def Client.dispatch (env : Interpreter) (c : Client) (raw : Bytes) (writable : Bool) : Dispatched :=
  match frameOf env raw with
  | none => ⟨c, [], .error (.protocolError .notJson)⟩
  | some (.arr _) => ⟨c.recordRefusal (lit "batch") false, [], .error .batchNotSupported⟩
  | some (.obj frame) =>
    if !(Members.get frame (lit "jsonrpc")).isText (lit "2.0") then
      ⟨c, [], .error (.protocolError .notObject)⟩
    else if Dict.has frame (lit "method") then
      let method := (Members.get frame (lit "method")).pyStr env.printable
      let id := Members.get frame (lit "id")
      let c := c.recordRefusal (method.take 64) (isInstanceInt id)
      if isInstanceInt id then
        if writable then ⟨c, [notSupported id], .ok none⟩
        else ⟨c, [], .error .transportClosed⟩
      else ⟨c, [], .ok none⟩
    else if !Dict.has frame (lit "id") then ⟨c, [], .error (.protocolError .neither)⟩
    else ⟨c, [], .ok (some frame)⟩
  | some _ => ⟨c, [], .error (.protocolError .notObject)⟩

/-! ## A request -/

/-- `f"{code} {message[:200]}"`. -/
def remoteText (env : Interpreter) (error : Json) : PyStr :=
  match error with
  | .obj ms =>
    (Members.get ms (lit "code")).pyStr env.printable ++ lit " " ++
      ((Members.get ms (lit "message")).pyStr env.printable).take 200
  | v => lit "None" ++ lit " " ++ (v.pyStr env.printable).take 200

/-- The end of the loop: what a response gives. -/
def resultOf (env : Interpreter) (requestId : ℕ) (frame : Members) : Except McpError Members := do
  require ((Members.get frame (lit "id")).pyEq (.int requestId)) (.protocolError .idMismatch)
  let error := Members.get frame (lit "error")
  require (error.pyEq .null) (.remoteError (remoteText env error))
  match Members.get frame (lit "result") with
  | .obj result => .ok result
  | _ => .error (.protocolError .result)

/-- A line that is dispatched, and what is written for it. -/
structure Seen where
  raw : Bytes
  writable : Bool
  written : List Json

/-- A call of `_request` that has ended. -/
structure RequestRun where
  requestId : ℕ
  seen : List Seen
  outcome : Except McpError Members
  client : Client
  /-- What is not read yet. -/
  rest : List Incoming

def RequestRun.see (r : RequestRun) (x : Seen) : RequestRun :=
  { r with seen := x :: r.seen }

/-- The loop of `_request`; nothing comes after the last of the lines. -/
def awaitResponse (env : Interpreter) (method : PyStr) (requestId : ℕ) :
    Client → List Incoming → RequestRun
  | c, [] => ⟨requestId, [], .error (.timeout method), c, []⟩
  | c, .timeout :: rest => ⟨requestId, [], .error (.timeout method), c, rest⟩
  | c, .closed error :: rest => ⟨requestId, [], .error (error.getD .transportClosed), c, rest⟩
  | c, .line raw writable :: rest =>
    let d := c.dispatch env raw writable
    let x : Seen := ⟨raw, writable, d.written⟩
    match d.result with
    | .error e => ⟨requestId, [x], .error e, d.client, rest⟩
    | .ok none => (awaitResponse env method requestId d.client rest).see x
    | .ok (some frame) => ⟨requestId, [x], resultOf env requestId frame, d.client, rest⟩

/-- A call of `_request`: whether the session is open, and whether the request can be written. -/
structure Call where
  method : PyStr
  started : Bool
  writable : Bool

/-- `_request`. -/
def request (env : Interpreter) (c : Client) (call : Call) (incoming : List Incoming) : RequestRun :=
  if !call.started then ⟨c.nextId, [], .error .notStarted, c, incoming⟩
  else if call.method ∉ clientMethods then
    ⟨c.nextId, [], .error (.clientMethodRefused call.method), c, incoming⟩
  else
    let c := { c with nextId := c.nextId + 1 }
    if !call.writable then ⟨c.nextId, [], .error .transportClosed, c, incoming⟩
    else awaitResponse env call.method c.nextId c incoming

/-- The requests of a client, one after another. -/
def session (env : Interpreter) : Client → List Call → List Incoming → List RequestRun
  | _, [], _ => []
  | c, call :: calls, incoming =>
    let r := request env c call incoming
    r :: session env r.client calls r.rest

/-! ## What is claimed -/

/-- What a line is. -/
inductive FrameKind where
  /-- A request of the server: an object with a method, and a text or a number as its id. -/
  | request (id : Json)
  /-- Another object with a method; the id is `null` if there is none. -/
  | notification (id : Json)
  | response (id : Json) (frame : Members)
  | batch
  | malformed

/-- A text or a number. -/
def isRequestId : Json → Bool
  | .str _ => true
  | .int _ => true
  | .float _ => true
  | _ => false

/-- The kind of a frame. -/
def kindOf : Option Json → FrameKind
  | some (.arr _) => .batch
  | some (.obj frame) =>
    if (Members.get frame (lit "jsonrpc")).isText (lit "2.0") then
      let id := Members.get frame (lit "id")
      if Dict.has frame (lit "method") then
        if isRequestId id then .request id else .notification id
      else if Dict.has frame (lit "id") then .response id frame
      else .malformed
    else .malformed
  | _ => .malformed

/-- The id is the number `n`, as a JSON value. -/
def SameId (id : Json) (n : ℕ) : Prop :=
  id.number = some (n : ℚ) ∧ ∀ b, id ≠ .bool b

/-- What should be written for a line. -/
def due : FrameKind → List Json
  | .request id => [notSupported id]
  | _ => []

/-- A response to another request, a batch or no frame at all. -/
def Untrusted (requestId : ℕ) : FrameKind → Prop
  | .response id _ => ¬SameId id requestId
  | .batch => True
  | .malformed => True
  | _ => False

/-- A request has been served as it should. -/
structure Good (env : Interpreter) (r : RequestRun) : Prop where
  answered : ∀ x ∈ r.seen, x.written = due (kindOf (frameOf env x.raw))
  returned : ∀ result, r.outcome = .ok result → ∃ x ∈ r.seen, ∃ id frame,
    kindOf (frameOf env x.raw) = .response id frame ∧ SameId id r.requestId ∧
      Members.get frame (lit "result") = .obj result
  raises : ∀ x ∈ r.seen, Untrusted r.requestId (kindOf (frameOf env x.raw)) →
    ∃ e, r.outcome = .error e

/-- The response has a result and no error. -/
def Succeeds (frame : Members) : Prop :=
  Members.get frame (lit "error") = .null ∧ ∃ result, Members.get frame (lit "result") = .obj result

/-- A request has a whole number as its id and can be answered; where a truth value stands for an id,
nothing can be written, or the response is none to the request. -/
def Plain (requestId : ℕ) (writable : Bool) : FrameKind → Prop
  | .request id => id.isInt = true ∧ writable = true
  | .notification id => ∀ b, id = .bool b → writable = false
  | .response id frame =>
    ¬((∃ b, id = .bool b) ∧ id.number = some (requestId : ℚ) ∧ Succeeds frame)
  | _ => True

/-! ## One line -/

theorem pyEq_int_iff {id : Json} {n : ℕ} :
    id.pyEq (.int n) = true ↔ id.number = some (n : ℚ) := by
  cases id with
  | float x => cases hx : x.toRat <;> simp [Json.pyEq, Json.number, hx]
  | _ => simp [Json.pyEq, Json.number]

/-- A frame with a method: it is answered if its id is a `bool` or an `int`. -/
structure Refuses (d : Dispatched) (id : Json) (writable : Bool) : Prop where
  written : d.written = if isInstanceInt id && writable then [notSupported id] else []
  result : d.result =
    if isInstanceInt id && !writable then .error .transportClosed else .ok none

/-- What `dispatch` does with a line, by its kind. -/
theorem dispatch_spec (env : Interpreter) (c : Client) (raw : Bytes) (writable : Bool) :
    match kindOf (frameOf env raw) with
    | .request id => isRequestId id = true ∧ Refuses (c.dispatch env raw writable) id writable
    | .notification id => isRequestId id = false ∧ Refuses (c.dispatch env raw writable) id writable
    | .response id frame => id = Members.get frame (lit "id") ∧
        (c.dispatch env raw writable).written = [] ∧
          (c.dispatch env raw writable).result = .ok (some frame)
    | _ => (c.dispatch env raw writable).written = [] ∧
        ∃ e, (c.dispatch env raw writable).result = .error e := by
  unfold Client.dispatch
  rcases frameOf env raw with _ | _ | _ | _ | _ | _ | _ | frame
  case some.obj =>
    simp only [kindOf]
    by_cases hrpc : (Members.get frame (lit "jsonrpc")).isText (lit "2.0") = true
    · by_cases hmethod : Dict.has frame (lit "method") = true
      · have hrefuses : ∀ c : Client, Refuses
            (if isInstanceInt (Members.get frame (lit "id")) = true then
              if writable = true then
                ⟨c, [notSupported (Members.get frame (lit "id"))], .ok none⟩
              else ⟨c, [], .error .transportClosed⟩
            else ⟨c, [], .ok none⟩) (Members.get frame (lit "id")) writable := by
          intro c
          by_cases hid : isInstanceInt (Members.get frame (lit "id")) = true
          · cases writable <;> exact ⟨by simp [hid], by simp [hid]⟩
          · exact ⟨by simp [hid], by simp [hid]⟩
        by_cases hid : isRequestId (Members.get frame (lit "id")) = true
        · simpa [hrpc, hmethod, hid] using hrefuses _
        · simpa [hrpc, hmethod, hid] using hrefuses _
      · by_cases hid : Dict.has frame (lit "id") = true
        · simp [hrpc, hmethod, hid]
        · simp [hrpc, hmethod, hid]
    · simp [hrpc]
  all_goals simp [kindOf]

theorem isRequestId_and_isInstanceInt {id : Json} (h : isRequestId id = true) :
    isInstanceInt id = id.isInt := by
  cases id <;> simp_all [isRequestId, isInstanceInt, Json.isInt]

theorem isInstanceInt_of_not_isRequestId {id : Json} (h : isRequestId id = false) :
    isInstanceInt id = true ↔ ∃ b, id = .bool b := by
  cases id <;> simp_all [isRequestId, isInstanceInt]

theorem Refuses.due_request {d : Dispatched} {id : Json} {writable : Bool}
    (h : Refuses d id writable) (hid : isRequestId id = true) :
    d.written = due (.request id) ↔ id.isInt = true ∧ writable = true := by
  rw [h.written, isRequestId_and_isInstanceInt hid, due, ← Bool.and_eq_true]
  split <;> simp_all

theorem Refuses.due_notification {d : Dispatched} {id : Json} {writable : Bool}
    (h : Refuses d id writable) (hid : isRequestId id = false) :
    d.written = due (.notification id) ↔ ∀ b, id = .bool b → writable = false := by
  have hbool := isInstanceInt_of_not_isRequestId hid
  rw [h.written, show due (.notification id) = [] from rfl]
  by_cases hint : isInstanceInt id = true
  · obtain ⟨b, rfl⟩ := hbool.mp hint
    simp [hint]
  · have hno : ∀ b, id ≠ .bool b := fun b hb => hint (hbool.mpr ⟨b, hb⟩)
    simp [hint, hno]

/-! ## One request -/

/-- The responses whose result is returned. -/
theorem resultOf_eq_ok {env : Interpreter} {n : ℕ} {frame result : Members} :
    resultOf env n frame = .ok result ↔
      (Members.get frame (lit "id")).number = some (n : ℚ) ∧
        Members.get frame (lit "error") = .null ∧ Members.get frame (lit "result") = .obj result := by
  simp only [resultOf, bind_eq_ok, require_eq_ok, pyEq_int_iff, Json.pyEq_null, exists_const]
  refine and_congr_right fun _ => and_congr_right fun _ => ?_
  cases Members.get frame (lit "result") <;> simp

theorem good_of_error {env : Interpreter} {r : RequestRun} {e : McpError} (h : r.outcome = .error e) :
    Good env r ↔ ∀ x ∈ r.seen, x.written = due (kindOf (frameOf env x.raw)) :=
  ⟨Good.answered, fun hwritten => ⟨hwritten, fun _ hok => by simp [h] at hok, fun _ _ _ => ⟨e, h⟩⟩⟩

/-- A line with a method leaves the rest of the request to the lines after it. -/
theorem good_see {env : Interpreter} {r : RequestRun} {x : Seen}
    (hresponse : ∀ id frame, kindOf (frameOf env x.raw) ≠ .response id frame)
    (htrusted : ¬Untrusted r.requestId (kindOf (frameOf env x.raw))) :
    Good env (r.see x) ↔ x.written = due (kindOf (frameOf env x.raw)) ∧ Good env r := by
  constructor
  · intro h
    obtain ⟨hx, hseen⟩ := List.forall_mem_cons.mp h.answered
    refine ⟨hx, hseen, fun result hok => ?_, fun y hy => h.raises y (List.mem_cons_of_mem _ hy)⟩
    obtain ⟨y, hy, id, frame, hkind, hid⟩ := h.returned result hok
    rcases List.mem_cons.mp hy with rfl | hy
    · exact absurd hkind (hresponse id frame)
    · exact ⟨y, hy, id, frame, hkind, hid⟩
  · rintro ⟨hx, h⟩
    refine ⟨List.forall_mem_cons.mpr ⟨hx, h.answered⟩, fun result hok => ?_, fun y hy hbad => ?_⟩
    · obtain ⟨y, hy, hfound⟩ := h.returned result hok
      exact ⟨y, List.mem_cons_of_mem _ hy, hfound⟩
    · rcases List.mem_cons.mp hy with rfl | hy
      · exact absurd hbad htrusted
      · exact h.raises y hy hbad

/-- A request that ends with a response. -/
theorem good_response {env : Interpreter} {r : RequestRun} {x : Seen} {id : Json} {frame : Members}
    (hseen : r.seen = [x]) (hkind : kindOf (frameOf env x.raw) = .response id frame)
    (hid : id = Members.get frame (lit "id")) (hwritten : x.written = [])
    (hout : r.outcome = resultOf env r.requestId frame) :
    Good env r ↔ Plain r.requestId x.writable (.response id frame) := by
  have hok : ∀ result, r.outcome = .ok result ↔ id.number = some (r.requestId : ℚ) ∧
      Members.get frame (lit "error") = .null ∧ Members.get frame (lit "result") = .obj result := by
    intro result
    rw [hout, hid, resultOf_eq_ok]
  constructor
  · rintro h ⟨⟨b, hb⟩, hnumber, herror, result, hresult⟩
    obtain ⟨y, hy, id', frame', hkind', hsame, -⟩ :=
      h.returned result ((hok result).mpr ⟨hnumber, herror, hresult⟩)
    rw [hseen, List.mem_singleton] at hy
    obtain ⟨rfl, rfl⟩ : id = id' ∧ frame = frame' := by simpa [hy, hkind] using hkind'
    exact hsame.2 b hb
  · intro h
    have hsame : ∀ result, r.outcome = .ok result → SameId id r.requestId := by
      intro result hresult
      obtain ⟨hnumber, herror, hget⟩ := (hok result).mp hresult
      exact ⟨hnumber, fun b hb => h ⟨⟨b, hb⟩, hnumber, herror, result, hget⟩⟩
    refine ⟨?_, fun result hresult => ?_, fun y hy hbad => ?_⟩
    · simp [hseen, hkind, hwritten, due]
    · exact ⟨x, by simp [hseen], id, frame, hkind, hsame result hresult,
        ((hok result).mp hresult).2.2⟩
    · rw [hseen, List.mem_singleton] at hy
      cases hresult : r.outcome with
      | error e => exact ⟨e, rfl⟩
      | ok result =>
        rw [hy, hkind] at hbad
        exact absurd (hsame result hresult) hbad

section Loop

variable {env : Interpreter} {method : PyStr} {n : ℕ} {c : Client} {raw : Bytes} {writable : Bool}
  {rest : List Incoming}

theorem awaitResponse_line : awaitResponse env method n c (.line raw writable :: rest) =
    match (c.dispatch env raw writable).result with
    | .error e =>
      ⟨n, [⟨raw, writable, (c.dispatch env raw writable).written⟩], .error e,
        (c.dispatch env raw writable).client, rest⟩
    | .ok none =>
      (awaitResponse env method n (c.dispatch env raw writable).client rest).see
        ⟨raw, writable, (c.dispatch env raw writable).written⟩
    | .ok (some frame) =>
      ⟨n, [⟨raw, writable, (c.dispatch env raw writable).written⟩], resultOf env n frame,
        (c.dispatch env raw writable).client, rest⟩ :=
  rfl

theorem awaitResponse_error {e : McpError} (h : (c.dispatch env raw writable).result = .error e) :
    awaitResponse env method n c (.line raw writable :: rest) =
      ⟨n, [⟨raw, writable, (c.dispatch env raw writable).written⟩], .error e,
        (c.dispatch env raw writable).client, rest⟩ := by
  rw [awaitResponse_line, h]

theorem awaitResponse_none (h : (c.dispatch env raw writable).result = .ok none) :
    awaitResponse env method n c (.line raw writable :: rest) =
      (awaitResponse env method n (c.dispatch env raw writable).client rest).see
        ⟨raw, writable, (c.dispatch env raw writable).written⟩ := by
  rw [awaitResponse_line, h]

theorem awaitResponse_some {frame : Members}
    (h : (c.dispatch env raw writable).result = .ok (some frame)) :
    awaitResponse env method n c (.line raw writable :: rest) =
      ⟨n, [⟨raw, writable, (c.dispatch env raw writable).written⟩], resultOf env n frame,
        (c.dispatch env raw writable).client, rest⟩ := by
  rw [awaitResponse_line, h]

/-- The request is served as it should exactly if the lines it reads are plain. -/
structure PlainIffGood (env : Interpreter) (n : ℕ) (r : RequestRun) : Prop where
  requestId : r.requestId = n
  good : Good env r ↔ ∀ x ∈ r.seen, Plain n x.writable (kindOf (frameOf env x.raw))

theorem plainIffGood_error {x : Seen} {e : McpError} {c' : Client}
    (h : x.written = due (kindOf (frameOf env x.raw)) ↔
      Plain n x.writable (kindOf (frameOf env x.raw))) :
    PlainIffGood env n ⟨n, [x], .error e, c', rest⟩ := by
  refine ⟨rfl, ?_⟩
  rw [good_of_error rfl]
  simpa using h

/-- A line with a method. -/
theorem plainIffGood_method {k : FrameKind} {id : Json}
    (ih : ∀ c, PlainIffGood env n (awaitResponse env method n c rest))
    (hkind : kindOf (frameOf env raw) = k) (hresponse : ∀ id frame, k ≠ .response id frame)
    (htrusted : ¬Untrusted n k) (hrefuses : Refuses (c.dispatch env raw writable) id writable)
    (hdue : (c.dispatch env raw writable).written = due k ↔ Plain n writable k) :
    PlainIffGood env n (awaitResponse env method n c (.line raw writable :: rest)) := by
  subst hkind
  have hresult := hrefuses.result
  split at hresult
  · rw [awaitResponse_error hresult]
    exact plainIffGood_error hdue
  · rw [awaitResponse_none hresult]
    obtain ⟨hn, hgood⟩ := ih (c.dispatch env raw writable).client
    refine ⟨hn, ?_⟩
    rw [good_see hresponse (by rwa [hn]), hgood, hdue, RequestRun.see, List.forall_mem_cons]

/-- The loop, by the kind of the first line. -/
theorem plainIffGood_awaitResponse (env : Interpreter) (method : PyStr) (n : ℕ) :
    ∀ (incoming : List Incoming) (c : Client),
      PlainIffGood env n (awaitResponse env method n c incoming)
  | [], _ => ⟨rfl, by rw [good_of_error (e := .timeout method) rfl]; simp [awaitResponse]⟩
  | .timeout :: _, _ => ⟨rfl, by rw [good_of_error rfl]; simp [awaitResponse]⟩
  | .closed _ :: _, _ => ⟨rfl, by rw [good_of_error rfl]; simp [awaitResponse]⟩
  | .line raw writable :: rest, c => by
    have ih := plainIffGood_awaitResponse env method n rest
    have hspec := dispatch_spec env c raw writable
    cases hkind : kindOf (frameOf env raw) with
    | request id =>
      simp only [hkind] at hspec
      exact plainIffGood_method ih hkind (fun _ _ h => by cases h) (fun h => h) hspec.2
        (hspec.2.due_request hspec.1)
    | notification id =>
      simp only [hkind] at hspec
      exact plainIffGood_method ih hkind (fun _ _ h => by cases h) (fun h => h) hspec.2
        (hspec.2.due_notification hspec.1)
    | response id frame =>
      simp only [hkind] at hspec
      obtain ⟨hid, hwritten, hresult⟩ := hspec
      rw [awaitResponse_some hresult]
      refine ⟨rfl, ?_⟩
      rw [good_response rfl hkind hid hwritten rfl]
      simp [hkind]
    | batch =>
      simp only [hkind] at hspec
      obtain ⟨hwritten, e, he⟩ := hspec
      rw [awaitResponse_error he]
      exact plainIffGood_error (by simp [hkind, hwritten, due, Plain])
    | malformed =>
      simp only [hkind] at hspec
      obtain ⟨hwritten, e, he⟩ := hspec
      rw [awaitResponse_error he]
      exact plainIffGood_error (by simp [hkind, hwritten, due, Plain])

end Loop

/-! ## A session -/

theorem request_good (env : Interpreter) (c : Client) (call : Call) (incoming : List Incoming) :
    Good env (request env c call incoming) ↔ ∀ x ∈ (request env c call incoming).seen,
      Plain (request env c call incoming).requestId x.writable (kindOf (frameOf env x.raw)) := by
  unfold request
  split
  · rw [good_of_error rfl]
    simp
  split
  · rw [good_of_error rfl]
    simp
  simp only
  split
  · rw [good_of_error rfl]
    simp
  · obtain ⟨hn, hgood⟩ := plainIffGood_awaitResponse env call.method (c.nextId + 1) incoming
      { c with nextId := c.nextId + 1 }
    rw [hn, hgood]

/-- Every request of a session is served as it should exactly if the lines that are read meanwhile
are plain. -/
theorem inbound_dispatch (env : Interpreter) (c : Client) (calls : List Call)
    (incoming : List Incoming) :
    (∀ r ∈ session env c calls incoming, Good env r) ↔
      ∀ r ∈ session env c calls incoming, ∀ x ∈ r.seen,
        Plain r.requestId x.writable (kindOf (frameOf env x.raw)) := by
  induction calls generalizing c incoming with
  | nil => simp [session]
  | cons call calls ih =>
    simp only [session, List.forall_mem_cons]
    exact and_congr (request_good env c call incoming) (ih _ _)

/-- An interpreter with CPython's limit. -/
def cpython : Interpreter :=
  ⟨1000, fun _ => true⟩

/-- The frame is a request with a text as its id. -/
def isTextRequest : FrameKind → Bool
  | .request (.str _) => true
  | _ => false

/-- A request with a text as its id. -/
def textRequest : Bytes :=
  encodePass (lit "\x7b\"jsonrpc\":\"2.0\",\"id\":\"a\",\"method\":\"ping\"\x7d")

/-- It is passed over. -/
theorem textRequest_unanswered :
    ¬∀ r ∈ session cpython ⟨0, []⟩ [⟨lit "initialize", true, true⟩] [.line textRequest true],
      Good cpython r := by
  have hkind : isTextRequest (kindOf (frameOf cpython textRequest)) = true := by decide +kernel
  have hseen : (request cpython ⟨0, []⟩ ⟨lit "initialize", true, true⟩
      [.line textRequest true]).seen.any (fun x => x.raw == textRequest && x.written.isEmpty) =
        true := by decide +kernel
  intro h
  obtain ⟨x, hx, hpassed⟩ := List.any_eq_true.mp hseen
  simp only [Bool.and_eq_true, beq_iff_eq, List.isEmpty_iff] at hpassed
  have hwritten := (h _ List.mem_cons_self).answered x hx
  rw [hpassed.1, hpassed.2] at hwritten
  revert hwritten hkind
  cases kindOf (frameOf cpython textRequest) <;> simp [isTextRequest, due]

end Icode.McpClient
