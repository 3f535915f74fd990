import Icode.JsonLine
import Icode.JsonRecursion
import Icode.PyRepr
import Icode.PyValue
import Icode.Utf8

/-!
# The ACP session

`dispatch` takes a frame of the editor to the bytes of its response, if it has one, and `serve` does so
with the lines of its input. The controller is a parameter with a state of its own : it returns any
mapping, or raises. What the encoder makes of the mapping is `TicketValue.toJson?`.

`FrameKind` says what a frame is in JSON-RPC and `Answered` what should come of it. `dispatch` raises
where its guards end : `json.loads` has exceptions that are no `JSONDecodeError`, and the responses are
written outside of every `try`. `acp_dispatch` says that these are all the cases, and that an object
without a method and without an id is passed over as a notification is.
-/

namespace Icode.Acp

open Py

/-! ## What a controller returns -/

/-- What becomes of the `code` of an exception in `str(getattr(error, "code", "") or …)`. -/
inductive ErrorCode where
  /-- It has none, or an empty one. -/
  | empty
  | text (s : PyStr)
  /-- Reading it raises. -/
  | unreadable
  deriving DecidableEq

/-- A key of a mapping. -/
inductive TicketKey where
  | none
  | bool (b : Bool)
  | int (n : ℤ)
  | float (x : PyFloat)
  | str (s : PyStr)
  /-- Of another type, with what `str` makes of it. -/
  | other (text : Except ErrorCode PyStr)

/-- A value of a mapping, as the encoder with `default=str` meets it. -/
inductive TicketValue where
  | null
  | bool (b : Bool)
  | int (n : ℤ)
  | float (x : PyFloat)
  | str (s : PyStr)
  | list (xs : List TicketValue)
  | dict (ms : List (TicketKey × TicketValue))
  /-- Of another type: `str(value)`. -/
  | other (text : PyStr)
  /-- A value whose `str` raises, or one of the containers around it. -/
  | raises

/-- How a call of the controller ends. -/
inductive Returned where
  | mapping (items : List (TicketKey × TicketValue))
  | notMapping
  | acpError (code : PyStr)
  /-- Another `Exception`; the items of a mapping may raise one, too. -/
  | error (code : ErrorCode)

/-- `AcpController`, with its state. -/
structure Controller (σ : Type) where
  handleIntent : σ → PyStr → Members → Returned × σ
  readTicket : σ → PyStr → Returned × σ

/-- `str(key)`. -/
def TicketKey.str? : TicketKey → Except ErrorCode PyStr
  | .none => .ok (lit "None")
  | .bool b => .ok (lit (if b then "True" else "False"))
  | .int n =>
    match intText? n with
    | some s => .ok (ofChars s)
    | .none => .error .empty
  | .float x => .ok (ofChars x.repr)
  | .str s => .ok s
  | .other text => text

/-- The name the encoder gives to a key. -/
def TicketKey.name? : TicketKey → Option PyStr
  | .none => some (lit "null")
  | .bool b => some (lit (if b then "true" else "false"))
  | .int n => (intText? n).map ofChars
  | .float x => some (ofChars (floatText x))
  | .str s => some s
  | .other _ => Option.none

namespace TicketValue

mutual

/-- What `json.dumps` writes; `room` is how many containers may still be opened. -/
def toJson? (room : ℕ) : TicketValue → Option Json
  | .null => some .null
  | .bool b => some (.bool b)
  | .int n => (intText? n).map fun _ => .int n
  | .float x => some (.float x)
  | .str s => some (.str s)
  | .list xs => if room = 0 then none else (toJsonList? (room - 1) xs).map .arr
  | .dict ms => if room = 0 then none else (toJsonMembers? (room - 1) ms).map .obj
  | .other text => if room = 0 then none else some (.str text)
  | .raises => none

def toJsonList? (room : ℕ) : List TicketValue → Option (List Json)
  | [] => some []
  | x :: xs => do
    let v ← toJson? room x
    let vs ← toJsonList? room xs
    some (v :: vs)

def toJsonMembers? (room : ℕ) : List (TicketKey × TicketValue) → Option Members
  | [] => some []
  | (k, x) :: ms => do
    let name ← k.name?
    let v ← toJson? room x
    let vs ← toJsonMembers? room ms
    some ((name, v) :: vs)

end

/-- `_MAX_TICKET_TEXT` -/
def maxTicketText : ℕ :=
  256

/-- A long text is cut off. -/
def bounded : TicketValue → TicketValue
  | .str s => if maxTicketText < s.length then .str (s.take maxTicketText ++ lit "…") else .str s
  | v => v

end TicketValue

/-- The ticket of a response: its keys are texts. -/
abbrev Ticket := Dict PyStr TicketValue

/-- The loop of `_bounded_ticket`. -/
def boundedItems (ticket : Ticket) : List (TicketKey × TicketValue) → Except ErrorCode Ticket
  | [] => .ok ticket
  | (key, value) :: items =>
    match key.str? with
    | .error e => .error e
    | .ok name => boundedItems (Dict.set ticket name value.bounded) items

/-! ## The handlers -/

/-- `ACP_METHODS`. -/
inductive AcpMethod where
  | submitIntent
  | readTicket
  | subscribeEvents
  | unsubscribeEvents
  | listMethods
  deriving DecidableEq

/-- `_HANDLERS`. -/
def handlers : Dict PyStr AcpMethod :=
  [(lit "submit_intent", .submitIntent), (lit "read_ticket", .readTicket),
    (lit "subscribe_events", .subscribeEvents), (lit "unsubscribe_events", .unsubscribeEvents),
    (lit "list_methods", .listMethods)]

/-- `SUBSCRIBABLE_EVENTS` -/
def subscribableEvents : List PyStr :=
  [lit "tool_denied", lit "approval_requested", lit "approval_denied", lit "tool_start",
    lit "tool_result", lit "assistant", lit "tool_skipped_budget", lit "operation_ambiguous",
    lit "operation_finish_failed", lit "context_compacted"]

/-- A set of events that may be subscribed to. -/
abbrev Subscriptions := {names : List PyStr // ∀ name ∈ names, name ∈ subscribableEvents}

/-- What leaves a handler by `raise`. -/
inductive HandlerError where
  | acp (code : PyStr)
  | controller (code : ErrorCode)

/-- What a handler returns. -/
inductive HandlerResult where
  | json (v : Json)
  /-- `{"accepted": True, "ticket": …}`, or `{"ticket": …}`. -/
  | ticket (accepted : Bool) (items : Ticket)

/-- `AcpSession`; the outbox is what `serve` writes between the responses. -/
structure Session (σ : Type) where
  controller : σ
  subscriptions : Subscriptions
  /-- The methods that were refused, and the codes. -/
  refusals : List (PyStr × PyStr)

section Handlers

variable {σ : Type} (c : Controller σ) (printable : CodePoint → Bool)

/-- `_bounded_ticket`. -/
def boundedTicket : Returned → Except HandlerError Ticket
  | .mapping items => (boundedItems [] items).mapError .controller
  | .notMapping => .error (.acp (lit "ticket_projection"))
  | .acpError code => .error (.acp code)
  | .error code => .error (.controller code)

/-- `params.get("ticket_id")`, a text that is not empty. -/
def ticketIdOf (params : Members) : Option PyStr :=
  (Members.get params (lit "ticket_id")).text?.filter (!·.isEmpty)

/-- `_submit_intent`. -/
def submitIntent (s : Session σ) (params : Members) :
    Session σ × Except HandlerError HandlerResult :=
  match ticketIdOf params, Members.get params (lit "payload") with
  | none, _ => (s, .error (.acp (lit "ticket_id_invalid")))
  | some ticketId, .obj payload =>
    let r := c.handleIntent s.controller ticketId payload
    ({ s with controller := r.2 }, (boundedTicket r.1).map (.ticket true))
  | some _, _ => (s, .error (.acp (lit "payload_invalid")))

/-- `_read_ticket`. -/
def readTicket (s : Session σ) (params : Members) :
    Session σ × Except HandlerError HandlerResult :=
  match ticketIdOf params with
  | none => (s, .error (.acp (lit "ticket_id_invalid")))
  | some ticketId =>
    let r := c.readTicket s.controller ticketId
    ({ s with controller := r.2 }, (boundedTicket r.1).map (.ticket false))

/-- `self.subscriptions.add(name)`, of a name that may be subscribed to. -/
def Subscriptions.add (subs : Subscriptions) (name : PyStr) (h : name ∈ subscribableEvents) :
    Subscriptions :=
  if name ∈ subs.1 then subs
  else ⟨name :: subs.1, List.forall_mem_cons.mpr ⟨h, subs.2⟩⟩

/-- `self.subscriptions.discard(name)`. -/
def Subscriptions.discard (subs : Subscriptions) (name : PyStr) : Subscriptions :=
  ⟨subs.1.filter (· ≠ name), fun n hn => subs.2 n (List.mem_of_mem_filter hn)⟩

/-- `sorted(self.subscriptions)`. -/
def Subscriptions.sorted (subs : Subscriptions) : Json :=
  .arr ((subs.1.mergeSort strLe).map .str)

/-- The loop of `_subscribe_events`: what is subscribed, and the texts in `refused`. -/
def subscribeNames (subs : Subscriptions) : List Json → Subscriptions × List PyStr
  | [] => (subs, [])
  | .str name :: events =>
    if h : name ∈ subscribableEvents then subscribeNames (subs.add name h) events
    else
      let r := subscribeNames subs events
      (r.1, name.take 64 :: r.2)
  | event :: events =>
    let r := subscribeNames subs events
    (r.1, (event.pyStr printable).take 64 :: r.2)

/-- `_subscribe_events`. -/
def subscribeEvents (s : Session σ) (params : Members) :
    Session σ × Except HandlerError HandlerResult :=
  match Members.get params (lit "events") with
  | .arr events =>
    let r := subscribeNames printable s.subscriptions events
    ({ s with subscriptions := r.1 }, .ok (.json (.obj
      [(lit "subscribed", r.1.sorted), (lit "refused", .arr (r.2.map .str))])))
  | _ => (s, .error (.acp (lit "events_invalid")))

/-- `_unsubscribe_events`. -/
def unsubscribeEvents (s : Session σ) (params : Members) :
    Session σ × Except HandlerError HandlerResult :=
  match Members.get params (lit "events") with
  | .arr events =>
    let subs := (events.filterMap Json.text?).foldl Subscriptions.discard s.subscriptions
    ({ s with subscriptions := subs }, .ok (.json (.obj [(lit "subscribed", subs.sorted)])))
  | _ => (s, .error (.acp (lit "events_invalid")))

/-- `_list_methods`. -/
def listMethods : HandlerResult :=
  .json (.obj [(lit "methods", .arr ((handlers.keys.mergeSort strLe).map .str)),
    (lit "events", .arr ((subscribableEvents.mergeSort strLe).map .str))])

/-- `handler(self, params)`. -/
def handle (s : Session σ) : AcpMethod → Members → Session σ × Except HandlerError HandlerResult
  | .submitIntent, params => submitIntent c s params
  | .readTicket, params => readTicket c s params
  | .subscribeEvents, params => subscribeEvents printable s params
  | .unsubscribeEvents, params => unsubscribeEvents s params
  | .listMethods, _ => (s, .ok listMethods)

end Handlers

/-! ## Dispatch -/

/-- What `dispatch` raises. -/
inductive DispatchError where
  /-- A `ValueError` or a `RecursionError` of `json.loads`. -/
  | loads (e : LoadsError)
  /-- An exception of `json.dumps`. -/
  | dumps
  /-- `UnicodeEncodeError` -/
  | encode
  /-- An exception of `str(getattr(error, "code", ""))`. -/
  | code

/-- The interpreter: its recursion limit, and `str.isprintable` of a character. -/
structure Interpreter where
  recursionLimit : ℕ
  printable : CodePoint → Bool

/-- What `dispatch` leaves behind: the bytes of the response, if there is one. -/
structure Dispatched (σ : Type) where
  session : Session σ
  response : Except DispatchError (Option Bytes)

/-- `json.dumps(frame, ensure_ascii=False).encode("utf-8")`. What a frame holds of the message that it
answers stands at the depth where `json.loads` has found it. -/
def write (frame : Json) : Except DispatchError (Option Bytes) :=
  match frame.dumpBytes with
  | some b => .ok (some b)
  | none => .error .encode

/-- `_error_frame`. -/
def errorFrame (id : Json) (code : ℤ) (message : PyStr) (dataCode : PyStr) : Json :=
  .obj [(lit "jsonrpc", .str (lit "2.0")), (lit "id", id),
    (lit "error", .obj [(lit "code", .int code), (lit "message", .str message),
      (lit "data", .obj [(lit "code", .str dataCode)])])]

/-- `{"jsonrpc": "2.0", "id": frame_id, "result": result}`. -/
def resultFrame (id : Json) (result : Json) : Json :=
  .obj [(lit "jsonrpc", .str (lit "2.0")), (lit "id", id), (lit "result", result)]

/-- The result as `json.dumps` writes it: the ticket is the third container. -/
def HandlerResult.toJson? (env : Interpreter) : HandlerResult → Option Json
  | .json v => some v
  | .ticket accepted items =>
    if env.recursionLimit < 3 then none
    else
      (TicketValue.toJsonMembers? (env.recursionLimit - 3)
        (items.map fun m => (.str m.1, m.2))).map fun ms =>
          .obj (if accepted then [(lit "accepted", .bool true), (lit "ticket", .obj ms)]
            else [(lit "ticket", .obj ms)])

/-- `str(getattr(error, "code", "") or "controller_error")[:64]`. -/
def ErrorCode.controllerCode : ErrorCode → Option PyStr
  | .empty => some (lit "controller_error")
  | .text s => some (s.take 64)
  | .unreadable => none

/-- The response to a message, if it has an id. -/
def reply (message : Members) (frame : Json → Json) : Except DispatchError (Option Bytes) :=
  if Dict.has message (lit "id") then write (frame (Members.get message (lit "id")))
  else .ok none

/-- `message.get("params")`, an object; without it `{}`. -/
def paramsOf (message : Members) : Option Members :=
  match Members.get message (lit "params") with
  | .null => some []
  | .obj params => some params
  | _ => none

/-- `self._HANDLERS.get(method) if isinstance(method, str) else None`. -/
def handlerOf (message : Members) : Option AcpMethod :=
  (Members.get message (lit "method")).text?.bind (Dict.get? handlers)

/-- The response, by how the handler ends. -/
def respond (env : Interpreter) (message : Members) :
    Except HandlerError HandlerResult → Except DispatchError (Option Bytes)
  | .error (.acp code) =>
    reply message fun id => errorFrame id (-32602) (lit "Invalid params") code
  | .error (.controller code) =>
    match code.controllerCode with
    | none => .error .code
    | some code => reply message fun id => errorFrame id (-32603) (lit "Controller error") code
  | .ok result =>
    if Dict.has message (lit "id") then
      match result.toJson? env with
      | none => .error .dumps
      | some v => write (resultFrame (Members.get message (lit "id")) v)
    else .ok none

variable {σ : Type}

def Session.refuse (s : Session σ) (method code : PyStr) : Session σ :=
  { s with refusals := s.refusals ++ [(method, code)] }

/-- `dispatch`, of a JSON-RPC 2.0 object. -/
def dispatchMessage (env : Interpreter) (c : Controller σ) (s : Session σ) (message : Members) :
    Dispatched σ :=
  match handlerOf message with
  | none =>
    let method := (Members.get message (lit "method")).pyStr env.printable
    ⟨s.refuse (method.take 64) (lit "method_not_supported"), reply message fun id =>
      errorFrame id (-32601) (lit "Method not found") (lit "method_not_supported")⟩
  | some method =>
    match paramsOf message with
    | none => ⟨s, reply message fun id =>
        errorFrame id (-32600) (lit "Invalid Request") (lit "params_invalid")⟩
    | some params =>
      let h := handle c env.printable s method params
      ⟨h.1, respond env message h.2⟩

/-- `json.loads(frame.decode("utf-8"))`; `none` is an exception that is caught. -/
def load (env : Interpreter) (frame : Bytes) : Except DispatchError (Option Json) :=
  match decode frame with
  | none => .ok none
  | some text =>
    match loadsWithin env.recursionLimit text with
    | .ok v => .ok (some v)
    | .error (.json .decode) => .ok none
    | .error e => .error (.loads e)

/-- `dispatch`. -/
def dispatch (env : Interpreter) (c : Controller σ) (s : Session σ) (frame : Bytes) : Dispatched σ :=
  let invalid (dataCode : PyStr) := write (errorFrame .null (-32600) (lit "Invalid Request") dataCode)
  match load env frame with
  | .error e => ⟨s, .error e⟩
  | .ok none => ⟨s, write (errorFrame .null (-32700) (lit "Parse error") (lit "parse_error"))⟩
  | .ok (some (.arr _)) =>
    ⟨s.refuse (lit "batch") (lit "batch_not_supported"), invalid (lit "batch_not_supported")⟩
  | .ok (some (.obj message)) =>
    if (Members.get message (lit "jsonrpc")).isText (lit "2.0") then dispatchMessage env c s message
    else ⟨s, invalid (lit "invalid_frame")⟩
  | .ok (some _) => ⟨s, invalid (lit "invalid_frame")⟩

/-! ## Serving -/

/-- `_MAX_FRAME_BYTES` -/
def maxFrameBytes : ℕ :=
  262144

/-- The whitespace of `bytes.strip`. -/
def isByteSpace (b : UInt8) : Bool :=
  (9 ≤ b && b ≤ 13) || b == 32

/-- `line.strip()`. -/
def stripBytes (line : Bytes) : Bytes :=
  ((line.dropWhile isByteSpace).reverse.dropWhile isByteSpace).reverse

/-- `buffer.split(b"\n", 1)` for as long as there is a line feed: the lines, and what is left. -/
def splitBuffer : Bytes → List Bytes × Bytes
  | [] => ([], [])
  | b :: buffer =>
    let r := splitBuffer buffer
    if b = 10 then ([] :: r.1, r.2)
    else
      match r.1 with
      | [] => ([], b :: r.2)
      | line :: lines => ((b :: line) :: lines, r.2)

/-- The lines that are not blank. -/
def frameLines (lines : List Bytes) : List Bytes :=
  (lines.map stripBytes).filter (!·.isEmpty)

/-- The lines of the input, which is read in chunks. -/
def inputLines (buffer : Bytes) : List Bytes → List Bytes
  | [] => []
  | chunk :: chunks =>
    let r := splitBuffer (buffer ++ chunk)
    frameLines r.1 ++ inputLines r.2 chunks

/-- A line that has been taken up, in order. -/
structure Served (σ : Type) where
  before : Session σ
  line : Bytes
  response : Except DispatchError (Option Bytes)
  /-- The frames of `on_event` that stand in the outbox after the response. -/
  events : List Json
  pushed : Except DispatchError (List Bytes)

/-- The outbox is written. -/
def writeEvents : List Json → Except DispatchError (List Bytes)
  | [] => .ok []
  | event :: events =>
    match event.dumpBytes with
    | none => .error .encode
    | some b => (writeEvents events).map (b :: ·)

/-- One line, from a session to a session. -/
def serveLine (env : Interpreter) (c : Controller σ) (s : Session σ) (line : Bytes)
    (events : List Json) : Session σ × Served σ :=
  if maxFrameBytes < line.length then
    (s, ⟨s, line, write (errorFrame .null (-32600) (lit "Invalid Request") (lit "frame_oversize")),
      [], .ok []⟩)
  else
    let d := dispatch env c s line
    (d.session, ⟨s, line, d.response, events, writeEvents events⟩)

/-- An exception leaves `serve`. -/
def Served.raises (x : Served σ) : Bool :=
  match x.response, x.pushed with
  | .ok _, .ok _ => false
  | _, _ => true

/-- The lines one after another; `events i` comes while the line `i` is served. -/
def serveLines (env : Interpreter) (c : Controller σ) (events : ℕ → List Json) :
    ℕ → Session σ → List Bytes → List (Served σ)
  | _, _, [] => []
  | i, s, line :: lines =>
    let r := serveLine env c s line (events i)
    if r.2.raises then [r.2] else r.2 :: serveLines env c events (i + 1) r.1 lines

/-- `serve`. -/
def serve (env : Interpreter) (c : Controller σ) (events : ℕ → List Json) (s : Session σ)
    (chunks : List Bytes) : List (Served σ) :=
  serveLines env c events 0 s (inputLines [] chunks)

/-! ## What is claimed -/

/-- What a frame is. -/
inductive FrameKind where
  /-- An object with a method and an id. -/
  | request (id : Json)
  /-- An object with a method and no id. -/
  | notification
  | other

/-- The kind of a frame; what is no JSON is no request. -/
def kindOf : Option Json → FrameKind
  | some (.obj message) =>
    if (Members.get message (lit "jsonrpc")).isText (lit "2.0") &&
        (Members.get message (lit "method")).isStr then
      if Dict.has message (lit "id") then .request (Members.get message (lit "id"))
      else .notification
    else .other
  | _ => .other

/-- The frame as it is read, `none` if it is not. -/
def readFrame (env : Interpreter) (frame : Bytes) : Option Json :=
  match load env frame with
  | .ok v => v
  | .error _ => none

/-- The bytes are one line, and the text of an object. -/
def IsFrame (b : Bytes) (ms : Members) : Prop :=
  (Json.obj ms).dumpBytes = some b ∧ (10 : UInt8) ∉ b

/-- A request gets a response with its id, a notification gets none, and anything else gets an error. -/
def Answers : FrameKind → Option Bytes → Prop
  | .request id, response => ∃ b ms, response = some b ∧ IsFrame b ms ∧
      Dict.get? ms (lit "id") = some id
  | .notification, response => response = none
  | .other, response => ∃ b ms, response = some b ∧ IsFrame b ms ∧
      Dict.has ms (lit "error") = true

/-- `dispatch` returns what the frame should get. -/
def Answered (env : Interpreter) (c : Controller σ) (s : Session σ) (frame : Bytes) : Prop :=
  ∃ response, (dispatch env c s frame).response = .ok response ∧
    Answers (kindOf (readFrame env frame)) response

/-- A line has got what it should, and the session goes on. -/
def Served.Good (env : Interpreter) (x : Served σ) : Prop :=
  (∃ response, x.response = .ok response ∧
    Answers (if maxFrameBytes < x.line.length then .other else kindOf (readFrame env x.line))
      response) ∧ ∃ frames, x.pushed = .ok frames

/-- Every line is served in its turn. -/
def ServedInTurn (env : Interpreter) (lines : List Bytes) (run : List (Served σ)) : Prop :=
  run.map Served.line = lines ∧ ∀ x ∈ run, x.Good env

/-! ## The frames that are answered -/

namespace TicketValue

mutual

/-- The encoder writes the value, and the text has no surrogate. -/
def Writable (room : ℕ) : TicketValue → Prop
  | .int n => ∃ s, intText? n = some s
  | .str s => s.all isScalar = true
  | .list xs => room ≠ 0 ∧ WritableList (room - 1) xs
  | .dict ms => room ≠ 0 ∧ WritableMembers (room - 1) ms
  | .other text => room ≠ 0 ∧ text.all isScalar = true
  | .raises => False
  | _ => True

def WritableList (room : ℕ) : List TicketValue → Prop
  | [] => True
  | x :: xs => Writable room x ∧ WritableList room xs

def WritableMembers (room : ℕ) : List (TicketKey × TicketValue) → Prop
  | [] => True
  | (k, x) :: ms => (∃ name, k.name? = some name ∧ name.all isScalar = true) ∧ Writable room x ∧
      WritableMembers room ms

end

end TicketValue

/-- A response with the ticket can be written. -/
def TicketWritable (env : Interpreter) (ticket : Ticket) : Prop :=
  3 ≤ env.recursionLimit ∧
    TicketValue.WritableMembers (env.recursionLimit - 3) (ticket.map fun m => (.str m.1, m.2))

/-- A response with the code can be written. -/
def HandlerError.Writable : HandlerError → Prop
  | .acp code => code.all isScalar = true
  | .controller code => ∃ s, code.controllerCode = some s ∧ s.all isScalar = true

/-- The code can be read, as it is also without a response. -/
def HandlerError.Readable : HandlerError → Prop
  | .acp _ => True
  | .controller code => code ≠ .unreadable

/-- The response to a call of the controller can be written. -/
def Returned.Writable (env : Interpreter) (r : Returned) : Prop :=
  (∀ ticket, boundedTicket r = .ok ticket → TicketWritable env ticket) ∧
    ∀ e, boundedTicket r = .error e → e.Writable

/-- A call of the controller ends without a response. -/
def Returned.Readable (r : Returned) : Prop :=
  ∀ e, boundedTicket r = .error e → e.Readable

/-- What the controller is called with ends with `P`. -/
def Calls (c : Controller σ) (s : Session σ) (P : Returned → Prop) : AcpMethod → Members → Prop
  | .submitIntent, params => ∀ ticketId payload, ticketIdOf params = some ticketId →
      Members.get params (lit "payload") = .obj payload →
        P (c.handleIntent s.controller ticketId payload).1
  | .readTicket, params => ∀ ticketId, ticketIdOf params = some ticketId →
      P (c.readTicket s.controller ticketId).1
  | _, _ => True

/-- The text that stands for an event in `refused`. -/
def refusedText (printable : CodePoint → Bool) : Json → Option PyStr
  | .str name => if name ∈ subscribableEvents then none else some (name.take 64)
  | event => some ((event.pyStr printable).take 64)

/-- The texts in `refused` have no surrogate. -/
def RefusedWritable (env : Interpreter) (params : Members) : Prop :=
  ∀ events, Members.get params (lit "events") = .arr events →
    ∀ event ∈ events, ∀ name ∈ refusedText env.printable event, name.all isScalar = true

/-- The frame is read; an object has a method or an id; and what stands in the response can be
written. -/
def Plain (env : Interpreter) (c : Controller σ) (s : Session σ) (frame : Bytes) : Prop :=
  match load env frame with
  | .error _ => False
  | .ok (some (.obj message)) =>
    (Members.get message (lit "jsonrpc")).isText (lit "2.0") = true →
      if Dict.has message (lit "id") then
        (Members.get message (lit "id")).Encodable ∧
          ∀ method params, handlerOf message = some method → paramsOf message = some params →
            Calls c s (Returned.Writable env) method params ∧
              (method = .subscribeEvents → RefusedWritable env params)
      else
        (Members.get message (lit "method")).isStr = true ∧
          ∀ method params, handlerOf message = some method → paramsOf message = some params →
            Calls c s Returned.Readable method params
  | _ => True

/-- The line is plain, or too long to be read; and so are the events behind it. -/
def Served.Plain (env : Interpreter) (c : Controller σ) (x : Served σ) : Prop :=
  (maxFrameBytes < x.line.length ∨ Acp.Plain env c x.before x.line) ∧
    ∀ event ∈ x.events, event.Encodable

/-! ## What is written -/

theorem write_eq_ok {frame : Json} {response : Option Bytes} :
    write frame = .ok response ↔ ∃ b, response = some b ∧ frame.dumpBytes = some b := by
  unfold write
  cases frame.dumpBytes with
  | none => simp
  | some b =>
    simp only [Except.ok.injEq, Option.some.injEq]
    exact ⟨fun h => ⟨b, h.symm, rfl⟩, fun ⟨b', h, hb⟩ => by rw [h, hb]⟩

theorem isScalar_lit (s : String) : (lit s).all isScalar = true :=
  Json.isScalar_ofChars

theorem encodable_errorFrame {id : Json} {code : ℤ} {message : String} {dataCode : PyStr} :
    (errorFrame id code (lit message) dataCode).Encodable ↔
      id.Encodable ∧ dataCode.all isScalar = true := by
  simp [errorFrame, isScalar_lit, -List.all_eq_true]

theorem encodable_resultFrame {id v : Json} :
    (resultFrame id v).Encodable ↔ id.Encodable ∧ v.Encodable := by
  simp [resultFrame, isScalar_lit, -List.all_eq_true]

/-- An error with the id answers a request, and whatever is no notification. -/
theorem answers_errorFrame {k : FrameKind} {id : Json} {code : ℤ} {message dataCode : PyStr}
    (hk : k = .request id ∨ k = .other) :
    (∃ response, write (errorFrame id code message dataCode) = .ok response ∧ Answers k response) ↔
      (errorFrame id code message dataCode).Encodable := by
  constructor
  · rintro ⟨response, hwrite, -⟩
    obtain ⟨b, -, hb⟩ := write_eq_ok.mp hwrite
    exact Json.dumpBytes_isSome_iff.mp ⟨b, hb⟩
  · intro h
    obtain ⟨b, hb⟩ := Json.dumpBytes_isSome_iff.mpr h
    refine ⟨some b, write_eq_ok.mpr ⟨b, rfl, hb⟩, ?_⟩
    have hframe : IsFrame b _ := ⟨hb, Json.newline_notMem_dumpBytes hb⟩
    rcases hk with rfl | rfl
    · exact ⟨b, _, rfl, hframe, rfl⟩
    · exact ⟨b, _, rfl, hframe, rfl⟩

theorem answers_resultFrame {id v : Json} :
    (∃ response, write (resultFrame id v) = .ok response ∧ Answers (.request id) response) ↔
      (resultFrame id v).Encodable := by
  constructor
  · rintro ⟨response, hwrite, -⟩
    obtain ⟨b, -, hb⟩ := write_eq_ok.mp hwrite
    exact Json.dumpBytes_isSome_iff.mp ⟨b, hb⟩
  · intro h
    obtain ⟨b, hb⟩ := Json.dumpBytes_isSome_iff.mpr h
    exact ⟨some b, write_eq_ok.mpr ⟨b, rfl, hb⟩, b, _, rfl,
      ⟨hb, Json.newline_notMem_dumpBytes hb⟩, rfl⟩

namespace TicketValue

theorem toJsonList?_cons {room : ℕ} {x : TicketValue} {xs : List TicketValue} {vs : List Json} :
    toJsonList? room (x :: xs) = some vs ↔
      ∃ v ws, toJson? room x = some v ∧ toJsonList? room xs = some ws ∧ v :: ws = vs := by
  simp [toJsonList?, Option.bind_eq_some_iff]

theorem toJsonMembers?_cons {room : ℕ} {k : TicketKey} {x : TicketValue}
    {ms : List (TicketKey × TicketValue)} {vs : Members} :
    toJsonMembers? room ((k, x) :: ms) = some vs ↔ ∃ name v ws, k.name? = some name ∧
      toJson? room x = some v ∧ toJsonMembers? room ms = some ws ∧ (name, v) :: ws = vs := by
  simp [toJsonMembers?, Option.bind_eq_some_iff]

mutual

/-- The values that end up in bytes. -/
theorem writable_iff : ∀ {room : ℕ} {x : TicketValue},
    (∃ v, toJson? room x = some v ∧ v.Encodable) ↔ x.Writable room
  | room, .null => by simp [toJson?, Writable]
  | room, .bool b => by simp [toJson?, Writable]
  | room, .int n => by simp [toJson?, Writable]
  | room, .float x => by simp [toJson?, Writable]
  | room, .str s => by simp [toJson?, Writable]
  | room, .list xs => by
    rw [Writable, ← writableList_iff, toJson?]
    by_cases hroom : room = 0
    · simp [hroom]
    · simp [hroom]
  | room, .dict ms => by
    rw [Writable, ← writableMembers_iff, toJson?]
    by_cases hroom : room = 0
    · simp [hroom]
    · simp [hroom]
  | room, .other text => by
    rw [Writable, toJson?]
    by_cases hroom : room = 0
    · simp [hroom]
    · simp [hroom]
  | room, .raises => by simp [toJson?, Writable]

theorem writableList_iff : ∀ {room : ℕ} {xs : List TicketValue},
    (∃ vs, toJsonList? room xs = some vs ∧ ∀ v ∈ vs, v.Encodable) ↔ WritableList room xs
  | room, [] => by simp [toJsonList?, WritableList]
  | room, x :: xs => by
    rw [WritableList, ← writable_iff, ← writableList_iff]
    constructor
    · rintro ⟨vs, hvs, h⟩
      obtain ⟨v, ws, hv, hws, rfl⟩ := toJsonList?_cons.mp hvs
      obtain ⟨hv', hws'⟩ := List.forall_mem_cons.mp h
      exact ⟨⟨v, hv, hv'⟩, ws, hws, hws'⟩
    · rintro ⟨⟨v, hv, hv'⟩, ws, hws, hws'⟩
      exact ⟨v :: ws, toJsonList?_cons.mpr ⟨v, ws, hv, hws, rfl⟩,
        List.forall_mem_cons.mpr ⟨hv', hws'⟩⟩

theorem writableMembers_iff : ∀ {room : ℕ} {ms : List (TicketKey × TicketValue)},
    (∃ vs, toJsonMembers? room ms = some vs ∧
      ∀ m ∈ vs, m.1.all isScalar = true ∧ m.2.Encodable) ↔ WritableMembers room ms
  | room, [] => by simp [toJsonMembers?, WritableMembers]
  | room, (k, x) :: ms => by
    rw [WritableMembers, ← writable_iff, ← writableMembers_iff]
    constructor
    · rintro ⟨vs, hvs, h⟩
      obtain ⟨name, v, ws, hname, hv, hws, rfl⟩ := toJsonMembers?_cons.mp hvs
      obtain ⟨⟨hname', hv'⟩, hws'⟩ := List.forall_mem_cons.mp h
      exact ⟨⟨name, hname, hname'⟩, ⟨v, hv, hv'⟩, ws, hws, hws'⟩
    · rintro ⟨⟨name, hname, hname'⟩, ⟨v, hv, hv'⟩, ws, hws, hws'⟩
      exact ⟨(name, v) :: ws, toJsonMembers?_cons.mpr ⟨name, v, ws, hname, hv, hws, rfl⟩,
        List.forall_mem_cons.mpr ⟨⟨hname', hv'⟩, hws'⟩⟩

end

end TicketValue

theorem ticketWritable_iff {env : Interpreter} {accepted : Bool} {ticket : Ticket} :
    (∃ v, (HandlerResult.ticket accepted ticket).toJson? env = some v ∧ v.Encodable) ↔
      TicketWritable env ticket := by
  rw [TicketWritable, ← TicketValue.writableMembers_iff, HandlerResult.toJson?]
  by_cases hlimit : env.recursionLimit < 3
  · simp [hlimit]
  · have h3 : 3 ≤ env.recursionLimit := by omega
    cases accepted <;> simp [hlimit, h3, isScalar_lit, -List.all_eq_true]

/-! ## The handlers -/

/-- The response to how a handler ends can be written. -/
def OutcomeWritable (env : Interpreter) : Except HandlerError HandlerResult → Prop
  | .error e => e.Writable
  | .ok result => ∃ v, result.toJson? env = some v ∧ v.Encodable

/-- Without a response, there is nothing but the code to be read. -/
def OutcomeReadable : Except HandlerError HandlerResult → Prop
  | .error e => e.Readable
  | .ok _ => True

theorem outcomeWritable_ticket {env : Interpreter} {accepted : Bool} {r : Returned} :
    OutcomeWritable env ((boundedTicket r).map (.ticket accepted)) ↔ r.Writable env := by
  unfold Returned.Writable
  cases boundedTicket r with
  | error e => simp [Except.map, OutcomeWritable]
  | ok ticket => simp [Except.map, OutcomeWritable, ticketWritable_iff]

theorem outcomeReadable_ticket {accepted : Bool} {r : Returned} :
    OutcomeReadable ((boundedTicket r).map (.ticket accepted)) ↔ r.Readable := by
  unfold Returned.Readable
  cases boundedTicket r with
  | error e => simp [Except.map, OutcomeReadable]
  | ok ticket => simp [Except.map, OutcomeReadable]

theorem writable_acp_lit (env : Interpreter) (s : String) :
    OutcomeWritable env (.error (.acp (lit s))) :=
  isScalar_lit s

theorem subscribeNames_refused (printable : CodePoint → Bool) :
    ∀ (events : List Json) (subs : Subscriptions),
      (subscribeNames printable subs events).2 = events.filterMap (refusedText printable)
  | [], _ => rfl
  | event :: events, subs => by
    have ih := subscribeNames_refused printable events
    cases event with
    | str name =>
      by_cases h : name ∈ subscribableEvents <;> simp [subscribeNames, refusedText, h, ih]
    | _ => simp [subscribeNames, refusedText, ih]

/-- Texts that can be encoded, as an array of them in an order of its own. -/
theorem encodable_sorted {names : List PyStr} (h : ∀ name ∈ names, name.all isScalar = true) :
    (Json.arr ((names.mergeSort strLe).map .str)).Encodable := by
  rw [Json.encodable_arr]
  intro v hv
  obtain ⟨name, hname, rfl⟩ := List.mem_map.mp hv
  exact h name (List.mem_mergeSort.mp hname)

theorem isScalar_subscribableEvents : ∀ name ∈ subscribableEvents, name.all isScalar = true := by
  decide

theorem Subscriptions.encodable_sorted (subs : Subscriptions) : subs.sorted.Encodable :=
  Acp.encodable_sorted fun name h => isScalar_subscribableEvents name (subs.2 name h)

theorem outcomeWritable_listMethods (env : Interpreter) : OutcomeWritable env (.ok listMethods) := by
  have hmethods : ∀ name ∈ Dict.keys handlers, name.all isScalar = true := by decide
  refine ⟨_, rfl, Json.encodable_obj.mpr ?_⟩
  simp only [List.forall_mem_cons, List.not_mem_nil, false_implies, implies_true, and_true,
    isScalar_lit, true_and]
  exact ⟨encodable_sorted hmethods, encodable_sorted isScalar_subscribableEvents⟩

variable {env : Interpreter} {c : Controller σ} {s : Session σ}

theorem outcomeWritable_submitIntent {params : Members} :
    OutcomeWritable env (submitIntent c s params).2 ↔
      Calls c s (Returned.Writable env) .submitIntent params := by
  simp only [submitIntent, Calls]
  cases hid : ticketIdOf params with
  | none => simp [writable_acp_lit]
  | some ticketId =>
    cases hpayload : Members.get params (lit "payload") with
    | obj payload => simp [outcomeWritable_ticket]
    | _ => simp [writable_acp_lit]

theorem outcomeWritable_readTicket {params : Members} :
    OutcomeWritable env (readTicket c s params).2 ↔
      Calls c s (Returned.Writable env) .readTicket params := by
  simp only [readTicket, Calls]
  cases hid : ticketIdOf params with
  | none => simp [writable_acp_lit]
  | some ticketId => simp [outcomeWritable_ticket]

theorem outcomeWritable_subscribeEvents {params : Members} :
    OutcomeWritable env (subscribeEvents env.printable s params).2 ↔
      RefusedWritable env params := by
  unfold subscribeEvents RefusedWritable
  cases hevents : Members.get params (lit "events") with
  | arr events =>
    simp only [OutcomeWritable, HandlerResult.toJson?, Option.some.injEq, exists_eq_left',
      Json.encodable_obj, List.forall_mem_cons, List.not_mem_nil, false_implies, implies_true,
      and_true, isScalar_lit, true_and, Subscriptions.encodable_sorted, Json.encodable_arr,
      List.forall_mem_map, Json.encodable_str, subscribeNames_refused, List.mem_filterMap,
      Json.arr.injEq, forall_eq', forall_exists_index, and_imp, Option.mem_def]
    exact ⟨fun h event hevent name hname => h name event hevent hname,
      fun h name event hevent hname => h event hevent name hname⟩
  | _ => simp [writable_acp_lit]

theorem outcomeWritable_unsubscribeEvents {params : Members} :
    OutcomeWritable env (unsubscribeEvents s params).2 := by
  unfold unsubscribeEvents
  split
  · refine ⟨_, rfl, Json.encodable_obj.mpr ?_⟩
    simp only [List.forall_mem_cons, List.not_mem_nil, false_implies, implies_true, and_true,
      isScalar_lit, true_and]
    exact Subscriptions.encodable_sorted _
  · exact writable_acp_lit env _

/-- The calls whose response can be written. -/
theorem outcomeWritable_handle {method : AcpMethod} {params : Members} :
    OutcomeWritable env (handle c env.printable s method params).2 ↔
      Calls c s (Returned.Writable env) method params ∧
        (method = .subscribeEvents → RefusedWritable env params) := by
  cases method with
  | submitIntent => simpa [handle] using outcomeWritable_submitIntent
  | readTicket => simpa [handle] using outcomeWritable_readTicket
  | subscribeEvents => simpa [handle, Calls] using outcomeWritable_subscribeEvents
  | unsubscribeEvents => simpa [handle, Calls] using outcomeWritable_unsubscribeEvents
  | listMethods => simpa [handle, Calls] using outcomeWritable_listMethods env

/-- The calls that end without a response. -/
theorem outcomeReadable_handle {printable : CodePoint → Bool} {method : AcpMethod}
    {params : Members} :
    OutcomeReadable (handle c printable s method params).2 ↔
      Calls c s Returned.Readable method params := by
  cases method with
  | submitIntent =>
    simp only [handle, submitIntent, Calls]
    cases hid : ticketIdOf params with
    | none => simp [OutcomeReadable, HandlerError.Readable]
    | some ticketId =>
      cases hpayload : Members.get params (lit "payload") with
      | obj payload => simp [outcomeReadable_ticket]
      | _ => simp [OutcomeReadable, HandlerError.Readable]
  | readTicket =>
    simp only [handle, readTicket, Calls]
    cases hid : ticketIdOf params with
    | none => simp [OutcomeReadable, HandlerError.Readable]
    | some ticketId => simp [outcomeReadable_ticket]
  | subscribeEvents =>
    simp only [handle, subscribeEvents, Calls]
    split <;> simp [OutcomeReadable, HandlerError.Readable]
  | unsubscribeEvents =>
    simp only [handle, unsubscribeEvents, Calls]
    split <;> simp [OutcomeReadable, HandlerError.Readable]
  | listMethods => simp [handle, Calls, OutcomeReadable]

/-! ## One frame -/

theorem reply_of_has {message : Members} {frame : Json → Json}
    (h : Dict.has message (lit "id") = true) :
    reply message frame = write (frame (Members.get message (lit "id"))) := by
  simp [reply, h]

theorem reply_of_not_has {message : Members} {frame : Json → Json}
    (h : Dict.has message (lit "id") = false) : reply message frame = .ok none := by
  simp [reply, h]

/-- The response to a request, when a handler has been called. -/
theorem answers_respond_request {message : Members} {outcome : Except HandlerError HandlerResult}
    (hid : Dict.has message (lit "id") = true) :
    (∃ response, respond env message outcome = .ok response ∧
        Answers (.request (Members.get message (lit "id"))) response) ↔
      (Members.get message (lit "id")).Encodable ∧ OutcomeWritable env outcome := by
  have herror : ∀ (code : ℤ) (title : String) (dataCode : PyStr),
      (∃ response, reply message (fun id => errorFrame id code (lit title) dataCode) = .ok response ∧
          Answers (.request (Members.get message (lit "id"))) response) ↔
        (Members.get message (lit "id")).Encodable ∧ dataCode.all isScalar = true := by
    intro code title dataCode
    rw [reply_of_has hid, answers_errorFrame (Or.inl rfl), encodable_errorFrame]
  match outcome with
  | .error (.acp code) => exact herror _ _ _
  | .error (.controller code) =>
    cases hcode : code.controllerCode with
    | none => simp [respond, hcode, OutcomeWritable, HandlerError.Writable]
    | some text =>
      simpa [respond, hcode, OutcomeWritable, HandlerError.Writable] using herror _ _ text
  | .ok result =>
    cases hv : result.toJson? env with
    | none => simp [respond, hid, hv, OutcomeWritable]
    | some v =>
      simp only [respond, hid, hv, if_true, answers_resultFrame, encodable_resultFrame,
        OutcomeWritable, Option.some.injEq, exists_eq_left']

/-- A notification, when a handler has been called. -/
theorem answers_respond_notification {message : Members}
    {outcome : Except HandlerError HandlerResult} (hid : Dict.has message (lit "id") = false) :
    (∃ response, respond env message outcome = .ok response ∧ Answers .notification response) ↔
      OutcomeReadable outcome := by
  match outcome with
  | .error (.acp code) => simp [respond, reply_of_not_has hid, Answers, OutcomeReadable,
      HandlerError.Readable]
  | .error (.controller code) =>
    cases code <;> simp [respond, reply_of_not_has hid, Answers, OutcomeReadable,
      HandlerError.Readable, ErrorCode.controllerCode]
  | .ok result => simp [respond, hid, Answers, OutcomeReadable]

theorem isStr_of_handlerOf {message : Members} {method : AcpMethod}
    (h : handlerOf message = some method) : (Members.get message (lit "method")).isStr = true := by
  obtain ⟨name, hname, -⟩ := Option.bind_eq_some_iff.mp h
  rw [Json.text?_eq_some.mp hname]
  rfl

/-- A message with an id. -/
theorem answered_request {message : Members} {k : FrameKind}
    (hid : Dict.has message (lit "id") = true)
    (hk : k = if (Members.get message (lit "method")).isStr then
      .request (Members.get message (lit "id")) else .other) :
    (∃ response, (dispatchMessage env c s message).response = .ok response ∧ Answers k response) ↔
      (Members.get message (lit "id")).Encodable ∧
        ∀ method params, handlerOf message = some method → paramsOf message = some params →
          Calls c s (Returned.Writable env) method params ∧
            (method = .subscribeEvents → RefusedWritable env params) := by
  have hkind : k = .request (Members.get message (lit "id")) ∨ k = .other := by
    rw [hk]
    split <;> simp
  have herror : ∀ (code : ℤ) (title dataCode : String),
      (∃ response, reply message (fun id => errorFrame id code (lit title) (lit dataCode)) =
          .ok response ∧ Answers k response) ↔ (Members.get message (lit "id")).Encodable := by
    intro code title dataCode
    rw [reply_of_has hid, answers_errorFrame hkind, encodable_errorFrame,
      and_iff_left (isScalar_lit dataCode)]
  unfold dispatchMessage
  cases hmethod : handlerOf message with
  | none => simpa using herror _ _ _
  | some method =>
    cases hparams : paramsOf message with
    | none => simpa using herror _ _ _
    | some params =>
      rw [hk, isStr_of_handlerOf hmethod, if_pos rfl]
      simp only [answers_respond_request hid, outcomeWritable_handle, Option.some.injEq]
      exact and_congr_right fun _ => ⟨fun h _ _ hm hp => hm ▸ hp ▸ h, fun h => h _ _ rfl rfl⟩

/-- A message without an id. -/
theorem answered_notification {message : Members} {k : FrameKind}
    (hid : Dict.has message (lit "id") = false)
    (hk : k = if (Members.get message (lit "method")).isStr then .notification else .other) :
    (∃ response, (dispatchMessage env c s message).response = .ok response ∧ Answers k response) ↔
      (Members.get message (lit "method")).isStr = true ∧
        ∀ method params, handlerOf message = some method → paramsOf message = some params →
          Calls c s Returned.Readable method params := by
  have hnone : (∃ response, (.ok none : Except DispatchError (Option Bytes)) = .ok response ∧
      Answers k response) ↔ (Members.get message (lit "method")).isStr = true := by
    rw [hk]
    split <;> simp_all [Answers]
  unfold dispatchMessage
  cases hmethod : handlerOf message with
  | none => simpa [reply_of_not_has hid] using hnone
  | some method =>
    cases hparams : paramsOf message with
    | none => simpa [reply_of_not_has hid] using hnone
    | some params =>
      rw [hk, isStr_of_handlerOf hmethod, if_pos rfl]
      simp only [answers_respond_notification hid, outcomeReadable_handle, true_and,
        Option.some.injEq]
      exact ⟨fun h _ _ hm hp => hm ▸ hp ▸ h, fun h => h _ _ rfl rfl⟩

/-- What is no message gets an error without an id. -/
theorem answers_other (code : ℤ) (title dataCode : String) : ∃ response,
    write (errorFrame .null code (lit title) (lit dataCode)) = .ok response ∧
      Answers .other response := by
  rw [answers_errorFrame (Or.inr rfl), encodable_errorFrame]
  exact ⟨trivial, isScalar_lit dataCode⟩

/-- The frames that are answered as they should be. -/
theorem answered_iff (frame : Bytes) : Answered env c s frame ↔ Plain env c s frame := by
  unfold Answered Plain dispatch readFrame
  cases hload : load env frame with
  | error e => simp
  | ok v =>
    match v with
    | none => simpa [kindOf] using answers_other (-32700) "Parse error" "parse_error"
    | some (.obj message) =>
      by_cases hrpc : (Members.get message (lit "jsonrpc")).isText (lit "2.0") = true
      · cases hid : Dict.has message (lit "id") with
        | true => simpa [hrpc, hid] using answered_request hid (by simp [kindOf, hrpc, hid])
        | false =>
          simpa [hrpc, hid] using answered_notification hid (by simp [kindOf, hrpc, hid])
      · simpa [hrpc, kindOf] using answers_other _ _ _
    | some .null => simpa [kindOf] using answers_other (-32600) "Invalid Request" "invalid_frame"
    | some (.bool _) => simpa [kindOf] using answers_other (-32600) "Invalid Request" "invalid_frame"
    | some (.int _) => simpa [kindOf] using answers_other (-32600) "Invalid Request" "invalid_frame"
    | some (.float _) => simpa [kindOf] using answers_other (-32600) "Invalid Request" "invalid_frame"
    | some (.str _) => simpa [kindOf] using answers_other (-32600) "Invalid Request" "invalid_frame"
    | some (.arr _) =>
      simpa [kindOf] using answers_other (-32600) "Invalid Request" "batch_not_supported"

/-! ## The session -/

theorem writeEvents_iff : ∀ {events : List Json},
    (∃ frames, writeEvents events = .ok frames) ↔ ∀ event ∈ events, event.Encodable
  | [] => by simp [writeEvents]
  | event :: events => by
    rw [List.forall_mem_cons, ← writeEvents_iff, ← Json.dumpBytes_isSome_iff, writeEvents]
    cases event.dumpBytes with
    | none => simp
    | some b => cases writeEvents events <;> simp [Except.map]

/-- The lines that are served as they should be. -/
theorem good_serveLine (env : Interpreter) (c : Controller σ) (s : Session σ) (line : Bytes)
    (events : List Json) :
    (serveLine env c s line events).2.Good env ↔ (serveLine env c s line events).2.Plain env c := by
  unfold serveLine
  split
  · rename_i hlong
    simpa [Served.Good, Served.Plain, hlong] using
      answers_other (-32600) "Invalid Request" "frame_oversize"
  · rename_i hshort
    simp only [Served.Good, Served.Plain, hshort, if_false, false_or, writeEvents_iff]
    exact and_congr_left fun _ => answered_iff line

theorem not_raises_of_good {x : Served σ} (h : x.Good env) : x.raises = false := by
  obtain ⟨⟨response, hresponse, -⟩, frames, hframes⟩ := h
  simp [Served.raises, hresponse, hframes]

theorem line_serveLine (env : Interpreter) (c : Controller σ) (s : Session σ) (line : Bytes)
    (events : List Json) : (serveLine env c s line events).2.line = line := by
  unfold serveLine
  split <;> rfl

/-- The lines are served in their turn exactly if every line that is taken up is plain. -/
theorem servedInTurn_iff (env : Interpreter) (c : Controller σ) (events : ℕ → List Json) :
    ∀ (lines : List Bytes) (i : ℕ) (s : Session σ),
      ServedInTurn env lines (serveLines env c events i s lines) ↔
        ∀ x ∈ serveLines env c events i s lines, x.Plain env c
  | [], i, s => by simp [serveLines, ServedInTurn]
  | line :: lines, i, s => by
    have hgood := good_serveLine env c s line (events i)
    rw [serveLines]
    split
    · rename_i hraises
      have hbad : ¬(serveLine env c s line (events i)).2.Good env := fun h => by
        rw [not_raises_of_good h] at hraises
        cases hraises
      simp [ServedInTurn, hbad, ← hgood]
    · have ih := servedInTurn_iff env c events lines (i + 1) (serveLine env c s line (events i)).1
      rw [List.forall_mem_cons, ← hgood, ← ih]
      simp only [ServedInTurn, List.map_cons, line_serveLine, List.cons.injEq, true_and,
        List.forall_mem_cons]
      tauto

theorem splitBuffer_append : ∀ (a b : Bytes), splitBuffer (a ++ b) =
    ((splitBuffer a).1 ++ (splitBuffer ((splitBuffer a).2 ++ b)).1,
      (splitBuffer ((splitBuffer a).2 ++ b)).2)
  | [], b => by simp [splitBuffer]
  | x :: a, b => by
    rw [List.cons_append, splitBuffer, splitBuffer_append a b, splitBuffer]
    by_cases hx : x = 10
    · simp [hx]
    · cases hlines : (splitBuffer a).1 with
      | nil => simp [hx, splitBuffer]
      | cons line lines => simp [hx]

/-- What is left of a buffer has no whole line. -/
theorem splitBuffer_rest (a : Bytes) : (splitBuffer (splitBuffer a).2).1 = [] := by
  have happend := congrArg Prod.fst (splitBuffer_append a [])
  simpa using happend

/-- The chunks make no difference to the lines. -/
theorem inputLines_eq : ∀ (chunks : List Bytes) {buffer : Bytes}, (splitBuffer buffer).1 = [] →
    inputLines buffer chunks = frameLines (splitBuffer (buffer ++ chunks.flatten)).1
  | [], buffer, h => by simp [inputLines, frameLines, h]
  | chunk :: chunks, buffer, h => by
    rw [inputLines, inputLines_eq chunks (splitBuffer_rest _), List.flatten_cons,
      ← List.append_assoc, splitBuffer_append (buffer ++ chunk)]
    simp [frameLines]

/-- A frame is answered as it should be exactly if it is plain; and the lines of the input are served
in their turn, however they come in chunks, exactly if those that are taken up are plain. -/
theorem acp_dispatch (env : Interpreter) (c : Controller σ) (s : Session σ) (frame : Bytes)
    (events : ℕ → List Json) (chunks : List Bytes) :
    Answered env c s frame ∧
        ServedInTurn env (frameLines (splitBuffer chunks.flatten).1) (serve env c events s chunks) ↔
      Plain env c s frame ∧ ∀ x ∈ serve env c events s chunks, x.Plain env c := by
  refine and_congr (answered_iff frame) ?_
  have hlines := inputLines_eq chunks (show (splitBuffer []).1 = [] from rfl)
  rw [serve, hlines, List.nil_append]
  exact servedInTurn_iff env c events _ 0 s

/-- CPython with its usual limit. -/
def cpython : Interpreter :=
  ⟨1000, fun _ => true⟩

/-- A controller that has no tickets. -/
def noTickets : Controller Unit where
  handleIntent s _ _ := (.notMapping, s)
  readTicket s _ := (.notMapping, s)

/-- A request whose id is a lone surrogate. -/
def surrogateRequest : Bytes :=
  encodePass (lit "\x7b\"jsonrpc\":\"2.0\",\"id\":\"\\ud800\",\"method\":\"ping\"\x7d")

/-- A session without subscriptions. -/
def newSession : Session Unit :=
  ⟨(), ⟨[], by simp⟩, []⟩

theorem surrogateRequest_raises : ¬Answered cpython noTickets newSession surrogateRequest := by
  rintro ⟨response, hresponse, -⟩
  have hraises : ((dispatch cpython noTickets newSession surrogateRequest).response).isOk = false := by
    decide +kernel
  rw [hresponse] at hraises
  cases hraises

end Icode.Acp
