import Icode.Base64
import Icode.Checks
import Icode.JsonLength
import Icode.PurePath

/-!
# The wire format of the runner

A frame is the length of its body, in four bytes, and the body: one JSON object.
`encodeFrame` and `decodeFrame` (`encode_frame`, `decode_frame`) both check the
whole object with `validateMessage` (`_validate_message`).

`Message` is what a valid object says, without its request id, and
`validateMessage_eq_ok` : an object is valid when it is, up to the order of its
members, the object of a message within the limits (`ValidMessage`).

The codec is a round trip in both directions (`frame_round_trip`) : a valid
message whose body fits is encoded and decoded to itself, and what is decoded is
valid, and its own encoding is no longer than the frame it came from.
-/

namespace Icode.RunnerProtocol

open Py

def protocolVersion : ℤ := 1

/-- `MAX_FRAME_BYTES`. -/
def maxFrameBytes : ℕ := 64 * 1024

/-- `MAX_OUTPUT_CHUNK_BYTES`. -/
def maxOutputChunkBytes : ℕ := 32 * 1024

/-- `MAX_ARGV_ITEMS`. -/
def maxArgvItems : ℕ := 256

/-- `MAX_ARGV_BYTES`. -/
def maxArgvBytes : ℕ := 48 * 1024

/-- `MAX_UINT32`. -/
def maxUint32 : ℕ := 2 ^ 32 - 1

/-- `_ERROR_STAGES`. -/
def errorStages : List PyStr :=
  ["read_request", "validate_request", "spawn_child", "assign_job", "stream_output", "cleanup"]

/-- `_ERROR_CODES`. -/
def errorCodes : List PyStr :=
  ["invalid_request", "access_denied", "privilege_missing", "process_limit", "io_error",
    "cleanup_failed", "unsupported"]

/-- `_MESSAGE_FIELDS`. -/
def messageFields : Dict PyStr (List PyStr) :=
  [("spawn_request", ["version", "type", "request_id", "argv", "cwd_rel", "timeout_ms",
      "output_limit_bytes"]),
    ("cancel_request", ["version", "type", "request_id"]),
    ("spawn_ready", ["version", "type", "request_id"]),
    ("output", ["version", "type", "request_id", "sequence", "data_b64"]),
    ("exit", ["version", "type", "request_id", "exit_code", "timed_out", "output_truncated",
      "cleanup_ok"]),
    ("error", ["version", "type", "request_id", "stage", "code"]),
    ("cancel_ack", ["version", "type", "request_id", "cancelled"])]

/-- `RunnerProtocolError`, with its code. -/
structure RunnerProtocolError where
  code : String
  deriving DecidableEq, Repr

/-! ## Fields -/

/-- `_require_uint32`. -/
def requireUint32 (value : Json) (field : String) (minimum : ℕ) :
    Except RunnerProtocolError Unit :=
  match value with
  | .int n => require (decide (minimum ≤ n ∧ n ≤ maxUint32)) ⟨"invalid_" ++ field⟩
  | _ => .error ⟨"invalid_" ++ field⟩

/-- `_require_string`. -/
def requireString (value : Json) (field : String) (allowEmpty : Bool) :
    Except RunnerProtocolError PyStr :=
  match value with
  | .str s => do
    require (allowEmpty || !s.isEmpty) ⟨"invalid_" ++ field⟩
    require (decide (s.length ≤ maxFrameBytes)) ⟨"oversized_" ++ field⟩
    require (s.all isScalar) ⟨"invalid_" ++ field⟩
    require (!s.contains (.scalar '\x00')) ⟨"invalid_" ++ field⟩
    pure s
  | _ => .error ⟨"invalid_" ++ field⟩

/-- `_validate_request_id`. -/
def validateRequestId (value : Json) : Except RunnerProtocolError PyStr := do
  let requestId ← requireString value "request_id" false
  require (isHexText 32 requestId) ⟨"invalid_request_id"⟩
  pure requestId

/-- The checks of a text in `_validate_cwd_rel`. -/
def isCwdRel (cwd : PyStr) : Bool :=
  cwd == lit "." ||
    (!(cwd.contains (.scalar '\\') || cwd.contains (.scalar ':') ||
        cwd.head? == some (.scalar '/') || cwd.any fun c => c.ord < 0x20 || c.ord == 0x7F) &&
      (PurePath.parse .posix cwd).asPosix == cwd &&
      !(PurePath.parse .posix cwd).parts.any fun part =>
        part.isEmpty || part == lit "." || part == lit "..")

/-- `_validate_cwd_rel`. -/
def validateCwdRel (value : Json) : Except RunnerProtocolError Unit := do
  let cwd ← requireString value "cwd_rel" false
  require (isCwdRel cwd) ⟨"invalid_cwd_rel"⟩

/-- The loop over `argv`: the bytes of the items. -/
def argvBytes (first : Bool) : List Json → Except RunnerProtocolError ℕ
  | [] => .ok 0
  | value :: values => do
    let item ← requireString value "argv_item" true
    require (!first || !(strip item).isEmpty) ⟨"invalid_argv"⟩
    let rest ← argvBytes false values
    pure (byteLength item + rest)

/-- `_validate_spawn_request`. -/
def validateSpawnRequest (message : Members) : Except RunnerProtocolError Unit := do
  let argv ← match message.get "argv" with
    | .arr argv => pure argv
    | _ => throw ⟨"invalid_argv"⟩
  require (decide (1 ≤ argv.length ∧ argv.length ≤ maxArgvItems)) ⟨"invalid_argv"⟩
  let totalBytes ← argvBytes true argv
  require (decide (totalBytes ≤ maxArgvBytes)) ⟨"argv_too_large"⟩
  validateCwdRel (message.get "cwd_rel")
  requireUint32 (message.get "timeout_ms") "timeout_ms" 1
  requireUint32 (message.get "output_limit_bytes") "output_limit_bytes" 1

/-- The checks of an `output` message. -/
def validateOutput (message : Members) : Except RunnerProtocolError Unit := do
  requireUint32 (message.get "sequence") "sequence" 1
  let encoded ← requireString (message.get "data_b64") "output_data" false
  let raw ← orRaise (b64decode encoded) ⟨"invalid_output_data"⟩
  require (!raw.isEmpty && decide (raw.length ≤ maxOutputChunkBytes)) ⟨"invalid_output_data"⟩
  require (ofChars (b64encode raw) == encoded) ⟨"invalid_output_data"⟩

/-- `type(value) is not bool`. -/
def requireBool (message : Members) (field : String) : Except RunnerProtocolError Unit :=
  match message.get field with
  | .bool _ => .ok ()
  | _ => .error ⟨"invalid_" ++ field⟩

/-- The checks of an `exit` message. -/
def validateExit (message : Members) : Except RunnerProtocolError Unit := do
  requireUint32 (message.get "exit_code") "exit_code" 0
  requireBool message "timed_out"
  requireBool message "output_truncated"
  requireBool message "cleanup_ok"

/-- `type(value) is str and value in names`. -/
def isNamed (names : List PyStr) : Json → Bool
  | .str s => names.contains s
  | _ => false

/-- The checks of an `error` message. -/
def validateError (message : Members) : Except RunnerProtocolError Unit := do
  require (isNamed errorStages (message.get "stage")) ⟨"invalid_error_stage"⟩
  require (isNamed errorCodes (message.get "code")) ⟨"invalid_error_code"⟩

/-- `type(version) is int and version == PROTOCOL_VERSION`. -/
def isVersion : Json → Bool
  | .int n => n == protocolVersion
  | _ => false

/-- The checks of one type of message. -/
def validateBody (kind : PyStr) (ms : Members) : Except RunnerProtocolError Unit :=
  if kind = lit "spawn_request" then validateSpawnRequest ms
  else if kind = lit "output" then validateOutput ms
  else if kind = lit "exit" then validateExit ms
  else if kind = lit "error" then validateError ms
  else if kind = lit "cancel_ack" then requireBool ms "cancelled"
  else .ok ()

/-- The type of a message, and the fields of the type. -/
def messageType (ms : Members) : Except RunnerProtocolError (PyStr × List PyStr) :=
  match ms.get "type" with
  | .str kind =>
    match Dict.get? messageFields kind with
    | some fields => .ok (kind, fields)
    | none => .error ⟨"unsupported_message_type"⟩
  | _ => .error ⟨"unsupported_message_type"⟩

/-- `_validate_message`. -/
def validateMessage (message : Json) : Except RunnerProtocolError Members :=
  match message with
  | .obj ms => do
    require (isVersion (Members.get ms "version")) ⟨"unsupported_protocol_version"⟩
    let t ← messageType ms
    require (Members.keysAre ms t.2) ⟨"invalid_message_fields"⟩
    let _ ← validateRequestId (Members.get ms "request_id")
    validateBody t.1 ms
    pure ms
  | _ => .error ⟨"message_must_be_object"⟩

/-! ## Frames -/

/-- `struct.pack(">I", n)`. -/
def packUint32 (n : ℕ) : Bytes :=
  [UInt8.ofNat (n / 16777216 % 256), UInt8.ofNat (n / 65536 % 256), UInt8.ofNat (n / 256 % 256),
    UInt8.ofNat (n % 256)]

/-- `struct.unpack(">I", header)[0]`. -/
def unpackUint32 (header : Bytes) : ℕ :=
  header.foldl (fun acc b => acc * 256 + b.toNat) 0

/-- `encode_frame`. -/
def encodeFrame (message : Json) : Except RunnerProtocolError Bytes := do
  let validated ← validateMessage message
  let body ← orRaise (encode (Json.obj validated).dumps) ⟨"message_serialization_failed"⟩
  require (!body.isEmpty && decide (body.length ≤ maxFrameBytes)) ⟨"frame_too_large"⟩
  pure (packUint32 body.length ++ body)

/-- The codes `decode_frame` raises for an error of the JSON reader. -/
def jsonErrorCode : JsonError → String
  | .duplicateKey => "duplicate_json_key"
  | .constant => "invalid_json_constant"
  | _ => "invalid_json_frame"

/-- `json.loads` in `decode_frame`. -/
def loadsBody (body : PyStr) : Except RunnerProtocolError Json :=
  match loads body with
  | .ok message => .ok message
  | .error e => .error ⟨jsonErrorCode e⟩

/-- `decode_frame`. An object nested too deep for the reader is refused as invalid here. -/
def decodeFrame (frame : Bytes) : Except RunnerProtocolError Members := do
  require (decide (4 ≤ frame.length)) ⟨"truncated_frame_header"⟩
  let bodyLength := unpackUint32 (frame.take 4)
  require (bodyLength != 0) ⟨"empty_frame"⟩
  require (decide (bodyLength ≤ maxFrameBytes)) ⟨"frame_too_large"⟩
  require (frame.length == 4 + bodyLength) ⟨"frame_length_mismatch"⟩
  let body ← orRaise (decode (frame.drop 4)) ⟨"invalid_json_frame"⟩
  let message ← loadsBody body
  validateMessage message

/-- `validate_correlation`. -/
def validateCorrelation (message : Json) (expectedRequestId : PyStr) :
    Except RunnerProtocolError Unit := do
  let _ ← validateRequestId (.str expectedRequestId)
  let validated ← validateMessage message
  require ((validated.get "request_id").isText expectedRequestId) ⟨"request_id_mismatch"⟩

/-! ## Messages -/

/-- What a message says, without its request id. -/
inductive Message where
  | spawnRequest (argv : List PyStr) (cwdRel : PyStr) (timeoutMs outputLimitBytes : ℕ)
  | cancelRequest
  | spawnReady
  | output (sequence : ℕ) (data : Bytes)
  | exit (exitCode : ℕ) (timedOut outputTruncated cleanupOk : Bool)
  | error (stage code : PyStr)
  | cancelAck (cancelled : Bool)

/-- A text that may stand in a message. -/
def IsWireText (s : PyStr) : Prop :=
  s.length ≤ maxFrameBytes ∧ s.all isScalar = true ∧ CodePoint.scalar '\x00' ∉ s

namespace Message

def kind : Message → PyStr
  | spawnRequest .. => "spawn_request"
  | cancelRequest => "cancel_request"
  | spawnReady => "spawn_ready"
  | output .. => "output"
  | exit .. => "exit"
  | error .. => "error"
  | cancelAck .. => "cancel_ack"

/-- The limits of a message. -/
def InBounds : Message → Prop
  | spawnRequest argv cwdRel timeoutMs outputLimitBytes =>
    (1 ≤ argv.length ∧ argv.length ≤ maxArgvItems) ∧ (∀ item ∈ argv, IsWireText item) ∧
      (∀ item ∈ argv.head?, strip item ≠ []) ∧ (argv.map byteLength).sum ≤ maxArgvBytes ∧
      (IsWireText cwdRel ∧ cwdRel ≠ [] ∧ isCwdRel cwdRel = true) ∧
      (1 ≤ timeoutMs ∧ timeoutMs ≤ maxUint32) ∧
      (1 ≤ outputLimitBytes ∧ outputLimitBytes ≤ maxUint32)
  | output sequence data =>
    (1 ≤ sequence ∧ sequence ≤ maxUint32) ∧ data ≠ [] ∧ data.length ≤ maxOutputChunkBytes
  | exit exitCode .. => exitCode ≤ maxUint32
  | error stage code => stage ∈ errorStages ∧ code ∈ errorCodes
  | _ => True

/-- The members behind the version, the type and the request id. -/
def body : Message → Members
  | spawnRequest argv cwdRel timeoutMs outputLimitBytes =>
    [("argv", .arr (argv.map .str)), ("cwd_rel", .str cwdRel), ("timeout_ms", .int timeoutMs),
      ("output_limit_bytes", .int outputLimitBytes)]
  | output sequence data =>
    [("sequence", .int sequence), ("data_b64", .str (ofChars (b64encode data)))]
  | exit exitCode timedOut outputTruncated cleanupOk =>
    [("exit_code", .int exitCode), ("timed_out", .bool timedOut),
      ("output_truncated", .bool outputTruncated), ("cleanup_ok", .bool cleanupOk)]
  | error stage code => [("stage", .str stage), ("code", .str code)]
  | cancelAck cancelled => [("cancelled", .bool cancelled)]
  | _ => []

/-- The object of a message. -/
def members (requestId : PyStr) (m : Message) : Members :=
  ("version", .int protocolVersion) :: ("type", .str m.kind) :: ("request_id", .str requestId) ::
    m.body

end Message

/-- The object is that of a message within the limits. -/
def ValidMessage (ms : Members) : Prop :=
  ∃ requestId m, isHexText 32 requestId = true ∧ Message.InBounds m ∧
    ms.Perm (m.members requestId)

/-! ## What is checked is what a message says -/

theorem requireUint32_eq_ok {value : Json} {field : String} {minimum : ℕ} {u : Unit} :
    requireUint32 value field minimum = .ok u ↔
      ∃ n : ℕ, value = .int n ∧ minimum ≤ n ∧ n ≤ maxUint32 := by
  cases value with
  | int n =>
    simp only [requireUint32, require_eq_ok, decide_eq_true_eq, Json.int.injEq]
    constructor
    · rintro ⟨hmin, hmax⟩
      exact ⟨n.toNat, by omega, by omega, by omega⟩
    · rintro ⟨k, rfl, hmin, hmax⟩
      exact ⟨by omega, by omega⟩
  | _ => simp [requireUint32]

theorem requireString_eq_ok {value : Json} {field : String} {allowEmpty : Bool} {s : PyStr} :
    requireString value field allowEmpty = .ok s ↔
      value = .str s ∧ IsWireText s ∧ (allowEmpty = true ∨ s ≠ []) := by
  cases value with
  | str t =>
    simp only [requireString, bind_eq_ok, require_eq_ok, Bool.or_eq_true, Bool.not_eq_true',
      List.isEmpty_eq_false_iff, decide_eq_true_eq, List.contains_eq_mem, decide_eq_false_iff_not,
      Json.str.injEq, IsWireText]
    constructor
    · rintro ⟨-, hempty, -, hlen, -, hscalar, -, hnul, ht⟩
      obtain rfl := Except.ok.inj ht
      exact ⟨rfl, ⟨hlen, hscalar, hnul⟩, hempty⟩
    · rintro ⟨rfl, ⟨hlen, hscalar, hnul⟩, hempty⟩
      exact ⟨(), hempty, (), hlen, (), hscalar, (), hnul, rfl⟩
  | _ => simp [requireString]

theorem isWireText_of_isHexText {s : PyStr} (h : isHexText 32 s = true) : IsWireText s ∧ s ≠ [] := by
  simp only [isHexText, Bool.and_eq_true, beq_iff_eq, List.all_eq_true, Bool.or_eq_true,
    decide_eq_true_eq] at h
  obtain ⟨hlen, hdigits⟩ := h
  refine ⟨⟨by rw [hlen]; decide, ?_, ?_⟩, ?_⟩
  · rw [List.all_eq_true]
    intro c hc
    cases c with
    | scalar d => rfl
    | surrogate n =>
      have := hdigits _ hc
      simp only [CodePoint.ord] at this
      omega
  · intro hc
    have := hdigits _ hc
    revert this
    decide
  · rintro rfl
    cases hlen

theorem validateRequestId_eq_ok {value : Json} {s : PyStr} :
    validateRequestId value = .ok s ↔ value = .str s ∧ isHexText 32 s = true := by
  simp only [validateRequestId, bind_eq_ok, requireString_eq_ok, require_eq_ok]
  constructor
  · rintro ⟨t, ⟨rfl, -, -⟩, -, hhex, hs⟩
    obtain rfl := Except.ok.inj hs
    exact ⟨rfl, hhex⟩
  · rintro ⟨rfl, hhex⟩
    obtain ⟨htext, hne⟩ := isWireText_of_isHexText hhex
    exact ⟨s, ⟨rfl, htext, Or.inr hne⟩, (), hhex, rfl⟩

theorem validateCwdRel_eq_ok {value : Json} {u : Unit} : validateCwdRel value = .ok u ↔
    ∃ cwd, value = .str cwd ∧ IsWireText cwd ∧ cwd ≠ [] ∧ isCwdRel cwd = true := by
  simp only [validateCwdRel, bind_eq_ok, requireString_eq_ok, require_eq_ok]
  constructor
  · rintro ⟨cwd, ⟨rfl, htext, hne⟩, hcwd⟩
    exact ⟨cwd, rfl, htext, by simpa using hne, hcwd⟩
  · rintro ⟨cwd, rfl, htext, hne, hcwd⟩
    exact ⟨cwd, ⟨rfl, htext, Or.inr hne⟩, hcwd⟩

theorem argvBytes_eq_ok : ∀ {values : List Json} {first : Bool} {n : ℕ},
    argvBytes first values = .ok n ↔ ∃ argv : List PyStr, values = argv.map .str ∧
      (∀ item ∈ argv, IsWireText item) ∧ (first = true → ∀ item ∈ argv.head?, strip item ≠ []) ∧
      n = (argv.map byteLength).sum
  | [], first, n => by
    simp only [argvBytes, Except.ok.injEq]
    constructor
    · rintro rfl
      exact ⟨[], rfl, by simp, by simp, rfl⟩
    · rintro ⟨argv, hargv, -, -, rfl⟩
      obtain rfl := List.map_eq_nil_iff.mp hargv.symm
      rfl
  | value :: values, first, n => by
    simp only [argvBytes, bind_eq_ok, requireString_eq_ok, require_eq_ok, argvBytes_eq_ok,
      Bool.or_eq_true, Bool.not_eq_true', List.isEmpty_eq_false_iff]
    constructor
    · rintro ⟨item, ⟨rfl, htext, -⟩, -, hstrip, rest, ⟨argv, rfl, hitems, -, rfl⟩, hn⟩
      obtain rfl := Except.ok.inj hn
      refine ⟨item :: argv, rfl, ?_, ?_, rfl⟩
      · rintro x (_ | ⟨_, hx⟩)
        · exact htext
        · exact hitems x hx
      · rintro rfl x hx
        obtain rfl := Option.some.inj hx
        simpa using hstrip
    · rintro ⟨argv, hargv, hitems, hhead, rfl⟩
      cases argv with
      | nil => cases hargv
      | cons item argv =>
        obtain ⟨rfl, rfl⟩ := List.cons.inj hargv
        refine ⟨item, ⟨rfl, hitems item (by simp), Or.inl trivial⟩, (), ?_, _,
          ⟨argv, rfl, fun x hx => hitems x (by simp [hx]), by simp, rfl⟩, rfl⟩
        cases first with
        | false => simp
        | true => simpa using hhead rfl item rfl

theorem validateSpawnRequest_eq_ok {ms : Members} {u : Unit} :
    validateSpawnRequest ms = .ok u ↔ ∃ argv cwdRel timeoutMs outputLimitBytes,
      (Message.spawnRequest argv cwdRel timeoutMs outputLimitBytes).InBounds ∧
      ms.get "argv" = .arr (argv.map .str) ∧ ms.get "cwd_rel" = .str cwdRel ∧
      ms.get "timeout_ms" = .int timeoutMs ∧ ms.get "output_limit_bytes" = .int outputLimitBytes := by
  unfold validateSpawnRequest
  cases hargv : ms.get "argv" with
  | arr values =>
    simp only [bind_eq_ok, require_eq_ok, decide_eq_true_eq, argvBytes_eq_ok,
      validateCwdRel_eq_ok, requireUint32_eq_ok, Message.InBounds, Json.arr.injEq]
    constructor
    · rintro ⟨values', hvalues, -, hcount, total, ⟨argv, hargs, hitems, hhead, rfl⟩, -, htotal, -,
        ⟨cwd, hcwd, htext, hne, hrel⟩, -, ⟨t, ht, ht1, ht2⟩, o, ho, ho1, ho2⟩
      obtain rfl := Except.ok.inj hvalues
      rw [hargs, List.length_map] at hcount
      exact ⟨argv, cwd, t, o, ⟨hcount, hitems, hhead trivial, htotal, ⟨htext, hne, hrel⟩, ⟨ht1, ht2⟩,
        ⟨ho1, ho2⟩⟩, hargs, hcwd, ht, ho⟩
    · rintro ⟨argv, cwd, t, o, ⟨hcount, hitems, hhead, htotal, ⟨htext, hne, hrel⟩, ⟨ht1, ht2⟩,
        ⟨ho1, ho2⟩⟩, rfl, hcwd, ht, ho⟩
      exact ⟨argv.map .str, rfl, (), by rwa [List.length_map], _,
        ⟨argv, rfl, hitems, fun _ => hhead, rfl⟩, (), htotal, (), ⟨cwd, hcwd, htext, hne, hrel⟩, (),
        ⟨t, ht, ht1, ht2⟩, o, ho, ho1, ho2⟩
  | _ => simp [throw, throwThe, MonadExceptOf.throw]

theorem validateOutput_eq_ok {ms : Members} {u : Unit} :
    validateOutput ms = .ok u ↔ ∃ sequence data, (Message.output sequence data).InBounds ∧
      ms.get "sequence" = .int sequence ∧ ms.get "data_b64" = .str (ofChars (b64encode data)) := by
  simp only [validateOutput, bind_eq_ok, requireUint32_eq_ok, requireString_eq_ok, orRaise_eq_ok,
    require_eq_ok, Bool.and_eq_true, Bool.not_eq_true', List.isEmpty_eq_false_iff,
    decide_eq_true_eq, beq_iff_eq, Message.InBounds]
  constructor
  · rintro ⟨-, ⟨n, hn, hn1, hn2⟩, encoded, ⟨hdata, -, -⟩, raw, -, -, ⟨hne, hle⟩, rfl⟩
    exact ⟨n, raw, ⟨⟨hn1, hn2⟩, hne, hle⟩, hn, hdata⟩
  · rintro ⟨n, raw, ⟨⟨hn1, hn2⟩, hne, hle⟩, hn, hdata⟩
    refine ⟨(), ⟨n, hn, hn1, hn2⟩, _, ⟨hdata, ?_, Or.inr ?_⟩, raw, b64decode_b64encode raw, (),
      ⟨hne, hle⟩, rfl⟩
    · refine ⟨?_, Json.isScalar_ofChars, ?_⟩
      · rw [ofChars, List.length_map, length_b64encode]
        have : maxOutputChunkBytes = 32 * 1024 := rfl
        have : maxFrameBytes = 64 * 1024 := rfl
        omega
      · intro hnul
        obtain ⟨c, hc, hnulc⟩ := List.mem_map.mp hnul
        have := isBase64Char_b64encode raw c hc
        rw [CodePoint.scalar.inj hnulc] at this
        revert this
        decide
    · intro hnil
      have hlen := congrArg List.length hnil
      rw [ofChars, List.length_map, length_b64encode, List.length_nil] at hlen
      have := List.length_pos_iff.mpr hne
      omega

theorem requireBool_eq_ok {ms : Members} {field : String} {u : Unit} :
    requireBool ms field = .ok u ↔ ∃ b, ms.get field = .bool b := by
  unfold requireBool
  cases ms.get field <;> simp

theorem validateExit_eq_ok {ms : Members} {u : Unit} :
    validateExit ms = .ok u ↔ ∃ exitCode timedOut outputTruncated cleanupOk,
      (Message.exit exitCode timedOut outputTruncated cleanupOk).InBounds ∧
      ms.get "exit_code" = .int exitCode ∧ ms.get "timed_out" = .bool timedOut ∧
      ms.get "output_truncated" = .bool outputTruncated ∧ ms.get "cleanup_ok" = .bool cleanupOk := by
  simp only [validateExit, bind_eq_ok, requireUint32_eq_ok, requireBool_eq_ok, Message.InBounds]
  constructor
  · rintro ⟨-, ⟨n, hn, -, hle⟩, -, ⟨a, ha⟩, -, ⟨b, hb⟩, c, hc⟩
    exact ⟨n, a, b, c, hle, hn, ha, hb, hc⟩
  · rintro ⟨n, a, b, c, hle, hn, ha, hb, hc⟩
    exact ⟨(), ⟨n, hn, Nat.zero_le _, hle⟩, (), ⟨a, ha⟩, (), ⟨b, hb⟩, c, hc⟩

theorem isNamed_iff {names : List PyStr} {v : Json} :
    isNamed names v = true ↔ ∃ s ∈ names, v = .str s := by
  cases v <;> simp [isNamed]

theorem validateError_eq_ok {ms : Members} {u : Unit} :
    validateError ms = .ok u ↔ ∃ stage code, (Message.error stage code).InBounds ∧
      ms.get "stage" = .str stage ∧ ms.get "code" = .str code := by
  simp only [validateError, bind_eq_ok, require_eq_ok, isNamed_iff, Message.InBounds]
  constructor
  · rintro ⟨-, ⟨s, hs, hstage⟩, c, hc, hcode⟩
    exact ⟨s, c, ⟨hs, hc⟩, hstage, hcode⟩
  · rintro ⟨s, c, ⟨hs, hc⟩, hstage, hcode⟩
    exact ⟨(), ⟨s, hs, hstage⟩, c, hc, hcode⟩

/-- The checks of a type pass when the members are those of a message of that type. -/
theorem validateBody_eq_ok {kind : PyStr} (hkind : kind ∈ Dict.keys messageFields) {ms : Members}
    {u : Unit} : validateBody kind ms = .ok u ↔
      ∃ m : Message, m.kind = kind ∧ m.InBounds ∧ ∀ x ∈ m.body, ms.get x.1 = x.2 := by
  have hcases : kind = lit "spawn_request" ∨ kind = lit "cancel_request" ∨
      kind = lit "spawn_ready" ∨ kind = lit "output" ∨ kind = lit "exit" ∨ kind = lit "error" ∨
      kind = lit "cancel_ack" := by
    simpa [messageFields, Dict.keys] using hkind
  unfold validateBody
  constructor
  · intro h
    split_ifs at h with h1 h2 h3 h4 h5
    · obtain ⟨a, c, t, o, hb, ha, hc, ht, ho⟩ := (validateSpawnRequest_eq_ok).mp h
      exact ⟨.spawnRequest a c t o, h1.symm, hb, by simp [Message.body, ha, hc, ht, ho]⟩
    · obtain ⟨n, d, hb, hn, hd⟩ := (validateOutput_eq_ok).mp h
      exact ⟨.output n d, h2.symm, hb, by simp [Message.body, hn, hd]⟩
    · obtain ⟨n, a, b, c, hb, hn, ha, hb', hc⟩ := (validateExit_eq_ok).mp h
      exact ⟨.exit n a b c, h3.symm, hb, by simp [Message.body, hn, ha, hb', hc]⟩
    · obtain ⟨s, c, hb, hs, hc⟩ := (validateError_eq_ok).mp h
      exact ⟨.error s c, h4.symm, hb, by simp [Message.body, hs, hc]⟩
    · obtain ⟨b, hb⟩ := (requireBool_eq_ok).mp h
      exact ⟨.cancelAck b, h5.symm, trivial, by simp [Message.body, hb]⟩
    · rcases hcases with rfl | rfl | rfl | rfl | rfl | rfl | rfl
      · exact absurd rfl h1
      · exact ⟨.cancelRequest, rfl, trivial, by simp [Message.body]⟩
      · exact ⟨.spawnReady, rfl, trivial, by simp [Message.body]⟩
      · exact absurd rfl h2
      · exact absurd rfl h3
      · exact absurd rfl h4
      · exact absurd rfl h5
  · rintro ⟨m, rfl, hb, hbody⟩
    cases m with
    | spawnRequest a c t o =>
      simp only [Message.body, List.forall_mem_cons] at hbody
      simp only [Message.kind, if_true]
      exact validateSpawnRequest_eq_ok.mpr ⟨a, c, t, o, hb, hbody.1, hbody.2.1, hbody.2.2.1,
        hbody.2.2.2.1⟩
    | cancelRequest => simp [Message.kind]
    | spawnReady => simp [Message.kind]
    | output n d =>
      simp only [Message.body, List.forall_mem_cons] at hbody
      simp only [Message.kind, lit_inj, String.reduceEq, if_false, if_true]
      exact validateOutput_eq_ok.mpr ⟨n, d, hb, hbody.1, hbody.2.1⟩
    | exit n a b c =>
      simp only [Message.body, List.forall_mem_cons] at hbody
      simp only [Message.kind, lit_inj, String.reduceEq, if_false, if_true]
      exact validateExit_eq_ok.mpr ⟨n, a, b, c, hb, hbody.1, hbody.2.1, hbody.2.2.1,
        hbody.2.2.2.1⟩
    | error s c =>
      simp only [Message.body, List.forall_mem_cons] at hbody
      simp only [Message.kind, lit_inj, String.reduceEq, if_false, if_true]
      exact validateError_eq_ok.mpr ⟨s, c, hb, hbody.1, hbody.2.1⟩
    | cancelAck b =>
      simp only [Message.body, List.forall_mem_cons] at hbody
      simp only [Message.kind, lit_inj, String.reduceEq, if_false, if_true]
      exact requireBool_eq_ok.mpr ⟨b, hbody.1⟩

/-- The fields of a type are the keys of its messages. -/
theorem messageFields_kind (m : Message) (requestId : PyStr) :
    Dict.get? messageFields m.kind = some ((m.members requestId).map Prod.fst) := by
  cases m <;> rfl

theorem nodup_keys_members (m : Message) (requestId : PyStr) :
    (Dict.keys (m.members requestId)).Nodup := by
  have hfields : ∀ x ∈ messageFields, x.2.Nodup := by decide
  exact hfields _ (Dict.mem_of_get? (messageFields_kind m requestId))

/-- The values under the keys of a message. -/
theorem get_of_perm_members {ms : Members} {m : Message} {requestId : PyStr}
    (h : ms.Perm (m.members requestId)) : ∀ x ∈ m.members requestId, ms.get x.1 = x.2 := by
  rintro ⟨k, v⟩ hx
  have hnd := nodup_keys_members m requestId
  rw [← Members.get_of_perm hnd h.symm, Members.get, Dict.get?_of_mem hnd hx, Option.getD_some]

theorem messageType_eq_ok {ms : Members} {kind : PyStr} {fields : List PyStr} :
    messageType ms = .ok (kind, fields) ↔
      ms.get "type" = .str kind ∧ Dict.get? messageFields kind = some fields := by
  unfold messageType
  constructor
  · intro h
    split at h
    · rename_i k hk
      split at h
      · rename_i fs hfs
        obtain ⟨rfl, rfl⟩ := Prod.mk.inj (Except.ok.inj h)
        exact ⟨hk, hfs⟩
      · cases h
    · cases h
  · rintro ⟨htype, hfields⟩
    simp only [htype, hfields]

/-- An object passes the checks when it is that of a message within the limits. -/
theorem validateMessage_eq_ok {ms ms' : Members} (hnd : (Dict.keys ms).Nodup) :
    validateMessage (.obj ms) = .ok ms' ↔ ms' = ms ∧ ValidMessage ms := by
  simp only [validateMessage, bind_eq_ok, require_eq_ok]
  constructor
  · rintro ⟨-, hversion, ⟨kind, fields⟩, ht, -, hkeys, requestId, hid, u, hbody, hms⟩
    obtain rfl := Except.ok.inj hms
    refine ⟨rfl, ?_⟩
    obtain ⟨htype, hfields⟩ := messageType_eq_ok.mp ht
    dsimp only at hkeys hbody
    have hkind : kind ∈ Dict.keys messageFields :=
      List.mem_map.mpr ⟨_, Dict.mem_of_get? hfields, rfl⟩
    obtain ⟨hid, hhex⟩ := validateRequestId_eq_ok.mp hid
    obtain ⟨m, rfl, hbounds, hm⟩ := (validateBody_eq_ok hkind).mp hbody
    have hversion : Members.get ms "version" = .int protocolVersion := by
      cases hv : Members.get ms "version" <;> simp [isVersion, hv] at hversion ⊢
      exact hversion
    refine ⟨requestId, m, hhex, hbounds, ?_⟩
    rw [messageFields_kind m requestId] at hfields
    obtain rfl := Option.some.inj hfields
    have hperm := Members.perm_of_keysAre hnd (nodup_keys_members m requestId) hkeys
    have hvalues : ((m.members requestId).map Prod.fst).map (fun k => (k, ms.get k)) =
        m.members requestId := by
      rw [List.map_map]
      refine (List.map_congr_left fun x hx => ?_).trans (List.map_id _)
      have hget : ms.get x.1 = x.2 := by
        rcases hx with _ | ⟨_, _ | ⟨_, _ | ⟨_, hx⟩⟩⟩
        · exact hversion
        · exact htype
        · exact hid
        · exact hm x hx
      exact Prod.ext rfl hget
    rwa [Dict.keys, hvalues] at hperm
  · rintro ⟨rfl, requestId, m, hhex, hbounds, hperm⟩
    have hget := get_of_perm_members hperm
    have hversion : Members.get ms' "version" = .int protocolVersion :=
      hget ("version", _) (by simp [Message.members])
    have htype : Members.get ms' "type" = .str m.kind :=
      hget ("type", _) (by simp [Message.members])
    have hid : Members.get ms' "request_id" = .str requestId :=
      hget ("request_id", _) (by simp [Message.members])
    have hkeys : Members.keysAre ms' ((m.members requestId).map Prod.fst) = true :=
      Members.keysAre_iff.mpr fun k => (hperm.map Prod.fst).mem_iff
    have hkind : m.kind ∈ Dict.keys messageFields :=
      List.mem_map.mpr ⟨_, Dict.mem_of_get? (messageFields_kind m requestId), rfl⟩
    refine ⟨(), by rw [hversion]; rfl, (m.kind, (m.members requestId).map Prod.fst),
      messageType_eq_ok.mpr ⟨htype, messageFields_kind m requestId⟩, (), hkeys, requestId,
      validateRequestId_eq_ok.mpr ⟨hid, hhex⟩, (), ?_, rfl⟩
    refine (validateBody_eq_ok hkind).mpr ⟨m, rfl, hbounds, fun x hx => hget x ?_⟩
    simp [Message.members, hx]

/-! ## Frames of valid messages -/

theorem toNat_packUint32 {n : ℕ} (h : n < 2 ^ 32) : unpackUint32 (packUint32 n) = n := by
  simp only [unpackUint32, packUint32, List.foldl_cons, List.foldl_nil,
    toNat_ofNat_of_lt (Nat.mod_lt _ (by decide : 0 < 256))]
  omega

/-- What a member of a valid message may be. -/
def IsFlat : Json → Prop
  | .int n => n.natAbs ≤ maxUint32
  | .bool _ => True
  | .str s => s.all isScalar = true
  | .arr xs => ∀ x ∈ xs, ∃ s : PyStr, x = .str s ∧ s.all isScalar = true
  | _ => False

theorem isFlat_of_mem_members {m : Message} {requestId : PyStr} (hid : isHexText 32 requestId = true)
    (hb : m.InBounds) : ∀ x ∈ m.members requestId, x.1.all isScalar = true ∧ IsFlat x.2 := by
  have hkeys : ∀ fields ∈ messageFields, ∀ k ∈ fields.2, k.all isScalar = true := by decide
  intro x hx
  refine ⟨hkeys _ (Dict.mem_of_get? (messageFields_kind m requestId)) _
    (List.mem_map.mpr ⟨x, hx, rfl⟩), ?_⟩
  have hscalar : ∀ names : List PyStr, (∀ s ∈ names, s.all isScalar = true) → ∀ s ∈ names,
      IsFlat (.str s) := fun names h s hs => h s hs
  rcases hx with _ | ⟨_, _ | ⟨_, _ | ⟨_, hx⟩⟩⟩
  · show protocolVersion.natAbs ≤ maxUint32
    decide
  · cases m <;> exact Json.isScalar_ofChars
  · exact (isWireText_of_isHexText hid).1.2.1
  · cases m with
    | spawnRequest argv cwd t o =>
      obtain ⟨-, hitems, -, -, ⟨hcwd, -⟩, ⟨-, ht⟩, -, ho⟩ := hb
      rcases hx with _ | ⟨_, _ | ⟨_, _ | ⟨_, _ | ⟨_, hx⟩⟩⟩⟩
      · intro y hy
        obtain ⟨s, hs, rfl⟩ := List.mem_map.mp hy
        exact ⟨s, rfl, (hitems s hs).2.1⟩
      · exact hcwd.2.1
      · exact ht
      · exact ho
      · cases hx
    | output n d =>
      rcases hx with _ | ⟨_, _ | ⟨_, hx⟩⟩
      · exact hb.1.2
      · exact Json.isScalar_ofChars
      · cases hx
    | exit n a b c =>
      rcases hx with _ | ⟨_, _ | ⟨_, _ | ⟨_, _ | ⟨_, hx⟩⟩⟩⟩
      · exact hb
      · trivial
      · trivial
      · trivial
      · cases hx
    | error s c =>
      rcases hx with _ | ⟨_, _ | ⟨_, hx⟩⟩
      · exact hscalar errorStages (by decide) s hb.1
      · exact hscalar errorCodes (by decide) c hb.2
      · cases hx
    | cancelAck b =>
      rcases hx with _ | ⟨_, hx⟩
      · trivial
      · cases hx
    | cancelRequest => cases hx
    | spawnReady => cases hx

theorem IsFlat.canonical_eq {v : Json} (h : IsFlat v) : v.canonical = v := by
  cases v with
  | arr xs =>
    have : xs.map Json.canonical = xs := by
      refine (List.map_congr_left fun x hx => ?_).trans (List.map_id xs)
      obtain ⟨s, rfl, -⟩ := h x hx
      rfl
    rw [Json.canonical_arr, this]
  | obj ms => cases h
  | _ => rfl

theorem IsFlat.plain {v : Json} (h : IsFlat v) : v.Plain := by
  cases v with
  | int n =>
    have hn : n.natAbs ≤ maxUint32 := h
    show (Nat.toDigits 10 n.natAbs).length ≤ intMaxStrDigits
    have hlt : n.natAbs < 10 ^ 10 := lt_of_le_of_lt hn (by decide)
    exact le_trans ((Nat.length_toDigits_le_iff (by decide) (by decide)).mpr hlt) (by decide)
  | arr xs =>
    rw [Json.plain_arr]
    intro x hx
    obtain ⟨s, rfl, -⟩ := h x hx
    trivial
  | float x => cases h
  | obj ms => cases h
  | _ => trivial

theorem IsFlat.encodable {v : Json} (h : IsFlat v) : v.Encodable := by
  cases v with
  | str s => exact h
  | arr xs =>
    rw [Json.encodable_arr]
    intro x hx
    obtain ⟨s, rfl, hs⟩ := h x hx
    exact hs
  | obj ms => cases h
  | _ => trivial

theorem IsFlat.wf {v : Json} (h : IsFlat v) : v.WF := by
  cases v with
  | arr xs =>
    rw [Json.wf_arr]
    intro x hx
    obtain ⟨s, rfl, -⟩ := h x hx
    trivial
  | obj ms => cases h
  | _ => trivial

namespace ValidMessage

variable {ms ns : Members}

/-- The order of the members does not matter. -/
theorem of_perm (h : ValidMessage ms) (hperm : ns.Perm ms) : ValidMessage ns := by
  obtain ⟨requestId, m, hid, hb, hms⟩ := h
  exact ⟨requestId, m, hid, hb, hperm.trans hms⟩

theorem nodup_keys (h : ValidMessage ms) : (Dict.keys ms).Nodup := by
  obtain ⟨requestId, m, -, -, hms⟩ := h
  rw [Dict.keys, (hms.map Prod.fst).nodup_iff]
  exact nodup_keys_members m requestId

theorem isFlat (h : ValidMessage ms) : ∀ x ∈ ms, x.1.all isScalar = true ∧ IsFlat x.2 := by
  obtain ⟨requestId, m, hid, hb, hms⟩ := h
  exact fun x hx => isFlat_of_mem_members hid hb x (hms.mem_iff.mp hx)

theorem wf (h : ValidMessage ms) : (Json.obj ms).WF :=
  Json.wf_obj.mpr ⟨h.nodup_keys, fun x hx => (h.isFlat x hx).2.wf⟩

theorem plain (h : ValidMessage ms) : (Json.obj ms).Plain :=
  Json.plain_obj.mpr fun x hx => (h.isFlat x hx).2.plain

theorem encodable (h : ValidMessage ms) : (Json.obj ms).Encodable :=
  Json.encodable_obj.mpr fun x hx => ⟨(h.isFlat x hx).1, (h.isFlat x hx).2.encodable⟩

/-- Only the order of the members is made canonical. -/
theorem canonical_eq (h : ValidMessage ms) : (Json.obj ms).canonical = .obj ms.sort := by
  have hvalues : ms.map (fun m => (m.1, Json.canonical m.2)) = ms := by
    refine (List.map_congr_left fun x hx => ?_).trans (List.map_id ms)
    exact Prod.ext rfl (h.isFlat x hx).2.canonical_eq
  rw [Json.canonical_obj, hvalues]

end ValidMessage

/-- The body of the frame of an object. -/
def bodyOf (ms : Members) : Bytes :=
  encodePass (Json.obj ms).dumps

theorem bodyOf_ne_nil (ms : Members) : bodyOf ms ≠ [] := by
  have hlen := length_le_byteLength (Json.obj ms).dumps
  have hpos : 0 < (Json.obj ms).dumps.length := by
    rw [Json.dumps, Json.canonical_obj, Json.render]
    simp
  intro hnil
  have : byteLength (Json.obj ms).dumps = 0 := congrArg List.length hnil
  omega

/-- `encode_frame` accepts the valid messages whose body fits. -/
theorem encodeFrame_eq_ok {ms : Members} (hnd : (Dict.keys ms).Nodup) {frame : Bytes} :
    encodeFrame (.obj ms) = .ok frame ↔ ValidMessage ms ∧ (bodyOf ms).length ≤ maxFrameBytes ∧
      frame = packUint32 (bodyOf ms).length ++ bodyOf ms := by
  simp only [encodeFrame, bind_eq_ok, validateMessage_eq_ok hnd, orRaise_eq_ok, require_eq_ok,
    Bool.and_eq_true, Bool.not_eq_true', List.isEmpty_eq_false_iff, decide_eq_true_eq]
  constructor
  · rintro ⟨_, ⟨rfl, hvalid⟩, body, hbody, -, ⟨-, hle⟩, hframe⟩
    rw [Json.encode_dumps hvalid.encodable] at hbody
    obtain rfl := Option.some.inj hbody
    exact ⟨hvalid, hle, (Except.ok.inj hframe).symm⟩
  · rintro ⟨hvalid, hle, rfl⟩
    exact ⟨ms, ⟨rfl, hvalid⟩, bodyOf ms, Json.encode_dumps hvalid.encodable, (),
      ⟨bodyOf_ne_nil ms, hle⟩, rfl⟩

/-- A frame is its length, and a text that is the JSON of a valid message. -/
theorem decodeFrame_eq_ok {frame : Bytes} {ms : Members} :
    decodeFrame frame = .ok ms ↔ ∃ text, 0 < byteLength text ∧ byteLength text ≤ maxFrameBytes ∧
      4 ≤ frame.length ∧ unpackUint32 (frame.take 4) = byteLength text ∧
      encode text = some (frame.drop 4) ∧ loads text = .ok (.obj ms) ∧ ValidMessage ms := by
  simp only [decodeFrame, bind_eq_ok, require_eq_ok, orRaise_eq_ok, decide_eq_true_eq,
    bne_iff_ne, beq_iff_eq, decode_eq_some]
  have hlength : ∀ {text : PyStr} {b : Bytes}, encode text = some b → byteLength text = b.length := by
    intro text b h
    unfold encode at h
    split_ifs at h
    rw [← Option.some.inj h, byteLength]
  constructor
  · rintro ⟨-, hheader, -, hne, -, hle, -, hlen, text, htext, v, hv, hms⟩
    have hbytes := hlength htext
    rw [List.length_drop] at hbytes
    have hloads : loads text = .ok v := by
      unfold loadsBody at hv
      split at hv
      · obtain rfl := Except.ok.inj hv
        assumption
      · cases hv
    cases v with
    | obj ns =>
      have hnd : (Dict.keys ns).Nodup := (Json.wf_obj.mp (loads_wf hloads)).1
      obtain ⟨rfl, hvalid⟩ := (validateMessage_eq_ok hnd).mp hms
      exact ⟨text, by omega, by omega, hheader, by omega, htext, hloads, hvalid⟩
    | _ => cases hms
  · rintro ⟨text, hpos, hle, hheader, hunpack, htext, hloads, hvalid⟩
    have hbytes := hlength htext
    rw [List.length_drop] at hbytes
    exact ⟨(), hheader, (), by omega, (), by omega, (), by omega, text, htext, .obj ms,
      by rw [loadsBody, hloads], (validateMessage_eq_ok hvalid.nodup_keys).mpr ⟨rfl, hvalid⟩⟩

/-- What was encoded is decoded, with the members in order. -/
theorem decodeFrame_frame {ms : Members} (hvalid : ValidMessage ms)
    (hle : (bodyOf ms).length ≤ maxFrameBytes) :
    decodeFrame (packUint32 (bodyOf ms).length ++ bodyOf ms) = .ok ms.sort := by
  have hloads : loads (Json.obj ms).dumps = .ok (.obj ms.sort) := by
    rw [Json.loads_dumps hvalid.wf hvalid.plain, hvalid.canonical_eq]
  have hpos := List.length_pos_iff.mpr (bodyOf_ne_nil ms)
  refine (decodeFrame_eq_ok).mpr ⟨(Json.obj ms).dumps, hpos, hle, ?_, ?_, ?_, hloads,
    hvalid.of_perm ms.sort_perm⟩
  · simp [packUint32]
  · have htake : (packUint32 (bodyOf ms).length ++ bodyOf ms).take 4 =
        packUint32 (bodyOf ms).length := by
      simp [packUint32]
    rw [htake]
    exact toNat_packUint32 (lt_of_le_of_lt hle (by decide))
  · rw [Json.encode_dumps hvalid.encodable]
    simp [packUint32, bodyOf]

theorem escapedLength_base64 {c : Char} (h : isBase64Char c = true) :
    escapedLength (.scalar c) = 1 := by
  simp only [isBase64Char, Bool.or_eq_true, List.contains_iff_mem, beq_iff_eq] at h
  rcases h with h | rfl
  · have : ∀ d ∈ base64Alphabet, escapedLength (.scalar d) = 1 :=
      List.all_iff_forall_prop.mp (by decide)
    exact this c h
  · decide

/-- An output message within the limits fits in a frame. -/
theorem length_bodyOf_output {ms : Members} {requestId : PyStr} (hid : isHexText 32 requestId = true)
    {sequence : ℕ} {data : Bytes} (hb : (Message.output sequence data).InBounds)
    (hperm : ms.Perm ((Message.output sequence data).members requestId)) :
    (bodyOf ms).length ≤ maxFrameBytes := by
  have hvalid : ValidMessage ms := ⟨requestId, _, hid, hb, hperm⟩
  obtain ⟨⟨-, hseq⟩, -, hdata⟩ := hb
  have hones : ∀ s : PyStr, (∀ c ∈ s, escapedLength c = 1) →
      (s.map escapedLength).sum = s.length := by
    intro s h
    rw [List.map_congr_left h]
    simp
  have hidLength : (requestId.map escapedLength).sum = 32 := by
    simp only [isHexText, Bool.and_eq_true, beq_iff_eq, List.all_eq_true, Bool.or_eq_true,
      decide_eq_true_eq] at hid
    rw [hones requestId fun c hc => escapedLength_hex (hid.2 c hc), hid.1]
  have hdataLength : ((ofChars (b64encode data)).map escapedLength).sum =
      4 * ((data.length + 2) / 3) := by
    rw [hones _ fun c hc => ?_, ofChars, List.length_map, length_b64encode]
    obtain ⟨d, hd, rfl⟩ := List.mem_map.mp hc
    exact escapedLength_base64 (isBase64Char_b64encode data d hd)
  have hdigits : (intText sequence).length ≤ 10 := by
    rw [intText, if_neg (by omega), Int.natAbs_natCast]
    exact (Nat.length_toDigits_le_iff (by decide) (by decide)).mpr
      (lt_of_le_of_lt hseq (by decide))
  have hscalar : ∀ {v : Json} {t : Token}, v.tokens = [t] → v.weight = t.weight :=
    fun h => Json.weight_scalar h
  have hkeys : byteLength (quote "version") = 9 ∧ byteLength (quote "type") = 6 ∧
      byteLength (quote "request_id") = 12 ∧ byteLength (quote "sequence") = 10 ∧
      byteLength (quote "data_b64") = 10 ∧ byteLength (quote "output") = 8 ∧
      (intText protocolVersion).length = 1 := by decide
  obtain ⟨hk1, hk2, hk3, hk4, hk5, hk6, hk7⟩ := hkeys
  have hweight : (bodyOf ms).length = (Json.obj ms).weight := by
    show byteLength (Json.obj ms).canonical.render = _
    rw [Json.byteLength_render _ hvalid.plain.canonical, Json.weight_canonical]
  rw [hweight, Json.weight_obj, (hperm.map Json.memberWeight).sum_eq, hperm.length_eq]
  simp only [Message.members, Message.body, Message.kind, List.map_cons, List.map_nil,
    List.sum_cons, List.sum_nil, Json.memberWeight, hscalar (v := .int _) rfl,
    hscalar (v := .str _) rfl, Token.weight, byteLength_quote (requestId),
    byteLength_quote (ofChars _), hk1, hk2, hk3, hk4, hk5, hk6, hk7, hidLength, hdataLength,
    List.length_cons, List.length_nil]
  have : maxOutputChunkBytes = 32 * 1024 := rfl
  have : maxFrameBytes = 64 * 1024 := rfl
  omega

/-- The codec is a round trip: an encoded message is decoded to itself; exactly the valid messages
whose body fits are encoded; what is decoded is valid, is encoded again, and that is decoded to
it; and every output message within the limits is encoded. -/
theorem frame_round_trip :
    (∀ (message : Json) (frame : Bytes), message.WF → encodeFrame message = .ok frame →
      ∃ ms ms', message = .obj ms ∧ decodeFrame frame = .ok ms' ∧ ms'.Perm ms) ∧
    (∀ message : Json, message.WF → ((∃ frame, encodeFrame message = .ok frame) ↔
      ∃ ms, message = .obj ms ∧ ValidMessage ms ∧ (bodyOf ms).length ≤ maxFrameBytes)) ∧
    (∀ (frame : Bytes) (ms : Members), decodeFrame frame = .ok ms → ValidMessage ms ∧
      ∃ frame' ms', encodeFrame (.obj ms) = .ok frame' ∧ decodeFrame frame' = .ok ms' ∧
        ms'.Perm ms) ∧
    (∀ (ms : Members) (requestId : PyStr) (sequence : ℕ) (data : Bytes),
      isHexText 32 requestId = true → (Message.output sequence data).InBounds →
      ms.Perm ((Message.output sequence data).members requestId) →
      ∃ frame, encodeFrame (.obj ms) = .ok frame) := by
  have hobj : ∀ (message : Json) (frame : Bytes), encodeFrame message = .ok frame →
      ∃ ms : Members, message = .obj ms := by
    intro message frame h
    cases message with
    | obj ms => exact ⟨ms, rfl⟩
    | _ => cases h
  refine ⟨fun message frame hwf h => ?_, fun message hwf => ?_, fun frame ms h => ?_,
    fun ms requestId sequence data hid hb hperm => ?_⟩
  · obtain ⟨ms, rfl⟩ := hobj message frame h
    obtain ⟨hvalid, hle, rfl⟩ := (encodeFrame_eq_ok (Json.wf_obj.mp hwf).1).mp h
    exact ⟨ms, ms.sort, rfl, decodeFrame_frame hvalid hle, ms.sort_perm⟩
  · constructor
    · rintro ⟨frame, h⟩
      obtain ⟨ms, rfl⟩ := hobj message frame h
      obtain ⟨hvalid, hle, -⟩ := (encodeFrame_eq_ok (Json.wf_obj.mp hwf).1).mp h
      exact ⟨ms, rfl, hvalid, hle⟩
    · rintro ⟨ms, rfl, hvalid, hle⟩
      exact ⟨_, (encodeFrame_eq_ok hvalid.nodup_keys).mpr ⟨hvalid, hle, rfl⟩⟩
  · obtain ⟨text, -, hle, -, -, -, hloads, hvalid⟩ := decodeFrame_eq_ok.mp h
    have hbody : (bodyOf ms).length ≤ maxFrameBytes :=
      le_trans (Json.length_dumps_le hloads hvalid.plain) hle
    exact ⟨hvalid, _, ms.sort,
      (encodeFrame_eq_ok hvalid.nodup_keys).mpr ⟨hvalid, hbody, rfl⟩,
      decodeFrame_frame hvalid hbody, ms.sort_perm⟩
  · have hvalid : ValidMessage ms := ⟨requestId, _, hid, hb, hperm⟩
    exact ⟨_, (encodeFrame_eq_ok hvalid.nodup_keys).mpr
      ⟨hvalid, length_bodyOf_output hid hb hperm, rfl⟩⟩

/-- The object of a cancel request. -/
def cancelRequestObject : Members :=
  Message.members (List.replicate 32 (.scalar 'a')) .cancelRequest

theorem frame_round_trip_cancelRequest : ∃ frame ms',
    encodeFrame (.obj cancelRequestObject) = .ok frame ∧ decodeFrame frame = .ok ms' ∧
      ms'.Perm cancelRequestObject := by
  have hwf : (Json.obj cancelRequestObject).WF := by
    refine Json.wf_obj.mpr ⟨nodup_keys_members _ _, fun m hm => ?_⟩
    rcases hm with _ | ⟨_, _ | ⟨_, _ | ⟨_, hm⟩⟩⟩
    · trivial
    · trivial
    · trivial
    · cases hm
  obtain ⟨frame, hframe⟩ := (frame_round_trip.2.1 _ hwf).mpr
    ⟨cancelRequestObject, rfl, ⟨_, .cancelRequest, by decide, trivial, .refl _⟩,
      by decide⟩
  obtain ⟨ms, ms', hms, hdecode, hperm⟩ := frame_round_trip.1 _ frame hwf hframe
  obtain rfl := Json.obj.inj hms
  exact ⟨frame, ms', hframe, hdecode, hperm⟩

end Icode.RunnerProtocol
