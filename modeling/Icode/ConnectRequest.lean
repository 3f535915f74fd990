import Icode.NetworkLease
import Icode.Utf8

/-!
# SOCKS5 requests and CONNECT heads

The host bridge reads a SOCKS5 request (`readSocks5Request`), writes the name it carries
into the head of a CONNECT request (`connectHead`), and hands the head to the parser
that every CONNECT client meets (`parseHttpsConnectRequestHead`). The name is up to 255
arbitrary bytes, and nothing but the parser looks at them.

A line break in the name gives the head more lines than the parser takes
(`splitLines_append`), a blank gives the request line more words (`splitOn_append`), and
a colon gives the authority more parts. So a head is accepted exactly when the name is
one DNS host name, and the target is then that name (`parse_connectHead_iff`).
`socks5_injects_nothing` is this for the whole bridge.
-/

namespace Icode

open Py SandboxPolicy

/-! ## Byte strings -/

/-- A byte literal. -/
def bytesLit (s : String) : Bytes :=
  encodePass (lit s)

/-- `data.decode("ascii")`. -/
def decodeAscii (data : Bytes) : Option PyStr :=
  if data.all (· < 0x80) then some (data.map fun b => ofOrd b.toNat) else none

/-- `data.split(b"\r\n")`. -/
def splitLines : Bytes → List Bytes
  | [] => [[]]
  | 0x0D :: 0x0A :: rest => [] :: splitLines rest
  | b :: rest =>
    match splitLines rest with
    | [] => [[b]]
    | line :: lines => (b :: line) :: lines

/-- `data.count(needle)`, with `skip` bytes of the last match left. -/
def countFrom (needle : Bytes) : ℕ → Bytes → ℕ
  | _, [] => 0
  | skip + 1, _ :: rest => countFrom needle skip rest
  | 0, b :: rest =>
    if needle.isPrefixOf (b :: rest) then countFrom needle (needle.length - 1) rest + 1
    else countFrom needle 0 rest

/-- `data.strip(b" \t")`. -/
def stripBlank (data : Bytes) : Bytes :=
  let blank := fun b : UInt8 => b == 0x20 || b == 0x09
  ((data.dropWhile blank).reverse.dropWhile blank).reverse

/-- `data.lower()`. -/
def lowerBytes (data : Bytes) : Bytes :=
  data.map fun b => if 65 ≤ b ∧ b ≤ 90 then b + 32 else b

theorem splitLines_crlf (rest : Bytes) : splitLines (0x0D :: 0x0A :: rest) = [] :: splitLines rest :=
  rfl

theorem splitLines_cons {b : UInt8} {rest : Bytes}
    (h : ∀ ys, b = 0x0D → rest = 0x0A :: ys → False) : splitLines (b :: rest) =
      match splitLines rest with
      | [] => [[b]]
      | line :: lines => (b :: line) :: lines :=
  splitLines.eq_3 b rest h

theorem splitLines_ne_nil (data : Bytes) : splitLines data ≠ [] := by
  fun_cases splitLines data <;> simp

/-- A line break ends a line, whatever is before it. -/
theorem splitLines_append (a b : Bytes) :
    splitLines (a ++ 0x0D :: 0x0A :: b) = splitLines a ++ splitLines b := by
  fun_induction splitLines a with
  | case1 => rfl
  | case2 rest ih => rw [List.cons_append, List.cons_append, splitLines_crlf, ih, List.cons_append]
  | case3 x rest hx hnil => exact absurd hnil (splitLines_ne_nil rest)
  | case4 x rest hx line lines hlines ih =>
    have hhead : ∀ ys, x = 0x0D → rest ++ 0x0D :: 0x0A :: b = 0x0A :: ys → False := by
      intro ys h13 hys
      cases rest with
      | nil => simp at hys
      | cons y rest =>
        obtain ⟨rfl, -⟩ := List.cons.inj hys
        exact hx rest h13 rfl
    rw [List.cons_append, splitLines_cons hhead, ih, hlines]
    rfl

/-- The lines of a text without a carriage return. -/
theorem splitLines_of_not_mem {data : Bytes} (h : 0x0D ∉ data) : splitLines data = [data] := by
  induction data with
  | nil => rfl
  | cons b rest ih =>
    rw [List.mem_cons, not_or] at h
    rw [splitLines_cons fun _ hb => absurd hb.symm h.1, ih h.2]

/-- One line is the whole text. -/
theorem splitLines_eq_singleton {data line : Bytes} (h : splitLines data = [line]) :
    line = data := by
  induction data generalizing line with
  | nil => exact (List.cons.inj h).1.symm
  | cons b rest ih =>
    by_cases hbreak : ∃ ys, b = 0x0D ∧ rest = 0x0A :: ys
    · obtain ⟨ys, rfl, rfl⟩ := hbreak
      exact absurd (List.cons.inj h).2 (splitLines_ne_nil ys)
    · rw [splitLines_cons fun ys hb hrest => hbreak ⟨ys, hb, hrest⟩] at h
      rcases hlines : splitLines rest with _ | ⟨line', lines⟩
      · exact absurd hlines (splitLines_ne_nil rest)
      · rw [hlines] at h
        obtain ⟨rfl, rfl⟩ := List.cons.inj h
        rw [ih hlines]

/-- The needle does not begin in a text without its first byte. -/
theorem countFrom_append {b : UInt8} {tail a : Bytes} (h : b ∉ a) (data : Bytes) :
    countFrom (b :: tail) 0 (a ++ data) = countFrom (b :: tail) 0 data := by
  induction a with
  | nil => rfl
  | cons x a ih =>
    rw [List.mem_cons, not_or] at h
    have hstart : (b :: tail).isPrefixOf (x :: (a ++ data)) = false := by
      simp [List.isPrefixOf, h.1]
    rw [List.cons_append, countFrom, hstart, if_neg (by simp), ih h.2]

theorem stripBlank_cons_blank {data : Bytes}
    (hhead : data.head?.all fun b => b != 0x20 && b != 0x09)
    (hlast : data.getLast?.all fun b => b != 0x20 && b != 0x09) :
    stripBlank (0x20 :: data) = data := by
  have hfirst : ∀ l : Bytes, (l.head?.all fun b => b != 0x20 && b != 0x09) = true →
      l.dropWhile (fun b => b == 0x20 || b == 0x09) = l := by
    intro l hl
    cases l with
    | nil => rfl
    | cons b l =>
      simp only [List.head?_cons, Option.all_some, Bool.and_eq_true, bne_iff_ne, ne_eq] at hl
      exact List.dropWhile_cons_of_neg (by simp [hl.1, hl.2])
  unfold stripBlank
  simp only [List.dropWhile_cons, beq_self_eq_true, Bool.true_or, if_true]
  rw [hfirst data hhead, hfirst data.reverse (by rwa [List.head?_reverse]), List.reverse_reverse]

/-! ## The CONNECT parser -/

/-- `MAX_CONNECT_REQUEST_HEAD_BYTES` -/
def maxConnectRequestHeadBytes : ℕ := 16 * 1024

/-- `MAX_CONNECT_REQUEST_HEADERS` -/
def maxConnectRequestHeaders : ℕ := 32

/-- `_HEADER_TERMINATOR` -/
def headerTerminator : Bytes := [0x0D, 0x0A, 0x0D, 0x0A]

/-- `_HTTPS_PORT_TEXT` -/
def httpsPortText : Bytes := bytesLit "443"

/-- `ConnectRequestError`: every rejection has the one message `_INVALID_REQUEST`. -/
inductive ConnectRequestError where
  | invalid
  deriving DecidableEq

/-- `HttpsConnectTarget`. -/
structure HttpsConnectTarget where
  hostname : PyStr
  port : ℤ
  deriving DecidableEq

/-- `_HEADER_NAME_PATTERN`, one byte of it. -/
def isHeaderNameByte (b : UInt8) : Bool :=
  (bytesLit "!#$%&'*+.^_`|~-").contains b || (48 ≤ b && b ≤ 57) || (65 ≤ b && b ≤ 90) ||
    (97 ≤ b && b ≤ 122)

/-- The name before the port, decoded and in lower case. -/
def canonicalHostname (hostnameBytes : Bytes) : Option PyStr :=
  match decodeAscii hostnameBytes with
  | some hostname =>
    if isExactDnsHostname hostname then some (hostname.map lowerAscii) else none
  | none => none

/-- `_parse_authority`. -/
def parseAuthority (authority : Bytes) : Option PyStr :=
  match authority.splitOn 0x3A with
  | [hostnameBytes, portBytes] =>
    if portBytes = httpsPortText then canonicalHostname hostnameBytes else none
  | _ => none

/-- `_parse_host_field`. -/
def parseHostField (value : Bytes) : Option PyStr :=
  match (stripBlank value).splitOn 0x3A with
  | [hostnameBytes] => canonicalHostname hostnameBytes
  | [hostnameBytes, portBytes] =>
    if portBytes = httpsPortText then canonicalHostname hostnameBytes else none
  | _ => none

/-- The body of the loop over the header lines, with the number of `Host` fields so far. -/
def checkField (hostname : PyStr) (hostFields : ℕ) (line : Bytes) :
    Except ConnectRequestError ℕ := do
  require (!line.isEmpty && !line.head?.any fun b => b == 0x20 || b == 0x09) .invalid
  let name := line.takeWhile (· != 0x3A)
  require (line.contains 0x3A && !name.isEmpty) .invalid
  let value := (line.dropWhile (· != 0x3A)).drop 1
  require (name.all isHeaderNameByte) .invalid
  require (!value.any fun b => (b < 0x20 && b != 0x09) || b == 0x7F) .invalid
  require (lowerBytes name == bytesLit "host") .invalid
  require (hostFields + 1 == 1 && parseHostField value == some hostname) .invalid
  pure (hostFields + 1)

/-- The version and the lines after the request line. -/
def checkHeaderFields (hostname : PyStr) (version : Bytes) (fields : List Bytes) :
    Except ConnectRequestError Unit := do
  if version = bytesLit "HTTP/1.0" then require fields.isEmpty .invalid
  else
    require (version == bytesLit "HTTP/1.1") .invalid
    let hostFields ← fields.foldlM (checkField hostname) 0
    require (hostFields == 1) .invalid

/-- `parse_https_connect_request_head`. -/
def parseHttpsConnectRequestHead (requestHead : Bytes) :
    Except ConnectRequestError HttpsConnectTarget := do
  require (!requestHead.isEmpty) .invalid
  require (requestHead.length ≤ maxConnectRequestHeadBytes) .invalid
  require (headerTerminator.isSuffixOf requestHead && countFrom headerTerminator 0 requestHead == 1)
    .invalid
  match splitLines (requestHead.take (requestHead.length - headerTerminator.length)) with
  | [] => throw .invalid
  | requestLine :: fields =>
    require (fields.length ≤ maxConnectRequestHeaders) .invalid
    require (!requestLine.any fun b => b < 0x20 || b == 0x7F) .invalid
    match requestLine.splitOn 0x20 with
    | [method, authority, version] =>
      require (method == bytesLit "CONNECT") .invalid
      let hostname ← orRaise (parseAuthority authority) .invalid
      checkHeaderFields hostname version fields
      pure ⟨hostname, httpsPort⟩
    | _ => throw .invalid

/-! ## Host names as bytes -/

/-- A byte between the hyphen and `z` that is no colon. -/
abbrev PlainByte (b : UInt8) : Prop :=
  0x2D ≤ b.toNat ∧ b.toNat ≤ 0x7A ∧ b.toNat ≠ 0x3A

theorem mem_splitDots {c : CodePoint} : ∀ {s : PyStr}, c ∈ s →
    c = .scalar '.' ∨ ∃ part ∈ splitDots s, c ∈ part
  | x :: s, h => by
    unfold splitDots
    rcases hs : splitDots s with _ | ⟨part, parts⟩
    · have : ∀ s, splitDots s ≠ [] := by
        intro s
        fun_induction splitDots s <;> simp_all
      exact absurd hs (this s)
    rcases List.mem_cons.mp h with rfl | h
    · by_cases hdot : c = .scalar '.'
      · exact Or.inl hdot
      · simp [hdot]
    · rcases mem_splitDots h with hdot | ⟨p, hp, hc⟩
      · exact Or.inl hdot
      · rw [hs, List.mem_cons] at hp
        right
        dsimp only
        split_ifs
        · exact ⟨p, by simp [hp], hc⟩
        · rcases hp with rfl | hp
          · exact ⟨x :: p, by simp, by simp [hc]⟩
          · exact ⟨p, by simp [hp], hc⟩

/-- A host name consists of letters, digits, hyphens and dots. -/
theorem ord_of_isExactDnsHostname {host : PyStr} (h : isExactDnsHostname host = true) :
    host.length ≤ 253 ∧ ∀ c ∈ host, 0x2D ≤ c.ord ∧ c.ord ≤ 0x7A ∧ c.ord ≠ 0x3A := by
  simp only [isExactDnsHostname, isExactDnsHostname', Bool.and_eq_true, decide_eq_true_eq,
    List.length_map] at h
  obtain ⟨-, ⟨⟨⟨⟨-, hlen⟩, -⟩, -⟩, -⟩, hlabels⟩ := h
  refine ⟨hlen, fun c hc => ?_⟩
  have hlower : ∀ n, (lowerAscii c).ord = n → 0x2D ≤ n → n ≤ 0x7A → n ≠ 0x3A →
      0x2D ≤ c.ord ∧ c.ord ≤ 0x7A ∧ c.ord ≠ 0x3A := by
    rintro n rfl h1 h2 h3
    unfold lowerAscii at h1 h2 h3
    split_ifs at h1 h2 h3
    · omega
    · exact ⟨h1, h2, h3⟩
  rcases mem_splitDots (List.mem_map_of_mem (f := lowerAscii) hc) with hdot | ⟨part, hpart, hc⟩
  · exact hlower 0x2E (by rw [hdot]; rfl) (by omega) (by omega) (by omega)
  · have hlabel := List.all_eq_true.mp hlabels part hpart
    simp only [isDnsLabel, Bool.and_eq_true, List.all_eq_true, Bool.or_eq_true, beq_iff_eq]
      at hlabel
    rcases hlabel.1.2 _ hc with hchar | hdash
    · simp only [isLabelChar, Bool.or_eq_true, Bool.and_eq_true, decide_eq_true_eq] at hchar
      exact hlower _ rfl (by omega) (by omega) (by omega)
    · exact hlower 0x2D (by rw [hdash]; rfl) (by omega) (by omega) (by omega)

theorem decodeAscii_eq_some {data : Bytes} {text : PyStr} (h : decodeAscii data = some text) :
    (∀ b ∈ data, b.toNat < 0x80) ∧ text = data.map fun b => ofOrd b.toNat := by
  unfold decodeAscii at h
  split_ifs at h with hall
  refine ⟨fun b hb => ?_, (Option.some.inj h).symm⟩
  have := List.all_eq_true.mp hall b hb
  exact UInt8.lt_iff_toNat_lt.mp (by simpa using this)

/-- Encoding gives back the bytes of an ASCII text. -/
theorem encodePass_of_decodeAscii {data : Bytes} {text : PyStr} (h : decodeAscii data = some text) :
    encodePass text = data := by
  obtain ⟨hlt, rfl⟩ := decodeAscii_eq_some h
  rw [encodePass, List.flatMap_map]
  have hcode : ∀ b ∈ data, (utf8 (ofOrd b.toNat).ord).map UInt8.ofNat = [b] := by
    intro b hb
    rw [ord_ofOrd (Or.inl (by have := hlt b hb; omega)), utf8, if_pos (hlt b hb)]
    simp
  rw [List.flatMap_congr hcode, List.flatMap_singleton']

/-- The bytes of a host name. -/
theorem plainByte_of_isExactDnsHostname {data : Bytes} {host : PyStr}
    (hd : decodeAscii data = some host) (h : isExactDnsHostname host = true) :
    data.length ≤ 253 ∧ ∀ b ∈ data, PlainByte b := by
  obtain ⟨hlt, rfl⟩ := decodeAscii_eq_some hd
  obtain ⟨hlen, hord⟩ := ord_of_isExactDnsHostname h
  refine ⟨by simpa using hlen, fun b hb => ?_⟩
  have := hord _ (List.mem_map_of_mem hb)
  rwa [ord_ofOrd (Or.inl (by have := hlt b hb; omega))] at this

/-- A host name has no control byte. -/
theorem any_control_eq_false {data : Bytes} (h : ∀ b ∈ data, PlainByte b) :
    (data.any fun b => b < 0x20 || b == 0x7F) = false := by
  rw [List.any_eq_false]
  intro b hb hcontrol
  have hplain := h b hb
  simp only [Bool.or_eq_true, decide_eq_true_eq, beq_iff_eq, UInt8.lt_iff_toNat_lt,
    ← UInt8.toNat_inj] at hcontrol
  have : b.toNat < 32 ∨ b.toNat = 127 := hcontrol
  omega

/-! ## The SOCKS5 bridge -/

/-- Why the bridge stops before it has a head. -/
inductive SocksError where
  /-- `_SocksRequestRejected`, with its reply code -/
  | rejected (replyCode : ℕ)
  /-- The stream ends, the deadline passes or the scope is closed. -/
  | closed
  deriving DecidableEq

/-- `_SOCKS5_VERSION` -/
def socks5Version : UInt8 := 5

/-- `_SOCKS5_METHOD_NO_AUTH` -/
def socks5MethodNoAuth : UInt8 := 0

/-- `_SOCKS5_COMMAND_CONNECT` -/
def socks5CommandConnect : UInt8 := 1

/-- `_SOCKS5_ADDRESS_DOMAIN` -/
def socks5AddressDomain : UInt8 := 3

/-- `_read_exact`: the next bytes of the stream, and what comes after them. -/
def readExact (size : ℕ) (stream : Bytes) : Except SocksError (Bytes × Bytes) :=
  if size ≤ stream.length then .ok (stream.take size, stream.drop size) else .error .closed

/-- The head the bridge writes for a name; a name that is not ASCII has none. -/
def connectHead (hostname : Bytes) : Option Bytes :=
  (decodeAscii hostname).map fun host => encodePass <|
    lit "CONNECT " ++ host ++ lit ":443 HTTP/1.1\r\n" ++ (lit "Host: " ++ host ++
      lit ":443\r\n\r\n")

/-- `_read_socks5_request`, over everything the client sends. `none` is a client that
offers no method the bridge takes, which is told so. -/
def readSocks5Request (stream : Bytes) : Except SocksError (Option Bytes) := do
  let (greeting, stream) ← readExact 2 stream
  let methodCount := greeting.getD 1 0
  require (greeting.getD 0 0 == socks5Version && methodCount != 0) (.rejected 255)
  let (methods, stream) ← readExact methodCount.toNat stream
  if methods.contains socks5MethodNoAuth then
    let (request, stream) ← readExact 4 stream
    require (request.getD 0 0 == socks5Version && request.getD 2 0 == 0) (.rejected 1)
    require (request.getD 1 0 == socks5CommandConnect) (.rejected 7)
    require (request.getD 3 0 == socks5AddressDomain) (.rejected 8)
    let (hostLength, stream) ← readExact 1 stream
    require (hostLength.getD 0 0 != 0) (.rejected 8)
    let (hostname, stream) ← readExact (hostLength.getD 0 0).toNat stream
    let (port, _) ← readExact 2 stream
    require (((port.getD 0 0).toNat * 256 + (port.getD 1 0).toNat : ℤ) == httpsPort) (.rejected 2)
    let head ← orRaise (connectHead hostname) (.rejected 2)
    pure (some head)
  else pure none

/-! ## What the parser accepts -/

/-- The request line of a head. -/
def connectLine (hostname : Bytes) : Bytes :=
  bytesLit "CONNECT" ++ 0x20 :: ((hostname ++ 0x3A :: httpsPortText) ++ 0x20 :: bytesLit "HTTP/1.1")

/-- The only header line of a head. -/
def hostLine (hostname : Bytes) : Bytes :=
  bytesLit "Host" ++ 0x3A :: 0x20 :: (hostname ++ 0x3A :: httpsPortText)

theorem connectHead_eq {hostname : Bytes} {host : PyStr} (h : decodeAscii hostname = some host) :
    connectHead hostname =
      some (connectLine hostname ++ 0x0D :: 0x0A :: hostLine hostname ++ headerTerminator) := by
  rw [connectHead, h, Option.map_some]
  simp only [encodePass_append, encodePass_of_decodeAscii h, connectLine, hostLine, httpsPortText,
    headerTerminator, bytesLit]
  simp [encodePass, lit, ofChars, CodePoint.ord, utf8]

theorem eq_of_splitOn_eq_singleton {sep : UInt8} {data part : Bytes}
    (h : data.splitOn sep = [part]) : part = data := by
  have hjoin : [sep].intercalate (data.splitOn sep) = data := List.intercalate_splitOn sep
  rwa [h, List.intercalate_singleton] at hjoin

/-- An authority `name:443` is accepted when the name is a host name. -/
theorem parseAuthority_eq_some {hostname : Bytes} {host name : PyStr}
    (hd : decodeAscii hostname = some host) :
    parseAuthority (hostname ++ 0x3A :: httpsPortText) = some name ↔
      isExactDnsHostname host = true ∧ name = host.map lowerAscii := by
  have hcanonical : canonicalHostname hostname = some name ↔
      isExactDnsHostname host = true ∧ name = host.map lowerAscii := by
    unfold canonicalHostname
    rw [hd]
    dsimp only
    split_ifs with hexact <;> simp [hexact, eq_comm]
  have hport : httpsPortText.splitOn 0x3A = [httpsPortText] :=
    List.splitOn_eq_singleton (by decide)
  rw [parseAuthority, List.splitOn_append_cons_self, hport]
  rcases hsplit : hostname.splitOn 0x3A with _ | ⟨first, _ | ⟨second, rest⟩⟩
  · exact absurd hsplit (List.splitOn_ne_nil _ _)
  · obtain rfl := eq_of_splitOn_eq_singleton hsplit
    simpa using hcanonical
  · -- a colon in the name leaves more than two parts
    refine ⟨fun h => ?_, fun h => ?_⟩
    · cases rest <;> simp at h
    · have hcolon : (0x3A : UInt8) ∉ hostname := fun hmem =>
        ((plainByte_of_isExactDnsHostname hd h.1).2 _ hmem).2.2 rfl
      rw [List.splitOn_eq_singleton hcolon] at hsplit
      simp at hsplit

/-- The loop over the header lines ends with one `Host` field when there is one line. -/
theorem foldlM_checkField {name : PyStr} {fields : List Bytes}
    (h : fields.foldlM (checkField name) 0 = .ok 1) : ∃ line, fields = [line] := by
  have hstep : ∀ {n m : ℕ} {line : Bytes}, checkField name n line = .ok m → n = 0 ∧ m = 1 := by
    intro n m line hline
    simp only [checkField, bind_eq_ok, require_eq_ok, Bool.and_eq_true, beq_iff_eq] at hline
    obtain ⟨-, -, -, -, -, -, -, -, -, -, -, hcount, hm⟩ := hline
    exact ⟨by omega, by simpa [pure, Except.pure, show n = 0 by omega] using hm.symm⟩
  rcases fields with _ | ⟨first, _ | ⟨second, rest⟩⟩
  · simp [pure, Except.pure] at h
  · exact ⟨first, rfl⟩
  · rw [List.foldlM_cons, bind_eq_ok] at h
    obtain ⟨n, h1, h⟩ := h
    rw [List.foldlM_cons, bind_eq_ok] at h
    obtain ⟨m, h2, -⟩ := h
    exact absurd (hstep h2).1 (by rw [(hstep h1).2]; simp)

/-- What the parser asks of a head that ends with a terminator. -/
theorem parse_eq_ok {body : Bytes} {target : HttpsConnectTarget} :
    parseHttpsConnectRequestHead (body ++ headerTerminator) = .ok target ↔
      (body ++ headerTerminator).length ≤ maxConnectRequestHeadBytes ∧
      countFrom headerTerminator 0 (body ++ headerTerminator) = 1 ∧
      ∃ requestLine fields authority version name,
        splitLines body = requestLine :: fields ∧ fields.length ≤ maxConnectRequestHeaders ∧
        (requestLine.any fun b => b < 0x20 || b == 0x7F) = false ∧
        requestLine.splitOn 0x20 = [bytesLit "CONNECT", authority, version] ∧
        parseAuthority authority = some name ∧ checkHeaderFields name version fields = .ok () ∧
        target = ⟨name, httpsPort⟩ := by
  have hne : (body ++ headerTerminator).isEmpty = false := by simp [headerTerminator]
  have hsuffix : headerTerminator.isSuffixOf (body ++ headerTerminator) = true :=
    List.isSuffixOf_iff_suffix.mpr (List.suffix_append _ _)
  simp only [parseHttpsConnectRequestHead, bind_eq_ok, require_eq_ok, hne, hsuffix, Bool.not_false,
    Bool.true_and, decide_eq_true_eq, beq_iff_eq, exists_const, true_and]
  refine and_congr_right fun _ => and_congr_right fun _ => ?_
  rw [List.length_append, Nat.add_sub_cancel, List.take_left]
  rcases hlines : splitLines body with _ | ⟨requestLine, fields⟩
  · exact absurd hlines (splitLines_ne_nil body)
  simp only [bind_eq_ok, require_eq_ok, decide_eq_true_eq, Bool.not_eq_true', exists_const]
  constructor
  · rintro ⟨hcount, hcontrol, h⟩
    split at h
    · next method authority version hsplit =>
      simp only [bind_eq_ok, require_eq_ok, orRaise_eq_ok, beq_iff_eq, exists_const] at h
      obtain ⟨rfl, name, hname, ⟨⟩, hfields, htarget⟩ := h
      exact ⟨_, _, authority, version, name, rfl, hcount, hcontrol, hsplit, hname, hfields,
        (Except.ok.inj htarget).symm⟩
    · cases h
  · rintro ⟨_, _, authority, version, name, he, hcount, hcontrol, hsplit, hname, hfields, rfl⟩
    obtain ⟨rfl, rfl⟩ := List.cons.inj he
    refine ⟨hcount, hcontrol, ?_⟩
    rw [hsplit]
    simp only [bind_eq_ok, require_eq_ok, orRaise_eq_ok, beq_self_eq_true, exists_const]
    exact ⟨trivial, name, hname, (), hfields, rfl⟩

/-- The words of the request line. -/
theorem splitOn_connectLine (hostname : Bytes) :
    (connectLine hostname).splitOn 0x20 = bytesLit "CONNECT" ::
      (hostname ++ 0x3A :: httpsPortText).splitOn 0x20 ++ [bytesLit "HTTP/1.1"] := by
  rw [connectLine, List.splitOn_append_cons_self, List.splitOn_append_cons_self,
    List.splitOn_eq_singleton (show (0x20 : UInt8) ∉ bytesLit "CONNECT" by decide),
    List.splitOn_eq_singleton (show (0x20 : UInt8) ∉ bytesLit "HTTP/1.1" by decide)]
  rfl

/-- The head of a name is accepted for a host name only: it has two lines then, and its
request line three words. -/
theorem exact_of_parse {hostname : Bytes} {host : PyStr} {target : HttpsConnectTarget}
    (hd : decodeAscii hostname = some host)
    (h : parseHttpsConnectRequestHead
      (connectLine hostname ++ 0x0D :: 0x0A :: hostLine hostname ++ headerTerminator) =
        .ok target) :
    isExactDnsHostname host = true ∧ target = ⟨host.map lowerAscii, httpsPort⟩ := by
  obtain ⟨-, -, requestLine, fields, authority, version, name, hlines, -, -, hwords, hname, hfields,
    rfl⟩ := (parse_eq_ok).mp h
  rw [splitLines_append] at hlines
  obtain ⟨first, rest, hfirst⟩ :=
    List.exists_cons_of_ne_nil (splitLines_ne_nil (connectLine hostname))
  obtain ⟨second, rest', hsecond⟩ :=
    List.exists_cons_of_ne_nil (splitLines_ne_nil (hostLine hostname))
  -- one field, so each part of the head is a single line
  have hone : fields.length = 1 := by
    unfold checkHeaderFields at hfields
    split at hfields
    · rw [require_eq_ok, List.isEmpty_iff] at hfields
      simp [hfields, hfirst, hsecond] at hlines
    · simp only [bind_eq_ok, require_eq_ok, beq_iff_eq] at hfields
      obtain ⟨-, -, n, hn, rfl⟩ := hfields
      obtain ⟨line, rfl⟩ := foldlM_checkField hn
      rfl
  have hrest : rest = [] := by
    have := congrArg List.length hlines
    rw [hfirst, hsecond] at this
    simp only [List.length_append, List.length_cons, hone] at this
    exact List.length_eq_zero_iff.mp (by omega)
  rw [hrest] at hfirst
  obtain rfl := splitLines_eq_singleton hfirst
  rw [hfirst, List.singleton_append] at hlines
  obtain ⟨rfl, -⟩ := List.cons.inj hlines
  rw [splitOn_connectLine, List.cons_append, List.cons.injEq] at hwords
  obtain ⟨-, hwords⟩ := hwords
  obtain ⟨hauthority, -⟩ :=
    List.append_inj' (show _ ++ _ = [authority] ++ [version] from hwords) rfl
  obtain rfl := eq_of_splitOn_eq_singleton hauthority
  obtain ⟨hexact, rfl⟩ := (parseAuthority_eq_some hd).mp hname
  exact ⟨hexact, rfl⟩

theorem bytesLit_host : bytesLit "Host" = [0x48, 0x6F, 0x73, 0x74] := by
  decide

theorem httpsPortText_eq : httpsPortText = [0x34, 0x34, 0x33] := by
  decide

/-- The header line of a host name is its `Host` field. -/
theorem checkField_hostLine {hostname : Bytes} {host : PyStr}
    (hd : decodeAscii hostname = some host) (h : isExactDnsHostname host = true) :
    checkField (host.map lowerAscii) 0 (hostLine hostname) = .ok 1 := by
  obtain ⟨-, hplain⟩ := plainByte_of_isExactDnsHostname hd h
  have hblank : ∀ b : UInt8, PlainByte b → b ≠ 0x20 ∧ b ≠ 0x09 := by
    rintro b ⟨hb, -, -⟩
    constructor <;> rintro rfl <;> exact absurd hb (by decide)
  have hstrip : stripBlank (0x20 :: (hostname ++ 0x3A :: httpsPortText)) =
      hostname ++ 0x3A :: httpsPortText := by
    refine stripBlank_cons_blank ?_ (by simp [httpsPortText_eq])
    cases hostname with
    | nil => decide
    | cons b rest => simp [hblank b (hplain b (by simp))]
  have hfield : parseHostField (0x20 :: (hostname ++ 0x3A :: httpsPortText)) =
      some (host.map lowerAscii) := by
    rw [parseHostField, hstrip, List.splitOn_append_cons_self,
      List.splitOn_eq_singleton fun hcolon => (hplain _ hcolon).2.2 rfl,
      List.splitOn_eq_singleton (show (0x3A : UInt8) ∉ httpsPortText by simp [httpsPortText_eq])]
    simp [canonicalHostname, hd, h]
  have hvalue : ((0x20 :: (hostname ++ 0x3A :: httpsPortText)).any fun b =>
      (b < 0x20 && b != 0x09) || b == 0x7F) = false := by
    rw [List.any_cons, List.any_append]
    have hname : (hostname.any fun b => (b < 0x20 && b != 0x09) || b == 0x7F) = false := by
      have := any_control_eq_false hplain
      rw [List.any_eq_false] at this ⊢
      intro b hb hcontrol
      refine this b hb ?_
      rw [Bool.or_eq_true, Bool.and_eq_true] at hcontrol
      rw [Bool.or_eq_true]
      exact hcontrol.imp_left And.left
    rw [hname]
    decide
  have hsplit : hostLine hostname =
      0x48 :: 0x6F :: 0x73 :: 0x74 :: 0x3A :: 0x20 :: (hostname ++ 0x3A :: httpsPortText) := by
    rw [hostLine, bytesLit_host]
    rfl
  have hname : (hostLine hostname).takeWhile (· != 0x3A) = bytesLit "Host" := by
    rw [hsplit, bytesLit_host]
    rfl
  have hrest : ((hostLine hostname).dropWhile (· != 0x3A)).drop 1 =
      0x20 :: (hostname ++ 0x3A :: httpsPortText) := by
    rw [hsplit]
    rfl
  simp only [checkField, bind_eq_ok, require_eq_ok, exists_const, hname, hrest, hvalue, hfield]
  refine ⟨by rw [hsplit]; rfl, by rw [hsplit]; rfl, by decide, rfl, by decide, by simp, rfl⟩

/-- The head of a host name is accepted. -/
theorem parse_of_exact {hostname : Bytes} {host : PyStr} (hd : decodeAscii hostname = some host)
    (h : isExactDnsHostname host = true) :
    parseHttpsConnectRequestHead
      (connectLine hostname ++ 0x0D :: 0x0A :: hostLine hostname ++ headerTerminator) =
        .ok ⟨host.map lowerAscii, httpsPort⟩ := by
  obtain ⟨hlen, hplain⟩ := plainByte_of_isExactDnsHostname hd h
  have hnot : ∀ b : UInt8, ¬PlainByte b → b ∉ hostname := fun b hb hmem => hb (hplain b hmem)
  have hcr : (0x0D : UInt8) ∉ connectLine hostname ∧ (0x0D : UInt8) ∉ hostLine hostname := by
    have := hnot 0x0D (by decide)
    simp only [connectLine, hostLine, List.mem_append, List.mem_cons, not_or, this]
    exact ⟨⟨by decide, by decide, ⟨by decide, by decide, by decide⟩, by decide, by decide⟩,
      by decide, by decide, by decide, by decide, by decide, by decide⟩
  have hcount : countFrom headerTerminator 0
      (connectLine hostname ++ 0x0D :: 0x0A :: hostLine hostname ++ headerTerminator) = 1 := by
    rw [headerTerminator, List.append_assoc, countFrom_append hcr.1, List.cons_append, countFrom,
      if_neg (by simp [hostLine, bytesLit_host, List.isPrefixOf]),
      countFrom_append (by simp [hcr.2])]
    decide
  refine (parse_eq_ok).mpr ⟨?_, hcount, connectLine hostname, [hostLine hostname],
    hostname ++ 0x3A :: httpsPortText, bytesLit "HTTP/1.1", host.map lowerAscii, ?_, ?_, ?_, ?_,
    (parseAuthority_eq_some hd).mpr ⟨h, rfl⟩, ?_, rfl⟩
  · have hlengths : (bytesLit "CONNECT").length = 7 ∧ (bytesLit "HTTP/1.1").length = 8 := by decide
    simp only [connectLine, hostLine, bytesLit_host, httpsPortText_eq, headerTerminator,
      maxConnectRequestHeadBytes, List.length_append, List.length_cons, List.length_nil, hlengths]
    omega
  · rw [splitLines_append, splitLines_of_not_mem hcr.1, splitLines_of_not_mem hcr.2]
    rfl
  · simp [maxConnectRequestHeaders]
  · simp only [connectLine, List.any_append, List.any_cons, any_control_eq_false hplain]
    decide
  · rw [splitOn_connectLine, List.splitOn_eq_singleton]
    · rfl
    · simp [hnot 0x20 (by decide), httpsPortText_eq]
  · rw [checkHeaderFields, if_neg (by decide)]
    simp [checkField_hostLine hd h]

/-- A name gives an accepted head exactly when it is one host name. -/
theorem parse_connectHead_iff {hostname : Bytes} {target : HttpsConnectTarget} :
    (∃ head, connectHead hostname = some head ∧ parseHttpsConnectRequestHead head = .ok target) ↔
      ∃ host, decodeAscii hostname = some host ∧ isExactDnsHostname host = true ∧
        target = ⟨host.map lowerAscii, httpsPort⟩ := by
  cases hd : decodeAscii hostname with
  | none => simp [connectHead, hd]
  | some host =>
    rw [connectHead_eq hd]
    constructor
    · rintro ⟨head, he, h⟩
      obtain rfl := Option.some.inj he
      exact ⟨host, rfl, exact_of_parse hd h⟩
    · rintro ⟨host', he, h, rfl⟩
      obtain rfl := Option.some.inj he
      exact ⟨_, rfl, parse_of_exact hd h⟩

/-! ## What the bridge accepts -/

/-- A SOCKS5 request for a name, on the port the bridge serves. -/
structure Socks5Request where
  methods : Bytes
  hostname : Bytes
  noAuth : socks5MethodNoAuth ∈ methods
  methods_lt : methods.length < 256
  hostname_ne : hostname ≠ []
  hostname_lt : hostname.length < 256

/-- The bytes of a request. -/
def Socks5Request.bytes (r : Socks5Request) : Bytes :=
  [socks5Version, UInt8.ofNat r.methods.length] ++ (r.methods ++
    ([socks5Version, socks5CommandConnect, 0, socks5AddressDomain] ++
      ([UInt8.ofNat r.hostname.length] ++ (r.hostname ++ [1, 187]))))

theorem readExact_eq_ok {size : ℕ} {stream data rest : Bytes} :
    readExact size stream = .ok (data, rest) ↔ stream = data ++ rest ∧ data.length = size := by
  unfold readExact
  split_ifs with hsize
  · simp only [Except.ok.injEq, Prod.mk.injEq]
    constructor
    · rintro ⟨rfl, rfl⟩
      exact ⟨(List.take_append_drop _ _).symm, List.length_take_of_le hsize⟩
    · rintro ⟨rfl, rfl⟩
      exact ⟨List.take_left, List.drop_left⟩
  · simp only [false_iff, not_and]
    rintro rfl rfl
    simp at hsize

/-- The bridge builds a head for a request, and from the name it carries. -/
theorem readSocks5Request_eq_ok {stream head : Bytes} :
    readSocks5Request stream = .ok (some head) ↔
      ∃ (r : Socks5Request) (rest : Bytes), stream = r.bytes ++ rest ∧
        connectHead r.hostname = some head := by
  constructor
  · intro h
    simp only [readSocks5Request, bind_eq_ok, Prod.exists, readExact_eq_ok, require_eq_ok,
      Bool.and_eq_true, beq_iff_eq, bne_iff_ne, exists_const] at h
    obtain ⟨greeting, s, ⟨rfl, hgreeting⟩, ⟨hversion, -⟩, methods, s, ⟨rfl, hmethods⟩, h⟩ := h
    split_ifs at h with hnoAuth
    · simp only [bind_eq_ok, Prod.exists, readExact_eq_ok, require_eq_ok, orRaise_eq_ok,
        Bool.and_eq_true, beq_iff_eq, bne_iff_ne, exists_const] at h
      obtain ⟨request, s, ⟨rfl, hrequest⟩, ⟨hversion', hreserved⟩, hcommand, htype, hostLength, s,
        ⟨rfl, hlength⟩, hne, hostname, s, ⟨rfl, hhostname⟩, port, rest, ⟨rfl, hport⟩, hnumber,
        head', hhead, he⟩ := h
      obtain rfl := Option.some.inj (Except.ok.inj he)
      obtain ⟨v, m, rfl⟩ := List.length_eq_two.mp hgreeting
      obtain ⟨v', c, z, t, rfl⟩ : ∃ v' c z t, request = [v', c, z, t] := by
        obtain ⟨v', request, rfl⟩ := List.exists_cons_of_length_eq_add_one hrequest
        obtain ⟨c, z, t, rfl⟩ := List.length_eq_three.mp (Nat.succ.inj hrequest)
        exact ⟨v', c, z, t, rfl⟩
      obtain ⟨l, rfl⟩ := List.length_eq_one_iff.mp hlength
      obtain ⟨p, q, rfl⟩ := List.length_eq_two.mp hport
      simp only [List.getD_cons_zero, List.getD_cons_succ] at *
      subst hversion hversion' hreserved hcommand htype
      have hbytes : p = 1 ∧ q = 187 := by
        have hp := p.toNat_lt
        have hq := q.toNat_lt
        simp only [httpsPort] at hnumber
        exact ⟨UInt8.toNat_inj.mp (show p.toNat = 1 by omega),
          UInt8.toNat_inj.mp (show q.toNat = 187 by omega)⟩
      obtain ⟨rfl, rfl⟩ := hbytes
      have hl : hostname ≠ [] := by
        rintro rfl
        exact hne (UInt8.toNat_inj.mp hhostname.symm)
      refine ⟨⟨methods, hostname, List.contains_iff_mem.mp hnoAuth, hmethods ▸ m.toNat_lt, hl,
        hhostname ▸ l.toNat_lt⟩, rest, ?_, hhead⟩
      simp [Socks5Request.bytes, hmethods, hhostname]
    · cases h
  · rintro ⟨r, rest, rfl, hhead⟩
    have hlength : ∀ data : Bytes, data.length < 256 →
        data.length = (UInt8.ofNat data.length).toNat :=
      fun data hdata => by simp [Nat.mod_eq_of_lt hdata]
    have hpos : UInt8.ofNat r.methods.length ≠ 0 ∧ UInt8.ofNat r.hostname.length ≠ 0 := by
      have hm := List.length_pos_of_mem r.noAuth
      have hh := List.length_pos_iff.mpr r.hostname_ne
      constructor <;> rw [ne_eq, ← UInt8.toNat_inj, ← hlength]
      · exact hm.ne'
      · exact r.methods_lt
      · exact hh.ne'
      · exact r.hostname_lt
    have hcontains : r.methods.contains socks5MethodNoAuth = true :=
      List.contains_iff_mem.mpr r.noAuth
    simp only [readSocks5Request, bind_eq_ok, Prod.exists, readExact_eq_ok, require_eq_ok,
      Bool.and_eq_true, beq_iff_eq, bne_iff_ne, exists_const]
    refine ⟨_, _, ⟨List.append_assoc _ _ _, rfl⟩, ⟨rfl, hpos.1⟩, _, _,
      ⟨List.append_assoc _ _ _, hlength _ r.methods_lt⟩, ?_⟩
    simp only [hcontains, if_true, bind_eq_ok, Prod.exists, readExact_eq_ok, require_eq_ok,
      orRaise_eq_ok, Bool.and_eq_true, beq_iff_eq, bne_iff_ne, exists_const]
    exact ⟨_, _, ⟨List.append_assoc _ _ _, rfl⟩, ⟨rfl, rfl⟩, rfl, rfl, _, _,
      ⟨List.append_assoc _ _ _, rfl⟩, hpos.2, _, _,
      ⟨List.append_assoc _ _ _, hlength _ r.hostname_lt⟩, _, _, ⟨rfl, rfl⟩, rfl, head, hhead, rfl⟩

theorem length_eq_of_ofNat {a b : Bytes} (ha : a.length < 256) (hb : b.length < 256)
    (h : UInt8.ofNat a.length = UInt8.ofNat b.length) : a.length = b.length := by
  have := congrArg UInt8.toNat h
  simpa [Nat.mod_eq_of_lt ha, Nat.mod_eq_of_lt hb] using this

/-- A stream begins with at most one request. -/
theorem Socks5Request.hostname_eq {r r' : Socks5Request} {rest rest' : Bytes}
    (h : r.bytes ++ rest = r'.bytes ++ rest') : r.hostname = r'.hostname := by
  simp only [Socks5Request.bytes, List.append_assoc, List.cons_append, List.nil_append,
    List.cons.injEq, true_and] at h
  obtain ⟨hmethods, h⟩ := h
  have hm := length_eq_of_ofNat r.methods_lt r'.methods_lt hmethods
  obtain ⟨-, h⟩ := List.append_inj h hm
  simp only [List.cons.injEq, true_and] at h
  obtain ⟨hhostname, h⟩ := h
  exact (List.append_inj h (length_eq_of_ofNat r.hostname_lt r'.hostname_lt hhostname)).1

/-- Nothing but a host name gets past the bridge: it builds heads for SOCKS5 requests
only, and the head of a request is accepted exactly when the name it carries is one DNS
host name, which is then the target, in lower case and on the HTTPS port. -/
theorem socks5_injects_nothing :
    (∀ stream head, readSocks5Request stream = .ok (some head) ↔
      ∃ (r : Socks5Request) (rest : Bytes), stream = r.bytes ++ rest ∧
        connectHead r.hostname = some head) ∧
    ∀ (r : Socks5Request) (rest : Bytes) (target : HttpsConnectTarget),
      (∃ head, readSocks5Request (r.bytes ++ rest) = .ok (some head) ∧
        parseHttpsConnectRequestHead head = .ok target) ↔
      ∃ host, decodeAscii r.hostname = some host ∧ isExactDnsHostname host = true ∧
        target = ⟨host.map lowerAscii, httpsPort⟩ := by
  refine ⟨fun stream head => readSocks5Request_eq_ok, fun r rest target => ?_⟩
  rw [← parse_connectHead_iff]
  constructor
  · rintro ⟨head, hread, hparse⟩
    obtain ⟨r', rest', he, hhead⟩ := (readSocks5Request_eq_ok).mp hread
    exact ⟨head, Socks5Request.hostname_eq he ▸ hhead, hparse⟩
  · rintro ⟨head, hhead, hparse⟩
    exact ⟨head, (readSocks5Request_eq_ok).mpr ⟨r, rest, rfl, hhead⟩, hparse⟩

end Icode
