import Icode.SandboxPolicy

/-!
# Resolving a destination

`resolvePublicTcpTargets` asks a resolver for a host name and checks every answer before it gives
back one. The answers come from outside and may be any Python value, so `checkAnswer` takes them
apart the way the code does. How an address is read and classified is the module `ipaddress`, a
parameter here (`Platform`).

An accepted list has public TCP answers only, those that are given back and those that are
dropped as duplicates (`resolvePublicTcpTargets_eq_ok`), and one special address anywhere in it is
enough for a refusal (`public_admission`).
-/

namespace Icode

open Py SandboxPolicy

namespace NetworkDestination

/-! ## Values and platform -/

/-- What a resolver may put in an answer. -/
inductive PyValue where
  | int (n : ℤ)
  /-- An instance of a class derived from `int`, such as a member of `AddressFamily`. -/
  | intSubclass (n : ℤ)
  | bool (b : Bool)
  | str (s : PyStr)
  | tuple (items : List PyValue)
  | other

/-- `isinstance(value, int) and not isinstance(value, bool)`, with the number. -/
def PyValue.asInt : PyValue → Option ℤ
  | .int n => some n
  | .intSubclass n => some n
  | _ => none

/-- `ipaddress.IPv4Address` and `ipaddress.IPv6Address`, by what is asked of them; `text` is
`str(address)` and `ipv4Mapped` is false for an IPv4 address. -/
structure IpAddress where
  version : ℤ
  text : PyStr
  ipv4Mapped : Bool
  isGlobal : Bool
  isPrivate : Bool
  isLoopback : Bool
  isLinkLocal : Bool
  isMulticast : Bool
  isReserved : Bool
  isUnspecified : Bool

/-- `sys.version_info`, without the serial. -/
structure VersionInfo where
  major : ℤ
  minor : ℤ
  micro : ℤ
  releaselevel : PyStr

/-- What a resolver does. -/
inductive Resolution where
  /-- An `OSError`. -/
  | osError
  /-- Any other exception. -/
  | raised
  /-- A list or a tuple. -/
  | answers (xs : List PyValue)
  /-- A value of another type. -/
  | other

/-- What the function takes from its platform: the constants of `socket`, `ipaddress.ip_address`
(`none` is its `ValueError`), the version of Python, and `socket.getaddrinfo`. -/
structure Platform where
  afInet : ℤ
  afInet6 : ℤ
  sockStream : ℤ
  ipprotoTcp : ℤ
  families : afInet6 ≠ afInet
  ipAddress : PyStr → Option IpAddress
  versionInfo : VersionInfo
  getaddrinfo : PyStr → ℤ → Resolution

/-- The argument `resolver`. -/
inductive ResolverArg where
  | none
  | callable (resolver : PyStr → ℤ → Resolution)
  | notCallable

/-- `NetworkDestinationError`, by its message. -/
inductive DestinationError where
  /-- hostname must be an exact ASCII DNS name -/
  | hostname
  /-- network destinations currently require HTTPS port 443 -/
  | port
  /-- Python runtime is too old for safe IANA special-range classification -/
  | runtime
  /-- a trusted DNS resolver is required -/
  | resolver
  /-- DNS resolution failed -/
  | resolution
  /-- An exception of the resolver that is passed on. -/
  | raised
  /-- DNS returned no usable TCP destinations -/
  | noDestinations
  /-- DNS returned a malformed TCP destination -/
  | malformed
  /-- DNS returned a non-TCP or unsupported destination -/
  | unsupported
  /-- DNS returned an invalid IP socket address -/
  | socketAddress
  /-- DNS returned an invalid or scoped IP address -/
  | scoped
  /-- DNS returned a non-numeric IP address -/
  | nonNumeric
  /-- DNS resolved to a non-public IP address -/
  | nonPublic
  /-- DNS returned a scoped or altered IPv6 address -/
  | altered
  deriving DecidableEq

/-- `HTTPS_PORT` -/
def httpsPort : ℤ :=
  443

/-- A normalized `sockaddr`. -/
inductive Sockaddr where
  | inet (address : PyStr) (port : ℤ)
  | inet6 (address : PyStr) (port flowinfo scopeId : ℤ)
  deriving DecidableEq

/-- `ResolvedNetworkTarget`. -/
structure ResolvedNetworkTarget where
  family : ℤ
  socketType : ℤ
  protocol : ℤ
  sockaddr : Sockaddr
  deriving DecidableEq

/-- The key of a target in `seen`. -/
def ResolvedNetworkTarget.key (t : ResolvedNetworkTarget) : ℤ × Sockaddr :=
  (t.family, t.sockaddr)

/-! ## The checks -/

/-- `_supports_safe_ipaddress_classification`; tuples compare lexicographically. -/
def supportsSafeIpaddressClassification (v : VersionInfo) : Bool :=
  let atLeast (major minor micro : ℤ) : Bool :=
    major < v.major || (major == v.major && (minor < v.minor ||
      (minor == v.minor && micro ≤ v.micro)))
  v.releaselevel == lit "final" &&
    (atLeast 3 13 0 || (v.major == 3 && v.minor == 12 && atLeast 3 12 4) ||
      (v.major == 3 && v.minor == 11 && atLeast 3 11 10))

/-- `_is_global_unicast`. -/
def isGlobalUnicast (a : IpAddress) : Bool :=
  if a.version == 6 && a.ipv4Mapped then false
  else
    a.isGlobal && !a.isPrivate && !a.isLoopback && !a.isLinkLocal && !a.isMulticast &&
      !a.isReserved && !a.isUnspecified

section

variable (platform : Platform)

/-- The numbers of an answer: its family, and whether it is a TCP stream. -/
def checkFamily (family socketType protocol : PyValue) : Except DestinationError ℤ := do
  let familyValue ← orRaise (family.asInt.filter fun n =>
    n == platform.afInet || n == platform.afInet6) .unsupported
  require (socketType.asInt == some platform.sockStream) .unsupported
  require (protocol.asInt == some 0 || protocol.asInt == some platform.ipprotoTcp) .unsupported
  pure familyValue

/-- The address and the port of a `sockaddr` of the right length. -/
def checkSockaddr (familyValue : ℤ) (sockaddr : List PyValue) (port : ℤ) :
    Except DestinationError PyStr := do
  let expectedLength := if familyValue = platform.afInet then 2 else 4
  require (sockaddr.length == expectedLength) .socketAddress
  match sockaddr with
  | .str addressText :: .int addressPort :: _ =>
    require (addressPort == port && !addressText.contains '%') .scoped
    pure addressText
  | _ => throw .socketAddress

/-- The address, when it is one of the family and public. -/
def checkAddress (familyValue : ℤ) (addressText : PyStr) : Except DestinationError IpAddress := do
  let address ← orRaise (platform.ipAddress addressText) .nonNumeric
  let expectedVersion := if familyValue = platform.afInet then 4 else 6
  require (address.version == expectedVersion && isGlobalUnicast address) .nonPublic
  pure address

/-- The normalized `sockaddr`. -/
def normalizedSockaddr (familyValue : ℤ) (sockaddr : List PyValue) (address : IpAddress)
    (port : ℤ) : Except DestinationError Sockaddr :=
  if familyValue = platform.afInet then .ok (.inet address.text port)
  else
    match sockaddr with
    | [_, _, .int flowinfo, .int scopeId] =>
      if flowinfo = 0 ∧ scopeId = 0 then .ok (.inet6 address.text port 0 0) else .error .altered
    | _ => .error .altered

/-- The body of the loop over the answers, up to the duplicates. -/
def checkAnswer (port : ℤ) (answer : PyValue) : Except DestinationError ResolvedNetworkTarget :=
  match answer with
  | .tuple [family, socketType, protocol, _canonicalName, sockaddr] => do
    let familyValue ← checkFamily platform family socketType protocol
    match sockaddr with
    | .tuple sockaddr =>
      let addressText ← checkSockaddr platform familyValue sockaddr port
      let address ← checkAddress platform familyValue addressText
      let normalized ← normalizedSockaddr platform familyValue sockaddr address port
      pure ⟨familyValue, platform.sockStream, platform.ipprotoTcp, normalized⟩
    | _ => throw .unsupported
  | _ => .error .malformed

/-- The loop over the answers, with `seen` and `targets`. -/
def collectTargets (port : ℤ) : List PyValue → List (ℤ × Sockaddr) → List ResolvedNetworkTarget →
    Except DestinationError (List ResolvedNetworkTarget)
  | [], _, targets => .ok targets
  | answer :: answers, seen, targets => do
    let target ← checkAnswer platform port answer
    if seen.contains target.key then collectTargets port answers seen targets
    else collectTargets port answers (target.key :: seen) (targets ++ [target])

/-- What the resolver is asked for, and its answer. -/
def resolution (resolver : ResolverArg) (hostname : PyStr) (port : ℤ) :
    Except DestinationError (List PyValue) := do
  let resolve ← match resolver with
    | .none => pure platform.getaddrinfo
    | .callable resolver => pure resolver
    | .notCallable => throw .resolver
  match resolve (hostname ++ lit ".") port with
  | .osError => throw .resolution
  | .raised => throw .raised
  | .answers xs => pure xs
  | .other => throw .noDestinations

/-- `resolve_public_tcp_targets`. -/
def resolvePublicTcpTargets (hostname port : PyValue) (resolver : ResolverArg) :
    Except DestinationError (List ResolvedNetworkTarget) :=
  match hostname with
  | .str name => do
    require (isExactDnsHostname name) .hostname
    let normalizedHostname := name.map lowerAscii
    match port with
    | .int port => do
      require (port == httpsPort) .port
      require (supportsSafeIpaddressClassification platform.versionInfo) .runtime
      let answers ← resolution platform resolver normalizedHostname port
      require (!answers.isEmpty) .noDestinations
      let targets ← collectTargets platform port answers [] []
      require (!targets.isEmpty) .noDestinations
      pure targets
    | _ => throw .port
  | _ => .error .hostname

/-! ## Public answers -/

/-- A public unicast address, by the classification of the platform. -/
structure PublicUnicast (a : IpAddress) : Prop where
  mapped : a.version = 6 → a.ipv4Mapped = false
  isGlobal : a.isGlobal = true
  isPrivate : a.isPrivate = false
  isLoopback : a.isLoopback = false
  isLinkLocal : a.isLinkLocal = false
  isMulticast : a.isMulticast = false
  isReserved : a.isReserved = false
  isUnspecified : a.isUnspecified = false

theorem isGlobalUnicast_iff {a : IpAddress} : isGlobalUnicast a = true ↔ PublicUnicast a := by
  unfold isGlobalUnicast
  split_ifs with hmapped
  · simp only [Bool.and_eq_true, beq_iff_eq] at hmapped
    refine iff_of_false (by simp) fun h => ?_
    have := h.mapped hmapped.1
    rw [hmapped.2] at this
    cases this
  · simp only [Bool.and_eq_true, beq_iff_eq, not_and, Bool.not_eq_true, Bool.not_eq_true'] at *
    constructor
    · rintro ⟨⟨⟨⟨⟨⟨h1, h2⟩, h3⟩, h4⟩, h5⟩, h6⟩, h7⟩
      exact ⟨hmapped, h1, h2, h3, h4, h5, h6, h7⟩
    · rintro ⟨-, h1, h2, h3, h4, h5, h6, h7⟩
      exact ⟨⟨⟨⟨⟨⟨h1, h2⟩, h3⟩, h4⟩, h5⟩, h6⟩, h7⟩

/-- A TCP stream, by the numbers of an answer. -/
structure IsTcp (socketType protocol : PyValue) : Prop where
  stream : socketType.asInt = some platform.sockStream
  tcp : protocol.asInt = some 0 ∨ protocol.asInt = some platform.ipprotoTcp

/-- A numeric address without a scope, public and of the version. -/
structure IsPublicAddress (version : ℤ) (text : PyStr) (a : IpAddress) : Prop where
  numeric : platform.ipAddress text = some a
  unscoped : text.contains '%' = false
  version : a.version = version
  unicast : PublicUnicast a

/-- An answer that is a public TCP address on the port, and the target it stands for. -/
inductive PublicAnswer (port : ℤ) : PyValue → ResolvedNetworkTarget → Prop
  | inet {family socketType protocol canonicalName : PyValue} {text : PyStr} {a : IpAddress}
      (hfamily : family.asInt = some platform.afInet) (htcp : IsTcp platform socketType protocol)
      (haddress : IsPublicAddress platform 4 text a) :
    PublicAnswer port
      (.tuple [family, socketType, protocol, canonicalName, .tuple [.str text, .int port]])
      ⟨platform.afInet, platform.sockStream, platform.ipprotoTcp, .inet a.text port⟩
  | inet6 {family socketType protocol canonicalName : PyValue} {text : PyStr} {a : IpAddress}
      (hfamily : family.asInt = some platform.afInet6) (htcp : IsTcp platform socketType protocol)
      (haddress : IsPublicAddress platform 6 text a) :
    PublicAnswer port
      (.tuple [family, socketType, protocol, canonicalName,
        .tuple [.str text, .int port, .int 0, .int 0]])
      ⟨platform.afInet6, platform.sockStream, platform.ipprotoTcp, .inet6 a.text port 0 0⟩

variable {platform}

theorem checkFamily_eq_ok {family socketType protocol : PyValue} {n : ℤ} :
    checkFamily platform family socketType protocol = .ok n ↔ family.asInt = some n ∧
      (n = platform.afInet ∨ n = platform.afInet6) ∧ IsTcp platform socketType protocol := by
  simp only [checkFamily, bind_eq_ok, orRaise_eq_ok, require_eq_ok, exists_const,
    Option.filter_eq_some_iff, Bool.or_eq_true, beq_iff_eq]
  constructor
  · rintro ⟨m, ⟨hm, hfamily⟩, hstream, htcp, h⟩
    obtain rfl := Except.ok.inj h
    exact ⟨hm, hfamily, hstream, htcp⟩
  · rintro ⟨hn, hfamily, hstream, htcp⟩
    exact ⟨n, ⟨hn, hfamily⟩, hstream, htcp, rfl⟩

theorem checkSockaddr_eq_ok {n port : ℤ} {sockaddr : List PyValue} {text : PyStr} :
    checkSockaddr platform n sockaddr port = .ok text ↔
      sockaddr.length = (if n = platform.afInet then 2 else 4) ∧
        (∃ rest, sockaddr = .str text :: .int port :: rest) ∧ text.contains '%' = false := by
  simp only [checkSockaddr, bind_eq_ok, require_eq_ok, exists_const, beq_iff_eq]
  refine and_congr_right fun _ => ?_
  split
  · rename_i rest _
    simp only [bind_eq_ok, require_eq_ok, exists_const, Bool.and_eq_true, beq_iff_eq,
      Bool.not_eq_true']
    constructor
    · rintro ⟨⟨rfl, hscope⟩, h⟩
      obtain rfl := Except.ok.inj h
      exact ⟨⟨rest, rfl⟩, hscope⟩
    · rintro ⟨⟨r, h⟩, hscope⟩
      simp only [List.cons.injEq, PyValue.str.injEq, PyValue.int.injEq] at h
      obtain ⟨rfl, rfl, -⟩ := h
      exact ⟨⟨rfl, hscope⟩, rfl⟩
  · rename_i hshape
    refine iff_of_false (by simp [throw, throwThe, MonadExceptOf.throw]) ?_
    rintro ⟨⟨rest, rfl⟩, -⟩
    exact hshape _ _ _ rfl

theorem checkAddress_eq_ok {n : ℤ} {text : PyStr} {a : IpAddress} :
    checkAddress platform n text = .ok a ↔ platform.ipAddress text = some a ∧
      a.version = (if n = platform.afInet then 4 else 6) ∧ PublicUnicast a := by
  simp only [checkAddress, bind_eq_ok, orRaise_eq_ok, require_eq_ok, exists_const,
    Bool.and_eq_true, beq_iff_eq, isGlobalUnicast_iff]
  constructor
  · rintro ⟨b, hb, hpublic, h⟩
    obtain rfl := Except.ok.inj h
    exact ⟨hb, hpublic⟩
  · rintro ⟨ha, hpublic⟩
    exact ⟨a, ha, hpublic, rfl⟩

/-- The answers that are taken are the public ones. -/
theorem checkAnswer_eq_ok {port : ℤ} {answer : PyValue} {target : ResolvedNetworkTarget} :
    checkAnswer platform port answer = .ok target ↔ PublicAnswer platform port answer target := by
  have hfamilies := platform.families
  constructor
  · intro h
    unfold checkAnswer at h
    split at h
    · rename_i family socketType protocol name sockaddr
      obtain ⟨n, hn, h⟩ := bind_eq_ok.mp h
      obtain ⟨hfamily, hor, htcp⟩ := checkFamily_eq_ok.mp hn
      split at h
      · rename_i items
        simp only [bind_eq_ok] at h
        obtain ⟨text, htext, a, ha, normalized, hnormalized, h⟩ := h
        obtain rfl := Except.ok.inj h
        obtain ⟨hlength, ⟨rest, rfl⟩, hscope⟩ := checkSockaddr_eq_ok.mp htext
        obtain ⟨hnumeric, hversion, hunicast⟩ := checkAddress_eq_ok.mp ha
        rcases hor with rfl | rfl
        · simp only [if_pos] at hlength hversion
          obtain rfl : rest = [] := List.eq_nil_of_length_eq_zero (by simpa using hlength)
          simp only [normalizedSockaddr, if_pos] at hnormalized
          obtain rfl := Except.ok.inj hnormalized
          exact .inet hfamily htcp ⟨hnumeric, hscope, hversion, hunicast⟩
        · simp only [if_neg hfamilies] at hlength hversion
          simp only [normalizedSockaddr, if_neg hfamilies] at hnormalized
          split at hnormalized
          · rename_i heq
            simp only [List.cons.injEq] at heq
            obtain ⟨-, -, rfl⟩ := heq
            split_ifs at hnormalized with hzero
            obtain ⟨rfl, rfl⟩ := hzero
            obtain rfl := Except.ok.inj hnormalized
            exact .inet6 hfamily htcp ⟨hnumeric, hscope, hversion, hunicast⟩
          · cases hnormalized
      · cases h
    · cases h
  · rintro (⟨hfamily, htcp, haddress⟩ | ⟨hfamily, htcp, haddress⟩)
    · rename_i text a
      have hf := checkFamily_eq_ok.mpr ⟨hfamily, Or.inl rfl, htcp⟩
      have hs : checkSockaddr platform platform.afInet [.str text, .int port] port = .ok text :=
        checkSockaddr_eq_ok.mpr ⟨by simp, ⟨[], rfl⟩, haddress.unscoped⟩
      have ha : checkAddress platform platform.afInet text = .ok a :=
        checkAddress_eq_ok.mpr ⟨haddress.numeric, by simpa using haddress.version,
          haddress.unicast⟩
      simp only [checkAnswer, hf, bind, Except.bind, hs, ha, normalizedSockaddr, if_pos]
      rfl
    · rename_i text a
      have hf := checkFamily_eq_ok.mpr ⟨hfamily, Or.inr rfl, htcp⟩
      have hs : checkSockaddr platform platform.afInet6 [.str text, .int port, .int 0, .int 0]
          port = .ok text := checkSockaddr_eq_ok.mpr ⟨by simp [hfamilies], ⟨_, rfl⟩, haddress.unscoped⟩
      have ha : checkAddress platform platform.afInet6 text = .ok a :=
        checkAddress_eq_ok.mpr ⟨haddress.numeric, by simpa [hfamilies] using haddress.version,
          haddress.unicast⟩
      simp only [checkAnswer, hf, bind, Except.bind, hs, ha, normalizedSockaddr, if_neg hfamilies]
      rfl

/-! ## The list of targets -/

theorem PublicAnswer.key_inj {port : ℤ} {x y : PyValue} {t u : ResolvedNetworkTarget}
    (ht : PublicAnswer platform port x t) (hu : PublicAnswer platform port y u) :
    u.key = t.key ↔ u = t := by
  refine ⟨fun h => ?_, fun h => h ▸ rfl⟩
  cases ht <;> cases hu <;>
    simp only [ResolvedNetworkTarget.key, Prod.mk.injEq, reduceCtorEq, and_false, true_and] at h
  · rw [h]
  · rw [h]

theorem PublicAnswer.of_mem {port : ℤ} {answers : List PyValue} {ts : List ResolvedNetworkTarget}
    (h : List.Forall₂ (PublicAnswer platform port) answers ts) {t : ResolvedNetworkTarget}
    (ht : t ∈ ts) : ∃ answer ∈ answers, PublicAnswer platform port answer t := by
  induction h with
  | nil => cases ht
  | @cons answer u answers ts hu hts ih =>
    rcases List.mem_cons.mp ht with rfl | ht
    · exact ⟨answer, List.mem_cons_self, hu⟩
    · obtain ⟨x, hx, hxt⟩ := ih ht
      exact ⟨x, List.mem_cons_of_mem answer hx, hxt⟩

theorem target_of_mem {port : ℤ} {answers : List PyValue} {ts : List ResolvedNetworkTarget}
    (h : List.Forall₂ (PublicAnswer platform port) answers ts) {answer : PyValue}
    (hanswer : answer ∈ answers) : ∃ t ∈ ts, PublicAnswer platform port answer t := by
  induction h with
  | nil => cases hanswer
  | @cons x u answers ts hu hts ih =>
    rcases List.mem_cons.mp hanswer with rfl | hmem
    · exact ⟨u, List.mem_cons_self, hu⟩
    · obtain ⟨t, ht, hpublic⟩ := ih hmem
      exact ⟨t, List.mem_cons_of_mem u ht, hpublic⟩

/-- The loop keeps the targets whose key it has not seen, each once. -/
theorem collectTargets_eq_ok {port : ℤ} : ∀ {answers : List PyValue} {seen : List (ℤ × Sockaddr)}
    {targets out : List ResolvedNetworkTarget},
    collectTargets platform port answers seen targets = .ok out ↔
      ∃ ts, List.Forall₂ (PublicAnswer platform port) answers ts ∧
        out = targets ++ (ts.filter fun t => !seen.contains t.key).eraseDups
  | [], seen, targets, out => by
    simp only [collectTargets, Except.ok.injEq, List.forall₂_nil_left_iff, exists_eq_left,
      List.filter_nil, List.eraseDups_nil, List.append_nil]
    exact eq_comm
  | answer :: answers, seen, targets, out => by
    simp only [collectTargets, bind_eq_ok, checkAnswer_eq_ok, List.forall₂_cons_left_iff]
    -- without the target, seeing its key and dropping its equals is the same
    have hkeep : ∀ {t : ResolvedNetworkTarget} {ts : List ResolvedNetworkTarget},
        PublicAnswer platform port answer t → List.Forall₂ (PublicAnswer platform port) answers ts →
        (ts.filter fun u => !(t.key :: seen).contains u.key) =
          (ts.filter fun u => !seen.contains u.key).filter fun u => !u == t := by
      intro t ts ht hts
      rw [List.filter_filter]
      refine List.filter_congr fun u hu => ?_
      obtain ⟨x, -, hx⟩ := PublicAnswer.of_mem hts hu
      rw [List.contains_cons, Bool.not_or]
      congr 2
      rw [Bool.eq_iff_iff, beq_iff_eq, beq_iff_eq, ht.key_inj hx]
    constructor
    · rintro ⟨t, ht, h⟩
      by_cases hseen : seen.contains t.key = true
      · rw [if_pos hseen] at h
        obtain ⟨ts, hts, rfl⟩ := collectTargets_eq_ok.mp h
        refine ⟨t :: ts, ⟨t, ts, ht, hts, rfl⟩, ?_⟩
        rw [List.filter_cons_of_neg (by rw [hseen]; decide)]
      · rw [if_neg hseen] at h
        obtain ⟨ts, hts, rfl⟩ := collectTargets_eq_ok.mp h
        refine ⟨t :: ts, ⟨t, ts, ht, hts, rfl⟩, ?_⟩
        rw [List.filter_cons_of_pos (by simpa using hseen), List.eraseDups_cons, hkeep ht hts,
          List.append_assoc]
        rfl
    · rintro ⟨ts, ⟨t, ts, ht, hts, rfl⟩, rfl⟩
      refine ⟨t, ht, ?_⟩
      by_cases hseen : seen.contains t.key = true
      · rw [if_pos hseen]
        refine collectTargets_eq_ok.mpr ⟨ts, hts, ?_⟩
        rw [List.filter_cons_of_neg (by rw [hseen]; decide)]
      · rw [if_neg hseen]
        refine collectTargets_eq_ok.mpr ⟨ts, hts, ?_⟩
        rw [List.filter_cons_of_pos (by simpa using hseen), List.eraseDups_cons, hkeep ht hts,
          List.append_assoc]
        rfl

variable (platform) in
/-- The name, the port and the runtime are what the code asks for. -/
structure Requested (hostname port : PyValue) (name : PyStr) : Prop where
  hostname : hostname = .str name
  exact : isExactDnsHostname name = true
  port : port = .int httpsPort
  runtime : supportsSafeIpaddressClassification platform.versionInfo = true

variable (platform) in
/-- An answer whose address is not public, whatever the rest of it is. -/
def SpecialAnswer (answer : PyValue) : Prop :=
  ∃ family socketType protocol canonicalName text rest a,
    answer = .tuple [family, socketType, protocol, canonicalName, .tuple (.str text :: rest)] ∧
      platform.ipAddress text = some a ∧ (a.isGlobal = false ∨ a.isPrivate = true ∨
        a.isLoopback = true ∨ a.isLinkLocal = true ∨ a.isMulticast = true ∨ a.isReserved = true ∨
        a.isUnspecified = true ∨ (a.version = 6 ∧ a.ipv4Mapped = true))

theorem SpecialAnswer.not_public {answer : PyValue} (h : SpecialAnswer platform answer) {port : ℤ}
    {target : ResolvedNetworkTarget} : ¬ PublicAnswer platform port answer target := by
  obtain ⟨family, socketType, protocol, name, text, rest, a, rfl, ha, hspecial⟩ := h
  have hnot : ¬ PublicUnicast a := by
    rintro ⟨h1, h2, h3, h4, h5, h6, h7, h8⟩
    simp_all
  intro hpublic
  cases hpublic with
  | inet hfamily htcp haddress =>
    obtain rfl := Option.some.inj (haddress.numeric.symm.trans ha)
    exact hnot haddress.unicast
  | inet6 hfamily htcp haddress =>
    obtain rfl := Option.some.inj (haddress.numeric.symm.trans ha)
    exact hnot haddress.unicast

theorem eraseDups_ne_nil {ts : List ResolvedNetworkTarget} (h : ts ≠ []) : ts.eraseDups ≠ [] := by
  cases ts with
  | nil => exact absurd rfl h
  | cons t ts => simp [List.eraseDups_cons]

/-- The resolutions that are accepted, and what is given back. -/
theorem resolvePublicTcpTargets_eq_ok {hostname port : PyValue} {resolver : ResolverArg}
    {targets : List ResolvedNetworkTarget} :
    resolvePublicTcpTargets platform hostname port resolver = .ok targets ↔
      ∃ name answers ts, Requested platform hostname port name ∧
        resolution platform resolver (name.map lowerAscii) httpsPort = .ok answers ∧
        answers ≠ [] ∧ List.Forall₂ (PublicAnswer platform httpsPort) answers ts ∧
        targets = ts.eraseDups := by
  have hfilter : ∀ ts : List ResolvedNetworkTarget,
      (ts.filter fun t => !([] : List (ℤ × Sockaddr)).contains t.key) = ts := by simp
  constructor
  · intro h
    unfold resolvePublicTcpTargets at h
    split at h
    · rename_i name
      obtain ⟨_, hname, h⟩ := bind_eq_ok.mp h
      split at h
      · rename_i p
        simp only [bind_eq_ok, require_eq_ok, exists_const, beq_iff_eq, Bool.not_eq_true',
          List.isEmpty_eq_false_iff] at h hname
        obtain ⟨rfl, hruntime, answers, hanswers, hne, out, hout, -, h⟩ := h
        obtain rfl := Except.ok.inj h
        obtain ⟨ts, hts, rfl⟩ := collectTargets_eq_ok.mp hout
        exact ⟨name, answers, ts, ⟨rfl, hname, rfl, hruntime⟩, hanswers, hne, hts,
          by rw [hfilter, List.nil_append]⟩
      · cases h
    · cases h
  · rintro ⟨name, answers, ts, ⟨rfl, hexact, rfl, hruntime⟩, hanswers, hne, hts, rfl⟩
    have hnonempty : ts.eraseDups ≠ [] := by
      refine eraseDups_ne_nil ?_
      rintro rfl
      exact hne (List.forall₂_nil_right_iff.mp hts)
    have hcollect : collectTargets platform httpsPort answers [] [] = .ok ts.eraseDups :=
      collectTargets_eq_ok.mpr ⟨ts, hts, by rw [hfilter, List.nil_append]⟩
    simp only [resolvePublicTcpTargets, bind_eq_ok, require_eq_ok, exists_const, beq_iff_eq,
      Bool.not_eq_true', List.isEmpty_eq_false_iff]
    exact ⟨hexact, trivial, hruntime, answers, hanswers, hne, _, hcollect, hnonempty, rfl⟩

/-- The admission of destinations : a resolution succeeds only when every answer of the resolver is
public, it gives back the answers in order without duplicates, and one special address in any
answer refuses them all. -/
theorem public_admission (hostname port : PyValue) (resolver : ResolverArg) :
    (∀ targets, resolvePublicTcpTargets platform hostname port resolver = .ok targets ↔
      ∃ name answers ts, Requested platform hostname port name ∧
        resolution platform resolver (name.map lowerAscii) httpsPort = .ok answers ∧
        answers ≠ [] ∧ List.Forall₂ (PublicAnswer platform httpsPort) answers ts ∧
        targets = ts.eraseDups) ∧
    ∀ name answers, hostname = .str name →
      resolution platform resolver (name.map lowerAscii) httpsPort = .ok answers →
      (∃ answer ∈ answers, SpecialAnswer platform answer) →
      ∃ e, resolvePublicTcpTargets platform hostname port resolver = .error e := by
  refine ⟨fun targets => resolvePublicTcpTargets_eq_ok, ?_⟩
  rintro name answers rfl hanswers ⟨answer, hmem, hspecial⟩
  cases hresult : resolvePublicTcpTargets platform (.str name) port resolver with
  | error e => exact ⟨e, rfl⟩
  | ok targets =>
    obtain ⟨other, answers', ts, hrequest, hanswers', -, hts, -⟩ :=
      resolvePublicTcpTargets_eq_ok.mp hresult
    obtain rfl := PyValue.str.inj hrequest.hostname
    obtain rfl := Except.ok.inj (hanswers.symm.trans hanswers')
    -- the special answer would have a target of its own
    obtain ⟨target, -, hpublic⟩ := target_of_mem hts hmem
    exact absurd hpublic hspecial.not_public

end

end NetworkDestination

end Icode
