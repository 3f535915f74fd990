import Icode.JsonDumps
import Icode.Sha256
import Icode.Checks
import Icode.PathTree
import Mathlib.Data.List.Sort

/-!
# Sandbox policies

`PolicyFields` is the record of `SandboxPolicy`, `validate` its `validate()`, and
a `SandboxPolicy` is a record that passes it. `make` is the constructor, which
resolves the paths against the file system and brings the domains to their
canonical spelling. `tightenPolicy` accepts a candidate that can only reduce the
authority of a base policy, and `deriveReadOnlyReviewerPolicy` builds one.

The authority of a policy is the set of files it lets a step read or write
(`readable`, `writable`), the hosts it lets it reach (`admits`) and its limits.
`Narrower` is the relation the accepting branch of `tightenPolicy` decides
(`tightenPolicy_eq_ok`); it is a preorder, and a narrower policy has less
authority (`Narrower.authority_le`).
-/

namespace Icode

open Py PathTree

/-! ## The record -/

/-- `NetworkMode`. -/
inductive NetworkMode where
  | deny
  | proxyAllowlist
  deriving DecidableEq

/-- `NetworkMode.value` -/
def NetworkMode.value : NetworkMode → PyStr
  | .deny => "deny"
  | .proxyAllowlist => "proxy_allowlist"

/-- An absolute resolved path: its components below the root. -/
abbrev Path := List PyStr

/-- `str(path)`. -/
def Path.str (p : Path) : PyStr :=
  if p.isEmpty then "/" else p.flatMap fun part => CodePoint.scalar '/' :: part

/-- The fields of `SandboxPolicy`. -/
structure PolicyFields where
  schemaVersion : ℤ
  runId : PyStr
  ticketId : PyStr
  step : PyStr
  workspaceRoot : Path
  readRoots : List Path
  writeRoots : List Path
  denyReadRoots : List Path
  denyWriteRoots : List Path
  networkMode : NetworkMode
  allowedDomains : List PyStr
  processLimit : ℤ
  wallTimeoutSeconds : ℤ
  outputLimitBytes : ℤ
  protectedPaths : List Path
  deriving DecidableEq

/-- `PolicyValidationError`, by its message. -/
inductive PolicyError where
  /-- `{location} must contain only UTF-8 encodable Unicode scalars` -/
  | utf8 (location : String)
  /-- `unable to normalize {location}` -/
  | normalize (location : String)
  /-- `unsupported sandbox policy schema_version: {version}` -/
  | schemaVersion (version : ℤ)
  /-- `{name} must be non-blank and contain no ASCII control characters` -/
  | text (name : String)
  /-- `{name} must be a strictly positive integer` -/
  | limit (name : String)
  /-- `deny network mode cannot include allowed domains` -/
  | denyWithDomains
  /-- `proxy allowlist network mode requires at least one domain` -/
  | allowlistWithoutDomain
  /-- `allowed domain must be an exact ASCII DNS hostname: {domains}` -/
  | domains (invalid : List PyStr)
  /-- `write root must be within workspace_root: {root}` -/
  | writeRoot (root : Path)
  /-- `{kind} root is fully covered by a deny root: {root}` -/
  | covered (kind : String) (root : Path)
  /-- `protected path is not covered by a deny-write root: {path}` -/
  | unprotected (path : Path)
  /-- `base invalid; candidate policy broadens or cannot be proven narrower` -/
  | baseInvalid
  /-- `candidate invalid; candidate policy broadens or cannot be proven narrower` -/
  | candidateInvalid
  /-- `candidate policy broadens by changing its identity` -/
  | identity
  /-- `candidate policy broadens {name}` -/
  | broadens (name : String)
  /-- `candidate policy broadens by weakening {name}` -/
  | weakens (name : String)
  /-- `candidate policy broadens by removing a protected path` -/
  | removesProtected
  /-- `candidate policy broadens network access` -/
  | network
  /-- `candidate policy broadens allowed domains` -/
  | allowedDomains
  /-- `Reviewer policy must belong to the review step` -/
  | reviewerStep
  /-- `Reviewer workspace root is unavailable` -/
  | reviewerRootUnavailable
  /-- `Reviewer workspace root does not match policy` -/
  | reviewerRootMismatch
  /-- `Reviewer policy contains a read root outside the workspace` -/
  | reviewerReadRoot
  deriving DecidableEq

/-! ## Path containment -/

/-- `_is_within`. -/
def isWithin (path root : Path) : Bool :=
  root.isPrefixOf path

/-- `_roots_are_no_broader`. -/
def rootsAreNoBroader (candidate base : List Path) : Bool :=
  candidate.all fun candidateRoot => base.any fun baseRoot => isWithin candidateRoot baseRoot

/-- `_denies_preserved`. -/
def deniesPreserved (candidate base : List Path) : Bool :=
  base.all fun baseRoot => candidate.any fun candidateRoot => isWithin baseRoot candidateRoot

@[simp] theorem isWithin_iff {path root : Path} : isWithin path root = true ↔ Within path root := by
  simp [isWithin, Within]

@[simp] theorem rootsAreNoBroader_iff {candidate base : List Path} :
    rootsAreNoBroader candidate base = true ↔ NoBroader candidate base := by
  simp [rootsAreNoBroader, NoBroader]

@[simp] theorem deniesPreserved_iff {candidate base : List Path} :
    deniesPreserved candidate base = true ↔ NoBroader base candidate := by
  simp [deniesPreserved, NoBroader]

/-! ## Host names -/

/-- A lowercase letter or a digit. -/
def isLabelChar (c : CodePoint) : Bool :=
  let n := c.ord
  (97 ≤ n && n ≤ 122) || (48 ≤ n && n ≤ 57)

/-- `[a-z0-9](?:[a-z0-9-]{0,61}[a-z0-9])?` -/
def isDnsLabel (label : PyStr) : Bool :=
  !label.isEmpty && label.length ≤ 63 &&
    (label.all fun c => isLabelChar c || c == .scalar '-') &&
    (label.head?.any isLabelChar && label.getLast?.any isLabelChar)

/-- `text.split(".")`. -/
def splitDots : PyStr → List PyStr
  | [] => [[]]
  | c :: cs =>
    match splitDots cs with
    | part :: parts => if c = '.' then [] :: part :: parts else (c :: part) :: parts
    | [] => [[]]

def isDecimalDigit (c : CodePoint) : Bool :=
  48 ≤ c.ord && c.ord ≤ 57

/-- `[0-9]+`, or `0x[0-9a-f]+` in either case. -/
def isLegacyIpv4Part (part : PyStr) : Bool :=
  (!part.isEmpty && part.all isDecimalDigit) ||
    match part with
    | z :: x :: digits =>
      z == .scalar '0' && (x == .scalar 'x' || x == .scalar 'X') && !digits.isEmpty &&
        digits.all fun c => isDecimalDigit c || (97 ≤ c.ord && c.ord ≤ 102) ||
          (65 ≤ c.ord && c.ord ≤ 70)
    | _ => false

/-- `_is_legacy_ipv4_text`. -/
def isLegacyIpv4Text (domain : PyStr) : Bool :=
  (splitDots domain).length ≤ 4 && (splitDots domain).all isLegacyIpv4Part

/-- `_is_exact_dns_hostname`. `ipaddress.ip_address` accepts nothing that is left when it
is asked: an IPv4 address is legacy IPv4 text, and an IPv6 address has a colon. -/
def isExactDnsHostname' (domain : PyStr) : Bool :=
  !domain.isEmpty && domain.length ≤ 253 && (domain.all fun c => c.ord < 128) &&
    !isLegacyIpv4Text domain && 2 ≤ (splitDots domain).length && (splitDots domain).all isDnsLabel

/-- `str.lower()` of an ASCII character. -/
def lowerAscii (c : CodePoint) : CodePoint :=
  if 65 ≤ c.ord ∧ c.ord ≤ 90 then .scalar (Char.ofNat (c.ord + 32)) else c

/-- `is_exact_dns_hostname`. -/
def isExactDnsHostname (domain : PyStr) : Bool :=
  (domain.all fun c => c.ord < 128) && isExactDnsHostname' (domain.map lowerAscii)

/-! ## Validation -/

/-- `_require_utf8_scalar`. -/
def requireUtf8Scalar (value : PyStr) (location : String) : Except PolicyError Unit :=
  require (value.all isScalar) (.utf8 location)

/-- A text that is not blank and has no ASCII control character. -/
def isIdentityText (value : PyStr) : Bool :=
  !(strip value).isEmpty && !value.any fun c => c.ord < 32 || c.ord == 127

/-- `POLICY_SCHEMA_VERSION` -/
def policySchemaVersion : ℤ :=
  1

namespace PolicyFields

/-- The lists of paths, with their names. -/
def pathLists (p : PolicyFields) : List (String × List Path) :=
  [("read_roots", p.readRoots), ("write_roots", p.writeRoots),
    ("deny_read_roots", p.denyReadRoots), ("deny_write_roots", p.denyWriteRoots),
    ("protected_paths", p.protectedPaths)]

/-- The identity texts, with their names. -/
def identityTexts (p : PolicyFields) : List (String × PyStr) :=
  [("run_id", p.runId), ("ticket_id", p.ticketId), ("step", p.step)]

/-- The limits, with their names. -/
def limits (p : PolicyFields) : List (String × ℤ) :=
  [("process_limit", p.processLimit), ("wall_timeout_seconds", p.wallTimeoutSeconds),
    ("output_limit_bytes", p.outputLimitBytes)]

/-- `_validate_unicode_scalars`. -/
def validateUnicodeScalars (p : PolicyFields) : Except PolicyError Unit := do
  requireAll p.identityTexts (fun f => f.2.all isScalar) fun f => .utf8 f.1
  requireUtf8Scalar p.workspaceRoot.str "workspace_root"
  requireAll p.pathLists (fun f => f.2.all fun path => (Path.str path).all isScalar) fun f =>
    .utf8 (f.1 ++ " item")
  requireAll p.allowedDomains (fun d => d.all isScalar) fun _ => .utf8 "allowed_domains item"

/-- `validate`. The declared types are those of the fields. -/
def validate (p : PolicyFields) : Except PolicyError Unit := do
  p.validateUnicodeScalars
  require (p.schemaVersion == policySchemaVersion) (.schemaVersion p.schemaVersion)
  requireAll p.identityTexts (fun f => isIdentityText f.2) fun f => .text f.1
  requireAll p.limits (fun f => decide (0 < f.2)) fun f => .limit f.1
  require (!(p.networkMode == .deny && !p.allowedDomains.isEmpty)) .denyWithDomains
  require (!(p.networkMode == .proxyAllowlist && p.allowedDomains.isEmpty)) .allowlistWithoutDomain
  let invalidDomains := p.allowedDomains.filter fun d => !isExactDnsHostname' d
  require invalidDomains.isEmpty (.domains invalidDomains)
  requireAll p.writeRoots (fun root => isWithin root p.workspaceRoot) .writeRoot
  requireAll p.readRoots (fun root => !p.denyReadRoots.any fun deny => isWithin root deny)
    (.covered "read")
  requireAll p.writeRoots (fun root => !p.denyWriteRoots.any fun deny => isWithin root deny)
    (.covered "write")
  requireAll p.protectedPaths (fun path => p.denyWriteRoots.any fun deny => isWithin path deny)
    .unprotected

end PolicyFields

/-- A policy that its constructor accepts. -/
structure SandboxPolicy extends PolicyFields where
  valid : toPolicyFields.validate = .ok ()

namespace SandboxPolicy

theorem ext_fields {p q : SandboxPolicy} (h : p.toPolicyFields = q.toPolicyFields) : p = q := by
  cases p
  cases q
  cases h
  rfl

/-! ## Construction -/

/-- What the constructor asks the operating system; `none` is an exception. -/
structure FileSystem where
  /-- `Path(text).expanduser().resolve(strict=False)` -/
  resolve : PyStr → Option Path
  /-- `Path(text).expanduser().resolve(strict=True)` -/
  resolveStrict : PyStr → Option Path
  /-- `path.is_dir()` -/
  isDir : Path → Bool

/-- `_normalize_path`. -/
def normalizePath (fs : FileSystem) (path : PyStr) (location : String) :
    Except PolicyError Path := do
  requireUtf8Scalar path location
  match fs.resolve path with
  | some p => pure p
  | none => throw (.normalize location)

/-- `_normalize_paths`. -/
def normalizePaths (fs : FileSystem) (paths : List PyStr) (location : String) :
    Except PolicyError (List Path) := do
  let normalized ← mapAll (fun path => normalizePath fs path (location ++ " item")) paths
  pure (normalized.dedup.insertionSort fun p q => strLe p.str q.str = true)

/-- The arguments of the constructor; paths are given as texts. -/
structure Arguments where
  schemaVersion : ℤ
  runId : PyStr
  ticketId : PyStr
  step : PyStr
  workspaceRoot : PyStr
  readRoots : List PyStr
  writeRoots : List PyStr
  denyReadRoots : List PyStr
  denyWriteRoots : List PyStr
  networkMode : NetworkMode
  allowedDomains : List PyStr
  processLimit : ℤ
  wallTimeoutSeconds : ℤ
  outputLimitBytes : ℤ
  protectedPaths : List PyStr

/-- The constructor: `__post_init__`. -/
def make (fs : FileSystem) (a : Arguments) : Except PolicyError SandboxPolicy := do
  requireAll [("run_id", a.runId), ("ticket_id", a.ticketId), ("step", a.step),
      ("workspace_root", a.workspaceRoot)] (fun f => f.2.all isScalar) fun f => .utf8 f.1
  requireAll [("read_roots", a.readRoots), ("write_roots", a.writeRoots),
      ("deny_read_roots", a.denyReadRoots), ("deny_write_roots", a.denyWriteRoots),
      ("protected_paths", a.protectedPaths)]
    (fun f => f.2.all fun path => path.all isScalar) fun f => .utf8 (f.1 ++ " item")
  requireAll a.allowedDomains (fun d => d.all isScalar) fun _ => .utf8 "allowed_domains item"
  let workspaceRoot ← normalizePath fs a.workspaceRoot "workspace_root"
  let readRoots ← normalizePaths fs a.readRoots "read_roots"
  let writeRoots ← normalizePaths fs a.writeRoots "write_roots"
  let denyReadRoots ← normalizePaths fs a.denyReadRoots "deny_read_roots"
  let denyWriteRoots ← normalizePaths fs a.denyWriteRoots "deny_write_roots"
  let protectedPaths ← normalizePaths fs a.protectedPaths "protected_paths"
  let domains := a.allowedDomains.map fun d => if isExactDnsHostname d then d.map lowerAscii else d
  let fields : PolicyFields := {
    schemaVersion := a.schemaVersion, runId := a.runId, ticketId := a.ticketId, step := a.step,
    workspaceRoot, readRoots, writeRoots, denyReadRoots, denyWriteRoots,
    networkMode := a.networkMode,
    allowedDomains := domains.dedup.insertionSort fun p q => strLe p q = true,
    processLimit := a.processLimit, wallTimeoutSeconds := a.wallTimeoutSeconds,
    outputLimitBytes := a.outputLimitBytes, protectedPaths }
  match h : fields.validate with
  | .ok () => pure ⟨fields, h⟩
  | .error e => throw e

/-! ## Serialisation -/

/-- `[str(path) for path in paths]` -/
def pathTexts (paths : List Path) : Json :=
  .arr (paths.map fun path => .str path.str)

/-- `to_dict`. -/
def toDict (p : SandboxPolicy) : Json :=
  .obj [("schema_version", .int p.schemaVersion), ("run_id", .str p.runId),
    ("ticket_id", .str p.ticketId), ("step", .str p.step),
    ("workspace_root", .str p.workspaceRoot.str), ("read_roots", pathTexts p.readRoots),
    ("write_roots", pathTexts p.writeRoots), ("deny_read_roots", pathTexts p.denyReadRoots),
    ("deny_write_roots", pathTexts p.denyWriteRoots), ("network_mode", .str p.networkMode.value),
    ("allowed_domains", .arr (p.allowedDomains.map .str)), ("process_limit", .int p.processLimit),
    ("wall_timeout_seconds", .int p.wallTimeoutSeconds),
    ("output_limit_bytes", .int p.outputLimitBytes), ("protected_paths", pathTexts p.protectedPaths)]

/-- `canonical_json`. -/
def canonicalJson (p : SandboxPolicy) : PyStr :=
  p.toDict.dumps

/-- `policy_hash`; the texts of a policy can be encoded. -/
def policyHash (p : SandboxPolicy) : PyStr :=
  sha256 (encodePass p.canonicalJson)

/-! ## Tightening -/

/-- `getattr(policy, name)` for the identity fields. -/
def identity (p : PolicyFields) : ℤ × PyStr × PyStr × PyStr × Path :=
  (p.schemaVersion, p.runId, p.ticketId, p.step, p.workspaceRoot)

/-- The network part of `tighten_policy`. -/
def tightenNetwork (base candidate : PolicyFields) : Except PolicyError Unit :=
  match base.networkMode, candidate.networkMode with
  | .deny, .deny => .ok ()
  | .deny, .proxyAllowlist => .error .network
  | .proxyAllowlist, .proxyAllowlist =>
    require (candidate.allowedDomains.all fun d => base.allowedDomains.contains d) .allowedDomains
  | .proxyAllowlist, .deny => .ok ()

/-- `tighten_policy`. -/
def tightenPolicy (base candidate : SandboxPolicy) : Except PolicyError SandboxPolicy := do
  rescue base.validate .baseInvalid
  rescue candidate.validate .candidateInvalid
  require (identity candidate.toPolicyFields == identity base.toPolicyFields) .identity
  require (rootsAreNoBroader candidate.readRoots base.readRoots) (.broadens "read_roots")
  require (rootsAreNoBroader candidate.writeRoots base.writeRoots) (.broadens "write_roots")
  require (deniesPreserved candidate.denyReadRoots base.denyReadRoots) (.weakens "deny_read_roots")
  require (deniesPreserved candidate.denyWriteRoots base.denyWriteRoots)
    (.weakens "deny_write_roots")
  require (base.protectedPaths.all fun path => candidate.protectedPaths.contains path)
    .removesProtected
  requireAll (candidate.limits.zip base.limits) (fun f => decide (f.1.2 ≤ f.2.2)) fun f =>
    .broadens f.1.1
  tightenNetwork base.toPolicyFields candidate.toPolicyFields
  pure candidate

/-- `dataclasses.replace` with the overrides of the reviewer policy: the constructor runs
again, over the fields that stay. -/
def reviewerArguments (base : SandboxPolicy) (denyReadRoots : List PyStr) : Arguments where
  schemaVersion := base.schemaVersion
  runId := base.runId
  ticketId := base.ticketId
  step := base.step
  workspaceRoot := base.workspaceRoot.str
  readRoots := base.readRoots.map Path.str
  writeRoots := []
  denyReadRoots := base.denyReadRoots.map Path.str ++ denyReadRoots
  denyWriteRoots := base.denyWriteRoots.map Path.str
  networkMode := .deny
  allowedDomains := []
  processLimit := base.processLimit
  wallTimeoutSeconds := base.wallTimeoutSeconds
  outputLimitBytes := base.outputLimitBytes
  protectedPaths := base.protectedPaths.map Path.str

/-- `derive_read_only_reviewer_policy`. -/
def deriveReadOnlyReviewerPolicy (fs : FileSystem) (base : SandboxPolicy) (workspaceRoot : PyStr)
    (denyReadRoots : List PyStr) : Except PolicyError SandboxPolicy := do
  require (base.step == lit "review") .reviewerStep
  match fs.resolveStrict workspaceRoot with
  | none => throw .reviewerRootUnavailable
  | some workspace =>
    require (fs.isDir workspace && base.workspaceRoot == workspace) .reviewerRootMismatch
    require (base.readRoots.all fun root => isWithin root workspace) .reviewerReadRoot
    let candidate ← make fs (reviewerArguments base denyReadRoots)
    tightenPolicy base candidate

/-! ## Authority -/

/-- The files a step may read. -/
def readable (p : SandboxPolicy) : Set Path :=
  Granted p.readRoots p.denyReadRoots

/-- The files a step may write: protected paths are denied, too. -/
def writable (p : SandboxPolicy) : Set Path :=
  Granted p.writeRoots (p.denyWriteRoots ++ p.protectedPaths)

/-- The hosts a step may reach. -/
def admits (p : SandboxPolicy) : Set PyStr :=
  {host | p.networkMode = .proxyAllowlist ∧ host ∈ p.allowedDomains}

/-- What `tighten_policy` asks of a candidate. -/
structure Narrower (base candidate : SandboxPolicy) : Prop where
  identity : identity candidate.toPolicyFields = identity base.toPolicyFields
  readRoots : NoBroader candidate.readRoots base.readRoots
  writeRoots : NoBroader candidate.writeRoots base.writeRoots
  denyReadRoots : NoBroader base.denyReadRoots candidate.denyReadRoots
  denyWriteRoots : NoBroader base.denyWriteRoots candidate.denyWriteRoots
  protectedPaths : base.protectedPaths ⊆ candidate.protectedPaths
  processLimit : candidate.processLimit ≤ base.processLimit
  wallTimeoutSeconds : candidate.wallTimeoutSeconds ≤ base.wallTimeoutSeconds
  outputLimitBytes : candidate.outputLimitBytes ≤ base.outputLimitBytes
  network : candidate.networkMode = .deny ∨ base.networkMode = .proxyAllowlist ∧
    candidate.allowedDomains ⊆ base.allowedDomains

theorem tightenNetwork_eq_ok {base candidate : PolicyFields} {u : Unit} :
    tightenNetwork base candidate = .ok u ↔ candidate.networkMode = .deny ∨
      base.networkMode = .proxyAllowlist ∧ candidate.allowedDomains ⊆ base.allowedDomains := by
  unfold tightenNetwork
  split <;> simp_all [List.subset_def]

/-- The accepting branch of `tighten_policy`. -/
theorem tightenPolicy_eq_ok {base candidate r : SandboxPolicy} :
    tightenPolicy base candidate = .ok r ↔ Narrower base candidate ∧ r = candidate := by
  unfold tightenPolicy
  simp only [bind_eq_ok, rescue_eq_ok, require_eq_ok, requireAll_eq_ok, tightenNetwork_eq_ok,
    rootsAreNoBroader_iff, deniesPreserved_iff, beq_iff_eq, pure, Except.pure, Except.ok.injEq]
  constructor
  · rintro ⟨-, -, -, -, -, hid, -, hr, -, hw, -, hdr, -, hdw, -, hp, -, hl, -, hn, rfl⟩
    simp only [PolicyFields.limits, List.zip_cons_cons, List.zip_nil_right, List.forall_mem_cons,
      decide_eq_true_eq] at hl
    refine ⟨⟨hid, hr, hw, hdr, hdw, fun x hx => ?_, hl.1, hl.2.1, hl.2.2.1, hn⟩, rfl⟩
    simpa using List.all_eq_true.mp hp x hx
  · rintro ⟨h, rfl⟩
    refine ⟨(), base.valid, (), r.valid, (), h.identity, (), h.readRoots, (), h.writeRoots,
      (), h.denyReadRoots, (), h.denyWriteRoots, (), ?_, (), ?_, (), h.network, rfl⟩
    · exact List.all_eq_true.mpr fun x hx => by simpa using h.protectedPaths hx
    · simp [PolicyFields.limits, h.processLimit, h.wallTimeoutSeconds, h.outputLimitBytes]

theorem Narrower.refl (p : SandboxPolicy) : Narrower p p where
  identity := rfl
  readRoots := NoBroader.refl _
  writeRoots := NoBroader.refl _
  denyReadRoots := NoBroader.refl _
  denyWriteRoots := NoBroader.refl _
  protectedPaths := List.Subset.refl _
  processLimit := le_rfl
  wallTimeoutSeconds := le_rfl
  outputLimitBytes := le_rfl
  network := by
    cases h : p.networkMode with
    | deny => exact Or.inl rfl
    | proxyAllowlist => exact Or.inr ⟨rfl, List.Subset.refl _⟩

theorem Narrower.trans {a b c : SandboxPolicy} (hab : Narrower a b) (hbc : Narrower b c) :
    Narrower a c where
  identity := hbc.identity.trans hab.identity
  readRoots := hbc.readRoots.trans hab.readRoots
  writeRoots := hbc.writeRoots.trans hab.writeRoots
  denyReadRoots := hab.denyReadRoots.trans hbc.denyReadRoots
  denyWriteRoots := hab.denyWriteRoots.trans hbc.denyWriteRoots
  protectedPaths := List.Subset.trans hab.protectedPaths hbc.protectedPaths
  processLimit := hbc.processLimit.trans hab.processLimit
  wallTimeoutSeconds := hbc.wallTimeoutSeconds.trans hab.wallTimeoutSeconds
  outputLimitBytes := hbc.outputLimitBytes.trans hab.outputLimitBytes
  network := by
    rcases hbc.network with hc | ⟨hb, hbc⟩
    · exact Or.inl hc
    · rcases hab.network with hb' | ⟨ha, hab⟩
      · rw [hb] at hb'
        cases hb'
      · exact Or.inr ⟨ha, List.Subset.trans hbc hab⟩

/-- A narrower policy gives access to fewer files and hosts. -/
theorem Narrower.authority_le {base candidate : SandboxPolicy} (h : Narrower base candidate) :
    candidate.readable ⊆ base.readable ∧ candidate.writable ⊆ base.writable ∧
      candidate.admits ⊆ base.admits := by
  refine ⟨granted_subset h.readRoots h.denyReadRoots,
    granted_subset h.writeRoots (h.denyWriteRoots.append (NoBroader.of_subset h.protectedPaths)),
    ?_⟩
  rintro host ⟨hm, hd⟩
  rcases h.network with hn | ⟨hb, hs⟩
  · rw [hn] at hm
    cases hm
  · exact ⟨hb, hs hd⟩

/-! ## The reviewer policy -/

theorem normalizePaths_nil (fs : FileSystem) (location : String) :
    normalizePaths fs [] location = .ok [] :=
  rfl

/-- The constructor keeps the network mode, and an empty list of paths. -/
theorem make_eq_ok {fs : FileSystem} {a : Arguments} {p : SandboxPolicy} (h : make fs a = .ok p) :
    p.networkMode = a.networkMode ∧ (a.writeRoots = [] → p.writeRoots = []) := by
  unfold make at h
  simp only [bind_eq_ok] at h
  obtain ⟨-, -, -, -, -, -, root, -, rd, -, wr, hwr, dr, -, dw, -, pr, -, h⟩ := h
  split at h
  · obtain rfl := Except.ok.inj h
    refine ⟨rfl, fun hnil => ?_⟩
    rw [hnil, normalizePaths_nil] at hwr
    exact (Except.ok.inj hwr).symm
  · cases h

/-- A reviewer policy is narrower than its base, writes nothing and has no network. -/
theorem deriveReadOnlyReviewerPolicy_eq_ok {fs : FileSystem} {base r : SandboxPolicy}
    {workspaceRoot : PyStr} {denyReadRoots : List PyStr}
    (h : deriveReadOnlyReviewerPolicy fs base workspaceRoot denyReadRoots = .ok r) :
    Narrower base r ∧ r.writeRoots = [] ∧ r.networkMode = .deny := by
  unfold deriveReadOnlyReviewerPolicy at h
  simp only [bind_eq_ok] at h
  obtain ⟨-, -, h⟩ := h
  split at h
  · cases h
  · simp only [bind_eq_ok] at h
    obtain ⟨-, -, -, -, c, hc, ht⟩ := h
    obtain ⟨hn, rfl⟩ := tightenPolicy_eq_ok.mp ht
    obtain ⟨hm, hw⟩ := make_eq_ok hc
    exact ⟨hn, hw rfl, hm⟩

/-- Tightening never broadens: an accepted candidate has no more authority than its base,
acceptance is a preorder, and the reviewer policy is accepted, writes nothing and reaches
no host. -/
theorem tightenPolicy_never_broadens :
    (∀ base candidate r : SandboxPolicy, tightenPolicy base candidate = .ok r →
      r = candidate ∧ candidate.readable ⊆ base.readable ∧ candidate.writable ⊆ base.writable ∧
        candidate.admits ⊆ base.admits ∧ candidate.processLimit ≤ base.processLimit ∧
        candidate.wallTimeoutSeconds ≤ base.wallTimeoutSeconds ∧
        candidate.outputLimitBytes ≤ base.outputLimitBytes) ∧
    (∀ p : SandboxPolicy, tightenPolicy p p = .ok p) ∧
    (∀ a b c : SandboxPolicy, tightenPolicy a b = .ok b → tightenPolicy b c = .ok c →
      tightenPolicy a c = .ok c) ∧
    ∀ (fs : FileSystem) (base r : SandboxPolicy) (workspaceRoot : PyStr)
      (denyReadRoots : List PyStr),
      deriveReadOnlyReviewerPolicy fs base workspaceRoot denyReadRoots = .ok r →
        tightenPolicy base r = .ok r ∧ r.writable = ∅ ∧ r.networkMode = .deny ∧ r.admits = ∅ := by
  refine ⟨fun base candidate r h => ?_, fun p => ?_, fun a b c hab hbc => ?_,
    fun fs base r root denies h => ?_⟩
  · obtain ⟨hn, rfl⟩ := tightenPolicy_eq_ok.mp h
    obtain ⟨hr, hw, ha⟩ := hn.authority_le
    exact ⟨rfl, hr, hw, ha, hn.processLimit, hn.wallTimeoutSeconds, hn.outputLimitBytes⟩
  · exact tightenPolicy_eq_ok.mpr ⟨Narrower.refl p, rfl⟩
  · obtain ⟨hn, -⟩ := tightenPolicy_eq_ok.mp hab
    obtain ⟨hn', -⟩ := tightenPolicy_eq_ok.mp hbc
    exact tightenPolicy_eq_ok.mpr ⟨hn.trans hn', rfl⟩
  · obtain ⟨hn, hw, hm⟩ := deriveReadOnlyReviewerPolicy_eq_ok h
    refine ⟨tightenPolicy_eq_ok.mpr ⟨hn, rfl⟩, ?_, hm, ?_⟩
    · rw [writable, hw, granted_nil]
    · simp [admits, hm]

/-- A review step that may write its workspace `/w` and reach one host. -/
def reviewStep : SandboxPolicy where
  schemaVersion := 1
  runId := "run"
  ticketId := "T-1"
  step := "review"
  workspaceRoot := [lit "w"]
  readRoots := [[lit "w"]]
  writeRoots := [[lit "w", lit "out"]]
  denyReadRoots := []
  denyWriteRoots := []
  networkMode := .proxyAllowlist
  allowedDomains := [lit "pypi.org"]
  processLimit := 4
  wallTimeoutSeconds := 60
  outputLimitBytes := 1024
  protectedPaths := []
  valid := by decide

/-- The policy a reviewer of `reviewStep` gets. -/
def reviewerStep : SandboxPolicy where
  toPolicyFields := { reviewStep.toPolicyFields with
    writeRoots := [], denyReadRoots := [[lit "w", lit ".git"]], networkMode := .deny,
    allowedDomains := [] }
  valid := by decide

/-- A file system that holds `/w` and `/w/.git`. -/
def reviewFiles : FileSystem where
  resolve path :=
    if path = "/w" then some [lit "w"]
    else if path = "/w/.git" then some [lit "w", lit ".git"] else none
  resolveStrict path := if path = "/w" then some [lit "w"] else none
  isDir path := path == [lit "w"]

theorem tightenPolicy_never_broadens_review :
    reviewerStep.readable ⊆ reviewStep.readable ∧ tightenPolicy reviewStep reviewerStep =
      .ok reviewerStep ∧ reviewerStep.writable = ∅ :=
  have hr : deriveReadOnlyReviewerPolicy reviewFiles reviewStep "/w" [lit "/w/.git"] =
      .ok reviewerStep := by rfl
  have hd := tightenPolicy_never_broadens.2.2.2 _ _ _ _ _ hr
  have hs := tightenPolicy_never_broadens.2.2.1 _ _ _ (tightenPolicy_never_broadens.2.1 _) hd.1
  ⟨(tightenPolicy_never_broadens.1 _ _ _ hs).2.1, hs, hd.2.1⟩

end SandboxPolicy

end Icode
