import Icode.SandboxPolicy

/-!
# Network leases

`LeaseFields` is the record of `NetworkLease`, `validate` its `validate()`, and a
`NetworkLease` is a record that passes it. A lease overlays a policy that denies
the network: `validateScope` compares it with that policy, a purpose, a time and
the current generation of the policy, and `validateRequest` also with the host
and port of a request. `canonicalPayload` is what the host signs, and an
`IssuedNetworkLease` is a lease with a signature.

A lease that is in scope carries the key of the policy (`policyKey_of_validateScope`)
and its current generation (`generation_of_validateScope`).
-/

namespace Icode

open Py SandboxPolicy

/-! ## The record -/

/-- `NetworkPurpose`. -/
inductive NetworkPurpose where
  | packageInstall
  | webRead
  deriving DecidableEq

/-- `NetworkPurpose.value` -/
def NetworkPurpose.value : NetworkPurpose → PyStr
  | .packageInstall => "package_install"
  | .webRead => "web_read"

/-- `NETWORK_LEASE_SCHEMA_VERSION` -/
def networkLeaseSchemaVersion : ℤ :=
  2

/-- `NANOSECONDS_PER_SECOND` -/
def nanosecondsPerSecond : ℤ :=
  1000000000

/-- `MAX_NETWORK_LEASE_TTL_SECONDS` -/
def maxNetworkLeaseTtlSeconds : ℤ :=
  15 * 60

/-- `MAX_NETWORK_LEASE_DOMAINS` -/
def maxNetworkLeaseDomains : ℕ :=
  32

/-- `HTTPS_PORT` -/
def httpsPort : ℤ :=
  443

/-- `NetworkLeaseValidationError` and its subclasses, by message. -/
inductive NetworkLeaseError where
  /-- `unsupported network lease schema_version: {version}` -/
  | schemaVersion (version : ℤ)
  /-- `lease_id must be 32 lowercase hex characters` -/
  | leaseId
  /-- `approval_id must be non-blank and bounded` -/
  | approvalId
  /-- `{name} must contain UTF-8 encodable Unicode scalars` -/
  | utf8 (name : String)
  /-- `{name} must be non-blank and contain no ASCII control characters` -/
  | text (name : String)
  /-- `policy_hash must be a lowercase SHA-256 hex digest` -/
  | policyHash
  /-- `allowed_domains must contain exact ASCII DNS hostnames` -/
  | allowedDomains
  /-- `a network lease may contain at most 32 domains` -/
  | domainCount
  /-- `temporary network leases currently require HTTPS port 443` -/
  | port
  /-- `issued_at_monotonic_ns must be positive` -/
  | issuedAt
  /-- `lease expiry must follow its issue time` -/
  | expiry
  /-- `network lease lifetime exceeds 15 minutes` -/
  | lifetime
  /-- `generation must be a positive integer` -/
  | generation
  /-- `sandbox policy is invalid` -/
  | policyInvalid
  /-- `network lease must overlay a deny-only sandbox policy` -/
  | overlay
  /-- `network lease is bound to a different policy` -/
  | differentPolicy
  /-- `request purpose differs from the lease` -/
  | purposeDiffers
  /-- `now_monotonic_ns must be a non-negative integer` -/
  | now
  /-- `network lease is not currently active` -/
  | notActive
  /-- `network lease generation was revoked or replaced` -/
  | generationReplaced
  /-- `request hostname must be an exact DNS hostname` -/
  | hostname
  /-- `request hostname is not authorized by the lease` -/
  | hostnameNotAuthorized
  /-- `request port is not authorized by the lease` -/
  | portNotAuthorized
  /-- `network leases require a deny-only sandbox policy` -/
  | denyOnly
  /-- `requested domains must be exact ASCII DNS hostnames` -/
  | requestedDomains
  /-- `ttl_seconds must be from 1 through 900` -/
  | ttlSeconds
  /-- `network approval service is unavailable` -/
  | approvalUnavailable
  /-- `network scope revocation cleanup is incomplete` -/
  | cleanupIncomplete
  /-- `network lease signature is invalid` -/
  | signature
  /-- `network scope was revoked while approval was pending` -/
  | revokedWhilePending
  /-- `pending connection requires a monotonic clock callback` -/
  | pendingWithoutClock
  /-- `monotonic clock callback failed` -/
  | clockFailed
  /-- `monotonic clock callback returned an invalid value` -/
  | clockValue
  deriving DecidableEq

/-- The fields of `NetworkLease`. -/
structure LeaseFields where
  schemaVersion : ℤ
  leaseId : PyStr
  approvalId : PyStr
  runId : PyStr
  ticketId : PyStr
  step : PyStr
  policyHash : PyStr
  purpose : NetworkPurpose
  allowedDomains : List PyStr
  port : ℤ
  issuedAtMonotonicNs : ℤ
  expiresAtMonotonicNs : ℤ
  generation : ℤ
  deriving DecidableEq

namespace LeaseFields

/-- One text of the loop over `approval_id`, `run_id`, `ticket_id` and `step`. -/
def checkText (name : String) (value : PyStr) : Except NetworkLeaseError Unit := do
  require (value.all isScalar) (.utf8 name)
  require (isIdentityText value) (.text name)

/-- `validate`. The declared types are those of the fields. -/
def validate (l : LeaseFields) : Except NetworkLeaseError Unit := do
  require (l.schemaVersion == networkLeaseSchemaVersion) (.schemaVersion l.schemaVersion)
  require (isHexText 32 l.leaseId) .leaseId
  require (!l.approvalId.isEmpty && l.approvalId.length ≤ 256) .approvalId
  checkText "approval_id" l.approvalId
  checkText "run_id" l.runId
  checkText "ticket_id" l.ticketId
  checkText "step" l.step
  require (isHexText 64 l.policyHash) .policyHash
  require (!l.allowedDomains.isEmpty && l.allowedDomains.all isExactDnsHostname) .allowedDomains
  require (l.allowedDomains.length ≤ maxNetworkLeaseDomains) .domainCount
  require (l.port == httpsPort) .port
  require (0 < l.issuedAtMonotonicNs) .issuedAt
  require (l.issuedAtMonotonicNs < l.expiresAtMonotonicNs) .expiry
  require (l.expiresAtMonotonicNs - l.issuedAtMonotonicNs ≤
    maxNetworkLeaseTtlSeconds * nanosecondsPerSecond) .lifetime
  require (0 < l.generation) .generation

end LeaseFields

/-- A lease that its constructor accepts. -/
structure NetworkLease extends LeaseFields where
  valid : toLeaseFields.validate = .ok ()

/-- `(run_id, ticket_id, step, policy_hash)` -/
abbrev PolicyKey :=
  PyStr × PyStr × PyStr × PyStr

/-- `tuple(sorted(set(domains)))` -/
def sortedDomains (domains : List PyStr) : List PyStr :=
  domains.dedup.insertionSort fun p q => strLe p q = true

namespace NetworkLease

/-- The constructor: `__post_init__`. -/
def make (l : LeaseFields) : Except NetworkLeaseError NetworkLease :=
  let domains := l.allowedDomains.map fun d => if isExactDnsHostname d then d.map lowerAscii else d
  let fields := { l with allowedDomains := sortedDomains domains }
  match h : fields.validate with
  | .ok () => .ok ⟨fields, h⟩
  | .error e => .error e

/-- The policy snapshot the lease is for. -/
def policyKey (l : NetworkLease) : PolicyKey :=
  (l.runId, l.ticketId, l.step, l.policyHash)

/-- `canonical_payload`. -/
def canonicalPayload (l : NetworkLease) : Bytes :=
  encodePass (Json.dumpsAscii (.obj [("schema_version", .int l.schemaVersion),
    ("lease_id", .str l.leaseId), ("approval_id", .str l.approvalId), ("run_id", .str l.runId),
    ("ticket_id", .str l.ticketId), ("step", .str l.step), ("policy_hash", .str l.policyHash),
    ("purpose", .str l.purpose.value), ("allowed_domains", .arr (l.allowedDomains.map .str)),
    ("port", .int l.port), ("issued_at_monotonic_ns", .int l.issuedAtMonotonicNs),
    ("expires_at_monotonic_ns", .int l.expiresAtMonotonicNs), ("generation", .int l.generation)]))

/-! ## Scope -/

/-- `_policy_key`. -/
def keyOfPolicy (policy : SandboxPolicy) : Except NetworkLeaseError PolicyKey := do
  rescue policy.validate .policyInvalid
  require (policy.networkMode == .deny && policy.allowedDomains.isEmpty) .denyOnly
  pure (policy.runId, policy.ticketId, policy.step, policy.policyHash)

/-- `validate_scope`. -/
def validateScope (l : NetworkLease) (policy : SandboxPolicy) (purpose : NetworkPurpose) (now : ℤ)
    (currentGeneration : ℤ) : Except NetworkLeaseError Unit := do
  l.validate
  rescue policy.validate .policyInvalid
  require (policy.networkMode == .deny && policy.allowedDomains.isEmpty) .overlay
  require (l.runId == policy.runId && l.ticketId == policy.ticketId && l.step == policy.step &&
    l.policyHash == policy.policyHash) .differentPolicy
  require (purpose == l.purpose) .purposeDiffers
  require (0 ≤ now) .now
  require (l.issuedAtMonotonicNs ≤ now && now < l.expiresAtMonotonicNs) .notActive
  require (currentGeneration == l.generation) .generationReplaced

/-- `validate_request`. -/
def validateRequest (l : NetworkLease) (policy : SandboxPolicy) (purpose : NetworkPurpose)
    (hostname : PyStr) (port : ℤ) (now : ℤ) (currentGeneration : ℤ) :
    Except NetworkLeaseError Unit := do
  l.validateScope policy purpose now currentGeneration
  require (isExactDnsHostname hostname) .hostname
  require (l.allowedDomains.contains (hostname.map lowerAscii)) .hostnameNotAuthorized
  require (port == l.port) .portNotAuthorized

variable {l : NetworkLease} {policy : SandboxPolicy} {purpose : NetworkPurpose} {now g : ℤ}

/-- A lease in scope has the current generation. -/
theorem generation_of_validateScope (h : l.validateScope policy purpose now g = .ok ()) :
    l.generation = g := by
  unfold validateScope at h
  simp only [bind_eq_ok, require_eq_ok, beq_iff_eq] at h
  obtain ⟨-, -, -, -, -, -, -, -, -, -, -, -, -, -, h⟩ := h
  exact h.symm

/-- A lease in scope is for the policy it is compared with. -/
theorem policyKey_of_validateScope (h : l.validateScope policy purpose now g = .ok ())
    {key : PolicyKey} (hk : keyOfPolicy policy = .ok key) : l.policyKey = key := by
  unfold validateScope at h
  unfold keyOfPolicy at hk
  simp only [bind_eq_ok, require_eq_ok, Bool.and_eq_true, beq_iff_eq, pure, Except.pure,
    Except.ok.injEq] at h hk
  obtain ⟨-, -, -, -, -, -, -, ⟨⟨⟨hr, ht⟩, hs⟩, hp⟩, -⟩ := h
  obtain ⟨-, -, -, -, rfl⟩ := hk
  simp [policyKey, hr, ht, hs, hp]

theorem validateScope_of_validateRequest {hostname : PyStr} {port : ℤ}
    (h : l.validateRequest policy purpose hostname port now g = .ok ()) :
    l.validateScope policy purpose now g = .ok () := by
  unfold validateRequest at h
  simp only [bind_eq_ok] at h
  obtain ⟨_, h, -⟩ := h
  exact h

end NetworkLease

/-- `IssuedNetworkLease`. -/
structure IssuedNetworkLease where
  lease : NetworkLease
  signature : PyStr
  signed : isHexText 64 signature = true

end Icode
