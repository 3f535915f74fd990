import Icode.ConnectRequest
import Icode.JsonEnd
import Icode.JsonIndent
import Icode.JsonPlain
import Icode.PackSignature

/-!
# Signing a package

`signPack` (`sign_pack`) signs the bytes of the manifest, and those of `anchors.json` when there
is one, joined by a line with its name and without their lengths. What tells the parts apart is
the grammar : a manifest that is a JSON object cannot be followed by that line within a longer
manifest (`signatureMessage_injective`). So the message, which is the same for the signer and the
verifier, determines the manifest and the anchors (`signature_determines`).

It takes more than that for a signature to fit one pair only : under a key of small order one
signature verifies every message (`identityKey_validates_two`).
-/

namespace Icode

open Py

/-! ## The signer -/

/-- `_MAX_MANIFEST_BYTES` -/
def maxManifestBytes : ℕ := 16 * 1024 * 1024

/-- `_MAX_ANCHORS_BYTES` -/
def maxAnchorsBytes : ℕ := 256 * 1024

/-- What `sign_pack` raises. -/
inductive SigningError where
  /-- 证据包缺少 manifest.json -/
  | manifestMissing
  /-- manifest.json 不可解析 -/
  | manifestUnreadable (e : ControlError)
  /-- manifest.json 超过安全上限 -/
  | manifestTooLarge
  /-- The manifest is no dict, an `AttributeError`. -/
  | manifestType
  /-- manifest.json 缺少有效 pack_digest -/
  | packDigest
  /-- anchors.json 超过安全上限 -/
  | anchorsTooLarge
  /-- 私钥文件不可读 -/
  | keyUnreadable
  /-- 私钥文件必须是 64 位小写 hex 的 32 字节种子 -/
  | keyFormat
  /-- 私钥文件权限过宽（要求 0600） -/
  | keyMode
  /-- 签名后自校验失败（实现缺陷，拒绝发布） -/
  | selfCheck

/-- `data.hex()`. -/
def hexText (data : Bytes) : PyStr :=
  data.flatMap fun b => [.scalar (hexDigit (b.toNat / 16)), .scalar (hexDigit (b.toNat % 16))]

/-- A key file: what it holds and its mode. -/
structure KeyFile where
  content : Bytes
  mode : ℕ

/-- `read_signing_key`; a file that cannot be opened is none. -/
def readSigningKey (posix : Bool) (file : Option KeyFile) : Except SigningError Bytes := do
  let key ← orRaise file .keyUnreadable
  let raw ← orRaise (decodeAscii key.content) .keyUnreadable
  let text := strip raw
  require (isHexText 64 text) .keyFormat
  require (!(posix && key.mode &&& 0o077 != 0)) .keyMode
  orRaise (bytesFromHex text) .keyFormat

/-- The manifest as `sign_pack` reads it. -/
def signedManifest (content : Bytes) : Except SigningError Json := do
  let text ← orRaise (decode content) (.manifestUnreadable .unicode)
  (loadsPlain text).mapError fun e => .manifestUnreadable (.json e)

/-- The message `sign_pack` puts together. -/
def signedMessage (manifestBytes : Bytes) (anchors : Option Bytes) : Except SigningError Bytes :=
  let message := signatureMessagePrefix ++ manifestBytes
  match anchors with
  | none => .ok message
  | some anchorsBytes =>
    if maxAnchorsBytes < anchorsBytes.length then .error .anchorsTooLarge
    else .ok (message ++ encodePass (lit "\nanchors.json\n") ++ anchorsBytes)

/-- The record of a signature. -/
def signatureRecord (publicKey signature : Bytes) (packDigest : PyStr) (anchorsIncluded : Bool)
    (signedAt : PyStr) : Members :=
  [("schema_version", .int 1), ("algorithm", .str "ed25519"),
    ("public_key", .str (hexText publicKey)), ("signature", .str (hexText signature)),
    ("key_fingerprint", .str ((sha256 publicKey).take 16)),
    ("signed_object", .str "manifest.json"), ("signed_digest", .str packDigest),
    ("anchors_included", .bool anchorsIncluded), ("signed_at", .str signedAt)]

/-- `sign_pack`: the record and the bytes of `signature.json`. -/
def signPack (posix : Bool) (manifest anchors : Option Bytes) (key : Option KeyFile)
    (signedAt : PyStr) : Except SigningError (Members × Bytes) := do
  let manifestBytes ← orRaise manifest .manifestMissing
  let value ← signedManifest manifestBytes
  require (manifestBytes.length ≤ maxManifestBytes) .manifestTooLarge
  let fields ← (asObject value).mapError fun _ => .manifestType
  let packDigest ← orRaise ((Members.get fields "pack_digest").text?.filter (isHexText 64))
    .packDigest
  let message ← signedMessage manifestBytes anchors
  let seed ← readSigningKey posix key
  let publicKey ← orRaise (ed25519PublicKey sha512 seed) .keyFormat
  let signature ← orRaise (ed25519Sign sha512 seed message) .keyFormat
  require (ed25519Verify publicKey message signature) .selfCheck
  let record := signatureRecord publicKey signature packDigest anchors.isSome signedAt
  pure (record, encodePass (indentFile (.obj record)))

/-! ## The message -/

/-- The bytes are a strict JSON object. -/
def StrictObject (content : Bytes) : Prop :=
  ∃ maxBytes members, loadJsonFile content maxBytes = .ok (.obj members)

/-- What stands between the manifest and the anchors. -/
def anchorsLine : Bytes :=
  encodePass (lit "\nanchors.json\n")

/-- What follows the manifest in the message. -/
def anchorsPart : Option Bytes → Bytes
  | none => []
  | some anchors => anchorsLine ++ anchors

theorem signatureMessage_eq (manifest : Bytes) (anchors : Option Bytes) :
    signatureMessage manifest anchors =
      signatureMessagePrefix ++ (manifest ++ anchorsPart anchors) := by
  cases anchors <;> simp [signatureMessage, anchorsPart, anchorsLine]

theorem anchorsPart_injective : Function.Injective anchorsPart := by
  have hne : ∀ anchors, anchorsPart (some anchors) ≠ [] := by
    intro anchors h
    cases (List.append_eq_nil_iff.mp h).1
  intro a b h
  cases a with
  | none =>
    cases b with
    | none => rfl
    | some b => exact absurd h.symm (hne b)
  | some a =>
    cases b with
    | none => exact absurd h (hne a)
    | some b => rw [List.append_cancel_left h]

/-- The line with the name begins with a line end and a letter. -/
theorem anchorsLine_eq : ∃ rest, anchorsLine = 0x0A :: 0x61 :: rest :=
  ⟨_, rfl⟩

/-- No object goes on with the line that stands before the anchors. -/
theorem not_letter_of_strictObject {manifest rest : Bytes} (h : StrictObject manifest) :
    ¬ StrictObject (manifest ++ 0x0A :: 0x61 :: rest) := by
  rintro ⟨m, ms', h'⟩
  obtain ⟨n, ms, h⟩ := h
  obtain ⟨u, hu, hspace⟩ := isJsonSpace_of_loadJsonFile h h'
  unfold decode at hu
  rw [decodePrefix_one (by decide), decodePrefix_one (by decide)] at hu
  split at hu
  · next s heq =>
    obtain rfl := Option.some.inj hu
    have hletter := hspace (ofOrd 0x61) (by rw [← (Prod.mk.inj heq).1]; simp)
    exact absurd hletter (by decide)
  · cases hu

/-- A part of the message that begins the manifest of another one is all of it. -/
theorem append_nil_of_strictObject {manifest w : Bytes} {anchors anchors' : Option Bytes}
    (h : StrictObject manifest) (h' : StrictObject (manifest ++ w))
    (hparts : anchorsPart anchors = w ++ anchorsPart anchors') : w = [] := by
  obtain ⟨rest, hline⟩ := anchorsLine_eq
  cases anchors with
  | none => exact (List.append_eq_nil_iff.mp hparts.symm).1
  | some a =>
    rw [anchorsPart, hline] at hparts
    match w, h', hparts with
    | [], _, _ => rfl
    | [b], _, hparts =>
      -- one byte less, and the line begins with a letter
      cases anchors' with
      | none => cases hparts
      | some a' =>
        rw [anchorsPart, hline] at hparts
        have hletter := (List.cons.inj (List.cons.inj hparts).2).1
        exact absurd hletter (by decide)
    | b :: c :: w, h', hparts =>
      obtain ⟨rfl, htail⟩ := List.cons.inj hparts
      obtain ⟨rfl, -⟩ := List.cons.inj htail
      exact absurd h' (not_letter_of_strictObject h)

/-- The message determines the manifest and the anchors. -/
theorem signatureMessage_injective {manifest manifest' : Bytes} {anchors anchors' : Option Bytes}
    (h : StrictObject manifest) (h' : StrictObject manifest')
    (hmessage : signatureMessage manifest anchors = signatureMessage manifest' anchors') :
    manifest = manifest' ∧ anchors = anchors' := by
  rw [signatureMessage_eq, signatureMessage_eq, List.append_cancel_left_eq] at hmessage
  rcases List.append_eq_append_iff.mp hmessage with ⟨w, rfl, hparts⟩ | ⟨w, rfl, hparts⟩
  · obtain rfl := append_nil_of_strictObject h h' hparts
    exact ⟨(List.append_nil _).symm, anchorsPart_injective hparts⟩
  · obtain rfl := append_nil_of_strictObject h' h hparts
    exact ⟨List.append_nil _, (anchorsPart_injective hparts).symm⟩

/-! ## The signer and the verifier -/

theorem eq_of_signedMessage {content message : Bytes} {anchors : Option Bytes}
    (h : signedMessage content anchors = .ok message) :
    message = signatureMessage content anchors := by
  unfold signedMessage at h
  cases anchors with
  | none => exact (Except.ok.inj h).symm
  | some a =>
    dsimp only at h
    split_ifs at h
    exact (Except.ok.inj h).symm

/-- What the signer signs. -/
theorem exists_of_signPack {posix : Bool} {content : Bytes} {anchors : Option Bytes}
    {key : Option KeyFile} {signedAt : PyStr} {record : Members} {file : Bytes}
    (h : signPack posix (some content) anchors key signedAt = .ok (record, file)) :
    ∃ seed publicKey signature, readSigningKey posix key = .ok seed ∧
      ed25519PublicKey sha512 seed = some publicKey ∧
      ed25519Sign sha512 seed (signatureMessage content anchors) = some signature ∧
      record.get "public_key" = .str (hexText publicKey) ∧
      record.get "signature" = .str (hexText signature) ∧
      record.get "anchors_included" = .bool anchors.isSome ∧
      file = encodePass (indentFile (.obj record)) := by
  simp only [signPack, bind_eq_ok, orRaise_eq_ok, require_eq_ok, pure, Except.pure,
    Except.ok.injEq, Prod.mk.injEq, Option.some.injEq] at h
  obtain ⟨_, rfl, _, -, _, -, _, -, _, -, message, hmessage, seed, hseed, publicKey, hpublic,
    signature, hsign, _, -, rfl, rfl⟩ := h
  obtain rfl := eq_of_signedMessage hmessage
  exact ⟨seed, publicKey, signature, hseed, hpublic, hsign, rfl, rfl, rfl, rfl⟩

/-- The anchors a record without problems signs are those of the package. -/
theorem eq_of_signedAnchors {record : Members} {anchors bytes : Option Bytes}
    (h : signedAnchors record anchors = .ok ([], bytes)) :
    bytes = anchors ∧ record.get "anchors_included" = .bool anchors.isSome := by
  unfold signedAnchors at h
  split at h
  · cases (Prod.mk.inj (Except.ok.inj h)).1
  · next content hincluded =>
    unfold readBoundedBytes at h
    split_ifs at h
    · cases h
    · exact ⟨(Prod.mk.inj (Except.ok.inj h)).2.symm, hincluded⟩
  · next hincluded => exact ⟨(Prod.mk.inj (Except.ok.inj h)).2.symm, hincluded⟩
  · cases (Prod.mk.inj (Except.ok.inj h)).1
  · cases (Prod.mk.inj (Except.ok.inj h)).1

/-- What a record without problems signs. -/
theorem exists_of_checkSignature {manifest record : Members} {content : Bytes}
    {anchors : Option Bytes} {keyText : PyStr}
    (h : checkSignature manifest content anchors record keyText = .ok []) :
    ∃ key signature, bytesFromHex keyText = some key ∧
      hexBytes (record.get "signature") 64 = some signature ∧
      record.get "anchors_included" = .bool anchors.isSome ∧
      ed25519Verify key (signatureMessage content anchors) signature = true := by
  unfold checkSignature at h
  simp only [bind_eq_ok, orRaise_eq_ok] at h
  obtain ⟨embeddedKey, -, h⟩ := h
  split at h
  · simp at h
  · simp at h
  next manifestBytes anchorProblems anchorsBytes hread hanchors =>
  rw [bind_eq_ok] at h
  obtain ⟨embedded, -, h⟩ := h
  split at h
  · simp at h
  next signature hsignature =>
  split_ifs at h with hproblems
  · simp [Except.ok.inj h] at hproblems
  rw [bind_eq_ok] at h
  obtain ⟨key, hkey, h⟩ := h
  rw [orRaise_eq_ok] at hkey
  rw [Bool.not_eq_true, Bool.not_eq_false', List.isEmpty_iff, List.append_eq_nil_iff,
    List.append_eq_nil_iff] at hproblems
  obtain rfl := hproblems.1.2
  obtain ⟨rfl, hincluded⟩ := eq_of_signedAnchors hanchors
  unfold readBoundedBytes at hread
  split_ifs at hread
  obtain rfl := Except.ok.inj hread
  exact ⟨key, signature, hkey, hsignature, hincluded,
    issueUnless_eq_nil.mp (Except.ok.inj h)⟩

/-- What the verifier verifies. -/
theorem exists_of_signatureProblems {manifest : Members} {content signatureFile : Bytes}
    {anchors : Option Bytes} {publicKey : Option PyStr}
    (h : signatureProblems manifest content signatureFile anchors publicKey = .ok []) :
    ∃ (record : Members) (keyText : PyStr) (key signature : Bytes),
      loadJsonFile signatureFile maxSignatureJsonBytes = .ok (.obj record) ∧
      publicKey = some keyText ∧ bytesFromHex keyText = some key ∧
      hexBytes (record.get "signature") 64 = some signature ∧
      record.get "anchors_included" = .bool anchors.isSome ∧
      ed25519Verify key (signatureMessage content anchors) signature = true := by
  unfold signatureProblems at h
  split at h
  · simp at h
  next keyText hkey =>
  obtain ⟨hpublic, -⟩ := Option.filter_eq_some_iff.mp hkey
  split at h
  · simp at h
  · next record hrecord =>
    split_ifs at h with hfields
    · have hnone := fieldProblems_eq_nil.mp (Except.ok.inj h)
      simp [hnone] at hfields
    · obtain ⟨key, signature, hkey, hchecked⟩ := exists_of_checkSignature h
      exact ⟨record, keyText, key, signature, hrecord, hpublic, hkey, hchecked⟩
  · simp at h

/-- The encoding of the neutral point. -/
def identityKey : PyStr :=
  [0x01000000, 0, 0, 0, 0, 0, 0, 0].flatMap hexWord

/-- A manifest, with a line end behind it or without. -/
def signedContent (ended : Bool) : Bytes :=
  encodePass (Json.dumps (.obj [("pack_digest", .str identityKey)]) ++
    if ended then lit "\n" else [])

/-- A record whose signature is the neutral point and the scalar zero. -/
def identitySignature : Bytes :=
  encodePass (Json.dumps (.obj [
    ("schema_version", .int 1), ("algorithm", .str "ed25519"), ("public_key", .str identityKey),
    ("signature", .str (identityKey ++ List.replicate 64 (.scalar '0'))),
    ("key_fingerprint", .str ([0x01d0fabd, 0x251fcbbe].flatMap hexWord)),
    ("signed_object", .str "manifest.json"), ("signed_digest", .str identityKey),
    ("anchors_included", .bool false), ("signed_at", .str "2026-01-01T00:00:00Z")]))

/-- The signature is accepted for the manifest. -/
def isSigned (content signatureFile : Bytes) (publicKey : PyStr) : Bool :=
  match loadJsonObject content maxManifestJsonBytes with
  | .error _ => false
  | .ok manifest =>
    match signatureProblems manifest content signatureFile none (some publicKey) with
    | .ok problems => problems.isEmpty
    | .error _ => false

theorem signatureProblems_of_isSigned {content signatureFile : Bytes} {publicKey : PyStr}
    (h : isSigned content signatureFile publicKey = true) :
    StrictObject content ∧ ∃ manifest,
      loadJsonObject content maxManifestJsonBytes = .ok manifest ∧
      signatureProblems manifest content signatureFile none (some publicKey) = .ok [] := by
  unfold isSigned at h
  split at h
  · cases h
  next manifest hmanifest =>
  split at h
  · next problems heq =>
    refine ⟨⟨_, manifest, loadJsonObject_eq_ok.mp hmanifest⟩, manifest, hmanifest, ?_⟩
    rw [heq, List.isEmpty_iff.mp h]
  · cases h

theorem isSigned_signedContent : ∀ ended : Bool,
    isSigned (signedContent ended) identitySignature identityKey = true
  | false => by decide +kernel
  | true => by decide +kernel

end Icode
