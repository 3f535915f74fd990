import Icode.Anchors
import Icode.ControlFiles
import Icode.Ed25519
import Icode.ExecutionMirror

/-!
# The signature of a package

`signature.json` signs the bytes of the manifest, and those of `anchors.json` when it says so.
`signatureProblems` (`_signature_problems`) checks that the record is closed and signs this
manifest with the key of the caller.

The key of the record is matched and decoded before the problems of the record count, so a record
whose key is no hexadecimal text raises (`checkSignature_isOk_iff`).
-/

namespace Icode

open Py

/-- `_SIGNATURE_FIELDS` -/
def signatureFields : List PyStr :=
  ["schema_version", "algorithm", "public_key", "signature", "key_fingerprint", "signed_object",
    "signed_digest", "anchors_included", "signed_at"]

/-- `_SIGNATURE_SCHEMA_VERSION` -/
def signatureSchemaVersion : ℤ := 1

/-- `_MAX_SIGNATURE_JSON_BYTES` -/
def maxSignatureJsonBytes : ℕ := 64 * 1024

/-- `_MAX_ANCHORS_JSON_BYTES` -/
def maxAnchorsJsonBytes : ℕ := 256 * 1024

/-- `_MAX_MANIFEST_JSON_BYTES` -/
def maxManifestJsonBytes : ℕ := 16 * 1024 * 1024

/-- `SIGNATURE_MESSAGE_PREFIX` -/
def signatureMessagePrefix : Bytes :=
  encodePass (lit "icode-pack-signature-v1\n")

/-- What `_signature_problems` reports. -/
inductive SignatureProblem where
  /-- 包已携带签名但未提供有效的 --public-key（64 位小写 hex），无法验签 -/
  | publicKeyArgument
  /-- 签名文件不可解析 -/
  | unreadable (e : ControlError)
  /-- 签名文件结构无效（必须是 JSON 对象） -/
  | notObject
  /-- 签名记录缺少字段 -/
  | missing (fields : List PyStr)
  /-- 签名记录含未知字段 -/
  | extra (fields : List PyStr)
  /-- 签名记录 schema_version 不受支持 -/
  | schemaVersion
  /-- 签名算法不受支持（仅 ed25519） -/
  | algorithm
  /-- 签名对象不受支持（仅 manifest.json） -/
  | signedObject
  /-- 签名记录 public_key 无效（必须 64 位 hex） -/
  | publicKey
  /-- 签名公钥与提供公钥不一致（疑似换钥重签） -/
  | otherKey
  /-- manifest 读取失败 -/
  | manifestRead (e : ControlError)
  /-- 签名记录 anchors_included 无效（必须是布尔） -/
  | anchorsIncluded
  /-- 签名声明包含 anchors.json 但包内缺失 -/
  | anchorsMissing
  /-- anchors.json 读取失败 -/
  | anchorsRead (e : ControlError)
  /-- 包内存在 anchors.json 但签名未声明包含（签名覆盖不完整） -/
  | anchorsUndeclared
  /-- 签名记录 signed_digest 与清单 pack_digest 不一致 -/
  | signedDigest
  /-- 签名记录 signed_at 无效 -/
  | signedAt
  /-- 签名记录 key_fingerprint 与 public_key 不符 -/
  | keyFingerprint
  /-- 签名记录 signature 无效（必须是 128 位 hex） -/
  | signature
  /-- 签名验证失败（manifest 或 anchors.json 被改动，或签名不匹配） -/
  | invalid

/-- What leaves `verify_pack` as an exception. -/
inductive PackException where
  /-- `fullmatch` of a value that is no text, a `TypeError`. -/
  | keyType
  /-- `bytes.fromhex` of a text that has no hexadecimal bytes, a `ValueError`. -/
  | keyHex
  /-- An event type without a hash. -/
  | eventType (e : TypeError)
  deriving DecidableEq

/-! ## Hexadecimal bytes -/

/-- White space between the bytes : the characters 9 to 13 and the blank. -/
def isHexSpace (c : CodePoint) : Bool :=
  (9 ≤ c.ord && c.ord ≤ 13) || c.ord == 32

/-- `bytes.fromhex`. -/
def bytesFromHex : PyStr → Option Bytes
  | [] => some []
  | [c] => if isHexSpace c then some [] else none
  | c :: d :: cs =>
    if isHexSpace c then bytesFromHex (d :: cs)
    else
      match hexValue c, hexValue d with
      | some high, some low => (bytesFromHex cs).map (UInt8.ofNat (16 * high + low) :: ·)
      | _, _ => none

/-- `_hex_bytes`. -/
def hexBytes (value : Json) (byteLen : ℕ) : Option Bytes :=
  (value.text?.filter (isHexText (2 * byteLen))).bind bytesFromHex

/-! ## The record -/

/-- The checks of the record before the files are read. -/
def recordProblems (record : Members) (embeddedKey publicKey : PyStr) : List SignatureProblem :=
  issueUnless ((record.get "schema_version").pyEq (.int signatureSchemaVersion)) .schemaVersion ++
    issueUnless ((record.get "algorithm").isText "ed25519") .algorithm ++
    issueUnless ((record.get "signed_object").isText "manifest.json") .signedObject ++
    if !isHexText 64 embeddedKey then [.publicKey]
    else issueUnless (embeddedKey == publicKey) .otherKey

/-- What is wrong with the anchors next to the record, and the bytes of them it signs. -/
def signedAnchors (record : Members) (anchors : Option Bytes) :
    Except ControlError (List SignatureProblem × Option Bytes) :=
  match record.get "anchors_included", anchors with
  | .bool true, none => .ok ([.anchorsMissing], none)
  | .bool true, some content =>
    (readBoundedBytes content maxAnchorsJsonBytes).map fun raw => ([], some raw)
  | .bool false, none => .ok ([], none)
  | .bool false, some _ => .ok ([.anchorsUndeclared], none)
  | _, _ => .ok ([.anchorsIncluded], none)

/-- The checks of the record after the files were read. -/
def digestProblems (manifest record : Members) (key : Bytes) : List SignatureProblem :=
  issueUnless ((record.get "signed_digest").pyEq (manifest.get "pack_digest")) .signedDigest ++
    issueUnless (textSatisfies (fun s => !s.isEmpty && s.length ≤ 64) (record.get "signed_at"))
      .signedAt ++
    issueUnless ((record.get "key_fingerprint").isText ((sha256 key).take 16)) .keyFingerprint

/-- The message of a signature. -/
def signatureMessage (manifest : Bytes) : Option Bytes → Bytes
  | none => signatureMessagePrefix ++ manifest
  | some anchors =>
    signatureMessagePrefix ++ manifest ++ encodePass (lit "\nanchors.json\n") ++ anchors

/-- The checks of a record that has the fields of a signature. -/
def checkSignature (manifest : Members) (manifestContent : Bytes) (anchors : Option Bytes)
    (record : Members) (publicKey : PyStr) : Except PackException (List SignatureProblem) := do
  let embeddedKey ← orRaise (record.get "public_key").text? .keyType
  let problems := recordProblems record embeddedKey publicKey
  match readBoundedBytes manifestContent maxManifestJsonBytes, signedAnchors record anchors with
  | .error e, _ => .ok (problems ++ [.manifestRead e])
  | .ok _, .error e => .ok (problems ++ [.anchorsRead e])
  | .ok manifestBytes, .ok (anchorProblems, anchorsBytes) =>
    let embedded ← orRaise (bytesFromHex embeddedKey) .keyHex
    let problems := problems ++ anchorProblems ++ digestProblems manifest record embedded
    match hexBytes (record.get "signature") 64 with
    | none => .ok (problems ++ [.signature])
    | some signature =>
      if !problems.isEmpty then .ok problems
      else
        let key ← orRaise (bytesFromHex publicKey) .keyHex
        .ok (issueUnless
          (ed25519Verify key (signatureMessage manifestBytes anchorsBytes) signature) .invalid)

/-- `_signature_problems`; `anchors` is the content of `anchors.json`, when there is one. -/
def signatureProblems (manifest : Members) (manifestContent signature : Bytes)
    (anchors : Option Bytes) (publicKey : Option PyStr) :
    Except PackException (List SignatureProblem) :=
  match publicKey.filter (isHexText 64) with
  | none => .ok [.publicKeyArgument]
  | some publicKey =>
    match loadJsonFile signature maxSignatureJsonBytes with
    | .error e => .ok [.unreadable e]
    | .ok (.obj record) =>
      if !Members.keysAre record signatureFields then
        .ok (fieldProblems record signatureFields .missing .extra)
      else checkSignature manifest manifestContent anchors record publicKey
    | .ok _ => .ok [.notObject]

/-! ## When the record is read -/

/-- A text of lowercase digits is decoded. -/
theorem exists_bytesFromHex : ∀ {n : ℕ} {s : PyStr}, isHexText (2 * n) s = true →
    ∃ data, bytesFromHex s = some data := by
  intro n
  induction n with
  | zero =>
    intro s h
    simp only [isHexText, Bool.and_eq_true, beq_iff_eq, Nat.mul_zero, List.length_eq_zero_iff] at h
    exact ⟨[], by rw [h.1, bytesFromHex]⟩
  | succ n ih =>
    intro s h
    simp only [isHexText, Bool.and_eq_true, beq_iff_eq, List.all_eq_true] at h
    obtain ⟨hlen, hall⟩ := h
    rcases s with _ | ⟨c, _ | ⟨d, cs⟩⟩
    · simp at hlen
    · simp only [List.length_cons, List.length_nil] at hlen
      omega
    · obtain ⟨data, hdata⟩ := ih (s := cs) (by
        simp only [isHexText, Bool.and_eq_true, beq_iff_eq, List.all_eq_true]
        exact ⟨by simp only [List.length_cons] at hlen; omega,
          fun x hx => hall x (List.mem_cons_of_mem _ (List.mem_cons_of_mem _ hx))⟩)
      have hdigit : ∀ x ∈ c :: d :: cs, isHexSpace x = false ∧ ∃ v, hexValue x = some v := by
        intro x hx
        have := hall x hx
        simp only [Bool.or_eq_true, Bool.and_eq_true, decide_eq_true_eq] at this
        constructor
        · simp only [isHexSpace, Bool.or_eq_false_iff, Bool.and_eq_false_iff, decide_eq_false_iff_not,
            beq_eq_false_iff_ne]
          omega
        · unfold hexValue
          dsimp only
          split_ifs
          · exact ⟨_, rfl⟩
          · exact ⟨_, rfl⟩
          · exact ⟨_, rfl⟩
          · omega
      obtain ⟨hspace, high, hhigh⟩ := hdigit c (by simp)
      obtain ⟨-, low, hlow⟩ := hdigit d (by simp)
      refine ⟨UInt8.ofNat (16 * high + low) :: data, ?_⟩
      simp only [bytesFromHex, hspace, Bool.false_eq_true, if_false, hhigh, hlow, hdata,
        Option.map_some]

/-- A record is checked to its end when its key is a text, and hexadecimal bytes unless the anchors
cannot be read. -/
theorem checkSignature_isOk_iff {manifest record : Members} {manifestContent : Bytes}
    {anchors : Option Bytes} {publicKey : PyStr}
    (hmanifest : manifestContent.length ≤ maxManifestJsonBytes)
    (hkey : isHexText 64 publicKey = true) :
    (∃ ps, checkSignature manifest manifestContent anchors record publicKey = .ok ps) ↔
      ∃ embedded, record.get "public_key" = .str embedded ∧
        ((∃ data, bytesFromHex embedded = some data) ∨
          ∃ e, signedAnchors record anchors = .error e) := by
  obtain ⟨key, hkey⟩ := exists_bytesFromHex (n := 32) hkey
  have hread : readBoundedBytes manifestContent maxManifestJsonBytes = .ok manifestContent :=
    if_neg (by omega)
  unfold checkSignature
  cases htext : (record.get "public_key").text? with
  | none =>
    have hno : ∀ embedded, record.get "public_key" ≠ .str embedded := by
      intro embedded h
      simp [h, Json.text?] at htext
    simp [orRaise, hno, Bind.bind, Except.bind]
  | some embedded =>
    rw [Json.text?_eq_some] at htext
    have hsome : ∀ other, Json.str embedded = .str other ↔ other = embedded :=
      fun other => by rw [Json.str.injEq, eq_comm]
    simp only [orRaise, hread, htext, hsome, exists_eq_left, Bind.bind, Except.bind]
    cases signedAnchors record anchors with
    | error e => simp
    | ok found =>
      obtain ⟨anchorProblems, anchorsBytes⟩ := found
      cases bytesFromHex embedded with
      | none => simp
      | some data =>
        simp only [Option.some.injEq, exists_eq', true_or, iff_true]
        split
        · exact ⟨_, rfl⟩
        · rw [hkey]
          split_ifs
          · exact ⟨_, rfl⟩
          · exact ⟨_, rfl⟩

/-- A record that signs these files with the key has no problem. -/
theorem checkSignature_eq_nil {manifest record : Members}
    {manifestContent key signature : Bytes} {anchors anchorsBytes : Option Bytes}
    {publicKey : PyStr} (hsize : manifestContent.length ≤ maxManifestJsonBytes)
    (hpublic : record.get "public_key" = .str publicKey) (hkey : bytesFromHex publicKey = some key)
    (hrecord : recordProblems record publicKey publicKey = [])
    (hanchors : signedAnchors record anchors = .ok ([], anchorsBytes))
    (hdigest : digestProblems manifest record key = [])
    (hsignature : hexBytes (record.get "signature") 64 = some signature)
    (hverify : ed25519Verify key (signatureMessage manifestContent anchorsBytes) signature = true) :
    checkSignature manifest manifestContent anchors record publicKey = .ok [] := by
  have hread : readBoundedBytes manifestContent maxManifestJsonBytes = .ok manifestContent :=
    if_neg (by omega)
  unfold checkSignature
  simp [hpublic, Json.text?, orRaise, hrecord, hread, hanchors, hkey, hdigest, hsignature, hverify,
    issueUnless, Bind.bind, Except.bind]

end Icode
