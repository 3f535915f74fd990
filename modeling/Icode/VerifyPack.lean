import Icode.ArtifactBinding
import Icode.EngineeringReceipt
import Icode.EventChain
import Icode.PackSignature

/-!
# The verifier of a package

`verifyPack` (`verify_pack`) reads a package once : the manifest and the files it lists, the
directory, the signature and the anchors, the metadata, the contract, the receipts, the events and
the artifacts. It returns the problems it found, and a package is accepted when there are none.
-/

namespace Icode

open Py

/-! ## Limits -/

/-- `_MAX_METADATA_JSON_BYTES` -/
def maxMetadataJsonBytes : ℕ := 8 * 1024 * 1024

/-- `_MAX_MANIFEST_FILE_ENTRIES` -/
def maxManifestFileEntries : ℕ := 50000

/-- `_MAX_PACKAGE_HASH_READ_BYTES` -/
def maxPackageHashReadBytes : ℕ := 4 * 1024 * 1024 * 1024

/-- `EVENTS_REL` -/
def eventsRel : PyStr :=
  "ticket/events.jsonl"

/-- What `verify_pack` reports. -/
inductive PackProblem where
  /-- 清单包内路径无效（必须是普通文件） -/
  | manifestPath
  /-- 缺少清单文件 -/
  | manifestMissing
  /-- 清单文件不可解析 -/
  | manifestUnreadable (e : ControlError)
  /-- 清单 files 结构无效（必须是数组） -/
  | filesStructure
  /-- 清单 files 条目数量超过安全上限 -/
  | filesCount
  /-- 清单 files 为空 -/
  | filesEmpty
  /-- 清单 files 第 i 项结构无效（必须是对象） -/
  | entryStructure (i : ℕ)
  /-- 清单 files 第 i 项缺少有效 path 或 sha256 -/
  | entryFields (i : ℕ)
  /-- 清单 files 第 i 项 path 重复 -/
  | entryTwice (i : ℕ)
  /-- 清单文件项包内路径无效（必须是规范相对普通文件路径） -/
  | entryPath
  /-- 清单登记的文件缺失 -/
  | fileMissing (path : PyStr)
  /-- 清单登记的文件超过单文件安全上限 -/
  | fileSizeLimit
  /-- 事件链超过总输入字节数上限 -/
  | eventsSizeLimit
  /-- 清单登记的控制JSON超过输入字节上限 -/
  | controlSizeLimit
  /-- 证据包累计摘要读取超过安全上限 -/
  | readBudget
  /-- 文件内容与清单不符（疑似篡改） -/
  | fileDigest (path declared actual : PyStr)
  /-- 文件大小与清单不符 -/
  | fileSize (path : PyStr)
  /-- 包摘要不符（清单被改动过） -/
  | packDigest (declared : Json) (recomputed : PyStr)
  /-- 清单缺少 pack_digest -/
  | packDigestMissing
  /-- 证据包包含不允许的链接或特殊文件 -/
  | linkOrSpecial (path : PyStr)
  /-- 存在未登记的额外文件（清单未覆盖） -/
  | unlisted (path : PyStr)
  /-- 证据包目录条目数量超过安全上限 -/
  | entryLimit
  | signature (p : SignatureProblem)
  /-- 缺少签名文件 signature.json（--require-signature 要求签名） -/
  | signatureMissing
  /-- anchors.json 不可解析 -/
  | anchorsUnreadable (e : ControlError)
  | anchor (p : AnchorProblem)
  /-- 清单 ticket 结构无效（必须是对象） -/
  | ticketStructure
  /-- 清单 ticket.ticket_id 无效 -/
  | ticketId
  /-- 工单 metadata 包内路径无效（必须是普通文件） -/
  | metadataPath
  /-- 缺少工单 metadata -/
  | metadataMissing
  /-- 工单 metadata 不可解析 -/
  | metadataUnreadable (e : ControlError)
  /-- 工单 metadata.ticket_id 无效 -/
  | metadataTicketId
  /-- contracts.json 包内路径无效（必须是普通文件） -/
  | contractsPath
  /-- contracts.json 不可解析或超过安全上限 -/
  | contractsUnreadable (e : ControlError)
  /-- contracts.json state_machine 结构无效 -/
  | stateMachine (e : StateMachineError)
  /-- contracts.json execution_model 结构无效 -/
  | executionModel (e : ExecutionModelError)
  /-- 清单与工单 metadata 的 ticket_id 不一致 -/
  | otherTicket
  /-- verifications.json 包内路径无效（必须是普通文件） -/
  | verificationsPath
  /-- verifications.json 不可解析或工程回执语义无效 -/
  | verifications (e : ReceiptError)
  /-- 事件链包内路径无效（必须是普通文件） -/
  | eventsPath
  /-- 缺少事件链 -/
  | eventsMissing
  | chain (p : ChainProblem)
  | artifact (p : ArtifactProblem)

/-! ## The files of the manifest -/

/-- An entry of `files` that has a path and a digest. -/
structure FileEntry where
  path : PyStr
  sha256 : PyStr
  size : Json

/-- `manifest["files"]` as a list, with its problems. -/
def manifestFiles (manifest : Members) : List PackProblem × List Json :=
  let (problems, files) : List PackProblem × List Json :=
    match manifest.get "files" with
    | .null => ([], [])
    | .arr files => if maxManifestFileEntries < files.length then ([.filesCount], []) else ([], files)
    | _ => ([.filesStructure], [])
  (problems ++ issueUnless (!files.isEmpty) .filesEmpty, files)

/-- The entry of an item, when its path was not seen before. -/
def fileEntry (seen : List PyStr) (i : ℕ) : Json → Except PackProblem FileEntry
  | .obj item =>
    match Members.get item "path", Members.get item "sha256" with
    | .str path, .str sha256 =>
      if seen.contains path then .error (.entryTwice i)
      else .ok ⟨path, sha256, Members.get item "size"⟩
    | _, _ => .error (.entryFields i)
  | _ => .error (.entryStructure i)

/-- The loop over the items, which keeps the entries in order. -/
def fileEntries (seen : List PyStr) (i : ℕ) : List Json → List PackProblem × List FileEntry
  | [] => ([], [])
  | item :: items =>
    match fileEntry seen i item with
    | .error p =>
      let (problems, entries) := fileEntries seen (i + 1) items
      (p :: problems, entries)
    | .ok entry =>
      let (problems, entries) := fileEntries (entry.path :: seen) (i + 1) items
      (problems, entry :: entries)

/-- The limit of a control file, and `_MAX_PACKAGE_FILE_BYTES` otherwise, with the problem of a file
that exceeds it. -/
def fileLimit (rel : PyStr) : ℕ × PackProblem :=
  if rel = eventsRel then (maxEventChainTotalBytes, .eventsSizeLimit)
  else if rel = lit "ticket/metadata.json" then (maxMetadataJsonBytes, .controlSizeLimit)
  else if rel = lit "artifacts.json" then (maxArtifactIndexJsonBytes, .controlSizeLimit)
  else if rel = lit "contracts.json" then (maxContractsJsonBytes, .controlSizeLimit)
  else (maxPackageFileBytes, .fileSizeLimit)

/-- `isinstance(size, int) and target.stat().st_size != size`; a `bool` is an `int`. -/
def sizeDiffers (size : Json) (length : ℕ) : Bool :=
  match size with
  | .int n => n != length
  | .bool b => length != if b then 1 else 0
  | _ => false

/-- The body of the loop over the entries : the problems of one file, and what is left of the
budget, unless it is used up. -/
def checkFile (es : Directory) (remaining : ℕ) (entry : FileEntry) : List PackProblem × Option ℕ :=
  match memberPath es entry.path with
  | none => ([.entryPath], some remaining)
  | some path =>
    match fileAt es path with
    | none => ([.fileMissing entry.path], some remaining)
    | some content =>
      let (limit, problem) := fileLimit entry.path
      if maxPackageFileBytes < content.length then ([.fileSizeLimit], some remaining)
      else if limit < content.length then ([problem], some remaining)
      else
        match sha256File limit content remaining with
        | (.error .fileSize, remaining) => ([problem], some remaining)
        | (.error .readBudget, _) => ([.readBudget], none)
        | (.ok actual, remaining) =>
          (issueUnless (actual == entry.sha256) (.fileDigest entry.path entry.sha256 actual) ++
            issueUnless (!sizeDiffers entry.size content.length) (.fileSize entry.path),
            some remaining)

/-- The loop over the entries, which stops when the budget is used up. -/
def checkFiles (es : Directory) (remaining : ℕ) : List FileEntry → List PackProblem × Option ℕ
  | [] => ([], some remaining)
  | entry :: entries =>
    match checkFile es remaining entry with
    | (problems, none) => (problems, none)
    | (problems, some remaining) =>
      let (rest, remaining) := checkFiles es remaining entries
      (problems ++ rest, remaining)

/-- `pack_digest`. -/
def packDigest (entries : List FileEntry) : PyStr :=
  let material := entries.insertionSort fun a b => strLe a.path b.path
  sha256 (encodePass (Json.dumps (.arr (material.map fun e =>
    .obj [("path", .str e.path), ("sha256", .str e.sha256)]))))

/-- The declared digest of the package is that of the entries. -/
def digestDeclared (manifest : Members) (entries : List FileEntry) : List PackProblem :=
  let declared := manifest.get "pack_digest"
  if declared.truthy then
    issueUnless (declared.isText (packDigest entries)) (.packDigest declared (packDigest entries))
  else [.packDigestMissing]

/-! ## The directory -/

/-- What the walk says about one entry. -/
def walkProblems (entries : List FileEntry) (path : List PyStr) (kind : EntryKind) :
    List PackProblem :=
  let rel := relPath path
  if kind = .link ∨ kind = .special then [.linkOrSpecial rel]
  else
    issueUnless (path.getLast? == some (lit "manifest.json") ||
      (entries.any fun e => e.path == rel) ||
      rel == lit "signature.json" || rel == lit "anchors.json") (.unlisted rel)

/-- The files that are not listed. -/
def directoryProblems (es : Directory) (entries : List FileEntry) : List PackProblem :=
  let (found, complete) := walkPackageEntries es
  (found.flatMap fun (path, kind) => walkProblems entries path kind) ++
    issueUnless complete .entryLimit

/-! ## Signature and anchors -/

/-- The arguments of `verify_pack` beside the package. -/
structure VerifyArguments where
  publicKey : Option PyStr
  requireSignature : Bool

/-- The problems of `anchors.json` in a package without signature. -/
def anchorsProblems (manifest : Members) (content : Bytes) : List PackProblem :=
  match loadJsonFile content maxAnchorsJsonBytes with
  | .error e => [.anchorsUnreadable e]
  | .ok bundle => (validateAnchorBundle bundle (manifest.get "pack_digest")).map .anchor

/-- The part of `verify_pack` about signature and anchors. -/
def sealProblems (args : VerifyArguments) (es : Directory) (manifest : Members)
    (manifestContent : Bytes) : Except PackException (List PackProblem) :=
  let anchors := memberFile es "anchors.json"
  match memberFile es "signature.json" with
  | some signature =>
    (signatureProblems manifest manifestContent signature anchors args.publicKey).map fun ps =>
      ps.map .signature
  | none =>
    .ok (issueUnless (!args.requireSignature) .signatureMissing ++
      (anchors.map (anchorsProblems manifest)).getD [])

/-! ## The ticket -/

/-- A text that is not empty. -/
def nonemptyText? (v : Json) : Option PyStr :=
  v.text?.filter fun s => !s.isEmpty

/-- The `ticket_id` of the manifest. -/
def manifestTicket (manifest : Members) : List PackProblem × Option PyStr :=
  match manifest.get "ticket" with
  | .obj ticket =>
    let id := nonemptyText? (Members.get ticket "ticket_id")
    (issueUnless id.isSome .ticketId, id)
  | _ => ([.ticketStructure], none)

/-- The metadata of the ticket. -/
def ticketMetadata (es : Directory) : Except PackProblem Members :=
  match memberPath es "ticket/metadata.json" with
  | none => .error .metadataPath
  | some path =>
    match fileAt es path with
    | none => .error .metadataMissing
    | some content => (loadJsonObject content maxMetadataJsonBytes).mapError .metadataUnreadable

/-- What the snapshot of the contract says about the events. -/
structure ContractValues where
  stateMachine : Option Json
  executionModel : Option Json
  completionReceipt : Option Json

/-- A value that is not given has no problem, and a value that is not valid is not used. -/
def normalizedValue {ε α : Type} (normalize : Json → Except ε α) (toJson : α → Json)
    (problem : ε → PackProblem) (value : Json) : List PackProblem × Option Json :=
  match value with
  | .null => ([], none)
  | v =>
    match normalize v with
    | .ok a => ([], some (toJson a))
    | .error e => ([problem e], none)

/-- The values of the snapshot. -/
def contractValues (snapshot : Members) : List PackProblem × ContractValues :=
  let (machineProblems, machine) := normalizedValue normalizeTicketStateMachine StateMachine.toJson
    .stateMachine (snapshot.get "state_machine")
  let (modelProblems, model) := normalizedValue (normalizeExecutionModel · true)
    ExecutionModel.toJson .executionModel (snapshot.get "execution_model")
  (machineProblems ++ modelProblems, ⟨machine, model, Dict.get? snapshot "completion_receipt"⟩)

/-- `contracts.json`, which a package need not have. -/
def packContract (es : Directory) : List PackProblem × ContractValues :=
  match memberPath es "contracts.json" with
  | none => ([.contractsPath], ⟨none, none, none⟩)
  | some path =>
    match fileAt es path with
    | none => ([], ⟨none, none, none⟩)
    | some content =>
      match loadContractSnapshot content with
      | .error e => ([.contractsUnreadable e], ⟨none, none, none⟩)
      | .ok snapshot => contractValues snapshot

/-- `verifications.json`, which a package need not have. -/
def verificationsProblems (es : Directory) (ticketId : Option PyStr) : List PackProblem :=
  match memberPath es "verifications.json" with
  | none => [.verificationsPath]
  | some path =>
    match fileAt es path with
    | none => []
    | some content =>
      match loadVerificationsJson content ticketId with
      | .error e => [.verifications e]
      | .ok _ => []

/-- What is expected of the events. -/
def packExpectations (metadata : Except PackProblem Members) (contract : ContractValues) :
    Expectations :=
  match metadata with
  | .error _ =>
    { ticketId := none, eventMirrors := none, agentSpawns := none, metadataHash := none
      stateMachine := contract.stateMachine, executionModel := contract.executionModel
      completionReceipt := contract.completionReceipt, metadata := none }
  | .ok metadata =>
    expectationsOf (nonemptyText? (metadata.get "ticket_id")) metadata contract.stateMachine
      contract.executionModel contract.completionReceipt

/-- The problems of the ticket's metadata, its contract and its receipts. -/
def ticketProblems (es : Directory) (manifest : Members) : List PackProblem :=
  let (manifestProblems, manifestId) := manifestTicket manifest
  let metadata := ticketMetadata es
  let metadataId := metadata.toOption.bind fun ms => nonemptyText? (ms.get "ticket_id")
  let metadataProblems :=
    match metadata with
    | .error p => [p]
    | .ok _ => issueUnless metadataId.isSome .metadataTicketId
  manifestProblems ++ metadataProblems ++ (packContract es).1 ++
    issueUnless (manifestId.isNone || metadataId.isNone || manifestId == metadataId) .otherTicket ++
    verificationsProblems es metadataId

/-! ## The package -/

section Verify

variable (printable : CodePoint → Bool) (args : VerifyArguments) (es : Directory) (delivered : ℕ)

/-- The events and the artifacts; `remaining` is what is left of the budget, if it was not
exceeded. -/
def eventsProblems (remaining : Option ℕ) : Except PackException (List PackProblem) :=
  match memberPath es eventsRel with
  | none => .ok [.eventsPath]
  | some path =>
    match fileAt es path with
    | none => .ok [.eventsMissing]
    | some content => do
      let exp := packExpectations (ticketMetadata es) (packContract es).2
      let (facts, problems) ← (verifyEventChain printable exp content delivered).mapError .eventType
      .ok (problems.map .chain ++
        (remaining.map fun remaining =>
          (artifactBindingProblems printable es facts remaining).map .artifact).getD [])

/-- The entries of the manifest. -/
def manifestEntries (manifest : Members) : List PackProblem × List FileEntry :=
  let (problems, files) := manifestFiles manifest
  let (entryProblems, entries) := fileEntries [] 1 files
  (problems ++ entryProblems, entries)

/-- The part of `verify_pack` that follows the reading of the manifest. -/
def verifyManifest (manifest : Members) (manifestContent : Bytes) :
    Except PackException (List PackProblem) := do
  let (problems, entries) := manifestEntries manifest
  let (fileProblems, remaining) := checkFiles es maxPackageHashReadBytes entries
  let sealed ← sealProblems args es manifest manifestContent
  let events ← eventsProblems printable es delivered remaining
  .ok (problems ++ fileProblems ++ digestDeclared manifest entries ++ directoryProblems es entries ++
    sealed ++ ticketProblems es manifest ++ events)

end Verify

/-- `verify_pack`, for a package whose files can be opened and read; `delivered` is for the event
chain. -/
def verifyPack (printable : CodePoint → Bool) (args : VerifyArguments) (pack : Pack)
    (delivered : ℕ) : Except PackException (List PackProblem) :=
  match memberPath pack.entries "manifest.json" with
  | none => .ok [.manifestPath]
  | some path =>
    match fileAt pack.entries path with
    | none => .ok [.manifestMissing]
    | some content =>
      match loadJsonObject content maxManifestJsonBytes with
      | .error e => .ok [.manifestUnreadable e]
      | .ok manifest => verifyManifest printable args pack.entries delivered manifest content

/-! ## Accepted packages -/

section Accepted

variable {printable : CodePoint → Bool} {args : VerifyArguments} {pack : Pack} {delivered : ℕ}

/-- The manifest of a package that has one. -/
def packManifest? (es : Directory) : Option Members :=
  (memberFile es "manifest.json").bind fun content =>
    (loadJsonObject content maxManifestJsonBytes).toOption

/-- What every part of the verifier says about an accepted package. -/
structure AcceptedPack (printable : CodePoint → Bool) (args : VerifyArguments) (es : Directory)
    (delivered : ℕ) (manifest : Members) (content : Bytes) : Prop where
  loaded : memberFile es "manifest.json" = some content ∧
    loadJsonObject content maxManifestJsonBytes = .ok manifest
  entries : (manifestEntries manifest).1 = []
  digest : digestDeclared manifest (manifestEntries manifest).2 = []
  directory : directoryProblems es (manifestEntries manifest).2 = []
  sealed : sealProblems args es manifest content = .ok []
  ticket : ticketProblems es manifest = []
  files : ∃ remaining, checkFiles es maxPackageHashReadBytes (manifestEntries manifest).2 =
    ([], remaining) ∧ eventsProblems printable es delivered remaining = .ok []

theorem accepted_of_verifyPack (h : verifyPack printable args pack delivered = .ok []) :
    ∃ manifest content, AcceptedPack printable args pack.entries delivered manifest content := by
  unfold verifyPack at h
  split at h
  · simp at h
  next path hpath =>
  split at h
  · simp at h
  next content hcontent =>
  split at h
  · simp at h
  next manifest hmanifest =>
  have hfile : memberFile pack.entries "manifest.json" = some content := by
    rw [memberFile, hpath, Option.bind_some, hcontent]
  unfold verifyManifest at h
  simp only [bind_eq_ok] at h
  obtain ⟨sealed, hsealed, events, hevents, hall⟩ := h
  have hnil := Except.ok.inj hall
  simp only [List.append_eq_nil_iff] at hnil
  obtain ⟨⟨⟨⟨⟨⟨hentries, hfiles⟩, hdigest⟩, hdirectory⟩, rfl⟩, hticket⟩, rfl⟩ := hnil
  exact ⟨manifest, content, ⟨hfile, hmanifest⟩, hentries, hdigest, hdirectory, hsealed, hticket,
    _, Prod.ext hfiles rfl, hevents⟩

/-- A package is accepted when every part of the verifier says so. -/
theorem verifyPack_of_accepted {manifest : Members} {content : Bytes}
    (h : AcceptedPack printable args pack.entries delivered manifest content) :
    verifyPack printable args pack delivered = .ok [] := by
  obtain ⟨hfile, hload⟩ := h.loaded
  obtain ⟨path, hpath, hcontent⟩ := Option.bind_eq_some_iff.mp hfile
  obtain ⟨remaining, hfiles, hevents⟩ := h.files
  simp only [verifyPack, hpath, hcontent, hload, verifyManifest, hfiles, h.sealed, hevents,
    h.entries, h.digest, h.directory, h.ticket, Bind.bind, Except.bind, List.append_nil]

end Accepted

end Icode
