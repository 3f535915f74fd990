import Icode.VerifyPack

/-!
# What an accepted package contains

The files of an accepted package are those its manifest lists, with their digests, except for the
three files of the root that no manifest lists. The walk lets every file named `manifest.json`
pass, so this is so exactly when those below the root are listed too (`covered_iff`).
-/

namespace Icode

open Py

variable {printable : CodePoint → Bool} {args : VerifyArguments} {pack : Pack} {delivered : ℕ}
  {es : Directory} {manifest : Members} {content : Bytes} {entries : List FileEntry}

/-! ## The files -/

/-- `manifest.files` lists the path with the digest. -/
def Lists (manifest : Members) (rel digest : PyStr) : Prop :=
  ∃ files item, manifest.get "files" = .arr files ∧ .obj item ∈ files ∧
    Members.get item "path" = .str rel ∧ Members.get item "sha256" = .str digest

/-- The files of the root that no manifest lists. -/
def rootFiles : List (List PyStr) :=
  [[lit "manifest.json"], [lit "signature.json"], [lit "anchors.json"]]

/-- Every other file is listed with the digest of its content. -/
def Covered (es : Directory) (manifest : Members) : Prop :=
  ∀ path content, fileAt es path = some content → path ∉ rootFiles →
    Lists manifest (relPath path) (sha256 content)

/-- Every `manifest.json` below the root is listed. -/
def NestedManifestsListed (es : Directory) (manifest : Members) : Prop :=
  ∀ above, above ≠ [] → isFile es (above ++ [lit "manifest.json"]) = true →
    ∃ digest, Lists manifest (relPath (above ++ [lit "manifest.json"])) digest

theorem fileEntry_eq_ok {seen : List PyStr} {i : ℕ} {item : Json} {e : FileEntry}
    (h : fileEntry seen i item = .ok e) : ∃ ms, item = .obj ms ∧
      Members.get ms "path" = .str e.path ∧ Members.get ms "sha256" = .str e.sha256 := by
  unfold fileEntry at h
  split at h
  · next ms =>
    split at h
    · next path digest hpath hdigest =>
      split_ifs at h
      obtain rfl := Except.ok.inj h
      exact ⟨ms, rfl, hpath, hdigest⟩
    · simp at h
  · simp at h

/-- The items without problems are the entries. -/
theorem mem_fileEntries {e : FileEntry} : ∀ {seen : List PyStr} {i : ℕ} {items : List Json},
    e ∈ (fileEntries seen i items).2 → ∃ ms, .obj ms ∈ items ∧
      Members.get ms "path" = .str e.path ∧ Members.get ms "sha256" = .str e.sha256 := by
  intro seen i items
  induction items generalizing seen i with
  | nil => simp [fileEntries]
  | cons item items ih =>
    intro he
    unfold fileEntries at he
    split at he
    · obtain ⟨ms, hms, hget⟩ := ih he
      exact ⟨ms, List.mem_cons_of_mem _ hms, hget⟩
    · next entry hentry =>
      rcases List.mem_cons.mp he with rfl | he
      · obtain ⟨ms, rfl, hget⟩ := fileEntry_eq_ok hentry
        exact ⟨ms, List.mem_cons_self, hget⟩
      · obtain ⟨ms, hms, hget⟩ := ih he
        exact ⟨ms, List.mem_cons_of_mem _ hms, hget⟩

theorem exists_mem_fileEntries {ms : Members} : ∀ {seen : List PyStr} {i : ℕ} {items : List Json},
    (fileEntries seen i items).1 = [] → .obj ms ∈ items →
      ∃ e ∈ (fileEntries seen i items).2, Members.get ms "path" = .str e.path ∧
        Members.get ms "sha256" = .str e.sha256 := by
  intro seen i items
  induction items generalizing seen i with
  | nil => simp
  | cons item items ih =>
    intro h hms
    unfold fileEntries at h ⊢
    split at h
    · simp at h
    · next entry hentry =>
      rcases List.mem_cons.mp hms with rfl | hms
      · obtain ⟨ms', hobj, hget⟩ := fileEntry_eq_ok hentry
        obtain rfl := Json.obj.inj hobj
        exact ⟨entry, List.mem_cons_self, hget⟩
      · obtain ⟨e, he, hget⟩ := ih h hms
        exact ⟨e, List.mem_cons_of_mem _ he, hget⟩

/-- The entries of a manifest without problems are what it lists. -/
theorem lists_iff (h : (manifestEntries manifest).1 = []) {rel digest : PyStr} :
    Lists manifest rel digest ↔
      ∃ e ∈ (manifestEntries manifest).2, e.path = rel ∧ e.sha256 = digest := by
  unfold manifestEntries manifestFiles at h ⊢
  dsimp only at h ⊢
  rw [List.append_eq_nil_iff, List.append_eq_nil_iff] at h
  obtain ⟨⟨hfiles, hempty⟩, hentries⟩ := h
  split at hfiles
  · next hnull =>
    simp only [hnull, issueUnless_eq_nil] at hempty
    exact absurd hempty (by decide)
  · next files harr =>
    split_ifs at hfiles with hcount
    simp only [harr, if_neg hcount] at hentries ⊢
    constructor
    · rintro ⟨files', ms, harr', hms, hpath, hdigest⟩
      obtain rfl := Json.arr.inj (harr.symm.trans harr')
      obtain ⟨e, he, hpath', hdigest'⟩ := exists_mem_fileEntries hentries hms
      exact ⟨e, he, Json.str.inj (hpath'.symm.trans hpath),
        Json.str.inj (hdigest'.symm.trans hdigest)⟩
    · rintro ⟨e, he, rfl, rfl⟩
      obtain ⟨ms, hms, hget⟩ := mem_fileEntries he
      exact ⟨files, ms, harr, hms, hget⟩
  · simp at hfiles

/-- A file without problems has the digest of its entry, and does not use up the budget. -/
theorem file_of_checkFile {remaining : ℕ} {e : FileEntry} {rest : Option ℕ}
    (h : checkFile es remaining e = ([], rest)) :
    rest.isSome ∧ ∃ content, memberFile es e.path = some content ∧ sha256 content = e.sha256 := by
  unfold checkFile at h
  split at h
  · simp at h
  next path hpath =>
  split at h
  · simp at h
  next content hcontent =>
  dsimp only at h
  split_ifs at h
  · simp at h
  · simp at h
  · split at h
    · simp at h
    · simp at h
    · next actual k hactual =>
      obtain ⟨hnil, rfl⟩ := Prod.mk.inj h
      rw [List.append_eq_nil_iff, issueUnless_eq_nil, beq_iff_eq] at hnil
      refine ⟨rfl, content, ?_, (sha256File_eq_ok hactual).symm.trans hnil.1⟩
      rw [memberFile, hpath, Option.bind_some, hcontent]

/-- Every file of the entries has the digest of its entry. -/
theorem file_of_checkFiles {e : FileEntry} : ∀ {remaining : ℕ} {entries : List FileEntry}
    {rest : Option ℕ}, checkFiles es remaining entries = ([], rest) → e ∈ entries →
      ∃ content, memberFile es e.path = some content ∧ sha256 content = e.sha256 := by
  intro remaining entries
  induction entries generalizing remaining with
  | nil => simp
  | cons entry entries ih =>
    intro rest h he
    unfold checkFiles at h
    split at h
    · next problems hfile =>
      obtain ⟨rfl, -⟩ := Prod.mk.inj h
      exact absurd (file_of_checkFile hfile).1 (by simp)
    · next problems k hfile =>
      obtain ⟨hnil, hrest⟩ := Prod.mk.inj h
      obtain ⟨rfl, hnil⟩ := List.append_eq_nil_iff.mp hnil
      rcases List.mem_cons.mp he with rfl | he
      · exact (file_of_checkFile hfile).2
      · exact ih (Prod.ext hnil hrest) he

theorem memberFile_relPath (hs : (PackNode.directory es).Sorted) {path : List PyStr}
    {found : Bytes} (hfile : fileAt es path = some content)
    (hmember : memberFile es (relPath path) = some found) : found = content := by
  unfold memberFile at hmember
  obtain ⟨parts, hparts, hfound⟩ := Option.bind_eq_some_iff.mp hmember
  rw [eq_splitOn_of_memberPath hparts, splitOn_relPath hs hfile, hfile] at hfound
  exact (Option.some.inj hfound).symm

/-- The walk of a directory without problems finds a file that is listed or need not be. -/
theorem listed_of_directoryProblems (hs : (PackNode.directory es).Sorted)
    (h : directoryProblems es entries = []) {path : List PyStr}
    (hfile : fileAt es path = some content) (hroot : path ∉ rootFiles) :
    path.getLast? = some (lit "manifest.json") ∨ ∃ e ∈ entries, e.path = relPath path := by
  unfold directoryProblems at h
  dsimp only at h
  rw [List.append_eq_nil_iff, issueUnless_eq_nil, List.flatMap_eq_nil_iff] at h
  have hpath := h.1 _ (mem_walk_of_fileAt hfile h.2)
  simp only [walkProblems, reduceCtorEq, or_self, if_false, issueUnless_eq_nil, Bool.or_eq_true,
    beq_iff_eq, List.any_eq_true] at hpath
  have hname : ∀ name : PyStr, splitOn (.scalar '/') name = [name] → [name] ∈ rootFiles →
      relPath path ≠ name := by
    rintro name hsplit hmem rfl
    rw [splitOn_relPath hs hfile] at hsplit
    exact hroot (hsplit ▸ hmem)
  rcases hpath with ((hlast | hlisted) | hrel) | hrel
  · exact Or.inl hlast
  · exact Or.inr hlisted
  · exact absurd hrel (hname _ (by decide) (by simp [rootFiles]))
  · exact absurd hrel (hname _ (by decide) (by simp [rootFiles]))

/-- The manifest of an accepted package covers its files exactly when it lists every
`manifest.json` below the root. -/
theorem covered_iff (h : verifyPack printable args pack delivered = .ok []) :
    ∃ manifest, packManifest? pack.entries = some manifest ∧
      (Covered pack.entries manifest ↔ NestedManifestsListed pack.entries manifest) := by
  obtain ⟨manifest, content, haccepted⟩ := accepted_of_verifyPack h
  obtain ⟨hfile, hload⟩ := haccepted.loaded
  refine ⟨manifest, by simp [packManifest?, hfile, hload, Except.toOption], ?_, ?_⟩
  · intro hcovered above habove hnested
    obtain ⟨content, hcontent⟩ := Option.isSome_iff_exists.mp hnested
    refine ⟨_, hcovered _ content hcontent fun hroot => ?_⟩
    simp [rootFiles, List.append_eq_singleton_iff, habove] at hroot
  · intro hnested path content hcontent hroot
    have hlisted : ∃ e ∈ (manifestEntries manifest).2, e.path = relPath path := by
      rcases listed_of_directoryProblems pack.sorted haccepted.directory hcontent hroot with
        hlast | hlisted
      · obtain ⟨above, rfl⟩ := List.getLast?_eq_some_iff.mp hlast
        have habove : above ≠ [] := by
          rintro rfl
          exact hroot (by simp [rootFiles])
        obtain ⟨digest, hlists⟩ := hnested above habove (by simp [isFile, hcontent])
        obtain ⟨e, he, hpath, -⟩ := (lists_iff haccepted.entries).mp hlists
        exact ⟨e, he, hpath⟩
      · exact hlisted
    obtain ⟨e, he, hpath⟩ := hlisted
    obtain ⟨remaining, hfiles, -⟩ := haccepted.files
    obtain ⟨found, hfound, hdigest⟩ := file_of_checkFiles hfiles he
    rw [hpath] at hfound
    rw [memberFile_relPath pack.sorted hcontent hfound] at hdigest
    exact (lists_iff haccepted.entries).mpr ⟨e, he, hpath, hdigest.symm⟩

/-! ### A sample package -/

/-- The package is accepted. -/
def isAcceptedPack (args : VerifyArguments) (pack : Pack) : Bool :=
  match verifyPack (fun _ => true) args pack 0 with
  | .ok problems => problems.isEmpty
  | .error _ => false

theorem verifyPack_of_isAcceptedPack (h : isAcceptedPack args pack = true) :
    verifyPack (fun _ => true) args pack 0 = .ok [] := by
  unfold isAcceptedPack at h
  split at h
  · next problems heq => rw [heq, List.isEmpty_iff.mp h]
  · cases h

/-- The manifest of the ticket `t1` that lists the files. -/
def sampleManifest (files : List (PyStr × Bytes)) : Bytes :=
  let entries : List FileEntry := files.map fun (path, content) => ⟨path, sha256 content, .null⟩
  encodePass (Json.dumps (.obj [
    ("files", .arr (entries.map fun e =>
      .obj [("path", .str e.path), ("sha256", .str e.sha256)])),
    ("pack_digest", .str (packDigest entries)),
    ("ticket", .obj [("ticket_id", .str "t1")])]))

def sampleMetadata : Bytes :=
  encodePass (Json.dumps (.obj [("ticket_id", .str "t1")]))

/-- The files of a ticket without events. -/
def sampleFiles : List (PyStr × Bytes) :=
  [("ticket/metadata.json", sampleMetadata), (eventsRel, [])]

def sampleTicket : PackNode :=
  .directory [("events.jsonl", .file []), ("metadata.json", .file sampleMetadata)]

/-- A file below the root has the name of the manifest. -/
def nestedPack : Pack where
  entries :=
    [("manifest.json", .file (sampleManifest sampleFiles)), ("ticket", sampleTicket),
      ("x", .directory [("manifest.json", .file [])])]
  sorted := by
    simp only [PackNode.Sorted, EntriesSorted, sampleTicket]
    decide

/-- An index that names a digest, in a package whose events record none. -/
def unboundIndex : Bytes :=
  encodePass (Json.dumps (.obj [("artifacts", .arr [
    .obj [("snapshot", .str "a.txt"), ("chain_sha256", .str "00")]])]))

def unboundPack : Pack where
  entries :=
    [("artifacts.json", .file unboundIndex),
      ("manifest.json", .file (sampleManifest (("artifacts.json", unboundIndex) :: sampleFiles))),
      ("ticket", sampleTicket)]
  sorted := by
    simp only [PackNode.Sorted, EntriesSorted, sampleTicket]
    decide

/-- A package whose ledger is empty. -/
def blankPack : Pack where
  entries := [("manifest.json", .file (sampleManifest sampleFiles)), ("ticket", sampleTicket)]
  sorted := by
    simp only [PackNode.Sorted, EntriesSorted, sampleTicket]
    decide

/-- The key of the sample signature. -/
def sampleKey : PyStr :=
  [0xd75a9801, 0x82b10ab7, 0xd54bfed3, 0xc964073a, 0x0ee172f3, 0xdaa62325, 0xaf021a68,
    0xf707511a].flatMap hexWord

/-- The signature of a package whose `anchors.json` is an empty list. -/
def sampleSignature : Bytes :=
  encodePass (Json.dumps (.obj [
    ("schema_version", .int 1), ("algorithm", .str "ed25519"), ("public_key", .str sampleKey),
    ("signature", .str ([0x287e30bf, 0x957b1d2b, 0x057a6027, 0x3f2c4cd0, 0xc0ce32b2, 0x957fe60f,
      0x9a4a4f7d, 0x78a5605a, 0x0911a345, 0x535823eb, 0xddec16a1, 0x727ac711, 0x761694a0,
      0xbcc9d3dd, 0x1b00a083, 0xa3efc503].flatMap hexWord)),
    ("key_fingerprint", .str ([0x21fe31df, 0xa154a261].flatMap hexWord)),
    ("signed_object", .str "manifest.json"),
    ("signed_digest", .str ([0xb8146902, 0x5a6de8bc, 0x24723fde, 0x630ff53e, 0xfabe8d8f,
      0x80af1ab1, 0x285c1d22, 0x7e391f6c].flatMap hexWord)),
    ("anchors_included", .bool true), ("signed_at", .str "2026-01-01T00:00:00Z")]))

def signedPack : Pack where
  entries :=
    [("anchors.json", .file (encodePass (lit "[]"))),
      ("manifest.json", .file (sampleManifest sampleFiles)),
      ("signature.json", .file sampleSignature), ("ticket", sampleTicket)]
  sorted := by
    simp only [PackNode.Sorted, EntriesSorted, sampleTicket]
    decide

/-- The events of a package. -/
def packEvents (es : Directory) (delivered : ℕ) : List Members :=
  ((memberFile es eventsRel).map fun content => eventsOf content delivered).getD []

/-- The paths of the manifest. -/
def listedPaths (manifest : Members) : List PyStr :=
  (manifestEntries manifest).2.map FileEntry.path

/-- The manifest and the files it lists have no problem. -/
def manifestAccepted (es : Directory) (manifest : Members) : Bool :=
  let entries := (manifestEntries manifest).2
  (manifestEntries manifest).1.isEmpty && (digestDeclared manifest entries).isEmpty &&
    (directoryProblems es entries).isEmpty && (ticketProblems es manifest).isEmpty &&
    (checkFiles es maxPackageHashReadBytes entries).1.isEmpty

/-- The events are accepted, and record no artifact. -/
def eventsAccepted (es : Directory) : Bool :=
  (memberFile es eventsRel).any fun content =>
    let exp := packExpectations (ticketMetadata es) (packContract es).2
    match verifyEventChain (fun _ => true) exp content 0 with
    | .ok ([], []) => true
    | _ => false

/-- Events that record no artifact leave nothing to be read. -/
theorem eventsProblems_of_eventsAccepted (h : eventsAccepted es = true) (remaining : Option ℕ) :
    eventsProblems (fun _ => true) es 0 remaining = .ok [] := by
  obtain ⟨content, hcontent, hchain⟩ := (Option.any_eq_true _ _).mp h
  obtain ⟨path, hpath, hfile⟩ := Option.bind_eq_some_iff.mp hcontent
  dsimp only at hchain
  split at hchain
  · next hverify =>
    cases remaining <;>
      simp [eventsProblems, hpath, hfile, hverify, artifactBindingProblems, Except.mapError,
        Bind.bind, Except.bind]
  · cases hchain

/-- A package is accepted when its parts are. -/
theorem verifyPack_of_parts
    (hfile : memberFile pack.entries "manifest.json" = some content)
    (hload : loadJsonObject content maxManifestJsonBytes = .ok manifest)
    (hparts : manifestAccepted pack.entries manifest = true)
    (hsealed : sealProblems args pack.entries manifest content = .ok [])
    (hevents : eventsAccepted pack.entries = true) :
    verifyPack (fun _ => true) args pack 0 = .ok [] := by
  simp only [manifestAccepted, Bool.and_eq_true, List.isEmpty_iff] at hparts
  obtain ⟨⟨⟨⟨hentries, hdigest⟩, hdirectory⟩, hticket⟩, hfiles⟩ := hparts
  exact verifyPack_of_accepted {
    loaded := ⟨hfile, hload⟩
    entries := hentries
    digest := hdigest
    directory := hdirectory
    sealed := hsealed
    ticket := hticket
    files := ⟨_, Prod.ext hfiles rfl, eventsProblems_of_eventsAccepted hevents _⟩ }

/-- The signature of the sample, as its record holds it. -/
def sampleSignatureText : PyStr :=
  [0x287e30bf, 0x957b1d2b, 0x057a6027, 0x3f2c4cd0, 0xc0ce32b2, 0x957fe60f, 0x9a4a4f7d, 0x78a5605a,
    0x0911a345, 0x535823eb, 0xddec16a1, 0x727ac711, 0x761694a0, 0xbcc9d3dd, 0x1b00a083,
    0xa3efc503].flatMap hexWord

/-- The digest of the package, as the record holds it. -/
def sampleSignedDigest : PyStr :=
  [0xb8146902, 0x5a6de8bc, 0x24723fde, 0x630ff53e, 0xfabe8d8f, 0x80af1ab1, 0x285c1d22,
    0x7e391f6c].flatMap hexWord

/-- The record is one of the sample key about the digest. -/
def recordAccepted (record : Members) : Bool :=
  Members.keysAre record signatureFields && (recordProblems record sampleKey sampleKey).isEmpty &&
    (record.get "public_key").isText sampleKey &&
    (record.get "signature").isText sampleSignatureText &&
    (record.get "anchors_included" matches .bool true) &&
    (bytesFromHex sampleKey).any fun key =>
      (digestProblems [("pack_digest", .str sampleSignedDigest)] record key).isEmpty

/-- The signature is one of the manifest and the empty list. -/
def signatureAccepted : Bool :=
  (bytesFromHex sampleKey).any fun key =>
    (hexBytes (.str sampleSignatureText) 64).any fun signature =>
      ed25519Verify key (signatureMessage (sampleManifest sampleFiles)
        (some (encodePass (lit "[]")))) signature

/-- All that the packages are evaluated for, one part after the other. -/
theorem samplePacks_run :
    ((loadJsonObject (sampleManifest sampleFiles) maxManifestJsonBytes).toOption.any fun manifest =>
      manifestAccepted nestedPack.entries manifest && manifestAccepted signedPack.entries manifest &&
        manifestAccepted blankPack.entries manifest &&
        listedPaths manifest == [lit "ticket/metadata.json", eventsRel] &&
        (manifest.get "pack_digest").isText sampleSignedDigest &&
        sampleSignedDigest == packDigest (sampleFiles.map fun (path, content) =>
          ⟨path, sha256 content, .null⟩)) = true ∧
    (eventsAccepted nestedPack.entries && eventsAccepted signedPack.entries &&
      eventsAccepted blankPack.entries && (packEvents blankPack.entries 0).isEmpty) = true ∧
    (isAcceptedPack ⟨none, false⟩ unboundPack && (packEvents unboundPack.entries 0).isEmpty &&
      (artifactItems unboundPack.entries).any fun
        | .obj item => chainDigest (fun _ => true) item == lit "00"
        | _ => false) = true ∧
    ((loadJsonObject sampleSignature maxSignatureJsonBytes).toOption.any recordAccepted) = true ∧
    (decide ((sampleManifest sampleFiles).length ≤ maxManifestJsonBytes) && signatureAccepted) =
      true ∧
    ((loadJsonFile (encodePass (lit "[]")) maxAnchorsJsonBytes).toOption.any Json.isObj) = false := by
  refine ⟨?_, ?_, ?_, ?_, ?_, ?_⟩ <;> decide +kernel

theorem exists_of_toOption_any {ε α : Type} {x : Except ε α} {p : α → Bool}
    (h : x.toOption.any p = true) : ∃ a, x = .ok a ∧ p a = true := by
  cases x with
  | error e => simp [Except.toOption] at h
  | ok a => exact ⟨a, rfl, h⟩

/-- The manifest that the packages without an index have in common. -/
theorem exists_sampleManifest : ∃ manifest,
    loadJsonObject (sampleManifest sampleFiles) maxManifestJsonBytes = .ok manifest ∧
      manifestAccepted nestedPack.entries manifest = true ∧
      manifestAccepted signedPack.entries manifest = true ∧
      manifestAccepted blankPack.entries manifest = true ∧
      listedPaths manifest = [lit "ticket/metadata.json", eventsRel] ∧
      manifest.get "pack_digest" = .str sampleSignedDigest ∧
      sampleSignedDigest = packDigest (sampleFiles.map fun (path, content) =>
        ⟨path, sha256 content, .null⟩) := by
  obtain ⟨manifest, hload, hparts⟩ := exists_of_toOption_any samplePacks_run.1
  simp only [Bool.and_eq_true, beq_iff_eq, Json.isText_iff] at hparts
  obtain ⟨⟨⟨⟨⟨hnested, hsigned⟩, hblank⟩, hpaths⟩, hdigest⟩, hsame⟩ := hparts
  exact ⟨manifest, hload, hnested, hsigned, hblank, hpaths, hdigest, hsame⟩

theorem verifyPack_nestedPack : verifyPack (fun _ => true) ⟨none, false⟩ nestedPack 0 = .ok [] := by
  obtain ⟨manifest, hload, hnested, -⟩ := exists_sampleManifest
  have hevents := samplePacks_run.2.1
  simp only [Bool.and_eq_true] at hevents
  exact verifyPack_of_parts rfl hload hnested rfl hevents.1.1.1

theorem verifyPack_blankPack : verifyPack (fun _ => true) ⟨none, false⟩ blankPack 0 = .ok [] := by
  obtain ⟨manifest, hload, -, -, hblank, -⟩ := exists_sampleManifest
  have hevents := samplePacks_run.2.1
  simp only [Bool.and_eq_true] at hevents
  exact verifyPack_of_parts rfl hload hblank rfl hevents.1.2

theorem packEvents_blankPack : packEvents blankPack.entries 0 = [] := by
  have hevents := samplePacks_run.2.1
  rw [Bool.and_eq_true, List.isEmpty_iff] at hevents
  exact hevents.2

/-- The seal of the signed package has no problem. -/
theorem sealProblems_signedPack (hdigest : manifest.get "pack_digest" = .str sampleSignedDigest) :
    sealProblems ⟨some sampleKey, true⟩ signedPack.entries manifest (sampleManifest sampleFiles) =
      .ok [] := by
  obtain ⟨-, -, -, hrecord, hverify, -⟩ := samplePacks_run
  obtain ⟨record, hrecord, hchecks⟩ := exists_of_toOption_any hrecord
  rw [Bool.and_eq_true, decide_eq_true_iff] at hverify
  obtain ⟨hlength, hverify⟩ := hverify
  obtain ⟨key, hkey, hverify⟩ := (Option.any_eq_true _ _).mp hverify
  obtain ⟨signature, hsignature, hverify⟩ := (Option.any_eq_true _ _).mp hverify
  simp only [recordAccepted, Bool.and_eq_true, List.isEmpty_iff, Json.isText_iff, hkey,
    Option.any_some] at hchecks
  obtain ⟨⟨⟨⟨⟨hfields, hproblems⟩, hpublic⟩, htext⟩, hincluded⟩, hdigests⟩ := hchecks
  have hanchors : signedAnchors record (some (encodePass (lit "[]"))) =
      .ok ([], some (encodePass (lit "[]"))) := by
    split at hincluded
    · next htrue =>
      unfold signedAnchors
      rw [htrue]
      rfl
    · cases hincluded
  have hdigests : digestProblems manifest record key = [] := by
    rw [← hdigests, digestProblems, digestProblems, hdigest]
    rfl
  have hcheck := checkSignature_eq_nil hlength hpublic hkey hproblems hanchors hdigests
    (htext ▸ hsignature) hverify
  have hfile : memberFile signedPack.entries "signature.json" = some sampleSignature := rfl
  have hlist : memberFile signedPack.entries "anchors.json" = some (encodePass (lit "[]")) := rfl
  have hhex : isHexText 64 sampleKey = true := by decide
  simp only [sealProblems, hfile, hlist, signatureProblems, Option.filter_some, hhex, if_true,
    loadJsonObject_eq_ok.mp hrecord, hfields, Bool.not_true, Bool.false_eq_true, if_false, hcheck]
  rfl

theorem verifyPack_signedPack :
    verifyPack (fun _ => true) ⟨some sampleKey, true⟩ signedPack 0 = .ok [] := by
  obtain ⟨manifest, hload, -, hsigned, -, -, hdigest, -⟩ := exists_sampleManifest
  have hevents := samplePacks_run.2.1
  simp only [Bool.and_eq_true] at hevents
  exact verifyPack_of_parts rfl hload hsigned (sealProblems_signedPack hdigest) hevents.1.1.2

theorem verifyPack_unboundPack :
    verifyPack (fun _ => true) ⟨none, false⟩ unboundPack 0 = .ok [] := by
  have hrun := samplePacks_run.2.2.1
  simp only [Bool.and_eq_true] at hrun
  exact verifyPack_of_isAcceptedPack hrun.1.1

theorem covered_iff_nestedPack :
    ∃ manifest, packManifest? nestedPack.entries = some manifest ∧
      (Covered nestedPack.entries manifest ↔
        NestedManifestsListed nestedPack.entries manifest) :=
  covered_iff verifyPack_nestedPack

/-- The verifier accepts a file that no entry lists. -/
theorem nestedPack_accepted :
    verifyPack (fun _ => true) ⟨none, false⟩ nestedPack 0 = .ok [] ∧
      ∃ manifest, packManifest? nestedPack.entries = some manifest ∧
        ¬ Covered nestedPack.entries manifest := by
  have haccepted := verifyPack_nestedPack
  obtain ⟨manifest, content, hparts⟩ := accepted_of_verifyPack haccepted
  obtain ⟨hfile, hload⟩ := hparts.loaded
  have hmanifest : packManifest? nestedPack.entries = some manifest := by
    simp [packManifest?, hfile, hload, Except.toOption]
  refine ⟨haccepted, manifest, hmanifest, fun hcovered => ?_⟩
  obtain ⟨manifest', hload', -, -, -, hpaths, -⟩ := exists_sampleManifest
  have hcontent : content = sampleManifest sampleFiles := Option.some.inj (hfile.symm.trans rfl)
  rw [← hcontent, hload] at hload'
  obtain rfl := Except.ok.inj hload'
  have hlists := hcovered [lit "x", lit "manifest.json"] [] (by rfl) (by decide)
  obtain ⟨e, he, hpath, -⟩ := (lists_iff hparts.entries).mp hlists
  have hmem : e.path ∈ listedPaths manifest := List.mem_map_of_mem he
  rw [hpaths, hpath] at hmem
  revert hmem
  decide

/-! ## The artifacts -/

/-- The digest an event records, as the text that is looked up. -/
def recordedDigest? (printable : CodePoint → Bool) (event : Members) : Option PyStr :=
  (artifactFact? printable event).map Prod.fst

/-- Every digest of the chain has a snapshot in the package. -/
def DigestsBound (printable : CodePoint → Bool) (es : Directory) (events : List Members) : Prop :=
  ∀ event ∈ events, ∀ digest, recordedDigest? printable event = some digest →
    ∃ value ∈ artifactItems es, HasSnapshot es value digest

/-- Every digest that `artifacts.json` names is one of the chain, and that of its snapshot. -/
def EntriesBound (printable : CodePoint → Bool) (es : Directory) (events : List Members) : Prop :=
  ∀ item, .obj item ∈ artifactItems es → chainDigest printable item ≠ [] →
    (∃ event ∈ events, recordedDigest? printable event = some (chainDigest printable item)) ∧
      HasSnapshot es (.obj item) (chainDigest printable item)

/-- The verifier keeps the digests that the events record. -/
theorem has_artifactFacts {exp : Expectations} {s' : ChainState} {digest : PyStr} :
    ∀ {events : List (ℕ × Members)} {s : ChainState},
      consumeEvents printable exp s events = .ok s' →
        (Dict.has s'.artifactFacts digest = true ↔ Dict.has s.artifactFacts digest = true ∨
          ∃ e ∈ events, recordedDigest? printable e.2 = some digest) := by
  intro events
  induction events with
  | nil =>
    intro s h
    obtain rfl := Except.ok.inj h
    simp
  | cons e events ih =>
    intro s h
    obtain ⟨k, hk, hrest⟩ := consumeEvents_cons.mp h
    obtain ⟨x, -, rfl⟩ := ChainState.consume_eq_ok.mp hk
    have hstep : Dict.has (s.step printable exp e.2 x).artifactFacts digest = true ↔
        Dict.has s.artifactFacts digest = true ∨ recordedDigest? printable e.2 = some digest := by
      simp only [ChainState.step, recordedDigest?]
      cases artifactFact? printable e.2 with
      | none => simp
      | some fact =>
        obtain ⟨d, path⟩ := fact
        simp only [Dict.has_set, Bool.or_eq_true, decide_eq_true_eq, Option.map_some,
          Option.some.injEq]
        rw [or_comm, eq_comm (a := digest)]
    rw [ih hrest, hstep, or_assoc]
    simp

/-- What an accepted package has for its events. -/
theorem exists_of_eventsProblems {remaining : Option ℕ}
    (h : eventsProblems printable es delivered remaining = .ok []) :
    ∃ content facts, memberFile es eventsRel = some content ∧
      verifyEventChain printable (packExpectations (ticketMetadata es) (packContract es).2) content
        delivered = .ok (facts, []) ∧
      ∀ r, remaining = some r → artifactBindingProblems printable es facts r = [] := by
  unfold eventsProblems at h
  split at h
  · simp at h
  next path hpath =>
  split at h
  · simp at h
  next content hcontent =>
  rw [bind_eq_ok] at h
  obtain ⟨⟨facts, problems⟩, hchain, hnil⟩ := h
  rw [mapError_eq_ok] at hchain
  have hall := List.append_eq_nil_iff.mp (Except.ok.inj hnil)
  obtain rfl := List.map_eq_nil_iff.mp hall.1
  refine ⟨content, facts, by rw [memberFile, hpath, Option.bind_some, hcontent], hchain, ?_⟩
  rintro r rfl
  exact List.map_eq_nil_iff.mp hall.2

theorem isSome_of_checkFiles {rest : Option ℕ} : ∀ {remaining : ℕ} {entries : List FileEntry},
    checkFiles es remaining entries = ([], rest) → rest.isSome = true := by
  intro remaining entries
  induction entries generalizing remaining with
  | nil =>
    intro h
    rw [← (Prod.mk.inj h).2]
    rfl
  | cons entry entries ih =>
    intro h
    unfold checkFiles at h
    split at h
    · next problems hfile =>
      obtain ⟨rfl, -⟩ := Prod.mk.inj h
      exact absurd (file_of_checkFile hfile).1 (by simp)
    · next problems k hfile =>
      obtain ⟨hnil, hrest⟩ := Prod.mk.inj h
      exact ih (Prod.ext (List.append_eq_nil_iff.mp hnil).2 hrest)

/-- The artifacts of an accepted package are bound to its events in both directions, exactly when
an event records a digest or no entry of the index names one. -/
theorem artifactsBound_iff (h : verifyPack printable args pack delivered = .ok []) :
    (DigestsBound printable pack.entries (packEvents pack.entries delivered) ∧
        EntriesBound printable pack.entries (packEvents pack.entries delivered)) ↔
      (∃ event ∈ packEvents pack.entries delivered, (recordedDigest? printable event).isSome) ∨
        ∀ item, .obj item ∈ artifactItems pack.entries → chainDigest printable item = [] := by
  obtain ⟨manifest, _, haccepted⟩ := accepted_of_verifyPack h
  obtain ⟨remaining, hfiles, hevents⟩ := haccepted.files
  obtain ⟨left, rfl⟩ := Option.isSome_iff_exists.mp (isSome_of_checkFiles hfiles)
  obtain ⟨content, facts, hfile, hchain, hbinding⟩ := exists_of_eventsProblems hevents
  obtain ⟨-, s, hrun, -, rfl⟩ := exists_of_verifyEventChain hchain
  have hpack : packEvents pack.entries delivered = eventsOf content delivered := by
    rw [packEvents, hfile, Option.map_some, Option.getD_some]
  have hfacts : ∀ digest, Dict.has s.artifactFacts digest = true ↔
      ∃ event ∈ packEvents pack.entries delivered, recordedDigest? printable event = some digest := by
    intro digest
    have hinit : ∀ exp : Expectations, Dict.has (ChainState.init exp).artifactFacts digest = false :=
      fun _ => rfl
    simp only [has_artifactFacts hrun, hinit, Bool.false_eq_true, false_or, hpack, eventsOf]
    constructor
    · rintro ⟨e, he, hdigest⟩
      exact ⟨e.2, List.mem_map_of_mem he, hdigest⟩
    · rintro ⟨event, hevent, hdigest⟩
      obtain ⟨e, he, rfl⟩ := List.mem_map.mp hevent
      exact ⟨e, he, hdigest⟩
  constructor
  · rintro ⟨-, hentries⟩
    by_contra hneither
    simp only [not_or, not_exists, not_and, not_forall, exists_prop] at hneither
    obtain ⟨hnone, item, hitem, hchain⟩ := hneither
    obtain ⟨⟨event, hevent, hdigest⟩, -⟩ := hentries item hitem hchain
    exact hnone event hevent (by rw [hdigest]; rfl)
  · intro hcondition
    by_cases hempty : s.artifactFacts = []
    · have hnone : ∀ event ∈ packEvents pack.entries delivered, ∀ digest,
          recordedDigest? printable event ≠ some digest := by
        intro event hevent digest hdigest
        have := (hfacts digest).mpr ⟨event, hevent, hdigest⟩
        simp [hempty, Dict.has] at this
      refine ⟨fun event hevent digest hdigest => absurd hdigest (hnone event hevent digest),
        fun item hitem hchain => ?_⟩
      rcases hcondition with ⟨event, hevent, hsome⟩ | hall
      · obtain ⟨digest, hdigest⟩ := Option.isSome_iff_exists.mp hsome
        exact absurd hdigest (hnone event hevent digest)
      · exact absurd (hall item hitem) hchain
    · obtain ⟨hbound, hnames⟩ := bound_of_artifactBindingProblems hempty (hbinding left rfl)
      refine ⟨fun event hevent digest hdigest =>
        hbound digest ((hfacts digest).mpr ⟨event, hevent, hdigest⟩), fun item hitem hchain => ?_⟩
      obtain ⟨hsnapshot, hknown⟩ := hnames _ hitem item rfl hchain
      exact ⟨(hfacts _).mp hknown, hsnapshot⟩

theorem artifactsBound_iff_unboundPack :
    (DigestsBound (fun _ => true) unboundPack.entries (packEvents unboundPack.entries 0) ∧
        EntriesBound (fun _ => true) unboundPack.entries (packEvents unboundPack.entries 0)) ↔
      (∃ event ∈ packEvents unboundPack.entries 0, (recordedDigest? (fun _ => true) event).isSome) ∨
        ∀ item, .obj item ∈ artifactItems unboundPack.entries →
          chainDigest (fun _ => true) item = [] :=
  artifactsBound_iff verifyPack_unboundPack

/-- The verifier accepts an entry that names a digest no event records. -/
theorem unboundPack_accepted :
    verifyPack (fun _ => true) ⟨none, false⟩ unboundPack 0 = .ok [] ∧
      ¬ EntriesBound (fun _ => true) unboundPack.entries (packEvents unboundPack.entries 0) := by
  refine ⟨verifyPack_unboundPack, fun hentries => ?_⟩
  have hrun := samplePacks_run.2.2.1
  simp only [Bool.and_eq_true] at hrun
  obtain ⟨⟨-, hempty⟩, hitems⟩ := hrun
  have hevents : packEvents unboundPack.entries 0 = [] := List.isEmpty_iff.mp hempty
  obtain ⟨value, hvalue, hchain⟩ := List.any_eq_true.mp hitems
  split at hchain
  · next item =>
    have hne : chainDigest (fun _ => true) item ≠ [] := by
      rw [eq_of_beq hchain]
      decide
    obtain ⟨⟨event, hevent, -⟩, -⟩ := hentries item hvalue hne
    simp [hevents] at hevent
  · simp at hchain

/-! ## The anchors -/

/-- `anchors.json` is a bundle whose records are those of this package. -/
def AnchorsValid (manifest : Members) (content : Bytes) : Prop :=
  ∃ bundle, loadJsonFile content maxAnchorsJsonBytes = .ok bundle ∧
    validateAnchorBundle bundle (manifest.get "pack_digest") = []

theorem anchorsValid_of_anchorsProblems (h : anchorsProblems manifest content = []) :
    AnchorsValid manifest content := by
  unfold anchorsProblems at h
  split at h
  · simp at h
  · next bundle hload => exact ⟨bundle, hload, List.map_eq_nil_iff.mp h⟩

theorem anchorsValid_of_sealProblems {manifestContent : Bytes}
    (h : sealProblems args es manifest manifestContent = .ok [])
    (hunsigned : memberFile es "signature.json" = none)
    (hanchors : memberFile es "anchors.json" = some content) : AnchorsValid manifest content := by
  simp only [sealProblems, hunsigned, hanchors, Option.map_some, Option.getD_some] at h
  exact anchorsValid_of_anchorsProblems (List.append_eq_nil_iff.mp (Except.ok.inj h)).2

theorem not_anchorsValid_emptyList : ¬ AnchorsValid manifest (encodePass (lit "[]")) := by
  rintro ⟨bundle, hload, hvalid⟩
  have hobj := samplePacks_run.2.2.2.2.2
  obtain ⟨-, ms, -, -, -, rfl, -⟩ := target_of_validateAnchorBundle hvalid
  simp [hload, Except.toOption, Json.isObj] at hobj

/-- The anchors of an accepted package are those of the package, exactly among the packages without
a signature. -/
theorem anchorsValid_iff_unsigned (signed : Bool) :
    (∀ printable args (pack : Pack) delivered content,
      verifyPack printable args pack delivered = .ok [] →
        (memberFile pack.entries "signature.json").isSome = signed →
          memberFile pack.entries "anchors.json" = some content →
            ∃ manifest, packManifest? pack.entries = some manifest ∧
              AnchorsValid manifest content) ↔ signed = false := by
  constructor
  · intro hall
    by_contra hsigned
    rw [Bool.not_eq_false] at hsigned
    obtain ⟨manifest, -, hvalid⟩ := hall _ _ signedPack 0 _
      verifyPack_signedPack (hsigned ▸ rfl) rfl
    exact not_anchorsValid_emptyList hvalid
  · rintro rfl printable args pack delivered content h hunsigned hanchors
    obtain ⟨manifest, manifestContent, haccepted⟩ := accepted_of_verifyPack h
    obtain ⟨hfile, hload⟩ := haccepted.loaded
    rw [Option.isSome_eq_false_iff, Option.isNone_iff_eq_none] at hunsigned
    exact ⟨manifest, by simp [packManifest?, hfile, hload, Except.toOption],
      anchorsValid_of_sealProblems haccepted.sealed hunsigned hanchors⟩

/-- The verifier accepts a signed package whose anchors are none. -/
theorem signedPack_accepted :
    verifyPack (fun _ => true) ⟨some sampleKey, true⟩ signedPack 0 = .ok [] ∧
      memberFile signedPack.entries "anchors.json" = some (encodePass (lit "[]")) ∧
        ∀ manifest, ¬ AnchorsValid manifest (encodePass (lit "[]")) :=
  ⟨verifyPack_signedPack, rfl,
    fun _ => not_anchorsValid_emptyList⟩

end Icode
