import Icode.AddedFile
import Icode.BirthRules
import Icode.JsonBudget
import Icode.JsonPlain
import Icode.Utf8

/-!
# Attaching anchor records

`attachAnchorRecords` (`attach_anchor_records`) writes the records of a package that is not signed
yet to `anchors.json`, with the checks of the verifier but without its limits : the verifier reads
at most 256 KiB of that file, and at most 100000 entries of the package. An accepted package is
accepted with the records exactly when both limits leave room for them (`attached_accepted_iff`).
-/

namespace Icode

open Py

/-! ## Reading the manifest -/

/-- The line ends of a file that is read as a text. -/
def universalNewlines : PyStr → PyStr
  | .scalar '\r' :: .scalar '\n' :: s => .scalar '\n' :: universalNewlines s
  | .scalar '\r' :: s => .scalar '\n' :: universalNewlines s
  | c :: s => c :: universalNewlines s
  | [] => []

/-- The line ends of a text without a return are as they are. -/
theorem universalNewlines_of_not_mem {text : PyStr} (h : CodePoint.scalar '\r' ∉ text) :
    universalNewlines text = text := by
  fun_induction universalNewlines text with
  | case1 s ih => simp at h
  | case2 s hs ih => simp at h
  | case3 c s h₁ h₂ ih =>
    rw [List.mem_cons, not_or] at h
    rw [ih h.2]
  | case4 => rfl

section Newlines

variable {words : List Char → List Token} {st : LexState}

/-- Where no string is open a return ends a word as a line end does. -/
theorem lexStepWith_return (h : NoFailure (lexStepWith words st (.scalar '\r')).1) :
    lexStepWith words st (.scalar '\n') = lexStepWith words st (.scalar '\r') ∧
      (lexStepWith words st (.scalar '\r')).2 = .idle := by
  have hbad : ∀ us, lexStepWith words us (.scalar '\r') = ([.bad .decode], .idle) → us ≠ st := by
    rintro us hus rfl
    rw [hus] at h
    exact h _ List.mem_cons_self .decode rfl
  cases st with
  | idle => exact ⟨rfl, rfl⟩
  | word w => exact ⟨rfl, rfl⟩
  | inString us => exact absurd rfl (hbad (.inString us) rfl)
  | escape us => exact absurd rfl (hbad (.escape us) rfl)
  | hex us count value => exact absurd rfl (hbad (.hex us count value) rfl)

/-- The line ends of a text make no difference to its tokens. -/
theorem lexWith_universalNewlines {s : PyStr} (h : NoFailure (lexWith words st s)) :
    lexWith words st (universalNewlines s) = lexWith words st s := by
  induction s using universalNewlines.induct generalizing st with
  | case1 s ih =>
    rw [lexWith_cons, noFailure_append] at h
    obtain ⟨hstep, hidle⟩ := lexStepWith_return h.1
    have hrest := h.2
    rw [hidle, lexWith_space (by decide)] at hrest
    rw [universalNewlines, lexWith_cons, hstep, lexWith_cons st, hidle, ih hrest,
      lexWith_space (by decide)]
  | case2 s hs ih =>
    rw [lexWith_cons, noFailure_append] at h
    obtain ⟨hstep, hidle⟩ := lexStepWith_return h.1
    rw [universalNewlines, lexWith_cons, hstep, lexWith_cons st, ih h.2]
    exact hs
  | case3 c s hpair hc ih =>
    rw [lexWith_cons, noFailure_append] at h
    rw [universalNewlines, lexWith_cons, lexWith_cons st, ih h.2]
    · exact hpair
    · exact hc
  | case4 => rfl

end Newlines

/-- The line ends of a text make no difference to its value. -/
theorem loadsPlain_universalNewlines {text : PyStr} {v : Json} (h : loads text = .ok v) :
    loadsPlain (universalNewlines text) = .ok v := by
  obtain ⟨hlex, hnone⟩ := lexContract_of_loads h
  have hsame : lexContract .idle (universalNewlines text) = lexContract .idle text := by
    rw [lexContract_eq_lexWith, lexContract_eq_lexWith]
    refine lexWith_universalNewlines ?_
    rwa [← lexContract_eq_lexWith, hlex]
  have hplain := loadsPlain_of_loads h
  unfold loadsPlain at hplain ⊢
  rw [hsame, hplain]

/-! ## The writer -/

/-- What `attach_anchor_records` raises. -/
inductive AttachError where
  /-- 证据包缺少 manifest.json -/
  | manifestMissing
  /-- manifest.json 不可解析 -/
  | manifestUnreadable (e : ControlError)
  /-- The manifest is no dict, an `AttributeError`. -/
  | manifestType
  /-- pack_digest 必须是 64 位小写 hex -/
  | packDigest
  /-- anchors.json 已存在，拒绝覆盖（锚定意图不可改写） -/
  | anchorsExist
  /-- 锚定记录校验失败 -/
  | records (problems : List AnchorProblem)
  /-- A text has a lone surrogate, a `UnicodeEncodeError`; an empty file is left. -/
  | surrogate

/-- A record as a caller gives it; the keys of a dict are distinct. -/
structure AnchorRecord where
  value : Json
  wf : value.WF

/-- `anchors.json` with the records. -/
def anchorBundle (records : List AnchorRecord) : Json :=
  .obj [("schema_version", .int anchorsSchemaVersion), ("records", .arr (records.map (·.value)))]

/-- The text of `anchors.json`. -/
def anchorsText (records : List AnchorRecord) : PyStr :=
  indentFile (anchorBundle records)

/-- The manifest as `attach_anchor_records` reads it. -/
def attachedManifest (content : Bytes) : Except AttachError Json := do
  let text ← orRaise (decode content) (.manifestUnreadable .unicode)
  (loadsPlain (universalNewlines text)).mapError fun e => .manifestUnreadable (.json e)

/-- The package with one more file. -/
def Pack.addFile (pack : Pack) (name : PyStr) (content : Bytes) (hname : isEntryName name = true)
    (hnew : Dict.get? pack.entries name = none) : Pack where
  entries := Icode.addFile pack.entries name content
  sorted := sorted_addFile pack.sorted hname hnew

/-- `attach_anchor_records`, for a package without links. -/
def attachAnchorRecords (pack : Pack) (records : List AnchorRecord) : Except AttachError Pack := do
  let content ← orRaise (fileAt pack.entries [lit "manifest.json"]) .manifestMissing
  let value ← attachedManifest content
  let manifest ← (asObject value).mapError fun _ => .manifestType
  let packDigest := Members.get manifest "pack_digest"
  require (textSatisfies (isHexText 64) packDigest) .packDigest
  if hnew : Dict.get? pack.entries "anchors.json" = none then
    let problems := validateAnchorBundle (anchorBundle records) packDigest
    require problems.isEmpty (.records problems)
    let bytes ← orRaise (encode (anchorsText records)) .surrogate
    pure (pack.addFile "anchors.json" bytes (by decide) hnew)
  else .error .anchorsExist

/-! ## What is written is read -/

/-- A record whose values are texts, and dicts of texts. -/
def RecordShape (value : Json) : Prop :=
  ∃ record, value = .obj record ∧ ∀ m ∈ record, (∃ s, m.2 = .str s) ∨
    ∃ evidence, m.2 = .obj evidence ∧ ∀ e ∈ evidence, ∃ s, e.2 = .str s

theorem isAnchorText_iff {v : Json} :
    isAnchorText v = true ↔ ∃ s : PyStr, v = .str s ∧ s ≠ [] ∧ s.length ≤ anchorFieldValueMaxChars := by
  rw [isAnchorText, textSatisfies_iff]
  simp

theorem get_of_mem {ms : Members} (hnd : (Dict.keys ms).Nodup) {m : PyStr × Json} (hm : m ∈ ms) :
    Members.get ms m.1 = m.2 := by
  rw [Members.get, Dict.get?_of_mem hnd hm, Option.getD_some]

theorem evidence_texts {i : ℕ} {required : List PyStr} {evidence : Members}
    (hwf : (Json.obj evidence).WF) (h : anchorEvidenceProblems i required evidence = []) :
    ∀ e ∈ evidence, ∃ s, e.2 = .str s := by
  intro e he
  unfold anchorEvidenceProblems at h
  split_ifs at h with hkeys
  · rw [fieldProblems_eq_nil] at h
    simp [h] at hkeys
  · rw [Bool.not_eq_true, Bool.not_eq_false', Members.keysAre_iff] at hkeys
    have hreq : e.1 ∈ required := (hkeys e.1).mp (List.mem_map_of_mem he)
    have htext := List.flatMap_eq_nil_iff.mp (List.append_eq_nil_iff.mp h).1 e.1 hreq
    rw [issueUnless_eq_nil, isAnchorText_iff, get_of_mem (Json.wf_obj.mp hwf).1 he] at htext
    obtain ⟨s, hs, -⟩ := htext
    exact ⟨s, hs⟩

/-- A record without problems holds nothing but texts. -/
theorem recordShape_of_anchorRecordProblems {digest : PyStr} {i : ℕ} {value : Json}
    (hwf : value.WF) (h : anchorRecordProblems (.str digest) i value = []) :
    RecordShape value := by
  unfold anchorRecordProblems at h
  split at h
  swap
  · simp at h
  next record =>
  split_ifs at h with hkeys
  · rw [fieldProblems_eq_nil] at h
    simp [h] at hkeys
  rw [Bool.not_eq_true, Bool.not_eq_false', Members.keysAre_iff] at hkeys
  split at h
  · simp at h
  next required htype =>
  obtain ⟨type, htype, -⟩ := Option.bind_eq_some_iff.mp htype
  simp only [List.append_eq_nil_iff, issueUnless_eq_nil, Json.pyEq_str, isAnchorText_iff] at h
  obtain ⟨⟨⟨time, htime, -⟩, htarget⟩, hevidence⟩ := h
  obtain ⟨hnd, hbelow⟩ := Json.wf_obj.mp hwf
  refine ⟨record, rfl, fun m hm => ?_⟩
  have hget := get_of_mem hnd hm
  have hfield : m.1 ∈ anchorRecordFields := (hkeys m.1).mp (List.mem_map_of_mem hm)
  simp only [anchorRecordFields, List.mem_cons, List.not_mem_nil, or_false] at hfield
  rcases hfield with hk | hk | hk | hk <;> rw [hk] at hget
  · exact Or.inl ⟨type, hget ▸ Json.text?_eq_some.mp htype⟩
  · exact Or.inl ⟨digest, hget ▸ htarget⟩
  · exact Or.inl ⟨time, hget ▸ htime⟩
  · split at hevidence
    · next evidence heq =>
      have hobj : m.2 = .obj evidence := hget ▸ heq
      exact Or.inr ⟨evidence, hobj, evidence_texts (hobj ▸ hbelow m hm) hevidence⟩
    · simp at hevidence

theorem recordShape_of_bundle {records : List AnchorRecord} {packDigest : Json}
    (h : validateAnchorBundle (anchorBundle records) packDigest = []) :
    ∀ r ∈ records, RecordShape r.value := by
  obtain ⟨digest, ms, values, rfl, hhex, hbundle, hvalues, -⟩ := target_of_validateAnchorBundle h
  have hrecords : Members.get ms "records" = .arr (records.map (·.value)) := by
    rw [← Json.obj.inj hbundle]
    rfl
  obtain rfl := Json.arr.inj (hvalues.symm.trans hrecords)
  intro r hr
  obtain ⟨i, hi, hget⟩ := List.mem_iff_getElem.mp (List.mem_map_of_mem (f := (·.value)) hr)
  rw [hbundle] at h
  unfold validateAnchorBundle at h
  simp only [hvalues] at h
  split_ifs at h
  · simp at h
  · simp at h
  have hnil := List.flatMap_eq_nil_iff.mp (List.append_eq_nil_iff.mp h).2
    ((records.map (·.value))[i], 1 + i)
    (List.mk_add_mem_zipIdx_iff_getElem?.mpr (List.getElem?_eq_getElem hi))
  rw [hget] at hnil
  exact recordShape_of_anchorRecordProblems r.wf hnil

theorem RecordShape.plain {value : Json} (h : RecordShape value) : value.Plain := by
  obtain ⟨record, rfl, hvalues⟩ := h
  rw [Json.plain_obj]
  intro m hm
  rcases hvalues m hm with ⟨s, hs⟩ | ⟨evidence, hobj, htexts⟩
  · rw [hs]
    trivial
  · rw [hobj, Json.plain_obj]
    intro e he
    obtain ⟨s, hs⟩ := htexts e he
    rw [hs]
    trivial

theorem RecordShape.depth_le {value : Json} (h : RecordShape value) : value.depth ≤ 2 := by
  obtain ⟨record, rfl, hvalues⟩ := h
  rw [Json.depth_obj_le]
  intro m hm
  rcases hvalues m hm with ⟨s, hs⟩ | ⟨evidence, hobj, htexts⟩
  · rw [hs]
    exact Nat.zero_le _
  · rw [hobj, Json.depth_obj_le]
    intro e he
    obtain ⟨s, hs⟩ := htexts e he
    rw [hs]
    exact Nat.zero_le _

section Bundle

variable {records : List AnchorRecord} {packDigest : Json}

theorem anchorBundle_wf (records : List AnchorRecord) : (anchorBundle records).WF := by
  rw [anchorBundle, Json.wf_obj]
  refine ⟨by simp [Dict.keys], fun m hm => ?_⟩
  simp only [List.mem_cons, List.not_mem_nil, or_false] at hm
  rcases hm with rfl | rfl
  · trivial
  · rw [Json.wf_arr]
    intro x hx
    obtain ⟨r, -, rfl⟩ := List.mem_map.mp hx
    exact r.wf

theorem anchorBundle_plain (h : validateAnchorBundle (anchorBundle records) packDigest = []) :
    (anchorBundle records).Plain := by
  rw [anchorBundle, Json.plain_obj]
  intro m hm
  simp only [List.mem_cons, List.not_mem_nil, or_false] at hm
  rcases hm with rfl | rfl
  · show (Nat.toDigits 10 1).length ≤ intMaxStrDigits
    decide
  · rw [Json.plain_arr]
    intro x hx
    obtain ⟨r, hr, rfl⟩ := List.mem_map.mp hx
    exact (recordShape_of_bundle h r hr).plain

theorem depth_anchorBundle (h : validateAnchorBundle (anchorBundle records) packDigest = []) :
    (anchorBundle records).depth ≤ 4 := by
  rw [anchorBundle, Json.depth_obj_le]
  intro m hm
  simp only [List.mem_cons, List.not_mem_nil, or_false] at hm
  rcases hm with rfl | rfl
  · exact Nat.zero_le _
  · rw [Json.depth_arr_le]
    intro x hx
    obtain ⟨r, hr, rfl⟩ := List.mem_map.mp hx
    exact (recordShape_of_bundle h r hr).depth_le

/-- The verifier reads the bundle that was written, when the file is not too large for it. -/
theorem loadJsonFile_anchorsText {bytes : Bytes}
    (h : validateAnchorBundle (anchorBundle records) packDigest = [])
    (hbytes : encode (anchorsText records) = some bytes)
    (hsize : bytes.length ≤ maxAnchorsJsonBytes) :
    loadJsonFile bytes maxAnchorsJsonBytes = .ok (anchorBundle records) := by
  have htext : decode bytes = some (anchorsText records) := decode_eq_some.mpr hbytes
  have hlength : (anchorsText records).length ≤ maxJsonStructuralTokens := by
    have hsame := (encode_eq_some.mp hbytes).2
    have hle := length_le_length_encodePass (anchorsText records)
    rw [hsame] at hsize
    exact hle.trans (hsize.trans (by decide))
  have hloads : loadsJsonValue (anchorsText records) = .ok (anchorBundle records) :=
    loadsJsonValue_indentFile (anchorBundle_wf records) (anchorBundle_plain h)
      (all_isScalar_indentFile.mp (encode_eq_some.mp hbytes).1)
      ((depth_anchorBundle h).trans (by decide)) (checkStructuralTokenBudget_of_length hlength)
  rw [loadJsonFile, readBoundedText, readBoundedBytes, if_neg (by omega)]
  simp [Bind.bind, Except.bind, htext, hloads, orRaise, Except.mapError]

end Bundle

/-! ## An accepted package with its anchors -/

/-- The records fit into the file the verifier reads, and the file into the package. -/
def RoomForAnchors (pack : Pack) (records : List AnchorRecord) : Prop :=
  (encodePass (anchorsText records)).length ≤ maxAnchorsJsonBytes ∧
    packEntryCount pack.entries < maxPackageEntryCount

section Attach

variable {printable : CodePoint → Bool} {args : VerifyArguments} {pack pack' : Pack}
  {delivered : ℕ} {manifest : Members} {content : Bytes} {records : List AnchorRecord}

/-- What the writer takes for the manifest of an accepted package. -/
theorem attachedManifest_of_accepted
    (h : AcceptedPack printable args pack.entries delivered manifest content) :
    fileAt pack.entries [lit "manifest.json"] = some content ∧
      attachedManifest content = .ok (.obj manifest) := by
  obtain ⟨hfile, hload⟩ := h.loaded
  obtain ⟨path, hpath, hcontent⟩ := Option.bind_eq_some_iff.mp hfile
  obtain rfl := eq_splitOn_of_memberPath hpath
  refine ⟨hcontent, ?_⟩
  have hjson := loadJsonObject_eq_ok.mp hload
  unfold loadJsonFile at hjson
  rw [bind_eq_ok] at hjson
  obtain ⟨text, htext, hvalue⟩ := hjson
  rw [mapError_eq_ok] at hvalue
  unfold readBoundedText at htext
  rw [bind_eq_ok] at htext
  obtain ⟨raw, hraw, hdecode⟩ := htext
  unfold readBoundedBytes at hraw
  split_ifs at hraw
  obtain rfl := Except.ok.inj hraw
  rw [attachedManifest, bind_eq_ok]
  exact ⟨text, orRaise_eq_ok.mpr (orRaise_eq_ok.mp hdecode),
    mapError_eq_ok.mpr (loadsPlain_universalNewlines (loadsJsonValue_ok hvalue).1)⟩

/-- The digest of an accepted package. -/
theorem packDigest_of_accepted
    (h : AcceptedPack printable args pack.entries delivered manifest content) :
    manifest.get "pack_digest" = .str (packDigest (manifestEntries manifest).2) := by
  have hdigest := h.digest
  unfold digestDeclared at hdigest
  dsimp only at hdigest
  split_ifs at hdigest
  rwa [issueUnless_eq_nil, Json.isText_iff] at hdigest

/-- What the writer does to an accepted package. -/
theorem attach_eq_ok_iff
    (h : AcceptedPack printable args pack.entries delivered manifest content) :
    attachAnchorRecords pack records = .ok pack' ↔
      ∃ hnew : Dict.get? pack.entries "anchors.json" = none,
        validateAnchorBundle (anchorBundle records) (manifest.get "pack_digest") = [] ∧
        ∃ bytes, encode (anchorsText records) = some bytes ∧
          pack' = pack.addFile "anchors.json" bytes (by decide) hnew := by
  obtain ⟨hfile, hmanifest⟩ := attachedManifest_of_accepted h
  have hhex : textSatisfies (isHexText 64) (manifest.get "pack_digest") = true := by
    rw [packDigest_of_accepted h]
    exact isHexText_sha256 _
  unfold attachAnchorRecords
  simp only [bind_eq_ok, orRaise_eq_ok, require_eq_ok, hfile, hmanifest, Option.some.injEq,
    Except.ok.injEq, exists_eq_left', asObject, mapError_eq_ok, hhex]
  by_cases hnew : Dict.get? pack.entries (lit "anchors.json") = none
  · simp only [hnew, dite_true, bind_eq_ok, orRaise_eq_ok, require_eq_ok, pure, Except.pure,
      Except.ok.injEq, List.isEmpty_iff, exists_true_left]
    constructor
    · rintro ⟨_, -, _, hproblems, bytes, hbytes, rfl⟩
      exact ⟨hproblems, bytes, hbytes, rfl⟩
    · rintro ⟨hproblems, bytes, hbytes, rfl⟩
      exact ⟨(), trivial, (), hproblems, bytes, hbytes, rfl⟩
  · constructor
    · rintro ⟨_, -, hraised⟩
      rw [dif_neg hnew] at hraised
      cases hraised
    · rintro ⟨hnew', -⟩
      exact absurd hnew' hnew

/-- The new file is where the verifier looks for it. -/
theorem memberFile_anchors {es : Directory} {bytes : Bytes}
    (hnew : Dict.get? es "anchors.json" = none) :
    memberFile (addFile es "anchors.json" bytes) "anchors.json" = some bytes := by
  have hget : Dict.get? (addFile es "anchors.json" bytes) "anchors.json" = some (.file bytes) :=
    get?_addFile_self hnew
  have hsplit : splitOn (.scalar '/') (lit "anchors.json") = [lit "anchors.json"] := by decide
  have hpath : memberPath (addFile es "anchors.json" bytes) "anchors.json" =
      some [lit "anchors.json"] := by
    unfold memberPath
    dsimp only
    rw [if_neg (by decide), hsplit, if_neg (by decide), if_pos]
    simp [lstatAll, hget]
  simp [memberFile, hpath, fileAt, nodeAt, hget]

/-- What the verifier says about the anchors that were written. -/
theorem anchorsProblems_eq_nil_iff {bytes : Bytes}
    (h : validateAnchorBundle (anchorBundle records) (manifest.get "pack_digest") = [])
    (hbytes : encode (anchorsText records) = some bytes) :
    anchorsProblems manifest bytes = [] ↔ bytes.length ≤ maxAnchorsJsonBytes := by
  constructor
  · intro hnil
    by_contra hlarge
    have hread : loadJsonFile bytes maxAnchorsJsonBytes = .error .tooLarge := by
      rw [loadJsonFile, readBoundedText, readBoundedBytes, if_pos (by omega)]
      rfl
    simp [anchorsProblems, hread] at hnil
  · intro hsize
    simp [anchorsProblems, loadJsonFile_anchorsText h hbytes hsize, h]

theorem sealProblems_attached {bytes : Bytes} (hnew : Dict.get? pack.entries "anchors.json" = none)
    (hunsigned : memberFile pack.entries "signature.json" = none)
    (h : sealProblems args pack.entries manifest content = .ok []) :
    sealProblems args (addFile pack.entries "anchors.json" bytes) manifest content = .ok [] ↔
      anchorsProblems manifest bytes = [] := by
  have hsignature : memberFile (addFile pack.entries "anchors.json" bytes) "signature.json" = none :=
    (memberFile_of_readName (by decide) _ _ _ (by decide)).trans hunsigned
  have hrequired : issueUnless (!args.requireSignature) PackProblem.signatureMissing = [] := by
    simp only [sealProblems, hunsigned] at h
    exact (List.append_eq_nil_iff.mp (Except.ok.inj h)).1
  simp only [sealProblems, hsignature, hrequired, memberFile_anchors hnew, List.nil_append,
    Option.map_some, Option.getD_some, Except.ok.injEq]

/-- An accepted package without a signature is accepted with its anchors when there is room. -/
theorem verifyPack_attached_iff (h : verifyPack printable args pack delivered = .ok [])
    (hunsigned : memberFile pack.entries "signature.json" = none)
    (hattach : attachAnchorRecords pack records = .ok pack') :
    verifyPack printable args pack' delivered = .ok [] ↔ RoomForAnchors pack records := by
  obtain ⟨manifest, content, haccepted⟩ := accepted_of_verifyPack h
  obtain ⟨hnew, hproblems, bytes, hbytes, rfl⟩ := (attach_eq_ok_iff haccepted).mp hattach
  obtain ⟨-, rfl⟩ := encode_eq_some.mp hbytes
  have hother : lit "anchors.json" ∉ readNames := by decide
  have hwalk : walkProblems (manifestEntries manifest).2 [lit "anchors.json"] .file = [] := by
    have hrel : relPath [lit "anchors.json"] = lit "anchors.json" := rfl
    simp [walkProblems, hrel]
  have hfile := (memberFile_of_readName hother pack.entries (encodePass (anchorsText records))
    "manifest.json" (by decide)).trans haccepted.loaded.1
  rw [verifyPack_eq_ok_iff hfile haccepted.loaded.2]
  refine (acceptedPack_addFile hother hnew hwalk haccepted).trans ?_
  rw [sealProblems_attached hnew hunsigned haccepted.sealed,
    anchorsProblems_eq_nil_iff hproblems hbytes, RoomForAnchors, and_comm]

/-- The records are written where nothing stood. -/
theorem get?_of_attach (h : attachAnchorRecords pack records = .ok pack') :
    Dict.get? pack.entries "anchors.json" = none ∧
      Dict.get? pack'.entries "anchors.json" ≠ none := by
  unfold attachAnchorRecords at h
  simp only [bind_eq_ok] at h
  obtain ⟨_, -, _, -, _, -, _, -, h⟩ := h
  split_ifs at h with hnew
  simp only [bind_eq_ok, pure, Except.pure, Except.ok.injEq] at h
  obtain ⟨_, -, bytes, -, rfl⟩ := h
  have hget : Dict.get? (addFile pack.entries "anchors.json" bytes) "anchors.json" =
      some (.file bytes) := get?_addFile_self hnew
  exact ⟨hnew, by simp [Pack.addFile, hget]⟩

/-- After any sequence of calls that succeed, an accepted package without a signature is accepted
exactly when there was room for the records of each. -/
theorem attached_accepted_iff {batches : List (List AnchorRecord)}
    (h : verifyPack printable args pack delivered = .ok [])
    (hunsigned : memberFile pack.entries "signature.json" = none)
    (hrun : batches.foldlM attachAnchorRecords pack = .ok pack') :
    verifyPack printable args pack' delivered = .ok [] ↔
      ∀ records ∈ batches, RoomForAnchors pack records := by
  cases batches with
  | nil =>
    obtain rfl := Except.ok.inj hrun
    simp [h]
  | cons records rest =>
    rw [List.foldlM_cons, bind_eq_ok] at hrun
    obtain ⟨attached, hattach, hrest⟩ := hrun
    cases rest with
    | nil =>
      obtain rfl := Except.ok.inj hrest
      rw [verifyPack_attached_iff h hunsigned hattach, List.forall_mem_singleton]
    | cons next rest =>
      -- a second call finds the file of the first
      rw [List.foldlM_cons, bind_eq_ok] at hrest
      obtain ⟨_, hsecond, -⟩ := hrest
      exact absurd (get?_of_attach hsecond).1 (get?_of_attach hattach).2

end Attach

/-! ## Records that are too long to read -/

/-- A text of the greatest length a field may have. -/
def longText : PyStr :=
  List.replicate anchorFieldValueMaxChars (.scalar 'a')

/-- A record for the digest of a package with two long texts. -/
def longRecord (digest : PyStr) : AnchorRecord where
  value := .obj [("type", .str "git-tag"), ("anchor_target", .str digest),
    ("anchor_time", .str "2026-01-01T00:00:00+00:00"),
    ("evidence", .obj [("tag", .str longText), ("repository", .str longText)])]
  wf := by simp [Dict.keys, Json.WF, Json.WFMembers]

/-- As many of them as a package may have. -/
def longRecords (digest : PyStr) : List AnchorRecord :=
  List.replicate maxAnchorRecords (longRecord digest)

theorem isAnchorText_longText : isAnchorText (.str longText) = true := by
  refine isAnchorText_iff.mpr ⟨longText, rfl, ?_, List.length_replicate.le⟩
  rw [longText, ne_eq, List.replicate_eq_nil_iff]
  decide

theorem anchorRecordProblems_longRecord (digest : PyStr) (i : ℕ) :
    anchorRecordProblems (.str digest) i (longRecord digest).value = [] := by
  have htime : isAnchorText (.str (lit "2026-01-01T00:00:00+00:00")) = true := by decide
  have htarget : (Json.str digest).pyEq (.str digest) = true := Json.pyEq_str.mpr rfl
  have hrecord : ∀ text : PyStr, anchorRecordProblems (.str digest) i
      (.obj [("type", .str "git-tag"), ("anchor_target", .str digest),
        ("anchor_time", .str "2026-01-01T00:00:00+00:00"),
        ("evidence", .obj [("tag", .str text), ("repository", .str text)])]) =
      issueUnless (isAnchorText (.str (lit "2026-01-01T00:00:00+00:00"))) (.anchorTime i) ++
        issueUnless ((Json.str digest).pyEq (.str digest)) (.anchorTarget i) ++
        (issueUnless (isAnchorText (.str text)) (.evidenceValue i "tag") ++
          (issueUnless (isAnchorText (.str text)) (.evidenceValue i "repository") ++ []) ++ []) :=
    fun _ => rfl
  refine (hrecord longText).trans ?_
  rw [htime, htarget, isAnchorText_longText]
  rfl

theorem validateAnchorBundle_longRecords {digest : PyStr} (h : isHexText 64 digest = true) :
    validateAnchorBundle (anchorBundle (longRecords digest)) (.str digest) = [] := by
  have hhex : textSatisfies (isHexText 64) (.str digest) = true := h
  have hbundle : validateAnchorBundle (anchorBundle (longRecords digest)) (.str digest) =
      if maxAnchorRecords < ((longRecords digest).map (·.value)).length then [.recordCount]
      else if !textSatisfies (isHexText 64) (.str digest) then [.packDigest]
      else (((longRecords digest).map (·.value)).zipIdx 1).flatMap fun item =>
        anchorRecordProblems (.str digest) item.2 item.1 := rfl
  rw [hbundle, if_neg (by simp [longRecords]), hhex, if_neg (by simp), List.flatMap_eq_nil_iff]
  rintro ⟨value, i⟩ hvalue
  obtain ⟨r, hr, rfl⟩ := List.mem_map.mp (List.fst_mem_of_mem_zipIdx hvalue)
  rw [List.eq_of_mem_replicate hr]
  exact anchorRecordProblems_longRecord digest i

/-- Two long texts are longer than a record's part of the file. -/
theorem length_longRecord (digest : PyStr) (level : ℕ) :
    1025 ≤ (Json.renderIndent level (longRecord digest).value).length := by
  have hquote : 514 ≤ (quote longText).length := by
    have := length_le_quote longText
    rwa [longText, List.length_replicate] at this
  have hevidence := sum_length_le_renderIndent_obj (level + 1)
    [(lit "tag", .str longText), (lit "repository", .str longText)]
  have hrecord := sum_length_le_renderIndent_obj level [(lit "type", .str (lit "git-tag")),
    (lit "anchor_target", .str digest), (lit "anchor_time", .str (lit "2026-01-01T00:00:00+00:00")),
    (lit "evidence", .obj [(lit "tag", .str longText), (lit "repository", .str longText)])]
  simp only [List.map_cons, List.map_nil, List.sum_cons, List.sum_nil, Json.renderIndent_str]
    at hevidence hrecord
  simp only [longRecord]
  omega

theorem length_anchorsText_longRecords (digest : PyStr) :
    maxAnchorsJsonBytes < (anchorsText (longRecords digest)).length := by
  have hmap : ((longRecords digest).map (·.value)).map (fun x => (Json.renderIndent 2 x).length) =
      List.replicate maxAnchorRecords (Json.renderIndent 2 (longRecord digest).value).length := by
    simp only [longRecords, List.map_replicate]
  have hrecords := sum_length_le_renderIndent_arr 1 ((longRecords digest).map (·.value))
  have hbundle := sum_length_le_renderIndent_obj 0 [(lit "schema_version", .int anchorsSchemaVersion),
    (lit "records", .arr ((longRecords digest).map (·.value)))]
  have hrecord := length_longRecord digest 2
  rw [hmap, List.sum_replicate, smul_eq_mul] at hrecords
  simp only [List.map_cons, List.map_nil, List.sum_cons, List.sum_nil, Nat.zero_add] at hbundle
  rw [anchorsText, anchorBundle, indentFile, Json.dumpsIndent, List.length_append]
  simp only [maxAnchorRecords, maxAnchorsJsonBytes] at hrecords ⊢
  omega

theorem encode_anchorsText_longRecords {digest : PyStr} (h : digest.all isScalar = true) :
    encode (anchorsText (longRecords digest)) =
      some (encodePass (anchorsText (longRecords digest))) := by
  have htext : longText.all isScalar = true := by
    rw [longText, List.all_replicate]
    rfl
  have hrecord : (longRecord digest).value.Encodable := by
    simp only [longRecord, Json.Encodable, Json.EncodableMembers, h, htext]
    decide
  refine encode_eq_some.mpr ⟨all_isScalar_indentFile.mpr (Json.encodable_obj.mpr ?_), rfl⟩
  simp only [List.forall_mem_cons, List.not_mem_nil, false_imp_iff, implies_true, and_true]
  refine ⟨⟨by decide, trivial⟩, by decide, Json.encodable_arr.mpr fun x hx => ?_⟩
  obtain ⟨r, hr, rfl⟩ := List.mem_map.mp hx
  rw [List.eq_of_mem_replicate hr]
  exact hrecord

theorem all_isScalar_sha256 (data : Bytes) : (sha256 data).all isScalar = true := by
  simp [sha256, hexWord, isScalar]

/-- The digest of the package without events. -/
def blankDigest : PyStr :=
  packDigest (sampleFiles.map fun (path, content) => ⟨path, sha256 content, .null⟩)

/-- The records are attached to the package without events. -/
theorem exists_attach_blankPack :
    ∃ attached, attachAnchorRecords blankPack (longRecords blankDigest) = .ok attached := by
  obtain ⟨manifest, content, haccepted⟩ := accepted_of_verifyPack verifyPack_blankPack
  have hdigest : manifest.get "pack_digest" = .str blankDigest := by
    obtain ⟨hfile, hload⟩ := haccepted.loaded
    obtain ⟨manifest', hload', -, -, -, -, hdigest, hsame⟩ := exists_sampleManifest
    obtain rfl : sampleManifest sampleFiles = content := Option.some.inj hfile
    obtain rfl := Except.ok.inj (hload'.symm.trans hload)
    rw [hdigest, hsame, blankDigest]
  refine ⟨_, (attach_eq_ok_iff haccepted).mpr ⟨rfl, ?_, _,
    encode_anchorsText_longRecords (all_isScalar_sha256 _), rfl⟩⟩
  rw [hdigest]
  exact validateAnchorBundle_longRecords (isHexText_sha256 _)

/-- The verifier refuses a package whose anchors were attached. -/
theorem longRecords_refused :
    verifyPack (fun _ => true) ⟨none, false⟩ blankPack 0 = .ok [] ∧
      memberFile blankPack.entries "signature.json" = none ∧
      ∃ attached, [longRecords blankDigest].foldlM attachAnchorRecords blankPack = .ok attached ∧
        verifyPack (fun _ => true) ⟨none, false⟩ attached 0 ≠ .ok [] := by
  have haccepted := verifyPack_blankPack
  obtain ⟨attached, hattach⟩ := exists_attach_blankPack
  refine ⟨haccepted, rfl, attached, ?_, fun h => ?_⟩
  · rw [List.foldlM_cons, hattach]
    rfl
  · have hroom := ((verifyPack_attached_iff haccepted rfl hattach).mp h).1
    have hlong := length_anchorsText_longRecords blankDigest
    have hbytes := length_le_length_encodePass (anchorsText (longRecords blankDigest))
    omega

theorem attached_accepted_iff_blankPack :
    ∃ attached, [longRecords blankDigest].foldlM attachAnchorRecords blankPack = .ok attached ∧
      (verifyPack (fun _ => true) ⟨none, false⟩ attached 0 = .ok [] ↔
        ∀ records ∈ [longRecords blankDigest], RoomForAnchors blankPack records) := by
  obtain ⟨attached, hattach⟩ := exists_attach_blankPack
  have hrun : [longRecords blankDigest].foldlM attachAnchorRecords blankPack = .ok attached := by
    rw [List.foldlM_cons, hattach]
    rfl
  exact ⟨attached, hrun, attached_accepted_iff verifyPack_blankPack rfl hrun⟩

end Icode
