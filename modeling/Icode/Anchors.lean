import Icode.ContractSnapshot
import Icode.EventSchema

/-!
# Anchor records

`anchors.json` declares where the digest of a package was published. `validateAnchorBundle`
(`validate_anchor_bundle`) checks its closed form : the types of the records, the evidence each
type requires, and that every record names the digest of this package. A bundle without problems
is one whose records all do (`target_of_validateAnchorBundle`).
-/

namespace Icode

open Py

/-- `_ANCHORS_SCHEMA_VERSION` -/
def anchorsSchemaVersion : ℤ := 1

/-- `_MAX_ANCHOR_RECORDS` -/
def maxAnchorRecords : ℕ := 256

/-- `_ANCHOR_FIELD_VALUE_MAX_CHARS` -/
def anchorFieldValueMaxChars : ℕ := 512

/-- `_ANCHOR_RECORD_FIELDS` -/
def anchorRecordFields : List PyStr :=
  ["type", "anchor_target", "anchor_time", "evidence"]

/-- `_ANCHOR_REQUIRED_EVIDENCE`, whose keys are `ANCHOR_TYPES` -/
def anchorRequiredEvidence : Dict PyStr (List PyStr) :=
  [("git-tag", ["tag", "repository"]), ("ci-run", ["run_url", "run_id", "conclusion"]),
    ("rfc3161-file", ["file_fingerprint", "hash_algorithm"]),
    ("transparency-log-entry", ["log_id", "entry_url"])]

/-- `_ANCHOR_HTTPS_FIELDS` -/
def anchorHttpsFields : List PyStr :=
  ["run_url", "entry_url"]

/-- What `validate_anchor_bundle` reports; an index is that of the record. -/
inductive AnchorProblem where
  /-- anchors.json 结构无效（必须是 JSON 对象） -/
  | bundle
  /-- anchors.json schema_version 不受支持 -/
  | schemaVersion
  /-- anchors.json records 结构无效（必须是数组） -/
  | records
  /-- anchors.json 记录数量超过安全上限 -/
  | recordCount
  /-- 锚定校验所需的包摘要无效 -/
  | packDigest
  /-- 结构无效（必须是对象） -/
  | record (i : ℕ)
  /-- 缺少字段 -/
  | missing (i : ℕ) (fields : List PyStr)
  /-- 含未知字段 -/
  | extra (i : ℕ) (fields : List PyStr)
  /-- 类型不在封闭词表内 -/
  | anchorType (i : ℕ) (value : Json)
  /-- anchor_time 无效 -/
  | anchorTime (i : ℕ)
  /-- anchor_target 与包摘要不符（疑似换包重贴锚定） -/
  | anchorTarget (i : ℕ)
  /-- evidence 结构无效（必须是对象） -/
  | evidence (i : ℕ)
  /-- evidence 缺少字段 -/
  | evidenceMissing (i : ℕ) (fields : List PyStr)
  /-- evidence 含未知字段 -/
  | evidenceExtra (i : ℕ) (fields : List PyStr)
  /-- evidence 的字段无效（必须是非空且不超限的字符串） -/
  | evidenceValue (i : ℕ) (key : PyStr)
  /-- evidence 的字段必须是 https URL -/
  | evidenceUrl (i : ℕ) (key : PyStr)

/-- The problems of a dict whose keys should be `fields`. -/
def fieldProblems {α : Type} (ms : Members) (fields : List PyStr) (missing extra : List PyStr → α) :
    List α :=
  let lacking := sortNames (fields.filter fun k => !Dict.has ms k)
  let unknown := sortNames ((Dict.keys ms).filter fun k => !fields.contains k)
  issueUnless lacking.isEmpty (missing lacking) ++ issueUnless unknown.isEmpty (extra unknown)

/-- A non-empty text within the limit. -/
def isAnchorText (v : Json) : Bool :=
  textSatisfies (fun s => !s.isEmpty && s.length ≤ anchorFieldValueMaxChars) v

/-- The evidence of a record. -/
def anchorEvidenceProblems (i : ℕ) (required : List PyStr) (evidence : Members) :
    List AnchorProblem :=
  if !evidence.keysAre required then
    fieldProblems evidence required (.evidenceMissing i) (.evidenceExtra i)
  else
    (required.flatMap fun key => issueUnless (isAnchorText (evidence.get key)) (.evidenceValue i key)) ++
    (required.filter anchorHttpsFields.contains).flatMap fun key =>
      issueUnless (!textSatisfies (fun s => !s.isEmpty && !(lit "https://").isPrefixOf s)
        (evidence.get key)) (.evidenceUrl i key)

/-- The body of the loop over the records. -/
def anchorRecordProblems (packDigest : Json) (i : ℕ) (value : Json) : List AnchorProblem :=
  match value with
  | .obj record =>
    if !Members.keysAre record anchorRecordFields then
      fieldProblems record anchorRecordFields (.missing i) (.extra i)
    else
      match (Members.get record "type").text?.bind (Dict.get? anchorRequiredEvidence) with
      | none => [.anchorType i (Members.get record "type")]
      | some required =>
        issueUnless (isAnchorText (Members.get record "anchor_time")) (.anchorTime i) ++
        issueUnless ((Members.get record "anchor_target").pyEq packDigest) (.anchorTarget i) ++
        match Members.get record "evidence" with
        | .obj evidence => anchorEvidenceProblems i required evidence
        | _ => [.evidence i]
  | _ => [.record i]

/-- `validate_anchor_bundle`. -/
def validateAnchorBundle (bundle packDigest : Json) : List AnchorProblem :=
  match bundle with
  | .obj ms =>
    let version := issueUnless ((Members.get ms "schema_version").pyEq (.int anchorsSchemaVersion))
      .schemaVersion
    match Members.get ms "records" with
    | .arr records =>
      if maxAnchorRecords < records.length then version ++ [.recordCount]
      else if !textSatisfies (isHexText 64) packDigest then version ++ [.packDigest]
      else version ++ (records.zipIdx 1).flatMap fun (record, i) =>
        anchorRecordProblems packDigest i record
    | _ => version ++ [.records]
  | _ => [.bundle]

theorem fieldProblems_eq_nil {α : Type} {ms : Members} {fields : List PyStr}
    {missing extra : List PyStr → α} :
    fieldProblems ms fields missing extra = [] ↔ ms.keysAre fields = true := by
  have hsort : ∀ names : List PyStr, (sortNames names).isEmpty = true ↔ names = [] := by
    intro names
    unfold sortNames
    rw [List.isEmpty_iff, ← List.length_eq_zero_iff, List.length_insertionSort,
      List.length_eq_zero_iff]
  simp only [fieldProblems, List.append_eq_nil_iff, issueUnless_eq_nil, hsort,
    List.filter_eq_nil_iff, Members.keysAre, Bool.and_eq_true, List.all_eq_true, Bool.not_eq_true',
    Bool.not_eq_false, and_comm]

/-- A record without problems names the digest of the package. -/
theorem target_of_anchorRecordProblems {packDigest value : Json} {i : ℕ}
    (h : anchorRecordProblems packDigest i value = []) :
    ∃ record, value = .obj record ∧ (Members.get record "anchor_target").pyEq packDigest = true := by
  unfold anchorRecordProblems at h
  split at h
  · next record =>
    split at h
    · next hfields => simp [fieldProblems_eq_nil.mp h] at hfields
    · split at h
      · simp at h
      · simp only [List.append_eq_nil_iff, issueUnless_eq_nil] at h
        exact ⟨record, rfl, h.1.2⟩
  · simp at h

/-- In a bundle without problems every record names the digest of the package. -/
theorem target_of_validateAnchorBundle {bundle packDigest : Json}
    (h : validateAnchorBundle bundle packDigest = []) :
    ∃ digest ms records, packDigest = .str digest ∧ isHexText 64 digest = true ∧ bundle = .obj ms ∧
      Members.get ms "records" = .arr records ∧
        ∀ value ∈ records, ∃ record, value = .obj record ∧
          Members.get record "anchor_target" = .str digest := by
  unfold validateAnchorBundle at h
  split at h
  · next ms =>
    dsimp only at h
    split at h
    · next records hrecords =>
      split at h
      · exact absurd h (by simp)
      split at h
      · exact absurd h (by simp)
      next hdigest =>
      rw [Bool.not_eq_true', Bool.not_eq_false, textSatisfies_iff] at hdigest
      obtain ⟨digest, rfl, hhex⟩ := hdigest
      refine ⟨digest, ms, records, rfl, hhex, rfl, hrecords, fun value hvalue => ?_⟩
      obtain ⟨i, hi, rfl⟩ := List.mem_iff_getElem.mp hvalue
      have hnil := List.flatMap_eq_nil_iff.mp (List.append_eq_nil_iff.mp h).2 (records[i], 1 + i)
        (List.mk_add_mem_zipIdx_iff_getElem?.mpr (List.getElem?_eq_getElem hi))
      obtain ⟨record, hrecord, htarget⟩ := target_of_anchorRecordProblems hnil
      exact ⟨record, hrecord, Json.pyEq_str.mp htarget⟩
    · simp at h
  · simp at h

end Icode
