import Icode.Checks
import Icode.JsonRecursion
import Icode.PurePath

/-!
# The review of a model

`mergeModelReview` reads what a model answers and binds its findings to the verification of the
change. `FailsClosed` says what it should give for any answer : a report, which is a pass only for a
closed object whose findings are about the change.

`json.loads` raises more than `JSONDecodeError`, and of the members with one name it keeps the last.
`FailsClosed` holds exactly of the answers where neither counts (`failsClosed_iff`).
-/

namespace Icode

open Py

namespace ModelReview

/-! ## Reports -/

/-- `SEVERITY_BLOCKING` -/
def severityBlocking : PyStr :=
  lit "blocking"

/-- `SEVERITIES` -/
def severities : List PyStr :=
  [lit "info", lit "warning", severityBlocking]

/-- `MODEL_REVIEW_CATEGORIES` -/
def modelReviewCategories : List PyStr :=
  ["code", "compatibility", "contract", "correctness", "environment", "model_capability",
    "performance", "reliability", "security", "side_effect_unknown", "test", "other"].map lit

/-- `ReviewFinding` -/
structure ReviewFinding where
  severity : PyStr
  category : PyStr
  file : PyStr
  message : PyStr
  evidenceRef : PyStr
  line : Option ℤ

/-- The error of a report. -/
inductive ReviewProblem where
  /-- 只读上下文未通过自检 -/
  | readOnly
  /-- 缺少可绑定的独立验证证据 -/
  | noEvidence
  /-- 模型审查响应包含非法 Unicode -/
  | unicode
  /-- 模型审查响应超过 32 KiB 上限 -/
  | tooLarge
  /-- 模型审查响应不是有效 JSON -/
  | notJson
  /-- 模型审查响应字段不符合合同 -/
  | fields
  /-- 模型审查摘要或发现列表不符合合同 -/
  | summary
  /-- 验证证据指纹不可用 -/
  | fingerprint
  /-- 模型审查发现字段不符合合同 -/
  | findingFields
  /-- 模型审查发现包含未知严重级别 -/
  | severity
  /-- 模型审查发现包含未知类别 -/
  | category
  /-- 模型审查发现未绑定到本次变更文件 -/
  | file
  /-- 模型审查发现行号非法 -/
  | line
  /-- 模型审查发现说明为空或过长 -/
  | message
  deriving DecidableEq

/-- `ReviewReport` -/
structure ReviewReport where
  ok : Bool
  findings : List ReviewFinding
  reviewedFiles : List PyStr
  readOnlyVerified : Bool
  error : Option ReviewProblem
  modelReviewed : Bool
  summary : PyStr

/-- `failed` -/
def ReviewReport.failed (base : ReviewReport) (changedFiles : List PyStr) (reason : ReviewProblem) :
    ReviewReport where
  ok := false
  findings := base.findings
  reviewedFiles := changedFiles
  readOnlyVerified := base.readOnlyVerified
  error := some reason
  modelReviewed := false
  summary := []

/-! ## The answer of the model -/

/-- What is loaded : the answer without the fence of a JSON block. -/
def reviewBody (response : PyStr) : PyStr :=
  let body := strip response
  if (lit "```json").isPrefixOf body && (lit "```").isSuffixOf body then
    strip ((body.take (body.length - 3)).drop 7)
  else body

/-- `required_fields` -/
def requiredFields : List PyStr :=
  ["severity", "category", "file", "line", "message"].map lit

/-- The name of a finding is that of a changed file. -/
def boundFile (changedFiles : List PyStr) (name : PyStr) : Bool :=
  let path := PurePath.parse .posix name
  !name.isEmpty && !name.contains (.scalar '\\') && !path.isAbsolute && path.asPosix == name &&
    !path.parts.contains (lit "..") && changedFiles.contains name

/-- A line of a finding, which may be missing. -/
def lineNumber : Json → Except ReviewProblem (Option ℤ)
  | .null => .ok none
  | .int n => if n < 1 then .error .line else .ok (some n)
  | _ => .error .line

/-- A finding of the model, bound to the evidence. -/
def readFinding (changedFiles : List PyStr) (evidenceRef : PyStr) :
    Json → Except ReviewProblem ReviewFinding
  | .obj item => do
    require (Members.keysAre item requiredFields) .findingFields
    let severity ← orRaise (Members.get item (lit "severity")).text? .severity
    require (severities.contains severity) .severity
    let category ← orRaise (Members.get item (lit "category")).text? .category
    require (modelReviewCategories.contains category) .category
    let file ← orRaise (Members.get item (lit "file")).text? .file
    require (boundFile changedFiles file) .file
    let line ← lineNumber (Members.get item (lit "line"))
    let message ← orRaise (Members.get item (lit "message")).text? .message
    require (!(strip message).isEmpty && message.length ≤ 2000) .message
    .ok ⟨severity, category, file, strip message, evidenceRef, line⟩
  | _ => .error .findingFields

/-- The summary and the findings of an answer. -/
def readPayload : Json → Except ReviewProblem (PyStr × List Json)
  | .obj payload => do
    require (Members.keysAre payload [lit "summary", lit "findings"]) .fields
    match Members.get payload (lit "summary"), Members.get payload (lit "findings") with
    | .str summary, .arr items => do
      require (!(strip summary).isEmpty && summary.length ≤ 2000 && items.length ≤ 100) .summary
      .ok (summary, items)
    | _, _ => .error .summary
  | _ => .error .fields

/-- What is read of an answer that is JSON. -/
def readReview (evidenceRef : Option PyStr) (changedFiles : List PyStr) (payload : Json) :
    Except ReviewProblem (PyStr × List ReviewFinding) := do
  let (summary, items) ← readPayload payload
  let evidenceRef ← orRaise evidenceRef .fingerprint
  let findings ← mapAll (readFinding changedFiles evidenceRef) items
  .ok (summary, findings)

/-- A finding that does not let the change pass. -/
def ReviewFinding.isBlocking (f : ReviewFinding) : Bool :=
  f.severity == severityBlocking

/-- The report on an answer that is JSON. -/
def reportOf (base : ReviewReport) (changedFiles : List PyStr) :
    Except ReviewProblem (PyStr × List ReviewFinding) → ReviewReport
  | .error reason => base.failed changedFiles reason
  | .ok (summary, findings) =>
    { ok := base.ok && !findings.any ReviewFinding.isBlocking
      findings := base.findings ++ findings
      reviewedFiles := changedFiles
      readOnlyVerified := true
      error := none
      modelReviewed := true
      summary := strip summary }

section

variable {ε : Type*} (limit : ℕ) (fingerprint : ε → Option PyStr)

/-- `merge_model_review`. `fingerprint` is `evidence_fingerprint`, with no value where that raises;
`limit` is the recursion limit. -/
def mergeModelReview (base : ReviewReport) (response : PyStr) (changedFiles : List PyStr)
    (evidence : Option ε) : Except LoadsError ReviewReport :=
  if !base.readOnlyVerified then .ok (base.failed changedFiles .readOnly)
  else
    match evidence with
    | none => .ok (base.failed changedFiles .noEvidence)
    | some evidence =>
      match encode response with
      | none => .ok (base.failed changedFiles .unicode)
      | some bytes =>
        if 32 * 1024 < bytes.length then .ok (base.failed changedFiles .tooLarge)
        else
          match loadsWithin limit (reviewBody response) with
          | .error (.json .decode) => .ok (base.failed changedFiles .notJson)
          | .error e => .error e
          | .ok payload =>
            .ok (reportOf base changedFiles
              (readReview (fingerprint evidence) changedFiles payload))

/-! ## What is claimed -/

/-- A finding in an answer that passes. -/
structure ClosedFinding (changedFiles : List PyStr) (evidenceRef : PyStr) (item : Json)
    (finding : ReviewFinding) : Prop where
  fields : ∃ fs : Members, item = .obj fs ∧ Members.keysAre fs requiredFields = true ∧
    Members.get fs (lit "file") = .str finding.file ∧
    Members.get fs (lit "severity") = .str finding.severity
  changed : finding.file ∈ changedFiles
  notBlocking : finding.severity ≠ severityBlocking
  bound : finding.evidenceRef = evidenceRef

/-- What a report that is a pass says of the answer : it is an object with one summary and one list
of findings. `loads` refuses a text in which an object names a member twice. -/
def ClosedReview (base : ReviewReport) (response : PyStr) (changedFiles : List PyStr)
    (evidence : Option ε) (report : ReviewReport) : Prop :=
  base.ok = true ∧ base.readOnlyVerified = true ∧
    ∃ e evidenceRef payload items findings, evidence = some e ∧ fingerprint e = some evidenceRef ∧
      loads (reviewBody response) = .ok (.obj payload) ∧
      Members.keysAre payload [lit "summary", lit "findings"] = true ∧
      Members.get payload (lit "findings") = .arr items ∧
      report.findings = base.findings ++ findings ∧
      List.Forall₂ (ClosedFinding changedFiles evidenceRef) items findings

/-- A review fails closed. -/
structure FailsClosed (base : ReviewReport) (response : PyStr) (changedFiles : List PyStr)
    (evidence : Option ε) : Prop where
  total : ∃ report, mergeModelReview limit fingerprint base response changedFiles evidence =
    .ok report
  closed : ∀ report, mergeModelReview limit fingerprint base response changedFiles evidence =
    .ok report → report.ok = true →
      ClosedReview fingerprint base response changedFiles evidence report

/-- The answer is loaded. -/
structure IsLoaded (base : ReviewReport) (response : PyStr) (evidence : Option ε) : Prop where
  readOnly : base.readOnlyVerified = true
  evidence : evidence.isSome = true
  size : ∃ bytes, encode response = some bytes ∧ bytes.length ≤ 32 * 1024

/-- A finding that is read and lets the change pass. -/
def PassingFinding (changedFiles : List PyStr) (item : Json) : Prop :=
  ∃ fs : Members, item = .obj fs ∧ Members.keysAre fs requiredFields = true ∧
    (∃ severity, Members.get fs (lit "severity") = .str severity ∧ severity ∈ severities ∧
      severity ≠ severityBlocking) ∧
    (∃ category, Members.get fs (lit "category") = .str category ∧
      category ∈ modelReviewCategories) ∧
    (∃ file, Members.get fs (lit "file") = .str file ∧ boundFile changedFiles file = true) ∧
    (Members.get fs (lit "line") = .null ∨
      ∃ n : ℤ, Members.get fs (lit "line") = .int n ∧ 1 ≤ n) ∧
    ∃ message, Members.get fs (lit "message") = .str message ∧ strip message ≠ [] ∧
      message.length ≤ 2000

/-- A value that is read as a review that lets the change pass. -/
def PassingReview (changedFiles : List PyStr) (payload : Json) : Prop :=
  ∃ ms summary items, payload = .obj ms ∧
    Members.keysAre ms [lit "summary", lit "findings"] = true ∧
    Members.get ms (lit "summary") = .str summary ∧ strip summary ≠ [] ∧ summary.length ≤ 2000 ∧
    Members.get ms (lit "findings") = .arr items ∧ items.length ≤ 100 ∧
    ∀ item ∈ items, PassingFinding changedFiles item

/-- An answer that is loaded either is no JSON, as `JSONDecodeError` says, or it is a value; and if
the value passes, then no object of the text names a member twice. -/
def IsPlainAnswer (base : ReviewReport) (response : PyStr) (changedFiles : List PyStr)
    (evidence : Option ε) : Prop :=
  IsLoaded base response evidence →
    loadsWithin limit (reviewBody response) = .error (.json .decode) ∨
      ∃ payload, loadsWithin limit (reviewBody response) = .ok payload ∧
        (base.ok = true → (evidence.bind fingerprint).isSome = true →
          PassingReview changedFiles payload → ∃ v, loads (reviewBody response) = .ok v)

/-! ## Reading -/

theorem lineNumber_eq_ok {v : Json} {line : Option ℤ} : lineNumber v = .ok line ↔
    v = .null ∧ line = none ∨ ∃ n : ℤ, v = .int n ∧ 1 ≤ n ∧ line = some n := by
  cases v with
  | null => simp [lineNumber, eq_comm]
  | int n =>
    rw [lineNumber]
    split_ifs with h
    · simp only [false_and, false_or, false_iff, not_exists]
      rintro m ⟨hm, hle, -⟩
      obtain rfl := Json.int.inj hm
      omega
    · simp only [Except.ok.injEq, false_and, false_or]
      constructor
      · rintro rfl
        exact ⟨n, rfl, by omega, rfl⟩
      · rintro ⟨m, hm, -, rfl⟩
        rw [Json.int.inj hm]
  | _ => simp [lineNumber]

theorem mem_of_boundFile {changedFiles : List PyStr} {name : PyStr}
    (h : boundFile changedFiles name = true) : name ∈ changedFiles := by
  simp only [boundFile, Bool.and_eq_true, List.contains_iff_mem] at h
  exact h.2

theorem readFinding_eq_ok {changedFiles : List PyStr} {evidenceRef : PyStr} {item : Json}
    {finding : ReviewFinding} : readFinding changedFiles evidenceRef item = .ok finding ↔
    ∃ fs : Members, item = .obj fs ∧ Members.keysAre fs requiredFields = true ∧
      (Members.get fs (lit "severity") = .str finding.severity ∧ finding.severity ∈ severities) ∧
      (Members.get fs (lit "category") = .str finding.category ∧
        finding.category ∈ modelReviewCategories) ∧
      (Members.get fs (lit "file") = .str finding.file ∧
        boundFile changedFiles finding.file = true) ∧
      lineNumber (Members.get fs (lit "line")) = .ok finding.line ∧
      (∃ message, Members.get fs (lit "message") = .str message ∧ strip message ≠ [] ∧
        message.length ≤ 2000 ∧ finding.message = strip message) ∧
      finding.evidenceRef = evidenceRef := by
  cases item with
  | obj fs =>
    simp only [readFinding, bind_eq_ok, require_eq_ok, orRaise_eq_ok, Json.text?_eq_some,
      List.contains_iff_mem, Bool.and_eq_true, Bool.not_eq_true', List.isEmpty_eq_false_iff,
      decide_eq_true_eq, Json.obj.injEq, Except.ok.injEq, exists_eq_left']
    constructor
    · rintro ⟨-, hkeys, severity, hseverity, -, hsev, category, hcategory, -, hcat, file, hfile, -,
        hbound, line, hline, message, hmessage, -, ⟨hne, hlen⟩, rfl⟩
      exact ⟨hkeys, ⟨hseverity, hsev⟩, ⟨hcategory, hcat⟩, ⟨hfile, hbound⟩, hline,
        ⟨message, hmessage, hne, hlen, rfl⟩, rfl⟩
    · rintro ⟨hkeys, ⟨hseverity, hsev⟩, ⟨hcategory, hcat⟩, ⟨hfile, hbound⟩, hline,
        ⟨message, hmessage, hne, hlen, hstrip⟩, href⟩
      refine ⟨(), hkeys, _, hseverity, (), hsev, _, hcategory, (), hcat, _, hfile, (), hbound, _,
        hline, message, hmessage, (), ⟨hne, hlen⟩, ?_⟩
      rw [← hstrip, ← href]
  | _ => simp [readFinding]

theorem readPayload_eq_ok {payload : Json} {summary : PyStr} {items : List Json} :
    readPayload payload = .ok (summary, items) ↔ ∃ ms : Members, payload = .obj ms ∧
      Members.keysAre ms [lit "summary", lit "findings"] = true ∧
      Members.get ms (lit "summary") = .str summary ∧ strip summary ≠ [] ∧
      summary.length ≤ 2000 ∧ Members.get ms (lit "findings") = .arr items ∧
      items.length ≤ 100 := by
  cases payload with
  | obj ms =>
    simp only [readPayload, bind_eq_ok, require_eq_ok, Json.obj.injEq, exists_eq_left']
    split
    · next s is hsummary hfindings =>
      simp only [hsummary, hfindings, Json.str.injEq, Json.arr.injEq, bind_eq_ok, require_eq_ok,
        Bool.and_eq_true, Bool.not_eq_true', List.isEmpty_eq_false_iff, decide_eq_true_eq,
        Except.ok.injEq, Prod.mk.injEq]
      constructor
      · rintro ⟨-, hkeys, -, ⟨⟨hne, hlen⟩, hcount⟩, rfl, rfl⟩
        exact ⟨hkeys, rfl, hne, hlen, rfl, hcount⟩
      · rintro ⟨hkeys, rfl, hne, hlen, rfl, hcount⟩
        exact ⟨(), hkeys, (), ⟨⟨hne, hlen⟩, hcount⟩, rfl, rfl⟩
    · next hnot =>
      simp only [reduceCtorEq, and_false, exists_false, false_iff]
      rintro ⟨-, hsummary, -, -, hfindings, -⟩
      exact hnot _ _ hsummary hfindings
  | _ => simp [readPayload]

/-- A finding that is read and does not block is one that passes. -/
theorem exists_readFinding_iff {changedFiles : List PyStr} {evidenceRef : PyStr} {item : Json} :
    (∃ finding, readFinding changedFiles evidenceRef item = .ok finding ∧
      finding.isBlocking = false) ↔ PassingFinding changedFiles item := by
  constructor
  · rintro ⟨finding, hread, hopen⟩
    obtain ⟨fs, rfl, hkeys, ⟨hseverity, hsev⟩, hcategory, hfile, hline, hmessage, -⟩ :=
      (readFinding_eq_ok).mp hread
    obtain ⟨message, hget, hne, hlen, -⟩ := hmessage
    refine ⟨fs, rfl, hkeys, ⟨_, hseverity, hsev, by simpa [ReviewFinding.isBlocking] using hopen⟩,
      ⟨_, hcategory⟩, ⟨_, hfile⟩, ?_, message, hget, hne, hlen⟩
    rcases (lineNumber_eq_ok).mp hline with ⟨hnull, -⟩ | ⟨n, hn, hle, -⟩
    · exact Or.inl hnull
    · exact Or.inr ⟨n, hn, hle⟩
  · rintro ⟨fs, rfl, hkeys, ⟨severity, hseverity, hsev, hopen⟩, ⟨category, hcategory⟩,
      ⟨file, hfile⟩, hline, message, hmessage, hne, hlen⟩
    have hnumber : ∃ line, lineNumber (Members.get fs (lit "line")) = .ok line := by
      rcases hline with hnull | ⟨n, hn, hle⟩
      · exact ⟨none, (lineNumber_eq_ok).mpr (Or.inl ⟨hnull, rfl⟩)⟩
      · exact ⟨some n, (lineNumber_eq_ok).mpr (Or.inr ⟨n, hn, hle, rfl⟩)⟩
    obtain ⟨line, hline⟩ := hnumber
    refine ⟨⟨severity, category, file, strip message, evidenceRef, line⟩,
      (readFinding_eq_ok).mpr ⟨fs, rfl, hkeys, ⟨hseverity, hsev⟩, hcategory, hfile, hline,
        ⟨message, hmessage, hne, hlen, rfl⟩, rfl⟩, by simpa [ReviewFinding.isBlocking] using hopen⟩

/-- Findings that pass are read one by one. -/
theorem exists_findings {changedFiles : List PyStr} (evidenceRef : PyStr) : ∀ {items : List Json},
    (∀ item ∈ items, PassingFinding changedFiles item) → ∃ findings : List ReviewFinding,
      List.Forall₂ (fun item finding => readFinding changedFiles evidenceRef item = .ok finding)
        items findings ∧ findings.any ReviewFinding.isBlocking = false
  | [], _ => ⟨[], .nil, rfl⟩
  | item :: items, h => by
    obtain ⟨finding, hread, hopen⟩ := (exists_readFinding_iff).mpr (h item (by simp))
    obtain ⟨findings, hreads, hrest⟩ :=
      exists_findings evidenceRef fun i hi => h i (List.mem_cons_of_mem _ hi)
    exact ⟨finding :: findings, .cons hread hreads, by rw [List.any_cons, hopen, hrest]; rfl⟩

/-- Findings that are read and do not block pass. -/
theorem passing_of_readFinding {changedFiles : List PyStr} {evidenceRef : PyStr} :
    ∀ {items : List Json} {findings : List ReviewFinding},
      List.Forall₂ (fun item finding => readFinding changedFiles evidenceRef item = .ok finding)
        items findings → findings.any ReviewFinding.isBlocking = false →
      ∀ item ∈ items, PassingFinding changedFiles item
  | [], [], _, _ => by simp
  | item :: items, finding :: findings, .cons hread hreads, hopen => by
    rw [List.any_cons, Bool.or_eq_false_iff] at hopen
    exact List.forall_mem_cons.mpr ⟨(exists_readFinding_iff).mp ⟨finding, hread, hopen.1⟩,
      passing_of_readFinding hreads hopen.2⟩

/-- Findings that are read and do not block are closed. -/
theorem closed_of_readFinding {changedFiles : List PyStr} {evidenceRef : PyStr} :
    ∀ {items : List Json} {findings : List ReviewFinding},
      List.Forall₂ (fun item finding => readFinding changedFiles evidenceRef item = .ok finding)
        items findings → findings.any ReviewFinding.isBlocking = false →
      List.Forall₂ (ClosedFinding changedFiles evidenceRef) items findings
  | [], [], _, _ => .nil
  | item :: items, finding :: findings, .cons hread hreads, hopen => by
    rw [List.any_cons, Bool.or_eq_false_iff] at hopen
    obtain ⟨fs, hitem, hkeys, ⟨hseverity, -⟩, -, ⟨hfile, hbound⟩, -, -, href⟩ :=
      (readFinding_eq_ok).mp hread
    refine .cons ⟨⟨fs, hitem, hkeys, hfile, hseverity⟩, mem_of_boundFile hbound, ?_, href⟩
      (closed_of_readFinding hreads hopen.2)
    simpa [ReviewFinding.isBlocking] using hopen.1

theorem readReview_eq_ok {evidenceRef : Option PyStr} {changedFiles : List PyStr} {payload : Json}
    {summary : PyStr} {findings : List ReviewFinding} :
    readReview evidenceRef changedFiles payload = .ok (summary, findings) ↔
      ∃ items ref, readPayload payload = .ok (summary, items) ∧ evidenceRef = some ref ∧
        List.Forall₂ (fun item finding => readFinding changedFiles ref item = .ok finding)
          items findings := by
  simp only [readReview, bind_eq_ok, orRaise_eq_ok, mapAll_eq_ok, Except.ok.injEq, Prod.mk.injEq,
    Prod.exists]
  constructor
  · rintro ⟨_, items, hpayload, ref, href, _, hfindings, rfl, rfl⟩
    exact ⟨items, ref, hpayload, href, hfindings⟩
  · rintro ⟨items, ref, hpayload, href, hfindings⟩
    exact ⟨summary, items, hpayload, ref, href, findings, hfindings, rfl, rfl⟩

/-- What is read without a blocking finding is a review that passes. -/
theorem exists_readReview_iff {evidenceRef : Option PyStr} {changedFiles : List PyStr}
    {payload : Json} :
    (∃ summary findings, readReview evidenceRef changedFiles payload = .ok (summary, findings) ∧
      findings.any ReviewFinding.isBlocking = false) ↔
      evidenceRef.isSome = true ∧ PassingReview changedFiles payload := by
  constructor
  · rintro ⟨summary, findings, hread, hopen⟩
    obtain ⟨items, ref, hpayload, rfl, hfindings⟩ := (readReview_eq_ok).mp hread
    obtain ⟨ms, rfl, hkeys, hsummary, hne, hlen, hitems, hcount⟩ := (readPayload_eq_ok).mp hpayload
    exact ⟨rfl, ms, summary, items, rfl, hkeys, hsummary, hne, hlen, hitems, hcount,
      passing_of_readFinding hfindings hopen⟩
  · rintro ⟨href, ms, summary, items, rfl, hkeys, hsummary, hne, hlen, hitems, hcount, hpass⟩
    obtain ⟨ref, rfl⟩ := Option.isSome_iff_exists.mp href
    obtain ⟨findings, hfindings, hopen⟩ := exists_findings ref hpass
    exact ⟨summary, findings, (readReview_eq_ok).mpr ⟨items, ref, (readPayload_eq_ok).mpr
      ⟨ms, rfl, hkeys, hsummary, hne, hlen, hitems, hcount⟩, rfl, hfindings⟩, hopen⟩

/-! ## The main theorem -/

variable {base : ReviewReport} {response : PyStr} (changedFiles : List PyStr) {evidence : Option ε}

/-- An answer that is not loaded is refused. -/
theorem mergeModelReview_of_not_loaded (h : ¬IsLoaded base response evidence) :
    ∃ reason, mergeModelReview limit fingerprint base response changedFiles evidence =
      .ok (base.failed changedFiles reason) := by
  unfold mergeModelReview
  cases hread : base.readOnlyVerified with
  | false => exact ⟨_, rfl⟩
  | true =>
    cases evidence with
    | none => exact ⟨_, rfl⟩
    | some e =>
      cases hbytes : encode response with
      | none => exact ⟨_, rfl⟩
      | some bytes =>
        have hlarge : 32 * 1024 < bytes.length := by
          by_contra hsmall
          exact h ⟨hread, rfl, bytes, hbytes, by omega⟩
        exact ⟨.tooLarge, by simp [hlarge]⟩

theorem mergeModelReview_of_loaded {e : ε} (h : IsLoaded base response (some e)) :
    mergeModelReview limit fingerprint base response changedFiles (some e) =
      match loadsWithin limit (reviewBody response) with
      | .error (.json .decode) => .ok (base.failed changedFiles .notJson)
      | .error e => .error e
      | .ok payload =>
        .ok (reportOf base changedFiles (readReview (fingerprint e) changedFiles payload)) := by
  obtain ⟨bytes, hbytes, hsize⟩ := h.size
  simp [mergeModelReview, h.readOnly, hbytes, Nat.not_lt.mpr hsize]

/-- A report that passes reads a review that passes. -/
theorem reportOf_ok_iff {changedFiles : List PyStr}
    {read : Except ReviewProblem (PyStr × List ReviewFinding)} :
    (reportOf base changedFiles read).ok = true ↔ base.ok = true ∧
      ∃ summary findings, read = .ok (summary, findings) ∧
        findings.any ReviewFinding.isBlocking = false := by
  cases read with
  | error reason => simp [reportOf, ReviewReport.failed]
  | ok r =>
    obtain ⟨summary, findings⟩ := r
    simp only [reportOf, Bool.and_eq_true, Bool.not_eq_true', Except.ok.injEq, Prod.mk.injEq]
    constructor
    · rintro ⟨hbase, hopen⟩
      exact ⟨hbase, summary, findings, ⟨rfl, rfl⟩, hopen⟩
    · rintro ⟨hbase, _, _, ⟨rfl, rfl⟩, hopen⟩
      exact ⟨hbase, hopen⟩

/-- The review fails closed exactly on the answers that are plain. -/
theorem failsClosed_iff : FailsClosed limit fingerprint base response changedFiles evidence ↔
    IsPlainAnswer limit fingerprint base response changedFiles evidence := by
  by_cases hloaded : IsLoaded base response evidence
  case neg =>
    obtain ⟨reason, hmerge⟩ := mergeModelReview_of_not_loaded limit fingerprint
      changedFiles hloaded
    refine iff_of_true ⟨⟨_, hmerge⟩, fun report hreport hok => ?_⟩ fun h => absurd h hloaded
    rw [hmerge, Except.ok.injEq] at hreport
    subst hreport
    cases hok
  obtain ⟨e, rfl⟩ := Option.isSome_iff_exists.mp hloaded.evidence
  have hmerge := mergeModelReview_of_loaded limit fingerprint changedFiles hloaded
  constructor
  · intro h _
    obtain ⟨report, hreport⟩ := h.total
    cases hload : loadsWithin limit (reviewBody response) with
    | error err =>
      left
      rw [hmerge, hload] at hreport
      split at hreport
      · next herr => rw [herr]
      · cases hreport
      · next herr => cases herr
    | ok payload =>
      refine Or.inr ⟨payload, rfl, fun hbase href hpass => ?_⟩
      rw [hload] at hmerge
      have hok : (reportOf base changedFiles
          (readReview (fingerprint e) changedFiles payload)).ok = true :=
        (reportOf_ok_iff).mpr ⟨hbase, (exists_readReview_iff).mpr ⟨href, hpass⟩⟩
      obtain ⟨-, -, -, -, v, -, -, -, -, hloads, -⟩ := h.closed _ hmerge hok
      exact ⟨_, hloads⟩
  · intro h
    rcases h hloaded with hdecode | ⟨payload, hload, hplain⟩
    · rw [hdecode] at hmerge
      refine ⟨⟨_, hmerge⟩, fun report hreport hok => ?_⟩
      rw [hmerge, Except.ok.injEq] at hreport
      subst hreport
      cases hok
    · rw [hload] at hmerge
      refine ⟨⟨_, hmerge⟩, fun report hreport hok => ?_⟩
      rw [hmerge, Except.ok.injEq] at hreport
      subst hreport
      obtain ⟨hbase, summary, findings, hread, hopen⟩ := (reportOf_ok_iff).mp hok
      obtain ⟨href, hpass⟩ := (exists_readReview_iff).mp ⟨summary, findings, hread, hopen⟩
      obtain ⟨v, hv⟩ := hplain hbase href hpass
      obtain rfl : v = payload :=
        Except.ok.inj ((loadsPlain_of_loads hv).symm.trans (loadsPlain_of_loadsWithin hload))
      obtain ⟨items, ref, hpayload, hsome, hfindings⟩ := (readReview_eq_ok).mp hread
      obtain ⟨ms, rfl, hkeys, -, -, -, hitems, -⟩ := (readPayload_eq_ok).mp hpayload
      refine ⟨hbase, hloaded.readOnly, e, ref, ms, items, findings, rfl, hsome, hv, hkeys, hitems,
        by rw [hread]; rfl, ?_⟩
      exact closed_of_readFinding hfindings hopen

end

/-- A review with two summaries. -/
def twoSummaries : PyStr :=
  lit "\x7b\"summary\": \"a\", \"summary\": \"b\", \"findings\": []\x7d"

/-- A review with two summaries passes. -/
theorem not_failsClosed : ¬∀ (limit : ℕ) (fingerprint : PyStr → Option PyStr) (base : ReviewReport)
    (response : PyStr) (changedFiles : List PyStr) (evidence : Option PyStr),
    FailsClosed limit fingerprint base response changedFiles evidence := by
  intro h
  let base : ReviewReport := ⟨true, [], [], true, none, false, []⟩
  have hmerge : (mergeModelReview 1000 some base twoSummaries [] (some [])).toOption.map (·.ok) =
      some true := by
    decide
  cases hreport : mergeModelReview 1000 some base twoSummaries [] (some []) with
  | error e =>
    rw [hreport] at hmerge
    cases hmerge
  | ok report =>
    rw [hreport] at hmerge
    have hok : report.ok = true := Option.some.inj hmerge
    obtain ⟨-, -, -, -, v, -, -, -, -, hloads, -⟩ :=
      (h 1000 some base twoSummaries [] (some [])).closed report hreport hok
    have hdup : (loads (reviewBody twoSummaries)).toOption.isSome = false := by
      decide
    rw [hloads] at hdup
    cases hdup

end ModelReview

end Icode
