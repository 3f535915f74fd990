import Icode.ControlFiles
import Icode.PyRepr
import Icode.Anchors

/-!
# The artifacts of a package

The chain of events records the digest of every artifact, and `artifacts.json` names a snapshot in
the package for it. `artifactBindingProblems` (`_verify_artifact_binding`) reads every snapshot and
compares : an index without problems has a snapshot for every digest of the chain, and an entry
that names a digest of the chain names that of its snapshot (`bound_of_artifactBindingProblems`).

An index is not looked at when the chain records no artifact.
-/

namespace Icode

open Py

/-- `_MAX_ARTIFACT_INDEX_JSON_BYTES` -/
def maxArtifactIndexJsonBytes : ℕ := 8 * 1024 * 1024

/-- `_MAX_ARTIFACT_INDEX_ENTRIES` -/
def maxArtifactIndexEntries : ℕ := 50000

/-- `_MAX_PACKAGE_FILE_BYTES` -/
def maxPackageFileBytes : ℕ := 256 * 1024 * 1024

/-- `_MAX_PACKAGE_ARTIFACT_BYTES` -/
def maxPackageArtifactBytes : ℕ := 256 * 1024 * 1024

/-- What `_verify_artifact_binding` reports; an index is that of the entry. -/
inductive ArtifactProblem where
  /-- artifacts.json 包内路径无效（必须是普通文件） -/
  | indexPath
  /-- 事件链存在产物记录，但缺少 artifacts.json（正文对应表） -/
  | indexMissing
  /-- artifacts.json 不可解析 -/
  | indexUnreadable (e : ControlError)
  /-- artifacts.json 的 artifacts 结构无效（必须是数组） -/
  | indexStructure
  /-- artifacts.json 的 artifacts 条目数量超过安全上限 -/
  | entryCount
  /-- 产物快照累计字节超过安全上限 -/
  | snapshotBytes
  /-- artifacts.json 第 i 项结构无效（必须是对象） -/
  | entry (i : ℕ)
  /-- artifacts.json 第 i 项快照包内路径无效 -/
  | snapshotPath (i : ℕ)
  /-- 正文快照缺失 -/
  | snapshotMissing (path : PyStr)
  /-- 正文快照超过单文件安全上限 -/
  | snapshotSize
  /-- 证据包累计摘要读取超过安全上限 -/
  | readBudget
  /-- 正文快照与事件链记录不符（疑似篡改） -/
  | digest (path chain actual : PyStr)
  /-- artifacts.json 引用了事件链上不存在的哈希 -/
  | unknownDigest (chain : PyStr)
  /-- 事件链记录的产物缺少正文快照 -/
  | missing (digest path : PyStr)

/-! ## The index -/

/-- The content of a file of the manifest's form of path. -/
def memberFile (es : Directory) (relative : PyStr) : Option Bytes :=
  (memberPath es relative).bind (fileAt es)

/-- `isinstance(item, dict)` and its `snapshot`, when that is a text. -/
def snapshotRel? : Json → Option PyStr
  | .obj item => (Members.get item "snapshot").text?
  | _ => none

/-- `str(item.get("chain_sha256") or "")` -/
def chainDigest (printable : CodePoint → Bool) (item : Members) : PyStr :=
  let value := item.get "chain_sha256"
  if value.truthy then value.pyStr printable else []

/-- The loop over the entries that adds up the sizes of the snapshots, each path once. -/
def snapshotsFit (es : Directory) (seen : List PyStr) (total : ℕ) : List Json → Bool
  | [] => true
  | item :: items =>
    match (snapshotRel? item).filter fun rel => !seen.contains rel with
    | none => snapshotsFit es seen total items
    | some rel =>
      match memberFile es rel with
      | none => snapshotsFit es (rel :: seen) total items
      | some content =>
        if maxPackageArtifactBytes < total + content.length then false
        else snapshotsFit es (rel :: seen) (total + content.length) items

/-- The local variables of the loop that compares the snapshots. -/
structure ArtifactCheck where
  problems : List ArtifactProblem
  bound : List PyStr
  incomplete : Bool
  remaining : ℕ

namespace ArtifactCheck

/-- `problems.append(p)` for each of `ps`. -/
def report (s : ArtifactCheck) (ps : List ArtifactProblem) : ArtifactCheck :=
  { s with problems := s.problems ++ ps }

section Check

variable (printable : CodePoint → Bool) (es : Directory) (facts : Dict PyStr (PyStr × PyStr))

/-- The snapshot of an entry is compared with the digest the entry names. -/
def compare (s : ArtifactCheck) (rel chain actual : PyStr) (remaining : ℕ) : ArtifactCheck :=
  { s.report (issueUnless (chain.isEmpty || actual == chain) (.digest rel chain actual) ++
      issueUnless (chain.isEmpty || Dict.has facts chain) (.unknownDigest chain)) with
    bound := actual :: s.bound
    remaining := remaining }

/-- The body of the loop, which ends the function with an error when the budget is used up. -/
def step (s : ArtifactCheck) (i : ℕ) (value : Json) : Except ArtifactCheck ArtifactCheck :=
  match value with
  | .obj item =>
    match (Members.get item "snapshot").text? with
    | none => .ok (s.report [.snapshotPath i])
    | some rel =>
      match memberPath es rel with
      | none => .ok (s.report [.snapshotPath i])
      | some path =>
        match fileAt es path with
        | none => .ok (s.report [.snapshotMissing rel])
        | some content =>
          match sha256File maxPackageFileBytes content s.remaining with
          | (.ok actual, remaining) =>
            .ok (s.compare facts rel (chainDigest printable item) actual remaining)
          | (.error .fileSize, remaining) =>
            .ok { s.report [.snapshotSize] with incomplete := true, remaining := remaining }
          | (.error .readBudget, remaining) =>
            .error { s.report [.readBudget] with remaining := remaining }
  | _ => .ok (s.report [.entry i])

/-- The loop over the entries. -/
def run (s : ArtifactCheck) (i : ℕ) : List Json → Except ArtifactCheck ArtifactCheck
  | [] => .ok s
  | value :: values =>
    match s.step printable es facts i value with
    | .ok s => s.run (i + 1) values
    | .error s => .error s

end Check

end ArtifactCheck

/-- The entries of the index, and the problem when they are no list. -/
def artifactEntries (index : Members) : List ArtifactProblem × List Json :=
  match Members.get index "artifacts" with
  | .null => ([], [])
  | .arr items => ([], items)
  | _ => ([.indexStructure], [])

/-- The digests of the chain that no snapshot has, in the order of the digests. -/
def missingSnapshots (facts : Dict PyStr (PyStr × PyStr)) (bound : List PyStr) :
    List ArtifactProblem :=
  (sortNames ((Dict.keys facts).filter fun digest => !bound.contains digest)).map fun digest =>
    .missing digest (((Dict.get? facts digest).map Prod.snd).getD [])

section Binding

variable (printable : CodePoint → Bool) (es : Directory) (facts : Dict PyStr (PyStr × PyStr))

/-- The part of `_verify_artifact_binding` that follows the reading of the index. -/
def indexProblems (index : Members) (remaining : ℕ) : List ArtifactProblem :=
  let (problems, items) := artifactEntries index
  if maxArtifactIndexEntries < items.length then problems ++ [.entryCount]
  else if !snapshotsFit es [] 0 items then problems ++ [.snapshotBytes]
  else
    match (ArtifactCheck.mk problems [] false remaining).run printable es facts 1 items with
    | .error s => s.problems
    | .ok s => if s.incomplete then s.problems else s.problems ++ missingSnapshots facts s.bound

/-- `_verify_artifact_binding`, with what is left of the budget. -/
def artifactBindingProblems (remaining : ℕ) : List ArtifactProblem :=
  if facts.isEmpty then []
  else
    match memberPath es "artifacts.json" with
    | none => [.indexPath]
    | some path =>
      match fileAt es path with
      | none => [.indexMissing]
      | some content =>
        match loadJsonObject content maxArtifactIndexJsonBytes with
        | .error e => [.indexUnreadable e]
        | .ok index => indexProblems printable es facts index remaining

end Binding

/-! ## An index without problems -/

/-- The entry names a file of the package with the digest. -/
def HasSnapshot (es : Directory) (value : Json) (digest : PyStr) : Prop :=
  ∃ item rel content, value = .obj item ∧ Members.get item "snapshot" = .str rel ∧
    memberFile es rel = some content ∧ sha256 content = digest

/-- The digest of the chain that the entry names is that of its snapshot. -/
def NamesSnapshot (printable : CodePoint → Bool) (es : Directory)
    (facts : Dict PyStr (PyStr × PyStr)) (value : Json) : Prop :=
  ∀ item, value = .obj item → chainDigest printable item ≠ [] →
    HasSnapshot es value (chainDigest printable item) ∧
      Dict.has facts (chainDigest printable item) = true

section Bound

variable {printable : CodePoint → Bool} {es : Directory} {facts : Dict PyStr (PyStr × PyStr)}
  {s s' : ArtifactCheck}

namespace ArtifactCheck

/-- What the body of the loop leaves, when it reports nothing. -/
theorem step_of_clean {i : ℕ} {value : Json} (h : s.step printable es facts i value = .ok s')
    (hclean : s'.problems = []) :
    s.problems = [] ∧ s'.incomplete = s.incomplete ∧ NamesSnapshot printable es facts value ∧
      ∃ digest, HasSnapshot es value digest ∧ s'.bound = digest :: s.bound := by
  have hreport : ∀ {ps : List ArtifactProblem} {p : ArtifactProblem}, s.problems ++ p :: ps ≠ [] :=
    fun h => absurd h (by simp)
  unfold step at h
  split at h
  · next item =>
    split at h
    · obtain rfl := Except.ok.inj h
      exact absurd hclean hreport
    next rel hrel =>
    split at h
    · obtain rfl := Except.ok.inj h
      exact absurd hclean hreport
    next path hpath =>
    split at h
    · obtain rfl := Except.ok.inj h
      exact absurd hclean hreport
    next content hcontent =>
    split at h
    · next actual remaining hactual =>
      obtain rfl := Except.ok.inj h
      obtain rfl := sha256File_eq_ok hactual
      simp only [compare, report, List.append_eq_nil_iff, issueUnless_eq_nil, Bool.or_eq_true,
        List.isEmpty_iff, beq_iff_eq] at hclean
      obtain ⟨hproblems, hdigest, hknown⟩ := hclean
      have hsnapshot : HasSnapshot es (.obj item) (sha256 content) :=
        ⟨item, rel, content, rfl, Json.text?_eq_some.mp hrel,
          by rw [memberFile, hpath, Option.bind_some, hcontent], rfl⟩
      refine ⟨hproblems, rfl, fun item' hitem hchain => ?_, _, hsnapshot, rfl⟩
      obtain rfl := Json.obj.inj hitem
      rw [← hdigest.resolve_left hchain] at hknown ⊢
      exact ⟨hsnapshot, hknown.resolve_left fun hnil => hchain ((hdigest.resolve_left hchain) ▸ hnil)⟩
    · obtain rfl := Except.ok.inj h
      exact absurd hclean hreport
    · simp at h
  · obtain rfl := Except.ok.inj h
    exact absurd hclean hreport

/-- What the loop leaves, when it reports nothing. -/
theorem run_of_clean {values : List Json} : ∀ {s : ArtifactCheck} {i : ℕ},
    s.run printable es facts i values = .ok s' → s'.problems = [] →
      s.problems = [] ∧ s'.incomplete = s.incomplete ∧
        (∀ value ∈ values, NamesSnapshot printable es facts value) ∧
        ∀ digest ∈ s'.bound, digest ∈ s.bound ∨ ∃ value ∈ values, HasSnapshot es value digest := by
  induction values with
  | nil =>
    intro s i h hclean
    obtain rfl := Except.ok.inj h
    exact ⟨hclean, rfl, by simp, fun digest hdigest => Or.inl hdigest⟩
  | cons value values ih =>
    intro s i h hclean
    unfold run at h
    split at h
    · next k hstep =>
      obtain ⟨hk, hincomplete, hnames, hbound⟩ := ih h hclean
      obtain ⟨hs, hincomplete', hname, actual, hactual, hset⟩ := step_of_clean hstep hk
      refine ⟨hs, hincomplete.trans hincomplete', List.forall_mem_cons.mpr ⟨hname, hnames⟩,
        fun digest hdigest => ?_⟩
      rcases hbound digest hdigest with hmem | ⟨v, hv, hsnapshot⟩
      · rw [hset] at hmem
        rcases List.mem_cons.mp hmem with rfl | hmem
        · exact Or.inr ⟨value, List.mem_cons_self, hactual⟩
        · exact Or.inl hmem
      · exact Or.inr ⟨v, List.mem_cons_of_mem _ hv, hsnapshot⟩
    · simp at h

/-- A loop that ends the function has reported why. -/
theorem problems_ne_nil_of_run {values : List Json} : ∀ {s : ArtifactCheck} {i : ℕ},
    s.run printable es facts i values = .error s' → s'.problems ≠ [] := by
  induction values with
  | nil => simp [run]
  | cons value values ih =>
    intro s i h
    unfold run at h
    split at h
    · exact ih h
    · next k hstep =>
      obtain rfl := Except.error.inj h
      unfold step at hstep
      split at hstep
      · split at hstep
        · simp at hstep
        split at hstep
        · simp at hstep
        split at hstep
        · simp at hstep
        split at hstep
        · simp at hstep
        · simp at hstep
        · obtain rfl := Except.error.inj hstep
          simp [report]
      · simp at hstep

end ArtifactCheck

/-- The entries of `artifacts.json`, when it can be read. -/
def artifactItems (es : Directory) : List Json :=
  match memberFile es "artifacts.json" with
  | none => []
  | some content =>
    match loadJsonObject content maxArtifactIndexJsonBytes with
    | .error _ => []
    | .ok index => (artifactEntries index).2

theorem mem_of_missingSnapshots {bound : List PyStr} (h : missingSnapshots facts bound = [])
    {digest : PyStr} (hdigest : Dict.has facts digest = true) : digest ∈ bound := by
  rw [missingSnapshots, List.map_eq_nil_iff, sortNames, ← List.length_eq_zero_iff,
    List.length_insertionSort, List.length_eq_zero_iff, List.filter_eq_nil_iff] at h
  simpa using h digest (Dict.has_iff_mem.mp hdigest)

/-- In an index without problems every digest of the chain has a snapshot, and an entry that names a
digest names one of the chain that its snapshot has. -/
theorem bound_of_artifactBindingProblems {remaining : ℕ} (hfacts : facts ≠ [])
    (h : artifactBindingProblems printable es facts remaining = []) :
    (∀ digest, Dict.has facts digest = true →
      ∃ value ∈ artifactItems es, HasSnapshot es value digest) ∧
      ∀ value ∈ artifactItems es, NamesSnapshot printable es facts value := by
  unfold artifactBindingProblems at h
  rw [if_neg (by simpa using hfacts)] at h
  split at h
  · simp at h
  next path hpath =>
  split at h
  · simp at h
  next content hcontent =>
  split at h
  · simp at h
  next index hindex =>
  have hitems : artifactItems es = (artifactEntries index).2 := by
    simp only [artifactItems, memberFile, hpath, Option.bind_some, hcontent, hindex]
  rw [hitems]
  unfold indexProblems at h
  dsimp only at h
  split_ifs at h
  · simp at h
  · simp at h
  · split at h
    · next s hrun => exact absurd h (ArtifactCheck.problems_ne_nil_of_run hrun)
    · next s hrun =>
      have hclean : s.problems = [] := by
        split_ifs at h
        · exact h
        · exact (List.append_eq_nil_iff.mp h).1
      obtain ⟨-, hincomplete, hnames, hbound⟩ := ArtifactCheck.run_of_clean hrun hclean
      rw [hincomplete, if_neg (by simp)] at h
      refine ⟨fun digest hdigest => ?_, hnames⟩
      have hmem := mem_of_missingSnapshots (List.append_eq_nil_iff.mp h).2 hdigest
      exact (hbound digest hmem).resolve_left (by simp)

end Bound

end Icode
