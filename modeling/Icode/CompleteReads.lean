import Icode.AgentLoop
import Icode.SplitLines

/-!
# Files read to the end

`_record_complete_read_file` keeps the line spans of the files that the model has read, and says of
a read whether it completes its file. The spans come in any order and from any files, and they are
sorted and merged at every read : a line from 1 on is left out of the merge exactly when no span has
it (`nextLine_iff`). A read that finds another number of lines than the reads before it forgets
them, and itself (`recorded`).

`report_iff` says when a read is reported : the spans kept for its file cover all its lines. A file
without lines is the exception, as only a read from its first line counts (`emptyRead_unreported`).
-/

namespace Icode.Agent

open Compaction Py

/-! ## The tool -/

/-- `f"{i:>5}| {line}"`. -/
def numberedLine (line : PyStr × ℕ) : PyStr :=
  let digits := ofChars (Nat.toDigits 10 line.2)
  List.replicate (5 - digits.length) (.scalar ' ') ++ digits ++ lit "| " ++ line.1

/-- `read_file`, once the text of the file is read. -/
def readFile (target content : PyStr) (offset limit : ℤ) : ToolResult :=
  let lines := splitlines content
  let start := max 1 offset
  let stop := min (lines.length : ℤ) (start - 1 + max 1 limit)
  let shown := (lines.zipIdx 1).filter fun line => start ≤ line.2 ∧ line.2 ≤ stop
  let body := joinWith '\n' (shown.map numberedLine)
  let header := target ++ lit "（共 " ++ ofChars (intText lines.length) ++ lit " 行，显示 " ++
    ofChars (intText start) ++ lit "-" ++ ofChars (intText stop) ++ lit "）"
  { ok := true
    content := header ++ lit "\n" ++ body
    metadata := [("path", .json (.str target)), ("total_lines", .json (.int lines.length)),
      ("start", .json (.int start)), ("end", .json (.int stop))]
    opclass := opclassReadOnly }

/-- A call of `_record_complete_read_file` : the invocation, and what `resolve(strict=True)` gives
at that time. A `read_file` that succeeds has the result of the tool. -/
structure ReadCall where
  inv : ToolInvocation
  resolve : MetaValue → Option PyStr
  fromTool : inv.name = lit "read_file" → ∀ result ∈ inv.result, result.ok = true →
    ∃ target content offset limit, result = readFile target content offset limit

/-! ## The function -/

section Record

variable (expectedFiles : List PyStr) (outputLimit : ℤ)

/-- The file a call shows, the span of lines, and the number of all lines; `none` where the call
returns without recording. -/
def ReadCall.shown (call : ReadCall) : Option (PyStr × ℤ × ℤ × ℤ) := do
  let result ← call.inv.result
  if call.inv.name ≠ lit "read_file" ∨ !result.ok ∨
      result.clipped outputLimit ≠ result.content then none
  else
    let value ← Dict.get? result.metadata "path"
    let path ← call.resolve value
    let span ← readSpan result.metadata
    if expectedFiles.contains path then some (path, span) else none

/-- `_record_complete_read_file`. -/
def recordCompleteReadFile (r : Reads) (call : ReadCall) : Option PyStr × Reads :=
  match call.shown expectedFiles outputLimit with
  | none => (none, r)
  | some (path, first, last, total) => r.record path first last total

/-- The spans and the totals after some calls. -/
def readsAfter (r : Reads) (calls : List ReadCall) : Reads :=
  calls.foldl (fun r call => (recordCompleteReadFile expectedFiles outputLimit r call).2) r

end Record

/-- The loop records its reads with this function. -/
theorem recordRead_reads (env : Env) (w : World) (l : Loop) (call : ReadCall)
    (hresolve : call.resolve = w.resolve l.trace) :
    (recordRead env w l call.inv).reads =
      match recordCompleteReadFile env.allowedReadFiles env.outputLimit l.reads call with
      | (none, reads) => reads
      | (some path, reads) => { reads with completed := path :: reads.completed } := by
  have hshown : shownSpan env w l call.inv = call.shown env.allowedReadFiles env.outputLimit := by
    unfold shownSpan ReadCall.shown
    rw [hresolve]
  unfold recordRead recordCompleteReadFile
  rw [hshown]
  cases call.shown env.allowedReadFiles env.outputLimit with
  | none => rfl
  | some span =>
    obtain ⟨path, first, last, total⟩ := span
    cases hrecord : l.reads.record path first last total with
    | mk completed reads => cases completed <;> simp [hrecord]

/-! ## The merge -/

/-- A span has the line. -/
def Covered (spans : List (ℤ × ℤ)) (line : ℤ) : Prop :=
  ∃ span ∈ spans, span.1 ≤ line ∧ line ≤ span.2

/-- The spans have the lines from 1 to `total`. -/
def Covers (spans : List (ℤ × ℤ)) (total : ℤ) : Prop :=
  ∀ line, 1 ≤ line → line ≤ total → Covered spans line

theorem covered_cons {span : ℤ × ℤ} {spans : List (ℤ × ℤ)} {line : ℤ} :
    Covered (span :: spans) line ↔ (span.1 ≤ line ∧ line ≤ span.2) ∨ Covered spans line := by
  simp only [Covered, List.mem_cons, or_and_right, exists_or, exists_eq_left]

theorem Covered.mono {a b : List (ℤ × ℤ)} {line : ℤ} (h : ∀ span ∈ a, span ∈ b)
    (hline : Covered a line) : Covered b line := by
  obtain ⟨span, hspan, hin⟩ := hline
  exact ⟨span, h span hspan, hin⟩

/-- The merge of sorted spans that end within the file reaches its end exactly when every line from
`next` on is in one of them. -/
theorem nextLine_iff {total : ℤ} : ∀ {spans : List (ℤ × ℤ)} {next : ℤ},
    spans.Pairwise spanLe → (∀ span ∈ spans, span.2 ≤ total) → next ≤ total + 1 →
      ((∃ n, nextLine next spans = some n ∧ total < n) ↔
        ∀ line, next ≤ line → line ≤ total → Covered spans line)
  | [], next, _, _, hnext => by
    constructor
    · rintro ⟨n, hn, hlt⟩ line hle hline
      rw [nextLine, Option.some.injEq] at hn
      omega
    · intro h
      refine ⟨next, rfl, ?_⟩
      by_contra hle
      obtain ⟨span, hspan, -⟩ := h next le_rfl (by omega)
      cases hspan
  | (first, last) :: spans, next, hsorted, hends, hnext => by
    obtain ⟨hhead, hsorted⟩ := List.pairwise_cons.mp hsorted
    obtain ⟨hlast, hends⟩ := List.forall_mem_cons.mp hends
    have ih := fun n (hn : n ≤ total + 1) => nextLine_iff hsorted hends hn
    unfold nextLine
    split_ifs with hskip hgap
    · -- the span ends before `next`, so it has none of the lines
      rw [ih next hnext]
      refine forall_congr' fun line => imp_congr_right fun hle => imp_congr_right fun _ => ?_
      rw [covered_cons]
      exact ⟨Or.inr, fun h => h.resolve_left fun h => by omega⟩
    · -- no span left starts at `next` or before it
      refine iff_of_false (by simp) fun h => ?_
      rcases covered_cons.mp (h next le_rfl (by omega)) with h | ⟨span, hspan, hin⟩
      · omega
      · have hle := hhead span hspan
        unfold spanLe at hle
        omega
    · rw [ih (max next (last + 1)) (by omega)]
      constructor
      · intro h line hle hline
        rw [covered_cons]
        by_cases hin : line ≤ last
        · exact Or.inl ⟨by omega, hin⟩
        · exact Or.inr (h line (by omega) hline)
      · intro h line hle hline
        rcases covered_cons.mp (h line (by omega) hline) with h | h
        · omega
        · exact h

instance : Std.Total spanLe := ⟨fun a b => by unfold spanLe; omega⟩

instance : IsTrans (ℤ × ℤ) spanLe := ⟨fun a b c => by unfold spanLe; omega⟩

/-- The spans of a file in any order. -/
theorem merge_iff {spans : List (ℤ × ℤ)} {total : ℤ} (htotal : 0 ≤ total)
    (hends : ∀ span ∈ spans, span.2 ≤ total) :
    (∃ n, nextLine 1 (spans.insertionSort spanLe) = some n ∧ total < n) ↔ Covers spans total := by
  have hmem : ∀ {span}, span ∈ spans.insertionSort spanLe ↔ span ∈ spans :=
    List.mem_insertionSort _
  rw [nextLine_iff (List.pairwise_insertionSort spanLe spans)
    (fun span h => hends span (hmem.mp h)) (by omega)]
  refine forall_congr' fun line => imp_congr_right fun _ => imp_congr_right fun _ => ?_
  exact ⟨Covered.mono fun span => hmem.mp, Covered.mono fun span => hmem.mpr⟩

/-! ## The reads that are kept -/

/-- The span a read shows, and the number of lines of its file. -/
abbrev Shown := ℤ × ℤ × ℤ

/-- A read with the number of lines of the reads kept so far is kept; one with another number
forgets them all, and itself. -/
def keepRead (kept : List Shown) (read : Shown) : List Shown :=
  if ∀ old ∈ kept, old.2.2 = read.2.2 then kept ++ [read] else []

/-- The reads of a file that are recorded since its number of lines last changed. -/
def recorded (path : PyStr) (reads : List (PyStr × Shown)) : List Shown :=
  ((reads.filter (·.1 = path)).map (·.2)).foldl keepRead []

/-- The spans of some reads. -/
def spansOf (reads : List Shown) : List (ℤ × ℤ) :=
  reads.map fun read => (read.1, read.2.1)

theorem recorded_concat_self (path : PyStr) (reads : List (PyStr × Shown)) (read : Shown) :
    recorded path (reads ++ [(path, read)]) = keepRead (recorded path reads) read := by
  simp [recorded]

theorem recorded_concat_ne {path other : PyStr} (h : other ≠ path) (reads : List (PyStr × Shown))
    (read : Shown) : recorded path (reads ++ [(other, read)]) = recorded path reads := by
  simp [recorded, h]

theorem mem_keepRead {kept : List Shown} {read x : Shown} (h : x ∈ keepRead kept read) :
    x ∈ kept ∨ x = read := by
  unfold keepRead at h
  split_ifs at h
  · simpa using h
  · cases h

/-- The reads kept have one number of lines, and are reads of the file. -/
structure Kept (path : PyStr) (reads : List (PyStr × Shown)) (kept : List Shown) : Prop where
  mem : ∀ read ∈ kept, (path, read) ∈ reads
  total : ∀ a ∈ kept, ∀ b ∈ kept, a.2.2 = b.2.2

theorem kept_recorded (path : PyStr) (reads : List (PyStr × Shown)) :
    Kept path reads (recorded path reads) := by
  induction reads using List.reverseRecOn with
  | nil => exact ⟨by simp [recorded], by simp [recorded]⟩
  | append_singleton reads last ih =>
    obtain ⟨other, read⟩ := last
    by_cases h : other = path
    · subst h
      rw [recorded_concat_self]
      constructor
      · intro x hx
        rcases mem_keepRead hx with hx | rfl
        · exact List.mem_append_left _ (ih.mem x hx)
        · exact List.mem_append_right _ (List.mem_singleton_self _)
      · intro a ha b hb
        unfold keepRead at ha hb
        split_ifs at ha hb with hsame
        · have htotal : ∀ x ∈ recorded other reads ++ [read], x.2.2 = read.2.2 := by
            intro x hx
            rcases List.mem_append.mp hx with hx | hx
            · exact hsame x hx
            · rw [List.mem_singleton.mp hx]
          rw [htotal a ha, htotal b hb]
        · cases ha
    · rw [recorded_concat_ne h]
      exact ⟨fun x hx => List.mem_append_left _ (ih.mem x hx), ih.total⟩

/-! ## The state -/

/-- The spans and the totals are those of the reads that are kept. -/
def Holds (r : Reads) (reads : List (PyStr × Shown)) : Prop :=
  ∀ path, Dict.get? r.totals path = (recorded path reads).head?.map (·.2.2) ∧
    (Dict.get? r.spans path).getD [] = spansOf (recorded path reads)

/-- No file has been read. -/
def Reads.none : Reads :=
  ⟨[], [], []⟩

theorem holds_none : Holds Reads.none [] :=
  fun _ => ⟨rfl, rfl⟩

/-- What `Reads.record` reports of a read. -/
def reports (kept : List Shown) (read : Shown) : Prop :=
  kept ≠ [] ∧
    if read.2.2 = 0 then read.1 = 1 ∧ read.2.1 = 0 else Covers (spansOf kept) read.2.2

/-- All the reads kept have the number of lines `total` exactly when the first one has. -/
theorem forall_total_iff {kept : List Shown} (h : ∀ a ∈ kept, ∀ b ∈ kept, a.2.2 = b.2.2)
    (total : ℤ) :
    (∀ old ∈ kept, old.2.2 = total) ↔ (kept.head?.map (·.2.2)).getD total = total := by
  cases kept with
  | nil => simp
  | cons a kept =>
    rw [List.head?_cons, Option.map_some, Option.getD_some]
    exact ⟨fun hall => hall a List.mem_cons_self,
      fun ha old hold => (h old hold a List.mem_cons_self).trans ha⟩

/-- A read with another number of lines. -/
theorem record_changed {r : Reads} {reads : List (PyStr × Shown)} (h : Holds r reads) {path : PyStr}
    (first last : ℤ) {total : ℤ}
    (hkeep : ¬ ∀ old ∈ recorded path reads, old.2.2 = total) :
    let next := reads ++ [(path, first, last, total)]
    Holds (r.record path first last total).2 next ∧ recorded path next = [] ∧
      (r.record path first last total).1 = none := by
  have hnext : recorded path (reads ++ [(path, first, last, total)]) = [] := by
    rw [recorded_concat_self, keepRead, if_neg hkeep]
  have hknown : (Dict.get? r.totals path).getD total ≠ total := by
    rw [(h path).1]
    exact fun heq => hkeep ((forall_total_iff (kept_recorded path reads).total total).mpr heq)
  unfold Reads.record
  rw [if_pos hknown]
  refine ⟨fun file => ?_, hnext, rfl⟩
  simp only [Dict.get?_erase]
  by_cases hfile : file = path
  · rw [if_pos hfile, if_pos hfile, hfile, hnext]
    exact ⟨rfl, rfl⟩
  · rw [if_neg hfile, if_neg hfile, recorded_concat_ne fun heq => hfile heq.symm]
    exact h file

/-- What `Reads.record` reports, by the spans of the file with the one just read. -/
def completedBy (path : PyStr) (spans : List (ℤ × ℤ)) (first last total : ℤ) : Option PyStr :=
  if total = 0 then (if first = 1 ∧ last = 0 then some path else none)
  else
    match nextLine 1 (spans.insertionSort spanLe) with
    | some next => if total < next then some path else none
    | none => none

theorem record_eq {r : Reads} {path : PyStr} {first last total : ℤ}
    (hknown : (Dict.get? r.totals path).getD total = total) :
    let spans := (Dict.get? r.spans path).getD [] ++ [(first, last)]
    r.record path first last total = (completedBy path spans first last total,
      { r with totals := r.totals.set path total, spans := r.spans.set path spans }) := by
  unfold Reads.record completedBy
  rw [if_neg (not_not_intro hknown)]
  by_cases hzero : total = 0
  · simp [hzero]
  · simp only [if_neg hzero]
    generalize (Dict.get? r.spans path).getD [] ++ [(first, last)] = spans
    cases nextLine 1 (spans.insertionSort spanLe) <;> rfl

theorem completedBy_iff {path file : PyStr} {spans : List (ℤ × ℤ)} {first last total : ℤ}
    (htotal : 0 ≤ total) (hends : ∀ span ∈ spans, span.2 ≤ total) :
    completedBy path spans first last total = some file ↔
      file = path ∧ if total = 0 then first = 1 ∧ last = 0 else Covers spans total := by
  unfold completedBy
  by_cases hzero : total = 0
  · rw [if_pos hzero, if_pos hzero]
    by_cases hfirst : first = 1 ∧ last = 0
    · simp [hfirst, eq_comm]
    · simp [hfirst]
  · rw [if_neg hzero, if_neg hzero, ← merge_iff htotal hends]
    cases hn : nextLine 1 (spans.insertionSort spanLe) with
    | none => simp
    | some n =>
      by_cases hlt : total < n
      · simp [hlt, eq_comm]
      · simp [hlt]

/-- A read with the number of lines of the reads before it. -/
theorem record_same {r : Reads} {reads : List (PyStr × Shown)} (h : Holds r reads) {path : PyStr}
    {first last total : ℤ} (htotal : 0 ≤ total)
    (hends : ∀ read ∈ reads ++ [(path, first, last, total)], read.2.2.1 ≤ read.2.2.2)
    (hkeep : ∀ old ∈ recorded path reads, old.2.2 = total) :
    let next := reads ++ [(path, first, last, total)]
    Holds (r.record path first last total).2 next ∧
      ∀ file, (r.record path first last total).1 = some file ↔
        file = path ∧ reports (recorded path next) (first, last, total) := by
  have hnext : recorded path (reads ++ [(path, first, last, total)]) =
      recorded path reads ++ [(first, last, total)] := by
    rw [recorded_concat_self, keepRead, if_pos hkeep]
  have hknown : (Dict.get? r.totals path).getD total = total := by
    rw [(h path).1]
    exact (forall_total_iff (kept_recorded path reads).total total).mp hkeep
  have hspans : (Dict.get? r.spans path).getD [] ++ [(first, last)] =
      spansOf (recorded path (reads ++ [(path, first, last, total)])) := by
    rw [(h path).2, hnext]
    simp [spansOf]
  have hlast : (first, last, total) ∈ recorded path (reads ++ [(path, first, last, total)]) := by
    rw [hnext]
    exact List.mem_append_right _ (List.mem_singleton_self _)
  have hkept := kept_recorded path (reads ++ [(path, first, last, total)])
  have hwithin : ∀ span ∈ spansOf (recorded path (reads ++ [(path, first, last, total)])),
      span.2 ≤ total := by
    intro span hspan
    obtain ⟨x, hx, rfl⟩ := List.mem_map.mp hspan
    have hle := hends _ (hkept.mem x hx)
    rwa [hkept.total x hx _ hlast] at hle
  rw [record_eq hknown, hspans]
  constructor
  · intro file
    rw [Dict.get?_set, Dict.get?_set]
    by_cases hfile : file = path
    · rw [if_pos hfile, if_pos hfile, hfile]
      refine ⟨?_, rfl⟩
      obtain ⟨a, kept, hcons⟩ := List.exists_cons_of_ne_nil (List.ne_nil_of_mem hlast)
      have ha := hkept.total a (hcons ▸ List.mem_cons_self) _ hlast
      rw [hcons, List.head?_cons, Option.map_some, ha]
    · rw [if_neg hfile, if_neg hfile, recorded_concat_ne fun heq => hfile heq.symm]
      exact h file
  · intro file
    have hne := List.ne_nil_of_mem hlast
    rw [completedBy_iff htotal hwithin, reports, and_iff_right hne]

/-- One read. -/
theorem record_spec {r : Reads} {reads : List (PyStr × Shown)} (h : Holds r reads) {path : PyStr}
    {first last total : ℤ} (htotal : 0 ≤ total)
    (hends : ∀ read ∈ reads ++ [(path, first, last, total)], read.2.2.1 ≤ read.2.2.2) :
    let next := reads ++ [(path, first, last, total)]
    Holds (r.record path first last total).2 next ∧
      ∀ file, (r.record path first last total).1 = some file ↔
        file = path ∧ reports (recorded path next) (first, last, total) := by
  by_cases hkeep : ∀ old ∈ recorded path reads, old.2.2 = total
  · exact record_same h htotal hends hkeep
  · obtain ⟨hholds, hnext, hnone⟩ := record_changed h first last hkeep
    refine ⟨hholds, fun file => ?_⟩
    rw [hnone]
    exact iff_of_false (by simp) fun hreports => hreports.2.1 hnext

/-! ## Any sequence of reads -/

/-- The metadata of `read_file`. -/
theorem readSpan_readFile (target content : PyStr) (offset limit : ℤ) :
    readSpan (readFile target content offset limit).metadata =
      some (max 1 offset, min ((splitlines content).length : ℤ)
        (max 1 offset - 1 + max 1 limit), ((splitlines content).length : ℤ)) := by
  have hneg : ¬ ((splitlines content).length : ℤ) < 0 := by omega
  simp [readSpan, metadataInt, Metadata.get, readFile, hneg]

section Runs

variable {expectedFiles : List PyStr} {outputLimit : ℤ}

/-- What a read that is recorded says of its file. -/
structure WithinFile (read : Shown) : Prop where
  total : 0 ≤ read.2.2
  first : 1 ≤ read.1
  last : read.2.1 ≤ read.2.2
  empty : read.2.2 = 0 → read.2.1 = 0

theorem withinFile_of_shown {call : ReadCall} {path : PyStr} {read : Shown}
    (h : call.shown expectedFiles outputLimit = some (path, read)) : WithinFile read := by
  unfold ReadCall.shown at h
  obtain ⟨result, hresult, h⟩ := Option.bind_eq_some_iff.mp h
  split_ifs at h with hrefused
  push Not at hrefused
  obtain ⟨hname, hok, -⟩ := hrefused
  obtain ⟨target, content, offset, limit, rfl⟩ :=
    call.fromTool hname result hresult (by simpa using hok)
  obtain ⟨value, -, h⟩ := Option.bind_eq_some_iff.mp h
  obtain ⟨file, -, h⟩ := Option.bind_eq_some_iff.mp h
  rw [readSpan_readFile] at h
  simp only [Option.bind_eq_bind, Option.bind_some] at h
  split_ifs at h
  obtain ⟨-, rfl⟩ := Prod.mk.inj (Option.some.inj h)
  constructor <;> dsimp only <;> omega

variable (expectedFiles outputLimit)

/-- The reads some calls show, with their files. -/
def shownReads (calls : List ReadCall) : List (PyStr × Shown) :=
  calls.filterMap (·.shown expectedFiles outputLimit)

theorem shownReads_concat (calls : List ReadCall) (call : ReadCall) :
    shownReads expectedFiles outputLimit (calls ++ [call]) =
      shownReads expectedFiles outputLimit calls ++
        (call.shown expectedFiles outputLimit).toList := by
  rw [shownReads, List.filterMap_append]
  cases h : call.shown expectedFiles outputLimit <;> simp [shownReads, h]

variable {expectedFiles outputLimit}

theorem withinFile_of_mem {calls : List ReadCall} {path : PyStr} {read : Shown}
    (h : (path, read) ∈ shownReads expectedFiles outputLimit calls) : WithinFile read := by
  obtain ⟨call, -, hshown⟩ := List.mem_filterMap.mp h
  exact withinFile_of_shown hshown

/-- A call, after some others. -/
theorem record_run {calls : List ReadCall} {r : Reads}
    (h : Holds r (shownReads expectedFiles outputLimit calls)) (call : ReadCall) :
    Holds (recordCompleteReadFile expectedFiles outputLimit r call).2
        (shownReads expectedFiles outputLimit (calls ++ [call])) ∧
      ∀ file, (recordCompleteReadFile expectedFiles outputLimit r call).1 = some file ↔
        ∃ read, call.shown expectedFiles outputLimit = some (file, read) ∧
          reports
            (recorded file (shownReads expectedFiles outputLimit (calls ++ [call]))) read := by
  have hmem : ∀ path read, (path, read) ∈ shownReads expectedFiles outputLimit (calls ++ [call]) →
      WithinFile read := fun _ _ => withinFile_of_mem
  rw [shownReads_concat] at hmem ⊢
  unfold recordCompleteReadFile
  cases hshown : call.shown expectedFiles outputLimit with
  | none => simpa using h
  | some read =>
    obtain ⟨path, first, last, total⟩ := read
    rw [hshown] at hmem
    obtain ⟨hholds, hreport⟩ := record_spec h (withinFile_of_shown hshown).total
      fun read hread => (hmem read.1 read.2 hread).last
    refine ⟨hholds, fun file => ?_⟩
    rw [hreport file]
    constructor
    · rintro ⟨rfl, hreports⟩
      exact ⟨_, rfl, hreports⟩
    · rintro ⟨read, hread, hreports⟩
      obtain ⟨rfl, rfl⟩ := Prod.mk.inj (Option.some.inj hread)
      exact ⟨rfl, hreports⟩

/-- A read whose file has reads recorded after it is one of them. -/
theorem mem_recorded_of_ne_nil {calls : List ReadCall} {call : ReadCall} {path : PyStr}
    {read : Shown} (hshown : call.shown expectedFiles outputLimit = some (path, read))
    (hne : recorded path (shownReads expectedFiles outputLimit (calls ++ [call])) ≠ []) :
    read ∈ recorded path (shownReads expectedFiles outputLimit (calls ++ [call])) := by
  rw [shownReads_concat, hshown, Option.toList_some, recorded_concat_self, keepRead] at hne ⊢
  split_ifs at hne ⊢
  · exact List.mem_append_right _ (List.mem_singleton_self _)
  · exact absurd rfl hne

variable (expectedFiles outputLimit) in
/-- The state after any calls. -/
theorem holds_readsAfter (calls : List ReadCall) :
    Holds (readsAfter expectedFiles outputLimit Reads.none calls)
      (shownReads expectedFiles outputLimit calls) := by
  induction calls using List.reverseRecOn with
  | nil => exact holds_none
  | append_singleton calls call ih =>
    rw [readsAfter, List.foldl_append]
    exact (record_run ih call).1

end Runs

/-! ## What is claimed -/

section Claimed

variable (expectedFiles : List PyStr) (outputLimit : ℤ) (calls : List ReadCall) (call : ReadCall)

/-- The reads of a file that are recorded after the call. -/
def recordedAfter (path : PyStr) : List Shown :=
  recorded path (shownReads expectedFiles outputLimit (calls ++ [call]))

/-- What the call reports, after the calls before it. -/
def reported : Option PyStr :=
  (recordCompleteReadFile expectedFiles outputLimit
    (readsAfter expectedFiles outputLimit Reads.none calls) call).1

/-- A read is reported exactly when the spans recorded for its file cover it. -/
def ReportsCovered : Prop :=
  ∀ path first last total, call.shown expectedFiles outputLimit = some (path, first, last, total) →
    (reported expectedFiles outputLimit calls call = some path ↔
      Covers (spansOf (recordedAfter expectedFiles outputLimit calls call path)) total)

theorem reported_iff (path : PyStr) :
    reported expectedFiles outputLimit calls call = some path ↔
      ∃ read, call.shown expectedFiles outputLimit = some (path, read) ∧
        reports (recordedAfter expectedFiles outputLimit calls call path) read :=
  (record_run (holds_readsAfter expectedFiles outputLimit calls) call).2 path

/-- A file is reported exactly by a read of it that is recorded, once the spans recorded cover it;
where the file has no lines, by a read from its first line. -/
theorem report_iff (path : PyStr) :
    reported expectedFiles outputLimit calls call = some path ↔
      ∃ first last total,
        call.shown expectedFiles outputLimit = some (path, first, last, total) ∧
        (first, last, total) ∈ recordedAfter expectedFiles outputLimit calls call path ∧
        Covers (spansOf (recordedAfter expectedFiles outputLimit calls call path)) total ∧
        (total = 0 → first = 1) := by
  rw [reported_iff]
  constructor
  · rintro ⟨⟨first, last, total⟩, hshown, hne, hreports⟩
    have hlast := mem_recorded_of_ne_nil hshown hne
    refine ⟨first, last, total, hshown, hlast, ?_⟩
    split_ifs at hreports with hzero
    · dsimp only at hzero hreports
      exact ⟨fun line hle hline => absurd (hle.trans hline) (by omega), fun _ => hreports.1⟩
    · exact ⟨hreports, fun hzero' => absurd hzero' hzero⟩
  · rintro ⟨first, last, total, hshown, hlast, hcovers, hfirst⟩
    refine ⟨(first, last, total), hshown, List.ne_nil_of_mem hlast, ?_⟩
    split_ifs with hzero
    · exact ⟨hfirst hzero, (withinFile_of_shown hshown).empty hzero⟩
    · exact hcovers

end Claimed

/-- A read of an empty file, past its first line. -/
def emptyRead : ReadCall where
  inv := ⟨lit "read_file", [], lit "allow", true, some (readFile "f" [] 2 400), []⟩
  resolve := fun _ => some "f"
  fromTool := by
    rintro - result hresult -
    exact ⟨_, _, _, _, (Option.some.inj hresult).symm⟩

theorem shown_emptyRead : emptyRead.shown [lit "f"] 8000 = some (lit "f", 2, 0, 0) := by
  decide

/-- A read of an empty file past its first line reports nothing, though it has all its lines. -/
theorem emptyRead_unreported : ¬ ∀ (expectedFiles : List PyStr) (outputLimit : ℤ)
    (calls : List ReadCall) (call : ReadCall),
    ReportsCovered expectedFiles outputLimit calls call := by
  intro h
  have hcovers : Covers (spansOf (recordedAfter [lit "f"] 8000 [] emptyRead (lit "f"))) 0 :=
    fun line hle hline => absurd (hle.trans hline) (by omega)
  have hreported := (h [lit "f"] 8000 [] emptyRead _ _ _ _ shown_emptyRead).mpr hcovers
  obtain ⟨read, hshown, -, hfirst⟩ := (reported_iff _ _ _ _ _).mp hreported
  obtain ⟨-, rfl⟩ := Prod.mk.inj (Option.some.inj (shown_emptyRead.symm.trans hshown))
  exact absurd hfirst.1 (by decide)

end Icode.Agent
