import Icode.PyText
import Icode.PathTree
import Mathlib.Logic.Function.Basic

/-!
# Publishing an evidence pack

`buildEvidencePack` is `build_evidence_pack(clean=True)` over three places of one
file system: the destination, the staged pack and the backup of the previous
generation, the last two in a fresh transaction directory. What the operating
system does is a `Schedule`: the outcome of each call, which may fail with an
`OSError`, or be interrupted before or after it took effect, and the interrupts
between calls. `Path.exists` raises on an error it does not know, as Python 3.12
documents, and names the path then.

`buildEvidencePack_atomic` : at the end the destination holds the previous
generation, or the new one that passed its self check, or else the backup holds
the previous generation and an exception is raised. The exception names the
backup unless the failure handling is interrupted in turn
(`Schedule.HandlerRuns`); `interrupted_handler_hides_backup` is a run where it
does not.
-/

namespace Icode

open Py

namespace Publish

/-! ## Files and outcomes -/

/-- The directories of one call. -/
inductive Place where
  | dest
  | staged
  | previous
  deriving DecidableEq

/-- What a directory holds. -/
inductive Content where
  | absent
  /-- The complete generation that was there before the call. -/
  | old
  /-- The complete generation that was built and passed its self check. -/
  | next
  /-- Anything else: a pack that is unfinished, refused or partly removed. -/
  | debris
  deriving DecidableEq

abbrev Files := Place → Content

/-- An existing destination, before the transaction directory is made. -/
def before : Files
  | .dest => .old
  | _ => .absent

/-- The fields of `PackReport` that decide the publication. -/
structure Report where
  ok : Bool
  selfcheckOk : Bool
  deriving DecidableEq

inductive ErrorKind where
  | osError
  | evidenceError
  | interrupt
  deriving DecidableEq

/-- An exception in flight; `named` when its text, file name or notes give the backup path. -/
structure Raised where
  kind : ErrorKind
  named : Bool
  deriving DecidableEq

/-- What happens to a call that changes the file system. -/
inductive Outcome where
  | done
  | error
  | interruptedBefore
  | interruptedAfter
  deriving DecidableEq

/-- What happens to `path.exists()`. -/
inductive ProbeOutcome where
  | answer
  | error
  | interrupted
  deriving DecidableEq

/-- What happens to `_write_evidence_pack`. -/
inductive WriteOutcome where
  | report (r : Report)
  | error
  | interrupted
  deriving DecidableEq

/-- The outcome of every call of one `build_evidence_pack`; a `Bool` is an interrupt between
two calls. -/
structure Schedule where
  /-- `dest.exists() and not dest.is_dir()` -/
  firstProbe : ProbeOutcome
  /-- `dest.parent.mkdir` and `tempfile.mkdtemp` -/
  makeTransaction : Outcome
  write : WriteOutcome
  destProbe : ProbeOutcome
  /-- `dest.rename(previous)` -/
  backup : Outcome
  /-- `staged.rename(dest)` -/
  publish : Outcome
  /-- Behind the inner `try`, before `preserve_backup = False`. -/
  settle : Bool
  /-- At `return report`. -/
  leave : Bool
  rollbackProbe : ProbeOutcome
  /-- `previous.rename(dest)` -/
  rollback : Outcome
  /-- While the failed rollback is reported. -/
  rollbackReport : Bool
  handlerProbe : ProbeOutcome
  /-- `failure.add_note` -/
  note : Bool
  finallyProbe : ProbeOutcome
  /-- `shutil.rmtree(transaction)` -/
  cleanup : Outcome

def interrupt : Raised :=
  ⟨.interrupt, false⟩

/-- `place.exists()`; an `OSError` carries the path. -/
def probe (outcome : ProbeOutcome) (files : Files) (place : Place) : Except Raised Bool :=
  match outcome with
  | .answer => .ok (files place != .absent)
  | .error => .error ⟨.osError, place == .previous⟩
  | .interrupted => .error interrupt

/-- The files after `source.rename(target)`. -/
def moved (files : Files) (source target : Place) : Files :=
  Function.update (Function.update files target (files source)) source .absent

/-- `source.rename(target)`: no directory is put over one that is there. -/
def rename (outcome : Outcome) (files : Files) (source target : Place) : Option Raised × Files :=
  match outcome with
  | .interruptedBefore => (some interrupt, files)
  | .error => (some ⟨.osError, false⟩, files)
  | .done =>
    if files source = .absent ∨ files target ≠ .absent then (some ⟨.osError, false⟩, files)
    else (none, moved files source target)
  | .interruptedAfter =>
    if files source = .absent ∨ files target ≠ .absent then (some interrupt, files)
    else (some interrupt, moved files source target)

/-! ## The call -/

/-- How the `try` block ends, with `preserve_backup`. -/
structure Attempt where
  result : Except Raised Report
  preserveBackup : Bool
  files : Files

/-- The inner `except BaseException`: the previous generation is moved back. -/
def rollBack (o : Schedule) (failure : Raised) (preserveBackup : Bool) (files : Files) : Attempt :=
  match probe o.rollbackProbe files .previous with
  | .error e => ⟨.error e, preserveBackup, files⟩
  | .ok false => ⟨.error failure, preserveBackup, files⟩
  | .ok true =>
    match rename o.rollback files .previous .dest with
    | (none, files) => ⟨.error failure, false, files⟩
    | (some e, files) =>
      if e.kind = .osError then
        -- 证据包发布失败且旧包恢复失败；旧包备份保留于：…
        ⟨.error (if o.rollbackReport then interrupt else ⟨.evidenceError, true⟩), true, files⟩
      else ⟨.error e, preserveBackup, files⟩

/-- The inner `try`, and the rest of the block. -/
def publish (o : Schedule) (report : Report) (preserveBackup : Bool) (files : Files) : Attempt :=
  match rename o.publish files .staged .dest with
  | (none, files) =>
    if o.settle then ⟨.error interrupt, preserveBackup, files⟩
    else if o.leave then ⟨.error interrupt, false, files⟩
    else ⟨.ok report, false, files⟩
  | (some failure, files) => rollBack o failure preserveBackup files

/-- The `try` block. -/
def transact (o : Schedule) (files : Files) : Attempt :=
  match o.write with
  | .error => ⟨.error ⟨.evidenceError, false⟩, false, Function.update files .staged .debris⟩
  | .interrupted => ⟨.error interrupt, false, Function.update files .staged .debris⟩
  | .report report =>
    if !report.ok || !report.selfcheckOk then
      -- 证据包未发布：构建或自校验失败，旧目标保留
      ⟨.ok report, false, Function.update files .staged .debris⟩
    else
      let files := Function.update files .staged .next
      match probe o.destProbe files .dest with
      | .error e => ⟨.error e, false, files⟩
      | .ok false => publish o report false files
      | .ok true =>
        match rename o.backup files .dest .previous with
        | (some e, files) => ⟨.error e, true, files⟩
        | (none, files) => publish o report true files

/-- `except BaseException`: what leaves the handler. -/
def handle (o : Schedule) (a : Attempt) : Except Raised Report :=
  match a.result with
  | .ok report => .ok report
  | .error e =>
    if a.preserveBackup then
      match probe o.handlerProbe a.files .previous with
      | .error e' => .error e'
      | .ok true => .error (if o.note then interrupt else { e with named := true })
      | .ok false => .error e
    else .error e

/-- `shutil.rmtree(transaction)`; a failure may leave anything in it. -/
def removeTransaction (outcome : Outcome) (result : Except Raised Report) (files : Files) :
    Except Raised Report × Files :=
  let fill (c : Content) : Files := Function.update (Function.update files .staged c) .previous c
  match outcome with
  | .done => (result, fill .absent)
  | .error => (result, fill .debris)
  | .interruptedBefore => (.error interrupt, files)
  | .interruptedAfter => (.error interrupt, fill .debris)

/-- `finally`. -/
def conclude (o : Schedule) (a : Attempt) : Except Raised Report × Files :=
  if a.preserveBackup then
    match probe o.finallyProbe a.files .previous with
    | .error e => (.error e, a.files)
    | .ok true => (handle o a, a.files)
    | .ok false => removeTransaction o.cleanup (handle o a) a.files
  else removeTransaction o.cleanup (handle o a) a.files

/-- `_paths_overlap`. -/
def pathsOverlap (path other : List PyStr) : Bool :=
  path == other || other.isPrefixOf path || path.isPrefixOf other

/-- The arguments of the call; `gates` when the contract input is a file. -/
structure Arguments where
  outDir : List PyStr
  dest : List PyStr
  gates : Option (List PyStr)
  destIsDir : Bool

/-- `build_evidence_pack` with `clean=True`. -/
def buildEvidencePack (args : Arguments) (o : Schedule) (files : Files) :
    Except Raised Report × Files :=
  if pathsOverlap args.outDir args.dest then (.error ⟨.evidenceError, false⟩, files)
  else if args.gates.any fun gates => pathsOverlap args.dest gates then
    (.error ⟨.evidenceError, false⟩, files)
  else
    match probe o.firstProbe files .dest with
    | .error e => (.error e, files)
    | .ok present =>
      if present && !args.destIsDir then (.error ⟨.evidenceError, false⟩, files)
      else
        match o.makeTransaction with
        | .error => (.error ⟨.osError, false⟩, files)
        | .interruptedBefore | .interruptedAfter => (.error interrupt, files)
        | .done => conclude o (transact o files)

/-! ## What the call leaves -/

/-- The failure handling itself is not interrupted. -/
def Schedule.HandlerRuns (o : Schedule) : Prop :=
  o.handlerProbe ≠ .interrupted ∧ o.note = false ∧ o.finallyProbe ≠ .interrupted

/-- The destination holds one whole generation. -/
def Published (o : Schedule) (files : Files) : Prop :=
  files .dest = .old ∨
    files .dest = .next ∧ ∃ r, o.write = .report r ∧ r.ok = true ∧ r.selfcheckOk = true

/-- The destination is empty and the backup holds the previous generation. -/
def BackedUp (files : Files) : Prop :=
  files .dest = .absent ∧ files .previous = .old

/-- How the `try` block may end: with one generation at the destination, or with the
previous one in the backup, which is kept, and an exception. -/
def Attempt.Safe (o : Schedule) (a : Attempt) : Prop :=
  Published o a.files ∨
    BackedUp a.files ∧ a.preserveBackup = true ∧ ∃ e, a.result = .error e

theorem probe_cases (outcome : ProbeOutcome) (files : Files) (place : Place) :
    probe outcome files place = .ok (files place != .absent) ∨
      ∃ e, probe outcome files place = .error e := by
  cases outcome
  · exact Or.inl rfl
  · exact Or.inr ⟨_, rfl⟩
  · exact Or.inr ⟨_, rfl⟩

/-- A rename takes effect or not; when it raises it may have taken effect. -/
theorem rename_cases (outcome : Outcome) (files : Files) (source target : Place) :
    (∃ e, rename outcome files source target = (some e, files)) ∨
      ((files source ≠ .absent ∧ files target = .absent) ∧
        ∃ r, rename outcome files source target = (r, moved files source target)) := by
  by_cases h : files source = .absent ∨ files target ≠ .absent
  · refine Or.inl ?_
    cases outcome <;> simp [rename, h]
  · have h' : files source ≠ .absent ∧ files target = .absent := by
      simpa [not_or] using h
    cases outcome
    · exact Or.inr ⟨h', none, by simp [rename, h]⟩
    · exact Or.inl ⟨_, rfl⟩
    · exact Or.inl ⟨_, rfl⟩
    · exact Or.inr ⟨h', some interrupt, by simp [rename, h]⟩

/-- Once the new pack is in place, the rollback does not move it. -/
theorem rollBack_published {o : Schedule} {files : Files} (hp : Published o files)
    (failure : Raised) (preserve : Bool) : Published o (rollBack o failure preserve files).files := by
  have hdest : files .dest ≠ .absent := by
    rcases hp with hp | ⟨hp, -⟩ <;> simp [hp]
  unfold rollBack
  rcases probe_cases o.rollbackProbe files .previous with hpr | ⟨e, hpr⟩ <;> rw [hpr]
  · cases files .previous != .absent
    · exact hp
    · rcases rename_cases o.rollback files .previous .dest with ⟨e, hr⟩ | ⟨⟨-, hd⟩, -⟩
      · simp only [hr]
        split_ifs <;> exact hp
      · exact absurd hd hdest
  · exact hp

/-- With an empty destination, the backup is moved back, or kept. -/
theorem rollBack_safe {o : Schedule} {files : Files} (hb : BackedUp files) (failure : Raised) :
    (rollBack o failure true files).Safe o := by
  have hrolled : Published o (moved files .previous .dest) := Or.inl (by simp [moved, hb.2])
  unfold rollBack
  rcases probe_cases o.rollbackProbe files .previous with hp | ⟨e, hp⟩ <;> rw [hp]
  · rw [show (files .previous != .absent) = true by simp [hb.2]]
    rcases rename_cases o.rollback files .previous .dest with ⟨e, hr⟩ | ⟨-, r, hr⟩ <;>
      simp only [hr]
    · split_ifs <;> exact Or.inr ⟨hb, rfl, _, rfl⟩
    · cases r with
      | none => exact Or.inl hrolled
      | some e =>
        simp only
        split_ifs <;> exact Or.inl hrolled
  · exact Or.inr ⟨hb, rfl, e, rfl⟩

/-- The inner `try` with a backup. -/
theorem publish_safe {o : Schedule} {report : Report} {files : Files}
    (hw : o.write = .report report) (hok : report.ok = true) (hself : report.selfcheckOk = true)
    (hs : files .staged = .next) (hb : BackedUp files) :
    (publish o report true files).Safe o := by
  have hmoved : Published o (moved files .staged .dest) :=
    Or.inr ⟨by simp [moved, hs], report, hw, hok, hself⟩
  unfold publish
  rcases rename_cases o.publish files .staged .dest with ⟨failure, h⟩ | ⟨-, r, h⟩ <;> rw [h]
  · exact rollBack_safe hb failure
  · cases r with
    | none =>
      simp only
      split_ifs <;> exact Or.inl hmoved
    | some failure => exact Or.inl (rollBack_published hmoved failure true)

/-- The `try` block. -/
theorem transact_safe (o : Schedule) : (transact o before).Safe o := by
  have hkept : ∀ c, Published o (Function.update before .staged c) := fun c => Or.inl (by simp [before])
  unfold transact
  split
  · exact Or.inl (hkept _)
  · exact Or.inl (hkept _)
  · rename_i report hw
    split_ifs with hr
    · exact Or.inl (hkept _)
    · have hflags : report.ok = true ∧ report.selfcheckOk = true := by simpa using hr
      simp only
      rcases probe_cases o.destProbe (Function.update before .staged .next) .dest with
        hp | ⟨e, hp⟩ <;> rw [hp]
      · rw [show (Function.update before .staged .next .dest != .absent) = true by simp [before]]
        simp only
        rcases rename_cases o.backup (Function.update before .staged .next) .dest .previous with
          ⟨e, h⟩ | ⟨-, r, h⟩ <;> rw [h]
        · exact Or.inl (hkept _)
        · have hb : BackedUp (moved (Function.update before .staged .next) .dest .previous) := by
            simp [BackedUp, moved, before]
          cases r with
          | none => exact publish_safe hw hflags.1 hflags.2 (by simp [moved, before]) hb
          | some e => exact Or.inr ⟨hb, rfl, e, rfl⟩
      · exact Or.inl (hkept _)

/-- Removing the transaction directory does not touch the destination. -/
theorem published_removeTransaction {o : Schedule} {files : Files} (h : Published o files)
    (outcome : Outcome) (result : Except Raised Report) :
    Published o (removeTransaction outcome result files).2 := by
  cases outcome <;> simpa [removeTransaction, Published] using h

/-- The handler names a backup that is kept, unless it is interrupted. -/
theorem handle_named {o : Schedule} {a : Attempt} {e : Raised} (hb : BackedUp a.files)
    (hp : a.preserveBackup = true) (hr : a.result = .error e) (hrun : o.HandlerRuns) :
    ∃ e', handle o a = .error e' ∧ e'.named = true := by
  obtain ⟨hprobe, hnote, -⟩ := hrun
  have hexists : (a.files .previous != .absent) = true := by simp [hb.2]
  simp only [handle, hr, hp, if_true]
  cases hh : o.handlerProbe
  · exact ⟨{ e with named := true }, by simp [probe, hexists, hnote], rfl⟩
  · exact ⟨_, rfl, rfl⟩
  · exact absurd hh hprobe

/-- `finally` keeps a backup that holds the only copy of the previous generation. -/
theorem conclude_safe {o : Schedule} {a : Attempt} (h : a.Safe o) :
    Published o (conclude o a).2 ∨
      BackedUp (conclude o a).2 ∧
        ∃ e, (conclude o a).1 = .error e ∧ (o.HandlerRuns → e.named = true) := by
  rcases h with h | ⟨hb, hp, e, hr⟩
  · refine Or.inl ?_
    unfold conclude
    split_ifs
    · rcases probe_cases o.finallyProbe a.files .previous with hp | ⟨e, hp⟩ <;> rw [hp]
      · cases a.files .previous != .absent
        · exact published_removeTransaction h _ _
        · exact h
      · exact h
    · exact published_removeTransaction h _ _
  · refine Or.inr ?_
    have hexists : (a.files .previous != .absent) = true := by simp [hb.2]
    simp only [conclude, hp, if_true]
    cases hf : o.finallyProbe
    · simp only [probe, hexists]
      refine ⟨hb, ?_⟩
      by_cases hrun : o.HandlerRuns
      · obtain ⟨e', he', hn⟩ := handle_named hb hp hr hrun
        exact ⟨e', he', fun _ => hn⟩
      · simp only [handle, hr, hp, if_true]
        rcases probe_cases o.handlerProbe a.files .previous with hq | ⟨e', hq⟩ <;> rw [hq]
        · rw [hexists]
          exact ⟨_, rfl, fun h => absurd h hrun⟩
        · exact ⟨_, rfl, fun h => absurd h hrun⟩
    · exact ⟨hb, _, rfl, fun _ => rfl⟩
    · exact ⟨hb, _, rfl, fun h => absurd hf h.2.2⟩

/-- Publication is atomic: the destination holds one whole generation, or the backup holds the
previous one, which the exception names unless the failure handling is interrupted in turn. -/
theorem buildEvidencePack_atomic (args : Arguments) (o : Schedule) :
    Published o (buildEvidencePack args o before).2 ∨
      BackedUp (buildEvidencePack args o before).2 ∧
        ∃ e, (buildEvidencePack args o before).1 = .error e ∧
          (o.HandlerRuns → e.named = true) := by
  have hbefore : Published o before := Or.inl rfl
  unfold buildEvidencePack
  split_ifs
  · exact Or.inl hbefore
  · exact Or.inl hbefore
  · split
    · exact Or.inl hbefore
    · split_ifs
      · exact Or.inl hbefore
      · cases o.makeTransaction
        · exact conclude_safe (transact_safe o)
        · exact Or.inl hbefore
        · exact Or.inl hbefore
        · exact Or.inl hbefore

/-- The destination is moved away and the call interrupted; then the handler is, while it
looks for the backup. -/
def twoInterrupts : Schedule where
  firstProbe := .answer
  makeTransaction := .done
  write := .report ⟨true, true⟩
  destProbe := .answer
  backup := .interruptedAfter
  publish := .done
  settle := false
  leave := false
  rollbackProbe := .answer
  rollback := .done
  rollbackReport := false
  handlerProbe := .interrupted
  note := false
  finallyProbe := .answer
  cleanup := .done

/-- The exception need not name the backup. -/
theorem interrupted_handler_hides_backup : ¬∀ (args : Arguments) (o : Schedule),
    Published o (buildEvidencePack args o before).2 ∨
      BackedUp (buildEvidencePack args o before).2 ∧
        ∃ e, (buildEvidencePack args o before).1 = .error e ∧ e.named = true := by
  intro h
  let args : Arguments := ⟨[lit "work"], [lit "pack"], none, true⟩
  have hrun : buildEvidencePack args twoInterrupts before =
      (.error interrupt, moved (Function.update before .staged .next) .dest .previous) := rfl
  have := h args twoInterrupts
  rw [hrun] at this
  rcases this with (h | ⟨h, -⟩) | ⟨-, e, he, hn⟩
  · simp [moved] at h
  · simp [moved] at h
  · cases he
    cases hn

end Publish

end Icode
