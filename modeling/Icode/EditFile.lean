import Icode.AnchorAttach
import Icode.Occurrences
import Icode.Utf8

/-!
# Editing a file

`edit_file` reads a text file, counts the occurrences of `old` in its text, replaces the
one occurrence by `new` and writes the text back: with a temporary file that replaces
the target where the platform is POSIX, and in place on Windows.

Every call to the system may fail (`Env.fault`), and an error ends the edit on the way
that the source gives it: through the `finally` clauses to the three handlers at the
end. `Keeps` is what an edit promises: it succeeds when `old` has one position, it then
holds the text with the occurrence at this position replaced, and otherwise the file is
left alone.

The count does not see overlapping occurrences, a surrogate in `new` cannot be written,
a read on Windows changes the line ends, and there is no way back behind the
replacement. `keeps_iff` : nothing else breaks the promise.
-/

namespace Icode.EditFile

open Py Occurrences

/-! ## Calls -/

/-- `os.name`. Without a policy only: under one no path is authorized on Windows. -/
inductive Platform where
  | posix | windows
  deriving DecidableEq

/-- `FileNotFoundError`, `PermissionError`, and the errors of the last handler. -/
inductive Raised where
  | notFound | permission | unavailable
  deriving DecidableEq

/-- The calls of an edit: those of `edit_file` and `_atomic_write_at` on POSIX, and those of the
other branch. -/
inductive Call where
  | openParent | stat | openFile | fstat | read | closeFile
  | openTemporary | openStream | write | chmod | sync | closeStream | restat | replace
  | unlinkTemporary | closeParent
  | isFile | readText | openTarget | writeTarget
  deriving DecidableEq

/-- What the calls of an edit do. A write in place that fails leaves `written` bytes. -/
structure Env where
  platform : Platform
  fault : Call → Option Raised
  written : ℕ

/-- The bytes of the target, and those of the temporary file while there is one. -/
structure Disk where
  content : Bytes
  temporary : Option Bytes
  deriving DecidableEq

/-- An operation on the disk. An error leaves the disk as it is at that point. -/
def Io (α : Type) : Type :=
  Disk → Except Raised α × Disk

namespace Io

variable {α β : Type}

def pure (a : α) : Io α :=
  fun disk => (.ok a, disk)

def raise (e : Raised) : Io α :=
  fun disk => (.error e, disk)

def bind (x : Io α) (f : α → Io β) : Io β :=
  fun disk =>
    match x disk with
    | (.ok a, disk) => f a disk
    | (.error e, disk) => (.error e, disk)

instance : Monad Io where
  pure := Io.pure
  bind := Io.bind

/-- `try: x finally: cleanup`. An error of the clean-up takes the place of the result. -/
def andFinally (x : Io α) (cleanup : Io Unit) : Io α :=
  fun disk =>
    match x disk with
    | (result, disk) =>
      match cleanup disk with
      | (.ok _, disk) => (result, disk)
      | (.error e, disk) => (.error e, disk)

def modify (f : Disk → Disk) : Io Unit :=
  fun disk => (.ok (), f disk)

end Io

/-- A call that does nothing to the disk. -/
def call (env : Env) (c : Call) : Io Unit :=
  match env.fault c with
  | some e => .raise e
  | none => .pure ()

/-! ## The edit -/

/-- `ToolResult` of an edit. -/
inductive EditResult where
  | edited | notFound | noMatch | notUnique (count : ℕ) | denied | unavailable
  deriving DecidableEq

/-- `ToolResult.ok`. -/
def EditResult.ok : EditResult → Bool
  | .edited => true
  | _ => false

/-- The `error` of the result's metadata. -/
def EditResult.error : EditResult → Option String
  | .edited => none
  | .notFound => some "not_found"
  | .noMatch => some "no_match"
  | .notUnique _ => some "not_unique"
  | .denied => some "write_denied"
  | .unavailable => some "write_unavailable"

/-- The `finally` clause of `_atomic_write_at`: after the replacement there is no temporary file,
and that is no error. -/
def unlinkTemporary (env : Env) : Io Unit :=
  fun disk =>
    match env.fault .unlinkTemporary with
    | some .notFound => (.ok (), disk)
    | some e => (.error e, disk)
    | none => (.ok (), { disk with temporary := none })

/-- The body of the `with` statement on the temporary file. -/
def fillTemporary (env : Env) (body : Bytes) : Io Unit := do
  call env .openStream
  Io.andFinally
    (do
      call env .write
      Io.modify fun disk => { disk with temporary := some body }
      call env .chmod
      call env .sync)
    (call env .closeStream)

/-- The second look at the target: one that is gone differs from the one that was read. -/
def recheck (env : Env) : Io Unit :=
  match env.fault .restat with
  | some .notFound => Io.raise .unavailable
  | some e => Io.raise e
  | none => Io.pure ()

/-- `_atomic_write_at`, where nobody else writes the target. -/
def atomicWrite (env : Env) (body : Bytes) : Io Unit := do
  call env .openTemporary
  Io.modify fun disk => { disk with temporary := some [] }
  Io.andFinally
    (do
      fillTemporary env body
      recheck env
      call env .replace
      Io.modify fun disk => { content := disk.temporary.getD disk.content, temporary := none })
    (unlinkTemporary env)

/-- `Path.write_bytes`: the target is emptied when it is opened. -/
def writeBytes (env : Env) (body : Bytes) : Io Unit := do
  call env .openTarget
  fun disk =>
    match env.fault .writeTarget with
    | some e => (.error e, { disk with content := body.take env.written })
    | none => (.ok (), { disk with content := body })

/-- The checks on the text and the write of the new one, as both branches have them. -/
def replaceUnique (write : Bytes → Io Unit) (text old new : PyStr) : Io EditResult :=
  if count old text = 0 then Io.pure .noMatch
  else if 1 < count old text then Io.pure (.notUnique (count old text))
  else
    match encode (replaceFirst old new text) with
    | none => Io.raise .unavailable
    | some body => do
      write body
      Io.pure .edited

/-- `data.decode("utf-8")` of what is read from the target. -/
def decodeContent : Io PyStr :=
  fun disk =>
    match decode disk.content with
    | some text => (.ok text, disk)
    | none => (.error .unavailable, disk)

/-- The POSIX branch. -/
def editPosix (env : Env) (old new : PyStr) : Io EditResult := do
  call env .openParent
  Io.andFinally
    (match env.fault .stat with
      | some .notFound => Io.pure .notFound
      | some e => Io.raise e
      | none => do
        call env .openFile
        let text ← Io.andFinally
          (do
            call env .fstat
            call env .read
            decodeContent)
          (call env .closeFile)
        replaceUnique (atomicWrite env) text old new)
    (call env .closeParent)

/-- The branch of the other platforms. -/
def editWindows (env : Env) (old new : PyStr) : Io EditResult :=
  match env.fault .isFile with
  | some _ => Io.pure .notFound
  | none => do
    call env .readText
    let text ← decodeContent
    replaceUnique (writeBytes env) (universalNewlines text) old new

/-- The branch of the platform. -/
def editBranch (env : Env) (old new : PyStr) : Io EditResult :=
  match env.platform with
  | .posix => editPosix env old new
  | .windows => editWindows env old new

/-- `edit_file` on a regular file at an authorized path, and the bytes it leaves there. -/
def editFile (env : Env) (content : Bytes) (old new : PyStr) : EditResult × Bytes :=
  match editBranch env old new { content := content, temporary := none } with
  | (.ok result, disk) => (result, disk.content)
  | (.error .notFound, disk) => (.notFound, disk.content)
  | (.error .permission, disk) => (.denied, disk.content)
  | (.error .unavailable, disk) => (.unavailable, disk.content)

/-! ## The promise -/

/-- The calls that read the target. -/
def readCalls : List Call :=
  [.openParent, .stat, .openFile, .fstat, .read, .closeFile]

/-- The calls on the temporary file. -/
def streamCalls : List Call :=
  [.openStream, .write, .chmod, .sync, .closeStream]

/-- The calls of `_atomic_write_at` up to the replacement. -/
def writeCalls : List Call :=
  .openTemporary :: streamCalls ++ [.restat, .replace]

/-- The calls before the content changes. -/
def Platform.before : Platform → List Call
  | .posix => readCalls ++ writeCalls
  | .windows => [.isFile, .readText, .openTarget]

/-- A call fails before the content changes. -/
def Env.Stopped (env : Env) : Prop :=
  ∃ c ∈ env.platform.before, env.fault c ≠ none

/-- A call fails when the content has changed. -/
def Env.Broken (env : Env) : Prop :=
  match env.platform with
  | .posix => (env.fault .unlinkTemporary ≠ none ∧ env.fault .unlinkTemporary ≠ some .notFound) ∨
      env.fault .closeParent ≠ none
  | .windows => env.fault .writeTarget ≠ none

/-- What the file then holds. -/
def Env.torn (env : Env) (body : Bytes) : Bytes :=
  match env.platform with
  | .posix => body
  | .windows => body.take env.written

/-- The text as the edit reads it. -/
def Env.shown (env : Env) (text : PyStr) : PyStr :=
  match env.platform with
  | .posix => text
  | .windows => universalNewlines text

/-- What an edit of a file with this text promises. -/
structure Keeps (env : Env) (content : Bytes) (text old new : PyStr) : Prop where
  /-- Without a failing call one position is enough. -/
  succeeds : ¬env.Stopped → ¬env.Broken → ∀ i, OnlyAt old text i →
    (editFile env content old new).1.ok = true
  /-- A successful edit has replaced the occurrence at the one position. -/
  edits : (editFile env content old new).1.ok = true → ∃ i, OnlyAt old text i ∧
    encode (text.take i ++ new ++ text.drop (i + old.length)) =
      some (editFile env content old new).2
  /-- An edit without success leaves the file alone. -/
  otherwise : (editFile env content old new).1.ok = false →
    (editFile env content old new).2 = content

/-- The input reaches none of the ways to break the promise. -/
def Harmless (env : Env) (content : Bytes) (text old new : PyStr) : Prop :=
  ¬env.Stopped →
    (env.Broken → count old (env.shown text) = 1 →
      ∀ body, encode (replaceFirst old new (env.shown text)) = some body →
        env.torn body = content) ∧
    (¬env.Broken →
      if env.shown text = text then
        (new.all isScalar = true → ¬Overlaps old text) ∧
          (new.all isScalar = false → ∀ i, ¬OnlyAt old text i)
      else
        ¬(count old (env.shown text) = 1 ∧ new.all isScalar = true) ∧ ∀ i, ¬OnlyAt old text i)

/-! ## Runs -/

namespace Io

variable {α β : Type} {x : Io α} {f : α → Io β} {disk disk' : Disk}

theorem bind_ok {a : α} (h : x disk = (.ok a, disk')) : (x >>= f) disk = f a disk' := by
  change Io.bind x f disk = _
  rw [Io.bind, h]

theorem bind_error {e : Raised} (h : x disk = (.error e, disk')) :
    (x >>= f) disk = (.error e, disk') := by
  change Io.bind x f disk = _
  rw [Io.bind, h]

theorem bind_modify {g : Disk → Disk} {f : Unit → Io β} :
    (Io.modify g >>= f) disk = f () (g disk) :=
  bind_ok rfl

/-- The operation leaves the content alone. -/
def Quiet (x : Io α) : Prop :=
  ∀ disk, (x disk).2.content = disk.content

theorem Quiet.bind (hx : Quiet x) (hf : ∀ a, Quiet (f a)) : Quiet (x >>= f) := by
  intro disk
  change (Io.bind x f disk).2.content = _
  have hfirst := hx disk
  rw [Io.bind]
  split
  · next a disk' heq =>
    rw [heq] at hfirst
    rw [hf a disk', hfirst]
  · next e disk' heq =>
    rw [heq] at hfirst
    exact hfirst

theorem Quiet.andFinally {cleanup : Io Unit} (hx : Quiet x) (hc : Quiet cleanup) :
    Quiet (Io.andFinally x cleanup) := by
  intro disk
  have hfirst := hx disk
  have hsecond := hc (x disk).2
  rw [Io.andFinally]
  dsimp only
  split <;> next heq => rw [heq] at hsecond; rw [hsecond, hfirst]

/-- The run of an operation has raised, and the content is what it was. -/
def Halted (content : Bytes) (run : Except Raised α × Disk) : Prop :=
  (∃ e, run.1 = .error e) ∧ run.2.content = content

theorem Halted.bind {content : Bytes} (h : Halted content (x disk)) :
    Halted content ((x >>= f) disk) := by
  obtain ⟨⟨e, he⟩, hcontent⟩ := h
  rw [bind_error (show x disk = (.error e, (x disk).2) from Prod.ext he rfl)]
  exact ⟨⟨e, rfl⟩, hcontent⟩

theorem Halted.andFinally {content : Bytes} {cleanup : Io Unit} (h : Halted content (x disk))
    (hc : Quiet cleanup) : Halted content (Io.andFinally x cleanup disk) := by
  obtain ⟨⟨e, he⟩, hcontent⟩ := h
  have hsecond := hc (x disk).2
  unfold Io.andFinally
  dsimp only
  split
  · next heq =>
    rw [heq] at hsecond
    exact ⟨⟨e, he⟩, hsecond.trans hcontent⟩
  · next heq =>
    rw [heq] at hsecond
    exact ⟨⟨_, rfl⟩, hsecond.trans hcontent⟩

theorem andFinally_congr {y : Io α} {cleanup : Io Unit} (h : x disk = y disk') :
    Io.andFinally x cleanup disk = Io.andFinally y cleanup disk' := by
  unfold Io.andFinally
  rw [h]

/-- A clean-up that raises takes the place of any result. -/
theorem halted_andFinally {cleanup : Io Unit} (hx : Quiet x)
    (hc : ∀ disk, Halted disk.content (cleanup disk)) :
    Halted disk.content (Io.andFinally x cleanup disk) := by
  obtain ⟨⟨e, he⟩, hcontent⟩ := hc (x disk).2
  have hrun : cleanup (x disk).2 = (.error e, (cleanup (x disk).2).2) := Prod.ext he rfl
  unfold Io.andFinally
  dsimp only
  rw [hrun]
  exact ⟨⟨e, rfl⟩, hcontent.trans (hx disk)⟩

end Io

open Io

theorem call_of_none {env : Env} {c : Call} (h : env.fault c = none) (disk : Disk) :
    call env c disk = (.ok (), disk) := by
  rw [call, h]
  rfl

theorem call_halted {env : Env} {c : Call} (h : env.fault c ≠ none) (disk : Disk) :
    Halted disk.content (call env c disk) := by
  obtain ⟨e, he⟩ := Option.ne_none_iff_exists'.mp h
  rw [call, he]
  exact ⟨⟨e, rfl⟩, rfl⟩

theorem quiet_call (env : Env) (c : Call) : Quiet (call env c) := by
  intro disk
  unfold call
  cases env.fault c <;> rfl

theorem quiet_unlinkTemporary (env : Env) : Quiet (unlinkTemporary env) := by
  intro disk
  unfold unlinkTemporary
  split <;> rfl

theorem quiet_decodeContent : Quiet decodeContent := by
  intro disk
  unfold decodeContent
  split <;> rfl

/-! ## The write -/

theorem quiet_recheck (env : Env) : Quiet (recheck env) := by
  intro disk
  unfold recheck
  rcases env.fault .restat with _ | _ | _ | _ <;> rfl

theorem quiet_fillTemporary (env : Env) (body : Bytes) : Quiet (fillTemporary env body) :=
  (quiet_call env _).bind fun _ => Quiet.andFinally
    ((quiet_call env _).bind fun _ => Quiet.bind (fun _ => rfl) fun _ =>
      (quiet_call env _).bind fun _ => quiet_call env _)
    (quiet_call env _)

theorem fillTemporary_ok {env : Env} (h : ∀ c ∈ streamCalls, env.fault c = none) (body : Bytes)
    (disk : Disk) :
    fillTemporary env body disk = (.ok (), { disk with temporary := some body }) := by
  simp only [streamCalls, List.forall_mem_cons] at h
  obtain ⟨hopen, hwrite, hchmod, hsync, hclose, -⟩ := h
  rw [fillTemporary, bind_ok (call_of_none hopen disk), Io.andFinally,
    bind_ok (call_of_none hwrite disk), bind_modify, bind_ok (call_of_none hchmod _),
    call_of_none hsync]
  dsimp only
  rw [call_of_none hclose]

theorem fillTemporary_halted {env : Env} (h : ∃ c ∈ streamCalls, env.fault c ≠ none)
    (body : Bytes) (disk : Disk) : Halted disk.content (fillTemporary env body disk) := by
  unfold fillTemporary
  by_cases hopen : env.fault .openStream = none
  · rw [bind_ok (call_of_none hopen disk)]
    by_cases hclose : env.fault .closeStream = none
    · refine Halted.andFinally ?_ (quiet_call env _)
      by_cases hwrite : env.fault .write = none
      · rw [bind_ok (call_of_none hwrite disk), bind_modify]
        by_cases hchmod : env.fault .chmod = none
        · rw [bind_ok (call_of_none hchmod _)]
          refine call_halted (fun hsync => ?_) { disk with temporary := some body }
          simp [streamCalls, hopen, hwrite, hchmod, hsync, hclose] at h
        · exact (call_halted hchmod { disk with temporary := some body }).bind
      · exact (call_halted hwrite disk).bind
    · exact halted_andFinally
        ((quiet_call env _).bind fun _ => Quiet.bind (fun _ => rfl) fun _ =>
          (quiet_call env _).bind fun _ => quiet_call env _)
        fun disk => call_halted hclose disk
  · exact (call_halted hopen disk).bind

/-- A call that fails before the replacement ends the write with the content as it was. -/
theorem atomicWrite_halted {env : Env} (h : ∃ c ∈ writeCalls, env.fault c ≠ none) (body : Bytes)
    (disk : Disk) : Halted disk.content (atomicWrite env body disk) := by
  unfold atomicWrite
  by_cases hopen : env.fault .openTemporary = none
  · rw [bind_ok (call_of_none hopen disk), bind_modify]
    refine Halted.andFinally ?_ (quiet_unlinkTemporary env)
    by_cases hstream : ∃ c ∈ streamCalls, env.fault c ≠ none
    · exact (fillTemporary_halted hstream body { disk with temporary := some [] }).bind
    · push Not at hstream
      rw [bind_ok (fillTemporary_ok hstream body _)]
      by_cases hrestat : env.fault .restat = none
      · have hrecheck : recheck env { disk with temporary := some body } =
            (.ok (), { disk with temporary := some body }) := by
          rw [recheck, hrestat]
          rfl
        rw [bind_ok hrecheck]
        refine (call_halted (fun hreplace => ?_) { disk with temporary := some body }).bind
        obtain ⟨c, hc, hfault⟩ := h
        simp only [writeCalls, List.cons_append, List.mem_cons, List.mem_append,
          List.not_mem_nil, or_false] at hc
        rcases hc with rfl | hc | rfl | rfl
        · exact hfault hopen
        · exact hfault (hstream c hc)
        · exact hfault hrestat
        · exact hfault hreplace
      · refine Halted.bind ⟨?_, quiet_recheck env _⟩
        obtain ⟨e, he⟩ := Option.ne_none_iff_exists'.mp hrestat
        rw [recheck, he]
        cases e <;> exact ⟨_, rfl⟩
  · exact (call_halted hopen disk).bind

/-- A write whose calls succeed up to the replacement has replaced the content. -/
theorem atomicWrite_replaced {env : Env} (h : ∀ c ∈ writeCalls, env.fault c = none)
    (body : Bytes) (disk : Disk) :
    atomicWrite env body disk = unlinkTemporary env { content := body, temporary := none } := by
  have hopen : env.fault .openTemporary = none := h _ (by decide)
  have hrestat : env.fault .restat = none := h _ (by decide)
  have hreplace : env.fault .replace = none := h _ (by decide)
  have hstream : ∀ c ∈ streamCalls, env.fault c = none := fun c hc =>
    h c (List.mem_cons_of_mem _ (List.mem_append_left _ hc))
  have hrecheck : recheck env { disk with temporary := some body } =
      (.ok (), { disk with temporary := some body }) := by
    rw [recheck, hrestat]
    rfl
  rw [atomicWrite, bind_ok (call_of_none hopen disk), bind_modify, Io.andFinally,
    bind_ok (fillTemporary_ok hstream body _), bind_ok hrecheck,
    bind_ok (call_of_none hreplace _)]
  dsimp only [Io.modify, Option.getD_some]
  rcases unlinkTemporary env { content := body, temporary := none } with ⟨_ | _, _⟩ <;> rfl

/-! ## The edit -/

/-- The edit has not succeeded, and the content is what it was. -/
def Left (content : Bytes) (run : Except Raised EditResult × Disk) : Prop :=
  run.1 ≠ .ok .edited ∧ run.2.content = content

theorem Halted.left {content : Bytes} {run : Except Raised EditResult × Disk}
    (h : Halted content run) : Left content run := by
  obtain ⟨⟨e, he⟩, hcontent⟩ := h
  refine ⟨fun hok => ?_, hcontent⟩
  rw [he] at hok
  cases hok

theorem Left.andFinally {content : Bytes} {x : Io EditResult} {cleanup : Io Unit} {disk : Disk}
    (h : Left content (x disk)) (hc : Quiet cleanup) :
    Left content (Io.andFinally x cleanup disk) := by
  obtain ⟨hok, hcontent⟩ := h
  have hsecond := hc (x disk).2
  unfold Io.andFinally
  dsimp only
  split
  · next heq =>
    rw [heq] at hsecond
    exact ⟨hok, hsecond.trans hcontent⟩
  · next heq =>
    rw [heq] at hsecond
    exact ⟨by simp, hsecond.trans hcontent⟩

/-- The replacement is made: the count is one and the text can be written. -/
theorem replaceUnique_eq {write : Bytes → Io Unit} {text old new : PyStr} {body : Bytes}
    (hcount : count old text = 1) (hbody : encode (replaceFirst old new text) = some body) :
    replaceUnique write text old new = (do
      write body
      Io.pure .edited) := by
  rw [replaceUnique, if_neg (by omega), if_neg (by omega), hbody]

/-- Otherwise nothing is written. -/
theorem replaceUnique_left {write : Bytes → Io Unit} {text old new : PyStr} (disk : Disk)
    (h : ¬(count old text = 1 ∧ (encode (replaceFirst old new text)).isSome = true)) :
    Left disk.content (replaceUnique write text old new disk) := by
  unfold replaceUnique
  split_ifs with hzero hmany
  · exact ⟨by simp [Io.pure], rfl⟩
  · exact ⟨by simp [Io.pure], rfl⟩
  · have hone : count old text = 1 := by omega
    cases hbody : encode (replaceFirst old new text) with
    | none => exact ⟨by simp [Io.raise], rfl⟩
    | some body => exact absurd ⟨hone, by rw [hbody]; rfl⟩ h

theorem decodeContent_eq {content : Bytes} {text : PyStr} (h : decode content = some text)
    (temporary : Option Bytes) :
    decodeContent ⟨content, temporary⟩ = (.ok text, ⟨content, temporary⟩) := by
  simp only [decodeContent, h]

/-- The POSIX branch when its reads succeed. -/
theorem editPosix_reads {env : Env} (h : ∀ c ∈ readCalls, env.fault c = none) {disk : Disk}
    {text : PyStr} (hdecode : decode disk.content = some text) (old new : PyStr) :
    editPosix env old new disk = Io.andFinally
      (replaceUnique (atomicWrite env) text old new) (call env .closeParent) disk := by
  simp only [readCalls, List.forall_mem_cons] at h
  obtain ⟨hparent, hstat, hopen, hfstat, hread, hclose, -⟩ := h
  have hdecoded : decodeContent disk = (.ok text, disk) := decodeContent_eq hdecode disk.temporary
  rw [editPosix, bind_ok (call_of_none hparent disk), hstat]
  refine andFinally_congr ?_
  change (call env .openFile >>= fun _ => _) disk = _
  rw [bind_ok (call_of_none hopen disk)]
  have htext : Io.andFinally
      (do
        call env .fstat
        call env .read
        decodeContent)
      (call env .closeFile) disk = (.ok text, disk) := by
    rw [Io.andFinally, bind_ok (call_of_none hfstat disk), bind_ok (call_of_none hread disk),
      hdecoded]
    dsimp only
    rw [call_of_none hclose]
  rw [bind_ok htext]

/-- The POSIX branch when one of its reads fails. -/
theorem editPosix_left {env : Env} (h : ∃ c ∈ readCalls, env.fault c ≠ none) (disk : Disk)
    (old new : PyStr) : Left disk.content (editPosix env old new disk) := by
  unfold editPosix
  by_cases hparent : env.fault .openParent = none
  · rw [bind_ok (call_of_none hparent disk)]
    refine Left.andFinally ?_ (quiet_call env _)
    by_cases hstat : env.fault .stat = none
    · rw [hstat]
      dsimp only
      by_cases hopen : env.fault .openFile = none
      · rw [bind_ok (call_of_none hopen disk)]
        refine Halted.left (Halted.bind ?_)
        by_cases hclose : env.fault .closeFile = none
        · refine Halted.andFinally ?_ (quiet_call env _)
          by_cases hfstat : env.fault .fstat = none
          · rw [bind_ok (call_of_none hfstat disk)]
            refine (call_halted (fun hread => ?_) disk).bind
            simp [readCalls, hparent, hstat, hopen, hfstat, hread, hclose] at h
          · exact (call_halted hfstat disk).bind
        · exact halted_andFinally ((quiet_call env _).bind fun _ =>
            (quiet_call env _).bind fun _ => quiet_decodeContent)
            fun disk => call_halted hclose disk
      · exact Halted.left (call_halted hopen disk).bind
    · obtain ⟨e, he⟩ := Option.ne_none_iff_exists'.mp hstat
      rw [he]
      cases e <;> exact ⟨by simp [Io.pure, Io.raise], rfl⟩
  · exact Halted.left (call_halted hparent disk).bind

/-- The branch of the other platforms when the file is there and can be read. -/
theorem editWindows_reads {env : Env} (hfile : env.fault .isFile = none)
    (hread : env.fault .readText = none) {disk : Disk} {text : PyStr}
    (hdecode : decode disk.content = some text) (old new : PyStr) :
    editWindows env old new disk =
      replaceUnique (writeBytes env) (universalNewlines text) old new disk := by
  have hdecoded : decodeContent disk = (.ok text, disk) := decodeContent_eq hdecode disk.temporary
  rw [editWindows, hfile]
  dsimp only
  rw [bind_ok (call_of_none hread disk), bind_ok hdecoded]

/-- The branch of the other platforms when the file cannot be read. -/
theorem editWindows_left {env : Env} (h : env.fault .isFile ≠ none ∨ env.fault .readText ≠ none)
    (disk : Disk) (old new : PyStr) : Left disk.content (editWindows env old new disk) := by
  unfold editWindows
  cases hfile : env.fault .isFile with
  | some e => exact ⟨by simp [Io.pure], rfl⟩
  | none => exact Halted.left (call_halted (h.resolve_left fun hne => hne hfile) disk).bind

/-- The run of an edit, before its errors are handled. -/
def editRun (env : Env) (content : Bytes) (old new : PyStr) : Except Raised EditResult × Disk :=
  editBranch env old new { content := content, temporary := none }

theorem editFile_content (env : Env) (content : Bytes) (old new : PyStr) :
    (editFile env content old new).2 = (editRun env content old new).2.content := by
  unfold editFile editRun
  split <;> next heq => rw [heq]

theorem editFile_ok (env : Env) (content : Bytes) (old new : PyStr) :
    (editFile env content old new).1.ok = true ↔
      (editRun env content old new).1 = .ok .edited := by
  unfold editFile editRun
  split
  · next result disk heq =>
    rw [heq]
    cases result <;> simp [EditResult.ok]
  all_goals next heq => rw [heq]; simp [EditResult.ok]

/-- A run that leaves the file is no success. -/
theorem Left.editFile {env : Env} {content : Bytes} {old new : PyStr}
    (h : Left content (editRun env content old new)) :
    (editFile env content old new).1.ok = false ∧ (editFile env content old new).2 = content := by
  refine ⟨?_, (editFile_content env content old new).trans h.2⟩
  rw [Bool.eq_false_iff, Ne, editFile_ok]
  exact h.1

/-- The edit leaves the file when a call fails before the content changes, and when there is
nothing to write. -/
theorem editRun_left {env : Env} {content : Bytes} {text old new : PyStr}
    (hdecode : decode content = some text)
    (h : env.Stopped ∨ ¬(count old (env.shown text) = 1 ∧
      (encode (replaceFirst old new (env.shown text))).isSome = true)) :
    Left content (editRun env content old new) := by
  unfold editRun editBranch
  unfold Env.Stopped Env.shown at h
  cases hplatform : env.platform with
  | posix =>
    rw [hplatform] at h
    dsimp only [Platform.before] at h ⊢
    by_cases hread : ∃ c ∈ readCalls, env.fault c ≠ none
    · exact editPosix_left hread ⟨content, none⟩ old new
    · push Not at hread
      rw [editPosix_reads hread hdecode]
      refine Left.andFinally ?_ (quiet_call env _)
      by_cases hmade : count old text = 1 ∧ (encode (replaceFirst old new text)).isSome = true
      · obtain ⟨body, hbody⟩ := Option.isSome_iff_exists.mp hmade.2
        obtain ⟨c, hc, hfault⟩ := h.resolve_right fun hnot => hnot hmade
        have hwrite : ∃ c ∈ writeCalls, env.fault c ≠ none := by
          rcases List.mem_append.mp hc with hc | hc
          · exact absurd (hread c hc) hfault
          · exact ⟨c, hc, hfault⟩
        rw [replaceUnique_eq hmade.1 hbody]
        exact Halted.left (atomicWrite_halted hwrite body ⟨content, none⟩).bind
      · exact replaceUnique_left ⟨content, none⟩ hmade
  | windows =>
    rw [hplatform] at h
    dsimp only [Platform.before] at h ⊢
    by_cases hread : env.fault .isFile = none ∧ env.fault .readText = none
    · rw [editWindows_reads hread.1 hread.2 hdecode]
      by_cases hmade : count old (universalNewlines text) = 1 ∧
          (encode (replaceFirst old new (universalNewlines text))).isSome = true
      · obtain ⟨body, hbody⟩ := Option.isSome_iff_exists.mp hmade.2
        obtain ⟨c, hc, hfault⟩ := h.resolve_right fun hnot => hnot hmade
        have hopen : env.fault .openTarget ≠ none := by
          simp only [List.mem_cons, List.not_mem_nil, or_false] at hc
          rcases hc with rfl | rfl | rfl
          · exact absurd hread.1 hfault
          · exact absurd hread.2 hfault
          · exact hfault
        rw [replaceUnique_eq hmade.1 hbody]
        have hwrite : Halted content (writeBytes env body ⟨content, none⟩) :=
          (call_halted hopen ⟨content, none⟩).bind
        exact Halted.left hwrite.bind
      · exact replaceUnique_left ⟨content, none⟩ hmade
    · refine editWindows_left ?_ ⟨content, none⟩ old new
      by_cases hfile : env.fault .isFile = none
      · exact .inr fun hnone => hread ⟨hfile, hnone⟩
      · exact .inl hfile

/-- The edit that reaches the write changes the file, and succeeds when nothing breaks then. -/
theorem editRun_written {env : Env} {content body : Bytes} {text old new : PyStr}
    (hdecode : decode content = some text) (hstopped : ¬env.Stopped)
    (hcount : count old (env.shown text) = 1)
    (hbody : encode (replaceFirst old new (env.shown text)) = some body) :
    (¬env.Broken → editRun env content old new = (.ok .edited, ⟨body, none⟩)) ∧
      (env.Broken → (editRun env content old new).1 ≠ .ok .edited ∧
        (editRun env content old new).2.content = env.torn body) := by
  unfold Env.Stopped at hstopped
  push Not at hstopped
  unfold editRun editBranch
  unfold Env.shown at hcount hbody
  unfold Env.Broken Env.torn
  cases hplatform : env.platform with
  | posix =>
    rw [hplatform] at hstopped hcount hbody
    dsimp only [Platform.before] at hstopped hcount hbody ⊢
    have hread : ∀ c ∈ readCalls, env.fault c = none := fun c hc =>
      hstopped c (List.mem_append_left _ hc)
    have hwrite : ∀ c ∈ writeCalls, env.fault c = none := fun c hc =>
      hstopped c (List.mem_append_right _ hc)
    have hrun : replaceUnique (atomicWrite env) text old new ⟨content, none⟩ =
        (unlinkTemporary env >>= fun _ => Io.pure .edited) ⟨body, none⟩ := by
      rw [replaceUnique_eq hcount hbody]
      change Io.bind _ _ _ = Io.bind _ _ _
      unfold Io.bind
      rw [atomicWrite_replaced hwrite]
    rw [editPosix_reads hread hdecode, andFinally_congr hrun]
    constructor
    · intro hbroken
      obtain ⟨hunlink, hclose⟩ := not_or.mp hbroken
      push Not at hunlink hclose
      have hdone : unlinkTemporary env ⟨body, none⟩ = (.ok (), ⟨body, none⟩) := by
        unfold unlinkTemporary
        cases hfault : env.fault .unlinkTemporary with
        | none => rfl
        | some e =>
          obtain rfl : e = .notFound := Option.some.inj
            (hfault.symm.trans (hunlink (by rw [hfault]; exact Option.some_ne_none e)))
          rfl
      rw [Io.andFinally, bind_ok hdone]
      dsimp only [Io.pure]
      rw [call_of_none hclose]
    · intro hbroken
      have hquiet : Quiet (unlinkTemporary env >>= fun _ => Io.pure EditResult.edited) :=
        (quiet_unlinkTemporary env).bind fun _ _ => rfl
      have hleft : Left body (Io.andFinally (unlinkTemporary env >>= fun _ => Io.pure .edited)
          (call env .closeParent) ⟨body, none⟩) := by
        by_cases hclose : env.fault .closeParent = none
        · obtain ⟨hfault, hfound⟩ := hbroken.resolve_right fun hne => hne hclose
          obtain ⟨e, he⟩ := Option.ne_none_iff_exists'.mp hfault
          have hunlink : Halted body (unlinkTemporary env ⟨body, none⟩) := by
            refine ⟨⟨e, ?_⟩, quiet_unlinkTemporary env _⟩
            unfold unlinkTemporary
            rw [he] at hfound ⊢
            cases e with
            | notFound => exact absurd rfl hfound
            | permission => rfl
            | unavailable => rfl
          exact Halted.left (hunlink.bind.andFinally (quiet_call env _))
        · exact Halted.left (halted_andFinally hquiet fun disk => call_halted hclose disk)
      exact hleft
  | windows =>
    rw [hplatform] at hstopped hcount hbody
    dsimp only [Platform.before] at hstopped hcount hbody ⊢
    have hfile : env.fault .isFile = none := hstopped _ (by simp)
    have hread : env.fault .readText = none := hstopped _ (by simp)
    have hopen : env.fault .openTarget = none := hstopped _ (by simp)
    rw [editWindows_reads hfile hread hdecode, replaceUnique_eq hcount hbody]
    have hwrite : writeBytes env body ⟨content, none⟩ =
        match env.fault .writeTarget with
        | some e => (.error e, ⟨body.take env.written, none⟩)
        | none => (.ok (), ⟨body, none⟩) :=
      bind_ok (call_of_none hopen _)
    constructor
    · intro hbroken
      rw [not_not.mp hbroken] at hwrite
      rw [bind_ok hwrite]
      rfl
    · intro hbroken
      obtain ⟨e, he⟩ := Option.ne_none_iff_exists'.mp hbroken
      rw [he] at hwrite
      rw [bind_error hwrite]
      exact ⟨by simp, rfl⟩

/-! ## When the promise is kept -/

theorem all_isScalar_of_decode {content : Bytes} {text : PyStr} (h : decode content = some text) :
    text.all isScalar = true := by
  have hencode := decode_eq_some.mp h
  unfold encode at hencode
  split_ifs at hencode with hscalar
  exact hscalar

theorem isSome_encode (s : PyStr) : (encode s).isSome = s.all isScalar := by
  unfold encode
  split_ifs with h <;> simp [h]

theorem all_isScalar_universalNewlines {text : PyStr} (h : text.all isScalar = true) :
    (universalNewlines text).all isScalar = true := by
  fun_induction universalNewlines text with
  | case1 s ih =>
    simp only [List.all_cons, Bool.and_eq_true] at h ⊢
    exact ⟨rfl, ih h.2.2⟩
  | case2 s hs ih =>
    simp only [List.all_cons, Bool.and_eq_true] at h ⊢
    exact ⟨rfl, ih h.2⟩
  | case3 c s h₁ h₂ ih =>
    simp only [List.all_cons, Bool.and_eq_true] at h ⊢
    exact ⟨h.1, ih h.2⟩
  | case4 => rfl

theorem return_not_mem_universalNewlines (text : PyStr) :
    CodePoint.scalar '\r' ∉ universalNewlines text := by
  fun_induction universalNewlines text with
  | case1 s ih => simpa using ih
  | case2 s hs ih => simpa using ih
  | case3 c s h₁ h₂ ih =>
    rw [List.mem_cons, not_or]
    exact ⟨fun hc => h₂ hc.symm, ih⟩
  | case4 => simp

theorem exists_firstAt_of_count {pat text : PyStr} (h : count pat text = 1) :
    ∃ i, FirstAt pat text i := by
  rcases count_eq_one_iff.mp h with ⟨i, honly⟩ | ⟨i, -, -, hi, -⟩
  · exact ⟨i, honly.firstAt⟩
  · obtain ⟨first, -, hfirst⟩ := exists_firstAt hi
    exact ⟨first, hfirst⟩

/-- The text around the occurrence has no surrogate, so `new` decides. -/
theorem isSome_encode_replaceFirst {text old : PyStr} (htext : text.all isScalar = true)
    (hcount : count old text = 1) (new : PyStr) :
    (encode (replaceFirst old new text)).isSome = new.all isScalar := by
  obtain ⟨i, hfirst⟩ := exists_firstAt_of_count hcount
  have htake : (text.take i).all isScalar = true :=
    List.all_eq_true.mpr fun c hc => List.all_eq_true.mp htext c (List.mem_of_mem_take hc)
  have hdrop : (text.drop (i + old.length)).all isScalar = true :=
    List.all_eq_true.mpr fun c hc => List.all_eq_true.mp htext c (List.mem_of_mem_drop hc)
  rw [isSome_encode, replaceFirst_eq hfirst, List.all_append, List.all_append, htake, hdrop,
    Bool.true_and, Bool.and_true]

/-- A text is its part before an occurrence, the occurrence, and its part behind it. -/
theorem OccursAt.split {pat text : PyStr} {i : ℕ} (h : OccursAt pat text i) :
    text = text.take i ++ pat ++ text.drop (i + pat.length) := by
  obtain ⟨tail, htail⟩ := h.2
  have hdrop : text.drop (i + pat.length) = tail := by
    rw [← List.drop_drop, ← htail, List.drop_left]
  rw [hdrop, List.append_assoc, htail, List.take_append_drop]

/-- With the line ends changed the replaced text is not that of the file: it has fewer returns. -/
theorem replaceFirst_universalNewlines_ne {text old new : PyStr} {i : ℕ}
    (hshown : universalNewlines text ≠ text) (hcount : count old (universalNewlines text) = 1)
    (hi : OccursAt old text i) :
    text.take i ++ new ++ text.drop (i + old.length) ≠
      replaceFirst old new (universalNewlines text) := by
  intro heq
  obtain ⟨k, hfirst⟩ := exists_firstAt_of_count hcount
  rw [replaceFirst_eq hfirst] at heq
  have hreturns := congrArg (List.count (CodePoint.scalar '\r')) heq
  have hsplit := congrArg (List.count (CodePoint.scalar '\r')) (OccursAt.split hi)
  have hsplit' := congrArg (List.count (CodePoint.scalar '\r')) (OccursAt.split hfirst.1)
  have hnone : List.count (CodePoint.scalar '\r') (universalNewlines text) = 0 :=
    List.count_eq_zero.mpr (return_not_mem_universalNewlines text)
  have hsome : 0 < List.count (CodePoint.scalar '\r') text :=
    List.count_pos_iff.mpr (by
      by_contra hmem
      exact hshown (universalNewlines_of_not_mem hmem))
  simp only [List.count_append] at hreturns hsplit hsplit'
  omega

/-- The promise is kept exactly where none of the ways to break it is reached. -/
theorem keeps_iff {env : Env} {content : Bytes} {text old new : PyStr}
    (hdecode : decode content = some text) :
    Keeps env content text old new ↔ Harmless env content text old new := by
  have htext := all_isScalar_of_decode hdecode
  have hshownScalar : (env.shown text).all isScalar = true := by
    unfold Env.shown
    cases env.platform
    · exact htext
    · exact all_isScalar_universalNewlines htext
  by_cases hstopped : env.Stopped
  · -- a call failed in time
    have hleft : Left content (editRun env content old new) :=
      editRun_left hdecode (.inl hstopped)
    obtain ⟨hok, hcontent⟩ := hleft.editFile
    refine iff_of_true ⟨fun h => absurd hstopped h, fun h => ?_, fun _ => hcontent⟩
      fun h => absurd hstopped h
    rw [hok] at h
    cases h
  by_cases hmade : count old (env.shown text) = 1 ∧
      (encode (replaceFirst old new (env.shown text))).isSome = true
  · obtain ⟨hcount, hsome⟩ := hmade
    have hnew : new.all isScalar = true := by
      rwa [isSome_encode_replaceFirst hshownScalar hcount] at hsome
    obtain ⟨body, hbody⟩ := Option.isSome_iff_exists.mp hsome
    obtain ⟨hclean, hbroken⟩ := editRun_written hdecode hstopped hcount hbody
    by_cases hbreaks : env.Broken
    · -- the content has changed, but the edit does not say so
      obtain ⟨hok, hcontent⟩ := hbroken hbreaks
      have hfail : (editFile env content old new).1.ok = false := by
        rw [Bool.eq_false_iff, Ne, editFile_ok]
        exact hok
      rw [← editFile_content] at hcontent
      constructor
      · intro h _
        refine ⟨fun _ _ body' hbody' => ?_, fun h => absurd hbreaks h⟩
        obtain rfl := Option.some.inj (hbody.symm.trans hbody')
        rw [← hcontent, h.otherwise hfail]
      · intro h
        refine ⟨fun _ hclean => absurd hbreaks hclean, fun hok => ?_, fun _ => ?_⟩
        · rw [hfail] at hok
          cases hok
        · rw [hcontent, (h hstopped).1 hbreaks hcount body hbody]
    · -- the edit succeeds
      have hrun := hclean hbreaks
      have hok : (editFile env content old new).1.ok = true := by
        rw [editFile_ok, hrun]
      have hcontent : (editFile env content old new).2 = body := by
        rw [editFile_content, hrun]
      have hkeeps : Keeps env content text old new ↔ ∃ i, OnlyAt old text i ∧
          encode (text.take i ++ new ++ text.drop (i + old.length)) = some body := by
        constructor
        · intro h
          rw [← hcontent]
          exact h.edits hok
        · intro h
          refine ⟨fun _ _ _ _ => hok, fun _ => hcontent.symm ▸ h, fun hno => ?_⟩
          rw [hok] at hno
          cases hno
      have hharmless : Harmless env content text old new ↔
          (if env.shown text = text then
            (new.all isScalar = true → ¬Overlaps old text) ∧
              (new.all isScalar = false → ∀ i, ¬OnlyAt old text i)
          else
            ¬(count old (env.shown text) = 1 ∧ new.all isScalar = true) ∧
              ∀ i, ¬OnlyAt old text i) :=
        ⟨fun h => (h hstopped).2 hbreaks, fun h _ => ⟨fun hb => absurd hb hbreaks, fun _ => h⟩⟩
      rw [hkeeps, hharmless]
      split_ifs with hshown
      · rw [hshown] at hcount hbody
        constructor
        · rintro ⟨i, honly, -⟩
          refine ⟨fun _ hoverlaps => hoverlaps.not_onlyAt i honly, fun hno => ?_⟩
          rw [hnew] at hno
          cases hno
        · rintro ⟨hoverlaps, -⟩
          obtain ⟨i, honly⟩ := (count_eq_one_iff.mp hcount).resolve_right (hoverlaps hnew)
          exact ⟨i, honly, by rw [← replaceFirst_eq honly.firstAt, hbody]⟩
      · refine iff_of_false ?_ fun h => h.1 ⟨hcount, hnew⟩
        rintro ⟨i, honly, hencode⟩
        have hplatform : env.shown text = universalNewlines text := by
          unfold Env.shown at hshown ⊢
          cases hp : env.platform with
          | posix =>
            rw [hp] at hshown
            exact absurd rfl hshown
          | windows => rfl
        rw [hplatform] at hshown hcount hbody
        exact replaceFirst_universalNewlines_ne hshown hcount ((honly i).mpr rfl)
          (encode_inj hencode hbody)
  · -- there is nothing to write
    obtain ⟨hok, hcontent⟩ := (editRun_left hdecode (.inr hmade)).editFile
    have hkeeps : Keeps env content text old new ↔
        (¬env.Broken → ∀ i, ¬OnlyAt old text i) := by
      constructor
      · intro h hbroken i honly
        have := h.succeeds hstopped hbroken i honly
        rw [hok] at this
        cases this
      · intro h
        refine ⟨fun _ hb i honly => absurd honly (h hb i), fun hyes => ?_, fun _ => hcontent⟩
        rw [hok] at hyes
        cases hyes
    have hfirst : env.Broken → count old (env.shown text) = 1 →
        ∀ body, encode (replaceFirst old new (env.shown text)) = some body →
          env.torn body = content := fun _ hcount body hbody =>
      absurd ⟨hcount, by rw [hbody]; rfl⟩ hmade
    have hnot : ¬(count old (env.shown text) = 1 ∧ new.all isScalar = true) := by
      rintro ⟨hcount, hnew⟩
      exact hmade ⟨hcount, by rw [isSome_encode_replaceFirst hshownScalar hcount, hnew]⟩
    rw [hkeeps]
    constructor
    · intro h _
      refine ⟨hfirst, fun hbroken => ?_⟩
      split_ifs with hshown
      · rw [hshown] at hnot
        refine ⟨fun hnew hoverlaps => hnot ⟨count_eq_one_iff.mpr (.inr hoverlaps), hnew⟩,
          fun _ => h hbroken⟩
      · exact ⟨hnot, h hbroken⟩
    · intro h hbroken i honly
      have hcond := (h hstopped).2 hbroken
      split_ifs at hcond with hshown
      · rw [hshown] at hnot
        have hcount : count old text = 1 := count_eq_one_iff.mpr (.inl ⟨i, honly⟩)
        cases hnew : new.all isScalar with
        | true => exact hnot ⟨hcount, hnew⟩
        | false => exact hcond.2 hnew i honly
      · exact hcond.2 i honly

/-- An environment where every call succeeds. -/
def freeEnv : Env where
  platform := .posix
  fault := fun _ => none
  written := 0

theorem keeps_iff_word : decode [0x61, 0x62] = some (lit "ab") ∧
    (Keeps freeEnv [0x61, 0x62] (lit "ab") (lit "b") (lit "c") ↔
      Harmless freeEnv [0x61, 0x62] (lit "ab") (lit "b") (lit "c")) :=
  ⟨by decide, keeps_iff (by decide)⟩

/-- `aa` has two positions in `aaa`, and the edit replaces the first. -/
theorem not_keeps : ¬∀ (env : Env) (content : Bytes) (text old new : PyStr),
    decode content = some text → Keeps env content text old new := by
  intro h
  have hkeeps := h freeEnv [0x61, 0x61, 0x61] (lit "aaa") (lit "aa") (lit "b") (by decide)
  obtain ⟨i, honly, -⟩ := hkeeps.edits (by decide)
  have hzero : 0 = i := (honly 0).mp (by decide)
  have hone : 1 = i := (honly 1).mp (by decide)
  omega

end Icode.EditFile
