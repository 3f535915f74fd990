import Icode.ArtifactBinding

/-!
# Snapshots of the artifacts

`snapshotArtifacts` copies the artifacts of the chain into the directory `bodies` of a new
package. The name of a snapshot is the sanitized `output__name`, and `output__index_name` when
that one is in use. The second name is an ordinary first name of another artifact, and it is not
looked up, so a copy can meet a file that is already there.

Which names are in use is a matter of the names alone (`Taken`), and no copy can fail for that
reason exactly when no artifact finds both of its names taken (`snapshots_collisionFree_iff`).
-/

namespace Icode

open Py

namespace ArtifactSnapshot

/-! ## Names -/

/-- An item of `artifact_events`. -/
structure ArtifactEvent where
  eventIndex : ℕ
  eventId : Json
  payload : Members

/-- What the names depend on: `str.isalnum` and `str.isprintable` of a character, the flavour of the
paths, and the paths that are files, by `str(path)`. -/
structure Sources where
  isAlnum : CodePoint → Bool
  printable : CodePoint → Bool
  flavour : Flavour
  isFile : PyStr → Bool

/-- What a file holds, or `none` when opening it raises an `OSError`, and the names that `bodies`
can hold. `bodies` tells all names apart, and the files do not change during the call. -/
structure Storage where
  read : PyStr → Option Bytes
  nameFits : PyStr → Bool

section Names

variable (env : Sources)

/-- `_safe_name`. -/
def safeName (text : PyStr) : PyStr :=
  let kept := text.map fun c =>
    if env.isAlnum c || c == .scalar '-' || c == .scalar '_' || c == .scalar '.' then c
    else .scalar '_'
  let stripped := ((kept.dropWhile (· == .scalar '_')).reverse.dropWhile (· == .scalar '_')).reverse
  if stripped.isEmpty then lit "artifact" else stripped

/-- `str(payload.get(key) or default)` -/
def textOr (payload : Members) (key default : PyStr) : PyStr :=
  let value := payload.get key
  if value.truthy then value.pyStr env.printable else default

/-- `source` -/
def sourceOf (e : ArtifactEvent) : PurePath :=
  PurePath.parse env.flavour (textOr env e.payload "path" [])

/-- `output_id` -/
def outputOf (e : ArtifactEvent) : PyStr :=
  textOr env e.payload "output" "artifact"

/-- `chain_hash` -/
def chainHashOf (e : ArtifactEvent) : PyStr :=
  textOr env e.payload "sha256" []

/-- `path.name` -/
def nameOf (path : PurePath) : PyStr :=
  path.tail.getLastD []

/-- `_safe_name(f"{output_id}__{source.name}")` -/
def firstName (e : ArtifactEvent) : PyStr :=
  safeName env (outputOf env e ++ lit "__" ++ nameOf (sourceOf env e))

/-- `_safe_name(f"{output_id}__{index}_{source.name}")` -/
def secondName (e : ArtifactEvent) : PyStr :=
  safeName env (outputOf env e ++ lit "__" ++ ofChars (intText e.eventIndex) ++ lit "_" ++
    nameOf (sourceOf env e))

/-- `source.is_file()` -/
def isPresent (e : ArtifactEvent) : Bool :=
  env.isFile (sourceOf env e).str

end Names

/-! ## Copying -/

/-- What `_snapshot_artifacts` raises. -/
inductive SnapshotError where
  /-- `FileExistsError` of a copy. -/
  | fileExists
  /-- Any other `OSError`. -/
  | os
  /-- `_FileSizeLimitExceeded` -/
  | fileSize
  /-- `_HashReadBudgetExceeded` -/
  | readBudget
  /-- `_ArtifactSnapshotLimitExceeded` -/
  | artifactBytes
  deriving DecidableEq

def SnapshotError.ofHash : HashError → SnapshotError
  | .fileSize => .fileSize
  | .readBudget => .readBudget

/-- The files of `bodies`, by name, and what is left of the two budgets. -/
structure Disk where
  bodies : Dict PyStr Bytes
  remaining : ℕ
  artifactRemaining : ℕ

/-- `(bodies_dir / name).exists()`: the directory itself and the one above it are there. -/
def Disk.exists_ (d : Disk) (name : PyStr) : Bool :=
  name == lit "." || name == lit ".." || d.bodies.has name

/-- The loop of `_copy_file_bounded` over the rest of the source, with what was written, and what is
left of the two budgets; `fuel` bounds the number of reads. -/
def copyReads (maxBytes : ℕ) : ℕ → Bytes → Bytes → ℕ → ℕ → Except SnapshotError (Bytes × ℕ × ℕ)
  | 0, _, written, remaining, artifactRemaining => .ok (written, remaining, artifactRemaining)
  | fuel + 1, rest, written, remaining, artifactRemaining =>
    let readSize := min (min (min (1024 * 1024) (maxBytes - written.length + 1)) (remaining + 1))
      (artifactRemaining + 1)
    let chunk := rest.take readSize
    if chunk.isEmpty then .ok (written, remaining, artifactRemaining)
    else if maxBytes < written.length + chunk.length then .error .fileSize
    else if remaining < chunk.length then .error .readBudget
    else if artifactRemaining < chunk.length then .error .artifactBytes
    else
      copyReads maxBytes fuel (rest.drop readSize) (written ++ chunk)
        (remaining - chunk.length) (artifactRemaining - chunk.length)

/-- `_copy_file_bounded`, which opens the new file with `xb`. -/
def copyFileBounded (io : Storage) (data : Bytes) (name : PyStr) (d : Disk) :
    Except SnapshotError Disk := do
  require (io.nameFits name) .os
  require (!d.exists_ name) .fileExists
  let (written, remaining, artifactRemaining) ←
    copyReads maxPackageFileBytes (data.length + 1) data [] d.remaining d.artifactRemaining
  pure ⟨d.bodies ++ [(name, written)], remaining, artifactRemaining⟩

/-- `sha256_file` of some content, with the read budget of the disk. -/
def hashFile (data : Bytes) (d : Disk) : Except SnapshotError (PyStr × Disk) :=
  match sha256File maxPackageFileBytes data d.remaining with
  | (.ok digest, remaining) => .ok (digest, { d with remaining })
  | (.error e, _) => .error (.ofHash e)

/-! ## The loop -/

/-- An entry of the index. -/
structure Entry where
  output : PyStr
  step : Json
  scope : Json
  sourcePath : PyStr
  chainSha256 : PyStr
  snapshot : PyStr
  snapshotSha256 : PyStr
  size : Json
  eventId : Json
  eventIndex : ℕ
  matchesChain : Bool

/-- 链上登记的产物已不在原路径，无法取证：{source}（output={output_id}） -/
structure Missing where
  source : PyStr
  output : PyStr

/-- 产物当前内容与链上记录不一致（可能事后被修改） -/
structure Changed where
  source : PyStr
  chain : PyStr
  actual : PyStr

/-- The lists of the loop, and the disk. -/
structure State where
  entries : List Entry
  problems : List Missing
  warnings : List Changed
  disk : Disk

/-- What stands before the name in `snapshot`. -/
def bodiesPrefix : PyStr :=
  lit "ticket/bodies/"

section Loop

variable (env : Sources) (io : Storage)

/-- The entry of an artifact that is not there. -/
def newEntry (e : ArtifactEvent) : Entry where
  output := outputOf env e
  step := e.payload.get "step"
  scope := e.payload.get "scope"
  sourcePath := (sourceOf env e).str
  chainSha256 := chainHashOf env e
  snapshot := []
  snapshotSha256 := []
  size := e.payload.get "size"
  eventId := e.eventId
  eventIndex := e.eventIndex
  matchesChain := false

/-- The name of the snapshot. -/
def chooseName (e : ArtifactEvent) (d : Disk) : Except SnapshotError PyStr := do
  let name := firstName env e
  require (io.nameFits name) .os
  pure (if d.exists_ name then secondName env e else name)

/-- The body of the loop for a source that is there. -/
def snapshotFile (e : ArtifactEvent) (data : Bytes) (s : State) : Except SnapshotError State := do
  let (actual, disk) ← hashFile data s.disk
  let chain := chainHashOf env e
  let source := (sourceOf env e).str
  let warnings := if actual = chain then s.warnings
    else s.warnings ++ [⟨source, chain.take 12, actual.take 12⟩]
  let name ← chooseName env io e disk
  let disk ← copyFileBounded io data name disk
  let (digest, disk) ← hashFile ((disk.bodies.get? name).getD []) disk
  let entry := { newEntry env e with
    snapshot := bodiesPrefix ++ name, snapshotSha256 := digest, matchesChain := digest == chain }
  pure ⟨s.entries ++ [entry], s.problems, warnings, disk⟩

/-- The body of the loop. -/
def snapshotStep (s : State) (e : ArtifactEvent) : Except SnapshotError State :=
  if isPresent env e then
    match io.read (sourceOf env e).str with
    | none => .error .os
    | some data => snapshotFile env io e data s
  else
    .ok { s with
      entries := s.entries ++ [newEntry env e]
      problems := s.problems ++ [⟨(sourceOf env e).str, outputOf env e⟩] }

def snapshotLoop (s : State) : List ArtifactEvent → Except SnapshotError State
  | [] => .ok s
  | e :: es => do
    let s ← snapshotStep env io s e
    snapshotLoop s es

/-- `_snapshot_artifacts`, for an empty directory. -/
def snapshotArtifacts (events : List ArtifactEvent) (readBudget artifactBudget : ℕ) :
    Except SnapshotError State :=
  snapshotLoop env io ⟨[], [], [], ⟨[], readBudget, artifactBudget⟩⟩ events

end Loop

/-! ## Names in use -/

section Taken

variable (env : Sources) (events : List ArtifactEvent)

/-- The names that are in use before the `i`-th artifact: the directory itself and the one above it,
the first name of an earlier artifact, and the second name of an earlier artifact whose first name
was in use. -/
inductive Taken : ℕ → PyStr → Prop
  | here {i : ℕ} : Taken i (lit ".")
  | above {i : ℕ} : Taken i (lit "..")
  | first {i j : ℕ} {e : ArtifactEvent} (hj : j < i) (he : events[j]? = some e)
      (hpresent : isPresent env e = true) : Taken i (firstName env e)
  | second {i j : ℕ} {e : ArtifactEvent} (hj : j < i) (he : events[j]? = some e)
      (hpresent : isPresent env e = true) (htaken : Taken j (firstName env e)) :
      Taken i (secondName env e)

/-- No artifact finds both of its names in use. -/
def NoClash : Prop :=
  ∀ i e, events[i]? = some e → isPresent env e = true →
    ¬(Taken env events i (firstName env e) ∧ Taken env events i (secondName env e))

end Taken

section

variable {env : Sources} {io : Storage} {events : List ArtifactEvent} {e : ArtifactEvent} {i : ℕ}
  {name : PyStr}

theorem taken_zero : Taken env events 0 name ↔ name = lit "." ∨ name = lit ".." := by
  constructor
  · intro h
    cases h with
    | here => exact .inl rfl
    | above => exact .inr rfl
    | first hj _ _ => omega
    | second hj _ _ _ => omega
  · rintro (rfl | rfl)
    · exact .here
    · exact .above

theorem Taken.mono {j : ℕ} (h : Taken env events i name) (hij : i ≤ j) :
    Taken env events j name := by
  cases h with
  | here => exact .here
  | above => exact .above
  | first hj he hpresent => exact .first (by omega) he hpresent
  | second hj he hpresent htaken => exact .second (by omega) he hpresent htaken

/-- One artifact adds its first name, and its second name when the first was in use. -/
theorem taken_succ (he : events[i]? = some e) :
    Taken env events (i + 1) name ↔ Taken env events i name ∨ isPresent env e = true ∧
      (name = firstName env e ∨
        Taken env events i (firstName env e) ∧ name = secondName env e) := by
  constructor
  · intro h
    cases h with
    | here => exact .inl .here
    | above => exact .inl .above
    | @first _ j e' hj he' hpresent =>
      rcases Nat.lt_succ_iff_lt_or_eq.mp hj with hj | rfl
      · exact .inl (.first hj he' hpresent)
      · obtain rfl := Option.some.inj (he.symm.trans he')
        exact .inr ⟨hpresent, .inl rfl⟩
    | @second _ j e' hj he' hpresent htaken =>
      rcases Nat.lt_succ_iff_lt_or_eq.mp hj with hj | rfl
      · exact .inl (.second hj he' hpresent htaken)
      · obtain rfl := Option.some.inj (he.symm.trans he')
        exact .inr ⟨hpresent, .inr ⟨htaken, rfl⟩⟩
  · rintro (h | ⟨hpresent, rfl | ⟨htaken, rfl⟩⟩)
    · exact h.mono (Nat.le_succ i)
    · exact .first (Nat.lt_succ_self i) he hpresent
    · exact .second (Nat.lt_succ_self i) he hpresent htaken

/-! ## What a copy does -/

/-- The whole source is written. -/
theorem copyReads_eq_ok {maxBytes : ℕ} {out : Bytes × ℕ × ℕ} (fuel : ℕ) :
    ∀ {rest written : Bytes} {remaining artifactRemaining : ℕ}, rest.length < fuel →
      copyReads maxBytes fuel rest written remaining artifactRemaining = .ok out →
      out.1 = written ++ rest := by
  induction fuel with
  | zero => intro rest _ _ _ hlt _; omega
  | succ fuel ih =>
    intro rest written remaining artifactRemaining hlt h
    simp only [copyReads] at h
    -- a read asks for one byte at least
    obtain ⟨n, hn⟩ : ∃ n, min (min (min (1024 * 1024) (maxBytes - written.length + 1))
        (remaining + 1)) (artifactRemaining + 1) = n + 1 := ⟨_, (Nat.succ_pred (by omega)).symm⟩
    rw [hn] at h
    split at h
    · rename_i hempty
      obtain rfl := Except.ok.inj h
      have hrest : rest = [] := by
        cases rest with
        | nil => rfl
        | cons b rest => simp at hempty
      simp [hrest]
    · rename_i hne
      split at h
      · cases h
      split at h
      · cases h
      split at h
      · cases h
      have hpos : rest ≠ [] := by
        rintro rfl
        simp at hne
      have hlen : (rest.drop (n + 1)).length < fuel := by
        have := List.length_pos_iff.mpr hpos
        rw [List.length_drop]
        omega
      rw [ih hlen h, List.append_assoc, List.take_append_drop]

/-- A copy takes a name that is not in use, and the new file has the bytes of the source. -/
theorem copyFileBounded_eq_ok {data : Bytes} {d d' : Disk}
    (h : copyFileBounded io data name d = .ok d') :
    d.exists_ name = false ∧ d'.bodies = d.bodies ++ [(name, data)] := by
  simp only [copyFileBounded, bind_eq_ok, require_eq_ok, exists_const, Bool.not_eq_true'] at h
  obtain ⟨-, hfree, ⟨written, rest⟩, hcopy, h⟩ := h
  obtain rfl := Except.ok.inj h
  have hwritten : written = data := copyReads_eq_ok _ (Nat.lt_succ_self _) hcopy
  exact ⟨hfree, by rw [hwritten]⟩

theorem copyReads_ne_fileExists {maxBytes : ℕ} (fuel : ℕ) :
    ∀ {rest written : Bytes} {remaining artifactRemaining : ℕ},
      copyReads maxBytes fuel rest written remaining artifactRemaining ≠ .error .fileExists := by
  induction fuel with
  | zero => intro _ _ _ _ h; cases h
  | succ fuel ih =>
    intro rest written remaining artifactRemaining h
    simp only [copyReads] at h
    repeat' split at h
    · cases h
    · cases h
    · cases h
    · cases h
    · exact ih h

theorem copyFileBounded_eq_fileExists {data : Bytes} {d : Disk}
    (h : copyFileBounded io data name d = .error .fileExists) : d.exists_ name = true := by
  simp only [copyFileBounded, bind_eq_error, require_eq_error, require_eq_ok, exists_const,
    Bool.not_eq_false', reduceCtorEq, and_false, false_or, and_true] at h
  obtain ⟨-, h | ⟨-, h | ⟨_, -, h⟩⟩⟩ := h
  · exact h
  · exact absurd h (copyReads_ne_fileExists _)
  · cases h

theorem hashFile_eq_ok {data : Bytes} {d d' : Disk} {digest : PyStr}
    (h : hashFile data d = .ok (digest, d')) : digest = sha256 data ∧ d'.bodies = d.bodies := by
  unfold hashFile at h
  split at h
  · rename_i digest' remaining hhash
    obtain ⟨rfl, rfl⟩ := Prod.mk.inj (Except.ok.inj h)
    exact ⟨sha256File_eq_ok hhash, rfl⟩
  · cases h

theorem hashFile_ne_fileExists {data : Bytes} {d : Disk} :
    hashFile data d ≠ .error .fileExists := by
  intro h
  unfold hashFile at h
  split at h
  · cases h
  · rename_i e _ _
    cases e <;> cases h

/-! ## One artifact -/

/-- A name is in use when it is one of two special ones or that of a file. -/
theorem Disk.exists_iff {d : Disk} :
    d.exists_ name = true ↔ (name = lit "." ∨ name = lit "..") ∨ name ∈ d.bodies.keys := by
  simp [Disk.exists_, Dict.has_iff_mem]

theorem Disk.exists_congr {d d' : Disk} (h : d'.bodies = d.bodies) (name : PyStr) :
    d'.exists_ name = d.exists_ name := by
  unfold Disk.exists_
  rw [h]

theorem chooseName_eq_ok {d : Disk} (h : chooseName env io e d = .ok name) :
    d.exists_ (firstName env e) = false ∧ name = firstName env e ∨
      d.exists_ (firstName env e) = true ∧ name = secondName env e := by
  simp only [chooseName, bind_eq_ok, require_eq_ok, exists_const] at h
  obtain ⟨-, h⟩ := h
  obtain rfl := Except.ok.inj h
  cases hfirst : d.exists_ (firstName env e) with
  | false => exact .inl ⟨rfl, by simp⟩
  | true => exact .inr ⟨rfl, by simp⟩

theorem chooseName_ne_fileExists {d : Disk} : chooseName env io e d ≠ .error .fileExists := by
  intro h
  simp only [chooseName, bind_eq_error, require_eq_error, reduceCtorEq, and_false, false_or] at h
  obtain ⟨_, -, h⟩ := h
  cases h

/-- An artifact that is there adds one file, under a name that is not in use, and the entry of the
index names it. -/
theorem snapshotFile_eq_ok {data : Bytes} {s s' : State}
    (h : snapshotFile env io e data s = .ok s') :
    ∃ name entry, (s.disk.exists_ (firstName env e) = false ∧ name = firstName env e ∨
        s.disk.exists_ (firstName env e) = true ∧ name = secondName env e) ∧
      s.disk.exists_ name = false ∧ s'.disk.bodies = s.disk.bodies ++ [(name, data)] ∧
      s'.entries = s.entries ++ [entry] ∧ entry.snapshot = bodiesPrefix ++ name := by
  simp only [snapshotFile, bind_eq_ok, Prod.exists] at h
  obtain ⟨actual, d, hactual, name, hname, d', hcopy, digest, d'', hdigest, h⟩ := h
  obtain rfl := Except.ok.inj h
  have hd := (hashFile_eq_ok hactual).2
  have hd'' := (hashFile_eq_ok hdigest).2
  obtain ⟨hfree, hbodies⟩ := copyFileBounded_eq_ok hcopy
  have hchosen := chooseName_eq_ok hname
  rw [Disk.exists_congr hd] at hchosen hfree
  exact ⟨name, _, hchosen, hfree, by rw [hd'', hbodies, hd], rfl, rfl⟩

/-- A copy fails for a file that exists only when both names are in use. -/
theorem snapshotFile_eq_fileExists {data : Bytes} {s : State}
    (h : snapshotFile env io e data s = .error .fileExists) :
    s.disk.exists_ (firstName env e) = true ∧ s.disk.exists_ (secondName env e) = true := by
  simp only [snapshotFile, bind_eq_error, Prod.exists] at h
  obtain h | ⟨actual, d, hactual, h | ⟨name, hname, h | ⟨d', -, h | ⟨_, _, -, h⟩⟩⟩⟩ := h
  · exact absurd h hashFile_ne_fileExists
  · exact absurd h chooseName_ne_fileExists
  · have hd := (hashFile_eq_ok hactual).2
    have hexists := copyFileBounded_eq_fileExists h
    have hchosen := chooseName_eq_ok hname
    rw [Disk.exists_congr hd] at hexists hchosen
    obtain ⟨hfirst, rfl⟩ | ⟨hfirst, rfl⟩ := hchosen
    · rw [hfirst] at hexists
      cases hexists
    · exact ⟨hfirst, hexists⟩
  · exact absurd h hashFile_ne_fileExists
  · cases h

end

/-! ## The whole loop -/

section Run

variable (env : Sources) (io : Storage) (events : List ArtifactEvent)

/-- The snapshot paths of the index. -/
def snapshotPaths (entries : List Entry) : List PyStr :=
  (entries.map (·.snapshot)).filter (!·.isEmpty)

/-- The entry of an artifact that is there names a file with the bytes of its source; the entry of
another one names no file. -/
def Listed (d : Disk) (e : ArtifactEvent) (entry : Entry) : Prop :=
  if isPresent env e then
    ∃ name data, entry.snapshot = bodiesPrefix ++ name ∧
      io.read (sourceOf env e).str = some data ∧ d.bodies.get? name = some data
  else
    entry.snapshot = []

/-- No copy meets a file that is there, the snapshot paths are pairwise distinct, and every entry
has the bytes of its artifact. -/
def CollisionFree (readBudget artifactBudget : ℕ) : Prop :=
  snapshotArtifacts env io events readBudget artifactBudget ≠ .error .fileExists ∧
    ∀ s, snapshotArtifacts env io events readBudget artifactBudget = .ok s →
      (snapshotPaths s.entries).Nodup ∧ List.Forall₂ (Listed env io s.disk) events s.entries

/-- What holds before the `i`-th artifact. -/
structure Snapshots (i : ℕ) (s : State) : Prop where
  taken : ∀ name, s.disk.exists_ name = true ↔ Taken env events i name
  nodup : s.disk.bodies.keys.Nodup
  paths : snapshotPaths s.entries = s.disk.bodies.keys.map (bodiesPrefix ++ ·)
  listed : List.Forall₂ (Listed env io s.disk) (events.take i) s.entries

end Run

section

variable {env : Sources} {io : Storage} {events : List ArtifactEvent} {e : ArtifactEvent} {i : ℕ}
  {s s' : State}

theorem snapshots_start {readBudget artifactBudget : ℕ} :
    Snapshots env io events 0 ⟨[], [], [], ⟨[], readBudget, artifactBudget⟩⟩ where
  taken name := by simp [Disk.exists_iff, Dict.keys, taken_zero]
  nodup := List.nodup_nil
  paths := rfl
  listed := .nil

/-- A file more leaves the entries as they are. -/
theorem Listed.append {d d' : Disk} {entry : Entry} {name : PyStr} {data : Bytes}
    (h : Listed env io d e entry) (hbodies : d'.bodies = d.bodies ++ [(name, data)]) :
    Listed env io d' e entry := by
  unfold Listed at h ⊢
  split at h
  · rename_i hpresent
    obtain ⟨name', data', hsnapshot, hread, hget⟩ := h
    rw [if_pos hpresent]
    refine ⟨name', data', hsnapshot, hread, ?_⟩
    rw [hbodies]
    unfold Dict.get? at hget ⊢
    rw [List.find?_append]
    obtain ⟨m, hm, hdata⟩ := Option.map_eq_some_iff.mp hget
    simp [hm, hdata]
  · rename_i hpresent
    rwa [if_neg hpresent]

/-- An artifact keeps the invariant, and it did not find both of its names in use. -/
theorem Snapshots.step (h : Snapshots env io events i s) (he : events[i]? = some e)
    (hstep : snapshotStep env io s e = .ok s') :
    Snapshots env io events (i + 1) s' ∧ (isPresent env e = true →
      ¬(Taken env events i (firstName env e) ∧ Taken env events i (secondName env e))) := by
  have htake : events.take (i + 1) = events.take i ++ [e] := by
    rw [List.take_add_one, he, Option.toList_some]
  unfold snapshotStep at hstep
  split at hstep
  · rename_i hpresent
    split at hstep
    · cases hstep
    rename_i data hread
    obtain ⟨name, entry, hname, hfree, hbodies, hentries, hsnapshot⟩ := snapshotFile_eq_ok hstep
    have hkeys : s'.disk.bodies.keys = s.disk.bodies.keys ++ [name] := by
      simp [Dict.keys, hbodies]
    have hnew : name ∉ s.disk.bodies.keys := by
      intro hmem
      rw [Disk.exists_iff.mpr (.inr hmem)] at hfree
      cases hfree
    have hnodup : s'.disk.bodies.keys.Nodup := by
      rw [hkeys]
      exact h.nodup.append (List.nodup_singleton name) (by simpa using hnew)
    refine ⟨⟨?_, hnodup, ?_, ?_⟩, ?_⟩
    · intro other
      rw [taken_succ he, ← h.taken, ← h.taken, Disk.exists_iff, Disk.exists_iff, hkeys,
        List.mem_append, List.mem_singleton]
      obtain ⟨hfirst, rfl⟩ | ⟨hfirst, rfl⟩ := hname
      · simp [hpresent, hfirst, or_assoc]
      · have hin := Disk.exists_iff.mp hfirst
        simp only [hpresent, hfirst, true_and]
        constructor
        · rintro (hspecial | hmem | rfl)
          · exact .inl (.inl hspecial)
          · exact .inl (.inr hmem)
          · exact .inr (.inr rfl)
        · rintro ((hspecial | hmem) | rfl | rfl)
          · exact .inl hspecial
          · exact .inr (.inl hmem)
          · exact hin.imp_right .inl
          · exact .inr (.inr rfl)
    · have hpath : (bodiesPrefix ++ name).isEmpty = false := rfl
      rw [hkeys, List.map_append, ← h.paths, hentries]
      simp [snapshotPaths, hsnapshot, hpath]
    · rw [htake, hentries]
      refine List.rel_append (h.listed.imp fun _ _ hlisted => hlisted.append hbodies) ?_
      refine .cons ?_ .nil
      unfold Listed
      rw [if_pos hpresent]
      exact ⟨name, data, hsnapshot, hread, Dict.get?_of_mem hnodup (by simp [hbodies])⟩
    · rintro - ⟨hfirst, hsecond⟩
      rw [← h.taken] at hfirst hsecond
      obtain ⟨hnot, -⟩ | ⟨-, rfl⟩ := hname
      · rw [hnot] at hfirst
        cases hfirst
      · rw [hfree] at hsecond
        cases hsecond
  · rename_i habsent
    obtain rfl := Except.ok.inj hstep
    refine ⟨⟨?_, h.nodup, ?_, ?_⟩, fun hpresent => absurd hpresent habsent⟩
    · intro other
      rw [taken_succ he, h.taken]
      simp [habsent]
    · rw [← h.paths]
      simp [snapshotPaths, newEntry]
    · rw [htake]
      refine List.rel_append h.listed (.cons ?_ .nil)
      unfold Listed
      rw [if_neg habsent]
      rfl

/-- A step fails for a file that exists only when both names of the artifact are in use. -/
theorem Snapshots.clash (h : Snapshots env io events i s)
    (hstep : snapshotStep env io s e = .error .fileExists) :
    isPresent env e = true ∧ Taken env events i (firstName env e) ∧
      Taken env events i (secondName env e) := by
  unfold snapshotStep at hstep
  split at hstep
  · rename_i hpresent
    split at hstep
    · cases hstep
    · obtain ⟨hfirst, hsecond⟩ := snapshotFile_eq_fileExists hstep
      exact ⟨hpresent, (h.taken _).mp hfirst, (h.taken _).mp hsecond⟩
  · cases hstep

/-- What is left of a list after its first `i` items, when that is not empty. -/
theorem drop_cons {es : List ArtifactEvent} (h : events.drop i = e :: es) :
    events[i]? = some e ∧ events.drop (i + 1) = es := by
  constructor
  · rw [← Nat.add_zero i, ← List.getElem?_drop, h]
    rfl
  · rw [← List.tail_drop, h]
    rfl

/-- A loop that ends keeps the invariant, and no artifact found both of its names in use. -/
theorem Snapshots.loop {es : List ArtifactEvent} (h : Snapshots env io events i s)
    (hes : events.drop i = es) (hloop : snapshotLoop env io s es = .ok s') :
    Snapshots env io events events.length s' ∧ ∀ j e, i ≤ j → events[j]? = some e →
      isPresent env e = true →
      ¬(Taken env events j (firstName env e) ∧ Taken env events j (secondName env e)) := by
  induction es generalizing i s with
  | nil =>
    obtain rfl := Except.ok.inj hloop
    have hlen : events.length ≤ i := List.drop_eq_nil_iff.mp hes
    refine ⟨⟨?_, h.nodup, h.paths, ?_⟩, ?_⟩
    · intro name
      rw [h.taken]
      constructor
      · intro htaken
        -- there is no artifact from the end of the list on
        cases htaken with
        | here => exact .here
        | above => exact .above
        | first _ he hpresent =>
          exact .first (List.getElem?_eq_some_iff.mp he).1 he hpresent
        | second _ he hpresent htaken =>
          exact .second (List.getElem?_eq_some_iff.mp he).1 he hpresent htaken
      · exact fun htaken => htaken.mono hlen
    · rw [List.take_length]
      simpa [List.take_of_length_le hlen] using h.listed
    · intro j e hj he
      have := (List.getElem?_eq_some_iff.mp he).1
      omega
  | cons e es ih =>
    obtain ⟨he, hes⟩ := drop_cons hes
    simp only [snapshotLoop, bind_eq_ok] at hloop
    obtain ⟨s₁, hstep, hloop⟩ := hloop
    obtain ⟨hnext, hfree⟩ := h.step he hstep
    obtain ⟨hend, hrest⟩ := ih hnext hes hloop
    refine ⟨hend, fun j e' hj he' => ?_⟩
    rcases Nat.eq_or_lt_of_le hj with rfl | hj
    · obtain rfl := Option.some.inj (he.symm.trans he')
      exact hfree
    · exact hrest j e' hj he'

/-- A loop fails for a file that exists only at an artifact that finds both of its names in use. -/
theorem Snapshots.loop_clash {es : List ArtifactEvent} (h : Snapshots env io events i s)
    (hes : events.drop i = es) (hloop : snapshotLoop env io s es = .error .fileExists) :
    ¬NoClash env events := by
  induction es generalizing i s with
  | nil => cases hloop
  | cons e es ih =>
    obtain ⟨he, hes⟩ := drop_cons hes
    simp only [snapshotLoop, bind_eq_error] at hloop
    obtain hstep | ⟨s₁, hstep, hloop⟩ := hloop
    · intro hclash
      obtain ⟨hpresent, htaken⟩ := h.clash hstep
      exact hclash i e he hpresent htaken
    · exact ih (h.step he hstep).1 hes hloop

theorem hashFile_nil {d : Disk} : hashFile [] d = .ok (sha256 [], d) := by
  simp [hashFile, sha256File, hashReads, Except.map]

theorem get?_append_self {name : PyStr} {data : Bytes} {d : Dict PyStr Bytes}
    (h : name ∉ d.keys) : Dict.get? (d ++ [(name, data)]) name = some data := by
  have hnone := Dict.get?_eq_none_iff.mpr h
  unfold Dict.get? at hnone ⊢
  rw [List.find?_append]
  simp [Option.map_eq_none_iff.mp hnone]

/-- An empty source that is there is copied, or the copy meets a file that is there. -/
theorem snapshotFile_empty :
    (∃ s', snapshotFile env ⟨fun _ => some [], fun _ => true⟩ e [] s = .ok s') ∨
      snapshotFile env ⟨fun _ => some [], fun _ => true⟩ e [] s = .error .fileExists := by
  obtain ⟨name, hname⟩ : ∃ name, chooseName env ⟨fun _ => some [], fun _ => true⟩ e s.disk =
      .ok name := ⟨_, rfl⟩
  cases hexists : s.disk.exists_ name with
  | true =>
    right
    simp [snapshotFile, hashFile_nil, Bind.bind, Except.bind, hname, copyFileBounded, require,
      hexists]
  | false =>
    left
    have hnew : name ∉ s.disk.bodies.keys := by
      intro hmem
      rw [Disk.exists_iff.mpr (.inr hmem)] at hexists
      cases hexists
    simp [snapshotFile, hashFile_nil, Bind.bind, Except.bind, hname, copyFileBounded, require,
      hexists, copyReads, get?_append_self hnew, pure, Except.pure]

/-- Empty sources and no limit on names: a loop ends or meets a file that is there. -/
theorem snapshotLoop_empty {es : List ArtifactEvent} :
    (∃ s', snapshotLoop env ⟨fun _ => some [], fun _ => true⟩ s es = .ok s') ∨
      snapshotLoop env ⟨fun _ => some [], fun _ => true⟩ s es = .error .fileExists := by
  induction es generalizing s with
  | nil => exact .inl ⟨s, rfl⟩
  | cons e es ih =>
    have hstep : (∃ s', snapshotStep env ⟨fun _ => some [], fun _ => true⟩ s e = .ok s') ∨
        snapshotStep env ⟨fun _ => some [], fun _ => true⟩ s e = .error .fileExists := by
      unfold snapshotStep
      split
      · exact snapshotFile_empty
      · exact .inl ⟨_, rfl⟩
    obtain ⟨s₁, hstep⟩ | hstep := hstep
    · simp only [snapshotLoop, hstep]
      exact ih
    · simp only [snapshotLoop, hstep]
      exact .inr rfl

end

section

variable (env : Sources) (events : List ArtifactEvent)

/-- The names of the snapshots : for every content of the files and all budgets, no copy meets a
file that is there, the snapshot paths are distinct and every snapshot has the bytes of its
artifact, exactly when no artifact finds both of its names in use. A call that returns met no such
artifact. -/
theorem snapshots_collisionFree_iff :
    ((∀ io readBudget artifactBudget,
        CollisionFree env io events readBudget artifactBudget) ↔ NoClash env events) ∧
      ∀ io readBudget artifactBudget s,
        snapshotArtifacts env io events readBudget artifactBudget = .ok s → NoClash env events := by
  have hreturn : ∀ io readBudget artifactBudget s,
      snapshotArtifacts env io events readBudget artifactBudget = .ok s → NoClash env events :=
    fun io readBudget artifactBudget s h i e he =>
      (snapshots_start.loop List.drop_zero h).2 i e (Nat.zero_le i) he
  refine ⟨⟨fun h => ?_, fun hclash io readBudget artifactBudget => ⟨fun h => ?_, fun s h => ?_⟩⟩,
    hreturn⟩
  · obtain ⟨s, hs⟩ | hs := snapshotLoop_empty
    · exact hreturn _ 0 0 s hs
    · exact absurd hs (h _ 0 0).1
  · exact snapshots_start.loop_clash List.drop_zero h hclash
  · obtain ⟨hend, -⟩ := snapshots_start.loop List.drop_zero h
    refine ⟨?_, by simpa using hend.listed⟩
    rw [hend.paths]
    exact hend.nodup.map (List.append_right_injective bodiesPrefix)

end

/-! ## Three artifacts -/

/-- Letters and digits, on a system where every path is a file. -/
def asciiSources : Sources where
  isAlnum c := match c with
    | .scalar c => c.isAlphanum
    | _ => false
  printable _ := true
  flavour := .posix
  isFile _ := true

/-- An artifact of the output `x`, with the digest of an empty file. -/
def artifactOf (index : ℕ) (path : String) : ArtifactEvent :=
  ⟨index, .null, [(lit "path", .str (lit path)),
    (lit "sha256",
      .str (lit "e3b0c44298fc1c149afbf4c8996fb92427ae41e4649b934ca495991b7852b855")),
    (lit "output", .str (lit "x"))]⟩

/-- Two sources named `a`, and one named as the fallback of the second of them. -/
def sharedNames : List ArtifactEvent :=
  [artifactOf 1 "/p/a", artifactOf 2 "/q/3_a", artifactOf 3 "/r/a"]

/-- The third artifact finds `x__a` and `x__3_a` in use. -/
theorem sharedNames_collide :
    ¬CollisionFree asciiSources ⟨fun _ => some [], fun _ => true⟩ sharedNames 0 0 := by
  intro h
  exact h.1 rfl

end ArtifactSnapshot

end Icode
