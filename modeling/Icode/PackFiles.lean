import Icode.JsonLoads
import Icode.PurePath
import Icode.Sha256

/-!
# The files of a package

A package is a directory tree with files, links and special files; the names of a
directory are distinct and sorted, as `os.scandir` and the sort behind it give them
(`Pack`). The operations on it succeed and do not change it.

`memberPath` (`_package_member_path`) takes the relative path of a manifest apart, and
`walkPackageEntries` (`_walk_package_entries`) lists everything that is no directory. They
agree on the files : a walk that is not cut short lists every file (`mem_walk_of_fileAt`),
and the path of a file is read back from its text (`splitOn_relPath`).
-/

namespace Icode

open Py

/-! ## Trees -/

/-- What stands under a name. -/
inductive PackNode where
  | file (content : Bytes)
  | directory (entries : List (PyStr × PackNode))
  | link
  | special

/-- The entries of a directory, by their names. -/
abbrev Directory := Dict PyStr PackNode

/-- A name of a directory entry. -/
def isEntryName (name : PyStr) : Bool :=
  !name.isEmpty && name != lit "." && name != lit ".." && !name.contains (.scalar '/')

mutual

/-- The names are sorted, also in the directories below. -/
def PackNode.Sorted : PackNode → Prop
  | .directory es => (Dict.keys es).Pairwise (fun a b => strLe a b = true ∧ a ≠ b) ∧
      (∀ name ∈ Dict.keys es, isEntryName name = true) ∧ EntriesSorted es
  | _ => True

def EntriesSorted : List (PyStr × PackNode) → Prop
  | [] => True
  | (_, node) :: es => node.Sorted ∧ EntriesSorted es

end

/-- A package directory. -/
structure Pack where
  entries : Directory
  sorted : (PackNode.directory entries).Sorted

/-- What stands at a path below the directory. -/
def nodeAt (es : Directory) : List PyStr → Option PackNode
  | [] => none
  | [name] => Dict.get? es name
  | name :: names =>
    match Dict.get? es name with
    | some (.directory sub) => nodeAt sub names
    | _ => none

/-- The content of the regular file at a path. -/
def fileAt (es : Directory) (path : List PyStr) : Option Bytes :=
  match nodeAt es path with
  | some (.file content) => some content
  | _ => none

/-- `path.is_file()`. -/
def isFile (es : Directory) (path : List PyStr) : Bool :=
  (fileAt es path).isSome

/-! ## Paths of a manifest -/

/-- The loop of `lstat` calls, which ends at a missing name : no component is a link, and none but
the last is anything but a directory. -/
def lstatAll (es : Directory) : List PyStr → Bool
  | [] => true
  | name :: names =>
    match Dict.get? es name with
    | none => true
    | some .link => false
    | some (.directory sub) => lstatAll sub names
    | some (.file _) => names.isEmpty
    | some .special => names.isEmpty

/-- `_package_member_path`, with the parts of the path; a text with a lone surrogate is no path of
the file system. -/
def memberPath (es : Directory) (relative : PyStr) : Option (List PyStr) :=
  let parts := splitOn (.scalar '/') relative
  let windowsPath := PurePath.parse .windows relative
  if relative.isEmpty || relative.contains (.scalar (Char.ofNat 0)) ||
      relative.contains (.scalar '\\') || !relative.all isScalar then none
  else if (PurePath.parse .posix relative).isAbsolute || windowsPath.isAbsolute ||
      !windowsPath.drive.isEmpty || parts.any (fun p => p.isEmpty || p == lit "." || p == lit "..") then
    none
  else if lstatAll es parts then some parts
  else none

/-- `path.relative_to(pack).as_posix()`. -/
def relPath (path : List PyStr) : PyStr :=
  joinWith (.scalar '/') path

theorem eq_splitOn_of_memberPath {es : Directory} {relative : PyStr} {parts : List PyStr}
    (h : memberPath es relative = some parts) : parts = splitOn (.scalar '/') relative := by
  unfold memberPath at h
  dsimp only at h
  split_ifs at h
  exact (Option.some.inj h).symm

theorem sorted_of_mem {es : List (PyStr × PackNode)} (h : EntriesSorted es) {name : PyStr}
    {node : PackNode} (hmem : (name, node) ∈ es) : node.Sorted := by
  induction es with
  | nil => simp at hmem
  | cons e es ih =>
    obtain ⟨name', node'⟩ := e
    rcases List.mem_cons.mp hmem with heq | hmem
    · obtain ⟨-, rfl⟩ := Prod.mk.inj heq
      exact h.1
    · exact ih h.2 hmem

/-- The components of a path that leads to something are names. -/
theorem isEntryName_of_nodeAt {node : PackNode} : ∀ {path : List PyStr} {es : Directory},
    (PackNode.directory es).Sorted → nodeAt es path = some node →
      ∀ name ∈ path, isEntryName name = true := by
  intro path
  induction path with
  | nil => simp
  | cons name names ih =>
    intro es hs h
    have hname : ∀ {v : PackNode}, Dict.get? es name = some v → isEntryName name = true :=
      fun hget => hs.2.1 name (List.mem_map_of_mem (Dict.mem_of_get? hget))
    cases names with
    | nil => simpa using hname h
    | cons next names =>
      unfold nodeAt at h
      split at h
      · next sub hget =>
        exact List.forall_mem_cons.mpr
          ⟨hname hget, ih (sorted_of_mem hs.2.2 (Dict.mem_of_get? hget)) h⟩
      · simp at h

/-- The path of a file is read back from its text. -/
theorem splitOn_relPath {es : Directory} (hs : (PackNode.directory es).Sorted) {path : List PyStr}
    {content : Bytes} (h : fileAt es path = some content) :
    splitOn (.scalar '/') (relPath path) = path := by
  refine splitOn_joinWith ?_ fun name hname => ?_
  · rintro rfl
    simp [fileAt, nodeAt] at h
  · have hnode : ∃ node, nodeAt es path = some node := by
      cases hn : nodeAt es path with
      | none => simp [fileAt, hn] at h
      | some node => exact ⟨node, rfl⟩
    obtain ⟨node, hnode⟩ := hnode
    have := isEntryName_of_nodeAt hs hnode name hname
    simp only [isEntryName, Bool.and_eq_true, Bool.not_eq_true'] at this
    simpa using this.2

/-! ## The walk -/

/-- `_MAX_PACKAGE_ENTRY_COUNT` -/
def maxPackageEntryCount : ℕ := 100000

inductive EntryKind where
  | link
  | file
  | special
  deriving DecidableEq

/-- What the entry itself yields. -/
def PackNode.kind? : PackNode → Option EntryKind
  | .file _ => some .file
  | .directory _ => none
  | .link => some .link
  | .special => some .special

/-- The entries of one directory that are no directories. -/
def yieldsOf (path : List PyStr) (es : List (PyStr × PackNode)) : List (List PyStr × EntryKind) :=
  es.filterMap fun (name, node) => node.kind?.map fun kind => (path ++ [name], kind)

mutual

/-- A directory and everything below it, after `count` entries; no count is left when the limit is
exceeded. -/
def walkNode (path : List PyStr) (count : ℕ) :
    PackNode → List (List PyStr × EntryKind) × Option ℕ
  | .directory es =>
    if maxPackageEntryCount < count + es.length then ([], none)
    else
      let (below, rest) := walkEntries path (count + es.length) es
      (yieldsOf path es ++ below, rest)
  | _ => ([], some count)

/-- The directories among the entries. -/
def walkEntries (path : List PyStr) (count : ℕ) :
    List (PyStr × PackNode) → List (List PyStr × EntryKind) × Option ℕ
  | [] => ([], some count)
  | (name, node) :: es =>
    match walkNode (path ++ [name]) count node with
    | (below, none) => (below, none)
    | (below, some count) =>
      let (behind, rest) := walkEntries path count es
      (below ++ behind, rest)

end

/-- `_walk_package_entries`; `_PackageEntryLimitExceeded` ends the list early. -/
def walkPackageEntries (es : Directory) : List (List PyStr × EntryKind) × Bool :=
  let (entries, rest) := walkNode [] 0 (.directory es)
  (entries, rest.isSome)

theorem mem_walkEntries {path : List PyStr} {name : PyStr} {node : PackNode}
    {es : List (PyStr × PackNode)} (hmem : (name, node) ∈ es) :
    ∀ {count rest : ℕ} {below : List (List PyStr × EntryKind)},
      walkEntries path count es = (below, some rest) →
        ∃ k k' ys, walkNode (path ++ [name]) k node = (ys, some k') ∧ ys ⊆ below := by
  induction es with
  | nil => simp at hmem
  | cons e es ih =>
    obtain ⟨name', node'⟩ := e
    intro count rest below h
    unfold walkEntries at h
    split at h
    · simp at h
    · next ys k hnode =>
      obtain ⟨hbelow, hrest⟩ := Prod.mk.inj h
      rcases List.mem_cons.mp hmem with heq | hmem
      · obtain ⟨rfl, rfl⟩ := Prod.mk.inj heq
        exact ⟨count, k, ys, hnode, hbelow ▸ List.subset_append_left _ _⟩
      · obtain ⟨a, b, zs, hwalk, hsub⟩ := ih hmem (Prod.ext rfl hrest)
        exact ⟨a, b, zs, hwalk, fun x hx => hbelow ▸ List.mem_append_right _ (hsub hx)⟩

/-- A walk that is not cut short comes to every file below. -/
theorem mem_walkNode_of_fileAt {content : Bytes} : ∀ {path prefixed : List PyStr} {es : Directory}
    {count rest : ℕ} {ys : List (List PyStr × EntryKind)}, fileAt es path = some content →
      walkNode prefixed count (.directory es) = (ys, some rest) → (prefixed ++ path, .file) ∈ ys := by
  intro path
  induction path with
  | nil => intro _ _ _ _ _ hfile; simp [fileAt, nodeAt] at hfile
  | cons name names ih =>
    intro prefixed es count rest ys hfile hwalk
    unfold walkNode at hwalk
    split at hwalk
    · simp at hwalk
    rcases hbelow : walkEntries prefixed (count + es.length) es with ⟨below, k⟩
    rw [hbelow] at hwalk
    obtain ⟨rfl, rfl⟩ := Prod.mk.inj hwalk
    cases names with
    | nil =>
      have hget : Dict.get? es name = some (.file content) := by
        unfold fileAt nodeAt at hfile
        split at hfile
        · next hget => rw [hget, Option.some.inj hfile]
        · simp at hfile
      exact List.mem_append_left _ (List.mem_filterMap.mpr ⟨_, Dict.mem_of_get? hget, rfl⟩)
    | cons next names =>
      have hsub : ∃ sub, Dict.get? es name = some (.directory sub) ∧
          fileAt sub (next :: names) = some content := by
        unfold fileAt nodeAt at hfile
        cases hget : Dict.get? es name with
        | none => simp [hget] at hfile
        | some node =>
          cases node with
          | directory sub =>
            simp only [hget] at hfile
            exact ⟨sub, rfl, hfile⟩
          | _ => simp [hget] at hfile
      obtain ⟨sub, hget, hfile⟩ := hsub
      obtain ⟨k, k', zs, hnode, hzs⟩ := mem_walkEntries (Dict.mem_of_get? hget) hbelow
      have hmem := ih hfile hnode
      rw [List.append_assoc, List.singleton_append] at hmem
      exact List.mem_append_right _ (hzs hmem)

/-- A walk that is not cut short lists every file. -/
theorem mem_walk_of_fileAt {es : Directory} {path : List PyStr} {content : Bytes}
    (hfile : fileAt es path = some content) (hwalk : (walkPackageEntries es).2 = true) :
    (path, .file) ∈ (walkPackageEntries es).1 := by
  unfold walkPackageEntries at hwalk ⊢
  obtain ⟨rest, hrest⟩ := Option.isSome_iff_exists.mp hwalk
  have hnode : walkNode [] 0 (.directory es) = ((walkNode [] 0 (.directory es)).1, some rest) :=
    Prod.ext rfl hrest
  exact mem_walkNode_of_fileAt hfile hnode

/-! ## Reading with a limit -/

/-- `_SHA256_FILE_READ_SIZE` -/
def sha256FileReadSize : ℕ := 1024 * 1024

/-- What `sha256_file` raises. -/
inductive HashError where
  /-- `_FileSizeLimitExceeded` -/
  | fileSize
  /-- `_HashReadBudgetExceeded` -/
  | readBudget
  deriving DecidableEq

/-- The loop of `sha256_file` over the rest of a file, after `total` bytes, with what is left of the
budget; `fuel` bounds the number of reads. -/
def hashReads (maxBytes : ℕ) : ℕ → Bytes → ℕ → ℕ → Except HashError Unit × ℕ
  | 0, _, _, remaining => (.ok (), remaining)
  | fuel + 1, rest, total, remaining =>
    let readSize := min (min sha256FileReadSize (maxBytes - total + 1)) (remaining + 1)
    let chunk := rest.take readSize
    if chunk.isEmpty then (.ok (), remaining)
    else if maxBytes < total + chunk.length then (.error .fileSize, remaining)
    else if remaining < chunk.length then (.error .readBudget, remaining)
    else
      hashReads maxBytes fuel (rest.drop readSize) (total + chunk.length) (remaining - chunk.length)

/-- `sha256_file(path, max_bytes=…, read_budget=…)`, with what is left of the budget. -/
def sha256File (maxBytes : ℕ) (content : Bytes) (remaining : ℕ) : Except HashError PyStr × ℕ :=
  let (result, remaining) := hashReads maxBytes (content.length + 1) content 0 remaining
  (result.map fun _ => sha256 content, remaining)

theorem sha256File_eq_ok {maxBytes remaining rest : ℕ} {content : Bytes} {digest : PyStr}
    (h : sha256File maxBytes content remaining = (.ok digest, rest)) : digest = sha256 content := by
  unfold sha256File at h
  generalize hashReads maxBytes (content.length + 1) content 0 remaining = reads at h
  obtain ⟨result, left⟩ := reads
  obtain ⟨hdigest, -⟩ := Prod.mk.inj h
  cases result with
  | error e => simp [Except.map] at hdigest
  | ok u => exact (Except.ok.inj hdigest).symm

end Icode
