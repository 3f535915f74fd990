import Icode.GitTree
import Icode.WorkspaceSnapshot

/-!
# The git tree of a worktree

`worktreeTreeOid` computes the id that git gives to the tree of the files, without git. A listing is
a directory tree with the names of each directory in some order; the order is of no consequence
(`hashWorktreeTree_of_rearranged`), and the id is the one of git's format for the projected tree
(`hashWorktreeTree_eq_ok`).

The projection takes a file for executable when anyone may execute it, git when the owner may. So
the id is the one git gives to the worktree exactly when these agree for every file
(`worktree_tree_identity`).
-/

namespace Icode

open Py Git

namespace WorktreeTree

/-! ## Listings -/

/-- The entries of a directory, as they are scanned. -/
abbrev Children := List (Bytes × WorkNode)

mutual

/-- The names in a directory are distinct, also below it. -/
def NodeDistinct : WorkNode → Prop
  | .directory es => (es.map Prod.fst).Nodup ∧ EntriesDistinct es
  | _ => True

def EntriesDistinct : Children → Prop
  | [] => True
  | (_, node) :: es => NodeDistinct node ∧ EntriesDistinct es

end

/-- A worktree. -/
structure Listing where
  children : Children
  distinct : NodeDistinct (.directory children)

/-- The entries of some directories were scanned in another order. -/
inductive Rearranged : Children → Children → Prop
  | nil : Rearranged [] []
  | cons {child : Bytes × WorkNode} {es es' : Children} (h : Rearranged es es') :
      Rearranged (child :: es) (child :: es')
  | directory {name : Bytes} {sub sub' es es' : Children} (hsub : Rearranged sub sub')
      (h : Rearranged es es') :
      Rearranged ((name, .directory sub) :: es) ((name, .directory sub') :: es')
  | swap {a b : Bytes × WorkNode} {es : Children} : Rearranged (a :: b :: es) (b :: a :: es)
  | trans {es es' es'' : Children} (h : Rearranged es es') (h' : Rearranged es' es'') :
      Rearranged es es''

/-! ## The id -/

/-- The reasons of `WorktreeTreeUnavailable`, for a worktree that does not change. -/
inductive TreeError where
  | worktreeTooDeep
  | nestedGitMetadata
  | invalidGitPath
  | worktreeTooLarge
  | unsupportedFilesystemEntry
  deriving DecidableEq

/-- `entry_counter` and `byte_counter` -/
structure Counters where
  entries : ℕ
  bytes : ℕ

/-- `_MAX_GIT_TREE_ENTRIES` -/
def maxGitTreeEntries : ℕ := 250000

/-- `_MAX_GIT_TREE_DEPTH` -/
def maxGitTreeDepth : ℕ := 128

/-- `_MAX_GIT_TREE_BYTES` -/
def maxGitTreeBytes : ℕ := 256 * 1024 * 1024

def dotGit : Bytes :=
  encodePass (lit ".git")

/-- What `_hash_worktree_tree` does for a directory: its id, unless it is left out. -/
abbrev TreeHash := Children → Counters → Except TreeError (Option Bytes × Counters)

section Code

variable (format : ObjectFormat)

/-- The body of the loop for a name that is part of the tree. -/
def hashNode (subtree : TreeHash) (name : Bytes) (node : WorkNode) (c : Counters) :
    Except TreeError (Option TreeEntry × Counters) :=
  match node with
  | .directory es => do
    let (oid, c) ← subtree es c
    pure (oid.map fun oid => ⟨name, .tree, oid⟩, c)
  | .file permissions content =>
    let bytes := c.bytes + content.length
    if maxGitTreeBytes < bytes then .error .worktreeTooLarge
    else
      let gitMode := if anyExecutable permissions then .executable else .regular
      .ok (some ⟨name, .file gitMode, blobId format content⟩, { c with bytes })
  | .symlink target => .ok (some ⟨name, .file .symlink, blobId format target⟩, c)
  | .special => .error .unsupportedFilesystemEntry

/-- The body of the loop. -/
def hashChild (subtree : TreeHash) (isRoot : Bool) (child : Bytes × WorkNode) (c : Counters) :
    Except TreeError (Option TreeEntry × Counters) :=
  let name := child.1
  if isRoot && name == dotGit then .ok (none, c)
  else if name == dotGit then .error .nestedGitMetadata
  else if name.isEmpty || name.contains 0x2F || name.contains 0 then .error .invalidGitPath
  else if maxGitTreeEntries < c.entries + 1 then .error .worktreeTooLarge
  else hashNode format subtree name child.2 { c with entries := c.entries + 1 }

/-- The loop, with `entries`. -/
def hashChildren (subtree : TreeHash) (isRoot : Bool) :
    Children → Counters → Except TreeError (List TreeEntry × Counters)
  | [], c => .ok ([], c)
  | child :: children, c => do
    let (entry, c) ← hashChild format subtree isRoot child c
    let (entries, c) ← hashChildren subtree isRoot children c
    pure (entry.toList ++ entries, c)

/-- `os.fsencode(child.name)`, as the sort compares it. -/
def nameKey (child : Bytes × WorkNode) : List ℕ :=
  child.1.map UInt8.toNat

/-- `entry[0] + (b"/" if entry[1] else b"")` -/
def entryKey (e : TreeEntry) : List ℕ :=
  sortKey e.name e.isDirectory

/-- `_hash_worktree_tree`; `levels` is how deep the tree may still be. -/
def hashWorktreeTree : Bool → ℕ → TreeHash
  | _, 0, _, _ => .error .worktreeTooDeep
  | isRoot, levels + 1, children, c => do
    let children := children.insertionSort fun a b => nameKey a ≤ nameKey b
    let (entries, c) ← hashChildren format (hashWorktreeTree false levels) isRoot children c
    let entries := entries.insertionSort fun a b => entryKey a ≤ entryKey b
    if entries.isEmpty && !isRoot then pure (none, c)
    else pure (some (format.digest (objectBytes "tree" (treeBody entries))), c)

/-- `worktree_git_tree_oid`, before `hex()`. -/
def worktreeTreeOid (children : Children) : Except TreeError (Option Bytes) :=
  (hashWorktreeTree format true (maxGitTreeDepth + 1) children ⟨0, 0⟩).map Prod.fst

end Code

/-! ## The projected tree -/

/-- `S_IXUSR`, which is what git looks at. -/
def ownerExecutable (permissions : ℕ) : Bool :=
  permissions &&& 0o100 != 0

section Projection

variable (format : ObjectFormat) (executable : ℕ → Bool)

mutual

/-- What stands in the tree, when it is part of it: a directory without a file is not. -/
def projectNode : WorkNode → Option GitNode
  | .directory es =>
    let es := projectEntries es
    if es.isEmpty then none else some (.tree es)
  | .file permissions content =>
    some (.blob (if executable permissions then .executable else .regular)
      (blobId format content))
  | .symlink target => some (.blob .symlink (blobId format target))
  | .special => none

def projectEntries : Children → List (Bytes × GitNode)
  | [] => []
  | (name, node) :: es => ((projectNode node).map fun g => (name, g)).toList ++ projectEntries es

end

/-- The tree of a worktree, which does not hold the directory of git itself. -/
def project (children : Children) : List (Bytes × GitNode) :=
  projectEntries format executable (children.filter fun child => child.1 != dotGit)

end Projection

mutual

/-- The owner may execute every file that anyone may execute. -/
def NodeAgrees : WorkNode → Prop
  | .directory es => EntriesAgree es
  | .file permissions _ => anyExecutable permissions = ownerExecutable permissions
  | _ => True

def EntriesAgree : Children → Prop
  | [] => True
  | (_, node) :: es => NodeAgrees node ∧ EntriesAgree es

end

/-- The owner may execute every file of the worktree that anyone may execute. -/
def OwnerExecutes (children : Children) : Prop :=
  EntriesAgree (children.filter fun child => child.1 != dotGit)

/-! ## Scanning in another order -/

section Order

variable {format : ObjectFormat} {es es' : Children}

theorem entriesDistinct_iff : EntriesDistinct es ↔ ∀ child ∈ es, NodeDistinct child.2 := by
  induction es with
  | nil => simp [EntriesDistinct]
  | cons child es ih => rw [EntriesDistinct, ih, List.forall_mem_cons]

theorem Rearranged.names (h : Rearranged es es') :
    (es.map Prod.fst).Perm (es'.map Prod.fst) := by
  induction h with
  | nil => exact .nil
  | cons _ ih => exact ih.cons _
  | directory _ _ _ ih => exact ih.cons _
  | swap => exact .swap _ _ _
  | trans _ _ ih ih' => exact ih.trans ih'

theorem Rearranged.entriesDistinct (h : Rearranged es es') (hd : EntriesDistinct es) :
    EntriesDistinct es' := by
  induction h with
  | nil => exact hd
  | cons _ ih => exact ⟨hd.1, ih hd.2⟩
  | directory hsub _ ihsub ih => exact ⟨⟨hsub.names.nodup_iff.mp hd.1.1, ihsub hd.1.2⟩, ih hd.2⟩
  | swap => exact ⟨hd.2.1, hd.1, hd.2.2⟩
  | trans _ _ ih ih' => exact ih' (ih hd)

theorem Rearranged.nodeDistinct (h : Rearranged es es') (hd : NodeDistinct (.directory es)) :
    NodeDistinct (.directory es') :=
  ⟨h.names.nodup_iff.mp hd.1, h.entriesDistinct hd.2⟩

/-- The loop is determined by what its body does for each entry. -/
theorem hashChildren_congr {subtree : TreeHash} {isRoot : Bool}
    (h : es.map (hashChild format subtree isRoot) = es'.map (hashChild format subtree isRoot)) :
    hashChildren format subtree isRoot es = hashChildren format subtree isRoot es' := by
  induction es generalizing es' with
  | nil =>
    cases es' with
    | nil => rfl
    | cons child es' => cases h
  | cons child es ih =>
    cases es' with
    | nil => cases h
    | cons child' es' =>
      obtain ⟨hchild, hrest⟩ := List.cons.inj h
      funext c
      rw [hashChildren, hashChildren, hchild, ih hrest]

theorem nameKey_inj {a b : Bytes × WorkNode} (h : nameKey a = nameKey b) : a.1 = b.1 :=
  List.map_injective_iff.mpr (fun _ _ => UInt8.toNat_inj.mp) h

/-- The entries with what the body of the loop does for them. -/
def steps (format : ObjectFormat) (subtree : TreeHash) (isRoot : Bool) (es : Children) :
    List (List ℕ × (Counters → Except TreeError (Option TreeEntry × Counters))) :=
  es.map fun child => (nameKey child, hashChild format subtree isRoot child)

/-- The sort brings the entries into one order. -/
theorem sort_of_steps_perm {subtree : TreeHash} {isRoot : Bool} (hd : (es.map Prod.fst).Nodup)
    (h : (steps format subtree isRoot es).Perm (steps format subtree isRoot es')) :
    (es.insertionSort fun a b => nameKey a ≤ nameKey b).map (hashChild format subtree isRoot) =
      (es'.insertionSort fun a b => nameKey a ≤ nameKey b).map
        (hashChild format subtree isRoot) := by
  have hsort : ∀ cs : Children,
      (cs.insertionSort fun a b => nameKey a ≤ nameKey b).map (hashChild format subtree isRoot) =
        ((steps format subtree isRoot cs).insertionSort fun a b => a.1 ≤ b.1).map Prod.snd := by
    intro cs
    have hmap := List.map_insertionSort (fun a b => nameKey a ≤ nameKey b)
      (fun a b : List ℕ × (Counters → Except TreeError (Option TreeEntry × Counters)) =>
        a.1 ≤ b.1)
      (fun child => (nameKey child, hashChild format subtree isRoot child)) cs
      (fun _ _ _ _ => Iff.rfl)
    rw [steps, ← hmap, List.map_map]
    rfl
  rw [hsort, hsort, List.insertionSort_eq_of_perm Prod.fst ?_ h]
  intro x hx y hy hxy
  obtain ⟨a, ha, rfl⟩ := List.mem_map.mp hx
  obtain ⟨b, hb, rfl⟩ := List.mem_map.mp hy
  rw [List.inj_on_of_nodup_map hd ha hb (nameKey_inj hxy)]

theorem hashWorktreeTree_of_steps (isRoot : Bool) (hd : (es.map Prod.fst).Nodup)
    (h : ∀ (isRoot : Bool) (levels : ℕ),
      (steps format (hashWorktreeTree format false levels) isRoot es).Perm
        (steps format (hashWorktreeTree format false levels) isRoot es')) (levels : ℕ) :
    hashWorktreeTree format isRoot levels es = hashWorktreeTree format isRoot levels es' := by
  cases levels with
  | zero => rfl
  | succ levels =>
    funext c
    rw [hashWorktreeTree, hashWorktreeTree,
      hashChildren_congr (sort_of_steps_perm hd (h isRoot levels))]

/-- The same is done for the entries, in another order. -/
theorem Rearranged.steps_perm (h : Rearranged es es') (hd : EntriesDistinct es) (isRoot : Bool)
    (levels : ℕ) :
    (steps format (hashWorktreeTree format false levels) isRoot es).Perm
      (steps format (hashWorktreeTree format false levels) isRoot es') := by
  induction h generalizing isRoot levels with
  | nil => exact .nil
  | cons _ ih => exact (ih hd.2 isRoot levels).cons _
  | @directory name sub sub' es es' hsub _ ihsub ih =>
    have hhash : hashWorktreeTree format false levels sub =
        hashWorktreeTree format false levels sub' :=
      hashWorktreeTree_of_steps false hd.1.1 (ihsub hd.1.2) levels
    have hchild : hashChild format (hashWorktreeTree format false levels) isRoot
          (name, .directory sub) =
        hashChild format (hashWorktreeTree format false levels) isRoot (name, .directory sub') := by
      funext c
      simp only [hashChild, hashNode, hhash]
    simp only [steps, List.map_cons] at ih ⊢
    rw [hchild]
    exact (ih hd.2 isRoot levels).cons _
  | swap => exact .swap _ _ _
  | trans h _ ih ih' =>
    exact (ih hd isRoot levels).trans (ih' (h.entriesDistinct hd) isRoot levels)

/-- The result, with its errors, does not depend on the order of the entries. -/
theorem hashWorktreeTree_of_rearranged (h : Rearranged es es')
    (hd : NodeDistinct (.directory es)) (isRoot : Bool) (levels : ℕ) :
    hashWorktreeTree format isRoot levels es = hashWorktreeTree format isRoot levels es' :=
  hashWorktreeTree_of_steps isRoot hd.1 (h.steps_perm hd.2) levels

end Order

/-! ## The id is that of the projected tree -/

section Format

variable {format : ObjectFormat} {executable : ℕ → Bool} {es : Children}

/-- The entries of a directory that are part of its tree. -/
def partOf (isRoot : Bool) (es : Children) : Children :=
  es.filter fun child => !(isRoot && child.1 == dotGit)

theorem partOf_false : partOf false es = es := by
  simp [partOf]

theorem project_eq :
    project format executable es = projectEntries format executable (partOf true es) :=
  rfl

/-- The entry of what stands under a name. -/
def entryOf (format : ObjectFormat) (child : Bytes × WorkNode) : Option TreeEntry :=
  (projectNode format anyExecutable child.2).map fun g => ⟨child.1, g.mode, g.id format⟩

theorem entriesOf_projectEntries :
    entriesOf format (projectEntries format anyExecutable es) = es.filterMap (entryOf format) := by
  induction es with
  | nil => rfl
  | cons child es ih =>
    obtain ⟨name, node⟩ := child
    rw [projectEntries, entriesOf_eq, List.map_append, ← entriesOf_eq (projectEntries _ _ es), ih]
    cases hnode : projectNode format anyExecutable node <;> simp [entryOf, hnode]

theorem mem_projectEntries {e : Bytes × GitNode} :
    e ∈ projectEntries format executable es ↔
      ∃ child ∈ es, projectNode format executable child.2 = some e.2 ∧ child.1 = e.1 := by
  induction es with
  | nil => simp [projectEntries]
  | cons child es ih =>
    obtain ⟨name, node⟩ := child
    obtain ⟨name', g⟩ := e
    simp only [projectEntries, List.mem_append, Option.mem_toList,
      Option.map_eq_some_iff, Prod.mk.injEq, ih, List.exists_mem_cons_iff]
    constructor
    · rintro (⟨g', hg', rfl, rfl⟩ | h)
      · exact .inl ⟨hg', rfl⟩
      · exact .inr h
    · rintro (⟨hg, rfl⟩ | h)
      · exact .inl ⟨g, hg, rfl, rfl⟩
      · exact .inr h

/-- What the hash of a directory says: the id is that of the projected tree, and every projected
tree has names and ids. -/
def Hashes (format : ObjectFormat) (subtree : TreeHash) (es : Children) : Prop :=
  ∀ c o c', subtree es c = .ok (o, c') →
    o = (projectNode format anyExecutable (.directory es)).map (·.id format) ∧
      ∀ executable g, projectNode format executable (.directory es) = some g → g.Wf format

theorem mode_projectNode_directory {g : GitNode}
    (h : projectNode format executable (.directory es) = some g) : g.mode = .tree := by
  rw [projectNode] at h
  split_ifs at h
  obtain rfl := Option.some.inj h
  rfl

theorem hashNode_eq_ok {subtree : TreeHash} {name : Bytes} {node : WorkNode}
    (hsub : ∀ es, node = .directory es → Hashes format subtree es) {c c' : Counters}
    {entry : Option TreeEntry} (h : hashNode format subtree name node c = .ok (entry, c')) :
    entry = entryOf format (name, node) ∧
      ∀ executable g, projectNode format executable node = some g → g.Wf format := by
  cases node with
  | directory es =>
    simp only [hashNode, bind_eq_ok, Prod.exists] at h
    obtain ⟨o, c₁, hhash, h⟩ := h
    obtain ⟨rfl, rfl⟩ := Prod.mk.inj (Except.ok.inj h)
    obtain ⟨rfl, hwf⟩ := hsub es rfl c o c₁ hhash
    refine ⟨?_, hwf⟩
    rw [entryOf, Option.map_map]
    cases hg : projectNode format anyExecutable (.directory es) with
    | none => rfl
    | some g => simp [mode_projectNode_directory hg]
  | file permissions content =>
    simp only [hashNode] at h
    split_ifs at h
    all_goals
      obtain ⟨rfl, -⟩ := Prod.mk.inj (Except.ok.inj h)
      refine ⟨by simp_all [entryOf, projectNode, GitNode.mode, GitNode.id], ?_⟩
      intro executable g hg
      obtain rfl := Option.some.inj hg
      exact format.length_digest _
  | symlink target =>
    obtain ⟨rfl, -⟩ := Prod.mk.inj (Except.ok.inj h)
    refine ⟨by simp [entryOf, projectNode, GitNode.mode, GitNode.id], ?_⟩
    intro executable g hg
    obtain rfl := Option.some.inj hg
    exact format.length_digest _
  | special => cases h

/-- The name of an entry is one, or the entry is left out. -/
theorem hashChild_eq_ok {subtree : TreeHash} {isRoot : Bool} {child : Bytes × WorkNode}
    (hsub : ∀ es, child.2 = .directory es → Hashes format subtree es) {c c' : Counters}
    {entry : Option TreeEntry}
    (h : hashChild format subtree isRoot child c = .ok (entry, c')) :
    (isRoot && child.1 == dotGit) = true ∧ entry = none ∨
      (isRoot && child.1 == dotGit) = false ∧ entry = entryOf format child ∧ IsName child.1 ∧
        ∀ executable g, projectNode format executable child.2 = some g → g.Wf format := by
  simp only [hashChild] at h
  split_ifs at h with hroot hgit hname hmany
  · obtain ⟨rfl, -⟩ := Prod.mk.inj (Except.ok.inj h)
    exact .inl ⟨hroot, rfl⟩
  · obtain ⟨hentry, hwf⟩ := hashNode_eq_ok hsub h
    simp only [Bool.or_eq_true, not_or, List.contains_iff_mem] at hname
    exact .inr ⟨by simpa using hroot, hentry, ⟨hname.2, hname.1.2⟩, hwf⟩

/-- What the loop gives. -/
theorem hashChildren_eq_ok {subtree : TreeHash} {isRoot : Bool}
    (hsub : ∀ child ∈ es, ∀ es', child.2 = .directory es' → Hashes format subtree es')
    {c c' : Counters} {entries : List TreeEntry}
    (h : hashChildren format subtree isRoot es c = .ok (entries, c')) :
    entries = (partOf isRoot es).filterMap (entryOf format) ∧
      ∀ child ∈ partOf isRoot es, IsName child.1 ∧
        ∀ executable g, projectNode format executable child.2 = some g → g.Wf format := by
  induction es generalizing c entries with
  | nil =>
    obtain ⟨rfl, -⟩ := Prod.mk.inj (Except.ok.inj h)
    exact ⟨rfl, by simp [partOf]⟩
  | cons child es ih =>
    simp only [hashChildren, bind_eq_ok, Prod.exists] at h
    obtain ⟨entry, c₁, hchild, rest, c₂, hrest, h⟩ := h
    obtain ⟨rfl, rfl⟩ := Prod.mk.inj (Except.ok.inj h)
    rw [List.forall_mem_cons] at hsub
    obtain ⟨rfl, hall⟩ := ih hsub.2 hrest
    obtain ⟨hroot, rfl⟩ | ⟨hroot, rfl, hname, hwf⟩ := hashChild_eq_ok hsub.1 hchild
    · have hpart : partOf isRoot (child :: es) = partOf isRoot es := by
        simp only [partOf, List.filter_cons, hroot, Bool.not_true, Bool.false_eq_true, if_false]
      rw [hpart]
      exact ⟨rfl, hall⟩
    · have hpart : partOf isRoot (child :: es) = child :: partOf isRoot es := by
        simp only [partOf, List.filter_cons, hroot, Bool.not_false, if_true]
      rw [hpart, List.forall_mem_cons]
      refine ⟨?_, ⟨hname, hwf⟩, hall⟩
      cases hentry : entryOf format child <;> simp [hentry]

theorem nodeDistinct_partOf {isRoot : Bool} (h : NodeDistinct (.directory es)) :
    NodeDistinct (.directory (partOf isRoot es)) := by
  refine ⟨h.1.sublist (List.filter_sublist.map Prod.fst), ?_⟩
  rw [entriesDistinct_iff]
  exact fun child hchild => entriesDistinct_iff.mp h.2 child (List.mem_of_mem_filter hchild)

theorem entryKey_inj {e f : TreeEntry} (he : IsName e.name) (hf : IsName f.name)
    (h : entryKey e = entryKey f) : e.name = f.name := by
  have hkey := List.map_injective_iff.mpr (fun _ _ => UInt8.toNat_inj.mp) h
  cases hd : e.isDirectory <;> cases hd' : f.isDirectory <;>
    simp only [hd, hd', Bool.false_eq_true, if_false, if_true, List.append_nil] at hkey
  · exact hkey
  · exact absurd (hkey ▸ List.mem_append_right _ List.mem_cons_self) he.2
  · exact absurd (hkey ▸ List.mem_append_right _ List.mem_cons_self) hf.2
  · exact List.append_cancel_right hkey

/-- The sort of the code is the sort of git. -/
theorem sort_entries_eq {entries : List TreeEntry}
    (hd : (es.map Prod.fst).Nodup) (hname : ∀ child ∈ es, IsName child.1)
    (hperm : entries.Perm (es.filterMap (entryOf format))) :
    entries.insertionSort (fun a b => entryKey a ≤ entryKey b) =
      (es.filterMap (entryOf format)).insertionSort TreeEntry.le := by
  -- an entry is determined by its name
  have hentry : ∀ e ∈ es.filterMap (entryOf format), IsName e.name ∧
      ∃ child ∈ es, child.1 = e.name ∧ entryOf format child = some e := by
    intro e he
    obtain ⟨child, hchild, hsome⟩ := List.mem_filterMap.mp he
    obtain ⟨g, -, rfl⟩ := Option.map_eq_some_iff.mp hsome
    exact ⟨hname child hchild, child, hchild, rfl, hsome⟩
  have hunique : ∀ e ∈ es.filterMap (entryOf format), ∀ f ∈ es.filterMap (entryOf format),
      e.name = f.name → e = f := by
    intro e he f hf hef
    obtain ⟨-, a, ha, hae, hsome⟩ := hentry e he
    obtain ⟨-, b, hb, hbf, hsome'⟩ := hentry f hf
    have hab : a = b := List.inj_on_of_nodup_map hd ha hb (hae.trans (hef.trans hbf.symm))
    rw [hab, hsome'] at hsome
    exact (Option.some.inj hsome).symm
  have hsort := List.insertionSort_eq_of_perm entryKey ?_ hperm.symm
  · rw [← hsort]
    refine List.insertionSort_congr fun e he f hf => ?_
    by_cases hef : e.name = f.name
    · rw [hunique e he f hf hef]
      exact iff_of_true le_rfl f.le_refl
    · exact (baseNameCompare_ne_gt (hentry e he).1 (hentry f hf).1 hef).symm
  · intro e he f hf hkey
    exact hunique e he f hf (entryKey_inj (hentry e he).1 (hentry f hf).1 hkey)

/-- A hash that succeeds gives the id of the projected tree. -/
theorem hashWorktreeTree_eq_ok : ∀ (levels : ℕ) {isRoot : Bool} {es : Children}
    {c c' : Counters} {o : Option Bytes}, NodeDistinct (.directory es) →
      hashWorktreeTree format isRoot levels es c = .ok (o, c') →
      (o = if (projectEntries format anyExecutable (partOf isRoot es)).isEmpty && !isRoot then none
        else some (treeId format (projectEntries format anyExecutable (partOf isRoot es)))) ∧
      ∀ executable, EntriesWf format (projectEntries format executable (partOf isRoot es))
  | 0, _, _, _, _, _, _, h => by cases h
  | levels + 1, isRoot, es, c, c', o, hd, h => by
    simp only [hashWorktreeTree, bind_eq_ok, Prod.exists] at h
    obtain ⟨entries, c₁, hrun, h⟩ := h
    have hsub : ∀ child ∈ es.insertionSort fun a b => nameKey a ≤ nameKey b,
        ∀ es', child.2 = .directory es' →
          Hashes format (hashWorktreeTree format false levels) es' := by
      intro child hchild es' hdir c o c' hhash
      have hchild : child ∈ es := (List.mem_insertionSort _).mp hchild
      have hd' := entriesDistinct_iff.mp hd.2 child hchild
      rw [hdir] at hd'
      obtain ⟨ho, hwf⟩ := hashWorktreeTree_eq_ok levels hd' hhash
      simp only [partOf_false, Bool.not_false, Bool.and_true] at ho hwf
      refine ⟨?_, ?_⟩
      · rw [ho, projectNode]
        split_ifs <;> rfl
      · intro executable g hg
        rw [projectNode] at hg
        split_ifs at hg
        obtain rfl := Option.some.inj hg
        exact hwf executable
    obtain ⟨rfl, hall⟩ := hashChildren_eq_ok hsub hrun
    have hpart : (partOf isRoot (es.insertionSort fun a b => nameKey a ≤ nameKey b)).Perm
        (partOf isRoot es) := (List.perm_insertionSort _ es).filter _
    have hall : ∀ child ∈ partOf isRoot es, IsName child.1 ∧
        ∀ executable g, projectNode format executable child.2 = some g → g.Wf format :=
      fun child hchild => hall child (hpart.mem_iff.mpr hchild)
    refine ⟨?_, fun executable => entriesWf_iff.mpr fun e he => ?_⟩
    · rw [sort_entries_eq (nodeDistinct_partOf hd).1 (fun child hchild => (hall child hchild).1)
        (hpart.filterMap _), ← entriesOf_projectEntries] at h
      have hempty : ((entriesOf format (projectEntries format anyExecutable
          (partOf isRoot es))).insertionSort TreeEntry.le).isEmpty =
            (projectEntries format anyExecutable (partOf isRoot es)).isEmpty := by
        rw [Bool.eq_iff_iff, List.isEmpty_iff_length_eq_zero, List.isEmpty_iff_length_eq_zero,
          List.length_insertionSort, entriesOf_eq, List.length_map]
      rw [hempty] at h
      split_ifs at h ⊢
      · exact (Prod.mk.inj (Except.ok.inj h)).1.symm
      · exact (Prod.mk.inj (Except.ok.inj h)).1.symm
    · obtain ⟨child, hchild, hproject, hname⟩ := mem_projectEntries.mp he
      obtain ⟨hisName, hwf⟩ := hall child hchild
      exact ⟨hname ▸ hisName, hwf executable e.2 hproject⟩

/-- An id is the one of the whole projected tree. -/
theorem worktreeTreeOid_eq_ok {o : Option Bytes} (hd : NodeDistinct (.directory es))
    (h : worktreeTreeOid format es = .ok o) :
    o = some (treeId format (project format anyExecutable es)) ∧
      ∀ executable, EntriesWf format (project format executable es) := by
  unfold worktreeTreeOid at h
  cases hrun : hashWorktreeTree format true (maxGitTreeDepth + 1) es ⟨0, 0⟩ with
  | error e =>
    rw [hrun] at h
    cases h
  | ok r =>
    rw [hrun] at h
    obtain rfl := Except.ok.inj h
    obtain ⟨ho, hwf⟩ := hashWorktreeTree_eq_ok (maxGitTreeDepth + 1) hd (o := r.1) hrun
    rw [Bool.not_true, Bool.and_false, if_neg Bool.false_ne_true] at ho
    exact ⟨ho, hwf⟩

/-! ## Where git has another mode -/

mutual

theorem projectNode_of_agrees : ∀ node : WorkNode, NodeAgrees node →
    projectNode format anyExecutable node = projectNode format ownerExecutable node
  | .directory es, h => by
    rw [projectNode, projectNode, projectEntries_of_agree es h]
  | .file permissions content, h => by
    rw [projectNode, projectNode, h]
  | .symlink target, _ => rfl
  | .special, _ => rfl

theorem projectEntries_of_agree : ∀ es : Children, EntriesAgree es →
    projectEntries format anyExecutable es = projectEntries format ownerExecutable es
  | [], _ => rfl
  | (_, node) :: es, h => by
    rw [projectEntries, projectEntries, projectNode_of_agrees node h.1,
      projectEntries_of_agree es h.2]

end

theorem entriesAgree_iff : EntriesAgree es ↔ ∀ child ∈ es, NodeAgrees child.2 := by
  induction es with
  | nil => simp [EntriesAgree]
  | cons child es ih => rw [EntriesAgree, ih, List.forall_mem_cons]

/-- The tree objects of a tree. -/
def IsObject (format : ObjectFormat) (gs : List (Bytes × GitNode)) (x : Bytes) : Prop :=
  x ∈ (GitNode.tree gs).objects format

/-- A node whose two projections have one id, or that has none, agrees. -/
def AgreesById (format : ObjectFormat) (p : Bytes → Prop) (node : WorkNode) : Prop :=
  NodeDistinct node →
    (projectNode format anyExecutable node = none → NodeAgrees node) ∧
    ∀ g g', projectNode format anyExecutable node = some g →
      projectNode format ownerExecutable node = some g' → g.Wf format → g'.Wf format →
      (∀ x ∈ g.objects format, p x) → (∀ x ∈ g'.objects format, p x) →
      g.mode = g'.mode → g.id format = g'.id format → NodeAgrees node

theorem entriesAgree_of_treeId {p : Bytes → Prop} (hcol : format.NoCollision p)
    (hall : ∀ child ∈ es, AgreesById format p child.2) (hd : NodeDistinct (.directory es))
    (hwf : EntriesWf format (projectEntries format anyExecutable es))
    (hwf' : EntriesWf format (projectEntries format ownerExecutable es))
    (hp : ∀ x, IsObject format (projectEntries format anyExecutable es) x → p x)
    (hp' : ∀ x, IsObject format (projectEntries format ownerExecutable es) x → p x)
    (h : treeId format (projectEntries format anyExecutable es) =
      treeId format (projectEntries format ownerExecutable es)) : EntriesAgree es := by
  rw [entriesAgree_iff]
  intro child hchild
  have hdchild := entriesDistinct_iff.mp hd.2 child hchild
  obtain ⟨hnone, hsome⟩ := hall child hchild hdchild
  cases hg : projectNode format anyExecutable child.2 with
  | none => exact hnone hg
  | some g =>
    have hmem : (child.1, g) ∈ projectEntries format anyExecutable es :=
      mem_projectEntries.mpr ⟨child, hchild, hg, rfl⟩
    obtain ⟨f, hf, hname, hmode, hid⟩ := exists_entry_of_treeId hcol hwf hwf'
      (hp _ List.mem_cons_self) (hp' _ List.mem_cons_self) h hmem
    obtain ⟨child', hchild', hf', hname'⟩ := mem_projectEntries.mp hf
    obtain rfl : child' = child :=
      List.inj_on_of_nodup_map hd.1 hchild' hchild (hname'.trans hname)
    refine hsome g f.2 hg hf' (entriesWf_iff.mp hwf _ hmem).2 (entriesWf_iff.mp hwf' f hf).2
      ?_ ?_ hmode.symm hid.symm
    · exact fun x hx => hp x (List.mem_cons_of_mem _ (mem_objectsOf.mpr ⟨_, hmem, hx⟩))
    · exact fun x hx => hp' x (List.mem_cons_of_mem _ (mem_objectsOf.mpr ⟨f, hf, hx⟩))

mutual

theorem agreesById {p : Bytes → Prop} (hcol : format.NoCollision p) :
    ∀ node : WorkNode, AgreesById format p node
  | .directory es => by
    intro hd
    refine ⟨fun hnone => ?_, fun g g' hg hg' hwf hwf' hp hp' _ hid => ?_⟩
    · rw [projectNode] at hnone
      split_ifs at hnone with hempty
      refine entriesAgree_iff.mpr fun child hchild => ?_
      refine (allAgreeById hcol es child hchild (entriesDistinct_iff.mp hd.2 child hchild)).1 ?_
      by_contra hsome
      obtain ⟨g, hg⟩ := Option.ne_none_iff_exists'.mp hsome
      have hmem : (child.1, g) ∈ projectEntries format anyExecutable es :=
        mem_projectEntries.mpr ⟨child, hchild, hg, rfl⟩
      rw [List.isEmpty_iff.mp hempty] at hmem
      cases hmem
    · rw [projectNode] at hg hg'
      split_ifs at hg hg'
      obtain rfl := Option.some.inj hg
      obtain rfl := Option.some.inj hg'
      exact entriesAgree_of_treeId hcol (allAgreeById hcol es) hd hwf hwf' hp hp' hid
  | .file permissions content => by
    intro _
    refine ⟨fun hnone => (by cases hnone), fun g g' hg hg' _ _ _ _ hmode _ => ?_⟩
    obtain rfl := Option.some.inj hg
    obtain rfl := Option.some.inj hg'
    have hmode := EntryMode.file.inj hmode
    unfold NodeAgrees
    cases hany : anyExecutable permissions <;> cases howner : ownerExecutable permissions <;>
      simp [hany, howner] at hmode ⊢
  | .symlink target => fun _ => ⟨fun _ => trivial, fun _ _ _ _ _ _ _ _ _ _ => trivial⟩
  | .special => fun _ => ⟨fun _ => trivial, fun _ _ _ _ _ _ _ _ _ _ => trivial⟩

theorem allAgreeById {p : Bytes → Prop} (hcol : format.NoCollision p) :
    ∀ es : Children, ∀ child ∈ es, AgreesById format p child.2
  | [] => by simp
  | (_, node) :: es => by
    rw [List.forall_mem_cons]
    exact ⟨agreesById hcol node, allAgreeById hcol es⟩

end

end Format

section

variable (format : ObjectFormat) (w : Listing)

/-- The id of a worktree : it does not depend on the order of the scan, it is the id of the
projected tree in git's format, and it is the id that git gives to the worktree exactly when the
owner may execute every file that anyone may execute. Worktrees with one id have the same paths,
modes and ids of files. -/
theorem worktree_tree_identity :
    (∀ w' : Listing, Rearranged w.children w'.children →
      worktreeTreeOid format w.children = worktreeTreeOid format w'.children) ∧
    ∀ o, worktreeTreeOid format w.children = .ok o →
      o = some (treeId format (project format anyExecutable w.children)) ∧
      ((format.NoCollision fun x =>
          IsObject format (project format anyExecutable w.children) x ∨
            IsObject format (project format ownerExecutable w.children) x) →
        (o = some (treeId format (project format ownerExecutable w.children)) ↔
          OwnerExecutes w.children)) ∧
      ∀ w' : Listing, worktreeTreeOid format w'.children = .ok o →
        (format.NoCollision fun x =>
          IsObject format (project format anyExecutable w.children) x ∨
            IsObject format (project format anyExecutable w'.children) x) →
        ∀ x, x ∈ filesOf [] (project format anyExecutable w.children) ↔
          x ∈ filesOf [] (project format anyExecutable w'.children) := by
  refine ⟨fun w' hw => ?_, fun o ho => ?_⟩
  · rw [worktreeTreeOid, worktreeTreeOid, hashWorktreeTree_of_rearranged hw w.distinct]
  · obtain ⟨rfl, hwf⟩ := worktreeTreeOid_eq_ok w.distinct ho
    refine ⟨rfl, fun hcol => ⟨fun h => ?_, fun h => ?_⟩, fun w' ho' hcol => ?_⟩
    · have hd : NodeDistinct (.directory (partOf true w.children)) :=
        nodeDistinct_partOf w.distinct
      exact entriesAgree_of_treeId hcol (allAgreeById hcol _) hd
        (hwf anyExecutable) (hwf ownerExecutable) (fun x => .inl) (fun x => .inr)
        (Option.some.inj h)
    · rw [project, project, projectEntries_of_agree _ h]
    · obtain ⟨hid, hwf'⟩ := worktreeTreeOid_eq_ok w'.distinct ho'
      exact files_of_id hcol (hwf anyExecutable) (hwf' anyExecutable) (fun x => .inl)
        (fun x => .inr) (Option.some.inj hid)

end

/-! ## A file that its owner may not execute -/

/-- An empty file `f` that only its group may execute. -/
def groupFile : Children :=
  [([0x66], .file 0o654 [])]

/-- The id that `git write-tree` prints. -/
example : treeId .sha1 (project .sha1 ownerExecutable groupFile) =
    [0x3D, 0x5A, 0x50, 0x3F, 0x40, 0x62, 0xD1, 0x98, 0xB4, 0x43, 0xDB, 0x50, 0x65, 0xCA, 0x72, 0x7F,
      0x83, 0x54, 0xE7, 0xDF] := by
  decide +kernel

/-- The id is not the one git gives. -/
theorem groupFile_id : ∃ o, worktreeTreeOid .sha1 groupFile = .ok o ∧
    o ≠ some (treeId .sha1 (project .sha1 ownerExecutable groupFile)) := by
  refine ⟨_, rfl, ?_⟩
  decide +kernel

end WorktreeTree

end Icode
