import Icode.VerifyPack

/-!
# A package with one more file

`addFile` writes a file of a new name into the directory of a package. What the verifier reads
elsewhere stays as it is (`memberPath_addFile`, `fileAt_addFile`), and the walk comes to one entry
more (`walkPackageEntries_addFile`), which may be one too many. So of an accepted package only the
parts about the directory and about the new file itself can change.
-/

namespace Icode

open Py

/-! ## The directory -/

/-- Entries in the order of their names. -/
def entryLe (a b : PyStr × PackNode) : Prop :=
  strLe a.1 b.1 = true

instance : DecidableRel entryLe := fun a b =>
  inferInstanceAs (Decidable (strLe a.1 b.1 = true))

instance : Std.Total entryLe :=
  ⟨fun a b => strLe_total a.1 b.1⟩

instance : IsTrans (PyStr × PackNode) entryLe :=
  ⟨fun _ _ _ => strLe_trans⟩

/-- The entries with a file of a new name; the names stay sorted. -/
def addFile (es : Directory) (name : PyStr) (content : Bytes) : Directory :=
  es.orderedInsert entryLe (name, .file content)

/-- The new entry stands somewhere among the others. -/
theorem exists_addFile (es : Directory) (name : PyStr) (content : Bytes) :
    ∃ before behind, es = before ++ behind ∧
      addFile es name content = before ++ (name, .file content) :: behind :=
  ⟨_, _, List.takeWhile_append_dropWhile.symm, List.orderedInsert_eq_take_drop _ _ _⟩

theorem entriesSorted_iff {es : List (PyStr × PackNode)} :
    EntriesSorted es ↔ ∀ e ∈ es, e.2.Sorted := by
  induction es with
  | nil => simp [EntriesSorted]
  | cons e es ih => rw [EntriesSorted, ih, List.forall_mem_cons]

section Directory

variable {es : Directory} {name : PyStr} {content : Bytes}

theorem get?_addFile_self (hnew : Dict.get? es name = none) :
    Dict.get? (addFile es name content) name = some (.file content) := by
  obtain ⟨before, behind, rfl, hadd⟩ := exists_addFile es name content
  have hbefore : name ∉ Dict.keys before := by
    have hkeys := Dict.get?_eq_none_iff.mp hnew
    simp only [Dict.keys, List.map_append, List.mem_append, not_or] at hkeys
    exact hkeys.1
  rw [hadd]
  clear hadd hnew
  induction before with
  | nil => simp
  | cons e before ih =>
    simp only [Dict.keys, List.map_cons, List.mem_cons, not_or] at hbefore
    rw [List.cons_append, Dict.get?_cons, if_neg (Ne.symm hbefore.1)]
    exact ih hbefore.2

theorem get?_addFile {key : PyStr} (hkey : key ≠ name) :
    Dict.get? (addFile es name content) key = Dict.get? es key := by
  obtain ⟨before, behind, rfl, hadd⟩ := exists_addFile es name content
  rw [hadd]
  clear hadd
  induction before with
  | nil => rw [List.nil_append, List.nil_append, Dict.get?_cons, if_neg (Ne.symm hkey)]
  | cons e before ih => rw [List.cons_append, List.cons_append, Dict.get?_cons, Dict.get?_cons, ih]

theorem sorted_addFile (hs : (PackNode.directory es).Sorted) (hname : isEntryName name = true)
    (hnew : Dict.get? es name = none) :
    (PackNode.directory (addFile es name content)).Sorted := by
  obtain ⟨hkeys, hnames, hbelow⟩ := hs
  have hperm : (addFile es name content).Perm ((name, .file content) :: es) :=
    List.perm_orderedInsert entryLe _ es
  refine ⟨?_, fun k hk => ?_, (entriesSorted_iff).mpr fun e he => ?_⟩
  · have hnames : (es.map Prod.fst).Pairwise fun a b => strLe a b = true :=
      (List.pairwise_and_iff.mp hkeys).1
    have hle : es.Pairwise fun a b => strLe a.1 b.1 = true := List.pairwise_map.mp hnames
    have hsorted : (addFile es name content).Pairwise entryLe :=
      List.Pairwise.orderedInsert _ _ hle
    have hnodup : (Dict.keys (addFile es name content)).Nodup := by
      exact (hperm.map Prod.fst).nodup_iff.mpr (List.nodup_cons.mpr
        ⟨Dict.get?_eq_none_iff.mp hnew, (List.pairwise_and_iff.mp hkeys).2⟩)
    exact List.pairwise_and_iff.mpr ⟨List.pairwise_map.mpr hsorted, hnodup⟩
  · rcases List.mem_map.mp hk with ⟨e, he, rfl⟩
    rcases List.mem_cons.mp (hperm.subset he) with rfl | he
    · exact hname
    · exact hnames e.1 (List.mem_map_of_mem he)
  · rcases List.mem_cons.mp (hperm.subset he) with rfl | he
    · trivial
    · exact (entriesSorted_iff).mp hbelow e he

/-! ## Paths -/

theorem nodeAt_addFile {path : List PyStr} (hpath : path.head? ≠ some name) :
    nodeAt (addFile es name content) path = nodeAt es path := by
  match path with
  | [] => rfl
  | [key] =>
    have hkey : key ≠ name := by simpa using hpath
    rw [nodeAt, nodeAt, get?_addFile hkey]
  | key :: next :: names =>
    have hkey : key ≠ name := by simpa using hpath
    rw [nodeAt, nodeAt, get?_addFile hkey] <;> simp

theorem fileAt_addFile {path : List PyStr} (hpath : path.head? ≠ some name) :
    fileAt (addFile es name content) path = fileAt es path := by
  rw [fileAt, fileAt, nodeAt_addFile hpath]

theorem lstatAll_addFile {path : List PyStr} (hpath : path.head? ≠ some name) :
    lstatAll (addFile es name content) path = lstatAll es path := by
  cases path with
  | nil => rfl
  | cons key names =>
    have hkey : key ≠ name := by simpa using hpath
    rw [lstatAll, lstatAll, get?_addFile hkey]

/-- The path of a name that does not begin with the new one. -/
theorem memberPath_addFile {rel : PyStr} (hrel : (splitOn (.scalar '/') rel).head? ≠ some name) :
    memberPath (addFile es name content) rel = memberPath es rel := by
  unfold memberPath
  dsimp only
  rw [lstatAll_addFile hrel]

/-- Nothing stands below a name that is new. -/
theorem head?_of_fileAt (hnew : Dict.get? es name = none) {path : List PyStr} {found : Bytes}
    (hfile : fileAt es path = some found) : path.head? ≠ some name := by
  intro hhead
  match path with
  | [] => simp at hhead
  | [key] =>
    obtain rfl : key = name := by simpa using hhead
    simp [fileAt, nodeAt, hnew] at hfile
  | key :: next :: names =>
    obtain rfl : key = name := by simpa using hhead
    simp [fileAt, nodeAt, hnew] at hfile

/-- A file is found at its path as before. -/
theorem file_addFile (content : Bytes) (hnew : Dict.get? es name = none) {rel : PyStr} {path : List PyStr}
    {found : Bytes} (hpath : memberPath es rel = some path) (hfile : fileAt es path = some found) :
    memberPath (addFile es name content) rel = some path ∧
      fileAt (addFile es name content) path = some found := by
  have hhead := head?_of_fileAt hnew hfile
  refine ⟨?_, (fileAt_addFile hhead).trans hfile⟩
  rw [memberPath_addFile (eq_splitOn_of_memberPath hpath ▸ hhead), hpath]

/-! ## The walk -/

mutual

/-- The entries of a directory and of those below. -/
def PackNode.entryCount : PackNode → ℕ
  | .directory es => es.length + entriesCount es
  | _ => 0

def entriesCount : List (PyStr × PackNode) → ℕ
  | [] => 0
  | (_, node) :: es => node.entryCount + entriesCount es

end

mutual

/-- What a walk without a limit comes to. -/
def walkAll (path : List PyStr) : PackNode → List (List PyStr × EntryKind)
  | .directory es => yieldsOf path es ++ walkAllEntries path es
  | _ => []

def walkAllEntries (path : List PyStr) :
    List (PyStr × PackNode) → List (List PyStr × EntryKind)
  | [] => []
  | (name, node) :: es => walkAll (path ++ [name]) node ++ walkAllEntries path es

end

/-- A walk that comes to `n` entries finds all of them within the limit, and is cut short above. -/
def Walks (walk : List (List PyStr × EntryKind) × Option ℕ)
    (found : List (List PyStr × EntryKind)) (n : ℕ) : Prop :=
  (n ≤ maxPackageEntryCount → walk = (found, some n)) ∧ (maxPackageEntryCount < n → walk.2 = none)

theorem walks_nothing {count : ℕ} (h : count ≤ maxPackageEntryCount) :
    Walks ([], some count) [] count :=
  ⟨fun _ => rfl, fun hlimit => absurd h (not_le.mpr hlimit)⟩

mutual

theorem walks_walkNode (path : List PyStr) : ∀ (node : PackNode) (count : ℕ),
    count ≤ maxPackageEntryCount →
      Walks (walkNode path count node) (walkAll path node) (count + node.entryCount)
  | .directory es, count, hcount => by
    simp only [walkNode, walkAll, PackNode.entryCount]
    split_ifs with hlimit
    · exact ⟨fun h => by omega, fun _ => rfl⟩
    · have hbelow := walks_walkEntries path es (count + es.length) (by omega)
      rw [Nat.add_assoc] at hbelow
      refine ⟨fun h => ?_, fun h => ?_⟩
      · rw [hbelow.1 h]
      · exact hbelow.2 h
  | .file _, _, hcount => walks_nothing hcount
  | .link, _, hcount => walks_nothing hcount
  | .special, _, hcount => walks_nothing hcount

theorem walks_walkEntries (path : List PyStr) : ∀ (es : List (PyStr × PackNode)) (count : ℕ),
    count ≤ maxPackageEntryCount →
      Walks (walkEntries path count es) (walkAllEntries path es) (count + entriesCount es)
  | [], _, hcount => walks_nothing hcount
  | (name, node) :: es, count, hcount => by
    have hnode := walks_walkNode (path ++ [name]) node count hcount
    simp only [walkEntries, walkAllEntries, entriesCount]
    by_cases hroom : count + node.entryCount ≤ maxPackageEntryCount
    · have hrest := walks_walkEntries path es (count + node.entryCount) hroom
      rw [Nat.add_assoc] at hrest
      rw [hnode.1 hroom]
      refine ⟨fun h => ?_, fun h => ?_⟩
      · simp only [hrest.1 h]
      · exact hrest.2 h
    · have hnone := hnode.2 (by omega)
      refine ⟨fun h => by omega, fun _ => ?_⟩
      split
      · rfl
      · next below k heq => simp [heq] at hnone

end

theorem walkAllEntries_append (path : List PyStr) (a b : List (PyStr × PackNode)) :
    walkAllEntries path (a ++ b) = walkAllEntries path a ++ walkAllEntries path b := by
  induction a with
  | nil => rfl
  | cons e a ih => rw [List.cons_append, walkAllEntries, ih, walkAllEntries, List.append_assoc]

theorem entriesCount_append (a b : List (PyStr × PackNode)) :
    entriesCount (a ++ b) = entriesCount a + entriesCount b := by
  induction a with
  | nil => simp [entriesCount]
  | cons e a ih => rw [List.cons_append, entriesCount, ih, entriesCount, Nat.add_assoc]

/-- The entries of the package. -/
def packEntryCount (es : Directory) : ℕ :=
  (PackNode.directory es).entryCount

theorem packEntryCount_addFile : packEntryCount (addFile es name content) = packEntryCount es + 1 := by
  obtain ⟨before, behind, rfl, hadd⟩ := exists_addFile es name content
  rw [hadd]
  simp only [packEntryCount, PackNode.entryCount, entriesCount_append, entriesCount,
    List.length_append, List.length_cons]
  omega

/-- A walk with one file more finds that file and what it found before. -/
theorem walkAll_addFile (es : Directory) (name : PyStr) (content : Bytes) : ∃ before behind,
    walkAll [] (.directory es) = before ++ behind ∧
      walkAll [] (.directory (addFile es name content)) = before ++ ([name], .file) :: behind := by
  obtain ⟨before, behind, rfl, hadd⟩ := exists_addFile es name content
  refine ⟨yieldsOf [] before, yieldsOf [] behind ++ walkAllEntries [] (before ++ behind), ?_, ?_⟩
  · simp [walkAll, yieldsOf]
  · rw [hadd]
    simp [walkAll, yieldsOf, walkAllEntries_append, walkAllEntries, PackNode.kind?]

theorem walkPackageEntries_eq (es : Directory) :
    ((walkPackageEntries es).2 = true ↔ packEntryCount es ≤ maxPackageEntryCount) ∧
      ((walkPackageEntries es).2 = true →
        (walkPackageEntries es).1 = walkAll [] (.directory es)) := by
  obtain ⟨hroom, hcut⟩ := walks_walkNode [] (.directory es) 0 (Nat.zero_le _)
  rw [Nat.zero_add] at hroom hcut
  unfold walkPackageEntries packEntryCount
  by_cases h : (PackNode.directory es).entryCount ≤ maxPackageEntryCount
  · rw [hroom h]
    simp [h]
  · simp [hcut (by omega), h]

end Directory

/-! ## The verifier -/

section Verifier

variable {printable : CodePoint → Bool} {es : Directory} {name : PyStr} {content : Bytes}
  (hnew : Dict.get? es name = none)

include hnew

/-- Files without problems have none when a file is added. -/
theorem checkFile_addFile {remaining : ℕ} {e : FileEntry} {rest : Option ℕ}
    (h : checkFile es remaining e = ([], rest)) :
    checkFile (addFile es name content) remaining e = ([], rest) := by
  unfold checkFile at h ⊢
  split at h
  · simp at h
  next path hpath =>
  split at h
  · simp at h
  next found hfound =>
  obtain ⟨hpath', hfound'⟩ := file_addFile content hnew hpath hfound
  simpa only [hpath', hfound'] using h

theorem checkFiles_addFile {entries : List FileEntry} : ∀ {remaining : ℕ} {rest : Option ℕ},
    checkFiles es remaining entries = ([], rest) →
      checkFiles (addFile es name content) remaining entries = ([], rest) := by
  induction entries with
  | nil => exact id
  | cons e entries ih =>
    intro remaining rest h
    unfold checkFiles at h ⊢
    split at h
    · next problems hfile =>
      obtain ⟨rfl, -⟩ := Prod.mk.inj h
      simpa only [checkFile_addFile hnew hfile] using h
    · next problems k hfile =>
      obtain ⟨hnil, hrest⟩ := Prod.mk.inj h
      obtain ⟨rfl, hbelow⟩ := List.append_eq_nil_iff.mp hnil
      simp only [checkFile_addFile hnew hfile, ih (Prod.ext hbelow hrest), List.append_nil]

theorem memberFile_addFile (content : Bytes) {rel : PyStr} {found : Bytes} (h : memberFile es rel = some found) :
    memberFile (addFile es name content) rel = some found := by
  unfold memberFile at h ⊢
  obtain ⟨path, hpath, hfound⟩ := Option.bind_eq_some_iff.mp h
  obtain ⟨hpath', hfound'⟩ := file_addFile content hnew hpath hfound
  rw [hpath', Option.bind_some, hfound']

section Artifacts

variable {facts : Dict PyStr (PyStr × PyStr)}

omit hnew in
/-- Every entry of an index without problems names a snapshot. -/
theorem hasSnapshot_of_run {values : List Json} : ∀ {s s' : ArtifactCheck} {i : ℕ},
    s.run printable es facts i values = .ok s' → s'.problems = [] →
      ∀ value ∈ values, ∃ digest, HasSnapshot es value digest := by
  induction values with
  | nil => simp
  | cons value values ih =>
    intro s s' i h hclean
    unfold ArtifactCheck.run at h
    split at h
    · next k hstep =>
      have hk := (ArtifactCheck.run_of_clean h hclean).1
      obtain ⟨-, -, -, digest, hdigest, -⟩ := ArtifactCheck.step_of_clean hstep hk
      exact List.forall_mem_cons.mpr ⟨⟨digest, hdigest⟩, ih h hclean⟩
    · simp at h

theorem step_addFile {s s' : ArtifactCheck} {i : ℕ} {value : Json}
    (h : s.step printable es facts i value = .ok s') (hclean : s'.problems = []) :
    s.step printable (addFile es name content) facts i value = .ok s' := by
  obtain ⟨-, -, -, _, ⟨item, rel, found, rfl, hrel, hfound, -⟩, -⟩ :=
    ArtifactCheck.step_of_clean h hclean
  obtain ⟨path, hpath, hfile⟩ := Option.bind_eq_some_iff.mp hfound
  obtain ⟨hpath', hfile'⟩ := file_addFile content hnew hpath hfile
  simp only [ArtifactCheck.step, hrel, Json.text?, hpath, hfile] at h
  simpa only [ArtifactCheck.step, hrel, Json.text?, hpath', hfile'] using h

theorem run_addFile {values : List Json} : ∀ {s s' : ArtifactCheck} {i : ℕ},
    s.run printable es facts i values = .ok s' → s'.problems = [] →
      s.run printable (addFile es name content) facts i values = .ok s' := by
  induction values with
  | nil => exact fun h _ => h
  | cons value values ih =>
    intro s s' i h hclean
    unfold ArtifactCheck.run at h ⊢
    split at h
    · next k hstep =>
      have hk := (ArtifactCheck.run_of_clean h hclean).1
      simp only [step_addFile hnew hstep hk, ih h hclean]
    · simp at h

theorem snapshotsFit_addFile {values : List Json} : ∀ {seen : List PyStr} {total : ℕ},
    (∀ value ∈ values, ∃ digest, HasSnapshot es value digest) →
      snapshotsFit (addFile es name content) seen total values =
        snapshotsFit es seen total values := by
  induction values with
  | nil => exact fun _ => rfl
  | cons value values ih =>
    intro seen total hall
    obtain ⟨⟨_, item, rel, found, rfl, hrel, hfound, -⟩, hrest⟩ := List.forall_mem_cons.mp hall
    have hfound' := memberFile_addFile hnew content hfound
    have hsnapshot : snapshotRel? (.obj item) = some rel := by rw [snapshotRel?, hrel, Json.text?]
    unfold snapshotsFit
    rw [hsnapshot]
    cases hseen : (some rel).filter fun rel => !seen.contains rel with
    | none => exact ih hrest
    | some rel' =>
      obtain rfl : rel' = rel := (Option.some.inj (Option.filter_eq_some_iff.mp hseen).1).symm
      simp only [hfound, hfound', ih hrest]

/-- The artifacts are bound as before. -/
theorem artifactBindingProblems_addFile {remaining : ℕ}
    (h : artifactBindingProblems printable es facts remaining = []) :
    artifactBindingProblems printable (addFile es name content) facts remaining = [] := by
  unfold artifactBindingProblems at h ⊢
  split_ifs at h ⊢ with hfacts
  · rfl
  split at h
  · simp at h
  next path hpath =>
  split at h
  · simp at h
  next found hfound =>
  split at h
  · simp at h
  next index hindex =>
  obtain ⟨hpath', hfound'⟩ := file_addFile content hnew hpath hfound
  simp only [hpath', hfound', hindex]
  unfold indexProblems at h ⊢
  dsimp only at h ⊢
  split_ifs at h with hcount hfit
  · simp at h
  · simp at h
  rw [if_neg hcount]
  split at h
  · next s hrun => exact absurd h (ArtifactCheck.problems_ne_nil_of_run hrun)
  · next s hrun =>
    have hclean : s.problems = [] := by
      split_ifs at h
      · exact h
      · exact (List.append_eq_nil_iff.mp h).1
    rw [snapshotsFit_addFile hnew (hasSnapshot_of_run hrun hclean), if_neg hfit,
      run_addFile hnew hrun hclean]
    exact h

end Artifacts

end Verifier

/-! ## An accepted package with a file that no manifest lists -/

/-- The names of the root that the verifier reads. -/
def readNames : List PyStr :=
  ["manifest.json", "signature.json", "contracts.json", "verifications.json", "ticket"]

section Accepted

variable {printable : CodePoint → Bool} {args : VerifyArguments} {es : Directory} {name : PyStr}
  {content manifestContent : Bytes} {delivered : ℕ} {manifest : Members}
  (hother : name ∉ readNames)

include hother

theorem memberPath_of_readName (es : Directory) (content : Bytes) (rel : PyStr)
    (hrel : (splitOn (.scalar '/') rel).head?.any readNames.contains = true) :
    memberPath (addFile es name content) rel = memberPath es rel ∧
      ∀ path, memberPath es rel = some path →
        fileAt (addFile es name content) path = fileAt es path := by
  have hhead : (splitOn (.scalar '/') rel).head? ≠ some name := by
    intro h
    rw [h, Option.any_some, List.contains_iff_mem] at hrel
    exact hother hrel
  refine ⟨memberPath_addFile hhead, fun path hpath => ?_⟩
  obtain rfl := eq_splitOn_of_memberPath hpath
  exact fileAt_addFile hhead

theorem memberFile_of_readName (es : Directory) (content : Bytes) (rel : PyStr)
    (hrel : (splitOn (.scalar '/') rel).head?.any readNames.contains = true) :
    memberFile (addFile es name content) rel = memberFile es rel := by
  obtain ⟨hpath, hfile⟩ := memberPath_of_readName hother es content rel hrel
  rw [memberFile, memberFile, hpath]
  cases h : memberPath es rel with
  | none => rfl
  | some path => exact hfile path h

theorem ticketMetadata_addFile : ticketMetadata (addFile es name content) = ticketMetadata es := by
  obtain ⟨hpath, hfile⟩ := memberPath_of_readName hother es content "ticket/metadata.json" (by decide)
  rw [ticketMetadata, ticketMetadata, hpath]
  cases h : memberPath es "ticket/metadata.json" with
  | none => rfl
  | some path => simp only [hfile path h]

theorem packContract_addFile : packContract (addFile es name content) = packContract es := by
  obtain ⟨hpath, hfile⟩ := memberPath_of_readName hother es content "contracts.json" (by decide)
  rw [packContract, packContract, hpath]
  cases h : memberPath es "contracts.json" with
  | none => rfl
  | some path => simp only [hfile path h]

theorem verificationsProblems_addFile {ticketId : Option PyStr} :
    verificationsProblems (addFile es name content) ticketId = verificationsProblems es ticketId := by
  obtain ⟨hpath, hfile⟩ := memberPath_of_readName hother es content "verifications.json" (by decide)
  rw [verificationsProblems, verificationsProblems, hpath]
  cases h : memberPath es "verifications.json" with
  | none => rfl
  | some path => simp only [hfile path h]

theorem ticketProblems_addFile :
    ticketProblems (addFile es name content) manifest = ticketProblems es manifest := by
  simp only [ticketProblems, ticketMetadata_addFile hother, packContract_addFile hother,
    verificationsProblems_addFile hother]

theorem eventsProblems_addFile (hnew : Dict.get? es name = none) {remaining : Option ℕ}
    (h : eventsProblems printable es delivered remaining = .ok []) :
    eventsProblems printable (addFile es name content) delivered remaining = .ok [] := by
  unfold eventsProblems at h ⊢
  split at h
  · simp at h
  next path hpath =>
  split at h
  · simp at h
  next found hfound =>
  obtain ⟨hpath', hfound'⟩ := file_addFile content hnew hpath hfound
  simp only [hpath', hfound', ticketMetadata_addFile hother, packContract_addFile hother]
  rw [bind_eq_ok] at h ⊢
  obtain ⟨⟨facts, problems⟩, hchain, hall⟩ := h
  refine ⟨(facts, problems), hchain, ?_⟩
  obtain ⟨hchainNil, hbinding⟩ := List.append_eq_nil_iff.mp (Except.ok.inj hall)
  dsimp only
  rw [hchainNil, List.nil_append]
  cases remaining with
  | none => rfl
  | some left =>
    rw [Option.map_some, Option.getD_some, List.map_eq_nil_iff] at hbinding
    rw [Option.map_some, Option.getD_some, artifactBindingProblems_addFile hnew hbinding]
    rfl

omit hother in
/-- The walk reports nothing about a file that no manifest lists, when it has room for it. -/
theorem directoryProblems_addFile (content : Bytes) {entries : List FileEntry}
    (hunlisted : walkProblems entries [name] .file = [])
    (h : directoryProblems es entries = []) :
    directoryProblems (addFile es name content) entries = [] ↔
      packEntryCount es < maxPackageEntryCount := by
  simp only [directoryProblems, List.append_eq_nil_iff, issueUnless_eq_nil,
    List.flatMap_eq_nil_iff] at h ⊢
  obtain ⟨hcomplete, hfound⟩ := walkPackageEntries_eq (addFile es name content)
  rw [hcomplete, packEntryCount_addFile]
  refine ⟨fun hall => hall.2, fun hroom => ⟨?_, hroom⟩⟩
  obtain ⟨before, behind, hbefore, hafter⟩ := walkAll_addFile es name content
  rw [hfound (hcomplete.mpr (by rw [packEntryCount_addFile]; exact hroom)), hafter]
  rw [(walkPackageEntries_eq es).2 h.2, hbefore] at h
  intro entry hentry
  rcases List.mem_append.mp hentry with hmem | hmem
  · exact h.1 entry (List.mem_append_left _ hmem)
  rcases List.mem_cons.mp hmem with rfl | hmem
  · exact hunlisted
  · exact h.1 entry (List.mem_append_right _ hmem)

/-- A file that no manifest lists changes what the directory and the seal say, and nothing else. -/
theorem acceptedPack_addFile (hnew : Dict.get? es name = none)
    (hunlisted : walkProblems (manifestEntries manifest).2 [name] .file = [])
    (h : AcceptedPack printable args es delivered manifest manifestContent) :
    AcceptedPack printable args (addFile es name content) delivered manifest manifestContent ↔
      packEntryCount es < maxPackageEntryCount ∧
        sealProblems args (addFile es name content) manifest manifestContent = .ok [] := by
  have hdirectory := directoryProblems_addFile content hunlisted h.directory
  refine ⟨fun h' => ⟨hdirectory.mp h'.directory, h'.sealed⟩, fun ⟨hroom, hsealed⟩ => ?_⟩
  obtain ⟨remaining, hfiles, hevents⟩ := h.files
  exact
    { loaded := ⟨by rw [memberFile_of_readName hother es content _ (by decide), h.loaded.1], h.loaded.2⟩
      entries := h.entries
      digest := h.digest
      directory := hdirectory.mpr hroom
      sealed := hsealed
      ticket := by rw [ticketProblems_addFile hother, h.ticket]
      files := ⟨remaining, checkFiles_addFile hnew hfiles, eventsProblems_addFile hother hnew hevents⟩ }

end Accepted

theorem verifyPack_eq_ok_iff {printable : CodePoint → Bool} {args : VerifyArguments} {pack : Pack}
    {delivered : ℕ} {manifest : Members} {content : Bytes}
    (hfile : memberFile pack.entries "manifest.json" = some content)
    (hload : loadJsonObject content maxManifestJsonBytes = .ok manifest) :
    verifyPack printable args pack delivered = .ok [] ↔
      AcceptedPack printable args pack.entries delivered manifest content := by
  refine ⟨fun h => ?_, verifyPack_of_accepted⟩
  obtain ⟨manifest', content', haccepted⟩ := accepted_of_verifyPack h
  obtain ⟨hfile', hload'⟩ := haccepted.loaded
  obtain rfl := Option.some.inj (hfile'.symm.trans hfile)
  obtain rfl := Except.ok.inj (hload'.symm.trans hload)
  exact haccepted

end Icode
