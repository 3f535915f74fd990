import Icode.JsonLine
import Icode.RepairFingerprint
import Icode.Utf8

/-!
# Snapshots of a workspace

`snapshotWorkspace` gives every file and link of a directory tree a digest of its type, mode and
content, under the path in `os.fsdecode`'s text. Two fingerprints digest the JSON text of such
snapshots: `snapshotFingerprint` of a whole one, `diffFingerprint` of what changed between two.

The JSON text determines the snapshot and the changes. It can be encoded exactly when no path in it
has a surrogate, that is when the names in it are UTF-8; the names of a file system need not be
(`workspace_fingerprints`).
-/

namespace Py

/-! ## The canonical text -/

namespace Json

theorem all_joinRest {p : CodePoint → Bool} {close : CodePoint} (hcomma : p ',' = true)
    (hclose : p close = true) : ∀ xs : List PyStr,
      (joinRest close xs).all p = xs.all fun x => x.all p
  | [] => by simp [joinRest, hclose]
  | x :: xs => by simp [joinRest, hcomma, all_joinRest hcomma hclose xs]

theorem all_joinItems {p : CodePoint → Bool} {close : CodePoint} (hcomma : p ',' = true)
    (hclose : p close = true) (xs : List PyStr) :
    (joinItems close xs).all p = xs.all fun x => x.all p := by
  cases xs with
  | nil => simp [joinItems, hclose]
  | cons x xs => simp [joinItems, all_joinRest hcomma hclose xs]

theorem all_isScalar_render {v : Json} : v.render.all isScalar = true ↔ v.Encodable := by
  have hscalar : ∀ {v : Json} {s : List Char}, scalarText v = some s →
      v.render.all isScalar = true := by
    intro v s hs
    rw [render_scalar hs]
    exact isScalar_ofChars
  induction v with
  | null => exact iff_of_true (hscalar rfl) trivial
  | bool b => exact iff_of_true (by cases b <;> exact hscalar rfl) trivial
  | int n => exact iff_of_true (hscalar rfl) trivial
  | float x => exact iff_of_true (hscalar rfl) trivial
  | str s =>
    rw [render_str, all_isScalar_quote]
    rfl
  | arr xs ih =>
    have hbracket : isScalar '[' = true := rfl
    rw [render_arr, List.all_cons, all_joinItems rfl rfl, hbracket, Bool.true_and, List.all_map,
      List.all_eq_true, encodable_arr]
    exact forall₂_congr ih
  | obj ms ih =>
    have hbrace : isScalar '\x7b' = true := rfl
    have hcolon : isScalar ':' = true := rfl
    rw [render_obj, List.all_cons, all_joinItems rfl rfl, hbrace, Bool.true_and, List.all_map,
      List.all_eq_true, encodable_obj]
    refine forall₂_congr fun m hm => ?_
    rw [Function.comp_apply, renderMember, List.all_append, List.all_cons, hcolon, Bool.true_and,
      Bool.and_eq_true, all_isScalar_quote]
    exact and_congr_right fun _ => ih m hm

/-- The canonical text can be encoded when the texts of the value can. -/
theorem all_isScalar_dumps {v : Json} : v.dumps.all isScalar = true ↔ v.Encodable := by
  rw [dumps, all_isScalar_render, encodable_canonical]

end Json

end Py

namespace Icode

open Py

/-! ## The tree -/

/-- What stands under a name. Names and the targets of links are bytes. -/
inductive WorkNode where
  | directory (entries : List (Bytes × WorkNode))
  | symlink (target : Bytes)
  | file (permissions : ℕ) (content : Bytes)
  | special

/-- `mode & (S_IXUSR | S_IXGRP | S_IXOTH)` -/
def anyExecutable (permissions : ℕ) : Bool :=
  permissions &&& 0o111 != 0

namespace WorkspaceSnapshot

/-- `os.fsdecode`: a byte that starts no scalar is a surrogate. `fuel` bounds the number of these
bytes. -/
def fsdecodeUpTo : ℕ → Bytes → PyStr
  | 0, _ => []
  | fuel + 1, b =>
    match decodePrefix b with
    | (s, []) => s
    | (s, x :: rest) => s ++ .surrogate (Fin.ofNat 2048 (0x400 + x.toNat)) :: fsdecodeUpTo fuel rest

def fsdecode (b : Bytes) : PyStr :=
  fsdecodeUpTo (b.length + 1) b

/-- A snapshot: the digest of each path. -/
abbrev Snapshot := Dict PyStr PyStr

/-- `OSError` -/
inductive ScanError where
  /-- snapshot contains unsupported file type -/
  | unsupported
  deriving DecidableEq

/-- What a part of the scan does to `out`. -/
abbrev Scan := Snapshot → Except ScanError Snapshot

/-- `_entry_hash_prefix` -/
def entryHashPrefix (entryType gitMode : String) : Bytes :=
  encodePass (lit "icode-workspace-entry-v2\x00" ++ lit entryType ++ lit "\x00" ++ lit gitMode ++
    lit "\x00")

/-- `_entry_hash` -/
def entryHash (entryType gitMode : String) (content : Bytes) : PyStr :=
  sha256 (entryHashPrefix entryType gitMode ++ content)

/-- `sorted(entries, key=lambda item: item.name)`, and the body of the loop for each of them. -/
def runAll (entries : List (PyStr × Scan)) (out : Snapshot) : Except ScanError Snapshot :=
  (entries.insertionSort fun a b => strLe a.1 b.1 = true).foldlM (fun out entry => entry.2 out) out

/-- The names that are left out. -/
def skippedNames : List PyStr :=
  [lit ".icode_output", lit "__pycache__"]

/-- `Path(*parts).as_posix()` -/
def asPosix (parts : List PyStr) : PyStr :=
  joinWith '/' parts

mutual

/-- The body of the loop of `scan` for the entry `name` below `parts`. -/
def scanNode (parts : List PyStr) (name : PyStr) : WorkNode → Scan
  | .special => fun _ => .error .unsupported
  | .directory entries => fun out =>
    if skippedNames.contains name then .ok out
    else runAll (scanEntries (parts ++ [name]) entries) out
  | .symlink target => fun out =>
    if skippedNames.contains name then .ok out
    else .ok (out.set (asPosix (parts ++ [name])) (entryHash "symlink" "120000" target))
  | .file permissions content => fun out =>
    if skippedNames.contains name then .ok out
    else
      let gitMode := if anyExecutable permissions then "100755" else "100644"
      .ok (out.set (asPosix (parts ++ [name])) (entryHash "file" gitMode content))

/-- The entries of a directory, with what the loop does for each. -/
def scanEntries (parts : List PyStr) : List (Bytes × WorkNode) → List (PyStr × Scan)
  | [] => []
  | (name, node) :: entries =>
    (fsdecode name, scanNode parts (fsdecode name) node) :: scanEntries parts entries

end

/-- `snapshot_workspace` on a POSIX system. -/
def snapshotWorkspace (entries : List (Bytes × WorkNode)) : Except ScanError Snapshot :=
  runAll (scanEntries [] entries) []

/-! ## Fingerprints -/

/-- The digest of a list of entries, where a surrogate raises `UnicodeEncodeError`. -/
def fingerprint (entries : List Json) : Option PyStr :=
  (encode (Json.dumps (.arr entries))).map sha256

/-- An item of `entries` in `snapshot_fingerprint`. -/
def snapshotEntry (m : PyStr × PyStr) : Json :=
  .obj [(lit "path", .str m.1), (lit "sha256", .str m.2)]

/-- `snapshot_fingerprint`; the paths are distinct, so the sort does not compare digests. -/
def snapshotFingerprint (snapshot : Snapshot) : Option PyStr :=
  fingerprint ((snapshot.insertionSort fun a b => strLe a.1 b.1 = true).map snapshotEntry)

/-- A path whose digest changed. -/
structure Change where
  path : PyStr
  old : Option PyStr
  new : Option PyStr
  deriving DecidableEq

/-- The changes, by path. -/
def changes (before after : Snapshot) : List Change :=
  let names := (before.keys ++ after.keys).dedup.insertionSort fun a b => strLe a b = true
  names.filterMap fun name =>
    if before.get? name = after.get? name then none
    else some ⟨name, before.get? name, after.get? name⟩

/-- `"A" if old is None else "D" if new is None else "M"` -/
def Change.status (c : Change) : PyStr :=
  match c.old, c.new with
  | none, _ => lit "A"
  | some _, none => lit "D"
  | some _, some _ => lit "M"

/-- An item of `entries` in `diff_fingerprint`. -/
def Change.entry (c : Change) : Json :=
  .obj [(lit "path", .str c.path), (lit "status", .str c.status),
    (lit "before", .str (c.old.getD [])), (lit "after", .str (c.new.getD []))]

/-- `diff_fingerprint` -/
def diffFingerprint (before after : Snapshot) : Option PyStr :=
  fingerprint ((changes before after).map Change.entry)

/-! ## What the scan gives -/

/-- The paths are distinct, and each has a digest. -/
structure IsSnapshot (s : Snapshot) : Prop where
  nodup : s.keys.Nodup
  digests : ∀ m ∈ s, isHexText 64 m.2 = true

theorem IsSnapshot.nil : IsSnapshot [] :=
  ⟨List.nodup_nil, by simp⟩

theorem IsSnapshot.set {s : Snapshot} (h : IsSnapshot s) (path : PyStr) (entryType gitMode : String)
    (content : Bytes) : IsSnapshot (s.set path (entryHash entryType gitMode content)) where
  nodup := Dict.nodup_keys_set h.nodup _ _
  digests m hm := by
    rcases Dict.mem_of_mem_set hm with rfl | hm
    · exact isHexText_sha256 _
    · exact h.digests m hm

/-- The part of the scan keeps snapshots. -/
def Keeps (scan : Scan) : Prop :=
  ∀ out out', IsSnapshot out → scan out = .ok out' → IsSnapshot out'

theorem keeps_foldlM {entries : List (PyStr × Scan)} (h : ∀ entry ∈ entries, Keeps entry.2) :
    Keeps fun out => entries.foldlM (fun out entry => entry.2 out) out := by
  induction entries with
  | nil =>
    intro out out' hout hrun
    obtain rfl := Except.ok.inj hrun
    exact hout
  | cons entry entries ih =>
    intro out out' hout hrun
    simp only [List.foldlM_cons, bind_eq_ok] at hrun
    obtain ⟨next, hnext, hrun⟩ := hrun
    refine ih (fun e he => h e (List.mem_cons_of_mem _ he)) next out' ?_ hrun
    exact h entry List.mem_cons_self out next hout hnext

theorem keeps_runAll {entries : List (PyStr × Scan)} (h : ∀ entry ∈ entries, Keeps entry.2) :
    Keeps (runAll entries) :=
  keeps_foldlM fun entry hmem => h entry ((List.perm_insertionSort _ entries).subset hmem)

mutual

theorem keeps_scanNode (parts : List PyStr) (name : PyStr) : ∀ node : WorkNode,
    Keeps (scanNode parts name node)
  | .special => by
    intro out out' _ hrun
    cases hrun
  | .directory entries => by
    intro out out' hout hrun
    rw [scanNode] at hrun
    split_ifs at hrun
    · obtain rfl := Except.ok.inj hrun
      exact hout
    · exact keeps_runAll (keeps_scanEntries (parts ++ [name]) entries) out out' hout hrun
  | .symlink target => by
    intro out out' hout hrun
    rw [scanNode] at hrun
    split_ifs at hrun
    · obtain rfl := Except.ok.inj hrun
      exact hout
    · obtain rfl := Except.ok.inj hrun
      exact hout.set _ _ _ _
  | .file permissions content => by
    intro out out' hout hrun
    rw [scanNode] at hrun
    split_ifs at hrun
    · obtain rfl := Except.ok.inj hrun
      exact hout
    · obtain rfl := Except.ok.inj hrun
      exact hout.set _ _ _ _
    · obtain rfl := Except.ok.inj hrun
      exact hout.set _ _ _ _

theorem keeps_scanEntries (parts : List PyStr) : ∀ entries : List (Bytes × WorkNode),
    ∀ entry ∈ scanEntries parts entries, Keeps entry.2
  | [] => by simp [scanEntries]
  | (name, node) :: entries => by
    rw [scanEntries, List.forall_mem_cons]
    exact ⟨keeps_scanNode parts (fsdecode name) node, keeps_scanEntries parts entries⟩

end

theorem isSnapshot_snapshotWorkspace {entries : List (Bytes × WorkNode)} {s : Snapshot}
    (h : snapshotWorkspace entries = .ok s) : IsSnapshot s :=
  keeps_runAll (keeps_scanEntries [] entries) [] s .nil h

/-! ## What the fingerprints say -/

/-- The bytes that are digested. -/
def payload (entries : List Json) : Bytes :=
  encodePass (Json.dumps (.arr entries))

theorem fingerprint_eq_some {entries : List Json} {digest : PyStr} :
    fingerprint entries = some digest ↔
      (∀ entry ∈ entries, entry.Encodable) ∧ digest = sha256 (payload entries) := by
  simp only [fingerprint, Option.map_eq_some_iff, encode_eq_some, Json.all_isScalar_dumps,
    Json.encodable_arr, payload]
  constructor
  · rintro ⟨raw, ⟨henc, rfl⟩, rfl⟩
    exact ⟨henc, rfl⟩
  · rintro ⟨henc, rfl⟩
    exact ⟨_, ⟨henc, rfl⟩, rfl⟩

theorem exists_fingerprint {entries : List Json} :
    (∃ digest, fingerprint entries = some digest) ↔ ∀ entry ∈ entries, entry.Encodable := by
  simp only [fingerprint_eq_some, exists_and_left, exists_eq, and_true]

/-- Without a collision, equal fingerprints are those of the same entries. -/
theorem same_of_fingerprint {xs ys : List Json} {digest : PyStr}
    (hcol : NoCollision fun raw => raw = payload xs ∨ raw = payload ys)
    (hx : fingerprint xs = some digest) (hy : fingerprint ys = some digest) :
    List.Forall₂ Json.Same xs ys := by
  have hdigest : sha256 (payload xs) = sha256 (payload ys) :=
    (fingerprint_eq_some.mp hx).2.symm.trans (fingerprint_eq_some.mp hy).2
  have hbytes := hcol _ _ (.inl rfl) (.inr rfl) hdigest
  exact Json.same_arr.mp (Json.dumps_inj.mp (encodePass_injective hbytes))

/-- Entries of the same JSON text are equal when the entries determine what they are of. -/
theorem eq_of_forall₂_same {α : Type*} {f : α → Json} {p : α → Prop} {xs ys : List α}
    (hinj : ∀ x y, p x → p y → Json.Same (f x) (f y) → x = y) (hx : ∀ x ∈ xs, p x)
    (hy : ∀ y ∈ ys, p y) (h : List.Forall₂ Json.Same (xs.map f) (ys.map f)) : xs = ys := by
  rw [List.forall₂_map_left_iff, List.forall₂_map_right_iff] at h
  induction h with
  | nil => rfl
  | @cons x y xs ys hxy _ ih =>
    rw [List.forall_mem_cons] at hx hy
    rw [hinj x y hx.1 hy.1 hxy, ih hx.2 hy.2]

theorem snapshotEntry_inj {m n : PyStr × PyStr}
    (h : Json.Same (snapshotEntry m) (snapshotEntry n)) : m = n := by
  have hpath : Json.Same (.str m.1) (.str n.1) := same_fieldOf h (lit "path")
  have hdigest : Json.Same (.str m.2) (.str n.2) := same_fieldOf h (lit "sha256")
  exact Prod.ext (eq_of_same_text hpath) (eq_of_same_text hdigest)

/-- The status tells an absent digest from one that is there. -/
theorem isSome_eq_of_status {c d : Change} (hc : c.old ≠ c.new) (hd : d.old ≠ d.new)
    (h : c.status = d.status) : c.old.isSome = d.old.isSome ∧ c.new.isSome = d.new.isSome := by
  obtain ⟨path, old, new⟩ := c
  obtain ⟨path', old', new'⟩ := d
  cases old <;> cases new <;> cases old' <;> cases new' <;>
    simp_all [Change.status]

theorem eq_of_getD_eq {a b : Option PyStr} (hsome : a.isSome = b.isSome)
    (h : a.getD [] = b.getD []) : a = b := by
  cases a <;> cases b <;> simp_all

theorem Change.entry_inj {c d : Change} (hc : c.old ≠ c.new) (hd : d.old ≠ d.new)
    (h : Json.Same c.entry d.entry) : c = d := by
  have hpath : Json.Same (.str c.path) (.str d.path) := same_fieldOf h (lit "path")
  have hstatus : Json.Same (.str c.status) (.str d.status) := same_fieldOf h (lit "status")
  have hold : Json.Same (.str (c.old.getD [])) (.str (d.old.getD [])) :=
    same_fieldOf h (lit "before")
  have hnew : Json.Same (.str (c.new.getD [])) (.str (d.new.getD [])) :=
    same_fieldOf h (lit "after")
  obtain ⟨holdSome, hnewSome⟩ := isSome_eq_of_status hc hd (eq_of_same_text hstatus)
  have hpath := eq_of_same_text hpath
  have hold := eq_of_getD_eq holdSome (eq_of_same_text hold)
  have hnew := eq_of_getD_eq hnewSome (eq_of_same_text hnew)
  cases c
  cases d
  simp_all

theorem mem_changes {before after : Snapshot} {c : Change} :
    c ∈ changes before after ↔
      c.old = before.get? c.path ∧ c.new = after.get? c.path ∧ c.old ≠ c.new := by
  simp only [changes, List.mem_filterMap, List.mem_insertionSort, List.mem_dedup, List.mem_append]
  constructor
  · rintro ⟨name, -, h⟩
    split_ifs at h with heq
    obtain rfl := Option.some.inj h
    exact ⟨rfl, rfl, heq⟩
  · rintro ⟨hold, hnew, hne⟩
    refine ⟨c.path, ?_, ?_⟩
    · by_contra hmem
      rw [not_or, ← Dict.get?_eq_none_iff, ← Dict.get?_eq_none_iff] at hmem
      exact hne (by rw [hold, hnew, hmem.1, hmem.2])
    · rw [← hold, ← hnew, if_neg hne]

theorem IsSnapshot.digest {s : Snapshot} (h : IsSnapshot s) {path digest : PyStr}
    (hget : s.get? path = some digest) : digest.all isScalar = true :=
  isScalar_of_isHexText (h.digests _ (Dict.mem_of_get? hget))

theorem encodable_snapshotEntry {m : PyStr × PyStr} :
    (snapshotEntry m).Encodable ↔ m.1.all isScalar = true ∧ m.2.all isScalar = true := by
  have hpath : (lit "path").all isScalar = true := rfl
  have hdigest : (lit "sha256").all isScalar = true := rfl
  simp only [snapshotEntry, Json.encodable_obj, List.forall_mem_cons, Json.encodable_str, hpath,
    hdigest, List.not_mem_nil, false_implies, implies_true, true_and, and_true]

/-- The fingerprint of a snapshot exists when its paths can be encoded. -/
theorem exists_snapshotFingerprint {s : Snapshot} (hs : IsSnapshot s) :
    (∃ digest, snapshotFingerprint s = some digest) ↔
      ∀ path ∈ s.keys, path.all isScalar = true := by
  simp only [snapshotFingerprint, exists_fingerprint, List.forall_mem_map, List.mem_insertionSort,
    encodable_snapshotEntry, Dict.keys]
  exact forall₂_congr fun m hm => and_iff_left (isScalar_of_isHexText (hs.digests m hm))

theorem encodable_entry {before after : Snapshot} (hb : IsSnapshot before) (ha : IsSnapshot after)
    {c : Change} (hc : c ∈ changes before after) :
    c.entry.Encodable ↔ c.path.all isScalar = true := by
  obtain ⟨hold, hnew, -⟩ := mem_changes.mp hc
  have hgetD : ∀ {s : Snapshot} {x : Option PyStr}, IsSnapshot s → x = s.get? c.path →
      (x.getD []).all isScalar = true := by
    intro s x hs hx
    cases x with
    | none => rfl
    | some digest => exact hs.digest hx.symm
  have hstatus : c.status.all isScalar = true := by
    unfold Change.status
    split <;> rfl
  have hkeys : (lit "path").all isScalar = true ∧ (lit "status").all isScalar = true ∧
      (lit "before").all isScalar = true ∧ (lit "after").all isScalar = true :=
    ⟨rfl, rfl, rfl, rfl⟩
  simp only [Change.entry, Json.encodable_obj, List.forall_mem_cons, Json.encodable_str, hkeys,
    hstatus, hgetD hb hold, hgetD ha hnew, List.not_mem_nil, false_implies, implies_true, true_and,
    and_true]

/-- The fingerprint of the changes exists when the paths of the changes can be encoded. -/
theorem exists_diffFingerprint {before after : Snapshot} (hb : IsSnapshot before)
    (ha : IsSnapshot after) :
    (∃ digest, diffFingerprint before after = some digest) ↔
      ∀ path, before.get? path ≠ after.get? path → path.all isScalar = true := by
  simp only [diffFingerprint, exists_fingerprint, List.forall_mem_map]
  constructor
  · intro h path hne
    have hc : (⟨path, before.get? path, after.get? path⟩ : Change) ∈ changes before after :=
      mem_changes.mpr ⟨rfl, rfl, hne⟩
    exact (encodable_entry hb ha hc).mp (h _ hc)
  · intro h c hc
    obtain ⟨hold, hnew, hne⟩ := mem_changes.mp hc
    exact (encodable_entry hb ha hc).mpr (h c.path (by rwa [← hold, ← hnew]))

/-- The bytes that `snapshot_fingerprint` digests. -/
def snapshotPayload (s : Snapshot) : Bytes :=
  payload ((s.insertionSort fun a b => strLe a.1 b.1 = true).map snapshotEntry)

/-- The bytes that `diff_fingerprint` digests. -/
def diffPayload (before after : Snapshot) : Bytes :=
  payload ((changes before after).map Change.entry)

/-- Equal fingerprints are those of equal snapshots. -/
theorem snapshotFingerprint_inj {s t : Snapshot} (hs : IsSnapshot s) (ht : IsSnapshot t)
    (hcol : NoCollision fun raw => raw = snapshotPayload s ∨ raw = snapshotPayload t)
    {digest : PyStr} (hds : snapshotFingerprint s = some digest)
    (hdt : snapshotFingerprint t = some digest) (path : PyStr) : s.get? path = t.get? path := by
  have hsame := same_of_fingerprint hcol hds hdt
  have hsort := eq_of_forall₂_same (fun _ _ _ _ h => snapshotEntry_inj h)
    (fun _ _ => trivial) (fun _ _ => trivial) hsame
  have hperm : s.Perm t := (List.perm_insertionSort _ s).symm.trans
    (hsort ▸ List.perm_insertionSort _ t)
  have hone : ∀ {s t : Snapshot}, IsSnapshot t → s.Perm t → ∀ {d : PyStr},
      s.get? path = some d → t.get? path = some d := by
    intro s t ht hperm d hd
    exact Dict.get?_of_mem ht.nodup (hperm.subset (Dict.mem_of_get? hd))
  cases hget : s.get? path with
  | some d => exact (hone ht hperm hget).symm
  | none =>
    cases hget' : t.get? path with
    | none => rfl
    | some d =>
      have hd := hone hs hperm.symm hget'
      rw [hget] at hd
      cases hd

/-- Equal fingerprints are those of equal changes. -/
theorem diffFingerprint_inj {b a b' a' : Snapshot}
    (hcol : NoCollision fun raw => raw = diffPayload b a ∨ raw = diffPayload b' a')
    {digest : PyStr} (hd : diffFingerprint b a = some digest)
    (hd' : diffFingerprint b' a' = some digest) : changes b a = changes b' a' := by
  have hsame := same_of_fingerprint hcol hd hd'
  refine eq_of_forall₂_same (fun c d => Change.entry_inj) ?_ ?_ hsame
  · exact fun c hc => (mem_changes.mp hc).2.2
  · exact fun c hc => (mem_changes.mp hc).2.2

/-- The fingerprints : what the scan gives is a snapshot. The fingerprint of a snapshot exists when
its paths can be encoded, that of a change set when the changed paths can, and without a collision
equal fingerprints are those of equal snapshots and of equal changes. -/
theorem workspace_fingerprints (entries : List (Bytes × WorkNode)) :
    (∀ s, snapshotWorkspace entries = .ok s → IsSnapshot s) ∧
    (∀ s, IsSnapshot s → ((∃ digest, snapshotFingerprint s = some digest) ↔
      ∀ path ∈ s.keys, path.all isScalar = true)) ∧
    (∀ before after, IsSnapshot before → IsSnapshot after →
      ((∃ digest, diffFingerprint before after = some digest) ↔
        ∀ path, before.get? path ≠ after.get? path → path.all isScalar = true)) ∧
    (∀ s t digest, IsSnapshot s → IsSnapshot t →
      (NoCollision fun raw => raw = snapshotPayload s ∨ raw = snapshotPayload t) →
      snapshotFingerprint s = some digest → snapshotFingerprint t = some digest →
      ∀ path, s.get? path = t.get? path) ∧
    ∀ before after before' after' digest,
      (NoCollision fun raw =>
        raw = diffPayload before after ∨ raw = diffPayload before' after') →
      diffFingerprint before after = some digest →
      diffFingerprint before' after' = some digest →
      changes before after = changes before' after' := by
  refine ⟨?_, ?_, ?_, ?_, ?_⟩
  · exact fun s => isSnapshot_snapshotWorkspace
  · exact fun s => exists_snapshotFingerprint
  · exact fun before after => exists_diffFingerprint
  · exact fun s t digest hs ht hcol hds hdt => snapshotFingerprint_inj hs ht hcol hds hdt
  · exact fun before after before' after' digest hcol hd hd' => diffFingerprint_inj hcol hd hd'

/-! ## Names that are not UTF-8 -/

/-- A name has a surrogate when its bytes are not UTF-8. -/
theorem all_isScalar_fsdecode {b : Bytes} :
    (fsdecode b).all isScalar = true ↔ ∃ s, decode b = some s := by
  rw [fsdecode, fsdecodeUpTo, decode]
  have hprefix := isScalar_decodePrefix b
  generalize decodePrefix b = r at hprefix ⊢
  obtain ⟨s, rest⟩ := r
  cases rest with
  | nil => simpa using hprefix
  | cons x rest => simp [isScalar]

/-- `café` in Latin-1. -/
def latinFile : List (Bytes × WorkNode) :=
  [([0x63, 0x61, 0x66, 0xE9], .file 0o644 [])]

/-- The snapshot of the directory has no fingerprint, and the new file none either. -/
theorem latinFile_noFingerprint : ∃ s, snapshotWorkspace latinFile = .ok s ∧
    snapshotFingerprint s = none ∧ diffFingerprint [] s = none := by
  have hscan : snapshotWorkspace latinFile = .ok
      [(fsdecode [0x63, 0x61, 0x66, 0xE9], entryHash "file" "100644" [])] := rfl
  have hname : (fsdecode [0x63, 0x61, 0x66, 0xE9]).all isScalar = false := by decide
  have hs := isSnapshot_snapshotWorkspace hscan
  refine ⟨_, hscan, ?_, ?_⟩
  · rw [Option.eq_none_iff_forall_ne_some]
    intro digest h
    have hall := (exists_snapshotFingerprint hs).mp ⟨digest, h⟩ _ List.mem_cons_self
    rw [hname] at hall
    cases hall
  · rw [Option.eq_none_iff_forall_ne_some]
    intro digest h
    have hall := (exists_diffFingerprint .nil hs).mp ⟨digest, h⟩
      (fsdecode [0x63, 0x61, 0x66, 0xE9]) (by simp [Dict.get?])
    rw [hname] at hall
    cases hall

end WorkspaceSnapshot

end Icode
