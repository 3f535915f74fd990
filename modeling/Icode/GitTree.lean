import Icode.JsonDumps
import Icode.Sha1
import Mathlib.Data.List.Lex
import Mathlib.Data.List.Sort

/-!
# Git trees

A tree object is the list of its entries, each a mode, a name and the id of a file or of another
tree, in an order that compares a directory as if its name ended in `/` (`baseNameCompare`). The id
of an object is the digest of its header and its body.

The body is read back one way (`treeBody_inj`), so that without a collision the id of a tree fixes
its entries (`mem_entries_of_treeId`) and, through the ids of its subtrees, the path, the mode and
the id of every file (`files_of_id`).
-/

/-! ## Sorting by a key -/

section Sorting

variable {α κ : Type*} [LinearOrder κ] {xs ys : List α}

/-- Lists with the same elements sort alike when the keys tell the elements apart. -/
theorem List.insertionSort_eq_of_perm (key : α → κ)
    (hinj : ∀ x ∈ xs, ∀ y ∈ xs, key x = key y → x = y) (h : xs.Perm ys) :
    xs.insertionSort (fun a b => key a ≤ key b) = ys.insertionSort fun a b => key a ≤ key b := by
  have htotal : Std.Total fun a b => key a ≤ key b := ⟨fun a b => le_total (key a) (key b)⟩
  have htrans : IsTrans α fun a b => key a ≤ key b := ⟨fun _ _ _ => le_trans⟩
  have hperm : (xs.insertionSort fun a b => key a ≤ key b).Perm
      (ys.insertionSort fun a b => key a ≤ key b) :=
    (List.perm_insertionSort _ xs).trans (h.trans (List.perm_insertionSort _ ys).symm)
  refine hperm.eq_of_pairwise ?_ (List.pairwise_insertionSort _ xs)
    (List.pairwise_insertionSort _ ys)
  intro x y hx hy hxy hyx
  rw [List.mem_insertionSort] at hx hy
  exact hinj x hx y (h.mem_iff.mpr hy) (le_antisymm hxy hyx)

/-- Orders that agree on the elements of a list sort it alike. -/
theorem List.insertionSort_congr {r s : α → α → Prop} [DecidableRel r] [DecidableRel s]
    (h : ∀ a ∈ xs, ∀ b ∈ xs, r a b ↔ s a b) : xs.insertionSort r = xs.insertionSort s := by
  have hmap := List.map_insertionSort r s id xs h
  rwa [List.map_id, List.map_id] at hmap

end Sorting

namespace Git

open Py

/-! ## Objects -/

/-- The hash of a repository. -/
inductive ObjectFormat where
  | sha1
  | sha256
  deriving DecidableEq

/-- The digest of the hash. -/
def ObjectFormat.digest : ObjectFormat → Bytes → Bytes
  | .sha1 => sha1Digest
  | .sha256 => sha256Digest

/-- The length of an id. -/
def ObjectFormat.size : ObjectFormat → ℕ
  | .sha1 => 20
  | .sha256 => 32

theorem ObjectFormat.length_digest (format : ObjectFormat) (data : Bytes) :
    (format.digest data).length = format.size := by
  cases format with
  | sha1 => exact length_sha1Digest data
  | sha256 => exact length_sha256Digest data

/-- The digest has no collision among the byte strings of `p`. -/
def ObjectFormat.NoCollision (format : ObjectFormat) (p : Bytes → Prop) : Prop :=
  ∀ x y, p x → p y → format.digest x = format.digest y → x = y

/-- The kind, the length of the body, and the body. -/
def objectBytes (kind : String) (body : Bytes) : Bytes :=
  encodePass (lit kind ++ .scalar ' ' :: ofChars (intText body.length)) ++ 0 :: body

/-- The id of a file. -/
def blobId (format : ObjectFormat) (content : Bytes) : Bytes :=
  format.digest (objectBytes "blob" content)

/-- The mode of a file. -/
inductive FileMode where
  | regular
  | executable
  | symlink
  deriving DecidableEq

/-- The mode of an entry. -/
inductive EntryMode where
  | tree
  | file (mode : FileMode)
  deriving DecidableEq

/-- The octal digits of the mode. -/
def EntryMode.text : EntryMode → Bytes
  | .tree => encodePass (lit "40000")
  | .file .regular => encodePass (lit "100644")
  | .file .executable => encodePass (lit "100755")
  | .file .symlink => encodePass (lit "120000")

/-- An entry of a tree object. -/
@[ext]
structure TreeEntry where
  name : Bytes
  mode : EntryMode
  oid : Bytes
  deriving DecidableEq

def TreeEntry.isDirectory (e : TreeEntry) : Bool :=
  e.mode == .tree

/-- The mode, the name and the id. -/
def TreeEntry.encode (e : TreeEntry) : Bytes :=
  e.mode.text ++ 0x20 :: (e.name ++ 0 :: e.oid)

def treeBody (entries : List TreeEntry) : Bytes :=
  entries.flatMap TreeEntry.encode

/-- The name has no zero byte and no slash. -/
def IsName (name : Bytes) : Prop :=
  0 ∉ name ∧ 0x2F ∉ name

/-- The body can be read back: the name is one, and the id has the length of an id. -/
structure TreeEntry.Wf (size : ℕ) (e : TreeEntry) : Prop where
  name : IsName e.name
  oid : e.oid.length = size

/-! ## Reading back -/

/-- A list is cut at the first mark in one way. -/
theorem append_mark_inj {α : Type*} {mark : α} : ∀ {a b r s : List α}, mark ∉ a → mark ∉ b →
    a ++ mark :: r = b ++ mark :: s → a = b ∧ r = s
  | [], [], r, s, _, _, h => ⟨rfl, (List.cons.inj h).2⟩
  | [], y :: b, r, s, _, hb, h => absurd (List.cons.inj h).1 (by simp at hb; exact hb.1)
  | x :: a, [], r, s, ha, _, h => absurd (List.cons.inj h).1.symm (by simp at ha; exact ha.1)
  | x :: a, y :: b, r, s, ha, hb, h => by
    obtain ⟨rfl, htail⟩ := List.cons.inj h
    simp only [List.mem_cons, not_or] at ha hb
    obtain ⟨rfl, rfl⟩ := append_mark_inj ha.2 hb.2 htail
    exact ⟨rfl, rfl⟩

theorem text_injective {m n : EntryMode} (h : m.text = n.text) : m = n := by
  cases m with
  | tree =>
    cases n with
    | tree => rfl
    | file n => cases n <;> exact absurd h (by decide)
  | file m =>
    cases n with
    | tree => cases m <;> exact absurd h (by decide)
    | file n => cases m <;> cases n <;> first | rfl | exact absurd h (by decide)

theorem space_notMem_text (m : EntryMode) : 0x20 ∉ m.text := by
  rcases m with _ | m
  · decide
  · cases m <;> decide

theorem encode_append_inj {size : ℕ} {e f : TreeEntry} {r s : Bytes} (he : e.Wf size)
    (hf : f.Wf size) (h : e.encode ++ r = f.encode ++ s) : e = f ∧ r = s := by
  obtain ⟨name, mode, oid⟩ := e
  obtain ⟨name', mode', oid'⟩ := f
  simp only [TreeEntry.encode, List.append_assoc, List.cons_append] at h
  obtain ⟨hmode, h⟩ := append_mark_inj (space_notMem_text mode) (space_notMem_text mode') h
  obtain ⟨hname, htail⟩ := append_mark_inj he.name.1 hf.name.1 h
  obtain ⟨hoid, hrest⟩ := List.append_inj htail (he.oid.trans hf.oid.symm)
  exact ⟨TreeEntry.ext hname (text_injective hmode) hoid, hrest⟩

/-- The body determines the entries. -/
theorem treeBody_inj {size : ℕ} : ∀ {es fs : List TreeEntry}, (∀ e ∈ es, e.Wf size) →
    (∀ f ∈ fs, f.Wf size) → treeBody es = treeBody fs → es = fs
  | [], [], _, _, _ => rfl
  | [], f :: fs, _, _, h => by
    simp [treeBody, TreeEntry.encode] at h
  | e :: es, [], _, _, h => by
    simp [treeBody, TreeEntry.encode] at h
  | e :: es, f :: fs, he, hf, h => by
    rw [List.forall_mem_cons] at he hf
    simp only [treeBody, List.flatMap_cons] at h
    obtain ⟨rfl, hrest⟩ := encode_append_inj he.1 hf.1 h
    rw [treeBody_inj he.2 hf.2 hrest]

/-- A zero byte is in the code of no other code point. -/
theorem zero_mem_utf8 {n : ℕ} (h : 0 ∈ utf8 n) : n = 0 := by
  unfold utf8 at h
  split_ifs at h <;> simp only [List.mem_cons, List.not_mem_nil, or_false] at h <;> omega

theorem zero_notMem_encodePass {s : PyStr} (h : ∀ c ∈ s, c.ord ≠ 0) :
    (0 : UInt8) ∉ encodePass s := by
  intro hmem
  obtain ⟨c, hc, hb⟩ := List.mem_flatMap.mp hmem
  obtain ⟨n, hn, hzero⟩ := List.mem_map.mp hb
  have hlt : n < 256 := utf8_lt c.ord_lt n hn
  have hn0 : n = 0 := by
    have := congrArg UInt8.toNat hzero
    rwa [UInt8.toNat_ofNat', Nat.mod_eq_of_lt hlt] at this
  exact h c hc (zero_mem_utf8 (hn0 ▸ hn))

/-- The header determines where the body starts. -/
theorem treeBytes_inj {a b : Bytes} (h : objectBytes "tree" a = objectBytes "tree" b) : a = b := by
  have hheader : ∀ n : ℕ, (0 : UInt8) ∉
      encodePass (lit "tree" ++ .scalar ' ' :: ofChars (intText n)) := by
    intro n
    refine zero_notMem_encodePass fun c hc => ?_
    rcases List.mem_append.mp hc with hc | hc
    · exact (by decide : ∀ c ∈ lit "tree", c.ord ≠ 0) c hc
    · rcases List.mem_cons.mp hc with rfl | hc
      · decide
      · obtain ⟨d, hd, rfl⟩ := List.mem_map.mp hc
        have hdigit := isIntChar_of_mem_intText hd
        intro hzero
        obtain rfl : d = Char.ofNat 0 := Char.toNat_inj.mp hzero
        exact absurd hdigit (by decide)
  exact (append_mark_inj (hheader _) (hheader _) h).2

/-! ## The order -/

/-- What follows the name: a slash for a directory. -/
def endOf (isDirectory : Bool) : ℕ :=
  if isDirectory then 0x2F else 0

/-- Git's `base_name_compare`: bytes, and after the shorter name what follows it. -/
def baseNameCompare : Bytes → Bool → Bytes → Bool → Ordering
  | [], d, [], d' => compare (endOf d) (endOf d')
  | [], d, b :: _, _ => compare (endOf d) b.toNat
  | a :: _, _, [], d' => compare a.toNat (endOf d')
  | a :: as, d, b :: bs, d' => (compare a.toNat b.toNat).then (baseNameCompare as d bs d')

/-- The entry comes before the other one, or is at its place. -/
def TreeEntry.le (e f : TreeEntry) : Prop :=
  baseNameCompare e.name e.isDirectory f.name f.isDirectory ≠ .gt

instance : DecidableRel TreeEntry.le := fun _ _ =>
  inferInstanceAs (Decidable (_ ≠ Ordering.gt))

theorem baseNameCompare_self (d : Bool) : ∀ a : Bytes, baseNameCompare a d a d = .eq
  | [] => compare_eq_iff_eq.mpr rfl
  | a :: as => by rw [baseNameCompare, compare_eq_iff_eq.mpr rfl, Ordering.then,
      baseNameCompare_self d as]

theorem TreeEntry.le_refl (e : TreeEntry) : e.le e := by
  rw [TreeEntry.le, baseNameCompare_self]
  exact nofun

/-- The name, with a slash at the end of that of a directory. -/
def sortKey (name : Bytes) (isDirectory : Bool) : List ℕ :=
  (name ++ if isDirectory then [0x2F] else []).map UInt8.toNat

theorem cons_le_cons {a b : ℕ} {as bs : List ℕ} :
    (a :: as) ≤ (b :: bs) ↔ a < b ∨ a = b ∧ as ≤ bs := by
  rw [← not_lt, List.cons_lt_cons_iff, ← not_lt]
  rcases lt_trichotomy a b with h | rfl | h
  · simp [h, h.not_gt, h.ne']
  · simp
  · simp [h, h.not_gt, h.ne']

theorem nil_le (bs : List ℕ) : [] ≤ bs := by
  rw [← not_lt]
  exact List.not_lt_nil bs

theorem not_cons_le_nil (b : ℕ) (bs : List ℕ) : ¬(b :: bs) ≤ [] := by
  rw [not_le]
  exact List.nil_lt_cons b bs

theorem compare_ne_gt {a b : ℕ} : compare a b ≠ .gt ↔ a ≤ b := by
  rw [ne_eq, compare_gt_iff_gt, not_lt]

theorem toNat_ne_of_isName {a : UInt8} {as : Bytes} (h : IsName (a :: as)) :
    a.toNat ≠ 0 ∧ a.toNat ≠ 0x2F := by
  simp only [IsName, List.mem_cons, not_or] at h
  exact ⟨fun h0 => h.1.1 (UInt8.toNat_inj.mp h0.symm), fun h0 => h.2.1 (UInt8.toNat_inj.mp h0.symm)⟩

/-- Different names compare as these texts. -/
theorem baseNameCompare_ne_gt : ∀ {a b : Bytes} {d d' : Bool}, IsName a → IsName b → a ≠ b →
    (baseNameCompare a d b d' ≠ .gt ↔ sortKey a d ≤ sortKey b d')
  | [], [], d, d', _, _, hne => absurd rfl hne
  | [], b :: bs, d, d', _, hb, _ => by
    obtain ⟨hzero, hslash⟩ := toNat_ne_of_isName hb
    rw [baseNameCompare, compare_ne_gt]
    cases d with
    | false =>
      simp only [endOf, sortKey, Bool.false_eq_true, if_false, List.append_nil, List.map_nil,
        Nat.zero_le, nil_le]
    | true =>
      simp only [endOf, sortKey, if_true, List.nil_append, List.map_cons, List.map_nil,
        List.cons_append, cons_le_cons, nil_le, and_true, UInt8.reduceToNat]
      omega
  | a :: as, [], d, d', ha, _, _ => by
    obtain ⟨hzero, hslash⟩ := toNat_ne_of_isName ha
    rw [baseNameCompare, compare_ne_gt]
    cases d' with
    | false =>
      simp only [endOf, sortKey, Bool.false_eq_true, if_false, List.append_nil, List.map_nil,
        List.map_cons, List.cons_append, not_cons_le_nil, iff_false]
      omega
    | true =>
      simp only [endOf, sortKey, if_true, List.nil_append, List.map_cons, List.map_nil,
        List.cons_append, cons_le_cons, UInt8.reduceToNat]
      omega
  | a :: as, b :: bs, d, d', ha, hb, hne => by
    have hkey : ∀ {x : UInt8} {xs : Bytes} {d : Bool},
        sortKey (x :: xs) d = x.toNat :: sortKey xs d := rfl
    rw [baseNameCompare, hkey, hkey, cons_le_cons]
    rcases lt_trichotomy a.toNat b.toNat with hlt | heq | hgt
    · rw [compare_lt_iff_lt.mpr hlt]
      exact iff_of_true nofun (.inl hlt)
    · obtain rfl := UInt8.toNat_inj.mp heq
      have hname : ∀ {x : UInt8} {xs : Bytes}, IsName (x :: xs) → IsName xs := fun h =>
        ⟨fun hmem => h.1 (List.mem_cons_of_mem _ hmem),
          fun hmem => h.2 (List.mem_cons_of_mem _ hmem)⟩
      have ih : baseNameCompare as d bs d' ≠ .gt ↔ sortKey as d ≤ sortKey bs d' :=
        baseNameCompare_ne_gt (hname ha) (hname hb) (fun h => hne (h ▸ rfl))
      rw [compare_eq_iff_eq.mpr rfl, Ordering.then, ih]
      simp
    · rw [compare_gt_iff_gt.mpr hgt]
      refine iff_of_false (fun h => h rfl) ?_
      rintro (h | ⟨h, -⟩) <;> omega

/-! ## Ids -/

/-- A file or a tree. -/
inductive GitNode where
  | blob (mode : FileMode) (oid : Bytes)
  | tree (entries : List (Bytes × GitNode))

def GitNode.mode : GitNode → EntryMode
  | .blob mode _ => .file mode
  | .tree _ => .tree

section Ids

variable (format : ObjectFormat)

/-- The tree object of the entries. -/
def treeObject (entries : List TreeEntry) : Bytes :=
  objectBytes "tree" (treeBody (entries.insertionSort TreeEntry.le))

mutual

/-- The id of a file or a tree. -/
def GitNode.id : GitNode → Bytes
  | .blob _ oid => oid
  | .tree es => format.digest (treeObject (entriesOf es))

/-- The entries of a tree. -/
def entriesOf : List (Bytes × GitNode) → List TreeEntry
  | [] => []
  | (name, node) :: es => ⟨name, node.mode, node.id⟩ :: entriesOf es

end

/-- The id of a tree. -/
def treeId (es : List (Bytes × GitNode)) : Bytes :=
  GitNode.id format (.tree es)

mutual

/-- The tree objects at and below a node. -/
def GitNode.objects : GitNode → List Bytes
  | .blob _ _ => []
  | .tree es => treeObject (entriesOf format es) :: objectsOf es

def objectsOf : List (Bytes × GitNode) → List Bytes
  | [] => []
  | (_, node) :: es => node.objects ++ objectsOf es

end

mutual

/-- The names are names, and the ids have the length of an id. -/
def GitNode.Wf : GitNode → Prop
  | .blob _ oid => oid.length = format.size
  | .tree es => EntriesWf es

def EntriesWf : List (Bytes × GitNode) → Prop
  | [] => True
  | (name, node) :: es => IsName name ∧ node.Wf ∧ EntriesWf es

end

end Ids

mutual

/-- The files at and below a node: the path, the mode and the id. -/
def GitNode.files (path : List Bytes) : GitNode → List (List Bytes × FileMode × Bytes)
  | .blob mode oid => [(path, mode, oid)]
  | .tree es => filesOf path es

def filesOf (path : List Bytes) : List (Bytes × GitNode) → List (List Bytes × FileMode × Bytes)
  | [] => []
  | (name, node) :: es => node.files (path ++ [name]) ++ filesOf path es

end

section

variable {format : ObjectFormat}

theorem entriesOf_eq (es : List (Bytes × GitNode)) :
    entriesOf format es = es.map fun e => ⟨e.1, e.2.mode, e.2.id format⟩ := by
  induction es with
  | nil => rfl
  | cons e es ih => rw [entriesOf, ih, List.map_cons]

theorem mem_objectsOf {es : List (Bytes × GitNode)} {x : Bytes} :
    x ∈ objectsOf format es ↔ ∃ e ∈ es, x ∈ e.2.objects format := by
  induction es with
  | nil => simp [objectsOf]
  | cons e es ih => simp [objectsOf, ih]

theorem entriesWf_iff {es : List (Bytes × GitNode)} :
    EntriesWf format es ↔ ∀ e ∈ es, IsName e.1 ∧ e.2.Wf format := by
  induction es with
  | nil => simp [EntriesWf]
  | cons e es ih => rw [EntriesWf, ih, List.forall_mem_cons, and_assoc]

theorem mem_filesOf {es : List (Bytes × GitNode)} {path : List Bytes}
    {x : List Bytes × FileMode × Bytes} :
    x ∈ filesOf path es ↔ ∃ e ∈ es, x ∈ e.2.files (path ++ [e.1]) := by
  induction es with
  | nil => simp [filesOf]
  | cons e es ih => simp [filesOf, ih]

theorem GitNode.Wf.length_id {node : GitNode} (h : node.Wf format) :
    (node.id format).length = format.size := by
  cases node with
  | blob mode oid => exact h
  | tree es => exact format.length_digest _

/-- Without a collision, the id of a tree fixes its entries. -/
theorem mem_entries_of_treeId {p : Bytes → Prop} (hcol : format.NoCollision p)
    {es fs : List (Bytes × GitNode)} (hes : EntriesWf format es) (hfs : EntriesWf format fs)
    (hpe : p (treeObject (entriesOf format es))) (hpf : p (treeObject (entriesOf format fs)))
    (h : treeId format es = treeId format fs) {e : TreeEntry} :
    e ∈ entriesOf format es ↔ e ∈ entriesOf format fs := by
  have hwf : ∀ {es : List (Bytes × GitNode)}, EntriesWf format es →
      ∀ e ∈ (entriesOf format es).insertionSort TreeEntry.le, e.Wf format.size := by
    intro es hes e he
    rw [List.mem_insertionSort, entriesOf_eq] at he
    obtain ⟨x, hx, rfl⟩ := List.mem_map.mp he
    obtain ⟨hname, hnode⟩ := entriesWf_iff.mp hes x hx
    exact ⟨hname, hnode.length_id⟩
  have hbody := treeBytes_inj (hcol _ _ hpe hpf h)
  have hsort := treeBody_inj (hwf hes) (hwf hfs) hbody
  rw [← List.mem_insertionSort TreeEntry.le (l := entriesOf format es), hsort,
    List.mem_insertionSort]

/-- An entry of the one tree is an entry of the other one. -/
theorem exists_entry_of_treeId {p : Bytes → Prop} (hcol : format.NoCollision p)
    {es fs : List (Bytes × GitNode)} (hes : EntriesWf format es) (hfs : EntriesWf format fs)
    (hpe : p (treeObject (entriesOf format es))) (hpf : p (treeObject (entriesOf format fs)))
    (h : treeId format es = treeId format fs) {e : Bytes × GitNode} (he : e ∈ es) :
    ∃ f ∈ fs, f.1 = e.1 ∧ f.2.mode = e.2.mode ∧ f.2.id format = e.2.id format := by
  have hmem : (⟨e.1, e.2.mode, e.2.id format⟩ : TreeEntry) ∈ entriesOf format es := by
    rw [entriesOf_eq]
    exact List.mem_map_of_mem he
  rw [mem_entries_of_treeId hcol hes hfs hpe hpf h, entriesOf_eq] at hmem
  obtain ⟨f, hf, heq⟩ := List.mem_map.mp hmem
  obtain ⟨hname, hmode, hid⟩ := TreeEntry.mk.inj heq
  exact ⟨f, hf, hname, hmode, hid⟩

mutual

/-- Without a collision, nodes with one mode and one id have the same files. -/
theorem files_subset_of_id {p : Bytes → Prop} (hcol : format.NoCollision p) :
    ∀ (node node' : GitNode) (path : List Bytes), node.Wf format → node'.Wf format →
      (∀ x ∈ node.objects format, p x) → (∀ x ∈ node'.objects format, p x) →
      node.mode = node'.mode → node.id format = node'.id format →
      node.files path ⊆ node'.files path
  | .blob mode oid, .blob mode' oid', path, _, _, _, _, hmode, hid => by
    obtain rfl := EntryMode.file.inj hmode
    obtain rfl : oid = oid' := hid
    exact fun x hx => hx
  | .blob _ _, .tree _, _, _, _, _, _, hmode, _ => by cases hmode
  | .tree _, .blob _ _, _, _, _, _, _, hmode, _ => by cases hmode
  | .tree es, .tree fs, path, hwf, hwf', hp, hp', _, hid => by
    intro x hx
    obtain ⟨e, he, hxe⟩ := mem_filesOf.mp hx
    have hpe := hp _ List.mem_cons_self
    have hpf := hp' _ List.mem_cons_self
    obtain ⟨f, hf, hname, hmode, hid⟩ :=
      exists_entry_of_treeId hcol hwf hwf' hpe hpf hid he
    refine mem_filesOf.mpr ⟨f, hf, ?_⟩
    rw [hname]
    refine filesOf_subset_of_id hcol es e he f.2 (path ++ [e.1]) (entriesWf_iff.mp hwf e he).2
      (entriesWf_iff.mp hwf' f hf).2 ?_ ?_ hmode.symm hid.symm hxe
    · exact fun y hy => hp y (List.mem_cons_of_mem _ (mem_objectsOf.mpr ⟨e, he, hy⟩))
    · exact fun y hy => hp' y (List.mem_cons_of_mem _ (mem_objectsOf.mpr ⟨f, hf, hy⟩))

theorem filesOf_subset_of_id {p : Bytes → Prop} (hcol : format.NoCollision p) :
    ∀ (es : List (Bytes × GitNode)), ∀ e ∈ es, ∀ (node' : GitNode) (path : List Bytes),
      e.2.Wf format → node'.Wf format → (∀ x ∈ e.2.objects format, p x) →
      (∀ x ∈ node'.objects format, p x) → e.2.mode = node'.mode →
      e.2.id format = node'.id format → e.2.files path ⊆ node'.files path
  | [] => by simp
  | (_, node) :: es => by
    rw [List.forall_mem_cons]
    exact ⟨files_subset_of_id hcol node, filesOf_subset_of_id hcol es⟩

end

/-- Without a collision, trees with one id have the same paths, modes and ids of files. -/
theorem files_of_id {p : Bytes → Prop} (hcol : format.NoCollision p)
    {es fs : List (Bytes × GitNode)} (hes : EntriesWf format es) (hfs : EntriesWf format fs)
    (hpe : ∀ x ∈ (GitNode.tree es).objects format, p x)
    (hpf : ∀ x ∈ (GitNode.tree fs).objects format, p x)
    (h : treeId format es = treeId format fs) (x : List Bytes × FileMode × Bytes) :
    x ∈ filesOf [] es ↔ x ∈ filesOf [] fs :=
  ⟨fun hx => files_subset_of_id hcol (.tree es) (.tree fs) [] hes hfs hpe hpf rfl h hx,
    fun hx => files_subset_of_id hcol (.tree fs) (.tree es) [] hfs hes hpf hpe rfl h.symm hx⟩

end

end Git
