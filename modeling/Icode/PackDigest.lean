import Icode.PackRules
import Icode.WorkspaceSnapshot

/-!
# What the digest of a package says

`pack_digest` sorts the entries of a manifest by their paths and digests them as JSON. Without a
collision two lists of entries that `verify_pack` admits have one digest exactly when they list the
same files with the same digests (`packDigest_eq_iff`).
-/

namespace Icode

open Py

/-- What `verify_pack` keeps of a manifest : the paths are distinct, and no text has a surrogate. -/
structure Admitted (entries : List FileEntry) : Prop where
  paths : (entries.map FileEntry.path).Nodup
  texts : ∀ e ∈ entries, e.path.all isScalar = true ∧ e.sha256.all isScalar = true

/-- The path and the digest of an entry. -/
def FileEntry.pair (e : FileEntry) : PyStr × PyStr :=
  (e.path, e.sha256)

/-- An item of `material`. -/
def packEntry (m : PyStr × PyStr) : Json :=
  .obj [("path", .str m.1), ("sha256", .str m.2)]

/-- `material` -/
def packMaterial (entries : List FileEntry) : List (PyStr × PyStr) :=
  (entries.insertionSort fun a b => strLe a.path b.path).map FileEntry.pair

/-- `raw.encode("utf-8")`, with a surrogate let through. -/
def packPayload (entries : List FileEntry) : Bytes :=
  encodePass (Json.dumps (.arr ((packMaterial entries).map packEntry)))

/-- `pack_digest`, where a surrogate raises `UnicodeEncodeError`. -/
def packDigestOrRaise (entries : List FileEntry) : Option PyStr :=
  (encode (Json.dumps (.arr ((packMaterial entries).map packEntry)))).map sha256

/-! ## The entries of a manifest -/

theorem encodable_get {ms : Members} (h : (Json.obj ms).Encodable) (key : PyStr) :
    (ms.get key).Encodable := by
  cases hget : Dict.get? ms key with
  | none =>
    rw [Members.get, hget]
    trivial
  | some v =>
    rw [Members.get, hget]
    exact (Json.encodable_obj.mp h _ (Dict.mem_of_get? hget)).2

/-- The entry of an item is new. -/
theorem path_notMem_of_fileEntry {seen : List PyStr} {i : ℕ} {item : Json} {e : FileEntry}
    (h : fileEntry seen i item = .ok e) : e.path ∉ seen := by
  unfold fileEntry at h
  split at h
  · split at h
    · split_ifs at h with hseen
      obtain rfl := Except.ok.inj h
      rwa [List.contains_iff_mem] at hseen
    · cases h
  · cases h

theorem paths_fileEntries : ∀ (items : List Json) (seen : List PyStr) (i : ℕ),
    ((fileEntries seen i items).2.map FileEntry.path).Nodup ∧
      ∀ e ∈ (fileEntries seen i items).2, e.path ∉ seen
  | [], _, _ => by simp [fileEntries]
  | item :: items, seen, i => by
    rw [fileEntries]
    split
    · exact paths_fileEntries items seen (i + 1)
    · next entry hentry =>
      obtain ⟨hnodup, hnew⟩ := paths_fileEntries items (entry.path :: seen) (i + 1)
      refine ⟨List.nodup_cons.mpr ⟨fun hmem => ?_, hnodup⟩, List.forall_mem_cons.mpr
        ⟨path_notMem_of_fileEntry hentry, fun e he hseen => ?_⟩⟩
      · obtain ⟨e, he, hpath⟩ := List.mem_map.mp hmem
        exact hnew e he (by simp [hpath])
      · exact hnew e he (List.mem_cons_of_mem _ hseen)

/-- The files of a manifest that can be encoded can be encoded. -/
theorem encodable_manifestFiles {manifest : Members} (h : (Json.obj manifest).Encodable) :
    ∀ item ∈ (manifestFiles manifest).2, item.Encodable := by
  intro item hitem
  have hfiles := encodable_get h "files"
  cases hget : manifest.get "files" with
  | arr files =>
    rw [hget, Json.encodable_arr] at hfiles
    simp only [manifestFiles, hget] at hitem
    split_ifs at hitem
    · cases hitem
    · exact hfiles item hitem
  | _ => simp [manifestFiles, hget] at hitem

/-- The entries of a manifest that was read are admitted. -/
theorem admitted_manifestEntries {text : PyStr} {manifest : Members}
    (h : loadsJsonValue text = .ok (.obj manifest)) : Admitted (manifestEntries manifest).2 where
  paths := (paths_fileEntries (manifestFiles manifest).2 [] 1).1
  texts := by
    intro e he
    obtain ⟨ms, hms, hpath, hdigest⟩ := mem_fileEntries he
    have henc := encodable_manifestFiles (loadsJsonValue_encodable h) _ hms
    have hencPath := encodable_get henc "path"
    have hencDigest := encodable_get henc "sha256"
    rw [hpath] at hencPath
    rw [hdigest] at hencDigest
    exact ⟨hencPath, hencDigest⟩

/-! ## The material -/

theorem packMaterial_perm (entries : List FileEntry) :
    (packMaterial entries).Perm (entries.map FileEntry.pair) :=
  (List.perm_insertionSort _ entries).map _

/-- The material is in the order of its paths. -/
theorem pairwise_packMaterial (entries : List FileEntry) :
    (packMaterial entries).Pairwise fun a b => strLe a.1 b.1 = true := by
  have : Std.Total fun a b : FileEntry => strLe a.path b.path = true :=
    ⟨fun a b => strLe_total a.path b.path⟩
  have : IsTrans FileEntry fun a b => strLe a.path b.path = true :=
    ⟨fun _ _ _ => strLe_trans⟩
  exact List.pairwise_map.mpr
    (List.pairwise_insertionSort (fun a b : FileEntry => strLe a.path b.path = true) entries)

/-- Lists with the same pairs have one material. -/
theorem packMaterial_eq {xs ys : List FileEntry} (hx : (xs.map FileEntry.path).Nodup)
    (hy : (ys.map FileEntry.path).Nodup)
    (h : ∀ m, m ∈ xs.map FileEntry.pair ↔ m ∈ ys.map FileEntry.pair) :
    packMaterial xs = packMaterial ys := by
  have hkeys : ∀ entries : List FileEntry,
      (entries.map FileEntry.pair).map Prod.fst = entries.map FileEntry.path := fun entries => by
    rw [List.map_map]
    rfl
  have hpairs : ∀ {entries : List FileEntry}, (entries.map FileEntry.path).Nodup →
      (entries.map FileEntry.pair).Nodup := fun {entries} hnodup =>
    List.Nodup.of_map Prod.fst ((hkeys entries).symm ▸ hnodup)
  have hperm : (packMaterial xs).Perm (packMaterial ys) :=
    (packMaterial_perm xs).trans (((List.perm_ext_iff_of_nodup (hpairs hx) (hpairs hy)).mpr h).trans
      (packMaterial_perm ys).symm)
  refine hperm.eq_of_pairwise ?_ (pairwise_packMaterial xs) (pairwise_packMaterial ys)
  intro a b ha hb hab hba
  have hpath : a.1 = b.1 := strLe_antisymm hab hba
  have ha' : a ∈ xs.map FileEntry.pair := (packMaterial_perm xs).subset ha
  have hb' : b ∈ xs.map FileEntry.pair := (h b).mpr ((packMaterial_perm ys).subset hb)
  exact List.inj_on_of_nodup_map ((hkeys xs).symm ▸ hx) ha' hb' hpath

/-! ## The digest -/

theorem packDigest_eq (entries : List FileEntry) :
    packDigest entries = sha256 (packPayload entries) := by
  rw [packDigest, packPayload, packMaterial, List.map_map]
  rfl

/-- The digest of entries that are admitted is given. -/
theorem packDigestOrRaise_eq {entries : List FileEntry} (h : Admitted entries) :
    packDigestOrRaise entries = some (packDigest entries) := by
  have henc : ∀ item ∈ (packMaterial entries).map packEntry, item.Encodable := by
    intro item hitem
    obtain ⟨m, hm, rfl⟩ := List.mem_map.mp hitem
    obtain ⟨e, he, rfl⟩ := List.mem_map.mp ((packMaterial_perm entries).subset hm)
    obtain ⟨hpath, hdigest⟩ := h.texts e he
    have hkeys : (lit "path").all isScalar = true ∧ (lit "sha256").all isScalar = true := by
      decide
    rw [packEntry, Json.encodable_obj]
    exact List.forall_mem_cons.mpr ⟨⟨hkeys.1, hpath⟩, List.forall_mem_singleton.mpr
      ⟨hkeys.2, hdigest⟩⟩
  rw [packDigest_eq]
  exact WorkspaceSnapshot.fingerprint_eq_some.mpr ⟨henc, rfl⟩

/-- Without a collision the digests of two lists that are admitted are equal exactly if the lists
have the same paths and digests. -/
theorem packDigest_eq_iff {xs ys : List FileEntry} (hx : Admitted xs) (hy : Admitted ys)
    (hcol : NoCollision fun raw => raw = packPayload xs ∨ raw = packPayload ys) :
    ∃ d e, packDigestOrRaise xs = some d ∧ packDigestOrRaise ys = some e ∧
      (d = e ↔ ∀ m, m ∈ xs.map FileEntry.pair ↔ m ∈ ys.map FileEntry.pair) := by
  refine ⟨_, _, packDigestOrRaise_eq hx, packDigestOrRaise_eq hy, fun h => ?_, fun h => ?_⟩
  · have hsame := WorkspaceSnapshot.same_of_fingerprint hcol (packDigestOrRaise_eq hx)
      (h ▸ packDigestOrRaise_eq hy)
    have hmaterial : packMaterial xs = packMaterial ys :=
      WorkspaceSnapshot.eq_of_forall₂_same (p := fun _ => True)
        (fun _ _ _ _ => WorkspaceSnapshot.snapshotEntry_inj) (fun _ _ => trivial)
        (fun _ _ => trivial) hsame
    intro m
    rw [← (packMaterial_perm xs).mem_iff, hmaterial, (packMaterial_perm ys).mem_iff]
  · rw [packDigest_eq, packDigest_eq, packPayload, packPayload, packMaterial_eq hx.paths hy.paths h]

/-- Two entries. -/
def sampleEntries : List FileEntry :=
  [⟨lit "a", lit "1", .null⟩, ⟨lit "b", lit "2", .int 3⟩]

/-- The order of two entries does not count. -/
theorem packDigest_eq_iff_reverse :
    ∃ d e, packDigestOrRaise sampleEntries = some d ∧
      packDigestOrRaise sampleEntries.reverse = some e ∧
      (d = e ↔ ∀ m, m ∈ sampleEntries.map FileEntry.pair ↔
        m ∈ sampleEntries.reverse.map FileEntry.pair) := by
  have hadmitted : Admitted sampleEntries := ⟨by decide, by decide⟩
  have hreverse : Admitted sampleEntries.reverse := ⟨by decide, by decide⟩
  have hpayload : packPayload sampleEntries.reverse = packPayload sampleEntries := by
    have hmaterial : packMaterial sampleEntries.reverse = packMaterial sampleEntries := by
      decide
    rw [packPayload, packPayload, hmaterial]
  refine packDigest_eq_iff hadmitted hreverse fun x y hx hy _ => ?_
  rw [hpayload, or_self] at hx hy
  rw [hx, hy]

end Icode
