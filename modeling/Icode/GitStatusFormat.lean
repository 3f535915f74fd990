import Icode.GitStatus

/-!
# The status parser reads the status format

Each check of the parser takes exactly the values of one type of the format
(`validateMode_eq_ok` and its siblings), so a record is accepted exactly when it is that
of an entry (`parseOrdinary_eq_ok`, `parseRenamed_eq_ok`, `parseUnmerged_eq_ok`). The
loop takes one entry at a time (`exists_item`, `parseRecords_item`).

`parsePorcelainV2_eq_ok_iff` : the parser accepts exactly the rendered streams and gives
their entries in order, so a stream that is cut or has a malformed field is refused as a
whole.
-/

namespace Icode.GitStatus

open Py Separated

/-! ## Fields -/

@[simp] theorem validateMode_eq_ok {value : Bytes} {u : Unit} :
    validateMode value = .ok u ↔ ∃ mode : Mode, mode.bytes = value := by
  rw [validateMode, require_eq_ok]
  constructor
  · intro h
    simp only [modes, List.map_cons, List.map_nil, List.contains_eq_mem, List.mem_cons,
      List.not_mem_nil, or_false, decide_eq_true_eq] at h
    rcases h with h | h | h | h | h | h
    · exact ⟨.absent, h.symm⟩
    · exact ⟨.tree, h.symm⟩
    · exact ⟨.file, h.symm⟩
    · exact ⟨.executable, h.symm⟩
    · exact ⟨.symlink, h.symm⟩
    · exact ⟨.gitlink, h.symm⟩
  · rintro ⟨mode, rfl⟩
    cases mode <;> rfl

@[simp] theorem validateSubmodule_eq_ok {value : Bytes} {u : Unit} :
    validateSubmodule value = .ok u ↔ ∃ submodule : Submodule, submodule.bytes = value := by
  constructor
  · intro h
    unfold validateSubmodule at h
    split_ifs at h with hnone
    · exact ⟨.none, hnone.symm⟩
    · split at h
      · next s c m u =>
        simp only [require_eq_ok, Bool.and_eq_true, Bool.or_eq_true, beq_iff_eq] at h
        obtain ⟨⟨⟨rfl, hc⟩, hm⟩, hu⟩ := h
        refine ⟨.state (c = 0x43) (m = 0x4D) (u = 0x55), ?_⟩
        rcases hc with rfl | rfl <;> rcases hm with rfl | rfl <;> rcases hu with rfl | rfl <;> rfl
      · cases h
  · rintro ⟨submodule, rfl⟩
    rcases submodule with _ | ⟨_ | _, _ | _, _ | _⟩ <;> rfl

/-- The bytes that a digit can have are those the check takes. -/
theorem all_eq_true_iff {n : ℕ} {ok : UInt8 → Bool} {byte : Fin n → UInt8}
    (h : ∀ b, ok b = true ↔ ∃ d, byte d = b) {value : Bytes} :
    value.all ok = true ↔ ∃ digits : List (Fin n), digits.map byte = value := by
  have hrange : (∃ digits : List (Fin n), digits.map byte = value) ↔
      value ∈ Set.range (List.map byte) := Iff.rfl
  rw [hrange, Set.range_list_map, List.all_eq_true]
  exact forall₂_congr fun b _ => h b

theorem isHexByte_iff (b : UInt8) : isHexByte b = true ↔ ∃ d, hexByte d = b := by
  constructor
  · intro h
    simp only [isHexByte, Bool.or_eq_true, Bool.and_eq_true, decide_eq_true_eq] at h
    rcases h with h | h
    · refine ⟨⟨b.toNat - 48, by omega⟩, ?_⟩
      have hd : b.toNat - 48 < 10 := by omega
      rw [hexByte, if_pos hd]
      exact UInt8.toNat_inj.mp (by simp; omega)
    · refine ⟨⟨b.toNat - 87, by omega⟩, ?_⟩
      have hd : ¬b.toNat - 87 < 10 := by omega
      rw [hexByte, if_neg hd]
      exact UInt8.toNat_inj.mp (by simp; omega)
  · rintro ⟨d, rfl⟩
    revert d
    decide

theorem isDigitByte_iff (b : UInt8) : isDigitByte b = true ↔ ∃ d, digitByte d = b := by
  constructor
  · intro h
    simp only [isDigitByte, Bool.and_eq_true, decide_eq_true_eq] at h
    exact ⟨⟨b.toNat - 48, by omega⟩, UInt8.toNat_inj.mp (by simp [digitByte]; omega)⟩
  · rintro ⟨d, rfl⟩
    revert d
    decide

@[simp] theorem validateObjectId_eq_ok {value : Bytes} {u : Unit} :
    validateObjectId value = .ok u ↔ ∃ id : ObjectId, id.bytes = value := by
  rw [validateObjectId, require_eq_ok, Bool.and_eq_true, all_eq_true_iff isHexByte_iff]
  constructor
  · rintro ⟨hlength, digits, rfl⟩
    exact ⟨⟨digits, by simpa using hlength⟩, rfl⟩
  · rintro ⟨id, rfl⟩
    exact ⟨by simpa [ObjectId.bytes] using id.length, id.digits, rfl⟩

@[simp] theorem requirePath_eq_ok {value : Bytes} {u : Unit} :
    requirePath value = .ok u ↔ value ≠ [] := by
  cases value <;> simp [requirePath]

/-! ## Status letters -/

theorem contains_staged {x : CodePoint} :
    (lit "MTARC").contains x = true ↔ ∃ index : Staged, index.letter = x := by
  have hlit : lit "MTARC" = ['M', 'T', 'A', 'R', 'C'].map .scalar := rfl
  simp only [hlit, List.map_cons, List.map_nil, List.contains_eq_mem, List.mem_cons,
    List.not_mem_nil, or_false, decide_eq_true_eq]
  constructor
  · rintro (rfl | rfl | rfl | rfl | rfl)
    exacts [⟨.modified, rfl⟩, ⟨.typeChanged, rfl⟩, ⟨.added, rfl⟩, ⟨.renamed, rfl⟩, ⟨.copied, rfl⟩]
  · rintro ⟨_ | _ | _ | _ | _, rfl⟩ <;> simp [Staged.letter]

theorem contains_later {y : CodePoint} :
    (lit ".MTD").contains y = true ↔ ∃ worktree : Later, worktree.letter = y := by
  have hlit : lit ".MTD" = ['.', 'M', 'T', 'D'].map .scalar := rfl
  simp only [hlit, List.map_cons, List.map_nil, List.contains_eq_mem, List.mem_cons,
    List.not_mem_nil, or_false, decide_eq_true_eq]
  constructor
  · rintro (rfl | rfl | rfl | rfl)
    exacts [⟨.unchanged, rfl⟩, ⟨.modified, rfl⟩, ⟨.typeChanged, rfl⟩, ⟨.deleted, rfl⟩]
  · rintro ⟨_ | _ | _ | _, rfl⟩ <;> simp [Later.letter]

theorem contains_unstaged {y : CodePoint} :
    (lit "MTDRCA").contains y = true ↔ ∃ worktree : Unstaged, worktree.letter = y := by
  have hlit : lit "MTDRCA" = ['M', 'T', 'D', 'R', 'C', 'A'].map .scalar := rfl
  simp only [hlit, List.map_cons, List.map_nil, List.contains_eq_mem, List.mem_cons,
    List.not_mem_nil, or_false, decide_eq_true_eq]
  constructor
  · rintro (rfl | rfl | rfl | rfl | rfl | rfl)
    exacts [⟨.modified, rfl⟩, ⟨.typeChanged, rfl⟩, ⟨.deleted, rfl⟩, ⟨.renamed, rfl⟩,
      ⟨.copied, rfl⟩, ⟨.added, rfl⟩]
  · rintro ⟨_ | _ | _ | _ | _ | _, rfl⟩ <;> simp [Unstaged.letter]

/-- The check of a tracked pair takes the documented pairs. -/
theorem exists_trackedStatus {x y : CodePoint} :
    (((lit "MTARC").contains x && (lit ".MTD").contains y) ||
      (x == .scalar 'D' && y == .scalar '.') ||
      (x == .scalar '.' && (lit "MTDRCA").contains y)) = true ↔
      ∃ status : TrackedStatus, status.letters = (x, y) := by
  rw [Bool.or_eq_true, Bool.or_eq_true, Bool.and_eq_true, Bool.and_eq_true, Bool.and_eq_true,
    contains_staged, contains_later, contains_unstaged, beq_iff_eq, beq_iff_eq, beq_iff_eq]
  constructor
  · rintro ((⟨⟨index, rfl⟩, worktree, rfl⟩ | ⟨rfl, rfl⟩) | ⟨rfl, worktree, rfl⟩)
    exacts [⟨.staged index worktree, rfl⟩, ⟨.removed, rfl⟩, ⟨.unstaged worktree, rfl⟩]
  · rintro ⟨index | _ | worktree, h⟩ <;> obtain ⟨rfl, rfl⟩ := Prod.mk.inj h
    · exact .inl (.inl ⟨⟨_, rfl⟩, _, rfl⟩)
    · exact .inl (.inr ⟨rfl, rfl⟩)
    · exact .inr ⟨rfl, _, rfl⟩

/-- The check of an unmerged pair takes the documented pairs. -/
theorem exists_unmergedStatus {x y : CodePoint} :
    unmergedStatuses.contains [x, y] = true ↔
      ∃ status : UnmergedStatus, status.letters = (x, y) := by
  have hlit : unmergedStatuses = [[.scalar 'D', .scalar 'D'], [.scalar 'A', .scalar 'U'],
      [.scalar 'U', .scalar 'D'], [.scalar 'U', .scalar 'A'], [.scalar 'D', .scalar 'U'],
      [.scalar 'A', .scalar 'A'], [.scalar 'U', .scalar 'U']] := rfl
  simp only [hlit, List.contains_eq_mem, List.mem_cons, List.not_mem_nil, or_false,
    decide_eq_true_eq, List.cons.injEq, and_true]
  constructor
  · rintro (⟨rfl, rfl⟩ | ⟨rfl, rfl⟩ | ⟨rfl, rfl⟩ | ⟨rfl, rfl⟩ | ⟨rfl, rfl⟩ | ⟨rfl, rfl⟩ |
      ⟨rfl, rfl⟩)
    exacts [⟨.bothDeleted, rfl⟩, ⟨.addedByUs, rfl⟩, ⟨.deletedByThem, rfl⟩, ⟨.addedByThem, rfl⟩,
      ⟨.deletedByUs, rfl⟩, ⟨.bothAdded, rfl⟩, ⟨.bothModified, rfl⟩]
  · rintro ⟨_ | _ | _ | _ | _ | _ | _, h⟩ <;> obtain ⟨rfl, rfl⟩ := Prod.mk.inj h <;> simp

/-- A pair that is read is what its field holds. -/
theorem statusPair_eq_ok {value : Bytes} {allowed : PyStr} {x y : CodePoint} :
    statusPair value allowed = .ok (x, y) ↔
      decodeAscii value = some [x, y] ∧ x ∈ allowed ∧ y ∈ allowed ∧ [x, y] ≠ lit ".." := by
  unfold statusPair
  rw [bind_eq_ok]
  constructor
  · rintro ⟨status, hstatus, h⟩
    split at h
    · next a b =>
      obtain ⟨_, hallowed, h⟩ := bind_eq_ok.mp h
      obtain ⟨_, hdots, h⟩ := bind_eq_ok.mp h
      obtain ⟨rfl, rfl⟩ := Prod.mk.inj (Except.ok.inj h)
      simp only [require_eq_ok, Bool.and_eq_true, List.contains_eq_mem, decide_eq_true_eq]
        at hallowed
      exact ⟨orRaise_eq_ok.mp hstatus, hallowed.1, hallowed.2, by simpa using hdots⟩
    · cases h
  · rintro ⟨hdecode, hx, hy, hdots⟩
    refine ⟨[x, y], orRaise_eq_ok.mpr hdecode, ?_⟩
    refine bind_eq_ok.mpr ⟨(), ?_, bind_eq_ok.mpr ⟨(), ?_, rfl⟩⟩
    · simp [hx, hy]
    · simpa using hdots

theorem TrackedStatus.decodeAscii_letters (status : TrackedStatus) :
    decodeAscii (lettersField status.letters) = some [status.letters.1, status.letters.2] := by
  rcases status with ⟨_ | _ | _ | _ | _, _ | _ | _ | _⟩ | _ | _ | _ | _ | _ | _ | _ <;> rfl

theorem UnmergedStatus.decodeAscii_letters (status : UnmergedStatus) :
    decodeAscii (lettersField status.letters) = some [status.letters.1, status.letters.2] := by
  cases status <;> rfl

/-! ## Records -/

/-- The check of the tracked fields takes exactly the documented ones. -/
theorem validateTrackedFields_eq_ok {xy sub m₁ m₂ m₃ h₁ h₂ : Bytes} {x y : CodePoint} :
    validateTrackedFields [xy, sub, m₁, m₂, m₃, h₁, h₂] = .ok (x, y) ↔
      ∃ t : Tracked, t.fields = [xy, sub, m₁, m₂, m₃, h₁, h₂] ∧ t.status.letters = (x, y) := by
  rw [validateTrackedFields, bind_eq_ok]
  constructor
  · rintro ⟨⟨x', y'⟩, hpair, h⟩
    obtain ⟨_, hstatus, h⟩ := bind_eq_ok.mp h
    obtain ⟨_, hsub, h⟩ := bind_eq_ok.mp h
    obtain ⟨_, hm₁, h⟩ := bind_eq_ok.mp h
    obtain ⟨_, hm₂, h⟩ := bind_eq_ok.mp h
    obtain ⟨_, hm₃, h⟩ := bind_eq_ok.mp h
    obtain ⟨_, hh₁, h⟩ := bind_eq_ok.mp h
    obtain ⟨_, hh₂, h⟩ := bind_eq_ok.mp h
    obtain ⟨rfl, rfl⟩ := Prod.mk.inj (Except.ok.inj h)
    obtain ⟨status, hletters⟩ := (exists_trackedStatus).mp (require_eq_ok.mp hstatus)
    obtain ⟨submodule, rfl⟩ := (validateSubmodule_eq_ok).mp hsub
    obtain ⟨modeHead, rfl⟩ := (validateMode_eq_ok).mp hm₁
    obtain ⟨modeIndex, rfl⟩ := (validateMode_eq_ok).mp hm₂
    obtain ⟨modeWorktree, rfl⟩ := (validateMode_eq_ok).mp hm₃
    obtain ⟨objectHead, rfl⟩ := (validateObjectId_eq_ok).mp hh₁
    obtain ⟨objectIndex, rfl⟩ := (validateObjectId_eq_ok).mp hh₂
    have hfield : lettersField status.letters = xy := by
      rw [hletters]
      exact encodePass_of_decodeAscii (statusPair_eq_ok.mp hpair).1
    refine ⟨⟨status, submodule, modeHead, modeIndex, modeWorktree, objectHead, objectIndex⟩, ?_,
      hletters⟩
    rw [Tracked.fields, hfield]
  · rintro ⟨t, hfields, hletters⟩
    simp only [Tracked.fields, List.cons.injEq, and_true] at hfields
    obtain ⟨rfl, rfl, rfl, rfl, rfl, rfl, rfl⟩ := hfields
    have hstatus := (exists_trackedStatus).mpr ⟨t.status, hletters⟩
    refine ⟨(x, y), ?_, ?_⟩
    · have hdecode := t.status.decodeAscii_letters
      rw [hletters] at hdecode
      rw [hletters, statusPair_eq_ok]
      refine ⟨hdecode, ?_⟩
      have hall : ∀ status : TrackedStatus, status.letters.1 ∈ lit ".MTADRC" ∧
          status.letters.2 ∈ lit ".MTADRC" ∧ [status.letters.1, status.letters.2] ≠ lit ".." := by
        rintro (⟨_ | _ | _ | _ | _, _ | _ | _ | _⟩ | _ | ⟨_ | _ | _ | _ | _ | _⟩) <;> decide
      simpa only [hletters] using hall t.status
    · refine bind_eq_ok.mpr ⟨(), require_eq_ok.mpr hstatus, bind_eq_ok.mpr ⟨(), ?_⟩⟩
      refine ⟨(validateSubmodule_eq_ok).mpr ⟨_, rfl⟩, bind_eq_ok.mpr ⟨(), ?_⟩⟩
      refine ⟨(validateMode_eq_ok).mpr ⟨_, rfl⟩, bind_eq_ok.mpr ⟨(), ?_⟩⟩
      refine ⟨(validateMode_eq_ok).mpr ⟨_, rfl⟩, bind_eq_ok.mpr ⟨(), ?_⟩⟩
      refine ⟨(validateMode_eq_ok).mpr ⟨_, rfl⟩, bind_eq_ok.mpr ⟨(), ?_⟩⟩
      refine ⟨(validateObjectId_eq_ok).mpr ⟨_, rfl⟩, bind_eq_ok.mpr ⟨(), ?_⟩⟩
      exact ⟨(validateObjectId_eq_ok).mpr ⟨_, rfl⟩, rfl⟩

/-- The bytes of a field before the path: neither a NUL nor a blank. -/
def Plain (field : Bytes) : Prop :=
  ∀ b ∈ field, 0x20 < b

theorem Plain.not_mem {field : Bytes} (h : Plain field) : 0 ∉ field ∧ 0x20 ∉ field :=
  ⟨fun hmem => absurd (h _ hmem) (by decide), fun hmem => absurd (h _ hmem) (by decide)⟩

theorem plain_of_all {field : Bytes} (h : field.all (fun b => decide (0x20 < b)) = true) :
    Plain field := by
  simpa [Plain] using h

theorem Mode.plain (mode : Mode) : Plain mode.bytes := by
  cases mode <;> exact plain_of_all (by decide)

theorem Submodule.plain (submodule : Submodule) : Plain submodule.bytes := by
  rcases submodule with _ | ⟨_ | _, _ | _, _ | _⟩ <;> exact plain_of_all (by decide)

theorem ObjectId.plain (id : ObjectId) : Plain id.bytes := by
  intro b hb
  have hbyte : ∀ d, 0x20 < hexByte d := by decide
  obtain ⟨d, -, rfl⟩ := List.mem_map.mp hb
  exact hbyte d

theorem TrackedStatus.plain (status : TrackedStatus) : Plain (lettersField status.letters) := by
  rcases status with ⟨_ | _ | _ | _ | _, _ | _ | _ | _⟩ | _ | ⟨_ | _ | _ | _ | _ | _⟩ <;>
    exact plain_of_all (by decide)

theorem UnmergedStatus.plain (status : UnmergedStatus) : Plain (lettersField status.letters) := by
  cases status <;> exact plain_of_all (by decide)

theorem Tracked.plain (t : Tracked) : ∀ field ∈ t.fields, Plain field := by
  simp only [Tracked.fields, List.forall_mem_cons]
  exact ⟨t.status.plain, t.submodule.plain, t.modeHead.plain, t.modeIndex.plain,
    t.modeWorktree.plain, t.objectHead.plain, t.objectIndex.plain, by simp⟩

theorem Unmerged.plain (u : Unmerged) : ∀ field ∈ u.fields, Plain field := by
  simp only [Unmerged.fields, List.forall_mem_cons]
  exact ⟨u.status.plain, u.submodule.plain, u.mode₁.plain, u.mode₂.plain, u.mode₃.plain,
    u.modeWorktree.plain, u.object₁.plain, u.object₂.plain, u.object₃.plain, by simp⟩

theorem Renamed.plain (r : Renamed) : Plain r.score := by
  unfold Renamed.score Plain
  rw [List.forall_mem_cons]
  have hbyte : ∀ d, 0x20 < digitByte d := by decide
  refine ⟨by split <;> decide, fun b hb => ?_⟩
  obtain ⟨d, -, rfl⟩ := List.mem_map.mp hb
  exact hbyte d

/-- The parts of a record that begins with a mark and a blank. -/
theorem eq_of_splitLimit {mark : UInt8} {record : Bytes} (first : Bytes) (fields : List Bytes)
    (path : Bytes) (hmark : mark ≠ 0x20) (hstart : [mark, 0x20] <+: record)
    (h : splitLimit 0x20 (first :: fields).length record = first :: fields ++ [path]) :
    record = terminate 0x20 ([mark] :: fields) ++ path := by
  obtain ⟨hrecord, hplain⟩ := splitLimit_eq_iff.mp h
  have hfirst : first = [mark] := by
    rw [hrecord, terminate_cons, List.append_assoc, List.cons_append] at hstart
    exact field_eq_of_prefix hstart (by simpa using hmark.symm) (hplain first (by simp))
  rw [hrecord, hfirst]

/-- The split of a record with plain fields. -/
theorem splitLimit_record {mark : UInt8} {fields : List Bytes} (hmark : mark ≠ 0x20)
    (hfields : ∀ field ∈ fields, Plain field) (path : Bytes) :
    splitLimit 0x20 (fields.length + 1) (terminate 0x20 ([mark] :: fields) ++ path) =
      [mark] :: fields ++ [path] := by
  refine splitLimit_eq_iff.mpr ⟨rfl, List.forall_mem_cons.mpr ⟨?_, ?_⟩⟩
  · simpa using hmark.symm
  · exact fun field hfield => (hfields field hfield).not_mem.2

theorem parseOrdinary_eq_ok {record : Bytes} {entry : GitStatusEntry}
    (hstart : [0x31, 0x20] <+: record) : parseOrdinary record = .ok entry ↔
      ∃ (t : Tracked) (path : Bytes), path ≠ [] ∧
        record = terminate 0x20 ([0x31] :: t.fields) ++ path ∧
        entry = ⟨.tracked, path, some t.status.letters.1, some t.status.letters.2, none,
          t.submodule.bytes⟩ := by
  unfold parseOrdinary
  constructor
  · intro h
    split at h
    · next first xy sub m₁ m₂ m₃ h₁ h₂ path hsplit =>
      obtain ⟨⟨x, y⟩, htracked, h⟩ := bind_eq_ok.mp h
      obtain ⟨_, hpath, h⟩ := bind_eq_ok.mp h
      obtain rfl := Except.ok.inj h
      obtain ⟨t, hfields, hletters⟩ := (validateTrackedFields_eq_ok).mp htracked
      have hrecord := eq_of_splitLimit first [xy, sub, m₁, m₂, m₃, h₁, h₂] path (by decide)
        hstart hsplit
      rw [← hfields] at hrecord
      simp only [Tracked.fields, List.cons.injEq, and_true] at hfields
      exact ⟨t, path, (requirePath_eq_ok).mp hpath, hrecord, by rw [hletters, hfields.2.1]⟩
    · cases h
  · rintro ⟨t, path, hpath, rfl, rfl⟩
    have hsplit := splitLimit_record (by decide : (0x31 : UInt8) ≠ 0x20) t.plain path
    have htracked := (validateTrackedFields_eq_ok).mpr ⟨t, rfl, rfl⟩
    rw [show t.fields.length + 1 = 8 from rfl] at hsplit
    rw [hsplit]
    exact bind_eq_ok.mpr ⟨_, htracked, bind_eq_ok.mpr ⟨(), (requirePath_eq_ok).mpr hpath, rfl⟩⟩

/-- The digits of a similarity are a number of at most three digits. -/
theorem exists_similarity {digits : Bytes} :
    (1 ≤ digits.length ∧ digits.length ≤ 3 ∧ digits.all isDigitByte = true ∧
      decimal digits ≤ 100) ↔ ∃ s : Similarity, s.digits.map digitByte = digits := by
  have hvalue : ∀ (ds : List (Fin 10)) (n : ℕ),
      (ds.map digitByte).foldl (fun n b => 10 * n + (b.toNat - 48)) n =
        ds.foldl (fun n d => 10 * n + d.val) n := by
    intro ds n
    have hdigit : ∀ d : Fin 10, (digitByte d).toNat - 48 = d.val := by decide
    simp only [List.foldl_map, hdigit]
  rw [all_eq_true_iff isDigitByte_iff]
  constructor
  · rintro ⟨hpos, hle, ⟨ds, rfl⟩, hvalueLe⟩
    rw [List.length_map] at hpos hle
    rw [decimal, hvalue] at hvalueLe
    exact ⟨⟨ds, hpos, hle, hvalueLe⟩, rfl⟩
  · rintro ⟨s, rfl⟩
    rw [List.length_map, decimal, hvalue]
    exact ⟨s.length_pos, s.length_le, ⟨s.digits, rfl⟩, s.le_hundred⟩

theorem parseRenamed_eq_ok {record : Bytes} {entry : GitStatusEntry}
    (hstart : [0x32, 0x20] <+: record) : parseRenamed record = .ok entry ↔
      ∃ (r : Renamed) (path : Bytes), path ≠ [] ∧
        record = terminate 0x20 ([0x32] :: (r.fields ++ [r.score])) ++ path ∧
        entry = ⟨.tracked, path, some r.status.letters.1, some r.status.letters.2, none,
          r.submodule.bytes⟩ := by
  unfold parseRenamed
  constructor
  · intro h
    split at h
    · next first xy sub m₁ m₂ m₃ h₁ h₂ score path hsplit =>
      obtain ⟨⟨x, y⟩, htracked, h⟩ := bind_eq_ok.mp h
      obtain ⟨t, hfields, hletters⟩ := (validateTrackedFields_eq_ok).mp htracked
      have hrecord := eq_of_splitLimit first [xy, sub, m₁, m₂, m₃, h₁, h₂, score] path (by decide)
        hstart hsplit
      have hparts : [xy, sub, m₁, m₂, m₃, h₁, h₂, score] = t.fields ++ [score] := by
        rw [hfields]
        rfl
      rw [hparts] at hrecord
      cases score with
      | nil => cases h
      | cons letter digits =>
        obtain ⟨_, hscore, h⟩ := bind_eq_ok.mp h
        obtain ⟨_, hmatch, h⟩ := bind_eq_ok.mp h
        obtain ⟨_, hpath, h⟩ := bind_eq_ok.mp h
        obtain rfl := Except.ok.inj h
        simp only [require_eq_ok, Bool.and_eq_true, Bool.or_eq_true, beq_iff_eq,
          decide_eq_true_eq] at hscore hmatch
        obtain ⟨⟨⟨⟨hletter, hpos⟩, hle⟩, hdigits⟩, hvalue⟩ := hscore
        obtain ⟨s, rfl⟩ := (exists_similarity).mp ⟨hpos, hle, hdigits, hvalue⟩
        simp only [Tracked.fields, List.cons.injEq, and_true] at hfields
        have hbyte : (if (letter == 0x43) = true then CodePoint.scalar 'C' else .scalar 'R') =
            ofOrd letter.toNat ∧ (if (letter == 0x43) = true then 0x43 else 0x52) = letter := by
          rcases hletter with rfl | rfl <;> decide
        have hstatus : (if (letter == 0x43) = true then CodePoint.scalar 'C' else .scalar 'R') =
            t.status.letters.1 ∨ (if (letter == 0x43) = true then CodePoint.scalar 'C'
              else .scalar 'R') = t.status.letters.2 := by
          rw [hbyte.1, hletters]
          exact hmatch
        have hfield : Renamed.score ⟨t, letter == 0x43, s, hstatus⟩ =
            letter :: s.digits.map digitByte :=
          congrArg (· :: s.digits.map digitByte) hbyte.2
        refine ⟨⟨t, letter == 0x43, s, hstatus⟩, path, (requirePath_eq_ok).mp hpath, ?_, ?_⟩
        · rw [hfield]
          exact hrecord
        · rw [hletters, hfields.2.1]
    · cases h
  · rintro ⟨r, path, hpath, rfl, rfl⟩
    have hplain : ∀ field ∈ r.fields ++ [r.score], Plain field := by
      intro field hfield
      rcases List.mem_append.mp hfield with hfield | hfield
      · exact r.toTracked.plain field hfield
      · exact List.mem_singleton.mp hfield ▸ r.plain
    have hsplit := splitLimit_record (by decide : (0x32 : UInt8) ≠ 0x20) hplain path
    have htracked := (validateTrackedFields_eq_ok).mpr ⟨r.toTracked, rfl, rfl⟩
    rw [show (r.fields ++ [r.score]).length + 1 = 9 from rfl] at hsplit
    rw [hsplit]
    refine bind_eq_ok.mpr ⟨_, htracked, ?_⟩
    obtain ⟨hpos, hle, hdigits, hvalue⟩ := (exists_similarity).mpr ⟨r.similarity, rfl⟩
    have hletter : ofOrd (if r.copied then (0x43 : UInt8) else 0x52).toNat =
        if r.copied then CodePoint.scalar 'C' else .scalar 'R' := by
      cases r.copied <;> rfl
    refine bind_eq_ok.mpr ⟨(), require_eq_ok.mpr ?_, bind_eq_ok.mpr ⟨(), require_eq_ok.mpr ?_, ?_⟩⟩
    · simp only [Bool.and_eq_true, decide_eq_true_eq]
      refine ⟨⟨⟨⟨?_, hpos⟩, hle⟩, hdigits⟩, hvalue⟩
      cases r.copied <;> rfl
    · rw [hletter, Bool.or_eq_true, beq_iff_eq, beq_iff_eq]
      exact r.letter
    · exact bind_eq_ok.mpr ⟨(), (requirePath_eq_ok).mpr hpath, rfl⟩

theorem parseUnmerged_eq_ok {record : Bytes} {entry : GitStatusEntry}
    (hstart : [0x75, 0x20] <+: record) : parseUnmerged record = .ok entry ↔
      ∃ (u : Unmerged) (path : Bytes), path ≠ [] ∧
        record = terminate 0x20 ([0x75] :: u.fields) ++ path ∧
        entry = ⟨.unmerged, path, some u.status.letters.1, some u.status.letters.2, none,
          u.submodule.bytes⟩ := by
  unfold parseUnmerged
  constructor
  · intro h
    split at h
    · next first xy sub m₁ m₂ m₃ m₄ h₁ h₂ h₃ path hsplit =>
      obtain ⟨_, hsub, h⟩ := bind_eq_ok.mp h
      obtain ⟨_, hm₁, h⟩ := bind_eq_ok.mp h
      obtain ⟨_, hm₂, h⟩ := bind_eq_ok.mp h
      obtain ⟨_, hm₃, h⟩ := bind_eq_ok.mp h
      obtain ⟨_, hm₄, h⟩ := bind_eq_ok.mp h
      obtain ⟨_, hh₁, h⟩ := bind_eq_ok.mp h
      obtain ⟨_, hh₂, h⟩ := bind_eq_ok.mp h
      obtain ⟨_, hh₃, h⟩ := bind_eq_ok.mp h
      obtain ⟨⟨x, y⟩, hpair, h⟩ := bind_eq_ok.mp h
      obtain ⟨_, hstatus, h⟩ := bind_eq_ok.mp h
      obtain ⟨_, hpath, h⟩ := bind_eq_ok.mp h
      obtain rfl := Except.ok.inj h
      obtain ⟨status, hletters⟩ := (exists_unmergedStatus).mp (require_eq_ok.mp hstatus)
      obtain ⟨submodule, rfl⟩ := (validateSubmodule_eq_ok).mp hsub
      obtain ⟨mode₁, rfl⟩ := (validateMode_eq_ok).mp hm₁
      obtain ⟨mode₂, rfl⟩ := (validateMode_eq_ok).mp hm₂
      obtain ⟨mode₃, rfl⟩ := (validateMode_eq_ok).mp hm₃
      obtain ⟨modeWorktree, rfl⟩ := (validateMode_eq_ok).mp hm₄
      obtain ⟨object₁, rfl⟩ := (validateObjectId_eq_ok).mp hh₁
      obtain ⟨object₂, rfl⟩ := (validateObjectId_eq_ok).mp hh₂
      obtain ⟨object₃, rfl⟩ := (validateObjectId_eq_ok).mp hh₃
      have hfield : lettersField status.letters = xy := by
        rw [hletters]
        exact encodePass_of_decodeAscii (statusPair_eq_ok.mp hpair).1
      refine ⟨⟨status, submodule, mode₁, mode₂, mode₃, modeWorktree, object₁, object₂, object₃⟩,
        path, (requirePath_eq_ok).mp hpath, ?_, by rw [hletters]⟩
      rw [Unmerged.fields, hfield]
      exact eq_of_splitLimit first _ path (by decide) hstart hsplit
    · cases h
  · rintro ⟨u, path, hpath, rfl, rfl⟩
    have hsplit := splitLimit_record (by decide : (0x75 : UInt8) ≠ 0x20) u.plain path
    rw [show u.fields.length + 1 = 10 from rfl] at hsplit
    rw [hsplit]
    have hpair : statusPair (lettersField u.status.letters) (lit ".MTADRCU") =
        .ok (u.status.letters.1, u.status.letters.2) := by
      refine (statusPair_eq_ok).mpr ⟨u.status.decodeAscii_letters, ?_⟩
      cases u.status <;> decide
    refine bind_eq_ok.mpr ⟨(), (validateSubmodule_eq_ok).mpr ⟨_, rfl⟩, bind_eq_ok.mpr ⟨(), ?_⟩⟩
    refine ⟨(validateMode_eq_ok).mpr ⟨_, rfl⟩, bind_eq_ok.mpr ⟨(), ?_⟩⟩
    refine ⟨(validateMode_eq_ok).mpr ⟨_, rfl⟩, bind_eq_ok.mpr ⟨(), ?_⟩⟩
    refine ⟨(validateMode_eq_ok).mpr ⟨_, rfl⟩, bind_eq_ok.mpr ⟨(), ?_⟩⟩
    refine ⟨(validateMode_eq_ok).mpr ⟨_, rfl⟩, bind_eq_ok.mpr ⟨(), ?_⟩⟩
    refine ⟨(validateObjectId_eq_ok).mpr ⟨_, rfl⟩, bind_eq_ok.mpr ⟨(), ?_⟩⟩
    refine ⟨(validateObjectId_eq_ok).mpr ⟨_, rfl⟩, bind_eq_ok.mpr ⟨(), ?_⟩⟩
    refine ⟨(validateObjectId_eq_ok).mpr ⟨_, rfl⟩, bind_eq_ok.mpr ⟨_, hpair, bind_eq_ok.mpr ⟨(), ?_⟩⟩⟩
    refine ⟨require_eq_ok.mpr (exists_unmergedStatus.mpr ⟨u.status, rfl⟩), ?_⟩
    exact bind_eq_ok.mpr ⟨(), (requirePath_eq_ok).mpr hpath, rfl⟩

theorem parseHeader_eq_ok {record : Bytes} {u : Unit} (hnul : 0 ∉ record) :
    parseHeader record = .ok u ↔
      ∃ text : HeaderText, record = 0x23 :: 0x20 :: text.first :: text.rest := by
  have hlit : bytesLit "# " = [0x23, 0x20] := by decide
  rw [parseHeader, require_eq_ok, hlit]
  simp only [Bool.and_eq_true, List.isPrefixOf_iff_prefix, bne_iff_ne]
  constructor
  · rintro ⟨⟨⟨⟨tail, rfl⟩, hlength⟩, hblank⟩, htab⟩
    cases tail with
    | nil => exact absurd rfl hlength
    | cons first rest =>
      have hnul' : 0 ∉ first :: rest := fun hmem => hnul (List.mem_append_right _ hmem)
      exact ⟨⟨first, rest, ⟨by simpa using hblank, by simpa using htab⟩, hnul'⟩, rfl⟩
  · rintro ⟨text, rfl⟩
    exact ⟨⟨⟨⟨_, rfl⟩, by simp⟩, by simpa using text.first_ne.1⟩, by simpa using text.first_ne.2⟩

theorem parsePath_eq_ok (kind : Kind) {mark : UInt8} {record : Bytes} {entry : GitStatusEntry}
    (hstart : [mark, 0x20] <+: record) : parsePath kind record = .ok entry ↔
      ∃ path : Bytes, path ≠ [] ∧ record = mark :: 0x20 :: path ∧
        entry = { kind := kind, path := path, indexStatus := none, worktreeStatus := none } := by
  obtain ⟨path, rfl⟩ := hstart
  rw [parsePath, bind_eq_ok]
  constructor
  · rintro ⟨_, hpath, h⟩
    exact ⟨path, (requirePath_eq_ok).mp hpath, rfl, (Except.ok.inj h).symm⟩
  · rintro ⟨path', hpath, hrecord, rfl⟩
    obtain rfl : path = path' := List.append_cancel_left hrecord
    exact ⟨(), (requirePath_eq_ok).mpr hpath, rfl⟩

/-! ## Streams -/

theorem marks : bytesLit "#" = [0x23] ∧ bytesLit "1 " = [0x31, 0x20] ∧
    bytesLit "2 " = [0x32, 0x20] ∧ bytesLit "u " = [0x75, 0x20] ∧
    bytesLit "? " = [0x3F, 0x20] ∧ bytesLit "! " = [0x21, 0x20] := by
  decide

theorem parseRecords_cons (record : Bytes) (records : List Bytes) :
    parseRecords (record :: records) =
      if record = [] then .error ⟨"porcelain-v2 stream contains an empty record"⟩
      else if (bytesLit "#").isPrefixOf record then do
        parseHeader record
        parseRecords records
      else if (bytesLit "1 ").isPrefixOf record then do
        let entry ← parseOrdinary record
        let entries ← parseRecords records
        pure (entry :: entries)
      else if (bytesLit "2 ").isPrefixOf record then do
        let entry ← parseRenamed record
        match records with
        | [] => .error ⟨"renamed/copied record is missing original path"⟩
        | original :: records =>
          requirePath original
          let entries ← parseRecords records
          pure ({ entry with originalPath := some original } :: entries)
      else if (bytesLit "u ").isPrefixOf record then do
        let entry ← parseUnmerged record
        let entries ← parseRecords records
        pure (entry :: entries)
      else if (bytesLit "? ").isPrefixOf record then do
        let entry ← parsePath .untracked record
        let entries ← parseRecords records
        pure (entry :: entries)
      else if (bytesLit "! ").isPrefixOf record then do
        let entry ← parsePath .ignored record
        let entries ← parseRecords records
        pure (entry :: entries)
      else .error ⟨"unknown porcelain-v2 item record"⟩ :=
  parseRecords.eq_2 record records

theorem parseRecords_header (tail : Bytes) (records : List Bytes) :
    parseRecords ((0x23 :: tail) :: records) = (do
      parseHeader (0x23 :: tail)
      parseRecords records) := by
  obtain ⟨hhash, -⟩ := marks
  rw [parseRecords_cons, if_neg (by simp), hhash, if_pos (by simp)]

theorem parseRecords_ordinary (tail : Bytes) (records : List Bytes) :
    parseRecords ((0x31 :: 0x20 :: tail) :: records) = (do
      let entry ← parseOrdinary (0x31 :: 0x20 :: tail)
      let entries ← parseRecords records
      pure (entry :: entries)) := by
  obtain ⟨hhash, hordinary, -⟩ := marks
  rw [parseRecords_cons, if_neg (by simp), hhash, if_neg (by simp), hordinary, if_pos (by simp)]

theorem parseRecords_renamed (tail original : Bytes) (records : List Bytes) :
    parseRecords ((0x32 :: 0x20 :: tail) :: original :: records) = (do
      let entry ← parseRenamed (0x32 :: 0x20 :: tail)
      requirePath original
      let entries ← parseRecords records
      pure ({ entry with originalPath := some original } :: entries)) := by
  obtain ⟨hhash, hordinary, hrenamed, -⟩ := marks
  rw [parseRecords_cons, if_neg (by simp), hhash, if_neg (by simp), hordinary, if_neg (by simp),
    hrenamed, if_pos (by simp)]

theorem parseRecords_unmerged (tail : Bytes) (records : List Bytes) :
    parseRecords ((0x75 :: 0x20 :: tail) :: records) = (do
      let entry ← parseUnmerged (0x75 :: 0x20 :: tail)
      let entries ← parseRecords records
      pure (entry :: entries)) := by
  obtain ⟨hhash, hordinary, hrenamed, hunmerged, -⟩ := marks
  rw [parseRecords_cons, if_neg (by simp), hhash, if_neg (by simp), hordinary, if_neg (by simp),
    hrenamed, if_neg (by simp), hunmerged, if_pos (by simp)]

theorem parseRecords_untracked (tail : Bytes) (records : List Bytes) :
    parseRecords ((0x3F :: 0x20 :: tail) :: records) = (do
      let entry ← parsePath .untracked (0x3F :: 0x20 :: tail)
      let entries ← parseRecords records
      pure (entry :: entries)) := by
  obtain ⟨hhash, hordinary, hrenamed, hunmerged, huntracked, -⟩ := marks
  rw [parseRecords_cons, if_neg (by simp), hhash, if_neg (by simp), hordinary, if_neg (by simp),
    hrenamed, if_neg (by simp), hunmerged, if_neg (by simp), huntracked, if_pos (by simp)]

theorem parseRecords_ignored (tail : Bytes) (records : List Bytes) :
    parseRecords ((0x21 :: 0x20 :: tail) :: records) = (do
      let entry ← parsePath .ignored (0x21 :: 0x20 :: tail)
      let entries ← parseRecords records
      pure (entry :: entries)) := by
  obtain ⟨hhash, hordinary, hrenamed, hunmerged, huntracked, hignored⟩ := marks
  rw [parseRecords_cons, if_neg (by simp), hhash, if_neg (by simp), hordinary, if_neg (by simp),
    hrenamed, if_neg (by simp), hunmerged, if_neg (by simp), huntracked, if_neg (by simp),
    hignored, if_pos (by simp)]

/-- A list of records the parser takes begins in one of the six ways. -/
theorem records_cases {record : Bytes} {records : List Bytes} {entries : List GitStatusEntry}
    (h : parseRecords (record :: records) = .ok entries) :
    ∃ tail, record = 0x23 :: tail ∨ record = 0x31 :: 0x20 :: tail ∨
      (record = 0x32 :: 0x20 :: tail ∧ records ≠ []) ∨ record = 0x75 :: 0x20 :: tail ∨
      record = 0x3F :: 0x20 :: tail ∨ record = 0x21 :: 0x20 :: tail := by
  obtain ⟨hhash, hordinary, hrenamed, hunmerged, huntracked, hignored⟩ := marks
  rw [parseRecords_cons, hhash, hordinary, hrenamed, hunmerged, huntracked, hignored] at h
  have hmark : ∀ {a b : UInt8}, [a, b].isPrefixOf record = true → ∃ tail, record = a :: b :: tail :=
    fun hleads => (List.isPrefixOf_iff_prefix.mp hleads).imp fun _ he => he.symm
  split_ifs at h with _ h₁ h₂ h₃ h₄ h₅ h₆
  · obtain ⟨tail, rfl⟩ := List.isPrefixOf_iff_prefix.mp h₁
    exact ⟨tail, .inl rfl⟩
  · exact (hmark h₂).imp fun _ he => .inr (.inl he)
  · refine (hmark h₃).imp fun _ he => .inr (.inr (.inl ⟨he, ?_⟩))
    rintro rfl
    obtain ⟨_, -, h⟩ := bind_eq_ok.mp h
    cases h
  · exact (hmark h₄).imp fun _ he => .inr (.inr (.inr (.inl he)))
  · exact (hmark h₅).imp fun _ he => .inr (.inr (.inr (.inr (.inl he))))
  · exact (hmark h₆).imp fun _ he => .inr (.inr (.inr (.inr (.inr he))))

theorem prefix_pair (a b : UInt8) (tail : Bytes) : [a, b] <+: a :: b :: tail :=
  ⟨tail, rfl⟩

/-- The end of a record is without a NUL when the record is. -/
theorem noNul_right {a b : Bytes} (h : 0 ∉ a ++ b) : 0 ∉ b :=
  fun hmem => h (List.mem_append_right a hmem)

/-- The records the parser takes begin with those of an entry. -/
theorem exists_item {record : Bytes} {records : List Bytes} {entries : List GitStatusEntry}
    (hnul : ∀ r ∈ record :: records, 0 ∉ r) (h : parseRecords (record :: records) = .ok entries) :
    ∃ (item : Item) (rest : List Bytes) (entries' : List GitStatusEntry),
      record :: records = item.records ++ rest ∧ entries = item.entry.toList ++ entries' ∧
        parseRecords rest = .ok entries' := by
  obtain ⟨hrecordNul, hrecordsNul⟩ := List.forall_mem_cons.mp hnul
  obtain ⟨tail, rfl | rfl | ⟨rfl, hne⟩ | rfl | rfl | rfl⟩ := records_cases h
  · rw [parseRecords_header] at h
    obtain ⟨_, hheader, h⟩ := bind_eq_ok.mp h
    obtain ⟨text, htext⟩ := (parseHeader_eq_ok hrecordNul).mp hheader
    exact ⟨.header text, records, entries, by rw [htext]; rfl, rfl, h⟩
  · rw [parseRecords_ordinary] at h
    obtain ⟨entry, hentry, h⟩ := bind_eq_ok.mp h
    obtain ⟨entries', hentries, h⟩ := bind_eq_ok.mp h
    obtain ⟨t, path, hpath, hrecord, rfl⟩ := (parseOrdinary_eq_ok (prefix_pair _ _ tail)).mp hentry
    rw [hrecord] at hrecordNul ⊢
    exact ⟨.ordinary t ⟨path, hpath, noNul_right hrecordNul⟩, records, entries', rfl,
      (Except.ok.inj h).symm, hentries⟩
  · obtain ⟨original, rest, rfl⟩ := List.exists_cons_of_ne_nil hne
    rw [parseRecords_renamed] at h
    obtain ⟨entry, hentry, h⟩ := bind_eq_ok.mp h
    obtain ⟨_, horiginal, h⟩ := bind_eq_ok.mp h
    obtain ⟨entries', hentries, h⟩ := bind_eq_ok.mp h
    obtain ⟨r, path, hpath, hrecord, rfl⟩ := (parseRenamed_eq_ok (prefix_pair _ _ tail)).mp hentry
    rw [hrecord] at hrecordNul ⊢
    exact ⟨.renamed r ⟨path, hpath, noNul_right hrecordNul⟩
        ⟨original, (requirePath_eq_ok).mp horiginal, hrecordsNul original (by simp)⟩,
      rest, entries', rfl, (Except.ok.inj h).symm, hentries⟩
  · rw [parseRecords_unmerged] at h
    obtain ⟨entry, hentry, h⟩ := bind_eq_ok.mp h
    obtain ⟨entries', hentries, h⟩ := bind_eq_ok.mp h
    obtain ⟨u, path, hpath, hrecord, rfl⟩ := (parseUnmerged_eq_ok (prefix_pair _ _ tail)).mp hentry
    rw [hrecord] at hrecordNul ⊢
    exact ⟨.unmerged u ⟨path, hpath, noNul_right hrecordNul⟩, records, entries', rfl,
      (Except.ok.inj h).symm, hentries⟩
  · rw [parseRecords_untracked] at h
    obtain ⟨entry, hentry, h⟩ := bind_eq_ok.mp h
    obtain ⟨entries', hentries, h⟩ := bind_eq_ok.mp h
    obtain ⟨path, hpath, hrecord, rfl⟩ := (parsePath_eq_ok _ (prefix_pair _ _ tail)).mp hentry
    rw [hrecord] at hrecordNul ⊢
    exact ⟨.untracked ⟨path, hpath, fun hmem => hrecordNul (by simp [hmem])⟩, records, entries',
      rfl, (Except.ok.inj h).symm, hentries⟩
  · rw [parseRecords_ignored] at h
    obtain ⟨entry, hentry, h⟩ := bind_eq_ok.mp h
    obtain ⟨entries', hentries, h⟩ := bind_eq_ok.mp h
    obtain ⟨path, hpath, hrecord, rfl⟩ := (parsePath_eq_ok _ (prefix_pair _ _ tail)).mp hentry
    rw [hrecord] at hrecordNul ⊢
    exact ⟨.ignored ⟨path, hpath, fun hmem => hrecordNul (by simp [hmem])⟩, records, entries',
      rfl, (Except.ok.inj h).symm, hentries⟩

/-- The records of an entry are read back as the entry. -/
theorem parseRecords_item (item : Item) {records : List Bytes} {entries : List GitStatusEntry}
    (h : parseRecords records = .ok entries) :
    parseRecords (item.records ++ records) = .ok (item.entry.toList ++ entries) := by
  cases item with
  | header text =>
    rw [Item.records, List.singleton_append, parseRecords_header]
    have hnul : 0 ∉ 0x23 :: 0x20 :: text.first :: text.rest := by
      simpa using text.noNul
    exact bind_eq_ok.mpr ⟨(), (parseHeader_eq_ok hnul).mpr ⟨text, rfl⟩, h⟩
  | ordinary t path =>
    have hentry := (parseOrdinary_eq_ok
      (prefix_pair 0x31 0x20 (terminate 0x20 t.fields ++ path.bytes))).mpr
        ⟨t, path.bytes, path.ne_nil, rfl, rfl⟩
    rw [Item.records, List.singleton_append, terminate_cons, List.append_assoc,
      List.singleton_append, List.cons_append, parseRecords_ordinary]
    exact bind_eq_ok.mpr ⟨_, hentry, bind_eq_ok.mpr ⟨_, h, rfl⟩⟩
  | renamed r path original =>
    have hentry := (parseRenamed_eq_ok
      (prefix_pair 0x32 0x20 (terminate 0x20 (r.fields ++ [r.score]) ++ path.bytes))).mpr
        ⟨r, path.bytes, path.ne_nil, rfl, rfl⟩
    have horiginal : requirePath original.bytes = .ok () :=
      (requirePath_eq_ok).mpr original.ne_nil
    rw [Item.records, List.cons_append, List.singleton_append, terminate_cons, List.append_assoc,
      List.singleton_append, List.cons_append, parseRecords_renamed]
    exact bind_eq_ok.mpr ⟨_, hentry, bind_eq_ok.mpr ⟨(), horiginal, bind_eq_ok.mpr ⟨_, h, rfl⟩⟩⟩
  | unmerged u path =>
    have hentry := (parseUnmerged_eq_ok
      (prefix_pair 0x75 0x20 (terminate 0x20 u.fields ++ path.bytes))).mpr
        ⟨u, path.bytes, path.ne_nil, rfl, rfl⟩
    rw [Item.records, List.singleton_append, terminate_cons, List.append_assoc,
      List.singleton_append, List.cons_append, parseRecords_unmerged]
    exact bind_eq_ok.mpr ⟨_, hentry, bind_eq_ok.mpr ⟨_, h, rfl⟩⟩
  | untracked path =>
    have hentry := (parsePath_eq_ok .untracked (prefix_pair 0x3F _ _)).mpr
      ⟨path.bytes, path.ne_nil, rfl, rfl⟩
    rw [Item.records, List.singleton_append, parseRecords_untracked]
    exact bind_eq_ok.mpr ⟨_, hentry, bind_eq_ok.mpr ⟨_, h, rfl⟩⟩
  | ignored path =>
    have hentry := (parsePath_eq_ok .ignored (prefix_pair 0x21 _ _)).mpr
      ⟨path.bytes, path.ne_nil, rfl, rfl⟩
    rw [Item.records, List.singleton_append, parseRecords_ignored]
    exact bind_eq_ok.mpr ⟨_, hentry, bind_eq_ok.mpr ⟨_, h, rfl⟩⟩

theorem Item.records_length_pos (item : Item) : 0 < item.records.length := by
  cases item <;> simp [Item.records]

theorem filterMap_entry_cons (item : Item) (items : List Item) :
    (item :: items).filterMap Item.entry = item.entry.toList ++ items.filterMap Item.entry := by
  rw [List.filterMap_cons]
  cases item.entry <;> rfl

/-- Records without a NUL are accepted exactly when they are those of a list of entries. -/
theorem parseRecords_eq_ok {records : List Bytes} (hnul : ∀ r ∈ records, 0 ∉ r)
    {entries : List GitStatusEntry} : parseRecords records = .ok entries ↔
      ∃ items : List Item, items.flatMap Item.records = records ∧
        items.filterMap Item.entry = entries := by
  constructor
  · -- every step takes at least one record off the list
    induction hn : records.length using Nat.strong_induction_on generalizing records entries with
    | _ n ih =>
      intro h
      cases records with
      | nil => exact ⟨[], rfl, Except.ok.inj h⟩
      | cons record records =>
        obtain ⟨item, rest, entries', hsplit, rfl, hrest⟩ := exists_item hnul h
        have hlt : rest.length < n := by
          have hlength := congrArg List.length hsplit
          have hpos := item.records_length_pos
          rw [List.length_append] at hlength
          omega
        have hrestNul : ∀ r ∈ rest, 0 ∉ r := fun r hr =>
          hnul r (hsplit ▸ List.mem_append_right _ hr)
        obtain ⟨items, hrecords, hentries⟩ := ih _ hlt hrestNul rfl hrest
        refine ⟨item :: items, ?_, ?_⟩
        · rw [List.flatMap_cons, hrecords, hsplit]
        · rw [filterMap_entry_cons, hentries]
  · rintro ⟨items, rfl, rfl⟩
    clear hnul
    induction items with
    | nil => rfl
    | cons item items ih =>
      rw [List.flatMap_cons, filterMap_entry_cons]
      exact parseRecords_item item ih

theorem Item.noNul (item : Item) : ∀ record ∈ item.records, 0 ∉ record := by
  have hmeta : ∀ {fields : List Bytes}, (∀ field ∈ fields, Plain field) →
      0 ∉ terminate 0x20 fields := by
    intro fields hfields hmem
    obtain ⟨field, hfield, hmem⟩ := List.mem_flatMap.mp hmem
    rcases List.mem_append.mp hmem with hmem | hmem
    · exact (hfields field hfield).not_mem.1 hmem
    · exact absurd hmem (by decide)
  have hrecord : ∀ {mark : UInt8} {fields : List Bytes}, 0x20 < mark →
      (∀ field ∈ fields, Plain field) → ∀ path : PathBytes,
        0 ∉ terminate 0x20 ([mark] :: fields) ++ path.bytes := by
    intro mark fields hmark hfields path hmem
    rcases List.mem_append.mp hmem with hmem | hmem
    · refine hmeta (List.forall_mem_cons.mpr ⟨?_, hfields⟩) hmem
      exact fun b hb => List.mem_singleton.mp hb ▸ hmark
    · exact path.noNul hmem
  cases item with
  | header text => simpa [Item.records] using text.noNul
  | ordinary t path => exact List.forall_mem_singleton.mpr (hrecord (by decide) t.plain path)
  | renamed r path original =>
    refine List.forall_mem_cons.mpr ⟨hrecord (by decide) ?_ path,
      List.forall_mem_singleton.mpr original.noNul⟩
    intro field hfield
    rcases List.mem_append.mp hfield with hfield | hfield
    · exact r.toTracked.plain field hfield
    · exact List.mem_singleton.mp hfield ▸ r.plain
  | unmerged u path => exact List.forall_mem_singleton.mpr (hrecord (by decide) u.plain path)
  | untracked path => simpa [Item.records] using path.noNul
  | ignored path => simpa [Item.records] using path.noNul

/-- The parser accepts exactly the rendered streams, and gives their entries in order. -/
theorem parsePorcelainV2_eq_ok_iff (output : Bytes) (entries : List GitStatusEntry) :
    parsePorcelainV2 output = .ok entries ↔
      ∃ items : List Item, render items = output ∧ items.filterMap Item.entry = entries := by
  unfold parsePorcelainV2 render
  constructor
  · intro h
    split_ifs at h with hnil hlast
    · exact ⟨[], hnil.symm, Except.ok.inj h⟩
    · obtain ⟨records, rfl, hnul⟩ := exists_terminate hlast
      rw [splitOn_terminate hnul, List.dropLast_concat] at h
      obtain ⟨items, rfl, hentries⟩ := (parseRecords_eq_ok hnul).mp h
      exact ⟨items, rfl, hentries⟩
  · rintro ⟨items, rfl, rfl⟩
    have hnul : ∀ r ∈ items.flatMap Item.records, 0 ∉ r := by
      intro r hr
      obtain ⟨item, -, hr⟩ := List.mem_flatMap.mp hr
      exact item.noNul r hr
    rcases eq_or_ne (items.flatMap Item.records) [] with hnil | hne
    · have hitems : items = [] := by
        cases items with
        | nil => rfl
        | cons item items =>
          have hpos := item.records_length_pos
          rw [List.flatMap_cons, List.append_eq_nil_iff] at hnil
          rw [hnil.1] at hpos
          exact absurd hpos (by decide)
      subst hitems
      rfl
    · have hlast := (getLast?_terminate hne :
        (terminate 0 (items.flatMap Item.records)).getLast? = some 0)
      have hne' : terminate 0 (items.flatMap Item.records) ≠ [] := fun hempty => by
        rw [hempty] at hlast
        cases hlast
      rw [if_neg hne', if_pos hlast, splitOn_terminate hnul, List.dropLast_concat]
      exact (parseRecords_eq_ok hnul).mpr ⟨items, rfl, rfl⟩

/-- Not a header and not an ignored path. -/
def Item.IsChange : Item → Prop
  | .header _ | .ignored _ => False
  | _ => True

/-- An ignored path is accepted, so the four kinds of change are not all that is. -/
theorem not_parsePorcelainV2_changes : ¬∀ (output : Bytes) (entries : List GitStatusEntry),
    parsePorcelainV2 output = .ok entries ↔
      ∃ items : List Item, (∀ item ∈ items, item.IsChange) ∧ render items = output ∧
        items.filterMap Item.entry = entries := by
  intro h
  let entry : GitStatusEntry :=
    { kind := .ignored, path := [0x61], indexStatus := none, worktreeStatus := none }
  have hparse : parsePorcelainV2 [0x21, 0x20, 0x61, 0] = .ok [entry] := by decide
  obtain ⟨items, hchanges, -, hentries⟩ := (h _ _).mp hparse
  obtain ⟨item, hitem, hentry⟩ := List.mem_filterMap.mp (hentries ▸ List.mem_singleton_self entry)
  have hchange := hchanges item hitem
  cases item <;> simp [Item.entry, Item.IsChange, entry] at hentry hchange

end Icode.GitStatus
