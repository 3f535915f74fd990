import Icode.Checks
import Icode.Utf16

/-!
# Directory pages

Windows gives the entries of a directory in pages, each a chain of `FILE_ID_EXTD_DIR_INFO` records:
a header of 88 bytes, a name in UTF-16, and the offset of the next record relative to this one.
`parseWindowsDirectoryEntries` reads one page and `collectWindowsDirectoryEntries` all of them.

A page that is accepted holds its entries in disjoint places, in order (`parse_liesIn`), and a page
that was laid out for a list of records gives that list without the dot entries
(`parse_layoutPage`). The collector returns exactly when every page before the end of the
enumeration is accepted and new (`collect_eq_ok`).
-/

namespace Icode

open Py

namespace DirectoryPages

/-! ## One page -/

/-- `_WINDOWS_EXTD_DIRECTORY_ENTRY_HEADER_SIZE` -/
def headerSize : ℕ := 88

/-- `_WINDOWS_FILE_NAME_MAX_UTF16_BYTES` -/
def fileNameMaxBytes : ℕ := 510

/-- The limit on the bytes of a page. -/
def maxPageBytes : ℕ := 1024 * 1024

/-- `_WINDOWS_FILE_ATTRIBUTE_REPARSE_POINT` -/
def reparsePoint : ℕ := 0x400

/-- `_WindowsDirectoryEntry` -/
structure DirectoryEntry where
  name : PyStr
  attributes : ℕ
  reparseTag : ℕ
  fileId : Bytes
  changeTime : ℤ
  endOfFile : ℤ
  deriving DecidableEq

/-- The reasons of `WorktreeTreeUnavailable`. -/
inductive DirectoryError where
  | bufferTooLarge
  | recordTruncated
  | recordInvalid
  | nameInvalid
  | nameDuplicate
  | recordTrailingData
  | offsetInvalid
  | bufferSizeInvalid
  | pageLimit
  | enumerationFailed
  | pageResponseInvalid
  | bufferTooSmall
  | enumerationNoProgress
  | entryLimit
  deriving DecidableEq

/-- `view[start:start + size]` -/
def slice (view : Bytes) (start size : ℕ) : Bytes :=
  (view.drop start).take size

/-- `not any(view)` -/
def isZero (view : Bytes) : Bool :=
  view.all fun b => b == 0

/-- The fields of a record that are read. -/
structure RecordFields where
  nextEntryOffset : ℕ
  changeTime : ℤ
  endOfFile : ℤ
  attributes : ℕ
  nameLength : ℕ
  reparseTag : ℕ
  fileId : Bytes

/-- The record at the start of what is left of the page. -/
def fieldsOf (rest : Bytes) : RecordFields :=
  let attributes := leNat (slice rest 56 4)
  { nextEntryOffset := leNat (slice rest 0 4)
    changeTime := signed64 (leNat (slice rest 32 8))
    endOfFile := signed64 (leNat (slice rest 40 8))
    attributes
    nameLength := leNat (slice rest 60 4)
    reparseTag := if attributes &&& reparsePoint == 0 then 0 else leNat (slice rest 68 4)
    fileId := slice rest 72 16 }

/-- The ids that no file has. -/
def sentinelIds : List Bytes :=
  [List.replicate 16 0, List.replicate 16 0xFF]

def dotNames : List PyStr :=
  [lit ".", lit ".."]

/-- A character that no name has. -/
def isForbidden (c : CodePoint) : Bool :=
  c == .scalar (Char.ofNat 0) || c == .scalar '/' || c == .scalar '\\' || c == .scalar ':'

/-- The name of a record, which is empty for the dot entries. -/
def recordName (raw : Bytes) : Except DirectoryError PyStr :=
  match utf16Decode raw with
  | none => .error .nameInvalid
  | some name =>
    if name.any isForbidden || name.isEmpty || dotNames.contains name then
      if dotNames.contains name then .ok [] else .error .nameInvalid
    else .ok name

/-- The body of the loop up to the name, with `entries`. -/
def parseRecord (rest : Bytes) (entries : List DirectoryEntry) :
    Except DirectoryError (List DirectoryEntry) :=
  let f := fieldsOf rest
  if f.nameLength == 0 || fileNameMaxBytes < f.nameLength || f.nameLength % 2 != 0 ||
      rest.length - headerSize < f.nameLength || f.changeTime < 0 || f.endOfFile < 0 then
    .error .recordInvalid
  else do
    let name ← recordName (slice rest headerSize f.nameLength)
    if name.isEmpty then pure entries
    else do
      require (!sentinelIds.contains f.fileId) .recordInvalid
      require (!(entries.map (·.name)).contains name) .nameDuplicate
      pure (entries ++
        [⟨name, f.attributes, f.reparseTag, f.fileId, f.changeTime, f.endOfFile⟩])

/-- The loop over what is left of the page. A record takes more than nothing, so that the loop
ends. -/
def parseLoop (rest : Bytes) (entries : List DirectoryEntry) :
    Except DirectoryError (List DirectoryEntry) :=
  if rest.isEmpty then .ok entries
  else if _hlen : rest.length < headerSize then
    if isZero rest then .ok entries else .error .recordTruncated
  else
    match parseRecord rest entries with
    | .error e => .error e
    | .ok entries =>
      let next := (fieldsOf rest).nextEntryOffset
      let recordEnd := headerSize + (fieldsOf rest).nameLength
      if next = 0 then
        if isZero (rest.drop recordEnd) then .ok entries else .error .recordTrailingData
      else if _hnext : next % 8 ≠ 0 ∨ next < recordEnd ∨ rest.length < next then
        .error .offsetInvalid
      else parseLoop (rest.drop next) entries
termination_by rest.length
decreasing_by
  have hpos : 0 < headerSize := by decide
  rw [List.length_drop]
  omega

/-- `_parse_windows_directory_entries` -/
def parseWindowsDirectoryEntries (buffer : Bytes) :
    Except DirectoryError (List DirectoryEntry) :=
  if maxPageBytes < buffer.length then .error .bufferTooLarge
  else if isZero buffer then .ok []
  else parseLoop buffer []

/-! ## All pages -/

/-- `_WINDOWS_FILE_ID_EXTD_DIRECTORY_RESTART_INFO_CLASS` and
`_WINDOWS_FILE_ID_EXTD_DIRECTORY_INFO_CLASS` -/
inductive InformationClass where
  | restart
  | next
  deriving DecidableEq

/-- What a call of `read_page` gives. -/
inductive PageResponse where
  /-- It raises. -/
  | raises
  /-- It is no `(bool, int, bytes)`, or the number is not in 32 bits. -/
  | malformed
  | response (succeeded : Bool) (winerror : ℕ) (payload : Bytes)

/-- `_WINDOWS_ERROR_NO_MORE_FILES` -/
def errorNoMoreFiles : ℕ := 18

/-- `_WINDOWS_ERROR_MORE_DATA` -/
def errorMoreData : ℕ := 234

/-- `_MAX_WINDOWS_DIRECTORY_ENTRIES` -/
def maxDirectoryEntries : ℕ := 250000

/-- `_MAX_WINDOWS_DIRECTORY_ENUMERATION_PAGES` -/
def maxEnumerationPages : ℕ := 4096

/-- `_MIN_WINDOWS_DIRECTORY_BUFFER_BYTES` -/
def minDirectoryBufferBytes : ℕ := headerSize + 2

/-- `_MAX_WINDOWS_DIRECTORY_BUFFER_BYTES` -/
def maxDirectoryBufferBytes : ℕ := 16 * 1024 * 1024

/-- The loop over the entries of a page. -/
def addPage (entries : List DirectoryEntry) :
    List DirectoryEntry → Except DirectoryError (List DirectoryEntry)
  | [] => .ok entries
  | e :: page => do
    require (!(entries.map (·.name)).contains e.name) .nameDuplicate
    require (entries.length + 1 ≤ maxDirectoryEntries) .entryLimit
    addPage (entries ++ [e]) page

/-- The payload of a call, or `none` when there are no more files. -/
def pageOf (bufferBytes : ℕ) : PageResponse → Except DirectoryError (Option Bytes)
  | .raises => .error .enumerationFailed
  | .malformed => .error .pageResponseInvalid
  | .response succeeded winerror payload =>
    if bufferBytes < payload.length || succeeded && winerror != 0 ||
        !succeeded && winerror == 0 then
      .error .pageResponseInvalid
    else if succeeded then .ok (some payload)
    else if winerror = errorNoMoreFiles then .ok none
    else if winerror = errorMoreData then .error .bufferTooSmall
    else .error .enumerationFailed

/-- The loop, after `apiCalls` calls; `left` is how many calls are still allowed. The `n`-th call
of `read_page` may answer in any way. -/
def collectLoop (readPage : ℕ → InformationClass → PageResponse) (bufferBytes : ℕ) :
    ℕ → ℕ → InformationClass → List DirectoryEntry → Except DirectoryError (List DirectoryEntry)
  | 0, _, _, _ => .error .pageLimit
  | left + 1, apiCalls, informationClass, entries => do
    match ← pageOf bufferBytes (readPage apiCalls informationClass) with
    | none => pure entries
    | some payload =>
      let page ← parseWindowsDirectoryEntries payload
      if page.isEmpty then
        if informationClass == .restart && apiCalls == 0 && entries.isEmpty && !isZero payload then
          collectLoop readPage bufferBytes left (apiCalls + 1) .next entries
        else .error .enumerationNoProgress
      else
        let entries ← addPage entries page
        collectLoop readPage bufferBytes left (apiCalls + 1) .next entries

/-- `_collect_windows_directory_entries` -/
def collectWindowsDirectoryEntries (readPage : ℕ → InformationClass → PageResponse)
    (bufferBytes : ℕ) : Except DirectoryError (List DirectoryEntry) :=
  if bufferBytes < minDirectoryBufferBytes || maxDirectoryBufferBytes < bufferBytes then
    .error .bufferSizeInvalid
  else collectLoop readPage bufferBytes maxEnumerationPages 0 .restart []

/-! ## What is accepted -/

/-- The entry is read from the bytes from `start` to `stop`. -/
structure LiesIn (buffer : Bytes) (start stop : ℕ) (e : DirectoryEntry) : Prop where
  inside : stop ≤ buffer.length
  header : start + headerSize < stop
  nameLength : leNat (slice buffer (start + 60) 4) = stop - (start + headerSize)
  name : utf16Decode (slice buffer (start + headerSize) (stop - (start + headerSize))) =
    some e.name
  attributes : e.attributes = leNat (slice buffer (start + 56) 4)
  fileId : e.fileId = slice buffer (start + 72) 16
  changeTime : e.changeTime = signed64 (leNat (slice buffer (start + 32) 8))
  endOfFile : e.endOfFile = signed64 (leNat (slice buffer (start + 40) 8))

theorem slice_drop (buffer : Bytes) (offset start size : ℕ) :
    slice (buffer.drop offset) start size = slice buffer (offset + start) size := by
  rw [slice, slice, List.drop_drop]

/-- The name of a record is that of an entry, or one of the dot names. -/
theorem recordName_eq_ok {raw : Bytes} {name : PyStr} (h : recordName raw = .ok name) :
    utf16Decode raw = some name ∧ name ≠ [] ∧ name ∉ dotNames ∧
        (∀ c ∈ name, isForbidden c = false) ∨
      name = [] ∧ ∃ dot ∈ dotNames, utf16Decode raw = some dot := by
  unfold recordName at h
  split at h
  · cases h
  · rename_i decoded hdecode
    split_ifs at h with hbad hdot
    · obtain rfl := Except.ok.inj h
      exact .inr ⟨rfl, decoded, List.contains_iff_mem.mp hdot, hdecode⟩
    · obtain rfl := Except.ok.inj h
      simp only [Bool.or_eq_true, not_or, List.any_eq_true, not_exists, not_and,
        Bool.not_eq_true, List.isEmpty_iff, List.contains_iff_mem] at hbad
      exact .inl ⟨hdecode, hbad.1.2, hbad.2, hbad.1.1⟩

/-- A record adds one entry, with a new name, or none. -/
theorem parseRecord_eq_ok {rest : Bytes} {entries entries' : List DirectoryEntry}
    (h : parseRecord rest entries = .ok entries') (hlen : headerSize ≤ rest.length) :
    headerSize + (fieldsOf rest).nameLength ≤ rest.length ∧ 0 < (fieldsOf rest).nameLength ∧
      (entries' = entries ∨ ∃ e, entries' = entries ++ [e] ∧ e.name ∉ entries.map (·.name) ∧
        LiesIn rest 0 (headerSize + (fieldsOf rest).nameLength) e) := by
  simp only [parseRecord] at h
  split_ifs at h with hbad
  simp only [Bool.or_eq_true, beq_iff_eq, decide_eq_true_eq, bne_iff_ne, not_or, not_lt] at hbad
  obtain ⟨⟨⟨⟨⟨hzero, -⟩, -⟩, hfits⟩, -⟩, -⟩ := hbad
  refine ⟨by omega, by omega, ?_⟩
  rw [bind_eq_ok] at h
  obtain ⟨name, hname, h⟩ := h
  split_ifs at h with hempty
  · obtain rfl := Except.ok.inj h
    exact .inl rfl
  · simp only [bind_eq_ok, require_eq_ok, exists_const, Bool.not_eq_true'] at h
    obtain ⟨-, hnew, h⟩ := h
    obtain rfl := Except.ok.inj h
    have hnew : name ∉ entries.map (·.name) := by
      intro hmem
      rw [List.contains_iff_mem.mpr hmem] at hnew
      cases hnew
    rcases recordName_eq_ok hname with ⟨hdecode, -⟩ | ⟨rfl, -⟩
    · have hsub : headerSize + (fieldsOf rest).nameLength - (0 + headerSize) =
          (fieldsOf rest).nameLength := by omega
      refine .inr ⟨_, rfl, hnew, ⟨by omega, by omega, ?_, ?_, rfl, rfl, rfl, rfl⟩⟩
      · rw [hsub]
        rfl
      · rw [hsub, Nat.zero_add]
        exact hdecode
    · simp at hempty

/-- A place in what is left of the page is one in the page. -/
theorem LiesIn.of_drop {buffer : Bytes} {offset start stop : ℕ} {e : DirectoryEntry}
    (h : LiesIn (buffer.drop offset) start stop e) :
    LiesIn buffer (offset + start) (offset + stop) e := by
  obtain ⟨hinside, hheader, hlength, hname, hattr, hid, hchange, hend⟩ := h
  rw [List.length_drop] at hinside
  have hsub : offset + stop - (offset + start + headerSize) = stop - (start + headerSize) := by
    omega
  simp only [slice_drop, ← Nat.add_assoc] at hlength hname hattr hid hchange hend
  exact ⟨by omega, by omega, by rw [hsub]; exact hlength, by rw [hsub]; exact hname, hattr, hid,
    hchange, hend⟩

/-- The entries lie in the places, which are in order and do not overlap. -/
structure Places (buffer : Bytes) (spans : List (ℕ × ℕ)) (entries : List DirectoryEntry) :
    Prop where
  liesIn : List.Forall₂ (fun span e => LiesIn buffer span.1 span.2 e) spans entries
  disjoint : spans.Pairwise fun a b => a.2 ≤ b.1

/-- The places further on, behind another one. -/
theorem Places.cons {rest : Bytes} {next stop : ℕ} {spans : List (ℕ × ℕ)}
    {entries new : List DirectoryEntry}
    (hnew : new = [] ∨ ∃ e, new = [e] ∧ LiesIn rest 0 stop e) (hstop : stop ≤ next)
    (h : Places (rest.drop next) spans entries) :
    ∃ spans', Places rest spans' (new ++ entries) := by
  have hshift : Places rest (spans.map fun span => (next + span.1, next + span.2)) entries := by
    refine ⟨List.forall₂_map_left_iff.mpr (h.liesIn.imp fun _ _ hin => hin.of_drop), ?_⟩
    exact List.pairwise_map.mpr (h.disjoint.imp fun hab => Nat.add_le_add_left hab next)
  obtain rfl | ⟨e, rfl, he⟩ := hnew
  · exact ⟨_, hshift⟩
  · refine ⟨(0, stop) :: spans.map fun span => (next + span.1, next + span.2),
      .cons he hshift.liesIn, List.pairwise_cons.mpr ⟨fun span hspan => ?_, hshift.disjoint⟩⟩
    obtain ⟨span, -, rfl⟩ := List.mem_map.mp hspan
    exact hstop.trans (Nat.le_add_right next span.1)

theorem Places.nil (buffer : Bytes) : Places buffer [] [] :=
  ⟨.nil, .nil⟩

/-- The entries that the loop adds lie in what is left of the page, and have new names. -/
theorem parseLoop_eq_ok (rest : Bytes) {entries entries' : List DirectoryEntry}
    (h : parseLoop rest entries = .ok entries') :
    (∃ new spans, entries' = entries ++ new ∧ Places rest spans new) ∧
      ((entries.map (·.name)).Nodup → (entries'.map (·.name)).Nodup) := by
  rw [parseLoop] at h
  split_ifs at h with hempty hlen hzero
  · obtain rfl := Except.ok.inj h
    exact ⟨⟨[], [], (List.append_nil _).symm, .nil rest⟩, id⟩
  · obtain rfl := Except.ok.inj h
    exact ⟨⟨[], [], (List.append_nil _).symm, .nil rest⟩, id⟩
  · split at h
    · cases h
    rename_i entries₁ hrecord
    obtain ⟨hfits, hpos, hadd⟩ := parseRecord_eq_ok hrecord (Nat.le_of_not_lt hlen)
    have hnodup : (entries.map (·.name)).Nodup → (entries₁.map (·.name)).Nodup := by
      intro hnd
      obtain rfl | ⟨e, rfl, hname, -⟩ := hadd
      · exact hnd
      · rw [List.map_append]
        exact hnd.append (List.nodup_singleton e.name) (by simpa using hname)
    obtain ⟨new, rfl, hnew⟩ : ∃ new, entries₁ = entries ++ new ∧ (new = [] ∨ ∃ e, new = [e] ∧
        LiesIn rest 0 (headerSize + (fieldsOf rest).nameLength) e) := by
      obtain rfl | ⟨e, rfl, -, he⟩ := hadd
      · exact ⟨[], (List.append_nil _).symm, .inl rfl⟩
      · exact ⟨[e], rfl, .inr ⟨e, rfl, he⟩⟩
    dsimp only at h
    split_ifs at h with hlast htail hnext
    · obtain rfl := Except.ok.inj h
      obtain ⟨spans, hspans⟩ := Places.cons hnew le_rfl (.nil _)
      exact ⟨⟨new, spans, rfl, by simpa using hspans⟩, hnodup⟩
    · simp only [not_or, not_not, not_lt] at hnext
      have hdecrease : (rest.drop (fieldsOf rest).nextEntryOffset).length < rest.length := by
        rw [List.length_drop]
        omega
      obtain ⟨⟨more, spans, rfl, hspans⟩, hrest⟩ := parseLoop_eq_ok _ h
      obtain ⟨spans', hspans'⟩ := Places.cons hnew hnext.2.1 hspans
      exact ⟨⟨new ++ more, spans', List.append_assoc _ _ _, hspans'⟩, hrest ∘ hnodup⟩
termination_by rest.length

/-- The entries of an accepted page lie in it, in order, and have distinct names. -/
theorem parse_liesIn {buffer : Bytes} {entries : List DirectoryEntry}
    (h : parseWindowsDirectoryEntries buffer = .ok entries) :
    (∃ spans, Places buffer spans entries) ∧ (entries.map (·.name)).Nodup := by
  unfold parseWindowsDirectoryEntries at h
  split_ifs at h
  · obtain rfl := Except.ok.inj h
    exact ⟨⟨[], .nil buffer⟩, List.nodup_nil⟩
  · obtain ⟨⟨new, spans, rfl, hspans⟩, hnodup⟩ := parseLoop_eq_ok buffer h
    exact ⟨⟨spans, hspans⟩, hnodup List.nodup_nil⟩

/-! ## Laying out a page -/

/-- A record that a page can hold, with the bytes that are not read: what stands before the change
time, and what fills the space up to the next record. -/
structure DirectoryRecord where
  head : Bytes
  changeTime : ℕ
  endOfFile : ℕ
  allocationSize : Bytes
  attributes : ℕ
  eaSize : Bytes
  reparseTag : ℕ
  fileId : Bytes
  name : PyStr
  gap : Bytes
  head_length : head.length = 28
  changeTime_lt : changeTime < 2 ^ 63
  endOfFile_lt : endOfFile < 2 ^ 63
  allocationSize_length : allocationSize.length = 8
  attributes_lt : attributes < 2 ^ 32
  eaSize_length : eaSize.length = 4
  reparseTag_lt : reparseTag < 2 ^ 32
  fileId_length : fileId.length = 16
  identified : name ∉ dotNames → fileId ∉ sentinelIds
  encodable : name.all isScalar = true
  nonempty : name ≠ []
  permitted : ∀ c ∈ name, isForbidden c = false
  fits : (utf16Encode name).length ≤ fileNameMaxBytes
  aligned : (headerSize + (utf16Encode name).length + gap.length) % 8 = 0

namespace DirectoryRecord

/-- The bytes up to the end of the name. -/
def size (r : DirectoryRecord) : ℕ :=
  headerSize + (utf16Encode r.name).length

/-- The record, with the offset of the next one. -/
def encode (r : DirectoryRecord) (next : ℕ) : Bytes :=
  leBytes 4 next ++ (r.head ++ (leBytes 8 r.changeTime ++ (leBytes 8 r.endOfFile ++
    (r.allocationSize ++ (leBytes 4 r.attributes ++ (leBytes 4 (utf16Encode r.name).length ++
      (r.eaSize ++ (leBytes 4 r.reparseTag ++ (r.fileId ++ utf16Encode r.name)))))))))

/-- What the parser makes of it. -/
def entry (r : DirectoryRecord) : DirectoryEntry where
  name := r.name
  attributes := r.attributes
  reparseTag := if r.attributes &&& reparsePoint == 0 then 0 else r.reparseTag
  fileId := r.fileId
  changeTime := r.changeTime
  endOfFile := r.endOfFile

/-- It is not `.` or `..`. -/
def isShown (r : DirectoryRecord) : Bool :=
  !dotNames.contains r.name

end DirectoryRecord

/-- A page: the records one after the other, and zeros behind the last one. -/
def layoutPage (padding : ℕ) : List DirectoryRecord → Bytes
  | [] => List.replicate padding 0
  | [r] => r.encode 0 ++ List.replicate padding 0
  | r :: rs => r.encode (r.size + r.gap.length) ++ (r.gap ++ layoutPage padding rs)

/-- The entries of the records that are shown. -/
def shownEntries (rs : List DirectoryRecord) : List DirectoryEntry :=
  (rs.filter DirectoryRecord.isShown).map DirectoryRecord.entry

section Layout

variable {r : DirectoryRecord} {rs : List DirectoryRecord} {next padding : ℕ} {tail : Bytes}
  {entries : List DirectoryEntry}

@[simp] theorem length_encode : (r.encode next).length = r.size := by
  simp only [DirectoryRecord.encode, DirectoryRecord.size, List.length_append, length_leBytes,
    r.head_length, r.allocationSize_length, r.eaSize_length, r.fileId_length, headerSize]
  omega

/-- What stands behind `pre` is read back. -/
theorem slice_eq {view mid post : Bytes} {start size : ℕ} (pre : Bytes)
    (h : view = pre ++ (mid ++ post)) (hpre : pre.length = start) (hmid : mid.length = size) :
    slice view start size = mid := by
  subst h hpre hmid
  rw [slice, List.drop_left, List.take_left]

/-- A number that was laid out is read back. -/
theorem leNat_slice {view post : Bytes} {start size n : ℕ} (pre : Bytes)
    (h : view = pre ++ (leBytes size n ++ post)) (hpre : pre.length = start)
    (hn : n < 256 ^ size) : leNat (slice view start size) = n := by
  rw [slice_eq pre h hpre (length_leBytes size n), leNat_leBytes size hn]

/-- The fields of a record that was laid out. -/
theorem fieldsOf_encode (hnext : next < 2 ^ 32) :
    fieldsOf (r.encode next ++ tail) =
      { nextEntryOffset := next
        changeTime := r.changeTime
        endOfFile := r.endOfFile
        attributes := r.attributes
        nameLength := (utf16Encode r.name).length
        reparseTag := r.entry.reparseTag
        fileId := r.fileId } := by
  have hfits := r.fits
  have hhead := r.head_length
  have halloc := r.allocationSize_length
  have hea := r.eaSize_length
  have hnextField : leNat (slice (r.encode next ++ tail) 0 4) = next :=
    leNat_slice [] (by rw [DirectoryRecord.encode, List.append_assoc, List.nil_append]) rfl hnext
  have hchange : leNat (slice (r.encode next ++ tail) 32 8) = r.changeTime :=
    leNat_slice (leBytes 4 next ++ r.head)
      (by simp only [DirectoryRecord.encode, List.append_assoc]; rfl)
      (by simp [hhead]) (by have := r.changeTime_lt; omega)
  have hend : leNat (slice (r.encode next ++ tail) 40 8) = r.endOfFile :=
    leNat_slice (leBytes 4 next ++ (r.head ++ leBytes 8 r.changeTime))
      (by simp only [DirectoryRecord.encode, List.append_assoc]; rfl)
      (by simp [hhead]) (by have := r.endOfFile_lt; omega)
  have hattributes : leNat (slice (r.encode next ++ tail) 56 4) = r.attributes :=
    leNat_slice (leBytes 4 next ++ (r.head ++ (leBytes 8 r.changeTime ++
        (leBytes 8 r.endOfFile ++ r.allocationSize))))
      (by simp only [DirectoryRecord.encode, List.append_assoc]; rfl)
      (by simp [hhead, halloc]) (by have := r.attributes_lt; omega)
  have hlength : leNat (slice (r.encode next ++ tail) 60 4) = (utf16Encode r.name).length :=
    leNat_slice (leBytes 4 next ++ (r.head ++ (leBytes 8 r.changeTime ++
        (leBytes 8 r.endOfFile ++ (r.allocationSize ++ leBytes 4 r.attributes)))))
      (by simp only [DirectoryRecord.encode, List.append_assoc]; rfl)
      (by simp [hhead, halloc]) (by have : fileNameMaxBytes = 510 := rfl; omega)
  have htag : leNat (slice (r.encode next ++ tail) 68 4) = r.reparseTag :=
    leNat_slice (leBytes 4 next ++ (r.head ++ (leBytes 8 r.changeTime ++
        (leBytes 8 r.endOfFile ++ (r.allocationSize ++ (leBytes 4 r.attributes ++
          (leBytes 4 (utf16Encode r.name).length ++ r.eaSize)))))))
      (by simp only [DirectoryRecord.encode, List.append_assoc]; rfl)
      (by simp [hhead, halloc, hea]) (by have := r.reparseTag_lt; omega)
  have hid : slice (r.encode next ++ tail) 72 16 = r.fileId :=
    slice_eq (leBytes 4 next ++ (r.head ++ (leBytes 8 r.changeTime ++
        (leBytes 8 r.endOfFile ++ (r.allocationSize ++ (leBytes 4 r.attributes ++
          (leBytes 4 (utf16Encode r.name).length ++ (r.eaSize ++ leBytes 4 r.reparseTag))))))))
      (by simp only [DirectoryRecord.encode, List.append_assoc]; rfl)
      (by simp [hhead, halloc, hea]) r.fileId_length
  simp only [fieldsOf, hnextField, hchange, hend, hattributes, hlength, htag, hid,
    signed64_of_lt r.changeTime_lt, signed64_of_lt r.endOfFile_lt, DirectoryRecord.entry]

theorem slice_name : slice (r.encode next ++ tail) headerSize (utf16Encode r.name).length =
    utf16Encode r.name :=
  slice_eq (leBytes 4 next ++ (r.head ++ (leBytes 8 r.changeTime ++
      (leBytes 8 r.endOfFile ++ (r.allocationSize ++ (leBytes 4 r.attributes ++
        (leBytes 4 (utf16Encode r.name).length ++ (r.eaSize ++ (leBytes 4 r.reparseTag ++
          r.fileId)))))))))
    (by simp only [DirectoryRecord.encode, List.append_assoc]; rfl)
    (by simp [r.head_length, r.allocationSize_length, r.eaSize_length, r.fileId_length,
      headerSize]) rfl

/-- The name of a record that was laid out. -/
theorem recordName_utf16Encode :
    recordName (utf16Encode r.name) = .ok (if r.isShown then r.name else []) := by
  have hforbidden : r.name.any isForbidden = false := by
    simpa using r.permitted
  have hempty : r.name.isEmpty = false := by
    simpa using r.nonempty
  unfold recordName DirectoryRecord.isShown
  rw [utf16Decode_utf16Encode r.encodable]
  cases hdot : dotNames.contains r.name with
  | false =>
    simp only [hforbidden, hempty, hdot, Bool.or_self, Bool.not_false, Bool.false_eq_true, if_true,
      if_false]
  | true =>
    simp only [hdot, Bool.or_true, Bool.not_true, Bool.false_eq_true, if_true, if_false]

theorem name_length_pos : 0 < (utf16Encode r.name).length := by
  obtain ⟨c, s, hs⟩ := List.exists_cons_of_ne_nil r.nonempty
  have hunits : 0 < (utf16Units c).length := by
    unfold utf16Units
    dsimp only
    split <;> simp
  rw [length_utf16Encode, hs, List.flatMap_cons, List.length_append]
  omega

/-- A record that was laid out adds its entry, when it is shown. -/
theorem parseRecord_encode (hnext : next < 2 ^ 32)
    (hnew : r.isShown = true → r.name ∉ entries.map (·.name)) :
    parseRecord (r.encode next ++ tail) entries = .ok (entries ++ shownEntries [r]) := by
  have hfits := r.fits
  have hpos := name_length_pos (r := r)
  have heven : (utf16Encode r.name).length % 2 = 0 := by
    rw [length_utf16Encode]
    omega
  have hlen : (utf16Encode r.name).length ≤ (r.encode next ++ tail).length - headerSize := by
    rw [List.length_append, length_encode, DirectoryRecord.size]
    omega
  have hok : ((utf16Encode r.name).length == 0 || fileNameMaxBytes < (utf16Encode r.name).length ||
      (utf16Encode r.name).length % 2 != 0 ||
      (r.encode next ++ tail).length - headerSize < (utf16Encode r.name).length ||
      ((r.changeTime : ℤ) < 0 : Bool) || ((r.endOfFile : ℤ) < 0 : Bool)) = false := by
    simp only [Bool.or_eq_false_iff, beq_eq_false_iff_ne, decide_eq_false_iff_not, not_lt,
      bne_eq_false_iff_eq]
    omega
  simp only [parseRecord, fieldsOf_encode hnext, hok, slice_name, recordName_utf16Encode]
  cases hshown : r.isShown with
  | false => simp [Bind.bind, Except.bind, pure, Except.pure, shownEntries, hshown]
  | true =>
    have hdot : r.name ∉ dotNames := by
      simpa [DirectoryRecord.isShown] using hshown
    have hid := r.identified hdot
    have hnew : (entries.map (·.name)).contains r.name = false := by
      simpa only [List.contains_eq_mem, decide_eq_false_iff_not] using hnew hshown
    have hid : sentinelIds.contains r.fileId = false := by
      simpa only [List.contains_eq_mem, decide_eq_false_iff_not] using hid
    have hempty : r.name.isEmpty = false := by
      simpa using r.nonempty
    simp only [Bind.bind, Except.bind, pure, Except.pure, if_true, hempty, Bool.false_eq_true,
      if_false, require, hid, hnew, Bool.not_false]
    simp only [shownEntries, hshown, DirectoryRecord.entry, List.filter_cons_of_pos,
      List.filter_nil, List.map_cons, List.map_nil]

theorem shownEntries_cons : shownEntries (r :: rs) = shownEntries [r] ++ shownEntries rs := by
  unfold shownEntries
  rw [← List.map_append, ← List.filter_append, List.singleton_append]

theorem notMem_of_nodup (h : ((entries ++ shownEntries (r :: rs)).map (·.name)).Nodup)
    (hshown : r.isShown = true) : r.name ∉ entries.map (·.name) := by
  rw [List.map_append, List.nodup_append] at h
  intro hmem
  refine h.2.2 _ hmem r.name ?_ rfl
  simp [shownEntries, hshown, DirectoryRecord.entry]

theorem layoutPage_cons_cons {r' : DirectoryRecord} : layoutPage padding (r :: r' :: rs) =
    r.encode (r.size + r.gap.length) ++ (r.gap ++ layoutPage padding (r' :: rs)) :=
  rfl

theorem isZero_replicate (padding : ℕ) : isZero (List.replicate padding 0) = true := by
  simp [isZero]

/-- The loop reads the records of a page that was laid out, one after the other. -/
theorem parseLoop_layoutPage : ∀ {rs : List DirectoryRecord} {entries : List DirectoryEntry},
    rs ≠ [] → (layoutPage padding rs).length < 2 ^ 32 →
    ((entries ++ shownEntries rs).map (·.name)).Nodup →
    parseLoop (layoutPage padding rs) entries = .ok (entries ++ shownEntries rs)
  | [], _, hne, _, _ => absurd rfl hne
  | [r], entries, _, hlen, hnd => by
    have hempty : (layoutPage padding [r]).isEmpty = false := by
      rw [List.isEmpty_eq_false_iff, ← List.length_pos_iff, layoutPage, List.length_append,
        length_encode, DirectoryRecord.size, headerSize]
      omega
    have hlong : ¬(layoutPage padding [r]).length < headerSize := by
      rw [layoutPage, List.length_append, length_encode, DirectoryRecord.size]
      omega
    have hrecord : parseRecord (r.encode 0 ++ List.replicate padding 0) entries =
        .ok (entries ++ shownEntries [r]) :=
      parseRecord_encode (by decide) (notMem_of_nodup hnd)
    have htail : isZero ((r.encode 0 ++ List.replicate padding 0).drop r.size) = true := by
      rw [List.drop_left' length_encode]
      exact isZero_replicate padding
    rw [parseLoop, hempty, if_neg Bool.false_ne_true, dif_neg hlong, layoutPage, hrecord]
    simp only [fieldsOf_encode (show 0 < 2 ^ 32 by decide), if_true]
    rw [← DirectoryRecord.size, htail, if_pos rfl]
  | r :: r' :: rs, entries, _, hlen, hnd => by
    have hsize : (layoutPage padding (r :: r' :: rs)).length =
        r.size + r.gap.length + (layoutPage padding (r' :: rs)).length := by
      rw [layoutPage_cons_cons, List.length_append, length_encode, List.length_append]
      omega
    have hempty : (layoutPage padding (r :: r' :: rs)).isEmpty = false := by
      rw [List.isEmpty_eq_false_iff, ← List.length_pos_iff, hsize, DirectoryRecord.size, headerSize]
      omega
    have hlong : ¬(layoutPage padding (r :: r' :: rs)).length < headerSize := by
      rw [hsize, DirectoryRecord.size]
      omega
    have hnext : r.size + r.gap.length < 2 ^ 32 := by omega
    have hrecord : parseRecord (layoutPage padding (r :: r' :: rs)) entries =
        .ok (entries ++ shownEntries [r]) :=
      parseRecord_encode hnext (notMem_of_nodup hnd)
    have hzero : r.size + r.gap.length ≠ 0 := by
      rw [DirectoryRecord.size, headerSize]
      omega
    have hoffset : ¬((r.size + r.gap.length) % 8 ≠ 0 ∨ r.size + r.gap.length < r.size ∨
        (layoutPage padding (r :: r' :: rs)).length < r.size + r.gap.length) := by
      have := r.aligned
      rw [← DirectoryRecord.size] at this
      omega
    have hdrop : (layoutPage padding (r :: r' :: rs)).drop (r.size + r.gap.length) =
        layoutPage padding (r' :: rs) := by
      rw [layoutPage_cons_cons, ← List.append_assoc]
      exact List.drop_left' (by rw [List.length_append, length_encode])
    rw [shownEntries_cons, ← List.append_assoc] at hnd ⊢
    have ih := parseLoop_layoutPage (List.cons_ne_nil r' rs) (by omega) hnd
    rw [parseLoop, hempty, if_neg Bool.false_ne_true, dif_neg hlong, hrecord]
    simp only [layoutPage_cons_cons] at hoffset hdrop ⊢
    simp only [fieldsOf_encode hnext, if_neg hzero]
    rw [← DirectoryRecord.size, dif_neg hoffset, hdrop, ih]

/-- A page that was laid out gives the entries that are shown, each once and in order. -/
theorem parse_layoutPage (hlen : (layoutPage padding rs).length ≤ maxPageBytes)
    (hnd : ((shownEntries rs).map (·.name)).Nodup) :
    parseWindowsDirectoryEntries (layoutPage padding rs) = .ok (shownEntries rs) := by
  have hmax : maxPageBytes = 1048576 := rfl
  rw [parseWindowsDirectoryEntries, if_neg (Nat.not_lt_of_le hlen)]
  cases rs with
  | nil => rw [layoutPage, isZero_replicate, if_pos rfl]; rfl
  | cons r rs =>
    obtain ⟨next, tail, hpage, hnext⟩ : ∃ next tail,
        layoutPage padding (r :: rs) = r.encode next ++ tail ∧ next < 2 ^ 32 := by
      cases rs with
      | nil => exact ⟨0, _, rfl, by decide⟩
      | cons r' rs =>
        refine ⟨_, _, rfl, ?_⟩
        rw [layoutPage_cons_cons, List.length_append, length_encode, List.length_append] at hlen
        omega
    have hzero : isZero (layoutPage padding (r :: rs)) = false := by
      rw [hpage, Bool.eq_false_iff]
      intro hzero
      have hfields : fieldsOf (r.encode next ++ tail) = _ := fieldsOf_encode hnext
      have hlength : leNat (slice (r.encode next ++ tail) 60 4) = (utf16Encode r.name).length :=
        congrArg RecordFields.nameLength hfields
      have hpos := name_length_pos (r := r)
      rw [leNat_eq_zero] at hlength
      · omega
      · intro b hb
        have hmem := List.mem_of_mem_drop (List.mem_of_mem_take hb)
        exact eq_of_beq (List.all_eq_true.mp hzero b hmem)
    rw [hzero, if_neg Bool.false_ne_true]
    exact parseLoop_layoutPage (List.cons_ne_nil r rs) (by omega) hnd

end Layout

/-! ## What is collected -/

/-- The class of the `n`-th call. -/
def classAt (n : ℕ) : InformationClass :=
  if n = 0 then .restart else .next

/-- From the `n`-th call on, the calls answer with the pages, and then that there are no more
files. Only the first page may be without entries, when it holds the dot entries. -/
inductive Enumerates (readPage : ℕ → InformationClass → PageResponse) (bufferBytes : ℕ) :
    ℕ → List (List DirectoryEntry) → Prop
  | done {n : ℕ} {payload : Bytes}
      (answer : readPage n (classAt n) = .response false errorNoMoreFiles payload)
      (fits : payload.length ≤ bufferBytes) : Enumerates readPage bufferBytes n []
  | page {n : ℕ} {payload : Bytes} {page : List DirectoryEntry} {pages : List (List DirectoryEntry)}
      (answer : readPage n (classAt n) = .response true 0 payload)
      (fits : payload.length ≤ bufferBytes)
      (accepted : parseWindowsDirectoryEntries payload = .ok page)
      (progress : page ≠ [] ∨ n = 0 ∧ isZero payload = false)
      (rest : Enumerates readPage bufferBytes (n + 1) pages) :
      Enumerates readPage bufferBytes n (page :: pages)

/-- What may be listed. -/
structure Listing (entries : List DirectoryEntry) : Prop where
  nodup : (entries.map (·.name)).Nodup
  bounded : entries.length ≤ maxDirectoryEntries

section Collect

variable {readPage : ℕ → InformationClass → PageResponse} {bufferBytes left n : ℕ}
  {entries page out : List DirectoryEntry}

theorem Listing.of_append (h : Listing (entries ++ page)) : Listing entries := by
  obtain ⟨hnodup, hbounded⟩ := h
  rw [List.map_append] at hnodup
  rw [List.length_append] at hbounded
  exact ⟨hnodup.of_append_left, by omega⟩

theorem listing_append_singleton {e : DirectoryEntry} (h : Listing entries) :
    Listing (entries ++ [e]) ↔
      e.name ∉ entries.map (·.name) ∧ entries.length + 1 ≤ maxDirectoryEntries := by
  constructor
  · rintro ⟨hnodup, hbounded⟩
    rw [List.map_append, List.nodup_append] at hnodup
    rw [List.length_append, List.length_singleton] at hbounded
    exact ⟨fun hmem => hnodup.2.2 _ hmem e.name (by simp) rfl, hbounded⟩
  · rintro ⟨hnew, hbounded⟩
    refine ⟨?_, by rwa [List.length_append, List.length_singleton]⟩
    rw [List.map_append]
    exact h.nodup.append (List.nodup_singleton e.name) (by simpa using hnew)

/-- The entries of a page are added when they may be listed. -/
theorem addPage_eq_ok (h : Listing entries) :
    addPage entries page = .ok out ↔ out = entries ++ page ∧ Listing (entries ++ page) := by
  induction page generalizing entries with
  | nil =>
    rw [List.append_nil, addPage, Except.ok.injEq, eq_comm]
    exact (and_iff_left h).symm
  | cons e page ih =>
    have hsplit : entries ++ e :: page = entries ++ [e] ++ page := by
      rw [List.append_assoc, List.singleton_append]
    simp only [addPage, bind_eq_ok, require_eq_ok, exists_const, Bool.not_eq_true',
      List.contains_eq_mem, decide_eq_false_iff_not, decide_eq_true_eq]
    rw [hsplit, ← and_assoc, ← listing_append_singleton h]
    constructor
    · rintro ⟨he, hrest⟩
      exact (ih he).mp hrest
    · rintro ⟨rfl, hlisting⟩
      exact ⟨hlisting.of_append, (ih hlisting.of_append).mpr ⟨rfl, hlisting⟩⟩

/-- The answers that give a page, and those that end the enumeration. -/
theorem pageOf_eq_ok {response : PageResponse} {answer : Option Bytes} :
    pageOf bufferBytes response = .ok answer ↔ ∃ payload, payload.length ≤ bufferBytes ∧
      (response = .response true 0 payload ∧ answer = some payload ∨
        response = .response false errorNoMoreFiles payload ∧ answer = none) := by
  constructor
  · intro h
    cases response with
    | raises => cases h
    | malformed => cases h
    | response succeeded winerror payload =>
      unfold pageOf at h
      dsimp only at h
      split_ifs at h with hbad hsucceeded hnone
      · simp only [hsucceeded, Bool.true_and, Bool.or_eq_true, decide_eq_true_eq, not_or, not_lt,
          bne_iff_ne, not_not] at hbad
        obtain rfl := Except.ok.inj h
        exact ⟨payload, hbad.1.1, .inl ⟨by rw [hsucceeded, hbad.1.2], rfl⟩⟩
      · simp only [Bool.or_eq_true, decide_eq_true_eq, not_or, not_lt] at hbad
        obtain rfl := Except.ok.inj h
        rw [Bool.not_eq_true] at hsucceeded
        exact ⟨payload, hbad.1.1, .inr ⟨by rw [hsucceeded, hnone], rfl⟩⟩
  · rintro ⟨payload, hfits, ⟨rfl, rfl⟩ | ⟨rfl, rfl⟩⟩ <;>
      simp [pageOf, hfits, errorNoMoreFiles]

/-- What one call of `read_page` can do: it ends the enumeration, or it adds a page. -/
theorem collectLoop_step (h : Listing entries) (hfirst : n = 0 → entries = []) :
    collectLoop readPage bufferBytes (left + 1) n (classAt n) entries = .ok out ↔
      (∃ payload, readPage n (classAt n) = .response false errorNoMoreFiles payload ∧
        payload.length ≤ bufferBytes ∧ out = entries) ∨
      ∃ payload page, readPage n (classAt n) = .response true 0 payload ∧
        payload.length ≤ bufferBytes ∧ parseWindowsDirectoryEntries payload = .ok page ∧
        (page ≠ [] ∨ n = 0 ∧ isZero payload = false) ∧ Listing (entries ++ page) ∧
        collectLoop readPage bufferBytes left (n + 1) .next (entries ++ page) = .ok out := by
  rw [collectLoop, bind_eq_ok]
  constructor
  · rintro ⟨answer, hanswer, hrest⟩
    obtain ⟨payload, hfits, ⟨hresponse, rfl⟩ | ⟨hresponse, rfl⟩⟩ := pageOf_eq_ok.mp hanswer
    · dsimp only at hrest
      rw [bind_eq_ok] at hrest
      obtain ⟨page, hpage, hrest⟩ := hrest
      refine .inr ⟨payload, page, hresponse, hfits, hpage, ?_⟩
      split_ifs at hrest with hempty hdots
      · rw [List.isEmpty_iff] at hempty
        subst hempty
        simp only [Bool.and_eq_true, beq_iff_eq, Bool.not_eq_true'] at hdots
        rw [List.append_nil]
        exact ⟨.inr ⟨hdots.1.1.2, hdots.2⟩, h, hrest⟩
      · rw [bind_eq_ok] at hrest
        obtain ⟨entries', hadd, hrest⟩ := hrest
        obtain ⟨rfl, hlisting⟩ := (addPage_eq_ok h).mp hadd
        exact ⟨.inl (by simpa using hempty), hlisting, hrest⟩
    · exact .inl ⟨payload, hresponse, hfits, (Except.ok.inj hrest).symm⟩
  · rintro (⟨payload, hresponse, hfits, rfl⟩ |
      ⟨payload, page, hresponse, hfits, hpage, hprogress, hlisting, hrest⟩)
    · exact ⟨none, pageOf_eq_ok.mpr ⟨payload, hfits, .inr ⟨hresponse, rfl⟩⟩, rfl⟩
    · refine ⟨some payload, pageOf_eq_ok.mpr ⟨payload, hfits, .inl ⟨hresponse, rfl⟩⟩, ?_⟩
      dsimp only
      rw [hpage]
      by_cases hempty : page = []
      · subst hempty
        rw [List.append_nil] at hrest
        obtain ⟨rfl, hzero⟩ := hprogress.resolve_left (· rfl)
        obtain rfl := hfirst rfl
        simpa [Bind.bind, Except.bind, classAt, hzero] using hrest
      · have hadd := (addPage_eq_ok h).mpr ⟨rfl, hlisting⟩
        have hempty : page.isEmpty = false := by simpa using hempty
        simpa [Bind.bind, Except.bind, hempty, hadd] using hrest

/-- The loop returns the pages one after the other, and nothing else. -/
theorem collectLoop_eq_ok (h : Listing entries) (hfirst : n = 0 → entries = []) :
    collectLoop readPage bufferBytes left n (classAt n) entries = .ok out ↔
      ∃ pages, Enumerates readPage bufferBytes n pages ∧ pages.length < left ∧
        out = entries ++ pages.flatten ∧ Listing out := by
  induction left generalizing n entries with
  | zero => simp [collectLoop]
  | succ left ih =>
    have hclass : classAt (n + 1) = .next := if_neg (Nat.succ_ne_zero n)
    rw [collectLoop_step h hfirst, ← hclass]
    constructor
    · rintro (⟨payload, hresponse, hfits, rfl⟩ |
        ⟨payload, page, hresponse, hfits, hpage, hprogress, hlisting, hrest⟩)
      · exact ⟨[], .done hresponse hfits, Nat.succ_pos left, (List.append_nil _).symm, h⟩
      · obtain ⟨pages, hpages, hcount, rfl, hout⟩ :=
          (ih hlisting fun hn => absurd hn (Nat.succ_ne_zero n)).mp hrest
        refine ⟨page :: pages, .page hresponse hfits hpage hprogress hpages, ?_, ?_, hout⟩
        · rw [List.length_cons]
          omega
        · rw [List.flatten_cons, List.append_assoc]
    · rintro ⟨pages, hpages, hcount, rfl, hout⟩
      cases hpages with
      | done hresponse hfits => exact .inl ⟨_, hresponse, hfits, List.append_nil _⟩
      | @page _ payload page pages hresponse hfits hpage hprogress hpages =>
        rw [List.length_cons] at hcount
        rw [List.flatten_cons, ← List.append_assoc] at hout
        refine .inr ⟨payload, page, hresponse, hfits, hpage, hprogress, hout.of_append, ?_⟩
        have hfirst : n + 1 = 0 → entries ++ page = [] := fun hn => absurd hn (Nat.succ_ne_zero n)
        rw [ih hout.of_append hfirst, List.flatten_cons, ← List.append_assoc]
        exact ⟨pages, hpages, by omega, rfl, hout⟩

/-- The collector returns all pages, one after the other, when there are no more files, and in no
other case. -/
theorem collect_eq_ok :
    collectWindowsDirectoryEntries readPage bufferBytes = .ok out ↔
      (minDirectoryBufferBytes ≤ bufferBytes ∧ bufferBytes ≤ maxDirectoryBufferBytes) ∧
      ∃ pages, Enumerates readPage bufferBytes 0 pages ∧ pages.length < maxEnumerationPages ∧
        out = pages.flatten ∧ Listing out := by
  have hnil : Listing [] := ⟨List.nodup_nil, Nat.zero_le _⟩
  have hloop : collectLoop readPage bufferBytes maxEnumerationPages 0 (classAt 0) [] = .ok out ↔
      _ := collectLoop_eq_ok hnil fun _ => rfl
  rw [collectWindowsDirectoryEntries]
  split_ifs with hsize
  · simp only [Bool.or_eq_true, decide_eq_true_eq] at hsize
    simp only [false_iff, not_and]
    omega
  · simp only [Bool.or_eq_true, decide_eq_true_eq, not_or, not_lt] at hsize
    rw [and_iff_right hsize]
    simpa [classAt] using hloop

end Collect

/-- A record of a regular file without times. -/
def fileRecord (name : PyStr) (gap : Bytes)
    (hname : name.all isScalar = true ∧ name ≠ [] ∧ (∀ c ∈ name, isForbidden c = false) ∧
      (utf16Encode name).length ≤ fileNameMaxBytes ∧
      (headerSize + (utf16Encode name).length + gap.length) % 8 = 0) : DirectoryRecord where
  head := List.replicate 28 0
  changeTime := 0
  endOfFile := 5
  allocationSize := List.replicate 8 0
  attributes := 0x80
  eaSize := List.replicate 4 0
  reparseTag := 0
  fileId := 7 :: List.replicate 15 0
  name := name
  gap := gap
  head_length := rfl
  changeTime_lt := by decide
  endOfFile_lt := by decide
  allocationSize_length := rfl
  attributes_lt := by decide
  eaSize_length := rfl
  reparseTag_lt := by decide
  fileId_length := rfl
  identified := fun _ => by decide
  encodable := hname.1
  nonempty := hname.2.1
  permitted := hname.2.2.1
  fits := hname.2.2.2.1
  aligned := hname.2.2.2.2

set_option maxRecDepth 2000 in
example : parseWindowsDirectoryEntries
    (layoutPage 3 [fileRecord (lit ".") (List.replicate 6 0) (by decide),
      fileRecord (lit "ab") (List.replicate 4 0) (by decide)]) =
    .ok [(fileRecord (lit "ab") (List.replicate 4 0) (by decide)).entry] :=
  parse_layoutPage (by decide) (by decide)

/-- A page with one `FILE_ID_BOTH_DIR_INFO` record, of 104 bytes up to its name, of the file `a`. -/
def bothDirectoryPage : Bytes :=
  List.replicate 56 0 ++ leBytes 4 0x80 ++ leBytes 4 2 ++ List.replicate 32 0 ++ leBytes 8 7 ++
    utf16Encode (lit "a")

end DirectoryPages

end Icode
