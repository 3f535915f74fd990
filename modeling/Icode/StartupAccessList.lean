import Mathlib.Data.Nat.Bitwise
import Icode.ByteFields
import Icode.Checks
import Icode.DecimalText
import Icode.JoinedText

/-!
# The access list of a startup descriptor

The components that a self-relative security descriptor points to: SIDs, and the access list with
its entries. Each reader is met by what it reads, all of it within its limit: a SID (`sid_eq_ok`),
an entry (`ace_eq_ok`), by induction on their number the entries of a list (`aces_eq_ok`), and the
list, of which the rest is zero (`acl_eq_ok`).
-/

namespace Icode.StartupSecurity

open Py

variable {data : Bytes} {start limit stop position : ℕ}

/-! ## SIDs -/

/-- The text of a SID. -/
def sidText (authority : ℕ) (subauthorities : List ℕ) : PyStr :=
  lit "S-1-" ++ natText authority ++ subauthorities.flatMap fun value => lit "-" ++ natText value

/-- `_sid`: the text, and where the SID ends. No limit is behind the bytes. -/
def sid (data : Bytes) (start limit : ℕ) : Except String (PyStr × ℕ) := do
  require (start + 8 ≤ limit) "truncated SID header"
  let revision := data.getD start 0
  let count := (data.getD (start + 1) 0).toNat
  let stop := start + 8 + 4 * count
  require (revision == 1 && count ≤ 15 && stop ≤ limit) "invalid or truncated SID"
  let authority := beNat (sliceAt data (start + 2) 6)
  pure (sidText authority (unpackWords data (start + 8) count), stop)

/-- A security identifier. -/
@[ext] structure Sid where
  authority : ℕ
  subauthorities : List ℕ
  authority_lt : authority < 2 ^ 48
  length_le : subauthorities.length ≤ 15
  subauthority_lt : ∀ value ∈ subauthorities, value < 2 ^ 32

namespace Sid

def text (s : Sid) : PyStr :=
  sidText s.authority s.subauthorities

def size (s : Sid) : ℕ :=
  8 + 4 * s.subauthorities.length

def bytes (s : Sid) : Bytes :=
  [1, UInt8.ofNat s.subauthorities.length] ++
    (beBytes 6 s.authority ++ s.subauthorities.flatMap (leBytes 4))

@[simp] theorem length_bytes (s : Sid) : s.bytes.length = s.size := by
  have hwords : ∀ words : List ℕ, (words.flatMap (leBytes 4)).length = 4 * words.length := by
    intro words
    induction words with
    | nil => rfl
    | cons word words ih =>
      rw [List.flatMap_cons, List.length_append, length_leBytes, ih, List.length_cons]
      omega
  rw [bytes, List.length_append, List.length_append, length_beBytes, hwords, size]
  simp only [List.length_cons, List.length_nil]
  omega

theorem size_pos (s : Sid) : 0 < s.size := by
  unfold size
  omega

theorem size_le (s : Sid) : s.size ≤ 68 := by
  have := s.length_le
  unfold size
  omega

/-- A SID stands where its fields are read. -/
theorem at_bytes_iff {s : Sid} : At data start s.bytes ↔
    start + s.size ≤ data.length ∧ data.getD start 0 = 1 ∧
      (data.getD (start + 1) 0).toNat = s.subauthorities.length ∧
      beNat (sliceAt data (start + 2) 6) = s.authority ∧
      unpackWords data (start + 8) s.subauthorities.length = s.subauthorities := by
  have hcount : s.subauthorities.length < 256 := s.length_le.trans_lt (by decide)
  have hbyte : ∀ x : UInt8, x = UInt8.ofNat s.subauthorities.length ↔
      x.toNat = s.subauthorities.length := by
    intro x
    rw [← UInt8.toNat_inj, toNat_ofNat_of_lt hcount]
  rw [bytes, at_append, at_append, at_cons, at_byte_iff, at_byte_iff, hbyte,
    at_be_iff (by decide) s.authority_lt, length_beBytes, List.length_cons, List.length_singleton,
    size]
  constructor
  · rintro ⟨⟨⟨_, hrevision⟩, _, hlen⟩, ⟨hle, hauthority⟩, hwords⟩
    obtain ⟨hstop, hwords⟩ := (at_words_iff hle s.subauthority_lt).mp hwords
    exact ⟨by omega, hrevision, hlen, hauthority, hwords⟩
  · rintro ⟨hle, hrevision, hlen, hauthority, hwords⟩
    refine ⟨⟨⟨by omega, hrevision⟩, by omega, hlen⟩, ⟨by omega, hauthority⟩, ?_⟩
    exact (at_words_iff (by omega) s.subauthority_lt).mpr ⟨by omega, hwords⟩

/-- One SID stands at an offset. -/
theorem eq_of_at {s t : Sid} (hs : At data start s.bytes) (ht : At data start t.bytes) : s = t := by
  obtain ⟨-, -, hlen, hauthority, hwords⟩ := (at_bytes_iff).mp hs
  obtain ⟨-, -, hlen', hauthority', hwords'⟩ := (at_bytes_iff).mp ht
  refine Sid.ext (hauthority.symm.trans hauthority') ?_
  rw [← hwords, ← hwords', ← hlen, hlen']

end Sid

/-- What is read as a SID is one, and all of it stands within the limit. -/
theorem sid_eq_ok (hlimit : limit ≤ data.length) {text : PyStr} :
    sid data start limit = .ok (text, stop) ↔
      ∃ s : Sid, At data start s.bytes ∧ stop = start + s.size ∧ stop ≤ limit ∧ text = s.text := by
  simp only [sid, bind_eq_ok, require_eq_ok, exists_const, decide_eq_true_eq, Bool.and_eq_true,
    beq_iff_eq, pure, Except.pure, Except.ok.injEq, Prod.mk.injEq]
  constructor
  · rintro ⟨hheader, ⟨⟨hrevision, hcount⟩, hstop⟩, rfl, rfl⟩
    have hlen : (unpackWords data (start + 8) (data.getD (start + 1) 0).toNat).length =
        (data.getD (start + 1) 0).toNat := length_unpackWords _ _ _
    have hauthority : beNat (sliceAt data (start + 2) 6) < 2 ^ 48 := by
      have h := beNat_lt (sliceAt data (start + 2) 6)
      rwa [length_sliceAt (by omega)] at h
    obtain ⟨s, hs, hsubs⟩ : ∃ s : Sid, s.authority = beNat (sliceAt data (start + 2) 6) ∧
        s.subauthorities = unpackWords data (start + 8) (data.getD (start + 1) 0).toNat :=
      ⟨⟨_, _, hauthority, hlen.trans_le hcount, unpackWords_lt data _ _⟩, rfl, rfl⟩
    have hcount' : s.subauthorities.length = (data.getD (start + 1) 0).toNat := by rw [hsubs, hlen]
    refine ⟨s, ?_, by rw [Sid.size, hcount', Nat.add_assoc], hstop, by rw [Sid.text, hs, hsubs]⟩
    rw [Sid.at_bytes_iff, Sid.size, hcount', hs, hsubs]
    exact ⟨by omega, hrevision, rfl, rfl, rfl⟩
  · rintro ⟨s, hs, rfl, hstop, rfl⟩
    obtain ⟨_, hrevision, hlen, hauthority, hwords⟩ := (Sid.at_bytes_iff).mp hs
    rw [Sid.size] at hstop ⊢
    have hle := s.length_le
    rw [hlen, hauthority, hwords]
    exact ⟨by omega, ⟨⟨hrevision, hle⟩, by omega⟩, rfl, by omega⟩

/-! ## Access lists -/

/-- `n & ~mask` -/
def andNot (n mask : ℕ) : ℕ :=
  n ^^^ (n &&& mask)

theorem andNot_eq_zero_iff {n mask : ℕ} : andNot n mask = 0 ↔ n &&& mask = n := by
  unfold andNot
  constructor
  · intro h
    have hcancel := Nat.xor_xor_cancel_left n (n &&& mask)
    rwa [h, Nat.xor_zero, eq_comm] at hcancel
  · intro h
    rw [h, Nat.xor_self]

/-- `_ACE_FLAGS_MASK` -/
def aceFlagsMask : ℕ := 0x1f

/-- `_FILE_ACCESS_MASK` -/
def fileAccessMask : ℕ := 0xf01f01ff

structure StartupAccessEntry where
  allowed : Bool
  flags : ℕ
  mask : ℕ
  sid : PyStr
  deriving DecidableEq

/-- One round of the loop in `_acl`: the entry, and where the next one starts. -/
def ace (data : Bytes) (stop position : ℕ) : Except String (StartupAccessEntry × ℕ) := do
  require (position + 8 ≤ stop) "truncated ACE header"
  let kind := data.getD position 0
  let flags := (data.getD (position + 1) 0).toNat
  let aceSize := leNat (sliceAt data (position + 2) 2)
  let mask := leNat (sliceAt data (position + 4) 4)
  let aceEnd := position + aceSize
  require ((kind == 0 || kind == 1) && andNot flags aceFlagsMask == 0 &&
    andNot mask fileAccessMask == 0 && 16 ≤ aceSize && aceSize % 4 == 0 && aceEnd ≤ stop)
    "unsupported or invalid ACE"
  let trustee ← sid data (position + 8) aceEnd
  require (trustee.2 == aceEnd) "SID does not fill ACE"
  pure (⟨kind == 0, flags, mask, trustee.1⟩, aceEnd)

/-- The loop in `_acl`: the entries, and where the last one ends. -/
def aces (data : Bytes) (stop : ℕ) : ℕ → ℕ → Except String (List StartupAccessEntry × ℕ)
  | 0, position => pure ([], position)
  | count + 1, position => do
    let entry ← ace data stop position
    let entries ← aces data stop count entry.2
    pure (entry.1 :: entries.1, entries.2)

/-- `_acl`: the entries, and where the list ends. -/
def acl (data : Bytes) (start : ℕ) : Except String (List StartupAccessEntry × ℕ) := do
  require (start + 8 ≤ data.length) "truncated ACL header"
  let revision := data.getD start 0
  let reserved := data.getD (start + 1) 0
  let size := leNat (sliceAt data (start + 2) 2)
  let count := leNat (sliceAt data (start + 4) 2)
  let reserved2 := leNat (sliceAt data (start + 6) 2)
  let stop := start + size
  require ((revision == 2 || revision == 4) && reserved == 0 && reserved2 == 0 && 8 ≤ size &&
    size % 4 == 0 && stop ≤ data.length) "invalid ACL header or range"
  let entries ← aces data stop count (start + 8)
  require (unused data entries.2 stop) "nonzero unused ACL bytes"
  pure (entries.1, stop)

/-- An entry that allows or denies its trustee the rights in a mask. -/
structure Ace where
  allowed : Bool
  flags : ℕ
  mask : ℕ
  trustee : Sid
  flags_supported : flags &&& aceFlagsMask = flags
  mask_supported : mask &&& fileAccessMask = mask

namespace Ace

def size (a : Ace) : ℕ :=
  8 + a.trustee.size

def bytes (a : Ace) : Bytes :=
  [if a.allowed then 0 else 1, UInt8.ofNat a.flags] ++
    (leBytes 2 a.size ++ (leBytes 4 a.mask ++ a.trustee.bytes))

def entry (a : Ace) : StartupAccessEntry :=
  ⟨a.allowed, a.flags, a.mask, a.trustee.text⟩

@[simp] theorem length_bytes (a : Ace) : a.bytes.length = a.size := by
  rw [bytes, List.length_append, List.length_append, List.length_append, length_leBytes,
    length_leBytes, Sid.length_bytes, size]
  simp only [List.length_cons, List.length_nil]
  omega

theorem flags_lt (a : Ace) : a.flags < 256 := by
  have h : a.flags &&& aceFlagsMask ≤ aceFlagsMask := Nat.and_le_right
  rw [a.flags_supported] at h
  exact h.trans_lt (by decide)

theorem mask_lt (a : Ace) : a.mask < 256 ^ 4 := by
  have h : a.mask &&& fileAccessMask ≤ fileAccessMask := Nat.and_le_right
  rw [a.mask_supported] at h
  exact h.trans_lt (by decide)

theorem size_lt (a : Ace) : a.size < 256 ^ 2 := by
  have := a.trustee.size_le
  unfold size
  omega

/-- An entry stands where its fields are read. -/
theorem at_bytes_iff {a : Ace} : At data start a.bytes ↔
    data.getD start 0 = (if a.allowed then 0 else 1) ∧
      (data.getD (start + 1) 0).toNat = a.flags ∧
      leNat (sliceAt data (start + 2) 2) = a.size ∧ leNat (sliceAt data (start + 4) 4) = a.mask ∧
      At data (start + 8) a.trustee.bytes := by
  have hbyte : ∀ x : UInt8, x = UInt8.ofNat a.flags ↔ x.toNat = a.flags := by
    intro x
    rw [← UInt8.toNat_inj, toNat_ofNat_of_lt a.flags_lt]
  rw [bytes, at_append, at_append, at_append, at_cons, at_byte_iff, at_byte_iff, hbyte,
    at_le_iff (by decide) a.size_lt, at_le_iff (by decide) a.mask_lt, length_leBytes,
    length_leBytes, List.length_cons, List.length_singleton]
  constructor
  · rintro ⟨⟨⟨_, hkind⟩, _, hflags⟩, ⟨_, hsize⟩, ⟨_, hmask⟩, htrustee⟩
    exact ⟨hkind, hflags, hsize, hmask, htrustee⟩
  · rintro ⟨hkind, hflags, hsize, hmask, htrustee⟩
    have hle := (Sid.at_bytes_iff.mp htrustee).1
    exact ⟨⟨⟨by omega, hkind⟩, by omega, hflags⟩, ⟨by omega, hsize⟩, ⟨by omega, hmask⟩, htrustee⟩

end Ace

/-- What is read as an entry is one, and all of it stands within the list. -/
theorem ace_eq_ok (hstop : stop ≤ data.length) {entry : StartupAccessEntry} {next : ℕ} :
    ace data stop position = .ok (entry, next) ↔
      ∃ a : Ace, At data position a.bytes ∧ next = position + a.size ∧ next ≤ stop ∧
        entry = a.entry := by
  simp only [ace, bind_eq_ok, require_eq_ok, exists_const, decide_eq_true_eq, Bool.and_eq_true,
    Bool.or_eq_true, beq_iff_eq, pure, Except.pure, Except.ok.injEq, Prod.mk.injEq,
    andNot_eq_zero_iff]
  constructor
  · rintro ⟨hheader, ⟨⟨⟨⟨⟨hkind, hflags⟩, hmask⟩, hsize⟩, hfour⟩, hend⟩, ⟨text, sidEnd⟩, hsid,
      hfill, rfl, rfl⟩
    obtain ⟨s, hs, hstart, hle, rfl⟩ := (sid_eq_ok (by omega)).mp hsid
    dsimp only at hfill
    refine ⟨⟨data.getD position 0 == 0, _, _, s, hflags, hmask⟩, ?_, ?_, hend, rfl⟩
    · rw [Ace.at_bytes_iff]
      refine ⟨?_, rfl, by simp only [Ace.size]; omega, rfl, hs⟩
      rcases hkind with h | h <;> rw [h] <;> rfl
    · simp only [Ace.size]
      omega
  · rintro ⟨a, ha, rfl, hend, rfl⟩
    obtain ⟨hkind, hflags, hsize, hmask, htrustee⟩ := (Ace.at_bytes_iff).mp ha
    have htsize : a.trustee.size = 8 + 4 * a.trustee.subauthorities.length := rfl
    rw [hflags, hsize, hmask, hkind]
    refine ⟨?_, ⟨⟨⟨⟨⟨?_, a.flags_supported⟩, a.mask_supported⟩, ?_⟩, ?_⟩, hend⟩,
      (a.trustee.text, position + a.size), ?_, rfl, ?_, rfl⟩
    · rw [Ace.size] at hend
      omega
    · cases a.allowed
      · exact .inr rfl
      · exact .inl rfl
    · rw [Ace.size]
      omega
    · rw [Ace.size]
      omega
    · refine (sid_eq_ok (by omega)).mpr ⟨a.trustee, htrustee, ?_, le_rfl, rfl⟩
      rw [Ace.size, Nat.add_assoc]
    · rw [Ace.entry]
      congr 1
      cases a.allowed <;> rfl

/-- The entries read are a list of them, one behind the other. -/
theorem aces_eq_ok (hstop : stop ≤ data.length) : ∀ {count position : ℕ}
    {entries : List StartupAccessEntry} {next : ℕ}, position ≤ stop →
    (aces data stop count position = .ok (entries, next) ↔
      ∃ l : List Ace, l.length = count ∧ At data position (l.flatMap Ace.bytes) ∧
        next = position + (l.map Ace.size).sum ∧ next ≤ stop ∧ entries = l.map Ace.entry)
  | 0, position, entries, next, hposition => by
    simp only [aces, pure, Except.pure, Except.ok.injEq, Prod.mk.injEq]
    constructor
    · rintro ⟨rfl, rfl⟩
      exact ⟨[], rfl, at_nil, rfl, hposition, rfl⟩
    · rintro ⟨l, hl, -, rfl, -, rfl⟩
      obtain rfl := List.length_eq_zero_iff.mp hl
      exact ⟨rfl, rfl⟩
  | count + 1, position, entries, next, hposition => by
    simp only [aces, bind_eq_ok, pure, Except.pure, Except.ok.injEq, Prod.mk.injEq, Prod.exists]
    constructor
    · rintro ⟨entry, middle, hace, rest, last, hrest, rfl, rfl⟩
      obtain ⟨a, ha, rfl, hle, rfl⟩ := (ace_eq_ok hstop).mp hace
      obtain ⟨l, rfl, hl, rfl, hlast, rfl⟩ := (aces_eq_ok hstop hle).mp hrest
      refine ⟨a :: l, rfl, ?_, ?_, hlast, rfl⟩
      · rw [List.flatMap_cons, at_append, Ace.length_bytes]
        exact ⟨ha, hl⟩
      · rw [List.map_cons, List.sum_cons, Nat.add_assoc]
    · rintro ⟨l, hcount, hl, rfl, hle, rfl⟩
      obtain ⟨a, l, rfl⟩ := List.exists_cons_of_length_eq_add_one hcount
      rw [List.flatMap_cons, at_append, Ace.length_bytes] at hl
      rw [List.map_cons (f := Ace.size), List.sum_cons, ← Nat.add_assoc] at hle ⊢
      have hmiddle : position + a.size ≤ stop := by omega
      refine ⟨a.entry, position + a.size, (ace_eq_ok hstop).mpr ⟨a, hl.1, rfl, hmiddle, rfl⟩,
        l.map Ace.entry, _, ?_, rfl, rfl⟩
      exact (aces_eq_ok hstop hmiddle).mpr ⟨l, Nat.succ.inj hcount, hl.2, rfl, hle, rfl⟩

/-- The list of the entries; `size` counts unused bytes behind the last of them. -/
structure AccessList where
  revision : ℕ
  size : ℕ
  aces : List Ace
  revision_supported : revision = 2 ∨ revision = 4
  size_lt : size < 2 ^ 16
  four_dvd : size % 4 = 0
  used_le : 8 + (aces.map Ace.size).sum ≤ size

namespace AccessList

/-- The list up to its last entry. -/
def used (l : AccessList) : ℕ :=
  8 + (l.aces.map Ace.size).sum

def bytes (l : AccessList) : Bytes :=
  [UInt8.ofNat l.revision, 0] ++ (leBytes 2 l.size ++ (leBytes 2 l.aces.length ++
    (leBytes 2 0 ++ l.aces.flatMap Ace.bytes)))

theorem size_pos (l : AccessList) : 0 < l.size := by
  have := l.used_le
  omega

theorem length_lt (l : AccessList) : l.aces.length < 256 ^ 2 := by
  have hone : ∀ s ∈ l.aces.map Ace.size, 1 ≤ s := by
    rw [List.forall_mem_map]
    intro a _
    unfold Ace.size
    omega
  have hsum := List.length_le_sum_of_one_le _ hone
  have hused := l.used_le
  have hsize := l.size_lt
  rw [List.length_map] at hsum
  omega

/-- A list stands where its fields are read. -/
theorem at_bytes_iff {l : AccessList} : At data start l.bytes ↔
    start + 8 ≤ data.length ∧ (data.getD start 0).toNat = l.revision ∧
      data.getD (start + 1) 0 = 0 ∧ leNat (sliceAt data (start + 2) 2) = l.size ∧
      leNat (sliceAt data (start + 4) 2) = l.aces.length ∧
      leNat (sliceAt data (start + 6) 2) = 0 ∧
      At data (start + 8) (l.aces.flatMap Ace.bytes) := by
  have hrevision : l.revision < 256 := by
    rcases l.revision_supported with h | h <;> omega
  have hbyte : ∀ x : UInt8, x = UInt8.ofNat l.revision ↔ x.toNat = l.revision := by
    intro x
    rw [← UInt8.toNat_inj, toNat_ofNat_of_lt hrevision]
  rw [bytes, at_append, at_append, at_append, at_append, at_cons, at_byte_iff, at_byte_iff, hbyte,
    at_le_iff (by decide) l.size_lt, at_le_iff (by decide) l.length_lt,
    at_le_iff (by decide) (by decide), length_leBytes, length_leBytes, length_leBytes,
    List.length_cons, List.length_singleton]
  constructor
  · rintro ⟨⟨⟨_, hrev⟩, _, hres⟩, ⟨_, hsize⟩, ⟨_, hcount⟩, ⟨hle, hres2⟩, haces⟩
    exact ⟨hle, hrev, hres, hsize, hcount, hres2, haces⟩
  · rintro ⟨hle, hrev, hres, hsize, hcount, hres2, haces⟩
    exact ⟨⟨⟨by omega, hrev⟩, by omega, hres⟩, ⟨by omega, hsize⟩, ⟨by omega, hcount⟩,
      ⟨by omega, hres2⟩, haces⟩

end AccessList

/-- What is read as a list is one, and the rest of its size is zero. -/
theorem acl_eq_ok {entries : List StartupAccessEntry} : acl data start = .ok (entries, stop) ↔
    ∃ l : AccessList, At data start l.bytes ∧ stop = start + l.size ∧ stop ≤ data.length ∧
      (∀ i, start + l.used ≤ i → i < stop → data.getD i 0 = 0) ∧
      entries = l.aces.map Ace.entry := by
  simp only [acl, bind_eq_ok, require_eq_ok, exists_const, decide_eq_true_eq, Bool.and_eq_true,
    Bool.or_eq_true, beq_iff_eq, pure, Except.pure, Except.ok.injEq, Prod.mk.injEq, unused_iff]
  constructor
  · rintro ⟨hheader, ⟨⟨⟨⟨⟨hrevision, hreserved⟩, hreserved2⟩, hsize⟩, hfour⟩, hend⟩,
      ⟨texts, last⟩, haces, hunused, rfl, rfl⟩
    obtain ⟨l, hcount, hl, rfl, hlast, rfl⟩ := (aces_eq_ok hend (by omega)).mp haces
    have hlt := leNat_sliceAt_lt data (start + 2) 2
    refine ⟨⟨(data.getD start 0).toNat, _, l, ?_, hlt, hfour, by omega⟩, ?_, rfl, hend, ?_, rfl⟩
    · rcases hrevision with h | h <;> rw [h] <;> decide
    · rw [AccessList.at_bytes_iff]
      exact ⟨hheader, rfl, hreserved, rfl, hcount.symm, hreserved2, hl⟩
    · exact fun i hi => hunused i ((Nat.add_assoc start 8 _).trans_le hi)
  · rintro ⟨l, hl, rfl, hend, hunused, rfl⟩
    obtain ⟨hheader, hrevision, hreserved, hsize, hcount, hreserved2, haces⟩ :=
      (AccessList.at_bytes_iff).mp hl
    have hused := l.used_le
    rw [hsize, hcount]
    refine ⟨hheader, ⟨⟨⟨⟨⟨?_, hreserved⟩, hreserved2⟩, by omega⟩, l.four_dvd⟩, hend⟩,
      (l.aces.map Ace.entry, start + l.used), ?_, hunused, rfl, rfl⟩
    · rcases l.revision_supported with h | h
      · exact .inl (UInt8.toNat_inj.mp (hrevision.trans h))
      · exact .inr (UInt8.toNat_inj.mp (hrevision.trans h))
    · refine (aces_eq_ok hend (by omega)).mpr ⟨l.aces, rfl, haces, ?_, ?_, rfl⟩
      · rw [AccessList.used, Nat.add_assoc]
      · rw [AccessList.used]
        omega

end Icode.StartupSecurity
