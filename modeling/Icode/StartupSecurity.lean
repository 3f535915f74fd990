import Icode.StartupAccessList

/-!
# Startup security descriptors

`parseStartupSecurity` reads a self-relative security descriptor: a header with offsets, and where
they point the owner, the group and the access list. A `Layout` says where these stand, apart from
each other, and `Layout.Describes` that a byte string holds them there and nothing else. The parser
returns exactly the snapshots of such layouts (`parseStartupSecurity_eq_ok`).

`checkStartupSecurity` asks of a snapshot that nobody but a trustee of its role may change the file.
-/

namespace Icode.StartupSecurity

open Py

variable {data : Bytes} {start : ℕ}

/-! ## The header -/

/-- `_HEADER_SIZE` -/
def headerSize : ℕ := 20

/-- `_MAX_DESCRIPTOR_BYTES` -/
def maxDescriptorBytes : ℕ := 128 * 1024

/-- `_CONTROL_MASK` -/
def controlMask : ℕ := 0x950f

/-- `_REQUIRED_CONTROL` -/
def requiredControl : ℕ := 0x8004

@[ext] structure Header where
  revision : ℕ
  reserved : ℕ
  control : ℕ
  owner : ℕ
  group : ℕ
  sacl : ℕ
  dacl : ℕ
  deriving DecidableEq

/-- `struct.unpack_from("<BBHIIII", data)` -/
def unpackHeader (data : Bytes) : Header where
  revision := (data.getD 0 0).toNat
  reserved := (data.getD 1 0).toNat
  control := leNat (sliceAt data 2 2)
  owner := leNat (sliceAt data 4 4)
  group := leNat (sliceAt data 8 4)
  sacl := leNat (sliceAt data 12 4)
  dacl := leNat (sliceAt data 16 4)

namespace Header

def bytes (h : Header) : Bytes :=
  [UInt8.ofNat h.revision, UInt8.ofNat h.reserved] ++ (leBytes 2 h.control ++
    (leBytes 4 h.owner ++ (leBytes 4 h.group ++ (leBytes 4 h.sacl ++ leBytes 4 h.dacl))))

/-- Each field fits into its bytes. -/
structure Fits (h : Header) : Prop where
  revision : h.revision < 256
  reserved : h.reserved < 256
  control : h.control < 256 ^ 2
  owner : h.owner < 256 ^ 4
  group : h.group < 256 ^ 4
  sacl : h.sacl < 256 ^ 4
  dacl : h.dacl < 256 ^ 4

theorem fits_unpackHeader (data : Bytes) : (unpackHeader data).Fits where
  revision := UInt8.toNat_lt _
  reserved := UInt8.toNat_lt _
  control := leNat_sliceAt_lt data 2 2
  owner := leNat_sliceAt_lt data 4 4
  group := leNat_sliceAt_lt data 8 4
  sacl := leNat_sliceAt_lt data 12 4
  dacl := leNat_sliceAt_lt data 16 4

/-- A header stands at the start where it is unpacked. -/
theorem at_bytes_iff {h : Header} (hfits : h.Fits) :
    At data 0 h.bytes ↔ headerSize ≤ data.length ∧ unpackHeader data = h := by
  have hbyte : ∀ {x : UInt8} {n : ℕ}, n < 256 → (x = UInt8.ofNat n ↔ x.toNat = n) := by
    intro x n hn
    rw [← UInt8.toNat_inj, toNat_ofNat_of_lt hn]
  rw [bytes, at_append, at_append, at_append, at_append, at_append, at_cons, at_byte_iff,
    at_byte_iff, hbyte hfits.revision, hbyte hfits.reserved, at_le_iff (by decide) hfits.control,
    at_le_iff (by decide) hfits.owner, at_le_iff (by decide) hfits.group,
    at_le_iff (by decide) hfits.sacl, at_le_iff (by decide) hfits.dacl]
  simp only [length_leBytes, List.length_cons, List.length_nil, Header.ext_iff, unpackHeader,
    headerSize]
  constructor
  · rintro ⟨⟨⟨_, h0⟩, _, h1⟩, ⟨_, h2⟩, ⟨_, h4⟩, ⟨_, h8⟩, ⟨_, h12⟩, hle, h16⟩
    exact ⟨by omega, h0, h1, h2, h4, h8, h12, h16⟩
  · rintro ⟨hle, h0, h1, h2, h4, h8, h12, h16⟩
    exact ⟨⟨⟨by omega, h0⟩, by omega, h1⟩, ⟨by omega, h2⟩, ⟨by omega, h4⟩, ⟨by omega, h8⟩,
      ⟨by omega, h12⟩, by omega, h16⟩

end Header

/-! ## Regions -/

inductive RegionRole where
  | owner
  | group
  | dacl
  deriving DecidableEq

/-- A component from its start to behind its end. -/
structure Region where
  start : ℕ
  stop : ℕ
  role : RegionRole

def Region.range (r : Region) : ℕ × ℕ :=
  (r.start, r.stop)

/-- `{role, other_role} == {"owner", "group"}` -/
def ownerAndGroup (role other : RegionRole) : Bool :=
  role == .owner && other == .group || role == .group && other == .owner

/-- The regions of a descriptor, in the order they are appended. -/
def components (owner : ℕ × ℕ) (group : Option (ℕ × ℕ)) (dacl : ℕ × ℕ) : List Region :=
  ⟨owner.1, owner.2, .owner⟩ :: (group.toList.map fun g => ⟨g.1, g.2, .group⟩) ++
    [⟨dacl.1, dacl.2, .dacl⟩]

/-- Two regions overlap, and are not one SID of owner and group. -/
def Region.collides (r other : Region) : Bool :=
  r.start < other.stop && other.start < r.stop &&
    (!ownerAndGroup r.role other.role || r.range != other.range)

/-- The loop over every two regions. -/
def overlaps : List Region → Bool
  | [] => false
  | r :: regions => regions.any r.collides || overlaps regions

/-- Two ranges share no offset. -/
def Apart (a b : ℕ × ℕ) : Prop :=
  a.2 ≤ b.1 ∨ b.2 ≤ a.1

theorem Apart.not_both {a b : ℕ × ℕ} (h : Apart a b) {i : ℕ} (ha : a.1 ≤ i ∧ i < a.2) :
    ¬(b.1 ≤ i ∧ i < b.2) := by
  rcases h with h | h <;> omega

theorem collides_eq_false_iff {r other : Region} : r.collides other = false ↔
    Apart r.range other.range ∨
      ownerAndGroup r.role other.role = true ∧ r.range = other.range := by
  simp only [Region.collides, Apart, Region.range, Bool.and_eq_false_iff, Bool.or_eq_false_iff,
    decide_eq_false_iff_not, Bool.not_eq_false', bne_eq_false_iff_eq, not_lt]
  tauto

/-- Only an owner and a group may overlap, and only when they are one SID. -/
theorem overlaps_components {owner dacl : ℕ × ℕ} {group : Option (ℕ × ℕ)} :
    overlaps (components owner group dacl) = false ↔
      Apart owner dacl ∧ ∀ g ∈ group, Apart g dacl ∧ (owner = g ∨ Apart owner g) := by
  have hdacl : ∀ r : Region, ∀ d : Region, d.role = .dacl →
      (r.collides d = false ↔ Apart r.range d.range) := by
    intro r d hd
    rw [collides_eq_false_iff, hd]
    simp [ownerAndGroup]
  have hgroup : ∀ a b : ℕ × ℕ, (Region.collides ⟨a.1, a.2, .owner⟩ ⟨b.1, b.2, .group⟩ = false ↔
      a = b ∨ Apart a b) := by
    intro a b
    rw [collides_eq_false_iff, or_comm]
    exact or_congr_left (and_iff_right rfl)
  cases group with
  | none => simp [components, overlaps, hdacl, Region.range]
  | some g =>
    simp only [components, Option.toList_some, List.map_cons, List.map_nil, List.cons_append,
      List.nil_append, overlaps, List.any_cons, List.any_nil, Bool.or_false, Bool.or_eq_false_iff,
      hdacl, hgroup, Region.range, Option.mem_some_iff, forall_eq']
    tauto

theorem mem_components {owner dacl r : ℕ × ℕ} {group : Option (ℕ × ℕ)} :
    r ∈ (components owner group dacl).map Region.range ↔ r = owner ∨ r ∈ group ∨ r = dacl := by
  cases group with
  | none => simp [components, Region.range]
  | some g => simp [components, Region.range, eq_comm]

/-! ## The parser -/

structure StartupSecurityDescriptor where
  raw : Bytes
  ownerSid : PyStr
  groupSid : Option PyStr
  control : ℕ
  entries : List StartupAccessEntry
  deriving DecidableEq

def Header.supported (h : Header) : Bool :=
  h.revision == 1 && h.reserved == 0 && andNot h.control controlMask == 0 &&
    h.control &&& requiredControl == requiredControl && h.sacl == 0 && h.owner != 0 && h.dacl != 0

/-- An offset of a component, unless it is zero. -/
def validOffset (data : Bytes) (offset : ℕ) : Bool :=
  offset == 0 || (headerSize ≤ offset && offset % 4 == 0 && offset < data.length)

/-- The SID of the group, unless its offset is zero. -/
def groupSid (data : Bytes) (offset : ℕ) : Except String (Option (PyStr × ℕ)) :=
  if offset = 0 then pure none else some <$> sid data offset data.length

/-- `parse_startup_security` of `bytes`; it refuses any other type like a wrong length. -/
def parseStartupSecurity (data : Bytes) : Except String StartupSecurityDescriptor := do
  require (headerSize ≤ data.length && data.length ≤ maxDescriptorBytes)
    "security descriptor must be bounded exact bytes"
  let header := unpackHeader data
  require header.supported "unsupported security descriptor header"
  require ([header.owner, header.group, header.dacl].all (validOffset data))
    "invalid security component offset"
  let owner ← sid data header.owner data.length
  let group ← groupSid data header.group
  let dacl ← acl data header.dacl
  let regions := components (header.owner, owner.2) (group.map fun g => (header.group, g.2))
    (header.dacl, dacl.2)
  require (!overlaps regions) "overlapping security components"
  require (gapsUnused data headerSize (inOrder (regions.map Region.range)))
    "nonzero unreferenced descriptor bytes"
  pure ⟨data, owner.1, group.map Prod.fst, header.control, dacl.1⟩

/-! ## Layouts -/

/-- A component and the offset it stands at. -/
structure Placed (α : Type) where
  start : ℕ
  item : α

def Placed.sidRange (p : Placed Sid) : ℕ × ℕ :=
  (p.start, p.start + p.item.size)

def Placed.listRange (p : Placed AccessList) : ℕ × ℕ :=
  (p.start, p.start + p.item.size)

/-- An offset a component may stand at. -/
structure Aligned (offset : ℕ) : Prop where
  headerSize_le : headerSize ≤ offset
  four_dvd : offset % 4 = 0

/-- The components of a descriptor and their offsets. Only an owner and a group may overlap, and
only when they are one SID. -/
structure Layout where
  control : ℕ
  owner : Placed Sid
  group : Option (Placed Sid)
  dacl : Placed AccessList
  control_supported : control &&& controlMask = control
  control_required : control &&& requiredControl = requiredControl
  owner_aligned : Aligned owner.start
  group_aligned : ∀ g ∈ group, Aligned g.start
  dacl_aligned : Aligned dacl.start
  owner_dacl : Apart owner.sidRange dacl.listRange
  group_dacl : ∀ g ∈ group, Apart g.sidRange dacl.listRange
  owner_group : ∀ g ∈ group, owner = g ∨ Apart owner.sidRange g.sidRange

namespace Layout

def header (l : Layout) : Header where
  revision := 1
  reserved := 0
  control := l.control
  owner := l.owner.start
  group := (l.group.map Placed.start).getD 0
  sacl := 0
  dacl := l.dacl.start

/-- An offset in the owner, in the group, or in the list up to its last entry. -/
def Uses (l : Layout) (i : ℕ) : Prop :=
  (l.owner.start ≤ i ∧ i < l.owner.start + l.owner.item.size) ∨
    (∃ g ∈ l.group, g.start ≤ i ∧ i < g.start + g.item.size) ∨
    (l.dacl.start ≤ i ∧ i < l.dacl.start + l.dacl.item.used)

/-- The header and the components stand in the bytes, and every other byte is zero. -/
structure Describes (l : Layout) (data : Bytes) : Prop where
  length_le : data.length ≤ maxDescriptorBytes
  header : At data 0 l.header.bytes
  owner : At data l.owner.start l.owner.item.bytes
  group : ∀ g ∈ l.group, At data g.start g.item.bytes
  dacl : At data l.dacl.start l.dacl.item.bytes
  dacl_le : l.dacl.start + l.dacl.item.size ≤ data.length
  unused : ∀ i, headerSize ≤ i → ¬l.Uses i → data.getD i 0 = 0

/-- What the parser returns of a layout. -/
def snapshot (l : Layout) (data : Bytes) : StartupSecurityDescriptor where
  raw := data
  ownerSid := l.owner.item.text
  groupSid := l.group.map fun g => g.item.text
  control := l.control
  entries := l.dacl.item.aces.map Ace.entry

end Layout

/-! ## What is read -/

theorem groupSid_eq_ok {offset : ℕ} {group : Option (PyStr × ℕ)} :
    groupSid data offset = .ok group ↔ ∃ g : Option (Placed Sid),
      (g.map Placed.start).getD 0 = offset ∧
      (∀ p ∈ g, p.start ≠ 0 ∧ At data p.start p.item.bytes) ∧
      group = g.map fun p => (p.item.text, p.start + p.item.size) := by
  unfold groupSid
  split_ifs with hzero
  · constructor
    · intro h
      obtain rfl : none = group := Except.ok.inj h
      exact ⟨none, hzero.symm, by simp, rfl⟩
    · rintro ⟨g, hoffset, hg, rfl⟩
      cases g with
      | none => rfl
      | some p => exact absurd (hoffset.trans hzero) (hg p rfl).1
  · constructor
    · intro h
      cases hsid : sid data offset data.length with
      | error e => simp [hsid] at h
      | ok result =>
        obtain ⟨text, stop⟩ := result
        obtain ⟨s, hs, rfl, -, rfl⟩ := (sid_eq_ok le_rfl).mp hsid
        rw [hsid] at h
        obtain rfl := Except.ok.inj h
        refine ⟨some ⟨offset, s⟩, rfl, ?_, rfl⟩
        simpa using ⟨hzero, hs⟩
    · rintro ⟨g, rfl, hg, rfl⟩
      cases g with
      | none => exact absurd rfl hzero
      | some p =>
        have hs := (hg p rfl).2
        have hle := (Sid.at_bytes_iff.mp hs).1
        have hsid := (sid_eq_ok le_rfl).mpr ⟨p.item, hs, rfl, hle, rfl⟩
        show some <$> sid data p.start data.length = _
        rw [hsid]
        rfl

/-- The check for zero bytes sees every byte outside the components. -/
theorem gapsUnused_components {owner dacl : ℕ × ℕ} {group : Option (ℕ × ℕ)}
    (hpos : ∀ r, r = owner ∨ r ∈ group ∨ r = dacl → headerSize ≤ r.1 ∧ r.1 < r.2)
    (happart : Apart owner dacl ∧ ∀ g ∈ group, Apart g dacl ∧ (owner = g ∨ Apart owner g)) :
    gapsUnused data headerSize (inOrder ((components owner group dacl).map Region.range)) = true ↔
      ∀ i, headerSize ≤ i → (∀ r, r = owner ∨ r ∈ group ∨ r = dacl → ¬(r.1 ≤ i ∧ i < r.2)) →
        data.getD i 0 = 0 := by
  obtain ⟨hod, hg⟩ := happart
  have hsymm : ∀ {a b : ℕ × ℕ}, Apart a b → Apart b a := Or.symm
  have hpair : ∀ a ∈ (components owner group dacl).map Region.range,
      ∀ b ∈ (components owner group dacl).map Region.range, a ≠ b → Apart a b := by
    simp only [mem_components]
    rintro a (rfl | ha | rfl) b (rfl | hb | rfl) hne
    · exact absurd rfl hne
    · exact (hg b hb).2.resolve_left hne
    · exact hod
    · exact hsymm ((hg a ha).2.resolve_left hne.symm)
    · exact absurd (Option.mem_unique ha hb) hne
    · exact (hg a ha).1
    · exact hsymm hod
    · exact hsymm (hg b hb).1
    · exact absurd rfl hne
  rw [gapsUnused_iff]
  · simp only [mem_inOrder, mem_components]
  · intro r hr
    exact hpos r (mem_components.mp (mem_inOrder.mp hr))
  · exact pairwise_inOrder (fun r hr => (hpos r (mem_components.mp hr)).2) hpair

theorem supported_iff {h : Header} : h.supported = true ↔ h.revision = 1 ∧ h.reserved = 0 ∧
    h.control &&& controlMask = h.control ∧ h.control &&& requiredControl = requiredControl ∧
    h.sacl = 0 ∧ h.owner ≠ 0 ∧ h.dacl ≠ 0 := by
  simp only [Header.supported, Bool.and_eq_true, beq_iff_eq, bne_iff_ne, andNot_eq_zero_iff,
    and_assoc]

theorem validOffset_iff {offset : ℕ} : validOffset data offset = true ↔
    offset = 0 ∨ Aligned offset ∧ offset < data.length := by
  simp only [validOffset, Bool.or_eq_true, Bool.and_eq_true, beq_iff_eq, decide_eq_true_eq]
  refine or_congr_right (and_congr_left fun _ => ?_)
  exact ⟨fun h => ⟨h.1, h.2⟩, fun h => ⟨h.headerSize_le, h.four_dvd⟩⟩

/-- SIDs with one range are one SID. -/
theorem Placed.eq_of_sidRange {p q : Placed Sid} (hp : At data p.start p.item.bytes)
    (hq : At data q.start q.item.bytes) (h : p.sidRange = q.sidRange) : p = q := by
  obtain ⟨start, s⟩ := p
  obtain ⟨start', t⟩ := q
  obtain rfl : start = start' := congrArg Prod.fst h
  obtain rfl : s = t := Sid.eq_of_at hp hq
  rfl

/-- The regions the parser compares. -/
theorem map_groupRange {g : Option (Placed Sid)} :
    (g.map fun p => (p.item.text, p.start + p.item.size)).map
      (fun x => ((g.map Placed.start).getD 0, x.2)) = g.map Placed.sidRange := by
  cases g <;> rfl

theorem Layout.range_pos (l : Layout) : ∀ r, r = l.owner.sidRange ∨
    r ∈ l.group.map Placed.sidRange ∨ r = l.dacl.listRange → headerSize ≤ r.1 ∧ r.1 < r.2 := by
  rintro r (rfl | hr | rfl)
  · exact ⟨l.owner_aligned.headerSize_le, Nat.lt_add_of_pos_right l.owner.item.size_pos⟩
  · obtain ⟨p, hp, rfl⟩ := Option.mem_map.mp hr
    exact ⟨(l.group_aligned p hp).headerSize_le, Nat.lt_add_of_pos_right p.item.size_pos⟩
  · exact ⟨l.dacl_aligned.headerSize_le, Nat.lt_add_of_pos_right l.dacl.item.size_pos⟩

/-- Accepted bytes are described by a layout, and what is returned is all of it. -/
theorem exists_describes {d : StartupSecurityDescriptor} (h : parseStartupSecurity data = .ok d) :
    ∃ l : Layout, l.Describes data ∧ d = l.snapshot data := by
  simp only [parseStartupSecurity, bind_eq_ok, require_eq_ok, exists_const, Bool.and_eq_true,
    decide_eq_true_eq, supported_iff, List.all_cons, List.all_nil, Bool.and_true, validOffset_iff,
    Bool.not_eq_true', pure, Except.pure, Except.ok.injEq] at h
  obtain ⟨⟨hmin, hmax⟩, ⟨hrevision, hreserved, hsupported, hrequired, hsacl, howner0, hdacl0⟩,
    ⟨hownerAt, hgroupAt, hdaclAt⟩, ⟨ownerText, ownerEnd⟩, howner, group, hgroup,
    ⟨entries, daclEnd⟩, hdacl, hoverlaps, hgaps, rfl⟩ := h
  obtain ⟨o, ho, rfl, -, rfl⟩ := (sid_eq_ok le_rfl).mp howner
  obtain ⟨g, hg0, hg, rfl⟩ := groupSid_eq_ok.mp hgroup
  obtain ⟨a, ha, rfl, hle, hslack, rfl⟩ := acl_eq_ok.mp hdacl
  rw [← hg0, map_groupRange] at hoverlaps hgaps
  obtain ⟨hod, hgd⟩ := overlaps_components.mp hoverlaps
  have howner := (hownerAt.resolve_left howner0).1
  have hdacl := (hdaclAt.resolve_left hdacl0).1
  have hgroup : ∀ p ∈ g, Aligned p.start := by
    rintro p rfl
    rw [← hg0] at hgroupAt
    exact (hgroupAt.resolve_left (hg p rfl).1).1
  have hgroupRange : ∀ p ∈ g, p.sidRange ∈ g.map Placed.sidRange :=
    fun p hp => Option.mem_map_of_mem _ hp
  let l : Layout :=
    { control := (unpackHeader data).control
      owner := ⟨(unpackHeader data).owner, o⟩
      group := g
      dacl := ⟨(unpackHeader data).dacl, a⟩
      control_supported := hsupported
      control_required := hrequired
      owner_aligned := howner
      group_aligned := hgroup
      dacl_aligned := hdacl
      owner_dacl := hod
      group_dacl := fun p hp => (hgd _ (hgroupRange p hp)).1
      owner_group := fun p hp => (hgd _ (hgroupRange p hp)).2.imp_left
        (Placed.eq_of_sidRange ho (hg p hp).2) }
  have hheader : l.header = unpackHeader data :=
    Header.ext hrevision.symm hreserved.symm rfl rfl hg0 hsacl.symm rfl
  have hzero := (gapsUnused_components l.range_pos ⟨hod, hgd⟩).mp hgaps
  refine ⟨l, ⟨hmax, ?_, ho, fun p hp => (hg p hp).2, ha, hle, ?_⟩, ?_⟩
  · rw [hheader]
    exact (Header.at_bytes_iff (Header.fits_unpackHeader data)).mpr ⟨hmin, rfl⟩
  · intro i hi huses
    rw [Layout.Uses, not_or, not_or] at huses
    obtain ⟨hnotOwner, hnotGroup, hnotDacl⟩ := huses
    -- The list's own check covers what is left of its size.
    by_cases hin : l.dacl.start + a.used ≤ i ∧ i < l.dacl.start + a.size
    · exact hslack i hin.1 hin.2
    · refine hzero i hi ?_
      rintro r (rfl | hr | rfl) hri
      · exact hnotOwner hri
      · obtain ⟨p, hp, rfl⟩ := Option.mem_map.mp hr
        exact hnotGroup ⟨p, hp, hri⟩
      · dsimp only [Placed.listRange, l] at hri hnotDacl hin
        omega
  · rw [Layout.snapshot, Option.map_map]
    rfl

theorem Layout.group_start_ne (l : Layout) : ∀ g ∈ l.group, g.start ≠ 0 := by
  intro g hg
  have := (l.group_aligned g hg).headerSize_le
  unfold headerSize at this
  omega

/-- What is described has its offsets within its length. -/
theorem Layout.Describes.fits {l : Layout} (h : l.Describes data) : l.header.Fits := by
  have hmax : data.length ≤ 131072 := h.length_le
  have hstart : ∀ {p : Placed Sid}, At data p.start p.item.bytes → p.start < 256 ^ 4 := by
    intro p hp
    have := (Sid.at_bytes_iff.mp hp).1
    omega
  have hcontrol : l.control &&& controlMask ≤ controlMask := Nat.and_le_right
  rw [l.control_supported] at hcontrol
  have hdacl := h.dacl_le
  have hgroup : (l.group.map Placed.start).getD 0 < 256 ^ 4 := by
    cases hg : l.group with
    | none => exact Nat.pow_pos (by decide)
    | some g => exact hstart (h.group g hg)
  have hdacl' : l.dacl.start < 256 ^ 4 := by omega
  exact
    { revision := Nat.one_lt_ofNat
      reserved := Nat.ofNat_pos
      control := hcontrol.trans_lt (by decide)
      owner := hstart h.owner
      group := hgroup
      sacl := Nat.pow_pos (by decide)
      dacl := hdacl' }

/-- Bytes described by a layout are accepted. -/
theorem parse_of_describes {l : Layout} (h : l.Describes data) :
    parseStartupSecurity data = .ok (l.snapshot data) := by
  obtain ⟨hmin, hunpack⟩ := (Header.at_bytes_iff h.fits).mp h.header
  have hend : ∀ {p : Placed Sid}, At data p.start p.item.bytes →
      p.start + p.item.size ≤ data.length := fun hp => (Sid.at_bytes_iff.mp hp).1
  have hsid : ∀ {p : Placed Sid}, Aligned p.start → At data p.start p.item.bytes →
      p.start ≠ 0 ∧ validOffset data p.start = true := by
    intro p haligned hp
    have hpos := p.item.size_pos
    have hle := hend hp
    have hmin := haligned.headerSize_le
    unfold headerSize at hmin
    exact ⟨by omega, validOffset_iff.mpr (.inr ⟨haligned, by omega⟩)⟩
  have hdaclEnd := h.dacl_le
  have hdaclPos := l.dacl.item.size_pos
  have hdaclMin := l.dacl_aligned.headerSize_le
  unfold headerSize at hdaclMin
  have hgroup : validOffset data l.header.group = true := by
    show validOffset data ((l.group.map Placed.start).getD 0) = true
    cases hg : l.group with
    | none => rfl
    | some g => exact (hsid (l.group_aligned g hg) (h.group g hg)).2
  have hdacl : validOffset data l.dacl.start = true :=
    validOffset_iff.mpr (.inr ⟨l.dacl_aligned, by omega⟩)
  have happart : Apart l.owner.sidRange l.dacl.listRange ∧ ∀ r ∈ l.group.map Placed.sidRange,
      Apart r l.dacl.listRange ∧ (l.owner.sidRange = r ∨ Apart l.owner.sidRange r) := by
    refine ⟨l.owner_dacl, fun r hr => ?_⟩
    obtain ⟨p, hp, rfl⟩ := Option.mem_map.mp hr
    exact ⟨l.group_dacl p hp, (l.owner_group p hp).imp_left (congrArg Placed.sidRange)⟩
  have hzero : ∀ i, headerSize ≤ i → (∀ r, r = l.owner.sidRange ∨
      r ∈ l.group.map Placed.sidRange ∨ r = l.dacl.listRange → ¬(r.1 ≤ i ∧ i < r.2)) →
      data.getD i 0 = 0 := by
    intro i hi hout
    refine h.unused i hi ?_
    rintro (hin | ⟨p, hp, hin⟩ | hin)
    · exact hout _ (.inl rfl) hin
    · exact hout _ (.inr (.inl (Option.mem_map_of_mem _ hp))) hin
    · have hused := l.dacl.item.used_le
      refine hout _ (.inr (.inr rfl)) ⟨hin.1, hin.2.trans_le ?_⟩
      exact Nat.add_le_add_left hused _
  -- The rest of the list's size is outside the other components.
  have hslack : ∀ i, l.dacl.start + l.dacl.item.used ≤ i → i < l.dacl.start + l.dacl.item.size →
      data.getD i 0 = 0 := by
    intro i hlo hhi
    have hin : l.dacl.listRange.1 ≤ i ∧ i < l.dacl.listRange.2 := ⟨by
      show l.dacl.start ≤ i
      omega, hhi⟩
    refine h.unused i (by unfold headerSize; omega) ?_
    rintro (hi | ⟨p, hp, hi⟩ | hi)
    · exact l.owner_dacl.not_both hi hin
    · exact (l.group_dacl p hp).not_both hi hin
    · omega
  simp only [parseStartupSecurity, bind_eq_ok, require_eq_ok, exists_const, Bool.and_eq_true,
    decide_eq_true_eq, supported_iff, List.all_cons, List.all_nil, Bool.and_true,
    Bool.not_eq_true', pure, Except.pure, Except.ok.injEq, hunpack]
  refine ⟨⟨hmin, h.length_le⟩, ⟨rfl, rfl, l.control_supported, l.control_required, rfl,
    (hsid l.owner_aligned h.owner).1, by show l.dacl.start ≠ 0; omega⟩,
    ⟨(hsid l.owner_aligned h.owner).2, hgroup, hdacl⟩,
    (l.owner.item.text, l.owner.start + l.owner.item.size), ?_,
    l.group.map fun p => (p.item.text, p.start + p.item.size), ?_,
    (l.dacl.item.aces.map Ace.entry, l.dacl.start + l.dacl.item.size), ?_, ?_, ?_, ?_⟩
  · exact (sid_eq_ok le_rfl).mpr ⟨_, h.owner, rfl, hend h.owner, rfl⟩
  · refine groupSid_eq_ok.mpr ⟨l.group, rfl, fun p hp => ?_, rfl⟩
    exact ⟨(hsid (l.group_aligned p hp) (h.group p hp)).1, h.group p hp⟩
  · exact acl_eq_ok.mpr ⟨_, h.dacl, rfl, hdaclEnd, hslack, rfl⟩
  · show overlaps (components l.owner.sidRange _ l.dacl.listRange) = false
    rw [Layout.header, map_groupRange]
    exact overlaps_components.mpr happart
  · show gapsUnused data headerSize (inOrder ((components l.owner.sidRange _
      l.dacl.listRange).map Region.range)) = true
    rw [Layout.header, map_groupRange]
    exact (gapsUnused_components l.range_pos happart).mpr hzero
  · rw [Option.map_map]
    rfl

theorem parseStartupSecurity_eq_ok {d : StartupSecurityDescriptor} :
    parseStartupSecurity data = .ok d ↔ ∃ l : Layout, l.Describes data ∧ d = l.snapshot data := by
  constructor
  · exact exists_describes
  · rintro ⟨l, hl, rfl⟩
    exact parse_of_describes hl

/-! ## The text of a SID -/

namespace Sid

def parts (s : Sid) : List PyStr :=
  lit "S" :: lit "1" :: natText s.authority :: s.subauthorities.map natText

theorem parts_ne_nil (s : Sid) : s.parts ≠ [] :=
  List.cons_ne_nil _ _

theorem text_eq_joinWith (s : Sid) : s.text = joinWith (.scalar '-') s.parts := by
  rw [parts, joinWith_cons_eq, List.flatMap_cons, List.flatMap_cons, List.flatMap_map]
  show lit "S-1-" ++ natText s.authority ++ _ = _
  rw [List.append_assoc]
  rfl

theorem splitOn_text (s : Sid) : splitOn (.scalar '-') s.text = s.parts := by
  have hdigits : ∀ n, CodePoint.scalar '-' ∉ natText n := by
    intro n hmem
    have := List.all_eq_true.mp (all_natText n) _ hmem
    exact absurd this (by decide)
  rw [text_eq_joinWith, splitOn_joinWith s.parts_ne_nil]
  simp only [parts, List.forall_mem_cons, List.forall_mem_map]
  exact ⟨by decide, by decide, hdigits _, fun n _ => hdigits n⟩

theorem text_injective : Function.Injective text := by
  intro s t h
  have hparts : s.parts = t.parts := by rw [← splitOn_text, h, splitOn_text]
  simp only [parts, List.cons.injEq, true_and] at hparts
  exact Sid.ext (natText_injective hparts.1) (natText_injective.list_map hparts.2)

/-- The longest text of a SID. -/
theorem length_text_le (s : Sid) : s.text.length ≤ 184 := by
  have hauthority : (natText s.authority).length ≤ 15 :=
    (length_natText_le_iff (by decide)).mpr (s.authority_lt.trans (by decide))
  have hsubs : ∀ values : List ℕ, (∀ value ∈ values, value < 2 ^ 32) →
      (values.flatMap fun value => lit "-" ++ natText value).length ≤ 11 * values.length := by
    intro values
    induction values with
    | nil => exact fun _ => le_rfl
    | cons value values ih =>
      intro h
      obtain ⟨hvalue, hvalues⟩ := List.forall_mem_cons.mp h
      have hlen : (natText value).length ≤ 10 :=
        (length_natText_le_iff (by decide)).mpr (hvalue.trans (by decide))
      have hone : (lit "-").length = 1 := rfl
      have := ih hvalues
      rw [List.flatMap_cons, List.length_append, List.length_append, List.length_cons]
      omega
  have hrest := hsubs s.subauthorities s.subauthority_lt
  have hcount := s.length_le
  have hfour : (lit "S-1-").length = 4 := rfl
  rw [text, sidText, List.length_append, List.length_append]
  omega

theorem length_text_ge (s : Sid) : 5 ≤ s.text.length := by
  have hfour : (lit "S-1-").length = 4 := rfl
  have hpos := List.length_pos_iff.mpr (natText_ne_nil s.authority)
  rw [text, sidText, List.length_append, List.length_append]
  omega

end Sid

/-! ## The host SID -/

/-- `_MAX_TEXT_SID_LENGTH` -/
def maxTextSidLength : ℕ := 184

def validatePart (limit : ℕ) (part : PyStr) : Except String Unit := do
  require (isCanonical part) "host SID must use canonical ASCII decimal"
  require (natOf part ≤ limit) "host SID numeric component out of range"

/-- The loop over the parts from an index on. -/
def validateParts : ℕ → List PyStr → Except String Unit
  | _, [] => pure ()
  | index, part :: parts => do
    validatePart (if index = 0 then 2 ^ 48 - 1 else 2 ^ 32 - 1) part
    validateParts (index + 1) parts

/-- `_validate_host_sid` of `str`; it refuses any other type like a wrong length. -/
def validateHostSid (value : PyStr) : Except String Unit := do
  require (5 ≤ value.length && value.length ≤ maxTextSidLength)
    "host SID must be bounded exact str"
  let parts := splitOn (.scalar '-') value
  require (parts.take 2 == [lit "S", lit "1"] && 3 ≤ parts.length && parts.length ≤ 18)
    "host SID must have revision 1 and at most 15 subauthorities"
  validateParts 0 (parts.drop 2)

theorem validatePart_eq_ok {limit : ℕ} {part : PyStr} {u : Unit} :
    validatePart limit part = .ok u ↔ ∃ n ≤ limit, part = natText n := by
  simp only [validatePart, bind_eq_ok, require_eq_ok, exists_const, decide_eq_true_eq]
  constructor
  · rintro ⟨hcanonical, hle⟩
    exact ⟨_, hle, (natText_natOf hcanonical).symm⟩
  · rintro ⟨n, hn, rfl⟩
    rw [natOf_natText]
    exact ⟨isCanonical_natText n, hn⟩

theorem validateParts_succ_eq_ok {parts : List PyStr} {u : Unit} : ∀ {index : ℕ},
    validateParts (index + 1) parts = .ok u ↔
      ∃ values : List ℕ, (∀ value ∈ values, value < 2 ^ 32) ∧ parts = values.map natText := by
  induction parts with
  | nil => exact fun {index} => ⟨fun _ => ⟨[], by simp, rfl⟩, fun _ => rfl⟩
  | cons part parts ih =>
    intro index
    simp only [validateParts, bind_eq_ok, exists_const, validatePart_eq_ok, ih,
      if_neg (Nat.succ_ne_zero index)]
    constructor
    · rintro ⟨⟨n, hn, rfl⟩, values, hvalues, rfl⟩
      exact ⟨n :: values, List.forall_mem_cons.mpr ⟨by omega, hvalues⟩, rfl⟩
    · rintro ⟨values, hvalues, hparts⟩
      have hne : values ≠ [] := by
        rintro rfl
        cases hparts
      obtain ⟨n, values, rfl⟩ := List.exists_cons_of_ne_nil hne
      obtain ⟨hn, hrest⟩ := List.forall_mem_cons.mp hvalues
      obtain ⟨rfl, rfl⟩ := List.cons.inj hparts
      exact ⟨⟨n, by omega, rfl⟩, values, hrest, rfl⟩

/-- The host SID is the text of a SID. -/
theorem validateHostSid_eq_ok {value : PyStr} {u : Unit} :
    validateHostSid value = .ok u ↔ ∃ s : Sid, value = s.text := by
  simp only [validateHostSid, bind_eq_ok, require_eq_ok, exists_const, Bool.and_eq_true,
    decide_eq_true_eq, beq_iff_eq]
  constructor
  · rintro ⟨-, ⟨⟨htake, hmin⟩, hmax⟩, hparts⟩
    have hjoin := joinWith_splitOn (.scalar '-') value
    rw [← List.take_append_drop 2 (splitOn (.scalar '-') value), htake] at hjoin
    have hlen : ((splitOn (.scalar '-') value).drop 2).length =
        (splitOn (.scalar '-') value).length - 2 := List.length_drop
    obtain ⟨part, parts, hdrop⟩ := List.exists_cons_of_length_pos
      (l := (splitOn (.scalar '-') value).drop 2) (by omega)
    rw [hdrop] at hparts hjoin hlen
    simp only [validateParts, bind_eq_ok, exists_const, validatePart_eq_ok, if_true,
      validateParts_succ_eq_ok] at hparts
    obtain ⟨⟨n, hn, rfl⟩, values, hvalues, rfl⟩ := hparts
    rw [List.length_cons, List.length_map] at hlen
    refine ⟨⟨n, values, by omega, by omega, hvalues⟩, hjoin.symm.trans ?_⟩
    rw [Sid.text_eq_joinWith]
    rfl
  · rintro ⟨s, rfl⟩
    have hcount := s.length_le
    have hauthority := s.authority_lt
    rw [Sid.splitOn_text]
    refine ⟨⟨s.length_text_ge, s.length_text_le⟩, ⟨⟨rfl, ?_⟩, ?_⟩, ?_⟩
    · simp only [Sid.parts, List.length_cons]
      omega
    · simp only [Sid.parts, List.length_cons, List.length_map]
      omega
    · simp only [Sid.parts, List.drop_succ_cons, List.drop_zero, validateParts, bind_eq_ok,
        exists_const, validatePart_eq_ok, if_true, validateParts_succ_eq_ok]
      exact ⟨⟨_, by omega, rfl⟩, _, s.subauthority_lt, rfl⟩

/-! ## The policy -/

/-- `_ADMIN_SID` -/
def adminSid : PyStr := lit "S-1-5-32-544"

/-- `_SYSTEM_SID` -/
def systemSid : PyStr := lit "S-1-5-18"

/-- `_OWNER_RIGHTS_SID` -/
def ownerRightsSid : PyStr := lit "S-1-3-4"

/-- `_MUTATION_ACCESS_MASK`: write data, append, write extended attributes, write attributes,
delete, write the list, write the owner, and the generic rights to write and to all. -/
def mutationAccessMask : ℕ :=
  0x2 ||| 0x4 ||| 0x10 ||| 0x100 ||| 0x10000 ||| 0x40000 ||| 0x80000 ||| 0x40000000 ||| 0x10000000

/-- `_DELETE_CHILD` -/
def deleteChild : ℕ := 0x40

def mutationMask (directory : Bool) : ℕ :=
  mutationAccessMask ||| if directory then deleteChild else 0

/-- `check_startup_security` of a `str` and a `bool`; it refuses other types. -/
def checkStartupSecurity (data : Bytes) (role hostSid : PyStr) (directory : Bool) :
    Except String StartupSecurityDescriptor := do
  require (role == lit "source" || role == lit "protected")
    "security role must be source or protected"
  validateHostSid hostSid
  let snapshot ← parseStartupSecurity data
  let trusted := [adminSid, systemSid] ++ if role = lit "source" then [hostSid] else []
  require (trusted.contains snapshot.ownerSid) "startup security owner is not trusted for role"
  require (!snapshot.entries.isEmpty) "empty DACL cannot establish usable startup security"
  requireAll snapshot.entries
    (fun entry =>
      let trustee := if entry.sid = ownerRightsSid then snapshot.ownerSid else entry.sid
      !(entry.allowed && !trusted.contains trustee && entry.mask &&& mutationMask directory != 0))
    fun _ => "untrusted ACE permits startup mutation"
  pure snapshot

deriving instance DecidableEq for Sid

def Sid.administrators : Sid := ⟨5, [32, 544], by decide, by decide, by decide⟩

def Sid.localSystem : Sid := ⟨5, [18], by decide, by decide, by decide⟩

def Sid.ownerRights : Sid := ⟨3, [4], by decide, by decide, by decide⟩

/-- Who may change a file in a role. -/
def Trusted (role : PyStr) (host s : Sid) : Prop :=
  s = .administrators ∨ s = .localSystem ∨ role = lit "source" ∧ s = host

/-- Whom an entry is about: OWNER RIGHTS stand for the owner. -/
def Ace.subject (owner : Sid) (a : Ace) : Sid :=
  if a.trustee = .ownerRights then owner else a.trustee

theorem mem_trusted_iff {role : PyStr} {host s : Sid} :
    s.text ∈ [adminSid, systemSid] ++ (if role = lit "source" then [host.text] else []) ↔
      Trusted role host s := by
  have hadmin : adminSid = Sid.administrators.text := rfl
  have hsystem : systemSid = Sid.localSystem.text := rfl
  rw [hadmin, hsystem, Trusted, List.mem_append, List.mem_pair]
  split_ifs with hrole
  · rw [List.mem_singleton, Sid.text_injective.eq_iff, Sid.text_injective.eq_iff,
      Sid.text_injective.eq_iff, or_assoc]
    exact or_congr_right (or_congr_right (and_iff_right hrole).symm)
  · simp [Sid.text_injective.eq_iff, hrole]

theorem text_subject (owner : Sid) (a : Ace) :
    (if a.entry.sid = ownerRightsSid then owner.text else a.entry.sid) =
      (a.subject owner).text := by
  have htext : a.trustee.text = Sid.ownerRights.text ↔ a.trustee = .ownerRights :=
    Sid.text_injective.eq_iff
  have hrights : a.entry.sid = ownerRightsSid ↔ a.trustee = .ownerRights := htext
  by_cases h : a.trustee = .ownerRights
  · rw [if_pos (hrights.mpr h), Ace.subject, if_pos h]
  · rw [if_neg (mt hrights.mp h), Ace.subject, if_neg h]
    rfl

/-- An entry passes unless it allows somebody else to change the file. -/
theorem entry_passes_iff {role : PyStr} {host owner : Sid} {mask : ℕ} {a : Ace} :
    (!(a.entry.allowed &&
      !([adminSid, systemSid] ++ if role = lit "source" then [host.text] else []).contains
        (if a.entry.sid = ownerRightsSid then owner.text else a.entry.sid) &&
      a.entry.mask &&& mask != 0)) = true ↔
    (a.allowed = true → a.mask &&& mask ≠ 0 → Trusted role host (a.subject owner)) := by
  rw [text_subject, Bool.not_eq_true', Bool.and_eq_false_iff, Bool.and_eq_false_iff,
    Bool.not_eq_false', List.contains_iff_mem, mem_trusted_iff, bne_eq_false_iff_eq, Ace.entry]
  cases a.allowed <;> simp only [Bool.true_eq_false, false_or, true_or, Bool.false_eq_true,
    false_implies, forall_const]
  tauto

/-- Accepted bytes are described by a layout in which nobody but a trustee may change the file. -/
theorem checkStartupSecurity_eq_ok {role hostSid : PyStr} {directory : Bool}
    {d : StartupSecurityDescriptor} :
    checkStartupSecurity data role hostSid directory = .ok d ↔
      (role = lit "source" ∨ role = lit "protected") ∧
      ∃ host : Sid, hostSid = host.text ∧
      ∃ l : Layout, l.Describes data ∧ d = l.snapshot data ∧ Trusted role host l.owner.item ∧
        l.dacl.item.aces ≠ [] ∧
        ∀ a ∈ l.dacl.item.aces, a.allowed = true → a.mask &&& mutationMask directory ≠ 0 →
          Trusted role host (a.subject l.owner.item) := by
  simp only [checkStartupSecurity, bind_eq_ok, require_eq_ok, requireAll_eq_ok, exists_const,
    Bool.or_eq_true, beq_iff_eq, validateHostSid_eq_ok, parseStartupSecurity_eq_ok, pure,
    Except.pure, Except.ok.injEq, List.contains_iff_mem]
  have hempty : ∀ l : Layout, (!(l.snapshot data).entries.isEmpty) = true ↔
      l.dacl.item.aces ≠ [] := by
    intro l
    rw [Bool.not_eq_true', List.isEmpty_eq_false_iff, Layout.snapshot, Ne, List.map_eq_nil_iff]
  constructor
  · rintro ⟨hrole, ⟨host, rfl⟩, d, ⟨l, hl, rfl⟩, howner, hne, hentries, rfl⟩
    refine ⟨hrole, host, rfl, l, hl, rfl, mem_trusted_iff.mp howner, (hempty l).mp hne, ?_⟩
    exact fun a ha => entry_passes_iff.mp (hentries a.entry (List.mem_map_of_mem ha))
  · rintro ⟨hrole, host, rfl, l, hl, rfl, howner, hne, haces⟩
    refine ⟨hrole, ⟨host, rfl⟩, _, ⟨l, hl, rfl⟩, mem_trusted_iff.mpr howner, (hempty l).mpr hne,
      ?_, rfl⟩
    intro entry hentry
    obtain ⟨a, ha, rfl⟩ := List.mem_map.mp hentry
    exact entry_passes_iff.mpr (haces a ha)

/-- A descriptor hides nothing: the parser accepts exactly what a layout describes and returns all
of it, and the policy accepts only layouts in which nobody but a trustee may change the file. -/
theorem descriptor_hides_nothing (data : Bytes) :
    (∀ d, parseStartupSecurity data = .ok d ↔
      ∃ l : Layout, l.Describes data ∧ d = l.snapshot data) ∧
    ∀ role hostSid directory d, checkStartupSecurity data role hostSid directory = .ok d ↔
      (role = lit "source" ∨ role = lit "protected") ∧
      ∃ host : Sid, hostSid = host.text ∧
      ∃ l : Layout, l.Describes data ∧ d = l.snapshot data ∧ Trusted role host l.owner.item ∧
        l.dacl.item.aces ≠ [] ∧
        ∀ a ∈ l.dacl.item.aces, a.allowed = true → a.mask &&& mutationMask directory ≠ 0 →
          Trusted role host (a.subject l.owner.item) :=
  ⟨fun _ => parseStartupSecurity_eq_ok, fun _ _ _ _ => checkStartupSecurity_eq_ok⟩

end Icode.StartupSecurity
