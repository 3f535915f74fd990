import Icode.Sha256
import Icode.PyDict
import Icode.Checks
import Icode.PathTree
import Icode.Transition

/-!
# Write leases

A `WriteLeaseBoard` grants write leases for regions of the workspace. Two levels
keep overlapping regions apart: a table of the regions the board has granted,
searched by prefix (`regionsOverlap`), and a file lock that other boards over
the same directory see, whose file is named by the digest of the region.

`Boards ι` is the state of any number of boards over one lease directory, with
the lock table of the operating system, and `step` one atomic part of an
`acquire` or `release` call: the body of `acquire` runs under the guard of its
board, and other boards may move between its parts.

The lock knows equal regions only. `boards_may_overlap` is a run of two boards
that ends with `src` held by one and `src/a` by the other, and
`noOverlap_iff_grantsApart` says that nothing else goes wrong: held regions never
overlap exactly in the runs that grant no board a region properly above or below
one that another board holds (`GrantsApart`).
-/

set_option linter.unusedSectionVars false

namespace Icode

open Py PathTree

/-! ## Regions -/

/-- A region: its path segments. -/
abbrev Region := List PyStr

/-- `LeaseError`, by its code and message. -/
inductive LeaseError where
  /-- `invalid_region`: 区域必须是工作区相对路径（拒绝绝对路径） -/
  | absoluteRegion
  /-- `invalid_region`: 区域必须为非空字符串或段元组 -/
  | regionType
  /-- `invalid_region`: 区域不能为空 -/
  | emptyRegion
  /-- `invalid_region`: 区域拒绝空段与父目录逃逸 -/
  | segment
  /-- `invalid_region`: 区域段含非法字符 -/
  | segmentChars (part : PyStr)
  /-- `invalid_region`: 控制面/账本不是可声明写区域 -/
  | controlPlane
  /-- `invalid_holder`: 持有者身份必须为非空字符串 -/
  | holder
  /-- `invalid_holder`: 持有者身份过长 -/
  | holderLength
  /-- `lease_busy`: 区域已被占用 -/
  | busy (region : Region) (holder : PyStr)
  deriving DecidableEq

/-- The argument `region`: a text, or a tuple or list whose items may be anything. -/
inductive RegionArg where
  | text (s : PyStr)
  | segments (parts : List (Option PyStr))
  | other

/-- `text.split("/")`. -/
def splitSlash : PyStr → List PyStr
  | [] => [[]]
  | c :: cs =>
    match splitSlash cs with
    | part :: parts => if c = '/' then [] :: part :: parts else (c :: part) :: parts
    | [] => [[]]

/-- `"/".join(parts)`. -/
def joinSlash (parts : List PyStr) : PyStr :=
  List.intercalate [CodePoint.scalar '/'] parts

/-- `text.strip("/")`. -/
def stripSlash (s : PyStr) : PyStr :=
  ((s.dropWhile (· == .scalar '/')).reverse.dropWhile (· == .scalar '/')).reverse

def isAsciiLetter (c : CodePoint) : Bool :=
  (65 ≤ c.ord && c.ord ≤ 90) || (97 ≤ c.ord && c.ord ≤ 122)

/-- `[A-Za-z0-9._-]` -/
def isSegmentChar (c : CodePoint) : Bool :=
  isAsciiLetter c || (48 ≤ c.ord && c.ord ≤ 57) || c == .scalar '.' || c == .scalar '_' ||
    c == .scalar '-'

/-- `_SEGMENT_RE.match(part)`: `$` also matches before a line feed at the end. -/
def isSegment (part : PyStr) : Bool :=
  let body := if part.getLast? = some (CodePoint.scalar '\n') then part.dropLast else part
  !body.isEmpty && body.all isSegmentChar

/-- `_CONTROL_PLANE_MARKERS` -/
def controlPlaneMarkers : List PyStr :=
  [lit ".ico_events.jsonl", lit ".ico_metadata.json", lit ".icode_output_", lit ".git/AI-HANDOFF",
    lit "gates.json"]

/-- The segments of the argument, before they are looked at. -/
def regionParts : RegionArg → Except LeaseError (List (Option PyStr))
  | .segments parts => .ok parts
  | .text s =>
    let stripped := strip s
    if stripped.isEmpty then .error .regionType
    else if stripped.head? = some (CodePoint.scalar '/') ∨
        stripped.head? = some (CodePoint.scalar '~') ∨
        (stripped.head?.any isAsciiLetter ∧ stripped.tail.head? = some (CodePoint.scalar ':')) then
      .error .absoluteRegion
    else
      let slashes := s.map fun c => if c = CodePoint.scalar '\\' then CodePoint.scalar '/' else c
      let text := stripSlash (strip slashes)
      .ok (if text.isEmpty then [] else (splitSlash text).map some)
  | .other => .error .regionType

/-- One segment of the loop of `normalize_region`. -/
def checkSegment : Option PyStr → Except LeaseError PyStr
  | none => .error .segment
  | some part =>
    if part = [] ∨ part = lit "." ∨ part = lit ".." then .error .segment
    else if isSegment part then .ok part
    else .error (.segmentChars part)

/-- `normalize_region`. -/
def normalizeRegion (region : RegionArg) : Except LeaseError Region := do
  let parts ← regionParts region
  require (!parts.isEmpty) .emptyRegion
  let segments ← mapAll checkSegment parts
  require (!controlPlaneMarkers.any fun marker => contains (joinSlash segments) marker)
    .controlPlane
  pure segments

/-- `regions_overlap`. -/
def regionsOverlap (left right : Region) : Bool :=
  let shorter := min left.length right.length
  left.take shorter == right.take shorter

/-- `_digest`. -/
def digest (region : Region) : PyStr :=
  sha256 (encodePass (joinSlash region))

/-- Comparing the common length finds equal regions and ancestors. -/
theorem regionsOverlap_iff {left right : Region} :
    regionsOverlap left right = true ↔ Overlap left right := by
  unfold regionsOverlap Overlap Within
  simp only [beq_iff_eq]
  rcases Nat.le_total left.length right.length with h | h
  · rw [Nat.min_eq_left h, List.take_length]
    constructor
    · intro he
      exact Or.inr (he ▸ List.take_prefix _ _)
    · rintro (hp | hp)
      · rw [hp.eq_of_length_le h, List.take_length]
      · exact List.prefix_iff_eq_take.mp hp
  · rw [Nat.min_eq_right h, List.take_length]
    constructor
    · intro he
      exact Or.inl (he ▸ List.take_prefix _ _)
    · rintro (hp | hp)
      · exact (List.prefix_iff_eq_take.mp hp).symm
      · rw [hp.eq_of_length_le h, List.take_length]

/-! ## Boards -/

/-- How far the release of a lease has got; `released` is set first, and by one call only. -/
inductive LeasePhase where
  | held
  | unlocking
  | closing
  | discarding
  | released
  deriving DecidableEq

/-- `WriteLease`. -/
structure Lease (ι : Type*) where
  board : ι
  region : Region
  holder : PyStr
  phase : LeasePhase
  deriving DecidableEq

/-- An `acquire` call that has passed the table; `id` is its lock stream. -/
structure Pending where
  id : ℕ
  region : Region
  holder : PyStr
  locked : Bool

/-- The boards over one lease directory, and the file locks of that directory. -/
structure Boards (ι : Type*) where
  /-- `_held` of each board. -/
  held : ι → Dict Region PyStr
  /-- The call inside the guard of each board. -/
  guard : ι → Option Pending
  /-- The leases granted so far, by lock stream. -/
  lease : ℕ → Option (Lease ι)
  /-- The stream that locks each file, by file name. -/
  locks : PyStr → Option ℕ
  next : ℕ

/-- One atomic part of a call. -/
inductive BoardAction (ι : Type*) where
  /-- `acquire` up to the search of the table. -/
  | acquire (i : ι) (region : RegionArg) (holder : Option PyStr)
  /-- The lease directory, the lock file or its lock raises an error that is no contention. -/
  | openFailed (i : ι)
  /-- `_acquire_file_lock`. -/
  | lock (i : ι)
  /-- Writing the holder raises: unlock, close, raise. -/
  | writeFailed (i : ι)
  /-- The lease enters the table and is returned. -/
  | grant (i : ι)
  /-- `release` sets `_released`, or returns when it is set. -/
  | release (l : ℕ)
  /-- `_release_file_lock`, which ignores an `OSError`. -/
  | unlock (l : ℕ) (ok : Bool)
  /-- `stream.close()`, which gives up the lock in any case. -/
  | close (l : ℕ)
  /-- `_discard`. -/
  | discard (l : ℕ)

/-- The checks of `acquire` on its arguments and against the table. -/
def acquireCheck (held : Dict Region PyStr) (region : RegionArg) (holder : Option PyStr) :
    Except LeaseError (Region × PyStr) := do
  let parts ← normalizeRegion region
  let holder := strip (holder.getD [])
  require (!holder.isEmpty) .holder
  require (holder.length ≤ 128) .holderLength
  match held.find? fun item => regionsOverlap item.1 parts with
  | some (existing, owner) => throw (.busy existing owner)
  | none => pure (parts, holder)

variable {ι : Type*} [DecidableEq ι]

namespace Boards

/-- No board has granted anything. -/
def initial : Boards ι :=
  ⟨fun _ => [], fun _ => none, fun _ => none, fun _ => none, 0⟩

/-- The lock of a file, if the stream has it, is given up. -/
def dropLock (s : Boards ι) (file : PyStr) (l : ℕ) : PyStr → Option ℕ :=
  if s.locks file = some l then Function.update s.locks file none else s.locks

/-- The lease `l` in another phase. -/
def setPhase (s : Boards ι) (l : ℕ) (e : Lease ι) (phase : LeasePhase) : Boards ι :=
  { s with lease := Function.update s.lease l (some { e with phase }) }

/-- One action; an action that cannot be taken now has no successor, and a call that raises
leaves the state. -/
def step (s : Boards ι) : BoardAction ι → Option (Boards ι)
  | .acquire i region holder =>
    match s.guard i with
    | some _ => none
    | none =>
      match acquireCheck (s.held i) region holder with
      | .error _ => some s
      | .ok (parts, holder) =>
        some { s with
          guard := Function.update s.guard i (some ⟨s.next, parts, holder, false⟩),
          next := s.next + 1 }
  | .openFailed i =>
    match s.guard i with
    | some p => if p.locked then none else some { s with guard := Function.update s.guard i none }
    | none => none
  | .lock i =>
    match s.guard i with
    | some p =>
      if p.locked then none
      else
        match s.locks (digest p.region) with
        | some _ => some { s with guard := Function.update s.guard i none }
        | none =>
          some { s with
            guard := Function.update s.guard i (some { p with locked := true }),
            locks := Function.update s.locks (digest p.region) (some p.id) }
    | none => none
  | .writeFailed i =>
    match s.guard i with
    | some p =>
      if p.locked then
        some { s with
          guard := Function.update s.guard i none, locks := s.dropLock (digest p.region) p.id }
      else none
    | none => none
  | .grant i =>
    match s.guard i with
    | some p =>
      if p.locked then
        some { s with
          guard := Function.update s.guard i none,
          held := Function.update s.held i ((s.held i).set p.region p.holder),
          lease := Function.update s.lease p.id (some ⟨i, p.region, p.holder, .held⟩) }
      else none
    | none => none
  | .release l =>
    match s.lease l with
    | some e => if e.phase = .held then some (s.setPhase l e .unlocking) else some s
    | none => none
  | .unlock l ok =>
    match s.lease l with
    | some e =>
      if e.phase = .unlocking then
        some { s.setPhase l e .closing with
          locks := if ok then s.dropLock (digest e.region) l else s.locks }
      else none
    | none => none
  | .close l =>
    match s.lease l with
    | some e =>
      if e.phase = .closing then
        some { s.setPhase l e .discarding with locks := s.dropLock (digest e.region) l }
      else none
    | none => none
  | .discard l =>
    match s.lease l with
    | some e =>
      if e.phase = .discarding ∧ (s.guard e.board).isNone then
        some { s.setPhase l e .released with
          held := Function.update s.held e.board
            (if (s.held e.board).get? e.region = some e.holder then (s.held e.board).erase e.region
              else s.held e.board) }
      else none
    | none => none

/-- A lease is held until its release begins. -/
def Held (s : Boards ι) (l : ℕ) (e : Lease ι) : Prop :=
  s.lease l = some e ∧ e.phase = .held

/-- No two held regions overlap, over all boards. -/
def NoOverlap (s : Boards ι) : Prop :=
  ∀ l m e f, s.Held l e → s.Held m f → l ≠ m → ¬Overlap e.region f.region

/-- The step grants no region that lies properly above or below one that another board
holds. -/
def GrantsApart (s : Boards ι) : BoardAction ι → Prop
  | .grant i => ∀ p ∈ s.guard i, ∀ l e, s.Held l e → e.board ≠ i →
      Overlap e.region p.region → e.region = p.region
  | _ => True

/-! ## The invariant -/

/-- What holds of the boards in every run that grants apart. -/
structure Inv (s : Boards ι) : Prop where
  pending_fresh : ∀ i p, s.guard i = some p → p.id < s.next ∧ s.lease p.id = none
  lease_fresh : ∀ l e, s.lease l = some e → l < s.next
  pending_ne : ∀ i j p q, s.guard i = some p → s.guard j = some q → i ≠ j → p.id ≠ q.id
  /-- A lease stays in the table of its board until it is discarded. -/
  entry : ∀ l e, s.lease l = some e → e.phase ≠ .released → e.region ∈ (s.held e.board).keys
  /-- The table does not change between the search and the grant. -/
  clear : ∀ i p, s.guard i = some p → ∀ r ∈ (s.held i).keys, ¬Overlap r p.region
  lease_lock : ∀ l e, s.lease l = some e → e.phase = .held ∨ e.phase = .unlocking →
    s.locks (digest e.region) = some l
  pending_lock : ∀ i p, s.guard i = some p → p.locked = true →
    s.locks (digest p.region) = some p.id
  /-- On one board, regions in the table stay apart. -/
  same_board : ∀ l m e f, s.lease l = some e → s.lease m = some f → l ≠ m → e.board = f.board →
    e.phase ≠ .released → f.phase ≠ .released → ¬Overlap e.region f.region
  noOverlap : s.NoOverlap

theorem inv_initial : Inv (initial : Boards ι) where
  pending_fresh := by simp [initial]
  lease_fresh := by simp [initial]
  pending_ne := by simp [initial]
  entry := by simp [initial]
  clear := by simp [initial]
  lease_lock := by simp [initial]
  pending_lock := by simp [initial]
  same_board := by simp [initial]
  noOverlap := by simp [initial, NoOverlap, Held]

/-- The table search leaves only regions that overlap nothing. -/
theorem acquireCheck_clear {held : Dict Region PyStr} {region : RegionArg} {holder : Option PyStr}
    {parts : Region} {owner : PyStr} (h : acquireCheck held region holder = .ok (parts, owner)) :
    ∀ r ∈ held.keys, ¬Overlap r parts := by
  unfold acquireCheck at h
  simp only [bind_eq_ok] at h
  obtain ⟨parts', -, -, -, -, -, h⟩ := h
  split at h
  · cases h
  · rename_i hnone
    obtain ⟨rfl, -⟩ := Prod.mk.inj (Except.ok.inj h)
    intro r hr
    obtain ⟨item, hitem, rfl⟩ := List.mem_map.mp hr
    have := List.find?_eq_none.mp hnone item hitem
    rwa [← regionsOverlap_iff]

variable {s s' : Boards ι}

/-- Leaving the guard keeps the invariant. -/
theorem Inv.leave (h : Inv s) (i : ι) : Inv { s with guard := Function.update s.guard i none } := by
  have hg : ∀ {j p}, Function.update s.guard i none j = some p → s.guard j = some p := by
    intro j p hj
    by_cases hij : j = i
    · simp [hij] at hj
    · simpa [hij] using hj
  exact ⟨fun j p hj => h.pending_fresh j p (hg hj), h.lease_fresh,
    fun j k p q hj hk => h.pending_ne j k p q (hg hj) (hg hk), h.entry,
    fun j p hj => h.clear j p (hg hj), h.lease_lock, fun j p hj => h.pending_lock j p (hg hj),
    h.same_board, h.noOverlap⟩

theorem Inv.acquire (h : Inv s) {i : ι} (hi : s.guard i = none) {parts : Region} {holder : PyStr}
    (hc : ∀ r ∈ (s.held i).keys, ¬Overlap r parts) :
    Inv { s with
      guard := Function.update s.guard i (some ⟨s.next, parts, holder, false⟩),
      next := s.next + 1 } := by
  have hg : ∀ {j p}, Function.update s.guard i (some ⟨s.next, parts, holder, false⟩) j = some p →
      (j = i ∧ p = ⟨s.next, parts, holder, false⟩) ∨ (j ≠ i ∧ s.guard j = some p) := by
    intro j p hj
    by_cases hij : j = i
    · subst hij
      simp only [Function.update_self, Option.some.injEq] at hj
      exact Or.inl ⟨rfl, hj.symm⟩
    · exact Or.inr ⟨hij, by simpa [hij] using hj⟩
  have hfresh : s.lease s.next = none := by
    cases hl : s.lease s.next with
    | none => rfl
    | some e => exact absurd (h.lease_fresh _ _ hl) (lt_irrefl _)
  refine ⟨fun j p hj => ?_, fun l e hl => ?_, fun j k p q hj hk hjk => ?_, h.entry,
    fun j p hj => ?_, h.lease_lock, fun j p hj hp => ?_, h.same_board, h.noOverlap⟩
  · rcases hg hj with ⟨rfl, rfl⟩ | ⟨-, hj⟩
    · exact ⟨Nat.lt_succ_self _, hfresh⟩
    · exact ⟨Nat.lt_succ_of_lt (h.pending_fresh j p hj).1, (h.pending_fresh j p hj).2⟩
  · exact Nat.lt_succ_of_lt (h.lease_fresh l e hl)
  · rcases hg hj with ⟨rfl, rfl⟩ | ⟨-, hj'⟩ <;> rcases hg hk with ⟨rfl, rfl⟩ | ⟨-, hk'⟩
    · exact absurd rfl hjk
    · exact (h.pending_fresh k q hk').1.ne'
    · exact (h.pending_fresh j p hj').1.ne
    · exact h.pending_ne j k p q hj' hk' hjk
  · rcases hg hj with ⟨rfl, rfl⟩ | ⟨-, hj⟩
    · exact hc
    · exact h.clear j p hj
  · rcases hg hj with ⟨rfl, rfl⟩ | ⟨-, hj⟩
    · cases hp
    · exact h.pending_lock j p hj hp

theorem Inv.lock (h : Inv s) {i : ι} {p : Pending} (hi : s.guard i = some p)
    (hfree : s.locks (digest p.region) = none) :
    Inv { s with
      guard := Function.update s.guard i (some { p with locked := true }),
      locks := Function.update s.locks (digest p.region) (some p.id) } := by
  have hg : ∀ {j q}, Function.update s.guard i (some { p with locked := true }) j = some q →
      (j = i ∧ q = { p with locked := true }) ∨ (j ≠ i ∧ s.guard j = some q) := by
    intro j q hj
    by_cases hij : j = i
    · subst hij
      simp only [Function.update_self, Option.some.injEq] at hj
      exact Or.inl ⟨rfl, hj.symm⟩
    · exact Or.inr ⟨hij, by simpa [hij] using hj⟩
  have hl : ∀ {file l}, s.locks file = some l →
      Function.update s.locks (digest p.region) (some p.id) file = some l := by
    intro file l hfile
    have hne : file ≠ digest p.region := by
      rintro rfl
      simp [hfree] at hfile
    simpa [hne] using hfile
  refine ⟨fun j q hj => ?_, h.lease_fresh, fun j k q r hj hk hjk => ?_, h.entry, fun j q hj => ?_,
    fun l e he hp => hl (h.lease_lock l e he hp), fun j q hj hq => ?_, h.same_board, h.noOverlap⟩
  · rcases hg hj with ⟨rfl, rfl⟩ | ⟨-, hj⟩
    · exact h.pending_fresh j p hi
    · exact h.pending_fresh j q hj
  · rcases hg hj with ⟨rfl, rfl⟩ | ⟨-, hj'⟩ <;> rcases hg hk with ⟨rfl, rfl⟩ | ⟨-, hk'⟩
    · exact absurd rfl hjk
    · exact h.pending_ne j k p r hi hk' hjk
    · exact h.pending_ne j k q p hj' hi hjk
    · exact h.pending_ne j k q r hj' hk' hjk
  · rcases hg hj with ⟨rfl, rfl⟩ | ⟨-, hj⟩
    · exact h.clear j p hi
    · exact h.clear j q hj
  · rcases hg hj with ⟨rfl, rfl⟩ | ⟨-, hj⟩
    · simp
    · exact hl (h.pending_lock j q hj hq)

/-- Another stream keeps its lock. -/
theorem dropLock_of_ne {file : PyStr} {l m : ℕ} {f : PyStr} (hm : s.locks f = some m)
    (hne : m ≠ l) : s.dropLock file l f = some m := by
  unfold dropLock
  split_ifs with hl
  · have : f ≠ file := by
      rintro rfl
      rw [hl] at hm
      exact hne (Option.some.inj hm).symm
    simpa [this] using hm
  · exact hm

theorem Inv.writeFailed (h : Inv s) {i : ι} {p : Pending} (hi : s.guard i = some p) :
    Inv { s with
      guard := Function.update s.guard i none, locks := s.dropLock (digest p.region) p.id } := by
  have hleave := h.leave i
  refine { hleave with lease_lock := fun l e he hp => ?_, pending_lock := fun j q hj hq => ?_ }
  · refine dropLock_of_ne (h.lease_lock l e he hp) ?_
    rintro rfl
    rw [(h.pending_fresh i p hi).2] at he
    cases he
  · have hij : j ≠ i := by
      rintro rfl
      simp at hj
    have hj' : s.guard j = some q := by simpa [hij] using hj
    exact dropLock_of_ne (h.pending_lock j q hj' hq) (h.pending_ne j i q p hj' hi hij)

theorem Inv.grant (h : Inv s) {i : ι} {p : Pending} (hi : s.guard i = some p)
    (hp : p.locked = true) (hapart : s.GrantsApart (.grant i)) :
    Inv { s with
      guard := Function.update s.guard i none,
      held := Function.update s.held i ((s.held i).set p.region p.holder),
      lease := Function.update s.lease p.id (some ⟨i, p.region, p.holder, .held⟩) } := by
  have hg : ∀ {j q}, Function.update s.guard i none j = some q → j ≠ i ∧ s.guard j = some q := by
    intro j q hj
    by_cases hij : j = i
    · simp [hij] at hj
    · exact ⟨hij, by simpa [hij] using hj⟩
  have hl : ∀ {l e}, Function.update s.lease p.id (some ⟨i, p.region, p.holder, .held⟩) l = some e →
      (l = p.id ∧ e = ⟨i, p.region, p.holder, .held⟩) ∨ (l ≠ p.id ∧ s.lease l = some e) := by
    intro l e he
    by_cases hlp : l = p.id
    · subst hlp
      simp only [Function.update_self, Option.some.injEq] at he
      exact Or.inl ⟨rfl, he.symm⟩
    · exact Or.inr ⟨hlp, by simpa [hlp] using he⟩
  -- a lease of the same board is in the table, which was searched
  have hboard : ∀ l e, s.lease l = some e → e.board = i → e.phase ≠ .released →
      ¬Overlap e.region p.region := by
    rintro l e he rfl hr
    exact h.clear _ p hi _ (h.entry l e he hr)
  -- a lease of another board has another region, since its file is locked
  have hother : ∀ l e, s.Held l e → ¬Overlap e.region p.region := by
    rintro l e ⟨he, hph⟩ ho
    by_cases hb : e.board = i
    · exact hboard l e he hb (by simp [hph]) ho
    · have heq := hapart p hi l e ⟨he, hph⟩ hb ho
      have hlock := h.lease_lock l e he (Or.inl hph)
      rw [heq, h.pending_lock i p hi hp] at hlock
      rw [← Option.some.inj hlock, (h.pending_fresh i p hi).2] at he
      cases he
  refine ⟨fun j q hj => ?_, fun l e he => ?_, fun j k q r hj hk hjk => ?_, fun l e he hr => ?_,
    fun j q hj => ?_, fun l e he hph => ?_, fun j q hj hq => ?_,
    fun l m e f he hf hlm hb hre hrf => ?_, fun l m e f hle hmf hlm => ?_⟩
  · obtain ⟨hij, hj⟩ := hg hj
    refine ⟨(h.pending_fresh j q hj).1, ?_⟩
    have hne : q.id ≠ p.id := h.pending_ne j i q p hj hi hij
    simpa [hne] using (h.pending_fresh j q hj).2
  · rcases hl he with ⟨rfl, -⟩ | ⟨-, he⟩
    · exact (h.pending_fresh i p hi).1
    · exact h.lease_fresh l e he
  · exact h.pending_ne j k q r (hg hj).2 (hg hk).2 hjk
  · rcases hl he with ⟨rfl, rfl⟩ | ⟨-, he⟩
    · simp only [Function.update_self, Dict.keys_set]
      split_ifs with hk <;> simp [hk]
    · by_cases hb : e.board = i
      · have := h.entry l e he hr
        rw [hb] at this ⊢
        simp only [Function.update_self, Dict.keys_set]
        split_ifs with hk <;> simp [this]
      · simpa [hb] using h.entry l e he hr
  · obtain ⟨hij, hj⟩ := hg hj
    simpa [hij] using h.clear j q hj
  · rcases hl he with ⟨rfl, rfl⟩ | ⟨-, he⟩
    · exact h.pending_lock i p hi hp
    · exact h.lease_lock l e he hph
  · exact h.pending_lock j q (hg hj).2 hq
  · rcases hl he with ⟨rfl, rfl⟩ | ⟨-, he'⟩ <;> rcases hl hf with ⟨rfl, rfl⟩ | ⟨-, hf'⟩
    · exact absurd rfl hlm
    · exact fun ho => hboard m f hf' hb.symm hrf ho.symm
    · exact hboard l e he' hb hre
    · exact h.same_board l m e f he' hf' hlm hb hre hrf
  · obtain ⟨he, hpe⟩ := hle
    obtain ⟨hf, hpf⟩ := hmf
    rcases hl he with ⟨rfl, rfl⟩ | ⟨-, he'⟩ <;> rcases hl hf with ⟨rfl, rfl⟩ | ⟨-, hf'⟩
    · exact absurd rfl hlm
    · exact fun ho => hother m f ⟨hf', hpf⟩ ho.symm
    · exact hother l e ⟨he', hpe⟩
    · exact h.noOverlap l m e f ⟨he', hpe⟩ ⟨hf', hpf⟩ hlm

/-- A lease that moves on in its release, and at most gives up its own lock. -/
theorem Inv.setPhase (h : Inv s) {l : ℕ} {e : Lease ι} (he : s.lease l = some e)
    {phase : LeasePhase} (hph : phase ≠ .held) (hr : e.phase ≠ .released)
    (hfirst : phase = .unlocking → e.phase = .held) {locks : PyStr → Option ℕ}
    (hlocks : ∀ f m, s.locks f = some m → m ≠ l ∨ phase = .unlocking → locks f = some m) :
    Inv { s.setPhase l e phase with locks } := by
  have hl : ∀ {m f}, Function.update s.lease l (some { e with phase }) m = some f →
      (m = l ∧ f = { e with phase }) ∨ (m ≠ l ∧ s.lease m = some f) := by
    intro m f hf
    by_cases hml : m = l
    · subst hml
      simp only [Function.update_self, Option.some.injEq] at hf
      exact Or.inl ⟨rfl, hf.symm⟩
    · exact Or.inr ⟨hml, by simpa [hml] using hf⟩
  have hpend : ∀ i p, s.guard i = some p → p.id ≠ l := by
    rintro i p hi rfl
    rw [(h.pending_fresh i p hi).2] at he
    cases he
  refine ⟨fun i p hi => ?_, fun m f hf => ?_, h.pending_ne, fun m f hf hrf => ?_, h.clear,
    fun m f hf hpf => ?_, fun i p hi hp => ?_, fun m n f g hf hg hmn hb hrf hrg => ?_,
    fun m n f g hmf hng hmn => ?_⟩
  · have hne := hpend i p hi
    exact ⟨(h.pending_fresh i p hi).1, by
      simpa [Boards.setPhase, hne] using (h.pending_fresh i p hi).2⟩
  · rcases hl hf with ⟨rfl, rfl⟩ | ⟨-, hf⟩
    · exact h.lease_fresh _ _ he
    · exact h.lease_fresh m f hf
  · rcases hl hf with ⟨rfl, rfl⟩ | ⟨-, hf⟩
    · exact h.entry _ e he hr
    · exact h.entry m f hf hrf
  · rcases hl hf with ⟨rfl, rfl⟩ | ⟨hne, hf⟩
    · rcases hpf with hpf | hpf
      · exact absurd hpf hph
      · exact hlocks _ _ (h.lease_lock _ e he (Or.inl (hfirst hpf))) (Or.inr hpf)
    · exact hlocks _ _ (h.lease_lock m f hf hpf) (Or.inl hne)
  · exact hlocks _ _ (h.pending_lock i p hi hp) (Or.inl (hpend i p hi))
  · rcases hl hf with ⟨rfl, rfl⟩ | ⟨-, hf'⟩ <;> rcases hl hg with ⟨rfl, rfl⟩ | ⟨-, hg'⟩
    · exact absurd rfl hmn
    · exact h.same_board _ n e g he hg' hmn hb hr hrg
    · exact h.same_board m _ f e hf' he hmn hb hrf hr
    · exact h.same_board m n f g hf' hg' hmn hb hrf hrg
  · obtain ⟨hf, hpf⟩ := hmf
    obtain ⟨hg, hpg⟩ := hng
    rcases hl hf with ⟨rfl, rfl⟩ | ⟨-, hf'⟩ <;> rcases hl hg with ⟨rfl, rfl⟩ | ⟨-, hg'⟩
    · exact absurd rfl hmn
    · exact absurd hpf hph
    · exact absurd hpg hph
    · exact h.noOverlap m n f g ⟨hf', hpf⟩ ⟨hg', hpg⟩ hmn

theorem Inv.discard (h : Inv s) {l : ℕ} {e : Lease ι} (he : s.lease l = some e)
    (hd : e.phase = .discarding) (hg : s.guard e.board = none) :
    Inv { s.setPhase l e .released with
      held := Function.update s.held e.board
        (if (s.held e.board).get? e.region = some e.holder then (s.held e.board).erase e.region
          else s.held e.board) } := by
  have hphase : Inv { s.setPhase l e .released with locks := s.locks } :=
    h.setPhase he (by simp) (by simp [hd]) (by simp) fun f m hf _ => hf
  refine { hphase with entry := fun m f hf hrf => ?_, clear := fun i p hi => ?_ }
  · have hm := hphase.entry m f hf hrf
    change f.region ∈ (s.held f.board).keys at hm
    by_cases hb : f.board = e.board
    · -- the other leases of the board have other regions
      have hml : m ≠ l := by
        rintro rfl
        have : f = { e with phase := .released } := by
          simpa [Boards.setPhase] using hf.symm
        exact hrf (by rw [this])
      have hf' : s.lease m = some f := by simpa [Boards.setPhase, hml] using hf
      have hno := h.same_board m l f e hf' he hml hb hrf (by simp [hd])
      have hne : f.region ≠ e.region := fun heq => hno (Or.inl (heq ▸ Within.refl _))
      rw [hb] at hm ⊢
      simp only [Function.update_self]
      split_ifs
      · rw [Dict.keys_erase]
        simpa using ⟨hm, hne⟩
      · exact hm
    · simpa [hb] using hm
  · have hb : i ≠ e.board := by
      rintro rfl
      rw [show s.guard _ = _ from hi] at hg
      cases hg
    simpa [hb] using h.clear i p hi

/-- One action keeps the invariant, when it grants apart. -/
theorem Inv.step (h : Inv s) {a : BoardAction ι} (ha : s.GrantsApart a)
    (hs : s.step a = some s') : Inv s' := by
  cases a with
  | acquire i region holder =>
    cases hg : s.guard i with
    | some p => simp [Boards.step, hg] at hs
    | none =>
      cases hc : acquireCheck (s.held i) region holder with
      | error e =>
        obtain rfl : s = s' := by simpa [Boards.step, hg, hc] using hs
        exact h
      | ok r =>
        obtain rfl := Option.some.inj (by simpa [Boards.step, hg, hc] using hs)
        exact h.acquire hg (acquireCheck_clear hc)
  | openFailed i =>
    cases hg : s.guard i with
    | none => simp [Boards.step, hg] at hs
    | some p =>
      simp only [Boards.step, hg] at hs
      split_ifs at hs
      obtain rfl := Option.some.inj hs
      exact h.leave i
  | lock i =>
    cases hg : s.guard i with
    | none => simp [Boards.step, hg] at hs
    | some p =>
      simp only [Boards.step, hg] at hs
      split_ifs at hs
      cases hl : s.locks (digest p.region) with
      | some m =>
        rw [hl] at hs
        obtain rfl := Option.some.inj hs
        exact h.leave i
      | none =>
        rw [hl] at hs
        obtain rfl := Option.some.inj hs
        exact h.lock hg hl
  | writeFailed i =>
    cases hg : s.guard i with
    | none => simp [Boards.step, hg] at hs
    | some p =>
      simp only [Boards.step, hg] at hs
      split_ifs at hs
      obtain rfl := Option.some.inj hs
      exact h.writeFailed hg
  | grant i =>
    cases hg : s.guard i with
    | none => simp [Boards.step, hg] at hs
    | some p =>
      simp only [Boards.step, hg] at hs
      split_ifs at hs with hp
      obtain rfl := Option.some.inj hs
      exact h.grant hg hp ha
  | release l =>
    cases hl : s.lease l with
    | none => simp [Boards.step, hl] at hs
    | some e =>
      simp only [Boards.step, hl] at hs
      split_ifs at hs with hp
      · obtain rfl := Option.some.inj hs
        exact h.setPhase hl (by simp) (by simp [hp]) (fun _ => hp) fun f m hf _ => hf
      · obtain rfl := Option.some.inj hs
        exact h
  | unlock l ok =>
    cases hl : s.lease l with
    | none => simp [Boards.step, hl] at hs
    | some e =>
      simp only [Boards.step, hl] at hs
      split_ifs at hs with hp
      all_goals
        obtain rfl := Option.some.inj hs
        refine h.setPhase hl (by simp) (by simp [hp]) (by simp) fun f m hf hm => ?_
      · exact dropLock_of_ne hf (by simpa using hm)
      · exact hf
  | close l =>
    cases hl : s.lease l with
    | none => simp [Boards.step, hl] at hs
    | some e =>
      simp only [Boards.step, hl] at hs
      split_ifs at hs with hp
      obtain rfl := Option.some.inj hs
      refine h.setPhase hl (by simp) (by simp [hp]) (by simp) fun f m hf hm => ?_
      exact dropLock_of_ne hf (by simpa using hm)
  | discard l =>
    cases hl : s.lease l with
    | none => simp [Boards.step, hl] at hs
    | some e =>
      simp only [Boards.step, hl] at hs
      by_cases hp : e.phase = .discarding ∧ (s.guard e.board).isNone
      · rw [if_pos hp] at hs
        obtain rfl := Option.some.inj hs
        exact h.discard hl hp.1 (by simpa using hp.2)
      · rw [if_neg hp] at hs
        cases hs

/-- A grant that is not apart makes two held regions overlap. -/
theorem Inv.grantsApart (h : Inv s) {a : BoardAction ι} (hs : s.step a = some s')
    (hno : s'.NoOverlap) : s.GrantsApart a := by
  cases a with
  | grant i =>
    rintro p hp l e ⟨he, hph⟩ hb ho
    have hg : s.guard i = some p := hp
    simp only [Boards.step, hg] at hs
    split_ifs at hs
    obtain rfl := Option.some.inj hs
    have hne : l ≠ p.id := by
      rintro rfl
      rw [(h.pending_fresh i p hg).2] at he
      cases he
    exact absurd ho (hno l p.id e ⟨i, p.region, p.holder, .held⟩ ⟨by simpa [hne] using he, hph⟩
      ⟨by simp, rfl⟩ hne)
  | _ => trivial

/-- In every run, held regions never overlap exactly when no board is granted a region that
lies properly above or below one another board holds. -/
theorem noOverlap_iff_grantsApart (acts : List (BoardAction ι)) :
    Transition.Always step NoOverlap (initial : Boards ι) acts ↔
      Transition.Along step GrantsApart (initial : Boards ι) acts :=
  Transition.always_iff_along (fun _ h => h.noOverlap) (fun _ _ _ h ha hs => h.step ha hs)
    (fun _ _ _ h hs hno => h.grantsApart hs hno) inv_initial

/-! ## Two boards -/

/-- Board `0` is granted one region and then board `1` the other one. -/
def grantBoth (first second : String) : List (BoardAction (Fin 2)) :=
  [.acquire 0 (.text first) (some "a"), .lock 0, .grant 0,
    .acquire 1 (.text second) (some "b"), .lock 1, .grant 1]

/-- Held regions can overlap: `src` is locked under another file than `src/a`. -/
theorem boards_may_overlap : ¬∀ acts : List (BoardAction (Fin 2)),
    Transition.Always step NoOverlap (initial : Boards (Fin 2)) acts := by
  intro h
  have hrun : ((Transition.run step initial (grantBoth "src" "src/a")).any fun s =>
      s.lease 0 == some ⟨0, [lit "src"], "a", .held⟩ &&
        s.lease 1 == some ⟨1, [lit "src", lit "a"], "b", .held⟩) = true := by
    decide
  obtain ⟨s, hs, hl⟩ := (Option.any_eq_true _ _).mp hrun
  simp only [Bool.and_eq_true, beq_iff_eq] at hl
  exact (h _).of_run hs 0 1 _ _ ⟨hl.1, rfl⟩ ⟨hl.2, rfl⟩ (by decide) (Or.inr ⟨[lit "a"], rfl⟩)

end Boards

end Icode
