import Mathlib.Data.List.Dedup
import Mathlib.Data.List.GetD
import Mathlib.Data.List.Sort
import Icode.Utf16

/-!
# Fields of a byte string

A binary format puts numbers and structures at offsets. `At data start b` says that the bytes `b`
stand at `start`; a structure stands there exactly when its parts do, one behind the other
(`at_append`), and a number exactly when it is read from there (`at_le_iff`, `at_be_iff`,
`at_words_iff`). `unused_iff` says what a check for zero bytes between two offsets sees, and
`gapsUnused_iff` what the same check outside ranges in order sees.
-/

namespace Py

variable {data a b : Bytes} {start size n : ℕ}

/-- `data[start:start + size]` -/
def sliceAt (data : Bytes) (start size : ℕ) : Bytes :=
  (data.drop start).take size

/-- The bytes `b` stand at `start`. -/
def At (data : Bytes) (start : ℕ) (b : Bytes) : Prop :=
  b <+: data.drop start

theorem at_iff : At data start b ↔ sliceAt data start b.length = b := by
  rw [At, List.prefix_iff_eq_take, eq_comm, sliceAt]

theorem at_nil : At data start [] :=
  List.nil_prefix

theorem at_append : At data start (a ++ b) ↔ At data start a ∧ At data (start + a.length) b := by
  unfold At
  rw [← List.drop_drop]
  constructor
  · rintro ⟨rest, hrest⟩
    rw [← hrest, List.append_assoc, List.drop_left]
    exact ⟨List.prefix_append a _, List.prefix_append b rest⟩
  · rintro ⟨⟨rest, hrest⟩, hb⟩
    rw [← hrest, List.drop_left] at hb
    rw [← hrest]
    exact (List.prefix_append_right_inj a).mpr hb

theorem at_cons {x : UInt8} : At data start (x :: b) ↔ At data start [x] ∧ At data (start + 1) b :=
  at_append (a := [x])

/-- What stands in a byte string ends within it. -/
theorem At.le_length (h : At data start b) (hb : b ≠ []) : start + b.length ≤ data.length := by
  have hle := List.IsPrefix.length_le h
  have hpos := List.length_pos_iff.mpr hb
  rw [List.length_drop] at hle
  omega

/-- A byte. -/
theorem at_byte_iff {x : UInt8} :
    At data start [x] ↔ start < data.length ∧ data.getD start 0 = x := by
  constructor
  · intro h
    have hlt := h.le_length (List.cons_ne_nil x [])
    rw [List.length_singleton] at hlt
    have hget := at_iff.mp h
    rw [sliceAt, List.length_singleton, List.drop_eq_getElem_cons (by omega : start < data.length),
      List.take_succ_cons, List.take_zero] at hget
    have hx : data[start] = x := (List.cons.inj hget).1
    exact ⟨by omega, by rw [List.getD_eq_getElem _ _ (by omega), hx]⟩
  · rintro ⟨hlt, hx⟩
    rw [List.getD_eq_getElem _ _ hlt] at hx
    rw [At, List.drop_eq_getElem_cons hlt, hx]
    exact ⟨_, rfl⟩

/-! ## Numbers -/

theorem leBytes_leNat (b : Bytes) : leBytes b.length (leNat b) = b := by
  induction b with
  | nil => rfl
  | cons x b ih =>
    have hx : x.toNat < 256 := x.toNat_lt
    have hlow : (x.toNat + 256 * leNat b) % 256 = x.toNat := by omega
    have hhigh : (x.toNat + 256 * leNat b) / 256 = leNat b := by omega
    rw [List.length_cons, leNat, leBytes, hlow, hhigh, ih, UInt8.ofNat_toNat]

/-- `int.from_bytes(b, "big")` -/
def beNat (b : Bytes) : ℕ :=
  leNat b.reverse

/-- The number in `size` bytes, the high ones first. -/
def beBytes (size n : ℕ) : Bytes :=
  (leBytes size n).reverse

@[simp] theorem length_beBytes (size n : ℕ) : (beBytes size n).length = size := by
  rw [beBytes, List.length_reverse, length_leBytes]

theorem beNat_lt (b : Bytes) : beNat b < 256 ^ b.length := by
  have h := leNat_lt b.reverse
  rwa [List.length_reverse] at h

theorem length_sliceAt (h : start + size ≤ data.length) :
    (sliceAt data start size).length = size := by
  rw [sliceAt, List.length_take, List.length_drop]
  omega

theorem leNat_sliceAt_lt (data : Bytes) (start size : ℕ) :
    leNat (sliceAt data start size) < 256 ^ size := by
  refine (leNat_lt _).trans_le (Nat.pow_le_pow_right (by decide) ?_)
  rw [sliceAt, List.length_take]
  omega

/-- A number stands where it is read. -/
theorem at_le_iff (hsize : 0 < size) (hn : n < 256 ^ size) :
    At data start (leBytes size n) ↔
      start + size ≤ data.length ∧ leNat (sliceAt data start size) = n := by
  constructor
  · intro h
    have hne : leBytes size n ≠ [] := List.ne_nil_of_length_pos (by rwa [length_leBytes])
    have hle := h.le_length hne
    rw [length_leBytes] at hle
    have hslice := at_iff.mp h
    rw [length_leBytes] at hslice
    exact ⟨hle, by rw [hslice, leNat_leBytes size hn]⟩
  · rintro ⟨hle, rfl⟩
    have hlen := length_sliceAt hle
    have hbytes := leBytes_leNat (sliceAt data start size)
    rw [hlen] at hbytes
    rw [at_iff, length_leBytes, hbytes]

theorem at_be_iff (hsize : 0 < size) (hn : n < 256 ^ size) :
    At data start (beBytes size n) ↔
      start + size ≤ data.length ∧ beNat (sliceAt data start size) = n := by
  constructor
  · intro h
    have hne : beBytes size n ≠ [] := List.ne_nil_of_length_pos (by rwa [length_beBytes])
    have hle := h.le_length hne
    rw [length_beBytes] at hle
    have hslice := at_iff.mp h
    rw [length_beBytes] at hslice
    exact ⟨hle, by rw [hslice, beNat, beBytes, List.reverse_reverse, leNat_leBytes size hn]⟩
  · rintro ⟨hle, rfl⟩
    have hlen : (sliceAt data start size).reverse.length = size := by
      rw [List.length_reverse, length_sliceAt hle]
    have hbytes := leBytes_leNat (sliceAt data start size).reverse
    rw [hlen] at hbytes
    rw [at_iff, length_beBytes, beBytes, beNat, hbytes, List.reverse_reverse]

/-- `struct.unpack_from("<{count}I", data, start)` -/
def unpackWords (data : Bytes) (start : ℕ) : ℕ → List ℕ
  | 0 => []
  | count + 1 => leNat (sliceAt data start 4) :: unpackWords data (start + 4) count

@[simp] theorem length_unpackWords (data : Bytes) (count : ℕ) :
    ∀ start, (unpackWords data start count).length = count := by
  induction count with
  | zero => exact fun _ => rfl
  | succ count ih => exact fun start => by rw [unpackWords, List.length_cons, ih]

theorem unpackWords_lt (data : Bytes) (count : ℕ) :
    ∀ start, ∀ n ∈ unpackWords data start count, n < 2 ^ 32 := by
  induction count with
  | zero => simp [unpackWords]
  | succ count ih =>
    intro start
    rw [unpackWords, List.forall_mem_cons]
    exact ⟨leNat_sliceAt_lt data start 4, ih (start + 4)⟩

/-- Words stand where they are read. -/
theorem at_words_iff : ∀ {ns : List ℕ} {start : ℕ}, start ≤ data.length → (∀ n ∈ ns, n < 2 ^ 32) →
    (At data start (ns.flatMap (leBytes 4)) ↔
      start + 4 * ns.length ≤ data.length ∧ unpackWords data start ns.length = ns)
  | [], start, hstart, _ => by simpa [unpackWords, at_nil] using hstart
  | n :: ns, start, _, hlt => by
    obtain ⟨hn, hns⟩ := List.forall_mem_cons.mp hlt
    rw [List.flatMap_cons, at_append, length_leBytes, at_le_iff (by decide) hn, List.length_cons,
      unpackWords, List.cons.injEq]
    constructor
    · rintro ⟨⟨hle, hword⟩, hrest⟩
      obtain ⟨hle', hwords⟩ := (at_words_iff hle hns).mp hrest
      exact ⟨by omega, hword, hwords⟩
    · rintro ⟨hle, hword, hwords⟩
      exact ⟨⟨by omega, hword⟩, (at_words_iff (by omega) hns).mpr ⟨by omega, hwords⟩⟩

/-! ## Bytes that are not used -/

/-- `not any(data[start:stop])` -/
def unused (data : Bytes) (start stop : ℕ) : Bool :=
  (sliceAt data start (stop - start)).all (· == 0)

theorem unused_iff {stop : ℕ} : unused data start stop = true ↔
    ∀ i, start ≤ i → i < stop → data.getD i 0 = 0 := by
  have hget : ∀ i, (sliceAt data start (stop - start)).getD i 0 =
      if i < stop - start then data.getD (start + i) 0 else 0 := by
    intro i
    simp only [sliceAt, List.getD_eq_getElem?_getD, List.getElem?_take, List.getElem?_drop]
    split_ifs <;> rfl
  have hall : ∀ l : Bytes, l.all (· == 0) = true ↔ ∀ i, l.getD i 0 = 0 := by
    intro l
    rw [List.all_eq_true]
    constructor
    · intro h i
      by_cases hi : i < l.length
      · rw [List.getD_eq_getElem _ _ hi]
        exact beq_iff_eq.mp (h _ (List.getElem_mem hi))
      · exact List.getD_eq_default _ _ (by omega)
    · intro h x hx
      obtain ⟨i, hi, rfl⟩ := List.mem_iff_getElem.mp hx
      rw [beq_iff_eq, ← h i, List.getD_eq_getElem _ _ hi]
  rw [unused, hall]
  simp only [hget]
  constructor
  · intro h i hle hlt
    have hi := h (i - start)
    rw [if_pos (by omega), Nat.add_sub_cancel' hle] at hi
    exact hi
  · intro h i
    split_ifs with hi
    · exact h (start + i) (by omega) (by omega)
    · rfl

/-- The order of pairs. -/
def rangeLe (a b : ℕ × ℕ) : Prop :=
  a.1 < b.1 ∨ a.1 = b.1 ∧ a.2 ≤ b.2

instance : DecidableRel rangeLe := fun _ _ => inferInstanceAs (Decidable (_ ∨ _))

instance : Std.Total rangeLe where
  total a b := by
    unfold rangeLe
    omega

instance : IsTrans (ℕ × ℕ) rangeLe where
  trans a b c := by
    unfold rangeLe
    omega

/-- `sorted(set(ranges))` of ranges from a first offset to one behind the last. -/
def inOrder (ranges : List (ℕ × ℕ)) : List (ℕ × ℕ) :=
  ranges.dedup.insertionSort rangeLe

@[simp] theorem mem_inOrder {ranges : List (ℕ × ℕ)} {r : ℕ × ℕ} :
    r ∈ inOrder ranges ↔ r ∈ ranges := by
  rw [inOrder, List.mem_insertionSort, List.mem_dedup]

/-- Distinct ranges that share no offset stand one behind the other when they are in order. -/
theorem pairwise_inOrder {ranges : List (ℕ × ℕ)} (hlt : ∀ r ∈ ranges, r.1 < r.2)
    (hapart : ∀ a ∈ ranges, ∀ b ∈ ranges, a ≠ b → a.2 ≤ b.1 ∨ b.2 ≤ a.1) :
    (inOrder ranges).Pairwise fun a b => a.2 ≤ b.1 := by
  have hnodup : (inOrder ranges).Nodup :=
    (List.perm_insertionSort _ _).nodup_iff.mpr (List.nodup_dedup ranges)
  have hsorted : (inOrder ranges).Pairwise rangeLe := List.pairwise_insertionSort _ _
  refine (hsorted.and hnodup).imp_of_mem fun {a b} ha hb hab => ?_
  obtain ⟨hle, hne⟩ := hab
  have ha' := hlt a (mem_inOrder.mp ha)
  have hb' := hlt b (mem_inOrder.mp hb)
  unfold rangeLe at hle
  rcases hapart a (mem_inOrder.mp ha) b (mem_inOrder.mp hb) hne with h | h
  · exact h
  · omega

/-- The loop over ranges in order: no byte in front of one, nor behind the last, is used. -/
def gapsUnused (data : Bytes) : ℕ → List (ℕ × ℕ) → Bool
  | position, [] => unused data position data.length
  | position, (start, stop) :: ranges =>
    unused data position start && gapsUnused data stop ranges

theorem gapsUnused_iff : ∀ {ranges : List (ℕ × ℕ)} {position : ℕ},
    (∀ r ∈ ranges, position ≤ r.1 ∧ r.1 < r.2) → ranges.Pairwise (fun a b => a.2 ≤ b.1) →
    (gapsUnused data position ranges = true ↔ ∀ i, position ≤ i →
      (∀ r ∈ ranges, ¬(r.1 ≤ i ∧ i < r.2)) → data.getD i 0 = 0)
  | [], position, _, _ => by
    rw [gapsUnused, unused_iff]
    constructor
    · intro h i hi _
      by_cases hlt : i < data.length
      · exact h i hi hlt
      · exact List.getD_eq_default _ _ (by omega)
    · exact fun h i hi _ => h i hi (by simp)
  | (start, stop) :: ranges, position, hpos, hpair => by
    obtain ⟨⟨hposition, hlt⟩, hrest⟩ := List.forall_mem_cons.mp hpos
    obtain ⟨hbehind, hranges⟩ := List.pairwise_cons.mp hpair
    have hstop : ∀ r ∈ ranges, stop ≤ r.1 ∧ r.1 < r.2 :=
      fun r hr => ⟨hbehind r hr, (hrest r hr).2⟩
    have ih := gapsUnused_iff hstop hranges
    rw [gapsUnused, Bool.and_eq_true, unused_iff, ih]
    dsimp only at hposition hlt hbehind
    constructor
    · rintro ⟨hgap, htail⟩ i hi hout
      obtain ⟨hfirst, hothers⟩ := List.forall_mem_cons.mp hout
      dsimp only at hfirst
      rcases Nat.lt_or_ge i start with hs | hs
      · exact hgap i hi hs
      · exact htail i (by omega) hothers
    · intro h
      constructor
      · -- In front of the first range no other one has started.
        refine fun i hi hs => h i hi (List.forall_mem_cons.mpr ⟨by dsimp only; omega, ?_⟩)
        intro r hr
        have := hbehind r hr
        omega
      · exact fun i hi hout =>
          h i (by omega) (List.forall_mem_cons.mpr ⟨by dsimp only; omega, hout⟩)

end Py
