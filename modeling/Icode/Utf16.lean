import Icode.Utf8

/-!
# Words and UTF-16

Little-endian numbers of a fixed size, and the strict decoder of UTF-16 text. Both are read back:
`leNat_leBytes` and `utf16Decode_utf16Encode`.
-/

namespace Py

/-! ## Numbers -/

/-- `int.from_bytes(b, "little")` -/
def leNat : Bytes → ℕ
  | [] => 0
  | b :: bs => b.toNat + 256 * leNat bs

/-- The number in `size` bytes. -/
def leBytes : ℕ → ℕ → Bytes
  | 0, _ => []
  | size + 1, n => UInt8.ofNat (n % 256) :: leBytes size (n / 256)

@[simp] theorem length_leBytes (size : ℕ) : ∀ n : ℕ, (leBytes size n).length = size := by
  induction size with
  | zero => intro n; rfl
  | succ size ih => intro n; rw [leBytes, List.length_cons, ih]

theorem leNat_leBytes (size : ℕ) : ∀ {n : ℕ}, n < 256 ^ size → leNat (leBytes size n) = n := by
  induction size with
  | zero =>
    intro n h
    simp only [pow_zero] at h
    simp only [leBytes, leNat]
    omega
  | succ size ih =>
    intro n h
    have hdiv : n / 256 < 256 ^ size := by
      rw [Nat.div_lt_iff_lt_mul (by decide)]
      rwa [pow_succ] at h
    rw [leBytes, leNat, ih hdiv, toNat_ofNat_of_lt (Nat.mod_lt n (by decide))]
    omega

theorem leNat_lt (b : Bytes) : leNat b < 256 ^ b.length := by
  induction b with
  | nil => exact Nat.one_pos
  | cons x b ih =>
    have hx : x.toNat < 256 := x.toNat_lt
    rw [leNat, List.length_cons, pow_succ]
    omega

/-- A number is zero when its bytes are. -/
theorem leNat_eq_zero {b : Bytes} (h : ∀ x ∈ b, x = 0) : leNat b = 0 := by
  induction b with
  | nil => rfl
  | cons x b ih =>
    rw [List.forall_mem_cons] at h
    rw [leNat, ih h.2, h.1]
    rfl

/-- `int.from_bytes(b, "little", signed=True)` of a number in 64 bits. -/
def signed64 (n : ℕ) : ℤ :=
  if n < 2 ^ 63 then n else n - 2 ^ 64

theorem signed64_of_lt {n : ℕ} (h : n < 2 ^ 63) : signed64 n = n :=
  if_pos h

/-! ## Text -/

/-- The code units of a code point. -/
def utf16Units (c : CodePoint) : List ℕ :=
  let n := c.ord
  if n < 0x10000 then [n]
  else [0xD800 + (n - 0x10000) / 0x400, 0xDC00 + (n - 0x10000) % 0x400]

/-- `str.encode("utf-16-le")` of a text without surrogates. -/
def utf16Encode (s : PyStr) : Bytes :=
  (s.flatMap utf16Units).flatMap (leBytes 2)

/-- The strict decoder of code units. -/
def decodeUnits : List ℕ → Option PyStr
  | [] => some []
  | u :: us =>
    if u < 0xD800 || 0xE000 ≤ u then (decodeUnits us).map (ofOrd u :: ·)
    else if u < 0xDC00 then
      match us with
      | [] => none
      | v :: us =>
        if 0xDC00 ≤ v && v < 0xE000 then
          (decodeUnits us).map (ofOrd (0x10000 + (u - 0xD800) * 0x400 + (v - 0xDC00)) :: ·)
        else none
    else none

/-- The code units of some bytes. -/
def unitsOf : Bytes → Option (List ℕ)
  | [] => some []
  | [_] => none
  | lo :: hi :: rest => (unitsOf rest).map (leNat [lo, hi] :: ·)

/-- `bytes.decode("utf-16-le", errors="strict")` -/
def utf16Decode (b : Bytes) : Option PyStr :=
  (unitsOf b).bind decodeUnits

theorem unitsOf_flatMap : ∀ {us : List ℕ}, (∀ u ∈ us, u < 0x10000) →
    unitsOf (us.flatMap (leBytes 2)) = some us
  | [], _ => rfl
  | u :: us, h => by
    rw [List.forall_mem_cons] at h
    have hunit : leNat (leBytes 2 u) = u := leNat_leBytes 2 h.1
    have htail := unitsOf_flatMap h.2
    simp only [List.flatMap_cons, leBytes, List.cons_append, List.nil_append, unitsOf]
      at hunit htail ⊢
    rw [htail, hunit]
    rfl

theorem utf16Units_lt {c : CodePoint} {u : ℕ} (h : u ∈ utf16Units c) : u < 0x10000 := by
  have hlt := c.ord_lt
  simp only [utf16Units] at h
  split_ifs at h with hn <;>
    simp only [List.mem_cons, List.not_mem_nil, or_false] at h <;> omega

theorem decodeUnits_utf16Units (c : Char) (us : List ℕ) :
    decodeUnits (utf16Units (.scalar c) ++ us) = (decodeUnits us).map (.scalar c :: ·) := by
  have hvalid := toNat_valid c
  have hofOrd := ofOrd_toNat c
  have hord : (CodePoint.scalar c).ord = c.toNat := rfl
  rw [utf16Units, hord]
  obtain ⟨n, hn⟩ : ∃ n, c.toNat = n := ⟨_, rfl⟩
  rw [hn] at hvalid hofOrd ⊢
  by_cases hn : n < 0x10000
  · have hunit : n < 0xD800 ∨ 0xE000 ≤ n := by omega
    rw [if_pos hn, List.cons_append, List.nil_append, decodeUnits.eq_def]
    simp only [Bool.or_eq_true, decide_eq_true_eq, hunit, if_true, hofOrd]
  · have hhigh : ¬(0xD800 + (n - 0x10000) / 0x400 < 0xD800 ∨
        0xE000 ≤ 0xD800 + (n - 0x10000) / 0x400) := by omega
    have hlead : 0xD800 + (n - 0x10000) / 0x400 < 0xDC00 := by omega
    have htrail : 0xDC00 ≤ 0xDC00 + (n - 0x10000) % 0x400 ∧
        0xDC00 + (n - 0x10000) % 0x400 < 0xE000 := by omega
    have hsum : 0x10000 + (0xD800 + (n - 0x10000) / 0x400 - 0xD800) * 0x400 +
        (0xDC00 + (n - 0x10000) % 0x400 - 0xDC00) = n := by omega
    rw [if_neg hn]
    simp only [List.cons_append, List.nil_append, decodeUnits, Bool.or_eq_true, Bool.and_eq_true,
      decide_eq_true_eq, hhigh, if_false, hlead, if_true, htrail, and_self, hsum, hofOrd]

theorem decodeUnits_flatMap : ∀ {s : PyStr}, s.all isScalar = true →
    decodeUnits (s.flatMap utf16Units) = some s
  | [], _ => rfl
  | .surrogate n :: s, h => by simp [isScalar] at h
  | .scalar c :: s, h => by
    have hs : s.all isScalar = true := by simpa [isScalar] using h
    rw [List.flatMap_cons, decodeUnits_utf16Units, decodeUnits_flatMap hs]
    rfl

/-- What was encoded is read back. -/
theorem utf16Decode_utf16Encode {s : PyStr} (h : s.all isScalar = true) :
    utf16Decode (utf16Encode s) = some s := by
  have hunits : ∀ u ∈ s.flatMap utf16Units, u < 0x10000 := by
    intro u hu
    obtain ⟨c, -, hc⟩ := List.mem_flatMap.mp hu
    exact utf16Units_lt hc
  rw [utf16Decode, utf16Encode, unitsOf_flatMap hunits, Option.bind_some, decodeUnits_flatMap h]

theorem length_utf16Encode (s : PyStr) :
    (utf16Encode s).length = 2 * (s.flatMap utf16Units).length := by
  simp [utf16Encode, List.length_flatMap, Nat.mul_comm]

end Py
