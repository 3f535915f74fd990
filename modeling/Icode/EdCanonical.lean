import Icode.EdField

/-!
# The encoding of a point

`edDecompress` takes an encoding only when its second coordinate is reduced and its sign bit fits,
so what it returns is on the curve and is encoded by the same bytes
(`edDecompress_canonical`) : no point has two encodings.
-/

namespace Icode

open Py

/-! ## Bytes -/

theorem fromLittleEndian_cons (b : UInt8) (data : Bytes) :
    fromLittleEndian (b :: data) = b.toNat + 256 * fromLittleEndian data :=
  rfl

theorem fromLittleEndian_lt (data : Bytes) : fromLittleEndian data < 256 ^ data.length := by
  induction data with
  | nil => simp [fromLittleEndian]
  | cons b data ih =>
    have hb := b.toNat_lt
    rw [fromLittleEndian_cons, List.length_cons, pow_succ]
    omega

theorem toLittleEndian_succ (n length : ℕ) :
    toLittleEndian n (length + 1) = UInt8.ofNat n :: toLittleEndian (n / 256) length := by
  have hshift : ∀ i, n >>> (8 * (i + 1)) = (n / 256) >>> (8 * i) := by
    intro i
    have hpow : 2 ^ (8 * (i + 1)) = 256 * 2 ^ (8 * i) := by
      rw [Nat.mul_add, pow_add, mul_comm]
      rfl
    rw [Nat.shiftRight_eq_div_pow, Nat.shiftRight_eq_div_pow, Nat.div_div_eq_div_mul, hpow]
  simp [toLittleEndian, List.range_succ_eq_map, hshift]

/-- The bytes of the number of some bytes. -/
theorem toLittleEndian_fromLittleEndian (data : Bytes) :
    toLittleEndian (fromLittleEndian data) data.length = data := by
  induction data with
  | nil => rfl
  | cons b data ih =>
    have hb := b.toNat_lt
    have hlow : UInt8.ofNat (b.toNat + 256 * fromLittleEndian data) = b := by
      rw [← UInt8.toNat_inj, UInt8.toNat_ofNat']
      omega
    have hhigh : (b.toNat + 256 * fromLittleEndian data) / 256 = fromLittleEndian data := by omega
    rw [fromLittleEndian_cons, List.length_cons, toLittleEndian_succ, hlow, hhigh, ih]

/-! ## Recovering the first coordinate -/

/-- The first coordinate is on the curve for `y`, reduced, and has the parity of the sign. -/
structure Recovered (y : ℤ) (sign : ℕ) (x : ℤ) : Prop where
  reduced : y < edP
  nonneg : 0 ≤ x
  lt : x < edP
  parity : x % 2 = sign
  square : (x : EdField) ^ 2 * (edD * y * y + 1) = y * y - 1

/-- What `_ed_recover_x` checks of the first coordinate. -/
def IsRoot (x x2 : ℤ) : Prop :=
  (x * x - x2) % edP = 0

theorem isRoot_iff {x x2 : ℤ} : IsRoot x x2 ↔ (x : EdField) ^ 2 = x2 := by
  rw [IsRoot, emod_edP_eq_zero_iff, Int.cast_sub, Int.cast_mul, sq, sub_eq_zero]

/-- The square of the first coordinate, as a quotient. -/
def quotient (y : ℤ) : ℤ :=
  (y * y - 1) * edInv (edD * y * y + 1) % edP

theorem square_of_isRoot {x y : ℤ} (h : IsRoot x (quotient y)) :
    (x : EdField) ^ 2 * (edD * y * y + 1) = y * y - 1 := by
  have hne := edDenominator_ne_zero (y : EdField)
  rw [isRoot_iff, quotient, cast_emod_edP] at h
  push_cast [cast_edInv] at h
  rw [h, inv_mul_cancel_right₀ hne]

theorem cast_edP : (edP : EdField) = 0 := by
  rw [← emod_edP_eq_zero_iff, Int.emod_self]

theorem edP_odd : edP % 2 = 1 := by
  norm_num [edP]

/-- A root of a reduced number other than zero is not zero. -/
theorem pos_of_isRoot {x x2 : ℤ} (hx : 0 ≤ x) (hx2 : 0 ≤ x2 ∧ x2 < edP) (hne : x2 ≠ 0)
    (h : IsRoot x x2) : 0 < x := by
  refine lt_of_le_of_ne hx ?_
  rintro rfl
  rw [isRoot_iff, Int.cast_zero, zero_pow two_ne_zero] at h
  exact hne (eq_of_cast_eq hx2 ⟨le_refl 0, edP_pos⟩ (by rw [← h, Int.cast_zero]))

/-- The root with the parity of the sign. -/
theorem recovered_of_isRoot {x y : ℤ} {sign : ℕ} (hy : y < edP) (hsign : sign < 2)
    (hx : 0 ≤ x ∧ x < edP) (hne : quotient y ≠ 0) (h : IsRoot x (quotient y)) :
    Recovered y sign (if x % 2 = sign then x else edP - x) := by
  have hquotient : 0 ≤ quotient y ∧ quotient y < edP :=
    ⟨Int.emod_nonneg _ edP_pos.ne', Int.emod_lt_of_pos _ edP_pos⟩
  have hpos := pos_of_isRoot hx.1 hquotient hne h
  have hodd := edP_odd
  split_ifs with hparity
  · exact ⟨hy, hx.1, hx.2, hparity, square_of_isRoot h⟩
  · have hnegate : IsRoot (edP - x) (quotient y) := by
      rw [isRoot_iff] at h ⊢
      rw [Int.cast_sub, cast_edP, zero_sub, neg_sq, h]
    exact ⟨hy, by omega, by omega, by omega, square_of_isRoot hnegate⟩

instance (x x2 : ℤ) : Decidable (IsRoot x x2) :=
  inferInstanceAs (Decidable (_ = _))

/-- The first coordinate that `_ed_recover_x` tries. -/
def candidate (x2 : ℤ) : ℤ :=
  let root := powMod x2 ((edP + 3).toNat / 8) edP
  if IsRoot root x2 then root else root * edI % edP

theorem candidate_range (x2 : ℤ) : 0 ≤ candidate x2 ∧ candidate x2 < edP := by
  rw [candidate]
  split_ifs
  · exact powMod_range _ _
  · exact ⟨Int.emod_nonneg _ edP_pos.ne', Int.emod_lt_of_pos _ edP_pos⟩

theorem edRecoverX_eq (y : ℤ) (sign : ℕ) : edRecoverX y sign =
    if edP ≤ y then none
    else if quotient y = 0 then if sign = 0 then some 0 else none
    else if IsRoot (candidate (quotient y)) (quotient y) then
      some (if candidate (quotient y) % 2 = sign then candidate (quotient y)
        else edP - candidate (quotient y))
    else none :=
  rfl

theorem edRecoverX_eq_some {y : ℤ} {sign : ℕ} {x : ℤ} (hsign : sign < 2)
    (h : edRecoverX y sign = some x) : Recovered y sign x := by
  rw [edRecoverX_eq] at h
  by_cases hy : edP ≤ y
  · rw [if_pos hy] at h
    cases h
  rw [if_neg hy] at h
  by_cases hzero : quotient y = 0
  · -- zero has no sign
    rw [if_pos hzero] at h
    split_ifs at h with hpositive
    obtain rfl := Option.some.inj h
    have hsquare : IsRoot 0 (quotient y) := by
      rw [hzero]
      rfl
    exact ⟨not_le.mp hy, le_refl 0, edP_pos, by simp [hpositive], square_of_isRoot hsquare⟩
  · rw [if_neg hzero] at h
    by_cases hroot : IsRoot (candidate (quotient y)) (quotient y)
    · rw [if_pos hroot] at h
      obtain rfl := Option.some.inj h
      exact recovered_of_isRoot (not_le.mp hy) hsign (candidate_range _) hzero hroot
    · rw [if_neg hroot] at h
      cases h

/-! ## Decoding and encoding -/

/-- The point is on the curve, in extended coordinates. -/
structure EdPoint.OnCurve (p : EdPoint) : Prop where
  curve : ((p.y ^ 2 - p.x ^ 2) * p.z ^ 2 - (p.z ^ 4 + edD * p.x ^ 2 * p.y ^ 2)) % edP = 0
  product : (p.x * p.y - p.z * p.t) % edP = 0

/-- Two points have the same affine coordinates. -/
def EdPoint.Same (p q : EdPoint) : Prop :=
  (p.x * q.z - q.x * p.z) % edP = 0 ∧ (p.y * q.z - q.y * p.z) % edP = 0

/-- What an encoding that is taken says. -/
structure Decoded (encoded : Bytes) (p : EdPoint) : Prop where
  length : encoded.length = 32
  recovered : Recovered p.y (fromLittleEndian encoded / 2 ^ 255) p.x
  y : p.y = (fromLittleEndian encoded % 2 ^ 255 : ℕ)
  z : p.z = 1
  t : p.t = p.x * p.y % edP

theorem decoded_of_edDecompress {encoded : Bytes} {p : EdPoint}
    (h : edDecompress encoded = some p) : Decoded encoded p := by
  rw [edDecompress] at h
  split_ifs at h with hlength
  obtain ⟨x, hx, rfl⟩ := Option.map_eq_some_iff.mp h
  have hlt : fromLittleEndian encoded / 2 ^ 255 < 2 := by
    have := fromLittleEndian_lt encoded
    rw [hlength] at this
    rw [Nat.div_lt_iff_lt_mul (by decide)]
    exact this
  have hsign : fromLittleEndian encoded >>> 255 % 2 = fromLittleEndian encoded / 2 ^ 255 := by
    rw [Nat.shiftRight_eq_div_pow, Nat.mod_eq_of_lt hlt]
  rw [hsign] at hx
  exact ⟨hlength, edRecoverX_eq_some hlt hx, rfl, rfl, rfl⟩

theorem Decoded.onCurve {encoded : Bytes} {p : EdPoint} (h : Decoded encoded p) : p.OnCurve where
  curve := by
    have hsquare := h.recovered.square
    rw [emod_edP_eq_zero_iff, h.z]
    push_cast
    linear_combination -hsquare
  product := by
    rw [emod_edP_eq_zero_iff, h.z, h.t, Int.cast_sub, one_mul, cast_emod_edP, sub_self]

theorem edInv_one : edInv 1 = 1 := by
  rw [edInv, powMod_eq, one_pow]
  norm_num [edP]

/-- What is decoded is encoded by the same bytes. -/
theorem Decoded.edCompress_eq {encoded : Bytes} {p : EdPoint} (h : Decoded encoded p) :
    edCompress p = encoded := by
  obtain ⟨hreduced, hnonneg, hlt, hparity, -⟩ := h.recovered
  have hx : (p.x * edInv p.z % edP).toNat % 2 = fromLittleEndian encoded / 2 ^ 255 := by
    rw [h.z, edInv_one, mul_one, Int.emod_eq_of_lt hnonneg hlt]
    omega
  have hy : (p.y * edInv p.z % edP).toNat = fromLittleEndian encoded % 2 ^ 255 := by
    rw [h.z, edInv_one, mul_one, Int.emod_eq_of_lt (h.y ▸ Int.natCast_nonneg _) hreduced, h.y,
      Int.toNat_natCast]
  have hvalue : fromLittleEndian encoded % 2 ^ 255 |||
      (fromLittleEndian encoded / 2 ^ 255) <<< 255 = fromLittleEndian encoded := by
    rw [Nat.or_comm, ← Nat.shiftLeft_add_eq_or_of_lt (Nat.mod_lt _ (by decide)),
      Nat.shiftLeft_eq, Nat.div_add_mod']
  have hbytes := toLittleEndian_fromLittleEndian encoded
  rw [h.length] at hbytes
  simp only [edCompress]
  rw [hx, hy, hvalue, hbytes]

/-- Decoded points with the same affine coordinates are the same. -/
theorem Decoded.eq_of_same {encoded other : Bytes} {p q : EdPoint} (hp : Decoded encoded p)
    (hq : Decoded other q) (h : p.Same q) : p = q := by
  obtain ⟨hx, hy⟩ := h
  rw [emod_edP_eq_zero_iff, hp.z, hq.z, mul_one, mul_one, Int.cast_sub, sub_eq_zero] at hx hy
  have hxeq := eq_of_cast_eq ⟨hp.recovered.nonneg, hp.recovered.lt⟩
    ⟨hq.recovered.nonneg, hq.recovered.lt⟩ hx
  have hyeq := eq_of_cast_eq ⟨hp.y ▸ Int.natCast_nonneg _, hp.recovered.reduced⟩
    ⟨hq.y ▸ Int.natCast_nonneg _, hq.recovered.reduced⟩ hy
  have ht : p.t = q.t := by rw [hp.t, hq.t, hxeq, hyeq]
  cases p
  cases q
  simp only [EdPoint.mk.injEq]
  exact ⟨hxeq, hyeq, hp.z.trans hq.z.symm, ht⟩

/-- A decoded point is on the curve, is encoded by the bytes it was decoded from, and by no
others. -/
theorem edDecompress_canonical {encoded : Bytes} {p : EdPoint}
    (h : edDecompress encoded = some p) :
    p.OnCurve ∧ edCompress p = encoded ∧
      ∀ other q, edDecompress other = some q → p.Same q → other = encoded := by
  have hp := decoded_of_edDecompress h
  refine ⟨hp.onCurve, hp.edCompress_eq, fun other q hother hsame => ?_⟩
  have hq := decoded_of_edDecompress hother
  rw [← hq.edCompress_eq, ← hp.edCompress_eq, hp.eq_of_same hq hsame]

deriving instance DecidableEq for EdPoint

/-- The encoding of the base point. -/
theorem edDecompress_basePoint :
    edCompress edG = 0x58 :: List.replicate 31 0x66 ∧ edG.OnCurve := by
  have hdecompress : edDecompress (0x58 :: List.replicate 31 0x66) = some edG := by
    decide +kernel
  obtain ⟨hcurve, hcompress, -⟩ := edDecompress_canonical hdecompress
  exact ⟨hcompress, hcurve⟩

end Icode
