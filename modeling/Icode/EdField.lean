import Icode.Ed25519
import Mathlib.FieldTheory.Finite.Basic
import Mathlib.NumberTheory.LucasPrimality
import Mathlib.Tactic.FieldSimp
import Mathlib.Tactic.LinearCombination
import Mathlib.Tactic.NormNum.Prime

/-!
# The field of the curve

The integers of `ed25519Verify` stand for elements of `EdField`, the field of `2 ^ 255 - 19`
elements. That this number is prime is Lucas' test, from the small primes up (`prime_edOrder`). So
`edInv` inverts (`cast_edInv`), and `edD` is no square (`not_isSquare_edD`), which is why the
denominator of the curve is never zero (`edDenominator_ne_zero`).
-/

namespace Icode

open Py

/-! ## Powers -/

theorem powBits_eq (m : ℤ) : ∀ (fuel exponent : ℕ) (base acc : ℤ), exponent < 2 ^ fuel →
    acc % m = acc → powBits m fuel exponent base acc = acc * base ^ exponent % m
  | 0, exponent, base, acc, hlt, hacc => by
    obtain rfl : exponent = 0 := by simpa using hlt
    rw [powBits, pow_zero, mul_one, hacc]
  | fuel + 1, exponent, base, acc, hlt, hacc => by
    have hhalf : exponent / 2 < 2 ^ fuel := by
      rw [pow_succ] at hlt
      omega
    have hsquare : (base * base % m) ^ (exponent / 2) ≡ base ^ (2 * (exponent / 2)) [ZMOD m] := by
      rw [pow_mul, sq]
      exact (Int.mod_modEq _ _).pow _
    rw [powBits]
    split_ifs with hodd
    · have hexponent : base ^ exponent = base * base ^ (2 * (exponent / 2)) := by
        rw [← pow_succ']
        congr 1
        omega
      rw [powBits_eq m fuel _ _ _ hhalf (Int.emod_emod_of_dvd _ dvd_rfl), hexponent, ← mul_assoc]
      exact (Int.mod_modEq _ _).mul hsquare
    · have hexponent : 2 * (exponent / 2) = exponent := by omega
      rw [powBits_eq m fuel _ _ _ hhalf hacc]
      rw [hexponent] at hsquare
      exact Int.ModEq.rfl.mul hsquare

theorem powMod_eq (base : ℤ) (exponent : ℕ) (m : ℤ) :
    powMod base exponent m = base ^ exponent % m := by
  rw [powMod, powBits_eq m _ _ _ _ (Nat.lt_log2_self) (Int.emod_emod_of_dvd _ dvd_rfl)]
  have hbase : 1 % m * (base % m) ^ exponent ≡ 1 * base ^ exponent [ZMOD m] :=
    (Int.mod_modEq _ _).mul ((Int.mod_modEq _ _).pow _)
  rw [hbase, one_mul]

theorem cast_powMod (base : ℤ) (exponent p : ℕ) :
    ((powMod base exponent p : ℤ) : ZMod p) = (base : ZMod p) ^ exponent := by
  rw [powMod_eq, ZMod.intCast_mod, Int.cast_pow]

theorem cast_pow_eq_one_iff {p : ℕ} (hp : 1 < p) (base : ℤ) (exponent : ℕ) :
    (base : ZMod p) ^ exponent = 1 ↔ powMod base exponent p = 1 := by
  have hone : (1 : ℤ) % p = 1 := Int.emod_eq_of_lt (by decide) (by exact_mod_cast hp)
  rw [powMod_eq, ← Int.cast_pow, ← Int.cast_one, ZMod.intCast_eq_intCast_iff, Int.ModEq, hone]

/-! ## Lucas' test -/

/-- The base has the order `p - 1`, whose prime factors are `factors`. -/
def lucasTest (p : ℕ) (base : ℤ) (factors : List ℕ) : Bool :=
  decide (factors.prod = p - 1) && decide (powMod base (p - 1) p = 1) &&
    factors.all fun q => decide (powMod base ((p - 1) / q) p ≠ 1)

theorem prime_of_lucasTest {p : ℕ} (hp : 1 < p) (base : ℤ) (factors : List ℕ)
    (hprime : ∀ q ∈ factors, q.Prime) (h : lucasTest p base factors = true) : p.Prime := by
  simp only [lucasTest, Bool.and_eq_true, decide_eq_true_eq, List.all_eq_true] at h
  obtain ⟨⟨hprod, hone⟩, hne⟩ := h
  refine lucas_primality p base ((cast_pow_eq_one_iff hp _ _).mpr hone) fun q hq hdvd => ?_
  rw [← hprod, hq.prime.dvd_prod_iff] at hdvd
  obtain ⟨r, hr, hqr⟩ := hdvd
  obtain rfl := (Nat.prime_dvd_prime_iff_eq hq (hprime r hr)).mp hqr
  exact fun hpow => hne q hr ((cast_pow_eq_one_iff hp _ _).mp hpow)

/-! ## The prime -/

theorem forall_prime_cons {q : ℕ} {qs : List ℕ} (hq : q.Prime) (hqs : ∀ r ∈ qs, r.Prime) :
    ∀ r ∈ q :: qs, r.Prime :=
  List.forall_mem_cons.mpr ⟨hq, hqs⟩

/-- The greatest prime factor of `2 ^ 255 - 20`. -/
def greatestFactor : ℕ :=
  74058212732561358302231226437062788676166966415465897661863160754340907

/-- The order of the field. -/
def edOrder : ℕ :=
  2 ^ 255 - 19

/-- The tests that lead from the small primes to the order of the field. -/
theorem lucasTests :
    lucasTest 2773320623 5 [2, 2437, 569003] = true ∧
    lucasTest 72106336199 7 [2773320623, 2, 13] = true ∧
    lucasTest 1919519569386763 2 [2, 3, 7, 19, 47, 47, 127, 8574133] = true ∧
    lucasTest 31757755568855353 10 [2, 2, 2, 3, 31, 107, 223, 4153, 430751] = true ∧
    lucasTest 75445702479781427272750846543864801 7
      [72106336199, 1919519569386763, 2, 2, 2, 2, 2, 3, 3, 5, 5, 75707] = true ∧
    lucasTest greatestFactor 2 [31757755568855353, 75445702479781427272750846543864801, 2, 3, 353,
      57467, 132049, 1923133] = true ∧
    lucasTest edOrder 2 [greatestFactor, 2, 2, 3, 65147] = true := by
  decide +kernel

theorem prime_2773320623 : Nat.Prime 2773320623 := by
  refine prime_of_lucasTest (by decide) 5 _ ?_ lucasTests.1
  norm_num

theorem prime_72106336199 : Nat.Prime 72106336199 := by
  refine prime_of_lucasTest (by decide) 7 _ ?_ lucasTests.2.1
  exact forall_prime_cons prime_2773320623 (by norm_num)

theorem prime_1919519569386763 : Nat.Prime 1919519569386763 := by
  refine prime_of_lucasTest (by decide) 2 _ ?_ lucasTests.2.2.1
  norm_num

theorem prime_31757755568855353 : Nat.Prime 31757755568855353 := by
  refine prime_of_lucasTest (by decide) 10 _ ?_ lucasTests.2.2.2.1
  norm_num

theorem prime_75445702479781427272750846543864801 :
    Nat.Prime 75445702479781427272750846543864801 := by
  refine prime_of_lucasTest (by decide) 7 _ ?_ lucasTests.2.2.2.2.1
  exact forall_prime_cons prime_72106336199
    (forall_prime_cons prime_1919519569386763 (by norm_num))

theorem prime_greatestFactor : greatestFactor.Prime := by
  refine prime_of_lucasTest (by decide) 2 _ ?_ lucasTests.2.2.2.2.2.1
  exact forall_prime_cons prime_31757755568855353
    (forall_prime_cons prime_75445702479781427272750846543864801 (by norm_num))

theorem prime_edOrder : edOrder.Prime := by
  refine prime_of_lucasTest (by decide) 2 _ ?_ lucasTests.2.2.2.2.2.2
  exact forall_prime_cons prime_greatestFactor (by norm_num)

instance : Fact edOrder.Prime :=
  ⟨prime_edOrder⟩

/-! ## The field -/

/-- What the integers modulo `edP` stand for. -/
abbrev EdField : Type :=
  ZMod edOrder

theorem cast_edOrder : (edOrder : ℤ) = edP := by
  norm_num [edOrder, edP]

theorem edP_pos : 0 < edP := by
  norm_num [edP]

theorem cast_emod_edP (x : ℤ) : ((x % edP : ℤ) : EdField) = x := by
  rw [← cast_edOrder, ZMod.intCast_mod]

theorem cast_powMod_edP (x : ℤ) (exponent : ℕ) :
    ((powMod x exponent edP : ℤ) : EdField) = (x : EdField) ^ exponent := by
  rw [← cast_edOrder, cast_powMod]

theorem emod_edP_eq_zero_iff (x : ℤ) : x % edP = 0 ↔ (x : EdField) = 0 := by
  rw [← cast_edOrder, ZMod.intCast_zmod_eq_zero_iff_dvd, Int.dvd_iff_emod_eq_zero]

/-- Two reduced integers that stand for the same element are equal. -/
theorem eq_of_cast_eq {x y : ℤ} (hx : 0 ≤ x ∧ x < edP) (hy : 0 ≤ y ∧ y < edP)
    (h : (x : EdField) = y) : x = y := by
  rw [ZMod.intCast_eq_intCast_iff, cast_edOrder, Int.ModEq, Int.emod_eq_of_lt hx.1 hx.2,
    Int.emod_eq_of_lt hy.1 hy.2] at h
  exact h

theorem powMod_range (x : ℤ) (exponent : ℕ) :
    0 ≤ powMod x exponent edP ∧ powMod x exponent edP < edP := by
  rw [powMod_eq]
  exact ⟨Int.emod_nonneg _ edP_pos.ne', Int.emod_lt_of_pos _ edP_pos⟩

/-- `_ed_inv` inverts, and gives zero for zero. -/
theorem cast_edInv (x : ℤ) : ((edInv x : ℤ) : EdField) = (x : EdField)⁻¹ := by
  have hexponent : (edP - 2).toNat = edOrder - 2 := by
    rw [← cast_edOrder]
    omega
  have hne : edOrder - 2 ≠ 0 := by norm_num [edOrder]
  have hsucc : edOrder - 2 + 1 = edOrder - 1 := by omega
  rw [edInv, cast_powMod_edP, hexponent]
  by_cases hx : (x : EdField) = 0
  · rw [hx, inv_zero, zero_pow hne]
  · refine eq_inv_of_mul_eq_one_left ?_
    rw [← pow_succ, hsucc, ZMod.pow_card_sub_one_eq_one hx]

/-! ## The constant of the curve -/

/-- Euler's criterion for `_ED_D`, and the square of `_ED_I`. -/
theorem edConstants : powMod edD ((edOrder - 1) / 2) edOrder ≠ 1 ∧ edD % edP ≠ 0 ∧
    (edI ^ 2 + 1) % edP = 0 := by
  decide +kernel

/-- `-121665 / 121666` is no square. -/
theorem not_isSquare_edD : ¬ IsSquare (edD : EdField) := by
  obtain ⟨hpow, hzero, -⟩ := edConstants
  rw [ne_eq, emod_edP_eq_zero_iff] at hzero
  have hhalf : edOrder / 2 = (edOrder - 1) / 2 := by norm_num [edOrder]
  have hone : 1 < edOrder := by norm_num [edOrder]
  rw [ZMod.euler_criterion edOrder hzero, hhalf, cast_pow_eq_one_iff hone]
  exact hpow

/-- `_ED_I` is a square root of `-1`. -/
theorem cast_edI_sq : (edI : EdField) ^ 2 = -1 := by
  have hsq := edConstants.2.2
  rw [emod_edP_eq_zero_iff] at hsq
  push_cast at hsq
  exact eq_neg_of_add_eq_zero_left hsq

/-- The curve has no point at which its denominator is zero. -/
theorem edDenominator_ne_zero (y : EdField) : (edD : EdField) * y * y + 1 ≠ 0 := by
  intro hzero
  have hy : y ≠ 0 := by
    rintro rfl
    simp at hzero
  refine not_isSquare_edD ⟨edI / y, ?_⟩
  field_simp
  linear_combination hzero - cast_edI_sq

end Icode
