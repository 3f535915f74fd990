import Icode.PyText
import Mathlib.Data.Rat.Defs

/-!
# Floats

A Python float is kept as its `repr`. `float(repr(x)) == x`, so the `repr`
determines the float, and two floats are the same value exactly when the texts
are (`PyFloat.ext`). `ofToken` is `float(text)` of a JSON number with a fraction
or an exponent : the nearest binary64, ties to even, shown with the fewest
digits that read back as it. `toRat` is the exact value of a finite float.
-/

namespace Py

/-- A character of a decimal number with a fraction or an exponent. -/
def isFloatChar (c : Char) : Bool :=
  c.isDigit || c == '.' || c == 'e' || c == '+' || c == '-'

/-- The texts `float.__repr__` returns: a decimal that is no integer literal, or one of
the three texts without digits. -/
def isFloatRepr (s : List Char) : Bool :=
  (s.all isFloatChar && s.any fun c => c == '.' || c == 'e') ||
    s == ['n', 'a', 'n'] || s == ['i', 'n', 'f'] || s == ['-', 'i', 'n', 'f']

/-- A Python float, identified with its `repr`. -/
@[ext] structure PyFloat where
  repr : List Char
  shape : isFloatRepr repr = true
  deriving DecidableEq

namespace PyFloat

def nan : PyFloat :=
  ⟨['n', 'a', 'n'], rfl⟩

def inf (neg : Bool) : PyFloat :=
  ⟨if neg then ['-', 'i', 'n', 'f'] else ['i', 'n', 'f'], by cases neg <;> rfl⟩

/-- `math.isfinite`. -/
def isFinite (x : PyFloat) : Bool :=
  x != nan && x != inf false && x != inf true

/-! ## The nearest binary64 -/

/-- The binary64 nearest to `a / b`, as `m * 2^e`; `none` is an overflow. -/
def nearest (a b : ℕ) : Option (ℕ × ℤ) :=
  if a = 0 then some (0, 0)
  else
    -- the exponent that leaves 53 bits, or the least one for a subnormal
    let e0 : ℤ := (Nat.log2 a : ℤ) - Nat.log2 b - 52
    let scaled (e : ℤ) : ℕ × ℕ :=
      if 0 ≤ e then (a, b * 2 ^ e.toNat) else (a * 2 ^ (-e).toNat, b)
    let low := (scaled e0).1 / (scaled e0).2 < 2 ^ 52
    let e : ℤ := max (-1074) (if low then e0 - 1 else e0)
    let (n, d) := scaled e
    let q := n / d
    let r := n % d
    let m := if 2 * r < d then q else if d < 2 * r then q + 1 else q + q % 2
    if m = 2 ^ 53 then
      if 970 < e then none else some (2 ^ 52, e + 1)
    else if 971 < e then none else some (m, e)

/-- `n * 10^k` as a fraction. -/
def decimal (n : ℕ) (k : ℤ) : ℕ × ℕ :=
  if 0 ≤ k then (n * 10 ^ k.toNat, 1) else (n, 10 ^ (-k).toNat)

/-- The binary64 nearest to `n * 10^k`. Values outside the range are not computed. -/
def nearestDecimal (n : ℕ) (k : ℤ) : Option (ℕ × ℤ) :=
  let size : ℤ := (Nat.toDigits 10 n).length
  if n = 0 then some (0, 0)
  else if 310 < size + k then none
  else if size + k < -330 then some (0, 0)
  else nearest (decimal n k).1 (decimal n k).2

/-! ## The shortest decimal -/

/-- `m * 2^e` as a fraction. -/
def fraction (m : ℕ) (e : ℤ) : ℕ × ℕ :=
  if 0 ≤ e then (m * 2 ^ e.toNat, 1) else (m, 2 ^ (-e).toNat)

/-- The `k` with `10^(k-1) ≤ a / b < 10^k`, searched from `k` down. -/
def pointFrom (a b : ℕ) : ℕ → ℤ → ℤ
  | 0, k => k
  | fuel + 1, k =>
    let (n, d) := decimal 1 (k - 1)
    if n * b ≤ a * d then k else pointFrom a b fuel (k - 1)

/-- The decimal of `digits` digits that reads back as `m * 2^e`, the closer one if two do. -/
def shortestOf (m : ℕ) (e : ℤ) (a b : ℕ) (k : ℤ) (digits : ℕ) : Option ℕ :=
  let (n, d) := decimal 1 (digits - k)
  let c := a * n / (b * d)
  let r := a * n % (b * d)
  let back (x : ℕ) : Bool := nearestDecimal x (k - digits) == some (m, e)
  if back c && (!back (c + 1) || 2 * r ≤ b * d) then some c
  else if back (c + 1) then some (c + 1)
  else none

/-- The fewest digits that read back, and the place of the decimal point. -/
def shortest (m : ℕ) (e : ℤ) : ℕ × ℤ :=
  let (a, b) := fraction m e
  let k := pointFrom a b 640 310
  let found := (List.range 17).findSome? fun i =>
    (shortestOf m e a b k (i + 1)).map fun c => (c, i + 1)
  match found with
  -- `99…9` rounded up has one digit
  | some (c, n) => if c = 10 ^ n then (1, k) else (c, k - n)
  | none => (a * (decimal 1 (17 - k)).1 / (b * (decimal 1 (17 - k)).2), k - 17)

/-- The text of `digits * 10^k` as `repr` lays it out. -/
def layout (digits : ℕ) (k : ℤ) : List Char :=
  let ds := Nat.toDigits 10 digits
  let point : ℤ := ds.length + k
  if digits = 0 then ['0', '.', '0']
  else if -4 < point && point ≤ 16 then
    if point ≤ 0 then ['0', '.'] ++ List.replicate (-point).toNat '0' ++ ds
    else if 0 ≤ k then ds ++ List.replicate k.toNat '0' ++ ['.', '0']
    else ds.take point.toNat ++ '.' :: ds.drop point.toNat
  else
    let ex := Nat.toDigits 10 (point - 1).natAbs
    let mantissa := if ds.length ≤ 1 then ds else ds.take 1 ++ '.' :: ds.drop 1
    mantissa ++ 'e' :: (if point < 1 then '-' else '+') ::
      (if ex.length < 2 then '0' :: ex else ex)

theorem isFloatChar_toDigits {n : ℕ} {c : Char} (h : c ∈ Nat.toDigits 10 n) :
    isFloatChar c = true := by
  have := Nat.isDigit_of_mem_toDigits (by decide) (by decide) h
  simp [isFloatChar, this]

theorem layout_mark (digits : ℕ) (k : ℤ) : '.' ∈ layout digits k ∨ 'e' ∈ layout digits k := by
  unfold layout
  simp only
  split_ifs <;> simp

theorem layout_chars (digits : ℕ) (k : ℤ) : ∀ c ∈ layout digits k, isFloatChar c = true := by
  have hz : isFloatChar '0' = true := by decide
  have hp : isFloatChar '.' = true := by decide
  have he : isFloatChar 'e' = true := by decide
  have hplus : isFloatChar '+' = true := by decide
  have hm : isFloatChar '-' = true := by decide
  have hd : ∀ {n : ℕ} {c : Char}, c ∈ Nat.toDigits 10 n → isFloatChar c = true :=
    isFloatChar_toDigits
  have htake : ∀ {n i : ℕ} {c : Char}, c ∈ (Nat.toDigits 10 n).take i → isFloatChar c = true :=
    fun h => hd (List.mem_of_mem_take h)
  have hdrop : ∀ {n i : ℕ} {c : Char}, c ∈ (Nat.toDigits 10 n).drop i → isFloatChar c = true :=
    fun h => hd (List.mem_of_mem_drop h)
  intro c hc
  unfold layout at hc
  simp only at hc
  split_ifs at hc <;>
    simp only [List.mem_cons, List.mem_append, List.mem_replicate, List.not_mem_nil, or_false] at hc
  all_goals grind

/-- The float shown as `digits * 10^k`. -/
def ofDecimal (neg : Bool) (digits : ℕ) (k : ℤ) : PyFloat where
  repr := if neg then '-' :: layout digits k else layout digits k
  shape := by
    have hm : isFloatChar '-' = true := by decide
    have hc := layout_chars digits k
    have hk := layout_mark digits k
    unfold isFloatRepr
    cases neg <;> simp [hm, List.all_eq_true.mpr hc, -List.all_eq_true] <;> grind

/-- The float of sign `neg` and size `n * 10^k`. -/
def ofParts (neg : Bool) (n : ℕ) (k : ℤ) : PyFloat :=
  match nearestDecimal n k with
  | none => inf neg
  | some (m, e) =>
    if m = 0 then ofDecimal neg 0 0 else ofDecimal neg (shortest m e).1 (shortest m e).2

/-- The float nearest to `q`. -/
def ofRat (q : ℚ) : PyFloat :=
  match nearest q.num.natAbs q.den with
  | none => inf (decide (q < 0))
  | some (m, e) =>
    if m = 0 then ofDecimal (decide (q < 0)) 0 0
    else ofDecimal (decide (q < 0)) (shortest m e).1 (shortest m e).2

/-! ## Reading a decimal -/

/-- The value of the digits of a text, other characters skipped. -/
def digitsValue (s : List Char) : ℕ :=
  Nat.ofDigitChars 10 (s.filter Char.isDigit) 0

/-- A signed integer text. -/
def signedValue (s : List Char) : ℤ :=
  if s.head? = some '-' then -(digitsValue s) else digitsValue s

/-- Sign, digits and power of ten of a decimal text. -/
def parts (s : List Char) : Bool × ℕ × ℤ :=
  let neg := s.head? = some '-'
  let isExp : Char → Bool := fun c => c == 'e' || c == 'E'
  let mantissa := s.takeWhile fun c => !isExp c
  let ex := (s.dropWhile fun c => !isExp c).drop 1
  let frac := ((mantissa.dropWhile fun c => c != '.').drop 1).length
  (neg, digitsValue mantissa, signedValue ex - frac)

/-- `float(text)` of a JSON number token. -/
def ofToken (s : List Char) : PyFloat :=
  let (neg, n, k) := parts s
  ofParts neg n k

/-- The exact value; `none` for `nan` and the infinities. -/
def toRat (x : PyFloat) : Option ℚ :=
  if x.isFinite then
    let (neg, n, k) := parts x.repr
    match nearestDecimal n k with
    | none => none
    | some (m, e) =>
      let q : ℚ := (fraction m e).1 / (fraction m e).2
      some (if neg then -q else q)
  else none

end PyFloat

end Py
