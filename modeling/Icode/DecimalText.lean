import Icode.PyText

/-!
# Decimal numbers as text

The text of a natural number has no zero in front (`isCanonical_natText`), a text of digits with no
zero in front is the text of its value (`natText_natOf`), and the value of a number's text is the
number (`natOf_natText`).
-/

namespace Py

/-- `str(n)` -/
def natText (n : ℕ) : PyStr :=
  ofChars (Nat.toDigits 10 n)

/-- `not (character < "0" or character > "9")` -/
def isAsciiDecimal (c : CodePoint) : Bool :=
  48 ≤ c.ord && c.ord ≤ 57

/-- Decimal digits, and no zero in front of others. -/
def isCanonical (s : PyStr) : Bool :=
  !s.isEmpty && s.all isAsciiDecimal && !(1 < s.length && s.head? == some (.scalar '0'))

/-- `int(s)` of decimal digits. -/
def natOf (s : PyStr) : ℕ :=
  s.foldl (fun n c => 10 * n + (c.ord - 48)) 0

theorem natText_of_lt {n : ℕ} (h : n < 10) : natText n = [.scalar n.digitChar] := by
  rw [natText, Nat.toDigits_of_lt_base h]
  rfl

theorem natText_append {n d : ℕ} (hn : 0 < n) (hd : d < 10) :
    natText n ++ [.scalar d.digitChar] = natText (10 * n + d) := by
  have h := Nat.toDigits_append_toDigits (b := 10) (by decide) hn hd
  rw [Nat.toDigits_of_lt_base hd] at h
  rw [natText, natText, ← h, ofChars, ofChars, List.map_append]
  rfl

theorem ord_digitChar {d : ℕ} (h : d < 10) : (CodePoint.scalar d.digitChar).ord = 48 + d := by
  show d.digitChar.toNat = 48 + d
  rw [Nat.toNat_digitChar_of_lt_ten h, Nat.add_comm]

theorem scalar_digitChar {c : CodePoint} (h : isAsciiDecimal c = true) :
    CodePoint.scalar (c.ord - 48).digitChar = c := by
  rw [isAsciiDecimal, Bool.and_eq_true, decide_eq_true_eq, decide_eq_true_eq] at h
  apply CodePoint.ord_injective
  rw [ord_digitChar (by omega)]
  omega

/-- Induction on a number digit by digit. -/
theorem natText_induction {p : ℕ → Prop} (hdigit : ∀ d < 10, p d)
    (happend : ∀ n d, 0 < n → d < 10 → p n → p (10 * n + d)) (n : ℕ) : p n := by
  induction n using Nat.strong_induction_on with
  | _ n ih =>
    by_cases hlt : n < 10
    · exact hdigit n hlt
    · have h := happend (n / 10) (n % 10) (by omega) (by omega) (ih (n / 10) (by omega))
      rwa [Nat.div_add_mod] at h

theorem all_natText (n : ℕ) : (natText n).all isAsciiDecimal = true := by
  have hd : ∀ d : ℕ, d < 10 → isAsciiDecimal (CodePoint.scalar d.digitChar) = true := by decide
  induction n using natText_induction with
  | hdigit d h => rw [natText_of_lt h, List.all_cons, hd d h, List.all_nil]; rfl
  | happend n d hn h ih =>
    rw [← natText_append hn h, List.all_append, ih, List.all_cons, hd d h, List.all_nil]
    rfl

theorem natText_ne_nil (n : ℕ) : natText n ≠ [] := by
  rw [natText, ofChars, Ne, List.map_eq_nil_iff]
  exact Nat.toDigits_ne_nil

/-- A number other than zero does not begin with a zero. -/
theorem head_natText {n : ℕ} (hn : 0 < n) : (natText n).head? ≠ some (.scalar '0') := by
  have hd : ∀ d : ℕ, d < 10 → 0 < d → d.digitChar ≠ '0' := by decide
  induction n using natText_induction with
  | hdigit d h =>
    rw [natText_of_lt h, List.head?_cons]
    exact fun heq => hd d h hn (CodePoint.scalar.inj (Option.some.inj heq))
  | happend n d hpos h ih =>
    rw [← natText_append hpos h, List.head?_append_of_ne_nil _ (natText_ne_nil n)]
    exact ih hpos

theorem isCanonical_natText (n : ℕ) : isCanonical (natText n) = true := by
  have hne : (natText n).isEmpty = false := by
    rw [List.isEmpty_eq_false_iff]
    exact natText_ne_nil n
  have hhead : (decide (1 < (natText n).length) &&
      ((natText n).head? == some (CodePoint.scalar '0'))) = false := by
    rcases Nat.eq_zero_or_pos n with rfl | hn
    · rfl
    · rw [Bool.and_eq_false_iff, beq_eq_false_iff_ne]
      exact Or.inr (head_natText hn)
  rw [isCanonical, hne, all_natText, hhead]
  rfl

theorem natOf_natText (n : ℕ) : natOf (natText n) = n := by
  induction n using natText_induction with
  | hdigit d h =>
    rw [natText_of_lt h, natOf, List.foldl_cons, List.foldl_nil, ord_digitChar h]
    omega
  | happend n d hn h ih =>
    rw [natOf] at ih
    rw [← natText_append hn h, natOf, List.foldl_append, ih, List.foldl_cons, List.foldl_nil,
      ord_digitChar h]
    omega

theorem natText_injective : Function.Injective natText :=
  Function.LeftInverse.injective natOf_natText

/-- More digits go behind the text of a number. -/
theorem natText_foldl {s : PyStr} (h : s.all isAsciiDecimal = true) : ∀ {n : ℕ}, 0 < n →
    natText n ++ s = natText (s.foldl (fun n c => 10 * n + (c.ord - 48)) n) := by
  induction s with
  | nil => exact fun _ => List.append_nil _
  | cons c s ih =>
    intro n hn
    rw [List.all_cons, Bool.and_eq_true] at h
    have hlt : c.ord - 48 < 10 := by
      have hc := h.1
      rw [isAsciiDecimal, Bool.and_eq_true, decide_eq_true_eq, decide_eq_true_eq] at hc
      omega
    calc natText n ++ c :: s
        = (natText n ++ [.scalar (c.ord - 48).digitChar]) ++ s := by
          rw [scalar_digitChar h.1, List.append_assoc, List.singleton_append]
      _ = natText (10 * n + (c.ord - 48)) ++ s := by rw [natText_append hn hlt]
      _ = _ := ih h.2 (by omega)

theorem natText_natOf {s : PyStr} (h : isCanonical s = true) : natText (natOf s) = s := by
  simp only [isCanonical, Bool.and_eq_true, Bool.not_eq_true', Bool.and_eq_false_iff,
    beq_eq_false_iff_ne, decide_eq_false_iff_not, List.isEmpty_eq_false_iff] at h
  obtain ⟨⟨hne, hall⟩, hhead⟩ := h
  obtain ⟨c, t, rfl⟩ := List.exists_cons_of_ne_nil hne
  rw [List.all_cons, Bool.and_eq_true] at hall
  have hc := hall.1
  rw [isAsciiDecimal, Bool.and_eq_true, decide_eq_true_eq, decide_eq_true_eq] at hc
  have hlt : c.ord - 48 < 10 := by omega
  have hfirst : natOf (c :: t) = t.foldl (fun n c => 10 * n + (c.ord - 48)) (c.ord - 48) := by
    rw [natOf, List.foldl_cons, Nat.mul_zero, Nat.zero_add]
  rcases Nat.eq_zero_or_pos (c.ord - 48) with hz | hpos
  · -- A zero stands alone.
    have hzero : c = .scalar '0' := CodePoint.ord_injective (by
      show c.ord = 48
      omega)
    have ht : t = [] := by
      rcases hhead with hlen | hhead
      · rw [List.length_cons] at hlen
        exact List.length_eq_zero_iff.mp (by omega)
      · rw [hzero] at hhead
        exact absurd rfl hhead
    subst hzero ht
    rfl
  · rw [hfirst, ← natText_foldl hall.2 hpos, natText_of_lt hlt, scalar_digitChar hall.1]
    rfl

theorem isCanonical_iff {s : PyStr} : isCanonical s = true ↔ ∃ n, s = natText n := by
  constructor
  · exact fun h => ⟨natOf s, (natText_natOf h).symm⟩
  · rintro ⟨n, rfl⟩
    exact isCanonical_natText n

theorem length_natText_le_iff {n k : ℕ} (hk : 0 < k) : (natText n).length ≤ k ↔ n < 10 ^ k := by
  rw [natText, ofChars, List.length_map]
  exact Nat.length_toDigits_le_iff (by decide) hk

end Py
