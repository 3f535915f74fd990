import Icode.PyText
import Mathlib.Tactic.Ring

/-!
# Strict UTF-8

`decode` and `encode` are inverse to each other (`decode_eq_some`): the decoder
reads every scalar value off its code (`decodePrefix_utf8`), and what it has read
of a byte string encodes to the bytes it took (`encodePass_decodePrefix`), as it
takes no overlong code and no code of a surrogate.
-/

namespace Py

/-! ## One code -/

theorem toNat_ofNat_of_lt {n : ℕ} (h : n < 256) : (UInt8.ofNat n).toNat = n := by
  rw [UInt8.toNat_ofNat']
  exact Nat.mod_eq_of_lt h

theorem isCont_iff {b : UInt8} : isCont b = true ↔ 0x80 ≤ b.toNat ∧ b.toNat ≤ 0xBF := by
  simp [isCont, UInt8.le_iff_toNat_le]

theorem second3_iff {b0 b1 : UInt8} : second3 b0 b1 = true ↔
    (0x80 ≤ b1.toNat ∧ b1.toNat ≤ 0xBF) ∧ ¬(b0.toNat = 0xE0 ∧ b1.toNat < 0xA0) ∧
      ¬(b0.toNat = 0xED ∧ 0xA0 ≤ b1.toNat) := by
  simp only [second3, Bool.and_eq_true, isCont_iff, Bool.not_eq_true', Bool.and_eq_false_iff,
    beq_eq_false_iff_ne, decide_eq_false_iff_not, ne_eq, ← UInt8.toNat_inj,
    UInt8.le_iff_toNat_le, UInt8.lt_iff_toNat_lt, UInt8.reduceToNat]
  tauto

theorem second4_iff {b0 b1 : UInt8} : second4 b0 b1 = true ↔
    (0x80 ≤ b1.toNat ∧ b1.toNat ≤ 0xBF) ∧ ¬(b0.toNat = 0xF0 ∧ b1.toNat < 0x90) ∧
      ¬(b0.toNat = 0xF4 ∧ 0x90 ≤ b1.toNat) := by
  simp only [second4, Bool.and_eq_true, isCont_iff, Bool.not_eq_true', Bool.and_eq_false_iff,
    beq_eq_false_iff_ne, decide_eq_false_iff_not, ne_eq, ← UInt8.toNat_inj,
    UInt8.le_iff_toNat_le, UInt8.lt_iff_toNat_lt, UInt8.reduceToNat]
  tauto

/-- A number that is a scalar value. -/
def IsScalarValue (n : ℕ) : Prop :=
  n < 0xD800 ∨ (0xDFFF < n ∧ n < 0x110000)

theorem ord_ofOrd {n : ℕ} (h : IsScalarValue n) : (ofOrd n).ord = n := by
  have hv : n.isValidChar := h
  rw [ofOrd, CodePoint.ord, Char.ofNat, dif_pos hv]
  rfl

theorem ofOrd_toNat (c : Char) : ofOrd c.toNat = .scalar c := by
  apply CodePoint.ord_injective
  rw [ord_ofOrd (toNat_valid c)]
  rfl

section Codes

variable {b0 b1 b2 b3 : UInt8} {rest : Bytes}

theorem decodePrefix_cons (b0 : UInt8) (rest : Bytes) :
    decodePrefix (b0 :: rest) =
      if b0 < 0x80 then (ofOrd b0.toNat :: (decodePrefix rest).1, (decodePrefix rest).2)
      else
        match rest with
        | [] => ([], b0 :: rest)
        | b1 :: rest1 =>
          if 0xC2 ≤ b0 && b0 ≤ 0xDF && isCont b1 then
            (ofOrd ((b0.toNat - 0xC0) * 64 + (b1.toNat - 0x80)) :: (decodePrefix rest1).1,
              (decodePrefix rest1).2)
          else
            match rest1 with
            | [] => ([], b0 :: rest)
            | b2 :: rest2 =>
              if 0xE0 ≤ b0 && b0 ≤ 0xEF && second3 b0 b1 && isCont b2 then
                (ofOrd ((b0.toNat - 0xE0) * 4096 + (b1.toNat - 0x80) * 64 + (b2.toNat - 0x80)) ::
                  (decodePrefix rest2).1, (decodePrefix rest2).2)
              else
                match rest2 with
                | [] => ([], b0 :: rest)
                | b3 :: rest3 =>
                  if 0xF0 ≤ b0 && b0 ≤ 0xF4 && second4 b0 b1 && isCont b2 && isCont b3 then
                    (ofOrd ((b0.toNat - 0xF0) * 262144 + (b1.toNat - 0x80) * 4096 +
                      (b2.toNat - 0x80) * 64 + (b3.toNat - 0x80)) :: (decodePrefix rest3).1,
                      (decodePrefix rest3).2)
                  else ([], b0 :: rest) := by
  rw [decodePrefix.eq_def]
  rcases rest with _ | ⟨b1, _ | ⟨b2, _ | ⟨b3, rest3⟩⟩⟩ <;> rfl

theorem decodePrefix_one (h : b0.toNat < 0x80) :
    decodePrefix (b0 :: rest) = (ofOrd b0.toNat :: (decodePrefix rest).1, (decodePrefix rest).2) := by
  have hlt : b0 < 0x80 := UInt8.lt_iff_toNat_lt.mpr h
  rw [decodePrefix_cons]
  simp only [if_pos hlt]

theorem decodePrefix_two (h0 : 0xC2 ≤ b0.toNat) (h0' : b0.toNat ≤ 0xDF) (h1 : isCont b1 = true) :
    decodePrefix (b0 :: b1 :: rest) =
      (ofOrd ((b0.toNat - 0xC0) * 64 + (b1.toNat - 0x80)) :: (decodePrefix rest).1,
        (decodePrefix rest).2) := by
  have hlt : ¬b0 < 0x80 := by
    rw [UInt8.lt_iff_toNat_lt]
    exact Nat.not_lt.mpr (le_trans (by decide) h0)
  have hlead : (0xC2 ≤ b0 && b0 ≤ 0xDF && isCont b1) = true := by
    simp [UInt8.le_iff_toNat_le, h0, h0', h1]
  rw [decodePrefix_cons]
  simp only [if_neg hlt, hlead, if_true]

theorem decodePrefix_three (h0 : 0xE0 ≤ b0.toNat) (h0' : b0.toNat ≤ 0xEF)
    (h1 : second3 b0 b1 = true) (h2 : isCont b2 = true) :
    decodePrefix (b0 :: b1 :: b2 :: rest) =
      (ofOrd ((b0.toNat - 0xE0) * 4096 + (b1.toNat - 0x80) * 64 + (b2.toNat - 0x80)) ::
        (decodePrefix rest).1, (decodePrefix rest).2) := by
  have hlt : ¬b0 < 0x80 := by
    rw [UInt8.lt_iff_toNat_lt]
    exact Nat.not_lt.mpr (le_trans (by decide) h0)
  have hnot : ¬(0xC2 ≤ b0 && b0 ≤ 0xDF && isCont b1) = true := by
    simp only [Bool.and_eq_true, decide_eq_true_eq, UInt8.le_iff_toNat_le, not_and]
    intro h _
    have := h.2
    simp at this
    omega
  have hlead : (0xE0 ≤ b0 && b0 ≤ 0xEF && second3 b0 b1 && isCont b2) = true := by
    simp [UInt8.le_iff_toNat_le, h0, h0', h1, h2]
  rw [decodePrefix_cons]
  simp only [if_neg hlt, if_neg hnot, hlead, if_true]

theorem decodePrefix_four (h0 : 0xF0 ≤ b0.toNat) (h0' : b0.toNat ≤ 0xF4)
    (h1 : second4 b0 b1 = true) (h2 : isCont b2 = true) (h3 : isCont b3 = true) :
    decodePrefix (b0 :: b1 :: b2 :: b3 :: rest) =
      (ofOrd ((b0.toNat - 0xF0) * 262144 + (b1.toNat - 0x80) * 4096 + (b2.toNat - 0x80) * 64 +
        (b3.toNat - 0x80)) :: (decodePrefix rest).1, (decodePrefix rest).2) := by
  have hlt : ¬b0 < 0x80 := by
    rw [UInt8.lt_iff_toNat_lt]
    exact Nat.not_lt.mpr (le_trans (by decide) h0)
  have hnot2 : ¬(0xC2 ≤ b0 && b0 ≤ 0xDF && isCont b1) = true := by
    simp only [Bool.and_eq_true, decide_eq_true_eq, UInt8.le_iff_toNat_le, not_and]
    intro h _
    have := h.2
    simp at this
    omega
  have hnot3 : ¬(0xE0 ≤ b0 && b0 ≤ 0xEF && second3 b0 b1 && isCont b2) = true := by
    simp only [Bool.and_eq_true, decide_eq_true_eq, UInt8.le_iff_toNat_le, not_and]
    intro h _
    have := h.1.2
    simp at this
    omega
  have hlead : (0xF0 ≤ b0 && b0 ≤ 0xF4 && second4 b0 b1 && isCont b2 && isCont b3) = true := by
    simp [UInt8.le_iff_toNat_le, h0, h0', h1, h2, h3]
  rw [decodePrefix_cons]
  simp only [if_neg hlt, if_neg hnot2, if_neg hnot3, hlead, if_true]

end Codes

/-! ## Texts -/

/-- The code of a scalar value is read back. -/
theorem decodePrefix_utf8 (c : Char) (rest : Bytes) :
    decodePrefix ((utf8 c.toNat).map UInt8.ofNat ++ rest) =
      (.scalar c :: (decodePrefix rest).1, (decodePrefix rest).2) := by
  have hv := toNat_valid c
  rw [← ofOrd_toNat c]
  generalize c.toNat = n at hv ⊢
  unfold utf8
  split_ifs with h1 h2 h3
  · have hn : (UInt8.ofNat n).toNat = n := toNat_ofNat_of_lt (by omega)
    simp only [List.map_cons, List.map_nil, List.cons_append, List.nil_append]
    rw [decodePrefix_one (by omega), hn]
  · have hb0 : (UInt8.ofNat (0xC0 + n / 64)).toNat = 0xC0 + n / 64 := toNat_ofNat_of_lt (by omega)
    have hb1 : (UInt8.ofNat (0x80 + n % 64)).toNat = 0x80 + n % 64 := toNat_ofNat_of_lt (by omega)
    simp only [List.map_cons, List.map_nil, List.cons_append, List.nil_append]
    rw [decodePrefix_two (by omega) (by omega) (isCont_iff.mpr (by omega)), hb0, hb1,
      show (0xC0 + n / 64 - 0xC0) * 64 + (0x80 + n % 64 - 0x80) = n by omega]
  · have hb0 : (UInt8.ofNat (0xE0 + n / 4096)).toNat = 0xE0 + n / 4096 :=
      toNat_ofNat_of_lt (by omega)
    have hb1 : (UInt8.ofNat (0x80 + n / 64 % 64)).toNat = 0x80 + n / 64 % 64 :=
      toNat_ofNat_of_lt (by omega)
    have hb2 : (UInt8.ofNat (0x80 + n % 64)).toNat = 0x80 + n % 64 := toNat_ofNat_of_lt (by omega)
    simp only [List.map_cons, List.map_nil, List.cons_append, List.nil_append]
    rw [decodePrefix_three (by omega) (by omega) (second3_iff.mpr (by omega))
      (isCont_iff.mpr (by omega)), hb0, hb1, hb2,
      show (0xE0 + n / 4096 - 0xE0) * 4096 + (0x80 + n / 64 % 64 - 0x80) * 64 +
        (0x80 + n % 64 - 0x80) = n by omega]
  · have hb0 : (UInt8.ofNat (0xF0 + n / 262144)).toNat = 0xF0 + n / 262144 :=
      toNat_ofNat_of_lt (by omega)
    have hb1 : (UInt8.ofNat (0x80 + n / 4096 % 64)).toNat = 0x80 + n / 4096 % 64 :=
      toNat_ofNat_of_lt (by omega)
    have hb2 : (UInt8.ofNat (0x80 + n / 64 % 64)).toNat = 0x80 + n / 64 % 64 :=
      toNat_ofNat_of_lt (by omega)
    have hb3 : (UInt8.ofNat (0x80 + n % 64)).toNat = 0x80 + n % 64 := toNat_ofNat_of_lt (by omega)
    simp only [List.map_cons, List.map_nil, List.cons_append, List.nil_append]
    rw [decodePrefix_four (by omega) (by omega) (second4_iff.mpr (by omega))
      (isCont_iff.mpr (by omega)) (isCont_iff.mpr (by omega)), hb0, hb1, hb2, hb3,
      show (0xF0 + n / 262144 - 0xF0) * 262144 + (0x80 + n / 4096 % 64 - 0x80) * 4096 +
        (0x80 + n / 64 % 64 - 0x80) * 64 + (0x80 + n % 64 - 0x80) = n by omega]

/-- A text without surrogates is read back. -/
theorem decodePrefix_encodePass : ∀ {s : PyStr} (_ : s.all isScalar = true) (rest : Bytes),
    decodePrefix (encodePass s ++ rest) = (s ++ (decodePrefix rest).1, (decodePrefix rest).2)
  | [], _, rest => rfl
  | .scalar c :: s, h, rest => by
    have hs : s.all isScalar = true := by simpa [isScalar] using h
    have hcons : encodePass (.scalar c :: s) ++ rest =
        (utf8 c.toNat).map UInt8.ofNat ++ (encodePass s ++ rest) := by
      rw [encodePass_cons, List.append_assoc]
      rfl
    rw [hcons, decodePrefix_utf8, decodePrefix_encodePass hs rest]
    rfl
  | .surrogate n :: s, h, rest => by simp [isScalar] at h

/-- What is read is scalar values. -/
theorem isScalar_decodePrefix (b : Bytes) : (decodePrefix b).1.all isScalar = true := by
  have hcons : ∀ (n : ℕ) (s : PyStr), s.all isScalar = true → (ofOrd n :: s).all isScalar = true :=
    fun n s h => by rw [List.all_cons, h]; rfl
  fun_induction decodePrefix b with
  | case1 => rfl
  | case2 b0 rest hlt r ih => exact hcons _ _ ih
  | case3 b0 hlt b1 rest hlead r ih => exact hcons _ _ ih
  | case4 b0 hlt b1 hlead2 b2 rest hlead r ih => exact hcons _ _ ih
  | case5 b0 hlt b1 hlead2 b2 hlead3 b3 rest hlead r ih => exact hcons _ _ ih
  | case6 => rfl
  | case7 => rfl
  | case8 => rfl
  | case9 => rfl

/-- The code of a scalar value from its bytes. -/
theorem encodePass_cons_ofOrd {n : ℕ} (h : IsScalarValue n) (s : PyStr) :
    encodePass (ofOrd n :: s) = (utf8 n).map UInt8.ofNat ++ encodePass s := by
  rw [encodePass_cons, ord_ofOrd h]

theorem ofNat_eq {n : ℕ} {b : UInt8} (h : n = b.toNat) : UInt8.ofNat n = b := by
  rw [h, UInt8.ofNat_toNat]

/-- What is read is the bytes before the rest. -/
theorem encodePass_decodePrefix (b : Bytes) :
    encodePass (decodePrefix b).1 ++ (decodePrefix b).2 = b := by
  fun_induction decodePrefix b with
  | case1 => rfl
  | case2 b0 rest hlt r ih =>
    have h0 : b0.toNat < 0x80 := UInt8.lt_iff_toNat_lt.mp hlt
    rw [encodePass_cons_ofOrd (Or.inl (by omega)), List.append_assoc, ih, utf8, if_pos h0]
    simp
  | case3 b0 hlt b1 rest hlead r ih =>
    simp only [Bool.and_eq_true, decide_eq_true_eq, UInt8.le_iff_toNat_le, isCont_iff,
      UInt8.reduceToNat] at hlead
    rw [encodePass_cons_ofOrd (Or.inl (by omega)), List.append_assoc, ih, utf8,
      if_neg (by omega), if_pos (by omega)]
    simp only [List.map_cons, List.map_nil, List.cons_append, List.nil_append]
    rw [ofNat_eq (by omega : _ = b0.toNat), ofNat_eq (by omega : _ = b1.toNat)]
  | case4 b0 hlt b1 hlead2 b2 rest hlead r ih =>
    simp only [Bool.and_eq_true, decide_eq_true_eq, UInt8.le_iff_toNat_le, isCont_iff,
      second3_iff, UInt8.reduceToNat] at hlead
    have hn : IsScalarValue
        ((b0.toNat - 0xE0) * 4096 + (b1.toNat - 0x80) * 64 + (b2.toNat - 0x80)) := by
      unfold IsScalarValue
      omega
    rw [encodePass_cons_ofOrd hn, List.append_assoc, ih, utf8, if_neg (by omega),
      if_neg (by omega), if_pos (by omega)]
    simp only [List.map_cons, List.map_nil, List.cons_append, List.nil_append]
    rw [ofNat_eq (by omega : _ = b0.toNat), ofNat_eq (by omega : _ = b1.toNat),
      ofNat_eq (by omega : _ = b2.toNat)]
  | case5 b0 hlt b1 hlead2 b2 hlead3 b3 rest hlead r ih =>
    simp only [Bool.and_eq_true, decide_eq_true_eq, UInt8.le_iff_toNat_le, isCont_iff,
      second4_iff, UInt8.reduceToNat] at hlead
    have hn : IsScalarValue ((b0.toNat - 0xF0) * 262144 + (b1.toNat - 0x80) * 4096 +
        (b2.toNat - 0x80) * 64 + (b3.toNat - 0x80)) := by
      unfold IsScalarValue
      omega
    rw [encodePass_cons_ofOrd hn, List.append_assoc, ih, utf8, if_neg (by omega),
      if_neg (by omega), if_neg (by omega)]
    simp only [List.map_cons, List.map_nil, List.cons_append, List.nil_append]
    rw [ofNat_eq (by omega : _ = b0.toNat), ofNat_eq (by omega : _ = b1.toNat),
      ofNat_eq (by omega : _ = b2.toNat), ofNat_eq (by omega : _ = b3.toNat)]
  | case6 => rfl
  | case7 => rfl
  | case8 => rfl
  | case9 => rfl

/-- Decoding and encoding are inverse to each other. -/
theorem decode_eq_some {b : Bytes} {s : PyStr} : decode b = some s ↔ encode s = some b := by
  unfold decode encode
  constructor
  · intro h
    have hread := encodePass_decodePrefix b
    have hscalar := isScalar_decodePrefix b
    split at h
    · rename_i t hb
      obtain rfl := Option.some.inj h
      rw [hb] at hread hscalar
      rw [if_pos hscalar, ← hread, List.append_nil]
    · cases h
  · intro h
    split_ifs at h with hscalar
    obtain rfl := Option.some.inj h
    have hread := decodePrefix_encodePass hscalar []
    rw [List.append_nil] at hread
    rw [hread]
    exact congrArg some (List.append_nil s)

end Py
