import Icode.Utf8

/-!
# Base64

`b64encode` and `b64decode` are `base64.b64encode` and `base64.b64decode(…,
validate=True)`. The decoder is the loop of `binascii.a2b_base64` in strict mode :
it keeps the place in a group of four, the bits left over and the padding seen.
What was encoded is decoded to the same bytes (`b64decode_b64encode`).
-/

namespace Py

def base64Alphabet : List Char :=
  ['A', 'B', 'C', 'D', 'E', 'F', 'G', 'H', 'I', 'J', 'K', 'L', 'M', 'N', 'O', 'P', 'Q', 'R', 'S',
    'T', 'U', 'V', 'W', 'X', 'Y', 'Z', 'a', 'b', 'c', 'd', 'e', 'f', 'g', 'h', 'i', 'j', 'k', 'l',
    'm', 'n', 'o', 'p', 'q', 'r', 's', 't', 'u', 'v', 'w', 'x', 'y', 'z', '0', '1', '2', '3', '4',
    '5', '6', '7', '8', '9', '+', '/']

/-- The letter of six bits. -/
def base64Char (n : ℕ) : Char :=
  base64Alphabet.getD n '='

/-- The six bits of a letter. -/
def base64Value (c : CodePoint) : Option ℕ :=
  base64Alphabet.findIdx? fun d => CodePoint.scalar d == c

/-! ## Encoding -/

/-- `base64.b64encode`. -/
def b64encode : Bytes → List Char
  | [] => []
  | [a] => [base64Char (a.toNat / 4), base64Char (a.toNat % 4 * 16), '=', '=']
  | [a, b] =>
    [base64Char (a.toNat / 4), base64Char (a.toNat % 4 * 16 + b.toNat / 16),
      base64Char (b.toNat % 16 * 4), '=']
  | a :: b :: c :: rest =>
    base64Char (a.toNat / 4) :: base64Char (a.toNat % 4 * 16 + b.toNat / 16) ::
      base64Char (b.toNat % 16 * 4 + c.toNat / 64) :: base64Char (c.toNat % 64) :: b64encode rest

theorem length_b64encode (raw : Bytes) : (b64encode raw).length = 4 * ((raw.length + 2) / 3) := by
  fun_induction b64encode raw with
  | case1 => rfl
  | case2 => simp
  | case3 => simp
  | case4 a b c rest ih =>
    simp only [List.length_cons, ih]
    omega

/-- Every letter of an encoding is printable ASCII, and no quote or backslash. -/
def isBase64Char (c : Char) : Bool :=
  base64Alphabet.contains c || c == '='

theorem isBase64Char_base64Char (n : ℕ) : isBase64Char (base64Char n) = true := by
  have h : ∀ m < 64, isBase64Char (base64Char m) = true := by decide
  by_cases hn : n < 64
  · exact h n hn
  · have : base64Char n = '=' := by
      rw [base64Char, List.getD_eq_getElem?_getD, List.getElem?_eq_none (Nat.not_lt.mp hn)]
      rfl
    rw [this]
    decide

theorem isBase64Char_b64encode (raw : Bytes) : ∀ c ∈ b64encode raw, isBase64Char c = true := by
  fun_induction b64encode raw with
  | case1 => simp
  | case2 => simp [isBase64Char_base64Char]; decide
  | case3 => simp [isBase64Char_base64Char]; decide
  | case4 a b c rest ih => simpa [isBase64Char_base64Char] using ih

/-! ## Decoding -/

/-- The local variables of the loop of `a2b_base64`. -/
structure Base64State where
  quadPos : ℕ
  leftchar : ℕ
  pads : ℕ
  paddingStarted : Bool
  out : Bytes

/-- Six more bits. -/
def Base64State.push (st : Base64State) (v : ℕ) : Base64State :=
  match st.quadPos with
  | 0 => { st with pads := 0, quadPos := 1, leftchar := v }
  | 1 =>
    { st with
      pads := 0, quadPos := 2, leftchar := v % 16
      out := st.out ++ [UInt8.ofNat (st.leftchar * 4 + v / 16)] }
  | 2 =>
    { st with
      pads := 0, quadPos := 3, leftchar := v % 4
      out := st.out ++ [UInt8.ofNat (st.leftchar * 16 + v / 4)] }
  | _ =>
    { st with
      pads := 0, quadPos := 0, leftchar := 0
      out := st.out ++ [UInt8.ofNat (st.leftchar * 64 + v)] }

/-- The loop of `binascii.a2b_base64(data, strict_mode=True)`; nothing is an error. -/
def a2bLoop (st : Base64State) : PyStr → Option Bytes
  | [] => if st.quadPos = 0 then some st.out else none
  | c :: cs =>
    if c = '=' then
      if 2 ≤ st.quadPos ∧ 4 ≤ st.quadPos + (st.pads + 1) then
        -- the group is complete: nothing may follow
        if cs.isEmpty then some st.out else none
      else
        a2bLoop { st with
          paddingStarted := true
          pads := if 2 ≤ st.quadPos then st.pads + 1 else st.pads } cs
    else
      match base64Value c with
      | none => none
      | some v => if st.paddingStarted then none else a2bLoop (st.push v) cs

/-- `base64.b64decode(text, validate=True)`; nothing is a `ValueError`. -/
def b64decode (s : PyStr) : Option Bytes :=
  if s.all (fun c => decide (c.ord < 128)) then
    if s.head? = some (.scalar '=') then none else a2bLoop ⟨0, 0, 0, false, []⟩ s
  else none

/-! ## What was encoded is decoded -/

theorem base64Value_base64Char : ∀ n < 64, base64Value (base64Char n) = some n := by
  decide

theorem base64Char_ne_pad : ∀ n < 64, (base64Char n : CodePoint) ≠ '=' := by
  decide

theorem a2bLoop_base64Char {st : Base64State} (hst : st.paddingStarted = false) {n : ℕ}
    (hn : n < 64) (cs : PyStr) :
    a2bLoop st ((base64Char n : CodePoint) :: cs) = a2bLoop (st.push n) cs := by
  rw [a2bLoop, if_neg (base64Char_ne_pad n hn), base64Value_base64Char n hn]
  simp [hst]

theorem a2bLoop_b64encode (raw out : Bytes) :
    a2bLoop ⟨0, 0, 0, false, out⟩ (ofChars (b64encode raw)) = some (out ++ raw) := by
  fun_induction b64encode raw generalizing out with
  | case1 => simp [ofChars, a2bLoop]
  | case2 a =>
    have ha := a.toNat_lt
    simp only [ofChars, List.map_cons, List.map_nil]
    rw [a2bLoop_base64Char rfl (by omega), a2bLoop_base64Char rfl (by omega)]
    simp only [Base64State.push]
    rw [ofNat_eq (by omega : _ = a.toNat)]
    simp [a2bLoop]
  | case3 a b =>
    have ha := a.toNat_lt
    have hb := b.toNat_lt
    simp only [ofChars, List.map_cons, List.map_nil]
    rw [a2bLoop_base64Char rfl (by omega), a2bLoop_base64Char rfl (by omega),
      a2bLoop_base64Char rfl (by omega)]
    simp only [Base64State.push]
    rw [ofNat_eq (by omega : _ = a.toNat), ofNat_eq (by omega : _ = b.toNat)]
    simp [a2bLoop]
  | case4 a b c rest ih =>
    have ha := a.toNat_lt
    have hb := b.toNat_lt
    have hc := c.toNat_lt
    simp only [ofChars, List.map_cons]
    rw [a2bLoop_base64Char rfl (by omega), a2bLoop_base64Char rfl (by omega),
      a2bLoop_base64Char rfl (by omega), a2bLoop_base64Char rfl (by omega)]
    simp only [Base64State.push]
    rw [ofNat_eq (by omega : _ = a.toNat), ofNat_eq (by omega : _ = b.toNat),
      ofNat_eq (by omega : _ = c.toNat)]
    have := ih (out ++ [a] ++ [b] ++ [c])
    rw [ofChars] at this
    rw [this]
    simp

theorem b64decode_b64encode (raw : Bytes) : b64decode (ofChars (b64encode raw)) = some raw := by
  have hascii : ∀ c : Char, isBase64Char c = true → c.toNat < 128 := by
    intro c hc
    simp only [isBase64Char, Bool.or_eq_true, List.contains_iff_mem, beq_iff_eq] at hc
    rcases hc with hc | rfl
    · have : ∀ d ∈ base64Alphabet, d.toNat < 128 := List.all_iff_forall_prop.mp (by decide)
      exact this c hc
    · decide
  have hall : (ofChars (b64encode raw)).all (fun c => decide (c.ord < 128)) = true := by
    rw [List.all_eq_true]
    intro c hc
    obtain ⟨d, hd, rfl⟩ := List.mem_map.mp hc
    exact decide_eq_true (hascii d (isBase64Char_b64encode raw d hd))
  have hhead : (ofChars (b64encode raw)).head? ≠ some (.scalar '=') := by
    have hne : ∀ a : UInt8, base64Char (a.toNat / 4) ≠ '=' := by
      intro a h
      have := a.toNat_lt
      exact base64Char_ne_pad (a.toNat / 4) (by omega) (congrArg CodePoint.scalar h)
    unfold b64encode
    split <;> simp [ofChars, hne]
  rw [b64decode, if_pos hall, if_neg hhead]
  simpa using a2bLoop_b64encode raw []

end Py
