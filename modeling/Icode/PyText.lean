import Mathlib.Data.Bool.AllAny
import Mathlib.Data.List.Basic
import Mathlib.Data.List.Infix
import Mathlib.Data.List.TakeWhile
import Mathlib.Tactic

/-!
# Text and bytes

A Python `str` is a list of code points, lone surrogates included
(`CodePoint`). String literals coerce to it (`lit`), and `lit_inj` reduces a
comparison of two literals to the comparison of Lean strings.

`utf8` is the code of one code point, surrogates as three bytes (the
`surrogatepass` handler). `encodePass_injective` : the codes are prefix free, so
a byte string has at most one text. `encode` is the strict encoder, which
refuses surrogates, and `decodePrefix` the strict decoder, which stops at the
first byte that starts no scalar.
-/

namespace Py

/-! ## Prefix-free codes -/

section PrefixFree

variable {α β : Type*}

/-- No code is empty, and no code is a prefix of another. -/
structure PrefixFree (code : α → List β) : Prop where
  ne_nil : ∀ a, code a ≠ []
  split : ∀ {a b r s}, code a ++ r = code b ++ s → a = b ∧ r = s

/-- A sequence of codes is read back one way, also before a mark that begins no code. -/
theorem PrefixFree.flatMap_append_inj {code : α → List β} (h : PrefixFree code) {mark : β}
    (hmark : ∀ a, (code a).head? ≠ some mark) :
    ∀ {a b : List α} {r s : List β},
      a.flatMap code ++ mark :: r = b.flatMap code ++ mark :: s → a = b ∧ r = s
  | [], [], r, s, he => ⟨rfl, by simpa using he⟩
  | [], y :: b, r, s, he => by
    obtain ⟨c, cs, hc⟩ := List.exists_cons_of_ne_nil (h.ne_nil y)
    have := hmark y
    simp [hc] at he this
    exact absurd he.1.symm this
  | x :: a, [], r, s, he => by
    obtain ⟨c, cs, hc⟩ := List.exists_cons_of_ne_nil (h.ne_nil x)
    have := hmark x
    simp [hc] at he this
    exact absurd he.1 this
  | x :: a, y :: b, r, s, he => by
    simp only [List.flatMap_cons, List.append_assoc] at he
    obtain ⟨rfl, ht⟩ := h.split he
    obtain ⟨rfl, hr⟩ := h.flatMap_append_inj hmark ht
    exact ⟨rfl, hr⟩

theorem PrefixFree.flatMap_injective {code : α → List β} (h : PrefixFree code) :
    Function.Injective (List.flatMap code)
  | [], [], _ => rfl
  | [], y :: b, he => by simp [h.ne_nil] at he
  | x :: a, [], he => by simp [h.ne_nil] at he
  | x :: a, y :: b, he => by
    simp only [List.flatMap_cons] at he
    obtain ⟨rfl, ht⟩ := h.split he
    rw [h.flatMap_injective ht]

end PrefixFree

/-! ## Code points -/

/-- A Unicode code point: a scalar value, or one of the 2048 surrogates. -/
inductive CodePoint where
  | scalar (c : Char)
  | surrogate (n : Fin 2048)
  deriving DecidableEq, Repr

/-- Python's `ord`. -/
def CodePoint.ord : CodePoint → ℕ
  | .scalar c => c.toNat
  | .surrogate n => 0xD800 + n

theorem toNat_valid (c : Char) :
    c.toNat < 0xD800 ∨ (0xDFFF < c.toNat ∧ c.toNat < 0x110000) :=
  c.valid

theorem CodePoint.ord_injective : Function.Injective CodePoint.ord := by
  rintro (a | a) (b | b) h <;> simp only [CodePoint.ord] at h
  · exact congrArg _ (Char.toNat_inj.mp h)
  · have := toNat_valid a
    have := b.isLt
    omega
  · have := toNat_valid b
    have := a.isLt
    omega
  · exact congrArg _ (Fin.ext (by omega))

theorem CodePoint.ord_lt (c : CodePoint) : c.ord < 0x110000 := by
  cases c with
  | scalar c =>
    have := toNat_valid c
    simp only [CodePoint.ord]
    omega
  | surrogate n =>
    have := n.isLt
    simp only [CodePoint.ord]
    omega

/-- Python's `str`. -/
abbrev PyStr := List CodePoint

instance : LawfulBEq PyStr :=
  inferInstance

/-- Python's `bytes`. -/
abbrev Bytes := List UInt8

instance : Coe Char CodePoint :=
  ⟨.scalar⟩

/-- The text of a list of characters. -/
def ofChars (s : List Char) : PyStr :=
  s.map .scalar

theorem ofChars_injective : Function.Injective ofChars :=
  List.map_injective_iff.mpr fun _ _ h => CodePoint.scalar.inj h

/-- The text of a string literal. -/
def lit (s : String) : PyStr :=
  ofChars s.toList

instance : Coe String PyStr :=
  ⟨lit⟩

@[simp] theorem lit_inj {a b : String} : lit a = lit b ↔ a = b := by
  unfold lit
  rw [ofChars_injective.eq_iff, String.toList_inj]

@[simp] theorem lit_eq_nil {a : String} : lit a = [] ↔ a = "" := by
  rw [← lit_inj]
  rfl

/-- A lowercase hexadecimal digit. -/
def hexDigit (n : ℕ) : Char :=
  if n < 10 then Char.ofNat (48 + n) else Char.ofNat (87 + n)

/-- `[0-9a-f]{n}`, the whole text. -/
def isHexText (n : ℕ) (s : PyStr) : Bool :=
  s.length == n && s.all fun c => (48 ≤ c.ord && c.ord ≤ 57) || (97 ≤ c.ord && c.ord ≤ 102)

/-- The code point is not a surrogate. -/
def isScalar : CodePoint → Bool
  | .scalar _ => true
  | .surrogate _ => false

theorem isScalar_of_ord_lt {x : CodePoint} (h : x.ord < 0xD800) : isScalar x = true := by
  cases x with
  | scalar c => rfl
  | surrogate n =>
    simp only [CodePoint.ord] at h
    omega

/-- Python's order on `str`: by code points. -/
def strLe : PyStr → PyStr → Bool
  | [], _ => true
  | _ :: _, [] => false
  | a :: as, b :: bs => a.ord < b.ord || (a.ord = b.ord && strLe as bs)

theorem strLe_total : ∀ a b : PyStr, strLe a b = true ∨ strLe b a = true
  | [], _ => Or.inl rfl
  | _ :: _, [] => Or.inr rfl
  | a :: as, b :: bs => by
    have ih := strLe_total as bs
    simp only [strLe, Bool.or_eq_true, Bool.and_eq_true, decide_eq_true_eq]
    rcases lt_trichotomy a.ord b.ord with h | h | h
    · exact Or.inl (Or.inl h)
    · rcases ih with ih | ih
      · exact Or.inl (Or.inr ⟨h, ih⟩)
      · exact Or.inr (Or.inr ⟨h.symm, ih⟩)
    · exact Or.inr (Or.inl h)

theorem strLe_trans : ∀ {a b c : PyStr}, strLe a b = true → strLe b c = true → strLe a c = true
  | [], _, _, _, _ => rfl
  | _ :: _, [], _, h, _ => by simp [strLe] at h
  | _ :: _, _ :: _, [], _, h => by simp [strLe] at h
  | a :: as, b :: bs, c :: cs, hab, hbc => by
    simp only [strLe, Bool.or_eq_true, Bool.and_eq_true, decide_eq_true_eq] at hab hbc ⊢
    rcases hab with hab | ⟨hab, h1⟩ <;> rcases hbc with hbc | ⟨hbc, h2⟩
    · exact Or.inl (by omega)
    · exact Or.inl (by omega)
    · exact Or.inl (by omega)
    · exact Or.inr ⟨by omega, strLe_trans h1 h2⟩

theorem strLe_antisymm : ∀ {a b : PyStr}, strLe a b = true → strLe b a = true → a = b
  | [], [], _, _ => rfl
  | [], _ :: _, _, h => by simp [strLe] at h
  | _ :: _, [], h, _ => by simp [strLe] at h
  | a :: as, b :: bs, hab, hba => by
    simp only [strLe, Bool.or_eq_true, Bool.and_eq_true, decide_eq_true_eq] at hab hba
    rcases hab with hab | ⟨hab, h1⟩ <;> rcases hba with hba | ⟨hba, h2⟩
    · omega
    · omega
    · omega
    · rw [CodePoint.ord_injective hab, strLe_antisymm h1 h2]

/-- `str.isspace` of one character. -/
def isSpace (c : CodePoint) : Bool :=
  let n := c.ord
  (9 ≤ n && n ≤ 13) || (28 ≤ n && n ≤ 32) || n == 0x85 || n == 0xA0 || n == 0x1680 ||
    (0x2000 ≤ n && n ≤ 0x200A) || n == 0x2028 || n == 0x2029 || n == 0x202F || n == 0x205F ||
    n == 0x3000

/-- `str.strip()`. -/
def strip (s : PyStr) : PyStr :=
  ((s.dropWhile isSpace).reverse.dropWhile isSpace).reverse

/-- A text with a character that is no space is not empty once stripped. -/
theorem strip_ne_nil {s : PyStr} {c : CodePoint} (hc : c ∈ s) (hspace : isSpace c = false) :
    strip s ≠ [] := by
  have hdrop : c ∈ s.dropWhile isSpace := by
    rw [← List.takeWhile_append_dropWhile (p := isSpace) (l := s)] at hc
    refine (List.mem_append.mp hc).resolve_left fun htake => ?_
    rw [List.mem_takeWhile_imp htake] at hspace
    cases hspace
  rw [strip, ne_eq, List.reverse_eq_nil_iff, List.dropWhile_eq_nil_iff]
  intro h
  rw [h c (List.mem_reverse.mpr hdrop)] at hspace
  cases hspace

/-- `any(marker in text)` for one marker: `needle` occurs in `s`. -/
def contains (s needle : PyStr) : Bool :=
  s.tails.any fun t => needle.isPrefixOf t

/-! ## UTF-8 -/

/-- The bytes of the code point `n`. -/
def utf8 (n : ℕ) : List ℕ :=
  if n < 0x80 then [n]
  else if n < 0x800 then [0xC0 + n / 64, 0x80 + n % 64]
  else if n < 0x10000 then [0xE0 + n / 4096, 0x80 + n / 64 % 64, 0x80 + n % 64]
  else [0xF0 + n / 262144, 0x80 + n / 4096 % 64, 0x80 + n / 64 % 64, 0x80 + n % 64]

theorem utf8_append_inj {m n : ℕ} (hm : m < 0x110000) (hn : n < 0x110000) {r s : List ℕ}
    (h : utf8 m ++ r = utf8 n ++ s) : m = n ∧ r = s := by
  unfold utf8 at h
  split_ifs at h <;> simp only [List.cons_append, List.nil_append, List.cons.injEq] at h
  -- codes of different lengths differ in their first byte
  all_goals
    first
    | (exfalso; omega)
    | exact ⟨by omega, by tauto⟩

theorem utf8_lt {n : ℕ} (hn : n < 0x110000) : ∀ b ∈ utf8 n, b < 256 := by
  intro b hb
  unfold utf8 at hb
  split_ifs at hb <;> simp only [List.mem_cons, List.not_mem_nil, or_false] at hb <;> omega

theorem length_utf8 (n : ℕ) : 1 ≤ (utf8 n).length ∧ (utf8 n).length ≤ 4 := by
  unfold utf8
  split_ifs <;> simp

/-- `str.encode("utf-8", errors="surrogatepass")`. -/
def encodePass (s : PyStr) : Bytes :=
  s.flatMap fun c => (utf8 c.ord).map UInt8.ofNat

/-- `str.encode("utf-8")`: a surrogate is an error. -/
def encode (s : PyStr) : Option Bytes :=
  if s.all isScalar then some (encodePass s) else none

theorem encodePass_cons (c : CodePoint) (s : PyStr) :
    encodePass (c :: s) = (utf8 c.ord).map UInt8.ofNat ++ encodePass s :=
  rfl

theorem encodePass_append (a b : PyStr) : encodePass (a ++ b) = encodePass a ++ encodePass b :=
  List.flatMap_append

/-- A character is at least one byte. -/
theorem length_le_length_encodePass (s : PyStr) : s.length ≤ (encodePass s).length := by
  induction s with
  | nil => exact Nat.le_refl _
  | cons c s ih =>
    have := (length_utf8 c.ord).1
    rw [encodePass_cons, List.length_append, List.length_map, List.length_cons]
    omega

theorem map_ofNat_inj {a b : List ℕ} (ha : ∀ x ∈ a, x < 256) (hb : ∀ x ∈ b, x < 256)
    (h : a.map UInt8.ofNat = b.map UInt8.ofNat) : a = b := by
  have hid : ∀ l : List ℕ, (∀ x ∈ l, x < 256) → (l.map UInt8.ofNat).map UInt8.toNat = l := by
    intro l hl
    rw [List.map_map]
    conv_rhs => rw [← List.map_id l]
    refine List.map_congr_left fun x hx => ?_
    simp [Nat.mod_eq_of_lt (hl x hx)]
  rw [← hid a ha, h, hid b hb]

/-- The code of one code point, as numbers, of a whole text. -/
theorem encodePass_eq (s : PyStr) :
    encodePass s = (s.flatMap fun c => utf8 c.ord).map UInt8.ofNat := by
  rw [encodePass, List.map_flatMap]

theorem utf8_prefixFree : PrefixFree fun c : CodePoint => utf8 c.ord where
  ne_nil c := by
    unfold utf8
    split_ifs <;> simp
  split h := by
    obtain ⟨hc, ht⟩ := utf8_append_inj (CodePoint.ord_lt _) (CodePoint.ord_lt _) h
    exact ⟨CodePoint.ord_injective hc, ht⟩

/-- A byte string has at most one text. -/
theorem encodePass_injective : Function.Injective encodePass := by
  intro a b h
  rw [encodePass_eq, encodePass_eq] at h
  have hlt : ∀ s : PyStr, ∀ x ∈ s.flatMap (fun c => utf8 c.ord), x < 256 := by
    intro s x hx
    obtain ⟨c, -, hc⟩ := List.mem_flatMap.mp hx
    exact utf8_lt c.ord_lt x hc
  exact utf8_prefixFree.flatMap_injective (map_ofNat_inj (hlt a) (hlt b) h)

theorem encode_inj {a b : PyStr} {x : Bytes} (ha : encode a = some x) (hb : encode b = some x) :
    a = b := by
  unfold encode at ha hb
  split_ifs at ha hb
  exact encodePass_injective ((Option.some.inj ha).trans (Option.some.inj hb).symm)

/-! ## Decoding -/

/-- A continuation byte. -/
def isCont (b : UInt8) : Bool :=
  0x80 ≤ b && b ≤ 0xBF

/-- The code point `n`, when `n` is a scalar value. -/
def ofOrd (n : ℕ) : CodePoint :=
  .scalar (Char.ofNat n)

/-- The second byte of a three byte code: no overlong code, and no surrogate. -/
def second3 (b0 b1 : UInt8) : Bool :=
  isCont b1 && !(b0 == 0xE0 && b1 < 0xA0) && !(b0 == 0xED && 0xA0 ≤ b1)

/-- The second byte of a four byte code: no overlong code, nothing from `0x110000` on. -/
def second4 (b0 b1 : UInt8) : Bool :=
  isCont b1 && !(b0 == 0xF0 && b1 < 0x90) && !(b0 == 0xF4 && 0x90 ≤ b1)

/-- The strict decoder: the text up to the first byte that starts no scalar, and the
bytes from there on. -/
def decodePrefix : Bytes → PyStr × Bytes
  | [] => ([], [])
  | b0 :: rest =>
    if b0 < 0x80 then
      let r := decodePrefix rest
      (ofOrd b0.toNat :: r.1, r.2)
    else
      match rest with
      | b1 :: rest1 =>
        if 0xC2 ≤ b0 && b0 ≤ 0xDF && isCont b1 then
          let r := decodePrefix rest1
          (ofOrd ((b0.toNat - 0xC0) * 64 + (b1.toNat - 0x80)) :: r.1, r.2)
        else
          match rest1 with
          | b2 :: rest2 =>
            if 0xE0 ≤ b0 && b0 ≤ 0xEF && second3 b0 b1 && isCont b2 then
              let r := decodePrefix rest2
              (ofOrd ((b0.toNat - 0xE0) * 4096 + (b1.toNat - 0x80) * 64 + (b2.toNat - 0x80))
                :: r.1, r.2)
            else
              match rest2 with
              | b3 :: rest3 =>
                if 0xF0 ≤ b0 && b0 ≤ 0xF4 && second4 b0 b1 && isCont b2 && isCont b3 then
                  let r := decodePrefix rest3
                  (ofOrd ((b0.toNat - 0xF0) * 262144 + (b1.toNat - 0x80) * 4096 +
                    (b2.toNat - 0x80) * 64 + (b3.toNat - 0x80)) :: r.1, r.2)
                else ([], b0 :: rest)
              | [] => ([], b0 :: rest)
          | [] => ([], b0 :: rest)
      | [] => ([], b0 :: rest)

/-- `bytes.decode("utf-8")`. -/
def decode (b : Bytes) : Option PyStr :=
  match decodePrefix b with
  | (s, []) => some s
  | _ => none

end Py
