import Icode.JsonBudget

/-!
# A value on one line

`dumpBytes` is `json.dumps(value, ensure_ascii=False).encode("utf-8")`, a frame of a protocol whose
messages are lines. It fails for a lone surrogate and for nothing else (`dumpBytes_isSome_iff`), and
it has no line feed (`newline_notMem_dumpBytes`).
-/

namespace Py

/-! ## The characters of a text -/

theorem all_joinComma {p : CodePoint → Bool} (hcomma : p ',' = true) (hspace : p ' ' = true) :
    ∀ xs : List PyStr, (joinComma xs).all p = xs.all fun x => x.all p
  | [] => rfl
  | [x] => by simp [joinComma]
  | x :: y :: xs => by
    have hsep : (lit ", ").all p = true := by
      rw [show lit ", " = [CodePoint.scalar ',', CodePoint.scalar ' '] from rfl]
      simp [hcomma, hspace]
    rw [joinComma, List.all_append, List.all_append, hsep, all_joinComma hcomma hspace (y :: xs),
      Bool.and_true, List.all_cons (a := x)]
    exact List.cons_ne_nil y xs

namespace Json

theorem dumpsSpacedList_eq (xs : List Json) : dumpsSpacedList xs = xs.map dumpsSpaced := by
  induction xs with
  | nil => rfl
  | cons x xs ih => exact congrArg (dumpsSpaced x :: ·) ih

theorem dumpsSpacedMembers_eq (ms : Members) :
    dumpsSpacedMembers ms = ms.map fun m => quote m.1 ++ lit ": " ++ dumpsSpaced m.2 := by
  induction ms with
  | nil => rfl
  | cons m ms ih => exact congrArg ((quote m.1 ++ lit ": " ++ dumpsSpaced m.2) :: ·) ih

theorem dumpsSpaced_str (s : PyStr) : dumpsSpaced (.str s) = quote s :=
  rfl

theorem dumpsSpaced_arr (xs : List Json) :
    dumpsSpaced (.arr xs) = lit "[" ++ joinComma (xs.map dumpsSpaced) ++ lit "]" := by
  rw [← dumpsSpacedList_eq]
  rfl

theorem dumpsSpaced_obj (ms : Members) : dumpsSpaced (.obj ms) = lit "\x7b" ++
    joinComma (ms.map fun m => quote m.1 ++ lit ": " ++ dumpsSpaced m.2) ++ lit "\x7d" := by
  rw [← dumpsSpacedMembers_eq]
  rfl

theorem dumpsSpaced_scalar {v : Json} {s : List Char} (h : scalarText v = some s) :
    dumpsSpaced v = ofChars s := by
  cases v with
  | bool b => cases b <;> obtain rfl := Option.some.inj h <;> rfl
  | str s => simp [scalarText] at h
  | arr xs => simp [scalarText] at h
  | obj ms => simp [scalarText] at h
  | _ =>
    obtain rfl := Option.some.inj h
    rfl

/-- The punctuation between values. -/
def punctuation : List Char :=
  [',', ' ', ':', '[', ']', '\x7b', '\x7d']

section Framing

variable {p : CodePoint → Bool} (hp : ∀ c ∈ punctuation, p (.scalar c) = true)

include hp

theorem all_dumpsSpaced_arr (xs : List Json) :
    (dumpsSpaced (.arr xs)).all p = xs.all fun x => x.dumpsSpaced.all p := by
  have hopen : (lit "[").all p = true := by simpa [lit, ofChars] using hp '[' (by decide)
  have hclose : (lit "]").all p = true := by simpa [lit, ofChars] using hp ']' (by decide)
  rw [dumpsSpaced_arr, List.all_append, List.all_append, hopen, hclose,
    all_joinComma (hp ',' (by decide)) (hp ' ' (by decide))]
  simp [List.all_map, Function.comp_def]

theorem all_dumpsSpaced_obj (ms : Members) :
    (dumpsSpaced (.obj ms)).all p = ms.all fun m => (quote m.1).all p && m.2.dumpsSpaced.all p := by
  have hopen : (lit "\x7b").all p = true := by simpa [lit, ofChars] using hp '\x7b' (by decide)
  have hclose : (lit "\x7d").all p = true := by simpa [lit, ofChars] using hp '\x7d' (by decide)
  have hcolon : (lit ": ").all p = true := by
    simpa [lit, ofChars] using ⟨hp ':' (by decide), hp ' ' (by decide)⟩
  rw [dumpsSpaced_obj, List.all_append, List.all_append, hopen, hclose,
    all_joinComma (hp ',' (by decide)) (hp ' ' (by decide))]
  simp [List.all_map, Function.comp_def, hcolon]

end Framing

/-- An escape has at most six characters. -/
theorem length_quote_le (s : PyStr) : (quote s).length ≤ 6 * s.length + 2 := by
  have hescapes : ∀ n < 0x5D, ∀ s ∈ escapeDct n, s.length ≤ 6 := by decide
  have hchar : ∀ c, (escapeChar c).length ≤ 6 := by
    intro c
    unfold escapeChar
    cases h : escapeDct c.ord with
    | none => simp
    | some s =>
      show (ofChars s).length ≤ 6
      rw [ofChars, List.length_map]
      exact hescapes _ (lt_of_escapeDct h) s h
  have hflat : (s.flatMap escapeChar).length ≤ 6 * s.length := by
    induction s with
    | nil => simp
    | cons c s ih =>
      rw [List.flatMap_cons, List.length_append, List.length_cons]
      have := hchar c
      omega
  rw [quote, List.length_cons, List.length_append, List.length_singleton]
  omega

/-! ## Encoding -/

@[simp] theorem encodable_null : Encodable .null :=
  trivial

@[simp] theorem encodable_bool (b : Bool) : Encodable (.bool b) :=
  trivial

@[simp] theorem encodable_int (n : ℤ) : Encodable (.int n) :=
  trivial

@[simp] theorem encodable_float (x : PyFloat) : Encodable (.float x) :=
  trivial

@[simp] theorem encodable_str {s : PyStr} : Encodable (.str s) ↔ s.all isScalar = true :=
  Iff.rfl

theorem isScalar_punctuation : ∀ c ∈ punctuation, isScalar (.scalar c) = true :=
  fun _ _ => rfl

/-- A dumped value can be encoded when its texts can. -/
theorem all_isScalar_dumpsSpaced {v : Json} :
    v.dumpsSpaced.all isScalar = true ↔ v.Encodable := by
  have hscalar : ∀ {v : Json} {s : List Char}, scalarText v = some s →
      v.dumpsSpaced.all isScalar = true := by
    intro v s hs
    rw [dumpsSpaced_scalar hs]
    exact isScalar_ofChars
  induction v with
  | null => exact iff_of_true (hscalar rfl) trivial
  | bool b => exact iff_of_true (by cases b <;> exact hscalar rfl) trivial
  | int n => exact iff_of_true (hscalar rfl) trivial
  | float x => exact iff_of_true (hscalar rfl) trivial
  | str s =>
    rw [dumpsSpaced_str, all_isScalar_quote]
    rfl
  | arr xs ih =>
    rw [all_dumpsSpaced_arr isScalar_punctuation, List.all_eq_true, encodable_arr]
    exact forall₂_congr ih
  | obj ms ih =>
    rw [all_dumpsSpaced_obj isScalar_punctuation, List.all_eq_true, encodable_obj]
    refine forall₂_congr fun m hm => ?_
    rw [Bool.and_eq_true, all_isScalar_quote]
    exact and_congr_right fun _ => ih m hm

theorem encodable_canonical {v : Json} : v.canonical.Encodable ↔ v.Encodable := by
  induction v with
  | null => exact Iff.rfl
  | bool b => exact Iff.rfl
  | int n => exact Iff.rfl
  | float x => exact Iff.rfl
  | str s => exact Iff.rfl
  | arr xs ih =>
    rw [canonical_arr, encodable_arr, encodable_arr, List.forall_mem_map]
    exact forall₂_congr ih
  | obj ms ih =>
    rw [canonical_obj, encodable_obj, encodable_obj]
    simp only [(Members.sort_perm _).mem_iff, List.forall_mem_map]
    exact forall₂_congr fun m hm => and_congr_right fun _ => ih m hm

/-! ## One line -/

/-- The code point is no line feed. -/
def noLineFeed (c : CodePoint) : Bool :=
  c.ord != 10

theorem noLineFeed_punctuation : ∀ c ∈ punctuation, noLineFeed (.scalar c) = true := by
  simp only [punctuation, List.forall_mem_cons, List.not_mem_nil, false_implies, implies_true]
  exact ⟨rfl, rfl, rfl, rfl, rfl, rfl, rfl, trivial⟩

theorem all_noLineFeed_quote (s : PyStr) : (quote s).all noLineFeed = true := by
  have hquote : noLineFeed (.scalar '"') = true := by decide
  have hescapes : ∀ n < 0x5D, ∀ s ∈ escapeDct n, (ofChars s).all noLineFeed = true := by decide
  have hchar : ∀ c, (escapeChar c).all noLineFeed = true := by
    intro c
    unfold escapeChar
    cases h : escapeDct c.ord with
    | none =>
      have hne : c.ord ≠ 10 := by
        intro h10
        rw [h10] at h
        exact absurd h (by decide)
      simpa [noLineFeed] using hne
    | some s => exact hescapes _ (lt_of_escapeDct h) s h
  simp [quote, hquote, List.all_flatMap, hchar]

theorem all_noLineFeed_scalar {v : Json} {s : List Char} (h : scalarText v = some s) :
    (ofChars s).all noLineFeed = true := by
  have hchars : ∀ {s : List Char} {p : Char → Bool}, (∀ c ∈ s, p c = true) →
      p (Char.ofNat 10) = false → (ofChars s).all noLineFeed = true := by
    intro s p hs hp
    refine List.all_eq_true.mpr fun d hd => ?_
    obtain ⟨c, hc, rfl⟩ := List.mem_map.mp hd
    have hne : c ≠ Char.ofNat 10 := by
      rintro rfl
      rw [hs _ hc] at hp
      cases hp
    simp only [noLineFeed, CodePoint.ord, bne_iff_ne, ne_eq]
    exact fun h10 => hne (Char.toNat_inj.mp h10)
  cases v with
  | null =>
    obtain rfl := Option.some.inj h
    decide
  | bool b => cases b <;> obtain rfl := Option.some.inj h <;> decide
  | int n =>
    obtain rfl := Option.some.inj h
    exact hchars (fun c => isIntChar_of_mem_intText) (by decide)
  | float x =>
    obtain rfl : floatText x = s := Option.some.inj h
    rcases floatText_cases x with ⟨-, ex⟩ | ⟨-, ex⟩ | ⟨-, ex⟩ | ⟨ex, hx, -⟩
    · rw [ex]
      decide
    · rw [ex]
      decide
    · rw [ex]
      decide
    · rw [ex]
      exact hchars hx (by decide)
  | str s => simp [scalarText] at h
  | arr xs => simp [scalarText] at h
  | obj ms => simp [scalarText] at h

theorem all_noLineFeed_dumpsSpaced (v : Json) : v.dumpsSpaced.all noLineFeed = true := by
  have hscalar : ∀ {v : Json} {s : List Char}, scalarText v = some s →
      v.dumpsSpaced.all noLineFeed = true := by
    intro v s hs
    rw [dumpsSpaced_scalar hs]
    exact all_noLineFeed_scalar hs
  induction v with
  | null => exact hscalar rfl
  | bool b => cases b <;> exact hscalar rfl
  | int n => exact hscalar rfl
  | float x => exact hscalar rfl
  | str s => exact all_noLineFeed_quote s
  | arr xs ih =>
    rw [all_dumpsSpaced_arr noLineFeed_punctuation]
    exact List.all_eq_true.mpr ih
  | obj ms ih =>
    rw [all_dumpsSpaced_obj noLineFeed_punctuation]
    refine List.all_eq_true.mpr fun m hm => ?_
    rw [all_noLineFeed_quote, ih m hm, Bool.and_self]

/-- A line feed is a byte of no other code point. -/
theorem ten_mem_utf8 {n : ℕ} (h : 10 ∈ utf8 n) : n = 10 := by
  unfold utf8 at h
  split_ifs at h <;> simp only [List.mem_cons, List.not_mem_nil, or_false] at h <;> omega

/-- `json.dumps(value, ensure_ascii=False).encode("utf-8")`. -/
def dumpBytes (v : Json) : Option Bytes :=
  encode v.dumpsSpaced

theorem dumpBytes_isSome_iff {v : Json} : (∃ b, v.dumpBytes = some b) ↔ v.Encodable := by
  simp only [dumpBytes, encode_eq_some, exists_and_left, exists_eq, and_true,
    all_isScalar_dumpsSpaced]

theorem newline_notMem_dumpBytes {v : Json} {b : Bytes} (h : v.dumpBytes = some b) :
    (10 : UInt8) ∉ b := by
  obtain ⟨-, rfl⟩ := encode_eq_some.mp h
  intro hmem
  obtain ⟨c, hc, hb⟩ := List.mem_flatMap.mp hmem
  obtain ⟨n, hn, hn10⟩ := List.mem_map.mp hb
  have hlt : n < 256 := utf8_lt c.ord_lt n hn
  have h10 : n = 10 := by
    have := congrArg UInt8.toNat hn10
    rwa [UInt8.toNat_ofNat', Nat.mod_eq_of_lt hlt] at this
  have hno := List.all_eq_true.mp (all_noLineFeed_dumpsSpaced v) c hc
  rw [noLineFeed, bne_iff_ne] at hno
  exact hno (ten_mem_utf8 (h10 ▸ hn))

end Json

end Py
