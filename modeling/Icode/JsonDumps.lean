import Icode.Json

/-!
# Canonical JSON text

`dumps` is `json.dumps(value, ensure_ascii=False, sort_keys=True,
separators=(",", ":"))`: `render` of the canonical form. A value cannot be
mistaken for another in it: no rendered value is a proper prefix of another one
up to the punctuation that may follow a value (`render_append_inj`), so two
values with one text are the same value (`dumps_inj`).
-/

namespace Py

/-! ## Strings -/

/-- `ESCAPE_DCT`: the escapes of the encoder. -/
def escapeDct (n : ℕ) : Option (List Char) :=
  if n = 0x22 then some ['\\', '"']
  else if n = 0x5C then some ['\\', '\\']
  else if n = 0x0A then some ['\\', 'n']
  else if n = 0x0D then some ['\\', 'r']
  else if n = 0x09 then some ['\\', 't']
  else if n = 0x0C then some ['\\', 'f']
  else if n = 0x08 then some ['\\', 'b']
  else if n < 0x20 then some ['\\', 'u', '0', '0', hexDigit (n / 16), hexDigit (n % 16)]
  else none

/-- One character inside a string literal. -/
def escapeChar (c : CodePoint) : PyStr :=
  match escapeDct c.ord with
  | some s => ofChars s
  | none => [c]

/-- A string literal. -/
def quote (s : PyStr) : PyStr :=
  '"' :: (s.flatMap escapeChar ++ [CodePoint.scalar '"'])

theorem lt_of_escapeDct {n : ℕ} {s : List Char} (h : escapeDct n = some s) : n < 0x5D := by
  unfold escapeDct at h
  split_ifs at h <;> omega

theorem escapeDct_head {n : ℕ} {s : List Char} (h : escapeDct n = some s) :
    ∃ t, s = '\\' :: t := by
  unfold escapeDct at h
  split_ifs at h <;> exact ⟨_, (Option.some.inj h).symm⟩

/-- The code whose escape a text starts with. -/
def readEscape : List Char → Option ℕ
  | '\\' :: 'u' :: _ :: _ :: a :: b :: _ =>
    (List.range 0x20).find? fun n => hexDigit (n / 16) == a && hexDigit (n % 16) == b
  | '\\' :: c :: _ => (List.range 0x5D).find? fun n => escapeDct n == some ['\\', c]
  | _ => none

theorem readEscape_append {n : ℕ} {s : List Char} (h : escapeDct n = some s) (rest : List Char) :
    readEscape (s ++ rest) = some n := by
  have hdigits : ∀ n < 0x20, ((List.range 0x20).find? fun m =>
      hexDigit (m / 16) == hexDigit (n / 16) && hexDigit (m % 16) == hexDigit (n % 16)) =
        some n := by
    decide
  unfold escapeDct at h
  split_ifs at h
  all_goals obtain rfl := Option.some.inj h
  all_goals first
    | exact hdigits n ‹n < 0x20›
    | subst n; rfl

/-- No escape is a prefix of another one. -/
theorem escapeDct_splits : ∀ m < 0x5D, ∀ n < 0x5D, ∀ s ∈ escapeDct m, ∀ t ∈ escapeDct n,
    s <+: t → m = n := by
  rintro m - n - s hs _ ht ⟨rest, rfl⟩
  have hread := readEscape_append ht []
  rw [List.append_nil, readEscape_append hs] at hread
  exact Option.some.inj hread

theorem escapeChar_prefixFree : PrefixFree escapeChar where
  ne_nil c := by
    unfold escapeChar
    cases h : escapeDct c.ord with
    | none => simp
    | some s =>
      obtain ⟨t, rfl⟩ := escapeDct_head h
      simp [ofChars]
  split {c d r s} h := by
    have hback : ∀ (e : CodePoint), escapeDct e.ord = none → e ≠ CodePoint.scalar '\\' := by
      rintro e he rfl
      revert he
      decide
    unfold escapeChar at h
    cases hc : escapeDct c.ord with
    | none =>
      cases hd : escapeDct d.ord with
      | none => simpa [hc, hd] using h
      | some y =>
        obtain ⟨t, rfl⟩ := escapeDct_head hd
        simp [hc, hd, ofChars] at h
        exact absurd h.1 (hback c hc)
    | some x =>
      cases hd : escapeDct d.ord with
      | none =>
        obtain ⟨t, rfl⟩ := escapeDct_head hc
        simp [hc, hd, ofChars] at h
        exact absurd h.1.symm (hback d hd)
      | some y =>
        simp only [hc, hd] at h
        have hx : ofChars x <+: ofChars y ++ s := ⟨r, h⟩
        have hxy : x <+: y ∨ y <+: x := by
          rcases List.prefix_or_prefix_of_prefix hx (List.prefix_append (ofChars y) s) with h | h
          · exact Or.inl ((List.prefix_map_iff_of_injective fun _ _ h => CodePoint.scalar.inj h).mp h)
          · exact Or.inr ((List.prefix_map_iff_of_injective fun _ _ h => CodePoint.scalar.inj h).mp h)
        have hcd : c.ord = d.ord := by
          rcases hxy with hp | hp
          · exact escapeDct_splits _ (lt_of_escapeDct hc) _ (lt_of_escapeDct hd) _ hc _ hd hp
          · exact (escapeDct_splits _ (lt_of_escapeDct hd) _ (lt_of_escapeDct hc) _ hd _ hc hp).symm
        rw [hcd, hd] at hc
        rw [Option.some.inj hc] at h
        exact ⟨CodePoint.ord_injective hcd, by simpa using h⟩

theorem escapeChar_head (c : CodePoint) : (escapeChar c).head? ≠ some ('"' : CodePoint) := by
  unfold escapeChar
  cases h : escapeDct c.ord with
  | none =>
    simp only [List.head?_cons, ne_eq, Option.some.injEq]
    rintro rfl
    revert h
    decide
  | some s =>
    obtain ⟨t, rfl⟩ := escapeDct_head h
    simp [ofChars]

/-- A string literal ends where its closing quote stands. -/
theorem quote_append_inj {a b r s : PyStr} (h : quote a ++ r = quote b ++ s) : a = b ∧ r = s := by
  simp only [quote, List.cons_append, List.append_assoc, List.cons.injEq, true_and,
    List.nil_append] at h
  exact escapeChar_prefixFree.flatMap_append_inj escapeChar_head h

/-! ## Numbers and constants -/

/-- `int.__repr__`. -/
def intText (n : ℤ) : List Char :=
  if n < 0 then '-' :: Nat.toDigits 10 n.natAbs else Nat.toDigits 10 n.natAbs

/-- `floatstr`: the `repr`, or the JavaScript name of a value that has no digits. -/
def floatText (x : PyFloat) : List Char :=
  if x = .nan then ['N', 'a', 'N']
  else if x = .inf false then ['I', 'n', 'f', 'i', 'n', 'i', 't', 'y']
  else if x = .inf true then ['-', 'I', 'n', 'f', 'i', 'n', 'i', 't', 'y']
  else x.repr

/-- The text of a value without quotes and brackets. -/
def scalarText : Json → Option (List Char)
  | .null => some ['n', 'u', 'l', 'l']
  | .bool true => some ['t', 'r', 'u', 'e']
  | .bool false => some ['f', 'a', 'l', 's', 'e']
  | .int n => some (intText n)
  | .float x => some (floatText x)
  | _ => none

/-- A character that no constant or number has. -/
def isPunct (c : Char) : Bool :=
  c == ',' || c == ':' || c == '[' || c == ']' || c == '{' || c == '}' || c == '"'

/-- Every character is a digit or a minus sign. -/
def isIntChar (c : Char) : Bool :=
  c.isDigit || c == '-'

theorem isIntChar_of_mem_intText {n : ℤ} {c : Char} (h : c ∈ intText n) : isIntChar c = true := by
  have hd : ∀ {c}, c ∈ Nat.toDigits 10 n.natAbs → isIntChar c = true := fun h => by
    simp [isIntChar, Nat.isDigit_of_mem_toDigits (by decide) (by decide) h]
  unfold intText at h
  split_ifs at h
  · rcases List.mem_cons.mp h with rfl | h
    · rfl
    · exact hd h
  · exact hd h

theorem toDigits_injective : Function.Injective (Nat.toDigits 10) := by
  intro m n h
  rw [← Nat.ofDigitChars_ten_toDigits (n := m), h, Nat.ofDigitChars_ten_toDigits]

theorem intText_injective : Function.Injective intText := by
  intro m n h
  have hminus : ∀ k : ℕ, ∀ t, Nat.toDigits 10 k ≠ '-' :: t := by
    intro k t hk
    have : '-' ∈ Nat.toDigits 10 k := by rw [hk]; exact List.mem_cons_self
    exact absurd (Nat.isDigit_of_mem_toDigits (by decide) (by decide) this) (by decide)
  unfold intText at h
  split_ifs at h with hm hn hn
  · have := toDigits_injective (List.cons.inj h).2
    omega
  · exact absurd h.symm (hminus _ _)
  · exact absurd h (hminus _ _)
  · have := toDigits_injective h
    omega

/-- The three kinds of texts of a float. -/
theorem floatText_cases (x : PyFloat) :
    (x = .nan ∧ floatText x = ['N', 'a', 'N']) ∨
    (x = .inf false ∧ floatText x = ['I', 'n', 'f', 'i', 'n', 'i', 't', 'y']) ∨
    (x = .inf true ∧ floatText x = ['-', 'I', 'n', 'f', 'i', 'n', 'i', 't', 'y']) ∨
    (floatText x = x.repr ∧ (∀ c ∈ x.repr, isFloatChar c = true) ∧
      ∃ c ∈ x.repr, c = '.' ∨ c = 'e') := by
  unfold floatText
  split_ifs with h1 h2 h3
  · exact Or.inl ⟨h1, rfl⟩
  · exact Or.inr (Or.inl ⟨h2, rfl⟩)
  · exact Or.inr (Or.inr (Or.inl ⟨h3, rfl⟩))
  · refine Or.inr (Or.inr (Or.inr ⟨rfl, ?_⟩))
    have hs := x.shape
    unfold isFloatRepr at hs
    simp only [Bool.or_eq_true, Bool.and_eq_true, List.all_eq_true, List.any_eq_true,
      beq_iff_eq] at hs
    rcases hs with ((hs | hs) | hs) | hs
    · exact hs
    · exact absurd (PyFloat.ext hs) h1
    · exact absurd (PyFloat.ext hs) h2
    · exact absurd (PyFloat.ext hs) h3

theorem floatText_injective : Function.Injective floatText := by
  intro x y h
  have hN : isFloatChar 'N' = false := by decide
  have hI : isFloatChar 'I' = false := by decide
  rcases floatText_cases x with ⟨hx, ex⟩ | ⟨hx, ex⟩ | ⟨hx, ex⟩ | ⟨ex, ax, -⟩ <;>
    rcases floatText_cases y with ⟨hy, ey⟩ | ⟨hy, ey⟩ | ⟨hy, ey⟩ | ⟨ey, ay, -⟩ <;>
      rw [ex, ey] at h
  case inr.inr.inr.inr.inr.inr => exact PyFloat.ext h
  all_goals first
    | (rw [hx, hy]; done)
    | (exact absurd h (by decide))
    | (exfalso; rw [← h] at ay; simp [hN, hI] at ay)
    | (exfalso; rw [h] at ax; simp [hN, hI] at ax)

theorem scalarText_ne_nil {v : Json} {s : List Char} (h : scalarText v = some s) : s ≠ [] := by
  have hdig : ∀ n, Nat.toDigits 10 n ≠ [] := fun n => Nat.toDigits_ne_nil
  cases v with
  | null =>
    obtain rfl := Option.some.inj h
    simp
  | bool b => cases b <;> obtain rfl := Option.some.inj h <;> simp
  | int n =>
    obtain rfl : intText n = s := Option.some.inj h
    unfold intText
    split_ifs
    · simp
    · exact hdig _
  | float x =>
    obtain rfl : floatText x = s := Option.some.inj h
    rcases floatText_cases x with ⟨-, ex⟩ | ⟨-, ex⟩ | ⟨-, ex⟩ | ⟨ex, -, c, hc, -⟩ <;> rw [ex]
    · simp
    · simp
    · simp
    · exact List.ne_nil_of_mem hc
  | str s => simp [scalarText] at h
  | arr xs => simp [scalarText] at h
  | obj ms => simp [scalarText] at h

theorem not_number_of_isPunct {c : Char} (h : isPunct c = true) :
    isIntChar c = false ∧ isFloatChar c = false := by
  simp only [isPunct, Bool.or_eq_true, beq_iff_eq] at h
  rcases h with (((((rfl | rfl) | rfl) | rfl) | rfl) | rfl) | rfl <;> decide

theorem isPunct_of_mem_scalarText {v : Json} {s : List Char} (h : scalarText v = some s) :
    ∀ c ∈ s, isPunct c = false := by
  have hint : ∀ c, isIntChar c = true → isPunct c = false := fun c hc => by
    by_contra hp
    simp [(not_number_of_isPunct (by simpa using hp)).1] at hc
  have hfloat : ∀ c, isFloatChar c = true → isPunct c = false := fun c hc => by
    by_contra hp
    simp [(not_number_of_isPunct (by simpa using hp)).2] at hc
  cases v with
  | null =>
    obtain rfl := Option.some.inj h
    exact List.all_iff_forall_prop.mp (by decide)
  | bool b =>
    cases b <;> obtain rfl := Option.some.inj h <;> exact List.all_iff_forall_prop.mp (by decide)
  | int n =>
    obtain rfl := Option.some.inj h
    exact fun c hc => hint c (isIntChar_of_mem_intText hc)
  | float x =>
    obtain rfl : floatText x = s := Option.some.inj h
    rcases floatText_cases x with ⟨-, ex⟩ | ⟨-, ex⟩ | ⟨-, ex⟩ | ⟨ex, ax, -⟩ <;> rw [ex]
    · exact List.all_iff_forall_prop.mp (by decide)
    · exact List.all_iff_forall_prop.mp (by decide)
    · exact List.all_iff_forall_prop.mp (by decide)
    · exact fun c hc => hfloat c (ax c hc)
  | str s => simp [scalarText] at h
  | arr xs => simp [scalarText] at h
  | obj ms => simp [scalarText] at h

theorem intText_ne_floatText (n : ℤ) (x : PyFloat) : intText n ≠ floatText x := by
  intro h
  have hi : ∀ c ∈ floatText x, isIntChar c = true := h ▸ fun c => isIntChar_of_mem_intText
  rcases floatText_cases x with ⟨-, ex⟩ | ⟨-, ex⟩ | ⟨-, ex⟩ | ⟨ex, -, c, hc, hce⟩
  · exact absurd (hi 'N' (by simp [ex])) (by decide)
  · exact absurd (hi 'I' (by simp [ex])) (by decide)
  · exact absurd (hi 'I' (by simp [ex])) (by decide)
  · have := hi c (by rwa [ex])
    rcases hce with rfl | rfl <;> exact absurd this (by decide)

/-- A constant is no number. -/
theorem ne_of_mem_letters {s : List Char} (hs : 'l' ∈ s ∨ 'r' ∈ s) :
    (∀ n, intText n ≠ s) ∧ ∀ x, floatText x ≠ s := by
  refine ⟨fun n h => ?_, fun x h => ?_⟩
  · subst h
    rcases hs with hs | hs <;> exact absurd (isIntChar_of_mem_intText hs) (by decide)
  · subst h
    rcases floatText_cases x with ⟨-, ex⟩ | ⟨-, ex⟩ | ⟨-, ex⟩ | ⟨ex, ax, -⟩ <;> rw [ex] at hs
    · simp at hs
    · simp at hs
    · simp at hs
    · rcases hs with hs | hs <;> exact absurd (ax _ hs) (by decide)

theorem scalarText_inj {a b : Json} {s : List Char} (ha : scalarText a = some s)
    (hb : scalarText b = some s) : a = b := by
  have hnull := ne_of_mem_letters (s := ['n', 'u', 'l', 'l']) (Or.inl (by simp))
  have htrue := ne_of_mem_letters (s := ['t', 'r', 'u', 'e']) (Or.inr (by simp))
  have hfalse := ne_of_mem_letters (s := ['f', 'a', 'l', 's', 'e']) (Or.inl (by simp))
  have hif := intText_ne_floatText
  have hint := intText_injective
  have hfloat := floatText_injective
  unfold Function.Injective at hint hfloat
  rw [← hb] at ha
  rcases a with _ | (_ | _) | _ | _ | _ | _ | _ <;> rcases b with _ | (_ | _) | _ | _ | _ | _ | _ <;>
    simp only [scalarText, Option.some.injEq, reduceCtorEq] at ha hb <;> grind

/-! ## Values -/

/-- The items after the first one, and the closing bracket. -/
def joinRest (close : CodePoint) : List PyStr → PyStr
  | [] => [close]
  | x :: xs => ',' :: (x ++ joinRest close xs)

/-- `",".join(items)` and the closing bracket. -/
def joinItems (close : CodePoint) : List PyStr → PyStr
  | [] => [close]
  | x :: xs => x ++ joinRest close xs

/-- `", ".join(items)`. -/
def joinComma : List PyStr → PyStr
  | [] => []
  | [x] => x
  | x :: xs => x ++ lit ", " ++ joinComma xs

namespace Json

mutual

/-- The encoder without `sort_keys`. -/
def render : Json → PyStr
  | .null => lit "null"
  | .bool b => lit (if b then "true" else "false")
  | .int n => ofChars (intText n)
  | .float x => ofChars (floatText x)
  | .str s => quote s
  | .arr xs => '[' :: joinItems ']' (renderList xs)
  | .obj ms => '{' :: joinItems '}' (renderMembers ms)

def renderList : List Json → List PyStr
  | [] => []
  | x :: xs => render x :: renderList xs

def renderMembers : Members → List PyStr
  | [] => []
  | (k, x) :: ms => (quote k ++ CodePoint.scalar ':' :: render x) :: renderMembers ms

end

mutual

/-- `json.dumps(value, ensure_ascii=False)`. -/
def dumpsSpaced : Json → PyStr
  | .null => lit "null"
  | .bool b => lit (if b then "true" else "false")
  | .int n => ofChars (intText n)
  | .float x => ofChars (floatText x)
  | .str s => quote s
  | .arr xs => lit "[" ++ joinComma (dumpsSpacedList xs) ++ lit "]"
  | .obj ms => lit "\x7b" ++ joinComma (dumpsSpacedMembers ms) ++ lit "\x7d"

def dumpsSpacedList : List Json → List PyStr
  | [] => []
  | x :: xs => dumpsSpaced x :: dumpsSpacedList xs

def dumpsSpacedMembers : Members → List PyStr
  | [] => []
  | (k, x) :: ms => (quote k ++ lit ": " ++ dumpsSpaced x) :: dumpsSpacedMembers ms

end

/-- `json.dumps(value, ensure_ascii=False, sort_keys=True, separators=(",", ":"))`. -/
def dumps (v : Json) : PyStr :=
  v.canonical.render

/-- `\uXXXX` -/
def unicodeEscape (n : ℕ) : PyStr :=
  ofChars ['\\', 'u', hexDigit (n / 4096), hexDigit (n / 256 % 16), hexDigit (n / 16 % 16),
    hexDigit (n % 16)]

/-- What `ensure_ascii` makes of a character of the text: only strings have any other. -/
def asciiChar (c : CodePoint) : PyStr :=
  let n := c.ord
  if n < 0x7F then [c]
  else if n < 0x10000 then unicodeEscape n
  else unicodeEscape (0xD800 + (n - 0x10000) / 0x400) ++ unicodeEscape (0xDC00 + n % 0x400)

/-- `json.dumps(value, ensure_ascii=True, sort_keys=True, separators=(",", ":"))`. -/
def dumpsAscii (v : Json) : PyStr :=
  v.dumps.flatMap asciiChar

/-- `"key":value`. -/
def renderMember (m : PyStr × Json) : PyStr :=
  quote m.1 ++ CodePoint.scalar ':' :: render m.2

theorem renderList_eq (xs : List Json) : renderList xs = xs.map render := by
  induction xs with
  | nil => rfl
  | cons x xs ih => exact congrArg (render x :: ·) ih

theorem renderMembers_eq (ms : Members) : renderMembers ms = ms.map renderMember := by
  induction ms with
  | nil => rfl
  | cons m ms ih => exact congrArg (renderMember m :: ·) ih

theorem render_str (s : PyStr) : render (.str s) = quote s :=
  rfl

theorem render_arr (xs : List Json) :
    render (.arr xs) = .scalar '[' :: joinItems ']' (xs.map render) := by
  rw [← renderList_eq]
  rfl

theorem render_obj (ms : Members) :
    render (.obj ms) = .scalar '{' :: joinItems '}' (ms.map renderMember) := by
  rw [← renderMembers_eq]
  rfl

theorem render_scalar {v : Json} {s : List Char} (h : scalarText v = some s) :
    render v = ofChars s := by
  cases v with
  | bool b => cases b <;> obtain rfl := Option.some.inj h <;> rfl
  | str s => simp [scalarText] at h
  | arr xs => simp [scalarText] at h
  | obj ms => simp [scalarText] at h
  | _ =>
    obtain rfl := Option.some.inj h
    rfl

/-- The punctuation that may follow a value. -/
def isEnd (c : CodePoint) : Bool :=
  c == .scalar ',' || c == .scalar ']' || c == .scalar '}'

/-- What may follow a value: nothing, a comma or a closing bracket. -/
def Ends (r : PyStr) : Prop :=
  ∀ c ∈ r.head?, isEnd c = true

theorem ends_nil : Ends [] := by
  simp [Ends]

theorem ends_joinRest {close : CodePoint} (hc : close = ']' ∨ close = '}') (xs : List PyStr)
    (r : PyStr) : Ends (joinRest close xs ++ r) := by
  cases xs with
  | nil => rcases hc with rfl | rfl <;> simp [joinRest, Ends, isEnd]
  | cons x xs => simp [joinRest, Ends, isEnd]

section Items

variable {α : Type*} {text : α → PyStr} {close : CodePoint}

/-- Items that end where they end do so in a list. -/
theorem joinRest_append_inj (hc : close = ']' ∨ close = '}') :
    ∀ {xs ys : List α} {r s : PyStr},
      (∀ x ∈ xs, ∀ y r s, Ends r → Ends s → text x ++ r = text y ++ s → x = y ∧ r = s) →
      joinRest close (xs.map text) ++ r = joinRest close (ys.map text) ++ s → xs = ys ∧ r = s
  | [], [], r, s, _, h => ⟨rfl, by simpa [joinRest] using h⟩
  | [], y :: ys, r, s, _, h => by
    rcases hc with rfl | rfl <;> simp [joinRest] at h
  | x :: xs, [], r, s, _, h => by
    rcases hc with rfl | rfl <;> simp [joinRest] at h
  | x :: xs, y :: ys, r, s, hx, h => by
    simp only [joinRest, List.map_cons, List.cons_append, List.append_assoc, List.cons.injEq,
      true_and] at h
    obtain ⟨rfl, ht⟩ := hx x (by simp) y _ _ (ends_joinRest hc _ _) (ends_joinRest hc _ _) h
    obtain ⟨rfl, hr⟩ := joinRest_append_inj hc (fun z hz => hx z (by simp [hz])) ht
    exact ⟨rfl, hr⟩

theorem joinItems_append_inj (hc : close = ']' ∨ close = '}')
    (hhead : ∀ a r, (text a ++ r).head? ≠ some close) {xs ys : List α} {r s : PyStr}
    (hx : ∀ x ∈ xs, ∀ y r s, Ends r → Ends s → text x ++ r = text y ++ s → x = y ∧ r = s)
    (h : joinItems close (xs.map text) ++ r = joinItems close (ys.map text) ++ s) :
    xs = ys ∧ r = s := by
  cases xs with
  | nil =>
    cases ys with
    | nil => exact ⟨rfl, by simpa [joinItems] using h⟩
    | cons y ys =>
      have := hhead y (joinRest close (ys.map text) ++ s)
      simp only [joinItems, List.map_nil, List.map_cons, List.append_assoc] at h
      rw [← h] at this
      simp at this
  | cons x xs =>
    cases ys with
    | nil =>
      have := hhead x (joinRest close (xs.map text) ++ r)
      simp only [joinItems, List.map_nil, List.map_cons, List.append_assoc] at h
      rw [h] at this
      simp at this
    | cons y ys =>
      simp only [joinItems, List.map_cons, List.append_assoc] at h
      obtain ⟨rfl, ht⟩ := hx x (by simp) y _ _ (ends_joinRest hc _ _) (ends_joinRest hc _ _) h
      obtain ⟨rfl, hr⟩ := joinRest_append_inj hc (fun z hz => hx z (by simp [hz])) ht
      exact ⟨rfl, hr⟩

end Items

/-- The bracket or quote that opens a value. -/
def opener : Json → Option CodePoint
  | .str _ => some '"'
  | .arr _ => some '['
  | .obj _ => some '{'
  | _ => none

/-- The opener shows in the text. -/
theorem head_render (v : Json) (r : PyStr) :
    ((render v ++ r).head?.filter fun c => c == .scalar '"' || c == .scalar '[' || c == .scalar '{')
      = opener v := by
  cases hv : scalarText v with
  | some s =>
    obtain ⟨c, t, rfl⟩ := List.exists_cons_of_ne_nil (scalarText_ne_nil hv)
    have hc := isPunct_of_mem_scalarText hv c (by simp)
    have ho : opener v = none := by
      cases v <;> first | rfl | simp [scalarText] at hv
    simp only [isPunct, Bool.or_eq_false_iff, beq_eq_false_iff_ne] at hc
    rw [render_scalar hv, ho]
    simp [ofChars]
    tauto
  | none =>
    cases v with
    | null => simp [scalarText] at hv
    | bool b => cases b <;> simp [scalarText] at hv
    | int n => simp [scalarText] at hv
    | float x => simp [scalarText] at hv
    | str s => simp [render_str, quote, opener]
    | arr xs => simp [render_arr, opener]
    | obj ms => simp [render_obj, opener]

/-- A value does not begin with a closing bracket. -/
theorem head_render_ne (v : Json) (r : PyStr) : (render v ++ r).head? ≠ some (']' : CodePoint) := by
  cases hv : scalarText v with
  | some s =>
    obtain ⟨c, t, rfl⟩ := List.exists_cons_of_ne_nil (scalarText_ne_nil hv)
    have hc := isPunct_of_mem_scalarText hv c (by simp)
    rw [render_scalar hv]
    simp only [ofChars, List.map_cons, List.cons_append, List.head?_cons, ne_eq,
      Option.some.injEq, CodePoint.scalar.injEq]
    rintro rfl
    exact absurd hc (by decide)
  | none =>
    cases v with
    | null => simp [scalarText] at hv
    | bool b => cases b <;> simp [scalarText] at hv
    | int n => simp [scalarText] at hv
    | float x => simp [scalarText] at hv
    | str s => simp [render_str, quote]
    | arr xs => simp [render_arr]
    | obj ms => simp [render_obj]

theorem scalarText_of_opener {v : Json} (h : opener v = none) : ∃ s, scalarText v = some s := by
  cases v with
  | bool b => cases b <;> exact ⟨_, rfl⟩
  | _ => first | exact ⟨_, rfl⟩ | simp [opener] at h

/-- A scalar reaches to the punctuation behind it. -/
theorem takeWhile_scalar {v : Json} {s : List Char} (hv : scalarText v = some s) {r : PyStr}
    (hr : Ends r) : (render v ++ r).takeWhile (fun c => !isEnd c) = render v := by
  rw [render_scalar hv, List.takeWhile_append_of_pos]
  · cases r with
    | nil => simp
    | cons c r => simp [hr c (by simp)]
  · intro c hc
    obtain ⟨d, hd, rfl⟩ := List.mem_map.mp hc
    have := isPunct_of_mem_scalarText hv d hd
    simp only [isPunct, Bool.or_eq_false_iff, beq_eq_false_iff_ne] at this
    simp [isEnd]
    tauto

theorem scalar_append_inj {a b : Json} {x y : List Char} (ha : scalarText a = some x)
    (hb : scalarText b = some y) {r s : PyStr} (hr : Ends r) (hs : Ends s)
    (h : render a ++ r = render b ++ s) : a = b ∧ r = s := by
  have hab : render a = render b := by
    rw [← takeWhile_scalar ha hr, h, takeWhile_scalar hb hs]
  have hxy : x = y := by
    rw [render_scalar ha, render_scalar hb] at hab
    exact ofChars_injective hab
  rw [hab] at h
  exact ⟨scalarText_inj ha (hxy ▸ hb), List.append_cancel_left h⟩

/-- No rendered value is a proper prefix of another one, up to the punctuation that may
follow. -/
theorem render_append_inj (a : Json) : ∀ b r s, Ends r → Ends s →
    render a ++ r = render b ++ s → a = b ∧ r = s := by
  have hsame : ∀ {a b : Json} {r s}, render a ++ r = render b ++ s → opener a = opener b := by
    intro a b r s h
    rw [← head_render a r, h, head_render]
  have hscalar : ∀ {a : Json}, opener a = none → ∀ b r s, Ends r → Ends s →
      render a ++ r = render b ++ s → a = b ∧ r = s := by
    intro a ha b r s hr hs h
    obtain ⟨x, hx⟩ := scalarText_of_opener ha
    obtain ⟨y, hy⟩ := scalarText_of_opener (v := b) (hsame h ▸ ha)
    exact scalar_append_inj hx hy hr hs h
  induction a with
  | null => exact hscalar rfl
  | bool b => exact hscalar rfl
  | int n => exact hscalar rfl
  | float x => exact hscalar rfl
  | str a =>
    intro b r s _ _ h
    have ho := hsame h
    cases b <;> simp only [opener, reduceCtorEq, Option.some.injEq, CodePoint.scalar.injEq,
      Char.reduceEq] at ho
    obtain ⟨rfl, hr⟩ := quote_append_inj h
    exact ⟨rfl, hr⟩
  | arr xs ih =>
    intro b r s _ _ h
    have ho := hsame h
    cases b <;> simp only [opener, reduceCtorEq, Option.some.injEq, CodePoint.scalar.injEq,
      Char.reduceEq] at ho
    simp only [render_arr, List.cons_append, List.cons.injEq, true_and] at h
    obtain ⟨rfl, hr⟩ := joinItems_append_inj (Or.inl rfl) head_render_ne ih h
    exact ⟨rfl, hr⟩
  | obj ms ih =>
    intro b r s _ _ h
    have ho := hsame h
    cases b <;> simp only [opener, reduceCtorEq, Option.some.injEq, CodePoint.scalar.injEq,
      Char.reduceEq] at ho
    simp only [render_obj, List.cons_append, List.cons.injEq, true_and] at h
    have hhead : ∀ (m : PyStr × Json) r,
        (renderMember m ++ r).head? ≠ some (CodePoint.scalar '}') := by
      intro m r
      simp [renderMember, quote]
    have hitem : ∀ m ∈ ms, ∀ n r s, Ends r → Ends s →
        renderMember m ++ r = renderMember n ++ s → m = n ∧ r = s := by
      intro m hm n r s hr hs h
      simp only [renderMember, List.append_assoc, List.cons_append] at h
      obtain ⟨hk, ht⟩ := quote_append_inj h
      obtain ⟨hv, hrs⟩ := ih m hm n.2 r s hr hs (List.cons.inj ht).2
      exact ⟨Prod.ext hk hv, hrs⟩
    obtain ⟨rfl, hr⟩ := joinItems_append_inj (Or.inr rfl) hhead hitem h
    exact ⟨rfl, hr⟩

theorem render_injective : Function.Injective render := by
  intro a b h
  exact (render_append_inj a b [] [] ends_nil ends_nil (by rw [h])).1

/-- Two values with one canonical text are the same value. -/
theorem dumps_inj {a b : Json} : dumps a = dumps b ↔ Same a b :=
  render_injective.eq_iff

end Json

end Py
