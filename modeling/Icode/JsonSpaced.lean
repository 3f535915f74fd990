import Icode.JsonLine

/-!
# Reading back a value on one line

`dumpsSpaced` writes a blank after every comma and colon. The lexer passes over it, so the text has
the tokens of the value (`lexWith_dumpsSpaced`), and `loads` gives the value back
(`loads_dumpsSpaced`).

The encoder escapes no character from the blank on but two, so a text keeps what stands in its
strings (`all_quote_iff`).
-/

namespace Py

/-! ## The tokens -/

section Lexer

variable {words : List Char → List Token}

/-- A closing bracket ends what stands before it. -/
theorem stops_close {close : Char} (hclose : close = ']' ∨ close = '}') (r : PyStr) :
    Stops (.scalar close :: r) := by
  rcases hclose with rfl | rfl <;> simp [Stops, isWordChar, punctToken, isJsonSpace]

/-- A comma ends what stands before it. -/
theorem stops_comma (r : PyStr) : Stops (lit ", " ++ r) := by
  rw [show lit ", " = [CodePoint.scalar ',', CodePoint.scalar ' '] from rfl]
  simp [Stops, isWordChar, punctToken, isJsonSpace]

theorem lexWith_commaSpace (r : PyStr) :
    lexWith words .idle (lit ", " ++ r) = .comma :: lexWith words .idle r := by
  rw [show lit ", " = [CodePoint.scalar ',', CodePoint.scalar ' '] from rfl, List.cons_append,
    lexWith_comma, List.cons_append, lexWith_space (by decide), List.nil_append]

theorem lexWith_colonSpace (r : PyStr) :
    lexWith words .idle (lit ": " ++ r) = .colon :: lexWith words .idle r := by
  rw [show lit ": " = [CodePoint.scalar ':', CodePoint.scalar ' '] from rfl, List.cons_append,
    lexWith_colon, List.cons_append, lexWith_space (by decide), List.nil_append]

/-- The items between two brackets. -/
theorem lexWith_joinComma {α : Type*} {text : α → PyStr} {toks : α → List Token} {close : Char}
    {t : Token} (hclose : close = ']' ∨ close = '}')
    (ht : ∀ r, lexWith words .idle (.scalar close :: r) = t :: lexWith words .idle r) (r : PyStr) :
    ∀ {xs : List α}, (∀ x ∈ xs, ∀ r, Stops r →
      lexWith words .idle (text x ++ r) = toks x ++ lexWith words .idle r) →
      lexWith words .idle (joinComma (xs.map text) ++ .scalar close :: r) =
        tokenItems t (xs.map toks) ++ lexWith words .idle r
  | [], _ => by simpa [joinComma, tokenItems] using ht r
  | [x], h => by
    simp only [List.map_cons, List.map_nil, joinComma, tokenItems, tokenRest, List.append_assoc]
    rw [h x (by simp) _ (stops_close hclose r), ht]
    rfl
  | x :: y :: xs, h => by
    have ih := lexWith_joinComma hclose ht r fun z hz => h z (List.mem_cons_of_mem x hz)
    simp only [List.map_cons, tokenItems, tokenRest, List.append_assoc] at ih ⊢
    rw [joinComma, List.append_assoc, List.append_assoc, h x (by simp) _ (stops_comma _),
      lexWith_commaSpace, ih]
    · rw [List.cons_append, List.append_assoc]
    · simp

end Lexer

namespace Json

section Words

variable (words : List Char → List Token)

/-- A value on one line lexes to its tokens. -/
theorem lexWith_dumpsSpaced (v : Json) : ∀ r, Stops r →
    lexWith words .idle (v.dumpsSpaced ++ r) = tokensWith words v ++ lexWith words .idle r := by
  have hscalar : ∀ {v : Json} {s : List Char}, scalarText v = some s → ∀ r, Stops r →
      lexWith words .idle (v.dumpsSpaced ++ r) = tokensWith words v ++ lexWith words .idle r := by
    intro v s hs r hr
    rw [dumpsSpaced_scalar hs, lexWith_scalar hs hr, tokensWith_scalar words hs]
  induction v with
  | null => exact hscalar rfl
  | bool b => cases b <;> exact hscalar rfl
  | int n => exact hscalar rfl
  | float x => exact hscalar rfl
  | str s => exact fun r _ => lexWith_quote s r
  | arr xs ih =>
    intro r _
    rw [dumpsSpaced_arr, tokensWith_arr, List.append_assoc, List.append_assoc]
    change lexWith words .idle (.scalar '[' :: (_ ++ .scalar ']' :: r)) = _
    rw [lexWith_lbrack, lexWith_joinComma (Or.inl rfl) lexWith_rbrack r ih]
    rfl
  | obj ms ih =>
    intro r _
    have hmember : ∀ m ∈ ms, ∀ r, Stops r →
        lexWith words .idle ((quote m.1 ++ lit ": " ++ m.2.dumpsSpaced) ++ r) =
          memberTokensWith words m ++ lexWith words .idle r := by
      intro m hm r hr
      rw [List.append_assoc, List.append_assoc, lexWith_quote, lexWith_colonSpace, ih m hm r hr]
      rfl
    rw [dumpsSpaced_obj, tokensWith_obj, List.append_assoc, List.append_assoc]
    change lexWith words .idle (.scalar '\x7b' :: (_ ++ .scalar '\x7d' :: r)) = _
    rw [lexWith_lbrace, lexWith_joinComma (Or.inr rfl) lexWith_rbrace r hmember]
    rfl

end Words

/-- What was written on one line is loaded again. -/
theorem loads_dumpsSpaced {v : Json} (hwf : v.WF) (hplain : v.Plain) :
    loads v.dumpsSpaced = .ok v := by
  have hlex : lex .idle v.dumpsSpaced = v.tokens := by
    have h := lexWith_dumpsSpaced wordTokens v [] (stops_of_ends ends_nil)
    rw [List.append_nil, ← lex_eq_lexWith, ← lex_eq_lexWith, tokensWith_wordTokens v hplain] at h
    simpa [lex] using h
  have hparse : parseTokens ⟨[], .value⟩ v.tokens = .ok ⟨[], .done v⟩ := by
    simpa [valueDone, parseTokens] using parseTokens_tokens v hwf [] []
  rw [loads, hlex, hparse]
  rfl

/-! ## The characters of a text -/

/-- The predicate holds of the ASCII characters that are printed. -/
def HoldsPrinted (p : CodePoint → Bool) : Prop :=
  ∀ c : Char, 0x20 ≤ c.toNat → c.toNat < 0x7F → p (.scalar c) = true

/-- An ASCII character that is printed. -/
def isPrinted (c : Char) : Bool :=
  0x20 ≤ c.toNat && c.toNat < 0x7F

theorem isPrinted_iff {c : Char} : isPrinted c = true ↔ 0x20 ≤ c.toNat ∧ c.toNat < 0x7F := by
  rw [isPrinted, Bool.and_eq_true, decide_eq_true_iff, decide_eq_true_iff]

section Printed

variable {p : CodePoint → Bool} (hp : HoldsPrinted p)

include hp

theorem all_of_printed {s : List Char} (h : s.all isPrinted = true) :
    (ofChars s).all p = true := by
  refine List.all_eq_true.mpr fun d hd => ?_
  obtain ⟨c, hc, rfl⟩ := List.mem_map.mp hd
  obtain ⟨hle, hlt⟩ := (isPrinted_iff).mp (List.all_eq_true.mp h c hc)
  exact hp c hle hlt

theorem punctuation_of_printed : ∀ c ∈ punctuation, p (.scalar c) = true := by
  have hprinted : punctuation.all isPrinted = true := by decide
  intro c hc
  obtain ⟨hle, hlt⟩ := (isPrinted_iff).mp (List.all_eq_true.mp hprinted c hc)
  exact hp c hle hlt

/-- A literal has what its string has from the blank on. -/
theorem all_quote_iff {s : PyStr} :
    (quote s).all p = true ↔ ∀ c ∈ s, 0x20 ≤ c.ord → p c = true := by
  have hquote : p (.scalar '"') = true := hp '"' (by decide) (by decide)
  have hescapes : ∀ n < 0x5D, (escapeDct n).all (·.all isPrinted) = true := by decide
  have hescaped : ∀ c : CodePoint, (escapeDct c.ord).isSome = true → 0x20 ≤ c.ord → p c = true := by
    intro c hsome hle
    have hcases : c.ord = 0x22 ∨ c.ord = 0x5C := by
      unfold escapeDct at hsome
      split_ifs at hsome <;> first | omega | cases hsome
    rcases hcases with h | h
    · rw [eq_scalar_of_ord h (by decide)]
      exact hp _ (by decide) (by decide)
    · rw [eq_scalar_of_ord h (by decide)]
      exact hp _ (by decide) (by decide)
  have hcontrol : ∀ c : CodePoint, escapeDct c.ord = none → 0x20 ≤ c.ord := by
    intro c hnone
    unfold escapeDct at hnone
    split_ifs at hnone
    omega
  have hchar : ∀ c, (escapeChar c).all p = true ↔ (0x20 ≤ c.ord → p c = true) := by
    intro c
    unfold escapeChar
    cases h : escapeDct c.ord with
    | none =>
      have hle := hcontrol c h
      simp [hle]
    | some s =>
      have hprinted := hescapes _ (lt_of_escapeDct h)
      rw [h, Option.all_some] at hprinted
      exact iff_of_true (all_of_printed hp hprinted) (hescaped c (by rw [h]; rfl))
  rw [quote, List.all_cons, hquote, Bool.true_and, List.all_append, List.all_flatMap,
    Bool.and_eq_true, List.all_cons, hquote, List.all_nil, List.all_eq_true]
  simp only [hchar, Bool.and_self, and_true]

theorem all_intText (n : ℤ) : (ofChars (intText n)).all p = true := by
  refine all_of_printed hp (List.all_eq_true.mpr fun c hc => (isPrinted_iff).mpr ?_)
  have h := isIntChar_of_mem_intText hc
  simp only [isIntChar, Char.isDigit, Bool.or_eq_true, Bool.and_eq_true, decide_eq_true_eq,
    beq_iff_eq] at h
  rcases h with ⟨h0, h9⟩ | rfl
  · have h0' : 48 ≤ c.toNat := UInt32.le_iff_toNat_le.mp h0
    have h9' : c.toNat ≤ 57 := UInt32.le_iff_toNat_le.mp h9
    omega
  · decide

end Printed

mutual

/-- The strings of a value, with the names. -/
def texts : Json → List PyStr
  | .str s => [s]
  | .arr xs => textsList xs
  | .obj ms => textsMembers ms
  | _ => []

def textsList : List Json → List PyStr
  | [] => []
  | x :: xs => texts x ++ textsList xs

def textsMembers : Members → List PyStr
  | [] => []
  | (k, x) :: ms => k :: (texts x ++ textsMembers ms)

end

theorem texts_str (s : PyStr) : texts (.str s) = [s] :=
  rfl

theorem texts_arr (xs : List Json) : texts (.arr xs) = xs.flatMap texts := by
  show textsList xs = _
  induction xs with
  | nil => rfl
  | cons x xs ih => exact congrArg (texts x ++ ·) ih

theorem texts_obj (ms : Members) : texts (.obj ms) = ms.flatMap fun m => m.1 :: m.2.texts := by
  show textsMembers ms = _
  induction ms with
  | nil => rfl
  | cons m ms ih => exact congrArg (fun ts => m.1 :: (m.2.texts ++ ts)) ih

/-- The characters of a text are those of its strings, and printed ones. -/
theorem all_dumpsSpaced_iff {p : CodePoint → Bool} (hp : HoldsPrinted p) {v : Json} :
    v.Plain → (v.dumpsSpaced.all p = true ↔ ∀ s ∈ v.texts, ∀ c ∈ s, 0x20 ≤ c.ord → p c = true) := by
  have hword : ∀ w : String, w.toList.all isPrinted = true → (lit w).all p = true :=
    fun w => all_of_printed hp
  induction v with
  | null => exact fun _ => iff_of_true (hword _ (by decide)) (List.forall_mem_nil _)
  | bool b =>
    intro _
    refine iff_of_true ?_ (List.forall_mem_nil _)
    cases b <;> exact hword _ (by decide)
  | int n => exact fun _ => iff_of_true (all_intText hp n) (List.forall_mem_nil _)
  | float x => exact False.elim
  | str s =>
    intro _
    rw [dumpsSpaced_str, all_quote_iff hp, texts_str, List.forall_mem_singleton]
  | arr xs ih =>
    intro h
    rw [plain_arr] at h
    rw [all_dumpsSpaced_arr (punctuation_of_printed hp), List.all_eq_true, texts_arr,
      List.forall_mem_flatMap]
    exact forall₂_congr fun x hx => ih x hx (h x hx)
  | obj ms ih =>
    intro h
    rw [plain_obj] at h
    rw [all_dumpsSpaced_obj (punctuation_of_printed hp), List.all_eq_true, texts_obj,
      List.forall_mem_flatMap]
    refine forall₂_congr fun m hm => ?_
    rw [Bool.and_eq_true, all_quote_iff hp, ih m hm (h m hm), List.forall_mem_cons]

end Json

end Py
