import Icode.JsonLoads
import Mathlib.Data.List.TakeWhile

/-!
# Reading back canonical JSON

`tokens` is the list of tokens of a value. A rendered value lexes to its tokens
(`lex_render`), and its tokens parse to it (`parseTokens_tokens`), so `loads` gives
back what `render` and `dumps` wrote (`loads_render`, `loads_dumps`), for values
whose numbers are integers within the limit of `int` (`Plain`).

Readers differ in what a word is, so the lexer is taken with the tokens of a word as a
parameter (`lexWith`), and `lexWith_render` holds for every one of them.
-/

namespace Py

/-! ## Tokens of a value -/

/-- The items after the first one, and the closing bracket. -/
def tokenRest (close : Token) : List (List Token) → List Token
  | [] => [close]
  | x :: xs => .comma :: (x ++ tokenRest close xs)

def tokenItems (close : Token) : List (List Token) → List Token
  | [] => [close]
  | x :: xs => x ++ tokenRest close xs

namespace Json

mutual

/-- The tokens of the text of a value. -/
def tokens : Json → List Token
  | .null => [.null]
  | .bool b => [.bool b]
  | .int n => [.int n]
  | .float x => [.float x]
  | .str s => [.str s]
  | .arr xs => .lbrack :: tokenItems .rbrack (tokensList xs)
  | .obj ms => .lbrace :: tokenItems .rbrace (tokensMembers ms)

def tokensList : List Json → List (List Token)
  | [] => []
  | x :: xs => tokens x :: tokensList xs

def tokensMembers : Members → List (List Token)
  | [] => []
  | (k, x) :: ms => (.str k :: .colon :: tokens x) :: tokensMembers ms

end

/-- The tokens of a member. -/
def memberTokens (m : PyStr × Json) : List Token :=
  .str m.1 :: .colon :: tokens m.2

theorem tokensList_eq (xs : List Json) : tokensList xs = xs.map tokens := by
  induction xs with
  | nil => rfl
  | cons x xs ih => simp [tokensList, ih]

theorem tokensMembers_eq (ms : Members) : tokensMembers ms = ms.map memberTokens := by
  induction ms with
  | nil => rfl
  | cons m ms ih => simp [tokensMembers, ih, memberTokens]

theorem tokens_arr (xs : List Json) :
    tokens (.arr xs) = .lbrack :: tokenItems .rbrack (xs.map tokens) := by
  rw [← tokensList_eq]
  rfl

theorem tokens_obj (ms : Members) :
    tokens (.obj ms) = .lbrace :: tokenItems .rbrace (ms.map memberTokens) := by
  rw [← tokensMembers_eq]
  rfl

mutual

/-- Every number is an integer that `int` reads. -/
def Plain : Json → Prop
  | .int n => (Nat.toDigits 10 n.natAbs).length ≤ intMaxStrDigits
  | .float _ => False
  | .arr xs => PlainList xs
  | .obj ms => PlainMembers ms
  | _ => True

def PlainList : List Json → Prop
  | [] => True
  | x :: xs => Plain x ∧ PlainList xs

def PlainMembers : Members → Prop
  | [] => True
  | (_, x) :: ms => Plain x ∧ PlainMembers ms

end

@[simp] theorem plain_arr {xs : List Json} : Plain (.arr xs) ↔ ∀ x ∈ xs, Plain x := by
  rw [Plain]
  induction xs with
  | nil => simp [PlainList]
  | cons x xs ih => simp [PlainList, ih]

@[simp] theorem plain_obj {ms : Members} : Plain (.obj ms) ↔ ∀ m ∈ ms, Plain m.2 := by
  rw [Plain]
  induction ms with
  | nil => simp [PlainMembers]
  | cons m ms ih => simp [PlainMembers, ih]

end Json

/-! ## The lexer -/

open Json

section Lexer

variable {words : List Char → List Token}

/-- `lexStep`, with the tokens of a word as a parameter. -/
def lexStepWith (words : List Char → List Token) : LexState → CodePoint → List Token × LexState
  | .word w, c =>
    if isJsonSpace c || c == .scalar '"' || (punctToken c).isSome then
      (words w ++ (lexIdle c).1, (lexIdle c).2)
    else ([], .word (w ++ [c.toChar]))
  | st, c => lexStep st c

theorem lexStepWith_idle (c : CodePoint) : lexStepWith words .idle c = lexIdle c :=
  rfl

theorem lexStepWith_word (w : List Char) (c : CodePoint) : lexStepWith words (.word w) c =
    if isJsonSpace c || c == .scalar '"' || (punctToken c).isSome then
      (words w ++ (lexIdle c).1, (lexIdle c).2)
    else ([], .word (w ++ [c.toChar])) :=
  rfl

theorem lexStepWith_inString (us : List StrUnit) (c : CodePoint) :
    lexStepWith words (.inString us) c =
      if c = '"' then ([.str (joinUnits none us)], .idle)
      else if c = '\\' then ([], .escape us)
      else if c.ord < 0x20 then ([.bad .decode], .idle)
      else ([], .inString (us ++ [⟨c, false⟩])) :=
  rfl

theorem lexStepWith_escape {us : List StrUnit} {c : CodePoint} (hc : c ≠ 'u') {d : Char}
    (hd : simpleEscape c = some d) :
    lexStepWith words (.escape us) c = ([], .inString (us ++ [⟨.scalar d, false⟩])) := by
  show lexStep (.escape us) c = _
  rw [lexStep, if_neg hc, hd]

theorem lexStepWith_unicode (us : List StrUnit) :
    lexStepWith words (.escape us) (.scalar 'u') = ([], .hex us 0 0) :=
  rfl

theorem lexStepWith_hex {us : List StrUnit} {count value d : ℕ} {c : CodePoint}
    (hd : hexValue c = some d) : lexStepWith words (.hex us count value) c =
      if count = 3 then ([], .inString (us ++ [⟨ofUnit (value * 16 + d), true⟩]))
      else ([], .hex us (count + 1) (value * 16 + d)) := by
  show lexStep (.hex us count value) c = _
  rw [lexStep, hd]

/-- `lex`, with the tokens of a word as a parameter. -/
def lexWith (words : List Char → List Token) : LexState → PyStr → List Token
  | .idle, [] => []
  | .word w, [] => words w
  | _, [] => [.bad .decode]
  | st, c :: cs => (lexStepWith words st c).1 ++ lexWith words (lexStepWith words st c).2 cs

theorem lexWith_cons (st : LexState) (c : CodePoint) (cs : PyStr) :
    lexWith words st (c :: cs) =
      (lexStepWith words st c).1 ++ lexWith words (lexStepWith words st c).2 cs := by
  cases st <;> rfl

theorem lexStep_eq_lexStepWith (st : LexState) (c : CodePoint) :
    lexStep st c = lexStepWith wordTokens st c := by
  cases st <;> rfl

theorem lex_eq_lexWith (st : LexState) (s : PyStr) : lex st s = lexWith wordTokens st s := by
  induction s generalizing st with
  | nil => cases st <;> rfl
  | cons c s ih =>
    rw [lexWith_cons, ← lexStep_eq_lexStepWith, ← ih]
    cases st <;> rfl

/-! ## Strings -/

/-- What the lexer keeps of a character the encoder wrote. -/
def unitOf (c : CodePoint) : StrUnit :=
  ⟨c, match escapeDct c.ord with
    | some ['\\', 'u', _, _, _, _] => true
    | _ => false⟩

theorem hexValue_hexDigit : ∀ k < 16, hexValue (hexDigit k) = some k := by
  decide

theorem eq_scalar_of_ord {c : CodePoint} {n : ℕ} (h : c.ord = n) (hn : n < 0xD800) :
    c = .scalar (Char.ofNat n) := by
  cases c with
  | scalar d =>
    subst h
    simp [CodePoint.ord, Char.ofNat_toNat]
  | surrogate s =>
    simp only [CodePoint.ord] at h
    omega

theorem lexStepWith_backslash (us : List StrUnit) :
    lexStepWith words (.inString us) (.scalar '\\') = ([], .escape us) :=
  rfl

/-- An escape of the form `\u00XX` is read back. -/
theorem lexWith_hexEscape {us : List StrUnit} {n : ℕ} (hn : n < 0x20) (r : PyStr) :
    lexWith words (.inString us)
        (ofChars ['\\', 'u', '0', '0', hexDigit (n / 16), hexDigit (n % 16)] ++ r) =
      lexWith words (.inString (us ++ [⟨.scalar (Char.ofNat n), true⟩])) r := by
  have h0 : hexValue (.scalar '0') = some 0 := by decide
  have hhi : hexValue (.scalar (hexDigit (n / 16))) = some (n / 16) :=
    hexValue_hexDigit _ (by omega)
  have hlo : hexValue (.scalar (hexDigit (n % 16))) = some (n % 16) :=
    hexValue_hexDigit _ (by omega)
  have hunit : ofUnit (n / 16 * 16 + n % 16) = .scalar (Char.ofNat n) := by
    rw [Nat.div_add_mod', ofUnit, dif_neg (by omega)]
  simp [ofChars, lexWith_cons, lexStepWith_backslash, lexStepWith_unicode, lexStepWith_hex h0,
    lexStepWith_hex hhi, lexStepWith_hex hlo, hunit]

/-- A character the encoder wrote is read back. -/
theorem lexWith_escapeChar (us : List StrUnit) (c : CodePoint) (r : PyStr) :
    lexWith words (.inString us) (escapeChar c ++ r) =
      lexWith words (.inString (us ++ [unitOf c])) r := by
  have hsimple : ∀ (e d : Char) (n : ℕ), c.ord = n → n < 0xD800 → Char.ofNat n = d →
      (CodePoint.scalar e ≠ .scalar 'u') → simpleEscape e = some d →
      lexWith words (.inString us) (ofChars ['\\', e] ++ r) =
        lexWith words (.inString (us ++ [⟨c, false⟩])) r := by
    intro e d n hc hn hd hu he
    rw [eq_scalar_of_ord hc hn, hd]
    simp only [ofChars, List.map_cons, List.map_nil, List.cons_append, List.nil_append,
      lexWith_cons, lexStepWith_backslash, lexStepWith_escape hu he]
  unfold escapeChar unitOf
  unfold escapeDct
  split_ifs with h1 h2 h3 h4 h5 h6 h7 h8
  · exact hsimple '"' '"' _ h1 (by decide) rfl (by decide) rfl
  · exact hsimple '\\' '\\' _ h2 (by decide) rfl (by decide) rfl
  · exact hsimple 'n' '\n' _ h3 (by decide) rfl (by decide) rfl
  · exact hsimple 'r' '\r' _ h4 (by decide) rfl (by decide) rfl
  · exact hsimple 't' '\t' _ h5 (by decide) rfl (by decide) rfl
  · exact hsimple 'f' _ _ h6 (by decide) rfl (by decide) rfl
  · exact hsimple 'b' _ _ h7 (by decide) rfl (by decide) rfl
  · dsimp only
    rw [lexWith_hexEscape h8, ← eq_scalar_of_ord rfl (by omega)]
    rfl
  · have hq : c ≠ .scalar '"' := fun h => h1 (by rw [h]; rfl)
    have hb : c ≠ .scalar '\\' := fun h => h2 (by rw [h]; rfl)
    rw [List.cons_append, List.nil_append, lexWith_cons, lexStepWith_inString, if_neg hq,
      if_neg hb, if_neg h8, List.nil_append]

theorem lexWith_quoted : ∀ (s : PyStr) (us : List StrUnit) (r : PyStr),
    lexWith words (.inString us) (s.flatMap escapeChar ++ .scalar '"' :: r) =
      .str (joinUnits none (us ++ s.map unitOf)) :: lexWith words .idle r
  | [], us, r => by simp [lexWith_cons, lexStepWith_inString]
  | c :: s, us, r => by
    rw [List.flatMap_cons, List.append_assoc, lexWith_escapeChar, lexWith_quoted s]
    simp

/-- A character that was written as an escape is no surrogate. -/
theorem unitOf_fromHex {c : CodePoint} (h : (unitOf c).fromHex = true) : c.ord < 0x20 := by
  unfold unitOf escapeDct at h
  dsimp only at h
  split_ifs at h with h1 h2 h3 h4 h5 h6 h7 h8
  all_goals first | exact h8 | simp at h

theorem joinUnits_unitOf : ∀ s : PyStr, joinUnits none (s.map unitOf) = s
  | [] => rfl
  | .scalar c :: s => by
    have hu : unitOf (.scalar c) = ⟨.scalar c, (unitOf (.scalar c)).fromHex⟩ := rfl
    rw [List.map_cons, hu]
    cases (unitOf (.scalar c)).fromHex <;> simp [joinUnits, joinUnits_unitOf s]
  | .surrogate n :: s => by
    have hfalse : (unitOf (.surrogate n)).fromHex = false := by
      rw [← Bool.not_eq_true]
      intro h
      have := unitOf_fromHex h
      simp only [CodePoint.ord] at this
      omega
    have hu : unitOf (.surrogate n) = ⟨.surrogate n, false⟩ := by
      rw [← hfalse]
      rfl
    rw [List.map_cons, hu]
    simp [joinUnits, joinUnits_unitOf s]

/-- A string literal lexes to its text, whatever follows. -/
theorem lexWith_quote (s r : PyStr) :
    lexWith words .idle (quote s ++ r) = .str s :: lexWith words .idle r := by
  have hopen : lexIdle (.scalar '"') = ([], .inString []) := by simp [lexIdle, isJsonSpace]
  have hstep : lexStepWith words .idle (.scalar '"') = ([], .inString []) := hopen
  rw [quote, List.cons_append, List.append_assoc, lexWith_cons, hstep, List.singleton_append,
    List.nil_append, lexWith_quoted s [], List.nil_append, joinUnits_unitOf]

/-! ## Words -/

theorem all_isDigit_toDigits (k : ℕ) : (Nat.toDigits 10 k).all Char.isDigit = true := by
  rw [List.all_eq_true]
  exact fun c hc => Nat.isDigit_of_mem_toDigits (by decide) (by decide) hc

/-- The digits of a positive number do not begin with a zero. -/
theorem toDigits_head : ∀ {k : ℕ}, 0 < k → ∃ c t, Nat.toDigits 10 k = c :: t ∧ c ≠ '0' := by
  intro k
  induction k using Nat.strong_induction_on with
  | _ k ih =>
    intro hk
    by_cases hlt : k < 10
    · have h : ∀ m : ℕ, m < 10 → 0 < m → m.digitChar ≠ '0' := by decide
      exact ⟨_, [], Nat.toDigits_of_lt_base hlt, h k hlt hk⟩
    · obtain ⟨c, t, ht, hc⟩ := ih (k / 10) (by omega) (by omega)
      refine ⟨c, t ++ [(k % 10).digitChar], ?_, hc⟩
      rw [Nat.toDigits_of_base_le (by decide) (by omega), ht]
      simp

theorem digitRun_of_all {ds : List Char} (h : ds.all Char.isDigit = true) :
    digitRun ds = (ds, []) := by
  rw [List.all_eq_true] at h
  rw [digitRun, List.takeWhile_eq_self_iff.mpr h, List.dropWhile_eq_nil_iff.mpr h]

/-- The digits of a number are one integer token. -/
theorem matchInteger_toDigits (k : ℕ) :
    matchInteger (Nat.toDigits 10 k) = some (Nat.toDigits 10 k, []) ∧
      matchInteger ('-' :: Nat.toDigits 10 k) = some ('-' :: Nat.toDigits 10 k, []) := by
  rcases Nat.eq_zero_or_pos k with rfl | hk
  · decide
  · obtain ⟨c, t, ht, hc⟩ := toDigits_head hk
    have hall := all_isDigit_toDigits k
    rw [ht] at hall ⊢
    rw [List.all_cons, Bool.and_eq_true] at hall
    have hminus : c ≠ '-' := by
      rintro rfl
      simp at hall
    constructor
    · unfold matchInteger
      simp [hminus, hall.1, digitRun_of_all hall.2]
    · unfold matchInteger
      simp [hall.1, digitRun_of_all hall.2]

theorem matchInteger_intText (n : ℤ) : matchInteger (intText n) = some (intText n, []) := by
  unfold intText
  split_ifs
  · exact (matchInteger_toDigits _).2
  · exact (matchInteger_toDigits _).1

theorem filter_isDigit_intText (n : ℤ) :
    (intText n).filter Char.isDigit = Nat.toDigits 10 n.natAbs := by
  have hall := List.filter_eq_self.mpr (List.all_eq_true.mp (all_isDigit_toDigits n.natAbs))
  unfold intText
  split_ifs
  · rw [List.filter_cons_of_neg (by decide), hall]
  · exact hall

theorem intText_head (n : ℤ) : (intText n).head? = some '-' ↔ n < 0 := by
  unfold intText
  split_ifs with h
  · simp [h]
  · simp only [h, iff_false]
    intro hhead
    have := Nat.isDigit_of_mem_toDigits (b := 10) (by decide) (by decide)
      (List.mem_of_mem_head? hhead)
    exact absurd this (by decide)

theorem signedValue_intText (n : ℤ) : PyFloat.signedValue (intText n) = n := by
  simp only [PyFloat.signedValue, PyFloat.digitsValue, filter_isDigit_intText, intText_head,
    Nat.ofDigitChars_ten_toDigits]
  split_ifs <;> omega

/-- An integer within the limit is read back. -/
theorem wordTokens_intText {n : ℤ}
    (h : (Nat.toDigits 10 n.natAbs).length ≤ intMaxStrDigits) :
    wordTokens (intText n) = [.int n] := by
  have hletters : ∀ w : List Char, (∃ c ∈ w, isIntChar c = false) → ¬w <+: intText n := by
    rintro w ⟨c, hc, hnot⟩ hw
    rw [isIntChar_of_mem_intText (hw.subset hc)] at hnot
    cases hnot
  have hne : ∀ w : List Char, (∃ c ∈ w, isIntChar c = false) → intText n ≠ w :=
    fun w hw h => hletters w hw (h ▸ List.prefix_refl _)
  unfold wordTokens
  rw [if_neg (hne _ ⟨'n', by decide⟩), if_neg (hne _ ⟨'t', by decide⟩),
    if_neg (hne _ ⟨'f', by decide⟩), if_neg]
  · have hnumber : numberToken (intText n) = (.int n, []) := by
      simp [numberToken, matchInteger_intText, matchFraction, matchExponent,
        filter_isDigit_intText, Nat.not_lt.mpr h, signedValue_intText]
    rw [hnumber]
  · simp only [Bool.or_eq_true, List.isPrefixOf_iff_prefix, not_or]
    exact ⟨⟨hletters _ ⟨'N', by decide⟩, hletters _ ⟨'I', by decide⟩⟩,
      hletters _ ⟨'I', by decide⟩⟩

/-- A character of a word: no white space, quote or structural character. -/
def isWordChar (c : CodePoint) : Bool :=
  !(isJsonSpace c || c == .scalar '"' || (punctToken c).isSome)

/-- What ends a word: the end of the text or no character of a word. -/
def Stops (r : PyStr) : Prop :=
  ∀ c ∈ r.head?, isWordChar c = false

theorem stops_of_ends {r : PyStr} (h : Ends r) : Stops r := by
  intro c hc
  have hend := h c hc
  simp only [isEnd, Bool.or_eq_true, beq_iff_eq] at hend
  rcases hend with (rfl | rfl) | rfl <;> decide

theorem lexWith_word_end (w : List Char) {r : PyStr} (hr : Stops r) :
    lexWith words (.word w) r = words w ++ lexWith words .idle r := by
  cases r with
  | nil => exact (List.append_nil _).symm
  | cons c r =>
    have hstop := hr c (by simp)
    rw [isWordChar, Bool.not_eq_false'] at hstop
    rw [lexWith_cons, lexWith_cons, lexStepWith_word, if_pos hstop, lexStepWith_idle,
      List.append_assoc]

theorem lexWith_word : ∀ (s w : List Char) {r : PyStr},
    (∀ c ∈ s, isWordChar (.scalar c) = true) → Stops r →
    lexWith words (.word w) (ofChars s ++ r) = words (w ++ s) ++ lexWith words .idle r
  | [], w, r, _, hr => by simpa [ofChars] using lexWith_word_end w hr
  | c :: s, w, r, hs, hr => by
    have hc : (isJsonSpace (.scalar c) || CodePoint.scalar c == .scalar '"' ||
        (punctToken (.scalar c)).isSome) = false := by
      have := hs c (by simp)
      rwa [isWordChar, Bool.not_eq_true'] at this
    have ih := lexWith_word s (w ++ [c]) (fun d hd => hs d (by simp [hd])) hr
    simp only [ofChars, List.map_cons, List.cons_append, lexWith_cons, lexStepWith_word, hc] at ih ⊢
    simpa [CodePoint.toChar] using ih

/-- A word lexes to its tokens. -/
theorem lexWith_idle_word {s : List Char} (hne : s ≠ [])
    (hs : ∀ c ∈ s, isWordChar (.scalar c) = true) {r : PyStr} (hr : Stops r) :
    lexWith words .idle (ofChars s ++ r) = words s ++ lexWith words .idle r := by
  obtain ⟨c, s, rfl⟩ := List.exists_cons_of_ne_nil hne
  have hc := hs c (by simp)
  simp only [isWordChar, Bool.not_eq_true', Bool.or_eq_false_iff, beq_eq_false_iff_ne,
    Option.isSome_eq_false_iff, Option.isNone_iff_eq_none] at hc
  have hidle : lexIdle (.scalar c) = ([], .word [c]) := by
    simp [lexIdle, hc.1.1, hc.1.2, hc.2, CodePoint.toChar]
  have hword : lexWith words (.word [c]) (ofChars s ++ r) =
      words ([c] ++ s) ++ lexWith words .idle r :=
    lexWith_word s [c] (fun d hd => hs d (by simp [hd])) hr
  simp only [ofChars, List.map_cons, List.cons_append, lexWith_cons, lexStepWith_idle, hidle]
    at hword ⊢
  simpa using hword

/-! ## A value lexes to its tokens -/

/-- The characters that end a word. -/
def wordEnds : List Char :=
  [' ', '\t', '\n', '\r', '"', '\x7b', '\x7d', '[', ']', ',', ':']

theorem isWordChar_of_not_mem {c : Char} (h : c ∉ wordEnds) : isWordChar (.scalar c) = true := by
  simp only [wordEnds, List.mem_cons, List.not_mem_nil, or_false, not_or] at h
  simp [isWordChar, isJsonSpace, punctToken, h]

/-- A constant or a number is a word. -/
theorem isWordChar_of_mem_scalarText {v : Json} {s : List Char} (h : scalarText v = some s) :
    ∀ c ∈ s, isWordChar (.scalar c) = true := by
  have hends : ∀ {p : Char → Bool}, (wordEnds.all fun d => !p d) = true → ∀ {c : Char},
      p c = true → isWordChar (.scalar c) = true := by
    intro p hp c hc
    refine isWordChar_of_not_mem fun hm => ?_
    simpa [hc] using List.all_eq_true.mp hp c hm
  cases v with
  | null =>
    obtain rfl := Option.some.inj h
    exact List.all_iff_forall_prop.mp (by decide)
  | bool b =>
    cases b <;> obtain rfl := Option.some.inj h <;> exact List.all_iff_forall_prop.mp (by decide)
  | int n =>
    obtain rfl := Option.some.inj h
    exact fun c hc => hends (p := isIntChar) (by decide) (isIntChar_of_mem_intText hc)
  | float x =>
    obtain rfl : floatText x = s := Option.some.inj h
    rcases floatText_cases x with ⟨-, ex⟩ | ⟨-, ex⟩ | ⟨-, ex⟩ | ⟨ex, ax, -⟩ <;> rw [ex]
    · exact List.all_iff_forall_prop.mp (by decide)
    · exact List.all_iff_forall_prop.mp (by decide)
    · exact List.all_iff_forall_prop.mp (by decide)
    · exact fun c hc => hends (p := isFloatChar) (by decide) (ax c hc)
  | str s => simp [scalarText] at h
  | arr xs => simp [scalarText] at h
  | obj ms => simp [scalarText] at h

theorem lexWith_scalar {v : Json} {s : List Char} (h : scalarText v = some s) {r : PyStr}
    (hr : Stops r) : lexWith words .idle (ofChars s ++ r) = words s ++ lexWith words .idle r :=
  lexWith_idle_word (scalarText_ne_nil h) (isWordChar_of_mem_scalarText h) hr

theorem lexWith_punct {c : Char} {t : Token} (hspace : isJsonSpace (.scalar c) = false)
    (hquote : c ≠ '"') (ht : punctToken (.scalar c) = some t) (r : PyStr) :
    lexWith words .idle (.scalar c :: r) = t :: lexWith words .idle r := by
  have hne : CodePoint.scalar c ≠ .scalar '"' := fun h => hquote (CodePoint.scalar.inj h)
  simp [lexWith_cons, lexStepWith_idle, lexIdle, hspace, hne, ht]

@[simp] theorem lexWith_comma (r : PyStr) :
    lexWith words .idle (.scalar ',' :: r) = .comma :: lexWith words .idle r :=
  lexWith_punct (by decide) (by decide) rfl r

@[simp] theorem lexWith_colon (r : PyStr) :
    lexWith words .idle (.scalar ':' :: r) = .colon :: lexWith words .idle r :=
  lexWith_punct (by decide) (by decide) rfl r

@[simp] theorem lexWith_lbrack (r : PyStr) :
    lexWith words .idle (.scalar '[' :: r) = .lbrack :: lexWith words .idle r :=
  lexWith_punct (by decide) (by decide) rfl r

@[simp] theorem lexWith_rbrack (r : PyStr) :
    lexWith words .idle (.scalar ']' :: r) = .rbrack :: lexWith words .idle r :=
  lexWith_punct (by decide) (by decide) rfl r

@[simp] theorem lexWith_lbrace (r : PyStr) :
    lexWith words .idle (.scalar '\x7b' :: r) = .lbrace :: lexWith words .idle r :=
  lexWith_punct (by decide) (by decide) rfl r

@[simp] theorem lexWith_rbrace (r : PyStr) :
    lexWith words .idle (.scalar '\x7d' :: r) = .rbrace :: lexWith words .idle r :=
  lexWith_punct (by decide) (by decide) rfl r

theorem lexWith_joinRest {α : Type*} {text : α → PyStr} {toks : α → List Token} {close : Char}
    {t : Token} (hclose : close = ']' ∨ close = '}')
    (ht : ∀ r, lexWith words .idle (.scalar close :: r) = t :: lexWith words .idle r) :
    ∀ {xs : List α} (r : PyStr), (∀ x ∈ xs, ∀ r, Stops r →
      lexWith words .idle (text x ++ r) = toks x ++ lexWith words .idle r) →
      lexWith words .idle (joinRest close (xs.map text) ++ r) =
        tokenRest t (xs.map toks) ++ lexWith words .idle r
  | [], r, _ => by simpa [joinRest, tokenRest] using ht r
  | x :: xs, r, h => by
    have hends : Ends (joinRest close (xs.map text) ++ r) :=
      ends_joinRest (hclose.imp (congrArg _) (congrArg _)) _ _
    simp only [List.map_cons, joinRest, tokenRest, List.cons_append, List.append_assoc]
    rw [lexWith_comma, h x (by simp) _ (stops_of_ends hends),
      lexWith_joinRest hclose ht r fun y hy => h y (by simp [hy])]

theorem lexWith_joinItems {α : Type*} {text : α → PyStr} {toks : α → List Token} {close : Char}
    {t : Token} (hclose : close = ']' ∨ close = '}')
    (ht : ∀ r, lexWith words .idle (.scalar close :: r) = t :: lexWith words .idle r)
    {xs : List α} (r : PyStr) (h : ∀ x ∈ xs, ∀ r, Stops r →
      lexWith words .idle (text x ++ r) = toks x ++ lexWith words .idle r) :
    lexWith words .idle (joinItems close (xs.map text) ++ r) =
      tokenItems t (xs.map toks) ++ lexWith words .idle r := by
  cases xs with
  | nil => simpa [joinItems, tokenItems] using ht r
  | cons x xs =>
    have hends : Ends (joinRest close (xs.map text) ++ r) :=
      ends_joinRest (hclose.imp (congrArg _) (congrArg _)) _ _
    simp only [List.map_cons, joinItems, tokenItems, List.append_assoc]
    rw [h x (by simp) _ (stops_of_ends hends),
      lexWith_joinRest hclose ht r fun y hy => h y (by simp [hy])]

end Lexer

namespace Json

section Words

variable (words : List Char → List Token)

mutual

/-- The tokens of the text of a value, with the tokens of a word as a parameter. -/
def tokensWith : Json → List Token
  | .null => words ['n', 'u', 'l', 'l']
  | .bool b => words (if b then ['t', 'r', 'u', 'e'] else ['f', 'a', 'l', 's', 'e'])
  | .int n => words (intText n)
  | .float x => words (floatText x)
  | .str s => [.str s]
  | .arr xs => .lbrack :: tokenItems .rbrack (tokensWithList xs)
  | .obj ms => .lbrace :: tokenItems .rbrace (tokensWithMembers ms)

def tokensWithList : List Json → List (List Token)
  | [] => []
  | x :: xs => tokensWith x :: tokensWithList xs

def tokensWithMembers : Members → List (List Token)
  | [] => []
  | (k, x) :: ms => (.str k :: .colon :: tokensWith x) :: tokensWithMembers ms

end

/-- The tokens of a member. -/
def memberTokensWith (m : PyStr × Json) : List Token :=
  .str m.1 :: .colon :: tokensWith words m.2

theorem tokensWithList_eq (xs : List Json) :
    tokensWithList words xs = xs.map (tokensWith words) := by
  induction xs with
  | nil => rfl
  | cons x xs ih => exact congrArg (tokensWith words x :: ·) ih

theorem tokensWithMembers_eq (ms : Members) :
    tokensWithMembers words ms = ms.map (memberTokensWith words) := by
  induction ms with
  | nil => rfl
  | cons m ms ih => exact congrArg (memberTokensWith words m :: ·) ih

theorem tokensWith_arr (xs : List Json) :
    tokensWith words (.arr xs) = .lbrack :: tokenItems .rbrack (xs.map (tokensWith words)) := by
  rw [← tokensWithList_eq]
  rfl

theorem tokensWith_obj (ms : Members) : tokensWith words (.obj ms) =
    .lbrace :: tokenItems .rbrace (ms.map (memberTokensWith words)) := by
  rw [← tokensWithMembers_eq]
  rfl

theorem tokensWith_scalar {v : Json} {s : List Char} (h : scalarText v = some s) :
    tokensWith words v = words s := by
  cases v with
  | bool b => cases b <;> obtain rfl := Option.some.inj h <;> rfl
  | str s => simp [scalarText] at h
  | arr xs => simp [scalarText] at h
  | obj ms => simp [scalarText] at h
  | _ =>
    obtain rfl := Option.some.inj h
    rfl

/-- The tokens of a plain value are those of the package verifier. -/
theorem tokensWith_wordTokens (v : Json) : v.Plain → tokensWith wordTokens v = v.tokens := by
  induction v with
  | null => exact fun _ => rfl
  | bool b => exact fun _ => by cases b <;> rfl
  | int n => exact wordTokens_intText
  | float x => exact False.elim
  | str s => exact fun _ => rfl
  | arr xs ih =>
    intro h
    rw [plain_arr] at h
    rw [tokensWith_arr, tokens_arr, List.map_congr_left fun x hx => ih x hx (h x hx)]
  | obj ms ih =>
    intro h
    rw [plain_obj] at h
    have hmember : ∀ m ∈ ms, memberTokensWith wordTokens m = memberTokens m := fun m hm => by
      rw [memberTokensWith, ih m hm (h m hm), memberTokens]
    rw [tokensWith_obj, tokens_obj, List.map_congr_left hmember]

/-- A rendered value lexes to its tokens. -/
theorem lexWith_render (v : Json) : ∀ r, Stops r →
    lexWith words .idle (render v ++ r) = tokensWith words v ++ lexWith words .idle r := by
  have hscalar : ∀ {v : Json} {s : List Char}, scalarText v = some s → ∀ r, Stops r →
      lexWith words .idle (render v ++ r) = tokensWith words v ++ lexWith words .idle r := by
    intro v s hs r hr
    rw [render_scalar hs, lexWith_scalar hs hr, tokensWith_scalar words hs]
  induction v with
  | null => exact hscalar rfl
  | bool b => cases b <;> exact hscalar rfl
  | int n => exact hscalar rfl
  | float x => exact hscalar rfl
  | str s => exact fun r _ => lexWith_quote s r
  | arr xs ih =>
    intro r _
    rw [render_arr, tokensWith_arr, List.cons_append, lexWith_lbrack,
      lexWith_joinItems (Or.inl rfl) lexWith_rbrack r ih]
    rfl
  | obj ms ih =>
    intro r _
    have hmember : ∀ m ∈ ms, ∀ r, Stops r → lexWith words .idle (renderMember m ++ r) =
        memberTokensWith words m ++ lexWith words .idle r := by
      intro m hm r hr
      simp only [renderMember, memberTokensWith, List.append_assoc, List.cons_append]
      rw [lexWith_quote, lexWith_colon, ih m hm r hr]
    rw [render_obj, tokensWith_obj, List.cons_append, lexWith_lbrace,
      lexWith_joinItems (Or.inr rfl) lexWith_rbrace r hmember]
    rfl

end Words

end Json

/-- A rendered value lexes to its tokens. -/
theorem lex_render (v : Json) (h : v.Plain) (r : PyStr) (hr : Ends r) :
    lex .idle (render v ++ r) = v.tokens ++ lex .idle r := by
  rw [lex_eq_lexWith, lexWith_render wordTokens v r (stops_of_ends hr), tokensWith_wordTokens v h,
    lex_eq_lexWith]

/-! ## The tokens of a value parse to it -/

/-- No value begins with a closing bracket. -/
theorem tokens_head (v : Json) : ∃ t ts, v.tokens = t :: ts ∧ t ≠ .rbrack ∧ ∀ stack,
    parseStep ⟨stack, .firstItem⟩ t = parseStep ⟨stack, .value⟩ t := by
  cases v with
  | null => exact ⟨_, _, rfl, by simp, fun stack => rfl⟩
  | bool b => exact ⟨_, _, rfl, by simp, fun stack => rfl⟩
  | int n => exact ⟨_, _, rfl, by simp, fun stack => rfl⟩
  | float x => exact ⟨_, _, rfl, by simp, fun stack => rfl⟩
  | str s => exact ⟨_, _, rfl, by simp, fun stack => rfl⟩
  | arr xs => exact ⟨_, _, rfl, by simp, fun stack => rfl⟩
  | obj ms => exact ⟨_, _, rfl, by simp, fun stack => rfl⟩

theorem parseTokens_cons {s n : ParseState} {t : Token} {ts : List Token}
    (h : parseStep s t = .ok n) : parseTokens s (t :: ts) = parseTokens n ts := by
  rw [parseTokens, h]
  rfl

theorem parseTokens_firstItem (v : Json) (stack : List Frame) (ts : List Token) :
    parseTokens ⟨stack, .firstItem⟩ (v.tokens ++ ts) =
      parseTokens ⟨stack, .value⟩ (v.tokens ++ ts) := by
  obtain ⟨t, rest, ht, -, hstep⟩ := tokens_head v
  rw [ht, List.cons_append, parseTokens, parseTokens, hstep]

/-- The items behind the first. -/
theorem parseTokens_arrRest {stack : List Frame} : ∀ {xs : List Json} (acc : List Json)
    (ts : List Token),
    (∀ x ∈ xs, ∀ stack ts, parseTokens ⟨stack, .value⟩ (x.tokens ++ ts) =
      parseTokens (valueDone x stack) ts) →
    parseTokens ⟨.arr acc :: stack, .next⟩ (tokenRest .rbrack (xs.map tokens) ++ ts) =
      parseTokens (valueDone (.arr (acc ++ xs)) stack) ts
  | [], acc, ts, _ => by
    rw [List.append_nil]
    exact parseTokens_cons rfl
  | x :: xs, acc, ts, h => by
    simp only [List.map_cons, tokenRest, List.cons_append, List.append_assoc]
    rw [parseTokens_cons (n := ⟨.arr acc :: stack, .value⟩) rfl, h x (by simp), valueDone,
      parseTokens_arrRest (acc ++ [x]) ts fun y hy => h y (by simp [hy])]
    simp

theorem parseTokens_member {m : PyStr × Json} {stack : List Frame} {acc : Members} {k : PyStr}
    {e : Expect} (he : e = .firstKey ∨ e = .key) (ts : List Token)
    (h : ∀ stack ts, parseTokens ⟨stack, .value⟩ (m.2.tokens ++ ts) =
      parseTokens (valueDone m.2 stack) ts) :
    parseTokens ⟨.obj acc k :: stack, e⟩ (memberTokens m ++ ts) =
      parseTokens ⟨.obj (acc ++ [m]) m.1 :: stack, .next⟩ ts := by
  simp only [memberTokens, List.cons_append]
  have hkey : parseStep ⟨.obj acc k :: stack, e⟩ (.str m.1) =
      .ok ⟨.obj acc m.1 :: stack, .colon⟩ := by
    rcases he with rfl | rfl <;> rfl
  rw [parseTokens_cons hkey, parseTokens_cons (n := ⟨.obj acc m.1 :: stack, .value⟩) rfl, h]
  rfl

theorem parseTokens_objRest {stack : List Frame} : ∀ {ms : Members} (acc : Members) (k : PyStr)
    (ts : List Token), (Dict.keys (acc ++ ms)).Nodup →
    (∀ m ∈ ms, ∀ stack ts, parseTokens ⟨stack, .value⟩ (m.2.tokens ++ ts) =
      parseTokens (valueDone m.2 stack) ts) →
    parseTokens ⟨.obj acc k :: stack, .next⟩ (tokenRest .rbrace (ms.map memberTokens) ++ ts) =
      parseTokens (valueDone (.obj (acc ++ ms)) stack) ts
  | [], acc, k, ts, hnd, _ => by
    rw [List.append_nil] at hnd ⊢
    refine parseTokens_cons ?_
    show closeFrame (.obj acc k :: stack) .rbrace = _
    rw [closeFrame, objectWithoutDuplicates, if_pos hnd]
    rfl
  | m :: ms, acc, k, ts, hnd, h => by
    simp only [List.map_cons, tokenRest, List.cons_append, List.append_assoc]
    rw [parseTokens_cons (n := ⟨.obj acc k :: stack, .key⟩) rfl,
      parseTokens_member (Or.inr rfl) _ (h m (by simp)),
      parseTokens_objRest (acc ++ [m]) m.1 ts (by simpa using hnd) fun y hy => h y (by simp [hy])]
    simp

/-- The tokens of a value parse to it. -/
theorem parseTokens_tokens (v : Json) : v.WF → ∀ stack ts,
    parseTokens ⟨stack, .value⟩ (v.tokens ++ ts) = parseTokens (valueDone v stack) ts := by
  induction v with
  | null => exact fun _ stack ts => parseTokens_cons rfl
  | bool b => exact fun _ stack ts => parseTokens_cons rfl
  | int n => exact fun _ stack ts => parseTokens_cons rfl
  | float x => exact fun _ stack ts => parseTokens_cons rfl
  | str s => exact fun _ stack ts => parseTokens_cons rfl
  | arr xs ih =>
    intro h stack ts
    rw [wf_arr] at h
    rw [tokens_arr, List.cons_append, parseTokens_cons (n := ⟨.arr [] :: stack, .firstItem⟩) rfl]
    cases xs with
    | nil => exact parseTokens_cons rfl
    | cons x xs =>
      simp only [List.map_cons, tokenItems, List.append_assoc]
      rw [parseTokens_firstItem, ih x (by simp) (h x (by simp)), valueDone, List.nil_append,
        parseTokens_arrRest [x] ts fun y hy => ih y (by simp [hy]) (h y (by simp [hy]))]
      rfl
  | obj ms ih =>
    intro h stack ts
    rw [wf_obj] at h
    rw [tokens_obj, List.cons_append, parseTokens_cons (n := ⟨.obj [] [] :: stack, .firstKey⟩) rfl]
    cases ms with
    | nil => exact parseTokens_cons rfl
    | cons m ms =>
      simp only [List.map_cons, tokenItems, List.append_assoc]
      rw [parseTokens_member (Or.inl rfl) _ (ih m (by simp) (h.2 m (by simp))), List.nil_append,
        parseTokens_objRest [m] m.1 ts h.1 fun y hy => ih y (by simp [hy]) (h.2 y (by simp [hy]))]
      rfl

/-- What was rendered is loaded again. -/
theorem loads_render {v : Json} (hwf : v.WF) (hplain : v.Plain) : loads (render v) = .ok v := by
  have hlex : lex .idle (render v) = v.tokens := by
    simpa [lex] using lex_render v hplain [] ends_nil
  have hparse : parseTokens ⟨[], .value⟩ v.tokens = .ok ⟨[], .done v⟩ := by
    simpa [valueDone, parseTokens] using parseTokens_tokens v hwf [] []
  rw [loads, hlex, hparse]
  rfl

namespace Json

theorem Plain.canonical {v : Json} : v.Plain → v.canonical.Plain := by
  induction v with
  | arr xs ih =>
    intro h
    rw [plain_arr] at h
    rw [canonical_arr, plain_arr]
    intro y hy
    obtain ⟨x, hx, rfl⟩ := List.mem_map.mp hy
    exact ih x hx (h x hx)
  | obj ms ih =>
    intro h
    rw [plain_obj] at h
    rw [canonical_obj, plain_obj]
    intro m hm
    obtain ⟨n, hn, rfl⟩ := List.mem_map.mp ((Members.sort_perm _).subset hm)
    exact ih n hn (h n hn)
  | _ => exact fun h => h

theorem WF.canonical {v : Json} : v.WF → v.canonical.WF := by
  induction v with
  | arr xs ih =>
    intro h
    rw [wf_arr] at h
    rw [canonical_arr, wf_arr]
    intro y hy
    obtain ⟨x, hx, rfl⟩ := List.mem_map.mp hy
    exact ih x hx (h x hx)
  | obj ms ih =>
    intro h
    rw [wf_obj] at h
    rw [canonical_obj, wf_obj]
    constructor
    · have hperm := (Members.sort_perm (ms.map fun m => (m.1, m.2.canonical))).map Prod.fst
      have hkeys := keys_map_canonical ms
      rw [Dict.keys] at hkeys
      rw [Dict.keys, hperm.nodup_iff, hkeys]
      exact h.1
    · intro m hm
      obtain ⟨n, hn, rfl⟩ := List.mem_map.mp ((Members.sort_perm _).subset hm)
      exact ih n hn (h.2 n hn)
  | _ => exact fun h => h

/-- What `dumps` wrote is loaded again, with the members of every object in order. -/
theorem loads_dumps {v : Json} (hwf : v.WF) (hplain : v.Plain) :
    loads v.dumps = .ok v.canonical :=
  loads_render hwf.canonical hplain.canonical

end Json

end Py
