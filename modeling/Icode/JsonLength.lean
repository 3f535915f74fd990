import Icode.JsonReread

/-!
# The length of JSON text

The encoder writes the shortest text of a value: what `dumps` makes of a value
that was loaded is no longer than the text it was loaded from
(`length_dumps_le`).

A token weighs the bytes the encoder writes for it. The lexer gives out tokens
that weigh no more than the characters it took (`weights_lexStep`), as an escape
is never shorter than the character it stands for, and the parser makes a value
that weighs no more than its tokens (`weight_parseStep`).
-/

namespace Py

open Json

/-! ## The length of a text -/

/-- The bytes of a text, with surrogates as three bytes each. -/
def byteLength (s : PyStr) : ℕ :=
  (encodePass s).length

@[simp] theorem byteLength_nil : byteLength [] = 0 :=
  rfl

@[simp] theorem byteLength_append (a b : PyStr) :
    byteLength (a ++ b) = byteLength a + byteLength b :=
  (congrArg List.length (encodePass_append a b)).trans List.length_append

theorem byteLength_cons (c : CodePoint) (s : PyStr) :
    byteLength (c :: s) = (utf8 c.ord).length + byteLength s := by
  rw [byteLength, encodePass_cons, List.length_append, List.length_map]
  rfl

@[simp] theorem byteLength_ascii {c : Char} (h : c.toNat < 0x80) (s : PyStr) :
    byteLength (.scalar c :: s) = 1 + byteLength s := by
  rw [byteLength_cons, CodePoint.ord, utf8, if_pos h]
  rfl

theorem length_le_byteLength (s : PyStr) : s.length ≤ byteLength s :=
  length_le_length_encodePass s

/-- The bytes of the text the encoder writes for a token; nothing for a float. -/
def Token.weight : Token → ℕ
  | .str s => byteLength (quote s)
  | .null => 4
  | .bool b => if b then 4 else 5
  | .int n => (intText n).length
  | .float _ => 0
  | .bad _ => 0
  | _ => 1

@[simp] theorem Token.weight_comma : Token.comma.weight = 1 :=
  rfl

@[simp] theorem Token.weight_colon : Token.colon.weight = 1 :=
  rfl

@[simp] theorem Token.weight_lbrack : Token.lbrack.weight = 1 :=
  rfl

@[simp] theorem Token.weight_rbrack : Token.rbrack.weight = 1 :=
  rfl

@[simp] theorem Token.weight_lbrace : Token.lbrace.weight = 1 :=
  rfl

@[simp] theorem Token.weight_rbrace : Token.rbrace.weight = 1 :=
  rfl

@[simp] theorem Token.weight_bad (e : JsonError) : (Token.bad e).weight = 0 :=
  rfl

@[simp] theorem Token.weight_str (s : PyStr) : (Token.str s).weight = byteLength (quote s) :=
  rfl

def weights (ts : List Token) : ℕ :=
  (ts.map Token.weight).sum

@[simp] theorem weights_nil : weights [] = 0 :=
  rfl

@[simp] theorem weights_cons (t : Token) (ts : List Token) :
    weights (t :: ts) = t.weight + weights ts := by
  simp [weights]

@[simp] theorem weights_append (ts us : List Token) :
    weights (ts ++ us) = weights ts + weights us := by
  simp [weights]

theorem weights_tokenRest {close : Token} (hc : close.weight = 1) (xs : List (List Token)) :
    weights (tokenRest close xs) = (xs.map weights).sum + xs.length + 1 := by
  induction xs with
  | nil => simp [tokenRest, hc]
  | cons x xs ih =>
    simp only [tokenRest, weights_cons, weights_append, ih, Token.weight_comma, List.map_cons,
      List.sum_cons, List.length_cons]
    omega

theorem weights_tokenItems {close : Token} (hc : close.weight = 1) (xs : List (List Token)) :
    weights (tokenItems close xs) = (xs.map weights).sum + (xs.length - 1) + 1 := by
  cases xs with
  | nil => simp [tokenItems, hc]
  | cons x xs =>
    simp only [tokenItems, weights_append, weights_tokenRest hc, List.map_cons, List.sum_cons,
      List.length_cons]
    omega

namespace Json

/-- The bytes of the text of a value, without its floats. -/
def weight (v : Json) : ℕ :=
  weights v.tokens

/-- The bytes of the text of a member. -/
def memberWeight (m : PyStr × Json) : ℕ :=
  byteLength (quote m.1) + 1 + m.2.weight

theorem weights_memberTokens (m : PyStr × Json) : weights (memberTokens m) = memberWeight m := by
  simp only [memberTokens, weights_cons, Token.weight_str, Token.weight_colon, memberWeight,
    weight]
  omega

theorem weight_arr (xs : List Json) :
    weight (.arr xs) = (xs.map weight).sum + (xs.length - 1) + 2 := by
  rw [weight, tokens_arr, weights_cons, weights_tokenItems rfl, List.map_map, List.length_map]
  rw [Token.weight_lbrack, show (weights ∘ tokens) = weight from rfl]
  omega

theorem weight_obj (ms : Members) :
    weight (.obj ms) = (ms.map memberWeight).sum + (ms.length - 1) + 2 := by
  have hmember : weights ∘ memberTokens = memberWeight := funext weights_memberTokens
  rw [weight, tokens_obj, weights_cons, weights_tokenItems rfl, List.map_map, List.length_map,
    hmember, Token.weight_lbrace]
  omega

end Json

/-! ## No token is written shorter -/

/-- The bytes of an escaped character. -/
def escapedLength (c : CodePoint) : ℕ :=
  byteLength (escapeChar c)

theorem escapedLength_le (c : CodePoint) : escapedLength c ≤ 6 := by
  unfold escapedLength escapeChar escapeDct
  have := (length_utf8 c.ord).2
  split_ifs <;> dsimp only
  all_goals try decide
  · rename_i h
    have hhex : ∀ m < 0x20, byteLength
        (ofChars ['\\', 'u', '0', '0', hexDigit (m / 16), hexDigit (m % 16)]) ≤ 6 := by
      decide
    exact hhex _ h
  · rw [byteLength_cons, byteLength_nil]
    omega

theorem escapedLength_hex {c : CodePoint}
    (h : (48 ≤ c.ord ∧ c.ord ≤ 57) ∨ (97 ≤ c.ord ∧ c.ord ≤ 102)) : escapedLength c = 1 := by
  have hnone : escapeDct c.ord = none := by
    unfold escapeDct
    rw [if_neg (by omega), if_neg (by omega), if_neg (by omega), if_neg (by omega),
      if_neg (by omega), if_neg (by omega), if_neg (by omega), if_neg (by omega)]
  rw [escapedLength, escapeChar, hnone, byteLength_cons, utf8, if_pos (by omega)]
  rfl

theorem byteLength_escaped (s : PyStr) :
    byteLength (s.flatMap escapeChar) = (s.map escapedLength).sum := by
  induction s with
  | nil => rfl
  | cons c s ih => simp [ih, escapedLength]

theorem byteLength_quote (s : PyStr) :
    byteLength (quote s) = 2 + (s.map escapedLength).sum := by
  rw [quote, byteLength_ascii (by decide), byteLength_append, byteLength_escaped,
    byteLength_ascii (by decide), byteLength_nil]
  omega

/-- The bytes a character of a string literal took, at the least. -/
def StrUnit.cost (u : StrUnit) : ℕ :=
  if u.fromHex then 6 else escapedLength u.char

def unitsCost (us : List StrUnit) : ℕ :=
  (us.map StrUnit.cost).sum

@[simp] theorem unitsCost_concat (us : List StrUnit) (u : StrUnit) :
    unitsCost (us ++ [u]) = unitsCost us + u.cost := by
  simp [unitsCost]

theorem escapedLength_le_cost (u : StrUnit) : escapedLength u.char ≤ u.cost := by
  unfold StrUnit.cost
  split_ifs
  · exact escapedLength_le _
  · exact Nat.le_refl _

/-- The bytes of the escape read last. -/
def pendingCost : Option (Fin 2048) → ℕ
  | some _ => 6
  | none => 0

/-- Joining surrogate escapes makes a text no longer. -/
theorem escaped_joinUnits : ∀ (us : List StrUnit) (p : Option (Fin 2048)),
    ((joinUnits p us).map escapedLength).sum ≤ unitsCost us + pendingCost p := by
  intro us
  induction us with
  | nil =>
    intro p
    cases p with
    | none => simp [joinUnits]
    | some hi =>
      have := escapedLength_le (.surrogate hi)
      simpa [joinUnits, unitsCost, pendingCost] using this
  | cons u us ih =>
    intro p
    have hu := escapedLength_le_cost u
    have hcost : unitsCost (u :: us) = u.cost + unitsCost us := by simp [unitsCost]
    have hplain : ∀ p : Option (Fin 2048),
        (((p.map CodePoint.surrogate).toList ++ u.char :: joinUnits none us).map
          escapedLength).sum ≤ unitsCost (u :: us) + pendingCost p := by
      intro p
      have := ih none
      cases p with
      | none =>
        simp only [Option.map_none, Option.toList_none, List.nil_append, List.map_cons,
          List.sum_cons, hcost, pendingCost] at this ⊢
        omega
      | some hi =>
        have := escapedLength_le (.surrogate hi)
        simp only [Option.map_some, Option.toList_some, List.singleton_append, List.map_cons,
          List.sum_cons, hcost, pendingCost] at *
        omega
    unfold joinUnits
    split
    · rename_i hi lo
      have hcost6 : StrUnit.cost ⟨.surrogate lo, true⟩ = 6 := rfl
      split_ifs with hlow
      · have hpair := escapedLength_le
          (.scalar (Char.ofNat (0x10000 + hi.val * 0x400 + (lo.val - 0x400))))
        have := ih none
        simp only [List.map_cons, List.sum_cons, hcost, hcost6, pendingCost] at *
        omega
      · have hhi := escapedLength_le (.surrogate hi)
        have := ih (some lo)
        simp only [List.map_cons, List.sum_cons, hcost, hcost6, pendingCost] at *
        omega
    · rename_i n
      have hcost6 : StrUnit.cost ⟨.surrogate n, true⟩ = 6 := rfl
      split_ifs with hhigh
      · have := ih (some n)
        simp only [hcost, hcost6, pendingCost] at *
        omega
      · have hn := escapedLength_le (.surrogate n)
        have := ih none
        simp only [List.map_cons, List.sum_cons, hcost, hcost6, pendingCost] at *
        omega
    · exact hplain p

/-- The bytes the lexer took for what it has not given out as a token. -/
def LexState.spent : LexState → ℕ
  | .idle => 0
  | .word w => w.length
  | .inString us => unitsCost us + 1
  | .escape us => unitsCost us + 2
  | .hex us count _ => unitsCost us + 3 + min count 3

@[simp] theorem spent_idle : LexState.idle.spent = 0 :=
  rfl

@[simp] theorem spent_word (w : List Char) : (LexState.word w).spent = w.length :=
  rfl

@[simp] theorem spent_inString (us : List StrUnit) :
    (LexState.inString us).spent = unitsCost us + 1 :=
  rfl

@[simp] theorem spent_escape (us : List StrUnit) :
    (LexState.escape us).spent = unitsCost us + 2 :=
  rfl

@[simp] theorem spent_hex (us : List StrUnit) (count value : ℕ) :
    (LexState.hex us count value).spent = unitsCost us + 3 + min count 3 :=
  rfl

theorem weight_signedValue {ds : List Char} (hne : ds ≠ []) (hds : ds.all Char.isDigit = true)
    (neg : Bool) : (intText (PyFloat.signedValue (if neg then '-' :: ds else ds))).length ≤
      (if neg then '-' :: ds else ds).length := by
  have hlt : Nat.ofDigitChars 10 ds 0 < 10 ^ ds.length := by
    clear hne
    induction ds using List.reverseRecOn with
    | nil => simp
    | append_singleton ds c ih =>
      rw [List.all_append, Bool.and_eq_true] at hds
      have hc : c.toNat - '0'.toNat < 10 := by
        have := hds.2
        simp only [List.all_cons, List.all_nil, Bool.and_true, Char.isDigit, Bool.and_eq_true,
          decide_eq_true_eq] at this
        have h9 : c.toNat ≤ 57 := UInt32.le_iff_toNat_le.mp this.2
        have h0 : '0'.toNat = 48 := rfl
        omega
      have := ih hds.1
      rw [Nat.ofDigitChars_append, Nat.ofDigitChars_cons, Nat.ofDigitChars_nil,
        List.length_append, List.length_singleton, Nat.pow_succ]
      omega
  have hpos : 0 < ds.length := List.length_pos_iff.mpr hne
  have hlen : (Nat.toDigits 10 (Nat.ofDigitChars 10 ds 0)).length ≤ ds.length :=
    (Nat.length_toDigits_le_iff (by decide) hpos).mpr hlt
  have hfilter : ds.filter Char.isDigit = ds :=
    List.filter_eq_self.mpr (List.all_eq_true.mp hds)
  cases neg with
  | true =>
    have hval : PyFloat.signedValue ('-' :: ds) = -(Nat.ofDigitChars 10 ds 0 : ℕ) := by
      have hskip : ('-' :: ds).filter Char.isDigit = ds := by
        rw [List.filter_cons_of_neg (by decide), hfilter]
      simp only [PyFloat.signedValue, List.head?_cons, if_true, PyFloat.digitsValue, hskip]
    simp only [if_true, hval, intText, Int.natAbs_neg, Int.natAbs_natCast]
    split_ifs <;> simp only [List.length_cons] <;> omega
  | false =>
    have hhead : ds.head? ≠ some '-' := by
      intro h
      have := List.all_eq_true.mp hds _ (List.mem_of_mem_head? h)
      exact absurd this (by decide)
    have hval : PyFloat.signedValue ds = (Nat.ofDigitChars 10 ds 0 : ℕ) := by
      rw [PyFloat.signedValue, if_neg hhead, PyFloat.digitsValue, hfilter]
    simp only [Bool.false_eq_true, if_false, hval, intText, Int.natAbs_natCast]
    rw [if_neg (by omega)]
    exact hlen

/-- The digits of an integer, after its sign. -/
theorem matchDigits_eq_some {sign t n rest : List Char} (h : (match t with
      | '0' :: rest => some (sign ++ ['0'], rest)
      | c :: rest =>
        if c.isDigit then some (sign ++ c :: (digitRun rest).1, (digitRun rest).2) else none
      | [] => none) = some (n, rest)) :
    ∃ ds, n = sign ++ ds ∧ ds ≠ [] ∧ ds.all Char.isDigit = true ∧ ds.length ≤ t.length := by
  split at h
  · obtain ⟨rfl, -⟩ := Prod.mk.inj (Option.some.inj h)
    exact ⟨['0'], rfl, by simp, by decide, by simp⟩
  · rename_i c t _
    split_ifs at h with hc
    obtain ⟨rfl, -⟩ := Prod.mk.inj (Option.some.inj h)
    refine ⟨c :: (digitRun t).1, rfl, by simp, ?_, ?_⟩
    · rw [List.all_cons, hc, Bool.true_and]
      exact List.all_takeWhile
    · simpa [digitRun] using (List.takeWhile_sublist Char.isDigit).length_le
  · cases h

/-- An integer at the start of a word: a sign, and digits. -/
theorem matchInteger_eq_some {w n rest : List Char} (h : matchInteger w = some (n, rest)) :
    ∃ (neg : Bool) (ds : List Char), n = (if neg then '-' :: ds else ds) ∧ ds ≠ [] ∧ ds.all Char.isDigit = true ∧
      n.length ≤ w.length := by
  unfold matchInteger at h
  split at h
  rename_i sign t hsign
  split at hsign
  · obtain ⟨rfl, rfl⟩ := Prod.mk.inj hsign
    obtain ⟨ds, hn, hne, hds, hle⟩ := matchDigits_eq_some h
    exact ⟨true, ds, hn, hne, hds, by simpa [hn] using hle⟩
  · obtain ⟨rfl, rfl⟩ := Prod.mk.inj hsign
    obtain ⟨ds, hn, hne, hds, hle⟩ := matchDigits_eq_some h
    exact ⟨false, ds, hn, hne, hds, by simpa [hn] using hle⟩

/-- A word is as long as what the encoder writes for its tokens. -/
theorem weights_wordTokens (w : List Char) : weights (wordTokens w) ≤ w.length := by
  have hnumber : (numberToken w).1.weight ≤ w.length := by
    unfold numberToken
    split
    · exact Nat.zero_le _
    · rename_i n rest hn
      obtain ⟨neg, ds, hsign, hne, hds, hle⟩ := matchInteger_eq_some hn
      have hint : (intText (PyFloat.signedValue n)).length ≤ n.length := by
        rw [hsign]
        exact weight_signedValue hne hds neg
      dsimp only
      split_ifs
      · exact Nat.zero_le _
      · exact le_trans hint hle
      · exact Nat.zero_le _
  unfold wordTokens
  split_ifs with h1 h2 h3 h4
  · subst h1
    decide
  · subst h2
    decide
  · subst h3
    decide
  · exact Nat.zero_le _
  · split
    · rename_i t ht
      rw [ht] at hnumber
      simpa using hnumber
    · rename_i t c rest ht
      rw [ht] at hnumber
      simpa using hnumber

theorem weights_lexIdle (c : CodePoint) :
    weights (lexIdle c).1 + (lexIdle c).2.spent ≤ byteLength [c] := by
  have hbyte : 1 ≤ byteLength [c] := by
    have := (length_utf8 c.ord).1
    rw [byteLength_cons]
    omega
  unfold lexIdle
  split_ifs with h1 h2
  · exact Nat.zero_le _
  · exact hbyte
  · cases hp : punctToken c with
    | none => exact hbyte
    | some t =>
      have ht : t.weight = 1 := by
        unfold punctToken at hp
        split_ifs at hp <;> obtain rfl := Option.some.inj hp <;> rfl
      simpa [ht] using hbyte

/-- A character the lexer takes pays for what it gives out. -/
theorem weights_lexStep (st : LexState) (c : CodePoint) :
    weights (lexStep st c).1 + (lexStep st c).2.spent ≤ st.spent + byteLength [c] := by
  have hbyte : 1 ≤ byteLength [c] := by
    have := (length_utf8 c.ord).1
    rw [byteLength_cons]
    omega
  cases st with
  | idle =>
    have := weights_lexIdle c
    simpa [lexStep] using this
  | word w =>
    have hidle := weights_lexIdle c
    have hword := weights_wordTokens w
    simp only [lexStep]
    split_ifs
    · simp only [weights_append, spent_word]
      omega
    · simp only [weights_nil, spent_word, List.length_append, List.length_singleton]
      omega
  | inString us =>
    have hjoin := escaped_joinUnits us none
    simp only [lexStep]
    split_ifs with h1 h2 h3
    · simp only [weights_cons, weights_nil, Token.weight_str, byteLength_quote, spent_idle,
        spent_inString, pendingCost] at hjoin ⊢
      omega
    · simp only [weights_nil, spent_inString, spent_escape]
      omega
    · simp
    · have hplain : escapedLength c = byteLength [c] := by
        have hnot : escapeDct c.ord = none := by
          have hq : c.ord ≠ 0x22 := fun h => h1 (CodePoint.ord_injective h)
          have hb : c.ord ≠ 0x5C := fun h => h2 (CodePoint.ord_injective h)
          unfold escapeDct
          rw [if_neg hq, if_neg hb, if_neg (by omega), if_neg (by omega), if_neg (by omega),
            if_neg (by omega), if_neg (by omega), if_neg h3]
        rw [escapedLength, escapeChar, hnot]
      have hcost : StrUnit.cost ⟨c, false⟩ = byteLength [c] := hplain
      simp only [weights_nil, spent_inString, unitsCost_concat, hcost]
      omega
  | escape us =>
    simp only [lexStep]
    split_ifs with h1
    · simp only [weights_nil, spent_escape, spent_hex]
      omega
    · cases hc : simpleEscape c with
      | none => simp
      | some d =>
        have hcost : StrUnit.cost ⟨.scalar d, false⟩ ≤ 2 := by
          show escapedLength (.scalar d) ≤ 2
          unfold simpleEscape at hc
          split_ifs at hc <;> obtain rfl := Option.some.inj hc <;> decide
        simp only [weights_nil, spent_inString, spent_escape, unitsCost_concat]
        omega
  | hex us count value =>
    simp only [lexStep]
    cases hexValue c with
    | none => simp
    | some d =>
      dsimp only
      split_ifs with h1
      · have hcost : StrUnit.cost ⟨ofUnit (value * 16 + d), true⟩ = 6 := rfl
        simp only [weights_nil, spent_inString, spent_hex, unitsCost_concat, hcost]
        omega
      · simp only [weights_nil, spent_hex]
        omega

/-- A text is as long as what the encoder writes for its tokens. -/
theorem weights_lex : ∀ (s : PyStr) (st : LexState),
    weights (lex st s) ≤ st.spent + byteLength s
  | [], st => by
    cases st with
    | idle => simp [lex]
    | word w => simpa [lex] using weights_wordTokens w
    | inString us => simp [lex]
    | escape us => simp [lex]
    | hex us count value => simp [lex]
  | c :: s, st => by
    have hstep := weights_lexStep st c
    have ih := weights_lex s (lexStep st c).2
    rw [byteLength_cons, byteLength_nil] at hstep
    rw [byteLength_cons, lex, weights_append]
    omega

/-! ## A value is written no longer than it was read -/

namespace Json

@[simp] theorem weight_scalar {v : Json} {t : Token} (h : v.tokens = [t]) : v.weight = t.weight := by
  simp [weight, h]

end Json

/-- The items of a container that are complete. -/
def Frame.items : Frame → ℕ × ℕ
  | .arr xs => ((xs.map weight).sum, xs.length)
  | .obj ms _ => ((ms.map memberWeight).sum, ms.length)

/-- The bytes of a container that waits for a value. -/
def Frame.weight : Frame → ℕ
  | .arr xs => 1 + (xs.map Json.weight).sum + xs.length
  | .obj ms k => 1 + (ms.map memberWeight).sum + ms.length + byteLength (quote k) + 1

@[simp] theorem Frame.weight_arr (xs : List Json) :
    (Frame.arr xs).weight = 1 + (xs.map Json.weight).sum + xs.length :=
  rfl

@[simp] theorem Frame.weight_obj (ms : Members) (k : PyStr) : (Frame.obj ms k).weight =
    1 + (ms.map memberWeight).sum + ms.length + byteLength (quote k) + 1 :=
  rfl

def stackWeight (stack : List Frame) : ℕ :=
  (stack.map Frame.weight).sum

@[simp] theorem stackWeight_nil : stackWeight [] = 0 :=
  rfl

@[simp] theorem stackWeight_cons (f : Frame) (stack : List Frame) :
    stackWeight (f :: stack) = f.weight + stackWeight stack := by
  simp [stackWeight]

/-- The bytes of what is read, as the encoder writes it. -/
def ParseState.weight : ParseState → ℕ
  | ⟨_, .done v⟩ => v.weight
  | ⟨.arr xs :: stack, .next⟩ => 1 + (xs.map Json.weight).sum + (xs.length - 1) + stackWeight stack
  | ⟨.obj ms _ :: stack, .next⟩ =>
    1 + (ms.map memberWeight).sum + (ms.length - 1) + stackWeight stack
  | ⟨.obj ms k :: stack, .colon⟩ =>
    1 + (ms.map memberWeight).sum + ms.length + byteLength (quote k) + stackWeight stack
  | ⟨.obj ms _ :: stack, .key⟩ => 1 + (ms.map memberWeight).sum + ms.length + stackWeight stack
  | ⟨.obj ms _ :: stack, .firstKey⟩ => 1 + (ms.map memberWeight).sum + ms.length + stackWeight stack
  | ⟨stack, _⟩ => stackWeight stack

section States

variable (stack : List Frame)

theorem weight_done (v : Json) : (⟨stack, .done v⟩ : ParseState).weight = v.weight := by
  rcases stack with _ | ⟨_ | _, stack⟩ <;> rfl

theorem weight_value : (⟨stack, .value⟩ : ParseState).weight = stackWeight stack := by
  rcases stack with _ | ⟨_ | _, stack⟩ <;> rfl

theorem weight_firstItem : (⟨stack, .firstItem⟩ : ParseState).weight = stackWeight stack := by
  rcases stack with _ | ⟨_ | _, stack⟩ <;> rfl

theorem weight_item (xs : List Json) : (⟨.arr xs :: stack, .next⟩ : ParseState).weight =
    1 + (xs.map Json.weight).sum + (xs.length - 1) + stackWeight stack :=
  rfl

theorem weight_member (ms : Members) (k : PyStr) :
    (⟨.obj ms k :: stack, .next⟩ : ParseState).weight =
      1 + (ms.map memberWeight).sum + (ms.length - 1) + stackWeight stack :=
  rfl

theorem weight_colon (ms : Members) (k : PyStr) :
    (⟨.obj ms k :: stack, .colon⟩ : ParseState).weight =
      1 + (ms.map memberWeight).sum + ms.length + byteLength (quote k) + stackWeight stack :=
  rfl

theorem weight_key (ms : Members) (k : PyStr) :
    (⟨.obj ms k :: stack, .key⟩ : ParseState).weight =
      1 + (ms.map memberWeight).sum + ms.length + stackWeight stack :=
  rfl

theorem weight_firstKey (ms : Members) (k : PyStr) :
    (⟨.obj ms k :: stack, .firstKey⟩ : ParseState).weight =
      1 + (ms.map memberWeight).sum + ms.length + stackWeight stack :=
  rfl

end States

theorem weight_valueDone (v : Json) (stack : List Frame) :
    (valueDone v stack).weight ≤ stackWeight stack + v.weight := by
  rcases stack with _ | ⟨xs | ⟨ms, k⟩, stack⟩
  · exact (Nat.zero_add v.weight).ge
  · show (⟨.arr (xs ++ [v]) :: stack, .next⟩ : ParseState).weight ≤ _
    simp only [weight_item, stackWeight_cons, Frame.weight_arr, List.map_append, List.map_cons,
      List.map_nil, List.sum_append, List.sum_cons, List.sum_nil, List.length_append,
      List.length_singleton]
    omega
  · show (⟨.obj (ms ++ [(k, v)]) k :: stack, .next⟩ : ParseState).weight ≤ _
    simp only [weight_member, stackWeight_cons, Frame.weight_obj, List.map_append, List.map_cons,
      List.map_nil, List.sum_append, List.sum_cons, List.sum_nil, List.length_append,
      List.length_singleton, memberWeight]
    omega

theorem weight_parseValue {stack : List Frame} {t : Token} {s : ParseState}
    (h : parseValue stack t = .ok s) : s.weight ≤ stackWeight stack + t.weight := by
  have hscalar : ∀ v : Json, v.tokens = [t] → (valueDone v stack).weight ≤
      stackWeight stack + t.weight := fun v hv => by
    rw [← weight_scalar hv]
    exact weight_valueDone v stack
  unfold parseValue at h
  split at h <;> first | (obtain rfl := Except.ok.inj h) | cases h
  · simp [weight_firstItem, Nat.add_comm]
  · simp [weight_firstKey, Nat.add_comm]
  all_goals exact hscalar _ rfl

theorem weight_closeFrame {stack : List Frame} {t : Token} {s : ParseState}
    (h : closeFrame stack t = .ok s) : s.weight ≤ (⟨stack, .next⟩ : ParseState).weight + t.weight := by
  unfold closeFrame at h
  split at h
  · rename_i xs stack
    obtain rfl := Except.ok.inj h
    have := weight_valueDone (.arr xs) stack
    simp only [weight_item, weight_arr, Token.weight_rbrack] at this ⊢
    omega
  · rename_i ms k stack
    unfold objectWithoutDuplicates at h
    split_ifs at h
    · obtain rfl := Except.ok.inj h
      have := weight_valueDone (.obj ms) stack
      simp only [weight_member, weight_obj, Token.weight_rbrace] at this ⊢
      omega
    · cases h
  · cases h

theorem weight_parseKey {stack : List Frame} {t : Token} {s : ParseState}
    (h : parseKey stack t = .ok s) : s.weight ≤ (⟨stack, .key⟩ : ParseState).weight + t.weight := by
  unfold parseKey at h
  split at h
  · obtain rfl := Except.ok.inj h
    simp only [weight_key, weight_colon, Token.weight_str]
    omega
  · cases h

theorem weight_parseNext {stack : List Frame} {t : Token} {s : ParseState}
    (h : parseNext stack t = .ok s) : s.weight ≤ (⟨stack, .next⟩ : ParseState).weight + t.weight := by
  unfold parseNext at h
  split at h
  · obtain rfl := Except.ok.inj h
    simp only [weight_item, weight_value, stackWeight_cons, Frame.weight_arr, Token.weight_comma]
    omega
  · obtain rfl := Except.ok.inj h
    simp only [weight_member, weight_key, Token.weight_comma]
    omega
  · exact weight_closeFrame h

theorem weight_next_le (stack : List Frame) :
    (⟨stack, .next⟩ : ParseState).weight ≤ stackWeight stack := by
  rcases stack with _ | ⟨xs | ⟨ms, k⟩, stack⟩
  · exact Nat.le_refl _
  · rw [weight_item, stackWeight_cons, Frame.weight_arr]
    omega
  · rw [weight_member, stackWeight_cons, Frame.weight_obj]
    omega

/-- A token the parser takes pays for what is read. -/
theorem weight_parseStep {s s' : ParseState} {t : Token} (h : parseStep s t = .ok s') :
    s'.weight ≤ s.weight + t.weight := by
  obtain ⟨stack, e⟩ := s
  unfold parseStep at h
  split at h <;> try dsimp only at h
  · cases h
  · rename_i he
    obtain rfl := he
    rw [weight_value]
    exact weight_parseValue h
  · rename_i he
    obtain rfl := he
    have := weight_closeFrame h
    have := weight_next_le stack
    rw [weight_firstItem]
    omega
  · rename_i he
    obtain rfl := he
    rw [weight_firstItem]
    exact weight_parseValue h
  · rename_i he
    obtain rfl := he
    have := weight_closeFrame h
    rcases stack with _ | ⟨_ | _, stack⟩
    · exact this
    · simp only [closeFrame] at h
      cases h
    · rw [weight_member] at this
      rw [weight_firstKey]
      omega
  · rename_i he
    obtain rfl := he
    have := weight_parseKey h
    rcases stack with _ | ⟨_ | _, stack⟩ <;> exact this
  · rename_i he
    obtain rfl := he
    exact weight_parseKey h
  · rename_i he
    obtain rfl := he
    obtain rfl := Except.ok.inj h
    rw [weight_value]
    rcases stack with _ | ⟨_ | ⟨ms, k⟩, stack⟩
    · exact Nat.le_add_right _ _
    · exact Nat.le_add_right _ _
    · rw [weight_colon, stackWeight_cons, Frame.weight_obj, Token.weight_colon]
      omega
  · rename_i he
    obtain rfl := he
    exact weight_parseNext h
  · cases h

theorem weight_parseTokens : ∀ {ts : List Token} {s s' : ParseState},
    parseTokens s ts = .ok s' → s'.weight ≤ s.weight + weights ts
  | [], s, s', h => by
    obtain rfl := Except.ok.inj h
    simp
  | t :: ts, s, s', h => by
    rw [parseTokens] at h
    cases hstep : parseStep s t with
    | error e =>
      rw [hstep] at h
      cases h
    | ok k =>
      rw [hstep] at h
      have := weight_parseStep hstep
      have := weight_parseTokens h
      rw [weights_cons]
      omega

/-- A value is written no longer than it was read. -/
theorem weight_le_of_loads {text : PyStr} {v : Json} (h : loads text = .ok v) :
    v.weight ≤ byteLength text := by
  unfold loads at h
  cases hp : parseTokens ⟨[], .value⟩ (lex .idle text) with
  | error e =>
    rw [hp] at h
    cases h
  | ok s =>
    rw [hp] at h
    have hparse := weight_parseTokens hp
    have hlex := weights_lex text .idle
    obtain ⟨stack, e⟩ := s
    cases e with
    | done w =>
      obtain rfl := Except.ok.inj h
      simp only [weight_done, weight_value, stackWeight_nil, spent_idle] at hparse hlex
      omega
    | _ => cases h

/-! ## The text of the encoder -/

theorem byteLength_joinRest {close : Char} (hc : close.toNat < 0x80) (xs : List PyStr) :
    byteLength (joinRest close xs) = (xs.map byteLength).sum + xs.length + 1 := by
  induction xs with
  | nil => rw [joinRest, byteLength_ascii hc]; simp
  | cons x xs ih =>
    rw [joinRest, byteLength_ascii (by decide), byteLength_append, ih]
    simp only [List.map_cons, List.sum_cons, List.length_cons]
    omega

theorem byteLength_joinItems {close : Char} (hc : close.toNat < 0x80) (xs : List PyStr) :
    byteLength (joinItems close xs) = (xs.map byteLength).sum + (xs.length - 1) + 1 := by
  cases xs with
  | nil => rw [joinItems, byteLength_ascii hc]; simp
  | cons x xs =>
    rw [joinItems, byteLength_append, byteLength_joinRest hc]
    simp only [List.map_cons, List.sum_cons, List.length_cons]
    omega

theorem byteLength_ofChars {s : List Char} (h : ∀ c ∈ s, c.toNat < 0x80) :
    byteLength (ofChars s) = s.length := by
  induction s with
  | nil => rfl
  | cons c s ih =>
    have := ih fun d hd => h d (by simp [hd])
    rw [ofChars] at this ⊢
    rw [List.map_cons, byteLength_ascii (h c (by simp)), this, List.length_cons, Nat.add_comm]

namespace Json

/-- The text of a value without floats has the bytes of its tokens. -/
theorem byteLength_render (v : Json) : v.Plain → byteLength (render v) = v.weight := by
  induction v with
  | null => exact fun _ => by decide
  | bool b => exact fun _ => by cases b <;> decide
  | int n =>
    intro _
    have hascii : ∀ c ∈ intText n, c.toNat < 0x80 := by
      intro c hc
      have := isIntChar_of_mem_intText hc
      simp only [isIntChar, Char.isDigit, Bool.or_eq_true, Bool.and_eq_true, decide_eq_true_eq,
        beq_iff_eq] at this
      rcases this with ⟨-, h9⟩ | rfl
      · have : c.toNat ≤ 57 := UInt32.le_iff_toNat_le.mp h9
        omega
      · decide
    rw [render_scalar rfl, byteLength_ofChars hascii]
    exact (weight_scalar (v := .int n) rfl).symm
  | float x =>
    intro h
    cases h
  | str s => exact fun _ => (weight_scalar (v := .str s) rfl).symm
  | arr xs ih =>
    intro h
    rw [plain_arr] at h
    have hitems : (xs.map render).map byteLength = xs.map weight := by
      rw [List.map_map]
      exact List.map_congr_left fun x hx => ih x hx (h x hx)
    rw [render_arr, byteLength_ascii (by decide), byteLength_joinItems (by decide), hitems,
      List.length_map, weight_arr]
    omega
  | obj ms ih =>
    intro h
    rw [plain_obj] at h
    have hitems : (ms.map renderMember).map byteLength = ms.map memberWeight := by
      rw [List.map_map]
      refine List.map_congr_left fun m hm => ?_
      rw [Function.comp_apply, renderMember, byteLength_append, byteLength_ascii (by decide),
        ih m hm (h m hm), memberWeight, Nat.add_assoc]
    rw [render_obj, byteLength_ascii (by decide), byteLength_joinItems (by decide), hitems,
      List.length_map, weight_obj]
    omega

/-- Sorting the members keeps the length. -/
theorem weight_canonical (v : Json) : v.canonical.weight = v.weight := by
  induction v with
  | arr xs ih =>
    have hitems : (xs.map canonical).map weight = xs.map weight := by
      rw [List.map_map]
      exact List.map_congr_left fun x hx => ih x hx
    rw [canonical_arr, weight_arr, weight_arr, hitems, List.length_map]
  | obj ms ih =>
    have hitems : (ms.map fun m => (m.1, canonical m.2)).map memberWeight =
        ms.map memberWeight := by
      rw [List.map_map]
      exact List.map_congr_left fun m hm => by simp [memberWeight, ih m hm]
    have hperm := (Members.sort_perm (ms.map fun m => (m.1, canonical m.2)))
    rw [canonical_obj, weight_obj, weight_obj, (hperm.map memberWeight).sum_eq, hitems,
      hperm.length_eq, List.length_map]
  | _ => rfl

/-- `dumps` writes no more than was read. -/
theorem length_dumps_le {text : PyStr} {v : Json} (h : loads text = .ok v) (hplain : v.Plain) :
    byteLength v.dumps ≤ byteLength text := by
  rw [dumps, byteLength_render _ hplain.canonical, weight_canonical]
  exact weight_le_of_loads h

end Json

end Py
