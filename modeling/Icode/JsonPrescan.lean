import Icode.JsonBudget

/-!
# The structural scan and the parser

`checkStructuralTokenBudget` reads the characters of a text with two flags for strings and
escapes, and knows nothing of the parser. For a text that `loads` accepts it follows the tokens of
the lexer (`scan_lex`), and these are the tokens of the value (`lex_of_loads`). So it counts the
structural tokens and follows the open containers of the value, whatever its strings hold. Which
of its two errors comes first is what `scanHeights_eq_depth` says.
-/

namespace Py

open Json

/-! ## The tokens that were read -/

theorem tokenRest_eq (close : Token) (xs : List (List Token)) :
    tokenRest close xs = xs.flatMap (.comma :: ·) ++ [close] := by
  induction xs with
  | nil => rfl
  | cons x xs ih => simp [tokenRest, ih]

/-- The items of a container, each with the comma behind it, and the last item. -/
theorem tokenItems_concat (close : Token) (xs : List (List Token)) (x : List Token) :
    tokenItems close (xs ++ [x]) = xs.flatMap (· ++ [.comma]) ++ x ++ [close] := by
  have hrest : ∀ xs : List (List Token), xs.flatMap (Token.comma :: ·) ++ Token.comma :: x =
      Token.comma :: (xs.flatMap (· ++ [Token.comma]) ++ x) := by
    intro xs
    induction xs with
    | nil => rfl
    | cons y xs ih => simp [ih]
  cases xs with
  | nil => simp [tokenItems, tokenRest]
  | cons y xs => simp [tokenItems, tokenRest_eq, ← hrest]

theorem mem_tokenItems {close t : Token} {xs : List (List Token)} (h : t ∈ tokenItems close xs) :
    t = close ∨ t = .comma ∨ ∃ x ∈ xs, t ∈ x := by
  cases xs with
  | nil => exact Or.inl (List.mem_singleton.mp h)
  | cons x xs =>
    rw [tokenItems, tokenRest_eq] at h
    simp only [List.mem_append, List.mem_flatMap, List.mem_cons, List.not_mem_nil, or_false] at h
    rcases h with h | ⟨y, hy, rfl | h⟩ | rfl
    · exact Or.inr (Or.inr ⟨x, List.mem_cons_self, h⟩)
    · exact Or.inr (Or.inl rfl)
    · exact Or.inr (Or.inr ⟨y, List.mem_cons_of_mem x hy, h⟩)
    · exact Or.inl rfl

/-- The tokens of a value hold no failure. -/
theorem bad_not_mem_tokens (v : Json) : ∀ e, .bad e ∉ v.tokens := by
  induction v with
  | arr xs ih =>
    intro e h
    rw [tokens_arr] at h
    rcases mem_tokenItems (List.mem_of_ne_of_mem (by simp) h) with h | h | ⟨ts, hts, h⟩
    · cases h
    · cases h
    · obtain ⟨x, hx, rfl⟩ := List.mem_map.mp hts
      exact ih x hx e h
  | obj ms ih =>
    intro e h
    rw [tokens_obj] at h
    rcases mem_tokenItems (List.mem_of_ne_of_mem (by simp) h) with h | h | ⟨ts, hts, h⟩
    · cases h
    · cases h
    · obtain ⟨m, hm, rfl⟩ := List.mem_map.mp hts
      refine ih m hm e ?_
      simpa [memberTokens] using h
  | _ => simp [tokens]

/-- The tokens of a container that waits for a value. -/
def Frame.waiting : Frame → List Token
  | .arr xs => .lbrack :: (xs.map tokens).flatMap (· ++ [.comma])
  | .obj ms k => .lbrace :: ((ms.map memberTokens).flatMap (· ++ [.comma]) ++ [.str k, .colon])

/-- The tokens of the open containers. -/
def stackTokens : List Frame → List Token
  | [] => []
  | f :: stack => stackTokens stack ++ f.waiting

/-- The tokens that lead to a state of the parser. -/
inductive ParseState.Read : ParseState → List Token → Prop
  | value (stack : List Frame) : Read ⟨stack, .value⟩ (stackTokens stack)
  | firstItem (stack : List Frame) :
    Read ⟨.arr [] :: stack, .firstItem⟩ (stackTokens stack ++ [.lbrack])
  | firstKey (stack : List Frame) (k : PyStr) :
    Read ⟨.obj [] k :: stack, .firstKey⟩ (stackTokens stack ++ [.lbrace])
  | key (stack : List Frame) (ms : Members) (k : PyStr) :
    Read ⟨.obj ms k :: stack, .key⟩
      (stackTokens stack ++ .lbrace :: (ms.map memberTokens).flatMap (· ++ [.comma]))
  | colon (stack : List Frame) (ms : Members) (k : PyStr) :
    Read ⟨.obj ms k :: stack, .colon⟩
      (stackTokens stack ++ .lbrace :: ((ms.map memberTokens).flatMap (· ++ [.comma]) ++ [.str k]))
  | item (stack : List Frame) (xs : List Json) (x : Json) :
    Read ⟨.arr (xs ++ [x]) :: stack, .next⟩ (stackTokens (.arr xs :: stack) ++ x.tokens)
  | member (stack : List Frame) (ms : Members) (k : PyStr) (x : Json) :
    Read ⟨.obj (ms ++ [(k, x)]) k :: stack, .next⟩ (stackTokens (.obj ms k :: stack) ++ x.tokens)
  | done (v : Json) : Read ⟨[], .done v⟩ v.tokens

theorem read_valueDone (v : Json) (stack : List Frame) :
    (valueDone v stack).Read (stackTokens stack ++ v.tokens) := by
  rcases stack with _ | ⟨xs | ⟨ms, k⟩, stack⟩
  · exact .done v
  · exact .item stack xs v
  · exact .member stack ms k v

theorem read_parseValue {stack : List Frame} {t : Token} {s : ParseState}
    (h : parseValue stack t = .ok s) : s.Read (stackTokens stack ++ [t]) := by
  have hscalar : ∀ v : Json, v.tokens = [t] → (valueDone v stack).Read
      (stackTokens stack ++ [t]) := fun v hv => hv ▸ read_valueDone v stack
  unfold parseValue at h
  split at h <;> first | (obtain rfl := Except.ok.inj h) | cases h
  · exact .firstItem stack
  · exact .firstKey stack []
  all_goals exact hscalar _ rfl

theorem read_stepValue {stack : List Frame} {t : Token} {s : ParseState}
    (h : parseStep ⟨stack, .value⟩ t = .ok s) : s.Read (stackTokens stack ++ [t]) := by
  have hvalue : parseValue stack t = .ok s := by
    cases t with
    | bad e => cases h
    | _ => exact h
  exact read_parseValue hvalue

theorem parseStep_firstItem {stack : List Frame} {t : Token} (h : t ≠ .rbrack) :
    parseStep ⟨stack, .firstItem⟩ t = parseStep ⟨stack, .value⟩ t := by
  cases t with
  | rbrack => exact absurd rfl h
  | _ => rfl

theorem read_closeArr (stack : List Frame) (xs : List Json) (ts : List Token)
    (h : ts ++ [.rbrack] = stackTokens stack ++ (Json.arr xs).tokens) :
    (valueDone (.arr xs) stack).Read (ts ++ [.rbrack]) :=
  h ▸ read_valueDone (.arr xs) stack

theorem read_closeObj {stack : List Frame} {ms : Members} {k : PyStr} {ts : List Token}
    {s : ParseState} (h : closeFrame (.obj ms k :: stack) .rbrace = .ok s)
    (hts : ts ++ [.rbrace] = stackTokens stack ++ (Json.obj ms).tokens) :
    s.Read (ts ++ [.rbrace]) := by
  by_cases hnd : (Dict.keys ms).Nodup
  · simp only [closeFrame, objectWithoutDuplicates, hnd, if_true] at h
    obtain rfl := Except.ok.inj h
    exact hts ▸ read_valueDone (.obj ms) stack
  · rw [closeFrame, objectWithoutDuplicates, if_neg hnd] at h
    cases h

/-- One more token leads to the next state. -/
theorem ParseState.Read.step {s s' : ParseState} {ts : List Token} {t : Token} (hs : s.Read ts)
    (h : parseStep s t = .ok s') : s'.Read (ts ++ [t]) := by
  cases hs with
  | value stack =>
    exact read_stepValue h
  | firstItem stack =>
    cases t with
    | rbrack =>
      obtain rfl := Except.ok.inj h
      exact read_closeArr stack [] _ (by simp [tokens_arr, tokenItems])
    | bad e => cases h
    | _ =>
      rw [parseStep_firstItem (by simp)] at h
      simpa [stackTokens, Frame.waiting] using read_stepValue h
  | firstKey stack k =>
    cases t with
    | rbrace =>
      have hclose : closeFrame (.obj [] k :: stack) .rbrace = .ok s' := h
      exact read_closeObj hclose (by simp [tokens_obj, tokenItems])
    | str k' =>
      obtain rfl := Except.ok.inj h
      simpa using ParseState.Read.colon stack [] k'
    | _ => cases h
  | key stack ms k =>
    cases t with
    | str k' =>
      obtain rfl := Except.ok.inj h
      simpa using ParseState.Read.colon stack ms k'
    | _ => cases h
  | colon stack ms k =>
    cases t with
    | colon =>
      obtain rfl := Except.ok.inj h
      simpa [stackTokens, Frame.waiting] using ParseState.Read.value (.obj ms k :: stack)
    | _ => cases h
  | item stack xs x =>
    cases t with
    | comma =>
      obtain rfl := Except.ok.inj h
      simpa [stackTokens, Frame.waiting] using ParseState.Read.value (.arr (xs ++ [x]) :: stack)
    | rbrack =>
      obtain rfl := Except.ok.inj h
      refine read_closeArr stack (xs ++ [x]) _ ?_
      rw [tokens_arr, List.map_append, List.map_singleton, tokenItems_concat]
      simp [stackTokens, Frame.waiting]
    | _ => cases h
  | member stack ms k x =>
    cases t with
    | comma =>
      obtain rfl := Except.ok.inj h
      simpa [stackTokens, Frame.waiting, memberTokens] using
        ParseState.Read.key stack (ms ++ [(k, x)]) k
    | rbrace =>
      have hclose : closeFrame (.obj (ms ++ [(k, x)]) k :: stack) .rbrace = .ok s' := h
      refine read_closeObj hclose ?_
      rw [tokens_obj, List.map_append, List.map_singleton, tokenItems_concat]
      simp [stackTokens, Frame.waiting, memberTokens]
    | _ => cases h
  | done v => cases t <;> cases h

theorem ParseState.Read.run : ∀ {us : List Token} {s s' : ParseState} {ts : List Token},
    s.Read ts → parseTokens s us = .ok s' → s'.Read (ts ++ us)
  | [], s, s', ts, hs, h => by
    obtain rfl := Except.ok.inj h
    simpa using hs
  | t :: us, s, s', ts, hs, h => by
    rw [parseTokens] at h
    cases ht : parseStep s t with
    | error e =>
      rw [ht] at h
      cases h
    | ok u =>
      rw [ht] at h
      simpa using (hs.step ht).run h

/-- The tokens of an accepted text are those of the value. -/
theorem lex_of_loads {text : PyStr} {v : Json} (h : loads text = .ok v) :
    lex .idle text = v.tokens := by
  unfold loads at h
  cases hp : parseTokens ⟨[], .value⟩ (lex .idle text) with
  | error e =>
    rw [hp] at h
    cases h
  | ok s =>
    rw [hp] at h
    have hread := (ParseState.Read.value []).run hp
    obtain ⟨stack, e⟩ := s
    cases e with
    | done w =>
      obtain rfl := Except.ok.inj h
      generalize hts : stackTokens [] ++ lex .idle text = ts at hread
      cases hread
      exact hts
    | _ => cases h

/-! ## The scan over the tokens -/

/-- The character of a structural token. -/
def Token.punct : Token → Option CodePoint
  | .lbrace => some '{'
  | .rbrace => some '}'
  | .lbrack => some '['
  | .rbrack => some ']'
  | .comma => some ','
  | .colon => some ':'
  | _ => none

/-- The structural tokens of a text. -/
def punctuation (ts : List Token) : ℕ :=
  ts.countP fun t => t.punct.isSome

@[simp] theorem punctuation_nil : punctuation [] = 0 :=
  rfl

theorem punctuation_cons (t : Token) (ts : List Token) :
    punctuation (t :: ts) = punctuation ts + if t.punct.isSome then 1 else 0 :=
  List.countP_cons

@[simp] theorem punctuation_append (ts us : List Token) :
    punctuation (ts ++ us) = punctuation ts + punctuation us :=
  List.countP_append

/-- What one token does to the token count and to the container stack. -/
def scanToken (maxDepth : Option ℕ) (p : ℕ × List CodePoint) (t : Token) :
    Except JsonError (ℕ × List CodePoint) :=
  match t.punct with
  | none => .ok p
  | some c =>
    if maxJsonStructuralTokens < p.1 + 1 then .error .structuralTokens
    else (scanDepth maxDepth p.2 c).map (p.1 + 1, ·)

def scanTokens (maxDepth : Option ℕ) (p : ℕ × List CodePoint) :
    List Token → Except JsonError (ℕ × List CodePoint)
  | [] => .ok p
  | t :: ts => do
    let p ← scanToken maxDepth p t
    scanTokens maxDepth p ts

section Tokens

variable {maxDepth : Option ℕ}

theorem scanTokens_cons (p : ℕ × List CodePoint) (t : Token) (ts : List Token) :
    scanTokens maxDepth p (t :: ts) =
      scanToken maxDepth p t >>= fun p => scanTokens maxDepth p ts :=
  rfl

theorem scanTokens_append (p : ℕ × List CodePoint) (ts us : List Token) :
    scanTokens maxDepth p (ts ++ us) =
      scanTokens maxDepth p ts >>= fun p => scanTokens maxDepth p us := by
  induction ts generalizing p with
  | nil => rfl
  | cons t ts ih =>
    rw [List.cons_append, scanTokens_cons, scanTokens_cons]
    cases scanToken maxDepth p t with
    | error e => rfl
    | ok p => exact ih p

theorem scanTokens_plain {ts : List Token} (h : ∀ t ∈ ts, t.punct = none)
    (p : ℕ × List CodePoint) : scanTokens maxDepth p ts = .ok p := by
  induction ts with
  | nil => rfl
  | cons t ts ih =>
    have ht : scanToken maxDepth p t = .ok p := by rw [scanToken, h t (by simp)]
    rw [scanTokens_cons, ht]
    exact ih fun u hu => h u (by simp [hu])

/-- A word is no structural token. -/
theorem punct_wordTokens (w : List Char) : ∀ t ∈ wordTokens w, t.punct = none := by
  have hnumber : (numberToken w).1.punct = none := by
    unfold numberToken
    split
    · rfl
    · dsimp only
      split_ifs <;> rfl
  unfold wordTokens
  split_ifs
  · simp [Token.punct]
  · simp [Token.punct]
  · simp [Token.punct]
  · simp [Token.punct]
  · split
    · rename_i t heq
      rw [heq] at hnumber
      simpa using hnumber
    · rename_i t c rest heq
      rw [heq] at hnumber
      rw [List.forall_mem_cons, List.forall_mem_singleton]
      exact ⟨hnumber, rfl⟩

theorem punct_of_punctToken {c : CodePoint} {t : Token} (h : punctToken c = some t) :
    t.punct = some c := by
  unfold punctToken at h
  split_ifs at h with h1 h2 h3 h4 h5 h6 <;> obtain rfl := Option.some.inj h
  · rw [h1]; rfl
  · rw [h2]; rfl
  · rw [h3]; rfl
  · rw [h4]; rfl
  · rw [h5]; rfl
  · rw [h6]; rfl

/-- The scan where the lexer stands. -/
def LexState.mirror (p : ℕ × List CodePoint) : LexState → ScanState
  | .idle => outside p.1 p.2
  | .word _ => outside p.1 p.2
  | .inString _ => inside p.1 p.2
  | .escape _ => ⟨true, true, p.1, p.2⟩
  | .hex _ _ _ => inside p.1 p.2

theorem scanStep_lexIdle (p : ℕ × List CodePoint) (c : CodePoint) :
    scanStep maxDepth (outside p.1 p.2) c =
      (scanTokens maxDepth p (lexIdle c).1).map fun p => (lexIdle c).2.mirror p := by
  unfold lexIdle
  by_cases hspace : isJsonSpace c = true
  · have hplain : c ≠ '"' ∧ punctToken c = none := by
      simp only [isJsonSpace, Bool.or_eq_true, beq_iff_eq] at hspace
      rcases hspace with ((rfl | rfl) | rfl) | rfl <;> decide
    rw [if_pos hspace]
    simp [scanStep, outside, hplain.1, hplain.2, scanTokens, Except.map, LexState.mirror]
  · rw [if_neg hspace]
    by_cases hquote : c = '"'
    · rw [if_pos hquote]
      simp [scanStep, outside, hquote, scanTokens, Except.map, LexState.mirror, inside]
    · rw [if_neg hquote]
      cases hpunct : punctToken c with
      | none => simp [scanStep, outside, hquote, hpunct, scanTokens, Except.map, LexState.mirror]
      | some t =>
        rw [scanStep_punct hquote (by simp [hpunct])]
        simp only [scanTokens, scanToken, punct_of_punctToken hpunct]
        split_ifs
        · rfl
        · cases scanDepth maxDepth p.2 c <;> rfl

/-- One character the lexer takes. -/
theorem scanStep_mirror (p : ℕ × List CodePoint) {st : LexState} {c : CodePoint}
    (h : ∀ e, .bad e ∉ (lexStep st c).1) :
    scanStep maxDepth (st.mirror p) c =
      (scanTokens maxDepth p (lexStep st c).1).map fun p => (lexStep st c).2.mirror p := by
  cases st with
  | idle => exact scanStep_lexIdle p c
  | word w =>
    simp only [lexStep]
    split_ifs with hend
    · rw [scanTokens_append, scanTokens_plain (punct_wordTokens w)]
      exact scanStep_lexIdle p c
    · rw [Bool.not_eq_true, Bool.or_eq_false_iff, Bool.or_eq_false_iff,
        beq_eq_false_iff_ne] at hend
      simp [scanStep, LexState.mirror, outside, hend.1.2, hend.2, scanTokens, Except.map]
  | inString us =>
    simp only [lexStep] at h ⊢
    split_ifs at h ⊢ with hquote hescape hcontrol
    · simp [scanStep, LexState.mirror, inside, outside, hquote, scanTokens, scanToken, Token.punct,
        Except.map, bind, Except.bind]
    · simp [scanStep, LexState.mirror, inside, hescape, scanTokens, Except.map]
    · exact absurd List.mem_cons_self (h .decode)
    · simp [scanStep, LexState.mirror, inside, hquote, hescape, scanTokens, Except.map]
  | escape us =>
    have hstep : scanStep maxDepth ((LexState.escape us).mirror p) c = .ok (inside p.1 p.2) := rfl
    rw [hstep]
    simp only [lexStep] at h ⊢
    split_ifs with hu
    · rfl
    · rw [if_neg hu] at h
      cases hsimple : simpleEscape c with
      | some d => rfl
      | none =>
        rw [hsimple] at h
        exact absurd List.mem_cons_self (h .decode)
  | hex us count value =>
    simp only [lexStep] at h ⊢
    cases hhex : hexValue c with
    | none =>
      rw [hhex] at h
      exact absurd List.mem_cons_self (h .decode)
    | some d =>
      have hquote : c ≠ '"' := by
        rintro rfl
        cases hhex
      have hescape : c ≠ '\\' := by
        rintro rfl
        cases hhex
      simp only [scanStep, LexState.mirror, inside, hquote, hescape, if_true, if_false,
        Bool.false_eq_true]
      split_ifs <;> rfl

/-- The scan of a text the lexer takes is the scan of its tokens. -/
theorem scan_lex : ∀ {text : PyStr} {st : LexState} (p : ℕ × List CodePoint),
    (∀ e, .bad e ∉ lex st text) →
    scan maxDepth (st.mirror p) text =
      (scanTokens maxDepth p (lex st text)).map fun p => outside p.1 p.2
  | [], st, p, h => by
    cases st with
    | idle => rfl
    | word w =>
      rw [lex, scanTokens_plain (punct_wordTokens w)]
      rfl
    | _ => exact absurd List.mem_cons_self (h .decode)
  | c :: text, st, p, h => by
    have hlex : lex st (c :: text) = (lexStep st c).1 ++ lex (lexStep st c).2 text := by
      cases st <;> rfl
    rw [hlex] at h ⊢
    simp only [List.mem_append, not_or] at h
    rw [scan, scanStep_mirror p fun e => (h e).1, scanTokens_append]
    cases scanTokens maxDepth p (lexStep st c).1 with
    | error e => rfl
    | ok p => exact scan_lex p fun e => (h e).2

/-! ## Open containers -/

/-- The open containers behind a token. -/
def Token.height (h : ℕ) : Token → ℕ
  | .lbrace => h + 1
  | .lbrack => h + 1
  | .rbrace => h - 1
  | .rbrack => h - 1
  | _ => h

/-- The containers that are open behind the tokens of `ts`. -/
def openContainers (ts : List Token) : ℕ :=
  ts.foldl Token.height 0

/-- The most containers that are open at once, from `h` on. -/
def peak (h : ℕ) : List Token → ℕ
  | [] => h
  | t :: ts => max h (peak (t.height h) ts)

theorem le_peak (h : ℕ) (ts : List Token) : h ≤ peak h ts := by
  cases ts with
  | nil => exact le_refl h
  | cons t ts => exact le_max_left _ _

theorem lt_peak_iff {limit : ℕ} : ∀ {ts : List Token} {h : ℕ},
    limit < peak h ts ↔ ∃ us, us <+: ts ∧ limit < us.foldl Token.height h
  | [], h => by simp [peak]
  | t :: ts, h => by
    rw [peak, lt_max_iff, lt_peak_iff]
    constructor
    · rintro (hlt | ⟨us, hus, hlt⟩)
      · exact ⟨[], List.nil_prefix, hlt⟩
      · exact ⟨t :: us, List.cons_prefix_cons.mpr ⟨rfl, hus⟩, hlt⟩
    · rintro ⟨us, hus, hlt⟩
      rcases List.prefix_cons_iff.mp hus with rfl | ⟨rest, rfl, hrest⟩
      · exact Or.inl hlt
      · exact Or.inr ⟨rest, hrest, hlt⟩

/-- The scan with the open containers for the stack. -/
def scanHeights (maxDepth : Option ℕ) (n h : ℕ) : List Token → Except JsonError ℕ
  | [] => .ok n
  | t :: ts =>
    if t.punct.isSome then
      if maxJsonStructuralTokens < n + 1 then .error .structuralTokens
      else if maxDepth.any fun limit => limit < t.height h then .error .depth
      else scanHeights maxDepth (n + 1) (t.height h) ts
    else scanHeights maxDepth n h ts

theorem height_of_plain {t : Token} (h : t.punct = none) (k : ℕ) : t.height k = k := by
  cases t <;> first | rfl | cases h

/-- The limit is exceeded within the first tokens. -/
def ExceedsWithin (maxDepth : Option ℕ) (n h : ℕ) (ts : List Token) : Prop :=
  ∃ limit ∈ maxDepth, ∃ us, us <+: ts ∧ limit < us.foldl Token.height h ∧
    n + punctuation us ≤ maxJsonStructuralTokens

theorem exceedsWithin_nil {n h : ℕ} (hfits : ∀ limit ∈ maxDepth, h ≤ limit) :
    ¬ ExceedsWithin maxDepth n h [] := by
  rintro ⟨limit, hlimit, us, hus, hlt, -⟩
  obtain rfl := List.prefix_nil.mp hus
  exact absurd (hfits limit hlimit) (not_le.mpr hlt)

theorem exceedsWithin_cons {n h : ℕ} {t : Token} {ts : List Token}
    (hfits : ∀ limit ∈ maxDepth, h ≤ limit) : ExceedsWithin maxDepth n h (t :: ts) ↔
      (∃ limit ∈ maxDepth, limit < t.height h ∧
        n + (if t.punct.isSome then 1 else 0) ≤ maxJsonStructuralTokens) ∨
      ExceedsWithin maxDepth (n + if t.punct.isSome then 1 else 0) (t.height h) ts := by
  constructor
  · rintro ⟨limit, hlimit, us, hus, hlt, hn⟩
    rcases List.prefix_cons_iff.mp hus with rfl | ⟨rest, rfl, hrest⟩
    · exact absurd (hfits limit hlimit) (not_le.mpr hlt)
    · rw [punctuation_cons] at hn
      exact Or.inr ⟨limit, hlimit, rest, hrest, hlt, by omega⟩
  · rintro (⟨limit, hlimit, hlt, hn⟩ | ⟨limit, hlimit, us, hus, hlt, hn⟩)
    · refine ⟨limit, hlimit, [t], ?_, hlt, ?_⟩
      · exact List.cons_prefix_cons.mpr ⟨rfl, List.nil_prefix⟩
      · rw [punctuation_cons, punctuation_nil]
        omega
    · refine ⟨limit, hlimit, t :: us, List.cons_prefix_cons.mpr ⟨rfl, hus⟩, hlt, ?_⟩
      rw [punctuation_cons]
      omega

/-- Which error of the scan comes first. -/
theorem scanHeights_eq_depth : ∀ {ts : List Token} {n h : ℕ},
    (∀ limit ∈ maxDepth, h ≤ limit) →
    (scanHeights maxDepth n h ts = .error .depth ↔ ExceedsWithin maxDepth n h ts)
  | [], n, h, hfits => by
    simp only [scanHeights, reduceCtorEq, false_iff]
    exact exceedsWithin_nil hfits
  | t :: ts, n, h, hfits => by
    rw [scanHeights, exceedsWithin_cons hfits]
    split_ifs with hpunct hn hdeep
    · simp only [Except.error.injEq, reduceCtorEq, false_iff, not_or]
      constructor
      · rintro ⟨limit, -, -, hle⟩
        omega
      · rintro ⟨limit, -, us, -, -, hle⟩
        omega
    · simp only [true_iff]
      simp only [Option.any_eq_true, decide_eq_true_eq] at hdeep
      obtain ⟨limit, hlimit, hlt⟩ := hdeep
      exact Or.inl ⟨limit, hlimit, hlt, by omega⟩
    · simp only [Option.any_eq_true, decide_eq_true_eq, not_exists, not_and, not_lt] at hdeep
      rw [scanHeights_eq_depth hdeep, or_iff_right]
      rintro ⟨limit, hlimit, hlt, -⟩
      exact absurd (hdeep limit hlimit) (not_le.mpr hlt)
    · have hplain : t.punct = none := Option.not_isSome_iff_eq_none.mp hpunct
      rw [height_of_plain hplain, scanHeights_eq_depth hfits, or_iff_right]
      · rfl
      · rintro ⟨limit, hlimit, hlt, -⟩
        exact absurd (hfits limit hlimit) (not_le.mpr hlt)

theorem scanHeights_eq_ok : ∀ {ts : List Token} {n h m : ℕ},
    (∀ limit ∈ maxDepth, h ≤ limit) → n ≤ maxJsonStructuralTokens →
    (scanHeights maxDepth n h ts = .ok m ↔ m = n + punctuation ts ∧
      m ≤ maxJsonStructuralTokens ∧ ∀ limit ∈ maxDepth, peak h ts ≤ limit)
  | [], n, h, m, hfits, hn => by
    simp only [scanHeights, Except.ok.injEq, punctuation_nil, peak]
    constructor
    · rintro rfl
      exact ⟨rfl, hn, hfits⟩
    · rintro ⟨rfl, -⟩
      rfl
  | t :: ts, n, h, m, hfits, hn => by
    have hpeak : (∀ limit ∈ maxDepth, peak h (t :: ts) ≤ limit) ↔
        ∀ limit ∈ maxDepth, peak (t.height h) ts ≤ limit :=
      forall₂_congr fun limit hlimit => by simp [peak, hfits limit hlimit]
    rw [scanHeights, punctuation_cons, hpeak]
    split_ifs with hpunct hlimit hdeep
    · simp only [false_iff]
      omega
    · simp only [Option.any_eq_true, decide_eq_true_eq] at hdeep
      obtain ⟨limit, hlimit, hlt⟩ := hdeep
      simp only [false_iff]
      rintro ⟨-, -, hall⟩
      exact absurd ((le_peak _ ts).trans (hall limit hlimit)) (not_le.mpr hlt)
    · simp only [Option.any_eq_true, decide_eq_true_eq, not_exists, not_and, not_lt] at hdeep
      rw [scanHeights_eq_ok hdeep (by omega)]
      refine and_congr_left fun _ => ?_
      omega
    · have hplain : t.punct = none := Option.not_isSome_iff_eq_none.mp hpunct
      rw [height_of_plain hplain, scanHeights_eq_ok hfits hn]
      rfl

theorem scanHeights_error : ∀ {ts : List Token} {n h : ℕ} {e : JsonError},
    scanHeights maxDepth n h ts = .error e → e = .depth ∨ e = .structuralTokens
  | [], n, h, e, hscan => by cases hscan
  | t :: ts, n, h, e, hscan => by
    rw [scanHeights] at hscan
    split_ifs at hscan
    · exact Or.inr (Except.error.inj hscan).symm
    · exact Or.inl (Except.error.inj hscan).symm
    · exact scanHeights_error hscan
    · exact scanHeights_error hscan

/-! ## The tokens of a value -/

/-- The stack of the scan, when there is a limit. -/
def Stacked (maxDepth : Option ℕ) (stack : List CodePoint) (h : ℕ) : Prop :=
  ∀ limit ∈ maxDepth, stack.length = h ∧ h ≤ limit

theorem Stacked.fits {stack : List CodePoint} {h : ℕ} (hstack : Stacked maxDepth stack h) :
    (maxDepth.any fun limit => limit < h) = false := by
  cases maxDepth with
  | none => rfl
  | some limit => simpa using (hstack limit rfl).2

/-- From here both scans count the same. -/
def Agrees (maxDepth : Option ℕ) (stack : List CodePoint) (h : ℕ) (r : List Token) : Prop :=
  ∀ n, (scanTokens maxDepth (n, stack) r).map Prod.fst = scanHeights maxDepth n h r

/-- Tokens with `k` structural ones that open `d` containers at once and close them. -/
structure Spans (ts : List Token) (k d : ℕ) : Prop where
  count : punctuation ts = k
  highest : ∀ h r, peak h (ts ++ r) = max (h + d) (peak h r)
  agrees : ∀ {maxDepth : Option ℕ} {stack : List CodePoint} {h : ℕ} {r : List Token},
    Stacked maxDepth stack h → Agrees maxDepth stack h r → Agrees maxDepth stack h (ts ++ r)

theorem spans_nil : Spans [] 0 0 where
  count := rfl
  highest h r := by simp [le_peak]
  agrees _ hr := hr

theorem Spans.append {ts us : List Token} {k k' d d' : ℕ} (hts : Spans ts k d)
    (hus : Spans us k' d') : Spans (ts ++ us) (k + k') (max d d') where
  count := by rw [punctuation_append, hts.count, hus.count]
  highest h r := by
    rw [List.append_assoc, hts.highest, hus.highest]
    omega
  agrees hstack hr := by
    rw [List.append_assoc]
    exact hts.agrees hstack (hus.agrees hstack hr)

/-- A string, a number or a constant. -/
theorem spans_plain {t : Token} (h : t.punct = none) : Spans [t] 0 0 where
  count := by simp [punctuation_cons, h]
  highest k r := by simp [peak, height_of_plain h, le_peak]
  agrees _ hr n := by
    rw [List.singleton_append, scanTokens_cons, scanToken, scanHeights, h]
    exact hr n

/-- A comma or a colon. -/
theorem spans_separator {t : Token} (h : t = .comma ∨ t = .colon) : Spans [t] 1 0 where
  count := by rcases h with rfl | rfl <;> rfl
  highest k r := by rcases h with rfl | rfl <;> simp [peak, Token.height, le_peak]
  agrees {maxDepth stack k r} hstack hr n := by
    have hpunct : ∃ c, t.punct = some c ∧ scanDepth maxDepth stack c = .ok stack := by
      rcases h with rfl | rfl <;> refine ⟨_, rfl, ?_⟩ <;> cases maxDepth <;> rfl
    have hheight : t.height k = k := by rcases h with rfl | rfl <;> rfl
    obtain ⟨c, hc, hdepth⟩ := hpunct
    rw [List.singleton_append, scanTokens_cons, scanToken, scanHeights, hc, hheight, hstack.fits]
    simp only [hdepth, Option.isSome_some, if_true, Bool.false_eq_true, if_false]
    split_ifs with hn
    · rfl
    · exact hr (n + 1)

/-- The two brackets of a container. -/
def BracketTokens (opening closing : Token) : Prop :=
  opening = .lbrace ∧ closing = .rbrace ∨ opening = .lbrack ∧ closing = .rbrack

theorem Spans.container {opening closing : Token} (hb : BracketTokens opening closing)
    {ts : List Token} {k d : ℕ} (hts : Spans ts k d) :
    Spans (opening :: (ts ++ [closing])) (k + 2) (d + 1) where
  count := by
    rw [punctuation_cons, punctuation_append, hts.count]
    rcases hb with ⟨rfl, rfl⟩ | ⟨rfl, rfl⟩ <;> rfl
  highest h r := by
    have hopen : opening.height h = h + 1 := by rcases hb with ⟨rfl, -⟩ | ⟨rfl, -⟩ <;> rfl
    have hclose : closing.height (h + 1) = h := by rcases hb with ⟨-, rfl⟩ | ⟨-, rfl⟩ <;> rfl
    have hle := le_peak h r
    have hinner : peak h (opening :: (ts ++ (closing :: r))) =
        max h (max (h + 1 + d) (max (h + 1) (peak h r))) := by
      rw [peak, hopen, hts.highest, peak, hclose]
    simp only [List.cons_append, List.append_assoc, List.nil_append]
    rw [hinner]
    omega
  agrees {maxDepth stack h r} hstack hr n := by
    obtain ⟨c, e, hbrackets, hc, he⟩ : ∃ c e, Brackets c e ∧ opening.punct = some c ∧
        closing.punct = some e := by
      rcases hb with ⟨rfl, rfl⟩ | ⟨rfl, rfl⟩
      · exact ⟨'{', '}', Or.inl ⟨rfl, rfl⟩, rfl, rfl⟩
      · exact ⟨'[', ']', Or.inr ⟨rfl, rfl⟩, rfl, rfl⟩
    have hopen : opening.height h = h + 1 := by rcases hb with ⟨rfl, -⟩ | ⟨rfl, -⟩ <;> rfl
    have hclose : closing.height (h + 1) = h := by rcases hb with ⟨-, rfl⟩ | ⟨-, rfl⟩ <;> rfl
    have hpush : scanDepth maxDepth stack c =
        if maxDepth.any fun limit => limit < h + 1 then .error .depth
        else .ok (within maxDepth c stack) := by
      cases maxDepth with
      | none => rfl
      | some limit =>
        rw [← (hstack limit rfl).1]
        rcases hbrackets with ⟨rfl, -⟩ | ⟨rfl, -⟩ <;> simp [scanDepth, within]
    have hpop : scanDepth maxDepth (within maxDepth c stack) e = .ok stack := by
      cases maxDepth with
      | none => rfl
      | some limit => rcases hbrackets with ⟨rfl, rfl⟩ | ⟨rfl, rfl⟩ <;> rfl
    -- behind the closing bracket the stack is the one before the container
    have hend : Agrees maxDepth (within maxDepth c stack) (h + 1) (closing :: r) := by
      intro m
      rw [scanTokens_cons, scanToken, scanHeights, he, hclose, hstack.fits]
      simp only [hpop, Option.isSome_some, if_true, Bool.false_eq_true, if_false]
      split_ifs with hm
      · rfl
      · exact hr (m + 1)
    simp only [List.cons_append, List.append_assoc, List.nil_append]
    rw [scanTokens_cons, scanToken, scanHeights, hc, hopen]
    simp only [hpush, Option.isSome_some, if_true]
    split_ifs with hn hdeep
    · rfl
    · rfl
    · simp only [Option.any_eq_true, decide_eq_true_eq, not_exists, not_and, not_lt] at hdeep
      refine hts.agrees (fun limit hlimit => ⟨?_, hdeep limit hlimit⟩) hend (n + 1)
      rw [Option.mem_def.mp hlimit]
      exact congrArg (· + 1) (hstack limit hlimit).1

theorem spans_items {α : Type*} {toks : α → List Token} {count open_ : α → ℕ} (close : Token) :
    ∀ {xs : List α}, (∀ x ∈ xs, Spans (toks x) (count x) (open_ x)) →
      ∃ ts, tokenItems close (xs.map toks) = ts ++ [close] ∧
        Spans ts (xs.length - 1 + (xs.map count).sum) (maxOf open_ xs)
  | [], _ => ⟨[], rfl, spans_nil⟩
  | x :: xs, h => by
    have hrest : ∀ {xs : List α}, (∀ x ∈ xs, Spans (toks x) (count x) (open_ x)) →
        Spans ((xs.map toks).flatMap (.comma :: ·)) (xs.length + (xs.map count).sum)
          (maxOf open_ xs) := by
      intro xs
      induction xs with
      | nil => exact fun _ => spans_nil
      | cons y ys ih =>
        intro h
        have hcomma : Spans [.comma] 1 0 := spans_separator (Or.inl rfl)
        have hall := (hcomma.append (h y (by simp))).append (ih fun z hz => h z (by simp [hz]))
        rw [List.map_cons, List.flatMap_cons, List.length_cons, List.map_cons, List.sum_cons]
        convert hall using 1
        · simp
        · omega
        · simp [maxOf]
    refine ⟨toks x ++ (xs.map toks).flatMap (.comma :: ·), ?_, ?_⟩
    · simp [tokenItems, tokenRest_eq]
    · have hall := (h x List.mem_cons_self).append
        (hrest fun y hy => h y (List.mem_cons_of_mem x hy))
      rw [List.length_cons, List.map_cons, List.sum_cons]
      convert hall using 1
      · omega
      · simp [maxOf]

/-- What the scans count in a value. -/
theorem spans_tokens (v : Json) : Spans v.tokens v.structuralTokens v.depth := by
  induction v with
  | null => exact spans_plain rfl
  | bool b => exact spans_plain rfl
  | int n => exact spans_plain rfl
  | float x => exact spans_plain rfl
  | str s => exact spans_plain rfl
  | arr xs ih =>
    obtain ⟨ts, hts, hspans⟩ := spans_items .rbrack ih
    rw [tokens_arr, hts, structuralTokens_arr, depth_arr]
    convert hspans.container (Or.inr ⟨rfl, rfl⟩) using 1
    omega
  | obj ms ih =>
    have hmember : ∀ m ∈ ms, Spans (memberTokens m) (1 + m.2.structuralTokens) m.2.depth := by
      intro m hm
      have hcolon : Spans [.colon] 1 0 := spans_separator (Or.inr rfl)
      have hname : Spans [.str m.1] 0 0 := spans_plain rfl
      have hall := hname.append (hcolon.append (ih m hm))
      convert hall using 1
      · simp [memberTokens]
      · omega
      · simp
    obtain ⟨ts, hts, hspans⟩ := spans_items .rbrace hmember
    rw [tokens_obj, hts, structuralTokens_obj, depth_obj]
    convert hspans.container (Or.inl ⟨rfl, rfl⟩) using 1
    rw [List.sum_map_add]
    simp
    omega

theorem punctuation_le_of_prefix {ts us : List Token} (h : us <+: ts) :
    punctuation us ≤ punctuation ts := by
  obtain ⟨rest, rfl⟩ := h
  rw [punctuation_append]
  omega

/-- The scan of an accepted text, by the tokens of its value. -/
theorem scan_of_loads {text : PyStr} {v : Json} (h : loads text = .ok v) :
    (scan maxDepth ⟨false, false, 0, []⟩ text).map ScanState.tokenCount =
      scanHeights maxDepth 0 0 v.tokens := by
  have hlex := lex_of_loads h
  have hgood : ∀ e, .bad e ∉ lex .idle text := by
    intro e
    rw [hlex]
    exact bad_not_mem_tokens v e
  have hscan := @scan_lex maxDepth text .idle (0, []) hgood
  have hstack : Stacked maxDepth [] 0 := fun limit _ => ⟨rfl, Nat.zero_le limit⟩
  have hcount := (spans_tokens v).agrees hstack (r := []) (fun _ => rfl) 0
  have hstart : LexState.idle.mirror (0, []) = ⟨false, false, 0, []⟩ := rfl
  rw [List.append_nil] at hcount
  rw [← hcount, ← hstart, hscan, hlex]
  cases scanTokens maxDepth (0, []) v.tokens <;> rfl

theorem check_eq_error {text : PyStr} {v : Json} (h : loads text = .ok v) {e : JsonError} :
    checkStructuralTokenBudget text maxDepth = .error e ↔
      scanHeights maxDepth 0 0 v.tokens = .error e := by
  rw [← scan_of_loads h, checkStructuralTokenBudget]
  cases scan maxDepth ⟨false, false, 0, []⟩ text with
  | error e => simp [bind, Except.bind, Except.map]
  | ok s => simp [bind, Except.bind, Except.map, pure, Except.pure]

theorem check_eq_ok {text : PyStr} {v : Json} (h : loads text = .ok v) :
    checkStructuralTokenBudget text maxDepth = .ok () ↔
      ∃ n, scanHeights maxDepth 0 0 v.tokens = .ok n := by
  rw [← scan_of_loads h, checkStructuralTokenBudget]
  cases scan maxDepth ⟨false, false, 0, []⟩ text with
  | error e => simp [bind, Except.bind, Except.map]
  | ok s => simp [bind, Except.bind, Except.map, pure, Except.pure]

theorem peak_tokens (v : Json) : peak 0 v.tokens = v.depth := by
  simpa [peak] using (spans_tokens v).highest 0 []

/-- Some prefix of the tokens exceeds the limit when the value is nested deeper. -/
theorem exceedsWithin_tokens {v : Json} : ExceedsWithin maxDepth 0 0 v.tokens ↔
    ∃ limit ∈ maxDepth, limit < v.depth ∧ ∃ ts, ts <+: v.tokens ∧
      limit < openContainers ts ∧ punctuation ts ≤ maxJsonStructuralTokens := by
  simp only [ExceedsWithin, Nat.zero_add, openContainers]
  refine exists_congr fun limit => and_congr_right fun _ => ⟨?_, And.right⟩
  rintro ⟨us, hus, hlt, hle⟩
  exact ⟨peak_tokens v ▸ lt_peak_iff.mpr ⟨us, hus, hlt⟩, us, hus, hlt, hle⟩

theorem scanHeights_tokens_eq_ok {v : Json} {n : ℕ} :
    scanHeights maxDepth 0 0 v.tokens = .ok n ↔ n = v.structuralTokens ∧
      n ≤ maxJsonStructuralTokens ∧ ∀ limit ∈ maxDepth, v.depth ≤ limit := by
  have hok := @scanHeights_eq_ok maxDepth v.tokens 0 0 n
    (fun limit _ => Nat.zero_le limit) (Nat.zero_le _)
  rwa [Nat.zero_add, (spans_tokens v).count, peak_tokens] at hok

/-- What the structural scan says of an accepted text. The tokens are those of the parser's own
lexer, where a string is one token whatever it holds. The depth error stands for a value that is
nested deeper than the limit, when the limit is exceeded before the token budget is. -/
theorem checkStructuralTokenBudget_loads {text : PyStr} {v : Json} (h : loads text = .ok v)
    (maxDepth : Option ℕ) :
    (checkStructuralTokenBudget text maxDepth = .error .depth ↔
      ∃ limit ∈ maxDepth, limit < v.depth ∧ ∃ ts, ts <+: lex .idle text ∧
        limit < openContainers ts ∧ punctuation ts ≤ maxJsonStructuralTokens) ∧
    (checkStructuralTokenBudget text maxDepth = .ok () ↔
      v.structuralTokens ≤ maxJsonStructuralTokens ∧ ∀ limit ∈ maxDepth, v.depth ≤ limit) ∧
    (checkStructuralTokenBudget text maxDepth = .error .structuralTokens ↔
      checkStructuralTokenBudget text maxDepth ≠ .error .depth ∧
        maxJsonStructuralTokens < v.structuralTokens) ∧
    (∀ s, scan maxDepth ⟨false, false, 0, []⟩ text = .ok s →
      s.tokenCount = punctuation (lex .idle text)) ∧
    punctuation (lex .idle text) = v.structuralTokens := by
  have hlex := lex_of_loads h
  have hcount : punctuation (lex .idle text) = v.structuralTokens :=
    hlex ▸ (spans_tokens v).count
  have hdepth : checkStructuralTokenBudget text maxDepth = .error .depth ↔
      ∃ limit ∈ maxDepth, limit < v.depth ∧ ∃ ts, ts <+: lex .idle text ∧
        limit < openContainers ts ∧ punctuation ts ≤ maxJsonStructuralTokens := by
    rw [check_eq_error h, scanHeights_eq_depth fun limit _ => Nat.zero_le limit, hlex]
    exact exceedsWithin_tokens
  have hok : checkStructuralTokenBudget text maxDepth = .ok () ↔
      v.structuralTokens ≤ maxJsonStructuralTokens ∧ ∀ limit ∈ maxDepth, v.depth ≤ limit := by
    rw [check_eq_ok h]
    simp only [scanHeights_tokens_eq_ok, exists_eq_left]
  refine ⟨hdepth, hok, ⟨fun htokens => ?_, fun hlong => ?_⟩, fun s hs => ?_, hcount⟩
  · -- within the budget the scan would have raised the depth error, or none
    have hnot : checkStructuralTokenBudget text maxDepth ≠ .error .depth := by
      rw [htokens]
      simp
    refine ⟨hnot, ?_⟩
    by_contra hle
    rw [not_lt] at hle
    have hfails : checkStructuralTokenBudget text maxDepth ≠ .ok () := by
      rw [htokens]
      simp
    refine hfails (hok.mpr ⟨hle, fun limit hlimit => ?_⟩)
    by_contra hlt
    rw [not_le] at hlt
    obtain ⟨us, hus, hopen⟩ := lt_peak_iff.mp ((peak_tokens v).symm ▸ hlt)
    have hprefix := punctuation_le_of_prefix hus
    rw [(spans_tokens v).count] at hprefix
    exact hnot (hdepth.mpr ⟨limit, hlimit, hlt, us, hlex ▸ hus, hopen, hprefix.trans hle⟩)
  · cases hcheck : checkStructuralTokenBudget text maxDepth with
    | ok _ => exact absurd (hok.mp hcheck).1 (not_le.mpr hlong.2)
    | error e =>
      rcases scanHeights_error ((check_eq_error h).mp hcheck) with rfl | rfl
      · exact absurd hcheck hlong.1
      · rfl
  · have hscan := @scan_of_loads maxDepth _ _ h
    rw [hs] at hscan
    exact (scanHeights_tokens_eq_ok.mp hscan.symm).1.trans hcount.symm

/-- Two arrays, one in the other, and the limit one. -/
theorem checkStructuralTokenBudget_nested :
    checkStructuralTokenBudget (render (.arr [.arr []])) (some 1) = .error .depth := by
  have hload : loads (render (.arr [.arr []])) = .ok (.arr [.arr []]) :=
    loads_render (by simp) (by simp)
  refine (checkStructuralTokenBudget_loads hload (some 1)).1.mpr ⟨1, rfl, by decide, ?_⟩
  rw [lex_of_loads hload]
  exact ⟨[.lbrack, .lbrack], ⟨[.rbrack, .rbrack], rfl⟩, by decide, by decide⟩

/-! ## The budget comes first -/

/-- Many empty arrays, and then one within an array. -/
def wide (n : ℕ) : Json :=
  .arr (List.replicate n (.arr []) ++ [.arr [.arr []]])

theorem tokens_wide (n : ℕ) : (wide n).tokens =
    .lbrack :: ((List.replicate n [Token.lbrack, .rbrack, .comma]).flatten ++
      [.lbrack, .lbrack, .rbrack, .rbrack, .rbrack]) := by
  rw [wide, tokens_arr, List.map_append, List.map_replicate, List.map_singleton,
    tokenItems_concat]
  simp [List.flatMap, tokens_arr, tokenItems, tokenRest]

theorem depth_wide (n : ℕ) : (wide n).depth = 3 := by
  have hinner : maxOf depth (List.replicate n (arr []) ++ [arr [arr []]]) = 2 := by
    induction n with
    | zero => rfl
    | succ n ih =>
      rw [List.replicate_succ, List.cons_append, maxOf, List.foldr_cons, ← maxOf, ih]
      rfl
  rw [wide, depth_arr, hinner]

theorem loads_wide (n : ℕ) : loads (render (wide n)) = .ok (wide n) := by
  have hitem : ∀ x ∈ List.replicate n (arr []) ++ [arr [arr []]], x.WF ∧ x.Plain := by
    simp only [List.mem_append, List.mem_singleton]
    rintro x (hx | rfl)
    · obtain rfl := List.eq_of_mem_replicate hx
      simp
    · simp
  exact loads_render (wf_arr.mpr fun x hx => (hitem x hx).1)
    (plain_arr.mpr fun x hx => (hitem x hx).2)

/-- The budget ends within the empty arrays. -/
theorem scanHeights_empties (r : List Token) : ∀ {m n : ℕ}, n ≤ maxJsonStructuralTokens →
    maxJsonStructuralTokens < n + 3 * m → scanHeights (some 2) n 1
      ((List.replicate m [Token.lbrack, .rbrack, .comma]).flatten ++ r) =
        .error .structuralTokens
  | 0, n, hn, hlt => absurd hn (by omega)
  | m + 1, n, hn, hlt => by
    have hone : ∀ k, scanHeights (some 2) n 1 (.lbrack :: .rbrack :: .comma :: k) =
        if maxJsonStructuralTokens < n + 3 then .error .structuralTokens
        else scanHeights (some 2) (n + 3) 1 k := by
      intro k
      simp only [scanHeights, Token.punct, Token.height, Option.isSome_some, if_true,
        Option.any_some, Nat.reduceAdd, Nat.reduceSub, Nat.reduceLT, decide_false,
        Bool.false_eq_true, if_false]
      split_ifs with h1 h2 h3 <;> first | rfl | omega
    simp only [List.replicate_succ, List.flatten_cons, List.cons_append, List.nil_append]
    rw [hone]
    split_ifs with hend
    · rfl
    · exact scanHeights_empties r (by omega) (by omega)

theorem scanHeights_wide {n : ℕ} (h : maxJsonStructuralTokens < 1 + 3 * n) :
    scanHeights (some 2) 0 0 (wide n).tokens = .error .structuralTokens := by
  rw [tokens_wide, scanHeights]
  exact scanHeights_empties _ (by decide) h

/-- A wide value is nested deeper than the limit, and the scan raises the other error. -/
theorem depth_not_exact : ¬ ∀ (text : PyStr) (v : Json) (limit : ℕ), loads text = .ok v →
    (checkStructuralTokenBudget text (some limit) = .error .depth ↔ limit < v.depth) := by
  intro hall
  have hload := loads_wide 200000
  have hdeep := (hall _ _ 2 hload).mpr (by rw [depth_wide]; decide)
  rw [check_eq_error hload, scanHeights_wide (by decide)] at hdeep
  cases hdeep

end Tokens

end Py
