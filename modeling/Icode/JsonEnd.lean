import Icode.ControlFiles
import Icode.Utf8

/-!
# The end of a JSON object

An object ends with its closing brace, and the lexer holds nothing back there (`lexState_of_loads`).
So a text that is an object, followed by anything else than white space, is no JSON text
(`isJsonSpace_of_loads_append`) : of two byte strings that are objects, one is the start of the
other only when white space follows (`isJsonSpace_of_loadJsonFile`).
-/

namespace Py

/-! ## The lexer in the middle of a text -/

/-- The state of the lexer after a text. -/
def lexState : LexState → PyStr → LexState
  | st, [] => st
  | st, c :: cs => lexState (lexStep st c).2 cs

/-- The tokens that end within a text. -/
def lexDone : LexState → PyStr → List Token
  | _, [] => []
  | st, c :: cs => (lexStep st c).1 ++ lexDone (lexStep st c).2 cs

theorem lex_cons (st : LexState) (c : CodePoint) (cs : PyStr) :
    lex st (c :: cs) = (lexStep st c).1 ++ lex (lexStep st c).2 cs := by
  cases st <;> rfl

theorem lex_append (st : LexState) (s t : PyStr) :
    lex st (s ++ t) = lexDone st s ++ lex (lexState st s) t := by
  induction s generalizing st with
  | nil => rfl
  | cons c s ih => rw [List.cons_append, lex_cons, ih, lexDone, lexState, List.append_assoc]

theorem wordTokens_ne_nil (w : List Char) : wordTokens w ≠ [] := by
  unfold wordTokens
  split_ifs
  · simp
  · simp
  · simp
  · simp
  · split <;> simp

theorem numberToken_ne_rbrace (w : List Char) : (numberToken w).1 ≠ .rbrace := by
  unfold numberToken
  split
  · simp
  · dsimp only
    split_ifs <;> simp

theorem ne_rbrace_of_mem_wordTokens {w : List Char} : ∀ t ∈ wordTokens w, t ≠ .rbrace := by
  have hnumber := numberToken_ne_rbrace w
  unfold wordTokens
  split_ifs
  · simp
  · simp
  · simp
  · simp
  · split <;> rename_i t _ heq
    · simpa [heq] using hnumber
    · simpa [heq] using hnumber

/-- Inside a word or a string a token is still to come, and it is no brace. -/
theorem lex_nil_of_ne_idle {st : LexState} (h : st ≠ .idle) :
    lex st [] ≠ [] ∧ ∀ t ∈ lex st [], t ≠ .rbrace := by
  cases st with
  | idle => exact absurd rfl h
  | word w => exact ⟨wordTokens_ne_nil w, ne_rbrace_of_mem_wordTokens⟩
  | _ => simp [lex]

theorem lexStep_of_ne_idle {st : LexState} (h : st ≠ .idle) (c : CodePoint) :
    (lexStep st c).1 ≠ [] ∨ (lexStep st c).2 ≠ .idle := by
  cases st with
  | idle => exact absurd rfl h
  | word w =>
    rw [lexStep]
    split_ifs
    · exact Or.inl fun he => wordTokens_ne_nil w (List.append_eq_nil_iff.mp he).1
    · exact Or.inr (by simp)
  | inString us =>
    rw [lexStep]
    split_ifs <;> simp
  | escape us =>
    rw [lexStep]
    split_ifs
    · simp
    · split <;> simp
  | hex us count value =>
    rw [lexStep]
    split
    · simp
    · split_ifs <;> simp

theorem lex_ne_nil {st : LexState} (h : st ≠ .idle) (s : PyStr) : lex st s ≠ [] := by
  induction s generalizing st with
  | nil => exact (lex_nil_of_ne_idle h).1
  | cons c s ih =>
    rw [lex_cons]
    rcases lexStep_of_ne_idle h c with htokens | hstate
    · exact fun he => htokens (List.append_eq_nil_iff.mp he).1
    · exact fun he => ih hstate (List.append_eq_nil_iff.mp he).2

/-- A text without tokens is white space. -/
theorem isJsonSpace_of_lex_eq_nil {s : PyStr} (h : lex .idle s = []) :
    ∀ c ∈ s, isJsonSpace c = true := by
  induction s with
  | nil => simp
  | cons c s ih =>
    rw [lex_cons, List.append_eq_nil_iff] at h
    obtain ⟨hstep, hrest⟩ := h
    have hidle : (lexStep .idle c).2 = .idle := by
      by_contra hne
      exact lex_ne_nil hne s hrest
    have hspace : isJsonSpace c = true := by
      rw [lexStep, lexIdle] at hstep hidle
      split_ifs at hstep hidle with hspace
      · exact hspace
      · cases hp : punctToken c with
        | none => simp [hp] at hidle
        | some t => simp [hp] at hstep
    rw [hidle] at hrest
    exact List.forall_mem_cons.mpr ⟨hspace, ih hrest⟩

/-! ## The parser at its end -/

theorem parseTokens_append {s s' : ParseState} {ts us : List Token} :
    parseTokens s (ts ++ us) = .ok s' ↔
      ∃ m, parseTokens s ts = .ok m ∧ parseTokens m us = .ok s' := by
  induction ts generalizing s with
  | nil => simp [parseTokens]
  | cons t ts ih =>
    simp only [List.cons_append, parseTokens, bind_eq_ok, ih]
    constructor
    · rintro ⟨u, hu, m, hm, hs⟩
      exact ⟨m, ⟨u, hu, hm⟩, hs⟩
    · rintro ⟨m, ⟨u, hu, hm⟩, hs⟩
      exact ⟨u, hu, m, hm, hs⟩

/-- Nothing may follow a value. -/
theorem parseStep_done {stack : List Frame} {v : Json} {t : Token} {s : ParseState} :
    parseStep ⟨stack, .done v⟩ t ≠ .ok s := by
  cases t <;> simp [parseStep]

theorem valueDone_expect {v w : Json} {stack : List Frame} (h : (valueDone v stack).expect = .done w) :
    v = w := by
  unfold valueDone at h
  split at h
  · exact Expect.done.inj h
  · cases h
  · cases h

/-- A value that is an object ends with its brace. -/
theorem eq_rbrace_of_parseStep {s s' : ParseState} {t : Token} {ms : Members}
    (h : parseStep s t = .ok s') (hdone : s'.expect = .done (.obj ms)) : t = .rbrace := by
  have hclose : ∀ {stack : List Frame}, closeFrame stack t = .ok s' → t = .rbrace := by
    intro stack hs
    unfold closeFrame at hs
    split at hs
    · obtain rfl := Except.ok.inj hs
      cases valueDone_expect hdone
    · rfl
    · cases hs
  have hvalue : ∀ {stack : List Frame}, parseValue stack t = .ok s' → t = .rbrace := by
    intro stack hs
    cases t <;> simp only [parseValue, reduceCtorEq, Except.ok.injEq] at hs <;> subst hs
    case lbrace => cases hdone
    case lbrack => cases hdone
    all_goals cases valueDone_expect hdone
  have hkey : ∀ {stack : List Frame}, parseKey stack t = .ok s' → t = .rbrace := by
    intro stack hs
    unfold parseKey at hs
    split at hs
    · obtain rfl := Except.ok.inj hs
      cases hdone
    · cases hs
  unfold parseStep at h
  split at h
  case h_1 => cases h
  case h_2 => exact hvalue h
  case h_3 => exact hclose h
  case h_4 => exact hvalue h
  case h_5 => exact hclose h
  case h_6 => exact hkey h
  case h_7 => exact hkey h
  case h_8 =>
    obtain rfl := Except.ok.inj h
    cases hdone
  case h_9 =>
    unfold parseNext at h
    split at h
    · obtain rfl := Except.ok.inj h
      cases hdone
    · obtain rfl := Except.ok.inj h
      cases hdone
    · exact hclose h
  case h_10 => cases h

/-- The text is an object exactly when its tokens are, and the lexer holds nothing back then. -/
theorem lexState_of_loads {s : PyStr} {ms : Members} (h : loads s = .ok (.obj ms)) :
    lexState .idle s = .idle ∧ ∃ stack,
      parseTokens ⟨[], .value⟩ (lexDone .idle s) = .ok ⟨stack, .done (.obj ms)⟩ := by
  unfold loads at h
  rw [bind_eq_ok] at h
  obtain ⟨⟨stack, expect⟩, hparse, hdone⟩ := h
  have hexpect : expect = .done (.obj ms) := by
    dsimp only at hdone
    split at hdone
    · rw [Except.ok.inj hdone]
    · cases hdone
  subst hexpect
  rw [← List.append_nil s, lex_append] at hparse
  by_cases hidle : lexState .idle s = .idle
  · rw [hidle, lex, List.append_nil] at hparse
    exact ⟨hidle, stack, hparse⟩
  · obtain ⟨hne, hbrace⟩ := lex_nil_of_ne_idle hidle
    rw [← List.dropLast_append_getLast hne, ← List.append_assoc, parseTokens_append] at hparse
    obtain ⟨m, -, hlast⟩ := hparse
    simp only [parseTokens, bind_eq_ok] at hlast
    obtain ⟨s', hstep, hs'⟩ := hlast
    obtain rfl := Except.ok.inj hs'
    exact absurd (eq_rbrace_of_parseStep hstep rfl) (hbrace _ (List.getLast_mem hne))

/-- What follows an object in a JSON text is white space. -/
theorem isJsonSpace_of_loads_append {s t : PyStr} {ms : Members} {v : Json}
    (h : loads s = .ok (.obj ms)) (h' : loads (s ++ t) = .ok v) :
    ∀ c ∈ t, isJsonSpace c = true := by
  obtain ⟨hidle, stack, hs⟩ := lexState_of_loads h
  unfold loads at h'
  rw [bind_eq_ok, lex_append, hidle] at h'
  obtain ⟨s', hparse, -⟩ := h'
  rw [parseTokens_append] at hparse
  obtain ⟨m, hm, hrest⟩ := hparse
  obtain rfl := Except.ok.inj (hs.symm.trans hm)
  apply isJsonSpace_of_lex_eq_nil
  cases htokens : lex .idle t with
  | nil => rfl
  | cons token tokens =>
    rw [htokens, parseTokens, bind_eq_ok] at hrest
    obtain ⟨u, hu, -⟩ := hrest
    exact absurd hu parseStep_done

/-! ## Files -/

/-- A text that is decoded is the start of every text whose bytes go on. -/
theorem decode_append {a b : Bytes} {s t : PyStr} (h : decode a = some s)
    (h' : decode (a ++ b) = some t) : ∃ u, decode b = some u ∧ t = s ++ u := by
  rw [decode_eq_some, encode] at h
  split_ifs at h with hs
  obtain rfl := Option.some.inj h
  unfold decode at h' ⊢
  rw [decodePrefix_encodePass hs] at h'
  split at h'
  · next s' heq =>
    obtain ⟨rfl, hrest⟩ := Prod.mk.inj heq
    have hb : decodePrefix b = ((decodePrefix b).1, []) := Prod.ext rfl hrest
    rw [hb]
    exact ⟨_, rfl, (Option.some.inj h').symm⟩
  · cases h'

end Py

namespace Icode

open Py

/-- A file that goes on after an object holds no other byte than white space there. -/
theorem isJsonSpace_of_loadJsonFile {a b : Bytes} {n m : ℕ} {ms : Members} {v : Json}
    (h : loadJsonFile a n = .ok (.obj ms)) (h' : loadJsonFile (a ++ b) m = .ok v) :
    ∃ u, decode b = some u ∧ ∀ c ∈ u, isJsonSpace c = true := by
  unfold loadJsonFile readBoundedText readBoundedBytes at h h'
  simp only [bind_eq_ok, orRaise_eq_ok, mapError_eq_ok] at h h'
  obtain ⟨s, ⟨raw, hraw, hs⟩, hload⟩ := h
  obtain ⟨t, ⟨raw', hraw', ht⟩, hload'⟩ := h'
  split_ifs at hraw hraw'
  obtain rfl := Except.ok.inj hraw
  obtain rfl := Except.ok.inj hraw'
  obtain ⟨u, hu, rfl⟩ := decode_append hs ht
  exact ⟨u, hu, isJsonSpace_of_loads_append (loadsJsonValue_ok hload).1 (loadsJsonValue_ok hload').1⟩

end Icode
