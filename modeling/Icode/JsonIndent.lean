import Icode.JsonReread

/-!
# Indented JSON

`renderIndent` is `json.dumps(value, ensure_ascii=False, indent=2)`: every item of a container
stands on a line of its own, two blanks deeper than its container. The white space is all that
tells it from `render`, so both texts have the same tokens (`lexWith_renderIndent`), and what was
written is loaded again (`loads_renderIndent`).
-/

namespace Py

open Json

/-- A line end and the blanks of a level. -/
def newline (level : ℕ) : PyStr :=
  .scalar '\n' :: List.replicate (2 * level) (.scalar ' ')

/-- The items after the first one, and the closing bracket. -/
def indentRest (level : ℕ) (close : CodePoint) : List PyStr → PyStr
  | [] => newline level ++ [close]
  | x :: xs => .scalar ',' :: (newline (level + 1) ++ x ++ indentRest level close xs)

/-- The items of a container at a level, and the closing bracket. -/
def indentItems (level : ℕ) (close : CodePoint) : List PyStr → PyStr
  | [] => [close]
  | x :: xs => newline (level + 1) ++ x ++ indentRest level close xs

namespace Json

mutual

/-- The encoder with `indent=2`, at a level. -/
def renderIndent (level : ℕ) : Json → PyStr
  | .arr xs => '[' :: indentItems level ']' (renderIndentList (level + 1) xs)
  | .obj ms => '{' :: indentItems level '}' (renderIndentMembers (level + 1) ms)
  | v => render v

def renderIndentList (level : ℕ) : List Json → List PyStr
  | [] => []
  | x :: xs => renderIndent level x :: renderIndentList level xs

def renderIndentMembers (level : ℕ) : Members → List PyStr
  | [] => []
  | (k, x) :: ms => (quote k ++ lit ": " ++ renderIndent level x) :: renderIndentMembers level ms

end

/-- `json.dumps(value, ensure_ascii=False, indent=2)`. -/
def dumpsIndent (v : Json) : PyStr :=
  v.renderIndent 0

/-- `"key": value`. -/
def renderIndentMember (level : ℕ) (m : PyStr × Json) : PyStr :=
  quote m.1 ++ lit ": " ++ renderIndent level m.2

theorem renderIndentList_eq (level : ℕ) (xs : List Json) :
    renderIndentList level xs = xs.map (renderIndent level) := by
  induction xs with
  | nil => rfl
  | cons x xs ih => exact congrArg (renderIndent level x :: ·) ih

theorem renderIndentMembers_eq (level : ℕ) (ms : Members) :
    renderIndentMembers level ms = ms.map (renderIndentMember level) := by
  induction ms with
  | nil => rfl
  | cons m ms ih => exact congrArg (renderIndentMember level m :: ·) ih

theorem renderIndent_arr (level : ℕ) (xs : List Json) : renderIndent level (.arr xs) =
    .scalar '[' :: indentItems level ']' (xs.map (renderIndent (level + 1))) := by
  rw [← renderIndentList_eq]
  rfl

theorem renderIndent_obj (level : ℕ) (ms : Members) : renderIndent level (.obj ms) =
    .scalar '{' :: indentItems level '}' (ms.map (renderIndentMember (level + 1))) := by
  rw [← renderIndentMembers_eq]
  rfl

theorem renderIndent_str (level : ℕ) (s : PyStr) : renderIndent level (.str s) = quote s :=
  rfl

theorem renderIndent_scalar {v : Json} {s : List Char} (h : scalarText v = some s) (level : ℕ) :
    renderIndent level v = ofChars s := by
  have hrender : renderIndent level v = render v := by
    cases v with
    | arr xs => simp [scalarText] at h
    | obj ms => simp [scalarText] at h
    | _ => rfl
  rw [hrender, render_scalar h]

end Json

/-! ## The tokens of an indented text -/

section Lexer

variable {words : List Char → List Token}

theorem lexWith_space {c : CodePoint} (h : isJsonSpace c = true) (r : PyStr) :
    lexWith words .idle (c :: r) = lexWith words .idle r := by
  simp [lexWith_cons, lexStepWith_idle, lexIdle, h]

theorem lexWith_spaces {s : PyStr} (h : ∀ c ∈ s, isJsonSpace c = true) (r : PyStr) :
    lexWith words .idle (s ++ r) = lexWith words .idle r := by
  induction s with
  | nil => rfl
  | cons c s ih =>
    rw [List.cons_append, lexWith_space (h c (by simp)), ih fun d hd => h d (by simp [hd])]

theorem isJsonSpace_newline {level : ℕ} : ∀ c ∈ newline level, isJsonSpace c = true := by
  intro c hc
  rcases List.mem_cons.mp hc with rfl | hc
  · decide
  · obtain ⟨-, rfl⟩ := List.mem_replicate.mp hc
    decide

theorem stops_newline (level : ℕ) (r : PyStr) : Stops (newline level ++ r) := by
  intro c hc
  obtain rfl : CodePoint.scalar '\n' = c := by simpa [newline] using hc
  decide

theorem stops_indentRest (level : ℕ) (close : CodePoint) (xs : List PyStr) (r : PyStr) :
    Stops (indentRest level close xs ++ r) := by
  cases xs with
  | nil =>
    rw [indentRest, List.append_assoc]
    exact stops_newline _ _
  | cons x xs =>
    intro c hc
    obtain rfl : CodePoint.scalar ',' = c := by simpa [indentRest] using hc
    decide

theorem lexWith_indentRest {α : Type*} {level : ℕ} {text : α → PyStr} {toks : α → List Token}
    {close : Char} {t : Token}
    (ht : ∀ r, lexWith words .idle (.scalar close :: r) = t :: lexWith words .idle r)
    {xs : List α} (r : PyStr) (h : ∀ x ∈ xs, ∀ r, Stops r →
      lexWith words .idle (text x ++ r) = toks x ++ lexWith words .idle r) :
    lexWith words .idle (indentRest level close (xs.map text) ++ r) =
      tokenRest t (xs.map toks) ++ lexWith words .idle r := by
  induction xs with
  | nil =>
    rw [List.map_nil, indentRest, List.append_assoc, lexWith_spaces isJsonSpace_newline]
    exact ht r
  | cons x xs ih =>
    simp only [List.map_cons, indentRest, tokenRest, List.cons_append, List.append_assoc]
    rw [lexWith_comma, lexWith_spaces isJsonSpace_newline,
      h x (by simp) _ (stops_indentRest _ _ _ _), ih fun y hy => h y (by simp [hy])]

theorem lexWith_indentItems {α : Type*} {level : ℕ} {text : α → PyStr} {toks : α → List Token}
    {close : Char} {t : Token}
    (ht : ∀ r, lexWith words .idle (.scalar close :: r) = t :: lexWith words .idle r)
    {xs : List α} (r : PyStr) (h : ∀ x ∈ xs, ∀ r, Stops r →
      lexWith words .idle (text x ++ r) = toks x ++ lexWith words .idle r) :
    lexWith words .idle (indentItems level close (xs.map text) ++ r) =
      tokenItems t (xs.map toks) ++ lexWith words .idle r := by
  cases xs with
  | nil => exact ht r
  | cons x xs =>
    simp only [List.map_cons, indentItems, tokenItems, List.append_assoc]
    rw [lexWith_spaces isJsonSpace_newline, h x (by simp) _ (stops_indentRest _ _ _ _),
      lexWith_indentRest ht r fun y hy => h y (by simp [hy])]

namespace Json

/-- An indented value lexes to the tokens of the value. -/
theorem lexWith_renderIndent (v : Json) : ∀ (level : ℕ) (r : PyStr), Stops r →
    lexWith words .idle (renderIndent level v ++ r) =
      tokensWith words v ++ lexWith words .idle r := by
  have hscalar : ∀ {v : Json} {s : List Char}, scalarText v = some s → ∀ (level : ℕ) (r : PyStr),
      Stops r → lexWith words .idle (renderIndent level v ++ r) =
        tokensWith words v ++ lexWith words .idle r := by
    intro v s hs level r hr
    rw [renderIndent_scalar hs, lexWith_scalar hs hr, tokensWith_scalar words hs]
  induction v with
  | null => exact hscalar rfl
  | bool b => cases b <;> exact hscalar rfl
  | int n => exact hscalar rfl
  | float x => exact hscalar rfl
  | str s =>
    intro level r _
    rw [renderIndent_str]
    exact lexWith_quote s r
  | arr xs ih =>
    intro level r _
    rw [renderIndent_arr, tokensWith_arr, List.cons_append, lexWith_lbrack,
      lexWith_indentItems lexWith_rbrack r fun x hx r hr => ih x hx (level + 1) r hr]
    rfl
  | obj ms ih =>
    intro level r _
    have hmember : ∀ m ∈ ms, ∀ r, Stops r →
        lexWith words .idle (renderIndentMember (level + 1) m ++ r) =
          memberTokensWith words m ++ lexWith words .idle r := by
      intro m hm r hr
      have hcolon : lit ": " = [.scalar ':', .scalar ' '] := rfl
      simp only [renderIndentMember, memberTokensWith, hcolon, List.append_assoc, List.cons_append,
        List.nil_append]
      rw [lexWith_quote, lexWith_colon, lexWith_space (by decide), ih m hm (level + 1) r hr]
    rw [renderIndent_obj, tokensWith_obj, List.cons_append, lexWith_lbrace,
      lexWith_indentItems lexWith_rbrace r hmember]
    rfl

end Json

end Lexer

/-- The text of a file that was written : the value and a line end. -/
def indentFile (v : Json) : PyStr :=
  v.dumpsIndent ++ lit "\n"

theorem lexWith_indentFile (words : List Char → List Token) (v : Json) :
    lexWith words .idle (indentFile v) = v.tokensWith words := by
  have hend : lit "\n" = [.scalar '\n'] := rfl
  rw [indentFile, dumpsIndent, lexWith_renderIndent v 0 _ (by rw [hend]; exact stops_newline 0 []),
    hend, lexWith_space (by decide), lexWith, List.append_nil]

/-- What was written is loaded again. -/
theorem loads_indentFile {v : Json} (hwf : v.WF) (hplain : v.Plain) :
    loads (indentFile v) = .ok v := by
  have hlex : lex .idle (indentFile v) = v.tokens := by
    rw [lex_eq_lexWith, lexWith_indentFile, tokensWith_wordTokens v hplain]
  have hparse : parseTokens ⟨[], .value⟩ v.tokens = .ok ⟨[], .done v⟩ := by
    simpa [valueDone, parseTokens] using parseTokens_tokens v hwf [] []
  rw [loads, hlex, hparse]
  rfl

example : dumpsIndent (.obj [("a", .arr [.int 1, .null]), ("b", .obj [])]) =
    lit "\x7b\n  \"a\": [\n    1,\n    null\n  ],\n  \"b\": \x7b\x7d\n\x7d" := by decide

end Py
