import Icode.ControlFiles
import Icode.JsonReread

/-!
# JSON without hooks

`loadsPlain` is `json.loads(text)` as the tools that write a package call it: the constants are
numbers, and of the members with one name the last one counts. A text that the strict reader of
the verifier loads is loaded as the same value (`loadsPlain_of_loads`).
-/

namespace Icode

open Py

/-- `dict(pairs)`. -/
def dictOfPairs (pairs : Members) : Json :=
  .obj (Dict.update [] pairs)

/-- `parseStep`, where an object is the dict of its members. -/
def parseStepPlain (s : ParseState) (t : Token) : Except JsonError ParseState :=
  match t, s.expect, s.stack with
  | .rbrace, .firstKey, .obj ms _ :: stack => .ok (valueDone (dictOfPairs ms) stack)
  | .rbrace, .next, .obj ms _ :: stack => .ok (valueDone (dictOfPairs ms) stack)
  | _, _, _ => parseStep s t

def parseTokensPlain (s : ParseState) : List Token → Except JsonError ParseState
  | [] => .ok s
  | t :: ts => do
    let s ← parseStepPlain s t
    parseTokensPlain s ts

/-- `json.loads(text)`. -/
def loadsPlain (text : PyStr) : Except JsonError Json := do
  let s ← parseTokensPlain ⟨[], .value⟩ (lexContract .idle text)
  match s.expect with
  | .done v => .ok v
  | _ => .error .decode

/-! ## The tokens -/

theorem lexContract_eq_lexWith (st : LexState) (s : PyStr) :
    lexContract st s = lexWith contractWordTokens st s := by
  induction s generalizing st with
  | nil => cases st <;> rfl
  | cons c s ih =>
    have hstep : lexContractStep st c = lexStepWith contractWordTokens st c := by
      cases st <;> rfl
    have hcons : lexContract st (c :: s) =
        (lexContractStep st c).1 ++ lexContract (lexContractStep st c).2 s := by
      cases st <;> rfl
    rw [hcons, hstep, ih, lexWith_cons]

/-- No token is a failure of the lexer. -/
def NoFailure (ts : List Token) : Prop :=
  ∀ t ∈ ts, ∀ e, t ≠ .bad e

theorem noFailure_append {ts us : List Token} :
    NoFailure (ts ++ us) ↔ NoFailure ts ∧ NoFailure us := by
  simp only [NoFailure, List.mem_append, or_imp, forall_and]

/-- Two readers of words that agree where the first does not fail read the same tokens there. -/
theorem lexWith_congr {words words' : List Char → List Token}
    (hwords : ∀ w, NoFailure (words w) → words' w = words w) {s : PyStr} :
    ∀ {st : LexState}, NoFailure (lexWith words st s) →
      lexWith words' st s = lexWith words st s := by
  induction s with
  | nil =>
    intro st h
    cases st with
    | word w => exact hwords w h
    | _ => rfl
  | cons c s ih =>
    intro st h
    rw [lexWith_cons, noFailure_append] at h
    have hstep : lexStepWith words' st c = lexStepWith words st c := by
      cases st with
      | word w =>
        have hw := h.1
        unfold lexStepWith at hw ⊢
        dsimp only at hw ⊢
        split_ifs at hw ⊢
        · rw [hwords w (noFailure_append.mp hw).1]
        · rfl
      | _ => rfl
    rw [lexWith_cons, lexWith_cons, hstep, ih h.2]

/-- A word that the strict reader does not refuse is read the same way. -/
theorem contractWordTokens_eq {w : List Char} (h : NoFailure (wordTokens w)) :
    contractWordTokens w = wordTokens w := by
  cases hconstant : ['N', 'a', 'N'].isPrefixOf w ||
      ['I', 'n', 'f', 'i', 'n', 'i', 't', 'y'].isPrefixOf w ||
      ['-', 'I', 'n', 'f', 'i', 'n', 'i', 't', 'y'].isPrefixOf w with
  | true =>
    refine absurd rfl (h (.bad .constant) ?_ .constant)
    have hne : w ≠ ['n', 'u', 'l', 'l'] ∧ w ≠ ['t', 'r', 'u', 'e'] ∧
        w ≠ ['f', 'a', 'l', 's', 'e'] := by
      refine ⟨?_, ?_, ?_⟩ <;> rintro rfl <;> simp at hconstant
    rw [wordTokens, if_neg hne.1, if_neg hne.2.1, if_neg hne.2.2, if_pos hconstant]
    exact List.mem_cons_self
  | false =>
    simp only [Bool.or_eq_false_iff] at hconstant
    obtain ⟨⟨hnan, hinf⟩, hneg⟩ := hconstant
    simp [contractWordTokens, hnan, hinf, hneg]

/-! ## The value -/

theorem update_of_nodup {pairs d : Members} (h : (Dict.keys (d ++ pairs)).Nodup) :
    Dict.update d pairs = d ++ pairs := by
  induction pairs generalizing d with
  | nil => simp [Dict.update]
  | cons m pairs ih =>
    have hnot : m.1 ∉ Dict.keys d := by
      simp only [Dict.keys, List.map_append, List.map_cons, List.nodup_append] at h
      exact fun hm => h.2.2 _ hm _ List.mem_cons_self rfl
    have hset : Dict.set d m.1 m.2 = d ++ [m] := Dict.set_of_notMem m.2 hnot
    have hstep := ih (d := d ++ [m]) (by simpa using h)
    rw [Dict.update, List.foldl_cons, hset]
    simpa [Dict.update] using hstep

theorem dictOfPairs_of_nodup {pairs : Members} (h : (Dict.keys pairs).Nodup) :
    dictOfPairs pairs = .obj pairs := by
  rw [dictOfPairs, update_of_nodup (d := []) h, List.nil_append]

/-- The end of an object whose members have names of their own. -/
theorem valueDone_of_closeFrame {ms : Members} {k : PyStr} {stack : List Frame} {s : ParseState}
    (h : closeFrame (.obj ms k :: stack) .rbrace = .ok s) :
    valueDone (dictOfPairs ms) stack = s := by
  simp only [closeFrame, objectWithoutDuplicates, bind_eq_ok] at h
  obtain ⟨v, hv, hs⟩ := h
  split_ifs at hv with hnodup
  rw [dictOfPairs_of_nodup hnodup, Except.ok.inj hv]
  exact Except.ok.inj hs

theorem parseStepPlain_of_parseStep {s s' : ParseState} {t : Token} (h : parseStep s t = .ok s') :
    parseStepPlain s t = .ok s' := by
  obtain ⟨stack, expect⟩ := s
  unfold parseStepPlain
  split
  · rename_i ms k stack' hexpect hstack
    dsimp only at hexpect hstack
    subst hexpect hstack
    have hclose : closeFrame (.obj ms k :: stack') .rbrace = .ok s' := h
    rw [valueDone_of_closeFrame hclose]
  · rename_i ms k stack' hexpect hstack
    dsimp only at hexpect hstack
    subst hexpect hstack
    have hclose : closeFrame (.obj ms k :: stack') .rbrace = .ok s' := h
    rw [valueDone_of_closeFrame hclose]
  · exact h

theorem noFailure_of_parseTokens {ts : List Token} {s s' : ParseState}
    (h : parseTokens s ts = .ok s') : NoFailure ts := by
  induction ts generalizing s with
  | nil => simp [NoFailure]
  | cons t ts ih =>
    simp only [parseTokens, bind_eq_ok] at h
    obtain ⟨u, hu, hs⟩ := h
    refine List.forall_mem_cons.mpr ⟨?_, ih hs⟩
    rintro e rfl
    cases hu

theorem parseTokensPlain_of_parseTokens {ts : List Token} {s s' : ParseState}
    (h : parseTokens s ts = .ok s') : parseTokensPlain s ts = .ok s' := by
  induction ts generalizing s with
  | nil => exact h
  | cons t ts ih =>
    simp only [parseTokens, parseTokensPlain, bind_eq_ok] at h ⊢
    obtain ⟨u, hu, hs⟩ := h
    exact ⟨u, parseStepPlain_of_parseStep hu, ih hs⟩

/-- A text that the strict reader loads has the same tokens for both readers. -/
theorem lexContract_of_loads {text : PyStr} {v : Json} (h : loads text = .ok v) :
    lexContract .idle text = lex .idle text ∧ NoFailure (lex .idle text) := by
  unfold loads at h
  rw [bind_eq_ok] at h
  obtain ⟨s, hparse, -⟩ := h
  have hlex := noFailure_of_parseTokens hparse
  refine ⟨?_, hlex⟩
  rw [lexContract_eq_lexWith, lex_eq_lexWith]
  exact lexWith_congr (fun w => contractWordTokens_eq) (lex_eq_lexWith _ _ ▸ hlex)

/-- What the strict reader loads is loaded as the same value. -/
theorem loadsPlain_of_loads {text : PyStr} {v : Json} (h : loads text = .ok v) :
    loadsPlain text = .ok v := by
  have hlex := (lexContract_of_loads h).1
  unfold loads at h
  rw [bind_eq_ok] at h
  obtain ⟨s, hparse, hdone⟩ := h
  rw [loadsPlain, hlex, parseTokensPlain_of_parseTokens hparse]
  split at hdone
  · next v' hv =>
    obtain rfl := Except.ok.inj hdone
    simp [Bind.bind, Except.bind, hv]
  · cases hdone

end Icode
