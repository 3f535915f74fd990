import Icode.JsonPlain

/-!
# JSON within the recursion limit

`loadsWithin` is `json.loads(text)` as `loadsPlain` has it, with the recursion limit of the
interpreter : a container that is opened when `limit` others are open raises `RecursionError`, which
is no `ValueError`. What is loaded is what `loadsPlain` loads (`loadsPlain_of_loadsWithin`).
-/

namespace Icode

open Py

/-- What `json.loads` raises. -/
inductive LoadsError where
  /-- `JSONDecodeError`, or another `ValueError`. -/
  | json (e : JsonError)
  /-- `RecursionError` -/
  | recursion
  deriving DecidableEq

/-- The token opens a container. -/
def opensContainer : Token → Bool
  | .lbrack => true
  | .lbrace => true
  | _ => false

/-- `parseTokensPlain`, with at most `limit` open containers. -/
def parseTokensWithin (limit : ℕ) (s : ParseState) : List Token → Except LoadsError ParseState
  | [] => .ok s
  | t :: ts =>
    match parseStepPlain s t with
    | .error e => .error (.json e)
    | .ok s' =>
      if opensContainer t && limit ≤ s.stack.length then .error .recursion
      else parseTokensWithin limit s' ts

/-- `json.loads(text)`. -/
def loadsWithin (limit : ℕ) (text : PyStr) : Except LoadsError Json :=
  match parseTokensWithin limit ⟨[], .value⟩ (lexContract .idle text) with
  | .error e => .error e
  | .ok s =>
    match s.expect with
    | .done v => .ok v
    | _ => .error (.json .decode)

theorem parseTokensPlain_of_within {limit : ℕ} : ∀ {ts : List Token} {s s' : ParseState},
    parseTokensWithin limit s ts = .ok s' → parseTokensPlain s ts = .ok s'
  | [], _, _, h => by
    rw [parseTokensWithin] at h
    rw [parseTokensPlain, Except.ok.inj h]
  | t :: ts, s, s', h => by
    rw [parseTokensWithin] at h
    rw [parseTokensPlain]
    cases hstep : parseStepPlain s t with
    | error e => simp [hstep] at h
    | ok u =>
      simp only [hstep] at h
      split at h
      · cases h
      · exact parseTokensPlain_of_within h

theorem loadsPlain_of_loadsWithin {limit : ℕ} {text : PyStr} {v : Json}
    (h : loadsWithin limit text = .ok v) : loadsPlain text = .ok v := by
  cases hs : parseTokensWithin limit ⟨[], .value⟩ (lexContract .idle text) with
  | error e => simp [loadsWithin, hs] at h
  | ok s =>
    have hplain := parseTokensPlain_of_within hs
    cases hexp : s.expect with
    | done w =>
      obtain rfl : w = v := by simpa [loadsWithin, hs, hexp] using h
      simp [loadsPlain, hplain, hexp, bind, Except.bind]
    | _ => simp [loadsWithin, hs, hexp] at h

end Icode
