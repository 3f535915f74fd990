import Mathlib.Data.List.Basic

/-!
# Outcomes

`Outcome Q E x` says that `x` returns a value with `Q` or raises an error with `E`, a
postcondition for each way to end. `Outcome.bind` composes two steps, and
`Outcome.foldlM` is the rule of a loop that may raise : the invariant may mention the
items still to come.
-/

namespace Py

universe u

variable {ε : Type*} {α β : Type u}

/-- The value has `Q`, or the error has `E`. -/
def Outcome (Q : α → Prop) (E : ε → Prop) : Except ε α → Prop
  | .ok a => Q a
  | .error e => E e

variable {Q Q' : α → Prop} {R : β → Prop} {E E' : ε → Prop} {x : Except ε α}

theorem Outcome.mono (h : Outcome Q E x) (hQ : ∀ a, Q a → Q' a) (hE : ∀ e, E e → E' e) :
    Outcome Q' E' x := by
  cases x with
  | ok a => exact hQ a h
  | error e => exact hE e h

theorem Outcome.bind {f : α → Except ε β} (h : Outcome Q E x) (hf : ∀ a, Q a → Outcome R E (f a)) :
    Outcome R E (x >>= f) := by
  cases x with
  | ok a => exact hf a h
  | error e => exact h

/-- A loop keeps an invariant of the items still to come. -/
theorem Outcome.foldlM {ι : Type*} {I : List ι → α → Prop} {f : α → ι → Except ε α}
    (hf : ∀ i is a, I (i :: is) a → Outcome (I is) E (f a i)) :
    ∀ {is : List ι} {a : α}, I is a → Outcome (I []) E (is.foldlM f a)
  | [], _, h => h
  | i :: is, a, h => by
    rw [List.foldlM_cons]
    exact (hf i is a h).bind fun b hb => Outcome.foldlM hf hb

end Py
