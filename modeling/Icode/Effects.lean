import Mathlib.Tactic.Common

/-!
# Programs that may raise and keep their state

`Eff S ε α` is a program that reads and changes a state and gives a value or raises. What it did
before it raises stays done, so a handler (`tryExcept`) starts from there. `Ends x s post` says that
`x` from `s` ends in a result and a state with `post`; each construction has its rule, and
`Ends.mono` weakens what is said.
-/

namespace Py

variable {S ε α β : Type}

/-- A result or an exception, and the state that is left. -/
def Eff (S ε α : Type) : Type :=
  S → Except ε α × S

namespace Eff

def ret (a : α) : Eff S ε α :=
  fun s => (.ok a, s)

def bind (x : Eff S ε α) (f : α → Eff S ε β) : Eff S ε β :=
  fun s =>
    match x s with
    | (.ok a, s') => f a s'
    | (.error e, s') => (.error e, s')

instance : Monad (Eff S ε) where
  pure := ret
  bind := bind

/-- `raise e` -/
def raise (e : ε) : Eff S ε α :=
  fun s => (.error e, s)

def get : Eff S ε S :=
  fun s => (.ok s, s)

def modify (f : S → S) : Eff S ε Unit :=
  fun s => (.ok (), f s)

/-- `try: x` with `except BaseException as e: handler(e)`. -/
def tryExcept (x : Eff S ε α) (handler : ε → Eff S ε α) : Eff S ε α :=
  fun s =>
    match x s with
    | (.ok a, s') => (.ok a, s')
    | (.error e, s') => handler e s'

/-- The program from `s` ends with `post`. -/
def Ends (x : Eff S ε α) (s : S) (post : Except ε α → S → Prop) : Prop :=
  post (x s).1 (x s).2

variable {s : S} {post post' : Except ε α → S → Prop}

theorem Ends.mono {x : Eff S ε α} (h : Ends x s post) (himp : ∀ r s', post r s' → post' r s') :
    Ends x s post' :=
  himp _ _ h

theorem Ends.and {x : Eff S ε α} (h : Ends x s post) (h' : Ends x s post') :
    Ends x s fun r s' => post r s' ∧ post' r s' :=
  ⟨h, h'⟩

@[simp] theorem ends_pure {a : α} : Ends (pure a) s post ↔ post (.ok a) s :=
  Iff.rfl

@[simp] theorem ends_raise {e : ε} : Ends (raise e) s post ↔ post (.error e) s :=
  Iff.rfl

@[simp] theorem ends_get {post : Except ε S → S → Prop} : Ends get s post ↔ post (.ok s) s :=
  Iff.rfl

@[simp] theorem ends_modify {f : S → S} {post : Except ε Unit → S → Prop} :
    Ends (modify f) s post ↔ post (.ok ()) (f s) :=
  Iff.rfl

theorem ends_bind {x : Eff S ε β} {f : β → Eff S ε α} :
    Ends (x >>= f) s post ↔ Ends x s fun r s' =>
      match r with
      | .ok a => Ends (f a) s' post
      | .error e => post (.error e) s' := by
  show post (bind x f s).1 (bind x f s).2 ↔ _
  unfold Ends bind
  rcases x s with ⟨_ | _, _⟩ <;> rfl

theorem ends_tryExcept {x : Eff S ε α} {handler : ε → Eff S ε α} :
    Ends (tryExcept x handler) s post ↔ Ends x s fun r s' =>
      match r with
      | .ok a => post (.ok a) s'
      | .error e => Ends (handler e) s' post := by
  unfold Ends tryExcept
  rcases x s with ⟨_ | _, _⟩ <;> rfl

/-- `try: x` with `except BaseException: pass`. -/
theorem Ends.ignore {x : Eff S ε Unit} {post : Except ε Unit → S → Prop}
    (h : Ends x s fun _ s' => post (.ok ()) s') : Ends (tryExcept x fun _ => pure ()) s post := by
  rw [ends_tryExcept]
  refine h.mono fun r s' hpost => ?_
  cases r with
  | ok u => exact hpost
  | error e => exact hpost

theorem bind_bind {γ : Type} {x : Eff S ε α} {f : α → Eff S ε β} {g : β → Eff S ε γ} :
    x >>= f >>= g = x >>= fun a => f a >>= g := by
  funext s
  show bind (bind x f) g s = bind x (fun a => bind (f a) g) s
  unfold bind
  rcases x s with ⟨_ | _, _⟩ <;> rfl

/-- A step that goes on with `mid` or raises with `err`, and then the rest. -/
theorem Ends.bind {x : Eff S ε β} {f : β → Eff S ε α} {mid : β → S → Prop} {err : ε → S → Prop}
    (hx : Ends x s fun r s' =>
      match r with
      | .ok a => mid a s'
      | .error e => err e s')
    (hf : ∀ a s', mid a s' → Ends (f a) s' post)
    (herr : ∀ e s', err e s' → post (.error e) s') : Ends (x >>= f) s post := by
  rw [ends_bind]
  refine hx.mono fun r s' h => ?_
  cases r with
  | ok a => exact hf a s' h
  | error e => exact herr e s' h

end Eff

end Py
