import Mathlib.Data.List.Forall2

/-!
# Checks that raise

Python code that validates its input raises at the first check that fails.
`require` is one such check, `requireAll` a loop of them, and `bind_eq_ok` takes a
sequence apart: it returns exactly when every part does. `rescue` is `try … except`
that raises another error.
-/

namespace Py

universe u

variable {ε δ : Type*} {α β : Type u}

/-- `if not ok: raise err`. -/
def require (ok : Bool) (err : ε) : Except ε Unit :=
  if ok then .ok () else .error err

/-- `for x in xs: if not ok(x): raise err(x)`. -/
def requireAll (xs : List α) (ok : α → Bool) (err : α → ε) : Except ε Unit :=
  match xs.find? fun x => !ok x with
  | some x => .error (err x)
  | none => .ok ()

/-- The value, or `raise err` when there is none. -/
def orRaise (x : Option α) (err : ε) : Except ε α :=
  match x with
  | some a => .ok a
  | none => .error err

/-- `try: x except …: raise err`. -/
def rescue (x : Except ε α) (err : δ) : Except δ α :=
  match x with
  | .ok a => .ok a
  | .error _ => .error err

/-- `[f(x) for x in xs]` where `f` may raise. -/
def mapAll (f : α → Except ε β) : List α → Except ε (List β)
  | [] => .ok []
  | x :: xs =>
    match f x with
    | .error e => .error e
    | .ok y =>
      match mapAll f xs with
      | .error e => .error e
      | .ok ys => .ok (y :: ys)

@[simp] theorem bind_eq_ok {x : Except ε α} {f : α → Except ε β} {b : β} :
    (x >>= f) = .ok b ↔ ∃ a, x = .ok a ∧ f a = .ok b := by
  cases x <;> simp [Bind.bind, Except.bind]

@[simp] theorem require_eq_ok {ok : Bool} {err : ε} {u : Unit} :
    require ok err = .ok u ↔ ok = true := by
  cases ok <;> simp [require]

@[simp] theorem requireAll_eq_ok {xs : List α} {ok : α → Bool} {err : α → ε} {u : Unit} :
    requireAll xs ok err = .ok u ↔ ∀ x ∈ xs, ok x = true := by
  unfold requireAll
  cases h : xs.find? fun x => !ok x with
  | none => simpa using List.find?_eq_none.mp h
  | some x =>
    have hx : ok x = false := by simpa using List.find?_some h
    simp only [reduceCtorEq, false_iff, not_forall]
    exact ⟨x, List.mem_of_find?_eq_some h, by simp [hx]⟩

@[simp] theorem orRaise_eq_ok {x : Option α} {err : ε} {a : α} :
    orRaise x err = .ok a ↔ x = some a := by
  cases x <;> simp [orRaise]

theorem bind_eq_error {x : Except ε α} {f : α → Except ε β} {e : ε} :
    (x >>= f) = .error e ↔ x = .error e ∨ ∃ a, x = .ok a ∧ f a = .error e := by
  cases x <;> simp [Bind.bind, Except.bind]

theorem require_eq_error {ok : Bool} {err e : ε} :
    require ok err = .error e ↔ ok = false ∧ err = e := by
  cases ok <;> simp [require]

/-- A loop that raises nothing gives one result for each item. -/
theorem mapAll_nil (f : α → Except ε β) : mapAll f [] = .ok [] :=
  rfl

theorem mapAll_cons (f : α → Except ε β) (x : α) (xs : List α) : mapAll f (x :: xs) =
    match f x with
    | .error e => .error e
    | .ok y =>
      match mapAll f xs with
      | .error e => .error e
      | .ok ys => .ok (y :: ys) :=
  rfl

theorem mapAll_eq_ok {f : α → Except ε β} : ∀ {xs : List α} {ys : List β},
    mapAll f xs = .ok ys ↔ List.Forall₂ (fun x y => f x = .ok y) xs ys
  | [], ys => by
    rw [List.forall₂_nil_left_iff, mapAll_nil, Except.ok.injEq, eq_comm]
  | x :: xs, ys => by
    rw [mapAll_cons, List.forall₂_cons_left_iff]
    cases hx : f x with
    | error e => simp
    | ok y =>
      cases hxs : mapAll f xs with
      | error e =>
        have hnone : ∀ rest, ¬ List.Forall₂ (fun x y => f x = .ok y) xs rest := by
          intro rest hrest
          rw [mapAll_eq_ok.mpr hrest] at hxs
          cases hxs
        simp [hnone]
      | ok rest =>
        have hrest : ∀ other, List.Forall₂ (fun x y => f x = .ok y) xs other ↔ rest = other := by
          intro other
          rw [← mapAll_eq_ok, hxs, Except.ok.injEq]
        simp [hrest, eq_comm]

theorem exists_mapAll {f : α → Except ε β} {xs : List α} (h : ∀ x ∈ xs, ∃ y, f x = .ok y) :
    ∃ ys, mapAll f xs = .ok ys := by
  induction xs with
  | nil => exact ⟨[], rfl⟩
  | cons x xs ih =>
    obtain ⟨⟨y, hy⟩, hxs⟩ := List.forall_mem_cons.mp h
    obtain ⟨ys, hys⟩ := ih hxs
    exact ⟨y :: ys, by rw [mapAll_cons, hy, hys]⟩

theorem mapAll_map {f : α → Except ε β} {g : β → α} {xs : List β}
    (h : ∀ x ∈ xs, f (g x) = .ok x) : mapAll f (xs.map g) = .ok xs := by
  induction xs with
  | nil => rfl
  | cons x xs ih =>
    obtain ⟨hx, hxs⟩ := List.forall_mem_cons.mp h
    rw [List.map_cons, mapAll_cons, hx, ih hxs]

theorem orRaise_eq_error {x : Option α} {err e : ε} :
    orRaise x err = .error e ↔ x = none ∧ err = e := by
  cases x <;> simp [orRaise]

@[simp] theorem rescue_eq_ok {x : Except ε α} {err : δ} {a : α} :
    rescue x err = .ok a ↔ x = .ok a := by
  cases x <;> simp [rescue]

end Py
