import Mathlib.Data.List.Basic

/-!
# Runs of a labelled machine

A machine is a partial step function: an action that cannot be taken now has no
successor. What an interleaving or the environment decides is part of the action,
so a run is a list of actions (`run`). `Along ok` says that every action taken is
taken in a state where `ok` holds, and `Always P` that every state reached
satisfies `P`.

`run_invariant` is the rule for invariants, `always_of_along` the rule for runs
that meet a condition, and `always_iff_along` says when the condition is exact:
it keeps the invariant, and an action that fails it ends outside `P`.
-/

namespace Transition

variable {σ α : Type*} (step : σ → α → Option σ)

/-- The state after the actions, if each can be taken. -/
def run : σ → List α → Option σ
  | s, [] => some s
  | s, a :: as =>
    match step s a with
    | some s' => run s' as
    | none => none

/-- Every action taken is taken in a state where `ok` holds. -/
def Along (ok : σ → α → Prop) : σ → List α → Prop
  | _, [] => True
  | s, a :: as => ∀ s', step s a = some s' → ok s a ∧ Along ok s' as

/-- Every state reached satisfies `P`. -/
def Always (P : σ → Prop) : σ → List α → Prop
  | s, [] => P s
  | s, a :: as => P s ∧ ∀ s', step s a = some s' → Always P s' as

instance alongDecidable (ok : σ → α → Prop) [∀ s a, Decidable (ok s a)] :
    ∀ (s : σ) (as : List α), Decidable (Along step ok s as)
  | _, [] => isTrue trivial
  | s, a :: as =>
    match hs : step s a with
    | none => isTrue fun _ hs' => nomatch hs.symm.trans hs'
    | some s' =>
      have := alongDecidable ok s' as
      decidable_of_iff (ok s a ∧ Along step ok s' as)
        ⟨fun h _ ht => Option.some.inj (hs.symm.trans ht) ▸ h, fun h => h s' hs⟩

variable {step}

theorem run_cons_eq_bind (s : σ) (a : α) (as : List α) :
    run step s (a :: as) = (step s a).bind fun s' => run step s' as := by
  rw [run]
  cases step s a <;> rfl

theorem run_cons {s t : σ} {a : α} {as : List α} :
    run step s (a :: as) = some t ↔ ∃ s', step s a = some s' ∧ run step s' as = some t := by
  rw [run_cons_eq_bind, Option.bind_eq_some_iff]

theorem run_append {s t : σ} {as bs : List α} :
    run step s (as ++ bs) = some t ↔ ∃ u, run step s as = some u ∧ run step u bs = some t := by
  induction as generalizing s with
  | nil =>
    constructor
    · exact fun h => ⟨s, rfl, h⟩
    · rintro ⟨u, hu, h⟩
      rwa [← Option.some.inj hu] at h
  | cons a as ih =>
    simp only [List.cons_append, run_cons, ih]
    constructor
    · rintro ⟨s', hs, u, hu, ht⟩
      exact ⟨u, ⟨s', hs, hu⟩, ht⟩
    · rintro ⟨u, ⟨s', hs, hu⟩, ht⟩
      exact ⟨s', hs, u, hu, ht⟩

/-- A machine whose steps from the states of a kind are the steps of another has its runs there. -/
theorem run_of_step {τ β : Type*} {step' : τ → β → Option τ} {f : σ → τ}
    (hstep : ∀ s b t, step' (f s) b = some t → ∃ a s', step s a = some s' ∧ t = f s') :
    ∀ {bs : List β} {s : σ} {t : τ}, run step' (f s) bs = some t →
      ∃ as s', run step s as = some s' ∧ t = f s'
  | [], s, t, h => ⟨[], s, rfl, (Option.some.inj h).symm⟩
  | b :: bs, s, t, h => by
    obtain ⟨between, hfirst, hrest⟩ := (run_cons).mp h
    obtain ⟨a, next, hnext, rfl⟩ := hstep s b between hfirst
    obtain ⟨as, s', hrun, rfl⟩ := run_of_step hstep hrest
    exact ⟨a :: as, s', (run_cons).mpr ⟨next, hnext, hrun⟩, rfl⟩

/-- What every action keeps, a run keeps. -/
theorem run_invariant {I : σ → Prop} (hstep : ∀ s a s', I s → step s a = some s' → I s') :
    ∀ {as : List α} {s t : σ}, I s → run step s as = some t → I t
  | [], s, t, hs, ht => by
    obtain rfl := Option.some.inj ht
    exact hs
  | a :: as, s, t, hs, ht => by
    obtain ⟨s', hs', ht⟩ := (run_cons).mp ht
    exact run_invariant hstep (hstep s a s' hs hs') ht

/-- What every action keeps holds in every state reached. -/
theorem always_of_invariant {I P : σ → Prop} (hP : ∀ s, I s → P s)
    (hstep : ∀ s a s', I s → step s a = some s' → I s') :
    ∀ {as : List α} {s : σ}, I s → Always step P s as
  | [], s, hs => hP s hs
  | a :: _, s, hs => ⟨hP s hs, fun s' hs' => always_of_invariant hP hstep (hstep s a s' hs hs')⟩

/-- The end of a run is a state reached. -/
theorem Always.of_run {P : σ → Prop} : ∀ {as : List α} {s t : σ}, Always step P s as →
    run step s as = some t → P t
  | [], s, t, hs, ht => by
    obtain rfl := Option.some.inj ht
    exact hs
  | a :: as, s, t, hs, ht => by
    obtain ⟨s', hs', ht⟩ := (run_cons).mp ht
    exact (hs.2 s' hs').of_run ht

/-- A condition that always holds is met by every run. -/
theorem along_of_forall {ok : σ → α → Prop} (h : ∀ s a, ok s a) :
    ∀ (as : List α) (s : σ), Along step ok s as
  | [], _ => trivial
  | a :: as, s => fun s' _ => ⟨h s a, along_of_forall h as s'⟩

/-- The end of a run that meets a condition meets it, too. -/
theorem Along.of_append {ok : σ → α → Prop} : ∀ {as bs : List α} {s t : σ},
    Along step ok s (as ++ bs) → run step s as = some t → Along step ok t bs
  | [], _, s, t, h, ht => by
    obtain rfl := Option.some.inj ht
    exact h
  | a :: as, _, s, t, h, ht => by
    obtain ⟨s', hs', ht⟩ := (run_cons).mp ht
    exact (h s' hs').2.of_append ht

section Along

variable {I P : σ → Prop} {ok : σ → α → Prop}
  (hP : ∀ s, I s → P s) (hstep : ∀ s a s', I s → ok s a → step s a = some s' → I s')

include hP hstep

/-- A run whose actions meet the condition stays in the invariant. -/
theorem always_of_along : ∀ {as : List α} {s : σ}, I s → Along step ok s as → Always step P s as
  | [], s, hs, _ => hP s hs
  | _ :: _, s, hs, ha =>
    ⟨hP s hs, fun s' hs' =>
      always_of_along (hstep _ _ s' hs (ha s' hs').1 hs') (ha s' hs').2⟩

/-- The condition is exact when an action that fails it ends outside `P`. -/
theorem always_iff_along (hok : ∀ s a s', I s → step s a = some s' → P s' → ok s a) :
    ∀ {as : List α} {s : σ}, I s → (Always step P s as ↔ Along step ok s as)
  | [], s, hs => ⟨fun _ => trivial, fun _ => hP s hs⟩
  | a :: as, s, hs => by
    have hfirst : ∀ {s'}, Always step P s' as → P s' := by
      intro s' h
      cases as with
      | nil => exact h
      | cons b bs => exact h.1
    refine ⟨fun h s' hs' => ?_, always_of_along hP hstep hs⟩
    have ha : ok s a := hok s a s' hs hs' (hfirst (h.2 s' hs'))
    exact ⟨ha, (always_iff_along hok (hstep s a s' hs ha hs')).mp (h.2 s' hs')⟩

end Along

/-- In a run whose actions meet a condition that keeps an invariant, they meet what follows from
the invariant. -/
theorem along_of_along {I : σ → Prop} {ok ok' : σ → α → Prop} (hok : ∀ s a, I s → ok' s a)
    (hstep : ∀ s a s', I s → ok s a → step s a = some s' → I s') :
    ∀ {as : List α} {s : σ}, I s → Along step ok s as → Along step ok' s as
  | [], _, _, _ => trivial
  | _ :: _, s, hs, ha => fun s' hs' =>
    ⟨hok s _ hs, along_of_along hok hstep (hstep _ _ s' hs (ha s' hs').1 hs') (ha s' hs').2⟩

end Transition
