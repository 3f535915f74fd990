import Icode.Transition
import Mathlib.Algebra.BigOperators.Group.Finset.Basic
import Mathlib.Algebra.Order.BigOperators.Group.Finset
import Mathlib.Logic.Function.Basic

/-!
# Interleaved calls

Several calls run over one shared state. `Program` says where a call begins and what one atomic
step of it does; what its environment answers is part of the step. `State.step` is one step of
some call, so a run of it is an interleaving.

`Rule` is the rule of Owicki and Gries: an assertion on the shared state and one on each call hold
in every interleaving when a call keeps the two, and the assertion of every other call
(`Rule.of_step`). Assertions that some call meets (`State.Any`), and the number of calls that stand
somewhere (`State.count`), follow the call that moves.
-/

namespace Interleaving

variable {σ π μ ι : Type*}

/-- The code of the calls: `σ` is what they share, `π` where a call stands, `μ` what is called and
`ι` an answer of the environment. -/
structure Program (σ π μ ι : Type*) where
  enter : μ → π
  /-- One atomic step: the shared state after it, and where the call stands if it has not ended. -/
  move : σ → ℕ → π → ι → Option (σ × Option π)

/-- The shared state and the calls under way, by number. -/
structure State (σ π : Type*) where
  shared : σ
  calls : ℕ → Option π
  next : ℕ

inductive Action (μ ι : Type*) where
  | enter (call : μ)
  | move (call : ℕ) (answer : ι)

namespace State

/-- No call is under way. -/
def initial (x : σ) : State σ π :=
  ⟨x, fun _ => none, 0⟩

/-- One action of an interleaving. -/
def step (P : Program σ π μ ι) (s : State σ π) : Action μ ι → Option (State σ π)
  | .enter m =>
    some { s with calls := Function.update s.calls s.next (some (P.enter m)), next := s.next + 1 }
  | .move c a =>
    match s.calls c with
    | none => none
    | some p =>
      (P.move s.shared c p a).map fun r =>
        { s with shared := r.1, calls := Function.update s.calls c r.2 }

/-- Every call has returned. -/
def Quiet (s : State σ π) : Prop :=
  ∀ c, s.calls c = none

/-- Some call stands where `p` holds. -/
def Any (s : State σ π) (p : ℕ → π → Prop) : Prop :=
  ∃ c q, s.calls c = some q ∧ p c q

/-- How many calls stand where `p` holds. -/
def count (s : State σ π) (p : π → Bool) : ℕ :=
  ∑ c ∈ Finset.range s.next, ((s.calls c).any p).toNat

variable {P : Program σ π μ ι} {s s' : State σ π}

theorem step_move {c : ℕ} {a : ι} : step P s (.move c a) = some s' ↔
    ∃ p x q, s.calls c = some p ∧ P.move s.shared c p a = some (x, q) ∧
      s' = { s with shared := x, calls := Function.update s.calls c q } := by
  simp only [step]
  cases s.calls c with
  | none => simp
  | some p =>
    simp only [Option.map_eq_some_iff, Prod.exists, Option.some.injEq]
    constructor
    · rintro ⟨x, q, h, rfl⟩
      exact ⟨p, x, q, rfl, h, rfl⟩
    · rintro ⟨p', x, q, rfl, h, rfl⟩
      exact ⟨x, q, h, rfl⟩

theorem Quiet.not_any (h : s.Quiet) (p : ℕ → π → Prop) : ¬s.Any p := by
  rintro ⟨c, q, hc, -⟩
  rw [h c] at hc
  cases hc

/-- The call that moves meets the assertion, or another call still does. -/
theorem Any.of_move {r : ℕ → π → Prop} (h : s.Any r) {c : ℕ} {p : π} (hc : s.calls c = some p)
    (x : σ) (q : Option π) :
    r c p ∨ Any { s with shared := x, calls := Function.update s.calls c q } r := by
  obtain ⟨d, p', hd, hr⟩ := h
  by_cases hdc : d = c
  · subst hdc
    obtain rfl : p = p' := Option.some.inj (hc.symm.trans hd)
    exact Or.inl hr
  · exact Or.inr ⟨d, p', by simpa [hdc] using hd, hr⟩

theorem any_update {r : ℕ → π → Prop} {c : ℕ} {q : π} (hr : r c q) (x : σ) :
    Any { s with shared := x, calls := Function.update s.calls c (some q) } r :=
  ⟨c, q, by simp, hr⟩

/-- A call that begins leaves the others where they are. -/
theorem Any.of_enter {r : ℕ → π → Prop} (h : s.Any r) (hfresh : s.calls s.next = none) (q : π) :
    Any { s with calls := Function.update s.calls s.next (some q), next := s.next + 1 } r := by
  obtain ⟨d, p, hd, hr⟩ := h
  have hne : d ≠ s.next := by
    rintro rfl
    cases hd.symm.trans hfresh
  exact ⟨d, p, by simpa [hne] using hd, hr⟩

theorem count_enter {p : π → Bool} {q : π} :
    count { s with calls := Function.update s.calls s.next (some q), next := s.next + 1 } p =
      s.count p + (p q).toNat := by
  rw [count, Finset.sum_range_succ]
  congr 1
  · refine Finset.sum_congr rfl fun c hc => ?_
    have hne : c ≠ s.next := Nat.ne_of_lt (Finset.mem_range.mp hc)
    simp [hne]
  · simp

/-- A call that moves is counted where it stands. -/
theorem count_move {p : π → Bool} {c : ℕ} {x : σ} {q : Option π} (hc : c < s.next) :
    count { s with shared := x, calls := Function.update s.calls c q } p +
        ((s.calls c).any p).toNat = s.count p + (q.any p).toNat := by
  have hmem := Finset.mem_range.mpr hc
  have hrest : ∑ d ∈ (Finset.range s.next).erase c,
        ((Function.update s.calls c q d).any p).toNat =
      ∑ d ∈ (Finset.range s.next).erase c, ((s.calls d).any p).toNat := by
    refine Finset.sum_congr rfl fun d hd => ?_
    have hne : d ≠ c := Finset.ne_of_mem_erase hd
    simp [hne]
  have hafter := Finset.add_sum_erase _
    (fun d => ((Function.update s.calls c q d).any p).toNat) hmem
  have hbefore := Finset.add_sum_erase _ (fun d => ((s.calls d).any p).toNat) hmem
  simp only [Function.update_self] at hafter
  simp only [count]
  omega

theorem of_count_eq_zero {p : π → Bool} (h : s.count p = 0) {c : ℕ} (hlt : c < s.next) {q : π}
    (hc : s.calls c = some q) : p q = false := by
  have hzero := Finset.sum_eq_zero_iff.mp h c (Finset.mem_range.mpr hlt)
  rw [hc] at hzero
  simpa using hzero

end State

/-! ## The rule -/

/-- The assertions hold: of the shared state with the number of calls so far, and of each call. -/
structure Holds (G : σ → ℕ → Prop) (L : σ → ℕ → π → Prop) (s : State σ π) : Prop where
  shared : G s.shared s.next
  calls : ∀ c p, s.calls c = some p → L s.shared c p
  fresh : ∀ c, s.next ≤ c → s.calls c = none

/-- Every step keeps the assertion of its own call and the one of every other call; `ok` is a
condition on the steps. -/
structure Rule (P : Program σ π μ ι) (ok : State σ π → Action μ ι → Prop) (G : σ → ℕ → Prop)
    (L : σ → ℕ → π → Prop) : Prop where
  enter : ∀ x n m, G x n → G x (n + 1) ∧ L x n (P.enter m)
  own : ∀ s c p a x q, Holds G L s → ok s (.move c a) → s.calls c = some p →
    P.move s.shared c p a = some (x, q) → G x s.next ∧ ∀ p', q = some p' → L x c p'
  other : ∀ s c p a x q d p', Holds G L s → ok s (.move c a) → s.calls c = some p →
    P.move s.shared c p a = some (x, q) → s.calls d = some p' → d ≠ c → L x d p'

variable {P : Program σ π μ ι} {ok : State σ π → Action μ ι → Prop} {G : σ → ℕ → Prop}
  {L : σ → ℕ → π → Prop}

theorem Holds.lt (h : Holds G L s) {c : ℕ} {p : π} (hc : s.calls c = some p) : c < s.next := by
  by_contra hn
  rw [h.fresh c (Nat.le_of_not_lt hn)] at hc
  cases hc

theorem holds_initial {x : σ} (hx : G x 0) : Holds G L (State.initial x) :=
  ⟨hx, fun _ _ h => (by cases h), fun _ _ => rfl⟩

/-- An action that meets the condition keeps the assertions. -/
theorem Rule.of_step (h : Rule P ok G L) {s s' : State σ π} {a : Action μ ι} (hs : Holds G L s)
    (hok : ok s a) (hstep : s.step P a = some s') : Holds G L s' := by
  cases a with
  | enter m =>
    obtain rfl := Option.some.inj hstep
    obtain ⟨hG, hL⟩ := h.enter s.shared s.next m hs.shared
    refine ⟨hG, fun c p hc => ?_, fun c hn => ?_⟩
    · by_cases hcn : c = s.next
      · subst hcn
        obtain rfl : P.enter m = p := by simpa using hc
        exact hL
      · exact hs.calls c p (by simpa [hcn] using hc)
    · have hn : s.next + 1 ≤ c := hn
      have hne : c ≠ s.next := by omega
      simpa [hne] using hs.fresh c (by omega)
  | move c a =>
    obtain ⟨p, x, q, hc, hmove, rfl⟩ := State.step_move.mp hstep
    obtain ⟨hG, hL⟩ := h.own s c p a x q hs hok hc hmove
    refine ⟨hG, fun d p' hd => ?_, fun d hn => ?_⟩
    · by_cases hdc : d = c
      · subst hdc
        exact hL p' (by simpa using hd)
      · exact h.other s c p a x q d p' hs hok hc hmove (by simpa [hdc] using hd) hdc
    · have hdc : d ≠ c := by
        rintro rfl
        exact absurd (hs.lt hc) (Nat.not_lt.mpr hn)
      simpa [hdc] using hs.fresh d hn

end Interleaving
