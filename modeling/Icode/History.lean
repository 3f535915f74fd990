import Mathlib.Data.List.Basic

/-!
# Histories

A history is the list of the events so far, and a rule about an event refers to
the events before it. `Every P` says that every event meets the rule `P` with the
history before it, `Since p q` that an event with `p` occurred and every event
after it has `q`, and `AtMostOnce p` that no two events have `p`.

Each is determined by the last event and the history without it
(`every_concat`, `since_concat`, `atMostOnce_concat`), which is what a reader
that keeps a few registers maintains. If a thing is started once, and each end of
it comes after its start with no end in between, it ends at most once
(`atMostOnce_of_since`).
-/

namespace History

variable {α : Type*}

/-- Every event meets `P` with the history before it. -/
def Every (P : List α → α → Prop) (es : List α) : Prop :=
  ∀ before e after, es = before ++ e :: after → P before e

/-- An event with `p` occurred, and every event after it has `q`. -/
def Since (p q : α → Prop) (es : List α) : Prop :=
  ∃ before x after, es = before ++ x :: after ∧ p x ∧ ∀ y ∈ after, q y

/-- No two events have `p`. -/
def AtMostOnce (p : α → Prop) (es : List α) : Prop :=
  Every (fun before e => p e → ∀ x ∈ before, ¬p x) es

variable {P Q : List α → α → Prop} {p q p' q' : α → Prop} {es : List α} {e : α}

/-- The last event of a list that is cut at an event. -/
theorem concat_eq_append_cons {before after : List α} {x : α} :
    es ++ [e] = before ++ x :: after ↔
      (before = es ∧ x = e ∧ after = []) ∨
        ∃ rest, after = rest ++ [e] ∧ es = before ++ x :: rest := by
  rcases List.eq_nil_or_concat' after with rfl | ⟨rest, y, rfl⟩
  · constructor
    · intro h
      obtain ⟨hes, he⟩ := List.append_inj' h rfl
      obtain rfl := List.cons.inj he |>.1
      exact Or.inl ⟨hes.symm, rfl, rfl⟩
    · rintro (⟨rfl, rfl, -⟩ | ⟨rest, h, -⟩)
      · rfl
      · simp at h
  · constructor
    · intro h
      rw [← List.cons_append, ← List.append_assoc] at h
      obtain ⟨hes, he⟩ := List.append_inj' h rfl
      obtain rfl := List.cons.inj he |>.1
      exact Or.inr ⟨rest, rfl, hes⟩
    · rintro (⟨-, -, h⟩ | ⟨rest', h, rfl⟩)
      · simp at h
      · rw [h]
        simp

theorem every_nil : Every P [] := by
  intro before e after h
  simp at h

theorem every_concat : Every P (es ++ [e]) ↔ Every P es ∧ P es e := by
  constructor
  · intro h
    refine ⟨fun before x after hx => ?_, h es e [] rfl⟩
    exact h before x (after ++ [e]) (by rw [hx]; simp)
  · rintro ⟨hes, he⟩ before x after hx
    rcases (concat_eq_append_cons).mp hx with ⟨rfl, rfl, -⟩ | ⟨rest, -, hes'⟩
    · exact he
    · exact hes before x rest hes'

theorem Every.mono (h : Every P es) (hPQ : ∀ before e, P before e → Q before e) : Every Q es :=
  fun before e after hx => hPQ _ _ (h before e after hx)

/-- An event of a history meets its rule. -/
theorem Every.of_append {before after : List α} (h : Every P (before ++ e :: after)) : P before e :=
  h before e after rfl

theorem Every.left {fs : List α} (h : Every P (es ++ fs)) : Every P es :=
  fun before e after hx => h before e (after ++ fs) (by rw [hx]; simp)

theorem not_since_nil : ¬Since p q [] := by
  rintro ⟨before, x, after, h, -⟩
  simp at h

theorem since_concat : Since p q (es ++ [e]) ↔ p e ∨ (Since p q es ∧ q e) := by
  constructor
  · rintro ⟨before, x, after, hx, hp, hq⟩
    rcases (concat_eq_append_cons).mp hx with ⟨rfl, rfl, -⟩ | ⟨rest, rfl, hes⟩
    · exact Or.inl hp
    · exact Or.inr ⟨⟨before, x, rest, hes, hp, fun y hy => hq y (by simp [hy])⟩, hq e (by simp)⟩
  · rintro (hp | ⟨⟨before, x, after, rfl, hp, hq⟩, hqe⟩)
    · exact ⟨es, e, [], rfl, hp, by simp⟩
    · refine ⟨before, x, after ++ [e], by simp, hp, fun y hy => ?_⟩
      rcases List.mem_append.mp hy with hy | hy
      · exact hq y hy
      · rwa [List.mem_singleton.mp hy]

theorem Since.mono (h : Since p q es) (hp : ∀ x, p x → p' x) (hq : ∀ x, q x → q' x) :
    Since p' q' es := by
  obtain ⟨before, x, after, hes, hx, hafter⟩ := h
  exact ⟨before, x, after, hes, hp x hx, fun y hy => hq y (hafter y hy)⟩

/-- `Since` does not look past an event without `q`. -/
theorem Since.of_not {before after : List α} (h : Since p q (before ++ e :: after)) (he : ¬q e) :
    (p e ∧ ∀ y ∈ after, q y) ∨ Since p q after := by
  obtain ⟨first, x, rest, hsplit, hx, hrest⟩ := h
  rcases List.append_eq_append_iff.mp hsplit with ⟨cs, rfl, hcs⟩ | ⟨cs, hbefore, hcs⟩
  · cases cs with
    | nil =>
      obtain ⟨rfl, rfl⟩ := List.cons.inj hcs
      exact Or.inl ⟨hx, hrest⟩
    | cons c cs =>
      obtain ⟨-, rfl⟩ := List.cons.inj hcs
      exact Or.inr ⟨cs, x, rest, rfl, hx, hrest⟩
  · cases cs with
    | nil =>
      obtain ⟨rfl, rfl⟩ := List.cons.inj hcs
      exact Or.inl ⟨hx, hrest⟩
    | cons c cs =>
      -- the event stands behind `x`
      obtain ⟨-, rfl⟩ := List.cons.inj hcs
      exact absurd (hrest e (by simp)) he

theorem Since.exists_mem (h : Since p q es) : ∃ x ∈ es, p x := by
  obtain ⟨before, x, after, rfl, hx, -⟩ := h
  exact ⟨x, by simp, hx⟩

/-- The first event with `p`. -/
theorem exists_first (h : ∃ x ∈ es, p x) :
    ∃ first x rest, es = first ++ x :: rest ∧ p x ∧ ∀ y ∈ first, ¬p y := by
  induction es with
  | nil => simp at h
  | cons e es ih =>
    by_cases he : p e
    · exact ⟨[], e, es, rfl, he, by simp⟩
    · obtain ⟨x, hx, hp⟩ := h
      have hx : x ∈ es := (List.mem_cons.mp hx).resolve_left fun hxe => he (hxe ▸ hp)
      obtain ⟨first, y, rest, rfl, hy, hfirst⟩ := ih ⟨x, hx, hp⟩
      exact ⟨e :: first, y, rest, rfl, hy, List.forall_mem_cons.mpr ⟨he, hfirst⟩⟩

theorem atMostOnce_concat :
    AtMostOnce p (es ++ [e]) ↔ AtMostOnce p es ∧ (p e → ∀ x ∈ es, ¬p x) :=
  every_concat

/-- What is started once, and ends only after its start and once since then, ends at most
once. -/
theorem atMostOnce_of_since {start stop : α → Prop} (hne : ∀ e, start e → ¬stop e)
    (hstart : AtMostOnce start es)
    (hstop : Every (fun before e => stop e → Since start (fun x => ¬stop x) before) es) :
    AtMostOnce stop es := by
  intro before e after hes he x hx hstopx
  obtain ⟨first, s, since, rfl, hs, hsince⟩ := hstop before e after hes he
  rcases List.mem_append.mp hx with hx | hx
  · -- an end before the start has a start of its own
    obtain ⟨f, r, rfl⟩ := List.append_of_mem hx
    have hprior := hstop f x (r ++ s :: since ++ e :: after) (by rw [hes]; simp) hstopx
    obtain ⟨y, hy, hys⟩ := hprior.exists_mem
    exact hstart (f ++ x :: r) s (since ++ e :: after) (by rw [hes]; simp) hs y
      (by simp [hy]) hys
  · rcases List.mem_cons.mp hx with rfl | hx
    · exact hne _ hs hstopx
    · exact hsince x hx hstopx

end History
