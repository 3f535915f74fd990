import Icode.History
import Mathlib.Data.List.Induction
import Mathlib.Data.List.Nodup
import Mathlib.Data.List.TakeWhile

/-!
# Calls and replies

A message of a history may make calls and may reply to one. `Called` says that every
reply comes after a message with its call, `Answered` that every call is answered
later, and `WellPaired` is both. Messages that do neither may be put in front
(`wellPaired_append_of_silent`), and the end of a history in which every call is
answered has that too (`Answered.right`).

`Adjacent` is the stricter order of a chat history : right after a message stand the
replies to its calls, in their order, and no reply stands anywhere else. While the
replies are still to come the history is `Open`.
-/

namespace Pairing

open History

variable {α ι : Type*}

/-- Every reply comes after a message with its call. -/
def Called (calls : α → List ι) (reply : α → Option ι) (es : List α) : Prop :=
  Every (fun before e => ∀ i, reply e = some i → ∃ a ∈ before, i ∈ calls a) es

/-- Every call is answered later. -/
def Answered (calls : α → List ι) (reply : α → Option ι) (es : List α) : Prop :=
  ∀ before e after, es = before ++ e :: after → ∀ i ∈ calls e, ∃ r ∈ after, reply r = some i

structure WellPaired (calls : α → List ι) (reply : α → Option ι) (es : List α) : Prop where
  called : Called calls reply es
  answered : Answered calls reply es

variable {calls : α → List ι} {reply : α → Option ι} {es fs : List α}

theorem Answered.right (h : Answered calls reply (es ++ fs)) : Answered calls reply fs :=
  fun before e after hfs => h (es ++ before) e after (by rw [hfs, List.append_assoc])

theorem called_append_of_silent (h : ∀ e ∈ es, calls e = [] ∧ reply e = none) :
    Called calls reply (es ++ fs) ↔ Called calls reply fs := by
  constructor
  · intro hc before e after hfs i hi
    obtain ⟨a, ha, hai⟩ := hc (es ++ before) e after (by rw [hfs, List.append_assoc]) i hi
    rcases List.mem_append.mp ha with ha | ha
    · simp [(h a ha).1] at hai
    · exact ⟨a, ha, hai⟩
  · intro hc before e after hsplit i hi
    rcases List.append_eq_append_iff.mp hsplit with ⟨cs, rfl, hfs⟩ | ⟨cs, hes, hafter⟩
    · obtain ⟨a, ha, hai⟩ := hc cs e after hfs i hi
      exact ⟨a, by simp [ha], hai⟩
    · cases cs with
      | nil =>
        obtain ⟨a, ha, -⟩ := hc [] e after (by simpa using hafter.symm) i hi
        simp at ha
      | cons c cs =>
        obtain ⟨rfl, -⟩ := List.cons.inj hafter
        have := (h e (by rw [hes]; simp)).2
        rw [this] at hi
        simp at hi

theorem answered_append_of_silent (h : ∀ e ∈ es, calls e = [] ∧ reply e = none) :
    Answered calls reply (es ++ fs) ↔ Answered calls reply fs := by
  refine ⟨Answered.right, fun ha before e after hsplit i hi => ?_⟩
  rcases List.append_eq_append_iff.mp hsplit with ⟨cs, rfl, hfs⟩ | ⟨cs, hes, hafter⟩
  · exact ha cs e after hfs i hi
  · cases cs with
    | nil => exact ha [] e after (by simpa using hafter.symm) i hi
    | cons c cs =>
      obtain ⟨rfl, -⟩ := List.cons.inj hafter
      have := (h e (by rw [hes]; simp)).1
      simp [this] at hi

theorem wellPaired_append_of_silent (h : ∀ e ∈ es, calls e = [] ∧ reply e = none) :
    WellPaired calls reply (es ++ fs) ↔ WellPaired calls reply fs :=
  ⟨fun hp => ⟨(called_append_of_silent h).mp hp.called, (answered_append_of_silent h).mp hp.answered⟩,
    fun hp => ⟨(called_append_of_silent h).mpr hp.called,
      (answered_append_of_silent h).mpr hp.answered⟩⟩

/-! ## Replies right after the calls -/

/-- The replies a history begins with. -/
def leading (reply : α → Option ι) (es : List α) : List (Option ι) :=
  (es.takeWhile fun e => (reply e).isSome).map reply

/-- Right after each message stand the replies to its calls, and no other replies. -/
structure Adjacent (calls : α → List ι) (reply : α → Option ι) (es : List α) : Prop where
  leading_eq : leading reply es = []
  answers : ∀ before e after, es = before ++ e :: after → reply e = none →
    leading reply after = (calls e).map some

/-- The history is adjacent once the replies `ids` are added. -/
def Open (calls : α → List ι) (reply : α → Option ι) (ids : List ι) (es : List α) : Prop :=
  ∀ rs : List α, rs.map reply = ids.map some → Adjacent calls reply (es ++ rs)

theorem open_nil : Open calls reply [] es ↔ Adjacent calls reply es := by
  constructor
  · intro h
    simpa using h [] rfl
  · intro h rs hrs
    obtain rfl : rs = [] := by simpa using hrs
    simpa using h

/-- A reply to the next call. -/
theorem Open.append_reply {i : ι} {ids : List ι} {r : α} (h : Open calls reply (i :: ids) es)
    (hr : reply r = some i) : Open calls reply ids (es ++ [r]) := by
  intro rs hrs
  have := h (r :: rs) (by simp [hr, hrs])
  simpa using this

theorem adjacent_nil : Adjacent calls reply [] :=
  ⟨rfl, fun before e after h => by simp at h⟩

theorem leading_of_replies {rs : List α} {ids : List ι} (h : rs.map reply = ids.map some) :
    leading reply rs = ids.map some := by
  have hall : ∀ r ∈ rs, (reply r).isSome = true := by
    intro r hr
    have hmem : reply r ∈ ids.map some := h ▸ List.mem_map_of_mem hr
    obtain ⟨i, -, hi⟩ := List.mem_map.mp hmem
    rw [← hi]
    rfl
  rw [leading, List.takeWhile_eq_self_iff.mpr hall, h]

theorem leading_append_cons {e : α} (he : reply e = none) :
    leading reply (es ++ e :: fs) = leading reply es := by
  induction es with
  | nil => simp [leading, he]
  | cons x es ih =>
    simp only [leading] at ih ⊢
    rw [List.cons_append, List.takeWhile_cons, List.takeWhile_cons]
    split
    · rw [List.map_cons, List.map_cons, ih]
    · rfl

/-- A message that is no reply opens its calls. -/
theorem Adjacent.call {e : α} (h : Adjacent calls reply es) (he : reply e = none) :
    Open calls reply (calls e) (es ++ [e]) := by
  intro rs hrs
  rw [List.append_assoc, List.singleton_append]
  refine ⟨by rw [leading_append_cons he, h.leading_eq], ?_⟩
  intro before x after hsplit hx
  rcases List.append_eq_append_iff.mp hsplit with ⟨cs, rfl, hrest⟩ | ⟨cs, hes, hafter⟩
  · cases cs with
    | nil =>
      obtain ⟨rfl, rfl⟩ := List.cons.inj hrest
      exact leading_of_replies hrs
    | cons c cs =>
      -- a later message is one of the replies
      obtain ⟨rfl, hrs'⟩ := List.cons.inj hrest
      have hmem : reply x ∈ (calls e).map some := by
        rw [← hrs, hrs']
        simp
      obtain ⟨i, -, hi⟩ := List.mem_map.mp hmem
      rw [hx] at hi
      simp at hi
  · cases cs with
    | nil =>
      obtain ⟨rfl, rfl⟩ := List.cons.inj hafter
      exact leading_of_replies hrs
    | cons c cs =>
      obtain ⟨rfl, rfl⟩ := List.cons.inj hafter
      rw [List.append_eq, leading_append_cons he]
      exact h.answers before x cs hes hx

/-- A message without calls that is no reply. -/
theorem Adjacent.plain {e : α} (h : Adjacent calls reply es) (he : reply e = none)
    (hc : calls e = []) : Adjacent calls reply (es ++ [e]) := by
  have := h.call he
  rwa [hc, open_nil] at this

/-- A call of a message without repeated calls has exactly one reply right after it. -/
theorem Adjacent.existsUnique_reply (h : Adjacent calls reply es) {before after : List α} {e : α}
    (hes : es = before ++ e :: after) (he : reply e = none) (hnodup : (calls e).Nodup) {i : ι}
    (hi : i ∈ calls e) : ∃! k : ℕ, (leading reply after)[k]? = some (some i) := by
  rw [h.answers before e after hes he]
  obtain ⟨k, hk, hki⟩ := List.getElem_of_mem hi
  refine ⟨k, by simp [hk, hki], fun k' hk' => ?_⟩
  obtain ⟨hlt, hk'i⟩ : ∃ hlt : k' < (calls e).length, (calls e)[k'] = i := by
    simpa [List.getElem?_map, List.getElem?_eq_some_iff] using hk'
  exact (List.Nodup.getElem_inj_iff hnodup).mp (hk'i.trans hki.symm)

theorem leading_eq_nil_of_append (h : leading reply (es ++ fs) = []) : leading reply es = [] := by
  cases es with
  | nil => rfl
  | cons e es =>
    cases he : reply e with
    | none => simp [leading, he]
    | some i => simp [leading, he] at h

/-- The last message that is no reply. -/
theorem exists_last_message (h : leading reply es = []) (hne : es ≠ []) :
    ∃ before e rs, es = before ++ e :: rs ∧ reply e = none ∧ ∀ r ∈ rs, (reply r).isSome := by
  induction es using List.reverseRecOn with
  | nil => exact absurd rfl hne
  | append_singleton es x ih =>
    cases hx : reply x with
    | none => exact ⟨es, x, [], rfl, hx, by simp⟩
    | some i =>
      rcases List.eq_nil_or_concat' es with rfl | ⟨_, _, rfl⟩
      · simp [leading, hx] at h
      · obtain ⟨before, e, rs, hsplit, he, hrs⟩ := ih (leading_eq_nil_of_append h) (by simp)
        refine ⟨before, e, rs ++ [x], by rw [hsplit]; simp, he, ?_⟩
        intro r hr
        rcases List.mem_append.mp hr with hr | hr
        · exact hrs r hr
        · rw [List.mem_singleton.mp hr, hx]
          rfl

/-- Where the replies stand right after the calls, calls and replies are paired. -/
theorem Adjacent.wellPaired (h : Adjacent calls reply es)
    (hcalls : ∀ e, reply e ≠ none → calls e = []) : WellPaired calls reply es := by
  refine ⟨?_, ?_⟩
  · intro before r after hsplit i hi
    have hlead : leading reply before = [] := leading_eq_nil_of_append (hsplit ▸ h.leading_eq)
    rcases eq_or_ne before [] with rfl | hne
    · have := h.leading_eq
      rw [hsplit] at this
      simp [leading, hi] at this
    · obtain ⟨first, e, rs, rfl, he, hrs⟩ := exists_last_message hlead hne
      have hanswers := h.answers first e (rs ++ r :: after) (by rw [hsplit]; simp) he
      have hmem : some i ∈ (calls e).map some := by
        rw [← hanswers, leading, List.takeWhile_append_of_pos hrs, List.takeWhile_cons, hi]
        simp [hi]
      obtain ⟨j, hj, hji⟩ := List.mem_map.mp hmem
      obtain rfl := Option.some.inj hji
      exact ⟨e, by simp, hj⟩
  · intro before e after hsplit i hi
    cases he : reply e with
    | some j => simp [hcalls e (by simp [he])] at hi
    | none =>
      have hmem : some i ∈ leading reply after := by
        rw [h.answers before e after hsplit he]
        exact List.mem_map_of_mem hi
      obtain ⟨r, hr, hri⟩ := List.mem_map.mp hmem
      exact ⟨r, (List.takeWhile_prefix _).subset hr, hri⟩

end Pairing
