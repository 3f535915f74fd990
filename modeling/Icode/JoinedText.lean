import Icode.PurePath

/-!
# Stripped and joined text

What `strip` leaves of a text (`exists_strip`, `strip_between`), and where a piece stands in a text
that was joined with spaces (`joinWith_of_mem`).
-/

namespace Py

/-! ## Stripping -/

theorem dropWhile_append {p : CodePoint → Bool} {s t : PyStr} (hs : ∀ c ∈ s, p c = true)
    (ht : t.head?.any p = false) : (s ++ t).dropWhile p = t := by
  rw [List.dropWhile_append_of_pos hs]
  cases t with
  | nil => rfl
  | cons c t => rw [List.dropWhile_cons, if_neg (by simpa using ht)]

theorem head_dropWhile {p : CodePoint → Bool} (s : PyStr) :
    (s.dropWhile p).head?.any p = false := by
  induction s with
  | nil => rfl
  | cons c s ih =>
    rw [List.dropWhile_cons]
    split
    · exact ih
    · rename_i hc
      rwa [List.head?_cons, Option.any_some, ← Bool.not_eq_true]

/-- A text is what is left of it when it is stripped, between spaces. -/
theorem exists_strip (s : PyStr) : ∃ l r, s = l ++ (strip s ++ r) ∧ (∀ c ∈ l, isSpace c = true) ∧
    (∀ c ∈ r, isSpace c = true) ∧ (strip s).head?.any isSpace = false := by
  obtain ⟨t, ht⟩ : ∃ t, s.dropWhile isSpace = t := ⟨_, rfl⟩
  have hs : s = s.takeWhile isSpace ++ t := by rw [← ht, List.takeWhile_append_dropWhile]
  have hback : t =
      (t.reverse.dropWhile isSpace).reverse ++ (t.reverse.takeWhile isSpace).reverse := by
    rw [← List.reverse_append, List.takeWhile_append_dropWhile, List.reverse_reverse]
  have hstrip : strip s = (t.reverse.dropWhile isSpace).reverse := by rw [strip, ht]
  refine ⟨s.takeWhile isSpace, (t.reverse.takeWhile isSpace).reverse, ?_,
    fun c hc => List.mem_takeWhile_imp hc,
    fun c hc => List.mem_takeWhile_imp (List.mem_reverse.mp hc), ?_⟩
  · rw [hstrip, ← hback]
    exact hs
  · have hhead := head_dropWhile (p := isSpace) s
    rw [ht, hback, List.head?_append] at hhead
    rw [hstrip]
    cases hfirst : ((t.reverse.dropWhile isSpace).reverse).head? with
    | none => rfl
    | some c => simpa [hfirst] using hhead

/-- Stripping leaves what begins and ends with a mark. -/
theorem strip_between {l m b : PyStr} {c : CodePoint} (hl : ∀ c ∈ l, isSpace c = true)
    (hfirst : (m ++ b).head?.any isSpace = false) (hlast : m.getLast? = some c)
    (hc : isSpace c = false) : ∃ b', strip (l ++ (m ++ b)) = m ++ b' ∧ b' <+: b := by
  have hsplit := List.takeWhile_append_dropWhile (p := isSpace) (l := b.reverse)
  have hback : (m ++ b).reverse.dropWhile isSpace =
      b.reverse.dropWhile isSpace ++ m.reverse := by
    cases hrest : b.reverse.dropWhile isSpace with
    | nil =>
      rw [hrest, List.append_nil] at hsplit
      rw [List.reverse_append, List.nil_append]
      refine dropWhile_append (fun x hx => ?_) (by simp [List.head?_reverse, hlast, hc])
      rw [← hsplit] at hx
      exact List.mem_takeWhile_imp hx
    | cons x rest =>
      have hx := head_dropWhile (p := isSpace) b.reverse
      rw [hrest] at hx hsplit
      rw [List.reverse_append, ← hsplit, List.append_assoc]
      exact dropWhile_append (fun y hy => List.mem_takeWhile_imp hy) hx
  refine ⟨(b.reverse.dropWhile isSpace).reverse, ?_, ?_⟩
  · rw [strip, dropWhile_append hl hfirst, hback, List.reverse_append, List.reverse_reverse]
  · rw [← List.reverse_suffix, List.reverse_reverse]
    exact List.dropWhile_suffix _

/-! ## Joining -/

/-- What follows a piece: the next one, or nothing. -/
def Closed (b : PyStr) : Prop :=
  b = [] ∨ ∃ t, b = .scalar ' ' :: t

theorem Closed.of_prefix {b b' : PyStr} (h : Closed b) (hb : b' <+: b) : Closed b' := by
  obtain ⟨t, ht⟩ := hb
  cases b' with
  | nil => exact .inl rfl
  | cons c b' =>
    rcases h with rfl | ⟨s, rfl⟩
    · cases ht
    · exact .inr ⟨b', by rw [(List.cons.inj ht).1]⟩

/-- A text is the names it is split into, joined again. -/
theorem joinWith_splitOn (sep : CodePoint) (s : PyStr) : joinWith sep (splitOn sep s) = s := by
  induction s with
  | nil => rfl
  | cons c s ih =>
    rw [splitOn]
    obtain ⟨p, ps, hps⟩ : ∃ p ps, splitOn sep s = p :: ps := by
      cases hs : splitOn sep s with
      | nil => exact absurd hs (splitOn_ne_nil sep s)
      | cons p ps => exact ⟨p, ps, rfl⟩
    rw [hps] at ih ⊢
    split_ifs with hc
    · rw [joinWith, ih, hc]
      · rfl
      · simp
    · cases ps with
      | nil => simpa [joinWith] using ih
      | cons q ps => simpa [joinWith] using ih

theorem joinWith_cons {sep : CodePoint} {first : PyStr} {rest : List PyStr} (h : rest ≠ []) :
    joinWith sep (first :: rest) = first ++ sep :: joinWith sep rest := by
  cases rest with
  | nil => exact absurd rfl h
  | cons second rest => rfl

/-- Every part but the first has a separator in front. -/
theorem joinWith_cons_eq (sep : CodePoint) (first : PyStr) (rest : List PyStr) :
    joinWith sep (first :: rest) = first ++ rest.flatMap fun part => sep :: part := by
  induction rest generalizing first with
  | nil => exact (List.append_nil first).symm
  | cons second rest ih =>
    rw [joinWith_cons (List.cons_ne_nil second rest), ih, List.flatMap_cons, List.cons_append]

/-- Where a piece stands in the joined text. -/
theorem joinWith_of_mem {token : PyStr} : ∀ {l : List PyStr}, token ∈ l →
    ∃ a b, joinWith (.scalar ' ') l = a ++ (token ++ b) ∧ Closed b
  | [first], h => by
    obtain rfl := List.mem_singleton.mp h
    exact ⟨[], [], by rw [joinWith, List.append_nil, List.nil_append], .inl rfl⟩
  | first :: second :: rest, h => by
    rw [joinWith_cons (List.cons_ne_nil second rest)]
    rcases List.mem_cons.mp h with rfl | h
    · exact ⟨[], _, rfl, .inr ⟨_, rfl⟩⟩
    · obtain ⟨a, b, hjoin, hb⟩ := joinWith_of_mem h
      exact ⟨first ++ .scalar ' ' :: a, b, by rw [hjoin, List.append_assoc, List.cons_append], hb⟩

theorem forall_joinWith {p : CodePoint → Bool} (hsep : p (.scalar ' ') = true) :
    ∀ {l : List PyStr}, (∀ piece ∈ l, ∀ c ∈ piece, p c = true) →
      ∀ c ∈ joinWith (.scalar ' ') l, p c = true
  | [], _ => by simp [joinWith]
  | [first], h => h first List.mem_cons_self
  | first :: second :: rest, h => by
    rw [List.forall_mem_cons] at h
    rw [joinWith_cons (List.cons_ne_nil second rest), List.forall_mem_append, List.forall_mem_cons]
    exact ⟨h.1, hsep, forall_joinWith hsep h.2⟩

theorem joinWith_head (first : PyStr) (rest : List PyStr) :
    ∃ b, joinWith (.scalar ' ') (first :: rest) = first ++ b ∧ Closed b := by
  cases rest with
  | nil => exact ⟨[], (List.append_nil _).symm, .inl rfl⟩
  | cons second rest => exact ⟨_, rfl, .inr ⟨_, rfl⟩⟩

end Py
