import Mathlib.Data.List.Basic
import Mathlib.Tactic

/-!
# Separated records

A stream of records, each ended by a mark (`terminate`), is read back by a split at the
mark when no record holds it (`splitOn_terminate`), and a stream that ends with the mark
is such a stream (`exists_terminate`).

`splitLimit sep n` splits at the first `n` separators only. It gives `n + 1` parts
exactly when the text is `n` fields without the separator, each ended by it, and a rest
that is arbitrary (`splitLimit_eq_iff`).
-/

namespace Separated

variable {α : Type*}

/-! ## Terminated streams -/

/-- The records, each ended by the mark. -/
def terminate (mark : α) (records : List (List α)) : List α :=
  records.flatMap (· ++ [mark])

@[simp] theorem terminate_nil (mark : α) : terminate mark [] = [] :=
  rfl

@[simp] theorem terminate_cons (mark : α) (record : List α) (records : List (List α)) :
    terminate mark (record :: records) = record ++ mark :: terminate mark records := by
  simp [terminate]

@[simp] theorem terminate_append (mark : α) (a b : List (List α)) :
    terminate mark (a ++ b) = terminate mark a ++ terminate mark b := by
  simp [terminate]

/-- The field before the first separator is read off the beginning of the text. -/
theorem field_eq_of_prefix {sep : α} {first field tail : List α}
    (h : first ++ [sep] <+: field ++ sep :: tail) (hfirst : sep ∉ first) (hfield : sep ∉ field) :
    field = first := by
  obtain ⟨more, hmore⟩ := h
  induction first generalizing field with
  | nil =>
    cases field with
    | nil => rfl
    | cons y field =>
      obtain ⟨rfl, -⟩ := List.cons.inj hmore
      simp at hfield
  | cons x first ih =>
    rw [List.mem_cons, not_or] at hfirst
    cases field with
    | nil => exact absurd (List.cons.inj hmore).1.symm hfirst.1
    | cons y field =>
      rw [List.mem_cons, not_or] at hfield
      obtain ⟨rfl, htail⟩ := List.cons.inj hmore
      rw [ih hfirst.2 hfield.2 htail]

theorem getLast?_terminate {mark : α} {records : List (List α)} (h : records ≠ []) :
    (terminate mark records).getLast? = some mark := by
  obtain ⟨init, r, rfl⟩ := List.eq_nil_or_concat records |>.resolve_left h
  simp

variable [DecidableEq α]

/-- The last part of the split is what follows the last mark: nothing. -/
theorem splitOn_terminate {mark : α} {records : List (List α)} (h : ∀ r ∈ records, mark ∉ r) :
    (terminate mark records).splitOn mark = records ++ [[]] := by
  induction records with
  | nil => rfl
  | cons r records ih =>
    obtain ⟨hr, hrecords⟩ := List.forall_mem_cons.mp h
    rw [terminate_cons, List.splitOn_append_cons_self_of_not_mem hr, ih hrecords,
      List.cons_append]

/-- Up to its last mark every text is a stream of records. -/
theorem exists_terminate_append (mark : α) (text : List α) : ∃ records last,
    text = terminate mark records ++ last ∧ (∀ r ∈ records, mark ∉ r) ∧ mark ∉ last := by
  induction text with
  | nil => exact ⟨[], [], rfl, by simp, by simp⟩
  | cons x text ih =>
    obtain ⟨records, last, rfl, hrecords, hlast⟩ := ih
    by_cases hx : x = mark
    · exact ⟨[] :: records, last, by simp [hx], by simpa using hrecords, hlast⟩
    · cases records with
      | nil => exact ⟨[], x :: last, rfl, by simp, by simp [Ne.symm hx, hlast]⟩
      | cons r records =>
        obtain ⟨hr, hrest⟩ := List.forall_mem_cons.mp hrecords
        refine ⟨(x :: r) :: records, last, by simp, ?_, hlast⟩
        exact List.forall_mem_cons.mpr ⟨by simp [Ne.symm hx, hr], hrest⟩

/-- A stream that ends with the mark is a stream of records. -/
theorem exists_terminate {mark : α} {text : List α} (h : text.getLast? = some mark) :
    ∃ records, text = terminate mark records ∧ ∀ r ∈ records, mark ∉ r := by
  obtain ⟨records, last, rfl, hrecords, hlast⟩ := exists_terminate_append mark text
  rcases List.eq_nil_or_concat last with rfl | ⟨init, x, rfl⟩
  · exact ⟨records, by rw [List.append_nil], hrecords⟩
  · have hx : x = mark := by simpa using h
    exact absurd (by simp [hx]) hlast

/-! ## Bounded splits -/

/-- Split at the first `n` separators. -/
def splitLimit (sep : α) : ℕ → List α → List (List α)
  | 0, text => [text]
  | _ + 1, [] => [[]]
  | n + 1, x :: text =>
    if x = sep then [] :: splitLimit sep n text
    else (splitLimit sep (n + 1) text).modifyHead (x :: ·)

@[simp] theorem splitLimit_zero (sep : α) (text : List α) : splitLimit sep 0 text = [text] := by
  cases text <;> rfl

@[simp] theorem splitLimit_succ_nil (sep : α) (n : ℕ) : splitLimit sep (n + 1) [] = [[]] :=
  rfl

theorem splitLimit_succ_cons (sep : α) (n : ℕ) (x : α) (text : List α) :
    splitLimit sep (n + 1) (x :: text) = if x = sep then [] :: splitLimit sep n text
      else (splitLimit sep (n + 1) text).modifyHead (x :: ·) :=
  rfl

theorem splitLimit_ne_nil (sep : α) (n : ℕ) (text : List α) : splitLimit sep n text ≠ [] := by
  fun_induction splitLimit sep n text <;> simp_all

/-- The first part ends at the first separator. -/
theorem splitLimit_succ_eq_cons {sep : α} {n : ℕ} {text field : List α} {parts : List (List α)}
    (h : parts ≠ []) : splitLimit sep (n + 1) text = field :: parts ↔
      ∃ tail, text = field ++ sep :: tail ∧ sep ∉ field ∧ splitLimit sep n tail = parts := by
  induction text generalizing field with
  | nil => simp [Ne.symm h]
  | cons x text ih =>
    rw [splitLimit_succ_cons]
    by_cases hx : x = sep
    · subst hx
      rw [if_pos rfl]
      constructor
      · intro he
        obtain ⟨rfl, rfl⟩ := List.cons.inj he
        exact ⟨text, rfl, by simp, rfl⟩
      · rintro ⟨tail, htext, hfield, rfl⟩
        cases field with
        | nil =>
          obtain ⟨-, rfl⟩ := List.cons.inj htext
          rfl
        | cons y field =>
          obtain ⟨rfl, -⟩ := List.cons.inj htext
          simp at hfield
    · rw [if_neg hx]
      obtain ⟨first, rest, hsplit⟩ :=
        List.exists_cons_of_ne_nil (splitLimit_ne_nil sep (n + 1) text)
      constructor
      · intro he
        rw [hsplit, List.modifyHead_cons] at he
        obtain ⟨rfl, rfl⟩ := List.cons.inj he
        obtain ⟨tail, rfl, hfirst, htail⟩ := ih.mp hsplit
        exact ⟨tail, rfl, by simp [Ne.symm hx, hfirst], htail⟩
      · rintro ⟨tail, htext, hfield, htail⟩
        cases field with
        | nil => exact absurd (List.cons.inj htext).1 hx
        | cons y field =>
          obtain ⟨rfl, rfl⟩ := List.cons.inj htext
          rw [List.mem_cons, not_or] at hfield
          rw [ih.mpr ⟨tail, rfl, hfield.2, htail⟩, List.modifyHead_cons]

/-- A bounded split with all its parts reads the fields and the rest back, and nothing else
gives these parts. -/
theorem splitLimit_eq_iff {sep : α} {text rest : List α} {fields : List (List α)} :
    splitLimit sep fields.length text = fields ++ [rest] ↔
      text = terminate sep fields ++ rest ∧ ∀ f ∈ fields, sep ∉ f := by
  induction fields generalizing text with
  | nil => simp
  | cons f fields ih =>
    rw [List.length_cons, List.cons_append, splitLimit_succ_eq_cons (by simp)]
    constructor
    · rintro ⟨tail, rfl, hf, htail⟩
      obtain ⟨rfl, hfields⟩ := ih.mp htail
      exact ⟨by simp, List.forall_mem_cons.mpr ⟨hf, hfields⟩⟩
    · rintro ⟨rfl, hall⟩
      obtain ⟨hf, hfields⟩ := List.forall_mem_cons.mp hall
      exact ⟨terminate sep fields ++ rest, by simp, hf, ih.mpr ⟨rfl, hfields⟩⟩

end Separated
