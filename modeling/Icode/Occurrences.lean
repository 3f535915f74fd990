import Mathlib.Data.List.Basic
import Mathlib.Data.List.Infix
import Mathlib.Data.Nat.Find
import Mathlib.Tactic

/-!
# Occurrences of a pattern

`OccursAt pat text i` : the pattern is read in the text at position `i`. `count` counts
from left to right and goes on behind each match, so it does not see an occurrence that
begins inside an earlier one. `replaceFirst` replaces the first match.

`count_eq_one_iff` : a count of one says that there is one position, or that there are
several which all begin inside the first occurrence (`Overlaps`). `replaceFirst_eq` is
the text that the replacement gives.
-/

namespace Occurrences

variable {α : Type*}

/-- The pattern is read in the text at position `i`. -/
def OccursAt (pat text : List α) (i : ℕ) : Prop :=
  i ≤ text.length ∧ pat <+: text.drop i

/-- There is exactly one position, and it is `i`. -/
def OnlyAt (pat text : List α) (i : ℕ) : Prop :=
  ∀ j, OccursAt pat text j ↔ j = i

/-- There are two or more positions, and all begin inside the first occurrence. -/
def Overlaps (pat text : List α) : Prop :=
  ∃ i j, i < j ∧ OccursAt pat text i ∧ OccursAt pat text j ∧
    ∀ k, OccursAt pat text k → i ≤ k ∧ k < i + pat.length

@[simp] theorem occursAt_cons_succ {pat text : List α} {x : α} {i : ℕ} :
    OccursAt pat (x :: text) (i + 1) ↔ OccursAt pat text i := by
  simp [OccursAt]

theorem occursAt_zero {pat text : List α} : OccursAt pat text 0 ↔ pat <+: text := by
  simp [OccursAt]

theorem OccursAt.add_length_le {pat text : List α} {i : ℕ} (h : OccursAt pat text i) :
    i + pat.length ≤ text.length := by
  have hle := h.2.length_le
  have hi := h.1
  rw [List.length_drop] at hle
  omega

theorem occursAt_drop {pat text : List α} {n i : ℕ} (hn : n ≤ text.length) :
    OccursAt pat (text.drop n) i ↔ OccursAt pat text (n + i) := by
  rw [OccursAt, OccursAt, List.drop_drop, List.length_drop]
  exact and_congr_left fun _ => by omega

variable [DecidableEq α]

instance (pat text : List α) (i : ℕ) : Decidable (OccursAt pat text i) :=
  inferInstanceAs (Decidable (_ ∧ _))

/-- The matches of a nonempty pattern, with `skip` items of the last match left. -/
def countFrom (pat : List α) : ℕ → List α → ℕ
  | _, [] => 0
  | skip + 1, _ :: text => countFrom pat skip text
  | 0, x :: text =>
    if pat.isPrefixOf (x :: text) then countFrom pat (pat.length - 1) text + 1
    else countFrom pat 0 text

/-- The matches from left to right. The empty pattern matches at every position. -/
def count (pat text : List α) : ℕ :=
  if pat = [] then text.length + 1 else countFrom pat 0 text

/-- The text with the first match replaced. -/
def replaceFirst (pat new : List α) : List α → List α
  | [] => if pat = [] then new else []
  | x :: text =>
    if pat.isPrefixOf (x :: text) then new ++ (x :: text).drop pat.length
    else x :: replaceFirst pat new text

/-- No occurrence begins before `i`, where one begins. -/
def FirstAt (pat text : List α) (i : ℕ) : Prop :=
  OccursAt pat text i ∧ ∀ j < i, ¬OccursAt pat text j

omit [DecidableEq α] in
theorem FirstAt.cons {pat text : List α} {x : α} {i : ℕ} (h : FirstAt pat (x :: text) (i + 1)) :
    ¬pat <+: x :: text ∧ FirstAt pat text i := by
  refine ⟨fun hzero => h.2 0 (by omega) (occursAt_zero.mpr hzero), occursAt_cons_succ.mp h.1, ?_⟩
  intro j hj hoccurs
  exact h.2 (j + 1) (by omega) (occursAt_cons_succ.mpr hoccurs)

theorem exists_firstAt {pat text : List α} {i : ℕ} (h : OccursAt pat text i) :
    ∃ first ≤ i, FirstAt pat text first := by
  have hex : ∃ i, OccursAt pat text i := ⟨i, h⟩
  exact ⟨Nat.find hex, Nat.find_min' hex h, Nat.find_spec hex, fun j hj => Nat.find_min hex hj⟩

/-! ## Counting -/

theorem countFrom_skip (pat : List α) (skip : ℕ) (text : List α) :
    countFrom pat skip text = countFrom pat 0 (text.drop skip) := by
  induction text generalizing skip with
  | nil => simp [countFrom]
  | cons x text ih =>
    cases skip with
    | zero => rfl
    | succ skip => rw [countFrom, ih, List.drop_succ_cons]

theorem countFrom_zero_cons (pat : List α) (x : α) (text : List α) : countFrom pat 0 (x :: text) =
    if pat.isPrefixOf (x :: text) then countFrom pat (pat.length - 1) text + 1
    else countFrom pat 0 text :=
  rfl

theorem countFrom_eq_zero_iff {pat text : List α} (hpat : pat ≠ []) :
    countFrom pat 0 text = 0 ↔ ∀ i, ¬OccursAt pat text i := by
  induction text with
  | nil =>
    refine iff_of_true rfl fun i hi => hpat ?_
    simpa [OccursAt] using hi.2
  | cons x text ih =>
    rw [countFrom_zero_cons]
    split_ifs with hleads
    · refine iff_of_false (by simp) fun h => h 0 ?_
      exact occursAt_zero.mpr (List.isPrefixOf_iff_prefix.mp hleads)
    · rw [ih]
      constructor
      · intro h i hi
        cases i with
        | zero => exact hleads (List.isPrefixOf_iff_prefix.mpr (occursAt_zero.mp hi))
        | succ i => exact h i (occursAt_cons_succ.mp hi)
      · exact fun h i hi => h (i + 1) (occursAt_cons_succ.mpr hi)

/-- The count goes on behind the first match. -/
theorem countFrom_firstAt {pat text : List α} {i : ℕ} (hpat : pat ≠ []) (h : FirstAt pat text i) :
    countFrom pat 0 text = countFrom pat 0 (text.drop (i + pat.length)) + 1 := by
  induction text generalizing i with
  | nil =>
    have hlength := h.1.add_length_le
    have hpos := List.length_pos_of_ne_nil hpat
    rw [List.length_nil] at hlength
    omega
  | cons x text ih =>
    cases i with
    | zero =>
      have hleads := List.isPrefixOf_iff_prefix.mpr (occursAt_zero.mp h.1)
      have hpos := List.length_pos_of_ne_nil hpat
      rw [countFrom_zero_cons, if_pos hleads, countFrom_skip]
      obtain ⟨n, hn⟩ : ∃ n, pat.length = n + 1 := ⟨pat.length - 1, by omega⟩
      rw [Nat.zero_add, hn, List.drop_succ_cons, Nat.add_sub_cancel]
    | succ i =>
      obtain ⟨hleads, hfirst⟩ := h.cons
      have hfalse : ¬pat.isPrefixOf (x :: text) = true := fun ht =>
        hleads (List.isPrefixOf_iff_prefix.mp ht)
      rw [countFrom_zero_cons, if_neg hfalse, ih hfirst, Nat.add_right_comm i 1, List.drop_succ_cons]

/-- A count of one: no occurrence begins behind the first. -/
theorem countFrom_eq_one_iff {pat text : List α} (hpat : pat ≠ []) :
    countFrom pat 0 text = 1 ↔
      ∃ i, FirstAt pat text i ∧ ∀ j, OccursAt pat text j → j < i + pat.length := by
  have hbehind : ∀ {i}, FirstAt pat text i →
      (countFrom pat 0 text = 1 ↔ ∀ j, OccursAt pat text j → j < i + pat.length) := by
    intro i hfirst
    have hle := hfirst.1.add_length_le
    rw [countFrom_firstAt hpat hfirst, Nat.add_eq_right, countFrom_eq_zero_iff hpat]
    constructor
    · intro h j hj
      by_contra hge
      obtain ⟨k, rfl⟩ := Nat.exists_eq_add_of_le (not_lt.mp hge)
      exact h k ((occursAt_drop hle).mpr hj)
    · intro h k hk
      have hlt := h _ ((occursAt_drop hle).mp hk)
      omega
  constructor
  · intro h
    have hsome : ¬∀ i, ¬OccursAt pat text i := fun hnone => by
      rw [(countFrom_eq_zero_iff hpat).mpr hnone] at h
      cases h
    push Not at hsome
    obtain ⟨i, hi⟩ := hsome
    obtain ⟨first, -, hfirst⟩ := exists_firstAt hi
    exact ⟨first, hfirst, (hbehind hfirst).mp h⟩
  · rintro ⟨i, hfirst, h⟩
    exact (hbehind hfirst).mpr h

omit [DecidableEq α] in
theorem OnlyAt.firstAt {pat text : List α} {i : ℕ} (h : OnlyAt pat text i) : FirstAt pat text i :=
  ⟨(h i).mpr rfl, fun j hj hoccurs => absurd ((h j).mp hoccurs) hj.ne⟩

omit [DecidableEq α] in
/-- The empty pattern has one position exactly in the empty text. -/
theorem onlyAt_nil {text : List α} {i : ℕ} : OnlyAt [] text i ↔ text = [] ∧ i = 0 := by
  constructor
  · intro h
    obtain rfl := (h 0).mp ⟨by omega, List.nil_prefix⟩
    have hlast : text.length = 0 := (h text.length).mp ⟨le_rfl, List.nil_prefix⟩
    exact ⟨List.length_eq_zero_iff.mp hlast, rfl⟩
  · rintro ⟨rfl, rfl⟩ j
    simp [OccursAt]

/-- A count of one does not say that there is one position. -/
theorem count_eq_one_iff {pat text : List α} :
    count pat text = 1 ↔ (∃ i, OnlyAt pat text i) ∨ Overlaps pat text := by
  by_cases hpat : pat = []
  · subst hpat
    have hoverlaps : ¬Overlaps ([] : List α) text := by
      rintro ⟨i, j, -, hi, -, h⟩
      have := h i hi
      simp at this
    rw [count, if_pos rfl]
    constructor
    · intro h
      exact .inl ⟨0, onlyAt_nil.mpr ⟨List.length_eq_zero_iff.mp (by omega), rfl⟩⟩
    · rintro (⟨i, hi⟩ | h)
      · rw [(onlyAt_nil.mp hi).1]
        rfl
      · exact absurd h hoverlaps
  · rw [count, if_neg hpat, countFrom_eq_one_iff hpat]
    constructor
    · rintro ⟨i, hfirst, h⟩
      by_cases honly : OnlyAt pat text i
      · exact .inl ⟨i, honly⟩
      · right
        have hge : ∀ k, OccursAt pat text k → i ≤ k := fun k hk =>
          not_lt.mp fun hlt => hfirst.2 k hlt hk
        obtain ⟨j, hj, hne⟩ : ∃ j, OccursAt pat text j ∧ j ≠ i := by
          by_contra hnone
          push Not at hnone
          exact honly fun j => ⟨hnone j, fun he => he ▸ hfirst.1⟩
        exact ⟨i, j, lt_of_le_of_ne (hge j hj) hne.symm, hfirst.1, hj,
          fun k hk => ⟨hge k hk, h k hk⟩⟩
    · have hpos := List.length_pos_of_ne_nil hpat
      rintro (⟨i, honly⟩ | ⟨i, j, -, hi, -, h⟩)
      · exact ⟨i, honly.firstAt, fun j hj => by rw [(honly j).mp hj]; omega⟩
      · exact ⟨i, ⟨hi, fun k hlt hk => absurd (h k hk).1 (by omega)⟩, fun k hk => (h k hk).2⟩

omit [DecidableEq α] in
theorem Overlaps.not_onlyAt {pat text : List α} (h : Overlaps pat text) (i : ℕ) :
    ¬OnlyAt pat text i := by
  obtain ⟨j, k, hlt, hj, hk, -⟩ := h
  intro honly
  have := (honly j).mp hj
  have := (honly k).mp hk
  omega

/-! ## Replacing -/

/-- The replacement keeps what is before and behind the first occurrence. -/
theorem replaceFirst_eq {pat text : List α} {i : ℕ} (h : FirstAt pat text i) (new : List α) :
    replaceFirst pat new text = text.take i ++ new ++ text.drop (i + pat.length) := by
  induction text generalizing i with
  | nil =>
    have hlength := h.1.add_length_le
    rw [List.length_nil] at hlength
    have hpat : pat = [] := List.length_eq_zero_iff.mp (by omega)
    simp [replaceFirst, hpat]
  | cons x text ih =>
    cases i with
    | zero =>
      rw [replaceFirst, if_pos (List.isPrefixOf_iff_prefix.mpr (occursAt_zero.mp h.1))]
      simp
    | succ i =>
      obtain ⟨hleads, hfirst⟩ := h.cons
      have hfalse : ¬pat.isPrefixOf (x :: text) = true := fun ht =>
        hleads (List.isPrefixOf_iff_prefix.mp ht)
      rw [replaceFirst, if_neg hfalse, ih hfirst, Nat.add_right_comm i 1]
      simp

end Occurrences
