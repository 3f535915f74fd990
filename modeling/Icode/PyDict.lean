import Mathlib.Data.List.Basic
import Mathlib.Data.List.Nodup

/-!
# Dicts

A Python dict is the list of its items in insertion order, with distinct keys.
`get?` is a lookup, `set` an assignment, which keeps the place of a key that is
there, and `erase` the dict without a key. `get?_set`, `get?_update` and
`get?_erase` say what a change does to a lookup, and `perm_cons_erase` takes one
item out.
-/

namespace Py

/-- A Python dict: its items in insertion order. -/
abbrev Dict (κ β : Type*) := List (κ × β)

namespace Dict

variable {κ β : Type*} [DecidableEq κ]

/-- `d[key]` where the key may be absent. -/
def get? (d : Dict κ β) (key : κ) : Option β :=
  (d.find? fun m => m.1 = key).map Prod.snd

/-- `key in d`. -/
def has (d : Dict κ β) (key : κ) : Bool :=
  d.any fun m => m.1 = key

omit [DecidableEq κ] in
/-- `list(d)`. -/
def keys (d : Dict κ β) : List κ :=
  d.map Prod.fst

/-- `{k: v for k, v in d.items() if k != key}`, and `del d[key]`. -/
def erase (d : Dict κ β) (key : κ) : Dict κ β :=
  d.filter fun m => m.1 ≠ key

/-- `d[key] = item`. -/
def set (d : Dict κ β) (key : κ) (item : β) : Dict κ β :=
  match d with
  | [] => [(key, item)]
  | m :: d => if m.1 = key then (key, item) :: d else m :: set d key item

/-- `d.update(other)`. -/
def update (d other : Dict κ β) : Dict κ β :=
  other.foldl (fun acc m => Dict.set acc m.1 m.2) d

theorem has_iff_mem {d : Dict κ β} {key : κ} : d.has key = true ↔ key ∈ d.keys := by
  simp [has, keys]

theorem get?_eq_none_iff {d : Dict κ β} {key : κ} : d.get? key = none ↔ key ∉ d.keys := by
  simp only [get?, keys, Option.map_eq_none_iff, List.find?_eq_none, decide_eq_true_eq,
    List.mem_map, not_exists, not_and]

theorem mem_of_get? {d : Dict κ β} {key : κ} {v : β} (h : d.get? key = some v) : (key, v) ∈ d := by
  obtain ⟨m, hm, rfl⟩ := Option.map_eq_some_iff.mp h
  have hk : m.1 = key := by simpa using List.find?_some hm
  rw [← hk]
  exact List.mem_of_find?_eq_some hm

theorem get?_of_mem {d : Dict κ β} {key : κ} {v : β} (hnd : d.keys.Nodup) (h : (key, v) ∈ d) :
    d.get? key = some v := by
  induction d with
  | nil => simp at h
  | cons m d ih =>
    simp only [keys, List.map_cons, List.nodup_cons] at hnd
    rcases List.mem_cons.mp h with rfl | h
    · simp [get?]
    · have hne : m.1 ≠ key := by
        intro hk
        exact hnd.1 (List.mem_map.mpr ⟨_, h, hk.symm⟩)
      have := ih hnd.2 h
      simpa [get?, hne] using this

theorem has_eq_isSome (d : Dict κ β) (key : κ) : d.has key = (d.get? key).isSome := by
  rw [Bool.eq_iff_iff, has_iff_mem, Option.isSome_iff_ne_none, ne_eq, get?_eq_none_iff, not_not]

@[simp] theorem get?_cons (m : κ × β) (d : Dict κ β) (key : κ) :
    Dict.get? (m :: d) key = if m.1 = key then some m.2 else d.get? key := by
  by_cases h : m.1 = key <;> simp [get?, h]

theorem get?_map_keys {γ : Type*} {d : Dict κ β} (f : κ → γ) {key : κ} (h : key ∈ d.keys) :
    get? (d.map fun m => (m.1, f m.1)) key = some (f key) := by
  induction d with
  | nil => simp [keys] at h
  | cons m d ih =>
    rw [List.map_cons, get?_cons]
    by_cases hm : m.1 = key
    · simp [hm]
    · rw [if_neg hm]
      exact ih ((List.mem_cons.mp h).resolve_left (Ne.symm hm))

@[simp] theorem mem_erase {d : Dict κ β} {key : κ} {m : κ × β} :
    m ∈ d.erase key ↔ m ∈ d ∧ m.1 ≠ key := by
  simp [erase]

theorem keys_erase (d : Dict κ β) (key : κ) : (d.erase key).keys = d.keys.filter fun k => k ≠ key := by
  simp [erase, keys, List.filter_map, Function.comp_def]

theorem get?_erase (d : Dict κ β) (key k : κ) :
    (d.erase key).get? k = if k = key then none else d.get? k := by
  induction d with
  | nil => simp [erase, get?]
  | cons m d ih =>
    unfold erase at ih ⊢
    by_cases hm : m.1 = key
    · rw [List.filter_cons_of_neg (by simpa using hm), ih, get?_cons]
      by_cases hk : k = key
      · simp [hk]
      · simp [hk, show m.1 ≠ k from fun h => hk (h ▸ hm)]
    · rw [List.filter_cons_of_pos (by simpa using hm), get?_cons, get?_cons, ih]
      by_cases hk : k = key
      · simp [hk, hm]
      · simp [hk]

theorem get?_set (d : Dict κ β) (key k : κ) (v : β) :
    (d.set key v).get? k = if k = key then some v else d.get? k := by
  induction d with
  | nil => simp [set, get?, eq_comm]
  | cons m d ih =>
    by_cases hm : m.1 = key
    · by_cases hk : k = key
      · simp [set, hm, hk]
      · simp [set, hm, hk, show key ≠ k from fun h => hk h.symm]
    · by_cases hk : k = key
      · subst hk
        simpa [set, hm] using ih
      · simp [set, hm, ih, hk]

theorem has_set (d : Dict κ β) (key k : κ) (v : β) :
    (d.set key v).has k = (decide (k = key) || d.has k) := by
  rw [has_eq_isSome, get?_set, has_eq_isSome]
  split_ifs with h <;> simp [h]

theorem keys_set (d : Dict κ β) (key : κ) (v : β) :
    (d.set key v).keys = if key ∈ d.keys then d.keys else d.keys ++ [key] := by
  induction d with
  | nil => simp [set, keys]
  | cons m d ih =>
    simp only [keys, List.map_cons, List.mem_cons] at ih ⊢
    by_cases hm : m.1 = key
    · simp [set, hm]
    · have hne : key ≠ m.1 := fun h => hm h.symm
      by_cases hk : key ∈ List.map Prod.fst d
      · simp [set, hm, ih, hk]
      · simp [set, hm, ih, hk, hne]

theorem nodup_keys_set {d : Dict κ β} (h : d.keys.Nodup) (key : κ) (v : β) :
    (d.set key v).keys.Nodup := by
  rw [keys_set]
  split_ifs with hk
  · exact h
  · exact List.nodup_append.mpr ⟨h, by simp, by rintro a ha b hb rfl; simp_all⟩

theorem nodup_keys_erase {d : Dict κ β} (h : d.keys.Nodup) (key : κ) :
    (d.erase key).keys.Nodup := by
  rw [keys_erase]
  exact h.filter _

theorem set_of_notMem {d : Dict κ β} {key : κ} (v : β) (h : key ∉ d.keys) :
    d.set key v = d ++ [(key, v)] := by
  induction d with
  | nil => rfl
  | cons m d ih =>
    simp only [keys, List.map_cons, List.mem_cons, not_or] at h
    rw [set, if_neg (Ne.symm h.1), ih h.2, List.cons_append]

/-- What is set again as it is leaves the dict as it is. -/
theorem set_eq_self {d : Dict κ β} {key : κ} {v : β} (h : d.get? key = some v) :
    d.set key v = d := by
  induction d with
  | nil => simp [get?] at h
  | cons m d ih =>
    rw [get?_cons] at h
    rw [set]
    split_ifs at h ⊢ with hk
    · rw [← hk, ← Option.some.inj h]
    · rw [ih h]

theorem mem_of_mem_set {d : Dict κ β} {key : κ} {v : β} {m : κ × β} (h : m ∈ d.set key v) :
    m = (key, v) ∨ m ∈ d := by
  induction d with
  | nil => exact Or.inl (List.mem_singleton.mp h)
  | cons n d ih =>
    rw [set] at h
    split_ifs at h
    · exact (List.mem_cons.mp h).imp_right (List.mem_cons_of_mem _)
    · rcases List.mem_cons.mp h with rfl | h
      · exact Or.inr List.mem_cons_self
      · exact (ih h).imp_right (List.mem_cons_of_mem _)

theorem get?_update (key : κ) : ∀ other d : Dict κ β, key ∉ other.keys →
    (d.update other).get? key = d.get? key := by
  intro other
  induction other with
  | nil => exact fun _ _ => rfl
  | cons m other ih =>
    intro d hkey
    simp only [keys, List.map_cons, List.mem_cons, not_or] at hkey
    rw [update, List.foldl_cons]
    change (update (d.set m.1 m.2) other).get? key = _
    rw [ih _ hkey.2, get?_set, if_neg hkey.1]

theorem notMem_keys_update {key : κ} {other d : Dict κ β} (hd : key ∉ d.keys)
    (hother : key ∉ other.keys) : key ∉ (d.update other).keys := by
  rw [← get?_eq_none_iff] at hd ⊢
  rw [get?_update key other d hother, hd]

theorem erase_eq_self {key : κ} {d : Dict κ β} (h : key ∉ d.keys) : d.erase key = d := by
  refine List.filter_eq_self.mpr fun m hm => ?_
  have : m.1 ≠ key := by
    rintro rfl
    exact h (List.mem_map_of_mem hm)
  simpa using this

/-- An item taken out and put in front is a permutation. -/
theorem perm_cons_erase {d : Dict κ β} {key : κ} {v : β} (hnd : d.keys.Nodup)
    (h : d.get? key = some v) : d.Perm ((key, v) :: d.erase key) := by
  induction d with
  | nil => simp [get?] at h
  | cons m d ih =>
    simp only [keys, List.map_cons, List.nodup_cons] at hnd
    by_cases hk : m.1 = key
    · have hv : m.2 = v := by simpa [get?, hk] using h
      have hrest : Dict.erase (m :: d) key = d := by
        have : Dict.erase d key = d := erase_eq_self (hk ▸ hnd.1)
        simpa [erase, hk] using this
      rw [hrest, ← hk, ← hv]
    · have hrest : Dict.erase (m :: d) key = m :: Dict.erase d key := by
        simp [erase, hk]
      rw [hrest]
      have hget : Dict.get? d key = some v := by simpa [get?, hk] using h
      exact ((ih hnd.2 hget).cons m).trans (List.Perm.swap _ _ _)

end Dict

end Py
