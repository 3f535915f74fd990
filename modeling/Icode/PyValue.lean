import Icode.JsonNames

/-!
# Python values

`PyValue` is a value that a Python program hands to the JSON encoder: besides the values that
`json.loads` returns it has tuples, dicts whose keys are not texts, and objects of other types.
`toJson?` is the value that stands in the text of the encoder, if the encoder does not raise: a
tuple is an array, and a key that is a number or a constant is written as a text (`PyKey.name?`).
So two keys of a dict may be written alike, and the written value has names of its own exactly when
no two of them are (`wf_toJson?`).
-/

namespace Py

open Json

/-- A float, with a `repr` that reads back as it. -/
structure PyDouble where
  val : PyFloat
  reads : val.isFinite = true → wordTokens val.repr = [.float val]

/-- A key of a dict. -/
inductive PyKey where
  | none
  | bool (b : Bool)
  | int (n : ℤ)
  | float (x : PyDouble)
  | str (s : PyStr)
  /-- Of a type the encoder refuses. -/
  | other

/-- A Python value. -/
inductive PyValue where
  | none
  | bool (b : Bool)
  | int (n : ℤ)
  | float (x : PyDouble)
  | str (s : PyStr)
  | list (xs : List PyValue)
  | tuple (xs : List PyValue)
  | dict (ms : List (PyKey × PyValue))
  /-- A `Mapping` that is no dict. -/
  | mapping (ms : List (PyKey × PyValue))
  /-- Of a type the encoder refuses. -/
  | other

/-- The items of a mapping. -/
abbrev PyItems := List (PyKey × PyValue)

/-- `value.get(key)` of a text key. -/
def PyItems.get? (ms : PyItems) (key : PyStr) : Option PyValue :=
  match ms with
  | [] => Option.none
  | (.str k, x) :: ms => if k = key then some x else PyItems.get? ms key
  | _ :: ms => PyItems.get? ms key

/-! ## The encoder -/

/-- `str(n)` within `sys.get_int_max_str_digits()`. -/
def intText? (n : ℤ) : Option (List Char) :=
  if (Nat.toDigits 10 n.natAbs).length ≤ intMaxStrDigits then some (intText n) else none

/-- The name a key is written as (`allow_nan=False`). -/
def PyKey.name? : PyKey → Option PyStr
  | .none => some (lit "null")
  | .bool b => some (if b then lit "true" else lit "false")
  | .int n => (intText? n).map ofChars
  | .float x => if x.val.isFinite then some (ofChars x.val.repr) else Option.none
  | .str s => some s
  | .other => Option.none

namespace PyValue

mutual

/-- The value in the text of `json.JSONEncoder(allow_nan=False)`. -/
def toJson? : PyValue → Option Json
  | .none => some .null
  | .bool b => some (.bool b)
  | .int n => (intText? n).map fun _ => .int n
  | .float x => if x.val.isFinite then some (.float x.val) else Option.none
  | .str s => some (.str s)
  | .list xs => (toJsonList? xs).map .arr
  | .tuple xs => (toJsonList? xs).map .arr
  | .dict ms => (toJsonMembers? ms).map .obj
  | .mapping _ => Option.none
  | .other => Option.none

def toJsonList? : List PyValue → Option (List Json)
  | [] => some []
  | x :: xs => do
    let v ← toJson? x
    let vs ← toJsonList? xs
    some (v :: vs)

def toJsonMembers? : PyItems → Option Members
  | [] => some []
  | (k, x) :: ms => do
    let name ← k.name?
    let v ← toJson? x
    let rest ← toJsonMembers? ms
    some ((name, v) :: rest)

end

mutual

/-- The value as `json.loads` returns it: lists, dicts with text keys, and plain values. -/
def plainJson? : PyValue → Option Json
  | .none => some .null
  | .bool b => some (.bool b)
  | .int n => some (.int n)
  | .float x => some (.float x.val)
  | .str s => some (.str s)
  | .list xs => (plainJsonList? xs).map .arr
  | .dict ms => (plainJsonMembers? ms).map .obj
  | _ => Option.none

def plainJsonList? : List PyValue → Option (List Json)
  | [] => some []
  | x :: xs => do
    let v ← plainJson? x
    let vs ← plainJsonList? xs
    some (v :: vs)

def plainJsonMembers? : PyItems → Option Members
  | [] => some []
  | (k, x) :: ms => do
    let name ← (match k with
      | .str s => some s
      | _ => Option.none)
    let v ← plainJson? x
    let rest ← plainJsonMembers? ms
    some ((name, v) :: rest)

end

mutual

/-- No dict has two keys that are written alike. -/
def DistinctNames : PyValue → Prop
  | .list xs => DistinctNamesList xs
  | .tuple xs => DistinctNamesList xs
  | .dict ms => (ms.map fun m => m.1.name?).Nodup ∧ DistinctNamesMembers ms
  | _ => True

def DistinctNamesList : List PyValue → Prop
  | [] => True
  | x :: xs => DistinctNames x ∧ DistinctNamesList xs

def DistinctNamesMembers : PyItems → Prop
  | [] => True
  | (_, x) :: ms => DistinctNames x ∧ DistinctNamesMembers ms

end

/-! ## What is written -/

theorem toJsonList?_cons {x : PyValue} {xs : List PyValue} {vs : List Json} :
    toJsonList? (x :: xs) = some vs ↔
      ∃ v ws, toJson? x = some v ∧ toJsonList? xs = some ws ∧ v :: ws = vs := by
  simp [toJsonList?, Option.bind_eq_some_iff]

theorem toJsonMembers?_cons {k : PyKey} {x : PyValue} {ms : PyItems} {vs : Members} :
    toJsonMembers? ((k, x) :: ms) = some vs ↔ ∃ name v ws, k.name? = some name ∧
      toJson? x = some v ∧ toJsonMembers? ms = some ws ∧ (name, v) :: ws = vs := by
  simp [toJsonMembers?, Option.bind_eq_some_iff]

theorem plainJsonList?_cons {x : PyValue} {xs : List PyValue} {vs : List Json} :
    plainJsonList? (x :: xs) = some vs ↔
      ∃ v ws, plainJson? x = some v ∧ plainJsonList? xs = some ws ∧ v :: ws = vs := by
  simp [plainJsonList?, Option.bind_eq_some_iff]

/-- The names of the members that are written. -/
theorem keys_toJsonMembers? : ∀ {ms : PyItems} {vs : Members}, toJsonMembers? ms = some vs →
    ms.map (fun m => m.1.name?) = (Dict.keys vs).map some
  | [], vs, h => by
    obtain rfl := Option.some.inj h
    rfl
  | (k, x) :: ms, vs, h => by
    obtain ⟨name, v, ws, hname, -, hrest, rfl⟩ := toJsonMembers?_cons.mp h
    rw [List.map_cons, hname, keys_toJsonMembers? hrest]
    rfl

mutual

/-- The objects of the written value have names of their own when no two keys of a dict are
written alike. -/
theorem wf_toJson? : ∀ {v : PyValue} {j : Json}, toJson? v = some j →
    (j.WF ↔ v.DistinctNames)
  | .none, j, h => by
    obtain rfl := Option.some.inj h
    exact Iff.rfl
  | .bool b, j, h => by
    obtain rfl := Option.some.inj h
    exact Iff.rfl
  | .int n, j, h => by
    obtain ⟨-, -, rfl⟩ := Option.map_eq_some_iff.mp h
    exact Iff.rfl
  | .float x, j, h => by
    rw [toJson?] at h
    split_ifs at h
    obtain rfl := Option.some.inj h
    exact Iff.rfl
  | .str s, j, h => by
    obtain rfl := Option.some.inj h
    exact Iff.rfl
  | .list xs, j, h => by
    obtain ⟨vs, hvs, rfl⟩ := Option.map_eq_some_iff.mp h
    rw [wf_arr]
    exact wf_toJsonList? hvs
  | .tuple xs, j, h => by
    obtain ⟨vs, hvs, rfl⟩ := Option.map_eq_some_iff.mp h
    rw [wf_arr]
    exact wf_toJsonList? hvs
  | .dict ms, j, h => by
    obtain ⟨vs, hvs, rfl⟩ := Option.map_eq_some_iff.mp h
    rw [wf_obj, DistinctNames, keys_toJsonMembers? hvs,
      List.nodup_map_iff (Option.some_injective PyStr)]
    exact and_congr_right fun _ => wf_toJsonMembers? hvs
  | .mapping _, j, h => by cases h
  | .other, j, h => by cases h

theorem wf_toJsonList? : ∀ {xs : List PyValue} {vs : List Json}, toJsonList? xs = some vs →
    ((∀ v ∈ vs, v.WF) ↔ DistinctNamesList xs)
  | [], vs, h => by
    obtain rfl := Option.some.inj h
    exact iff_of_true (by simp) trivial
  | x :: xs, vs, h => by
    obtain ⟨v, ws, hx, hxs, rfl⟩ := toJsonList?_cons.mp h
    rw [List.forall_mem_cons]
    exact and_congr (wf_toJson? hx) (wf_toJsonList? hxs)

theorem wf_toJsonMembers? : ∀ {ms : PyItems} {vs : Members}, toJsonMembers? ms = some vs →
    ((∀ m ∈ vs, m.2.WF) ↔ DistinctNamesMembers ms)
  | [], vs, h => by
    obtain rfl := Option.some.inj h
    exact iff_of_true (by simp) trivial
  | (k, x) :: ms, vs, h => by
    obtain ⟨name, v, ws, -, hx, hms, rfl⟩ := toJsonMembers?_cons.mp h
    rw [List.forall_mem_cons]
    exact and_congr (wf_toJson? hx) (wf_toJsonMembers? hms)

end

theorem floatText_of_isFinite {x : PyFloat} (h : x.isFinite = true) : floatText x = x.repr := by
  simp only [PyFloat.isFinite, bne, Bool.and_eq_true, Bool.not_eq_true', beq_eq_false_iff_ne] at h
  rw [floatText, if_neg h.1.1, if_neg h.1.2, if_neg h.2]

mutual

/-- The numbers of the written value are read back. -/
theorem numbersRead_toJson? : ∀ {v : PyValue} {j : Json}, toJson? v = some j → j.NumbersRead
  | .none, j, h => by
    obtain rfl := Option.some.inj h
    exact trivial
  | .bool b, j, h => by
    obtain rfl := Option.some.inj h
    exact trivial
  | .int n, j, h => by
    obtain ⟨s, hs, rfl⟩ := Option.map_eq_some_iff.mp h
    rw [intText?] at hs
    split_ifs at hs with hdigits
    exact hdigits
  | .float x, j, h => by
    rw [toJson?] at h
    split_ifs at h with hfinite
    obtain rfl := Option.some.inj h
    show wordTokens (floatText x.val) = [.float x.val]
    rw [floatText_of_isFinite hfinite, x.reads hfinite]
  | .str s, j, h => by
    obtain rfl := Option.some.inj h
    exact trivial
  | .list xs, j, h => by
    obtain ⟨vs, hvs, rfl⟩ := Option.map_eq_some_iff.mp h
    exact numbersRead_arr.mpr (numbersRead_toJsonList? hvs)
  | .tuple xs, j, h => by
    obtain ⟨vs, hvs, rfl⟩ := Option.map_eq_some_iff.mp h
    exact numbersRead_arr.mpr (numbersRead_toJsonList? hvs)
  | .dict ms, j, h => by
    obtain ⟨vs, hvs, rfl⟩ := Option.map_eq_some_iff.mp h
    exact numbersRead_obj.mpr (numbersRead_toJsonMembers? hvs)
  | .mapping _, j, h => by cases h
  | .other, j, h => by cases h

theorem numbersRead_toJsonList? : ∀ {xs : List PyValue} {vs : List Json},
    toJsonList? xs = some vs → ∀ v ∈ vs, v.NumbersRead
  | [], vs, h => by
    obtain rfl := Option.some.inj h
    simp
  | x :: xs, vs, h => by
    obtain ⟨v, ws, hx, hxs, rfl⟩ := toJsonList?_cons.mp h
    exact List.forall_mem_cons.mpr ⟨numbersRead_toJson? hx, numbersRead_toJsonList? hxs⟩

theorem numbersRead_toJsonMembers? : ∀ {ms : PyItems} {vs : Members},
    toJsonMembers? ms = some vs → ∀ m ∈ vs, m.2.NumbersRead
  | [], vs, h => by
    obtain rfl := Option.some.inj h
    simp
  | (k, x) :: ms, vs, h => by
    obtain ⟨name, v, ws, -, hx, hms, rfl⟩ := toJsonMembers?_cons.mp h
    exact List.forall_mem_cons.mpr ⟨numbersRead_toJson? hx, numbersRead_toJsonMembers? hms⟩

end

/-! ## Plain values -/

theorem plainJsonMembers?_cons {k : PyKey} {x : PyValue} {ms : PyItems} {vs : Members} :
    plainJsonMembers? ((k, x) :: ms) = some vs ↔ ∃ name v ws, k = .str name ∧
      plainJson? x = some v ∧ plainJsonMembers? ms = some ws ∧ (name, v) :: ws = vs := by
  cases k <;> simp [plainJsonMembers?, Option.bind_eq_some_iff]

mutual

/-- A plain value is written as it is. -/
theorem toJson?_of_plainJson? : ∀ {v : PyValue} {j w : Json}, plainJson? v = some j →
    toJson? v = some w → w = j
  | .none, j, w, h, hw => by
    obtain rfl := Option.some.inj h
    exact (Option.some.inj hw).symm
  | .bool b, j, w, h, hw => by
    obtain rfl := Option.some.inj h
    exact (Option.some.inj hw).symm
  | .int n, j, w, h, hw => by
    obtain rfl := Option.some.inj h
    obtain ⟨-, -, rfl⟩ := Option.map_eq_some_iff.mp hw
    rfl
  | .float x, j, w, h, hw => by
    obtain rfl := Option.some.inj h
    rw [toJson?] at hw
    split_ifs at hw
    exact (Option.some.inj hw).symm
  | .str s, j, w, h, hw => by
    obtain rfl := Option.some.inj h
    exact (Option.some.inj hw).symm
  | .list xs, j, w, h, hw => by
    obtain ⟨vs, hvs, rfl⟩ := Option.map_eq_some_iff.mp h
    obtain ⟨ws, hws, rfl⟩ := Option.map_eq_some_iff.mp hw
    rw [toJsonList?_of_plainJsonList? hvs hws]
  | .dict ms, j, w, h, hw => by
    obtain ⟨vs, hvs, rfl⟩ := Option.map_eq_some_iff.mp h
    obtain ⟨ws, hws, rfl⟩ := Option.map_eq_some_iff.mp hw
    rw [toJsonMembers?_of_plainJsonMembers? hvs hws]
  | .tuple xs, j, w, h, hw => by cases h
  | .mapping _, j, w, h, hw => by cases h
  | .other, j, w, h, hw => by cases h

theorem toJsonList?_of_plainJsonList? : ∀ {xs : List PyValue} {vs ws : List Json},
    plainJsonList? xs = some vs → toJsonList? xs = some ws → ws = vs
  | [], vs, ws, h, hw => by
    obtain rfl := Option.some.inj h
    exact (Option.some.inj hw).symm
  | x :: xs, vs, ws, h, hw => by
    obtain ⟨v, vs, hx, hxs, rfl⟩ := plainJsonList?_cons.mp h
    obtain ⟨w, ws, hx', hxs', rfl⟩ := toJsonList?_cons.mp hw
    rw [toJson?_of_plainJson? hx hx', toJsonList?_of_plainJsonList? hxs hxs']

theorem toJsonMembers?_of_plainJsonMembers? : ∀ {ms : PyItems} {vs ws : Members},
    plainJsonMembers? ms = some vs → toJsonMembers? ms = some ws → ws = vs
  | [], vs, ws, h, hw => by
    obtain rfl := Option.some.inj h
    exact (Option.some.inj hw).symm
  | (k, x) :: ms, vs, ws, h, hw => by
    obtain ⟨name, v, vs, rfl, hx, hms, rfl⟩ := plainJsonMembers?_cons.mp h
    obtain ⟨name', w, ws, hname, hx', hms', rfl⟩ := toJsonMembers?_cons.mp hw
    rw [← Option.some.inj hname, toJson?_of_plainJson? hx hx',
      toJsonMembers?_of_plainJsonMembers? hms hms']

end

/-! ## Looking up a member -/

/-- A name with a letter that no number and no constant has is the name of a text only. -/
theorem name?_eq_some_kind {k : PyKey} (h : k.name? = some (lit "kind")) :
    k = .str (lit "kind") := by
  have hmem : CodePoint.scalar 'k' ∈ lit "kind" := by decide
  have hchars : ∀ {s : List Char} {p : Char → Bool}, (∀ c ∈ s, p c = true) → p 'k' = false →
      ofChars s ≠ lit "kind" := by
    intro s p hs hp heq
    rw [← heq] at hmem
    obtain ⟨c, hc, hck⟩ := List.mem_map.mp hmem
    rw [CodePoint.scalar.inj hck] at hc
    have hk := hs 'k' hc
    rw [hp] at hk
    cases hk
  cases k with
  | none => exact absurd (Option.some.inj h) (by decide)
  | bool b => cases b <;> exact absurd (Option.some.inj h) (by decide)
  | int n =>
    obtain ⟨s, hs, htext⟩ := Option.map_eq_some_iff.mp h
    rw [intText?] at hs
    split_ifs at hs
    rw [← Option.some.inj hs] at htext
    exact absurd htext (hchars (p := isIntChar) (fun c => isIntChar_of_mem_intText) (by decide))
  | float x =>
    rw [PyKey.name?] at h
    split_ifs at h with hfinite
    have htext := Option.some.inj h
    rcases floatText_cases x.val with ⟨hx, -⟩ | ⟨hx, -⟩ | ⟨hx, -⟩ | ⟨-, hx, -⟩
    · rw [hx] at hfinite
      exact absurd hfinite (by decide)
    · rw [hx] at hfinite
      exact absurd hfinite (by decide)
    · rw [hx] at hfinite
      exact absurd hfinite (by decide)
    · exact absurd htext (hchars (p := isFloatChar) hx (by decide))
  | str s => rw [Option.some.inj h]
  | other => cases h

/-- The written member of a name that no other key is written as. -/
theorem get?_toJsonMembers? {key : PyStr} (hkey : ∀ {k : PyKey}, k.name? = some key → k = .str key) :
    ∀ {ms : PyItems} {vs : Members}, toJsonMembers? ms = some vs →
      Dict.get? vs key = (PyItems.get? ms key).bind toJson?
  | [], vs, h => by
    obtain rfl := Option.some.inj h
    rfl
  | (k, x) :: ms, vs, h => by
    obtain ⟨name, v, ws, hname, hx, hms, rfl⟩ := toJsonMembers?_cons.mp h
    have ih := get?_toJsonMembers? hkey hms
    rw [Dict.get?_cons]
    by_cases hk : name = key
    · rw [hk] at hname
      obtain rfl := hkey hname
      simp [PyItems.get?, hk, hx]
    · have hne : ∀ s, k = .str s → s ≠ key := by
        rintro s rfl rfl
        exact hk (Option.some.inj hname).symm
      cases k with
      | str s => simp [PyItems.get?, hk, hne s rfl, ih]
      | _ => simp [PyItems.get?, hk, ih]

end PyValue

end Py
