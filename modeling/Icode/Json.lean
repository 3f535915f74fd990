import Icode.PyFloat
import Icode.PyDict
import Mathlib.Data.List.Sort

/-!
# JSON values

`Json` is the value `json.loads` returns: objects are Python dicts, a list of
members in insertion order with distinct keys (`WF`). `Members.get` is
`dict.get`, `truthy` is `bool(value)` and `pyEq` is Python's `==`, where numbers
compare across `bool`, `int` and `float` and dicts ignore the order.

`canonical` sorts the members of every object by key, and two values are the
same JSON value when their canonical forms are equal (`Same`). For objects with
distinct keys that is equality up to the order of the members
(`same_obj_iff_perm`), so adding or taking away one key on both sides keeps it
(`same_of_same_erase`).
-/

namespace Py

/-- A JSON value. -/
inductive Json where
  | null
  | bool (b : Bool)
  | int (n : ℤ)
  | float (x : PyFloat)
  | str (s : PyStr)
  | arr (xs : List Json)
  | obj (ms : List (PyStr × Json))

/-- The members of an object. -/
abbrev Members := Dict PyStr Json

instance : Inhabited Json :=
  ⟨.null⟩

/-- Induction over a value, with the hypothesis at the members of a container. -/
@[induction_eliminator]
theorem Json.induct {P : Json → Prop} (null : P .null) (bool : ∀ b, P (.bool b))
    (int : ∀ n, P (.int n)) (float : ∀ x, P (.float x)) (str : ∀ s, P (.str s))
    (arr : ∀ xs, (∀ x ∈ xs, P x) → P (.arr xs))
    (obj : ∀ ms, (∀ m ∈ ms, P m.2) → P (.obj ms)) (v : Json) : P v :=
  Json.rec (motive_1 := P) (motive_2 := fun xs => ∀ x ∈ xs, P x)
    (motive_3 := fun ms => ∀ m ∈ ms, P m.2) (motive_4 := fun m => P m.2)
    null bool int float str arr obj (by simp) (fun _ _ hx hxs => by simpa using ⟨hx, hxs⟩)
    (by simp) (fun _ _ hm hms => List.forall_mem_cons.mpr ⟨hm, hms⟩) (fun _ _ h => h) v

/-! ## Members -/

namespace Members

/-- `value.get(key)`. -/
def get (ms : Members) (key : PyStr) : Json :=
  (Dict.get? ms key).getD .null

/-- `set(value) == set(names)`. -/
def keysAre (ms : Members) (names : List PyStr) : Bool :=
  ((Dict.keys ms).all fun k => names.contains k) && names.all fun k => Dict.has ms k

@[simp] theorem get_set (ms : Members) (key k : PyStr) (v : Json) :
    Members.get (Dict.set ms key v) k = if k = key then v else ms.get k := by
  simp only [get, Dict.get?_set]
  split_ifs <;> rfl

@[simp] theorem get_erase (ms : Members) (key k : PyStr) :
    Members.get (Dict.erase ms key) k = if k = key then .null else ms.get k := by
  simp only [get, Dict.get?_erase]
  split_ifs <;> rfl

/-- Members in another order have the same values. -/
theorem get_of_perm {a b : Members} (hnd : a.keys.Nodup) (h : a.Perm b) (key : PyStr) :
    a.get key = b.get key := by
  have hndb : b.keys.Nodup := by
    rw [Dict.keys] at hnd ⊢
    exact (h.map Prod.fst).nodup_iff.mp hnd
  have : Dict.get? a key = Dict.get? b key := by
    cases hb : Dict.get? b key with
    | none =>
      rw [Dict.get?_eq_none_iff] at hb ⊢
      intro hk
      exact hb ((h.map Prod.fst).mem_iff.mp hk)
    | some v => exact Dict.get?_of_mem hnd (h.mem_iff.mpr (Dict.mem_of_get? hb))
  rw [get, get, this]

theorem keysAre_iff {ms : Members} {names : List PyStr} :
    keysAre ms names = true ↔ ∀ k, k ∈ Dict.keys ms ↔ k ∈ names := by
  simp only [keysAre, Bool.and_eq_true, List.all_eq_true, List.contains_iff_mem, Dict.has_iff_mem]
  exact ⟨fun h k => ⟨h.1 k, h.2 k⟩, fun h => ⟨fun k => (h k).mp, fun k => (h k).mpr⟩⟩

/-- A dict with the keys `names` is its values under them. -/
theorem perm_of_keysAre {ms : Members} {names : List PyStr} (hnd : ms.keys.Nodup)
    (hnames : names.Nodup) (h : keysAre ms names = true) :
    ms.Perm (names.map fun k => (k, ms.get k)) := by
  rw [keysAre_iff] at h
  have hinj : Function.Injective fun k => (k, ms.get k) := fun a b hab => congrArg Prod.fst hab
  refine (List.perm_ext_iff_of_nodup (List.Nodup.of_map Prod.fst hnd) (hnames.map hinj)).mpr ?_
  rintro ⟨k, v⟩
  simp only [List.mem_map, Prod.mk.injEq]
  constructor
  · intro hm
    refine ⟨k, (h k).mp (List.mem_map.mpr ⟨_, hm, rfl⟩), rfl, ?_⟩
    rw [get, Dict.get?_of_mem hnd hm, Option.getD_some]
  · rintro ⟨k, hk, rfl, rfl⟩
    obtain ⟨m, hm, rfl⟩ := List.mem_map.mp ((h k).mpr hk)
    rw [get, Dict.get?_of_mem hnd hm, Option.getD_some]
    exact hm

theorem get_eq_null_of_not_has {ms : Members} {key : PyStr} (h : Dict.has ms key = false) :
    ms.get key = .null := by
  rw [Dict.has_eq_isSome, Option.isSome_eq_false_iff, Option.isNone_iff_eq_none] at h
  simp [get, h]

end Members

/-! ## Canonical form -/

/-- Members in the order of their keys. -/
def keyLe (a b : PyStr × Json) : Prop :=
  strLe a.1 b.1 = true

instance : DecidableRel keyLe := fun a b =>
  inferInstanceAs (Decidable (strLe a.1 b.1 = true))

instance : Std.Total keyLe :=
  ⟨fun a b => strLe_total a.1 b.1⟩

instance : IsTrans (PyStr × Json) keyLe :=
  ⟨fun _ _ _ => strLe_trans⟩

/-- `sorted(value.items())`; the keys are distinct. -/
def Members.sort (ms : Members) : Members :=
  ms.insertionSort keyLe

theorem Members.sort_perm (ms : Members) : ms.sort.Perm ms :=
  List.perm_insertionSort _ ms

/-- Permutations with distinct keys sort alike. -/
theorem Members.sort_eq_of_perm {a b : Members} (hnd : a.keys.Nodup) (h : a.Perm b) :
    a.sort = b.sort := by
  have hab : a.sort.Perm b.sort := a.sort_perm.trans (h.trans b.sort_perm.symm)
  refine hab.eq_of_pairwise ?_ (List.pairwise_insertionSort keyLe a)
    (List.pairwise_insertionSort keyLe b)
  intro x y hx hy hxy hyx
  have hk : x.1 = y.1 := strLe_antisymm hxy hyx
  have hx' : x ∈ a := a.sort_perm.subset hx
  have hy' : y ∈ a := h.symm.subset (b.sort_perm.subset hy)
  have hxv : a.get? x.1 = some x.2 := Dict.get?_of_mem hnd hx'
  have hyv : a.get? y.1 = some y.2 := Dict.get?_of_mem hnd hy'
  rw [hk, hyv] at hxv
  exact Prod.ext hk (Option.some.inj hxv).symm

namespace Json

mutual

/-- The value with the members of every object sorted by key. -/
def canonical : Json → Json
  | .arr xs => .arr (canonicalList xs)
  | .obj ms => .obj (Members.sort (canonicalMembers ms))
  | v => v

def canonicalList : List Json → List Json
  | [] => []
  | x :: xs => canonical x :: canonicalList xs

def canonicalMembers : Members → Members
  | [] => []
  | (k, x) :: ms => (k, canonical x) :: canonicalMembers ms

end

mutual

/-- Every object has distinct keys, as a Python dict has. -/
def WF : Json → Prop
  | .arr xs => WFList xs
  | .obj ms => (Dict.keys ms).Nodup ∧ WFMembers ms
  | _ => True

def WFList : List Json → Prop
  | [] => True
  | x :: xs => WF x ∧ WFList xs

def WFMembers : Members → Prop
  | [] => True
  | (_, x) :: ms => WF x ∧ WFMembers ms

end

theorem canonicalList_eq (xs : List Json) : canonicalList xs = xs.map canonical := by
  induction xs with
  | nil => rfl
  | cons x xs ih => exact congrArg (canonical x :: ·) ih

theorem canonicalMembers_eq (ms : Members) :
    canonicalMembers ms = ms.map fun m => (m.1, canonical m.2) := by
  induction ms with
  | nil => rfl
  | cons m ms ih => exact congrArg ((m.1, canonical m.2) :: ·) ih

@[simp] theorem canonical_arr (xs : List Json) :
    canonical (.arr xs) = .arr (xs.map canonical) :=
  congrArg Json.arr (canonicalList_eq xs)

@[simp] theorem canonical_obj (ms : Members) :
    canonical (.obj ms) = .obj (Members.sort (ms.map fun m => (m.1, canonical m.2))) :=
  congrArg (fun ms => Json.obj (Members.sort ms)) (canonicalMembers_eq ms)

@[simp] theorem wf_arr {xs : List Json} : WF (.arr xs) ↔ ∀ x ∈ xs, WF x := by
  change WFList xs ↔ ∀ x ∈ xs, WF x
  induction xs with
  | nil => exact iff_of_true trivial (List.forall_mem_nil _)
  | cons x xs ih =>
    rw [List.forall_mem_cons]
    exact and_congr_right' ih

@[simp] theorem wf_obj {ms : Members} :
    WF (.obj ms) ↔ (Dict.keys ms).Nodup ∧ ∀ m ∈ ms, WF m.2 := by
  have h : ∀ ms : Members, WFMembers ms ↔ ∀ m ∈ ms, WF m.2 := by
    intro ms
    induction ms with
    | nil => exact iff_of_true trivial (List.forall_mem_nil _)
    | cons m ms ih =>
      rw [List.forall_mem_cons]
      exact and_congr_right' ih
  exact and_congr_right' (h ms)

/-- The same JSON value: equal up to the order of members. -/
def Same (a b : Json) : Prop :=
  a.canonical = b.canonical

theorem Same.refl (a : Json) : Same a a :=
  rfl

theorem Same.symm {a b : Json} (h : Same a b) : Same b a :=
  Eq.symm h

theorem Same.trans {a b c : Json} (hab : Same a b) (hbc : Same b c) : Same a c :=
  Eq.trans hab hbc

theorem keys_map_canonical (ms : Members) :
    Dict.keys (ms.map fun m => (m.1, canonical m.2)) = Dict.keys ms := by
  simp [Dict.keys, Function.comp_def]

/-- Two objects with distinct keys are the same value when their members are the same
values, in some order. -/
theorem same_obj_iff_perm {a b : Members} (ha : a.keys.Nodup) :
    Same (.obj a) (.obj b) ↔
      (a.map fun m => (m.1, canonical m.2)).Perm (b.map fun m => (m.1, canonical m.2)) := by
  unfold Same
  rw [canonical_obj, canonical_obj, Json.obj.injEq]
  constructor
  · intro h
    exact (Members.sort_perm _).symm.trans (h ▸ Members.sort_perm _)
  · intro h
    exact Members.sort_eq_of_perm (by rwa [keys_map_canonical]) h

/-- Two objects that hold the same value under `key`, and are the same without it, are the
same. -/
theorem same_of_same_erase {a b : Members} (ha : a.keys.Nodup) (hb : b.keys.Nodup) {key : PyStr}
    {u v : Json} (hu : a.get? key = some u) (hv : b.get? key = some v) (huv : Same u v)
    (h : Same (.obj (a.erase key)) (.obj (b.erase key))) : Same (.obj a) (.obj b) := by
  have hea : (a.erase key).keys.Nodup := by
    rw [Dict.keys_erase]
    exact ha.filter _
  rw [same_obj_iff_perm hea] at h
  rw [same_obj_iff_perm ha]
  have hpa := (Dict.perm_cons_erase ha hu).map fun m : PyStr × Json => (m.1, canonical m.2)
  have hpb := (Dict.perm_cons_erase hb hv).map fun m : PyStr × Json => (m.1, canonical m.2)
  simp only [List.map_cons] at hpa hpb
  rw [show canonical v = canonical u from huv.symm] at hpb
  exact hpa.trans ((h.cons _).trans hpb.symm)

end Json

/-! ## Python operations on values -/

namespace Json

/-- `bool(value)`. -/
def truthy : Json → Bool
  | .null => false
  | .bool b => b
  | .int n => n != 0
  | .float x => x.toRat != some 0
  | .str s => !s.isEmpty
  | .arr xs => !xs.isEmpty
  | .obj ms => !ms.isEmpty

/-- The exact value of a number; `True` is `1`. -/
def number : Json → Option ℚ
  | .bool b => some (if b then 1 else 0)
  | .int n => some n
  | .float x => x.toRat
  | _ => none

mutual

/-- Python's `==`. -/
def pyEq : Json → Json → Bool
  | .null, .null => true
  | .str s, .str t => s == t
  | .arr xs, .arr ys => pyEqList xs ys
  | .obj ms, .obj ns => ms.length == ns.length && pyEqMembers ms ns
  | .float x, .float y => x.isFinite && y.isFinite && x.toRat == y.toRat || x == y && x != .nan
  | a, b =>
    match a.number, b.number with
    | some p, some q => p == q
    | _, _ => false

def pyEqList : List Json → List Json → Bool
  | [], [] => true
  | x :: xs, y :: ys => pyEq x y && pyEqList xs ys
  | _, _ => false

def pyEqMembers : Members → Members → Bool
  | [], _ => true
  | (k, x) :: ms, ns =>
    (match Dict.get? ns k with
      | some y => pyEq x y
      | none => false) && pyEqMembers ms ns

end

/-- `type(value) is int`. -/
def isInt : Json → Bool
  | .int _ => true
  | _ => false

/-- `isinstance(value, str)`. -/
def isStr : Json → Bool
  | .str _ => true
  | _ => false

/-- `isinstance(value, dict)`. -/
def isObj : Json → Bool
  | .obj _ => true
  | _ => false

/-- `isinstance(value, list)`. -/
def isArr : Json → Bool
  | .arr _ => true
  | _ => false

/-- The value can be hashed; `value in {…}` raises `TypeError` otherwise. -/
def hashable : Json → Bool
  | .arr _ => false
  | .obj _ => false
  | _ => true

/-- Equality with a value that is no number and no container. -/
theorem pyEq_plain (v : Json) (s : PyStr) : (pyEq v (.str s) = true ↔ v = .str s) ∧
    (pyEq (.str s) v = true ↔ .str s = v) ∧ (pyEq v .null = true ↔ v = .null) ∧
      ∀ n, (v.isInt && pyEq v (.int n)) = true ↔ v = .int n := by
  cases v <;> simp [pyEq, number, isInt]

@[simp] theorem pyEq_str {v : Json} {s : PyStr} : pyEq v (.str s) = true ↔ v = .str s :=
  (pyEq_plain v s).1

@[simp] theorem str_pyEq {v : Json} {s : PyStr} : pyEq (.str s) v = true ↔ .str s = v :=
  (pyEq_plain v s).2.1

@[simp] theorem pyEq_null {v : Json} : pyEq v .null = true ↔ v = .null :=
  (pyEq_plain v []).2.2.1

/-- `value == "…"`. -/
def isText (v : Json) (s : PyStr) : Bool :=
  v.pyEq (.str s)

/-- `type(value) is int and value == n`. -/
def isExactly (v : Json) (n : ℤ) : Bool :=
  v.isInt && v.pyEq (.int n)

/-- The characters of a string. -/
def text? : Json → Option PyStr
  | .str s => some s
  | _ => none

@[simp] theorem isText_iff {v : Json} {s : PyStr} : v.isText s = true ↔ v = .str s := by
  simp [isText]

@[simp] theorem isText_null {s : PyStr} : Json.null.isText s = false := by
  rw [Bool.eq_false_iff, ne_eq, isText_iff]
  exact nofun

@[simp] theorem isText_str {s t : PyStr} : (Json.str s).isText t = decide (s = t) := by
  rw [Bool.eq_iff_iff]
  simp

@[simp] theorem isExactly_iff {v : Json} {n : ℤ} : v.isExactly n = true ↔ v = .int n :=
  (pyEq_plain v []).2.2.2 n

@[simp] theorem text?_eq_some {v : Json} {s : PyStr} : v.text? = some s ↔ v = .str s := by
  cases v <;> simp [text?]

theorem isObj_iff {v : Json} : v.isObj = true ↔ ∃ ms, v = .obj ms := by
  cases v <;> simp [isObj]

/-- A text as it stands in an object, `null` when there is none. -/
def ofText? : Option PyStr → Json
  | none => .null
  | some s => .str s

@[simp] theorem ofText?_some (s : PyStr) : ofText? (some s) = .str s :=
  rfl

@[simp] theorem pyEq_ofText? {v : Json} {s : Option PyStr} :
    v.pyEq (ofText? s) = true ↔ v = ofText? s := by
  cases s <;> simp [ofText?]

end Json

end Py
