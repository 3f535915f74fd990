import Icode.JsonBudget

/-!
# Member names that occur twice

A value with numbers that are read back (`NumbersRead`) is loaded from its text exactly when every
object of it has names of its own (`loads_indentFile_ok_iff`) : at an object with two members of
one name the reader stops (`parseTokens_error`).
-/

namespace Py

open Json

/-! ## Numbers -/

namespace Json

mutual

/-- Every number is read back from its text. -/
def NumbersRead : Json → Prop
  | .int n => (Nat.toDigits 10 n.natAbs).length ≤ intMaxStrDigits
  | .float x => wordTokens (floatText x) = [.float x]
  | .arr xs => NumbersReadList xs
  | .obj ms => NumbersReadMembers ms
  | _ => True

def NumbersReadList : List Json → Prop
  | [] => True
  | x :: xs => NumbersRead x ∧ NumbersReadList xs

def NumbersReadMembers : Members → Prop
  | [] => True
  | (_, x) :: ms => NumbersRead x ∧ NumbersReadMembers ms

end

@[simp] theorem numbersRead_arr {xs : List Json} :
    NumbersRead (.arr xs) ↔ ∀ x ∈ xs, NumbersRead x := by
  rw [NumbersRead]
  induction xs with
  | nil => simp [NumbersReadList]
  | cons x xs ih => simp [NumbersReadList, ih]

@[simp] theorem numbersRead_obj {ms : Members} :
    NumbersRead (.obj ms) ↔ ∀ m ∈ ms, NumbersRead m.2 := by
  rw [NumbersRead]
  induction ms with
  | nil => simp [NumbersReadMembers]
  | cons m ms ih => rw [NumbersReadMembers, ih, List.forall_mem_cons]

/-- The tokens of a value whose numbers are read back. -/
theorem NumbersRead.tokensWith {v : Json} : v.NumbersRead → tokensWith wordTokens v = v.tokens := by
  induction v with
  | null => exact fun _ => rfl
  | bool b => exact fun _ => by cases b <;> rfl
  | int n => exact wordTokens_intText
  | float x => exact id
  | str s => exact fun _ => rfl
  | arr xs ih =>
    intro h
    rw [numbersRead_arr] at h
    rw [tokensWith_arr, tokens_arr, List.map_congr_left fun x hx => ih x hx (h x hx)]
  | obj ms ih =>
    intro h
    rw [numbersRead_obj] at h
    have hmember : ∀ m ∈ ms, memberTokensWith wordTokens m = memberTokens m := fun m hm => by
      rw [memberTokensWith, ih m hm (h m hm), memberTokens]
    rw [tokensWith_obj, tokens_obj, List.map_congr_left hmember]

/-- A number that is read back is finite. -/
theorem NumbersRead.allFloats {v : Json} :
    v.NumbersRead → v.AllFloats fun x => x.isFinite = true := by
  induction v with
  | float x =>
    intro h
    have hread : wordTokens (floatText x) = [.float x] := h
    show x.isFinite = true
    by_contra hnot
    have hconstant : x = .nan ∨ x = .inf false ∨ x = .inf true := by
      rw [PyFloat.isFinite] at hnot
      grind
    rcases hconstant with rfl | rfl | rfl
    · rw [show floatText .nan = ['N', 'a', 'N'] from rfl] at hread
      cases hread
    · rw [show floatText (.inf false) = "Infinity".toList from rfl] at hread
      cases hread
    · rw [show floatText (.inf true) = "-Infinity".toList from rfl] at hread
      cases hread
  | arr xs ih =>
    intro h
    rw [numbersRead_arr] at h
    exact allFloats_arr.mpr fun x hx => ih x hx (h x hx)
  | obj ms ih =>
    intro h
    rw [numbersRead_obj] at h
    exact allFloats_obj.mpr fun m hm => ih m hm (h m hm)
  | _ => exact fun _ => trivial

end Json

/-! ## Where the reader stops -/

/-- The tokens of the value are refused wherever they stand. -/
def Refused (v : Json) : Prop :=
  ∀ stack ts, ∃ e, parseTokens ⟨stack, .value⟩ (v.tokens ++ ts) = .error e

theorem parseTokens_arrRest_error {stack : List Frame} {ts : List Token} : ∀ {xs acc : List Json},
    (∀ x ∈ xs, ¬ x.WF → Refused x) → ¬ (∀ x ∈ xs, x.WF) →
    ∃ e, parseTokens ⟨.arr acc :: stack, .next⟩ (tokenRest .rbrack (xs.map tokens) ++ ts) =
      .error e
  | [], acc, _, hbad => absurd (by simp) hbad
  | x :: xs, acc, hrefused, hbad => by
    simp only [List.map_cons, tokenRest, List.cons_append, List.append_assoc]
    rw [parseTokens_cons (n := ⟨.arr acc :: stack, .value⟩) rfl]
    by_cases hx : x.WF
    · rw [parseTokens_tokens x hx, valueDone]
      refine parseTokens_arrRest_error (fun y hy => hrefused y (List.mem_cons_of_mem x hy)) ?_
      exact fun hall => hbad (List.forall_mem_cons.mpr ⟨hx, hall⟩)
    · exact hrefused x List.mem_cons_self hx _ _

theorem parseTokens_member_error {m : PyStr × Json} {stack : List Frame} {acc : Members} {k : PyStr}
    {e : Expect} (he : e = .firstKey ∨ e = .key) (ts : List Token) (h : Refused m.2) :
    ∃ err, parseTokens ⟨.obj acc k :: stack, e⟩ (memberTokens m ++ ts) = .error err := by
  simp only [memberTokens, List.cons_append]
  have hkey : parseStep ⟨.obj acc k :: stack, e⟩ (.str m.1) =
      .ok ⟨.obj acc m.1 :: stack, .colon⟩ := by
    rcases he with rfl | rfl <;> rfl
  rw [parseTokens_cons hkey, parseTokens_cons (n := ⟨.obj acc m.1 :: stack, .value⟩) rfl]
  exact h _ _

theorem parseTokens_objRest_error {stack : List Frame} {ts : List Token} : ∀ {ms acc : Members}
    {k : PyStr}, (∀ m ∈ ms, ¬ m.2.WF → Refused m.2) →
    ¬ ((Dict.keys (acc ++ ms)).Nodup ∧ ∀ m ∈ ms, m.2.WF) →
    ∃ e, parseTokens ⟨.obj acc k :: stack, .next⟩
      (tokenRest .rbrace (ms.map memberTokens) ++ ts) = .error e
  | [], acc, k, _, hbad => by
    have hnames : ¬ (Dict.keys acc).Nodup := fun h => hbad (by simpa using h)
    refine ⟨.duplicateKey, ?_⟩
    have hclose : closeFrame (.obj acc k :: stack) .rbrace = .error .duplicateKey := by
      rw [closeFrame, objectWithoutDuplicates, if_neg hnames]
      rfl
    have hstep : parseStep ⟨.obj acc k :: stack, .next⟩ .rbrace = .error .duplicateKey := hclose
    rw [List.map_nil, tokenRest, List.singleton_append, parseTokens, hstep]
    rfl
  | m :: ms, acc, k, hrefused, hbad => by
    simp only [List.map_cons, tokenRest, List.cons_append, List.append_assoc]
    rw [parseTokens_cons (n := ⟨.obj acc k :: stack, .key⟩) rfl]
    by_cases hm : m.2.WF
    · rw [parseTokens_member (Or.inr rfl) _ (parseTokens_tokens m.2 hm)]
      refine parseTokens_objRest_error (fun y hy => hrefused y (List.mem_cons_of_mem m hy)) ?_
      rintro ⟨hnames, hall⟩
      exact hbad ⟨by simpa using hnames, List.forall_mem_cons.mpr ⟨hm, hall⟩⟩
    · exact parseTokens_member_error (Or.inr rfl) _ (hrefused m List.mem_cons_self hm)

/-- A value with an object that names a member twice is refused. -/
theorem parseTokens_error (v : Json) : ¬ v.WF → Refused v := by
  induction v with
  | arr xs ih =>
    intro h stack ts
    rw [wf_arr] at h
    rw [tokens_arr, List.cons_append, parseTokens_cons (n := ⟨.arr [] :: stack, .firstItem⟩) rfl]
    cases xs with
    | nil => exact absurd (by simp) h
    | cons x xs =>
      simp only [List.map_cons, tokenItems, List.append_assoc]
      rw [parseTokens_firstItem]
      by_cases hx : x.WF
      · rw [parseTokens_tokens x hx, valueDone]
        refine parseTokens_arrRest_error (fun y hy => ih y (List.mem_cons_of_mem x hy)) ?_
        exact fun hall => h (List.forall_mem_cons.mpr ⟨hx, hall⟩)
      · exact ih x List.mem_cons_self hx _ _
  | obj ms ih =>
    intro h stack ts
    rw [wf_obj] at h
    rw [tokens_obj, List.cons_append, parseTokens_cons (n := ⟨.obj [] [] :: stack, .firstKey⟩) rfl]
    cases ms with
    | nil => exact absurd ⟨by simp [Dict.keys], by simp⟩ h
    | cons m ms =>
      simp only [List.map_cons, tokenItems, List.append_assoc]
      by_cases hm : m.2.WF
      · rw [parseTokens_member (Or.inl rfl) _ (parseTokens_tokens m.2 hm)]
        refine parseTokens_objRest_error (fun y hy => ih y (List.mem_cons_of_mem m hy)) ?_
        rintro ⟨hnames, hall⟩
        exact h ⟨hnames, List.forall_mem_cons.mpr ⟨hm, hall⟩⟩
      · exact parseTokens_member_error (Or.inl rfl) _ (ih m List.mem_cons_self hm)
  | _ => exact fun h => absurd trivial h

/-- What was written is loaded again, if no object names a member twice. -/
theorem loads_indentFile_ok_iff {v w : Json} (hread : v.NumbersRead) :
    loads (indentFile v) = .ok w ↔ v.WF ∧ w = v := by
  have hlex : lex .idle (indentFile v) = v.tokens := by
    rw [lex_eq_lexWith, lexWith_indentFile, hread.tokensWith]
  rw [loads, hlex]
  by_cases hwf : v.WF
  · have hparse : parseTokens ⟨[], .value⟩ v.tokens = .ok ⟨[], .done v⟩ := by
      simpa [valueDone, parseTokens] using parseTokens_tokens v hwf [] []
    rw [hparse]
    show Except.ok v = Except.ok w ↔ v.WF ∧ w = v
    rw [Except.ok.injEq, eq_comm, and_iff_right hwf]
  · obtain ⟨e, he⟩ := parseTokens_error v hwf [] []
    rw [List.append_nil] at he
    rw [he]
    exact iff_of_false (fun h => by cases h) fun h => hwf h.1

end Py
