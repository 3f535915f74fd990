import Icode.JsonIndent

/-!
# The limits of a JSON text

The verifier scans a text before it parses it, and counts the structural characters and the open
containers (`checkStructuralTokenBudget`). A tool that writes a value counts them on the value :
`structuralTokens` and `depth`. For an indented text both counts are the same
(`checkStructuralTokenBudget_indentFile`), and what is left to the parsed value is its depth and
its texts (`interopError_eq_none`).
-/

namespace Py

open Json

/-! ## Counting on the value -/

/-- The greatest of the sizes. -/
def maxOf {α : Type*} (size : α → ℕ) (xs : List α) : ℕ :=
  xs.foldr (fun x n => max (size x) n) 0

theorem maxOf_le {α : Type*} {size : α → ℕ} {xs : List α} {n : ℕ} :
    maxOf size xs ≤ n ↔ ∀ x ∈ xs, size x ≤ n := by
  induction xs with
  | nil => simp [maxOf]
  | cons x xs ih =>
    rw [List.forall_mem_cons, ← ih]
    simp [maxOf]

namespace Json

mutual

/-- The containers that are open at once in the text of a value. -/
def depth : Json → ℕ
  | .arr xs => depthList xs + 1
  | .obj ms => depthMembers ms + 1
  | _ => 0

def depthList : List Json → ℕ
  | [] => 0
  | x :: xs => max (depth x) (depthList xs)

def depthMembers : Members → ℕ
  | [] => 0
  | (_, x) :: ms => max (depth x) (depthMembers ms)

end

mutual

/-- The brackets, commas and colons of the text of a value. -/
def structuralTokens : Json → ℕ
  | .arr xs => 2 + (xs.length - 1) + structuralList xs
  | .obj ms => 2 + (ms.length - 1) + ms.length + structuralMembers ms
  | _ => 0

def structuralList : List Json → ℕ
  | [] => 0
  | x :: xs => structuralTokens x + structuralList xs

def structuralMembers : Members → ℕ
  | [] => 0
  | (_, x) :: ms => structuralTokens x + structuralMembers ms

end

theorem depth_arr (xs : List Json) : depth (.arr xs) = maxOf depth xs + 1 := by
  rw [depth, Nat.add_right_cancel_iff]
  induction xs with
  | nil => rfl
  | cons x xs ih => rw [depthList, ih, maxOf, maxOf, List.foldr_cons]

theorem depth_obj (ms : Members) : depth (.obj ms) = maxOf (fun m => m.2.depth) ms + 1 := by
  rw [depth, Nat.add_right_cancel_iff]
  induction ms with
  | nil => rfl
  | cons m ms ih => rw [depthMembers, ih, maxOf, maxOf, List.foldr_cons]

theorem depth_arr_le {xs : List Json} {n : ℕ} :
    depth (.arr xs) ≤ n + 1 ↔ ∀ x ∈ xs, depth x ≤ n := by
  rw [depth_arr, Nat.add_le_add_iff_right, maxOf_le]

theorem depth_obj_le {ms : Members} {n : ℕ} :
    depth (.obj ms) ≤ n + 1 ↔ ∀ m ∈ ms, depth m.2 ≤ n := by
  rw [depth_obj, Nat.add_le_add_iff_right, maxOf_le]

theorem structuralTokens_arr (xs : List Json) :
    structuralTokens (.arr xs) = 2 + (xs.length - 1) + (xs.map structuralTokens).sum := by
  rw [structuralTokens, Nat.add_left_cancel_iff]
  induction xs with
  | nil => rfl
  | cons x xs ih => rw [structuralList, ih, List.map_cons, List.sum_cons]

theorem structuralTokens_obj (ms : Members) : structuralTokens (.obj ms) =
    2 + (ms.length - 1) + ms.length + (ms.map fun m => m.2.structuralTokens).sum := by
  rw [structuralTokens, Nat.add_left_cancel_iff]
  induction ms with
  | nil => rfl
  | cons m ms ih => rw [structuralMembers, ih, List.map_cons, List.sum_cons]

end Json

/-! ## Counting on the text -/

section Scan

variable {maxDepth : Option ℕ} {a b : PyStr} {k d : ℕ}

/-- The scan outside the strings. -/
def outside (n : ℕ) (stack : List CodePoint) : ScanState :=
  ⟨false, false, n, stack⟩

/-- The counts are within the limits. -/
def Fits (maxDepth : Option ℕ) (n open_ : ℕ) : Prop :=
  n ≤ maxJsonStructuralTokens ∧ ∀ limit ∈ maxDepth, open_ ≤ limit

/-- A text with `k` structural characters that opens `d` containers at once and closes them. -/
def Scans (maxDepth : Option ℕ) (text : PyStr) (k d : ℕ) : Prop :=
  ∀ (n : ℕ) (stack : List CodePoint) (r : PyStr), Fits maxDepth n stack.length →
    (Fits maxDepth (n + k) (stack.length + d) →
      scan maxDepth (outside n stack) (text ++ r) = scan maxDepth (outside (n + k) stack) r) ∧
    (¬ Fits maxDepth (n + k) (stack.length + d) →
      ∃ e, scan maxDepth (outside n stack) (text ++ r) = .error e)

theorem scans_nil : Scans maxDepth [] 0 0 :=
  fun _ _ _ hfits => ⟨fun _ => rfl, fun h => absurd hfits h⟩

theorem Scans.append {k' d' : ℕ} (ha : Scans maxDepth a k d) (hb : Scans maxDepth b k' d') :
    Scans maxDepth (a ++ b) (k + k') (max d d') := by
  intro n stack r hfits
  have hsplit : Fits maxDepth (n + (k + k')) (stack.length + max d d') ↔
      Fits maxDepth (n + k) (stack.length + d) ∧
        Fits maxDepth (n + k + k') (stack.length + d') := by
    simp only [Fits]
    constructor
    · rintro ⟨hn, hd⟩
      exact ⟨⟨by omega, fun l hl => by have := hd l hl; omega⟩, by omega,
        fun l hl => by have := hd l hl; omega⟩
    · rintro ⟨⟨-, hd⟩, hn, hd'⟩
      exact ⟨by omega, fun l hl => by have := hd l hl; have := hd' l hl; omega⟩
  rw [hsplit, List.append_assoc]
  by_cases hka : Fits maxDepth (n + k) (stack.length + d)
  · have hmid : Fits maxDepth (n + k) stack.length :=
      ⟨hka.1, fun l hl => by have := hka.2 l hl; omega⟩
    rw [(ha n stack (b ++ r) hfits).1 hka, ← Nat.add_assoc]
    exact ⟨fun h => (hb (n + k) stack r hmid).1 h.2,
      fun h => (hb (n + k) stack r hmid).2 fun hkb => h ⟨hka, hkb⟩⟩
  · exact ⟨fun h => absurd h.1 hka, fun _ => (ha n stack (b ++ r) hfits).2 hka⟩

theorem scan_cons_ok {s s' : ScanState} {c : CodePoint} (h : scanStep maxDepth s c = .ok s')
    (r : PyStr) : scan maxDepth s (c :: r) = scan maxDepth s' r := by
  rw [scan, h]
  rfl

theorem scan_cons_error {s : ScanState} {c : CodePoint} {e : JsonError}
    (h : scanStep maxDepth s c = .error e) (r : PyStr) :
    scan maxDepth s (c :: r) = .error e := by
  rw [scan, h]
  rfl

/-- A character that is no quote and not structural. -/
theorem scans_plain {c : CodePoint} (hquote : c ≠ '"') (hpunct : punctToken c = none) :
    Scans maxDepth [c] 0 0 := by
  intro n stack r hfits
  have hstep : scanStep maxDepth (outside n stack) c = .ok (outside n stack) := by
    simp [scanStep, outside, hquote, hpunct]
  exact ⟨fun _ => scan_cons_ok hstep r, fun h => absurd hfits h⟩

theorem scans_plains {s : PyStr} (h : ∀ c ∈ s, c ≠ '"' ∧ punctToken c = none) :
    Scans maxDepth s 0 0 := by
  induction s with
  | nil => exact scans_nil
  | cons c s ih =>
    have hc := h c (by simp)
    exact (scans_plain hc.1 hc.2).append (ih fun x hx => h x (by simp [hx]))

/-- A structural character, with the stack `scanDepth` leaves. -/
theorem scanStep_punct {c : CodePoint} {n : ℕ} {stack : List CodePoint} (hquote : c ≠ '"')
    (hpunct : (punctToken c).isSome) :
    scanStep maxDepth (outside n stack) c =
      if maxJsonStructuralTokens < n + 1 then .error .structuralTokens
      else (scanDepth maxDepth stack c).map (outside (n + 1)) := by
  have hstep : scanStep maxDepth (outside n stack) c =
      if maxJsonStructuralTokens < n + 1 then .error .structuralTokens
      else scanDepth maxDepth stack c >>= fun stack => pure (outside (n + 1) stack) := by
    simp only [scanStep, outside, if_neg hquote, hpunct, if_true, Bool.false_eq_true, if_false]
    rfl
  rw [hstep]
  cases scanDepth maxDepth stack c <;> rfl

/-- A comma or a colon. -/
theorem scans_separator {c : CodePoint} (h : c = ',' ∨ c = ':') : Scans maxDepth [c] 1 0 := by
  intro n stack r hfits
  have hdepth : scanDepth maxDepth stack c = .ok stack := by
    rcases h with rfl | rfl <;> cases maxDepth <;> rfl
  have hstep : scanStep maxDepth (outside n stack) c =
      if maxJsonStructuralTokens < n + 1 then .error .structuralTokens
      else .ok (outside (n + 1) stack) := by
    rw [scanStep_punct (by rcases h with rfl | rfl <;> decide)
      (by rcases h with rfl | rfl <;> decide), hdepth]
    rfl
  split_ifs at hstep with hn
  · exact ⟨fun h => absurd h.1 (by omega), fun _ => ⟨_, scan_cons_error hstep r⟩⟩
  · exact ⟨fun _ => scan_cons_ok hstep r, fun h => absurd ⟨by omega, hfits.2⟩ h⟩

/-- The brackets of an object or of an array. -/
def Brackets (opening closing : CodePoint) : Prop :=
  opening = '{' ∧ closing = '}' ∨ opening = '[' ∧ closing = ']'

/-- The stack within a container; without a limit there is none. -/
def within (maxDepth : Option ℕ) (opening : CodePoint) (stack : List CodePoint) :
    List CodePoint :=
  if maxDepth.isSome then opening :: stack else stack

theorem scanStep_opening {opening closing : CodePoint} (h : Brackets opening closing) {n : ℕ}
    {stack : List CodePoint} (hfits : Fits maxDepth (n + 1) (stack.length + 1)) :
    scanStep maxDepth (outside n stack) opening =
      .ok (outside (n + 1) (within maxDepth opening stack)) := by
  obtain ⟨hn, hd⟩ := hfits
  have hdepth : scanDepth maxDepth stack opening = .ok (within maxDepth opening stack) := by
    cases maxDepth with
    | none => rfl
    | some limit =>
      have hlimit : ¬ limit < stack.length + 1 := not_lt.mpr (hd limit rfl)
      rcases h with ⟨rfl, -⟩ | ⟨rfl, -⟩ <;> simp [scanDepth, within, hlimit]
  rw [scanStep_punct (by rcases h with ⟨rfl, -⟩ | ⟨rfl, -⟩ <;> decide)
    (by rcases h with ⟨rfl, -⟩ | ⟨rfl, -⟩ <;> decide), if_neg (by omega), hdepth]
  rfl

theorem scanStep_opening_error {opening closing : CodePoint} (h : Brackets opening closing) {n : ℕ}
    {stack : List CodePoint} (hfits : ¬ Fits maxDepth (n + 1) (stack.length + 1)) :
    ∃ e, scanStep maxDepth (outside n stack) opening = .error e := by
  rw [scanStep_punct (by rcases h with ⟨rfl, -⟩ | ⟨rfl, -⟩ <;> decide)
    (by rcases h with ⟨rfl, -⟩ | ⟨rfl, -⟩ <;> decide)]
  split_ifs with hn
  · exact ⟨_, rfl⟩
  · cases maxDepth with
    | none => exact absurd ⟨by omega, by simp⟩ hfits
    | some limit =>
      have hlimit : limit < stack.length + 1 := by
        by_contra hle
        exact hfits ⟨by omega, fun l hl => by cases hl; omega⟩
      refine ⟨.depth, ?_⟩
      rcases h with ⟨rfl, -⟩ | ⟨rfl, -⟩ <;> simp [scanDepth, hlimit, Except.map]

theorem scanStep_closing {opening closing : CodePoint} (h : Brackets opening closing) {n : ℕ}
    {stack : List CodePoint} :
    scanStep maxDepth (outside n (within maxDepth opening stack)) closing =
      if maxJsonStructuralTokens < n + 1 then .error .structuralTokens
      else .ok (outside (n + 1) stack) := by
  have hdepth : scanDepth maxDepth (within maxDepth opening stack) closing = .ok stack := by
    cases maxDepth with
    | none => rfl
    | some limit => rcases h with ⟨rfl, rfl⟩ | ⟨rfl, rfl⟩ <;> rfl
  rw [scanStep_punct (by rcases h with ⟨-, rfl⟩ | ⟨-, rfl⟩ <;> decide)
    (by rcases h with ⟨-, rfl⟩ | ⟨-, rfl⟩ <;> decide), hdepth]
  rfl

/-- A container : what is between the brackets, and the brackets. -/
theorem Scans.container {opening closing : CodePoint} (h : Brackets opening closing)
    (ha : Scans maxDepth a k d) : Scans maxDepth (opening :: (a ++ [closing])) (k + 2) (d + 1) := by
  intro n stack r hfits
  have hlength : ∀ limit ∈ maxDepth,
      (within maxDepth opening stack).length = stack.length + 1 := by
    intro limit hlimit
    rw [Option.mem_def.mp hlimit]
    rfl
  have hinner : ∀ m e, Fits maxDepth m ((within maxDepth opening stack).length + e) ↔
      Fits maxDepth m (stack.length + 1 + e) := by
    intro m e
    exact and_congr_right fun _ => forall₂_congr fun l hl => by rw [hlength l hl]
  rw [List.cons_append, List.append_assoc, List.singleton_append]
  by_cases hopen : Fits maxDepth (n + 1) (stack.length + 1)
  · rw [scan_cons_ok (scanStep_opening h hopen)]
    obtain ⟨hok, herror⟩ := ha (n + 1) (within maxDepth opening stack) (closing :: r)
      ((hinner (n + 1) 0).mpr hopen)
    rw [hinner] at hok herror
    have hclose : scanStep maxDepth (outside (n + 1 + k) (within maxDepth opening stack)) closing =
        if maxJsonStructuralTokens < n + 1 + k + 1 then .error .structuralTokens
        else .ok (outside (n + 1 + k + 1) stack) := scanStep_closing h
    constructor
    · intro hall
      have hn := hall.1
      rw [hok ⟨by omega, fun l hl => by have := hall.2 l hl; omega⟩]
      rw [if_neg (by omega)] at hclose
      rw [scan_cons_ok hclose, show n + 1 + k + 1 = n + (k + 2) by omega]
    · intro hall
      by_cases hmid : Fits maxDepth (n + 1 + k) (stack.length + 1 + d)
      · rw [hok hmid]
        have hn : maxJsonStructuralTokens < n + 1 + k + 1 := by
          by_contra hle
          exact hall ⟨by omega, fun l hl => by have := hmid.2 l hl; omega⟩
        rw [if_pos hn] at hclose
        exact ⟨_, scan_cons_error hclose r⟩
      · exact herror hmid
  · obtain ⟨e, herror⟩ := scanStep_opening_error h hopen
    rw [scan_cons_error herror]
    refine ⟨fun hall => absurd ⟨?_, fun l hl => ?_⟩ hopen, fun _ => ⟨e, rfl⟩⟩
    · have := hall.1
      omega
    · have := hall.2 l hl
      omega

/-! ## Strings -/

/-- The scan within a string. -/
def inside (n : ℕ) (stack : List CodePoint) : ScanState :=
  ⟨true, false, n, stack⟩

theorem scan_inside {c : CodePoint} (hquote : c ≠ '"') (hescape : c ≠ '\\') (n : ℕ)
    (stack : List CodePoint) (r : PyStr) :
    scan maxDepth (inside n stack) (c :: r) = scan maxDepth (inside n stack) r :=
  scan_cons_ok (by simp [scanStep, inside, hquote, hescape]) r

theorem scan_escape (c : CodePoint) (n : ℕ) (stack : List CodePoint) (r : PyStr) :
    scan maxDepth (inside n stack) ('\\' :: c :: r) = scan maxDepth (inside n stack) r := by
  have hescape : scanStep maxDepth (inside n stack) '\\' = .ok ⟨true, true, n, stack⟩ := rfl
  have hescaped : scanStep maxDepth ⟨true, true, n, stack⟩ c = .ok (inside n stack) := rfl
  rw [scan_cons_ok hescape, scan_cons_ok hescaped]

theorem scan_escapeChar (c : CodePoint) (n : ℕ) (stack : List CodePoint) (r : PyStr) :
    scan maxDepth (inside n stack) (escapeChar c ++ r) = scan maxDepth (inside n stack) r := by
  have hdigit : ∀ k < 16, CodePoint.scalar (hexDigit k) ≠ '"' ∧
      CodePoint.scalar (hexDigit k) ≠ '\\' := by decide
  unfold escapeChar escapeDct
  split_ifs with h1 h2 h3 h4 h5 h6 h7 h8
  · exact scan_escape _ n stack r
  · exact scan_escape _ n stack r
  · exact scan_escape _ n stack r
  · exact scan_escape _ n stack r
  · exact scan_escape _ n stack r
  · exact scan_escape _ n stack r
  · exact scan_escape _ n stack r
  · -- `\u00` and two digits
    obtain ⟨hhi, hhi'⟩ := hdigit (c.ord / 16) (by omega)
    obtain ⟨hlo, hlo'⟩ := hdigit (c.ord % 16) (by omega)
    simp only [ofChars, List.map_cons, List.map_nil, List.cons_append, List.nil_append]
    rw [scan_escape, scan_inside (by decide) (by decide), scan_inside (by decide) (by decide),
      scan_inside hhi hhi', scan_inside hlo hlo']
  · refine scan_inside ?_ ?_ n stack r
    · rintro rfl
      exact h1 rfl
    · rintro rfl
      exact h2 rfl

theorem scan_quoted (s : PyStr) (n : ℕ) (stack : List CodePoint) (r : PyStr) :
    scan maxDepth (inside n stack) (s.flatMap escapeChar ++ .scalar '"' :: r) =
      scan maxDepth (outside n stack) r := by
  induction s with
  | nil =>
    have hclose : scanStep maxDepth (inside n stack) '"' = .ok (outside n stack) := rfl
    exact scan_cons_ok hclose r
  | cons c s ih => rw [List.flatMap_cons, List.append_assoc, scan_escapeChar, ih]

/-- Nothing in a string counts. -/
theorem scans_quote (s : PyStr) : Scans maxDepth (quote s) 0 0 := by
  intro n stack r hfits
  have hopen : scanStep maxDepth (outside n stack) '"' = .ok (inside n stack) := rfl
  refine ⟨fun _ => ?_, fun h => absurd hfits h⟩
  rw [quote, List.cons_append, List.append_assoc, scan_cons_ok hopen]
  exact scan_quoted s n stack r

/-! ## Values -/

theorem scans_spaces {s : PyStr} (h : ∀ c ∈ s, isJsonSpace c = true) : Scans maxDepth s 0 0 := by
  refine scans_plains fun c hc => ?_
  have hspace := h c hc
  simp only [isJsonSpace, Bool.or_eq_true, beq_iff_eq] at hspace
  rcases hspace with ((rfl | rfl) | rfl) | rfl <;> decide

theorem scans_newline (level : ℕ) : Scans maxDepth (newline level) 0 0 :=
  scans_spaces isJsonSpace_newline

theorem scans_word {s : List Char} (h : ∀ c ∈ s, isWordChar (.scalar c) = true) :
    Scans maxDepth (ofChars s) 0 0 := by
  refine scans_plains fun c hc => ?_
  obtain ⟨c, hmem, rfl⟩ := List.mem_map.mp hc
  have hword := h c hmem
  simp only [isWordChar, Bool.not_eq_true', Bool.or_eq_false_iff, beq_eq_false_iff_ne,
    Option.isSome_eq_false_iff, Option.isNone_iff_eq_none] at hword
  exact ⟨hword.1.2, hword.2⟩

/-- The items of a container, each on its line. -/
def indentInner {α : Type*} (level : ℕ) (text : α → PyStr) : List α → PyStr
  | [] => []
  | x :: xs => newline (level + 1) ++ text x ++
      (xs.flatMap fun y => .scalar ',' :: (newline (level + 1) ++ text y)) ++ newline level

theorem indentRest_eq {α : Type*} (level : ℕ) (close : CodePoint) (text : α → PyStr) (xs : List α) :
    indentRest level close (xs.map text) =
      (xs.flatMap fun y => .scalar ',' :: (newline (level + 1) ++ text y)) ++
        (newline level ++ [close]) := by
  induction xs with
  | nil => rfl
  | cons x xs ih => simp [indentRest, ih]

theorem indentItems_eq {α : Type*} (level : ℕ) (close : CodePoint) (text : α → PyStr)
    (xs : List α) :
    indentItems level close (xs.map text) = indentInner level text xs ++ [close] := by
  cases xs with
  | nil => rfl
  | cons x xs => simp [indentItems, indentInner, indentRest_eq]

theorem scans_flatMap {α : Type*} {level : ℕ} {text : α → PyStr} {count open_ : α → ℕ}
    {xs : List α} (h : ∀ x ∈ xs, Scans maxDepth (text x) (count x) (open_ x)) :
    Scans maxDepth (xs.flatMap fun y => .scalar ',' :: (newline (level + 1) ++ text y))
      (xs.length + (xs.map count).sum) (maxOf open_ xs) := by
  induction xs with
  | nil => exact scans_nil
  | cons x xs ih =>
    have hcomma : Scans maxDepth [.scalar ','] 1 0 := scans_separator (Or.inl rfl)
    have hall := (hcomma.append ((scans_newline (level + 1)).append (h x (by simp)))).append
      (ih fun y hy => h y (by simp [hy]))
    rw [List.flatMap_cons, List.length_cons, List.map_cons, List.sum_cons]
    convert hall using 1
    · simp
    · omega
    · simp [maxOf]

theorem scans_indentInner {α : Type*} {level : ℕ} {text : α → PyStr} {count open_ : α → ℕ}
    {xs : List α} (h : ∀ x ∈ xs, Scans maxDepth (text x) (count x) (open_ x)) :
    Scans maxDepth (indentInner level text xs) (xs.length - 1 + (xs.map count).sum)
      (maxOf open_ xs) := by
  cases xs with
  | nil => exact scans_nil
  | cons x xs =>
    have hrest : Scans maxDepth (xs.flatMap fun y => .scalar ',' :: (newline (level + 1) ++ text y))
        (xs.length + (xs.map count).sum) (maxOf open_ xs) :=
      scans_flatMap fun y hy => h y (List.mem_cons_of_mem x hy)
    have hall := (((scans_newline (level + 1)).append (h x List.mem_cons_self)).append hrest).append
      (scans_newline level)
    rw [List.length_cons, List.map_cons, List.sum_cons]
    convert hall using 1
    · rfl
    · omega
    · simp [maxOf]

namespace Json

/-- What the scan counts in an indented value. -/
theorem scans_renderIndent (v : Json) : ∀ level,
    Scans maxDepth (renderIndent level v) v.structuralTokens v.depth := by
  have hscalar : ∀ {v : Json} {s : List Char}, scalarText v = some s → ∀ level,
      Scans maxDepth (renderIndent level v) 0 0 := by
    intro v s hs level
    rw [renderIndent_scalar hs]
    exact scans_word (isWordChar_of_mem_scalarText hs)
  induction v with
  | null => exact hscalar rfl
  | bool b => cases b <;> exact hscalar rfl
  | int n => exact hscalar rfl
  | float x => exact hscalar rfl
  | str s =>
    intro level
    rw [renderIndent_str]
    exact scans_quote s
  | arr xs ih =>
    intro level
    have hinner : Scans maxDepth (indentInner level (renderIndent (level + 1)) xs)
        (xs.length - 1 + (xs.map structuralTokens).sum) (maxOf depth xs) :=
      scans_indentInner fun x hx => ih x hx (level + 1)
    rw [renderIndent_arr, indentItems_eq, structuralTokens_arr, depth_arr]
    convert hinner.container (Or.inr ⟨rfl, rfl⟩) using 1
    omega
  | obj ms ih =>
    intro level
    have hmember : ∀ m ∈ ms, Scans maxDepth (renderIndentMember (level + 1) m)
        (1 + m.2.structuralTokens) m.2.depth := by
      intro m hm
      have hcolon : lit ": " = [.scalar ':', .scalar ' '] := rfl
      have hmark : Scans maxDepth [.scalar ':'] 1 0 := scans_separator (Or.inr rfl)
      have hblank : Scans maxDepth [.scalar ' '] 0 0 := scans_plain (by decide) (by decide)
      have hall := (scans_quote m.1).append (hmark.append (hblank.append (ih m hm (level + 1))))
      simp only [renderIndentMember, hcolon]
      convert hall using 1
      · simp
      · omega
      · simp
    have hinner : Scans maxDepth (indentInner level (renderIndentMember (level + 1)) ms)
        (ms.length - 1 + (ms.map fun m => 1 + m.2.structuralTokens).sum)
        (maxOf (fun m => m.2.depth) ms) := scans_indentInner hmember
    rw [renderIndent_obj, indentItems_eq, structuralTokens_obj, depth_obj]
    convert hinner.container (Or.inl ⟨rfl, rfl⟩) using 1
    rw [List.sum_map_add]
    simp
    omega

end Json

end Scan

/-- The scan of an indented file counts what the value has. -/
theorem checkStructuralTokenBudget_indentFile {maxDepth : Option ℕ} {v : Json} :
    checkStructuralTokenBudget (indentFile v) maxDepth = .ok () ↔
      v.structuralTokens ≤ maxJsonStructuralTokens ∧ ∀ limit ∈ maxDepth, v.depth ≤ limit := by
  have hfile : Scans maxDepth (indentFile v) v.structuralTokens v.depth := by
    have hend : Scans maxDepth (lit "\n") 0 0 := scans_plain (by decide) (by decide)
    simpa [indentFile, dumpsIndent] using (scans_renderIndent v 0).append hend
  obtain ⟨hok, herror⟩ := hfile 0 [] [] ⟨Nat.zero_le _, fun _ _ => Nat.zero_le _⟩
  simp only [List.append_nil, List.length_nil, Nat.zero_add] at hok herror
  constructor
  · intro h
    by_contra hnot
    obtain ⟨e, he⟩ := herror hnot
    have hscan : scan maxDepth ⟨false, false, 0, []⟩ (indentFile v) = .error e := he
    rw [checkStructuralTokenBudget, hscan] at h
    cases h
  · intro h
    have hscan : scan maxDepth ⟨false, false, 0, []⟩ (indentFile v) =
        .ok (outside v.structuralTokens []) := hok h
    rw [checkStructuralTokenBudget, hscan]
    rfl

/-- A text that is no longer than the budget is within it. -/
theorem checkStructuralTokenBudget_of_length {text : PyStr}
    (h : text.length ≤ maxJsonStructuralTokens) : checkStructuralTokenBudget text none = .ok () := by
  have hscan : ∀ {text : PyStr} {s : ScanState}, s.tokenCount + text.length ≤
      maxJsonStructuralTokens → ∃ s', scan none s text = .ok s' := by
    intro text
    induction text with
    | nil => exact fun _ => ⟨_, rfl⟩
    | cons c text ih =>
      intro s hs
      rw [List.length_cons] at hs
      have hstep : ∃ s', scanStep none s c = .ok s' ∧ s'.tokenCount ≤ s.tokenCount + 1 := by
        unfold scanStep
        split_ifs
        all_goals first | omega | exact ⟨_, rfl, by simp⟩
      obtain ⟨s', hstep, hcount⟩ := hstep
      rw [scan_cons_ok hstep]
      exact ih (by omega)
  obtain ⟨s', hs'⟩ := @hscan text ⟨false, false, 0, []⟩ (by simpa using h)
  rw [checkStructuralTokenBudget, hs']
  rfl

/-! ## The parsed value -/

namespace Json

mutual

/-- Every float of the value has the property. -/
def AllFloats (P : PyFloat → Prop) : Json → Prop
  | .float x => P x
  | .arr xs => AllFloatsList P xs
  | .obj ms => AllFloatsMembers P ms
  | _ => True

def AllFloatsList (P : PyFloat → Prop) : List Json → Prop
  | [] => True
  | x :: xs => AllFloats P x ∧ AllFloatsList P xs

def AllFloatsMembers (P : PyFloat → Prop) : Members → Prop
  | [] => True
  | (_, x) :: ms => AllFloats P x ∧ AllFloatsMembers P ms

end

variable {P : PyFloat → Prop}

@[simp] theorem allFloats_arr {xs : List Json} :
    AllFloats P (.arr xs) ↔ ∀ x ∈ xs, AllFloats P x := by
  rw [AllFloats]
  induction xs with
  | nil => simp [AllFloatsList]
  | cons x xs ih => simp [AllFloatsList, ih]

@[simp] theorem allFloats_obj {ms : Members} :
    AllFloats P (.obj ms) ↔ ∀ m ∈ ms, AllFloats P m.2 := by
  rw [AllFloats]
  induction ms with
  | nil => simp [AllFloatsMembers]
  | cons m ms ih => rw [AllFloatsMembers, ih, List.forall_mem_cons]

theorem Plain.allFloats {v : Json} : v.Plain → v.AllFloats P := by
  induction v with
  | float x => exact False.elim
  | arr xs ih =>
    intro h
    exact (allFloats_arr).mpr fun x hx => ih x hx (plain_arr.mp h x hx)
  | obj ms ih =>
    intro h
    exact (allFloats_obj).mpr fun m hm => ih m hm (plain_obj.mp h m hm)
  | _ => exact fun _ => trivial

end Json

theorem keysError_eq_none {ms : Members} :
    keysError ms = none ↔ ∀ m ∈ ms, m.1.all isScalar = true := by
  simp [keysError]

theorem add_depth_le_iff {α : Type*} {size : α → ℕ} {xs : List α} {d n : ℕ} (h : d + 1 ≤ n) :
    d + (maxOf size xs + 1) ≤ n ↔ ∀ x ∈ xs, d + 1 + size x ≤ n := by
  have hmax : maxOf size xs ≤ n - (d + 1) ↔ ∀ x ∈ xs, size x ≤ n - (d + 1) := maxOf_le
  constructor
  · intro hall x hx
    have := hmax.mp (by omega) x hx
    omega
  · intro hall
    have := hmax.mpr fun x hx => by have := hall x hx; omega
    omega

/-- What `_reject_non_interoperable_values` lets pass. -/
theorem interopError_eq_none {v : Json} : ∀ {d : ℕ}, d ≤ maxJsonContainerDepth →
    (interopError d v = none ↔ v.Encodable ∧ v.AllFloats (fun x => x.isFinite = true) ∧
      d + v.depth ≤ maxJsonContainerDepth) := by
  induction v with
  | float x =>
    intro d hd
    simp [interopError, Json.Encodable, AllFloats, depth, hd]
  | str s =>
    intro d hd
    simp [interopError, Json.Encodable, AllFloats, depth, hd]
  | arr xs ih =>
    intro d hd
    rw [interopError, encodable_arr, allFloats_arr, depth_arr]
    split_ifs with hdeep
    · simp only [false_iff]
      omega
    · rw [interopList_eq_none, add_depth_le_iff (by omega), ← forall₂_and, ← forall₂_and]
      exact forall₂_congr fun x hx => ih x hx (by omega)
  | obj ms ih =>
    intro d hd
    rw [interopError, encodable_obj, allFloats_obj, depth_obj]
    split_ifs with hdeep
    · simp only [false_iff]
      omega
    · have hor : ∀ a b : Option JsonError, (a <|> b) = none ↔ a = none ∧ b = none := by
        intro a b
        cases a <;> simp
      rw [hor, interopMembers_eq_none, keysError_eq_none, add_depth_le_iff (by omega),
        ← forall₂_and, ← forall₂_and, ← forall₂_and]
      refine forall₂_congr fun m hm => ?_
      rw [ih m hm (by omega)]
      tauto
  | _ =>
    intro d hd
    simpa [interopError, Json.Encodable, AllFloats, depth] using hd

/-- A written value within the limits is what the strict reader gives back. -/
theorem loadsJsonValue_indentFile {v : Json} (hwf : v.WF) (hplain : v.Plain) (henc : v.Encodable)
    (hdepth : v.depth ≤ maxJsonContainerDepth)
    (hbudget : checkStructuralTokenBudget (indentFile v) none = .ok ()) :
    loadsJsonValue (indentFile v) = .ok v := by
  have hinterop : interopError 0 v = none :=
    (interopError_eq_none (Nat.zero_le _)).mpr ⟨henc, hplain.allFloats, by omega⟩
  rw [loadsJsonValue, hbudget, loads_indentFile hwf hplain]
  simp [Bind.bind, Except.bind, hinterop, pure, Except.pure]

/-! ## Encoding -/

theorem encode_eq_some {s : PyStr} {bytes : Bytes} :
    encode s = some bytes ↔ s.all isScalar = true ∧ bytes = encodePass s := by
  unfold encode
  split_ifs with h
  · simp [h, eq_comm]
  · simp [h]

theorem all_isScalar_escapeChar (c : CodePoint) : (escapeChar c).all isScalar = isScalar c := by
  unfold escapeChar
  cases h : escapeDct c.ord with
  | none => simp
  | some s =>
    have hlt := lt_of_escapeDct h
    rw [isScalar_ofChars]
    cases c with
    | scalar c => rfl
    | surrogate n =>
      simp only [CodePoint.ord] at hlt
      omega

theorem all_isScalar_quote (s : PyStr) : (quote s).all isScalar = s.all isScalar := by
  have hquote : isScalar (.scalar '"') = true := rfl
  simp [quote, hquote, List.all_flatMap, all_isScalar_escapeChar]

theorem all_isScalar_newline (level : ℕ) : (newline level).all isScalar = true := by
  simp [newline, isScalar]

theorem all_isScalar_indentInner {α : Type*} (level : ℕ) (text : α → PyStr) (xs : List α) :
    (indentInner level text xs).all isScalar = xs.all fun x => (text x).all isScalar := by
  have hcomma : isScalar (.scalar ',') = true := rfl
  cases xs with
  | nil => rfl
  | cons x xs => simp [indentInner, List.all_flatMap, all_isScalar_newline, hcomma]

/-- A written value can be encoded when its texts can. -/
theorem all_isScalar_renderIndent {v : Json} : ∀ level : ℕ,
    (renderIndent level v).all isScalar = true ↔ v.Encodable := by
  have hbracket : ∀ c : Char, isScalar (.scalar c) = true := fun _ => rfl
  have hscalar : ∀ {v : Json} {s : List Char}, scalarText v = some s → ∀ level : ℕ,
      (renderIndent level v).all isScalar = true := by
    intro v s hs level
    rw [renderIndent_scalar hs]
    exact isScalar_ofChars
  induction v with
  | null => exact fun level => iff_of_true (hscalar rfl level) trivial
  | bool b => exact fun level => iff_of_true (by cases b <;> exact hscalar rfl level) trivial
  | int n => exact fun level => iff_of_true (hscalar rfl level) trivial
  | float x => exact fun level => iff_of_true (hscalar rfl level) trivial
  | str s =>
    intro level
    rw [renderIndent_str, all_isScalar_quote]
    rfl
  | arr xs ih =>
    intro level
    have htext : (renderIndent level (.arr xs)).all isScalar =
        xs.all fun x => (renderIndent (level + 1) x).all isScalar := by
      rw [renderIndent_arr, indentItems_eq, List.all_cons, List.all_append,
        all_isScalar_indentInner]
      simp [hbracket]
    rw [htext, List.all_eq_true, encodable_arr]
    exact forall₂_congr fun x hx => ih x hx (level + 1)
  | obj ms ih =>
    intro level
    have htext : (renderIndent level (.obj ms)).all isScalar =
        ms.all fun m => (renderIndentMember (level + 1) m).all isScalar := by
      rw [renderIndent_obj, indentItems_eq, List.all_cons, List.all_append,
        all_isScalar_indentInner]
      simp [hbracket]
    have hcolon : (lit ": ").all isScalar = true := rfl
    rw [htext, List.all_eq_true, encodable_obj]
    refine forall₂_congr fun m hm => ?_
    rw [renderIndentMember, List.all_append, List.all_append, hcolon, all_isScalar_quote,
      Bool.and_true, Bool.and_eq_true, ih m hm (level + 1)]

theorem all_isScalar_indentFile {v : Json} :
    (indentFile v).all isScalar = true ↔ v.Encodable := by
  have hend : (lit "\n").all isScalar = true := rfl
  rw [indentFile, List.all_append, hend, Bool.and_true]
  exact all_isScalar_renderIndent 0

/-! ## Lengths -/

theorem sum_length_le_indentInner {α : Type*} (level : ℕ) (text : α → PyStr) (xs : List α) :
    (xs.map fun x => (text x).length).sum ≤ (indentInner level text xs).length := by
  cases xs with
  | nil => simp
  | cons x xs =>
    have hrest : (xs.map fun x => (text x).length).sum ≤
        (xs.flatMap fun y => CodePoint.scalar ',' :: (newline (level + 1) ++ text y)).length := by
      rw [List.length_flatMap]
      refine List.sum_le_sum fun y _ => ?_
      simp only [List.length_cons, List.length_append]
      omega
    simp only [List.map_cons, List.sum_cons, indentInner, List.length_append]
    omega

/-- A container is longer than what it holds. -/
theorem sum_length_le_renderIndent_arr (level : ℕ) (xs : List Json) :
    (xs.map fun x => (renderIndent (level + 1) x).length).sum ≤
      (renderIndent level (.arr xs)).length := by
  have := sum_length_le_indentInner level (renderIndent (level + 1)) xs
  rw [renderIndent_arr, indentItems_eq, List.length_cons, List.length_append]
  omega

theorem sum_length_le_renderIndent_obj (level : ℕ) (ms : Members) :
    (ms.map fun m => (renderIndent (level + 1) m.2).length).sum ≤
      (renderIndent level (.obj ms)).length := by
  have hmembers := sum_length_le_indentInner level (renderIndentMember (level + 1)) ms
  have hvalues : (ms.map fun m => (renderIndent (level + 1) m.2).length).sum ≤
      (ms.map fun m => (renderIndentMember (level + 1) m).length).sum := by
    refine List.sum_le_sum fun m _ => ?_
    rw [renderIndentMember, List.length_append]
    omega
  rw [renderIndent_obj, indentItems_eq, List.length_cons, List.length_append]
  omega

theorem length_le_quote (s : PyStr) : s.length + 2 ≤ (quote s).length := by
  have hescape : ∀ c, 1 ≤ (escapeChar c).length := fun c =>
    List.length_pos_iff.mpr (escapeChar_prefixFree.ne_nil c)
  have hall : s.length ≤ (s.flatMap escapeChar).length := by
    induction s with
    | nil => simp
    | cons c s ih =>
      have hc := hescape c
      rw [List.flatMap_cons, List.length_append, List.length_cons]
      omega
  simp only [quote, List.length_cons, List.length_append, List.length_nil]
  omega

end Py
