import Icode.PyText

/-!
# Lines of a text

`splitlines` is `str.splitlines()`. It ends a line at every Unicode line boundary, and not only at
the line feed that most writers put between lines : a text without a boundary, put before a line
feed, is one line (`splitlines_line`), and a text with one is cut there
(`splitlines_boundary`).
-/

namespace Py

/-- The characters that end a line. -/
def isLineBoundary (c : CodePoint) : Bool :=
  let n := c.ord
  (10 ≤ n && n ≤ 13) || (28 ≤ n && n ≤ 30) || n == 0x85 || n == 0x2028 || n == 0x2029

/-- `text.splitlines()`. -/
def splitlines : PyStr → List PyStr
  | [] => []
  | .scalar '\r' :: .scalar '\n' :: rest => [] :: splitlines rest
  | c :: rest =>
    if isLineBoundary c then [] :: splitlines rest
    else
      match splitlines rest with
      | [] => [[c]]
      | line :: lines => (c :: line) :: lines

/-- Every character that ends a line is white space. -/
theorem isSpace_of_isLineBoundary {c : CodePoint} (h : isLineBoundary c = true) :
    isSpace c = true := by
  simp only [isLineBoundary, isSpace, Bool.or_eq_true, Bool.and_eq_true, decide_eq_true_eq,
    beq_iff_eq] at h ⊢
  omega

theorem splitlines_cons {c : CodePoint} (hc : isLineBoundary c = false) (rest : PyStr) :
    splitlines (c :: rest) =
      match splitlines rest with
      | [] => [[c]]
      | line :: lines => (c :: line) :: lines := by
  have hcr : ∀ tail : PyStr, c = .scalar '\r' → rest = .scalar '\n' :: tail → False := by
    rintro tail rfl -
    exact absurd hc (by decide)
  rw [splitlines.eq_3 c rest hcr, hc]
  rfl

/-- A boundary that is no carriage return ends a line by itself. -/
theorem splitlines_cons_boundary {c : CodePoint} (hc : isLineBoundary c = true)
    (hcr : c ≠ .scalar '\r') (rest : PyStr) : splitlines (c :: rest) = [] :: splitlines rest := by
  rw [splitlines.eq_3 c rest fun _ h _ => hcr h, hc]
  rfl

/-- A line ends at the first boundary. -/
theorem splitlines_boundary {line : PyStr} (h : line.all (!isLineBoundary ·) = true)
    {c : CodePoint} (hc : isLineBoundary c = true) (hcr : c ≠ .scalar '\r') (rest : PyStr) :
    splitlines (line ++ c :: rest) = line :: splitlines rest := by
  induction line with
  | nil => exact splitlines_cons_boundary hc hcr rest
  | cons d line ih =>
    rw [List.all_cons, Bool.and_eq_true, Bool.not_eq_true'] at h
    rw [List.cons_append, splitlines_cons h.1, ih h.2]

/-- The line feed of a file of lines. -/
theorem splitlines_line {line : PyStr} (h : line.all (!isLineBoundary ·) = true) (rest : PyStr) :
    splitlines (line ++ lit "\n" ++ rest) = line :: splitlines rest := by
  rw [List.append_assoc]
  exact splitlines_boundary h rfl (by decide) rest

/-- A text with a boundary is cut at its first one. -/
theorem exists_first_boundary {text : PyStr} (h : text.any isLineBoundary = true) :
    ∃ line c rest, text = line ++ c :: rest ∧ line.all (!isLineBoundary ·) = true ∧
      isLineBoundary c = true := by
  induction text with
  | nil => cases h
  | cons d text ih =>
    cases hd : isLineBoundary d with
    | true => exact ⟨[], d, text, rfl, rfl, hd⟩
    | false =>
      rw [List.any_cons, hd, Bool.false_or] at h
      obtain ⟨line, c, rest, rfl, hline, hc⟩ := ih h
      exact ⟨d :: line, c, rest, rfl, by rw [List.all_cons, hd, hline]; rfl, hc⟩

/-! ## Lines that are not blank -/

/-- `line.strip()` of every line, where something is left. -/
def strippedLines (text : PyStr) : List PyStr :=
  ((splitlines text).map strip).filter (!·.isEmpty)

/-- The text has a character that is no white space. -/
def hasInk (text : PyStr) : Bool :=
  text.any (!isSpace ·)

theorem hasInk_append (a b : PyStr) : hasInk (a ++ b) = (hasInk a || hasInk b) :=
  List.any_append

theorem toNat_hasInk_append_le (a b : PyStr) :
    (hasInk (a ++ b)).toNat ≤ (hasInk a).toNat + (hasInk b).toNat := by
  rw [hasInk_append]
  cases hasInk a <;> cases hasInk b <;> decide

theorem strip_ne_nil_of_hasInk {line : PyStr} (h : hasInk line = true) : strip line ≠ [] := by
  obtain ⟨c, hc, hspace⟩ := List.any_eq_true.mp h
  exact strip_ne_nil hc (by simpa using hspace)

theorem strippedLines_boundary {line : PyStr} (h : line.all (!isLineBoundary ·) = true)
    {c : CodePoint} (hc : isLineBoundary c = true) (hcr : c ≠ .scalar '\r') (rest : PyStr) :
    strippedLines (line ++ c :: rest) =
      (if (strip line).isEmpty then [] else [strip line]) ++ strippedLines rest := by
  unfold strippedLines
  rw [splitlines_boundary h hc hcr, List.map_cons, List.filter_cons]
  cases (strip line).isEmpty <;> rfl

/-- A line that ends adds to the lines that are not blank when it has ink. -/
theorem hasInk_add_le_boundary {line : PyStr} (h : line.all (!isLineBoundary ·) = true)
    {c : CodePoint} (hc : isLineBoundary c = true) (hcr : c ≠ .scalar '\r') (rest : PyStr) :
    (hasInk line).toNat + (strippedLines rest).length ≤
      (strippedLines (line ++ c :: rest)).length := by
  rw [strippedLines_boundary h hc hcr, List.length_append]
  cases hink : hasInk line with
  | false => simp
  | true =>
    have hne := strip_ne_nil_of_hasInk hink
    rw [if_neg (by simpa using hne)]
    simp

/-- A text before a line feed has a line that is not blank when it has ink, however it is cut. -/
theorem hasInk_add_le {text : PyStr} (hcr : .scalar '\r' ∉ text) (rest : PyStr) :
    (hasInk text).toNat + (strippedLines rest).length ≤
      (strippedLines (text ++ lit "\n" ++ rest)).length := by
  induction hn : text.length using Nat.strong_induction_on generalizing text with
  | _ n ih =>
    cases h : text.any isLineBoundary with
    | false =>
      have hall : text.all (!isLineBoundary ·) = true := by
        rw [List.all_eq_not_any_not]
        simpa using h
      rw [List.append_assoc]
      exact hasInk_add_le_boundary hall rfl (by decide) rest
    | true =>
      obtain ⟨line, c, tail, rfl, hline, hc⟩ := exists_first_boundary h
      have hc' : c ≠ .scalar '\r' := fun h => hcr (by simp [h])
      have hblank : hasInk [c] = false := by simp [hasInk, isSpace_of_isLineBoundary hc]
      have htail := ih tail.length (by simp [← hn]; omega) (fun h => hcr (by simp [h])) rfl
      have hcut := hasInk_add_le_boundary hline hc hc' (tail ++ lit "\n" ++ rest)
      have hink : hasInk (line ++ c :: tail) = hasInk (line ++ tail) := by
        rw [hasInk_append, ← List.singleton_append, hasInk_append, hblank, Bool.false_or,
          hasInk_append]
      have hsum := toNat_hasInk_append_le line tail
      rw [hink, List.append_assoc, List.append_assoc, List.cons_append, ← List.append_assoc tail]
      omega

/-- A text with ink on both sides of a boundary has two lines that are not blank. -/
theorem two_add_le {a b text rest : PyStr} (ha : hasInk a = true) (hb : hasInk b = true)
    (hedge : a.all (!isLineBoundary ·) = true) (hcr : .scalar '\r' ∉ text ++ b)
    (h : text.any isLineBoundary = true) :
    2 + (strippedLines rest).length ≤
      (strippedLines (a ++ text ++ b ++ lit "\n" ++ rest)).length := by
  obtain ⟨line, c, tail, rfl, hline, hc⟩ := exists_first_boundary h
  have hc' : c ≠ .scalar '\r' := fun h => hcr (by simp [h])
  have hfirst : (a ++ line).all (!isLineBoundary ·) = true := by
    rw [List.all_append, hedge, hline]
    rfl
  have hcut := hasInk_add_le_boundary hfirst hc hc' (tail ++ b ++ lit "\n" ++ rest)
  have hcr' : .scalar '\r' ∉ tail ++ b := fun h => hcr (by simp_all)
  have hrest := hasInk_add_le hcr' rest
  rw [hasInk_append, ha] at hcut
  rw [hasInk_append, hb, Bool.or_true] at hrest
  have htext : a ++ (line ++ c :: tail) ++ b ++ lit "\n" ++ rest =
      a ++ line ++ c :: (tail ++ b ++ lit "\n" ++ rest) := by simp
  rw [htext]
  simp only [Bool.true_or, Bool.toNat_true] at hcut hrest
  omega

end Py
