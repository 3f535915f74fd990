import Icode.PyText

/-!
# Regular expressions

The expressions of Python's `re` that a table of patterns is made of: characters, repeated
characters, word boundaries, sequences and alternatives. Whether there is a match does not depend on
the order in which matches are tried, so `ends` gives all places at which one can end.

`search_at` : a way from a place of the text to another one is a match of the whole text. The ways
are put together with `mem_one`, `mem_many`, `mem_word`, `mem_boundary` and `mem_seqs`.
-/

namespace Py

/-! ## Expressions -/

/-- A regular expression. A repetition is one of a character. -/
inductive Regex where
  | nothing
  | one (p : CodePoint → Bool)
  /-- `p*` -/
  | many (p : CodePoint → Bool)
  /-- `\b` -/
  | boundary
  | seq (a b : Regex)
  | alt (a b : Regex)

/-- A place in a text: the character before it, and what is behind it. -/
structure Place where
  before : Option CodePoint
  behind : PyStr

namespace Regex

/-- One expression after the other. -/
def seqs : List Regex → Regex
  | [] => .nothing
  | r :: rs => .seq r (seqs rs)

/-- `c` with `re.IGNORECASE`, which also takes the letters that the standard folds to `i`, `s` and
`k`. -/
def sameLetter (c : Char) (x : CodePoint) : Bool :=
  x == c || x == c.toLower || x == c.toUpper ||
    (c.toLower == 'i' && (x.ord == 0x130 || x.ord == 0x131)) ||
    (c.toLower == 's' && x.ord == 0x17F) || (c.toLower == 'k' && x.ord == 0x212A)

/-- A word, with `re.IGNORECASE`. -/
def word (w : String) : Regex :=
  seqs (w.toList.map fun c => .one (sameLetter c))

/-- `p+` -/
def several (p : CodePoint → Bool) : Regex :=
  .seq (.one p) (.many p)

/-- `.` -/
def isAny (c : CodePoint) : Bool :=
  c != '\n'

/-- `[a-z]` -/
def isLower (c : CodePoint) : Bool :=
  97 ≤ c.ord && c.ord ≤ 122

/-- `[a-z]` with `re.IGNORECASE`. -/
def isLetter (c : CodePoint) : Bool :=
  (97 ≤ c.ord && c.ord ≤ 122) || (65 ≤ c.ord && c.ord ≤ 90) || c.ord == 0x130 || c.ord == 0x131 ||
    c.ord == 0x17F || c.ord == 0x212A

end Regex

/-! ## Matching -/

section Match

-- which characters beyond ASCII `\w` takes; white space is not among them
variable (wordOther : CodePoint → Bool)

/-- `\w` -/
def isWordCharacter (c : CodePoint) : Bool :=
  if c.ord < 128 then
    (48 ≤ c.ord && c.ord ≤ 57) || (65 ≤ c.ord && c.ord ≤ 90) || (97 ≤ c.ord && c.ord ≤ 122) ||
      c.ord == 95
  else !isSpace c && wordOther c

/-- The places that a repetition can lead to. -/
def manyEnds (p : CodePoint → Bool) (before : Option CodePoint) : PyStr → List Place
  | [] => [⟨before, []⟩]
  | c :: cs => ⟨before, c :: cs⟩ :: if p c then manyEnds p c cs else []

/-- There is a word character on one side only. -/
def isBoundary (place : Place) : Bool :=
  place.before.any (isWordCharacter wordOther) !=
    place.behind.head?.any (isWordCharacter wordOther)

/-- The places at which a match from a place can end. -/
def Regex.ends : Regex → Place → List Place
  | .nothing, place => [place]
  | .one p, place =>
    match place.behind with
    | [] => []
    | c :: cs => if p c then [⟨c, cs⟩] else []
  | .many p, place => manyEnds p place.before place.behind
  | .boundary, place => if isBoundary wordOther place then [place] else []
  | .seq a b, place => (a.ends place).flatMap b.ends
  | .alt a b, place => a.ends place ++ b.ends place

/-- There is a match from one of the places of a text. -/
def Regex.searchFrom (r : Regex) (before : Option CodePoint) : PyStr → Bool
  | [] => !(r.ends wordOther ⟨before, []⟩).isEmpty
  | c :: cs => !(r.ends wordOther ⟨before, c :: cs⟩).isEmpty || r.searchFrom c cs

/-- `re.search(r, text)` -/
def Regex.search (r : Regex) (text : PyStr) : Bool :=
  r.searchFrom wordOther none text

/-- `re.fullmatch(r, text)` -/
def Regex.fullmatch (r : Regex) (text : PyStr) : Bool :=
  (r.ends wordOther ⟨none, text⟩).any (·.behind.isEmpty)

end Match

/-! ## Ways through a text -/

/-- The place between two parts of a text. -/
def placeAt (pre post : PyStr) : Place :=
  ⟨pre.getLast?, post⟩

namespace Regex

variable {wordOther : CodePoint → Bool} {p : CodePoint → Bool} {pre post t : PyStr}

theorem isWordCharacter_of_isSpace {c : CodePoint} (h : isSpace c = true) :
    isWordCharacter wordOther c = false := by
  unfold isWordCharacter
  split_ifs with hascii
  · simp only [isSpace, Bool.or_eq_true, Bool.and_eq_true, decide_eq_true_eq, beq_iff_eq] at h
    simp only [Bool.or_eq_false_iff, Bool.and_eq_false_iff, decide_eq_false_iff_not,
      beq_eq_false_iff_ne]
    omega
  · rw [h, Bool.not_true, Bool.false_and]

theorem mem_one {c : CodePoint} (h : p c = true) :
    placeAt (pre ++ [c]) post ∈ (one p).ends wordOther (placeAt pre (c :: post)) := by
  simp [ends, placeAt, h]

theorem mem_manyEnds (h : ∀ c ∈ t, p c = true) (pre : PyStr) :
    placeAt (pre ++ t) post ∈ manyEnds p pre.getLast? (t ++ post) := by
  induction t generalizing pre with
  | nil =>
    rw [List.append_nil, List.nil_append]
    cases post with
    | nil => exact List.mem_singleton_self _
    | cons c post => exact List.mem_cons_self
  | cons c t ih =>
    rw [List.forall_mem_cons] at h
    have hrest := ih h.2 (pre ++ [c])
    rw [List.append_assoc, List.singleton_append, List.getLast?_concat] at hrest
    rw [List.cons_append, manyEnds, if_pos h.1]
    exact List.mem_cons_of_mem _ hrest

theorem mem_many (h : ∀ c ∈ t, p c = true) :
    placeAt (pre ++ t) post ∈ (many p).ends wordOther (placeAt pre (t ++ post)) :=
  mem_manyEnds h pre

theorem mem_boundary (h : isBoundary wordOther (placeAt pre post) = true) :
    placeAt pre post ∈ boundary.ends wordOther (placeAt pre post) := by
  rw [ends, if_pos h]
  exact List.mem_singleton_self _

theorem mem_seq {a b : Regex} {x y z : Place} (hab : y ∈ a.ends wordOther x)
    (hbc : z ∈ b.ends wordOther y) : z ∈ (seq a b).ends wordOther x :=
  List.mem_flatMap.mpr ⟨y, hab, hbc⟩

theorem mem_seqs {r : Regex} {rs : List Regex} {x y z : Place} (hr : y ∈ r.ends wordOther x)
    (hrs : z ∈ (seqs rs).ends wordOther y) : z ∈ (seqs (r :: rs)).ends wordOther x :=
  mem_seq hr hrs

theorem mem_seqs_nil {x : Place} : x ∈ (seqs []).ends wordOther x :=
  List.mem_singleton_self x

theorem mem_alt_left {a b : Regex} {x y : Place} (h : y ∈ a.ends wordOther x) :
    y ∈ (alt a b).ends wordOther x :=
  List.mem_append_left _ h

theorem mem_alt_right {a b : Regex} {x y : Place} (h : y ∈ b.ends wordOther x) :
    y ∈ (alt a b).ends wordOther x :=
  List.mem_append_right _ h

theorem mem_several (hne : t ≠ []) (h : ∀ c ∈ t, p c = true) :
    placeAt (pre ++ t) post ∈ (several p).ends wordOther (placeAt pre (t ++ post)) := by
  cases t with
  | nil => exact absurd rfl hne
  | cons c t =>
    rw [List.forall_mem_cons] at h
    rw [List.append_cons]
    exact mem_seq (mem_one h.1) (mem_many h.2)

/-- The end of a word is a boundary. -/
theorem mem_boundary_after {w : PyStr} {c : CodePoint} (hlast : w.getLast? = some c)
    (hc : isWordCharacter wordOther c = true)
    (hpost : post.head?.any (isWordCharacter wordOther) = false) :
    placeAt (pre ++ w) post ∈ boundary.ends wordOther (placeAt (pre ++ w) post) := by
  refine mem_boundary ?_
  simp only [isBoundary, placeAt, List.getLast?_append, hlast, Option.some_or, Option.any_some, hc,
    hpost]
  rfl

/-- The start of a word is a boundary. -/
theorem mem_boundary_before {w : PyStr} {c : CodePoint} (hfirst : w.head? = some c)
    (hc : isWordCharacter wordOther c = true)
    (hpre : pre.getLast?.any (isWordCharacter wordOther) = false) :
    placeAt pre (w ++ post) ∈ boundary.ends wordOther (placeAt pre (w ++ post)) := by
  refine mem_boundary ?_
  simp only [isBoundary, placeAt, List.head?_append, hfirst, Option.some_or, Option.any_some, hc,
    hpre]
  rfl

theorem sameLetter_self (c : Char) : sameLetter c c = true := by
  simp [sameLetter]

theorem mem_word (w : String) :
    placeAt (pre ++ lit w) post ∈ (word w).ends wordOther (placeAt pre (lit w ++ post)) := by
  unfold word lit
  induction w.toList generalizing pre with
  | nil =>
    rw [show ofChars [] = [] from rfl, List.append_nil]
    exact mem_seqs_nil
  | cons c w ih =>
    rw [show ofChars (c :: w) = [CodePoint.scalar c] ++ ofChars w from rfl, ← List.append_assoc]
    exact mem_seqs (mem_one (sameLetter_self c)) ih

theorem searchFrom_of_mem {r : Regex} {before : Option CodePoint} {x : Place}
    (h : x ∈ r.ends wordOther ⟨before, post⟩) : r.searchFrom wordOther before post = true := by
  have hne : (r.ends wordOther ⟨before, post⟩).isEmpty = false := by
    rw [List.isEmpty_eq_false_iff]
    exact List.ne_nil_of_mem h
  cases post with
  | nil => rw [searchFrom, hne, Bool.not_false]
  | cons c post => rw [searchFrom, hne, Bool.not_false, Bool.true_or]

theorem searchFrom_append {r : Regex} (before : Option CodePoint)
    (h : r.searchFrom wordOther (pre.getLast?.or before) post = true) :
    r.searchFrom wordOther before (pre ++ post) = true := by
  induction pre generalizing before with
  | nil => exact h
  | cons c pre ih =>
    rw [List.cons_append, searchFrom, Bool.or_eq_true]
    refine .inr (ih c ?_)
    rw [List.getLast?_cons] at h
    cases hlast : pre.getLast? <;> simpa [hlast] using h

/-- A way from a place of the text is a match. -/
theorem search_at {r : Regex} {x : Place} (h : x ∈ r.ends wordOther (placeAt pre post)) :
    r.search wordOther (pre ++ post) = true := by
  refine searchFrom_append none ?_
  rw [Option.or_none]
  exact searchFrom_of_mem h

/-- A way that takes the whole text. -/
theorem fullmatch_at {r : Regex} {x : Place} (h : x ∈ r.ends wordOther (placeAt [] post))
    (hend : x.behind = []) : r.fullmatch wordOther post = true :=
  List.any_eq_true.mpr ⟨x, h, by rw [hend]; rfl⟩

end Regex

end Py
