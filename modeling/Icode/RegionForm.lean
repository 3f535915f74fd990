import Icode.WriteLease

/-!
# The normal form of a region

The segments that `normalizeRegion` returns are file names over `[A-Za-z0-9._-]`, but for one
character : the pattern of a segment ends in `$`, which also matches before a line feed at the
end. `strip` takes the line feeds at the ends of the text away, and no others, so a segment keeps
one exactly when a slash stands behind it in the text (`normalizeRegion_normal`).
-/

namespace Icode

open Py PathTree

/-! ## Segments -/

/-- A file name of a region. -/
def IsName (part : PyStr) : Prop :=
  part ≠ [] ∧ part ≠ lit "." ∧ part ≠ lit ".." ∧ ∀ c ∈ part, isSegmentChar c = true

/-- What `_SEGMENT_RE` and the checks before it let pass. -/
def Passes (part : PyStr) : Prop :=
  part ≠ [] ∧ part ≠ lit "." ∧ part ≠ lit ".." ∧ isSegment part = true

theorem checkSegment_eq_ok {item : Option PyStr} {part : PyStr} :
    checkSegment item = .ok part ↔ item = some part ∧ Passes part := by
  cases item with
  | none => simp [checkSegment]
  | some s =>
    simp only [checkSegment, Passes]
    split_ifs with hname hsegment
    · simp only [Option.some.injEq, false_iff]
      rintro ⟨rfl, h1, h2, h3, -⟩
      tauto
    · simp only [Except.ok.injEq, Option.some.injEq]
      constructor
      · rintro rfl
        tauto
      · exact And.left
    · simp only [Option.some.injEq, false_iff]
      rintro ⟨rfl, -, -, -, h⟩
      exact hsegment h

theorem mapAll_checkSegment {items : List (Option PyStr)} {parts : Region} :
    mapAll checkSegment items = .ok parts ↔
      items = parts.map some ∧ ∀ part ∈ parts, Passes part := by
  simp only [mapAll_eq_ok, checkSegment_eq_ok]
  induction items generalizing parts with
  | nil => cases parts <;> simp
  | cons item items ih =>
    cases parts with
    | nil => simp
    | cons part parts =>
      rw [List.forall₂_cons, ih, List.map_cons, List.cons.injEq, List.forall_mem_cons]
      tauto

/-- The line feed that `$` looks past. -/
def lineFeed : CodePoint :=
  .scalar '\n'

theorem Passes.isName_iff {part : PyStr} (h : Passes part) :
    IsName part ↔ part.getLast? ≠ some lineFeed := by
  obtain ⟨hne, hdot, hdots, hsegment⟩ := h
  have hfeed : isSegmentChar lineFeed = false := by decide
  constructor
  · rintro ⟨-, -, -, hall⟩ hlast
    have := hall _ (List.mem_of_getLast? hlast)
    rw [hfeed] at this
    cases this
  · intro hlast
    have hlast' : ¬ part.getLast? = some (CodePoint.scalar '\n') := hlast
    simp only [isSegment, if_neg hlast', Bool.and_eq_true, List.all_eq_true] at hsegment
    exact ⟨hne, hdot, hdots, hsegment.2⟩

theorem IsName.passes {part : PyStr} (h : IsName part) : Passes part := by
  obtain ⟨hne, hdot, hdots, hall⟩ := h
  have hlast : ¬ part.getLast? = some (CodePoint.scalar '\n') := fun hlast => by
    have := hall _ (List.mem_of_getLast? hlast)
    cases this
  refine ⟨hne, hdot, hdots, ?_⟩
  simpa [isSegment, if_neg hlast, hne] using hall

/-! ## Splitting -/

section Infix

variable {α : Type*} {x c : α}

/-- Behind a text come only separators. -/
theorem pair_infix_append (hx : x ≠ c) {t r : List α} (hr : ∀ y ∈ r, y = c) :
    [x, c] <:+: t ++ r ↔ [x, c] <:+: t ∨ t.getLast? = some x ∧ r ≠ [] := by
  induction t with
  | nil =>
    simp only [List.nil_append, List.infix_nil, List.getLast?_nil, reduceCtorEq, false_and,
      or_false, iff_false]
    intro h
    exact hx (hr x (h.subset List.mem_cons_self))
  | cons d t ih =>
    rw [List.cons_append, List.infix_cons_iff, ih, @List.infix_cons_iff _ _ _ t,
      List.cons_prefix_cons, List.cons_prefix_cons]
    cases t with
    | nil =>
      have hhead : [c] <+: r ↔ r ≠ [] := by
        cases r with
        | nil => simp
        | cons e r => simp [List.cons_prefix_cons, hr e]
      simp [hhead, eq_comm (a := x)]
    | cons e t =>
      simp only [List.cons_append, List.cons_prefix_cons, List.nil_prefix, and_true,
        List.getLast?_cons_cons]
      tauto

theorem pair_infix_prepend (hx : x ≠ c) {t r : List α} (hr : ∀ y ∈ r, y = c) :
    [x, c] <:+: r ++ t ↔ [x, c] <:+: t := by
  induction r with
  | nil => rfl
  | cons d r ih =>
    obtain ⟨rfl, hr⟩ := List.forall_mem_cons.mp hr
    rw [List.cons_append, List.infix_cons_iff, List.cons_prefix_cons, ih hr]
    simp [hx]

end Infix

theorem splitSlash_ne_nil (t : PyStr) : splitSlash t ≠ [] := by
  cases t with
  | nil => simp [splitSlash]
  | cons c cs =>
    simp only [splitSlash]
    split
    · split_ifs <;> simp
    · simp

/-- The part a text begins with is empty before a slash and at the end. -/
theorem head_splitSlash (t : PyStr) :
    (splitSlash t).head? = some [] ↔ [CodePoint.scalar '/'] <+: t ++ [.scalar '/'] := by
  cases t with
  | nil => simp [splitSlash]
  | cons c cs =>
    obtain ⟨part, parts, hparts⟩ := List.exists_cons_of_ne_nil (splitSlash_ne_nil cs)
    rw [List.cons_append, List.cons_prefix_cons, splitSlash, hparts]
    split_ifs with hc
    · simp [hc]
    · simp [Ne.symm hc]

/-- Some part ends in the character exactly when it stands before a slash, or at the end. -/
theorem exists_part_getLast {x : CodePoint} (hx : x ≠ .scalar '/') (t : PyStr) :
    (∃ part ∈ splitSlash t, part.getLast? = some x) ↔
      [x, .scalar '/'] <:+: t ++ [.scalar '/'] := by
  induction t with
  | nil =>
    simp [splitSlash, List.infix_cons_iff, List.cons_prefix_cons, hx]
  | cons c cs ih =>
    have hhead := head_splitSlash cs
    obtain ⟨part, parts, hparts⟩ := List.exists_cons_of_ne_nil (splitSlash_ne_nil cs)
    rw [hparts] at ih hhead
    rw [List.cons_append, List.infix_cons_iff, List.cons_prefix_cons, ← ih, ← hhead, splitSlash,
      hparts]
    split_ifs with hc
    · simp [hc, hx]
    · cases part with
      | nil => simp [eq_comm]
      | cons d part => simp

/-! ## The text that is split -/

/-- A backslash reads as a slash. -/
def toSlash (c : CodePoint) : CodePoint :=
  if c = .scalar '\\' then .scalar '/' else c

theorem isSpace_toSlash (c : CodePoint) : isSpace (toSlash c) = isSpace c := by
  unfold toSlash
  split_ifs with h
  · rw [h]
    rfl
  · rfl

theorem strip_map_toSlash (s : PyStr) : strip (s.map toSlash) = (strip s).map toSlash := by
  have hspace : isSpace ∘ toSlash = isSpace := funext isSpace_toSlash
  simp only [strip, List.dropWhile_map, ← List.map_reverse, hspace]

/-- What `strip("/")` takes away are slashes, before and behind the text. -/
theorem exists_slashes (u : PyStr) : ∃ before after,
    u = before ++ (stripSlash u ++ after) ∧ (∀ c ∈ before, c = .scalar '/') ∧
      ∀ c ∈ after, c = .scalar '/' := by
  have hall : ∀ (t : PyStr), ∀ c ∈ t.takeWhile (· == .scalar '/'), c = .scalar '/' := by
    intro t c hc
    simpa using List.mem_takeWhile_imp hc
  refine ⟨u.takeWhile (· == .scalar '/'),
    ((u.dropWhile (· == .scalar '/')).reverse.takeWhile (· == .scalar '/')).reverse, ?_, hall u,
    fun c hc => hall _ c (List.mem_reverse.mp hc)⟩
  rw [stripSlash, ← List.reverse_append, List.takeWhile_append_dropWhile, List.reverse_reverse,
    List.takeWhile_append_dropWhile]

/-- The text does not end in a space. -/
theorem getLast_strip {s : PyStr} {c : CodePoint} (h : (strip s).getLast? = some c) :
    isSpace c = false := by
  rw [strip, List.getLast?_reverse] at h
  have := List.head?_dropWhile_not isSpace (s.dropWhile isSpace).reverse
  rw [h] at this
  simpa using this

/-- A line feed stands right before a slash or a backslash, inside the stripped text. -/
def FeedBeforeSlash (s : PyStr) : Prop :=
  ∃ c, (c = .scalar '/' ∨ c = .scalar '\\') ∧ [lineFeed, c] <:+: strip s

theorem infix_map_toSlash (u : PyStr) : [lineFeed, .scalar '/'] <:+: u.map toSlash ↔
    ∃ c, (c = .scalar '/' ∨ c = .scalar '\\') ∧ [lineFeed, c] <:+: u := by
  have hslash : ∀ c, toSlash c = .scalar '/' ↔ c = .scalar '/' ∨ c = .scalar '\\' := by
    intro c
    unfold toSlash
    split_ifs with h
    · simp [h]
    · simp [h]
  have hfeed : ∀ c, lineFeed = toSlash c ↔ lineFeed = c := by
    intro c
    unfold toSlash
    split_ifs with h
    · rw [h]
      decide
    · rfl
  induction u with
  | nil => simp
  | cons d u ih =>
    have hnext : [CodePoint.scalar '/'] <+: u.map toSlash ↔
        ∃ c, (c = .scalar '/' ∨ c = .scalar '\\') ∧ [c] <+: u := by
      cases u with
      | nil => simp
      | cons e u => simp [List.cons_prefix_cons, eq_comm (a := CodePoint.scalar '/'), hslash]
    rw [List.map_cons, List.infix_cons_iff, List.cons_prefix_cons, hfeed, hnext]
    simp only [@List.infix_cons_iff _ _ _ u, List.cons_prefix_cons]
    constructor
    · rintro (⟨hd, c, hc, hu⟩ | h)
      · exact ⟨c, hc, Or.inl ⟨hd, hu⟩⟩
      · obtain ⟨c, hc, hu⟩ := ih.mp h
        exact ⟨c, hc, Or.inr hu⟩
    · rintro ⟨c, hc, ⟨hd, hu⟩ | hu⟩
      · exact Or.inl ⟨hd, c, hc, hu⟩
      · exact Or.inr (ih.mpr ⟨c, hc, hu⟩)

theorem feedBeforeSlash_iff (s : PyStr) :
    FeedBeforeSlash s ↔ [lineFeed, .scalar '/'] <:+: (strip s).map toSlash :=
  (infix_map_toSlash (strip s)).symm

/-- In the text that is split, a line feed stands before a slash or at the end exactly when it
stands before a slash in the stripped text. -/
theorem feedBeforeSlash_text (s : PyStr) : FeedBeforeSlash s ↔
    [lineFeed, .scalar '/'] <:+: stripSlash (strip (s.map toSlash)) ++ [.scalar '/'] := by
  have hne : lineFeed ≠ .scalar '/' := by decide
  rw [feedBeforeSlash_iff, ← strip_map_toSlash]
  obtain ⟨before, after, hu, hbefore, hafter⟩ := exists_slashes (strip (s.map toSlash))
  have hlast : after = [] → (stripSlash (strip (s.map toSlash))).getLast? ≠ some lineFeed := by
    rintro rfl hfeed
    have hend : (strip (s.map toSlash)).getLast? = some lineFeed := by
      rw [hu, List.append_nil, List.getLast?_append, hfeed]
      rfl
    have := getLast_strip hend
    cases this
  generalize stripSlash (strip (s.map toSlash)) = t at hu hlast
  rw [hu, pair_infix_prepend hne hbefore, pair_infix_append hne hafter,
    pair_infix_append hne (by simp)]
  refine or_congr_right (and_congr_right fun hfeed => ?_)
  simp only [ne_eq, List.cons_ne_self, not_false_eq_true, iff_true]
  exact fun hnil => hlast hnil hfeed

/-! ## The normal form -/

/-- Every segment is a file name, and the region is taken again as it is. -/
def NormalForm (parts : Region) : Prop :=
  (∀ part ∈ parts, IsName part) ∧ normalizeRegion (.segments (parts.map some)) = .ok parts

/-- What `normalizeRegion` has checked of a text. -/
theorem normalizeRegion_text {s : PyStr} {parts : Region}
    (h : normalizeRegion (.text s) = .ok parts) :
    parts = splitSlash (stripSlash (strip (s.map toSlash))) ∧ (∀ part ∈ parts, Passes part) ∧
      (controlPlaneMarkers.any fun marker => contains (joinSlash parts) marker) = false := by
  simp only [normalizeRegion, bind_eq_ok, require_eq_ok, exists_const] at h
  obtain ⟨items, hitems, hsome, segments, hsegments, hmarkers, hparts⟩ := h
  obtain rfl := Except.ok.inj hparts
  obtain ⟨rfl, hpasses⟩ := mapAll_checkSegment.mp hsegments
  refine ⟨?_, hpasses, by simpa using hmarkers⟩
  rw [regionParts] at hitems
  dsimp only at hitems
  split_ifs at hitems with h1 h2 h3
  · simp only [Except.ok.injEq, eq_comm (a := ([] : List (Option PyStr))), List.map_eq_nil_iff]
      at hitems
    rw [hitems] at hsome
    cases hsome
  · have hmap := Except.ok.inj hitems
    exact ((Option.some_injective _).list_map hmap).symm

theorem normalizeRegion_segments {parts : Region} (hne : parts ≠ [])
    (hpasses : ∀ part ∈ parts, Passes part)
    (hmarkers : (controlPlaneMarkers.any fun marker => contains (joinSlash parts) marker) = false) :
    normalizeRegion (.segments (parts.map some)) = .ok parts := by
  simp only [normalizeRegion, bind_eq_ok, require_eq_ok, exists_const]
  refine ⟨_, rfl, by simpa using hne, parts, mapAll_checkSegment.mpr ⟨rfl, hpasses⟩, ?_, rfl⟩
  simpa using hmarkers

/-- The accepted texts whose region is in normal form. -/
theorem normalizeRegion_normalForm {s : PyStr} {parts : Region}
    (h : normalizeRegion (.text s) = .ok parts) : NormalForm parts ↔ ¬ FeedBeforeSlash s := by
  obtain ⟨hparts, hpasses, hmarkers⟩ := normalizeRegion_text h
  have hne : parts ≠ [] := hparts ▸ splitSlash_ne_nil _
  have hagain := normalizeRegion_segments hne hpasses hmarkers
  have hfeed : lineFeed ≠ .scalar '/' := by decide
  rw [feedBeforeSlash_text, ← exists_part_getLast hfeed, ← hparts, NormalForm, and_iff_left hagain]
  push Not
  exact forall₂_congr fun part hpart => (hpasses part hpart).isName_iff

/-- A text with blanks around, a backslash and a slash at the end. -/
theorem normalizeRegion_normalForm_src : NormalForm [lit "src", lit "a_1.py"] := by
  have hregion : normalizeRegion (.text (lit " src\\a_1.py/\n")) =
      .ok [lit "src", lit "a_1.py"] := by decide
  refine (normalizeRegion_normalForm hregion).mpr ?_
  rw [feedBeforeSlash_iff]
  decide

/-- A line feed before a slash stays in the segment. -/
theorem normalizeRegion_lineFeed : ¬ ∀ (s : PyStr) (parts : Region),
    normalizeRegion (.text s) = .ok parts → NormalForm parts := by
  intro hall
  have hregion : normalizeRegion (.text (lit "src\n/a")) = .ok [lit "src\n", lit "a"] := by
    decide
  obtain ⟨-, -, -, hchars⟩ := (hall _ _ hregion).1 (lit "src\n") List.mem_cons_self
  have hfeed : lineFeed ∈ lit "src\n" := by decide
  have := hchars lineFeed hfeed
  cases this

end Icode
