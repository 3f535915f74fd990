import Icode.AgentTools
import Icode.GuardCommand
import Icode.Recovery

/-!
# The mandatory brief of a step

`mandatoryBrief` puts together what an agent must be told before a step : the machine contract, and
the sections of the step document that read like gates. `Complete` says what the brief should hold.

A section is dropped when it does not fit, and that is reported; but the text as a whole is cut at
the budget, and the cut does not spare the contract. `complete_iff` : the brief is complete exactly
when each line of the contract ends before the cut, or stands in what is left all the same.
-/

namespace Icode

open Py

/-! ## Joined texts -/

section Joined

variable {α β : Type*} (render : β → List α) (gap : ℕ)

/-- Where the parts of a joined text begin, from `o` on. -/
def starts : ℕ → List β → List (β × ℕ)
  | _, [] => []
  | o, x :: xs => (x, o) :: starts (o + (render x).length + gap) xs

variable {render}

theorem infix_intercalate (sep : List α) {p : List α} : ∀ {parts : List (List α)}, p ∈ parts →
    p <:+: sep.intercalate parts
  | [q], h => by
    rw [List.mem_singleton.mp h, List.intercalate_singleton]
  | q :: r :: parts, h => by
    rw [List.intercalate_cons_cons]
    rcases List.mem_cons.mp h with rfl | h
    · exact ⟨[], sep ++ sep.intercalate (r :: parts), by simp⟩
    · exact (infix_intercalate sep h).trans ⟨q ++ sep, [], by simp⟩

/-- Each part stands where it begins. -/
theorem exists_of_mem_starts (sep : List α) {x : β} {s : ℕ} : ∀ {xs : List β} {o : ℕ},
    (x, s) ∈ starts render sep.length o xs →
    ∃ a b, sep.intercalate (xs.map render) = a ++ render x ++ b ∧ s = o + a.length
  | [y], o, h => by
    obtain ⟨rfl, rfl⟩ := Prod.mk.inj (List.mem_singleton.mp h)
    exact ⟨[], [], by simp [List.intercalate_singleton], rfl⟩
  | y :: z :: xs, o, h => by
    rw [List.map_cons, List.map_cons, List.intercalate_cons_cons]
    rcases List.mem_cons.mp h with h | h
    · obtain ⟨rfl, rfl⟩ := Prod.mk.inj h
      exact ⟨[], sep ++ sep.intercalate (render z :: xs.map render), by simp, rfl⟩
    · obtain ⟨a, b, hjoin, rfl⟩ := exists_of_mem_starts sep h
      refine ⟨render y ++ sep ++ a, b, ?_, by simp; omega⟩
      rw [List.map_cons] at hjoin
      simp [hjoin]

/-- The first parts of a joined text are its beginning. -/
theorem prefix_intercalate (sep : List α) {xs : List (List α)} (hne : xs ≠ []) :
    ∀ ys : List (List α), sep.intercalate xs <+: sep.intercalate (xs ++ ys) := by
  intro ys
  induction xs with
  | nil => exact absurd rfl hne
  | cons x xs ih =>
    cases xs with
    | nil =>
      cases ys with
      | nil => simp
      | cons y ys =>
        rw [List.singleton_append, List.intercalate_singleton, List.intercalate_cons_cons,
          List.append_assoc]
        exact List.prefix_append _ _
    | cons z xs =>
      rw [List.cons_append, List.cons_append, List.intercalate_cons_cons,
        List.intercalate_cons_cons]
      exact (List.prefix_append_right_inj _).mpr (ih (by simp))

end Joined

namespace MandatoryBrief

/-! ## The step document -/

/-- `Section` -/
structure Section where
  title : PyStr
  level : ℕ
  start : ℕ
  last : ℕ
  deriving DecidableEq

/-- `StepGuide` -/
structure StepGuide where
  step : PyStr
  lines : List PyStr
  sections : List Section

/-- `"\n".join(lines)` -/
def joinLines (lines : List PyStr) : PyStr :=
  (lit "\n").intercalate lines

/-- `"\n\n".join(parts)` -/
def joinParts (parts : List PyStr) : PyStr :=
  (lit "\n\n").intercalate parts

/-- `text.splitlines()` of a text that was read with universal newlines. -/
def splitlines (text : PyStr) : List PyStr :=
  let lines := text.splitOnP Recovery.isLineBreak
  if lines.getLast? = some [] then lines.dropLast else lines

/-- The line after the front matter. -/
def bodyOffset (lines : List PyStr) : ℕ :=
  if lines.head?.any fun line => strip line == lit "---" then
    match (lines.drop 1).findIdx? fun line => strip line == lit "---" with
    | some i => i + 2
    | none => 0
  else 0

/-- A blank or a tab. -/
def isBlank (c : CodePoint) : Bool :=
  c == .scalar ' ' || c == .scalar '\t'

/-- The level and the title of a heading, as `_HEADING_RE` matches them. -/
def heading (line : PyStr) : Option (ℕ × PyStr) :=
  let level := (line.takeWhile (· == .scalar '#')).length
  let rest := line.drop level
  if 1 ≤ level ∧ level ≤ 6 ∧ rest.head?.any isBlank then
    some (level, ((rest.dropWhile isBlank).reverse.dropWhile isBlank).reverse)
  else none

/-- The headings of the document, by the index of their line. -/
def headings (lines : List PyStr) : List (ℕ × ℕ × PyStr) :=
  lines.zipIdx.filterMap fun (line, i) =>
    if i < bodyOffset lines then none else (heading line).map (i, ·)

/-- The sections : each ends before the next heading. -/
def sectionsOf (count : ℕ) : List (ℕ × ℕ × PyStr) → List Section
  | [] => []
  | [(i, level, title)] => [⟨title, level, i + 1, count⟩]
  | (i, level, title) :: next :: rest =>
    ⟨title, level, i + 1, next.1⟩ :: sectionsOf count (next :: rest)

/-- `StepGuide(step, path)`, for a document with this text. -/
def StepGuide.ofText (step text : PyStr) : StepGuide :=
  let lines := splitlines (universalNewlines text)
  ⟨step, lines, sectionsOf lines.length (headings lines)⟩

/-- `_GATE_KEYWORDS` -/
def gateKeywords : List PyStr :=
  ["门禁", "强制", "必须", "禁止", "不得", "硬性", "前置", "校验", "reject", "fail-closed",
    "fail_closed", "required"].map lit

/-- `gate_sections` -/
def StepGuide.gateSections (u : GuardCommand.UnicodeTables) (g : StepGuide) : List Section :=
  g.sections.filter fun s =>
    gateKeywords.any fun k => contains s.title k || contains (GuardCommand.lower u s.title) k

/-- A match of `_MD_LINK_RE` at the beginning : its label, its target and its length. -/
def linkAt : PyStr → Option (PyStr × PyStr × ℕ)
  | .scalar '[' :: s =>
    let label := s.takeWhile (· != .scalar ']')
    match s.drop label.length with
    | .scalar ']' :: .scalar '(' :: t =>
      let href := t.takeWhile (· != .scalar ')')
      if label.isEmpty || href.isEmpty || href.length == t.length then none
      else some (label, href, label.length + href.length + 4)
    | _ => none
  | _ => none

/-- `_sub` -/
def replacement (label href : PyStr) : PyStr :=
  if GuardCommand.startsWith href "http://" || GuardCommand.startsWith href "https://" then
    lit "[" ++ label ++ lit "](" ++ href ++ lit ")"
  else label

/-- `_MD_LINK_RE.sub(_sub, text)`, where `skip` characters of the last match are left. -/
def neutralizeFrom : ℕ → PyStr → PyStr
  | _, [] => []
  | skip + 1, _ :: s => neutralizeFrom skip s
  | 0, c :: s =>
    match linkAt (c :: s) with
    | some (label, href, length) => replacement label href ++ neutralizeFrom (length - 1) s
    | none => c :: neutralizeFrom 0 s

/-- `neutralize_links` -/
def neutralizeLinks (text : PyStr) : PyStr :=
  neutralizeFrom 0 text

/-- A section as the brief has it : its links are reduced to their labels. -/
def StepGuide.chunk (g : StepGuide) (s : Section) : PyStr :=
  neutralizeLinks (joinLines ((g.lines.take s.last).drop (s.start - 1)))

/-! ## The machine contract -/

/-- `Port` -/
structure Port where
  id : PyStr
  kind : PyStr
  value : PyStr
  required : Bool
  isProtected : Bool

/-- `StepContract` -/
structure StepContract where
  inputs : List Port
  outputs : List Port
  requiredChecks : List PyStr
  driftRoutes : Dict PyStr PyStr

/-- Whether an input is missing in the directory of the ticket; `isFile` is `is_file` there. -/
def Port.isMissing (isFile : Option (PyStr → Bool)) (p : Port) : Bool :=
  p.kind == lit "ticket_file" && !p.value.isEmpty && isFile.any fun exists_ => !exists_ p.value

/-- What is said of an input. -/
def Port.status (isFile : Option (PyStr → Bool)) (p : Port) : PyStr :=
  if p.kind == lit "ticket_file" && !p.value.isEmpty then
    match isFile with
    | none => []
    | some exists_ =>
      if exists_ p.value then lit " —— 已存在" else lit " —— **本次不存在，忽略它，不要去找**"
  else []

/-- The name of an input. -/
def Port.inputName (p : Port) : PyStr :=
  if p.kind == lit "ticket_file" && !p.value.isEmpty then p.value
  else if p.kind == lit "metadata_pointer" then lit "metadata:" ++ p.value
  else if p.value.isEmpty then p.id else p.value

/-- The line of an input. -/
def Port.inputLine (isFile : Option (PyStr → Bool)) (p : Port) : PyStr :=
  lit "  - [" ++ (if p.required then lit "必需" else lit "可选") ++ lit "] " ++ p.inputName ++
    (if p.isProtected then lit "（受保护：执行中漂移即 fail-closed）" else []) ++ p.status isFile

/-- The lines of `_render_inputs`. -/
def inputLines (isFile : Option (PyStr → Bool)) (inputs : List Port) : List PyStr :=
  lit "输入清单：" :: inputs.map (Port.inputLine isFile) ++
    if inputs.any (Port.isMissing isFile) then
      [lit "  说明：标为「本次不存在」的输入**不需要寻找**，请直接基于现有信息产出。"]
    else []

/-- The line of the outputs. -/
def outputsLine (outputs : List Port) : PyStr :=
  lit "产物端口：" ++ (lit "、").intercalate (outputs.map fun p =>
    (if p.value.isEmpty then p.id else p.value) ++ if p.required then lit "（必需）" else [])

/-- The line of the drift routes. -/
def routesLine (routes : Dict PyStr PyStr) : PyStr :=
  lit "漂移回流：" ++ (lit "、").intercalate (routes.map fun r => r.1 ++ lit "->" ++ r.2)

/-- The parts of the machine contract, by their lines. -/
def StepContract.blocks (isFile : Option (PyStr → Bool)) (c : StepContract) : List (List PyStr) :=
  (if c.inputs.isEmpty then [] else [inputLines isFile c.inputs]) ++
  (if c.outputs.isEmpty then [] else [[outputsLine c.outputs]]) ++
  (if c.requiredChecks.isEmpty then []
    else [[lit "边界复检：" ++ (lit "、").intercalate c.requiredChecks]]) ++
  if c.driftRoutes.isEmpty then [] else [[routesLine c.driftRoutes]]

/-! ## The brief -/

/-- `_BRIEF_SCOPE_NOTE` -/
def briefScopeNote : PyStr :=
  lit "> 本简报只含门禁要求；文中形如 `../references/xxx.md` 的路径属于上游文档体系，**不在你的工作区内、也无法读取**，不要尝试访问。"

/-- The parts before the sections, by their lines. -/
def headBlocks (g : StepGuide) (isFile : Option (PyStr → Bool)) (contract : Option StepContract) :
    List (List PyStr) :=
  [lit "# 门禁简报：" ++ g.step] :: [briefScopeNote] ::
    match contract with
    | none => []
    | some c => [lit "## 机器契约（gates.json，权威）"] :: c.blocks isFile

/-- `sum(len(p) for p in parts)` -/
def partsLength (parts : List PyStr) : ℕ :=
  (parts.map List.length).sum

/-- The sections that fit, and whether one does not. -/
def addSections (budget : ℤ) : List PyStr → Bool → List PyStr → List PyStr × Bool
  | parts, truncated, [] => (parts, truncated)
  | parts, truncated, chunk :: chunks =>
    if budget < partsLength parts + chunk.length then addSections budget parts true chunks
    else addSections budget (parts ++ [chunk]) truncated chunks

/-- What stands behind a cut. -/
def cutMark : PyStr :=
  lit "\n…（超出预算被截断）"

/-- The text of a brief, and whether the budget has cost it something. -/
def finish (budget : ℤ) (r : List PyStr × Bool) : PyStr × Bool :=
  let text := joinParts r.1
  if budget < text.length then (Agent.sliceTo text budget ++ cutMark, true) else (text, r.2)

section

variable (u : GuardCommand.UnicodeTables) (g : StepGuide) (isFile : Option (PyStr → Bool))
  (contract : Option StepContract) (budget : ℤ)

/-- `mandatory_brief` -/
def mandatoryBrief : PyStr × Bool :=
  finish budget (addSections budget ((headBlocks g isFile contract).map joinLines) false
    ((g.gateSections u).map g.chunk))

/-! ## What is claimed -/

/-- The lines of the machine contract, with where they begin in the brief. -/
def contractLines : List (PyStr × ℕ) :=
  ((starts joinLines 2 0 (headBlocks g isFile contract)).drop 3).flatMap fun b =>
    starts id 1 b.2 b.1

/-- A brief is complete. -/
structure Complete (r : PyStr × Bool) : Prop where
  contract : ∀ line ∈ contractLines g isFile contract, line.1 <:+: r.1
  sections : r.2 = false → ∀ s ∈ g.gateSections u, g.chunk s <:+: r.1

/-- The brief without its sections. -/
def headText : PyStr :=
  joinParts ((headBlocks g isFile contract).map joinLines)

/-- What a cut leaves of the brief without its sections. -/
def keptLength : ℕ :=
  if 0 ≤ budget then budget.toNat else (headText g isFile contract).length - budget.natAbs

/-- No line of the contract is lost : it ends before a cut, or it stands in what a cut leaves. -/
def NoLineLost : Prop :=
  ∀ line ∈ contractLines g isFile contract,
    line.2 + line.1.length ≤ keptLength g isFile contract budget ∨
      line.1 <:+: (headText g isFile contract).take (keptLength g isFile contract budget) ++ cutMark

/-! ## Sections -/

variable {budget : ℤ}

/-- The sections stand behind what was there. -/
theorem exists_addSections (budget : ℤ) : ∀ (chunks parts : List PyStr) (truncated : Bool),
    ∃ added, (addSections budget parts truncated chunks).1 = parts ++ added
  | [], parts, truncated => ⟨[], by simp [addSections]⟩
  | chunk :: chunks, parts, truncated => by
    rw [addSections]
    split_ifs
    · exact exists_addSections budget chunks parts true
    · obtain ⟨added, hadded⟩ := exists_addSections budget chunks (parts ++ [chunk]) truncated
      exact ⟨chunk :: added, by rw [hadded]; simp⟩

/-- Nothing is dropped without being reported. -/
theorem addSections_of_not_truncated : ∀ {chunks parts : List PyStr} {truncated : Bool},
    (addSections budget parts truncated chunks).2 = false →
    truncated = false ∧ (addSections budget parts truncated chunks).1 = parts ++ chunks
  | [], parts, truncated, h => ⟨h, by simp [addSections]⟩
  | chunk :: chunks, parts, truncated, h => by
    rw [addSections] at h ⊢
    split_ifs at h ⊢
    · exact absurd (addSections_of_not_truncated h).1 (by simp)
    · obtain ⟨hfalse, hparts⟩ := addSections_of_not_truncated h
      exact ⟨hfalse, by rw [hparts]; simp⟩

/-- Below zero no section fits. -/
theorem addSections_of_neg (hneg : budget < 0) : ∀ {chunks parts : List PyStr} {truncated : Bool},
    (addSections budget parts truncated chunks).1 = parts
  | [], _, _ => rfl
  | chunk :: chunks, parts, truncated => by
    rw [addSections, if_pos (by omega), addSections_of_neg hneg]

/-! ## The main theorem -/

variable {g : StepGuide} {isFile : Option (PyStr → Bool)} {contract : Option StepContract}

/-- Each line of the contract stands in the head where it begins. -/
theorem exists_of_mem_contractLines {line : PyStr × ℕ}
    (h : line ∈ contractLines g isFile contract) :
    ∃ a b, headText g isFile contract = a ++ line.1 ++ b ∧ line.2 = a.length := by
  obtain ⟨⟨block, s⟩, hblock, hline⟩ := List.mem_flatMap.mp h
  obtain ⟨a, b, hhead, rfl⟩ := exists_of_mem_starts (lit "\n\n") (List.mem_of_mem_drop hblock)
  obtain ⟨a', b', hjoin, hstart⟩ := exists_of_mem_starts (lit "\n") hline
  rw [List.map_id] at hjoin
  refine ⟨a ++ a', b' ++ b, ?_, by rw [hstart, List.length_append]; omega⟩
  rw [headText, joinParts, hhead, joinLines, hjoin]
  simp

/-- What a cut leaves of the whole text. -/
theorem sliceTo_eq_take {text : PyStr} (hneg : budget < 0 → text = headText g isFile contract) :
    Agent.sliceTo text budget = text.take (keptLength g isFile contract budget) := by
  rw [Agent.sliceTo, keptLength]
  split_ifs with h
  · rfl
  · rw [hneg (by omega)]

/-- A cut leaves a line of the head if the line ends before it, and else only if it stands in what is
left. -/
theorem infix_cut_iff {head text line mark a b : PyStr} {start n : ℕ} (hleads : head <+: text)
    (hhead : head = a ++ line ++ b) (hstart : start = a.length) :
    line <:+: text.take n ++ mark ↔
      start + line.length ≤ n ∨ line <:+: head.take n ++ mark := by
  subst hhead hstart
  by_cases hends : a.length + line.length ≤ n
  · refine iff_of_true (List.IsInfix.trans ?_ (List.prefix_append _ mark).isInfix) (Or.inl hends)
    have hline : a ++ line <+: text.take n := by
      rw [List.prefix_take_iff, List.length_append]
      exact ⟨(List.prefix_append _ b).trans hleads, hends⟩
    exact (List.suffix_append a line).isInfix.trans hline.isInfix
  · have htake : text.take n = (a ++ line ++ b).take n := by
      obtain ⟨rest, rfl⟩ := hleads
      rw [List.take_append_of_le_length (by simp; omega)]
    rw [htake]
    exact ⟨Or.inr, fun h => h.resolve_left hends⟩

/-- A brief is complete exactly if no line of the contract is lost. -/
theorem complete_iff (u : GuardCommand.UnicodeTables) (g : StepGuide)
    (isFile : Option (PyStr → Bool)) (contract : Option StepContract) (budget : ℤ) :
    Complete u g isFile contract (mandatoryBrief u g isFile contract budget) ↔
      NoLineLost g isFile contract budget := by
  set parts := (headBlocks g isFile contract).map joinLines with hparts
  set r := addSections budget parts false ((g.gateSections u).map g.chunk) with hr
  have hne : parts ≠ [] := by simp [hparts, headBlocks]
  have hleads : headText g isFile contract <+: joinParts r.1 := by
    obtain ⟨added, hadded⟩ :=
      exists_addSections budget ((g.gateSections u).map g.chunk) parts false
    rw [hr, hadded]
    exact prefix_intercalate _ hne added
  have hneg : budget < 0 → joinParts r.1 = headText g isFile contract := fun h => by
    rw [hr, addSections_of_neg h]
    rfl
  have hsections : (mandatoryBrief u g isFile contract budget).2 = false →
      ∀ s ∈ g.gateSections u, g.chunk s <:+: (mandatoryBrief u g isFile contract budget).1 := by
    intro hfalse s hs
    have hbrief : mandatoryBrief u g isFile contract budget = finish budget r := rfl
    rw [hbrief, finish] at hfalse ⊢
    split_ifs at hfalse ⊢
    rw [hr, (addSections_of_not_truncated hfalse).2]
    exact infix_intercalate _ (List.mem_append_right _ (List.mem_map_of_mem hs))
  have hcontract : (∀ line ∈ contractLines g isFile contract,
      line.1 <:+: (mandatoryBrief u g isFile contract budget).1) ↔
      NoLineLost g isFile contract budget := by
    refine forall₂_congr fun line hline => ?_
    obtain ⟨a, b, hhead, hstart⟩ := exists_of_mem_contractLines hline
    have hbrief : mandatoryBrief u g isFile contract budget = finish budget r := rfl
    rw [hbrief, finish]
    split_ifs with hcut
    · rw [sliceTo_eq_take hneg]
      exact infix_cut_iff hleads hhead hstart
    · refine iff_of_true (List.IsInfix.trans ⟨a, b, hhead.symm⟩ hleads.isInfix) (Or.inl ?_)
      have hle := hleads.length_le
      have hlen := congrArg List.length hhead
      rw [List.length_append, List.length_append] at hlen
      rw [keptLength, if_pos (by omega)]
      omega
  exact ⟨fun h => hcontract.mp h.contract, fun h => ⟨hcontract.mpr h, hsections⟩⟩

end

/-- A contract with one check, and no sections. -/
def oneCheck : StepContract :=
  ⟨[], [], [lit "quality"], []⟩

set_option maxRecDepth 2000 in
/-- A budget of ten characters loses the check. -/
theorem not_complete : ¬∀ (u : GuardCommand.UnicodeTables) (g : StepGuide)
    (isFile : Option (PyStr → Bool)) (contract : Option StepContract) (budget : ℤ),
    Complete u g isFile contract (mandatoryBrief u g isFile contract budget) := by
  intro h
  let u : GuardCommand.UnicodeTables := ⟨fun _ c _ => [c], fun _ => false⟩
  let g : StepGuide := ⟨lit "plan", [], []⟩
  have hline : (lit "边界复检：quality") ∈
      (contractLines g none (some oneCheck)).map Prod.fst := by
    decide
  obtain ⟨line, hmem, hcheck⟩ := List.mem_map.mp hline
  have hinfix := (h u g none (some oneCheck) 10).contract line hmem
  rw [hcheck] at hinfix
  have htext : (mandatoryBrief u g none (some oneCheck) 10).1 = lit "# 门禁简报：pla" ++ cutMark := rfl
  rw [htext] at hinfix
  exact absurd hinfix (by decide)

end MandatoryBrief

end Icode
