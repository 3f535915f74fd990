import Icode.GraphSearch
import Icode.PyRepr

/-!
# The steps of a chain

`chainSteps` walks the transitions of a state machine and notes the step of each target it comes to.
The walk is a search (`walk_eq_search`), so what it notes are the steps of the states it visits, in
the order of the visits.

`chainSteps_spec` : with at most 256 states to reach, these are the steps of the reachable states,
and each step is noted after those of the states on a way to it. The state where the walk begins has
a step of its own when the chain is taken up in the middle; that step is not noted
(`not_orderLaw_from`).
-/

namespace Icode

open Py GraphSearch

namespace Chain

/-! ## The walk -/

/-- The contract of a state machine; what is missing is empty. -/
structure StateMachine where
  terminalStates : List Json
  /-- `gate_policy.step_by_target` -/
  stepByTarget : Members
  transitions : List Members

/-- The local variables of `chain_steps`; `visited` in the order of the visits, and the top of the
stack first. -/
structure Walk where
  order : List PyStr
  visited : List PyStr
  stack : List PyStr

section

variable (printable : CodePoint → Bool) (sm : StateMachine)

/-- `step_by_target.get(target)`, when it is no empty text. -/
def stepOf (target : PyStr) : Option PyStr :=
  ((Dict.get? sm.stepByTarget target).map (Json.pyStr printable)).filter (!·.isEmpty)

/-- `order.append(step)`, unless there is none or it is there. -/
def note (order : List PyStr) (target : PyStr) : List PyStr :=
  match stepOf printable sm target with
  | some step => if order.contains step then order else order ++ [step]
  | none => order

/-- `str(item.get("from"))` -/
def fromOf (item : Members) : PyStr :=
  (Members.get item "from").pyStr printable

/-- `str(item.get("to"))` -/
def targetOf (item : Members) : PyStr :=
  (Members.get item "to").pyStr printable

/-- One transition, while `status` is looked at. -/
def visit (status : PyStr) (w : Walk) (item : Members) : Walk :=
  if fromOf printable item ≠ status then w
  else
    let target := targetOf printable item
    if w.visited.contains target then w
    else ⟨note printable sm w.order target, w.visited ++ [target], target :: w.stack⟩

/-- The loop, for at most `guard` states. -/
def walk : ℕ → Walk → Walk
  | 0, w => w
  | guard + 1, w =>
    match w.stack with
    | [] => w
    | status :: stack =>
      walk guard (sm.transitions.foldl (visit printable sm status) ⟨w.order, w.visited, stack⟩)

/-- `from_status in terminal_states` -/
def isTerminal (fromStatus : PyStr) : Bool :=
  (sm.terminalStates.map (Json.pyStr printable)).contains fromStatus

/-- `chain_steps` -/
def chainSteps (fromStatus : PyStr) : List PyStr :=
  if isTerminal printable sm fromStatus then []
  else (walk printable sm 256 ⟨[], [fromStatus], [fromStatus]⟩).order

/-! ## What is claimed -/

/-- The targets of the transitions from a state. -/
def targets (status : PyStr) : List PyStr :=
  (sm.transitions.filter fun item => fromOf printable item = status).map (targetOf printable)

/-- A way from `fromStatus` to `target`, without `target`. -/
def IsWay (fromStatus : PyStr) (way : List PyStr) (target : PyStr) : Prop :=
  IsPath (targets printable sm) fromStatus way target

/-- Each step is noted after those of the states on a way to it for which `counts` holds. -/
def OrderLaw (fromStatus : PyStr) (counts : PyStr → Prop) (steps : List PyStr) : Prop :=
  ∀ step ∈ steps, ∃ before after way target, steps = before ++ step :: after ∧
    IsWay printable sm fromStatus way target ∧ stepOf printable sm target = some step ∧
    ∀ state ∈ way, counts state → ∀ t, stepOf printable sm state = some t → t ∈ before

/-- What the steps of a chain are. -/
structure ChainLaw (fromStatus : PyStr) (steps : List PyStr) : Prop where
  complete : ∀ step, step ∈ steps ↔
    ∃ target ∈ others (targets printable sm) fromStatus, stepOf printable sm target = some step
  once : steps.Nodup
  order : OrderLaw printable sm fromStatus (· ≠ fromStatus) steps

/-! ## Steps that are noted -/

/-- The steps of the states `states`, each once. -/
def notes (states : List PyStr) : List PyStr :=
  states.foldl (note printable sm) []

variable {printable sm}

theorem notes_append_singleton (states : List PyStr) (target : PyStr) :
    notes printable sm (states ++ [target]) =
      note printable sm (notes printable sm states) target := by
  rw [notes, List.foldl_append]
  rfl

/-- The step of a state is noted unless it was before. -/
theorem note_cases (order : List PyStr) (target : PyStr) :
    (note printable sm order target = order ∧
      ∀ step, stepOf printable sm target = some step → step ∈ order) ∨
    ∃ step, stepOf printable sm target = some step ∧ step ∉ order ∧
      note printable sm order target = order ++ [step] := by
  rw [note]
  cases hstep : stepOf printable sm target with
  | none => exact Or.inl ⟨rfl, fun step h => by cases h⟩
  | some step =>
    by_cases hmem : step ∈ order
    · refine Or.inl ⟨if_pos (List.contains_iff_mem.mpr hmem), fun s h => ?_⟩
      rwa [← Option.some.inj h]
    · exact Or.inr ⟨step, rfl, hmem, if_neg fun h => hmem (List.contains_iff_mem.mp h)⟩

/-- What is noted stays. -/
theorem exists_note (order : List PyStr) (target : PyStr) :
    ∃ new, note printable sm order target = order ++ new := by
  obtain ⟨hnote, -⟩ | ⟨step, -, -, hnote⟩ := note_cases order target
  · exact ⟨[], hnote.trans (List.append_nil order).symm⟩
  · exact ⟨[step], hnote⟩

theorem nodup_note {order : List PyStr} (h : order.Nodup) (target : PyStr) :
    (note printable sm order target).Nodup := by
  obtain ⟨hnote, -⟩ | ⟨step, -, hmem, hnote⟩ := note_cases order target
  · rwa [hnote]
  · rw [hnote]
    exact h.append (List.nodup_singleton step) (by simpa using hmem)

theorem mem_note {order : List PyStr} {target step : PyStr} :
    step ∈ note printable sm order target ↔
      step ∈ order ∨ stepOf printable sm target = some step := by
  obtain ⟨hnote, hall⟩ | ⟨s, hstep, -, hnote⟩ := note_cases order target
  · rw [hnote]
    exact ⟨Or.inl, fun h => h.elim id (hall step)⟩
  · rw [hnote, hstep, List.mem_append, List.mem_singleton, Option.some.injEq, eq_comm (a := step)]

theorem nodup_notes (states : List PyStr) : (notes printable sm states).Nodup := by
  induction states using List.reverseRecOn with
  | nil => exact .nil
  | append_singleton states target ih =>
    rw [notes_append_singleton]
    exact nodup_note ih target

theorem mem_notes {states : List PyStr} {step : PyStr} : step ∈ notes printable sm states ↔
    ∃ target ∈ states, stepOf printable sm target = some step := by
  induction states using List.reverseRecOn with
  | nil => simp [notes]
  | append_singleton states target ih =>
    rw [notes_append_singleton, mem_note, ih]
    simp [or_and_right, exists_or]

/-- A step is noted at one state, behind the steps of the states before. -/
theorem exists_of_mem_notes {states : List PyStr} {step : PyStr}
    (h : step ∈ notes printable sm states) : ∃ before target after rest,
    states = before ++ target :: after ∧ stepOf printable sm target = some step ∧
      notes printable sm states = notes printable sm before ++ step :: rest := by
  induction states using List.reverseRecOn with
  | nil => cases h
  | append_singleton states last ih =>
    by_cases hold : step ∈ notes printable sm states
    · obtain ⟨before, target, after, rest, rfl, hstep, hnotes⟩ := ih hold
      obtain ⟨new, hnew⟩ := exists_note (notes printable sm (before ++ target :: after)) last
      refine ⟨before, target, after ++ [last], rest ++ new, by simp, hstep, ?_⟩
      rw [notes_append_singleton, hnew, hnotes]
      simp
    · rw [notes_append_singleton, mem_note] at h
      have hlast := h.resolve_left hold
      refine ⟨states, last, [], [], rfl, hlast, ?_⟩
      rw [notes_append_singleton, note, hlast]
      simp only [List.contains_iff_mem, hold, if_false]

/-! ## The walk is a search -/

/-- A walk and a search stand at the same place. -/
structure Mirrors (printable : CodePoint → Bool) (sm : StateMachine) (fromStatus : PyStr) (w : Walk)
    (s : State PyStr) : Prop where
  visited : w.visited = s.visited
  stack : w.stack = s.stack
  noted : ∃ rest, w.visited = fromStatus :: rest ∧ w.order = notes printable sm rest

variable {fromStatus : PyStr}

theorem mirrors_discover {w : Walk} {s : State PyStr} (h : Mirrors printable sm fromStatus w s)
    (target : PyStr) : Mirrors printable sm fromStatus
      (if w.visited.contains target then w
        else ⟨note printable sm w.order target, w.visited ++ [target], target :: w.stack⟩)
      (discover s target) := by
  simp only [discover, h.visited, List.contains_iff_mem]
  split_ifs
  · exact h
  · obtain ⟨rest, hvisited, horder⟩ := h.noted
    refine ⟨rfl, by rw [h.stack], rest ++ [target], ?_, ?_⟩
    · rw [← h.visited, hvisited]
      rfl
    · rw [notes_append_singleton, horder]

/-- Looking at the transitions sees the targets of the state. -/
theorem mirrors_visits (status : PyStr) : ∀ (items : List Members) {w : Walk} {s : State PyStr},
    Mirrors printable sm fromStatus w s → Mirrors printable sm fromStatus
      (items.foldl (visit printable sm status) w)
      (((items.filter fun item => fromOf printable item = status).map (targetOf printable)).foldl
        discover s)
  | [], _, _, h => h
  | item :: items, w, s, h => by
    rw [List.foldl_cons, visit]
    by_cases hfrom : fromOf printable item = status
    · rw [if_neg (not_not.mpr hfrom), List.filter_cons_of_pos (by simpa using hfrom), List.map_cons,
        List.foldl_cons]
      exact mirrors_visits status items (mirrors_discover h _)
    · rw [if_pos hfrom, List.filter_cons_of_neg (by simpa using hfrom)]
      exact mirrors_visits status items h

/-- The walk is a search along the transitions. -/
theorem walk_eq_search : ∀ (guard : ℕ) {w : Walk} {s : State PyStr},
    Mirrors printable sm fromStatus w s → Mirrors printable sm fromStatus
      (walk printable sm guard w) (search (targets printable sm) guard s)
  | 0, _, _, h => h
  | guard + 1, w, s, h => by
    cases hstack : s.stack with
    | nil => simpa only [walk, search, h.stack, hstack] using h
    | cons status stack =>
      have hnext := walk_eq_search guard (mirrors_visits status sm.transitions
        (show Mirrors printable sm fromStatus ⟨w.order, w.visited, stack⟩ ⟨s.visited, stack⟩ from
          ⟨h.visited, rfl, h.noted⟩))
      simpa only [walk, search, targets, h.stack, hstack] using hnext

/-! ## The main theorem -/

/-- The steps of a chain are those of the states that can be reached, in an order that a way to each
of them keeps. -/
theorem chainSteps_spec (hopen : isTerminal printable sm fromStatus = false)
    (hcard : (others (targets printable sm) fromStatus).encard ≤ 256) :
    ChainLaw printable sm fromStatus (chainSteps printable sm fromStatus) := by
  have hstart :
      Mirrors printable sm fromStatus ⟨[], [fromStatus], [fromStatus]⟩ (start fromStatus) :=
    ⟨rfl, rfl, [], rfl, rfl⟩
  have hmirrors := walk_eq_search 256 hstart
  obtain ⟨rest, hvisited, horder⟩ := hmirrors.noted
  rw [hmirrors.visited] at hvisited
  have hsteps : chainSteps printable sm fromStatus = notes printable sm rest := by
    rw [chainSteps, hopen, ← horder]
    rfl
  have hinv := inv_search 256 (inv_start (targets printable sm) fromStatus)
  have hroot : fromStatus ∉ rest := by
    have hnodup := hinv.nodup
    rw [hvisited, List.nodup_cons] at hnodup
    exact hnodup.1
  have hrest : ∀ target, target ∈ rest ↔ target ∈ others (targets printable sm) fromStatus := by
    intro target
    have hmem := mem_visited_search_iff (n := 256) hcard (a := target)
    rw [hvisited, List.mem_cons] at hmem
    constructor
    · intro h
      exact ⟨fun heq => hroot (heq ▸ h), hmem.mp (Or.inr h)⟩
    · rintro ⟨hne, hreach⟩
      exact (hmem.mpr hreach).resolve_left hne
  rw [hsteps]
  refine ⟨fun step => ?_, nodup_notes rest, fun step hstep => ?_⟩
  · rw [mem_notes]
    simp only [hrest]
  · obtain ⟨before, target, after, later, rfl, htarget, hnotes⟩ := exists_of_mem_notes hstep
    obtain ⟨way, hway, hbefore⟩ :=
      hinv.path (List.cons_append ▸ hvisited) (List.cons_ne_nil fromStatus before)
    refine ⟨_, later, way, target, hnotes, hway, htarget, fun state hstate hne t ht => ?_⟩
    have hmem := (List.mem_cons.mp (hbefore state hstate)).resolve_left hne
    exact mem_notes.mpr ⟨state, hmem, ht⟩

end

/-! ## A chain that is taken up in the middle -/

/-- The plan is done, and the code comes next. -/
def codeIsNext : StateMachine where
  terminalStates := []
  stepByTarget := [(lit "plan_done", .str (lit "plan")), (lit "code_done", .str (lit "code"))]
  transitions := [[(lit "from", .str (lit "plan_done")), (lit "to", .str (lit "code_done"))]]

theorem eq_of_mem_targets {printable : CodePoint → Bool} {status target : PyStr}
    (h : target ∈ targets printable codeIsNext status) : target = lit "code_done" := by
  obtain ⟨item, hitem, rfl⟩ := List.mem_map.mp h
  rw [List.mem_singleton.mp (List.mem_filter.mp hitem).1]
  rfl

theorem encard_others_codeIsNext (printable : CodePoint → Bool) (fromStatus : PyStr) :
    (others (targets printable codeIsNext) fromStatus).encard ≤ 256 := by
  have hsub : others (targets printable codeIsNext) fromStatus ⊆ {lit "code_done"} := by
    rintro target ⟨hne, hreach⟩
    cases hreach with
    | refl => exact absurd rfl hne
    | tail _ hedge => exact eq_of_mem_targets hedge
  refine (Set.encard_le_encard hsub).trans ?_
  rw [Set.encard_singleton]
  norm_num

theorem chainSteps_spec_codeIsNext : ChainLaw isScalar codeIsNext (lit "plan_done")
    (chainSteps isScalar codeIsNext (lit "plan_done")) :=
  chainSteps_spec (by decide) (encard_others_codeIsNext isScalar (lit "plan_done"))

/-- The state where a chain is taken up has a step that is not noted. -/
theorem not_orderLaw_from : ¬∀ (printable : CodePoint → Bool) (sm : StateMachine)
    (fromStatus : PyStr), isTerminal printable sm fromStatus = false →
    (others (targets printable sm) fromStatus).encard ≤ 256 →
    OrderLaw printable sm fromStatus (fun _ => True) (chainSteps printable sm fromStatus) := by
  intro h
  have hsteps : chainSteps isScalar codeIsNext (lit "plan_done") = [lit "code"] := by decide
  have hlaw := h isScalar codeIsNext (lit "plan_done") (by decide)
    (encard_others_codeIsNext isScalar (lit "plan_done"))
  rw [hsteps] at hlaw
  obtain ⟨before, after, way, target, hsplit, hway, -, hnoted⟩ := hlaw _ List.mem_cons_self
  have hplan : stepOf isScalar codeIsNext (lit "plan_done") = some (lit "plan") := by decide
  have hmem := hnoted _ (List.mem_of_head? hway.head) trivial _ hplan
  have hnil : before = [] := by
    have hlength := congrArg List.length hsplit
    rw [List.length_append, List.length_singleton, List.length_cons] at hlength
    exact List.length_eq_zero_iff.mp (by omega)
  rw [hnil] at hmem
  cases hmem

end Chain

end Icode
