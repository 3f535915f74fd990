import Icode.EventSchema
import Icode.Checks

/-!
# Contract snapshots

`contracts.json` of a package holds the small contracts the events are replayed
against : the state machine of the ticket (its states, the transitions between
them, and the phases in which it is closed, the last of which is `closed`), the
execution model (the names of steps, boundaries, outcomes and operation classes)
and the receipt that links the state `completed` to a step and its checks.

Each has a normalizer, which checks the value and keeps what the replay needs.
What it checked is a field of the result or follows from it
(`nameList_of_nameList?`), and no phase
follows `closed` (`StateMachine.nextPhase_closed`).
-/

namespace Icode

open Py

/-! ## Names -/

/-- The most characters a name of a contract may have. -/
def maxNameChars : ℕ := 128

/-- A list of 1 to `maximum` distinct names of 1 to 128 characters. -/
def NameList (maximum : ℕ) (names : List PyStr) : Prop :=
  1 ≤ names.length ∧ names.length ≤ maximum ∧
    (∀ n ∈ names, 0 < n.length ∧ n.length ≤ maxNameChars) ∧ names.Nodup

instance (maximum : ℕ) (names : List PyStr) : Decidable (NameList maximum names) :=
  inferInstanceAs (Decidable (_ ∧ _ ∧ _ ∧ _))

/-- The names of a list that satisfies the check of names. -/
def nameList? (maximum : ℕ) (v : Json) : Option (List PyStr) :=
  match v with
  | .arr xs =>
    match xs.mapM Json.text? with
    | some names => if NameList maximum names then some names else none
    | none => none
  | _ => none

theorem nameList_of_nameList? {maximum : ℕ} {v : Json} {names : List PyStr}
    (h : nameList? maximum v = some names) : NameList maximum names := by
  unfold nameList? at h
  split at h
  · split at h
    · split_ifs at h with hn
      obtain rfl := Option.some.inj h
      exact hn
    · cases h
  · cases h

theorem text?_mapM {names : List PyStr} : (names.map Json.str).mapM Json.text? = some names := by
  induction names with
  | nil => rfl
  | cons n names ih => simp [Json.text?, ih]

/-- A list of names that passes the check is read as itself. -/
theorem nameList?_of_nameList {maximum : ℕ} {names : List PyStr} (h : NameList maximum names) :
    nameList? maximum (.arr (names.map .str)) = some names := by
  simp only [nameList?, text?_mapM, if_pos h]

/-! ## The state machine -/

/-- `_MAX_TICKET_STATES` -/
def maxTicketStates : ℕ := 256

/-- `_MAX_TICKET_TRANSITIONS` -/
def maxTicketTransitions : ℕ := 4096

/-- `_MAX_CLOSE_PHASES` -/
def maxClosePhases : ℕ := 64

/-- The phases in which a ticket is closed, in order. -/
def CloseOrder (phases : List PyStr) : Prop :=
  phases.Nodup ∧ phases.getLast? = some (lit "closed")

instance (phases : List PyStr) : Decidable (CloseOrder phases) :=
  inferInstanceAs (Decidable (_ ∧ _))

/-- The ticket-state contract. -/
structure StateMachine where
  states : List PyStr
  transitions : List (PyStr × PyStr)
  closePhases : List PyStr
  statesOk : NameList maxTicketStates states
  transitionsOk : transitions.length ≤ maxTicketTransitions
  knownStates : ∀ t ∈ transitions, t.1 ∈ states ∧ t.2 ∈ states
  closePhasesOk : NameList maxClosePhases closePhases
  closeOrder : CloseOrder closePhases

/-- Why a value is no ticket-state contract. -/
inductive StateMachineError where
  /-- state_machine 必须是对象 -/
  | notObject
  /-- state_machine.states 结构无效 -/
  | states
  /-- state_machine.transitions 结构无效 -/
  | transitions
  /-- state_machine.transitions 项必须是对象 -/
  | transitionNotObject
  /-- state_machine.transitions 引用未知状态 -/
  | unknownState
  /-- state_machine.close_phases 结构无效 -/
  | closePhases
  deriving DecidableEq, Repr

/-- One item of `transitions`. -/
def normalizeTransition (states : List PyStr) (v : Json) :
    Except StateMachineError (PyStr × PyStr) :=
  match v with
  | .obj ms =>
    match Members.get ms "from", Members.get ms "to" with
    | .str a, .str b =>
      if states.contains a && states.contains b then .ok (a, b) else .error .unknownState
    | _, _ => .error .unknownState
  | _ => .error .transitionNotObject

theorem known_of_normalizeTransition {states : List PyStr} {v : Json} {t : PyStr × PyStr}
    (h : normalizeTransition states v = .ok t) : t.1 ∈ states ∧ t.2 ∈ states := by
  unfold normalizeTransition at h
  split at h
  · split at h
    · split_ifs at h with hk
      obtain rfl := Except.ok.inj h
      simpa using hk
    · cases h
  · cases h

theorem length_of_mapAll {states : List PyStr} {vs : List Json} {ts : List (PyStr × PyStr)}
    (h : mapAll (normalizeTransition states) vs = .ok ts) :
    ts.length = vs.length ∧ ∀ t ∈ ts, t.1 ∈ states ∧ t.2 ∈ states := by
  induction vs generalizing ts with
  | nil =>
    obtain rfl := Except.ok.inj h
    simp
  | cons v vs ih =>
    unfold mapAll at h
    split at h
    · cases h
    · rename_i t ht
      split at h
      · cases h
      · rename_i ts' hts
        obtain rfl := Except.ok.inj h
        obtain ⟨hlen, hknown⟩ := ih hts
        exact ⟨by simp [hlen], List.forall_mem_cons.mpr ⟨known_of_normalizeTransition ht, hknown⟩⟩

/-- `_normalize_ticket_state_machine`. -/
def normalizeTicketStateMachine (value : Json) : Except StateMachineError StateMachine :=
  match value with
  | .obj ms =>
    match hs : nameList? maxTicketStates (Members.get ms "states") with
    | none => .error .states
    | some states =>
      match Members.get ms "transitions" with
      | .arr items =>
        if hmax : maxTicketTransitions < items.length then .error .transitions
        else
          match ht : mapAll (normalizeTransition states) items with
          | .error e => .error e
          | .ok transitions =>
            match hp : nameList? maxClosePhases (Members.get ms "close_phases") with
            | none => .error .closePhases
            | some phases =>
              if h : CloseOrder phases then
                .ok ⟨states, transitions, phases, nameList_of_nameList? hs,
                  (length_of_mapAll ht).1 ▸ not_lt.mp hmax, (length_of_mapAll ht).2,
                  nameList_of_nameList? hp, h⟩
              else .error .closePhases
      | _ => .error .transitions
  | _ => .error .notObject

namespace StateMachine

variable (sm : StateMachine)

/-- The dict `_normalize_ticket_state_machine` returns. -/
def toJson : Json :=
  .obj [("states", .arr (sm.states.map .str)),
    ("transitions", .arr (sm.transitions.map fun t => .obj [("from", .str t.1), ("to", .str t.2)])),
    ("close_phases", .arr (sm.closePhases.map .str))]

/-- The phase that follows in the close order; the first one for an open ticket. -/
def nextPhase : Option PyStr → Option PyStr
  | none => sm.closePhases[0]?
  | some phase => sm.closePhases[sm.closePhases.idxOf phase + 1]?

/-- No phase follows `closed`. -/
theorem nextPhase_closed : sm.nextPhase (some (lit "closed")) = none := by
  obtain ⟨hnd, hlast⟩ := sm.closeOrder
  obtain ⟨phases, hphases⟩ := List.getLast?_eq_some_iff.mp hlast
  have hnot : lit "closed" ∉ phases := by
    rw [hphases] at hnd
    exact fun hmem => (List.nodup_append.mp hnd).2.2 _ hmem _ (by simp) rfl
  rw [nextPhase, hphases, List.idxOf_append_of_notMem hnot]
  simp

theorem mapAll_transitions {states : List PyStr} : ∀ {ts : List (PyStr × PyStr)},
    (∀ t ∈ ts, t.1 ∈ states ∧ t.2 ∈ states) →
      mapAll (normalizeTransition states)
        (ts.map fun t => .obj [("from", .str t.1), ("to", .str t.2)]) = .ok ts
  | [], _ => rfl
  | t :: ts, h => by
    have ht : normalizeTransition states (.obj [("from", .str t.1), ("to", .str t.2)]) = .ok t := by
      simp [normalizeTransition, Members.get, h t (by simp)]
    simp only [List.map_cons, mapAll, ht,
      mapAll_transitions fun x hx => h x (List.mem_cons_of_mem _ hx)]

/-- A state machine is read back from its dict. -/
theorem normalizeTicketStateMachine_toJson : normalizeTicketStateMachine sm.toJson = .ok sm := by
  obtain ⟨states, transitions, phases, hstates, hmax, hknown, hphases, horder⟩ := sm
  have hs := nameList?_of_nameList hstates
  have hp := nameList?_of_nameList hphases
  have ht := mapAll_transitions hknown
  -- each part of the dict is found under its key
  simp only [toJson, normalizeTicketStateMachine]
  split
  · rename_i h
    simp [Members.get, hs] at h
  rename_i states' h
  obtain rfl : states' = states := by simpa [Members.get, hs, eq_comm] using h
  split
  · rename_i items hitems
    obtain rfl : items = transitions.map fun t =>
        .obj [("from", .str t.1), ("to", .str t.2)] := by
      simpa [Members.get, eq_comm] using hitems
    rw [dif_neg (by simpa using hmax)]
    split
    · rename_i e he
      rw [ht] at he
      cases he
    · rename_i ts hts
      obtain rfl : transitions = ts := Except.ok.inj (ht.symm.trans hts)
      split
      · rename_i hnone
        simp [Members.get, hp] at hnone
      · rename_i phases' hphases'
        obtain rfl : phases' = phases := by simpa [Members.get, hp, eq_comm] using hphases'
        rw [dif_pos horder]
  · rename_i hne
    have hget := hne (transitions.map fun t => .obj [("from", .str t.1), ("to", .str t.2)])
    simp [Members.get] at hget

end StateMachine

/-! ## The execution model -/

/-- `_MAX_EXECUTION_MODEL_STEPS` -/
def maxExecutionModelSteps : ℕ := 4096

/-- `_MAX_EXECUTION_MODEL_ENUM_VALUES` -/
def maxExecutionModelEnumValues : ℕ := 256

/-- What `_normalize_execution_model` returns. -/
structure ExecutionModel where
  steps : List PyStr
  boundaries : List PyStr
  stepOutcomes : List PyStr
  operationClasses : List PyStr
  failureClasses : Option (List PyStr)
  successDecisionVersion : Option ℤ

/-- Why a value is no execution model. -/
inductive ExecutionModelError where
  /-- execution_model 必须是对象 -/
  | notObject
  /-- execution_model.schema_version 必须为 1 -/
  | schemaVersion
  /-- execution_model.steps 必须是数组 -/
  | stepsNotArray
  /-- execution_model.step_contracts 必须是对象 -/
  | stepContracts
  /-- execution_model.operation_classes 必须是对象 -/
  | operationClasses
  /-- execution_model.failure_policies 必须是对象 -/
  | failurePolicies
  /-- execution_model.<field> 结构无效 -/
  | names (field : PyStr)
  /-- execution_model.success_decision_version 必须为 1 -/
  | successDecisionVersion

/-- `normalize_names`. -/
def normalizeNames (field : PyStr) (rawNames : Json) (maximum : ℕ) :
    Except ExecutionModelError (List PyStr) :=
  orRaise (nameList? maximum rawNames) (.names field)

/-- A list of names of a snapshot; of the raw contract the keys of an object. -/
def namesOf (snapshot : Bool) (raw : Json) (err : ExecutionModelError) :
    Except ExecutionModelError Json :=
  if snapshot then .ok raw
  else
    match raw with
    | .obj ms => .ok (.arr ((Dict.keys ms).map .str))
    | _ => .error err

/-- The steps; here a snapshot that is no array has an error of its own. -/
def stepNamesOf (snapshot : Bool) (ms : Members) : Except ExecutionModelError Json :=
  if snapshot then
    match ms.get "steps" with
    | .arr xs => .ok (.arr xs)
    | _ => .error .stepsNotArray
  else namesOf false (ms.get "step_contracts") .stepContracts

/-- The failure classes, if the field is there. -/
def failureClassesOf (snapshot : Bool) (ms : Members) :
    Except ExecutionModelError (Option (List PyStr)) :=
  let field : PyStr := if snapshot then "failure_classes" else "failure_policies"
  if Dict.has ms field then do
    let raw ← namesOf snapshot (ms.get field) .failurePolicies
    let names ← normalizeNames "failure_classes" raw maxExecutionModelEnumValues
    pure (some names)
  else .ok none

/-- The marker of a snapshot whose success decisions are fixed. -/
def successDecisionOf (snapshot : Bool) (ms : Members) : Except ExecutionModelError (Option ℤ) :=
  if snapshot && Dict.has ms (lit "success_decision_version") then
    if (ms.get "success_decision_version").isExactly 1 then .ok (some 1)
    else .error .successDecisionVersion
  else .ok none

/-- Names in the order of Python's `str`. -/
def nameLe (a b : PyStr) : Prop :=
  strLe a b = true

instance : DecidableRel nameLe := fun a b =>
  inferInstanceAs (Decidable (strLe a b = true))

instance : Std.Total nameLe :=
  ⟨strLe_total⟩

instance : IsTrans PyStr nameLe :=
  ⟨fun _ _ _ => strLe_trans⟩

/-- `sorted(names)`. -/
def sortNames (names : List PyStr) : List PyStr :=
  names.insertionSort nameLe

/-- `_normalize_execution_model(value, snapshot=snapshot)`. -/
def normalizeExecutionModel (value : Json) (snapshot : Bool) :
    Except ExecutionModelError ExecutionModel :=
  match value with
  | .obj ms => do
    require ((Members.get ms "schema_version").isExactly 1) .schemaVersion
    let rawSteps ← stepNamesOf snapshot ms
    let steps ← normalizeNames "steps" rawSteps maxExecutionModelSteps
    let boundaries ← normalizeNames "boundaries" (Members.get ms "boundaries")
      maxExecutionModelEnumValues
    let stepOutcomes ← normalizeNames "step_outcomes" (Members.get ms "step_outcomes")
      maxExecutionModelEnumValues
    let rawClasses ← namesOf snapshot (Members.get ms "operation_classes") .operationClasses
    let operationClasses ← normalizeNames "operation_classes" rawClasses
      maxExecutionModelEnumValues
    let failureClasses ← failureClassesOf snapshot ms
    let successDecisionVersion ← successDecisionOf snapshot ms
    pure
      { steps := sortNames steps
        boundaries := boundaries
        stepOutcomes := stepOutcomes
        operationClasses := sortNames operationClasses
        failureClasses := failureClasses.map sortNames
        successDecisionVersion := successDecisionVersion }
  | _ => .error .notObject

/-- The dict `_normalize_execution_model` returns. -/
def ExecutionModel.toJson (model : ExecutionModel) : Json :=
  let names (ns : List PyStr) : Json := .arr (ns.map .str)
  let members : Members :=
    [("schema_version", .int 1), ("steps", names model.steps),
      ("boundaries", names model.boundaries), ("step_outcomes", names model.stepOutcomes),
      ("operation_classes", names model.operationClasses)]
  let failures : Members :=
    match model.failureClasses with
    | some ns => [("failure_classes", names ns)]
    | none => []
  let decision : Members :=
    match model.successDecisionVersion with
    | some n => [("success_decision_version", .int n)]
    | none => []
  .obj (members ++ failures ++ decision)

theorem nameList_sortNames {maximum : ℕ} {names : List PyStr} (h : NameList maximum names) :
    NameList maximum (sortNames names) := by
  have hp : (sortNames names).Perm names := List.perm_insertionSort _ names
  obtain ⟨hmin, hmax, hchars, hnd⟩ := h
  refine ⟨by rwa [hp.length_eq], by rwa [hp.length_eq], fun n hn => hchars n (hp.subset hn), ?_⟩
  exact hp.nodup_iff.mpr hnd

theorem sortNames_sortNames (names : List PyStr) : sortNames (sortNames names) = sortNames names :=
  (List.pairwise_insertionSort _ names).insertionSort_eq

theorem nameList_of_failureClassesOf {snapshot : Bool} {ms : Members} {names : List PyStr}
    (h : failureClassesOf snapshot ms = .ok (some names)) :
    NameList maxExecutionModelEnumValues names := by
  unfold failureClassesOf at h
  generalize (if snapshot = true then lit "failure_classes" else lit "failure_policies") = field at h
  by_cases hf : Dict.has ms field = true
  · simp only [hf, if_true, bind_eq_ok, normalizeNames, orRaise_eq_ok] at h
    obtain ⟨raw, -, ns, hns, h⟩ := h
    obtain rfl : ns = names := Option.some.inj (Except.ok.inj h)
    exact nameList_of_nameList? hns
  · simp only [hf] at h
    cases h

/-- The model of a snapshot is read back from its dict. -/
theorem normalizeExecutionModel_toJson {v : Json} {snapshot : Bool} {model : ExecutionModel}
    (h : normalizeExecutionModel v snapshot = .ok model) :
    normalizeExecutionModel model.toJson true = .ok model := by
  unfold normalizeExecutionModel at h
  split at h
  · simp only [bind_eq_ok, require_eq_ok, normalizeNames, orRaise_eq_ok] at h
    obtain ⟨-, -, rawSteps, -, steps, hsteps, bounds, hbounds, outcomes, houtcomes, rawClasses, -,
      classes, hclasses, failures, hfailures, decision, hdecision, hmodel⟩ := h
    obtain rfl := Except.ok.inj hmodel
    have hnames : ∀ {maximum : ℕ} {raw : Json} {names : List PyStr},
        nameList? maximum raw = some names →
          nameList? maximum (.arr ((sortNames names).map .str)) = some (sortNames names) :=
      fun h => nameList?_of_nameList (nameList_sortNames (nameList_of_nameList? h))
    have hkept : ∀ {maximum : ℕ} {raw : Json} {names : List PyStr},
        nameList? maximum raw = some names →
          nameList? maximum (.arr (names.map .str)) = some names :=
      fun h => nameList?_of_nameList (nameList_of_nameList? h)
    have hdec : decision = none ∨ decision = some 1 := by
      unfold successDecisionOf at hdecision
      split_ifs at hdecision <;> cases hdecision <;> simp
    rcases hdec with rfl | rfl <;> cases failures with
    | none =>
      simp [normalizeExecutionModel, ExecutionModel.toJson, stepNamesOf, namesOf, normalizeNames,
        failureClassesOf, successDecisionOf, Members.get, Dict.has, hnames hsteps, hkept hbounds,
        hkept houtcomes, hnames hclasses, sortNames_sortNames]
    | some fs =>
      have hfs := nameList?_of_nameList (nameList_sortNames (nameList_of_failureClassesOf hfailures))
      simp [normalizeExecutionModel, ExecutionModel.toJson, stepNamesOf, namesOf, normalizeNames,
        failureClassesOf, successDecisionOf, Members.get, Dict.has, hnames hsteps, hkept hbounds,
        hkept houtcomes, hnames hclasses, hfs, sortNames_sortNames]
  · cases h

/-! ## The completion receipt -/

/-- What `_normalize_completion_receipt` returns: the step that `completed` stands for, and the
boundaries whose check it needs. -/
structure CompletionReceipt where
  step : PyStr
  requiredChecks : List PyStr
  names : NameList maxExecutionModelEnumValues requiredChecks

/-- Why a value is no completion receipt. -/
inductive CompletionReceiptError where
  /-- completion_receipt 必须是对象 -/
  | notObject
  /-- completion_receipt 字段集合无效 -/
  | fields
  /-- completion_receipt.schema_version 必须为 1 -/
  | schemaVersion
  /-- completion_receipt.target 必须为 completed -/
  | target
  /-- completion_receipt.step 结构无效 -/
  | step
  /-- completion_receipt.required_checks 结构无效 -/
  | requiredChecks
  deriving DecidableEq, Repr

/-- `_normalize_completion_receipt`. -/
def normalizeCompletionReceipt (value : Json) : Except CompletionReceiptError CompletionReceipt :=
  match value with
  | .obj ms =>
    if !Members.keysAre ms ["schema_version", "target", "step", "required_checks"] then
      .error .fields
    else if !(Members.get ms "schema_version").isExactly 1 then .error .schemaVersion
    else if !(Members.get ms "target").isText "completed" then .error .target
    else
      match Members.get ms "step" with
      | .str step =>
        if step.isEmpty || maxNameChars < step.length then .error .step
        else
          match h : nameList? maxExecutionModelEnumValues (Members.get ms "required_checks") with
          | some names => .ok ⟨step, names, nameList_of_nameList? h⟩
          | none => .error .requiredChecks
      | _ => .error .step
  | _ => .error .notObject

end Icode
