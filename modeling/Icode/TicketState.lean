import Icode.ContractSnapshot

/-!
# The mirror of the ticket state

`TicketMirror` (`_TicketStateMirror`) replays the events of a ticket against the
state machine of its contract snapshot and collects a `TicketProblem` for each event that does not fit. It keeps only
the current state, the close phase and two counters.

`TicketHistory` says over the whole history what the mirror is for : the
`state_changed` events are a path of declared transitions from the initial state
to the one in the metadata, and the events of the close order run through the
declared phases. A history without problems has the path
(`statePath_of_finish`). Its close events are a run of the declared order exactly
when every `close_phase` names a phase (`closeRun_iff_of_finish`) : after the
last phase the mirror expects no next one, and takes an absent `to` for it.
-/

namespace Icode

open Py

/-! ## The mirror -/

/-- `_TICKET_INITIAL_STATES` -/
def ticketInitialStates : Dict PyStr PyStr :=
  [("init", "init_in_progress"), ("plan", "init_in_progress"), ("log", "log_in_progress"),
    ("debug-init", "debug_in_progress"), ("debug-log", "debug_in_progress")]

/-- `_DELIVERY_VERDICTS` -/
def deliveryVerdicts : List PyStr :=
  ["verified", "verification_pending", "blocked", "not_applicable"]

/-- What the mirror reports; an index is that of the event. -/
inductive TicketProblem where
  /-- contracts.json state_machine 结构无效 -/
  | stateMachine
  /-- 首条事件必须是 ticket_created 或 migration_applied -/
  | firstEvent
  /-- ticket_created 事件只能出现一次 -/
  | createdTwice
  /-- 事件链同时含 ticket_created 与 migration_applied，工单来源多义 -/
  | createdAndMigrated
  /-- ticket_created 必须是事件链首事件 -/
  | createdNotFirst
  /-- ticket_created.birth_kind 非法或缺失 -/
  | birthKind
  /-- ticket_created.birth_kind 与 metadata.debug 不一致 -/
  | debug
  /-- migration_applied 事件只能出现一次 -/
  | migratedTwice
  /-- 第 i 条 state_changed.from/to 不在状态词表 -/
  | unknownState (i : ℕ)
  /-- 第 i 条 state_changed.from 与事件序列当前状态不一致 -/
  | source (i : ℕ)
  /-- 第 i 条 state_changed 记录非法状态流转 -/
  | transition (i : ℕ)
  /-- 第 i 条 completed 流转缺合法 delivery_verdict -/
  | deliveryMissing (i : ℕ)
  /-- 第 i 条非 completed 流转携带 delivery_verdict -/
  | deliveryForbidden (i : ℕ)
  /-- 第 i 条 close_phase 顺序非法 -/
  | closeOrder (i : ℕ)
  /-- 第 i 条 ticket_reopened 只能从 closed 原子解冻到 null -/
  | reopened (i : ℕ)
  /-- 事件序列最终状态与 metadata.status 不一致 -/
  | finalState
  /-- 事件序列最终 close_state 与 metadata.close_state 不一致 -/
  | finalCloseState
  deriving DecidableEq, Repr

/-- `_TicketStateMirror`. -/
structure TicketMirror where
  enabled : Bool
  metadata : Members
  stateMachine : Option StateMachine
  problems : List TicketProblem
  currentState : Option PyStr
  closeState : Option PyStr
  birthCount : ℕ
  migrationCount : ℕ

namespace TicketMirror

/-- `_TicketStateMirror(state_machine, metadata)`; an argument that is not given is `none`. -/
def init (stateMachine : Option Json) (metadata : Option Members) : TicketMirror :=
  let fields := metadata.getD []
  let machine := stateMachine.filter fun v => !v.pyEq .null
  let m : TicketMirror :=
    { enabled := metadata.isSome && (Members.get fields "schema_version").isExactly 3 && machine.isSome
      metadata := fields
      stateMachine := none
      problems := []
      currentState := none
      closeState := none
      birthCount := 0
      migrationCount := 0 }
  if !m.enabled then m
  else
    match normalizeTicketStateMachine (machine.getD .null) with
    | .ok sm => { m with stateMachine := some sm }
    | .error _ => { m with problems := [.stateMachine] }

/-- `self.problems.append(p)` for each of `ps`. -/
def report (m : TicketMirror) (ps : List TicketProblem) : TicketMirror :=
  { m with problems := m.problems ++ ps }

/-- The branch of `ticket_created`. -/
def created (m : TicketMirror) (payload : Members) (i : ℕ) : TicketMirror :=
  let initialState := (payload.get "birth_kind").text?.bind (Dict.get? ticketInitialStates)
  let expectedDebug := textSatisfies (fun s => (lit "debug-").isPrefixOf s) (payload.get "birth_kind")
  { m.report
      (issueUnless (m.birthCount + 1 ≤ 1) .createdTwice ++
        issueUnless (m.migrationCount == 0) .createdAndMigrated ++
        issueUnless (i == 1) .createdNotFirst ++
        issueUnless initialState.isSome .birthKind ++
        issueUnless ((m.metadata.get "debug").truthy == expectedDebug) .debug) with
    birthCount := m.birthCount + 1
    currentState := initialState }

/-- The branch of `migration_applied`. -/
def migrated (m : TicketMirror) : TicketMirror :=
  { m.report
      (issueUnless (m.migrationCount + 1 ≤ 1) .migratedTwice ++
        issueUnless (m.birthCount == 0) .createdAndMigrated) with
    migrationCount := m.migrationCount + 1 }

/-- The branch of `state_changed`. -/
def stateChanged (m : TicketMirror) (sm : StateMachine) (payload : Members) (i : ℕ) :
    TicketMirror :=
  match payload.get "from", payload.get "to" with
  | .str source, .str target =>
    if !sm.states.contains source || !sm.states.contains target then m.report [.unknownState i]
    else
      let delivery := payload.get "delivery_verdict"
      { m.report
          (issueUnless (m.currentState.all fun s => source == s) (.source i) ++
            issueUnless (sm.transitions.contains (source, target)) (.transition i) ++
            issueUnless (target != lit "completed" ||
              textSatisfies (deliveryVerdicts.contains ·) delivery) (.deliveryMissing i) ++
            issueUnless (target == lit "completed" || delivery.pyEq .null)
              (.deliveryForbidden i)) with
        currentState := some target }
  | _, _ => m.report [.unknownState i]

/-- The branch of `close_phase`. -/
def closePhase (m : TicketMirror) (sm : StateMachine) (payload : Members) (i : ℕ) : TicketMirror :=
  let source := payload.get "from"
  let target := payload.get "to"
  let reported := m.report (issueUnless
    (source.pyEq (Json.ofText? m.closeState) && target.pyEq (Json.ofText? (sm.nextPhase m.closeState)))
    (.closeOrder i))
  match target with
  | .str phase =>
    if sm.closePhases.contains phase then { reported with closeState := some phase } else reported
  | _ => reported

/-- The branch of `ticket_reopened`. -/
def reopened (m : TicketMirror) (payload : Members) (i : ℕ) : TicketMirror :=
  { m.report (issueUnless
      (m.closeState == some (lit "closed") && (payload.get "from").isText "closed" &&
        (payload.get "to").pyEq .null) (.reopened i)) with
    closeState := none }

/-- The two parts of `consume`: the birth of the ticket, and its states. -/
def consumeBirth (m : TicketMirror) (event payload : Members) (i : ℕ) : TicketMirror :=
  if isKind event "ticket_created" then m.created payload i
  else if isKind event "migration_applied" then m.migrated
  else m

def consumeState (m : TicketMirror) (sm : StateMachine) (event payload : Members) (i : ℕ) :
    TicketMirror :=
  if isKind event "state_changed" then m.stateChanged sm payload i
  else if isKind event "close_phase" then m.closePhase sm payload i
  else if isKind event "ticket_reopened" then m.reopened payload i
  else m

/-- `consume`. -/
def consume (m : TicketMirror) (event : Members) (i : ℕ) : TicketMirror :=
  if !m.enabled then m
  else
    match m.stateMachine, payload? event with
    | some sm, some payload =>
      let m := m.report (issueUnless
        (i != 1 || textSatisfies (allowedFirstEvent.contains ·) (event.get "event_type"))
        .firstEvent)
      (m.consumeBirth event payload i).consumeState sm event payload i
    | _, _ => m

/-- `finish`. -/
def finish (m : TicketMirror) : List TicketProblem :=
  if !m.enabled then []
  else
    match m.stateMachine with
    | some _ =>
      m.problems ++
        issueUnless (m.currentState.all fun s => (m.metadata.get "status").isText s) .finalState ++
        issueUnless ((m.metadata.get "close_state").pyEq (Json.ofText? m.closeState)) .finalCloseState
    | none => m.problems

/-- The mirror after the events; `i` is the number of events before them. -/
def consumeAll (m : TicketMirror) (i : ℕ) : List Members → TicketMirror
  | [] => m
  | event :: events => (m.consume event (i + 1)).consumeAll (i + 1) events

/-! ## What one event does -/

section Consume

variable (m : TicketMirror) (event payload : Members) (i : ℕ)

@[simp] theorem report_currentState (ps : List TicketProblem) :
    (m.report ps).currentState = m.currentState :=
  rfl

@[simp] theorem report_closeState (ps : List TicketProblem) :
    (m.report ps).closeState = m.closeState :=
  rfl

/-- The parts of the mirror no event changes. -/
structure SameContract (m n : TicketMirror) : Prop where
  enabled : n.enabled = m.enabled
  metadata : n.metadata = m.metadata
  stateMachine : n.stateMachine = m.stateMachine
  problems : ∃ ps, n.problems = m.problems ++ ps

theorem SameContract.refl : SameContract m m :=
  ⟨rfl, rfl, rfl, [], by simp⟩

theorem SameContract.trans {m n k : TicketMirror} (h : SameContract m n) (h' : SameContract n k) :
    SameContract m k := by
  obtain ⟨ps, hps⟩ := h.problems
  obtain ⟨qs, hqs⟩ := h'.problems
  exact ⟨h'.enabled.trans h.enabled, h'.metadata.trans h.metadata,
    h'.stateMachine.trans h.stateMachine, ps ++ qs, by rw [hqs, hps, List.append_assoc]⟩

theorem sameContract_report (ps : List TicketProblem) : SameContract m (m.report ps) :=
  ⟨rfl, rfl, rfl, ps, rfl⟩

theorem sameContract_consumeBirth : SameContract m (m.consumeBirth event payload i) := by
  unfold consumeBirth
  split_ifs
  · exact ⟨rfl, rfl, rfl, _, rfl⟩
  · exact ⟨rfl, rfl, rfl, _, rfl⟩
  · exact SameContract.refl m

theorem sameContract_stateChanged (sm : StateMachine) :
    SameContract m (m.stateChanged sm payload i) := by
  unfold stateChanged
  split
  · split_ifs
    · exact sameContract_report m _
    · exact ⟨rfl, rfl, rfl, _, rfl⟩
  · exact sameContract_report m _

theorem sameContract_closePhase (sm : StateMachine) : SameContract m (m.closePhase sm payload i) := by
  unfold closePhase
  dsimp only
  split
  · split_ifs <;> exact ⟨rfl, rfl, rfl, _, rfl⟩
  · exact sameContract_report m _

theorem sameContract_consumeState (sm : StateMachine) :
    SameContract m (m.consumeState sm event payload i) := by
  unfold consumeState
  split_ifs
  · exact sameContract_stateChanged m payload i sm
  · exact sameContract_closePhase m payload i sm
  · exact ⟨rfl, rfl, rfl, _, rfl⟩
  · exact SameContract.refl m

theorem sameContract_consume : SameContract m (m.consume event i) := by
  unfold consume
  split
  · exact SameContract.refl m
  · split
    · exact ((sameContract_report m _).trans (sameContract_consumeBirth _ _ _ _)).trans
        (sameContract_consumeState _ _ _ _ _)
    · exact SameContract.refl m

theorem sameContract_consumeAll (events : List Members) :
    ∀ (m : TicketMirror) (i : ℕ), SameContract m (m.consumeAll i events) := by
  induction events with
  | nil => exact fun m _ => SameContract.refl m
  | cons event events ih =>
    intro m i
    exact (sameContract_consume m event (i + 1)).trans (ih _ _)

end Consume

/-- What an event that is not reported is, and what it does to the two states. -/
inductive Fits (sm : StateMachine) (m : TicketMirror) (event payload : Members) (i : ℕ)
    (n : TicketMirror) : Prop where
  | created {kind state : PyStr} (htype : event.get "event_type" = .str "ticket_created")
      (hfirst : i = 1) (hkind : payload.get "birth_kind" = .str kind)
      (hstate : Dict.get? ticketInitialStates kind = some state)
      (hcurrent : n.currentState = some state) (hclose : n.closeState = m.closeState)
  | stateChanged {a b : PyStr} (htype : event.get "event_type" = .str "state_changed")
      (hsource : payload.get "from" = .str a) (htarget : payload.get "to" = .str b)
      (hdeclared : (a, b) ∈ sm.transitions) (hstate : ∀ s, m.currentState = some s → a = s)
      (hcurrent : n.currentState = some b) (hclose : n.closeState = m.closeState)
  | closePhase (htype : event.get "event_type" = .str "close_phase")
      (hsource : payload.get "from" = Json.ofText? m.closeState)
      (htarget : payload.get "to" = Json.ofText? (sm.nextPhase m.closeState))
      (hcurrent : n.currentState = m.currentState)
      (hclose : n.closeState = (sm.nextPhase m.closeState).or m.closeState)
  | reopened (htype : event.get "event_type" = .str "ticket_reopened")
      (hclosed : m.closeState = some (lit "closed"))
      (hcurrent : n.currentState = m.currentState) (hclose : n.closeState = none)
  | other (hcreated : event.get "event_type" ≠ .str "ticket_created")
      (hstate : event.get "event_type" ≠ .str "state_changed")
      (hphase : event.get "event_type" ≠ .str "close_phase")
      (hreopen : event.get "event_type" ≠ .str "ticket_reopened")
      (hcurrent : n.currentState = m.currentState) (hclose : n.closeState = m.closeState)

section Fits

variable {sm : StateMachine} {m : TicketMirror} {event payload : Members} {i : ℕ}

theorem nextPhase_mem {c : Option PyStr} {phase : PyStr} (h : sm.nextPhase c = some phase) :
    phase ∈ sm.closePhases := by
  cases c <;> exact List.mem_of_getElem? h

theorem fits_created (htype : event.get "event_type" = .str "ticket_created")
    (h : (m.created payload i).problems = []) :
    Fits sm m event payload i (m.created payload i) := by
  simp only [created, report, List.append_eq_nil_iff, issueUnless_eq_nil, beq_iff_eq] at h
  obtain ⟨-, ⟨⟨⟨-, -⟩, hi⟩, hstate⟩, -⟩ := h
  obtain ⟨state, hstate⟩ := Option.isSome_iff_exists.mp hstate
  obtain ⟨kind, hkind, hinit⟩ := Option.bind_eq_some_iff.mp hstate
  exact .created htype hi (Json.text?_eq_some.mp hkind) hinit hstate rfl

theorem fits_stateChanged (htype : event.get "event_type" = .str "state_changed")
    (h : (m.stateChanged sm payload i).problems = []) :
    Fits sm m event payload i (m.stateChanged sm payload i) := by
  unfold stateChanged at h ⊢
  split at h
  · rename_i a b ha hb
    split_ifs at h ⊢ with hknown
    · simp [report] at h
    · simp only [report, List.append_eq_nil_iff, issueUnless_eq_nil, List.contains_iff_mem,
        Option.all_eq_true, beq_iff_eq] at h
      obtain ⟨-, ⟨⟨hsource, hdeclared⟩, -⟩, -⟩ := h
      exact .stateChanged htype ha hb hdeclared hsource rfl rfl
  · simp [report] at h

theorem fits_closePhase (htype : event.get "event_type" = .str "close_phase")
    (h : (m.closePhase sm payload i).problems = []) :
    Fits sm m event payload i (m.closePhase sm payload i) := by
  have hp : (m.closePhase sm payload i).problems = m.problems ++ issueUnless
      ((payload.get "from").pyEq (Json.ofText? m.closeState) &&
        (payload.get "to").pyEq (Json.ofText? (sm.nextPhase m.closeState))) (.closeOrder i) := by
    unfold closePhase
    dsimp only
    split
    · split_ifs <;> rfl
    · rfl
  simp only [hp, List.append_eq_nil_iff, issueUnless_eq_nil, Bool.and_eq_true,
    Json.pyEq_ofText?] at h
  obtain ⟨-, hsource, htarget⟩ := h
  refine .closePhase htype hsource htarget ?_ ?_
  · unfold closePhase
    dsimp only
    split
    · split_ifs <;> rfl
    · rfl
  · unfold closePhase
    rw [htarget]
    cases hnext : sm.nextPhase m.closeState with
    | none => rfl
    | some phase => simp [Json.ofText?, nextPhase_mem hnext]

theorem fits_reopened (htype : event.get "event_type" = .str "ticket_reopened")
    (h : (m.reopened payload i).problems = []) :
    Fits sm m event payload i (m.reopened payload i) := by
  simp only [reopened, report, List.append_eq_nil_iff, issueUnless_eq_nil, Bool.and_eq_true,
    beq_iff_eq] at h
  exact .reopened htype h.2.1.1 rfl rfl

/-- An event that is not reported fits. -/
theorem fits_of_consume (hon : m.enabled = true) (hsm : m.stateMachine = some sm)
    (hp : payload? event = some payload) (h : (m.consume event i).problems = []) :
    Fits sm m event payload i (m.consume event i) := by
  simp only [consume, hon, Bool.not_true, Bool.false_eq_true, if_false, hsm, hp] at h ⊢
  set r := m.report (issueUnless
    (i != 1 || textSatisfies (allowedFirstEvent.contains ·) (event.get "event_type"))
    .firstEvent) with hr
  have hsame : ∀ n, Fits sm r event payload i n → Fits sm m event payload i n := by
    intro n hn
    cases hn with
    | created htype hfirst hkind hstate hcurrent hclose =>
      exact .created htype hfirst hkind hstate hcurrent hclose
    | stateChanged htype hsource htarget hdeclared hstate hcurrent hclose =>
      exact .stateChanged htype hsource htarget hdeclared hstate hcurrent hclose
    | closePhase htype hsource htarget hcurrent hclose =>
      exact .closePhase htype hsource htarget hcurrent hclose
    | reopened htype hclosed hcurrent hclose => exact .reopened htype hclosed hcurrent hclose
    | other hcreated hstate hphase hreopen hcurrent hclose =>
      exact .other hcreated hstate hphase hreopen hcurrent hclose
  refine hsame _ ?_
  clear_value r
  unfold consumeBirth consumeState at h ⊢
  by_cases hcreated : event.get "event_type" = .str "ticket_created"
  · simp only [isKind, hcreated, Json.isText_str, lit_inj] at h ⊢
    exact fits_created hcreated h
  by_cases hstate : event.get "event_type" = .str "state_changed"
  · simp only [isKind, hstate, Json.isText_str, lit_inj] at h ⊢
    exact fits_stateChanged hstate h
  by_cases hphase : event.get "event_type" = .str "close_phase"
  · simp only [isKind, hphase, Json.isText_str, lit_inj] at h ⊢
    exact fits_closePhase hphase h
  by_cases hreopen : event.get "event_type" = .str "ticket_reopened"
  · simp only [isKind, hreopen, Json.isText_str, lit_inj] at h ⊢
    exact fits_reopened hreopen h
  · refine .other hcreated hstate hphase hreopen ?_ ?_
    · simp only [isKind_iff, hcreated, hstate, hphase, hreopen, if_false]
      split_ifs <;> rfl
    · simp only [isKind_iff, hcreated, hstate, hphase, hreopen, if_false]
      split_ifs <;> rfl

end Fits

end TicketMirror

/-! ## The history of a ticket -/

/-- `from` and `to` of the `state_changed` events. -/
def stateMoves (events : List Members) : List (Json × Json) :=
  (events.filter fun e => isKind e "state_changed").map fun e =>
    (payloadGet e "from", payloadGet e "to")

/-- The moves follow one another along declared transitions, from the first state to the
last. -/
inductive StatePath (sm : StateMachine) : Json → List (Json × Json) → Json → Prop
  | nil (s : Json) : StatePath sm s [] s
  | cons {a b : PyStr} {moves : List (Json × Json)} {t : Json} (h : (a, b) ∈ sm.transitions)
      (hrest : StatePath sm (.str b) moves t) : StatePath sm (.str a) ((.str a, .str b) :: moves) t

/-- What an event does to the close phase. -/
inductive CloseStep (sm : StateMachine) : Option PyStr → Members → Option PyStr → Prop
  /-- `close_phase` moves from the current phase to the next one. -/
  | phase {c : Option PyStr} {e : Members} {next : PyStr}
      (htype : e.get "event_type" = .str "close_phase") (hsource : payloadGet e "from" = Json.ofText? c)
      (htarget : payloadGet e "to" = .str next) (hnext : sm.nextPhase c = some next) :
      CloseStep sm c e (some next)
  /-- `ticket_reopened` occurs when the ticket is closed. -/
  | reopen {c : Option PyStr} {e : Members} (htype : e.get "event_type" = .str "ticket_reopened")
      (hclosed : c = some (lit "closed")) : CloseStep sm c e none
  /-- No other event changes it. -/
  | other {c : Option PyStr} {e : Members} (hphase : e.get "event_type" ≠ .str "close_phase")
      (hreopen : e.get "event_type" ≠ .str "ticket_reopened") : CloseStep sm c e c

/-- The events take the close phase from the first one to the last. -/
inductive CloseRun (sm : StateMachine) : Option PyStr → List Members → Option PyStr → Prop
  | nil (c : Option PyStr) : CloseRun sm c [] c
  | cons {c d f : Option PyStr} {e : Members} {es : List Members} (h : CloseStep sm c e d)
      (hrest : CloseRun sm d es f) : CloseRun sm c (e :: es) f

/-- The events are a history of the ticket with this metadata. -/
structure TicketHistory (sm : StateMachine) (metadata : Members) (events : List Members) :
    Prop where
  /-- The states are a path to `metadata.status`, from the initial state of the birth kind
  when the ticket was created. -/
  states : ∃ start, StatePath sm start (stateMoves events) (metadata.get "status") ∧
    ∀ e, events.head? = some e → e.get "event_type" = .str "ticket_created" →
      ∃ kind initial, payloadGet e "birth_kind" = .str kind ∧
        Dict.get? ticketInitialStates kind = some initial ∧ start = .str initial
  /-- The close phases run to `metadata.close_state`. -/
  closing : ∃ last, CloseRun sm none events last ∧ metadata.get "close_state" = Json.ofText? last

/-- Every `close_phase` event names the phase it moves to. -/
def ClosePhasesNamed (events : List Members) : Prop :=
  ∀ e ∈ events, e.get "event_type" = .str "close_phase" → payloadGet e "to" ≠ .null

theorem closePhasesNamed_of_closeRun {sm : StateMachine} {c d : Option PyStr}
    {events : List Members} (h : CloseRun sm c events d) : ClosePhasesNamed events := by
  induction h with
  | nil c => simp [ClosePhasesNamed]
  | cons hstep hrest ih =>
    refine List.forall_mem_cons.mpr ⟨fun htype => ?_, ih⟩
    cases hstep with
    | phase _ _ htarget _ => simp [htarget]
    | reopen hreopen _ => simp [htype] at hreopen
    | other hphase _ => exact absurd htype hphase

theorem stateMoves_cons_of_ne {e : Members} {es : List Members}
    (h : e.get "event_type" ≠ .str "state_changed") : stateMoves (e :: es) = stateMoves es := by
  simp [stateMoves, h]

theorem stateMoves_cons {e : Members} {es : List Members}
    (h : e.get "event_type" = .str "state_changed") :
    stateMoves (e :: es) = (payloadGet e "from", payloadGet e "to") :: stateMoves es := by
  simp [stateMoves, h]

namespace TicketMirror

/-- A mirror that replays the state machine `sm`. -/
structure Replays (m : TicketMirror) (sm : StateMachine) : Prop where
  enabled : m.enabled = true
  stateMachine : m.stateMachine = some sm

variable {sm : StateMachine} {m : TicketMirror}

theorem Replays.consume (h : m.Replays sm) (event : Members) (i : ℕ) :
    (m.consume event i).Replays sm := by
  have hs := sameContract_consume m event i
  exact ⟨hs.enabled.trans h.enabled, hs.stateMachine.trans h.stateMachine⟩

/-- What a run without problems ends with. -/
theorem Replays.of_finish (h : m.Replays sm) (hf : m.finish = []) :
    m.problems = [] ∧ (∀ s, m.currentState = some s → m.metadata.get "status" = .str s) ∧
      m.metadata.get "close_state" = Json.ofText? m.closeState := by
  simp only [finish, h.enabled, Bool.not_true, Bool.false_eq_true, if_false, h.stateMachine,
    List.append_eq_nil_iff, issueUnless_eq_nil, Option.all_eq_true, Json.isText_iff,
    Json.pyEq_ofText?] at hf
  exact ⟨hf.1.1, hf.1.2, hf.2⟩

/-- A run without problems has none after its first event. -/
theorem problems_eq_nil_of_finish {event : Members} {events : List Members} {i : ℕ}
    (h : m.Replays sm) (hf : (m.consumeAll i (event :: events)).finish = []) :
    (m.consume event (i + 1)).problems = [] := by
  have hs := sameContract_consumeAll (event :: events) m i
  have hrun : (m.consumeAll i (event :: events)).Replays sm :=
    ⟨hs.enabled.trans h.enabled, hs.stateMachine.trans h.stateMachine⟩
  obtain ⟨ps, hps⟩ := (sameContract_consumeAll events (m.consume event (i + 1)) (i + 1)).problems
  have hnil := (hrun.of_finish hf).1
  rw [consumeAll, hps] at hnil
  exact (List.append_eq_nil_iff.mp hnil).1

/-- Past the first event, a run without problems follows a path from the current state. -/
theorem statePath_of_finish {events : List Members} :
    ∀ {m : TicketMirror} {i : ℕ}, m.Replays sm → 1 ≤ i →
      (∀ e ∈ events, ∃ p, payload? e = some p) → (m.consumeAll i events).finish = [] →
      ∃ start, StatePath sm start (stateMoves events) (m.metadata.get "status") ∧
        ∀ s, m.currentState = some s → start = .str s := by
  induction events with
  | nil =>
    intro m i hm _ _ hf
    refine ⟨m.metadata.get "status", StatePath.nil _, (hm.of_finish hf).2.1⟩
  | cons e es ih =>
    intro m i hm hi hpay hf
    obtain ⟨p, hp⟩ := hpay e (by simp)
    have hfit := fits_of_consume hm.enabled hm.stateMachine hp (problems_eq_nil_of_finish hm hf)
    obtain ⟨start, hpath, hstart⟩ := ih (hm.consume e (i + 1)) (by omega)
      (fun x hx => hpay x (List.mem_cons_of_mem _ hx)) hf
    rw [(sameContract_consume m e (i + 1)).metadata] at hpath
    cases hfit with
    | created htype hfirst => omega
    | stateChanged htype hsource htarget hdeclared hstate hcurrent hclose =>
      rename_i a b
      rw [stateMoves_cons htype, payloadGet_eq hp, payloadGet_eq hp, hsource, htarget]
      rw [hstart b hcurrent] at hpath
      exact ⟨.str a, .cons hdeclared hpath, fun s hs => by rw [hstate s hs]⟩
    | closePhase htype hsource htarget hcurrent hclose =>
      rw [stateMoves_cons_of_ne (by simp [htype])]
      exact ⟨start, hpath, fun s hs => hstart s (hcurrent.trans hs)⟩
    | reopened htype hclosed hcurrent hclose =>
      rw [stateMoves_cons_of_ne (by simp [htype])]
      exact ⟨start, hpath, fun s hs => hstart s (hcurrent.trans hs)⟩
    | other hcreated hstate hphase hreopen hcurrent hclose =>
      rw [stateMoves_cons_of_ne hstate]
      exact ⟨start, hpath, fun s hs => hstart s (hcurrent.trans hs)⟩

/-- The step of the close order is the one the mirror makes, unless a `close_phase` names no
phase. -/
theorem Fits.closeStep_iff {event payload : Members} {i : ℕ} {n : TicketMirror}
    {d : Option PyStr} (h : Fits sm m event payload i n) (hp : payload? event = some payload) :
    CloseStep sm m.closeState event d ↔ d = n.closeState ∧
      (event.get "event_type" = .str "close_phase" → payloadGet event "to" ≠ .null) := by
  -- an event of another type leaves the close state
  have hother : ∀ {t : PyStr}, event.get "event_type" = .str t → t ≠ "close_phase" →
      t ≠ "ticket_reopened" → n.closeState = m.closeState →
      (CloseStep sm m.closeState event d ↔ d = n.closeState ∧
        (event.get "event_type" = .str "close_phase" → payloadGet event "to" ≠ .null)) := by
    intro t ht hne hne' hclose
    have h1 : event.get "event_type" ≠ .str "close_phase" := by simpa [ht] using hne
    have h2 : event.get "event_type" ≠ .str "ticket_reopened" := by simpa [ht] using hne'
    refine ⟨fun hs => ?_, ?_⟩
    · cases hs with
      | phase htype => exact absurd htype h1
      | reopen htype => exact absurd htype h2
      | other => exact ⟨hclose.symm, fun h => absurd h h1⟩
    · rintro ⟨rfl, -⟩
      rw [hclose]
      exact .other h1 h2
  cases h with
  | created htype hfirst hkind hstate hcurrent hclose => exact hother htype (by simp) (by simp) hclose
  | stateChanged htype hsource htarget hdeclared hstate hcurrent hclose =>
    exact hother htype (by simp) (by simp) hclose
  | closePhase htype hsource htarget hcurrent hclose =>
    rw [payloadGet_eq hp, htarget, hclose]
    constructor
    · intro hs
      cases hs with
      | phase _ hsource' htarget' hnext => simp [hnext, Json.ofText?]
      | reopen htype' => simp [htype] at htype'
      | other hphase => exact absurd htype hphase
    · rintro ⟨rfl, hnamed⟩
      cases hnext : sm.nextPhase m.closeState with
      | none => simp [hnext, Json.ofText?, htype] at hnamed
      | some phase =>
        rw [hnext] at htarget
        exact .phase htype (by rw [payloadGet_eq hp, hsource])
          (by rw [payloadGet_eq hp, htarget, Json.ofText?]) hnext
  | reopened htype hclosed hcurrent hclose =>
    rw [hclose]
    constructor
    · intro hs
      cases hs with
      | phase htype' => simp [htype] at htype'
      | reopen => exact ⟨rfl, fun h => by simp [htype] at h⟩
      | other _ hreopen => exact absurd htype hreopen
    · rintro ⟨rfl, -⟩
      exact .reopen htype hclosed
  | other hcreated hstate hphase hreopen hcurrent hclose =>
    rw [hclose]
    constructor
    · intro hs
      cases hs with
      | phase htype => exact absurd htype hphase
      | reopen htype => exact absurd htype hreopen
      | other => exact ⟨rfl, fun h => absurd h hphase⟩
    · rintro ⟨rfl, -⟩
      exact .other hphase hreopen

/-- A run without problems follows the close order exactly when every `close_phase` names its
phase. -/
theorem closeRun_iff_of_finish {events : List Members} :
    ∀ {m : TicketMirror} {i : ℕ}, m.Replays sm →
      (∀ e ∈ events, ∃ p, payload? e = some p) → (m.consumeAll i events).finish = [] →
      ((∃ last, CloseRun sm m.closeState events last ∧
        m.metadata.get "close_state" = Json.ofText? last) ↔ ClosePhasesNamed events) := by
  induction events with
  | nil =>
    intro m i hm _ hf
    refine ⟨fun _ => by simp [ClosePhasesNamed], fun _ => ⟨_, CloseRun.nil _, (hm.of_finish hf).2.2⟩⟩
  | cons e es ih =>
    intro m i hm hpay hf
    obtain ⟨p, hp⟩ := hpay e (by simp)
    have hfit := fits_of_consume hm.enabled hm.stateMachine hp (problems_eq_nil_of_finish hm hf)
    have hrest := ih (hm.consume e (i + 1)) (fun x hx => hpay x (List.mem_cons_of_mem _ hx)) hf
    rw [(sameContract_consume m e (i + 1)).metadata] at hrest
    constructor
    · rintro ⟨last, hrun, hlast⟩
      cases hrun with
      | cons h hes =>
        obtain ⟨rfl, hnamed⟩ := (hfit.closeStep_iff hp).mp h
        exact List.forall_mem_cons.mpr ⟨hnamed, hrest.mp ⟨last, hes, hlast⟩⟩
    · intro hnamed
      obtain ⟨hnamed, hnames⟩ := List.forall_mem_cons.mp hnamed
      obtain ⟨last, hes, hlast⟩ := hrest.mpr hnames
      exact ⟨last, .cons ((hfit.closeStep_iff hp).mpr ⟨rfl, hnamed⟩) hes, hlast⟩

/-- The mirror of a ticket of version 3 with a state machine, before the events. -/
def start (sm : StateMachine) (metadata : Members) : TicketMirror :=
  ⟨true, metadata, some sm, [], none, none, 0, 0⟩

theorem replays_start (sm : StateMachine) (metadata : Members) : (start sm metadata).Replays sm :=
  ⟨rfl, rfl⟩

/-- A run without problems has read the state machine. -/
theorem init_eq_start {v : Json} {metadata : Members} {events : List Members} (hv : v ≠ .null)
    (hversion : metadata.get "schema_version" = .int 3)
    (hf : ((init (some v) (some metadata)).consumeAll 0 events).finish = []) :
    ∃ sm, normalizeTicketStateMachine v = .ok sm ∧
      init (some v) (some metadata) = start sm metadata := by
  have hpyEq : v.pyEq .null = false := by
    rw [← Bool.not_eq_true, Json.pyEq_null]
    exact hv
  have hthree : (Json.int 3).isExactly 3 = true := by simp
  have hinit : init (some v) (some metadata) =
      match normalizeTicketStateMachine v with
      | .ok sm => start sm metadata
      | .error _ => { enabled := true, metadata := metadata, stateMachine := none,
                      problems := [.stateMachine], currentState := none, closeState := none,
                      birthCount := 0, migrationCount := 0 } := by
    simp only [init, Option.getD_some, hversion, hthree, Option.filter, hpyEq, Bool.not_false,
      Option.isSome_some, Bool.and_self, if_true, Bool.not_true, Bool.false_eq_true, if_false]
    cases normalizeTicketStateMachine v <;> rfl
  cases hn : normalizeTicketStateMachine v with
  | ok sm =>
    rw [hn] at hinit
    exact ⟨sm, rfl, hinit⟩
  | error err =>
    rw [hn] at hinit
    have hs := sameContract_consumeAll events (init (some v) (some metadata)) 0
    obtain ⟨ps, hps⟩ := hs.problems
    have hon := hs.enabled
    have hsm := hs.stateMachine
    rw [hinit] at hps hon hsm
    rw [hinit] at hf
    simp only [finish, hon, hsm, hps] at hf
    simp at hf

/-- A run without problems from the start has a path of states. -/
theorem states_of_finish {sm : StateMachine} {metadata : Members} {events : List Members}
    (hpay : ∀ e ∈ events, ∃ p, payload? e = some p)
    (hf : ((start sm metadata).consumeAll 0 events).finish = []) :
    ∃ first, StatePath sm first (stateMoves events) (metadata.get "status") ∧
      ∀ e, events.head? = some e → e.get "event_type" = .str "ticket_created" →
        ∃ kind initial, payloadGet e "birth_kind" = .str kind ∧
          Dict.get? ticketInitialStates kind = some initial ∧ first = .str initial := by
  cases events with
  | nil => exact ⟨_, StatePath.nil _, by simp⟩
  | cons e es =>
    obtain ⟨p, hp⟩ := hpay e (by simp)
    have hm := replays_start sm metadata
    have hfit := fits_of_consume hm.enabled hm.stateMachine hp (problems_eq_nil_of_finish hm hf)
    obtain ⟨s, hpath, hs⟩ := statePath_of_finish (hm.consume e 1) le_rfl
      (fun x hx => hpay x (List.mem_cons_of_mem _ hx)) hf
    rw [(sameContract_consume _ e 1).metadata] at hpath
    have hbirth : ∀ first : Json, e.get "event_type" ≠ .str "ticket_created" →
        ∀ e', (e :: es).head? = some e' → e'.get "event_type" = .str "ticket_created" →
          ∃ kind initial, payloadGet e' "birth_kind" = .str kind ∧
            Dict.get? ticketInitialStates kind = some initial ∧ first = .str initial := by
      rintro first hne e' he' htype
      obtain rfl := Option.some.inj he'
      exact absurd htype hne
    -- the first event sets the state, or leaves it open
    cases hfit with
    | created htype hfirst hkind hstate hcurrent hclose =>
      refine ⟨s, by rwa [stateMoves_cons_of_ne (by simp [htype])], ?_⟩
      rintro e' he' -
      obtain rfl := Option.some.inj he'
      exact ⟨_, _, by rw [payloadGet_eq hp, hkind], hstate, hs _ hcurrent⟩
    | stateChanged htype hsource htarget hdeclared hstate hcurrent hclose =>
      rename_i a b
      rw [hs _ hcurrent] at hpath
      refine ⟨.str a, ?_, hbirth _ (by simp [htype])⟩
      rw [stateMoves_cons htype, payloadGet_eq hp, payloadGet_eq hp, hsource, htarget]
      exact .cons hdeclared hpath
    | closePhase htype hsource htarget hcurrent hclose =>
      exact ⟨s, by rwa [stateMoves_cons_of_ne (by simp [htype])], hbirth _ (by simp [htype])⟩
    | reopened htype hclosed hcurrent hclose =>
      exact ⟨s, by rwa [stateMoves_cons_of_ne (by simp [htype])], hbirth _ (by simp [htype])⟩
    | other hcreated hstate hphase hreopen hcurrent hclose =>
      exact ⟨s, by rwa [stateMoves_cons_of_ne hstate], hbirth _ hcreated⟩

/-- A run without problems from the start is a history of the ticket exactly when every
`close_phase` names its phase. -/
theorem ticketHistory_iff_of_finish {sm : StateMachine} {metadata : Members}
    {events : List Members} (hpay : ∀ e ∈ events, ∃ p, payload? e = some p)
    (hf : ((start sm metadata).consumeAll 0 events).finish = []) :
    TicketHistory sm metadata events ↔ ClosePhasesNamed events := by
  have hclose := closeRun_iff_of_finish (replays_start sm metadata) hpay hf
  exact ⟨fun h => hclose.mp h.closing, fun h => ⟨states_of_finish hpay hf, hclose.mpr h⟩⟩

end TicketMirror

end Icode
