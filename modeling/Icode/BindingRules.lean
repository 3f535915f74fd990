import Icode.BindingMirror

/-!
# The rules of an execution binding

`ExecutionBindingMirror` keeps what is open and what was bound. A stream of events without issues
obeys the rules of a binding (`binding_rules`) : one event binds the ticket, after every step,
operation and Agent call that was started has finished and while the ticket is not closed; no
event behind it activates a checkout or reopens the ticket; and the metadata has the binding of
that event, or none when there is no such event.
-/

namespace Icode

open Py

variable {m : BindingMirror} {metadata event : Members} {events : List Members}
  {start stop key : PyStr}

/-! ## The rules -/

/-- A `metadata_updated` event that sets or appends `execution_binding`. -/
def TouchesBinding (event : Members) : Prop :=
  isKind event "metadata_updated" = true ∧
    (changes (payloadGet event "set") "execution_binding" = true ∨
      changes (payloadGet event "append") "execution_binding" = true)

/-- A `metadata_updated` event that makes a checkout active. -/
def ActivatesCheckout (event : Members) : Prop :=
  isKind event "metadata_updated" = true ∧
    (activates (payloadGet event "set") = true ∨ activates (payloadGet event "append") = true)

/-- Every start has an identity, and a finish with the same identity behind it. -/
def AllFinished (start stop key : PyStr) (events : List Members) : Prop :=
  ∀ before s behind, events = before ++ s :: behind → isKind s start = true →
    ∃ identity, identity ≠ [] ∧ payloadGet s key = .str identity ∧
      ∃ f ∈ behind, isKind f stop = true ∧ payloadGet f key = .str identity

/-- A `close_phase` event, and no reopening behind it. -/
def InClosePhase (events : List Members) : Prop :=
  ∃ before c behind, events = before ++ c :: behind ∧ isKind c "close_phase" = true ∧
    ∀ e ∈ behind, isKind e "ticket_reopened" = false

theorem payload_get_eq (event : Members) (key : PyStr) :
    ((payload? event).getD []).get key = payloadGet event key := by
  unfold payloadGet
  cases payload? event <;> rfl

theorem isKind_eq_false {kind kind' : PyStr} (h : isKind event kind = true) (hne : kind ≠ kind') :
    isKind event kind' = false := by
  rw [Bool.eq_false_iff, ne_eq, isKind_iff]
  intro h'
  exact hne (Json.str.inj ((isKind_iff.mp h).symm.trans h'))

/-! ## What is open -/

/-- What is open of a pair after the events. -/
def openAll (start stop key : PyStr) (opened : List (Option PyStr)) (events : List Members) :
    List (Option PyStr) :=
  events.foldl (fun opened e => openAfter e ((payload? e).getD []) start stop key opened) opened

/-- The close phase after an event. -/
def closedAfter (closed : Bool) (event : Members) : Bool :=
  if isKind event "close_phase" then true
  else if isKind event "ticket_reopened" then false
  else closed

/-- The close phase after the events. -/
def closedAll (closed : Bool) (events : List Members) : Bool :=
  events.foldl closedAfter closed

variable (start stop key events) in
/-- What is open stays open until it is finished. -/
theorem mem_openAll {x : Option PyStr} : ∀ {opened : List (Option PyStr)}, x ∈ opened →
    x ∈ openAll start stop key opened events ∨ ∃ f ∈ events, isKind f stop = true ∧
      ∃ identity, x = some identity ∧ payloadGet f key = .str identity := by
  induction events with
  | nil => exact fun h => Or.inl h
  | cons e events ih =>
    intro opened h
    have hstep : x ∈ openAfter e ((payload? e).getD []) start stop key opened ∨
        isKind e stop = true ∧ ∃ identity, x = some identity ∧ payloadGet e key = .str identity := by
      unfold openAfter
      rw [payload_get_eq]
      dsimp only
      split_ifs with hstart hstop
      · exact Or.inl (List.mem_cons_of_mem _ h)
      · cases htext : (payloadGet e key).text? with
        | none => exact Or.inl h
        | some identity =>
          by_cases hx : x = some identity
          · exact Or.inr ⟨hstop, identity, hx, Json.text?_eq_some.mp htext⟩
          · exact Or.inl (List.mem_filter.mpr ⟨h, by simpa using hx⟩)
      · exact Or.inl h
    rcases hstep with hmem | ⟨hstop, hidentity⟩
    · rcases ih hmem with hall | ⟨f, hf, hfinish⟩
      · exact Or.inl hall
      · exact Or.inr ⟨f, List.mem_cons_of_mem _ hf, hfinish⟩
    · exact Or.inr ⟨e, List.mem_cons_self, hstop, hidentity⟩

/-- When nothing is open, everything that was started has finished. -/
theorem allFinished_of_openAll (h : openAll start stop key [] events = []) :
    AllFinished start stop key events := by
  rintro before s behind rfl hstart
  have hopened : (payloadGet s key).text?.filter (fun i => !i.isEmpty) ∈
      openAll start stop key [] (before ++ [s]) := by
    rw [openAll, List.foldl_append, List.foldl_cons, List.foldl_nil, openAfter, payload_get_eq]
    simp only [hstart, if_true]
    exact List.mem_cons_self
  have hsplit : openAll start stop key [] (before ++ s :: behind) =
      openAll start stop key (openAll start stop key [] (before ++ [s])) behind := by
    simp [openAll]
  rw [hsplit] at h
  rcases mem_openAll behind start stop key hopened with
    hmem | ⟨f, hf, hstop, identity, hidentity, hkey⟩
  · simp [h] at hmem
  · obtain ⟨htext, hne⟩ := Option.filter_eq_some_iff.mp hidentity
    exact ⟨identity, by simpa using hne, Json.text?_eq_some.mp htext, f, hf, hstop, hkey⟩

theorem not_inClosePhase_of_closedAll (h : closedAll false events = false) :
    ¬ InClosePhase events := by
  rintro ⟨before, c, behind, rfl, hclose, hreopened⟩
  have hkeeps : ∀ es : List Members, (∀ e ∈ es, isKind e "ticket_reopened" = false) →
      closedAll true es = true := by
    intro es
    induction es with
    | nil => exact fun _ => rfl
    | cons e es ih =>
      intro hall
      have := ih fun e he => hall e (List.mem_cons_of_mem _ he)
      simp only [closedAll, List.foldl_cons, closedAfter, hall e List.mem_cons_self,
        Bool.false_eq_true, if_false, ite_self]
      exact this
  rw [closedAll, List.foldl_append, List.foldl_cons, closedAfter, if_pos hclose] at h
  exact absurd ((hkeeps behind hreopened).symm.trans h) (by simp)

namespace BindingMirror

theorem consume_open (m : BindingMirror) (event : Members) :
    (m.consume event).openSteps = openAfter event ((payload? event).getD []) "step_started"
        "step_finished" "attempt" m.openSteps ∧
      (m.consume event).openOperations = openAfter event ((payload? event).getD [])
        "operation_started" "operation_finished" "attempt" m.openOperations ∧
      (m.consume event).openAgents = openAfter event ((payload? event).getD []) "agent_spawned"
        "agent_result" "spawn_id" m.openAgents ∧
      (m.consume event).closed = closedAfter m.closed event := by
  have htrack : ∀ payload, (m.track event payload).openSteps =
        openAfter event payload "step_started" "step_finished" "attempt" m.openSteps ∧
      (m.track event payload).openOperations =
        openAfter event payload "operation_started" "operation_finished" "attempt" m.openOperations ∧
      (m.track event payload).openAgents =
        openAfter event payload "agent_spawned" "agent_result" "spawn_id" m.openAgents ∧
      (m.track event payload).closed = closedAfter m.closed event := by
    intro payload
    unfold track closedAfter
    dsimp only
    split_ifs <;> exact ⟨rfl, rfl, rfl, rfl⟩
  unfold consume
  dsimp only
  split_ifs <;> exact htrack _

variable (events) in
/-- What is open after the events. -/
theorem consumeAll_open : ∀ m : BindingMirror,
    (m.consumeAll events).openSteps =
        openAll "step_started" "step_finished" "attempt" m.openSteps events ∧
      (m.consumeAll events).openOperations =
        openAll "operation_started" "operation_finished" "attempt" m.openOperations events ∧
      (m.consumeAll events).openAgents =
        openAll "agent_spawned" "agent_result" "spawn_id" m.openAgents events ∧
      (m.consumeAll events).closed = closedAll m.closed events := by
  induction events with
  | nil => exact fun _ => ⟨rfl, rfl, rfl, rfl⟩
  | cons e events ih =>
    intro m
    obtain ⟨hsteps, hoperations, hagents, hclosed⟩ := consume_open m e
    obtain ⟨hs, ho, ha, hc⟩ := ih (m.consume e)
    refine ⟨hs.trans ?_, ho.trans ?_, ha.trans ?_, hc.trans ?_⟩
    · rw [hsteps]; rfl
    · rw [hoperations]; rfl
    · rw [hagents]; rfl
    · rw [hclosed]; rfl

/-- What an event leaves in a mirror without issues. -/
inductive CleanStep (m : BindingMirror) (event : Members) : Prop where
  | other (touches : ¬ TouchesBinding event) (seen : (m.consume event).seen = m.seen)
      (binding : (m.consume event).binding = m.binding)
      (later : m.seen = true → ¬ ActivatesCheckout event ∧ isKind event "ticket_reopened" = false)
  | binding (touches : TouchesBinding event) (first : m.seen = false)
      (steps : m.openSteps = []) (operations : m.openOperations = []) (agents : m.openAgents = [])
      (closed : m.closed = false) (seen : (m.consume event).seen = true)
      (value : (m.consume event).binding =
        changeGet (payloadGet event "set") "execution_binding")

theorem touches_of_bindingEventOk (hkind : isKind event "metadata_updated" = true)
    (h : bindingEventOk event ((payload? event).getD []) = true) : TouchesBinding event := by
  refine ⟨hkind, Or.inl ?_⟩
  simp only [bindingEventOk, Bool.and_eq_true, payload_get_eq] at h
  obtain ⟨⟨⟨⟨⟨-, -⟩, hset⟩, -⟩, -⟩, -⟩ := h
  split at hset
  · next updates heq =>
    rw [heq]
    exact Dict.has_iff_mem.mpr ((Members.keysAre_iff.mp hset _).mpr (by simp))
  · simp at hset

/-- An update of the metadata opens and closes nothing. -/
theorem track_eq_self (h : isKind event "metadata_updated" = true) (payload : Members) :
    m.track event payload = m := by
  have hother : ∀ kind : String, "metadata_updated" ≠ kind → isKind event (lit kind) = false :=
    fun kind hne => isKind_eq_false h fun heq => hne (lit_inj.mp heq)
  simp only [track, openAfter, hother "step_started" (by simp), hother "step_finished" (by simp),
    hother "operation_started" (by simp), hother "operation_finished" (by simp),
    hother "agent_spawned" (by simp), hother "agent_result" (by simp),
    hother "close_phase" (by simp), hother "ticket_reopened" (by simp), Bool.false_eq_true, if_false]

/-- A step without issues is one of the two. -/
theorem cleanStep_of_consume (h : (m.consume event).issues = []) : m.CleanStep event := by
  cases hkind : isKind event "metadata_updated" with
  | false =>
    have hno : ∀ {p : Prop}, ¬ (isKind event "metadata_updated" = true ∧ p) := by simp [hkind]
    unfold consume at h
    simp only [hkind, Bool.not_false, if_true, report, List.append_eq_nil_iff] at h
    have hsame : (m.consume event).seen = m.seen ∧ (m.consume event).binding = m.binding := by
      unfold consume track
      simp only [hkind, Bool.not_false, if_true]
      split_ifs <;> exact ⟨rfl, rfl⟩
    refine .other hno hsame.1 hsame.2 fun hseen => ⟨hno, ?_⟩
    by_contra hreopened
    rw [Bool.not_eq_false] at hreopened
    have hclose : isKind event "close_phase" = false := isKind_eq_false hreopened (by simp)
    simp [track, hreopened, hclose, hseen, report] at h
  | true =>
    have hstep : m.consume event =
        if !(changes (payloadGet event "set") "execution_binding" ||
            changes (payloadGet event "append") "execution_binding") &&
            !Dict.has ((payload? event).getD []) "execution_root_binding" then
          m.report (issueUnless (!(m.seen && (activates (payloadGet event "set") ||
            activates (payloadGet event "append")))) .checkoutConflict)
        else m.record event ((payload? event).getD []) := by
      unfold consume
      simp only [hkind, Bool.not_true, Bool.false_eq_true, if_false, track_eq_self hkind,
        payload_get_eq]
    rw [hstep] at h
    split_ifs at h with huntouched
    · simp only [report, List.append_eq_nil_iff, issueUnless_eq_nil, Bool.not_eq_true',
        Bool.and_eq_false_iff, Bool.or_eq_false_iff] at h
      rw [if_pos huntouched] at hstep
      simp only [Bool.and_eq_true, Bool.not_eq_true', Bool.or_eq_false_iff] at huntouched
      refine .other ?_ (by rw [hstep]; rfl) (by rw [hstep]; rfl) fun hseen => ⟨?_, ?_⟩
      · rintro ⟨-, hset | happend⟩
        · simp [huntouched.1.1] at hset
        · simp [huntouched.1.2] at happend
      · obtain ⟨hset, happend⟩ := h.2.resolve_left (by simp [hseen])
        rintro ⟨-, hset' | happend'⟩
        · simp [hset] at hset'
        · simp [happend] at happend'
      · exact isKind_eq_false hkind (by simp)
    · rw [if_neg huntouched] at hstep
      simp only [record, report, List.append_eq_nil_iff, issueUnless_eq_nil, Bool.not_eq_true',
        Bool.and_eq_true, List.isEmpty_iff] at h
      obtain ⟨-, ⟨⟨hok, hfirst⟩, ⟨⟨hsteps, hoperations⟩, hagents⟩, hclosed⟩, -⟩ := h
      exact .binding (touches_of_bindingEventOk hkind hok) hfirst hsteps hoperations hagents hclosed
        (by rw [hstep]; rfl) (by rw [hstep, ← payload_get_eq]; rfl)

/-! ## Runs without issues -/

theorem consumeAll_append (m : BindingMirror) (es fs : List Members) :
    m.consumeAll (es ++ fs) = (m.consumeAll es).consumeAll fs :=
  List.foldl_append

variable (events) in
/-- A run without issues comes from a mirror without issues. -/
theorem issues_eq_nil_of_consumeAll (h : (m.consumeAll events).issues = []) : m.issues = [] :=
  List.subset_nil.mp (h ▸ (issues_subset_consumeAll events m).1)

theorem cleanStep_of_consumeAll {before behind : List Members}
    (h : (m.consumeAll (before ++ event :: behind)).issues = []) :
    (m.consumeAll before).CleanStep event := by
  rw [consumeAll_append] at h
  exact cleanStep_of_consume (issues_eq_nil_of_consumeAll behind h)

/-- Until a binding is seen no event touches it, and what was seen stays. -/
theorem seen_of_consumeAll : ∀ {m : BindingMirror}, (m.consumeAll events).issues = [] →
    ((m.consumeAll events).seen = true ↔ m.seen = true ∨ ∃ e ∈ events, TouchesBinding e) := by
  induction events with
  | nil => simp [consumeAll]
  | cons e events ih =>
    intro m h
    have hstep := ih (m := m.consume e) h
    change ((m.consume e).consumeAll events).seen = true ↔ _
    rw [hstep]
    cases cleanStep_of_consume (issues_eq_nil_of_consumeAll events h) with
    | other touches seen => simp [seen, touches]
    | binding touches first _ _ _ _ seen => simp [seen, touches]

variable (events) in
/-- Behind the binding event no event touches the binding, activates a checkout or reopens the
ticket, and the value stays. -/
theorem later_of_consumeAll : ∀ {m : BindingMirror}, (m.consumeAll events).issues = [] →
    m.seen = true → (m.consumeAll events).binding = m.binding ∧ ∀ e ∈ events,
      ¬ TouchesBinding e ∧ ¬ ActivatesCheckout e ∧ isKind e "ticket_reopened" = false := by
  induction events with
  | nil => exact fun _ _ => ⟨rfl, by simp⟩
  | cons e events ih =>
    intro m h hseen
    cases cleanStep_of_consume (issues_eq_nil_of_consumeAll events h) with
    | other touches seen binding later =>
      obtain ⟨hbinding, hrest⟩ := ih (m := m.consume e) h (seen.trans hseen)
      exact ⟨hbinding.trans binding, List.forall_mem_cons.mpr ⟨⟨touches, later hseen⟩, hrest⟩⟩
    | binding _ first => simp [hseen] at first

end BindingMirror

/-! ## The rules hold -/

/-- What is so at the event that binds the ticket. -/
structure BindsOnce (metadata : Members) (before : List Members) (event : Members)
    (behind : List Members) : Prop where
  onlyBefore : ∀ e ∈ before, ¬ TouchesBinding e
  onlyBehind : ∀ e ∈ behind, ¬ TouchesBinding e
  steps : AllFinished "step_started" "step_finished" "attempt" before
  operations : AllFinished "operation_started" "operation_finished" "attempt" before
  agents : AllFinished "agent_spawned" "agent_result" "spawn_id" before
  notClosing : ¬ InClosePhase before
  later : ∀ e ∈ behind, ¬ ActivatesCheckout e ∧ isKind e "ticket_reopened" = false
  present : Dict.has metadata "execution_binding" = true
  value : (metadata.get "execution_binding").pyEq
    (changeGet (payloadGet event "set") "execution_binding") = true

/-- A stream without issues binds the ticket at most once, and as the metadata says. -/
theorem binding_rules
    (h : ((BindingMirror.init (some metadata)).consumeAll events).finish = []) :
    (∀ before event behind, events = before ++ event :: behind → TouchesBinding event →
      BindsOnce metadata before event behind) ∧
      (Dict.has metadata "execution_binding" = true ↔ ∃ e ∈ events, TouchesBinding e) := by
  obtain ⟨hissues, hseen, hvalue⟩ := BindingMirror.binding_of_finish h
  have htouched := BindingMirror.seen_of_consumeAll hissues
  constructor
  · rintro before event behind rfl htouches
    have hpresent : ((BindingMirror.init (some metadata)).consumeAll
        (before ++ event :: behind)).seen = true :=
      htouched.mpr (Or.inr ⟨event, by simp, htouches⟩)
    cases BindingMirror.cleanStep_of_consumeAll hissues with
    | other hno => exact absurd htouches hno
    | binding _ first steps operations agents closed seen value =>
      obtain ⟨hsteps, hoperations, hagents, hclosed⟩ :=
        BindingMirror.consumeAll_open before (BindingMirror.init (some metadata))
      rw [BindingMirror.consumeAll_append] at hissues hvalue hseen hpresent
      have hbefore := BindingMirror.seen_of_consumeAll
        (BindingMirror.issues_eq_nil_of_consumeAll _ hissues)
      obtain ⟨hbinding, hlater⟩ := BindingMirror.later_of_consumeAll behind hissues seen
      refine
        { onlyBefore := fun e he htouch => ?_
          onlyBehind := fun e he => (hlater e he).1
          steps := allFinished_of_openAll (hsteps.symm.trans steps)
          operations := allFinished_of_openAll (hoperations.symm.trans operations)
          agents := allFinished_of_openAll (hagents.symm.trans agents)
          notClosing := not_inClosePhase_of_closedAll (hclosed.symm.trans closed)
          later := fun e he => (hlater e he).2
          present := hseen.symm.trans hpresent
          value := ?_ }
      · simp [first] at hbefore
        exact hbefore.2 e he htouch
      · have := hvalue hpresent
        rw [← value, ← hbinding]
        exact this
  · rw [← hseen, htouched]
    simp [BindingMirror.init]

/-- The binding to the root directory. -/
def rootBinding : Json :=
  .obj [("version", .int 1), ("path", .str "/"),
    ("ancestors", .arr [.obj [("path", .str "/"), ("device", .int 0), ("inode", .int 1)]])]

/-- A step is started and finished, and then the ticket is bound. -/
def rootBindingEvents : List Members :=
  [[("event_type", .str "step_started"), ("payload", .obj [("attempt", .str "a")])],
    [("event_type", .str "step_finished"), ("payload", .obj [("attempt", .str "a")])],
    [("event_type", .str "metadata_updated"), ("request_id", .str "r"), ("actor", .str "icode"),
      ("payload", .obj [("execution_root_binding", .int 1),
        ("set", .obj [("execution_binding", rootBinding)]), ("append", .obj []),
        ("metadata_hash_after", .str (List.replicate 64 (.scalar '0')))])]]

def rootBindingMetadata : Members :=
  [("execution_binding", rootBinding)]

theorem binding_rules_rootBinding :
    (∀ before event behind, rootBindingEvents = before ++ event :: behind → TouchesBinding event →
      BindsOnce rootBindingMetadata before event behind) ∧
      (Dict.has rootBindingMetadata "execution_binding" = true ↔
        ∃ e ∈ rootBindingEvents, TouchesBinding e) :=
  binding_rules (by decide)

end Icode
