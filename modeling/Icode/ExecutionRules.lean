import Icode.ExecutionMirror
import Icode.History

/-!
# The rules of versioned execution

The rules say over the whole history of a ticket what `ExecutionMirror` looks
for with its registers : every gate, artifact and finish of a step lies after the
one start of its attempt and before its one finish (`StepRule`), an operation is
finished once and by an event with its identity (`OperationRule`), no operation
with side effects is open when the state changes (`QuiescentRule`), and a
transition to `completed` follows a finished attempt of the mapped step whose
checks are its last gate results (`CompletedRule`).

`Mirrors` relates the registers to the history : an attempt a register holds open
was started, and is not finished since then. Every event keeps it
(`mirrors_consume`), as long as no two attempts or names share a fingerprint. So
a run that reports nothing has a history that meets the rules
(`executionRules_of_finish`).
-/

set_option linter.unusedSectionVars false

namespace Icode

open Py History

/-! ## Events of an attempt -/

/-- A versioned event of the kind that belongs to the attempt `a`. -/
def ofAttempt (kind a : PyStr) (e : Members) : Bool :=
  match payload? e with
  | some p => ExecutionMirror.isVersioned p && isKind e kind && attempt? p == some a
  | none => false

theorem ofAttempt_iff {kind a : PyStr} {e : Members} : ofAttempt kind a e = true ↔
    ∃ p, payload? e = some p ∧ ExecutionMirror.isVersioned p = true ∧
      e.get "event_type" = .str kind ∧ attempt? p = some a := by
  unfold ofAttempt
  cases payload? e <;> simp [and_assoc]

/-- An event of one kind is of no other. -/
theorem ofAttempt_kind {kind a : PyStr} {e : Members} (h : ofAttempt kind a e = true) :
    e.get "event_type" = .str kind := by
  obtain ⟨p, -, -, htype, -⟩ := (ofAttempt_iff).mp h
  exact htype

theorem ofAttempt_attempt {kind a : PyStr} {e p : Members} (h : ofAttempt kind a e = true)
    (hp : payload? e = some p) : attempt? p = some a := by
  obtain ⟨p', hp', -, -, ha⟩ := (ofAttempt_iff).mp h
  rw [hp] at hp'
  obtain rfl := Option.some.inj hp'
  exact ha

/-- An event belongs to one attempt. -/
theorem ofAttempt_unique {kind kind' a b : PyStr} {e : Members} (h : ofAttempt kind a e = true)
    (h' : ofAttempt kind' b e = true) : a = b := by
  obtain ⟨p, hp, -, -, ha⟩ := (ofAttempt_iff).mp h
  exact Option.some.inj (ha.symm.trans (ofAttempt_attempt h' hp))

theorem not_ofAttempt_of_kind {kind kind' a : PyStr} {e : Members}
    (htype : e.get "event_type" = .str kind') (hne : kind' ≠ kind) : ¬ofAttempt kind a e = true := by
  intro h
  have := ofAttempt_kind h
  rw [htype] at this
  exact hne (Json.str.inj this)

/-- The kinds of events between the start and the finish of a step, the finish included. -/
def stepEventKinds : List PyStr :=
  ["gate_checked", "artifact_written", "step_finished"]

/-- The kinds of events of an attempt. -/
def attemptEventKinds : List PyStr :=
  [lit "step_started", lit "operation_started", lit "operation_finished"] ++ stepEventKinds

theorem started_mem : lit "step_started" ∈ attemptEventKinds := by
  simp [attemptEventKinds]

theorem finished_mem : lit "step_finished" ∈ attemptEventKinds := by
  simp [attemptEventKinds, stepEventKinds]

theorem gate_mem : lit "gate_checked" ∈ attemptEventKinds := by
  simp [attemptEventKinds, stepEventKinds]

theorem operationStarted_mem : lit "operation_started" ∈ attemptEventKinds := by
  simp [attemptEventKinds]

theorem operationFinished_mem : lit "operation_finished" ∈ attemptEventKinds := by
  simp [attemptEventKinds]

/-- A versioned birth of the ticket. -/
def versionedBirth (e : Members) : Bool :=
  isKind e "ticket_created" && (payloadGet e "execution_contract_version").isExactly 1

/-- A start of the step that stands for `completed`. -/
def mappedStart (receipt : CompletionReceipt) (a : PyStr) (e : Members) : Bool :=
  ofAttempt "step_started" a e && (payloadGet e "step").isText receipt.step

/-- The boundary and the result of a gate of the attempt. -/
def gateResult? (receipt : CompletionReceipt) (a : PyStr) (e : Members) : Option (PyStr × PyStr) :=
  if ofAttempt "gate_checked" a e && (payloadGet e "step").isText receipt.step then
    match payloadGet e "boundary", payloadGet e "result" with
    | .str boundary, .str result => some (boundary, result)
    | _, _ => none
  else none

/-- The last result of every boundary. -/
def gateResults (receipt : CompletionReceipt) (a : PyStr) (es : List Members) : Members :=
  es.foldl (fun acc e =>
    match gateResult? receipt a e with
    | some (boundary, result) => Dict.set acc boundary (.str result)
    | none => acc) []

/-! ## The rules -/

/-- A step is started once, and its other events come between its start and its finish, with
the name it was started with. -/
def StepRule (before : List Members) (e : Members) : Prop :=
  (∀ a, ofAttempt "step_started" a e = true →
    ∀ x ∈ before, ¬ofAttempt "step_started" a x = true) ∧
  ∀ kind ∈ stepEventKinds, ∀ p, payload? e = some p → ExecutionMirror.isVersioned p = true →
    e.get "event_type" = .str kind → ∃ a, attempt? p = some a ∧
      Since (fun s => ofAttempt "step_started" a s = true ∧ payloadGet s "step" = p.get "step")
        (fun x => ¬ofAttempt "step_finished" a x = true) before

/-- An operation is started once, and finished after that, with the same name and class, and
not finished in between. -/
def OperationRule (before : List Members) (e : Members) : Prop :=
  (∀ a, ofAttempt "operation_started" a e = true →
    ∀ x ∈ before, ¬ofAttempt "operation_started" a x = true) ∧
  ∀ p, payload? e = some p → ExecutionMirror.isVersioned p = true →
    e.get "event_type" = .str "operation_finished" → ∃ a, attempt? p = some a ∧
      Since (fun s => ofAttempt "operation_started" a s = true ∧
          payloadGet s "name" = p.get "name" ∧ payloadGet s "class" = p.get "class")
        (fun x => ¬ofAttempt "operation_finished" a x = true) before

/-- When the state changes, no operation is open but a `read_only` one. -/
def QuiescentRule (before : List Members) (e : Members) : Prop :=
  e.get "event_type" = .str "state_changed" → (∃ p, payload? e = some p) → ∀ a,
    ¬Since (fun s => ofAttempt "operation_started" a s = true ∧
        payloadGet s "class" ≠ .str "read_only")
      (fun x => ¬ofAttempt "operation_finished" a x = true) before

/-- The latest attempt of the mapped step is finished, with an outcome that may proceed, with
the last gate results as its checks, and with every required check passed. -/
def CompletedBy (receipt : CompletionReceipt) (before : List Members) : Prop :=
  ∃ a first start since, before = first ++ start :: since ∧
    mappedStart receipt a start = true ∧
    (∀ x ∈ since, ∀ b, ¬mappedStart receipt b x = true) ∧
    ∃ f ∈ since, ofAttempt "step_finished" a f = true ∧
      payloadGet f "step" = .str receipt.step ∧
      (payloadGet f "outcome" = .str "success" ∨ payloadGet f "outcome" = .str "degraded") ∧
      (∃ checks, payloadGet f "checks" = .obj checks ∧
        Json.pyEq (.obj checks) (.obj (gateResults receipt a since)) = true) ∧
      ∀ b ∈ receipt.requiredChecks, (gateResults receipt a since).get b = .str "pass"

/-- A transition to `completed` needs the receipt when an attempt of the mapped step was started,
or the ticket was born versioned and the gates are not skipped for a test. -/
def CompletedRule (policy : Option CompletionReceipt) (before : List Members) (e : Members) : Prop :=
  ∀ receipt p, policy = some receipt → payload? e = some p →
    e.get "event_type" = .str "state_changed" → p.get "to" = .str "completed" →
    ((∃ a, ∃ s ∈ before, mappedStart receipt a s = true) ∨
      ((∃ b ∈ before, versionedBirth b = true) ∧
        p.get "gates_skipped_for_test" ≠ .bool true)) →
    CompletedBy receipt before

/-- The rules of versioned execution. -/
structure ExecutionRules (policy : Option CompletionReceipt) (es : List Members) : Prop where
  steps : Every StepRule es
  /-- The finish of a step is the single one. -/
  stepsFinishOnce : ∀ a, AtMostOnce (fun e => ofAttempt "step_finished" a e = true) es
  operations : Every OperationRule es
  operationsFinishOnce : ∀ a, AtMostOnce (fun e => ofAttempt "operation_finished" a e = true) es
  quiescent : Every QuiescentRule es
  completed : Every (CompletedRule policy) es

theorem stepsFinishOnce_of_stepRule {es : List Members} (h : Every StepRule es) (a : PyStr) :
    AtMostOnce (fun e => ofAttempt "step_finished" a e = true) es := by
  have hstart : AtMostOnce (fun e => ofAttempt "step_started" a e = true) es :=
    h.mono fun before e he => he.1 a
  refine atMostOnce_of_since ?_ hstart ?_
  · intro e he
    exact not_ofAttempt_of_kind (ofAttempt_kind he) (by simp)
  · refine h.mono fun before e he hfin => ?_
    obtain ⟨p, hp, hv, htype, ha⟩ := (ofAttempt_iff).mp hfin
    obtain ⟨a', ha', hsince⟩ := he.2 _ (by simp [stepEventKinds]) p hp hv htype
    obtain rfl : a' = a := Option.some.inj (ha'.symm.trans ha)
    exact hsince.mono (fun x hx => hx.1) fun x hx => hx

theorem operationsFinishOnce_of_operationRule {es : List Members} (h : Every OperationRule es)
    (a : PyStr) : AtMostOnce (fun e => ofAttempt "operation_finished" a e = true) es := by
  have hstart : AtMostOnce (fun e => ofAttempt "operation_started" a e = true) es :=
    h.mono fun before e he => he.1 a
  refine atMostOnce_of_since ?_ hstart ?_
  · intro e he
    exact not_ofAttempt_of_kind (ofAttempt_kind he) (by simp)
  · refine h.mono fun before e he hfin => ?_
    obtain ⟨p, hp, hv, htype, ha⟩ := (ofAttempt_iff).mp hfin
    obtain ⟨a', ha', hsince⟩ := he.2 p hp hv htype
    obtain rfl : a' = a := Option.some.inj (ha'.symm.trans ha)
    exact hsince.mono (fun x hx => hx.1) fun x hx => hx

/-! ## Gate results -/

variable {receipt : CompletionReceipt} {a : PyStr} {es : List Members} {e : Members}

theorem gateResults_concat : gateResults receipt a (es ++ [e]) =
    match gateResult? receipt a e with
    | some (boundary, result) => Dict.set (gateResults receipt a es) boundary (.str result)
    | none => gateResults receipt a es := by
  simp [gateResults]

/-- The result kept for a boundary is that of its last gate. -/
theorem gateResults_get {boundary result : PyStr} :
    (gateResults receipt a es).get boundary = .str result ↔
      Since (fun e => gateResult? receipt a e = some (boundary, result))
        (fun e => ∀ r, gateResult? receipt a e ≠ some (boundary, r)) es := by
  induction es using List.reverseRecOn with
  | nil => simp [gateResults, Members.get, Dict.get?, not_since_nil]
  | append_singleton es e ih =>
    rw [gateResults_concat, since_concat, ← ih]
    cases h : gateResult? receipt a e with
    | none => simp
    | some br =>
      obtain ⟨b, r⟩ := br
      by_cases hb : boundary = b
      · subst hb
        simp
      · simp [hb, show b ≠ boundary from fun h => hb h.symm]

/-! ## What an event that is not reported does -/

namespace ExecutionMirror

variable {m n : ExecutionMirror} {p : Members} {i : ℕ}

/-- A versioned event of an attempt that is not reported, and what it does to the registers of
steps and operations. -/
inductive Accepted (m : ExecutionMirror) (e p : Members) (a : PyStr) (n : ExecutionMirror) : Prop
  | stepStarted {step : PyStr} (htype : e.get "event_type" = .str "step_started")
      (hnew : Dict.has m.steps (fingerprint a) = false) (hstep : p.get "step" = .str step)
      (hsteps : n.steps = Dict.set m.steps (fingerprint a) ⟨some step, false⟩)
      (hops : n.operations = m.operations)
      (hopen : n.openSideEffectOperations = m.openSideEffectOperations)
  | stepEvent {kind : PyStr} {state : StepState} (htype : e.get "event_type" = .str kind)
      (hkind : kind ∈ stepEventKinds) (hstate : Dict.get? m.steps (fingerprint a) = some state)
      (hopened : state.finished = false) (hstep : p.get "step" = .ofText? state.step)
      (hsteps : n.steps = if kind = lit "step_finished" then
          Dict.set m.steps (fingerprint a) { state with finished := true } else m.steps)
      (hops : n.operations = m.operations)
      (hopen : n.openSideEffectOperations = m.openSideEffectOperations)
  | operationStarted {name : PyStr} (htype : e.get "event_type" = .str "operation_started")
      (hnew : Dict.has m.operations (fingerprint a) = false) (hname : p.get "name" = .str name)
      (hclass : p.get "class" = .ofText? (p.get "class").text?)
      (hsteps : n.steps = m.steps)
      (hops : n.operations = Dict.set m.operations (fingerprint a)
        ⟨some (fingerprint name), (p.get "class").text?, false⟩)
      (hopen : n.openSideEffectOperations =
        if (p.get "class").isText "read_only" then m.openSideEffectOperations
        else m.openSideEffectOperations.insert (fingerprint a))
  | operationFinished {name : PyStr} {state : OperationState}
      (htype : e.get "event_type" = .str "operation_finished")
      (hstate : Dict.get? m.operations (fingerprint a) = some state)
      (hopened : state.finished = false) (hname : p.get "name" = .str name)
      (hsame : state.name = some (fingerprint name)) (hclass : p.get "class" = .ofText? state.class_)
      (hsteps : n.steps = m.steps)
      (hops : n.operations = Dict.set m.operations (fingerprint a) { state with finished := true })
      (hopen : n.openSideEffectOperations = m.openSideEffectOperations ∨
        n.openSideEffectOperations = m.openSideEffectOperations.filter (· ≠ fingerprint a))
  | other (hnot : ∀ kind ∈ attemptEventKinds, e.get "event_type" ≠ .str kind)
      (hsteps : n.steps = m.steps) (hops : n.operations = m.operations)
      (hopen : n.openSideEffectOperations = m.openSideEffectOperations)

theorem accepted_stepStarted {a : PyStr} (htype : e.get "event_type" = .str "step_started")
    (h : (m.stepStarted (fingerprint a) p i).problems = []) :
    Accepted m e p a (m.stepStarted (fingerprint a) p i) := by
  simp only [stepStarted, report, List.append_eq_nil_iff, nameIssue, issueUnless_eq_nil,
    textSatisfies_iff, Bool.not_eq_true'] at h
  obtain ⟨-, ⟨⟨⟨step, hstep, -⟩, hnew⟩, -⟩, -⟩ := h
  exact .stepStarted htype hnew hstep (by simp [stepStarted, hstep, Json.text?]) rfl rfl

theorem accepted_stepEvent {a kind : PyStr} (htype : e.get "event_type" = .str kind)
    (hkind : kind ∈ stepEventKinds) (h : (m.stepEvent (fingerprint a) e p i).problems = []) :
    Accepted m e p a (m.stepEvent (fingerprint a) e p i) := by
  unfold stepEvent at h ⊢
  cases hstate : Dict.get? m.steps (fingerprint a) with
  | none => simp [hstate, report] at h
  | some state =>
    simp only [hstate, report, List.append_eq_nil_iff, issueUnless_eq_nil, Bool.not_eq_true',
      Json.pyEq_ofText?] at h
    obtain ⟨-, ⟨hopened, hstep⟩, -⟩ := h
    refine .stepEvent htype hkind hstate hopened hstep ?_ rfl rfl
    simp [isKind, htype]

theorem accepted_operationStarted {a : PyStr}
    (htype : e.get "event_type" = .str "operation_started")
    (h : (m.operationStarted (fingerprint a) p i).problems = []) :
    Accepted m e p a (m.operationStarted (fingerprint a) p i) := by
  simp only [operationStarted, report, List.append_eq_nil_iff, nameIssue, issueUnless_eq_nil,
    textSatisfies_iff, Bool.not_eq_true'] at h
  obtain ⟨-, ⟨⟨⟨⟨name, hname, -⟩, ⟨cls, hclass, -⟩⟩, -⟩, -⟩, hnew⟩ := h
  refine .operationStarted htype hnew hname ?_ rfl ?_ rfl
  · simp [hclass, Json.text?]
  · simp [operationStarted, hname, Json.text?]

theorem accepted_operationFinished {a : PyStr}
    (htype : e.get "event_type" = .str "operation_finished")
    (h : (m.operationFinished (fingerprint a) p i).problems = []) :
    Accepted m e p a (m.operationFinished (fingerprint a) p i) := by
  unfold operationFinished at h ⊢
  cases hstate : Dict.get? m.operations (fingerprint a) with
  | none => simp [hstate, report] at h
  | some state =>
    simp only [hstate, report, List.append_eq_nil_iff, issueUnless_eq_nil, Bool.not_eq_true',
      Bool.and_eq_true, Json.pyEq_ofText?, Option.any_eq_true, beq_iff_eq] at h
    obtain ⟨-, ⟨hopened, ⟨name, hname, hsame⟩, hclass⟩, -⟩ := h
    refine .operationFinished htype hstate hopened (Json.text?_eq_some.mp hname) hsame hclass rfl
      rfl ?_
    dsimp only
    split_ifs
    · exact Or.inl rfl
    · exact Or.inr rfl

/-- A versioned event of an enabled mirror that is not reported belongs to an attempt. -/
theorem accepted_of_consumeVersioned (h : m.consumeVersioned e p i = .ok n)
    (hok : n.problems = []) : ∃ a, attempt? p = some a ∧ Accepted m e p a n := by
  unfold consumeVersioned at h
  cases ha : attempt? p with
  | none =>
    simp only [ha, Except.ok.injEq] at h
    obtain rfl := h
    simp [report] at hok
  | some a =>
    refine ⟨a, rfl, ?_⟩
    simp only [ha] at h
    by_cases hstart : e.get "event_type" = .str "step_started"
    · simp only [isKind, hstart, Json.isText_str, decide_true, if_true, Except.ok.injEq] at h
      obtain rfl := h
      exact accepted_stepStarted hstart hok
    rw [if_neg (by simpa using hstart)] at h
    split_ifs at h with hhash hkind hop hfin
    · obtain rfl := Except.ok.inj h
      simp only [Bool.or_eq_true, isKind_iff] at hkind
      rcases hkind with (hk | hk) | hk
      · exact accepted_stepEvent hk (by simp [stepEventKinds]) hok
      · exact accepted_stepEvent hk (by simp [stepEventKinds]) hok
      · exact accepted_stepEvent hk (by simp [stepEventKinds]) hok
    · obtain rfl := Except.ok.inj h
      exact accepted_operationStarted (isKind_iff.mp hop) hok
    · obtain rfl := Except.ok.inj h
      exact accepted_operationFinished (isKind_iff.mp hfin) hok
    · obtain rfl := Except.ok.inj h
      refine .other ?_ rfl rfl rfl
      simp only [Bool.or_eq_true, isKind_iff, not_or] at hkind hop hfin
      simp only [attemptEventKinds, stepEventKinds, List.mem_append, List.mem_cons,
        List.not_mem_nil, or_false]
      rintro kind ((rfl | rfl | rfl) | (rfl | rfl | rfl))
      · exact hstart
      · exact hop
      · exact hfin
      · exact hkind.1.1
      · exact hkind.1.2
      · exact hkind.2

/-- The registers of the completion receipt are those of the tracking before. -/
theorem latest_of_consumeVersioned (h : m.consumeVersioned e p i = .ok n) :
    n.latestCompletionAttempt = m.latestCompletionAttempt ∧
      n.latestCompletionState = m.latestCompletionState ∧
      n.versionedTicketBirth = m.versionedTicketBirth := by
  unfold consumeVersioned at h
  split at h
  · obtain rfl := Except.ok.inj h
    exact ⟨rfl, rfl, rfl⟩
  · dsimp only at h
    split_ifs at h
    · obtain rfl := Except.ok.inj h
      exact ⟨rfl, rfl, rfl⟩
    · obtain rfl := Except.ok.inj h
      unfold stepEvent
      split <;> exact ⟨rfl, rfl, rfl⟩
    · obtain rfl := Except.ok.inj h
      exact ⟨rfl, rfl, rfl⟩
    · obtain rfl := Except.ok.inj h
      unfold operationFinished
      split <;> exact ⟨rfl, rfl, rfl⟩
    · obtain rfl := Except.ok.inj h
      exact ⟨rfl, rfl, rfl⟩

/-- An event outside the six kinds of versioned events of an attempt. -/
def Irrelevant (e : Members) : Prop :=
  ∀ kind ∈ attemptEventKinds, ∀ p, payload? e = some p → isVersioned p = true →
    e.get "event_type" ≠ .str kind

theorem Irrelevant.not_ofAttempt (h : Irrelevant e) {kind : PyStr} (hkind : kind ∈ attemptEventKinds)
    (a : PyStr) : ¬ofAttempt kind a e = true := by
  intro hof
  obtain ⟨p, hp, hversioned, htype, -⟩ := (ofAttempt_iff).mp hof
  exact h kind hkind p hp hversioned htype

/-- The registers an irrelevant event keeps. -/
structure SameRegisters (m n : ExecutionMirror) : Prop where
  steps : n.steps = m.steps
  operations : n.operations = m.operations
  opened : n.openSideEffectOperations = m.openSideEffectOperations
  attempt : n.latestCompletionAttempt = m.latestCompletionAttempt
  state : n.latestCompletionState = m.latestCompletionState

theorem sameRegisters_stateChanged : SameRegisters m (m.stateChanged p i) := by
  unfold stateChanged
  dsimp only
  split_ifs <;> exact ⟨rfl, rfl, rfl, rfl, rfl⟩

theorem irrelevant_of_kind {kind : PyStr} (htype : e.get "event_type" = .str kind)
    (hne : kind ∉ attemptEventKinds) : Irrelevant e := by
  intro k hk p _ _ hk'
  rw [htype] at hk'
  exact hne (Json.str.inj hk' ▸ hk)

/-- What one event that is not reported is. -/
inductive Consumed (m : ExecutionMirror) (e : Members) (i : ℕ) (n : ExecutionMirror) : Prop
  | irrelevant (hnot : Irrelevant e) (hsame : SameRegisters m n)
      (hbirth : n.versionedTicketBirth = (m.versionedTicketBirth || versionedBirth e))
  | accepted {p : Members} {a : PyStr} {m' : ExecutionMirror} (hp : payload? e = some p)
      (hversioned : isVersioned p = true) (ha : attempt? p = some a)
      (hm' : m' = { m with hasVersionedEvents := true }.trackCompletionAttempt e p i)
      (hacc : Accepted m e p a n) (hattempt : n.latestCompletionAttempt = m'.latestCompletionAttempt)
      (hstate : n.latestCompletionState = m'.latestCompletionState)
      (hbirth : n.versionedTicketBirth = (m.versionedTicketBirth || versionedBirth e))

theorem consumed_of_consume (hon : m.enabled = true) (h : m.consume e i = .ok n)
    (hok : n.problems = []) : Consumed m e i n := by
  unfold consume at h
  cases hp : payload? e with
  | none =>
    simp only [hp] at h
    obtain rfl := Except.ok.inj h
    refine .irrelevant ?_ ⟨rfl, rfl, rfl, rfl, rfl⟩ ?_
    · intro kind _ p' hp'
      rw [hp] at hp'
      cases hp'
    · simp [versionedBirth, payloadGet, hp, Json.isExactly, Json.isInt]
  | some p =>
    simp only [hp] at h
    by_cases hcreated : e.get "event_type" = .str "ticket_created"
    · rw [if_pos (by simpa using hcreated)] at h
      have hnot : Irrelevant e := irrelevant_of_kind hcreated (by simp [attemptEventKinds, stepEventKinds])
      have hkind : isKind e "ticket_created" = true := by simpa using hcreated
      split_ifs at h with hmarker
      · obtain rfl := Except.ok.inj h
        exact .irrelevant hnot ⟨rfl, rfl, rfl, rfl, rfl⟩
          (by simp [versionedBirth, hkind, payloadGet_eq hp, hmarker])
      · obtain rfl := Except.ok.inj h
        exact .irrelevant hnot ⟨rfl, rfl, rfl, rfl, rfl⟩
          (by simp [versionedBirth, hkind, payloadGet_eq hp, hmarker])
    rw [if_neg (by simpa using hcreated)] at h
    have hnobirth : versionedBirth e = false := by
      have : isKind e "ticket_created" = false := by
        rw [← Bool.not_eq_true, isKind_iff]
        exact hcreated
      simp [versionedBirth, this]
    by_cases hchanged : e.get "event_type" = .str "state_changed"
    · rw [if_pos (by simpa using hchanged)] at h
      obtain rfl := Except.ok.inj h
      refine .irrelevant
        (irrelevant_of_kind hchanged (by simp [attemptEventKinds, stepEventKinds]))
        sameRegisters_stateChanged ?_
      rw [hnobirth, Bool.or_false, stateChanged]
      dsimp only
      split_ifs <;> rfl
    rw [if_neg (by simpa using hchanged)] at h
    by_cases hversioned : isVersioned p = true
    · rw [if_neg (by simp [hversioned])] at h
      obtain ⟨attempt, state, htrack⟩ :=
        trackCompletionAttempt_eq { m with hasVersionedEvents := true } e p i
      have hen : ({ m with hasVersionedEvents := true }.trackCompletionAttempt e p i).enabled
          = true := by rw [htrack]; exact hon
      simp only [hen, Bool.not_true, Bool.false_eq_true, if_false] at h
      obtain ⟨a, ha, hacc⟩ := accepted_of_consumeVersioned h hok
      obtain ⟨h1, h2, h3⟩ := latest_of_consumeVersioned h
      refine .accepted hp hversioned ha rfl ?_ h1 h2 ?_
      · rw [htrack] at hacc
        cases hacc with
        | stepStarted htype hnew hstep hsteps hops hopen =>
          exact .stepStarted htype hnew hstep hsteps hops hopen
        | stepEvent htype hkind hst hopened hstep hsteps hops hopen =>
          exact .stepEvent htype hkind hst hopened hstep hsteps hops hopen
        | operationStarted htype hnew hname hclass hsteps hops hopen =>
          exact .operationStarted htype hnew hname hclass hsteps hops hopen
        | operationFinished htype hst hopened hname hsame hclass hsteps hops hopen =>
          exact .operationFinished htype hst hopened hname hsame hclass hsteps hops hopen
        | other hnot hsteps hops hopen => exact .other hnot hsteps hops hopen
      · rw [h3, htrack, hnobirth, Bool.or_false]
    · rw [if_pos (by simpa using hversioned)] at h
      obtain rfl := Except.ok.inj h
      refine .irrelevant ?_ ⟨rfl, rfl, rfl, rfl, rfl⟩ (by rw [hnobirth, Bool.or_false])
      intro kind _ p' hp' hv
      rw [hp] at hp'
      obtain rfl := Option.some.inj hp'
      exact absurd hv hversioned

/-- A versioned event of an attempt is accepted, when it is not reported. -/
theorem Consumed.exists_accepted (h : Consumed m e i n) {kind : PyStr}
    (hkind : kind ∈ attemptEventKinds) (hp : payload? e = some p) (hversioned : isVersioned p = true)
    (htype : e.get "event_type" = .str kind) : ∃ a, attempt? p = some a ∧ Accepted m e p a n := by
  cases h with
  | irrelevant hnot => exact absurd htype (hnot kind hkind p hp hversioned)
  | accepted hp' hversioned' ha hm' hacc =>
    rw [hp] at hp'
    obtain rfl := Option.some.inj hp'
    exact ⟨_, ha, hacc⟩

section Accepted

variable {a kind : PyStr} (h : Accepted m e p a n)
include h

theorem Accepted.stepStarted_new (htype : e.get "event_type" = .str "step_started") :
    Dict.has m.steps (fingerprint a) = false := by
  cases h with
  | stepStarted _ hnew => exact hnew
  | stepEvent htype' hkind =>
    obtain rfl := Json.str.inj (htype.symm.trans htype')
    simp [stepEventKinds] at hkind
  | operationStarted htype' => simp [htype] at htype'
  | operationFinished htype' => simp [htype] at htype'
  | other hnot => exact absurd htype (hnot _ started_mem)

theorem Accepted.stepEvent_state (hkind : kind ∈ stepEventKinds)
    (htype : e.get "event_type" = .str kind) :
    ∃ state, Dict.get? m.steps (fingerprint a) = some state ∧ state.finished = false ∧
      p.get "step" = .ofText? state.step := by
  cases h with
  | stepStarted htype' =>
    obtain rfl := Json.str.inj (htype.symm.trans htype')
    simp [stepEventKinds] at hkind
  | stepEvent _ _ hstate hopened hstep => exact ⟨_, hstate, hopened, hstep⟩
  | operationStarted htype' =>
    obtain rfl := Json.str.inj (htype.symm.trans htype')
    simp [stepEventKinds] at hkind
  | operationFinished htype' =>
    obtain rfl := Json.str.inj (htype.symm.trans htype')
    simp [stepEventKinds] at hkind
  | other hnot => exact absurd htype (hnot _ (by simp [attemptEventKinds, hkind]))

theorem Accepted.operationStarted_new (htype : e.get "event_type" = .str "operation_started") :
    Dict.has m.operations (fingerprint a) = false := by
  cases h with
  | stepStarted htype' => simp [htype] at htype'
  | stepEvent htype' hkind =>
    obtain rfl := Json.str.inj (htype.symm.trans htype')
    simp [stepEventKinds] at hkind
  | operationStarted _ hnew => exact hnew
  | operationFinished htype' => simp [htype] at htype'
  | other hnot => exact absurd htype (hnot _ operationStarted_mem)

theorem Accepted.operationFinished_state
    (htype : e.get "event_type" = .str "operation_finished") :
    ∃ name state, Dict.get? m.operations (fingerprint a) = some state ∧ state.finished = false ∧
      p.get "name" = .str name ∧ state.name = some (fingerprint name) ∧
      p.get "class" = .ofText? state.class_ := by
  cases h with
  | stepStarted htype' => simp [htype] at htype'
  | stepEvent htype' hkind =>
    obtain rfl := Json.str.inj (htype.symm.trans htype')
    simp [stepEventKinds] at hkind
  | operationStarted htype' => simp [htype] at htype'
  | operationFinished _ hstate hopened hname hsame hclass =>
    exact ⟨_, _, hstate, hopened, hname, hsame, hclass⟩
  | other hnot => exact absurd htype (hnot _ operationFinished_mem)

end Accepted

end ExecutionMirror

/-! ## The registers of steps -/

section Registers

variable {T : PyStr → Prop} (hinj : ∀ a b, T a → T b → fingerprint a = fingerprint b → a = b)

/-- A step attempt that is started is known, and one that is open was started with its name and
is not finished since then. -/
structure StepsMirror (T : PyStr → Prop) (es : List Members) (steps : Dict Bytes StepState) :
    Prop where
  known : ∀ a, ∀ x ∈ es, ofAttempt "step_started" a x = true →
    Dict.has steps (fingerprint a) = true
  opened : ∀ a state, T a → Dict.get? steps (fingerprint a) = some state →
    state.finished = false →
    Since (fun s => ofAttempt "step_started" a s = true ∧ payloadGet s "step" = .ofText? state.step)
      (fun x => ¬ofAttempt "step_finished" a x = true) es

/-- An operation that is started is known, one that is open was started with its name and class
and is not finished since then, and one with side effects is then kept as open. -/
structure OperationsMirror (T : PyStr → Prop) (es : List Members)
    (operations : Dict Bytes OperationState) (opened : List Bytes) : Prop where
  known : ∀ a, ∀ x ∈ es, ofAttempt "operation_started" a x = true →
    Dict.has operations (fingerprint a) = true
  started : ∀ a state, T a → Dict.get? operations (fingerprint a) = some state →
    state.finished = false → ∃ name, T name ∧ state.name = some (fingerprint name) ∧
      Since (fun s => ofAttempt "operation_started" a s = true ∧
          payloadGet s "name" = .str name ∧ payloadGet s "class" = .ofText? state.class_)
        (fun x => ¬ofAttempt "operation_finished" a x = true) es
  open_ : ∀ a, T a → Since (fun s => ofAttempt "operation_started" a s = true ∧
      payloadGet s "class" ≠ .str "read_only")
    (fun x => ¬ofAttempt "operation_finished" a x = true) es → fingerprint a ∈ opened

/-- The latest attempt of the mapped step is the one kept, with what its events said. -/
structure LatestMirror (T : PyStr → Prop) (receipt : CompletionReceipt) (es : List Members)
    (attempt : Option Bytes) (state : Option CompletionState) : Prop where
  none_ : state = none → ∀ a, ∀ s ∈ es, ¬mappedStart receipt a s = true
  some_ : ∀ st, state = some st → ∃ a first start since, T a ∧ attempt = some (fingerprint a) ∧
    es = first ++ start :: since ∧ mappedStart receipt a start = true ∧
    (∀ x ∈ since, ∀ b, ¬mappedStart receipt b x = true) ∧
    st.gateResults = gateResults receipt a since ∧
    (st.finishedAt ≠ none → ∃ f ∈ since, ofAttempt "step_finished" a f = true ∧
      payloadGet f "step" = .str receipt.step ∧ st.outcome = payloadGet f "outcome" ∧
      st.checks = payloadGet f "checks")

variable {steps : Dict Bytes StepState} {operations : Dict Bytes OperationState}
  {opened : List Bytes} {e p : Members} {a : PyStr} {es : List Members}

theorem StepsMirror.skip (h : StepsMirror T es steps)
    (hs : ∀ a, ¬ofAttempt "step_started" a e = true)
    (hf : ∀ a, ¬ofAttempt "step_finished" a e = true) : StepsMirror T (es ++ [e]) steps := by
  refine ⟨fun b x hx hof => ?_, fun b state hb hget hopen => ?_⟩
  · rcases List.mem_append.mp hx with hx | hx
    · exact h.known b x hx hof
    · rw [List.mem_singleton.mp hx] at hof
      exact absurd hof (hs b)
  · exact since_concat.mpr (Or.inr ⟨h.opened b state hb hget hopen, hf b⟩)

include hinj in
theorem StepsMirror.start (h : StepsMirror T es steps) (ha : T a)
    (hof : ofAttempt "step_started" a e = true) {step : PyStr}
    (hstep : payloadGet e "step" = .str step) :
    StepsMirror T (es ++ [e]) (Dict.set steps (fingerprint a) ⟨some step, false⟩) := by
  refine ⟨fun b x hx hofx => ?_, fun b state hb hget hopen => ?_⟩
  · rw [Dict.has_set, Bool.or_eq_true, decide_eq_true_eq]
    rcases List.mem_append.mp hx with hx | hx
    · exact Or.inr (h.known b x hx hofx)
    · rw [List.mem_singleton.mp hx] at hofx
      rw [ofAttempt_unique hofx hof]
      exact Or.inl rfl
  · rw [Dict.get?_set] at hget
    split_ifs at hget with hkey
    · -- the attempt that was started just now
      obtain rfl := hinj b a hb ha hkey
      obtain rfl := Option.some.inj hget
      exact since_concat.mpr (Or.inl ⟨hof, hstep⟩)
    · exact since_concat.mpr (Or.inr ⟨h.opened b state hb hget hopen,
        not_ofAttempt_of_kind (ofAttempt_kind hof) (by simp)⟩)

theorem StepsMirror.finish (h : StepsMirror T es steps)
    (hof : ofAttempt "step_finished" a e = true) {state : StepState} :
    StepsMirror T (es ++ [e]) (Dict.set steps (fingerprint a) { state with finished := true }) := by
  refine ⟨fun b x hx hofx => ?_, fun b state' hb hget hopen => ?_⟩
  · rw [Dict.has_set, Bool.or_eq_true, decide_eq_true_eq]
    rcases List.mem_append.mp hx with hx | hx
    · exact Or.inr (h.known b x hx hofx)
    · rw [List.mem_singleton.mp hx] at hofx
      exact absurd hofx (not_ofAttempt_of_kind (ofAttempt_kind hof) (by simp))
  · rw [Dict.get?_set] at hget
    split_ifs at hget with hkey
    · obtain rfl := Option.some.inj hget
      cases hopen
    · refine since_concat.mpr (Or.inr ⟨h.opened b state' hb hget hopen, fun hof' => ?_⟩)
      exact hkey (by rw [ofAttempt_unique hof' hof])

theorem OperationsMirror.skip (h : OperationsMirror T es operations opened)
    (hs : ∀ a, ¬ofAttempt "operation_started" a e = true)
    (hf : ∀ a, ¬ofAttempt "operation_finished" a e = true) :
    OperationsMirror T (es ++ [e]) operations opened := by
  refine ⟨fun b x hx hof => ?_, fun b state hb hget hopen => ?_, fun b hb hsince => ?_⟩
  · rcases List.mem_append.mp hx with hx | hx
    · exact h.known b x hx hof
    · rw [List.mem_singleton.mp hx] at hof
      exact absurd hof (hs b)
  · obtain ⟨name, hname, hsame, hsince⟩ := h.started b state hb hget hopen
    exact ⟨name, hname, hsame, since_concat.mpr (Or.inr ⟨hsince, hf b⟩)⟩
  · rcases since_concat.mp hsince with ⟨hof, -⟩ | ⟨hsince, -⟩
    · exact absurd hof (hs b)
    · exact h.open_ b hb hsince

include hinj in
theorem OperationsMirror.start (h : OperationsMirror T es operations opened) (ha : T a)
    (hof : ofAttempt "operation_started" a e = true) {name : PyStr} (hn : T name)
    {cls : Option PyStr} (hname : payloadGet e "name" = .str name)
    (hclass : payloadGet e "class" = .ofText? cls) :
    OperationsMirror T (es ++ [e])
      (Dict.set operations (fingerprint a) ⟨some (fingerprint name), cls, false⟩)
      (if (payloadGet e "class").isText "read_only" then opened
        else opened.insert (fingerprint a)) := by
  refine ⟨fun b x hx hofx => ?_, fun b state hb hget hopen => ?_, fun b hb hsince => ?_⟩
  · rw [Dict.has_set, Bool.or_eq_true, decide_eq_true_eq]
    rcases List.mem_append.mp hx with hx | hx
    · exact Or.inr (h.known b x hx hofx)
    · rw [List.mem_singleton.mp hx] at hofx
      rw [ofAttempt_unique hofx hof]
      exact Or.inl rfl
  · rw [Dict.get?_set] at hget
    split_ifs at hget with hkey
    · obtain rfl := hinj b a hb ha hkey
      obtain rfl := Option.some.inj hget
      exact ⟨name, hn, rfl, since_concat.mpr (Or.inl ⟨hof, hname, hclass⟩)⟩
    · obtain ⟨name', hname', hsame, hsince⟩ := h.started b state hb hget hopen
      exact ⟨name', hname', hsame, since_concat.mpr (Or.inr ⟨hsince,
        not_ofAttempt_of_kind (ofAttempt_kind hof) (by simp)⟩)⟩
  · rcases since_concat.mp hsince with ⟨hofb, hne⟩ | ⟨hsince, -⟩
    · rw [if_neg (by simpa using hne), ofAttempt_unique hofb hof]
      exact List.mem_insert_self
    · have hold := h.open_ b hb hsince
      split_ifs
      · exact hold
      · exact List.mem_insert_of_mem hold

include hinj in
theorem OperationsMirror.finish (h : OperationsMirror T es operations opened) (ha : T a)
    (hof : ofAttempt "operation_finished" a e = true) {state : OperationState}
    {opened' : List Bytes}
    (hopened : opened' = opened ∨ opened' = opened.filter (· ≠ fingerprint a)) :
    OperationsMirror T (es ++ [e])
      (Dict.set operations (fingerprint a) { state with finished := true }) opened' := by
  refine ⟨fun b x hx hofx => ?_, fun b state' hb hget hopen => ?_, fun b hb hsince => ?_⟩
  · rw [Dict.has_set, Bool.or_eq_true, decide_eq_true_eq]
    rcases List.mem_append.mp hx with hx | hx
    · exact Or.inr (h.known b x hx hofx)
    · rw [List.mem_singleton.mp hx] at hofx
      exact absurd hofx (not_ofAttempt_of_kind (ofAttempt_kind hof) (by simp))
  · rw [Dict.get?_set] at hget
    split_ifs at hget with hkey
    · obtain rfl := Option.some.inj hget
      cases hopen
    · obtain ⟨name, hname, hsame, hsince⟩ := h.started b state' hb hget hopen
      refine ⟨name, hname, hsame, since_concat.mpr (Or.inr ⟨hsince, fun hof' => ?_⟩)⟩
      exact hkey (by rw [ofAttempt_unique hof' hof])
  · rcases since_concat.mp hsince with ⟨hofb, -⟩ | ⟨hsince, hnot⟩
    · exact absurd hofb (not_ofAttempt_of_kind (ofAttempt_kind hof) (by simp))
    · have hold := h.open_ b hb hsince
      have hne : fingerprint b ≠ fingerprint a := by
        intro hkey
        obtain rfl := hinj b a hb ha hkey
        exact hnot hof
      rcases hopened with rfl | rfl
      · exact hold
      · exact List.mem_filter.mpr ⟨hold, by simpa using hne⟩

/-! ## The registers of the receipt -/

variable {receipt : CompletionReceipt} {attempt : Option Bytes} {state : Option CompletionState}

theorem not_mappedStart_concat (h : ∀ a, ∀ s ∈ es, ¬mappedStart receipt a s = true)
    (he : ∀ b, ¬mappedStart receipt b e = true) :
    ∀ a, ∀ s ∈ es ++ [e], ¬mappedStart receipt a s = true := by
  intro b s hs
  rcases List.mem_append.mp hs with hs | hs
  · exact h b s hs
  · rw [List.mem_singleton.mp hs]
    exact he b

/-- An event that is no start of the mapped step, and no gate of the latest attempt. -/
theorem LatestMirror.skip (h : LatestMirror T receipt es attempt state)
    (hs : ∀ b, ¬mappedStart receipt b e = true)
    (hg : ∀ a, T a → attempt = some (fingerprint a) → gateResult? receipt a e = none) :
    LatestMirror T receipt (es ++ [e]) attempt state := by
  refine ⟨fun hnone => not_mappedStart_concat (h.none_ hnone) hs, fun st hst => ?_⟩
  obtain ⟨a, first, start, since, ha, hattempt, hes, hstart, hlast, hgates, hfin⟩ := h.some_ st hst
  refine ⟨a, first, start, since ++ [e], ha, hattempt, by rw [hes]; simp, hstart, ?_, ?_, ?_⟩
  · intro x hx b
    rcases List.mem_append.mp hx with hx | hx
    · exact hlast x hx b
    · rw [List.mem_singleton.mp hx]
      exact hs b
  · rw [gateResults_concat, hg a ha hattempt, hgates]
  · intro hne
    obtain ⟨f, hf, hrest⟩ := hfin hne
    exact ⟨f, List.mem_append_left _ hf, hrest⟩

theorem LatestMirror.start (ha : T a) (hstart : mappedStart receipt a e = true) (i : ℕ) :
    LatestMirror T receipt (es ++ [e]) (some (fingerprint a))
      (some ⟨receipt.step, i, [], .null, .null, none⟩) := by
  refine ⟨fun h => (by cases h), fun st hst => ?_⟩
  obtain rfl := Option.some.inj hst
  exact ⟨a, es, e, [], ha, rfl, rfl, hstart, by simp, rfl, fun h => absurd rfl h⟩

theorem gateResult?_of_kind {kind : PyStr} (htype : e.get "event_type" = .str kind)
    (hne : kind ≠ "gate_checked") : gateResult? receipt a e = none := by
  have : ¬ofAttempt "gate_checked" a e = true := not_ofAttempt_of_kind htype hne
  simp [gateResult?, this]

include hinj in
/-- An event of the latest attempt. -/
theorem LatestMirror.track {st : CompletionState} {i : ℕ}
    (h : LatestMirror T receipt es attempt (some st)) (ha : T a)
    (hattempt : attempt = some (fingerprint a)) (hp : payload? e = some p)
    (hversioned : ExecutionMirror.isVersioned p = true) (hat : attempt? p = some a)
    (hstep : p.get "step" = .str receipt.step) (hs : ∀ b, ¬mappedStart receipt b e = true) :
    LatestMirror T receipt (es ++ [e]) attempt (some (ExecutionMirror.trackGate e p i st)) := by
  refine ⟨fun h => (by cases h), fun st' hst' => ?_⟩
  obtain rfl := Option.some.inj hst'
  obtain ⟨b, first, start, since, hb, hattempt', hes, hstart, hlast, hgates, hfin⟩ := h.some_ st rfl
  obtain rfl : b = a := hinj b a hb ha (Option.some.inj (hattempt'.symm.trans hattempt))
  have hkeep : ∀ hf : ∃ f ∈ since, ofAttempt "step_finished" b f = true ∧
      payloadGet f "step" = .str receipt.step ∧ st.outcome = payloadGet f "outcome" ∧
      st.checks = payloadGet f "checks", ∃ f ∈ since ++ [e],
      ofAttempt "step_finished" b f = true ∧ payloadGet f "step" = .str receipt.step ∧
      st.outcome = payloadGet f "outcome" ∧ st.checks = payloadGet f "checks" := by
    rintro ⟨f, hf, hrest⟩
    exact ⟨f, List.mem_append_left _ hf, hrest⟩
  refine ⟨b, first, start, since ++ [e], hb, hattempt', by rw [hes]; simp, hstart, ?_, ?_, ?_⟩
  · intro x hx c
    rcases List.mem_append.mp hx with hx | hx
    · exact hlast x hx c
    · rw [List.mem_singleton.mp hx]
      exact hs c
  · rw [gateResults_concat]
    by_cases hgate : e.get "event_type" = .str "gate_checked"
    · have hof : ofAttempt "gate_checked" b e = true :=
        (ofAttempt_iff).mpr ⟨p, hp, hversioned, hgate, hat⟩
      have hkind : isKind e "gate_checked" = true := by simpa using hgate
      simp only [ExecutionMirror.trackGate, hkind, if_true, gateResult?, hof, payloadGet_eq hp,
        hstep, Json.isText_str, decide_true, Bool.and_self]
      cases p.get "boundary" <;> cases p.get "result" <;> simp [hgates]
    · have hof : ¬ofAttempt "gate_checked" b e = true := fun h => hgate (ofAttempt_kind h)
      have hnone : gateResult? receipt b e = none := by simp [gateResult?, hof]
      rw [hnone]
      simp only [ExecutionMirror.trackGate, isKind_iff, hgate, if_false]
      split_ifs <;> exact hgates
  · unfold ExecutionMirror.trackGate
    split_ifs with hgate hfinish
    · intro hne
      refine hkeep (hfin ?_) |>.imp fun f hf => ?_
      · revert hne
        split <;> exact id
      · split <;> exact hf
    · intro _
      refine ⟨e, by simp, ?_, by rw [payloadGet_eq hp, hstep], by rw [payloadGet_eq hp],
        by rw [payloadGet_eq hp]⟩
      exact (ofAttempt_iff).mpr ⟨p, hp, hversioned, isKind_iff.mp hfinish, hat⟩
    · exact fun hne => hkeep (hfin hne)

end Registers

/-! ## The registers of a run -/

/-- The attempt and the name of an event are among the texts of `T`. -/
def TextsIn (T : PyStr → Prop) (e : Members) : Prop :=
  ∀ s, payloadGet e "attempt" = .str s ∨ payloadGet e "name" = .str s → T s

/-- The registers of a mirror stand for the history. -/
structure Mirrors (T : PyStr → Prop) (es : List Members) (m : ExecutionMirror) : Prop where
  texts : ∀ x ∈ es, TextsIn T x
  steps : StepsMirror T es m.steps
  operations : OperationsMirror T es m.operations m.openSideEffectOperations
  latest : ∀ receipt, m.completionPolicy = some receipt →
    LatestMirror T receipt es m.latestCompletionAttempt m.latestCompletionState
  birth : (∃ b ∈ es, versionedBirth b = true) → m.versionedTicketBirth = true

section Mirrors

variable {T : PyStr → Prop} (hinj : ∀ a b, T a → T b → fingerprint a = fingerprint b → a = b)
variable {m n : ExecutionMirror} {es : List Members} {e p : Members} {i : ℕ}

theorem TextsIn.attempt (h : TextsIn T e) {kind a : PyStr} (hof : ofAttempt kind a e = true) :
    T a := by
  obtain ⟨p, hp, -, -, ha⟩ := (ofAttempt_iff).mp hof
  exact h a (Or.inl (by rw [payloadGet_eq hp, (attempt?_eq_some.mp ha).1]))

theorem mirrors_init (executionModel completionReceipt : Option Json) :
    Mirrors T [] (ExecutionMirror.init executionModel completionReceipt) := by
  have hfields : (ExecutionMirror.init executionModel completionReceipt).steps = [] ∧
      (ExecutionMirror.init executionModel completionReceipt).operations = [] ∧
      (ExecutionMirror.init executionModel completionReceipt).latestCompletionState = none := by
    unfold ExecutionMirror.init
    dsimp only
    split
    · exact ⟨rfl, rfl, rfl⟩
    · split <;> exact ⟨rfl, rfl, rfl⟩
  obtain ⟨hsteps, hops, hstate⟩ := hfields
  refine ⟨by simp, ?_, ?_, ?_, by simp⟩
  · rw [hsteps]
    exact ⟨by simp, fun a state _ h => by simp [Dict.get?] at h⟩
  · rw [hops]
    exact ⟨by simp, fun a state _ h => by simp [Dict.get?] at h,
      fun a _ h => absurd h not_since_nil⟩
  · intro receipt _
    rw [hstate]
    exact ⟨by simp, fun st h => (by cases h)⟩

theorem birth_concat (h : (∃ b ∈ es, versionedBirth b = true) → m.versionedTicketBirth = true)
    (hn : n.versionedTicketBirth = (m.versionedTicketBirth || versionedBirth e)) :
    (∃ b ∈ es ++ [e], versionedBirth b = true) → n.versionedTicketBirth = true := by
  rintro ⟨b, hb, hv⟩
  rw [hn, Bool.or_eq_true]
  rcases List.mem_append.mp hb with hb | hb
  · exact Or.inl (h ⟨b, hb, hv⟩)
  · rw [List.mem_singleton.mp hb] at hv
    exact Or.inr hv

theorem not_mappedStart {receipt : CompletionReceipt} {kind : PyStr}
    (htype : e.get "event_type" = .str kind) (hne : kind ≠ "step_started") (b : PyStr) :
    ¬mappedStart receipt b e = true := by
  intro h
  rw [mappedStart, Bool.and_eq_true] at h
  exact not_ofAttempt_of_kind htype hne h.1

include hinj in
/-- The tracked attempt after a versioned event. -/
theorem latest_track {receipt : CompletionReceipt} {a : PyStr}
    (h : LatestMirror T receipt es m.latestCompletionAttempt m.latestCompletionState)
    (hpolicy : m.completionPolicy = some receipt) (ha : T a) (hp : payload? e = some p)
    (hversioned : ExecutionMirror.isVersioned p = true) (hat : attempt? p = some a) :
    LatestMirror T receipt (es ++ [e]) (m.trackCompletionAttempt e p i).latestCompletionAttempt
      (m.trackCompletionAttempt e p i).latestCompletionState := by
  simp only [ExecutionMirror.trackCompletionAttempt, hpolicy, hat]
  by_cases hstart : mappedStart receipt a e = true
  · have hkind : isKind e "step_started" = true ∧
        (p.get "step").isText receipt.step = true := by
      rw [mappedStart, Bool.and_eq_true, payloadGet_eq hp] at hstart
      exact ⟨isKind_iff.mpr (ofAttempt_kind hstart.1), hstart.2⟩
    rw [if_pos (by simp [hkind.1, hkind.2])]
    exact LatestMirror.start ha hstart i
  · have hs : ∀ b, ¬mappedStart receipt b e = true := by
      intro b hb
      have hof : ofAttempt "step_started" b e = true := by
        rw [mappedStart, Bool.and_eq_true] at hb
        exact hb.1
      obtain rfl : a = b := Option.some.inj (hat.symm.trans (ofAttempt_attempt hof hp))
      exact hstart hb
    have hnot : ¬(isKind e "step_started" && (p.get "step").isText receipt.step) = true := by
      intro hboth
      rw [Bool.and_eq_true, isKind_iff] at hboth
      refine hs a ?_
      rw [mappedStart, Bool.and_eq_true, payloadGet_eq hp]
      exact ⟨(ofAttempt_iff).mpr ⟨p, hp, hversioned, hboth.1, hat⟩, hboth.2⟩
    rw [if_neg hnot]
    cases hst : m.latestCompletionState with
    | none =>
      rw [hst] at h
      simp only [hst]
      exact ⟨fun _ => not_mappedStart_concat (h.none_ rfl) hs, fun st h => (by cases h)⟩
    | some st =>
      rw [hst] at h
      dsimp only
      split_ifs with hsame
      · rw [Bool.and_eq_true, beq_iff_eq, Json.isText_iff] at hsame
        exact h.track hinj ha hsame.1 hp hversioned hat hsame.2 hs
      · simp only [hst]
        refine h.skip hs fun b hb hattempt => ?_
        by_contra hne
        unfold gateResult? at hne
        split_ifs at hne with hgate
        · rw [Bool.and_eq_true, payloadGet_eq hp] at hgate
          obtain rfl : a = b := Option.some.inj (hat.symm.trans (ofAttempt_attempt hgate.1 hp))
          exact hsame (by simp [hattempt, hgate.2])
        · exact hne rfl

include hinj in
/-- Every event that is not reported keeps the registers in step with the history. -/
theorem mirrors_consume (h : Mirrors T es m) (ht : TextsIn T e) (hon : m.enabled = true)
    (hc : m.consume e i = .ok n) (hok : n.problems = []) : Mirrors T (es ++ [e]) n := by
  have hpolicy := (ExecutionMirror.sameContract_consume hc).completionPolicy
  have htexts : ∀ x ∈ es ++ [e], TextsIn T x := by
    intro x hx
    rcases List.mem_append.mp hx with hx | hx
    · exact h.texts x hx
    · rw [List.mem_singleton.mp hx]
      exact ht
  cases ExecutionMirror.consumed_of_consume hon hc hok with
  | irrelevant hnot hsame hbirth =>
    refine ⟨htexts, ?_, ?_, fun receipt hr => ?_, birth_concat h.birth hbirth⟩
    · rw [hsame.steps]
      exact h.steps.skip (hnot.not_ofAttempt started_mem) (hnot.not_ofAttempt finished_mem)
    · rw [hsame.operations, hsame.opened]
      exact h.operations.skip (hnot.not_ofAttempt operationStarted_mem)
        (hnot.not_ofAttempt operationFinished_mem)
    · rw [hsame.attempt, hsame.state]
      refine (h.latest receipt (hpolicy ▸ hr)).skip (fun b hb => ?_) fun b _ _ => ?_
      · rw [mappedStart, Bool.and_eq_true] at hb
        exact hnot.not_ofAttempt started_mem b hb.1
      · have := hnot.not_ofAttempt gate_mem b
        simp [gateResult?, this]
  | @accepted p a m' hp hversioned ha hm' hacc hattempt hstate hbirth =>
    have hof : ∀ {kind}, e.get "event_type" = .str kind → ofAttempt kind a e = true :=
      fun htype => (ofAttempt_iff).mpr ⟨p, hp, hversioned, htype, ha⟩
    have haT : T a := ht a (Or.inl (by rw [payloadGet_eq hp, (attempt?_eq_some.mp ha).1]))
    have hlatest : ∀ receipt, n.completionPolicy = some receipt →
        LatestMirror T receipt (es ++ [e]) n.latestCompletionAttempt n.latestCompletionState := by
      intro receipt hr
      rw [hattempt, hstate, hm']
      exact latest_track hinj (m := { m with hasVersionedEvents := true })
        (h.latest receipt (hpolicy ▸ hr)) (hpolicy ▸ hr) haT hp hversioned ha
    refine ⟨htexts, ?_, ?_, hlatest, birth_concat h.birth hbirth⟩
    · -- the registers of steps
      cases hacc with
      | stepStarted htype hnew hstep hsteps =>
        rw [hsteps]
        exact h.steps.start hinj haT (hof htype) (by rw [payloadGet_eq hp, hstep])
      | @stepEvent kind state htype hkind hst hopened hstep hsteps =>
        rw [hsteps]
        split_ifs with hfinish
        · exact h.steps.finish (hof (hfinish ▸ htype))
        · refine h.steps.skip (fun b => not_ofAttempt_of_kind htype ?_) fun b =>
            not_ofAttempt_of_kind htype hfinish
          rintro rfl
          simp [stepEventKinds] at hkind
      | operationStarted htype hnew hname hclass hsteps =>
        rw [hsteps]
        exact h.steps.skip (fun b => not_ofAttempt_of_kind htype (by simp)) fun b =>
          not_ofAttempt_of_kind htype (by simp)
      | operationFinished htype hst hopened hname hsame hclass hsteps =>
        rw [hsteps]
        exact h.steps.skip (fun b => not_ofAttempt_of_kind htype (by simp)) fun b =>
          not_ofAttempt_of_kind htype (by simp)
      | other hnot hsteps =>
        rw [hsteps]
        exact h.steps.skip (fun b hb => hnot _ started_mem (ofAttempt_kind hb)) fun b hb =>
          hnot _ finished_mem (ofAttempt_kind hb)
    · -- the registers of operations
      cases hacc with
      | stepStarted htype hnew hstep hsteps hops hopen =>
        rw [hops, hopen]
        exact h.operations.skip (fun b => not_ofAttempt_of_kind htype (by simp)) fun b =>
          not_ofAttempt_of_kind htype (by simp)
      | @stepEvent kind state htype hkind hst hopened hstep hsteps hops hopen =>
        rw [hops, hopen]
        refine h.operations.skip (fun b => not_ofAttempt_of_kind htype ?_) fun b =>
          not_ofAttempt_of_kind htype ?_
        · rintro rfl
          simp [stepEventKinds] at hkind
        · rintro rfl
          simp [stepEventKinds] at hkind
      | @operationStarted name htype hnew hname hclass hsteps hops hopen =>
        have hn : T name := ht name (Or.inr (by rw [payloadGet_eq hp, hname]))
        rw [hops, hopen, ← payloadGet_eq hp]
        exact h.operations.start hinj haT (hof htype) hn (by rw [payloadGet_eq hp, hname])
          (by rw [payloadGet_eq hp]; exact hclass)
      | operationFinished htype hst hopened hname hsame hclass hsteps hops hopen =>
        rw [hops]
        exact h.operations.finish hinj haT (hof htype) hopen
      | other hnot hsteps hops hopen =>
        rw [hops, hopen]
        exact h.operations.skip (fun b hb => hnot _ operationStarted_mem (ofAttempt_kind hb))
          fun b hb => hnot _ operationFinished_mem (ofAttempt_kind hb)

/-! ## The rules at one event -/

theorem stepRule_of_consumed (h : Mirrors T es m) (hc : ExecutionMirror.Consumed m e i n)
    (ht : TextsIn T e) : StepRule es e := by
  refine ⟨fun a hof x hx hofx => ?_, fun kind hkind p hp hversioned htype => ?_⟩
  · obtain ⟨p, hp, hversioned, htype, ha⟩ := (ofAttempt_iff).mp hof
    obtain ⟨a', ha', hacc⟩ := hc.exists_accepted started_mem hp hversioned htype
    obtain rfl := Option.some.inj (ha.symm.trans ha')
    have hnew := hacc.stepStarted_new htype
    rw [h.steps.known a x hx hofx] at hnew
    cases hnew
  · obtain ⟨a, ha, hacc⟩ :=
      hc.exists_accepted (by simp [attemptEventKinds, hkind]) hp hversioned htype
    obtain ⟨state, hstate, hopened, hstep⟩ := hacc.stepEvent_state hkind htype
    have haT : T a := ht.attempt (ofAttempt_iff.mpr ⟨p, hp, hversioned, htype, ha⟩)
    refine ⟨a, ha, ?_⟩
    rw [hstep]
    exact h.steps.opened a state haT hstate hopened

include hinj in
theorem operationRule_of_consumed (h : Mirrors T es m) (hc : ExecutionMirror.Consumed m e i n)
    (ht : TextsIn T e) : OperationRule es e := by
  refine ⟨fun a hof x hx hofx => ?_, fun p hp hversioned htype => ?_⟩
  · obtain ⟨p, hp, hversioned, htype, ha⟩ := (ofAttempt_iff).mp hof
    obtain ⟨a', ha', hacc⟩ := hc.exists_accepted operationStarted_mem hp hversioned htype
    obtain rfl := Option.some.inj (ha.symm.trans ha')
    have hnew := hacc.operationStarted_new htype
    rw [h.operations.known a x hx hofx] at hnew
    cases hnew
  · obtain ⟨a, ha, hacc⟩ := hc.exists_accepted operationFinished_mem hp hversioned htype
    obtain ⟨name, state, hstate, hopened, hname, hsame, hclass⟩ :=
      hacc.operationFinished_state htype
    have haT : T a := ht.attempt (ofAttempt_iff.mpr ⟨p, hp, hversioned, htype, ha⟩)
    have hnameT : T name := ht name (Or.inr (by rw [payloadGet_eq hp, hname]))
    obtain ⟨started, hstarted, hsame', hsince⟩ :=
      h.operations.started a state haT hstate hopened
    -- the names have one fingerprint, so they are one name
    obtain rfl := hinj started name hstarted hnameT
      (Option.some.inj (hsame'.symm.trans hsame))
    refine ⟨a, ha, ?_⟩
    rw [hname, hclass]
    exact hsince

/-- What a change of the state is not reported for. -/
theorem stateChanged_of_consume (hc : m.consume e i = .ok n) (hok : n.problems = [])
    (hp : payload? e = some p) (htype : e.get "event_type" = .str "state_changed") :
    m.openSideEffectOperations = [] ∧
      (p.get "to" = .str "completed" → m.receiptProblems p i = []) := by
  have hn : n = m.stateChanged p i := by
    simpa [ExecutionMirror.consume, hp, isKind, htype] using hc.symm
  subst hn
  unfold ExecutionMirror.stateChanged at hok
  by_cases hto : p.get "to" = .str "completed"
  · simp only [hto, Json.isText_str, decide_true, if_true, ExecutionMirror.report,
      List.append_eq_nil_iff, issueUnless_eq_nil, List.isEmpty_iff] at hok
    exact ⟨hok.1.2, fun _ => hok.2⟩
  · simp only [Json.isText_iff, hto, if_false, ExecutionMirror.report,
      List.append_eq_nil_iff, issueUnless_eq_nil, List.isEmpty_iff] at hok
    exact ⟨hok.2, fun h => absurd h hto⟩

theorem quiescentRule_of_consume (h : Mirrors T es m) (hc : m.consume e i = .ok n)
    (hok : n.problems = []) : QuiescentRule es e := by
  rintro htype ⟨p, hp⟩ a hsince
  obtain ⟨x, hx, hof, -⟩ := hsince.exists_mem
  have hmem := h.operations.open_ a ((h.texts x hx).attempt hof) hsince
  rw [(stateChanged_of_consume hc hok hp htype).1] at hmem
  simp at hmem

/-- The receipt is not reported only when an attempt of the mapped step stands for it. -/
theorem completedBy_of_receiptProblems {receipt : CompletionReceipt}
    (hpolicy : m.completionPolicy = some receipt) (hr : m.receiptProblems p i = [])
    (h : LatestMirror T receipt es m.latestCompletionAttempt m.latestCompletionState)
    (hneed : (∃ a, ∃ s ∈ es, mappedStart receipt a s = true) ∨
      (m.versionedTicketBirth = true ∧ p.get "gates_skipped_for_test" ≠ .bool true)) :
    CompletedBy receipt es := by
  unfold ExecutionMirror.receiptProblems at hr
  simp only [hpolicy] at hr
  cases hst : m.latestCompletionState with
  | none =>
    rcases hneed with ⟨a, s, hs, hstart⟩ | ⟨hbirth, hskip⟩
    · exact absurd hstart (h.none_ hst a s hs)
    · rw [hst] at hr
      cases hg : p.get "gates_skipped_for_test" with
      | bool b => cases b <;> simp [hg, hbirth] at hr hskip
      | _ => simp [hg, hbirth] at hr
  | some st =>
    rw [hst] at hr
    dsimp only at hr
    split_ifs at hr with hfinished
    have hne : st.finishedAt ≠ none := by
      intro hnone
      simp [hnone] at hfinished
    obtain ⟨a, first, start, since, -, -, hes, hstart, hlast, hgates, hfin⟩ := h.some_ st hst
    obtain ⟨f, hf, hof, hstep, hout, hchecks⟩ := hfin hne
    simp only [ExecutionMirror.finishedProblems, List.append_eq_nil_iff, issueUnless_eq_nil,
      textSatisfies_iff, Bool.or_eq_true, beq_iff_eq, Bool.and_eq_true, Json.isObj_iff,
      List.map_eq_nil_iff, List.filter_eq_nil_iff, Bool.not_eq_true', Bool.not_eq_false,
      Json.isText_iff] at hr
    obtain ⟨⟨⟨outcome, houtcome, hgood⟩, ⟨checks, hobj⟩, heq⟩, hpass⟩ := hr
    refine ⟨a, first, start, since, hes, hstart, hlast, f, hf, hof, hstep, ?_, ?_, ?_⟩
    · rw [← hout, houtcome]
      rcases hgood with rfl | rfl
      · exact Or.inl rfl
      · exact Or.inr rfl
    · refine ⟨checks, by rw [← hchecks, hobj], ?_⟩
      rw [← hgates, ← hobj]
      exact heq
    · intro b hb
      rw [← hgates]
      exact hpass b hb

theorem completedRule_of_consume (h : Mirrors T es m) (hc : m.consume e i = .ok n)
    (hok : n.problems = []) : CompletedRule m.completionPolicy es e := by
  intro receipt p hpolicy hp htype hto hneed
  refine completedBy_of_receiptProblems hpolicy
    ((stateChanged_of_consume hc hok hp htype).2 hto) (h.latest receipt hpolicy) ?_
  exact hneed.imp_right fun hbirth => ⟨h.birth hbirth.1, hbirth.2⟩

end Mirrors

/-! ## A whole run -/

/-- A text that the events name as an attempt or as the name of an operation. -/
def NamedIn (es : List Members) (s : PyStr) : Prop :=
  ∃ e ∈ es, payloadGet e "attempt" = .str s ∨ payloadGet e "name" = .str s

/-- The policy a run is checked against. -/
def receiptPolicy (completionReceipt : Option Json) : Option CompletionReceipt :=
  completionReceipt.bind fun v => (normalizeCompletionReceipt v).toOption

/-- Every event of a run that reports nothing meets the rules. -/
theorem mirrors_consumeAll {T : PyStr → Prop}
    (hinj : ∀ a b, T a → T b → fingerprint a = fingerprint b → a = b) {m n : ExecutionMirror}
    (hinit : Mirrors T [] m) (hon : m.enabled = true) (es : List Members)
    (ht : ∀ e ∈ es, TextsIn T e) (hrun : m.consumeAll 0 es = .ok n) (hok : n.problems = []) :
    Mirrors T es n ∧ Every StepRule es ∧ Every OperationRule es ∧ Every QuiescentRule es ∧
      Every (CompletedRule m.completionPolicy) es := by
  induction es using List.reverseRecOn generalizing n with
  | nil =>
    obtain rfl := Except.ok.inj hrun
    exact ⟨hinit, every_nil, every_nil, every_nil, every_nil⟩
  | append_singleton es e ih =>
    obtain ⟨k, hk, hlast⟩ := ExecutionMirror.consumeAll_append.mp hrun
    have hc : k.consume e (0 + es.length + 1) = .ok n := by
      rw [ExecutionMirror.consumeAll] at hlast
      cases hcase : k.consume e (0 + es.length + 1) with
      | error err =>
        rw [hcase] at hlast
        cases hlast
      | ok k' =>
        rw [hcase] at hlast
        exact hlast
    have hcontract := ExecutionMirror.sameContract_consumeAll hk
    -- nothing was reported before the last event
    have hokk : k.problems = [] := by
      obtain ⟨ps, hps⟩ := (ExecutionMirror.sameContract_consume hc).problems
      rw [hok] at hps
      exact (List.append_eq_nil_iff.mp hps.symm).1
    have hte : TextsIn T e := ht e (by simp)
    obtain ⟨hm, hsteps, hops, hquiet, hdone⟩ :=
      ih (fun x hx => ht x (by simp [hx])) hk hokk
    have honk : k.enabled = true := hcontract.enabled.trans hon
    have hconsumed := ExecutionMirror.consumed_of_consume honk hc hok
    refine ⟨mirrors_consume hinj hm hte honk hc hok, every_concat.mpr ⟨hsteps, ?_⟩,
      every_concat.mpr ⟨hops, ?_⟩, every_concat.mpr ⟨hquiet, ?_⟩, every_concat.mpr ⟨hdone, ?_⟩⟩
    · exact stepRule_of_consumed hm hconsumed hte
    · exact operationRule_of_consumed hinj hm hconsumed hte
    · exact quiescentRule_of_consume hm hc hok
    · rw [← hcontract.completionPolicy]
      exact completedRule_of_consume hm hc hok

/-- A mirror of a present model that has no problem is enabled. -/
theorem init_of_problems {executionModel : Json} (hmodel : executionModel ≠ .null)
    {completionReceipt : Option Json}
    (hok : (ExecutionMirror.init (some executionModel) completionReceipt).problems = []) :
    (ExecutionMirror.init (some executionModel) completionReceipt).enabled = true ∧
      (ExecutionMirror.init (some executionModel) completionReceipt).completionPolicy =
        receiptPolicy completionReceipt ∧
      ∀ v, completionReceipt = some v → ∃ receipt, normalizeCompletionReceipt v = .ok receipt := by
  have hgiven : (some executionModel).filter (fun v => !v.pyEq .null) = some executionModel := by
    have : executionModel.pyEq .null = false := by
      rw [← Bool.not_eq_true, Json.pyEq_null]
      exact hmodel
    simp [Option.filter, this]
  unfold ExecutionMirror.init at hok ⊢
  simp only [hgiven] at hok ⊢
  cases hnorm : normalizeExecutionModel executionModel true with
  | error err => simp [hnorm] at hok
  | ok model =>
    simp only [hnorm, List.append_eq_nil_iff, issueUnless_eq_nil] at hok
    refine ⟨by simp, rfl, ?_⟩
    rintro v rfl
    have := hok.1.1
    cases hr : normalizeCompletionReceipt v with
    | ok receipt => exact ⟨receipt, rfl⟩
    | error err => simp [hr, Except.toOption] at this

/-- A ticket whose only step `s` stands for `completed`, with one operation of the name `x`. -/
def finishedRun : List Members :=
  let digest : Json := .str (List.replicate 64 (.scalar '0'))
  let versioned (kind : PyStr) (ms : Members) : Members :=
    [("event_type", .str kind),
      ("payload", .obj (("execution_model_version", .int 1) :: ("attempt", .str "x") :: ms))]
  [[("event_type", .str "ticket_created"),
      ("payload", .obj [("execution_contract_version", .int 1)])],
    versioned "step_started"
      [("step", .str "s"), ("input_digest", digest), ("contract_digest", digest)],
    versioned "operation_started"
      [("name", .str "x"), ("class", .str "c"), ("input_digest", digest),
        ("idempotency_provided", .bool true)],
    versioned "operation_finished"
      [("name", .str "x"), ("class", .str "c"), ("outcome", .str "success"),
        ("duration_ms", .int 1), ("evidence", .str "e"), ("after_check", .str "c"),
        ("decision", .obj [])],
    versioned "gate_checked"
      [("step", .str "s"), ("boundary", .str "b"), ("result", .str "pass"),
        ("captured_digest", digest), ("current_digest", digest)],
    versioned "step_finished"
      [("step", .str "s"), ("outcome", .str "success"), ("duration_ms", .int 1),
        ("checks", .obj [("b", .str "pass")])],
    [("event_type", .str "state_changed"), ("payload", .obj [("to", .str "completed")])]]

def finishedRunModel : Json :=
  .obj [("schema_version", .int 1), ("steps", .arr [.str "s"]), ("boundaries", .arr [.str "b"]),
    ("step_outcomes", .arr [.str "success"]), ("operation_classes", .arr [.str "c"])]

def finishedRunReceipt : Json :=
  .obj [("schema_version", .int 1), ("target", .str "completed"), ("step", .str "s"),
    ("required_checks", .arr [.str "b"])]

end Icode
