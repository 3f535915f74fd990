import Icode.AgentLoop
import Icode.Outcome

/-!
# The rules of an agent run

`Rule` says what each event of a run means for the events before it, and `Inv` what the
state of the loop says about them. `inv_run` : every run keeps the rules, however it
ends.

A tool is called only after the decision or the approval, below the budget, as the tool
that is forced if one is, and with a side effect only after a start receipt that lets it
execute (`Gate`). A finish receipt comes right after its tool. So each such tool is
followed by one finish of its attempt exactly when it gives a result whose metadata can
be written and the event hook returns (`gated_run`).

Without compaction every history shown to the model has the replies right after the
calls (`adjacent_run`). The labels of the open operations are those of the events, the
last eight of them, so while there are at most eight a compaction mentions them all
(`mentions_run`).
-/

namespace Icode.Agent

open Compaction History Pairing Py

/-! ## Events -/

namespace Event

def IsCalled : Event → Prop
  | .called .. => True
  | _ => False

def IsStarted : Event → Prop
  | .started .. => True
  | _ => False

def IsInvoked : Event → Prop
  | .invoked .. => True
  | _ => False

def IsFinished : Event → Prop
  | .finished .. => True
  | _ => False

/-- No call is taken up, no tool called and none finished. -/
def Between (e : Event) : Prop :=
  ¬e.IsCalled ∧ ¬e.IsInvoked ∧ ¬e.IsFinished

/-- A call of the tool is taken up, and no other tool is forced. -/
def TakesUp (name : PyStr) (args : Members) (e : Event) : Prop :=
  ∃ forced, e = .called name args forced ∧ (forced = none ∨ forced = some name)

/-- The guard allows the call. -/
def Allows : Event → Prop
  | .decided verdict => verdict.decision = .allow
  | _ => False

/-- The approver approves the call. -/
def Approves (name : PyStr) (args : Members) : Event → Prop
  | .asked request approved => request.tool = name ∧ request.arguments = args ∧ approved = some true
  | _ => False

/-- The start of an attempt lets the action execute. -/
def Starts (name : PyStr) (attempt : Option PyStr) (e : Event) : Prop :=
  ∃ request op, e = .started name request (some op) ∧ op.canExecute = true ∧ op.attempt = attempt

/-- The tokens the model used. -/
def tokens : Event → ℤ
  | .model _ _ (.assistant _ lastUsage) => lastUsage.getD 0
  | _ => 0

/-- What is left open: a start that was refused, or an attempt that could not be finished. -/
def openLabel : Event → Option PyStr
  | .started tool _ (some op) =>
    if op.canExecute then none else some (tool ++ lit ":" ++ op.detail.take 80)
  | .finished tool request (some false) => some (tool ++ lit ":" ++ request.attempt.take 80)
  | _ => none

/-- The attempt of a start that lets the action execute, or of a tool that is called. -/
def IsOpening : Event → Prop
  | .started _ _ (some op) => op.canExecute = true
  | .invoked _ _ _ attempt _ => attempt ≠ none
  | _ => False

/-- A finish that was answered. -/
def IsAnswered : Event → Prop
  | .finished _ _ answer => answer ≠ none
  | _ => False

end Event

/-- The tokens used after the events. -/
def tokensUsed (start : ℤ) (es : List Event) : ℤ :=
  start + (es.map Event.tokens).sum

/-- The labels of what was left open. -/
def openLabels (carried : List PyStr) (es : List Event) : List PyStr :=
  carried ++ es.filterMap Event.openLabel

/-- The labels that are kept are all of them, while there are at most eight. -/
def Labelled (carried : List PyStr) (es : List Event) (unclosed : List PyStr) : Prop :=
  (openLabels carried es).length ≤ 8 → unclosed = openLabels carried es

/-! ## Rules -/

section Rules

variable (env : Env)

/-- The run is not over its budget. -/
def WithinBudget (tokens : ℤ) : Prop :=
  env.budget.verdict tokens ≠ some .overBudget

/-- A tool whose actions need receipts. -/
def NeedsReceipt (opclass : PyStr) : Prop :=
  env.operations = true ∧ opclass ≠ opclassReadOnly

/-- The call of a tool may go on: it was taken up, decided or approved, and is in the budget. -/
structure Permit (start : ℤ) (before : List Event) (name : PyStr) (args : Members)
    (opclass : PyStr) : Prop where
  registered : Dict.get? env.registry name = some opclass
  taken : Since (Event.TakesUp name args) Event.Between before
  allowed : Since Event.Allows Event.Between before ∨
    Since (Event.Approves name args) Event.Between before
  within : WithinBudget env (tokensUsed start before)

/-- What comes before a tool is called. -/
structure Gate (start : ℤ) (before : List Event) (name : PyStr) (args : Members)
    (opclass : PyStr) (attempt : Option PyStr) : Prop
    extends Permit env start before name args opclass where
  needed : NeedsReceipt env opclass → attempt ≠ none
  receipt : attempt ≠ none →
    Since (Event.Starts name attempt) (fun e => e.Between ∧ ¬e.IsStarted) before

/-- The registry gives a result whose metadata can be written. -/
def Reports (name : PyStr) (outcome : ToolOutcome) : Prop :=
  ∃ result, invokeTool env.registry name outcome = some result ∧ result.metadata.dumps ≠ none

/-- Every attempt since the last call is finished. -/
def Settled (es : List Event) : Prop :=
  ∀ before e after, es = before ++ e :: after → e.IsOpening → (∀ x ∈ after, ¬x.IsCalled) →
    ∃ x ∈ after, x.IsAnswered

/-- The history mentions a label. -/
def Mentions (history : List Members) (label : PyStr) : Prop :=
  ∃ m ∈ history, contains (content m) (label.take unclosedMaxChars) = true

/-- What an event means for the events before it. `P` is a condition on the start of the run
under which the histories shown to the model are in order. -/
def Rule (start : ℤ) (carried : List PyStr) (P : Prop) (before : List Event) : Event → Prop
  | .called .. => Settled before
  | .started .. => Since Event.IsCalled (fun e => e.Between ∧ ¬e.IsStarted) before
  | .invoked name args opclass attempt _ => Gate env start before name args opclass attempt
  | .finished tool request _ => ∃ b args opclass outcome,
      before = b ++ [.invoked tool args opclass (some request.attempt) outcome,
        .hook "tool_result" false] ∧ Reports env tool outcome
  | .model history _ _ => P → Adjacent callIds replyId history
  | .compacted _ history => Settled before ∧ ((openLabels carried before).length ≤ 8 →
      ∀ label ∈ openLabels carried before, isStated env.printable (.str label) = true →
        Mentions history label)
  | _ => True

/-- What the history, the trace and the tokens of a loop say. The calls `ids` wait for their
replies. -/
structure Inv (start : ℤ) (carried : List PyStr) (P : Prop) (ids : List Json)
    (history : List Members) (trace : List Event) (tokens : ℤ) : Prop where
  rules : Every (Rule env start carried P) trace
  tokens_eq : tokens = tokensUsed start trace
  paired : P → Open callIds replyId ids history

/-- `Inv` of a loop. -/
def LoopInv (start : ℤ) (carried : List PyStr) (P : Prop) (ids : List Json) (l : Loop) : Prop :=
  Inv env start carried P ids l.history l.trace l.totalTokens

/-- Between two calls nothing is open, and the labels are those of what was left open. -/
structure Rest (start : ℤ) (carried : List PyStr) (P : Prop) (ids : List Json)
    (history : List Members) (trace : List Event) (unclosed : List PyStr) (tokens : ℤ) : Prop
    extends Inv env start carried P ids history trace tokens where
  settled : Settled trace
  labelled : Labelled carried trace unclosed

/-- `Rest` of a loop. -/
def LoopRest (start : ℤ) (carried : List PyStr) (P : Prop) (ids : List Json) (l : Loop) : Prop :=
  Rest env start carried P ids l.history l.trace l.unclosed l.totalTokens

/-- `Rest` of a loop that may call a tool. -/
structure Able (start : ℤ) (carried : List PyStr) (P : Prop) (ids : List Json) (l : Loop) :
    Prop where
  rest : LoopRest env start carried P ids l
  within : WithinBudget env l.totalTokens

/-- Every tool since the last call has its finish. -/
def Done (es : List Event) : Prop :=
  ∀ before name args opclass attempt outcome after,
    es = before ++ .invoked name args opclass (some attempt) outcome :: after →
      (∀ x ∈ after, ¬x.IsCalled) → ∃ x ∈ after, x.IsFinished

/-- A tool since the last call has its finish, unless it did not end as it should. -/
def Aborted (es : List Event) : Prop :=
  ∀ before name args opclass attempt outcome after,
    es = before ++ .invoked name args opclass (some attempt) outcome :: after →
      (∀ x ∈ after, ¬x.IsCalled) → (∃ x ∈ after, x.IsFinished) ∨
        ¬(Reports env name outcome ∧ after.head? = some (.hook "tool_result" false))

/-- What holds of a run that ended. -/
structure Final (start : ℤ) (carried : List PyStr) (P : Prop) (ended : Ended) : Prop where
  rules : Every (Rule env start carried P) ended.loop.trace
  aborted : Aborted env ended.loop.trace

end Rules

/-! ## Attempts and their finish -/

/-- An event of no rule. -/
def Event.IsPlain : Event → Prop
  | .hook .. => True
  | .guarded .. => True
  | .decided .. => True
  | .asked .. => True
  | .probed => True
  | _ => False

theorem Event.IsPlain.quiet {e : Event} (h : e.IsPlain) : e.Between ∧ ¬e.IsStarted := by
  cases e <;> simp_all [IsPlain, Between, IsCalled, IsInvoked, IsFinished, IsStarted]

theorem Event.IsPlain.frame {e : Event} (h : e.IsPlain) :
    ¬e.IsOpening ∧ e.openLabel = none ∧ e.tokens = 0 := by
  cases e <;> first | exact h.elim | exact ⟨id, rfl, rfl⟩

theorem Settled.done {es : List Event} (h : Settled es) : Done es := by
  intro before name args opclass attempt outcome after hes hcalled
  obtain ⟨x, hx, hanswered⟩ := h before _ after hes (by simp [Event.IsOpening]) hcalled
  refine ⟨x, hx, ?_⟩
  cases x <;> simp_all [Event.IsAnswered, Event.IsFinished]

theorem Settled.concat {es : List Event} {e : Event} (h : Settled es) (he : ¬e.IsOpening) :
    Settled (es ++ [e]) := by
  intro before x after hsplit hx hcalled
  rcases concat_eq_append_cons.mp hsplit with ⟨-, rfl, -⟩ | ⟨rest, rfl, hes⟩
  · exact absurd hx he
  · obtain ⟨y, hy, hanswered⟩ := h before x rest hes hx fun y hy => hcalled y (by simp [hy])
    exact ⟨y, by simp [hy], hanswered⟩

theorem Done.concat {es : List Event} {e : Event} (h : Done es) (he : ¬e.IsInvoked) :
    Done (es ++ [e]) := by
  intro before name args opclass attempt outcome after hsplit hcalled
  rcases concat_eq_append_cons.mp hsplit with ⟨-, rfl, -⟩ | ⟨rest, rfl, hes⟩
  · exact absurd trivial he
  · obtain ⟨y, hy, hfinished⟩ := h before _ _ _ _ _ rest hes fun y hy => hcalled y (by simp [hy])
    exact ⟨y, by simp [hy], hfinished⟩

/-- Behind a finish that was answered nothing is open. -/
theorem settled_of_finished (es : List Event) (tool : PyStr) (request : OperationFinish)
    (answer : Bool) : Settled (es ++ [.finished tool request (some answer)]) := by
  intro before x after hsplit hx _
  rcases concat_eq_append_cons.mp hsplit with ⟨-, rfl, -⟩ | ⟨rest, rfl, -⟩
  · exact hx.elim
  · exact ⟨_, List.mem_append_right _ (List.mem_singleton_self _), by simp [Event.IsAnswered]⟩

theorem done_of_finished (es : List Event) (tool : PyStr) (request : OperationFinish)
    (answer : Option Bool) : Done (es ++ [.finished tool request answer]) := by
  intro before name args opclass attempt outcome after hsplit _
  rcases concat_eq_append_cons.mp hsplit with ⟨-, h, -⟩ | ⟨rest, rfl, -⟩
  · cases h
  · exact ⟨_, List.mem_append_right _ (List.mem_singleton_self _), trivial⟩

theorem Done.aborted {env : Env} {es : List Event} (h : Done es) : Aborted env es :=
  fun before name args opclass attempt outcome after hes hcalled =>
    Or.inl (h before name args opclass attempt outcome after hes hcalled)

/-- The run ends behind a tool that did not end as it should. -/
theorem Done.aborted_append {env : Env} {es tail : List Event} {name : PyStr} {args : Members}
    {opclass : PyStr} {attempt : Option PyStr} {outcome : ToolOutcome} (h : Done es)
    (htail : ∀ x ∈ tail, ¬x.IsInvoked)
    (hfail : ¬(Reports env name outcome ∧ tail.head? = some (.hook "tool_result" false))) :
    Aborted env (es ++ .invoked name args opclass attempt outcome :: tail) := by
  intro before name' args' opclass' attempt' outcome' after hsplit hcalled
  rcases List.append_eq_append_iff.mp hsplit with ⟨cs, rfl, hcs⟩ | ⟨cs, hes, hcs⟩
  · cases cs with
    | nil =>
      obtain ⟨he, rfl⟩ := List.cons.inj hcs
      injection he with hname _ _ _ houtcome
      exact Or.inr (by rwa [← hname, ← houtcome])
    | cons c cs =>
      obtain ⟨-, rfl⟩ := List.cons.inj hcs
      have hmem := htail (.invoked name' args' opclass' (some attempt') outcome') (by simp)
      exact absurd trivial hmem
  · cases cs with
    | nil =>
      obtain ⟨he, rfl⟩ := List.cons.inj hcs
      injection he with hname _ _ _ houtcome
      exact Or.inr (by rwa [hname, houtcome])
    | cons c cs =>
      obtain ⟨rfl, rfl⟩ := List.cons.inj hcs
      obtain ⟨x, hx, hfinished⟩ := h before _ _ _ _ _ cs hes fun x hx => hcalled x (by simp [hx])
      exact Or.inl ⟨x, by simp [hx], hfinished⟩

theorem tokensUsed_concat {start : ℤ} {es : List Event} {e : Event} :
    tokensUsed start (es ++ [e]) = tokensUsed start es + e.tokens := by
  simp [tokensUsed, add_assoc]

theorem openLabels_concat {carried : List PyStr} {es : List Event} {e : Event} :
    openLabels carried (es ++ [e]) = openLabels carried es ++ e.openLabel.toList := by
  simp only [openLabels, List.filterMap_append, List.append_assoc]
  cases h : e.openLabel <;> simp [h]

theorem Labelled.concat {carried unclosed : List PyStr} {es : List Event} {e : Event}
    (h : Labelled carried es unclosed) (he : e.openLabel = none) :
    Labelled carried (es ++ [e]) unclosed := by
  rw [Labelled, openLabels_concat, he, Option.toList_none, List.append_nil]
  exact h

/-! ## Steps of the loop -/

section Steps

variable {env : Env} {w : World} {start : ℤ} {carried : List PyStr} {P : Prop} {ids : List Json}
  {l : Loop}

/-- A run ends here. -/
theorem LoopInv.final (h : LoopInv env start carried P ids l) (hdone : Done l.trace)
    (result : Option LoopResult) : Final env start carried P ⟨result, l⟩ :=
  ⟨h.rules, hdone.aborted⟩

theorem LoopInv.log_plain (h : LoopInv env start carried P ids l) {e : Event} (he : e.IsPlain) :
    LoopInv env start carried P ids (l.log e) where
  rules := every_concat.mpr ⟨h.rules, by cases e <;> simp_all [Event.IsPlain, Rule]⟩
  tokens_eq := by
    rw [Loop.log, tokensUsed_concat, ← h.tokens_eq, he.frame.2.2, add_zero]
  paired := h.paired

theorem LoopRest.log_plain (h : LoopRest env start carried P ids l) {e : Event} (he : e.IsPlain) :
    LoopRest env start carried P ids (l.log e) where
  toInv := LoopInv.log_plain h.toInv he
  settled := h.settled.concat he.frame.1
  labelled := h.labelled.concat he.frame.2.1

theorem Able.log_plain (h : Able env start carried P ids l) {e : Event} (he : e.IsPlain) :
    Able env start carried P ids (l.log e) :=
  ⟨h.rest.log_plain he, h.within⟩

/-- An event hook returns, or the run ends. -/
theorem LoopInv.emit (h : LoopInv env start carried P ids l) {kind : PyStr}
    (haborted : Aborted env (l.trace ++ [.hook kind true])) :
    Outcome (fun l' => LoopInv env start carried P ids l' ∧ l' = l.log (.hook kind false))
      (Final env start carried P) (l.emit w kind) := by
  have hlog : ∀ raised, LoopInv env start carried P ids (l.log (.hook kind raised)) :=
    fun raised => h.log_plain trivial
  unfold Loop.emit
  dsimp only
  split_ifs with hraised
  · refine ⟨(hlog _).rules, ?_⟩
    rw [hraised]
    exact haborted
  · refine ⟨hlog _, ?_⟩
    rw [Bool.not_eq_true] at hraised
    rw [hraised]

theorem LoopRest.emit (h : LoopRest env start carried P ids l) (kind : PyStr) :
    Outcome (fun l' => LoopRest env start carried P ids l' ∧ l' = l.log (.hook kind false))
      (Final env start carried P) (l.emit w kind) := by
  refine (LoopInv.emit h.toInv (h.settled.concat id).done.aborted).mono ?_ fun _ he => he
  rintro l' ⟨-, rfl⟩
  exact ⟨h.log_plain trivial, rfl⟩

theorem Able.emit (h : Able env start carried P ids l) (kind : PyStr) :
    Outcome (fun l' => Able env start carried P ids l' ∧ l' = l.log (.hook kind false))
      (Final env start carried P) (l.emit w kind) := by
  refine (LoopRest.emit h.rest kind).mono ?_ fun _ he => he
  rintro l' ⟨-, rfl⟩
  exact ⟨h.log_plain trivial, rfl⟩

/-- What was left open is labelled. -/
theorem labelled_pushUnclosed {es fs : List Event} {label : PyStr}
    (h : Labelled carried es l.unclosed)
    (hfs : openLabels carried fs = openLabels carried es ++ [label]) :
    Labelled carried fs (l.pushUnclosed label).unclosed := by
  intro hcount
  have hlength : (openLabels carried es).length + 1 ≤ 8 := by
    rwa [hfs, List.length_append, List.length_singleton] at hcount
  rw [Loop.pushUnclosed, h (Nat.le_of_succ_le hlength), ← hfs, Nat.sub_eq_zero_of_le hcount,
    List.drop_zero]

/-- The finish receipt, right behind its tool. -/
theorem finishOperation_spec {inv : ToolInvocation} {attempt : PyStr} {result : ToolResult}
    {es : List Event} {args : Members} {opclass : PyStr} {outcome : ToolOutcome}
    (h : LoopInv env start carried P ids l) (hwithin : WithinBudget env l.totalTokens)
    (hlabelled : Labelled carried l.trace l.unclosed) (hdone : Done es)
    (htrace : l.trace = es ++ [.invoked inv.name args opclass (some attempt) outcome,
      .hook "tool_result" false])
    (hresult : invokeTool env.registry inv.name outcome = some result) :
    Outcome (fun p => Able env start carried P ids p.2) (Final env start carried P)
      (finishOperation w l inv attempt result) := by
  unfold finishOperation
  split
  · next hdumps =>
    refine ⟨h.rules, ?_⟩
    rw [htrace]
    refine hdone.aborted_append (by simp [Event.IsInvoked]) ?_
    rintro ⟨⟨r, hr, hne⟩, -⟩
    rw [hresult] at hr
    obtain rfl := Option.some.inj hr
    exact hne hdumps
  · next checkRef hdumps =>
    have hlog : ∀ request answer, OperationFinish.attempt request = attempt →
        LoopInv env start carried P ids (l.log (.finished inv.name request answer)) := by
      rintro request answer rfl
      refine ⟨every_concat.mpr ⟨h.rules, es, args, opclass, outcome, htrace, result, hresult, ?_⟩,
        ?_, h.paired⟩
      · rw [hdumps]
        simp
      · rw [Loop.log, tokensUsed_concat, ← h.tokens_eq]
        exact (add_zero _).symm
    dsimp only
    split
    · exact ⟨(hlog _ _ rfl).rules, (done_of_finished _ _ _ _).aborted⟩
    · next hanswer =>
      rw [hanswer]
      exact ⟨⟨hlog _ _ rfl, settled_of_finished _ _ _ _, hlabelled.concat rfl⟩, hwithin⟩
    · next hanswer =>
      rw [hanswer]
      have hsettled := settled_of_finished l.trace inv.name
      refine Outcome.bind (LoopInv.emit (hlog _ _ rfl) ((hsettled _ _).concat id).done.aborted) ?_
      rintro l' ⟨hl', rfl⟩
      refine ⟨⟨hl', (hsettled _ _).concat id, labelled_pushUnclosed hlabelled ?_⟩, hwithin⟩
      change openLabels carried (l.trace ++ [_] ++ [_]) = _
      rw [openLabels_concat, openLabels_concat]
      exact List.append_nil _

theorem Permit.log {es : List Event} {name : PyStr} {args : Members} {opclass : PyStr}
    (h : Permit env start es name args opclass) {e : Event} (he : e.Between)
    (htokens : e.tokens = 0) : Permit env start (es ++ [e]) name args opclass where
  registered := h.registered
  taken := since_concat.mpr (Or.inr ⟨h.taken, he⟩)
  allowed := h.allowed.imp (fun h => since_concat.mpr (Or.inr ⟨h, he⟩))
    (fun h => since_concat.mpr (Or.inr ⟨h, he⟩))
  within := by rw [tokensUsed_concat, htokens, add_zero]; exact h.within

theorem Gate.log_plain {es : List Event} {name : PyStr} {args : Members} {opclass : PyStr}
    {attempt : Option PyStr} (h : Gate env start es name args opclass attempt) {e : Event}
    (he : e.IsPlain) : Gate env start (es ++ [e]) name args opclass attempt where
  toPermit := h.toPermit.log he.quiet.1 he.frame.2.2
  needed := h.needed
  receipt := fun hattempt => since_concat.mpr (Or.inr ⟨h.receipt hattempt, he.quiet⟩)

/-- A loop that is about to call a tool. -/
structure Ready (env : Env) (start : ℤ) (carried : List PyStr) (P : Prop) (ids : List Json)
    (name : PyStr) (args : Members) (opclass : PyStr) (attempt : Option PyStr) (l : Loop) :
    Prop where
  inv : LoopInv env start carried P ids l
  within : WithinBudget env l.totalTokens
  labelled : Labelled carried l.trace l.unclosed
  done : Done l.trace
  settled : attempt = none → Settled l.trace
  nonempty : ∀ a ∈ attempt, a.isEmpty = false
  gate : Gate env start l.trace name args opclass attempt

/-- The tool is called, and the attempt of its receipt finished. -/
theorem execute_spec {inv : ToolInvocation} {opclass : PyStr} {attempt : Option PyStr}
    (h : Ready env start carried P ids inv.name inv.arguments opclass attempt l) :
    Outcome (fun p => Able env start carried P ids p.2) (Final env start carried P)
      (execute env w l inv opclass attempt) := by
  unfold execute
  refine Outcome.bind (h.inv.emit (h.done.concat id).aborted) ?_
  rintro l₁ ⟨hinv, hl₁⟩
  have hdone : Done l₁.trace := hl₁ ▸ h.done.concat id
  have hgate : Gate env start l₁.trace inv.name inv.arguments opclass attempt :=
    hl₁ ▸ h.gate.log_plain trivial
  have hwithin : WithinBudget env l₁.totalTokens := hl₁ ▸ h.within
  have hlabelled : Labelled carried l₁.trace l₁.unclosed := hl₁ ▸ h.labelled.concat rfl
  have hsettled : attempt = none → Settled l₁.trace := fun hattempt =>
    hl₁ ▸ (h.settled hattempt).concat id
  clear hl₁
  dsimp only
  generalize w.tool l₁.trace inv.name inv.arguments = outcome
  have hinvoked : LoopInv env start carried P ids
      (l₁.log (.invoked inv.name inv.arguments opclass attempt outcome)) := by
    refine ⟨every_concat.mpr ⟨hinv.rules, hgate⟩, ?_, hinv.paired⟩
    rw [Loop.log, tokensUsed_concat, ← hinv.tokens_eq]
    exact (add_zero _).symm
  split
  · next hnone =>
    refine ⟨hinvoked.rules, hdone.aborted_append (by simp) ?_⟩
    rintro ⟨⟨r, hr, -⟩, -⟩
    rw [hnone] at hr
    simp at hr
  · next result hresult =>
    refine Outcome.bind (hinvoked.emit ?_) ?_
    · change Aborted env (l₁.trace ++ [_] ++ [_])
      rw [List.append_assoc]
      exact hdone.aborted_append (by simp [Event.IsInvoked]) (by simp)
    · rintro l₂ ⟨hinv₂, hl₂⟩
      have hlabelled₂ : Labelled carried l₂.trace l₂.unclosed :=
        hl₂ ▸ (hlabelled.concat rfl).concat rfl
      have hwithin₂ : WithinBudget env l₂.totalTokens := hl₂ ▸ hwithin
      cases attempt with
      | none =>
        refine ⟨⟨hinv₂, ?_, hlabelled₂⟩, hwithin₂⟩
        rw [hl₂]
        exact ((hsettled rfl).concat (by simp [Event.IsOpening])).concat id
      | some a =>
        simp only [Option.filter_some, h.nonempty a rfl, Bool.not_false, if_true]
        have htrace : l₂.trace = l₁.trace ++ [.invoked inv.name inv.arguments opclass (some a)
            outcome, .hook "tool_result" false] := by
          rw [hl₂]
          exact List.append_assoc _ _ _
        exact finishOperation_spec hinv₂ hwithin₂ hlabelled₂ hdone htrace hresult

/-- A loop that has taken up a call and not started it. -/
structure Calling (env : Env) (start : ℤ) (carried : List PyStr) (P : Prop) (ids : List Json)
    (name : PyStr) (args : Members) (l : Loop) : Prop where
  able : Able env start carried P ids l
  taken : Since (Event.TakesUp name args) Event.Between l.trace
  fresh : Since Event.IsCalled (fun e => e.Between ∧ ¬e.IsStarted) l.trace

theorem Calling.log_plain {name : PyStr} {args : Members}
    (h : Calling env start carried P ids name args l) {e : Event} (he : e.IsPlain) :
    Calling env start carried P ids name args (l.log e) where
  able := h.able.log_plain he
  taken := since_concat.mpr (Or.inr ⟨h.taken, he.quiet.1⟩)
  fresh := since_concat.mpr (Or.inr ⟨h.fresh, he.quiet⟩)

theorem Calling.emit {name : PyStr} {args : Members}
    (h : Calling env start carried P ids name args l) (kind : PyStr) :
    Outcome (fun l' => Calling env start carried P ids name args l' ∧
      l' = l.log (.hook kind false)) (Final env start carried P) (l.emit w kind) := by
  refine (h.able.emit kind).mono ?_ fun _ he => he
  rintro l' ⟨-, rfl⟩
  exact ⟨h.log_plain trivial, rfl⟩

/-- A start that does not let the action execute is left open. -/
theorem ambiguousOperation_spec {inv : ToolInvocation} {opclass : PyStr} {op : StartedOperation}
    {es : List Event} (h : LoopInv env start carried P ids l)
    (hwithin : WithinBudget env l.totalTokens) (hsettled : Settled l.trace)
    (hlabelled : Labelled carried es l.unclosed)
    (hopen : openLabels carried l.trace =
      openLabels carried es ++ [inv.name ++ lit ":" ++ op.detail.take 80]) :
    Outcome (fun p => Able env start carried P ids p.2) (Final env start carried P)
      (ambiguousOperation w l inv opclass op) := by
  unfold ambiguousOperation
  refine Outcome.bind (h.emit (hsettled.concat id).done.aborted) ?_
  rintro l' ⟨hl', rfl⟩
  refine ⟨⟨hl', hsettled.concat id, labelled_pushUnclosed hlabelled ?_⟩, hwithin⟩
  change openLabels carried (l.trace ++ [_]) = _
  rw [openLabels_concat, hopen]
  exact List.append_nil _

/-- The tool of a call that may go on. -/
theorem perform_spec {inv : ToolInvocation} {opclass : PyStr}
    (h : Calling env start carried P ids inv.name inv.arguments l)
    (hpermit : Permit env start l.trace inv.name inv.arguments opclass) :
    Outcome (fun p => Able env start carried P ids p.2) (Final env start carried P)
      (perform env w l inv opclass) := by
  have hrest := h.able.rest
  unfold perform
  split
  · exact ⟨hrest.rules, hrest.settled.done.aborted⟩
  · next inputDesc _ =>
    split_ifs with hneeds
    · dsimp only
      generalize (⟨lit "tool:" ++ inv.name, opclass, inputDesc⟩ : OperationStart) = request
      generalize (w.operationStart l.trace request).map (startedOperation env.printable) = op
      have hlog : LoopInv env start carried P ids (l.log (.started inv.name request op)) := by
        refine ⟨every_concat.mpr ⟨hrest.rules, h.fresh⟩, ?_, hrest.paired⟩
        rw [Loop.log, tokensUsed_concat, ← hrest.tokens_eq]
        exact (add_zero _).symm
      have hdone : Done (l.log (.started inv.name request op)).trace := hrest.settled.done.concat id
      split
      · exact ⟨hlog.rules, hdone.aborted⟩
      · next op =>
        split_ifs with hexecute
        · obtain ⟨a, ha, hne⟩ : ∃ a, op.attempt = some a ∧ a.isEmpty = false := by
            simp only [StartedOperation.canExecute, Bool.and_eq_true,
              Option.any_eq_true] at hexecute
            obtain ⟨⟨-, a, ha, hne⟩, -⟩ := hexecute
            exact ⟨a, ha, by simpa using hne⟩
          rw [ha]
          refine execute_spec ⟨hlog, h.able.within, hrest.labelled.concat (if_pos hexecute), hdone,
            by simp, by simpa using hne, hpermit.log ⟨id, id, id⟩ rfl, by simp, fun _ => ?_⟩
          exact since_concat.mpr (Or.inl ⟨request, op, rfl, hexecute, ha⟩)
        · refine ambiguousOperation_spec hlog h.able.within (hrest.settled.concat hexecute)
            hrest.labelled ?_
          rw [Loop.log, openLabels_concat]
          simp [Event.openLabel, hexecute]
    · have hneeds' : ¬NeedsReceipt env opclass := by
        simpa [NeedsReceipt] using hneeds
      exact execute_spec ⟨hrest.toInv, h.able.within, hrest.labelled, hrest.settled.done,
        fun _ => hrest.settled, by simp, hpermit, fun hn => absurd hn hneeds', by simp⟩

theorem guardCheck_spec {name : PyStr} {args : Members} {check : GuardCheck}
    (h : Calling env start carried P ids name args l) :
    Outcome (fun p => Calling env start carried P ids name args p.2) (Final env start carried P)
      (guardCheck w l check) := by
  have hlog := h.log_plain (e := .guarded check (w.guard l.trace check)) trivial
  unfold guardCheck
  dsimp only
  split
  · exact hlog
  · exact ⟨hlog.able.rest.rules, hlog.able.rest.settled.done.aborted⟩

theorem decideCall_spec {name : PyStr} {args : Members}
    (h : Calling env start carried P ids name args l) :
    Outcome (fun p => Calling env start carried P ids name args p.2) (Final env start carried P)
      (decideCall env w l name args) := by
  unfold decideCall
  split_ifs
  · exact h
  · exact h
  · exact h
  · exact h
  all_goals exact guardCheck_spec h

theorem askApprover_spec {name : PyStr} {args : Members} {request : ApprovalRequest}
    (h : Calling env start carried P ids name args l) :
    Outcome (fun p => Calling env start carried P ids name args p.2 ∧
      p.2 = l.log (.asked request (some p.1))) (Final env start carried P)
      (askApprover w l request) := by
  have hlog := h.log_plain (e := .asked request (w.ask l.trace request)) trivial
  unfold askApprover
  dsimp only
  split
  · next approved hask =>
    rw [hask] at hlog ⊢
    exact ⟨hlog, rfl⟩
  · exact ⟨hlog.able.rest.rules, hlog.able.rest.settled.done.aborted⟩

/-- A call that is decided or approved may go on. -/
theorem Calling.permit {name : PyStr} {args : Members} {opclass : PyStr}
    (h : Calling env start carried P ids name args l)
    (hregistered : Dict.get? env.registry name = some opclass)
    (hallowed : Since Event.Allows Event.Between l.trace ∨
      Since (Event.Approves name args) Event.Between l.trace) :
    Permit env start l.trace name args opclass :=
  ⟨hregistered, h.taken, hallowed, h.able.rest.tokens_eq ▸ h.able.within⟩

/-- A call of the tool that may be called is taken up. -/
theorem invoke_spec {name : PyStr} {args : Members} (h : Able env start carried P ids l)
    (hforced : l.forcedOutputTool = none ∨ l.forcedOutputTool = some name) :
    Outcome (fun p => Able env start carried P ids p.2) (Final env start carried P)
      (invoke env w l name args) := by
  have hcalled : Calling env start carried P ids name args
      (l.log (.called name args l.forcedOutputTool)) := by
    refine ⟨⟨⟨⟨every_concat.mpr ⟨h.rest.rules, h.rest.settled⟩, ?_, h.rest.paired⟩,
      h.rest.settled.concat id, h.rest.labelled.concat rfl⟩, h.within⟩, ?_, ?_⟩
    · rw [Loop.log, tokensUsed_concat, ← h.rest.tokens_eq]
      exact (add_zero _).symm
    · exact since_concat.mpr (Or.inl ⟨_, rfl, hforced⟩)
    · exact since_concat.mpr (Or.inl trivial)
  unfold invoke
  dsimp only
  split
  · exact hcalled.able
  · next opclass hregistered =>
    refine Outcome.bind (decideCall_spec hcalled) ?_
    rintro ⟨verdict, l₁⟩ (h₁ : Calling env start carried P ids name args l₁)
    have hdecided := h₁.log_plain (e := .decided verdict) trivial
    dsimp only
    split
    · refine Outcome.bind (hdecided.emit _) ?_
      rintro l₂ ⟨h₂, -⟩
      exact h₂.able
    · next hallow =>
      exact perform_spec hdecided (hdecided.permit hregistered
        (Or.inl (since_concat.mpr (Or.inl hallow))))
    · refine Outcome.bind (hdecided.emit _) ?_
      rintro l₂ ⟨h₂, -⟩
      refine Outcome.bind (askApprover_spec h₂) ?_
      rintro ⟨approved, l₃⟩ ⟨h₃, hl₃⟩
      dsimp only at h₃ hl₃ ⊢
      split_ifs with happroved
      · refine perform_spec h₃ (h₃.permit hregistered ?_)
        rw [hl₃, happroved]
        exact Or.inr (since_concat.mpr (Or.inl ⟨rfl, rfl, rfl⟩))
      · refine Outcome.bind (h₃.emit _) ?_
        rintro l₄ ⟨h₄, -⟩
        exact h₄.able

/-! ## The history -/

theorem replyId_toolMessage (callId : PyStr) (inv : ToolInvocation) :
    replyId (toolMessage callId inv) = some (.str callId) := rfl

theorem replyId_userMessage (text : PyStr) : replyId (userMessage text) = none := rfl

theorem callIds_userMessage (text : PyStr) : callIds (userMessage text) = [] := rfl

theorem replyId_assistantMessage (msg : AssistantMessage) :
    replyId (assistantMessage msg) = none := by
  unfold assistantMessage
  dsimp only
  split_ifs <;> rfl

theorem callIds_of_get {message : Members} {xs : List Json}
    (hrole : isRole "assistant" message = true) (h : message.get "tool_calls" = .arr xs) :
    callIds message = xs.filterMap fun
      | .obj call => some (Members.get call "id")
      | _ => none := by
  have hcalls : toolCalls message = some xs := by
    rw [toolCalls, h]
    cases xs <;> rfl
  refine (if_pos hrole).trans ?_
  exact congrArg (fun ys : Option (List Json) => (ys.getD []).filterMap _) hcalls

/-- The ids that wait for a reply. -/
def waiting (calls : List ToolCall) : List Json :=
  calls.map fun call => .str call.id

theorem callIds_assistantMessage (msg : AssistantMessage) :
    callIds (assistantMessage msg) = waiting msg.toolCalls := by
  unfold assistantMessage
  dsimp only
  split_ifs with h
  · rw [List.isEmpty_iff.mp h]
    rfl
  · rw [callIds_of_get rfl rfl, List.filterMap_map]
    exact congrFun List.filterMap_eq_map _

/-- A reply to the call that is waiting. -/
theorem LoopRest.reply {callId : PyStr} {inv : ToolInvocation}
    (h : LoopRest env start carried P (.str callId :: ids) l) :
    LoopRest env start carried P ids (l.append (toolMessage callId inv)) where
  rules := h.rules
  tokens_eq := h.tokens_eq
  paired := fun hP => (h.paired hP).append_reply (replyId_toolMessage callId inv)
  settled := h.settled
  labelled := h.labelled

/-- A message of the host, once every call has its reply. -/
theorem LoopRest.prompt {text : PyStr} (h : LoopRest env start carried P [] l) :
    LoopRest env start carried P [] (l.prompt text) where
  rules := h.rules
  tokens_eq := h.tokens_eq
  paired := fun hP => open_nil.mpr ((open_nil.mp (h.paired hP)).plain (replyId_userMessage text)
    (callIds_userMessage text))
  settled := h.settled
  labelled := h.labelled

/-- The message of the model opens its calls. -/
theorem LoopRest.assistant {msg : AssistantMessage} (h : LoopRest env start carried P [] l) :
    LoopRest env start carried P (waiting msg.toolCalls)
      (l.append (assistantMessage msg)) where
  rules := h.rules
  tokens_eq := h.tokens_eq
  paired := fun hP => callIds_assistantMessage msg ▸
    (open_nil.mp (h.paired hP)).call (replyId_assistantMessage msg)
  settled := h.settled
  labelled := h.labelled

/-! ## The calls of a message -/

theorem LoopRest.final (h : LoopRest env start carried P ids l) (result : Option LoopResult) :
    Final env start carried P ⟨result, l⟩ :=
  ⟨h.rules, h.settled.done.aborted⟩

theorem recordRead_spec {inv : ToolInvocation} (h : Able env start carried P ids l) :
    Able env start carried P ids (recordRead env w l inv) := by
  have hlog := h.log_plain (e := .probed) trivial
  unfold recordRead
  split
  · exact hlog
  · exact ⟨hlog.rest, hlog.within⟩

theorem chooseAfterRead_spec (h : Able env start carried P ids l) :
    Able env start carried P ids (chooseAfterRead env l) := by
  unfold chooseAfterRead
  split
  · exact h
  · split_ifs
    · exact ⟨h.rest, h.within⟩
    · exact h

theorem missingArtifacts_spec (h : Able env start carried P ids l) :
    Outcome (fun p => Able env start carried P ids p.2) (Final env start carried P)
      (missingArtifacts env w l) := by
  have hlog := h.log_plain (e := .probed) trivial
  unfold missingArtifacts
  split
  · exact hlog.rest.final none
  · exact hlog

theorem expectedPaths_spec (h : Able env start carried P ids l) :
    Outcome (fun p => Able env start carried P ids p.2) (Final env start carried P)
      (expectedPaths env w l) := by
  have hlog := h.log_plain (e := .probed) trivial
  unfold expectedPaths
  split_ifs
  · exact h
  · split
    · exact hlog
    · split
      · exact hlog
      · exact hlog
      · exact hlog.rest.final none

theorem freeAfterSubmission_spec {name : PyStr} {inv : ToolInvocation}
    (h : Able env start carried P ids l) :
    Outcome (Able env start carried P ids) (Final env start carried P)
      (freeAfterSubmission env w l name inv) := by
  have hdelivered : Outcome (fun p => Able env start carried P ids p.2) (Final env start carried P)
      (isDelivered env w l name inv) := by
    unfold isDelivered
    dsimp only
    split_ifs
    · exact (missingArtifacts_spec h).bind fun _ h => h
    · exact h
  unfold freeAfterSubmission
  split_ifs
  · refine hdelivered.bind ?_
    rintro ⟨delivered, l'⟩ (h' : Able env start carried P ids l')
    dsimp only
    split_ifs
    · exact ⟨h'.rest, h'.within⟩
    · exact ⟨h'.rest, h'.within⟩
    · exact h'
  · exact h

section Round

variable {r : Round} {inv : ToolInvocation}

theorem afterEdit_spec (h : Able env start carried P ids r.loop) :
    Outcome (fun r' => Able env start carried P ids r'.loop) (Final env start carried P)
      (afterEdit env w r inv) := by
  unfold afterEdit
  extract_lets path name edited
  refine Outcome.bind (missingArtifacts_spec ⟨h.rest, h.within⟩) ?_
  rintro ⟨missing, l'⟩ (h' : Able env start carried P ids l')
  dsimp only
  split_ifs
  · exact ⟨h'.rest, h'.within⟩
  · exact ⟨h'.rest, h'.within⟩
  · exact h'

theorem afterPrepare_spec (h : Able env start carried P ids r.loop) :
    Outcome (fun r' => Able env start carried P ids r'.loop) (Final env start carried P)
      (afterPrepare env w r) := by
  unfold afterPrepare
  refine (expectedPaths_spec h).bind ?_
  rintro ⟨expected, l'⟩ (h' : Able env start carried P ids l')
  exact ⟨h'.rest, h'.within⟩

theorem afterRead_spec (h : Able env start carried P ids r.loop) :
    Able env start carried P ids (afterRead r inv).loop := by
  unfold afterRead
  dsimp only
  split_ifs
  · exact ⟨h.rest, h.within⟩
  · exact ⟨h.rest, h.within⟩

theorem afterCheck_spec (h : Able env start carried P ids r.loop) :
    Outcome (fun r' => Able env start carried P ids r'.loop) (Final env start carried P)
      (afterCheck env w r) := by
  unfold afterCheck
  refine Outcome.bind (missingArtifacts_spec ⟨h.rest, h.within⟩) ?_
  rintro ⟨missing, l'⟩ (h' : Able env start carried P ids l')
  dsimp only
  split_ifs
  · exact h'
  · exact h'

theorem afterInspection_spec (h : Able env start carried P ids r.loop) :
    Outcome (fun r' => Able env start carried P ids r'.loop) (Final env start carried P)
      (afterInspection env w r inv) := by
  unfold afterInspection
  dsimp only
  split_ifs
  · exact afterPrepare_spec h
  · exact afterRead_spec h
  · exact afterCheck_spec h
  · exact ⟨h.rest, h.within⟩

theorem afterForced_spec {name : PyStr} (h : Able env start carried P ids r.loop) :
    Outcome (fun r' => Able env start carried P ids r'.loop) (Final env start carried P)
      (afterForced env w r name inv) := by
  unfold afterForced
  dsimp only
  split_ifs
  · exact afterEdit_spec h
  · exact afterInspection_spec h
  · exact ⟨h.rest, h.within⟩
  · exact h

theorem afterArtifact_spec {name : PyStr} (h : Able env start carried P ids r.loop) :
    Outcome (fun r' => Able env start carried P ids r'.loop) (Final env start carried P)
      (afterArtifact env w r name inv) := by
  unfold afterArtifact
  split_ifs
  · refine (missingArtifacts_spec h).bind ?_
    rintro ⟨missing, l'⟩ (h' : Able env start carried P ids l')
    dsimp only
    split_ifs
    · exact h'
    · exact h'
    · exact h'
  · exact h

/-- What follows a call that was invoked calls no tool. -/
theorem afterInvoke_spec {name : PyStr} (h : Able env start carried P ids r.loop) :
    Outcome (fun r' => Able env start carried P ids r'.loop) (Final env start carried P)
      (afterInvoke env w r name inv) := by
  unfold afterInvoke
  dsimp only
  refine (freeAfterSubmission_spec (chooseAfterRead_spec (recordRead_spec h))).bind ?_
  intro l' h'
  refine Outcome.bind (afterForced_spec (r := { r with loop := l' }) h') ?_
  intro r' hr'
  exact afterArtifact_spec hr'

/-- Each call of a message gets its reply. -/
theorem handleCall_spec {call : ToolCall}
    (h : Able env start carried P (.str call.id :: ids) r.loop) :
    Outcome (fun r' => Able env start carried P ids r'.loop) (Final env start carried P)
      (handleCall env w r call) := by
  unfold handleCall
  split
  · exact h.rest.final none
  · next call' halias =>
    have hid : call'.id = call.id := by
      unfold aliasCall at halias
      split_ifs at halias
      · obtain ⟨arguments, -, rfl⟩ := Option.map_eq_some_iff.mp halias
        cases arguments <;> rfl
      · rw [Option.some.inj halias]
    rw [hid]
    split
    · exact ⟨h.rest.reply, h.within⟩
    · next hforced =>
      have hforced : r.loop.forcedOutputTool = none ∨
          r.loop.forcedOutputTool = some call'.name := by
        cases hf : r.loop.forcedOutputTool with
        | none => exact Or.inl rfl
        | some tool =>
          rw [hf, Option.filter_some] at hforced
          simp only [ite_eq_right_iff, reduceCtorEq, imp_false, decide_eq_true_eq,
            not_not] at hforced
          rw [hforced]
          exact Or.inr rfl
      split
      · exact ⟨h.rest.reply, h.within⟩
      · refine (invoke_spec h hforced).bind ?_
        rintro ⟨inv, l'⟩ (h' : Able env start carried P _ l')
        exact afterInvoke_spec ⟨h'.rest.reply, h'.within⟩

theorem skipCall_spec {call : ToolCall}
    (h : LoopRest env start carried P (.str call.id :: ids) r.loop) :
    Outcome (fun r' => LoopRest env start carried P ids r'.loop) (Final env start carried P)
      (skipCall env w r call) := by
  unfold skipCall
  dsimp only
  refine Outcome.bind (LoopRest.emit h.reply _) ?_
  rintro l' ⟨h', -⟩
  exact h'

theorem refuseCall_spec {call : ToolCall}
    (h : LoopRest env start carried P (.str call.id :: ids) r.loop) :
    Outcome (fun r' => LoopRest env start carried P ids r'.loop) (Final env start carried P)
      (refuseCall w r call) := by
  unfold refuseCall
  dsimp only
  refine Outcome.bind (LoopRest.emit h.reply _) ?_
  rintro l' ⟨h', -⟩
  exact h'

end Round

/-! ## The turns -/

theorem budgetVerdict_spec (h : LoopRest env start carried P ids l) :
    Outcome (fun verdict => env.budget.verdict l.totalTokens = some verdict)
      (Final env start carried P) (budgetVerdict env l) := by
  unfold budgetVerdict
  split
  · assumption
  · exact h.final none

theorem forceTool_spec {index : ℤ} (h : LoopRest env start carried P [] l) :
    LoopRest env start carried P [] (forceTool env l index) := by
  unfold forceTool
  dsimp only
  split_ifs
  · split
    · exact LoopRest.prompt h
    · exact h
  · exact h

/-- A compaction mentions what was left open. -/
theorem compact_spec (hP : P → env.config.compactBudgetChars = 0)
    (h : LoopRest env start carried P [] l) :
    Outcome (LoopRest env start carried P []) (Final env start carried P) (compact env w l) := by
  unfold compact
  split_ifs with hoff
  · exact h
  · split
    · exact h.final none
    · split_ifs
      · exact h
      · split
        · exact h.final none
        · next compacted hok =>
          split_ifs with hcompacted
          · have hlog : LoopRest env start carried P []
                ({ l with history := compacted.messages }.log
                  (.compacted l.unclosed compacted.messages)) := by
              refine ⟨⟨every_concat.mpr ⟨h.rules, h.settled, ?_⟩, ?_, fun p => absurd (hP p) hoff⟩,
                h.settled.concat id, h.labelled.concat rfl⟩
              · intro hcount label hlabel hstated
                have hlabels : l.unclosed = openLabels carried l.trace := h.labelled hcount
                refine exists_mention_compactHistory hok hcompacted ?_
                  (List.mem_map_of_mem (hlabels ▸ hlabel)) hstated
                refine (List.length_filter_le _ _).trans ?_
                rw [List.length_map, hlabels]
                exact hcount
              · rw [Loop.log, tokensUsed_concat, ← h.tokens_eq]
                exact (add_zero _).symm
            refine (LoopRest.emit hlog _).mono ?_ fun _ he => he
            rintro l' ⟨h', -⟩
            exact h'
          · exact h

theorem beginTurn_spec {index : ℤ} (hP : P → env.config.compactBudgetChars = 0)
    (h : LoopRest env start carried P [] l) :
    Outcome (LoopRest env start carried P []) (Final env start carried P)
      (beginTurn env w l index) := by
  unfold beginTurn
  refine (budgetVerdict_spec h).bind ?_
  intro verdict _
  split_ifs
  · exact h.final _
  · exact h.final _
  · exact compact_spec hP (forceTool_spec h)

/-- The model is shown the history. -/
theorem complete_spec (h : LoopRest env start carried P [] l) :
    Outcome (fun p => LoopRest env start carried P [] p.2) (Final env start carried P)
      (complete w l) := by
  have hrule : ∀ reply, Every (Rule env start carried P)
      (l.log (.model l.history l.toolChoice reply)).trace := fun reply =>
    every_concat.mpr ⟨h.rules, fun p => open_nil.mp (h.paired p)⟩
  have hsettled : ∀ reply, Settled (l.log (.model l.history l.toolChoice reply)).trace :=
    fun reply => h.settled.concat id
  unfold complete
  dsimp only
  split
  · next msg lastUsage hreply =>
    rw [hreply]
    refine ⟨⟨hrule _, ?_, h.paired⟩, hsettled _, h.labelled.concat rfl⟩
    rw [Loop.log, tokensUsed_concat, ← h.tokens_eq]
    rfl
  · exact ⟨hrule _, (hsettled _).done.aborted⟩
  · exact ⟨hrule _, (hsettled _).done.aborted⟩

theorem plainText_spec {turn : Turn} (h : LoopRest env start carried P [] l) :
    Outcome (LoopRest env start carried P []) (Final env start carried P)
      (plainText env l turn) := by
  have hretry : ∀ l : Loop, LoopRest env start carried P [] l →
      Outcome (LoopRest env start carried P []) (Final env start carried P)
        (plainText.retry l) := by
    intro l h
    unfold plainText.retry
    split_ifs
    · exact LoopRest.prompt h
    · exact LoopRest.final h _
  unfold plainText
  dsimp only
  split
  · split_ifs
    · exact LoopRest.prompt h
    · exact hretry _ h
  · split_ifs
    · exact ⟨h.rules, h.settled.done.aborted⟩
    · exact hretry _ h

theorem LoopRest.prompts {texts : List PyStr} :
    ∀ {l : Loop}, LoopRest env start carried P [] l →
      LoopRest env start carried P [] (texts.foldl Loop.prompt l) := by
  induction texts with
  | nil => exact id
  | cons text texts ih => exact fun h => ih h.prompt

theorem applyTransition_spec {transition : Option PyStr} (h : LoopRest env start carried P ids l) :
    LoopRest env start carried P ids (applyTransition l transition) := by
  unfold applyTransition
  split
  · exact h
  · exact h

theorem prefix_sliceTo {α : Type} (xs : List α) (n : ℤ) : sliceTo xs n <+: xs := by
  unfold sliceTo
  split_ifs
  · exact List.take_prefix _ _
  · exact List.take_prefix _ _

theorem toolCallsTurn_spec {turn : Turn}
    (h : Able env start carried P (waiting turn.assistant.toolCalls) l) :
    Outcome (LoopRest env start carried P []) (Final env start carried P)
      (toolCallsTurn env w l turn) := by
  unfold toolCallsTurn
  extract_lets calls allowed skipped
  have hcalls : calls = allowed ++ skipped :=
    (List.prefix_iff_eq_append.mp (prefix_sliceTo _ _)).symm
  have hallowed : Outcome (fun r : Round => Able env start carried P
      (waiting skipped) r.loop) (Final env start carried P)
      (allowed.foldlM (handleCall env w) ⟨l, [], [], none⟩) := by
    -- the replies to the calls that are skipped are still to come
    refine Outcome.foldlM (I := fun is (r : Round) => Able env start carried P
      (waiting is ++ waiting skipped) r.loop) (fun _ _ _ h => handleCall_spec h) ?_
    rwa [waiting, waiting, ← List.map_append, ← hcalls]
  refine hallowed.bind fun r hr => ?_
  refine Outcome.bind (Outcome.foldlM (I := fun is (r : Round) => LoopRest env start carried P
    (waiting is) r.loop) (fun _ _ _ h => skipCall_spec h) hr.rest) ?_
  intro r hr
  exact LoopRest.prompts (applyTransition_spec hr)

theorem overBudgetTurn_spec {turn : Turn}
    (h : LoopRest env start carried P (waiting turn.assistant.toolCalls) l) :
    Outcome (LoopRest env start carried P []) (Final env start carried P)
      (overBudgetTurn w l turn) := by
  unfold overBudgetTurn
  refine Outcome.bind (Outcome.foldlM (I := fun is (r : Round) => LoopRest env start carried P
    (waiting is) r.loop) (fun _ _ _ h => refuseCall_spec h) h) ?_
  intro r hr
  exact ⟨hr.rules, hr.settled.done.aborted⟩

theorem turn_spec {index : ℤ} (hP : P → env.config.compactBudgetChars = 0)
    (h : LoopRest env start carried P [] l) :
    Outcome (LoopRest env start carried P []) (Final env start carried P)
      (turn env w l index) := by
  unfold turn
  refine (beginTurn_spec hP h).bind ?_
  intro l₁ h₁
  refine (complete_spec h₁).bind ?_
  rintro ⟨msg, l₂⟩ (h₂ : LoopRest env start carried P [] l₂)
  refine Outcome.bind (LoopRest.emit h₂.assistant _) ?_
  rintro l₃ ⟨h₃, -⟩
  refine (budgetVerdict_spec h₃).bind ?_
  intro verdict hverdict
  split_ifs with hover hcalls
  · exact overBudgetTurn_spec h₃
  · rw [List.isEmpty_iff.mp hcalls] at h₃
    exact plainText_spec h₃
  · refine toolCallsTurn_spec ⟨h₃, ?_⟩
    rw [WithinBudget, hverdict]
    simpa using hover

end Steps

/-- Every run keeps the rules, however it ends. -/
theorem final_run (env : Env) (w : World) (messages : List Members) (unclosed : List PyStr)
    (totalTokens : ℤ) {P : Prop} (hP : P → env.config.compactBudgetChars = 0)
    (hmessages : P → Adjacent callIds replyId messages) :
    Final env totalTokens unclosed P (run env w messages unclosed totalTokens) := by
  have hinit : LoopRest env totalTokens unclosed P []
      (Loop.init env messages unclosed totalTokens) := by
    refine ⟨⟨every_nil, ?_, fun p => open_nil.mpr (hmessages p)⟩, ?_, ?_⟩
    · simp [Loop.init, tokensUsed]
    · intro before e after h
      simp [Loop.init] at h
    · intro _
      simp [Loop.init, openLabels]
  have hstart : LoopRest env totalTokens unclosed P []
      (resumeWorklist env w (Loop.init env messages unclosed totalTokens)) := by
    have hlog := hinit.log_plain (e := .probed) trivial
    unfold resumeWorklist
    dsimp only
    split_ifs
    · exact LoopRest.prompt hlog
    · exact hlog
  have hturns : Outcome (LoopRest env totalTokens unclosed P []) (Final env totalTokens unclosed P)
      ((turnIndices env).foldlM (turn env w)
        (resumeWorklist env w (Loop.init env messages unclosed totalTokens))) :=
    Outcome.foldlM (I := fun _ => LoopRest env totalTokens unclosed P [])
      (fun _ _ _ h => turn_spec hP h) hstart
  unfold run
  dsimp only
  split
  · next ended hended =>
    rw [hended] at hturns
    exact hturns
  · next l hl =>
    rw [hl] at hturns
    exact LoopRest.final hturns _

end Icode.Agent
