import Icode.AgentRules

/-!
# Runs of the agent loop

What follows from the rules of a run (`final_run`) about its whole trace.

Without compaction every history shown to the model has, right after a message with
calls, the replies to them, one for each call in their order (`adjacent_run`).

A tool is called only behind its gate, and one that needs a receipt is followed by
exactly one finish of its attempt if and only if the registry gives a result whose
metadata can be written and the event hook returns (`gated_run`).

While at most eight operations were left open, a compaction mentions every operation
that was started and not finished (`mentioned_run`).
-/

namespace Icode.Agent

open Compaction History Pairing Py

/-! ## Calls and replies -/

/-- An environment with one tool, whose actions need receipts. -/
def noteEnv (maxTurns compactBudgetChars : ℤ) : Env where
  config :=
    { maxTurns := maxTurns
      maxToolCallsPerTurn := 4
      toolChoice := "auto"
      toolChoiceAfterRead := none
      toolChoiceOnNoTool := none
      forceToolAfterTurns := none
      forceToolAfterTurnsTool := none
      forceToolPrompt := none
      requiredToolRetryCount := 0
      requiredToolTurnReserve := 0
      compactBudgetChars := compactBudgetChars }
  registry := [("note", "local_write")]
  operations := true
  budget := ⟨0, .inf true⟩
  allowedReadFiles := []
  root := "/work"
  outputLimit := 8000
  reviewSubmissionEnabled := false
  readOnlyWorkspace := false
  hasChangeBaseline := false
  artifactBroker := none
  flavour := .posix
  printable := fun _ => true
  decimal := fun _ => none
  loads := fun _ => .error

/-- A model that makes the same two calls in every turn. -/
def noteWorld (start : ControlResult) (metadata : Metadata) : World where
  complete := fun _ _ _ => .assistant ⟨[], [⟨"c", "note", .obj []⟩, ⟨"c", "note", .obj []⟩]⟩ none
  guard := fun _ _ => some ⟨.allow, []⟩
  ask := fun _ _ => none
  operationStart := fun _ _ => some start
  operationFinish := fun _ _ => some ⟨0, [("ok", .bool true)]⟩
  tool := fun _ _ _ => .returned ⟨true, "noted", metadata, "local_write"⟩
  hookRaises := fun _ _ => false
  isTicketFile := fun _ _ => false
  hasTicketMatch := fun _ _ => some false
  worklist := fun _ => none
  resolve := fun _ _ => none

/-- The control plane starts the attempt `a1`. -/
def startsNote : ControlResult :=
  ⟨0, [("ok", .bool true), ("attempt", .str "a1")]⟩

/-- The control plane refuses the start. -/
def refusesNote : ControlResult :=
  ⟨1, [("error", .str "busy")]⟩

theorem split_of_getElem? {α : Type} {xs : List α} {n : ℕ} {x : α} (h : xs[n]? = some x) :
    xs = xs.take n ++ x :: xs.drop (n + 1) := by
  obtain ⟨hlt, rfl⟩ := List.getElem?_eq_some_iff.mp h
  rw [← List.drop_eq_getElem_cons hlt, List.take_append_drop]

/-- Without compaction every history shown to the model has the replies right after the calls,
so each call of a message without repeated ids has exactly one reply. -/
theorem adjacent_run (env : Env) (w : World) (messages : List Members) (unclosed : List PyStr)
    (totalTokens : ℤ) (hoff : env.config.compactBudgetChars = 0)
    (hmessages : Adjacent callIds replyId messages) :
    ∀ history choice reply,
      .model history choice reply ∈ (run env w messages unclosed totalTokens).loop.trace →
        Adjacent callIds replyId history ∧
          ∀ before m after, history = before ++ m :: after → replyId m = none →
            (callIds m).Nodup → ∀ i ∈ callIds m,
              ∃! k : ℕ, (leading replyId after)[k]? = some (some i) := by
  intro history choice reply hmem
  obtain ⟨before, after, htrace⟩ := List.append_of_mem hmem
  have hfinal : Final env totalTokens unclosed True _ :=
    final_run env w messages unclosed totalTokens (fun _ => hoff) fun _ => hmessages
  have hadjacent : Adjacent callIds replyId history := hfinal.rules before _ after htrace trivial
  exact ⟨hadjacent, fun _ _ _ hsplit hm hnodup _ hi =>
    hadjacent.existsUnique_reply hsplit hm hnodup hi⟩

/-- The second history of a run shows the calls and their replies. -/
theorem adjacent_run_note : ∃ history choice reply,
    .model history choice reply ∈
        (run (noteEnv 2 0) (noteWorld refusesNote []) [userMessage "go"] [] 0).loop.trace ∧
      Adjacent callIds replyId history := by
  obtain ⟨history, choice, reply, hmodel⟩ : ∃ history choice reply,
      (run (noteEnv 2 0) (noteWorld refusesNote []) [userMessage "go"] [] 0).loop.trace[15]? =
        some (Event.model history choice reply) := ⟨_, _, _, rfl⟩
  have hmem := List.mem_of_getElem? hmodel
  exact ⟨history, choice, reply, hmem, (adjacent_run _ _ _ _ _ rfl
    (adjacent_nil.plain rfl rfl) _ _ _ hmem).1⟩

/-- Two calls of one message may have the same id, and so may their replies. -/
theorem replies_share_id : ¬∀ (env : Env) (w : World) (messages : List Members)
    (unclosed : List PyStr) (totalTokens : ℤ), env.config.compactBudgetChars = 0 →
      Adjacent callIds replyId messages → ∀ history choice reply,
        .model history choice reply ∈ (run env w messages unclosed totalTokens).loop.trace →
          ∀ before m after, history = before ++ m :: after → replyId m = none → ∀ i ∈ callIds m,
            ∃! k : ℕ, (leading replyId after)[k]? = some (some i) := by
  intro h
  obtain ⟨history, choice, reply, r₁, r₂, hmodel, hhistory, h₁, h₂⟩ :
      ∃ history choice reply r₁ r₂,
        (run (noteEnv 2 0) (noteWorld refusesNote []) [userMessage "go"] [] 0).loop.trace[15]? =
            some (Event.model history choice reply) ∧
          history = [userMessage "go"] ++ assistantMessage
            ⟨[], [⟨"c", "note", .obj []⟩, ⟨"c", "note", .obj []⟩]⟩ :: [r₁, r₂] ∧
          replyId r₁ = some (.str "c") ∧ replyId r₂ = some (.str "c") :=
    ⟨_, _, _, _, _, rfl, rfl, rfl, rfl⟩
  have hunique := h (noteEnv 2 0) (noteWorld refusesNote []) [userMessage "go"] [] 0 rfl
    (adjacent_nil.plain rfl rfl) history choice reply (List.mem_of_getElem? hmodel) _ _ _ hhistory
      rfl (.str "c") List.mem_cons_self
  have hlead : leading replyId [r₁, r₂] = [some (.str "c"), some (.str "c")] := by
    simp [leading, h₁, h₂]
  rw [hlead] at hunique
  have hsame : (0 : ℕ) = 1 := hunique.unique rfl rfl
  cases hsame

/-! ## Tools and their receipts -/

section Receipts

variable {env : Env} {start : ℤ} {carried : List PyStr} {P : Prop} {before after : List Event}
  {name : PyStr} {args : Members} {opclass : PyStr} {attempt : Option PyStr}
  {outcome : ToolOutcome}

/-- Between two tools a call is taken up. -/
theorem exists_called_of_invoked {middle : List Event} {name' : PyStr} {args' : Members}
    {opclass' : PyStr} {attempt' : Option PyStr}
    (h : Gate env start (before ++ .invoked name args opclass attempt outcome :: middle)
      name' args' opclass' attempt') : ∃ x ∈ middle, x.IsCalled := by
  rcases h.taken.of_not (fun hbetween => hbetween.2.1 trivial) with ⟨⟨_, h, -⟩, -⟩ | hsince
  · cases h
  · obtain ⟨x, hx, forced, rfl, -⟩ := hsince.exists_mem
    exact ⟨_, hx, trivial⟩

/-- Right before a finish stand its tool and the event of its result. -/
theorem eq_of_finished {first rest : List Event} {tool : PyStr} {request : OperationFinish}
    {answer : Option Bool}
    (h : Every (Rule env start carried P) (before ++ .invoked name args opclass attempt outcome ::
      (first ++ .finished tool request answer :: rest)))
    (hcalled : ∀ x ∈ first, ¬x.IsCalled) :
    first = [.hook "tool_result" false] ∧ some request.attempt = attempt ∧
      Reports env name outcome := by
  obtain ⟨b, args', opclass', outcome', hsplit, hreports⟩ :
      Rule env start carried P (before ++ Event.invoked name args opclass attempt outcome :: first)
        (Event.finished tool request answer) := h _ _ rest (by simp)
  have hhook : b ++ [Event.invoked tool args' opclass' (some request.attempt) outcome'] ++
      [Event.hook "tool_result" false] =
        before ++ Event.invoked name args opclass attempt outcome :: first := by
    rw [hsplit]
    simp
  rcases concat_eq_append_cons.mp hhook with ⟨-, hinvoked, -⟩ | ⟨front, rfl, htool⟩
  · cases hinvoked
  · rcases concat_eq_append_cons.mp htool with ⟨-, hinvoked, rfl⟩ | ⟨middle, rfl, rfl⟩
    · injection hinvoked with hname _ _ hattempt houtcome
      exact ⟨rfl, hattempt.symm, hname ▸ houtcome ▸ hreports⟩
    · -- another tool was called in between
      have hgate : Gate env start
          (before ++ Event.invoked name args opclass attempt outcome :: middle)
          tool args' opclass' (some request.attempt) := h _
            (Event.invoked tool args' opclass' _ outcome')
            (Event.hook "tool_result" false :: Event.finished tool request answer :: rest) (by simp)
      obtain ⟨x, hx, hxcalled⟩ := exists_called_of_invoked hgate
      exact absurd hxcalled (hcalled x (by simp [hx]))

/-- Until the next call is taken up stands one finish, of the attempt. -/
def FinishedOnce (attempt : Option PyStr) (after : List Event) : Prop :=
  ∃ first tool request answer rest, after = first ++ .finished tool request answer :: rest ∧
    some request.attempt = attempt ∧ (∀ x ∈ first, ¬x.IsCalled ∧ ¬x.IsFinished) ∧
      ∀ middle x later, rest = middle ++ x :: later → x.IsFinished → ∃ y ∈ middle, y.IsCalled

/-- A finish stands before the next call. -/
theorem exists_finished
    (h : Every (Rule env start carried P)
      (before ++ .invoked name args opclass attempt outcome :: after))
    (haborted : Aborted env (before ++ .invoked name args opclass attempt outcome :: after))
    (hattempt : attempt ≠ none) (hreports : Reports env name outcome)
    (hhead : after.head? = some (.hook "tool_result" false)) :
    ∃ first x rest, after = first ++ x :: rest ∧ x.IsFinished ∧
      ∀ y ∈ first, ¬y.IsCalled ∧ ¬y.IsFinished := by
  obtain ⟨a, rfl⟩ := Option.ne_none_iff_exists'.mp hattempt
  have hsome : ∃ x ∈ after, x.IsCalled ∨ x.IsFinished := by
    by_contra hnone
    rcases haborted before name args opclass a outcome after rfl
        (fun x hx hcalled => hnone ⟨x, hx, Or.inl hcalled⟩) with ⟨x, hx, hfinished⟩ | hfail
    · exact hnone ⟨x, hx, Or.inr hfinished⟩
    · exact hfail ⟨hreports, hhead⟩
  obtain ⟨first, x, rest, rfl, hx, hfirst⟩ := exists_first hsome
  have hfirst : ∀ y ∈ first, ¬y.IsCalled ∧ ¬y.IsFinished := fun y hy => not_or.mp (hfirst y hy)
  refine ⟨first, x, rest, rfl, hx.resolve_left fun hcalled => ?_, hfirst⟩
  -- before the next call is taken up everything is finished
  have hsettled :
      Settled (before ++ Event.invoked name args opclass (some a) outcome :: first) := by
    cases x with
    | called tool arguments forced =>
      have hrule : Rule env start carried P
          (before ++ Event.invoked name args opclass (some a) outcome :: first)
          (Event.called tool arguments forced) := h _ _ rest (by simp)
      exact hrule
    | _ => exact hcalled.elim
  obtain ⟨y, hy, hanswered⟩ := hsettled before _ first rfl hattempt fun y hy => (hfirst y hy).1
  cases y with
  | finished _ _ _ => exact (hfirst _ hy).2 trivial
  | _ => exact hanswered.elim

theorem finishedOnce_iff
    (h : Every (Rule env start carried P)
      (before ++ .invoked name args opclass attempt outcome :: after))
    (haborted : Aborted env (before ++ .invoked name args opclass attempt outcome :: after))
    (hattempt : attempt ≠ none) :
    FinishedOnce attempt after ↔
      Reports env name outcome ∧ after.head? = some (.hook "tool_result" false) := by
  constructor
  · rintro ⟨first, tool, request, answer, rest, rfl, -, hfirst, -⟩
    obtain ⟨rfl, -, hreports⟩ := eq_of_finished h fun x hx => (hfirst x hx).1
    exact ⟨hreports, rfl⟩
  · rintro ⟨hreports, hhead⟩
    obtain ⟨first, x, rest, rfl, hx, hfirst⟩ := exists_finished h haborted hattempt hreports hhead
    cases x with
    | finished tool request answer =>
      obtain ⟨hhook, hrequest, -⟩ := eq_of_finished h fun x hx => (hfirst x hx).1
      refine ⟨first, tool, request, answer, rest, rfl, hrequest, hfirst, ?_⟩
      rintro middle x later rfl hx
      by_contra hnone
      cases x with
      | finished tool' request' answer' =>
        -- the tool of a second finish would stand right before it
        have hnone : ∀ y ∈ first ++ Event.finished tool request answer :: middle, ¬y.IsCalled := by
          intro y hy hcalled
          rcases List.mem_append.mp hy with hy | hy
          · exact (hfirst y hy).1 hcalled
          · rcases List.mem_cons.mp hy with rfl | hy
            · exact hcalled
            · exact hnone ⟨y, hy, hcalled⟩
        have hsplit : first ++ Event.finished tool request answer ::
            (middle ++ Event.finished tool' request' answer' :: later) =
              (first ++ Event.finished tool request answer :: middle) ++
                Event.finished tool' request' answer' :: later := by
          simp
        rw [hsplit] at h
        obtain ⟨hsecond, -, -⟩ := eq_of_finished h hnone
        simp [hhook] at hsecond
      | _ => exact hx.elim
    | _ => exact hx.elim

/-- A tool is called only behind its gate. One that needs a receipt is followed by one finish of
its attempt if and only if the registry gives a result whose metadata can be written and the event
hook returns. -/
theorem gated_run (env : Env) (w : World) (messages : List Members) (unclosed : List PyStr)
    (totalTokens : ℤ) (before : List Event) (name : PyStr) (args : Members) (opclass : PyStr)
    (attempt : Option PyStr) (outcome : ToolOutcome) (after : List Event)
    (h : (run env w messages unclosed totalTokens).loop.trace =
      before ++ .invoked name args opclass attempt outcome :: after) :
    Gate env totalTokens before name args opclass attempt ∧
      (NeedsReceipt env opclass → (FinishedOnce attempt after ↔
        Reports env name outcome ∧ after.head? = some (.hook "tool_result" false))) := by
  have hfinal : Final env totalTokens unclosed False _ :=
    final_run env w messages unclosed totalTokens False.elim False.elim
  have hrules := h ▸ hfinal.rules
  have hgate : Gate env totalTokens before name args opclass attempt := hrules.of_append
  exact ⟨hgate, fun hneeds => finishedOnce_iff hrules (h ▸ hfinal.aborted) (hgate.needed hneeds)⟩

/-- The tool is called behind its receipt and finished. -/
theorem gated_run_note : ∃ before outcome after,
    (run (noteEnv 1 0) (noteWorld startsNote []) [userMessage "go"] [] 0).loop.trace =
        before ++ .invoked "note" [] "local_write" (some "a1") outcome :: after ∧
      Gate (noteEnv 1 0) 0 before "note" [] "local_write" (some "a1") ∧
        FinishedOnce (some "a1") after := by
  obtain ⟨outcome, hinvoked, hhead, hreports⟩ : ∃ outcome,
      (run (noteEnv 1 0) (noteWorld startsNote []) [userMessage "go"] [] 0).loop.trace[8]? =
          some (Event.invoked "note" [] "local_write" (some "a1") outcome) ∧
        ((run (noteEnv 1 0) (noteWorld startsNote []) [userMessage "go"] [] 0).loop.trace.drop
          9).head? = some (Event.hook "tool_result" false) ∧
        Reports (noteEnv 1 0) "note" outcome := ⟨_, rfl, rfl, _, rfl, nofun⟩
  have hsplit := split_of_getElem? hinvoked
  obtain ⟨hgate, hiff⟩ := gated_run _ _ _ _ _ _ _ _ _ _ _ _ hsplit
  exact ⟨_, outcome, _, hsplit, hgate, (hiff ⟨rfl, by decide⟩).mpr ⟨hreports, hhead⟩⟩

/-- A result with a path among its metadata is never finished. -/
theorem path_in_metadata_unfinished : ¬∀ (env : Env) (w : World) (messages : List Members)
    (unclosed : List PyStr) (totalTokens : ℤ) (before : List Event) (name : PyStr)
    (args : Members) (opclass : PyStr) (attempt : Option PyStr) (outcome : ToolOutcome)
    (after : List Event),
      (run env w messages unclosed totalTokens).loop.trace =
        before ++ .invoked name args opclass attempt outcome :: after →
      NeedsReceipt env opclass → outcome ≠ .interrupted → FinishedOnce attempt after := by
  intro h
  obtain ⟨outcome, hinvoked, houtcome, hnone⟩ : ∃ outcome,
      (run (noteEnv 1 0) (noteWorld startsNote [("path", .foreign "PosixPath" true)])
          [userMessage "go"] [] 0).loop.trace[8]? =
          some (Event.invoked "note" [] "local_write" (some "a1") outcome) ∧
        outcome ≠ .interrupted ∧ ¬Reports (noteEnv 1 0) "note" outcome := by
    refine ⟨_, rfl, nofun, ?_⟩
    rintro ⟨result, hresult, hdumps⟩
    obtain rfl := Option.some.inj hresult
    exact hdumps rfl
  have hsplit := split_of_getElem? hinvoked
  have hfinal : Final (noteEnv 1 0) 0 [] False _ :=
    final_run (noteEnv 1 0) (noteWorld startsNote [("path", .foreign "PosixPath" true)])
      [userMessage "go"] [] 0 False.elim False.elim
  have honce := h _ _ _ _ _ _ _ _ _ _ _ _ hsplit ⟨rfl, by decide⟩ houtcome
  exact hnone ((finishedOnce_iff (hsplit ▸ hfinal.rules) (hsplit ▸ hfinal.aborted)
    (by simp)).mp honce).1

/-! ## Operations left open -/

/-- A finish that confirms an attempt. -/
def Event.Confirms (attempt : PyStr) : Event → Prop
  | .finished _ request (some true) => request.attempt = attempt
  | _ => False

/-- The label of an operation that was started and not finished: its start was refused, or no
finish confirms its attempt. -/
def LeftOpen (es : List Event) (label : PyStr) : Prop :=
  ∃ before tool request op after, es = before ++ .started tool request (some op) :: after ∧
    ((op.canExecute = false ∧ label = tool ++ lit ":" ++ op.detail.take 80) ∨
      ∃ attempt, op.canExecute = true ∧ op.attempt = some attempt ∧
        (∀ x ∈ after, ¬x.Confirms attempt) ∧ label = tool ++ lit ":" ++ attempt.take 80)

/-- Behind a start that lets the action execute stands a finish before the next call. -/
theorem exists_answered {tool : PyStr} {request : OperationStart} {op : StartedOperation}
    (h : Every (Rule env start carried P) (before ++ .started tool request (some op) :: after))
    (hsettled : Settled (before ++ .started tool request (some op) :: after))
    (hexecute : op.canExecute = true) :
    ∃ segment y rest, after = segment ++ y :: rest ∧ y.IsAnswered ∧ ∀ x ∈ segment, ¬x.IsCalled := by
  by_cases hcalled : ∃ x ∈ after, x.IsCalled
  · obtain ⟨first, x, rest, rfl, hx, hfirst⟩ := exists_first hcalled
    have hsettled' : Settled (before ++ Event.started tool request (some op) :: first) := by
      cases x with
      | called name arguments forced =>
        have hrule : Rule env start carried P
            (before ++ Event.started tool request (some op) :: first)
            (Event.called name arguments forced) := h _ _ rest (by simp)
        exact hrule
      | _ => exact hx.elim
    obtain ⟨y, hy, hanswered⟩ := hsettled' before _ first rfl hexecute hfirst
    obtain ⟨segment, rest', rfl⟩ := List.append_of_mem hy
    exact ⟨segment, y, rest' ++ x :: rest, by simp, hanswered, fun z hz => hfirst z (by simp [hz])⟩
  · have hcalled : ∀ x ∈ after, ¬x.IsCalled := fun x hx hxc => hcalled ⟨x, hx, hxc⟩
    obtain ⟨y, hy, hanswered⟩ := hsettled before _ after rfl hexecute hcalled
    obtain ⟨segment, rest, rfl⟩ := List.append_of_mem hy
    exact ⟨segment, y, rest, rfl, hanswered, fun z hz => hcalled z (by simp [hz])⟩

/-- The finish behind a start is that of its attempt. -/
theorem eq_of_started {segment rest : List Event} {tool tool' : PyStr} {request : OperationStart}
    {op : StartedOperation} {request' : OperationFinish} {answer : Option Bool}
    (h : Every (Rule env start carried P) (before ++ .started tool request (some op) ::
      (segment ++ .finished tool' request' answer :: rest)))
    (hcalled : ∀ x ∈ segment, ¬x.IsCalled) : tool' = tool ∧ op.attempt = some request'.attempt := by
  obtain ⟨b, args', opclass', outcome', hsplit, -⟩ :
      Rule env start carried P (before ++ Event.started tool request (some op) :: segment)
        (Event.finished tool' request' answer) := h _ _ rest (by simp)
  have hhook : b ++ [Event.invoked tool' args' opclass' (some request'.attempt) outcome'] ++
      [Event.hook "tool_result" false] =
        before ++ Event.started tool request (some op) :: segment := by
    rw [hsplit]
    simp
  rcases concat_eq_append_cons.mp hhook with ⟨-, hstarted, -⟩ | ⟨front, rfl, htool⟩
  · cases hstarted
  rcases concat_eq_append_cons.mp htool with ⟨-, hstarted, -⟩ | ⟨middle, rfl, rfl⟩
  · cases hstarted
  have hgate : Gate env start (before ++ Event.started tool request (some op) :: middle) tool' args'
      opclass' (some request'.attempt) := h _ (Event.invoked tool' args' opclass' _ outcome')
        (Event.hook "tool_result" false :: Event.finished tool' request' answer :: rest) (by simp)
  rcases (hgate.receipt (by simp)).of_not (fun hbetween => hbetween.2 trivial) with
    ⟨⟨_, _, hstarted, -, hattempt⟩, -⟩ | hsince
  · injection hstarted with htool _ hop
    exact ⟨htool.symm, Option.some.inj hop ▸ hattempt⟩
  · -- a second start needs a call of its own
    obtain ⟨x, hx, request'', op'', rfl, -⟩ := hsince.exists_mem
    obtain ⟨first, last, rfl⟩ := List.append_of_mem hx
    have hfresh : Rule env start carried P (before ++ Event.started tool request (some op) :: first)
        (Event.started tool' request'' (some op'')) := h _ _ (last ++
          Event.invoked tool' args' opclass' (some request'.attempt) outcome' ::
            Event.hook "tool_result" false ::
              Event.finished tool' request' answer :: rest) (by simp)
    rcases Since.of_not hfresh (fun hbetween => hbetween.2 trivial) with ⟨hc, -⟩ | hsince'
    · exact hc.elim
    · obtain ⟨y, hy, hycalled⟩ := hsince'.exists_mem
      exact absurd hycalled (hcalled y (by simp [hy]))

/-- Every operation that is left open has its label. -/
theorem LeftOpen.mem_openLabels {es : List Event} {label : PyStr} (hopen : LeftOpen es label)
    (h : Every (Rule env start carried P) es) (hsettled : Settled es) :
    label ∈ openLabels carried es := by
  obtain ⟨before, tool, request, op, after, rfl, ⟨hrefused, rfl⟩ |
    ⟨attempt, hexecute, hattempt, hconfirmed, rfl⟩⟩ := hopen
  · refine List.mem_append_right _ (List.mem_filterMap.mpr ⟨_, List.mem_append_right _
      List.mem_cons_self, ?_⟩)
    simp [Event.openLabel, hrefused]
  · obtain ⟨segment, y, rest, rfl, hanswered, hsegment⟩ := exists_answered h hsettled hexecute
    cases y with
    | finished tool' request' answer =>
      obtain ⟨rfl, hrequest⟩ := eq_of_started h hsegment
      obtain rfl := Option.some.inj (hattempt.symm.trans hrequest)
      have hopen : answer = some false := by
        have hnot := hconfirmed (Event.finished tool' request' answer) (by simp)
        rcases answer with _ | _ | _
        · exact absurd rfl hanswered
        · rfl
        · exact absurd rfl hnot
      refine List.mem_append_right _ (List.mem_filterMap.mpr ⟨.finished tool' request' answer,
        by simp, ?_⟩)
      rw [hopen]
      rfl
    | _ => exact hanswered.elim

end Receipts

/-- A label is stated. -/
theorem isStated_label (printable : CodePoint → Bool) (tool detail : PyStr) :
    isStated printable (.str (tool ++ lit ":" ++ detail)) = true := by
  have hmem : CodePoint.scalar ':' ∈ tool ++ lit ":" ++ detail := by
    simp [lit, ofChars]
  have hstrip : strip (Json.pyStr printable (.str (tool ++ lit ":" ++ detail))) ≠ [] :=
    strip_ne_nil hmem rfl
  simpa [isStated] using hstrip

theorem LeftOpen.isStated {es : List Event} {label : PyStr} (h : LeftOpen es label)
    (printable : CodePoint → Bool) : Compaction.isStated printable (.str label) = true := by
  obtain ⟨before, tool, request, op, after, -, ⟨-, rfl⟩ | ⟨attempt, -, -, -, rfl⟩⟩ := h
  · exact isStated_label printable tool _
  · exact isStated_label printable tool _

/-- While at most eight operations are stated, a compaction mentions each of them. While at most
eight operations were left open in a run, each compaction mentions every operation that was
started and not finished. -/
theorem openOperations_mentioned (messages : List Members) :
    (∀ (printable : CodePoint → Bool) (budgetChars keepTail : ℤ) (openOperations : List Json)
      (result : CompactionResult),
      compactHistory printable messages budgetChars openOperations keepTail = .ok result →
      result.compacted = true → (openOperations.filter (isStated printable)).length ≤ 8 →
      ∀ item ∈ openOperations, isStated printable item = true →
        ∃ m ∈ result.messages, contains (content m) (receiptItem printable item) = true) ∧
    ∀ (env : Env) (w : World) (unclosed : List PyStr) (totalTokens : ℤ) (before : List Event)
      (operations : List PyStr) (history : List Members) (after : List Event),
      (run env w messages unclosed totalTokens).loop.trace =
        before ++ .compacted operations history :: after →
      (openLabels unclosed before).length ≤ 8 →
      ∀ label, LeftOpen before label → Mentions history label := by
  refine ⟨fun _ _ _ _ _ hok hcompacted hcount _ hitem hstated =>
    exists_mention_compactHistory hok hcompacted hcount hitem hstated, ?_⟩
  intro env w unclosed totalTokens before operations history after htrace hcount label
    hopen
  have hfinal : Final env totalTokens unclosed False _ :=
    final_run env w messages unclosed totalTokens False.elim False.elim
  obtain ⟨hsettled, hmentions⟩ :
      Rule env totalTokens unclosed False before (Event.compacted operations history) :=
    hfinal.rules before _ after htrace
  have hrules : Every (Rule env totalTokens unclosed False) before :=
    (htrace ▸ hfinal.rules).left
  exact hmentions hcount label (hopen.mem_openLabels hrules hsettled)
    (hopen.isStated env.printable)

/-- The history was compacted here. -/
def Event.isCompacted : Event → Bool
  | .compacted .. => true
  | _ => false

/-- The note was refused here, since it is busy. -/
def Event.isRefusedNote : Event → Bool
  | .started tool _ (some op) => tool = lit "note" ∧ !op.canExecute ∧ op.detail = lit "busy"
  | _ => false

/-- An operation that was given, and one whose start was refused in a run. -/
theorem openOperations_mentioned_busy :
    (∃ result, compactHistory (fun _ => true) threeReads 1 [.str "write:a1"] 2 = .ok result ∧
      ∃ m ∈ result.messages, contains (content m) "write:a1" = true) ∧
    ∃ before operations history after,
      (run (noteEnv 2 1) (noteWorld refusesNote []) [userMessage "go"] [] 0).loop.trace =
        before ++ .compacted operations history :: after ∧ Mentions history "note:busy" := by
  constructor
  · obtain ⟨result, hok, hcompacted⟩ : ∃ result,
        compactHistory (fun _ => true) threeReads 1 [.str "write:a1"] 2 = .ok result ∧
          result.compacted = true := ⟨_, rfl, rfl⟩
    exact ⟨result, hok, (openOperations_mentioned _).1 _ _ _ _ _ hok hcompacted (by decide) _
      List.mem_cons_self (by decide)⟩
  · have hcompacts : (((run (noteEnv 2 1) (noteWorld refusesNote []) [userMessage "go"] []
        0).loop.trace[15]?).any Event.isCompacted) = true := by
      decide +kernel
    have hstarts : ((((run (noteEnv 2 1) (noteWorld refusesNote []) [userMessage "go"] []
        0).loop.trace.take 15)[6]?).any Event.isRefusedNote) = true := by decide +kernel
    have hcount : (openLabels [] ((run (noteEnv 2 1) (noteWorld refusesNote []) [userMessage "go"]
        [] 0).loop.trace.take 15)).length ≤ 8 := by decide +kernel
    have hmentions := (openOperations_mentioned [userMessage "go"]).2 (noteEnv 2 1)
      (noteWorld refusesNote []) [] 0
    generalize run (noteEnv 2 1) (noteWorld refusesNote []) [userMessage "go"] [] 0 = ended
      at hcompacts hstarts hcount hmentions ⊢
    obtain ⟨compacted, hcompacted, hcompacts⟩ := Option.any_eq_true _ _ |>.mp hcompacts
    obtain ⟨started, hstarted, hstarts⟩ := Option.any_eq_true _ _ |>.mp hstarts
    have hsplit := split_of_getElem? hcompacted
    have hopen := split_of_getElem? hstarted
    obtain ⟨operations, history, rfl⟩ : ∃ operations history,
        compacted = .compacted operations history := by
      cases compacted with
      | compacted operations history => exact ⟨operations, history, rfl⟩
      | _ => cases hcompacts
    obtain ⟨request, op, rfl, hrefused, hdetail⟩ : ∃ request op,
        started = .started "note" request (some op) ∧ op.canExecute = false ∧
          op.detail = lit "busy" := by
      cases started with
      | started tool request op =>
        cases op with
        | none => cases hstarts
        | some op =>
          simp only [Event.isRefusedNote, Bool.decide_and, Bool.and_eq_true, decide_eq_true_eq,
            Bool.not_eq_true'] at hstarts
          exact ⟨request, op, by rw [hstarts.1], hstarts.2⟩
      | _ => cases hstarts
    have hlabel : lit "note:busy" = lit "note" ++ lit ":" ++ op.detail.take 80 := by
      rw [hdetail]
      rfl
    exact ⟨_, operations, history, _, hsplit, hmentions _ _ _ _ hsplit hcount _
      ⟨_, "note", request, op, _, hopen, Or.inl ⟨hrefused, hlabel⟩⟩⟩

/-- Nine open operations. -/
def nineOperations : List Json :=
  [.str "w:1", .str "w:2", .str "w:3", .str "w:4", .str "w:5", .str "w:6", .str "w:7", .str "w:8",
    .str "w:9"]

/-- The ninth operation is lost. -/
theorem ninth_operation_lost : ¬∀ (printable : CodePoint → Bool) (messages : List Members)
    (budgetChars keepTail : ℤ) (openOperations : List Json) (result : CompactionResult),
      compactHistory printable messages budgetChars openOperations keepTail = .ok result →
      result.compacted = true → ∀ item ∈ openOperations, isStated printable item = true →
        ∃ m ∈ result.messages, contains (content m) (receiptItem printable item) = true := by
  intro h
  obtain ⟨result, hok, hcompacted, hlost⟩ : ∃ result,
      compactHistory (fun _ => true) threeReads 1 nineOperations 2 = .ok result ∧
        result.compacted = true ∧
          (result.messages.any fun m => contains (content m) "w:9") = false :=
    ⟨_, rfl, rfl, by decide⟩
  obtain ⟨m, hm, hcontains⟩ := h _ _ _ _ _ _ hok hcompacted (.str "w:9")
    (by simp [nineOperations]) rfl
  rw [List.any_eq_false] at hlost
  exact hlost m hm hcontains

end Icode.Agent
