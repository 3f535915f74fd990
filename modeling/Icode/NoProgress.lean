import Icode.WorkerReservation

/-!
# Runs that make no progress

A run that fails adds the fingerprint of its failure to the history that the record of the run
carries, and the next run of the ticket starts with that history: a failure that repeats the last
one of the history has the decision to stop. `RunTrace` is a process with what its runs have done,
which the code does not keep: what the executor of a run did last, how often it was called, and with
which record the run has ended.

The sections that persist an interruption, a stop, a safe point or a start keep the last failure, if
the record has not changed since it was read. But `_record_executor_failure`, for an executor that
raises, neither looks at the history nor adds to it, so that a run that raises again and again is
never stopped (`raisedTwice_not_stopped`). `no_progress_stops` has the condition under which a
failure that repeats is stopped.
-/

namespace Icode

open Py Transition

/-! ## The last failure of a record -/

namespace Runtime

/-- The last failure of the history. -/
def lastFailure (rt : Members) : Option PyStr :=
  (textItems (rt.get "failure_history")).getLast?

/-- The record has the decision to stop. -/
def Stops (rt : Members) : Prop :=
  ∃ decision, rt.get "failure_decision" = .obj decision ∧
    Members.get decision "action" = .str FailureAction.stop.text

theorem lastFailure_congr {rt next : Members}
    (h : next.get "failure_history" = rt.get "failure_history") :
    lastFailure next = lastFailure rt := by
  rw [lastFailure, h, lastFailure]

@[simp] theorem lastFailure_set (rt : Members) {key : PyStr} (hkey : key ≠ "failure_history")
    (v : Json) : lastFailure (Dict.set rt key v) = lastFailure rt :=
  lastFailure_congr (by rw [Members.get_set, if_neg hkey.symm])

@[simp] theorem lastFailure_moved (rt : Members) (state now : PyStr) :
    lastFailure (moved rt state now) = lastFailure rt :=
  lastFailure_congr (by simp [moved, Dict.update])

@[simp] theorem lastFailure_finished (rt : Members) (state now : PyStr) :
    lastFailure (finished rt state now) = lastFailure rt :=
  lastFailure_congr (by simp [finished, moved, Dict.update])

@[simp] theorem lastFailure_interrupted (rt : Members) (code now : PyStr) :
    lastFailure (interrupted rt code now) = lastFailure rt :=
  lastFailure_congr (by simp [interrupted, finished, moved, Dict.update])

@[simp] theorem lastFailure_failed (rt : Members) (now : PyStr) :
    lastFailure (failed rt now) = lastFailure rt :=
  lastFailure_congr (by simp [failed, finished, moved, Dict.update])

@[simp] theorem lastFailure_requested (rt : Members) (ticket : PyStr) (intent : Intent)
    (request now : PyStr) (receipts : List PyStr) :
    lastFailure (requested rt ticket intent request now receipts) = lastFailure rt :=
  lastFailure_congr (by simp [requested, moved, Dict.update])

@[simp] theorem lastFailure_safePoint (rt : Members) (stop : Option StopIntent)
    (step now : PyStr) : lastFailure (safePoint rt stop step now) = lastFailure rt := by
  refine lastFailure_congr ?_
  unfold safePoint
  rcases stop with _ | _ | _ | _ | _ <;> simp [moved, Dict.update]

theorem textItems_map (items : List PyStr) : textItems (.arr (items.map .str)) = items := by
  simp [textItems, List.filterMap_map]

theorem getLast?_lastItems {α : Type*} {n : ℕ} (hn : 0 < n) (items : List α) :
    (lastItems n items).getLast? = items.getLast? := by
  rw [lastItems, List.getLast?_drop]
  split_ifs with h
  · have hnil : items = [] := List.length_eq_zero_iff.mp (by omega)
    rw [hnil]
    rfl
  · rfl

/-- A run that starts has the last failure of the run before. -/
@[simp] theorem lastFailure_starting (rt : Members) (ticket run now intent request : PyStr)
    (receipts : List PyStr) :
    lastFailure (starting rt ticket run now intent request receipts) = lastFailure rt := by
  have hlast := getLast?_lastItems (n := historyLimit) (by decide)
    (textItems (rt.get "failure_history"))
  unfold starting
  simp only
  split_ifs with hkept
  · rw [List.isEmpty_iff] at hkept
    rw [hkept] at hlast
    rw [lastFailure, lastFailure, ← hlast]
    rfl
  · rw [lastFailure, Members.get_set, if_pos rfl, textItems_map, hlast]
    rfl

/-- The fingerprint of the failure that a result is persisted as. -/
def fingerprint (result : ExecutionResult) : PyStr :=
  failureFingerprint (resultError result) result.lastStep

theorem getLast?_recordFailure (history : List PyStr) (fp : PyStr) :
    (recordFailure history fp).getLast? = some fp := by
  rw [recordFailure, getLast?_lastItems (by decide)]
  simp

/-- A failure that is persisted is the last one of the history. -/
theorem lastFailure_terminal (rt : Members) {result : ExecutionResult}
    (herror : (resultError result).isSome = true) (now : PyStr)
    (answer : Option FailureDecision) :
    lastFailure (terminal rt result now answer) = some (fingerprint result) := by
  obtain ⟨code, hcode⟩ := Option.isSome_iff_exists.mp herror
  unfold terminal fingerprint
  simp only [hcode, withFailure, failureHistory]
  rw [lastFailure]
  split_ifs <;> simp [textItems_map, getLast?_recordFailure]

theorem fingerprint_ne_nil (result : ExecutionResult) :
    (fingerprint result).isEmpty = false := by
  simp [fingerprint, failureFingerprint]

/-- A failure that repeats the last one of the history is persisted with the decision to stop. -/
theorem stops_terminal {rt : Members} {result : ExecutionResult}
    (herror : (resultError result).isSome = true)
    (hlast : lastFailure rt = some (fingerprint result)) (now : PyStr)
    (answer : Option FailureDecision) : Stops (terminal rt result now answer) := by
  obtain ⟨code, hcode⟩ := Option.isSome_iff_exists.mp herror
  have hstuck : isStuck (textItems (rt.get "failure_history"))
      (failureFingerprint (some code) result.lastStep) = true := by
    have hne := fingerprint_ne_nil result
    rw [lastFailure] at hlast
    rw [fingerprint, hcode] at hlast hne
    simp [isStuck, hlast, hne]
  have haction : (stopForNoProgress (failureDecisionFor result answer)).action = .stop := by
    unfold stopForNoProgress
    split_ifs with h
    · exact h
    · rfl
  refine ⟨Dict.set (stopForNoProgress (failureDecisionFor result answer)).toPublic "stuck"
    (.bool true), ?_, ?_⟩
  · unfold terminal
    simp only [hcode, withFailure, failureHistory, hstuck, if_true]
    simp
  · rw [Members.get_set, if_neg (by decide)]
    change Json.str _ = _
    rw [haction]

/-- A result that is not a success is persisted with an error. -/
theorem resultError_isSome {result : ExecutionResult} (h : result.state ≠ .succeeded) :
    (resultError result).isSome = true := by
  unfold resultError
  cases result.errorCode <;> cases hstate : result.state <;> simp_all

end Runtime

/-! ## What runs have done -/

/-- How the executor has come back. -/
inductive RunOutcome where
  | returned (result : ExecutionResult)
  | raised

namespace RunOutcome

/-- The same error code and last step, or an exception both times. -/
def Alike : RunOutcome → RunOutcome → Prop
  | .returned a, .returned b => a.errorCode = b.errorCode ∧ a.lastStep = b.lastStep
  | .raised, .raised => True
  | _, _ => False

/-- Results without an error code have the same state. -/
def SameError : RunOutcome → RunOutcome → Prop
  | .returned a, .returned b => a.errorCode = none → a.state = b.state
  | _, _ => True

def Succeeded : RunOutcome → Prop
  | .returned a => a.state = .succeeded
  | .raised => False

instance (o p : RunOutcome) : Decidable (o.Alike p) := by
  cases o <;> cases p <;> unfold Alike <;> infer_instance

instance (o p : RunOutcome) : Decidable (o.SameError p) := by
  cases o <;> cases p <;> unfold SameError <;> infer_instance

instance (o : RunOutcome) : Decidable o.Succeeded := by
  cases o <;> unfold Succeeded <;> infer_instance

end RunOutcome

/-- The end of a run. -/
structure RunEnd where
  run : ℕ
  /-- What its executor did last. -/
  outcome : Option RunOutcome
  /-- `_worker_main` has persisted a result, and not `_record_executor_failure` a failure. -/
  byResult : Bool
  /-- What has been persisted. -/
  record : Members

namespace RunEnd

/-- The run has ended in state failed or blocked. -/
def Failed (e : RunEnd) : Prop :=
  Runtime.stateIn e.record [lit "failed", lit "blocked"] = true

instance (e : RunEnd) : Decidable e.Failed :=
  inferInstanceAs (Decidable (_ = true))

/-- The run has failed like an earlier one. -/
def Repeats (e p : RunEnd) : Prop :=
  e.Failed ∧ p.Failed ∧ ∃ o ∈ e.outcome, ∃ q ∈ p.outcome, o.Alike q

instance (e p : RunEnd) : Decidable (e.Repeats p) := by
  unfold Repeats
  infer_instance

/-- The failures of the two runs, if they are alike, are persisted with the same fingerprint. -/
def Shows (e p : RunEnd) : Prop :=
  p.Failed → ∀ o ∈ e.outcome, ∀ q ∈ p.outcome, o.Alike q →
    e.byResult = true ∧ (¬o.Succeeded → p.byResult = true ∧ o.SameError q)

instance (e p : RunEnd) : Decidable (e.Shows p) := by
  unfold Shows
  infer_instance

end RunEnd

/-- What the step says of the executor of a run. -/
def ProcessAction.outcomeOf (n : ℕ) : ProcessAction → Option RunOutcome
  | .work k (.executorReturned result) => if k = n then some (.returned result) else none
  | .work k .executorRaised => if k = n then some .raised else none
  | _ => none

namespace AutonomyProcess

/-- The update of the metadata that a step does. -/
def written (s : AutonomyProcess) : ProcessAction → Option (RunUpdate × AfterUpdate)
  | .advance i env =>
    match s.managers i with
    | some m =>
      match m.todo, env.answer with
      | .update u after :: _, .accepted => some (u, after)
      | .update u after :: _, .unconfirmed => some (u, after)
      | _, _ => none
    | none => none
  | _ => none

/-- Where the thread of a run stands, if there is a run. -/
def thread (s : AutonomyProcess) (n : ℕ) : Option (Option WorkerPc) :=
  (s.runs n).map RunControl.thread

end AutonomyProcess

/-- The thread is in `executor.execute`. -/
def inExecutor : Option (Option WorkerPc) → Bool
  | some (some (.executing _)) => true
  | _ => false

/-- A process with what its runs have done. -/
structure RunTrace where
  process : AutonomyProcess
  /-- What the executor of a run did last. -/
  did : ℕ → Option RunOutcome
  /-- How often the executor of a run has been called. -/
  calls : ℕ → ℕ
  /-- The runs of a ticket that have ended with a result or an exception, latest first. -/
  ends : PyStr → List RunEnd

namespace RunTrace

def initial (outDir : PyStr → PyStr) (agent : PyStr → Members) : RunTrace :=
  ⟨AutonomyProcess.initial outDir agent, fun _ => none, fun _ => 0, fun _ => []⟩

/-- The ends of other runs, after those of run `n`. -/
def others (n : ℕ) (ends : List RunEnd) : List RunEnd :=
  ends.dropWhile fun e => e.run == n

/-- The end that an update persists. -/
def endOf (t : RunTrace) : RunUpdate × AfterUpdate → Option RunEnd
  | (u, .goto n .leaving failed) => some ⟨n, t.did n, failed matches .raised, u.next⟩
  | _ => none

/-- An end of a run takes the place of one that the run has persisted before. -/
def endsAfter (t : RunTrace) (a : ProcessAction) : PyStr → List RunEnd :=
  match t.process.written a with
  | some x =>
    match t.endOf x with
    | some e => Function.update t.ends x.1.ticket (e :: others e.run (t.ends x.1.ticket))
    | none => t.ends
  | none => t.ends

def step (t : RunTrace) (a : ProcessAction) : Option RunTrace :=
  (t.process.step a).map fun s' =>
    { process := s',
      did := fun n => (a.outcomeOf n).or (t.did n),
      calls := fun n => t.calls n +
        if !inExecutor (t.process.thread n) && inExecutor (s'.thread n) then 1 else 0,
      ends := t.endsAfter a }

/-- A failure that repeats the one of the run before, or of an earlier run with only failures like
it in between, is persisted with the decision to stop; and no run calls its executor a third
time. -/
def NoProgressStops (t : RunTrace) : Prop :=
  (∀ ticket later e between p earlier, t.ends ticket = later ++ e :: (between ++ p :: earlier) →
    (∀ b ∈ between, e.Repeats b) → e.Repeats p → Runtime.Stops e.record) ∧
  ∀ n, t.calls n ≤ 2

/-- An update replaces a record with the last failure of the record that it was made from, and the
end of a run shows its failure, if the run before has failed alike. -/
def Meets (t : RunTrace) (a : ProcessAction) : Prop :=
  ∀ x ∈ t.process.written a,
    Runtime.lastFailure (t.process.runtime x.1.ticket) = Runtime.lastFailure x.1.read ∧
    ∀ e ∈ t.endOf x, ∀ p ∈ (others e.run (t.ends x.1.ticket)).head?, e.Shows p

instance (t : RunTrace) (a : ProcessAction) : Decidable (t.Meets a) := by
  unfold Meets
  infer_instance

end RunTrace

/-! ## Threads -/

/-- A step of a worker moves its thread. -/
inductive Goes : WorkerAction → WorkerPc → WorkerPc → Prop
  | call {readable : Bool} {now : PyStr} : Goes (.start readable now) .entered (.executing false)
  | returned {result : ExecutionResult} :
      Goes (.executorReturned result) (.executing false) (.returned result)
  | returnedAgain {result : ExecutionResult} :
      Goes (.executorReturned result) (.executing true) (.finishing result)
  | retrying {readable : Bool} {decision : Option FailureDecision} {result : ExecutionResult} :
      Goes (.decideRetry readable decision) (.returned result) (.retrying result)
  | finishing {readable : Bool} {decision : Option FailureDecision} {result : ExecutionResult} :
      Goes (.decideRetry readable decision) (.returned result) (.finishing result)
  | callAgain {result : ExecutionResult} : Goes .retry (.retrying result) (.executing true)
  | keep {result : ExecutionResult} : Goes .retry (.retrying result) (.finishing result)
  | raise {w : WorkerAction} {pc : WorkerPc} : Goes w pc .raised
  | leave {w : WorkerAction} {pc : WorkerPc} : Goes w pc .leaving
  | finish : Goes .leave .leaving .ended

/-- A worker at `pc` persists an update, and goes on at `next`, or at `failed`. -/
inductive Persists : WorkerPc → RunUpdate → WorkerPc → WorkerPc → Prop
  | running {ticket now : PyStr} {rt patch : Members} :
      Persists .entered ⟨ticket, rt,
        Dict.set (Runtime.moved rt "running" now) "started_at" (.str now), patch⟩
        (.executing false) .raised
  | safePoint {ticket step now : PyStr} {rt patch : Members} {stop : Option StopIntent}
      {retried : Bool} :
      Persists (.executing retried) ⟨ticket, rt, Runtime.safePoint rt stop step now, patch⟩
        (.executing retried) (.executing retried)
  | terminal {ticket now : PyStr} {rt patch : Members} {result : ExecutionResult}
      {answer : Option FailureDecision} :
      Persists (.finishing result) ⟨ticket, rt, Runtime.terminal rt result now answer, patch⟩
        .leaving .raised
  | failed {ticket now : PyStr} {rt patch : Members} :
      Persists .raised ⟨ticket, rt, Runtime.failed rt now, patch⟩ .leaving .leaving

namespace AutonomyProcess

variable {s s' : AutonomyProcess} {a : ProcessAction} {i j n k : ℕ} {op : LockedOp}
  {m m' : ProcessManager} {r : RunControl} {rest : List LockedOp} {w : WorkerAction}
  {pc : WorkerPc} {env : OpEnv}

/-- What a step of a worker does: nothing, or it moves the thread, or it persists an update. -/
theorem workerStep_cases (hs : s.workerStep m n r w pc = some s') :
    (s' = s ∧ w.ofExecutor = false) ∨
    (∃ pc', Goes w pc pc' ∧ (s' = s.goto n pc' ∨ s' = (s.release n).goto n pc')) ∨
    ∃ next patch pc' failed, w.ofExecutor = false ∧
      Persists pc ⟨r.ticket, s.runtime r.ticket, next, patch⟩ pc' failed ∧
      s' = s.persist n r next patch pc' failed := by
  have hgoto {pc' : WorkerPc} (hgo : Goes w pc pc') (hs : some (s.goto n pc') = some s') :
      ∃ pc', Goes w pc pc' ∧ (s' = s.goto n pc' ∨ s' = (s.release n).goto n pc') :=
    ⟨pc', hgo, Or.inl (Option.some.inj hs).symm⟩
  unfold workerStep at hs
  split at hs
  · split_ifs at hs
    · exact Or.inr (Or.inl (hgoto .raise hs))
    · exact Or.inr (Or.inl (hgoto .leave hs))
    · exact Or.inr (Or.inr ⟨_, _, _, _, rfl, .running, (Option.some.inj hs).symm⟩)
    · exact Or.inr (Or.inl (hgoto .call hs))
  · split_ifs at hs
    · exact Or.inl ⟨(Option.some.inj hs).symm, rfl⟩
    · exact Or.inr (Or.inr ⟨_, _, _, _, rfl, .safePoint, (Option.some.inj hs).symm⟩)
  · exact Or.inr (Or.inl (hgoto .returned hs))
  · exact Or.inr (Or.inl (hgoto .returnedAgain hs))
  · exact Or.inr (Or.inl (hgoto .raise hs))
  · exact Or.inr (Or.inl (hgoto .leave hs))
  · split_ifs at hs
    · exact Or.inr (Or.inl (hgoto .raise hs))
    · exact Or.inr (Or.inl (hgoto .retrying hs))
    · exact Or.inr (Or.inl (hgoto .finishing hs))
  · split_ifs at hs
    · exact Or.inr (Or.inl (hgoto .callAgain hs))
    · exact Or.inr (Or.inl (hgoto .keep hs))
  · split_ifs at hs
    · exact Or.inr (Or.inl (hgoto .leave hs))
    · exact Or.inr (Or.inl (hgoto .raise hs))
    · exact Or.inr (Or.inl (hgoto .leave hs))
    · exact Or.inr (Or.inr ⟨_, _, _, _, rfl, .terminal, (Option.some.inj hs).symm⟩)
  · split_ifs at hs
    · exact Or.inr (Or.inl (hgoto .leave hs))
    · exact Or.inr (Or.inr ⟨_, _, _, _, rfl, .failed, (Option.some.inj hs).symm⟩)
  · exact Or.inr (Or.inl ⟨_, .finish, Or.inr (Option.some.inj hs).symm⟩)
  · cases hs

@[simp] theorem thread_modifyManager (f : ProcessManager → ProcessManager) :
    (s.modifyManager i f).thread k = s.thread k :=
  rfl

@[simp] theorem thread_push (ops : List LockedOp) : (s.push i ops).thread k = s.thread k :=
  rfl

@[simp] theorem thread_answer (reply : Except AutonomyError Unit) :
    (s.answer i reply).thread k = s.thread k :=
  rfl

@[simp] theorem thread_remember (key : PyStr × Intent × PyStr) :
    (s.remember i key).thread k = s.thread k :=
  rfl

@[simp] theorem thread_record (u : RunUpdate) (after : AfterUpdate) :
    (s.record u after).thread k = s.thread k :=
  rfl

theorem thread_modifyRun {g : RunControl → RunControl} (hg : ∀ r, (g r).thread = r.thread) :
    (s.modifyRun n g).thread k = s.thread k := by
  rw [thread, runs_modifyRun]
  split_ifs with hk
  · subst hk
    simp [thread, Function.comp_def, hg]
  · rfl

theorem thread_goto : (s.goto n pc).thread k =
    if k = n then (s.thread k).map fun _ => some pc else s.thread k := by
  rw [thread, goto, runs_modifyRun]
  split_ifs with hk
  · subst hk
    simp [thread, Function.comp_def]
  · rfl

@[simp] theorem thread_release : (s.release n).thread k = s.thread k := by
  unfold release
  split
  · rfl
  · split
    · rfl
    · split_ifs
      · exact thread_modifyRun fun _ => rfl
      · exact thread_modifyRun fun _ => rfl
      · rfl

theorem thread_follow (u : RunUpdate) (after : AfterUpdate) (done : Bool) :
    (s.follow i u after done).thread k = s.thread k ∨
    ∃ next failed pc, after = .goto k next failed ∧ (pc = next ∨ pc = failed) ∧
      (s.follow i u after done).thread k = (s.thread k).map fun _ => some pc := by
  cases after with
  | stop n intent request =>
    left
    cases done with
    | true => exact thread_modifyRun (s := s) fun _ => rfl
    | false => rfl
  | goto n next failed =>
    have hgoto (pc : WorkerPc) (hpc : pc = next ∨ pc = failed) :
        (s.goto n pc).thread k = s.thread k ∨
        ∃ next' failed' pc', AfterUpdate.goto n next failed = .goto k next' failed' ∧
          (pc' = next' ∨ pc' = failed') ∧
          (s.goto n pc).thread k = (s.thread k).map fun _ => some pc' := by
      rw [thread_goto]
      split_ifs with hk
      · exact Or.inr ⟨next, failed, pc, by rw [hk], hpc, rfl⟩
      · exact Or.inl rfl
    cases done with
    | true => exact hgoto next (Or.inl rfl)
    | false => exact hgoto failed (Or.inr rfl)
  | _ => cases done <;> exact Or.inl rfl

/-- What an access does to the thread of run `k`. -/
theorem thread_perform (s : AutonomyProcess) (i k : ℕ) (m : ProcessManager) (env : OpEnv)
    (op : LockedOp) :
    (s.perform i m env op).thread k = s.thread k ∨
    (k = s.nextRun ∧ (s.perform i m env op).thread k = some none) ∨
    (∃ intent request u, op = .launch k intent request u ∧
      (s.perform i m env op).thread k = (s.thread k).map fun _ => some .entered) ∨
    ∃ u next failed pc, op = .update u (.goto k next failed) ∧ (pc = next ∨ pc = failed) ∧
      (s.perform i m env op).thread k = (s.thread k).map fun _ => some pc := by
  cases op with
  | update u after =>
    have hfollow (s₁ : AutonomyProcess) (hs₁ : s₁.thread k = s.thread k) (done : Bool) :
        (s₁.follow i u after done).thread k = s.thread k ∨
        ∃ next failed pc, after = .goto k next failed ∧ (pc = next ∨ pc = failed) ∧
          (s₁.follow i u after done).thread k = (s.thread k).map fun _ => some pc := by
      rw [← hs₁]
      exact thread_follow u after done
    have hupdate : (s.update i u after env.answer).thread k = s.thread k ∨
        ∃ next failed pc, after = .goto k next failed ∧ (pc = next ∨ pc = failed) ∧
          (s.update i u after env.answer).thread k = (s.thread k).map fun _ => some pc := by
      cases env.answer with
      | accepted => exact hfollow (s.record u after) rfl true
      | unconfirmed => exact hfollow (s.record u after) rfl false
      | refused => exact hfollow s rfl false
      | unreadable => exact hfollow s rfl false
    refine hupdate.imp_right fun h => Or.inr (Or.inr ?_)
    obtain ⟨next, failed, pc, rfl, hpc, hthread⟩ := h
    exact ⟨u, next, failed, pc, rfl, hpc, hthread⟩
  | reserve ticket intent request read receipts =>
    simp only [perform]
    split_ifs
    · exact Or.inl rfl
    · exact Or.inl rfl
    · rw [thread_push, thread, reserve]
      by_cases hk : k = s.nextRun
      · subst hk
        exact Or.inr (Or.inl ⟨rfl, congrArg _ (Function.update_self ..)⟩)
      · exact Or.inl (congrArg _ (Function.update_of_ne hk ..))
  | launch n intent request u =>
    simp only [perform]
    split_ifs
    · rw [thread_remember, thread_goto]
      split_ifs with hk
      · exact Or.inr (Or.inr (Or.inl ⟨intent, request, u, by rw [hk], rfl⟩))
      · exact Or.inl rfl
    · exact Or.inl rfl
  | release ticket n => exact Or.inl thread_release
  | interrupt ticket n =>
    left
    have hstop := thread_modifyRun (s := s) (n := n) (k := k)
      (g := fun r => { r with stopIntent := some .interrupted }) fun _ => rfl
    simp only [perform]
    split_ifs
    · exact hstop
    · exact hstop
  | receipts ticket intent request mode =>
    left
    simp only [perform, checkReceipts]
    repeat' split
    · rfl
    · rfl
    · rfl
    · cases intent <;> rfl
  | _ =>
    left
    simp only [perform]
    repeat' split
    all_goals rfl

theorem nextRun_release (n : ℕ) : (s.release n).nextRun = s.nextRun := by
  unfold release
  repeat' split
  all_goals rfl

/-- The number of a run is not given again. -/
theorem nextRun_perform : s.nextRun ≤ (s.perform i m env op).nextRun := by
  cases op with
  | update u after =>
    simp only [perform, update]
    cases env.answer <;> cases after <;> exact le_rfl
  | reserve ticket intent request read receipts =>
    simp only [perform]
    split_ifs
    · exact le_rfl
    · exact le_rfl
    · exact Nat.le_succ s.nextRun
  | release ticket n => exact (nextRun_release n).ge
  | receipts ticket intent request mode =>
    simp only [perform, checkReceipts]
    repeat' split
    · exact le_rfl
    · exact le_rfl
    · exact le_rfl
    · cases intent <;> exact le_rfl
  | _ =>
    simp only [perform]
    repeat' split
    all_goals exact le_rfl

/-! ## Sections of the workers -/

/-- What is left of the section of a manager. -/
def todoOf (s : AutonomyProcess) (i : ℕ) : Option (List LockedOp) :=
  (s.managers i).map ProcessManager.todo

theorem todoOf_modifyManager {f : ProcessManager → ProcessManager} (hj : j ≠ i) :
    (s.modifyManager i f).todoOf j = s.todoOf j := by
  rw [todoOf, managers_modifyManager, if_neg hj, todoOf]

theorem todoOf_release : (s.release n).todoOf j = s.todoOf j := by
  have herase (r : RunControl) (table : Dict PyStr ℕ) :
      (({ s with processWorkers := table }.modifyManager r.manager fun m =>
        { m with controls := m.controls.erase r.ticket }).modifyRun n fun r =>
          { r with reserved := false }).todoOf j = s.todoOf j := by
    change (AutonomyProcess.managers (modifyManager _ _ _) j).map _ = _
    rw [managers_modifyManager]
    split_ifs with hj
    · subst hj
      simp [todoOf, Function.comp_def]
    · rfl
  unfold release
  split
  · rfl
  · split
    · rfl
    · split_ifs
      · exact herase _ _
      · exact herase _ _
      · rfl

/-- An access is not seen in the sections of the other managers. -/
theorem todoOf_perform (hj : j ≠ i) : (s.perform i m env op).todoOf j = s.todoOf j := by
  have hmodify (s₁ : AutonomyProcess) (hs₁ : s₁.todoOf j = s.todoOf j)
      (f : ProcessManager → ProcessManager) : (s₁.modifyManager i f).todoOf j = s.todoOf j :=
    (todoOf_modifyManager hj).trans hs₁
  cases op with
  | update u after =>
    have hfollow (s₁ : AutonomyProcess) (hs₁ : s₁.todoOf j = s.todoOf j) (done : Bool) :
        (s₁.follow i u after done).todoOf j = s.todoOf j := by
      cases after with
      | launch n intent request =>
        cases done with
        | true => exact hmodify s₁ hs₁ _
        | false => exact hmodify _ (hmodify s₁ hs₁ _) _
      | startFailed => cases done <;> exact hmodify s₁ hs₁ _
      | stop n intent request =>
        cases done with
        | true => exact hmodify (s₁.modifyRun n _) hs₁ _
        | false => exact hmodify s₁ hs₁ _
      | _ => cases done <;> exact hs₁
    simp only [perform, update]
    cases env.answer with
    | accepted => exact hfollow (s.record u after) rfl true
    | unconfirmed => exact hfollow (s.record u after) rfl false
    | refused => exact hfollow s rfl false
    | unreadable => exact hfollow s rfl false
  | reserve ticket intent request read receipts =>
    simp only [perform]
    split_ifs
    · exact hmodify s rfl _
    · exact hmodify s rfl _
    · exact hmodify _ (hmodify { s with processWorkers := _, runs := _, nextRun := _ } rfl _) _
  | openWorkspace n intent request u =>
    simp only [perform]
    split
    · exact hmodify _ (hmodify s rfl _) _
    · exact hmodify s rfl _
  | launch n intent request u =>
    simp only [perform]
    split_ifs
    · exact hmodify (s.goto n .entered) rfl _
    · exact hmodify s rfl _
  | release ticket n => exact todoOf_release
  | interrupt ticket n =>
    simp only [perform]
    split_ifs
    · rfl
    · exact hmodify (s.modifyRun n _) rfl _
  | recover ticket =>
    simp only [perform]
    split_ifs
    · rfl
    · exact congrArg _ (Function.update_of_ne hj ..)
    · rfl
    · exact hmodify s rfl _
  | recoverCheck ticket read live =>
    simp only [perform]
    split_ifs
    · rfl
    · exact hmodify { s with processWorkers := _ } rfl _
  | receipts ticket intent request mode =>
    simp only [perform, checkReceipts]
    repeat' split
    · exact hmodify s rfl _
    · exact hmodify s rfl _
    · exact hmodify s rfl _
    · cases intent <;> exact hmodify s rfl _
  | _ =>
    simp only [perform]
    split <;> exact hmodify s rfl _

/-- A section has an access that a worker waits for only alone, and the worker stands where it has
planned it. -/
def Plan (s : AutonomyProcess) (todo : List LockedOp) : Prop :=
  (∀ op ∈ todo, op.ofWorker = false) ∨
    ∃ u n next failed pc, todo = [.update u (.goto n next failed)] ∧
      s.thread n = some (some pc) ∧ Persists pc u next failed

def Planned (s : AutonomyProcess) : Prop :=
  ∀ i todo, s.todoOf i = some todo → s.Plan todo

variable {todo : List LockedOp} {u : RunUpdate} {next failed : WorkerPc}

theorem Plan.keep (h : s.Plan todo) (hthread : ∀ u n next failed,
    .update u (.goto n next failed) ∈ todo → s'.thread n = s.thread n) : s'.Plan todo := by
  refine h.imp_right ?_
  rintro ⟨u, n, next, failed, pc, rfl, hpc, hpersists⟩
  refine ⟨u, n, next, failed, pc, rfl, ?_, hpersists⟩
  rw [hthread u n next failed (List.mem_singleton_self _), hpc]

/-- Of a section that has an access of a worker, nothing else is left. -/
theorem Planned.persists (hp : s.Planned) (hop : s.Heads i (.update u (.goto n next failed))) :
    ∃ pc, s.todoOf i = some [.update u (.goto n next failed)] ∧
      s.thread n = some (some pc) ∧ Persists pc u next failed := by
  obtain ⟨m, rest, hm, htodo⟩ := hop
  have htodoOf : s.todoOf i = some (.update u (.goto n next failed) :: rest) := by
    rw [todoOf, hm, Option.map_some, htodo]
  rcases hp i _ htodoOf with hnone | ⟨u', n', next', failed', pc, heq, hpc, hpersists⟩
  · cases hnone _ List.mem_cons_self
  · rw [htodoOf, heq]
    cases heq
    exact ⟨pc, rfl, hpc, hpersists⟩

theorem Planned.tail (hp : s.Planned) (hm : s.managers i = some m) (htodo : m.todo = op :: rest) :
    ∀ x ∈ rest, x.ofWorker = false := by
  have htodoOf : s.todoOf i = some (op :: rest) := by
    rw [todoOf, hm, Option.map_some, htodo]
  rcases hp i _ htodoOf with hnone | ⟨u, n, next, failed, pc, heq, -⟩
  · exact fun x hx => hnone x (List.mem_cons_of_mem _ hx)
  · cases heq
    intro x hx
    cases hx

theorem thread_of_held {ticket : PyStr} {started : Bool}
    (hn : Held s.runs n i ticket started) :
    ∃ r, s.runs n = some r ∧ s.thread n = some r.thread ∧ r.thread.isSome = started := by
  obtain ⟨r, hr, -, -, -, hstarted⟩ := hn
  exact ⟨r, hr, by rw [thread, hr, Option.map_some], hstarted⟩

/-- How a step may change where the thread of run `n` stands. -/
inductive Moves (s : AutonomyProcess) (a : ProcessAction) (n : ℕ) :
    Option (Option WorkerPc) → Option (Option WorkerPc) → Prop
  | same {x : Option (Option WorkerPc)} (ha : a.outcomeOf n = none) : Moves s a n x x
  | gone {x : Option (Option WorkerPc)} (ha : a.outcomeOf n = none) : Moves s a n x none
  | reserved {x : Option (Option WorkerPc)} (ha : a.outcomeOf n = none) (hn : n = s.nextRun) :
      Moves s a n x (some none)
  | launched (ha : a.outcomeOf n = none) : Moves s a n (some none) (some (some .entered))
  | goes {w : WorkerAction} {pc pc' : WorkerPc} (ha : a = .work n w) (hgo : Goes w pc pc') :
      Moves s a n (some (some pc)) (some (some pc'))
  | lands {u : RunUpdate} {pc pc' next failed : WorkerPc} (ha : a.outcomeOf n = none)
      (hpersists : Persists pc u next failed) (hpc : pc' = next ∨ pc' = failed) :
      Moves s a n (some (some pc)) (some (some pc'))

/-- A worker whose access is planned is not run. -/
theorem not_resumes
    (hlock : (m.todo.isEmpty || (w.ofExecutor && !m.todo.any (LockedOp.resumes n))) = true)
    (hop : .update u (.goto n next failed) ∈ m.todo) : False := by
  have hne : m.todo.isEmpty = false := by
    rw [List.isEmpty_eq_false_iff]
    exact List.ne_nil_of_mem hop
  have hresumes : m.todo.any (LockedOp.resumes n) = true :=
    List.any_eq_true.mpr ⟨_, hop, by simp [LockedOp.resumes]⟩
  simp [hne, hresumes] at hlock

theorem outcomeOf_of_not_ofExecutor (hw : w.ofExecutor = false) :
    (ProcessAction.work n w).outcomeOf k = none := by
  cases w <;> first | rfl | cases hw

theorem thread_step (h : s.Owned) (hp : s.Planned) (hs : s.step a = some s') (k : ℕ) :
    Moves s a k (s.thread k) (s'.thread k) := by
  cases a with
  | build enabled tickets =>
    obtain rfl := Option.some.inj hs
    exact .same rfl
  | intent i ticket payload =>
    simp only [step] at hs
    split at hs
    · split_ifs at hs
      split at hs
      · obtain rfl := Option.some.inj hs
        exact .same rfl
      · obtain rfl := Option.some.inj hs
        unfold call
        split_ifs <;> exact .same rfl
    · cases hs
  | shutdown i =>
    simp only [step] at hs
    split at hs
    · split_ifs at hs <;> obtain rfl := Option.some.inj hs <;> exact .same rfl
    · cases hs
  | advance i env =>
    simp only [step] at hs
    split at hs
    · rename_i m hm
      split at hs
      · rename_i op rest htodo
        obtain rfl := Option.some.inj hs
        rcases thread_perform (s.pop i m rest) i k m env op with heq | ⟨hk, heq⟩ | ⟨intent, request, u, rfl, heq⟩ |
            ⟨u, next, failed, pc', rfl, hpc', heq⟩
        · exact heq ▸ .same rfl
        · exact heq ▸ .reserved rfl hk
        · -- the section has reserved the run, and not started it
          have hn := (h.sect i m hm).starts _ (htodo ▸ List.mem_cons_self) u.ticket k rfl
          obtain ⟨r, -, hr, hstarted⟩ := thread_of_held hn
          rw [Option.isSome_eq_false_iff, Option.isNone_iff_eq_none] at hstarted
          have heq : ((s.pop i m rest).perform i m env _).thread k =
            (s.thread k).map fun _ => some .entered := heq
          rw [hstarted] at hr
          rw [hr] at heq ⊢
          exact heq ▸ .launched rfl
        · obtain ⟨pc, -, hpc, hpersists⟩ := hp.persists ⟨m, rest, hm, htodo⟩
          have heq : ((s.pop i m rest).perform i m env _).thread k =
            (s.thread k).map fun _ => some pc' := heq
          rw [hpc] at heq ⊢
          exact heq ▸ .lands rfl hpersists hpc'
      · cases hs
    · cases hs
  | work n w =>
    simp only [step] at hs
    split at hs
    · rename_i r hr
      split at hs
      · rename_i m pc hm hpc
        split_ifs at hs with hlock
        have hthread : s.thread n = some (some pc) := by
          rw [thread, hr, Option.map_some, hpc]
        have hne (hk : k ≠ n) : (ProcessAction.work n w).outcomeOf k = none := by
          cases w <;> simp [ProcessAction.outcomeOf, Ne.symm hk]
        rcases workerStep_cases hs with ⟨rfl, hw⟩ | ⟨pc', hgo, hs'⟩ |
          ⟨_, _, _, _, hw, -, rfl⟩
        · exact .same (outcomeOf_of_not_ofExecutor hw)
        · have hgoto : s'.thread k =
              if k = n then (s.thread k).map fun _ => some pc' else s.thread k := by
            rcases hs' with rfl | rfl
            · exact thread_goto
            · rw [thread_goto, thread_release]
          rw [hgoto]
          split_ifs with hk
          · subst hk
            rw [hthread]
            exact .goes rfl hgo
          · exact .same (hne hk)
        · exact .same (outcomeOf_of_not_ofExecutor hw)
      · cases hs
    · cases hs
  | exit =>
    obtain rfl := Option.some.inj hs
    exact .gone rfl

/-- The section of manager `i` changes, and no run. -/
theorem Planned.set (hp : s.Planned) (m' : ProcessManager) (hruns : s'.runs = s.runs)
    (hmanagers : s'.managers = Function.update s.managers i (some m'))
    (hplan : s'.Plan m'.todo) : s'.Planned := by
  intro j todo hj
  rw [todoOf, hmanagers] at hj
  by_cases hji : j = i
  · subst hji
    rw [Function.update_self] at hj
    obtain rfl := Option.some.inj hj
    exact hplan
  · rw [Function.update_of_ne hji] at hj
    exact (hp j todo hj).keep fun _ _ _ _ _ => by rw [thread, hruns, thread]

/-- A section begins that no worker waits for. -/
theorem Planned.modify (hp : s.Planned) (hm : s.managers i = some m)
    {f : ProcessManager → ProcessManager} (hf : ∀ op ∈ (f m).todo, op.ofWorker = false) :
    (s.modifyManager i f).Planned :=
  hp.set (f m) rfl (by rw [modifyManager, hm, Option.map_some]) (Or.inl hf)

theorem Planned.call (hp : s.Planned) (hm : s.managers i = some m) (hempty : m.todo = [])
    (ticket : PyStr) (intent : Intent) (request : PyStr) :
    (s.call i m ticket intent request).Planned := by
  unfold AutonomyProcess.call
  split_ifs
  · refine hp.modify hm fun op hop => ?_
    rw [List.mem_singleton.mp hop]
    rfl
  · refine hp.modify hm fun op hop => ?_
    have hop : op ∈ m.todo := hop
    rw [hempty] at hop
    cases hop
  · refine hp.modify hm fun op hop => ?_
    rw [List.mem_singleton.mp hop]
    rfl

/-- The section of a manager does an access. -/
theorem Planned.advance (h : s.Owned) (hp : s.Planned) (hm : s.managers i = some m)
    (htodo : m.todo = op :: rest) : ((s.pop i m rest).perform i m env op).Planned := by
  intro j todo hj
  by_cases hji : j = i
  · subst hji
    obtain ⟨m', hm', rfl⟩ := Option.map_eq_some_iff.mp hj
    have hrest : (s.pop j m rest).Todo fun k x => k = j → x.ofWorker = false := by
      rintro k m₁ x hm₁ hx rfl
      have hm₁ : Function.update s.managers k (some { m with todo := rest }) k = some m₁ :=
        hm₁
      rw [Function.update_self] at hm₁
      obtain rfl := Option.some.inj hm₁
      exact hp.tail hm htodo x hx
    have hnone := todo_perform ⟨m, rest, hm, htodo⟩ hrest
      (Eq.refl ((s.pop j m rest).perform j m env op)) fun _ hx _ _ => hx
    exact Or.inl fun x hx => hnone j m' x hm' hx rfl
  · have hpop : (s.pop i m rest).todoOf j = s.todoOf j := congrArg _ (Function.update_of_ne hji ..)
    rw [todoOf_perform hji, hpop] at hj
    refine (hp j todo hj).keep fun u n next failed hop => ?_
    -- run `n` is one of manager `j`, and has been started
    obtain ⟨k, hk, rfl⟩ := Option.map_eq_some_iff.mp hj
    have hn : Held s.runs n j u.ticket true := (h.sect j k hk).uses _ hop u.ticket n rfl
    rcases thread_perform (s.pop i m rest) i n m env op with heq | ⟨hnew, -⟩ | ⟨_, _, v, rfl, -⟩ | ⟨v, _, _, _, rfl, -⟩
    · exact heq
    · obtain ⟨r, hr, -⟩ := hn
      have hlt := h.fresh n r hr
      have hnew : n = s.nextRun := hnew
      omega
    · have hi := (h.sect i m hm).starts _ (htodo ▸ List.mem_cons_self) v.ticket n rfl
      exact absurd (hi.unique hn).1.symm hji
    · have hi := (h.sect i m hm).uses _ (htodo ▸ List.mem_cons_self) v.ticket n rfl
      exact absurd (hi.unique hn).1.symm hji

/-- A worker takes a step. -/
theorem Planned.work (h : s.Owned) (hp : s.Planned) (hr : s.runs n = some r)
    (hm : s.managers r.manager = some m) (hpc : r.thread = some pc)
    (hlock : (m.todo.isEmpty || (w.ofExecutor && !m.todo.any (LockedOp.resumes n))) = true)
    (hs : s.workerStep m n r w pc = some s') : s'.Planned := by
  have hthread : s.thread n = some (some pc) := by
    rw [thread, hr, Option.map_some, hpc]
  have hkeep (hsame : ∀ j, s'.todoOf j = s.todoOf j)
      (hother : ∀ k, k ≠ n → s'.thread k = s.thread k) : s'.Planned := by
    intro j todo hj
    rw [hsame] at hj
    refine (hp j todo hj).keep fun u k next failed hop => hother k ?_
    rintro rfl
    obtain ⟨m', hm', rfl⟩ := Option.map_eq_some_iff.mp hj
    obtain ⟨q, hq, rfl, -⟩ := (h.sect j m' hm').uses _ hop u.ticket k rfl
    obtain rfl : r = q := Option.some.inj (hr.symm.trans hq)
    obtain rfl : m = m' := Option.some.inj (hm.symm.trans hm')
    exact not_resumes hlock hop
  rcases workerStep_cases hs with ⟨rfl, -⟩ | ⟨pc', -, rfl | rfl⟩ |
    ⟨next, patch, pc', failed, hw, hpersists, rfl⟩
  · exact hp
  · refine hkeep (fun _ => rfl) fun k hk => ?_
    rw [thread_goto, if_neg hk]
  · refine hkeep (fun _ => todoOf_release) fun k hk => ?_
    rw [thread_goto, if_neg hk, thread_release]
  · have hempty : m.todo = [] := by simpa [hw] using hlock
    refine hp.set { m with todo := _ } rfl
      (by rw [persist, push, modifyManager, hm, Option.map_some]) (Or.inr ?_)
    refine ⟨_, n, pc', failed, pc, ?_, hthread, hpersists⟩
    rw [hempty, List.append_nil]

theorem Planned.step (h : s.Owned) (hp : s.Planned) (hs : s.step a = some s') : s'.Planned := by
  cases a with
  | build enabled tickets =>
    obtain rfl := Option.some.inj hs
    refine hp.set _ rfl rfl (Or.inl fun op hop => ?_)
    obtain ⟨ticket, -, rfl⟩ := List.mem_map.mp hop
    rfl
  | intent i ticket payload =>
    simp only [AutonomyProcess.step] at hs
    split at hs
    · rename_i m hm
      split_ifs at hs with hempty
      rw [List.isEmpty_iff] at hempty
      split at hs
      · obtain rfl := Option.some.inj hs
        refine hp.modify hm fun op hop => ?_
        have hop : op ∈ m.todo := hop
        rw [hempty] at hop
        cases hop
      · obtain rfl := Option.some.inj hs
        exact hp.call hm hempty _ _ _
    · cases hs
  | shutdown i =>
    simp only [AutonomyProcess.step] at hs
    split at hs
    · rename_i m hm
      split_ifs at hs
      · obtain rfl := Option.some.inj hs
        exact hp
      · obtain rfl := Option.some.inj hs
        refine hp.modify hm fun op hop => ?_
        obtain ⟨item, -, rfl⟩ := List.mem_map.mp hop
        rfl
    · cases hs
  | advance i env =>
    simp only [AutonomyProcess.step] at hs
    split at hs
    · rename_i m hm
      split at hs
      · rename_i op rest htodo
        obtain rfl := Option.some.inj hs
        exact hp.advance h hm htodo
      · cases hs
    · cases hs
  | work n w =>
    simp only [AutonomyProcess.step] at hs
    split at hs
    · rename_i r hr
      split at hs
      · rename_i m pc hm hpc
        split_ifs at hs with hlock
        exact hp.work h hr hm hpc hlock hs
      · cases hs
    · cases hs
  | exit =>
    obtain rfl := Option.some.inj hs
    intro j todo hj
    cases hj

theorem nextRun_step (hs : s.step a = some s') : s.nextRun ≤ s'.nextRun := by
  cases a with
  | build enabled tickets =>
    obtain rfl := Option.some.inj hs
    exact le_rfl
  | intent i ticket payload =>
    simp only [AutonomyProcess.step] at hs
    split at hs
    · split_ifs at hs
      split at hs
      · obtain rfl := Option.some.inj hs
        exact le_rfl
      · obtain rfl := Option.some.inj hs
        unfold AutonomyProcess.call
        split_ifs <;> exact le_rfl
    · cases hs
  | shutdown i =>
    simp only [AutonomyProcess.step] at hs
    split at hs
    · split_ifs at hs <;> obtain rfl := Option.some.inj hs <;> exact le_rfl
    · cases hs
  | advance i env =>
    simp only [AutonomyProcess.step] at hs
    split at hs
    · split at hs
      · obtain rfl := Option.some.inj hs
        exact nextRun_perform (s := s.pop i _ _)
      · cases hs
    · cases hs
  | work n w =>
    simp only [AutonomyProcess.step] at hs
    split at hs
    · split at hs
      · split_ifs at hs
        rcases workerStep_cases hs with ⟨rfl, -⟩ | ⟨pc', -, rfl | rfl⟩ |
          ⟨_, _, _, _, -, -, rfl⟩
        · exact le_rfl
        · exact le_rfl
        · exact (nextRun_release n).ge
        · exact le_rfl
      · cases hs
    · cases hs
  | exit =>
    obtain rfl := Option.some.inj hs
    exact le_rfl

/-! ## The last failure is carried on -/

/-- What an access is to write has the last failure of the record that was read, unless a worker
waits for it. -/
def Carries : LockedOp → Prop
  | .update _ (.goto _ _ _) => True
  | .update u _ => Runtime.lastFailure u.next = Runtime.lastFailure u.read
  | .openWorkspace _ _ _ u => Runtime.lastFailure u.next = Runtime.lastFailure u.read
  | _ => True

theorem carries_of_heads (h : s.Todo fun _ => Carries) (hop : s.Heads i op) : Carries op := by
  obtain ⟨m, rest, hm, htodo⟩ := hop
  exact h i m op hm (htodo ▸ List.mem_cons_self)

theorem carries_of_plans (h : s.Todo fun _ => Carries) (hop : Plans s s' i op) : Carries op := by
  cases hop with
  | plain hplain => cases op <;> trivial
  | openWorkspace => exact Runtime.lastFailure_starting ..
  | starting hopen =>
    have hread := carries_of_heads h hopen
    exact hread
  | startFailed => exact Runtime.lastFailure_interrupted ..
  | stop => exact Runtime.lastFailure_requested ..
  | interrupted => exact Runtime.lastFailure_interrupted ..
  | recovered => exact Runtime.lastFailure_interrupted ..
  | startOrResume => trivial
  | requestStop => trivial
  | reserve => trivial
  | launch => trivial
  | recoverCheck => trivial
  | worker => trivial

theorem carries_step (h : s.Todo fun _ => Carries) (hs : s.step a = some s') :
    s'.Todo fun _ => Carries := by
  intro i m op hm hop
  rcases todo_step hs i m op hm hop with ⟨m₀, hm₀, hop₀⟩ | hplan
  · exact h i m₀ op hm₀ (mem_of_mem_left hop₀)
  · exact carries_of_plans h hplan

theorem writes_iff {after : AfterUpdate} :
    s.Writes a u after ↔ s.written a = some (u, after) := by
  constructor
  · rintro ⟨i, env, rfl, ⟨m, rest, hm, htodo⟩, hanswer⟩
    rcases hanswer with hanswer | hanswer <;> simp only [written, hm, htodo, hanswer]
  · intro h
    cases a with
    | advance i env =>
      simp only [written] at h
      split at h
      · rename_i m hm
        split at h
        · rename_i htodo hanswer
          cases h
          exact ⟨i, env, rfl, ⟨m, _, hm, htodo⟩, Or.inl hanswer⟩
        · rename_i htodo hanswer
          cases h
          exact ⟨i, env, rfl, ⟨m, _, hm, htodo⟩, Or.inr hanswer⟩
        · cases h
      · cases h
    | _ => cases h

theorem runtime_of_written_eq_none (hw : s.written a = none) (hs : s.step a = some s') :
    s'.runtime = s.runtime := by
  rcases writes_or_same hs with ⟨hagent, -⟩ | ⟨u, after, h⟩
  · exact runtime_of_agent hagent
  · rw [(writes_iff).mp h] at hw
    cases hw

theorem runtime_of_written {after : AfterUpdate} (hw : s.written a = some (u, after))
    (hs : s.step a = some s') (ticket : PyStr) :
    s'.runtime ticket = if ticket = u.ticket then u.next else s.runtime ticket := by
  rw [runtime_of_agent (record_of_writes (writes_iff.mpr hw) hs).1, runtime_record]

/-- A worker whose update is done goes on. -/
theorem thread_of_writes (hw : s.Writes a u (.goto n next failed)) (hs : s.step a = some s') :
    ∃ pc, (pc = next ∨ pc = failed) ∧ s'.thread n = (s.thread n).map fun _ => some pc := by
  obtain ⟨i, env, rfl, ⟨m, rest, hm, htodo⟩, hanswer⟩ := hw
  simp only [AutonomyProcess.step, hm, htodo] at hs
  obtain rfl := Option.some.inj hs
  rcases hanswer with hanswer | hanswer
  · refine ⟨next, Or.inl rfl, ?_⟩
    simp only [perform, update, hanswer, follow]
    rw [thread_goto, if_pos rfl]
    rfl
  · refine ⟨failed, Or.inr rfl, ?_⟩
    simp only [perform, update, hanswer, follow]
    rw [thread_goto, if_pos rfl]
    rfl

/-- What a worker persists keeps the last failure, unless it is a result. -/
theorem lastFailure_of_persists (h : Persists pc u next failed) (hnext : next ≠ .leaving) :
    Runtime.lastFailure u.next = Runtime.lastFailure u.read := by
  cases h with
  | running => simp
  | safePoint => simp
  | terminal => exact absurd rfl hnext
  | failed => simp

/-- So does any other update. -/
theorem lastFailure_of_written {after : AfterUpdate} (hp : s.Planned)
    (hc : s.Todo fun _ => Carries) (hw : s.written a = some (u, after))
    (hafter : ∀ n failed, after ≠ .goto n .leaving failed) :
    Runtime.lastFailure u.next = Runtime.lastFailure u.read := by
  obtain ⟨i, env, rfl, hop, -⟩ := (writes_iff).mpr hw
  cases after with
  | goto n next failed =>
    obtain ⟨pc, -, -, hpersists⟩ := hp.persists hop
    refine lastFailure_of_persists hpersists ?_
    rintro rfl
    exact hafter n failed rfl
  | _ => exact carries_of_heads hc hop

end AutonomyProcess

namespace RunTrace

variable {t t' : RunTrace} {a : ProcessAction} {n calls : ℕ} {did : Option RunOutcome}
  {x y : Option (Option WorkerPc)} {e p : RunEnd}

/-! ## One run -/

/-- What has been done by the executor of a run whose thread stands there. -/
def Keeps (did : Option RunOutcome) (calls : ℕ) : Option (Option WorkerPc) → Prop
  | some none => calls = 0
  | some (some .entered) => calls = 0
  | some (some (.executing false)) => calls ≤ 1
  | some (some (.returned result)) => calls ≤ 1 ∧ did = some (.returned result)
  | some (some (.retrying result)) => calls ≤ 1 ∧ did = some (.returned result)
  | some (some (.finishing result)) => calls ≤ 2 ∧ did = some (.returned result)
  | _ => calls ≤ 2

/-- The thread is past the section that persists the result. -/
def Past : Option (Option WorkerPc) → Prop
  | none => True
  | some (some .raised) => True
  | some (some .leaving) => True
  | some (some .ended) => True
  | _ => False

theorem Keeps.le_two (h : Keeps did calls x) : calls ≤ 2 := by
  unfold Keeps at h
  split at h <;> omega

theorem Keeps.moves {s : AutonomyProcess} (h : Keeps did calls x)
    (hfresh : n = s.nextRun → calls = 0) (hm : s.Moves a n x y) :
    Keeps ((a.outcomeOf n).or did)
      (calls + if !inExecutor x && inExecutor y then 1 else 0) y := by
  cases hm with
  | same ha =>
    rw [ha, Option.none_or]
    simpa using h
  | gone ha => simpa [Keeps, inExecutor] using h.le_two
  | reserved ha hn => simpa [Keeps, inExecutor] using hfresh hn
  | launched ha => simpa [Keeps, inExecutor] using h
  | goes ha hgo =>
    subst ha
    have htwo := h.le_two
    cases hgo <;> simp [Keeps, inExecutor, ProcessAction.outcomeOf] at h ⊢ <;> grind
  | lands ha hpersists hpc =>
    rw [ha, Option.none_or]
    have htwo := h.le_two
    cases hpersists <;> rcases hpc with rfl | rfl <;> simp [Keeps, inExecutor] at h ⊢ <;> grind

theorem Past.moves {s : AutonomyProcess} (h : Past x) (hn : n ≠ s.nextRun)
    (hm : s.Moves a n x y) : Past y := by
  cases hm with
  | same ha => exact h
  | gone ha => trivial
  | reserved ha hnew => exact absurd hnew hn
  | launched ha => cases h
  | goes ha hgo => cases hgo <;> trivial
  | lands ha hpersists hpc =>
    cases hpersists with
    | failed => rcases hpc with rfl | rfl <;> trivial
    | _ => cases h

/-! ## Every step -/

/-- What every step keeps. -/
structure Tracked (t : RunTrace) : Prop where
  owned : t.process.Owned
  planned : t.process.Planned
  carried : t.process.Todo fun _ => AutonomyProcess.Carries
  keeps : ∀ n, Keeps (t.did n) (t.calls n) (t.process.thread n)
  fresh : ∀ n, t.process.nextRun ≤ n → t.calls n = 0
  past : ∀ ticket, ∀ e ∈ t.ends ticket,
    e.run < t.process.nextRun ∧ Past (t.process.thread e.run)

theorem tracked_initial (outDir : PyStr → PyStr) (agent : PyStr → Members) :
    Tracked (initial outDir agent) where
  owned := AutonomyProcess.owned_initial outDir agent
  planned _ _ h := by cases h
  carried _ _ _ h := by cases h
  keeps _ := Nat.zero_le 2
  fresh _ _ := rfl
  past _ _ h := by cases h

theorem endOf_eq_some {u : RunUpdate} {after : AfterUpdate} (h : t.endOf (u, after) = some e) :
    ∃ failed, after = .goto e.run .leaving failed ∧
      e = ⟨e.run, t.did e.run, failed matches .raised, u.next⟩ := by
  unfold endOf at h
  split at h
  · rename_i heq
    cases heq
    cases h
    exact ⟨_, rfl, rfl⟩
  · cases h

/-- The end of a run that a step persists. -/
theorem Tracked.end_cases (h : t.Tracked) {u : RunUpdate} {after : AfterUpdate}
    (hw : t.process.written a = some (u, after)) (he : t.endOf (u, after) = some e) :
    (e.byResult = true ∧ ¬Past (t.process.thread e.run) ∧ ∃ result now answer,
      e.outcome = some (.returned result) ∧
      e.record = Runtime.terminal u.read result now answer) ∨ e.byResult = false := by
  obtain ⟨failed, rfl, hend⟩ := endOf_eq_some he
  obtain ⟨i, env, rfl, hop, -⟩ := (AutonomyProcess.writes_iff).mpr hw
  obtain ⟨pc, -, hpc, hpersists⟩ := h.planned.persists hop
  have hkeeps := h.keeps e.run
  rw [hpc] at hkeeps
  rw [hpc, hend]
  cases hpersists with
  | terminal => exact Or.inl ⟨rfl, id, _, _, _, hkeeps.2, rfl⟩
  | failed => exact Or.inr rfl

theorem endsAfter_of_no_end
    (h : ∀ x, t.process.written a = some x → t.endOf x = none) : t.endsAfter a = t.ends := by
  unfold endsAfter
  cases hw : t.process.written a with
  | none => rfl
  | some x =>
    simp only
    rw [h x hw]

theorem endsAfter_of_end {x : RunUpdate × AfterUpdate} (hw : t.process.written a = some x)
    (he : t.endOf x = some e) : t.endsAfter a =
      Function.update t.ends x.1.ticket (e :: others e.run (t.ends x.1.ticket)) := by
  unfold endsAfter
  rw [hw]
  simp only
  rw [he]

theorem mem_endsAfter {ticket : PyStr} (h : e ∈ t.endsAfter a ticket) :
    e ∈ t.ends ticket ∨ ∃ u after, t.process.written a = some (u, after) ∧
      t.endOf (u, after) = some e := by
  by_cases hend : ∃ x d, t.process.written a = some x ∧ t.endOf x = some d
  · obtain ⟨x, d, hw, hd⟩ := hend
    rw [endsAfter_of_end hw hd, Function.update_apply] at h
    split_ifs at h with hticket
    · rcases List.mem_cons.mp h with rfl | h
      · exact Or.inr ⟨x.1, x.2, hw, hd⟩
      · subst hticket
        exact Or.inl ((List.dropWhile_suffix _).subset h)
    · exact Or.inl h
  · left
    rwa [endsAfter_of_no_end] at h
    intro x hw
    rw [Option.eq_none_iff_forall_not_mem]
    exact fun d hd => hend ⟨x, d, hw, hd⟩

theorem Tracked.step (h : t.Tracked) (ht : t.step a = some t') : t'.Tracked := by
  obtain ⟨s', hs, rfl⟩ := Option.map_eq_some_iff.mp ht
  have hmoves := AutonomyProcess.thread_step h.owned h.planned hs
  have hnext := AutonomyProcess.nextRun_step hs
  have howned := h.owned.step hs
  have hkeeps (n : ℕ) := (h.keeps n).moves (fun hn => h.fresh n hn.ge) (hmoves n)
  refine ⟨howned, h.planned.step h.owned hs, AutonomyProcess.carries_step h.carried hs, hkeeps,
    fun n hn => ?_, fun ticket e he => ?_⟩
  · have hnone : s'.thread n = none := by
      cases hr : s'.runs n with
      | none => rw [AutonomyProcess.thread, hr, Option.map_none]
      | some r =>
        have hlt := howned.fresh n r hr
        have hn : s'.nextRun ≤ n := hn
        omega
    change t.calls n + (if !inExecutor (t.process.thread n) && inExecutor (s'.thread n) then 1
      else 0) = 0
    rw [h.fresh n (hnext.trans hn), hnone]
    simp [inExecutor]
  · rcases mem_endsAfter he with he | ⟨u, after, hw, he⟩
    · obtain ⟨hlt, hpast⟩ := h.past ticket e he
      exact ⟨hlt.trans_le hnext, hpast.moves hlt.ne (hmoves e.run)⟩
    · obtain ⟨failed, rfl, -⟩ := endOf_eq_some he
      have hw := (AutonomyProcess.writes_iff).mpr hw
      obtain ⟨pc', hpc', hthread'⟩ := AutonomyProcess.thread_of_writes hw hs
      obtain ⟨i, env, rfl, hop, -⟩ := hw
      obtain ⟨pc, -, hpc, hpersists⟩ := h.planned.persists hop
      rw [hpc] at hthread'
      refine ⟨?_, ?_⟩
      · obtain ⟨r, hr, -⟩ := Option.map_eq_some_iff.mp hpc
        exact (h.owned.fresh e.run r hr).trans_le hnext
      · change Past (s'.thread e.run)
        rw [hthread']
        cases hpersists with
        | terminal => rcases hpc' with rfl | rfl <;> trivial
        | failed => rcases hpc' with rfl | rfl <;> trivial

/-- What every step keeps that meets the condition. -/
structure Sound (t : RunTrace) : Prop where
  tracked : t.Tracked
  last : ∀ ticket, ∀ e ∈ (t.ends ticket).head?, e.Failed → e.byResult = true →
    ∃ result, e.outcome = some (.returned result) ∧
      Runtime.lastFailure (t.process.runtime ticket) = some (Runtime.fingerprint result)
  stops : ∀ ticket, (t.ends ticket).IsChain fun e p => e.Repeats p → Runtime.Stops e.record

theorem sound_initial (outDir : PyStr → PyStr) (agent : PyStr → Members) :
    Sound (initial outDir agent) :=
  ⟨tracked_initial outDir agent, fun _ _ h => (by cases h), fun _ => .nil⟩

/-- Results that are alike are persisted with the same fingerprint. -/
theorem fingerprint_eq {a b : ExecutionResult}
    (halike : (RunOutcome.returned a).Alike (.returned b))
    (hsame : (RunOutcome.returned a).SameError (.returned b)) :
    Runtime.fingerprint a = Runtime.fingerprint b := by
  obtain ⟨hcode, hstep⟩ := halike
  have herror : Runtime.resultError a = Runtime.resultError b := by
    unfold Runtime.resultError
    rw [← hcode]
    cases herror : a.errorCode with
    | none => rw [hsame herror]
    | some code => rfl
  rw [Runtime.fingerprint, Runtime.fingerprint, herror, hstep]

/-- A result that is persisted as failed or blocked is not a success. -/
theorem not_succeeded_of_failed {rt : Members} {result : ExecutionResult} {now : PyStr}
    {answer : Option FailureDecision} (hrecord : e.record = Runtime.terminal rt result now answer)
    (hfailed : e.Failed) : result.state ≠ .succeeded := by
  intro hstate
  rw [RunEnd.Failed, hrecord, Runtime.stateIn] at hfailed
  simp only [Runtime.state_terminal, hstate] at hfailed
  revert hfailed
  decide

/-- The end of a run that repeats the failure of the run before it is persisted with the decision
to stop. -/
theorem Sound.stops_end (h : t.Sound) {u : RunUpdate} {after : AfterUpdate}
    (hw : t.process.written a = some (u, after)) (he : t.endOf (u, after) = some e)
    (hread : Runtime.lastFailure (t.process.runtime u.ticket) = Runtime.lastFailure u.read)
    (hp : p ∈ (others e.run (t.ends u.ticket)).head?) (hshows : e.Shows p) (hrep : e.Repeats p) :
    Runtime.Stops e.record := by
  obtain ⟨hfailed, hpfailed, o, ho, q, hq, halike⟩ := hrep
  obtain ⟨hby, hshown⟩ := hshows hpfailed o ho q hq halike
  rcases h.tracked.end_cases hw he with ⟨-, hpast, result, now, answer, hout, hrecord⟩ | hno
  · obtain rfl : RunOutcome.returned result = o := Option.some.inj (hout.symm.trans ho)
    have hstate := not_succeeded_of_failed hrecord hfailed
    obtain ⟨hpby, hsame⟩ := hshown hstate
    -- the run has not persisted an end before
    have hothers : others e.run (t.ends u.ticket) = t.ends u.ticket := by
      cases hends : t.ends u.ticket with
      | nil => rfl
      | cons d ds =>
        have hd := (h.tracked.past u.ticket d (hends ▸ List.mem_cons_self)).2
        have hne : (d.run == e.run) = false := by
          rw [beq_eq_false_iff_ne]
          intro heq
          exact hpast (heq ▸ hd)
        rw [others, List.dropWhile_cons, hne]
        rfl
    rw [hothers] at hp
    obtain ⟨result', hout', hlast⟩ := h.last u.ticket p hp hpfailed hpby
    obtain rfl : RunOutcome.returned result' = q := Option.some.inj (hout'.symm.trans hq)
    rw [hrecord]
    refine Runtime.stops_terminal (Runtime.resultError_isSome hstate) ?_ now answer
    rw [← hread, hlast, fingerprint_eq halike hsame]
  · rw [hno] at hby
    cases hby

theorem process_step (ht : t.step a = some t') :
    t.process.step a = some t'.process ∧ t'.ends = t.endsAfter a := by
  obtain ⟨s', hs, rfl⟩ := Option.map_eq_some_iff.mp ht
  exact ⟨hs, rfl⟩

/-- No run ends, and the last failures stay. -/
theorem Sound.keep (h : t.Sound) (htracked : t'.Tracked) (hends : t'.ends = t.ends)
    (hlast : ∀ ticket, Runtime.lastFailure (t'.process.runtime ticket) =
      Runtime.lastFailure (t.process.runtime ticket)) : t'.Sound := by
  refine ⟨htracked, fun ticket e he hfailed hby => ?_, fun ticket => ?_⟩
  · rw [hends] at he
    rw [hlast]
    exact h.last ticket e he hfailed hby
  · rw [hends]
    exact h.stops ticket

/-- A failure whose end has been persisted by its result is the last one of the record. -/
theorem Sound.last_end (h : t.Sound) {u : RunUpdate} {after : AfterUpdate}
    (hw : t.process.written a = some (u, after)) (he : t.endOf (u, after) = some e)
    (hfailed : e.Failed) (hby : e.byResult = true) :
    ∃ result, e.outcome = some (.returned result) ∧
      Runtime.lastFailure u.next = some (Runtime.fingerprint result) := by
  rcases h.tracked.end_cases hw he with ⟨-, -, result, now, answer, hout, hrecord⟩ | hno
  · refine ⟨result, hout, ?_⟩
    obtain ⟨failed, -, heq⟩ := endOf_eq_some he
    have hnext : e.record = u.next := congrArg RunEnd.record heq
    rw [← hnext, hrecord]
    exact Runtime.lastFailure_terminal _
      (Runtime.resultError_isSome (not_succeeded_of_failed hrecord hfailed)) _ _
  · rw [hno] at hby
    cases hby

/-- A step that meets the condition, if it does an update, keeps the invariant. -/
theorem Sound.step (h : t.Sound) (ha : t.Meets a) (ht : t.step a = some t') : t'.Sound := by
  have htracked := h.tracked.step ht
  obtain ⟨hs, hafter⟩ := process_step ht
  cases hw : t.process.written a with
  | none =>
    refine h.keep htracked (hafter.trans (endsAfter_of_no_end (by simp [hw]))) fun ticket => ?_
    rw [AutonomyProcess.runtime_of_written_eq_none hw hs]
  | some x =>
    obtain ⟨u, after⟩ := x
    obtain ⟨hread, hshows⟩ := ha (u, after) hw
    have hruntime := AutonomyProcess.runtime_of_written hw hs
    cases he : t.endOf (u, after) with
    | none =>
      refine h.keep htracked (hafter.trans (endsAfter_of_no_end (by simp [hw, he])))
        fun ticket => ?_
      have hnext := AutonomyProcess.lastFailure_of_written h.tracked.planned h.tracked.carried hw
        (by
          rintro n failed rfl
          cases he)
      rw [hruntime]
      split_ifs with hticket
      · rw [hnext, ← hread, hticket]
      · rfl
    | some e =>
      have hends := hafter.trans (endsAfter_of_end hw he)
      refine ⟨htracked, fun ticket d hd hfailed hby => ?_, fun ticket => ?_⟩
      · rw [hends] at hd
        rw [hruntime]
        by_cases hticket : ticket = u.ticket
        · subst hticket
          rw [Function.update_self] at hd
          obtain rfl := Option.some.inj hd
          rw [if_pos rfl]
          exact h.last_end hw he hfailed hby
        · rw [Function.update_of_ne hticket] at hd
          rw [if_neg hticket]
          exact h.last ticket d hd hfailed hby
      · rw [hends]
        by_cases hticket : ticket = u.ticket
        · subst hticket
          rw [Function.update_self]
          refine ((h.stops u.ticket).suffix (List.dropWhile_suffix _)).cons fun p hp hrep => ?_
          exact h.stops_end hw he hread hp (hshows e he p hp) hrep
        · rw [Function.update_of_ne hticket]
          exact h.stops ticket

theorem Sound.noProgressStops (h : t.Sound) : t.NoProgressStops := by
  refine ⟨fun ticket later e between p earlier hends hbetween hrep => ?_,
    fun n => (h.tracked.keeps n).le_two⟩
  have hchain := h.stops ticket
  rw [hends] at hchain
  have hhead := hchain.right_of_append.rel_head?
  cases between with
  | nil => exact hhead rfl hrep
  | cons b bs => exact hhead rfl (hbetween b List.mem_cons_self)

/-- In every run of a process with any number of managers, in which each update of a run's record
replaces a record with the last failure of the one that it was made from, and a run that has failed
like the run before shows it: both have persisted results, with the same state if they have no error
code. Then a failure that repeats the one before it, or an earlier one with only failures like it in
between, is persisted with the decision to stop, and no executor is called a third time. -/
theorem no_progress_stops (outDir : PyStr → PyStr) (agent : PyStr → Members)
    (acts : List ProcessAction) (h : Along step Meets (initial outDir agent) acts) :
    Always step NoProgressStops (initial outDir agent) acts :=
  always_of_along (fun _ h => h.noProgressStops) (fun _ _ _ h ha hs => h.step ha hs)
    (sound_initial outDir agent) h

/-! ## Two runs that fail alike -/

/-- The ticket is resumed, and the worker of the second run is in the executor. -/
def resumedRun : List ProcessAction :=
  .intent 0 "T" (Manager.request "resume" "b") ::
    List.replicate 7 (.advance 0 { AutonomyProcess.smooth with runId := "run-2" }) ++
    [.work 1 (.start true "t"), .advance 0 AutonomyProcess.smooth]

def failure : ExecutionResult :=
  ⟨.failed, some "build", some "chain_failed", by decide, by decide⟩

/-- The executor of run `n` returns the failure, which is persisted. -/
def returnsFailure (n : ℕ) : List ProcessAction :=
  [.work n (.executorReturned failure), .work n (.decideRetry true none),
    .work n (.finish true "t" none), .advance 0 AutonomyProcess.smooth, .work n .leave]

/-- Two runs of the ticket have ended, as `ok` says of the second and the first. -/
def endedTwice (t : RunTrace) (ok : RunEnd → RunEnd → Bool) : Bool :=
  match t.ends "T" with
  | [e, p] => ok e p
  | _ => false

theorem exists_of_endedTwice {ok : RunEnd → RunEnd → Bool} (h : t.endedTwice ok = true) :
    ∃ e p, t.ends "T" = [e, p] ∧ ok e p = true := by
  unfold endedTwice at h
  split at h
  · exact ⟨_, _, ‹_›, h⟩
  · cases h

def failedTwice : List ProcessAction :=
  AutonomyProcess.startedRun ++ returnsFailure 0 ++ resumedRun ++ returnsFailure 1

theorem no_progress_stops_failedTwice : ∃ t e p,
    run step (initial id Manager.autonomousTicket) failedTwice = some t ∧ t.ends "T" = [e, p] ∧
      e.Repeats p ∧ Runtime.Stops e.record := by
  have hmeets : Along step Meets (initial id Manager.autonomousTicket) failedTwice := by
    decide +kernel
  have hlast : ((run step (initial id Manager.autonomousTicket) failedTwice).any fun t =>
      t.endedTwice fun e p => decide (e.Repeats p)) = true := by
    decide +kernel
  obtain ⟨t, ht, hends⟩ := (Option.any_eq_true _ _).mp hlast
  obtain ⟨e, p, heq, hends⟩ := exists_of_endedTwice hends
  have hrep := of_decide_eq_true hends
  have hall := no_progress_stops id Manager.autonomousTicket failedTwice hmeets
  exact ⟨t, e, p, ht, heq, hrep, (hall.of_run ht).1 "T" [] e [] p [] heq (by simp) hrep⟩

/-- The executor of run `n` raises, which is persisted. -/
def raises (n : ℕ) : List ProcessAction :=
  [.work n .executorRaised, .work n (.recordFailure true "t"),
    .advance 0 AutonomyProcess.smooth, .work n .leave]

def raisedTwice : List ProcessAction :=
  AutonomyProcess.startedRun ++ raises 0 ++ resumedRun ++ raises 1

/-- The run repeats the one before it, and its record has no decision. -/
def repeatsUndecided (e p : RunEnd) : Bool :=
  decide (e.Repeats p) && (e.record.get "failure_decision" matches .null)

theorem repeatsUndecided_iff {e p : RunEnd} :
    repeatsUndecided e p = true ↔ e.Repeats p ∧ e.record.get "failure_decision" = .null := by
  rw [repeatsUndecided, Bool.and_eq_true, decide_eq_true_eq]
  refine and_congr_right fun _ => ⟨fun h => ?_, fun h => by rw [h]⟩
  split at h
  · assumption
  · cases h

/-- The record of the second run has no decision. -/
theorem raisedTwice_not_stopped : (∃ t e p,
      run step (initial id Manager.autonomousTicket) raisedTwice = some t ∧
        t.ends "T" = [e, p] ∧ e.Repeats p ∧ e.record.get "failure_decision" = .null) ∧
    ¬Always step NoProgressStops (initial id Manager.autonomousTicket) raisedTwice := by
  have hlast : ((run step (initial id Manager.autonomousTicket) raisedTwice).any fun t =>
      t.endedTwice repeatsUndecided) = true := by
    decide +kernel
  obtain ⟨t, ht, hends⟩ := (Option.any_eq_true _ _).mp hlast
  obtain ⟨e, p, heq, hends⟩ := exists_of_endedTwice hends
  obtain ⟨hrep, hnull⟩ := (repeatsUndecided_iff).mp hends
  refine ⟨⟨t, e, p, ht, heq, hrep, hnull⟩, fun hall => ?_⟩
  obtain ⟨decision, hdecision, -⟩ :=
    (hall.of_run ht).1 "T" [] e [] p [] heq (by simp) hrep
  rw [hnull] at hdecision
  cases hdecision

end RunTrace

end Icode
