import Icode.AutonomyProcess

/-!
# Recovery of stale runs

A manager that is built interrupts the runs that the metadata say are active. It reads the run,
looks whether a worker of this process is live for the ticket, and writes, in three accesses that no
lock joins. A worker that persists the end of its run and leaves between the read and the look is
not seen by either, and its record is replaced. Every update is a proper one exactly when each
replaces the record that it was made from, and recovery does not hold on to the record of a run that
was live when it read (`always_proper_iff`).
-/

namespace Icode

open Py Transition

namespace Runtime

/-- The states of a run that has ended. -/
def endedStates : List PyStr :=
  [lit "succeeded", lit "failed", lit "blocked", lit "cancelled", lit "paused", lit "interrupted"]

theorem not_ended_of_active {rt : Members} (h : stateIn rt activeStates = true) :
    stateIn rt endedStates = false := by
  simp only [stateIn, activeStates, List.any_cons, List.any_nil, Bool.or_false, Bool.or_eq_true,
    Json.pyEq_str] at h
  rcases h with h | h | h | h <;> simp only [stateIn, h] <;> decide

end Runtime

/-- The update is proper: its revision is greater than that of the record it replaces, and if it is
one of recovery, that record is neither the end of a run nor of a run that was live when recovery
read it. -/
def Replacement.Proper (r : Replacement) : Prop :=
  Runtime.revision r.old < Runtime.revision r.update.next ∧
  ∀ live, r.after = .recovered live →
    Runtime.stateIn r.old Runtime.endedStates = false ∧
    ∀ id, live = some id → Runtime.isRun r.old id = false

namespace AutonomyProcess

/-- Every update that has been done is proper. -/
def Proper (s : AutonomyProcess) : Prop :=
  ∀ r ∈ s.log, r.Proper

/-- An update replaces the record that it was made from, and for recovery that is not the record of
a run that was live when it was read. -/
def Current (s : AutonomyProcess) (a : ProcessAction) : Prop :=
  ∀ u after, s.Writes a u after → s.runtime u.ticket = u.read ∧
    ∀ id, after = .recovered (some id) → Runtime.isRun u.read id = false

/-! ## What has been read -/

/-- The record is the one that has been read, or one with a greater revision. -/
def Reads (runtime : PyStr → Members) (ticket : PyStr) (read : Members) : Prop :=
  runtime ticket = read ∨ Runtime.revision read < Runtime.revision (runtime ticket)

/-- What an access has read of a run has not been replaced by an older record, and what it is to
write has the next revision. -/
def Fits (runtime : PyStr → Members) : LockedOp → Prop
  | .reserve ticket _ _ read _ => Reads runtime ticket read
  | .openWorkspace _ _ _ u =>
    Reads runtime u.ticket u.read ∧ Runtime.revision u.next = Runtime.revision u.read + 1
  | .launch _ _ _ u => Reads runtime u.ticket u.next
  | .update u after =>
    (Reads runtime u.ticket u.read ∧ Runtime.revision u.next = Runtime.revision u.read + 1) ∧
      ∀ live, after = .recovered live → Runtime.stateIn u.read activeStates = true
  | .recoverCheck ticket read _ =>
    Reads runtime ticket read ∧ Runtime.stateIn read activeStates = true
  | _ => True

variable {s s' : AutonomyProcess} {a : ProcessAction} {i : ℕ} {op : LockedOp}

theorem fits_of_plain {runtime : PyStr → Members} (h : op.plain = true) : Fits runtime op := by
  cases op <;> simp_all [Fits, LockedOp.plain]

/-- When the records only change for ones with greater revisions, what has been read still fits. -/
theorem Reads.mono {runtime runtime' : PyStr → Members}
    (hmono : ∀ ticket, runtime' ticket = runtime ticket ∨
      Runtime.revision (runtime ticket) < Runtime.revision (runtime' ticket))
    {ticket : PyStr} {read : Members} (h : Reads runtime ticket read) :
    Reads runtime' ticket read := by
  unfold Reads at h ⊢
  rcases hmono ticket with heq | hlt
  · rwa [heq]
  · rcases h with rfl | h
    · exact Or.inr hlt
    · exact Or.inr (h.trans hlt)

theorem Fits.mono {runtime runtime' : PyStr → Members}
    (hmono : ∀ ticket, runtime' ticket = runtime ticket ∨
      Runtime.revision (runtime ticket) < Runtime.revision (runtime' ticket))
    (h : Fits runtime op) : Fits runtime' op := by
  cases op with
  | reserve ticket intent request read receipts => exact Reads.mono hmono h
  | openWorkspace n intent request u => exact ⟨h.1.mono hmono, h.2⟩
  | launch n intent request u => exact Reads.mono hmono h
  | update u after => exact ⟨⟨h.1.1.mono hmono, h.1.2⟩, h.2⟩
  | recoverCheck ticket read live => exact ⟨h.1.mono hmono, h.2⟩
  | _ => trivial

/-- While every update has been proper. -/
structure Fresh (s : AutonomyProcess) : Prop where
  proper : s.Proper
  fits : s.Todo fun _ op => Fits s.runtime op

theorem fresh_initial (outDir : PyStr → PyStr) (agent : PyStr → Members) :
    Fresh (initial outDir agent) :=
  ⟨fun _ h => (by cases h), fun _ _ _ h => (by cases h)⟩

theorem Fresh.fits_of_heads (h : s.Fresh) (hop : s.Heads i op) : Fits s.runtime op := by
  obtain ⟨m, rest, hm, htodo⟩ := hop
  exact h.fits i m op hm (htodo ▸ List.mem_cons_self)

/-- What a step plans fits the records that it has read. -/
theorem Fresh.fits_of_plans (h : s.Fresh) (hop : Plans s s' i op)
    (hmono : ∀ ticket, s'.runtime ticket = s.runtime ticket ∨
      Runtime.revision (s.runtime ticket) < Runtime.revision (s'.runtime ticket)) :
    Fits s'.runtime op := by
  cases hop with
  | plain hplain => exact fits_of_plain hplain
  | startOrResume => trivial
  | requestStop => trivial
  | reserve => exact Reads.mono hmono (Or.inl rfl)
  | openWorkspace hread =>
    exact ⟨Reads.mono hmono (h.fits_of_heads hread), Runtime.revision_starting ..⟩
  | starting hopen =>
    obtain ⟨hread, hnext⟩ := h.fits_of_heads hopen
    exact ⟨⟨hread.mono hmono, hnext⟩, fun _ hafter => (by cases hafter)⟩
  | launch hupdate hdone => exact Or.inl hdone
  | startFailed hlaunch =>
    exact ⟨⟨Reads.mono hmono (h.fits_of_heads hlaunch), (Runtime.succeeds_interrupted ..).revision⟩,
      fun _ hafter => (by cases hafter)⟩
  | stop =>
    exact ⟨⟨Reads.mono hmono (Or.inl rfl), Runtime.revision_requested ..⟩,
      fun _ hafter => (by cases hafter)⟩
  | interrupted =>
    exact ⟨⟨Reads.mono hmono (Or.inl rfl), (Runtime.succeeds_interrupted ..).revision⟩,
      fun _ hafter => (by cases hafter)⟩
  | recoverCheck hactive => exact ⟨Reads.mono hmono (Or.inl rfl), hactive⟩
  | recovered hcheck =>
    obtain ⟨hread, hactive⟩ := h.fits_of_heads hcheck
    exact ⟨⟨hread.mono hmono, (Runtime.succeeds_interrupted ..).revision⟩, fun _ _ => hactive⟩
  | worker hrun hi hnext =>
    exact ⟨⟨Reads.mono hmono (Or.inl rfl), hnext.revision⟩, fun _ hafter => (by cases hafter)⟩

/-- A step that replaces the record it was made from, if it does an update, is proper. -/
theorem Fresh.step (h : s.Fresh) (hc : s.Current a) (hs : s.step a = some s') : s'.Fresh := by
  have hmono : ∀ ticket, s'.runtime ticket = s.runtime ticket ∨
      Runtime.revision (s.runtime ticket) < Runtime.revision (s'.runtime ticket) := by
    intro ticket
    rcases writes_or_same hs with ⟨hagent, -⟩ | ⟨u, after, hw⟩
    · exact Or.inl (congrFun (runtime_of_agent hagent) ticket)
    · rw [runtime_of_agent (record_of_writes hw hs).1, runtime_record]
      split_ifs with ht
      · obtain ⟨_, _, -, hop, -⟩ := id hw
        obtain ⟨⟨-, hnext⟩, -⟩ := h.fits_of_heads hop
        rw [ht, (hc u after hw).1]
        omega
      · exact Or.inl rfl
  constructor
  · rcases writes_or_same hs with ⟨-, hlog⟩ | ⟨u, after, hw⟩
    · rw [Proper, hlog]
      exact h.proper
    · obtain ⟨_, _, -, hop, -⟩ := id hw
      obtain ⟨⟨-, hnext⟩, hactive⟩ := h.fits_of_heads hop
      obtain ⟨hread, hlive⟩ := hc u after hw
      rw [Proper, (record_of_writes hw hs).2, log_record]
      refine List.forall_mem_cons.mpr ⟨⟨?_, fun live hafter => ⟨?_, fun id hid => ?_⟩⟩, h.proper⟩
      · change Runtime.revision (s.runtime u.ticket) < Runtime.revision u.next
        rw [hread]
        omega
      · change Runtime.stateIn (s.runtime u.ticket) Runtime.endedStates = false
        rw [hread]
        exact Runtime.not_ended_of_active (hactive live hafter)
      · change Runtime.isRun (s.runtime u.ticket) id = false
        rw [hread]
        exact hlive id (hid ▸ hafter)
  · intro i m op hm hop
    rcases todo_step hs i m op hm hop with ⟨m₀, hm₀, hop₀⟩ | hplan
    · exact (h.fits i m₀ op hm₀ (mem_of_mem_left hop₀)).mono hmono
    · exact h.fits_of_plans hplan hmono

/-- An update that is proper has replaced the record it was made from. -/
theorem Fresh.current (h : s.Fresh) (hs : s.step a = some s') (hp : s'.Proper) : s.Current a := by
  intro u after hw
  obtain ⟨_, _, -, hop, -⟩ := id hw
  obtain ⟨⟨hread, hnext⟩, -⟩ := h.fits_of_heads hop
  rw [Proper, (record_of_writes hw hs).2, log_record] at hp
  obtain ⟨hrev, hrecovery⟩ := (List.forall_mem_cons.mp hp).1
  have hrev : Runtime.revision (s.runtime u.ticket) < Runtime.revision u.next := hrev
  have hread : s.runtime u.ticket = u.read := hread.resolve_right (by omega)
  refine ⟨hread, fun id hafter => ?_⟩
  rw [← hread]
  exact (hrecovery (some id) hafter).2 id rfl

/-- In every run of a process, with any number of managers: each update has a greater revision than
the record it replaces, and recovery replaces neither the end of a run nor the record of a run that
was live when it read, exactly when each update replaces the record that it was made from, and
recovery does so only for a run that was not live. -/
theorem always_proper_iff (outDir : PyStr → PyStr) (agent : PyStr → Members)
    (acts : List ProcessAction) :
    Always step Proper (initial outDir agent) acts ↔
      Along step Current (initial outDir agent) acts :=
  always_iff_along (fun _ h => h.proper) (fun _ _ _ h hc hs => h.step hc hs)
    (fun _ _ _ h hs hp => h.current hs hp) (fresh_initial outDir agent)

/-! ## A worker that leaves while a manager recovers -/

/-- A second manager reads the run; the worker persists its success and leaves; the second manager
sees no worker, and writes. -/
def staleRecovery : List ProcessAction :=
  startedRun ++ [.build true ["T"], .advance 1 smooth, .work 0 (.executorReturned success),
    .work 0 (.decideRetry true none), .work 0 (.finish true "t" none), .advance 0 smooth,
    .work 0 .leave, .advance 1 smooth, .advance 1 smooth]

/-- The success of the run is replaced by an interruption with the same revision. -/
theorem staleRecovery_not_proper : (∃ s r, run step (initial id Manager.autonomousTicket)
      staleRecovery = some s ∧ s.log.head? = some r ∧ r.old.get "state" = .str "succeeded" ∧
      r.update.next.get "state" = .str "interrupted" ∧
      Runtime.revision r.update.next = Runtime.revision r.old) ∧
    ¬Always step Proper (initial id Manager.autonomousTicket) staleRecovery := by
  have hlast : ((run step (initial id Manager.autonomousTicket) staleRecovery).any fun s =>
      s.log.head?.any fun r => (r.old.get "state").isText "succeeded" &&
        (r.update.next.get "state").isText "interrupted" &&
        Runtime.revision r.update.next == Runtime.revision r.old) = true := by
    decide +kernel
  obtain ⟨s, hs, hr⟩ := (Option.any_eq_true _ _).mp hlast
  obtain ⟨r, hr, hstates⟩ := (Option.any_eq_true _ _).mp hr
  simp only [Bool.and_eq_true, Json.isText_iff, beq_iff_eq] at hstates
  obtain ⟨⟨hold, hnext⟩, hrev⟩ := hstates
  refine ⟨⟨s, r, hs, hr, hold, hnext, hrev⟩, fun hall => ?_⟩
  have hp := (hall.of_run hs r (List.mem_of_mem_head? hr)).1
  omega

end AutonomyProcess

end Icode
