import Icode.History
import Icode.NetworkAuthority

/-!
# The callbacks of a connection

The authority runs the close and release callbacks of a connection outside its lock. `observe`
says which callbacks an action registers, invokes or sees return, so that a run has a log of them.
`Move` says once what an action can do to the entries : nothing, or one entry is registered,
promoted, claimed, invoked, or done with. From it, `callbacks_exclusive` : an entry is closed or
released by one call at a time, not again after a callback has returned `True`, and by the callback
that was registered or promoted last.
-/

namespace Icode

open Py SandboxPolicy History

/-! ## The log -/

/-- What happens to the callbacks of an entry. -/
inductive CallbackEvent (κ : Type*) where
  | registered (entry : ℕ) (close : κ)
  | promoted (entry : ℕ) (close : κ)
  /-- The close callback is invoked. -/
  | closing (entry : ℕ) (callback : κ)
  /-- The release callback is invoked. -/
  | releasing (entry : ℕ) (callback : κ)
  /-- A callback returns `True`, or anything else, or raises. -/
  | returned (entry : ℕ) (confirmed : Bool)

namespace CallbackEvent

variable {κ : Type*}

/-- The entry whose callback is invoked. -/
def invoked : CallbackEvent κ → Option ℕ
  | .closing entry _ => some entry
  | .releasing entry _ => some entry
  | _ => none

/-- The close callback that the entry has from now on. -/
def callbackOf (entry : ℕ) : CallbackEvent κ → Option κ
  | .registered e close => if e = entry then some close else none
  | .promoted e close => if e = entry then some close else none
  | _ => none

end CallbackEvent

/-- The close callback that was registered or promoted last. -/
def lastCallback {κ : Type*} (entry : ℕ) (log : List (CallbackEvent κ)) : Option κ :=
  (log.filterMap (CallbackEvent.callbackOf entry)).getLast?

/-- A callback of the entry has been invoked, and has not returned. -/
def InFlight {κ : Type*} (entry : ℕ) (log : List (CallbackEvent κ)) : Prop :=
  Since (fun e => e.invoked = some entry) (fun e => ∀ confirmed, e ≠ .returned entry confirmed) log

/-- What holds of an event, after the events before it. -/
structure Exclusive {κ : Type*} (before : List (CallbackEvent κ)) (e : CallbackEvent κ) : Prop where
  single : ∀ entry, e.invoked = some entry → ¬InFlight entry before
  notDone : ∀ entry, e.invoked = some entry → .returned entry true ∉ before
  latest : ∀ entry close, e = .closing entry close → lastCallback entry before = some close

variable {κ : Type*}

/-- The entry the loop has claimed, and whether its close callback runs. -/
def CloseLoop.holds (loop : CloseLoop κ) : Option (ℕ × Bool) :=
  match loop.current with
  | some (entry, .claimed) => some (entry, false)
  | some (entry, .calling _) => some (entry, true)
  | _ => none

/-- The entry the call closes or releases, and whether its callback runs. -/
def Call.holds : Call κ → Option (ℕ × Bool)
  | .releasing entry _ => some (entry, true)
  | frame => frame.closeLoop.bind CloseLoop.holds

namespace Authority

/-- What a call holds. -/
def holder (s : Authority κ) (c : ℕ) : Option (ℕ × Bool) :=
  (s.calls c).bind Call.holds

/-- The callbacks that an action registers, invokes or sees return. -/
def observe (s : Authority κ) : AuthorityAction κ → List (CallbackEvent κ)
  | .registerConnection call clock _ =>
    match s.calls call with
    | some (.registering r) =>
      match s.registerCheck r clock with
      | .ok _ => [.registered s.next r.close]
      | .error _ => []
    | _ => []
  | .promote handle now close =>
    match s.lookup handle with
    | some (entry, conn) =>
      if 0 ≤ now ∧ s.mayPromote now conn then [.promoted entry close] else []
    | none => []
  | .release handle =>
    match s.lookup handle with
    | some (entry, conn) =>
      if conn.closing then [] else conn.releaseCallback.toList.map (.releasing entry)
    | none => []
  | .releaseReturned call released =>
    match s.calls call with
    | some (.releasing entry _) => [.returned entry released]
    | _ => []
  | .loop call .invoke =>
    match s.holder call with
    | some (entry, false) =>
      (s.connections entry).toList.map fun conn => .closing entry conn.closeCallback
    | _ => []
  | .loop call (.returned confirmed) =>
    match s.holder call with
    | some (entry, true) => [.returned entry confirmed]
    | _ => []
  | _ => []

/-- One action, with the log. -/
def loggedStep (s : Authority κ × List (CallbackEvent κ)) (a : AuthorityAction κ) :
    Option (Authority κ × List (CallbackEvent κ)) :=
  (s.1.step a).map fun s' => (s', s.2 ++ s.1.observe a)

/-! ## What an action does to the entries -/

/-- Whether an entry is being closed, and its close callback. -/
def view (s : Authority κ) (entry : ℕ) : Option (Bool × κ) :=
  (s.connections entry).map fun conn => (conn.closing, conn.closeCallback)

/-- The policy of an entry. -/
def scope (s : Authority κ) (entry : ℕ) : Option PolicyKey :=
  (s.connections entry).map fun conn => conn.policyKey

/-- The entry is in the table. -/
def Registered (s : Authority κ) (entry : ℕ) : Prop :=
  ∃ id, (id, entry) ∈ s.activeConnections

/-- Numbers are given out in order, no call has one that is not given out, and an entry stays one
of its policy. -/
structure Grows (s s' : Authority κ) : Prop where
  next : s.next ≤ s'.next
  calls : ∀ c, s'.next ≤ c → s.calls c = none → s'.calls c = none
  scope : ∀ e, e < s.next → s'.scope e = s.scope e

/-- Every action is one of these moves. -/
inductive Move (s s' : Authority κ) : List (CallbackEvent κ) → Prop
  | quiet (hview : s'.view = s.view) (hholder : s'.holder = s.holder)
      (hactive : ∀ e, s'.Registered e → s.Registered e) (hgrows : Grows s s') : Move s s' []
  | registered (close : κ) (hview : s'.view = Function.update s.view s.next (some (false, close)))
      (hholder : s'.holder = s.holder)
      (hactive : ∀ e, s'.Registered e → e = s.next ∨ s.Registered e) (hgrows : Grows s s')
      (hnext : s.next < s'.next) : Move s s' [.registered s.next close]
  | promoted (entry : ℕ) (old close : κ) (hentry : s.view entry = some (false, old))
      (hview : s'.view = Function.update s.view entry (some (false, close)))
      (hholder : s'.holder = s.holder) (hactive : ∀ e, s'.Registered e → s.Registered e)
      (hgrows : Grows s s') : Move s s' [.promoted entry close]
  /-- A call claims an entry, and perhaps invokes its release callback. -/
  | claimed (c entry : ℕ) (close : κ) (release : Option κ) (hc : s.holder c = none)
      (hentry : s.view entry = some (false, close)) (hin : s.Registered entry)
      (hview : s'.view = Function.update s.view entry (some (true, close)))
      (hholder : s'.holder = Function.update s.holder c (some (entry, release.isSome)))
      (hactive : ∀ e, s'.Registered e → s.Registered e) (hgrows : Grows s s') :
      Move s s' (release.toList.map (.releasing entry))
  | invoked (c entry : ℕ) (closing : Bool) (close : κ) (hc : s.holder c = some (entry, false))
      (hentry : s.view entry = some (closing, close)) (hview : s'.view = s.view)
      (hholder : s'.holder = Function.update s.holder c (some (entry, true)))
      (hactive : ∀ e, s'.Registered e → s.Registered e) (hgrows : Grows s s') :
      Move s s' [.closing entry close]
  | returned (c entry : ℕ) (confirmed closing closing' : Bool) (close : κ)
      (hc : s.holder c = some (entry, true)) (hentry : s.view entry = some (closing, close))
      (hview : s'.view = Function.update s.view entry (some (closing', close)))
      (hholder : s'.holder = Function.update s.holder c none)
      (hactive : ∀ e, s'.Registered e → s.Registered e) (hgrows : Grows s s')
      (hout : confirmed = true → ¬s'.Registered entry) : Move s s' [.returned entry confirmed]

/-! ## The parts of an action -/

variable {s s' : Authority κ} {entry c : ℕ} {conn : Connection κ} {frame : Call κ}

@[simp] theorem view_setConnection : (s.setConnection entry conn).view =
    Function.update s.view entry (some (conn.closing, conn.closeCallback)) := by
  funext e
  by_cases he : e = entry
  · subst he
    simp [view, setConnection]
  · simp [view, setConnection, he]

/-- An entry that is set keeps its policy. -/
theorem scope_eq_of_update {conn' : Connection κ}
    (hconnections : s'.connections = Function.update s.connections entry (some conn'))
    (hc : s.connections entry = some conn) (hkey : conn'.policyKey = conn.policyKey) (e : ℕ) :
    s'.scope e = s.scope e := by
  by_cases he : e = entry
  · subst he
    simp [scope, hconnections, hc, hkey]
  · simp [scope, hconnections, he]

@[simp] theorem holder_setCall :
    (s.setCall c frame).holder = Function.update s.holder c frame.holds := by
  funext c'
  by_cases hc : c' = c
  · subst hc
    simp [holder, setCall]
  · simp [holder, setCall, hc]

@[simp] theorem holder_endCall : (s.endCall c).holder = Function.update s.holder c none := by
  funext c'
  by_cases hc : c' = c
  · subst hc
    simp [holder, endCall]
  · simp [holder, endCall, hc]

theorem holder_beginCall :
    (s.beginCall frame).holder = Function.update s.holder s.next frame.holds :=
  holder_setCall (s := s)

@[simp] theorem view_discard : (s.discard entry conn).view = s.view := by
  funext e
  simp [view]

@[simp] theorem holder_discard : (s.discard entry conn).holder = s.holder := by
  unfold discard
  split_ifs <;> rfl

theorem registered_discard {e : ℕ} (h : (s.discard entry conn).Registered e) : s.Registered e := by
  obtain ⟨id, hm⟩ := h
  unfold discard at hm
  split_ifs at hm
  · exact ⟨id, mem_of_mem_forget hm⟩
  · exact ⟨id, hm⟩

theorem holds_eq {loop : CloseLoop κ} (h : frame.closeLoop = some loop) :
    frame.holds = loop.holds := by
  cases frame <;> simp_all [Call.closeLoop, Call.holds]

theorem holds_setLoop {loop loop' : CloseLoop κ} (h : frame.closeLoop = some loop) :
    (frame.setLoop loop').holds = loop'.holds := by
  cases frame <;> simp_all [Call.closeLoop, Call.setLoop, Call.holds]

/-- The calls are the same but for one that is under way. -/
theorem Grows.of_update {x : Option (Call κ)} (hnext : s.next ≤ s'.next)
    (hscope : ∀ e, e < s.next → s'.scope e = s.scope e)
    (hcalls : s'.calls = Function.update s.calls c x) (hc : s.calls c = some frame) :
    Grows s s' := by
  refine ⟨hnext, fun c' _ hc' => ?_, hscope⟩
  have hne : c' ≠ c := by
    rintro rfl
    rw [hc] at hc'
    cases hc'
  rw [hcalls, Function.update_of_ne hne, hc']

/-- The calls are the same but for a new one. -/
theorem Grows.of_begin {x : Option (Call κ)} (hnext : s'.next = s.next + 1)
    (hscope : ∀ e, e < s.next → s'.scope e = s.scope e)
    (hcalls : s'.calls = Function.update s.calls s.next x) : Grows s s' := by
  refine ⟨by omega, fun c' hle hc' => ?_, hscope⟩
  rw [hcalls, Function.update_of_ne (by omega), hc']

theorem Grows.of_eq (hnext : s.next ≤ s'.next)
    (hscope : ∀ e, e < s.next → s'.scope e = s.scope e) (hcalls : s'.calls = s.calls) :
    Grows s s' :=
  ⟨hnext, fun c _ hc => by rw [hcalls, hc], hscope⟩

/-- Only marks, generations, the history, or calls that hold nothing have changed. -/
theorem Move.of_eq (hconnections : s'.connections = s.connections)
    (hactive : s'.activeConnections = s.activeConnections) (hgrows : Grows s s')
    (hholder : s'.holder = s.holder) : Move s s' [] := by
  refine .quiet ?_ hholder (fun e he => ?_) hgrows
  · funext e
    simp [view, hconnections]
  · unfold Registered at he ⊢
    rwa [hactive] at he

theorem Move.refl (s : Authority κ) : Move s s [] :=
  .of_eq rfl rfl (.of_eq le_rfl (fun _ _ => rfl) rfl) rfl

theorem scope_eq_of_connections (h : s'.connections = s.connections) (e : ℕ) :
    s'.scope e = s.scope e := by
  rw [scope, scope, h]

theorem holder_eq_of_calls (hc : s.calls c = some frame) : s.holder c = frame.holds := by
  rw [holder, hc, Option.bind_some]

/-- A call that holds nothing goes on, holding nothing, or ends. -/
theorem Move.call {x : Option (Call κ)} (hc : s.calls c = some frame) (hframe : frame.holds = none)
    (hx : x.bind Call.holds = none) (hconnections : s'.connections = s.connections)
    (hactive : s'.activeConnections = s.activeConnections) (hnext : s'.next = s.next)
    (hcalls : s'.calls = Function.update s.calls c x) : Move s s' [] := by
  refine .of_eq hconnections hactive
    (.of_update hnext.ge (fun e _ => scope_eq_of_connections hconnections e) hcalls hc) ?_
  funext c'
  by_cases hc' : c' = c
  · subst hc'
    rw [holder, hcalls, Function.update_self, hx, holder_eq_of_calls hc, hframe]
  · simp [holder, hcalls, hc']

/-- A new call that holds nothing. -/
theorem Move.begin (hfresh : s.calls s.next = none) {x : Option (Call κ)}
    (hx : x.bind Call.holds = none) (hconnections : s'.connections = s.connections)
    (hactive : s'.activeConnections = s.activeConnections) (hnext : s'.next = s.next + 1)
    (hcalls : s'.calls = Function.update s.calls s.next x) : Move s s' [] := by
  refine .of_eq hconnections hactive
    (.of_begin hnext (fun e _ => scope_eq_of_connections hconnections e) hcalls) ?_
  funext c
  by_cases hc : c = s.next
  · subst hc
    rw [holder, hcalls, Function.update_self, hx, holder, hfresh]
    rfl
  · simp [holder, hcalls, hc]

/-- The loop of a call goes on, holding nothing. -/
theorem Move.loop {loop loop' : CloseLoop κ} (hc : s.calls c = some frame)
    (hloop : frame.closeLoop = some loop) (hnone : loop.holds = none) (hnone' : loop'.holds = none) :
    Move s (s.setCall c (frame.setLoop loop')) [] := by
  refine Move.call (x := some (frame.setLoop loop')) hc ?_ ?_ rfl rfl rfl rfl
  · rw [holds_eq hloop, hnone]
  · rw [Option.bind_some, holds_setLoop hloop, hnone']

/-! ## Every action is a move -/

/-- One part of the loop of a call. -/
theorem move_of_loopStep (h : s.Inv) {call : ℕ} {loop loop' : CloseLoop κ} {a : LoopAction}
    {t : Authority κ} (hframe : s.calls call = some frame) (hloop : frame.closeLoop = some loop)
    (hs : s.loopStep loop a = some (t, loop')) :
    Move s (t.setCall call (frame.setLoop loop')) (s.observe (.loop call a)) := by
  have hholder : s.holder call = loop.holds := by
    rw [holder_eq_of_calls hframe, holds_eq hloop]
  have hset : (frame.setLoop loop').holds = loop'.holds := holds_setLoop hloop
  cases a with
  | next =>
    simp only [loopStep] at hs
    split at hs
    case h_2 => cases hs
    case h_1 e es hcur hrem =>
      have hnone : loop.holds = none := by
        rw [CloseLoop.holds, hcur]
      cases hc : s.connections e with
      | none => simp [hc] at hs
      | some conn =>
        simp only [hc] at hs
        split_ifs at hs with ha hcl
        · obtain ⟨rfl, rfl⟩ := Prod.mk.inj (Option.some.inj hs)
          refine Move.loop hframe hloop hnone ?_
          rw [CloseLoop.holds, hcur]
        · obtain ⟨rfl, rfl⟩ := Prod.mk.inj (Option.some.inj hs)
          exact Move.loop hframe hloop hnone rfl
        · obtain ⟨rfl, rfl⟩ := Prod.mk.inj (Option.some.inj hs)
          simp only [Bool.not_eq_true, Bool.not_eq_true'] at ha hcl
          refine .claimed call e conn.closeCallback none ?_ ?_ ?_ ?_ ?_ (fun _ hr => hr)
            (.of_update le_rfl (fun e' _ => scope_eq_of_update rfl hc (by rfl) e') rfl hframe)
          · rw [hholder, hnone]
          · simp [view, hc, hcl]
          · exact (h.table.isActive_iff hc).mp (by simpa using ha)
          · exact view_setConnection
          · rw [holder_setCall, hset]
            rfl
  | invoke =>
    simp only [loopStep] at hs
    split at hs
    case h_2 => cases hs
    case h_1 e hcur =>
      obtain ⟨conn, hc, hs⟩ := Option.map_eq_some_iff.mp hs
      obtain ⟨rfl, rfl⟩ := Prod.mk.inj hs
      have hheld : s.holder call = some (e, false) := by
        rw [hholder, CloseLoop.holds, hcur]
      have hobserve : s.observe (.loop call .invoke) = [.closing e conn.closeCallback] := by
        simp [observe, hheld, hc]
      rw [hobserve]
      refine .invoked call e conn.closing conn.closeCallback hheld ?_ rfl ?_ (fun _ hr => hr)
        (.of_update le_rfl (fun _ _ => rfl) rfl hframe)
      · simp [view, hc]
      · rw [holder_setCall, hset]
        rfl
  | returned confirmed =>
    simp only [loopStep] at hs
    split at hs
    case h_2 => cases hs
    case h_1 e cb hcur =>
      cases hc : s.connections e with
      | none => simp [hc] at hs
      | some conn =>
        have hheld : s.holder call = some (e, true) := by
          rw [hholder, CloseLoop.holds, hcur]
        have hentry : s.view e = some (conn.closing, conn.closeCallback) := by
          simp [view, hc]
        have hobserve : s.observe (.loop call (.returned confirmed)) = [.returned e confirmed] := by
          simp [observe, hheld]
        rw [hobserve]
        simp only [hc] at hs
        cases confirmed with
        | true =>
          obtain ⟨rfl, rfl⟩ := Prod.mk.inj (Option.some.inj hs)
          have hcalls : (s.discard e conn).calls = s.calls ∧
              (s.discard e conn).next = s.next := by
            unfold discard
            split_ifs <;> exact ⟨rfl, rfl⟩
          have hscope : ((s.discard e conn).setConnection e { conn with
              closing := false, closeComplete := true }).connections =
              Function.update s.connections e _ :=
            congrArg (Function.update · e _) connections_discard
          refine .returned call e true conn.closing false conn.closeCallback hheld hentry ?_ ?_
            (fun _ hr => registered_discard hr)
            (.of_update (x := some (frame.setLoop { loop with
              current := none, closedCount := loop.closedCount + 1 })) hcalls.2.ge
              (fun e' _ => scope_eq_of_update hscope hc (by rfl) e') ?_ hframe)
            fun _ hr => ?_
          · exact view_setConnection.trans (by rw [view_discard])
          · rw [holder_setCall, hset]
            exact congrArg (Function.update · call none) holder_discard
          · exact congrArg (Function.update · call _) hcalls.1
          · obtain ⟨id, hm⟩ := hr
            exact h.table.not_mem_discard hc id hm
        | false =>
          obtain ⟨rfl, rfl⟩ := Prod.mk.inj (Option.some.inj hs)
          refine .returned call e false conn.closing _ conn.closeCallback hheld hentry
            view_setConnection ?_ (fun _ hr => hr)
            (.of_update le_rfl (fun e' _ => scope_eq_of_update rfl hc (by rfl) e') rfl hframe)
            (by simp)
          rw [holder_setCall, hset]
          rfl
  | wake =>
    simp only [loopStep] at hs
    split at hs
    case h_2 => cases hs
    case h_1 e hcur =>
      split_ifs at hs
      obtain ⟨rfl, rfl⟩ := Prod.mk.inj (Option.some.inj hs)
      refine Move.loop hframe hloop ?_ rfl
      rw [CloseLoop.holds, hcur]
  | timeout =>
    simp only [loopStep] at hs
    split at hs
    case h_2 => cases hs
    case h_1 e hcur =>
      obtain ⟨rfl, rfl⟩ := Prod.mk.inj (Option.some.inj hs)
      refine Move.loop hframe hloop ?_ rfl
      rw [CloseLoop.holds, hcur]
  | check =>
    simp only [loopStep] at hs
    split at hs
    case h_2 => cases hs
    case h_1 e hcur =>
      obtain ⟨rfl, rfl⟩ := Prod.mk.inj (Option.some.inj hs)
      refine Move.loop hframe hloop ?_ rfl
      rw [CloseLoop.holds, hcur]

theorem move_of_finish {call : ℕ} (hf : s.calls call = some frame)
    (hs : s.finish call frame = some s') : Move s s' [] := by
  unfold finish at hs
  split at hs
  · split_ifs at hs
    · obtain rfl := Option.some.inj hs
      exact Move.call hf rfl rfl rfl rfl rfl rfl
    · split at hs
      · obtain rfl := Option.some.inj hs
        exact Move.call hf rfl rfl rfl rfl rfl rfl
      · obtain rfl := Option.some.inj hs
        exact Move.call hf rfl rfl rfl rfl rfl rfl
  · split_ifs at hs
    · obtain rfl := Option.some.inj hs
      exact Move.call hf rfl rfl rfl rfl rfl rfl
    · obtain rfl := Option.some.inj hs
      unfold unmarkRevoked
      split_ifs
      · exact Move.call hf rfl rfl rfl rfl rfl rfl
      · exact Move.call hf rfl rfl rfl rfl rfl rfl
  · cases hs

theorem registered_of_lookup {handle : Handle} (h : s.lookup handle = some (entry, conn)) :
    s.Registered entry := by
  unfold lookup at h
  split at h
  · cases h
  · rename_i e hget
    split at h
    · cases h
    · split_ifs at h
      cases h
      exact ⟨_, Dict.mem_of_get? hget⟩

/-- Every action is a move. -/
theorem move_of_step (h : s.Inv) (hfresh : s.calls s.next = none) {a : AuthorityAction κ}
    (hs : s.step a = some s') : Move s s' (s.observe a) := by
  cases a with
  | requestLease r approvalId =>
    simp only [step] at hs
    split at hs
    · obtain rfl := Option.some.inj hs
      exact .refl s
    · split_ifs at hs
      · obtain rfl := Option.some.inj hs
        exact .refl s
      · obtain rfl := Option.some.inj hs
        exact Move.begin hfresh rfl rfl rfl rfl rfl
  | answer call approved monotonicNs leaseId =>
    simp only [step] at hs
    split at hs
    · rename_i hcall
      split_ifs at hs
      · split at hs
        · obtain rfl := Option.some.inj hs
          exact Move.call hcall rfl rfl rfl rfl rfl rfl
        · obtain rfl := Option.some.inj hs
          exact Move.call hcall rfl rfl rfl rfl rfl rfl
      · obtain rfl := Option.some.inj hs
        exact Move.call hcall rfl rfl rfl rfl rfl rfl
    · cases hs
  | verifyScope issued policy purpose now =>
    simp only [step] at hs
    split at hs
    · obtain rfl := Option.some.inj hs
      exact .refl s
    · obtain rfl := Option.some.inj hs
      exact .of_eq rfl rfl (.of_eq le_rfl (fun _ _ => rfl) rfl) rfl
  | verifyRequest issued policy purpose hostname port now =>
    simp only [step] at hs
    split at hs
    · obtain rfl := Option.some.inj hs
      exact .refl s
    · obtain rfl := Option.some.inj hs
      exact .of_eq rfl rfl (.of_eq le_rfl (fun _ _ => rfl) rfl) rfl
  | register r =>
    simp only [step] at hs
    split_ifs at hs
    · obtain rfl := Option.some.inj hs
      exact .refl s
    · obtain rfl := Option.some.inj hs
      exact Move.begin hfresh rfl rfl rfl rfl rfl
  | registerConnection call clock connectionId =>
    simp only [step] at hs
    split at hs
    · rename_i r hr
      split at hs
      · rename_i hv
        obtain rfl := Option.some.inj hs
        rw [show s.observe (.registerConnection call clock connectionId) = [] by
          simp [observe, hr, hv]]
        exact Move.call hr rfl rfl rfl rfl rfl rfl
      · rename_i key hv
        obtain rfl := Option.some.inj hs
        rw [show s.observe (.registerConnection call clock connectionId) =
          [.registered s.next r.close] by simp [observe, hr, hv]]
        refine .registered r.close ?_ ?_ (fun e he => ?_)
          (.of_update (Nat.le_succ _) (fun e he => ?_) rfl hr) (Nat.lt_succ_self _)
        · funext e
          by_cases he : e = s.next
          · subst he
            simp [view, emit]
          · simp [view, emit, endCall, he]
        · change (s.endCall call).holder = s.holder
          rw [holder_endCall, Function.update_eq_self_iff, holder_eq_of_calls hr]
          rfl
        · obtain ⟨id, hm⟩ := he
          rcases Dict.mem_of_mem_set hm with heq | hm
          · exact Or.inl (Prod.mk.inj heq).2
          · exact Or.inr ⟨id, hm⟩
        · simp [scope, emit, endCall, he.ne]
    · cases hs
  | promote handle now close =>
    simp only [step] at hs
    split_ifs at hs with hnow
    · obtain rfl := Option.some.inj hs
      have hnot : ¬0 ≤ now := by omega
      have hobserve : s.observe (.promote handle now close) = [] := by
        cases hl : s.lookup handle <;> simp [observe, hl, hnot]
      rw [hobserve]
      exact .refl s
    · split at hs
      · rename_i hl
        obtain rfl := Option.some.inj hs
        rw [show s.observe (.promote handle now close) = [] by simp [observe, hl]]
        exact .refl s
      · rename_i entry conn hl
        have hc := connections_of_lookup hl
        split_ifs at hs with hp
        · obtain rfl := Option.some.inj hs
          rw [show s.observe (.promote handle now close) = [.promoted entry close] by
            simp only [observe, hl]
            rw [if_pos ⟨by omega, hp⟩]]
          have hcl : conn.closing = false := by
            simp only [mayPromote, Bool.not_eq_true', Bool.or_eq_false_iff] at hp
            exact hp.1.1.1.1.1
          refine .promoted entry conn.closeCallback close ?_ ?_ rfl (fun _ he => he)
            (.of_eq le_rfl (fun e _ => scope_eq_of_update rfl hc (by rfl) e) rfl)
          · simp [view, hc, hcl]
          · rw [← hcl]
            exact view_setConnection
        · obtain rfl := Option.some.inj hs
          rw [show s.observe (.promote handle now close) = [] by simp [observe, hl, hp]]
          exact .refl s
  | release handle =>
    simp only [step] at hs
    split at hs
    · rename_i hl
      obtain rfl := Option.some.inj hs
      rw [show s.observe (.release handle) = [] by simp [observe, hl]]
      exact .refl s
    · rename_i entry conn hl
      have hc := connections_of_lookup hl
      split_ifs at hs with hcl
      · obtain rfl := Option.some.inj hs
        rw [show s.observe (.release handle) = [] by simp [observe, hl, hcl]]
        exact .refl s
      · split at hs
        · rename_i hnone
          obtain rfl := Option.some.inj hs
          rw [show s.observe (.release handle) = [] by simp [observe, hl, hcl, hnone]]
          refine .quiet ?_ rfl (fun e he => ?_)
            (.of_eq le_rfl (fun e _ => scope_eq_of_update rfl hc (by rfl) e) rfl)
          · refine (view_setConnection (s := s.forget conn)).trans ?_
            change Function.update s.view entry _ = s.view
            rw [Function.update_eq_self_iff]
            simp [view, hc]
          · obtain ⟨id, hm⟩ := he
            exact ⟨id, mem_of_mem_forget hm⟩
        · rename_i callback hsome
          obtain rfl := Option.some.inj hs
          rw [show s.observe (.release handle) =
            (some callback).toList.map (.releasing entry) by simp [observe, hl, hcl, hsome]]
          refine .claimed s.next entry conn.closeCallback (some callback) ?_ ?_
            (registered_of_lookup hl) view_setConnection ?_ (fun _ he => he)
            (.of_begin rfl (fun e _ => scope_eq_of_update rfl hc (by rfl) e) rfl)
          · rw [holder, hfresh]
            rfl
          · simp [view, hc, hcl]
          · rw [holder_beginCall]
            rfl
  | releaseReturned call released =>
    simp only [step] at hs
    split at hs
    · rename_i entry callback hcall
      split at hs
      · cases hs
      · rename_i conn hc
        rw [show s.observe (.releaseReturned call released) = [.returned entry released] by
          simp [observe, hcall]]
        have hheld : s.holder call = some (entry, true) := holder_eq_of_calls hcall
        have hentry : s.view entry = some (conn.closing, conn.closeCallback) := by
          simp [view, hc]
        have hactive := h.table.isActive_iff hc
        split_ifs at hs with hin hrel
        all_goals obtain rfl := Option.some.inj hs
        · refine .returned call entry released conn.closing conn.closing conn.closeCallback hheld
            hentry view_setConnection holder_endCall (fun _ he => he)
            (.of_update le_rfl (fun e _ => scope_eq_of_update rfl hc (by rfl) e) rfl hcall) fun _ he => ?_
          have : s.isActive entry conn = true := hactive.mpr he
          have hin : (!s.isActive entry conn) = true := hin
          simp [this] at hin
        · refine .returned call entry released conn.closing false conn.closeCallback hheld
            hentry view_setConnection holder_endCall (fun e he => ?_)
            (.of_update le_rfl (fun e _ => scope_eq_of_update rfl hc (by rfl) e) rfl hcall) fun _ he => ?_
          · obtain ⟨id, hm⟩ := he
            exact ⟨id, (Dict.mem_erase.mp hm).1⟩
          · obtain ⟨id, hm⟩ := he
            exact h.table.not_mem_forget hc id hm
        · exact .returned call entry released conn.closing false conn.closeCallback hheld
            hentry view_setConnection holder_endCall (fun _ he => he)
            (.of_update le_rfl (fun e _ => scope_eq_of_update rfl hc (by rfl) e) rfl hcall) fun hr => absurd hr hrel
    · cases hs
  | closeExpired now =>
    simp only [step] at hs
    split_ifs at hs
    · obtain rfl := Option.some.inj hs
      exact .refl s
    · obtain rfl := Option.some.inj hs
      exact Move.begin hfresh rfl rfl rfl rfl rfl
  | revoke policy =>
    simp only [step] at hs
    split at hs
    · obtain rfl := Option.some.inj hs
      exact .refl s
    · rename_i key _
      obtain rfl := Option.some.inj hs
      exact Move.begin hfresh rfl rfl rfl rfl rfl
  | loop call a =>
    simp only [step] at hs
    split at hs
    · cases hs
    · rename_i frame hf
      split at hs
      · cases hs
      · rename_i loop hl
        obtain ⟨⟨t, loop'⟩, hstep, rfl⟩ := Option.map_eq_some_iff.mp hs
        exact move_of_loopStep h hf hl hstep
  | finish call =>
    simp only [step] at hs
    split at hs
    · cases hs
    · rename_i frame hf
      exact move_of_finish hf hs

/-! ## What every action keeps -/

/-- The calls and the log agree on the callbacks. -/
structure CallbackInv (s : Authority κ) (log : List (CallbackEvent κ)) : Prop where
  calls : ∀ c, s.next ≤ c → s.calls c = none
  /-- An entry that a call holds is marked as closing. -/
  closing : ∀ c entry b, s.holder c = some (entry, b) → ∃ close, s.view entry = some (true, close)
  single : ∀ c c' entry b b', s.holder c = some (entry, b) → s.holder c' = some (entry, b') → c = c'
  flying : ∀ entry, InFlight entry log → ∃ c, s.holder c = some (entry, true)
  done : ∀ entry, .returned entry true ∈ log →
    entry < s.next ∧ ¬s.Registered entry ∧ ∀ c b, s.holder c ≠ some (entry, b)
  latest : ∀ entry closing close, s.view entry = some (closing, close) →
    lastCallback entry log = some close
  exclusive : Every Exclusive log

variable {log : List (CallbackEvent κ)} {events : List (CallbackEvent κ)} {e : CallbackEvent κ}

theorem lastCallback_concat : lastCallback entry (log ++ [e]) =
    (e.callbackOf entry).or (lastCallback entry log) := by
  unfold lastCallback
  rw [List.filterMap_append, List.filterMap_cons, List.filterMap_nil]
  cases e.callbackOf entry with
  | none => simp
  | some close => simp

theorem inFlight_concat : InFlight entry (log ++ [e]) ↔
    e.invoked = some entry ∨ InFlight entry log ∧ ∀ confirmed, e ≠ .returned entry confirmed :=
  since_concat

/-- A call holds an entry by itself, and the callback of an entry that is invoked is not the second
one in flight. -/
theorem CallbackInv.exclusive_concat (h : CallbackInv s log) {e : CallbackEvent κ}
    (hinvoked : ∀ entry, e.invoked = some entry →
      (∀ c, s.holder c ≠ some (entry, true)) ∧ .returned entry true ∉ log)
    (hlatest : ∀ entry close, e = .closing entry close → lastCallback entry log = some close) :
    Every Exclusive (log ++ [e]) := by
  refine every_concat.mpr ⟨h.exclusive, fun entry he hflying => ?_, fun entry he => ?_, hlatest⟩
  · obtain ⟨c, hc⟩ := h.flying entry hflying
    exact (hinvoked entry he).1 c hc
  · exact (hinvoked entry he).2

theorem CallbackInv.quiet (h : CallbackInv s log) (hview : s'.view = s.view)
    (hholder : s'.holder = s.holder) (hactive : ∀ e, s'.Registered e → s.Registered e)
    (hgrows : Grows s s') : CallbackInv s' log where
  calls c hc := hgrows.calls c hc (h.calls c (hgrows.next.trans hc))
  closing := by rw [hholder, hview]; exact h.closing
  single := by rw [hholder]; exact h.single
  flying := by rw [hholder]; exact h.flying
  done entry hm := by
    obtain ⟨hlt, hout, hfree⟩ := h.done entry hm
    rw [hholder]
    exact ⟨hlt.trans_le hgrows.next, fun hr => hout (hactive entry hr), hfree⟩
  latest := by rw [hview]; exact h.latest
  exclusive := h.exclusive

/-- The close callback of an entry is set : it is registered or promoted. -/
theorem CallbackInv.set (h : CallbackInv s log) {close : κ} (he : e.invoked = none)
    (hreturned : ∀ entry b, e ≠ .returned entry b)
    (hcallback : ∀ entry', e.callbackOf entry' = if entry' = entry then some close else none)
    (hfree : ∀ c b, s.holder c ≠ some (entry, b))
    (hout : .returned entry true ∈ log → ¬s'.Registered entry)
    (hview : s'.view = Function.update s.view entry (some (false, close)))
    (hholder : s'.holder = s.holder)
    (hactive : ∀ e, s'.Registered e → e = entry ∨ s.Registered e) (hgrows : Grows s s') :
    CallbackInv s' (log ++ [e]) where
  calls c hc := hgrows.calls c hc (h.calls c (hgrows.next.trans hc))
  closing c entry' b hc := by
    rw [hholder] at hc
    have hne : entry' ≠ entry := by
      rintro rfl
      exact hfree c b hc
    rw [hview, Function.update_of_ne hne]
    exact h.closing c entry' b hc
  single := by rw [hholder]; exact h.single
  flying entry' hflying := by
    rw [inFlight_concat, he] at hflying
    rw [hholder]
    exact h.flying entry' (hflying.resolve_left (by simp)).1
  done entry' hm := by
    rcases List.mem_append.mp hm with hm | hm
    · obtain ⟨hlt, hnot, hfree'⟩ := h.done entry' hm
      rw [hholder]
      refine ⟨hlt.trans_le hgrows.next, fun hr => ?_, hfree'⟩
      rcases hactive entry' hr with rfl | hr'
      · exact hout hm hr
      · exact hnot hr'
    · exact absurd (List.mem_singleton.mp hm).symm (hreturned entry' true)
  latest entry' closing close' hentry := by
    rw [lastCallback_concat, hcallback]
    rw [hview] at hentry
    by_cases hne : entry' = entry
    · rw [hne, Function.update_self] at hentry
      obtain ⟨-, rfl⟩ := Prod.mk.inj (Option.some.inj hentry)
      rw [if_pos hne, Option.some_or]
    · rw [Function.update_of_ne hne] at hentry
      rw [if_neg hne, Option.none_or]
      exact h.latest entry' closing close' hentry
  exclusive := by
    refine h.exclusive_concat (fun entry' he' => ?_) fun entry' close' he' => ?_
    · rw [he] at he'
      cases he'
    · rw [he'] at he
      cases he

/-- A call claims a free entry, and perhaps invokes its release callback. -/
theorem CallbackInv.claimed (h : CallbackInv s log) {close : κ} (release : Option κ)
    (hc : s.holder c = none) (hentry : s.view entry = some (false, close))
    (hin : s.Registered entry)
    (hview : s'.view = Function.update s.view entry (some (true, close)))
    (hholder : s'.holder = Function.update s.holder c (some (entry, release.isSome)))
    (hactive : ∀ e, s'.Registered e → s.Registered e) (hgrows : Grows s s') :
    CallbackInv s' (log ++ release.toList.map (.releasing entry)) := by
  have hfree : ∀ c b, s.holder c ≠ some (entry, b) := by
    intro c b hb
    obtain ⟨_, htrue⟩ := h.closing c entry b hb
    rw [hentry] at htrue
    cases htrue
  have hdone : .returned entry true ∉ log := fun hm => (h.done entry hm).2.1 hin
  have hheld : ∀ {c' entry' b}, s'.holder c' = some (entry', b) →
      c' = c ∧ entry' = entry ∨ c' ≠ c ∧ entry' ≠ entry ∧ s.holder c' = some (entry', b) := by
    intro c' entry' b hb
    rw [hholder] at hb
    by_cases hcc : c' = c
    · rw [hcc, Function.update_self] at hb
      exact Or.inl ⟨hcc, (Prod.mk.inj (Option.some.inj hb)).1.symm⟩
    · rw [Function.update_of_ne hcc] at hb
      refine Or.inr ⟨hcc, ?_, hb⟩
      rintro rfl
      exact hfree c' b hb
  have hother : ∀ {c' x}, s.holder c' = some x → s'.holder c' = some x := by
    intro c' x hx
    have hne : c' ≠ c := by
      rintro rfl
      rw [hc] at hx
      cases hx
    rw [hholder, Function.update_of_ne hne, hx]
  refine ⟨fun c hle => hgrows.calls c hle (h.calls c (hgrows.next.trans hle)), ?_, ?_, ?_, ?_, ?_, ?_⟩
  · intro c' entry' b hb
    rcases hheld hb with ⟨-, rfl⟩ | ⟨-, hne, hb⟩
    · exact ⟨close, by rw [hview, Function.update_self]⟩
    · rw [hview, Function.update_of_ne hne]
      exact h.closing c' entry' b hb
  · intro c₁ c₂ entry' b₁ b₂ h₁ h₂
    rcases hheld h₁ with ⟨rfl, rfl⟩ | ⟨-, hne, h₁⟩
    · rcases hheld h₂ with ⟨rfl, -⟩ | ⟨-, hne, -⟩
      · rfl
      · exact absurd rfl hne
    · rcases hheld h₂ with ⟨-, rfl⟩ | ⟨-, -, h₂⟩
      · exact absurd rfl hne
      · exact h.single c₁ c₂ entry' b₁ b₂ h₁ h₂
  · intro entry' hflying
    cases release with
    | none =>
      rw [Option.toList_none, List.map_nil, List.append_nil] at hflying
      obtain ⟨c', hc'⟩ := h.flying entry' hflying
      exact ⟨c', hother hc'⟩
    | some callback =>
      rcases inFlight_concat.mp hflying with he | ⟨hflying, -⟩
      · obtain rfl := Option.some.inj he
        exact ⟨c, by rw [hholder, Function.update_self]; rfl⟩
      · obtain ⟨c', hc'⟩ := h.flying entry' hflying
        exact ⟨c', hother hc'⟩
  · intro entry' hm
    have hmem : .returned entry' true ∈ log := by
      rcases List.mem_append.mp hm with hm | hm
      · exact hm
      · simp at hm
    obtain ⟨hlt, hout, hnone⟩ := h.done entry' hmem
    refine ⟨hlt.trans_le hgrows.next, fun hr => hout (hactive entry' hr), fun c' b hb => ?_⟩
    rcases hheld hb with ⟨-, rfl⟩ | ⟨-, -, hb⟩
    · exact hdone hmem
    · exact hnone c' b hb
  · intro entry' closing close' hentry'
    have hlast : lastCallback entry' (log ++ release.toList.map (.releasing entry)) =
        lastCallback entry' log := by
      cases release with
      | none => simp
      | some callback =>
        exact lastCallback_concat
    rw [hlast]
    rw [hview] at hentry'
    by_cases hne : entry' = entry
    · rw [hne, Function.update_self] at hentry'
      obtain ⟨-, rfl⟩ := Prod.mk.inj (Option.some.inj hentry')
      exact h.latest entry' false close (hne ▸ hentry)
    · rw [Function.update_of_ne hne] at hentry'
      exact h.latest entry' closing close' hentry'
  · cases release with
    | none => simpa using h.exclusive
    | some callback =>
      refine h.exclusive_concat (fun entry' he => ?_) fun _ _ he => by cases he
      obtain rfl := Option.some.inj he
      exact ⟨fun c => hfree c true, hdone⟩

/-- The close callback of a claimed entry is invoked. -/
theorem CallbackInv.invoked (h : CallbackInv s log) {closing : Bool} {close : κ}
    (hc : s.holder c = some (entry, false)) (hentry : s.view entry = some (closing, close))
    (hview : s'.view = s.view)
    (hholder : s'.holder = Function.update s.holder c (some (entry, true)))
    (hactive : ∀ e, s'.Registered e → s.Registered e) (hgrows : Grows s s') :
    CallbackInv s' (log ++ [.closing entry close]) := by
  have hheld : ∀ {c' entry' b}, s'.holder c' = some (entry', b) →
      ∃ b', s.holder c' = some (entry', b') := by
    intro c' entry' b hb
    rw [hholder] at hb
    by_cases hcc : c' = c
    · rw [hcc, Function.update_self] at hb
      obtain ⟨rfl, -⟩ := Prod.mk.inj (Option.some.inj hb)
      exact ⟨false, hcc ▸ hc⟩
    · rw [Function.update_of_ne hcc] at hb
      exact ⟨b, hb⟩
  have hrunning : ∀ c', s.holder c' ≠ some (entry, true) := by
    intro c' hb
    obtain rfl := h.single c' c entry true false hb hc
    rw [hc] at hb
    cases hb
  refine ⟨fun c hle => hgrows.calls c hle (h.calls c (hgrows.next.trans hle)), ?_, ?_, ?_, ?_, ?_, ?_⟩
  · intro c' entry' b hb
    obtain ⟨b', hb'⟩ := hheld hb
    rw [hview]
    exact h.closing c' entry' b' hb'
  · intro c₁ c₂ entry' b₁ b₂ h₁ h₂
    obtain ⟨b₁', h₁'⟩ := hheld h₁
    obtain ⟨b₂', h₂'⟩ := hheld h₂
    exact h.single c₁ c₂ entry' b₁' b₂' h₁' h₂'
  · intro entry' hflying
    rcases inFlight_concat.mp hflying with he | ⟨hflying, -⟩
    · obtain rfl := Option.some.inj he
      exact ⟨c, by rw [hholder, Function.update_self]⟩
    · obtain ⟨c', hc'⟩ := h.flying entry' hflying
      have hne : c' ≠ c := by
        rintro rfl
        rw [hc] at hc'
        cases hc'
      exact ⟨c', by rw [hholder, Function.update_of_ne hne, hc']⟩
  · intro entry' hm
    have hm : .returned entry' true ∈ log := by
      rcases List.mem_append.mp hm with hm | hm
      · exact hm
      · simp at hm
    obtain ⟨hlt, hout, hnone⟩ := h.done entry' hm
    refine ⟨hlt.trans_le hgrows.next, fun hr => hout (hactive entry' hr), fun c' b hb => ?_⟩
    obtain ⟨b', hb'⟩ := hheld hb
    exact hnone c' b' hb'
  · intro entry' closing' close' hentry'
    rw [lastCallback_concat]
    exact h.latest entry' closing' close' (hview ▸ hentry')
  · refine h.exclusive_concat (fun entry' he => ?_) fun entry' close' he => ?_
    · obtain rfl := Option.some.inj he
      exact ⟨hrunning, fun hm => (h.done entry hm).2.2 c false hc⟩
    · obtain ⟨rfl, rfl⟩ := CallbackEvent.closing.inj he
      exact h.latest entry closing close hentry

/-- The callback of an entry returns, and its call lets go of the entry. -/
theorem CallbackInv.returned (h : CallbackInv s log) (hknown : entry < s.next)
    {confirmed closing closing' : Bool} {close : κ}
    (hc : s.holder c = some (entry, true)) (hentry : s.view entry = some (closing, close))
    (hview : s'.view = Function.update s.view entry (some (closing', close)))
    (hholder : s'.holder = Function.update s.holder c none)
    (hactive : ∀ e, s'.Registered e → s.Registered e) (hgrows : Grows s s')
    (hout : confirmed = true → ¬s'.Registered entry) :
    CallbackInv s' (log ++ [.returned entry confirmed]) := by
  have hheld : ∀ {c' entry' b}, s'.holder c' = some (entry', b) →
      entry' ≠ entry ∧ s.holder c' = some (entry', b) := by
    intro c' entry' b hb
    rw [hholder] at hb
    by_cases hcc : c' = c
    · rw [hcc, Function.update_self] at hb
      cases hb
    · rw [Function.update_of_ne hcc] at hb
      refine ⟨?_, hb⟩
      rintro rfl
      exact hcc (h.single c' c entry' b true hb hc)
  refine ⟨fun c hle => hgrows.calls c hle (h.calls c (hgrows.next.trans hle)), ?_, ?_, ?_, ?_, ?_, ?_⟩
  · intro c' entry' b hb
    obtain ⟨hne, hb⟩ := hheld hb
    rw [hview, Function.update_of_ne hne]
    exact h.closing c' entry' b hb
  · intro c₁ c₂ entry' b₁ b₂ h₁ h₂
    exact h.single c₁ c₂ entry' b₁ b₂ (hheld h₁).2 (hheld h₂).2
  · intro entry' hflying
    obtain ⟨hflying, hother⟩ := (inFlight_concat.mp hflying).resolve_left nofun
    obtain ⟨c', hc'⟩ := h.flying entry' hflying
    have hne : c' ≠ c := by
      rintro rfl
      rw [hc] at hc'
      obtain ⟨rfl, -⟩ := Prod.mk.inj (Option.some.inj hc')
      exact hother confirmed rfl
    exact ⟨c', by rw [hholder, Function.update_of_ne hne, hc']⟩
  · intro entry' hm
    rcases List.mem_append.mp hm with hm | hm
    · obtain ⟨hlt, hnot, hnone⟩ := h.done entry' hm
      exact ⟨hlt.trans_le hgrows.next, fun hr => hnot (hactive entry' hr),
        fun c' b hb => hnone c' b (hheld hb).2⟩
    · obtain ⟨rfl, rfl⟩ := CallbackEvent.returned.inj (List.mem_singleton.mp hm)
      exact ⟨hknown.trans_le hgrows.next, hout rfl, fun c' b hb => (hheld hb).1 rfl⟩
  · intro entry' closing'' close' hentry'
    rw [lastCallback_concat]
    rw [hview] at hentry'
    by_cases hne : entry' = entry
    · rw [hne, Function.update_self] at hentry'
      obtain ⟨-, rfl⟩ := Prod.mk.inj (Option.some.inj hentry')
      exact h.latest entry' closing close (hne ▸ hentry)
    · rw [Function.update_of_ne hne] at hentry'
      exact h.latest entry' closing'' close' hentry'
  · exact h.exclusive_concat nofun nofun

theorem CallbackInv.move (h : CallbackInv s log) (hknown : ∀ e, s.view e ≠ none → e < s.next)
    (hm : Move s s' events) : CallbackInv s' (log ++ events) := by
  have hfree : ∀ {entry close}, s.view entry = some (false, close) →
      ∀ c b, s.holder c ≠ some (entry, b) := by
    intro entry close hentry c b hb
    obtain ⟨_, htrue⟩ := h.closing c entry b hb
    rw [hentry] at htrue
    cases htrue
  cases hm with
  | quiet hview hholder hactive hgrows =>
    rw [List.append_nil]
    exact h.quiet hview hholder hactive hgrows
  | registered close hview hholder hactive hgrows hnext =>
    refine h.set rfl nofun (fun entry' => ?_) (fun c b hb => ?_) (fun hm => ?_) hview hholder hactive
      hgrows
    · simp only [CallbackEvent.callbackOf, eq_comm]
    · obtain ⟨close', hentry⟩ := h.closing c _ b hb
      exact absurd (hknown s.next (by rw [hentry]; nofun)) (lt_irrefl _)
    · exact absurd (h.done _ hm).1 (lt_irrefl _)
  | promoted entry old close hentry hview hholder hactive hgrows =>
    refine h.set rfl nofun (fun entry' => ?_) (hfree hentry) (fun hm hr => ?_) hview hholder
      (fun e he => Or.inr (hactive e he)) hgrows
    · simp only [CallbackEvent.callbackOf, eq_comm]
    · exact (h.done entry hm).2.1 (hactive entry hr)
  | claimed c entry close release hc hentry hin hview hholder hactive hgrows =>
    exact h.claimed release hc hentry hin hview hholder hactive hgrows
  | invoked c entry closing close hc hentry hview hholder hactive hgrows =>
    exact h.invoked hc hentry hview hholder hactive hgrows
  | returned c entry confirmed closing closing' close hc hentry hview hholder hactive hgrows hout =>
    exact h.returned (hknown entry (by rw [hentry]; nofun)) hc hentry hview hholder hactive hgrows hout

theorem Inv.lt_of_view (h : s.Inv) {e : ℕ} (he : s.view e ≠ none) : e < s.next := by
  by_contra hle
  refine he ?_
  rw [view, h.table.fresh e (by omega)]
  rfl

theorem callbackInv_initial (secret : Bytes) : CallbackInv (initial secret : Authority κ) [] where
  calls _ _ := rfl
  closing _ _ _ h := by cases h
  single _ _ _ _ _ h := by cases h
  flying _ h := absurd h not_since_nil
  done _ h := by cases h
  latest _ _ _ h := by cases h
  exclusive := every_nil

/-! ## Every run -/

theorem loggedStep_eq_some {a : AuthorityAction κ} (h : loggedStep (s, log) a = some (s', events)) :
    s.step a = some s' ∧ events = log ++ s.observe a := by
  obtain ⟨t, ht, heq⟩ := Option.map_eq_some_iff.mp h
  obtain ⟨rfl, rfl⟩ := Prod.mk.inj heq
  exact ⟨ht, rfl⟩

theorem callbackInv_of_run {secret : Bytes} {acts : List (AuthorityAction κ)}
    (hrun : Transition.run loggedStep (initial secret, []) acts = some (s, log)) :
    s.Inv ∧ CallbackInv s log := by
  refine Transition.run_invariant (I := fun p => p.1.Inv ∧ CallbackInv p.1 p.2) ?_
    (s := (initial secret, [])) ⟨inv_initial secret, callbackInv_initial secret⟩ hrun
  rintro ⟨s, log⟩ a ⟨s', log'⟩ ⟨hinv, h⟩ hs
  obtain ⟨hstep, rfl⟩ := loggedStep_eq_some hs
  exact ⟨hinv.step hstep, h.move (fun e he => hinv.lt_of_view he)
    (move_of_step hinv (h.calls _ le_rfl) hstep)⟩

/-- Whenever a callback of a connection is invoked, none is in flight and none has returned `True`,
and a close invokes the callback that was registered or promoted last. A connection that is being
closed or released, or is gone, is not promoted. -/
theorem callbacks_exclusive (secret : Bytes) (acts : List (AuthorityAction κ)) (s : Authority κ)
    (log : List (CallbackEvent κ))
    (hrun : Transition.run loggedStep (initial secret, []) acts = some (s, log)) :
    Every Exclusive log ∧
      (∀ c c' entry b b', s.holder c = some (entry, b) → s.holder c' = some (entry, b') → c = c') ∧
      ∀ handle now close, (∀ entry conn, s.lookup handle = some (entry, conn) →
          ∃ c b, s.holder c = some (entry, b)) →
        s.step (.promote handle now close) = some s ∧ s.observe (.promote handle now close) = [] := by
  obtain ⟨hinv, h⟩ := callbackInv_of_run hrun
  refine ⟨h.exclusive, h.single, fun handle now close hheld => ?_⟩
  cases hl : s.lookup handle with
  | none => simp [step, observe, hl]
  | some p =>
    obtain ⟨entry, conn⟩ := p
    obtain ⟨c, b, hc⟩ := hheld entry conn hl
    obtain ⟨callback, hview⟩ := h.closing c entry b hc
    have hclosing : conn.closing = true := by
      rw [view, connections_of_lookup hl] at hview
      exact (Prod.mk.inj (Option.some.inj hview)).1
    have hnot : s.mayPromote now conn = false := by simp [mayPromote, hclosing]
    simp [step, observe, hl, hnot]

/-- A pending connection is registered, promoted with another callback, and closed by a
revocation. -/
theorem log_of_promotion {r : Registration κ} {policy : SandboxPolicy} {key : PolicyKey}
    (close : κ) (hkey : NetworkLease.keyOfPolicy policy = .ok key) (hnow : 0 ≤ r.now)
    (hpending : r.pending = true ∧ r.clock = true)
    (hlease : r.issued.lease.generation = 1 ∧ r.issued.lease.issuedAtMonotonicNs ≤ 6 ∧
      6 < r.issued.lease.expiresAtMonotonicNs)
    (hregister : ∀ s : Authority κ, s.key = [] → key ∉ s.revokingPolicyKeys →
      s.generation key = 1 → s.registerCheck r (some 5) = .ok key) :
    ∃ s : Authority κ, Transition.run loggedStep (initial [], [])
      [.register r, .finish 0, .registerConnection 0 (some 5) "c", .promote ⟨"c", 1⟩ 6 close,
        .revoke policy, .loop 2 .next, .loop 2 .invoke, .loop 2 (.returned true), .finish 2] =
      some (s, [.registered 1 r.close, .promoted 1 close, .closing 1 close, .returned 1 true]) := by
  simp only [Transition.run, loggedStep, step, hkey]
  simp [hpending, hnow.not_gt, initial, entries, beginSweep, beginCall, finish, unmarkSwept,
    setCall, emit, endCall, observe]
  rw [hregister _ rfl (by simp) rfl]
  simp [beginRevoke, beginCall, generation, entries, Dict.set, Dict.get?, Call.closeLoop, loopStep,
    setConnection, isActive, Call.setLoop, discard, forget, unmarkRevoked, Dict.erase, lookup,
    mayPromote, isExpired, isStale, holder, Call.holds, CloseLoop.holds, hlease.1,
    hlease.2.1.not_gt, hlease.2.2.not_ge]

/-- A pending connection is registered with callback 1, promoted with callback 2, and closed by a
revocation. -/
def promotionRun : List (AuthorityAction ℕ) :=
  [.register ⟨offlineLease false, offlinePolicy, .webRead, "pypi.org", 443, 5, 1, true, true, none⟩,
    .finish 0, .registerConnection 0 (some 5) "c", .promote ⟨"c", 1⟩ 6 2, .revoke offlinePolicy,
    .loop 2 .next, .loop 2 .invoke, .loop 2 (.returned true), .finish 2]

/-- The callback that is invoked last but one. -/
def invokedCallback : List (CallbackEvent ℕ) → Option ℕ
  | [_, _, .closing _ callback, _] => some callback
  | _ => none

theorem callbacks_exclusive_run : ∃ (s : Authority ℕ) (log : List (CallbackEvent ℕ)),
    Transition.run loggedStep (initial [], []) promotionRun = some (s, log) ∧
      invokedCallback log = some 2 ∧ Every Exclusive log := by
  have hregister : ∀ s : Authority ℕ, s.key = [] → offlineKey ∉ s.revokingPolicyKeys →
      s.generation offlineKey = 1 → s.registerCheck ⟨offlineLease false, offlinePolicy, .webRead,
        "pypi.org", 443, 5, 1, true, true, none⟩ (some 5) = .ok offlineKey := by
    intro s hkey hmark hgeneration
    simp only [registerCheck, keyOfPolicy_offlinePolicy, registrationTime, bind, Except.bind]
    exact verifyRequest_offlineLease hkey hmark hgeneration (by decide)
  have hnow : (0 : ℤ) ≤ 5 := by decide
  obtain ⟨s, hs⟩ := log_of_promotion 2 keyOfPolicy_offlinePolicy hnow ⟨rfl, rfl⟩
    ⟨rfl, by decide, by decide⟩ hregister
  exact ⟨s, _, hs, rfl, (callbacks_exclusive [] _ s _ hs).1⟩

end Authority

end Icode
