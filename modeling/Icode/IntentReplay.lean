import Icode.WorkerReservation

/-!
# Requests that are sent again

A record of a run holds the receipts of the last accepted intents, and `handle_intent` looks there
before it does anything. Each record that is written is made from a copy that has been read before:
a new run and a stop add their receipt to those they have read, and a worker, a recovery or a
shutdown keep them. Managers follow one another: a manager serves intents until the next one is
built (`Successive`). So the receipts of a ticket always end with those of the last accepted intents
(`Carried`), and a request that is among them does nothing (`replay_silent`).
-/

namespace Icode

open Py Transition

/-! ## The last items of a list -/

section LastItems

variable {α β : Type*} {n : ℕ} {x : α} {xs ys : List α}

theorem length_lastItems_le : (lastItems n xs).length ≤ n := by
  rw [lastItems, List.length_drop]
  omega

theorem lastItems_of_length_le (h : xs.length ≤ n) : lastItems n xs = xs := by
  rw [lastItems, Nat.sub_eq_zero_of_le h, List.drop_zero]

theorem mem_of_mem_lastItems (h : x ∈ lastItems n xs) : x ∈ xs :=
  List.mem_of_mem_drop h

theorem lastItems_map (f : α → β) : lastItems n (xs.map f) = (lastItems n xs).map f := by
  rw [lastItems, lastItems, List.length_map, List.map_drop]

/-- Items are only lost at the front. -/
theorem lastItems_lastItems_append :
    lastItems n (lastItems n xs ++ ys) = lastItems n (xs ++ ys) := by
  unfold lastItems
  rw [← List.drop_append_of_le_length (Nat.sub_le ..), List.drop_drop]
  congr 1
  simp only [List.length_drop, List.length_append]
  omega

theorem mem_lastItems_append (h : x ∈ lastItems n ys) : x ∈ lastItems n (xs ++ ys) := by
  have hskip : (xs ++ ys).length - n - xs.length = ys.length - n := by
    rw [List.length_append]
    omega
  rw [lastItems, List.drop_append, hskip]
  exact List.mem_append_right _ h

end LastItems

/-! ## The receipts of a record -/

namespace Runtime

/-- The records have taken the same intents. -/
def SameIntents (rt next : Members) : Prop :=
  ∀ key ∈ intentKeys, next.get key = rt.get key

theorem SameIntents.rfl {rt : Members} : SameIntents rt rt :=
  fun _ _ => Eq.refl _

theorem SameIntents.trans {rt mid next : Members} (h : SameIntents rt mid)
    (h' : SameIntents mid next) : SameIntents rt next :=
  fun key hkey => (h' key hkey).trans (h key hkey)

theorem SameIntents.symm {rt next : Members} (h : SameIntents rt next) : SameIntents next rt :=
  fun key hkey => (h key hkey).symm

variable {rt next : Members} {ticket intent request : PyStr} {receipts : List PyStr}

theorem SameIntents.intentReceipts_eq (h : SameIntents rt next) (ticket : PyStr) :
    intentReceipts ticket next = intentReceipts ticket rt := by
  unfold intentReceipts
  rw [h _ (by simp [intentKeys]), h (lit "last_intent") (by simp [intentKeys]),
    h (lit "last_intent_request_id") (by simp [intentKeys])]

theorem isHexText_of_mem_intentReceipts (h : intentReceipts ticket rt = .ok receipts)
    {receipt : PyStr} (hr : receipt ∈ receipts) : isHexText 64 receipt = true := by
  have hitems : ∀ {x}, x ∈ (textItems (rt.get "intent_receipts")).filter (isHexText 64) →
      isHexText 64 x = true := fun hx => (List.mem_filter.mp hx).2
  unfold intentReceipts at h
  simp only [bind_eq_ok, require_eq_ok] at h
  obtain ⟨_, -, h⟩ := h
  split at h
  · split_ifs at h
    · obtain rfl := Except.ok.inj h
      exact hitems (mem_of_mem_lastItems hr)
    · obtain rfl := Except.ok.inj h
      rcases List.mem_append.mp (mem_of_mem_lastItems hr) with hr | hr
      · exact hitems hr
      · rw [List.mem_singleton.mp hr]
        exact isHexText_sha256 _
    · obtain rfl := Except.ok.inj h
      exact hitems (mem_of_mem_lastItems hr)
  · obtain rfl := Except.ok.inj h
    exact hitems (mem_of_mem_lastItems hr)

theorem textItems_map_str (items : List PyStr) : textItems (.arr (items.map .str)) = items := by
  simp only [textItems, List.filterMap_map]
  exact List.filterMap_some

/-- The receipts of a record that has taken an intent whose receipt was not there. -/
theorem intentReceipts_of_append (h : intentReceipts ticket rt = .ok receipts)
    (hnew : intentReceiptToken ticket intent request ∉ receipts)
    (hreceipts : next.get "intent_receipts" = appendIntentReceipt ticket receipts intent request)
    (hintent : next.get "last_intent" = .str intent)
    (hrequest : next.get "last_intent_request_id" = .str request) :
    intentReceipts ticket next =
      .ok (lastItems 64 (receipts ++ [intentReceiptToken ticket intent request])) := by
  set token := intentReceiptToken ticket intent request with htoken
  set kept := lastItems 64 (receipts ++ [token]) with hkept
  have happend : appendIntentReceipt ticket receipts intent request = .arr (kept.map .str) := by
    unfold appendIntentReceipt
    simp only [← htoken, List.contains_iff_mem, if_neg hnew]
    rfl
  have hhex : kept.filter (isHexText 64) = kept := by
    refine List.filter_eq_self.mpr fun x hx => ?_
    rcases List.mem_append.mp (mem_of_mem_lastItems hx) with hx | hx
    · exact isHexText_of_mem_intentReceipts h hx
    · rw [List.mem_singleton.mp hx]
      exact isHexText_sha256 _
  have hlegacy : token ∈ kept :=
    mem_lastItems_append (by rw [lastItems_of_length_le (by simp)]; exact List.mem_singleton_self _)
  have hshort : lastItems 64 kept = kept := lastItems_of_length_le length_lastItems_le
  unfold intentReceipts
  rw [hreceipts, happend, textItems_map_str, hhex, hintent, hrequest]
  simp only [Json.hashable, require, if_true, ← htoken, List.contains_iff_mem, if_pos hlegacy,
    intentReceiptLimit, hshort, ite_self]
  rfl

theorem intentReceipts_starting (h : intentReceipts ticket rt = .ok receipts)
    (hnew : intentReceiptToken ticket intent request ∉ receipts) (run now : PyStr) :
    intentReceipts ticket (starting rt ticket run now intent request receipts) =
      .ok (lastItems 64 (receipts ++ [intentReceiptToken ticket intent request])) := by
  refine intentReceipts_of_append h hnew ?_ ?_ ?_ <;>
  · unfold starting
    simp only
    split_ifs
    · rfl
    · rw [Members.get_set]
      rfl

theorem intentReceipts_requested {intent : Intent} (h : intentReceipts ticket rt = .ok receipts)
    (hnew : intentReceiptToken ticket intent.text request ∉ receipts) (now : PyStr) :
    intentReceipts ticket (requested rt ticket intent request now receipts) =
      .ok (lastItems 64 (receipts ++ [intentReceiptToken ticket intent.text request])) :=
  intentReceipts_of_append h hnew (by simp [requested, Dict.update])
    (by simp [requested, Dict.update]) (by simp [requested, Dict.update])

end Runtime

/-! ## Managers that follow one another -/

/-- The access is one of a recovery, or of a new request. -/
def LockedOp.serves : LockedOp → Bool
  | .replay _ => false
  | .interrupt _ _ => false
  | .update _ (.goto _ _ _) => false
  | .update _ (.interrupted _) => false
  | _ => true

namespace AutonomyProcess

/-- The intents of a ticket whose records the metadata have taken, in order. -/
def acceptedFor (s : AutonomyProcess) (ticket : PyStr) : List (Intent × PyStr) :=
  s.log.reverse.filterMap fun r => if r.update.ticket = ticket then r.after.intent? else none

/-- The receipts of the accepted intents of a ticket. -/
def acceptedReceipts (s : AutonomyProcess) (ticket : PyStr) : List PyStr :=
  (s.acceptedFor ticket).map fun x => Runtime.intentReceiptToken ticket x.1.text x.2

/-- A manager is built when no other recovers or serves a new request, and a request goes to the
last manager built, or to one that is shutting down. -/
def Successive (s : AutonomyProcess) : ProcessAction → Prop
  | .build _ _ => ∀ i < s.built, (s.managers i).all fun m => m.todo.all fun op => !op.serves
  | .intent i _ _ => i + 1 = s.built ∨ (s.managers i).any ProcessManager.shuttingDown = true
  | _ => True

instance (s : AutonomyProcess) (a : ProcessAction) : Decidable (s.Successive a) :=
  match a with
  | .build _ _ => inferInstanceAs (Decidable (∀ i < s.built,
      (s.managers i).all fun m => m.todo.all fun op => !op.serves))
  | .intent i _ _ => inferInstanceAs
      (Decidable (i + 1 = s.built ∨ (s.managers i).any ProcessManager.shuttingDown = true))
  | .shutdown _ => inferInstanceAs (Decidable True)
  | .advance _ _ => inferInstanceAs (Decidable True)
  | .work _ _ => inferInstanceAs (Decidable True)
  | .exit => inferInstanceAs (Decidable True)

variable {s s' : AutonomyProcess} {a : ProcessAction} {i j : ℕ} {op : LockedOp}
  {m : ProcessManager} {ticket : PyStr}

/-- Only the last manager built recovers or serves a new request. -/
def Newest (s : AutonomyProcess) : Prop :=
  s.Todo fun i op => op.serves = true → i + 1 = s.built

/-! ## Other managers -/

/-- A step of manager `i` leaves the other managers as they are. -/
structure Elsewhere (s s' : AutonomyProcess) (i : ℕ) : Prop where
  built : s'.built = s.built
  managers : ∀ j, j ≠ i → s'.managers j = s.managers j

variable {s₁ : AutonomyProcess} {f : ProcessManager → ProcessManager} {n : ℕ}

theorem Elsewhere.refl (s : AutonomyProcess) (i : ℕ) : Elsewhere s s i :=
  ⟨rfl, fun _ _ => rfl⟩

theorem Elsewhere.update (h : Elsewhere s s₁ i) {s₂ : AutonomyProcess} {x : Option ProcessManager}
    (hbuilt : s₂.built = s₁.built) (hmanagers : s₂.managers = Function.update s₁.managers i x) :
    Elsewhere s s₂ i := by
  refine ⟨hbuilt.trans h.built, fun j hj => ?_⟩
  rw [hmanagers, Function.update_of_ne hj]
  exact h.managers j hj

theorem Elsewhere.modifyManager (h : Elsewhere s s₁ i) : Elsewhere s (s₁.modifyManager i f) i :=
  h.update rfl rfl

theorem Elsewhere.release (h : Elsewhere s s₁ i)
    (hn : ∀ r, s₁.runs n = some r → r.manager = i) : Elsewhere s (s₁.release n) i := by
  unfold AutonomyProcess.release
  split
  · exact h
  · rename_i r hr
    split
    · exact h
    · obtain rfl := hn r hr
      split_ifs
      · exact h.update rfl rfl
      · exact h.update rfl rfl
      · exact h

theorem Elsewhere.follow (h : Elsewhere s s₁ i) (u : RunUpdate) (after : AfterUpdate)
    (returned : Bool) : Elsewhere s (s₁.follow i u after returned) i := by
  cases after with
  | recovered live => cases returned <;> exact h
  | interrupted n => cases returned <;> exact h
  | launch n intent request =>
    cases returned
    · exact h.modifyManager.modifyManager
    · exact h.modifyManager
  | startFailed => cases returned <;> exact h.modifyManager
  | stop n intent request =>
    cases returned
    · exact h.modifyManager
    · exact h.update rfl rfl
  | goto n next failed => cases returned <;> exact ⟨h.built, h.managers⟩

theorem Elsewhere.perform {m : ProcessManager} {env : OpEnv} (h : Elsewhere s s₁ i)
    (hop : ∀ ticket n, op = .release ticket n → ∀ r, s₁.runs n = some r → r.manager = i) :
    Elsewhere s (s₁.perform i m env op) i := by
  cases op with
  | replay ticket =>
    simp only [AutonomyProcess.perform]
    split_ifs <;> exact h.modifyManager
  | ticket ticket intent request =>
    simp only [AutonomyProcess.perform]
    split_ifs <;> exact h.modifyManager
  | receipts ticket intent request mode =>
    simp only [AutonomyProcess.perform, checkReceipts]
    split_ifs
    · exact h.modifyManager
    · split
      · exact h.modifyManager
      · split_ifs
        · exact h.modifyManager
        · cases intent <;> exact h.modifyManager
  | startOrResume ticket intent request mode =>
    simp only [AutonomyProcess.perform]
    split <;> exact h.modifyManager
  | reserve ticket intent request read receipts =>
    simp only [AutonomyProcess.perform]
    split_ifs
    · exact h.modifyManager
    · exact h.modifyManager
    · have hreserve : Elsewhere s (s₁.reserve i ticket env.runId) i := h.update rfl rfl
      exact hreserve.modifyManager
  | openWorkspace n intent request u =>
    simp only [AutonomyProcess.perform]
    split
    · exact h.modifyManager.modifyManager
    · exact h.modifyManager
  | update u after =>
    have hrecord : Elsewhere s (s₁.record u after) i := ⟨h.built, h.managers⟩
    cases hanswer : env.answer <;>
      simp only [AutonomyProcess.perform, AutonomyProcess.update, hanswer]
    · exact hrecord.follow u after true
    · exact h.follow u after false
    · exact hrecord.follow u after false
    · exact h.follow u after false
  | launch n intent request u =>
    simp only [AutonomyProcess.perform]
    split_ifs
    · exact h.update rfl rfl
    · exact h.modifyManager
  | release ticket n => exact h.release (hop ticket n rfl)
  | requestStop ticket intent request =>
    simp only [AutonomyProcess.perform]
    split <;> exact h.modifyManager
  | interrupt ticket n =>
    have hrun : Elsewhere s (s₁.modifyRun n fun r => { r with stopIntent := some .interrupted }) i :=
      ⟨h.built, h.managers⟩
    simp only [AutonomyProcess.perform]
    split_ifs
    · exact hrun
    · exact hrun.modifyManager
  | recover ticket =>
    simp only [AutonomyProcess.perform]
    split_ifs
    · exact h
    · exact h.update rfl rfl
    · exact h
    · exact h.modifyManager
  | recoverCheck ticket read live =>
    simp only [AutonomyProcess.perform]
    split_ifs
    · exact h
    · exact h.update rfl rfl

theorem elsewhere_workerStep {r : RunControl} {w : WorkerAction} {pc : WorkerPc}
    (hr : s.runs n = some r) (hs : s.workerStep m n r w pc = some s') :
    Elsewhere s s' r.manager := by
  have hleave : Elsewhere s ((s.release n).goto n .ended) r.manager := by
    have h := (Elsewhere.refl s r.manager).release (n := n) fun q hq => by
      rw [Option.some.inj (hq.symm.trans hr)]
    exact ⟨h.built, h.managers⟩
  unfold workerStep at hs
  repeat' split at hs
  all_goals cases hs
  all_goals first
    | exact hleave
    | exact ⟨rfl, fun _ _ => rfl⟩
    | exact (Elsewhere.refl s r.manager).modifyManager

/-- The releases of a section are those of the runs of its manager. -/
theorem Owned.elsewhere_advance (h : s.Owned) {env : OpEnv}
    (hs : s.step (.advance i env) = some s') : Elsewhere s s' i := by
  simp only [AutonomyProcess.step] at hs
  split at hs
  · rename_i m hm
    split at hs
    · rename_i op rest htodo
      obtain rfl := Option.some.inj hs
      refine Elsewhere.perform ((Elsewhere.refl s i).update rfl rfl) ?_
      rintro t n rfl r hr
      obtain ⟨q, hq, hi, -⟩ := (h.sect i m hm).starts _ (htodo ▸ List.mem_cons_self) t n rfl
      rwa [Option.some.inj (hr.symm.trans hq)]
    · cases hs
  · cases hs

/-! ## The manager that serves -/

theorem newest_initial (outDir : PyStr → PyStr) (agent : PyStr → Members) :
    Newest (initial outDir agent) :=
  fun _ _ _ h => by cases h

/-- The section of a manager that is not the last one built stays without a request. -/
theorem todo_perform_of_not_serves {P : ℕ → LockedOp → Prop} {m : ProcessManager} {env : OpEnv}
    (h : s₁.Todo P) (hop : op.serves = false)
    (hplan : ∀ op, op.serves = false → P i op) : (s₁.perform i m env op).Todo P := by
  cases op with
  | replay ticket =>
    simp only [perform]
    split_ifs <;> exact h.answer _
  | interrupt ticket n =>
    simp only [perform]
    split_ifs
    · exact h
    · refine Todo.push (s := s₁.modifyRun n _) h fun x hx => hplan x ?_
      rw [List.mem_singleton.mp hx]
      rfl
  | update u after =>
    have hfollow : ∀ (s₂ : AutonomyProcess) (returned : Bool), s₂.Todo P →
        (s₂.follow i u after returned).Todo P := by
      intro s₂ returned h₂
      cases after with
      | goto n next failed => cases returned <;> exact h₂
      | interrupted n => cases returned <;> exact h₂
      | _ => cases hop
    cases hanswer : env.answer <;> simp only [perform, update, hanswer]
    · exact hfollow (s₁.record u after) true h
    · exact hfollow s₁ false h
    · exact hfollow (s₁.record u after) false h
    · exact hfollow s₁ false h
  | _ => cases hop

theorem Newest.step (h : s.Newest) (howned : s.Owned) (hc : s.Successive a)
    (hs : s.step a = some s') : s'.Newest := by
  cases a with
  | build enabled tickets =>
    obtain rfl := Option.some.inj hs
    intro i m op hm hop hserves
    have hm : Function.update s.managers s.built
        (some ⟨enabled, false, [], [], tickets.map .recover, none⟩) i = some m := hm
    by_cases hi : i = s.built
    · exact congrArg (· + 1) hi
    · rw [Function.update_of_ne hi] at hm
      have hidle := hc i (howned.built i m hm)
      simp only [hm, Option.all_some, List.all_eq_true, Bool.not_eq_true'] at hidle
      rw [hidle op hop] at hserves
      cases hserves
  | intent i ticket payload =>
    simp only [AutonomyProcess.step] at hs
    split at hs
    · rename_i m hm
      split_ifs at hs
      split at hs
      · obtain rfl := Option.some.inj hs
        exact Todo.answer h _
      · rename_i intent request _
        obtain rfl := Option.some.inj hs
        have hbuilt : (s.call i m ticket intent request).built = s.built := by
          unfold call
          split_ifs <;> rfl
        unfold Newest
        rw [hbuilt]
        rcases hc with hi | hshut
        · exact todo_call h fun _ _ _ => hi
        · have hshut : m.shuttingDown = true := by rwa [hm] at hshut
          unfold call
          split_ifs
          · refine Todo.modifyManager h fun _ _ op hop => Or.inr ?_
            rw [List.mem_singleton.mp hop]
            exact fun hserves => by cases hserves
          · exact Todo.answer h _
    · cases hs
  | shutdown i =>
    simp only [AutonomyProcess.step] at hs
    split at hs
    · split_ifs at hs
      · obtain rfl := Option.some.inj hs
        exact h
      · obtain rfl := Option.some.inj hs
        refine Todo.modifyManager h fun _ _ op hop => Or.inr ?_
        obtain ⟨item, -, rfl⟩ := List.mem_map.mp hop
        exact fun hserves => by cases hserves
    · cases hs
  | advance i env =>
    have hbuilt := (howned.elsewhere_advance hs).built
    unfold Newest
    rw [hbuilt]
    simp only [AutonomyProcess.step] at hs
    split at hs
    · rename_i m hm
      split at hs
      · rename_i op rest htodo
        have h₁ : (s.pop i m rest).Todo fun j op => op.serves = true → j + 1 = s.built := by
          refine Todo.set h fun m' hm' x hx => ?_
          obtain rfl := Option.some.inj hm'
          exact h i m x hm (htodo ▸ List.mem_cons_of_mem _ hx)
        by_cases hi : i + 1 = s.built
        · exact todo_perform ⟨m, rest, hm, htodo⟩ h₁ (Option.some.inj hs).symm fun _ _ _ _ => hi
        · obtain rfl := Option.some.inj hs
          refine todo_perform_of_not_serves h₁ ?_ fun x hx hserves => ?_
          · rw [← Bool.not_eq_true]
            exact fun hserves => hi (h i m op hm (htodo ▸ List.mem_cons_self) hserves)
          · rw [hx] at hserves
            cases hserves
      · cases hs
    · cases hs
  | work n w =>
    simp only [AutonomyProcess.step] at hs
    split at hs
    · rename_i r hr
      split at hs
      · split_ifs at hs
        unfold Newest
        rw [(elsewhere_workerStep hr hs).built]
        exact todo_workerStep h hs fun _ _ _ _ _ _ hserves => by cases hserves
      · cases hs
    · cases hs
  | exit =>
    obtain rfl := Option.some.inj hs
    exact fun _ _ _ hm => by cases hm

/-! ## What has been read -/

/-- The receipt of the request is not among those of the record. -/
def NewRequest (runtime : PyStr → Members) (ticket : PyStr) (intent : Intent) (request : PyStr) :
    Prop :=
  ∃ receipts, Runtime.intentReceipts ticket (runtime ticket) = .ok receipts ∧
    Runtime.intentReceiptToken ticket intent.text request ∉ receipts

/-- The record adds the receipt of the request to those of the one it replaces. -/
def Accepts (runtime : PyStr → Members) (u : RunUpdate) (intent : Intent) (request : PyStr) :
    Prop :=
  ∃ receipts, Runtime.intentReceipts u.ticket (runtime u.ticket) = .ok receipts ∧
    Runtime.intentReceipts u.ticket u.next =
      .ok (lastItems 64 (receipts ++ [Runtime.intentReceiptToken u.ticket intent.text request]))

/-- The record has the receipts of the one it replaces, and that of the request it accepts. -/
def UpdateKeeps (runtime : PyStr → Members) (u : RunUpdate) : Option (Intent × PyStr) → Prop
  | some (intent, request) => Accepts runtime u intent request
  | none => Runtime.SameIntents (runtime u.ticket) u.next

/-- What an access is to write has the receipts of the record that is there, and that of the request
if it accepts one. -/
def Keeps (runtime : PyStr → Members) : LockedOp → Prop
  | .startOrResume ticket intent request _ => NewRequest runtime ticket intent request
  | .requestStop ticket intent request => NewRequest runtime ticket intent request
  | .reserve ticket intent request read receipts =>
    Runtime.SameIntents (runtime ticket) read ∧
      Runtime.intentReceipts ticket read = .ok receipts ∧
      Runtime.intentReceiptToken ticket intent.text request ∉ receipts
  | .openWorkspace _ intent request u => Accepts runtime u intent request
  | .update u after => UpdateKeeps runtime u after.intent?
  | .launch _ _ _ u => Runtime.SameIntents (runtime u.ticket) u.next
  | .recoverCheck ticket read _ => Runtime.SameIntents (runtime ticket) read
  | _ => True

theorem keeps_of_plain {runtime : PyStr → Members} (h : op.plain = true) : Keeps runtime op := by
  cases op <;> simp_all [Keeps, LockedOp.plain]

/-- When no record takes an intent, what has been read stays right. -/
theorem Keeps.congr {runtime runtime' : PyStr → Members}
    (hsame : ∀ ticket, Runtime.SameIntents (runtime ticket) (runtime' ticket))
    (h : Keeps runtime op) : Keeps runtime' op := by
  have hnew : ∀ {ticket intent request}, NewRequest runtime ticket intent request →
      NewRequest runtime' ticket intent request := by
    rintro ticket intent request ⟨receipts, hread, hno⟩
    exact ⟨receipts, ((hsame ticket).intentReceipts_eq ticket).trans hread, hno⟩
  have haccepts : ∀ {u intent request}, Accepts runtime u intent request →
      Accepts runtime' u intent request := by
    rintro u intent request ⟨receipts, hread, hnext⟩
    exact ⟨receipts, ((hsame u.ticket).intentReceipts_eq u.ticket).trans hread, hnext⟩
  have hread : ∀ {ticket read}, Runtime.SameIntents (runtime ticket) read →
      Runtime.SameIntents (runtime' ticket) read := fun h => (hsame _).symm.trans h
  cases op with
  | startOrResume ticket intent request mode => exact hnew h
  | requestStop ticket intent request => exact hnew h
  | reserve ticket intent request read receipts => exact ⟨hread h.1, h.2⟩
  | openWorkspace n intent request u => exact haccepts h
  | update u after =>
    have hupdate : ∀ accepted, UpdateKeeps runtime u accepted → UpdateKeeps runtime' u accepted := by
      rintro (_ | ⟨intent, request⟩) h
      · exact hread h
      · exact haccepts h
    exact hupdate after.intent? h
  | launch n intent request u => exact hread h
  | recoverCheck ticket read live => exact hread h
  | _ => trivial

/-- What a step plans keeps the receipts. -/
theorem keeps_of_plans (h : s.Todo fun _ op => Keeps s.runtime op) (hop : Plans s s' i op) :
    Keeps s'.runtime op := by
  have hheads : ∀ {op}, s.Heads i op → Keeps s.runtime op := by
    rintro op ⟨m, rest, hm, htodo⟩
    exact h i m op hm (htodo ▸ List.mem_cons_self)
  cases hop with
  | plain hplain => exact keeps_of_plain hplain
  | startOrResume hread hnew hsame => exact hsame ▸ ⟨_, hread, hnew⟩
  | requestStop hread hnew hsame => exact hsame ▸ ⟨_, hread, hnew⟩
  | reserve hstart hread hsame =>
    obtain ⟨receipts, hread', hnew⟩ := hheads hstart
    obtain rfl := Except.ok.inj (hread.symm.trans hread')
    exact ⟨hsame ▸ Runtime.SameIntents.rfl, hread, hnew⟩
  | openWorkspace hreserve hsame =>
    obtain ⟨hkept, hread, hnew⟩ := hheads hreserve
    exact ⟨_, hsame ▸ (hkept.intentReceipts_eq _).symm.trans hread,
      Runtime.intentReceipts_starting hread hnew ..⟩
  | starting hopen hsame =>
    have haccepts := hheads hopen
    exact hsame ▸ haccepts
  | @launch _ _ _ u _ hdone =>
    change Runtime.SameIntents (s'.runtime u.ticket) u.next
    exact hdone ▸ Runtime.SameIntents.rfl
  | startFailed hlaunch hsame =>
    exact hsame ▸ (hheads hlaunch).trans (Runtime.succeeds_interrupted ..).intents
  | stop hstop hread hsame =>
    obtain ⟨receipts, hread', hnew⟩ := hheads hstop
    obtain rfl := Except.ok.inj (hread.symm.trans hread')
    exact ⟨_, hsame ▸ hread, Runtime.intentReceipts_requested hread hnew _⟩
  | interrupted hinterrupt hsame => exact hsame ▸ (Runtime.succeeds_interrupted ..).intents
  | recoverCheck hactive hsame => exact hsame ▸ Runtime.SameIntents.rfl
  | recovered hcheck hsame =>
    exact hsame ▸ (hheads hcheck).trans (Runtime.succeeds_interrupted ..).intents
  | worker hrun hi hnext hsame => exact hsame ▸ hnext.intents

/-! ## Every step -/

theorem acceptedFor_of_log (h : s'.log = s.log) (ticket : PyStr) :
    s'.acceptedFor ticket = s.acceptedFor ticket := by
  rw [acceptedFor, h, acceptedFor]

theorem acceptedFor_record (u : RunUpdate) (after : AfterUpdate) (ticket : PyStr) :
    (s.record u after).acceptedFor ticket = s.acceptedFor ticket ++
      if u.ticket = ticket then after.intent?.toList else [] := by
  unfold acceptedFor
  rw [log_record, List.reverse_cons, List.filterMap_append]
  congr 1
  simp only [List.filterMap_cons, List.filterMap_nil]
  by_cases ht : u.ticket = ticket
  · simp only [if_pos ht]
    cases after.intent? <;> rfl
  · simp only [if_neg ht]

/-- The receipts of a ticket end with those of the last accepted intents. -/
structure Carried (s : AutonomyProcess) : Prop where
  owned : s.Owned
  newest : s.Newest
  keeps : s.Todo fun _ op => Keeps s.runtime op
  window : ∀ ticket, s.acceptedFor ticket ≠ [] → ∃ earlier,
    Runtime.intentReceipts ticket (s.runtime ticket) =
      .ok (lastItems 64 (earlier ++ s.acceptedReceipts ticket))

theorem carried_initial (outDir : PyStr → PyStr) (agent : PyStr → Members) :
    Carried (initial outDir agent) where
  owned := owned_initial outDir agent
  newest := newest_initial outDir agent
  keeps _ _ _ h := by cases h
  window _ h := absurd rfl h

theorem Carried.updateKeeps (h : s.Carried) {u : RunUpdate} {after : AfterUpdate}
    (hhead : s.Heads i (.update u after)) : UpdateKeeps s.runtime u after.intent? := by
  obtain ⟨m, rest, hm, htodo⟩ := hhead
  exact h.keeps i m (.update u after) hm (htodo ▸ List.mem_cons_self)

/-- Two managers do not hold runs of one ticket. -/
theorem Owned.manager_unique (h : s.Owned) {k : ℕ} {b b' : Bool} (hn : Held s.runs n i ticket b)
    (hk : Held s.runs k j ticket b') : i = j := by
  have hkey := (h.reserved n i ticket b hn).1
  rw [(h.reserved k j ticket b' hk).1] at hkey
  obtain rfl := Option.some.inj hkey
  exact (hn.unique hk).1

/-- A section that is about to accept an intent holds a run of the ticket. -/
theorem Owned.held_of_accepts (h : s.Owned) {u : RunUpdate} {after : AfterUpdate}
    (hop : s.Heads i (.update u after)) (haccept : after.intent?.isSome = true) :
    ∃ n b, Held s.runs n i u.ticket b := by
  obtain ⟨m, rest, hm, htodo⟩ := hop
  have hmem : LockedOp.update u after ∈ m.todo := htodo ▸ List.mem_cons_self
  cases after with
  | launch n intent request => exact ⟨n, false, (h.sect i m hm).starts _ hmem _ _ rfl⟩
  | stop n intent request => exact ⟨n, true, (h.sect i m hm).uses _ hmem _ _ rfl⟩
  | _ => cases haccept

/-- While a manager accepts an intent of a ticket, what is left to do elsewhere is not about the
ticket. -/
theorem Carried.keeps_left (h : s.Carried) {u : RunUpdate} {after : AfterUpdate} {env : OpEnv}
    (hhead : s.Heads i (.update u after)) (haccept : after.intent?.isSome = true)
    {runtime' : PyStr → Members} (hsame : ∀ ticket, ticket ≠ u.ticket →
      runtime' ticket = s.runtime ticket)
    (hm : s.managers j = some m) (hop : op ∈ left (.advance i env) j m) : Keeps runtime' op := by
  obtain ⟨n, b, hheld⟩ := h.owned.held_of_accepts hhead haccept
  obtain ⟨k, rest, hk, htodo⟩ := hhead
  have hmem : LockedOp.update u after ∈ k.todo := htodo ▸ List.mem_cons_self
  unfold left at hop
  by_cases hij : i = j
  · subst hij
    obtain rfl : m = k := Option.some.inj (hm.symm.trans hk)
    have hrest : rest = [] := by
      refine (h.owned.sect i m hm).rest_eq_nil htodo ?_ (by simp)
      cases after <;> first | rfl | cases haccept
    simp [htodo, hrest] at hop
  · simp only [if_neg hij] at hop
    have hi : i + 1 = s.built := by
      refine h.newest i k _ hk hmem ?_
      cases after <;> first | rfl | cases haccept
    have hquiet : op.serves = false := by
      rw [← Bool.not_eq_true]
      intro hserves
      have := h.newest j m op hm hop hserves
      omega
    have hother : ∀ {t n'}, op.uses = some (t, n') → runtime' t = s.runtime t := by
      intro t n' huses
      refine hsame t ?_
      rintro rfl
      exact hij (h.owned.manager_unique hheld ((h.owned.sect j m hm).uses op hop _ _ huses))
    have hkeeps := h.keeps j m op hm hop
    cases op with
    | update v next =>
      cases next with
      | goto n' pc failed =>
        have heq : runtime' v.ticket = s.runtime v.ticket := hother rfl
        change Runtime.SameIntents (runtime' v.ticket) v.next
        rw [heq]
        exact hkeeps
      | interrupted n' =>
        have heq : runtime' v.ticket = s.runtime v.ticket := hother rfl
        change Runtime.SameIntents (runtime' v.ticket) v.next
        rw [heq]
        exact hkeeps
      | _ => cases hquiet
    | replay t => trivial
    | interrupt t n' => trivial
    | _ => cases hquiet

/-- The receipts after an update. -/
theorem Carried.window_record (h : s.Carried) {u : RunUpdate} {after : AfterUpdate}
    (hkeeps : UpdateKeeps s.runtime u after.intent?) (ticket : PyStr)
    (hne : (s.record u after).acceptedFor ticket ≠ []) : ∃ earlier,
    Runtime.intentReceipts ticket ((s.record u after).runtime ticket) =
      .ok (lastItems 64 (earlier ++ (s.record u after).acceptedReceipts ticket)) := by
  unfold acceptedReceipts
  rw [acceptedFor_record] at hne ⊢
  rw [runtime_record]
  by_cases ht : u.ticket = ticket
  · subst ht
    simp only [if_true] at hne ⊢
    cases hafter : after.intent? with
    | none =>
      rw [hafter] at hkeeps hne
      simp only [Option.toList_none, List.append_nil] at hne ⊢
      obtain ⟨earlier, hwindow⟩ := h.window u.ticket hne
      exact ⟨earlier, (hkeeps.intentReceipts_eq u.ticket).trans hwindow⟩
    | some x =>
      rw [hafter] at hkeeps
      obtain ⟨receipts, hread, hnext⟩ := hkeeps
      simp only [Option.toList_some, List.map_append, List.map_cons, List.map_nil]
      by_cases hnil : s.acceptedFor u.ticket = []
      · exact ⟨receipts, by rw [hnil]; exact hnext⟩
      · obtain ⟨earlier, hwindow⟩ := h.window u.ticket hnil
        obtain rfl := Except.ok.inj (hread.symm.trans hwindow)
        refine ⟨earlier, hnext.trans ?_⟩
        rw [lastItems_lastItems_append, List.append_assoc]
        rfl
  · have ht' : ticket ≠ u.ticket := fun heq => ht heq.symm
    simp only [if_neg ht, if_neg ht', List.append_nil] at hne ⊢
    exact h.window ticket hne

theorem Carried.step (h : s.Carried) (hc : s.Successive a) (hs : s.step a = some s') :
    s'.Carried where
  owned := h.owned.step hs
  newest := h.newest.step h.owned hc hs
  keeps := by
    intro j m op hm hop
    rcases todo_step hs j m op hm hop with ⟨m₀, hm₀, hop₀⟩ | hplan
    · have hkeeps := h.keeps j m₀ op hm₀ (mem_of_mem_left hop₀)
      rcases writes_or_same hs with ⟨hagent, -⟩ | ⟨u, after, hw⟩
      · exact runtime_of_agent hagent ▸ hkeeps
      · have hruntime : s'.runtime = (s.record u after).runtime :=
          runtime_of_agent (record_of_writes hw hs).1
        obtain ⟨i, env, rfl, hhead, -⟩ := hw
        have hupdate := h.updateKeeps hhead
        rw [hruntime]
        cases hafter : after.intent? with
        | none =>
          refine hkeeps.congr fun ticket => ?_
          rw [runtime_record]
          split_ifs with ht
          · rw [hafter] at hupdate
            exact ht ▸ hupdate
          · exact Runtime.SameIntents.rfl
        | some x =>
          refine h.keeps_left hhead (hafter ▸ rfl) (fun ticket ht => ?_) hm₀ hop₀
          rw [runtime_record, if_neg ht]
    · exact keeps_of_plans h.keeps hplan
  window := by
    intro ticket hne
    rcases writes_or_same hs with ⟨hagent, hlog⟩ | ⟨u, after, hw⟩
    · unfold acceptedReceipts
      rw [acceptedFor_of_log hlog] at hne ⊢
      rw [runtime_of_agent hagent]
      exact h.window ticket hne
    · obtain ⟨hagent, hlog⟩ := record_of_writes hw hs
      obtain ⟨i, env, -, hhead, -⟩ := hw
      unfold acceptedReceipts
      rw [acceptedFor_of_log hlog] at hne ⊢
      rw [runtime_of_agent hagent]
      exact h.window_record (h.updateKeeps hhead) ticket hne

/-! ## A request that is sent again -/

/-- What is persisted of the runs, what has been written, and the workers are the same. -/
structure SameRuns (s s' : AutonomyProcess) : Prop where
  agent : s'.agent = s.agent
  log : s'.log = s.log
  processWorkers : s'.processWorkers = s.processWorkers
  runs : s'.runs = s.runs
  nextRun : s'.nextRun = s.nextRun

/-- Manager `i` handles the request, which is among the last that have been accepted, and has so
many accesses left; after the last one it has returned. -/
def Replaying (s : AutonomyProcess) (i : ℕ) (ticket : PyStr) (intent : Intent) (request : PyStr) :
    ℕ → Prop
  | 0 => ∃ m, s.managers i = some m ∧ m.todo = [] ∧ m.reply = some (.ok ())
  | 1 => ∃ m, s.managers i = some m ∧ (m.todo = [.replay ticket] ∨
      (∃ mode, m.todo = [.receipts ticket intent request mode]) ∧
        (intent, request) ∈ lastItems 64 (s.acceptedFor ticket))
  | 2 => ∃ m, s.managers i = some m ∧ m.todo = [.ticket ticket intent request] ∧
      (intent, request) ∈ lastItems 64 (s.acceptedFor ticket)
  | _ => False

variable {intent : Intent} {request : PyStr} {k : ℕ}

/-- The receipt of a request that is among the last that have been accepted is in the record. -/
theorem Carried.mem_receipts (h : s.Carried)
    (haccepted : (intent, request) ∈ lastItems 64 (s.acceptedFor ticket)) : ∃ receipts,
    Runtime.intentReceipts ticket (s.runtime ticket) = .ok receipts ∧
      Runtime.intentReceiptToken ticket intent.text request ∈ receipts := by
  obtain ⟨earlier, hwindow⟩ := h.window ticket
    (List.ne_nil_of_mem (mem_of_mem_lastItems haccepted))
  have hmem : Runtime.intentReceiptToken ticket intent.text request ∈
      lastItems 64 (s.acceptedReceipts ticket) := by
    rw [acceptedReceipts, lastItems_map]
    exact List.mem_map.mpr ⟨(intent, request), haccepted, rfl⟩
  exact ⟨_, hwindow, mem_lastItems_append hmem⟩

/-- An access of a request that is sent again. -/
theorem Carried.advance_replaying (h : s.Carried)
    (hr : s.Replaying i ticket intent request (k + 1)) {env : OpEnv} (henv : env.readable = true) :
    ∃ s', s.step (.advance i env) = some s' ∧ SameRuns s s' ∧
      s'.Replaying i ticket intent request k := by
  have hanswer : ∀ {m : ProcessManager} (f : ProcessManager → ProcessManager) (rest : List LockedOp),
      ((s.pop i m rest).modifyManager i f).managers i = some (f { m with todo := rest }) := by
    intro m f rest
    rw [managers_modifyManager, if_pos rfl, pop]
    simp
  match k, hr with
  | 0, ⟨m, hm, .inl htodo⟩ =>
    refine ⟨_, by simp only [AutonomyProcess.step, hm, htodo]; rfl, ?_⟩
    simp only [perform, henv, if_true]
    exact ⟨⟨rfl, rfl, rfl, rfl, rfl⟩, _, hanswer _ [], rfl, rfl⟩
  | 0, ⟨m, hm, .inr ⟨⟨mode, htodo⟩, haccepted⟩⟩ =>
    obtain ⟨receipts, hread, hmem⟩ := h.mem_receipts haccepted
    have hcheck : (s.pop i m []).checkReceipts i ticket intent request mode =
        (s.pop i m []).remember i (ticket, intent, request) := by
      have hread' : Runtime.intentReceipts ticket ((s.pop i m []).runtime ticket) = .ok receipts :=
        hread
      rw [checkReceipts, hread']
      simp only [List.contains_iff_mem.mpr hmem, Bool.true_or, if_true]
    refine ⟨_, by simp only [AutonomyProcess.step, hm, htodo]; rfl, ?_⟩
    change SameRuns s ((s.pop i m []).perform i m env _) ∧
      ((s.pop i m []).perform i m env _).Replaying i ticket intent request 0
    simp only [perform, henv, Bool.not_true, Bool.false_eq_true, if_false, hcheck]
    exact ⟨⟨rfl, rfl, rfl, rfl, rfl⟩, _, hanswer _ [], rfl, rfl⟩
  | 1, ⟨m, hm, htodo, haccepted⟩ =>
    refine ⟨_, by simp only [AutonomyProcess.step, hm, htodo]; rfl, ?_⟩
    simp only [perform, henv, if_true]
    exact ⟨⟨rfl, rfl, rfl, rfl, rfl⟩, _, hanswer _ [], Or.inr ⟨⟨_, rfl⟩, haccepted⟩⟩

/-- A manager with a section under way is left as it is by what is not its section. -/
theorem Owned.managers_of_busy (h : s.Owned) (hm : s.managers i = some m) (hbusy : m.todo ≠ [])
    (hexit : a ≠ .exit) (hother : ∀ env, a ≠ .advance i env) (hs : s.step a = some s') :
    s'.managers i = some m := by
  have hnotEmpty : ¬m.todo.isEmpty = true := fun hempty => hbusy (List.isEmpty_iff.mp hempty)
  have helsewhere : ∀ {j}, Elsewhere s s' j → i ≠ j → s'.managers i = some m :=
    fun he hij => (he.managers i hij).trans hm
  cases a with
  | build enabled tickets =>
    obtain rfl := Option.some.inj hs
    have hlt := h.built i m hm
    exact (Function.update_of_ne (by omega) ..).trans hm
  | intent j ticket payload =>
    simp only [AutonomyProcess.step] at hs
    split at hs
    · rename_i q hq
      split_ifs at hs with hempty
      have hij : i ≠ j := by
        rintro rfl
        obtain rfl : m = q := Option.some.inj (hm.symm.trans hq)
        exact hnotEmpty hempty
      split at hs
      · obtain rfl := Option.some.inj hs
        exact helsewhere (Elsewhere.refl s j).modifyManager hij
      · obtain rfl := Option.some.inj hs
        refine helsewhere (j := j) ?_ hij
        unfold AutonomyProcess.call
        split_ifs <;> exact (Elsewhere.refl s j).modifyManager
    · cases hs
  | shutdown j =>
    simp only [AutonomyProcess.step] at hs
    split at hs
    · rename_i q hq
      split_ifs at hs with hempty
      · obtain rfl := Option.some.inj hs
        exact hm
      · have hij : i ≠ j := by
          rintro rfl
          obtain rfl : m = q := Option.some.inj (hm.symm.trans hq)
          exact hnotEmpty hempty
        obtain rfl := Option.some.inj hs
        exact helsewhere (Elsewhere.refl s j).modifyManager hij
    · cases hs
  | advance j env =>
    refine helsewhere (h.elsewhere_advance hs) ?_
    rintro rfl
    exact hother env rfl
  | work n w =>
    simp only [AutonomyProcess.step] at hs
    split at hs
    · rename_i r hr
      split at hs
      · rename_i q pc hq hpc
        split_ifs at hs with hlock
        by_cases hij : i = r.manager
        · subst hij
          obtain rfl : m = q := Option.some.inj (hm.symm.trans hq)
          rw [Bool.not_eq_true] at hnotEmpty
          simp only [hnotEmpty, Bool.false_or, Bool.and_eq_true] at hlock
          cases w <;> cases hlock.1 <;> cases pc <;> try cases hs
          all_goals first
            | exact hm
            | (rename_i retried; cases retried <;> cases hs <;> exact hm)
        · exact helsewhere (elsewhere_workerStep hr hs) hij
      · cases hs
    · cases hs
  | exit => exact absurd rfl hexit

/-- While a manager serves a new request, no other accepts an intent. -/
theorem Carried.acceptedFor_of_serves (h : s.Carried) (hm : s.managers i = some m)
    (hop : op ∈ m.todo) (hserves : op.serves = true) (hother : ∀ env, a ≠ .advance i env)
    (hs : s.step a = some s') (ticket : PyStr) :
    s'.acceptedFor ticket = s.acceptedFor ticket := by
  rcases writes_or_same hs with ⟨-, hlog⟩ | ⟨u, after, hw⟩
  · exact acceptedFor_of_log hlog ticket
  · rw [acceptedFor_of_log (record_of_writes hw hs).2, acceptedFor_record]
    obtain ⟨j, env, rfl, ⟨q, rest, hq, htodo⟩, -⟩ := hw
    cases hafter : after.intent? with
    | none => simp
    | some x =>
      have hj : j + 1 = s.built := by
        refine h.newest j q (.update u after) hq (htodo ▸ List.mem_cons_self) ?_
        cases after <;> first | rfl | cases hafter
      have hi := h.newest i m op hm hop hserves
      obtain rfl : j = i := by omega
      exact absurd rfl (hother env)

theorem Carried.replaying_of_step (h : s.Carried)
    (hr : s.Replaying i ticket intent request (k + 1)) (hexit : a ≠ .exit)
    (hother : ∀ env, a ≠ .advance i env) (hs : s.step a = some s') :
    s'.Replaying i ticket intent request (k + 1) := by
  have hbusy : ∀ {m : ProcessManager} {op : LockedOp}, s.managers i = some m → m.todo = [op] →
      s'.managers i = some m := fun hm htodo =>
    h.owned.managers_of_busy hm (by simp [htodo]) hexit hother hs
  have hsame : ∀ {m : ProcessManager} {op : LockedOp}, s.managers i = some m → m.todo = [op] →
      op.serves = true → s'.acceptedFor ticket = s.acceptedFor ticket := fun hm htodo hserves =>
    h.acceptedFor_of_serves hm (htodo ▸ List.mem_singleton_self _) hserves hother hs ticket
  match k, hr with
  | 0, ⟨m, hm, .inl htodo⟩ => exact ⟨m, hbusy hm htodo, Or.inl htodo⟩
  | 0, ⟨m, hm, .inr ⟨⟨mode, htodo⟩, haccepted⟩⟩ =>
    exact ⟨m, hbusy hm htodo, Or.inr ⟨⟨mode, htodo⟩, by rwa [hsame hm htodo rfl]⟩⟩
  | 1, ⟨m, hm, htodo, haccepted⟩ =>
    exact ⟨m, hbusy hm htodo, htodo, by rwa [hsame hm htodo rfl]⟩

theorem Carried.intent_replaying (hm : s.managers i = some m) (hidle : m.todo = [])
    (hopen : m.shuttingDown = false) {payload : Json}
    (hpayload : Manager.normalizeIntentPayload payload = .ok (intent, request))
    (haccepted : (intent, request) ∈ lastItems 64 (s.acceptedFor ticket)) :
    ∃ s' k, s.step (.intent i ticket payload) = some s' ∧ SameRuns s s' ∧
      s'.Replaying i ticket intent request (k + 1) := by
  have hmanagers : ∀ f : ProcessManager → ProcessManager,
      (s.modifyManager i f).managers i = some (f m) := by
    intro f
    rw [managers_modifyManager, if_pos rfl, hm, Option.map_some]
  have hstep : s.step (.intent i ticket payload) = some (s.call i m ticket intent request) := by
    simp [AutonomyProcess.step, hm, hidle, hpayload]
  by_cases hknown : (ticket, intent, request) ∈ m.receipts
  · have hcall : s.call i m ticket intent request =
        s.modifyManager i fun m => { m with todo := [.replay ticket], reply := none } :=
      if_pos hknown
    exact ⟨_, 0, hstep.trans (congrArg some hcall), ⟨rfl, rfl, rfl, rfl, rfl⟩, _, hmanagers _,
      Or.inl rfl⟩
  · have hcall : s.call i m ticket intent request =
        s.modifyManager i fun m => { m with todo := [.ticket ticket intent request], reply := none }
        := by
      rw [call, if_neg hknown, hopen]
      rfl
    exact ⟨_, 1, hstep.trans (congrArg some hcall), ⟨rfl, rfl, rfl, rfl, rfl⟩, _, hmanagers _, rfl,
      haccepted⟩

/-- In every run of a process whose managers follow one another, through restarts of managers and of
the process, and whatever workers, recoveries and shutdowns do in between: a request that is among
the last 64 accepted ones of its ticket, sent again to a manager that is not shutting down, is taken
by that manager without a change of a persisted run, and without a worker; each access of its
section leaves all that as it is, and comes closer to a return, whatever the environment does as
long as the ticket can be read; and what others do before that access leaves it so. -/
theorem replay_silent (outDir : PyStr → PyStr) (agent : PyStr → Members)
    (acts : List ProcessAction) (s : AutonomyProcess)
    (hrun : run step (initial outDir agent) acts = some s)
    (hsuccessive : Along step Successive (initial outDir agent) acts) (i : ℕ) (ticket : PyStr)
    (intent : Intent) (request : PyStr) :
    (∀ m payload, s.managers i = some m → m.todo = [] → m.shuttingDown = false →
      Manager.normalizeIntentPayload payload = .ok (intent, request) →
      (intent, request) ∈ lastItems 64 (s.acceptedFor ticket) →
      ∃ s' k, s.step (.intent i ticket payload) = some s' ∧ SameRuns s s' ∧
        s'.Replaying i ticket intent request (k + 1)) ∧
    (∀ k env, s.Replaying i ticket intent request (k + 1) → env.readable = true →
      ∃ s', s.step (.advance i env) = some s' ∧ SameRuns s s' ∧
        s'.Replaying i ticket intent request k) ∧
    ∀ k a s', s.Replaying i ticket intent request (k + 1) → a ≠ .exit →
      (∀ env, a ≠ .advance i env) → s.step a = some s' →
        s'.Replaying i ticket intent request (k + 1) := by
  have hall : Always step Carried (initial outDir agent) acts :=
    always_of_along (fun _ h => h) (fun _ _ _ h hc hs => h.step hc hs) (carried_initial _ _)
      hsuccessive
  have h : s.Carried := hall.of_run hrun
  exact ⟨fun m payload hm hidle hopen hpayload haccepted =>
      Carried.intent_replaying hm hidle hopen hpayload haccepted,
    fun k env hr henv => h.advance_replaying hr henv,
    fun k a s' hr hexit hother hs => h.replaying_of_step hr hexit hother hs⟩

/-! ## A request that is sent again after a restart -/

/-- A run is started, the process ends, and the manager of the next one recovers the ticket. -/
def restarted : List ProcessAction :=
  startedRun ++ [.exit, .build true ["T"], .advance 1 smooth, .advance 1 smooth, .advance 1 smooth]

theorem replay_silent_restarted : ∃ s s' k,
    run step (initial id Manager.autonomousTicket) restarted = some s ∧
      s.step (.intent 1 "T" (Manager.request "start" "a")) = some s' ∧ SameRuns s s' ∧
      s'.Replaying 1 "T" .start "a" (k + 1) := by
  have hlast : ((run step (initial id Manager.autonomousTicket) restarted).any fun s =>
      (s.managers 1).any fun m => m.todo.isEmpty && !m.shuttingDown &&
        decide ((Intent.start, lit "a") ∈ lastItems 64 (s.acceptedFor "T"))) = true := by
    decide +kernel
  obtain ⟨s, hs, hm⟩ := (Option.any_eq_true _ _).mp hlast
  obtain ⟨m, hm, hready⟩ := (Option.any_eq_true _ _).mp hm
  simp only [Bool.and_eq_true, List.isEmpty_iff, Bool.not_eq_true', decide_eq_true_eq] at hready
  obtain ⟨⟨hidle, hopen⟩, haccepted⟩ := hready
  obtain ⟨s', k, hstep, hsame, hr⟩ := (replay_silent id Manager.autonomousTicket restarted s hs
    (by decide +kernel) 1 "T" .start "a").1 m (Manager.request "start" "a") hm hidle hopen rfl
      haccepted
  exact ⟨s, s', k, hs, hstep, hsame, hr⟩

end AutonomyProcess

end Icode
