import Icode.Interleaving
import Icode.PyDict
import Icode.PyFloat
import Icode.PyText

/-!
# Approvals in the browser

`WebApprover.ask` registers an item in the `ApprovalRegistry` and waits for its event; requests
from the browser call `resolve`. `resolve` takes the item out of the registry under a lock, and
sets the answer, the event and the history after it has released the lock. A wait that times out
resolves the item itself, and refuses whatever that `resolve` returns.

`move` is one atomic step of a call. A request that approves may take the item while the wait is
ending: the tool is refused, and the history says that it was approved (`approvedRun_disagrees`).
`answers_agree` says that nothing else goes wrong: when every id drawn is new, and no wait that has
timed out finds its item taken by an approval, the answers agree with the history.
-/

namespace Icode

open Py Interleaving

/-! ## The registry -/

/-- `PendingApproval`; `taken` is the call of `resolve` that took it, with its decision. -/
structure PendingApproval where
  approvalId : PyStr
  tool : PyStr
  event : Bool
  granted : Bool
  decidedAt : Option PyFloat
  taken : Option (ℕ × PyStr)

/-- An item of `ApprovalRegistry._history`. -/
structure HistoryEntry where
  approvalId : PyStr
  tool : PyStr
  decision : PyStr
  reason : PyStr
  decidedAt : PyFloat

/-- `MAX_REASON_CHARS` -/
def maxReasonChars : ℕ :=
  500

def approve : PyStr :=
  "approve"

def deny : PyStr :=
  "deny"

/-- The reason of a wait that has timed out. -/
def timeoutReason : PyStr :=
  "等待超时，按拒绝处理"

/-- An `ApprovalRegistry`, the items it has made so far by number, and what has been answered. -/
structure ApprovalRegistry where
  pending : Dict PyStr ℕ
  items : ℕ → Option PendingApproval
  history : List HistoryEntry
  nextItem : ℕ
  /-- The ids drawn so far. -/
  issued : List PyStr
  /-- What the calls of `ask` have returned. -/
  answers : List (PyStr × Bool)
  /-- The ids for which `resolve` has returned `True`. -/
  resolved : List PyStr

/-- A call of `WebApprover.ask`, or of `resolve` for a request. -/
inductive ApprovalCall where
  | ask (tool : PyStr)
  | resolve (approvalId decision reason : PyStr)

/-- Where a call stands; `asking` says that `resolve` is called by a wait that has timed out. -/
inductive ApprovalPc where
  | ask (tool : PyStr)
  /-- `item.event.wait` -/
  | waiting (item : ℕ)
  /-- It has returned `True`. -/
  | answered (item : ℕ)
  /-- It has returned `False`. -/
  | timedOut (item : ℕ)
  | resolve (approvalId decision reason : PyStr)
  /-- The item is out of the registry. -/
  | taken (item : ℕ) (decision reason : PyStr) (asking : Bool)
  /-- The answer is set. -/
  | signalling (item : ℕ) (decision reason : PyStr) (asking : Bool)
  /-- The event is set. -/
  | recording (item : ℕ) (decision reason : PyStr) (asking : Bool)

/-- What the environment answers to a step. -/
inductive ApprovalAnswer where
  | ok
  /-- `f"ap-{secrets.token_hex(6)}"` -/
  | token (approvalId : PyStr)
  /-- `time.time()` -/
  | time (now : PyFloat)
  /-- The wait ends before the event is set. -/
  | timeout

namespace ApprovalRegistry

def initial : ApprovalRegistry :=
  ⟨[], fun _ => none, [], 0, [], [], []⟩

/-- The item is changed. -/
def modify (x : ApprovalRegistry) (item : ℕ) (f : PendingApproval → PendingApproval) :
    ApprovalRegistry :=
  { x with items := Function.update x.items item ((x.items item).map f) }

/-- `add`. -/
def add (x : ApprovalRegistry) (approvalId tool : PyStr) : ApprovalRegistry :=
  { x with
    pending := x.pending.set approvalId x.nextItem,
    items := Function.update x.items x.nextItem (some ⟨approvalId, tool, false, false, none, none⟩),
    nextItem := x.nextItem + 1, issued := x.issued ++ [approvalId] }

/-- The item is taken out of the registry. -/
def take (x : ApprovalRegistry) (call : ℕ) (approvalId : PyStr) (item : ℕ) (decision : PyStr) :
    ApprovalRegistry :=
  { x with pending := x.pending.erase approvalId }.modify item
    fun it => { it with taken := some (call, decision) }

/-- `self._history.append`, and the return of `resolve`. -/
def record (x : ApprovalRegistry) (it : PendingApproval) (decision reason : PyStr) :
    ApprovalRegistry :=
  { x with
    history := x.history ++ [⟨it.approvalId, it.tool, decision, reason.take maxReasonChars,
      it.decidedAt.getD .nan⟩],
    resolved := x.resolved ++ [it.approvalId] }

/-- `ask` returns. -/
def answer (x : ApprovalRegistry) (approvalId : PyStr) (granted : Bool) : ApprovalRegistry :=
  { x with answers := x.answers ++ [(approvalId, granted)] }

/-- One step of a call. -/
def move (x : ApprovalRegistry) (c : ℕ) :
    ApprovalPc → ApprovalAnswer → Option (ApprovalRegistry × Option ApprovalPc)
  | .ask tool, .token approvalId => some (x.add approvalId tool, some (.waiting x.nextItem))
  | .waiting item, .ok =>
    (x.items item).bind fun it => if it.event then some (x, some (.answered item)) else none
  | .waiting item, .timeout =>
    (x.items item).bind fun it => if it.event then none else some (x, some (.timedOut item))
  | .answered item, .ok => (x.items item).map fun it => (x.answer it.approvalId it.granted, none)
  | .timedOut item, .ok =>
    (x.items item).map fun it =>
      match x.pending.get? it.approvalId with
      | none => (x.answer it.approvalId false, none)
      | some found =>
        (x.take c it.approvalId found deny, some (.taken found deny timeoutReason true))
  | .resolve approvalId decision reason, .ok =>
    match x.pending.get? approvalId with
    | none => some (x, none)
    | some found =>
      some (x.take c approvalId found decision, some (.taken found decision reason false))
  | .taken item decision reason asking, .time now =>
    some (x.modify item fun it =>
        { it with granted := decide (decision = approve), decidedAt := some now },
      some (.signalling item decision reason asking))
  | .signalling item decision reason asking, .ok =>
    some (x.modify item fun it => { it with event := true },
      some (.recording item decision reason asking))
  | .recording item decision reason asking, .ok =>
    (x.items item).map fun it =>
      let x := x.record it decision reason
      (if asking then x.answer it.approvalId false else x, none)
  | _, _ => none

def enter : ApprovalCall → ApprovalPc
  | .ask tool => .ask tool
  | .resolve approvalId decision reason => .resolve approvalId decision reason

/-- The methods of the registry and its approvers. -/
def program : Program ApprovalRegistry ApprovalPc ApprovalCall ApprovalAnswer :=
  ⟨enter, move⟩

/-- The ids in the history. -/
def recorded (x : ApprovalRegistry) : List PyStr :=
  x.history.map HistoryEntry.approvalId

end ApprovalRegistry

/-- A registry, and the calls of `ask` and `resolve`. -/
abbrev Approvals := State ApprovalRegistry ApprovalPc

abbrev ApprovalAction := Action ApprovalCall ApprovalAnswer

namespace Approvals

def initial : Approvals :=
  State.initial ApprovalRegistry.initial

abbrev step : Approvals → ApprovalAction → Option Approvals :=
  State.step ApprovalRegistry.program

/-! ## What is claimed -/

/-- The answers agree with the history. -/
structure Agree (s : Approvals) : Prop where
  /-- No id is resolved twice. -/
  once : s.shared.resolved.Nodup
  /-- A `resolve` that returned `True` has left one entry for its id. -/
  entry : ∀ id ∈ s.shared.resolved, s.shared.recorded.count id = 1
  /-- `ask` has returned `True` exactly if the entry of its id says so. -/
  answers : ∀ id granted, (id, granted) ∈ s.shared.answers →
    ∀ e ∈ s.shared.history, e.approvalId = id → (granted = true ↔ e.decision = approve)
  /-- When all calls have returned, there is an entry for every answer. -/
  answered : s.Quiet → ∀ id granted, (id, granted) ∈ s.shared.answers → id ∈ s.shared.recorded

/-- The decision of the call that took the item of the wait, if it is taken. -/
def takenBy (s : Approvals) (item : ℕ) : Option PyStr :=
  (s.shared.items item).bind fun it => it.taken.map Prod.snd

/-- An id that is drawn is new, and a wait that has timed out does not find its item taken by an
approval. -/
def inTime (s : Approvals) : ApprovalAction → Bool
  | .move _ (.token id) => !s.shared.issued.contains id
  | .move c .ok =>
    match s.calls c with
    | some (.timedOut item) => s.takenBy item != some approve
    | _ => true
  | _ => true

def InTime (s : Approvals) (a : ApprovalAction) : Prop :=
  s.inTime a = true

instance (s : Approvals) : DecidablePred s.InTime := fun a =>
  inferInstanceAs (Decidable (s.inTime a = true))

end Approvals

namespace ApprovalRegistry

variable {x x' : ApprovalRegistry} {c i : ℕ} {id d reason : PyStr} {it : PendingApproval}

/-! ## Items -/

@[simp] theorem items_modify (x : ApprovalRegistry) (i j : ℕ)
    (f : PendingApproval → PendingApproval) :
    (x.modify i f).items j = if j = i then (x.items i).map f else x.items j := by
  by_cases h : j = i
  · simp [modify, h]
  · simp [modify, h]

/-- The item of an id is taken, by a call with a decision. -/
def Taken (x : ApprovalRegistry) (id : PyStr) (c : ℕ) (d : PyStr) : Prop :=
  ∃ i it, x.items i = some it ∧ it.approvalId = id ∧ it.taken = some (c, d)

/-- An item later on: it has its id, and stays taken and set. -/
structure Later (it it' : PendingApproval) : Prop where
  approvalId : it'.approvalId = it.approvalId
  taken : ∀ p, it.taken = some p → it'.taken = some p
  event : it.event = true → it'.event = true

theorem Later.refl (it : PendingApproval) : Later it it :=
  ⟨rfl, fun _ => id, id⟩

/-- Items stay. -/
def Keeps (x x' : ApprovalRegistry) : Prop :=
  ∀ i it, x.items i = some it → ∃ it', x'.items i = some it' ∧ Later it it'

theorem Taken.mono (h : x.Taken id c d) (hk : x.Keeps x') : x'.Taken id c d := by
  obtain ⟨i, it, hi, rfl, ht⟩ := h
  obtain ⟨it', hi', hl⟩ := hk i it hi
  exact ⟨i, it', hi', hl.approvalId, hl.taken _ ht⟩

theorem Keeps.of_items (h : x'.items = x.items) : x.Keeps x' :=
  fun _ it hi => ⟨it, by rw [h, hi], .refl it⟩

theorem Keeps.modify {f : PendingApproval → PendingApproval}
    (hf : ∀ it, x.items i = some it → Later it (f it)) : x.Keeps (x.modify i f) := by
  intro j jt hj
  by_cases hji : j = i
  · subst hji
    exact ⟨f jt, by simp [hj], hf jt hj⟩
  · exact ⟨jt, by simp [hji, hj], .refl jt⟩

/-! ## What every interleaving keeps -/

/-- Ids are of one item each, and what is recorded and answered is what an item was taken with. -/
structure Sound (x : ApprovalRegistry) : Prop where
  lt : ∀ i it, x.items i = some it → i < x.nextItem
  inj : ∀ i j it jt, x.items i = some it → x.items j = some jt →
    it.approvalId = jt.approvalId → i = j
  issued : ∀ i it, x.items i = some it → it.approvalId ∈ x.issued
  pending : ∀ id i, x.pending.get? id = some i ↔
    ∃ it, x.items i = some it ∧ it.approvalId = id ∧ it.taken = none
  event : ∀ i it, x.items i = some it → it.event = true →
    ∃ c d, it.taken = some (c, d) ∧ it.granted = decide (d = approve)
  history : ∀ e ∈ x.history, ∃ c, x.Taken e.approvalId c e.decision
  once : x.recorded.Nodup
  resolved : x.resolved = x.recorded
  answers : ∀ id b, (id, b) ∈ x.answers → ∃ c d, x.Taken id c d ∧ (b = true ↔ d = approve)

theorem Sound.taken_unique (h : x.Sound) {c' : ℕ} {d' : PyStr} (ht : x.Taken id c d)
    (ht' : x.Taken id c' d') : c = c' ∧ d = d' := by
  obtain ⟨i, it, hi, hid, ht⟩ := ht
  obtain ⟨j, jt, hj, hjd, ht'⟩ := ht'
  obtain rfl := h.inj i j it jt hi hj (hid.trans hjd.symm)
  obtain rfl := Option.some.inj (hi.symm.trans hj)
  exact Prod.mk.inj (Option.some.inj (ht.symm.trans ht'))

theorem sound_initial : initial.Sound := by
  constructor <;> simp [initial, recorded, Dict.get?]

/-- The facts on what is recorded and answered, in a state that keeps the items. -/
theorem Sound.of_keeps (h : x.Sound) (hk : x.Keeps x') (hlt : ∀ i it, x'.items i = some it →
      i < x'.nextItem)
    (hinj : ∀ i j it jt, x'.items i = some it → x'.items j = some jt →
      it.approvalId = jt.approvalId → i = j)
    (hissued : ∀ i it, x'.items i = some it → it.approvalId ∈ x'.issued)
    (hpending : ∀ id i, x'.pending.get? id = some i ↔
      ∃ it, x'.items i = some it ∧ it.approvalId = id ∧ it.taken = none)
    (hevent : ∀ i it, x'.items i = some it → it.event = true →
      ∃ c d, it.taken = some (c, d) ∧ it.granted = decide (d = approve))
    (hh : x'.history = x.history) (hr : x'.resolved = x.resolved) (ha : x'.answers = x.answers) :
    x'.Sound where
  lt := hlt
  inj := hinj
  issued := hissued
  pending := hpending
  event := hevent
  history e he := by
    obtain ⟨c, hc⟩ := h.history e (hh ▸ he)
    exact ⟨c, hc.mono hk⟩
  once := by
    rw [recorded, hh]
    exact h.once
  resolved := by
    rw [recorded, hh, hr]
    exact h.resolved
  answers id b hm := by
    obtain ⟨c, d, hc, hb⟩ := h.answers id b (ha ▸ hm)
    exact ⟨c, d, hc.mono hk, hb⟩

theorem keeps_add (h : x.Sound) (id tool : PyStr) : x.Keeps (x.add id tool) := by
  intro i it hi
  have hne : i ≠ x.nextItem := Nat.ne_of_lt (h.lt i it hi)
  exact ⟨it, by simpa [add, hne] using hi, .refl it⟩

theorem Sound.add (h : x.Sound) (hid : id ∉ x.issued) (tool : PyStr) : (x.add id tool).Sound := by
  -- The item is the new one, or an old one with another id.
  have hcases : ∀ {i it}, (x.add id tool).items i = some it →
      (i = x.nextItem ∧ it = ⟨id, tool, false, false, none, none⟩) ∨
      (x.items i = some it ∧ it.approvalId ≠ id) := by
    intro i it hi
    by_cases hin : i = x.nextItem
    · subst hin
      exact Or.inl ⟨rfl, (by simpa [ApprovalRegistry.add] using hi : _ = it).symm⟩
    · have hi : x.items i = some it := by simpa [ApprovalRegistry.add, hin] using hi
      exact Or.inr ⟨hi, fun he => hid (he ▸ h.issued i it hi)⟩
  refine h.of_keeps (keeps_add h id tool) (fun i it hi => ?_) (fun i j it jt hi hj he => ?_)
    (fun i it hi => ?_) (fun k i => ?_) (fun i it hi he => ?_) rfl rfl rfl
  · rcases hcases hi with ⟨rfl, -⟩ | ⟨hi, -⟩
    · exact Nat.lt_succ_self _
    · exact Nat.lt_succ_of_lt (h.lt i it hi)
  · rcases hcases hi with ⟨rfl, rfl⟩ | ⟨hi, hne⟩ <;> rcases hcases hj with ⟨rfl, rfl⟩ | ⟨hj, hne'⟩
    · rfl
    · exact absurd he.symm hne'
    · exact absurd he hne
    · exact h.inj i j it jt hi hj he
  · rcases hcases hi with ⟨-, rfl⟩ | ⟨hi, -⟩
    · simp [ApprovalRegistry.add]
    · simp [ApprovalRegistry.add, h.issued i it hi]
  · have hset : (x.add id tool).pending.get? k =
        if k = id then some x.nextItem else x.pending.get? k := Dict.get?_set _ _ _ _
    rw [hset]
    split_ifs with hk
    · subst hk
      constructor
      · rintro he
        obtain rfl := Option.some.inj he
        exact ⟨⟨k, tool, false, false, none, none⟩, by simp [ApprovalRegistry.add], rfl, rfl⟩
      · rintro ⟨it, hi, hk, -⟩
        rcases hcases hi with ⟨rfl, -⟩ | ⟨-, hne⟩
        · rfl
        · exact absurd hk hne
    · rw [h.pending]
      constructor
      · rintro ⟨it, hi, rfl, ht⟩
        have hne : i ≠ x.nextItem := Nat.ne_of_lt (h.lt i it hi)
        exact ⟨it, by simpa [ApprovalRegistry.add, hne] using hi, rfl, ht⟩
      · rintro ⟨it, hi, rfl, ht⟩
        rcases hcases hi with ⟨-, rfl⟩ | ⟨hi, -⟩
        · exact absurd rfl hk
        · exact ⟨it, hi, rfl, ht⟩
  · rcases hcases hi with ⟨-, rfl⟩ | ⟨hi, -⟩
    · cases he
    · exact h.event i it hi he

/-- An item of a changed registry, and what it was. -/
theorem items_of_modify {f : PendingApproval → PendingApproval} {j : ℕ} {jt : PendingApproval}
    (h : (x.modify i f).items j = some jt) :
    ∃ it, x.items j = some it ∧ (jt = it ∨ j = i ∧ jt = f it) := by
  rw [items_modify] at h
  split_ifs at h with hji
  · subst hji
    obtain ⟨it, hi, rfl⟩ := Option.map_eq_some_iff.mp h
    exact ⟨it, hi, Or.inr ⟨rfl, rfl⟩⟩
  · exact ⟨jt, h, Or.inl rfl⟩

/-- An item is given an answer or an event. -/
theorem Sound.modify (h : x.Sound) {f : PendingApproval → PendingApproval}
    (hid : ∀ it, (f it).approvalId = it.approvalId) (htaken : ∀ it, (f it).taken = it.taken)
    (hset : ∀ it : PendingApproval, it.event = true → (f it).event = true)
    (hevent : ∀ it, x.items i = some it → (f it).event = true →
      ∃ c d, it.taken = some (c, d) ∧ (f it).granted = decide (d = approve)) :
    (x.modify i f).Sound := by
  have hold : ∀ {j jt}, (x.modify i f).items j = some jt → ∃ it, x.items j = some it ∧
      jt.approvalId = it.approvalId ∧ jt.taken = it.taken := by
    intro j jt hj
    obtain ⟨it, hit, rfl | ⟨rfl, rfl⟩⟩ := items_of_modify hj
    · exact ⟨jt, hit, rfl, rfl⟩
    · exact ⟨it, hit, hid it, htaken it⟩
  refine h.of_keeps (Keeps.modify fun it _ => ⟨hid it, fun p hp => (htaken it).trans hp, hset it⟩)
    (fun j jt hj => ?_) (fun j k jt kt hj hk he => ?_) (fun j jt hj => ?_) (fun k j => ?_)
    (fun j jt hj he => ?_) rfl rfl rfl
  · obtain ⟨it, hit, -, -⟩ := hold hj
    exact h.lt j it hit
  · obtain ⟨it, hit, hiid, -⟩ := hold hj
    obtain ⟨it', hit', hiid', -⟩ := hold hk
    exact h.inj j k it it' hit hit' (hiid ▸ hiid' ▸ he)
  · obtain ⟨it, hit, hiid, -⟩ := hold hj
    exact hiid ▸ h.issued j it hit
  · show x.pending.get? k = some j ↔ _
    rw [h.pending]
    constructor
    · rintro ⟨it, hit, rfl, ht⟩
      by_cases hji : j = i
      · subst hji
        exact ⟨f it, by simp [hit], hid it, (htaken it).trans ht⟩
      · exact ⟨it, by simpa [hji] using hit, rfl, ht⟩
    · rintro ⟨jt, hj, rfl, ht⟩
      obtain ⟨it, hit, hiid, hit'⟩ := hold hj
      exact ⟨it, hit, hiid.symm, hit' ▸ ht⟩
  · obtain ⟨it, hit, rfl | ⟨rfl, rfl⟩⟩ := items_of_modify hj
    · exact h.event j jt hit he
    · obtain ⟨c, d, ht, hg⟩ := hevent it hit he
      exact ⟨c, d, (htaken it).trans ht, hg⟩

theorem keeps_take (h : x.Sound) (hp : x.pending.get? id = some i) (c : ℕ) (d : PyStr) :
    x.Keeps (x.take c id i d) := by
  obtain ⟨it, hi, -, hnone⟩ := (h.pending id i).mp hp
  refine Keeps.modify (x := { x with pending := x.pending.erase id }) fun it' hi' =>
    ⟨rfl, ?_, fun h => h⟩
  obtain rfl := Option.some.inj (hi.symm.trans hi')
  simp [hnone]

/-- An item of a registry from which an item is taken, and what it was. -/
theorem items_of_take {j : ℕ} {jt : PendingApproval} (h : (x.take c id i d).items j = some jt) :
    ∃ it, x.items j = some it ∧ (jt = it ∧ j ≠ i ∨ j = i ∧ jt = { it with taken := some (c, d) }) := by
  rw [take, items_modify] at h
  split_ifs at h with hji
  · subst hji
    obtain ⟨it, hi, rfl⟩ := Option.map_eq_some_iff.mp h
    exact ⟨it, hi, Or.inr ⟨rfl, rfl⟩⟩
  · exact ⟨jt, h, Or.inl ⟨rfl, hji⟩⟩

theorem Sound.take (h : x.Sound) (hp : x.pending.get? id = some i) (c : ℕ) (d : PyStr) :
    (x.take c id i d).Sound := by
  obtain ⟨it, hi, rfl, hnone⟩ := (h.pending id i).mp hp
  have hold : ∀ {j jt}, (x.take c it.approvalId i d).items j = some jt →
      ∃ it₀, x.items j = some it₀ ∧ jt.approvalId = it₀.approvalId := by
    intro j jt hj
    obtain ⟨it₀, h₀, ⟨rfl, -⟩ | ⟨-, rfl⟩⟩ := items_of_take hj
    · exact ⟨jt, h₀, rfl⟩
    · exact ⟨it₀, h₀, rfl⟩
  refine h.of_keeps (keeps_take h hp c d) (fun j jt hj => ?_) (fun j k jt kt hj hk he => ?_)
    (fun j jt hj => ?_) (fun k j => ?_) (fun j jt hj he => ?_) rfl rfl rfl
  · obtain ⟨it₀, h₀, -⟩ := hold hj
    exact h.lt j it₀ h₀
  · obtain ⟨it₀, h₀, hid⟩ := hold hj
    obtain ⟨it₁, h₁, hid'⟩ := hold hk
    exact h.inj j k it₀ it₁ h₀ h₁ (hid ▸ hid' ▸ he)
  · obtain ⟨it₀, h₀, hid⟩ := hold hj
    exact hid ▸ h.issued j it₀ h₀
  · have herase : (x.take c it.approvalId i d).pending.get? k =
        if k = it.approvalId then none else x.pending.get? k := Dict.get?_erase _ _ _
    rw [herase]
    split_ifs with hk
    · constructor
      · exact fun he => (by cases he)
      · rintro ⟨jt, hj, hjk, ht⟩
        obtain ⟨it₀, h₀, ⟨rfl, hji⟩ | ⟨-, rfl⟩⟩ := items_of_take hj
        · exact absurd (h.inj j i jt it h₀ hi (hjk.trans hk)) hji
        · cases ht
    · rw [h.pending]
      constructor
      · rintro ⟨jt, hj, rfl, ht⟩
        have hji : j ≠ i := by
          rintro rfl
          obtain rfl := Option.some.inj (hi.symm.trans hj)
          exact hk rfl
        exact ⟨jt, by simpa [ApprovalRegistry.take, hji] using hj, rfl, ht⟩
      · rintro ⟨jt, hj, rfl, ht⟩
        obtain ⟨it₀, h₀, ⟨rfl, -⟩ | ⟨-, rfl⟩⟩ := items_of_take hj
        · exact ⟨jt, h₀, rfl, ht⟩
        · cases ht
  · obtain ⟨it₀, h₀, ⟨rfl, -⟩ | ⟨rfl, rfl⟩⟩ := items_of_take hj
    · exact h.event j jt h₀ he
    · -- An item whose event is set has been taken before.
      obtain rfl := Option.some.inj (hi.symm.trans h₀)
      obtain ⟨c', d', ht, -⟩ := h.event j it hi he
      exact absurd (hnone.symm.trans ht) (by simp)

theorem Sound.record (h : x.Sound) (hi : x.items i = some it) (ht : it.taken = some (c, d))
    (hnew : it.approvalId ∉ x.recorded) (reason : PyStr) : (x.record it d reason).Sound where
  lt := h.lt
  inj := h.inj
  issued := h.issued
  pending := h.pending
  event := h.event
  history e he := by
    rcases List.mem_append.mp he with he | he
    · exact h.history e he
    · obtain rfl := List.mem_singleton.mp he
      exact ⟨c, i, it, hi, rfl, ht⟩
  once := by
    have : (x.record it d reason).recorded = x.recorded ++ [it.approvalId] := by
      simp [recorded, ApprovalRegistry.record]
    rw [this]
    exact List.nodup_append.mpr ⟨h.once, List.nodup_singleton _, by
      intro a ha b hb hab
      exact hnew (List.mem_singleton.mp hb ▸ hab ▸ ha)⟩
  resolved := by simp [recorded, ApprovalRegistry.record, h.resolved]
  answers := h.answers

theorem Sound.answer (h : x.Sound) (ht : x.Taken id c d) {b : Bool} (hb : b = true ↔ d = approve) :
    (x.answer id b).Sound where
  lt := h.lt
  inj := h.inj
  issued := h.issued
  pending := h.pending
  event := h.event
  history := h.history
  once := h.once
  resolved := h.resolved
  answers id' b' hm := by
    rcases List.mem_append.mp hm with hm | hm
    · exact h.answers id' b' hm
    · obtain ⟨rfl, rfl⟩ := Prod.mk.inj (List.mem_singleton.mp hm)
      exact ⟨c, d, ht, hb⟩

/-! ## One step of a call -/

/-- The call has taken an item, and has not recorded it. -/
def Resolving (x : ApprovalRegistry) (c i : ℕ) (d : PyStr) (asking : Bool) : Prop :=
  ∃ it, x.items i = some it ∧ it.taken = some (c, d) ∧ it.approvalId ∉ x.recorded ∧
    (asking = true → d ≠ approve)

/-- What holds where a call stands. -/
def Stands (x : ApprovalRegistry) (c : ℕ) : ApprovalPc → Prop
  | .waiting i => ∃ it, x.items i = some it
  | .timedOut i => ∃ it, x.items i = some it
  | .answered i => ∃ it, x.items i = some it ∧ it.event = true
  | .taken i d _ asking => x.Resolving c i d asking
  | .signalling i d _ asking =>
    x.Resolving c i d asking ∧ ∀ it, x.items i = some it → it.granted = decide (d = approve)
  | .recording i d _ asking => x.Resolving c i d asking
  | _ => True

end ApprovalRegistry

/-- The item that the call has taken and not recorded. -/
def ApprovalPc.resolving : ApprovalPc → Option ℕ
  | .taken i _ _ _ => some i
  | .signalling i _ _ _ => some i
  | .recording i _ _ _ => some i
  | _ => none

namespace ApprovalRegistry

variable {x x' : ApprovalRegistry} {c i : ℕ} {id d reason : PyStr} {it : PendingApproval}

/-- What a step of a call does. -/
structure Effect (x : ApprovalRegistry) (c : ℕ) (p : ApprovalPc) (x' : ApprovalRegistry)
    (q : Option ApprovalPc) : Prop where
  sound : x'.Sound
  stands : ∀ q', q = some q' → x'.Stands c q'
  keeps : x.Keeps x'
  /-- An item that another call has taken is left alone. -/
  frame : ∀ i it c' d, x.items i = some it → it.taken = some (c', d) → c' ≠ c →
    x'.items i = some it ∧ (it.approvalId ∉ x.recorded → it.approvalId ∉ x'.recorded)
  recorded : ∀ id ∈ x.recorded, id ∈ x'.recorded
  /-- An item the call has taken stays with it until it is recorded. -/
  follow : ∀ i, p.resolving = some i →
    q.bind ApprovalPc.resolving = some i ∨ ∀ it, x.items i = some it → it.approvalId ∈ x'.recorded
  /-- An item is taken by this call, or was taken before. -/
  fresh : ∀ i it' c' d, x'.items i = some it' → it'.taken = some (c', d) →
    (∃ it, x.items i = some it ∧ it.taken = some (c', d) ∧ it.approvalId = it'.approvalId) ∨
      c' = c ∧ q.bind ApprovalPc.resolving = some i

/-- A step that leaves the items and the history alone. -/
theorem Effect.of_items {p : ApprovalPc} {q : Option ApprovalPc} (hsound : x'.Sound)
    (hstands : ∀ q', q = some q' → x'.Stands c q') (hi : x'.items = x.items)
    (hh : x'.history = x.history) (hp : p.resolving = none) : Effect x c p x' q where
  sound := hsound
  stands := hstands
  keeps := .of_items hi
  frame i it c' d hit _ _ := by
    rw [hi, ApprovalRegistry.recorded, ApprovalRegistry.recorded, hh]
    exact ⟨hit, fun h => h⟩
  recorded id hid := by
    rw [ApprovalRegistry.recorded, hh]
    exact hid
  follow i h := absurd (hp.symm.trans h) (by simp)
  fresh i it' c' d hit ht := Or.inl ⟨it', by rw [← hi, hit], ht, rfl⟩

theorem effect_of_take {p : ApprovalPc} (h : x.Sound) (hp : p.resolving = none)
    (hfound : x.pending.get? id = some i) (asking : Bool) (hasking : asking = true → d ≠ approve) :
    Effect x c p (x.take c id i d) (some (.taken i d reason asking)) := by
  obtain ⟨it, hi, rfl, hnone⟩ := (h.pending id i).mp hfound
  refine ⟨h.take hfound c d, fun q' hq => ?_, keeps_take h hfound c d, fun j jt c' d' hj ht _ => ?_,
    fun _ h => h, fun j hj => absurd (hp.symm.trans hj) (by simp), fun j jt c' d' hj ht => ?_⟩
  · obtain rfl := Option.some.inj hq
    refine ⟨{ it with taken := some (c, d) }, by simp [ApprovalRegistry.take, hi], rfl, ?_, hasking⟩
    -- What is recorded is taken.
    intro hm
    obtain ⟨e, he, hid⟩ := List.mem_map.mp hm
    obtain ⟨c', i', it', hi', hid', ht'⟩ := h.history e he
    obtain rfl := h.inj i' i it' it hi' hi (hid'.trans hid)
    obtain rfl := Option.some.inj (hi.symm.trans hi')
    exact absurd (hnone.symm.trans ht') (by simp)
  · have hji : j ≠ i := by
      rintro rfl
      obtain rfl := Option.some.inj (hi.symm.trans hj)
      exact absurd (hnone.symm.trans ht) (by simp)
    exact ⟨by simpa [ApprovalRegistry.take, hji] using hj, fun h => h⟩
  · obtain ⟨it₀, h₀, ⟨rfl, -⟩ | ⟨rfl, rfl⟩⟩ := items_of_take hj
    · exact Or.inl ⟨jt, h₀, ht, rfl⟩
    · exact Or.inr ⟨(Prod.mk.inj (Option.some.inj ht)).1.symm, rfl⟩

/-- A step that changes the item the call has taken. -/
theorem effect_of_modify {p q : ApprovalPc} {f : PendingApproval → PendingApproval} {asking : Bool}
    (hr : x.Resolving c i d asking) (hp : p.resolving = some i) (hq : q.resolving = some i)
    (hsound : (x.modify i f).Sound) (hf : ∀ it, Later it (f it))
    (htaken : ∀ it, (f it).taken = it.taken) (hstands : (x.modify i f).Stands c q) :
    Effect x c p (x.modify i f) (some q) := by
  obtain ⟨it, hi, ht, -, -⟩ := hr
  refine ⟨hsound, fun q' hq' => Option.some.inj hq' ▸ hstands, Keeps.modify fun it _ => hf it,
    fun j jt c' d' hj ht' hc' => ?_, fun _ h => h, fun j hj => Or.inl ?_,
    fun j jt c' d' hj ht' => Or.inl ?_⟩
  · have hji : j ≠ i := by
      rintro rfl
      obtain rfl := Option.some.inj (hi.symm.trans hj)
      exact hc' (Prod.mk.inj (Option.some.inj (ht'.symm.trans ht))).1
    exact ⟨by simpa [hji] using hj, fun h => h⟩
  · rw [Option.bind_some, hq, ← hp, hj]
  · obtain ⟨it₀, h₀, rfl | ⟨rfl, rfl⟩⟩ := items_of_modify hj
    · exact ⟨jt, h₀, ht', rfl⟩
    · exact ⟨it₀, h₀, htaken it₀ ▸ ht', (hf it₀).approvalId.symm⟩

theorem Resolving.modify {f : PendingApproval → PendingApproval} {asking : Bool}
    (h : x.Resolving c i d asking) (hf : ∀ it, (f it).approvalId = it.approvalId)
    (htaken : ∀ it, (f it).taken = it.taken) : (x.modify i f).Resolving c i d asking := by
  obtain ⟨it, hi, ht, hnew, hasking⟩ := h
  exact ⟨f it, by simp [hi], (htaken it).trans ht, by rw [hf]; exact hnew, hasking⟩

/-- The registry after an item has been recorded, by a request or a wait. -/
theorem effect_of_record {asking : Bool} {p : ApprovalPc} (h : x.Sound) (hi : x.items i = some it)
    (ht : it.taken = some (c, d)) (hnew : it.approvalId ∉ x.recorded)
    (hasking : asking = true → d ≠ approve) (hp : p.resolving = some i) (reason : PyStr) :
    Effect x c p (if asking then (x.record it d reason).answer it.approvalId false
      else x.record it d reason) none := by
  have hsound := h.record hi ht hnew reason
  have hitems : ∀ b : Bool, (if b then (x.record it d reason).answer it.approvalId false
      else x.record it d reason).items = x.items := fun b => by cases b <;> rfl
  have hrec : ∀ b : Bool, (if b then (x.record it d reason).answer it.approvalId false
      else x.record it d reason).recorded = x.recorded ++ [it.approvalId] := fun b => by
    cases b <;> simp [ApprovalRegistry.recorded, ApprovalRegistry.record, ApprovalRegistry.answer]
  refine ⟨?_, fun q' hq => (by cases hq), .of_items (hitems asking),
    fun j jt c' d' hj ht' hc' => ⟨by rw [hitems, hj], fun hm => ?_⟩, fun id hid => ?_,
    fun j hj => Or.inr ?_, fun j jt c' d' hj ht' => Or.inl ⟨jt, by rw [← hitems, hj], ht', rfl⟩⟩
  · cases asking with
    | false => exact hsound
    | true =>
      exact hsound.answer ⟨i, it, hi, rfl, ht⟩ (by simpa using hasking rfl)
  · -- The other item has another id.
    rw [hrec, List.mem_append, List.mem_singleton, not_or]
    refine ⟨hm, fun he => ?_⟩
    obtain rfl := h.inj j i jt it hj hi he
    obtain rfl := Option.some.inj (hi.symm.trans hj)
    exact hc' (Prod.mk.inj (Option.some.inj (ht'.symm.trans ht))).1
  · rw [hrec]
    exact List.mem_append_left _ hid
  · intro jt hjt
    obtain rfl := Option.some.inj (hp.symm.trans hj)
    obtain rfl := Option.some.inj (hi.symm.trans hjt)
    rw [hrec]
    exact List.mem_append_right _ (List.mem_singleton_self _)

theorem effect_of_add (h : x.Sound) (hid : id ∉ x.issued) (tool : PyStr) :
    Effect x c (.ask tool) (x.add id tool) (some (.waiting x.nextItem)) := by
  have hne : ∀ {i it}, x.items i = some it → i ≠ x.nextItem :=
    fun hi => Nat.ne_of_lt (h.lt _ _ hi)
  refine ⟨h.add hid tool, fun q' hq => ?_, keeps_add h id tool, fun i it c' d hi _ _ => ?_,
    fun _ h => h, fun i hi => (by cases hi), fun i it c' d hi ht => Or.inl ⟨it, ?_, ht, rfl⟩⟩
  · obtain rfl := Option.some.inj hq
    exact ⟨_, by simp [add]; rfl⟩
  · exact ⟨by simpa [add, hne hi] using hi, fun h => h⟩
  · by_cases hin : i = x.nextItem
    · subst hin
      obtain rfl : _ = it := by simpa [add] using hi
      cases ht
    · simpa [add, hin] using hi

/-- Every step of a call that is in time. -/
theorem effect_of_move {p : ApprovalPc} {a : ApprovalAnswer} {q : Option ApprovalPc} (h : x.Sound)
    (hs : x.Stands c p) (hnew : ∀ id, a = .token id → id ∉ x.issued)
    (hlate : ∀ i it c', p = .timedOut i → x.items i = some it → it.taken ≠ some (c', approve))
    (hmove : x.move c p a = some (x', q)) : Effect x c p x' q := by
  unfold move at hmove
  split at hmove
  case h_1 =>
    obtain ⟨rfl, rfl⟩ := Prod.mk.inj (Option.some.inj hmove)
    exact effect_of_add h (hnew _ rfl) _
  case h_2 =>
    obtain ⟨it, hi, hmove⟩ := Option.bind_eq_some_iff.mp hmove
    split_ifs at hmove with he
    obtain ⟨rfl, rfl⟩ := Prod.mk.inj (Option.some.inj hmove)
    exact .of_items h (fun q' hq => Option.some.inj hq ▸ ⟨it, hi, he⟩) rfl rfl rfl
  case h_3 =>
    obtain ⟨it, hi, hmove⟩ := Option.bind_eq_some_iff.mp hmove
    split_ifs at hmove
    obtain ⟨rfl, rfl⟩ := Prod.mk.inj (Option.some.inj hmove)
    exact .of_items h (fun q' hq => Option.some.inj hq ▸ ⟨it, hi⟩) rfl rfl rfl
  case h_4 =>
    -- `ask` returns the answer of an item whose event is set.
    obtain ⟨it, hi, he⟩ := Option.map_eq_some_iff.mp hmove
    obtain ⟨rfl, rfl⟩ := Prod.mk.inj he
    obtain ⟨it', hi', hset⟩ := hs
    obtain rfl := Option.some.inj (hi.symm.trans hi')
    obtain ⟨c', d, ht, hg⟩ := h.event _ it hi hset
    exact .of_items (h.answer ⟨_, it, hi, rfl, ht⟩ (by simp [hg])) (fun q' hq => (by cases hq))
      rfl rfl rfl
  case h_5 =>
    obtain ⟨it, hi, he⟩ := Option.map_eq_some_iff.mp hmove
    split at he
    · -- The item is gone: it has been taken, and not by an approval.
      rename_i hnone
      obtain ⟨rfl, rfl⟩ := Prod.mk.inj he
      cases ht : it.taken with
      | none =>
        rw [(h.pending _ _).mpr ⟨it, hi, rfl, ht⟩] at hnone
        cases hnone
      | some t =>
        refine .of_items (h.answer ⟨_, it, hi, rfl, ht⟩ ?_) (fun q' hq => (by cases hq)) rfl rfl rfl
        have hne : t.2 ≠ approve := fun hd => hlate _ it t.1 rfl hi (hd ▸ ht)
        simpa using hne
    · rename_i found hfound
      obtain ⟨rfl, rfl⟩ := Prod.mk.inj he
      exact effect_of_take h rfl hfound true fun _ => by decide
  case h_6 =>
    split at hmove
    · obtain ⟨rfl, rfl⟩ := Prod.mk.inj (Option.some.inj hmove)
      exact .of_items h (fun q' hq => (by cases hq)) rfl rfl rfl
    · rename_i found hfound
      obtain ⟨rfl, rfl⟩ := Prod.mk.inj (Option.some.inj hmove)
      exact effect_of_take h rfl hfound false fun hf => (by cases hf)
  case h_7 =>
    obtain ⟨rfl, rfl⟩ := Prod.mk.inj (Option.some.inj hmove)
    have hr : x.Resolving c _ _ _ := hs
    refine effect_of_modify hr rfl rfl (h.modify (fun _ => rfl) (fun _ => rfl) (fun _ h => h)
      fun it hi _ => ?_) (fun it => ⟨rfl, fun _ h => h, fun h => h⟩) (fun _ => rfl)
      ⟨hr.modify (fun _ => rfl) fun _ => rfl, fun it hi => ?_⟩
    · obtain ⟨it', hi', ht, -, -⟩ := hr
      obtain rfl := Option.some.inj (hi.symm.trans hi')
      exact ⟨c, _, ht, rfl⟩
    · rw [items_modify, if_pos rfl] at hi
      obtain ⟨it, -, rfl⟩ := Option.map_eq_some_iff.mp hi
      rfl
  case h_8 =>
    obtain ⟨rfl, rfl⟩ := Prod.mk.inj (Option.some.inj hmove)
    obtain ⟨hr, hgranted⟩ := hs
    refine effect_of_modify hr rfl rfl (h.modify (fun _ => rfl) (fun _ => rfl) (fun _ _ => rfl)
      fun it hi _ => ?_) (fun it => ⟨rfl, fun _ h => h, fun _ => rfl⟩) (fun _ => rfl)
      (hr.modify (fun _ => rfl) fun _ => rfl)
    obtain ⟨it', hi', ht, -, -⟩ := hr
    obtain rfl := Option.some.inj (hi.symm.trans hi')
    exact ⟨c, _, ht, hgranted it hi⟩
  case h_9 =>
    obtain ⟨it, hi, he⟩ := Option.map_eq_some_iff.mp hmove
    obtain ⟨rfl, rfl⟩ := Prod.mk.inj he
    obtain ⟨it', hi', ht, hrec, hasking⟩ := hs
    obtain rfl := Option.some.inj (hi.symm.trans hi')
    exact effect_of_record h hi ht hrec hasking rfl _
  case h_10 => cases hmove

/-! ## Every interleaving -/

/-- What another call does leaves what holds here. -/
theorem Stands.frame {p p' : ApprovalPc} {q : Option ApprovalPc} {d' : ℕ} (hd : d' ≠ c)
    (he : Effect x c p x' q) (h : x.Stands d' p') : x'.Stands d' p' := by
  have hstay : ∀ {i d asking}, x.Resolving d' i d asking → x'.Resolving d' i d asking ∧
      x'.items i = x.items i := by
    rintro i d asking ⟨it, hi, ht, hnew, hasking⟩
    obtain ⟨hi', hrec⟩ := he.frame i it d' d hi ht hd
    exact ⟨⟨it, hi', ht, hrec hnew, hasking⟩, hi'.trans hi.symm⟩
  have hitem : ∀ {i it}, x.items i = some it →
      ∃ it', x'.items i = some it' ∧ (it.event = true → it'.event = true) := by
    intro i it hi
    obtain ⟨it', hi', hl⟩ := he.keeps i it hi
    exact ⟨it', hi', hl.event⟩
  cases p' with
  | ask tool => trivial
  | resolve id d r => trivial
  | waiting i =>
    obtain ⟨it, hi⟩ := h
    obtain ⟨it', hi', -⟩ := hitem hi
    exact ⟨it', hi'⟩
  | timedOut i =>
    obtain ⟨it, hi⟩ := h
    obtain ⟨it', hi', -⟩ := hitem hi
    exact ⟨it', hi'⟩
  | answered i =>
    obtain ⟨it, hi, hset⟩ := h
    obtain ⟨it', hi', hset'⟩ := hitem hi
    exact ⟨it', hi', hset' hset⟩
  | taken i d r asking => exact (hstay h).1
  | signalling i d r asking =>
    obtain ⟨hr, hitems⟩ := hstay h.1
    exact ⟨hr, fun it hi => h.2 it (hitems ▸ hi)⟩
  | recording i d r asking => exact (hstay h).1

end ApprovalRegistry

namespace Approvals

open ApprovalRegistry

theorem effect_of_step {s : Approvals} {c : ℕ} {p : ApprovalPc} {a : ApprovalAnswer}
    {x : ApprovalRegistry} {q : Option ApprovalPc} (h : Holds (fun x _ => Sound x) Stands s)
    (hok : s.InTime (.move c a)) (hc : s.calls c = some p)
    (hmove : s.shared.move c p a = some (x, q)) : Effect s.shared c p x q := by
  refine effect_of_move h.shared (h.calls c p hc) ?_ ?_ hmove
  · rintro id rfl
    simpa [InTime, inTime] using hok
  · rintro i it c' rfl hi ht
    have ha : a = .ok := by
      cases a <;> first | rfl | simp [ApprovalRegistry.move] at hmove
    subst ha
    simp [InTime, inTime, hc, takenBy, hi, ht] at hok

theorem rule : Rule program InTime (fun x _ => Sound x) Stands where
  enter x n m h := ⟨h, by cases m <;> trivial⟩
  own s c p a x q h hok hc hmove :=
    have he := effect_of_step h hok hc hmove
    ⟨he.sound, fun p' hq => he.stands p' hq⟩
  other s c p a x q d p' h hok hc hmove hd hdc :=
    (h.calls d p' hd).frame hdc (effect_of_step h hok hc hmove)

/-- An item that is taken is recorded, or stays with the call that took it. -/
structure Inv (s : Approvals) : Prop where
  holds : Holds (fun x _ => Sound x) Stands s
  carried : ∀ i it c d, s.shared.items i = some it → it.taken = some (c, d) →
    it.approvalId ∈ s.shared.recorded ∨ (s.calls c).bind ApprovalPc.resolving = some i

theorem inv_initial : initial.Inv where
  holds := holds_initial sound_initial
  carried _ _ _ _ h := by cases h

/-- A step that is in time keeps the invariant. -/
theorem Inv.step {s s' : Approvals} {a : ApprovalAction} (h : s.Inv) (hok : s.InTime a)
    (hs : Approvals.step s a = some s') : s'.Inv := by
  have hholds := rule.of_step h.holds hok hs
  refine ⟨hholds, fun i it c' d hi ht => ?_⟩
  cases a with
  | enter m =>
    obtain rfl := Option.some.inj hs
    refine (h.carried i it c' d hi ht).imp_right fun hc => ?_
    obtain ⟨p, hp, hr⟩ := Option.bind_eq_some_iff.mp hc
    have hne : c' ≠ s.next := Nat.ne_of_lt (h.holds.lt hp)
    simpa [hne] using hc
  | move c a =>
    obtain ⟨p, x, q, hc, hmove, rfl⟩ := State.step_move.mp hs
    have he := effect_of_step h.holds hok hc hmove
    rcases he.fresh i it c' d hi ht with ⟨it₀, h₀, ht₀, hid⟩ | ⟨rfl, hq⟩
    · rcases h.carried i it₀ c' d h₀ ht₀ with hm | hcarried
      · exact Or.inl (hid ▸ he.recorded _ hm)
      · by_cases hcc : c' = c
        · subst hcc
          rw [hc, Option.bind_some] at hcarried
          rcases he.follow i hcarried with hq | hm
          · exact Or.inr (by simpa using hq)
          · exact Or.inl (hid ▸ hm it₀ h₀)
        · exact Or.inr (by simpa [hcc] using hcarried)
    · exact Or.inr (by simpa using hq)

theorem Inv.agree {s : Approvals} (h : s.Inv) : s.Agree := by
  have hsound := h.holds.shared
  refine ⟨?_, fun id hid => ?_, fun id b hm e he hid => ?_, fun hquiet id b hm => ?_⟩
  · rw [hsound.resolved]
    exact hsound.once
  · rw [hsound.resolved] at hid
    exact List.count_eq_one_of_mem hsound.once hid
  · obtain ⟨c, d, ht, hb⟩ := hsound.answers id b hm
    obtain ⟨c', ht'⟩ := hsound.history e he
    rw [hb, (hsound.taken_unique ht (hid ▸ ht')).2]
  · obtain ⟨c, d, ⟨i, it, hi, rfl, ht⟩, -⟩ := hsound.answers id b hm
    refine (h.carried i it c d hi ht).resolve_right fun hc => ?_
    rw [hquiet c] at hc
    cases hc

/-- When every id drawn is new, and no wait that has timed out finds its item taken by an approval,
the answers agree with the history in every state reached. -/
theorem answers_agree {as : List ApprovalAction} (h : Transition.Along step InTime initial as) :
    Transition.Always step Agree initial as :=
  Transition.always_of_along (fun _ => Inv.agree) (fun _ _ _ hs => hs.step) inv_initial h

/-- One tool is approved by a request, another waits in vain. -/
def twoAsks : List ApprovalAction :=
  [.enter (.ask "shell"), .move 0 (.token "ap-1"), .enter (.ask "write_file"),
    .move 1 (.token "ap-2"), .enter (.resolve "ap-1" "approve" ""), .move 2 .ok,
    .move 2 (.time .nan), .move 2 .ok, .move 0 .ok, .move 0 .ok, .move 2 .ok, .move 1 .timeout,
    .move 1 .ok, .move 1 (.time .nan), .move 1 .ok, .move 1 .ok]

theorem answers_agree_twoAsks :
    (Transition.run step initial twoAsks).map (fun s => s.shared.answers) =
        some [(lit "ap-1", true), (lit "ap-2", false)] ∧
      Transition.Always step Agree initial twoAsks :=
  ⟨by decide, answers_agree (by decide)⟩

/-- The wait times out, a request takes the item and approves, the wait finds it gone. -/
def approvedRun : List ApprovalAction :=
  [.enter (.ask "shell"), .move 0 (.token "ap-1"), .enter (.resolve "ap-1" "approve" ""),
    .move 0 .timeout, .move 1 .ok, .move 0 .ok, .move 1 (.time .nan), .move 1 .ok, .move 1 .ok]

/-- The tool is refused, and the history says that it was approved. -/
theorem approvedRun_disagrees : ¬Transition.Always step Agree initial approvedRun := by
  intro h
  have hrun : (Transition.run step initial approvedRun).any (fun s =>
      s.shared.answers == [(lit "ap-1", false)] &&
        s.shared.history.any fun e => e.approvalId == lit "ap-1" && e.decision == approve) = true := by
    decide
  obtain ⟨s, hs, hboth⟩ := (Option.any_eq_true _ _).mp hrun
  obtain ⟨hanswers, hhistory⟩ := Bool.and_eq_true_iff.mp hboth
  obtain ⟨e, he, hentry⟩ := List.any_eq_true.mp hhistory
  simp only [Bool.and_eq_true, beq_iff_eq] at hentry hanswers
  have hmem : (lit "ap-1", false) ∈ s.shared.answers := by
    rw [hanswers]
    exact List.mem_singleton_self _
  have hiff := (h.of_run hs).answers _ _ hmem e he hentry.1
  exact absurd (hiff.mpr hentry.2) (by simp)

end Approvals

end Icode
