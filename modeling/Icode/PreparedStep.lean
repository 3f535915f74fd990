import Icode.Interleaving
import Icode.PyText

/-!
# A prepared step

A `LinuxPreparedStep` owns the handle of a helper program. One attachment of it may bind one attempt
and then lend the handle, one borrower at a time, until the step is faulted or spent; `close` closes
the handle.

Every call works under one lock, but for two things it does without it : it looks whether its
attachment is the current one, and the last borrower gives the handle back. So `move` is one read
or write of the source, and the body of a borrow runs between two moves. Checks and validators
answer as they like, or raise; they do not call back.

`assertion` and `Local` are what a call knows where it stands (`rule`). `lifecycle` follows for
every interleaving.
-/

namespace Icode.PreparedStep

open Py Interleaving

/-! ## The step -/

/-- `_consume_state` -/
inductive ConsumeState where
  | prepared
  | attachedPending
  | attachedBound
  | faulted
  | spent
  deriving DecidableEq

/-- `_owner_state` -/
inductive OwnerState where
  | active
  | unknown
  | closed
  deriving DecidableEq

/-- A `LinuxPreparedStep` with its attachment, and what has been done with it. -/
structure Scope where
  /-- `_attachment` : the call that made it. -/
  attachment : Option ℕ
  /-- `_attachment._attempt` -/
  attempt : Option PyStr
  /-- `callable(_attachment._validator)` -/
  validator : Bool
  inflight : Bool
  consume : ConsumeState
  owner : OwnerState
  /-- The call that holds `_gate`. -/
  gate : Option ℕ
  /-- The call whose body has the handle. -/
  borrower : Option ℕ
  /-- The attachments that were made. -/
  views : ℕ
  /-- The attempts that were bound. -/
  attempts : ℕ
  /-- The calls of `_owner.close()`. -/
  closes : ℕ

/-- The step that the constructor returns. -/
def Scope.made : Scope :=
  ⟨none, none, false, false, .prepared, .active, none, none, 0, 0, 0⟩

/-! ## The calls -/

/-- Where a call stands under the lock : in front of the read or write that the name says. -/
inductive Section where
  | attachTest
  | attachCheck
  | attachMake
  | bindTest (attempt : PyStr) (validator : Bool)
  | bindCheck (attempt : PyStr) (validator : Bool)
  | bindSet (attempt : PyStr) (validator : Bool)
  | bindValidate (attempt : PyStr) (previousAttempt : Option PyStr) (previousValidator : Bool)
  | bindWrite
  | borrowTest (attempt : PyStr)
  | borrowCheck (attempt : PyStr)
  | borrowValidate (attempt : PyStr)
  | borrowWrite
  | markTest
  | markWrite
  | finishTest
  | finishWrite
  | closeInflight
  | closeOwner
  | closeSpend
  | closeWrite
  | closeCall

/-- Where a call stands. -/
inductive Pc where
  /-- In front of `_current()`. -/
  | current (view : ℕ) (first : Section)
  /-- In front of `with _gate`. -/
  | wait (first : Section)
  | locked (s : Section)
  /-- In the body of a borrow. -/
  | holding

/-- A call; `view` is the attachment that it is made on. -/
inductive Call where
  | attach
  | bindAttempt (view : ℕ) (attempt : PyStr) (validator : Bool)
  | borrow (view : ℕ) (attempt : PyStr)
  | markFaulted (view : ℕ)
  | finish (view : ℕ)
  | close

def enter : Call → Pc
  | .attach => .wait .attachTest
  | .bindAttempt view attempt validator => .current view (.bindTest attempt validator)
  | .borrow view attempt => .current view (.borrowTest attempt)
  | .markFaulted view => .current view .markTest
  | .finish view => .current view .finishTest
  | .close => .wait .closeInflight

/-- How a check, a validator or the close of the handle ends; `fault` is a check in which the
source of the helper could not be observed. -/
inductive Answer where
  | ok
  | raise
  | fault
  deriving DecidableEq

/-- The lock is released, and the call has ended. -/
def leave (x : Scope) : Scope × Option Pc :=
  ({ x with gate := none }, none)

def goto (x : Scope) (next : Section) : Scope × Option Pc :=
  (x, some (.locked next))

/-- `_check`. -/
def check (x : Scope) (answer : Answer) (next : Section) : Scope × Option Pc :=
  if x.owner ≠ .active then leave x
  else match answer with
    | .ok => goto x next
    | .raise => leave x
    | .fault => leave { x with consume := .faulted }

/-- `_validate_attempt`, up to the answer of the validator. -/
def isAttempt (x : Scope) (attempt : PyStr) : Bool :=
  !(strip attempt).isEmpty && (attempt.all fun c => 32 ≤ c.ord && c.ord != 127) && x.validator &&
    x.attempt == some attempt

/-- One read or write under the lock. -/
def lockedMove (x : Scope) (c : ℕ) (answer : Answer) : Section → Scope × Option Pc
  | .attachTest => if x.consume = .prepared then goto x .attachCheck else leave x
  | .attachCheck => check x answer .attachMake
  | .attachMake => leave { x with
      attachment := some c, attempt := none, validator := false, consume := .attachedPending,
      views := x.views + 1 }
  | .bindTest attempt validator =>
    if x.consume = .attachedPending ∧ x.inflight = false then goto x (.bindCheck attempt validator)
    else leave x
  | .bindCheck attempt validator => check x answer (.bindSet attempt validator)
  | .bindSet attempt validator =>
    goto { x with attempt := some attempt, validator } (.bindValidate attempt x.attempt x.validator)
  | .bindValidate attempt previousAttempt previousValidator =>
    if isAttempt x attempt = true ∧ answer = .ok then goto x .bindWrite
    else leave { x with attempt := previousAttempt, validator := previousValidator }
  | .bindWrite => leave { x with consume := .attachedBound, attempts := x.attempts + 1 }
  | .borrowTest attempt =>
    if x.consume = .attachedBound ∧ x.inflight = false then goto x (.borrowCheck attempt)
    else leave x
  | .borrowCheck attempt => check x answer (.borrowValidate attempt)
  | .borrowValidate attempt =>
    if isAttempt x attempt = true ∧ answer = .ok then goto x .borrowWrite else leave x
  | .borrowWrite => ({ x with inflight := true, gate := none, borrower := some c }, some .holding)
  | .markTest =>
    if x.inflight = true ∧ (x.consume = .attachedBound ∨ x.consume = .faulted) then goto x .markWrite
    else leave x
  | .markWrite => leave { x with consume := .faulted }
  | .finishTest =>
    if x.inflight = true ∨ x.consume = .prepared then leave x else goto x .finishWrite
  | .finishWrite => leave { x with consume := if x.consume = .faulted then .faulted else .spent }
  | .closeInflight => if x.inflight = true then leave x else goto x .closeOwner
  | .closeOwner => if x.owner = .active then goto x .closeSpend else leave x
  | .closeSpend =>
    goto { x with consume := if x.consume = .faulted then .faulted else .spent } .closeWrite
  | .closeWrite => goto { x with owner := .unknown } .closeCall
  | .closeCall => leave { x with
      owner := if answer = .ok then .closed else .unknown, closes := x.closes + 1 }

/-- One atomic step of a call. -/
def move (x : Scope) (c : ℕ) (p : Pc) (answer : Answer) : Option (Scope × Option Pc) :=
  match p with
  | .current view first =>
    some (x, if x.attachment = some view then some (.wait first) else none)
  | .wait first =>
    if x.gate = none then some ({ x with gate := some c }, some (.locked first)) else none
  | .locked s => some (lockedMove x c answer s)
  | .holding => some ({ x with inflight := false, borrower := none }, none)

/-- The calls of a step. -/
def program : Program Scope Pc Call Answer :=
  ⟨enter, move⟩

/-! ## What holds -/

/-- The step lends no more. -/
def ConsumeState.Over (consume : ConsumeState) : Prop :=
  consume = .faulted ∨ consume = .spent

/-- The counters agree with the state, and the flag with the borrower. -/
structure Consistent (x : Scope) (_calls : ℕ) : Prop where
  views : x.views ≤ 1
  unattached : x.consume = .prepared → x.views = 0
  attempts : x.attempts ≤ 1
  unbound : x.consume = .prepared ∨ x.consume = .attachedPending → x.attempts = 0
  closes : x.closes ≤ 1
  open_ : x.owner = .active → x.closes = 0
  borrower : x.inflight = x.borrower.isSome

/-- What a call under the lock has read. -/
def Local (x : Scope) : Section → Prop
  | .attachCheck | .attachMake => x.consume = .prepared
  | .bindCheck .. | .bindSet .. | .bindValidate .. | .bindWrite => x.consume = .attachedPending
  | .borrowCheck _ => x.consume = .attachedBound ∧ x.inflight = false
  | .borrowValidate _ | .borrowWrite =>
    x.consume = .attachedBound ∧ x.inflight = false ∧ x.owner = .active
  | .markWrite => x.consume = .attachedBound ∨ x.consume = .faulted
  | .finishWrite => x.consume ≠ .prepared
  | .closeOwner => x.inflight = false
  | .closeSpend => x.inflight = false ∧ x.owner = .active
  | .closeWrite => x.inflight = false ∧ x.owner = .active ∧ x.consume.Over
  | .closeCall => x.inflight = false ∧ x.owner = .unknown ∧ x.closes = 0 ∧ x.consume.Over
  | .attachTest | .bindTest .. | .borrowTest _ | .markTest | .finishTest | .closeInflight => True

/-- A call begins here under the lock. -/
def Section.IsFirst : Section → Prop
  | .attachTest | .bindTest .. | .borrowTest _ | .markTest | .finishTest | .closeInflight => True
  | _ => False

/-- What a call knows where it stands. -/
def Knows (x : Scope) (c : ℕ) : Pc → Prop
  | .current _ first | .wait first => first.IsFirst
  | .locked s => x.gate = some c ∧ Local x s
  | .holding => x.borrower = some c ∧ x.owner = .active

variable {x : Scope} {n c : ℕ} {answer : Answer}

theorem over_spend (consume : ConsumeState) :
    (if consume = .faulted then ConsumeState.faulted else .spent).Over := by
  split_ifs
  · exact Or.inl rfl
  · exact Or.inr rfl

/-- The outcome of a step keeps the counters, and the call knows what it has read. -/
def Sound (n c : ℕ) (r : Scope × Option Pc) : Prop :=
  Consistent r.1 n ∧ ∀ p, r.2 = some p → Knows r.1 c p

theorem sound_leave (h : Consistent x n) : Sound n c (leave x) :=
  ⟨⟨h.views, h.unattached, h.attempts, h.unbound, h.closes, h.open_, h.borrower⟩, fun _ hp => by cases hp⟩

theorem sound_goto {s : Section} (h : Consistent x n) (hgate : x.gate = some c) (hs : Local x s) :
    Sound n c (goto x s) := by
  refine ⟨h, fun p hp => ?_⟩
  obtain rfl := Option.some.inj hp
  exact ⟨hgate, hs⟩

/-- A fault counts nothing, and ends what the counters ask of the state. -/
theorem Consistent.fault (h : Consistent x n) : Consistent { x with consume := .faulted } n :=
  ⟨h.views, fun h' => by simp at h', h.attempts, fun h' => by simp at h', h.closes, h.open_,
    h.borrower⟩

/-- Neither does the end of the step. -/
theorem Consistent.over (h : Consistent x n) :
    Consistent { x with consume := if x.consume = .faulted then .faulted else .spent } n := by
  have hover := over_spend x.consume
  refine ⟨h.views, fun h' => ?_, h.attempts, fun h' => ?_, h.closes, h.open_, h.borrower⟩
  · rcases hover with hover | hover <;> rw [hover] at h' <;> cases h'
  · rcases hover with hover | hover <;> rw [hover] at h' <;> simp at h'

theorem sound_check {s : Section} (h : Consistent x n) (hgate : x.gate = some c)
    (hs : x.owner = .active → Local x s) : Sound n c (check x answer s) := by
  unfold check
  split_ifs with howner
  · exact sound_leave h
  · cases answer with
    | ok => exact sound_goto h hgate (hs (not_not.mp howner))
    | raise => exact sound_leave h
    | fault => exact sound_leave h.fault

theorem sound_lockedMove (h : Consistent x n) (hgate : x.gate = some c) {s : Section}
    (hs : Local x s) : Sound n c (lockedMove x c answer s) := by
  cases s with
  | attachTest =>
    rw [lockedMove]
    split_ifs with hprepared
    · exact sound_goto h hgate hprepared
    · exact sound_leave h
  | attachCheck => exact sound_check h hgate fun _ => hs
  | attachMake =>
    have hviews := h.unattached hs
    have hattempts := h.unbound (Or.inl hs)
    exact sound_leave ⟨by simp [hviews], by simp, h.attempts, fun _ => hattempts, h.closes, h.open_,
      h.borrower⟩
  | bindTest attempt validator =>
    rw [lockedMove]
    split_ifs with hpending
    · exact sound_goto h hgate hpending.1
    · exact sound_leave h
  | bindCheck attempt validator => exact sound_check h hgate fun _ => hs
  | bindSet attempt validator =>
    refine sound_goto ⟨h.views, h.unattached, h.attempts, h.unbound, h.closes, h.open_,
      h.borrower⟩ hgate hs
  | bindValidate attempt previousAttempt previousValidator =>
    rw [lockedMove]
    split_ifs
    · exact sound_goto h hgate hs
    · exact sound_leave ⟨h.views, h.unattached, h.attempts, h.unbound, h.closes, h.open_, h.borrower⟩
  | bindWrite =>
    have hattempts := h.unbound (Or.inr hs)
    exact sound_leave ⟨h.views, by simp, by simp [hattempts], by simp, h.closes, h.open_, h.borrower⟩
  | borrowTest attempt =>
    rw [lockedMove]
    split_ifs with hbound
    · exact sound_goto h hgate hbound
    · exact sound_leave h
  | borrowCheck attempt => exact sound_check h hgate fun howner => ⟨hs.1, hs.2, howner⟩
  | borrowValidate attempt =>
    rw [lockedMove]
    split_ifs
    · exact sound_goto h hgate hs
    · exact sound_leave h
  | borrowWrite =>
    refine ⟨⟨h.views, h.unattached, h.attempts, h.unbound, h.closes, h.open_, rfl⟩, fun p hp => ?_⟩
    obtain rfl := Option.some.inj hp
    exact ⟨rfl, hs.2.2⟩
  | markTest =>
    rw [lockedMove]
    split_ifs with hmark
    · exact sound_goto h hgate hmark.2
    · exact sound_leave h
  | markWrite => exact sound_leave h.fault
  | finishTest =>
    rw [lockedMove]
    split_ifs with hfinish
    · exact sound_leave h
    · exact sound_goto h hgate (not_or.mp hfinish).2
  | finishWrite => exact sound_leave h.over
  | closeInflight =>
    rw [lockedMove]
    split_ifs with hinflight
    · exact sound_leave h
    · exact sound_goto h hgate (Bool.eq_false_iff.mpr hinflight)
  | closeOwner =>
    rw [lockedMove]
    split_ifs with howner
    · exact sound_goto h hgate ⟨hs, howner⟩
    · exact sound_leave h
  | closeSpend =>
    exact sound_goto h.over hgate ⟨hs.1, hs.2, over_spend _⟩
  | closeWrite =>
    have hcloses := h.open_ hs.2.1
    exact sound_goto ⟨h.views, h.unattached, h.attempts, h.unbound, h.closes, by simp, h.borrower⟩
      hgate ⟨hs.1, rfl, hcloses, hs.2.2⟩
  | closeCall =>
    have hcloses := hs.2.2.1
    refine sound_leave ⟨h.views, h.unattached, h.attempts, h.unbound, by simp [hcloses], ?_,
      h.borrower⟩
    intro howner
    split_ifs at howner

/-- While the handle is lent, the work under the lock leaves it with its borrower, and open. -/
theorem lent_lockedMove (c : ℕ) (answer : Answer) {s : Section} (hs : Local x s)
    (hlent : x.inflight = true) :
    (lockedMove x c answer s).1.borrower = x.borrower ∧
      (lockedMove x c answer s).1.owner = x.owner := by
  have hcheck : ∀ next, (check x answer next).1.borrower = x.borrower ∧
      (check x answer next).1.owner = x.owner := by
    intro next
    unfold check
    split_ifs
    · exact ⟨rfl, rfl⟩
    · cases answer <;> exact ⟨rfl, rfl⟩
  have hno : ∀ {P : Prop}, x.inflight = false → P := fun hfree => by simp [hlent] at hfree
  cases s with
  | attachCheck | bindCheck | borrowCheck => exact hcheck _
  | borrowWrite => exact hno hs.2.1
  | closeOwner | closeSpend | closeWrite | closeCall => first | exact hno hs | exact hno hs.1
  | attachMake | bindSet | bindWrite | markWrite | finishWrite => exact ⟨rfl, rfl⟩
  | _ => rw [lockedMove]; split_ifs <;> exact ⟨rfl, rfl⟩

/-- What a call under the lock has read stays when the borrower gives the handle back. -/
theorem Local.returned {s : Section} (hs : Local x s) :
    Local { x with inflight := false, borrower := none } s := by
  cases s with
  | borrowCheck attempt => exact ⟨hs.1, rfl⟩
  | borrowValidate attempt => exact ⟨hs.1, rfl, hs.2.2⟩
  | borrowWrite => exact ⟨hs.1, rfl, hs.2.2⟩
  | closeOwner => exact rfl
  | closeSpend => exact ⟨rfl, hs.2⟩
  | closeWrite => exact ⟨rfl, hs.2⟩
  | closeCall => exact ⟨rfl, hs.2⟩
  | _ => exact hs

variable {x' : Scope} {p : Pc} {r : Option Pc}

theorem Section.IsFirst.local {s : Section} (h : s.IsFirst) : Local x s := by
  cases s <;> first | exact trivial | exact h.elim

/-- A call keeps the counters, and knows where it stands then. -/
theorem sound_move (h : Consistent x n) (hp : Knows x c p)
    (hmove : move x c p answer = some (x', r)) : Sound n c (x', r) := by
  cases p with
  | current view first =>
    have hfirst : first.IsFirst := hp
    obtain ⟨rfl, rfl⟩ := Prod.mk.inj (Option.some.inj hmove)
    refine ⟨h, fun p hp => ?_⟩
    dsimp only at hp
    split_ifs at hp with hview
    obtain rfl := Option.some.inj hp
    exact hfirst
  | wait first =>
    have hfirst : first.IsFirst := hp
    simp only [move] at hmove
    split_ifs at hmove with hgate
    obtain ⟨rfl, rfl⟩ := Prod.mk.inj (Option.some.inj hmove)
    refine ⟨⟨h.views, h.unattached, h.attempts, h.unbound, h.closes, h.open_, h.borrower⟩,
      fun p hp => ?_⟩
    obtain rfl := Option.some.inj hp
    exact ⟨rfl, hfirst.local⟩
  | locked s =>
    rw [← Option.some.inj hmove]
    exact sound_lockedMove h hp.1 hp.2
  | holding =>
    obtain ⟨rfl, rfl⟩ := Prod.mk.inj (Option.some.inj hmove)
    exact ⟨⟨h.views, h.unattached, h.attempts, h.unbound, h.closes, h.open_, rfl⟩,
      fun p hp => by cases hp⟩

/-- What the other calls know stays. -/
theorem knows_other {d : ℕ} {q : Pc} (h : Consistent x n) (hp : Knows x c p) (hne : d ≠ c)
    (hq : Knows x d q) (hmove : move x c p answer = some (x', r)) : Knows x' d q := by
  cases p with
  | current view first =>
    obtain ⟨rfl, rfl⟩ := Prod.mk.inj (Option.some.inj hmove)
    exact hq
  | wait first =>
    simp only [move] at hmove
    split_ifs at hmove with hgate
    obtain ⟨rfl, rfl⟩ := Prod.mk.inj (Option.some.inj hmove)
    cases q with
    | locked s => cases hgate.symm.trans hq.1
    | _ => exact hq
  | locked s =>
    obtain rfl : (lockedMove x c answer s).1 = x' := congrArg Prod.fst (Option.some.inj hmove)
    cases q with
    | locked s' => exact absurd (Option.some.inj (hq.1.symm.trans hp.1)) hne
    | holding =>
      have hlent : x.inflight = true := by rw [h.borrower, hq.1]; rfl
      obtain ⟨hborrower, howner⟩ := lent_lockedMove c answer hp.2 hlent
      exact ⟨hborrower.trans hq.1, howner.trans hq.2⟩
    | _ => exact hq
  | holding =>
    obtain ⟨rfl, rfl⟩ := Prod.mk.inj (Option.some.inj hmove)
    cases q with
    | locked s => exact ⟨hq.1, hq.2.returned⟩
    | holding => exact absurd (Option.some.inj (hq.1.symm.trans hp.1)) hne
    | _ => exact hq

/-- Every interleaving keeps the counters and what each call knows. -/
theorem rule : Rule program (fun _ _ => True) Consistent Knows where
  enter x n m h :=
    ⟨⟨h.views, h.unattached, h.attempts, h.unbound, h.closes, h.open_, h.borrower⟩,
      by cases m <;> exact trivial⟩
  own s c p answer x q hs _ hc hmove := sound_move hs.shared (hs.calls c p hc) hmove
  other s c p answer x q d p' hs _ hc hmove hd hne :=
    knows_other hs.shared (hs.calls c p hc) hne (hs.calls d p' hd) hmove

/-- A state of an interleaving. -/
abbrev Run := State Scope Pc

/-- An action of an interleaving. -/
abbrev Act := Action Call Answer

theorem over_lockedMove {s : Section} (hs : Local x s) (hover : x.consume.Over) :
    (lockedMove x c answer s).1.consume.Over := by
  have hcheck : ∀ next, (check x answer next).1.consume.Over := by
    intro next
    unfold check
    split_ifs
    · exact hover
    · cases answer
      · exact hover
      · exact hover
      · exact Or.inl rfl
  cases s with
  | attachCheck | bindCheck | borrowCheck => exact hcheck _
  | attachMake | bindWrite =>
    -- neither runs when the step is over
    rw [ConsumeState.Over, show x.consume = _ from hs] at hover
    simp at hover
  | markWrite => exact Or.inl rfl
  | finishWrite | closeSpend => exact over_spend _
  | bindSet | borrowWrite | closeWrite | closeCall => exact hover
  | _ => rw [lockedMove]; split_ifs <;> exact hover

/-- A step that is faulted or spent stays so. -/
theorem over_move (hp : Knows x c p) (hmove : move x c p answer = some (x', r))
    (hover : x.consume.Over) : x'.consume.Over := by
  cases p with
  | current view first =>
    obtain ⟨rfl, -⟩ := Prod.mk.inj (Option.some.inj hmove)
    exact hover
  | wait first =>
    simp only [move] at hmove
    split_ifs at hmove
    obtain ⟨rfl, -⟩ := Prod.mk.inj (Option.some.inj hmove)
    exact hover
  | locked s =>
    obtain rfl : (lockedMove x c answer s).1 = x' := congrArg Prod.fst (Option.some.inj hmove)
    exact over_lockedMove hp.2 hover
  | holding =>
    obtain ⟨rfl, -⟩ := Prod.mk.inj (Option.some.inj hmove)
    exact hover

/-- A borrow begins with an open handle and a bound attempt. -/
theorem bound_of_lent (hp : Knows x c p) (hmove : move x c p answer = some (x', some .holding)) :
    x.owner = .active ∧ x.consume = .attachedBound := by
  cases p with
  | current view first =>
    obtain ⟨-, hr⟩ := Prod.mk.inj (Option.some.inj hmove)
    split_ifs at hr
    cases hr
  | wait first =>
    simp only [move] at hmove
    split_ifs at hmove
    simp at hmove
  | locked s =>
    have hr : (lockedMove x c answer s).2 = some .holding :=
      congrArg Prod.snd (Option.some.inj hmove)
    have hcheck : ∀ next, (check x answer next).2 ≠ some .holding := by
      intro next
      unfold check
      split_ifs
      · simp [leave]
      · cases answer <;> simp [leave, goto]
    cases s with
    | borrowWrite => exact ⟨hp.2.2.2, hp.2.1⟩
    | attachCheck | bindCheck | borrowCheck => exact absurd hr (hcheck _)
    | attachMake | bindSet | bindWrite | markWrite | finishWrite | closeSpend | closeWrite |
        closeCall => simp [lockedMove, leave, goto] at hr
    | _ => rw [lockedMove] at hr; split_ifs at hr <;> simp [leave, goto] at hr
  | holding =>
    obtain ⟨-, hr⟩ := Prod.mk.inj (Option.some.inj hmove)
    cases hr

/-! ## Every interleaving -/

/-- The call has the handle. -/
def Lent (s : Run) (c : ℕ) : Prop :=
  s.calls c = some .holding

/-- What is true of a state of an interleaving, and of what may follow it. -/
structure Lifecycle (s : Run) : Prop where
  /-- At most one attachment is made, and one attempt bound. -/
  views : s.shared.views ≤ 1
  attempts : s.shared.attempts ≤ 1
  /-- The handle is closed at most once. -/
  closes : s.shared.closes ≤ 1
  /-- There is one borrower at most. -/
  unique : ∀ c d, Lent s c → Lent s d → c = d
  /-- The handle is not closed while it is lent. -/
  apart : ∀ c d, s.calls c = some (.locked .closeCall) → ¬Lent s d
  /-- A borrow begins only when the handle is open and the step neither faulted nor spent. -/
  lends : ∀ a s' c, s.step program a = some s' → Lent s' c → ¬Lent s c →
    s.shared.owner = .active ∧ s.shared.consume = .attachedBound
  /-- Once faulted or spent, the step never lends again. -/
  ended : s.shared.consume.Over → ∀ as t a t' c,
    Transition.run (State.step program) s as = some t → t.step program a = some t' →
      Lent t' c → Lent t c

/-- A call that has the handle after an action, and not before it, has just begun its borrow. -/
theorem bound_of_step {s s' : Run} {a : Act} (h : Holds Consistent Knows s)
    (hstep : s.step program a = some s') (hc : Lent s' c) (hnot : ¬Lent s c) :
    s.shared.owner = .active ∧ s.shared.consume = .attachedBound := by
  cases a with
  | enter m =>
    obtain rfl := Option.some.inj hstep
    unfold Lent at hc
    dsimp only at hc
    by_cases hnew : c = s.next
    · subst hnew
      rw [Function.update_self] at hc
      cases m <;> simp [program, enter] at hc
    · rw [Function.update_of_ne hnew] at hc
      exact absurd hc hnot
  | move d answer =>
    obtain ⟨p, x', q, hd, hmove, rfl⟩ := State.step_move.mp hstep
    unfold Lent at hc
    dsimp only at hc
    by_cases hcd : c = d
    · subst hcd
      rw [Function.update_self] at hc
      subst hc
      exact bound_of_lent (h.calls c p hd) hmove
    · rw [Function.update_of_ne hcd] at hc
      exact absurd hc hnot

theorem over_step {s s' : Run} {a : Act} (h : Holds Consistent Knows s)
    (hover : s.shared.consume.Over) (hstep : s.step program a = some s') :
    s'.shared.consume.Over := by
  cases a with
  | enter m =>
    obtain rfl := Option.some.inj hstep
    exact hover
  | move d answer =>
    obtain ⟨p, x', q, hd, hmove, rfl⟩ := State.step_move.mp hstep
    exact over_move (h.calls d p hd) hmove hover

/-- The assertions give the lifecycle. -/
theorem lifecycle_of_holds {s : Run} (h : Holds Consistent Knows s) : Lifecycle s where
  views := h.shared.views
  attempts := h.shared.attempts
  closes := h.shared.closes
  unique c d hc hd := by
    have hc' : s.shared.borrower = some c := (h.calls c _ hc).1
    have hd' : s.shared.borrower = some d := (h.calls d _ hd).1
    exact Option.some.inj (hc'.symm.trans hd')
  apart c d hc hd := by
    have hfree : s.shared.inflight = false := (h.calls c _ hc).2.1
    have hd' : s.shared.borrower = some d := (h.calls d _ hd).1
    have hborrower := h.shared.borrower
    rw [hfree, hd'] at hborrower
    cases hborrower
  lends a s' c hstep hc hnot := bound_of_step h hstep hc hnot
  ended hover as t a t' c hrun hstep hc := by
    obtain ⟨ht, hover'⟩ := Transition.run_invariant
      (I := fun u => Holds Consistent Knows u ∧ u.shared.consume.Over)
      (fun u b u' hu hb => ⟨rule.of_step hu.1 trivial hb, over_step hu.1 hu.2 hb⟩) ⟨h, hover⟩ hrun
    by_contra hnot
    have hbound := (bound_of_step ht hstep hc hnot).2
    rw [ConsumeState.Over, hbound] at hover'
    simp at hover'

/-- In every interleaving of the calls of a prepared step, the lifecycle holds in every state. -/
theorem lifecycle (as : List Act) :
    Transition.Always (State.step program) Lifecycle (State.initial Scope.made) as :=
  Transition.always_of_invariant (I := Holds Consistent Knows) (fun _ => lifecycle_of_holds)
    (fun _ _ _ hs hstep => rule.of_step hs trivial hstep)
    (holds_initial ⟨by decide, fun _ => rfl, by decide, fun _ => rfl, by decide, fun _ => rfl, rfl⟩)

def sampleCalls : List Act :=
  .enter .attach :: (List.replicate 4 (.move 0 .ok) ++
    .enter (.bindAttempt 0 "a" true) :: (List.replicate 7 (.move 1 .ok) ++
      .enter (.borrow 0 "a") :: List.replicate 6 (.move 2 .ok)))

/-- An attachment is made and bound, and lends the handle. -/
example : ((Transition.run (State.step program) (State.initial Scope.made) sampleCalls).bind
    fun s => s.calls 2) = some .holding := by
  rfl

end Icode.PreparedStep
