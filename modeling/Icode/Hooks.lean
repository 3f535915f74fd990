import Icode.SandboxPolicy
import Icode.Transition
import Mathlib.Data.Finset.Basic

/-!
# Hooks

A hook proposes to tighten the scope of the guard, or the policy of a step. `apply_guard_tightenings`
hands each hook the two sets of the scope as it stands, and compares what the hook returns with them
afterwards. The sets are handed over as they are, so a hook may change them in place: a call of a hook
(`GuardCall`) is what it returns or raises, with the sets as they are when they are compared, and
when it is over.

What a scope imposes is a set of restrictions (`Imposes`). A hook that is refused after it has
changed the sets has changed the scope (`refusedHook_loosens`), and one that takes a restriction out
in place may leave it out of its candidate. `hooks_only_tighten` says that nothing else loosens
anything; policies are values, and the returned one is always accepted against the base.
-/

namespace Icode

open Py Transition

/-! ## The calls of hooks -/

/-- `HOOK_EVENTS` -/
inductive HookEvent where
  | preTool
  | preStep
  | observe
  deriving DecidableEq

/-- A `Hook`, by what the audit says of it. -/
structure Hook where
  name : PyStr
  event : HookEvent
  deriving DecidableEq

/-- The `code` of an audit record; the empty text is left out of the record. -/
inductive AuditCode where
  | text (code : PyStr)
  | policy (e : PolicyError)
  deriving DecidableEq

/-- A record of the audit. -/
structure HookAudit where
  hook : Hook
  applied : Bool
  code : AuditCode
  deriving DecidableEq

/-- What is raised while a hook is called or its candidate is judged. -/
inductive Raised where
  /-- A `ContractError`, `TypeError` or `ValueError`, by its text. -/
  | known (text : PyStr)
  /-- A `PolicyValidationError`. -/
  | policy (e : PolicyError)
  /-- Another `Exception`, by the name of its type. -/
  | other (typeName : PyStr)
  /-- No `Exception`, or one whose text raises again. -/
  | escapes
  deriving DecidableEq

/-- The code of the audit; `none` if the exception is not caught. -/
def Raised.code? : Raised → Option AuditCode
  | .known text => some (.text (text.takeWhile (· ≠ CodePoint.scalar ':')))
  | .policy e => some (.policy e)
  | .other typeName => some (.text (lit "hook_error:" ++ typeName))
  | .escapes => none

/-- The audit record of a call that is refused. -/
def refusal (hook : Hook) (e : Raised) : Option HookAudit :=
  e.code?.map (⟨hook, false, ·⟩)

/-! ## The guard -/

variable {α : Type*} [DecidableEq α]

/-- The deny set and the allow set of the guard. -/
structure GuardScope (α : Type*) where
  deny : Finset α
  allow : Finset α
  deriving DecidableEq

/-- What a call of `hook.tighten` does; `checked` is the scope when it is compared. -/
inductive GuardAnswer (α : Type*) where
  | raises (e : Raised)
  /-- The candidate is no pair. -/
  | noPair
  /-- The candidate is a pair, which may raise when it is read. -/
  | pair (checked : GuardScope α) (candidate : Except Raised (GuardScope α))

/-- A call of a hook; `left` is the scope it leaves behind in the sets it was handed. -/
structure GuardCall (α : Type*) where
  hook : Hook
  answer : GuardAnswer α
  left : GuardScope α

/-- `tighten_guard_scope`. -/
def tightenGuardScope (base candidate : GuardScope α) : Except Raised (GuardScope α) :=
  if ¬base.deny ⊆ candidate.deny then
    .error (.known (lit "guard_tightening_removes_deny: 收紧不得移除既有拒绝"))
  else if ¬candidate.allow ⊆ base.allow then
    .error (.known (lit "guard_tightening_expands_allowlist: 收紧不得扩张白名单"))
  else .ok candidate

/-- The variables of `apply_guard_tightenings`. -/
structure GuardState (α : Type*) where
  scope : GuardScope α
  audit : List HookAudit

namespace GuardCall

/-- What the body of the loop comes to. -/
def judge (c : GuardCall α) : Except Raised (GuardScope α) :=
  match c.answer with
  | .raises e => .error e
  | .noPair => .error (.known (lit "hook_tighten_shape: 需要 (deny, allow) 二元组"))
  | .pair checked candidate => candidate.bind (tightenGuardScope checked)

end GuardCall

/-- One turn of the loop of `apply_guard_tightenings`. -/
def guardStep (x : GuardState α) (c : GuardCall α) : Option (GuardState α) :=
  match c.judge with
  | .error e => (refusal c.hook e).map fun record => ⟨c.left, x.audit ++ [record]⟩
  | .ok scope => some ⟨scope, x.audit ++ [⟨c.hook, true, .text []⟩]⟩

/-- `apply_guard_tightenings`. -/
def applyGuardTightenings (hooks : List (GuardCall α)) (deny allow : Finset α) :
    Option (Finset α × Finset α × List HookAudit) :=
  (run guardStep ⟨⟨deny, allow⟩, []⟩ hooks).map fun x => (x.scope.deny, x.scope.allow, x.audit)

/-! ## Policies -/

/-- What a call of `hook.tighten` does with a policy; a policy is frozen. -/
inductive PolicyAnswer where
  | raises (e : Raised)
  /-- The candidate is no `SandboxPolicy`. -/
  | noPolicy
  | candidate (fields : PolicyFields)

structure PolicyCall where
  hook : Hook
  answer : PolicyAnswer

/-- `tighten_policy`, of a candidate that may not be valid. -/
def tightenFields (base : SandboxPolicy) (candidate : PolicyFields) :
    Except Raised SandboxPolicy :=
  if h : candidate.validate = .ok () then
    (SandboxPolicy.tightenPolicy base ⟨candidate, h⟩).mapError .policy
  else .error (.policy .candidateInvalid)

/-- The variables of `apply_policy_tightenings`. -/
structure PolicyState where
  current : SandboxPolicy
  audit : List HookAudit

/-- What the body of the loop comes to. -/
def PolicyCall.judge (current : SandboxPolicy) (c : PolicyCall) : Except Raised SandboxPolicy :=
  match c.answer with
  | .raises e => .error e
  | .noPolicy => .error (.known (lit "hook_tighten_type: 需要 SandboxPolicy 候选"))
  | .candidate fields => tightenFields current fields

/-- One turn of the loop of `apply_policy_tightenings`. -/
def policyStep (x : PolicyState) (c : PolicyCall) : Option PolicyState :=
  match c.judge x.current with
  | .error e => (refusal c.hook e).map fun record => ⟨x.current, x.audit ++ [record]⟩
  | .ok p => some ⟨p, x.audit ++ [⟨c.hook, true, .text []⟩]⟩

/-- `apply_policy_tightenings`. -/
def applyPolicyTightenings (hooks : List PolicyCall) (base : SandboxPolicy) :
    Option (SandboxPolicy × List HookAudit) :=
  (run policyStep ⟨base, []⟩ hooks).map fun x => (x.current, x.audit)

/-! ## Restrictions -/

/-- A name is denied, or not on the allow list. -/
inductive Restriction (α : Type*) where
  | deny (name : α)
  | disallow (name : α)

namespace GuardScope

/-- The restrictions of a scope. -/
def Imposes (s : GuardScope α) : Restriction α → Prop
  | .deny name => name ∈ s.deny
  | .disallow name => name ∉ s.allow

/-- The second scope denies no less and allows no more. -/
def Tighter (s t : GuardScope α) : Prop :=
  s.deny ⊆ t.deny ∧ t.allow ⊆ s.allow

theorem tighter_iff {s t : GuardScope α} : s.Tighter t ↔ ∀ r, s.Imposes r → t.Imposes r := by
  constructor
  · rintro ⟨hdeny, hallow⟩ (name | name) h
    · exact hdeny h
    · exact fun ht => h (hallow ht)
  · intro h
    refine ⟨fun name hs => h (.deny name) hs, fun name ht => ?_⟩
    by_contra hs
    exact h (.disallow name) hs ht

end GuardScope

theorem tightenGuardScope_eq_ok {base candidate s : GuardScope α} :
    tightenGuardScope base candidate = .ok s ↔ base.Tighter candidate ∧ s = candidate := by
  unfold tightenGuardScope
  by_cases hdeny : base.deny ⊆ candidate.deny
  · by_cases hallow : candidate.allow ⊆ base.allow
    · simp [GuardScope.Tighter, hdeny, hallow, eq_comm]
    · simp [GuardScope.Tighter, hdeny, hallow]
  · simp [GuardScope.Tighter, hdeny]

namespace GuardCall

theorem judge_eq_ok {c : GuardCall α} {s : GuardScope α} :
    c.judge = .ok s ↔ ∃ checked, c.answer = .pair checked (.ok s) ∧ checked.Tighter s := by
  unfold judge
  split
  · rename_i he
    simp [he]
  · rename_i he
    simp [he]
  · rename_i checked candidate he
    cases candidate with
    | error e => simp [he, Except.bind]
    | ok t =>
      simp only [Except.bind, tightenGuardScope_eq_ok, he, GuardAnswer.pair.injEq, Except.ok.injEq]
      constructor
      · rintro ⟨ht, rfl⟩
        exact ⟨checked, ⟨rfl, rfl⟩, ht⟩
      · rintro ⟨_, ⟨rfl, rfl⟩, ht⟩
        exact ⟨ht, rfl⟩

/-- The hook is applied, and its candidate has the restriction. -/
def Imposes (c : GuardCall α) (r : Restriction α) : Prop :=
  ∃ s, c.judge = .ok s ∧ s.Imposes r

/-- The hook is applied, has taken the restriction out of the sets in place, and leaves it out of its
candidate. -/
def Lifts (c : GuardCall α) (r : Restriction α) : Prop :=
  ∃ checked s, c.answer = .pair checked (.ok s) ∧ c.judge = .ok s ∧ ¬checked.Imposes r ∧
    ¬s.Imposes r

/-- A hook that is refused leaves the sets it was handed as they were. -/
def Spares (x : GuardState α) (c : GuardCall α) : Prop :=
  (∀ s, c.judge ≠ .ok s) → c.left = x.scope

end GuardCall

/-! ## What is claimed -/

/-- The scope before the first hook. -/
def guardStart (deny allow : Finset α) : GuardState α :=
  ⟨⟨deny, allow⟩, []⟩

/-- A call that is audited as not applied has left the scope as it was. -/
def GuardUnchanged (x : GuardState α) (c : GuardCall α) : Prop :=
  ∀ x' record, guardStep x c = some x' → x'.audit = x.audit ++ [record] → record.applied = false →
    x'.scope = x.scope

/-- The returned sets are no looser than those at the start, and no refused hook has changed any. -/
structure GuardTightens (deny allow : Finset α) (hooks : List (GuardCall α)) : Prop where
  tighter : ∀ d a audit, applyGuardTightenings hooks deny allow = some (d, a, audit) →
    deny ⊆ d ∧ a ⊆ allow
  refused : (applyGuardTightenings hooks deny allow).isSome = true →
    Along guardStep GuardUnchanged (guardStart deny allow) hooks

/-- A call that is audited as not applied has left the policy as it was. -/
def PolicyUnchanged (x : PolicyState) (c : PolicyCall) : Prop :=
  ∀ x' record, policyStep x c = some x' → x'.audit = x.audit ++ [record] →
    record.applied = false → x'.current = x.current

/-- The returned policy is accepted against the base, and no refused hook has changed any. -/
structure PolicyTightens (base : SandboxPolicy) (hooks : List PolicyCall) : Prop where
  accepted : ∀ p audit, applyPolicyTightenings hooks base = some (p, audit) →
    ∃ r, SandboxPolicy.tightenPolicy base p = .ok r
  refused : Along policyStep PolicyUnchanged ⟨base, []⟩ hooks

/-- Every refused hook leaves the sets it was handed as they were; and a restriction that was there at
the start and is taken out in place by a hook that is applied is in the candidate of a later one. -/
structure Restrained (deny allow : Finset α) (hooks : List (GuardCall α)) : Prop where
  spared : Along guardStep GuardCall.Spares (guardStart deny allow) hooks
  restored : ∀ r, (guardStart deny allow).scope.Imposes r → ∀ pre c post,
    hooks = pre ++ c :: post → c.Lifts r → ∃ c' ∈ post, c'.Imposes r

/-! ## Hooks on the guard -/

variable {x x' : GuardState α} {c : GuardCall α} {hooks : List (GuardCall α)} {r : Restriction α}

theorem guardStep_of_ok {s : GuardScope α} (h : c.judge = .ok s) (hs : guardStep x c = some x') :
    x' = ⟨s, x.audit ++ [⟨c.hook, true, .text []⟩]⟩ := by
  unfold guardStep at hs
  rw [h] at hs
  exact (Option.some.inj hs).symm

theorem guardStep_of_error {e : Raised} (h : c.judge = .error e) (hs : guardStep x c = some x') :
    ∃ record, refusal c.hook e = some record ∧ x' = ⟨c.left, x.audit ++ [record]⟩ := by
  unfold guardStep at hs
  rw [h] at hs
  obtain ⟨record, hr, rfl⟩ := Option.map_eq_some_iff.mp hs
  exact ⟨record, hr, rfl⟩

theorem refusal_applied {hook : Hook} {e : Raised} {record : HookAudit}
    (h : refusal hook e = some record) : record.applied = false := by
  obtain ⟨code, -, rfl⟩ := Option.map_eq_some_iff.mp h
  rfl

/-- Exactly the hooks that leave the sets as they were change nothing when they are refused. -/
theorem spares_iff (hs : guardStep x c = some x') : c.Spares x ↔ GuardUnchanged x c := by
  cases hj : c.judge with
  | ok s =>
    refine ⟨fun _ x'' record hs'' ha hr => ?_, fun _ hn => absurd hj (hn s)⟩
    obtain rfl := guardStep_of_ok hj hs''
    have hrecord := List.append_cancel_left ha
    rw [← List.singleton_inj.mp hrecord] at hr
    cases hr
  | error e =>
    obtain ⟨record, hrecord, rfl⟩ := guardStep_of_error hj hs
    have hnot : ∀ s, c.judge ≠ .ok s := by simp [hj]
    refine ⟨fun hspares x'' record' hs'' _ _ => ?_, fun hunchanged _ => ?_⟩
    · obtain ⟨-, -, rfl⟩ := guardStep_of_error hj hs''
      exact hspares hnot
    · exact hunchanged _ record hs rfl (refusal_applied hrecord)

theorem along_spares_iff : ∀ {hooks : List (GuardCall α)} {x : GuardState α},
    Along guardStep GuardCall.Spares x hooks ↔ Along guardStep GuardUnchanged x hooks
  | [], _ => Iff.rfl
  | c :: cs, x => by
    refine forall_congr' fun x' => forall_congr' fun hs => ?_
    rw [spares_iff hs, along_spares_iff]

/-- A restriction that is there at the end was put there by a hook, or was there before. -/
theorem imposes_of_run : ∀ {hooks : List (GuardCall α)} {x x' : GuardState α},
    Along guardStep GuardCall.Spares x hooks → run guardStep x hooks = some x' →
      x'.scope.Imposes r → x.scope.Imposes r ∨ ∃ c ∈ hooks, c.Imposes r
  | [], x, x', _, hr, h => by
    obtain rfl := Option.some.inj hr
    exact Or.inl h
  | c :: cs, x, x', ha, hr, h => by
    obtain ⟨y, hy, hr⟩ := run_cons.mp hr
    obtain ⟨hspares, ha⟩ := ha y hy
    rcases imposes_of_run ha hr h with hyr | ⟨c', hc', hr'⟩
    · cases hj : c.judge with
      | ok s =>
        obtain rfl := guardStep_of_ok hj hy
        exact Or.inr ⟨c, List.mem_cons_self, s, hj, hyr⟩
      | error e =>
        obtain ⟨record, -, rfl⟩ := guardStep_of_error hj hy
        exact Or.inl (hspares (by simp [hj]) ▸ hyr)
    · exact Or.inr ⟨c', List.mem_cons_of_mem _ hc', hr'⟩

/-- A restriction that is there, or is put there by a hook, is there at the end unless it is taken out
in place and not put there again. -/
theorem imposes_at_end : ∀ {hooks : List (GuardCall α)} {x x' : GuardState α},
    Along guardStep GuardCall.Spares x hooks → run guardStep x hooks = some x' →
      (∀ pre c post, hooks = pre ++ c :: post → c.Lifts r → ∃ c' ∈ post, c'.Imposes r) →
        (x.scope.Imposes r ∨ ∃ c ∈ hooks, c.Imposes r) → x'.scope.Imposes r
  | [], x, x', _, hr, _, h => by
    obtain rfl := Option.some.inj hr
    exact h.resolve_right (by simp)
  | c :: cs, x, x', ha, hr, hrestored, h => by
    obtain ⟨y, hy, hr⟩ := run_cons.mp hr
    obtain ⟨hspares, ha⟩ := ha y hy
    refine imposes_at_end ha hr (fun pre c' post he => hrestored (c :: pre) c' post (by rw [he]; rfl)) ?_
    cases hj : c.judge with
    | error e =>
      -- A refused hook leaves the scope as it is.
      obtain ⟨record, -, rfl⟩ := guardStep_of_error hj hy
      have hleft := hspares (by simp [hj])
      rcases h with hx | ⟨c', hc', s, hs, himposes⟩
      · exact Or.inl (hleft ▸ hx)
      · rcases List.mem_cons.mp hc' with rfl | hc'
        · cases hj.symm.trans hs
        · exact Or.inr ⟨c', hc', s, hs, himposes⟩
    | ok s =>
      obtain rfl := guardStep_of_ok hj hy
      by_cases hs : s.Imposes r
      · exact Or.inl hs
      refine Or.inr ?_
      rcases h with hx | ⟨c', hc', t, ht, himposes⟩
      · -- The candidate lacks what the sets lacked when they were compared.
        obtain ⟨checked, hanswer, htighter⟩ := (GuardCall.judge_eq_ok).mp hj
        have hchecked : ¬checked.Imposes r := fun hc => hs (GuardScope.tighter_iff.mp htighter r hc)
        exact hrestored [] c cs rfl ⟨checked, s, hanswer, hj, hchecked, hs⟩
      · rcases List.mem_cons.mp hc' with rfl | hc'
        · obtain rfl := Except.ok.inj (hj.symm.trans ht)
          exact absurd himposes hs
        · exact ⟨c', hc', t, ht, himposes⟩

/-- A restriction that a hook takes out in place and that is there at the end has been put there
again. -/
theorem restored_of_imposes (ha : Along guardStep GuardCall.Spares x hooks)
    (hr : run guardStep x hooks = some x') (h : x'.scope.Imposes r) {pre post : List (GuardCall α)}
    (he : hooks = pre ++ c :: post) (hlifts : c.Lifts r) : ∃ c' ∈ post, c'.Imposes r := by
  subst he
  obtain ⟨checked, s, -, hj, -, hs⟩ := hlifts
  obtain ⟨u, hu, hr⟩ := run_append.mp hr
  obtain ⟨y, hy, hr⟩ := run_cons.mp hr
  have hpost := ((ha.of_append hu) y hy).2
  obtain rfl := guardStep_of_ok hj hy
  exact (imposes_of_run hpost hr h).resolve_left hs

theorem guardStep_eq_none : guardStep x c = none ↔ c.judge = .error .escapes := by
  unfold guardStep
  cases c.judge with
  | ok s => simp
  | error e => cases e <;> simp [refusal, Raised.code?]

/-- The hooks return unless one of them lets an exception escape. -/
theorem run_isSome_iff : ∀ {hooks : List (GuardCall α)} {x : GuardState α},
    (run guardStep x hooks).isSome = true ↔ ∀ c ∈ hooks, c.judge ≠ .error .escapes
  | [], x => by simp [run]
  | c :: cs, x => by
    rw [List.forall_mem_cons, run]
    cases hs : guardStep x c with
    | none => simp [(guardStep_eq_none).mp hs]
    | some y =>
      have hc : c.judge ≠ .error .escapes := fun he => by
        rw [(guardStep_eq_none).mpr he] at hs
        cases hs
      rw [← run_isSome_iff]
      exact ⟨fun h => ⟨hc, h⟩, fun h => h.2⟩

theorem applyGuardTightenings_eq_some {deny allow d a : Finset α} {audit : List HookAudit} :
    applyGuardTightenings hooks deny allow = some (d, a, audit) ↔
      run guardStep (guardStart deny allow) hooks = some ⟨⟨d, a⟩, audit⟩ := by
  unfold applyGuardTightenings guardStart
  rw [Option.map_eq_some_iff]
  constructor
  · rintro ⟨y, hy, he⟩
    cases he
    exact hy
  · exact fun h => ⟨_, h, rfl⟩

theorem guardTightens_iff {deny allow : Finset α} : GuardTightens deny allow hooks ↔
    ((∀ c ∈ hooks, c.judge ≠ .error .escapes) → Restrained deny allow hooks) := by
  constructor
  · intro h hreturns
    obtain ⟨y, hy⟩ := Option.isSome_iff_exists.mp (run_isSome_iff.mpr hreturns)
    have hsome : applyGuardTightenings hooks deny allow =
        some (y.scope.deny, y.scope.allow, y.audit) := (applyGuardTightenings_eq_some).mpr hy
    have hspared := (along_spares_iff).mpr (h.refused (by rw [hsome]; rfl))
    refine ⟨hspared, fun r hr pre c post he hlifts => restored_of_imposes hspared hy ?_ he hlifts⟩
    have htighter : (guardStart deny allow).scope.Tighter y.scope := h.tighter _ _ _ hsome
    exact (GuardScope.tighter_iff).mp htighter r hr
  · intro h
    have hrestrained : ∀ {y}, run guardStep (guardStart deny allow) hooks = some y →
        Restrained deny allow hooks := fun hy => h (run_isSome_iff.mp (by rw [hy]; rfl))
    refine ⟨fun d a audit hsome => ?_, fun hsome => ?_⟩
    · have hy := (applyGuardTightenings_eq_some).mp hsome
      obtain ⟨hspared, hrestored⟩ := hrestrained hy
      exact (GuardScope.tighter_iff).mpr fun r hr =>
        imposes_at_end hspared hy (hrestored r hr) (Or.inl hr)
    · obtain ⟨⟨d, a, audit⟩, hsome⟩ := Option.isSome_iff_exists.mp hsome
      exact (along_spares_iff).mp (hrestrained (applyGuardTightenings_eq_some.mp hsome)).spared

/-! ## Hooks on policies -/

theorem policyStep_narrower {y y' : PolicyState} {c : PolicyCall} (hs : policyStep y c = some y') :
    SandboxPolicy.Narrower y.current y'.current := by
  unfold policyStep at hs
  split at hs
  · obtain ⟨record, -, rfl⟩ := Option.map_eq_some_iff.mp hs
    exact .refl _
  · rename_i p hj
    obtain rfl := Option.some.inj hs
    unfold PolicyCall.judge at hj
    split at hj
    · cases hj
    · cases hj
    · unfold tightenFields at hj
      split at hj
      · rename_i fields _ hvalid
        cases ht : SandboxPolicy.tightenPolicy y.current ⟨fields, hvalid⟩ with
        | error e => simp [ht, Except.mapError] at hj
        | ok q =>
          rw [ht] at hj
          obtain rfl := Except.ok.inj hj
          obtain ⟨hnarrower, rfl⟩ := SandboxPolicy.tightenPolicy_eq_ok.mp ht
          exact hnarrower
      · cases hj

theorem policyUnchanged (y : PolicyState) (c : PolicyCall) : PolicyUnchanged y c := by
  intro y' record hs ha hr
  unfold policyStep at hs
  split at hs
  · obtain ⟨_, -, rfl⟩ := Option.map_eq_some_iff.mp hs
    rfl
  · obtain rfl := Option.some.inj hs
    rw [← List.singleton_inj.mp (List.append_cancel_left ha)] at hr
    cases hr

theorem policyTightens (base : SandboxPolicy) (hooks : List PolicyCall) :
    PolicyTightens base hooks where
  accepted p audit h := by
    obtain ⟨y, hy, he⟩ := Option.map_eq_some_iff.mp h
    obtain ⟨rfl, rfl⟩ := Prod.mk.inj he
    have hkeeps : ∀ (y : PolicyState) (c : PolicyCall) (y' : PolicyState),
        SandboxPolicy.Narrower base y.current → policyStep y c = some y' →
          SandboxPolicy.Narrower base y'.current :=
      fun _ _ _ hb hs => hb.trans (policyStep_narrower hs)
    have hnarrower := run_invariant hkeeps (.refl base) hy
    exact ⟨_, SandboxPolicy.tightenPolicy_eq_ok.mpr ⟨hnarrower, rfl⟩⟩
  refused := along_of_forall policyUnchanged hooks _

/-! ## Hooks only tighten -/

/-- The hooks only tighten exactly when a hook that is refused spares the sets it was handed, and
what a hook that is applied takes out of them in place is put there again; unless an exception
escapes. -/
theorem hooks_only_tighten (deny allow : Finset α) (hooks : List (GuardCall α))
    (base : SandboxPolicy) (policyHooks : List PolicyCall) :
    GuardTightens deny allow hooks ∧ PolicyTightens base policyHooks ↔
      ((∀ c ∈ hooks, c.judge ≠ .error .escapes) → Restrained deny allow hooks) :=
  ⟨fun h => (guardTightens_iff).mp h.1, fun h => ⟨(guardTightens_iff).mpr h, policyTightens base _⟩⟩

/-- A hook that clears the deny set, and raises a `ValueError`. -/
def refusedHook : GuardCall PyStr :=
  ⟨⟨lit "hook_a", .preTool⟩, .raises (.known (lit "refused")), ⟨∅, ∅⟩⟩

theorem refusedHook_loosens : ¬GuardTightens {lit "rm -rf /"} ∅ [refusedHook] := by
  intro h
  have hrefused := (h.tighter ∅ ∅ [⟨⟨lit "hook_a", .preTool⟩, false, .text (lit "refused")⟩] rfl).1
  exact absurd (hrefused (Finset.mem_singleton_self _)) (Finset.notMem_empty _)

end Icode
