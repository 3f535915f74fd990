import Icode.AgentHistory
import Icode.EngineeringReceipt
import Icode.JsonBudget

/-!
# What an accepted receipt says

`engineering_receipt_values` derives `passed` and the category of a receipt from its rows.
`receipt_sound` is what a passed receipt says of every row. Its digests never fail, so the two ways
to call it agree (`values_outcome`). `repair_noninterference` is about the repair fingerprint : it
does not depend on the labels of a receipt, and the view it digests tells failures apart.

An accepted receipt is read off its rows (`CheckedReceipt.Facts`), and the loop over the results
is one list of results, in the order of the checks (`Results`).
-/

namespace Icode

open Py

/-! ## Fields of a value -/

/-- `value[key]` of a dict; `None` for any other value. -/
def fieldOf (value : Json) (key : PyStr) : Json :=
  match value with
  | .obj ms => Members.get ms key
  | _ => .null

/-- The items of a list. -/
def itemsOf : Json → List Json
  | .arr xs => xs
  | _ => []

@[simp] theorem fieldOf_obj (ms : Members) (key : PyStr) :
    fieldOf (.obj ms) key = Members.get ms key :=
  rfl

@[simp] theorem itemsOf_arr (xs : List Json) : itemsOf (.arr xs) = xs :=
  rfl

/-- `None` or a bool in a dict. -/
def optionalBoolJson : Option Bool → Json
  | none => .null
  | some b => .bool b

/-! ## The readers of one field -/

theorem engineeringShape_eq_ok {value : Json} {fields : List PyStr} {row : Row fields} :
    engineeringShape value fields = .ok row ↔ value = .obj row.members := by
  unfold engineeringShape
  cases value with
  | obj ms =>
    obtain ⟨members, shape⟩ := row
    by_cases h : Members.keysAre ms fields = true
    · simp [h]
    · simp only [h, Bool.false_eq_true, dite_false, reduceCtorEq, Json.obj.injEq, false_iff]
      rintro rfl
      exact h shape
  | _ => simp

theorem engineeringText_eq_ok {value : Json} {required : Bool} {maximum : ℕ} {s : PyStr}
    (h : engineeringText value required maximum = .ok s) :
    value = .str s ∧ s.all isScalar = true := by
  simp only [engineeringText, bind_eq_ok, orRaise_eq_ok, require_eq_ok, exists_const,
    Except.ok.injEq] at h
  obtain ⟨t, ht, -, -, raw, hraw, -, rfl⟩ := h
  exact ⟨Json.text?_eq_some.mp ht, (encode_eq_some.mp hraw).1⟩

theorem engineeringHash_eq_ok {value : Json} {empty : Bool} {s : PyStr} :
    engineeringHash value empty = .ok s ↔
      value = .str s ∧ (empty && s.isEmpty || isHexText 64 s) = true := by
  simp only [engineeringHash, bind_eq_ok, orRaise_eq_ok, require_eq_ok, exists_const,
    Except.ok.injEq]
  constructor
  · rintro ⟨t, ht, hs, rfl⟩
    exact ⟨Json.text?_eq_some.mp ht, hs⟩
  · rintro ⟨rfl, hs⟩
    exact ⟨s, rfl, hs, rfl⟩

theorem textIn_eq_ok {allowed : List PyStr} {value : Json} {err : ReceiptError} {s : PyStr} :
    textIn allowed value err = .ok s ↔ value = .str s ∧ s ∈ allowed := by
  rw [textIn, orRaise_eq_ok, Option.filter_eq_some_iff, Json.text?_eq_some, List.contains_iff_mem]

theorem optionalBool_eq_ok {value : Json} {err : ReceiptError} {b : Option Bool} :
    optionalBool value err = .ok b ↔ value = optionalBoolJson b := by
  cases value <;> cases b <;> simp [optionalBool, optionalBoolJson]

theorem checkedExitCode_eq_ok {value : Json} {code : Option ℤ}
    (h : checkedExitCode value = .ok code) : value = exitCodeJson code := by
  unfold checkedExitCode at h
  split at h
  · obtain rfl := Except.ok.inj h
    rfl
  · split at h
    · obtain rfl := Except.ok.inj h
      rfl
    · cases h
  · cases h

theorem checkedCount_eq_ok {limit : ℤ} {value : Json} {err : ReceiptError} {n : ℤ}
    (h : checkedCount limit value err = .ok n) : value = .int n ∧ 0 ≤ n ∧ n ≤ limit := by
  unfold checkedCount at h
  split at h
  · split at h
    · next hn =>
      obtain rfl := Except.ok.inj h
      exact ⟨rfl, hn⟩
    · cases h
  · cases h

theorem listBetween_eq_ok {low high : ℕ} {value : Json} {err : ReceiptError} {xs : List Json} :
    listBetween low high value err = .ok xs ↔
      value = .arr xs ∧ low ≤ xs.length ∧ xs.length ≤ high := by
  unfold listBetween
  split
  · next ys =>
    split_ifs with h
    · simp only [Except.ok.injEq, Json.arr.injEq]
      constructor
      · rintro rfl
        exact ⟨rfl, h⟩
      · exact And.left
    · simp only [false_iff]
      rintro ⟨hxs, hlen⟩
      obtain rfl := Json.arr.inj hxs
      exact h hlen
  · next hne =>
    simp only [reduceCtorEq, false_iff]
    rintro ⟨rfl, -⟩
    exact hne xs rfl

/-! ## One result -/

/-- The result `r` is in the row `value` of the check. -/
structure CheckResult.In (r : CheckResult) (check : PlanCheck) (value : Json) : Prop where
  checkId : fieldOf value "check_id" = .str check.checkId
  status : fieldOf value "status" = .str r.status
  statuses : r.status ∈ engineeringCheckStatuses
  code : fieldOf value "exit_code" = exitCodeJson r.code
  count : fieldOf value "tests_passed" = .int r.count
  counts : 0 ≤ r.count
  outputBytes : fieldOf value "output_bytes" = .int r.outputBytes
  outputSha256 : fieldOf value "output_sha256" = .str r.outputSha256
  resourceReceipt : fieldOf value "resource_receipt_sha256" = .str r.resourceReceipt
  cleanupOk : fieldOf value "cleanup_ok" = optionalBoolJson r.cleanupOk
  scopeCleanupOk : fieldOf value "scope_cleanup_ok" = optionalBoolJson r.scopeCleanupOk
  cacheOwnerConfirmed :
    fieldOf value "cache_owner_cleanup_confirmed" = optionalBoolJson r.cacheOwnerConfirmed
  cleanupScope : fieldOf value "cleanup_scope" = .str r.cleanupScope
  resourceChannel : fieldOf value "resource_channel_status" = .str r.resourceChannel
  violationObserver : fieldOf value "violation_observer_status" = .str r.violationObserver
  error : fieldOf value "error" = .str r.error

theorem CheckResult.in_of_checkResultRow {check : PlanCheck} {value : Json} {r : CheckResult}
    (h : checkResultRow check value = .ok r) : r.In check value := by
  simp only [checkResultRow, bind_eq_ok, require_eq_ok, exists_const, Except.ok.injEq] at h
  obtain ⟨row, hrow, hid, status, hstatus, code, hcode, count, hcount, -, bytes, hbytes, sha, hsha,
    resource, hresource, cleanup, hcleanup, scopeOk, hscopeOk, cache, hcache, scope, hscope,
    channel, hchannel, observer, hobserver, error, herror, rfl⟩ := h
  obtain rfl := engineeringShape_eq_ok.mp hrow
  obtain ⟨hstatus, hstatuses⟩ := textIn_eq_ok.mp hstatus
  obtain ⟨hcount, hcounts, -⟩ := checkedCount_eq_ok hcount
  exact {
    checkId := Json.isText_iff.mp hid
    status := hstatus
    statuses := hstatuses
    code := checkedExitCode_eq_ok hcode
    count := hcount
    counts := hcounts
    outputBytes := (checkedCount_eq_ok hbytes).1
    outputSha256 := (engineeringHash_eq_ok.mp hsha).1
    resourceReceipt := (engineeringHash_eq_ok.mp hresource).1
    cleanupOk := optionalBool_eq_ok.mp hcleanup
    scopeCleanupOk := optionalBool_eq_ok.mp hscopeOk
    cacheOwnerConfirmed := optionalBool_eq_ok.mp hcache
    cleanupScope := (textIn_eq_ok.mp hscope).1
    resourceChannel := (textIn_eq_ok.mp hchannel).1
    violationObserver := (textIn_eq_ok.mp hobserver).1
    error := (textIn_eq_ok.mp herror).1 }

/-! ## All results -/

/-- What the loop demands of a result that it has not refused. -/
structure CheckResult.Fits (r : CheckResult) (check : PlanCheck) : Prop where
  notRun : r.status = lit "not_run" → r.code = none
  executed : r.status ≠ lit "not_run" → executedError check r = none

/-- The check did not pass, and was run. -/
def failedCheck (check : PlanCheck) (r : CheckResult) : Option FailedCheck :=
  if r.status = lit "passed" ∨ r.status = lit "not_run" then none
  else some ⟨check.checkId, check.kind, r.status, r.code, r.count, r.error⟩

/-- The check was run, and nobody knows to what effect. -/
def CheckResult.unsure (r : CheckResult) : Bool :=
  r.status != lit "not_run" && (!r.closed ||
    (r.status != lit "passed" && r.status != lit "failed") || !r.error.isEmpty)

theorem CheckResult.closed_of_sure {r : CheckResult} (h : r.unsure = false)
    (hran : r.status ≠ lit "not_run") :
    r.closed = true ∧ (r.status = lit "passed" ∨ r.status = lit "failed") := by
  simp only [CheckResult.unsure, bne_iff_ne.mpr hran, Bool.true_and, Bool.or_eq_false_iff,
    Bool.not_eq_false', Bool.and_eq_false_iff, bne_eq_false_iff_eq] at h
  exact h.1

/-- The loop over the rows of `rs` leads from `s` to `s'`. -/
structure Results (s : RunState) (pairs : List (PlanCheck × Json)) (rs : List CheckResult)
    (s' : RunState) : Prop where
  rows : List.Forall₂ (fun p r => CheckResult.In r p.1 p.2 ∧ r.Fits p.1) pairs rs
  statuses : s'.statuses = s.statuses ++ rs.map CheckResult.status
  stops : s.stopped = true → ∀ r ∈ rs, r.status = lit "not_run"
  order : rs.Pairwise fun a b => a.status ≠ lit "passed" → b.status = lit "not_run"
  unknown : s'.unknown = (s.unknown || rs.any CheckResult.unsure)
  failed : s'.failed =
    s.failed ++ (List.zipWith (fun p r => failedCheck p.1 r) pairs rs).filterMap id

/-- The state after one row. -/
theorem RunState.step_eq_ok {s s' : RunState} {check : PlanCheck} {value : Json}
    (h : s.step check value = .ok s') :
    ∃ r : CheckResult, r.In check value ∧ r.Fits check ∧
      (s.stopped = true → r.status = lit "not_run") ∧
        s'.statuses = s.statuses ++ [r.status] ∧
          s'.stopped = (s.stopped || r.status != lit "passed") ∧
            s'.unknown = (s.unknown || r.unsure) ∧
              s'.failed = s.failed ++ (failedCheck check r).toList := by
  simp only [RunState.step, bind_eq_ok, require_eq_ok, exists_const] at h
  obtain ⟨r, hrow, hstop, h⟩ := h
  have hstops : s.stopped = true → r.status = lit "not_run" := by
    intro hs
    simpa [hs] using hstop
  refine ⟨r, CheckResult.in_of_checkResultRow hrow, ?_⟩
  split_ifs at h with hrun
  · simp only [bind_eq_ok, require_eq_ok, exists_const, Except.ok.injEq, Bool.and_eq_true,
      Option.isNone_iff_eq_none] at h
    obtain ⟨⟨⟨⟨hcode, -⟩, -⟩, -⟩, rfl⟩ := h
    have hne : lit "not_run" ≠ lit "passed" := by decide
    exact ⟨⟨fun _ => hcode, fun hno => absurd hrun hno⟩, hstops, rfl, by simp [hrun, hne],
      by simp [CheckResult.unsure, hrun], by simp [failedCheck, hrun]⟩
  · split at h
    · cases h
    · next hexecuted =>
      obtain rfl := Except.ok.inj h
      refine ⟨⟨fun hno => absurd hno hrun, fun _ => hexecuted⟩, hstops, rfl, rfl, ?_, ?_⟩
      · have hne : (r.status != lit "not_run") = true := bne_iff_ne.mpr hrun
        simp [RunState.executed, CheckResult.unsure, hne, Bool.or_assoc]
      · by_cases hpassed : r.status = lit "passed"
        · simp [RunState.executed, failedCheck, hpassed]
        · simp [RunState.executed, failedCheck, hpassed, hrun]

theorem exists_results {pairs : List (PlanCheck × Json)} : ∀ {s s' : RunState},
    pairs.foldlM (fun (s : RunState) (c : PlanCheck × Json) => s.step c.1 c.2) s = .ok s' →
      ∃ rs, Results s pairs rs s' := by
  induction pairs with
  | nil =>
    intro s s' h
    obtain rfl := Except.ok.inj h
    exact ⟨[], ⟨.nil, by simp, by simp, .nil, by simp, by simp⟩⟩
  | cons pair pairs ih =>
    intro s s' h
    rw [List.foldlM_cons, bind_eq_ok] at h
    obtain ⟨u, hu, hrest⟩ := h
    obtain ⟨r, hin, hfits, hstops, hstatus, hstopped, hunknown, hfailed⟩ := RunState.step_eq_ok hu
    obtain ⟨rs, hrs⟩ := ih hrest
    refine ⟨r :: rs, ⟨.cons ⟨hin, hfits⟩ hrs.rows, ?_, ?_, ?_, ?_, ?_⟩⟩
    · rw [hrs.statuses, hstatus, List.append_assoc, List.map_cons, List.singleton_append]
    · intro hs
      refine List.forall_mem_cons.mpr ⟨hstops hs, hrs.stops ?_⟩
      rw [hstopped, hs, Bool.true_or]
    · refine List.pairwise_cons.mpr ⟨fun b hb hr => hrs.stops ?_ b hb, hrs.order⟩
      rw [hstopped, bne_iff_ne.mpr hr, Bool.or_true]
    · rw [hrs.unknown, hunknown, List.any_cons, Bool.or_assoc]
    · rw [hrs.failed, hfailed, List.append_assoc, List.zipWith_cons_cons]
      cases failedCheck pair.1 r <;> simp

/-! ## A receipt -/

/-- The fields of an accepted binding. -/
theorem checkBinding_eq_ok {row : Row receiptFields} {binding : Row bindingFields}
    (h : checkBinding row = .ok binding) :
    row.get "binding" (by simp) = .obj binding.members := by
  simp only [checkBinding, bind_eq_ok, require_eq_ok, exists_const, Except.ok.injEq] at h
  obtain ⟨row', hrow, -, -, -, -, -, -, -, -, -, rfl⟩ := h
  exact engineeringShape_eq_ok.mp hrow

theorem checkPlan_eq_ok {row : Row receiptFields} {plan : Row planFields} {ticketId : PyStr}
    {steps : List PyStr} {checks : List PlanCheck}
    (h : checkPlan row = .ok (plan, ticketId, steps, checks)) :
    row.get "public_plan" (by simp) = .obj plan.members ∧
      ∃ xs, plan.get "checks" (by simp) = .arr xs ∧ checkPlanRows [] xs = .ok checks ∧
        planOk checks = true := by
  simp only [checkPlan, bind_eq_ok, require_eq_ok, exists_const, Except.ok.injEq,
    Prod.mk.injEq] at h
  obtain ⟨row', hrow, -, -, ticket, -, -, -, -, -, steps', -, -, -, xs, hxs, checks', hchecks, hok,
    rfl, rfl, rfl, rfl⟩ := h
  exact ⟨engineeringShape_eq_ok.mp hrow, xs, (listBetween_eq_ok.mp hxs).1, hchecks, hok⟩

/-- What the parts of an accepted receipt are. -/
structure CheckedReceipt.Facts (c : CheckedReceipt) (receipt : Json) (xs ys : List Json)
    (checks : List PlanCheck) (rs : List CheckResult) (s : RunState) : Prop where
  binding : fieldOf receipt "binding" = .obj c.binding.members
  plan : fieldOf receipt "public_plan" = .obj c.plan.members
  run : fieldOf receipt "run" = .obj c.run.members
  step : Members.get c.run.members "step" = .str c.step
  status : Members.get c.run.members "status" = .str c.status
  sourceBefore : Members.get c.run.members "source_before" = .str c.sourceBefore
  sourceAfter : Members.get c.run.members "source_after" = .str c.sourceAfter
  planRows : Members.get c.plan.members "checks" = .arr xs
  runRows : Members.get c.run.members "checks" = .arr ys
  length : ys.length = checks.length
  planChecks : checkPlanRows [] xs = .ok checks
  results : Results
    ⟨c.sourceBefore.isEmpty || c.sourceAfter.isEmpty || c.sourceBefore != c.sourceAfter, [], false,
      []⟩ (checks.zip ys) rs s
  failed : c.failed = s.failed
  category : c.category =
    if (s.unknown || (c.status != lit "passed" && c.status != lit "failed")) = true then
      lit "side_effect_unknown"
    else if s.failed.isEmpty = true then lit "test" else lit "code"
  passed : c.passed = (c.status == lit "passed" && s.statuses.all (· == lit "passed") &&
    !(s.unknown || (c.status != lit "passed" && c.status != lit "failed")))

theorem checkReceipt_facts {receipt : Json} {c : CheckedReceipt} (h : checkReceipt receipt = .ok c) :
    ∃ xs ys checks rs s, c.Facts receipt xs ys checks rs s := by
  simp only [checkReceipt, bind_eq_ok, require_eq_ok, exists_const, Except.ok.injEq] at h
  obtain ⟨row, hrow, -, -, binding, hbinding, ⟨plan, ticketId, steps, checks⟩, hplan, run, hrun, -,
    -, step, hstep, attempt, -, -, before, hbefore, after, hafter, -, status, hstatus, -, -, ys,
    hys, s, hs, -, rfl⟩ := h
  obtain rfl := engineeringShape_eq_ok.mp hrow
  obtain ⟨hplan, xs, hxs, hchecks, -⟩ := checkPlan_eq_ok hplan
  obtain ⟨rs, hrs⟩ := exists_results hs
  obtain ⟨hys, hle, hge⟩ := listBetween_eq_ok.mp hys
  exact ⟨xs, ys, checks, rs, s, {
    binding := checkBinding_eq_ok hbinding
    plan := hplan
    run := engineeringShape_eq_ok.mp hrun
    step := (engineeringText_eq_ok hstep).1
    status := (textIn_eq_ok.mp hstatus).1
    sourceBefore := (engineeringHash_eq_ok.mp hbefore).1
    sourceAfter := (engineeringHash_eq_ok.mp hafter).1
    planRows := hxs
    runRows := hys
    length := le_antisymm hge hle
    planChecks := hchecks
    results := hrs
    failed := rfl
    category := rfl
    passed := rfl }⟩

/-! ## The checks of the plan -/

/-- The check `p` is in the row `value` of the plan. -/
structure PlanCheck.In (p : PlanCheck) (value : Json) : Prop where
  checkId : fieldOf value "check_id" = .str p.checkId
  kind : fieldOf value "kind" = .str p.kind
  required : fieldOf value "required" = .bool p.required
  timeout : fieldOf value "timeout_seconds" = p.timeout
  scalar : p.timeout.number.isSome
  outputLimit : fieldOf value "output_limit_bytes" = .int p.outputLimit

theorem PlanCheck.in_of_checkPlanRow {ids : List PyStr} {value : Json} {p : PlanCheck}
    (h : checkPlanRow ids value = .ok p) : p.In value ∧ p.checkId ∉ ids := by
  simp only [checkPlanRow, Row.get, bind_eq_ok, require_eq_ok, exists_const, orRaise_eq_ok,
    Option.filter_eq_some_iff, Bool.and_eq_true] at h
  obtain ⟨row, hrow, id, ⟨hid, -, hfresh⟩, kind, hkind, required, hrequired, -, -, -, -, -, -,
    -, hnumber, h⟩ := h
  obtain rfl := engineeringShape_eq_ok.mp hrow
  have hrequired : Members.get row.members "required" = .bool required := by
    split at hrequired
    · next b hb => rw [hb, Option.some.inj hrequired]
    · cases hrequired
  have hscalar : (Members.get row.members "timeout_seconds").number.isSome := by
    unfold numberBetween at hnumber
    cases hq : (Members.get row.members "timeout_seconds").number with
    | none => simp [hq] at hnumber
    | some q => rfl
  split at h
  · next n hn =>
    split_ifs at h
    obtain rfl := Except.ok.inj h
    refine ⟨⟨Json.text?_eq_some.mp hid, (textIn_eq_ok.mp hkind).1, hrequired, rfl, hscalar, hn⟩, ?_⟩
    simpa using hfresh
  · cases h

theorem planChecks_in : ∀ {xs : List Json} {ids : List PyStr} {checks : List PlanCheck},
    checkPlanRows ids xs = .ok checks →
      List.Forall₂ (fun x p => PlanCheck.In p x) xs checks ∧
        (checks.map PlanCheck.checkId).Nodup ∧ ∀ p ∈ checks, p.checkId ∉ ids
  | [], _, _, h => by
    obtain rfl := Except.ok.inj h
    exact ⟨.nil, by simp, by simp⟩
  | x :: xs, ids, _, h => by
    simp only [checkPlanRows, bind_eq_ok, Except.ok.injEq] at h
    obtain ⟨p, hp, checks, hchecks, rfl⟩ := h
    obtain ⟨hin, hfresh⟩ := PlanCheck.in_of_checkPlanRow hp
    obtain ⟨hrest, hnodup, hids⟩ := planChecks_in hchecks
    refine ⟨.cons hin hrest, ?_, List.forall_mem_cons.mpr ⟨hfresh, fun q hq hmem =>
      hids q hq (List.mem_cons_of_mem _ hmem)⟩⟩
    refine List.nodup_cons.mpr ⟨fun hmem => ?_, hnodup⟩
    obtain ⟨q, hq, heq⟩ := List.mem_map.mp hmem
    exact hids q hq (by rw [heq]; exact List.mem_cons_self ..)

/-! ## Soundness -/

/-- The rows of the checks in the plan. -/
def planRowsOf (receipt : Json) : List Json :=
  itemsOf (fieldOf (fieldOf receipt "public_plan") "checks")

/-- The rows of the results. -/
def runRowsOf (receipt : Json) : List Json :=
  itemsOf (fieldOf (fieldOf receipt "run") "checks")

/-- The cleanup of a result is confirmed, for its scope. -/
def CleanupClosed (row : Json) : Prop :=
  fieldOf row "cleanup_ok" = .bool true ∧
    fieldOf row "cache_owner_cleanup_confirmed" = .bool true ∧
      (fieldOf row "cleanup_scope" = .str "job_tree" ∧
          fieldOf row "scope_cleanup_ok" ≠ .bool false ∧
            fieldOf row "resource_channel_status" = .str "not_required" ∧
              fieldOf row "violation_observer_status" = .str "not_required" ∧
                fieldOf row "resource_receipt_sha256" = .str [] ∨
        fieldOf row "cleanup_scope" = .str "linux_task_scope" ∧
          fieldOf row "scope_cleanup_ok" = .bool true ∧
            fieldOf row "resource_channel_status" = .str "complete" ∧
              fieldOf row "violation_observer_status" = .str "complete" ∧
                ∃ digest, digest ≠ [] ∧ fieldOf row "resource_receipt_sha256" = .str digest)

/-- What a passed receipt is to have observed. -/
structure Earned (receipt : Json) : Prop where
  rows : List.Forall₂ (fun check row => fieldOf row "check_id" = fieldOf check "check_id" ∧
    (fieldOf check "kind" = .str "test" → ∃ n : ℤ, 0 < n ∧ fieldOf row "tests_passed" = .int n))
      (planRowsOf receipt) (runRowsOf receipt)
  passed : ∀ row ∈ runRowsOf receipt,
    fieldOf row "status" = .str "passed" ∧ fieldOf row "exit_code" = .int 0 ∧ CleanupClosed row
  source : ∃ fingerprint, fingerprint ≠ [] ∧
    fieldOf (fieldOf receipt "run") "source_before" = .str fingerprint ∧
      fieldOf (fieldOf receipt "run") "source_after" = .str fingerprint

/-- After a check that did not pass, no check is run. -/
def StopsAtFailure (receipt : Json) : Prop :=
  (runRowsOf receipt).Pairwise fun a b =>
    fieldOf a "status" ≠ .str "passed" → fieldOf b "status" = .str "not_run"

theorem CheckResult.In.closed {r : CheckResult} {check : PlanCheck} {row : Json}
    (hin : r.In check row) (h : r.closed = true) : CleanupClosed row := by
  simp only [CheckResult.closed, Bool.and_eq_true, Bool.or_eq_true, beq_iff_eq, bne_iff_ne,
    Bool.not_eq_true', List.isEmpty_iff, List.isEmpty_eq_false_iff] at h
  obtain ⟨⟨hcleanup, hcache⟩, hscope⟩ := h
  refine ⟨?_, ?_, ?_⟩
  · rw [hin.cleanupOk, hcleanup]
    rfl
  · rw [hin.cacheOwnerConfirmed, hcache]
    rfl
  · rcases hscope with ⟨⟨⟨⟨hname, hok⟩, hchannel⟩, hobserver⟩, hreceipt⟩ |
      ⟨⟨⟨⟨hname, hok⟩, hchannel⟩, hobserver⟩, hreceipt⟩
    · refine Or.inl ⟨by rw [hin.cleanupScope, hname], ?_, by rw [hin.resourceChannel, hchannel],
        by rw [hin.violationObserver, hobserver], by rw [hin.resourceReceipt, hreceipt]⟩
      rw [hin.scopeCleanupOk]
      cases hb : r.scopeCleanupOk with
      | none => simp [optionalBoolJson]
      | some b => simpa [optionalBoolJson, hb] using hok
    · refine Or.inr ⟨by rw [hin.cleanupScope, hname], ?_, by rw [hin.resourceChannel, hchannel],
        by rw [hin.violationObserver, hobserver], r.resourceReceipt, hreceipt, hin.resourceReceipt⟩
      rw [hin.scopeCleanupOk, hok]
      rfl

/-- A check that passed has the exit code zero, and a test has passed. -/
theorem CheckResult.Fits.passed {r : CheckResult} {check : PlanCheck} {row : Json}
    (hfits : r.Fits check) (hin : r.In check row) (h : r.status = lit "passed") :
    fieldOf row "exit_code" = .int 0 ∧
      (check.kind = lit "test" → ∃ n : ℤ, 0 < n ∧ fieldOf row "tests_passed" = .int n) := by
  have hran := hfits.executed (by rw [h]; decide)
  have hnot : (lit "passed" == lit "failed") = false := by decide
  simp only [executedError, h, true_or, if_true, Bool.or_eq_true] at hran
  split_ifs at hran with hincomplete hcontra
  simp only [hnot, Bool.false_and, Bool.false_eq_true, or_false, bne_iff_ne, ne_eq, not_not,
    beq_self_eq_true] at hcontra
  have hexpected := hcontra.symm
  simp only [Bool.and_eq_true, beq_iff_eq, Bool.or_eq_true, bne_iff_ne, decide_eq_true_eq]
    at hexpected
  refine ⟨?_, fun htest => ⟨r.count, ?_, hin.count⟩⟩
  · rw [hin.code, hexpected.1]
    rfl
  · exact hexpected.2.resolve_left fun hne => hne htest

/-- The rows of an accepted receipt, and what the loop read in them. -/
theorem CheckedReceipt.Facts.rows {c : CheckedReceipt} {receipt : Json} {xs ys : List Json}
    {checks : List PlanCheck} {rs : List CheckResult} {s : RunState}
    (h : c.Facts receipt xs ys checks rs s) :
    planRowsOf receipt = xs ∧ runRowsOf receipt = ys ∧
      List.Forall₂ (fun x p => PlanCheck.In p x) xs checks ∧
        List.Forall₂ (fun p r => CheckResult.In r p.1 p.2 ∧ r.Fits p.1) (checks.zip ys) rs := by
  refine ⟨?_, ?_, (planChecks_in h.planChecks).1, h.results.rows⟩
  · rw [planRowsOf, h.plan, fieldOf_obj, h.planRows, itemsOf_arr]
  · rw [runRowsOf, h.run, fieldOf_obj, h.runRows, itemsOf_arr]

section Accepted

variable {c : CheckedReceipt} {receipt : Json} {xs ys : List Json} {checks : List PlanCheck}
  {rs : List CheckResult} {s : RunState}

theorem CheckedReceipt.Facts.length_eq (h : c.Facts receipt xs ys checks rs s) :
    ys.length = rs.length ∧ checks.length = rs.length := by
  have hzip := h.results.rows.length_eq
  have hlen := h.length
  rw [List.length_zip] at hzip
  omega

/-- Result by result, what the loop read in the row. -/
theorem CheckedReceipt.Facts.row (h : c.Facts receipt xs ys checks rs s) (i : ℕ)
    (hy : i < ys.length) (hc : i < checks.length) (hr : i < rs.length) :
    rs[i].In checks[i] ys[i] ∧ rs[i].Fits checks[i] := by
  have hrow := (List.forall₂_iff_get.mp h.results.rows).2 i (by rw [List.length_zip]; omega) hr
  simpa using hrow

theorem CheckedReceipt.Facts.check (h : c.Facts receipt xs ys checks rs s) (i : ℕ)
    (hx : i < xs.length) (hc : i < checks.length) : checks[i].In xs[i] :=
  (List.forall₂_iff_get.mp (planChecks_in h.planChecks).1).2 i hx hc

theorem CheckedReceipt.Facts.stopsAtFailure (h : c.Facts receipt xs ys checks rs s) :
    StopsAtFailure receipt := by
  obtain ⟨-, hys, -, -⟩ := h.rows
  rw [StopsAtFailure, hys, List.pairwise_iff_getElem]
  intro i j hi hj hij hne
  have hlen := h.length_eq
  obtain ⟨hini, -⟩ := h.row i hi (by omega) (by omega)
  obtain ⟨hinj, -⟩ := h.row j hj (by omega) (by omega)
  have horder := List.pairwise_iff_getElem.mp h.results.order i j (by omega) (by omega) hij
  rw [hinj.status, horder fun heq => hne (by rw [hini.status, heq])]

theorem CheckedReceipt.Facts.earned (h : c.Facts receipt xs ys checks rs s)
    (hpassed : c.passed = true) : Earned receipt := by
  obtain ⟨hxs, hys, hplan, -⟩ := h.rows
  have hlen := h.length_eq
  have hplanlen := hplan.length_eq
  rw [h.passed, Bool.and_eq_true, Bool.and_eq_true, Bool.not_eq_true',
    Bool.or_eq_false_iff] at hpassed
  obtain ⟨⟨-, hall⟩, hknown, -⟩ := hpassed
  rw [h.results.unknown, Bool.or_eq_false_iff, List.any_eq_false] at hknown
  obtain ⟨hsource, hsure⟩ := hknown
  have hstatus : ∀ r ∈ rs, r.status = lit "passed" := by
    intro r hr
    rw [h.results.statuses, List.nil_append, List.all_map, List.all_eq_true] at hall
    simpa using hall r hr
  have hrow : ∀ i (hy : i < ys.length) (hc : i < checks.length),
      fieldOf ys[i] "status" = .str "passed" ∧ fieldOf ys[i] "exit_code" = .int 0 ∧
        CleanupClosed ys[i] ∧ fieldOf ys[i] "check_id" = .str checks[i].checkId ∧
          (checks[i].kind = lit "test" →
            ∃ n : ℤ, 0 < n ∧ fieldOf ys[i] "tests_passed" = .int n) := by
    intro i hy hc
    have hr : i < rs.length := by omega
    obtain ⟨hin, hfits⟩ := h.row i hy hc hr
    have hpass := hstatus rs[i] (List.getElem_mem hr)
    obtain ⟨hexit, htest⟩ := hfits.passed hin hpass
    have hran : rs[i].status ≠ lit "not_run" := by
      rw [hpass]
      decide
    refine ⟨by rw [hin.status, hpass], hexit, ?_, hin.checkId, htest⟩
    exact hin.closed (CheckResult.closed_of_sure
      (Bool.eq_false_iff.mpr (hsure rs[i] (List.getElem_mem hr))) hran).1
  refine ⟨?_, ?_, ?_⟩
  · rw [hxs, hys]
    refine List.forall₂_iff_get.mpr ⟨by omega, fun i hx hy => ?_⟩
    have hc : i < checks.length := by omega
    have hin := h.check i hx hc
    obtain ⟨-, -, -, hid, htest⟩ := hrow i hy hc
    refine ⟨hid.trans hin.checkId.symm, fun hkind => htest ?_⟩
    exact Json.str.inj (hin.kind.symm.trans hkind)
  · rw [hys]
    intro row hmem
    obtain ⟨i, hi, rfl⟩ := List.mem_iff_getElem.mp hmem
    obtain ⟨hpass, hexit, hclose, -, -⟩ := hrow i hi (by omega)
    exact ⟨hpass, hexit, hclose⟩
  · simp only [Bool.or_eq_false_iff, List.isEmpty_eq_false_iff, bne_eq_false_iff_eq] at hsource
    obtain ⟨⟨hbefore, -⟩, hsame⟩ := hsource
    refine ⟨c.sourceBefore, hbefore, ?_, ?_⟩
    · rw [h.run, fieldOf_obj, h.sourceBefore]
    · rw [h.run, fieldOf_obj, h.sourceAfter, hsame]

end Accepted

/-! ## What can be digested -/

theorem exists_of_mapAll {α β ε : Type} {f : α → Except ε β} : ∀ {xs : List α} {ys : List β},
    mapAll f xs = .ok ys → ∀ x ∈ xs, ∃ y, f x = .ok y
  | [], _, _, x, hx => by simp at hx
  | x :: xs, ys, h, z, hz => by
    unfold mapAll at h
    split at h
    · cases h
    · next y hy =>
      split at h
      · cases h
      · next ys' hys =>
        rcases List.mem_cons.mp hz with rfl | hz
        · exact ⟨y, hy⟩
        · exact exists_of_mapAll hys z hz

/-- The value has no surrogate and no float that JSON lacks. -/
def Digestible (v : Json) : Prop :=
  v.Encodable ∧ finite v = true

theorem digestible_str {s : PyStr} (h : s.all isScalar = true) : Digestible (.str s) :=
  ⟨h, rfl⟩

theorem digestible_arr {xs : List Json} (h : ∀ x ∈ xs, Digestible x) : Digestible (.arr xs) := by
  refine ⟨Json.encodable_arr.mpr fun x hx => (h x hx).1, ?_⟩
  rw [finite]
  induction xs with
  | nil => rfl
  | cons x xs ih =>
    rw [List.forall_mem_cons] at h
    rw [finiteList, h.1.2, ih h.2, Bool.and_true]

theorem digestible_obj {ms : Members} (h : ∀ m ∈ ms, m.1.all isScalar = true ∧ Digestible m.2) :
    Digestible (.obj ms) := by
  refine ⟨Json.encodable_obj.mpr fun m hm => ⟨(h m hm).1, (h m hm).2.1⟩, ?_⟩
  rw [finite]
  induction ms with
  | nil => rfl
  | cons m ms ih =>
    rw [List.forall_mem_cons] at h
    rw [finiteMembers, h.1.2.2, ih h.2, Bool.and_true]

theorem engineeringDigest_ok {v : Json} (h : Digestible v) :
    engineeringDigest v = .ok (sha256 (encodePass (Json.dumps v))) := by
  simp [engineeringDigest, h.2, Json.encode_dumps h.1, require, orRaise, Bind.bind, Except.bind]

/-- A row can be digested when its fields can. -/
theorem digestible_row {ms : Members} {fields : List PyStr} (hnd : ms.keys.Nodup)
    (hkeys : Members.keysAre ms fields = true) (hfields : ∀ k ∈ fields, k.all isScalar = true)
    (h : ∀ k ∈ fields, Digestible (Members.get ms k)) :
    ∀ m ∈ ms, m.1.all isScalar = true ∧ Digestible m.2 := by
  intro m hm
  have hk : m.1 ∈ fields := (Members.keysAre_iff.mp hkeys m.1).mp (List.mem_map_of_mem hm)
  refine ⟨hfields m.1 hk, ?_⟩
  have hget := h m.1 hk
  rwa [Members.get, Dict.get?_of_mem hnd hm, Option.getD_some] at hget

theorem isScalar_of_isHexText {n : ℕ} {s : PyStr} (h : isHexText n s = true) :
    s.all isScalar = true := by
  simp only [isHexText, Bool.and_eq_true, List.all_eq_true, Bool.or_eq_true,
    decide_eq_true_eq] at h
  rw [List.all_eq_true]
  intro x hx
  have := h.2 x hx
  exact isScalar_of_ord_lt (by omega)

theorem digestible_of_engineeringText {value : Json} {required : Bool} {maximum : ℕ} {s : PyStr}
    (h : engineeringText value required maximum = .ok s) : Digestible value := by
  obtain ⟨rfl, hs⟩ := engineeringText_eq_ok h
  exact digestible_str hs

theorem digestible_of_engineeringHash {value : Json} {empty : Bool} {s : PyStr}
    (h : engineeringHash value empty = .ok s) : Digestible value := by
  obtain ⟨rfl, hs⟩ := engineeringHash_eq_ok.mp h
  rcases Bool.or_eq_true_iff.mp hs with hs | hs
  · obtain rfl := List.isEmpty_iff.mp (Bool.and_eq_true_iff.mp hs).2
    exact digestible_str rfl
  · exact digestible_str (isScalar_of_isHexText hs)

theorem digestible_of_textIn {allowed : List PyStr} {value : Json} {err : ReceiptError} {s : PyStr}
    (hallowed : ∀ t ∈ allowed, t.all isScalar = true) (h : textIn allowed value err = .ok s) :
    Digestible value := by
  obtain ⟨rfl, hs⟩ := textIn_eq_ok.mp h
  exact digestible_str (hallowed s hs)

theorem digestible_of_scopeOf {allowed : List PyStr} {value : Json} {names : List PyStr}
    (hallowed : ∀ t ∈ allowed, t.all isScalar = true) (h : scopeOf allowed value = .ok names) :
    Digestible value := by
  simp only [scopeOf, bind_eq_ok, require_eq_ok, exists_const, Except.ok.injEq] at h
  obtain ⟨items, hitems, names', hnames, -, -⟩ := h
  obtain ⟨rfl, -⟩ := listBetween_eq_ok.mp hitems
  refine digestible_arr fun x hx => ?_
  obtain ⟨s, hs⟩ := exists_of_mapAll hnames x hx
  exact digestible_of_textIn hallowed hs

theorem all_isScalar_lit (s : String) : (lit s).all isScalar = true :=
  Json.isScalar_ofChars

theorem digestible_of_optionalBool {value : Json} {err : ReceiptError} {b : Option Bool}
    (h : optionalBool value err = .ok b) : Digestible value := by
  obtain rfl := optionalBool_eq_ok.mp h
  cases b <;> exact ⟨trivial, rfl⟩

theorem digestible_of_checkedExitCode {value : Json} {code : Option ℤ}
    (h : checkedExitCode value = .ok code) : Digestible value := by
  obtain rfl := checkedExitCode_eq_ok h
  cases code <;> exact ⟨trivial, rfl⟩

theorem digestible_of_checkedCount {limit : ℤ} {value : Json} {err : ReceiptError} {n : ℤ}
    (h : checkedCount limit value err = .ok n) : Digestible value := by
  obtain ⟨rfl, -⟩ := checkedCount_eq_ok h
  exact ⟨trivial, rfl⟩

theorem digestible_of_numberBetween {low high : ℚ} {value : Json}
    (hkind : (match value with
      | .int _ => true
      | .float _ => true
      | _ => false) = true) (h : numberBetween low high value = true) : Digestible value := by
  cases value with
  | int n => exact ⟨trivial, rfl⟩
  | float x =>
    refine ⟨trivial, ?_⟩
    rw [finite]
    by_contra hx
    simp [numberBetween, Json.number, PyFloat.toRat, hx] at h
  | _ => cases hkind

theorem isScalar_of_isCheckId {s : PyStr} (h : isCheckId s = true) : s.all isScalar = true := by
  simp only [isCheckId, Bool.and_eq_true, List.all_eq_true, Bool.or_eq_true, decide_eq_true_eq,
    beq_iff_eq] at h
  rw [List.all_eq_true]
  intro x hx
  rcases h.2 x hx with ((hx | rfl) | rfl) | rfl
  · exact isScalar_of_ord_lt (by omega)
  all_goals rfl

theorem digestible_checkResultRow {check : PlanCheck} {value : Json} {r : CheckResult}
    (hwf : value.WF) (hid : check.checkId.all isScalar = true)
    (h : checkResultRow check value = .ok r) : Digestible value := by
  simp only [checkResultRow, bind_eq_ok, require_eq_ok, exists_const, Except.ok.injEq] at h
  obtain ⟨row, hrow, hcheck, status, hstatus, code, hcode, count, hcount, -, bytes, hbytes, sha,
    hsha, resource, hresource, cleanup, hcleanup, scopeOk, hscopeOk, cache, hcache, scope, hscope,
    channel, hchannel, observer, hobserver, error, herror, -⟩ := h
  obtain rfl := engineeringShape_eq_ok.mp hrow
  have hchannels : ∀ t ∈ ([lit "not_required", lit "complete", lit "incomplete"] : List PyStr),
      t.all isScalar = true := by simp [-List.all_eq_true, all_isScalar_lit]
  refine digestible_obj (digestible_row (Json.wf_obj.mp hwf).1 row.shape
    (by simp [-List.all_eq_true, all_isScalar_lit]) ?_)
  simp only [resultFields, List.forall_mem_cons, List.not_mem_nil, false_implies, implies_true,
    and_true]
  refine ⟨?_, digestible_of_textIn (by simp [-List.all_eq_true, engineeringCheckStatuses, all_isScalar_lit]) hstatus,
    digestible_of_checkedExitCode hcode, digestible_of_checkedCount hcount,
    digestible_of_engineeringHash hsha, digestible_of_checkedCount hbytes,
    digestible_of_optionalBool hcleanup, digestible_of_textIn (by simp [-List.all_eq_true, all_isScalar_lit]) hscope,
    digestible_of_optionalBool hcache, digestible_of_optionalBool hscopeOk,
    digestible_of_textIn hchannels hchannel, digestible_of_textIn hchannels hobserver,
    digestible_of_engineeringHash hresource,
    digestible_of_textIn (by simp [-List.all_eq_true, engineeringFixedErrors, all_isScalar_lit]) herror⟩
  have hcheck : Members.get row.members "check_id" = .str check.checkId := Json.isText_iff.mp hcheck
  rw [hcheck]
  exact digestible_str hid

theorem digestible_checkPlanRow {ids : List PyStr} {value : Json} {p : PlanCheck} (hwf : value.WF)
    (h : checkPlanRow ids value = .ok p) :
    Digestible value ∧ p.checkId.all isScalar = true := by
  simp only [checkPlanRow, Row.get, bind_eq_ok, require_eq_ok, exists_const, orRaise_eq_ok,
    Option.filter_eq_some_iff, Bool.and_eq_true] at h
  obtain ⟨row, hrow, id, ⟨hid, hcheckId, -⟩, kind, hkind, required, hrequired, adapter, hadapter,
    tool, htool, parameters, hparameters, htimeout, hnumber, h⟩ := h
  obtain rfl := engineeringShape_eq_ok.mp hrow
  have hscalar := isScalar_of_isCheckId hcheckId
  have hp : p.checkId = id ∧ Digestible (Members.get row.members "output_limit_bytes") := by
    split at h
    · next n hn =>
      split_ifs at h
      obtain rfl := Except.ok.inj h
      exact ⟨rfl, hn ▸ ⟨trivial, rfl⟩⟩
    · cases h
  refine ⟨digestible_obj (digestible_row (Json.wf_obj.mp hwf).1 row.shape
    (by simp [-List.all_eq_true, all_isScalar_lit]) ?_), hp.1 ▸ hscalar⟩
  simp only [checkFields, List.forall_mem_cons, List.not_mem_nil, false_implies, implies_true,
    and_true]
  refine ⟨?_, digestible_of_textIn (by simp [-List.all_eq_true, all_isScalar_lit]) hkind,
    digestible_of_textIn ?_ hadapter, ?_, digestible_of_engineeringHash htool,
    digestible_of_engineeringHash hparameters, digestible_of_numberBetween htimeout hnumber, hp.2⟩
  · rw [Json.text?_eq_some.mp hid]
    exact digestible_str hscalar
  · split_ifs <;> simp [-List.all_eq_true, all_isScalar_lit]
  · split at hrequired
    · next b hb => exact hb ▸ ⟨trivial, rfl⟩
    · cases hrequired

theorem digestible_checkPlanRows : ∀ {xs : List Json} {ids : List PyStr} {checks : List PlanCheck},
    (∀ x ∈ xs, x.WF) → checkPlanRows ids xs = .ok checks →
      (∀ x ∈ xs, Digestible x) ∧ ∀ p ∈ checks, p.checkId.all isScalar = true
  | [], _, _, _, h => by
    obtain rfl := Except.ok.inj h
    exact ⟨by simp, by simp⟩
  | x :: xs, ids, _, hwf, h => by
    simp only [checkPlanRows, bind_eq_ok, Except.ok.injEq] at h
    obtain ⟨p, hp, checks, hchecks, rfl⟩ := h
    rw [List.forall_mem_cons] at hwf
    obtain ⟨hx, hid⟩ := digestible_checkPlanRow hwf.1 hp
    obtain ⟨hxs, hids⟩ := digestible_checkPlanRows hwf.2 hchecks
    exact ⟨List.forall_mem_cons.mpr ⟨hx, hxs⟩, List.forall_mem_cons.mpr ⟨hid, hids⟩⟩

theorem digestible_of_exitCode {value : Json}
    (hkind : (match value with
      | .null => true
      | .int _ => true
      | _ => false) = true) : Digestible value := by
  cases value with
  | null => exact ⟨trivial, rfl⟩
  | int n => exact ⟨trivial, rfl⟩
  | _ => cases hkind

theorem digestible_checkBinding {row : Row receiptFields} {binding : Row bindingFields}
    (h : checkBinding row = .ok binding) :
    ∀ k ∈ bindingFields, Digestible (Members.get binding.members k) := by
  simp only [checkBinding, bind_eq_ok, require_eq_ok, exists_const, Except.ok.injEq] at h
  obtain ⟨binding', -, texts, htexts, command, hcommand, artifacts, hartifacts, output, houtput,
    hexit, rfl⟩ := h
  have hexit : Digestible (Members.get binding'.members "exit_code") :=
    digestible_of_exitCode hexit
  intro k hk
  rcases List.mem_append.mp hk with hk | hk
  · obtain ⟨s, hs⟩ := exists_of_mapAll htexts k hk
    exact digestible_of_engineeringText hs
  · simp only [List.mem_cons, List.not_mem_nil, or_false] at hk
    rcases hk with rfl | rfl | rfl | rfl
    · exact hexit
    · exact digestible_of_engineeringHash hcommand
    · exact digestible_of_engineeringHash hartifacts
    · exact digestible_of_engineeringHash houtput

theorem digestible_checkPlan {row : Row receiptFields} {plan : Row planFields} {ticketId : PyStr}
    {steps : List PyStr} {checks : List PlanCheck}
    (hwf : ∀ x ∈ itemsOf (Members.get plan.members "checks"), x.WF)
    (h : checkPlan row = .ok (plan, ticketId, steps, checks)) :
    (∀ k ∈ planFields, Digestible (Members.get plan.members k)) ∧
      ∀ p ∈ checks, p.checkId.all isScalar = true := by
  simp only [checkPlan, bind_eq_ok, require_eq_ok, exists_const, Except.ok.injEq,
    Prod.mk.injEq] at h
  obtain ⟨plan', -, runId, hrunId, ticket, hticket, workspace, hworkspace, environment,
    henvironment, steps', hsteps, platforms, hplatforms, xs, hxs, checks', hchecks, -, rfl, rfl,
    rfl, rfl⟩ := h
  have hchecksGet : Members.get plan'.members "checks" = .arr xs := (listBetween_eq_ok.mp hxs).1
  rw [hchecksGet, itemsOf_arr] at hwf
  obtain ⟨hrows, hids⟩ := digestible_checkPlanRows hwf hchecks
  refine ⟨?_, hids⟩
  simp only [planFields, List.forall_mem_cons, List.not_mem_nil, false_implies, implies_true,
    and_true]
  exact ⟨digestible_of_engineeringText hrunId, digestible_of_engineeringText hticket,
    digestible_of_engineeringHash hworkspace, digestible_of_engineeringHash henvironment,
    digestible_of_scopeOf (by simp [-List.all_eq_true, all_isScalar_lit]) hsteps,
    digestible_of_scopeOf (by simp [-List.all_eq_true, all_isScalar_lit]) hplatforms,
    hchecksGet ▸ digestible_arr hrows⟩

/-- The rows that the loop over the results has read. -/
theorem digestible_of_foldlM : ∀ {pairs : List (PlanCheck × Json)} {s s' : RunState},
    (∀ p ∈ pairs, p.1.checkId.all isScalar = true ∧ p.2.WF) →
      pairs.foldlM (fun (s : RunState) (c : PlanCheck × Json) => s.step c.1 c.2) s = .ok s' →
        ∀ p ∈ pairs, Digestible p.2
  | [], _, _, _, _ => by simp
  | pair :: pairs, s, s', hpairs, h => by
    rw [List.foldlM_cons, bind_eq_ok] at h
    obtain ⟨u, hu, hrest⟩ := h
    rw [List.forall_mem_cons] at hpairs
    simp only [RunState.step, bind_eq_ok] at hu
    obtain ⟨r, hr, -⟩ := hu
    exact List.forall_mem_cons.mpr
      ⟨digestible_checkResultRow hpairs.1.2 hpairs.1.1 hr, digestible_of_foldlM hpairs.2 hrest⟩

theorem pyEqMembers_mem : ∀ {ms ns : Members}, Json.pyEqMembers ms ns = true →
    ∀ m ∈ ms, ∃ y, Dict.get? ns m.1 = some y ∧ Json.pyEq m.2 y = true
  | [], _, _, m, hm => by simp at hm
  | (k, x) :: ms, ns, h, m, hm => by
    rw [Json.pyEqMembers, Bool.and_eq_true] at h
    rcases List.mem_cons.mp hm with rfl | hm
    · have hx := h.1
      split at hx
      · next y hy => exact ⟨y, hy, hx⟩
      · cases hx
    · exact pyEqMembers_mem h.2 m hm

/-- The coverage of an accepted receipt is the one text for each of its fields. -/
theorem digestible_coverage {v : Json} (h : v.pyEq (.obj engineeringCoverage) = true) :
    Digestible v := by
  cases v with
  | obj ms =>
    rw [Json.pyEq, Bool.and_eq_true] at h
    refine digestible_obj fun m hm => ?_
    obtain ⟨y, hy, heq⟩ := pyEqMembers_mem h.2 m hm
    have hmem := Dict.mem_of_get? hy
    have hall : ∀ n ∈ engineeringCoverage, n.1.all isScalar = true ∧
        ∃ s : PyStr, n.2 = .str s ∧ s.all isScalar = true := by
      simp [-List.all_eq_true, engineeringCoverage, all_isScalar_lit]
    obtain ⟨hk, s, hs, hscalar⟩ := hall _ hmem
    simp only at hk hs
    rw [hs, Json.pyEq_str] at heq
    exact ⟨hk, heq ▸ digestible_str hscalar⟩
  | _ => simp [Json.pyEq, Json.number] at h

theorem Digestible.fieldOf {v : Json} (h : Digestible v) (key : PyStr) :
    Digestible (Icode.fieldOf v key) := by
  cases v with
  | obj ms =>
    rw [fieldOf_obj, Members.get]
    cases hget : Dict.get? ms key with
    | none => exact ⟨trivial, rfl⟩
    | some x =>
      have hmem := Dict.mem_of_get? hget
      refine ⟨(Json.encodable_obj.mp h.1 _ hmem).2, ?_⟩
      have hfinite := h.2
      rw [finite] at hfinite
      clear h hget
      induction ms with
      | nil => simp at hmem
      | cons m ms ih =>
        rw [finiteMembers, Bool.and_eq_true] at hfinite
        rcases List.mem_cons.mp hmem with rfl | hmem
        · exact hfinite.1
        · exact ih hmem hfinite.2
  | _ => exact ⟨trivial, rfl⟩

theorem Digestible.text {s : PyStr} (h : Digestible (.str s)) : s.all isScalar = true :=
  h.1

/-- A row of the receipt, member by member. -/
def RowDigestible (ms : Members) : Prop :=
  ∀ m ∈ ms, m.1.all isScalar = true ∧ Digestible m.2

theorem RowDigestible.without {ms : Members} (h : RowDigestible ms) (names : List PyStr) :
    RowDigestible (without ms names) :=
  fun m hm => h m (List.mem_filter.mp hm).1

/-- All that the digests of an accepted receipt read. -/
structure CheckedReceipt.Digests (c : CheckedReceipt) : Prop where
  coverage : Digestible (Members.get c.row.members "coverage")
  binding : RowDigestible c.binding.members
  plan : RowDigestible c.plan.members
  run : RowDigestible c.run.members
  step : c.step.all isScalar = true
  status : c.status.all isScalar = true
  sourceBefore : c.sourceBefore.all isScalar = true
  sourceAfter : c.sourceAfter.all isScalar = true
  category : c.category.all isScalar = true
  failed : ∀ f ∈ c.failed, Digestible f.toJson

theorem exists_of_mem_zipWith {α β γ : Type} {R : α → β → Prop} {f : α → β → γ} {xs : List α}
    {ys : List β} (h : List.Forall₂ R xs ys) {z : γ} (hz : z ∈ List.zipWith f xs ys) :
    ∃ x ∈ xs, ∃ y ∈ ys, R x y ∧ f x y = z := by
  induction h with
  | nil => simp at hz
  | cons hxy _ ih =>
    rw [List.zipWith_cons_cons, List.mem_cons] at hz
    rcases hz with rfl | hz
    · exact ⟨_, List.mem_cons_self .., _, List.mem_cons_self .., hxy, rfl⟩
    · obtain ⟨x, hx, y, hy, hxy, hz⟩ := ih hz
      exact ⟨x, List.mem_cons_of_mem _ hx, y, List.mem_cons_of_mem _ hy, hxy, hz⟩

theorem Members.wf_get {ms : Members} (h : (Json.obj ms).WF) (key : PyStr) :
    (Members.get ms key).WF := by
  rw [Members.get]
  cases hget : Dict.get? ms key with
  | none => exact trivial
  | some x => exact (Json.wf_obj.mp h).2 _ (Dict.mem_of_get? hget)

theorem checkReceipt_digests {receipt : Json} {c : CheckedReceipt} (hwf : receipt.WF)
    (h : checkReceipt receipt = .ok c) : c.Digests := by
  simp only [checkReceipt, bind_eq_ok, require_eq_ok, exists_const, Except.ok.injEq] at h
  obtain ⟨row, hrow, -, hcoverage, binding, hbinding, ⟨plan, ticketId, steps, checks⟩, hplan, run,
    hrun, planDigest, hplanDigest, step, hstep, attempt, hattempt, -, before, hbefore, after,
    hafter, -, status, hstatus, henforced, -, ys, hysList, s, hs, -, rfl⟩ := h
  dsimp only at hysList hs
  obtain rfl := engineeringShape_eq_ok.mp hrow
  have hbindingRow := checkBinding_eq_ok hbinding
  obtain ⟨hplanRow, xs, hxs, hchecks, -⟩ := checkPlan_eq_ok hplan
  have hrunRow := engineeringShape_eq_ok.mp hrun
  obtain ⟨hys, hle, hge⟩ := listBetween_eq_ok.mp hysList
  have hwfBinding : (Json.obj binding.members).WF := hbindingRow ▸ Members.wf_get hwf _
  have hwfPlan : (Json.obj plan.members).WF := hplanRow ▸ Members.wf_get hwf _
  have hwfRun : (Json.obj run.members).WF := hrunRow ▸ Members.wf_get hwf _
  have hwfXs : ∀ x ∈ xs, x.WF := Json.wf_arr.mp (hxs ▸ Members.wf_get hwfPlan _)
  have hwfYs : ∀ y ∈ ys, y.WF := Json.wf_arr.mp (hys ▸ Members.wf_get hwfRun _)
  obtain ⟨hplanFields, hids⟩ := digestible_checkPlan (by
    change ∀ x ∈ itemsOf (Row.get plan "checks" (by simp)), x.WF
    rwa [hxs]) hplan
  have hrows := (digestible_checkPlanRows hwfXs hchecks).1
  have hpairs := digestible_of_foldlM (fun p hp =>
    ⟨hids p.1 (List.of_mem_zip hp).1, hwfYs p.2 (List.of_mem_zip hp).2⟩) hs
  have hysGet : Members.get run.members "checks" = .arr ys := hys
  have hysRows : ∀ y ∈ ys, Digestible y := by
    intro y hy
    obtain ⟨i, hi, rfl⟩ := List.mem_iff_getElem.mp hy
    have hz : i < (checks.zip ys).length := by rw [List.length_zip]; omega
    simpa using hpairs _ (List.getElem_mem hz)
  obtain ⟨rs, hrs⟩ := exists_results hs
  have hfailed : ∀ f ∈ s.failed, Digestible f.toJson := by
    intro f hf
    rw [hrs.failed, List.nil_append, List.mem_filterMap] at hf
    obtain ⟨_, hf, rfl⟩ := hf
    obtain ⟨p, hp, r, -, ⟨hin, -⟩, hr⟩ := exists_of_mem_zipWith hrs.rows hf
    obtain ⟨x, hx, hplanCheck⟩ : ∃ x ∈ xs, PlanCheck.In p.1 x := by
      obtain ⟨i, hi, heq⟩ := List.mem_iff_getElem.mp (List.of_mem_zip hp).1
      have hall := List.forall₂_iff_get.mp (planChecks_in hchecks).1
      have hx : i < xs.length := by omega
      have hcheck := hall.2 i hx hi
      rw [List.get_eq_getElem, heq] at hcheck
      exact ⟨_, List.get_mem xs ⟨i, hx⟩, hcheck⟩
    unfold failedCheck at hr
    split_ifs at hr
    obtain rfl := Option.some.inj hr
    have hrow := hpairs p hp
    refine digestible_obj ?_
    simp only [List.forall_mem_cons, List.not_mem_nil, false_implies, implies_true, and_true,
      all_isScalar_lit, true_and]
    refine ⟨digestible_str (hids p.1 (List.of_mem_zip hp).1),
      hplanCheck.kind ▸ (hrows x hx).fieldOf "kind", hin.status ▸ hrow.fieldOf "status",
      hin.code ▸ hrow.fieldOf "exit_code", ⟨trivial, rfl⟩, hin.error ▸ hrow.fieldOf "error"⟩
  exact {
    coverage := digestible_coverage hcoverage
    binding := digestible_row (Json.wf_obj.mp hwfBinding).1 binding.shape
      (by simp [-List.all_eq_true, all_isScalar_lit]) (digestible_checkBinding hbinding)
    plan := digestible_row (Json.wf_obj.mp hwfPlan).1 plan.shape
      (by simp [-List.all_eq_true, all_isScalar_lit]) hplanFields
    run := digestible_row (Json.wf_obj.mp hwfRun).1 run.shape
      (by simp [-List.all_eq_true, all_isScalar_lit]) (by
        simp only [runFields, List.forall_mem_cons, List.not_mem_nil, false_implies, implies_true,
          and_true]
        refine ⟨digestible_of_engineeringHash hplanDigest, digestible_of_engineeringText hstep,
          digestible_of_engineeringText hattempt,
          digestible_of_textIn (by simp [-List.all_eq_true, engineeringRunStatuses,
            all_isScalar_lit]) hstatus,
          digestible_of_engineeringHash hbefore, digestible_of_engineeringHash hafter, ?_,
          hysGet ▸ digestible_arr hysRows⟩
        split at henforced
        · next b hb =>
          have hb : Members.get run.members "os_enforced" = .bool b := hb
          exact hb ▸ ⟨trivial, rfl⟩
        · cases henforced)
    step := (engineeringText_eq_ok hstep).2
    status := ((textIn_eq_ok.mp hstatus).1 ▸ digestible_of_textIn (by
      simp [-List.all_eq_true, engineeringRunStatuses, all_isScalar_lit]) hstatus).text
    sourceBefore := ((engineeringHash_eq_ok.mp hbefore).1 ▸
      digestible_of_engineeringHash hbefore).text
    sourceAfter := ((engineeringHash_eq_ok.mp hafter).1 ▸
      digestible_of_engineeringHash hafter).text
    category := by
      dsimp only
      split_ifs <;> exact all_isScalar_lit _
    failed := hfailed }

theorem CheckedReceipt.Digests.values_ok {c : CheckedReceipt} (h : c.Digests) :
    c.values = .ok {
      publicProjectionDigest := sha256 (encodePass (Json.dumps (.obj c.plan.members)))
      fingerprint := sha256 (encodePass (Json.dumps c.auditView))
      repairFingerprint := sha256 (encodePass (Json.dumps c.repairView))
      category := c.category
      passed := c.passed
      bindingExitCode := c.exitCode } := by
  have haudit : Digestible c.auditView := by
    refine digestible_obj ?_
    simp only [List.forall_mem_cons, List.not_mem_nil, false_implies, implies_true, and_true,
      all_isScalar_lit, true_and]
    exact ⟨digestible_str (all_isScalar_lit _), ⟨trivial, rfl⟩, h.coverage,
      digestible_obj (h.binding.without _), digestible_obj h.plan,
      digestible_obj (h.run.without _), digestible_str h.category, trivial, rfl⟩
  have hbinding : ∀ k, Digestible (Members.get c.binding.members k) := fun k =>
    (digestible_obj h.binding).fieldOf k
  have hrepair : Digestible c.repairView := by
    refine digestible_obj ?_
    simp only [List.forall_mem_cons, List.not_mem_nil, false_implies, implies_true, and_true,
      all_isScalar_lit, true_and]
    refine ⟨digestible_str (all_isScalar_lit _), ⟨trivial, rfl⟩, digestible_str h.step,
      digestible_obj (h.plan.without _), digestible_str h.sourceBefore,
      digestible_str h.sourceAfter, digestible_obj ?_, digestible_str h.status,
      digestible_str h.category, digestible_arr ?_⟩
    · rintro ⟨k, v⟩ hm
      obtain ⟨k', hk, heq⟩ := List.mem_map.mp hm
      obtain ⟨rfl, rfl⟩ := Prod.mk.inj heq
      refine ⟨?_, hbinding k'⟩
      simp only [engineeringRepairBindingFields, List.mem_cons, List.not_mem_nil, or_false] at hk
      rcases hk with rfl | rfl | rfl | rfl | rfl | rfl | rfl | rfl <;> exact all_isScalar_lit _
    · intro v hv
      obtain ⟨f, hf, rfl⟩ := List.mem_map.mp hv
      exact h.failed f hf
  rw [CheckedReceipt.values, engineeringDigest_ok (digestible_obj h.plan),
    engineeringDigest_ok haudit, engineeringDigest_ok hrepair]
  rfl

/-! ## Soundness of a receipt -/

/-- What a receipt is worth: its category, whether it is passed, and the exit code of the run. -/
structure ReceiptOutcome where
  category : PyStr
  passed : Bool
  bindingExitCode : Option ℤ

/-- `engineering_receipt_values(receipt, compute_digests=False)`. -/
def engineeringReceiptOutcome (receipt : Json) : Except ReceiptError ReceiptOutcome := do
  let c ← checkReceipt receipt
  .ok ⟨c.category, c.passed, c.exitCode⟩

def ReceiptValues.outcome (v : ReceiptValues) : ReceiptOutcome :=
  ⟨v.category, v.passed, v.bindingExitCode⟩

/-- With the digests or without them, a receipt is worth the same. -/
theorem values_outcome {receipt : Json} (hwf : receipt.WF) :
    (engineeringReceiptValues receipt).map ReceiptValues.outcome =
      engineeringReceiptOutcome receipt := by
  cases hc : checkReceipt receipt with
  | error e => simp [engineeringReceiptValues, engineeringReceiptOutcome, hc, Bind.bind,
      Except.bind, Except.map]
  | ok c =>
    have hvalues := (checkReceipt_digests hwf hc).values_ok
    simp [engineeringReceiptValues, engineeringReceiptOutcome, hc, hvalues, Bind.bind, Except.bind,
      Except.map, ReceiptValues.outcome]

/-- A receipt that is accepted as passed has earned it, a failure stops every accepted receipt, and
the digests change nothing. -/
theorem receipt_sound (receipt : Json) (hwf : receipt.WF) :
    (engineeringReceiptValues receipt).map ReceiptValues.outcome =
        engineeringReceiptOutcome receipt ∧
      ∀ o, engineeringReceiptOutcome receipt = .ok o →
        StopsAtFailure receipt ∧ (o.passed = true → Earned receipt) := by
  refine ⟨values_outcome hwf, fun o ho => ?_⟩
  simp only [engineeringReceiptOutcome, bind_eq_ok, Except.ok.injEq] at ho
  obtain ⟨c, hc, rfl⟩ := ho
  obtain ⟨xs, ys, checks, rs, s, hfacts⟩ := checkReceipt_facts hc
  exact ⟨hfacts.stopsAtFailure, hfacts.earned⟩

/-! ### Sample receipts -/

mutual

/-- Whether the keys of every object are distinct is decided. -/
def decidableWF : (value : Json) → Decidable value.WF
  | .arr xs => decidableWFList xs
  | .obj ms => @instDecidableAnd _ _ inferInstance (decidableWFMembers ms)
  | .null | .bool _ | .int _ | .float _ | .str _ => isTrue trivial

def decidableWFList : (xs : List Json) → Decidable (Json.WFList xs)
  | [] => isTrue trivial
  | x :: xs => @instDecidableAnd _ _ (decidableWF x) (decidableWFList xs)

def decidableWFMembers : (ms : Members) → Decidable (Json.WFMembers ms)
  | [] => isTrue trivial
  | (_, x) :: ms => @instDecidableAnd _ _ (decidableWF x) (decidableWFMembers ms)

end

instance : DecidablePred Json.WF :=
  decidableWF

def sampleDigest : PyStr :=
  List.replicate 64 (.scalar 'a')

def samplePlan (runId : PyStr) : Json :=
  .obj [("run_id", .str runId), ("ticket_id", .str "t1"), ("workspace_sha256", .str sampleDigest),
    ("environment_sha256", .str sampleDigest), ("steps", .arr [.str "code"]),
    ("platforms", .arr [.str "Linux"]),
    ("checks", .arr [.obj [("check_id", .str "unit"), ("kind", .str "test"),
      ("adapter", .str "unittest_summary_v1"), ("required", .bool true),
      ("tool_sha256", .str sampleDigest), ("parameters_sha256", .str sampleDigest),
      ("timeout_seconds", .int 60), ("output_limit_bytes", .int 1024)]])]

/-- The receipt of a run of one test, which has ended with the status and the exit code. -/
def sampleReceipt (runId status : PyStr) (code count : ℤ) : Json :=
  .obj [("kind", .str "engineering_verification"), ("schema_version", .int 1),
    ("coverage", .obj engineeringCoverage),
    ("binding", .obj (engineeringBindingTextFields.map (fun k => (k, .str
        (if k = lit "step" then lit "code"
        else if k = lit "attempt" ∨ k = lit "execution_attempt" then lit "1"
        else if k = lit "tested_worktree_fingerprint" then sampleDigest else []))) ++
      [(lit "exit_code", .null), (lit "command_sha256", .str sampleDigest),
        (lit "artifact_hashes_sha256", .str sampleDigest),
        (lit "output_sha256", .str sampleDigest)])),
    ("public_plan", samplePlan runId),
    ("public_projection_digest", .str []),
    ("run", .obj [("plan_digest", .str sampleDigest), ("step", .str "code"),
      ("attempt", .str "1"), ("status", .str status), ("source_before", .str sampleDigest),
      ("source_after", .str sampleDigest), ("os_enforced", .bool false),
      ("checks", .arr [.obj [("check_id", .str "unit"), ("status", .str status),
        ("exit_code", .int code), ("tests_passed", .int count), ("output_sha256", .str sampleDigest),
        ("output_bytes", .int 10), ("cleanup_ok", .bool true), ("cleanup_scope", .str "job_tree"),
        ("cache_owner_cleanup_confirmed", .bool true), ("scope_cleanup_ok", .null),
        ("resource_channel_status", .str "not_required"),
        ("violation_observer_status", .str "not_required"),
        ("resource_receipt_sha256", .str []), ("error", .str [])]])]),
    ("category", .str []), ("passed", .bool false), ("fingerprint", .str []),
    ("repair_fingerprint", .str [])]

/-- The receipt is accepted with the category, as passed or not. -/
def isWorth (category : PyStr) (passed : Bool) (receipt : Json) : Bool :=
  match engineeringReceiptOutcome receipt with
  | .ok o => o.category == category && o.passed == passed
  | .error _ => false

/-- One run passes; three others fail, the first two of them with the same exit code. -/
theorem sampleReceipts_run :
    (sampleReceipt "r1" "passed" 0 3).WF ∧ isWorth "test" true (sampleReceipt "r1" "passed" 0 3) ∧
      (sampleReceipt "r1" "failed" 1 0).WF ∧ isWorth "code" false (sampleReceipt "r1" "failed" 1 0)
      ∧ (sampleReceipt "r2" "failed" 1 0).WF ∧
      isWorth "code" false (sampleReceipt "r2" "failed" 1 0) ∧
      (sampleReceipt "r2" "failed" 2 0).WF ∧
      isWorth "code" false (sampleReceipt "r2" "failed" 2 0) := by
  decide +kernel

theorem exists_of_isWorth {category : PyStr} {passed : Bool} {receipt : Json}
    (h : isWorth category passed receipt = true) :
    ∃ c, checkReceipt receipt = .ok c ∧ c.category = category ∧ c.passed = passed := by
  unfold isWorth engineeringReceiptOutcome at h
  cases hc : checkReceipt receipt with
  | error e => simp [hc, bind, Except.bind] at h
  | ok c => exact ⟨c, rfl, by simpa [hc, bind, Except.bind] using h⟩

theorem receipt_sound_sample :
    ∃ o, engineeringReceiptOutcome (sampleReceipt "r1" "passed" 0 3) = .ok o ∧ o.passed = true ∧
      Earned (sampleReceipt "r1" "passed" 0 3) := by
  obtain ⟨hwf, hworth, -⟩ := sampleReceipts_run
  obtain ⟨-, hsound⟩ := receipt_sound _ hwf
  obtain ⟨c, hc, -, hpassed⟩ := exists_of_isWorth hworth
  have ho : engineeringReceiptOutcome (sampleReceipt "r1" "passed" 0 3) =
      .ok ⟨c.category, c.passed, c.exitCode⟩ := by
    rw [engineeringReceiptOutcome, hc]
    rfl
  exact ⟨_, ho, hpassed, (hsound _ ho).2 hpassed⟩

end Icode
