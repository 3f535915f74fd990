import Icode.ReceiptRules

/-!
# The repair fingerprint

The repair fingerprint of a receipt decides whether a failure is a new one. Two accepted receipts
that differ only in their labels have the same one (`repairFingerprint_of_sameButLabels`), and for a
failure in the code, the view that is digested fixes the checks of the plan, the status and the
exit code of each of them and the source (`observed_of_repairView`). `repair_noninterference` is
both.
-/

namespace Py

/-! ## The same value -/

namespace Json

theorem eq_of_same {a b : Json} (h : Same a b) (harr : a.isArr = false) (hobj : a.isObj = false) :
    a = b := by
  cases a <;> cases b <;> simp_all [Same, canonical, isArr, isObj]

theorem same_arr {xs ys : List Json} : Same (.arr xs) (.arr ys) ↔ List.Forall₂ Same xs ys := by
  rw [Same, canonical_arr, canonical_arr, Json.arr.injEq]
  constructor
  · intro h
    refine List.forall₂_iff_get.mpr ⟨by simpa using congrArg List.length h, fun i hx hy => ?_⟩
    have hget := congrArg (fun l : List Json => l[i]?) h
    simpa [Same, hx, hy] using hget
  · intro h
    induction h with
    | nil => rfl
    | cons hxy _ ih => rw [List.map_cons, List.map_cons, ih, hxy]

/-- Members under the same keys, in the same order. -/
theorem same_obj_of_forall₂ {a b : Members}
    (h : List.Forall₂ (fun m n => m.1 = n.1 ∧ Same m.2 n.2) a b) : Same (.obj a) (.obj b) := by
  have hmap : (a.map fun m => (m.1, canonical m.2)) = b.map fun m => (m.1, canonical m.2) := by
    induction h with
    | nil => rfl
    | cons hmn _ ih => rw [List.map_cons, List.map_cons, ih, hmn.1, hmn.2]
  rw [Same, canonical_obj, canonical_obj, hmap]

end Json

end Py

namespace Icode

open Py

theorem same_fieldOf {a b : Json} (h : Json.Same a b) (key : PyStr) :
    Json.Same (fieldOf a key) (fieldOf b key) := by
  cases a <;> cases b <;> try exact Json.Same.refl _
  case obj.obj ms ns => exact canonical_get_of_same h key
  all_goals simp [Json.Same, Json.canonical] at h

theorem eq_str_of_same {v : Json} {s : PyStr} (h : Json.Same (.str s) v) : v = .str s :=
  (Json.eq_of_same h rfl rfl).symm

theorem get_without {ms : Members} {names : List PyStr} {k : PyStr} (h : k ∉ names) :
    Members.get (without ms names) k = Members.get ms k := by
  rw [Members.get, Members.get, without]
  congr 1
  induction ms with
  | nil => rfl
  | cons m ms ih =>
    rw [List.filter_cons, Dict.get?_cons]
    by_cases hm : m.1 = k
    · have hkeep : (!names.contains m.1) = true := by simpa [hm] using h
      rw [if_pos hkeep, Dict.get?_cons, if_pos hm, if_pos hm]
    · rw [if_neg hm, ← ih]
      split_ifs
      · rw [Dict.get?_cons, if_neg hm]
      · rfl

/-- Rows that agree outside `names` are the same without `names`. -/
theorem same_without {fields names : List PyStr} {a b : Members} (ha : a.keys.Nodup)
    (hb : b.keys.Nodup) (hka : Members.keysAre a fields = true)
    (hkb : Members.keysAre b fields = true)
    (h : ∀ k, k ∉ names → Json.Same (Members.get a k) (Members.get b k)) :
    Json.Same (.obj (without a names)) (.obj (without b names)) := by
  have hnodup : ∀ {ms : Members}, ms.keys.Nodup → (without ms names).keys.Nodup := fun hms =>
    (List.filter_sublist.map Prod.fst).nodup hms
  have hmem : ∀ {ms : Members}, ms.keys.Nodup → Members.keysAre ms fields = true →
      ∀ k v, (k, v) ∈ (without ms names).map (fun m => (m.1, Json.canonical m.2)) ↔
        k ∈ fields ∧ k ∉ names ∧ v = (Members.get ms k).canonical := by
    intro ms hms hkeys k v
    rw [Members.keysAre_iff] at hkeys
    simp only [without, List.mem_map, List.mem_filter, Bool.not_eq_true', Prod.mk.injEq]
    constructor
    · rintro ⟨m, ⟨hm, hname⟩, rfl, rfl⟩
      refine ⟨(hkeys m.1).mp (List.mem_map_of_mem hm), by simpa using hname, ?_⟩
      rw [Members.get, Dict.get?_of_mem hms hm, Option.getD_some]
    · rintro ⟨hk, hname, rfl⟩
      obtain ⟨m, hm, rfl⟩ := List.mem_map.mp ((hkeys k).mpr hk)
      refine ⟨m, ⟨hm, by simpa using hname⟩, rfl, ?_⟩
      rw [Members.get, Dict.get?_of_mem hms hm, Option.getD_some]
  have hpairs : ∀ {ms : Members}, ms.keys.Nodup →
      ((without ms names).map fun m => (m.1, Json.canonical m.2)).Nodup := fun hms =>
    List.Nodup.of_map Prod.fst (by simpa [Function.comp_def, Dict.keys] using hnodup hms)
  rw [Json.same_obj_iff_perm (hnodup ha)]
  refine (List.perm_ext_iff_of_nodup (hpairs ha) (hpairs hb)).mpr ?_
  rintro ⟨k, v⟩
  rw [hmem ha hka, hmem hb hkb]
  constructor
  · rintro ⟨hk, hname, rfl⟩
    exact ⟨hk, hname, h k hname⟩
  · rintro ⟨hk, hname, rfl⟩
    exact ⟨hk, hname, (h k hname).symm⟩

/-! ## The rows of the same receipt -/

theorem PlanCheck.In.eq_of_same {p q : PlanCheck} {v w : Json} (hp : p.In v) (hq : q.In w)
    (h : Json.Same v w) : p = q := by
  have hid := same_fieldOf h "check_id"
  have hkind := same_fieldOf h "kind"
  have hrequired := same_fieldOf h "required"
  have htimeout := same_fieldOf h "timeout_seconds"
  have hlimit := same_fieldOf h "output_limit_bytes"
  rw [hp.checkId, hq.checkId] at hid
  rw [hp.kind, hq.kind] at hkind
  rw [hp.required, hq.required] at hrequired
  rw [hp.timeout, hq.timeout] at htimeout
  rw [hp.outputLimit, hq.outputLimit] at hlimit
  have hscalar : p.timeout.isArr = false ∧ p.timeout.isObj = false := by
    have hnumber := hp.scalar
    generalize p.timeout = v at hnumber
    cases v <;> simp_all [Json.number, Json.isArr, Json.isObj]
  have htimeout := Json.eq_of_same htimeout hscalar.1 hscalar.2
  obtain ⟨id, kind, required, timeout, limit⟩ := p
  obtain ⟨id', kind', required', timeout', limit'⟩ := q
  simp only [PlanCheck.mk.injEq]
  refine ⟨Json.str.inj (Json.eq_of_same hid rfl rfl), Json.str.inj (Json.eq_of_same hkind rfl rfl),
    Json.bool.inj (Json.eq_of_same hrequired rfl rfl), htimeout,
    Json.int.inj (Json.eq_of_same hlimit rfl rfl)⟩

theorem exitCodeJson_injective : Function.Injective exitCodeJson := by
  rintro (_ | m) (_ | n) h <;> simp_all [exitCodeJson]

theorem optionalBoolJson_injective : Function.Injective optionalBoolJson := by
  rintro (_ | b) (_ | c) h <;> simp_all [optionalBoolJson]

theorem eq_of_same_exitCode {m n : Option ℤ} (h : Json.Same (exitCodeJson m) (exitCodeJson n)) :
    m = n :=
  exitCodeJson_injective (Json.eq_of_same h (by cases m <;> rfl) (by cases m <;> rfl))

theorem eq_of_same_optionalBool {b c : Option Bool}
    (h : Json.Same (optionalBoolJson b) (optionalBoolJson c)) : b = c :=
  optionalBoolJson_injective (Json.eq_of_same h (by cases b <;> rfl) (by cases b <;> rfl))

theorem eq_of_same_text {s t : PyStr} (h : Json.Same (.str s) (.str t)) : s = t :=
  Json.str.inj (Json.eq_of_same h rfl rfl)

theorem eq_of_same_int {m n : ℤ} (h : Json.Same (.int m) (.int n)) : m = n :=
  Json.int.inj (Json.eq_of_same h rfl rfl)

theorem CheckResult.In.eq_of_same {r t : CheckResult} {check check' : PlanCheck} {v w : Json}
    (hr : r.In check v) (ht : t.In check' w) (h : Json.Same v w) : r = t := by
  have hfield := same_fieldOf h
  have hstatus := hr.status ▸ ht.status ▸ hfield "status"
  have hcode := hr.code ▸ ht.code ▸ hfield "exit_code"
  have hcount := hr.count ▸ ht.count ▸ hfield "tests_passed"
  have hbytes := hr.outputBytes ▸ ht.outputBytes ▸ hfield "output_bytes"
  have hsha := hr.outputSha256 ▸ ht.outputSha256 ▸ hfield "output_sha256"
  have hreceipt := hr.resourceReceipt ▸ ht.resourceReceipt ▸ hfield "resource_receipt_sha256"
  have hcleanup := hr.cleanupOk ▸ ht.cleanupOk ▸ hfield "cleanup_ok"
  have hscopeOk := hr.scopeCleanupOk ▸ ht.scopeCleanupOk ▸ hfield "scope_cleanup_ok"
  have hcache :=
    hr.cacheOwnerConfirmed ▸ ht.cacheOwnerConfirmed ▸ hfield "cache_owner_cleanup_confirmed"
  have hscope := hr.cleanupScope ▸ ht.cleanupScope ▸ hfield "cleanup_scope"
  have hchannel := hr.resourceChannel ▸ ht.resourceChannel ▸ hfield "resource_channel_status"
  have hobserver :=
    hr.violationObserver ▸ ht.violationObserver ▸ hfield "violation_observer_status"
  have herror := hr.error ▸ ht.error ▸ hfield "error"
  cases r
  cases t
  simp only [CheckResult.mk.injEq]
  exact ⟨eq_of_same_text hstatus, eq_of_same_exitCode hcode, eq_of_same_int hcount,
    eq_of_same_int hbytes, eq_of_same_text hsha, eq_of_same_text hreceipt,
    eq_of_same_optionalBool hcleanup, eq_of_same_optionalBool hscopeOk,
    eq_of_same_optionalBool hcache, eq_of_same_text hscope, eq_of_same_text hchannel,
    eq_of_same_text hobserver, eq_of_same_text herror⟩

theorem planChecks_eq_of_same {xs xs' : List Json} {checks checks' : List PlanCheck}
    (h : List.Forall₂ (fun x p => PlanCheck.In p x) xs checks)
    (h' : List.Forall₂ (fun x p => PlanCheck.In p x) xs' checks')
    (hsame : List.Forall₂ Json.Same xs xs') : checks = checks' := by
  induction h generalizing xs' checks' with
  | nil =>
    cases hsame
    cases h'
    rfl
  | cons hp _ ih =>
    cases hsame with
    | cons hx hxs =>
      cases h' with
      | cons hq hqs => rw [hp.eq_of_same hq hx, ih hqs hxs]

theorem results_eq_of_same {checks : List PlanCheck} {ys ys' : List Json}
    {rs rs' : List CheckResult}
    (h : List.Forall₂ (fun p r => CheckResult.In r p.1 p.2 ∧ r.Fits p.1) (checks.zip ys) rs)
    (h' : List.Forall₂ (fun p r => CheckResult.In r p.1 p.2 ∧ r.Fits p.1) (checks.zip ys') rs')
    (hsame : List.Forall₂ Json.Same ys ys') : rs = rs' := by
  induction hsame generalizing checks rs rs' with
  | nil =>
    rw [List.zip_nil_right] at h h'
    cases h
    cases h'
    rfl
  | cons hy _ ih =>
    cases checks with
    | nil =>
      cases h
      cases h'
      rfl
    | cons check checks =>
      rw [List.zip_cons_cons] at h h'
      cases h with
      | cons hr hrs =>
        cases h' with
        | cons ht hts => rw [hr.1.eq_of_same ht.1 hy, ih hrs hts]

/-! ## Labels -/

/-- The fields of a binding that label an attempt or a commit, or digest such a label. -/
def bindingLabels : List PyStr :=
  ["attempt", "execution_attempt", "captured_at", "result_commit_sha", "result_commit_tree_oid",
    "result_commit_tree_status", "result_commit_timing_status", "result_commit_checked_at",
    "command_sha256"]

/-- The fields of a plan that name the run and the ticket. -/
def planLabels : List PyStr :=
  ["run_id", "ticket_id"]

/-- The fields of a run that label the attempt, or digest the names in the plan. -/
def runLabels : List PyStr :=
  ["attempt", "plan_digest"]

/-- The receipts differ at most in their labels. -/
structure SameButLabels (a b : Json) : Prop where
  binding : ∀ k, k ∉ bindingLabels →
    Json.Same (fieldOf (fieldOf a "binding") k) (fieldOf (fieldOf b "binding") k)
  plan : ∀ k, k ∉ planLabels →
    Json.Same (fieldOf (fieldOf a "public_plan") k) (fieldOf (fieldOf b "public_plan") k)
  run : ∀ k, k ∉ runLabels →
    Json.Same (fieldOf (fieldOf a "run") k) (fieldOf (fieldOf b "run") k)

/-- The checks that were run and did not pass. -/
def failures (checks : List PlanCheck) (rs : List CheckResult) : List FailedCheck :=
  (List.zipWith failedCheck checks rs).filterMap id

section Views

variable {a b : Json} {c d : CheckedReceipt} {xs ys xs' ys' : List Json}
  {checks checks' : List PlanCheck} {rs rs' : List CheckResult} {s s' : RunState}

theorem CheckedReceipt.Facts.failed_eq (h : c.Facts a xs ys checks rs s) :
    s.failed = failures checks rs := by
  have hlen := h.length_eq
  have hzip : List.zipWith (fun (p : PlanCheck × Json) r => failedCheck p.1 r) (checks.zip ys) rs =
      List.zipWith failedCheck checks rs := by
    refine List.ext_getElem ?_ fun i hi hj => ?_
    · rw [List.length_zipWith, List.length_zipWith, List.length_zip]
      omega
    · simp
  rw [h.results.failed, hzip]
  rfl

/-- The rows of the checks and the source fix what a receipt has observed. -/
theorem CheckedReceipt.Facts.observed_eq (h : c.Facts a xs ys checks rs s)
    (h' : d.Facts b xs' ys' checks' rs' s') (hplan : List.Forall₂ Json.Same xs xs')
    (hrun : List.Forall₂ Json.Same ys ys') (hstatus : c.status = d.status)
    (hbefore : c.sourceBefore = d.sourceBefore) (hafter : c.sourceAfter = d.sourceAfter) :
    c.category = d.category ∧ c.failed = d.failed := by
  obtain rfl := planChecks_eq_of_same (planChecks_in h.planChecks).1 (planChecks_in h'.planChecks).1
    hplan
  obtain rfl := results_eq_of_same h.results.rows h'.results.rows hrun
  have hunknown : s.unknown = s'.unknown := by
    rw [h.results.unknown, h'.results.unknown, hbefore, hafter]
  have hfailed : s.failed = s'.failed := by
    rw [h.failed_eq, h'.failed_eq]
  exact ⟨by rw [h.category, h'.category, hunknown, hstatus, hfailed],
    by rw [h.failed, h'.failed, hfailed]⟩

theorem same_repairView (hwfa : a.WF) (hwfb : b.WF) (h : c.Facts a xs ys checks rs s)
    (h' : d.Facts b xs' ys' checks' rs' s') (hsame : SameButLabels a b) :
    Json.Same c.repairView d.repairView := by
  have hrun : ∀ k, k ∉ runLabels →
      Json.Same (Members.get c.run.members k) (Members.get d.run.members k) := by
    intro k hk
    simpa [h.run, h'.run] using hsame.run k hk
  have hplan : ∀ k, k ∉ planLabels →
      Json.Same (Members.get c.plan.members k) (Members.get d.plan.members k) := by
    intro k hk
    simpa [h.plan, h'.plan] using hsame.plan k hk
  have hbinding : ∀ k, k ∉ bindingLabels →
      Json.Same (Members.get c.binding.members k) (Members.get d.binding.members k) := by
    intro k hk
    simpa [h.binding, h'.binding] using hsame.binding k hk
  have hstep := hrun "step" (by decide)
  have hstatus := hrun "status" (by decide)
  have hbefore := hrun "source_before" (by decide)
  have hafter := hrun "source_after" (by decide)
  have hrows := hrun "checks" (by decide)
  have hplanRows := hplan "checks" (by decide)
  rw [h.step, h'.step] at hstep
  rw [h.status, h'.status] at hstatus
  rw [h.sourceBefore, h'.sourceBefore] at hbefore
  rw [h.sourceAfter, h'.sourceAfter] at hafter
  rw [h.runRows, h'.runRows, Json.same_arr] at hrows
  rw [h.planRows, h'.planRows, Json.same_arr] at hplanRows
  have hstatus := eq_of_same_text hstatus
  have hbefore := eq_of_same_text hbefore
  have hafter := eq_of_same_text hafter
  obtain ⟨hcategory, hfailed⟩ := h.observed_eq h' hplanRows hrows hstatus hbefore hafter
  have hwf : ∀ {r : Json} {key : PyStr} {ms : Members}, r.WF → fieldOf r key = .obj ms →
      ms.keys.Nodup := by
    intro r key ms hr hms
    cases r with
    | obj ns =>
      rw [fieldOf_obj] at hms
      exact (Json.wf_obj.mp (hms ▸ Members.wf_get hr key)).1
    | _ => cases hms
  unfold CheckedReceipt.repairView
  rw [eq_of_same_text hstep, hstatus, hbefore, hafter, hcategory, hfailed]
  refine Json.same_obj_of_forall₂ (.cons ⟨rfl, .refl _⟩ (.cons ⟨rfl, .refl _⟩ (.cons ⟨rfl, .refl _⟩
    (.cons ⟨rfl, ?_⟩ (.cons ⟨rfl, .refl _⟩ (.cons ⟨rfl, .refl _⟩ (.cons ⟨rfl, ?_⟩
      (.cons ⟨rfl, .refl _⟩ (.cons ⟨rfl, .refl _⟩ (.cons ⟨rfl, .refl _⟩ .nil))))))))))
  · exact same_without (hwf hwfa h.plan) (hwf hwfb h'.plan) c.plan.shape d.plan.shape hplan
  · refine Json.same_obj_of_forall₂ ?_
    rw [List.forall₂_map_left_iff, List.forall₂_map_right_iff, List.forall₂_same]
    intro k hk
    refine ⟨rfl, hbinding k ?_⟩
    revert k
    decide

/-! ## What the view of a failure fixes -/

/-- The status and the exit code of a check. -/
def CheckResult.ending (r : CheckResult) : PyStr × Option ℤ :=
  (r.status, r.code)

/-- How a check can end when nobody doubts what it has done. -/
def CheckResult.Settled (r : CheckResult) : Prop :=
  r.ending = (lit "passed", some 0) ∨ r.status = lit "failed" ∨
    r.ending = (lit "not_run", none)

theorem CheckResult.Fits.settled {r : CheckResult} {check : PlanCheck} {row : Json}
    (hfits : r.Fits check) (hin : r.In check row) (hsure : r.unsure = false) : r.Settled := by
  by_cases hran : r.status = lit "not_run"
  · exact Or.inr (Or.inr (Prod.ext hran (hfits.notRun hran)))
  · rcases (CheckResult.closed_of_sure hsure hran).2 with hpassed | hfailed
    · refine Or.inl (Prod.ext hpassed ?_)
      have hexit := (hfits.passed hin hpassed).1
      rw [hin.code] at hexit
      exact exitCodeJson_injective hexit
    · exact Or.inr (Or.inl hfailed)

theorem checkId_mem_of_failures {checks : List PlanCheck} {rs : List CheckResult} {f : FailedCheck}
    (h : f ∈ failures checks rs) : f.checkId ∈ checks.map PlanCheck.checkId := by
  induction checks generalizing rs with
  | nil => simp [failures] at h
  | cons check checks ih =>
    cases rs with
    | nil => simp [failures] at h
    | cons r rs =>
      rw [failures, List.zipWith_cons_cons, List.filterMap_cons] at h
      unfold failedCheck at h
      split_ifs at h
      · exact List.mem_cons_of_mem _ (ih h)
      · rcases List.mem_cons.mp h with rfl | h
        · exact List.mem_cons_self ..
        · exact List.mem_cons_of_mem _ (ih h)

theorem failures_eq_nil {checks : List PlanCheck} {rs : List CheckResult}
    (h : ∀ r ∈ rs, r.status = lit "not_run") : failures checks rs = [] := by
  induction checks generalizing rs with
  | nil => rfl
  | cons check checks ih =>
    cases rs with
    | nil => rfl
    | cons r rs =>
      rw [List.forall_mem_cons] at h
      rw [failures, List.zipWith_cons_cons, List.filterMap_cons, failedCheck, if_pos (Or.inr h.1)]
      exact ih h.2

theorem failures_passed {check : PlanCheck} {checks : List PlanCheck} {r : CheckResult}
    {rs : List CheckResult} (h : r.status = lit "passed") :
    failures (check :: checks) (r :: rs) = failures checks rs := by
  rw [failures, List.zipWith_cons_cons, List.filterMap_cons, failedCheck, if_pos (Or.inl h)]
  rfl

theorem failures_failed {check : PlanCheck} {checks : List PlanCheck} {r : CheckResult}
    {rs : List CheckResult} (h : r.status = lit "failed") :
    failures (check :: checks) (r :: rs) =
      ⟨check.checkId, check.kind, r.status, r.code, r.count, r.error⟩ :: failures checks rs := by
  have hne : ¬(r.status = lit "passed" ∨ r.status = lit "not_run") := by
    rw [h]
    decide
  rw [failures, List.zipWith_cons_cons, List.filterMap_cons, failedCheck, if_neg hne]
  rfl

theorem ending_notRun {rs : List CheckResult} (hsettled : ∀ r ∈ rs, r.Settled)
    (h : ∀ r ∈ rs, r.status = lit "not_run") :
    rs.map CheckResult.ending = List.replicate rs.length (lit "not_run", none) := by
  refine List.eq_replicate_iff.mpr ⟨by simp, fun e he => ?_⟩
  obtain ⟨r, hr, rfl⟩ := List.mem_map.mp he
  have hstatus := h r hr
  rcases hsettled r hr with hend | hend | hend
  · exact absurd (hstatus.symm.trans (congrArg Prod.fst hend)) (by decide)
  · exact absurd (hstatus.symm.trans hend) (by decide)
  · exact hend

/-- Before the failed check all have passed, and after it none was run. -/
theorem ending_eq_of_failures {checks : List PlanCheck} : ∀ {rs rs' : List CheckResult},
    (checks.map PlanCheck.checkId).Nodup → checks.length = rs.length →
      checks.length = rs'.length → (∀ r ∈ rs, r.Settled) → (∀ r ∈ rs', r.Settled) →
        (rs.Pairwise fun x y => x.status ≠ lit "passed" → y.status = lit "not_run") →
          (rs'.Pairwise fun x y => x.status ≠ lit "passed" → y.status = lit "not_run") →
            failures checks rs ≠ [] → failures checks rs = failures checks rs' →
              rs.map CheckResult.ending = rs'.map CheckResult.ending := by
  induction checks with
  | nil =>
    intro rs rs' _ _ _ _ _ _ _ hne _
    exact absurd rfl hne
  | cons check checks ih =>
    intro rs rs' hnd hlen hlen' hset hset' hord hord' hne heq
    cases rs with
    | nil => cases hlen
    | cons r rs =>
      cases rs' with
      | nil => cases hlen'
      | cons t ts =>
        rw [List.map_cons, List.nodup_cons] at hnd
        rw [List.forall_mem_cons] at hset hset'
        rw [List.pairwise_cons] at hord hord'
        rw [List.length_cons, List.length_cons, Nat.add_right_cancel_iff] at hlen hlen'
        have hrest : ∀ {q : CheckResult} {qs : List CheckResult}, q.status ≠ lit "passed" →
            (∀ y ∈ qs, q.status ≠ lit "passed" → y.status = lit "not_run") →
              ∀ y ∈ qs, y.status = lit "not_run" := fun hq hall y hy => hall y hy hq
        have hfailedNe : ∀ {q : CheckResult}, q.status = lit "failed" → q.status ≠ lit "passed" :=
          fun hq => by rw [hq]; decide
        have hnotRun : ∀ {q : CheckResult} {qs : List CheckResult},
            q.ending = (lit "not_run", none) →
              (∀ y ∈ qs, q.status ≠ lit "passed" → y.status = lit "not_run") →
                failures (check :: checks) (q :: qs) = [] := by
          intro q qs hq hall
          have hstatus : q.status = lit "not_run" := congrArg Prod.fst hq
          refine failures_eq_nil (List.forall_mem_cons.mpr ⟨hstatus, hrest ?_ hall⟩)
          rw [hstatus]
          decide
        -- a failure of this check is no failure of a later one
        have hapart : ∀ {q p : CheckResult} {qs ps : List CheckResult}, q.status = lit "passed" →
            p.status = lit "failed" →
              failures (check :: checks) (q :: qs) ≠ failures (check :: checks) (p :: ps) := by
          intro q p qs ps hq hp heq
          rw [failures_passed hq, failures_failed hp] at heq
          have hmem : check.checkId ∈ checks.map PlanCheck.checkId :=
            checkId_mem_of_failures (heq ▸ List.mem_cons_self ..)
          exact hnd.1 hmem
        rw [List.map_cons, List.map_cons]
        rcases hset.1 with hr | hr | hr
        · have hr' : r.status = lit "passed" := congrArg Prod.fst hr
          rcases hset'.1 with ht | ht | ht
          · have ht' : t.status = lit "passed" := congrArg Prod.fst ht
            rw [failures_passed hr'] at hne
            rw [failures_passed hr', failures_passed ht'] at heq
            rw [hr, ht, ih hnd.2 hlen hlen' hset.2 hset'.2 hord.2 hord'.2 hne heq]
          · exact absurd heq (hapart hr' ht)
          · exact absurd (heq.trans (hnotRun ht hord'.1)) hne
        · rcases hset'.1 with ht | ht | ht
          · exact absurd heq.symm (hapart (congrArg Prod.fst ht) hr)
          · rw [failures_failed hr, failures_failed ht, List.cons.injEq, FailedCheck.mk.injEq] at heq
            rw [CheckResult.ending, CheckResult.ending, heq.1.2.2.1, heq.1.2.2.2.1,
              ending_notRun hset.2 (hrest (hfailedNe hr) hord.1),
              ending_notRun hset'.2 (hrest (hfailedNe ht) hord'.1), ← hlen, ← hlen']
          · exact absurd (heq.trans (hnotRun ht hord'.1)) hne
        · exact absurd (hnotRun hr hord.1) hne

/-! ## Noninterference -/

/-- The receipts have the same checks in their plans, each with the same status and exit code, and
the same sources. -/
structure ObservedAlike (a b : Json) : Prop where
  plan : List.Forall₂ Json.Same (planRowsOf a) (planRowsOf b)
  run : List.Forall₂ (fun x y => fieldOf x "status" = fieldOf y "status" ∧
    fieldOf x "exit_code" = fieldOf y "exit_code") (runRowsOf a) (runRowsOf b)
  sourceBefore :
    fieldOf (fieldOf a "run") "source_before" = fieldOf (fieldOf b "run") "source_before"
  sourceAfter : fieldOf (fieldOf a "run") "source_after" = fieldOf (fieldOf b "run") "source_after"

theorem CheckedReceipt.Facts.code (h : c.Facts a xs ys checks rs s)
    (hcode : c.category = lit "code") : (∀ r ∈ rs, r.unsure = false) ∧ failures checks rs ≠ [] := by
  rw [h.category] at hcode
  split_ifs at hcode with hunknown hempty
  · exact absurd hcode (by decide)
  · exact absurd hcode (by decide)
  · rw [Bool.not_eq_true, Bool.or_eq_false_iff, h.results.unknown, Bool.or_eq_false_iff,
      List.any_eq_false] at hunknown
    refine ⟨fun r hr => Bool.eq_false_iff.mpr (hunknown.1.2 r hr), ?_⟩
    rw [← h.failed_eq]
    simpa using hempty

/-- The results end as they were read. -/
theorem CheckedReceipt.Facts.settled (h : c.Facts a xs ys checks rs s)
    (hsure : ∀ r ∈ rs, r.unsure = false) : ∀ r ∈ rs, r.Settled := by
  intro r hr
  obtain ⟨i, hi, rfl⟩ := List.mem_iff_getElem.mp hr
  have hlen := h.length_eq
  obtain ⟨hin, hfits⟩ := h.row i (by omega) (by omega) hi
  exact hfits.settled hin (hsure _ hr)

theorem failedCheck_toJson_injective {f g : FailedCheck} (h : Json.Same f.toJson g.toJson) :
    f = g := by
  have hfield := same_fieldOf h
  have hid : Json.Same (.str f.checkId) (.str g.checkId) := hfield "check_id"
  have hkind : Json.Same (.str f.kind) (.str g.kind) := hfield "kind"
  have hstatus : Json.Same (.str f.status) (.str g.status) := hfield "status"
  have hcode : Json.Same (exitCodeJson f.exitCode) (exitCodeJson g.exitCode) := hfield "exit_code"
  have hcount : Json.Same (.int f.testsPassed) (.int g.testsPassed) := hfield "tests_passed"
  have herror : Json.Same (.str f.error) (.str g.error) := hfield "error"
  cases f
  cases g
  rw [FailedCheck.mk.injEq]
  exact ⟨eq_of_same_text hid, eq_of_same_text hkind, eq_of_same_text hstatus,
    eq_of_same_exitCode hcode, eq_of_same_int hcount, eq_of_same_text herror⟩

theorem observed_of_repairView (h : c.Facts a xs ys checks rs s)
    (h' : d.Facts b xs' ys' checks' rs' s') (hc : c.category = lit "code")
    (hd : d.category = lit "code") (hsame : Json.Same c.repairView d.repairView) :
    ObservedAlike a b := by
  have hfield := same_fieldOf hsame
  have hbefore : Json.Same (.str c.sourceBefore) (.str d.sourceBefore) := hfield "source_before"
  have hafter : Json.Same (.str c.sourceAfter) (.str d.sourceAfter) := hfield "source_after"
  have hplan : Json.Same (.obj (without c.plan.members ["run_id", "ticket_id"]))
      (.obj (without d.plan.members ["run_id", "ticket_id"])) := hfield "public_plan"
  have hfailures : Json.Same (.arr (c.failed.map FailedCheck.toJson))
      (.arr (d.failed.map FailedCheck.toJson)) := hfield "failures"
  have hrows := same_fieldOf hplan "checks"
  rw [fieldOf_obj, fieldOf_obj, get_without (by decide), get_without (by decide), h.planRows,
    h'.planRows, Json.same_arr] at hrows
  obtain rfl := planChecks_eq_of_same (planChecks_in h.planChecks).1 (planChecks_in h'.planChecks).1
    hrows
  have hfailed : c.failed = d.failed := by
    rw [Json.same_arr, List.forall₂_map_left_iff, List.forall₂_map_right_iff] at hfailures
    exact List.forall₂_eq_eq_eq ▸ hfailures.imp fun _ _ => failedCheck_toJson_injective
  rw [h.failed, h'.failed, h.failed_eq, h'.failed_eq] at hfailed
  obtain ⟨hsure, hne⟩ := h.code hc
  obtain ⟨hsure', -⟩ := h'.code hd
  have hlen := h.length_eq
  have hlen' := h'.length_eq
  have hends := ending_eq_of_failures (planChecks_in h.planChecks).2.1 hlen.2 hlen'.2
    (h.settled hsure) (h'.settled hsure') h.results.order h'.results.order hne hfailed
  obtain ⟨hxs, hys, -, -⟩ := h.rows
  obtain ⟨hxs', hys', -, -⟩ := h'.rows
  refine ⟨by rwa [hxs, hxs'], ?_, ?_, ?_⟩
  · rw [hys, hys']
    refine List.forall₂_iff_get.mpr ⟨by omega, fun i hi hj => ?_⟩
    obtain ⟨hin, -⟩ := h.row i hi (by omega) (by omega)
    obtain ⟨hin', -⟩ := h'.row i hj (by omega) (by omega)
    have hri : i < rs.length := by omega
    have hri' : i < rs'.length := by omega
    have hend : rs[i].ending = rs'[i].ending := by
      have hget := congrArg (fun l : List (PyStr × Option ℤ) => l[i]?) hends
      simpa [hri, hri'] using hget
    have hstatus : rs[i].status = rs'[i].status := congrArg Prod.fst hend
    have hcode : rs[i].code = rs'[i].code := congrArg Prod.snd hend
    rw [List.get_eq_getElem, List.get_eq_getElem, hin.status, hin'.status, hin.code, hin'.code,
      hstatus, hcode]
    exact ⟨rfl, rfl⟩
  · rw [h.run, h'.run, fieldOf_obj, fieldOf_obj, h.sourceBefore, h'.sourceBefore,
      eq_of_same_text hbefore]
  · rw [h.run, h'.run, fieldOf_obj, fieldOf_obj, h.sourceAfter, h'.sourceAfter,
      eq_of_same_text hafter]

end Views

/-- The repair fingerprint of an accepted receipt does not depend on its labels. -/
theorem repairFingerprint_of_sameButLabels {a b : Json} (hwfa : a.WF) (hwfb : b.WF)
    {v w : ReceiptValues} (ha : engineeringReceiptValues a = .ok v)
    (hb : engineeringReceiptValues b = .ok w) (hsame : SameButLabels a b) :
    v.repairFingerprint = w.repairFingerprint := by
  simp only [engineeringReceiptValues, bind_eq_ok] at ha hb
  obtain ⟨c, hc, hv⟩ := ha
  obtain ⟨d, hd, hw⟩ := hb
  obtain ⟨xs, ys, checks, rs, s, hcf⟩ := checkReceipt_facts hc
  obtain ⟨xs', ys', checks', rs', s', hdf⟩ := checkReceipt_facts hd
  rw [(checkReceipt_digests hwfa hc).values_ok] at hv
  rw [(checkReceipt_digests hwfb hd).values_ok] at hw
  obtain rfl := Except.ok.inj hv
  obtain rfl := Except.ok.inj hw
  have hview := same_repairView hwfa hwfb hcf hdf hsame
  dsimp only
  rw [Json.dumps_inj.mpr hview]

/-- The repair fingerprint of an accepted receipt does not depend on its labels; and when two
accepted receipts of the category `code` have not observed the same, the views that are digested
differ. -/
theorem repair_noninterference {a b : Json} (hwfa : a.WF) (hwfb : b.WF) {v w : ReceiptValues}
    (ha : engineeringReceiptValues a = .ok v) (hb : engineeringReceiptValues b = .ok w) :
    (SameButLabels a b → v.repairFingerprint = w.repairFingerprint) ∧
      (v.category = lit "code" → w.category = lit "code" → ¬ObservedAlike a b →
        ∀ c d, checkReceipt a = .ok c → checkReceipt b = .ok d →
          Json.dumps c.repairView ≠ Json.dumps d.repairView) := by
  constructor
  · exact repairFingerprint_of_sameButLabels hwfa hwfb ha hb
  · intro hcode hcode' hne c d hc hd heq
    simp only [engineeringReceiptValues, bind_eq_ok] at ha hb
    obtain ⟨c', hc', hv⟩ := ha
    obtain ⟨d', hd', hw⟩ := hb
    obtain rfl := Except.ok.inj (hc'.symm.trans hc)
    obtain rfl := Except.ok.inj (hd'.symm.trans hd)
    obtain ⟨xs, ys, checks, rs, s, hcf⟩ := checkReceipt_facts hc
    obtain ⟨xs', ys', checks', rs', s', hdf⟩ := checkReceipt_facts hd
    rw [(checkReceipt_digests hwfa hc).values_ok] at hv
    rw [(checkReceipt_digests hwfb hd).values_ok] at hw
    obtain rfl := Except.ok.inj hv
    obtain rfl := Except.ok.inj hw
    exact hne (observed_of_repairView hcf hdf hcode hcode' (Json.dumps_inj.mp heq))

theorem exists_values_of_isWorth {category : PyStr} {passed : Bool} {receipt : Json}
    (hwf : receipt.WF) (h : isWorth category passed receipt = true) :
    ∃ c v, checkReceipt receipt = .ok c ∧ engineeringReceiptValues receipt = .ok v ∧
      v.category = category := by
  obtain ⟨c, hc, hcategory, -⟩ := exists_of_isWorth h
  obtain ⟨v, hv, hvcategory⟩ : ∃ v, c.values = .ok v ∧ v.category = c.category :=
    ⟨_, (checkReceipt_digests hwf hc).values_ok, rfl⟩
  refine ⟨c, v, hc, ?_, hvcategory.trans hcategory⟩
  rw [engineeringReceiptValues, hc]
  exact hv

theorem fieldOf_sampleReceipt_plan (runId status : PyStr) (code count : ℤ) :
    fieldOf (sampleReceipt runId status code count) "public_plan" = samplePlan runId := by
  simp [sampleReceipt, fieldOf, Members.get]

theorem sameButLabels_sampleReceipt (runId runId' status : PyStr) (code count : ℤ) :
    SameButLabels (sampleReceipt runId status code count)
      (sampleReceipt runId' status code count) where
  binding _ _ := by simp [sampleReceipt, fieldOf, Members.get, Json.Same]
  plan k hk := by
    have hrun : lit "run_id" ≠ k := by
      rintro rfl
      exact hk (by simp [planLabels])
    rw [fieldOf_sampleReceipt_plan, fieldOf_sampleReceipt_plan]
    simp [samplePlan, fieldOf, Members.get, hrun, Json.Same]
  run _ _ := by simp [sampleReceipt, fieldOf, Members.get, Json.Same]

/-- The run whose test ends with the exit code 2 has not observed what the run with 1 has. -/
theorem not_observedAlike_sampleReceipt (runId runId' status : PyStr) (count : ℤ) :
    ¬ObservedAlike (sampleReceipt runId status 1 count) (sampleReceipt runId' status 2 count) := by
  intro h
  have hrun := h.run
  simp [runRowsOf, sampleReceipt, fieldOf, Members.get, itemsOf] at hrun

theorem repair_noninterference_samples :
    ∃ v w, engineeringReceiptValues (sampleReceipt "r1" "failed" 1 0) = .ok v ∧
      engineeringReceiptValues (sampleReceipt "r2" "failed" 1 0) = .ok w ∧
      v.repairFingerprint = w.repairFingerprint ∧
      ∃ c d, checkReceipt (sampleReceipt "r1" "failed" 1 0) = .ok c ∧
        checkReceipt (sampleReceipt "r2" "failed" 2 0) = .ok d ∧
        Json.dumps c.repairView ≠ Json.dumps d.repairView := by
  obtain ⟨-, -, hwf₁, h₁, hwf₂, h₂, hwf₃, h₃⟩ := sampleReceipts_run
  obtain ⟨c, v, hc, hv, hcode⟩ := exists_values_of_isWorth hwf₁ h₁
  obtain ⟨-, w, -, hw, -⟩ := exists_values_of_isWorth hwf₂ h₂
  obtain ⟨d, u, hd, hu, hcode'⟩ := exists_values_of_isWorth hwf₃ h₃
  obtain ⟨hsame, -⟩ := repair_noninterference hwf₁ hwf₂ hv hw
  obtain ⟨-, hdiffer⟩ := repair_noninterference hwf₁ hwf₃ hv hu
  refine ⟨v, w, hv, hw, hsame (sameButLabels_sampleReceipt ..), c, d, hc, hd, ?_⟩
  exact hdiffer hcode hcode' (not_observedAlike_sampleReceipt _ _ _ _) c d hc hd

end Icode
