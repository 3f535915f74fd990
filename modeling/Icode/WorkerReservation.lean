import Icode.AutonomyProcess

/-!
# One worker for a ticket

`_PROCESS_WORKERS` keeps two managers of a process from running the same ticket. A run is in it from
its reservation to its release (`Owned`) : a section that has reserved a run and not started its
thread ends with the start of the thread or the release, and a thread ends with the release. So at
any time at most one run of a directory is reserved, the executor is only called for a reserved run,
and a run that has failed to start or has ended is not reserved (`one_worker`).
-/

namespace Icode

open Py Transition

/-! ## What an access works on -/

/-- The sections of a manager. -/
inductive SectionKind where
  | recovery
  | intent
  | worker
  | shutdown
  deriving DecidableEq

namespace LockedOp

def kind : LockedOp → SectionKind
  | .recover _ => .recovery
  | .recoverCheck _ _ _ => .recovery
  | .update _ (.recovered _) => .recovery
  | .update _ (.goto _ _ _) => .worker
  | .interrupt _ _ => .shutdown
  | .update _ (.interrupted _) => .shutdown
  | _ => .intent

/-- The run that has been reserved and whose thread has not been started. -/
def starts : LockedOp → Option (PyStr × ℕ)
  | .openWorkspace n _ _ u => some (u.ticket, n)
  | .update u (.launch n _ _) => some (u.ticket, n)
  | .launch n _ _ u => some (u.ticket, n)
  | .release t n => some (t, n)
  | _ => none

/-- The run whose thread has been started. -/
def uses : LockedOp → Option (PyStr × ℕ)
  | .update u (.goto n _ _) => some (u.ticket, n)
  | .update u (.stop n _ _) => some (u.ticket, n)
  | .update u (.interrupted n) => some (u.ticket, n)
  | .interrupt t n => some (t, n)
  | _ => none

theorem kind_of_starts {op : LockedOp} {x : PyStr × ℕ} (h : op.starts = some x) :
    op.kind = .intent := by
  cases op with
  | update u after => cases after <;> first | rfl | cases h
  | _ => first | rfl | cases h

/-- A worker that goes on after the access has not ended. -/
def Lands : LockedOp → Prop
  | .update _ (.goto _ next failed) => next ≠ .ended ∧ failed ≠ .ended
  | _ => True

end LockedOp

namespace AutonomyProcess

/-- Run `n` of manager `i` for the ticket is reserved, and its thread has been started or not. -/
def Held (runs : ℕ → Option RunControl) (n i : ℕ) (ticket : PyStr) (started : Bool) : Prop :=
  ∃ r, runs n = some r ∧ r.manager = i ∧ r.ticket = ticket ∧ r.reserved = true ∧
    r.thread.isSome = started

/-- What the section and the controls of manager `i` have to do with its runs. -/
structure Sect (runs : ℕ → Option RunControl) (i : ℕ) (m : ProcessManager) : Prop where
  controls : ∀ ticket n, m.controls.get? ticket = some n → ∃ started, Held runs n i ticket started
  starts : ∀ op ∈ m.todo, ∀ ticket n, op.starts = some (ticket, n) → Held runs n i ticket false
  uses : ∀ op ∈ m.todo, ∀ ticket n, op.uses = some (ticket, n) → Held runs n i ticket true
  lands : ∀ op ∈ m.todo, op.Lands
  kinds : ∀ op ∈ m.todo, ∀ x ∈ m.todo, op.kind = x.kind
  /-- An intent plans one access at a time, but for the update after a failed start. -/
  rest : ∀ op ops, m.todo = op :: ops → op.kind = .intent →
    ops = [] ∨ ∃ ticket n u, op = .release ticket n ∧ ops = [.update u .startFailed]
  recovering : ∀ op ∈ m.todo, op.kind = .recovery → m.controls = []
  pending : ∀ n ticket, Held runs n i ticket false → ∃ op ∈ m.todo, op.starts = some (ticket, n)
  nodup : m.controls.keys.Nodup

/-- What every step keeps. -/
structure Owned (s : AutonomyProcess) : Prop where
  fresh : ∀ n r, s.runs n = some r → n < s.nextRun
  built : ∀ i m, s.managers i = some m → i < s.built
  table : ∀ key n, s.processWorkers.get? key = some n →
    ∃ i ticket started, Held s.runs n i ticket started ∧ s.outDir ticket = key
  reserved : ∀ n i ticket started, Held s.runs n i ticket started →
    s.processWorkers.get? (s.outDir ticket) = some n ∧
      ∃ m, s.managers i = some m ∧ m.controls.get? ticket = some n
  thread : ∀ n r pc, s.runs n = some r → r.thread = some pc → (r.reserved = true ↔ pc ≠ .ended)
  sect : ∀ i m, s.managers i = some m → Sect s.runs i m

variable {s s' : AutonomyProcess} {a : ProcessAction} {i j n : ℕ} {op x : LockedOp}
  {m m' : ProcessManager} {r r' : RunControl} {ops rest : List LockedOp} {ticket : PyStr}
  {runs runs' : ℕ → Option RunControl} {started : Bool}

theorem owned_initial (outDir : PyStr → PyStr) (agent : PyStr → Members) :
    Owned (initial outDir agent) where
  fresh _ _ h := by cases h
  built _ _ h := by cases h
  table _ _ h := by cases h
  reserved _ _ _ _ h := by
    obtain ⟨r, hr, -⟩ := h
    cases hr
  thread _ _ _ h := by cases h
  sect _ _ h := by cases h

/-! ## Changes of a section -/

theorem Held.of_eq (h : Held runs n i ticket started) (heq : runs' n = runs n) :
    Held runs' n i ticket started := by
  obtain ⟨r, hr, hrest⟩ := h
  exact ⟨r, heq.trans hr, hrest⟩

theorem Held.unique {i' : ℕ} {ticket' : PyStr} {started' : Bool} (h : Held runs n i ticket started)
    (h' : Held runs n i' ticket' started') : i = i' ∧ ticket = ticket' ∧ started = started' := by
  obtain ⟨r, hr, hi, ht, -, hs⟩ := h
  obtain ⟨r', hr', hi', ht', -, hs'⟩ := h'
  obtain rfl : r = r' := Option.some.inj (hr.symm.trans hr')
  exact ⟨hi ▸ hi', ht ▸ ht', hs ▸ hs'⟩

/-- An intent has one access left, but when it is about to release a run. -/
theorem Sect.rest_eq_nil (h : Sect runs i m) (htodo : m.todo = op :: rest)
    (hkind : op.kind = .intent) (hop : ∀ ticket n, op ≠ .release ticket n) : rest = [] := by
  refine (h.rest op rest htodo hkind).resolve_right ?_
  rintro ⟨t, n, u, heq, -⟩
  exact hop t n heq

/-- The access is done, and nothing follows it. -/
theorem Sect.drop (h : Sect runs i m) (htodo : m.todo = op :: rest) (hop : op.starts = none)
    (hcontrols : m'.controls = m.controls) (htodo' : m'.todo = rest) : Sect runs i m' := by
  have hsub : ∀ {x}, x ∈ m'.todo → x ∈ m.todo := fun hx =>
    htodo ▸ List.mem_cons_of_mem _ (htodo' ▸ hx)
  refine ⟨fun t n => hcontrols ▸ h.controls t n, fun x hx => h.starts x (hsub hx),
    fun x hx => h.uses x (hsub hx), fun x hx => h.lands x (hsub hx),
    fun x hx y hy => h.kinds x (hsub hx) y (hsub hy), fun y ys hys hk => ?_,
    fun x hx hk => hcontrols ▸ h.recovering x (hsub hx) hk, fun n t hn => ?_,
    hcontrols ▸ h.nodup⟩
  · have hy : y ∈ m.todo := hsub (hys ▸ List.mem_cons_self)
    have hnil := h.rest_eq_nil htodo
      ((h.kinds op (htodo ▸ List.mem_cons_self) y hy).trans hk) <| by
        rintro t n rfl
        cases hop
    rw [htodo', hnil] at hys
    cases hys
  · obtain ⟨y, hy, hstarts⟩ := h.pending n t hn
    rcases List.mem_cons.mp (htodo ▸ hy) with rfl | hy
    · rw [hop] at hstarts
      cases hstarts
    · exact ⟨y, htodo' ▸ hy, hstarts⟩

/-- The access is done, and another one takes its place. -/
theorem Sect.replace (h : Sect runs i m) (htodo : m.todo = op :: rest)
    (hop : ∀ ticket n, op ≠ .release ticket n) (hkind : x.kind = op.kind)
    (hstarts : x.starts = op.starts) (huses : ∀ ticket n, x.uses = some (ticket, n) →
      Held runs n i ticket true) (hlands : x.Lands) (hcontrols : m'.controls = m.controls)
    (htodo' : m'.todo = x :: rest) : Sect runs i m' := by
  have hmem : op ∈ m.todo := htodo ▸ List.mem_cons_self
  have hsub : ∀ {y}, y ∈ m'.todo → y = x ∨ y ∈ m.todo := fun hy =>
    (List.mem_cons.mp (htodo' ▸ hy)).imp_right fun hy => htodo ▸ List.mem_cons_of_mem _ hy
  have hkinds : ∀ {y}, y ∈ m'.todo → y.kind = op.kind := by
    intro y hy
    rcases hsub hy with rfl | hy
    · exact hkind
    · exact h.kinds y hy op hmem
  refine ⟨fun t n => hcontrols ▸ h.controls t n, fun y hy => ?_, fun y hy => ?_, fun y hy => ?_,
    fun y hy z hz => (hkinds hy).trans (hkinds hz).symm, fun y ys hys hk => ?_,
    fun y hy hk => ?_, fun n t hn => ?_, hcontrols ▸ h.nodup⟩
  · rcases hsub hy with rfl | hy
    · exact fun t n hs => h.starts op hmem t n (hstarts ▸ hs)
    · exact h.starts y hy
  · rcases hsub hy with rfl | hy
    · exact huses
    · exact h.uses y hy
  · rcases hsub hy with rfl | hy
    · exact hlands
    · exact h.lands y hy
  · obtain ⟨rfl, rfl⟩ := List.cons.inj (htodo'.symm.trans hys)
    exact Or.inl (h.rest_eq_nil htodo (hkind.symm.trans hk) hop)
  · rw [hcontrols]
    exact h.recovering op hmem ((hkinds hy).symm.trans hk)
  · obtain ⟨y, hy, hs⟩ := h.pending n t hn
    rcases List.mem_cons.mp (htodo ▸ hy) with rfl | hy
    · exact ⟨x, htodo' ▸ List.mem_cons_self, hstarts.trans hs⟩
    · exact ⟨y, htodo' ▸ List.mem_cons_of_mem _ hy, hs⟩

/-- A section begins. -/
theorem Sect.begin (h : Sect runs i m) (hempty : m.todo = []) (hcontrols : m'.controls = m.controls)
    (kind : SectionKind) (hkind : ∀ x ∈ m'.todo, x.kind = kind) (hno : kind ≠ .recovery)
    (hone : kind = .intent → ∀ x ops, m'.todo = x :: ops → ops = [])
    (hstarts : ∀ x ∈ m'.todo, x.starts = none)
    (huses : ∀ x ∈ m'.todo, ∀ ticket n, x.uses = some (ticket, n) → Held runs n i ticket true)
    (hlands : ∀ x ∈ m'.todo, x.Lands) : Sect runs i m' where
  controls t n := hcontrols ▸ h.controls t n
  starts x hx t n hs := by
    rw [hstarts x hx] at hs
    cases hs
  uses := huses
  lands := hlands
  kinds x hx y hy := (hkind x hx).trans (hkind y hy).symm
  rest x ops hops hk := Or.inl (hone ((hkind x (hops ▸ List.mem_cons_self)).symm.trans hk) x ops hops)
  recovering x hx hk := absurd ((hkind x hx).symm.trans hk) hno
  pending n t hn := by
    obtain ⟨y, hy, -⟩ := h.pending n t hn
    rw [hempty] at hy
    cases hy
  nodup := hcontrols ▸ h.nodup

/-- While the lock is free, the thread of a reserved run has been started. -/
theorem Sect.started_of_nil (h : Sect runs i m) (hempty : m.todo = []) (hn : Held runs n i ticket started) :
    started = true := by
  cases started with
  | true => rfl
  | false =>
    obtain ⟨y, hy, -⟩ := h.pending n ticket hn
    rw [hempty] at hy
    cases hy

/-- The section is only about the runs of its manager. -/
theorem Sect.congr (h : Sect runs i m)
    (hheld : ∀ n ticket started, Held runs' n i ticket started ↔ Held runs n i ticket started) :
    Sect runs' i m where
  controls t n hn := by
    obtain ⟨b, hb⟩ := h.controls t n hn
    exact ⟨b, (hheld n t b).mpr hb⟩
  starts x hx t n hs := (hheld n t false).mpr (h.starts x hx t n hs)
  uses x hx t n hs := (hheld n t true).mpr (h.uses x hx t n hs)
  lands := h.lands
  kinds := h.kinds
  rest := h.rest
  recovering := h.recovering
  pending n t hn := h.pending n t ((hheld n t false).mp hn)
  nodup := h.nodup

/-- A step of manager `i` that neither reserves nor releases a run. -/
theorem Owned.move (h : s.Owned) (hm : s.managers i = some m)
    (hmanagers : s'.managers = Function.update s.managers i (some m'))
    (hcontrols : m'.controls = m.controls) (hsect : Sect s'.runs i m')
    (hdir : s'.outDir = s.outDir) (htable : s'.processWorkers = s.processWorkers)
    (hnext : s'.nextRun = s.nextRun) (hbuilt : s'.built = s.built)
    (hfresh : ∀ n r, s'.runs n = some r → ∃ r', s.runs n = some r')
    (hheld : ∀ n j ticket, (∃ started, Held s'.runs n j ticket started) ↔
      ∃ started, Held s.runs n j ticket started)
    (hother : ∀ j, j ≠ i → ∀ n ticket started,
      Held s'.runs n j ticket started ↔ Held s.runs n j ticket started)
    (hthread : ∀ n r pc, s'.runs n = some r → r.thread = some pc →
      (r.reserved = true ↔ pc ≠ .ended)) : s'.Owned where
  fresh n r hr := by
    obtain ⟨r', hr'⟩ := hfresh n r hr
    rw [hnext]
    exact h.fresh n r' hr'
  built j k hk := by
    rw [hbuilt]
    rw [hmanagers] at hk
    by_cases hj : j = i
    · subst hj
      exact h.built j m hm
    · rw [Function.update_of_ne hj] at hk
      exact h.built j k hk
  table key n hn := by
    rw [htable] at hn
    obtain ⟨j, t, b, hb, hkey⟩ := h.table key n hn
    obtain ⟨b', hb'⟩ := (hheld n j t).mpr ⟨b, hb⟩
    exact ⟨j, t, b', hb', hdir ▸ hkey⟩
  reserved n j t b hb := by
    obtain ⟨b', hb'⟩ := (hheld n j t).mp ⟨b, hb⟩
    obtain ⟨hkey, k, hk, hc⟩ := h.reserved n j t b' hb'
    refine ⟨by rw [htable, hdir, hkey], ?_⟩
    rw [hmanagers]
    by_cases hj : j = i
    · subst hj
      obtain rfl : m = k := Option.some.inj (hm.symm.trans hk)
      exact ⟨m', Function.update_self .., hcontrols ▸ hc⟩
    · exact ⟨k, (Function.update_of_ne hj ..).trans hk, hc⟩
  thread := hthread
  sect j k hk := by
    rw [hmanagers] at hk
    by_cases hj : j = i
    · subst hj
      rw [Function.update_self] at hk
      obtain rfl := Option.some.inj hk
      exact hsect
    · rw [Function.update_of_ne hj] at hk
      exact (h.sect j k hk).congr (hother j hj)

/-- A step of manager `i` that leaves the runs as they are. -/
theorem Owned.quiet (h : s.Owned) (hm : s.managers i = some m)
    (hmanagers : s'.managers = Function.update s.managers i (some m'))
    (hcontrols : m'.controls = m.controls) (hsect : Sect s.runs i m')
    (hdir : s'.outDir = s.outDir) (htable : s'.processWorkers = s.processWorkers)
    (hnext : s'.nextRun = s.nextRun) (hbuilt : s'.built = s.built) (hruns : s'.runs = s.runs) :
    s'.Owned := by
  refine h.move hm hmanagers hcontrols (by rwa [hruns]) hdir htable hnext hbuilt ?_ ?_ ?_ ?_
  · rw [hruns]
    exact fun n r hr => ⟨r, hr⟩
  · rw [hruns]
    exact fun _ _ _ => Iff.rfl
  · rw [hruns]
    exact fun _ _ _ _ _ => Iff.rfl
  · rw [hruns]
    exact h.thread

/-- The runs after one of them has changed. -/
theorem held_update {k : ℕ} {t : PyStr} :
    Held (Function.update runs n (some r)) k j t started ↔
      k = n ∧ (r.manager = j ∧ r.ticket = t ∧ r.reserved = true ∧ r.thread.isSome = started) ∨
      k ≠ n ∧ Held runs k j t started := by
  by_cases hk : k = n
  · subst hk
    constructor
    · rintro ⟨q, hq, hrest⟩
      rw [Function.update_self] at hq
      obtain rfl := Option.some.inj hq
      exact Or.inl ⟨rfl, hrest⟩
    · rintro (⟨-, hrest⟩ | ⟨hne, -⟩)
      · exact ⟨r, Function.update_self .., hrest⟩
      · exact absurd rfl hne
  · constructor
    · rintro ⟨q, hq, hrest⟩
      rw [Function.update_of_ne hk] at hq
      exact Or.inr ⟨hk, q, hq, hrest⟩
    · rintro (⟨heq, -⟩ | ⟨-, q, hq, hrest⟩)
      · exact absurd heq hk
      · exact ⟨q, (Function.update_of_ne hk ..).trans hq, hrest⟩

/-- Run `n` of manager `i` changes, and stays reserved. -/
theorem Owned.moveRun (h : s.Owned) (hm : s.managers i = some m) (hr : s.runs n = some r)
    (hi : r.manager = i) (hreserved : r.reserved = true)
    (hruns : s'.runs = Function.update s.runs n (some r')) (hmanager : r'.manager = r.manager)
    (hticket : r'.ticket = r.ticket) (hreserved' : r'.reserved = true)
    (hthread : r'.thread ≠ some .ended)
    (hmanagers : s'.managers = Function.update s.managers i (some m'))
    (hcontrols : m'.controls = m.controls) (hsect : Sect s'.runs i m')
    (hdir : s'.outDir = s.outDir) (htable : s'.processWorkers = s.processWorkers)
    (hnext : s'.nextRun = s.nextRun) (hbuilt : s'.built = s.built) : s'.Owned := by
  refine h.move hm hmanagers hcontrols hsect hdir htable hnext hbuilt ?_ ?_ ?_ ?_
  · intro k q hq
    rw [hruns] at hq
    by_cases hk : k = n
    · exact ⟨r, hk ▸ hr⟩
    · rw [Function.update_of_ne hk] at hq
      exact ⟨q, hq⟩
  · intro k j t
    rw [hruns]
    simp only [held_update, hmanager, hticket, hreserved', true_and]
    by_cases hk : k = n
    · subst hk
      constructor
      · rintro ⟨b, ⟨-, hj, ht, -⟩ | ⟨hne, -⟩⟩
        · exact ⟨_, r, hr, hj, ht, hreserved, rfl⟩
        · exact absurd rfl hne
      · rintro ⟨b, q, hq, hj, ht, -⟩
        obtain rfl : r = q := Option.some.inj (hr.symm.trans hq)
        exact ⟨r'.thread.isSome, Or.inl ⟨rfl, hj, ht, rfl⟩⟩
    · simp [hk]
  · intro j hj k t b
    rw [hruns, held_update]
    constructor
    · rintro (⟨-, hmj, -⟩ | ⟨-, hk⟩)
      · exact absurd (hmj.symm.trans (hmanager.trans hi)) hj
      · exact hk
    · intro hk
      refine Or.inr ⟨?_, hk⟩
      rintro rfl
      obtain ⟨q, hq, hqj, -⟩ := hk
      obtain rfl : r = q := Option.some.inj (hr.symm.trans hq)
      exact hj (hqj.symm.trans hi)
  · intro k q pc hq hpc
    rw [hruns] at hq
    by_cases hk : k = n
    · subst hk
      rw [Function.update_self] at hq
      obtain rfl := Option.some.inj hq
      refine ⟨fun _ hended => hthread (hended ▸ hpc), fun _ => hreserved'⟩
    · rw [Function.update_of_ne hk] at hq
      exact h.thread k q pc hq hpc

/-- Run `n` of manager `i` is released. -/
theorem Owned.releaseRun (h : s.Owned) (hm : s.managers i = some m) (hr : s.runs n = some r)
    (hi : r.manager = i) (hreserved : r.reserved = true)
    (hruns : s'.runs = Function.update s.runs n (some r')) (hreserved' : r'.reserved = false)
    (hthread : ∀ pc, r'.thread = some pc → pc = .ended)
    (hmanagers : s'.managers = Function.update s.managers i (some m'))
    (hcontrols : m'.controls = m.controls.erase r.ticket) (hsect : Sect s'.runs i m')
    (hdir : s'.outDir = s.outDir)
    (htable : s'.processWorkers = s.processWorkers.erase (s.outDir r.ticket))
    (hnext : s'.nextRun = s.nextRun) (hbuilt : s'.built = s.built) : s'.Owned := by
  have hn : Held s.runs n i r.ticket r.thread.isSome := ⟨r, hr, hi, rfl, hreserved, rfl⟩
  obtain ⟨hkey, -⟩ := h.reserved n i _ _ hn
  have hheld : ∀ k j t b, Held s'.runs k j t b ↔ k ≠ n ∧ Held s.runs k j t b := by
    intro k j t b
    rw [hruns, held_update, hreserved']
    simp
  refine ⟨fun k q hq => ?_, fun j k hk => ?_, fun key k hk => ?_, fun k j t b hk => ?_,
    fun k q pc hq hpc => ?_, fun j k hk => ?_⟩
  · rw [hnext]
    rw [hruns] at hq
    by_cases hkn : k = n
    · exact hkn ▸ h.fresh n r hr
    · rw [Function.update_of_ne hkn] at hq
      exact h.fresh k q hq
  · rw [hbuilt]
    rw [hmanagers] at hk
    by_cases hj : j = i
    · exact hj ▸ h.built i m hm
    · rw [Function.update_of_ne hj] at hk
      exact h.built j k hk
  · rw [htable, Dict.get?_erase] at hk
    split_ifs at hk with hne
    obtain ⟨j, t, b, hb, rfl⟩ := h.table key k hk
    refine ⟨j, t, b, (hheld k j t b).mpr ⟨?_, hb⟩, by rw [hdir]⟩
    rintro rfl
    exact hne (by rw [(hn.unique hb).2.1])
  · obtain ⟨hkn, hk⟩ := (hheld k j t b).mp hk
    obtain ⟨hkkey, q, hq, hc⟩ := h.reserved k j t b hk
    have hdirne : s.outDir t ≠ s.outDir r.ticket := by
      intro heq
      rw [heq, hkey] at hkkey
      exact hkn (Option.some.inj hkkey).symm
    refine ⟨by rw [htable, hdir, Dict.get?_erase, if_neg hdirne, hkkey], ?_⟩
    rw [hmanagers]
    by_cases hj : j = i
    · subst hj
      obtain rfl : m = q := Option.some.inj (hm.symm.trans hq)
      refine ⟨m', Function.update_self .., ?_⟩
      rw [hcontrols, Dict.get?_erase, if_neg fun ht => hdirne (congrArg s.outDir ht), hc]
    · exact ⟨q, (Function.update_of_ne hj ..).trans hq, hc⟩
  · rw [hruns] at hq
    by_cases hkn : k = n
    · subst hkn
      rw [Function.update_self] at hq
      obtain rfl := Option.some.inj hq
      simp [hreserved', hthread pc hpc]
    · rw [Function.update_of_ne hkn] at hq
      exact h.thread k q pc hq hpc
  · rw [hmanagers] at hk
    by_cases hj : j = i
    · subst hj
      rw [Function.update_self] at hk
      obtain rfl := Option.some.inj hk
      exact hsect
    · rw [Function.update_of_ne hj] at hk
      refine (h.sect j k hk).congr fun k' t b => ?_
      rw [hheld]
      refine ⟨And.right, fun hk' => ⟨?_, hk'⟩⟩
      rintro rfl
      exact hj (hk'.unique hn).1

/-- Manager `i` reserves a new run. -/
theorem Owned.reserveRun (h : s.Owned) (hm : s.managers i = some m) {runId : PyStr}
    (hfree : s.processWorkers.get? (s.outDir ticket) = none)
    (hruns : s'.runs = Function.update s.runs s.nextRun (some ⟨i, ticket, runId, none, none, true⟩))
    (hmanagers : s'.managers = Function.update s.managers i (some m'))
    (hcontrols : m'.controls = m.controls.set ticket s.nextRun) (hsect : Sect s'.runs i m')
    (hdir : s'.outDir = s.outDir)
    (htable : s'.processWorkers =
      (s.processWorkers.erase (s.outDir ticket)).set (s.outDir ticket) s.nextRun)
    (hnext : s'.nextRun = s.nextRun + 1) (hbuilt : s'.built = s.built) : s'.Owned := by
  have hnew : ∀ {k j t b}, Held s.runs k j t b → k ≠ s.nextRun := by
    rintro k j t b ⟨q, hq, -⟩ rfl
    exact absurd (h.fresh _ q hq) (lt_irrefl _)
  have hheld : ∀ k j t b, Held s'.runs k j t b ↔
      k = s.nextRun ∧ (i = j ∧ ticket = t ∧ b = false) ∨ Held s.runs k j t b := by
    intro k j t b
    rw [hruns, held_update]
    constructor
    · rintro (⟨hk, hi, ht, -, hb⟩ | ⟨-, hk⟩)
      · exact Or.inl ⟨hk, hi, ht, hb.symm⟩
      · exact Or.inr hk
    · rintro (⟨hk, hi, ht, hb⟩ | hk)
      · exact Or.inl ⟨hk, hi, ht, rfl, hb.symm⟩
      · exact Or.inr ⟨hnew hk, hk⟩
  have hget : ∀ key, s'.processWorkers.get? key =
      if key = s.outDir ticket then some s.nextRun else s.processWorkers.get? key := by
    intro key
    rw [htable, Dict.get?_set, Dict.get?_erase]
    split_ifs <;> rfl
  refine ⟨fun k q hq => ?_, fun j k hk => ?_, fun key k hk => ?_, fun k j t b hk => ?_,
    fun k q pc hq hpc => ?_, fun j k hk => ?_⟩
  · rw [hnext]
    rw [hruns] at hq
    by_cases hkn : k = s.nextRun
    · omega
    · rw [Function.update_of_ne hkn] at hq
      have := h.fresh k q hq
      omega
  · rw [hbuilt]
    rw [hmanagers] at hk
    by_cases hj : j = i
    · exact hj ▸ h.built i m hm
    · rw [Function.update_of_ne hj] at hk
      exact h.built j k hk
  · rw [hget] at hk
    split_ifs at hk with hkey
    · exact ⟨i, ticket, false, (hheld k i ticket false).mpr
        (Or.inl ⟨(Option.some.inj hk).symm, rfl, rfl, rfl⟩), by rw [hdir, hkey]⟩
    · obtain ⟨j, t, b, hb, hdirt⟩ := h.table key k hk
      exact ⟨j, t, b, (hheld k j t b).mpr (Or.inr hb), by rw [hdir, hdirt]⟩
  · rcases (hheld k j t b).mp hk with ⟨rfl, rfl, rfl, rfl⟩ | hk
    · refine ⟨by rw [hget, hdir, if_pos rfl], m', ?_, ?_⟩
      · rw [hmanagers]
        exact Function.update_self ..
      · rw [hcontrols, Dict.get?_set, if_pos rfl]
    · obtain ⟨hkey, q, hq, hc⟩ := h.reserved k j t b hk
      have hdirne : s.outDir t ≠ s.outDir ticket := by
        intro heq
        rw [heq, hfree] at hkey
        cases hkey
      refine ⟨by rw [hget, hdir, if_neg hdirne, hkey], ?_⟩
      rw [hmanagers]
      by_cases hj : j = i
      · subst hj
        obtain rfl : m = q := Option.some.inj (hm.symm.trans hq)
        refine ⟨m', Function.update_self .., ?_⟩
        rw [hcontrols, Dict.get?_set, if_neg fun ht => hdirne (congrArg s.outDir ht), hc]
      · exact ⟨q, (Function.update_of_ne hj ..).trans hq, hc⟩
  · rw [hruns] at hq
    by_cases hkn : k = s.nextRun
    · subst hkn
      rw [Function.update_self] at hq
      obtain rfl := Option.some.inj hq
      cases hpc
    · rw [Function.update_of_ne hkn] at hq
      exact h.thread k q pc hq hpc
  · rw [hmanagers] at hk
    by_cases hj : j = i
    · subst hj
      rw [Function.update_self] at hk
      obtain rfl := Option.some.inj hk
      exact hsect
    · rw [Function.update_of_ne hj] at hk
      refine (h.sect j k hk).congr fun k' t b => ?_
      rw [hheld]
      refine ⟨fun hk' => hk'.resolve_left ?_, Or.inr⟩
      rintro ⟨-, hij, -⟩
      exact hj hij.symm

/-! ## Steps of a manager -/

/-- A run that changes without a change of its owner. -/
theorem held_update_same {k : ℕ} {t : PyStr} (hr : runs n = some r)
    (hmanager : r'.manager = r.manager) (hticket : r'.ticket = r.ticket)
    (hreserved : r'.reserved = r.reserved) (hthread : r'.thread.isSome = r.thread.isSome) :
    Held (Function.update runs n (some r')) k j t started ↔ Held runs k j t started := by
  rw [held_update, hmanager, hticket, hreserved, hthread]
  constructor
  · rintro (⟨rfl, hrest⟩ | ⟨-, hk⟩)
    · exact ⟨r, hr, hrest⟩
    · exact hk
  · rintro ⟨q, hq, hrest⟩
    by_cases hk : k = n
    · subst hk
      obtain rfl : r = q := Option.some.inj (hr.symm.trans hq)
      exact Or.inl ⟨rfl, hrest⟩
    · exact Or.inr ⟨hk, q, hq, hrest⟩

theorem Held.alive (h : s.Owned) (hn : Held s.runs n i ticket started) :
    ∃ r, s.runs n = some r ∧ r.manager = i ∧ r.ticket = ticket ∧ r.reserved = true ∧
      r.thread.isSome = started ∧ r.thread ≠ some .ended := by
  obtain ⟨r, hr, hi, ht, hreserved, hstarted⟩ := hn
  refine ⟨r, hr, hi, ht, hreserved, hstarted, fun hended => ?_⟩
  exact (h.thread n r .ended hr hended).mp hreserved rfl

/-- A process that differs in the section of manager `i` only, and in the metadata. -/
structure Popped (s s₁ : AutonomyProcess) (i : ℕ) (m : ProcessManager) : Prop where
  managers : s₁.managers = Function.update s.managers i (some m)
  outDir : s₁.outDir = s.outDir
  processWorkers : s₁.processWorkers = s.processWorkers
  nextRun : s₁.nextRun = s.nextRun
  built : s₁.built = s.built
  runs : s₁.runs = s.runs

variable {s₁ : AutonomyProcess} {m₁ : ProcessManager}

theorem Popped.modify (h : Popped s s₁ i m) (f : ProcessManager → ProcessManager) :
    Popped s (s₁.modifyManager i f) i (f m) where
  managers := by
    unfold modifyManager
    simp [h.managers]
  outDir := h.outDir
  processWorkers := h.processWorkers
  nextRun := h.nextRun
  built := h.built
  runs := h.runs

theorem Popped.owned (hp : Popped s s₁ i m₁) (h : s.Owned) (hm : s.managers i = some m)
    (hcontrols : m₁.controls = m.controls) (hsect : Sect s.runs i m₁) : s₁.Owned :=
  h.quiet hm hp.managers hcontrols hsect hp.outDir hp.processWorkers hp.nextRun hp.built hp.runs

/-- Run `n` changes, and stays reserved and started; the section of its manager is `m₁`. -/
theorem Popped.owned_modifyRun (hp : Popped s s₁ i m₁) (h : s.Owned) (hm : s.managers i = some m)
    (hn : Held s.runs n i ticket true) {g : RunControl → RunControl}
    (hg : ∀ r, (g r).manager = r.manager ∧ (g r).ticket = r.ticket ∧ (g r).reserved = r.reserved)
    (hthread : ∀ r, r.thread ≠ some .ended → r.thread.isSome = true →
      (g r).thread.isSome = true ∧ (g r).thread ≠ some .ended)
    (hcontrols : m₁.controls = m.controls) (hsect : Sect s.runs i m₁) :
    (s₁.modifyRun n g).Owned := by
  obtain ⟨r, hr, hi, -, hreserved, hstarted, halive⟩ := hn.alive h
  obtain ⟨hmanager, hticket, hsame⟩ := hg r
  obtain ⟨hstarted', halive'⟩ := hthread r halive hstarted
  have hruns : (s₁.modifyRun n g).runs = Function.update s.runs n (some (g r)) := by
    unfold modifyRun
    simp [hp.runs, hr]
  refine h.moveRun hm hr hi hreserved hruns hmanager hticket (hsame.trans hreserved) halive'
    hp.managers hcontrols ?_ hp.outDir hp.processWorkers hp.nextRun hp.built
  rw [hruns]
  exact hsect.congr fun k t b =>
    held_update_same hr hmanager hticket hsame (hstarted'.trans hstarted.symm)

/-- What a section does after an update. -/
theorem Owned.follow (h : s.Owned) (hm : s.managers i = some m) {u : RunUpdate}
    {after : AfterUpdate} (htodo : m.todo = .update u after :: rest)
    (hp : Popped s s₁ i { m with todo := rest }) (returned : Bool) :
    (s₁.follow i u after returned).Owned := by
  have hsect := h.sect i m hm
  have huses := hsect.uses _ (htodo ▸ List.mem_cons_self)
  have hlands := hsect.lands _ (htodo ▸ List.mem_cons_self)
  cases after with
  | recovered live => exact hp.owned h hm rfl (hsect.drop htodo rfl rfl rfl)
  | interrupted n => exact hp.owned h hm rfl (hsect.drop htodo rfl rfl rfl)
  | startFailed =>
    have hdrop (reply : Option (Except AutonomyError Unit)) :
        Sect s.runs i { m with todo := rest, reply := reply } := hsect.drop htodo rfl rfl rfl
    cases returned with
    | true => exact (hp.modify _).owned h hm rfl (hdrop _)
    | false => exact (hp.modify _).owned h hm rfl (hdrop _)
  | launch n intent request =>
    cases returned with
    | true =>
      exact (hp.modify _).owned h hm rfl (hsect.replace (x := .launch n intent request u) htodo
        (by simp) rfl rfl (fun _ _ hx => (by cases hx)) trivial rfl rfl)
    | false =>
      exact ((hp.modify _).modify _).owned h hm rfl (hsect.replace (x := .release u.ticket n) htodo
        (by simp) rfl rfl (fun _ _ hx => (by cases hx)) trivial rfl rfl)
  | stop n intent request =>
    cases returned with
    | true =>
      have hrun := huses u.ticket n rfl
      let kept (k : ProcessManager) : ProcessManager :=
        { k with receipts := (u.ticket, intent, request) :: k.receipts, reply := some (.ok ()) }
      have hdrop : Sect s.runs i (kept { m with todo := rest }) := hsect.drop htodo rfl rfl rfl
      exact (hp.modify kept).owned_modifyRun h hm hrun (fun _ => ⟨rfl, rfl, rfl⟩)
        (fun _ ha hs => ⟨hs, ha⟩) rfl hdrop
    | false => exact (hp.modify _).owned h hm rfl (hsect.drop htodo rfl rfl rfl)
  | goto n next failed =>
    have hrun := huses u.ticket n rfl
    have hdrop : Sect s.runs i { m with todo := rest } := hsect.drop htodo rfl rfl rfl
    cases returned with
    | true =>
      exact hp.owned_modifyRun h hm hrun (fun _ => ⟨rfl, rfl, rfl⟩)
        (fun _ _ _ => ⟨rfl, by simpa using hlands.1⟩) rfl hdrop
    | false =>
      exact hp.owned_modifyRun h hm hrun (fun _ => ⟨rfl, rfl, rfl⟩)
        (fun _ _ _ => ⟨rfl, by simpa using hlands.2⟩) rfl hdrop

/-- The section after its manager has released run `n`. -/
theorem Sect.erase (h : Sect runs i m) (hn : Held runs n i ticket started)
    (hheld : ∀ k t b, Held runs' k i t b ↔ k ≠ n ∧ Held runs k i t b)
    (hcontrols : m'.controls = m.controls.erase ticket)
    (htodo : ∀ x ∈ m'.todo, x ∈ m.todo ∧ x.starts = none ∧ x.uses = none)
    (hrest : m'.todo.length ≤ 1) (hpending : ∀ k t, Held runs k i t false → k = n) :
    Sect runs' i m' where
  controls t k hk := by
    rw [hcontrols, Dict.get?_erase] at hk
    split_ifs at hk with ht
    obtain ⟨b, hb⟩ := h.controls t k hk
    refine ⟨b, (hheld k t b).mpr ⟨?_, hb⟩⟩
    rintro rfl
    exact ht (hb.unique hn).2.1
  starts x hx t k hs := by
    rw [(htodo x hx).2.1] at hs
    cases hs
  uses x hx t k hs := by
    rw [(htodo x hx).2.2] at hs
    cases hs
  lands x hx := h.lands x (htodo x hx).1
  kinds x hx y hy := h.kinds x (htodo x hx).1 y (htodo y hy).1
  rest x ops hops _ := by
    rw [hops, List.length_cons] at hrest
    exact Or.inl (List.length_eq_zero_iff.mp (by omega))
  recovering x hx hk := by
    rw [hcontrols, h.recovering x (htodo x hx).1 hk]
    rfl
  pending k t hk := by
    obtain ⟨hne, hk⟩ := (hheld k t false).mp hk
    exact absurd (hpending k t hk) hne
  nodup := hcontrols ▸ Dict.nodup_keys_erase h.nodup ticket

theorem release_eq (hr : s.runs n = some r) (hm : s.managers r.manager = some m)
    (hc : m.controls.get? r.ticket = some n)
    (ht : s.processWorkers.get? (s.outDir r.ticket) = some n) :
    s.release n = (({ s with
      processWorkers := s.processWorkers.erase (s.outDir r.ticket) }.modifyManager r.manager fun m =>
        { m with controls := m.controls.erase r.ticket }).modifyRun n fun r =>
          { r with reserved := false }) := by
  unfold release
  simp only [hr, hm, hc, ht, if_true]

/-- A section releases the run that it has reserved. -/
theorem Owned.releaseOp (h : s.Owned) (hm : s.managers i = some m)
    (htodo : m.todo = .release ticket n :: rest) (hp : Popped s s₁ i { m with todo := rest }) :
    (s₁.release n).Owned := by
  have hsect := h.sect i m hm
  have hn := hsect.starts _ (htodo ▸ List.mem_cons_self) ticket n rfl
  obtain ⟨hkey, k, hk, hc⟩ := h.reserved n i ticket false hn
  obtain rfl : m = k := Option.some.inj (hm.symm.trans hk)
  obtain ⟨r, hr, rfl, rfl, hreserved, hthread⟩ := id hn
  have hrest : rest = [] ∨ ∃ u, rest = [.update u .startFailed] := by
    refine (hsect.rest _ rest htodo rfl).imp_right ?_
    rintro ⟨t, k, u, -, hu⟩
    exact ⟨u, hu⟩
  have hm₁ : s₁.managers r.manager = some { m with todo := rest } := by
    rw [hp.managers, Function.update_self]
  have hr₁ : s₁.runs n = some r := by rw [hp.runs, hr]
  rw [release_eq hr₁ hm₁ hc (by rw [hp.processWorkers, hp.outDir, hkey])]
  refine h.releaseRun hm hr rfl hreserved
    (?_ : _ = Function.update s.runs n (some { r with reserved := false })) rfl (fun pc hpc => ?_)
    (?_ : _ = Function.update s.managers r.manager
      (some { m with todo := rest, controls := m.controls.erase r.ticket }))
    rfl ?_ hp.outDir ?_ hp.nextRun hp.built
  · simp [modifyRun, modifyManager, hp.runs, hr]
  · rw [Option.isSome_eq_false_iff, Option.isNone_iff_eq_none] at hthread
    rw [hthread] at hpc
    cases hpc
  · simp [modifyRun, modifyManager, hp.managers]
  · refine hsect.erase hn (fun k t b => ?_) rfl (fun x hx => ?_) ?_ fun k t hk => ?_
    · simp [modifyRun, modifyManager, hp.runs, hr, held_update]
    · have hx : x ∈ rest := hx
      refine ⟨htodo ▸ List.mem_cons_of_mem _ hx, ?_⟩
      rcases hrest with rfl | ⟨u, rfl⟩
      · cases hx
      · rw [List.mem_singleton.mp hx]
        exact ⟨rfl, rfl⟩
    · rcases hrest with rfl | ⟨u, rfl⟩ <;> simp
    · obtain ⟨y, hy, hs⟩ := hsect.pending k t hk
      rcases List.mem_cons.mp (htodo ▸ hy) with rfl | hy
      · exact (Prod.mk.inj (Option.some.inj hs)).2.symm
      · rcases hrest with rfl | ⟨u, rfl⟩
        · cases hy
        · rw [List.mem_singleton.mp hy] at hs
          cases hs
  · simp [modifyRun, modifyManager, hp.processWorkers, hp.outDir]

/-- While the lock of a manager is held by an access, nothing of its ticket that is not occupied is
in the table. -/
theorem Owned.get?_eq_none (h : s.Owned) {key : PyStr}
    (hfree : (s.processWorkers.get? key).any s.occupied = false) :
    s.processWorkers.get? key = none := by
  cases hkey : s.processWorkers.get? key with
  | none => rfl
  | some n =>
    rw [hkey, Option.any_some] at hfree
    obtain ⟨i, t, b, hn, -⟩ := h.table key n hkey
    obtain ⟨r, hr, -, -, -, -, halive⟩ := hn.alive h
    have hocc : s.occupied n = true := by
      unfold occupied
      rw [hr, Option.any_some]
      split
      · rename_i hended
        exact absurd hended halive
      · rfl
    rw [hocc] at hfree
    cases hfree

/-- The section reserves a run. -/
theorem Owned.reserveOp (h : s.Owned) (hm : s.managers i = some m) {intent : Intent}
    {request runId : PyStr} {read : Members} {receipts : List PyStr}
    (htodo : m.todo = .reserve ticket intent request read receipts :: rest)
    (hp : Popped s s₁ i { m with todo := rest })
    (hfree : s.processWorkers.get? (s.outDir ticket) = none) (u : RunUpdate)
    (hu : u.ticket = ticket) :
    ((s₁.reserve i ticket runId).push i [.openWorkspace s₁.nextRun intent request u]).Owned := by
  subst hu
  have hsect := h.sect i m hm
  have hrest : rest = [] := hsect.rest_eq_nil htodo rfl (by simp)
  subst hrest
  have hlone : ∀ {x}, x ∈ m.todo → x.starts = none := by
    intro x hx
    rw [htodo, List.mem_singleton] at hx
    rw [hx]
    rfl
  have hnone : ∀ {k t}, ¬Held s.runs k i t false := by
    intro k t hk
    obtain ⟨y, hy, hs⟩ := hsect.pending k t hk
    rw [hlone hy] at hs
    cases hs
  have hrun : s₁.nextRun = s.nextRun := hp.nextRun
  have hheld : ∀ {k j t b}, Held (Function.update s.runs s.nextRun
      (some ⟨i, u.ticket, runId, none, none, true⟩)) k j t b ↔
      k = s.nextRun ∧ (i = j ∧ u.ticket = t ∧ b = false) ∨ k ≠ s.nextRun ∧ Held s.runs k j t b := by
    intro k j t b
    rw [held_update]
    simp [eq_comm]
  have hnew : Held (Function.update s.runs s.nextRun
      (some ⟨i, u.ticket, runId, none, none, true⟩)) s.nextRun i u.ticket false :=
    hheld.mpr (Or.inl ⟨rfl, rfl, rfl, rfl⟩)
  have hruns : ((s₁.reserve i u.ticket runId).push i [.openWorkspace s₁.nextRun intent request
      u]).runs = Function.update s.runs s.nextRun
        (some ⟨i, u.ticket, runId, none, none, true⟩) := by
    simp [reserve, push, modifyManager, hp.runs, hrun]
  refine h.reserveRun hm hfree hruns
    (?_ : _ = Function.update s.managers i (some { m with
      todo := [.openWorkspace s.nextRun intent request u],
      controls := m.controls.set u.ticket s.nextRun })) rfl ?_ hp.outDir ?_ ?_ hp.built
  · simp [reserve, push, modifyManager, hp.managers, hrun]
  · rw [hruns]
    refine ⟨fun t k hk => ?_, fun x hx t k hs => ?_, fun x hx t k hs => ?_, fun x hx => ?_,
      fun x hx y hy => ?_, fun x ops hops _ => ?_, fun x hx hk => ?_, fun k t hk => ?_,
      Dict.nodup_keys_set hsect.nodup _ _⟩
    · rw [Dict.get?_set] at hk
      split_ifs at hk with ht
      · obtain rfl := Option.some.inj hk
        exact ⟨false, ht ▸ hnew⟩
      · obtain ⟨b, hb⟩ := hsect.controls t k hk
        refine ⟨b, hheld.mpr (Or.inr ⟨?_, hb⟩)⟩
        rintro rfl
        obtain ⟨q, hq, -⟩ := hb
        exact absurd (h.fresh _ q hq) (lt_irrefl _)
    · rw [List.mem_singleton.mp hx] at hs
      obtain ⟨rfl, rfl⟩ := Prod.mk.inj (Option.some.inj hs)
      exact hnew
    · rw [List.mem_singleton.mp hx] at hs
      cases hs
    · rw [List.mem_singleton.mp hx]
      trivial
    · rw [List.mem_singleton.mp hx, List.mem_singleton.mp hy]
    · exact Or.inl (List.cons.inj hops).2.symm
    · rw [List.mem_singleton.mp hx] at hk
      cases hk
    · rcases hheld.mp hk with ⟨rfl, -, rfl, -⟩ | ⟨-, hk⟩
      · exact ⟨_, List.mem_singleton.mpr rfl, rfl⟩
      · exact absurd hk hnone
  · simp [reserve, push, modifyManager, hp.processWorkers, hp.outDir, hrun]
  · simp [reserve, push, modifyManager, hrun]

/-- The section starts the thread of the run that it has reserved. -/
theorem Owned.launchOp (h : s.Owned) (hm : s.managers i = some m) {intent : Intent}
    {request : PyStr} {u : RunUpdate} (htodo : m.todo = .launch n intent request u :: rest)
    (hp : Popped s s₁ i { m with todo := rest }) (key : PyStr × Intent × PyStr) :
    ((s₁.goto n .entered).remember i key).Owned := by
  have hsect := h.sect i m hm
  have hrest : rest = [] := hsect.rest_eq_nil htodo rfl (by simp)
  subst hrest
  obtain ⟨r, hr, hi, ht, hreserved, hthread, -⟩ :=
    (hsect.starts _ (htodo ▸ List.mem_cons_self) u.ticket n rfl).alive h
  have hruns : ((s₁.goto n .entered).remember i key).runs =
      Function.update s.runs n (some { r with thread := some .entered }) := by
    simp [goto, remember, modifyRun, modifyManager, hp.runs, hr]
  refine h.moveRun hm hr hi hreserved hruns rfl rfl hreserved (by simp)
    (?_ : _ = Function.update s.managers i (some { m with
      todo := [], receipts := key :: m.receipts, reply := some (.ok ()) })) rfl ?_ hp.outDir
    hp.processWorkers hp.nextRun hp.built
  · simp [goto, remember, modifyRun, modifyManager, hp.managers]
  · rw [hruns]
    refine ⟨fun t k hk => ?_, fun x hx => (by cases hx), fun x hx => (by cases hx),
      fun x hx => (by cases hx), fun x hx => (by cases hx), fun x ops hops => (by cases hops),
      fun x hx => (by cases hx), fun k t hk => ?_, hsect.nodup⟩
    · obtain ⟨b, hb⟩ := hsect.controls t k hk
      by_cases hkn : k = n
      · subst hkn
        obtain ⟨q, hq, hqi, hqt, -⟩ := hb
        obtain rfl : r = q := Option.some.inj (hr.symm.trans hq)
        exact ⟨true, held_update.mpr (Or.inl ⟨rfl, hqi, hqt, hreserved, rfl⟩)⟩
      · exact ⟨b, held_update.mpr (Or.inr ⟨hkn, hb⟩)⟩
    · rcases held_update.mp hk with ⟨-, -, -, -, hsome⟩ | ⟨hkn, hk⟩
      · cases hsome
      · obtain ⟨y, hy, hs⟩ := hsect.pending k t hk
        rw [htodo, List.mem_singleton] at hy
        rw [hy] at hs
        exact absurd (Prod.mk.inj (Option.some.inj hs)).2.symm hkn

/-- A thread has not been started: the run is to be released, and the failure to be persisted. -/
theorem Sect.startFailed (h : Sect runs i m) {intent : Intent} {request : PyStr} {u v : RunUpdate}
    (htodo : m.todo = .launch n intent request u :: rest) (hcontrols : m'.controls = m.controls)
    (htodo' : m'.todo = .release u.ticket n :: .update v .startFailed :: rest) : Sect runs i m' := by
  have hrest : rest = [] := h.rest_eq_nil htodo rfl (by simp)
  subst hrest
  have hmem : ∀ {x}, x ∈ m'.todo → x = .release u.ticket n ∨ x = .update v .startFailed := by
    intro x hx
    rw [htodo'] at hx
    simpa using hx
  refine ⟨fun t k => hcontrols ▸ h.controls t k, fun x hx t k hs => ?_, fun x hx t k hs => ?_,
    fun x hx => ?_, fun x hx y hy => ?_, fun x ops hops _ => ?_, fun x hx hk => ?_,
    fun k t hk => ?_, hcontrols ▸ h.nodup⟩
  · rcases hmem hx with rfl | rfl
    · have hlaunch : .launch n intent request u ∈ m.todo := htodo ▸ List.mem_cons_self
      exact h.starts _ hlaunch t k hs
    · cases hs
  · rcases hmem hx with rfl | rfl <;> cases hs
  · rcases hmem hx with rfl | rfl <;> trivial
  · rcases hmem hx with rfl | rfl <;> rcases hmem hy with rfl | rfl <;> rfl
  · obtain ⟨rfl, rfl⟩ := List.cons.inj (htodo'.symm.trans hops)
    exact Or.inr ⟨_, _, _, rfl, rfl⟩
  · rcases hmem hx with rfl | rfl <;> cases hk
  · obtain ⟨y, hy, hs⟩ := h.pending k t hk
    rw [htodo, List.mem_singleton] at hy
    rw [hy] at hs
    exact ⟨.release u.ticket n, htodo' ▸ List.mem_cons_self, hs⟩

/-- The constructor of a manager raises while it recovers. -/
theorem Owned.abandon (h : s.Owned) (hm : s.managers i = some m) (htodo : m.todo = op :: rest)
    (hkind : op.kind = .recovery) (hp : Popped s s₁ i m₁) :
    Owned { s₁ with managers := Function.update s₁.managers i none } := by
  have hnone : ∀ {k t b}, ¬Held s.runs k i t b := by
    intro k t b hk
    obtain ⟨-, q, hq, hc⟩ := h.reserved k i t b hk
    obtain rfl : m = q := Option.some.inj (hm.symm.trans hq)
    rw [(h.sect i m hm).recovering op (htodo ▸ List.mem_cons_self) hkind] at hc
    cases hc
  have hmanagers : ∀ {j k}, Function.update s₁.managers i none j = some k →
      j ≠ i ∧ s.managers j = some k := by
    intro j k hk
    by_cases hj : j = i
    · rw [hj, Function.update_self] at hk
      cases hk
    · rw [Function.update_of_ne hj, hp.managers, Function.update_of_ne hj] at hk
      exact ⟨hj, hk⟩
  refine ⟨fun k q hq => ?_, fun j k hk => ?_, fun key k hk => ?_, fun k j t b hk => ?_,
    fun k q pc hq => ?_, fun j k hk => ?_⟩
  · exact hp.nextRun.symm ▸ h.fresh k q (hp.runs ▸ hq)
  · exact hp.built.symm ▸ h.built j k (hmanagers hk).2
  · obtain ⟨j, t, b, hb, hdir⟩ := h.table key k (hp.processWorkers ▸ hk)
    exact ⟨j, t, b, hp.runs.symm ▸ hb, hp.outDir.symm ▸ hdir⟩
  · have hk : Held s.runs k j t b := hp.runs ▸ hk
    obtain ⟨hkey, q, hq, hc⟩ := h.reserved k j t b hk
    have hj : j ≠ i := fun hj => hnone (hj ▸ hk)
    refine ⟨?_, q, ?_, hc⟩
    · change s₁.processWorkers.get? (s₁.outDir t) = some k
      rw [hp.processWorkers, hp.outDir, hkey]
    · change Function.update s₁.managers i none j = some q
      rw [Function.update_of_ne hj, hp.managers, Function.update_of_ne hj, hq]
  · exact h.thread k q pc (hp.runs ▸ hq)
  · exact hp.runs.symm ▸ h.sect j k (hmanagers hk).2

/-- One access keeps the invariant. -/
theorem Owned.perform (h : s.Owned) (hm : s.managers i = some m) (htodo : m.todo = op :: rest)
    (env : OpEnv) (hp : Popped s s₁ i { m with todo := rest }) :
    (s₁.perform i m env op).Owned := by
  have hsect := h.sect i m hm
  have huses := hsect.uses _ (htodo ▸ List.mem_cons_self)
  -- the access ends the section, or the part of it that is about one ticket
  have hdone (hop : op.starts = none) : s₁.Owned :=
    hp.owned h hm rfl (hsect.drop htodo hop rfl rfl)
  have hanswer (hop : op.starts = none) (reply : Except AutonomyError Unit) :
      (s₁.answer i reply).Owned :=
    (hp.modify _).owned h hm rfl (hsect.drop htodo hop rfl rfl)
  have hremember (hop : op.starts = none) (key : PyStr × Intent × PyStr) :
      (s₁.remember i key).Owned :=
    (hp.modify _).owned h hm rfl (hsect.drop htodo hop rfl rfl)
  -- another access takes its place
  have hpush (x : LockedOp) (hop : ∀ t k, op ≠ .release t k) (hkind : x.kind = op.kind)
      (hstarts : x.starts = op.starts) (hx : ∀ t k, x.uses = some (t, k) →
        Held s.runs k i t true) (hlands : x.Lands) : (s₁.push i [x]).Owned :=
    (hp.modify _).owned h hm rfl
      (hsect.replace htodo hop hkind hstarts hx hlands rfl rfl)
  cases op with
  | replay t =>
    simp only [AutonomyProcess.perform]
    split_ifs
    · exact hanswer rfl _
    · exact hanswer rfl _
  | ticket t intent request =>
    simp only [AutonomyProcess.perform]
    split_ifs
    · exact hpush _ (by simp) rfl rfl (fun _ _ hx => (by cases hx)) trivial
    · exact hanswer rfl _
  | receipts t intent request mode =>
    simp only [AutonomyProcess.perform]
    split_ifs
    · exact hanswer rfl _
    · unfold checkReceipts
      split
      · exact hanswer rfl _
      · split_ifs
        · exact hremember rfl _
        · cases intent <;>
            exact hpush _ (by simp) rfl rfl (fun _ _ hx => (by cases hx)) trivial
  | startOrResume t intent request mode =>
    simp only [AutonomyProcess.perform]
    split
    · exact hanswer rfl _
    · exact hpush _ (by simp) rfl rfl (fun _ _ hx => (by cases hx)) trivial
  | reserve t intent request read receipts =>
    simp only [AutonomyProcess.perform]
    split_ifs with hreadable hfree
    · exact hanswer rfl _
    · exact hanswer rfl _
    · refine h.reserveOp hm htodo hp ?_ _ rfl
      have hocc : s₁.occupied = s.occupied := by
        funext k
        rw [occupied, occupied, hp.runs]
      rw [hp.processWorkers, hp.outDir, hocc, Bool.not_eq_true] at hfree
      exact h.get?_eq_none hfree
  | openWorkspace n intent request u =>
    simp only [AutonomyProcess.perform]
    split
    · exact ((hp.modify _).modify _).owned h hm rfl (hsect.replace (x := .release u.ticket n) htodo
        (by simp) rfl rfl (fun _ _ hx => (by cases hx)) trivial rfl rfl)
    · exact hpush _ (by simp) rfl rfl (fun _ _ hx => (by cases hx)) trivial
  | update u after =>
    have hrecord : Popped s (s₁.record u after) i { m with todo := rest } :=
      ⟨hp.managers, hp.outDir, hp.processWorkers, hp.nextRun, hp.built, hp.runs⟩
    simp only [AutonomyProcess.perform, AutonomyProcess.update]
    cases env.answer with
    | accepted => exact h.follow hm htodo hrecord true
    | unconfirmed => exact h.follow hm htodo hrecord false
    | refused => exact h.follow hm htodo hp false
    | unreadable => exact h.follow hm htodo hp false
  | launch n intent request u =>
    simp only [AutonomyProcess.perform]
    split_ifs
    · exact h.launchOp hm htodo hp _
    · exact (hp.modify _).owned h hm rfl (hsect.startFailed htodo rfl rfl)
  | release t n =>
    exact h.releaseOp hm htodo hp
  | requestStop t intent request =>
    simp only [AutonomyProcess.perform]
    split
    · exact hanswer rfl _
    · rename_i n receipts hcheck
      refine hpush _ (by simp) rfl rfl (fun t' k hx => ?_) trivial
      obtain ⟨rfl, rfl⟩ := Prod.mk.inj (Option.some.inj hx)
      obtain ⟨hc, halive, -⟩ := receipts_of_stopCheck hcheck
      obtain ⟨b, r, hr, hi, ht, hreserved, hthread⟩ := hsect.controls t n hc
      refine ⟨r, hr, hi, ht, hreserved, ?_⟩
      rw [isAlive, hp.runs, hr, Option.any_some] at halive
      cases hpc : r.thread with
      | none =>
        rw [hpc] at halive
        cases halive
      | some pc => rfl
  | interrupt t n =>
    simp only [AutonomyProcess.perform]
    split_ifs
    · exact hp.owned_modifyRun h hm (huses t n rfl) (fun _ => ⟨rfl, rfl, rfl⟩)
        (fun _ ha hs => ⟨hs, ha⟩) rfl (hsect.drop htodo rfl rfl rfl)
    · let u : RunUpdate := ⟨t, s₁.runtime t,
        Runtime.interrupted (s₁.runtime t) "shutdown" env.now, Manager.interactivePatch⟩
      have hnext : Sect s.runs i { m with todo := .update u (.interrupted n) :: rest } :=
        hsect.replace (x := .update u (.interrupted n)) htodo (by simp) rfl rfl huses trivial rfl
          rfl
      exact (hp.modify fun k => { k with
        todo := [.update u (.interrupted n)] ++ k.todo }).owned_modifyRun h hm (huses t n rfl)
          (fun _ => ⟨rfl, rfl, rfl⟩) (fun _ ha hs => ⟨hs, ha⟩) rfl hnext
  | recover t =>
    simp only [AutonomyProcess.perform]
    split_ifs
    · exact hdone rfl
    · exact h.abandon hm htodo rfl hp
    · exact hdone rfl
    · exact hpush _ (by simp) rfl rfl (fun _ _ hx => (by cases hx)) trivial
  | recoverCheck t read live =>
    simp only [AutonomyProcess.perform]
    split_ifs with hfree
    · exact hdone rfl
    · have hnone : s.processWorkers.get? (s.outDir t) = none := by
        have hocc : s₁.occupied = s.occupied := by
          funext k
          rw [occupied, occupied, hp.runs]
        rw [Bool.or_eq_true, not_or, Bool.not_eq_true, Bool.not_eq_true, hp.processWorkers,
          hp.outDir, hocc] at hfree
        exact h.get?_eq_none hfree.2
      have hsame : s₁.processWorkers.erase (s₁.outDir t) = s.processWorkers := by
        rw [hp.processWorkers, hp.outDir, Dict.erase_eq_self (Dict.get?_eq_none_iff.mp hnone)]
      have hp' : Popped s { s₁ with processWorkers := s₁.processWorkers.erase (s₁.outDir t) } i
          { m with todo := rest } :=
        ⟨hp.managers, hp.outDir, hsame, hp.nextRun, hp.built, hp.runs⟩
      exact (hp'.modify _).owned h hm rfl (hsect.replace (x := .update ⟨t, read,
        Runtime.interrupted read "process_restarted" env.now, Manager.interactivePatch⟩
        (.recovered live)) htodo (by simp) rfl rfl (fun _ _ hx => (by cases hx)) trivial rfl rfl)

/-! ## Steps of a worker -/

theorem Popped.refl (hm : s.managers i = some m) : Popped s s i m where
  managers := by rw [← hm, Function.update_eq_self]
  outDir := rfl
  processWorkers := rfl
  nextRun := rfl
  built := rfl
  runs := rfl

/-- The worker releases its run and ends. -/
theorem Owned.leave (h : s.Owned) (hn : Held s.runs n i ticket true) (hm : s.managers i = some m)
    (hempty : m.todo = []) : ((s.release n).goto n .ended).Owned := by
  have hsect := h.sect i m hm
  obtain ⟨hkey, k, hk, hc⟩ := h.reserved n i ticket true hn
  obtain rfl : m = k := Option.some.inj (hm.symm.trans hk)
  obtain ⟨r, hr, rfl, rfl, hreserved, -⟩ := id hn
  rw [release_eq hr hm hc hkey]
  refine h.releaseRun hm hr rfl hreserved (?_ : _ = Function.update s.runs n
      (some { r with reserved := false, thread := some .ended })) rfl
    (fun pc hpc => (Option.some.inj hpc).symm)
    (?_ : _ = Function.update s.managers r.manager
      (some { m with controls := m.controls.erase r.ticket })) rfl ?_ rfl rfl rfl rfl
  · simp [goto, modifyRun, modifyManager, hr]
  · simp [goto, modifyRun, modifyManager, hm]
  · refine hsect.erase hn (fun k t b => ?_) rfl (fun x hx => ?_) ?_ fun k t hk => ?_
    · simp [goto, modifyRun, modifyManager, hr, held_update]
    · have hx : x ∈ m.todo := hx
      rw [hempty] at hx
      cases hx
    · change m.todo.length ≤ 1
      rw [hempty]
      exact Nat.zero_le 1
    · exact absurd (hsect.started_of_nil hempty hk) (by simp)

/-- A step of a worker keeps the invariant. -/
theorem Owned.work (h : s.Owned) (hr : s.runs n = some r) (hm : s.managers r.manager = some m)
    {pc : WorkerPc} (hpc : r.thread = some pc) {w : WorkerAction}
    (hlock : (m.todo.isEmpty || (w.ofExecutor && !m.todo.any (LockedOp.resumes n))) = true)
    (hs : s.workerStep m n r w pc = some s') : s'.Owned := by
  have hsect := h.sect _ m hm
  have hn : pc ≠ .ended → Held s.runs n r.manager r.ticket true := fun halive =>
    ⟨r, hr, rfl, rfl, (h.thread n r pc hr hpc).mpr halive, by rw [hpc]; rfl⟩
  have hgoto : pc ≠ .ended → ∀ next, next ≠ .ended → (s.goto n next).Owned := fun halive next hne =>
    (Popped.refl hm).owned_modifyRun h hm (hn halive) (fun _ => ⟨rfl, rfl, rfl⟩)
      (fun _ _ _ => ⟨rfl, by simpa using hne⟩) rfl hsect
  have hpersist : pc ≠ .ended → m.todo.isEmpty = true → ∀ next patch pc' failed,
      pc' ≠ .ended ∧ failed ≠ .ended → (s.persist n r next patch pc' failed).Owned := by
    intro halive hempty next patch pc' failed hlands
    rw [List.isEmpty_iff] at hempty
    refine ((Popped.refl hm).modify _).owned h hm rfl ?_
    refine hsect.begin hempty rfl .worker (fun x hx => ?_) (by simp) (by simp)
      (fun x hx => ?_) (fun x hx t k hk => ?_) (fun x hx => ?_) <;>
      rw [hempty, List.append_nil, List.mem_singleton] at hx <;> subst hx
    · rfl
    · rfl
    · obtain ⟨rfl, rfl⟩ := Prod.mk.inj (Option.some.inj hk)
      exact hn halive
    · exact hlands
  unfold workerStep at hs
  split at hs
  · have hempty : m.todo.isEmpty = true := by simpa [WorkerAction.ofExecutor] using hlock
    split_ifs at hs <;> obtain rfl := Option.some.inj hs
    · exact hgoto (by simp) _ (by simp)
    · exact hgoto (by simp) _ (by simp)
    · exact hpersist (by simp) hempty _ _ _ _ (by simp)
    · exact hgoto (by simp) _ (by simp)
  · have hempty : m.todo.isEmpty = true := by simpa [WorkerAction.ofExecutor] using hlock
    split_ifs at hs <;> obtain rfl := Option.some.inj hs
    · exact h
    · exact hpersist (by simp) hempty _ _ _ _ (by simp)
  · obtain rfl := Option.some.inj hs
    exact hgoto (by simp) _ (by simp)
  · obtain rfl := Option.some.inj hs
    exact hgoto (by simp) _ (by simp)
  · obtain rfl := Option.some.inj hs
    exact hgoto (by simp) _ (by simp)
  · obtain rfl := Option.some.inj hs
    exact hgoto (by simp) _ (by simp)
  · split_ifs at hs <;> obtain rfl := Option.some.inj hs <;> exact hgoto (by simp) _ (by simp)
  · split_ifs at hs <;> obtain rfl := Option.some.inj hs <;> exact hgoto (by simp) _ (by simp)
  · have hempty : m.todo.isEmpty = true := by simpa [WorkerAction.ofExecutor] using hlock
    split_ifs at hs <;> obtain rfl := Option.some.inj hs
    · exact hgoto (by simp) _ (by simp)
    · exact hgoto (by simp) _ (by simp)
    · exact hgoto (by simp) _ (by simp)
    · exact hpersist (by simp) hempty _ _ _ _ (by simp)
  · have hempty : m.todo.isEmpty = true := by simpa [WorkerAction.ofExecutor] using hlock
    split_ifs at hs <;> obtain rfl := Option.some.inj hs
    · exact hgoto (by simp) _ (by simp)
    · exact hpersist (by simp) hempty _ _ _ _ (by simp)
  · have hempty : m.todo.isEmpty = true := by simpa [WorkerAction.ofExecutor] using hlock
    obtain rfl := Option.some.inj hs
    exact h.leave (hn (by simp)) hm (List.isEmpty_iff.mp hempty)
  · cases hs

/-! ## Every step -/

/-- A manager is built. -/
theorem Owned.build (h : s.Owned) (hcontrols : m.controls = [])
    (htodo : ∀ op ∈ m.todo, ∃ ticket, op = .recover ticket) :
    Owned { s with
      managers := Function.update s.managers s.built (some m), built := s.built + 1 } := by
  have hold : ∀ {j k}, s.managers j = some k → j ≠ s.built := fun hk hj =>
    absurd (h.built _ _ hk) (by omega)
  refine ⟨h.fresh, fun j k hk => ?_, h.table, fun k j t b hk => ?_, h.thread, fun j k hk => ?_⟩
  · have hk : Function.update s.managers s.built (some m) j = some k := hk
    change j < s.built + 1
    by_cases hj : j = s.built
    · omega
    · rw [Function.update_of_ne hj] at hk
      have := h.built j k hk
      omega
  · obtain ⟨hkey, q, hq, hc⟩ := h.reserved k j t b hk
    exact ⟨hkey, q, (Function.update_of_ne (hold hq) ..).trans hq, hc⟩
  · have hk : Function.update s.managers s.built (some m) j = some k := hk
    by_cases hj : j = s.built
    · subst hj
      rw [Function.update_self] at hk
      obtain rfl := Option.some.inj hk
      refine ⟨fun t k hk => ?_, fun x hx t k hs => ?_, fun x hx t k hs => ?_, fun x hx => ?_,
        fun x hx y hy => ?_, fun x ops hops hk => ?_, fun _ _ _ => hcontrols, fun k t hk => ?_, ?_⟩
      · rw [hcontrols] at hk
        cases hk
      · obtain ⟨t', rfl⟩ := htodo x hx
        cases hs
      · obtain ⟨t', rfl⟩ := htodo x hx
        cases hs
      · obtain ⟨t', rfl⟩ := htodo x hx
        trivial
      · obtain ⟨t', rfl⟩ := htodo x hx
        obtain ⟨t'', rfl⟩ := htodo y hy
        rfl
      · obtain ⟨t', rfl⟩ := htodo x (hops ▸ List.mem_cons_self)
        cases hk
      · obtain ⟨-, q, hq, -⟩ := h.reserved k s.built t false hk
        exact absurd rfl (hold hq)
      · rw [hcontrols]
        exact List.nodup_nil
    · rw [Function.update_of_ne hj] at hk
      exact h.sect j k hk

/-- An intent ends without an access. -/
theorem Owned.answer (h : s.Owned) (hm : s.managers i = some m) (hempty : m.todo = [])
    (reply : Except AutonomyError Unit) : (s.answer i reply).Owned := by
  have hno : ∀ x, x ∉ m.todo := fun x hx => by
    rw [hempty] at hx
    cases hx
  refine ((Popped.refl hm).modify _).owned h hm rfl ?_
  exact (h.sect i m hm).begin hempty rfl .intent (fun x hx => absurd hx (hno x)) (by simp)
    (fun _ x ops hops => by rw [hempty] at hops; cases hops) (fun x hx => absurd hx (hno x))
    (fun x hx => absurd hx (hno x)) (fun x hx => absurd hx (hno x))

/-- An intent takes the lock. -/
theorem Owned.call (h : s.Owned) (hm : s.managers i = some m) (hempty : m.todo = [])
    (ticket : PyStr) (intent : Intent) (request : PyStr) :
    (s.call i m ticket intent request).Owned := by
  have hbegin (x : LockedOp) (hkind : x.kind = .intent) (hstarts : x.starts = none)
      (huses : x.uses = none) (hlands : x.Lands) :
      (s.modifyManager i fun k => { k with todo := [x], reply := none }).Owned := by
    refine ((Popped.refl hm).modify _).owned h hm rfl ?_
    refine (h.sect i m hm).begin hempty rfl .intent (fun y hy => ?_) (by simp)
      (fun _ y ops hops => (List.cons.inj hops).2.symm) (fun y hy => ?_) (fun y hy t k hk => ?_)
      (fun y hy => ?_) <;> rw [List.mem_singleton.mp hy] at *
    · exact hkind
    · exact hstarts
    · rw [huses] at hk
      cases hk
    · exact hlands
  unfold AutonomyProcess.call
  split_ifs
  · exact hbegin _ rfl rfl rfl trivial
  · exact h.answer hm hempty _
  · exact hbegin _ rfl rfl rfl trivial

/-- The shutdown takes the lock. -/
theorem Owned.shutdown (h : s.Owned) (hm : s.managers i = some m) (hempty : m.todo = []) :
    (s.modifyManager i fun m => { m with
      shuttingDown := true,
      todo := m.controls.map fun item => .interrupt item.1 item.2 }).Owned := by
  have hsect := h.sect i m hm
  have hitem : ∀ x ∈ m.controls.map fun item => LockedOp.interrupt item.1 item.2,
      ∃ t n, m.controls.get? t = some n ∧ x = .interrupt t n := by
    intro x hx
    obtain ⟨item, hitem, rfl⟩ := List.mem_map.mp hx
    exact ⟨item.1, item.2, Dict.get?_of_mem hsect.nodup hitem, rfl⟩
  refine ((Popped.refl hm).modify _).owned h hm rfl ?_
  refine hsect.begin hempty rfl .shutdown (fun x hx => ?_) (by simp) (by simp)
    (fun x hx => ?_) (fun x hx t k hk => ?_) (fun x hx => ?_) <;>
    obtain ⟨t', n, hc, rfl⟩ := hitem x hx
  · rfl
  · rfl
  · obtain ⟨rfl, rfl⟩ := Prod.mk.inj (Option.some.inj hk)
    obtain ⟨b, hb⟩ := hsect.controls t' n hc
    rwa [hsect.started_of_nil hempty hb] at hb
  · trivial

/-- One step keeps the invariant. -/
theorem Owned.step (h : s.Owned) (hs : s.step a = some s') : s'.Owned := by
  cases a with
  | build enabled tickets =>
    obtain rfl := Option.some.inj hs
    refine h.build rfl fun op hop => ?_
    obtain ⟨t, -, rfl⟩ := List.mem_map.mp hop
    exact ⟨t, rfl⟩
  | intent i ticket payload =>
    simp only [AutonomyProcess.step] at hs
    split at hs
    · rename_i m hm
      split_ifs at hs with hempty
      rw [List.isEmpty_iff] at hempty
      split at hs
      · obtain rfl := Option.some.inj hs
        exact h.answer hm hempty _
      · obtain rfl := Option.some.inj hs
        exact h.call hm hempty _ _ _
    · cases hs
  | shutdown i =>
    simp only [AutonomyProcess.step] at hs
    split at hs
    · rename_i m hm
      split_ifs at hs with hempty
      · obtain rfl := Option.some.inj hs
        exact h
      · obtain rfl := Option.some.inj hs
        exact h.shutdown hm (List.isEmpty_iff.mp hempty)
    · cases hs
  | advance i env =>
    simp only [AutonomyProcess.step] at hs
    split at hs
    · rename_i m hm
      split at hs
      · rename_i op rest htodo
        obtain rfl := Option.some.inj hs
        exact h.perform hm htodo env ⟨rfl, rfl, rfl, rfl, rfl, rfl⟩
      · cases hs
    · cases hs
  | work n w =>
    simp only [AutonomyProcess.step] at hs
    split at hs
    · rename_i r hr
      split at hs
      · rename_i m pc hm hpc
        split_ifs at hs with hlock
        exact h.work hr hm hpc hlock hs
      · cases hs
    · cases hs
  | exit =>
    obtain rfl := Option.some.inj hs
    refine ⟨fun _ _ hq => (by cases hq), fun _ _ hk => (by cases hk), fun _ _ hk => (by cases hk),
      fun _ _ _ _ hk => ?_, fun _ _ _ hq => (by cases hq), fun _ _ hk => (by cases hk)⟩
    obtain ⟨q, hq, -⟩ := hk
    cases hq

/-! ## One worker -/

/-- The run is over: its thread has ended, or it has none and no section is going to start it. -/
def Over (s : AutonomyProcess) (n : ℕ) (r : RunControl) : Prop :=
  r.thread = some .ended ∨ r.thread = none ∧ ∀ m, s.managers r.manager = some m →
    ∀ op ∈ m.todo, ∀ ticket, op.starts ≠ some (ticket, n)

/-- A run that is reserved and has no thread is what the section of its manager does next. -/
theorem Owned.heads (h : s.Owned) (hn : Held s.runs n i ticket false) :
    ∃ op, s.Heads i op ∧ op.starts = some (ticket, n) := by
  obtain ⟨-, m, hm, -⟩ := h.reserved n i ticket false hn
  have hsect := h.sect i m hm
  obtain ⟨op, hop, hs⟩ := hsect.pending n ticket hn
  cases htodo : m.todo with
  | nil =>
    rw [htodo] at hop
    cases hop
  | cons x rest =>
    have hkind : x.kind = .intent := by
      rw [hsect.kinds x (htodo ▸ List.mem_cons_self) op hop]
      exact LockedOp.kind_of_starts hs
    rcases hsect.rest x rest htodo hkind with rfl | ⟨t, k, u, rfl, rfl⟩
    · rw [htodo, List.mem_singleton] at hop
      exact ⟨op, ⟨m, [], hm, hop ▸ htodo⟩, hs⟩
    · rw [htodo] at hop
      rcases List.mem_cons.mp hop with rfl | hop
      · exact ⟨_, ⟨m, _, hm, htodo⟩, hs⟩
      · rw [List.mem_singleton.mp hop] at hs
        cases hs

/-- In every run of a process with any number of managers: at most one run of a ticket directory is
between its reservation and its release; the body of `_worker_main`, which calls the executor, only
runs for one that is; a run that has failed to start or has ended is not; and as long as one is
without a thread, the next access of the section that has reserved it is about it. -/
theorem one_worker (outDir : PyStr → PyStr) (agent : PyStr → Members)
    (acts : List ProcessAction) (s : AutonomyProcess)
    (hrun : run step (initial outDir agent) acts = some s) :
    (∀ k n q r, s.runs k = some q → s.runs n = some r → q.reserved = true → r.reserved = true →
      s.outDir q.ticket = s.outDir r.ticket → k = n) ∧
    (∀ n r pc, s.runs n = some r → r.thread = some pc → pc ≠ .ended → r.reserved = true) ∧
    (∀ n r, s.runs n = some r → s.Over n r →
      r.reserved = false ∧ s.processWorkers.get? (s.outDir r.ticket) ≠ some n) ∧
    ∀ n r, s.runs n = some r → r.reserved = true → r.thread = none →
      ∃ op, s.Heads r.manager op ∧ op.starts = some (r.ticket, n) := by
  have h : s.Owned := run_invariant (fun _ _ _ h hs => h.step hs) (owned_initial _ _) hrun
  have hkey : ∀ n r, s.runs n = some r → r.reserved = true →
      s.processWorkers.get? (s.outDir r.ticket) = some n := fun n r hr hreserved =>
    (h.reserved n r.manager r.ticket _ ⟨r, hr, rfl, rfl, hreserved, rfl⟩).1
  refine ⟨fun k n q r hq hr hqr hrr hdir => ?_, fun n r pc hr hpc halive =>
    (h.thread n r pc hr hpc).mpr halive, fun n r hr hover => ?_, fun n r hr hreserved hnone =>
    h.heads ⟨r, hr, rfl, rfl, hreserved, by rw [hnone]; rfl⟩⟩
  · have hk := hkey k q hq hqr
    rw [hdir, hkey n r hr hrr] at hk
    exact (Option.some.inj hk).symm
  · have hfree : r.reserved = false := by
      rw [← Bool.not_eq_true]
      intro hreserved
      rcases hover with hended | ⟨hnone, hno⟩
      · exact (h.thread n r .ended hr hended).mp hreserved rfl
      · have hn : Held s.runs n r.manager r.ticket false :=
          ⟨r, hr, rfl, rfl, hreserved, by rw [hnone]; rfl⟩
        obtain ⟨-, m, hm, -⟩ := h.reserved n _ _ _ hn
        obtain ⟨op, hop, hs⟩ := (h.sect _ m hm).pending n _ hn
        exact hno m hm op hop _ hs
    refine ⟨hfree, fun hn => ?_⟩
    obtain ⟨i, t, b, ⟨q, hq, -, -, hreserved, -⟩, -⟩ := h.table _ n hn
    obtain rfl : r = q := Option.some.inj (hr.symm.trans hq)
    rw [hfree] at hreserved
    cases hreserved

/-! ## Two managers that start a ticket -/

/-- Two managers are asked to start the same ticket: the second one reads the run before the first
one reserves it, and comes to the reservation after that. -/
def twoStarts : List ProcessAction :=
  [.build true [], .build true [], .intent 0 "T" (Manager.request "start" "a"),
    .intent 1 "T" (Manager.request "start" "b")] ++ List.replicate 3 (.advance 1 smooth) ++
    List.replicate 7 (.advance 0 smooth) ++ [.advance 1 smooth, .work 0 (.start true "t")]

theorem one_worker_twoStarts : ∃ s r, run step (initial id Manager.autonomousTicket) twoStarts =
      some s ∧ s.runs 0 = some r ∧ r.thread.isSome = true ∧ r.reserved = true ∧
      ∀ k q, s.runs k = some q → q.reserved = true → q.ticket = r.ticket → k = 0 := by
  have hlast : ((run step (initial id Manager.autonomousTicket) twoStarts).any fun s =>
      (s.runs 0).any fun r => r.thread.isSome && r.reserved) = true := by
    decide +kernel
  obtain ⟨s, hs, hr⟩ := (Option.any_eq_true _ _).mp hlast
  obtain ⟨r, hr, hstarted⟩ := (Option.any_eq_true _ _).mp hr
  rw [Bool.and_eq_true] at hstarted
  refine ⟨s, r, hs, hr, hstarted.1, hstarted.2, fun k q hq hreserved hticket => ?_⟩
  exact (one_worker id _ _ s hs).1 k 0 q r hq hr hreserved hstarted.2 (congrArg _ hticket)

end AutonomyProcess

end Icode
