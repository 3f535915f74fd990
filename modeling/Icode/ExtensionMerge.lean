import Icode.Autonomy

/-!
# Merging the agent extension

`update_agent_extension` reads the metadata of a ticket, merges its patch into
`extensions.icode_agent` in memory, and has the control plane replace `extensions` as a whole. What
another writer puts under a different key of `extensions` after that read is not in the object that
is written. Both values are there in the end exactly when neither write replaces an object that its
writer has not read (`holdsBoth_iff_along`).
-/

namespace Icode

open Py Transition

/-! ## The update -/

inductive TicketError where
  | patchNotObject
  | requestId
  | notFound
  | refused
  deriving DecidableEq

def TicketError.text : TicketError → PyStr
  | .patchNotObject => "Agent 扩展补丁必须是对象"
  | .requestId => "request_id 格式非法"
  | .notFound => "工单不存在或身份不唯一"
  | .refused => "Agent 扩展更新被控制面拒绝"

/-- `_TicketRecord` -/
structure TicketRecord where
  outDir : PyStr
  metadata : Members

/-- `dict(extensions) if isinstance(extensions, dict) else {}` -/
def extensionsOf (metadata : Members) : Members :=
  match metadata.get "extensions" with
  | .obj ms => ms
  | _ => []

/-- `_agent_extension` -/
def agentExtension (metadata : Members) : Members :=
  match metadata.get "extensions" with
  | .obj ms =>
    match Members.get ms "icode_agent" with
    | .obj agent => agent
    | _ => []
  | _ => []

/-- What `metadata_update` asks of the control plane. -/
structure MetadataUpdate where
  outDir : PyStr
  request : PyStr
  setJson : Members

/-- The control plane replaces the top-level fields that are named. -/
def MetadataUpdate.apply (u : MetadataUpdate) (metadata : Members) : Members :=
  Dict.update metadata u.setJson

/-- `update_agent_extension` up to the call of the control plane. -/
def updateAgentExtension (record : Option TicketRecord) (patch request : Json) :
    Except TicketError MetadataUpdate := do
  match patch with
  | .obj patch =>
    match request with
    | .str request =>
      require (isRequestId request) .requestId
      let record ← orRaise record .notFound
      let mergedAgent := Dict.update (agentExtension record.metadata) patch
      let mergedExtensions :=
        Dict.set (extensionsOf record.metadata) "icode_agent" (.obj mergedAgent)
      pure ⟨record.outDir, request, [("extensions", .obj mergedExtensions)]⟩
    | _ => .error .requestId
  | _ => .error .patchNotObject

theorem exists_of_updateAgentExtension {record : Option TicketRecord} {patch request : Json}
    {u : MetadataUpdate} (h : updateAgentExtension record patch request = .ok u) :
    ∃ ms text r, record = some r ∧ u = ⟨r.outDir, text, [("extensions",
      .obj (Dict.set (extensionsOf r.metadata) "icode_agent"
        (.obj (Dict.update (agentExtension r.metadata) ms))))]⟩ := by
  unfold updateAgentExtension at h
  split at h
  · rename_i ms
    split at h
    · rename_i text
      simp only [bind_eq_ok, require_eq_ok, orRaise_eq_ok] at h
      obtain ⟨_, -, r, hr, h⟩ := h
      exact ⟨ms, text, r, hr, (Except.ok.inj h).symm⟩
    · cases h
  · cases h

/-- A write of another key under `extensions`, made from the metadata that has been read. -/
def updateExtension (record : Option TicketRecord) (key : PyStr) (value : Members → Json)
    (request : PyStr) : Except TicketError MetadataUpdate := do
  let record ← orRaise record .notFound
  pure ⟨record.outDir, request,
    [("extensions", .obj (Dict.set (extensionsOf record.metadata) key (value record.metadata)))]⟩

/-! ## Two writers -/

/-- The two writers of `extensions`. -/
inductive Writer where
  | agent
  | other
  deriving DecidableEq

def Writer.peer : Writer → Writer
  | .agent => .other
  | .other => .agent

/-- Where a call stands. -/
inductive ExtensionCall where
  | waiting
  /-- It has read `metadata` and is about to ask for `update`. -/
  | merged (metadata : Members) (update : MetadataUpdate)
  /-- The control plane has done the update, and has answered so, or with an error. -/
  | written (update : MetadataUpdate) (confirmed : Bool)
  | failed (e : TicketError)

/-- The metadata of a ticket in `outDir`, and the calls of the two writers. -/
structure ExtensionWrites where
  outDir : PyStr
  metadata : Members
  calls : Writer → ExtensionCall

/-- What the two calls are asked to do. -/
structure ExtensionArgs where
  patch : Json
  request : Json
  key : PyStr
  value : Members → Json
  otherRequest : PyStr

inductive ExtensionAction where
  /-- The writer reads the metadata and merges. -/
  | read (w : Writer) (readable : Bool)
  /-- The control plane gets its update. -/
  | write (w : Writer) (answer : StoreAnswer)
  /-- Any update of other top-level fields. -/
  | unrelated (fields : Members)

/-- The key under `extensions` that the writer sets. -/
def Writer.key (args : ExtensionArgs) : Writer → PyStr
  | .agent => "icode_agent"
  | .other => args.key

namespace ExtensionWrites

/-- No call has begun. -/
def initial (outDir : PyStr) (metadata : Members) : ExtensionWrites :=
  ⟨outDir, metadata, fun _ => .waiting⟩

/-- The update that a writer makes of a record. -/
def merge (args : ExtensionArgs) (record : Option TicketRecord) :
    Writer → Except TicketError MetadataUpdate
  | .agent => updateAgentExtension record args.patch args.request
  | .other => updateExtension record args.key args.value args.otherRequest

def setCall (s : ExtensionWrites) (w : Writer) (call : ExtensionCall) : ExtensionWrites :=
  { s with calls := Function.update s.calls w call }

/-- One action; an action that cannot be taken now has no successor. -/
def step (args : ExtensionArgs) (s : ExtensionWrites) : ExtensionAction → Option ExtensionWrites
  | .read w readable =>
    match s.calls w with
    | .waiting =>
      match merge args (if readable then some ⟨s.outDir, s.metadata⟩ else none) w with
      | .ok update => some (s.setCall w (.merged s.metadata update))
      | .error e => some (s.setCall w (.failed e))
    | _ => none
  | .write w answer =>
    match s.calls w with
    | .merged _ update =>
      match answer with
      | .accepted =>
        some ({ s with metadata := update.apply s.metadata }.setCall w (.written update true))
      | .unconfirmed =>
        some ({ s with metadata := update.apply s.metadata }.setCall w (.written update false))
      | .refused => some (s.setCall w (.failed .refused))
      | .unreadable => some (s.setCall w (.failed .refused))
    | _ => none
  | .unrelated fields =>
    if Dict.has fields "extensions" then none
    else some { s with metadata := Dict.update s.metadata fields }

/-- The call has returned. -/
def Complete (s : ExtensionWrites) (w : Writer) : Prop :=
  ∃ update, s.calls w = .written update true

/-- The metadata holds the value of every write that has been done. -/
def HoldsBoth (args : ExtensionArgs) (s : ExtensionWrites) : Prop :=
  ∀ w update confirmed, s.calls w = .written update confirmed →
    (extensionsOf s.metadata).get? (w.key args) =
      (extensionsOf update.setJson).get? (w.key args)

/-- A write replaces the `extensions` that its writer has read. -/
def Current (s : ExtensionWrites) (a : ExtensionAction) : Prop :=
  ∀ w answer metadata update, a = .write w answer → s.calls w = .merged metadata update →
    answer = .accepted ∨ answer = .unconfirmed → extensionsOf s.metadata = extensionsOf metadata

variable {args : ExtensionArgs} {s s' : ExtensionWrites} {a : ExtensionAction} {w : Writer}

@[simp] theorem setCall_metadata (s : ExtensionWrites) (w : Writer) (call : ExtensionCall) :
    (s.setCall w call).metadata = s.metadata := rfl

@[simp] theorem setCall_calls_self (s : ExtensionWrites) (w : Writer) (call : ExtensionCall) :
    (s.setCall w call).calls w = call :=
  Function.update_self ..

/-- The call of a writer after a call has moved: that one, or the call as it was. -/
theorem calls_setCall {v : Writer} {call x : ExtensionCall} (h : (s.setCall w call).calls v = x) :
    v = w ∧ call = x ∨ v ≠ w ∧ s.calls v = x := by
  by_cases hvw : v = w
  · subst hvw
    exact Or.inl ⟨rfl, (setCall_calls_self ..).symm.trans h⟩
  · exact Or.inr ⟨hvw, (Function.update_of_ne hvw ..).symm.trans h⟩

theorem eq_peer_of_ne {v : Writer} (h : v ≠ w) : v = w.peer := by
  cases v <;> cases w <;> simp_all [Writer.peer]

theorem peer_eq_of_ne {v : Writer} (h : v ≠ w) : v.peer = w := by
  cases v <;> cases w <;> simp_all [Writer.peer]

theorem peer_ne (w : Writer) : w.peer ≠ w := by
  cases w <;> simp [Writer.peer]

theorem key_peer_ne (hkey : args.key ≠ "icode_agent") (w : Writer) :
    w.peer.key args ≠ w.key args := by
  cases w with
  | agent => exact hkey
  | other => exact hkey.symm

/-- The update sets the key of its writer in the `extensions` that have been read. -/
def Sets (args : ExtensionArgs) (w : Writer) (metadata : Members) (u : MetadataUpdate) : Prop :=
  ∃ v, u.setJson =
    [(lit "extensions", Json.obj (Dict.set (extensionsOf metadata) (w.key args) v))]

theorem sets_of_merge {outDir : PyStr} {metadata : Members} {readable : Bool} {u : MetadataUpdate}
    (h : merge args (if readable then some ⟨outDir, metadata⟩ else none) w = .ok u) :
    Sets args w metadata u := by
  have hrecord : ∀ record, (if readable then some (⟨outDir, metadata⟩ : TicketRecord) else none) =
      some record → record.metadata = metadata := by
    intro record hr
    split_ifs at hr
    rw [← Option.some.inj hr]
  cases w with
  | agent =>
    obtain ⟨ms, text, record, hr, rfl⟩ := exists_of_updateAgentExtension h
    rw [hrecord record hr]
    exact ⟨_, rfl⟩
  | other =>
    simp only [merge, updateExtension, bind_eq_ok, orRaise_eq_ok] at h
    obtain ⟨record, hr, h⟩ := h
    obtain rfl := Except.ok.inj h
    rw [hrecord record hr]
    exact ⟨_, rfl⟩

theorem extensionsOf_set (metadata ms : Members) :
    extensionsOf (Dict.set metadata "extensions" (.obj ms)) = ms := by
  simp [extensionsOf]

theorem Sets.extensionsOf_apply {metadata : Members} {u : MetadataUpdate}
    (h : Sets args w metadata u) (now : Members) :
    extensionsOf (u.apply now) = extensionsOf u.setJson := by
  obtain ⟨v, hv⟩ := h
  rw [MetadataUpdate.apply, hv]
  exact extensionsOf_set now _

theorem Sets.extensionsOf_setJson {metadata : Members} {u : MetadataUpdate}
    (h : Sets args w metadata u) :
    ∃ v, extensionsOf u.setJson = Dict.set (extensionsOf metadata) (w.key args) v := by
  obtain ⟨v, hv⟩ := h
  exact ⟨v, by rw [hv]; exact extensionsOf_set [] _⟩

/-- Updates of other fields leave `extensions` as they are. -/
theorem extensionsOf_update {fields : Members} (h : Dict.has fields "extensions" = false)
    (metadata : Members) : extensionsOf (Dict.update metadata fields) = extensionsOf metadata := by
  have hkey : lit "extensions" ∉ Dict.keys fields := by
    rw [← Dict.has_iff_mem, Bool.not_eq_true]
    exact h
  unfold extensionsOf Members.get
  rw [Dict.get?_update _ fields metadata hkey]

/-! ## What an action does -/

/-- An action reads, writes, fails or does something else; no other call moves. -/
inductive Move (args : ExtensionArgs) (s s' : ExtensionWrites) : ExtensionAction → Prop
  | read (w : Writer) (readable : Bool) (u : MetadataUpdate) (hw : s.calls w = .waiting)
      (hu : Sets args w s.metadata u) (heq : s' = s.setCall w (.merged s.metadata u)) :
      Move args s s' (.read w readable)
  | fail (a : ExtensionAction) (w : Writer) (e : TicketError)
      (hw : ∀ u c, s.calls w ≠ .written u c) (heq : s' = s.setCall w (.failed e))
      (ha : ∀ v answer, a = .write v answer → answer ≠ .accepted ∧ answer ≠ .unconfirmed) :
      Move args s s' a
  | write (w : Writer) (answer : StoreAnswer) (metadata : Members) (u : MetadataUpdate)
      (confirmed : Bool) (hw : s.calls w = .merged metadata u)
      (heq : s' = { s with metadata := u.apply s.metadata }.setCall w (.written u confirmed))
      (hdone : answer = .accepted ∨ answer = .unconfirmed) : Move args s s' (.write w answer)
  | unrelated (fields : Members) (hcalls : s'.calls = s.calls)
      (hext : extensionsOf s'.metadata = extensionsOf s.metadata) : Move args s s' (.unrelated fields)

theorem move_of_step (hs : step args s a = some s') : Move args s s' a := by
  cases a with
  | read w readable =>
    simp only [step] at hs
    split at hs
    · rename_i hw
      split at hs
      · rename_i u hu
        exact .read w readable u hw (sets_of_merge hu) (Option.some.inj hs).symm
      · exact .fail _ w _ (by simp [hw]) (Option.some.inj hs).symm (by simp)
    · cases hs
  | write w answer =>
    simp only [step] at hs
    split at hs
    · rename_i metadata u hw
      cases answer with
      | accepted => exact .write w _ metadata u true hw (Option.some.inj hs).symm (Or.inl rfl)
      | unconfirmed => exact .write w _ metadata u false hw (Option.some.inj hs).symm (Or.inr rfl)
      | refused => exact .fail _ w _ (by simp [hw]) (Option.some.inj hs).symm (by simp)
      | unreadable => exact .fail _ w _ (by simp [hw]) (Option.some.inj hs).symm (by simp)
    · cases hs
  | unrelated fields =>
    simp only [step] at hs
    split_ifs at hs with hf
    obtain rfl := Option.some.inj hs
    exact .unrelated fields rfl (extensionsOf_update (by simpa using hf) _)

/-! ## Lost updates -/

/-- Both writes have been done. -/
def Settled (s : ExtensionWrites) : Prop :=
  ∀ w, ∃ u confirmed, s.calls w = .written u confirmed

/-- What every action keeps: an update is made of what its writer has read, and nothing is lost
before both writes have been done. -/
structure Sane (args : ExtensionArgs) (s : ExtensionWrites) : Prop where
  sets : ∀ w metadata u, s.calls w = .merged metadata u → Sets args w metadata u
  holds : s.HoldsBoth args ∨ s.Settled

theorem sane_initial (args : ExtensionArgs) (outDir : PyStr) (metadata : Members) :
    Sane args (initial outDir metadata) :=
  ⟨fun _ _ _ h => (by cases h), Or.inl fun _ _ _ h => (by cases h)⟩

/-- A call that moves on without a write: the writes that have been done are the same. -/
theorem HoldsBoth.setCall (h : s.HoldsBoth args) {call : ExtensionCall}
    (hcall : ∀ u c, call ≠ .written u c) : (s.setCall w call).HoldsBoth args := by
  intro v u c hv
  rcases calls_setCall hv with ⟨-, hv⟩ | ⟨-, hv⟩
  · exact absurd hv (hcall u c)
  · exact h v u c hv

/-- A write keeps the value of the other writer when the object that is written has it. -/
theorem Sets.holds_written {metadata : Members} {u : MetadataUpdate} {confirmed : Bool}
    (hu : Sets args w metadata u)
    (hpeer : ∀ u' c, s.calls w.peer = .written u' c →
      (extensionsOf u.setJson).get? (w.peer.key args) =
        (extensionsOf u'.setJson).get? (w.peer.key args)) :
    HoldsBoth args
      ({ s with metadata := u.apply s.metadata }.setCall w (.written u confirmed)) := by
  intro v u' c hv
  rw [setCall_metadata, hu.extensionsOf_apply]
  rcases calls_setCall hv with ⟨rfl, hcall⟩ | ⟨hvw, hcall⟩
  · obtain ⟨rfl, -⟩ := ExtensionCall.written.inj hcall
    rfl
  · obtain rfl := eq_peer_of_ne hvw
    exact hpeer u' c hcall

theorem Sane.step (h : Sane args s) (hs : step args s a = some s') : Sane args s' := by
  cases move_of_step hs with
  | read w readable u hw hu heq =>
    subst heq
    constructor
    · intro v metadata u' hv
      rcases calls_setCall hv with ⟨rfl, hcall⟩ | ⟨-, hcall⟩
      · obtain ⟨rfl, rfl⟩ := ExtensionCall.merged.inj hcall
        exact hu
      · exact h.sets v metadata u' hcall
    · refine Or.inl (HoldsBoth.setCall (h.holds.resolve_right fun hset => ?_) (by simp))
      obtain ⟨u', c, hu'⟩ := hset w
      rw [hw] at hu'
      cases hu'
  | fail _ w e hw heq =>
    subst heq
    constructor
    · intro v metadata u' hv
      rcases calls_setCall hv with ⟨-, hv⟩ | ⟨-, hv⟩
      · cases hv
      · exact h.sets v metadata u' hv
    · refine Or.inl (HoldsBoth.setCall (h.holds.resolve_right fun hset => ?_) (by simp))
      obtain ⟨u', c, hu'⟩ := hset w
      exact hw u' c hu'
  | write w answer metadata u confirmed hw heq =>
    subst heq
    constructor
    · intro v metadata' u' hv
      rcases calls_setCall hv with ⟨-, hv⟩ | ⟨-, hv⟩
      · cases hv
      · exact h.sets v metadata' u' hv
    · by_cases hpeer : ∃ u' c, s.calls w.peer = .written u' c
      · obtain ⟨u', c, hu'⟩ := hpeer
        refine Or.inr fun v => ?_
        by_cases hvw : v = w
        · subst hvw
          exact ⟨u, confirmed, setCall_calls_self ..⟩
        · obtain rfl := eq_peer_of_ne hvw
          exact ⟨u', c, (Function.update_of_ne hvw ..).trans hu'⟩
      · exact Or.inl
          ((h.sets w metadata u hw).holds_written fun u' c hu' => absurd ⟨u', c, hu'⟩ hpeer)
  | unrelated fields hcalls hext =>
    refine ⟨fun v metadata u hv => h.sets v metadata u (hcalls ▸ hv), ?_⟩
    refine h.holds.imp (fun hh v u c hv => ?_) fun hset v => hcalls ▸ hset v
    rw [hext]
    exact hh v u c (hcalls ▸ hv)

/-- What is lost stays lost. -/
theorem Sane.holds_of_step (h : Sane args s) (hs : ExtensionWrites.step args s a = some s')
    (hh : s'.HoldsBoth args) : s.HoldsBoth args := by
  rcases h.holds with hold | hset
  · exact hold
  cases move_of_step hs with
  | read w readable u hw =>
    obtain ⟨u', c, hu'⟩ := hset w
    rw [hw] at hu'
    cases hu'
  | fail _ w e hw =>
    obtain ⟨u', c, hu'⟩ := hset w
    exact absurd hu' (hw u' c)
  | write w answer metadata u confirmed hw =>
    obtain ⟨u', c, hu'⟩ := hset w
    rw [hw] at hu'
    cases hu'
  | unrelated fields hcalls hext =>
    intro v u c hv
    rw [← hext]
    exact hh v u c (hcalls ▸ hv)

/-- A run that ends without a loss has had none. -/
theorem Sane.always_of_run : ∀ {acts : List ExtensionAction} {s t : ExtensionWrites},
    Sane args s → run (ExtensionWrites.step args) s acts = some t → t.HoldsBoth args →
      s.HoldsBoth args ∧ Always (ExtensionWrites.step args) (HoldsBoth args) s acts
  | [], s, t, _, ht, hh => by
    obtain rfl := Option.some.inj ht
    exact ⟨hh, hh⟩
  | a :: acts, s, t, h, ht, hh => by
    obtain ⟨s', hs', ht⟩ := run_cons.mp ht
    obtain ⟨hnow, hlater⟩ := (h.step hs').always_of_run ht hh
    have hold := h.holds_of_step hs' hnow
    refine ⟨hold, hold, fun u hu => ?_⟩
    obtain rfl := Option.some.inj (hs'.symm.trans hu)
    exact hlater

/-! ## Writes that replace what has been read -/

/-- While no write has replaced anything but what its writer had read: nothing is lost, and the
`extensions` are those that a writer has read, but for the key of the other writer. -/
structure Ordered (args : ExtensionArgs) (s : ExtensionWrites) : Prop where
  sane : Sane args s
  holds : s.HoldsBoth args
  read : ∀ w metadata u, s.calls w = .merged metadata u →
    extensionsOf s.metadata = extensionsOf metadata ∨ ∃ u' c v, s.calls w.peer = .written u' c ∧
      extensionsOf s.metadata = Dict.set (extensionsOf metadata) (w.peer.key args) v

theorem ordered_initial (args : ExtensionArgs) (outDir : PyStr) (metadata : Members) :
    Ordered args (initial outDir metadata) :=
  ⟨sane_initial .., fun _ _ _ h => (by cases h), fun _ _ _ h => (by cases h)⟩

/-- The value of the other writer in the object that a writer is about to write. -/
theorem Sets.get?_peer (hkey : args.key ≠ "icode_agent") {metadata : Members} {u : MetadataUpdate}
    (hu : Sets args w metadata u) : (extensionsOf u.setJson).get? (w.peer.key args) =
      (extensionsOf metadata).get? (w.peer.key args) := by
  obtain ⟨v, hv⟩ := hu.extensionsOf_setJson
  rw [hv, Dict.get?_set, if_neg (key_peer_ne hkey w)]

theorem Ordered.step (hkey : args.key ≠ "icode_agent") (h : Ordered args s) (hc : s.Current a)
    (hs : step args s a = some s') : Ordered args s' := by
  have hsane := h.sane.step hs
  cases move_of_step hs with
  | read w readable u hw hu heq =>
    subst heq
    refine ⟨hsane, h.holds.setCall (by simp), fun v metadata u' hv => ?_⟩
    rcases calls_setCall hv with ⟨rfl, hcall⟩ | ⟨hvw, hcall⟩
    · exact Or.inl (congrArg extensionsOf (ExtensionCall.merged.inj hcall).1)
    · refine Or.inl ((h.read v metadata u' hcall).resolve_right ?_)
      rintro ⟨u'', c, x, hp, -⟩
      rw [peer_eq_of_ne hvw, hw] at hp
      cases hp
  | fail _ w e hw heq =>
    subst heq
    refine ⟨hsane, h.holds.setCall (by simp), fun v metadata u' hv => ?_⟩
    rcases calls_setCall hv with ⟨-, hcall⟩ | ⟨hvw, hcall⟩
    · cases hcall
    · refine Or.inl ((h.read v metadata u' hcall).resolve_right ?_)
      rintro ⟨u'', c, x, hp, -⟩
      rw [peer_eq_of_ne hvw] at hp
      exact hw u'' c hp
  | write w answer metadata u confirmed hw heq hdone =>
    subst heq
    have hu := h.sane.sets w metadata u hw
    have hcur := hc w answer metadata u rfl hw hdone
    refine ⟨hsane, hu.holds_written fun u' c hp => ?_, fun v metadata' u' hv => ?_⟩
    · rw [hu.get?_peer hkey, ← hcur]
      exact h.holds w.peer u' c hp
    · rcases calls_setCall hv with ⟨-, hcall⟩ | ⟨hvw, hcall⟩
      · cases hcall
      -- the other writer has read what this write replaces
      have hread := (h.read v metadata' u' hcall).resolve_right <| by
        rintro ⟨u'', c, x, hp, -⟩
        rw [peer_eq_of_ne hvw, hw] at hp
        cases hp
      obtain ⟨x, hx⟩ := hu.extensionsOf_setJson
      refine Or.inr ⟨u, confirmed, x, ?_, ?_⟩
      · rw [peer_eq_of_ne hvw]
        exact setCall_calls_self ..
      · rw [setCall_metadata, hu.extensionsOf_apply, hx, peer_eq_of_ne hvw, ← hcur, hread]
  | unrelated fields hcalls hext =>
    refine ⟨hsane, fun v u c hv => ?_, fun v metadata u hv => ?_⟩
    · rw [hext]
      exact h.holds v u c (hcalls ▸ hv)
    · rw [hext, hcalls]
      exact h.read v metadata u (hcalls ▸ hv)

/-- A write that replaces something else loses a value. -/
theorem Ordered.current (hkey : args.key ≠ "icode_agent") (h : Ordered args s)
    (hs : ExtensionWrites.step args s a = some s') (hh : s'.HoldsBoth args) : s.Current a := by
  intro w answer metadata u ha hw hanswer
  cases move_of_step hs with
  | read w' readable u' => cases ha
  | fail _ w' e _ _ hno => exact absurd hanswer (not_or.mpr (hno w answer ha))
  | unrelated fields => cases ha
  | write w' answer' metadata' u' confirmed hw' heq =>
    obtain ⟨rfl, rfl⟩ := ExtensionAction.write.inj ha
    obtain ⟨rfl, rfl⟩ := ExtensionCall.merged.inj (hw'.symm.trans hw)
    subst heq
    have hu := h.sane.sets w' metadata' u' hw'
    rcases h.read w' metadata' u' hw' with hread | ⟨u'', c, v, hp, hset⟩
    · exact hread
    have hnow : (extensionsOf s.metadata).get? (w'.peer.key args) = some v := by
      rw [hset, Dict.get?_set, if_pos rfl]
    have hafter := hh w'.peer u'' c ((Function.update_of_ne (peer_ne w') ..).trans hp)
    rw [setCall_metadata, hu.extensionsOf_apply, hu.get?_peer hkey, ← h.holds w'.peer u'' c hp,
      hnow] at hafter
    rw [hset, Dict.set_eq_self hafter]

theorem holds_iff_along (hkey : args.key ≠ "icode_agent") {outDir : PyStr} {metadata : Members}
    {acts : List ExtensionAction}
    (hrun : run (ExtensionWrites.step args) (initial outDir metadata) acts = some s) :
    s.HoldsBoth args ↔ Along (ExtensionWrites.step args) Current (initial outDir metadata) acts := by
  have hiff : Always (ExtensionWrites.step args) (HoldsBoth args) (initial outDir metadata) acts ↔
      Along (ExtensionWrites.step args) Current (initial outDir metadata) acts :=
    always_iff_along (fun _ h => h.holds) (fun _ _ _ h hc hs => h.step hkey hc hs)
      (fun _ _ _ h hs hh => h.current hkey hs hh) (ordered_initial args outDir metadata)
  rw [← hiff]
  exact ⟨fun hh => ((sane_initial args outDir metadata).always_of_run hrun hh).2,
    fun hall => hall.of_run hrun⟩

/-- After `update_agent_extension` and a write of another key have both returned, the metadata holds
both values exactly when each of the two writes has replaced the `extensions` that its writer had
read. -/
theorem holdsBoth_iff_along (args : ExtensionArgs) (hkey : args.key ≠ "icode_agent")
    (outDir : PyStr) (metadata : Members) (acts : List ExtensionAction) (s : ExtensionWrites)
    (hrun : run (ExtensionWrites.step args) (initial outDir metadata) acts = some s)
    (u u' : MetadataUpdate) (hagent : s.calls .agent = .written u true)
    (hother : s.calls .other = .written u' true) :
    ((extensionsOf s.metadata).get? "icode_agent" = (extensionsOf u.setJson).get? "icode_agent" ∧
      (extensionsOf s.metadata).get? args.key = (extensionsOf u'.setJson).get? args.key) ↔
    Along (ExtensionWrites.step args) Current (initial outDir metadata) acts := by
  rw [← holds_iff_along hkey hrun]
  constructor
  · rintro ⟨ha, ho⟩ w update confirmed hw
    cases w with
    | agent =>
      obtain ⟨rfl, -⟩ := ExtensionCall.written.inj (hagent.symm.trans hw)
      exact ha
    | other =>
      obtain ⟨rfl, -⟩ := ExtensionCall.written.inj (hother.symm.trans hw)
      exact ho
  · exact fun hh => ⟨hh .agent u true hagent, hh .other u' true hother⟩

/-! ## The agent and another system -/

/-- The agent records a run; another system sets a value of its own. -/
def siblingArgs : ExtensionArgs :=
  ⟨.obj [("autonomous_run", .obj [("state", .str "pending")])], .str "agent-runtime-1",
    "other_system", fun _ => .obj [("keep", .bool true)], "seed-sibling-extension"⟩

/-- One after the other. -/
def oneAfterTheOther : List ExtensionAction :=
  [.read .other true, .write .other .accepted, .read .agent true, .write .agent .accepted]

/-- The other system writes between the read and the write of the agent. -/
def writeBetween : List ExtensionAction :=
  [.read .agent true, .read .other true, .write .other .accepted, .write .agent .accepted]

theorem holdsBoth_iff_along_oneAfterTheOther : ∃ s u u',
    run (ExtensionWrites.step siblingArgs) (initial "out" []) oneAfterTheOther = some s ∧
    s.calls .agent = .written u true ∧ s.calls .other = .written u' true ∧
    (((extensionsOf s.metadata).get? "icode_agent" = (extensionsOf u.setJson).get? "icode_agent" ∧
      (extensionsOf s.metadata).get? "other_system" =
        (extensionsOf u'.setJson).get? "other_system") ↔
      Along (ExtensionWrites.step siblingArgs) Current (initial "out" []) oneAfterTheOther) :=
  ⟨_, _, _, rfl, rfl, rfl, holdsBoth_iff_along siblingArgs (by decide) "out" [] oneAfterTheOther _
    rfl _ _ rfl rfl⟩

/-- The value of the other system is lost. -/
theorem writeBetween_loses : ∃ s u u',
    run (ExtensionWrites.step siblingArgs) (initial "out" []) writeBetween = some s ∧
    s.calls .agent = .written u true ∧ s.calls .other = .written u' true ∧
    ¬((extensionsOf s.metadata).get? "icode_agent" = (extensionsOf u.setJson).get? "icode_agent" ∧
      (extensionsOf s.metadata).get? "other_system" =
        (extensionsOf u'.setJson).get? "other_system") := by
  refine ⟨_, _, _, rfl, rfl, rfl, fun h => ?_⟩
  have hlost : (none : Option Json) = some (.obj [("keep", .bool true)]) := h.2
  cases hlost

end ExtensionWrites

end Icode
