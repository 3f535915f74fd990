import Icode.StartupPin

/-!
# The owner of pinned handles

What the log of an owner says (`Owns`): its handles are the ones registered from the answers, none
is closed while the owner is open, and all of them once and in reverse order when it is closed,
behind every other call, with the failed closes in `unconfirmed` and `closeErrors`.

A step of `acquire` goes on without an exception, or ends with the first one (`Going`). So pinning
gives an owner whose file has the size of its metadata and whose chain has been looked at again
(`Pinned`), or raises what came first from a closed owner (`Refused`). Every call after it keeps the
log in order (`startup_pin_owns_handles`).
-/

namespace Icode.StartupPin

open Py Eff

variable {σ E α β : Type}

/-! ## Logs -/

/-- The number of a handle that may be registered. -/
def Value.handle? : Value → Option ℤ
  | .int n => if 0 < n ∧ n < 2 ^ 64 - 1 then some n else none
  | _ => none

namespace Event

def raised : Event E → Option E
  | openRoot _ (.error e) => some e
  | openChild _ _ _ (.error e) => some e
  | query _ (.error e) => some e
  | read _ _ _ (.error e) => some e
  | close _ (.error e) => some e
  | _ => none

/-- A call that opens a handle or asks one. -/
def isUse : Event E → Bool
  | close _ _ => false
  | note _ _ => false
  | _ => true

def opened? : Event E → Option ℤ
  | openRoot _ (.ok value) => value.handle?
  | openChild _ _ _ (.ok value) => value.handle?
  | _ => none

def closed? : Event E → Option ℤ
  | close handle _ => some handle
  | _ => none

def failed? : Event E → Option (ℤ × Raised E)
  | close handle (.error e) => some (handle, .outside e)
  | _ => none

def chunk : Event E → Bytes
  | read _ _ _ (.ok (.bytes b)) => b
  | _ => []

end Event

/-- A handle behind the registered ones, unless it is one of them. -/
def addHandle (handles : List ℤ) (handle : ℤ) : List ℤ :=
  if handle ∈ handles then handles else handles ++ [handle]

/-- The handles that a log registers. -/
def registered (log : List (Event E)) : List ℤ :=
  (log.filterMap Event.opened?).foldl addHandle []

def closedHandles (log : List (Event E)) : List ℤ :=
  log.filterMap Event.closed?

/-- The closes that raised. -/
def failures (log : List (Event E)) : List (ℤ × Raised E) :=
  log.filterMap Event.failed?

/-- No call raised. -/
def Calm (log : List (Event E)) : Prop :=
  ∀ event ∈ log, event.raised = none

/-- Where an exception comes from: the last call raised it, or no call raised and a check did. -/
def Origin (log : List (Event E)) (exc : Raised E) : Prop :=
  (∃ earlier event e, log = earlier ++ [event] ∧ Calm earlier ∧ event.raised = some e ∧
    exc = .outside e) ∨
  (Calm log ∧ ∃ message, exc = .pinError message)

theorem nodup_foldl_addHandle (opened : List ℤ) : ∀ {handles : List ℤ}, handles.Nodup →
    (opened.foldl addHandle handles).Nodup := by
  induction opened with
  | nil => exact fun h => h
  | cons handle opened ih =>
    intro handles h
    refine ih ?_
    rw [addHandle]
    split_ifs with hmem
    · exact h
    · rw [← List.concat_eq_append]
      exact h.concat hmem

theorem nodup_registered (log : List (Event E)) : (registered log).Nodup :=
  nodup_foldl_addHandle _ List.nodup_nil

theorem registered_snoc (log : List (Event E)) (event : Event E) : registered (log ++ [event]) =
    event.opened?.elim (registered log) (addHandle (registered log)) := by
  rw [registered, List.filterMap_append, List.foldl_append]
  cases h : event.opened? <;> simp [h, registered]

theorem calm_append {log more : List (Event E)} : Calm (log ++ more) ↔ Calm log ∧ Calm more := by
  simp only [Calm, List.forall_mem_append]

theorem calm_singleton {event : Event E} : Calm [event] ↔ event.raised = none := by
  simp only [Calm, List.forall_mem_singleton]

/-! ## Steps -/

/-- Nothing is closed yet. -/
structure Open (w : World σ E) : Prop where
  closed : w.owner.closed = false
  unconfirmed : w.owner.unconfirmed = []
  closeErrors : w.owner.closeErrors = []
  uses : ∀ event ∈ w.log, event.isUse = true
  handles : w.owner.handles = registered w.log

/-- The step goes on without an exception, or an open owner is left with the first one. -/
def Going (good : α → World σ E → Prop) : Except (Raised E) α → World σ E → Prop
  | .ok a, w => Open w ∧ Calm w.log ∧ good a w
  | .error exc, w => Open w ∧ Origin w.log exc

theorem Ends.call {f : σ → Except E α × σ} {event : Except E α → Event E} {w : World σ E}
    {post : Except (Raised E) α → World σ E → Prop}
    (hok : ∀ a s, post (.ok a) { w with backend := s, log := w.log ++ [event (.ok a)] })
    (herr : ∀ e s,
      post (.error (.outside e)) { w with backend := s, log := w.log ++ [event (.error e)] }) :
    Ends (call f event) w post := by
  show post (StartupPin.call f event w).1 (StartupPin.call f event w).2
  unfold StartupPin.call
  rcases f w.backend with ⟨_ | _, _⟩
  · exact herr _ _
  · exact hok _ _

variable {w : World σ E}

/-- Steps follow one another. -/
theorem Going.bind {x : Run σ E β} {f : β → Run σ E α} {mid : β → World σ E → Prop}
    {good : α → World σ E → Prop} (hx : Ends x w (Going mid))
    (hf : ∀ a w', Open w' → Calm w'.log → mid a w' → Ends (f a) w' (Going good)) :
    Ends (x >>= f) w (Going good) := by
  rw [ends_bind]
  refine Ends.mono hx fun r w' h => ?_
  cases r with
  | ok a => exact hf a w' h.1 h.2.1 h.2.2
  | error exc => exact h

theorem Going.mono {x : Run σ E α} {good good' : α → World σ E → Prop}
    (h : Ends x w (Going good)) (himp : ∀ a w', good a w' → good' a w') :
    Ends x w (Going good') := by
  refine Ends.mono h fun r w' hr => ?_
  cases r with
  | ok a => exact ⟨hr.1, hr.2.1, himp a w' hr.2.2⟩
  | error exc => exact hr

theorem going_pinError {good : α → World σ E → Prop} {message : String} (hopen : Open w)
    (hcalm : Calm w.log) : Ends (pinError message : Run σ E α) w (Going good) :=
  ⟨hopen, .inr ⟨hcalm, message, rfl⟩⟩

/-- A call that opens nothing. -/
theorem going_call {f : σ → Except E α × σ} {event : Except E α → Event E} (hopen : Open w)
    (hcalm : Calm w.log) (huse : ∀ answer, (event answer).isUse = true)
    (hopened : ∀ answer, (event answer).opened? = none)
    (hok : ∀ a, (event (.ok a)).raised = none) (herr : ∀ e, (event (.error e)).raised = some e) :
    Ends (call f event) w
      (Going fun a w' => w'.owner = w.owner ∧ w'.log = w.log ++ [event (.ok a)]) := by
  have hnext : ∀ (answer : Except E α) (s : σ),
      Open { w with backend := s, log := w.log ++ [event answer] } := by
    intro answer s
    refine ⟨hopen.closed, hopen.unconfirmed, hopen.closeErrors, ?_, ?_⟩
    · exact List.forall_mem_append.mpr ⟨hopen.uses, List.forall_mem_singleton.mpr (huse answer)⟩
    · rw [registered_snoc, hopened, Option.elim_none]
      exact hopen.handles
  refine Ends.call (fun a s => ⟨hnext _ s, ?_, rfl, rfl⟩) (fun e s => ⟨hnext _ s, .inl ?_⟩)
  · exact calm_append.mpr ⟨hcalm, calm_singleton.mpr (hok a)⟩
  · exact ⟨w.log, _, e, rfl, hcalm, herr e, rfl⟩

/-- An opening call and the registration of its answer. -/
theorem going_register {f : σ → Except E Value × σ} {event : Except E Value → Event E}
    (hopen : Open w) (hcalm : Calm w.log) (huse : ∀ answer, (event answer).isUse = true)
    (hopened : ∀ value, (event (.ok value)).opened? = value.handle?)
    (hfailed : ∀ e, (event (.error e)).opened? = none)
    (hok : ∀ value, (event (.ok value)).raised = none)
    (herr : ∀ e, (event (.error e)).raised = some e) :
    Ends (call f event >>= register) w (Going fun handle w' =>
      w'.owner = { w.owner with handles := w.owner.handles ++ [handle] } ∧
        ∃ value, w'.log = w.log ++ [event (.ok value)]) := by
  have huses : ∀ answer, ∀ e ∈ w.log ++ [event answer], e.isUse = true := fun answer =>
    List.forall_mem_append.mpr ⟨hopen.uses, List.forall_mem_singleton.mpr (huse answer)⟩
  rw [ends_bind]
  refine Ends.call (fun value s => ?_) (fun e s => ?_)
  · have hcalm' : Calm (w.log ++ [event (.ok value)]) :=
      calm_append.mpr ⟨hcalm, calm_singleton.mpr (hok value)⟩
    have hregistered : registered (w.log ++ [event (.ok value)]) =
        value.handle?.elim w.owner.handles (addHandle w.owner.handles) := by
      rw [registered_snoc, hopened, hopen.handles]
    -- A refused answer registers nothing.
    have hrefused : ∀ message,
        registered (w.log ++ [event (.ok value)]) = w.owner.handles →
        Ends (pinError message : Run σ E ℤ)
          { w with backend := s, log := w.log ++ [event (.ok value)] }
          (Going fun handle w' =>
            w'.owner = { w.owner with handles := w.owner.handles ++ [handle] } ∧
              ∃ value, w'.log = w.log ++ [event (.ok value)]) := fun message hsame =>
      going_pinError ⟨hopen.closed, hopen.unconfirmed, hopen.closeErrors, huses _, hsame.symm⟩
        hcalm'
    cases value with
    | int handle =>
      by_cases hvalid : 0 < handle ∧ handle < 2 ^ 64 - 1
      · have hhandle : (Value.int handle).handle? = some handle := if_pos hvalid
        rw [hhandle, Option.elim_some, addHandle] at hregistered
        by_cases hmem : handle ∈ w.owner.handles
        · rw [if_pos hmem] at hregistered
          simp only [register, not_not.mpr hvalid, if_false, ends_bind, ends_get, if_pos hmem]
          exact hrefused _ hregistered
        · rw [if_neg hmem] at hregistered
          simp only [register, not_not.mpr hvalid, if_false, ends_bind, ends_get, if_neg hmem,
            setOwner, ends_modify, ends_pure]
          exact ⟨⟨hopen.closed, hopen.unconfirmed, hopen.closeErrors, huses _, hregistered.symm⟩,
            hcalm', rfl, _, rfl⟩
      · have hhandle : (Value.int handle).handle? = none := if_neg hvalid
        rw [hhandle] at hregistered
        simp only [register, if_pos hvalid]
        exact hrefused _ hregistered
    | bool x => exact hrefused _ hregistered
    | bytes x => exact hrefused _ hregistered
    | str x => exact hrefused _ hregistered
    | other => exact hrefused _ hregistered
  · refine ⟨⟨hopen.closed, hopen.unconfirmed, hopen.closeErrors, huses _, ?_⟩, .inl ?_⟩
    · rw [registered_snoc, hfailed, Option.elim_none]
      exact hopen.handles
    · exact ⟨w.log, _, e, rfl, hcalm, herr e, rfl⟩

/-- The metadata is what the handle's query was answered. -/
def Answers (maxBytes : ℤ) (p : ℤ × StartupFileMetadata) (event : Event E) : Prop :=
  ∃ answer, event = .query p.1 (.ok answer) ∧ metadata answer p.2.directory maxBytes = .ok p.2

theorem intField_bounds {field : String} {minimum maximum n : ℤ} {value : Value}
    (h : intField field minimum maximum value = .ok n) : minimum ≤ n ∧ n ≤ maximum := by
  cases value with
  | int m =>
    rw [intField] at h
    split_ifs at h with hm
    rwa [← Except.ok.inj h]
  | bool _ => cases h
  | bytes _ => cases h
  | str _ => cases h
  | other => cases h

theorem directory_of_metadata {answer : QueryAnswer} {directory : Bool} {maxBytes : ℤ}
    {found : StartupFileMetadata} (h : metadata answer directory maxBytes = .ok found) :
    found.directory = directory ∧ 0 ≤ found.size := by
  cases answer with
  | other => cases h
  | metadata raw =>
    simp only [metadata, bind_eq_ok, require_eq_ok, exists_const, Bool.and_eq_true, beq_iff_eq,
      pure, Except.pure, Except.ok.injEq] at h
    obtain ⟨_, -, _, -, size, hsize, _, -, _, -, isDirectory, -, _, -, _, -, _, -, ⟨-, hrole⟩, -,
      rfl⟩ := h
    exact ⟨hrole, (intField_bounds hsize).1⟩

theorem going_queryMetadata (b : Backend σ E) {handle : ℤ} {directory : Bool} (hopen : Open w)
    (hcalm : Calm w.log) : Ends (queryMetadata b handle directory) w (Going fun found w' =>
      found.directory = directory ∧ w'.owner = w.owner ∧
        ∃ event, w'.log = w.log ++ [event] ∧ Answers w.owner.maxBytes (handle, found) event) := by
  refine Going.bind (going_call hopen hcalm (fun _ => rfl) (fun _ => rfl) (fun _ => rfl)
    fun _ => rfl) fun answer w' hopen' hcalm' ⟨howner, hlog⟩ => ?_
  rw [ends_bind, ends_get]
  cases hfound : metadata answer directory w'.owner.maxBytes with
  | error message =>
    simp only [hfound, checked]
    exact going_pinError hopen' hcalm'
  | ok found =>
    simp only [hfound, checked]
    have hdirectory := (directory_of_metadata hfound).1
    refine ⟨hopen', hcalm', hdirectory, howner, _, hlog, answer, rfl, ?_⟩
    rw [hdirectory, ← howner]
    exact hfound

/-! ## The chain -/

/-- Each handle has its metadata, as its query was answered. -/
structure Described (w : World σ E) : Prop where
  length : w.owner.baseline.length = w.owner.handles.length
  answered : ∀ p ∈ w.owner.handles.zip w.owner.baseline, ∃ event ∈ w.log,
    Answers w.owner.maxBytes p event

theorem Described.size_nonneg (h : Described w) : ∀ m ∈ w.owner.baseline, 0 ≤ m.size := by
  intro m hm
  rw [← List.map_snd_zip h.length.le] at hm
  obtain ⟨p, hp, rfl⟩ := List.mem_map.mp hm
  obtain ⟨_, _, answer, _, hanswer⟩ := h.answered p hp
  exact (directory_of_metadata hanswer).2

theorem going_queryNew (b : Backend σ E) {handle : ℤ} {directory : Bool} (hopen : Open w)
    (hcalm : Calm w.log) : Ends (queryNew b handle directory) w (Going fun _ w' =>
      ∃ found event, found.directory = directory ∧
        w'.owner = { w.owner with baseline := w.owner.baseline ++ [found] } ∧
        w'.log = w.log ++ [event] ∧ Answers w.owner.maxBytes (handle, found) event) := by
  refine Going.bind (going_queryMetadata b hopen hcalm)
    fun found w' hopen' hcalm' ⟨hdirectory, howner, event, hlog, hanswers⟩ => ?_
  rw [ends_bind, ends_get]
  dsimp only
  split_ifs
  · exact going_pinError hopen' hcalm'
  · exact going_pinError hopen' hcalm'
  · refine ⟨⟨hopen'.closed, hopen'.unconfirmed, hopen'.closeErrors, hopen'.uses, hopen'.handles⟩,
      hcalm', found, event, hdirectory, ?_, hlog, hanswers⟩
    show { w'.owner with baseline := w'.owner.baseline ++ [found] } = _
    rw [howner]

/-- A handle opened, registered and asked. -/
theorem going_openAndQuery (b : Backend σ E) {f : σ → Except E Value × σ}
    {event : Except E Value → Event E} {directory : Bool} (hopen : Open w) (hcalm : Calm w.log)
    (hdescribed : Described w) (huse : ∀ answer, (event answer).isUse = true)
    (hopened : ∀ value, (event (.ok value)).opened? = value.handle?)
    (hfailed : ∀ e, (event (.error e)).opened? = none)
    (hok : ∀ value, (event (.ok value)).raised = none)
    (herr : ∀ e, (event (.error e)).raised = some e) (next : ℤ → Run σ E α)
    {good : α → World σ E → Prop}
    (hnext : ∀ handle w', Open w' → Calm w'.log → Described w' →
      w'.owner.handles.getLast? = some handle →
      (w'.owner.baseline.getLast?.map (·.directory)) = some directory →
      w'.owner.maxBytes = w.owner.maxBytes → Ends (next handle) w' (Going good)) :
    Ends (do
      let value ← call f event
      let handle ← register value
      queryNew b handle directory
      next handle) w (Going good) := by
  rw [← bind_bind]
  refine Going.bind (going_register hopen hcalm huse hopened hfailed hok herr)
    fun handle w₁ hopen₁ hcalm₁ ⟨howner₁, value, hlog₁⟩ => ?_
  refine Going.bind (going_queryNew b hopen₁ hcalm₁)
    fun _ w₂ hopen₂ hcalm₂ ⟨found, query, hdirectory, howner₂, hlog₂, hanswers⟩ => ?_
  rw [howner₁] at howner₂ hanswers
  have hzip : w₂.owner.handles.zip w₂.owner.baseline =
      w.owner.handles.zip w.owner.baseline ++ [(handle, found)] := by
    rw [howner₂]
    exact List.zip_append hdescribed.length.symm
  refine hnext handle w₂ hopen₂ hcalm₂ ⟨?_, ?_⟩ ?_ ?_ ?_
  · rw [howner₂]
    simp only [List.length_append, List.length_singleton, hdescribed.length]
  · rw [hzip, List.forall_mem_append, List.forall_mem_singleton, hlog₂, hlog₁, howner₂]
    refine ⟨fun p hp => ?_, query, by simp, hanswers⟩
    obtain ⟨e, he, hp⟩ := hdescribed.answered p hp
    exact ⟨e, by simp [he], hp⟩
  · rw [howner₂, List.getLast?_concat]
  · rw [howner₂, List.getLast?_concat, Option.map_some, hdirectory]
  · rw [howner₂]

/-- Opening goes down the components, and the last one is no directory. -/
theorem going_openComponents (b : Backend σ E) : ∀ (components : List PyStr) {handle : ℤ}
    {w : World σ E}, Open w → Calm w.log → Described w →
    w.owner.handles.getLast? = some handle →
    Ends (openComponents b handle components) w (Going fun last w' =>
      Described w' ∧ w'.owner.handles.getLast? = some last ∧
        w'.owner.maxBytes = w.owner.maxBytes ∧
        (components ≠ [] → (w'.owner.baseline.getLast?.map (·.directory)) = some false))
  | [], _, _, hopen, hcalm, hdescribed, hlast =>
    ⟨hopen, hcalm, hdescribed, hlast, rfl, fun h => absurd rfl h⟩
  | component :: rest, handle, w, hopen, hcalm, hdescribed, hlast => by
    refine going_openAndQuery b hopen hcalm hdescribed (fun _ => rfl) (fun _ => rfl)
      (fun _ => rfl) (fun _ => rfl) (fun _ => rfl) _
      fun child w' hopen' hcalm' hdescribed' hlast' hdirectory hmax => ?_
    cases rest with
    | nil => exact ⟨hopen', hcalm', hdescribed', hlast', hmax, fun _ => hdirectory⟩
    | cons next rest =>
      refine Going.mono (going_openComponents b (next :: rest) hopen' hcalm' hdescribed' hlast')
        fun last w'' ⟨hd, hl, hm, hf⟩ => ?_
      exact ⟨hd, hl, hm.trans hmax, fun _ => hf (List.cons_ne_nil next rest)⟩


/-! ## The content -/

/-- A read of a handle. -/
def Event.reads (handle : ℤ) : Event E → Prop
  | .read h _ _ _ => h = handle
  | _ => False

/-- The reads give the content up to its size. -/
theorem going_readAll (b : Backend σ E) {handle : ℤ} {expectedSize : ℕ} : ∀ (rounds : ℕ)
    {content : Bytes} {w : World σ E}, Open w → Calm w.log → content.length ≤ expectedSize →
    expectedSize ≤ content.length + rounds →
    Ends (readAll b handle expectedSize rounds content) w (Going fun whole w' =>
      whole.length = expectedSize ∧ w'.owner = w.owner ∧
        ∃ reads, w'.log = w.log ++ reads ∧ (∀ event ∈ reads, event.reads handle) ∧
          whole = content ++ reads.flatMap Event.chunk)
  | 0, content, w, hopen, hcalm, hle, hge =>
    ⟨hopen, hcalm, by omega, rfl, [], (List.append_nil _).symm, by simp, by simp⟩
  | rounds + 1, content, w, hopen, hcalm, hle, hge => by
    rw [readAll]
    split_ifs with hlt
    · refine Going.bind (going_call hopen hcalm (fun _ => rfl) (fun _ => rfl) (fun _ => rfl)
        fun _ => rfl) fun value w' hopen' hcalm' ⟨howner, hlog⟩ => ?_
      cases value with
      | bytes chunk =>
        dsimp only
        split_ifs with hchunk
        · have hlen : (content ++ chunk).length = content.length + chunk.length :=
            List.length_append
          have hmin : (content ++ chunk).length ≤ expectedSize := by omega
          have hmax : expectedSize ≤ (content ++ chunk).length + rounds := by omega
          refine Going.mono (going_readAll b rounds hopen' hcalm' hmin hmax)
            fun whole w'' ⟨hwhole, howner'', reads, hlog'', hreads, heq⟩ => ?_
          have hlog' := hlog''
          rw [hlog, List.append_assoc, List.singleton_append] at hlog'
          refine ⟨hwhole, howner''.trans howner, _, hlog', List.forall_mem_cons.mpr ⟨rfl, hreads⟩,
            ?_⟩
          rw [heq, List.append_assoc]
          rfl
        · exact going_pinError hopen' hcalm'
      | int _ => exact going_pinError hopen' hcalm'
      | bool _ => exact going_pinError hopen' hcalm'
      | str _ => exact going_pinError hopen' hcalm'
      | other => exact going_pinError hopen' hcalm'
    · exact ⟨hopen, hcalm, by omega, rfl, [], (List.append_nil _).symm, by simp, by simp⟩

/-- The chain is asked again, handle by handle, and has the metadata it had. -/
theorem going_validateAll (b : Backend σ E) : ∀ {chain : List (ℤ × StartupFileMetadata)}
    {w : World σ E}, Open w → Calm w.log → Ends (validateAll b chain) w (Going fun _ w' =>
      w'.owner = w.owner ∧ ∃ again, w'.log = w.log ++ again ∧
        List.Forall₂ (Answers w.owner.maxBytes) chain again)
  | [], w, hopen, hcalm => ⟨hopen, hcalm, rfl, [], (List.append_nil _).symm, .nil⟩
  | (handle, previous) :: chain, w, hopen, hcalm => by
    refine Going.bind (going_queryMetadata b hopen hcalm)
      fun found w' hopen' hcalm' ⟨_, howner, event, hlog, hanswers⟩ => ?_
    split_ifs with hne
    · exact going_pinError hopen' hcalm'
    · obtain rfl : found = previous := not_not.mp hne
      refine Going.mono (going_validateAll b hopen' hcalm')
        fun _ w'' ⟨howner'', again, hlog'', hagain⟩ => ?_
      refine ⟨howner''.trans howner, event :: again, ?_, .cons hanswers ?_⟩
      · rw [hlog'', hlog, List.append_assoc]
        rfl
      · rwa [howner] at hagain

/-! ## Closing -/

/-- The log keeps the handles in order: none is closed while the owner is open, and all of them once
and in reverse order when it is closed, behind every other call. -/
structure Owns (w : World σ E) : Prop where
  order : ∃ uses cleanup, w.log = uses ++ cleanup ∧ (∀ event ∈ uses, event.isUse = true) ∧
    ∀ event ∈ cleanup, event.isUse = false
  closes : closedHandles w.log = if w.owner.closed then w.owner.handles.reverse else []
  handles : w.owner.handles = registered w.log
  nodup : w.owner.handles.Nodup
  unconfirmed : w.owner.unconfirmed = (failures w.log).map Prod.fst
  closeErrors : w.owner.closeErrors = (failures w.log).map Prod.snd

/-- From `w` to `w'` every handle was closed, and nothing else was called. -/
structure Shut (w w' : World σ E) (cleanup : List (Event E)) : Prop where
  uses : ∀ event ∈ cleanup, event.isUse = false
  closes : closedHandles cleanup = w.owner.handles.reverse
  log : w'.log = w.log ++ cleanup
  owner : w'.owner = { w.owner with
    closed := true
    unconfirmed := (failures cleanup).map Prod.fst
    closeErrors := (failures cleanup).map Prod.snd }

theorem filterMap_eq_nil_of_isUse {f : Event E → Option β} {log : List (Event E)} {use : Bool}
    (hf : ∀ event : Event E, event.isUse = use → f event = none)
    (h : ∀ event ∈ log, event.isUse = use) : log.filterMap f = [] :=
  List.filterMap_eq_nil_iff.mpr fun event hevent => hf event (h event hevent)

theorem closedHandles_of_uses {log : List (Event E)} (h : ∀ event ∈ log, event.isUse = true) :
    closedHandles log = [] :=
  filterMap_eq_nil_of_isUse (fun event hevent => by cases event <;> first | rfl | cases hevent) h

theorem failures_of_uses {log : List (Event E)} (h : ∀ event ∈ log, event.isUse = true) :
    failures log = [] :=
  filterMap_eq_nil_of_isUse (fun event hevent => by cases event <;> first | rfl | cases hevent) h

theorem registered_append_cleanup (log : List (Event E)) {cleanup : List (Event E)}
    (h : ∀ event ∈ cleanup, event.isUse = false) :
    registered (log ++ cleanup) = registered log := by
  have hnone : cleanup.filterMap Event.opened? = [] :=
    filterMap_eq_nil_of_isUse (fun event hevent => by cases event <;> first | rfl | cases hevent) h
  rw [registered, List.filterMap_append, hnone, List.append_nil, registered]

theorem Open.owns (h : Open w) : Owns w where
  order := ⟨w.log, [], (List.append_nil _).symm, h.uses, by simp⟩
  closes := by rw [closedHandles_of_uses h.uses, h.closed]; rfl
  handles := h.handles
  nodup := h.handles ▸ nodup_registered w.log
  unconfirmed := by rw [failures_of_uses h.uses, h.unconfirmed]; rfl
  closeErrors := by rw [failures_of_uses h.uses, h.closeErrors]; rfl

variable {w' : World σ E} {cleanup : List (Event E)}

theorem Shut.failures_log (hopen : Open w) (h : Shut w w' cleanup) :
    failures w'.log = failures cleanup := by
  have huses := failures_of_uses hopen.uses
  unfold failures at huses ⊢
  rw [h.log, List.filterMap_append, huses, List.nil_append]

theorem Shut.owns (hopen : Open w) (h : Shut w w' cleanup) : Owns w' where
  order := ⟨w.log, cleanup, h.log, hopen.uses, h.uses⟩
  closes := by
    have huses := closedHandles_of_uses hopen.uses
    have hcloses := h.closes
    unfold closedHandles at huses hcloses ⊢
    rw [h.log, List.filterMap_append, huses, hcloses, h.owner]
    rfl
  handles := by
    rw [h.owner, h.log, registered_append_cleanup _ h.uses]
    exact hopen.handles
  nodup := by
    rw [h.owner]
    exact hopen.owns.nodup
  unconfirmed := by rw [h.failures_log hopen, h.owner]
  closeErrors := by rw [h.failures_log hopen, h.owner]

/-- The uses are what was called before. -/
theorem Shut.filter_isUse (hopen : Open w) (h : Shut w w' cleanup) :
    w'.log.filter Event.isUse = w.log := by
  have hnone : cleanup.filter Event.isUse = [] :=
    List.filter_eq_nil_iff.mpr fun event hevent => by simp [h.uses event hevent]
  rw [h.log, List.filter_append, List.filter_eq_self.mpr hopen.uses, hnone, List.append_nil]

/-- Every handle is closed once, whatever the closes before it raised. -/
theorem ends_closeAll (b : Backend σ E) : ∀ (handles : List ℤ) {w : World σ E},
    Ends (closeAll b handles) w fun r w' => ∃ closes : List (Event E),
      (∀ event ∈ closes, event.isUse = false) ∧ closedHandles closes = handles ∧
      w'.log = w.log ++ closes ∧ w'.owner = { w.owner with
        unconfirmed := w.owner.unconfirmed ++ (failures closes).map Prod.fst } ∧
      r = .ok ((failures closes).map Prod.snd)
  | [], w => ⟨[], by simp, rfl, (List.append_nil _).symm, by simp [failures]; rfl, rfl⟩
  | handle :: handles, w => by
    rw [closeAll, ends_bind, ends_tryExcept, ends_bind]
    refine Ends.call (fun u s => ?_) (fun e s => ?_)
    · simp only [ends_pure, ends_bind]
      refine Ends.mono (ends_closeAll b handles) fun r w' hends => ?_
      obtain ⟨closes, huse, hcloses, hlog, howner, rfl⟩ := hends
      refine ⟨.close handle (.ok u) :: closes, List.forall_mem_cons.mpr ⟨rfl, huse⟩, ?_, ?_, ?_, ?_⟩
      · rw [← hcloses]
        rfl
      · rw [hlog, List.append_assoc]
        rfl
      · exact howner
      · rfl
    · simp only [ends_pure, ends_bind, setOwner, ends_modify]
      refine Ends.mono (ends_closeAll b handles) fun r w' hends => ?_
      obtain ⟨closes, huse, hcloses, hlog, howner, rfl⟩ := hends
      refine ⟨.close handle (.error e) :: closes, List.forall_mem_cons.mpr ⟨rfl, huse⟩, ?_, ?_, ?_,
        ?_⟩
      · rw [← hcloses]
        rfl
      · rw [hlog, List.append_assoc]
        rfl
      · rw [howner, List.append_assoc]
        rfl
      · rfl

/-- What `close` ends with for its errors. -/
def closeResult (b : Backend σ E) (errors : List (Raised E)) : Except (Raised E) Unit :=
  if errors.isEmpty then .ok () else .error (closeFailure b errors)

theorem ends_close (b : Backend σ E) (hopen : Open w) : Ends (close b) w fun r w' =>
    ∃ cleanup, Shut w w' cleanup ∧ r = closeResult b ((failures cleanup).map Prod.snd) := by
  rw [close, ends_bind, ends_get]
  simp only [hopen.closed, Bool.false_eq_true, if_false, ends_bind, setOwner, ends_modify]
  refine Ends.mono (ends_closeAll b _) fun r w' hends => ?_
  obtain ⟨closes, huses, hcloses, hlog, howner, rfl⟩ := hends
  have hshut : Shut w { w' with owner :=
      { w'.owner with closeErrors := (failures closes).map Prod.snd } } closes := by
    refine ⟨huses, hcloses, hlog, ?_⟩
    rw [howner, hopen.unconfirmed]
    rfl
  dsimp only
  split_ifs with hempty
  · exact ⟨closes, hshut, (if_pos hempty).symm⟩
  · exact ⟨closes, hshut, (if_neg hempty).symm⟩

/-- A closed owner does not close anything again. -/
theorem ends_close_of_closed (b : Backend σ E) (hclosed : w.owner.closed = true) :
    Ends (close b) w fun r w' => r = .ok () ∧ w' = w := by
  rw [close, ends_bind, ends_get]
  simp only [hclosed, if_true]
  exact ⟨rfl, rfl⟩

/-- The original exception gets a note of the failed closes. -/
theorem ends_closePreserving (b : Backend σ E) (hopen : Open w) (original : Raised E) :
    Ends (closePreserving b original) w fun r w' => r = .ok () ∧
      ∃ cleanup, Shut w w' cleanup ∧ (failures cleanup ≠ [] →
        .note original (failures cleanup).length ∈ cleanup) := by
  rw [closePreserving, ends_bind, ends_get]
  dsimp only
  rw [ends_bind]
  refine Ends.ignore (Ends.mono (ends_close b hopen) fun _ w' hends => ?_)
  obtain ⟨cleanup, hshut, -⟩ := hends
  rw [ends_bind, ends_get]
  have hunconfirmed : w'.owner.unconfirmed = (failures cleanup).map Prod.fst := by rw [hshut.owner]
  have hlength : w'.owner.unconfirmed.length = (failures cleanup).length := by
    rw [hunconfirmed, List.length_map]
  dsimp only
  split_ifs with hnote
  · have hfailures : failures (cleanup ++ [.note original w'.owner.unconfirmed.length]) =
        failures cleanup := (List.filterMap_append ..).trans (List.append_nil _)
    refine ⟨rfl, cleanup ++ [.note original w'.owner.unconfirmed.length], ⟨?_, ?_, ?_, ?_⟩, ?_⟩
    · exact List.forall_mem_append.mpr ⟨hshut.uses, List.forall_mem_singleton.mpr rfl⟩
    · rw [← hshut.closes]
      exact (List.filterMap_append ..).trans (List.append_nil _)
    · show w'.log ++ _ = _
      rw [hshut.log, List.append_assoc]
    · rw [hfailures]
      exact hshut.owner
    · rw [hfailures, hlength]
      exact fun _ => List.mem_append_right _ (List.mem_singleton_self _)
  · refine ⟨rfl, cleanup, hshut, fun hne => absurd ?_ hnote⟩
    rw [hopen.closed, hunconfirmed]
    simpa using hne

theorem ends_closePreserving_of_closed (b : Backend σ E) (hclosed : w.owner.closed = true)
    (original : Raised E) :
    Ends (closePreserving b original) w fun r w' => r = .ok () ∧ w' = w := by
  rw [closePreserving, ends_bind, ends_get]
  dsimp only
  rw [ends_bind]
  refine Ends.ignore (Ends.mono (ends_close_of_closed b hclosed) fun _ w' ⟨_, hw⟩ => ?_)
  rw [ends_bind, ends_get, hclosed]
  simp only [Bool.not_true, Bool.and_false, Bool.false_eq_true, if_false, ends_pure]
  exact ⟨trivial, hw⟩

/-- What an exception leaves: every registered handle closed once, in reverse order, and the
exception is the one that came first, with a note of the failed closes. -/
structure Refused (exc : Raised E) (w : World σ E) : Prop where
  owns : Owns w
  closes : closedHandles w.log = w.owner.handles.reverse
  origin : Origin (w.log.filter Event.isUse) exc
  noted : failures w.log ≠ [] → .note exc (failures w.log).length ∈ w.log

theorem Shut.refused {exc : Raised E} (hopen : Open w) (h : Shut w w' cleanup)
    (horigin : Origin w.log exc)
    (hnote : failures cleanup ≠ [] → .note exc (failures cleanup).length ∈ cleanup) :
    Refused exc w' where
  owns := h.owns hopen
  closes := by
    rw [(h.owns hopen).closes, h.owner]
    rfl
  origin := by rwa [h.filter_isUse hopen]
  noted := by
    rw [h.failures_log hopen, h.log]
    exact fun hne => List.mem_append_right _ (hnote hne)

/-- The block goes on, or an owner, open or closed, is left with what came first. -/
def Failing (good : α → World σ E → Prop) (keep : List ℤ → Prop) :
    Except (Raised E) α → World σ E → Prop
  | .ok a, w => good a w
  | .error exc, w => ((Open w ∧ Origin w.log exc) ∨ (Refused exc w ∧ w.owner.closed = true)) ∧
      keep w.owner.handles

/-- The block goes on, or a closed owner is left with what came first. -/
def Closing (good : α → World σ E → Prop) (keep : List ℤ → Prop) :
    Except (Raised E) α → World σ E → Prop
  | .ok a, w => good a w
  | .error exc, w => Refused exc w ∧ w.owner.closed = true ∧ keep w.owner.handles

/-- `except BaseException`: the owner is closed, if it is not yet, and the exception goes on. -/
theorem ends_closingOnError (b : Backend σ E) {x : Run σ E α} {good : α → World σ E → Prop}
    {keep : List ℤ → Prop} (h : Ends x w (Failing good keep)) :
    Ends (closingOnError b x) w (Closing good keep) := by
  rw [closingOnError, ends_tryExcept]
  refine Ends.mono h fun r w' hr => ?_
  cases r with
  | ok a => exact hr
  | error exc =>
    dsimp only
    obtain ⟨⟨hopen, horigin⟩ | ⟨hrefused, hclosed⟩, hkeep⟩ := hr
    · rw [ends_bind]
      refine Ends.mono (ends_closePreserving b hopen exc)
        fun r w'' ⟨hr, cleanup, hshut, hnote⟩ => ?_
      subst hr
      refine ⟨hshut.refused hopen horigin hnote, ?_, ?_⟩
      · show w''.owner.closed = true
        rw [hshut.owner]
      · show keep w''.owner.handles
        rw [hshut.owner]
        exact hkeep
    · rw [ends_bind]
      refine Ends.mono (ends_closePreserving_of_closed b hclosed exc) fun r w'' ⟨hr, hw⟩ => ?_
      subst hr hw
      exact ⟨hrefused, hclosed, hkeep⟩

/-! ## Pinning -/

theorem ends_queryMetadata_owner (b : Backend σ E) {handle : ℤ} {directory : Bool} :
    Ends (queryMetadata b handle directory) w fun _ w' => w'.owner = w.owner := by
  rw [queryMetadata, ends_bind]
  refine Ends.call (fun answer s => ?_) fun e s => rfl
  dsimp only
  rw [ends_bind, ends_get]
  show Ends (checked (metadata answer directory w.owner.maxBytes)) _ _
  cases metadata answer directory w.owner.maxBytes <;> rfl

theorem ends_validateAll_owner (b : Backend σ E) : ∀ (chain : List (ℤ × StartupFileMetadata))
    {w : World σ E}, Ends (validateAll b chain) w fun _ w' => w'.owner = w.owner
  | [], _ => rfl
  | (handle, previous) :: chain, w => by
    rw [validateAll, ends_bind]
    refine Ends.mono (ends_queryMetadata_owner b) fun r w' howner => ?_
    cases r with
    | error exc => exact howner
    | ok found =>
      dsimp only
      split_ifs with hne
      · exact howner
      · exact Ends.mono (ends_validateAll_owner b chain) fun _ w'' h => h.trans howner

/-- From `w` to `w'` each handle was asked again, and had the metadata it has. -/
structure Rechecked (w w' : World σ E) : Prop where
  toOpen : Open w'
  calm : Calm w'.log
  owner : w'.owner = w.owner
  log : ∃ again, w'.log = w.log ++ again ∧
    List.Forall₂ (Answers w.owner.maxBytes) (w.owner.handles.zip w.owner.baseline) again

/-- The chain has the metadata it had, or the owner is closed. -/
theorem ends_validateChain (b : Backend σ E) (hopen : Open w) (hcalm : Calm w.log) :
    Ends (validateChain b) w (Closing (fun _ w' => Rechecked w w') (· = w.owner.handles)) := by
  refine ends_closingOnError b ?_
  rw [ends_bind, ends_get]
  have howner := ends_validateAll_owner b (w.owner.handles.zip w.owner.baseline) (w := w)
  refine Ends.mono (howner.and (going_validateAll b hopen hcalm)) fun r w' ⟨hw, h⟩ => ?_
  cases r with
  | ok u =>
    obtain ⟨hopen', hcalm', howner', hlog⟩ := h
    exact ⟨hopen', hcalm', howner', hlog⟩
  | error exc => exact ⟨.inl h, by rw [hw]⟩

/-- An owner with the content of its file, whose chain has been asked again behind the reads. -/
structure Pinned (w : World σ E) : Prop where
  toOpen : Open w
  calm : Calm w.log
  ready : w.owner.ready = true
  digest : w.owner.sha256 = sha256 w.owner.content
  baseline : w.owner.baseline.length = w.owner.handles.length
  /-- The last of the chain is a file of the content's size. -/
  size : ∃ file, w.owner.baseline.getLast? = some file ∧ file.directory = false ∧
    (w.owner.content.length : ℤ) = file.size
  /-- Each handle has been asked for its metadata before the reads and behind them. -/
  unchanged : ∃ opening reads again, w.log = opening ++ reads ++ again ∧
    (∀ p ∈ w.owner.handles.zip w.owner.baseline, ∃ event ∈ opening,
      Answers w.owner.maxBytes p event) ∧
    (∀ event ∈ reads, ∃ handle, w.owner.handles.getLast? = some handle ∧ event.reads handle) ∧
    w.owner.content = reads.flatMap Event.chunk ∧
    List.Forall₂ (Answers w.owner.maxBytes) (w.owner.handles.zip w.owner.baseline) again

theorem going_openChain (b : Backend σ E) (drive : PyStr) {components : List PyStr}
    (hne : components ≠ []) (hopen : Open w) (hcalm : Calm w.log) (hdescribed : Described w) :
    Ends (openChain b drive components) w (Going fun last w' => Described w' ∧
      w'.owner.handles.getLast? = some last ∧
        (w'.owner.baseline.getLast?.map (·.directory)) = some false) :=
  going_openAndQuery b hopen hcalm hdescribed (fun _ => rfl) (fun _ => rfl) (fun _ => rfl)
    (fun _ => rfl) (fun _ => rfl) _ fun _ _ hopen' hcalm' hdescribed' hlast' _ _ =>
    Going.mono (going_openComponents b components hopen' hcalm' hdescribed' hlast')
      fun _ _ ⟨hd, hl, _, hf⟩ => ⟨hd, hl, hf hne⟩

theorem ends_acquire (b : Backend σ E) (drive : PyStr) {components : List PyStr}
    (hne : components ≠ []) (hopen : Open w) (hcalm : Calm w.log) (hdescribed : Described w) :
    Ends (acquire b drive components) w (Failing (fun _ w' => Pinned w') fun _ => True) := by
  rw [acquire, ends_bind]
  refine Ends.mono (going_openChain b drive hne hopen hcalm hdescribed) fun r w₁ h₁ => ?_
  cases r with
  | error exc => exact ⟨.inl h₁, trivial⟩
  | ok handle =>
    obtain ⟨hopen₁, hcalm₁, hdescribed₁, hlast, hfile⟩ := h₁
    obtain ⟨file, hfile, hdirectory⟩ := Option.map_eq_some_iff.mp hfile
    dsimp only
    rw [ends_bind, ends_get]
    dsimp only
    rw [hfile, ends_bind]
    refine Ends.mono (going_readAll b _ hopen₁ hcalm₁ (Nat.zero_le _) (Nat.zero_add _).ge)
      fun r w₂ h₂ => ?_
    cases r with
    | error exc => exact ⟨.inl h₂, trivial⟩
    | ok content =>
      obtain ⟨hopen₂, hcalm₂, hlength, howner₂, reads, hlog₂, hreads, hcontent⟩ := h₂
      dsimp only
      rw [ends_bind]
      refine Ends.mono (ends_validateChain b hopen₂ hcalm₂) fun r w₃ h₃ => ?_
      cases r with
      | error exc => exact ⟨.inr ⟨h₃.1, h₃.2.1⟩, trivial⟩
      | ok u =>
        obtain ⟨hopen₃, hcalm₃, howner₃, again, hlog₃, hagain⟩ := h₃
        have howner : w₃.owner = w₁.owner := howner₃.trans howner₂
        have hsize := hdescribed₁.size_nonneg file (List.mem_of_getLast? hfile)
        refine
          { toOpen := ⟨hopen₃.closed, hopen₃.unconfirmed, hopen₃.closeErrors, hopen₃.uses,
              hopen₃.handles⟩
            calm := hcalm₃
            ready := rfl
            digest := rfl
            baseline := ?_
            size := ⟨file, ?_, hdirectory, ?_⟩
            unchanged := ⟨w₁.log, reads, again, ?_, ?_, ?_, hcontent, ?_⟩ }
        · show w₃.owner.baseline.length = w₃.owner.handles.length
          rw [howner]
          exact hdescribed₁.length
        · show w₃.owner.baseline.getLast? = some file
          rw [howner]
          exact hfile
        · show (content.length : ℤ) = file.size
          rw [hlength]
          exact Int.toNat_of_nonneg hsize
        · show w₃.log = w₁.log ++ reads ++ again
          rw [hlog₃, hlog₂]
        · show ∀ p ∈ w₃.owner.handles.zip w₃.owner.baseline, _
          rw [howner]
          intro p hp
          show ∃ event ∈ w₁.log, Answers w₃.owner.maxBytes p event
          rw [howner]
          exact hdescribed₁.answered p hp
        · show ∀ event ∈ reads, ∃ h, w₃.owner.handles.getLast? = some h ∧ event.reads h
          rw [howner]
          exact fun event hevent => ⟨handle, hlast, hreads event hevent⟩
        · show List.Forall₂ (Answers w₃.owner.maxBytes)
            (w₃.owner.handles.zip w₃.owner.baseline) again
          rw [howner₃]
          exact hagain

/-- A log without a call, and no handle. -/
theorem open_new (s : σ) (maxBytes : ℤ) : Open (⟨s, Owner.new E maxBytes, []⟩ : World σ E) :=
  ⟨rfl, rfl, rfl, by simp, rfl⟩

theorem localComponents_ne_nil {upper : PyStr → PyStr} {path drive : PyStr}
    {components : List PyStr} (h : localComponents upper path = .ok (drive, components)) :
    components ≠ [] := by
  simp only [localComponents, bind_eq_ok, require_eq_ok, exists_const, pure, Except.pure,
    Except.ok.injEq, Prod.mk.injEq] at h
  obtain ⟨_, _, _, _, _, rfl⟩ := h
  exact splitOn_ne_nil _ _

/-- Pinning gives an owner, or what came first. -/
def PinsOrRefuses : Except (Raised E) (Backend σ E) → World σ E → Prop
  | .ok _, w => Pinned w
  | .error exc, w => Refused exc w

theorem ends_pinStartupFile (upper : PyStr → PyStr) (native : Except String (Backend σ E))
    (backend : Option (Backend σ E)) (path : PyStr) (maxBytes : ℤ) (s : σ) :
    Ends (pinStartupFile upper native backend path maxBytes) ⟨s, Owner.new E maxBytes, []⟩
      PinsOrRefuses := by
  have hopen := open_new (E := E) s maxBytes
  have hcalm : Calm ([] : List (Event E)) := by simp [Calm]
  -- Before the owner exists a refusal leaves nothing.
  have hrefused : ∀ message, Refused (.pinError message : Raised E)
      (⟨s, Owner.new E maxBytes, []⟩ : World σ E) := fun message =>
    ⟨hopen.owns, rfl, .inr ⟨hcalm, message, rfl⟩, fun h => absurd rfl h⟩
  rw [pinStartupFile, ends_bind]
  cases hpath : localComponents upper path with
  | error message => exact hrefused message
  | ok p =>
    simp only [checked, ends_pure]
    split_ifs with hmax
    · rw [ends_bind]
      cases backend.elim native .ok with
      | error message => exact hrefused message
      | ok b =>
        simp only [ends_pure, setOwner, ends_bind, ends_modify]
        refine Ends.mono (ends_closingOnError b (ends_acquire b p.1 (localComponents_ne_nil hpath)
          hopen hcalm ⟨rfl, by simp [Owner.new]⟩)) fun r w' h => ?_
        cases r with
        | ok u => exact h
        | error exc => exact h.1
    · exact hrefused _

/-! ## Calls of an owner -/

/-- A call of an owner; `exit` has the exception of the body. -/
inductive Op (E : Type) where
  | revalidate
  | close
  | exit (exc : Option (Raised E))

def Op.run (b : Backend σ E) : Op E → Run σ E Unit
  | revalidate => StartupPin.revalidate b
  | close => StartupPin.close b
  | exit exc => StartupPin.exit b exc

/-- The results of calls one after the other, and the world behind them. -/
def runOps (b : Backend σ E) : List (Op E) → World σ E → List (Except (Raised E) Unit) × World σ E
  | [], w => ([], w)
  | op :: ops, w =>
    let (r, w') := op.run b w
    let (results, w'') := runOps b ops w'
    (r :: results, w'')

/-- A call with a result that leaves the owner closed. -/
def Op.Closes : Op E → Except (Raised E) Unit → Prop
  | revalidate, r => r ≠ .ok ()
  | close, _ => True
  | exit _, _ => True

/-- The failed closes are raised by the call that closes, or noted on the exception it keeps. -/
def Reported (b : Backend σ E) (results : List (Except (Raised E) Unit)) (w : World σ E) : Prop :=
  failures w.log ≠ [] →
    .error (closeFailure b ((failures w.log).map Prod.snd)) ∈ results ∨
      ∃ exc, .note exc (failures w.log).length ∈ w.log

/-- What a call keeps of an open owner. -/
structure Ready (w : World σ E) : Prop where
  toOpen : Open w
  calm : Calm w.log
  ready : w.owner.ready = true

theorem Reported.of_note {b : Backend σ E} {results : List (Except (Raised E) Unit)}
    {exc : Raised E} (h : failures w.log ≠ [] → .note exc (failures w.log).length ∈ w.log) :
    Reported b results w :=
  fun hne => .inr ⟨exc, h hne⟩

/-- `close` of an open owner closes it and raises what failed. -/
theorem ends_close_reported (b : Backend σ E) (hopen : Open w) : Ends (StartupPin.close b) w
    fun r w' => w'.owner.handles = w.owner.handles ∧ w'.owner.closed = true ∧ Owns w' ∧
      Reported b [r] w' := by
  refine Ends.mono (ends_close b hopen) fun r w' ⟨cleanup, hshut, hr⟩ => ?_
  refine ⟨by rw [hshut.owner], by rw [hshut.owner], hshut.owns hopen, fun hne => .inl ?_⟩
  rw [hshut.failures_log hopen] at hne ⊢
  rw [hr, closeResult, if_neg (by simpa using hne)]
  exact List.mem_singleton_self _

/-- One call of an open owner keeps it, or closes every handle and reports what failed. -/
theorem ends_op (b : Backend σ E) (hready : Ready w) (op : Op E) :
    Ends (op.run b) w fun r w' => w'.owner.handles = w.owner.handles ∧
      ((¬op.Closes r ∧ Ready w') ∨
        (op.Closes r ∧ w'.owner.closed = true ∧ Owns w' ∧ Reported b [r] w')) := by
  cases op with
  | revalidate =>
    show Ends (StartupPin.revalidate b) w _
    rw [StartupPin.revalidate, ends_bind, requireOpen, ends_bind, ends_get]
    simp only [hready.toOpen.closed, hready.ready, Bool.not_true, Bool.or_false,
      Bool.false_eq_true, if_false, ends_pure]
    refine Ends.mono (ends_validateChain b hready.toOpen hready.calm) fun r w' h => ?_
    cases r with
    | ok u =>
      refine ⟨by rw [h.owner], .inl ⟨fun hne => hne rfl, h.toOpen, h.calm, ?_⟩⟩
      rw [h.owner]
      exact hready.ready
    | error exc =>
      obtain ⟨hrefused, hclosed, hhandles⟩ := h
      exact ⟨hhandles, .inr ⟨(fun h => by cases h), hclosed, hrefused.owns,
        Reported.of_note hrefused.noted⟩⟩
  | close =>
    exact Ends.mono (ends_close_reported b hready.toOpen) fun r w' h =>
      ⟨h.1, .inr ⟨trivial, h.2⟩⟩
  | exit exc =>
    cases exc with
    | none =>
      exact Ends.mono (ends_close_reported b hready.toOpen) fun r w' h =>
        ⟨h.1, .inr ⟨trivial, h.2⟩⟩
    | some exc =>
      refine Ends.mono (ends_closePreserving b hready.toOpen exc) fun r w' hends => ?_
      obtain ⟨-, cleanup, hshut, hnote⟩ := hends
      refine ⟨by rw [hshut.owner], .inr ⟨trivial, by rw [hshut.owner],
        hshut.owns hready.toOpen, fun hne => .inr ⟨exc, ?_⟩⟩⟩
      rw [hshut.failures_log hready.toOpen] at hne ⊢
      rw [hshut.log]
      exact List.mem_append_right _ (hnote hne)

/-- A closed owner calls nothing. -/
theorem ends_op_of_closed (b : Backend σ E) (hclosed : w.owner.closed = true) (op : Op E) :
    Ends (op.run b) w fun _ w' => w' = w := by
  cases op with
  | revalidate =>
    show Ends (StartupPin.revalidate b) w _
    rw [StartupPin.revalidate, ends_bind, requireOpen, ends_bind, ends_get]
    simp only [hclosed, Bool.true_or, if_true]
    rfl
  | close => exact Ends.mono (ends_close_of_closed b hclosed) fun _ _ h => h.2
  | exit exc =>
    cases exc with
    | none => exact Ends.mono (ends_close_of_closed b hclosed) fun _ _ h => h.2
    | some exc => exact Ends.mono (ends_closePreserving_of_closed b hclosed exc) fun _ _ h => h.2

theorem runOps_of_closed (b : Backend σ E) : ∀ (ops : List (Op E)) {w : World σ E},
    w.owner.closed = true → (runOps b ops w).2 = w
  | [], _, _ => rfl
  | op :: ops, w, hclosed => by
    have hw : (op.run b w).2 = w := ends_op_of_closed b hclosed op
    show (runOps b ops (op.run b w).2).2 = w
    rw [hw]
    exact runOps_of_closed b ops hclosed

/-- Calls of an open owner, one after the other. -/
theorem runOps_owns (b : Backend σ E) : ∀ (ops : List (Op E)) {w : World σ E}, Ready w →
    Owns (runOps b ops w).2 ∧ (runOps b ops w).2.owner.handles = w.owner.handles ∧
      ((runOps b ops w).2.owner.closed = true ↔
        ∃ p ∈ ops.zip (runOps b ops w).1, p.1.Closes p.2) ∧
      Reported b (runOps b ops w).1 (runOps b ops w).2
  | [], w, hready => by
    refine ⟨hready.toOpen.owns, rfl, ?_, fun hne => ?_⟩
    · show w.owner.closed = true ↔ _
      rw [hready.toOpen.closed]
      simp
    · exact absurd (failures_of_uses hready.toOpen.uses) hne
  | op :: ops, w, hready => by
    obtain ⟨hhandles, hcases⟩ := ends_op b hready op
    have hrun : runOps b (op :: ops) w = ((op.run b w).1 :: (runOps b ops (op.run b w).2).1,
      (runOps b ops (op.run b w).2).2) := rfl
    rw [hrun]
    dsimp only
    rcases hcases with ⟨hkeeps, hready'⟩ | ⟨hcloses, hclosed, howns, hreported⟩
    · obtain ⟨ihowns, ihhandles, ihclosed, ihreported⟩ := runOps_owns b ops hready'
      refine ⟨ihowns, ihhandles.trans hhandles, ?_, fun hne => ?_⟩
      · simp only [ihclosed, List.zip_cons_cons, List.mem_cons, exists_eq_or_imp]
        exact (or_iff_right hkeeps).symm
      · exact (ihreported hne).imp_left (List.mem_cons_of_mem _)
    · rw [runOps_of_closed b ops hclosed]
      refine ⟨howns, hhandles, ?_, fun hne => ?_⟩
      · exact ⟨fun _ => ⟨_, List.mem_cons_self, hcloses⟩, fun _ => hclosed⟩
      · refine (hreported hne).imp_left fun hmem => ?_
        rw [List.mem_singleton.mp hmem]
        exact List.mem_cons_self

/-- Pinning gives an owner with the content of its file and a chain that is unchanged, or raises
what came first from an owner that has closed every handle it registered. Whatever is called then,
each handle is closed at most once, all of them when a call closes, none is used behind it, and
failed closes are reported. -/
theorem startup_pin_owns_handles (upper : PyStr → PyStr) (native : Except String (Backend σ E))
    (backend : Option (Backend σ E)) (path : PyStr) (maxBytes : ℤ) (s : σ) :
    match pinStartupFile upper native backend path maxBytes ⟨s, Owner.new E maxBytes, []⟩ with
    | (.error exc, w) => Refused exc w
    | (.ok b, w) => Pinned w ∧ ∀ ops,
        Owns (runOps b ops w).2 ∧ (runOps b ops w).2.owner.handles = w.owner.handles ∧
        ((runOps b ops w).2.owner.closed = true ↔
          ∃ p ∈ ops.zip (runOps b ops w).1, p.1.Closes p.2) ∧
        Reported b (runOps b ops w).1 (runOps b ops w).2 := by
  have h := ends_pinStartupFile upper native backend path maxBytes s
  unfold Ends at h
  generalize pinStartupFile upper native backend path maxBytes ⟨s, Owner.new E maxBytes, []⟩ =
    outcome at h ⊢
  obtain ⟨exc | b, w⟩ := outcome
  · exact h
  · exact ⟨h, fun ops => runOps_owns b ops ⟨h.toOpen, h.calm, h.ready⟩⟩

end Icode.StartupPin
