import Icode.Checks
import Icode.EventChain

/-!
# The exporter's reading of an event chain

`readEvents` (`_read_events`) reads the events of a ticket before a package is built. It
feeds the same mirrors as the verifier of the package, but raises at the first thing it
does not accept, and it keeps what the export needs : the steps and the artifacts.

It leaves some checks to the verifier, which runs on the finished package
(`ChainProblem.VerifierOnly`). Otherwise the two agree : the exporter reads a file exactly
when the verifier finds nothing but problems of these kinds (`exists_readEvents_iff`).
-/

namespace Icode

open Py

/-! ## Arguments and errors -/

/-- The keyword arguments of `_read_events`. -/
structure ReadArguments where
  ticketId : PyStr
  eventMirrors : Dict PyStr (Option Json)
  agentSpawns : Option Json
  metadataHash : PyStr
  stateMachine : Option Json
  executionModel : Option Json
  completionReceipt : Option Json
  metadata : Members

/-- The arguments for the metadata of a ticket and a snapshot of its contract. -/
def readArgumentsOf (ticketId : PyStr) (metadata : Members)
    (stateMachine executionModel completionReceipt : Option Json) : ReadArguments where
  ticketId := ticketId
  eventMirrors := metadataEventMirrorPaths.map fun (eventType, _) =>
    (eventType, metadataEventMirrorRecords (.obj metadata) eventType)
  agentSpawns := metadataAgentSpawnRecords (.obj metadata)
  metadataHash := metadataContentHash metadata
  stateMachine := stateMachine
  executionModel := executionModel
  completionReceipt := completionReceipt
  metadata := metadata

/-- What `_read_events` raises. -/
inductive EventsError where
  /-- 工单 metadata 的事件镜像结构无效（必须是仅含对象的数组） -/
  | recordStructure (eventType : PyStr)
  /-- 工单 metadata 的 Agent 调用结构无效 -/
  | agentStructure
  | stopped (stop : StreamStop)
  /-- 第 n 行 event_type 无效（不属于允许类型） -/
  | eventType (lineno : ℕ)
  /-- 第 n 行 payload 结构无效（必须是对象） -/
  | payload (lineno : ℕ)
  /-- 第 n 行不符合 pinned ticket-event schema -/
  | schema (lineno : ℕ) (fields : List PyStr)
  /-- 事件与 metadata 的记录不一致 -/
  | records (eventType : PyStr)
  /-- agent_spawned/agent_result 事件与 metadata 不一致 -/
  | agents
  /-- 工单状态事件语义无效 -/
  | ticket (ps : List TicketProblem)
  /-- 执行模型事件语义无效 -/
  | execution (ps : List ExecutionProblem)
  /-- 事件链最终 metadata_hash_after 与工单 metadata 摘要不一致 -/
  | metadataHash
  /-- No `EvidenceError` but an error of the execution mirror. -/
  | typeError (e : TypeError)

/-! ## What is kept -/

/-- An entry of `summary.artifact_events`. -/
structure ArtifactEvent where
  eventId : Json
  eventIndex : ℕ
  payload : Members

/-- `_EventSummary`; the steps are a set. -/
structure EventSummary where
  eventCount : ℕ
  steps : List PyStr
  artifactEvents : List ArtifactEvent
  hasVersionedExecutionEvents : Bool
  hasVersionedTicketBirth : Bool
  hasCompletedTransition : Bool

/-- The local variables of the loop over the events. -/
structure EventReader where
  eventCount : ℕ
  steps : List PyStr
  artifactEvents : List ArtifactEvent
  indexes : Dict PyStr ℕ
  /-- The last `metadata_hash_after` that is truthy. -/
  marker : Option Json
  agents : AgentMirror
  ticket : TicketMirror
  execution : ExecutionMirror

/-- The fields of an artifact event that are kept. -/
def artifactEventFields : List PyStr :=
  ["path", "sha256", "output", "step", "scope", "size"]

/-! ## The loop -/

/-- The records of the metadata, by the type of their events. -/
def requiredRecords (mirrors : Dict PyStr (Option Json)) :
    Except EventsError (Dict PyStr (List Members)) :=
  mapAll (fun (eventType, _) => orRaise
    ((objectRecords? (Dict.get? mirrors eventType).join).map fun records => (eventType, records))
    (.recordStructure eventType)) metadataEventMirrorPaths

/-- The indexes of the records after an event, which has to match the next record of its type. -/
def nextIndexes (records : Dict PyStr (List Members)) (indexes : Dict PyStr ℕ) (eventType : PyStr)
    (payload : Members) : Except EventsError (Dict PyStr ℕ) :=
  if eventType = lit "step_started" ∨ eventType = lit "artifact_written" then .ok indexes
  else
    match Dict.get? records eventType with
    | none => .ok indexes
    | some expected =>
      let index := (Dict.get? indexes eventType).getD 0
      match expected[index]? with
      | none => .error (.records eventType)
      | some record =>
        if eventPayloadMatchesMetadataRecord payload record then
          .ok (Dict.set indexes eventType (index + 1))
        else .error (.records eventType)

namespace EventReader

/-- Before the first event. -/
def init (args : ReadArguments) (records : Dict PyStr (List Members)) : EventReader where
  eventCount := 0
  steps := []
  artifactEvents := []
  indexes := records.map fun (eventType, _) => (eventType, 0)
  marker := none
  agents := AgentMirror.init args.agentSpawns
  ticket := TicketMirror.init args.stateMachine (some args.metadata)
  execution := ExecutionMirror.init args.executionModel args.completionReceipt

section Step

variable (printable : CodePoint → Bool) (args : ReadArguments)
  (records : Dict PyStr (List Members))

/-- The steps after an event. -/
def stepsAfter (r : EventReader) (eventType : PyStr) (payload : Members) : List PyStr :=
  let step := payload.get "step"
  if eventType = lit "step_started" ∧ step.truthy = true then
    r.steps.insert (step.pyStr printable)
  else r.steps

/-- The artifacts after an event. -/
def artifactEventsAfter (r : EventReader) (eventType : PyStr) (event payload : Members) :
    List ArtifactEvent :=
  if eventType = lit "artifact_written" then
    r.artifactEvents ++ [{
      eventId := event.get "event_id"
      eventIndex := r.eventCount + 1
      payload := artifactEventFields.map fun key => (key, payload.get key) }]
  else r.artifactEvents

/-- The variables after an event of the type, once the records and the execution mirror were asked. -/
def after (r : EventReader) (eventType : PyStr) (event payload : Members)
    (execution : ExecutionMirror) (indexes : Dict PyStr ℕ) : EventReader where
  eventCount := r.eventCount + 1
  steps := r.stepsAfter printable eventType payload
  artifactEvents := r.artifactEventsAfter eventType event payload
  indexes := indexes
  marker := (hashMarker? event).or r.marker
  agents :=
    if agentLifecycleEventTypes.contains eventType then r.agents.consume eventType (.obj payload)
    else r.agents
  ticket := r.ticket.consume event (r.eventCount + 1)
  execution := execution

/-- The body of the loop. -/
def read (r : EventReader) (lineno : ℕ) (event : Members) : Except EventsError EventReader := do
  let eventType ← orRaise ((event.get "event_type").text?.filter allowedEventTypes.contains)
    (.eventType lineno)
  let payload ← orRaise (payload? event) (.payload lineno)
  let issues := eventSchemaIssues event (some args.ticketId)
  require issues.isEmpty (.schema lineno (sortNames issues.dedup))
  let execution ← (r.execution.consume event (r.eventCount + 1)).mapError .typeError
  let indexes ← nextIndexes records r.indexes eventType payload
  .ok (r.after printable eventType event payload execution indexes)

/-- The last marker is the digest of the metadata. -/
def markerOk (r : EventReader) : Bool :=
  r.marker.all fun marker => marker.pyEq (.str args.metadataHash)

/-- What is checked once the last event was read. -/
def finish (r : EventReader) : Except EventsError EventSummary := do
  requireAll records (fun (eventType, expected) =>
    (Dict.get? r.indexes eventType).getD 0 == expected.length) (fun (eventType, _) => .records eventType)
  require r.agents.finish .agents
  require r.ticket.finish.isEmpty (.ticket r.ticket.finish)
  require r.execution.finish.isEmpty (.execution r.execution.finish)
  require (r.markerOk args) .metadataHash
  .ok {
    eventCount := r.eventCount
    steps := r.steps
    artifactEvents := r.artifactEvents
    hasVersionedExecutionEvents := r.execution.hasVersionedEvents
    hasVersionedTicketBirth := r.execution.versionedTicketBirth
    hasCompletedTransition := r.execution.completedTransitionSeen }

/-- The loop over the events. -/
def readAll (r : EventReader) (events : List (ℕ × Members)) : Except EventsError EventReader :=
  events.foldlM (fun r e => r.read printable args records e.1 e.2) r

end Step

end EventReader

/-- `_read_events`, for a file that can be opened and read. -/
def readEvents (printable : CodePoint → Bool) (args : ReadArguments) (content : Bytes)
    (delivered : ℕ) : Except EventsError EventSummary := do
  let records ← requiredRecords args.eventMirrors
  let r := EventReader.init args records
  require r.agents.structurallyValid .agentStructure
  let (events, stop) := eventStream content delivered
  let r ← r.readAll printable args records events
  match stop with
  | some stop => .error (.stopped stop)
  | none => r.finish args records

/-! ## The records of both readers -/

theorem mapAll_orRaise_eq_ok {α β ε : Type} {f : α → Option β} {err : α → ε} :
    ∀ {xs : List α} {ys : List β}, mapAll (fun x => orRaise (f x) (err x)) xs = .ok ys ↔
      (∀ x ∈ xs, (f x).isSome) ∧ ys = xs.filterMap f := by
  intro xs
  induction xs with
  | nil => exact fun {ys} => ⟨fun h => ⟨by simp, (Except.ok.inj h).symm⟩, fun h => by rw [h.2]; rfl⟩
  | cons x xs ih =>
    intro ys
    unfold mapAll
    cases hx : f x with
    | none => simp [orRaise, hx]
    | some y =>
      cases hxs : mapAll (fun x => orRaise (f x) (err x)) xs with
      | error e =>
        have hnone : ¬ ∀ x ∈ xs, (f x).isSome := by
          intro h
          have := ih.mpr ⟨h, rfl⟩
          simp [hxs] at this
        simp [orRaise, hx, hnone]
      | ok zs =>
        obtain ⟨hsome, rfl⟩ := ih.mp hxs
        simp only [orRaise, List.forall_mem_cons, hx, Option.isSome_some, true_and,
          Except.ok.injEq, List.filterMap_cons, and_iff_right hsome]
        exact eq_comm

theorem metadataRecordsAtPath_ne_null : ∀ {path : List PyStr} {value : Json},
    metadataRecordsAtPath value path ≠ some .null := by
  intro path
  induction path with
  | nil => intro value; cases value <;> simp [metadataRecordsAtPath]
  | cons field path ih =>
    intro value
    cases value with
    | obj ms => exact ih
    | _ => simp [metadataRecordsAtPath]

namespace ReadArguments

/-- What the verifier expects for the same arguments. -/
def expectations (args : ReadArguments) : Expectations where
  ticketId := some args.ticketId
  eventMirrors := some args.eventMirrors
  agentSpawns := some args.agentSpawns
  metadataHash := some (.str args.metadataHash)
  stateMachine := args.stateMachine
  executionModel := args.executionModel
  completionReceipt := args.completionReceipt
  metadata := some args.metadata

/-- Records are given for each type of events that has some, and they are not `None`. -/
def HasMirrors (args : ReadArguments) : Prop :=
  ∀ x ∈ metadataEventMirrorPaths, ∃ records,
    Dict.get? args.eventMirrors x.1 = some records ∧ records ≠ some .null

theorem hasMirrors_readArgumentsOf (ticketId : PyStr) (metadata : Members)
    (stateMachine executionModel completionReceipt : Option Json) :
    (readArgumentsOf ticketId metadata stateMachine executionModel completionReceipt).HasMirrors := by
  intro x hx
  refine ⟨metadataEventMirrorRecords (.obj metadata) x.1, ?_, ?_⟩
  · exact Dict.get?_map_keys (d := metadataEventMirrorPaths) _ (List.mem_map_of_mem hx)
  · unfold metadataEventMirrorRecords
    cases Dict.get? metadataEventMirrorPaths x.1 with
    | none => simp
    | some path => exact metadataRecordsAtPath_ne_null

variable {args : ReadArguments}

/-- The exporter has the records of the verifier, if these have no problem. -/
theorem HasMirrors.requiredRecords_eq_ok (h : args.HasMirrors)
    {records : Dict PyStr (List Members)} : requiredRecords args.eventMirrors = .ok records ↔
      recordStructureProblems args.expectations = [] ∧
        records = eventMirrorRecords args.expectations := by
  have hexpected : ∀ x ∈ metadataEventMirrorPaths, expectedRecords args.eventMirrors x.1 =
      objectRecords? (Dict.get? args.eventMirrors x.1).join := by
    intro x hx
    obtain ⟨records, hget, hnull⟩ := h x hx
    unfold expectedRecords
    rw [hget]
    split
    · simp at *
    · next hrecords => exact absurd (Option.some.inj hrecords) hnull
    · next hrecords =>
      rw [← Option.some.inj hrecords]
      rfl
  unfold requiredRecords recordStructureProblems eventMirrorRecords
  rw [mapAll_orRaise_eq_ok]
  simp only [expectations, List.flatMap_eq_nil_iff, issueUnless_eq_nil, Option.isSome_map]
  refine and_congr (forall₂_congr fun x hx => by rw [hexpected x hx]) ?_
  rw [List.filterMap_congr fun x hx => by rw [← hexpected x hx]]

end ReadArguments

/-! ## What only the verifier checks -/

/-- The exporter does not check the hash of an event and its link, that an id is new, the type of
the first event, and the execution binding. -/
def ChainProblem.VerifierOnly : ChainProblem → Prop
  | .eventHash _ | .previousHash _ | .duplicateId _ | .firstEvent | .binding _ => True
  | _ => False

section Clean

variable {printable : CodePoint → Bool} {exp : Expectations} {s s' : ChainState}
  {event : Members} {execution : ExecutionMirror}

namespace ChainState

/-- Nothing was found so far that the exporter checks as well. -/
structure Clean (s : ChainState) : Prop where
  problems : ∀ p ∈ s.problems, p.VerifierOnly
  chainProblems : ∀ p ∈ s.chainProblems, p.VerifierOnly
  payload : s.invalidPayload = false
  artifactPayload : s.invalidArtifactPayload = false
  eventType : s.invalidEventType = false
  schemaFields : s.schemaFields = []

theorem clean_of_step (h : (s.step printable exp event execution).Clean) : s.Clean where
  problems p hp := h.problems p (List.mem_append_left _ hp)
  chainProblems p hp := h.chainProblems p (List.mem_append_left _ hp)
  payload := (Bool.or_eq_false_iff.mp h.payload).1
  artifactPayload := (Bool.or_eq_false_iff.mp h.artifactPayload).1
  eventType := (Bool.or_eq_false_iff.mp h.eventType).1
  schemaFields := (List.append_eq_nil_iff.mp h.schemaFields).1

/-- The links of an event with its schema are checked by the verifier only. -/
theorem verifierOnly_linkProblems {ticketId : Option PyStr}
    (h : eventSchemaIssues event ticketId = []) :
    ∀ p ∈ s.linkProblems event [], p.VerifierOnly := by
  obtain ⟨id, hid, hvalid⟩ := (EventFields.of_issues h).eventId
  have hne : id.isEmpty = false := by
    cases id with
    | nil => simp [isEventId] at hvalid
    | cons c id => rfl
  intro p hp
  simp only [linkProblems, hid, hne, issueUnless, List.mem_append] at hp
  rcases hp with (hp | hp) | hp
  · split_ifs at hp <;> simp_all [ChainProblem.VerifierOnly]
  · split_ifs at hp <;> simp_all [ChainProblem.VerifierOnly]
  · split_ifs at hp <;> simp_all [ChainProblem.VerifierOnly]

/-- An event keeps the state clean exactly when it has its schema and matches its record. -/
theorem clean_step_iff (hs : s.Clean) (hmismatches : s.mismatches = []) :
    (s.step printable exp event execution).Clean ↔
      eventSchemaIssues event exp.ticketId = [] ∧
        ∀ r, recordStep? (eventMirrorRecords exp) s.indexes event = some r → r.mismatch = false := by
  constructor
  · intro h
    refine ⟨(List.append_eq_nil_iff.mp h.schemaFields).2, fun r hr => ?_⟩
    by_contra hmismatch
    have hp := h.problems (.records r.eventType) (List.mem_append_right _ (by
      simp [hr, hmismatches, hmismatch]))
    exact hp
  · rintro ⟨hissues, hrecords⟩
    have hfields := EventFields.of_issues hissues
    obtain ⟨payload, hpayload⟩ := hfields.payload
    obtain ⟨eventType, htype, hallowed⟩ := hfields.eventType
    have hsome : payload? event = some payload := payload?_eq_some.mpr hpayload
    refine ⟨?_, ?_, ?_, ?_, ?_, ?_⟩
    · intro p hp
      rcases List.mem_append.mp hp with hp | hp
      · exact hs.problems p hp
      · cases hr : recordStep? (eventMirrorRecords exp) s.indexes event with
        | none => simp [hr] at hp
        | some r => simp [hr, hrecords r hr] at hp
    · intro p hp
      rcases List.mem_append.mp hp with hp | hp
      · exact hs.chainProblems p hp
      · rw [hissues] at hp
        exact verifierOnly_linkProblems hissues p hp
    · simp [step, hs.payload, hsome]
    · simp [step, hs.artifactPayload, hsome]
    · simp [step, hs.eventType, hasAllowedType, htype, hallowed]
    · simp [step, hs.schemaFields, hissues]

end ChainState

end Clean

/-! ## The two loops -/

section Agreement

variable {printable : CodePoint → Bool} {args : ReadArguments} {r r' : EventReader}
  {s s' : ChainState} {event payload : Members} {eventType : PyStr}

/-- The record of an event of the type with the payload. -/
theorem recordStep?_eq (records : Dict PyStr (List Members)) (indexes : Dict PyStr ℕ)
    (htype : event.get "event_type" = .str eventType) (hpayload : payload? event = some payload) :
    recordStep? records indexes event = (Dict.get? records eventType).map fun expected =>
      ⟨eventType, (Dict.get? indexes eventType).getD 0,
        (expected[(Dict.get? indexes eventType).getD 0]?).all fun record =>
          !eventPayloadMatchesMetadataRecord payload record⟩ := by
  unfold recordStep?
  simp only [htype, hpayload, Json.text?, Option.bind_eq_bind, Option.bind_some]
  cases Dict.get? records eventType with
  | none => rfl
  | some expected =>
    simp only [Option.bind_some, Option.map_some]
    cases expected[(Dict.get? indexes eventType).getD 0]? <;> rfl

/-- The exporter goes on with the indexes of the verifier, if the record matches. -/
theorem nextIndexes_eq_ok {records : Dict PyStr (List Members)} {indexes indexes' : Dict PyStr ℕ}
    (hstarted : Dict.get? records (lit "step_started") = none)
    (hwritten : Dict.get? records (lit "artifact_written") = none)
    (htype : event.get "event_type" = .str eventType) (hpayload : payload? event = some payload) :
    nextIndexes records indexes eventType payload = .ok indexes' ↔
      (∀ r, recordStep? records indexes event = some r → r.mismatch = false) ∧
        indexes' = match recordStep? records indexes event with
          | some r => Dict.set indexes r.eventType (r.index + 1)
          | none => indexes := by
  rw [recordStep?_eq records indexes htype hpayload]
  unfold nextIndexes
  by_cases hother : eventType = lit "step_started" ∨ eventType = lit "artifact_written"
  · have hnone : Dict.get? records eventType = none := by
      rcases hother with rfl | rfl
      · exact hstarted
      · exact hwritten
    rw [if_pos hother, hnone]
    simpa using eq_comm
  rw [if_neg hother]
  cases Dict.get? records eventType with
  | none => simpa using eq_comm
  | some expected =>
    dsimp only [Option.map_some]
    cases expected[(Dict.get? indexes eventType).getD 0]? with
    | none => simp
    | some record =>
      by_cases hmatches : eventPayloadMatchesMetadataRecord payload record = true
      · simpa [hmatches] using eq_comm
      · simp [hmatches]

theorem get?_eventMirrorRecords {exp : Expectations}
    (h : eventType ∉ Dict.keys metadataEventMirrorPaths) :
    Dict.get? (eventMirrorRecords exp) eventType = none := by
  rw [Dict.get?_eq_none_iff]
  intro hmem
  obtain ⟨x, hx, rfl⟩ := List.mem_map.mp hmem
  unfold eventMirrorRecords at hx
  split at hx
  · simp at hx
  · obtain ⟨y, hy, hyx⟩ := List.mem_filterMap.mp hx
    obtain ⟨records, -, rfl⟩ := Option.map_eq_some_iff.mp hyx
    exact h (List.mem_map_of_mem hy)

/-- The exporter and the verifier have read the same events, and the exporter did not raise. -/
structure Agree (r : EventReader) (s : ChainState) : Prop where
  clean : s.Clean
  mismatches : s.mismatches = []
  eventCount : s.eventCount = r.eventCount
  indexes : s.indexes = r.indexes
  marker : s.marker = r.marker
  agents : s.agents = some r.agents
  structurallyValid : r.agents.structurallyValid = true
  ticket : s.ticket = r.ticket
  execution : s.execution = r.execution

theorem EventReader.read_eq_ok {records : Dict PyStr (List Members)} {lineno : ℕ} :
    r.read printable args records lineno event = .ok r' ↔
      eventSchemaIssues event (some args.ticketId) = [] ∧
        ∃ eventType payload execution indexes, event.get "event_type" = .str eventType ∧
          payload? event = some payload ∧
          r.execution.consume event (r.eventCount + 1) = .ok execution ∧
          nextIndexes records r.indexes eventType payload = .ok indexes ∧
          r' = r.after printable eventType event payload execution indexes := by
  have hmap : ∀ {x : Except TypeError ExecutionMirror} {y : ExecutionMirror},
      x.mapError EventsError.typeError = .ok y ↔ x = .ok y := by
    intro x y
    cases x <;> simp [Except.mapError]
  simp only [read, bind_eq_ok, orRaise_eq_ok, require_eq_ok, hmap, Option.filter_eq_some_iff,
    Json.text?_eq_some, List.isEmpty_iff, Except.ok.injEq]
  constructor
  · rintro ⟨eventType, ⟨htype, -⟩, payload, hpayload, -, hissues, execution, hexecution, indexes,
      hindexes, rfl⟩
    exact ⟨hissues, eventType, payload, execution, indexes, htype, hpayload, hexecution, hindexes,
      rfl⟩
  · rintro ⟨hissues, eventType, payload, execution, indexes, htype, hpayload, hexecution, hindexes,
      rfl⟩
    obtain ⟨eventType', htype', hallowed⟩ := (EventFields.of_issues hissues).eventType
    obtain rfl := Json.str.inj (htype.symm.trans htype')
    exact ⟨eventType, ⟨htype, by simpa using hallowed⟩, payload, hpayload, (), hissues, execution,
      hexecution, indexes, hindexes, rfl⟩

theorem nextIndexes_records {exp : Expectations} {indexes indexes' : Dict PyStr ℕ}
    (htype : event.get "event_type" = .str eventType) (hpayload : payload? event = some payload) :
    nextIndexes (eventMirrorRecords exp) indexes eventType payload = .ok indexes' ↔
      (∀ r, recordStep? (eventMirrorRecords exp) indexes event = some r → r.mismatch = false) ∧
        indexes' = match recordStep? (eventMirrorRecords exp) indexes event with
          | some r => Dict.set indexes r.eventType (r.index + 1)
          | none => indexes :=
  nextIndexes_eq_ok (get?_eventMirrorRecords (by decide)) (get?_eventMirrorRecords (by decide))
    htype hpayload

/-- An event that both read keeps the agreement. -/
theorem Agree.after (h : Agree r s) {execution : ExecutionMirror} {indexes : Dict PyStr ℕ}
    (hissues : eventSchemaIssues event (some args.ticketId) = [])
    (htype : event.get "event_type" = .str eventType) (hpayload : payload? event = some payload)
    (hindexes : nextIndexes (eventMirrorRecords args.expectations) r.indexes eventType payload =
      .ok indexes) :
    Agree (r.after printable eventType event payload execution indexes)
      (s.step printable args.expectations event execution) := by
  obtain ⟨hmatches, hnext⟩ := (nextIndexes_records htype hpayload).mp hindexes
  rw [← h.indexes] at hmatches hnext
  refine ⟨(ChainState.clean_step_iff h.clean h.mismatches).mpr ⟨hissues, hmatches⟩, ?_, ?_, ?_, ?_,
    ?_, ?_, ?_, rfl⟩
  · change (((recordStep? _ _ _).filter _).map _).toList ++ s.mismatches = []
    rw [h.mismatches, List.append_nil]
    cases hr : recordStep? (eventMirrorRecords args.expectations) s.indexes event with
    | none => rfl
    | some r => simp [hmatches r hr]
  · exact congrArg (· + 1) h.eventCount
  · exact hnext.symm
  · exact congrArg ((hashMarker? event).or ·) h.marker
  · change agentsAfter s.agents event = some _
    rw [h.agents]
    simp [agentsAfter, htype, payload?_eq_some.mp hpayload, EventReader.after]
  · rw [← h.structurallyValid, EventReader.after]
    split_ifs
    · exact (AgentMirror.step_consume r.agents eventType _).structurallyValid
    · rfl
  · change s.ticket.consume event (s.eventCount + 1) = _
    rw [h.ticket, h.eventCount]
    rfl

/-- What the exporter reads, the verifier consumes. -/
theorem Agree.of_read (h : Agree r s) {lineno : ℕ}
    (hread : r.read printable args (eventMirrorRecords args.expectations) lineno event = .ok r') :
    ∃ s', s.consume printable args.expectations event = .ok s' ∧ Agree r' s' := by
  obtain ⟨hissues, eventType, payload, execution, indexes, htype, hpayload, hexecution, hindexes,
    rfl⟩ := (EventReader.read_eq_ok).mp hread
  rw [← h.execution, ← h.eventCount] at hexecution
  exact ⟨_, ChainState.consume_eq_ok.mpr ⟨execution, hexecution, rfl⟩,
    h.after hissues htype hpayload hindexes⟩

/-- The exporter reads what leaves the verifier clean. -/
theorem Agree.of_consume (h : Agree r s) {lineno : ℕ}
    (hconsume : s.consume printable args.expectations event = .ok s') (hclean : s'.Clean) :
    ∃ r', r.read printable args (eventMirrorRecords args.expectations) lineno event = .ok r' ∧
      Agree r' s' := by
  obtain ⟨execution, hexecution, rfl⟩ := ChainState.consume_eq_ok.mp hconsume
  obtain ⟨hissues, hmatches⟩ := (ChainState.clean_step_iff h.clean h.mismatches).mp hclean
  have hfields := EventFields.of_issues hissues
  obtain ⟨payload, hobj⟩ := hfields.payload
  obtain ⟨eventType, htype, -⟩ := hfields.eventType
  have hpayload : payload? event = some payload := payload?_eq_some.mpr hobj
  rw [h.indexes] at hmatches
  have hindexes := (nextIndexes_records htype hpayload).mpr ⟨hmatches, rfl⟩
  rw [h.execution, h.eventCount] at hexecution
  exact ⟨_, (EventReader.read_eq_ok).mpr ⟨hissues, eventType, payload, execution, _, htype, hpayload,
    hexecution, hindexes, rfl⟩, h.after hissues htype hpayload hindexes⟩

theorem clean_of_consumeEvents {events : List (ℕ × Members)} : ∀ {s : ChainState},
    consumeEvents printable args.expectations s events = .ok s' → s'.Clean → s.Clean := by
  induction events with
  | nil =>
    intro s h hclean
    obtain rfl := Except.ok.inj h
    exact hclean
  | cons e events ih =>
    intro s h hclean
    obtain ⟨k, hk, hrest⟩ := consumeEvents_cons.mp h
    obtain ⟨execution, -, rfl⟩ := ChainState.consume_eq_ok.mp hk
    exact ChainState.clean_of_step (ih hrest hclean)

theorem Agree.of_readAll {events : List (ℕ × Members)} : ∀ {r : EventReader} {s : ChainState},
    Agree r s →
    r.readAll printable args (eventMirrorRecords args.expectations) events = .ok r' →
      ∃ s', consumeEvents printable args.expectations s events = .ok s' ∧ Agree r' s' := by
  induction events with
  | nil =>
    intro r s h hread
    obtain rfl := Except.ok.inj hread
    exact ⟨s, rfl, h⟩
  | cons e events ih =>
    intro r s h hread
    rw [EventReader.readAll, List.foldlM_cons, bind_eq_ok] at hread
    obtain ⟨k, hk, hrest⟩ := hread
    obtain ⟨c, hc, hagree⟩ := h.of_read hk
    obtain ⟨s', hs', hagree'⟩ := ih hagree hrest
    exact ⟨s', consumeEvents_cons.mpr ⟨c, hc, hs'⟩, hagree'⟩

theorem Agree.of_consumeEvents {events : List (ℕ × Members)} :
    ∀ {r : EventReader} {s : ChainState}, Agree r s →
    consumeEvents printable args.expectations s events = .ok s' → s'.Clean →
      ∃ r', r.readAll printable args (eventMirrorRecords args.expectations) events = .ok r' ∧
        Agree r' s' := by
  induction events with
  | nil =>
    intro r s h hrun _
    obtain rfl := Except.ok.inj hrun
    exact ⟨r, rfl, h⟩
  | cons e events ih =>
    intro r s h hrun hclean
    obtain ⟨c, hc, hrest⟩ := consumeEvents_cons.mp hrun
    obtain ⟨k, hk, hagree⟩ := h.of_consume hc (clean_of_consumeEvents hrest hclean)
    obtain ⟨r', hr', hagree'⟩ := ih hagree hrest hclean
    refine ⟨r', ?_, hagree'⟩
    rw [EventReader.readAll, List.foldlM_cons, bind_eq_ok]
    exact ⟨k, hk, hr'⟩

/-! ## The end of the events -/

theorem forall_issueUnless {p : ChainProblem} (hp : ¬ p.VerifierOnly) {ok : Bool} :
    (∀ q ∈ issueUnless ok p, q.VerifierOnly) ↔ ok = true := by
  cases ok <;> simp [issueUnless, hp]

theorem forall_map_verifierOnly {α : Type} {xs : List α} {f : α → ChainProblem}
    (hf : ∀ x, ¬ (f x).VerifierOnly) : (∀ p ∈ xs.map f, p.VerifierOnly) ↔ xs = [] := by
  cases xs <;> simp [hf]

namespace ChainState

/-- The problems at the end are those of the verifier only. -/
theorem forall_finish_iff {exp : Expectations} : (∀ p ∈ s.finish exp, p.VerifierOnly) ↔
    s.Clean ∧ s.markerOk exp = true ∧ (∀ p ∈ s.recordProblems exp, p.VerifierOnly) ∧
      (s.agents.all fun mirror => !mirror.structurallyValid || mirror.finish) = true ∧
      s.ticket.finish = [] ∧ s.execution.finish = [] := by
  have hfirst : ∀ ok, ∀ q ∈ issueUnless ok ChainProblem.firstEvent, q.VerifierOnly := by
    intro ok q hq
    cases ok <;> simp_all [issueUnless, ChainProblem.VerifierOnly]
  have hbinding : ∀ p ∈ s.binding.finish.map ChainProblem.binding, p.VerifierOnly := by
    intro p hp
    obtain ⟨x, -, rfl⟩ := List.mem_map.mp hp
    trivial
  simp only [finish, payloadProblems, eventTypeProblems, schemaProblems, List.forall_mem_append,
    forall_issueUnless (p := .payload) id, forall_issueUnless (p := .artifactPayload) id,
    forall_issueUnless (p := .eventType) id, forall_issueUnless (p := .schema _) id,
    forall_issueUnless (p := .metadataHash) id, forall_issueUnless (p := .agents) id,
    forall_map_verifierOnly (f := .ticket) fun _ => id,
    forall_map_verifierOnly (f := .execution) fun _ => id, Bool.not_eq_true', List.isEmpty_iff]
  constructor
  · rintro ⟨⟨⟨⟨⟨⟨⟨⟨⟨⟨⟨hproblems, hchain⟩, -⟩, hpayload, hartifact⟩, htype⟩, hschema⟩, hmarker⟩,
      hrecords⟩, hagents⟩, hticket⟩, -⟩, hexecution⟩
    exact ⟨⟨hproblems, hchain, hpayload, hartifact, htype, hschema⟩, hmarker, hrecords, hagents,
      hticket, hexecution⟩
  · rintro ⟨hclean, hmarker, hrecords, hagents, hticket, hexecution⟩
    exact ⟨⟨⟨⟨⟨⟨⟨⟨⟨⟨⟨hclean.problems, hclean.chainProblems⟩, hfirst _⟩, hclean.payload,
      hclean.artifactPayload⟩, hclean.eventType⟩, hclean.schemaFields⟩, hmarker⟩, hrecords⟩,
      hagents⟩, hticket⟩, hbinding⟩, hexecution⟩

end ChainState

/-- Both readers accept the end of the events, or neither does. -/
theorem Agree.exists_finish_iff (h : Agree r s) :
    (∃ summary, r.finish args (eventMirrorRecords args.expectations) = .ok summary) ↔
      ∀ p ∈ s.finish args.expectations, p.VerifierOnly := by
  have hmarker : s.markerOk args.expectations = r.markerOk args := by
    unfold ChainState.markerOk EventReader.markerOk
    rw [h.marker]
    cases r.marker <;> rfl
  have hrecords : (∀ p ∈ s.recordProblems args.expectations, p.VerifierOnly) ↔
      ∀ x ∈ eventMirrorRecords args.expectations,
        (Dict.get? r.indexes x.1).getD 0 = x.2.length := by
    simp only [ChainState.recordProblems, List.mem_flatMap, h.mismatches, h.indexes,
      List.contains_nil, Bool.or_false]
    constructor
    · intro hall x hx
      exact beq_iff_eq.mp ((forall_issueUnless (p := .records x.1) id).mp
        fun q hq => hall q ⟨x, hx, hq⟩)
    · rintro hall p ⟨x, hx, hp⟩
      exact (forall_issueUnless (p := .records x.1) id).mpr (beq_iff_eq.mpr (hall x hx)) p hp
  rw [ChainState.forall_finish_iff, hmarker, hrecords, h.agents, h.ticket, h.execution]
  simp only [EventReader.finish, bind_eq_ok, requireAll_eq_ok, require_eq_ok, List.isEmpty_iff,
    Option.all_some, h.structurallyValid, Bool.not_true, Bool.false_or, beq_iff_eq]
  constructor
  · rintro ⟨summary, -, hcounts, -, hagents, -, hticket, -, hexecution, -, hmarker, -⟩
    exact ⟨h.clean, hmarker, hcounts, hagents, hticket, hexecution⟩
  · rintro ⟨-, hmarker, hcounts, hagents, hticket, hexecution⟩
    exact ⟨_, (), hcounts, (), hagents, (), hticket, (), hexecution, (), hmarker, rfl⟩

theorem forall_recordStructureProblems {exp : Expectations} :
    (∀ p ∈ recordStructureProblems exp, p.VerifierOnly) ↔ recordStructureProblems exp = [] := by
  constructor
  · intro h
    refine List.eq_nil_iff_forall_not_mem.mpr fun p hp => ?_
    have hfalse := h p hp
    unfold recordStructureProblems at hp
    split at hp
    · simp at hp
    · obtain ⟨⟨eventType, path⟩, -, hx⟩ := List.mem_flatMap.mp hp
      dsimp only [issueUnless] at hx
      split_ifs at hx
      · simp at hx
      · rw [List.mem_singleton.mp hx] at hfalse
        exact hfalse
  · intro h
    simp [h]

/-- At the start both readers check the structure of the metadata. -/
theorem clean_init_iff : (ChainState.init args.expectations).Clean ↔
    recordStructureProblems args.expectations = [] ∧
      (AgentMirror.init args.agentSpawns).structurallyValid = true := by
  have hproblems : (∀ p ∈ (ChainState.init args.expectations).problems, p.VerifierOnly) ↔
      recordStructureProblems args.expectations = [] ∧
        (AgentMirror.init args.agentSpawns).structurallyValid = true := by
    rw [← forall_recordStructureProblems]
    exact List.forall_mem_append.trans
      (and_congr_right fun _ => forall_issueUnless (p := .agentStructure) id)
  exact ⟨fun h => hproblems.mp h.problems,
    fun h => ⟨hproblems.mpr h, by simp [ChainState.init], rfl, rfl, rfl, rfl⟩⟩

theorem agree_init (h : (ChainState.init args.expectations).Clean) :
    Agree (EventReader.init args (eventMirrorRecords args.expectations))
      (ChainState.init args.expectations) :=
  ⟨h, rfl, rfl, rfl, rfl, rfl, (clean_init_iff.mp h).2, rfl, rfl⟩

/-! ## Agreement of the readers -/

/-- The verifier reports where it stopped. -/
theorem complete_of_report {exp : Expectations} {stop : Option StreamStop}
    {facts : Dict PyStr (PyStr × PyStr)} {problems : List ChainProblem}
    (h : s.report exp stop = (facts, problems)) (honly : ∀ p ∈ problems, p.VerifierOnly) :
    stop = none ∧ ∀ p ∈ s.finish exp, p.VerifierOnly := by
  cases stop with
  | none =>
    obtain ⟨-, rfl⟩ := Prod.mk.inj h
    exact ⟨rfl, honly⟩
  | some stop =>
    have hmem : ChainProblem.stopped stop ∈ problems := by
      rw [← (Prod.mk.inj h).2]
      cases stop <;> simp
    exact absurd (honly _ hmem) id

theorem ReadArguments.HasMirrors.returns_iff (h : args.HasMirrors) (content : Bytes)
    (delivered delivered' : ℕ) :
    (∃ summary, readEvents printable args content delivered = .ok summary) ↔
      ∃ facts problems,
        verifyEventChain printable args.expectations content delivered' = .ok (facts, problems) ∧
          ∀ p ∈ problems, p.VerifierOnly := by
  constructor
  · rintro ⟨summary, hread⟩
    unfold readEvents at hread
    simp only [bind_eq_ok, require_eq_ok] at hread
    obtain ⟨records, hrecords, -, hagents, r, hr, hend⟩ := hread
    obtain ⟨hstructure, rfl⟩ := h.requiredRecords_eq_ok.mp hrecords
    obtain ⟨s, hs, hagree⟩ :=
      (agree_init (clean_init_iff.mpr ⟨hstructure, hagents⟩)).of_readAll hr
    cases hstop : (eventStream content delivered).2 with
    | some stop => simp [hstop] at hend
    | none =>
      rw [hstop] at hend
      refine ⟨s.artifactFacts, s.finish args.expectations, ?_,
        hagree.exists_finish_iff.mp ⟨summary, hend⟩⟩
      unfold verifyEventChain
      simp only [eventStream_eq_of_complete hstop delivered', hs, hstop]
      rfl
  · rintro ⟨facts, problems, hverify, honly⟩
    unfold verifyEventChain at hverify
    dsimp only at hverify
    cases hrun : consumeEvents printable args.expectations (ChainState.init args.expectations)
        (eventStream content delivered').1 with
    | error e => simp [hrun, Except.map] at hverify
    | ok s =>
      rw [hrun] at hverify
      obtain ⟨hstop, hfinish⟩ := complete_of_report (Except.ok.inj hverify) honly
      have hinit := clean_of_consumeEvents hrun (ChainState.forall_finish_iff.mp hfinish).1
      obtain ⟨r, hr, hagree⟩ := (agree_init hinit).of_consumeEvents hrun
        (ChainState.forall_finish_iff.mp hfinish).1
      obtain ⟨summary, hend⟩ := hagree.exists_finish_iff.mpr hfinish
      refine ⟨summary, ?_⟩
      unfold readEvents
      simp only [bind_eq_ok, require_eq_ok, eventStream_eq_of_complete hstop delivered]
      refine ⟨_, h.requiredRecords_eq_ok.mpr ⟨(clean_init_iff.mp hinit).1, rfl⟩, (),
        (clean_init_iff.mp hinit).2, r, hr, ?_⟩
      rw [hstop]
      exact hend

end Agreement

/-- The exporter reads the events of a ticket exactly when the verifier finds nothing in them but
what it alone checks. -/
theorem exists_readEvents_iff (printable : CodePoint → Bool) (ticketId : PyStr) (metadata : Members)
    (stateMachine executionModel completionReceipt : Option Json) (content : Bytes)
    (delivered delivered' : ℕ) :
    (∃ summary, readEvents printable
      (readArgumentsOf ticketId metadata stateMachine executionModel completionReceipt) content
        delivered = .ok summary) ↔
      ∃ facts problems, verifyEventChain printable
        (expectationsOf (some ticketId) metadata stateMachine executionModel completionReceipt) content
          delivered' = .ok (facts, problems) ∧ ∀ p ∈ problems, p.VerifierOnly :=
  (ReadArguments.hasMirrors_readArgumentsOf ticketId metadata stateMachine executionModel
    completionReceipt).returns_iff content delivered delivered'

end Icode
