import Icode.AgentMirror
import Icode.BindingMirror
import Icode.EventStream
import Icode.ExecutionMirror
import Icode.HashChain
import Icode.PyRepr
import Icode.TicketState

/-!
# The verifier of an event chain

`verifyEventChain` (`_verify_event_chain`) reads the events of a ticket once. It checks each
event (its schema, its own hash and the link to the event before), feeds the mirrors, and
collects the problems; what it keeps of the events are the digests of the artifacts. A
problem stands for a message : the verifier shows the first ones and counts the rest, and
its report is empty exactly when no problem was found.

An accepted file was read to its end, and every event of it has its schema and its place in
the hash chain (`Accepted`). So the last hash of an accepted file commits to all its events
(`verifyEventChain_commits`), and the events are a history of the ticket whenever every
`close_phase` event names a phase (`ticketHistory_iff`).
-/

namespace Icode

open HashChain Py

/-! ## What is expected -/

/-- The keyword arguments of `_verify_event_chain`; an argument that is not given is `none`. -/
structure Expectations where
  ticketId : Option PyStr
  eventMirrors : Option (Dict PyStr (Option Json))
  agentSpawns : Option (Option Json)
  metadataHash : Option Json
  stateMachine : Option Json
  executionModel : Option Json
  completionReceipt : Option Json
  metadata : Option Members

/-- What is expected for the metadata of a ticket and a snapshot of its contract. -/
def expectationsOf (ticketId : Option PyStr) (metadata : Members)
    (stateMachine executionModel completionReceipt : Option Json) : Expectations where
  ticketId := ticketId
  eventMirrors := some (metadataEventMirrorPaths.map fun (eventType, _) =>
    (eventType, metadataEventMirrorRecords (.obj metadata) eventType))
  agentSpawns := some (metadataAgentSpawnRecords (.obj metadata))
  metadataHash := some (.str (metadataContentHash metadata))
  stateMachine := stateMachine
  executionModel := executionModel
  completionReceipt := completionReceipt
  metadata := some metadata

/-! ## Problems -/

/-- What the verifier reports; an index is that of the event. -/
inductive ChainProblem where
  /-- 工单 metadata 的事件镜像结构无效 -/
  | recordStructure (eventType : PyStr)
  /-- 工单 metadata 的 Agent 调用结构无效 -/
  | agentStructure
  | stopped (stop : StreamStop)
  /-- 第 i 条事件 event_id 结构无效 -/
  | eventId (i : ℕ)
  /-- 第 i 条事件 event_id 重复 -/
  | duplicateId (i : ℕ)
  /-- 第 i 条事件 previous_event_hash 断链 -/
  | previousHash (i : ℕ)
  /-- 第 i 条事件 event_hash 与内容不符 -/
  | eventHash (i : ℕ)
  /-- 首条事件类型 -/
  | firstEvent
  /-- 事件 payload 结构无效 -/
  | payload
  /-- artifact_written 事件 payload 结构无效 -/
  | artifactPayload
  /-- 事件 event_type 无效 -/
  | eventType
  /-- 事件不符合 pinned ticket-event schema -/
  | schema (fields : List PyStr)
  /-- 事件链最终 metadata_hash_after 与工单 metadata 摘要不一致 -/
  | metadataHash
  /-- 事件与 metadata 的记录不一致 -/
  | records (eventType : PyStr)
  /-- agent_spawned/agent_result 事件与 metadata 不一致 -/
  | agents
  | ticket (p : TicketProblem)
  | binding (p : BindingIssue)
  | execution (p : ExecutionProblem)

/-! ## The records of the metadata -/

/-- `expected_event_mirrors.get(event_type, [])`, where `None` has no records. -/
def expectedRecords (mirrors : Dict PyStr (Option Json)) (eventType : PyStr) :
    Option (List Members) :=
  match Dict.get? mirrors eventType with
  | none => some []
  | some (some .null) => some []
  | some records => objectRecords? records

/-- `event_mirror_records`. -/
def eventMirrorRecords (exp : Expectations) : Dict PyStr (List Members) :=
  match exp.eventMirrors with
  | none => []
  | some mirrors => metadataEventMirrorPaths.filterMap fun (eventType, _) =>
      (expectedRecords mirrors eventType).map fun records => (eventType, records)

/-- The records that are no lists of objects. -/
def recordStructureProblems (exp : Expectations) : List ChainProblem :=
  match exp.eventMirrors with
  | none => []
  | some mirrors => metadataEventMirrorPaths.flatMap fun (eventType, _) =>
      issueUnless (expectedRecords mirrors eventType).isSome (.recordStructure eventType)

/-- The record an event has to match, when its type has records. -/
structure RecordStep where
  eventType : PyStr
  index : ℕ
  mismatch : Bool

def recordStep? (records : Dict PyStr (List Members)) (indexes : Dict PyStr ℕ) (event : Members) :
    Option RecordStep := do
  let eventType ← (event.get "event_type").text?
  let expected ← Dict.get? records eventType
  let index := (Dict.get? indexes eventType).getD 0
  let mismatch :=
    match expected[index]?, payload? event with
    | none, _ => true
    | some record, some payload => !eventPayloadMatchesMetadataRecord payload record
    | some _, none => false
  pure ⟨eventType, index, mismatch⟩

/-! ## The state of the verifier -/

/-- The local variables of the loop over the events. -/
structure ChainState where
  problems : List ChainProblem
  chainProblems : List ChainProblem
  artifactFacts : Dict PyStr (PyStr × PyStr)
  seenIds : List PyStr
  previousHash : Json
  eventCount : ℕ
  firstTypeValid : Bool
  invalidPayload : Bool
  invalidArtifactPayload : Bool
  invalidEventType : Bool
  schemaFields : List PyStr
  /-- The last `metadata_hash_after` that is truthy. -/
  marker : Option Json
  indexes : Dict PyStr ℕ
  mismatches : List PyStr
  agents : Option AgentMirror
  ticket : TicketMirror
  binding : BindingMirror
  execution : ExecutionMirror

namespace ChainState

/-- Before the first event. -/
def init (exp : Expectations) : ChainState where
  problems := recordStructureProblems exp ++
    issueUnless ((exp.agentSpawns.map AgentMirror.init).all (·.structurallyValid)) .agentStructure
  chainProblems := []
  artifactFacts := []
  seenIds := []
  previousHash := .str genesisHash
  eventCount := 0
  firstTypeValid := false
  invalidPayload := false
  invalidArtifactPayload := false
  invalidEventType := false
  schemaFields := []
  marker := none
  indexes := (eventMirrorRecords exp).map fun (eventType, _) => (eventType, 0)
  mismatches := []
  agents := exp.agentSpawns.map AgentMirror.init
  ticket := TicketMirror.init exp.stateMachine exp.metadata
  binding := BindingMirror.init exp.metadata
  execution := ExecutionMirror.init exp.executionModel exp.completionReceipt

/-- The id of an event, its link and its own hash. -/
def linkProblems (s : ChainState) (event : Members) (issues : List PyStr) : List ChainProblem :=
  let i := s.eventCount + 1
  (match event.get "event_id" with
    | .str id =>
      if id.isEmpty then [.eventId i]
      -- an id that violates the schema is reported there
      else if issues.contains (lit "event_id") then []
      else if s.seenIds.contains id then [.duplicateId i]
      else []
    | _ => [.eventId i]) ++
  issueUnless ((event.get "previous_event_hash").pyEq s.previousHash) (.previousHash i) ++
  issueUnless ((event.get "event_hash").isText (canonicalEventHash event)) (.eventHash i)

/-- The ids seen after the event. -/
def idsAfter (s : ChainState) (event : Members) (issues : List PyStr) : List PyStr :=
  match event.get "event_id" with
  | .str id =>
    if id.isEmpty || issues.contains (lit "event_id") || s.seenIds.contains id then s.seenIds
    else id :: s.seenIds
  | _ => s.seenIds

end ChainState

/-- `payload.get("metadata_hash_after")` of a payload that is a dict, when it is truthy. -/
def hashMarker? (event : Members) : Option Json :=
  (payload? event).bind fun payload =>
    let marker := payload.get "metadata_hash_after"
    if marker.truthy then some marker else none

/-- The event type is one of the allowed ones. -/
def hasAllowedType (event : Members) : Bool :=
  textSatisfies allowedEventTypes.contains (event.get "event_type")

/-- The Agent calls after an event. -/
def agentsAfter (agents : Option AgentMirror) (event : Members) : Option AgentMirror :=
  agents.map fun mirror =>
    match event.get "event_type" with
    | .str eventType =>
      if agentLifecycleEventTypes.contains eventType then
        mirror.consume eventType (event.get "payload")
      else mirror
    | _ => mirror

/-- The artifact an event records: its digest, the id of the event and the path. -/
def artifactFact? (printable : CodePoint → Bool) (event : Members) :
    Option (PyStr × PyStr × PyStr) :=
  (payload? event).bind fun payload =>
    let digest := payload.get "sha256"
    let path := payload.get "path"
    if isKind event "artifact_written" && digest.truthy then
      some (digest.pyStr printable, (event.get "event_id").pyStr printable,
        if path.truthy then path.pyStr printable else [])
    else none

section Verify

variable (printable : CodePoint → Bool) (exp : Expectations)

namespace ChainState

/-- The body of the loop, once the execution mirror has consumed the event. -/
def step (s : ChainState) (event : Members) (execution : ExecutionMirror) : ChainState :=
  let i := s.eventCount + 1
  let issues := eventSchemaIssues event exp.ticketId
  let records := recordStep? (eventMirrorRecords exp) s.indexes event
  let mismatched := records.filter fun r => r.mismatch && !s.mismatches.contains r.eventType
  { problems := s.problems ++ (mismatched.map fun r => .records r.eventType).toList
    chainProblems := s.chainProblems ++ s.linkProblems event issues
    artifactFacts :=
      match artifactFact? printable event with
      | some (digest, fact) => Dict.set s.artifactFacts digest fact
      | none => s.artifactFacts
    seenIds := s.idsAfter event issues
    previousHash := (Dict.get? event (lit "event_hash")).getD s.previousHash
    eventCount := i
    firstTypeValid :=
      if i = 1 then textSatisfies allowedFirstEvent.contains (event.get "event_type")
      else s.firstTypeValid
    invalidPayload := s.invalidPayload ||
      ((payload? event).isNone && !isKind event "artifact_written")
    invalidArtifactPayload := s.invalidArtifactPayload ||
      ((payload? event).isNone && isKind event "artifact_written")
    invalidEventType := s.invalidEventType || !hasAllowedType event
    schemaFields := s.schemaFields ++ issues
    marker := (hashMarker? event).or s.marker
    indexes :=
      match records with
      | some r => Dict.set s.indexes r.eventType (r.index + 1)
      | none => s.indexes
    mismatches := (mismatched.map RecordStep.eventType).toList ++ s.mismatches
    agents := agentsAfter s.agents event
    ticket := s.ticket.consume event i
    binding := s.binding.consume event
    execution := execution }

/-- The body of the loop. -/
def consume (s : ChainState) (event : Members) : Except TypeError ChainState :=
  (s.execution.consume event (s.eventCount + 1)).map (s.step printable exp event)

/-- `append_payload_shape_problems`. -/
def payloadProblems (s : ChainState) : List ChainProblem :=
  issueUnless (!s.invalidPayload) .payload ++ issueUnless (!s.invalidArtifactPayload) .artifactPayload

/-- `append_event_type_problem`. -/
def eventTypeProblems (s : ChainState) : List ChainProblem :=
  issueUnless (!s.invalidEventType) .eventType

/-- `append_event_schema_problem`. -/
def schemaProblems (s : ChainState) : List ChainProblem :=
  issueUnless s.schemaFields.isEmpty (.schema (sortNames s.schemaFields.dedup))

/-- The records that were not reached. -/
def recordProblems (s : ChainState) : List ChainProblem :=
  (eventMirrorRecords exp).flatMap fun (eventType, records) =>
    issueUnless ((Dict.get? s.indexes eventType).getD 0 == records.length ||
      s.mismatches.contains eventType) (.records eventType)

/-- The last marker is the digest of the metadata. -/
def markerOk (s : ChainState) : Bool :=
  match s.marker, exp.metadataHash with
  | some marker, some expected => marker.pyEq expected
  | _, _ => true

/-- The problems once the last event was read. -/
def finish (s : ChainState) : List ChainProblem :=
  s.problems ++ s.chainProblems ++
    issueUnless (s.eventCount == 0 || s.firstTypeValid) .firstEvent ++
    s.payloadProblems ++ s.eventTypeProblems ++ s.schemaProblems ++
    issueUnless (s.markerOk exp) .metadataHash ++ s.recordProblems exp ++
    issueUnless (s.agents.all fun mirror => !mirror.structurallyValid || mirror.finish) .agents ++
    s.ticket.finish.map .ticket ++ s.binding.finish.map .binding ++
    s.execution.finish.map .execution

/-- What the verifier returns, with the digests of the artifacts. -/
def report (s : ChainState) : Option StreamStop → Dict PyStr (PyStr × PyStr) × List ChainProblem
  | none => (s.artifactFacts, s.finish exp)
  | some .unicode => ([], s.problems ++ .stopped .unicode :: s.chainProblems ++ s.schemaProblems)
  | some (.json lineno e) =>
    (s.artifactFacts, s.problems ++ .stopped (.json lineno e) :: s.chainProblems ++
      s.payloadProblems ++ s.eventTypeProblems ++ s.schemaProblems)
  | some (.notObject lineno) =>
    (s.artifactFacts, s.problems ++ .stopped (.notObject lineno) :: s.chainProblems ++
      s.payloadProblems ++ s.eventTypeProblems ++ s.schemaProblems)
  | some stop => ([], s.problems ++ s.chainProblems ++ [.stopped stop])

end ChainState

/-- The loop over the events. -/
def consumeEvents (s : ChainState) (events : List (ℕ × Members)) : Except TypeError ChainState :=
  events.foldlM (fun s e => s.consume printable exp e.2) s

/-- `_verify_event_chain`, for a file that can be opened and read. -/
def verifyEventChain (content : Bytes) (delivered : ℕ) :
    Except TypeError (Dict PyStr (PyStr × PyStr) × List ChainProblem) :=
  let (events, stop) := eventStream content delivered
  (consumeEvents printable exp (ChainState.init exp) events).map fun s => s.report exp stop

end Verify

/-! ## Runs of the verifier -/

section Runs

variable {printable : CodePoint → Bool} {exp : Expectations} {s s' : ChainState}
  {event : Members} {events : List (ℕ × Members)}

namespace ChainState

theorem consume_eq_ok : s.consume printable exp event = .ok s' ↔
    ∃ x, s.execution.consume event (s.eventCount + 1) = .ok x ∧
      s' = s.step printable exp event x := by
  unfold consume
  cases s.execution.consume event (s.eventCount + 1) with
  | ok x => simp [Except.map, eq_comm]
  | error e => simp [Except.map]

end ChainState

theorem consumeEvents_cons {e : ℕ × Members} :
    consumeEvents printable exp s (e :: events) = .ok s' ↔
      ∃ k, s.consume printable exp e.2 = .ok k ∧ consumeEvents printable exp k events = .ok s' := by
  rw [consumeEvents, List.foldlM_cons, bind_eq_ok]
  rfl

/-- The events of a stream, without the numbers of their lines. -/
def eventsOf (content : Bytes) (delivered : ℕ) : List Members :=
  (eventStream content delivered).1.map Prod.snd

/-- What a run leaves in the state: the mirrors and the schema issues of all events. -/
structure Ran (exp : Expectations) (s : ChainState) (es : List Members) (s' : ChainState) :
    Prop where
  eventCount : s'.eventCount = s.eventCount + es.length
  ticket : s'.ticket = s.ticket.consumeAll s.eventCount es
  binding : s'.binding = s.binding.consumeAll es
  execution : s.execution.consumeAll s.eventCount es = .ok s'.execution
  schemaFields : s'.schemaFields = s.schemaFields ++
    es.flatMap fun e => eventSchemaIssues e exp.ticketId
  problems : s.problems <+: s'.problems
  chainProblems : s.chainProblems <+: s'.chainProblems

theorem ran_of_consumeEvents : ∀ {s : ChainState},
    consumeEvents printable exp s events = .ok s' → Ran exp s (events.map Prod.snd) s' := by
  induction events with
  | nil =>
    intro s h
    obtain rfl := Except.ok.inj h
    exact ⟨rfl, rfl, rfl, rfl, by simp, List.prefix_rfl, List.prefix_rfl⟩
  | cons e events ih =>
    intro s h
    obtain ⟨k, hk, hrest⟩ := (consumeEvents_cons).mp h
    obtain ⟨x, hx, rfl⟩ := (ChainState.consume_eq_ok).mp hk
    have hr := ih hrest
    refine ⟨?_, ?_, ?_, ?_, ?_, ?_, ?_⟩
    · rw [hr.eventCount, List.map_cons, List.length_cons]
      change s.eventCount + 1 + _ = _
      omega
    · exact hr.ticket
    · exact hr.binding
    · rw [List.map_cons, ExecutionMirror.consumeAll, hx]
      exact hr.execution
    · rw [hr.schemaFields, List.map_cons, List.flatMap_cons, ← List.append_assoc]
      rfl
    · exact (List.prefix_append _ _).trans hr.problems
    · exact (List.prefix_append _ _).trans hr.chainProblems

/-- A run without problems of the chain links the events. -/
theorem linked_of_consumeEvents : ∀ {s : ChainState} {hash : PyStr},
    s.previousHash = .str hash → consumeEvents printable exp s events = .ok s' →
      s'.chainProblems = [] →
      Linked (fun e : Members => e.get "previous_event_hash") (fun e => e.get "event_hash")
        (fun e => .str (canonicalEventHash e)) s.previousHash (events.map Prod.snd) := by
  induction events with
  | nil => exact fun _ _ _ => trivial
  | cons e events ih =>
    intro s hash hprevious h hclean
    obtain ⟨k, hk, hrest⟩ := (consumeEvents_cons).mp h
    obtain ⟨x, hx, rfl⟩ := (ChainState.consume_eq_ok).mp hk
    have hnil : s.chainProblems ++ s.linkProblems e.2 (eventSchemaIssues e.2 exp.ticketId) = [] :=
      List.prefix_nil.mp (hclean ▸ (ran_of_consumeEvents hrest).chainProblems)
    have hlink := (List.append_eq_nil_iff.mp hnil).2
    simp only [ChainState.linkProblems, List.append_eq_nil_iff, issueUnless_eq_nil,
      Json.isText_iff] at hlink
    obtain ⟨⟨-, hprev⟩, hhash⟩ := hlink
    have hnext : (s.step printable exp e.2 x).previousHash = e.2.get "event_hash" := by
      change (Dict.get? e.2 (lit "event_hash")).getD s.previousHash = _
      unfold Members.get at hhash ⊢
      cases hget : Dict.get? e.2 (lit "event_hash") with
      | none => simp [hget] at hhash
      | some v => rfl
    rw [hprevious, Json.pyEq_str, ← hprevious] at hprev
    refine ⟨hprev, hhash, ?_⟩
    change Linked _ _ _ (e.2.get "event_hash") _
    rw [← hnext]
    exact ih (hnext.trans hhash) hrest hclean

/-! ## Accepted files -/

/-- What an accepted file says about its events. -/
structure Accepted (exp : Expectations) (es : List Members) : Prop where
  fields : ∀ e ∈ es, EventFields e exp.ticketId
  linked : Linked (fun e : Members => e.get "previous_event_hash") (fun e => e.get "event_hash")
    (fun e => .str (canonicalEventHash e)) (.str genesisHash) es
  ticket : ((TicketMirror.init exp.stateMachine exp.metadata).consumeAll 0 es).finish = []
  binding : ((BindingMirror.init exp.metadata).consumeAll es).finish = []
  execution : ∃ m, (ExecutionMirror.init exp.executionModel exp.completionReceipt).consumeAll 0 es =
    .ok m ∧ m.finish = []

variable {content content' : Bytes} {delivered delivered' : ℕ}
  {facts facts' : Dict PyStr (PyStr × PyStr)}

/-- An accepted file is read to its end, and no problem is found in it. -/
theorem exists_of_verifyEventChain
    (h : verifyEventChain printable exp content delivered = .ok (facts, [])) :
    (eventStream content delivered).2 = none ∧ ∃ s,
      consumeEvents printable exp (ChainState.init exp) (eventStream content delivered).1 = .ok s ∧
        s.finish exp = [] ∧ s.artifactFacts = facts := by
  unfold verifyEventChain at h
  dsimp only at h
  cases hrun : consumeEvents printable exp (ChainState.init exp)
      (eventStream content delivered).1 with
  | error e => simp [hrun, Except.map] at h
  | ok s =>
    rw [hrun] at h
    have hreport := Except.ok.inj h
    cases hstop : (eventStream content delivered).2 with
    | none =>
      rw [hstop] at hreport
      obtain ⟨hfacts, hfinish⟩ := Prod.mk.inj hreport
      exact ⟨rfl, s, rfl, hfinish, hfacts⟩
    | some stop => cases stop <;> simp [hstop, ChainState.report] at hreport

theorem accepted_of_verifyEventChain
    (h : verifyEventChain printable exp content delivered = .ok (facts, [])) :
    Accepted exp (eventsOf content delivered) := by
  obtain ⟨-, s, hrun, hfinish, -⟩ := exists_of_verifyEventChain h
  have hran := ran_of_consumeEvents hrun
  simp only [ChainState.finish, ChainState.schemaProblems, List.append_eq_nil_iff,
    issueUnless_eq_nil, List.map_eq_nil_iff, List.isEmpty_iff] at hfinish
  obtain ⟨⟨⟨⟨⟨⟨⟨⟨⟨⟨⟨-, hchain⟩, -⟩, -⟩, -⟩, hschema⟩, -⟩, -⟩, -⟩, hticket⟩, hbinding⟩, hexecution⟩ :=
    hfinish
  rw [hran.schemaFields, List.append_eq_nil_iff, List.flatMap_eq_nil_iff] at hschema
  refine ⟨fun e he => .of_issues (hschema.2 e he), linked_of_consumeEvents rfl hrun hchain, ?_, ?_,
    s.execution, hran.execution, hexecution⟩
  · rw [← hticket, hran.ticket]
    rfl
  · rw [← hbinding, hran.binding]
    rfl

/-- When two accepted files end in the same hash, they have the same events. -/
theorem verifyEventChain_commits {exp' : Expectations}
    (h : verifyEventChain printable exp content delivered = .ok (facts, []))
    (h' : verifyEventChain printable exp' content' delivered' = .ok (facts', []))
    (hcol : NoCollision (EventEncoding fun e =>
      e ∈ eventsOf content delivered ∨ e ∈ eventsOf content' delivered'))
    (hgenesis : ∀ e ∈ eventsOf content delivered ++ eventsOf content' delivered',
      canonicalEventHash e ≠ genesisHash)
    (hlast : (eventsOf content delivered).getLast?.map (·.get "event_hash") =
      (eventsOf content' delivered').getLast?.map (·.get "event_hash")) :
    List.Forall₂ (fun a b => Json.Same (.obj a) (.obj b)) (eventsOf content delivered)
      (eventsOf content' delivered') := by
  have hx := accepted_of_verifyEventChain h
  have hy := accepted_of_verifyEventChain h'
  have hwf : ∀ {content delivered}, ∀ e ∈ eventsOf content delivered, (Json.obj e).WF := by
    intro content delivered e he
    obtain ⟨x, hx, rfl⟩ := List.mem_map.mp he
    exact eventStream_wf x hx
  -- the link is a text, so the same events have the same link
  have hall : List.Forall₂ (fun a b : Members => Json.Same (.obj a) (.obj b) ∧
      a.get "previous_event_hash" = b.get "previous_event_hash") (eventsOf content delivered)
        (eventsOf content' delivered') := by
    refine forall₂_of_lastHash_eq hx.linked hy.linked ?_ (fun _ _ hxy => hxy.2) ?_ ?_ ?_
    · intro x hxm y hym hdigest
      have hsame := same_of_canonicalEventHash_eq hcol (Or.inl hxm) (Or.inr hym) (hwf x hxm)
        (hwf y hym) (hx.linked.hash_eq x hxm) (hy.linked.hash_eq y hym) (Json.str.inj hdigest)
      obtain ⟨hash, hhash, -⟩ := (hx.fields x hxm).previousHash
      exact ⟨hsame, hhash.trans (get_str_of_same (Json.wf_obj.mp (hwf x hxm)).1
        (Json.wf_obj.mp (hwf y hym)).1 hsame hhash).symm⟩
    · intro x hxm heq
      exact hgenesis x (List.mem_append_left _ hxm) (Json.str.inj heq)
    · intro y hym heq
      exact hgenesis y (List.mem_append_right _ hym) (Json.str.inj heq)
    · rw [lastHash_eq, lastHash_eq, hlast]
  exact hall.imp fun _ _ hxy => hxy.1

/-! ### Sample files -/

/-- The file is accepted. -/
def isAccepted (exp : Expectations) (content : Bytes) : Bool :=
  match verifyEventChain (fun _ => true) exp content 0 with
  | .ok (_, problems) => problems.isEmpty
  | .error _ => false

theorem exists_of_isAccepted {exp : Expectations} {content : Bytes}
    (h : isAccepted exp content = true) :
    ∃ facts, verifyEventChain (fun _ => true) exp content 0 = .ok (facts, []) := by
  unfold isAccepted at h
  split at h
  · next facts problems heq => exact ⟨facts, by rw [heq, List.isEmpty_iff.mp h]⟩
  · cases h

/-- An event of the ticket `t1`; its id starts with its number. -/
def sampleEvent (n : ℕ) (eventType : PyStr) (payload : Members) (previous hash : PyStr) :
    Members :=
  [("schema_version", .int 1),
    ("event_id", .str (hexWord n ++ lit "-0000-4000-8000-000000000000")),
    ("ticket_id", .str "t1"), ("timestamp", .str "2026-01-01T00:00:00Z"),
    ("actor", .str "icode"), ("event_type", .str eventType), ("payload", .obj payload),
    ("previous_event_hash", .str previous), ("event_hash", .str hash)]

/-- A file with one event on a line. -/
def eventFile (events : List Members) : Bytes :=
  events.flatMap fun event => encodePass (Json.dumps (.obj event) ++ lit "\n")

def migrationHash : PyStr :=
  [0x49a8fe21, 0xdfe412f6, 0xf07b0ff0, 0x24d65a94, 0x2128a82f, 0x677787d5, 0x74bcc40b,
    0xd084c9b0].flatMap hexWord

def migrationEvent : Members :=
  sampleEvent 1 "migration_applied" [] genesisHash migrationHash

def migratedMetadata : Members :=
  [("schema_version", .int 3), ("ticket_id", .str "t1")]

def closingHash : PyStr :=
  [0x90808015, 0xee72b678, 0xbb53e60f, 0x9c238d9a, 0xf65b512f, 0x0913166b, 0x3a09e65d,
    0x97af1f0d].flatMap hexWord

def beyondHash : PyStr :=
  [0x27350487, 0xa4759e6d, 0x7adbb9d5, 0xbdcf1b8d, 0x4a86f3de, 0xf00df1b7, 0x63435c3e,
    0xee4d04ac].flatMap hexWord

/-- The ticket is closed, and closed once more from its last phase to no phase. -/
def closedTwice : List Members :=
  [migrationEvent,
    sampleEvent 2 "close_phase" [("from", .null), ("to", .str "closed")] migrationHash closingHash,
    sampleEvent 3 "close_phase" [("from", .str "closed"), ("to", .null)] closingHash beyondHash]

def oneStateMachine : Json :=
  .obj [("states", .arr [.str "init_in_progress"]), ("transitions", .arr []),
    ("close_phases", .arr [.str "closed"])]

def closedMetadata : Members :=
  [("schema_version", .int 3), ("ticket_id", .str "t1"), ("close_state", .str "closed")]

def closedExpectations : Expectations :=
  expectationsOf (some (lit "t1")) closedMetadata (some oneStateMachine) none none

/-- All that the sample files are evaluated for, one part after the other. -/
theorem sampleFiles_run :
    ((∀ content ∈ [eventFile [migrationEvent], encodePass (lit "\n") ++ eventFile [migrationEvent]],
      isAccepted (expectationsOf (some (lit "t1")) migratedMetadata none none none) content = true ∧
        ((eventsOf content 0).getLast?.bind fun e => (e.get "event_hash").text?) =
          some migrationHash) ∧
      (∀ a ∈ eventsOf (eventFile [migrationEvent]) 0 ++
          eventsOf (encodePass (lit "\n") ++ eventFile [migrationEvent]) 0,
        canonicalEventHash a ≠ genesisHash ∧
          ∀ b ∈ eventsOf (eventFile [migrationEvent]) 0 ++
              eventsOf (encodePass (lit "\n") ++ eventFile [migrationEvent]) 0,
            encodePass (Json.dumps (.obj (Dict.erase a (lit "event_hash")))) =
              encodePass (Json.dumps (.obj (Dict.erase b (lit "event_hash")))))) ∧
        isAccepted closedExpectations (eventFile closedTwice) = true ∧
          ((eventsOf (eventFile closedTwice) 0).any fun e =>
            isKind e "close_phase" && payloadGet e "to" matches .null) = true := by
  refine ⟨?_, ?_⟩ <;> decide +kernel

/-- A blank line does not change the events of a file. -/
theorem verifyEventChain_commits_blankLine :
    List.Forall₂ (fun a b => Json.Same (.obj a) (.obj b))
      (eventsOf (eventFile [migrationEvent]) 0)
      (eventsOf (encodePass (lit "\n") ++ eventFile [migrationEvent]) 0) := by
  obtain ⟨⟨hfiles, hevents⟩, -⟩ := sampleFiles_run
  obtain ⟨facts, h⟩ := exists_of_isAccepted (hfiles _ (List.mem_cons_self ..)).1
  obtain ⟨facts', h'⟩ := exists_of_isAccepted
    (hfiles _ (List.mem_cons_of_mem _ (List.mem_cons_self ..))).1
  refine verifyEventChain_commits h h' ?_ ?_ ?_
  · rintro x y ⟨a, ha, rfl⟩ ⟨b, hb, rfl⟩ -
    exact (hevents a (List.mem_append.mpr ha)).2 b (List.mem_append.mpr hb)
  · exact fun e he => (hevents e he).1
  · have hlast := fun content hcontent => (hfiles content hcontent).2
    have htext : ∀ {events : List Members},
        (events.getLast?.bind fun e => (e.get "event_hash").text?) = some migrationHash →
          events.getLast?.map (·.get "event_hash") = some (.str migrationHash) := by
      intro events hevents
      obtain ⟨e, he, hhash⟩ := Option.bind_eq_some_iff.mp hevents
      simp [he, Json.text?_eq_some.mp hhash]
    rw [htext (hlast _ (by simp)), htext (hlast _ (by simp))]

/-- The events of an accepted file are a history of the ticket exactly when every `close_phase`
event names a phase. -/
theorem ticketHistory_iff {v : Json} {metadata : Members} (hmachine : exp.stateMachine = some v)
    (hv : v ≠ .null) (hmetadata : exp.metadata = some metadata)
    (hversion : metadata.get "schema_version" = .int 3)
    (h : verifyEventChain printable exp content delivered = .ok (facts, [])) :
    ∃ sm, normalizeTicketStateMachine v = .ok sm ∧
      (TicketHistory sm metadata (eventsOf content delivered) ↔
        ClosePhasesNamed (eventsOf content delivered)) := by
  have haccepted := accepted_of_verifyEventChain h
  have hticket := haccepted.ticket
  rw [hmachine, hmetadata] at hticket
  obtain ⟨sm, hsm, hinit⟩ := TicketMirror.init_eq_start hv hversion hticket
  rw [hinit] at hticket
  refine ⟨sm, hsm, TicketMirror.ticketHistory_iff_of_finish ?_ hticket⟩
  intro e he
  obtain ⟨payload, hpayload⟩ := (haccepted.fields e he).payload
  exact ⟨payload, payload?_eq_some.mpr hpayload⟩

theorem ticketHistory_iff_closedTwice :
    ∃ sm, normalizeTicketStateMachine oneStateMachine = .ok sm ∧
      (TicketHistory sm closedMetadata (eventsOf (eventFile closedTwice) 0) ↔
        ClosePhasesNamed (eventsOf (eventFile closedTwice) 0)) := by
  obtain ⟨-, haccepted, -⟩ := sampleFiles_run
  obtain ⟨facts, h⟩ := exists_of_isAccepted haccepted
  exact ticketHistory_iff rfl (by simp [oneStateMachine]) rfl rfl h

/-- The verifier accepts a `close_phase` event after the last phase, which no history has. -/
theorem closedTwice_accepted :
    ∃ facts, verifyEventChain (fun _ => true) closedExpectations (eventFile closedTwice) 0 =
      .ok (facts, []) ∧
        ∀ sm, ¬ TicketHistory sm closedMetadata (eventsOf (eventFile closedTwice) 0) := by
  obtain ⟨-, haccepted, hbeyond⟩ := sampleFiles_run
  obtain ⟨facts, h⟩ := exists_of_isAccepted haccepted
  refine ⟨facts, h, fun sm hhistory => ?_⟩
  obtain ⟨last, hrun, -⟩ := hhistory.closing
  obtain ⟨e, he, hb⟩ := List.any_eq_true.mp hbeyond
  rw [Bool.and_eq_true, isKind_iff] at hb
  have hnamed := closePhasesNamed_of_closeRun hrun e he hb.1
  split at hb
  · next hnull => exact hnamed hnull
  · simp at hb

end Runs

end Icode
