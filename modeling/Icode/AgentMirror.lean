import Icode.EventSchema

/-!
# The mirror of Agent calls

The metadata of a ticket keeps the Agent calls as a list of records
(`extensions.agent.spawns`). `AgentMirror` (`_AgentLifecycleMirror`) rebuilds
that list from the events : an `agent_spawned` event opens a record, an
`agent_result` event completes it, and only the records that are open are kept
next to the record of the metadata they must match.

A mirror that became invalid stays invalid (`valid_of_valid_consume`), and never
more than three calls are open (`length_openRecords_consumeAll`), whatever the
events are.
-/

namespace Icode

open Py

/-! ## Records of the metadata -/

/-- `_metadata_records_at_path`; a part of the path that is no object has no records. -/
def metadataRecordsAtPath (value : Json) : List PyStr → Option Json
  | [] =>
    match value with
    | .null => some (.arr [])
    | v => some v
  | field :: path =>
    match value with
    | .null => some (.arr [])
    | .obj ms => metadataRecordsAtPath (Members.get ms field) path
    | _ => none

/-- `_METADATA_EVENT_MIRROR_PATHS` -/
def metadataEventMirrorPaths : List (PyStr × List PyStr) :=
  [("verification_recorded", ["verification_runs"]), ("claim_recorded", ["claims"]),
    ("skill_run_recorded", ["extensions", "skills", "runs"])]

/-- `_METADATA_AGENT_SPAWNS_PATH` -/
def metadataAgentSpawnsPath : List PyStr :=
  ["extensions", "agent", "spawns"]

/-- `_metadata_event_mirror_records`. -/
def metadataEventMirrorRecords (metadata : Json) (eventType : PyStr) : Option Json :=
  (Dict.get? metadataEventMirrorPaths eventType).bind (metadataRecordsAtPath metadata)

/-- `_metadata_agent_spawn_records`. -/
def metadataAgentSpawnRecords (metadata : Json) : Option Json :=
  metadataRecordsAtPath metadata metadataAgentSpawnsPath

/-- `isinstance(records, list) and all(isinstance(record, dict) for record in records)`, with
the records. -/
def objectRecords? : Option Json → Option (List Members)
  | some (.arr xs) => xs.mapM fun
    | .obj ms => some ms
    | _ => none
  | _ => none

/-! ## Payloads -/

/-- `_AGENT_LIFECYCLE_EVENT_TYPES` -/
def agentLifecycleEventTypes : List PyStr :=
  ["agent_spawned", "agent_result"]

/-- `_AGENT_SPAWN_REQUIRED_FIELDS` -/
def agentSpawnRequiredFields : List PyStr :=
  ["spawn_id", "at", "task_scope", "expected_artifact", "evidence_boundary", "join_condition",
    "backend", "model", "capabilities"]

/-- `_AGENT_SPAWN_ALLOWED_FIELDS` -/
def agentSpawnAllowedFields : List PyStr :=
  agentSpawnRequiredFields ++ [lit "exclusive_key"]

/-- `_AGENT_RESULT_REQUIRED_FIELDS` -/
def agentResultRequiredFields : List PyStr :=
  ["spawn_id", "result", "adopted", "adoption_reason", "result_at", "evidence_refs",
    "summary_digest"]

/-- `_AGENT_RESULT_ALLOWED_FIELDS` -/
def agentResultAllowedFields : List PyStr :=
  agentResultRequiredFields ++ [lit "error_class"]

/-- `_AGENT_CAPABILITIES` -/
def agentCapabilities : List PyStr :=
  ["text", "image", "tools", "reasoning"]

/-- `_AGENT_RESULTS` -/
def agentResults : List PyStr :=
  ["joined", "timed_out", "stopped", "failed"]

/-- `_AGENT_ADOPTION_VALUES` -/
def agentAdoptionValues : List PyStr :=
  ["yes", "partial", "no"]

/-- `_MAX_OPEN_AGENT_SPAWNS` -/
def maxOpenAgentSpawns : ℕ := 3

/-- `required <= set(payload) <= allowed`. -/
def fieldsBetween (required allowed : List PyStr) (payload : Members) : Bool :=
  (required.all fun k => Dict.has payload k) && (Dict.keys payload).all fun k => allowed.contains k

/-- `_has_nonempty_text`. -/
def hasNonemptyText (v : Json) : Bool :=
  textSatisfies (fun s => !(strip s).isEmpty) v

/-- `_valid_spawn_payload`. -/
def validSpawnPayload (payload : Members) : Bool :=
  fieldsBetween agentSpawnRequiredFields agentSpawnAllowedFields payload &&
  ((["spawn_id", "at", "task_scope", "expected_artifact", "evidence_boundary", "join_condition",
    "backend", "model"] : List PyStr).all fun key => hasNonemptyText (payload.get key)) &&
  (!Dict.has payload (lit "exclusive_key") ||
    hasNonemptyText (payload.get "exclusive_key") &&
      textSatisfies (fun s => s.length ≤ 80) (payload.get "exclusive_key")) &&
  match payload.get "capabilities" with
  | .arr xs =>
    !xs.isEmpty && (xs.all fun x => textSatisfies (agentCapabilities.contains ·) x) &&
      (xs.any fun x => x.isText "text") && (xs.filterMap Json.text?).Nodup
  | _ => false

/-- `_valid_result_payload`. -/
def validResultPayload (payload : Members) : Bool :=
  fieldsBetween agentResultRequiredFields agentResultAllowedFields payload &&
  hasNonemptyText (payload.get "spawn_id") &&
  textSatisfies (agentResults.contains ·) (payload.get "result") &&
  textSatisfies (agentAdoptionValues.contains ·) (payload.get "adopted") &&
  ((payload.get "result").isText "joined" || (payload.get "adopted").isText "no") &&
  hasNonemptyText (payload.get "adoption_reason") &&
  hasNonemptyText (payload.get "result_at") &&
  (match payload.get "evidence_refs" with
  | .arr xs => !xs.isEmpty && xs.all hasNonemptyText
  | _ => false) &&
  textSatisfies (isHexText 64) (payload.get "summary_digest") &&
  (!Dict.has payload (lit "error_class") || hasNonemptyText (payload.get "error_class"))

/-! ## The mirror -/

/-- `_AgentLifecycleMirror`. -/
structure AgentMirror where
  structurallyValid : Bool
  records : List Members
  recordIndex : ℕ
  /-- The open calls: the record rebuilt so far and the one of the metadata. -/
  openRecords : Dict PyStr (Members × Members)
  valid : Bool

namespace AgentMirror

/-- The `spawn_id`s that are texts. -/
def spawnIds (records : List Members) : List PyStr :=
  records.filterMap fun r => (r.get "spawn_id").text?

/-- `_AgentLifecycleMirror(metadata_records)`. -/
def init (metadataRecords : Option Json) : AgentMirror :=
  match objectRecords? metadataRecords with
  | some records => ⟨true, records, 0, [], decide (spawnIds records).Nodup⟩
  | none => ⟨false, [], 0, [], false⟩

/-- `self.valid = False`. -/
def reject (m : AgentMirror) : AgentMirror :=
  { m with valid := false }

/-- The branch of `consume` for `agent_spawned`. -/
def spawned (m : AgentMirror) (record : Members) : AgentMirror :=
  if !validSpawnPayload record then m.reject
  else if maxOpenAgentSpawns ≤ m.openRecords.length then m.reject
  else
    match (record.get "spawn_id").text?, m.records[m.recordIndex]? with
    | some spawnId, some expected =>
      { m with
        valid := m.valid && (expected.get "spawn_id").isText spawnId
        recordIndex := m.recordIndex + 1
        openRecords := Dict.set m.openRecords spawnId (record, expected) }
    | _, _ => m.reject

/-- The branch of `consume` for `agent_result`. -/
def finished (m : AgentMirror) (record : Members) : AgentMirror :=
  if !validResultPayload record then m.reject
  else
    match (record.get "spawn_id").text? with
    | some spawnId =>
      match Dict.get? m.openRecords spawnId with
      | some (reconstructed, expected) =>
        { m with
          valid := m.valid && eventPayloadMatchesMetadataRecord
            (Dict.update reconstructed (Dict.erase record (lit "spawn_id"))) expected
          openRecords := Dict.erase m.openRecords spawnId }
      | none => m.reject
    | none => m.reject

/-- `consume`. -/
def consume (m : AgentMirror) (eventType : PyStr) (payload : Json) : AgentMirror :=
  if !m.structurallyValid || !agentLifecycleEventTypes.contains eventType then m
  else
    match payload with
    | .obj ms =>
      if eventType = lit "agent_spawned" then m.spawned (eventPayloadMetadataRecord ms)
      else m.finished (eventPayloadMetadataRecord ms)
    | _ => m.reject

/-- `finish`. -/
def finish (m : AgentMirror) : Bool :=
  m.structurallyValid && m.valid && m.recordIndex == m.records.length &&
    m.openRecords.all fun (_, reconstructed, expected) =>
      eventPayloadMatchesMetadataRecord reconstructed expected

/-! ## What an event leaves -/

/-- Both branches keep the records and can only make the mirror invalid, and no branch opens
a fourth call. -/
structure Step (m n : AgentMirror) : Prop where
  structurallyValid : n.structurallyValid = m.structurallyValid
  records : n.records = m.records
  valid : n.valid = true → m.valid = true
  openRecords : m.openRecords.length ≤ maxOpenAgentSpawns →
    n.openRecords.length ≤ maxOpenAgentSpawns

theorem Step.refl (m : AgentMirror) : Step m m :=
  ⟨rfl, rfl, id, id⟩

theorem Step.reject (m : AgentMirror) : Step m m.reject :=
  ⟨rfl, rfl, fun h => (by cases h), id⟩

theorem length_set_le {κ β : Type*} [DecidableEq κ] (d : Dict κ β) (key : κ) (v : β) :
    (Dict.set d key v).length ≤ d.length + 1 := by
  induction d with
  | nil => simp [Dict.set]
  | cons m d ih =>
    rw [Dict.set]
    split_ifs
    · simp
    · simpa using ih

theorem step_spawned (m : AgentMirror) (record : Members) : Step m (m.spawned record) := by
  unfold spawned
  split_ifs with hp hopen
  · exact Step.reject m
  · exact Step.reject m
  · split
    · refine ⟨rfl, rfl, fun h => (Bool.and_eq_true _ _ ▸ h).1, fun _ => ?_⟩
      have := length_set_le m.openRecords ‹PyStr› (record, ‹Members›)
      simp only
      omega
    · exact Step.reject m

theorem step_finished (m : AgentMirror) (record : Members) : Step m (m.finished record) := by
  unfold finished
  split_ifs with hp
  · exact Step.reject m
  · split
    · split
      · refine ⟨rfl, rfl, fun h => (Bool.and_eq_true _ _ ▸ h).1, fun h => ?_⟩
        exact (List.length_filter_le _ _).trans h
      · exact Step.reject m
    · exact Step.reject m

theorem step_consume (m : AgentMirror) (eventType : PyStr) (payload : Json) :
    Step m (m.consume eventType payload) := by
  unfold consume
  split
  · exact Step.refl m
  · cases payload with
    | obj ms =>
      dsimp only
      split_ifs
      · exact step_spawned m _
      · exact step_finished m _
    | _ => exact Step.reject m

/-- The mirror after the events. -/
def consumeAll (m : AgentMirror) (events : List (PyStr × Json)) : AgentMirror :=
  events.foldl (fun m e => m.consume e.1 e.2) m

theorem step_consumeAll (events : List (PyStr × Json)) (m : AgentMirror) :
    Step m (m.consumeAll events) := by
  induction events generalizing m with
  | nil => exact Step.refl m
  | cons e events ih =>
    have h1 := step_consume m e.1 e.2
    have h2 := ih (m.consume e.1 e.2)
    exact ⟨h2.structurallyValid.trans h1.structurallyValid, h2.records.trans h1.records,
      fun h => h1.valid (h2.valid h), fun h => h2.openRecords (h1.openRecords h)⟩

/-- A mirror that became invalid stays invalid. -/
theorem valid_of_valid_consume {m : AgentMirror} {events : List (PyStr × Json)}
    (h : (m.consumeAll events).finish = true) : m.valid = true := by
  simp only [finish, Bool.and_eq_true] at h
  exact (step_consumeAll events m).valid h.1.1.2

/-- Never more than three calls are open. -/
theorem length_openRecords_consumeAll (metadataRecords : Option Json)
    (events : List (PyStr × Json)) :
    ((init metadataRecords).consumeAll events).openRecords.length ≤ maxOpenAgentSpawns := by
  refine (step_consumeAll events _).openRecords ?_
  unfold init
  split <;> simp

end AgentMirror

end Icode
