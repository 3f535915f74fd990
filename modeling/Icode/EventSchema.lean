import Icode.JsonLoads
import Icode.Sha256

/-!
# Events of a ticket

An event is the JSON object of one line of `ticket/events.jsonl`. Its schema is
`eventSchemaIssues` (`event_schema_issues`), the labels of the fields that violate
it, and an event without an issue has the fields of `EventFields`
(`eventSchemaIssues_eq_nil`).

`canonicalEventHash` is the digest of the event without its `event_hash`, and
`metadataContentHash` that of the whole metadata object. Both are taken of the
canonical text, so they are functions of the JSON value. When the digest has no
collision, an event is determined by its digest together with its `event_hash`
(`same_of_canonicalEventHash_eq`).
-/

namespace Icode

open Py

/-! ## Words of the schema -/

/-- `GENESIS_HASH` -/
def genesisHash : PyStr :=
  List.replicate 64 (CodePoint.scalar '0')

/-- `ALLOWED_FIRST_EVENT` -/
def allowedFirstEvent : List PyStr :=
  ["ticket_created", "migration_applied"]

/-- `ALLOWED_EVENT_TYPES` -/
def allowedEventTypes : List PyStr :=
  ["ticket_created", "step_started", "step_finished", "artifact_written", "gate_checked",
    "operation_started", "operation_finished", "state_changed", "metadata_updated",
    "claim_recorded", "verification_recorded", "skill_run_recorded", "snapshot_written",
    "close_phase", "ticket_reopened", "requirement_delta", "agent_spawned", "agent_result",
    "doc_module_status", "index_updated", "migration_applied", "idempotent_hit", "external_note"]

/-- `ALLOWED_EVENT_ACTORS` -/
def allowedEventActors : List PyStr :=
  ["icode", "user", "watch", "system"]

/-- `EVENT_SCHEMA_VERSION` -/
def eventSchemaVersion : ℤ := 1

/-- `EVENT_REQUIRED_FIELDS` -/
def eventRequiredFields : List PyStr :=
  ["schema_version", "event_id", "ticket_id", "timestamp", "actor", "event_type", "payload",
    "previous_event_hash", "event_hash"]

/-- `EVENT_SCHEMA_FIELDS` -/
def eventSchemaFields : List PyStr :=
  eventRequiredFields ++ [lit "request_id"]

/-- `EVENT_ID_PATTERN`: a lowercase UUID of version 4. -/
def isEventId (s : PyStr) : Bool :=
  s.length == 36 &&
    isHexText 8 (s.take 8) && isHexText 4 ((s.drop 9).take 4) && isHexText 3 ((s.drop 15).take 3) &&
    isHexText 3 ((s.drop 20).take 3) && isHexText 12 (s.drop 24) &&
    ([8, 13, 18, 23].all fun i => s[i]? == some (CodePoint.scalar '-')) &&
    s[14]? == some (CodePoint.scalar '4') &&
    (['8', '9', 'a', 'b'].any fun c => s[19]? == some (CodePoint.scalar c))

/-- `EVENT_TIMESTAMP_PATTERN`: an ASCII date and time up to the seconds, and anything after. -/
def isTimestamp (s : PyStr) : Bool :=
  let shape := "dddd-dd-ddTdd:dd:dd".toList
  shape.length ≤ s.length && (shape.zip s).all fun (p, c) =>
    if p = 'd' then 48 ≤ c.ord && c.ord ≤ 57 else c == CodePoint.scalar p

/-! ## The schema -/

/-- `if not ok: issues.add(issue)`. -/
def issueUnless {α : Type*} (ok : Bool) (issue : α) : List α :=
  if ok then [] else [issue]

@[simp] theorem issueUnless_eq_nil {α : Type*} {ok : Bool} {issue : α} :
    issueUnless ok issue = [] ↔ ok = true := by
  cases ok <;> simp [issueUnless]

/-- The value is a string that satisfies `p`. -/
def textSatisfies (p : PyStr → Bool) (v : Json) : Bool :=
  match v with
  | .str s => p s
  | _ => false

@[simp] theorem textSatisfies_iff {p : PyStr → Bool} {v : Json} :
    textSatisfies p v = true ↔ ∃ s, v = .str s ∧ p s = true := by
  cases v <;> simp [textSatisfies]

/-- The check of `ticket_id`, which `event_schema_issues` makes against the expected one. -/
def ticketIdOk (expectedTicketId : Option PyStr) (s : PyStr) : Bool :=
  !s.isEmpty && match expectedTicketId with
    | some expected => s == expected
    | none => true

/-- The check of `request_id`: absent, `null` or a string. -/
def requestIdOk (event : Members) : Bool :=
  match event.get "request_id" with
  | .null => true
  | v => v.isStr

/-- `event_schema_issues`. -/
def eventSchemaIssues (event : Members) (expectedTicketId : Option PyStr) : List PyStr :=
  (eventRequiredFields.filter fun k => !Dict.has event k) ++
  issueUnless ((Dict.keys event).all fun k => eventSchemaFields.contains k)
    (lit "additionalProperties") ++
  issueUnless ((event.get "schema_version").isExactly eventSchemaVersion) (lit "schema_version") ++
  issueUnless (textSatisfies isEventId (event.get "event_id")) (lit "event_id") ++
  issueUnless (textSatisfies (ticketIdOk expectedTicketId) (event.get "ticket_id"))
    (lit "ticket_id") ++
  issueUnless (requestIdOk event) (lit "request_id") ++
  issueUnless (textSatisfies isTimestamp (event.get "timestamp")) (lit "timestamp") ++
  issueUnless (textSatisfies (allowedEventActors.contains ·) (event.get "actor")) (lit "actor") ++
  issueUnless (textSatisfies (allowedEventTypes.contains ·) (event.get "event_type"))
    (lit "event_type") ++
  issueUnless (event.get "payload").isObj (lit "payload") ++
  issueUnless (textSatisfies (isHexText 64) (event.get "previous_event_hash"))
    (lit "previous_event_hash") ++
  issueUnless (textSatisfies (isHexText 64) (event.get "event_hash")) (lit "event_hash")

/-- What the readers use of an event without a schema issue. -/
structure EventFields (event : Members) (expectedTicketId : Option PyStr) : Prop where
  keys : ∀ k ∈ Dict.keys event, k ∈ eventSchemaFields
  eventId : ∃ s, event.get "event_id" = .str s ∧ isEventId s = true
  ticketId : ∃ s, event.get "ticket_id" = .str s ∧ ticketIdOk expectedTicketId s = true
  eventType : ∃ s, event.get "event_type" = .str s ∧ s ∈ allowedEventTypes
  payload : ∃ ms, event.get "payload" = .obj ms
  previousHash : ∃ s, event.get "previous_event_hash" = .str s ∧ isHexText 64 s = true
  eventHash : ∃ s, event.get "event_hash" = .str s ∧ isHexText 64 s = true

/-- An event without an issue has its fields. -/
theorem EventFields.of_issues {event : Members} {expectedTicketId : Option PyStr}
    (h : eventSchemaIssues event expectedTicketId = []) : EventFields event expectedTicketId := by
  simp only [eventSchemaIssues, List.append_eq_nil_iff, issueUnless_eq_nil, textSatisfies_iff,
    List.all_eq_true, List.contains_iff_mem, Json.isObj_iff] at h
  obtain ⟨⟨⟨⟨⟨⟨⟨⟨⟨⟨⟨-, hkeys⟩, -⟩, hid⟩, hticket⟩, -⟩, -⟩, -⟩, htype⟩, hpayload⟩, hprev⟩, hhash⟩ := h
  exact ⟨hkeys, hid, hticket, htype, hpayload, hprev, hhash⟩

/-! ## Digests -/

/-- `canonical_event_hash`. -/
def canonicalEventHash (event : Members) : PyStr :=
  sha256 (encodePass (Json.dumps (.obj (Dict.erase event (lit "event_hash")))))

/-- `_metadata_content_hash`. -/
def metadataContentHash (metadata : Members) : PyStr :=
  sha256 (encodePass (Json.dumps (.obj metadata)))

theorem isHexText_canonicalEventHash (event : Members) :
    isHexText 64 (canonicalEventHash event) = true :=
  isHexText_sha256 _

/-- The byte strings `canonical_event_hash` digests for the events of `p`. -/
def EventEncoding (p : Members → Prop) (b : Bytes) : Prop :=
  ∃ event, p event ∧ b = encodePass (Json.dumps (.obj (Dict.erase event (lit "event_hash"))))

/-- Without collisions, equal digests are digests of the same value without `event_hash`. -/
theorem same_erase_of_canonicalEventHash_eq {p : Members → Prop}
    (hcol : NoCollision (EventEncoding p)) {a b : Members} (ha : p a) (hb : p b)
    (h : canonicalEventHash a = canonicalEventHash b) :
    Json.Same (.obj (Dict.erase a (lit "event_hash"))) (.obj (Dict.erase b (lit "event_hash"))) :=
  Json.dumps_inj.mp (encodePass_injective (hcol _ _ ⟨a, ha, rfl⟩ ⟨b, hb, rfl⟩ h))

/-- Two events that carry their own digest, which is the same, are the same value. -/
theorem same_of_canonicalEventHash_eq {p : Members → Prop}
    (hcol : NoCollision (EventEncoding p)) {a b : Members} (ha : p a) (hb : p b)
    (hwa : (Json.obj a).WF) (hwb : (Json.obj b).WF)
    (hhash : a.get "event_hash" = .str (canonicalEventHash a))
    (hhash' : b.get "event_hash" = .str (canonicalEventHash b))
    (h : canonicalEventHash a = canonicalEventHash b) : Json.Same (.obj a) (.obj b) := by
  have hget : ∀ {ms : Members} {s : PyStr}, ms.get "event_hash" = .str s →
      Dict.get? ms (lit "event_hash") = some (.str s) := by
    intro ms s hs
    simp only [Members.get] at hs
    cases hg : Dict.get? ms (lit "event_hash") with
    | none => simp [hg] at hs
    | some v => simpa [hg] using hs
  refine Json.same_of_same_erase (Json.wf_obj.mp hwa).1 (Json.wf_obj.mp hwb).1 (hget hhash)
    (hget hhash') ?_ (same_erase_of_canonicalEventHash_eq hcol ha hb h)
  rw [h]
  exact Json.Same.refl _

/-- The same objects have the same texts. -/
theorem get_str_of_same {a b : Members} (ha : a.keys.Nodup) (hb : b.keys.Nodup) {key s : PyStr}
    (h : Json.Same (.obj a) (.obj b)) (hs : a.get key = .str s) : b.get key = .str s := by
  have hget : Dict.get? a key = some (.str s) := by
    unfold Members.get at hs
    cases hg : Dict.get? a key with
    | none => simp [hg] at hs
    | some v => simpa [hg] using hs
  have hmem : (key, Json.str s) ∈ b.map fun m => (m.1, Json.canonical m.2) := by
    refine ((Json.same_obj_iff_perm ha).mp h).mem_iff.mp ?_
    exact List.mem_map.mpr ⟨(key, .str s), Dict.mem_of_get? hget, rfl⟩
  obtain ⟨⟨k, v⟩, hv, hkv⟩ := List.mem_map.mp hmem
  obtain ⟨rfl, hcanonical⟩ := Prod.mk.inj hkv
  have hstr : v = .str s := by
    cases v <;> simp_all [Json.canonical]
  rw [Members.get, Dict.get?_of_mem hb hv, hstr]
  rfl

/-! ## Payloads -/

/-- `_event_payload_metadata_record`. -/
def eventPayloadMetadataRecord (payload : Members) : Members :=
  Dict.erase payload (lit "metadata_hash_after")

/-- `_event_payload_matches_metadata_record`. -/
def eventPayloadMatchesMetadataRecord (payload metadataRecord : Members) : Bool :=
  Json.dumps (.obj (eventPayloadMetadataRecord payload)) == Json.dumps (.obj metadataRecord)

/-- The comparison is that of the values, also between `true` and `1`. -/
theorem eventPayloadMatchesMetadataRecord_iff {payload metadataRecord : Members} :
    eventPayloadMatchesMetadataRecord payload metadataRecord = true ↔
      Json.Same (.obj (eventPayloadMetadataRecord payload)) (.obj metadataRecord) := by
  rw [eventPayloadMatchesMetadataRecord, beq_iff_eq, Json.dumps_inj]

/-- `event.get("payload")`, when it is a dict. -/
def payload? (event : Members) : Option Members :=
  match event.get "payload" with
  | .obj ms => some ms
  | _ => none

theorem payload?_eq_some {event payload : Members} :
    payload? event = some payload ↔ event.get "payload" = .obj payload := by
  unfold payload?
  split
  · rename_i ms h
    simp [h]
  · rename_i h
    simp only [reduceCtorEq, false_iff]
    exact fun hp => h _ hp

/-- `payload.get(key)` of a payload that is a dict. -/
def payloadGet (event : Members) (key : PyStr) : Json :=
  match payload? event with
  | some payload => payload.get key
  | none => .null

theorem payloadGet_eq {event payload : Members} (h : payload? event = some payload)
    (key : PyStr) : payloadGet event key = payload.get key := by
  simp [payloadGet, h]

/-- `event.get("event_type") == kind`. -/
def isKind (event : Members) (kind : PyStr) : Bool :=
  (event.get "event_type").isText kind

@[simp] theorem isKind_iff {event : Members} {kind : PyStr} :
    isKind event kind = true ↔ event.get "event_type" = .str kind := by
  simp [isKind]

end Icode
