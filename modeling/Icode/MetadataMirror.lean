import Icode.PackRules
import Icode.ReadEvents

/-!
# The metadata of an accepted package

The metadata of a ticket keeps the records of its verifications, its claims and the runs of its
skills, and an event stands for each record. In an accepted package they are the same : the events
of a type carry the records of that type, in order and no others, and the last
`metadata_hash_after` that says anything is the digest of the metadata (`metadata_mirrored`). A
`metadata_hash_after` that is null or empty says nothing.
-/

namespace Icode

open Py

variable {printable : CodePoint → Bool} {exp : Expectations} {s s' : ChainState}
  {events : List (ℕ × Members)} {eventType : PyStr} {expected : List Members}

/-- The event carries the record. -/
def Carries (event record : Members) : Prop :=
  ∃ payload, payload? event = some payload ∧
    Json.Same (.obj (eventPayloadMetadataRecord payload)) (.obj record)

/-- The events of a type. -/
def eventsOfType (eventType : PyStr) (events : List Members) : List Members :=
  events.filter fun event => isKind event eventType

/-- The number of records of the type that were reached. -/
def ChainState.reached (s : ChainState) (eventType : PyStr) : ℕ :=
  (Dict.get? s.indexes eventType).getD 0

/-! ## One event -/

theorem mem_of_problems_step {event : Members} {x : ExecutionMirror}
    (h : (s.step printable exp event x).problems = []) (hmismatches : s.mismatches = []) :
    (∀ r, recordStep? (eventMirrorRecords exp) s.indexes event = some r → r.mismatch = false) ∧
      (s.step printable exp event x).mismatches = [] := by
  have hnone : (recordStep? (eventMirrorRecords exp) s.indexes event).filter
      (fun r => r.mismatch && !s.mismatches.contains r.eventType) = none := by
    have := (List.append_eq_nil_iff.mp h).2
    simpa using this
  constructor
  · intro r hr
    simpa [hr, hmismatches] using hnone
  · change (((recordStep? _ _ _).filter _).map _).toList ++ s.mismatches = []
    rw [hnone, hmismatches]
    rfl

variable (printable) in
/-- An event of the type carries the next record. -/
theorem carries_of_step {event payload : Members} (x : ExecutionMirror)
    (hexpected : Dict.get? (eventMirrorRecords exp) eventType = some expected)
    (htype : event.get "event_type" = .str eventType) (hpayload : payload? event = some payload)
    (hmatch : ∀ r, recordStep? (eventMirrorRecords exp) s.indexes event = some r →
      r.mismatch = false) :
    ∃ record, expected[s.reached eventType]? = some record ∧ Carries event record ∧
      (s.step printable exp event x).reached eventType = s.reached eventType + 1 := by
  have hstep := recordStep?_eq (eventMirrorRecords exp) s.indexes htype hpayload
  rw [hexpected, Option.map_some] at hstep
  have hfits := hmatch _ hstep
  dsimp only at hfits
  unfold ChainState.reached
  cases hrecord : expected[(Dict.get? s.indexes eventType).getD 0]? with
  | none => simp [hrecord] at hfits
  | some record =>
    have hmatches : eventPayloadMatchesMetadataRecord payload record = true := by
      simpa [hrecord] using hfits
    refine ⟨record, rfl, ⟨payload, hpayload, eventPayloadMatchesMetadataRecord_iff.mp hmatches⟩, ?_⟩
    simp only [ChainState.step, hstep, Dict.get?_set, if_true, Option.getD_some]

/-- An event of another type leaves the records of the type. -/
theorem reached_step_of_ne {event : Members} {x : ExecutionMirror}
    (htype : isKind event eventType = false) :
    (s.step printable exp event x).reached eventType = s.reached eventType := by
  unfold ChainState.reached ChainState.step
  dsimp only
  cases hr : recordStep? (eventMirrorRecords exp) s.indexes event with
  | none => rfl
  | some r =>
    have hne : eventType ≠ r.eventType := by
      rintro rfl
      unfold recordStep? at hr
      simp only [Option.bind_eq_bind, Option.bind_eq_some_iff, Json.text?_eq_some] at hr
      obtain ⟨name, hname, _, -, hr⟩ := hr
      obtain rfl := Option.some.inj hr
      rw [Bool.eq_false_iff, ne_eq, isKind_iff] at htype
      exact htype hname
    simp only [Dict.get?_set, if_neg hne]

/-! ## All events -/

/-- The events of the type carry the records that were reached. -/
theorem carries_of_consumeEvents
    (hexpected : Dict.get? (eventMirrorRecords exp) eventType = some expected)
    (hpayloads : ∀ e ∈ events, ∃ payload, payload? e.2 = some payload) :
    ∀ {s : ChainState}, s.mismatches = [] → consumeEvents printable exp s events = .ok s' →
      s'.problems = [] →
        s'.mismatches = [] ∧
          s'.reached eventType =
            s.reached eventType + (eventsOfType eventType (events.map Prod.snd)).length ∧
          List.Forall₂ Carries (eventsOfType eventType (events.map Prod.snd))
            ((expected.drop (s.reached eventType)).take
              (eventsOfType eventType (events.map Prod.snd)).length) := by
  induction events with
  | nil =>
    intro s hmismatches h _
    obtain rfl := Except.ok.inj h
    exact ⟨hmismatches, rfl, by simp [eventsOfType]⟩
  | cons e events ih =>
    intro s hmismatches h hclean
    obtain ⟨k, hk, hrest⟩ := consumeEvents_cons.mp h
    obtain ⟨x, -, rfl⟩ := ChainState.consume_eq_ok.mp hk
    have hstep : (s.step printable exp e.2 x).problems = [] :=
      List.prefix_nil.mp (hclean ▸ (ran_of_consumeEvents hrest).problems)
    obtain ⟨hmatch, hkeeps⟩ := mem_of_problems_step hstep hmismatches
    obtain ⟨hnone, hreached, hcarries⟩ :=
      ih (fun e he => hpayloads e (List.mem_cons_of_mem _ he)) hkeeps hrest hclean
    refine ⟨hnone, ?_⟩
    cases htype : isKind e.2 eventType with
    | false =>
      rw [reached_step_of_ne htype] at hreached hcarries
      have hskip : eventsOfType eventType ((e :: events).map Prod.snd) =
          eventsOfType eventType (events.map Prod.snd) := by
        simp [eventsOfType, htype]
      rw [hskip]
      exact ⟨hreached, hcarries⟩
    | true =>
      obtain ⟨payload, hpayload⟩ := hpayloads e List.mem_cons_self
      obtain ⟨record, hrecord, hcarry, hnext⟩ :=
        carries_of_step printable x hexpected (isKind_iff.mp htype) hpayload hmatch
      have htake : eventsOfType eventType ((e :: events).map Prod.snd) =
          e.2 :: eventsOfType eventType (events.map Prod.snd) := by
        simp [eventsOfType, htype]
      rw [hnext] at hreached hcarries
      obtain ⟨hlt, rfl⟩ := List.getElem?_eq_some_iff.mp hrecord
      rw [htake, List.length_cons, List.drop_eq_getElem_cons hlt, List.take_succ_cons]
      exact ⟨by omega, .cons hcarry hcarries⟩

/-- The last marker is that of the last event that has one. -/
theorem marker_consumeEvents : ∀ {s : ChainState},
    consumeEvents printable exp s events = .ok s' →
      s'.marker = (((events.map Prod.snd).filterMap hashMarker?).getLast?).or s.marker := by
  induction events with
  | nil =>
    intro s h
    obtain rfl := Except.ok.inj h
    rfl
  | cons e events ih =>
    intro s h
    obtain ⟨k, hk, hrest⟩ := consumeEvents_cons.mp h
    obtain ⟨x, -, rfl⟩ := ChainState.consume_eq_ok.mp hk
    rw [ih hrest]
    generalize hrests : (events.map Prod.snd).filterMap hashMarker? = markers
    change markers.getLast?.or ((hashMarker? e.2).or s.marker) = _
    rw [List.map_cons]
    cases hmarker : hashMarker? e.2 with
    | none => rw [List.filterMap_cons_none hmarker, hrests, Option.none_or]
    | some marker =>
      rw [List.filterMap_cons_some hmarker, hrests, List.getLast?_cons]
      cases markers.getLast? <;> rfl

/-! ## The package -/

/-- The records of the metadata for the events of a type. -/
def mirroredRecords (metadata : Members) (eventType : PyStr) : Option (List Members) :=
  objectRecords? (metadataEventMirrorRecords (.obj metadata) eventType)

theorem ticketMetadata_of_ticketProblems {es : Directory} {manifest : Members}
    (h : ticketProblems es manifest = []) : ∃ metadata, ticketMetadata es = .ok metadata := by
  unfold ticketProblems at h
  dsimp only at h
  simp only [List.append_eq_nil_iff] at h
  obtain ⟨⟨⟨⟨-, hmetadata⟩, -⟩, -⟩, -⟩ := h
  split at hmetadata
  · simp at hmetadata
  · next metadata heq => exact ⟨metadata, heq⟩

theorem get?_filterMap_keys {γ : Type} (f : PyStr → Option γ) (key : PyStr) :
    ∀ d : Dict PyStr (List PyStr),
      Dict.get? (d.filterMap fun (k, _) => (f k).map fun r => (k, r)) key =
        if key ∈ d.keys then f key else none := by
  intro d
  induction d with
  | nil => rfl
  | cons m d ih =>
    obtain ⟨k, path⟩ := m
    have hkeys : Dict.keys ((k, path) :: d) = k :: Dict.keys d := rfl
    rw [hkeys]
    cases hf : f k with
    | none =>
      rw [List.filterMap_cons_none (by simp [hf]), ih]
      by_cases hk : key = k
      · subst hk
        simp [hf]
      · simp [hk]
    | some r =>
      rw [List.filterMap_cons_some (by simp [hf]; rfl), Dict.get?_cons, ih]
      by_cases hk : k = key
      · subst hk
        simp [hf]
      · simp [hk, Ne.symm hk]

section Package

variable {ticketId : Option PyStr} {metadata : Members}
  {stateMachine executionModel completionReceipt : Option Json}

theorem expectedRecords_eq (h : eventType ∈ Dict.keys metadataEventMirrorPaths) :
    expectedRecords (metadataEventMirrorPaths.map fun (k, _) =>
      (k, metadataEventMirrorRecords (.obj metadata) k)) eventType =
        mirroredRecords metadata eventType := by
  have hget := Dict.get?_map_keys (d := metadataEventMirrorPaths)
    (metadataEventMirrorRecords (.obj metadata)) h
  unfold expectedRecords mirroredRecords
  rw [hget]
  have hnull : metadataEventMirrorRecords (.obj metadata) eventType ≠ some .null := by
    unfold metadataEventMirrorRecords
    cases Dict.get? metadataEventMirrorPaths eventType with
    | none => simp
    | some path => exact metadataRecordsAtPath_ne_null
  split
  · simp at *
  · next heq => exact absurd (Option.some.inj heq) hnull
  · next heq => rw [Option.some.inj heq]

/-- The records of the type are those the verifier compares with. -/
theorem exists_mirroredRecords
    (h : recordStructureProblems
      (expectationsOf ticketId metadata stateMachine executionModel completionReceipt) = [])
    (hmem : eventType ∈ Dict.keys metadataEventMirrorPaths) :
    ∃ records, mirroredRecords metadata eventType = some records ∧
      Dict.get? (eventMirrorRecords
        (expectationsOf ticketId metadata stateMachine executionModel completionReceipt)) eventType =
          some records := by
  obtain ⟨⟨k, path⟩, hpath, rfl⟩ := List.mem_map.mp hmem
  simp only [recordStructureProblems, expectationsOf, List.flatMap_eq_nil_iff,
    issueUnless_eq_nil] at h
  obtain ⟨records, hrecords⟩ := Option.isSome_iff_exists.mp (h _ hpath)
  refine ⟨records, (expectedRecords_eq hmem).symm.trans hrecords, ?_⟩
  have hget := get?_filterMap_keys (expectedRecords (metadataEventMirrorPaths.map fun (k, _) =>
    (k, metadataEventMirrorRecords (.obj metadata) k))) k metadataEventMirrorPaths
  rw [if_pos hmem, hrecords] at hget
  exact hget

/-- The events of an accepted chain mirror the metadata. -/
theorem mirrored_of_verifyEventChain {content : Bytes} {delivered : ℕ}
    {facts : Dict PyStr (PyStr × PyStr)}
    (h : verifyEventChain printable (expectationsOf ticketId metadata stateMachine executionModel
      completionReceipt) content delivered = .ok (facts, [])) :
    (∀ eventType ∈ Dict.keys metadataEventMirrorPaths, ∃ records,
      mirroredRecords metadata eventType = some records ∧
        List.Forall₂ Carries (eventsOfType eventType (eventsOf content delivered)) records) ∧
      ∀ marker, ((eventsOf content delivered).filterMap hashMarker?).getLast? = some marker →
        marker = .str (metadataContentHash metadata) := by
  have haccepted := accepted_of_verifyEventChain h
  obtain ⟨-, s, hrun, hfinish, -⟩ := exists_of_verifyEventChain h
  have hpayloads : ∀ e ∈ (eventStream content delivered).1, ∃ payload,
      payload? e.2 = some payload := by
    intro e he
    obtain ⟨payload, hpayload⟩ := (haccepted.fields e.2 (List.mem_map_of_mem he)).payload
    exact ⟨payload, payload?_eq_some.mpr hpayload⟩
  simp only [ChainState.finish, List.append_eq_nil_iff, issueUnless_eq_nil] at hfinish
  obtain ⟨⟨⟨⟨⟨⟨⟨⟨⟨⟨⟨hproblems, -⟩, -⟩, -⟩, -⟩, -⟩, hmarker⟩, hrecords⟩, -⟩, -⟩, -⟩, -⟩ := hfinish
  have hinit : (ChainState.init (expectationsOf ticketId metadata stateMachine executionModel
      completionReceipt)).problems = [] :=
    List.prefix_nil.mp (hproblems ▸ (ran_of_consumeEvents hrun).problems)
  constructor
  · intro eventType hmem
    obtain ⟨records, hrec, hget⟩ :=
      exists_mirroredRecords (List.append_eq_nil_iff.mp hinit).1 hmem
    obtain ⟨hmismatches, hreached, hcarries⟩ :=
      carries_of_consumeEvents hget hpayloads rfl hrun hproblems
    have hstart : (ChainState.init (expectationsOf ticketId metadata stateMachine executionModel
        completionReceipt)).reached eventType = 0 := by
      have hindex := Dict.get?_map_keys (d := eventMirrorRecords (expectationsOf ticketId metadata
        stateMachine executionModel completionReceipt)) (fun _ => 0)
        (List.mem_map_of_mem (Dict.mem_of_get? hget))
      unfold ChainState.reached
      change (Dict.get? ((eventMirrorRecords _).map fun m => (m.1, 0)) eventType).getD 0 = 0
      rw [hindex]
      rfl
    -- every record was reached
    have hall : (Dict.get? s.indexes eventType).getD 0 = records.length := by
      have := List.flatMap_eq_nil_iff.mp hrecords _ (Dict.mem_of_get? hget)
      simpa [hmismatches] using this
    change s.reached eventType = _ at hall
    rw [hreached, hstart, Nat.zero_add] at hall
    rw [hstart, List.drop_zero, hall, List.take_length] at hcarries
    exact ⟨records, hrec, hcarries⟩
  · intro marker hlast
    have hrunMarker := marker_consumeEvents hrun
    change ((((eventStream content delivered).1.map Prod.snd).filterMap hashMarker?).getLast?) = _
      at hlast
    rw [hlast, Option.some_or] at hrunMarker
    simp only [ChainState.markerOk, hrunMarker, expectationsOf, Json.pyEq_str] at hmarker
    exact hmarker

end Package

/-- The event of a ticket whose marker is null. -/
def nullMarkerEvent : Members :=
  sampleEvent 1 "migration_applied" [("metadata_hash_after", .null)] genesisHash
    ([0x0a3d6d7d, 0x927a0c68, 0xf94f5de2, 0x7334bced, 0x4401aa89, 0x573044e0, 0xef16a7a2,
      0x371bdbeb].flatMap hexWord)

def nullMarkerPack : Pack where
  entries :=
    [("manifest.json", .file (sampleManifest [("ticket/metadata.json", sampleMetadata),
        (eventsRel, eventFile [nullMarkerEvent])])),
      ("ticket", .directory [("events.jsonl", .file (eventFile [nullMarkerEvent])),
        ("metadata.json", .file sampleMetadata)])]
  sorted := by
    simp only [PackNode.Sorted, EntriesSorted]
    decide

/-- `metadata_hash_after` of an event that has it, also when it says nothing. -/
def hashAfter? (event : Members) : Option Json :=
  (payload? event).bind fun payload => Dict.get? payload (lit "metadata_hash_after")

/-- All that the package is evaluated for, one part after the other. -/
theorem nullMarkerPack_run :
    ((memberFile nullMarkerPack.entries "manifest.json").any fun content =>
      (loadJsonObject content maxManifestJsonBytes).toOption.any
        (manifestAccepted nullMarkerPack.entries)) = true ∧
    eventsAccepted nullMarkerPack.entries = true ∧
    (((packEvents nullMarkerPack.entries 0).filterMap hashAfter?).getLast?.any
      (· matches .null)) = true := by
  refine ⟨?_, ?_, ?_⟩ <;> decide +kernel

theorem verifyPack_nullMarkerPack :
    verifyPack (fun _ => true) ⟨none, false⟩ nullMarkerPack 0 = .ok [] := by
  obtain ⟨hmanifest, hevents, -⟩ := nullMarkerPack_run
  obtain ⟨content, hfile, hmanifest⟩ := (Option.any_eq_true _ _).mp hmanifest
  obtain ⟨manifest, hload, hparts⟩ := exists_of_toOption_any hmanifest
  exact verifyPack_of_parts hfile hload hparts rfl hevents

end Icode
