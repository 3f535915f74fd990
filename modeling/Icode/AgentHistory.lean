import Icode.AgentMirror

/-!
# The history of Agent calls

`AgentMirror` compares the events with the metadata one by one. What it decides is a property of
the whole history (`agentMirror_finish_iff`) : the records of the metadata are the left fold of the events,
where a result is merged into its call; every event is valid, no call is spawned twice, a result
comes only for a call that is open, and never more than three are.
-/

namespace Py

/-! ## Values under a key -/

theorem get?_orderedInsert (key : PyStr) (m : PyStr × Json) :
    ∀ ms : Members, Dict.get? (ms.orderedInsert keyLe m) key = Dict.get? (m :: ms) key := by
  intro ms
  induction ms with
  | nil => rfl
  | cons n ms ih =>
    rw [List.orderedInsert_cons]
    split_ifs with hle
    · rfl
    · rw [Dict.get?_cons, ih, Dict.get?_cons, Dict.get?_cons, Dict.get?_cons]
      by_cases hm : m.1 = key
      · have hn : n.1 ≠ key := by
          intro hn
          refine hle ?_
          rw [keyLe, hm, hn]
          exact (strLe_total key key).elim id id
        simp [hm, hn]
      · simp [hm]

/-- Sorting keeps the first value under a key. -/
theorem get?_sort (key : PyStr) : ∀ ms : Members, Dict.get? ms.sort key = Dict.get? ms key := by
  intro ms
  induction ms with
  | nil => rfl
  | cons m ms ih =>
    unfold Members.sort at ih ⊢
    rw [List.insertionSort_cons, get?_orderedInsert, Dict.get?_cons, Dict.get?_cons, ih]

/-- The same objects have the same values. -/
theorem canonical_get_of_same {a b : Members} (h : Json.Same (.obj a) (.obj b)) (key : PyStr) :
    (a.get key).canonical = (b.get key).canonical := by
  have hget : ∀ ms : Members,
      Dict.get? (Members.sort (ms.map fun m => (m.1, Json.canonical m.2))) key =
        (Dict.get? ms key).map Json.canonical := by
    intro ms
    rw [get?_sort]
    induction ms with
    | nil => rfl
    | cons m ms ih =>
      rw [List.map_cons, Dict.get?_cons, Dict.get?_cons, ih]
      split_ifs <;> rfl
  have hsame := h
  unfold Json.Same at hsame
  rw [Json.canonical_obj, Json.canonical_obj, Json.obj.injEq] at hsame
  have hmap := congrArg (fun ms => Dict.get? ms key) hsame
  simp only [hget] at hmap
  unfold Members.get
  cases ha : Dict.get? a key <;> cases hb : Dict.get? b key <;> simp_all

/-- The same objects have the same texts. -/
theorem text?_get_of_same {a b : Members} (h : Json.Same (.obj a) (.obj b)) (key : PyStr) :
    (a.get key).text? = (b.get key).text? := by
  have hcanonical := canonical_get_of_same h key
  generalize a.get key = u at hcanonical
  generalize b.get key = v at hcanonical
  cases u <;> cases v <;> simp_all [Json.canonical, Json.text?]

end Py

namespace Icode

open Py

/-! ## Histories -/

/-- An event type and a payload. -/
abbrev AgentEvent := PyStr × Json

/-- The record of a payload that is a dict. -/
def agentRecord? (e : AgentEvent) : Option Members :=
  match e.2 with
  | .obj payload => some (eventPayloadMetadataRecord payload)
  | _ => none

/-- The `spawn_id` of a record, when it is a text. -/
def spawnId? (record : Members) : Option PyStr :=
  (record.get "spawn_id").text?

/-- A result is merged into the call with its `spawn_id`. -/
def mergeResult (result spawn : Members) : Members :=
  if spawnId? spawn = spawnId? result then
    Dict.update spawn (Dict.erase result (lit "spawn_id"))
  else spawn

/-- The records of the calls after an event. -/
def spawnsAfter (spawns : List Members) (e : AgentEvent) : List Members :=
  match agentRecord? e with
  | none => spawns
  | some record =>
    if e.1 = lit "agent_spawned" then spawns ++ [record]
    else if e.1 = lit "agent_result" then spawns.map (mergeResult record)
    else spawns

/-- The open calls after an event. -/
def openAfterAgent (opened : List PyStr) (e : AgentEvent) : List PyStr :=
  match (agentRecord? e).bind spawnId? with
  | none => opened
  | some id =>
    if e.1 = lit "agent_spawned" then opened ++ [id]
    else if e.1 = lit "agent_result" then opened.filter (· ≠ id)
    else opened

/-- The calls that an event spawns. -/
def spawnedId? (e : AgentEvent) : Option PyStr :=
  if e.1 = lit "agent_spawned" then (agentRecord? e).bind spawnId? else none

/-- A valid payload for the type of the event. -/
def ValidAgentEvent (e : AgentEvent) : Prop :=
  (e.1 = lit "agent_spawned" →
    ∃ record, agentRecord? e = some record ∧ validSpawnPayload record = true) ∧
  (e.1 = lit "agent_result" →
    ∃ record, agentRecord? e = some record ∧ validResultPayload record = true)

/-- A result comes for a call that is open. -/
def ResultOpen (opened : List PyStr) (e : AgentEvent) : Prop :=
  e.1 = lit "agent_result" → ∃ id ∈ opened, (agentRecord? e).bind spawnId? = some id

/-- The records are the left fold of the events, which follow the rules of the calls. -/
structure AgentHistory (records : List Members) (events : List AgentEvent) : Prop where
  records : List.Forall₂ (fun spawn record => Json.Same (.obj spawn) (.obj record))
    (events.foldl spawnsAfter []) records
  valid : ∀ e ∈ events, ValidAgentEvent e
  unique : (events.filterMap spawnedId?).Nodup
  results : ∀ before e behind, events = before ++ e :: behind →
    ResultOpen (before.foldl openAfterAgent []) e
  bounded : ∀ before behind, events = before ++ behind →
    (before.foldl openAfterAgent []).length ≤ maxOpenAgentSpawns

/-! ## The rest of a history -/

/-- The open calls follow the rules from here on. -/
def OpenRules : List PyStr → List AgentEvent → Prop
  | opened, [] => opened.length ≤ maxOpenAgentSpawns
  | opened, e :: events => opened.length ≤ maxOpenAgentSpawns ∧ ResultOpen opened e ∧
      OpenRules (openAfterAgent opened e) events

theorem OpenRules.length_le : ∀ {events : List AgentEvent} {opened : List PyStr},
    OpenRules opened events → opened.length ≤ maxOpenAgentSpawns
  | [], _, h => h
  | _ :: _, _, h => h.1

theorem openRules_iff {events : List AgentEvent} : ∀ {opened : List PyStr},
    OpenRules opened events ↔
      (∀ before e behind, events = before ++ e :: behind →
        ResultOpen (before.foldl openAfterAgent opened) e) ∧
      ∀ before behind, events = before ++ behind →
        (before.foldl openAfterAgent opened).length ≤ maxOpenAgentSpawns := by
  induction events with
  | nil =>
    intro opened
    simp only [OpenRules]
    refine ⟨fun h => ⟨by simp, ?_⟩, fun h => h.2 [] [] rfl⟩
    intro before behind heq
    obtain ⟨rfl, -⟩ := List.append_eq_nil_iff.mp heq.symm
    exact h
  | cons e events ih =>
    intro opened
    simp only [OpenRules, ih]
    constructor
    · rintro ⟨hlength, hresult, hresults, hbounded⟩
      refine ⟨fun before f behind heq => ?_, fun before behind heq => ?_⟩
      · cases before with
        | nil =>
          obtain ⟨rfl, -⟩ := List.cons.inj heq
          exact hresult
        | cons g before =>
          obtain ⟨rfl, hrest⟩ := List.cons.inj heq
          exact hresults before f behind hrest
      · cases before with
        | nil => exact hlength
        | cons g before =>
          obtain ⟨rfl, hrest⟩ := List.cons.inj heq
          exact hbounded before behind hrest
    · rintro ⟨hresults, hbounded⟩
      refine ⟨hbounded [] _ rfl, hresults [] e events rfl, fun before f behind heq => ?_,
        fun before behind heq => ?_⟩
      · exact hresults (e :: before) f behind (by rw [heq, List.cons_append])
      · exact hbounded (e :: before) behind (by rw [heq, List.cons_append])

/-! ## The events of a history -/

@[simp] theorem spawnId?_mergeResult (result spawn : Members) :
    spawnId? (mergeResult result spawn) = spawnId? spawn := by
  unfold mergeResult
  split_ifs with hid
  · unfold spawnId? Members.get
    rw [Dict.get?_update]
    rw [Dict.keys_erase]
    simp
  · rfl

theorem map_spawnId?_mergeResult (result : Members) (spawns : List Members) :
    (spawns.map (mergeResult result)).map spawnId? = spawns.map spawnId? := by
  rw [List.map_map]
  exact List.map_congr_left fun spawn _ => spawnId?_mergeResult result spawn

theorem spawnId?_of_validSpawnPayload {record : Members} (h : validSpawnPayload record = true) :
    ∃ id, spawnId? record = some id := by
  unfold validSpawnPayload at h
  simp only [Bool.and_eq_true, List.all_cons] at h
  obtain ⟨id, hid, -⟩ := textSatisfies_iff.mp h.1.1.2.1
  exact ⟨id, by rw [spawnId?, hid, Json.text?]⟩

/-- A valid event adds the id that it spawns. -/
theorem map_spawnId?_spawnsAfter {spawns : List Members} {e : AgentEvent}
    (h : ValidAgentEvent e) :
    (spawnsAfter spawns e).map spawnId? =
      spawns.map spawnId? ++ (spawnedId? e).toList.map some := by
  unfold spawnsAfter spawnedId?
  by_cases hs : e.1 = lit "agent_spawned"
  · obtain ⟨record, hrecord, hp⟩ := h.1 hs
    obtain ⟨id, hid⟩ := spawnId?_of_validSpawnPayload hp
    simp [hs, hrecord, hid]
  · cases hrecord : agentRecord? e with
    | none => simp [hs]
    | some record =>
      by_cases hr : e.1 = lit "agent_result"
      · dsimp only
        rw [if_neg hs, if_pos hr, if_neg hs, map_spawnId?_mergeResult]
        simp
      · simp [hs, hr]

theorem map_spawnId?_foldl {events : List AgentEvent} (h : ∀ e ∈ events, ValidAgentEvent e) :
    ∀ spawns : List Members, (events.foldl spawnsAfter spawns).map spawnId? =
      spawns.map spawnId? ++ (events.filterMap spawnedId?).map some := by
  induction events with
  | nil => simp
  | cons e events ih =>
    intro spawns
    rw [List.foldl_cons, ih (fun f hf => h f (List.mem_cons_of_mem _ hf)),
      map_spawnId?_spawnsAfter (h e List.mem_cons_self), List.append_assoc, ← List.map_append,
      List.filterMap_cons]
    cases spawnedId? e <;> rfl

/-- An event keeps the calls in their places, with their ids. -/
theorem spawnId?_spawnsAfter {spawns : List Members} (e : AgentEvent) {i : ℕ} {spawn : Members}
    (h : spawns[i]? = some spawn) :
    ∃ spawn', (spawnsAfter spawns e)[i]? = some spawn' ∧ spawnId? spawn' = spawnId? spawn := by
  unfold spawnsAfter
  split
  · exact ⟨spawn, h, rfl⟩
  · rename_i record _
    split_ifs
    · exact ⟨spawn, by rw [List.getElem?_append_left (List.getElem?_eq_some_iff.mp h).1, h], rfl⟩
    · exact ⟨mergeResult record spawn, by rw [List.getElem?_map, h]; rfl,
        spawnId?_mergeResult record spawn⟩
    · exact ⟨spawn, h, rfl⟩

theorem spawnId?_foldl (events : List AgentEvent) : ∀ {spawns : List Members} {i : ℕ}
    {spawn : Members}, spawns[i]? = some spawn →
    ∃ spawn', (events.foldl spawnsAfter spawns)[i]? = some spawn' ∧
      spawnId? spawn' = spawnId? spawn := by
  induction events with
  | nil => exact fun h => ⟨_, h, rfl⟩
  | cons e events ih =>
    intro spawns i spawn h
    obtain ⟨spawn₁, h₁, hid₁⟩ := spawnId?_spawnsAfter e h
    obtain ⟨spawn', h', hid⟩ := ih h₁
    exact ⟨spawn', h', hid.trans hid₁⟩

/-! ## The rest of a history, with the calls so far -/

/-- The rest of the events completes the calls so far to the records. -/
structure RestOfHistory (records spawns : List Members) (opened : List PyStr)
    (events : List AgentEvent) : Prop where
  records : List.Forall₂ (fun spawn record => Json.Same (.obj spawn) (.obj record))
    (events.foldl spawnsAfter spawns) records
  valid : ∀ e ∈ events, ValidAgentEvent e
  unique : (spawns.map spawnId? ++ (events.filterMap spawnedId?).map some).Nodup
  openRules : OpenRules opened events

theorem agentHistory_iff {records : List Members} {events : List AgentEvent} :
    AgentHistory records events ↔ RestOfHistory records [] [] events := by
  have hunique : (([] : List Members).map spawnId? ++ (events.filterMap spawnedId?).map some).Nodup ↔
      (events.filterMap spawnedId?).Nodup := by
    rw [List.map_nil, List.nil_append, List.nodup_map_iff (Option.some_injective _)]
  constructor
  · rintro ⟨hrecords, hvalid, hnodup, hresults, hbounded⟩
    exact ⟨hrecords, hvalid, hunique.mpr hnodup, openRules_iff.mpr ⟨hresults, hbounded⟩⟩
  · rintro ⟨hrecords, hvalid, hnodup, hrules⟩
    exact ⟨hrecords, hvalid, hunique.mp hnodup, (openRules_iff.mp hrules).1,
      (openRules_iff.mp hrules).2⟩

theorem RestOfHistory.same {records spawns : List Members} {opened : List PyStr}
    {events : List AgentEvent} (h : RestOfHistory records spawns opened events) {i : ℕ}
    {spawn expected : Members} (hspawn : (events.foldl spawnsAfter spawns)[i]? = some spawn)
    (hexpected : records[i]? = some expected) : Json.Same (.obj spawn) (.obj expected) := by
  obtain ⟨hi, rfl⟩ := List.getElem?_eq_some_iff.mp hspawn
  obtain ⟨hi', rfl⟩ := List.getElem?_eq_some_iff.mp hexpected
  exact (List.forall₂_iff_get.mp h.records).2 i hi hi'

theorem RestOfHistory.length_le {records spawns : List Members} {opened : List PyStr}
    {events : List AgentEvent} (h : RestOfHistory records spawns opened events) :
    spawns.length ≤ records.length := by
  rw [← (List.forall₂_iff_get.mp h.records).1]
  by_contra hlt
  have hi : (events.foldl spawnsAfter spawns).length < spawns.length := by omega
  obtain ⟨spawn', h', -⟩ := spawnId?_foldl events (List.getElem?_eq_getElem hi)
  have := (List.getElem?_eq_some_iff.mp h').1
  omega

/-- A call has the id of its record. -/
theorem RestOfHistory.spawnId?_eq {records spawns : List Members} {opened : List PyStr}
    {events : List AgentEvent} (h : RestOfHistory records spawns opened events) {i : ℕ}
    {spawn expected : Members} (hspawn : spawns[i]? = some spawn)
    (hexpected : records[i]? = some expected) : spawnId? spawn = spawnId? expected := by
  obtain ⟨spawn', hspawn', hid⟩ := spawnId?_foldl events hspawn
  have hsame := h.same hspawn' hexpected
  exact hid.symm.trans (text?_get_of_same hsame "spawn_id")

/-- A call that is closed stays as it is. -/
theorem getElem?_of_closed {events : List AgentEvent} :
    ∀ {spawns : List Members} {opened : List PyStr} {i : ℕ} {spawn : Members} {id : PyStr},
      spawns[i]? = some spawn → spawnId? spawn = some id → id ∉ opened →
      (∀ e ∈ events, spawnedId? e ≠ some id) → OpenRules opened events →
      (events.foldl spawnsAfter spawns)[i]? = some spawn := by
  induction events with
  | nil => exact fun h _ _ _ _ => h
  | cons e events ih =>
    intro spawns opened i spawn id hspawn hid hclosed hfresh hrules
    obtain ⟨-, hresult, hrules⟩ := hrules
    have hnot := hfresh e List.mem_cons_self
    refine ih ?_ hid ?_ (fun f hf => hfresh f (List.mem_cons_of_mem _ hf)) hrules
    · unfold spawnsAfter
      split
      · exact hspawn
      · rename_i record hrecord
        split_ifs with hs hr
        · rw [List.getElem?_append_left (List.getElem?_eq_some_iff.mp hspawn).1, hspawn]
        · obtain ⟨other, hother, hspawnId⟩ := hresult hr
          have hne : spawnId? spawn ≠ spawnId? record := by
            rw [hid]
            rw [hrecord, Option.bind_some] at hspawnId
            rw [hspawnId]
            rintro ⟨⟩
            exact hclosed hother
          rw [List.getElem?_map, hspawn, Option.map_some, mergeResult, if_neg hne]
        · exact hspawn
    · unfold openAfterAgent
      split
      · exact hclosed
      · rename_i other hother
        split_ifs with hs hr
        · rw [spawnedId?, if_pos hs, hother] at hnot
          simp only [List.mem_append, List.mem_singleton, not_or]
          exact ⟨hclosed, fun h => hnot (by rw [h])⟩
        · exact fun hmem => hclosed (List.mem_filter.mp hmem).1
        · exact hclosed

/-! ## The mirror -/

theorem consume_eq {m : AgentMirror} (hm : m.structurallyValid = true) {e : AgentEvent} :
    m.consume e.1 e.2 =
      match agentRecord? e with
      | some record =>
        if e.1 = lit "agent_spawned" then m.spawned record
        else if e.1 = lit "agent_result" then m.finished record
        else m
      | none =>
        if e.1 = lit "agent_spawned" ∨ e.1 = lit "agent_result" then m.reject else m := by
  obtain ⟨eventType, payload⟩ := e
  have hcontains : agentLifecycleEventTypes.contains eventType = true ↔
      eventType = lit "agent_spawned" ∨ eventType = lit "agent_result" := by
    simp [agentLifecycleEventTypes]
  unfold AgentMirror.consume agentRecord?
  by_cases htype : eventType = lit "agent_spawned" ∨ eventType = lit "agent_result"
  · rw [hm, hcontains.mpr htype]
    cases payload with
    | obj payload =>
      rcases htype with rfl | rfl
      · simp
      · simp [show lit "agent_result" ≠ lit "agent_spawned" by decide]
    | _ => simp [htype]
  · have hnot := htype
    rw [not_or] at hnot
    have hcontains' : agentLifecycleEventTypes.contains eventType = false := by
      rw [← Bool.not_eq_true, hcontains]
      exact htype
    rw [hcontains']
    cases payload with
    | obj payload => simp [hnot]
    | _ => simp [htype]

/-- What a valid mirror says of a spawn. -/
theorem spawned_of_valid {m : AgentMirror} {record : Members}
    (h : (m.spawned record).valid = true) :
    ∃ id expected, validSpawnPayload record = true ∧ m.openRecords.length < maxOpenAgentSpawns ∧
      spawnId? record = some id ∧ m.records[m.recordIndex]? = some expected ∧
      spawnId? expected = some id ∧
      m.spawned record = { m with
        recordIndex := m.recordIndex + 1
        openRecords := Dict.set m.openRecords id (record, expected) } := by
  unfold AgentMirror.spawned at h ⊢
  split_ifs at h ⊢ with hp hopen
  · cases h
  · cases h
  · split at h
    · rename_i id expected hid hexpected
      obtain ⟨hvalid, htext⟩ := (Bool.and_eq_true _ _).mp h
      refine ⟨id, expected, by simpa using hp, by omega, hid, hexpected,
        Json.text?_eq_some.mpr (Json.isText_iff.mp htext), ?_⟩
      simp only [hvalid, htext, Bool.and_self]
    · cases h

theorem valid_spawned {m : AgentMirror} {record expected : Members} {id : PyStr}
    (hvalid : m.valid = true) (hp : validSpawnPayload record = true)
    (hopen : m.openRecords.length < maxOpenAgentSpawns) (hid : spawnId? record = some id)
    (hexpected : m.records[m.recordIndex]? = some expected) (hid' : spawnId? expected = some id) :
    (m.spawned record).valid = true := by
  have htext : (expected.get "spawn_id").isText id = true :=
    Json.isText_iff.mpr (Json.text?_eq_some.mp hid')
  unfold spawnId? at hid
  unfold AgentMirror.spawned
  rw [if_neg (by simp [hp]), if_neg (by omega), hid, hexpected]
  simp [hvalid, htext]

/-- What a valid mirror says of a result. -/
theorem finished_of_valid {m : AgentMirror} {record : Members}
    (h : (m.finished record).valid = true) :
    ∃ id spawn expected, validResultPayload record = true ∧ spawnId? record = some id ∧
      Dict.get? m.openRecords id = some (spawn, expected) ∧
      eventPayloadMatchesMetadataRecord (Dict.update spawn (Dict.erase record (lit "spawn_id")))
        expected = true ∧
      m.finished record = { m with openRecords := Dict.erase m.openRecords id } := by
  unfold AgentMirror.finished at h ⊢
  split_ifs at h ⊢ with hp
  · cases h
  · split at h
    · rename_i id hid
      split at h
      · rename_i spawn expected hget
        obtain ⟨hvalid, hmatches⟩ := (Bool.and_eq_true _ _).mp h
        refine ⟨id, spawn, expected, by simpa using hp, hid, hget, hmatches, ?_⟩
        simp only [hvalid, hmatches, Bool.and_self]
      · cases h
    · cases h

theorem valid_finished {m : AgentMirror} {record spawn expected : Members} {id : PyStr}
    (hvalid : m.valid = true) (hp : validResultPayload record = true)
    (hid : spawnId? record = some id) (hget : Dict.get? m.openRecords id = some (spawn, expected))
    (hmatches : eventPayloadMatchesMetadataRecord
      (Dict.update spawn (Dict.erase record (lit "spawn_id"))) expected = true) :
    (m.finished record).valid = true := by
  unfold spawnId? at hid
  unfold AgentMirror.finished
  rw [if_neg (by simp [hp]), hid]
  simp only [hget, hvalid, hmatches, Bool.and_self]

/-- No text is the `spawn_id` of two records. -/
theorem index_of_spawnId? {records : List Members} (hids : (AgentMirror.spawnIds records).Nodup)
    {i j : ℕ} {a b : Members} {id : PyStr} (ha : records[i]? = some a) (hb : records[j]? = some b)
    (hida : spawnId? a = some id) (hidb : spawnId? b = some id) : i = j := by
  have hpairs := List.pairwise_iff_getElem.mp (List.pairwise_filterMap.mp hids)
  obtain ⟨hi, rfl⟩ := List.getElem?_eq_some_iff.mp ha
  obtain ⟨hj, rfl⟩ := List.getElem?_eq_some_iff.mp hb
  rcases lt_trichotomy i j with hlt | heq | hlt
  · exact absurd rfl (hpairs i j hi hj hlt id hida id hidb)
  · exact heq
  · exact absurd rfl (hpairs j i hj hi hlt id hidb id hida)

/-- The mirror after the events that led to the calls so far. -/
structure MirrorsAgents (records spawns : List Members) (opened : List PyStr) (m : AgentMirror) :
    Prop where
  structurallyValid : m.structurallyValid = true
  valid : m.valid = true
  metadataRecords : m.records = records
  recordIndex : m.recordIndex = spawns.length
  keys_eq : Dict.keys m.openRecords = opened
  length_le : opened.length ≤ maxOpenAgentSpawns
  ids : (AgentMirror.spawnIds records).Nodup
  /-- A call has the id of its record, and is the record once it is closed. -/
  spawned : ∀ (i : ℕ) spawn, spawns[i]? = some spawn → ∃ expected id, records[i]? = some expected ∧
    spawnId? spawn = some id ∧ spawnId? expected = some id ∧
    (id ∉ opened → Json.Same (.obj spawn) (.obj expected))
  entries : ∀ id spawn expected, (id, spawn, expected) ∈ m.openRecords →
    ∃ i : ℕ, spawns[i]? = some spawn ∧ records[i]? = some expected ∧ spawnId? spawn = some id
  clean : ∀ spawn ∈ spawns, lit "metadata_hash_after" ∉ Dict.keys spawn

section MirrorsAgents

variable {records spawns : List Members} {opened : List PyStr} {m : AgentMirror}
  {events : List AgentEvent} {e : AgentEvent}

theorem MirrorsAgents.index_eq (h : MirrorsAgents records spawns opened m) {i j : ℕ} {a b : Members}
    {id : PyStr} (ha : spawns[i]? = some a) (hb : spawns[j]? = some b)
    (hida : spawnId? a = some id) (hidb : spawnId? b = some id) : i = j := by
  obtain ⟨a', ida, ha', hida₁, hida₂, -⟩ := h.spawned i a ha
  obtain ⟨b', idb, hb', hidb₁, hidb₂, -⟩ := h.spawned j b hb
  have hfirst : spawnId? a' = some id := by rw [hida₂, ← hida₁, hida]
  have hsecond : spawnId? b' = some id := by rw [hidb₂, ← hidb₁, hidb]
  exact index_of_spawnId? h.ids ha' hb' hfirst hsecond

theorem MirrorsAgents.nodup (h : MirrorsAgents records spawns opened m) : (spawns.map spawnId?).Nodup := by
  refine List.pairwise_iff_getElem.mpr fun i j hi hj hlt heq => ?_
  rw [List.length_map] at hi hj
  rw [List.getElem_map, List.getElem_map] at heq
  obtain ⟨_, id, -, hid, -⟩ := h.spawned i _ (List.getElem?_eq_getElem hi)
  have hij := h.index_eq (List.getElem?_eq_getElem hi) (List.getElem?_eq_getElem hj) hid
    (heq ▸ hid)
  omega

theorem matches_iff {spawn expected : Members} (h : lit "metadata_hash_after" ∉ Dict.keys spawn) :
    eventPayloadMatchesMetadataRecord spawn expected = true ↔
      Json.Same (.obj spawn) (.obj expected) := by
  rw [eventPayloadMatchesMetadataRecord_iff, eventPayloadMetadataRecord, Dict.erase_eq_self h]

theorem notMem_keys_merge {spawn record : Members} {key : PyStr} (hspawn : key ∉ Dict.keys spawn)
    (hrecord : key ∉ Dict.keys record) :
    key ∉ Dict.keys (Dict.update spawn (Dict.erase record (lit "spawn_id"))) := by
  refine Dict.notMem_keys_update hspawn ?_
  rw [Dict.keys_erase]
  exact fun hmem => hrecord (List.mem_filter.mp hmem).1

/-- At the end, the calls that are open are compared with their records. -/
theorem MirrorsAgents.finish_iff (h : MirrorsAgents records spawns opened m) :
    m.finish = true ↔ RestOfHistory records spawns opened [] := by
  have hunique : (spawns.map spawnId? ++ ([] : List PyStr).map some).Nodup := by
    simpa using h.nodup
  rw [AgentMirror.finish, h.structurallyValid, h.valid, h.metadataRecords, h.recordIndex, Bool.true_and,
    Bool.true_and, Bool.and_eq_true, beq_iff_eq, List.all_eq_true]
  constructor
  · rintro ⟨hlength, hopen⟩
    refine ⟨List.forall₂_iff_get.mpr ⟨hlength, fun i hi hi' => ?_⟩, by simp, hunique, h.length_le⟩
    obtain ⟨expected, id, hexpected, hid, -, hsame⟩ :=
      h.spawned i _ (List.getElem?_eq_getElem hi)
    obtain ⟨_, rfl⟩ := List.getElem?_eq_some_iff.mp hexpected
    by_cases hmem : id ∈ opened
    · rw [← h.keys_eq, ← Dict.has_iff_mem, Dict.has_eq_isSome, Option.isSome_iff_exists] at hmem
      obtain ⟨⟨spawn, expected⟩, hget⟩ := hmem
      obtain ⟨j, hspawn, hexpected', hid'⟩ := h.entries id spawn expected (Dict.mem_of_get? hget)
      obtain rfl := h.index_eq (List.getElem?_eq_getElem hi) hspawn hid hid'
      obtain ⟨_, rfl⟩ := List.getElem?_eq_some_iff.mp hspawn
      obtain ⟨_, rfl⟩ := List.getElem?_eq_some_iff.mp hexpected'
      exact (matches_iff (h.clean _ (List.getElem_mem hi))).mp (hopen _ (Dict.mem_of_get? hget))
    · exact hsame hmem
  · rintro ⟨hrecords, -⟩
    refine ⟨hrecords.length_eq, ?_⟩
    rintro ⟨id, spawn, expected⟩ hmem
    obtain ⟨i, hspawn, hexpected, -⟩ := h.entries id spawn expected hmem
    obtain ⟨hi, rfl⟩ := List.getElem?_eq_some_iff.mp hspawn
    obtain ⟨hi', rfl⟩ := List.getElem?_eq_some_iff.mp hexpected
    exact (matches_iff (h.clean _ (List.getElem_mem hi))).mpr
      ((List.forall₂_iff_get.mp hrecords).2 i hi hi')

/-! ## One event -/

/-- A valid mirror after a spawn mirrors the calls after it. -/
theorem MirrorsAgents.spawned_of_valid (h : MirrorsAgents records spawns opened m) {record : Members}
    (hclean : lit "metadata_hash_after" ∉ Dict.keys record)
    (hvalid : (m.spawned record).valid = true) :
    ∃ id, spawnId? record = some id ∧ validSpawnPayload record = true ∧
      MirrorsAgents records (spawns ++ [record]) (opened ++ [id]) (m.spawned record) := by
  obtain ⟨id, expected, hp, hopen, hid, hexpected, hid', hm⟩ := Icode.spawned_of_valid hvalid
  rw [h.metadataRecords, h.recordIndex] at hexpected
  have hnew : ∀ (i : ℕ) spawn, spawns[i]? = some spawn → spawnId? spawn ≠ some id := by
    intro i spawn hspawn hidi
    obtain ⟨expected₁, id₁, hexpected₁, hid₁, hid₁', -⟩ := h.spawned i spawn hspawn
    obtain rfl : id₁ = id := Option.some.inj (hid₁.symm.trans hidi)
    have := index_of_spawnId? h.ids hexpected₁ hexpected hid₁' hid'
    have := (List.getElem?_eq_some_iff.mp hspawn).1
    omega
  have hkeys : id ∉ Dict.keys m.openRecords := by
    intro hmem
    obtain ⟨⟨_, spawn, expected₁⟩, hentry, rfl⟩ := List.mem_map.mp hmem
    obtain ⟨i, hspawn, -, hidi⟩ := h.entries _ spawn expected₁ hentry
    exact hnew i spawn hspawn hidi
  have hget : ∀ (i : ℕ) spawn, (spawns ++ [record])[i]? = some spawn →
      spawns[i]? = some spawn ∨ i = spawns.length ∧ spawn = record := by
    intro i spawn hspawn
    rw [List.getElem?_append] at hspawn
    split_ifs at hspawn with hi
    · exact Or.inl hspawn
    · rw [List.getElem?_singleton] at hspawn
      split_ifs at hspawn with hi'
      exact Or.inr ⟨by omega, (Option.some.inj hspawn).symm⟩
  refine ⟨id, hid, hp, ?_⟩
  rw [hm, Dict.set_of_notMem _ hkeys]
  have hlength : (Dict.keys m.openRecords).length = m.openRecords.length := List.length_map _
  refine ⟨h.structurallyValid, h.valid, h.metadataRecords, ?_, ?_, ?_, h.ids, ?_, ?_, ?_⟩
  · simp [h.recordIndex]
  · rw [← h.keys_eq]
    simp [Dict.keys]
  · rw [← h.keys_eq, List.length_append, hlength, List.length_singleton]
    omega
  · intro i spawn hspawn
    rcases hget i spawn hspawn with hspawn | ⟨rfl, rfl⟩
    · obtain ⟨expected₁, id₁, hexpected₁, hid₁, hid₁', hsame⟩ := h.spawned i spawn hspawn
      exact ⟨expected₁, id₁, hexpected₁, hid₁, hid₁', fun hmem =>
        hsame fun hold => hmem (List.mem_append_left _ hold)⟩
    · exact ⟨expected, id, hexpected, hid, hid', fun hmem => absurd (by simp) hmem⟩
  · intro id₁ spawn expected₁ hmem
    rcases List.mem_append.mp hmem with hmem | hmem
    · obtain ⟨i, hspawn, hexpected₁, hid₁⟩ := h.entries id₁ spawn expected₁ hmem
      refine ⟨i, ?_, hexpected₁, hid₁⟩
      rw [List.getElem?_append_left (List.getElem?_eq_some_iff.mp hspawn).1, hspawn]
    · obtain ⟨rfl, rfl, rfl⟩ : id₁ = id ∧ spawn = record ∧ expected₁ = expected := by
        simpa using hmem
      exact ⟨spawns.length, by simp, hexpected, hid⟩
  · intro spawn hspawn
    rcases List.mem_append.mp hspawn with hspawn | hspawn
    · exact h.clean spawn hspawn
    · rw [List.mem_singleton.mp hspawn]
      exact hclean

/-- A valid mirror after a result mirrors the calls after it. -/
theorem MirrorsAgents.finished_of_valid (h : MirrorsAgents records spawns opened m) {record : Members}
    (hclean : lit "metadata_hash_after" ∉ Dict.keys record)
    (hvalid : (m.finished record).valid = true) :
    ∃ id ∈ opened, spawnId? record = some id ∧ validResultPayload record = true ∧
      MirrorsAgents records (spawns.map (mergeResult record)) (opened.filter (· ≠ id))
        (m.finished record) := by
  obtain ⟨id, open', expected, hp, hid, hget, hmatches, hm⟩ := Icode.finished_of_valid hvalid
  have hentry := Dict.mem_of_get? hget
  obtain ⟨i, hspawn, hexpected, hidi⟩ := h.entries id open' expected hentry
  have hopen : id ∈ opened := by
    rw [← h.keys_eq]
    exact List.mem_map_of_mem hentry
  have hclean' := notMem_keys_merge (h.clean open' (List.mem_of_getElem? hspawn)) hclean
  have hmerge : mergeResult record open' =
      Dict.update open' (Dict.erase record (lit "spawn_id")) := by
    rw [mergeResult, if_pos (hidi.trans hid.symm)]
  have hother : ∀ (j : ℕ) spawn id', spawns[j]? = some spawn → spawnId? spawn = some id' →
      id' ≠ id → mergeResult record spawn = spawn := by
    intro j spawn id' _ hid' hne
    rw [mergeResult, if_neg]
    rw [hid', hid]
    exact fun heq => hne (Option.some.inj heq)
  refine ⟨id, hopen, hid, hp, ?_⟩
  rw [hm]
  refine ⟨h.structurallyValid, h.valid, h.metadataRecords, ?_, ?_, ?_, h.ids, ?_, ?_, ?_⟩
  · simp [h.recordIndex]
  · rw [← h.keys_eq, ← Dict.keys_erase]
  · exact (List.length_filter_le _ _).trans h.length_le
  · intro j spawn hspawn'
    rw [List.getElem?_map, Option.map_eq_some_iff] at hspawn'
    obtain ⟨spawn, hspawn', rfl⟩ := hspawn'
    obtain ⟨expected₁, id₁, hexpected₁, hid₁, hid₁', hsame⟩ := h.spawned j spawn hspawn'
    refine ⟨expected₁, id₁, hexpected₁, (spawnId?_mergeResult record spawn).trans hid₁, hid₁', ?_⟩
    intro hmem
    by_cases heq : id₁ = id
    · subst heq
      obtain rfl := h.index_eq hspawn hspawn' hidi hid₁
      obtain rfl : open' = spawn := Option.some.inj (hspawn.symm.trans hspawn')
      obtain rfl : expected = expected₁ := Option.some.inj (hexpected.symm.trans hexpected₁)
      rw [hmerge]
      exact (matches_iff hclean').mp hmatches
    · rw [hother j spawn id₁ hspawn' hid₁ heq]
      exact hsame fun hold => hmem (List.mem_filter.mpr ⟨hold, by simpa using heq⟩)
  · intro id₁ spawn expected₁ hmem
    obtain ⟨hmem, hne⟩ := Dict.mem_erase.mp hmem
    obtain ⟨j, hspawn', hexpected₁, hid₁⟩ := h.entries id₁ spawn expected₁ hmem
    refine ⟨j, ?_, hexpected₁, hid₁⟩
    rw [List.getElem?_map, hspawn', Option.map_some, hother j spawn id₁ hspawn' hid₁ hne]
  · intro merged hmerged
    obtain ⟨spawn, hmem, rfl⟩ := List.mem_map.mp hmerged
    unfold mergeResult
    split_ifs
    · exact notMem_keys_merge (h.clean spawn hmem) hclean
    · exact h.clean spawn hmem

theorem notMem_keys_of_agentRecord? {record : Members} (h : agentRecord? e = some record) :
    lit "metadata_hash_after" ∉ Dict.keys record := by
  obtain ⟨eventType, payload⟩ := e
  cases payload with
  | obj payload =>
    obtain rfl := Option.some.inj h
    rw [eventPayloadMetadataRecord, Dict.keys_erase]
    simp
  | _ => cases h

/-- What a valid mirror says of an event. -/
theorem MirrorsAgents.consume_of_valid (h : MirrorsAgents records spawns opened m)
    (hvalid : (m.consume e.1 e.2).valid = true) :
    ValidAgentEvent e ∧ ResultOpen opened e ∧
      MirrorsAgents records (spawnsAfter spawns e) (openAfterAgent opened e) (m.consume e.1 e.2) := by
  rw [consume_eq h.structurallyValid] at hvalid ⊢
  unfold ValidAgentEvent ResultOpen spawnsAfter openAfterAgent
  cases hrecord : agentRecord? e with
  | none =>
    rw [hrecord] at hvalid
    dsimp only at hvalid ⊢
    split_ifs at hvalid with htype
    · cases hvalid
    · rw [if_neg htype]
      rw [not_or] at htype
      exact ⟨⟨fun hs => absurd hs htype.1, fun hr => absurd hr htype.2⟩,
        fun hr => absurd hr htype.2, h⟩
  | some record =>
    rw [hrecord] at hvalid
    dsimp only at hvalid ⊢
    have hclean := notMem_keys_of_agentRecord? hrecord
    rw [Option.bind_some]
    split_ifs at hvalid ⊢ with hs hr
    · obtain ⟨id, hid, hp, hafter⟩ := h.spawned_of_valid hclean hvalid
      have hr : e.1 ≠ lit "agent_result" := by rw [hs]; decide
      rw [hid]
      exact ⟨⟨fun _ => ⟨record, rfl, hp⟩, fun hr' => absurd hr' hr⟩, fun hr' => absurd hr' hr,
        hafter⟩
    · obtain ⟨id, hopen, hid, hp, hafter⟩ := h.finished_of_valid hclean hvalid
      rw [hid]
      exact ⟨⟨fun hs' => absurd hs' hs, fun _ => ⟨record, rfl, hp⟩⟩, fun _ => ⟨id, hopen, rfl⟩,
        hafter⟩
    · refine ⟨⟨fun hs' => absurd hs' hs, fun hr' => absurd hr' hr⟩, fun hr' => absurd hr' hr, ?_⟩
      split <;> exact h

theorem restOfHistory_cons (hvalid : ValidAgentEvent e) (hresult : ResultOpen opened e)
    (hlength : opened.length ≤ maxOpenAgentSpawns) :
    RestOfHistory records spawns opened (e :: events) ↔
      RestOfHistory records (spawnsAfter spawns e) (openAfterAgent opened e) events := by
  have hunique : (spawnsAfter spawns e).map spawnId? ++ (events.filterMap spawnedId?).map some =
      spawns.map spawnId? ++ ((e :: events).filterMap spawnedId?).map some := by
    rw [map_spawnId?_spawnsAfter hvalid, List.append_assoc, ← List.map_append, List.filterMap_cons]
    cases spawnedId? e <;> rfl
  constructor
  · rintro ⟨hrecords, hevents, hnodup, -, -, hrules⟩
    exact ⟨hrecords, fun f hf => hevents f (List.mem_cons_of_mem _ hf), hunique ▸ hnodup, hrules⟩
  · rintro ⟨hrecords, hevents, hnodup, hrules⟩
    refine ⟨hrecords, ?_, hunique ▸ hnodup, hlength, hresult, hrules⟩
    rintro f (_ | ⟨_, hf⟩)
    · exact hvalid
    · exact hevents f hf

/-- An event of a history keeps the mirror valid. -/
theorem MirrorsAgents.valid_consume (h : MirrorsAgents records spawns opened m)
    (hrest : RestOfHistory records spawns opened (e :: events)) :
    (m.consume e.1 e.2).valid = true := by
  have hvalid := hrest.valid e List.mem_cons_self
  obtain ⟨hlength, hresult, hrules⟩ := hrest.openRules
  have hafter := (restOfHistory_cons hvalid hresult hlength).mp hrest
  rw [consume_eq h.structurallyValid]
  by_cases hs : e.1 = lit "agent_spawned"
  · obtain ⟨record, hrecord, hp⟩ := hvalid.1 hs
    obtain ⟨id, hid⟩ := spawnId?_of_validSpawnPayload hp
    have hspawns : spawnsAfter spawns e = spawns ++ [record] := by
      simp [spawnsAfter, hrecord, hs]
    have hopened : openAfterAgent opened e = opened ++ [id] := by
      simp [openAfterAgent, hrecord, hid, hs]
    rw [hspawns, hopened] at hafter
    have hlength' := hafter.length_le
    rw [List.length_append, List.length_singleton] at hlength'
    obtain ⟨expected, hexpected⟩ : ∃ expected, records[spawns.length]? = some expected :=
      ⟨_, List.getElem?_eq_getElem (by omega)⟩
    have hlast : (spawns ++ [record])[spawns.length]? = some record := by simp
    have hid' := hafter.spawnId?_eq hlast hexpected
    rw [hrecord]
    simp only [hs, if_true]
    refine valid_spawned h.valid hp ?_ hid ?_ (hid'.symm.trans hid)
    · have hopen := hafter.openRules.length_le
      rw [← h.keys_eq, List.length_append, List.length_singleton, Dict.keys, List.length_map] at hopen
      omega
    · rw [h.metadataRecords, h.recordIndex, hexpected]
  · by_cases hr : e.1 = lit "agent_result"
    · obtain ⟨record, hrecord, hp⟩ := hvalid.2 hr
      obtain ⟨id, hopen, hid⟩ := hresult hr
      rw [hrecord, Option.bind_some] at hid
      have hspawns : spawnsAfter spawns e = spawns.map (mergeResult record) := by
        simp [spawnsAfter, hrecord, hr]
      have hopened : openAfterAgent opened e = opened.filter (· ≠ id) := by
        simp [openAfterAgent, hrecord, hid, hr]
      rw [hspawns, hopened] at hafter
      rw [← h.keys_eq, ← Dict.has_iff_mem, Dict.has_eq_isSome, Option.isSome_iff_exists] at hopen
      obtain ⟨⟨spawn, expected⟩, hget⟩ := hopen
      obtain ⟨i, hspawn, hexpected, hidi⟩ := h.entries id spawn expected (Dict.mem_of_get? hget)
      have hmerge : mergeResult record spawn =
          Dict.update spawn (Dict.erase record (lit "spawn_id")) := by
        rw [mergeResult, if_pos (hidi.trans hid.symm)]
      have hmerged : (spawns.map (mergeResult record))[i]? = some (mergeResult record spawn) := by
        rw [List.getElem?_map, hspawn, Option.map_some]
      have hidm : spawnId? (mergeResult record spawn) = some id := by
        rw [spawnId?_mergeResult, hidi]
      -- no later event spawns or completes the call
      have hfresh : ∀ f ∈ events, spawnedId? f ≠ some id := by
        intro f hf hspawned
        refine (List.nodup_append.mp hafter.unique).2.2 (some id) ?_ (some id) ?_ rfl
        · exact List.mem_map.mpr ⟨_, List.mem_of_getElem? hmerged, hidm⟩
        · exact List.mem_map_of_mem (List.mem_filterMap.mpr ⟨f, hf, hspawned⟩)
      have hfinal := getElem?_of_closed hmerged hidm (by simp) hfresh hafter.openRules
      have hsame := hafter.same hfinal hexpected
      rw [hmerge] at hsame
      rw [hrecord]
      dsimp only
      rw [if_neg hs, if_pos hr]
      refine valid_finished h.valid hp hid hget ((matches_iff ?_).mpr hsame)
      exact notMem_keys_merge (h.clean spawn (List.mem_of_getElem? hspawn))
        (notMem_keys_of_agentRecord? hrecord)
    · cases hrecord : agentRecord? e with
      | none => simp [hs, hr, h.valid]
      | some record => simp [hs, hr, h.valid]

theorem MirrorsAgents.finish_consumeAll_iff (h : MirrorsAgents records spawns opened m) :
    (m.consumeAll events).finish = true ↔ RestOfHistory records spawns opened events := by
  induction events generalizing spawns opened m with
  | nil => exact h.finish_iff
  | cons e events ih =>
    constructor
    · intro hfinish
      have hvalid := AgentMirror.valid_of_valid_consume (m := m.consume e.1 e.2) hfinish
      obtain ⟨hevent, hresult, hafter⟩ := h.consume_of_valid hvalid
      exact (restOfHistory_cons hevent hresult h.length_le).mpr ((ih hafter).mp hfinish)
    · intro hrest
      obtain ⟨hevent, hresult, hafter⟩ := h.consume_of_valid (h.valid_consume hrest)
      exact (ih hafter).mpr ((restOfHistory_cons hevent hresult h.length_le).mp hrest)

end MirrorsAgents

/-! ## The whole history -/

theorem not_finish_of_not_valid {m : AgentMirror} {events : List AgentEvent}
    (h : m.valid = false) : (m.consumeAll events).finish ≠ true := by
  intro hfinish
  have hvalid := AgentMirror.valid_of_valid_consume hfinish
  rw [h] at hvalid
  cases hvalid

/-- The records of a history have different ids. -/
theorem AgentHistory.nodup {records : List Members} {events : List AgentEvent}
    (h : AgentHistory records events) : (AgentMirror.spawnIds records).Nodup := by
  have hsame : List.Forall₂ (fun a b => a = b)
      ((events.foldl spawnsAfter []).map spawnId?) (records.map spawnId?) := by
    rw [List.forall₂_map_left_iff, List.forall₂_map_right_iff]
    exact h.records.imp fun a b hab => text?_get_of_same hab "spawn_id"
  have heq := List.forall₂_eq_eq_eq ▸ hsame
  have hids : AgentMirror.spawnIds records = (records.map spawnId?).filterMap id := by
    rw [List.filterMap_map]
    rfl
  rw [hids, ← heq, map_spawnId?_foldl h.valid, List.map_nil, List.nil_append, List.filterMap_map]
  simpa using h.unique

/-- The mirror accepts exactly the histories of the records. -/
theorem agentMirror_finish_iff (metadataRecords : Option Json) (events : List AgentEvent) :
    ((AgentMirror.init metadataRecords).consumeAll events).finish = true ↔
      ∃ records, objectRecords? metadataRecords = some records ∧ AgentHistory records events := by
  cases hrecords : objectRecords? metadataRecords with
  | none =>
    have hvalid : (AgentMirror.init metadataRecords).valid = false := by
      rw [AgentMirror.init, hrecords]
    simp [not_finish_of_not_valid hvalid]
  | some records =>
    have hinit : AgentMirror.init metadataRecords =
        ⟨true, records, 0, [], decide (AgentMirror.spawnIds records).Nodup⟩ := by
      rw [AgentMirror.init, hrecords]
    simp only [Option.some.injEq, exists_eq_left']
    by_cases hids : (AgentMirror.spawnIds records).Nodup
    · rw [agentHistory_iff]
      refine MirrorsAgents.finish_consumeAll_iff ?_
      rw [hinit]
      exact ⟨rfl, decide_eq_true hids, rfl, rfl, rfl, Nat.zero_le _, hids, by simp, by simp, by simp⟩
    · refine iff_of_false (not_finish_of_not_valid ?_) fun h => hids h.nodup
      rw [hinit]
      exact decide_eq_false hids

end Icode
