import Icode.MetadataMirror

/-!
# The birth of a ledger

The exporter writes no package without events, and the first event of a ledger is the
birth of its ticket. The verifier looks at the type of the first event when there is
one, so an accepted package has a ledger with a birth exactly when the text of
`ticket/events.jsonl` is not blank (`bornLedger_iff`); `blankPack_accepted` is a package
whose ledger is empty.
-/

namespace Icode

open Py

/-! ## Blank texts -/

theorem strip_eq_nil_iff {s : PyStr} : strip s = [] ↔ ∀ c ∈ s, isSpace c = true := by
  constructor
  · intro h c hc
    by_contra hspace
    exact strip_ne_nil hc (Bool.eq_false_iff.mpr hspace) h
  · intro h
    rw [strip, List.dropWhile_eq_nil_iff.mpr h]
    rfl

theorem flatten_textLines (text : PyStr) : (textLines text).flatten = text := by
  fun_induction textLines text with
  | case1 => rfl
  | case2 c cs hend ih => simp [ih]
  | case3 c cs hend hnil ih =>
    rw [hnil] at ih
    simp [← ih]
  | case4 c cs hend line lines hlines ih =>
    rw [hlines] at ih
    simp [← ih]

/-- Lines that are read to their end have no event exactly when they are blank. -/
theorem frameLines_eq_nil_iff {last : Option StreamStop} {lines : List PyStr} :
    ∀ {lineno total count : ℕ}, (frameLines last lineno total count lines).2 = none →
      ((frameLines last lineno total count lines).1 = [] ↔ ∀ line ∈ lines, strip line = []) := by
  induction lines with
  | nil => simp [frameLines]
  | cons line lines ih =>
    intro lineno total count h
    rw [List.forall_mem_cons]
    unfold frameLines at h ⊢
    dsimp only at h ⊢
    split_ifs at h ⊢ with _ _ hblank
    · rw [ih h, and_iff_right (List.isEmpty_iff.mp hblank)]
    · rw [List.isEmpty_iff] at hblank
      split at h
      · cases h
      · simp [hblank]
      · cases h

/-- The text of the ledger has a character that is no white space. -/
def NotBlank (content : Bytes) : Prop :=
  ∃ text, decode content = some text ∧ ∃ c ∈ text, isSpace c = false

/-- The lines of a file that is read to its end are those of its text. -/
theorem exists_of_fileLines {content : Bytes} {delivered : ℕ}
    (h : (fileLines content delivered).2 = none) :
    ∃ text, decode content = some text ∧ (fileLines content delivered).1 = textLines text := by
  rw [fileLines] at h ⊢
  rcases hdecoded : decodePrefix content with ⟨text, _ | ⟨b, rest⟩⟩
  · exact ⟨text, by rw [decode, hdecoded], rfl⟩
  · rw [hdecoded] at h
    cases h

theorem eventStream_eq {content : Bytes} {delivered : ℕ}
    (h : ¬maxEventChainTotalBytes < content.length) :
    eventStream content delivered =
      frameLines (fileLines content delivered).2 0 0 0 (fileLines content delivered).1 := by
  rw [eventStream, if_neg h]

/-- A ledger that is read to its end has events exactly when it is not blank. -/
theorem eventsOf_ne_nil_iff {content : Bytes} {delivered : ℕ}
    (h : (eventStream content delivered).2 = none) :
    eventsOf content delivered ≠ [] ↔ NotBlank content := by
  rw [eventsOf, ne_eq, List.map_eq_nil_iff]
  by_cases hlength : maxEventChainTotalBytes < content.length
  · rw [eventStream, if_pos hlength] at h
    cases h
  rw [eventStream_eq hlength] at h ⊢
  obtain ⟨text, htext, hlines⟩ := exists_of_fileLines (last_eq_none_of_frameLines h)
  have hflat : (∀ line ∈ textLines text, strip line = []) ↔ ∀ c ∈ text, isSpace c = true := by
    conv_rhs => rw [← flatten_textLines text]
    simp only [strip_eq_nil_iff, List.mem_flatten]
    constructor
    · rintro hall c ⟨line, hline, hc⟩
      exact hall line hline c hc
    · exact fun hall line hline c hc => hall c ⟨line, hline, hc⟩
  rw [frameLines_eq_nil_iff h, hlines, hflat]
  simp [NotBlank, htext]

/-! ## The first event -/

section First

variable {printable : CodePoint → Bool} {exp : Expectations} {events : List (ℕ × Members)}
  {s' : ChainState}

/-- Past the first event, what was found about it stays. -/
theorem firstTypeValid_consumeEvents : ∀ {s : ChainState}, 1 ≤ s.eventCount →
    consumeEvents printable exp s events = .ok s' → s'.firstTypeValid = s.firstTypeValid := by
  induction events with
  | nil =>
    intro s _ h
    obtain rfl := Except.ok.inj h
    rfl
  | cons e events ih =>
    intro s hs h
    obtain ⟨k, hk, hrest⟩ := consumeEvents_cons.mp h
    obtain ⟨x, -, rfl⟩ := ChainState.consume_eq_ok.mp hk
    rw [ih (Nat.le_add_left 1 _) hrest]
    exact if_neg (by omega)

/-- The first event of a run without problems has an allowed type. -/
theorem firstType_of_finish {e : ℕ × Members}
    (h : consumeEvents printable exp (ChainState.init exp) (e :: events) = .ok s')
    (hfinish : s'.finish exp = []) :
    textSatisfies allowedFirstEvent.contains (e.2.get "event_type") = true := by
  have hcount := (ran_of_consumeEvents h).eventCount
  obtain ⟨k, hk, hrest⟩ := consumeEvents_cons.mp h
  obtain ⟨x, -, rfl⟩ := ChainState.consume_eq_ok.mp hk
  have hvalid := firstTypeValid_consumeEvents (Nat.le_add_left 1 _) hrest
  simp only [ChainState.finish, List.append_eq_nil_iff, issueUnless_eq_nil, Bool.or_eq_true,
    beq_iff_eq, hcount, hvalid, List.map_cons, List.length_cons] at hfinish
  obtain ⟨⟨⟨⟨⟨⟨⟨⟨⟨⟨⟨-, -⟩, hfirst⟩, -⟩, -⟩, -⟩, -⟩, -⟩, -⟩, -⟩, -⟩, -⟩ := hfinish
  exact hfirst.resolve_left (by omega)

end First

/-! ## Born ledgers -/

/-- The state changes lead to `metadata.status`, from the initial state of the birth kind when
the ticket was created. -/
def StatusReached (sm : StateMachine) (metadata : Members) (events : List Members) : Prop :=
  ∃ first, StatePath sm first (stateMoves events) (metadata.get "status") ∧
    ∀ e, events.head? = some e → e.get "event_type" = .str "ticket_created" →
      ∃ kind initial, payloadGet e "birth_kind" = .str kind ∧
        Dict.get? ticketInitialStates kind = some initial ∧ first = .str initial

/-- The ledger begins with a birth, from which a ticket that has a state machine reached its
status. -/
structure BornLedger (metadata : Members) (stateMachine : Option Json) (events : List Members) :
    Prop where
  birth : ∃ e rest kind, events = e :: rest ∧ e.get "event_type" = .str kind ∧
    kind ∈ allowedFirstEvent
  /-- The verifier replays the states of tickets of version 3 against the contract. -/
  status : ∀ v, stateMachine = some v → metadata.get "schema_version" = .int 3 →
    ∃ sm, normalizeTicketStateMachine v = .ok sm ∧ StatusReached sm metadata events

/-- The state machine of a contract is a value. -/
theorem packContract_stateMachine_ne_null {es : Directory} {v : Json}
    (h : (packContract es).2.stateMachine = some v) : v ≠ .null := by
  rintro rfl
  unfold packContract at h
  split at h
  · cases h
  split at h
  · cases h
  split at h
  · cases h
  next snapshot hsnapshot =>
  simp only [contractValues, normalizedValue] at h
  split at h
  · cases h
  · split at h
    · next sm _ => simp [StateMachine.toJson] at h
    · cases h

/-- The events of an accepted chain are a born ledger exactly when its text is not blank. -/
theorem bornLedger_of_verifyEventChain {printable : CodePoint → Bool} {ticketId : Option PyStr}
    {metadata : Members} {stateMachine executionModel completionReceipt : Option Json}
    {content : Bytes} {delivered : ℕ} {facts : Dict PyStr (PyStr × PyStr)}
    (hmachine : ∀ v, stateMachine = some v → v ≠ .null)
    (h : verifyEventChain printable (expectationsOf ticketId metadata stateMachine executionModel
      completionReceipt) content delivered = .ok (facts, [])) :
    BornLedger metadata stateMachine (eventsOf content delivered) ↔ NotBlank content := by
  have haccepted := accepted_of_verifyEventChain h
  obtain ⟨hcomplete, s, hrun, hfinish, -⟩ := exists_of_verifyEventChain h
  rw [← eventsOf_ne_nil_iff hcomplete]
  constructor
  · rintro ⟨⟨e, rest, kind, hevents, -⟩, -⟩ hnil
    simp [hnil] at hevents
  · intro hne
    refine ⟨?_, ?_⟩
    · unfold eventsOf at hne ⊢
      rcases hstream : (eventStream content delivered).1 with _ | ⟨e, rest⟩
      · simp [hstream] at hne
      rw [hstream] at hrun
      obtain ⟨kind, htype, hkind⟩ := textSatisfies_iff.mp (firstType_of_finish hrun hfinish)
      exact ⟨e.2, rest.map Prod.snd, kind, rfl, htype, List.contains_iff_mem.mp hkind⟩
    · rintro v rfl hversion
      have hticket := haccepted.ticket
      obtain ⟨sm, hsm, hinit⟩ := TicketMirror.init_eq_start (hmachine v rfl) hversion hticket
      refine ⟨sm, hsm, TicketMirror.states_of_finish (fun e he => ?_) (hinit ▸ hticket)⟩
      obtain ⟨payload, hpayload⟩ := (haccepted.fields e he).payload
      exact ⟨payload, payload?_eq_some.mpr hpayload⟩

/-- The ledger of an accepted package begins with a birth, from which the status of the ticket is
reached, exactly when its text is not blank. -/
theorem bornLedger_iff {printable : CodePoint → Bool} {args : VerifyArguments} {pack : Pack}
    {delivered : ℕ} (h : verifyPack printable args pack delivered = .ok []) :
    ∃ metadata content, ticketMetadata pack.entries = .ok metadata ∧
      memberFile pack.entries eventsRel = some content ∧
      (BornLedger metadata (packContract pack.entries).2.stateMachine
        (packEvents pack.entries delivered) ↔ NotBlank content) := by
  obtain ⟨manifest, _, haccepted⟩ := accepted_of_verifyPack h
  obtain ⟨metadata, hmetadata⟩ := ticketMetadata_of_ticketProblems haccepted.ticket
  obtain ⟨remaining, -, hevents⟩ := haccepted.files
  obtain ⟨content, facts, hfile, hchain, -⟩ := exists_of_eventsProblems hevents
  have hpack : packEvents pack.entries delivered = eventsOf content delivered := by
    rw [packEvents, hfile, Option.map_some, Option.getD_some]
  rw [hmetadata] at hchain
  exact ⟨metadata, content, hmetadata, hfile, hpack ▸ bornLedger_of_verifyEventChain
    (fun v => packContract_stateMachine_ne_null) hchain⟩

theorem bornLedger_iff_blankPack :
    ∃ metadata content, ticketMetadata blankPack.entries = .ok metadata ∧
      memberFile blankPack.entries eventsRel = some content ∧
      (BornLedger metadata (packContract blankPack.entries).2.stateMachine
        (packEvents blankPack.entries 0) ↔ NotBlank content) :=
  bornLedger_iff verifyPack_blankPack

/-- The verifier accepts a ledger without events. -/
theorem blankPack_accepted :
    verifyPack (fun _ => true) ⟨none, false⟩ blankPack 0 = .ok [] ∧
      packEvents blankPack.entries 0 = [] ∧ ∀ metadata stateMachine,
        ¬ BornLedger metadata stateMachine (packEvents blankPack.entries 0) := by
  refine ⟨verifyPack_blankPack, packEvents_blankPack, ?_⟩
  rintro metadata stateMachine ⟨⟨e, rest, kind, hevents, -⟩, -⟩
  simp [packEvents_blankPack] at hevents

end Icode
