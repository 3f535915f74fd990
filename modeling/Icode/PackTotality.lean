import Icode.PackRules

/-!
# When the verifier of packages raises

Two values of a hostile package leave `verify_pack` as an exception. The `public_key` of a
signature record is matched and decoded before the problems of the record count (`KeyRaises`),
and an event type that is a list or a dict is looked up in a set once the contract has an
execution model (`EventsRaise`). Otherwise the verifier returns its list of problems
(`verifyPack_returns_iff`).
-/

namespace Icode

open Py

variable {printable : CodePoint → Bool} {args : VerifyArguments} {pack : Pack} {delivered : ℕ}
  {es : Directory} {manifest : Members} {event : Members}

/-! ## The key of a signature record -/

/-- `signature.json` is a record whose `public_key` is no text, or no hexadecimal bytes when the
anchors that it signs can be read. -/
def KeyRaises (publicKey : Option PyStr) (es : Directory) : Prop :=
  ∃ (key : PyStr) (signature : Bytes) (record : Members), publicKey = some key ∧ isHexText 64 key = true ∧
    memberFile es "signature.json" = some signature ∧
    loadJsonFile signature maxSignatureJsonBytes = .ok (.obj record) ∧
    Members.keysAre record signatureFields = true ∧
    ¬ ∃ embedded, record.get "public_key" = .str embedded ∧
      ((∃ data, bytesFromHex embedded = some data) ∨
        ∃ e, signedAnchors record (memberFile es "anchors.json") = .error e)

theorem map_isOk_iff {ε α β : Type} {x : Except ε α} {f : α → β} :
    (∃ b, x.map f = .ok b) ↔ ∃ a, x = .ok a := by
  cases x <;> simp [Except.map]

/-- The signature is checked to its end unless its key raises. -/
theorem sealProblems_isOk_iff {content : Bytes}
    (hlength : content.length ≤ maxManifestJsonBytes) :
    (∃ ps, sealProblems args es manifest content = .ok ps) ↔ ¬ KeyRaises args.publicKey es := by
  unfold sealProblems KeyRaises
  cases hsignature : memberFile es "signature.json" with
  | none => simp
  | some signature =>
    simp only [map_isOk_iff, signatureProblems]
    cases hkey : args.publicKey.filter (isHexText 64) with
    | none =>
      have hno : ∀ key, args.publicKey = some key → isHexText 64 key = false := by
        simpa [Option.filter_eq_none_iff] using hkey
      refine iff_of_true ⟨_, rfl⟩ ?_
      rintro ⟨key, _, _, hsome, hhex, -⟩
      simp [hno key hsome] at hhex
    | some key =>
      obtain ⟨hsome, hhex⟩ := Option.filter_eq_some_iff.mp hkey
      cases hload : loadJsonFile signature maxSignatureJsonBytes with
      | error e => simp [hload]
      | ok value =>
        cases value with
        | obj record =>
          dsimp only
          split_ifs with hfields
          · rw [Bool.not_eq_true'] at hfields
            simp [hload, hfields]
          · rw [Bool.not_eq_true, Bool.not_eq_false'] at hfields
            rw [checkSignature_isOk_iff hlength hhex]
            constructor
            · rintro hreads ⟨_, _, record', -, -, hsig, hload', -, hno⟩
              obtain rfl := Option.some.inj hsig
              obtain rfl := Json.obj.inj (Except.ok.inj (hload.symm.trans hload'))
              exact hno hreads
            · intro hno
              by_contra hreads
              exact hno ⟨key, signature, record, hsome, hhex, rfl, hload, hfields, hreads⟩
        | _ => simp [hload]

/-! ## The type of an event -/

/-- A versioned event with an attempt, whose type has no hash. -/
def UnhashableEvent (event : Members) : Prop :=
  ∃ payload attempt, payload? event = some payload ∧
    ExecutionMirror.isVersioned payload = true ∧
    attempt? payload = some attempt ∧ (event.get "event_type").hashable = false

/-- The contract has an execution model, and an event that is read has a type without a hash. -/
def EventsRaise (es : Directory) (delivered : ℕ) : Prop :=
  (packContract es).2.executionModel.isSome = true ∧
    ∃ event ∈ packEvents es delivered, UnhashableEvent event

theorem isKind_eq_false_of_unhashable (h : (event.get "event_type").hashable = false)
    (kind : PyStr) : isKind event kind = false := by
  rw [Bool.eq_false_iff, ne_eq, isKind_iff]
  intro htype
  simp [htype, Json.hashable] at h

namespace ExecutionMirror

theorem consumeVersioned_isOk_iff {m : ExecutionMirror} {payload : Members} {i : ℕ} :
    (∃ n, m.consumeVersioned event payload i = .ok n) ↔
      ∀ attempt, attempt? payload = some attempt → (event.get "event_type").hashable = true := by
  unfold consumeVersioned
  cases attempt? payload with
  | none => simp
  | some attempt =>
    cases hhash : (event.get "event_type").hashable with
    | false => simp [isKind_eq_false_of_unhashable hhash]
    | true =>
      simp only [Option.some.injEq, implies_true, iff_true, Bool.not_true, Bool.false_eq_true,
        if_false]
      split_ifs <;> exact ⟨_, rfl⟩

/-- An event is consumed unless the mirror is enabled and the type of the event has no hash. -/
theorem consume_isOk_iff {m : ExecutionMirror} {i : ℕ} :
    (∃ n, m.consume event i = .ok n) ↔ (m.enabled = true → ¬ UnhashableEvent event) := by
  unfold consume UnhashableEvent
  cases payload? event with
  | none => simp
  | some payload =>
    obtain ⟨attempt, state, htrack⟩ :=
      trackCompletionAttempt_eq { m with hasVersionedEvents := true } event payload i
    dsimp only
    rw [htrack]
    cases hhash : (event.get "event_type").hashable with
    | true =>
      refine iff_of_true ?_ (by simp)
      split_ifs
      · exact ⟨_, rfl⟩
      · exact ⟨_, rfl⟩
      · exact ⟨_, rfl⟩
      · exact ⟨_, rfl⟩
      · exact ⟨_, rfl⟩
      · exact (consumeVersioned_isOk_iff).mpr fun _ _ => hhash
    | false =>
      simp only [isKind_eq_false_of_unhashable hhash, Bool.false_eq_true, if_false,
        Option.some.injEq, and_true, exists_and_left, exists_eq_left', not_and, not_exists]
      cases isVersioned payload with
      | false => simp
      | true =>
        cases m.enabled with
        | false => simp
        | true =>
          simp only [Bool.not_true, Bool.false_eq_true, if_false, consumeVersioned_isOk_iff, hhash,
            imp_false, forall_const]

theorem enabled_init_of_model {v : Json} {model : ExecutionModel} {completionReceipt : Option Json}
    (h : normalizeExecutionModel v true = .ok model) :
    (init (some model.toJson) completionReceipt).enabled = true := by
  have hgiven : (some model.toJson).filter (fun v => !v.pyEq .null) = some model.toJson := rfl
  simp only [init, hgiven, normalizeExecutionModel_toJson h, Option.isSome_some]

/-- The mirror of a package is enabled exactly when its contract has an execution model. -/
theorem enabled_init (es : Directory) (completionReceipt : Option Json) :
    (init (packContract es).2.executionModel completionReceipt).enabled =
      (packContract es).2.executionModel.isSome := by
  have hvalue : ∀ v : Json, (init (normalizedValue (normalizeExecutionModel · true)
      ExecutionModel.toJson .executionModel v).2 completionReceipt).enabled =
        (normalizedValue (normalizeExecutionModel · true) ExecutionModel.toJson .executionModel
          v).2.isSome := by
    intro v
    unfold normalizedValue
    split
    · rfl
    · split
      · next model hmodel => exact enabled_init_of_model hmodel
      · rfl
  unfold packContract
  split
  · rfl
  · split
    · rfl
    · split
      · rfl
      · exact hvalue _

end ExecutionMirror

theorem consumeEvents_isOk_iff {exp : Expectations} {events : List (ℕ × Members)} :
    ∀ {s : ChainState}, (∃ s', consumeEvents printable exp s events = .ok s') ↔
      (s.execution.enabled = true → ∀ e ∈ events, ¬ UnhashableEvent e.2) := by
  induction events with
  | nil => exact fun {s} => ⟨by simp, fun _ => ⟨s, rfl⟩⟩
  | cons e events ih =>
    intro s
    simp only [consumeEvents_cons, ChainState.consume_eq_ok, List.forall_mem_cons]
    constructor
    · rintro ⟨s', k, ⟨x, hx, rfl⟩, hrest⟩ henabled
      have hsame : x.enabled = true := (ExecutionMirror.sameContract_consume hx).enabled.trans henabled
      exact ⟨(ExecutionMirror.consume_isOk_iff).mp ⟨x, hx⟩ henabled, ih.mp ⟨s', hrest⟩ hsame⟩
    · intro hall
      obtain ⟨x, hx⟩ := (ExecutionMirror.consume_isOk_iff).mpr fun h => (hall h).1
      have hsame := (ExecutionMirror.sameContract_consume hx).enabled
      obtain ⟨s', hs'⟩ := (ih (s := s.step printable exp e.2 x)).mpr fun h =>
        (hall (hsame.symm.trans h)).2
      exact ⟨s', _, ⟨x, hx, rfl⟩, hs'⟩

/-! ## The package -/

theorem length_le_of_loadJsonObject {content : Bytes} {maxBytes : ℕ}
    (h : loadJsonObject content maxBytes = .ok manifest) : content.length ≤ maxBytes := by
  by_contra hlt
  have hread : readBoundedBytes content maxBytes = .error .tooLarge := if_pos (by omega)
  simp [loadJsonObject, loadJsonFile, readBoundedText, hread, Bind.bind, Except.bind] at h

theorem executionModel_packExpectations (metadata : Except PackProblem Members)
    (contract : ContractValues) :
    (packExpectations metadata contract).executionModel = contract.executionModel := by
  unfold packExpectations
  split <;> rfl

theorem exists_eventsProblems_of_none {remaining : Option ℕ} (h : memberFile es eventsRel = none) :
    ∃ ps, eventsProblems printable es delivered remaining = .ok ps := by
  unfold eventsProblems
  cases hpath : memberPath es eventsRel with
  | none => exact ⟨_, rfl⟩
  | some path =>
    have hnone : fileAt es path = none := by simpa [memberFile, hpath] using h
    simp only [hnone]
    exact ⟨_, rfl⟩

theorem eventsProblems_isOk_iff_run {remaining : Option ℕ} {content : Bytes}
    (h : memberFile es eventsRel = some content) :
    (∃ ps, eventsProblems printable es delivered remaining = .ok ps) ↔
      ∃ s', consumeEvents printable (packExpectations (ticketMetadata es) (packContract es).2)
        (ChainState.init (packExpectations (ticketMetadata es) (packContract es).2))
        (eventStream content delivered).1 = .ok s' := by
  obtain ⟨path, hpath, hcontent⟩ := Option.bind_eq_some_iff.mp h
  simp only [eventsProblems, hpath, hcontent, verifyEventChain]
  cases consumeEvents printable (packExpectations (ticketMetadata es) (packContract es).2)
      (ChainState.init (packExpectations (ticketMetadata es) (packContract es).2))
      (eventStream content delivered).1 with
  | ok s' => simp [Except.map, Except.mapError, Bind.bind, Except.bind]
  | error e => simp [Except.map, Except.mapError, Bind.bind, Except.bind]

variable (printable) in
theorem eventsProblems_isOk_iff (remaining : Option ℕ) :
    (∃ ps, eventsProblems printable es delivered remaining = .ok ps) ↔
      ¬ EventsRaise es delivered := by
  cases hread : memberFile es eventsRel with
  | none =>
    refine iff_of_true (exists_eventsProblems_of_none hread) ?_
    rintro ⟨-, event, hevent, -⟩
    simp [packEvents, hread] at hevent
  | some content =>
    have hevents : packEvents es delivered = (eventStream content delivered).1.map Prod.snd := by
      rw [packEvents, hread]
      rfl
    have henabled : (ChainState.init (packExpectations (ticketMetadata es)
        (packContract es).2)).execution.enabled = (packContract es).2.executionModel.isSome := by
      change (ExecutionMirror.init _ _).enabled = _
      rw [executionModel_packExpectations]
      exact ExecutionMirror.enabled_init es _
    rw [eventsProblems_isOk_iff_run hread, consumeEvents_isOk_iff, henabled]
    simp only [EventsRaise, hevents, not_and, not_exists, List.mem_map, forall_exists_index,
      and_imp]
    constructor
    · rintro hall hsome _ e he rfl
      exact hall hsome e he
    · exact fun hall hsome e he => hall hsome e.2 e he rfl

/-- `verify_pack` returns its problems unless the key of the signature or the type of an event
raises. -/
theorem verifyPack_returns_iff :
    (∃ problems, verifyPack printable args pack delivered = .ok problems) ↔
      ∀ manifest, packManifest? pack.entries = some manifest →
        ¬ KeyRaises args.publicKey pack.entries ∧ ¬ EventsRaise pack.entries delivered := by
  unfold verifyPack packManifest? memberFile
  cases hpath : memberPath pack.entries "manifest.json" with
  | none => simp
  | some path =>
    simp only [Option.bind_some]
    cases hcontent : fileAt pack.entries path with
    | none => simp
    | some content =>
      simp only [Option.bind_some]
      cases hload : loadJsonObject content maxManifestJsonBytes with
      | error e => simp [Except.toOption]
      | ok manifest =>
        simp only [Except.toOption, Option.some.injEq, forall_eq']
        rw [← sealProblems_isOk_iff (length_le_of_loadJsonObject hload)]
        unfold verifyManifest
        constructor
        · rintro ⟨problems, h⟩
          simp only [bind_eq_ok] at h
          obtain ⟨sealed, hsealed, events, hevents, -⟩ := h
          exact ⟨⟨sealed, hsealed⟩, (eventsProblems_isOk_iff printable _).mp ⟨events, hevents⟩⟩
        · rintro ⟨⟨sealed, hsealed⟩, hevents⟩
          obtain ⟨events, hevents⟩ := (eventsProblems_isOk_iff printable
            (checkFiles pack.entries maxPackageHashReadBytes (manifestEntries manifest).2).2).mpr
              hevents
          simp only [bind_eq_ok]
          exact ⟨_, sealed, hsealed, events, hevents, rfl⟩

/-- A signature record whose key is null. -/
def nullKeySignature : Bytes :=
  encodePass (Json.dumps (.obj (signatureFields.map fun field => (field, .null))))

def nullKeyPack : Pack where
  entries :=
    [("manifest.json", .file (encodePass (lit "\x7b\x7d"))),
      ("signature.json", .file nullKeySignature)]
  sorted := by
    simp only [PackNode.Sorted, EntriesSorted]
    decide

/-- The verifier raises on a signature record whose key is null. -/
theorem nullKeyPack_raises :
    verifyPack (fun _ => true) ⟨some sampleKey, false⟩ nullKeyPack 0 = .error .keyType := by
  have hraises : (match verifyPack (fun _ => true) ⟨some sampleKey, false⟩ nullKeyPack 0 with
      | .error e => e == .keyType
      | .ok _ => false) = true := by decide +kernel
  split at hraises
  · next e heq => rw [heq, eq_of_beq hraises]
  · simp at hraises

end Icode
