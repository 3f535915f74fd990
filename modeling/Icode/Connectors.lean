import Icode.JsonLine
import Icode.Sha256

/-!
# Calls of a connector

`invoke` asks the recorder for an attempt, calls the transport and finishes the attempt. `Closes`
says that an attempt that was granted is finished once, and as a success only with a valid status
and all the evidence of the manifest.

What the transport returns and what it was given are digested before the attempt is finished, and
what cannot be written or encoded leaves it open. `closes_iff` : a call closes exactly when the
transport fails, or its status is not valid, or all of it can be digested.
-/

namespace Icode

open Py

namespace Connectors

/-! ## Connectors -/

/-- `EVIDENCE_FIELDS` -/
def evidenceFields : List PyStr :=
  ["command_sha256", "artifact_hashes_sha256", "output_sha256", "exit_code",
    "execution_attempt"].map lit

/-- The part of an `ExtensionManifest` that a call reads. -/
structure Manifest where
  opclass : PyStr
  evidence : List PyStr
  nodup : evidence.Nodup
  nonempty : evidence ≠ []
  known : ∀ field ∈ evidence, field ∈ evidenceFields

/-- The part of a `Connector` that a call reads. -/
structure Connector where
  name : PyStr
  endpoint : PyStr
  manifest : Manifest

/-- `ConnectorRegistry` -/
structure ConnectorRegistry where
  connectors : Dict PyStr Connector
  enabled : List PyStr

/-- What a call raises. -/
inductive InvokeError where
  | connectorNotRegistered
  | connectorNotEnabled
  /-- 未接回执通道，禁止调用 -/
  | evidenceChannelMissing
  | operationInvalid
  /-- The names of the arguments cannot be sorted or written. -/
  | argKeys
  /-- An exception of `recorder.start`. -/
  | startRaises
  | ambiguousSideEffect (detail : PyStr)
  /-- 回执缺少可寻址的执行身份 -/
  | receiptAttemptMissing
  /-- 连接器调用失败（详情已隐藏） -/
  | transportError
  /-- 传输未给出有效状态码 -/
  | transportStatusInvalid
  /-- An exception of `json.dumps` or `encode`. -/
  | digest
  /-- 证据绑定不满足 manifest 要求 -/
  | evidenceIncomplete
  /-- An exception of `recorder.finish`. -/
  | finishRaises
  /-- 回执终结失败 -/
  | receiptFinishFailed

/-- `assert_executable` -/
def ConnectorRegistry.assertExecutable (reg : ConnectorRegistry) (name : PyStr) :
    Except InvokeError Connector :=
  match Dict.get? reg.connectors name with
  | none => .error .connectorNotRegistered
  | some c => if reg.enabled.contains name then .ok c else .error .connectorNotEnabled

/-! ## The recorder and the transport -/

/-- The arguments of `recorder.start`. -/
structure StartCall where
  name : PyStr
  opclass : PyStr
  inputDesc : PyStr

/-- What `recorder.start` returns. -/
structure Started where
  canExecute : Bool
  detail : PyStr
  attempt : Option PyStr

inductive Outcome where
  | success
  | failure
  deriving DecidableEq

/-- The arguments of `recorder.finish`. -/
structure FinishCall where
  attempt : PyStr
  outcome : Outcome
  evidence : PyStr
  checkRef : PyStr
  failure : Option PyStr

/-- A recorder; without a value it raises. -/
structure Recorder where
  start : StartCall → Option Started
  /-- Whether what is returned is `True`. -/
  finish : FinishCall → Option Bool

/-- A status of any type. -/
inductive Status where
  | int (code : ℤ)
  | other

/-- What a transport does. -/
inductive Sent (Data : Type*) where
  /-- It raises, or what it returns is no pair. -/
  | raises
  | returned (data : Data) (status : Status)

/-- What `json` makes of the objects of a call; without a value it raises. An object of another type
is written by its own `__str__`, so nothing is known of the text. -/
structure Encoder (Data Args : Type*) where
  /-- `json.dumps(data, ensure_ascii=False, default=str)` -/
  dumps : Data → Option PyStr
  /-- `json.dumps(sorted(arguments), ensure_ascii=False)` -/
  dumpsKeys : Args → Option PyStr
  /-- `json.dumps(arguments, ensure_ascii=False, sort_keys=True, default=str)` -/
  dumpsSorted : Args → Option PyStr

/-! ## The call -/

section

variable {Data Args : Type*} (enc : Encoder Data Args)
  (transport : PyStr → PyStr → Args → Sent Data)

/-- `ConnectorReceipt` of a call that is ok. -/
structure ConnectorReceipt where
  connector : PyStr
  operation : PyStr
  attempt : PyStr
  exitCode : ℤ
  outputChars : ℕ
  outputSha256 : Json
  evidence : Members

/-- What a call does : what it starts, what it finishes, and its end. -/
structure Invocation where
  started : Option StartCall
  finished : List FinishCall
  result : Except InvokeError ConnectorReceipt

/-- `_MAX_OUTPUT_CHARS` -/
def maxOutputChars : ℕ :=
  8000

/-- `_canonical_sha256` of what `json` writes. -/
def sha256Of (text : Option PyStr) : Option PyStr :=
  (text.bind encode).map sha256

/-- `binding` -/
def bindingOf (c : Connector) (operation : PyStr) (args : Args) (outputText : PyStr) (code : ℤ)
    (attempt : PyStr) : Option Members := do
  let command ← sha256Of (some (Json.dumpsSpaced
    (.obj [("endpoint", .str c.endpoint), ("operation", .str operation)])))
  let arguments ← sha256Of (enc.dumpsSorted args)
  let output ← sha256Of (some outputText)
  some [("command_sha256", .str command), ("artifact_hashes_sha256", .str arguments),
    ("output_sha256", .str output), ("exit_code", .int code), ("execution_attempt", .str attempt)]

/-- A field of a binding has a value. -/
def isBound (binding : Members) (field : PyStr) : Bool :=
  match Dict.get? binding field with
  | none => false
  | some .null => false
  | some (.str []) => false
  | some _ => true

/-- `attach_evidence` -/
def attachEvidence (manifest : Manifest) (binding : Members) : Option Members :=
  if manifest.evidence.all (isBound binding) then
    some ((manifest.evidence.insertionSort fun a b => strLe a b = true).map fun field =>
      (field, binding.get field))
  else none

/-- `json.dumps(value)` -/
def dumpsText (value : Json) : PyStr :=
  (Json.dumpsSpaced value).flatMap Json.asciiChar

/-- The attempt is finished as a failure, and the error is raised. -/
def failWith (r : Recorder) (c : Connector) (attempt : PyStr) (failure : String)
    (e : InvokeError) : List FinishCall × Except InvokeError ConnectorReceipt :=
  let call : FinishCall :=
    ⟨attempt, .failure, [], dumpsText (.obj [("connector", .str c.name)]), some (lit failure)⟩
  match r.finish call with
  | none => ([call], .error .finishRaises)
  | some _ => ([call], .error e)

/-- The attempt is finished as a success. -/
def succeed (r : Recorder) (c : Connector) (operation attempt outputText : PyStr) (code : ℤ)
    (binding evidence : Members) : List FinishCall × Except InvokeError ConnectorReceipt :=
  let call : FinishCall :=
    ⟨attempt, .success, (Json.dumpsSpaced (.obj evidence)).take 120,
      (dumpsText (.obj [("connector", .str c.name),
        ("output_chars", .int outputText.length)])).take 200, none⟩
  match r.finish call with
  | none => ([call], .error .finishRaises)
  | some false => ([call], .error .receiptFinishFailed)
  | some true =>
    ([call], .ok ⟨c.name, operation, attempt, code, outputText.length,
      binding.get "output_sha256", evidence⟩)

/-- `type(status_code) is int and 100 <= status_code <= 599` -/
def validStatus : Status → Option ℤ
  | .int code => if 100 ≤ code ∧ code ≤ 599 then some code else none
  | .other => none

/-- What follows an attempt that was granted. -/
def execute (r : Recorder) (c : Connector) (operation : PyStr) (args : Args) (attempt : PyStr) :
    List FinishCall × Except InvokeError ConnectorReceipt :=
  match transport c.endpoint operation args with
  | .raises => failWith r c attempt "transport_error" .transportError
  | .returned data status =>
    match validStatus status with
    | none => failWith r c attempt "transport_status_invalid" .transportStatusInvalid
    | some code =>
      match enc.dumps data with
      | none => ([], .error .digest)
      | some text =>
        let outputText := text.take maxOutputChars
        match bindingOf enc c operation args outputText code attempt with
        | none => ([], .error .digest)
        | some binding =>
          match attachEvidence c.manifest binding with
          | none => failWith r c attempt "evidence_incomplete" .evidenceIncomplete
          | some evidence => succeed r c operation attempt outputText code binding evidence

/-- The arguments of `recorder.start` for a call. -/
def startCall (c : Connector) (operation keys : PyStr) : StartCall :=
  ⟨lit "connector:" ++ c.name, c.manifest.opclass,
    lit "\x7b\"operation\": " ++ quote operation ++ lit ", \"arg_keys\": " ++ keys ++ lit "\x7d"⟩

/-- `ConnectorInvoker.invoke` -/
def invoke (reg : ConnectorRegistry) (recorder : Option Recorder) (name operation : PyStr)
    (args : Args) : Invocation :=
  match reg.assertExecutable name with
  | .error e => ⟨none, [], .error e⟩
  | .ok c =>
    match recorder with
    | none => ⟨none, [], .error .evidenceChannelMissing⟩
    | some r =>
      if operation.isEmpty || 64 < operation.length then ⟨none, [], .error .operationInvalid⟩
      else
        match enc.dumpsKeys args with
        | none => ⟨none, [], .error .argKeys⟩
        | some keys =>
          let call := startCall c operation keys
          match r.start call with
          | none => ⟨some call, [], .error .startRaises⟩
          | some started =>
            if !started.canExecute then
              ⟨some call, [], .error (.ambiguousSideEffect (started.detail.take 120))⟩
            else
              match started.attempt with
              | none => ⟨some call, [], .error .receiptAttemptMissing⟩
              | some attempt =>
                if attempt.isEmpty then ⟨some call, [], .error .receiptAttemptMissing⟩
                else
                  let done := execute enc transport r c operation args attempt
                  ⟨some call, done.1, done.2⟩

/-! ## What is claimed -/

/-- The recorder's `start` answers `can_execute` with an attempt. -/
structure Granted (reg : ConnectorRegistry) (r : Recorder) (name operation : PyStr) (args : Args)
    (c : Connector) (attempt : PyStr) : Prop where
  connector : reg.assertExecutable name = .ok c
  named : operation ≠ [] ∧ operation.length ≤ 64
  start : ∃ keys detail, enc.dumpsKeys args = some keys ∧
    r.start (startCall c operation keys) = some ⟨true, detail, some attempt⟩
  attempt : attempt ≠ []

/-- An attempt is finished once, and as a success only with all that is asked. -/
structure Closes (c : Connector) (attempt : PyStr) (sent : Sent Data) (inv : Invocation) :
    Prop where
  once : ∃ call, inv.finished = [call] ∧ call.attempt = attempt
  success : ∀ call ∈ inv.finished, call.outcome = .success →
    (∃ data code, sent = .returned data (.int code) ∧ 100 ≤ code ∧ code ≤ 599) ∧
      ∃ evidence : Members, call.evidence = (Json.dumpsSpaced (.obj evidence)).take 120 ∧
        ∀ field ∈ c.manifest.evidence, ∃ v, (field, v) ∈ evidence ∧ v ≠ .null ∧ v ≠ .str []

/-- What a call brings along can be digested. -/
structure CanBeDigested (c : Connector) (operation : PyStr) (args : Args) (data : Data) : Prop where
  output : ∃ text, enc.dumps data = some text ∧ (text.take maxOutputChars).all isScalar = true
  endpoint : c.endpoint.all isScalar = true
  operation : operation.all isScalar = true
  arguments : ∃ text, enc.dumpsSorted args = some text ∧ text.all isScalar = true

/-- The transport fails, or its status is not valid, or what there is can be digested. -/
def Finishable (c : Connector) (operation : PyStr) (args : Args) : Sent Data → Prop
  | .raises => True
  | .returned data status => validStatus status = none ∨ CanBeDigested enc c operation args data

/-! ## The parts of a call -/

variable {enc transport}

theorem invoke_of_granted {reg : ConnectorRegistry} {r : Recorder} {name operation : PyStr}
    {args : Args} {c : Connector} {attempt : PyStr}
    (h : Granted enc reg r name operation args c attempt) : ∃ call,
      invoke enc transport reg (some r) name operation args =
        ⟨some call, (execute enc transport r c operation args attempt).1,
          (execute enc transport r c operation args attempt).2⟩ := by
  obtain ⟨keys, detail, hkeys, hstart⟩ := h.start
  have hnamed : (operation.isEmpty || decide (64 < operation.length)) = false := by
    have hlength := h.named.2
    rw [Bool.or_eq_false_iff, List.isEmpty_eq_false_iff, decide_eq_false_iff_not]
    exact ⟨h.named.1, by omega⟩
  have hattempt : attempt.isEmpty = false := List.isEmpty_eq_false_iff.mpr h.attempt
  exact ⟨startCall c operation keys,
    by simp [invoke, h.connector, hnamed, hkeys, hstart, hattempt]⟩

theorem sha256Of_isSome_iff {text : Option PyStr} :
    (∃ digest, sha256Of text = some digest) ↔ ∃ t, text = some t ∧ t.all isScalar = true := by
  cases text with
  | none => simp [sha256Of]
  | some t => simp [sha256Of, encode_eq_some]

/-- What is digested for a binding is the command, the arguments and the output. -/
theorem bindingOf_isSome_iff {c : Connector} {operation : PyStr} {args : Args} {outputText : PyStr}
    {code : ℤ} {attempt : PyStr} :
    (∃ binding, bindingOf enc c operation args outputText code attempt = some binding) ↔
      (c.endpoint.all isScalar = true ∧ operation.all isScalar = true) ∧
        (∃ text, enc.dumpsSorted args = some text ∧ text.all isScalar = true) ∧
        outputText.all isScalar = true := by
  have hcommand : (Json.dumpsSpaced
      (.obj [("endpoint", .str c.endpoint), ("operation", .str operation)])).all isScalar = true ↔
      c.endpoint.all isScalar = true ∧ operation.all isScalar = true := by
    have hkeys : (lit "endpoint").all isScalar = true ∧ (lit "operation").all isScalar = true := by
      decide
    rw [Json.all_isScalar_dumpsSpaced, Json.encodable_obj, List.forall_mem_cons,
      List.forall_mem_singleton]
    exact ⟨fun h => ⟨h.1.2, h.2.2⟩, fun h => ⟨⟨hkeys.1, h.1⟩, hkeys.2, h.2⟩⟩
  rw [← hcommand, ← sha256Of_isSome_iff]
  have hsome : ∀ t : PyStr, t.all isScalar = true ↔ ∃ digest, sha256Of (some t) = some digest := by
    intro t
    rw [sha256Of_isSome_iff]
    simp
  rw [hsome, hsome]
  simp only [bindingOf, Option.bind_eq_bind, Option.bind_eq_some_iff]
  constructor
  · rintro ⟨_, command, hcommand, arguments, harguments, output, houtput, -⟩
    exact ⟨⟨command, hcommand⟩, ⟨arguments, harguments⟩, output, houtput⟩
  · rintro ⟨⟨command, hcommand⟩, ⟨arguments, harguments⟩, output, houtput⟩
    exact ⟨_, command, hcommand, arguments, harguments, output, houtput, rfl⟩

theorem canBeDigested_iff {c : Connector} {operation : PyStr} {args : Args} {data : Data}
    {text : PyStr} {code : ℤ} {attempt : PyStr} (htext : enc.dumps data = some text) :
    CanBeDigested enc c operation args data ↔ ∃ binding,
      bindingOf enc c operation args (text.take maxOutputChars) code attempt = some binding := by
  rw [bindingOf_isSome_iff]
  constructor
  · rintro ⟨⟨t, ht, houtput⟩, hendpoint, hoperation, harguments⟩
    obtain rfl : t = text := Option.some.inj (ht.symm.trans htext)
    exact ⟨⟨hendpoint, hoperation⟩, harguments, houtput⟩
  · rintro ⟨⟨hendpoint, hoperation⟩, harguments, houtput⟩
    exact ⟨⟨text, htext, houtput⟩, hendpoint, hoperation, harguments⟩

theorem validStatus_eq_some {status : Status} {code : ℤ} :
    validStatus status = some code ↔ status = .int code ∧ 100 ≤ code ∧ code ≤ 599 := by
  cases status with
  | other => simp [validStatus]
  | int n =>
    rw [validStatus, Status.int.injEq]
    split_ifs with h
    · rw [Option.some.injEq]
      exact ⟨fun heq => ⟨heq, heq ▸ h⟩, fun h => h.1⟩
    · refine iff_of_false (by simp) ?_
      rintro ⟨rfl, hcode⟩
      exact h hcode

theorem bound_of_attachEvidence {manifest : Manifest} {binding evidence : Members}
    (h : attachEvidence manifest binding = some evidence) :
    ∀ field ∈ manifest.evidence, ∃ v, (field, v) ∈ evidence ∧ v ≠ .null ∧ v ≠ .str [] := by
  intro field hfield
  rw [attachEvidence] at h
  split_ifs at h with hall
  obtain rfl := Option.some.inj h
  have hbound := List.all_eq_true.mp hall field hfield
  refine ⟨binding.get field, ?_, ?_⟩
  · exact List.mem_map.mpr ⟨field, (List.perm_insertionSort _ _).mem_iff.mpr hfield, rfl⟩
  · rw [isBound] at hbound
    rw [Members.get]
    split at hbound <;> simp_all

/-- A failure is finished once. -/
theorem closes_failWith (r : Recorder) (c : Connector) (attempt : PyStr) (failure : String)
    (e : InvokeError) (sent : Sent Data) (call : Option StartCall) : Closes c attempt sent
      ⟨call, (failWith r c attempt failure e).1, (failWith r c attempt failure e).2⟩ := by
  have hfinished : (failWith r c attempt failure e).1 =
      [⟨attempt, .failure, [], dumpsText (.obj [("connector", .str c.name)]),
        some (lit failure)⟩] := by
    rw [failWith]
    split <;> rfl
  refine ⟨⟨_, hfinished, rfl⟩, fun finish hfinish houtcome => ?_⟩
  rw [show _ = _ from hfinished, List.mem_singleton] at hfinish
  subst hfinish
  cases houtcome

/-- A success is finished once, with its evidence. -/
theorem closes_succeed {r : Recorder} {c : Connector} {operation attempt outputText : PyStr}
    {code : ℤ} {binding evidence : Members} {data : Data} (call : Option StartCall)
    (hcode : 100 ≤ code ∧ code ≤ 599)
    (hevidence : attachEvidence c.manifest binding = some evidence) :
    Closes c attempt (.returned data (.int code))
      ⟨call, (succeed r c operation attempt outputText code binding evidence).1,
        (succeed r c operation attempt outputText code binding evidence).2⟩ := by
  have hfinished : (succeed r c operation attempt outputText code binding evidence).1 =
      [⟨attempt, .success, (Json.dumpsSpaced (.obj evidence)).take 120,
        (dumpsText (.obj [("connector", .str c.name),
          ("output_chars", .int outputText.length)])).take 200, none⟩] := by
    rw [succeed]
    split <;> rfl
  refine ⟨⟨_, hfinished, rfl⟩, fun finish hfinish _ => ?_⟩
  rw [show _ = _ from hfinished, List.mem_singleton] at hfinish
  subst hfinish
  exact ⟨⟨data, code, rfl, hcode⟩, evidence, rfl, bound_of_attachEvidence hevidence⟩

/-! ## The main theorem -/

/-- A call that was granted an attempt closes exactly if all of it can be digested that must be. -/
theorem closes_iff {reg : ConnectorRegistry} {r : Recorder} {name operation : PyStr} {args : Args}
    {c : Connector} {attempt : PyStr} (h : Granted enc reg r name operation args c attempt) :
    Closes c attempt (transport c.endpoint operation args)
        (invoke enc transport reg (some r) name operation args) ↔
      Finishable enc c operation args (transport c.endpoint operation args) := by
  obtain ⟨call, hinvoke⟩ : ∃ call, invoke enc transport reg (some r) name operation args = _ :=
    invoke_of_granted h
  rw [hinvoke]
  have hopen : ∀ {sent : Sent Data} {e : InvokeError},
      ¬Closes c attempt sent ⟨some call, [], .error e⟩ := by
    rintro sent e ⟨⟨finish, hfinish, -⟩, -⟩
    cases hfinish
  cases hsent : transport c.endpoint operation args with
  | raises =>
    simp only [execute, hsent]
    exact iff_of_true (closes_failWith r c attempt _ _ _ _) trivial
  | returned data status =>
    cases hstatus : validStatus status with
    | none =>
      simp only [execute, hsent, hstatus]
      exact iff_of_true (closes_failWith r c attempt _ _ _ _) (Or.inl hstatus)
    | some code =>
      obtain ⟨rfl, hcode⟩ := validStatus_eq_some.mp hstatus
      have hfinishable : Finishable enc c operation args (.returned data (.int code)) ↔
          CanBeDigested enc c operation args data := by
        rw [Finishable, hstatus]
        simp
      rw [hfinishable]
      cases hdumps : enc.dumps data with
      | none =>
        simp only [execute, hsent, hstatus, hdumps]
        refine iff_of_false hopen fun hdigest => ?_
        obtain ⟨text, htext, -⟩ := hdigest.output
        rw [hdumps] at htext
        cases htext
      | some text =>
        simp only [execute, hsent, hstatus, hdumps]
        have hdigested : CanBeDigested enc c operation args data ↔ ∃ binding, bindingOf enc c
            operation args (text.take maxOutputChars) code attempt = some binding :=
          canBeDigested_iff hdumps
        cases hbinding : bindingOf enc c operation args (text.take maxOutputChars) code attempt with
        | none =>
          rw [hbinding] at hdigested
          exact iff_of_false hopen fun h => absurd (hdigested.mp h) (by simp)
        | some binding =>
          refine iff_of_true ?_ (hdigested.mpr ⟨binding, hbinding⟩)
          cases hevidence : attachEvidence c.manifest binding with
          | none =>
            simp only [hevidence]
            exact closes_failWith r c attempt _ _ _ _
          | some evidence =>
            simp only [hevidence]
            exact closes_succeed _ hcode hevidence

end

/-! ## A response with a lone surrogate -/

/-- What `json` makes of values that were read from JSON. -/
def jsonEncoder : Encoder Json Members where
  dumps data := some data.dumpsSpaced
  dumpsKeys args := some (Json.arr (args.sort.map fun m => .str m.1)).dumpsSpaced
  dumpsSorted args := some (Json.obj args).canonical.dumpsSpaced

/-- A connector of tickets. -/
def jira : Connector where
  name := lit "jira"
  endpoint := lit "https://jira.example.com/rest"
  manifest := ⟨lit "external", [lit "output_sha256"], by decide, by decide, by decide⟩

/-- The connector, enabled. -/
def jiraOnly : ConnectorRegistry where
  connectors := [(lit "jira", jira)]
  enabled := [lit "jira"]

/-- A recorder that grants every attempt. -/
def grantAll : Recorder where
  start _ := some ⟨true, [], some (lit "att-1")⟩
  finish _ := some true

theorem granted_jira : Granted jsonEncoder jiraOnly grantAll (lit "jira") (lit "create") [] jira
    (lit "att-1") :=
  ⟨rfl, by decide, ⟨_, _, rfl, rfl⟩, by decide⟩

/-- A transport that returns `data` with the status 200. -/
def answers (data : Json) : PyStr → PyStr → Members → Sent Json :=
  fun _ _ _ => .returned data (.int 200)

theorem closes_iff_jira :
    Closes jira (lit "att-1") (answers (.obj []) jira.endpoint (lit "create") [])
        (invoke jsonEncoder (answers (.obj [])) jiraOnly (some grantAll) (lit "jira") (lit "create")
          []) ↔
      Finishable jsonEncoder jira (lit "create") []
        (answers (.obj []) jira.endpoint (lit "create") []) :=
  closes_iff granted_jira

/-- A response with a lone surrogate leaves its attempt open. -/
theorem not_closes : ¬∀ (enc : Encoder Json Members)
    (transport : PyStr → PyStr → Members → Sent Json) (reg : ConnectorRegistry) (r : Recorder)
    (name operation : PyStr) (args : Members) (c : Connector) (attempt : PyStr),
    Granted enc reg r name operation args c attempt →
    Closes c attempt (transport c.endpoint operation args)
      (invoke enc transport reg (some r) name operation args) := by
  intro h
  have hcloses := h jsonEncoder (answers (.str [.surrogate 0])) jiraOnly grantAll (lit "jira")
    (lit "create") [] jira (lit "att-1") granted_jira
  have hfinished : (invoke jsonEncoder (answers (.str [.surrogate 0])) jiraOnly (some grantAll)
      (lit "jira") (lit "create") []).finished = [] := rfl
  obtain ⟨call, hcall, -⟩ := hcloses.once
  rw [hfinished] at hcall
  cases hcall

end Connectors

end Icode
