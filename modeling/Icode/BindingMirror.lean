import Icode.EventSchema
import Icode.PurePath

/-!
# The mirror of the execution binding

The metadata of a ticket may bind the ticket to the directory it is executed in : the
absolute path, and the identities (device and inode) of the path and of every directory
above it. `executionBindingShapeOk` checks the record without looking at any file.

`BindingMirror` (`ExecutionBindingMirror`) follows the events : the binding is recorded once,
by an event of its own, while no step, operation or Agent call is open and the ticket is not
closed. An issue is never taken back (`issues_subset_consumeAll`), and a run without issues
has recorded the binding of the metadata (`binding_of_finish`).
-/

namespace Icode

open Py

/-! ## The record -/

/-- `MAX_EXECUTION_BINDING_ANCESTORS` -/
def maxExecutionBindingAncestors : ℕ := 256

/-- `type(value) is int`, and the `int` satisfies `p`. -/
def intSatisfies (p : ℤ → Bool) : Json → Bool
  | .int n => p n
  | _ => false

/-- A row of `ancestors`: the path, and its identity. -/
def bindingRowOk (row : Json) (expected : PurePath) : Bool :=
  match row with
  | .obj ms =>
    Members.keysAre ms ["path", "device", "inode"] && (Members.get ms "path").isText expected.str &&
      intSatisfies (0 ≤ ·) (Members.get ms "device") && intSatisfies (0 < ·) (Members.get ms "inode")
  | _ => false

/-- The path of a binding: absolute, and written as `str` writes it. -/
def bindingPath? (raw : PyStr) : Option PurePath :=
  let flavour := if (PurePath.parse .windows raw).isAbsolute then .windows else .posix
  let root := PurePath.parse flavour raw
  if raw.isEmpty || raw.contains (.scalar '\x00') then none
  else if !root.isAbsolute || root.str != raw || root.parts.contains (lit "..") then none
  else if maxExecutionBindingAncestors < root.chain.length then none
  else some root

/-- `execution_binding_shape_ok`. -/
def executionBindingShapeOk (binding : Json) : Bool :=
  match binding with
  | .obj ms =>
    Members.keysAre ms ["version", "path", "ancestors"] && (Members.get ms "version").isExactly 1 &&
      match (Members.get ms "path").text?.bind bindingPath?, Members.get ms "ancestors" with
      | some root, .arr rows =>
        rows.length == root.chain.length &&
          (rows.zip root.chain).all fun (row, expected) => bindingRowOk row expected
      | _, _ => false
  | _ => false

/-- A checkout that is active. -/
def isActiveRow : Json → Bool
  | .obj row => (Members.get row "state").isText "active"
  | _ => false

/-- A list with an active checkout. -/
def hasActiveRow : Json → Bool
  | .arr rows => rows.any isActiveRow
  | _ => false

/-- `execution_binding_topology_ok`. -/
def executionBindingTopologyOk (metadata : Members) : Bool :=
  if !Dict.has metadata "execution_binding" then true
  else
    let history := metadata.get "checkout_history"
    executionBindingShapeOk (metadata.get "execution_binding") &&
      (metadata.get "active_checkout").pyEq .null && (!history.truthy || history.isArr) &&
      !hasActiveRow history

/-! ## The mirror -/

/-- What the mirror reports, in the order of the labels. -/
inductive BindingIssue where
  | checkoutConflict
  | eventDuplicate
  | eventShape
  | metadataMismatch
  | notQuiescent
  | shape
  | wrongEventType
  deriving DecidableEq, Repr

def BindingIssue.all : List BindingIssue :=
  [.checkoutConflict, .eventDuplicate, .eventShape, .metadataMismatch, .notQuiescent, .shape,
    .wrongEventType]

/-- `ExecutionBindingMirror`; a start without an identity is open as `none`. -/
structure BindingMirror where
  metadata : Option Members
  binding : Json
  seen : Bool
  openSteps : List (Option PyStr)
  openOperations : List (Option PyStr)
  openAgents : List (Option PyStr)
  closed : Bool
  issues : List BindingIssue

/-- What is open after an event of a pair `start`, `stop`. -/
def openAfter (event payload : Members) (start stop key : PyStr) (opened : List (Option PyStr)) :
    List (Option PyStr) :=
  let identity := (payload.get key).text?
  if isKind event start then
    (identity.filter fun s => !s.isEmpty) :: opened
  else if isKind event stop then
    match identity with
    | some s => opened.filter (· ≠ some s)
    | none => opened
  else opened

/-- `isinstance(change, dict) and key in change`. -/
def changes (change : Json) (key : PyStr) : Bool :=
  match change with
  | .obj ms => Dict.has ms key
  | _ => false

/-- `change.get(key)` of a dict. -/
def changeGet (change : Json) (key : PyStr) : Json :=
  match change with
  | .obj ms => Members.get ms key
  | _ => .null

/-- A change makes a checkout active. -/
def activates (change : Json) : Bool :=
  !(changeGet change "active_checkout").pyEq .null ||
    hasActiveRow (changeGet change "checkout_history")

/-- The event that records a binding has these fields and no others. -/
def bindingEventOk (event payload : Members) : Bool :=
  (payload.get "execution_root_binding").isExactly 1 &&
    Members.keysAre payload ["execution_root_binding", "set", "append", "metadata_hash_after"] &&
    textSatisfies (isHexText 64) (payload.get "metadata_hash_after") &&
    (match payload.get "set" with
      | .obj updates => Members.keysAre updates ["execution_binding"]
      | _ => false) &&
    (payload.get "append").pyEq (.obj []) &&
    textSatisfies (fun s => !(strip s).isEmpty) (event.get "request_id") &&
    (event.get "actor").isText "icode"

namespace BindingMirror

/-- `ExecutionBindingMirror(metadata)`. -/
def init (metadata : Option Members) : BindingMirror :=
  ⟨metadata, .null, false, [], [], [], false, []⟩

/-- `self.issues.add(issue)` for each of them. -/
def report (m : BindingMirror) (issues : List BindingIssue) : BindingMirror :=
  { m with issues := m.issues ++ issues }

/-- The part of `consume` that follows what is open. -/
def track (m : BindingMirror) (event payload : Members) : BindingMirror :=
  let m := { m with
    openSteps := openAfter event payload "step_started" "step_finished" "attempt" m.openSteps
    openOperations :=
      openAfter event payload "operation_started" "operation_finished" "attempt" m.openOperations
    openAgents := openAfter event payload "agent_spawned" "agent_result" "spawn_id" m.openAgents }
  if isKind event "close_phase" then { m with closed := true }
  else if isKind event "ticket_reopened" then
    { m.report (if m.seen then [.checkoutConflict] else []) with closed := false }
  else m

/-- The branch of `consume` for an event that records a binding. -/
def record (m : BindingMirror) (event payload : Members) : BindingMirror :=
  let candidate := changeGet (payload.get "set") "execution_binding"
  let quiescent := m.openSteps.isEmpty && m.openOperations.isEmpty && m.openAgents.isEmpty &&
    !m.closed
  { m.report (issueUnless (bindingEventOk event payload) .eventShape ++
      issueUnless (!m.seen) .eventDuplicate ++
      issueUnless quiescent .notQuiescent ++
      issueUnless (executionBindingShapeOk candidate) .shape) with
    binding := candidate
    seen := true }

/-- `consume`. -/
def consume (m : BindingMirror) (event : Members) : BindingMirror :=
  let payload := (payload? event).getD []
  let m := m.track event payload
  let marked := Dict.has payload "execution_root_binding"
  let updates := payload.get "set"
  let appends := payload.get "append"
  if !isKind event "metadata_updated" then m.report (issueUnless (!marked) .wrongEventType)
  else if !(changes updates "execution_binding" || changes appends "execution_binding") && !marked then
    m.report (issueUnless (!(m.seen && (activates updates || activates appends))) .checkoutConflict)
  else m.record event payload

/-- `finish`: the issues, each once. -/
def finish (m : BindingMirror) : List BindingIssue :=
  let m :=
    match m.metadata with
    | none => m
    | some metadata =>
      m.report (issueUnless (executionBindingTopologyOk metadata) BindingIssue.checkoutConflict ++
        issueUnless (Dict.has metadata "execution_binding" == m.seen &&
          (!m.seen || (metadata.get "execution_binding").pyEq m.binding))
          BindingIssue.metadataMismatch)
  BindingIssue.all.filter m.issues.contains

/-- The mirror after the events. -/
def consumeAll (m : BindingMirror) (events : List Members) : BindingMirror :=
  events.foldl consume m

/-! ## Issues -/

theorem issues_subset_track (m : BindingMirror) (event payload : Members) :
    m.issues ⊆ (m.track event payload).issues ∧ (m.track event payload).metadata = m.metadata := by
  unfold track
  dsimp only
  split_ifs
  · exact ⟨List.Subset.refl _, rfl⟩
  · exact ⟨List.subset_append_left _ _, rfl⟩
  · exact ⟨List.subset_append_left _ _, rfl⟩
  · exact ⟨List.Subset.refl _, rfl⟩

theorem issues_subset_consume (m : BindingMirror) (event : Members) :
    m.issues ⊆ (m.consume event).issues ∧ (m.consume event).metadata = m.metadata := by
  obtain ⟨hissues, hmetadata⟩ := issues_subset_track m event ((payload? event).getD [])
  unfold consume
  dsimp only
  split_ifs
  · exact ⟨List.Subset.trans hissues (List.subset_append_left _ _), hmetadata⟩
  · exact ⟨List.Subset.trans hissues (List.subset_append_left _ _), hmetadata⟩
  · exact ⟨List.Subset.trans hissues (List.subset_append_left _ _), hmetadata⟩

/-- An issue is never taken back. -/
theorem issues_subset_consumeAll (events : List Members) (m : BindingMirror) :
    m.issues ⊆ (m.consumeAll events).issues ∧ (m.consumeAll events).metadata = m.metadata := by
  induction events generalizing m with
  | nil => exact ⟨List.Subset.refl _, rfl⟩
  | cons event events ih =>
    obtain ⟨hissues, hmetadata⟩ := issues_subset_consume m event
    obtain ⟨hrest, hmetadata'⟩ := ih (m.consume event)
    exact ⟨List.Subset.trans hissues hrest, hmetadata'.trans hmetadata⟩

/-- A run without issues has recorded the binding of the metadata, when there is one. -/
theorem binding_of_finish {metadata : Members} {events : List Members}
    (h : ((init (some metadata)).consumeAll events).finish = []) :
    let m := (init (some metadata)).consumeAll events
    m.issues = [] ∧ m.seen = Dict.has metadata "execution_binding" ∧
      (m.seen = true → (metadata.get "execution_binding").pyEq m.binding = true) := by
  intro m
  have hmetadata : m.metadata = some metadata := (issues_subset_consumeAll events _).2
  have hnone : ∀ issues : List BindingIssue, BindingIssue.all.filter issues.contains = [] →
      issues = [] := by
    intro issues hfilter
    rw [List.filter_eq_nil_iff] at hfilter
    refine List.eq_nil_iff_forall_not_mem.mpr fun issue hissue => ?_
    have hall : issue ∈ BindingIssue.all := by cases issue <;> decide
    exact hfilter issue hall (by simpa using hissue)
  change m.finish = [] at h
  unfold finish at h
  rw [hmetadata] at h
  have hall := hnone _ h
  simp only [report, List.append_eq_nil_iff, issueUnless_eq_nil, Bool.and_eq_true, beq_iff_eq,
    Bool.or_eq_true, Bool.not_eq_true'] at hall
  obtain ⟨hissues, -, hseen, hbinding⟩ := hall
  refine ⟨hissues, hseen.symm, fun hs => hbinding.resolve_left ?_⟩
  rw [hs]
  simp

end BindingMirror

end Icode
