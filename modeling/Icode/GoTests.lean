import Icode.ControlFiles

/-!
# Counting the tests of a `go test -json` run

`goCount` is `_go_count` : the lines of the output are read one after another as JSON events
(`readEvent`), and `goStep` follows the packages and their tests. A positive count is returned only
of a run in which nothing failed (`go_count_sound`) : every package was started once and ended with
a pass or a skip, every test that ran came to an end, and the count is the number of tests that
passed.

The states of the packages and of the tests are tied to the events read so far by `GoState.Inv`.
-/

namespace Icode

open Py

/-! ## The events -/

/-- `MAX_JSON_EVENTS` -/
def maxJsonEvents : ℕ := 32768

/-- `MAX_ARGV_BYTES` -/
def maxArgvBytes : ℕ := 64 * 1024

/-- `MAX_PLAN_OUTPUT_BYTES` -/
def maxPlanOutputBytes : ℕ := 8 * 1024 * 1024

/-- `_GO_FIELDS` -/
def goFields : List PyStr :=
  ["Time", "Action", "Package", "Test", "Elapsed", "Output", "OutputType", "FailedBuild", "Key",
    "Value", "Path"]

/-- How `_go_count` ends before the end of the output. -/
inductive GoStop where
  /-- `return 0` -/
  | zero
  /-- A text cannot be encoded, or a package has no counters : an exception leaves the function. -/
  | raised
  deriving DecidableEq

/-- `_text(value)` -/
def isBoundedText : Json → Bool
  | .str s =>
    !s.contains (.scalar (Char.ofNat 0)) && (encode s).any fun bytes => bytes.length ≤ 8192
  | _ => false

/-- The text has at most `MAX_ARGV_BYTES` bytes. -/
def requireArgvBytes (s : PyStr) : Except GoStop Unit := do
  let bytes ← orRaise (encode s) .raised
  require (bytes.length ≤ maxArgvBytes) .zero

/-- A value that is a text of at most `MAX_ARGV_BYTES` bytes. -/
def requireOutput (value : Json) : Except GoStop Unit := do
  let s ← orRaise value.text? .zero
  requireArgvBytes s

/-- `type(value) in (int, float) and 0 <= value <= 1e12 and math.isfinite(value)` -/
def isElapsed : Json → Bool
  | .int n => 0 ≤ n && n ≤ 10 ^ 12
  | .float x => x.toRat.any fun q => 0 ≤ q && q ≤ 10 ^ 12
  | _ => false

/-- The check of one member of a build event. -/
def checkBuildMember (m : PyStr × Json) : Except GoStop Unit :=
  if m.1 = lit "Output" then requireOutput m.2 else require (isBoundedText m.2) .zero

/-- The check of one member of an event. -/
def checkGoMember (m : PyStr × Json) : Except GoStop Unit :=
  if m.1 = lit "Elapsed" then require (isElapsed m.2) .zero
  else if m.1 = lit "Output" ∨ m.1 = lit "Value" then requireOutput m.2
  else require (isBoundedText m.2) .zero

/-- An event of the stream : its fields, and the ones that the parser follows. -/
structure GoEvent where
  action : PyStr
  package : PyStr
  test : PyStr
  fields : Members

/-- The event of a JSON object. -/
def goEvent (fields : Members) : GoEvent where
  action := (Members.get fields "Action").text?.getD []
  package := ((Members.get fields "Package").text?).getD []
  test := ((Members.get fields "Test").text?).getD []
  fields := fields

/-- The part of the loop that looks at one line only. The output of a build gives no event. -/
def readEvent (line : PyStr) : Except GoStop (Option GoEvent) := do
  requireArgvBytes line
  let value ← (loadsJsonValue line).mapError fun _ => .zero
  match value with
  | .obj fields =>
    let action ← orRaise (Members.get fields "Action").text? .zero
    if action = lit "build-output" ∨ action = lit "build-fail" then do
      require ((Dict.keys fields).all fun k =>
        ([lit "Action", lit "ImportPath", lit "Output"] : List PyStr).contains k) .zero
      fields.forM checkBuildMember
      require (action ≠ lit "build-fail") .zero
      pure none
    else do
      require ((Dict.keys fields).all fun k => goFields.contains k) .zero
      fields.forM checkGoMember
      pure (some (goEvent fields))
  | _ => throw .zero

/-! ## The state -/

/-- The state of a package. -/
inductive PackageState where
  | started
  | pass
  | skip
  deriving DecidableEq

/-- The state of a test. -/
inductive TestState where
  | running
  | paused
  | pass
  | skip
  deriving DecidableEq

/-- The local variables of `_go_count`. -/
structure GoState where
  packages : Dict PyStr PackageState
  tests : Dict (PyStr × PyStr) TestState
  openTests : Dict PyStr ℕ
  startedTests : Dict PyStr ℕ
  count : ℕ

/-- The state before the first line. -/
def GoState.init : GoState where
  packages := []
  tests := []
  openTests := []
  startedTests := []
  count := 0

/-- `test.split("/", 1)[0].startswith(("Test", "Example", "Fuzz"))` -/
def isGoTestName (test : PyStr) : Bool :=
  let name := test.takeWhile fun c => c ≠ .scalar '/'
  (lit "Test").isPrefixOf name || (lit "Example").isPrefixOf name || (lit "Fuzz").isPrefixOf name

/-- An event of a test. -/
def testStep (s : GoState) (e : GoEvent) : Except GoStop GoState := do
  require (isGoTestName e.test) .zero
  let identity := (e.package, e.test)
  let previous := s.tests.get? identity
  if e.action = lit "run" ∧
      (previous = none ∨ previous = some .pass ∨ previous = some .skip) then do
    let opened ← orRaise (s.openTests.get? e.package) .raised
    let started ← orRaise (s.startedTests.get? e.package) .raised
    pure { s with
      tests := s.tests.set identity .running
      openTests := s.openTests.set e.package (opened + 1)
      startedTests := s.startedTests.set e.package (started + 1) }
  else if e.action = lit "pause" ∧ previous = some .running then
    pure { s with tests := s.tests.set identity .paused }
  else if e.action = lit "cont" ∧ previous = some .paused then
    pure { s with tests := s.tests.set identity .running }
  else if (e.action = lit "pass" ∨ e.action = lit "skip") ∧ previous = some .running then do
    let opened ← orRaise (s.openTests.get? e.package) .raised
    pure { s with
      tests := s.tests.set identity (if e.action = lit "pass" then .pass else .skip)
      openTests := s.openTests.set e.package (opened - 1)
      count := s.count + if e.action = lit "pass" ∧ (lit "Test").isPrefixOf e.test then 1 else 0 }
  else if e.action = lit "pass" ∧ previous = some .pass then
    -- The same terminal is emitted again.
    pure s
  else throw .zero

/-- An event of a package. -/
def packageStep (s : GoState) (e : GoEvent) : Except GoStop GoState :=
  if e.action = lit "pass" ∨ e.action = lit "skip" then do
    let opened ← orRaise (s.openTests.get? e.package) .raised
    require (opened = 0) .zero
    if e.action = lit "skip" then do
      let started ← orRaise (s.startedTests.get? e.package) .raised
      require (started = 0) .zero
      pure { s with packages := s.packages.set e.package .skip }
    else
      pure { s with packages := s.packages.set e.package .pass }
  else throw .zero

/-- The part of the loop that follows an event. -/
def goStep (s : GoState) (e : GoEvent) : Except GoStop GoState := do
  require (!e.package.isEmpty) .zero
  if e.action = lit "start" then do
    require (e.test.isEmpty && !s.packages.has e.package) .zero
    pure { s with
      packages := s.packages.set e.package .started
      openTests := s.openTests.set e.package 0
      startedTests := s.startedTests.set e.package 0 }
  else do
    require (s.packages.get? e.package = some .started) .zero
    if e.action = lit "output" ∨ e.action = lit "attr" ∨ e.action = lit "artifacts" then do
      require (e.action ≠ lit "output" || e.fields.has (lit "Output")) .zero
      require (e.action ≠ lit "attr" || e.fields.has (lit "Key")) .zero
      require (e.action ≠ lit "artifacts" || (e.fields.get "Path").truthy) .zero
      pure s
    else if e.test.isEmpty then packageStep s e
    else testStep s e

/-- The loop over the lines; `number` is the number of the next line. -/
def goLoop : ℕ → GoState → List PyStr → Except GoStop GoState
  | _, s, [] => .ok s
  | number, s, line :: lines => do
    require (number ≤ maxJsonEvents) .zero
    let event ← readEvent line
    let s ← match event with
      | none => pure s
      | some e => goStep s e
    goLoop (number + 1) s lines

/-- The lines of `io.StringIO(text)`, with their ends. -/
def stringLines : PyStr → List PyStr
  | [] => []
  | c :: cs =>
    if c = .scalar '\n' then [c] :: stringLines cs
    else
      match stringLines cs with
      | [] => [[c]]
      | line :: lines => (c :: line) :: lines

/-- `_go_count` up to the way it ends. -/
def readGoCount (output : PyStr) : Except GoStop ℕ := do
  require (output.getLast? == some (.scalar '\n')) .zero
  let s ← goLoop 1 .init (stringLines output)
  require (!s.packages.isEmpty && s.packages.all fun m => m.2 = .pass || m.2 = .skip) .zero
  pure s.count

/-- `_go_count(output)`; nothing when an exception leaves it. -/
def goCount (output : PyStr) : Option ℕ :=
  match readGoCount output with
  | .ok count => some count
  | .error .zero => some 0
  | .error .raised => none

/-- `parse_test_result("go_test_json_v1", output)` -/
def parseGoTestResult (output : Bytes) : Option ℕ :=
  if maxPlanOutputBytes < output.length then some 0
  else
    match decode output with
    | none => some 0
    | some text => goCount text

/-! ## The run an output reports -/

/-- The event of a line that is a JSON object with a text under `Action`. -/
def eventOf (line : PyStr) : Option GoEvent :=
  match loadsJsonValue line with
  | .ok (.obj fields) => (Members.get fields "Action").text?.map fun _ => goEvent fields
  | _ => none

/-- The events of an output. -/
def goEvents (output : PyStr) : List GoEvent :=
  (stringLines output).filterMap eventOf

/-- The event starts the package. -/
def GoEvent.Starts (e : GoEvent) (package : PyStr) : Prop :=
  e.action = lit "start" ∧ e.package = package

instance (e : GoEvent) (package : PyStr) : Decidable (e.Starts package) :=
  inferInstanceAs (Decidable (_ ∧ _))

/-- The event ends a test or a package well. -/
def GoEvent.IsTerminal (e : GoEvent) : Prop :=
  e.action = lit "pass" ∨ e.action = lit "skip"

instance (e : GoEvent) : Decidable e.IsTerminal :=
  inferInstanceAs (Decidable (_ ∨ _))

/-- The event says that the test runs, or that it has come to an end. -/
def GoEvent.Marks (e : GoEvent) (identity : PyStr × PyStr) : Prop :=
  (e.package, e.test) = identity ∧ (e.action = lit "run" ∨ e.IsTerminal)

instance (e : GoEvent) (identity : PyStr × PyStr) : Decidable (e.Marks identity) :=
  inferInstanceAs (Decidable (_ ∧ _))

/-- The last of the events that run or end the test. -/
def lastMark (events : List GoEvent) (identity : PyStr × PyStr) : Option PyStr :=
  (events.filter fun e => e.Marks identity).getLast?.map GoEvent.action

/-- The event is the pass of a test named `Test` that follows a run of this test. -/
def PassesRun (before : List GoEvent) (e : GoEvent) : Prop :=
  e.action = lit "pass" ∧ (lit "Test").isPrefixOf e.test = true ∧
    lastMark before (e.package, e.test) = some (lit "run")

instance (before : List GoEvent) (e : GoEvent) : Decidable (PassesRun before e) :=
  inferInstanceAs (Decidable (_ ∧ _ ∧ _))

/-- The number of the passes that follow a run of their test. -/
def passCount (events : List GoEvent) : ℕ :=
  (List.range events.length).countP fun i =>
    events[i]?.any fun e => PassesRun (events.take i) e

/-- What a positive count says about the output. -/
structure GoRun (output : PyStr) (count : ℕ) : Prop where
  /-- Every line is an event. -/
  read : ∀ line ∈ stringLines output, (eventOf line).isSome = true
  /-- Nothing failed. -/
  clean : ∀ e ∈ goEvents output, e.action ≠ lit "fail" ∧ e.action ≠ lit "build-fail"
  /-- A package is started once. -/
  once : ∀ e ∈ goEvents output, ∀ package, e.Starts package →
    (goEvents output).countP (fun e => e.Starts package) = 1
  /-- A package that is started ends with a pass or a skip, and that is its last event. -/
  ended : ∀ e ∈ goEvents output, ∀ package, e.Starts package →
    ∃ last, ((goEvents output).filter fun e => e.package = package).getLast? = some last ∧
      last.IsTerminal ∧ last.test = []
  /-- A test that runs comes to an end afterwards. -/
  finished : ∀ before e after, goEvents output = before ++ e :: after → e.action = lit "run" →
    ∃ last ∈ after, last.IsTerminal ∧ last.package = e.package ∧ last.test = e.test
  /-- The count is the number of the passes. -/
  counted : count = passCount (goEvents output)

theorem lastMark_snoc (es : List GoEvent) (e : GoEvent) (identity : PyStr × PyStr) :
    lastMark (es ++ [e]) identity =
      if e.Marks identity then some e.action else lastMark es identity := by
  unfold lastMark
  rw [List.filter_append]
  split_ifs with h
  · simp [h]
  · simp [h]

theorem passCount_snoc (es : List GoEvent) (e : GoEvent) :
    passCount (es ++ [e]) = passCount es + if PassesRun es e then 1 else 0 := by
  unfold passCount
  rw [List.length_append, List.length_singleton, List.range_succ, List.countP_append]
  congr 1
  · refine List.countP_congr fun i hi => ?_
    have hlt : i < es.length := List.mem_range.mp hi
    rw [List.getElem?_append_left hlt, List.take_append_of_le_length hlt.le]
  · simp

/-! ## One event -/

/-- The test is running or paused. -/
def TestState.isOpen : TestState → Bool
  | .running | .paused => true
  | .pass | .skip => false

/-- The event that has put a test into its state. -/
def TestState.mark : TestState → PyStr
  | .running | .paused => "run"
  | .pass => "pass"
  | .skip => "skip"

/-- The tests of a package that are open. -/
def openCount (package : PyStr) (tests : Dict (PyStr × PyStr) TestState) : ℕ :=
  tests.countP fun m => m.1.1 = package && m.2.isOpen

/-- Whether the test is an open one of the package. -/
def isOpenIn (package : PyStr) (identity : PyStr × PyStr) (state : Option TestState) : ℕ :=
  if identity.1 = package ∧ state.any TestState.isOpen then 1 else 0

theorem isOpenIn_self {package test : PyStr} {state : Option TestState} {b : Bool}
    (h : state.any TestState.isOpen = b) :
    isOpenIn package (package, test) state = if b then 1 else 0 := by
  simp [isOpenIn, h]

theorem any_isOpen_some (state : TestState) : (some state).any TestState.isOpen = state.isOpen :=
  rfl

theorem openCount_set (package : PyStr) (tests : Dict (PyStr × PyStr) TestState)
    (identity : PyStr × PyStr) (state : TestState) :
    openCount package (tests.set identity state) +
        isOpenIn package identity (tests.get? identity) =
      openCount package tests + isOpenIn package identity (some state) := by
  induction tests with
  | nil => simp [openCount, isOpenIn, Dict.set, Dict.get?, List.countP_cons]
  | cons m tests ih =>
    rw [Dict.get?_cons, Dict.set]
    split_ifs with hk
    · subst hk
      simp only [openCount, isOpenIn, List.countP_cons]
      simp
      omega
    · simp only [openCount, List.countP_cons] at ih ⊢
      omega

/-- What one event can do to the state. -/
inductive GoState.Step (s : GoState) (e : GoEvent) : GoState → Prop
  /-- The package is started. -/
  | start (hname : e.package ≠ []) (ha : e.action = lit "start") (ht : e.test = [])
      (hnew : s.packages.has e.package = false) :
      Step s e { s with
        packages := s.packages.set e.package .started
        openTests := s.openTests.set e.package 0
        startedTests := s.startedTests.set e.package 0 }
  /-- Output, which changes nothing. -/
  | note (hp : s.packages.get? e.package = some .started)
      (ha : e.action = lit "output" ∨ e.action = lit "attr" ∨ e.action = lit "artifacts") :
      Step s e s
  /-- A test is run, for the first time or again. -/
  | run {opened started : ℕ} (hp : s.packages.get? e.package = some .started) (ht : e.test ≠ [])
      (ha : e.action = lit "run")
      (hclosed : (s.tests.get? (e.package, e.test)).any TestState.isOpen = false)
      (hopen : s.openTests.get? e.package = some opened) :
      Step s e { s with
        tests := s.tests.set (e.package, e.test) .running
        openTests := s.openTests.set e.package (opened + 1)
        startedTests := s.startedTests.set e.package started }
  /-- A test is paused or continued. -/
  | hold {old new : TestState} (hp : s.packages.get? e.package = some .started)
      (ht : e.test ≠ []) (ha : e.action = lit "pause" ∨ e.action = lit "cont")
      (hold : s.tests.get? (e.package, e.test) = some old) (hopen : old.isOpen = true)
      (hnew : new.isOpen = true) :
      Step s e { s with tests := s.tests.set (e.package, e.test) new }
  /-- A running test comes to an end. -/
  | close {opened : ℕ} {new : TestState} (hp : s.packages.get? e.package = some .started)
      (ht : e.test ≠ []) (hmark : e.action = new.mark) (hnew : new.isOpen = false)
      (hrun : s.tests.get? (e.package, e.test) = some .running)
      (hopen : s.openTests.get? e.package = some opened) :
      Step s e { s with
        tests := s.tests.set (e.package, e.test) new
        openTests := s.openTests.set e.package (opened - 1)
        count := s.count +
          if e.action = lit "pass" ∧ (lit "Test").isPrefixOf e.test then 1 else 0 }
  /-- The pass of a test is reported again. -/
  | again (hp : s.packages.get? e.package = some .started) (ht : e.test ≠ [])
      (ha : e.action = lit "pass") (hpass : s.tests.get? (e.package, e.test) = some .pass) :
      Step s e s
  /-- The package comes to an end. -/
  | finish {new : PackageState} (hp : s.packages.get? e.package = some .started)
      (ht : e.test = []) (ha : e.IsTerminal) (hnew : new ≠ .started)
      (hopen : s.openTests.get? e.package = some 0) :
      Step s e { s with packages := s.packages.set e.package new }

theorem step_of_testStep {s s' : GoState} {e : GoEvent}
    (hp : s.packages.get? e.package = some .started) (ht : e.test ≠ [])
    (h : testStep s e = .ok s') : s.Step e s' := by
  unfold testStep at h
  simp only [bind_eq_ok, require_eq_ok] at h
  obtain ⟨-, -, h⟩ := h
  split at h
  case isTrue hrun =>
    simp only [bind_eq_ok, orRaise_eq_ok, pure, Except.pure, Except.ok.injEq] at h
    obtain ⟨opened, hopened, started, -, rfl⟩ := h
    refine .run hp ht hrun.1 ?_ hopened
    rcases hrun.2 with hprev | hprev | hprev <;> rw [hprev] <;> rfl
  split at h
  case isTrue hpause =>
    cases h
    exact .hold hp ht (.inl hpause.1) hpause.2 rfl rfl
  split at h
  case isTrue hcont =>
    cases h
    exact .hold hp ht (.inr hcont.1) hcont.2 rfl rfl
  split at h
  case isTrue hend =>
    simp only [bind_eq_ok, orRaise_eq_ok, pure, Except.pure, Except.ok.injEq] at h
    obtain ⟨opened, hopened, rfl⟩ := h
    refine .close hp ht ?_ ?_ hend.2 hopened
    · rcases hend.1 with ha | ha <;> simp [ha, TestState.mark]
    · split_ifs <;> rfl
  split at h
  case isTrue hagain =>
    cases h
    exact .again hp ht hagain.1 hagain.2
  cases h

theorem step_of_packageStep {s s' : GoState} {e : GoEvent}
    (hp : s.packages.get? e.package = some .started) (ht : e.test = [])
    (h : packageStep s e = .ok s') : s.Step e s' := by
  unfold packageStep at h
  split at h
  case isFalse => cases h
  case isTrue ha =>
    simp only [bind_eq_ok, orRaise_eq_ok, require_eq_ok, decide_eq_true_eq] at h
    obtain ⟨opened, hopened, -, rfl, h⟩ := h
    split at h
    · simp only [bind_eq_ok, orRaise_eq_ok, require_eq_ok, pure, Except.pure,
        Except.ok.injEq] at h
      obtain ⟨started, -, -, -, rfl⟩ := h
      exact .finish hp ht ha (by simp) hopened
    · cases h
      exact .finish hp ht ha (by simp) hopened

/-- An event that does not stop the parser takes one of the steps. -/
theorem step_of_goStep {s s' : GoState} {e : GoEvent} (h : goStep s e = .ok s') :
    s.Step e s' := by
  unfold goStep at h
  simp only [bind_eq_ok, require_eq_ok, Bool.not_eq_true', List.isEmpty_eq_false_iff] at h
  obtain ⟨-, hname, h⟩ := h
  split at h
  case isTrue ha =>
    simp only [bind_eq_ok, require_eq_ok, Bool.and_eq_true, Bool.not_eq_true',
      List.isEmpty_iff, pure, Except.pure, Except.ok.injEq] at h
    obtain ⟨-, ⟨ht, hnew⟩, rfl⟩ := h
    exact .start hname ha ht hnew
  simp only [bind_eq_ok, require_eq_ok, decide_eq_true_eq] at h
  obtain ⟨-, hp, h⟩ := h
  split at h
  case isTrue ha =>
    simp only [bind_eq_ok, require_eq_ok, pure, Except.pure, Except.ok.injEq] at h
    obtain ⟨-, -, -, -, -, -, rfl⟩ := h
    exact .note hp ha
  split at h
  case isTrue ht => exact step_of_packageStep hp (List.isEmpty_iff.mp ht) h
  case isFalse ht => exact step_of_testStep hp (by simpa using ht) h

/-! ## The events read so far -/

/-- The event reports no failure, and only tests run. -/
def GoEvent.IsClean (e : GoEvent) : Prop :=
  (e.action ≠ lit "fail" ∧ e.action ≠ lit "build-fail") ∧
    (e.action = lit "run" → e.test ≠ [])

/-- The state against the events. -/
structure GoState.Inv (es : List GoEvent) (s : GoState) : Prop where
  clean : ∀ e ∈ es, e.IsClean
  /-- An event without a package belongs to the output of a build. -/
  known : ∀ e ∈ es, e.package ≠ [] → s.packages.has e.package = true
  unnamed : ∀ e ∈ es, e.package = [] → e.action = lit "build-output"
  named : ∀ package, s.packages.has package = true → package ≠ []
  starts : ∀ package, es.countP (fun e => e.Starts package) =
    if s.packages.has package then 1 else 0
  ended : ∀ package state, s.packages.get? package = some state → state ≠ .started →
    ∃ last, (es.filter fun e => e.package = package).getLast? = some last ∧
      last.IsTerminal ∧ last.test = []
  closed : ∀ package state, s.packages.get? package = some state → state ≠ .started →
    openCount package s.tests = 0
  opened : ∀ package, s.packages.has package = true →
    s.openTests.get? package = some (openCount package s.tests)
  entries : ∀ m ∈ s.tests, s.packages.has m.1.1 = true
  marks : ∀ identity : PyStr × PyStr, identity.2 ≠ [] →
    lastMark es identity = (s.tests.get? identity).map TestState.mark
  count : s.count = passCount es

theorem inv_init : GoState.init.Inv [] where
  clean := by simp
  known := by simp
  unnamed := by simp
  named := by simp [GoState.init, Dict.has]
  starts := by simp [GoState.init, Dict.has]
  ended := by simp [GoState.init, Dict.get?]
  closed := by simp [GoState.init, Dict.get?]
  opened := by simp [GoState.init, Dict.has]
  entries := by simp [GoState.init]
  marks := by simp [GoState.init, Dict.get?, lastMark]
  count := rfl

variable {es : List GoEvent} {s s' : GoState} {e : GoEvent}

theorem has_of_get? {κ β : Type*} [DecidableEq κ] {d : Dict κ β} {key : κ} {v : β}
    (h : d.get? key = some v) : d.has key = true := by
  rw [Dict.has_eq_isSome, h, Option.isSome_some]

/-- An event that leaves the packages as they are. -/
theorem GoState.Inv.update (h : s.Inv es)
    (hplace : s.packages.get? e.package = some .started ∨
      (e.package = [] ∧ e.action = lit "build-output"))
    (hclean : e.IsClean) (hstart : e.action ≠ lit "start") (hpackages : s'.packages = s.packages)
    (hother : ∀ package, package ≠ e.package →
      openCount package s'.tests = openCount package s.tests)
    (hopened : ∀ package, s.packages.has package = true →
      s'.openTests.get? package = some (openCount package s'.tests))
    (hentries : ∀ m ∈ s'.tests, s.packages.has m.1.1 = true)
    (hmarks : ∀ identity : PyStr × PyStr, identity.2 ≠ [] →
      lastMark (es ++ [e]) identity = (s'.tests.get? identity).map TestState.mark)
    (hcount : s'.count = passCount (es ++ [e])) : s'.Inv (es ++ [e]) := by
  -- A package that has ended is not the package of the event.
  have hne : ∀ package state, s.packages.get? package = some state → state ≠ .started →
      package ≠ e.package := by
    rintro package state hstate hended rfl
    rcases hplace with hp | ⟨hnone, -⟩
    · rw [hp] at hstate
      exact hended (Option.some.inj hstate).symm
    · exact h.named _ (has_of_get? hstate) hnone
  refine ⟨?_, ?_, ?_, ?_, ?_, ?_, ?_, ?_, ?_, hmarks, hcount⟩
  · intro x hx
    rcases List.mem_append.mp hx with hx | hx
    · exact h.clean x hx
    · rwa [List.mem_singleton.mp hx]
  · intro x hx hname
    rw [hpackages]
    rcases List.mem_append.mp hx with hx | hx
    · exact h.known x hx hname
    · obtain rfl := List.mem_singleton.mp hx
      rcases hplace with hp | ⟨hnone, -⟩
      · exact has_of_get? hp
      · exact absurd hnone hname
  · intro x hx hname
    rcases List.mem_append.mp hx with hx | hx
    · exact h.unnamed x hx hname
    · obtain rfl := List.mem_singleton.mp hx
      rcases hplace with hp | ⟨-, hout⟩
      · exact absurd hname (h.named _ (has_of_get? hp))
      · exact hout
  · rw [hpackages]
    exact h.named
  · intro package
    rw [hpackages, List.countP_append, h.starts package]
    simp [GoEvent.Starts, hstart]
  · intro package state hstate hended
    rw [hpackages] at hstate
    obtain ⟨last, hlast, hterminal⟩ := h.ended package state hstate hended
    refine ⟨last, ?_, hterminal⟩
    have hoff : e.package ≠ package := (hne package state hstate hended).symm
    simp only [List.filter_append, List.filter_singleton, decide_eq_false hoff, cond_false,
      List.append_nil, hlast]
  · intro package state hstate hended
    rw [hpackages] at hstate
    rw [hother package (hne package state hstate hended)]
    exact h.closed package state hstate hended
  · rwa [hpackages]
  · rwa [hpackages]

/-- An event that changes nothing, and that is no event of a test. -/
theorem GoState.Inv.note (h : s.Inv es)
    (hplace : s.packages.get? e.package = some .started ∨
      (e.package = [] ∧ e.action = lit "build-output"))
    (ha : e.action = lit "output" ∨ e.action = lit "attr" ∨ e.action = lit "artifacts" ∨
      e.action = lit "build-output") : s.Inv (es ++ [e]) := by
  have hmark : ∀ identity, ¬e.Marks identity := by
    rintro identity ⟨-, hrun⟩
    rcases ha with ha | ha | ha | ha <;> simp [GoEvent.IsTerminal, ha, lit_inj] at hrun
  have hpass : ¬PassesRun es e := by
    rintro ⟨hpass, -⟩
    rcases ha with ha | ha | ha | ha <;> simp [ha, lit_inj] at hpass
  refine h.update hplace ?_ ?_ rfl (fun _ _ => rfl) h.opened h.entries ?_ ?_
  · rcases ha with ha | ha | ha | ha <;> simp [GoEvent.IsClean, ha, lit_inj]
  · rcases ha with ha | ha | ha | ha <;> simp [ha, lit_inj]
  · intro identity hne
    rw [lastMark_snoc, if_neg (hmark identity), h.marks identity hne]
  · rw [passCount_snoc, if_neg hpass, Nat.add_zero, h.count]

/-- An event that puts its test into the state `new`. -/
theorem GoState.Inv.setTest {new : TestState} {openTests startedTests : Dict PyStr ℕ}
    {count : ℕ} (h : s.Inv es) (hp : s.packages.get? e.package = some .started)
    (hclean : e.IsClean) (hstart : e.action ≠ lit "start")
    (hmark : lastMark (es ++ [e]) (e.package, e.test) = some new.mark)
    (hopened : openTests.get? e.package =
      some (openCount e.package (s.tests.set (e.package, e.test) new)))
    (hframe : ∀ package, package ≠ e.package →
      openTests.get? package = s.openTests.get? package)
    (hcount : count = s.count + if PassesRun es e then 1 else 0) :
    GoState.Inv (es ++ [e])
      { packages := s.packages, tests := s.tests.set (e.package, e.test) new,
        openTests := openTests, startedTests := startedTests, count := count } := by
  have hother : ∀ package, package ≠ e.package →
      openCount package (s.tests.set (e.package, e.test) new) = openCount package s.tests := by
    intro package hne
    have hset := openCount_set package s.tests (e.package, e.test) new
    simp only [isOpenIn, hne.symm, false_and, if_false] at hset
    omega
  refine h.update (.inl hp) hclean hstart rfl hother ?_ ?_ ?_ ?_
  · intro package hhas
    by_cases hpackage : package = e.package
    · subst hpackage
      exact hopened
    · rw [hframe package hpackage, h.opened package hhas, hother package hpackage]
  · intro m hm
    rcases Dict.mem_of_mem_set hm with rfl | hm
    · exact has_of_get? hp
    · exact h.entries m hm
  · intro identity hne
    rw [Dict.get?_set]
    split_ifs with hid
    · rw [hid, hmark, Option.map_some]
    · have hother : ¬e.Marks identity := fun hm => hid hm.1.symm
      rw [lastMark_snoc, if_neg hother, h.marks identity hne]
  · rw [passCount_snoc, ← h.count, hcount]

theorem GoState.Inv.openCount_eq_zero (h : s.Inv es) {package : PyStr}
    (hnew : s.packages.has package = false) : openCount package s.tests = 0 := by
  refine List.countP_eq_zero.mpr fun m hm => ?_
  have hne : m.1.1 ≠ package := by
    rintro rfl
    rw [h.entries m hm] at hnew
    cases hnew
  simp [hne]

/-- The marks of the tests after an event of no test. -/
theorem GoState.Inv.marks_package (h : s.Inv es) (ht : e.test = []) (identity : PyStr × PyStr)
    (hne : identity.2 ≠ []) :
    lastMark (es ++ [e]) identity = (s.tests.get? identity).map TestState.mark := by
  have hother : ¬e.Marks identity := by
    rintro ⟨rfl, -⟩
    exact hne ht
  rw [lastMark_snoc, if_neg hother, h.marks identity hne]

theorem GoState.Inv.count_package (h : s.Inv es) (ht : e.test = []) :
    s.count = passCount (es ++ [e]) := by
  have hpass : ¬PassesRun es e := by
    rintro ⟨-, htest, -⟩
    rw [ht] at htest
    exact absurd htest (by decide)
  rw [passCount_snoc, if_neg hpass, Nat.add_zero, h.count]

/-- The start of a package. -/
theorem GoState.Inv.start (h : s.Inv es) (hname : e.package ≠ []) (ha : e.action = lit "start")
    (ht : e.test = []) (hnew : s.packages.has e.package = false)
    (startedTests : Dict PyStr ℕ) :
    GoState.Inv (es ++ [e])
      { s with
        packages := s.packages.set e.package .started
        openTests := s.openTests.set e.package 0
        startedTests := startedTests } := by
  have hnone : ∀ x ∈ es, x.package ≠ e.package := by
    intro x hx heq
    have hhas := h.known x hx (heq ▸ hname)
    rw [heq, hnew] at hhas
    cases hhas
  -- A package that has ended is another one.
  have hne : ∀ package state, (s.packages.set e.package .started).get? package = some state →
      state ≠ .started → package ≠ e.package ∧ s.packages.get? package = some state := by
    intro package state hstate hended
    rw [Dict.get?_set] at hstate
    split_ifs at hstate with hpackage
    · exact absurd (Option.some.inj hstate).symm hended
    · exact ⟨hpackage, hstate⟩
  refine ⟨?_, ?_, ?_, ?_, ?_, ?_, ?_, ?_, ?_, h.marks_package ht, h.count_package ht⟩
  · intro x hx
    rcases List.mem_append.mp hx with hx | hx
    · exact h.clean x hx
    · simp [List.mem_singleton.mp hx, GoEvent.IsClean, ha, lit_inj]
  · intro x hx hx'
    rw [Dict.has_set]
    rcases List.mem_append.mp hx with hx | hx
    · simp [h.known x hx hx']
    · simp [List.mem_singleton.mp hx]
  · intro x hx hx'
    rcases List.mem_append.mp hx with hx | hx
    · exact h.unnamed x hx hx'
    · exact absurd (List.mem_singleton.mp hx ▸ hx') hname
  · intro package hhas
    rw [Dict.has_set] at hhas
    by_cases hpackage : package = e.package
    · rwa [hpackage]
    · exact h.named package (by simpa [hpackage] using hhas)
  · intro package
    rw [List.countP_append, h.starts package, Dict.has_set]
    by_cases hpackage : package = e.package
    · simp [hpackage, hnew, GoEvent.Starts, ha]
    · simp [hpackage, GoEvent.Starts, Ne.symm hpackage]
  · intro package state hstate hended
    obtain ⟨hpackage, hstate⟩ := hne package state hstate hended
    obtain ⟨last, hlast, hterminal⟩ := h.ended package state hstate hended
    refine ⟨last, ?_, hterminal⟩
    simp only [List.filter_append, List.filter_singleton, decide_eq_false hpackage.symm, cond_false,
      List.append_nil, hlast]
  · intro package state hstate hended
    obtain ⟨-, hstate⟩ := hne package state hstate hended
    exact h.closed package state hstate hended
  · intro package hhas
    rw [Dict.get?_set]
    split_ifs with hpackage
    · rw [hpackage, h.openCount_eq_zero hnew]
    · rw [Dict.has_set] at hhas
      exact h.opened package (by simpa [hpackage] using hhas)
  · intro m hm
    simp [Dict.has_set, h.entries m hm]

/-- The end of a package. -/
theorem GoState.Inv.finish {new : PackageState} (h : s.Inv es)
    (hp : s.packages.get? e.package = some .started) (ht : e.test = []) (ha : e.IsTerminal)
    (hopen : s.openTests.get? e.package = some 0) :
    GoState.Inv (es ++ [e]) { s with packages := s.packages.set e.package new } := by
  have hhas : s.packages.has e.package = true := has_of_get? hp
  have hset : ∀ package, (s.packages.set e.package new).has package = s.packages.has package := by
    intro package
    rw [Dict.has_set]
    by_cases hpackage : package = e.package
    · simp [hpackage, hhas]
    · simp [hpackage]
  refine ⟨?_, ?_, ?_, ?_, ?_, ?_, ?_, ?_, ?_, h.marks_package ht, h.count_package ht⟩
  · intro x hx
    rcases List.mem_append.mp hx with hx | hx
    · exact h.clean x hx
    · obtain rfl := List.mem_singleton.mp hx
      rcases ha with ha | ha <;> simp [GoEvent.IsClean, ha, lit_inj]
  · intro x hx hx'
    rw [hset]
    rcases List.mem_append.mp hx with hx | hx
    · exact h.known x hx hx'
    · rwa [List.mem_singleton.mp hx]
  · intro x hx hx'
    rcases List.mem_append.mp hx with hx | hx
    · exact h.unnamed x hx hx'
    · exact absurd (List.mem_singleton.mp hx ▸ hx') (h.named _ hhas)
  · intro package hpackage
    rw [hset] at hpackage
    exact h.named package hpackage
  · intro package
    have hstart : e.action ≠ lit "start" := by
      rcases ha with ha | ha <;> simp [ha, lit_inj]
    rw [hset, List.countP_append, h.starts package]
    simp [GoEvent.Starts, hstart]
  · intro package state hstate hended
    rw [Dict.get?_set] at hstate
    split_ifs at hstate with hpackage
    · exact ⟨e, by simp [hpackage], ha, ht⟩
    · obtain ⟨last, hlast, hterminal⟩ := h.ended package state hstate hended
      refine ⟨last, ?_, hterminal⟩
      simp only [List.filter_append, List.filter_singleton, decide_eq_false (Ne.symm hpackage),
        cond_false, List.append_nil, hlast]
  · intro package state hstate hended
    rw [Dict.get?_set] at hstate
    split_ifs at hstate with hpackage
    · have hcount := h.opened e.package hhas
      rw [hopen] at hcount
      rw [hpackage]
      exact (Option.some.inj hcount).symm
    · exact h.closed package state hstate hended
  · intro package hpackage
    rw [hset] at hpackage
    exact h.opened package hpackage
  · intro m hm
    rw [hset]
    exact h.entries m hm

/-- A step keeps the state and the events together. -/
theorem inv_step (h : s.Inv es) (hstep : s.Step e s') : s'.Inv (es ++ [e]) := by
  cases hstep with
  | start hname ha ht hnew => exact h.start hname ha ht hnew _
  | note hp ha => exact h.note (.inl hp) (by tauto)
  | @run opened started hp ht ha hclosed hopen =>
    have hcount := h.opened e.package (has_of_get? hp)
    rw [hopen] at hcount
    have hset := openCount_set e.package s.tests (e.package, e.test) .running
    rw [isOpenIn_self hclosed, isOpenIn_self (any_isOpen_some .running)] at hset
    refine h.setTest hp ?_ ?_ ?_ ?_ ?_ ?_
    · simp [GoEvent.IsClean, ha, ht, lit_inj]
    · simp [ha, lit_inj]
    · rw [lastMark_snoc, if_pos ⟨rfl, .inl ha⟩, ha]
      rfl
    · rw [Dict.get?_set, if_pos rfl, Option.some.inj hcount]
      exact congrArg some hset.symm
    · intro package hne
      rw [Dict.get?_set, if_neg hne]
    · have hpass : ¬PassesRun es e := by simp [PassesRun, ha, lit_inj]
      rw [if_neg hpass, Nat.add_zero]
  | @hold old new hp ht ha hold hopen hnew =>
    have hmark : ¬e.Marks (e.package, e.test) := by
      rintro ⟨-, hrun⟩
      rcases ha with ha | ha <;> simp [GoEvent.IsTerminal, ha, lit_inj] at hrun
    have hset := openCount_set e.package s.tests (e.package, e.test) new
    refine h.setTest hp ?_ ?_ ?_ ?_ (fun _ _ => rfl) ?_
    · rcases ha with ha | ha <;> simp [GoEvent.IsClean, ha, lit_inj]
    · rcases ha with ha | ha <;> simp [ha, lit_inj]
    · rw [lastMark_snoc, if_neg hmark, h.marks _ ht, hold, Option.map_some]
      cases old <;> cases new <;> simp_all [TestState.mark, TestState.isOpen]
    · rw [hold, isOpenIn_self (any_isOpen_some _), isOpenIn_self (any_isOpen_some _), hopen,
        hnew] at hset
      rw [h.opened e.package (has_of_get? hp)]
      congr 1
      omega
    · have hpass : ¬PassesRun es e := by
        rintro ⟨hpass, -⟩
        rcases ha with ha | ha <;> simp [ha, lit_inj] at hpass
      rw [if_neg hpass, Nat.add_zero]
  | @close opened new hp ht hmark hnew hrun hopen =>
    have hterminal : e.IsTerminal := by
      cases new <;> simp_all [TestState.mark, TestState.isOpen, GoEvent.IsTerminal]
    have hcount := h.opened e.package (has_of_get? hp)
    rw [hopen] at hcount
    have hset := openCount_set e.package s.tests (e.package, e.test) new
    refine h.setTest hp ?_ ?_ ?_ ?_ ?_ ?_
    · rcases hterminal with ha | ha <;> simp [GoEvent.IsClean, ha, lit_inj]
    · rcases hterminal with ha | ha <;> simp [ha, lit_inj]
    · rw [lastMark_snoc, if_pos ⟨rfl, .inr hterminal⟩, hmark]
    · rw [hrun, isOpenIn_self (any_isOpen_some _), isOpenIn_self (any_isOpen_some _), hnew] at hset
      rw [Dict.get?_set, if_pos rfl, Option.some.inj hcount]
      exact congrArg some (Nat.sub_eq_of_eq_add hset.symm)
    · intro package hne
      rw [Dict.get?_set, if_neg hne]
    · have hlast : lastMark es (e.package, e.test) = some (lit "run") := by
        rw [h.marks _ ht, hrun]
        rfl
      simp [PassesRun, hlast]
  | again hp ht ha hpass =>
    have hmark : lastMark (es ++ [e]) (e.package, e.test) = some (TestState.pass).mark := by
      rw [lastMark_snoc, if_pos ⟨rfl, .inr (.inl ha)⟩, ha]
      rfl
    have hself := Dict.set_eq_self hpass
    have hopened : s.openTests.get? e.package =
        some (openCount e.package (s.tests.set (e.package, e.test) .pass)) := by
      rw [hself, h.opened e.package (has_of_get? hp)]
    have hnew : GoState.Inv (es ++ [e]) { s with
        tests := s.tests.set (e.package, e.test) .pass
        count := s.count + if PassesRun es e then 1 else 0 } :=
      h.setTest hp (by simp [GoEvent.IsClean, ha, lit_inj]) (by simp [ha, lit_inj]) hmark hopened
        (fun _ _ => rfl) rfl
    have hold : ¬PassesRun es e := by
      rintro ⟨-, -, hlast⟩
      rw [h.marks _ ht, hpass] at hlast
      simp [TestState.mark, lit_inj] at hlast
    rw [hself, if_neg hold] at hnew
    exact hnew
  | finish hp ht ha _ hopen => exact h.finish hp ht ha hopen

/-! ## The whole output -/

theorem eventOf_eq {line : PyStr} {fields : Members} {action : PyStr}
    (hload : loadsJsonValue line = .ok (.obj fields))
    (haction : Members.get fields "Action" = .str action) :
    eventOf line = some (goEvent fields) ∧ (goEvent fields).action = action := by
  simp [eventOf, hload, goEvent, haction, Json.text?]

theorem get_eq_null_of_all {fields : Members} {names : List PyStr} {key : PyStr}
    (h : ((Dict.keys fields).all fun k => names.contains k) = true) (hkey : key ∉ names) :
    Members.get fields key = .null := by
  refine Members.get_eq_null_of_not_has (Bool.eq_false_iff.mpr fun hhas => hkey ?_)
  have := List.all_eq_true.mp h key (Dict.has_iff_mem.mp hhas)
  simpa using this

/-- A line that the parser goes on after is an event : the output of a build, or the event that it
follows. -/
theorem eventOf_of_readEvent {line : PyStr} {event : Option GoEvent}
    (h : readEvent line = .ok event) :
    ∃ e, eventOf line = some e ∧
      (event = none ∧ e.action = lit "build-output" ∧ e.package = [] ∨ event = some e) := by
  unfold readEvent at h
  simp only [bind_eq_ok, mapError_eq_ok] at h
  obtain ⟨-, -, value, hload, h⟩ := h
  cases value with
  | obj fields =>
    simp only [bind_eq_ok, orRaise_eq_ok] at h
    obtain ⟨action, haction, h⟩ := h
    have hget : Members.get fields "Action" = .str action := by
      cases hvalue : Members.get fields "Action" <;> simp_all [Json.text?]
    obtain ⟨heq, hname⟩ := eventOf_eq hload hget
    refine ⟨goEvent fields, heq, ?_⟩
    split at h
    case isTrue hbuild =>
      simp only [bind_eq_ok, require_eq_ok, decide_eq_true_eq, pure, Except.pure,
        Except.ok.injEq] at h
      obtain ⟨-, hkeys, -, -, -, hnot, rfl⟩ := h
      refine .inl ⟨rfl, hname.trans (hbuild.resolve_right hnot), ?_⟩
      have hpackage := get_eq_null_of_all hkeys (by simp [lit_inj] : lit "Package" ∉ _)
      simp [goEvent, hpackage, Json.text?]
    case isFalse =>
      simp only [bind_eq_ok, pure, Except.pure, Except.ok.injEq] at h
      obtain ⟨-, -, -, -, rfl⟩ := h
      exact .inr rfl
  | _ => cases h

/-- The lines that are read keep the state and the events together. -/
theorem inv_goLoop {lines : List PyStr} : ∀ {number : ℕ} {es : List GoEvent} {s s' : GoState},
    s.Inv es → goLoop number s lines = .ok s' →
      (∀ line ∈ lines, (eventOf line).isSome = true) ∧
        s'.Inv (es ++ lines.filterMap eventOf) := by
  induction lines with
  | nil =>
    intro number es s s' h hloop
    cases hloop
    simpa using h
  | cons line lines ih =>
    intro number es s s' h hloop
    simp only [goLoop, bind_eq_ok, require_eq_ok] at hloop
    obtain ⟨-, -, event, hread, hloop⟩ := hloop
    obtain ⟨e, heq, hevent⟩ := eventOf_of_readEvent hread
    obtain ⟨s₁, h₁, hloop⟩ : ∃ s₁ : GoState, s₁.Inv (es ++ [e]) ∧
        goLoop (number + 1) s₁ lines = .ok s' := by
      rcases hevent with ⟨rfl, ha, hpackage⟩ | rfl
      · exact ⟨s, h.note (.inr ⟨hpackage, ha⟩) (by tauto), hloop⟩
      · simp only [bind_eq_ok] at hloop
        obtain ⟨s₁, hstep, hloop⟩ := hloop
        exact ⟨s₁, inv_step h (step_of_goStep hstep), hloop⟩
    obtain ⟨hlines, hinv⟩ := ih h₁ hloop
    constructor
    · intro x hx
      rcases List.mem_cons.mp hx with rfl | hx
      · rw [heq, Option.isSome_some]
      · exact hlines x hx
    · rw [List.filterMap_cons, heq]
      simpa using hinv

/-- When nothing runs or ends the test after its run, the last mark of it is that run. -/
theorem lastMark_of_run {before after : List GoEvent} {e : GoEvent} (ha : e.action = lit "run")
    (hnone : ∀ x ∈ after, ¬(x.IsTerminal ∧ x.package = e.package ∧ x.test = e.test)) :
    lastMark (before ++ e :: after) (e.package, e.test) = some (lit "run") := by
  induction after using List.reverseRecOn with
  | nil => rw [lastMark_snoc, if_pos ⟨rfl, .inl ha⟩, ha]
  | append_singleton after x ih =>
    rw [← List.cons_append, ← List.append_assoc, lastMark_snoc]
    split_ifs with hx
    · obtain ⟨hid, hmark⟩ := hx
      obtain ⟨hp, ht⟩ := Prod.mk.inj hid
      rcases hmark with hrun | hterminal
      · rw [hrun]
      · exact absurd ⟨hterminal, hp, ht⟩ (hnone x (by simp))
    · exact ih fun y hy => hnone y (by simp [hy])

theorem GoState.Inv.has_of_starts (h : s.Inv es) {package : PyStr} (he : e ∈ es)
    (hstart : e.Starts package) : s.packages.has package = true := by
  by_contra hnew
  have hcount := h.starts package
  rw [if_neg hnew, List.countP_eq_zero] at hcount
  exact hcount e he (by simpa using hstart)

/-- A test whose last mark is a run is an open one of its package. -/
theorem GoState.Inv.open_of_lastMark (h : s.Inv es) {package test : PyStr} (hne : test ≠ [])
    (hlast : lastMark es (package, test) = some (lit "run")) :
    ∃ package, s.packages.has package = true ∧ openCount package s.tests ≠ 0 := by
  rw [h.marks _ hne, Option.map_eq_some_iff] at hlast
  obtain ⟨state, hget, hmark⟩ := hlast
  have hmem := Dict.mem_of_get? hget
  have hopen : state.isOpen = true := by
    cases state <;> simp_all [TestState.mark, TestState.isOpen, lit_inj]
  refine ⟨package, h.entries _ hmem, fun hzero => ?_⟩
  exact List.countP_eq_zero.mp hzero _ hmem (by simp [hopen])

/-- A run that is read to its end. -/
theorem goRun_of_readGoCount {output : PyStr} {count : ℕ}
    (hread : readGoCount output = .ok count) : GoRun output count := by
  unfold readGoCount at hread
  simp only [bind_eq_ok, require_eq_ok, Bool.and_eq_true, List.all_eq_true, Bool.or_eq_true,
    decide_eq_true_eq, pure, Except.pure, Except.ok.injEq] at hread
  obtain ⟨-, -, s, hloop, -, ⟨-, hended⟩, rfl⟩ := hread
  obtain ⟨hlines, hinv⟩ := inv_goLoop inv_init hloop
  rw [List.nil_append] at hinv
  change s.Inv (goEvents output) at hinv
  have hstate : ∀ package state, s.packages.get? package = some state → state ≠ .started := by
    rintro package _ hget rfl
    rcases hended _ (Dict.mem_of_get? hget) with hbad | hbad <;> cases hbad
  refine ⟨hlines, fun e he => (hinv.clean e he).1, ?_, ?_, ?_, hinv.count⟩
  · intro e he package hstart
    rw [hinv.starts package, if_pos (hinv.has_of_starts he hstart)]
  · intro e he package hstart
    have hhas := hinv.has_of_starts he hstart
    rw [Dict.has_eq_isSome] at hhas
    obtain ⟨state, hget⟩ := Option.isSome_iff_exists.mp hhas
    exact hinv.ended package state hget (hstate package state hget)
  · intro before e after hsplit ha
    by_contra hnone
    have hopen : lastMark (goEvents output) (e.package, e.test) = some (lit "run") := by
      rw [hsplit]
      exact lastMark_of_run ha fun x hx hx' => hnone ⟨x, hx, hx'⟩
    have he : e ∈ goEvents output := by simp [hsplit]
    obtain ⟨package, hhas, hcount⟩ := hinv.open_of_lastMark ((hinv.clean e he).2 ha) hopen
    rw [Dict.has_eq_isSome] at hhas
    obtain ⟨state, hget⟩ := Option.isSome_iff_exists.mp hhas
    exact hcount (hinv.closed package state hget (hstate package state hget))

theorem readGoCount_of_goCount {output : PyStr} {count : ℕ} (h : goCount output = some count)
    (hpos : 0 < count) : readGoCount output = .ok count := by
  unfold goCount at h
  split at h
  case h_1 n hread => rw [hread, Option.some.inj h]
  case h_2 =>
    have := Option.some.inj h
    omega
  case h_3 => cases h

/-- A positive count is that of a run in which every package was started once and ended well, and
every test that ran came to an end. -/
theorem go_count_sound {output : PyStr} {count : ℕ} (h : goCount output = some count)
    (hpos : 0 < count) : GoRun output count :=
  goRun_of_readGoCount (readGoCount_of_goCount h hpos)

/-- The output of a package with one test, which passes. -/
def sampleGoOutput : PyStr :=
  lit ("\x7b\"Action\":\"start\",\"Package\":\"p\"\x7d\n" ++
    "\x7b\"Action\":\"run\",\"Package\":\"p\",\"Test\":\"TestA\"\x7d\n" ++
    "\x7b\"Action\":\"pass\",\"Package\":\"p\",\"Test\":\"TestA\"\x7d\n" ++
    "\x7b\"Action\":\"pass\",\"Package\":\"p\"\x7d\n")

theorem go_count_sound_sample : goCount sampleGoOutput = some 1 ∧ GoRun sampleGoOutput 1 :=
  have h : goCount sampleGoOutput = some 1 := by decide +kernel
  ⟨h, go_count_sound h (by omega)⟩

/-- The same of the bytes of a process. -/
theorem parseGoTestResult_sound {output : Bytes} {count : ℕ}
    (h : parseGoTestResult output = some count) (hpos : 0 < count) :
    ∃ text, decode output = some text ∧ GoRun text count := by
  unfold parseGoTestResult at h
  split at h
  case isTrue =>
    have := Option.some.inj h
    omega
  cases hdecode : decode output with
  | none =>
    rw [hdecode] at h
    have := Option.some.inj h
    omega
  | some text =>
    rw [hdecode] at h
    exact ⟨text, rfl, goRun_of_readGoCount (readGoCount_of_goCount h hpos)⟩

end Icode
