import Icode.Checks
import Icode.Effects
import Icode.PurePath
import Icode.Sha256

/-!
# Pinned startup files

`pinStartupFile` opens the volume, the directories and the file of a path one below the other,
reads the file and gives an owner of every handle. The owner looks at its handles again
(`revalidate`) and closes them (`close`, `exit`).

Every answer comes from a `Backend` with a state of its own, and may be of any type or an
exception. `Event` is one call with its answer; `World.log` holds them in order.
-/

namespace Icode.StartupPin

open Py Eff

/-! ## Paths -/

/-- `MAX_STARTUP_BYTES` -/
def maxStartupBytes : ℤ := 64 * 1024 * 1024

/-- `_READ_CHUNK` -/
def readChunk : ℕ := 64 * 1024

/-- `re.match(r"^[A-Za-z]:\\", path)` -/
def onDrive : PyStr → Bool
  | c :: colon :: slash :: _ =>
    ((65 ≤ c.ord && c.ord ≤ 90) || (97 ≤ c.ord && c.ord ≤ 122)) && colon == .scalar ':' &&
      slash == .scalar '\\'
  | _ => false

def unsafeComponent (component : PyStr) : Bool :=
  component.isEmpty || component == lit "." || component == lit ".." ||
    component.getLast? == some (.scalar ' ') || component.getLast? == some (.scalar '.') ||
    component.any fun char => char.ord < 32 || (lit "<>:\"/\\|?*").contains char

/-- `component.split(".", 1)[0].rstrip(" ")` -/
def stem (component : PyStr) : PyStr :=
  ((component.takeWhile (· != .scalar '.')).reverse.dropWhile (· == .scalar ' ')).reverse

/-- `(?:COM|LPT)[1-9¹²³]` -/
def isPort (stem : PyStr) : Bool :=
  (stem.take 3 == lit "COM" || stem.take 3 == lit "LPT") &&
    match stem.drop 3 with
    | [digit] => (lit "123456789¹²³").contains digit
    | _ => false

def deviceAlias (stem : PyStr) : Bool :=
  [lit "CON", lit "PRN", lit "AUX", lit "NUL", lit "CONIN$", lit "CONOUT$",
    lit "CLOCK$"].contains stem || isPort stem

def checkComponent (upper : PyStr → PyStr) (component : PyStr) : Except String Unit := do
  require (!unsafeComponent component) "unsafe startup path component"
  require (!deviceAlias (upper (stem component))) "device alias is not a startup file"

/-- `_local_components` of a `str`, with `str.upper`: the drive, and the names below it. -/
def localComponents (upper : PyStr → PyStr) (path : PyStr) :
    Except String (PyStr × List PyStr) := do
  require (path.all isScalar) "invalid Unicode startup path"
  require (onDrive path && !path.contains (.scalar '/'))
    "startup path must be an absolute local drive path"
  let components := splitOn (.scalar '\\') (path.drop 3)
  let _ ← mapAll (checkComponent upper) components
  pure (upper (path.take 2), components)

/-! ## Answers -/

/-- A Python value; `other` is of any other type. -/
inductive Value where
  | int (n : ℤ)
  | bool (b : Bool)
  | bytes (b : Bytes)
  | str (s : PyStr)
  | other

/-- A `StartupFileMetadata` as it is given, with fields of any type. -/
structure RawMetadata where
  volumeSerial : Value
  fileId : Value
  directory : Value
  reparse : Value
  deletePending : Value
  fileType : Value
  links : Value
  size : Value
  changeTime : Value

/-- The answer to a query. -/
inductive QueryAnswer where
  | metadata (raw : RawMetadata)
  | other

structure StartupFileMetadata where
  volumeSerial : ℤ
  fileId : Bytes
  directory : Bool
  reparse : Bool
  deletePending : Bool
  fileType : PyStr
  links : ℤ
  size : ℤ
  changeTime : ℤ
  deriving DecidableEq

/-- An `int` field within its bounds. -/
def intField (field : String) (minimum maximum : ℤ) : Value → Except String ℤ
  | .int n => if minimum ≤ n ∧ n ≤ maximum then .ok n else .error ("invalid HANDLE " ++ field)
  | _ => .error ("invalid HANDLE " ++ field)

def fileIdField : Value → Except String Bytes
  | .bytes b => if b.length = 16 then .ok b else .error "invalid 128-bit file identity"
  | _ => .error "invalid 128-bit file identity"

def boolField : Value → Except String Bool
  | .bool b => .ok b
  | _ => .error "invalid HANDLE boolean metadata"

def diskField : Value → Except String PyStr
  | .str s => if s = lit "disk" then .ok s else .error "HANDLE is not a disk object"
  | _ => .error "HANDLE is not a disk object"

/-- `_metadata`. -/
def metadata (value : QueryAnswer) (directory : Bool) (maxBytes : ℤ) :
    Except String StartupFileMetadata :=
  match value with
  | .other => .error "invalid HANDLE metadata structure"
  | .metadata raw => do
    let volumeSerial ← intField "volume_serial" 0 (2 ^ 64 - 1) raw.volumeSerial
    let links ← intField "links" 0 (2 ^ 32 - 1) raw.links
    let size ← intField "size" 0 (2 ^ 64 - 1) raw.size
    let changeTime ← intField "change_time" (-2 ^ 63) (2 ^ 63 - 1) raw.changeTime
    let fileId ← fileIdField raw.fileId
    let isDirectory ← boolField raw.directory
    let reparse ← boolField raw.reparse
    let deletePending ← boolField raw.deletePending
    let fileType ← diskField raw.fileType
    require (!reparse && !deletePending && isDirectory == directory)
      "unsafe HANDLE role or state"
    require (directory || (links == 1 && 0 < size && size ≤ maxBytes))
      "startup file must be nonempty, single-link, and bounded"
    pure ⟨volumeSerial, fileId, isDirectory, reparse, deletePending, fileType, links, size,
      changeTime⟩

/-! ## The backend -/

/-- What is raised: a `StartupPinError`, a `StartupPinCloseError`, or an exception from outside. -/
inductive Raised (E : Type) where
  | pinError (message : String)
  | closeError (errors : List (Raised E))
  | outside (e : E)

/-- `_StartupPinBackend`: from its state, an answer or an exception and its next state. -/
structure Backend (σ E : Type) where
  openRoot : PyStr → σ → Except E Value × σ
  openChild : ℤ → PyStr → Bool → σ → Except E Value × σ
  query : ℤ → σ → Except E QueryAnswer × σ
  read : ℤ → ℕ → ℕ → σ → Except E Value × σ
  close : ℤ → σ → Except E Unit × σ
  /-- `isinstance(e, Exception)` of what it raises -/
  isException : E → Bool

/-- A call of the backend with its answer, or a note put on an exception. -/
inductive Event (E : Type) where
  | openRoot (drive : PyStr) (answer : Except E Value)
  | openChild (parent : ℤ) (name : PyStr) (directory : Bool) (answer : Except E Value)
  | query (handle : ℤ) (answer : Except E QueryAnswer)
  | read (handle : ℤ) (offset count : ℕ) (answer : Except E Value)
  | close (handle : ℤ) (answer : Except E Unit)
  /-- `BaseException.add_note(original, f"… unconfirmed: …")`, tried -/
  | note (original : Raised E) (unconfirmed : ℕ)

/-- The fields of a `PinnedStartupFile`. -/
structure Owner (E : Type) where
  maxBytes : ℤ
  handles : List ℤ
  baseline : List StartupFileMetadata
  unconfirmed : List ℤ
  closeErrors : List (Raised E)
  closed : Bool
  ready : Bool
  content : Bytes
  sha256 : PyStr

/-- `PinnedStartupFile.__init__` -/
def Owner.new (E : Type) (maxBytes : ℤ) : Owner E :=
  ⟨maxBytes, [], [], [], [], false, false, [], []⟩

/-- The backend's state, the owner, and what was called. -/
structure World (σ E : Type) where
  backend : σ
  owner : Owner E
  log : List (Event E)

variable {σ E α : Type}

abbrev Run (σ E α : Type) : Type :=
  Eff (World σ E) (Raised E) α

/-- A call of the backend. -/
def call (f : σ → Except E α × σ) (event : Except E α → Event E) : Run σ E α :=
  fun w =>
    let (answer, s) := f w.backend
    let w' := { w with backend := s, log := w.log ++ [event answer] }
    match answer with
    | .ok a => (.ok a, w')
    | .error e => (.error (.outside e), w')

def note (original : Raised E) (unconfirmed : ℕ) : Run σ E Unit :=
  modify fun w => { w with log := w.log ++ [.note original unconfirmed] }

def setOwner (f : Owner E → Owner E) : Run σ E Unit :=
  modify fun w => { w with owner := f w.owner }

def pinError (message : String) : Run σ E α :=
  raise (.pinError message)

/-- A check whose failure is a `StartupPinError`. -/
def checked (x : Except String α) : Run σ E α :=
  match x with
  | .ok a => pure a
  | .error message => pinError message

/-! ## The owner -/

variable (b : Backend σ E)

/-- `_register`. -/
def register (handle : Value) : Run σ E ℤ := do
  match handle with
  | .int handle =>
    if ¬(0 < handle ∧ handle < 2 ^ 64 - 1) then pinError "invalid acquired HANDLE"
    else
      let w ← get
      if handle ∈ w.owner.handles then pinError "backend reused an owned HANDLE"
      else
        setOwner fun o => { o with handles := o.handles ++ [handle] }
        pure handle
  | _ => pinError "invalid acquired HANDLE"

/-- `self._metadata(self._backend.query(handle), …)` -/
def queryMetadata (handle : ℤ) (directory : Bool) : Run σ E StartupFileMetadata := do
  let value ← call (b.query handle) (.query handle)
  let w ← get
  checked (metadata value directory w.owner.maxBytes)

/-- `_query_new`. -/
def queryNew (handle : ℤ) (directory : Bool) : Run σ E Unit := do
  let found ← queryMetadata b handle directory
  let w ← get
  if w.owner.baseline.head?.any (·.volumeSerial != found.volumeSerial) then
    pinError "startup chain crosses volumes"
  else if w.owner.baseline.any
      fun old => old.volumeSerial == found.volumeSerial && old.fileId == found.fileId then
    pinError "startup chain reuses an object identity"
  else
    setOwner fun o => { o with baseline := o.baseline ++ [found] }

/-- The loop in `close`: the errors, in order. -/
def closeAll : List ℤ → Run σ E (List (Raised E))
  | [] => pure []
  | handle :: handles => do
    let failed ← tryExcept (do call (b.close handle) (.close handle); pure none) fun exc => do
      setOwner fun o => { o with unconfirmed := o.unconfirmed ++ [handle] }
      pure (some exc)
    let errors ← closeAll handles
    pure (failed.toList ++ errors)

def Raised.isException : Raised E → Bool
  | .outside e => b.isException e
  | _ => true

/-- What `close` raises for its errors: the first that is no `Exception`, or all of them. -/
def closeFailure (errors : List (Raised E)) : Raised E :=
  (errors.find? fun error => !error.isException b).getD (.closeError errors)

/-- `close`. -/
def close : Run σ E Unit := do
  let w ← get
  if w.owner.closed then pure ()
  else
    setOwner fun o => { o with closed := true }
    let errors ← closeAll b w.owner.handles.reverse
    setOwner fun o => { o with closeErrors := errors }
    if errors.isEmpty then pure () else raise (closeFailure b errors)

/-- `_close_preserving_exception`. -/
def closePreserving (original : Raised E) : Run σ E Unit := do
  let before ← get
  tryExcept (close b) fun _ => pure ()
  let w ← get
  if !w.owner.unconfirmed.isEmpty && !before.owner.closed then
    note original w.owner.unconfirmed.length
  else pure ()

/-- `except BaseException as exc: self._close_preserving_exception(exc); raise` -/
def closingOnError (x : Run σ E α) : Run σ E α :=
  tryExcept x fun exc => do
    closePreserving b exc
    raise exc

/-- The loop in `_validate_chain`. -/
def validateAll : List (ℤ × StartupFileMetadata) → Run σ E Unit
  | [] => pure ()
  | (handle, previous) :: chain => do
    let current ← queryMetadata b handle previous.directory
    if current ≠ previous then pinError "pinned HANDLE metadata changed"
    else validateAll chain

/-- `_validate_chain`. -/
def validateChain : Run σ E Unit :=
  closingOnError b do
    let w ← get
    validateAll b (w.owner.handles.zip w.owner.baseline)

/-- `_require_open`. -/
def requireOpen : Run σ E Unit := do
  let w ← get
  if w.owner.closed || !w.owner.ready then
    pinError "startup owner is closed or uninitialized"
  else pure ()

/-- `revalidate`. -/
def revalidate : Run σ E Unit := do
  requireOpen
  validateChain b

/-- `__exit__`; the exception of the body, if there is one, goes on. -/
def exit : Option (Raised E) → Run σ E Unit
  | some exc => closePreserving b exc
  | none => close b

/-! ## Pinning -/

/-- The loop over the components: the handle of the last one. -/
def openComponents (handle : ℤ) : List PyStr → Run σ E ℤ
  | [] => pure handle
  | component :: rest => do
    let directory := !rest.isEmpty
    let value ← call (b.openChild handle component directory)
      (.openChild handle component directory)
    let child ← register value
    queryNew b child directory
    openComponents child rest

/-- The loop that reads the content. Each chunk has a byte, so `expectedSize` rounds are enough. -/
def readAll (handle : ℤ) (expectedSize : ℕ) : ℕ → Bytes → Run σ E Bytes
  | 0, content => pure content
  | rounds + 1, content =>
    if content.length < expectedSize then do
      let count := min readChunk (expectedSize - content.length)
      let chunk ← call (b.read handle content.length count) (.read handle content.length count)
      match chunk with
      | .bytes chunk =>
        if 0 < chunk.length ∧ chunk.length ≤ count then
          readAll handle expectedSize rounds (content ++ chunk)
        else pinError "invalid or unexpected EOF in startup HANDLE read"
      | _ => pinError "invalid or unexpected EOF in startup HANDLE read"
    else pure content

/-- The volume and the components below it: the handle of the file. -/
def openChain (drive : PyStr) (components : List PyStr) : Run σ E ℤ := do
  let value ← call (b.openRoot drive) (.openRoot drive)
  let root ← register value
  queryNew b root true
  openComponents b root components

/-- The `try` block of `pin_startup_file`. -/
def acquire (drive : PyStr) (components : List PyStr) : Run σ E Unit := do
  let handle ← openChain b drive components
  let w ← get
  let expectedSize := (w.owner.baseline.getLast?.elim 0 (·.size)).toNat
  let content ← readAll b handle expectedSize expectedSize []
  validateChain b
  setOwner fun o => { o with content := content, sha256 := sha256 content, ready := true }

/-- `pin_startup_file` of a `str` and an `int`: the backend of the owner. `native` is what the
platform gives, or refuses to give, where no backend is passed. -/
def pinStartupFile (upper : PyStr → PyStr) (native : Except String (Backend σ E))
    (backend : Option (Backend σ E)) (path : PyStr) (maxBytes : ℤ) : Run σ E (Backend σ E) := do
  let (drive, components) ← checked (localComponents upper path)
  if ¬(0 < maxBytes ∧ maxBytes ≤ maxStartupBytes) then pinError "invalid startup byte budget"
  else
    let b ← checked (backend.elim native .ok)
    setOwner fun _ => Owner.new E maxBytes
    closingOnError b (acquire b drive components)
    pure b

end Icode.StartupPin
