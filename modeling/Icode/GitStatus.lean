import Icode.ConnectRequest
import Icode.Separated

/-!
# Git status records

`git status --porcelain=v2 -z` writes a stream of records, each ended by a NUL. The
fields of a record stand between blanks, and the path at its end is the rest of it, so
it may hold blanks, line breaks and the beginning of another record. A renamed or copied
path has its original path in a record of its own.

`parsePorcelainV2` is the parser. `Item` is one entry of the documented format, with
types that hold only documented values, and `render` the stream of a list of entries.
Headers have no entry, and ignored paths have one of their own kind.
-/

namespace Icode.GitStatus

open Py Separated

/-! ## The parser -/

/-- `GitStatusParseError` with its message. -/
structure GitStatusParseError where
  message : String
  deriving DecidableEq

/-- `GitStatusEntry.kind`. -/
inductive Kind where
  | tracked | unmerged | untracked | ignored
  deriving DecidableEq

/-- `GitStatusEntry`. -/
structure GitStatusEntry where
  kind : Kind
  path : Bytes
  indexStatus : Option CodePoint
  worktreeStatus : Option CodePoint
  originalPath : Option Bytes := none
  submoduleStatus : Bytes := bytesLit "N..."
  deriving DecidableEq

/-- `_MODES`. -/
def modes : List Bytes :=
  ["000000", "040000", "100644", "100755", "120000", "160000"].map bytesLit

/-- `_UNMERGED_STATUSES`. -/
def unmergedStatuses : List PyStr :=
  ["DD", "AU", "UD", "UA", "DU", "AA", "UU"].map lit

/-- `[0-9a-f]`. -/
def isHexByte (b : UInt8) : Bool :=
  (48 ≤ b.toNat && b.toNat ≤ 57) || (97 ≤ b.toNat && b.toNat ≤ 102)

/-- `[0-9]`. -/
def isDigitByte (b : UInt8) : Bool :=
  48 ≤ b.toNat && b.toNat ≤ 57

/-- `int(digits)`. -/
def decimal (digits : Bytes) : ℕ :=
  digits.foldl (fun n b => 10 * n + (b.toNat - 48)) 0

/-- `_status_pair`. -/
def statusPair (value : Bytes) (allowed : PyStr) :
    Except GitStatusParseError (CodePoint × CodePoint) := do
  let status ← orRaise (decodeAscii value) ⟨"status field is not ASCII"⟩
  match status with
  | [x, y] =>
    require (allowed.contains x && allowed.contains y) ⟨"invalid XY status field"⟩
    require ([x, y] != lit "..") ⟨"unchanged path must not appear as a status record"⟩
    pure (x, y)
  | _ => .error ⟨"invalid XY status field"⟩

/-- `_validate_submodule`. -/
def validateSubmodule (value : Bytes) : Except GitStatusParseError Unit :=
  if value = bytesLit "N..." then .ok ()
  else
    match value with
    | [s, c, m, u] =>
      require (s == 0x53 && (c == 0x2E || c == 0x43) && (m == 0x2E || m == 0x4D) &&
        (u == 0x2E || u == 0x55)) ⟨"invalid submodule state"⟩
    | _ => .error ⟨"invalid submodule state"⟩

/-- `_validate_mode`. -/
def validateMode (value : Bytes) : Except GitStatusParseError Unit :=
  require (modes.contains value) ⟨"invalid file mode"⟩

/-- `_validate_object_id`. -/
def validateObjectId (value : Bytes) : Except GitStatusParseError Unit :=
  require ((value.length == 40 || value.length == 64) && value.all isHexByte)
    ⟨"invalid object ID"⟩

/-- `_require_path`. -/
def requirePath (value : Bytes) : Except GitStatusParseError Unit :=
  require (!value.isEmpty) ⟨"empty path in porcelain-v2 record"⟩

/-- `_validate_tracked_fields`. -/
def validateTrackedFields : List Bytes → Except GitStatusParseError (CodePoint × CodePoint)
  | [xy, sub, modeHead, modeIndex, modeWorktree, objectHead, objectIndex] => do
    let (x, y) ← statusPair xy (lit ".MTADRC")
    require (((lit "MTARC").contains x && (lit ".MTD").contains y) ||
      (x == .scalar 'D' && y == .scalar '.') ||
      (x == .scalar '.' && (lit "MTDRCA").contains y)) ⟨"invalid tracked XY status combination"⟩
    validateSubmodule sub
    validateMode modeHead
    validateMode modeIndex
    validateMode modeWorktree
    validateObjectId objectHead
    validateObjectId objectIndex
    pure (x, y)
  | _ => .error ⟨"malformed tracked metadata"⟩

/-- A record that begins with `#`. -/
def parseHeader (record : Bytes) : Except GitStatusParseError Unit :=
  require ((bytesLit "# ").isPrefixOf record && record.length != 2 &&
    record[2]? != some 0x20 && record[2]? != some 0x09) ⟨"malformed porcelain-v2 header"⟩

/-- A record that begins with `1 `. -/
def parseOrdinary (record : Bytes) : Except GitStatusParseError GitStatusEntry :=
  match splitLimit 0x20 8 record with
  | [_, xy, sub, m₁, m₂, m₃, h₁, h₂, path] => do
    let (x, y) ← validateTrackedFields [xy, sub, m₁, m₂, m₃, h₁, h₂]
    requirePath path
    pure ⟨.tracked, path, some x, some y, none, sub⟩
  | _ => .error ⟨"malformed ordinary tracked record"⟩

/-- A record that begins with `2 `, up to its original path. -/
def parseRenamed (record : Bytes) : Except GitStatusParseError GitStatusEntry :=
  match splitLimit 0x20 9 record with
  | [_, xy, sub, m₁, m₂, m₃, h₁, h₂, score, path] => do
    let (x, y) ← validateTrackedFields [xy, sub, m₁, m₂, m₃, h₁, h₂]
    match score with
    | letter :: digits =>
      require ((letter == 0x52 || letter == 0x43) && 1 ≤ digits.length && digits.length ≤ 3 &&
        digits.all isDigitByte && decimal digits ≤ 100) ⟨"invalid rename/copy score"⟩
      require (ofOrd letter.toNat == x || ofOrd letter.toNat == y)
        ⟨"rename/copy score does not match XY status"⟩
    | [] => .error ⟨"invalid rename/copy score"⟩
    requirePath path
    pure ⟨.tracked, path, some x, some y, none, sub⟩
  | _ => .error ⟨"malformed renamed/copied tracked record"⟩

/-- A record that begins with `u `. -/
def parseUnmerged (record : Bytes) : Except GitStatusParseError GitStatusEntry :=
  match splitLimit 0x20 10 record with
  | [_, xy, sub, m₁, m₂, m₃, m₄, h₁, h₂, h₃, path] => do
    validateSubmodule sub
    validateMode m₁
    validateMode m₂
    validateMode m₃
    validateMode m₄
    validateObjectId h₁
    validateObjectId h₂
    validateObjectId h₃
    let (x, y) ← statusPair xy (lit ".MTADRCU")
    require (unmergedStatuses.contains [x, y]) ⟨"invalid unmerged XY status"⟩
    requirePath path
    pure ⟨.unmerged, path, some x, some y, none, sub⟩
  | _ => .error ⟨"malformed unmerged record"⟩

/-- A record that is a mark, a blank and a path. -/
def parsePath (kind : Kind) (record : Bytes) : Except GitStatusParseError GitStatusEntry := do
  requirePath (record.drop 2)
  pure { kind := kind, path := record.drop 2, indexStatus := none, worktreeStatus := none }

/-- The loop over the records. -/
def parseRecords : List Bytes → Except GitStatusParseError (List GitStatusEntry)
  | [] => .ok []
  | record :: records =>
    if record = [] then .error ⟨"porcelain-v2 stream contains an empty record"⟩
    else if (bytesLit "#").isPrefixOf record then do
      parseHeader record
      parseRecords records
    else if (bytesLit "1 ").isPrefixOf record then do
      let entry ← parseOrdinary record
      let entries ← parseRecords records
      pure (entry :: entries)
    else if (bytesLit "2 ").isPrefixOf record then do
      let entry ← parseRenamed record
      match records with
      | [] => .error ⟨"renamed/copied record is missing original path"⟩
      | original :: records =>
        requirePath original
        let entries ← parseRecords records
        pure ({ entry with originalPath := some original } :: entries)
    else if (bytesLit "u ").isPrefixOf record then do
      let entry ← parseUnmerged record
      let entries ← parseRecords records
      pure (entry :: entries)
    else if (bytesLit "? ").isPrefixOf record then do
      let entry ← parsePath .untracked record
      let entries ← parseRecords records
      pure (entry :: entries)
    else if (bytesLit "! ").isPrefixOf record then do
      let entry ← parsePath .ignored record
      let entries ← parseRecords records
      pure (entry :: entries)
    else .error ⟨"unknown porcelain-v2 item record"⟩

/-- `parse_porcelain_v2`. -/
def parsePorcelainV2 (output : Bytes) : Except GitStatusParseError (List GitStatusEntry) :=
  if output = [] then .ok []
  else if output.getLast? = some 0 then parseRecords (output.splitOn 0).dropLast
  else .error ⟨"porcelain-v2 stream is not NUL terminated"⟩

/-! ## The format -/

/-- A file mode. -/
inductive Mode where
  | absent | tree | file | executable | symlink | gitlink
  deriving DecidableEq

def Mode.bytes : Mode → Bytes
  | .absent => bytesLit "000000"
  | .tree => bytesLit "040000"
  | .file => bytesLit "100644"
  | .executable => bytesLit "100755"
  | .symlink => bytesLit "120000"
  | .gitlink => bytesLit "160000"

/-- Not a submodule, or a submodule with a new commit, tracked changes, untracked changes. -/
inductive Submodule where
  | none
  | state (commit modified untracked : Bool)
  deriving DecidableEq

def Submodule.bytes : Submodule → Bytes
  | .none => bytesLit "N..."
  | .state commit modified untracked =>
    [0x53, if commit then 0x43 else 0x2E, if modified then 0x4D else 0x2E,
      if untracked then 0x55 else 0x2E]

/-- The digits of a SHA-1 or SHA-256 object name. -/
structure ObjectId where
  digits : List (Fin 16)
  length : digits.length = 40 ∨ digits.length = 64

/-- A lower-case hexadecimal digit. -/
def hexByte (d : Fin 16) : UInt8 :=
  UInt8.ofNat (if d.val < 10 then 48 + d.val else 87 + d.val)

def ObjectId.bytes (id : ObjectId) : Bytes :=
  id.digits.map hexByte

/-- A change in the index to a path that is still there. -/
inductive Staged where
  | modified | typeChanged | added | renamed | copied
  deriving DecidableEq

def Staged.letter : Staged → CodePoint
  | .modified => 'M'
  | .typeChanged => 'T'
  | .added => 'A'
  | .renamed => 'R'
  | .copied => 'C'

/-- What the worktree adds to a staged change. -/
inductive Later where
  | unchanged | modified | typeChanged | deleted
  deriving DecidableEq

def Later.letter : Later → CodePoint
  | .unchanged => '.'
  | .modified => 'M'
  | .typeChanged => 'T'
  | .deleted => 'D'

/-- A change in the worktree only. -/
inductive Unstaged where
  | modified | typeChanged | deleted | renamed | copied | added
  deriving DecidableEq

def Unstaged.letter : Unstaged → CodePoint
  | .modified => 'M'
  | .typeChanged => 'T'
  | .deleted => 'D'
  | .renamed => 'R'
  | .copied => 'C'
  | .added => 'A'

/-- The documented pairs `XY` of a tracked path. -/
inductive TrackedStatus where
  | staged (index : Staged) (worktree : Later)
  | removed
  | unstaged (worktree : Unstaged)
  deriving DecidableEq

def TrackedStatus.letters : TrackedStatus → CodePoint × CodePoint
  | .staged index worktree => (index.letter, worktree.letter)
  | .removed => (.scalar 'D', .scalar '.')
  | .unstaged worktree => (.scalar '.', worktree.letter)

/-- The documented pairs `XY` of an unmerged path. -/
inductive UnmergedStatus where
  | bothDeleted | addedByUs | deletedByThem | addedByThem | deletedByUs | bothAdded | bothModified
  deriving DecidableEq

def UnmergedStatus.letters : UnmergedStatus → CodePoint × CodePoint
  | .bothDeleted => (.scalar 'D', .scalar 'D')
  | .addedByUs => (.scalar 'A', .scalar 'U')
  | .deletedByThem => (.scalar 'U', .scalar 'D')
  | .addedByThem => (.scalar 'U', .scalar 'A')
  | .deletedByUs => (.scalar 'D', .scalar 'U')
  | .bothAdded => (.scalar 'A', .scalar 'A')
  | .bothModified => (.scalar 'U', .scalar 'U')

/-- The field with a pair of status letters. -/
def lettersField (xy : CodePoint × CodePoint) : Bytes :=
  encodePass [xy.1, xy.2]

/-- A path: bytes without a NUL. -/
structure PathBytes where
  bytes : Bytes
  ne_nil : bytes ≠ []
  noNul : 0 ∉ bytes

/-- The fields of a tracked record before its path. -/
structure Tracked where
  status : TrackedStatus
  submodule : Submodule
  modeHead : Mode
  modeIndex : Mode
  modeWorktree : Mode
  objectHead : ObjectId
  objectIndex : ObjectId

def Tracked.fields (t : Tracked) : List Bytes :=
  [lettersField t.status.letters, t.submodule.bytes, t.modeHead.bytes, t.modeIndex.bytes,
    t.modeWorktree.bytes, t.objectHead.bytes, t.objectIndex.bytes]

/-- The fields of an unmerged record before its path: three stages and the worktree. -/
structure Unmerged where
  status : UnmergedStatus
  submodule : Submodule
  mode₁ : Mode
  mode₂ : Mode
  mode₃ : Mode
  modeWorktree : Mode
  object₁ : ObjectId
  object₂ : ObjectId
  object₃ : ObjectId

def Unmerged.fields (u : Unmerged) : List Bytes :=
  [lettersField u.status.letters, u.submodule.bytes, u.mode₁.bytes, u.mode₂.bytes, u.mode₃.bytes,
    u.modeWorktree.bytes, u.object₁.bytes, u.object₂.bytes, u.object₃.bytes]

/-- A similarity in percent, in one to three digits. -/
structure Similarity where
  digits : List (Fin 10)
  length_pos : 1 ≤ digits.length
  length_le : digits.length ≤ 3
  le_hundred : digits.foldl (fun n d => 10 * n + d.val) 0 ≤ 100

def digitByte (d : Fin 10) : UInt8 :=
  UInt8.ofNat (48 + d.val)

/-- A renamed or copied path: one of its status letters says which, and the score repeats it. -/
structure Renamed extends Tracked where
  copied : Bool
  similarity : Similarity
  letter : (if copied then CodePoint.scalar 'C' else .scalar 'R') = status.letters.1 ∨
    (if copied then CodePoint.scalar 'C' else .scalar 'R') = status.letters.2

/-- The field `R100`. -/
def Renamed.score (r : Renamed) : Bytes :=
  (if r.copied then 0x43 else 0x52) :: r.similarity.digits.map digitByte

/-- The text of a header after `# `. -/
structure HeaderText where
  first : UInt8
  rest : Bytes
  first_ne : first ≠ 0x20 ∧ first ≠ 0x09
  noNul : 0 ∉ first :: rest

/-- One entry of the format. -/
inductive Item where
  | header (text : HeaderText)
  | ordinary (metadata : Tracked) (path : PathBytes)
  | renamed (metadata : Renamed) (path original : PathBytes)
  | unmerged (metadata : Unmerged) (path : PathBytes)
  | untracked (path : PathBytes)
  | ignored (path : PathBytes)

/-- The records of an entry. -/
def Item.records : Item → List Bytes
  | .header text => [0x23 :: 0x20 :: text.first :: text.rest]
  | .ordinary metadata path =>
    [terminate 0x20 ([0x31] :: metadata.fields) ++ path.bytes]
  | .renamed metadata path original =>
    [terminate 0x20 ([0x32] :: (metadata.fields ++ [metadata.score])) ++ path.bytes,
      original.bytes]
  | .unmerged metadata path =>
    [terminate 0x20 ([0x75] :: metadata.fields) ++ path.bytes]
  | .untracked path => [0x3F :: 0x20 :: path.bytes]
  | .ignored path => [0x21 :: 0x20 :: path.bytes]

/-- The entry the parser gives: none for a header. -/
def Item.entry : Item → Option GitStatusEntry
  | .header _ => none
  | .ordinary metadata path =>
    some ⟨.tracked, path.bytes, some metadata.status.letters.1, some metadata.status.letters.2,
      none, metadata.submodule.bytes⟩
  | .renamed metadata path original =>
    some ⟨.tracked, path.bytes, some metadata.status.letters.1, some metadata.status.letters.2,
      some original.bytes, metadata.submodule.bytes⟩
  | .unmerged metadata path =>
    some ⟨.unmerged, path.bytes, some metadata.status.letters.1, some metadata.status.letters.2,
      none, metadata.submodule.bytes⟩
  | .untracked path =>
    some { kind := .untracked, path := path.bytes, indexStatus := none, worktreeStatus := none }
  | .ignored path =>
    some { kind := .ignored, path := path.bytes, indexStatus := none, worktreeStatus := none }

/-- The stream of a list of entries. -/
def render (items : List Item) : Bytes :=
  terminate 0 (items.flatMap Item.records)

end Icode.GitStatus
