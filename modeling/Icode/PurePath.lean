import Icode.PyText

/-!
# Pure paths

`PurePosixPath` and `PureWindowsPath` as Python 3.12 parses them : a drive, a root
and the names behind it. Empty names and `.` are dropped. `splitrootNt` is
`ntpath.splitroot`, with its UNC shares and device paths.

A text is joined from the names it is split into (`splitOn_joinWith`).
-/

namespace Py

/-- `text.split(sep)`. -/
def splitOn (sep : CodePoint) : PyStr → List PyStr
  | [] => [[]]
  | c :: cs =>
    if c = sep then [] :: splitOn sep cs
    else
      match splitOn sep cs with
      | [] => [[c]]
      | p :: ps => (c :: p) :: ps

/-- `sep.join(names)`. -/
def joinWith (sep : CodePoint) : List PyStr → PyStr
  | [] => []
  | [p] => p
  | p :: ps => p ++ sep :: joinWith sep ps

theorem splitOn_cons (sep c : CodePoint) (cs : PyStr) : splitOn sep (c :: cs) =
    if c = sep then [] :: splitOn sep cs
    else
      match splitOn sep cs with
      | [] => [[c]]
      | p :: ps => (c :: p) :: ps :=
  rfl

theorem splitOn_ne_nil (sep : CodePoint) (s : PyStr) : splitOn sep s ≠ [] := by
  cases s with
  | nil => exact List.cons_ne_nil _ _
  | cons c cs =>
    rw [splitOn_cons]
    split_ifs
    · simp
    · cases splitOn sep cs <;> simp

theorem splitOn_eq_singleton {sep : CodePoint} {s : PyStr} (h : sep ∉ s) : splitOn sep s = [s] := by
  induction s with
  | nil => rfl
  | cons c cs ih =>
    rw [List.mem_cons, not_or] at h
    rw [splitOn_cons, if_neg (Ne.symm h.1), ih h.2]

theorem splitOn_append {sep : CodePoint} {s : PyStr} (h : sep ∉ s) (t : PyStr) :
    splitOn sep (s ++ sep :: t) = s :: splitOn sep t := by
  induction s with
  | nil => rw [List.nil_append, splitOn_cons, if_pos rfl]
  | cons c cs ih =>
    rw [List.mem_cons, not_or] at h
    rw [List.cons_append, splitOn_cons, if_neg (Ne.symm h.1), ih h.2]

/-- Splitting takes a joined text apart. -/
theorem splitOn_joinWith {sep : CodePoint} : ∀ {names : List PyStr}, names ≠ [] →
    (∀ name ∈ names, sep ∉ name) → splitOn sep (joinWith sep names) = names
  | [], hne, _ => absurd rfl hne
  | [name], _, h => splitOn_eq_singleton (h name (by simp))
  | name :: next :: names, _, h => by
    rw [joinWith, splitOn_append (h name (by simp)),
      splitOn_joinWith (by simp) fun x hx => h x (List.mem_cons_of_mem _ hx)]
    simp

inductive Flavour where
  | posix
  | windows
  deriving DecidableEq, Repr

def Flavour.sep : Flavour → CodePoint
  | .posix => .scalar '/'
  | .windows => .scalar '\\'

/-- `posixpath.splitroot`. -/
def splitrootPosix (p : PyStr) : PyStr × PyStr × PyStr :=
  match p with
  | .scalar '/' :: .scalar '/' :: .scalar '/' :: _ => ([], p.take 1, p.drop 1)
  | .scalar '/' :: .scalar '/' :: _ => ([], p.take 2, p.drop 2)
  | .scalar '/' :: _ => ([], p.take 1, p.drop 1)
  | _ => ([], [], p)

/-- `p.find(c, start)`. -/
def findFrom (p : PyStr) (c : CodePoint) (start : ℕ) : Option ℕ :=
  ((p.drop start).findIdx? (· == c)).map (start + ·)

/-- The path begins with the prefix of a long UNC path, in any case. -/
def isUncPrefix (p : PyStr) : Bool :=
  match p.take 8 with
  | [a, b, q, c, u, n, d, e] =>
    [a, b, q, c] == lit "\\\\?\\" && (u == .scalar 'U' || u == .scalar 'u') &&
      (n == .scalar 'N' || n == .scalar 'n') && (d == .scalar 'C' || d == .scalar 'c') &&
      e == .scalar '\\'
  | _ => false

/-- `ntpath.splitroot`, for a path without slashes. -/
def splitrootNt (p : PyStr) : PyStr × PyStr × PyStr :=
  let sep := Flavour.windows.sep
  if p.head? = some sep then
    if p[1]? = some sep then
      match findFrom p sep (if isUncPrefix p then 8 else 2) with
      | none => (p, [], [])
      | some i =>
        match findFrom p sep (i + 1) with
        | none => (p, [], [])
        | some j => (p.take j, (p.drop j).take 1, p.drop (j + 1))
    else ([], p.take 1, p.drop 1)
  else if p[1]? = some (.scalar ':') then
    if p[2]? = some sep then (p.take 2, (p.drop 2).take 1, p.drop 3)
    else (p.take 2, [], p.drop 2)
  else ([], [], p)

/-- A parsed path. -/
structure PurePath where
  flavour : Flavour
  drive : PyStr
  root : PyStr
  tail : List PyStr
  deriving DecidableEq

namespace PurePath

/-- A name of a path: not empty, and not `.`. -/
def isName (x : PyStr) : Bool :=
  !x.isEmpty && x ≠ lit "."

/-- The root of a UNC share that is written without one. -/
def impliedRoot (sep : CodePoint) (drive : PyStr) : PyStr :=
  if drive.head? = some sep ∧ drive.getLast? ≠ some sep then
    let names := splitOn sep drive
    if names.length = 4 ∧ contains (lit "?.") (names.getD 2 []) = false then [sep]
    else if names.length = 6 then [sep]
    else []
  else []

/-- `PurePosixPath(text)` and `PureWindowsPath(text)`. -/
def parse (f : Flavour) (text : PyStr) : PurePath :=
  let p := match f with
    | .posix => text
    | .windows => text.map fun c => if c = .scalar '/' then f.sep else c
  let (drive, root, rel) := match f with
    | .posix => splitrootPosix p
    | .windows => splitrootNt p
  ⟨f, drive, if root.isEmpty then impliedRoot f.sep drive else root, (splitOn f.sep rel).filter isName⟩

/-- `splitdrive(name)[0]` is not empty. -/
def hasDrive (f : Flavour) (name : PyStr) : Bool :=
  match f with
  | .posix => false
  | .windows => !(splitrootNt name).1.isEmpty

/-- `str(path)`. -/
def str (p : PurePath) : PyStr :=
  let sep := p.flavour.sep
  let text :=
    if !p.drive.isEmpty || !p.root.isEmpty then p.drive ++ p.root ++ joinWith sep p.tail
    else if p.tail.head?.any (hasDrive p.flavour) then joinWith sep (lit "." :: p.tail)
    else joinWith sep p.tail
  if text.isEmpty then lit "." else text

/-- `path.as_posix()`. -/
def asPosix (p : PurePath) : PyStr :=
  p.str.map fun c => if c = p.flavour.sep then .scalar '/' else c

/-- `path.parts`. -/
def parts (p : PurePath) : List PyStr :=
  if !p.drive.isEmpty || !p.root.isEmpty then (p.drive ++ p.root) :: p.tail else p.tail

/-- `path.name`. -/
def name (p : PurePath) : PyStr :=
  p.tail.getLast?.getD []

/-- `path.is_absolute()`. -/
def isAbsolute (p : PurePath) : Bool :=
  match p.flavour with
  | .posix => !p.root.isEmpty
  | .windows => !p.drive.isEmpty && !p.root.isEmpty

/-- `path.parents`, from the root down, and the path. -/
def chain (p : PurePath) : List PurePath :=
  p.tail.inits.map fun names => { p with tail := names }

end PurePath

example : (PurePath.parse .posix (lit "a//b/./c")).str = lit "a/b/c" := by decide

end Py
