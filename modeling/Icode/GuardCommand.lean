import Icode.Compaction
import Icode.PyRegex
import Icode.SandboxPolicy

/-!
# Commands before the guard

`Guard.check_command` is asked before a command is run. It refuses what is no list of arguments,
what is written for a shell and what one of the dangerous patterns is found in; then it looks at the
arguments of the programs that can do damage, and at last at the list of programs that are allowed.

The tables of Unicode that `str.lower` and `\w` use beyond ASCII are a parameter.
-/

namespace Icode

open Py Regex

namespace GuardCommand

/-! ## Text -/

/-- What the standard library takes from the tables of Unicode. -/
structure UnicodeTables where
  /-- The lower case of a character that is not ASCII, between two texts. -/
  lowerOther : PyStr → CodePoint → PyStr → PyStr
  /-- `\w` on characters that are not ASCII. -/
  wordOther : CodePoint → Bool

/-- `(before + s).lower()`, without what `before` gives. -/
def lowerFrom (u : UnicodeTables) (before : PyStr) : PyStr → PyStr
  | [] => []
  | c :: s =>
    (if c.ord < 128 then [lowerAscii c] else u.lowerOther before c s) ++
      lowerFrom u (before ++ [c]) s

/-- `s.lower()` -/
def lower (u : UnicodeTables) (s : PyStr) : PyStr :=
  lowerFrom u [] s

/-- `s.startswith(start)` -/
def startsWith (s : PyStr) (start : String) : Bool :=
  (lit start).isPrefixOf s

/-! ## Verdicts -/

/-- `Decision` -/
inductive Decision where
  | allow
  | requireApproval
  | deny
  deriving DecidableEq

/-- The reason of a verdict. -/
inductive Reason where
  | notStrings
  | noProgram
  | illegalCharacter
  | emptyCommand
  | shellShape (part : PyStr)
  | dangerous (label : String)
  | findAction
  | gitClean
  | inlineCode
  | recursiveRemoval
  | allowed (head : PyStr)
  | unknown (head : PyStr)
  deriving DecidableEq

/-- `Verdict` -/
structure Verdict where
  decision : Decision
  reason : Reason
  deriving DecidableEq

/-! ## Tables -/

/-- `_SHELL_METACHARS` -/
def shellMetachars : List PyStr :=
  ["&&", "||", "|", ";", ">", "<", "$(", "`", "\n", "&"].map lit

/-- `\s+` -/
def spaces : Regex :=
  several isSpace

/-- `\s*` -/
def blank : Regex :=
  many isSpace

/-- `.*` -/
def anything : Regex :=
  many isAny

/-- `[a-z]*` -/
def letters : Regex :=
  many isLetter

/-- `\b` around a word. -/
def wholeWord (w : String) : Regex :=
  seqs [boundary, word w, boundary]

/-- `\brm\s+-[a-z]*r[a-z]*f|\brm\s+-[a-z]*f[a-z]*r` -/
def removalPattern : Regex :=
  alt (seqs [boundary, word "rm", spaces, word "-", letters, word "r", letters, word "f"])
    (seqs [boundary, word "rm", spaces, word "-", letters, word "f", letters, word "r"])

/-- `\bgit\s+push\b.*--force|\bgit\s+push\b.*-f\b` -/
def pushPattern : Regex :=
  alt (seqs [boundary, word "git", spaces, word "push", boundary, anything, word "--force"])
    (seqs [boundary, word "git", spaces, word "push", boundary, anything, word "-f", boundary])

/-- `\bgit\s+reset\s+--hard\b` -/
def resetPattern : Regex :=
  seqs [boundary, word "git", spaces, word "reset", spaces, word "--hard", boundary]

/-- `\bchmod\s+-R\s+777\b` -/
def chmodPattern : Regex :=
  seqs [boundary, word "chmod", spaces, word "-R", spaces, word "777", boundary]

/-- `\bRemove-Item\b.*-Recurse` -/
def removeItemPattern : Regex :=
  seqs [boundary, word "Remove-Item", boundary, anything, word "-Recurse"]

/-- `\bdel\s+/[sq]\b` -/
def delPattern : Regex :=
  seqs [boundary, word "del", spaces, word "/", alt (word "s") (word "q"), boundary]

/-- `_DANGEROUS_PATTERNS` -/
def dangerousPatterns : List (Regex × String) :=
  [(removalPattern, "递归强制删除"),
    (seqs [boundary, word "rm", spaces, word "-rf", boundary], "递归强制删除"),
    (alt (wholeWord "mkfs") (alt (wholeWord "format") (wholeWord "fdisk")), "磁盘格式化"),
    (seqs [boundary, word "dd", spaces, word "if="], "裸设备写入"),
    (seqs [word ":()", blank, word "\x7b", anything, word "\x7d", blank, word ";"], "fork 炸弹"),
    (alt (wholeWord "shutdown") (alt (wholeWord "reboot") (wholeWord "halt")), "电源操作"),
    (pushPattern, "强制推送"),
    (resetPattern, "丢弃本地改动"),
    (chmodPattern, "危险权限变更"),
    (seqs [boundary, alt (word "curl") (word "wget"), boundary, many (· != '|'), word "|", blank,
      alt (word "sh") (alt (word "bash") (word "zsh")), boundary], "管道执行远端脚本"),
    (alt (seqs [boundary, word "reg", spaces, word "delete", boundary]) (wholeWord "regedit"),
      "注册表删除"),
    (removeItemPattern, "递归删除"),
    (delPattern, "递归删除")]

/-- `_DESTRUCTIVE_FIND_ARGUMENTS` -/
def destructiveFindArguments : List PyStr :=
  ["-delete", "-exec", "-execdir", "-ok", "-okdir"].map lit

/-- `_DEFAULT_COMMAND_ALLOWLIST` -/
def defaultCommandAllowlist : List PyStr :=
  ["python", "python3", "py", "git", "ls", "dir", "cat", "type", "echo", "pwd", "cd", "grep", "rg",
    "find", "which", "where", "make", "gcc", "cc", "clang", "diff", "head", "tail", "wc", "sort",
    "uniq"].map lit

/-- The programs whose option `-c` is code. -/
def interpreters : List PyStr :=
  ["python", "python3", "py"].map lit

/-! ## The guard -/

section Guard

variable (u : UnicodeTables)

/-- `git clean` is told to remove, with the lowered arguments behind `clean`. -/
def cleanForced (arguments : List PyStr) : Bool :=
  let flags := arguments.filter (startsWith · "-")
  flags.any fun token => token == lit "--force" || token == lit "-f" ||
    (!startsWith token "--" && (token.drop 1).contains 'f')

/-- A lowered cluster of letters in which `letter` is found: `-[a-z]*r[a-z]*`. -/
def shortFlag (letter : String) (token : PyStr) : Bool :=
  (seqs [word "-", many isLower, word letter, many isLower]).fullmatch u.wordOther token

/-- `_argument_verdict` -/
def argumentVerdict (head : PyStr) (parts : List PyStr) : Option Verdict :=
  let lowered := parts.map (lower u)
  if head = lit "find" then
    if (lowered.drop 1).any destructiveFindArguments.contains then some ⟨.deny, .findAction⟩
    else none
  else if head = lit "git" then
    match lowered with
    | _ :: command :: arguments =>
      if command = lit "clean" ∧ cleanForced arguments = true then
        some ⟨.requireApproval, .gitClean⟩
      else none
    | _ => none
  else if interpreters.contains head then
    if (lowered.drop 1).any fun token =>
        token == lit "-c" || (!startsWith token "--" && startsWith token "-c") then
      some ⟨.requireApproval, .inlineCode⟩
    else none
  else if head = lit "rm" then
    let arguments := lowered.drop 1
    let short := arguments.filter fun token => startsWith token "-" && !startsWith token "--"
    if (arguments.contains (lit "--recursive") || short.any (shortFlag u "r")) &&
        (arguments.contains (lit "--force") || short.any (shortFlag u "f")) then
      some ⟨.deny, .recursiveRemoval⟩
    else none
  else none

/-- What is given as a command. -/
inductive CommandArgument where
  | text (argv : PyStr)
  | parts (argv : List PyStr)
  /-- It is no text, and no list of texts. -/
  | other

/-- `" ".join(argv)` of a list. -/
def CommandArgument.joined : CommandArgument → PyStr
  | .text argv => argv
  | .parts argv => joinWith ' ' argv
  | .other => []

/-- The texts of a command: the text itself, or the arguments. -/
def CommandArgument.pieces : CommandArgument → List PyStr
  | .text argv => [argv]
  | .parts argv => argv
  | .other => []

/-- The name of the program, without its directory and `.exe`. -/
def programName (f : Flavour) (program : PyStr) : PyStr :=
  let head := (PurePath.parse f (strip program)).name
  if (lit ".exe").isSuffixOf (lower u head) then head.take (head.length - 4) else head

/-- The first of the pieces that is written for a shell. -/
def shellShapeProblem (pieces : List PyStr) : Option PyStr :=
  pieces.find? fun piece => shellMetachars.any (contains piece)

/-- `Guard.check_command` -/
def checkCommand (f : Flavour) (allowlist : List PyStr) (argv : CommandArgument) : Verdict :=
  let malformed := match argv with
    | .text _ => false
    | .parts argv => argv.isEmpty
    | .other => true
  let noProgram := match argv with
    | .parts (program :: _) => (strip program).isEmpty
    | _ => false
  let stripped := strip argv.joined
  if malformed then ⟨.deny, .notStrings⟩
  else if noProgram then ⟨.deny, .noProgram⟩
  else if argv.pieces.any (·.contains (Char.ofNat 0)) then ⟨.deny, .illegalCharacter⟩
  else if stripped.isEmpty then ⟨.deny, .emptyCommand⟩
  else
    match shellShapeProblem argv.pieces with
    | some piece => ⟨.deny, .shellShape piece⟩
    | none =>
      match dangerousPatterns.find? fun entry => entry.1.search u.wordOther stripped with
      | some (_, label) => ⟨.deny, .dangerous label⟩
      | none =>
        let parts := match argv with
          | .text _ => Compaction.splitSpace stripped
          | .parts argv => argv
          | .other => []
        let head := programName u f (parts.headD [])
        match argumentVerdict u head parts with
        | some verdict => verdict
        | none =>
          if allowlist.contains head then ⟨.allow, .allowed head⟩
          else ⟨.requireApproval, .unknown head⟩

end Guard

end GuardCommand

end Icode
