import Icode.GuardCommand

/-!
# What a command does

How the programs that the guard knows read their arguments: an interpreter of Python takes code
behind the letter `c` of a cluster, `git` takes options before its subcommand, and a subcommand
takes its letters in clusters and its options in any order.

`Harmless` : no interpreter is given code, and there is no destructive form. `SpelledPlainly` : what
is dangerous is written the way that the tables of the guard have it.
-/

namespace Icode

open Py Regex

namespace GuardCommand

/-! ## Clusters of letters -/

/-- The letters of a program. -/
structure ShortOptions where
  flags : PyStr
  valued : PyStr

/-- What a program reads in a cluster. -/
inductive ClusterReading where
  | flags
  /-- A letter with a value, and what of the cluster is behind it. -/
  | value (letter : CodePoint) (behind : PyStr)
  | unknown

def readCluster (o : ShortOptions) : PyStr → ClusterReading
  | [] => .flags
  | c :: cs =>
    if o.valued.contains c then .value c cs
    else if o.flags.contains c then readCluster o cs
    else .unknown

/-- One of the letters before the first with a value. -/
def clusterHas (o : ShortOptions) (letter : CodePoint → Bool) : PyStr → Bool
  | [] => false
  | c :: cs =>
    if o.valued.contains c then false
    else if o.flags.contains c then letter c || clusterHas o letter cs
    else false

/-! ## Interpreters -/

/-- The letters of `python`. -/
def pythonOptions : ShortOptions :=
  ⟨"bBdEhiIOPqRsStuvVx?", "cmWX"⟩

/-- The options of `python` that are words. -/
def pythonWords : List PyStr :=
  ["help", "help-all", "help-env", "help-xoptions", "version"].map lit

/-- The argument in which `python` is given code. Its options end with the code, a module, a script,
`-` or `--`. The first argument may be the value of the option before it. -/
def codeArgument : Bool → List PyStr → Option PyStr
  | _, [] => none
  | true, _ :: rest => codeArgument false rest
  | false, token :: rest =>
    match token with
    | .scalar '-' :: .scalar '-' :: word =>
      if word = lit "check-hash-based-pycs" then codeArgument true rest
      else if pythonWords.contains word then codeArgument false rest
      else none
    | .scalar '-' :: c :: cs =>
      match readCluster pythonOptions (c :: cs) with
      | .flags => codeArgument false rest
      | .unknown => none
      | .value letter behind =>
        if letter = 'c' then if behind.isEmpty && rest.isEmpty then none else some token
        else if letter = 'm' then none
        else codeArgument behind.isEmpty rest
    | _ => none

/-- An argument by which the launcher `py` chooses the interpreter. -/
def isLauncherArgument : PyStr → Bool
  | .scalar '-' :: .scalar 'V' :: .scalar ':' :: _ => true
  | .scalar '-' :: c :: _ => 48 ≤ c.ord && c.ord ≤ 57
  | _ => false

/-- The argument in which an interpreter is given code. -/
def inlineCode (head : PyStr) (arguments : List PyStr) : Option PyStr :=
  if head = lit "py" then codeArgument false (arguments.dropWhile isLauncherArgument)
  else if interpreters.contains head then codeArgument false arguments
  else none

/-! ## Options of commands -/

/-- The options of a command. -/
structure CommandOptions extends ShortOptions where
  /-- The options whose value is the next argument. -/
  valuedWords : List PyStr

/-- A command is given an option, as one of some letters or as a word. -/
def hasOption (o : CommandOptions) (letter : CodePoint → Bool) (word : PyStr) :
    Bool → List PyStr → Bool
  | _, [] => false
  | true, _ :: rest => hasOption o letter word false rest
  | false, token :: rest =>
    if token = lit "--" then false
    else if token = word then true
    else if o.valuedWords.contains token then hasOption o letter word true rest
    else
      match token with
      | .scalar '-' :: .scalar '-' :: _ => hasOption o letter word false rest
      | .scalar '-' :: c :: cs =>
        match readCluster o.toShortOptions (c :: cs) with
        | .flags =>
          clusterHas o.toShortOptions letter (c :: cs) || hasOption o letter word false rest
        | .value _ behind =>
          clusterHas o.toShortOptions letter (c :: cs) ||
            hasOption o letter word behind.isEmpty rest
        | .unknown => false
      | _ => hasOption o letter word false rest

/-! ## Git -/

/-- The global options of `git` without a value. -/
def gitFlags : List PyStr :=
  ["-p", "--paginate", "-P", "--no-pager", "--bare", "--no-replace-objects", "--no-lazy-fetch",
    "--no-optional-locks", "--no-advice", "--literal-pathspecs", "--no-literal-pathspecs",
    "--glob-pathspecs", "--noglob-pathspecs", "--icase-pathspecs"].map lit

/-- The global options of `git` whose value is the next argument. -/
def gitValued : List PyStr :=
  ["-C", "-c", "--git-dir", "--work-tree", "--namespace", "--config-env", "--attr-source"].map lit

/-- The global options of `git` with the value in them. -/
def gitInline : List String :=
  ["--git-dir=", "--work-tree=", "--namespace=", "--config-env=", "--attr-source=", "--exec-path="]

/-- The subcommand with its arguments, behind the global options. -/
def gitCommand : Bool → List PyStr → List PyStr
  | _, [] => []
  | true, _ :: rest => gitCommand false rest
  | false, token :: rest =>
    if gitValued.contains token then gitCommand true rest
    else if gitFlags.contains token || gitInline.any (startsWith token) then gitCommand false rest
    else token :: rest

def cleanOptions : CommandOptions :=
  ⟨⟨"dfinqxX", "e"⟩, [lit "--exclude"]⟩

def pushOptions : CommandOptions :=
  ⟨⟨"vqnduf46", "o"⟩, ["--repo", "--receive-pack", "--exec", "--push-option"].map lit⟩

def resetOptions : CommandOptions :=
  ⟨⟨"qpN", []⟩, [lit "--pathspec-from-file"]⟩

/-- `git clean` removes files. -/
def cleans (arguments : List PyStr) : Bool :=
  hasOption cleanOptions (· == 'f') "--force" false arguments

/-- `git push` is forced, with or without a lease. -/
def pushes (arguments : List PyStr) : Bool :=
  arguments.any (startsWith · "--force") ||
    hasOption pushOptions (· == 'f') "--force" false arguments

/-- `git reset` discards changes. -/
def resets (arguments : List PyStr) : Bool :=
  hasOption resetOptions (fun _ => false) "--hard" false arguments

/-! ## Files -/

def rmOptions : CommandOptions :=
  ⟨⟨"dfiIrRv", []⟩, []⟩

/-- `rm` removes directories without a question. -/
def removes (arguments : List PyStr) : Bool :=
  hasOption rmOptions (fun c => c == 'r' || c == 'R') "--recursive" false arguments &&
    hasOption rmOptions (· == 'f') "--force" false arguments

/-- `chmod -R 777` -/
def opensAll (arguments : List PyStr) : Bool :=
  arguments.take 2 == [lit "-R", lit "777"]

/-- `del /s` and `del /q` -/
def deletesAll (arguments : List PyStr) : Bool :=
  arguments.head? == some (lit "/s") || arguments.head? == some (lit "/q")

/-- `Remove-Item -Recurse` -/
def removesItems (arguments : List PyStr) : Bool :=
  arguments.contains (lit "-Recurse")

/-! ## Commands -/

section Commands

variable (u : UnicodeTables) (f : Flavour)

/-- No interpreter is given code, and no version control or file command is destructive. -/
structure Harmless (program : PyStr) (arguments : List PyStr) : Prop where
  code : inlineCode (programName u f program) arguments = none
  clean : programName u f program = lit "git" → ∀ rest,
    gitCommand false arguments = lit "clean" :: rest → cleans rest = false
  push : programName u f program = lit "git" → ∀ rest,
    gitCommand false arguments = lit "push" :: rest → pushes rest = false
  reset : programName u f program = lit "git" → ∀ rest,
    gitCommand false arguments = lit "reset" :: rest → resets rest = false
  find : programName u f program = lit "find" →
    arguments.any destructiveFindArguments.contains = false
  rm : programName u f program = lit "rm" → removes arguments = false
  chmod : programName u f program = lit "chmod" → opensAll arguments = false
  del : programName u f program = lit "del" → deletesAll arguments = false
  removeItem : programName u f program = lit "Remove-Item" → removesItems arguments = false

/-- The text of the program ends in the word that is looked for: not in `.exe`, and not in a
separator. -/
def EndsInWord (word : String) (program : PyStr) : Prop :=
  ∃ before, strip program = before ++ lit word ∧
    before.getLast?.any (isWordCharacter u.wordOther) = false

/-- What is dangerous in a command is spelled the way that the tables have it: `c` leads its
cluster, the subcommand stands directly behind `git`, and what a pattern has is written out. -/
structure SpelledPlainly (program : PyStr) (arguments : List PyStr) : Prop where
  code : ∀ token, inlineCode (programName u f program) arguments = some token →
    startsWith token "-c" = true
  clean : programName u f program = lit "git" → ∀ rest,
    gitCommand false arguments = lit "clean" :: rest → cleans rest = true →
      gitCommand false arguments = arguments
  push : programName u f program = lit "git" → ∀ rest,
    gitCommand false arguments = lit "push" :: rest → pushes rest = true →
      EndsInWord u "git" program ∧ gitCommand false arguments = arguments ∧
        ∃ token ∈ rest, startsWith token "--force" = true ∨ token = lit "-f"
  reset : programName u f program = lit "git" → ∀ rest,
    gitCommand false arguments = lit "reset" :: rest → resets rest = true →
      EndsInWord u "git" program ∧ gitCommand false arguments = arguments ∧
        rest.head? = some (lit "--hard")
  chmod : programName u f program = lit "chmod" → opensAll arguments = true →
    EndsInWord u "chmod" program
  del : programName u f program = lit "del" → deletesAll arguments = true →
    EndsInWord u "del" program
  removeItem : programName u f program = lit "Remove-Item" → removesItems arguments = true →
    EndsInWord u "Remove-Item" program

end Commands

/-! ## Lower case -/

section Lower

variable {u : UnicodeTables} {c : CodePoint} {s : PyStr}

/-- ASCII at the front of a text is lowered character by character. -/
theorem lowerFrom_append {before t : PyStr} (h : ∀ c ∈ s, c.ord < 128) :
    lowerFrom u before (s ++ t) = s.map lowerAscii ++ lowerFrom u (before ++ s) t := by
  induction s generalizing before with
  | nil => rw [List.nil_append, List.map_nil, List.nil_append, List.append_nil]
  | cons c s ih =>
    rw [List.forall_mem_cons] at h
    rw [List.cons_append, lowerFrom, if_pos h.1, ih h.2, List.append_assoc before, List.map_cons]
    rfl

theorem lower_of_ascii (h : ∀ c ∈ s, c.ord < 128) : lower u s = s.map lowerAscii := by
  have happend : lowerFrom u [] (s ++ []) = s.map lowerAscii ++ lowerFrom u ([] ++ s) [] :=
    lowerFrom_append h
  rwa [List.append_nil, lowerFrom, List.append_nil] at happend

theorem mem_lowerFrom {before : PyStr} (hmem : c ∈ s) (h : c.ord < 128) :
    lowerAscii c ∈ lowerFrom u before s := by
  induction s generalizing before with
  | nil => cases hmem
  | cons d s ih =>
    rw [lowerFrom]
    rcases List.mem_cons.mp hmem with rfl | hmem
    · rw [if_pos h]
      exact List.mem_cons_self
    · exact List.mem_append_right _ (ih hmem)

end Lower

/-! ## What is read -/

theorem mem_of_codeArgument {token : PyStr} : ∀ {skip : Bool} {arguments : List PyStr},
    codeArgument skip arguments = some token → token ∈ arguments
  | _, [], h => by cases h
  | true, _ :: rest, h => by
    have hrest : codeArgument false rest = some token := h
    exact List.mem_cons_of_mem _ (mem_of_codeArgument hrest)
  | false, first :: rest, h => by
    rw [codeArgument.eq_def] at h
    dsimp only at h
    split at h
    · split_ifs at h
      · exact List.mem_cons_of_mem _ (mem_of_codeArgument h)
      · exact List.mem_cons_of_mem _ (mem_of_codeArgument h)
    · split at h
      · exact List.mem_cons_of_mem _ (mem_of_codeArgument h)
      · cases h
      · split_ifs at h
        · obtain rfl := Option.some.inj h
          exact List.mem_cons_self
        · exact List.mem_cons_of_mem _ (mem_of_codeArgument h)
    · cases h

/-- Code is given to an interpreter only, and in one of its arguments. -/
theorem inlineCode_eq_some {head token : PyStr} {arguments : List PyStr}
    (h : inlineCode head arguments = some token) :
    interpreters.contains head = true ∧ token ∈ arguments := by
  unfold inlineCode at h
  split_ifs at h with hpy hhead
  · rw [hpy]
    exact ⟨by decide, (List.dropWhile_sublist _).subset (mem_of_codeArgument h)⟩
  · exact ⟨hhead, mem_of_codeArgument h⟩

theorem exists_mem_of_clusterHas {o : ShortOptions} {letter : CodePoint → Bool} {cluster : PyStr}
    (h : clusterHas o letter cluster = true) : ∃ c ∈ cluster, letter c = true := by
  induction cluster with
  | nil => cases h
  | cons c cs ih =>
    rw [clusterHas] at h
    split_ifs at h
    rcases Bool.or_eq_true _ _ ▸ h with hc | hcs
    · exact ⟨c, List.mem_cons_self, hc⟩
    · obtain ⟨d, hd, hletter⟩ := ih hcs
      exact ⟨d, List.mem_cons_of_mem _ hd, hletter⟩

/-- The argument is the word, or one of the letters is in its cluster, which is understood. -/
def Gives (o : CommandOptions) (letter : CodePoint → Bool) (word token : PyStr) : Prop :=
  token = word ∨ ∃ cluster, token = .scalar '-' :: cluster ∧
    cluster.head? ≠ some (.scalar '-') ∧ clusterHas o.toShortOptions letter cluster = true ∧
    readCluster o.toShortOptions cluster ≠ .unknown

/-- An option that is read stands in one of the arguments. -/
theorem exists_of_hasOption {o : CommandOptions} {letter : CodePoint → Bool} {word : PyStr} :
    ∀ {skip : Bool} {arguments : List PyStr}, hasOption o letter word skip arguments = true →
      ∃ token ∈ arguments, Gives o letter word token
  | _, [], h => by cases h
  | true, _ :: rest, h => by
    have hrest : hasOption o letter word false rest = true := h
    obtain ⟨token, hmem, htoken⟩ := exists_of_hasOption hrest
    exact ⟨token, List.mem_cons_of_mem _ hmem, htoken⟩
  | false, first :: rest, h => by
    have hlater : ∀ {skip}, hasOption o letter word skip rest = true →
        ∃ token ∈ first :: rest, Gives o letter word token := by
      intro skip hrest
      obtain ⟨token, hmem, htoken⟩ := exists_of_hasOption hrest
      exact ⟨token, List.mem_cons_of_mem _ hmem, htoken⟩
    rw [hasOption.eq_def] at h
    dsimp only at h
    split_ifs at h with hend hword hvalued
    · exact ⟨first, List.mem_cons_self, .inl hword⟩
    · exact hlater h
    · split at h
      · exact hlater h
      · rename_i c cs hdash
        have hhead : (c :: cs).head? ≠ some (CodePoint.scalar '-') := by
          rintro heq
          obtain rfl := Option.some.inj heq
          exact hdash rfl
        split at h
        · rename_i hread
          rcases Bool.or_eq_true _ _ ▸ h with hcluster | hrest
          · exact ⟨_, List.mem_cons_self, .inr ⟨c :: cs, rfl, hhead, hcluster, by simp [hread]⟩⟩
          · exact hlater hrest
        · rename_i hread
          rcases Bool.or_eq_true _ _ ▸ h with hcluster | hrest
          · exact ⟨_, List.mem_cons_self, .inr ⟨c :: cs, rfl, hhead, hcluster, by simp [hread]⟩⟩
          · exact hlater hrest
        · cases h
      · exact hlater h

end GuardCommand

end Icode
