import Icode.JsonDumps

/-!
# Reading JSON

`loads` is `json.loads(text, object_pairs_hook=…, parse_constant=…)` with the two
hooks of the package verifier, which refuse a member name that occurs twice and
the constants `NaN` and `Infinity`. It is a lexer (`lexStep`, one character at a
time) under a stack machine (`parseStep`, one token at a time). The lexer leaves a
failure as the token `bad`, so the first failure in the text is the one raised.

`loadsJsonValue` adds the two scans around it: the number of structural
characters (`checkStructuralTokenBudget`), and `interopError`, which refuses
lone surrogates, numbers outside binary64 and containers nested deeper than 128.
What it returns has distinct keys (`loadsJsonValue_wf`), and its texts can be
encoded as UTF-8 (`encode_dumps`).
-/

namespace Py

/-- Why a text is no JSON value. -/
inductive JsonError where
  /-- `JSONDecodeError`. -/
  | decode
  /-- JSON 对象包含重复 JSON 成员名 -/
  | duplicateKey
  /-- JSON 含有非标准 JSON 数值常量 -/
  | constant
  /-- Exceeds the limit (4300 digits) for integer string conversion. -/
  | intDigits
  /-- JSON结构标点超过安全上限 -/
  | structuralTokens
  /-- JSON 容器嵌套深度超过安全上限 -/
  | depth
  /-- JSON 字符串包含孤立 UTF-16 代理项 -/
  | surrogate
  /-- JSON 数值转换为非有限 binary64 -/
  | nonFinite
  deriving DecidableEq, Repr

/-! ## Tokens -/

inductive Token where
  | lbrace
  | rbrace
  | lbrack
  | rbrack
  | comma
  | colon
  | str (s : PyStr)
  | null
  | bool (b : Bool)
  | int (n : ℤ)
  | float (x : PyFloat)
  | bad (e : JsonError)

/-- The JSON white space. -/
def isJsonSpace (c : CodePoint) : Bool :=
  c == .scalar ' ' || c == .scalar '\t' || c == .scalar '\n' || c == .scalar '\r'

/-- The structural characters. -/
def punctToken (c : CodePoint) : Option Token :=
  if c = '{' then some .lbrace
  else if c = '}' then some .rbrace
  else if c = '[' then some .lbrack
  else if c = ']' then some .rbrack
  else if c = ',' then some .comma
  else if c = ':' then some .colon
  else none

/-- The longest run of digits, and the rest. -/
def digitRun (s : List Char) : List Char × List Char :=
  (s.takeWhile Char.isDigit, s.dropWhile Char.isDigit)

/-- `(\.\d+)?` -/
def matchFraction (s : List Char) : List Char × List Char :=
  match s with
  | '.' :: t =>
    let (ds, rest) := digitRun t
    if ds.isEmpty then ([], s) else ('.' :: ds, rest)
  | _ => ([], s)

/-- `([eE][-+]?\d+)?` -/
def matchExponent (s : List Char) : List Char × List Char :=
  match s with
  | c :: t =>
    if c = 'e' ∨ c = 'E' then
      let (sign, u) :=
        match t with
        | '+' :: u => (['+'], u)
        | '-' :: u => (['-'], u)
        | u => ([], u)
      let (ds, rest) := digitRun u
      if ds.isEmpty then ([], s) else (c :: (sign ++ ds), rest)
    else ([], s)
  | [] => ([], s)

/-- `-?(0|[1-9]\d*)` -/
def matchInteger (s : List Char) : Option (List Char × List Char) :=
  let (sign, t) :=
    match s with
    | '-' :: t => (['-'], t)
    | t => ([], t)
  match t with
  | '0' :: rest => some (sign ++ ['0'], rest)
  | c :: rest =>
    if c.isDigit then
      let (ds, rest) := digitRun rest
      some (sign ++ c :: ds, rest)
    else none
  | [] => none

/-- `sys.get_int_max_str_digits()`. -/
def intMaxStrDigits : ℕ :=
  4300

/-- A number at the start of a word. -/
def numberToken (w : List Char) : Token × List Char :=
  match matchInteger w with
  | none => (.bad .decode, w)
  | some (n, rest) =>
    let (frac, rest) := matchFraction rest
    let (ex, rest) := matchExponent rest
    if frac.isEmpty && ex.isEmpty then
      let digits := n.filter Char.isDigit
      if intMaxStrDigits < digits.length then (.bad .intDigits, rest)
      else (.int (PyFloat.signedValue n), rest)
    else (.float (PyFloat.ofToken (n ++ frac ++ ex)), rest)

/-- A run of characters without quotes, white space and structural characters. -/
def wordTokens (w : List Char) : List Token :=
  if w = ['n', 'u', 'l', 'l'] then [.null]
  else if w = ['t', 'r', 'u', 'e'] then [.bool true]
  else if w = ['f', 'a', 'l', 's', 'e'] then [.bool false]
  else if ['N', 'a', 'N'].isPrefixOf w || ['I', 'n', 'f', 'i', 'n', 'i', 't', 'y'].isPrefixOf w ||
      ['-', 'I', 'n', 'f', 'i', 'n', 'i', 't', 'y'].isPrefixOf w then [.bad .constant]
  else
    match numberToken w with
    | (t, []) => [t]
    | (t, _ :: _) => [t, .bad .decode]

/-- A character of a string literal, and whether it was written `\uXXXX`. -/
structure StrUnit where
  char : CodePoint
  fromHex : Bool

/-- The code point `n < 0x10000`. -/
def ofUnit (n : ℕ) : CodePoint :=
  if h : 0xD800 ≤ n ∧ n < 0xE000 then .surrogate ⟨n - 0xD800, by omega⟩ else .scalar (Char.ofNat n)

/-- A high surrogate escape takes the low surrogate escape behind it; `pending` is the
high surrogate read last. -/
def joinUnits (pending : Option (Fin 2048)) : List StrUnit → PyStr
  | [] => (pending.map CodePoint.surrogate).toList
  | u :: us =>
    match pending, u with
    | some hi, ⟨.surrogate lo, true⟩ =>
      if 0x400 ≤ lo.val then
        .scalar (Char.ofNat (0x10000 + hi.val * 0x400 + (lo.val - 0x400))) :: joinUnits none us
      else .surrogate hi :: joinUnits (some lo) us
    | none, ⟨.surrogate n, true⟩ =>
      if n.val < 0x400 then joinUnits (some n) us else .surrogate n :: joinUnits none us
    | p, u => (p.map CodePoint.surrogate).toList ++ u.char :: joinUnits none us

/-- `"`, `\`, `/` and the control characters behind a backslash. -/
def simpleEscape (c : CodePoint) : Option Char :=
  if c = '"' then some '"'
  else if c = '\\' then some '\\'
  else if c = '/' then some '/'
  else if c = 'b' then some (Char.ofNat 8)
  else if c = 'f' then some (Char.ofNat 12)
  else if c = 'n' then some '\n'
  else if c = 'r' then some '\r'
  else if c = 't' then some '\t'
  else none

def hexValue (c : CodePoint) : Option ℕ :=
  let n := c.ord
  if 48 ≤ n ∧ n ≤ 57 then some (n - 48)
  else if 97 ≤ n ∧ n ≤ 102 then some (n - 87)
  else if 65 ≤ n ∧ n ≤ 70 then some (n - 55)
  else none

/-- A character as a letter of a word; no word with a surrogate is a value. -/
def CodePoint.toChar : CodePoint → Char
  | .scalar c => c
  | .surrogate _ => Char.ofNat 0xFFFD

/-- Where the lexer stands. -/
inductive LexState where
  | idle
  | word (w : List Char)
  | inString (us : List StrUnit)
  | escape (us : List StrUnit)
  | hex (us : List StrUnit) (count value : ℕ)

/-- One character outside strings and words. -/
def lexIdle (c : CodePoint) : List Token × LexState :=
  if isJsonSpace c then ([], .idle)
  else if c = '"' then ([], .inString [])
  else
    match punctToken c with
    | some t => ([t], .idle)
    | none => ([], .word [c.toChar])

/-- One character: the tokens that end before it or with it. -/
def lexStep : LexState → CodePoint → List Token × LexState
  | .idle, c => lexIdle c
  | .word w, c =>
    if isJsonSpace c || c == .scalar '"' || (punctToken c).isSome then
      (wordTokens w ++ (lexIdle c).1, (lexIdle c).2)
    else ([], .word (w ++ [c.toChar]))
  | .inString us, c =>
    if c = '"' then ([.str (joinUnits none us)], .idle)
    else if c = '\\' then ([], .escape us)
    else if c.ord < 0x20 then ([.bad .decode], .idle)
    else ([], .inString (us ++ [⟨c, false⟩]))
  | .escape us, c =>
    if c = 'u' then ([], .hex us 0 0)
    else
      match simpleEscape c with
      | some d => ([], .inString (us ++ [⟨.scalar d, false⟩]))
      | none => ([.bad .decode], .idle)
  | .hex us count value, c =>
    match hexValue c with
    | none => ([.bad .decode], .idle)
    | some d =>
      if count = 3 then ([], .inString (us ++ [⟨ofUnit (value * 16 + d), true⟩]))
      else ([], .hex us (count + 1) (value * 16 + d))

/-- The tokens of a text. -/
def lex : LexState → PyStr → List Token
  | .idle, [] => []
  | .word w, [] => wordTokens w
  | _, [] => [.bad .decode]
  | st, c :: cs => (lexStep st c).1 ++ lex (lexStep st c).2 cs

/-! ## Values -/

/-- An open container; `key` is the member name read last. -/
inductive Frame where
  | arr (xs : List Json)
  | obj (ms : Members) (key : PyStr)

/-- What may come next. -/
inductive Expect where
  | value
  | firstItem
  | firstKey
  | key
  | colon
  | next
  | done (v : Json)

structure ParseState where
  stack : List Frame
  expect : Expect

/-- A value is complete. -/
def valueDone (v : Json) : List Frame → ParseState
  | [] => ⟨[], .done v⟩
  | .arr xs :: st => ⟨.arr (xs ++ [v]) :: st, .next⟩
  | .obj ms k :: st => ⟨.obj (ms ++ [(k, v)]) k :: st, .next⟩

/-- `_json_object_without_duplicates`. -/
def objectWithoutDuplicates (pairs : Members) : Except JsonError Json :=
  if (Dict.keys pairs).Nodup then .ok (.obj pairs) else .error .duplicateKey

/-- A closing bracket. -/
def closeFrame : List Frame → Token → Except JsonError ParseState
  | .arr xs :: st, .rbrack => .ok (valueDone (.arr xs) st)
  | .obj ms _ :: st, .rbrace => do
    let v ← objectWithoutDuplicates ms
    pure (valueDone v st)
  | _, _ => .error .decode

/-- A token where a value may begin. -/
def parseValue (stack : List Frame) : Token → Except JsonError ParseState
  | .lbrack => .ok ⟨.arr [] :: stack, .firstItem⟩
  | .lbrace => .ok ⟨.obj [] [] :: stack, .firstKey⟩
  | .str s => .ok (valueDone (.str s) stack)
  | .null => .ok (valueDone .null stack)
  | .bool b => .ok (valueDone (.bool b) stack)
  | .int n => .ok (valueDone (.int n) stack)
  | .float x => .ok (valueDone (.float x) stack)
  | _ => .error .decode

/-- A token where a member name must stand. -/
def parseKey : List Frame → Token → Except JsonError ParseState
  | .obj ms _ :: st, .str k => .ok ⟨.obj ms k :: st, .colon⟩
  | _, _ => .error .decode

/-- A token behind a complete value of a container. -/
def parseNext : List Frame → Token → Except JsonError ParseState
  | .arr xs :: st, .comma => .ok ⟨.arr xs :: st, .value⟩
  | .obj ms k :: st, .comma => .ok ⟨.obj ms k :: st, .key⟩
  | stack, t => closeFrame stack t

/-- One token. -/
def parseStep (s : ParseState) (t : Token) : Except JsonError ParseState :=
  match t, s.expect with
  | .bad e, _ => .error e
  | t, .value => parseValue s.stack t
  | .rbrack, .firstItem => closeFrame s.stack .rbrack
  | t, .firstItem => parseValue s.stack t
  | .rbrace, .firstKey => closeFrame s.stack .rbrace
  | t, .firstKey => parseKey s.stack t
  | t, .key => parseKey s.stack t
  | .colon, .colon => .ok ⟨s.stack, .value⟩
  | t, .next => parseNext s.stack t
  | _, _ => .error .decode

def parseTokens (s : ParseState) : List Token → Except JsonError ParseState
  | [] => .ok s
  | t :: ts => do
    let s ← parseStep s t
    parseTokens s ts

/-- `json.loads` with the hooks of the package verifier. -/
def loads (text : PyStr) : Except JsonError Json := do
  let s ← parseTokens ⟨[], .value⟩ (lex .idle text)
  match s.expect with
  | .done v => pure v
  | _ => throw .decode

/-! ## The scans -/

/-- `_MAX_JSON_STRUCTURAL_TOKENS` -/
def maxJsonStructuralTokens : ℕ :=
  500000

/-- `_MAX_JSON_CONTAINER_DEPTH` -/
def maxJsonContainerDepth : ℕ :=
  128

/-- The locals of `_check_json_structural_token_budget`. -/
structure ScanState where
  inString : Bool
  escaped : Bool
  tokenCount : ℕ
  containerStack : List CodePoint

/-- The bookkeeping of one structural character when a depth limit is given. -/
def scanDepth (maxDepth : Option ℕ) (stack : List CodePoint) (c : CodePoint) :
    Except JsonError (List CodePoint) :=
  match maxDepth with
  | none => .ok stack
  | some limit =>
    if c = '{' ∨ c = '[' then
      if limit < stack.length + 1 then .error .depth else .ok (c :: stack)
    else if c = '}' ∨ c = ']' then
      let expectedOpen : CodePoint := if c = '}' then '{' else '['
      if stack.head? = some expectedOpen then .ok stack.tail else .ok stack
    else .ok stack

def scanStep (maxDepth : Option ℕ) (s : ScanState) (c : CodePoint) :
    Except JsonError ScanState :=
  if s.inString then
    if s.escaped then .ok { s with escaped := false }
    else if c = '\\' then .ok { s with escaped := true }
    else if c = '"' then .ok { s with inString := false }
    else .ok s
  else if c = '"' then .ok { s with inString := true }
  else if (punctToken c).isSome then
    if maxJsonStructuralTokens < s.tokenCount + 1 then .error .structuralTokens
    else do
      let stack ← scanDepth maxDepth s.containerStack c
      pure { s with tokenCount := s.tokenCount + 1, containerStack := stack }
  else .ok s

def scan (maxDepth : Option ℕ) (s : ScanState) : PyStr → Except JsonError ScanState
  | [] => .ok s
  | c :: cs => do
    let s ← scanStep maxDepth s c
    scan maxDepth s cs

/-- `_check_json_structural_token_budget`. -/
def checkStructuralTokenBudget (text : PyStr) (maxDepth : Option ℕ) : Except JsonError Unit := do
  let _ ← scan maxDepth ⟨false, false, 0, []⟩ text
  pure ()

/-- The first member name, from the last, with a lone surrogate. -/
def keysError (ms : Members) : Option JsonError :=
  if ms.any fun m => !m.1.all isScalar then some .surrogate else none

mutual

/-- `_reject_non_interoperable_values`; `pending` is a stack, so the last value of a
container is looked at first and its member names last. -/
def interopError (depth : ℕ) : Json → Option JsonError
  | .str s => if s.all isScalar then none else some .surrogate
  | .float x => if x.isFinite then none else some .nonFinite
  | .arr xs => if maxJsonContainerDepth < depth + 1 then some .depth else interopList (depth + 1) xs
  | .obj ms =>
    if maxJsonContainerDepth < depth + 1 then some .depth
    else interopMembers (depth + 1) ms <|> keysError ms
  | _ => none

def interopList (depth : ℕ) : List Json → Option JsonError
  | [] => none
  | x :: xs => interopList depth xs <|> interopError depth x

def interopMembers (depth : ℕ) : Members → Option JsonError
  | [] => none
  | (_, x) :: ms => interopMembers depth ms <|> interopError depth x

end

/-- `loads_json_value`. -/
def loadsJsonValue (text : PyStr) : Except JsonError Json := do
  checkStructuralTokenBudget text none
  let value ← loads text
  match interopError 0 value with
  | some e => throw e
  | none => pure value

/-! ## What is returned -/

/-- The values of an open container. -/
def Frame.WF : Frame → Prop
  | .arr xs => ∀ x ∈ xs, Json.WF x
  | .obj ms _ => ∀ m ∈ ms, Json.WF m.2

/-- Every value read so far has distinct keys. -/
structure ParseState.WF (s : ParseState) : Prop where
  stack : ∀ f ∈ s.stack, f.WF
  done : ∀ v, s.expect = .done v → v.WF

theorem wf_valueDone {v : Json} {stack : List Frame} (hv : v.WF) (hs : ∀ f ∈ stack, f.WF) :
    (valueDone v stack).WF := by
  rcases stack with _ | ⟨_ | _, st⟩
  · exact ⟨by simp [valueDone], by simp [valueDone, hv]⟩
  · refine ⟨?_, by simp [valueDone]⟩
    simp only [valueDone, List.forall_mem_cons, Frame.WF, List.forall_mem_append] at hs ⊢
    exact ⟨⟨hs.1, by simpa using hv⟩, hs.2⟩
  · refine ⟨?_, by simp [valueDone]⟩
    simp only [valueDone, List.forall_mem_cons, Frame.WF, List.forall_mem_append] at hs ⊢
    exact ⟨⟨hs.1, by simpa using hv⟩, hs.2⟩

theorem wf_closeFrame {stack : List Frame} {t : Token} {s : ParseState}
    (hs : ∀ f ∈ stack, f.WF) (h : closeFrame stack t = .ok s) : s.WF := by
  unfold closeFrame at h
  split at h
  · rename_i xs st
    obtain rfl := Except.ok.inj h
    have := List.forall_mem_cons.mp hs
    exact wf_valueDone (by simpa [Frame.WF] using this.1) this.2
  · rename_i ms k st
    have := List.forall_mem_cons.mp hs
    by_cases hnd : (Dict.keys ms).Nodup
    · simp only [objectWithoutDuplicates, hnd, if_true] at h
      obtain rfl := Except.ok.inj h
      exact wf_valueDone (by simpa [hnd, Frame.WF] using this.1) this.2
    · rw [objectWithoutDuplicates, if_neg hnd] at h
      cases h
  · cases h

theorem wf_parseValue {stack : List Frame} {t : Token} {s : ParseState}
    (hs : ∀ f ∈ stack, f.WF) (h : parseValue stack t = .ok s) : s.WF := by
  cases t <;> simp only [parseValue, reduceCtorEq, Except.ok.injEq] at h <;> subst h
  case lbrace => exact ⟨by simpa [Frame.WF] using hs, by simp⟩
  case lbrack => exact ⟨by simpa [Frame.WF] using hs, by simp⟩
  all_goals exact wf_valueDone trivial hs

theorem wf_parseKey {stack : List Frame} {t : Token} {s : ParseState}
    (hs : ∀ f ∈ stack, f.WF) (h : parseKey stack t = .ok s) : s.WF := by
  unfold parseKey at h
  split at h
  · obtain rfl := Except.ok.inj h
    exact ⟨by simpa [Frame.WF] using hs, by simp⟩
  · cases h

theorem wf_parseNext {stack : List Frame} {t : Token} {s : ParseState}
    (hs : ∀ f ∈ stack, f.WF) (h : parseNext stack t = .ok s) : s.WF := by
  unfold parseNext at h
  split at h
  · obtain rfl := Except.ok.inj h
    exact ⟨hs, by simp⟩
  · obtain rfl := Except.ok.inj h
    exact ⟨hs, by simp⟩
  · exact wf_closeFrame hs h

theorem wf_parseStep {s s' : ParseState} {t : Token} (hs : s.WF) (h : parseStep s t = .ok s') :
    s'.WF := by
  unfold parseStep at h
  split at h
  case h_1 => cases h
  case h_2 => exact wf_parseValue hs.stack h
  case h_3 => exact wf_closeFrame hs.stack h
  case h_4 => exact wf_parseValue hs.stack h
  case h_5 => exact wf_closeFrame hs.stack h
  case h_6 => exact wf_parseKey hs.stack h
  case h_7 => exact wf_parseKey hs.stack h
  case h_8 =>
    obtain rfl := Except.ok.inj h
    exact ⟨hs.stack, by simp⟩
  case h_9 => exact wf_parseNext hs.stack h
  case h_10 => cases h

theorem wf_parseTokens : ∀ {ts : List Token} {s s' : ParseState}, s.WF →
    parseTokens s ts = .ok s' → s'.WF
  | [], s, s', hs, h => by
    obtain rfl := Except.ok.inj h
    exact hs
  | t :: ts, s, s', hs, h => by
    cases ht : parseStep s t with
    | error e =>
      simp only [parseTokens, ht] at h
      cases h
    | ok u =>
      simp only [parseTokens, ht] at h
      exact wf_parseTokens (wf_parseStep hs ht) h

/-- Objects that `json.loads` returns have distinct keys. -/
theorem loads_wf {text : PyStr} {v : Json} (h : loads text = .ok v) : v.WF := by
  unfold loads at h
  cases hs : parseTokens ⟨[], .value⟩ (lex .idle text) with
  | error e =>
    rw [hs] at h
    cases h
  | ok s =>
    rw [hs] at h
    have hwf := wf_parseTokens ⟨by simp, by simp⟩ hs
    rcases s with ⟨stack, e⟩
    cases e with
    | done w =>
      obtain rfl := Except.ok.inj h
      exact hwf.done _ rfl
    | _ => cases h

/-- `loads_json_value` returns what `json.loads` returns, and has scanned it. -/
theorem loadsJsonValue_ok {text : PyStr} {v : Json} (h : loadsJsonValue text = .ok v) :
    loads text = .ok v ∧ interopError 0 v = none := by
  unfold loadsJsonValue at h
  cases hb : checkStructuralTokenBudget text none with
  | error e =>
    rw [hb] at h
    cases h
  | ok u =>
    cases hl : loads text with
    | error e =>
      rw [hb, hl] at h
      cases h
    | ok w =>
      rw [hb, hl] at h
      simp only [Bind.bind, Except.bind] at h
      cases hi : interopError 0 w with
      | some e =>
        rw [hi] at h
        cases h
      | none =>
        rw [hi] at h
        obtain rfl := Except.ok.inj h
        exact ⟨rfl, hi⟩

theorem loadsJsonValue_wf {text : PyStr} {v : Json} (h : loadsJsonValue text = .ok v) : v.WF :=
  loads_wf (loadsJsonValue_ok h).1

/-! ## Encoding what was read -/

namespace Json

mutual

/-- No text of the value has a surrogate. -/
def Encodable : Json → Prop
  | .str s => s.all isScalar = true
  | .arr xs => EncodableList xs
  | .obj ms => EncodableMembers ms
  | _ => True

def EncodableList : List Json → Prop
  | [] => True
  | x :: xs => Encodable x ∧ EncodableList xs

def EncodableMembers : Members → Prop
  | [] => True
  | (k, x) :: ms => (k.all isScalar = true ∧ Encodable x) ∧ EncodableMembers ms

end

@[simp] theorem encodable_arr {xs : List Json} : Encodable (.arr xs) ↔ ∀ x ∈ xs, Encodable x := by
  rw [Encodable]
  induction xs with
  | nil => simp [EncodableList]
  | cons x xs ih => simp [EncodableList, ih]

@[simp] theorem encodable_obj {ms : Members} :
    Encodable (.obj ms) ↔ ∀ m ∈ ms, m.1.all isScalar = true ∧ Encodable m.2 := by
  rw [Encodable]
  induction ms with
  | nil => simp [EncodableMembers]
  | cons m ms ih => rw [EncodableMembers, ih, List.forall_mem_cons]

theorem interopList_eq_none {d : ℕ} {xs : List Json} :
    interopList d xs = none ↔ ∀ x ∈ xs, interopError d x = none := by
  induction xs with
  | nil => simp [interopList]
  | cons x xs ih => simp [interopList, ih, and_comm]

theorem interopMembers_eq_none {d : ℕ} {ms : Members} :
    interopMembers d ms = none ↔ ∀ m ∈ ms, interopError d m.2 = none := by
  induction ms with
  | nil => simp [interopMembers]
  | cons m ms ih =>
    rw [List.forall_mem_cons, ← ih]
    simp [interopMembers, and_comm]

theorem encodable_of_interop {v : Json} : ∀ {d : ℕ}, interopError d v = none → v.Encodable := by
  induction v with
  | null => exact fun _ => trivial
  | bool b => exact fun _ => trivial
  | int n => exact fun _ => trivial
  | float x => exact fun _ => trivial
  | str s =>
    intro d h
    simpa [interopError, Encodable] using h
  | arr xs ih =>
    intro d h
    simp only [interopError] at h
    split_ifs at h
    exact encodable_arr.mpr fun x hx => ih x hx (interopList_eq_none.mp h x hx)
  | obj ms ih =>
    intro d h
    simp only [interopError] at h
    split_ifs at h
    obtain ⟨hm, hk⟩ : interopMembers (d + 1) ms = none ∧ keysError ms = none := by simpa using h
    refine encodable_obj.mpr fun m hm' => ⟨?_, ih m hm' (interopMembers_eq_none.mp hm m hm')⟩
    by_contra hs
    have : (ms.any fun m => !m.1.all isScalar) = true :=
      List.any_eq_true.mpr ⟨m, hm', by simpa using hs⟩
    simp [keysError, this] at hk

theorem Encodable.canonical {v : Json} : v.Encodable → v.canonical.Encodable := by
  induction v with
  | null => exact id
  | bool b => exact id
  | int n => exact id
  | float x => exact id
  | str s => exact id
  | arr xs ih =>
    rw [canonical_arr, encodable_arr, encodable_arr]
    rintro h x hx
    obtain ⟨y, hy, rfl⟩ := List.mem_map.mp hx
    exact ih y hy (h y hy)
  | obj ms ih =>
    rw [canonical_obj, encodable_obj, encodable_obj]
    rintro h m hm
    obtain ⟨n, hn, rfl⟩ := List.mem_map.mp ((Members.sort_perm _).subset hm)
    exact ⟨(h n hn).1, ih n hn (h n hn).2⟩

theorem isScalar_ofChars {s : List Char} : (ofChars s).all isScalar = true := by
  simp [ofChars, isScalar]

theorem isScalar_quote {s : PyStr} (h : s.all isScalar = true) :
    (quote s).all isScalar = true := by
  have hc : ∀ c, isScalar c = true → (escapeChar c).all isScalar = true := by
    intro c hc
    unfold escapeChar
    split
    · exact isScalar_ofChars
    · simpa using hc
  simp only [quote, List.all_cons, List.all_append, List.all_flatMap, List.all_nil, isScalar,
    Bool.true_and, Bool.and_true]
  exact List.all_eq_true.mpr fun c hcs => hc c (List.all_eq_true.mp h c hcs)

theorem isScalar_joinItems {close : CodePoint} (hc : isScalar close = true) {xs : List PyStr}
    (h : ∀ x ∈ xs, x.all isScalar = true) : (joinItems close xs).all isScalar = true := by
  have hrest : ∀ {xs : List PyStr}, (∀ x ∈ xs, x.all isScalar = true) →
      (joinRest close xs).all isScalar = true := by
    intro xs h
    induction xs with
    | nil => simpa [joinRest] using hc
    | cons x xs ih =>
      obtain ⟨hx, hxs⟩ := List.forall_mem_cons.mp h
      rw [joinRest, List.all_cons, List.all_append, hx, ih hxs]
      rfl
  cases xs with
  | nil => simpa [joinItems] using hc
  | cons x xs =>
    obtain ⟨hx, hxs⟩ := List.forall_mem_cons.mp h
    rw [joinItems, List.all_append, hx, hrest hxs]
    rfl

theorem isScalar_render {v : Json} : v.Encodable → (render v).all isScalar = true := by
  induction v with
  | null => exact fun _ => isScalar_ofChars
  | bool b => exact fun _ => isScalar_ofChars
  | int n => exact fun _ => isScalar_ofChars
  | float x => exact fun _ => isScalar_ofChars
  | str s => exact isScalar_quote
  | arr xs ih =>
    intro h
    rw [encodable_arr] at h
    rw [render_arr, List.all_cons, isScalar_joinItems rfl]
    · rfl
    · rintro x hx
      obtain ⟨y, hy, rfl⟩ := List.mem_map.mp hx
      exact ih y hy (h y hy)
  | obj ms ih =>
    intro h
    rw [encodable_obj] at h
    rw [render_obj, List.all_cons, isScalar_joinItems rfl]
    · rfl
    · rintro x hx
      obtain ⟨m, hm, rfl⟩ := List.mem_map.mp hx
      rw [renderMember, List.all_append, List.all_cons, isScalar_quote (h m hm).1,
        ih m hm (h m hm).2]
      rfl

/-- The canonical text of a value without surrogates can be encoded. -/
theorem encode_dumps {v : Json} (h : v.Encodable) : encode (dumps v) = some (encodePass (dumps v)) := by
  rw [encode, dumps, isScalar_render h.canonical]
  rfl

end Json

theorem loadsJsonValue_encodable {text : PyStr} {v : Json} (h : loadsJsonValue text = .ok v) :
    v.Encodable :=
  Json.encodable_of_interop (loadsJsonValue_ok h).2

end Py
