import Icode.Checks
import Icode.PackFiles

/-!
# The control files of a package

Manifest, metadata, signature and anchors are strict JSON (`loadJsonFile`), read under a limit
of bytes. The contract snapshot keeps what older contracts hold : `NaN`, `Infinity` and lone
surrogates are values there (`loadContractSnapshot`).
-/

namespace Icode

open Py

/-- Why a control file is not read; all of these are `ValueError`s. -/
inductive ControlError where
  /-- 控制JSON超过输入字节上限 -/
  | tooLarge
  /-- The file is no UTF-8. -/
  | unicode
  | json (e : JsonError)
  /-- JSON 根节点必须是对象 -/
  | notObject

/-- `read_bounded_bytes`. -/
def readBoundedBytes (content : Bytes) (maxBytes : ℕ) : Except ControlError Bytes :=
  if maxBytes < content.length then .error .tooLarge else .ok content

/-- `read_bounded_bytes(…).decode("utf-8")`. -/
def readBoundedText (content : Bytes) (maxBytes : ℕ) : Except ControlError PyStr := do
  let raw ← readBoundedBytes content maxBytes
  orRaise (decode raw) .unicode

/-- `load_json_value`. -/
def loadJsonFile (content : Bytes) (maxBytes : ℕ) : Except ControlError Json := do
  let text ← readBoundedText content maxBytes
  (loadsJsonValue text).mapError .json

/-- The value, when it is an object. -/
def asObject : Json → Except ControlError Members
  | .obj ms => .ok ms
  | _ => .error .notObject

/-- `_load_json`. -/
def loadJsonObject (content : Bytes) (maxBytes : ℕ) : Except ControlError Members := do
  let value ← loadJsonFile content maxBytes
  asObject value

/-! ## The contract snapshot -/

/-- A word of a contract, where the constants are numbers. -/
def contractWordTokens (w : List Char) : List Token :=
  let constants : List (List Char × PyFloat) :=
    [(['N', 'a', 'N'], PyFloat.nan), (['I', 'n', 'f', 'i', 'n', 'i', 't', 'y'], PyFloat.inf false),
      (['-', 'I', 'n', 'f', 'i', 'n', 'i', 't', 'y'], PyFloat.inf true)]
  match constants.find? fun c => c.1.isPrefixOf w with
  | some (text, x) => if w.length = text.length then [.float x] else [.float x, .bad .decode]
  | none => wordTokens w

/-- `lexStep` with the words of a contract. -/
def lexContractStep : LexState → CodePoint → List Token × LexState
  | .word w, c =>
    if isJsonSpace c || c == .scalar '"' || (punctToken c).isSome then
      (contractWordTokens w ++ (lexIdle c).1, (lexIdle c).2)
    else ([], .word (w ++ [c.toChar]))
  | st, c => lexStep st c

/-- The tokens of a contract. -/
def lexContract : LexState → PyStr → List Token
  | .idle, [] => []
  | .word w, [] => contractWordTokens w
  | _, [] => [.bad .decode]
  | st, c :: cs => (lexContractStep st c).1 ++ lexContract (lexContractStep st c).2 cs

/-- `json.loads(text, object_pairs_hook=_json_object_without_duplicates)`. -/
def loadsContract (text : PyStr) : Except JsonError Json := do
  let s ← parseTokens ⟨[], .value⟩ (lexContract .idle text)
  match s.expect with
  | .done v => .ok v
  | _ => .error .decode

/-- `_MAX_CONTRACTS_JSON_BYTES` -/
def maxContractsJsonBytes : ℕ := 8 * 1024 * 1024

/-- `_load_contract_snapshot`. -/
def loadContractSnapshot (content : Bytes) : Except ControlError Members := do
  let text ← readBoundedText content maxContractsJsonBytes
  (checkStructuralTokenBudget text (some maxJsonContainerDepth)).mapError .json
  let value ← (loadsContract text).mapError .json
  asObject value

/-! ## What is read -/

theorem mapError_eq_ok {ε δ α : Type} {x : Except ε α} {f : ε → δ} {a : α} :
    x.mapError f = .ok a ↔ x = .ok a := by
  cases x <;> simp [Except.mapError]

/-- The texts of a control file can be encoded, and its keys are distinct. -/
theorem loadJsonFile_ok {content : Bytes} {maxBytes : ℕ} {v : Json}
    (h : loadJsonFile content maxBytes = .ok v) : v.WF ∧ v.Encodable := by
  unfold loadJsonFile at h
  rw [bind_eq_ok] at h
  obtain ⟨text, -, hv⟩ := h
  rw [mapError_eq_ok] at hv
  exact ⟨loadsJsonValue_wf hv, loadsJsonValue_encodable hv⟩

theorem loadJsonObject_eq_ok {content : Bytes} {maxBytes : ℕ} {ms : Members} :
    loadJsonObject content maxBytes = .ok ms ↔ loadJsonFile content maxBytes = .ok (.obj ms) := by
  unfold loadJsonObject
  rw [bind_eq_ok]
  constructor
  · rintro ⟨v, hv, hobj⟩
    cases v with
    | obj ms' =>
      obtain rfl := Except.ok.inj hobj
      exact hv
    | _ => simp [asObject] at hobj
  · exact fun h => ⟨_, h, rfl⟩

end Icode
