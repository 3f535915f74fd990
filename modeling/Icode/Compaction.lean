import Icode.Checks
import Icode.Pairing
import Icode.PurePath
import Icode.PyRepr

/-!
# Compaction of a history

`compactHistory` (`compact_history`) replaces the middle of a history that is over its
budget by one summary. The system messages at the head, the first user message, the
summaries and receipts already there, and the last messages stay; the actions whose
effect is unknown are listed in a receipt.

The head makes no calls, so whether calls and replies stay paired is decided by the
place of the cut : for a well paired history they do exactly when nothing is cut, or
no reply among the last messages is cut off from its call
(`wellPaired_compactHistory_iff`). The receipt holds every action while there are at
most eight (`exists_mention_compactHistory`).
-/

namespace Icode.Compaction

open History Pairing Py

def compactMarker : PyStr := "【历史压缩】"

def unclosedMarker : PyStr := "【未闭合副作用】"

/-- `_SUMMARY_MAX_CHARS`. -/
def summaryMaxChars : ℕ := 120

/-- `_UNCLOSED_MAX_CHARS`. -/
def unclosedMaxChars : ℕ := 200

/-! ## Messages -/

/-- `_content`. -/
def content (message : Members) : PyStr :=
  (message.get "content").text?.getD []

/-- `value or default`. -/
def pyOr (value default : Json) : Json :=
  if value.truthy then value else default

/-- `for x in value`; a number, a boolean and `None` cannot be iterated. -/
def iterate : Json → Option (List Json)
  | .arr xs => some xs
  | .str s => some (s.map fun c => .str [c])
  | .obj ms => some ((Dict.keys ms).map .str)
  | _ => none

/-- `message.get("tool_calls") or []`, as it is iterated. -/
def toolCalls (message : Members) : Option (List Json) :=
  iterate (pyOr (message.get "tool_calls") (.arr []))

/-- `call.get("function") if isinstance(call.get("function"), dict) else {}`. -/
def callFunction (call : Members) : Members :=
  match call.get "function" with
  | .obj fn => fn
  | _ => []

section Measure

variable (printable : CodePoint → Bool)

/-- What one call adds to `history_chars`. -/
def callChars : Json → ℕ
  | .obj call =>
    ((pyOr ((callFunction call).get "name") (.str [])).pyStr printable).length +
      ((pyOr ((callFunction call).get "arguments") (.str [])).pyStr printable).length
  | _ => 0

/-- What one message adds to `history_chars`. -/
def messageChars (message : Members) : Option ℕ := do
  let calls ← toolCalls message
  pure ((content message).length + 24 + (calls.map (callChars printable)).sum)

/-- `history_chars`; it raises on calls that cannot be iterated. -/
def historyChars (messages : List Members) : Option ℕ := do
  let chars ← messages.mapM (messageChars printable)
  pure chars.sum

/-- `text.split()`. -/
def splitSpace (text : PyStr) : List PyStr :=
  (text.splitOnP isSpace).filter fun word => !word.isEmpty

/-- The name of a call that has one. -/
def callName : Json → Option PyStr
  | .obj call =>
    let name := (callFunction call).get "name"
    if name.truthy then some (name.pyStr printable) else none
  | _ => none

/-- `_summary_line`. -/
def summaryLine (message : Members) : Option PyStr := do
  let calls ← toolCalls message
  let role := (pyOr (message.get "role") (.str "?")).pyStr printable
  let text := joinWith ' ' (splitSpace (content message))
  let names := calls.filterMap (callName printable)
  let text :=
    if names.isEmpty then text
    else (if text.isEmpty then [] else text ++ lit " ") ++ lit "调用:" ++ joinWith ',' names
  pure (lit "- " ++ role ++ lit ": " ++ text.take summaryMaxChars)

/-- An open operation as a receipt lists it. -/
def receiptItem (item : Json) : PyStr :=
  (item.pyStr printable).take unclosedMaxChars

/-- `str(item).strip()` is not empty. -/
def isStated (item : Json) : Bool :=
  !(strip (item.pyStr printable)).isEmpty

/-- `_unclosed_message`. -/
def unclosedMessage (openOperations : List Json) : Members :=
  let items := (openOperations.filter (isStated printable)).map (receiptItem printable)
  let body := joinWith '\n' ((items.take 8).map fun item => lit "- " ++ item)
  [("role", .str "system"),
    ("content", .str (unclosedMarker ++ lit "以下动作可能已生效但回执未知；" ++
      lit "继续前必须先核对真实状态，禁止直接重放。\n" ++ body))]

end Measure

/-! ## The cut -/

def isRole (role : PyStr) (message : Members) : Bool :=
  (message.get "role").isText role

/-- A summary or a receipt of an earlier compaction. -/
def isProtected (message : Members) : Bool :=
  isRole "system" message &&
    (contains (content message) compactMarker || contains (content message) unclosedMarker)

/-- `protected_system`. -/
def protectedSystem (source : List Members) : List Members :=
  source.takeWhile (isRole "system")

/-- `requirement`: the first message behind the system messages, if a user wrote it. -/
def requirement (source : List Members) : List Members :=
  ((source.drop (protectedSystem source).length).take 1).filter (isRole "user")

/-- `index`. -/
def headLength (source : List Members) : ℕ :=
  (protectedSystem source).length + (requirement source).length

/-- `tail`. -/
def tail (keepTail : ℕ) (source : List Members) : List Members :=
  if keepTail < source.length - headLength source then source.drop (source.length - keepTail)
  else []

/-- `middle`. -/
def middle (keepTail : ℕ) (source : List Members) : List Members :=
  (source.take (source.length - (tail keepTail source).length)).drop (headLength source)

structure Digest where
  compacted : Bool
  system : ℕ
  constraints : ℕ
  tail : ℕ
  dropped : ℕ
  unclosed : ℕ
  charsBefore : ℕ
  charsAfter : ℕ
  deriving DecidableEq, Repr

structure CompactionResult where
  messages : List Members
  digest : Digest
  dropped : ℕ
  charsBefore : ℕ
  charsAfter : ℕ
  compacted : Bool

inductive CompactionError where
  /-- `ValueError`, with its text. -/
  | value (text : String)
  /-- `TypeError`, when the calls of a message cannot be iterated. -/
  | type
  deriving DecidableEq, Repr

/-- The history as it is. -/
def unchanged (source : List Members) (keepTail before : ℕ) : CompactionResult where
  messages := source
  digest := ⟨false, (protectedSystem source).length, (requirement source).length,
    (tail keepTail source).length, 0, 0, before, before⟩
  dropped := 0
  charsBefore := before
  charsAfter := before
  compacted := false

/-- The summary of the dropped messages. -/
def summaryMessage (dropped : ℕ) (lines : List PyStr) : Members :=
  [("role", .str "system"),
    ("content", .str (compactMarker ++ lit "已省略 " ++ ofChars (intText dropped) ++
      lit " 条中间消息（原始内容不注入）；" ++
      lit "中段事件摘要如下，仅用于定位，不作为门禁证据：\n" ++ joinWith '\n' lines))]

/-- The open operations that are stated. -/
def unclosed (printable : CodePoint → Bool) (openOperations : List Json) : List Json :=
  openOperations.filter (isStated printable)

/-- The receipt of the open operations, when there are any. -/
def receipt (printable : CodePoint → Bool) (openOperations : List Json) : List Members :=
  match unclosed printable openOperations with
  | [] => []
  | items => [unclosedMessage printable items]

/-- `middle` without the protected messages; a message that equals a protected one is
protected itself. -/
def dropped (keepTail : ℕ) (source : List Members) : List Members :=
  (middle keepTail source).filter fun message => !isProtected message

/-- What stands in front of the tail in a compacted history. -/
def front (printable : CodePoint → Bool) (source : List Members) (keepTail : ℕ)
    (lines : List PyStr) (openOperations : List Json) : List Members :=
  protectedSystem source ++ requirement source ++ (middle keepTail source).filter isProtected ++
    [summaryMessage (dropped keepTail source).length lines] ++ receipt printable openOperations

/-- `compact_history`; a parameter that is no `int` is refused like one below 1. -/
def compactHistory (printable : CodePoint → Bool) (messages : List Members)
    (budgetChars : ℤ) (openOperations : List Json) (keepTail : ℤ) :
    Except CompactionError CompactionResult := do
  require (0 < budgetChars) (.value "budget_chars 必须为正整数")
  require (1 ≤ keepTail) (.value "keep_tail 必须为正整数")
  let keep := keepTail.toNat
  let before ← orRaise (historyChars printable messages) .type
  if before ≤ budgetChars || (dropped keep messages).isEmpty then
    pure (unchanged messages keep before)
  else
    let lines ← orRaise ((dropped keep messages).mapM (summaryLine printable)) .type
    let rebuilt := front printable messages keep (lines.drop (lines.length - 8)) openOperations ++
      tail keep messages
    let after ← orRaise (historyChars printable rebuilt) .type
    pure {
      messages := rebuilt
      digest := ⟨true, (protectedSystem messages).length, (requirement messages).length,
        (tail keep messages).length, (dropped keep messages).length,
        (unclosed printable openOperations).length, before, after⟩
      dropped := (dropped keep messages).length
      charsBefore := before
      charsAfter := after
      compacted := true }

/-! ## Pairing -/

/-- The ids of the calls an assistant makes. -/
def callIds (message : Members) : List Json :=
  if isRole "assistant" message then
    ((toolCalls message).getD []).filterMap fun
      | .obj call => some (Members.get call "id")
      | _ => none
  else []

/-- The id a tool message replies to. -/
def replyId (message : Members) : Option Json :=
  if isRole "tool" message then some (message.get "tool_call_id") else none

theorem isRole_iff {role : PyStr} {message : Members} :
    isRole role message = true ↔ message.get "role" = .str role :=
  Json.isText_iff

/-- A message in another role makes no calls and replies to none. -/
theorem silent_of_isRole {role : PyStr} {message : Members} (h : isRole role message = true)
    (hassistant : role ≠ "assistant") (htool : role ≠ "tool") :
    callIds message = [] ∧ replyId message = none := by
  rw [isRole_iff] at h
  simp [callIds, replyId, isRole, h, hassistant, htool]

/-- A tool message makes no calls. -/
theorem callIds_of_replyId {message : Members} (h : replyId message ≠ none) :
    callIds message = [] := by
  have htool : isRole "tool" message = true := by
    by_contra hne
    exact h (if_neg hne)
  rw [isRole_iff] at htool
  simp [callIds, isRole, htool]

variable {printable : CodePoint → Bool} {messages : List Members} {budgetChars keepTail : ℤ}
  {openOperations : List Json} {result : CompactionResult}

theorem dropped_eq_nil_iff {keep : ℕ} :
    dropped keep messages = [] ↔ ∀ m ∈ middle keep messages, isProtected m = true := by
  simp [dropped, List.filter_eq_nil_iff]

/-- What `compact_history` returns. -/
theorem compactHistory_eq_ok
    (h : compactHistory printable messages budgetChars openOperations keepTail = .ok result) :
    1 ≤ keepTail ∧ ∃ before, historyChars printable messages = some before ∧
      ((before ≤ budgetChars ∨ dropped keepTail.toNat messages = []) ∧
          result = unchanged messages keepTail.toNat before ∨
        budgetChars < before ∧ dropped keepTail.toNat messages ≠ [] ∧ result.compacted = true ∧
          ∃ lines, result.messages =
            front printable messages keepTail.toNat lines openOperations ++
              tail keepTail.toNat messages) := by
  simp only [compactHistory, bind_eq_ok, require_eq_ok, decide_eq_true_eq, orRaise_eq_ok] at h
  obtain ⟨-, -, -, hkeep, before, hbefore, h⟩ := h
  refine ⟨hkeep, before, hbefore, ?_⟩
  split_ifs at h with hcut
  · left
    simp only [Bool.or_eq_true, decide_eq_true_eq, List.isEmpty_iff] at hcut
    exact ⟨hcut, (Except.ok.inj h).symm⟩
  · right
    simp only [Bool.or_eq_true, decide_eq_true_eq, List.isEmpty_iff, not_or, not_le] at hcut
    simp only [bind_eq_ok, orRaise_eq_ok] at h
    obtain ⟨lines, -, after, -, h⟩ := h
    obtain rfl := Except.ok.inj h
    exact ⟨hcut.1, hcut.2, rfl, lines.drop (lines.length - 8), rfl⟩

theorem isRole_of_mem_requirement {m : Members} (h : m ∈ requirement messages) :
    isRole "user" m = true :=
  (List.mem_filter.mp h).2

theorem isRole_unclosedMessage (items : List Json) :
    isRole "system" (unclosedMessage printable items) = true :=
  isRole_iff.mpr rfl

theorem isRole_summaryMessage (n : ℕ) (lines : List PyStr) :
    isRole "system" (summaryMessage n lines) = true :=
  isRole_iff.mpr rfl

theorem isRole_of_mem_receipt {m : Members} (h : m ∈ receipt printable openOperations) :
    isRole "system" m = true := by
  unfold receipt at h
  split at h
  · simp at h
  · rw [List.mem_singleton.mp h]
    exact isRole_unclosedMessage _

/-- What stands in front of the tail neither calls nor replies. -/
theorem silent_of_mem_front {keep : ℕ} {lines : List PyStr} {m : Members}
    (h : m ∈ front printable messages keep lines openOperations) :
    callIds m = [] ∧ replyId m = none := by
  have hsystem : isRole "system" m = true → callIds m = [] ∧ replyId m = none := fun hm =>
    silent_of_isRole hm (by decide) (by decide)
  simp only [front, List.mem_append, List.mem_singleton] at h
  rcases h with (((h | h) | h) | rfl) | h
  · exact hsystem (List.mem_takeWhile_imp h)
  · exact silent_of_isRole (isRole_of_mem_requirement h) (by decide) (by decide)
  · have := (List.mem_filter.mp h).2
    rw [isProtected, Bool.and_eq_true] at this
    exact hsystem this.1
  · exact hsystem (isRole_summaryMessage _ _)
  · exact hsystem (isRole_of_mem_receipt h)

/-- A compacted history is well paired when no reply of its tail was cut off from its call. -/
theorem wellPaired_front_append {keep : ℕ} {lines : List PyStr}
    (h : WellPaired callIds replyId messages) :
    WellPaired callIds replyId
        (front printable messages keep lines openOperations ++ tail keep messages) ↔
      messages.length - headLength messages ≤ keep ∨
        Called callIds replyId (messages.drop (messages.length - keep)) := by
  rw [wellPaired_append_of_silent fun m hm => silent_of_mem_front hm, tail]
  split_ifs with htail
  · have hanswered : Answered callIds replyId
        (messages.take (messages.length - keep) ++ messages.drop (messages.length - keep)) := by
      rw [List.take_append_drop]
      exact h.answered
    exact ⟨fun hp => Or.inr hp.called,
      fun hp => ⟨hp.resolve_left (by omega), hanswered.right⟩⟩
  · refine ⟨fun _ => Or.inl (by omega), fun _ => ⟨every_nil, ?_⟩⟩
    intro before e after hnil
    simp at hnil

/-- For a well paired history and every parameters, calls and replies stay paired exactly when
the history is within its budget, or everything between the head and the last `keepTail` messages
is a protected summary, or there is nothing between them to keep apart, or no reply among the last
messages was cut off from its call. -/
theorem wellPaired_compactHistory_iff (h : WellPaired callIds replyId messages)
    (hok : compactHistory printable messages budgetChars openOperations keepTail = .ok result) :
    WellPaired callIds replyId result.messages ↔
      (∀ chars, historyChars printable messages = some chars → chars ≤ budgetChars) ∨
        (∀ m ∈ middle keepTail.toNat messages, isProtected m = true) ∨
        messages.length - headLength messages ≤ keepTail.toNat ∨
        Called callIds replyId (messages.drop (messages.length - keepTail.toNat)) := by
  obtain ⟨-, before, hbefore, ⟨hcut, rfl⟩ | ⟨hover, hdropped, -, lines, hmessages⟩⟩ :=
    compactHistory_eq_ok hok
  · refine ⟨fun _ => ?_, fun _ => h⟩
    rcases hcut with hcut | hcut
    · left
      intro chars hchars
      rw [hbefore] at hchars
      rwa [← Option.some.inj hchars]
    · exact Or.inr (Or.inl (dropped_eq_nil_iff.mp hcut))
  · rw [hmessages, wellPaired_front_append h]
    constructor
    · exact fun hp => Or.inr (Or.inr hp)
    · rintro (hwithin | hprotected | hp)
      · exact absurd (hwithin before hbefore) (not_le.mpr hover)
      · exact absurd (dropped_eq_nil_iff.mpr hprotected) hdropped
      · exact hp

/-- A message with three calls. -/
def readCalls : Members :=
  [("role", .str "assistant"), ("content", .str []), ("tool_calls", .arr
    [.obj [("id", .str "c0")], .obj [("id", .str "c1")], .obj [("id", .str "c2")]])]

/-- Three calls and their replies. -/
def threeReads : List Members :=
  [readCalls,
    [("role", .str "tool"), ("tool_call_id", .str "c0"), ("content", .str "ok")],
    [("role", .str "tool"), ("tool_call_id", .str "c1"), ("content", .str "ok")],
    [("role", .str "tool"), ("tool_call_id", .str "c2"), ("content", .str "ok")]]

theorem wellPaired_threeReads : WellPaired callIds replyId threeReads := by
  have hnil : Adjacent callIds replyId ([] : List Members) := adjacent_nil
  have hopen : Open callIds replyId [.str "c0", .str "c1", .str "c2"] [readCalls] :=
    hnil.call (e := readCalls) rfl
  have hadjacent : Adjacent callIds replyId threeReads :=
    open_nil.mp (((hopen.append_reply rfl).append_reply rfl).append_reply rfl)
  exact hadjacent.wellPaired fun _ => callIds_of_replyId

/-- With the two last messages kept, two replies lose the message of their calls. -/
theorem compactHistory_separates : ¬∀ (messages : List Members) (budgetChars keepTail : ℤ)
    (openOperations : List Json) (result : CompactionResult),
    WellPaired callIds replyId messages →
      compactHistory (fun _ => true) messages budgetChars openOperations keepTail = .ok result →
      WellPaired callIds replyId result.messages := by
  intro h
  have hp := h threeReads 1 2 [] _ wellPaired_threeReads rfl
  rcases (wellPaired_front_append wellPaired_threeReads).mp hp with hlength | hcalled
  · exact absurd hlength (by decide : ¬threeReads.length - headLength threeReads ≤ 2)
  · obtain ⟨a, ha, -⟩ := hcalled [] _ _ rfl (.str "c1") rfl
    simp at ha

/-- With all four kept, nothing is cut off. -/
theorem wellPaired_compactHistory_iff_threeReads : ∃ result,
    compactHistory (fun _ => true) threeReads 1 [] 4 = .ok result ∧
      WellPaired callIds replyId result.messages := by
  have hok : ∃ result, compactHistory (fun _ => true) threeReads 1 [] 4 = .ok result := ⟨_, rfl⟩
  obtain ⟨result, hok⟩ := hok
  refine ⟨result, hok, (wellPaired_compactHistory_iff wellPaired_threeReads hok).mpr ?_⟩
  exact Or.inr (Or.inr (Or.inl (by decide)))

/-! ## Open operations -/

/-- `needle in text`. -/
theorem contains_iff {s needle : PyStr} : contains s needle = true ↔ needle <:+: s := by
  simp only [contains, List.any_eq_true, List.mem_tails, List.isPrefixOf_iff_prefix,
    List.infix_iff_prefix_suffix, and_comm]

theorem infix_joinWith {sep : CodePoint} {x : PyStr} {xs : List PyStr} (h : x ∈ xs) :
    x <:+: joinWith sep xs := by
  induction xs with
  | nil => simp at h
  | cons y xs ih =>
    cases xs with
    | nil =>
      rw [List.mem_singleton.mp h]
      exact List.infix_rfl
    | cons z zs =>
      rw [joinWith.eq_3 sep y (z :: zs) (by simp)]
      rcases List.mem_cons.mp h with rfl | h
      · exact (List.prefix_append _ _).isInfix
      · exact (ih h).trans ((List.suffix_cons _ _).trans (List.suffix_append _ _)).isInfix

/-- While there are at most eight stated operations, the receipt of a compaction lists them
all. -/
theorem mem_receipt {item : Json} (hitem : item ∈ openOperations)
    (hstated : isStated printable item = true)
    (hcount : (unclosed printable openOperations).length ≤ 8) :
    ∃ m ∈ receipt printable openOperations,
      contains (content m) (receiptItem printable item) = true := by
  have hmem : item ∈ unclosed printable openOperations := List.mem_filter.mpr ⟨hitem, hstated⟩
  obtain ⟨first, rest, hitems⟩ := List.exists_cons_of_ne_nil (List.ne_nil_of_mem hmem)
  refine ⟨unclosedMessage printable (first :: rest), by simp [receipt, hitems], ?_⟩
  have hlisted : (lit "- " ++ receiptItem printable item) ∈
      ((((first :: rest).filter (isStated printable)).map (receiptItem printable)).take 8).map
        fun item => lit "- " ++ item := by
    refine List.mem_map_of_mem ?_
    rw [← hitems]
    rw [List.take_of_length_le (by
      rw [List.length_map]
      exact (List.length_filter_le _ _).trans hcount)]
    exact List.mem_map_of_mem (List.mem_filter.mpr ⟨hmem, hstated⟩)
  rw [contains_iff]
  have hbody : _ <:+: joinWith '\n' _ := infix_joinWith hlisted
  refine (List.suffix_append _ _).isInfix.trans (hbody.trans ?_)
  exact (List.suffix_append _ _).isInfix

/-- While at most eight open operations are stated, every one of them occurs in the compacted
history, up to its length cut. -/
theorem exists_mention_compactHistory
    (hok : compactHistory printable messages budgetChars openOperations keepTail = .ok result)
    (hcompacted : result.compacted = true)
    (hcount : (unclosed printable openOperations).length ≤ 8) {item : Json}
    (hitem : item ∈ openOperations) (hstated : isStated printable item = true) :
    ∃ m ∈ result.messages, contains (content m) (receiptItem printable item) = true := by
  obtain ⟨-, before, -, ⟨-, rfl⟩ | ⟨-, -, -, lines, hmessages⟩⟩ := compactHistory_eq_ok hok
  · simp [unchanged] at hcompacted
  · obtain ⟨m, hm, hcontains⟩ := mem_receipt hitem hstated hcount
    refine ⟨m, ?_, hcontains⟩
    rw [hmessages, front]
    simp [hm]

end Icode.Compaction
