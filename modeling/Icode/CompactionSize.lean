import Icode.Compaction

/-!
# The size of a compacted history

A compaction takes the middle of a history out and puts a summary in, and a receipt of the open
operations. It makes the history shorter exactly when what it takes out is at least as long as
what it puts in (`Pays`). What is put in has a fixed text of its own, so a history with a short
middle grows.

With a user message behind the head, a second compaction finds nothing to drop. Without one the
summary becomes part of the head, and the last messages are the new middle (`dropped_again`).
-/

namespace Icode.Compaction

open History Pairing Py

section Size

variable (printable : CodePoint → Bool)

/-- What a message adds to the size of a history. -/
def charsOf (message : Members) : ℕ :=
  (messageChars printable message).getD 0

/-- The size of some messages. -/
def totalChars (messages : List Members) : ℕ :=
  (messages.map (charsOf printable)).sum

/-- The role of a message, as a summary shows it. -/
def shownRole (message : Members) : PyStr :=
  (pyOr (message.get "role") (.str "?")).pyStr printable

/-- The words of a message and the names of its calls, as a summary shows them. -/
def shownText (message : Members) : PyStr :=
  let text := joinWith ' ' (splitSpace (content message))
  let names := ((toolCalls message).getD []).filterMap (callName printable)
  if names.isEmpty then text
  else (if text.isEmpty then [] else text ++ lit " ") ++ lit "调用:" ++ joinWith ',' names

/-- The length of lines that are joined with one character. -/
def joinedSize (sizes : List ℕ) : ℕ :=
  sizes.sum + (sizes.length - 1)

/-- The size of the summary of the messages : its fixed text, their number, and a line of at most
120 characters of text for each of the last eight. -/
def summarySize (messages : List Members) : ℕ :=
  let lines := messages.map fun m =>
    4 + (shownRole printable m).length + min summaryMaxChars (shownText printable m).length
  24 + 50 + (intText messages.length).length + joinedSize (lines.drop (lines.length - 8))

/-- The size of the receipt : its fixed text, and at most 200 characters for each of the first
eight operations. -/
def receiptSize (openOperations : List Json) : ℕ :=
  let items := unclosed printable openOperations
  if items.isEmpty then 0
  else 24 + 44 + joinedSize ((items.take 8).map fun item =>
    2 + min unclosedMaxChars (item.pyStr printable).length)

/-- What is dropped is at least as long as what replaces it. -/
def Pays (openOperations : List Json) (messages : List Members) : Prop :=
  summarySize printable messages + receiptSize printable openOperations ≤
    totalChars printable messages

end Size

variable {printable : CodePoint → Bool} {messages : List Members} {budgetChars keepTail : ℤ}
  {openOperations : List Json} {result : CompactionResult}

/-! ## Counting -/

theorem mapM_eq_some {α β : Type} {f : α → Option β} {xs : List α} {ys : List β} :
    xs.mapM f = some ys ↔ xs.map f = ys.map some := by
  induction xs generalizing ys with
  | nil => cases ys <;> simp
  | cons x xs ih =>
    rw [List.mapM_cons]
    cases ys with
    | nil => cases f x <;> cases xs.mapM f <;> simp
    | cons y ys =>
      cases h : f x with
      | none => simp [h]
      | some a => simp [h, ih, Option.bind_eq_some_iff, and_comm]

theorem messageChars_eq_some {m : Members} {n : ℕ} :
    messageChars printable m = some n ↔
      (toolCalls m).isSome = true ∧ charsOf printable m = n := by
  unfold charsOf messageChars
  cases toolCalls m <;> simp

theorem historyChars_eq_some {n : ℕ} :
    historyChars printable messages = some n ↔
      (∀ m ∈ messages, (toolCalls m).isSome = true) ∧ totalChars printable messages = n := by
  induction messages generalizing n with
  | nil => simp [historyChars, totalChars]
  | cons m ms ih =>
    have hcons : historyChars printable (m :: ms) = (do
        let x ← messageChars printable m
        let rest ← historyChars printable ms
        pure (x + rest)) := by
      simp only [historyChars, List.mapM_cons, Option.bind_eq_bind, Option.bind_assoc]
      simp
    have htotal : totalChars printable (m :: ms) =
        charsOf printable m + totalChars printable ms := by
      simp [totalChars]
    rw [hcons, htotal]
    simp only [Option.bind_eq_bind, Option.bind_eq_some_iff, messageChars_eq_some, ih,
      List.forall_mem_cons]
    constructor
    · rintro ⟨x, ⟨hm, rfl⟩, rest, ⟨hms, rfl⟩, hn⟩
      exact ⟨⟨hm, hms⟩, Option.some.inj hn⟩
    · rintro ⟨⟨hm, hms⟩, rfl⟩
      exact ⟨_, ⟨hm, rfl⟩, _, ⟨hms, rfl⟩, rfl⟩

theorem totalChars_append (xs ys : List Members) :
    totalChars printable (xs ++ ys) = totalChars printable xs + totalChars printable ys := by
  simp [totalChars]

variable (printable) in
/-- A part that is taken out of some messages. -/
theorem totalChars_filter (p : Members → Bool) (xs : List Members) :
    totalChars printable xs =
      totalChars printable (xs.filter p) + totalChars printable (xs.filter fun m => !p m) := by
  induction xs with
  | nil => rfl
  | cons m xs ih =>
    simp only [totalChars] at ih ⊢
    cases hp : p m
    · simp [hp]
      omega
    · simp [hp]
      omega

theorem length_joinWith (sep : CodePoint) (xs : List PyStr) :
    (joinWith sep xs).length = joinedSize (xs.map List.length) := by
  induction xs with
  | nil => rfl
  | cons x xs ih =>
    cases xs with
    | nil => simp [joinWith, joinedSize]
    | cons y ys =>
      rw [joinWith.eq_3 sep x (y :: ys) (by simp)]
      simp only [List.length_append, List.length_cons, ih, joinedSize, List.map_cons,
        List.sum_cons, List.length_map]
      omega

/-! ## What replaces the dropped messages -/

theorem summaryLine_eq_some {m : Members} {line : PyStr} :
    summaryLine printable m = some line ↔ (toolCalls m).isSome = true ∧
      line = lit "- " ++ shownRole printable m ++ lit ": " ++
        (shownText printable m).take summaryMaxChars := by
  unfold summaryLine shownText shownRole
  cases toolCalls m with
  | none => simp
  | some calls =>
    simp only [Option.bind_eq_bind, Option.bind_some, Option.getD_some, Option.isSome_some,
      true_and, Option.pure_def, Option.some.injEq]
    exact eq_comm

/-- The lines of a summary, by their length. -/
theorem length_summaryLines {xs : List Members} {lines : List PyStr}
    (h : xs.mapM (summaryLine printable) = some lines) :
    lines.map List.length = xs.map fun m =>
      4 + (shownRole printable m).length + min summaryMaxChars (shownText printable m).length := by
  rw [mapM_eq_some] at h
  induction xs generalizing lines with
  | nil =>
    cases lines <;> simp at h ⊢
  | cons m xs ih =>
    cases lines with
    | nil => simp at h
    | cons line lines =>
      simp only [List.map_cons, List.cons.injEq] at h ⊢
      obtain ⟨-, rfl⟩ := summaryLine_eq_some.mp h.1
      refine ⟨?_, ih h.2⟩
      simp only [List.length_append, List.length_take]
      have hdash : (lit "- ").length = 2 := rfl
      have hcolon : (lit ": ").length = 2 := rfl
      omega

theorem charsOf_system (text : PyStr) :
    charsOf printable [("role", .str "system"), ("content", .str text)] = text.length + 24 := by
  simp [charsOf, messageChars, toolCalls, content, Members.get, Dict.get?, pyOr, Json.truthy,
    iterate, Json.text?]

theorem charsOf_summaryMessage {xs : List Members} {lines : List PyStr}
    (h : xs.mapM (summaryLine printable) = some lines) :
    charsOf printable (summaryMessage xs.length (lines.drop (lines.length - 8))) =
      summarySize printable xs := by
  have hlengths := length_summaryLines h
  have hcount : lines.length = xs.length := by
    simpa using congrArg List.length hlengths
  have hfixed : (compactMarker ++ lit "已省略 ").length + (lit " 条中间消息（原始内容不注入）；" ++
      lit "中段事件摘要如下，仅用于定位，不作为门禁证据：\n").length = 50 := by decide
  rw [summaryMessage, charsOf_system, summarySize]
  simp only [List.length_append, length_joinWith, List.map_drop, hlengths, List.length_map,
    hcount] at hfixed ⊢
  have hdigits : (ofChars (intText xs.length)).length = (intText xs.length).length := by
    simp [ofChars]
  omega

theorem charsOf_receipt :
    totalChars printable (receipt printable openOperations) =
      receiptSize printable openOperations := by
  have hfixed : unclosedMarker.length + (lit "以下动作可能已生效但回执未知；" ++
      lit "继续前必须先核对真实状态，禁止直接重放。\n").length = 44 := by decide
  unfold receipt receiptSize
  cases hitems : unclosed printable openOperations with
  | nil => rfl
  | cons item items =>
    have hstated : (item :: items).filter (isStated printable) = item :: items := by
      rw [← hitems, unclosed, List.filter_filter]
      simp
    have hdash : (lit "- ").length = 2 := rfl
    have hlines : (((((item :: items).map (receiptItem printable)).take 8).map fun text =>
        lit "- " ++ text).map List.length) = ((item :: items).take 8).map fun item =>
          2 + min unclosedMaxChars (item.pyStr printable).length := by
      rw [← List.map_take, List.map_map, List.map_map]
      refine List.map_congr_left fun x _ => ?_
      simp [receiptItem, hdash]
    simp only [totalChars, List.map_cons, List.map_nil, List.sum_cons, List.sum_nil]
    rw [unclosedMessage, hstated, charsOf_system]
    simp only [List.length_append, length_joinWith, hlines] at hfixed ⊢
    simp only [List.isEmpty_cons, Bool.false_eq_true, if_false]
    omega

/-! ## The parts of a history -/

theorem protectedSystem_append_dropWhile :
    protectedSystem messages ++ messages.dropWhile (isRole "system") = messages :=
  List.takeWhile_append_dropWhile

theorem drop_protectedSystem :
    messages.drop (protectedSystem messages).length = messages.dropWhile (isRole "system") := by
  calc messages.drop (protectedSystem messages).length
      = (protectedSystem messages ++ messages.dropWhile (isRole "system")).drop
          (protectedSystem messages).length := by rw [protectedSystem_append_dropWhile]
    _ = messages.dropWhile (isRole "system") := List.drop_left

theorem requirement_eq :
    requirement messages = ((messages.dropWhile (isRole "system")).take 1).filter
      (isRole "user") := by
  rw [requirement, drop_protectedSystem]

theorem take_headLength :
    messages.take (headLength messages) = protectedSystem messages ++ requirement messages := by
  have hrest : (messages.dropWhile (isRole "system")).take (requirement messages).length =
      requirement messages := by
    rw [requirement_eq]
    cases messages.dropWhile (isRole "system") with
    | nil => rfl
    | cons m rest => cases hm : isRole "user" m <;> simp [hm]
  calc messages.take (headLength messages)
      = (protectedSystem messages ++ messages.dropWhile (isRole "system")).take
          (headLength messages) := by rw [protectedSystem_append_dropWhile]
    _ = protectedSystem messages ++ requirement messages := by
      rw [headLength, List.take_length_add_append, hrest]

theorem headLength_le : headLength messages ≤ messages.length := by
  have h : (messages.take (headLength messages)).length =
      (protectedSystem messages ++ requirement messages).length := by rw [take_headLength]
  rw [List.length_take, List.length_append, ← headLength] at h
  omega

theorem length_tail_le (keep : ℕ) : (tail keep messages).length ≤ keep := by
  unfold tail
  split_ifs
  · rw [List.length_drop]
    omega
  · exact Nat.zero_le _

theorem headLength_add_tail_le (keep : ℕ) :
    headLength messages + (tail keep messages).length ≤ messages.length := by
  have hhead : headLength messages ≤ messages.length := headLength_le
  unfold tail
  split_ifs
  · rw [List.length_drop]
    omega
  · simpa using hhead

theorem drop_tail (keep : ℕ) :
    messages.drop (messages.length - (tail keep messages).length) = tail keep messages := by
  unfold tail
  split_ifs with h
  · rw [List.length_drop]
    congr 1
    omega
  · simp

/-- A history is its head, its middle and its tail. -/
theorem split_history (messages : List Members) (keep : ℕ) :
    messages = protectedSystem messages ++ requirement messages ++ middle keep messages ++
      tail keep messages := by
  have hle : headLength messages + (tail keep messages).length ≤ messages.length :=
    headLength_add_tail_le keep
  have hfront : messages.take (messages.length - (tail keep messages).length) =
      protectedSystem messages ++ requirement messages ++ middle keep messages := by
    rw [← take_headLength, middle]
    conv_lhs => rw [← List.take_append_drop (headLength messages)
      (messages.take (messages.length - (tail keep messages).length))]
    rw [List.take_take, Nat.min_eq_left (by omega)]
  conv_lhs => rw [← List.take_append_drop
    (messages.length - (tail keep messages).length) messages]
  rw [hfront, drop_tail]

/-! ## What a compaction does to the size -/

/-- A compaction over the budget : the summary lists what is dropped. -/
theorem compactHistory_over
    (h : compactHistory printable messages budgetChars openOperations keepTail = .ok result) :
    0 < budgetChars ∧ 1 ≤ keepTail ∧ ∃ before, historyChars printable messages = some before ∧
      ((before ≤ budgetChars ∨ dropped keepTail.toNat messages = []) ∧
          result.messages = messages ∨
        budgetChars < before ∧ dropped keepTail.toNat messages ≠ [] ∧ ∃ lines after,
          (dropped keepTail.toNat messages).mapM (summaryLine printable) = some lines ∧
          result.messages = front printable messages keepTail.toNat
            (lines.drop (lines.length - 8)) openOperations ++ tail keepTail.toNat messages ∧
          historyChars printable result.messages = some after) := by
  simp only [compactHistory, bind_eq_ok, require_eq_ok, decide_eq_true_eq, orRaise_eq_ok] at h
  obtain ⟨-, hbudget, -, hkeep, before, hbefore, h⟩ := h
  refine ⟨hbudget, hkeep, before, hbefore, ?_⟩
  split_ifs at h with hcut
  · left
    simp only [Bool.or_eq_true, decide_eq_true_eq, List.isEmpty_iff] at hcut
    exact ⟨hcut, congrArg CompactionResult.messages (Except.ok.inj h).symm⟩
  · right
    simp only [Bool.or_eq_true, decide_eq_true_eq, List.isEmpty_iff, not_or, not_le] at hcut
    simp only [bind_eq_ok, orRaise_eq_ok] at h
    obtain ⟨lines, hlines, after, hafter, h⟩ := h
    obtain rfl := Except.ok.inj h
    exact ⟨hcut.1, hcut.2, lines, after, hlines, rfl, hafter⟩

/-- What is dropped goes, what replaces it comes. -/
theorem totalChars_compacted (openOperations : List Json) {keep : ℕ} {lines : List PyStr}
    (h : (dropped keep messages).mapM (summaryLine printable) = some lines) :
    totalChars printable (front printable messages keep (lines.drop (lines.length - 8))
        openOperations ++ tail keep messages) + totalChars printable (dropped keep messages) =
      totalChars printable messages + (summarySize printable (dropped keep messages) +
        receiptSize printable openOperations) := by
  have hsummary : totalChars printable
      [summaryMessage (dropped keep messages).length (lines.drop (lines.length - 8))] =
        summarySize printable (dropped keep messages) := by
    rw [← charsOf_summaryMessage h]
    simp [totalChars]
  have hmiddle := totalChars_filter printable isProtected (middle keep messages)
  have hsplit := congrArg (totalChars printable) (split_history messages keep)
  simp only [front, totalChars_append, hsummary, charsOf_receipt] at hsplit ⊢
  rw [← dropped] at hmiddle
  omega

/-- A compaction does not make the history longer exactly when it changes nothing, or what is
dropped is at least as long as what replaces it. -/
theorem shrinks_iff {before after : ℕ} (hbefore : historyChars printable messages = some before)
    (hafter : historyChars printable result.messages = some after)
    (hok : compactHistory printable messages budgetChars openOperations keepTail = .ok result) :
    after ≤ before ↔ (before : ℤ) ≤ budgetChars ∨ dropped keepTail.toNat messages = [] ∨
      Pays printable openOperations (dropped keepTail.toNat messages) := by
  obtain ⟨-, -, n, hn, ⟨hcut, hsame⟩ | ⟨hover, hdropped, lines, m, hlines, hmessages, -⟩⟩ :=
    compactHistory_over hok
  · obtain rfl := Option.some.inj (hbefore.symm.trans hn)
    rw [hsame, hbefore] at hafter
    obtain rfl := Option.some.inj hafter
    exact ⟨fun _ => by tauto, fun _ => le_rfl⟩
  · obtain rfl := Option.some.inj (hbefore.symm.trans hn)
    have htotal := totalChars_compacted openOperations hlines
    rw [← hmessages, (historyChars_eq_some.mp hafter).2, (historyChars_eq_some.mp hbefore).2]
      at htotal
    rw [Pays]
    constructor
    · intro hle
      exact .inr (.inr (by omega))
    · rintro (hwithin | hnil | hpays)
      · exact absurd hwithin (not_le.mpr hover)
      · exact absurd hnil hdropped
      · omega

/-! ## A second compaction -/

theorem isProtected_summaryMessage (n : ℕ) (lines : List PyStr) :
    isProtected (summaryMessage n lines) = true := by
  have hmarker : compactMarker <:+: content (summaryMessage n lines) := by
    change compactMarker <:+: compactMarker ++ _ ++ _ ++ _ ++ _ ++ _
    simp only [List.append_assoc]
    exact (List.prefix_append _ _).isInfix
  rw [isProtected, isRole_summaryMessage, contains_iff.mpr hmarker]
  rfl

theorem isProtected_of_mem_receipt {m : Members}
    (h : m ∈ receipt printable openOperations) : isProtected m = true := by
  have hsystem := isRole_of_mem_receipt h
  unfold receipt at h
  split at h
  · simp at h
  · obtain rfl := List.mem_singleton.mp h
    have hmarker : unclosedMarker <:+:
        content (unclosedMessage printable (unclosed printable openOperations)) := by
      change unclosedMarker <:+: unclosedMarker ++ _ ++ _
      simp only [List.append_assoc]
      exact (List.prefix_append _ _).isInfix
    rw [isProtected, hsystem, contains_iff.mpr hmarker, Bool.or_true]
    rfl

/-- The summaries and receipts between the head and the tail of a compacted history. -/
def notes (printable : CodePoint → Bool) (messages : List Members) (keep : ℕ)
    (lines : List PyStr) (openOperations : List Json) : List Members :=
  (middle keep messages).filter isProtected ++
    [summaryMessage (dropped keep messages).length lines] ++ receipt printable openOperations

theorem isProtected_of_mem_notes {keep : ℕ} {lines : List PyStr} {m : Members}
    (h : m ∈ notes printable messages keep lines openOperations) : isProtected m = true := by
  simp only [notes, List.mem_append, List.mem_singleton] at h
  rcases h with (h | rfl) | h
  · exact (List.mem_filter.mp h).2
  · exact isProtected_summaryMessage _ _
  · exact isProtected_of_mem_receipt h

theorem isRole_of_isProtected {m : Members} (h : isProtected m = true) :
    isRole "system" m = true := by
  rw [isProtected, Bool.and_eq_true] at h
  exact h.1

theorem isRole_of_mem_protectedSystem {m : Members} (h : m ∈ protectedSystem messages) :
    isRole "system" m = true :=
  List.mem_takeWhile_imp h

/-- System messages in front of a history belong to its head. -/
theorem protectedSystem_append {xs ys : List Members} (h : ∀ m ∈ xs, isRole "system" m = true) :
    protectedSystem (xs ++ ys) = xs ++ protectedSystem ys := by
  rw [protectedSystem, protectedSystem, List.takeWhile_append_of_pos h]

theorem requirement_append {xs ys : List Members} (h : ∀ m ∈ xs, isRole "system" m = true) :
    requirement (xs ++ ys) = requirement ys := by
  rw [requirement_eq, requirement_eq, List.dropWhile_append_of_pos h]

theorem length_tail (messages : List Members) (keep : ℕ) :
    tail keep messages = [] ∨ (tail keep messages).length = keep := by
  unfold tail
  split_ifs
  · right
    rw [List.length_drop]
    omega
  · exact .inl rfl

theorem requirement_eq_singleton (h : requirement messages ≠ []) :
    ∃ user, requirement messages = [user] ∧ isRole "user" user = true := by
  obtain ⟨user, rest, hcons⟩ := List.exists_cons_of_ne_nil h
  have hle : (requirement messages).length ≤ 1 :=
    (List.length_filter_le _ _).trans (List.length_take_le _ _)
  rw [hcons, List.length_cons] at hle
  have hnil : rest = [] := List.eq_nil_of_length_eq_zero (by omega)
  exact ⟨user, by rw [hcons, hnil], isRole_of_mem_requirement (by rw [hcons]; simp)⟩

/-- The middle, by what stands behind the head. -/
theorem middle_of_drop {keep : ℕ} {rest : List Members}
    (h : messages.drop (headLength messages) = rest) :
    middle keep messages =
      rest.take (if keep < rest.length then rest.length - keep else rest.length) := by
  have hlength : rest.length = messages.length - headLength messages := by
    rw [← h, List.length_drop]
  rw [middle, List.drop_take, h]
  congr 1
  unfold tail
  rw [hlength]
  split_ifs
  · rw [List.length_drop]
    omega
  · simp

/-- Behind a user message, only summaries and receipts are left to drop. -/
theorem dropped_again_of_requirement {keep : ℕ} {lines : List PyStr}
    (h : requirement messages ≠ []) :
    dropped keep (front printable messages keep lines openOperations ++ tail keep messages) =
      [] := by
  obtain ⟨user, huser, hrole⟩ := requirement_eq_singleton h
  have hnot : isRole "system" user = false := by
    rw [isRole_iff] at hrole
    simp [isRole, hrole]
  obtain ⟨between, hbetween⟩ : ∃ between, between =
      notes printable messages keep lines openOperations := ⟨_, rfl⟩
  have hshape : front printable messages keep lines openOperations ++ tail keep messages =
      protectedSystem messages ++ user :: (between ++ tail keep messages) := by
    simp [front, huser, notes, hbetween]
  have hsystem : protectedSystem (protectedSystem messages ++
      user :: (between ++ tail keep messages)) = protectedSystem messages := by
    rw [protectedSystem_append fun m hm => isRole_of_mem_protectedSystem hm]
    simp [protectedSystem, hnot]
  have hrequirement : requirement (protectedSystem messages ++
      user :: (between ++ tail keep messages)) = [user] := by
    rw [requirement_append fun m hm => isRole_of_mem_protectedSystem hm, requirement_eq]
    simp [hnot, hrole]
  have hdrop : (protectedSystem messages ++ user :: (between ++ tail keep messages)).drop
      (headLength (protectedSystem messages ++ user :: (between ++ tail keep messages))) =
        between ++ tail keep messages := by
    rw [headLength, hsystem, hrequirement, List.length_singleton, List.drop_length_add_append]
    rfl
  rw [hshape, dropped_eq_nil_iff, middle_of_drop hdrop]
  intro m hm
  -- The middle stops in front of the old tail.
  have hmem : m ∈ between := by
    have hne : 1 ≤ between.length := by
      simp [hbetween, notes]
      omega
    have hle : (tail keep messages).length ≤ keep := length_tail_le keep
    rw [List.take_append_of_le_length] at hm
    · exact List.mem_of_mem_take hm
    · rw [List.length_append]
      rcases length_tail messages keep with hnil | hfull
      · rw [hnil, List.length_nil]
        split_ifs <;> omega
      · split_ifs <;> omega
  exact isProtected_of_mem_notes (hbetween ▸ hmem)

/-- Without a user message behind the head, everything in front of the tail is the head of the
compacted history, and the tail is its middle. -/
theorem dropped_again_of_no_requirement {keep : ℕ} {lines : List PyStr}
    (h : requirement messages = []) :
    dropped keep (front printable messages keep lines openOperations ++ tail keep messages) =
      dropped keep (tail keep messages) := by
  have hsystem : ∀ m ∈ front printable messages keep lines openOperations,
      isRole "system" m = true := by
    intro m hm
    rw [front, h, List.append_nil, List.append_assoc, List.append_assoc,
      List.mem_append, ← List.append_assoc, ← notes] at hm
    rcases hm with hm | hm
    · exact isRole_of_mem_protectedSystem hm
    · exact isRole_of_isProtected (isProtected_of_mem_notes hm)
  generalize tail keep messages = last
  generalize front printable messages keep lines openOperations = first at hsystem ⊢
  have hdrop : (first ++ last).drop (headLength (first ++ last)) = last.drop (headLength last) := by
    rw [headLength, protectedSystem_append hsystem, requirement_append hsystem, List.length_append,
      Nat.add_assoc, ← headLength, List.drop_length_add_append]
  rw [dropped, dropped, middle_of_drop hdrop, middle_of_drop rfl]

theorem toolCalls_system (text : PyStr) :
    (toolCalls [("role", .str "system"), ("content", .str text)]).isSome = true := by
  simp [toolCalls, Members.get, Dict.get?, pyOr, Json.truthy, iterate]

theorem mem_of_mem_middle {keep : ℕ} {m : Members} (h : m ∈ middle keep messages) :
    m ∈ messages :=
  List.mem_of_mem_take (List.mem_of_mem_drop h)

theorem mem_of_mem_tail {keep : ℕ} {m : Members} (h : m ∈ tail keep messages) : m ∈ messages := by
  rw [← drop_tail] at h
  exact List.mem_of_mem_drop h

theorem exists_summaryLines (printable : CodePoint → Bool) (messages : List Members)
    (h : ∀ m ∈ messages, (toolCalls m).isSome = true) :
    ∃ lines, messages.mapM (summaryLine printable) = some lines := by
  induction messages with
  | nil => exact ⟨[], rfl⟩
  | cons m ms ih =>
    obtain ⟨hm, hms⟩ := List.forall_mem_cons.mp h
    obtain ⟨lines, hlines⟩ := ih hms
    obtain ⟨line, hline⟩ : ∃ line, summaryLine printable m = some line :=
      ⟨_, summaryLine_eq_some.mpr ⟨hm, rfl⟩⟩
    rw [mapM_eq_some] at hlines
    refine ⟨line :: lines, mapM_eq_some.mpr ?_⟩
    rw [List.map_cons, List.map_cons, hlines, hline]

/-- What stands in front of the tail can be counted. -/
theorem toolCalls_of_mem_front {keep : ℕ} {lines : List PyStr} {m : Members}
    (h : ∀ m ∈ messages, (toolCalls m).isSome = true)
    (hm : m ∈ front printable messages keep lines openOperations) :
    (toolCalls m).isSome = true := by
  have hhead : ∀ m ∈ protectedSystem messages ++ requirement messages, m ∈ messages := by
    rw [← take_headLength]
    exact fun m hm => List.mem_of_mem_take hm
  simp only [front, List.mem_append, List.mem_singleton] at hm hhead
  rcases hm with ((hm | hm) | rfl) | hm
  · exact h m (hhead m hm)
  · exact h m (mem_of_mem_middle (List.mem_filter.mp hm).1)
  · exact toolCalls_system _
  · unfold receipt at hm
    split at hm
    · simp at hm
    · rw [List.mem_singleton.mp hm]
      exact toolCalls_system _

/-- A history that can be counted can be compacted. -/
theorem exists_compactHistory (openOperations : List Json) {n : ℕ} (hbudget : 0 < budgetChars) (hkeep : 1 ≤ keepTail)
    (hchars : historyChars printable messages = some n) :
    ∃ result, compactHistory printable messages budgetChars openOperations keepTail =
      .ok result := by
  have hcalls := (historyChars_eq_some.mp hchars).1
  obtain ⟨lines, hlines⟩ := exists_summaryLines printable (dropped keepTail.toNat messages)
    fun m hm => hcalls m (mem_of_mem_middle (List.mem_filter.mp hm).1)
  obtain ⟨after, hafter⟩ : ∃ after, historyChars printable
      (front printable messages keepTail.toNat (lines.drop (lines.length - 8)) openOperations ++
        tail keepTail.toNat messages) = some after := by
    refine ⟨_, historyChars_eq_some.mpr ⟨fun m hm => ?_, rfl⟩⟩
    rcases List.mem_append.mp hm with hm | hm
    · exact toolCalls_of_mem_front hcalls hm
    · exact hcalls m (mem_of_mem_tail hm)
  simp only [compactHistory, require, hbudget, hkeep, decide_true, if_true, hchars, orRaise, bind,
    Except.bind]
  split_ifs
  · exact ⟨_, rfl⟩
  · rw [hlines]
    dsimp only
    rw [hafter]
    exact ⟨_, rfl⟩

/-- A compaction with the same parameters does not make a compacted history longer : it changed
nothing or changes nothing, or the last messages, if it drops them, are at least as long as what
replaces them. -/
def StaysSmall (printable : CodePoint → Bool) (messages : List Members) (budgetChars : ℤ)
    (openOperations : List Json) (keep : ℕ) : Prop :=
  (totalChars printable messages : ℤ) ≤ budgetChars ∨ dropped keep messages = [] ∨
    requirement messages ≠ [] ∨
    (totalChars printable messages + summarySize printable (dropped keep messages) +
        receiptSize printable openOperations : ℤ) ≤
      budgetChars + totalChars printable (dropped keep messages) ∨
    dropped keep (tail keep messages) = [] ∨
    Pays printable openOperations (dropped keep (tail keep messages))

/-- For every history and every parameters : the compacted history is not longer exactly when it
is the same, or what is dropped is at least as long as what replaces it; and a second compaction
does not make it longer exactly when it stays small. -/
theorem compaction_shrinks_iff
    (hok : compactHistory printable messages budgetChars openOperations keepTail = .ok result) :
    ∃ before after, historyChars printable messages = some before ∧
      historyChars printable result.messages = some after ∧
      (after ≤ before ↔ (before : ℤ) ≤ budgetChars ∨ dropped keepTail.toNat messages = [] ∨
        Pays printable openOperations (dropped keepTail.toNat messages)) ∧
      ∃ again last, compactHistory printable result.messages budgetChars openOperations keepTail =
          .ok again ∧ historyChars printable again.messages = some last ∧
        (last ≤ after ↔
          StaysSmall printable messages budgetChars openOperations keepTail.toNat) := by
  obtain ⟨hbudget, hkeep, before, hbefore, hcases⟩ := compactHistory_over hok
  obtain ⟨after, hafter⟩ : ∃ after, historyChars printable result.messages = some after := by
    rcases hcases with ⟨-, hsame⟩ | ⟨-, -, -, after, -, -, hafter⟩
    · exact ⟨before, by rw [hsame, hbefore]⟩
    · exact ⟨after, hafter⟩
  obtain ⟨again, hagain⟩ := exists_compactHistory openOperations hbudget hkeep hafter
  obtain ⟨-, -, after', hafter', hcases'⟩ := compactHistory_over hagain
  obtain rfl := Option.some.inj (hafter.symm.trans hafter')
  obtain ⟨last, hlast⟩ : ∃ last, historyChars printable again.messages = some last := by
    rcases hcases' with ⟨-, hsame⟩ | ⟨-, -, -, last, -, -, hlast⟩
    · exact ⟨after, by rw [hsame, hafter]⟩
    · exact ⟨last, hlast⟩
  refine ⟨before, after, hbefore, hafter, shrinks_iff hbefore hafter hok, again, last, hagain,
    hlast, (shrinks_iff hafter hlast hagain).trans ?_⟩
  have hbeforeTotal := (historyChars_eq_some.mp hbefore).2
  have hafterTotal := (historyChars_eq_some.mp hafter).2
  rw [StaysSmall, hbeforeTotal]
  rcases hcases with ⟨hcut, hsame⟩ | ⟨hover, hdropped, lines, -, hlines, hmessages, -⟩
  · -- Nothing was dropped, and the second compaction drops nothing either.
    rw [hsame, hbefore] at hafter
    obtain rfl := Option.some.inj hafter
    rw [hsame]
    rcases hcut with hcut | hcut
    · exact ⟨fun _ => .inl hcut, fun _ => .inl hcut⟩
    · exact ⟨fun _ => .inr (.inl hcut), fun _ => .inr (.inl hcut)⟩
  · have htotal := totalChars_compacted openOperations hlines
    rw [← hmessages, hafterTotal, hbeforeTotal] at htotal
    have hfirst : ¬((before : ℤ) ≤ budgetChars) := not_le.mpr hover
    by_cases hrequirement : requirement messages = []
    · rw [hmessages, dropped_again_of_no_requirement hrequirement]
      have hwithin : (after : ℤ) ≤ budgetChars ↔
          (before + summarySize printable (dropped keepTail.toNat messages) +
            receiptSize printable openOperations : ℤ) ≤
              budgetChars + totalChars printable (dropped keepTail.toNat messages) := by
        omega
      rw [hwithin]
      constructor
      · exact fun h => .inr (.inr (.inr h))
      · rintro (h | h | h | h)
        · exact absurd h hfirst
        · exact absurd h hdropped
        · exact absurd hrequirement h
        · exact h
    · rw [hmessages, dropped_again_of_requirement hrequirement]
      exact ⟨fun _ => .inr (.inr (.inl hrequirement)), fun _ => .inr (.inl rfl)⟩

/-- A history of one short answer. -/
def shortHistory : List Members :=
  [[("role", .str "assistant"), ("content", .str "ok")]]

/-- A short middle is replaced by a longer summary. -/
theorem not_shrinks_shortHistory : ∃ result,
    compactHistory (fun _ => true) shortHistory 1 [] 1 = .ok result ∧
      historyChars (fun _ => true) shortHistory = some 26 ∧
      historyChars (fun _ => true) result.messages = some 90 :=
  ⟨_, rfl, rfl, by decide⟩

theorem compaction_shrinks_iff_threeReads : ∃ result before after,
    compactHistory (fun _ => true) threeReads 1 [] 4 = .ok result ∧
      historyChars (fun _ => true) result.messages = some after ∧
      (after ≤ before ↔ (before : ℤ) ≤ 1 ∨ dropped 4 threeReads = [] ∨
        Pays (fun _ => true) [] (dropped 4 threeReads)) := by
  have hok : ∃ result, compactHistory (fun _ => true) threeReads 1 [] 4 = .ok result := ⟨_, rfl⟩
  obtain ⟨result, hok⟩ := hok
  obtain ⟨before, after, -, hafter, hiff, -⟩ := compaction_shrinks_iff hok
  exact ⟨result, before, after, hok, hafter, hiff⟩

end Icode.Compaction
