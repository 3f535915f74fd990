import Icode.EventSchema

/-!
# The lines of an event file

The exporter and the verifier read `ticket/events.jsonl` the same way : the file is decoded
as UTF-8 and cut at `\n`, `\r` and `\r\n`, a line is stripped, a blank line is skipped, and
every other line is a JSON object. `eventStream` is what they see of it, the events with
the numbers of their lines, and why the reading stopped if it did not reach the end.

Every event that is read has distinct keys (`eventStream_wf`), and a file that is read to its
end gives the same events every time (`eventStream_eq_of_complete`).
-/

namespace Icode

open Py

/-! ## Lines -/

/-- `_MAX_EVENT_CHAIN_LINE_BYTES` -/
def maxEventChainLineBytes : ℕ := 1024 * 1024

/-- `_MAX_EVENT_CHAIN_TOTAL_BYTES` -/
def maxEventChainTotalBytes : ℕ := 64 * 1024 * 1024

/-- `_MAX_EVENT_CHAIN_EVENT_COUNT` -/
def maxEventChainEventCount : ℕ := 100000

/-- The lines of a text stream that is opened with `newline=""`, with their ends; `\r\n` is one
end. -/
def textLines : PyStr → List PyStr
  | [] => []
  | c :: cs =>
    if c = .scalar '\n' ∨ (c = .scalar '\r' ∧ cs.head? ≠ some (.scalar '\n')) then
      [c] :: textLines cs
    else
      match textLines cs with
      | [] => [[c]]
      | line :: lines => (c :: line) :: lines

/-- The line has its end. -/
def isEnded (line : PyStr) : Bool :=
  line.getLast? == some (.scalar '\n') || line.getLast? == some (.scalar '\r')

/-- Why the reading of the events stops before the end of the file. -/
inductive StreamStop where
  /-- 事件链超过总输入字节数上限 -/
  | totalBytes
  /-- 第 n 行超过单条物理行字节数上限 -/
  | lineBytes (lineno : ℕ)
  /-- 事件链超过最大事件条数上限 -/
  | eventCount
  /-- The file is no UTF-8. -/
  | unicode
  /-- 第 n 行 JSON 不可解析 -/
  | json (lineno : ℕ) (e : JsonError)
  /-- 第 n 行结构无效（必须是对象） -/
  | notObject (lineno : ℕ)

/-- The lines `readline` returns, and what follows them. Of a file that is no UTF-8 the decoder
gives some of the lines before the first invalid byte, `delivered` of them: a line without its end
only when it is too long. -/
def fileLines (content : Bytes) (delivered : ℕ) : List PyStr × Option StreamStop :=
  let (text, rest) := decodePrefix content
  if rest.isEmpty then (textLines text, none)
  else
    (((textLines text).filter fun line => isEnded line || maxEventChainLineBytes < line.length).take
      delivered, some .unicode)

/-! ## Events -/

/-- The loop over the lines, after `lineno` lines with `total` bytes and `count` events. -/
def frameLines (last : Option StreamStop) (lineno total count : ℕ) :
    List PyStr → List (ℕ × Members) × Option StreamStop
  | [] => ([], last)
  | line :: lines =>
    let lineBytes := (encodePass line).length
    if maxEventChainLineBytes < line.length ∨ maxEventChainLineBytes < lineBytes then
      ([], some (.lineBytes (lineno + 1)))
    else if maxEventChainTotalBytes < total + lineBytes then ([], some .totalBytes)
    else if (strip line).isEmpty then frameLines last (lineno + 1) (total + lineBytes) count lines
    else if maxEventChainEventCount ≤ count then ([], some .eventCount)
    else
      match loadsJsonValue (strip line) with
      | .error e => ([], some (.json (lineno + 1) e))
      | .ok (.obj event) =>
        let rest := frameLines last (lineno + 1) (total + lineBytes) (count + 1) lines
        ((lineno + 1, event) :: rest.1, rest.2)
      | .ok _ => ([], some (.notObject (lineno + 1)))

/-- The events of a file, with the numbers of their lines. -/
def eventStream (content : Bytes) (delivered : ℕ) : List (ℕ × Members) × Option StreamStop :=
  if maxEventChainTotalBytes < content.length then ([], some .totalBytes)
  else
    let (lines, last) := fileLines content delivered
    frameLines last 0 0 0 lines

theorem frameLines_wf {last : Option StreamStop} {lines : List PyStr} :
    ∀ {lineno total count : ℕ}, ∀ e ∈ (frameLines last lineno total count lines).1,
      (Json.obj e.2).WF := by
  induction lines with
  | nil => simp [frameLines]
  | cons line lines ih =>
    intro lineno total count e he
    unfold frameLines at he
    dsimp only at he
    split_ifs at he
    · simp at he
    · simp at he
    · exact ih e he
    · simp at he
    · split at he
      · simp at he
      · next event hloads =>
        rcases List.mem_cons.mp he with rfl | he
        · exact loadsJsonValue_wf hloads
        · exact ih e he
      · simp at he

/-- The events that are read have distinct keys. -/
theorem eventStream_wf {content : Bytes} {delivered : ℕ} :
    ∀ e ∈ (eventStream content delivered).1, (Json.obj e.2).WF := by
  unfold eventStream
  split_ifs
  · simp
  · exact frameLines_wf

theorem last_eq_none_of_frameLines {last : Option StreamStop} {lines : List PyStr} :
    ∀ {lineno total count : ℕ}, (frameLines last lineno total count lines).2 = none →
      last = none := by
  induction lines with
  | nil => exact id
  | cons line lines ih =>
    intro lineno total count h
    unfold frameLines at h
    dsimp only at h
    split_ifs at h
    · exact ih h
    · split at h
      · simp at h
      · exact ih h
      · simp at h

theorem fileLines_eq_of_complete {content : Bytes} {delivered : ℕ}
    (h : (fileLines content delivered).2 = none) (delivered' : ℕ) :
    fileLines content delivered' = fileLines content delivered := by
  unfold fileLines at h ⊢
  by_cases hrest : (decodePrefix content).2.isEmpty = true
  · simp only [hrest, if_true]
  · simp [hrest] at h

/-- A file that is read to its end is read so every time. -/
theorem eventStream_eq_of_complete {content : Bytes} {delivered : ℕ}
    (h : (eventStream content delivered).2 = none) (delivered' : ℕ) :
    eventStream content delivered' = eventStream content delivered := by
  unfold eventStream at h ⊢
  split_ifs at h ⊢
  rw [fileLines_eq_of_complete (last_eq_none_of_frameLines h) delivered']

example : textLines (lit "a\r\nb\rc\n") = [lit "a\r\n", lit "b\r", lit "c\n"] := by decide

end Icode
