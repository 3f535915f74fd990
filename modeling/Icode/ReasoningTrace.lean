import Icode.AnchorAttach
import Icode.JoinedText
import Icode.JsonSpaced
import Icode.PyValue
import Icode.SplitLines

/-!
# The trace of the reasoning gate

`append_trace` adds rows to the trace of a ticket, one JSON object and a line feed for each, and
`read_trace` reads them back. The writer escapes the control characters and leaves all others as
they are; the reader cuts the text at every Unicode line boundary. So three characters, that the
writer leaves and the reader cuts at, take a row apart (`Unbroken`), and without them the rows come
back in the order in which they were added (`readTrace_iff`).
-/

namespace Icode.Reasoning

open Py

/-! ## Rows -/

/-- A line of the trace. -/
structure TraceRow where
  ticketId : PyStr
  step : PyStr
  tier : PyStr
  defaultTier : PyStr
  triggers : List PyStr
  mechanism : PyStr
  attempted : Bool
  result : PyStr
  degradedReason : Option PyStr
  overInvoked : Bool
  /-- The field `at`. -/
  written : PyStr
  schemaVersion : ℤ
  provider : PyStr
  providerKind : PyStr
  deliberationSteps : ℤ
  deliberationDigest : PyStr

/-- An aware local time, with the amount its zone is off UTC. -/
structure LocalTime where
  year : ℕ
  month : ℕ
  day : ℕ
  hour : ℕ
  minute : ℕ
  second : ℕ
  behind : Bool
  offsetHour : ℕ
  offsetMinute : ℕ
  offsetSecond : ℕ
  offsetMicrosecond : ℕ

/-- `%0{width}d` -/
def padded (width n : ℕ) : List Char :=
  let digits := Nat.toDigits 10 n
  List.replicate (width - digits.length) '0' ++ digits

/-- `isoformat(timespec="seconds")`. -/
def LocalTime.isoformat (t : LocalTime) : List Char :=
  padded 4 t.year ++ '-' :: padded 2 t.month ++ '-' :: padded 2 t.day ++ 'T' :: padded 2 t.hour ++
    ':' :: padded 2 t.minute ++ ':' :: padded 2 t.second ++
    (if t.behind then '-' else '+') :: padded 2 t.offsetHour ++ ':' :: padded 2 t.offsetMinute ++
    (if t.offsetSecond = 0 ∧ t.offsetMicrosecond = 0 then []
      else ':' :: padded 2 t.offsetSecond ++
        if t.offsetMicrosecond = 0 then [] else '.' :: padded 6 t.offsetMicrosecond)

/-- `_now_iso()`, when the clock shows `now`. -/
def nowIso (now : LocalTime) : PyStr :=
  ofChars now.isoformat

/-- `TraceRow.as_dict`. -/
def TraceRow.asDict (r : TraceRow) (now : LocalTime) : Members :=
  [("schema_version", .int r.schemaVersion),
    ("ticket_id", .str r.ticketId),
    ("step", .str r.step),
    ("tier", .str r.tier),
    ("default_tier", .str r.defaultTier),
    ("triggers", .arr (r.triggers.map .str)),
    ("mechanism", .str r.mechanism),
    ("attempted", .bool r.attempted),
    ("result", .str r.result),
    ("degraded_reason", (r.degradedReason.map .str).getD .null),
    ("over_invoked", .bool r.overInvoked),
    ("at", .str (if r.written.isEmpty then nowIso now else r.written)),
    ("provider", .str r.provider),
    ("provider_kind", .str r.providerKind),
    ("deliberation_steps", .int r.deliberationSteps),
    ("deliberation_digest", .str r.deliberationDigest)]

/-- A row, and what the clock shows when its dict is made. -/
abbrev Entry := TraceRow × LocalTime

/-- The dict of a row. -/
def Entry.dict (e : Entry) : Json :=
  .obj (e.1.asDict e.2)

/-! ## The file -/

/-- `json.dumps(r.as_dict(), ensure_ascii=False)`; `None` for the `ValueError` of an `int` with too
many digits. -/
def Entry.dumps (e : Entry) : Option PyStr := do
  let _ ← intText? e.1.schemaVersion
  let _ ← intText? e.1.deliberationSteps
  pure e.dict.dumpsSpaced

/-- The text that is added to the file. -/
def payload (rows : List Entry) : Option PyStr := do
  let lines ← rows.mapM Entry.dumps
  pure (lines.flatMap (· ++ lit "\n"))

/-- `append_trace`: what it returns, unless it raises, and the file. The file is opened before the
text is encoded. -/
def appendTrace (file : Option Bytes) (rows : List Entry) : Option ℕ × Option Bytes :=
  match payload rows with
  | none => (none, file)
  | some text =>
    match encode text with
    | none => (none, some (file.getD []))
    | some content => (some text.length, some (file.getD [] ++ content))

/-- What `read_trace` raises. -/
inductive TraceError where
  /-- `UnicodeDecodeError` -/
  | unicode
  /-- `JSONDecodeError`, or another error of `json.loads`. -/
  | json (e : JsonError)

/-- `read_trace`. -/
def readTrace : Option Bytes → Except TraceError (List Json)
  | none => .ok []
  | some content =>
    match decode content with
    | none => .error .unicode
    | some text =>
      mapAll (fun line => (loadsPlain line).mapError .json)
        (strippedLines (universalNewlines text))

/-! ## What is claimed -/

/-- The file after some calls of `append_trace`. -/
def fileAfter (calls : List (List Entry)) : Option Bytes :=
  calls.foldl (fun file rows => (appendTrace file rows).2) none

/-- The strings of a row. -/
def TraceRow.texts (r : TraceRow) : List PyStr :=
  [r.ticketId, r.step, r.tier, r.defaultTier] ++ r.triggers ++ [r.mechanism, r.result] ++
    r.degradedReason.toList ++ [r.written, r.provider, r.providerKind, r.deliberationDigest]

/-- The numbers have digits that Python writes, and the strings are valid Unicode. -/
def TraceRow.writable (r : TraceRow) : Bool :=
  (intText? r.schemaVersion).isSome && (intText? r.deliberationSteps).isSome &&
    r.texts.all fun text => text.all isScalar

/-- The rows of the calls that can be written, in the order in which they are added. -/
def appended (calls : List (List Entry)) : List Entry :=
  (calls.filter fun rows => rows.all fun e => e.1.writable).flatten

/-- The line boundaries that the encoder does not escape. -/
def isRawBoundary (c : CodePoint) : Bool :=
  c.ord == 0x85 || c.ord == 0x2028 || c.ord == 0x2029

/-- No string of the row has a line boundary that is written as it is. -/
def TraceRow.Unbroken (r : TraceRow) : Prop :=
  ∀ text ∈ r.texts, ∀ c ∈ text, isRawBoundary c = false

/-! ## The text of the file -/

/-- The text of some rows. -/
def traceText (rows : List Entry) : PyStr :=
  rows.flatMap fun e => e.dict.dumpsSpaced ++ lit "\n"

theorem plain_dict_iff {e : Entry} : e.dict.Plain ↔
    (Nat.toDigits 10 e.1.schemaVersion.natAbs).length ≤ intMaxStrDigits ∧
      (Nat.toDigits 10 e.1.deliberationSteps.natAbs).length ≤ intMaxStrDigits := by
  have hreason : Json.Plain ((e.1.degradedReason.map .str).getD .null) := by
    cases e.1.degradedReason <;> trivial
  have hstr : ∀ s, Json.Plain (.str s) := fun _ => trivial
  have hbool : ∀ b, Json.Plain (.bool b) := fun _ => trivial
  have hint : ∀ n, Json.Plain (.int n) ↔
      (Nat.toDigits 10 n.natAbs).length ≤ intMaxStrDigits := fun _ => Iff.rfl
  simp [Entry.dict, TraceRow.asDict, hreason, hstr, hbool, hint]

theorem dumps_eq_some {e : Entry} {line : PyStr} :
    e.dumps = some line ↔ e.dict.Plain ∧ line = e.dict.dumpsSpaced := by
  rw [plain_dict_iff]
  unfold Entry.dumps intText?
  split_ifs with hversion hsteps <;> simp [*, eq_comm]

theorem mapM_dumps_eq_some {rows : List Entry} : ∀ {lines : List PyStr},
    rows.mapM Entry.dumps = some lines ↔
      (∀ e ∈ rows, e.dict.Plain) ∧ lines = rows.map fun e => e.dict.dumpsSpaced := by
  induction rows with
  | nil => simp [eq_comm]
  | cons e rows ih =>
    intro lines
    simp only [List.mapM_cons, Option.bind_eq_bind, Option.bind_eq_some_iff, dumps_eq_some, ih,
      List.forall_mem_cons, List.map_cons, Option.pure_def, Option.some.injEq]
    constructor
    · rintro ⟨_, ⟨he, rfl⟩, _, ⟨hrows, rfl⟩, rfl⟩
      exact ⟨⟨he, hrows⟩, rfl⟩
    · rintro ⟨⟨he, hrows⟩, rfl⟩
      exact ⟨_, ⟨he, rfl⟩, _, ⟨hrows, rfl⟩, rfl⟩

theorem payload_eq_some {rows : List Entry} {text : PyStr} :
    payload rows = some text ↔ (∀ e ∈ rows, e.dict.Plain) ∧ text = traceText rows := by
  simp only [payload, Option.bind_eq_bind, Option.bind_eq_some_iff, mapM_dumps_eq_some,
    Option.pure_def, Option.some.injEq]
  constructor
  · rintro ⟨_, ⟨hrows, rfl⟩, rfl⟩
    exact ⟨hrows, List.flatMap_map ..⟩
  · rintro ⟨hrows, rfl⟩
    exact ⟨_, ⟨hrows, rfl⟩, List.flatMap_map ..⟩

/-! ## The characters of a row -/

theorem mem_padded {width n : ℕ} {c : Char} (h : c ∈ padded width n) : c.isDigit = true := by
  rcases List.mem_append.mp h with h | h
  · rw [List.eq_of_mem_replicate h]
    rfl
  · exact Nat.isDigit_of_mem_toDigits (by decide) (by decide) h

/-- The clock shows ASCII characters. -/
theorem lt_of_mem_isoformat (t : LocalTime) : ∀ c ∈ t.isoformat, c.toNat < 0x80 := by
  have hdigits : ∀ width n : ℕ, (∀ c ∈ padded width n, c.toNat < 0x80) ↔ True := by
    refine fun width n => iff_true_intro fun c hc => ?_
    have h := mem_padded hc
    simp only [Char.isDigit, Bool.and_eq_true, decide_eq_true_eq] at h
    have h9 : c.toNat ≤ 57 := UInt32.le_iff_toNat_le.mp h.2
    omega
  have hmarks : '-'.toNat < 0x80 ∧ 'T'.toNat < 0x80 ∧ ':'.toNat < 0x80 ∧ '.'.toNat < 0x80 ∧
      '+'.toNat < 0x80 := by decide
  have hnil : (∀ c ∈ ([] : List Char), c.toNat < 0x80) ↔ True := by simp
  unfold LocalTime.isoformat
  split_ifs <;> simp only [List.forall_mem_append, List.forall_mem_cons, hdigits, hmarks, hnil,
    and_true]

theorem isRawBoundary_of_lt {c : CodePoint} (h : c.ord < 0x80) : isRawBoundary c = false := by
  simp only [isRawBoundary, Bool.or_eq_false_iff, beq_eq_false_iff_ne]
  omega

/-- The boundaries that are written as they are are those from the blank on. -/
theorem isRawBoundary_eq {c : CodePoint} (h : 0x20 ≤ c.ord) :
    isRawBoundary c = isLineBoundary c := by
  rw [Bool.eq_iff_iff]
  simp only [isRawBoundary, isLineBoundary, Bool.or_eq_true, Bool.and_eq_true, decide_eq_true_eq,
    beq_iff_eq]
  omega

theorem holdsPrinted_boundary : Json.HoldsPrinted (!isLineBoundary ·) := by
  intro c hle hlt
  have hraw : isRawBoundary (.scalar c) = isLineBoundary (.scalar c) := isRawBoundary_eq hle
  have hnone : isRawBoundary (.scalar c) = false :=
    isRawBoundary_of_lt (show c.toNat < 0x80 by omega)
  simp [← hraw, hnone]

theorem holdsPrinted_return : Json.HoldsPrinted (· != .scalar '\r') := by
  intro c hle _
  rw [bne_iff_ne, ne_eq, CodePoint.scalar.injEq]
  rintro rfl
  exact absurd hle (by decide)

/-- A row has no carriage return. -/
theorem return_notMem_dumpsSpaced {e : Entry} (h : e.dict.Plain) :
    CodePoint.scalar '\r' ∉ e.dict.dumpsSpaced := by
  intro hmem
  have hall := (Json.all_dumpsSpaced_iff holdsPrinted_return h).mpr fun s _ c _ hle => by
    rw [bne_iff_ne]
    rintro rfl
    exact absurd hle (by decide)
  exact absurd (List.all_eq_true.mp hall _ hmem) (by decide)

/-- The text has no line boundary that is written as it is. -/
def Plainly (text : PyStr) : Prop :=
  ∀ c ∈ text, isRawBoundary c = false

theorem plainly_of_lt {text : PyStr} (h : ∀ c ∈ text, c.ord < 0x80) : Plainly text :=
  fun c hc => isRawBoundary_of_lt (h c hc)

/-- The clock shows ASCII characters. -/
theorem lt_of_mem_nowIso {now : LocalTime} {c : CodePoint} (hc : c ∈ nowIso now) :
    c.ord < 0x80 := by
  obtain ⟨d, hd, rfl⟩ := List.mem_map.mp hc
  exact lt_of_mem_isoformat now d hd

theorem lt_of_mem_name {e : Entry} : ∀ m ∈ e.1.asDict e.2, ∀ c ∈ m.1, c.ord < 0x80 := by
  have hnames : ∀ name ∈ (e.1.asDict e.2).map Prod.fst, ∀ c ∈ name, c.ord < 0x80 := by
    simp only [TraceRow.asDict, List.map_cons, List.map_nil]
    decide
  exact fun m hm => hnames m.1 (List.mem_map_of_mem hm)

/-- The strings of a dict are those of its row, and ASCII ones. -/
theorem forall_texts_iff {q : PyStr → Prop} (hq : ∀ s : PyStr, (∀ c ∈ s, c.ord < 0x80) → q s)
    {e : Entry} : (∀ s ∈ e.dict.texts, q s) ↔ ∀ s ∈ e.1.texts, q s := by
  have hname : ∀ m ∈ e.1.asDict e.2, (∀ s ∈ m.1 :: m.2.texts, q s) ↔ ∀ s ∈ m.2.texts, q s := by
    intro m hm
    rw [List.forall_mem_cons, and_iff_right (hq m.1 (lt_of_mem_name m hm))]
  have hwritten : q (if e.1.written.isEmpty then nowIso e.2 else e.1.written) ↔
      q e.1.written := by
    split_ifs with h
    · rw [List.isEmpty_iff.mp h]
      exact iff_of_true (hq _ fun c => lt_of_mem_nowIso) (hq _ (by simp))
    · rfl
  have hreason : (∀ s ∈ Json.texts ((e.1.degradedReason.map .str).getD .null), q s) ↔
      ∀ s ∈ e.1.degradedReason.toList, q s := by
    cases e.1.degradedReason <;> simp [Json.texts]
  have htriggers : (∀ s ∈ Json.texts (.arr (e.1.triggers.map .str)), q s) ↔
      ∀ s ∈ e.1.triggers, q s := by
    rw [Json.texts_arr, List.forall_mem_flatMap, List.forall_mem_map]
    simp [Json.texts]
  rw [Entry.dict, Json.texts_obj, List.forall_mem_flatMap, forall₂_congr hname]
  simp only [TraceRow.asDict, List.forall_mem_cons, hreason, htriggers]
  simp only [Json.texts, List.forall_mem_cons, hwritten, TraceRow.texts, List.forall_mem_append,
    List.not_mem_nil, false_implies, implies_true, and_true, true_and, and_assoc]

/-- A row is one line exactly when it is not broken. -/
theorem all_dumpsSpaced_iff {e : Entry} (h : e.dict.Plain) :
    e.dict.dumpsSpaced.all (!isLineBoundary ·) = true ↔ e.1.Unbroken := by
  have htext : ∀ s : PyStr, (∀ c ∈ s, 0x20 ≤ c.ord → (!isLineBoundary c) = true) ↔ Plainly s := by
    intro s
    refine forall₂_congr fun c _ => ?_
    by_cases hle : 0x20 ≤ c.ord
    · simp [hle, isRawBoundary_eq hle]
    · simp [hle, isRawBoundary_of_lt (show c.ord < 0x80 by omega)]
  rw [Json.all_dumpsSpaced_iff holdsPrinted_boundary h]
  simp only [htext]
  exact forall_texts_iff fun s => plainly_of_lt

/-! ## The calls -/

/-- A row that has plain numbers is written when its strings are valid. -/
theorem all_isScalar_dumpsSpaced {e : Entry} (h : e.dict.Plain) :
    e.dict.dumpsSpaced.all isScalar = true ↔ ∀ s ∈ e.1.texts, s.all isScalar = true := by
  have hprinted : Json.HoldsPrinted isScalar := fun _ _ _ => rfl
  have hascii : ∀ s : PyStr, (∀ c ∈ s, c.ord < 0x80) → s.all isScalar = true := fun s hs =>
    List.all_eq_true.mpr fun c hc => isScalar_of_ord_lt (by have := hs c hc; omega)
  have htext : ∀ s : PyStr, (∀ c ∈ s, 0x20 ≤ c.ord → isScalar c = true) ↔
      s.all isScalar = true := by
    intro s
    rw [List.all_eq_true]
    refine forall₂_congr fun c _ => ⟨fun hc => ?_, fun hc _ => hc⟩
    by_cases hle : 0x20 ≤ c.ord
    · exact hc hle
    · exact isScalar_of_ord_lt (by omega)
  rw [Json.all_dumpsSpaced_iff hprinted h]
  simp only [htext]
  exact forall_texts_iff hascii

theorem writable_iff {e : Entry} :
    e.1.writable = true ↔ e.dict.Plain ∧ e.dict.dumpsSpaced.all isScalar = true := by
  have hint : ∀ n : ℤ, (intText? n).isSome = true ↔
      (Nat.toDigits 10 n.natAbs).length ≤ intMaxStrDigits := by
    intro n
    unfold intText?
    split_ifs with h <;> simp [h]
  rw [TraceRow.writable, Bool.and_eq_true, Bool.and_eq_true, hint, hint, List.all_eq_true,
    ← plain_dict_iff]
  exact and_congr_right fun h => (all_isScalar_dumpsSpaced h).symm

theorem encode_traceText {rows : List Entry} {content : Bytes} :
    encode (traceText rows) = some content ↔
      (∀ e ∈ rows, e.dict.dumpsSpaced.all isScalar = true) ∧
        content = encodePass (traceText rows) := by
  rw [encode_eq_some, traceText, List.all_flatMap, List.all_eq_true]
  refine and_congr_left' (forall₂_congr fun e _ => ?_)
  rw [List.all_append, Bool.and_eq_true]
  exact and_iff_left rfl

/-- A call, by what it adds to the file. -/
theorem appendTrace_file (file : Option Bytes) (rows : List Entry) :
    ((appendTrace file rows).2).getD [] = file.getD [] ++
      if rows.all fun e => e.1.writable then encodePass (traceText rows) else [] := by
  have hall : (rows.all fun e => e.1.writable) = true ↔
      (∀ e ∈ rows, e.dict.Plain) ∧ ∀ e ∈ rows, e.dict.dumpsSpaced.all isScalar = true := by
    simp only [List.all_eq_true, writable_iff, forall_and]
  unfold appendTrace
  cases hpayload : payload rows with
  | none =>
    have hnot : ¬ (rows.all fun e => e.1.writable) = true := fun h => by
      rw [payload_eq_some.mpr ⟨(hall.mp h).1, rfl⟩] at hpayload
      cases hpayload
    simp [if_neg hnot]
  | some text =>
    obtain ⟨hplain, rfl⟩ := payload_eq_some.mp hpayload
    cases hencode : encode (traceText rows) with
    | none =>
      have hnot : ¬ (rows.all fun e => e.1.writable) = true := fun h => by
        rw [encode_traceText.mpr ⟨(hall.mp h).2, rfl⟩] at hencode
        cases hencode
      simp [hencode, if_neg hnot]
    | some content =>
      obtain ⟨hvalid, rfl⟩ := encode_traceText.mp hencode
      simp [hencode, if_pos (hall.mpr ⟨hplain, hvalid⟩)]

/-- The file holds the text of some rows, and of nothing else. -/
structure IsTrace (file : Option Bytes) (rows : List Entry) : Prop where
  plain : ∀ e ∈ rows, e.dict.Plain
  valid : ∀ e ∈ rows, e.dict.dumpsSpaced.all isScalar = true
  content : file.getD [] = encodePass (traceText rows)

/-- Any calls. -/
theorem isTrace_fileAfter (calls : List (List Entry)) :
    IsTrace (fileAfter calls) (appended calls) := by
  induction calls using List.reverseRecOn with
  | nil => exact ⟨by simp [appended], by simp [appended], rfl⟩
  | append_singleton calls rows ih =>
    have hfile := appendTrace_file (fileAfter calls) rows
    have hrows : appended (calls ++ [rows]) =
        appended calls ++ if rows.all fun e => e.1.writable then rows else [] := by
      cases h : rows.all fun e => e.1.writable <;> simp [appended, h]
    rw [hrows, fileAfter, List.foldl_append]
    change IsTrace (appendTrace (fileAfter calls) rows).2 _
    split_ifs at hfile ⊢ with h
    · have hwritable := fun e he => writable_iff.mp (List.all_eq_true.mp h e he)
      refine ⟨fun e he => (List.mem_append.mp he).elim (ih.plain e) fun he => (hwritable e he).1,
        fun e he => (List.mem_append.mp he).elim (ih.valid e) fun he => (hwritable e he).2, ?_⟩
      have htext : traceText (appended calls ++ rows) =
          traceText (appended calls) ++ traceText rows := List.flatMap_append
      rw [hfile, ih.content, htext, encodePass, encodePass, encodePass, List.flatMap_append]
    · rw [List.append_nil] at hfile ⊢
      exact ⟨ih.plain, ih.valid, hfile.trans ih.content⟩

/-! ## Reading -/

theorem exists_dumpsSpaced (e : Entry) :
    ∃ mid, e.dict.dumpsSpaced = lit "\x7b" ++ mid ++ lit "\x7d" :=
  ⟨_, rfl⟩

theorem strip_dumpsSpaced (e : Entry) : strip e.dict.dumpsSpaced = e.dict.dumpsSpaced := by
  obtain ⟨mid, hmid⟩ := exists_dumpsSpaced e
  have hlast : (lit "\x7b" ++ mid ++ lit "\x7d").getLast? = some (.scalar '\x7d') := by
    rw [List.getLast?_append]
    rfl
  obtain ⟨b, hstrip, hb⟩ := strip_between (l := []) (m := lit "\x7b" ++ mid ++ lit "\x7d") (b := [])
    (by simp) (by rfl) hlast (by decide)
  rw [List.prefix_nil.mp hb] at hstrip
  simpa [hmid] using hstrip

theorem wf_dict (e : Entry) : e.dict.WF := by
  have hreason : Json.WF ((e.1.degradedReason.map .str).getD .null) := by
    cases e.1.degradedReason <;> trivial
  have hstr : ∀ s, Json.WF (.str s) := fun _ => trivial
  have hbool : ∀ b, Json.WF (.bool b) := fun _ => trivial
  have hint : ∀ n, Json.WF (.int n) := fun _ => trivial
  rw [Entry.dict, Json.wf_obj]
  constructor
  · simp only [TraceRow.asDict, Dict.keys, List.map_cons, List.map_nil]
    decide
  · simp [TraceRow.asDict, hreason, hstr, hbool, hint]

theorem loadsPlain_dumpsSpaced {e : Entry} (h : e.dict.Plain) :
    loadsPlain e.dict.dumpsSpaced = .ok e.dict :=
  loadsPlain_of_loads (Json.loads_dumpsSpaced (wf_dict e) h)

theorem traceText_cons (e : Entry) (rows : List Entry) :
    traceText (e :: rows) = e.dict.dumpsSpaced ++ lit "\n" ++ traceText rows :=
  List.flatMap_cons ..

/-- Rows that are not broken are read as they were written. -/
theorem strippedLines_traceText {rows : List Entry} (hplain : ∀ e ∈ rows, e.dict.Plain)
    (h : ∀ e ∈ rows, e.1.Unbroken) :
    strippedLines (traceText rows) = rows.map fun e => e.dict.dumpsSpaced := by
  induction rows with
  | nil => rfl
  | cons e rows ih =>
    obtain ⟨he, hrows⟩ := List.forall_mem_cons.mp h
    obtain ⟨hplain_e, hplain⟩ := List.forall_mem_cons.mp hplain
    have hne : e.dict.dumpsSpaced.isEmpty = false := by
      obtain ⟨mid, hmid⟩ := exists_dumpsSpaced e
      rw [hmid]
      rfl
    rw [traceText_cons, List.append_assoc]
    change strippedLines (_ ++ .scalar '\n' :: traceText rows) = _
    rw [strippedLines_boundary ((all_dumpsSpaced_iff hplain_e).mpr he) rfl (by decide),
      strip_dumpsSpaced, hne, ih hplain hrows]
    rfl

theorem hasInk_dumpsSpaced (e : Entry) : hasInk e.dict.dumpsSpaced = true := by
  obtain ⟨mid, hmid⟩ := exists_dumpsSpaced e
  rw [hmid, List.append_assoc, hasInk_append]
  rfl

/-- A row that is broken is two lines or more. -/
theorem two_add_le_of_broken {e : Entry} (hplain : e.dict.Plain) (h : ¬ e.1.Unbroken)
    (rest : PyStr) :
    2 + (strippedLines rest).length ≤
      (strippedLines (e.dict.dumpsSpaced ++ lit "\n" ++ rest)).length := by
  have hreturn := return_notMem_dumpsSpaced hplain
  rw [← all_dumpsSpaced_iff hplain] at h
  obtain ⟨mid, hmid⟩ := exists_dumpsSpaced e
  rw [hmid] at h hreturn ⊢
  refine two_add_le (by decide) (by decide) (by decide) (fun hr => hreturn ?_) ?_
  · rw [List.append_assoc]
    exact List.mem_append_right _ hr
  · by_contra hany
    refine h ?_
    rw [List.all_append, List.all_append, List.all_eq_not_any_not (l := mid)]
    simp only [Bool.not_not]
    rw [Bool.not_eq_true] at hany
    rw [hany]
    rfl

/-- The lines of a trace are at least as many as its rows, and more where a row is broken. -/
theorem length_le_strippedLines {rows : List Entry} (hplain : ∀ e ∈ rows, e.dict.Plain) :
    rows.length ≤ (strippedLines (traceText rows)).length ∧
      ((∃ e ∈ rows, ¬ e.1.Unbroken) → rows.length < (strippedLines (traceText rows)).length) := by
  induction rows with
  | nil => simp
  | cons e rows ih =>
    obtain ⟨hplain_e, hplain⟩ := List.forall_mem_cons.mp hplain
    obtain ⟨hle, hlt⟩ := ih hplain
    have hone := hasInk_add_le (return_notMem_dumpsSpaced hplain_e) (traceText rows)
    rw [hasInk_dumpsSpaced, Bool.toNat_true] at hone
    rw [traceText_cons, List.length_cons]
    refine ⟨by omega, fun hbroken => ?_⟩
    obtain ⟨x, hx, hx'⟩ := hbroken
    rcases List.mem_cons.mp hx with rfl | hx
    · have htwo := two_add_le_of_broken hplain_e hx' (traceText rows)
      omega
    · have hrest := hlt ⟨x, hx, hx'⟩
      omega

theorem return_notMem_traceText {rows : List Entry} (hplain : ∀ e ∈ rows, e.dict.Plain) :
    CodePoint.scalar '\r' ∉ traceText rows := by
  intro h
  obtain ⟨e, he, h⟩ := List.mem_flatMap.mp h
  rcases List.mem_append.mp h with h | h
  · exact return_notMem_dumpsSpaced (hplain e he) h
  · revert h
    decide

/-- What is read of a file of rows. -/
theorem readTrace_eq {file : Option Bytes} {rows : List Entry} (h : IsTrace file rows) :
    readTrace file = mapAll (fun line => (loadsPlain line).mapError .json)
      (strippedLines (traceText rows)) := by
  have hdecode := decode_eq_some.mpr (encode_traceText.mpr ⟨h.valid, h.content⟩)
  cases file with
  | none =>
    have hnil : traceText rows = [] := by
      rw [Option.getD_none] at hdecode
      exact (Option.some.inj hdecode).symm
    rw [hnil]
    rfl
  | some content =>
    rw [Option.getD_some] at hdecode
    simp only [readTrace, hdecode]
    rw [universalNewlines_of_not_mem (return_notMem_traceText h.plain)]

/-- Rows that are read back are not broken. -/
theorem unbroken_of_readTrace {file : Option Bytes} {rows : List Entry} (h : IsTrace file rows)
    (hread : readTrace file = .ok (rows.map Entry.dict)) : ∀ e ∈ rows, e.1.Unbroken := by
  rw [readTrace_eq h] at hread
  by_contra hbroken
  push Not at hbroken
  have hlen := (mapAll_eq_ok.mp hread).length_eq
  have hlt := (length_le_strippedLines h.plain).2 hbroken
  rw [List.length_map] at hlen
  omega

/-- The rows that were added are read back, in their order, exactly when no string of them has a
line boundary that the encoder leaves as it is. -/
theorem readTrace_iff (calls : List (List Entry)) :
    readTrace (fileAfter calls) = .ok ((appended calls).map Entry.dict) ↔
      ∀ e ∈ appended calls, e.1.Unbroken := by
  have htrace := isTrace_fileAfter calls
  refine ⟨unbroken_of_readTrace htrace, fun h => ?_⟩
  rw [readTrace_eq htrace, strippedLines_traceText htrace.plain h, mapAll_eq_ok,
    List.forall₂_map_left_iff, List.forall₂_map_right_iff, List.forall₂_same]
  intro e he
  rw [loadsPlain_dumpsSpaced (htrace.plain e he)]
  rfl

/-- A row whose reason has a line separator. -/
def brokenRow : TraceRow where
  ticketId := "t1"
  step := "s"
  tier := "L0"
  defaultTier := "L0"
  triggers := []
  mechanism := "deterministic_checks"
  attempted := false
  result := "degraded"
  degradedReason := some [.scalar '\u2028']
  overInvoked := false
  written := "2026-01-01T00:00:00+00:00"
  schemaVersion := 1
  provider := ""
  providerKind := "in_repo"
  deliberationSteps := 0
  deliberationDigest := ""

/-- The row, written at some time. -/
def brokenEntry : Entry :=
  (brokenRow, ⟨2026, 1, 1, 0, 0, 0, false, 0, 0, 0, 0⟩)

/-- A row of valid strings is added, and not read back. -/
theorem brokenRow_lost : ¬ ∀ calls : List (List Entry),
    (∀ rows ∈ calls, ∀ e ∈ rows, e.1.writable = true) →
      readTrace (fileAfter calls) = .ok (calls.flatten.map Entry.dict) := by
  intro h
  have hwritable : brokenEntry.1.writable = true := by decide
  have hadded : appended [[brokenEntry]] = [brokenEntry] := by simp [appended, hwritable]
  have hread := h [[brokenEntry]] (List.forall_mem_singleton.mpr
    (List.forall_mem_singleton.mpr hwritable))
  have htrace := isTrace_fileAfter [[brokenEntry]]
  rw [hadded] at htrace
  have hunbroken := unbroken_of_readTrace htrace hread brokenEntry (List.mem_singleton_self _)
  exact absurd (hunbroken [.scalar '\u2028'] (by decide) _ (List.mem_singleton_self _)) (by decide)

end Icode.Reasoning
