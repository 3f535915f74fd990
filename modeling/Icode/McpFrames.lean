import Icode.Acp
import Icode.McpClient

/-!
# The reader of the MCP client

`_FrameReader` cuts the output of a server into lines as the reads come, and holds what is left of a
read against the limit once its lines are out. `Framed` says what a stream of bytes should give,
however it was read.

A line whose line feed comes with the read that makes it too long is never held against the limit.
`Framed` holds exactly of the reads that meet the limit (`framed_run_iff`) : no line is too long, or
some read ends too far into a line, with nothing but blank lines from the first long line to there.
-/

namespace Icode.McpClient

open Py
open Acp (isByteSpace splitBuffer splitBuffer_append splitBuffer_rest stripBytes)

/-! ## The reader -/

/-- What `_read_block` does. -/
inductive ReadBlock where
  | block (chunk : Bytes)
  /-- An exception of the stream, by the name of its type. -/
  | raises (name : PyStr)

/-- A `_FrameReader` that has run : its frames before the `None`, and its error. -/
structure FrameReader where
  frames : List Bytes
  error : Option McpError

/-- `self.frames.put`, before all that follows. -/
def FrameReader.put (lines : List Bytes) (r : FrameReader) : FrameReader :=
  { r with frames := Acp.frameLines lines ++ r.frames }

/-- `_FrameReader.run`. The stream is at its end after the last read. -/
def runReader (maxLineBytes : ℕ) (buffer : Bytes) : List ReadBlock → FrameReader
  | [] => ⟨[], none⟩
  | .raises name :: _ => ⟨[], some (.transportError name)⟩
  | .block [] :: _ => ⟨[], none⟩
  | .block chunk :: reads =>
    let r := splitBuffer (buffer ++ chunk)
    if maxLineBytes < r.2.length then ⟨Acp.frameLines r.1, some .oversizeResponse⟩
    else (runReader maxLineBytes r.2 reads).put r.1

/-! ## What is claimed -/

/-- The lines of a stream, with the one that no line feed ends. -/
def linesOf (stream : Bytes) : List Bytes :=
  (splitBuffer stream).1 ++ [(splitBuffer stream).2]

/-- What a stream should give. -/
structure Framed (maxLineBytes : ℕ) (stream : Bytes) (r : FrameReader) : Prop where
  frames : r.frames =
    Acp.frameLines ((splitBuffer stream).1.takeWhile (·.length ≤ maxLineBytes))
  oversize : r.error = some .oversizeResponse ↔ ∃ line ∈ linesOf stream, maxLineBytes < line.length
  bounded : ∀ frame ∈ r.frames, frame.length ≤ maxLineBytes

/-- How far into a line the first `n` reads end. -/
def depth (buffer : Bytes) (chunks : List Bytes) (n : ℕ) : ℕ :=
  (splitBuffer (buffer ++ (chunks.take n).flatten)).2.length

/-- The reads first end too far into a line after `n` of them. -/
structure CaughtAt (maxLineBytes : ℕ) (buffer : Bytes) (chunks : List Bytes) (n : ℕ) : Prop where
  within : n ≤ chunks.length
  deep : maxLineBytes < depth buffer chunks n
  first : ∀ k < n, depth buffer chunks k ≤ maxLineBytes

/-- No line is too long, or the reads are caught with only blank lines from the first long line
on. -/
def MeetTheLimit (maxLineBytes : ℕ) (chunks : List Bytes) : Prop :=
  (∀ line ∈ linesOf chunks.flatten, line.length ≤ maxLineBytes) ∨
    ∃ n, CaughtAt maxLineBytes [] chunks n ∧
      ∀ line ∈ (splitBuffer (chunks.take n).flatten).1.dropWhile (·.length ≤ maxLineBytes),
        stripBytes line = []

/-! ## Lines -/

theorem length_stripBytes_le (line : Bytes) : (stripBytes line).length ≤ line.length := by
  have hfront := (List.dropWhile_suffix isByteSpace (l := line)).length_le
  have hback := (List.dropWhile_suffix isByteSpace
    (l := (line.dropWhile isByteSpace).reverse)).length_le
  rw [List.length_reverse] at hback
  rw [stripBytes, List.length_reverse]
  omega

theorem frameLines_append (a b : List Bytes) :
    Acp.frameLines (a ++ b) = Acp.frameLines a ++ Acp.frameLines b := by
  simp [Acp.frameLines]

theorem frameLines_eq_nil_iff {lines : List Bytes} :
    Acp.frameLines lines = [] ↔ ∀ line ∈ lines, stripBytes line = [] := by
  simp [Acp.frameLines]

theorem exists_of_mem_frameLines {lines : List Bytes} {frame : Bytes}
    (h : frame ∈ Acp.frameLines lines) : ∃ line ∈ lines, frame.length ≤ line.length := by
  obtain ⟨line, hline, rfl⟩ := List.mem_map.mp (List.mem_filter.mp h).1
  exact ⟨line, hline, length_stripBytes_le line⟩

theorem length_le_of_mem_frameLines {maxLineBytes : ℕ} {lines : List Bytes} {frame : Bytes}
    (h : frame ∈ Acp.frameLines (lines.takeWhile (·.length ≤ maxLineBytes))) :
    frame.length ≤ maxLineBytes := by
  obtain ⟨line, hline, hle⟩ := exists_of_mem_frameLines h
  have hshort : decide (line.length ≤ maxLineBytes) = true :=
    List.mem_takeWhile_imp (p := fun line : Bytes => line.length ≤ maxLineBytes) hline
  exact hle.trans (of_decide_eq_true hshort)

/-- What is left of a read has no line feed : it goes on in front of the first line that follows. -/
theorem head_splitBuffer_append {rest : Bytes} (h : (splitBuffer rest).1 = []) :
    ∀ (b : Bytes), ∃ line, (linesOf (rest ++ b)).head? = some (rest ++ line) := by
  induction rest with
  | nil => exact fun b => by cases hb : (splitBuffer b).1 <;> simp [linesOf, hb]
  | cons x rest ih =>
    intro b
    have hx : x ≠ 10 := by
      rintro rfl
      simp [splitBuffer] at h
    have hrest : (splitBuffer rest).1 = [] := by
      cases hlines : (splitBuffer rest).1 with
      | nil => rfl
      | cons line lines => simp [splitBuffer, hx, hlines] at h
    obtain ⟨line, hline⟩ := ih hrest b
    refine ⟨line, ?_⟩
    cases hlines : (splitBuffer (rest ++ b)).1 with
    | nil =>
      simp [linesOf, hlines] at hline
      simp [linesOf, splitBuffer, hx, hlines, hline]
    | cons l ls =>
      simp [linesOf, hlines] at hline
      simp [linesOf, splitBuffer, hx, hlines, hline]

/-! ## A run -/

section Run

variable {maxLineBytes : ℕ}

theorem depth_zero (buffer : Bytes) (chunks : List Bytes) :
    depth buffer chunks 0 = (splitBuffer buffer).2.length := by
  simp [depth]

theorem depth_cons_succ (buffer chunk : Bytes) (chunks : List Bytes) (n : ℕ) :
    depth buffer (chunk :: chunks) (n + 1) =
      depth (splitBuffer (buffer ++ chunk)).2 chunks n := by
  rw [depth, depth, List.take_succ_cons, List.flatten_cons, ← List.append_assoc,
    splitBuffer_append (buffer ++ chunk)]

/-- The reads are caught once. -/
theorem CaughtAt.unique {buffer : Bytes} {chunks : List Bytes} {m n : ℕ}
    (hm : CaughtAt maxLineBytes buffer chunks m) (hn : CaughtAt maxLineBytes buffer chunks n) :
    m = n := by
  rcases Nat.lt_trichotomy m n with h | h | h
  · exact absurd hm.deep (by have := hn.first m h; omega)
  · exact h
  · exact absurd hn.deep (by have := hm.first n h; omega)

theorem exists_caughtAt {buffer : Bytes} {chunks : List Bytes}
    (h : ¬∀ n ≤ chunks.length, depth buffer chunks n ≤ maxLineBytes) :
    ∃ n, CaughtAt maxLineBytes buffer chunks n := by
  push Not at h
  obtain ⟨hwithin, hdeep⟩ := Nat.find_spec h
  refine ⟨Nat.find h, hwithin, hdeep, fun k hk => ?_⟩
  have hmin := Nat.find_min h hk
  push Not at hmin
  exact hmin (by omega)

/-- One read that is not at the end. -/
theorem runReader_block {chunk : Bytes} (hne : chunk ≠ []) (buffer : Bytes)
    (reads : List ReadBlock) :
    runReader maxLineBytes buffer (.block chunk :: reads) =
      if maxLineBytes < (splitBuffer (buffer ++ chunk)).2.length then
        ⟨Acp.frameLines (splitBuffer (buffer ++ chunk)).1, some .oversizeResponse⟩
      else (runReader maxLineBytes (splitBuffer (buffer ++ chunk)).2 reads).put
        (splitBuffer (buffer ++ chunk)).1 := by
  obtain ⟨b, bs, rfl⟩ := List.exists_cons_of_ne_nil hne
  rfl

/-- Reads that are never caught give every line. -/
theorem runReader_of_shallow : ∀ {chunks : List Bytes} {buffer : Bytes},
    (∀ chunk ∈ chunks, chunk ≠ []) → (splitBuffer buffer).1 = [] →
    (∀ n ≤ chunks.length, depth buffer chunks n ≤ maxLineBytes) →
    runReader maxLineBytes buffer (chunks.map .block) =
      ⟨Acp.frameLines (splitBuffer (buffer ++ chunks.flatten)).1, none⟩
  | [], buffer, _, hbuffer, _ => by simp [runReader, Acp.frameLines, hbuffer]
  | chunk :: chunks, buffer, hne, _, hdepth => by
    have hhead : (splitBuffer (buffer ++ chunk)).2.length ≤ maxLineBytes := by
      simpa [depth] using hdepth 1 (by simp)
    have htail : ∀ n ≤ chunks.length,
        depth (splitBuffer (buffer ++ chunk)).2 chunks n ≤ maxLineBytes := fun n hn => by
      rw [← depth_cons_succ]
      exact hdepth (n + 1) (by simpa using hn)
    rw [List.map_cons, runReader_block (hne chunk (by simp)), if_neg (by omega),
      runReader_of_shallow (fun c hc => hne c (by simp [hc])) (splitBuffer_rest _) htail,
      List.flatten_cons, ← List.append_assoc, splitBuffer_append (buffer ++ chunk),
      frameLines_append]
    rfl

/-- Reads that are caught give the lines that were complete by then. -/
theorem runReader_of_caughtAt : ∀ {chunks : List Bytes} {buffer : Bytes} {n : ℕ},
    (∀ chunk ∈ chunks, chunk ≠ []) → (splitBuffer buffer).1 = [] →
    CaughtAt maxLineBytes buffer chunks n → (splitBuffer buffer).2.length ≤ maxLineBytes →
    runReader maxLineBytes buffer (chunks.map .block) =
      ⟨Acp.frameLines (splitBuffer (buffer ++ (chunks.take n).flatten)).1, some .oversizeResponse⟩
  | chunks, buffer, 0, _, _, h, hshort => by
    have hdeep := h.deep
    rw [depth_zero] at hdeep
    omega
  | [], buffer, n + 1, _, _, h, _ => absurd h.within (by simp)
  | chunk :: chunks, buffer, n + 1, hne, _, h, hshort => by
    rw [List.map_cons, runReader_block (hne chunk (by simp)), List.take_succ_cons,
      List.flatten_cons, ← List.append_assoc]
    cases n with
    | zero =>
      have hdeep : maxLineBytes < (splitBuffer (buffer ++ chunk)).2.length := by
        simpa [depth] using h.deep
      rw [if_pos hdeep, List.take_zero, List.flatten_nil, List.append_nil]
    | succ n =>
      have hhead : (splitBuffer (buffer ++ chunk)).2.length ≤ maxLineBytes := by
        simpa [depth] using h.first 1 (by omega)
      have htail : CaughtAt maxLineBytes (splitBuffer (buffer ++ chunk)).2 chunks (n + 1) := by
        refine ⟨by simpa using h.within, ?_, fun k hk => ?_⟩
        · rw [← depth_cons_succ]
          exact h.deep
        · rw [← depth_cons_succ]
          exact h.first (k + 1) (by omega)
      have hrest : (splitBuffer (splitBuffer (buffer ++ chunk)).2).2.length ≤ maxLineBytes := by
        rw [← depth_zero _ chunks]
        exact htail.first 0 (by omega)
      rw [if_neg (by omega), runReader_of_caughtAt (fun c hc => hne c (by simp [hc]))
        (splitBuffer_rest _) htail hrest, splitBuffer_append (buffer ++ chunk), frameLines_append]
      rfl

end Run

/-! ## Long lines -/

/-- A read that ends too far into a line ends in a long line of the stream. -/
theorem exists_long_of_deep {maxLineBytes : ℕ} {a : Bytes}
    (h : maxLineBytes < (splitBuffer a).2.length) (b : Bytes) :
    ∃ line ∈ linesOf (a ++ b), maxLineBytes < line.length := by
  obtain ⟨line, hline⟩ := head_splitBuffer_append (splitBuffer_rest a) b
  refine ⟨(splitBuffer a).2 ++ line, ?_, by rw [List.length_append]; omega⟩
  rw [linesOf, splitBuffer_append, List.append_assoc]
  exact List.mem_append_right _ (List.mem_of_head? hline)

/-- The lines before the first long one are among those that were complete when a read ends too far
into a line. -/
theorem takeWhile_of_deep {maxLineBytes : ℕ} {a : Bytes}
    (h : maxLineBytes < (splitBuffer a).2.length) (b : Bytes) :
    (splitBuffer (a ++ b)).1.takeWhile (·.length ≤ maxLineBytes) =
      (splitBuffer a).1.takeWhile (·.length ≤ maxLineBytes) := by
  obtain ⟨line, hline⟩ := head_splitBuffer_append (splitBuffer_rest a) b
  have hstop :
      (splitBuffer ((splitBuffer a).2 ++ b)).1.takeWhile (·.length ≤ maxLineBytes) = [] := by
    cases hlines : (splitBuffer ((splitBuffer a).2 ++ b)).1 with
    | nil => rfl
    | cons l ls =>
      have hl : l = (splitBuffer a).2 ++ line := by simpa [linesOf, hlines] using hline
      refine List.takeWhile_cons_of_neg ?_
      rw [hl, decide_eq_true_eq, List.length_append]
      omega
  rw [splitBuffer_append, List.takeWhile_append, hstop]
  split_ifs with hall
  · rw [List.append_nil]
    exact ((List.takeWhile_prefix _).eq_of_length hall).symm
  · rfl

/-- No read ends too far into a line of a stream whose lines are short : the reader gives them
all. -/
theorem framed_of_short {maxLineBytes : ℕ} {stream : Bytes}
    (h : ∀ line ∈ linesOf stream, line.length ≤ maxLineBytes) :
    Framed maxLineBytes stream ⟨Acp.frameLines (splitBuffer stream).1, none⟩ where
  frames := by
    rw [List.takeWhile_eq_self_iff.mpr fun line hline =>
      decide_eq_true (h line (List.mem_append_left _ hline))]
  oversize := by
    constructor
    · simp
    · rintro ⟨line, hline, hlt⟩
      exact absurd (h line hline) (by omega)
  bounded := fun frame hframe => by
    obtain ⟨line, hline, hle⟩ := exists_of_mem_frameLines hframe
    exact hle.trans (h line (List.mem_append_left _ hline))

/-- The reader gives what the stream should give exactly if its reads meet the limit. -/
theorem framed_run_iff (maxLineBytes : ℕ) {chunks : List Bytes}
    (hne : ∀ chunk ∈ chunks, chunk ≠ []) :
    Framed maxLineBytes chunks.flatten (runReader maxLineBytes [] (chunks.map .block)) ↔
      MeetTheLimit maxLineBytes chunks := by
  have hnil : (splitBuffer []).2.length ≤ maxLineBytes := Nat.zero_le _
  by_cases hshallow : ∀ n ≤ chunks.length, depth [] chunks n ≤ maxLineBytes
  · -- nothing is refused, so there must be no long line
    have hrun := runReader_of_shallow hne rfl hshallow
    rw [List.nil_append] at hrun
    rw [hrun]
    constructor
    · intro h
      refine Or.inl fun line hline => ?_
      by_contra hlong
      exact absurd (h.oversize.mpr ⟨line, hline, by omega⟩) (by simp)
    · rintro (hshort | ⟨n, hcaught, -⟩)
      · exact framed_of_short hshort
      · exact absurd hcaught.deep (by have := hshallow n hcaught.within; omega)
  · obtain ⟨n, hcaught⟩ := exists_caughtAt hshallow
    have hrun := runReader_of_caughtAt hne rfl hcaught hnil
    have hdeep : maxLineBytes < (splitBuffer (chunks.take n).flatten).2.length := hcaught.deep
    have hsplit : chunks.flatten = (chunks.take n).flatten ++ (chunks.drop n).flatten := by
      rw [← List.flatten_append, List.take_append_drop]
    have hlong := exists_long_of_deep hdeep (chunks.drop n).flatten
    have htake := takeWhile_of_deep hdeep (chunks.drop n).flatten
    rw [← hsplit] at hlong htake
    have hlines := congrArg Acp.frameLines (List.takeWhile_append_dropWhile
      (p := fun line : Bytes => line.length ≤ maxLineBytes)
      (l := (splitBuffer (chunks.take n).flatten).1))
    rw [frameLines_append] at hlines
    rw [List.nil_append] at hrun
    rw [hrun]
    constructor
    · intro h
      have hframes := h.frames
      rw [htake, ← hlines] at hframes
      exact Or.inr ⟨n, hcaught,
        frameLines_eq_nil_iff.mp (List.append_right_eq_self.mp hframes)⟩
    · rintro (hshort | ⟨m, hm, hblank⟩)
      · obtain ⟨line, hline, hlt⟩ := hlong
        exact absurd (hshort line hline) (by omega)
      · obtain rfl := hm.unique hcaught
        have hframes : Acp.frameLines (splitBuffer (chunks.take m).flatten).1 =
            Acp.frameLines
              ((splitBuffer chunks.flatten).1.takeWhile (·.length ≤ maxLineBytes)) := by
          rw [htake, ← hlines, frameLines_eq_nil_iff.mpr hblank, List.append_nil]
        exact ⟨hframes, by simp [hlong], fun frame hframe =>
          length_le_of_mem_frameLines (hframes ▸ hframe)⟩

theorem framed_run_iff_short :
    Framed 2 [97, 97, 10] (runReader 2 [] [.block [97, 97, 10]]) ↔ MeetTheLimit 2 [[97, 97, 10]] :=
  @framed_run_iff 2 [[97, 97, 10]] (by simp)

/-- Three bytes and their line feed in one read are a line past a limit of two. -/
theorem not_framed_run : ¬∀ (maxLineBytes : ℕ) (chunks : List Bytes),
    (∀ chunk ∈ chunks, chunk ≠ []) →
    Framed maxLineBytes chunks.flatten (runReader maxLineBytes [] (chunks.map .block)) := by
  intro h
  have hbounded := (h 2 [[97, 97, 97, 10]] (by simp)).bounded [97, 97, 97]
    (by decide)
  exact absurd hbounded (by decide)

end Icode.McpClient
