import Mathlib.Data.List.Basic
import Mathlib.Logic.Function.Basic

/-!
# A pipe and its history

A `Pipe` is one direction of a pipe, with everything that was read of it and everything that stands
in it. A read gives a part of what stands there, or says that the pipe has ended, or that it would
block. Writes and reads lose nothing (`written_write`, `written_read`), and the end is final
(`AtEnd.write`, `AtEnd.read`): what was read up to the end is all that was written
(`AtEnd.consumed_eq`).
-/

/-- One direction of a pipe. -/
structure Pipe (α : Type*) where
  /-- What was read, in order. -/
  consumed : List α
  /-- What was written and not read. -/
  unread : List α
  /-- Someone has the writing end. -/
  writable : Bool
  deriving DecidableEq

namespace Pipe

variable {α : Type*}

/-- What a read of a pipe that does not fail gives. -/
inductive ReadResult (α : Type*) where
  | data (chunk : List α)
  | eof
  | wouldBlock
  deriving DecidableEq

/-- A new pipe. -/
def empty : Pipe α :=
  ⟨[], [], true⟩

/-- Everything that was written. -/
def written (p : Pipe α) : List α :=
  p.consumed ++ p.unread

/-- Nothing stands in the pipe, and nothing will. -/
def AtEnd (p : Pipe α) : Prop :=
  p.unread = [] ∧ p.writable = false

/-- A write; nobody can write once the writing end is closed. -/
def write (p : Pipe α) (data : List α) : Pipe α :=
  if p.writable then { p with unread := p.unread ++ data } else p

/-- The last one to have the writing end closes it. -/
def closeWriters (p : Pipe α) : Pipe α :=
  { p with writable := false }

/-- A read of at most `size + 1` items; it gives at least one if there is one. -/
def read (p : Pipe α) (size : ℕ) : ReadResult α × Pipe α :=
  match p.unread with
  | [] => if p.writable then (.wouldBlock, p) else (.eof, p)
  | x :: xs =>
    (.data (x :: xs.take size),
      { p with consumed := p.consumed ++ x :: xs.take size, unread := xs.drop size })

variable {p q : Pipe α} {chunk data : List α} {size : ℕ}

@[simp] theorem consumed_write : (p.write data).consumed = p.consumed := by
  unfold write
  split_ifs <;> rfl

@[simp] theorem consumed_closeWriters : p.closeWriters.consumed = p.consumed :=
  rfl

theorem written_write (h : p.writable = true) : (p.write data).written = p.written ++ data := by
  rw [write, if_pos h, written, written, List.append_assoc]

/-- What a read gives is put behind what was read before. -/
theorem read_data (h : p.read size = (.data chunk, q)) :
    chunk ≠ [] ∧ chunk.length ≤ size + 1 ∧ q.consumed = p.consumed ++ chunk ∧
      q.written = p.written := by
  unfold read at h
  split at h
  · split_ifs at h <;> cases h
  · rename_i x xs hunread
    obtain ⟨hchunk, rfl⟩ := Prod.mk.inj h
    obtain rfl := ReadResult.data.inj hchunk
    refine ⟨List.cons_ne_nil _ _, ?_, rfl, ?_⟩
    · rw [List.length_cons, List.length_take]
      omega
    · rw [written, written, hunread, List.append_assoc, List.cons_append, List.take_append_drop]

theorem read_eof (h : p.read size = (.eof, q)) : p.AtEnd ∧ q = p := by
  unfold read at h
  split at h
  · rename_i hunread
    split_ifs at h with hwritable
    · cases h
    · exact ⟨⟨hunread, Bool.eq_false_iff.mpr hwritable⟩, (Prod.mk.inj h).2.symm⟩
  · cases h

theorem read_wouldBlock (h : p.read size = (.wouldBlock, q)) : q = p := by
  unfold read at h
  split at h
  · split_ifs at h
    · exact (Prod.mk.inj h).2.symm
    · cases h
  · cases h

/-- A read loses nothing. -/
theorem written_read (p : Pipe α) (size : ℕ) : (p.read size).2.written = p.written := by
  cases hread : p.read size with
  | mk result q =>
    cases result with
    | data chunk => exact (read_data hread).2.2.2
    | eof => rw [(read_eof hread).2]
    | wouldBlock => rw [read_wouldBlock hread]

namespace AtEnd

/-- What was read up to the end is all that was written. -/
theorem consumed_eq (h : p.AtEnd) : p.consumed = p.written := by
  rw [written, h.1, List.append_nil]

/-- At the end, nobody can write. -/
theorem write (h : p.AtEnd) (data : List α) : p.write data = p :=
  if_neg (by simp [h.2])

theorem closeWriters (h : p.AtEnd) : p.closeWriters = p := by
  rw [Pipe.closeWriters, ← h.2]

/-- At the end, a read gives nothing. -/
theorem read (h : p.AtEnd) (size : ℕ) : p.read size = (.eof, p) := by
  rw [Pipe.read, h.1]
  simp [h.2]

end AtEnd

/-! ## Several pipes -/

section Family

variable {ι : Type*} [DecidableEq ι] {pipes : ι → Pipe α} {i : ι}

theorem consumed_update (h : p.consumed = (pipes i).consumed) (j : ι) :
    (Function.update pipes i p j).consumed = (pipes j).consumed := by
  by_cases hj : j = i
  · rw [hj, Function.update_self, h]
  · rw [Function.update_of_ne hj]

/-- What leaves one pipe as it is at its end leaves the ends of all. -/
theorem AtEnd.update (h : (pipes i).AtEnd → p = pipes i) {j : ι} (hj : (pipes j).AtEnd) :
    (Function.update pipes i p j).AtEnd := by
  by_cases hij : j = i
  · subst hij
    rw [Function.update_self, h hj]
    exact hj
  · rwa [Function.update_of_ne hij]

theorem update_of_atEnd (h : (pipes i).AtEnd → p = pipes i) (hend : (pipes i).AtEnd) :
    Function.update pipes i p = pipes := by
  rw [h hend, Function.update_eq_self]

end Family

end Pipe
