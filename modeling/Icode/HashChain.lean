import Mathlib.Data.List.Forall2
import Mathlib.Data.List.Induction

/-!
# Hash chains

An event of a chain names the hash of the event before it (`prev`) and its own
(`hash`), and a chain is valid from a hash `h` when the first event names `h`,
every other event names the hash before it, and every hash is the digest of its
event (`Linked`).

`lastHash` is what a reader of the chain has seen last. It commits to the whole
history : if the digest determines an event up to `R`, and no digest is the
genesis hash, two chains with the same last hash are the same, event by event
(`forall₂_of_lastHash_eq`). The lengths need not agree beforehand, since a chain
that ends first would have the genesis hash as a digest.
-/

namespace HashChain

variable {α H : Type*} (prev hash digest : α → H)

/-- The events link up from the hash `h`, and carry their digests. -/
def Linked (h : H) : List α → Prop
  | [] => True
  | e :: es => prev e = h ∧ hash e = digest e ∧ Linked (hash e) es

/-- The hash after the events, from `h`. -/
def lastHash (h : H) (es : List α) : H :=
  es.foldl (fun _ e => hash e) h

@[simp] theorem lastHash_nil (h : H) : lastHash hash h [] = h :=
  rfl

@[simp] theorem lastHash_concat (h : H) (es : List α) (e : α) :
    lastHash hash h (es ++ [e]) = hash e := by
  simp [lastHash]

variable {prev hash digest}

theorem lastHash_eq (h : H) (es : List α) : lastHash hash h es = (es.getLast?.map hash).getD h := by
  rcases List.eq_nil_or_concat' es with rfl | ⟨es, e, rfl⟩
  · rfl
  · simp

@[simp] theorem linked_nil (h : H) : Linked prev hash digest h [] :=
  trivial

theorem linked_cons {e : α} {es : List α} {h : H} : Linked prev hash digest h (e :: es) ↔
    prev e = h ∧ hash e = digest e ∧ Linked prev hash digest (hash e) es :=
  Iff.rfl

theorem linked_append {es fs : List α} : ∀ {h : H},
    Linked prev hash digest h (es ++ fs) ↔
      Linked prev hash digest h es ∧ Linked prev hash digest (lastHash hash h es) fs := by
  induction es with
  | nil => simp
  | cons e es ih =>
    intro h
    rw [List.cons_append, linked_cons, linked_cons, ih, lastHash, lastHash, List.foldl_cons,
      and_assoc, and_assoc]

theorem linked_concat {es : List α} {e : α} {h : H} :
    Linked prev hash digest h (es ++ [e]) ↔
      Linked prev hash digest h es ∧ prev e = lastHash hash h es ∧ hash e = digest e := by
  simp [linked_append, linked_cons]

theorem Linked.hash_eq {es : List α} : ∀ {h : H}, Linked prev hash digest h es →
    ∀ e ∈ es, hash e = digest e := by
  induction es with
  | nil => simp
  | cons e es ih =>
    rintro h ⟨-, he, hes⟩ x hx
    rcases List.mem_cons.mp hx with rfl | hx
    · exact he
    · exact ih hes x hx

/-- A chain that has an event does not end in the genesis hash. -/
theorem Linked.lastHash_ne {genesis h : H} {es : List α} {e : α}
    (hl : Linked prev hash digest h (es ++ [e])) (hgen : ∀ x ∈ es ++ [e], digest x ≠ genesis) :
    lastHash hash h (es ++ [e]) ≠ genesis := by
  rw [lastHash_concat, (linked_concat.mp hl).2.2]
  exact hgen e (by simp)

/-- The last hash commits to the history. -/
theorem forall₂_of_lastHash_eq {R : α → α → Prop} {genesis : H} {xs ys : List α}
    (hx : Linked prev hash digest genesis xs) (hy : Linked prev hash digest genesis ys)
    (hR : ∀ x ∈ xs, ∀ y ∈ ys, digest x = digest y → R x y)
    (hprev : ∀ x y, R x y → prev x = prev y)
    (hgenx : ∀ x ∈ xs, digest x ≠ genesis) (hgeny : ∀ y ∈ ys, digest y ≠ genesis)
    (hlast : lastHash hash genesis xs = lastHash hash genesis ys) : List.Forall₂ R xs ys := by
  -- backwards: the last events agree, and with them the hashes they name
  induction xs using List.reverseRecOn generalizing ys with
  | nil =>
    rcases List.eq_nil_or_concat' ys with rfl | ⟨ys, y, rfl⟩
    · exact List.Forall₂.nil
    · exact absurd hlast.symm (hy.lastHash_ne hgeny)
  | append_singleton xs x ih =>
    rcases List.eq_nil_or_concat' ys with rfl | ⟨ys, y, rfl⟩
    · exact absurd hlast (hx.lastHash_ne hgenx)
    · obtain ⟨hxs, hpx, hhx⟩ := (linked_concat).mp hx
      obtain ⟨hys, hpy, hhy⟩ := (linked_concat).mp hy
      have hxy : R x y := by
        refine hR x (by simp) y (by simp) ?_
        rw [← hhx, ← hhy]
        simpa using hlast
      have hbefore : lastHash hash genesis xs = lastHash hash genesis ys := by
        rw [← hpx, ← hpy, hprev x y hxy]
      have hrest := ih hxs hys
        (fun a ha b hb => hR a (List.mem_append_left _ ha) b (List.mem_append_left _ hb))
        (fun a ha => hgenx a (List.mem_append_left _ ha))
        (fun b hb => hgeny b (List.mem_append_left _ hb)) hbefore
      exact List.rel_append hrest (List.Forall₂.cons hxy List.Forall₂.nil)

end HashChain
