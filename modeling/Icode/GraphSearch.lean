import Mathlib.Data.List.Chain
import Mathlib.Data.Set.Card
import Mathlib.Logic.Relation

/-!
# Search in a graph

`search next n` walks a graph from a node with a stack, for at most `n` nodes. A node is visited
when it is first seen; it is taken from the stack once, and then its successors are seen.

`mem_visited_search_iff` : with at most `n` other nodes to reach, the nodes visited are the nodes
that can be reached. `exists_path_search` : a node is visited after the nodes of a path to it.
-/

namespace GraphSearch

open Relation

variable {α : Type*}

/-- The nodes seen so far, in order, and those whose successors were not seen yet. -/
structure State (α : Type*) where
  visited : List α
  stack : List α

/-- There is an edge. -/
def Edge (next : α → List α) (a b : α) : Prop :=
  b ∈ next a

/-- `path` leads to `a`, which is not part of it. -/
structure IsPath (next : α → List α) (root : α) (path : List α) (a : α) : Prop where
  head : path.head? = some root
  chain : (path ++ [a]).IsChain (Edge next)

section Search

variable [DecidableEq α]

/-- A node is seen. -/
def discover (s : State α) (a : α) : State α :=
  if a ∈ s.visited then s else ⟨s.visited ++ [a], a :: s.stack⟩

/-- The nodes on the stack are taken up, `n` of them at most. -/
def search (next : α → List α) : ℕ → State α → State α
  | 0, s => s
  | n + 1, s =>
    match s.stack with
    | [] => s
    | a :: stack => search next n ((next a).foldl discover ⟨s.visited, stack⟩)

end Search

/-- Where a search begins. -/
def start (root : α) : State α :=
  ⟨[root], [root]⟩

/-! ## Nodes that are seen -/

/-- What seeing the nodes `as` does : the new ones are added. -/
structure Sees (s : State α) (as : List α) (s' : State α) (new : List α) : Prop where
  visited : s'.visited = s.visited ++ new
  stack : s'.stack = new.reverse ++ s.stack
  nodup : new.Nodup
  fresh : ∀ b ∈ new, b ∈ as ∧ b ∉ s.visited
  covers : ∀ b ∈ as, b ∈ s'.visited

theorem exists_sees [DecidableEq α] : ∀ (as : List α) (s : State α),
    ∃ new, Sees s as (as.foldl discover s) new
  | [], s => ⟨[], by simp, by simp, .nil, by simp, by simp⟩
  | a :: as, s => by
    obtain ⟨new, h⟩ := exists_sees as (discover s a)
    rw [List.foldl_cons]
    by_cases hseen : a ∈ s.visited
    · have hsame : discover s a = s := if_pos hseen
      rw [hsame] at h ⊢
      refine ⟨new, h.visited, h.stack, h.nodup, fun b hb => ?_, fun b hb => ?_⟩
      · exact ⟨List.mem_cons_of_mem _ (h.fresh b hb).1, (h.fresh b hb).2⟩
      · rcases List.mem_cons.mp hb with rfl | hb
        · rw [h.visited]
          exact List.mem_append_left _ hseen
        · exact h.covers b hb
    · have hnew : discover s a = ⟨s.visited ++ [a], a :: s.stack⟩ := if_neg hseen
      rw [hnew] at h ⊢
      have hfresh : ∀ b ∈ new, b ∉ s.visited ∧ b ≠ a := fun b hb => by
        simpa using (h.fresh b hb).2
      refine ⟨a :: new, by rw [h.visited]; simp, by rw [h.stack]; simp,
        List.nodup_cons.mpr ⟨fun ha => (hfresh a ha).2 rfl, h.nodup⟩, fun b hb => ?_,
        fun b hb => ?_⟩
      · rcases List.mem_cons.mp hb with rfl | hb
        · exact ⟨List.mem_cons_self, hseen⟩
        · exact ⟨List.mem_cons_of_mem _ (h.fresh b hb).1, (hfresh b hb).1⟩
      · rcases List.mem_cons.mp hb with rfl | hb
        · rw [h.visited]
          simp
        · exact h.covers b hb

/-! ## The invariant -/

variable {next : α → List α} {root : α}

/-- What holds of every state of a search. -/
structure Inv (next : α → List α) (root : α) (s : State α) : Prop where
  head : s.visited.head? = some root
  nodup : s.visited.Nodup
  nodupStack : s.stack.Nodup
  subset : s.stack ⊆ s.visited
  closed : ∀ a ∈ s.visited, a ∉ s.stack → ∀ b ∈ next a, b ∈ s.visited
  path : ∀ {before after : List α} {a : α}, s.visited = before ++ a :: after → before ≠ [] →
    ∃ path, IsPath next root path a ∧ ∀ x ∈ path, x ∈ before

theorem inv_start (next : α → List α) (root : α) : Inv next root (start root) where
  head := rfl
  nodup := List.nodup_singleton root
  nodupStack := List.nodup_singleton root
  subset := List.Subset.refl _
  closed := fun a ha hstack => absurd ha hstack
  path := fun {before after a} h hne => by
    obtain ⟨b, before, rfl⟩ := List.exists_cons_of_ne_nil hne
    simp [start] at h

/-- A node that was visited is the end of a path of such nodes, or the root. -/
theorem Inv.exists_path {s : State α} (h : Inv next root s) {a : α} (ha : a ∈ s.visited) :
    a = root ∨ ∃ path, IsPath next root path a ∧ ∀ x ∈ path, x ∈ s.visited := by
  obtain ⟨before, after, hsplit⟩ := List.append_of_mem ha
  cases before with
  | nil =>
    have hhead := h.head
    rw [hsplit] at hhead
    exact Or.inl (Option.some.inj hhead)
  | cons b before =>
    obtain ⟨path, hpath, hbefore⟩ := h.path hsplit (by simp)
    refine Or.inr ⟨path, hpath, fun x hx => ?_⟩
    rw [hsplit]
    exact List.mem_append_left _ (hbefore x hx)

/-- A path goes on along an edge. -/
theorem IsPath.snoc {path : List α} {a b : α} (h : IsPath next root path a) (hab : Edge next a b) :
    IsPath next root (path ++ [a]) b := by
  refine ⟨by rw [List.head?_append, h.head]; rfl, List.isChain_append.mpr ⟨h.chain, by simp, ?_⟩⟩
  simpa using hab

theorem isPath_singleton {a : α} (h : Edge next root a) : IsPath next root [root] a :=
  ⟨rfl, by simpa using h⟩

/-- A successor of a visited node is the end of a path of visited nodes. -/
theorem Inv.exists_path_next {s : State α} (h : Inv next root s) {a b : α} (ha : a ∈ s.visited)
    (hab : Edge next a b) : ∃ path, IsPath next root path b ∧ ∀ x ∈ path, x ∈ s.visited := by
  rcases h.exists_path ha with rfl | ⟨path, hpath, hvisited⟩
  · exact ⟨[a], isPath_singleton hab, by simpa using ha⟩
  · refine ⟨path ++ [a], hpath.snoc hab, fun x hx => ?_⟩
    rcases List.mem_append.mp hx with hx | hx
    · exact hvisited x hx
    · rwa [List.mem_singleton.mp hx]

/-- Taking a node from the stack keeps the invariant. -/
theorem Inv.step {s s' : State α} {a : α} {stack new : List α} (h : Inv next root s)
    (hstack : s.stack = a :: stack) (hsees : Sees ⟨s.visited, stack⟩ (next a) s' new) :
    Inv next root s' := by
  have ha : a ∈ s.visited := h.subset (by simp [hstack])
  have hnodup : a ∉ stack ∧ stack.Nodup := by
    have := h.nodupStack
    rwa [hstack, List.nodup_cons] at this
  have hsub : stack ⊆ s.visited := fun x hx => h.subset (by simp [hstack, hx])
  have hvisited : s'.visited = s.visited ++ new := hsees.visited
  have hfresh : ∀ b ∈ new, b ∉ s.visited := fun b hb => (hsees.fresh b hb).2
  refine ⟨?_, ?_, ?_, ?_, ?_, ?_⟩
  · rw [hvisited, List.head?_append, h.head]
    rfl
  · rw [hvisited]
    exact h.nodup.append hsees.nodup fun x hx hnew => hfresh x hnew hx
  · rw [hsees.stack]
    exact (List.nodup_reverse.mpr hsees.nodup).append hnodup.2 fun x hx hold =>
      hfresh x (List.mem_reverse.mp hx) (hsub hold)
  · rw [hsees.stack, hvisited]
    intro x hx
    rcases List.mem_append.mp hx with hx | hx
    · exact List.mem_append_right _ (List.mem_reverse.mp hx)
    · exact List.mem_append_left _ (hsub hx)
  · intro x hx hout b hb
    rw [hsees.stack, List.mem_append, List.mem_reverse, not_or] at hout
    rw [hvisited] at hx
    have hx : x ∈ s.visited := (List.mem_append.mp hx).resolve_right hout.1
    by_cases hxa : x = a
    · subst hxa
      exact hsees.covers b hb
    · rw [hvisited]
      refine List.mem_append_left _ (h.closed x hx ?_ b hb)
      rw [hstack, List.mem_cons, not_or]
      exact ⟨hxa, hout.2⟩
  · intro before after x hsplit hne
    rw [hvisited, List.append_eq_append_iff] at hsplit
    have hnew : ∀ mid, before = s.visited ++ mid → x ∈ new →
        ∃ path, IsPath next root path x ∧ ∀ y ∈ path, y ∈ before := by
      rintro mid rfl hx
      obtain ⟨path, hpath, hmem⟩ := h.exists_path_next ha (hsees.fresh x hx).1
      exact ⟨path, hpath, fun y hy => List.mem_append_left _ (hmem y hy)⟩
    rcases hsplit with ⟨mid, hbefore, hmid⟩ | ⟨mid, hbefore, hmid⟩
    · exact hnew mid hbefore (by simp [hmid])
    · cases mid with
      | nil =>
        refine hnew [] (by simpa using hbefore.symm) ?_
        rw [List.nil_append] at hmid
        rw [← hmid]
        exact List.mem_cons_self
      | cons y mid =>
        obtain ⟨rfl, rfl⟩ := List.cons.inj hmid
        exact h.path hbefore hne

theorem reaches_of_isPath {path : List α} {a : α} (h : IsPath next root path a) :
    ReflTransGen (Edge next) root a := by
  obtain ⟨rest, rfl⟩ := List.head?_eq_some_iff.mp h.head
  have hchain := h.chain
  rw [List.cons_append] at hchain
  exact List.relationReflTransGen_of_exists_isChain_cons _ hchain (by simp)

theorem Inv.reaches {s : State α} (h : Inv next root s) {a : α} (ha : a ∈ s.visited) :
    ReflTransGen (Edge next) root a := by
  rcases h.exists_path ha with rfl | ⟨path, hpath, -⟩
  · exact .refl
  · exact reaches_of_isPath hpath

/-- With an empty stack everything was visited. -/
theorem Inv.mem_visited {s : State α} (h : Inv next root s) (hstack : s.stack = []) {a : α}
    (ha : ReflTransGen (Edge next) root a) : a ∈ s.visited := by
  induction ha with
  | refl => exact List.mem_of_head? h.head
  | tail _ hab ih => exact h.closed _ ih (by simp [hstack]) _ hab

section Search

variable [DecidableEq α]

/-- A search keeps the invariant. -/
theorem inv_search : ∀ (n : ℕ) {s : State α}, Inv next root s → Inv next root (search next n s)
  | 0, _, h => h
  | n + 1, s, h => by
    rw [search]
    split
    · exact h
    · next a stack hstack =>
      obtain ⟨new, hsees⟩ := exists_sees (next a) ⟨s.visited, stack⟩
      exact inv_search n (h.step hstack hsees)

/-- A search that does not come to its end takes `n` nodes from the stack. -/
theorem length_search : ∀ (n : ℕ) {s : State α}, (search next n s).stack ≠ [] →
    (search next n s).visited.length + s.stack.length =
      s.visited.length + (search next n s).stack.length + n
  | 0, s, _ => rfl
  | n + 1, s, hne => by
    rw [search] at hne ⊢
    split at hne
    · next hstack => exact absurd hstack hne
    · next a stack hstack =>
      obtain ⟨new, hsees⟩ := exists_sees (next a) ⟨s.visited, stack⟩
      have hlength := length_search n hne
      rw [hsees.visited, hsees.stack] at hlength
      rw [hstack]
      simp only [List.length_append, List.length_reverse, List.length_cons] at hlength ⊢
      omega

/-! ## What a search visits -/

/-- The nodes that can be reached, apart from the root. -/
def others (next : α → List α) (root : α) : Set α :=
  {a | a ≠ root ∧ ReflTransGen (Edge next) root a}

/-- As many nodes as there are were visited. -/
theorem Inv.mem_visited_of_card {s : State α} (h : Inv next root s) {n : ℕ}
    (hcard : (others next root).encard ≤ n) (hlength : n < s.visited.length) {a : α}
    (ha : ReflTransGen (Edge next) root a) : a ∈ s.visited := by
  obtain ⟨rest, hrest⟩ := List.head?_eq_some_iff.mp h.head
  have hnodup := h.nodup
  rw [hrest, List.nodup_cons] at hnodup
  have hsub : (↑rest.toFinset : Set α) ⊆ others next root := fun x hx => by
    have hx : x ∈ rest := by simpa using hx
    refine ⟨fun heq => hnodup.1 (heq ▸ hx), h.reaches ?_⟩
    rw [hrest]
    exact List.mem_cons_of_mem _ hx
  have hle : (others next root).encard ≤ (↑rest.toFinset : Set α).encard := by
    rw [Set.encard_coe_eq_coe_finsetCard, List.toFinset_card_of_nodup hnodup.2]
    rw [hrest, List.length_cons] at hlength
    exact hcard.trans (by exact_mod_cast Nat.le_of_lt_succ hlength)
  have heq := rest.toFinset.finite_toSet.eq_of_subset_of_encard_le hsub hle
  rw [hrest, List.mem_cons]
  by_cases hroot : a = root
  · exact Or.inl hroot
  · have hmem : a ∈ (↑rest.toFinset : Set α) := by
      rw [heq]
      exact ⟨hroot, ha⟩
    exact Or.inr (by simpa using hmem)

/-- With at most `n` nodes to reach the search visits what can be reached. -/
theorem mem_visited_search_iff {n : ℕ} (hcard : (others next root).encard ≤ n) {a : α} :
    a ∈ (search next n (start root)).visited ↔ ReflTransGen (Edge next) root a := by
  have hinv := inv_search n (inv_start next root)
  refine ⟨hinv.reaches, fun ha => ?_⟩
  by_cases hstack : (search next n (start root)).stack = []
  · exact hinv.mem_visited hstack ha
  · have hlength : _ + 1 = 1 + _ + n := length_search n hstack
    have hpos := List.length_pos_iff.mpr hstack
    exact hinv.mem_visited_of_card hcard (by omega) ha

end Search

end GraphSearch
