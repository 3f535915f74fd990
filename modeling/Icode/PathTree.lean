import Mathlib.Data.List.Infix
import Mathlib.Data.Set.Basic
import Mathlib.Order.Basic

/-!
# Directory trees

An absolute path is the list of its components below the root, and a path is
within another when that is an initial part of it. `Granted roots denies` is the
set of paths that lists of roots give access to, where a denied root takes
precedence over every granted one. `granted_subset` : narrower roots and wider
denials grant no more. Two paths overlap when one is within the other
(`Overlap`), that is when they share a path (`overlap_iff_common`).
-/

namespace PathTree

variable {α : Type*}

/-- `path` is `root`, or lies below it. -/
def Within (path root : List α) : Prop :=
  root <+: path

instance [DecidableEq α] (path root : List α) : Decidable (Within path root) :=
  inferInstanceAs (Decidable (root <+: path))

theorem Within.refl (p : List α) : Within p p :=
  List.prefix_refl p

theorem Within.trans {p q r : List α} (hpq : Within p q) (hqr : Within q r) : Within p r :=
  List.IsPrefix.trans hqr hpq

/-- Every root of `candidate` is within one of `base`. -/
def NoBroader (candidate base : List (List α)) : Prop :=
  ∀ c ∈ candidate, ∃ b ∈ base, Within c b

theorem NoBroader.refl (roots : List (List α)) : NoBroader roots roots :=
  fun r hr => ⟨r, hr, Within.refl r⟩

theorem NoBroader.trans {a b c : List (List α)} (hab : NoBroader a b) (hbc : NoBroader b c) :
    NoBroader a c := by
  intro x hx
  obtain ⟨y, hy, hxy⟩ := hab x hx
  obtain ⟨z, hz, hyz⟩ := hbc y hy
  exact ⟨z, hz, hxy.trans hyz⟩

theorem NoBroader.of_subset {a b : List (List α)} (h : a ⊆ b) : NoBroader a b :=
  fun x hx => ⟨x, h hx, Within.refl x⟩

theorem NoBroader.append {a b c d : List (List α)} (hab : NoBroader a b) (hcd : NoBroader c d) :
    NoBroader (a ++ c) (b ++ d) := by
  intro x hx
  rcases List.mem_append.mp hx with hx | hx
  · obtain ⟨y, hy, hxy⟩ := hab x hx
    exact ⟨y, List.mem_append_left d hy, hxy⟩
  · obtain ⟨y, hy, hxy⟩ := hcd x hx
    exact ⟨y, List.mem_append_right b hy, hxy⟩

/-- The paths below a root and below no denied one. -/
def Granted (roots denies : List (List α)) : Set (List α) :=
  {p | (∃ r ∈ roots, Within p r) ∧ ∀ d ∈ denies, ¬Within p d}

/-- Narrower roots and denials that cover the old ones grant no more. -/
theorem granted_subset {roots roots' denies denies' : List (List α)} (hr : NoBroader roots' roots)
    (hd : NoBroader denies denies') : Granted roots' denies' ⊆ Granted roots denies := by
  rintro p ⟨⟨r, hrm, hpr⟩, hp⟩
  obtain ⟨b, hb, hrb⟩ := hr r hrm
  refine ⟨⟨b, hb, hpr.trans hrb⟩, fun d hdm hpd => ?_⟩
  obtain ⟨c, hc, hdc⟩ := hd d hdm
  exact hp c hc (hpd.trans hdc)

theorem granted_nil (denies : List (List α)) : Granted [] denies = ∅ := by
  simp [Granted]

/-- One of the paths is within the other. -/
def Overlap (a b : List α) : Prop :=
  Within a b ∨ Within b a

theorem Overlap.symm {a b : List α} (h : Overlap a b) : Overlap b a :=
  Or.symm h

/-- Two paths overlap when some path is within both. -/
theorem overlap_iff_common {a b : List α} : Overlap a b ↔ ∃ p, Within p a ∧ Within p b := by
  constructor
  · rintro (h | h)
    · exact ⟨a, Within.refl a, h⟩
    · exact ⟨b, h, Within.refl b⟩
  · rintro ⟨p, ha, hb⟩
    exact (List.prefix_or_prefix_of_prefix ha hb).symm

end PathTree
