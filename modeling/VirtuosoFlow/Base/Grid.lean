import Mathlib.Algebra.Order.Field.Basic
import Mathlib.Algebra.Order.Group.Unbundled.Abs
import Mathlib.Data.Int.Cast.Lemmas
import Mathlib.Logic.Relation
import Mathlib.Order.CompletePartialOrder
import Mathlib.Order.Interval.Set.Basic
import Mathlib.Tactic.Linarith
import Mathlib.Tactic.Positivity

/-!
# Square grids

The cell of a column and a row is a closed square. Two facts about such cells: which
of them meet, and what it means to walk from one to another inside a set.
-/

namespace Base

/-- The columns and the rows of two places differ by one step in all. -/
def Adjacent (a b : ℤ × ℤ) : Prop := |a.1 - b.1| + |a.2 - b.2| = 1

instance (a b : ℤ × ℤ) : Decidable (Adjacent a b) := inferInstanceAs (Decidable (_ = _))

/-- Being adjacent is symmetric. -/
theorem Adjacent.symm {a b : ℤ × ℤ} (h : Adjacent a b) : Adjacent b a := by
  unfold Adjacent at *
  rwa [abs_sub_comm b.1 a.1, abs_sub_comm b.2 a.2]

section Boxes

variable {K : Type*} [Field K] [LinearOrder K] [IsStrictOrderedRing K]

/-- The closed square of a place on the grid with this origin and pitch. -/
def cellBox (x₀ y₀ p : K) (a : ℤ × ℤ) : Set (K × K) :=
  Set.Icc (x₀ + a.1 * p, y₀ + a.2 * p) (x₀ + (a.1 + 1) * p, y₀ + (a.2 + 1) * p)

/-- Two cells of one line meet exactly if their numbers differ by one at most. -/
theorem cell_interval_meets {x₀ p : K} (hp : 0 < p) (m n : ℤ) :
    max (x₀ + m * p) (x₀ + n * p) ≤ min (x₀ + (m + 1) * p) (x₀ + (n + 1) * p) ↔ |m - n| ≤ 1 := by
  have hstep : ∀ i j : ℤ, x₀ + (i : K) * p ≤ x₀ + ((j : K) + 1) * p ↔ i ≤ j + 1 := by
    intro i j
    rw [add_le_add_iff_left, mul_le_mul_iff_of_pos_right hp]
    exact_mod_cast Iff.rfl
  rw [max_le_iff, le_min_iff, le_min_iff, hstep, hstep, hstep, hstep, abs_le]
  constructor
  · intro h
    omega
  · intro h
    omega

/-- Two cells are apart exactly if they are two columns or two rows apart. -/
theorem cellBox_disjoint_iff {x₀ y₀ p : K} (hp : 0 < p) (a b : ℤ × ℤ) :
    Disjoint (cellBox x₀ y₀ p a) (cellBox x₀ y₀ p b) ↔ 2 ≤ |a.1 - b.1| ∨ 2 ≤ |a.2 - b.2| := by
  unfold cellBox
  rw [Set.disjoint_iff_inter_eq_empty, Set.Icc_inter_Icc, Set.Icc_eq_empty_iff]
  rw [Prod.le_def]
  change ¬ (max _ _ ≤ min _ _ ∧ max _ _ ≤ min _ _) ↔ _
  rw [cell_interval_meets hp, cell_interval_meets hp]
  omega

end Boxes

section Walks

variable {α : Type*} {step step' : α → α → Prop} {S S' : Set α} {a b : α}

/-- A walk from one place to another that stays in a set. -/
def Joined (step : α → α → Prop) (S : Set α) : α → α → Prop :=
  Relation.ReflTransGen fun a b => a ∈ S ∧ b ∈ S ∧ step a b

/-- More places and more steps only make more walks. -/
theorem Joined.mono (hS : S ⊆ S') (hstep : ∀ a ∈ S, ∀ b ∈ S, step a b → step' a b)
    (h : Joined step S a b) : Joined step' S' a b := by
  refine Relation.ReflTransGen.mono ?_ _ _ h
  intro a b hab
  exact ⟨hS hab.1, hS hab.2.1, hstep a hab.1 b hab.2.1 hab.2.2⟩

/-- A place that no step leaves is joined to nothing else. -/
theorem Joined.eq_of_isolated (hisolated : ∀ b ∈ S, ¬ step a b) (h : Joined step S a b) : a = b := by
  cases h.cases_head with
  | inl heq => exact heq
  | inr hhead =>
    obtain ⟨c, hstep, _⟩ := hhead
    exact absurd hstep.2.2 (hisolated c hstep.2.1)

end Walks

end Base
