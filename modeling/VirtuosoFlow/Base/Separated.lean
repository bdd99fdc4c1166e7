import Mathlib.Data.List.Basic

/-!
# Names on both sides of a doubled character

Two texts that are put together with a doubled character between them can be told apart in the
result unless part of one side reads as the other: either the separator stands one character
further, or a whole separator lies inside one of the sides.
-/

namespace Base

variable {α : Type*} {c : α} {a b r s : List α}

/-- The texts with the separator between them. -/
def separated (c : α) (a r : List α) : List α := a ++ c :: c :: r

/-- The second cut stands further to the right than the first in the same text. -/
def CutLater (c : α) (a r b s : List α) : Prop :=
  (b = a ++ [c] ∧ r = c :: s) ∨ ∃ y, b = separated c a y ∧ r = separated c y s

/-- Both cuts are of the same text. -/
theorem CutLater.separated_eq (h : CutLater c a r b s) : separated c a r = separated c b s := by
  rcases h with ⟨rfl, rfl⟩ | ⟨y, rfl, rfl⟩ <;> simp [separated]

/-- The second side is longer where the cut stands further to the right. -/
theorem CutLater.length_lt (h : CutLater c a r b s) : a.length < b.length := by
  rcases h with ⟨rfl, -⟩ | ⟨y, rfl, -⟩
  · rw [List.length_append, List.length_singleton]
    omega
  · rw [separated, List.length_append, List.length_cons]
    omega

/-- A side that reaches beyond the first cut ends with the character or contains the separator. -/
theorem CutLater.ends_or_doubles (h : CutLater c a r b s) : [c] <:+ b ∨ [c, c] <:+: b := by
  rcases h with ⟨rfl, -⟩ | ⟨y, rfl, -⟩
  · exact .inl ⟨a, rfl⟩
  · exact .inr ⟨a, y, by simp [separated]⟩

/-- A cut of the same text at another place. -/
theorem cutLater_of_append {x : List α} (h : x ++ c :: c :: s = c :: c :: r) (hx : x ≠ []) :
    CutLater c a r (a ++ x) s := by
  cases x with
  | nil => exact absurd rfl hx
  | cons d x =>
    obtain ⟨rfl, hrest⟩ := List.cons.inj h
    cases x with
    | nil => exact .inl ⟨rfl, (List.cons.inj hrest).2.symm⟩
    | cons e x =>
      obtain ⟨rfl, rfl⟩ := List.cons.inj hrest
      exact .inr ⟨x, rfl, rfl⟩

/-- When two pairs of texts give the same text. -/
theorem separated_eq_iff : separated c a r = separated c b s ↔
    (a = b ∧ r = s) ∨ CutLater c a r b s ∨ CutLater c b s a r := by
  constructor
  · intro h
    rcases List.append_eq_append_iff.mp h with ⟨x, rfl, hx⟩ | ⟨x, rfl, hx⟩
    · by_cases hnil : x = []
      · subst hnil
        exact .inl ⟨by simp, by simpa using hx⟩
      · exact .inr (.inl (cutLater_of_append hx.symm hnil))
    · by_cases hnil : x = []
      · subst hnil
        exact .inl ⟨by simp, by simpa using hx.symm⟩
      · exact .inr (.inr (cutLater_of_append hx.symm hnil))
  · rintro (⟨rfl, rfl⟩ | h | h)
    · rfl
    · exact h.separated_eq
    · exact h.separated_eq.symm

end Base
