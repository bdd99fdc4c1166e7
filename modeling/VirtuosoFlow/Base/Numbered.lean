import Mathlib.Data.List.Induction
import Mathlib.Algebra.Order.Group.Int

/-!
# Numbered streams and their windows

A stream whose items carry the numbers 1, 2, 3, …, of which only the last few are
kept. A reader that remembers the greatest number it has seen asks for the later
items; it misses none as long as what it has not seen fits into the window.
-/

namespace Base

variable {α : Type*}

/-- The items of a stream carry their positions, counted from one. -/
def Numbered (number : α → ℤ) (xs : List α) : Prop :=
  ∀ i (h : i < xs.length), number xs[i] = i + 1

/-- The last items of a stream, at most `retain` many. -/
def window (retain : ℕ) (xs : List α) : List α := xs.drop (xs.length - retain)

section Numbered

variable {number : α → ℤ} {xs : List α} {x : α}

/-- An empty list is numbered. -/
theorem numbered_nil : Numbered number ([] : List α) := by
  intro i h
  cases h

/-- A stream goes on with the next number. -/
theorem Numbered.snoc (h : Numbered number xs) (hx : number x = xs.length + 1) :
    Numbered number (xs ++ [x]) := by
  intro i hi
  rw [List.length_append, List.length_singleton] at hi
  rcases Nat.lt_or_ge i xs.length with hlt | hge
  · rw [List.getElem_append_left hlt]
    exact h i hlt
  · obtain rfl : i = xs.length := by omega
    simpa using hx

/-- So is the beginning of a numbered list. -/
theorem Numbered.prefix {ys : List α} (h : Numbered number (xs ++ ys)) : Numbered number xs := by
  intro i hi
  have hat := h i (by rw [List.length_append]; omega)
  rwa [List.getElem_append_left hi] at hat

/-- The items after a number are those after its position. -/
theorem Numbered.filter_drop (h : Numbered number xs) (k : ℕ) (since : ℤ) :
    (xs.drop k).filter (fun x => decide (since < number x)) = xs.drop (max k since.toNat) := by
  induction xs using List.reverseRecOn with
  | nil => simp
  | append_singleton xs x ih =>
    have hx : number x = xs.length + 1 := by
      have hat := h xs.length (by simp)
      simpa using hat
    have hinit := ih h.prefix
    rcases Nat.lt_or_ge xs.length k with hout | hin
    · rw [List.drop_eq_nil_of_le (by rw [List.length_append, List.length_singleton]; omega),
        List.drop_eq_nil_of_le (by rw [List.length_append, List.length_singleton]; omega),
        List.filter_nil]
    · rw [List.drop_append_of_le_length hin, List.filter_append, hinit]
      by_cases hlate : since < number x
      · have hpos : max k since.toNat ≤ xs.length := by omega
        rw [List.drop_append_of_le_length hpos]
        simp [hlate]
      · have hpos : xs.length + 1 ≤ max k since.toNat := by omega
        rw [List.drop_eq_nil_of_le (by omega), List.drop_eq_nil_of_le (by simpa using hpos)]
        simp [hlate]

/-- Later items carry greater numbers. -/
theorem Numbered.pairwise_lt (h : Numbered number xs) : (xs.map number).Pairwise (· < ·) := by
  rw [List.pairwise_map, List.pairwise_iff_getElem]
  intro i j hi hj hlt
  rw [h i hi, h j hj]
  omega

/-- The number of the last item is the length of the stream. -/
theorem Numbered.getLast (h : Numbered number xs) (hne : xs ≠ []) :
    number (xs.getLast hne) = xs.length := by
  have hpos := List.length_pos_iff.mpr hne
  rw [List.getLast_eq_getElem, h _ (by omega)]
  omega

/-- The cursor of a reader that has read the items from a position on. -/
theorem Numbered.foldl_max (h : Numbered number xs) (k : ℕ) (cursor : ℤ) :
    (xs.drop k).foldl (fun since x => max since (number x)) cursor =
      if k < xs.length then max cursor xs.length else cursor := by
  induction xs using List.reverseRecOn with
  | nil => simp
  | append_singleton xs x ih =>
    have hx : number x = xs.length + 1 := by
      have hat := h xs.length (by simp)
      simpa using hat
    have hinit := ih h.prefix
    have hlen : (xs ++ [x]).length = xs.length + 1 := by simp
    rcases Nat.lt_or_ge xs.length k with hout | hin
    · rw [List.drop_eq_nil_of_le (by omega), hlen, if_neg (by omega), List.foldl_nil]
    · rw [List.drop_append_of_le_length hin, List.foldl_append, hinit, hlen,
        if_pos (by omega : k < xs.length + 1), List.foldl_cons, List.foldl_nil, hx]
      split <;> push_cast <;> omega

end Numbered

section Window

variable {xs : List α} {retain : ℕ}

/-- Keeping the window as the stream grows is keeping the window of what has grown. -/
theorem window_snoc (retain : ℕ) (xs : List α) (x : α) :
    window retain (window retain xs ++ [x]) = window retain (xs ++ [x]) := by
  rcases Nat.eq_zero_or_pos retain with rfl | hpos
  · simp [window]
  · have hdrop : xs.drop (xs.length - retain) ++ [x] = (xs ++ [x]).drop (xs.length - retain) :=
      (List.drop_append_of_le_length (Nat.sub_le _ _)).symm
    have hsame : xs.length - retain + ((xs ++ [x]).length - (xs.length - retain) - retain) =
        (xs ++ [x]).length - retain := by
      rw [List.length_append, List.length_singleton]
      omega
    unfold window
    rw [hdrop, List.drop_drop, List.length_drop, hsame]

/-- A window that holds everything a reader has not seen holds all the later items. -/
theorem max_window (cursor : ℕ) (hfit : xs.length ≤ cursor + retain) :
    xs.drop (max (xs.length - retain) cursor) = xs.drop cursor := by
  rw [Nat.max_eq_right (by omega)]

/-- What was read up to a position, and what is read from the cursor on. -/
theorem drop_take_append (xs : List α) (start seen : ℕ) :
    (xs.take seen).drop start ++ xs.drop (max start seen) = xs.drop start := by
  have hcursor : max start seen = start + (seen - start) := by omega
  rw [List.drop_take, hcursor, ← List.drop_drop, List.take_append_drop]

end Window

end Base
