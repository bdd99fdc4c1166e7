import Mathlib.Data.List.Basic

/-!
# Texts put together with delimiters

Texts without a delimiter that are put together with it can be told apart in the result: the text before
the first delimiter, the text after the last one, and the whole list of texts between delimiters.
-/

namespace Base

variable {α : Type} {c : α} {a b r s : List α}

/-- The text after the last delimiter and what comes before it. -/
theorem after_last_inj (ha : c ∉ a) (hb : c ∉ b) (h : r ++ c :: a = s ++ c :: b) : r = s ∧ a = b := by
  rcases List.append_eq_append_iff.mp h with ⟨x, rfl, hx⟩ | ⟨x, rfl, hx⟩
  · cases x with
    | nil =>
      obtain ⟨-, htail⟩ := List.cons.inj hx
      exact ⟨by simp, htail⟩
    | cons d x =>
      obtain ⟨-, htail⟩ := List.cons.inj hx
      exact absurd (htail ▸ List.mem_append_right x List.mem_cons_self) ha
  · cases x with
    | nil =>
      obtain ⟨-, htail⟩ := List.cons.inj hx
      exact ⟨by simp, htail.symm⟩
    | cons d x =>
      obtain ⟨-, htail⟩ := List.cons.inj hx
      exact absurd (htail ▸ List.mem_append_right x List.mem_cons_self) hb

/-- The text before the first delimiter and what comes after it. -/
theorem before_first_inj (ha : c ∉ a) (hb : c ∉ b) (h : a ++ c :: r = b ++ c :: s) : a = b ∧ r = s := by
  have hrev : r.reverse ++ c :: a.reverse = s.reverse ++ c :: b.reverse := by
    simpa using congrArg List.reverse h
  obtain ⟨hr, ha⟩ := after_last_inj (by simpa using ha) (by simpa using hb) hrev
  exact ⟨List.reverse_injective ha, List.reverse_injective hr⟩

section Between

variable {xs ys : List (List α)}

/-- Texts with a delimiter between them are no empty text, unless there are none. -/
theorem intercalate_ne_nil (hxs : ∀ x ∈ xs, x ≠ []) (hne : xs ≠ []) : [c].intercalate xs ≠ [] := by
  cases xs with
  | nil => exact absurd rfl hne
  | cons x xs =>
    have hx := hxs x List.mem_cons_self
    cases xs with
    | nil => simpa using hx
    | cons y xs => simp [List.intercalate_cons_cons, hx]

/-- The texts between the delimiters. -/
theorem intercalate_inj [DecidableEq α] (hxs : ∀ x ∈ xs, x ≠ [] ∧ c ∉ x) (hys : ∀ y ∈ ys, y ≠ [] ∧ c ∉ y)
    (h : [c].intercalate xs = [c].intercalate ys) : xs = ys := by
  by_cases hx : xs = []
  · by_contra hne
    have hy : ys ≠ [] := fun hy => hne (hx.trans hy.symm)
    refine intercalate_ne_nil (c := c) (fun y hmem => (hys y hmem).1) hy ?_
    rw [← h, hx]
    rfl
  · by_cases hy : ys = []
    · refine absurd ?_ (intercalate_ne_nil (c := c) (fun x hmem => (hxs x hmem).1) hx)
      rw [h, hy]
      rfl
    · have hsplit := congrArg (List.splitOn c) h
      rwa [List.splitOn_intercalate c (fun x hmem => (hxs x hmem).2) hx,
        List.splitOn_intercalate c (fun y hmem => (hys y hmem).2) hy] at hsplit

/-- Texts with something between them have no other elements than these have. -/
theorem not_mem_intercalate {d : α} {sep : List α} (hsep : d ∉ sep) (hxs : ∀ x ∈ xs, d ∉ x) :
    d ∉ sep.intercalate xs := by
  induction xs with
  | nil => exact List.not_mem_nil
  | cons x xs ih =>
    have hx := hxs x List.mem_cons_self
    have hrest := ih fun y hy => hxs y (List.mem_cons_of_mem x hy)
    cases xs with
    | nil => simpa using hx
    | cons y xs =>
      rw [List.intercalate_cons_cons]
      simp [hx, hsep, hrest]

/-- A character in neither the separator nor the parts is not in the joined text. -/
theorem not_mem_string_intercalate {d : Char} {sep : String} {xs : List String} (hsep : d ∉ sep.toList)
    (hxs : ∀ x ∈ xs, d ∉ x.toList) : d ∉ (sep.intercalate xs).toList := by
  rw [String.toList_intercalate]
  exact not_mem_intercalate hsep (by simpa using hxs)

/-- The strings between the delimiters. -/
theorem string_intercalate_inj {sep : String} {c : Char} {xs ys : List String} (hsep : sep.toList = [c])
    (hxs : ∀ x ∈ xs, x ≠ "" ∧ c ∉ x.toList) (hys : ∀ y ∈ ys, y ≠ "" ∧ c ∉ y.toList)
    (h : sep.intercalate xs = sep.intercalate ys) : xs = ys := by
  have hlist := congrArg String.toList h
  rw [String.toList_intercalate, String.toList_intercalate, hsep] at hlist
  have hmaps := intercalate_inj (by simpa using hxs) (by simpa using hys) hlist
  exact List.map_injective_iff.mpr (fun _ _ => String.toList_inj.mp) hmaps

end Between

end Base
