import Mathlib.Data.List.Sort
import Mathlib.Order.Basic

/-!
# Stable sorts

What a stable sort lists first among the items that pass a test, and when a list that was sorted by a fine
key, latest first, comes out in the order of that key when it is sorted again by a coarser one.
-/

namespace Base

variable {α κ μ : Type*}

/-- Two places of a list without duplicates are in one order only. -/
theorem pair_sublist_asymm {l : List α} {x y : α} (hl : l.Nodup) (h : [x, y].Sublist l) :
    ¬ [y, x].Sublist l := by
  induction l with
  | nil => cases h
  | cons a l ih =>
    obtain ⟨hnot, hnodup⟩ := List.nodup_cons.mp hl
    intro hback
    rcases List.cons_sublist_cons'.mp h with hrest | ⟨rfl, hy⟩
    · rcases List.cons_sublist_cons'.mp hback with hback | ⟨rfl, -⟩
      · exact ih hnodup hrest hback
      · exact hnot (hrest.subset (by simp))
    · rcases List.cons_sublist_cons'.mp hback with hback | ⟨rfl, -⟩
      · exact hnot (hback.subset (by simp))
      · exact hnot (List.singleton_sublist.mp hy)

section Head

variable {r : α → α → Prop} [DecidableRel r] [Std.Total r] [IsTrans α r]
variable {l : List α} {p : α → Bool} {x y : α}

/-- The first item that passes comes before every other that passes; one that is no later by the order
alone did not stand before it in the list. -/
theorem rel_of_head_insertionSort (hl : l.Nodup) (hx : ((l.insertionSort r).filter p).head? = some x)
    (hy : y ∈ l) (hp : p y = true) (hne : y ≠ x) : r x y ∧ (r y x → ¬ [y, x].Sublist l) := by
  obtain ⟨rest, hsplit⟩ : ∃ rest, (l.insertionSort r).filter p = x :: rest :=
    List.head?_eq_some_iff.mp hx
  have hmem : y ∈ (l.insertionSort r).filter p := List.mem_filter.mpr ⟨(List.mem_insertionSort r).mpr hy, hp⟩
  rw [hsplit] at hmem
  have hrest : y ∈ rest := (List.mem_cons.mp hmem).resolve_left hne
  have hordered : [x, y].Sublist (l.insertionSort r) := by
    have hpair : [x, y].Sublist (x :: rest) := (List.singleton_sublist.mpr hrest).cons_cons x
    rw [← hsplit] at hpair
    exact hpair.trans List.filter_sublist
  constructor
  · exact List.pairwise_pair.mp ((List.pairwise_insertionSort r l).sublist hordered)
  · intro hback hbefore
    have hturned : [y, x].Sublist (l.insertionSort r) := List.pair_sublist_insertionSort hback hbefore
    have hnodup : (l.insertionSort r).Nodup := (List.perm_insertionSort r l).nodup_iff.mpr hl
    exact pair_sublist_asymm hnodup hturned hordered

end Head

section Resort

variable [LinearOrder κ] [LinearOrder μ] {fine : α → κ} {coarse : α → μ} {l : List α}

/-- A list with the latest item first, sorted again by a coarser key, comes out with the earliest first just
when no two items share that key: those that do keep their order. -/
theorem pairwise_resort_iff (hl : l.Pairwise fun a b => fine b < fine a)
    (hmono : ∀ a ∈ l, ∀ b ∈ l, fine a ≤ fine b → coarse a ≤ coarse b) :
    (l.insertionSort fun a b => coarse a ≤ coarse b).Pairwise (fun a b => fine a < fine b) ↔
      l.Pairwise fun a b => coarse a ≠ coarse b := by
  have : Std.Total fun a b : α => coarse a ≤ coarse b := ⟨fun a b => le_total (coarse a) (coarse b)⟩
  have : IsTrans α fun a b : α => coarse a ≤ coarse b := ⟨fun _ _ _ h h' => h.trans h'⟩
  constructor
  · intro hsorted
    refine List.pairwise_iff_forall_sublist.mpr ?_
    intro a b hab hsame
    have hkept : [a, b].Sublist (l.insertionSort fun a b => coarse a ≤ coarse b) :=
      List.pair_sublist_insertionSort hsame.le hab
    have hearlier : fine a < fine b := List.pairwise_iff_forall_sublist.mp hsorted hkept
    have hlater : fine b < fine a := List.pairwise_iff_forall_sublist.mp hl hab
    exact hearlier.asymm hlater
  · intro hapart
    have hcoarse := List.pairwise_insertionSort (fun a b : α => coarse a ≤ coarse b) l
    have hdistinct : (l.insertionSort fun a b => coarse a ≤ coarse b).Pairwise fun a b => coarse a ≠ coarse b :=
      (List.perm_insertionSort _ l).symm.pairwise hapart fun h => h.symm
    refine (hcoarse.and hdistinct).imp_of_mem ?_
    intro a b ha hb hab
    rw [List.mem_insertionSort] at ha hb
    by_contra hnot
    exact hab.2 (le_antisymm hab.1 (hmono b hb a ha (not_lt.mp hnot)))

end Resort

end Base
