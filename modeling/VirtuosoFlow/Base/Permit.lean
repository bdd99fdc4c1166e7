import Mathlib.Data.List.Perm.Subperm

/-!
# One permit for several workers

Several workers compete for one permit. Whoever takes it may do each of the things on a
list once; nobody else may do any of them, and nobody may once the permit is withdrawn.
`Permitted` counts what was done together with what the workers may still do.
-/

namespace Base

variable {α : Type*}

/-- Everything `done` and everything that the workers have `ahead` is covered by one use of
the permit, and there is nothing of either while the permit is `free`. -/
structure Permitted (todo : List α) (free : Prop) (ahead : List (List α)) (done : List α) :
    Prop where
  covered : (done ++ ahead.flatten).Subperm todo
  untouched : free → done = [] ∧ ahead.flatten = []

/-- Exchanging one worker's list splits the whole around it. -/
theorem flatten_set_perm {ahead : List (List α)} {i : ℕ} {l : List α} (hi : ahead[i]? = some l) :
    ∃ rest, ahead.flatten.Perm (l ++ rest) ∧ ∀ l', (ahead.set i l').flatten.Perm (l' ++ rest) := by
  induction ahead generalizing i with
  | nil => simp at hi
  | cons first others ih =>
    cases i with
    | zero =>
      obtain rfl : first = l := by simpa using hi
      exact ⟨others.flatten, by simp, fun l' => by simp⟩
    | succ i =>
      obtain ⟨rest, hall, hset⟩ := ih (by simpa using hi)
      refine ⟨first ++ rest, ?_, ?_⟩
      · rw [List.flatten_cons]
        exact (hall.append_left first).trans (List.perm_append_comm_assoc _ _ _)
      · intro l'
        rw [List.set_cons_succ, List.flatten_cons]
        exact ((hset l').append_left first).trans (List.perm_append_comm_assoc _ _ _)

namespace Permitted

variable {todo : List α} {free free' : Prop} {ahead : List (List α)} {done acts l l' : List α}
variable {i : ℕ}

/-- Before anybody works there is nothing to cover. -/
theorem start (todo : List α) (free : Prop) : Permitted todo free [] [] :=
  ⟨by simp, fun _ => by simp⟩

/-- A worker may join. -/
theorem join (h : Permitted todo free ahead done) : Permitted todo free (ahead ++ [[]]) done := by
  constructor
  · simpa using h.covered
  · simpa using h.untouched

/-- The permit may be lost. -/
theorem lose (h : Permitted todo free ahead done) (hfree : free' → free) :
    Permitted todo free' ahead done :=
  ⟨h.covered, fun hf => h.untouched (hfree hf)⟩

/-- A free permit may be withdrawn: nothing may be done from then on. -/
theorem withdraw (h : Permitted todo free ahead done) (hfree : free) :
    Permitted [] free' ahead done := by
  obtain ⟨hdone, hahead⟩ := h.untouched hfree
  exact ⟨by simp [hdone, hahead], fun _ => ⟨hdone, hahead⟩⟩

/-- A worker may take a free permit. -/
theorem take (h : Permitted todo free ahead done) (hfree : free) (hfree' : ¬ free')
    (hi : ahead[i]? = some l) : Permitted todo free' (ahead.set i todo) done := by
  obtain ⟨hdone, hahead⟩ := h.untouched hfree
  obtain ⟨rest, hall, hset⟩ := flatten_set_perm hi
  have hrest : rest = [] := by
    rw [hahead] at hall
    exact (List.append_eq_nil_iff.mp hall.symm.eq_nil).2
  refine ⟨?_, fun hf => absurd hf hfree'⟩
  have hperm := hset todo
  rw [hrest, List.append_nil] at hperm
  rw [hdone, List.nil_append]
  exact hperm.subperm

/-- A worker may do some of what it has ahead, and drop some of it. -/
theorem spend (h : Permitted todo free ahead done) (hfree : free' → free)
    (hi : ahead[i]? = some l) (hl : (acts ++ l').Subperm l) :
    Permitted todo free' (ahead.set i l') (done ++ acts) := by
  obtain ⟨rest, hall, hset⟩ := flatten_set_perm hi
  constructor
  · have hspent : ((done ++ acts) ++ (ahead.set i l').flatten).Perm
        (done ++ ((acts ++ l') ++ rest)) := by
      simpa [List.append_assoc] using (hset l').append_left (done ++ acts)
    have hless : (done ++ ((acts ++ l') ++ rest)).Subperm (done ++ (l ++ rest)) :=
      (List.subperm_append_left done).mpr ((List.subperm_append_right rest).mpr hl)
    have hbefore : (done ++ (l ++ rest)).Perm (done ++ ahead.flatten) :=
      (hall.symm).append_left done
    exact hspent.subperm.trans (hless.trans (hbefore.subperm.trans h.covered))
  · intro hf
    obtain ⟨hdone, hahead⟩ := h.untouched (hfree hf)
    rw [hahead] at hall
    have hsplit := List.append_eq_nil_iff.mp hall.symm.eq_nil
    rw [hsplit.1, List.subperm_nil, List.append_eq_nil_iff] at hl
    have hrest := hset l'
    rw [hl.2, hsplit.2] at hrest
    exact ⟨by rw [hdone, hl.1]; rfl, by rw [hl.2]; exact hrest.eq_nil⟩

/-- Nothing on the list is done more often than it stands there. -/
theorem count_done_le [DecidableEq α] (h : Permitted todo free ahead done) (a : α) :
    done.count a ≤ todo.count a := by
  have hcount := h.covered.count_le a
  rw [List.count_append] at hcount
  omega

/-- Without a permit nothing is done. -/
theorem done_eq_nil (h : Permitted [] free ahead done) : done = [] := by
  have hnil := List.subperm_nil.mp h.covered
  exact (List.append_eq_nil_iff.mp hnil).1

end Permitted

end Base
