import Mathlib.Data.List.Basic
import Mathlib.Logic.Function.Basic

/-!
# Writing behind

A store whose memory changes first and whose disk follows: each change leaves writes to be done
later, in any order. Where no write of a key is outstanding, disk and memory agree, as long as
the write that is done last for a key writes what memory has.
-/

namespace Base

/-- Memory and disk by key, and the keys that have writes outstanding. -/
structure Behind (κ ν : Type*) where
  memory : κ → Option ν
  disk : κ → Option ν
  queued : κ → Prop

namespace Behind

variable {κ ν : Type*} {b b' : Behind κ ν}

/-- Disk and memory agree on every key without an outstanding write. -/
def Agrees (b : Behind κ ν) : Prop := ∀ k, ¬ b.queued k → b.disk k = b.memory k

/-- Once nothing is outstanding, the disk has what memory has. -/
theorem Agrees.settled (h : b.Agrees) (hnone : ∀ k, ¬ b.queued k) : b.disk = b.memory := by
  funext k
  exact h k (hnone k)

/-- A change of memory that leaves a write for every key it changes. -/
theorem Agrees.update (h : b.Agrees) (hdisk : b'.disk = b.disk) (hkept : ∀ k, b.queued k → b'.queued k)
    (hcovers : ∀ k, ¬ b'.queued k → b'.memory k = b.memory k) : b'.Agrees := by
  intro k hnot
  have hnot' : ¬ b.queued k := fun hqueued => hnot (hkept k hqueued)
  rw [hdisk, hcovers k hnot]
  exact h k hnot'

/-- A write of one key: if it is the last outstanding one, it writes what memory has. -/
theorem Agrees.write (h : b.Agrees) (k : κ) (hmemory : b'.memory = b.memory)
    (hothers : ∀ k', k' ≠ k → b'.disk k' = b.disk k' ∧ (b.queued k' → b'.queued k'))
    (hlast : ¬ b'.queued k → b'.disk k = b.memory k) : b'.Agrees := by
  intro k' hnot
  rw [hmemory]
  by_cases hk : k' = k
  · subst hk
    exact hlast hnot
  · obtain ⟨hdisk, hkept⟩ := hothers k' hk
    rw [hdisk]
    exact h k' fun hqueued => hnot (hkept hqueued)

end Behind

section Queues

variable {α : Type*} {queues : List (List α)} {i : ℕ} {a x : α} {rest : List α}

/-- Taking the first of one queue leaves all the others. -/
theorem mem_flatten_of_next (h : queues[i]? = some (a :: rest)) :
    x ∈ queues.flatten ↔ x = a ∨ x ∈ (queues.set i rest).flatten := by
  induction queues generalizing i with
  | nil => simp at h
  | cons q qs ih =>
    cases i with
    | zero =>
      obtain rfl : q = a :: rest := by simpa using h
      simp
    | succ i =>
      have htail : qs[i]? = some (a :: rest) := by simpa using h
      rw [List.flatten_cons, List.mem_append, ih htail, List.set_cons_succ, List.flatten_cons,
        List.mem_append]
      tauto

end Queues

end Base
