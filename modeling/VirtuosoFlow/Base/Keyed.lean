import Mathlib.Data.List.Nodup

/-!
# Lists whose elements have keys of their own

A list in which no two elements share a key is searched like a table: looking for the key of an
element finds this element, and two elements of one key are one.
-/

namespace Base

variable {α κ : Type*} [DecidableEq κ] {key : α → κ} {l : List α} {a b : α}

/-- The search for the key of an element finds the element. -/
theorem find?_key (hdistinct : (l.map key).Nodup) (ha : a ∈ l) : (l.find? fun x => key x = key a) = some a := by
  induction l with
  | nil => cases ha
  | cons x l ih =>
    rw [List.map_cons, List.nodup_cons] at hdistinct
    rcases List.mem_cons.mp ha with rfl | hmem
    · simp
    · have hne : key x ≠ key a := by
        intro heq
        apply hdistinct.1
        rw [heq]
        exact List.mem_map_of_mem hmem
      simp [hne, ih hdistinct.2 hmem]

/-- Elements of one key are one element. -/
theorem eq_of_key (hdistinct : (l.map key).Nodup) (ha : a ∈ l) (hb : b ∈ l) (hkey : key a = key b) : a = b := by
  have hfound := find?_key hdistinct ha
  rw [hkey, find?_key hdistinct hb] at hfound
  exact (Option.some.inj hfound).symm

end Base
