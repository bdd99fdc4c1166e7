import Mathlib.Data.List.Basic

/-!
# Stores with a fixed set of slots

A store has named slots. A slot that is there can be overwritten; nothing adds or removes
one, and a write to a slot that is not there has no effect. This file says what a sequence
of writes leaves in each slot, and when a second sequence undoes a first one.
-/

namespace Base

/-- Read the value an association list gives to a key by its last entry. -/
def lastWrite {κ ν : Type*} [DecidableEq κ] (ws : List (κ × ν)) (k : κ) : Option ν :=
  ws.foldl (fun found w => if w.1 = k then some w.2 else found) none

section LastWrite

variable {κ ν : Type*} [DecidableEq κ] {ws ws' : List (κ × ν)} {k k' : κ} {v : ν}

/-- Starting from a value, the last entry still decides where there is one. -/
theorem foldl_lastWrite (ws : List (κ × ν)) (k : κ) (found : Option ν) :
    ws.foldl (fun found w => if w.1 = k then some w.2 else found) found =
      (lastWrite ws k).or found := by
  induction ws generalizing found with
  | nil => simp [lastWrite]
  | cons w ws ih =>
    have hcons : lastWrite (w :: ws) k = (lastWrite ws k).or (if w.1 = k then some w.2 else none) := by
      rw [lastWrite, List.foldl_cons, ih]
    rw [List.foldl_cons, ih, hcons, Option.or_assoc]
    by_cases h : w.1 = k <;> simp [h]

/-- Nothing is written by no writes. -/
@[simp] theorem lastWrite_nil (k : κ) : lastWrite ([] : List (κ × ν)) k = none := rfl

/-- A later write counts, and else the first. -/
theorem lastWrite_cons (w : κ × ν) (ws : List (κ × ν)) (k : κ) :
    lastWrite (w :: ws) k = (lastWrite ws k).or (if w.1 = k then some w.2 else none) := by
  rw [lastWrite, List.foldl_cons, foldl_lastWrite]

/-- A key that occurs has a last entry. -/
theorem isSome_lastWrite : (lastWrite ws k).isSome = true ↔ k ∈ ws.map Prod.fst := by
  induction ws with
  | nil => simp
  | cons w ws ih =>
    rw [lastWrite_cons, List.map_cons, List.mem_cons, Option.isSome_or, Bool.or_eq_true, ih]
    by_cases h : w.1 = k
    · simp [h]
    · simp [h, Ne.symm h]

/-- The last entry of a key is one of its entries. -/
theorem mem_of_lastWrite (h : lastWrite ws k = some v) : (k, v) ∈ ws := by
  induction ws with
  | nil => simp at h
  | cons w ws ih =>
    rw [lastWrite_cons, Option.or_eq_some_iff] at h
    rcases h with h | ⟨_, h⟩
    · exact List.mem_cons_of_mem _ (ih h)
    · by_cases hk : w.1 = k
      · obtain rfl : w.2 = v := by simpa [hk] using h
        subst hk
        exact List.mem_cons_self
      · simp [hk] at h

/-- Where the entries of each key agree, the last one has the value of any of them. -/
theorem lastWrite_eq_of_mem (value : κ → ν) (hagree : ∀ w ∈ ws, w.2 = value w.1)
    (hk : k ∈ ws.map Prod.fst) : lastWrite ws k = some (value k) := by
  obtain ⟨v, hv⟩ := Option.isSome_iff_exists.mp (isSome_lastWrite.mpr hk)
  have hvalue := hagree _ (mem_of_lastWrite hv)
  rw [hv, ← hvalue]

end LastWrite

/-- Stores `σ` whose slots `κ` hold values `ν`. -/
structure Slots (σ κ ν : Type*) [DecidableEq κ] where
  /-- What a slot holds, if it is there. -/
  get? : σ → κ → Option ν
  /-- Overwrite a slot. -/
  put : κ → ν → σ → σ
  get?_put : ∀ (s : σ) (k k' : κ) (v : ν),
    get? (put k v s) k' = if k = k' then (get? s k').map (fun _ => v) else get? s k'

namespace Slots

variable {σ κ ν : Type*} [DecidableEq κ] (L : Slots σ κ ν) {ws ws' : List (κ × ν)} {s : σ} {k : κ}

/-- Write a list of values, in order. -/
def writeAll (ws : List (κ × ν)) (s : σ) : σ := ws.foldl (fun s w => L.put w.1 w.2 s) s

/-- The first value is written first. -/
theorem writeAll_cons (w : κ × ν) (ws : List (κ × ν)) (s : σ) :
    L.writeAll (w :: ws) s = L.writeAll ws (L.put w.1 w.2 s) := rfl

/-- A sequence of writes leaves in each slot the last value written to it. -/
theorem get?_writeAll (ws : List (κ × ν)) (s : σ) (k : κ) :
    L.get? (L.writeAll ws s) k = (L.get? s k).map fun v => (lastWrite ws k).getD v := by
  induction ws generalizing s with
  | nil => simp [writeAll]
  | cons w ws ih =>
    rw [L.writeAll_cons, ih, L.get?_put, lastWrite_cons]
    by_cases h : w.1 = k
    · cases lastWrite ws k <;> simp [h, Function.comp_def]
    · simp [h]

/-- Writing to the same slots once more hides the first writes. -/
theorem get?_rewrite (hsame : ws'.map Prod.fst = ws.map Prod.fst) (s : σ) (k : κ) :
    L.get? (L.writeAll ws' (L.writeAll ws s)) k = L.get? (L.writeAll ws' s) k := by
  rw [L.get?_writeAll, L.get?_writeAll, L.get?_writeAll, Option.map_map]
  cases hlast : lastWrite ws' k with
  | some v => cases L.get? s k <;> simp
  | none =>
    have hnot : lastWrite ws k = none := by
      rw [← Option.not_isSome_iff_eq_none, isSome_lastWrite, ← hsame, ← isSome_lastWrite, hlast]
      simp
    cases L.get? s k <;> simp [hnot]

/-- A sequence of writes leaves a slot it names alone exactly if its last value for the slot is
the one that is there. -/
theorem get?_writeAll_eq_iff (hk : k ∈ ws.map Prod.fst) :
    L.get? (L.writeAll ws s) k = L.get? s k ↔ ∀ v, L.get? s k = some v → lastWrite ws k = some v := by
  obtain ⟨u, hu⟩ := Option.isSome_iff_exists.mp (isSome_lastWrite.mpr hk)
  rw [L.get?_writeAll, hu]
  cases L.get? s k with
  | none => simp
  | some v => simp

/-- Two stores differ only at these slots: one is the other with writes to some of them. -/
def DifferOnlyAt (ks : List κ) (s s' : σ) : Prop := ∃ ws, (∀ e ∈ ws, e.1 ∈ ks) ∧ s' = L.writeAll ws s

/-- Writes to slots that change nothing else, in stores that have nothing hidden in a slot. -/
structure Lawful : Prop where
  put_same : ∀ (s : σ) (k : κ) (v : ν), (∀ x, L.get? s k = some x → x = v) → L.put k v s = s
  put_put : ∀ (s : σ) (k : κ) (v v' : ν), L.put k v (L.put k v' s) = L.put k v s
  put_comm : ∀ (s : σ) (k k' : κ) (v v' : ν), k ≠ k' →
    L.put k v (L.put k' v' s) = L.put k' v' (L.put k v s)

variable {L}

/-- Writes hide what was written to one of their slots before. -/
theorem Lawful.writeAll_put (hL : L.Lawful) (hk : k ∈ ws.map Prod.fst) (s : σ) (v : ν) :
    L.writeAll ws (L.put k v s) = L.writeAll ws s := by
  induction ws generalizing s with
  | nil => simp at hk
  | cons w ws ih =>
    rw [L.writeAll_cons, L.writeAll_cons]
    by_cases hw : w.1 = k
    · rw [hw, hL.put_put]
    · have hrest : k ∈ ws.map Prod.fst := by
        rw [List.map_cons, List.mem_cons] at hk
        exact hk.resolve_left (Ne.symm hw)
      rw [hL.put_comm _ _ _ _ _ hw, ih hrest]

/-- Writes hide all that was written to their slots before. -/
theorem Lawful.writeAll_writeAll (hL : L.Lawful) (hks : ∀ e ∈ ws, e.1 ∈ ws'.map Prod.fst) (s : σ) :
    L.writeAll ws' (L.writeAll ws s) = L.writeAll ws' s := by
  induction ws generalizing s with
  | nil => rfl
  | cons w ws ih =>
    have hrest : ∀ e ∈ ws, e.1 ∈ ws'.map Prod.fst := fun e he => hks e (List.mem_cons_of_mem _ he)
    rw [L.writeAll_cons, ih hrest, hL.writeAll_put (hks w List.mem_cons_self)]

/-- Writing what is there changes nothing. -/
theorem Lawful.writeAll_same (hL : L.Lawful)
    (hlast : ∀ e ∈ ws, ∀ x, L.get? s e.1 = some x → lastWrite ws e.1 = some x) : L.writeAll ws s = s := by
  induction ws with
  | nil => rfl
  | cons w ws ih =>
    have hrest : L.writeAll ws s = s := by
      apply ih
      intro e he x hx
      have hcons := hlast e (List.mem_cons_of_mem _ he) x hx
      obtain ⟨y, hy⟩ := Option.isSome_iff_exists.mp (isSome_lastWrite.mpr (List.mem_map.mpr ⟨e, he, rfl⟩))
      rw [lastWrite_cons, hy, Option.some_or] at hcons
      rw [hy, hcons]
    rw [L.writeAll_cons]
    by_cases hw : w.1 ∈ ws.map Prod.fst
    · rw [hL.writeAll_put hw, hrest]
    · have hnone : lastWrite ws w.1 = none := by
        rw [← Option.not_isSome_iff_eq_none, isSome_lastWrite]
        exact hw
      rw [hL.put_same s w.1 w.2, hrest]
      intro x hx
      have hcons := hlast w List.mem_cons_self x hx
      rw [lastWrite_cons, hnone, if_pos rfl, Option.none_or] at hcons
      exact (Option.some.inj hcons).symm

/-- Writes bring a store back to another exactly if their last values are what this one has, and the
two differ only at the slots written. -/
theorem Lawful.writeAll_eq_iff (hL : L.Lawful) (ws : List (κ × ν)) (s s' : σ) : L.writeAll ws s' = s ↔
    (∀ e ∈ ws, ∀ x, L.get? s e.1 = some x → lastWrite ws e.1 = some x) ∧
      L.DifferOnlyAt (ws.map Prod.fst) s s' := by
  constructor
  · rintro rfl
    refine ⟨?_, ws.map fun e => (e.1, (L.get? s' e.1).getD e.2), ?_, ?_⟩
    · intro e he x hx
      obtain ⟨y, hy⟩ := Option.isSome_iff_exists.mp (isSome_lastWrite.mpr (List.mem_map.mpr ⟨e, he, rfl⟩))
      rw [L.get?_writeAll, hy] at hx
      obtain ⟨_, _, rfl⟩ := Option.map_eq_some_iff.mp hx
      exact hy
    · intro e he
      obtain ⟨e', he', rfl⟩ := List.mem_map.mp he
      exact List.mem_map.mpr ⟨e', he', rfl⟩
    · have hkeys : (ws.map fun e => (e.1, (L.get? s' e.1).getD e.2)).map Prod.fst = ws.map Prod.fst := by
        rw [List.map_map]
        rfl
      rw [hL.writeAll_writeAll (by rw [hkeys]; exact fun e he => List.mem_map.mpr ⟨e, he, rfl⟩)]
      refine (hL.writeAll_same ?_).symm
      intro e he x hx
      obtain ⟨y, hy⟩ := Option.isSome_iff_exists.mp (isSome_lastWrite.mpr (List.mem_map.mpr ⟨e, he, rfl⟩))
      obtain ⟨e', _, heq⟩ := List.mem_map.mp (mem_of_lastWrite hy)
      obtain ⟨hkey, hvalue⟩ := Prod.mk.inj heq
      rw [hy, ← hvalue, hkey, hx, Option.getD_some]
  · rintro ⟨hlast, ws', hks, rfl⟩
    rw [hL.writeAll_writeAll hks]
    exact hL.writeAll_same hlast

end Slots

end Base
