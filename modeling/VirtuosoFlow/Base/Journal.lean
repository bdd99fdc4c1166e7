import Mathlib.Data.List.Basic
import Mathlib.Data.List.Induction
import Mathlib.Logic.Function.Basic

/-!
# Journals of reversible changes

A journal lists changes, oldest first. Each change recorded the values it found and the
values it left, and it may have been undone since. The journal tells the truth about a
store if each key holds what the newest change still standing left there. Undoing a change
writes back what it found, and keeps the journal truthful if no later change that still
stands touched the same keys.
-/

namespace Base

/-- A change: the values found and left at the keys it touched, and whether it still stands. -/
structure Change (κ ν : Type*) where
  before : κ → Option ν
  after : κ → Option ν
  standing : Bool

namespace Change

variable {κ ν : Type*} {base base' : κ → ν} {e f : Change κ ν} {es older newer : List (Change κ ν)} {k : κ}

/-- The values a change leaves over given ones, as far as it stands. -/
def overlay (e : Change κ ν) (base : κ → ν) : κ → ν := fun k =>
  if e.standing then (e.after k).getD (base k) else base k

/-- The values a journal leaves: those of the newest standing changes. -/
def replay (base : κ → ν) (es : List (Change κ ν)) : κ → ν :=
  es.foldl (fun values e => e.overlay values) base

/-- A change that was undone. -/
def undone (e : Change κ ν) : Change κ ν := { e with standing := false }

/-- The change stands and touched a key. -/
def Covers (e : Change κ ν) (k : κ) : Prop := e.standing = true ∧ (e.after k).isSome = true

/-- Every standing change found what the changes before it left. -/
def Chained (base : κ → ν) : List (Change κ ν) → Prop
  | [] => True
  | e :: es => (∀ k, e.Covers k → e.before k = some (base k)) ∧ Chained (e.overlay base) es

/-- No changes leave all as it is. -/
@[simp] theorem replay_nil (base : κ → ν) : replay base [] = base := rfl

/-- The first change is made first. -/
@[simp] theorem replay_cons (base : κ → ν) (e : Change κ ν) (es : List (Change κ ν)) :
    replay base (e :: es) = replay (e.overlay base) es := rfl

/-- Changes are made one part after the other. -/
theorem replay_append (base : κ → ν) (es fs : List (Change κ ν)) :
    replay base (es ++ fs) = replay (replay base es) fs := List.foldl_append

/-- A change that was undone leaves all as it is. -/
@[simp] theorem overlay_undone (e : Change κ ν) (base : κ → ν) : e.undone.overlay base = base := rfl

/-- A change that does not cover a key leaves what is below. -/
theorem overlay_of_not_covers (h : ¬ e.Covers k) (base : κ → ν) : e.overlay base k = base k := by
  unfold overlay
  by_cases hstanding : e.standing = true
  · have hnone : e.after k = none := by
      by_contra hsome
      exact h ⟨hstanding, Option.isSome_iff_ne_none.mpr hsome⟩
    simp [hnone]
  · simp [hstanding]

/-- A change that covers a key leaves what it recorded there. -/
theorem overlay_of_covers (h : e.Covers k) (base : κ → ν) : some (e.overlay base k) = e.after k := by
  obtain ⟨v, hv⟩ := Option.isSome_iff_exists.mp h.2
  simp [overlay, h.1, hv]

/-- What a key ends with depends on what is below only at that key. -/
theorem replay_congr (h : base k = base' k) : replay base es k = replay base' es k := by
  induction es generalizing base base' with
  | nil => exact h
  | cons e es ih =>
    apply ih
    show e.overlay base k = e.overlay base' k
    unfold overlay
    rw [h]

/-- Changes that do not cover a key leave what is below. -/
theorem replay_of_not_covers (h : ∀ f ∈ es, ¬ f.Covers k) (base : κ → ν) :
    replay base es k = base k := by
  induction es generalizing base with
  | nil => rfl
  | cons e es ih =>
    rw [replay_cons, ih (fun f hf => h f (List.mem_cons_of_mem _ hf))]
    exact overlay_of_not_covers (h e List.mem_cons_self) base

/-- A chain hangs on the values below only at the keys its changes cover. -/
theorem Chained.congr (h : Chained base es)
    (hsame : ∀ k, (∃ f ∈ es, f.Covers k) → base k = base' k) : Chained base' es := by
  induction es generalizing base base' with
  | nil => trivial
  | cons e es ih =>
    obtain ⟨hfound, hrest⟩ := h
    constructor
    · intro k hcovers
      rw [hfound k hcovers, hsame k ⟨e, List.mem_cons_self, hcovers⟩]
    · apply ih hrest
      rintro k ⟨f, hf, hcovers⟩
      unfold overlay
      rw [hsame k ⟨f, List.mem_cons_of_mem _ hf, hcovers⟩]

/-- Changes none of which stands are a chain. -/
theorem chained_of_undone (h : ∀ f ∈ es, f.standing = false) (base : κ → ν) : Chained base es := by
  induction es generalizing base with
  | nil => trivial
  | cons e es ih =>
    constructor
    · intro k hcovers
      have hstanding := h e List.mem_cons_self
      rw [hcovers.1] at hstanding
      cases hstanding
    · exact ih (fun f hf => h f (List.mem_cons_of_mem _ hf)) _

/-- A chain goes on where its first part has led. -/
theorem chained_append {es fs : List (Change κ ν)} :
    Chained base (es ++ fs) ↔ Chained base es ∧ Chained (replay base es) fs := by
  induction es generalizing base with
  | nil => simp [Chained]
  | cons e es ih => simp only [List.cons_append, Chained, replay_cons, ih, and_assoc]

/-- A new change that found what the journal leaves extends the chain. -/
theorem Chained.snoc (h : Chained base es) (hfound : ∀ k, e.Covers k → e.before k = some (replay base es k)) :
    Chained base (es ++ [e]) :=
  chained_append.mpr ⟨h, hfound, trivial⟩

/-- No later change that stands touched a key of this one. -/
def Newest (e : Change κ ν) (newer : List (Change κ ν)) : Prop :=
  ∀ k, (e.after k).isSome = true → ∀ f ∈ newer, ¬ f.Covers k

/-- Undoing a change that is the newest on its keys keeps the chain. -/
theorem Chained.undo (h : Chained base (older ++ e :: newer)) (hnewest : e.Newest newer) :
    Chained base (older ++ e.undone :: newer) := by
  obtain ⟨holder, hfound, hnewer⟩ := chained_append.mp h
  refine chained_append.mpr ⟨holder, ?_, ?_⟩
  · intro k hcovers
    exact absurd hcovers.1 (by simp [undone])
  · apply hnewer.congr
    rintro k ⟨f, hf, hcovers⟩
    -- a later standing change on `k` means that `e` did not touch `k`
    have hnot : ¬ e.Covers k := fun hcov => hnewest k hcov.2 f hf hcovers
    rw [overlay_of_not_covers hnot, overlay_undone]

/-- What the journal leaves once a change that is the newest on its keys is undone: at the keys it
touched, what it found there, and elsewhere what it left before. -/
theorem replay_undo (h : Chained base (older ++ e :: newer)) (hstanding : e.standing = true)
    (hnewest : e.Newest newer) (k : κ) :
    some (replay base (older ++ e.undone :: newer) k) =
      if (e.after k).isSome then e.before k else some (replay base (older ++ e :: newer) k) := by
  obtain ⟨_, hfound, _⟩ := chained_append.mp h
  simp only [replay_append, replay_cons, overlay_undone]
  by_cases hset : (e.after k).isSome = true
  · rw [if_pos hset, replay_of_not_covers (hnewest k hset), hfound k ⟨hstanding, hset⟩]
  · rw [if_neg hset]
    have hsame : e.overlay (replay base older) k = replay base older k :=
      overlay_of_not_covers (fun hcovers => hset hcovers.2) _
    rw [replay_congr hsame]

/-- Undoing a change that found a value wherever it left one writes back what it found. -/
theorem replay_undo_getD (h : Chained base (older ++ e :: newer)) (hstanding : e.standing = true)
    (hnewest : e.Newest newer) (hdomain : (e.before k).isSome = (e.after k).isSome) :
    replay base (older ++ e.undone :: newer) k = (e.before k).getD (replay base (older ++ e :: newer) k) := by
  have hundo := replay_undo h hstanding hnewest k
  rw [← hdomain] at hundo
  cases hbefore : e.before k with
  | none => simpa [hbefore] using hundo
  | some v => simpa [hbefore] using hundo

/-- What a key ends with is what the newest standing change that touched it left there. -/
theorem replay_eq_getLast (base : κ → ν) (es : List (Change κ ν)) (k : κ) :
    replay base es k = (((es.filter (·.standing)).filterMap (·.after k)).getLast?).getD (base k) := by
  induction es using List.reverseRecOn with
  | nil => rfl
  | append_singleton es e ih =>
    rw [replay_append, replay_cons, replay_nil, List.filter_append, List.filterMap_append]
    by_cases hcovers : e.Covers k
    · obtain ⟨v, hv⟩ := Option.isSome_iff_exists.mp hcovers.2
      have hover : e.overlay (replay base es) k = v := by simp [overlay, hcovers.1, hv]
      simp [hover, hcovers.1, hv]
    · rw [overlay_of_not_covers hcovers, ih]
      have hnone : (([e].filter (·.standing)).filterMap (·.after k)) = [] := by
        by_cases hstanding : e.standing = true
        · have hafter : e.after k = none := by
            rw [← Option.not_isSome_iff_eq_none]
            exact fun hsome => hcovers ⟨hstanding, hsome⟩
          simp [hstanding, hafter]
        · simp [hstanding]
      rw [hnone, List.append_nil]

end Change

end Base
