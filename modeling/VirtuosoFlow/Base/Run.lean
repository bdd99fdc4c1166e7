import Mathlib.Data.List.Basic

/-!
# Runs of a machine and their histories

A machine answers each input and moves to a next state. A run keeps the list of
all steps it took, so that a statement about how a state came about is a
statement about that list. Inputs may be restricted by a predicate on the state
in which they arrive.
-/

namespace Base

variable {σ ι ο : Type}

/-- A deterministic machine with a set of initial states. -/
structure Machine (σ ι ο : Type) where
  /-- The states a run may start in. -/
  init : σ → Prop
  /-- The answer to an input and the state after it. -/
  step : ι → σ → ο × σ

/-- One step of a run: the state it started in, the input, the answer, the next state. -/
structure Entry (σ ι ο : Type) where
  before : σ
  input : ι
  output : ο
  after : σ

/-- The step a machine takes on an input. -/
def Machine.fire (M : Machine σ ι ο) (s : σ) (i : ι) : Entry σ ι ο where
  before := s
  input := i
  output := (M.step i s).1
  after := (M.step i s).2

/-- The steps a machine takes on these inputs from a state. -/
def Machine.trace (M : Machine σ ι ο) (s : σ) : List ι → List (Entry σ ι ο)
  | [] => []
  | i :: rest => M.fire s i :: M.trace (M.step i s).2 rest

/-- The state a machine comes to on these inputs. -/
def Machine.last (M : Machine σ ι ο) (s : σ) (inputs : List ι) : σ :=
  inputs.foldl (fun s i => (M.step i s).2) s

/-- The inputs of the steps of a trace are those it was made of. -/
theorem Machine.input_mem_of_trace {M : Machine σ ι ο} {s : σ} {inputs : List ι} {e : Entry σ ι ο}
    (he : e ∈ M.trace s inputs) : e.input ∈ inputs := by
  induction inputs generalizing s with
  | nil => cases he
  | cons i rest ih =>
    rcases List.mem_cons.mp he with rfl | hrest
    · exact List.mem_cons_self
    · exact List.mem_cons_of_mem _ (ih hrest)

/-- The runs of a machine whose inputs all satisfy `ok`, with their histories. -/
inductive Run (M : Machine σ ι ο) (ok : σ → ι → Prop) : List (Entry σ ι ο) → σ → Prop
  | init {s : σ} : M.init s → Run M ok [] s
  | step {h : List (Entry σ ι ο)} {s : σ} {i : ι} : Run M ok h s → ok s i →
      Run M ok (h ++ [M.fire s i]) (M.step i s).2

namespace Run

variable {M : Machine σ ι ο} {ok : σ → ι → Prop} {h : List (Entry σ ι ο)} {s : σ}

/-- What holds initially and is preserved by every admitted step holds at the end. -/
theorem invariant {I : σ → Prop} (hinit : ∀ s, M.init s → I s)
    (hstep : ∀ s i, ok s i → I s → I (M.step i s).2) (hrun : Run M ok h s) : I s := by
  induction hrun with
  | init hs => exact hinit _ hs
  | step _ hok ih => exact hstep _ _ hok ih

/-- A run goes on with any inputs that are admitted where they arrive. -/
theorem append_trace (hrun : Run M ok h s) (inputs : List ι)
    (hok : ∀ e ∈ M.trace s inputs, ok e.before e.input) :
    Run M ok (h ++ M.trace s inputs) (M.last s inputs) := by
  induction inputs generalizing h s with
  | nil => simpa [Machine.trace, Machine.last] using hrun
  | cons i rest ih =>
    have hhead : ok s i := hok (M.fire s i) List.mem_cons_self
    have hnext := ih (.step hrun hhead) fun e he => hok e (List.mem_cons_of_mem _ he)
    rw [Machine.trace, List.append_cons]
    exact hnext

/-- A run under a restriction is a run under every weaker restriction. -/
theorem mono {ok' : σ → ι → Prop} (hweak : ∀ s i, ok s i → ok' s i) (hrun : Run M ok h s) :
    Run M ok' h s := by
  induction hrun with
  | init hs => exact .init hs
  | step _ hok ih => exact .step ih (hweak _ _ hok)

/-- A run all of whose steps satisfy a restriction is a run under it. -/
theorem restrict {ok' : σ → ι → Prop} (hrun : Run M ok h s)
    (hall : ∀ e ∈ h, ok' e.before e.input) : Run M ok' h s := by
  induction hrun with
  | init hs => exact .init hs
  | @step h s i _ _ ih =>
    have hlast := hall (M.fire s i) (by simp)
    exact .step (ih fun e he => hall e (List.mem_append_left _ he)) hlast

/-- A step of the history was taken in a state that an initial part of it reached. -/
theorem split_of_mem {e : Entry σ ι ο} (hrun : Run M ok h s) (he : e ∈ h) :
    ∃ h₁ h₂, h = h₁ ++ e :: h₂ ∧ Run M ok h₁ e.before ∧ ok e.before e.input ∧
      e = M.fire e.before e.input := by
  induction hrun with
  | init => simp at he
  | @step h s i hrun hok ih =>
    rcases List.mem_append.mp he with hmem | hmem
    · obtain ⟨h₁, h₂, rfl, hprior, hadmitted, hfire⟩ := ih hmem
      exact ⟨h₁, h₂ ++ [M.fire s i], by simp, hprior, hadmitted, hfire⟩
    · rw [List.mem_singleton] at hmem
      subst hmem
      exact ⟨h, [], by simp, hrun, hok, rfl⟩

/-- A property that no initial state has was brought about by some step: the run
reached the state before it without the property, and the property held after it. -/
theorem cause {P : σ → Prop} (hinit : ∀ s, M.init s → ¬ P s) (hrun : Run M ok h s) (hP : P s) :
    ∃ h₁ e h₂, h = h₁ ++ e :: h₂ ∧ Run M ok h₁ e.before ∧ ok e.before e.input ∧
      e = M.fire e.before e.input ∧ ¬ P e.before ∧ P e.after := by
  induction hrun with
  | init hs => exact absurd hP (hinit _ hs)
  | @step h s i hrun hok ih =>
    by_cases hbefore : P s
    · obtain ⟨h₁, e, h₂, rfl, hrest⟩ := ih hbefore
      exact ⟨h₁, e, h₂ ++ [M.fire s i], by simp, hrest⟩
    · exact ⟨h, M.fire s i, [], by simp, hrun, hok, rfl, hbefore, hP⟩

/-- A run up to one of its steps is a run, and the step is the machine's. -/
theorem prior {h₁ h₂ : List (Entry σ ι ο)} {e : Entry σ ι ο} (hrun : Run M ok h s) (hh : h = h₁ ++ e :: h₂) :
    Run M ok h₁ e.before ∧ ok e.before e.input ∧ e = M.fire e.before e.input := by
  induction hrun generalizing h₂ with
  | init => simp at hh
  | @step h s i hrun hok ih =>
    rcases List.eq_nil_or_concat h₂ with rfl | ⟨rest, last, rfl⟩
    · obtain ⟨rfl, hlast⟩ := List.append_inj' hh rfl
      obtain rfl : M.fire s i = e := by simpa using hlast
      exact ⟨hrun, hok, rfl⟩
    · have hsplit : h = h₁ ++ e :: rest := by
        rw [List.concat_eq_append, ← List.cons_append, ← List.append_assoc] at hh
        exact (List.append_inj' hh rfl).1
      exact ih hsplit

/-- What holds after one of the steps, and is extended by every admitted step, holds at the end of what
comes after that step. -/
theorem segment {R : List (Entry σ ι ο) → σ → Prop} {h₁ h₂ : List (Entry σ ι ο)} {e : Entry σ ι ο}
    (hstep : ∀ h s i, ok s i → R h s → R (h ++ [M.fire s i]) (M.step i s).2) (hrun : Run M ok h s)
    (hh : h = h₁ ++ e :: h₂) (hstart : R [] e.after) : R h₂ s := by
  induction hrun generalizing h₂ with
  | init => simp at hh
  | @step h s i hrun hok ih =>
    rcases List.eq_nil_or_concat h₂ with rfl | ⟨rest, last, rfl⟩
    · obtain ⟨rfl, hlast⟩ := List.append_inj' hh rfl
      obtain rfl : M.fire s i = e := by simpa using hlast
      exact hstart
    · rw [List.concat_eq_append, ← List.cons_append, ← List.append_assoc] at hh
      obtain ⟨hsplit, hlast⟩ := List.append_inj' hh rfl
      obtain rfl : M.fire s i = last := by simpa using hlast
      rw [List.concat_eq_append]
      exact hstep rest s i hok (ih hsplit)

/-- What holds after one of the steps, and is preserved by every admitted step, holds at the end. -/
theorem persists {P : σ → Prop} {h₁ h₂ : List (Entry σ ι ο)} {e : Entry σ ι ο}
    (hstep : ∀ s i, ok s i → P s → P (M.step i s).2) (hrun : Run M ok h s) (hh : h = h₁ ++ e :: h₂)
    (hP : P e.after) : P s :=
  segment (R := fun _ s => P s) (fun _ s i hok => hstep s i hok) hrun hh hP

end Run

end Base
