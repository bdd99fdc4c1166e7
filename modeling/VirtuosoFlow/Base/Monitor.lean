import VirtuosoFlow.Base.Run
import Mathlib.Logic.Function.Basic

/-!
# Waiting on a condition variable

Threads look at a shared state under a lock. A thread that finds nothing goes to sleep and gives the lock back; it
may look again once an update has woken all sleepers, or its time is over. Updates, calls and wake-ups come in any
order.
-/

namespace Base.Monitor

variable {σ ω τ α : Type}

/-- What threads look for: what one sees, whether that is something, and whether its time is over. -/
structure Condition (σ ω τ α : Type) where
  look : σ → ω → α
  found : α → Bool
  expired : τ → ω → Bool

/-- Where a thread is. -/
inductive Thread (ω : Type) where
  | idle
  /-- It has called, and does not have the lock yet. -/
  | entering (w : ω)
  /-- It sleeps; whether it was woken since. -/
  | sleeping (w : ω) (notified : Bool)

/-- The shared state, the time, and the threads. -/
structure State (σ ω τ : Type) where
  shared : σ
  now : τ
  threads : ℕ → Thread ω

/-- What happens, one at a time. -/
inductive Input (σ ω τ : Type) where
  /-- An update under the lock, and `notify_all`. -/
  | update (f : σ → σ)
  | call (i : ℕ) (w : ω)
  /-- A thread gets the lock, if it is on its way to it. -/
  | lock (i : ℕ)
  | tick (now : τ)

/-- `notify_all`. -/
def Thread.notify : Thread ω → Thread ω
  | .sleeping w _ => .sleeping w true
  | t => t

/-- What a thread that has called waits for. -/
def Thread.waits : Thread ω → Option ω
  | .idle => none
  | .entering w => some w
  | .sleeping w _ => some w

/-- What a thread that gets the lock waits for: it has just called, or it is woken, or its time is over. -/
def Condition.runs (c : Condition σ ω τ α) (now : τ) : Thread ω → Option ω
  | .idle => none
  | .entering w => some w
  | .sleeping w notified => if notified || c.expired now w then some w else none

/-- The loop of a thread with the lock: it leaves with what it sees, or sleeps. -/
def Condition.turn (c : Condition σ ω τ α) (i : ℕ) (w : ω) (s : State σ ω τ) : Option (ℕ × ω × α) × State σ ω τ :=
  if c.found (c.look s.shared w) || c.expired s.now w then
    (some (i, w, c.look s.shared w), { s with threads := Function.update s.threads i .idle })
  else (none, { s with threads := Function.update s.threads i (.sleeping w false) })

/-- The effect of an input; a thread that leaves gives what it saw. -/
def Condition.step (c : Condition σ ω τ α) : Input σ ω τ → State σ ω τ → Option (ℕ × ω × α) × State σ ω τ
  | .update f, s => (none, { s with shared := f s.shared, threads := fun i => (s.threads i).notify })
  | .call i w, s =>
    match s.threads i with
    | .idle => (none, { s with threads := Function.update s.threads i (.entering w) })
    | _ => (none, s)
  | .lock i, s =>
    match c.runs s.now (s.threads i) with
    | some w => c.turn i w s
    | none => (none, s)
  | .tick now, s => (none, { s with now := now })

/-- The threads of a process in which none waits yet. -/
def Condition.machine (c : Condition σ ω τ α) : Machine (State σ ω τ) (Input σ ω τ) (Option (ℕ × ω × α)) where
  init s := ∀ i, s.threads i = .idle
  step := c.step

section Threads

variable {c : Condition σ ω τ α} {s : State σ ω τ} {i j : ℕ} {w : ω}

/-- The other threads stay where they are. -/
theorem threads_turn (c : Condition σ ω τ α) (i : ℕ) (w : ω) (s : State σ ω τ) (hne : j ≠ i) :
    (c.turn i w s).2.threads j = s.threads j := by
  unfold Condition.turn
  split <;> exact Function.update_of_ne hne _ _

/-- A thread that was not woken since it fell asleep has nothing to see. -/
def Rested (c : Condition σ ω τ α) (s : State σ ω τ) : Prop :=
  ∀ i w, s.threads i = .sleeping w false → c.found (c.look s.shared w) = false

/-- A turn of a thread keeps the sleepers rightly asleep. -/
theorem Rested.turn (h : Rested c s) (i : ℕ) (w : ω) : Rested c (c.turn i w s).2 := by
  intro j w' hj
  by_cases hji : j = i
  · subst hji
    unfold Condition.turn at hj ⊢
    split at hj
    · simp only [Function.update_self] at hj
      cases hj
    · rename_i hnone
      simp only [Function.update_self, Thread.sleeping.injEq, and_true] at hj
      subst hj
      simp only [Bool.or_eq_true, not_or, Bool.not_eq_true] at hnone
      rw [if_neg (by simp [hnone.1, hnone.2])]
      exact hnone.1
  · rw [threads_turn c i w s hji] at hj
    have hshared : (c.turn i w s).2.shared = s.shared := by
      unfold Condition.turn
      split <;> rfl
    rw [hshared]
    exact h j w' hj

/-- An update wakes every sleeper, and only a thread that sees nothing falls asleep. -/
theorem Rested.step (h : Rested c s) (i : Input σ ω τ) : Rested c (c.step i s).2 := by
  cases i with
  | update f =>
    intro j w hj
    simp only [Condition.step] at hj
    cases hthread : s.threads j with
    | sleeping w' b =>
      rw [hthread] at hj
      cases hj
    | _ =>
      rw [hthread] at hj
      cases hj
  | call k w =>
    simp only [Condition.step]
    split
    · intro j w' hj
      by_cases hjk : j = k
      · subst hjk
        simp only [Function.update_self] at hj
        cases hj
      · simp only [Function.update_of_ne hjk] at hj
        exact h j w' hj
    · exact h
  | lock k =>
    simp only [Condition.step]
    split
    · exact h.turn k _
    · exact h
  | tick now => exact h

/-- A thread that can run is one that waits. -/
theorem waits_of_runs {now : τ} {t : Thread ω} (h : c.runs now t = some w) : t.waits = some w := by
  cases t with
  | sleeping w' notified =>
    simp only [Condition.runs] at h
    split at h
    · exact h
    · cases h
  | _ => exact h

variable {ok : State σ ω τ → Input σ ω τ → Prop} {h : List (Entry (State σ ω τ) (Input σ ω τ) (Option (ℕ × ω × α)))}

/-- No wake-up is lost: in every run, a thread that sleeps without having been woken has nothing to see. -/
theorem rested_of_run (hrun : Run c.machine ok h s) : Rested c s := by
  refine Run.invariant (fun s hinit i w hi => ?_) (fun s i _ hs => hs.step i) hrun
  rw [hinit i] at hi
  cases hi

/-- Waking a thread does not change what it waits for. -/
@[simp] theorem waits_notify (t : Thread ω) : t.notify.waits = t.waits := by
  cases t <;> rfl

/-- Only a call makes a thread wait for something. -/
theorem waits_step {i : Input σ ω τ} (hwaits : ((c.step i s).2.threads j).waits = some w) :
    (s.threads j).waits = some w ∨ i = .call j w := by
  cases i with
  | update f => exact .inl ((waits_notify _).symm.trans hwaits)
  | call k w' =>
    simp only [Condition.step] at hwaits
    split at hwaits
    · by_cases hjk : j = k
      · subst hjk
        simp only [Function.update_self, Thread.waits, Option.some.injEq] at hwaits
        exact .inr (hwaits ▸ rfl)
      · simp only [Function.update_of_ne hjk] at hwaits
        exact .inl hwaits
    · exact .inl hwaits
  | lock k =>
    simp only [Condition.step] at hwaits
    split at hwaits
    · rename_i w' hruns
      by_cases hjk : j = k
      · subst hjk
        unfold Condition.turn at hwaits
        split at hwaits
        · simp only [Function.update_self] at hwaits
          cases hwaits
        · simp only [Function.update_self, Thread.waits, Option.some.injEq] at hwaits
          exact .inl (hwaits ▸ waits_of_runs hruns)
      · rw [threads_turn c k w' s hjk] at hwaits
        exact .inl hwaits
    · exact .inl hwaits
  | tick now => exact .inl hwaits

/-- In every run, a thread that waits for something has called for it. -/
theorem called_of_waits (hrun : Run c.machine ok h s) (hwaits : (s.threads i).waits = some w) :
    ∃ e ∈ h, e.input = .call i w := by
  obtain ⟨h₁, e, h₂, rfl, -, -, hfire, hbefore, hafter⟩ :=
    Run.cause (P := fun s => (s.threads i).waits = some w) (fun s hinit hw => by rw [hinit i] at hw; cases hw) hrun
      hwaits
  refine ⟨e, by simp, ?_⟩
  rw [hfire] at hafter
  exact (waits_step hafter).resolve_left hbefore

/-- A sleeper with something to see, or whose time is over, leaves as soon as it gets the lock. -/
theorem leaves_of_found {notified : Bool} (hrest : Rested c s) (hi : s.threads i = .sleeping w notified)
    (hfound : c.found (c.look s.shared w) = true ∨ c.expired s.now w = true) :
    (c.step (.lock i) s).1 = some (i, w, c.look s.shared w) := by
  have hruns : c.runs s.now (s.threads i) = some w := by
    rw [hi]
    refine if_pos ?_
    rw [Bool.or_eq_true]
    cases notified with
    | true => exact .inl rfl
    | false =>
      rcases hfound with hfound | hover
      · rw [hrest i w hi] at hfound
        cases hfound
      · exact .inr hover
  simp only [Condition.step, hruns, Condition.turn]
  rw [if_pos (Bool.or_eq_true _ _ ▸ hfound)]

/-- What a thread leaves with is what it sees then, and it is something unless the time is over. -/
theorem left_with {i : Input σ ω τ} {j : ℕ} {seen : α} (hout : (c.step i s).1 = some (j, w, seen)) :
    seen = c.look s.shared w ∧ (c.found seen = true ∨ c.expired s.now w = true) := by
  cases i with
  | lock k =>
    simp only [Condition.step] at hout
    split at hout
    · unfold Condition.turn at hout
      split at hout
      · rename_i hleaves
        simp only [Option.some.injEq, Prod.mk.injEq] at hout
        obtain ⟨-, rfl, rfl⟩ := hout
        exact ⟨rfl, by simpa using hleaves⟩
      · cases hout
    · cases hout
  | call k w =>
    simp only [Condition.step] at hout
    split at hout <;> cases hout
  | _ => cases hout

end Threads

end Base.Monitor
