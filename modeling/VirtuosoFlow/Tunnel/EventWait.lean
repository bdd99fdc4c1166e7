import VirtuosoFlow.Base.Monitor
import VirtuosoFlow.Tunnel.EventCrash
import Mathlib.Algebra.Order.Ring.Rat

/-!
# Long polls of the event log

`EventLog.wait` of `event/manager.py`, called by any number of threads while others emit: a caller sleeps on the
condition of the log until an event later than its `since` is there or its time is over.
-/

namespace VirtuosoFlow.Tunnel

open Base JsonText

/-- What a caller of `wait` keeps: where it begins, and `time.time() + max(0.0, timeout_s)`. -/
structure Waiter where
  since : ℤ
  deadline : ℚ

/-- The caller of `wait(since, timeout_s)` at this time. -/
def Waiter.of (now : ℚ) (since : ℤ) (timeout : ℚ) : Waiter := ⟨since, now + max 0 timeout⟩

/-- `min(max(timeout, 0.0), 55.0)` of `_m_event_wait`. -/
def clampTimeout (timeout : ℚ) : ℚ := min (max timeout 0) 55

/-- The loop of `wait`: it looks at the snapshot, and ends with events or when no time remains. -/
def eventCondition : Monitor.Condition EventBuffer Waiter ℚ EventBuffer.Snapshot where
  look log w := log.snapshot w.since
  found snap := !snap.events.isEmpty
  expired now w := w.deadline - now ≤ 0

/-- The log and its callers. -/
abbrev WaitState := Monitor.State EventBuffer Waiter ℚ

/-- The log changes by what is emitted, and a thread calls `wait` for a request `event.wait`. -/
def Publishes (s : WaitState) : Monitor.Input EventBuffer Waiter ℚ → Prop
  | .update f => ∃ ts etype payload, f = fun log => (log.publish ts etype payload).2
  | .call _ w => ∃ since timeout, w = Waiter.of s.now since (clampTimeout timeout)
  | _ => True

/-- What a thread that leaves has seen. -/
abbrev Seen := Option (ℕ × Waiter × EventBuffer.Snapshot)

/-- A tunnel over the file of the events emitted before, in which no thread waits yet. -/
def eventWaits (fmt : FloatFormat) : Machine WaitState (Monitor.Input EventBuffer Waiter ℚ) Seen where
  init s := eventCondition.machine.init s ∧ ∃ retain bootId events, (∀ e ∈ events, Writable fmt e) ∧
    Numbered number events ∧ s.shared = .load fmt retain bootId (events.flatMap (EventBuffer.line fmt))
  step := eventCondition.step

/-- A log whose last event carries the number that was given last. -/
structure Latest (log : EventBuffer) : Prop where
  positive : ∀ e ∈ log.recent, 0 < number e
  bounded : ∀ e ∈ log.recent, number e ≤ log.seq
  last : 0 < log.seq → ∃ e, log.recent.getLast? = some e ∧ number e = log.seq

section Logs

variable {log : EventBuffer} {since : ℤ}

/-- However few are kept, the latest event is among them. -/
theorem getLast?_keepLast (retain : ℕ) (events : List Obj) :
    (keepLast retain events).getLast? = events.getLast? := by
  unfold keepLast
  split
  · rfl
  · rename_i hretain
    rw [window, List.getLast?_drop]
    by_cases hne : events = []
    · subst hne
      rfl
    · have hpos := List.length_pos_iff.mpr hne
      exact if_neg (by omega)

/-- The log over a file that holds what was emitted before. -/
theorem latest_load {fmt : FloatFormat} {events : List Obj} (retain : ℕ) (bootId : String)
    (hw : ∀ e ∈ events, Writable fmt e) (h : Numbered number events) :
    Latest (.load fmt retain bootId (events.flatMap (EventBuffer.line fmt))) := by
  rw [load_lines retain bootId hw h]
  refine ⟨fun e he => ?_, fun e he => ?_, fun hpos => ?_⟩
  · obtain ⟨i, hi, rfl⟩ := List.mem_iff_getElem.mp (mem_keepLast he)
    rw [h i hi]
    omega
  · obtain ⟨i, hi, rfl⟩ := List.mem_iff_getElem.mp (mem_keepLast he)
    rw [h i hi]
    exact_mod_cast hi
  · have hne : events ≠ [] := List.length_pos_iff.mp hpos
    exact ⟨events.getLast hne, (getLast?_keepLast retain events).trans (List.getLast?_eq_some_getLast hne),
      h.getLast hne⟩

/-- An event that is published becomes the latest. -/
theorem Latest.publish (h : Latest log) (ts etype : String) (payload : Json) :
    Latest (log.publish ts etype payload).2 := by
  refine ⟨fun e he => ?_, fun e he => ?_, fun _ => ⟨EventBuffer.event (log.seq + 1) ts etype payload, ?_, rfl⟩⟩
  · rcases List.mem_append.mp (mem_keepLast he) with hold | hnew
    · exact h.positive e hold
    · rw [List.mem_singleton.mp hnew]
      exact Int.natCast_pos.mpr (Nat.succ_pos _)
  · rcases List.mem_append.mp (mem_keepLast he) with hold | hnew
    · have hle := h.bounded e hold
      show number e ≤ ((log.seq + 1 : ℕ) : ℤ)
      omega
    · rw [List.mem_singleton.mp hnew]
      exact le_refl _
  · exact (getLast?_keepLast log.retain _).trans List.getLast?_concat

/-- There is something to see exactly when the log has gone past `since`, and then the latest event is seen. -/
theorem Latest.snapshot (h : Latest log) (since : ℤ) :
    ((log.snapshot since).events = [] ↔ (log.seq : ℤ) ≤ max since 0) ∧
      (max since 0 < log.seq → ∃ e, (log.snapshot since).events.getLast? = some e ∧ number e = log.seq) := by
  have hfilter : (log.snapshot since).events = log.recent.filter fun e => decide (since < number e) := rfl
  have hlate : max since 0 < log.seq → ∃ e, (log.snapshot since).events.getLast? = some e ∧ number e = log.seq := by
    intro hlt
    obtain ⟨hsince, hpos⟩ := max_lt_iff.mp hlt
    obtain ⟨e, hlast, hnumber⟩ := h.last (by omega)
    obtain ⟨front, hfront⟩ := List.getLast?_eq_some_iff.mp hlast
    refine ⟨e, ?_, hnumber⟩
    rw [hfilter, hfront, List.filter_append]
    simp [hnumber, hsince]
  refine ⟨⟨fun hnone => ?_, fun hle => ?_⟩, hlate⟩
  · by_contra hlt
    obtain ⟨e, hlast, -⟩ := hlate (not_le.mp hlt)
    rw [hnone] at hlast
    cases hlast
  · rw [hfilter, List.filter_eq_nil_iff]
    intro e he
    have hbound := h.bounded e he
    have hfrom := h.positive e he
    simp only [decide_eq_true_eq]
    omega

end Logs

section Waits

variable {fmt : FloatFormat} {s : WaitState} {h : List (Entry WaitState (Monitor.Input EventBuffer Waiter ℚ) Seen)}

/-- Only an emission changes the log. -/
theorem Latest.step (hs : Latest s.shared) {i : Monitor.Input EventBuffer Waiter ℚ} (hi : Publishes s i) :
    Latest (eventCondition.step i s).2.shared := by
  cases i with
  | update f =>
    obtain ⟨ts, etype, payload, rfl⟩ := hi
    exact hs.publish ts etype payload
  | call i w =>
    simp only [Monitor.Condition.step]
    split <;> exact hs
  | lock i =>
    simp only [Monitor.Condition.step]
    split
    · unfold Monitor.Condition.turn
      split <;> exact hs
    · exact hs
  | tick now => exact hs

/-- After every run the last event carries the last number. -/
theorem latest_of_run (hrun : Run (eventWaits fmt) Publishes h s) : Latest s.shared := by
  refine Run.invariant (I := fun s => Latest s.shared) (fun s hinit => ?_) (fun s i hi hs => hs.step hi) hrun
  obtain ⟨-, retain, bootId, events, hw, hnumbered, hload⟩ := hinit
  rw [hload]
  exact latest_load retain bootId hw hnumbered

/-- A run of callers is one of the monitor. -/
theorem run_eventCondition (hrun : Run (eventWaits fmt) Publishes h s) :
    Run eventCondition.machine (fun _ _ => True) h s := by
  induction hrun with
  | init hs => exact .init hs.1
  | step _ _ ih => exact .step ih trivial

/-- However requests, emissions, wake-ups and time come together: a caller that sleeps and was not woken has seen
every event there is. One that sleeps while a later event is there, or when its time is over, leaves as soon as it
has the lock, with the latest event if there is a later one. A caller leaves without events only when its time is
over and no event later than its `since` has been emitted, and its time is over 55 seconds after it called.
Numbers start at one, so that a `since` below zero is as good as zero. -/
theorem no_lost_wakeups (hrun : Run (eventWaits fmt) Publishes h s) :
    (∀ i w, s.threads i = .sleeping w false → (s.shared.seq : ℤ) ≤ max w.since 0) ∧
    (∀ i w notified, s.threads i = .sleeping w notified →
      (max w.since 0 < s.shared.seq → ∃ e, (s.shared.snapshot w.since).events.getLast? = some e ∧
        number e = s.shared.seq) ∧
      (max w.since 0 < s.shared.seq ∨ w.deadline ≤ s.now →
        (eventCondition.step (.lock i) s).1 = some (i, w, s.shared.snapshot w.since))) ∧
    (∀ e ∈ h, ∀ i w snap, e.output = some (i, w, snap) → snap = e.before.shared.snapshot w.since ∧
      (snap.events = [] → w.deadline ≤ e.before.now ∧ (e.before.shared.seq : ℤ) ≤ max w.since 0)) ∧
    ∀ i w, (s.threads i).waits = some w → ∃ e ∈ h, e.input = .call i w ∧ w.deadline ≤ e.before.now + 55 := by
  have hlog := latest_of_run hrun
  have hrest := Monitor.rested_of_run (run_eventCondition hrun)
  refine ⟨fun i w hi => ?_, fun i w notified hi => ⟨(hlog.snapshot w.since).2, fun hready => ?_⟩,
    fun e he i w snap hout => ?_, fun i w hw => ?_⟩
  · have hnone := hrest i w hi
    simp only [eventCondition, Bool.not_eq_false'] at hnone
    exact (hlog.snapshot w.since).1.mp (List.isEmpty_iff.mp hnone)
  · refine Monitor.leaves_of_found hrest hi (hready.imp (fun hlate => ?_) fun hover => ?_)
    · have hsome : (s.shared.snapshot w.since).events ≠ [] :=
        fun hnone => absurd ((hlog.snapshot w.since).1.mp hnone) (not_le.mpr hlate)
      simpa [eventCondition] using hsome
    · simpa [eventCondition] using hover
  · obtain ⟨h₁, h₂, -, hprior, -, hfire⟩ := hrun.split_of_mem he
    rw [hfire] at hout
    obtain ⟨hsnap, hleft⟩ := Monitor.left_with (c := eventCondition) hout
    refine ⟨hsnap, fun hnone => ⟨?_, ?_⟩⟩
    · have hover := hleft.resolve_left (by simp [eventCondition, hnone])
      simpa [eventCondition] using hover
    · rw [hsnap] at hnone
      exact ((latest_of_run hprior).snapshot w.since).1.mp hnone
  · obtain ⟨e, he, hcall⟩ := Monitor.called_of_waits (run_eventCondition hrun) hw
    obtain ⟨-, -, -, -, hok, -⟩ := hrun.split_of_mem he
    rw [hcall] at hok
    obtain ⟨since, timeout, rfl⟩ := hok
    refine ⟨e, he, hcall, ?_⟩
    have hmax : max 0 (clampTimeout timeout) ≤ 55 := max_le (by norm_num) (min_le_right _ _)
    exact add_le_add_right hmax _

/-- The caller of `event.wait` with its defaults. -/
def sampleWaiter : Waiter := .of 0 0 (clampTimeout 25)

/-- A request waits on an empty log until an event comes. -/
def sampleWaits : List (Monitor.Input EventBuffer Waiter ℚ) :=
  [.call 0 sampleWaiter, .lock 0,
    .update fun log => (log.publish "2026-01-01T00:00:00" "run.done" .null).2]

/-- The log of a tunnel on its first start. -/
def sampleUnread : WaitState := ⟨.load .sample 2000 "b1" [], 0, fun _ => .idle⟩

/-- The sample ends with its caller woken. -/
theorem sampleWaits_last :
    (eventWaits .sample).last sampleUnread sampleWaits =
      ⟨(sampleUnread.shared.publish "2026-01-01T00:00:00" "run.done" .null).2, 0,
        Function.update (fun _ => .idle) 0 (.sleeping sampleWaiter true)⟩ := by
  have hover : eventCondition.expired 0 sampleWaiter = false := by
    norm_num [eventCondition, sampleWaiter, Waiter.of, clampTimeout]
  have hfound : eventCondition.found (eventCondition.look sampleUnread.shared sampleWaiter) = false := rfl
  have hlock : (eventCondition.step (.lock 0) (eventCondition.step (.call 0 sampleWaiter) sampleUnread).2).2 =
      { sampleUnread with
        threads := Function.update (fun _ => .idle) 0 (.sleeping sampleWaiter false) } := by
    have hturn : eventCondition.turn 0 sampleWaiter
        (eventCondition.step (.call 0 sampleWaiter) sampleUnread).2 = (none, { sampleUnread with
          threads := Function.update (Function.update (fun _ => .idle) 0 (.entering sampleWaiter)) 0
            (.sleeping sampleWaiter false) }) := by
      refine if_neg ?_
      rw [Bool.or_eq_true, not_or]
      exact ⟨by rw [Bool.not_eq_true]; exact hfound, by rw [Bool.not_eq_true]; exact hover⟩
    rw [Function.update_idem] at hturn
    exact congrArg Prod.snd hturn
  refine (congrArg (fun s => (eventCondition.step _ s).2) hlock).trans ?_
  simp only [Monitor.Condition.step, Monitor.State.mk.injEq, true_and]
  refine ⟨rfl, funext fun i => ?_⟩
  by_cases hi : i = 0
  · subst hi
    rfl
  · simp [hi, Monitor.Thread.notify]

/-- It leaves with the event. -/
theorem no_lost_wakeups_sample :
    ∃ s, s = (eventWaits .sample).last sampleUnread sampleWaits ∧ s.shared.seq = 1 ∧
      (eventCondition.step (.lock 0) s).1 = some (0, sampleWaiter, s.shared.snapshot 0) := by
  have hstart : Run (eventWaits .sample) Publishes [] sampleUnread :=
    .init ⟨fun _ => rfl, 2000, "b1", [], by simp, numbered_nil, rfl⟩
  have hrun := hstart.append_trace sampleWaits fun e he => by
    rcases he with _ | ⟨_, _ | ⟨_, _ | ⟨_, he⟩⟩⟩
    · exact ⟨0, 25, rfl⟩
    · trivial
    · exact ⟨_, _, _, rfl⟩
    · cases he
  rw [sampleWaits_last] at hrun ⊢
  obtain ⟨-, hsleeping, -⟩ := no_lost_wakeups hrun
  exact ⟨_, rfl, rfl, (hsleeping 0 _ true rfl).2 (.inl (by decide))⟩

end Waits

end VirtuosoFlow.Tunnel
