import Mathlib.Data.List.Perm.Basic
import VirtuosoFlow.Tunnel.EventCrash

/-!
# The order of events after a restart

Emissions run at the same time: an event gets its number under the lock, and its line is appended later. So
the lines of a file may stand in another order than the events were numbered, and a start takes its window
and its oldest number by the order of the lines.
-/

namespace VirtuosoFlow.Tunnel

open Base JsonText

section Order

variable {fmt : FloatFormat}

/-- Emissions and readers; every append writes its whole line. -/
def WithoutCrash (s : EventDisk) : DiskInput fmt → Prop
  | .append i written => ∀ e, s.pending[i]? = some e → (EventBuffer.line fmt e).length ≤ written
  | .restart _ _ _ => False
  | _ => True

/-- The events of a run, as they were numbered. -/
def emitted (h : List (Entry EventDisk (DiskInput fmt) DiskOutput)) : List Obj :=
  h.filterMap fun entry =>
    match entry.output with
    | .published e => some e
    | _ => none

/-- The events of a run, as their appends came. -/
def appended (h : List (Entry EventDisk (DiskInput fmt) DiskOutput)) : List Obj :=
  h.filterMap fun entry =>
    match entry.input with
    | .append i _ => entry.before.pending[i]?
    | _ => none

/-- The log serves the last of some events: in the order of their numbers, and it tells the smallest number
that it holds. -/
structure ServesLast (retain : ℕ) (events : List Obj) (log : EventBuffer) : Prop where
  increasing : ∀ since, (log.snapshot since).events.Pairwise fun e e' => number e < number e'
  exact : ∀ since e, e ∈ (log.snapshot since).events ↔ e ∈ window retain events ∧ since < number e
  oldest_mem : log.recent ≠ [] → ∃ e ∈ log.recent, ∀ since, (log.snapshot since).oldestSeq = number e
  oldest_le : ∀ since, ∀ e ∈ log.recent, (log.snapshot since).oldestSeq ≤ number e

variable {h : List (Entry EventDisk (DiskInput fmt) DiskOutput)} {s : EventDisk}

/-- What the emissions of a run have done so far. -/
structure Emitting (h : List (Entry EventDisk (DiskInput fmt) DiskOutput)) (s : EventDisk) : Prop where
  numbered : Numbered number (emitted h)
  seq : s.log.seq = (emitted h).length
  writable : ∀ e ∈ emitted h, Writable fmt e
  file : s.file = (appended h).flatMap (EventBuffer.line fmt)
  perm : (appended h ++ s.pending).Perm (emitted h)

/-- What one more step emits. -/
theorem emitted_append (h : List (Entry EventDisk (DiskInput fmt) DiskOutput)) (entry) :
    emitted (h ++ [entry]) = emitted h ++ emitted [entry] := List.filterMap_append

/-- What one more step writes. -/
theorem appended_append (h : List (Entry EventDisk (DiskInput fmt) DiskOutput)) (entry) :
    appended (h ++ [entry]) = appended h ++ appended [entry] := List.filterMap_append

/-- A step that neither emits nor appends. -/
theorem Emitting.idle (ih : Emitting h s) {entry : Entry EventDisk (DiskInput fmt) DiskOutput} {s' : EventDisk}
    (hemitted : emitted [entry] = []) (happended : appended [entry] = []) (hseq : s'.log.seq = s.log.seq)
    (hfile : s'.file = s.file) (hpending : s'.pending = s.pending) : Emitting (h ++ [entry]) s' := by
  have hall : emitted (h ++ [entry]) = emitted h := by rw [emitted_append, hemitted, List.append_nil]
  have hlines : appended (h ++ [entry]) = appended h := by rw [appended_append, happended, List.append_nil]
  refine ⟨?_, ?_, ?_, ?_, ?_⟩
  · rw [hall]
    exact ih.numbered
  · rw [hall, hseq, ih.seq]
  · rw [hall]
    exact ih.writable
  · rw [hlines, hfile, ih.file]
  · rw [hall, hlines, hpending]
    exact ih.perm

/-- An event is numbered. -/
theorem Emitting.publish (ih : Emitting h s) (ts etype : String) (payload : {v : Json // WellFormed fmt v}) :
    Emitting (h ++ [(eventDisk fmt).fire s (.publish ts etype payload)])
      ((eventDisk fmt).step (.publish ts etype payload) s).2 := by
  set e := EventBuffer.event (s.log.seq + 1) ts etype payload.val with he
  have hall : emitted (h ++ [(eventDisk fmt).fire s (.publish ts etype payload)]) = emitted h ++ [e] :=
    emitted_append _ _
  have hlines : appended (h ++ [(eventDisk fmt).fire s (.publish ts etype payload)]) = appended h := by
    rw [appended_append]
    exact List.append_nil _
  refine ⟨?_, ?_, ?_, ?_, ?_⟩
  · rw [hall]
    refine ih.numbered.snoc ?_
    rw [he, number_event, ih.seq]
    push_cast
    rfl
  · rw [hall, List.length_append, ← ih.seq]
    rfl
  · rw [hall]
    intro e' he'
    rcases List.mem_append.mp he' with hold | hnew
    · exact ih.writable e' hold
    · rw [List.mem_singleton.mp hnew]
      exact writable_event _ ts etype payload.property
  · rw [hlines]
    exact ih.file
  · rw [hall, hlines]
    show (appended h ++ (s.pending ++ [e])).Perm _
    rw [← List.append_assoc]
    exact ih.perm.append_right _

/-- The line of a pending event is appended. -/
theorem Emitting.append (ih : Emitting h s) {i written : ℕ}
    (hok : ∀ e, s.pending[i]? = some e → (EventBuffer.line fmt e).length ≤ written) :
    Emitting (h ++ [(eventDisk fmt).fire s (.append i written)]) ((eventDisk fmt).step (.append i written) s).2 := by
  have hsilent : ((eventDisk fmt).step (.append i written) s).1 = .none := by
    simp only [eventDisk, EventDisk.step]
    split <;> rfl
  have hnone : emitted [(eventDisk fmt).fire s (.append i written)] = [] := by
    simp [emitted, Machine.fire, hsilent]
  cases hpending : s.pending[i]? with
  | none =>
    have hstep : ((eventDisk fmt).step (.append i written) s).2 = s := by
      simp only [eventDisk, EventDisk.step, hpending]
    rw [hstep]
    exact ih.idle hnone (by simp [appended, Machine.fire, hpending]) rfl rfl rfl
  | some e =>
    have hwhole : (EventBuffer.line fmt e).take written = EventBuffer.line fmt e :=
      List.take_of_length_le (hok e hpending)
    have hstep : ((eventDisk fmt).step (.append i written) s).2 =
        { s with file := s.file ++ EventBuffer.line fmt e, pending := s.pending.eraseIdx i } := by
      simp only [eventDisk, EventDisk.step, hpending, hwhole]
    have hall : emitted (h ++ [(eventDisk fmt).fire s (.append i written)]) = emitted h := by
      rw [emitted_append, hnone, List.append_nil]
    have hlines : appended (h ++ [(eventDisk fmt).fire s (.append i written)]) = appended h ++ [e] := by
      rw [appended_append]
      simp [appended, Machine.fire, hpending]
    rw [hstep]
    refine ⟨?_, ?_, ?_, ?_, ?_⟩
    · rw [hall]
      exact ih.numbered
    · rw [hall]
      exact ih.seq
    · rw [hall]
      exact ih.writable
    · rw [hlines, List.flatMap_append, ← ih.file]
      simp
    · obtain ⟨hi, rfl⟩ := List.getElem?_eq_some_iff.mp hpending
      have hmoved : (s.pending[i] :: s.pending.eraseIdx i).Perm s.pending := List.getElem_cons_eraseIdx_perm hi
      rw [hall, hlines, List.append_assoc]
      exact (hmoved.append_left _).trans ih.perm

/-- Each emission numbers one event more, and each append writes one that was pending. -/
theorem emitting_of_run (hrun : Run (eventDisk fmt) WithoutCrash h s) : Emitting h s := by
  induction hrun with
  | init hs =>
    obtain ⟨retain, bootId, rfl⟩ := hs
    exact ⟨numbered_nil, rfl, by simp [emitted], rfl, by simp [emitted, appended]⟩
  | @step h s i _ hok ih =>
    cases i with
    | publish ts etype payload => exact ih.publish ts etype payload
    | append i written => exact ih.append hok
    | list since => exact ih.idle rfl rfl rfl rfl rfl
    | restart retain bootId readable => exact hok.elim

end Order

section Windows

variable {xs ys : List Obj} {retain : ℕ}

/-- The window of numbered events is increasing. -/
theorem window_increasing (h : Numbered number xs) :
    (window retain xs).Pairwise fun e e' => number e < number e' :=
  (List.pairwise_map.mp h.pairwise_lt).sublist (List.drop_sublist _ _)

/-- Increasing events are determined by which they are. -/
theorem increasing_ext (hx : xs.Pairwise fun e e' => number e < number e')
    (hy : ys.Pairwise fun e e' => number e < number e') (hmem : ∀ e, e ∈ xs ↔ e ∈ ys) : xs = ys := by
  have hirrefl : ∀ {l : List Obj}, l.Pairwise (fun e e' => number e < number e') → l.Nodup := by
    intro l hl
    refine hl.imp ?_
    rintro e _ hlt rfl
    exact lt_irrefl _ hlt
  have hperm : xs.Perm ys := (List.perm_ext_iff_of_nodup (hirrefl hx) (hirrefl hy)).mpr hmem
  refine hperm.eq_of_pairwise ?_ hx hy
  intro e e' _ _ hlt hgt
  omega

/-- What a log with increasing events serves. -/
theorem servesLast_of_recent {log : EventBuffer} (hrecent : log.recent = window retain xs) (h : Numbered number xs) :
    ServesLast retain xs log := by
  have hincreasing : log.recent.Pairwise fun e e' => number e < number e' := by
    rw [hrecent]
    exact window_increasing h
  refine ⟨fun since => hincreasing.sublist List.filter_sublist, fun since e => ?_, fun hne => ?_, fun since e he => ?_⟩
  · show e ∈ log.recent.filter _ ↔ _
    rw [List.mem_filter, hrecent, decide_eq_true_iff]
    rfl
  · obtain ⟨e, rest, hcons⟩ := List.exists_cons_of_ne_nil hne
    refine ⟨e, by rw [hcons]; exact List.mem_cons_self, fun since => ?_⟩
    show (log.recent.head?.bind seqOf).getD 0 = number e
    rw [hcons]
    rfl
  · show (log.recent.head?.bind seqOf).getD 0 ≤ number e
    cases hcons : log.recent with
    | nil =>
      rw [hcons] at he
      cases he
    | cons first rest =>
      rw [hcons] at he hincreasing
      show number first ≤ number e
      rcases List.mem_cons.mp he with rfl | hmem
      · exact le_rfl
      · exact (List.rel_of_pairwise_cons hincreasing hmem).le

end Windows

section Restarts

variable {fmt : FloatFormat} {h : List (Entry EventDisk (DiskInput fmt) DiskOutput)} {s : EventDisk}

/-- The emitted events are written, and carry numbers greater than zero. -/
theorem Emitting.completed (hemitting : Emitting h s) (hdone : s.pending = []) :
    (appended h).Perm (emitted h) ∧ ∀ e ∈ appended h, 0 < number e ∧ (seqOf e).isSome := by
  have hperm : (appended h).Perm (emitted h) := by
    have hall := hemitting.perm
    rwa [hdone, List.append_nil] at hall
  refine ⟨hperm, fun e he => ?_⟩
  obtain ⟨i, hi, rfl⟩ := List.getElem_of_mem (hperm.mem_iff.mp he)
  refine ⟨?_, by rw [seqOf_numbered hemitting.numbered hi]; rfl⟩
  rw [hemitting.numbered i hi]
  omega

/-- A restart takes its window by the order of the appends. -/
theorem recent_restart (hrun : Run (eventDisk fmt) WithoutCrash h s) (hdone : s.pending = []) (retain : ℕ+)
    (bootId : String) :
    ((eventDisk fmt).step (.restart retain bootId true) s).2.log.recent = window retain (appended h) := by
  have hemitting := emitting_of_run hrun
  obtain ⟨hperm, hnumber⟩ := hemitting.completed hdone
  show (EventBuffer.load fmt retain bootId s.file).recent = _
  rw [hemitting.file, recent_load retain bootId (fun e he => hemitting.writable e (hperm.mem_iff.mp he))
    fun e he => (hnumber e he).2, keepLast, if_neg retain.pos.ne']

/-- In every interleaving of emissions that all completed: after a restart the log serves the last events exactly
if the last appends are those of the last events, in the order of their numbers. -/
theorem serves_last_iff (hrun : Run (eventDisk fmt) WithoutCrash h s) (hdone : s.pending = []) (retain : ℕ+)
    (bootId : String) :
    ServesLast retain (emitted h) ((eventDisk fmt).step (.restart retain bootId true) s).2.log ↔
      window retain (appended h) = window retain (emitted h) := by
  have hnumbered := (emitting_of_run hrun).numbered
  obtain ⟨hperm, hnumber⟩ := (emitting_of_run hrun).completed hdone
  have hrecent := recent_restart hrun hdone retain bootId
  constructor
  · intro hserves
    set log := ((eventDisk fmt).step (.restart retain bootId true) s).2.log
    have hserved : (log.snapshot 0).events = log.recent := by
      refine List.filter_eq_self.mpr fun e he => ?_
      rw [hrecent] at he
      exact decide_eq_true (hnumber e (List.mem_of_mem_drop he)).1
    have hincreasing := hserves.increasing 0
    have hexact := hserves.exact 0
    rw [hserved, hrecent] at hincreasing
    simp only [hserved, hrecent] at hexact
    refine increasing_ext hincreasing (window_increasing hnumbered) fun e => (hexact e).trans ?_
    refine and_iff_left_of_imp fun he => ?_
    exact (hnumber e (hperm.mem_iff.mpr (List.mem_of_mem_drop he))).1
  · intro hsame
    exact servesLast_of_recent (hrecent.trans hsame) hnumbered

end Restarts

/-- Two events are published, and then appended: the event at this position comes first. -/
def sampleEmissions (first : ℕ) : List (DiskInput .sample) :=
  [samplePublish, samplePublish, .append first 1000, .append 0 1000]

/-- Two events are emitted and written in either order. -/
theorem run_sampleEmissions {first : ℕ} (hfirst : first = 0 ∨ first = 1) :
    Run (eventDisk .sample) WithoutCrash ((eventDisk .sample).trace sampleDisk (sampleEmissions first))
      ((eventDisk .sample).last sampleDisk (sampleEmissions first)) := by
  have hstart : Run (eventDisk .sample) WithoutCrash [] sampleDisk := .init ⟨10, "b1", rfl⟩
  refine hstart.append_trace (sampleEmissions first) ?_
  intro entry hentry
  rcases hentry with _ | ⟨_, _ | ⟨_, _ | ⟨_, _ | ⟨_, hentry⟩⟩⟩⟩
  · trivial
  · trivial
  · intro e he
    rcases hfirst with rfl | rfl <;> obtain rfl := Option.some.inj he <;> decide
  · intro e he
    rcases hfirst with rfl | rfl <;> obtain rfl := Option.some.inj he <;> decide
  · cases hentry

/-- The log serves the last event after a restart. -/
theorem serves_last_iff_sample : ServesLast 1 (emitted ((eventDisk .sample).trace sampleDisk (sampleEmissions 0)))
    ((eventDisk .sample).step (.restart 1 "b2" true) ((eventDisk .sample).last sampleDisk (sampleEmissions 0))).2.log :=
  (serves_last_iff (run_sampleEmissions (.inl rfl)) rfl 1 "b2").mpr rfl

/-- The second event is appended before the first one: after a restart they are served in the wrong order, and
the second is told to be the oldest. -/
theorem served_out_of_order : ∃ h s, Run (eventDisk .sample) WithoutCrash h s ∧ s.pending = [] ∧
    ¬ ServesLast 10 (emitted h) ((eventDisk .sample).step (.restart 10 "b2" true) s).2.log ∧
    (((eventDisk .sample).step (.restart 10 "b2" true) s).2.log.snapshot 0).events.map number = [2, 1] ∧
    (((eventDisk .sample).step (.restart 10 "b2" true) s).2.log.snapshot 0).oldestSeq = 2 := by
  have hrun := run_sampleEmissions (.inr rfl)
  have hrecent := recent_restart hrun rfl 10 "b2"
  set log := ((eventDisk .sample).step (.restart 10 "b2" true)
    ((eventDisk .sample).last sampleDisk (sampleEmissions 1))).2.log
  have hevents : (log.snapshot 0).events.map number = [2, 1] := by
    rw [EventBuffer.snapshot, hrecent]
    decide
  have holdest : (log.snapshot 0).oldestSeq = 2 := by
    rw [EventBuffer.snapshot, hrecent]
    rfl
  refine ⟨_, _, hrun, rfl, fun hserves => ?_, hevents, holdest⟩
  have hincreasing := List.pairwise_map.mpr (hserves.increasing 0)
  rw [hevents] at hincreasing
  exact absurd hincreasing (by decide)

end VirtuosoFlow.Tunnel
