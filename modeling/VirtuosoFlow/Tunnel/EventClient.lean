import VirtuosoFlow.Base.Run
import VirtuosoFlow.Tunnel.Dispatch
import VirtuosoFlow.Tunnel.EventFile
import Mathlib.Data.PNat.Basic

/-!
# What an event client prints

`run_real` of `vfp_event_client.py` against the event log: the client remembers the
greatest sequence number it has seen and asks for what is later. Events are emitted
and the tunnel is restarted between its requests, whose answers may fail to come.
-/

namespace VirtuosoFlow.Tunnel

open Base JsonText

/-- Where `run_real` stands. -/
inductive ClientPhase where
  | contacting
  | polling
  | exited
  deriving DecidableEq

/-- The event client. -/
structure EventClient where
  phase : ClientPhase
  since : ℤ
  haveWait : Bool
  failures : ℕ
  /-- The lines `VFP-EVT <seq> <type>` on its standard output. -/
  printed : List (ℤ × Json)

/-- The arguments of the client that `run_real` uses. -/
structure ClientArgs where
  since : ℤ
  maxFailures : ℕ

/-- The line of an event. -/
def printedLine (e : Obj) : ℤ × Json := (number e, Obj.getD e "type" (.str "?"))

namespace EventClient

/-- A client before its first request. -/
def start (args : ClientArgs) : EventClient := ⟨.contacting, args.since, true, 0, []⟩

/-- The `since` of the next request. -/
def query (c : EventClient) : ℤ :=
  match c.phase with
  | .contacting => max c.since 0
  | _ => c.since

/-- `for ev in resp["events"]`: print the event and advance the cursor. -/
def print (c : EventClient) (events : List Obj) : EventClient :=
  { c with
    since := events.foldl (fun since e => max since (number e)) c.since
    printed := c.printed ++ events.map printedLine }

/-- An answer arrives. -/
def answered (resp : EventBuffer.Snapshot) (c : EventClient) : EventClient :=
  match c.phase with
  | .contacting =>
    if c.since ≤ 0 then { c with phase := .polling, failures := 0, since := resp.latestSeq }
    else { c.print resp.events with phase := .polling, failures := 0 }
  | .polling => { c.print resp.events with failures := 0 }
  | .exited => c

/-- The request is answered with an error, or the connection closes without an answer. -/
def rejected (code : ℤ) (c : EventClient) : EventClient :=
  match c.phase with
  | .polling =>
    if c.haveWait && code == methodNotFound then { c with haveWait := false }
    else { c with phase := .exited }
  | _ => { c with phase := .exited }

/-- The request raises `OSError`. -/
def unreachable (args : ClientArgs) (c : EventClient) : EventClient :=
  if c.phase = .exited then c
  else if c.failures + 1 > args.maxFailures then { c with phase := .exited, failures := c.failures + 1 }
  else { c with failures := c.failures + 1 }

end EventClient

/-- The tunnel's event log with its file, and a client. -/
structure EventStream where
  log : EventBuffer
  file : List Char
  client : EventClient
  /-- How many events had been emitted when the client last got an answer. -/
  seen : ℕ

/-- What happens to the log and the client, one at a time. -/
inductive StreamInput (fmt : FloatFormat) where
  /-- `emit(etype, payload)`, and its line is written. -/
  | emit (ts etype : String) (payload : {v : Json // WellFormed fmt v})
  /-- The tunnel is stopped and started. -/
  | restart (retain : ℕ+) (bootId : String)
  /-- The next request of the client is answered. -/
  | answer
  /-- The next request of the client is answered with an error. -/
  | reject (code : ℤ)
  /-- The next request of the client does not get through. -/
  | lose

section Machine

variable (fmt : FloatFormat) (args : ClientArgs)

/-- The effect of an input; an emission gives the event. -/
def EventStream.step : StreamInput fmt → EventStream → Option Obj × EventStream
  | .emit ts etype payload, s =>
    let published := s.log.publish ts etype payload.val
    (some published.1,
      { s with log := published.2, file := s.file ++ EventBuffer.line fmt published.1 })
  | .restart retain bootId, s => (none, { s with log := .load fmt retain bootId s.file })
  | .answer, s =>
    if s.client.phase = .exited then (none, s)
    else (none, { s with
      client := s.client.answered (s.log.snapshot s.client.query), seen := s.log.seq })
  | .reject code, s => (none, { s with client := s.client.rejected code })
  | .lose, s => (none, { s with client := s.client.unreachable args })

/-- The log from its first start over an empty directory on, and a client. -/
def eventStream : Machine EventStream (StreamInput fmt) (Option Obj) where
  init s := ∃ (retain : ℕ+) (bootId : String),
    s = ⟨.load fmt retain bootId [], [], .start args, 0⟩
  step := EventStream.step fmt args

variable {fmt}

/-- The emitted events of a run, in order. -/
def emittedEvents (h : List (Entry EventStream (StreamInput fmt) (Option Obj))) : List Obj :=
  h.filterMap Entry.output

/-- At most `retain` events were emitted since the last answer that the client got. -/
def Paced (s : EventStream) (i : StreamInput fmt) : Prop :=
  i = .answer → s.client.phase = .polling → s.log.seq ≤ s.seen + s.log.retain

/-- At its first answer at most `retain` events are later than the cursor of the client. -/
def Reached (s : EventStream) (i : StreamInput fmt) : Prop :=
  i = .answer → s.client.phase = .contacting → (s.log.seq : ℤ) ≤ args.since + s.log.retain

end Machine

section Log

variable {fmt : FloatFormat} {args : ClientArgs} {events : List Obj} {s : EventStream}

/-- The log holds the window of the events emitted so far, and its file has them all. -/
structure Faithful (fmt : FloatFormat) (s : EventStream) (events : List Obj) : Prop where
  file : s.file = events.flatMap (EventBuffer.line fmt)
  writable : ∀ e ∈ events, Writable fmt e
  numbered : Numbered number events
  retain_pos : 0 < s.log.retain
  seq : s.log.seq = events.length
  recent : s.log.recent = window s.log.retain events

/-- A limit above zero keeps that many. -/
theorem keepLast_of_pos {α : Type} {retain : ℕ} (h : 0 < retain) (xs : List α) :
    keepLast retain xs = window retain xs := if_neg (by omega)

/-- An emission, a restart and a request each keep it. -/
theorem Faithful.step (h : Faithful fmt s events) (i : StreamInput fmt) :
    Faithful fmt (EventStream.step fmt args i s).2
      (events ++ (EventStream.step fmt args i s).1.toList) := by
  cases i with
  | emit ts etype payload =>
    have hnumber : number (EventBuffer.event (s.log.seq + 1) ts etype payload.val) =
        events.length + 1 := by rw [number_event, h.seq]; simp
    refine ⟨?_, ?_, h.numbered.snoc hnumber, h.retain_pos, ?_, ?_⟩
    · simp [EventStream.step, EventBuffer.publish, h.file]
    · intro e he
      rcases List.mem_append.mp he with hold | hnew
      · exact h.writable e hold
      · obtain rfl := List.mem_singleton.mp hnew
        exact writable_event _ ts etype payload.property
    · simp [EventStream.step, EventBuffer.publish, h.seq]
    · simp only [EventStream.step, EventBuffer.publish, h.recent, Option.toList_some]
      rw [keepLast_of_pos h.retain_pos]
      exact window_snoc _ _ _
  | restart retain bootId =>
    have hload := load_lines retain bootId h.writable h.numbered
    have hlog : (EventStream.step fmt args (.restart retain bootId) s).2.log =
        ⟨retain, events.length, window retain events, bootId⟩ := by
      rw [EventStream.step, h.file, hload, keepLast_of_pos retain.pos]
    have hsame : events ++ (EventStream.step fmt args (.restart retain bootId) s).1.toList = events := by
      simp [EventStream.step]
    rw [hsame]
    refine ⟨h.file, h.writable, h.numbered, ?_, ?_, ?_⟩ <;> rw [hlog]
    exact retain.pos
  | answer =>
    simp only [EventStream.step]
    split <;> simpa using ⟨h.file, h.writable, h.numbered, h.retain_pos, h.seq, h.recent⟩
  | reject code => simpa [EventStream.step] using
      ⟨h.file, h.writable, h.numbered, h.retain_pos, h.seq, h.recent⟩
  | lose => simpa [EventStream.step] using
      ⟨h.file, h.writable, h.numbered, h.retain_pos, h.seq, h.recent⟩

/-- What the log answers, in terms of the events emitted so far. -/
theorem Faithful.snapshot (h : Faithful fmt s events) (since : ℤ) :
    (s.log.snapshot since).events =
      (window s.log.retain events).filter (fun e => decide (since < number e)) ∧
    (s.log.snapshot since).latestSeq = events.length := by
  constructor
  · rw [EventBuffer.snapshot, h.recent]
    rfl
  · exact h.seq

/-- A client that can still be served gets every event after its cursor. -/
theorem Faithful.served (h : Faithful fmt s events) {cursor : ℤ}
    (hfit : s.log.seq ≤ cursor.toNat + s.log.retain) :
    (s.log.snapshot cursor).events = events.drop cursor.toNat := by
  rw [h.seq] at hfit
  rw [(h.snapshot cursor).1, window, h.numbered.filter_drop, max_window _ hfit]

end Log

section Client

variable {fmt : FloatFormat} {args : ClientArgs} {events : List Obj} {s : EventStream}
variable {h : List (Entry EventStream (StreamInput fmt) (Option Obj))}

/-- The client has printed the events after its first cursor, as far as it has seen any. -/
structure Follows (args : ClientArgs) (s : EventStream) (events : List Obj) : Prop where
  printed : s.client.printed = ((events.take s.seen).drop args.since.toNat).map printedLine
  seen_le : s.seen ≤ events.length
  since : s.client.since = max args.since s.seen
  contacting : s.client.phase = .contacting → s.seen = 0

/-- What the client is asked to print goes on where it stopped. -/
theorem Follows.print (hf : Follows args s events) (hlog : Faithful fmt s events)
    (hsince : 0 < args.since) (hfit : s.log.seq ≤ s.client.since.toNat + s.log.retain) :
    (s.client.print (s.log.snapshot s.client.since).events).printed =
        (events.drop args.since.toNat).map printedLine ∧
      (s.client.print (s.log.snapshot s.client.since).events).since = max args.since events.length := by
  have hcursor : s.client.since.toNat = max args.since.toNat s.seen := by
    rw [hf.since]
    omega
  have hseen := hf.seen_le
  rw [hlog.served hfit]
  constructor
  · rw [EventClient.print, hf.printed, hcursor, ← List.map_append, drop_take_append]
  · have hfold := hlog.numbered.foldl_max s.client.since.toNat s.client.since
    have hcount : (s.seen : ℤ) ≤ events.length := by exact_mod_cast hseen
    simp only [EventClient.print]
    rw [hfold, hf.since]
    split <;> omega

/-- An answer that is timely brings the client up to date. -/
theorem Follows.answer (hf : Follows args s events) (hlog : Faithful fmt s events)
    (hsince : 0 < args.since) (hpaced : @Paced fmt s .answer)
    (hreached : @Reached fmt args s .answer) (hlive : s.client.phase ≠ .exited) :
    let c := s.client.answered (s.log.snapshot s.client.query)
    c.printed = (events.drop args.since.toNat).map printedLine ∧ c.since = max args.since events.length ∧
      c.phase = .polling := by
  have hcursor := hf.since
  cases hphase : s.client.phase with
  | contacting =>
    have hseen := hf.contacting hphase
    have hquery : s.client.query = s.client.since := by
      rw [EventClient.query, hphase]
      show max s.client.since 0 = s.client.since
      omega
    have hfit := hreached rfl hphase
    obtain ⟨hprinted, hnext⟩ := hf.print hlog hsince (by omega)
    have hpos : ¬ s.client.since ≤ 0 := by omega
    simp only [EventClient.answered, hphase, if_neg hpos, hquery]
    exact ⟨hprinted, hnext, trivial⟩
  | polling =>
    have hquery : s.client.query = s.client.since := by rw [EventClient.query, hphase]
    have hfit := hpaced rfl hphase
    obtain ⟨hprinted, hnext⟩ := hf.print hlog hsince (by omega)
    simp only [EventClient.answered, hphase, hquery]
    exact ⟨hprinted, hnext, hphase⟩
  | exited => exact absurd hphase hlive

/-- The client keeps following the log. -/
theorem Follows.step (hf : Follows args s events) (hlog : Faithful fmt s events)
    (hsince : 0 < args.since) {i : StreamInput fmt} (hpaced : Paced s i) (hreached : Reached args s i) :
    Follows args (EventStream.step fmt args i s).2
      (events ++ (EventStream.step fmt args i s).1.toList) := by
  cases i with
  | emit ts etype payload =>
    have htake := @List.take_append_of_le_length _ events
      [EventBuffer.event (s.log.seq + 1) ts etype payload.val] _ hf.seen_le
    have hseen := hf.seen_le
    refine ⟨?_, ?_, hf.since, hf.contacting⟩
    · simp only [EventStream.step, EventBuffer.publish, Option.toList_some, htake]
      exact hf.printed
    · simp only [EventStream.step, List.length_append]
      omega
  | restart retain bootId => simpa [EventStream.step] using
      ⟨hf.printed, hf.seen_le, hf.since, hf.contacting⟩
  | answer =>
    by_cases hexit : s.client.phase = .exited
    · simpa [EventStream.step, hexit] using hf
    · obtain ⟨hprinted, hnext, hphase⟩ := hf.answer hlog hsince hpaced hreached hexit
      have hsame : events ++ (EventStream.step fmt args (.answer : StreamInput fmt) s).1.toList = events := by
        simp [EventStream.step, hexit]
      rw [hsame, EventStream.step, if_neg hexit]
      refine ⟨?_, le_of_eq hlog.seq, ?_, ?_⟩
      · rw [hprinted, hlog.seq, List.take_length]
      · rw [hnext, hlog.seq]
      · intro hcontacting
        rw [hphase] at hcontacting
        cases hcontacting
  | reject code =>
    have hclient : (s.client.rejected code).printed = s.client.printed ∧
        (s.client.rejected code).since = s.client.since ∧
        ((s.client.rejected code).phase = .contacting → s.client.phase = .contacting) := by
      unfold EventClient.rejected
      cases hphase : s.client.phase with
      | polling =>
        simp only
        split <;> simp
      | _ => simp
    simp only [EventStream.step, Option.toList_none, List.append_nil]
    exact ⟨hclient.1.trans hf.printed, hf.seen_le, hclient.2.1.trans hf.since,
      fun h => hf.contacting (hclient.2.2 h)⟩
  | lose =>
    have hclient : (s.client.unreachable args).printed = s.client.printed ∧
        (s.client.unreachable args).since = s.client.since ∧
        ((s.client.unreachable args).phase = .contacting → s.client.phase = .contacting) := by
      unfold EventClient.unreachable
      split
      · simp
      · split <;> simp
    simp only [EventStream.step, Option.toList_none, List.append_nil]
    exact ⟨hclient.1.trans hf.printed, hf.seen_le, hclient.2.1.trans hf.since,
      fun h => hf.contacting (hclient.2.2 h)⟩

/-- One more step of a run may emit one more event. -/
theorem emittedEvents_fire (h : List (Entry EventStream (StreamInput fmt) (Option Obj))) (s : EventStream)
    (i : StreamInput fmt) : emittedEvents (h ++ [(eventStream fmt args).fire s i]) =
      emittedEvents h ++ (EventStream.step fmt args i s).1.toList := by
  unfold emittedEvents
  rw [List.filterMap_append]
  rfl

/-- Every run keeps the log faithful. -/
theorem faithful_of_run (hrun : Run (eventStream fmt args) (fun _ _ => True) h s) :
    Faithful fmt s (emittedEvents h) := by
  induction hrun with
  | init hs =>
    obtain ⟨retain, bootId, rfl⟩ := hs
    exact ⟨rfl, by simp [emittedEvents], numbered_nil, retain.pos, rfl,
      by simp [EventBuffer.load, splitLines, keepLast, window, emittedEvents]⟩
  | @step h s i _ _ ih =>
    rw [emittedEvents_fire]
    exact ih.step i

/-- A client that is served in time follows the log in every run. -/
theorem follows_of_run (hsince : 0 < args.since)
    (hrun : Run (eventStream fmt args) (fun s i => Paced s i ∧ Reached args s i) h s) :
    Follows args s (emittedEvents h) := by
  induction hrun with
  | init hs =>
    obtain ⟨retain, bootId, rfl⟩ := hs
    refine ⟨by simp [EventClient.start], Nat.zero_le _, ?_, fun _ => rfl⟩
    show args.since = max args.since 0
    omega
  | @step h s i hprior hok ih =>
    rw [emittedEvents_fire]
    have hlog := faithful_of_run (hprior.mono fun _ _ _ => trivial)
    exact ih.step hlog hsince hok.1 hok.2

/-- The log answers with those of the last `retain` events that are later than `since`, in the
order of their numbers, whatever emissions and restarts came before. A client that was started
at `since > 0` has printed every later event once and in order with each answer it gets, when at
most `retain` events are emitted between two of its answers and at most as many are later than
`since` at the first. -/
theorem events_delivered_once (hsince : 0 < args.since)
    (hrun : Run (eventStream fmt args) (fun _ _ => True) h s) :
    (∀ since : ℤ, (s.log.snapshot since).events = (window s.log.retain (emittedEvents h)).filter
          (fun e => decide (since < number e)) ∧
        ((s.log.snapshot since).events.map number).Pairwise (· < ·) ∧
        (s.log.snapshot since).latestSeq = (emittedEvents h).length) ∧
      ((∀ e ∈ h, Paced e.before e.input ∧ Reached args e.before e.input) →
        @Paced fmt s .answer → @Reached fmt args s .answer → s.client.phase ≠ .exited →
        (EventStream.step fmt args .answer s).2.client.printed =
          ((emittedEvents h).drop args.since.toNat).map printedLine) := by
  have hlog := faithful_of_run hrun
  refine ⟨fun since => ?_, fun htimely hpaced hreached hlive => ?_⟩
  · obtain ⟨hevents, hlatest⟩ := hlog.snapshot since
    have hsub : (s.log.snapshot since).events.Sublist (emittedEvents h) := by
      rw [hevents]
      exact List.filter_sublist.trans (List.drop_sublist _ _)
    exact ⟨hevents, hlog.numbered.pairwise_lt.sublist (hsub.map number), hlatest⟩
  · have hfollows := follows_of_run hsince (hrun.restrict htimely)
    obtain ⟨hprinted, -, -⟩ := hfollows.answer hlog hsince hpaced hreached hlive
    rw [EventStream.step, if_neg hlive]
    exact hprinted

end Client

section Samples

/-- A client started after event 1. -/
def sampleArgs : ClientArgs := ⟨1, 60⟩

/-- The first start over an empty directory, with a client. -/
def sampleStream (retain : ℕ+) : EventStream :=
  ⟨.load .sample retain "b1" [] , [], .start sampleArgs, 0⟩

/-- An event without a payload. -/
def sampleEmit (etype : String) : StreamInput .sample := .emit "2026-01-01T00:00:00" etype ⟨.null, trivial⟩

/-- Two events, the first answer, one more event and a restart. -/
def samplePaced : List (StreamInput .sample) :=
  [sampleEmit "a", sampleEmit "b", .answer, sampleEmit "c", .restart 2 "b2"]

/-- Three events are printed, with a restart between. -/
theorem events_delivered_once_sample :
    let s := (eventStream .sample sampleArgs).last (sampleStream 2) samplePaced
    (EventStream.step .sample sampleArgs .answer s).2.client.printed =
      [(2, .str "b"), (3, .str "c")] := by
  have hstart : Run (eventStream .sample sampleArgs) (fun _ _ => True) [] (sampleStream 2) :=
    .init ⟨2, "b1", rfl⟩
  have hrun := hstart.append_trace samplePaced (fun _ _ => trivial)
  have hcount := (faithful_of_run hrun).seq
  have hprinted := (events_delivered_once (by decide) hrun).2
  refine (hprinted ?_ ?_ nofun nofun).trans rfl
  · intro e he
    rcases he with _ | ⟨_, _ | ⟨_, _ | ⟨_, _ | ⟨_, _ | ⟨_, he⟩⟩⟩⟩⟩
    · exact ⟨nofun, nofun⟩
    · exact ⟨nofun, nofun⟩
    · exact ⟨fun _ hpolling => (nomatch hpolling), fun _ _ => by decide⟩
    · exact ⟨nofun, nofun⟩
    · exact ⟨nofun, nofun⟩
    · cases he
  · intro _ _
    rw [hcount]
    decide

/-- Three events, of which the log keeps the last, and the first answer. -/
def sampleLate : List (StreamInput .sample) :=
  [sampleEmit "a", sampleEmit "b", sampleEmit "c", .answer]

/-- A client whose first request comes when the log has dropped an event after its cursor never
prints that event, although nothing is emitted between two of its requests. -/
theorem dropped_before_first_contact :
    let M := eventStream .sample sampleArgs
    Run M (fun s i => Paced s i) (M.trace (sampleStream 1) sampleLate) (M.last (sampleStream 1) sampleLate) ∧
      (M.last (sampleStream 1) sampleLate).client.printed = [(3, .str "c")] ∧
      ((emittedEvents (M.trace (sampleStream 1) sampleLate)).drop sampleArgs.since.toNat).map printedLine =
        [(2, .str "b"), (3, .str "c")] := by
  refine ⟨?_, rfl, rfl⟩
  refine (Run.init (M := eventStream .sample sampleArgs) ⟨1, "b1", rfl⟩).append_trace sampleLate ?_
  intro e he
  rcases he with _ | ⟨_, _ | ⟨_, _ | ⟨_, _ | ⟨_, he⟩⟩⟩⟩
  · exact nofun
  · exact nofun
  · exact nofun
  · intro _ hpolling
    cases hpolling
  · cases he

end Samples

end VirtuosoFlow.Tunnel
