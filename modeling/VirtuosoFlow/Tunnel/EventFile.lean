import VirtuosoFlow.Base.Numbered
import VirtuosoFlow.JsonDumps
import VirtuosoFlow.Tunnel.Event
import VirtuosoFlow.Tunnel.Result

/-!
# The event log and its file

`EventLog` (`event/manager.py`) with any number of events kept in memory: an event is
published under the lock and then appended to `events.jsonl`; a start reads the file
back. The file is a text, of which any part may be what a write left behind; none of
it is a carriage return.
-/

namespace VirtuosoFlow.Tunnel

open Base JsonText

/-- The number of an event, where it has one: `isinstance(e.get("seq"), int)`. -/
def seqOf (e : Obj) : Option ℤ :=
  match e.lookup "seq" with
  | some (.int n) => some n
  | some (.bool b) => some (if b then 1 else 0)
  | _ => none

/-- An event log in memory. -/
structure EventBuffer where
  /-- `self._retain`; zero keeps everything. -/
  retain : ℕ
  /-- `self._seq`. -/
  seq : ℕ
  /-- `self._events`. -/
  recent : List Obj
  /-- `self.boot_id`. -/
  bootId : String

/-- `events[-retain:]`, unless everything is kept. -/
def keepLast {α : Type} (retain : ℕ) (events : List α) : List α :=
  if retain = 0 then events else window retain events

/-- The event that a line of the file holds. -/
def eventOfLine (fmt : FloatFormat) (line : List Char) : Option Obj :=
  if (strip line).isEmpty then none
  else match loads fmt (strip line) with
    | some (.obj e) => if (seqOf e).isSome then some e else none
    | _ => none

/-- The greater of a number and the one that a line of the file holds. -/
def maxSeq (fmt : FloatFormat) (seq : ℕ) (line : List Char) : ℕ :=
  match loads fmt line with
  | some (.obj e) =>
    match seqOf e with
    | some s => if s > seq then s.toNat else seq
    | none => seq
  | _ => seq

namespace EventBuffer

/-- `EventLog(retain)`, over a file. -/
def load (fmt : FloatFormat) (retain : ℕ) (bootId : String) (file : List Char) : EventBuffer where
  retain := retain
  seq := (splitLines [] file).foldl (maxSeq fmt) 0
  recent := (keepLast retain (splitLines [] file)).filterMap (eventOfLine fmt)
  bootId := bootId

/-- An event `{seq, ts, type, payload}`. -/
def event (seq : ℕ) (ts etype : String) (payload : Json) : Obj :=
  [("seq", .int seq), ("ts", .str ts), ("type", .str etype), ("payload", pyOr payload (.obj []))]

/-- The part of `emit` under the lock: the event gets the next number and can be read. -/
def publish (ts etype : String) (payload : Json) (log : EventBuffer) : Obj × EventBuffer :=
  let e := event (log.seq + 1) ts etype payload
  (e, { log with seq := log.seq + 1, recent := keepLast log.retain (log.recent ++ [e]) })

/-- What `_append_disk` writes. -/
def line (fmt : FloatFormat) (e : Obj) : List Char := dumps fmt none (.obj e) ++ ['\n']

/-- What `event.list` and `event.wait` answer. -/
structure Snapshot where
  events : List Obj
  latestSeq : ℕ
  oldestSeq : ℤ
  bootId : String

/-- `_snapshot(since)`. -/
def snapshot (log : EventBuffer) (since : ℤ) : Snapshot where
  events := log.recent.filter fun e => decide (since < (seqOf e).getD 0)
  latestSeq := log.seq
  oldestSeq := (log.recent.head?.bind seqOf).getD 0
  bootId := log.bootId

end EventBuffer

section Lines

variable {fmt : FloatFormat}

/-- A line without a line end is split off at the newline after it. -/
theorem splitLines_newline {text : List Char} (h : ∀ c ∈ text, isLineEnd c = false)
    (start rest : List Char) :
    splitLines start (text ++ '\n' :: rest) = (start ++ text) :: splitLines [] rest := by
  induction text generalizing start with
  | nil =>
    have hnewline : isLineEnd '\n' = true := by decide
    rw [List.nil_append, splitLines, if_pos hnewline, List.append_nil]
  | cons c text ih =>
    have hc := h c List.mem_cons_self
    have htail := ih (fun c' hc' => h c' (List.mem_cons_of_mem c hc')) (start ++ [c])
    rw [List.cons_append, splitLines, if_neg (by rw [hc]; decide), htail, List.append_assoc,
      List.singleton_append]

/-- No line ends in ASCII text without a line end. -/
theorem not_isLineEnd {c : Char} (h : Ascii c) : isLineEnd c = false := by
  obtain ⟨hlow, hhigh⟩ := h
  simp only [isLineEnd, Bool.or_eq_false_iff, Bool.and_eq_false_iff, decide_eq_false_iff_not, beq_eq_false_iff_ne]
  omega

/-- The events that `json` can write. -/
def Writable (fmt : FloatFormat) (e : Obj) : Prop := WellFormed fmt (.obj e)

/-- An event with a well formed payload can be written. -/
theorem writable_event (seq : ℕ) (ts etype : String) {payload : Json} (h : WellFormed fmt payload) :
    Writable fmt (EventBuffer.event seq ts etype payload) := by
  have hpayload : WellFormed fmt (pyOr payload (.obj [])) := by
    unfold pyOr
    split
    · exact h
    · exact ⟨List.nodup_nil, trivial⟩
  refine ⟨by simp [EventBuffer.event], fun _ _ => trivial, trivial, fun _ _ => trivial, ?_, fun _ _ => trivial, ?_,
    fun _ _ => trivial, hpayload, trivial⟩
  · intro c _
    trivial
  · intro c _
    trivial

/-- An event of an object starts with a brace and ends with one. -/
theorem ends_printMembers (ms : List (String × Json)) (d : ℕ) :
    ∃ t, printMembers fmt (dumpsStyle none) d ms = t ++ ['}'] := by
  induction ms with
  | nil => exact ⟨_, by rw [printMembers]⟩
  | cons m ms ih =>
    obtain ⟨t, ht⟩ := ih
    exact ⟨_, by rw [printMembers, ht, ← List.append_assoc, ← List.append_assoc, ← List.cons_append]⟩

/-- A dumped object has no white space around it. -/
theorem strip_dumps (e : Obj) : strip (dumps fmt none (.obj e)) = dumps fmt none (.obj e) := by
  obtain ⟨t, ht⟩ : ∃ t, dumps fmt none (.obj e) = '{' :: (t ++ ['}']) := by
    unfold dumps
    cases e with
    | nil => exact ⟨[], by rw [print]; rfl⟩
    | cons m ms =>
      obtain ⟨t, ht⟩ := @ends_printMembers fmt ms 0
      exact ⟨_, by rw [print, ht, ← List.append_assoc, ← List.append_assoc]⟩
  have hopen : isPySpace '{' = false := by decide
  have hclose : isPySpace '}' = false := by decide
  rw [ht]
  simp [strip, hopen, hclose]

/-- What comes after a newline is split on its own. -/
theorem splitLines_append (start text rest : List Char) :
    splitLines start (text ++ '\n' :: rest) =
      splitLines start (text ++ ['\n']) ++ splitLines [] rest := by
  have hnewline : isLineEnd '\n' = true := by decide
  induction text generalizing start with
  | nil => simp [splitLines, hnewline]
  | cons c text ih =>
    rw [List.cons_append, List.cons_append, splitLines, splitLines]
    split
    · rw [ih, List.cons_append]
    · exact ih _

/-- It is one line. -/
theorem not_isLineEnd_dumps {e : Obj} (h : Writable fmt e) :
    ∀ c ∈ dumps fmt none (.obj e), isLineEnd c = false :=
  fun c hc => not_isLineEnd (ascii_print (.obj e) 0 h c hc)

/-- The events of a file are its lines. -/
theorem splitLines_lines {events : List Obj} (h : ∀ e ∈ events, Writable fmt e) (rest : List Char) :
    splitLines [] (events.flatMap (EventBuffer.line fmt) ++ rest) =
      events.map (fun e => dumps fmt none (.obj e)) ++ splitLines [] rest := by
  induction events with
  | nil => rfl
  | cons e events ih =>
    have htail := ih fun e' he' => h e' (List.mem_cons_of_mem e he')
    have hhead := splitLines_newline (not_isLineEnd_dumps (h e List.mem_cons_self)) []
      (events.flatMap (EventBuffer.line fmt) ++ rest)
    rw [List.flatMap_cons, EventBuffer.line, List.append_assoc, List.append_assoc, List.singleton_append,
      hhead, htail, List.nil_append, List.map_cons, List.cons_append]

/-- The line of an event is read as the event. -/
theorem eventOfLine_dumps {e : Obj} (h : Writable fmt e) (hseq : (seqOf e).isSome) :
    eventOfLine fmt (dumps fmt none (.obj e)) = some e := by
  have hread := loads_dumps none h
  obtain ⟨c, t, hhead, -⟩ := @print_head fmt (dumpsStyle none) 0 _ h
  have hne : (dumps fmt none (.obj e)).isEmpty = false := by rw [dumps, hhead]; rfl
  rw [eventOfLine, strip_dumps, hne, hread]
  simp [hseq]

/-- A dumped event raises the highest number to its own. -/
theorem maxSeq_dumps {e : Obj} (h : Writable fmt e) {n : ℤ} (hseq : seqOf e = some n) (seq : ℕ) :
    maxSeq fmt seq (dumps fmt none (.obj e)) = max seq n.toNat := by
  rw [maxSeq, loads_dumps none h]
  simp only [hseq]
  split <;> omega

end Lines

section Load

variable {fmt : FloatFormat} {events : List Obj}

/-- The number of an event. -/
def number (e : Obj) : ℤ := (seqOf e).getD 0

/-- The number of an event is its `seq`. -/
theorem seqOf_of_number {e : Obj} {n : ℤ} (h : number e = n) (hn : n ≠ 0) : seqOf e = some n := by
  unfold number at h
  cases hseq : seqOf e with
  | none =>
    rw [hseq] at h
    exact absurd h.symm hn
  | some m =>
    rw [hseq] at h
    exact congrArg some h

/-- An event carries the number it was given. -/
@[simp] theorem number_event (seq : ℕ) (ts etype : String) (payload : Json) :
    number (EventBuffer.event seq ts etype payload) = seq := rfl

/-- In a numbered list it is the position. -/
theorem seqOf_numbered (h : Numbered number events) {i : ℕ} (hi : i < events.length) :
    seqOf events[i] = some (i + 1 : ℤ) := seqOf_of_number (h i hi) (by omega)

/-- The greatest number of a file of numbered events is their count. -/
theorem foldl_maxSeq (hw : ∀ e ∈ events, Writable fmt e) (h : Numbered number events) :
    (events.map fun e => dumps fmt none (.obj e)).foldl (maxSeq fmt) 0 = events.length := by
  induction events using List.reverseRecOn with
  | nil => rfl
  | append_singleton events e ih =>
    have hinit := ih (fun e' he' => hw e' (List.mem_append_left _ he')) h.prefix
    have hseq : seqOf e = some (events.length + 1 : ℤ) := by
      have hat := seqOf_numbered h (i := events.length) (by simp)
      simpa using hat
    rw [List.map_append, List.foldl_append, hinit, List.map_singleton, List.foldl_cons, List.foldl_nil,
      maxSeq_dumps (hw e (by simp)) hseq, List.length_append, List.length_singleton]
    omega

/-- The lines of a log file are those of its events. -/
theorem splitLines_file (hw : ∀ e ∈ events, Writable fmt e) :
    splitLines [] (events.flatMap (EventBuffer.line fmt)) = events.map fun e => dumps fmt none (.obj e) := by
  have hlines := splitLines_lines hw []
  simpa [splitLines] using hlines

/-- A start keeps the last events of the file in memory, in the order of their lines. -/
theorem recent_load (retain : ℕ) (bootId : String) (hw : ∀ e ∈ events, Writable fmt e)
    (hseq : ∀ e ∈ events, (seqOf e).isSome) :
    (EventBuffer.load fmt retain bootId (events.flatMap (EventBuffer.line fmt))).recent = keepLast retain events := by
  have hkeep : keepLast retain (events.map fun e => dumps fmt none (.obj e)) =
      (keepLast retain events).map fun e => dumps fmt none (.obj e) := by
    unfold keepLast window
    split
    · rfl
    · rw [List.length_map, List.map_drop]
  have hsub : ∀ e ∈ keepLast retain events, e ∈ events := by
    intro e he
    unfold keepLast window at he
    split at he
    · exact he
    · exact List.mem_of_mem_drop he
  show (keepLast retain (splitLines [] (events.flatMap (EventBuffer.line fmt)))).filterMap (eventOfLine fmt) = _
  rw [splitLines_file hw, hkeep, List.filterMap_map]
  refine (List.filterMap_congr fun e he => ?_).trans (List.filterMap_some)
  exact eventOfLine_dumps (hw e (hsub e he)) (hseq e (hsub e he))

/-- A start over the file of numbered events goes on with them. -/
theorem load_lines (retain : ℕ) (bootId : String) (hw : ∀ e ∈ events, Writable fmt e)
    (h : Numbered number events) :
    EventBuffer.load fmt retain bootId (events.flatMap (EventBuffer.line fmt)) =
      ⟨retain, events.length, keepLast retain events, bootId⟩ := by
  have hrecent := recent_load retain bootId hw fun e he => by
    obtain ⟨i, hi, rfl⟩ := List.getElem_of_mem he
    rw [seqOf_numbered h hi]
    rfl
  have hseq := foldl_maxSeq hw h
  rw [← splitLines_file hw] at hseq
  rw [← hrecent, ← hseq]
  rfl

end Load

/-- What a request of the daemon does to the event log is such an emission, with the default
number of events kept. -/
theorem emit_publishes (env : Env) (etype : String) (payload : Obj) (log : EventLog) (bootId : String) :
    let published := EventBuffer.publish (env.iso env.now) etype (.obj payload)
      ⟨defaultRetain, log.seq, log.recent, bootId⟩
    (log.emit env etype payload).seq = published.2.seq ∧
      (log.emit env etype payload).recent = published.2.recent := by
  have hor : pyOr (.obj payload) (.obj []) = .obj payload := by cases payload <;> rfl
  simp [EventBuffer.publish, EventBuffer.event, EventLog.emit, hor, keepLast, window, defaultRetain,
    Env.stamp]

end VirtuosoFlow.Tunnel
