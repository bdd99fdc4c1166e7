import VirtuosoFlow.Base.Run
import VirtuosoFlow.JsonTrailing
import VirtuosoFlow.Tunnel.EventFile

/-!
# Sequence numbers across crashes

An event is published under the lock and appended to the file afterwards, by its own
thread: the append may come late, fail, stop short or never happen. A start takes the
greatest number it can read from the file and goes on from there.
-/

namespace VirtuosoFlow.Tunnel

open Base JsonText

/-- The event log, its file, the events that are still to be appended, and the greatest number
that `event.list` or `event.wait` has returned. -/
structure EventDisk where
  log : EventBuffer
  file : List Char
  pending : List Obj
  returned : ℤ

/-- What happens to the log, in any order. -/
inductive DiskInput (fmt : FloatFormat) where
  /-- The locked part of `emit(etype, payload)`. -/
  | publish (ts etype : String) (payload : {v : Json // WellFormed fmt v})
  /-- `_append_disk` of the pending event at a position gets as far as this many characters. -/
  | append (i written : ℕ)
  /-- `list(since)`, or an answer of `wait(since)`. -/
  | list (since : ℤ)
  /-- The process ends, at any point, and is started again; the file may be unreadable. -/
  | restart (retain : ℕ+) (bootId : String) (readable : Bool)

/-- What a step lets others see. -/
inductive DiskOutput where
  | published (e : Obj)
  | returned (events : List Obj)
  | none

section Machine

variable (fmt : FloatFormat)

/-- The greatest number of some events and one more number. -/
def maxNumber (start : ℤ) (events : List Obj) : ℤ :=
  events.foldl (fun n e => max n (number e)) start

/-- The effect of an input. -/
def EventDisk.step : DiskInput fmt → EventDisk → DiskOutput × EventDisk
  | .publish ts etype payload, s =>
    let published := s.log.publish ts etype payload.val
    (.published published.1, { s with log := published.2, pending := s.pending ++ [published.1] })
  | .append i written, s =>
    match s.pending[i]? with
    | some e => (.none, { s with
        file := s.file ++ (EventBuffer.line fmt e).take written, pending := s.pending.eraseIdx i })
    | none => (.none, s)
  | .list since, s =>
    let events := (s.log.snapshot since).events
    (.returned events, { s with returned := maxNumber s.returned events })
  | .restart retain bootId readable, s => (.none, { s with
      log := .load fmt retain bootId (if readable then s.file else []), pending := [] })

/-- The log from its first start over an empty directory on. -/
def eventDisk : Machine EventDisk (DiskInput fmt) DiskOutput where
  init s := ∃ (retain : ℕ+) (bootId : String), s = ⟨.load fmt retain bootId [], [], [], 0⟩
  step := EventDisk.step fmt

variable {fmt}

/-- The events that were returned in a run. -/
def returnedEvents (h : List (Entry EventDisk (DiskInput fmt) DiskOutput)) : List Obj :=
  h.flatMap fun entry =>
    match entry.output with
    | .returned events => events
    | _ => []

/-- An event that is published gets a greater number than every event returned before, so that
a client that has seen those still asks for it. -/
def NeverReused (h : List (Entry EventDisk (DiskInput fmt) DiskOutput)) : Prop :=
  ∀ h₁ entry h₂ e, h = h₁ ++ entry :: h₂ → entry.output = .published e →
    ∀ e' ∈ returnedEvents h₁, number e' < number e

/-- A text holds the line of an event as a line of its own. -/
def HasLine (fmt : FloatFormat) (file : List Char) (e : Obj) : Prop :=
  ∃ before after, file = before ++ (EventBuffer.line fmt e ++ after) ∧
    (before = [] ∨ ∃ t, before = t ++ ['\n'])

/-- A restart can read the file, and finds an event there that is no earlier than any that was
returned. -/
def Persisted (s : EventDisk) (i : DiskInput fmt) : Prop :=
  ∀ retain bootId readable, i = .restart retain bootId readable → 0 < s.returned →
    readable = true ∧ ∃ e, Writable fmt e ∧ HasLine fmt s.file e ∧ s.returned ≤ number e

end Machine

section File

variable {fmt : FloatFormat} {file line : List Char}

/-- A line does not lower the highest number. -/
theorem maxSeq_ge (seq : ℕ) (line : List Char) : seq ≤ maxSeq fmt seq line := by
  unfold maxSeq
  split
  · split
    · split <;> omega
    · exact le_rfl
  · exact le_rfl

/-- Reading more lines does not make the number smaller. -/
theorem foldl_maxSeq_ge (lines : List (List Char)) (seq : ℕ) : seq ≤ lines.foldl (maxSeq fmt) seq := by
  induction lines generalizing seq with
  | nil => exact le_rfl
  | cons line lines ih => exact (maxSeq_ge seq line).trans (ih _)

/-- It raises it to its own number. -/
theorem maxSeq_ge_number {e : Obj} {n : ℤ} (h : loads fmt line = some (.obj e)) (hn : seqOf e = some n)
    (seq : ℕ) : n ≤ maxSeq fmt seq line := by
  rw [maxSeq, h]
  simp only [hn]
  split <;> omega

/-- Several lines raise it to the number of each. -/
theorem foldl_maxSeq_ge_number {lines : List (List Char)} {e : Obj} {n : ℤ} (hline : line ∈ lines)
    (h : loads fmt line = some (.obj e)) (hn : seqOf e = some n) (seq : ℕ) :
    n ≤ lines.foldl (maxSeq fmt) seq := by
  induction lines generalizing seq with
  | nil => cases hline
  | cons l lines ih =>
    rcases List.mem_cons.mp hline with rfl | hmem
    · have hhead := maxSeq_ge_number h hn seq
      have htail := @foldl_maxSeq_ge fmt lines (maxSeq fmt seq line)
      rw [List.foldl_cons]
      omega
    · exact ih hmem _

/-- A line of its own is one of the lines that are read. -/
theorem mem_splitLines {e : Obj} (he : Writable fmt e) (h : HasLine fmt file e) :
    dumps fmt none (.obj e) ∈ splitLines [] file := by
  obtain ⟨before, after, rfl, hbefore⟩ := h
  have hline := splitLines_newline (not_isLineEnd_dumps he) [] after
  have hsplit : splitLines [] (EventBuffer.line fmt e ++ after) =
      dumps fmt none (.obj e) :: splitLines [] after := by
    rw [EventBuffer.line, List.append_assoc, List.singleton_append, hline, List.nil_append]
  rcases hbefore with rfl | ⟨t, rfl⟩
  · rw [List.nil_append, hsplit]
    exact List.mem_cons_self
  · rw [List.append_assoc, List.singleton_append, splitLines_append, hsplit]
    exact List.mem_append_right _ List.mem_cons_self

/-- The characters that the log writes. -/
def LogText (text : List Char) : Prop := ∀ c ∈ text, Ascii c ∨ c = '\n'

/-- The line of an event is text of the log. -/
theorem logText_line {e : Obj} (he : Writable fmt e) : LogText (EventBuffer.line fmt e) := by
  intro c hc
  rcases List.mem_append.mp hc with hc | hc
  · exact .inl (ascii_print (.obj e) 0 he c hc)
  · exact .inr (List.mem_singleton.mp hc)

/-- The lines of such a text are ASCII. -/
theorem ascii_of_mem_splitLines {start text : List Char} (hstart : ∀ c ∈ start, Ascii c)
    (htext : LogText text) (hline : line ∈ splitLines start text) : ∀ c ∈ line, Ascii c := by
  induction text generalizing start with
  | nil =>
    rw [splitLines] at hline
    split at hline
    · cases hline
    · rw [List.mem_singleton.mp hline]
      exact hstart
  | cons c text ih =>
    have htail : LogText text := fun c' hc' => htext c' (List.mem_cons_of_mem c hc')
    rw [splitLines] at hline
    by_cases hend : isLineEnd c = true
    · rw [if_pos hend] at hline
      rcases List.mem_cons.mp hline with rfl | hmem
      · exact hstart
      · exact ih (by simp) htail hmem
    · rw [if_neg hend] at hline
      refine ih ?_ htail hline
      rcases htext c List.mem_cons_self with hascii | rfl
      · exact ascii_append hstart (ascii_cons hascii (by simp))
      · exact absurd (by decide) hend

/-- ASCII white space of Python is that of JSON. -/
theorem isSpace_of_ascii {c : Char} (h : Ascii c) (hspace : isPySpace c = true) : isSpace c = true := by
  obtain ⟨hlow, hhigh⟩ := h
  have hcode : c.toNat = 32 := by
    simp only [isPySpace, Bool.or_eq_true, Bool.and_eq_true, decide_eq_true_eq, beq_iff_eq] at hspace
    omega
  have hchar : c = ' ' := by
    rw [← Char.ofNat_toNat c, hcode]
  rw [hchar]
  decide

/-- What is read from a stripped line of ASCII is read from the line itself. -/
theorem loads_of_strip {v : Json} (hline : ∀ c ∈ line, Ascii c) (h : loads fmt (strip line) = some v) :
    loads fmt line = some v := by
  have hfront := List.takeWhile_append_dropWhile (p := isPySpace) (l := line)
  have hback := List.takeWhile_append_dropWhile (p := isPySpace) (l := (line.dropWhile isPySpace).reverse)
  have hsplit : line = line.takeWhile isPySpace ++
      (strip line ++ ((line.dropWhile isPySpace).reverse.takeWhile isPySpace).reverse) := by
    have hmiddle := congrArg List.reverse hback
    rw [List.reverse_append, List.reverse_reverse] at hmiddle
    rw [strip, hmiddle, hfront]
  have hbefore : ∀ c ∈ line.takeWhile isPySpace, isSpace c = true := by
    intro c hc
    exact isSpace_of_ascii (hline c ((List.takeWhile_sublist _).subset hc)) (List.mem_takeWhile_imp hc)
  have hafter : ∀ c ∈ ((line.dropWhile isPySpace).reverse.takeWhile isPySpace).reverse,
      isSpace c = true := by
    intro c hc
    rw [List.mem_reverse] at hc
    have hmem := List.mem_reverse.mp ((List.takeWhile_sublist _).subset hc)
    exact isSpace_of_ascii (hline c ((List.dropWhile_sublist _).subset hmem)) (List.mem_takeWhile_imp hc)
  rw [hsplit]
  exact loads_blank hbefore hafter h

/-- The number of an event in memory after a start is not greater than the number from which the
log goes on. -/
theorem number_le_load {retain : ℕ} {bootId : String} {e : Obj} (hfile : LogText file)
    (he : e ∈ (EventBuffer.load fmt retain bootId file).recent) :
    number e ≤ (EventBuffer.load fmt retain bootId file).seq := by
  obtain ⟨line, hline, hread⟩ := List.mem_filterMap.mp he
  have hmem : line ∈ splitLines [] file := by
    unfold keepLast window at hline
    split at hline
    · exact hline
    · exact List.mem_of_mem_drop hline
  have hascii := ascii_of_mem_splitLines (by simp) hfile hmem
  unfold eventOfLine at hread
  split at hread
  · cases hread
  · split at hread
    · rename_i found hloads
      split at hread
      · rename_i hsome
        obtain ⟨n, hn⟩ := Option.isSome_iff_exists.mp hsome
        have hnumber : number e = n := by rw [← Option.some.inj hread, number, hn]; rfl
        rw [hnumber]
        exact foldl_maxSeq_ge_number hmem (loads_of_strip hascii hloads) hn 0
      · cases hread
    · cases hread

end File

section Numbers

/-- The highest number is none of the lower ones. -/
theorem le_maxNumber (start : ℤ) (events : List Obj) :
    start ≤ maxNumber start events ∧ ∀ e ∈ events, number e ≤ maxNumber start events := by
  induction events generalizing start with
  | nil => exact ⟨le_rfl, by simp⟩
  | cons e events ih =>
    obtain ⟨hstart, hall⟩ := ih (max start (number e))
    have hhead : max start (number e) ≤ maxNumber start (e :: events) := hstart
    refine ⟨by omega, fun e' he' => ?_⟩
    rcases List.mem_cons.mp he' with rfl | hmem
    · omega
    · exact hall e' hmem

/-- It is bounded by what bounds them all. -/
theorem maxNumber_le {start bound : ℤ} {events : List Obj} (hstart : start ≤ bound)
    (hall : ∀ e ∈ events, number e ≤ bound) : maxNumber start events ≤ bound := by
  induction events generalizing start with
  | nil => exact hstart
  | cons e events ih =>
    have he := hall e List.mem_cons_self
    exact ih (max_le hstart he) fun e' he' => hall e' (List.mem_cons_of_mem e he')

end Numbers

section Runs

variable {fmt : FloatFormat} {s : EventDisk}
variable {h : List (Entry EventDisk (DiskInput fmt) DiskOutput)}

/-- No event that can be read or was returned carries a number that is still to be given out. -/
structure EventDisk.Sound (fmt : FloatFormat) (s : EventDisk) : Prop where
  text : LogText s.file
  pending : ∀ e ∈ s.pending, Writable fmt e
  recent : ∀ e ∈ s.log.recent, number e ≤ s.log.seq
  returned : s.returned ≤ s.log.seq

/-- A log over an empty directory is sound. -/
theorem sound_start (retain : ℕ) (bootId : String) :
    EventDisk.Sound fmt ⟨.load fmt retain bootId [], [], [], 0⟩ := by
  refine ⟨by simp [LogText], by simp, ?_, by simp⟩
  intro e he
  exact @number_le_load _ [] _ _ _ (by simp [LogText]) he

/-- What is kept was there. -/
theorem mem_keepLast {α : Type} {retain : ℕ} {xs : List α} {x : α} (h : x ∈ keepLast retain xs) : x ∈ xs := by
  unfold keepLast window at h
  split at h
  · exact h
  · exact List.mem_of_mem_drop h

/-- A restart that finds what was returned goes on after it. -/
theorem returned_le_load {retain : ℕ+} {bootId : String} {readable : Bool}
    (hok : @Persisted fmt s (.restart retain bootId readable)) :
    s.returned ≤ (EventBuffer.load fmt retain bootId (if readable then s.file else [])).seq := by
  rcases lt_or_ge 0 s.returned with hpos | hnone
  · obtain ⟨hreadable, e, he, hline, hle⟩ := hok retain bootId readable rfl hpos
    have hseq : seqOf e = some (number e) := seqOf_of_number rfl (by omega)
    have hfound := foldl_maxSeq_ge_number (mem_splitLines he hline) (loads_dumps none he) hseq 0
    rw [hreadable, if_pos rfl]
    exact hle.trans hfound
  · exact hnone.trans (Int.natCast_nonneg _)

/-- Each step keeps it. -/
theorem EventDisk.Sound.step (hs : s.Sound fmt) {i : DiskInput fmt} (hok : Persisted s i) :
    (EventDisk.step fmt i s).2.Sound fmt := by
  cases i with
  | publish ts etype payload =>
    have hreturned := hs.returned
    refine ⟨hs.text, ?_, ?_, ?_⟩
    · intro e he
      rcases List.mem_append.mp he with hold | hnew
      · exact hs.pending e hold
      · rw [List.mem_singleton.mp hnew]
        exact writable_event _ ts etype payload.property
    · intro e he
      show number e ≤ ((s.log.seq + 1 : ℕ) : ℤ)
      rcases List.mem_append.mp (mem_keepLast he) with hold | hnew
      · have hle := hs.recent e hold
        omega
      · rw [List.mem_singleton.mp hnew, number_event]
    · show s.returned ≤ ((s.log.seq + 1 : ℕ) : ℤ)
      omega
  | append i written =>
    simp only [EventDisk.step]
    cases hpending : s.pending[i]? with
    | none => exact hs
    | some e =>
      have he := hs.pending e (List.mem_of_getElem? hpending)
      refine ⟨?_, ?_, hs.recent, hs.returned⟩
      · intro c hc
        rcases List.mem_append.mp hc with hold | hnew
        · exact hs.text c hold
        · exact logText_line he c (List.mem_of_mem_take hnew)
      · intro e' he'
        exact hs.pending e' (List.mem_of_mem_eraseIdx he')
  | list since =>
    refine ⟨hs.text, hs.pending, hs.recent, maxNumber_le hs.returned ?_⟩
    intro e he
    exact hs.recent e (List.mem_filter.mp he).1
  | restart retain bootId readable =>
    refine ⟨hs.text, by simp [EventDisk.step], ?_, returned_le_load hok⟩
    intro e he
    refine number_le_load ?_ he
    cases readable with
    | true => exact hs.text
    | false => simp [LogText]

/-- A history goes on without reuse when its last step publishes nothing that was returned. -/
theorem NeverReused.snoc {x : Entry EventDisk (DiskInput fmt) DiskOutput} (hh : NeverReused h)
    (hx : ∀ e, x.output = .published e → ∀ e' ∈ returnedEvents h, number e' < number e) :
    NeverReused (h ++ [x]) := by
  intro h₁ entry h₂ e heq hpublished
  rcases List.eq_nil_or_concat h₂ with rfl | ⟨h₃, y, rfl⟩
  · obtain ⟨rfl, hlast⟩ := List.append_inj' heq rfl
    obtain rfl : x = entry := by simpa using hlast
    exact hx e hpublished
  · rw [List.concat_eq_append, ← List.cons_append, ← List.append_assoc] at heq
    obtain ⟨hprior, -⟩ := List.append_inj' heq rfl
    exact hh h₁ entry h₃ e hprior hpublished

/-- Every run leaves it sound, and the numbers returned are counted. -/
theorem eventDisk_sound_of_run (hrun : Run (eventDisk fmt) Persisted h s) :
    s.Sound fmt ∧ (∀ e ∈ returnedEvents h, number e ≤ s.returned) := by
  induction hrun with
  | init hs =>
    obtain ⟨retain, bootId, rfl⟩ := hs
    exact ⟨sound_start retain bootId, by simp [returnedEvents]⟩
  | @step h s i _ hok ih =>
    obtain ⟨hsound, hreturned⟩ := ih
    refine ⟨hsound.step hok, ?_⟩
    intro e he
    have hsplit : returnedEvents (h ++ [(eventDisk fmt).fire s i]) =
        returnedEvents h ++ returnedEvents [(eventDisk fmt).fire s i] := List.flatMap_append
    rw [hsplit] at he
    cases i with
    | list since =>
      obtain ⟨hstart, hall⟩ := le_maxNumber s.returned (s.log.snapshot since).events
      rcases List.mem_append.mp he with hold | hnew
      · exact (hreturned e hold).trans hstart
      · exact hall e (by simpa [returnedEvents, Machine.fire, eventDisk, EventDisk.step] using hnew)
    | append i written =>
      have hsame : ((eventDisk fmt).step (.append i written) s).2.returned = s.returned ∧
          ((eventDisk fmt).step (.append i written) s).1 = .none := by
        simp only [eventDisk, EventDisk.step]
        split <;> exact ⟨rfl, rfl⟩
      rw [hsame.1]
      refine hreturned e ?_
      simpa [returnedEvents, Machine.fire, hsame.2] using he
    | publish ts etype payload =>
      exact hreturned e (by simpa [returnedEvents, Machine.fire, eventDisk, EventDisk.step] using he)
    | restart retain bootId readable =>
      exact hreturned e (by simpa [returnedEvents, Machine.fire, eventDisk, EventDisk.step] using he)

/-- When every restart finds in the file, as a line of its own, an event no earlier than any that
was returned, no number that was returned is given to another event. -/
theorem numbers_never_reused (hrun : Run (eventDisk fmt) Persisted h s) : NeverReused h := by
  induction hrun with
  | init =>
    intro h₁ entry h₂ e heq
    simp at heq
  | @step h s i hprior hok ih =>
    obtain ⟨hsound, hreturned⟩ := eventDisk_sound_of_run hprior
    refine ih.snoc fun e hpublished e' he' => ?_
    have hle := (hreturned e' he').trans hsound.returned
    cases i with
    | publish ts etype payload =>
      obtain rfl : EventBuffer.event (s.log.seq + 1) ts etype payload.val = e := by
        simpa [Machine.fire, eventDisk, EventDisk.step, EventBuffer.publish] using hpublished
      rw [number_event]
      push_cast
      omega
    | append i written =>
      simp only [Machine.fire, eventDisk, EventDisk.step] at hpublished
      split at hpublished <;> cases hpublished
    | list since => cases hpublished
    | restart retain bootId readable => cases hpublished

end Runs

section Samples

/-- The first start over an empty directory. -/
def sampleDisk : EventDisk := ⟨.load .sample 10 "b1" [], [], [], 0⟩

/-- An event without a payload. -/
def samplePublish : DiskInput .sample := .publish "2026-01-01T00:00:00" "proposal.created" ⟨.null, trivial⟩

/-- An event is published, appended and returned before the process ends. -/
def sampleAppended : List (DiskInput .sample) :=
  [samplePublish, .append 0 1000, .list 0, .restart 10 "b2" true, samplePublish]

/-- Two events with a restart between. -/
theorem numbers_never_reused_sample : NeverReused ((eventDisk .sample).trace sampleDisk sampleAppended) := by
  have hstart : Run (eventDisk .sample) Persisted [] sampleDisk := .init ⟨10, "b1", rfl⟩
  have hrun := hstart.append_trace sampleAppended ?_
  · exact numbers_never_reused hrun
  · intro e he
    rcases he with _ | ⟨_, _ | ⟨_, _ | ⟨_, _ | ⟨_, _ | ⟨_, he⟩⟩⟩⟩⟩
    · exact nofun
    · exact nofun
    · exact nofun
    · intro retain bootId readable hinput _
      cases hinput
      exact ⟨rfl, EventBuffer.event 1 "2026-01-01T00:00:00" "proposal.created" .null,
        writable_event _ _ _ trivial, ⟨[], [], rfl, .inl rfl⟩, by decide⟩
    · exact nofun
    · cases he

/-- The process ends after an event was returned and before it is appended: the next event gets
its number. -/
theorem number_reused_after_crash : ¬ NeverReused ((eventDisk .sample).trace sampleDisk
    [samplePublish, .list 0, .restart 10 "b2" true, samplePublish]) := by
  intro hnever
  have hlt := hnever (((eventDisk .sample).trace sampleDisk [samplePublish, .list 0,
    .restart 10 "b2" true])) _ [] _ rfl rfl
    (EventBuffer.event 1 "2026-01-01T00:00:00" "proposal.created" .null) (.head _)
  exact absurd hlt (by decide)

end Samples

end VirtuosoFlow.Tunnel
