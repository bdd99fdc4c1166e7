import VirtuosoFlow.Tunnel.EventClient
import VirtuosoFlow.Plugin.EventBridge

/-!
# From the event log to the plugin

The event client runs as a child of Virtuoso, and what it prints reaches the bridge through a pipe, in pieces that
end anywhere. The bridge is stopped and started again, each time with a client that resumes after the last number
that the bridge has read; meanwhile events are emitted, requests of the client fail and the tunnel is restarted.
A client that was killed is there until Virtuoso handles its end, and the line of an event is written some time
after it was emitted.
-/

namespace VirtuosoFlow.Plugin

open Base JsonText Tunnel

section Definitions

/-- The event client as a child of Virtuoso, with what it has written and Virtuoso has not read. -/
structure Child where
  args : ClientArgs
  client : EventClient
  unread : List Char
  /-- `ipcKillProcess` was called for it. -/
  killed : Bool

/-- The event log with its file and the events whose lines are still to be written, the clients whose end Virtuoso
has not handled yet, and the bridge. -/
structure EventPipeline where
  log : EventBuffer
  file : List Char
  unwritten : List Obj
  children : ℕ → Option Child
  /-- The number of the next process. -/
  next : ℕ
  eventBridgePid : Option ℕ
  bridge : Bridge

/-- What happens, one at a time. -/
inductive PipelineInput (fmt : FloatFormat) where
  /-- The part of `emit(etype, payload)` under the lock. -/
  | emit (ts etype : String) (payload : {v : Json // WellFormed fmt v})
  /-- `_append_disk` for one of the events, after the lock. -/
  | append (i : ℕ)
  /-- An `OSError` keeps the line of one of the events from the file. -/
  | appendFails (i : ℕ)
  /-- The tunnel is stopped and started. -/
  | restart (retain : ℕ+) (bootId : String)
  /-- The next request of a client is answered. -/
  | answer (pid : ℕ)
  /-- The next request of a client is answered with an error. -/
  | reject (pid : ℕ) (code : ℤ)
  /-- The next request of a client does not get through. -/
  | lose (pid : ℕ)
  /-- Virtuoso hands the next characters of a pipe to the bridge. -/
  | read (pid count : ℕ)
  /-- Virtuoso handles the end of a client. -/
  | exit (pid : ℕ)
  /-- `vfpEventBridgeStop`, as in a disconnect. -/
  | stop
  /-- `vfpEventBridgeStart`; `ipcBeginProcess` may fail. -/
  | start (spawned : Bool)

/-- `str(value)`, for values that are no strings given. -/
def typeText (str : Json → String) : Json → String
  | .str s => s
  | v => str v

/-- What `emit` of the client writes, without its line end. -/
def eventText (str : Json → String) (printed : ℤ × Json) : List Char :=
  "VFP-EVT ".toList ++ (toString printed.1).toList ++ ' ' :: (typeText str printed.2).toList

/-- The default of `--max-failures`. -/
def defaultMaxFailures : ℕ := 60

/-- The arguments that `vfpEventClientCmd` gives to the client. -/
def vfpEventClientArgs (b : Bridge) : ClientArgs := ⟨b.eventLastSeq.getD 0, defaultMaxFailures⟩

/-- A client that has just been spawned. -/
def Child.spawn (args : ClientArgs) : Child := ⟨args, .start args, [], false⟩

/-- The process is there no more: it was killed, or it has ended by itself. -/
def Child.ended (c : Child) : Bool := c.killed || c.client.phase == .exited

variable (str : Json → String)

/-- The client goes on, and what it prints is in the pipe. -/
def Child.advance (c : Child) (client : EventClient) : Child :=
  { c with
    client := client
    unread := c.unread ++
      (client.printed.drop c.client.printed.length).flatMap fun printed => eventText str printed ++ ['\n'] }

/-- A client that was not killed goes on. -/
def EventPipeline.onClient (pid : ℕ) (next : Child → EventClient) (s : EventPipeline) : EventPipeline :=
  { s with
    children := Function.update s.children pid ((s.children pid).map fun c =>
      if c.killed then c else c.advance str (next c)) }

/-- `vfpEventBridgeStart`. -/
def vfpEventBridgeStart (spawned : Bool) (s : EventPipeline) : EventPipeline :=
  match s.eventBridgePid with
  | some _ => s
  | none =>
    let s' := { s with bridge := .started s.bridge.eventLastSeq }
    if spawned then
      { s' with
        children := Function.update s.children s.next (some (.spawn (vfpEventClientArgs s.bridge)))
        next := s.next + 1
        eventBridgePid := some s.next }
    else s'

/-- `vfpEventBridgeStop`. -/
def vfpEventBridgeStop (s : EventPipeline) : EventPipeline :=
  { s with
    children := match s.eventBridgePid with
      | none => s.children
      | some pid => Function.update s.children pid ((s.children pid).map fun c => { c with killed := true })
    eventBridgePid := none
    bridge := .started s.bridge.eventLastSeq }

/-- `vfpEventBridgeExitH`, for a client that has ended: it forgets the process that runs by now, whichever it is. -/
def vfpEventBridgeExitH (pid : ℕ) (s : EventPipeline) : EventPipeline :=
  match s.children pid with
  | none => s
  | some c =>
    if c.ended then { s with children := Function.update s.children pid none, eventBridgePid := none } else s

variable {fmt : FloatFormat} (atoi : String → Option ℤ) (loaded : Service → Bool)

/-- The effect of an input: an emission gives the event, a piece what the bridge does. -/
def EventPipeline.step : PipelineInput fmt → EventPipeline → (Option Obj × List BridgeAct) × EventPipeline
  | .emit ts etype payload, s =>
    let published := s.log.publish ts etype payload.val
    ((some published.1, []), { s with log := published.2, unwritten := s.unwritten ++ [published.1] })
  | .append i, s =>
    ((none, []), { s with
      file := s.file ++ s.unwritten[i]?.toList.flatMap (EventBuffer.line fmt), unwritten := s.unwritten.eraseIdx i })
  | .appendFails i, s => ((none, []), { s with unwritten := s.unwritten.eraseIdx i })
  | .restart retain bootId, s => ((none, []), { s with log := .load fmt retain bootId s.file, unwritten := [] })
  | .answer pid, s =>
    ((none, []), s.onClient str pid fun c => c.client.answered (s.log.snapshot c.client.query))
  | .reject pid code, s => ((none, []), s.onClient str pid fun c => c.client.rejected code)
  | .lose pid, s => ((none, []), s.onClient str pid fun c => c.client.unreachable c.args)
  | .read pid count, s =>
    match s.children pid with
    | none => ((none, []), s)
    | some c =>
      let r := vfpEventBridgeDataH atoi loaded (c.unread.take count) s.bridge
      ((none, r.2), { s with
        children := Function.update s.children pid (some { c with unread := c.unread.drop count })
        bridge := r.1 })
  | .exit pid, s => ((none, []), vfpEventBridgeExitH pid s)
  | .stop, s => ((none, []), vfpEventBridgeStop s)
  | .start spawned, s => ((none, []), vfpEventBridgeStart spawned s)

variable (fmt)

/-- From the first start of the tunnel over an empty directory and a plugin that has just been loaded. -/
def eventPipeline : Machine EventPipeline (PipelineInput fmt) (Option Obj × List BridgeAct) where
  init s := ∃ (retain : ℕ+) (bootId : String),
    s = ⟨.load fmt retain bootId [], [], [], fun _ => none, 0, none, ⟨none, none⟩⟩
  step := EventPipeline.step str atoi loaded

variable {fmt}

/-- The emitted events of a run, in order. -/
def emittedBy (h : List (Entry EventPipeline (PipelineInput fmt) (Option Obj × List BridgeAct))) : List Obj :=
  h.filterMap fun e => e.output.1

/-- What the bridge has done in a run. -/
def actsBy (h : List (Entry EventPipeline (PipelineInput fmt) (Option Obj × List BridgeAct))) : List BridgeAct :=
  h.flatMap fun e => e.output.2

/-- The client asks for the events after its cursor. -/
def Asks (c : EventClient) : Prop := c.phase = .polling ∨ c.phase = .contacting ∧ 0 < c.since

/-- The runs in which nothing is lost. An event type has no line end; lines are written in the order of their
events, none fails, and none is outstanding when the tunnel stops; what is later than the cursor of a client is
still in the log when the client is answered; nothing of a killed client is read; and the bridge is not stopped or
started while a client runs that the plugin has forgotten. -/
def Lossless (s : EventPipeline) : PipelineInput fmt → Prop
  | .emit _ etype _ => '\n' ∉ etype.toList
  | .append i => i = 0
  | .appendFails _ => False
  | .restart _ _ => s.unwritten = []
  | .answer pid => ∀ c, s.children pid = some c → c.killed = false → Asks c.client →
      (s.log.seq : ℤ) ≤ c.client.since + s.log.retain
  | .read pid _ => ∀ c, s.children pid = some c → c.killed = false
  | .stop => ∀ pid c, s.children pid = some c → c.killed = false → s.eventBridgePid = some pid
  | .start _ => s.eventBridgePid = none → ∀ pid c, s.children pid = some c → c.killed = true
  | _ => True

end Definitions

section Texts

variable {str : Json → String} {atoi : String → Option ℤ} {events more : List Obj} {i j n : ℕ}

/-- The line that the client prints for an event. -/
def eventLine (str : Json → String) (e : Obj) : List Char := eventText str (printedLine e)

/-- The events from one position up to another. -/
def eventsIn (events : List Obj) (i j : ℕ) : List Obj := (events.drop i).take (j - i)

/-- What the client prints for some events. -/
def eventLines (str : Json → String) (events : List Obj) : List Char :=
  (events.map (eventLine str)).flatMap (· ++ ['\n'])

/-- Between a position and itself there are no events. -/
@[simp] theorem eventsIn_self (events : List Obj) (i : ℕ) : eventsIn events i i = [] := by simp [eventsIn]

/-- Up to the end there are all that are left. -/
theorem eventsIn_length (events : List Obj) (i : ℕ) : eventsIn events i events.length = events.drop i := by
  rw [eventsIn, List.take_of_length_le (by rw [List.length_drop])]

/-- Events that are emitted later are not among them. -/
theorem eventsIn_append (hj : j ≤ events.length) : eventsIn (events ++ more) i j = eventsIn events i j := by
  rcases Nat.lt_or_ge i j with hlt | hge
  · rw [eventsIn, eventsIn, List.drop_append_of_le_length (by omega),
      List.take_append_of_le_length (by rw [List.length_drop]; omega)]
  · simp [eventsIn, Nat.sub_eq_zero_of_le hge]

/-- Up to one position, and from there to another. -/
theorem eventsIn_trans (hij : i ≤ j) (hjn : j ≤ n) :
    eventsIn events i j ++ eventsIn events j n = eventsIn events i n := by
  have hdrop : events.drop j = (events.drop i).drop (j - i) := by rw [List.drop_drop, Nat.add_sub_cancel' hij]
  have hsum : n - i = (j - i) + (n - j) := by omega
  rw [eventsIn, eventsIn, eventsIn, hdrop, hsum, List.take_add]

/-- The first events of a part. -/
theorem eventsIn_take (hn : i + n ≤ j) : (eventsIn events i j).take n = eventsIn events i (i + n) := by
  rw [eventsIn, eventsIn, List.take_take, Nat.add_sub_cancel_left, Nat.min_eq_left (by omega)]

/-- The other events of a part. -/
theorem eventsIn_drop (n : ℕ) : (eventsIn events i j).drop n = eventsIn events (i + n) j := by
  rw [eventsIn, eventsIn, List.drop_take, List.drop_drop, Nat.sub_sub]

/-- How many events there are between two positions. -/
theorem length_eventsIn (hj : j ≤ events.length) : (eventsIn events i j).length = j - i := by
  rw [eventsIn, List.length_take, List.length_drop]
  omega

/-- What is printed for events is printed one part after the other. -/
theorem eventLines_append (xs ys : List Obj) :
    eventLines str (xs ++ ys) = eventLines str xs ++ eventLines str ys := by
  rw [eventLines, List.map_append, List.flatMap_append, eventLines, eventLines]

/-- A number consists of digits. -/
theorem not_mem_toString {c : Char} (hc : c.isDigit = false) (n : ℕ) : c ∉ (toString n).toList := by
  rw [Nat.toString_eq_ofList_toDigits, String.toList_ofList]
  intro h
  rw [Nat.isDigit_of_mem_toDigits (by omega) (by omega) h] at hc
  cases hc

/-- The line of an event splits into the tag, the number and the words of the type. -/
theorem parseString_eventText (str : Json → String) (n : ℕ) (type : Json) :
    parseString (String.ofList (eventText str ((n : ℤ), type))) ' ' =
      "VFP-EVT" :: toString n :: parseString (typeText str type) ' ' := by
  have htag : (' ' : Char) ∉ "VFP-EVT".toList := by decide
  have hdigits := not_mem_toString (c := ' ') rfl n
  have hne : (toString n).toList.isEmpty = false := by
    rw [Nat.toString_eq_ofList_toDigits, String.toList_ofList, List.isEmpty_eq_false_iff]
    exact Nat.toDigits_ne_nil
  have htext : eventText str ((n : ℤ), type) =
      "VFP-EVT".toList ++ ' ' :: ((toString n).toList ++ ' ' :: (typeText str type).toList) := rfl
  rw [parseString, String.toList_ofList, htext, List.splitOn_append_cons_self_of_not_mem htag,
    List.splitOn_append_cons_self_of_not_mem hdigits, List.filter_cons_of_pos rfl,
    List.filter_cons_of_pos (by rw [hne]; rfl), List.map_cons, List.map_cons, String.ofList_toList,
    String.ofList_toList]
  rfl

/-- The line of an event gives its number. -/
theorem seqAfter_eventLine (hatoi : ∀ n : ℕ, atoi (toString n) = some (n : ℤ)) (seq : Option ℤ) {e : Obj}
    (hnumber : number e = n) : seqAfter atoi seq [eventLine str e] = some (n : ℤ) := by
  have htoks := parseString_eventText str n (Obj.getD e "type" (.str "?"))
  rw [eventLine, printedLine, hnumber, seqAfter, List.foldl_cons, List.foldl_nil, scanLine]
  simp only [htoks, List.getElem?_cons_zero, if_true, List.getElem?_cons_succ, Option.bind_some, hatoi,
    Option.some_or]

/-- The bridge remembers the number of the last event it reads. -/
theorem seqAfter_eventsIn (str : Json → String) (hatoi : ∀ n : ℕ, atoi (toString n) = some (n : ℤ))
    (hnumbered : Numbered number events) (seq : Option ℤ) (hij : i ≤ j) (hj : j ≤ events.length) :
    seqAfter atoi seq ((eventsIn events i j).map (eventLine str)) = if i = j then seq else some (j : ℤ) := by
  split
  · rename_i heq
    subst heq
    rw [eventsIn_self]
    rfl
  · obtain ⟨last, rfl⟩ : ∃ last, j = last + 1 := ⟨j - 1, by omega⟩
    have hnumber : number events[last] = ((last + 1 : ℕ) : ℤ) := hnumbered last (by omega)
    have hlast : eventsIn events last (last + 1) = [events[last]] := by
      rw [eventsIn, Nat.add_sub_cancel_left, List.drop_eq_getElem_cons (by omega)]
      rfl
    have hsplit : eventsIn events i last ++ eventsIn events last (last + 1) = eventsIn events i (last + 1) :=
      eventsIn_trans (by omega) (by omega)
    rw [← hsplit, hlast, List.map_append, seqAfter_append]
    exact seqAfter_eventLine hatoi _ hnumber

/-- What is printed for an event of a type without a line end holds none. -/
theorem newline_not_mem_eventText (n : ℕ) {type : Json} (htype : '\n' ∉ (typeText str type).toList) :
    '\n' ∉ eventText str ((n : ℤ), type) := by
  have htag : '\n' ∉ "VFP-EVT ".toList := by decide
  have hdigits := not_mem_toString (c := '\n') rfl n
  have htext : eventText str ((n : ℤ), type) =
      "VFP-EVT ".toList ++ ((toString n).toList ++ ' ' :: (typeText str type).toList) := rfl
  rw [htext]
  intro h
  rcases List.mem_append.mp h with h | h
  · exact htag h
  · rcases List.mem_append.mp h with h | h
    · exact hdigits h
    · rcases List.mem_cons.mp h with h | h
      · cases h
      · exact htype h

end Texts

section Flow

variable {fmt : FloatFormat} {str : Json → String} {atoi : String → Option ℤ} {loaded : Service → Bool}
variable {s : EventPipeline} {events more : List Obj} {consumed : List (List Char)} {b : Bridge} {c : Child}
variable {client : EventClient} {buf : List Char} {i j k m : ℕ}

/-- The log and its file with the lines still to be written, as the event stream has them. -/
def EventPipeline.stream (fmt : FloatFormat) (s : EventPipeline) : EventStream :=
  ⟨s.log, s.file ++ s.unwritten.flatMap (EventBuffer.line fmt), .start ⟨0, 0⟩, 0⟩

/-- A bridge that has read the events up to one position, and a client that has printed those up to another. What
is between them is in the buffer and the pipe. -/
structure InPipe (str : Json → String) (events : List Obj) (b : Bridge) (c : Child) (buf : List Char) (i j : ℕ) :
    Prop where
  buffer : b.eventBuf = some buf
  le : i ≤ j
  fits : j ≤ events.length
  text : buf ++ c.unread = eventLines str (eventsIn events i j)
  polling : c.client.phase = .polling → c.client.since = j
  contacting : c.client.phase = .contacting → j = i ∧ c.client.since = b.eventLastSeq.getD 0

/-- One client at most was not killed. -/
def Sole (s : EventPipeline) : Prop :=
  ∀ pid pid' c c', s.children pid = some c → s.children pid' = some c' → c.killed = false → c'.killed = false →
    pid = pid'

/-- The bridge has consumed the events after one position, `m` many. -/
structure Flows (str : Json → String) (s : EventPipeline) (events : List Obj) (consumed : List (List Char))
    (k m : ℕ) : Prop where
  fits : k + m ≤ events.length
  consumed : consumed = (eventsIn events k (k + m)).map (eventLine str)
  lastSeq : s.bridge.eventLastSeq = if m = 0 then none else some ((k + m : ℕ) : ℤ)
  sole : Sole s
  pipe : ∀ pid c, s.children pid = some c → c.killed = false → ∃ buf j, InPipe str events s.bridge c buf (k + m) j

/-- What a client prints comes to the end of its pipe. -/
theorem Child.unread_advance {new : List Obj} (h : client.printed = c.client.printed ++ new.map printedLine) :
    (c.advance str client).unread = c.unread ++ eventLines str new := by
  rw [Child.advance, h, List.drop_left, eventLines, List.flatMap_map, List.flatMap_map]
  rfl

/-- Events that are emitted later do not matter to what is in the pipe. -/
theorem InPipe.mono (h : InPipe str events b c buf i j) (more : List Obj) :
    InPipe str (events ++ more) b c buf i j := by
  have hfits := h.fits
  refine ⟨h.buffer, h.le, ?_, ?_, h.polling, h.contacting⟩
  · rw [List.length_append]
    omega
  · rw [eventsIn_append h.fits]
    exact h.text

/-- The client prints nothing and keeps its cursor, and goes on or ends. -/
structure Idles (before after : EventClient) : Prop where
  printed : after.printed = before.printed
  since : after.since = before.since
  phase : after.phase = before.phase ∨ after.phase = .exited

/-- A client whose request was answered with an error prints nothing. -/
theorem rejected_idles (code : ℤ) (c : EventClient) : Idles c (c.rejected code) := by
  unfold EventClient.rejected
  split
  · split
    · exact ⟨rfl, rfl, .inl rfl⟩
    · exact ⟨rfl, rfl, .inr rfl⟩
  · exact ⟨rfl, rfl, .inr rfl⟩

/-- Neither does one whose request did not get through. -/
theorem unreachable_idles (args : ClientArgs) (c : EventClient) : Idles c (c.unreachable args) := by
  unfold EventClient.unreachable
  split
  · exact ⟨rfl, rfl, .inl rfl⟩
  · split
    · exact ⟨rfl, rfl, .inr rfl⟩
    · exact ⟨rfl, rfl, .inl rfl⟩

/-- A client that prints nothing leaves the pipe as it is. -/
theorem InPipe.keep (h : InPipe str events b c buf i j) (hidles : Idles c.client client) :
    InPipe str events b (c.advance str client) buf i j := by
  obtain ⟨hprinted, hsince, hphase⟩ := hidles
  have hunread : (c.advance str client).unread = c.unread ++ eventLines str [] :=
    Child.unread_advance (by rw [hprinted, List.map_nil, List.append_nil])
  refine ⟨h.buffer, h.le, h.fits, ?_, fun hpolling => ?_, fun hcontacting => ?_⟩
  · rw [hunread]
    exact (List.append_nil _).symm ▸ h.text
  · rcases hphase with hsame | hexited
    · exact hsince.trans (h.polling (hsame ▸ hpolling))
    · cases hexited.symm.trans hpolling
  · rcases hphase with hsame | hexited
    · have hwaiting := h.contacting (hsame ▸ hcontacting)
      exact ⟨hwaiting.1, hsince.trans hwaiting.2⟩
    · cases hexited.symm.trans hcontacting

/-- A client that asks for what is later than its cursor prints it, as long as the log still has it. -/
theorem InPipe.print (h : InPipe str events b c buf i j) (hlog : Faithful fmt (s.stream fmt) events)
    (hcursor : c.client.since = j) (hfit : (s.log.seq : ℤ) ≤ c.client.since + s.log.retain)
    (hprinted : client.printed = (c.client.print (s.log.snapshot c.client.since).events).printed)
    (hsince : client.since = (c.client.print (s.log.snapshot c.client.since).events).since)
    (hphase : client.phase = .polling) :
    InPipe str events b (c.advance str client) buf i events.length := by
  have hfits := h.fits
  have hserved : (s.log.snapshot c.client.since).events = events.drop j := by
    have hnat : c.client.since.toNat = j := by omega
    rw [← hnat]
    exact hlog.served (s := s.stream fmt) (show s.log.seq ≤ c.client.since.toNat + s.log.retain by omega)
  rw [hserved] at hprinted hsince
  refine ⟨h.buffer, h.le.trans hfits, le_refl _, ?_, fun _ => ?_, fun hcontacting => ?_⟩
  · rw [Child.unread_advance hprinted, ← List.append_assoc, h.text, ← eventLines_append,
      ← eventsIn_length events j, eventsIn_trans h.le hfits]
  · have hfold := hlog.numbered.foldl_max j c.client.since
    show client.since = events.length
    rw [hsince, EventClient.print, hfold]
    show (if j < events.length then max c.client.since events.length else c.client.since) = (events.length : ℤ)
    split <;> omega
  · cases hphase.symm.trans hcontacting

/-- Where a client is to resume. -/
theorem Flows.getD_lastSeq (h : Flows str s events consumed k m) :
    s.bridge.eventLastSeq.getD 0 = if m = 0 then 0 else ((k + m : ℕ) : ℤ) := by
  rw [h.lastSeq]
  split <;> rfl

/-- The client after it went on. -/
theorem children_onClient {pid : ℕ} {next : Child → EventClient} {c' : Child} {pid' : ℕ}
    (h : (s.onClient str pid next).children pid' = some c') :
    ∃ c, s.children pid' = some c ∧ c'.killed = c.killed ∧
      (c.killed = false → c' = if pid' = pid then c.advance str (next c) else c) := by
  unfold EventPipeline.onClient at h
  dsimp only at h
  by_cases hpid : pid' = pid
  · subst hpid
    rw [Function.update_self] at h
    obtain ⟨c, hc, rfl⟩ := Option.map_eq_some_iff.mp h
    refine ⟨c, hc, ?_, fun hkilled => ?_⟩
    · split
      · rfl
      · rfl
    · rw [hkilled, if_pos rfl]
      rfl
  · rw [Function.update_of_ne hpid] at h
    exact ⟨c', h, rfl, fun _ => (if_neg hpid).symm⟩

/-- The clients are those of before. -/
theorem Sole.congr {s' : EventPipeline} (h : Sole s)
    (hchildren : ∀ pid c', s'.children pid = some c' → ∃ c, s.children pid = some c ∧ c'.killed = c.killed) :
    Sole s' := by
  intro pid₁ pid₂ c₁ c₂ h₁ h₂ hruns₁ hruns₂
  obtain ⟨c₁', h₁', hsame₁⟩ := hchildren pid₁ c₁ h₁
  obtain ⟨c₂', h₂', hsame₂⟩ := hchildren pid₂ c₂ h₂
  exact h pid₁ pid₂ c₁' c₂' h₁' h₂' (hsame₁ ▸ hruns₁) (hsame₂ ▸ hruns₂)

/-- A client that goes on is not another one. -/
theorem Sole.onClient (h : Sole s) (pid : ℕ) (next : Child → EventClient) : Sole (s.onClient str pid next) :=
  h.congr fun pid' c' hc' => by
    obtain ⟨c, hc, hkilled, -⟩ := children_onClient hc'
    exact ⟨c, hc, hkilled⟩

/-- What does not touch the bridge and gives the client no answer. -/
theorem Flows.onClient (h : Flows str s events consumed k m) (pid : ℕ) {next : Child → EventClient}
    (hnext : ∀ c : Child, Idles c.client (next c)) : Flows str (s.onClient str pid next) events consumed k m := by
  refine ⟨h.fits, h.consumed, h.lastSeq, h.sole.onClient pid next, fun pid' c' hc' hkilled => ?_⟩
  obtain ⟨c, hc, hsame, hgone⟩ := children_onClient hc'
  rw [hsame] at hkilled
  obtain ⟨buf, j, hpipe⟩ := h.pipe pid' c hc hkilled
  rw [hgone hkilled]
  split
  · exact ⟨buf, j, hpipe.keep (hnext c)⟩
  · exact ⟨buf, j, hpipe⟩

/-- An answer brings the client up to date; a client at `since <= 0` begins at the latest event. -/
theorem InPipe.answer (h : InPipe str events s.bridge c buf (k + m) j) (hfits : k + m ≤ events.length)
    (hlast : s.bridge.eventLastSeq.getD 0 = if m = 0 then 0 else ((k + m : ℕ) : ℤ))
    (hlog : Faithful fmt (s.stream fmt) events)
    (hwindow : Asks c.client → (s.log.seq : ℤ) ≤ c.client.since + s.log.retain) :
    ∃ k' j', k' + m ≤ events.length ∧ (m ≠ 0 → k' = k) ∧
      InPipe str events s.bridge (c.advance str (c.client.answered (s.log.snapshot c.client.query))) buf
        (k' + m) j' ∧
      ((c.client.answered (s.log.snapshot c.client.query)).phase = .polling → j' = events.length) := by
  have hseq : s.log.seq = events.length := hlog.seq
  cases hphase : c.client.phase with
  | contacting =>
    obtain ⟨rfl, hsince⟩ := h.contacting hphase
    rw [hlast] at hsince
    by_cases hm : m = 0
    · -- the client has no cursor: the events to come begin after the latest one
      subst hm
      rw [if_pos rfl] at hsince
      have hclient : c.client.answered (s.log.snapshot c.client.query) =
          { c.client with phase := .polling, failures := 0, since := s.log.seq } := by
        rw [EventClient.answered, hphase]
        exact if_pos hsince.le
      have hunread : (c.advance str (c.client.answered (s.log.snapshot c.client.query))).unread =
          c.unread ++ eventLines str [] := Child.unread_advance (by rw [hclient]; simp)
      have htext := h.text
      rw [eventsIn_self] at htext
      refine ⟨events.length, events.length, le_refl _, fun hne => absurd rfl hne,
        ⟨h.buffer, le_refl _, le_refl _, ?_, fun _ => ?_, ?_⟩, fun _ => rfl⟩
      · rw [hunread, Nat.add_zero, eventsIn_self, ← List.append_assoc, htext]
        rfl
      · rw [hclient]
        show ((s.log.seq : ℕ) : ℤ) = _
        rw [hseq]
      · rw [hclient]
        intro hcontacting
        cases hcontacting
    · rw [if_neg hm] at hsince
      have hpos : ¬ c.client.since ≤ 0 := by omega
      have hquery : c.client.query = c.client.since := by
        rw [EventClient.query, hphase]
        exact max_eq_left (by omega)
      have hfit := hwindow (.inr ⟨hphase, by omega⟩)
      refine ⟨k, events.length, hfits, fun _ => rfl, h.print hlog hsince hfit ?_ ?_ ?_, fun _ => rfl⟩ <;>
        rw [hquery, EventClient.answered, hphase] <;> simp only [if_neg hpos]
  | polling =>
    have hquery : c.client.query = c.client.since := by rw [EventClient.query, hphase]
    have hfit := hwindow (.inl hphase)
    refine ⟨k, events.length, hfits, fun _ => rfl, h.print hlog (h.polling hphase) hfit ?_ ?_ ?_, fun _ => rfl⟩ <;>
      rw [hquery, EventClient.answered, hphase]
    exact hphase
  | exited =>
    have hclient : c.client.answered (s.log.snapshot c.client.query) = c.client := by
      rw [EventClient.answered, hphase]
    rw [hclient]
    refine ⟨k, j, hfits, fun _ => rfl, h.keep ⟨rfl, rfl, .inl rfl⟩, ?_⟩
    rw [hphase]
    intro hpolling
    cases hpolling

/-- An answer to the client that runs brings what the bridge will read up to the latest event. -/
theorem Flows.answer (h : Flows str s events consumed k m) (hlog : Faithful fmt (s.stream fmt) events) {pid : ℕ}
    (hwindow : ∀ c, s.children pid = some c → c.killed = false → Asks c.client →
      (s.log.seq : ℤ) ≤ c.client.since + s.log.retain) :
    (∃ k', Flows str (s.onClient str pid fun c => c.client.answered (s.log.snapshot c.client.query)) events consumed
      k' m) ∧
    ∀ c, (s.onClient str pid fun c => c.client.answered (s.log.snapshot c.client.query)).children pid = some c →
      c.killed = false → c.client.phase = .polling → c.client.since = events.length := by
  have hsole : Sole (s.onClient str pid fun c => c.client.answered (s.log.snapshot c.client.query)) :=
    h.sole.onClient pid _
  by_cases hruns : ∃ c, s.children pid = some c ∧ c.killed = false
  · obtain ⟨c, hc, hkilled⟩ := hruns
    obtain ⟨buf, j, hpipe⟩ := h.pipe pid c hc hkilled
    obtain ⟨k', j', hfits, hsame, hnext, hlatest⟩ :=
      hpipe.answer h.fits h.getD_lastSeq hlog (hwindow c hc hkilled)
    have honly : ∀ pid' c', (s.onClient str pid fun c => c.client.answered (s.log.snapshot c.client.query)).children
        pid' = some c' → c'.killed = false →
          c' = c.advance str (c.client.answered (s.log.snapshot c.client.query)) := by
      intro pid' c' hc' hkilled'
      obtain ⟨c₀, hc₀, hkept, hgone⟩ := children_onClient hc'
      obtain rfl : pid' = pid := h.sole pid' pid c₀ c hc₀ hc (hkept ▸ hkilled') hkilled
      obtain rfl : c = c₀ := Option.some.inj (hc.symm.trans hc₀)
      rw [hgone hkilled, if_pos rfl]
    refine ⟨⟨k', hfits, ?_, ?_, hsole, fun pid' c' hc' hruns => ?_⟩, fun c' hc' hruns hpolling => ?_⟩
    · rw [h.consumed]
      rcases Nat.eq_zero_or_pos m with rfl | hpos
      · rw [Nat.add_zero, Nat.add_zero, eventsIn_self, eventsIn_self]
      · rw [hsame (by omega)]
    · show s.bridge.eventLastSeq = _
      rw [h.lastSeq]
      rcases Nat.eq_zero_or_pos m with rfl | hpos
      · rfl
      · rw [hsame (by omega)]
    · rw [honly pid' c' hc' hruns]
      exact ⟨buf, j', hnext⟩
    · obtain rfl := honly pid c' hc' hruns
      obtain rfl := hlatest hpolling
      exact hnext.polling hpolling
  · -- nobody hears the answer
    have hnobody : ∀ pid' c', (s.onClient str pid fun c =>
        c.client.answered (s.log.snapshot c.client.query)).children pid' = some c' → c'.killed = false →
        pid' ≠ pid ∧ s.children pid' = some c' := by
      intro pid' c' hc' hkilled
      obtain ⟨c, hc, hsame, hgone⟩ := children_onClient hc'
      rw [hsame] at hkilled
      have hne : pid' ≠ pid := by
        rintro rfl
        exact hruns ⟨c, hc, hkilled⟩
      rw [hgone hkilled, if_neg hne]
      exact ⟨hne, hc⟩
    refine ⟨⟨k, h.fits, h.consumed, h.lastSeq, hsole, fun pid' c' hc' hkilled => ?_⟩, fun c' hc' hkilled _ => ?_⟩
    · exact h.pipe pid' c' (hnobody pid' c' hc' hkilled).2 hkilled
    · exact absurd rfl (hnobody pid c' hc' hkilled).1

/-- A piece that the bridge reads of a client's output completes the lines of the next events, and the rest stays
between them. -/
theorem InPipe.read (atoi : String → Option ℤ) (h : InPipe str events b c buf i j)
    (hplain : ∀ e ∈ events, '\n' ∉ eventLine str e) (count : ℕ) :
    ∃ p, i + p ≤ j ∧
      completeLines '\n' (buf ++ c.unread.take count) = (eventsIn events i (i + p)).map (eventLine str) ∧
      InPipe str events
        ⟨some (partialLine '\n' (buf ++ c.unread.take count)),
          seqAfter atoi b.eventLastSeq (completeLines '\n' (buf ++ c.unread.take count))⟩
        { c with unread := c.unread.drop count } (partialLine '\n' (buf ++ c.unread.take count)) (i + p) j := by
  have hfits := h.fits
  have htext : (buf ++ c.unread.take count) ++ c.unread.drop count =
      ((eventsIn events i j).map (eventLine str)).flatMap (· ++ ['\n']) := by
    rw [List.append_assoc, List.take_append_drop]
    exact h.text
  have hlines : ∀ line ∈ (eventsIn events i j).map (eventLine str), '\n' ∉ line := by
    intro line hline
    obtain ⟨e, he, rfl⟩ := List.mem_map.mp hline
    exact hplain e (List.mem_of_mem_drop (List.mem_of_mem_take he))
  obtain ⟨hcomplete, hrest⟩ := lines_of_piece _ _ hlines htext
  generalize hp : (completeLines '\n' (buf ++ c.unread.take count)).length = p at hcomplete hrest
  have hbound : i + p ≤ j := by
    have hlength := congrArg List.length hcomplete
    rw [hp, List.length_take, List.length_map, length_eventsIn hfits] at hlength
    have := h.le
    omega
  rw [← List.map_take, eventsIn_take hbound] at hcomplete
  rw [← List.map_drop, eventsIn_drop] at hrest
  refine ⟨p, hbound, hcomplete, rfl, hbound, hfits, hrest, h.polling, fun hcontacting => ?_⟩
  obtain ⟨rfl, hsince⟩ := h.contacting hcontacting
  obtain rfl : p = 0 := by omega
  refine ⟨rfl, ?_⟩
  rw [hcomplete, Nat.add_zero, eventsIn_self]
  exact hsince

/-- What the bridge reads goes from the pipe to the lines it has consumed. -/
theorem Flows.read (h : Flows str s events consumed k m) (hatoi : ∀ n : ℕ, atoi (toString n) = some (n : ℤ))
    (hnumbered : Numbered number events) (hplain : ∀ e ∈ events, '\n' ∉ eventLine str e) {pid : ℕ} (count : ℕ)
    (halive : ∀ c, s.children pid = some c → c.killed = false) :
    ∃ m', Flows str (EventPipeline.step str atoi loaded (.read pid count : PipelineInput fmt) s).2 events
      (consumed ++ consumedLines (EventPipeline.step str atoi loaded (.read pid count : PipelineInput fmt) s).1.2)
      k m' := by
  cases hchild : s.children pid with
  | none =>
    refine ⟨m, ?_⟩
    simp only [EventPipeline.step, hchild]
    rw [show consumedLines [] = [] from rfl, List.append_nil]
    exact h
  | some c =>
    obtain ⟨buf, j, hpipe⟩ := h.pipe pid c hchild (halive c hchild)
    obtain ⟨calls, hpiece, -⟩ := vfpEventBridgeDataH_eq atoi loaded (c.unread.take count) s.bridge
    rw [hpipe.buffer, Option.getD_some] at hpiece
    obtain ⟨p, hbound, hcomplete, hread⟩ := hpipe.read atoi hplain count
    have hfits := hbound.trans hpipe.fits
    have hstep : EventPipeline.step str atoi loaded (.read pid count : PipelineInput fmt) s =
        ((none, (completeLines '\n' (buf ++ c.unread.take count)).map .consume ++ calls.map .call),
          { s with
            children := Function.update s.children pid (some { c with unread := c.unread.drop count })
            bridge := ⟨some (partialLine '\n' (buf ++ c.unread.take count)),
              seqAfter atoi s.bridge.eventLastSeq (completeLines '\n' (buf ++ c.unread.take count))⟩ }) := by
      simp only [EventPipeline.step, hchild, hpiece]
    have hchildren : ∀ pid' c', Function.update s.children pid (some { c with unread := c.unread.drop count }) pid' =
        some c' → ∃ c₀, s.children pid' = some c₀ ∧ c'.killed = c₀.killed := by
      intro pid' c' hc'
      by_cases hpid : pid' = pid
      · subst hpid
        rw [Function.update_self] at hc'
        obtain rfl := Option.some.inj hc'
        exact ⟨c, hchild, rfl⟩
      · rw [Function.update_of_ne hpid] at hc'
        exact ⟨c', hc', rfl⟩
    rw [hstep, consumedLines_piece]
    refine ⟨m + p, ?_, ?_, ?_, h.sole.congr hchildren, fun pid' c' hc' hruns => ?_⟩
    · omega
    · rw [h.consumed, hcomplete, ← List.map_append, eventsIn_trans (by omega) (by omega), Nat.add_assoc]
    · show seqAfter atoi s.bridge.eventLastSeq (completeLines '\n' (buf ++ c.unread.take count)) = _
      rw [hcomplete, seqAfter_eventsIn str hatoi hnumbered _ (Nat.le_add_right _ _) hfits, h.lastSeq]
      rcases Nat.eq_zero_or_pos p with rfl | hpos
      · simp
      · rw [if_neg (by omega), if_neg (by omega), Nat.add_assoc]
    · -- the client that runs is the one that was read
      obtain ⟨c₀, hc₀, hkept⟩ := hchildren pid' c' hc'
      obtain rfl : pid' = pid := h.sole pid' pid c₀ c hc₀ hchild (hkept ▸ hruns) (halive c hchild)
      obtain rfl : { c with unread := c.unread.drop count } = c' := by
        dsimp only at hc'
        rw [Function.update_self] at hc'
        exact Option.some.inj hc'
      rw [← Nat.add_assoc]
      exact ⟨_, j, hread⟩

/-- Starting the bridge keeps what it has consumed, and a new client goes on from there. -/
theorem Flows.vfpEventBridgeStart (h : Flows str s events consumed k m) (spawned : Bool)
    (hkilled : s.eventBridgePid = none → ∀ pid c, s.children pid = some c → c.killed = true) :
    Flows str (vfpEventBridgeStart spawned s) events consumed k m := by
  have hnobody : s.eventBridgePid = none → ∀ pid c, s.children pid = some c → c.killed ≠ false := by
    intro hpid pid c hc hruns
    rw [hkilled hpid pid c hc] at hruns
    cases hruns
  unfold Plugin.vfpEventBridgeStart
  cases hpid : s.eventBridgePid with
  | some pid => exact h
  | none =>
    cases spawned with
    | false =>
      exact ⟨h.fits, h.consumed, h.lastSeq, h.sole.congr fun pid c hc => ⟨c, hc, rfl⟩,
        fun pid c hc hruns => absurd hruns (hnobody hpid pid c hc)⟩
    | true =>
      have honly : ∀ pid c, Function.update s.children s.next (some (.spawn (vfpEventClientArgs s.bridge))) pid =
          some c → c.killed = false → pid = s.next ∧ c = .spawn (vfpEventClientArgs s.bridge) := by
        intro pid c hc hruns
        by_cases hnew : pid = s.next
        · subst hnew
          rw [Function.update_self] at hc
          exact ⟨rfl, (Option.some.inj hc).symm⟩
        · rw [Function.update_of_ne hnew] at hc
          exact absurd hruns (hnobody hpid pid c hc)
      refine ⟨h.fits, h.consumed, h.lastSeq, fun pid pid' c c' hc hc' hruns hruns' => ?_, fun pid c hc hruns => ?_⟩
      · exact (honly pid c hc hruns).1.trans (honly pid' c' hc' hruns').1.symm
      · obtain ⟨-, rfl⟩ := honly pid c hc hruns
        refine ⟨[], k + m, rfl, le_refl _, h.fits, ?_, nofun, fun _ => ⟨rfl, rfl⟩⟩
        rw [eventsIn_self]
        rfl

/-- Stopping it kills the one client that runs, as long as the plugin knows it. -/
theorem Flows.vfpEventBridgeStop (h : Flows str s events consumed k m)
    (hknown : ∀ pid c, s.children pid = some c → c.killed = false → s.eventBridgePid = some pid) :
    Flows str (vfpEventBridgeStop s) events consumed k m := by
  have hnobody : ∀ pid c', (Plugin.vfpEventBridgeStop s).children pid = some c' → c'.killed ≠ false := by
    intro pid c' hc' hruns
    unfold Plugin.vfpEventBridgeStop at hc'
    dsimp only at hc'
    cases hpid : s.eventBridgePid with
    | none =>
      rw [hpid] at hc'
      cases hpid.symm.trans (hknown pid c' hc' hruns)
    | some known =>
      rw [hpid] at hc'
      dsimp only at hc'
      by_cases hsame : pid = known
      · subst hsame
        rw [Function.update_self] at hc'
        obtain ⟨c, -, rfl⟩ := Option.map_eq_some_iff.mp hc'
        cases hruns
      · rw [Function.update_of_ne hsame] at hc'
        exact hsame (Option.some.inj (hpid.symm.trans (hknown pid c' hc' hruns))).symm
  exact ⟨h.fits, h.consumed, h.lastSeq, fun pid _ c _ hc _ hruns _ => absurd hruns (hnobody pid c hc),
    fun pid c hc hruns => absurd hruns (hnobody pid c hc)⟩

/-- The end of a client leaves the others as they are. -/
theorem Flows.vfpEventBridgeExitH (h : Flows str s events consumed k m) (pid : ℕ) :
    Flows str (vfpEventBridgeExitH pid s) events consumed k m := by
  unfold Plugin.vfpEventBridgeExitH
  cases hchild : s.children pid with
  | none => exact h
  | some c =>
    dsimp only
    split
    · have hrest : ∀ pid' c', Function.update s.children pid none pid' = some c' → s.children pid' = some c' := by
        intro pid' c' hc'
        by_cases hpid : pid' = pid
        · rw [hpid, Function.update_self] at hc'
          cases hc'
        · rwa [Function.update_of_ne hpid] at hc'
      exact ⟨h.fits, h.consumed, h.lastSeq, h.sole.congr fun pid' c' hc' => ⟨c', hrest pid' c' hc', rfl⟩,
        fun pid' c' hc' hruns => h.pipe pid' c' (hrest pid' c' hc') hruns⟩
    · exact h

/-- A client that is stopped and replaced, and whose end is handled after that, makes the plugin forget the new one:
the next start adds another, and both run. -/
theorem two_clients_run {pid : ℕ} (hpid : s.eventBridgePid = some pid) (hchild : s.children pid = some c)
    (hold : pid < s.next) :
    let s' := vfpEventBridgeStart true
      (vfpEventBridgeExitH pid (vfpEventBridgeStart true (vfpEventBridgeStop s)))
    ∃ first second, s'.children s.next = some first ∧ s'.children (s.next + 1) = some second ∧
      first.ended = false ∧ second.ended = false := by
  have hne : s.next ≠ pid := hold.ne'
  simp [Plugin.vfpEventBridgeStart, Plugin.vfpEventBridgeStop, Plugin.vfpEventBridgeExitH, hpid, hchild, hne, hne.symm,
    Function.update_of_ne, Child.ended, Child.spawn, EventClient.start]

/-- Each input keeps what the bridge has consumed in order and without gaps. -/
theorem Flows.step (h : Flows str s events consumed k m) (hlog : Faithful fmt (s.stream fmt) events)
    (hatoi : ∀ n : ℕ, atoi (toString n) = some (n : ℤ)) (hplain : ∀ e ∈ events, '\n' ∉ eventLine str e)
    {i : PipelineInput fmt} (hok : Lossless s i) :
    ∃ k' m', Flows str (EventPipeline.step str atoi loaded i s).2
      (events ++ (EventPipeline.step str atoi loaded i s).1.1.toList)
      (consumed ++ consumedLines (EventPipeline.step str atoi loaded i s).1.2) k' m' := by
  have hsilent : ∀ {s' : EventPipeline} {k' : ℕ}, Flows str s' events consumed k' m →
      Flows str s' (events ++ (none : Option Obj).toList) (consumed ++ consumedLines []) k' m := by
    intro s' k' h'
    rw [Option.toList_none, List.append_nil, show consumedLines [] = [] from rfl, List.append_nil]
    exact h'
  have hsame : ∀ {s' : EventPipeline}, s'.children = s.children → s'.bridge = s.bridge →
      Flows str s' events consumed k m := by
    intro s' hchildren hbridge
    refine ⟨h.fits, h.consumed, hbridge ▸ h.lastSeq, h.sole.congr fun pid c hc => ⟨c, hchildren ▸ hc, rfl⟩,
      fun pid c hc hkilled => ?_⟩
    rw [hbridge]
    exact h.pipe pid c (hchildren ▸ hc) hkilled
  cases i with
  | emit ts etype payload =>
    have hfits := h.fits
    refine ⟨k, m, ?_, ?_, h.lastSeq, h.sole.congr fun pid c hc => ⟨c, hc, rfl⟩, fun pid c hc hkilled => ?_⟩
    · rw [List.length_append]
      omega
    · rw [eventsIn_append h.fits, ← h.consumed]
      exact List.append_nil _
    · obtain ⟨buf, j, hpipe⟩ := h.pipe pid c hc hkilled
      exact ⟨buf, j, hpipe.mono _⟩
  | append i => exact ⟨k, m, hsilent (hsame rfl rfl)⟩
  | appendFails i => exact hok.elim
  | restart retain bootId => exact ⟨k, m, hsilent (hsame rfl rfl)⟩
  | answer pid =>
    obtain ⟨⟨k', hanswer⟩, -⟩ := h.answer hlog hok
    exact ⟨k', m, hsilent hanswer⟩
  | reject pid code =>
    exact ⟨k, m, hsilent (h.onClient pid fun c => rejected_idles code c.client)⟩
  | lose pid => exact ⟨k, m, hsilent (h.onClient pid fun c => unreachable_idles c.args c.client)⟩
  | read pid count =>
    have hnone : (EventPipeline.step str atoi loaded (.read pid count : PipelineInput fmt) s).1.1 = none := by
      simp only [EventPipeline.step]
      split <;> rfl
    rw [hnone, Option.toList_none, List.append_nil]
    exact ⟨k, h.read hatoi hlog.numbered hplain count hok⟩
  | exit pid => exact ⟨k, m, hsilent (h.vfpEventBridgeExitH pid)⟩
  | stop => exact ⟨k, m, hsilent (h.vfpEventBridgeStop hok)⟩
  | start spawned => exact ⟨k, m, hsilent (h.vfpEventBridgeStart spawned hok)⟩

end Flow

section Runs

variable {fmt : FloatFormat} {str : Json → String} {atoi : String → Option ℤ} {loaded : Service → Bool}
variable {s : EventPipeline} {events : List Obj}
variable {h : List (Entry EventPipeline (PipelineInput fmt) (Option Obj × List BridgeAct))}

/-- What is in the file and what is still to be written are together the lines of the events. -/
theorem stream_step (hlog : Faithful fmt (s.stream fmt) events) {i : PipelineInput fmt} (hok : Lossless s i) :
    Faithful fmt ((EventPipeline.step str atoi loaded i s).2.stream fmt)
      (events ++ (EventPipeline.step str atoi loaded i s).1.1.toList) := by
  have hsame : ∀ {s' : EventPipeline}, s'.log = s.log → (s'.stream fmt).file = (s.stream fmt).file →
      Faithful fmt (s'.stream fmt) (events ++ (none : Option Obj).toList) := by
    intro s' hlogs hfile
    rw [Option.toList_none, List.append_nil]
    refine ⟨hfile.trans hlog.file, hlog.writable, hlog.numbered, ?_, ?_, ?_⟩
    · exact (congrArg (fun log => 0 < log.retain) hlogs).mpr hlog.retain_pos
    · exact (congrArg EventBuffer.seq hlogs).trans hlog.seq
    · exact (congrArg EventBuffer.recent hlogs).trans
        (hlog.recent.trans (congrArg (fun log => window log.retain events) hlogs.symm))
  cases i with
  | emit ts etype payload =>
    have hstep : Faithful fmt (EventStream.step fmt ⟨0, 0⟩ (.emit ts etype payload) (s.stream fmt)).2 _ :=
      hlog.step _
    refine ⟨?_, hstep.writable, hstep.numbered, hstep.retain_pos, hstep.seq, hstep.recent⟩
    refine Eq.trans ?_ hstep.file
    simp [EventPipeline.step, EventPipeline.stream, EventStream.step]
  | append i =>
    obtain rfl : i = 0 := hok
    refine hsame rfl ?_
    simp only [EventPipeline.step, EventPipeline.stream]
    cases s.unwritten with
    | nil => simp
    | cons e rest => simp
  | appendFails i => exact hok.elim
  | restart retain bootId =>
    have hwritten : s.unwritten = [] := hok
    have hfile : (s.stream fmt).file = s.file := by simp [EventPipeline.stream, hwritten]
    have hstep : Faithful fmt (EventStream.step fmt ⟨0, 0⟩ (.restart retain bootId) (s.stream fmt)).2 _ :=
      hlog.step _
    rw [EventStream.step, hfile] at hstep
    refine ⟨?_, hstep.writable, hstep.numbered, hstep.retain_pos, hstep.seq, hstep.recent⟩
    refine Eq.trans ?_ hstep.file
    simp [EventPipeline.step, EventPipeline.stream]
  | read pid count =>
    simp only [EventPipeline.step]
    split <;> exact hsame rfl rfl
  | exit pid =>
    simp only [EventPipeline.step, vfpEventBridgeExitH]
    split
    · exact hsame rfl rfl
    · split <;> exact hsame rfl rfl
  | start spawned =>
    simp only [EventPipeline.step, vfpEventBridgeStart]
    split
    · exact hsame rfl rfl
    · split <;> exact hsame rfl rfl
  | _ => exact hsame rfl rfl

/-- Every event that is emitted can be printed on a line. -/
theorem plain_step (hplain : ∀ e ∈ events, '\n' ∉ eventLine str e) {i : PipelineInput fmt} (hok : Lossless s i) :
    ∀ e ∈ events ++ (EventPipeline.step str atoi loaded i s).1.1.toList, '\n' ∉ eventLine str e := by
  intro e he
  rcases List.mem_append.mp he with hold | hnew
  · exact hplain e hold
  · cases i with
    | emit ts etype payload =>
      obtain rfl := List.mem_singleton.mp hnew
      exact newline_not_mem_eventText (s.log.seq + 1) hok
    | read pid count =>
      simp only [EventPipeline.step] at hnew
      split at hnew <;> cases hnew
    | _ => cases hnew

/-- A piece that asks for a function makes the bridge call it. -/
theorem servesPings_step (i : PipelineInput fmt) :
    ServesPings loaded (EventPipeline.step str atoi loaded i s).1.2 := by
  have hnone : ServesPings loaded [] := fun before line after service heq => by simp at heq
  cases i with
  | read pid count =>
    simp only [EventPipeline.step]
    split
    · exact hnone
    · rename_i c _
      obtain ⟨calls, hpiece, hcalls⟩ := vfpEventBridgeDataH_eq atoi loaded (c.unread.take count) s.bridge
      rw [hpiece]
      exact serves_piece hcalls
  | _ => exact hnone

/-- What one more step emits. -/
theorem emittedBy_fire (i : PipelineInput fmt) :
    emittedBy (h ++ [(eventPipeline str fmt atoi loaded).fire s i]) =
      emittedBy h ++ (EventPipeline.step str atoi loaded i s).1.1.toList := by
  unfold emittedBy
  rw [List.filterMap_append]
  rfl

/-- What the bridge does in one more step. -/
theorem actsBy_fire (i : PipelineInput fmt) :
    actsBy (h ++ [(eventPipeline str fmt atoi loaded).fire s i]) =
      actsBy h ++ (EventPipeline.step str atoi loaded i s).1.2 := by
  unfold actsBy
  rw [List.flatMap_append, List.flatMap_singleton]
  rfl

/-- What holds after every run: the log, its events, and what the bridge has of them. -/
theorem flows_of_run (hatoi : ∀ n : ℕ, atoi (toString n) = some (n : ℤ))
    (hrun : Run (eventPipeline str fmt atoi loaded) Lossless h s) :
    Faithful fmt (s.stream fmt) (emittedBy h) ∧ (∀ e ∈ emittedBy h, '\n' ∉ eventLine str e) ∧
      (∃ k m, Flows str s (emittedBy h) (consumedLines (actsBy h)) k m) ∧ ServesPings loaded (actsBy h) := by
  induction hrun with
  | init hs =>
    obtain ⟨retain, bootId, rfl⟩ := hs
    refine ⟨⟨rfl, nofun, numbered_nil, retain.pos, rfl, ?_⟩, nofun,
      ⟨0, 0, le_refl _, rfl, rfl, fun _ _ _ _ hc => (by cases hc), fun _ _ hc => (by cases hc)⟩, ?_⟩
    · simp [EventPipeline.stream, EventBuffer.load, splitLines, keepLast, window, emittedBy]
    · exact fun before line after service heq => by simp [actsBy] at heq
  | @step h s i _ hok ih =>
    obtain ⟨hlog, hplain, ⟨k, m, hflows⟩, hserves⟩ := ih
    rw [emittedBy_fire, actsBy_fire, consumedLines, List.filterMap_append]
    exact ⟨stream_step hlog hok, plain_step hplain hok, hflows.step hlog hatoi hplain hok,
      hserves.append (servesPings_step i)⟩

/-- A client that runs has printed every event up to the latest. -/
def UpToDate (s : EventPipeline) (events : List Obj) (pid : ℕ) : Prop :=
  ∀ c, s.children pid = some c → c.killed = false → c.client.phase = .polling → c.client.since = events.length

/-- After every run an answer brings the client that runs up to date. -/
theorem upToDate_of_answer (hatoi : ∀ n : ℕ, atoi (toString n) = some (n : ℤ))
    (hrun : Run (eventPipeline str fmt atoi loaded) Lossless h s) {pid : ℕ}
    (hok : @Lossless fmt s (.answer pid)) :
    UpToDate (EventPipeline.step str atoi loaded (.answer pid : PipelineInput fmt) s).2 (emittedBy h) pid := by
  obtain ⟨hlog, -, ⟨k, m, hflows⟩, -⟩ := flows_of_run hatoi hrun
  exact (hflows.answer hlog hok).2

/-- Over any lossless run of emissions, tunnel restarts, failing requests and restarts of the bridge, with the
output of the clients cut into any pieces, the bridge consumes the lines of consecutive events, each once and in
order, from the event where its first client came in. It remembers the number of the last one. The unfinished line
and the pipe together hold just the events from there up to the cursor of the client that runs, which an answer
brings up to the latest event. What the events ask for is called. -/
theorem delivered_across_restarts (hatoi : ∀ n : ℕ, atoi (toString n) = some (n : ℤ))
    (hrun : Run (eventPipeline str fmt atoi loaded) Lossless h s) :
    Numbered number (emittedBy h) ∧
    (∃ k m, k + m ≤ (emittedBy h).length ∧
      consumedLines (actsBy h) = (eventsIn (emittedBy h) k (k + m)).map (eventLine str) ∧
      s.bridge.eventLastSeq = (if m = 0 then none else some ((k + m : ℕ) : ℤ)) ∧
      ∀ pid c, s.children pid = some c → c.killed = false → c.client.phase = .polling → ∃ buf j,
        s.bridge.eventBuf = some buf ∧ c.client.since = (j : ℕ) ∧ k + m ≤ j ∧
        buf ++ c.unread = eventLines str (eventsIn (emittedBy h) (k + m) j)) ∧
    (∀ pid, @Lossless fmt s (.answer pid) →
      UpToDate (EventPipeline.step str atoi loaded (.answer pid : PipelineInput fmt) s).2 (emittedBy h) pid) ∧
    ServesPings loaded (actsBy h) := by
  obtain ⟨hlog, -, ⟨k, m, hflows⟩, hserves⟩ := flows_of_run hatoi hrun
  refine ⟨hlog.numbered,
    ⟨k, m, hflows.fits, hflows.consumed, hflows.lastSeq, fun pid c hc hkilled hpolling => ?_⟩,
    fun pid hok => upToDate_of_answer hatoi hrun hok, hserves⟩
  obtain ⟨buf, j, hpipe⟩ := hflows.pipe pid c hc hkilled
  exact ⟨buf, j, hpipe.buffer, hpipe.polling hpolling, hpipe.le, hpipe.text⟩

end Runs

section Samples

/-- `atoi` of a word of digits. -/
def sampleAtoi (word : String) : Option ℤ := some (Nat.ofDigitChars 10 word.toList 0)

/-- It reads what was printed. -/
theorem sampleAtoi_toString (n : ℕ) : sampleAtoi (toString n) = some (n : ℤ) := by
  rw [sampleAtoi, Nat.toString_eq_ofList_toDigits, String.toList_ofList, Nat.ofDigitChars_ten_toDigits]

/-- An event without a payload. -/
def pipelineEmit (etype : String) : PipelineInput .sample := .emit "2026-01-01T00:00:00" etype ⟨.null, trivial⟩

/-- The bridge is stopped when it has read an event and a half of three, and started again before Virtuoso handles
the end of the first client, which makes the plugin forget the second. -/
def sampleReconnect : List (PipelineInput .sample) :=
  [.start true, .answer 0, pipelineEmit "proposal.created", .append 0, pipelineEmit "run.done", .answer 0, .append 0,
    .read 0 40, .stop, pipelineEmit "action.request", .start true, .exit 0, .append 0, .answer 1, .read 1 100]

/-- The pipeline of the sample, with every function loaded. -/
def samplePipeline : Machine EventPipeline (PipelineInput .sample) (Option Obj × List BridgeAct) :=
  eventPipeline (fun _ => "?") .sample sampleAtoi fun _ => true

/-- The first start of the tunnel over an empty directory. -/
def sampleEmpty : EventPipeline := ⟨.load .sample 2000 "b1" [], [], [], fun _ => none, 0, none, ⟨none, none⟩⟩

/-- The bridge consumes consecutive events across its restart. -/
theorem delivered_across_restarts_sample :
    ∃ k m, k + m ≤ 3 ∧ consumedLines (actsBy (samplePipeline.trace sampleEmpty sampleReconnect)) =
        (eventsIn (emittedBy (samplePipeline.trace sampleEmpty sampleReconnect)) k (k + m)).map
          (eventLine fun _ => "?") ∧
      (samplePipeline.last sampleEmpty sampleReconnect).bridge.eventLastSeq =
        if m = 0 then none else some ((k + m : ℕ) : ℤ) := by
  have hstart : Run samplePipeline Lossless [] sampleEmpty := .init ⟨2000, "b1", rfl⟩
  have hrun := hstart.append_trace sampleReconnect (by
    simp only [sampleReconnect, Machine.trace, List.forall_mem_cons]
    refine ⟨?start, ?contact, ?first, rfl, ?second, ?print, rfl, ?half, ?stop, ?third, ?again, trivial, rfl, ?resume,
      ?rest, List.forall_mem_nil _⟩
    case start =>
      intro _ pid c hc
      cases hc
    case contact | print =>
      intro c hc _ hasks
      obtain rfl := Option.some.inj hc
      decide
    case first | second | third =>
      show '\n' ∉ _
      decide
    case half | rest =>
      intro c hc
      obtain rfl := Option.some.inj hc
      rfl
    case stop =>
      intro pid c hc _
      cases pid with
      | zero => rfl
      | succ pid => cases hc
    case again =>
      intro _ pid c hc
      cases pid with
      | zero =>
        obtain rfl := Option.some.inj hc
        rfl
      | succ pid => cases hc
    case resume =>
      -- the client resumes after what the bridge has read
      intro c hc _ hasks
      obtain rfl := Option.some.inj hc
      obtain hpolling | ⟨-, hpos⟩ := hasks
      · cases hpolling
      · exact (show (3 : ℤ) ≤ 2000 by decide).trans (le_add_of_nonneg_left hpos.le))
  obtain ⟨-, ⟨k, m, hfits, hconsumed, hlast, -⟩, -⟩ := delivered_across_restarts sampleAtoi_toString hrun
  exact ⟨k, m, hfits, hconsumed, hlast⟩

end Samples

end VirtuosoFlow.Plugin
