import VirtuosoFlow.Tunnel.EventFile
import VirtuosoFlow.Tunnel.Dispatch

/-!
# One connection

`_Handler.handle` of `rpc/transport.py`: the lines that arrive on a connection, one after
another, and what is written for each. Other connections may change the state of the daemon
between two lines. Every line that asks for an answer gets one, and no other line does, as
long as no request names its method by a list or an object, and no notification fails.
-/

namespace VirtuosoFlow.Tunnel

open Base JsonText

section Lines

/-- The bytes that `bytes.strip()` removes. -/
def isByteSpace (b : UInt8) : Bool := b == 32 || b == 9 || b == 10 || b == 11 || b == 12 || b == 13

/-- `raw.strip()`. -/
def stripBytes (raw : List UInt8) : List UInt8 :=
  ((raw.dropWhile isByteSpace).reverse.dropWhile isByteSpace).reverse

/-- `s.encode("utf-8")`. -/
def encodeUtf8 (text : List Char) : List UInt8 := (String.ofList text).toUTF8.data.toList

/-- `line.decode("utf-8")`; nothing where it raises. -/
def decodeUtf8 (line : List UInt8) : Option (List Char) :=
  (String.fromUTF8? ⟨line.toArray⟩).map String.toList

/-- `json.loads(line.decode("utf-8"))`. -/
def parseLine (fmt : FloatFormat) (line : List UInt8) : Option Json := (decodeUtf8 line).bind (loads fmt)

/-- `(json.dumps(v) + "\n").encode("utf-8")`. -/
def lineOf (fmt : FloatFormat) (v : Json) : List UInt8 := encodeUtf8 (dumps fmt none v ++ ['\n'])

/-- What is encoded is decoded again. -/
theorem decodeUtf8_encodeUtf8 (text : List Char) : decodeUtf8 (encodeUtf8 text) = some text := by
  have hvalid := (String.ofList text).isValidUTF8
  have hbytes : (⟨(encodeUtf8 text).toArray⟩ : ByteArray) = (String.ofList text).toByteArray := by
    simp [encodeUtf8]
  have hstring : String.fromUTF8 (String.ofList text).toByteArray hvalid = String.ofList text := rfl
  rw [decodeUtf8, hbytes, String.fromUTF8?, dif_pos hvalid, hstring]
  simp

/-- A text is encoded one part after the other. -/
theorem encodeUtf8_append (a b : List Char) : encodeUtf8 (a ++ b) = encodeUtf8 a ++ encodeUtf8 b := by
  simp [encodeUtf8, String.ofList_append]

/-- Stripping keeps what starts and ends with something else than white space. -/
theorem stripBytes_line {a b : UInt8} (ha : isByteSpace a = false) (hb : isByteSpace b = false)
    (bytes : List UInt8) : stripBytes (a :: (bytes ++ [b]) ++ [10]) = a :: (bytes ++ [b]) := by
  have hend : isByteSpace 10 = true := by decide
  have hreverse : (a :: (bytes ++ [b]) ++ [10]).reverse = 10 :: b :: (bytes.reverse ++ [a]) := by simp
  rw [stripBytes, List.cons_append, List.dropWhile_cons_of_neg (by simp [ha]), ← List.cons_append, hreverse,
    List.dropWhile_cons_of_pos hend, List.dropWhile_cons_of_neg (by simp [hb])]
  simp

end Lines

section Handler

variable {σ : Type} (fmt : FloatFormat) (d : Dispatcher σ)

/-- The body of the loop of `handle`: what is written for a line. -/
def handleLine (raw : List UInt8) : Prog PyExc σ (Option Obj) :=
  if stripBytes raw = [] then pure none
  else match parseLine fmt (stripBytes raw) with
    | none => pure (some (error .null parseError "Parse error" none))
    | some msg => d.dispatch msg

/-- What a handler has done when its loop is over. -/
structure Served where
  /-- What was written for each line that was served. -/
  written : List (Option Obj)
  /-- The exception that ended the loop, and with it the connection. -/
  raised : Option PyExc

/-- `handle()`, for the lines of a connection with the state in which each is served. -/
def handleLines : List (List UInt8 × σ) → Served
  | [] => ⟨[], none⟩
  | (raw, s) :: lines =>
    match ((handleLine fmt d raw).exec s).1 with
    | .ok out => ⟨out :: (handleLines lines).written, (handleLines lines).raised⟩
    | .error e => ⟨[], some e⟩

/-- The bytes that a handler has written. -/
def Served.bytes (served : Served) : List UInt8 := served.written.reduceOption.flatMap fun r => lineOf fmt (.obj r)

/-- One response to a line that is neither blank nor a notification, with the id of the object it
parses to; none to any other line. -/
def LineAnswered (raw : List UInt8) (out : Option Obj) : Prop :=
  if stripBytes raw = [] then out = none
  else match parseLine fmt (stripBytes raw) with
    | some (.obj m) => Answered m out
    | _ => ∃ r, out = some r ∧ Obj.get r "id" = .null

/-- Every line was served, and each was answered as it should be. -/
def AnsweredEach (lines : List (List UInt8 × σ)) (served : Served) : Prop :=
  served.raised = none ∧ List.Forall₂ (fun line out => LineAnswered fmt line.1 out) lines served.written

/-- The message of a line can be answered in the state it is served in. -/
def LineAnswerable (line : List UInt8 × σ) : Prop :=
  ∀ m, stripBytes line.1 ≠ [] → parseLine fmt (stripBytes line.1) = some (.obj m) → Answerable d line.2 m

end Handler

section Responses

variable {σ : Type} {fmt : FloatFormat} {d : Dispatcher σ}

/-- A line is answered as it should be just when it can be answered so. -/
theorem lineAnswered_iff (raw : List UInt8) (s : σ) :
    (∃ out, ((handleLine fmt d raw).exec s).1 = .ok out ∧ LineAnswered fmt raw out) ↔
      LineAnswerable fmt d (raw, s) := by
  unfold handleLine LineAnswered LineAnswerable
  by_cases hblank : stripBytes raw = []
  · simp [hblank]
  · simp only [if_neg hblank]
    cases hparse : parseLine fmt (stripBytes raw) with
    | none => simp [hblank]
    | some msg =>
      cases msg with
      | obj m =>
        have hiff := answered_iff_answerable d m s
        simpa [hblank, Dispatcher.dispatch] using hiff
      | _ => simp [hblank, Dispatcher.dispatch]

/-- Every line is answered exactly if each can be. -/
theorem answeredEach_iff (lines : List (List UInt8 × σ)) :
    AnsweredEach fmt lines (handleLines fmt d lines) ↔ ∀ line ∈ lines, LineAnswerable fmt d line := by
  induction lines with
  | nil => exact ⟨fun _ _ hline => (by cases hline), fun _ => ⟨rfl, .nil⟩⟩
  | cons line lines ih =>
    obtain ⟨raw, s⟩ := line
    rw [List.forall_mem_cons, ← lineAnswered_iff, ← ih]
    cases hout : ((handleLine fmt d raw).exec s).1 with
    | error e => simp [AnsweredEach, handleLines, hout]
    | ok out =>
      simp only [AnsweredEach, handleLines, hout, List.forall₂_cons, Except.ok.injEq, exists_eq_left']
      exact ⟨fun h => ⟨h.2.1, h.1, h.2.2⟩, fun h => ⟨h.2.1, h.1, h.2.2⟩⟩

/-- `dispatch` returns for every message but a request that names its method by a list or an
object, and a connection is served as it should be just when each of its lines can be. -/
theorem one_response_each_iff (fmt : FloatFormat) (d : Dispatcher σ) :
    (∀ msg s, (∃ out, ((d.dispatch msg).exec s).1 = .ok out) ↔ ∀ m, msg = .obj m → ¬ Unhashable m) ∧
      ∀ lines, AnsweredEach fmt lines (handleLines fmt d lines) ↔ ∀ line ∈ lines, LineAnswerable fmt d line :=
  ⟨dispatch_returns_iff d, answeredEach_iff⟩

/-- The line of an object is parsed as the object. -/
theorem parseLine_lineOf {o : Obj} (h : WellFormed fmt (.obj o)) :
    stripBytes (lineOf fmt (.obj o)) ≠ [] ∧
      parseLine fmt (stripBytes (lineOf fmt (.obj o))) = some (.obj o) := by
  have hbraces : ∃ t, dumps fmt none (.obj o) = '{' :: (t ++ ['}']) := by
    cases o with
    | nil => exact ⟨[], rfl⟩
    | cons m ms =>
      obtain ⟨t, ht⟩ := @ends_printMembers fmt ms 0
      exact ⟨_, by rw [dumps, print, ht, ← List.append_assoc, ← List.append_assoc]⟩
  obtain ⟨t, ht⟩ := hbraces
  have hbytes : encodeUtf8 ('{' :: (t ++ ['}'])) = 0x7b :: (encodeUtf8 t ++ [0x7d]) := by
    rw [← List.singleton_append, encodeUtf8_append, encodeUtf8_append]
    rfl
  have hstrip : stripBytes (lineOf fmt (.obj o)) = encodeUtf8 (dumps fmt none (.obj o)) := by
    rw [lineOf, encodeUtf8_append, ht, hbytes]
    exact stripBytes_line (by decide) (by decide) _
  rw [hstrip]
  refine ⟨by rw [ht, hbytes]; simp, ?_⟩
  rw [parseLine, decodeUtf8_encodeUtf8]
  exact loads_dumps none h

end Responses

section Notifications

variable {σ : Type} {fmt : FloatFormat} {d : Dispatcher σ} {m : Obj} {s : σ}

/-- A message has an object of params, or none, names its method by a value that can be looked up, and
the method of that name, if there is one, returns. -/
structure Unraised (d : Dispatcher σ) (s : σ) (m : Obj) : Prop where
  hashable : (Obj.get m "method").key? ≠ none
  returns : ∃ params, paramsOf m = some params ∧
    ∀ fn, Calls d m fn params → ∃ result, ((fn params).exec s).1 = .ok result

/-- For a notification this is all that keeps it from being answered. -/
theorem answerable_iff_unraised (hn : Notification m) : Answerable d s m ↔ Unraised d s m := by
  constructor
  · intro h
    obtain ⟨params, hparams, hreturns⟩ := h.silent hn
    exact ⟨fun hkey => h.hashable ⟨hn.1, by simp [hparams], hkey⟩, params, hparams, hreturns⟩
  · intro h
    exact ⟨fun hunhashable => h.hashable hunhashable.2.2, fun _ => h.returns⟩

/-- `dispatch` returns nothing for a message with a method and without an id, and the handler writes
nothing for its line, just when it has no params that are not an object, the method can be looked up,
and does not raise. -/
theorem notification_unanswered_iff (hrequest : isRequest m = true) (hid : m.lookup "id" = none) :
    (((d.dispatch (.obj m)).exec s).1 = .ok none ↔ Unraised d s m) ∧
      ∀ raw, stripBytes raw ≠ [] → parseLine fmt (stripBytes raw) = some (.obj m) →
        (((handleLine fmt d raw).exec s).1 = .ok none ↔ Unraised d s m) := by
  have hn : Notification m := ⟨hrequest, by rw [Obj.get, Obj.getD, hid]; rfl⟩
  have hdispatch : ((d.dispatch (.obj m)).exec s).1 = .ok none ↔ Unraised d s m := by
    rw [← answerable_iff_unraised hn, ← answered_iff_answerable]
    constructor
    · exact fun hnone => ⟨none, hnone, answered_none.mpr hn⟩
    · rintro ⟨out, hout, hanswered⟩
      rw [← hanswered.1 hn]
      exact hout
  refine ⟨hdispatch, fun raw hne hparse => ?_⟩
  simp only [handleLine, if_neg hne, hparse]
  exact hdispatch

end Notifications

section Examples

/-- A dispatcher with the method `ping`. -/
def sampleDispatcher : Dispatcher Unit where
  methods := [("ping", fun _ => pure (.obj []))]
  str _ := ""
  excText _ := ""

/-- A message without an id gets no answer. -/
theorem notification_unanswered_iff_sample :
    ((sampleDispatcher.dispatch (.obj [("jsonrpc", .str "2.0"), ("method", .str "ping")])).exec ()).1 =
      .ok none := by
  refine (@notification_unanswered_iff _ .sample _ _ _ rfl rfl).1.mpr
    ⟨Option.some_ne_none (Key.str "ping"), [], rfl, ?_⟩
  rintro fn ⟨-, name, hname, hfn⟩
  cases hname
  cases hfn
  exact ⟨_, rfl⟩

/-- A notification with a list of params is answered with an error. -/
theorem notification_answered :
    let m : Obj := [("jsonrpc", .str "2.0"), ("method", .str "ping"), ("params", .arr [])]
    isRequest m = true ∧ m.lookup "id" = none ∧ ((sampleDispatcher.dispatch (.obj m)).exec ()).1 ≠ .ok none :=
  ⟨rfl, rfl, fun h => nomatch Except.ok.inj h⟩

/-- A request that names its method by a list. -/
def sampleListed : Obj := [("jsonrpc", .str "2.0"), ("id", .int 1), ("method", .arr [])]

/-- A request for `ping`. -/
def samplePing : Obj := [("jsonrpc", .str "2.0"), ("id", .int 2), ("method", .str "ping")]

/-- The request behind it is not answered. -/
theorem connection_lost : ¬ AnsweredEach .sample
    [(lineOf .sample (.obj sampleListed), ()), (lineOf .sample (.obj samplePing), ())]
    (handleLines .sample sampleDispatcher
      [(lineOf .sample (.obj sampleListed), ()), (lineOf .sample (.obj samplePing), ())]) := by
  intro hanswered
  have hwell : WellFormed .sample (.obj sampleListed) :=
    ⟨by decide, fun _ _ => trivial, fun _ _ => trivial, fun _ _ => trivial, trivial, fun _ _ => trivial, trivial,
      trivial⟩
  obtain ⟨hne, hparse⟩ := parseLine_lineOf hwell
  have hline := (answeredEach_iff _).mp hanswered _ List.mem_cons_self
  exact (hline sampleListed hne hparse).hashable ⟨rfl, rfl, rfl⟩

end Examples

end VirtuosoFlow.Tunnel
