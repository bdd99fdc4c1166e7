import VirtuosoFlow.Base.Lines
import VirtuosoFlow.Plugin.LayoutVsSchematic

/-!
# The event bridge

`vfpEventBridgeDataH` of `vfp_rpc_server.il` gets what the event client prints, in pieces that end anywhere. It
keeps the unfinished line, consumes the complete ones, and calls what their events ask for once for each piece.
-/

namespace VirtuosoFlow.Plugin

open Base

section Definitions

/-- The functions that events call, each under `errset` and if it is loaded. -/
inductive Service where
  | vfpFetchPendingProposals | vfpServiceNetlistRequests | vfpServiceActionRequests | vfpUpdateDashboard
  deriving DecidableEq

/-- What the handler does besides keeping its state. -/
inductive BridgeAct where
  | consume (line : List Char)
  | call (service : Service)

/-- What the plugin's state holds for the bridge. -/
structure Bridge where
  eventBuf : Option (List Char)
  eventLastSeq : Option ℤ

/-- What the handler keeps while it goes through the lines. -/
structure LineScan where
  eventLastSeq : Option ℤ
  consumed : List (List Char)
  sawEvent : Bool
  sawProposal : Bool
  sawNetlist : Bool
  sawAction : Bool

/-- No line has been consumed yet. -/
def LineScan.start (seq : Option ℤ) : LineScan := ⟨seq, [], false, false, false, false⟩

/-- `nindex(buf c)`. -/
def nindex (buf : List Char) (c : Char) : Option ℕ := if c ∈ buf then some (buf.idxOf c + 1) else none

/-- `substring(buf start length)`. -/
def substring (buf : List Char) (start length : ℕ) : List Char := (buf.drop (start - 1)).take length

variable (atoi : String → Option ℤ) (loaded : Service → Bool)

/-- What the handler does with a line. -/
def scanLine (s : LineScan) (line : List Char) : LineScan :=
  let toks := parseString (String.ofList line) ' '
  let s := { s with consumed := s.consumed ++ [line] }
  if toks[0]? = some "VFP-EVT" then
    let seq := toks[1]?.bind atoi
    let type := toks[2]?
    { s with
      eventLastSeq := seq.or s.eventLastSeq
      sawEvent := true
      sawProposal := s.sawProposal || type.any fun t => "proposal.".toList.isPrefixOf t.toList
      sawNetlist := s.sawNetlist || type == some "netlist.request"
      sawAction := s.sawAction || type == some "action.request" }
  else s

/-- What is left behind a line end is shorter. -/
theorem length_rest_lt {buf : List Char} {pos : ℕ} (h : nindex buf '\n' = some pos) :
    (if pos < buf.length then buf.drop pos else []).length < buf.length := by
  unfold nindex at h
  split at h
  · rename_i hmem
    have hlen := List.length_pos_of_mem hmem
    obtain rfl := Option.some.inj h
    split
    · rw [List.length_drop]
      omega
    · exact hlen
  · cases h

/-- The loop: it consumes the complete lines and leaves the rest. -/
def consumeLines (buf : List Char) (s : LineScan) : List Char × LineScan :=
  match h : nindex buf '\n' with
  | none => (buf, s)
  | some pos =>
    consumeLines (if pos < buf.length then buf.drop pos else [])
      (scanLine atoi s (if 1 < pos then substring buf 1 (pos - 1) else []))
termination_by buf.length
decreasing_by exact length_rest_lt h

/-- The calls at the end of the handler. -/
def bridgeCalls (s : LineScan) : List Service :=
  if s.sawEvent then
    ([(s.sawProposal, .vfpFetchPendingProposals), (s.sawNetlist, .vfpServiceNetlistRequests),
      (s.sawAction, .vfpServiceActionRequests), (true, .vfpUpdateDashboard)].filter
        fun e => e.1 && loaded e.2).map Prod.snd
  else []

/-- `vfpEventBridgeDataH(cid data)`. -/
def vfpEventBridgeDataH (data : List Char) (b : Bridge) : Bridge × List BridgeAct :=
  let r := consumeLines atoi (b.eventBuf.getD [] ++ data) (.start b.eventLastSeq)
  (⟨some r.1, r.2.eventLastSeq⟩, r.2.consumed.map .consume ++ (bridgeCalls loaded r.2).map .call)

/-- The pieces arrive one after the other. -/
def deliver : List (List Char) → Bridge → Bridge × List BridgeAct
  | [], b => (b, [])
  | data :: rest, b =>
    let r := vfpEventBridgeDataH atoi loaded data b
    let r' := deliver rest r.1
    (r'.1, r.2 ++ r'.2)

/-- The bridge as `vfpEventBridgeStart` leaves it. -/
def Bridge.started (seq : Option ℤ) : Bridge := ⟨some [], seq⟩

/-- The lines consumed, first to last. -/
def consumedLines (acts : List BridgeAct) : List (List Char) :=
  acts.filterMap fun
    | .consume line => some line
    | .call _ => none

/-- A line announces an event of a type that asks for a function. -/
def Announces (line : List Char) (service : Service) : Prop :=
  ∃ seq type more, parseString (String.ofList line) ' ' = "VFP-EVT" :: seq :: type :: more ∧
    match service with
    | .vfpFetchPendingProposals => "proposal.".toList <+: type.toList
    | .vfpServiceNetlistRequests => type = "netlist.request"
    | .vfpServiceActionRequests => type = "action.request"
    | .vfpUpdateDashboard => True

end Definitions

section Lines

variable {atoi : String → Option ℤ} {loaded : Service → Bool} {line rest buf : List Char} {s : LineScan}

/-- An unfinished line is kept. -/
theorem consumeLines_unfinished (h : '\n' ∉ line) : consumeLines atoi line s = (line, s) := by
  rw [consumeLines]
  split
  · rfl
  · rename_i pos hpos
    rw [nindex, if_neg h] at hpos
    cases hpos

/-- A line that is ended is scanned first. -/
theorem consumeLines_first (h : '\n' ∉ line) :
    consumeLines atoi (line ++ '\n' :: rest) s = consumeLines atoi rest (scanLine atoi s line) := by
  have hindex : nindex (line ++ '\n' :: rest) '\n' = some (line.length + 1) := by
    rw [nindex, if_pos (by simp), List.idxOf_append_of_notMem h, List.idxOf_cons_self, Nat.add_zero]
  have hline : (if 1 < line.length + 1 then
      substring (line ++ '\n' :: rest) 1 (line.length + 1 - 1) else []) = line := by
    cases line with
    | nil => rfl
    | cons c line => simp [substring]
  have hrest : (if line.length + 1 < (line ++ '\n' :: rest).length then (line ++ '\n' :: rest).drop (line.length + 1)
      else []) = rest := by
    cases rest with
    | nil => simp
    | cons c rest => simp [List.drop_append]
  conv_lhs => rw [consumeLines]
  split
  · rename_i hnone
    rw [hindex] at hnone
    cases hnone
  · rename_i pos hpos
    obtain rfl := Option.some.inj (hindex.symm.trans hpos)
    rw [hline, hrest]

/-- The loop goes through the complete lines and leaves the unfinished one. -/
theorem consumeLines_eq (buf : List Char) (s : LineScan) :
    consumeLines atoi buf s = (partialLine '\n' buf, (completeLines '\n' buf).foldl (scanLine atoi) s) := by
  induction buf using lines_induction '\n' generalizing s with
  | unfinished line hline =>
    obtain ⟨hcomplete, hpartial⟩ := lines_of_not_mem hline
    rw [consumeLines_unfinished hline, hcomplete, hpartial, List.foldl_nil]
  | first line rest hline ih =>
    obtain ⟨hcomplete, hpartial⟩ := lines_cons hline rest
    rw [consumeLines_first hline, ih, hcomplete, hpartial, List.foldl_cons]

end Lines

section Scan

variable {atoi : String → Option ℤ} {loaded : Service → Bool} {line : List Char} {lines : List (List Char)}
variable {s : LineScan} {service : Service}

/-- The sequence number after some lines. -/
def seqAfter (atoi : String → Option ℤ) (seq : Option ℤ) (lines : List (List Char)) : Option ℤ :=
  (lines.foldl (scanLine atoi) (.start seq)).eventLastSeq

/-- A scanned line is consumed. -/
theorem consumed_scanLine (s : LineScan) (line : List Char) :
    (scanLine atoi s line).consumed = s.consumed ++ [line] := by
  unfold scanLine
  dsimp only
  split <;> rfl

/-- So are several. -/
theorem consumed_foldl (lines : List (List Char)) (s : LineScan) :
    (lines.foldl (scanLine atoi) s).consumed = s.consumed ++ lines := by
  induction lines generalizing s with
  | nil => simp
  | cons line lines ih => simp [ih, consumed_scanLine]

/-- The sequence number depends on nothing else that the loop keeps. -/
theorem eventLastSeq_congr {s' : LineScan} (h : s.eventLastSeq = s'.eventLastSeq) (lines : List (List Char)) :
    (lines.foldl (scanLine atoi) s).eventLastSeq = (lines.foldl (scanLine atoi) s').eventLastSeq := by
  induction lines generalizing s s' with
  | nil => exact h
  | cons line lines ih =>
    refine ih ?_
    unfold scanLine
    dsimp only
    split
    · rw [h]
    · exact h

/-- The number after two parts is that after the second, from that after the first. -/
theorem seqAfter_append (seq : Option ℤ) (lines lines' : List (List Char)) :
    seqAfter atoi seq (lines ++ lines') = seqAfter atoi (seqAfter atoi seq lines) lines' := by
  rw [seqAfter, List.foldl_append]
  have hsame : (lines.foldl (scanLine atoi) (.start seq)).eventLastSeq =
      (LineScan.start (seqAfter atoi seq lines)).eventLastSeq := rfl
  exact eventLastSeq_congr hsame lines'

/-- The flag of a function, and the one that its call needs besides. -/
def LineScan.asked (s : LineScan) : Service → Bool
  | .vfpFetchPendingProposals => s.sawEvent && s.sawProposal
  | .vfpServiceNetlistRequests => s.sawEvent && s.sawNetlist
  | .vfpServiceActionRequests => s.sawEvent && s.sawAction
  | .vfpUpdateDashboard => s.sawEvent

/-- A function whose flag is up is called if it is loaded. -/
theorem mem_bridgeCalls (hasked : s.asked service = true) (hloaded : loaded service = true) :
    service ∈ bridgeCalls loaded s := by
  cases service <;> simp_all [LineScan.asked, bridgeCalls]

/-- A flag that is up stays up. -/
theorem asked_scanLine (h : s.asked service = true) (line : List Char) :
    (scanLine atoi s line).asked service = true := by
  unfold scanLine
  dsimp only
  split
  · cases service <;> simp_all [LineScan.asked]
  · cases service <;> simp_all [LineScan.asked]

/-- A flag that is up stays up over more lines. -/
theorem asked_foldl (h : s.asked service = true) (lines : List (List Char)) :
    (lines.foldl (scanLine atoi) s).asked service = true := by
  induction lines generalizing s with
  | nil => exact h
  | cons line lines ih => exact ih (asked_scanLine h line)

/-- An event puts up the flag of what it asks for. -/
theorem asked_of_announces (h : Announces line service) (s : LineScan) :
    (scanLine atoi s line).asked service = true := by
  obtain ⟨seq, type, more, htoks, hservice⟩ := h
  unfold scanLine
  simp only [htoks, List.getElem?_cons_zero, if_true, List.getElem?_cons_succ]
  cases service with
  | vfpFetchPendingProposals => simpa [LineScan.asked] using .inr hservice
  | vfpServiceNetlistRequests => simp [LineScan.asked, show type = "netlist.request" from hservice]
  | vfpServiceActionRequests => simp [LineScan.asked, show type = "action.request" from hservice]
  | vfpUpdateDashboard => rfl

/-- A line among them puts up the flag of what it asks for. -/
theorem asked_of_mem (h : Announces line service) (hmem : line ∈ lines) (s : LineScan) :
    (lines.foldl (scanLine atoi) s).asked service = true := by
  obtain ⟨before, after, rfl⟩ := List.append_of_mem hmem
  rw [List.foldl_append, List.foldl_cons]
  exact asked_foldl (asked_of_announces h _) after

end Scan

section Delivery

variable {atoi : String → Option ℤ} {loaded : Service → Bool} {acts acts' : List BridgeAct}

/-- After every line that announces an event, what the event asks for is called if it is loaded. -/
def ServesPings (loaded : Service → Bool) (acts : List BridgeAct) : Prop :=
  ∀ before line after service, acts = before ++ .consume line :: after → Announces line service →
    loaded service = true → .call service ∈ after

/-- What serves its lines one part after the other serves them all. -/
theorem ServesPings.append (h : ServesPings loaded acts) (h' : ServesPings loaded acts') :
    ServesPings loaded (acts ++ acts') := by
  intro before line after service heq hline hloaded
  rcases List.append_eq_append_iff.mp heq with ⟨c, rfl, hc⟩ | ⟨c, hc, hrest⟩
  · exact h' c line after service hc hline hloaded
  · cases c with
    | nil => exact h' [] line after service hrest.symm hline hloaded
    | cons act c =>
      obtain ⟨rfl, rfl⟩ := List.cons.inj hrest
      exact List.mem_append_left _ (h before line c service hc hline hloaded)

/-- What one piece brings about. -/
theorem vfpEventBridgeDataH_eq (atoi : String → Option ℤ) (loaded : Service → Bool)
    (data : List Char) (b : Bridge) :
    ∃ calls : List Service, vfpEventBridgeDataH atoi loaded data b =
        (⟨some (partialLine '\n' (b.eventBuf.getD [] ++ data)),
          seqAfter atoi b.eventLastSeq (completeLines '\n' (b.eventBuf.getD [] ++ data))⟩,
          (completeLines '\n' (b.eventBuf.getD [] ++ data)).map .consume ++ calls.map .call) ∧
      ∀ line ∈ completeLines '\n' (b.eventBuf.getD [] ++ data), ∀ service, Announces line service →
        loaded service = true → service ∈ calls := by
  unfold vfpEventBridgeDataH
  simp only [consumeLines_eq, consumed_foldl]
  generalize completeLines '\n' (b.eventBuf.getD [] ++ data) = lines
  exact ⟨_, rfl, fun line hline service hannounces hloaded =>
    mem_bridgeCalls (asked_of_mem hannounces hline _) hloaded⟩

/-- A piece serves its lines if its calls do. -/
theorem serves_piece {lines : List (List Char)} {calls : List Service}
    (h : ∀ line ∈ lines, ∀ service, Announces line service → loaded service = true → service ∈ calls) :
    ServesPings loaded (lines.map .consume ++ calls.map .call) := by
  intro before line after service heq hline hloaded
  rcases List.append_eq_append_iff.mp heq with ⟨c, rfl, hc⟩ | ⟨c, hc, hrest⟩
  · have hin : BridgeAct.consume line ∈ calls.map .call := by simp [hc]
    obtain ⟨_, -, hcall⟩ := List.mem_map.mp hin
    cases hcall
  · cases c with
    | nil =>
      have hin : BridgeAct.consume line ∈ calls.map .call := by
        rw [← List.nil_append (calls.map _), ← hrest]
        exact List.mem_cons_self
      obtain ⟨_, -, hcall⟩ := List.mem_map.mp hin
      cases hcall
    | cons act c =>
      obtain ⟨rfl, rfl⟩ := List.cons.inj hrest
      have hin : BridgeAct.consume line ∈ lines.map .consume := by simp [hc]
      obtain ⟨line', hmem, heq⟩ := List.mem_map.mp hin
      obtain rfl := BridgeAct.consume.inj heq
      exact List.mem_append_right _ (List.mem_map_of_mem (h line' hmem service hline hloaded))

/-- A piece consumes its lines. -/
theorem consumedLines_piece (lines : List (List Char)) (calls : List Service) :
    consumedLines (lines.map .consume ++ calls.map .call) = lines := by
  simp [consumedLines, List.filterMap_append, List.filterMap_map]

/-- Pieces of a stream do what the stream does, from a bridge whose buffer holds an unfinished line. -/
theorem deliver_eq (atoi : String → Option ℤ) (loaded : Service → Bool) (chunks : List (List Char))
    {buf : List Char} (hbuf : '\n' ∉ buf) (seq : Option ℤ) :
    (deliver atoi loaded chunks ⟨some buf, seq⟩).1 = ⟨some (partialLine '\n' (buf ++ chunks.flatten)),
        seqAfter atoi seq (completeLines '\n' (buf ++ chunks.flatten))⟩ ∧
      consumedLines (deliver atoi loaded chunks ⟨some buf, seq⟩).2 = completeLines '\n' (buf ++ chunks.flatten) ∧
      ServesPings loaded (deliver atoi loaded chunks ⟨some buf, seq⟩).2 := by
  induction chunks generalizing buf seq with
  | nil =>
    obtain ⟨hcomplete, hpartial⟩ := lines_of_not_mem hbuf
    rw [List.flatten_nil, List.append_nil, hcomplete, hpartial]
    exact ⟨rfl, rfl, fun before line after service heq => by simp [deliver] at heq⟩
  | cons data rest ih =>
    obtain ⟨calls, hpiece, hcalls⟩ := vfpEventBridgeDataH_eq atoi loaded data ⟨some buf, seq⟩
    rw [Option.getD_some] at hpiece hcalls
    obtain ⟨hstate, hlines, hserves⟩ := ih (not_mem_partialLine '\n' (buf ++ data))
      (seqAfter atoi seq (completeLines '\n' (buf ++ data)))
    obtain ⟨hcomplete, hpartial⟩ := lines_append '\n' (buf ++ data) rest.flatten
    rw [deliver]
    simp only [hpiece]
    rw [List.flatten_cons, ← List.append_assoc, hcomplete, hpartial, seqAfter_append]
    refine ⟨hstate, ?_, (serves_piece hcalls).append hserves⟩
    rw [consumedLines, List.filterMap_append]
    change consumedLines _ ++ consumedLines _ = _
    rw [consumedLines_piece, hlines]

end Delivery

/-- However a stream is cut, the bridge comes to the same buffer and sequence number, consumes the complete
lines of the stream in their order, and calls what an event asks for after its line. -/
theorem chunking_irrelevant (atoi : String → Option ℤ) (loaded : Service → Bool) (seq : Option ℤ)
    (chunks chunks' : List (List Char)) (h : chunks.flatten = chunks'.flatten) :
    (deliver atoi loaded chunks (.started seq)).1 = (deliver atoi loaded chunks' (.started seq)).1 ∧
      (consumedLines (deliver atoi loaded chunks (.started seq)).2 = completeLines '\n' chunks.flatten ∧
        consumedLines (deliver atoi loaded chunks' (.started seq)).2 = completeLines '\n' chunks.flatten) ∧
      ServesPings loaded (deliver atoi loaded chunks (.started seq)).2 ∧
      ServesPings loaded (deliver atoi loaded chunks' (.started seq)).2 := by
  obtain ⟨hstate, hlines, hserves⟩ := deliver_eq atoi loaded chunks List.not_mem_nil seq
  obtain ⟨hstate', hlines', hserves'⟩ := deliver_eq atoi loaded chunks' List.not_mem_nil seq
  rw [← h] at hstate' hlines'
  exact ⟨hstate.trans hstate'.symm, ⟨hlines, hlines'⟩, hserves, hserves'⟩

section Examples

/-- An event whose text is cut inside the tag, and once more before the end of the line. -/
def sampleCut : List (List Char) := ["VFP-E".toList, "VT 7 netlist.request".toList, "\n".toList]

/-- A line that comes in two pieces. -/
theorem chunking_irrelevant_sample :
    consumedLines (deliver (fun _ => some 7) (fun _ => true) sampleCut (.started none)).2 =
      ["VFP-EVT 7 netlist.request".toList] ∧
    ServesPings (fun _ => true) (deliver (fun _ => some 7) (fun _ => true) sampleCut (.started none)).2 := by
  have hcut := chunking_irrelevant (fun _ => some 7) (fun _ => true) none sampleCut
    ["VFP-EVT 7 netlist.request\n".toList] rfl
  refine ⟨hcut.2.1.1.trans ?_, hcut.2.2.1⟩
  rfl

end Examples

end VirtuosoFlow.Plugin
