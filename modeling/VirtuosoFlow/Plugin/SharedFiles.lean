import VirtuosoFlow.Base.Files
import VirtuosoFlow.Base.Run

/-!
# The files of a call of the tunnel

`vfp_rpc_client.il`: a call hands its params to the helper in a file and reads the answer from another
one. Both lie in `$TMPDIR/vfp_skill`, under names numbered by a counter of the Virtuoso process. Several
processes may share the directory; their calls and the helpers of these take their steps in any order.
-/

namespace VirtuosoFlow.Plugin

open Base

/-- The callers that put their params into a file. -/
inductive ParamsKind where
  | txn
  | ltxn
  | run
  | job
  | ctx
  | layoutctx
  | lvsctx
  | extreg
  | actcplt

/-- What the names of its files begin with. -/
def ParamsKind.stem : ParamsKind → String
  | .txn => "txn"
  | .ltxn => "ltxn"
  | .run => "run"
  | .job => "job"
  | .ctx => "ctx"
  | .layoutctx => "layoutctx"
  | .lvsctx => "lvsctx"
  | .extreg => "extreg"
  | .actcplt => "actcplt"

/-- `sprintf(nil "%s/txn_%d.json" vfpHelperOutDir() vfpRpcSeq())` and the like. -/
def paramsPath (dir : String) (kind : ParamsKind) (seq : ℕ) : String :=
  dir ++ "/" ++ kind.stem ++ "_" ++ toString seq ++ ".json"

/-- `sprintf(nil "%s/resp_%d.sx" vfpHelperOutDir() vfpRpcSeq())`. -/
def respPath (dir : String) (seq : ℕ) : String := dir ++ "/resp_" ++ toString seq ++ ".sx"

/-- A file of params is never one of replies. -/
theorem paramsPath_ne_respPath (dir : String) (kind : ParamsKind) (m n : ℕ) :
    paramsPath dir kind m ≠ respPath dir n := by
  have hparams : (paramsPath dir kind m).toList.getLast? = some 'n' := by
    rw [paramsPath, String.toList_append, List.getLast?_append]
    rfl
  have hresp : (respPath dir n).toList.getLast? = some 'x' := by
    rw [respPath, String.toList_append, List.getLast?_append]
    rfl
  intro heq
  rw [heq, hresp] at hparams
  exact absurd hparams (by decide)

/-- Where a call stands, with the files it has written through: the params file, if it has one, and the
file for the answer. -/
inductive RpcPc where
  | idle
  /-- In `vfpWriteFile`. -/
  | writing (params : OutFile UInt8)
  /-- At `vfpRpcExec`, with `--params-file`. -/
  | written (params : OutFile UInt8)
  /-- `system(cmd)`: the helper has not opened its params file yet. -/
  | started (params out : OutFile UInt8)
  /-- The helper has the params file open and has read a part of it. -/
  | loading (params out : OutFile UInt8) (file : ℕ) (got : List UInt8)
  /-- The helper has its params and prints the answer. -/
  | printing (params : Option (OutFile UInt8)) (out : OutFile UInt8)
  /-- `system(cmd)` gave 0. -/
  | replied (params : Option (OutFile UInt8)) (out : OutFile UInt8)
  /-- `read(port)`, with the part of the answer that was read. -/
  | reading (params : Option (OutFile UInt8)) (out : OutFile UInt8) (file : ℕ) (got : List UInt8)
  /-- At `deleteFile(out)`. -/
  | parsed (params : Option (OutFile UInt8)) (out : OutFile UInt8)
  /-- At the caller's `deleteFile(pf)`. -/
  | returned (params : OutFile UInt8)

/-- A Virtuoso process: `VFP_RPC_SEQ` and its call. -/
structure RpcProc where
  seq : ℕ
  pc : RpcPc

/-- After `vfpRpcExec`, a caller with a params file removes it. -/
def RpcPc.afterExec : Option (OutFile UInt8) → RpcPc
  | none => .idle
  | some params => .returned params

/-- What a call does next, and what its surroundings decide about it. -/
inductive RpcAct where
  /-- `vfp_rpc_client.il` is loaded: `VFP_RPC_SEQ = 0`. -/
  | load
  /-- `vfpWriteFile(pf json)`, where `outfile` may give no port. -/
  | outfile (kind : ParamsKind) (opens : Bool)
  /-- `fprintf(port "%s" content)`, with the next part of the text. -/
  | fprintf (chunk : List UInt8)
  | close
  /-- `system(cmd)`: the shell opens the file for the answer and runs the helper, or fails. -/
  | exec (runs : Bool)
  /-- The helper opens the params file. -/
  | openParams
  /-- The helper reads at most this much more, and one byte. -/
  | loadParams (n : ℕ)
  /-- The helper writes a part of its answer. -/
  | print (chunk : List UInt8)
  /-- The helper ends. -/
  | exit (ok : Bool)
  /-- `infile(out)`. -/
  | infile
  /-- `read(port)` takes at most this much more, and one byte. -/
  | read (n : ℕ)
  | deleteOut
  | deleteParams

/-- What was found in a file, besides what its writer had written to it. -/
inductive Seen where
  /-- The helper has read its params file: what the caller wrote, and what was in the file. -/
  | params (own : List UInt8) (found : Option (List UInt8))
  /-- The call has read its answer: what its helper printed, and what was in the file. -/
  | reply (own : List UInt8) (found : Option (List UInt8))

/-- The next part of a file, for a reader that has this much of it. -/
def nextPart (f : Files UInt8) (file : ℕ) (got : List UInt8) (n : ℕ) : List UInt8 :=
  ((f.content file).drop got.length).take (n + 1)

/-- One step of a call of the process. -/
def RpcProc.act (dir : String) (p : RpcProc) (f : Files UInt8) :
    RpcAct → Option Seen × RpcProc × Files UInt8
  | .load =>
    match p.pc with
    | .idle => (none, ⟨0, .idle⟩, f)
    | _ => (none, p, f)
  | .outfile kind opens =>
    match p.pc, opens with
    | .idle, true =>
      (none, ⟨p.seq + 1, .writing (f.opened (paramsPath dir kind (p.seq + 1)))⟩,
        f.create (paramsPath dir kind (p.seq + 1)))
    | .idle, false => (none, ⟨p.seq + 1, .idle⟩, f)
    | _, _ => (none, p, f)
  | .fprintf chunk =>
    match p.pc with
    | .writing params => (none, ⟨p.seq, .writing (params.append chunk)⟩, f.write params chunk)
    | _ => (none, p, f)
  | .close =>
    match p.pc with
    | .writing params => (none, ⟨p.seq, .written params⟩, f)
    | _ => (none, p, f)
  | .exec runs =>
    match p.pc, runs with
    | .idle, true =>
      (none, ⟨p.seq + 1, .printing none (f.opened (respPath dir (p.seq + 1)))⟩,
        f.create (respPath dir (p.seq + 1)))
    | .written params, true =>
      (none, ⟨p.seq + 1, .started params (f.opened (respPath dir (p.seq + 1)))⟩,
        f.create (respPath dir (p.seq + 1)))
    -- `rc` is not 0
    | .idle, false => (none, ⟨p.seq + 1, .idle⟩, f)
    | .written params, false => (none, ⟨p.seq + 1, .returned params⟩, f)
    | _, _ => (none, p, f)
  | .openParams =>
    match p.pc with
    | .started params out =>
      match f.link params.path with
      | some file => (none, ⟨p.seq, .loading params out file []⟩, f)
      -- `OSError`: the helper prints that it cannot reach the tunnel
      | none => (some (.params params.text none), ⟨p.seq, .printing (some params) out⟩, f)
    | _ => (none, p, f)
  | .loadParams n =>
    match p.pc with
    | .loading params out file got =>
      match nextPart f file got n with
      | [] => (some (.params params.text (some got)), ⟨p.seq, .printing (some params) out⟩, f)
      | part => (none, ⟨p.seq, .loading params out file (got ++ part)⟩, f)
    | _ => (none, p, f)
  | .print chunk =>
    match p.pc with
    | .printing params out => (none, ⟨p.seq, .printing params (out.append chunk)⟩, f.write out chunk)
    | _ => (none, p, f)
  | .exit ok =>
    match p.pc, ok with
    | .printing params out, true => (none, ⟨p.seq, .replied params out⟩, f)
    -- `rc` is not 0: the file for the answer stays
    | .printing params _, false => (none, ⟨p.seq, .afterExec params⟩, f)
    | .started params _, false | .loading params _ _ _, false => (none, ⟨p.seq, .returned params⟩, f)
    | _, _ => (none, p, f)
  | .infile =>
    match p.pc with
    | .replied params out =>
      match f.link out.path with
      | some file => (none, ⟨p.seq, .reading params out file []⟩, f)
      -- "no helper output"
      | none => (some (.reply out.text none), ⟨p.seq, .afterExec params⟩, f)
    | _ => (none, p, f)
  | .read n =>
    match p.pc with
    | .reading params out file got =>
      match nextPart f file got n with
      | [] => (some (.reply out.text (some got)), ⟨p.seq, .parsed params out⟩, f)
      | part => (none, ⟨p.seq, .reading params out file (got ++ part)⟩, f)
    | _ => (none, p, f)
  | .deleteOut =>
    match p.pc with
    | .parsed params out => (none, ⟨p.seq, .afterExec params⟩, f.unlink out.path)
    | _ => (none, p, f)
  | .deleteParams =>
    match p.pc with
    | .returned params => (none, ⟨p.seq, .idle⟩, f.unlink params.path)
    | _ => (none, p, f)

/-- The path that a step opens for writing. -/
def RpcProc.draws (dir : String) (p : RpcProc) : RpcAct → Option String
  | .outfile kind true =>
    match p.pc with
    | .idle => some (paramsPath dir kind (p.seq + 1))
    | _ => none
  | .exec true =>
    match p.pc with
    | .idle | .written _ => some (respPath dir (p.seq + 1))
    | _ => none
  | _ => none

/-- Virtuoso processes and the directory they share. -/
structure RpcFiles (π : Type) where
  proc : π → RpcProc
  files : Files UInt8

/-- The calls of all processes. -/
def rpcFiles (π : Type) [DecidableEq π] (dir : String) : Machine (RpcFiles π) (π × RpcAct) (Option Seen) where
  init s := ∀ p, s.proc p = ⟨0, .idle⟩
  step i s :=
    (((s.proc i.1).act dir s.files i.2).1,
      ⟨Function.update s.proc i.1 ((s.proc i.1).act dir s.files i.2).2.1,
        ((s.proc i.1).act dir s.files i.2).2.2⟩)

/-- What was found is what the writer had written. -/
def Seen.Right : Seen → Prop
  | .params own found => found = some own
  | .reply own found => found = some own

/-- The two files of a call. -/
inductive RpcSlot where
  | params
  | out
  deriving DecidableEq

/-- The file of params that a call has. -/
def RpcPc.params? : RpcPc → Option (OutFile UInt8)
  | .idle => none
  | .writing params | .written params | .started params _ | .loading params _ _ _
  | .returned params => some params
  | .printing params _ | .replied params _ | .reading params _ _ _ | .parsed params _ => params

/-- The file of the reply that a call has. -/
def RpcPc.out? : RpcPc → Option (OutFile UInt8)
  | .idle | .writing _ | .written _ | .returned _ => none
  | .started _ out | .loading _ out _ _ | .printing _ out | .replied _ out | .reading _ out _ _
  | .parsed _ out => some out

/-- After the helper the file of params is still there. -/
@[simp] theorem RpcPc.params?_afterExec (params : Option (OutFile UInt8)) :
    (afterExec params).params? = params := by
  cases params <;> rfl

/-- After the helper there is no file of a reply. -/
@[simp] theorem RpcPc.out?_afterExec (params : Option (OutFile UInt8)) :
    (afterExec params).out? = none := by
  cases params <;> rfl

namespace RpcFiles

variable {π : Type} {dir : String} {s : RpcFiles π} {p : π}

/-- The files of the calls under way. -/
def own (s : RpcFiles π) (k : π × RpcSlot) : Option (OutFile UInt8) :=
  match k.2 with
  | .params => (s.proc k.1).pc.params?
  | .out => (s.proc k.1).pc.out?

/-- A path that is opened for writing belongs to no other process's call under way. -/
def Meets (dir : String) (s : RpcFiles π) (i : π × RpcAct) : Prop :=
  ∀ path, (s.proc i.1).draws dir i.2 = some path →
    ∀ q, q ≠ i.1 → ∀ slot o, s.own (q, slot) = some o → o.path ≠ path

/-- What a reader has is the beginning of what was written. -/
def Reads : RpcPc → Prop
  | .loading params _ file got => file = params.file ∧ got <+: params.text
  | .reading _ out file got => file = out.file ∧ got <+: out.text
  | _ => True

/-- After the helper nothing is half read. -/
theorem reads_afterExec (params : Option (OutFile UInt8)) : Reads (.afterExec params) := by
  cases params <;> trivial

/-- What holds as long as no two calls share a path. -/
structure Sound (dir : String) (s : RpcFiles π) : Prop where
  held : Held s.files s.own
  named : ∀ p params, (s.proc p).pc.params? = some params →
    ∃ kind n, params.path = paramsPath dir kind n
  reads : ∀ p, Reads (s.proc p).pc

section Reading

variable {f : Files UInt8} {o : OutFile UInt8} {got : List UInt8}

/-- What is read of a file is a beginning of its text. -/
theorem prefix_nextPart (hheld : f.Holds o) (hgot : got <+: o.text) (n : ℕ) :
    got ++ nextPart f o.file got n <+: o.text := by
  obtain ⟨rest, hrest⟩ := hgot
  have hpart : nextPart f o.file got n = rest.take (n + 1) := by
    rw [nextPart, hheld.content, ← hrest, List.drop_left]
  rw [hpart, ← hrest, List.prefix_append_right_inj]
  exact List.take_prefix _ _

/-- A reader that gets nothing more has read everything. -/
theorem eq_of_nextPart_nil {n : ℕ} (hheld : f.Holds o) (hgot : got <+: o.text)
    (hnil : nextPart f o.file got n = []) : got = o.text := by
  obtain ⟨rest, hrest⟩ := hgot
  have hpart : nextPart f o.file got n = rest.take (n + 1) := by
    rw [nextPart, hheld.content, ← hrest, List.drop_left]
  have hnone : rest = [] := by
    rw [hpart] at hnil
    simpa using hnil
  rw [← hrest, hnone, List.append_nil]

end Reading

section Steps

variable [DecidableEq π] {proc' : RpcProc} {f' : Files UInt8}

/-- The directory and one process after a step of this process. -/
def stepped (s : RpcFiles π) (p : π) (proc' : RpcProc) (f' : Files UInt8) : RpcFiles π :=
  ⟨Function.update s.proc p proc', f'⟩

/-- A step changes what a process owns in one slot at most. -/
theorem own_stepped (s : RpcFiles π) (p : π) (proc' : RpcProc) (f' : Files UInt8) (slot : RpcSlot)
    (hother : ∀ slot', slot' ≠ slot → (s.stepped p proc' f').own (p, slot') = s.own (p, slot')) :
    (s.stepped p proc' f').own =
      Function.update s.own (p, slot) ((s.stepped p proc' f').own (p, slot)) := by
  funext ⟨q, slot'⟩
  by_cases hq : q = p
  · subst hq
    by_cases hslot : slot' = slot
    · rw [hslot, Function.update_self]
    · rw [Function.update_of_ne (fun heq => hslot (congrArg Prod.snd heq)), hother slot' hslot]
  · rw [Function.update_of_ne (fun heq => hq (congrArg Prod.fst heq))]
    simp only [own, stepped, Function.update_of_ne hq]

/-- Only the params file of the call changes. -/
theorem own_params (hout : proc'.pc.out? = (s.proc p).pc.out?) :
    (s.stepped p proc' f').own = Function.update s.own (p, .params) proc'.pc.params? := by
  rw [own_stepped s p proc' f' .params]
  · simp [own, stepped]
  · intro slot' hslot
    cases slot' with
    | params => exact absurd rfl hslot
    | out => simpa [own, stepped] using hout

/-- Only the file for the answer changes. -/
theorem own_out (hparams : proc'.pc.params? = (s.proc p).pc.params?) :
    (s.stepped p proc' f').own = Function.update s.own (p, .out) proc'.pc.out? := by
  rw [own_stepped s p proc' f' .out]
  · simp [own, stepped]
  · intro slot' hslot
    cases slot' with
    | params => simpa [own, stepped] using hparams
    | out => exact absurd rfl hslot

/-- A step that keeps the files of a process leaves all that is owned. -/
theorem own_same (hparams : proc'.pc.params? = (s.proc p).pc.params?)
    (hout : proc'.pc.out? = (s.proc p).pc.out?) : (s.stepped p proc' f').own = s.own := by
  rw [own_out hparams, hout]
  exact Function.update_eq_self (p, RpcSlot.out) s.own

/-- A step of one process keeps what holds, if it does so for the files and for this process. -/
theorem Sound.stepped (hs : Sound dir s) (hheld : Held f' (s.stepped p proc' f').own)
    (hnamed : ∀ params, proc'.pc.params? = some params → ∃ kind n, params.path = paramsPath dir kind n)
    (hreads : Reads proc'.pc) : Sound dir (s.stepped p proc' f') where
  held := hheld
  named q params hparams := by
    by_cases hq : q = p
    · subst hq
      exact hnamed params (by simpa [RpcFiles.stepped] using hparams)
    · exact hs.named q params (by simpa [RpcFiles.stepped, Function.update_of_ne hq] using hparams)
  reads q := by
    by_cases hq : q = p
    · subst hq
      simpa [RpcFiles.stepped] using hreads
    · simpa [RpcFiles.stepped, Function.update_of_ne hq] using hs.reads q

/-- A step leaves things as they should be, and what it finds is right. -/
structure Fine (dir : String) (s : RpcFiles π) (p : π) (r : Option Seen × RpcProc × Files UInt8) : Prop where
  sound : Sound dir (s.stepped p r.2.1 r.2.2)
  right : ∀ seen, r.1 = some seen → seen.Right

/-- A step that leaves the files of the call as they are. -/
theorem Sound.fine_same {out : Option Seen} (hs : Sound dir s)
    (hparams : proc'.pc.params? = (s.proc p).pc.params?) (hout : proc'.pc.out? = (s.proc p).pc.out?)
    (hreads : Reads proc'.pc) (hright : ∀ seen, out = some seen → seen.Right) :
    Fine dir s p (out, proc', s.files) where
  sound := by
    refine hs.stepped ?_ ?_ hreads
    · rw [own_same hparams hout]
      exact hs.held
    · intro params hmem
      exact hs.named p params (hparams ▸ hmem)
  right := hright

/-- A process may stay where it is. -/
theorem Sound.fine_stay (hs : Sound dir s) : Fine dir s p (none, s.proc p, s.files) :=
  hs.fine_same rfl rfl (hs.reads p) (fun _ h => nomatch h)

/-- A step that lets the file for the answer go. -/
theorem Sound.fine_leave {out : Option Seen} (hs : Sound dir s)
    (hparams : proc'.pc.params? = (s.proc p).pc.params?) (hout : proc'.pc.out? = none)
    (hreads : Reads proc'.pc) (hright : ∀ seen, out = some seen → seen.Right) :
    Fine dir s p (out, proc', s.files) where
  sound := by
    refine hs.stepped ?_ ?_ hreads
    · rw [own_out hparams, hout]
      exact hs.held.release _
    · intro params hmem
      exact hs.named p params (hparams ▸ hmem)
  right := hright

/-- The paths of the other calls are not the one that is opened. -/
theorem Meets.free {act : RpcAct} {path : String} (hmeets : Meets dir s (p, act))
    (hdraws : (s.proc p).draws dir act = some path) (slot : RpcSlot)
    (hothers : ∀ slot' o, slot' ≠ slot → s.own (p, slot') = some o → o.path ≠ path) :
    ∀ k o, k ≠ (p, slot) → s.own k = some o → o.path ≠ path := by
  intro ⟨q, slot'⟩ o hk ho
  by_cases hq : q = p
  · subst hq
    exact hothers slot' o (fun hslot => hk (by rw [hslot])) ho
  · exact hmeets path hdraws q hq slot' o ho

/-- It may open a file of params whose number it has drawn. -/
theorem Sound.fine_outfile (hs : Sound dir s) (kind : ParamsKind) (opens : Bool)
    (hmeets : Meets dir s (p, .outfile kind opens)) :
    Fine dir s p ((s.proc p).act dir s.files (.outfile kind opens)) := by
  unfold RpcProc.act
  dsimp only
  split
  case h_1 hpc =>
    have hdraws : (s.proc p).draws dir (.outfile kind true) =
        some (paramsPath dir kind ((s.proc p).seq + 1)) := by
      simp [RpcProc.draws, hpc]
    have hfree := hmeets.free hdraws .params (by
      intro slot' o hslot ho
      cases slot' with
      | params => exact absurd rfl hslot
      | out => simp [own, hpc, RpcPc.out?] at ho)
    refine ⟨hs.stepped ?_ ?_ trivial, fun _ h => nomatch h⟩
    · rw [own_params (by rw [hpc]; rfl)]
      exact hs.held.create hfree
    · rintro params hmem
      obtain rfl : s.files.opened (paramsPath dir kind ((s.proc p).seq + 1)) = params := by
        simpa [RpcPc.params?] using hmem
      exact ⟨kind, (s.proc p).seq + 1, rfl⟩
  case h_2 hpc =>
    exact hs.fine_same (by rw [hpc]) (by rw [hpc]) trivial fun _ h => nomatch h
  case h_3 => exact hs.fine_stay

/-- It may write to it. -/
theorem Sound.fine_fprintf (hs : Sound dir s) (chunk : List UInt8) :
    Fine dir s p ((s.proc p).act dir s.files (.fprintf chunk)) := by
  unfold RpcProc.act
  dsimp only
  split
  case h_1 params hpc =>
    have hown : s.own (p, .params) = some params := by simp [own, hpc, RpcPc.params?]
    refine ⟨hs.stepped ?_ ?_ trivial, fun _ h => nomatch h⟩
    · rw [own_params (by rw [hpc]; rfl)]
      exact hs.held.write hown chunk
    · rintro params' hmem
      obtain rfl : params.append chunk = params' := by simpa [RpcPc.params?] using hmem
      exact hs.named p params (by rw [hpc]; rfl)
  case h_2 => exact hs.fine_stay

/-- It may close it. -/
theorem Sound.fine_close (hs : Sound dir s) : Fine dir s p ((s.proc p).act dir s.files .close) := by
  unfold RpcProc.act
  dsimp only
  split
  case h_1 params hpc =>
    exact hs.fine_same (by rw [hpc]; rfl) (by rw [hpc]; rfl) trivial fun _ h => nomatch h
  case h_2 => exact hs.fine_stay

/-- The helper is started: its output goes to a path that no other file of a call has. -/
theorem Sound.fine_start (hs : Sound dir s) (hmeets : Meets dir s (p, .exec true))
    (hdraws : (s.proc p).draws dir (.exec true) = some (respPath dir ((s.proc p).seq + 1)))
    (hparams : proc'.pc.params? = (s.proc p).pc.params?)
    (hout : proc'.pc.out? = some (s.files.opened (respPath dir ((s.proc p).seq + 1))))
    (hreads : Reads proc'.pc) :
    Fine dir s p (none, proc', s.files.create (respPath dir ((s.proc p).seq + 1))) := by
  have hfree := hmeets.free hdraws .out (by
    intro slot' o hslot ho
    cases slot' with
    | params =>
      obtain ⟨kind, n, hname⟩ := hs.named p o ho
      rw [hname]
      exact paramsPath_ne_respPath dir kind n _
    | out => exact absurd rfl hslot)
  refine ⟨hs.stepped ?_ ?_ hreads, fun _ h => nomatch h⟩
  · rw [own_out hparams, hout]
    exact hs.held.create hfree
  · intro params hmem
    exact hs.named p params (hparams ▸ hmem)

/-- It may start the helper. -/
theorem Sound.fine_exec (hs : Sound dir s) (runs : Bool) (hmeets : Meets dir s (p, .exec runs)) :
    Fine dir s p ((s.proc p).act dir s.files (.exec runs)) := by
  unfold RpcProc.act
  dsimp only
  split
  case h_1 hpc =>
    exact hs.fine_start hmeets (by simp [RpcProc.draws, hpc]) (by rw [hpc]; rfl) rfl trivial
  case h_2 params hpc =>
    exact hs.fine_start hmeets (by simp [RpcProc.draws, hpc]) (by rw [hpc]; rfl) rfl trivial
  case h_3 hpc => exact hs.fine_same (by rw [hpc]) (by rw [hpc]) trivial fun _ h => nomatch h
  case h_4 params hpc =>
    exact hs.fine_same (by rw [hpc]; rfl) (by rw [hpc]; rfl) trivial fun _ h => nomatch h
  case h_5 => exact hs.fine_stay

/-- The helper, or the call, goes on to read a file that it opened by its path. -/
theorem Sound.fine_openParams (hs : Sound dir s) :
    Fine dir s p ((s.proc p).act dir s.files .openParams) := by
  unfold RpcProc.act
  dsimp only
  split
  case h_1 params out hpc =>
    have hheld := hs.held.holds (k := (p, .params)) (o := params) (by simp [own, hpc, RpcPc.params?])
    rw [hheld.link]
    exact hs.fine_same (by rw [hpc]; rfl) (by rw [hpc]; rfl) ⟨rfl, List.nil_prefix⟩ fun _ h => nomatch h
  case h_2 => exact hs.fine_stay

/-- It may open the reply. -/
theorem Sound.fine_infile (hs : Sound dir s) : Fine dir s p ((s.proc p).act dir s.files .infile) := by
  unfold RpcProc.act
  dsimp only
  split
  case h_1 params out hpc =>
    have hheld := hs.held.holds (k := (p, .out)) (o := out) (by simp [own, hpc, RpcPc.out?])
    rw [hheld.link]
    exact hs.fine_same (by rw [hpc]; rfl) (by rw [hpc]; rfl) ⟨rfl, List.nil_prefix⟩ fun _ h => nomatch h
  case h_2 => exact hs.fine_stay

/-- The helper may read the params. -/
theorem Sound.fine_loadParams (hs : Sound dir s) (n : ℕ) :
    Fine dir s p ((s.proc p).act dir s.files (.loadParams n)) := by
  unfold RpcProc.act
  dsimp only
  split
  case h_1 params out file got hpc =>
    have hheld := hs.held.holds (k := (p, .params)) (o := params) (by simp [own, hpc, RpcPc.params?])
    obtain ⟨rfl, hgot⟩ : file = params.file ∧ got <+: params.text := by
      have hreads := hs.reads p
      rwa [hpc] at hreads
    split
    case h_1 hpart =>
      refine hs.fine_same (by rw [hpc]; rfl) (by rw [hpc]; rfl) trivial ?_
      rintro seen hseen
      obtain rfl : Seen.params params.text (some got) = seen := by simpa using hseen
      exact congrArg some (eq_of_nextPart_nil hheld hgot hpart)
    case h_2 part hpart =>
      exact hs.fine_same (by rw [hpc]; rfl) (by rw [hpc]; rfl) ⟨rfl, prefix_nextPart hheld hgot n⟩
        fun _ h => nomatch h
  case h_2 => exact hs.fine_stay

/-- A process may read the reply. -/
theorem Sound.fine_read (hs : Sound dir s) (n : ℕ) :
    Fine dir s p ((s.proc p).act dir s.files (.read n)) := by
  unfold RpcProc.act
  dsimp only
  split
  case h_1 params out file got hpc =>
    have hheld := hs.held.holds (k := (p, .out)) (o := out) (by simp [own, hpc, RpcPc.out?])
    obtain ⟨rfl, hgot⟩ : file = out.file ∧ got <+: out.text := by
      have hreads := hs.reads p
      rwa [hpc] at hreads
    split
    case h_1 hpart =>
      refine hs.fine_same (by rw [hpc]; rfl) (by rw [hpc]; rfl) trivial ?_
      rintro seen hseen
      obtain rfl : Seen.reply out.text (some got) = seen := by simpa using hseen
      exact congrArg some (eq_of_nextPart_nil hheld hgot hpart)
    case h_2 part hpart =>
      exact hs.fine_same (by rw [hpc]; rfl) (by rw [hpc]; rfl) ⟨rfl, prefix_nextPart hheld hgot n⟩
        fun _ h => nomatch h
  case h_2 => exact hs.fine_stay

/-- The helper may print the reply. -/
theorem Sound.fine_print (hs : Sound dir s) (chunk : List UInt8) :
    Fine dir s p ((s.proc p).act dir s.files (.print chunk)) := by
  unfold RpcProc.act
  dsimp only
  split
  case h_1 params out hpc =>
    have hown : s.own (p, .out) = some out := by simp [own, hpc, RpcPc.out?]
    refine ⟨hs.stepped ?_ ?_ trivial, fun _ h => nomatch h⟩
    · rw [own_out (by rw [hpc]; rfl)]
      exact hs.held.write hown chunk
    · intro params' hmem
      exact hs.named p params' (by rw [hpc]; exact hmem)
  case h_2 => exact hs.fine_stay

/-- The helper may end. -/
theorem Sound.fine_exit (hs : Sound dir s) (ok : Bool) :
    Fine dir s p ((s.proc p).act dir s.files (.exit ok)) := by
  unfold RpcProc.act
  dsimp only
  split
  case h_1 params out hpc =>
    exact hs.fine_same (by rw [hpc]; rfl) (by rw [hpc]; rfl) trivial fun _ h => nomatch h
  case h_2 params out hpc =>
    exact hs.fine_leave (by rw [hpc]; exact RpcPc.params?_afterExec params) (RpcPc.out?_afterExec params)
      (reads_afterExec params) fun _ h => nomatch h
  case h_3 params out hpc => exact hs.fine_leave (by rw [hpc]; rfl) rfl trivial fun _ h => nomatch h
  case h_4 params out file got hpc =>
    exact hs.fine_leave (by rw [hpc]; rfl) rfl trivial fun _ h => nomatch h
  case h_5 => exact hs.fine_stay

/-- A process may delete the reply. -/
theorem Sound.fine_deleteOut (hs : Sound dir s) :
    Fine dir s p ((s.proc p).act dir s.files .deleteOut) := by
  unfold RpcProc.act
  dsimp only
  split
  case h_1 params out hpc =>
    have hown : s.own (p, .out) = some out := by simp [own, hpc, RpcPc.out?]
    refine ⟨hs.stepped ?_ ?_ (reads_afterExec params), fun _ h => nomatch h⟩
    · rw [own_out (by rw [hpc]; exact RpcPc.params?_afterExec params), RpcPc.out?_afterExec]
      exact hs.held.unlink hown
    · intro params' hmem
      refine hs.named p params' ?_
      rw [hpc]
      exact (RpcPc.params?_afterExec params).symm.trans hmem
  case h_2 => exact hs.fine_stay

/-- It may delete the params. -/
theorem Sound.fine_deleteParams (hs : Sound dir s) :
    Fine dir s p ((s.proc p).act dir s.files .deleteParams) := by
  unfold RpcProc.act
  dsimp only
  split
  case h_1 params hpc =>
    have hown : s.own (p, .params) = some params := by simp [own, hpc, RpcPc.params?]
    refine ⟨hs.stepped ?_ (fun _ h => nomatch h) trivial, fun _ h => nomatch h⟩
    rw [own_params (by rw [hpc]; rfl)]
    exact hs.held.unlink hown
  case h_2 => exact hs.fine_stay

/-- It may end its call. -/
theorem Sound.fine_load (hs : Sound dir s) : Fine dir s p ((s.proc p).act dir s.files .load) := by
  unfold RpcProc.act
  dsimp only
  split
  case h_1 hpc => exact hs.fine_same (by rw [hpc]) (by rw [hpc]) trivial fun _ h => nomatch h
  case h_2 => exact hs.fine_stay

/-- Every step of a call leaves things as they should be, and what it finds is right. -/
theorem Sound.fine_act (hs : Sound dir s) (act : RpcAct) (hmeets : Meets dir s (p, act)) :
    Fine dir s p ((s.proc p).act dir s.files act) := by
  cases act with
  | load => exact hs.fine_load
  | outfile kind opens => exact hs.fine_outfile kind opens hmeets
  | fprintf chunk => exact hs.fine_fprintf chunk
  | close => exact hs.fine_close
  | exec runs => exact hs.fine_exec runs hmeets
  | openParams => exact hs.fine_openParams
  | loadParams n => exact hs.fine_loadParams n
  | print chunk => exact hs.fine_print chunk
  | exit ok => exact hs.fine_exit ok
  | infile => exact hs.fine_infile
  | read n => exact hs.fine_read n
  | deleteOut => exact hs.fine_deleteOut
  | deleteParams => exact hs.fine_deleteParams

/-- Nobody owns a file at first. -/
theorem sound_init (hinit : (rpcFiles π dir).init s) : Sound dir s := by
  have hidle : ∀ q, (s.proc q).pc = .idle := fun q => by rw [hinit q]
  have hown : ∀ k, s.own k = none := by
    rintro ⟨q, slot⟩
    cases slot <;> simp [own, hidle, RpcPc.params?, RpcPc.out?]
  constructor
  · constructor
    · intro k o ho
      simp [hown] at ho
    · intro k k' o o' ho
      simp [hown] at ho
  · intro q params hparams
    simp [hidle, RpcPc.params?] at hparams
  · intro q
    rw [hidle]
    trivial

/-- Every run keeps the files with their processes. -/
theorem sound_of_run {h : List (Entry (RpcFiles π) (π × RpcAct) (Option Seen))}
    (hrun : Run (rpcFiles π dir) (Meets dir) h s) : Sound dir s :=
  hrun.invariant (fun _ => sound_init) fun _ i hmeets hs => (hs.fine_act i.2 hmeets).sound

end Steps

/-- As long as no path is opened for writing that belongs to a call under way of another process, each
call reads what its own helper printed, and each helper the params its own caller wrote. -/
theorem replies_not_mixed {π : Type} [DecidableEq π] {dir : String} {s : RpcFiles π}
    {h : List (Entry (RpcFiles π) (π × RpcAct) (Option Seen))}
    (hrun : Run (rpcFiles π dir) (Meets dir) h s) :
    ∀ e ∈ h, ∀ seen, e.output = some seen → seen.Right := by
  intro e he seen hseen
  obtain ⟨h₁, h₂, rfl, hprior, hmeets, hfire⟩ := hrun.split_of_mem he
  have hfine := (sound_of_run hprior).fine_act e.input.2 hmeets
  rw [hfire] at hseen
  exact hfine.right seen hseen

/-- An action that draws no number meets the condition. -/
theorem meets_of_draws_none {π : Type} {dir : String} {s : RpcFiles π} {i : π × RpcAct}
    (hnone : (s.proc i.1).draws dir i.2 = none) : Meets dir s i := by
  intro path hdraws
  simp [hnone] at hdraws

/-- Two processes before their first calls. -/
def sampleStart : RpcFiles Bool := ⟨fun _ => ⟨0, .idle⟩, ⟨fun _ => none, fun _ => [], 0, by simp, by simp⟩⟩

/-- The sample starts as a process does. -/
theorem sampleStart_init : (rpcFiles Bool "/tmp/vfp_skill").init sampleStart := fun _ => rfl

/-- A call with params, and one of the other process meanwhile. -/
def sampleCalls : List (Bool × RpcAct) :=
  [(false, .outfile .txn true), (true, .exec true), (false, .fprintf [123, 125]), (false, .close),
    (false, .exec true), (true, .print [40, 116, 41]), (false, .openParams), (true, .exit true),
    (true, .infile), (true, .read 8), (true, .read 8)]

/-- Its calls draw different numbers. -/
theorem sampleCalls_meet : ∀ e ∈ (rpcFiles Bool "/tmp/vfp_skill").trace sampleStart sampleCalls,
    Meets "/tmp/vfp_skill" e.before e.input := by
  simp only [sampleCalls, Machine.trace, List.forall_mem_cons]
  refine ⟨?_, ?_, meets_of_draws_none rfl, meets_of_draws_none rfl, ?_, meets_of_draws_none rfl,
    meets_of_draws_none rfl, meets_of_draws_none rfl, meets_of_draws_none rfl, meets_of_draws_none rfl,
    meets_of_draws_none rfl, by simp⟩
  · rintro path - (_ | _) hq (_ | _) o ho
    · exact absurd rfl hq
    · exact absurd rfl hq
    · cases ho
    · cases ho
  · rintro path hdraws (_ | _) hq (_ | _) o ho
    · cases hdraws
      cases ho
      exact paramsPath_ne_respPath "/tmp/vfp_skill" .txn 1 1
    · cases ho
    · exact absurd rfl hq
    · exact absurd rfl hq
  · rintro path hdraws (_ | _) hq (_ | _) o ho
    · exact absurd rfl hq
    · exact absurd rfl hq
    · cases ho
    · cases hdraws
      cases ho
      exact fun h => absurd h (by decide)

/-- The reply of the sample is its own. -/
theorem replies_not_mixed_sample : (Seen.reply [40, 116, 41] (some [40, 116, 41])).Right := by
  have hstart : Run (rpcFiles Bool "/tmp/vfp_skill") (Meets "/tmp/vfp_skill") [] sampleStart :=
    .init sampleStart_init
  exact replies_not_mixed (hstart.append_trace sampleCalls sampleCalls_meet) _
    (List.mem_of_getElem? (i := 10) rfl) _ rfl

/-- Both processes are at the same number: the second helper prints into the file of the first one. -/
theorem replies_mixed_up :
    ¬ ∀ (h : List (Entry (RpcFiles Bool) (Bool × RpcAct) (Option Seen))) (s : RpcFiles Bool),
      Run (rpcFiles Bool "/tmp/vfp_skill") (fun _ _ => True) h s →
        ∀ e ∈ h, ∀ seen, e.output = some seen → seen.Right := by
  intro hall
  have hstart : Run (rpcFiles Bool "/tmp/vfp_skill") (fun _ _ => True) [] sampleStart :=
    .init sampleStart_init
  have hrun := hstart.append_trace
    [(false, .exec true), (true, .exec true), (false, .print [40, 116, 41]),
      (true, .print [110, 105, 108]), (false, .exit true), (false, .infile), (false, .read 8),
      (false, .read 8)] (fun _ _ => trivial)
  have hlast := hall _ _ hrun _ (List.mem_of_getElem? (i := 7) rfl)
    (.reply [40, 116, 41] (some [110, 105, 108])) rfl
  exact absurd hlast (by simp [Seen.Right])

end RpcFiles

end VirtuosoFlow.Plugin
