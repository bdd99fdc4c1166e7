import VirtuosoFlow.Plugin.HelperCall
import VirtuosoFlow.Plugin.DesignContext
import VirtuosoFlow.Tunnel.LatestContext

/-!
# The context that an agent reads

A designer works on the design and exports its context now and then, through the helper into the tunnel, which
serves other requests in between and is restarted. What `context_get` gives an agent is the context that was
stored last, and where the plugin stored it, it describes the cellview that was edited at that moment.
-/

namespace VirtuosoFlow.Plugin

open Base Base.Posix Base.Shell JsonText Tunnel Helper

section Export

/-- `design.context.update`, as the plugin calls it. -/
def rpcContextUpdate : RpcMethod where
  name := "design.context.update"
  nonempty := by decide
  ordinary c hc := of_decide_eq_true
    (List.all_eq_true.mp (show "design.context.update".toList.all (Ordinary ·) = true by decide) c hc)

/-- The methods of the daemon on contexts; `path` is where the latest one is written. -/
def contextDispatcher (env : Tunnel.Env) (path : String) (str : Json → String) : Dispatcher Daemon where
  methods := [("design.context.update", mContextUpdate env path), ("design.context.get", mContextGet)]
  str := str
  excText := env.strExc

/-- What an export meets: the daemon's host, the plugin's shell and what surrounds the helper, and the time. -/
structure ExportCall where
  env : Tunnel.Env
  path : String
  str : Json → String
  setup : ShellSetup
  around : Surroundings
  time : String
  /-- `vfpWriteFile(pf json)`. -/
  writable : Bool

/-- `sprintf(nil "%s/ctx_%d.json" vfpHelperOutDir() vfpRpcSeq())`. -/
def ExportCall.pf (call : ExportCall) : String :=
  call.setup.vfpHelperOutDir ++ "/ctx_" ++ toString (call.setup.rpcSeq + 1) ++ ".json"

variable {ι : Type} (fmt : FloatFormat) (printer : Printer) (printG : ℚ → String) (call : ExportCall)

/-- The surroundings of the helper once the file of a payload is written. -/
def ExportCall.written (ctx : Value) : Surroundings :=
  { call.around with
    files := Function.update call.around.files call.pf
      (some (Encoder.vfpToJson printer.printL printG (Encoder.vfpJObj [.str "context", ctx]))) }

/-- `vfpExportDesignContext()`. -/
def vfpExportDesignContext (s : SchSession ι) (d : Daemon) : Bool × Daemon :=
  match vfpExtractDesignContext printer call.time s with
  | none => (false, d)
  | some ctx =>
    if call.writable then
      let res := Helper.vfpRpcExec fmt (contextDispatcher call.env call.path call.str)
        (call.written printer printG ctx) { call.setup with rpcSeq := call.setup.rpcSeq + 1 } rpcContextUpdate
        ["--params-file", call.pf] d
      (res.1.car.truthy, res.2)
    else (false, d)

/-- The params of `design.context.update` for a cellview. -/
def contextParams (time : String) (s : SchSession ι) (c : ι) : Obj :=
  [("context", .obj (designContext printer time s c))]

/-- The payload of a cellview can be written and read, and the schema takes it. -/
def ExportCall.Accepts (s : SchSession ι) (c : ι) : Prop :=
  call.writable = true ∧ sendable (.obj (designContext printer call.time s c)) = true ∧
    call.env.validate "context" (designContext printer call.time s c) = .ok ()

/-- `context_get()` of `tools.py`. -/
def contextGet (env : Tunnel.Env) (path : String) (str : Json → String) (cut : List UInt8 → List (List UInt8))
    (id : String) (d : Daemon) : Except Failure Json :=
  match (Helper.call fmt (contextDispatcher env path str) cut id "design.context.get" [] d).1 with
  | .ok (.obj result) => .ok (Obj.get result "context")
  | .ok _ => .error .uncaught
  | .error e => .error e

end Export

section Calls

variable {ι : Type} {fmt : FloatFormat} {printer : Printer} {printG : ℚ → String} {call : ExportCall}
  {s : SchSession ι} {d : Daemon}

/-- The disk of the daemon works, the call can be made, and the helper can print the answer. A schema that refuses
a context says so in a message alone. -/
structure ExportCall.Works (call : ExportCall) (fmt : FloatFormat) : Prop where
  host : WorkingHost call.env
  reach : Reachable call.setup call.around
  tmp : isOption (call.setup.tmpDir.getD "/tmp") = false
  encodes : ∀ context d, Encodes call.around.stdout call.env.strExc
    ((mContextUpdate call.env call.path [("context", .obj context)]).exec d).1
  refusal : ∀ context code message data, call.env.validate "context" context = .error (.rpc code message data) →
    data = none

/-- The path of the payload is one plain word. -/
theorem plainWord_pf (hworks : call.Works fmt) : PlainWord call.pf := by
  constructor
  · have hdir := quote_not_mem_vfpHelperOutDir_iff.mpr hworks.reach.tmp
    have hname : '\'' ∉ "/ctx_".toList := by decide
    have hnumber := quote_not_mem_toString (call.setup.rpcSeq + 1)
    have hext : '\'' ∉ ".json".toList := by decide
    simp only [ExportCall.pf, String.toList_append, List.mem_append, hdir, hname, hnumber, hext, or_self,
      not_false_eq_true]
  · have htmp := hworks.tmp
    unfold isOption at htmp ⊢
    rw [ExportCall.pf, ShellSetup.vfpHelperOutDir]
    simp only [String.toList_append]
    cases hdir : (call.setup.tmpDir.getD "/tmp").toList with
    | nil => rfl
    | cons c cs =>
      rw [hdir] at htmp
      exact htmp

/-- On a host whose disk works a context is stored, or a schema refuses it and nothing changes. -/
theorem contextUpdate_cases (hworks : call.Works fmt) (time : String) (c : ι) (d : Daemon) :
    (∃ answer, ((mContextUpdate call.env call.path (contextParams printer time s c)).exec d).1 = .ok answer ∧
      WellFormed fmt answer ∧ call.env.validate "context" (designContext printer time s c) = .ok () ∧
      contextToStore call.env (contextParams printer time s c) d.tunnel = some (designContext printer time s c)) ∨
    ∃ e, (mContextUpdate call.env call.path (contextParams printer time s c)).exec d = (.error e, d) ∧
      Transmissible fmt (.error e) ∧ call.env.validate "context" (designContext printer time s c) ≠ .ok () := by
  have hget : Obj.get (contextParams printer time s c) "context" = .obj (designContext printer time s c) := rfl
  have htouch : ∀ t, (touchSession call.env (contextParams printer time s c)).exec t = (.ok (), t) := fun _ => rfl
  unfold mContextUpdate contextToStore
  simp only [hget, htouch]
  cases hvalid : call.env.validate "context" (designContext printer time s c) with
  | error e =>
    right
    refine ⟨e, Prog.exec_bind_error (Prog.exec_ofExcept _ _), ?_, fun h => by cases h⟩
    cases e with
    | rpc code message data =>
      obtain rfl := hworks.refusal _ _ _ _ hvalid
      trivial
    | _ => trivial
  | ok u =>
    left
    have hsession : (onTunnel (touchSession call.env (contextParams printer time s c))).exec d = (.ok (), d) := rfl
    have hstore : (ContextStore.update call.env (designContext printer time s c)).exec d.contexts = _ :=
      exec_updateLatest hworks.host.dirs hworks.host.contexts d.contexts
    have hupdate : ∃ d', (onContexts (ContextStore.update call.env (designContext printer time s c))).exec d =
        (.ok (), d') := by
      rw [onContexts, Prog.exec_zoom, hstore]
      exact ⟨_, rfl⟩
    obtain ⟨d', hd'⟩ := hupdate
    have hlogged : contextLogged (designContext printer time s c) = .ok () := rfl
    have hanswer : WellFormed fmt (.obj [("stored", .bool true), ("path", .str call.path)]) :=
      wellFormed_obj_iff.mpr ⟨by simp, by simp [WellFormed, Printable]⟩
    refine ⟨_, ?_, hanswer, rfl, rfl⟩
    rw [Prog.exec_bind_ok (Prog.exec_ofExcept _ _), Prog.exec_bind_ok hsession, Prog.exec_bind_ok hd', hlogged]
    rfl

/-- An export stores the context of the cellview that is edited and returns `t`, if there is one whose payload is
accepted; else it changes nothing. -/
theorem vfpExportDesignContext_cases (hworks : call.Works fmt) (s : SchSession ι) (d : Daemon) :
    (∃ c, vfpGetCurrentCellView s = some c ∧ call.Accepts printer s c ∧
      vfpExportDesignContext fmt printer printG call s d =
        (true, ((mContextUpdate call.env call.path (contextParams printer call.time s c)).exec d).2) ∧
      contextToStore call.env (contextParams printer call.time s c) d.tunnel =
        some (designContext printer call.time s c)) ∨
    (∀ c, vfpGetCurrentCellView s = some c → ¬ call.Accepts printer s c) ∧
      vfpExportDesignContext fmt printer printG call s d = (false, d) := by
  unfold vfpExportDesignContext
  rw [vfpExtractDesignContext_eq]
  cases hcurrent : vfpGetCurrentCellView s with
  | none => exact .inr ⟨fun c h => (by cases h), rfl⟩
  | some c =>
    have hother : ¬ call.Accepts printer s c → ∀ c', some c = some c' → ¬ call.Accepts printer s c' := by
      rintro hnot c' heq
      rwa [← Option.some.inj heq]
    rw [Option.map_some]
    dsimp only
    cases hwritable : call.writable with
    | false => exact .inr ⟨hother fun h => by simp [h.1] at hwritable, rfl⟩
    | true =>
      rw [if_pos rfl]
      have hplain : Plainly fmt (.obj (contextParams printer call.time s c)) :=
        plainly_obj (by simp [contextParams]) (by simp [contextParams, plainly_designContext])
      have htree : Encoder.vfpJObj [.str "context", Encoder.treeOf (.obj (designContext printer call.time s c))] =
          Encoder.treeOf (.obj (contextParams printer call.time s c)) := by
        rw [contextParams, treeOf_obj]
        rfl
      have hloads := @Encoder.loads_vfpToJson_eq fmt _ printer.printL printG hplain.1
      rw [Encoder.dictOf_of_wellFormed _ hplain.2] at hloads
      have hfile : (call.written printer printG
          (Encoder.treeOf (.obj (designContext printer call.time s c)))).files call.pf =
          some (Encoder.vfpToJson printer.printL printG
            (Encoder.treeOf (.obj (contextParams printer call.time s c)))) := by
        rw [← htree]
        exact Function.update_self _ _ _
      have hreach : Reachable { call.setup with rpcSeq := call.setup.rpcSeq + 1 } (call.written printer printG
          (Encoder.treeOf (.obj (designContext printer call.time s c)))) :=
        ⟨hworks.reach.root, hworks.reach.python, hworks.reach.tmp, hworks.reach.cuts⟩
      have hoption : isOption rpcContextUpdate.name = false := by decide
      have hsame : sendable (.obj (contextParams printer call.time s c)) =
          sendable (.obj (designContext printer call.time s c)) := by
        have hkey : "context".toList.any rawControl = false := by decide
        show (!"context".toList.any rawControl && sendable (.obj (designContext printer call.time s c)) &&
          sendableMembers []) = _
        rw [hkey, Bool.not_false, Bool.true_and, sendableMembers, Bool.and_true]
      rw [hsame] at hloads
      cases hsend : sendable (.obj (designContext printer call.time s c)) with
      | false =>
        rw [hsend] at hloads
        rw [vfpRpcExec_unsendable hreach hoption (plainWord_pf hworks) hfile hloads]
        exact .inr ⟨hother fun h => by simp [h.2.1] at hsend, rfl⟩
      | true =>
        rw [hsend, if_pos rfl] at hloads
        have hlookup : (contextDispatcher call.env call.path call.str).methods.lookup rpcContextUpdate.name =
            some (mContextUpdate call.env call.path) := rfl
        have hexec := vfpRpcExec_file hreach hoption (by decide) (plainWord_pf hworks) hfile hloads hplain.2 hlookup d
        have hencodes : Encodes call.around.stdout call.env.strExc
            ((mContextUpdate call.env call.path (contextParams printer call.time s c)).exec d).1 :=
          hworks.encodes (designContext printer call.time s c) d
        rcases @contextUpdate_cases ι fmt printer call s hworks call.time c d
          with ⟨answer, hanswer, hwell, hvalid, hstored⟩ | ⟨e, herror, htrans, hrefused⟩
        · left
          rw [hanswer] at hexec hencodes
          rw [hexec hwell hencodes]
          exact ⟨c, rfl, ⟨hwritable, hsend, hvalid⟩, rfl, hstored⟩
        · right
          rw [herror] at hexec hencodes
          rw [hexec htrans hencodes]
          refine ⟨hother fun h => hrefused h.2.2, ?_⟩
          cases e <;> rfl

/-- An agent is given the latest context. -/
theorem contextGet_eq {env : Tunnel.Env} {path id : String} {str : Json → String}
    {cut : List UInt8 → List (List UInt8)} (hcut : Cuts cut)
    (hlatest : ∀ context, d.contexts.latest = some context → WellFormed fmt (.obj context)) :
    contextGet fmt env path str cut id d = .ok ((d.contexts.latest.map .obj).getD .null) := by
  have hwell : WellFormed fmt ((d.contexts.latest.map Json.obj).getD .null) := by
    cases hcontext : d.contexts.latest with
    | none => trivial
    | some context => exact hlatest context hcontext
  have htrans : Transmissible fmt ((mContextGet []).exec d).1 :=
    wellFormed_obj_iff.mpr ⟨by simp, by simpa using hwell⟩
  have hcall := @call_eq _ fmt (contextDispatcher env path str) "design.context.get" [] mContextGet d cut id
    wellFormed_empty rfl htrans hcut
  rw [contextGet, hcall]
  rfl

end Calls

section Runs

/-- A designer's session, and the daemon with its files. -/
structure ExportWorld (ι : Type) where
  session : SchSession ι
  archive : Archive

/-- The designer works or exports the context, or the daemon serves another request, goes on with a job or is
restarted. -/
inductive ExportInput (ι : Type) where
  | work (session : SchSession ι)
  | send (call : ExportCall)
  | daemon (i : ArchiveInput)

variable {ι : Type} (fmt : FloatFormat) (home : Place) (printer : Printer) (printG : ℚ → String)

/-- One step, and whether an export returned `t`. -/
def ExportWorld.step : ExportInput ι → ExportWorld ι → Bool × ExportWorld ι
  | .work session, w => (false, { w with session := session })
  | .send call, w =>
    let out := vfpExportDesignContext fmt printer printG call w.session w.archive.daemon
    (out.1, { w with
      archive := ⟨out.2, w.archive.runners, Archive.flush home w.archive.daemon out.2 w.archive.files⟩ })
  | .daemon i, w => (false, { w with archive := (Archive.step home i w.archive).2 })

/-- The daemon is started over files without a latest context. -/
def exportMachine : Machine (ExportWorld ι) (ExportInput ι) Bool where
  init w := (archive home).init w.archive ∧ w.archive.files (latestFile home) = none
  step := ExportWorld.step fmt home printer printG

/-- The context that a step stored, for the cellview that was edited or for another client. -/
def storedContext (e : Entry (ExportWorld ι) (ExportInput ι) Bool) : Option Obj :=
  match e.input with
  | .work _ => none
  | .send call =>
    if e.output then (vfpGetCurrentCellView e.before.session).map (designContext printer call.time e.before.session)
    else none
  | .daemon i => (e.before.archive.contextStored i).map Prod.snd

/-- The disk works, exports can be made, and what other clients send are values. -/
def Admits (_w : ExportWorld ι) : ExportInput ι → Prop
  | .work _ => True
  | .send call => call.Works fmt
  | .daemon i => Placed home i ∧ ∀ env path params, i = .contextUpdate env path params → WellFormed fmt (.obj params)

/-- In every state of a run the latest context is the one that was stored last, in memory and on the disk. -/
structure UpToContext (h : List (Entry (ExportWorld ι) (ExportInput ι) Bool)) (w : ExportWorld ι) : Prop where
  inPlace : w.archive.InPlace home
  latest : w.archive.daemon.contexts.latest = (h.filterMap (storedContext printer)).getLast?
  value : ∀ context, w.archive.daemon.contexts.latest = some context → WellFormed fmt (.obj context)

variable {fmt home printer printG} {w : ExportWorld ι} {i : ExportInput ι}
  {h : List (Entry (ExportWorld ι) (ExportInput ι) Bool)}

/-- What a step stores becomes the latest context; else that stays. -/
theorem getLast?_storedContext (h : List (Entry (ExportWorld ι) (ExportInput ι) Bool))
    (e : Entry (ExportWorld ι) (ExportInput ι) Bool) :
    ((h ++ [e]).filterMap (storedContext printer)).getLast? =
      (storedContext printer e).or (h.filterMap (storedContext printer)).getLast? := by
  rw [List.filterMap_append]
  cases hstored : storedContext printer e with
  | none => simp [hstored]
  | some context => simp [hstored]

/-- A step that is a request for the daemon, and stores what that request stores, keeps all up to date. -/
theorem UpToContext.request (hup : UpToContext fmt home printer h w) {request : ArchiveInput}
    (hplaced : Placed home request)
    (harchive : ((exportMachine fmt home printer printG).step i w).2.archive =
      (Archive.step home request w.archive).2)
    (hstored : storedContext printer ((exportMachine fmt home printer printG).fire w i) =
      (w.archive.contextStored request).map Prod.snd)
    (hvalue : ∀ context, storedContext printer ((exportMachine fmt home printer printG).fire w i) = some context →
      WellFormed fmt (.obj context)) :
    UpToContext fmt home printer (h ++ [(exportMachine fmt home printer printG).fire w i])
      ((exportMachine fmt home printer printG).step i w).2 := by
  obtain ⟨hin, hlatest⟩ := inPlace_step hplaced hup.inPlace
  rw [← hstored, hup.latest, ← getLast?_storedContext] at hlatest
  refine ⟨harchive ▸ hin, ?_, fun context hcontext => ?_⟩
  · rw [harchive]
    exact hlatest
  · rw [harchive, hlatest, getLast?_storedContext] at hcontext
    cases hnew : storedContext printer ((exportMachine fmt home printer printG).fire w i) with
    | some new =>
      rw [hnew] at hcontext
      obtain rfl : new = context := Option.some.inj hcontext
      exact hvalue new hnew
    | none =>
      rw [hnew, Option.none_or, ← hup.latest] at hcontext
      exact hup.value context hcontext

/-- What a client stores was in its request. -/
theorem get_of_contextToStore {env : Tunnel.Env} {params : Obj} {t : Tunnel} {context : Obj}
    (h : contextToStore env params t = some context) : Obj.get params "context" = .obj context := by
  unfold contextToStore at h
  split at h
  · rename_i found hget
    split at h
    · rw [hget, Option.some.inj h]
    · cases h
  · cases h

/-- Every step keeps the latest context up to date. -/
theorem UpToContext.step (hup : UpToContext fmt home printer h w) (hadmits : Admits fmt home w i) :
    UpToContext fmt home printer (h ++ [(exportMachine fmt home printer printG).fire w i])
      ((exportMachine fmt home printer printG).step i w).2 := by
  cases i with
  | work session =>
    have hnone : storedContext printer ((exportMachine fmt home printer printG).fire w (.work session)) = none := rfl
    refine ⟨hup.inPlace, ?_, hup.value⟩
    rw [getLast?_storedContext, hnone, Option.none_or]
    exact hup.latest
  | send call =>
    have hplaced : ∀ params, Placed home (.contextUpdate call.env call.path params) := fun params =>
      ⟨hadmits.host, fun _ _ _ h => (by cases h)⟩
    have hfire : storedContext printer ((exportMachine fmt home printer printG).fire w (.send call)) =
        if (vfpExportDesignContext fmt printer printG call w.session w.archive.daemon).1 then
          (vfpGetCurrentCellView w.session).map (designContext printer call.time w.session) else none := rfl
    rcases @vfpExportDesignContext_cases _ fmt printer printG _ hadmits w.session w.archive.daemon
      with ⟨c, hcurrent, _, hexport, hstored⟩ | ⟨_, hexport⟩
    · rw [hexport, if_pos rfl, hcurrent, Option.map_some] at hfire
      refine hup.request (hplaced (contextParams printer call.time w.session c)) ?_ ?_ fun context hcontext => ?_
      · show (⟨(vfpExportDesignContext fmt printer printG call w.session w.archive.daemon).2, _, _⟩ : Archive) = _
        rw [hexport]
        rfl
      · rw [hfire, Archive.contextStored, hstored]
        rfl
      · rw [hfire] at hcontext
        obtain rfl := Option.some.inj hcontext
        exact (plainly_designContext call.time w.session c).2
    · -- nothing reached the store, as after a request without a context
      rw [hexport, if_neg Bool.false_ne_true] at hfire
      refine hup.request (hplaced []) ?_ ?_ fun context hcontext => ?_
      · show (⟨(vfpExportDesignContext fmt printer printG call w.session w.archive.daemon).2, _, _⟩ : Archive) = _
        rw [hexport]
        rfl
      · rw [hfire]
        rfl
      · rw [hfire] at hcontext
        cases hcontext
  | daemon request =>
    have hfire : storedContext printer ((exportMachine fmt home printer printG).fire w (.daemon request)) =
        (w.archive.contextStored request).map Prod.snd := rfl
    refine hup.request hadmits.1 rfl hfire fun context hcontext => ?_
    rw [hfire] at hcontext
    cases request with
    | contextUpdate env path params =>
      have hparams : WellFormed fmt (.obj params) := hadmits.2 env path params rfl
      have hstored : contextToStore env params w.archive.daemon.tunnel = some context := by
        simpa [Archive.contextStored] using hcontext
      have hget := get_of_contextToStore hstored
      exact hget ▸ hparams.get "context"
    | _ => cases hcontext

/-- A run begins with no context stored, and stays up to date. -/
theorem upToContext_of_run (hrun : Run (exportMachine fmt home printer printG) (Admits fmt home) h w) :
    UpToContext fmt home printer h w := by
  induction hrun with
  | init hinit =>
    obtain ⟨hin, hlatest⟩ := inPlace_init hinit.1 hinit.2
    exact ⟨hin, hlatest, fun context hcontext => by rw [hlatest] at hcontext; cases hcontext⟩
  | step _ hadmits ih => exact ih.step hadmits

/-- In every run in which a designer works and exports, other clients make requests, jobs go on and the tunnel is
restarted: `context_get` gives an agent the context that was stored last, or none. An export returns `t` exactly if
a cellview is edited whose payload can be written and read and is accepted, and what it then stored describes that
cellview as it was at that moment: its instances with masters, parameters and nets, its ports and nets, the auto-named
nets without a label, the terminals that are connected to nothing else, and whether anything is unsaved. -/
theorem agent_reads_exported (hrun : Run (exportMachine fmt home printer printG) (Admits fmt home) h w) :
    (∀ env path str cut id, Cuts cut → contextGet fmt env path str cut id w.archive.daemon =
      .ok (((h.filterMap (storedContext printer)).getLast?.map .obj).getD .null)) ∧
    ∀ e ∈ h, ∀ call, e.input = .send call →
      (e.output = true ↔ ∃ c, vfpGetCurrentCellView e.before.session = some c ∧
        call.Accepts printer e.before.session c) ∧
      (e.output = true → ∃ c context, vfpGetCurrentCellView e.before.session = some c ∧
        storedContext printer e = some context ∧ Describes printer e.before.session c context) := by
  have hup := upToContext_of_run hrun
  refine ⟨fun env path str cut id hcut => ?_, fun e he call hsend => ?_⟩
  · rw [contextGet_eq hcut hup.value, hup.latest]
  · obtain ⟨_, _, _, _, hadmits, hfire⟩ := hrun.split_of_mem he
    rw [hsend] at hadmits hfire
    have houtput : e.output =
        (vfpExportDesignContext fmt printer printG call e.before.session e.before.archive.daemon).1 := by
      rw [hfire]
      rfl
    have hstored : storedContext printer e = if e.output then
        (vfpGetCurrentCellView e.before.session).map (designContext printer call.time e.before.session)
        else none := by
      rw [storedContext, hsend]
    rw [hstored, houtput]
    rcases @vfpExportDesignContext_cases _ fmt printer printG _ hadmits e.before.session
      e.before.archive.daemon with ⟨c, hcurrent, haccepts, hexport, _⟩ | ⟨hrefuses, hexport⟩
    · rw [hexport, hcurrent]
      refine ⟨iff_of_true rfl ⟨c, rfl, haccepts⟩, fun _ => ?_⟩
      exact ⟨c, _, rfl, rfl, describes_designContext call.time e.before.session c⟩
    · rw [hexport]
      refine ⟨iff_of_false Bool.false_ne_true ?_, fun h => absurd h Bool.false_ne_true⟩
      rintro ⟨c, hcurrent, haccepts⟩
      exact hrefuses c hcurrent haccepts

/-- A source whose terminal is on an automatic net. -/
def sampleSource : SchInst ℕ where
  name := "V0"
  libName := "analogLib"
  cellName := "vsource"
  viewName := "symbol"
  master := some 1
  prop := []
  instTerms := [("PLUS", some "net1")]
  distinctProps := List.nodup_nil
  distinctTerms := List.nodup_singleton _
  namedNets := by simp
  cdf := none
  distinctCdf := List.nodup_nil

/-- A bench with nothing but the source, and the symbol of the source. -/
def sampleLonelyBench : SchSession ℕ where
  cellView
    | 0 => ⟨"lib", "bench", "schematic", [sampleSource], [⟨"net1", []⟩], [], by decide, by decide, by decide,
        by simp [sampleSource]⟩
    | _ => ⟨"analogLib", "vsource", "symbol", [], [], [⟨"PLUS", .str "inputOutput", none⟩], by decide, by decide,
        by decide, by simp⟩
  modified _ := false
  current := some 0
  windows := []

example : vfpLintTestbench sampleLonelyBench 0 = [⟨.danglingSource, "V0.PLUS", some "net1"⟩] := by decide

/-- An export of it. -/
def sampleExport : ExportCall :=
  ⟨.sample, "latest_context.json", fun _ => "", .sample, sampleSurroundings, "Jun 13 14:30:05 2026", true⟩

/-- The designer at the bench, and a daemon without files. -/
def sampleExporting : ExportWorld ℕ := ⟨sampleLonelyBench, sampleArchive⟩

/-- The export of the samples can be made. -/
theorem works_sampleExport : sampleExport.Works .sample where
  host := workingHost_sample
  reach := ⟨by decide, by decide, by decide, cuts_bytewise⟩
  tmp := by decide
  encodes _ _ := encodes_unicode
  refusal _ _ _ _ h := by cases h

/-- Its payload is accepted. -/
theorem accepts_sampleExport : sampleExport.Accepts .sample sampleLonelyBench 0 := by
  refine ⟨rfl, ?_, rfl⟩
  have hfingerprint : vfpInputsFingerprint .sample (some (sampleLonelyBench.cellView 0).sim) "" =
      "test=;conn=V0.PLUS=net1;params=V0:vsource[]" := by
    simp [vfpInputsFingerprint, sampleLonelyBench, SchCellView.sim, SimCellView.terms, SimCellView.parts, sortNames,
      netLine, partText, vfpToStr, sampleSource]
  have hpreflight : vfpSimPreflight .sample sampleLonelyBench.views (some 0) "" =
      ⟨true, false, "lib/bench/schematic", "test=;conn=V0.PLUS=net1;params=V0:vsource[]", ""⟩ := by
    rw [← hfingerprint]
    rfl
  unfold designContext
  rw [hpreflight]
  decide

/-- The export is received and `context_get` gives a context of the bench. -/
theorem agent_reads_exported_sample : ∃ context,
    contextGet .sample Env.sample "latest_context.json" (fun _ => "") bytewise "4f1c"
      ((exportMachine .sample sampleVfpHome .sample (fun _ => "")).last sampleExporting
        [.send sampleExport]).archive.daemon = .ok (.obj context) ∧
      Describes .sample sampleLonelyBench 0 context := by
  have hinit : Run (exportMachine .sample sampleVfpHome .sample fun _ => "") (Admits .sample sampleVfpHome) []
      sampleExporting := by
    refine .init ⟨⟨rfl, ⟨?_, ?_⟩, [], [], Tunnel.fresh .empty, rfl⟩, rfl⟩
    · intro name j hfile
      cases hfile
    · intro name r hfile
      cases hfile
  have hadmits : Admits .sample sampleVfpHome sampleExporting (.send sampleExport) := works_sampleExport
  have hrun := hinit.step hadmits
  obtain ⟨hget, hexports⟩ := agent_reads_exported hrun
  obtain ⟨hreturned, hdescribes⟩ := hexports _ List.mem_cons_self sampleExport rfl
  obtain ⟨c, context, hcurrent, hstored, hcontext⟩ := hdescribes (hreturned.mpr ⟨0, rfl, accepts_sampleExport⟩)
  obtain rfl : 0 = c := Option.some.inj hcurrent
  refine ⟨context, ?_, hcontext⟩
  have hlatest := hget Env.sample "latest_context.json" (fun _ => "") bytewise "4f1c" cuts_bytewise
  rw [List.nil_append, List.filterMap_cons, hstored] at hlatest
  exact hlatest

end Runs

end VirtuosoFlow.Plugin
