import VirtuosoFlow.Tunnel.Daemon
import Mathlib.Data.String.Basic

/-!
# Contexts, results and imported runs

The handlers that replace the latest context (`design/context.py`) and the latest result
(`sim/manager.py`), with the check of constraints (`constraints/engine.py`) that may come
between. Both stores remember the new value before they write any file.
-/

namespace VirtuosoFlow.Tunnel

open Base

/-- The context store holds what the result store holds. -/
abbrev ContextStore := ResultStore

/-- The `update` of both stores: the latest value in memory, its file, and a dated copy. -/
def updateLatest (env : Env) (kind : String) (value : Obj) : Prog PyExc ResultStore Unit := do
  if !env.dirsOk then throw (.osError (.text (kind ++ "s") []))
  modify fun st => { st with latest := some value }
  let latest := "latest_" ++ kind ++ ".json"
  if !env.writable latest then throw (.osError (.text latest []))
  modify fun st => { st with latestFile := some value }
  let name := kind ++ "_" ++ env.fileStamp env.now ++ ".json"
  if !env.writable name then throw (.osError (.text name []))
  modify fun st => { st with history := st.history ++ [(name, value)] }

/-- `update(context)`. -/
def ContextStore.update (env : Env) (context : Obj) : Prog PyExc ContextStore Unit :=
  updateLatest env "context" context

/-- An update is one of the latest value. -/
theorem ResultStore.update_eq (env : Env) (result : Obj) :
    ResultStore.update env result = updateLatest env "result" result := rfl

/-- The two files of `update` can be written. -/
def LatestWritable (env : Env) (kind : String) : Prop :=
  env.writable ("latest_" ++ kind ++ ".json") = true ∧
    env.writable (kind ++ "_" ++ env.fileStamp env.now ++ ".json") = true

instance (env : Env) (kind : String) : Decidable (LatestWritable env kind) := inferInstanceAs (Decidable (_ ∧ _))

section Update

variable {env : Env} {kind : String} {value : Obj} {st : ResultStore}

/-- Without a directory an update raises and changes nothing. -/
theorem updateLatest_noDirs (h : env.dirsOk = false) :
    (updateLatest env kind value).exec st = (.error (.osError (.text (kind ++ "s") [])), st) := by
  unfold updateLatest
  rw [h]
  rfl

/-- With its directory there, `update` replaces the latest value first; then a file that cannot be
written raises. -/
theorem updateLatest_latest (h : env.dirsOk = true) :
    ((updateLatest env kind value).exec st).2.latest = some value ∧
      (((updateLatest env kind value).exec st).1.isOk = true ↔ LatestWritable env kind) := by
  unfold updateLatest LatestWritable
  simp only [h, Bool.not_true, Bool.false_eq_true, if_false, Prog.exec_bind, Prog.exec_modify]
  cases hlatest : env.writable ("latest_" ++ kind ++ ".json") with
  | false => simp [Prog.exec_bind, Except.isOk, Except.toBool]
  | true =>
    cases hdated : env.writable (kind ++ "_" ++ env.fileStamp env.now ++ ".json") with
    | false => simp [Prog.exec_bind, Except.isOk, Except.toBool]
    | true => simp [Prog.exec_bind, Except.isOk, Except.toBool]

/-- What `update` can do: nothing without its directory; else it replaces the latest value, and returns
exactly if its files can be written. -/
theorem updateLatest_cases (env : Env) (kind : String) (value : Obj) (st : ResultStore) :
    (env.dirsOk = false ∧ ∃ e, (updateLatest env kind value).exec st = (.error e, st)) ∨
    (env.dirsOk = true ∧ LatestWritable env kind ∧ ∃ st', st'.latest = some value ∧
      (updateLatest env kind value).exec st = (.ok (), st')) ∨
    (env.dirsOk = true ∧ ¬ LatestWritable env kind ∧ ∃ e st', st'.latest = some value ∧
      (updateLatest env kind value).exec st = (.error e, st')) := by
  cases hdirs : env.dirsOk with
  | false => exact .inl ⟨rfl, _, updateLatest_noDirs hdirs⟩
  | true =>
    right
    have hupdate : ((updateLatest env kind value).exec st).2.latest = some value ∧
        (((updateLatest env kind value).exec st).1.isOk = true ↔ LatestWritable env kind) :=
      updateLatest_latest hdirs
    obtain ⟨hlatest, hok⟩ := hupdate
    cases hexec : (updateLatest env kind value).exec st with
    | mk r st' =>
      rw [hexec] at hlatest hok
      cases r with
      | ok u => exact .inl ⟨rfl, hok.mp rfl, st', hlatest, rfl⟩
      | error e =>
        right
        refine ⟨rfl, fun hwritable => ?_, e, st', hlatest, rfl⟩
        cases hok.mpr hwritable

end Update

namespace ConstraintEngine

/-- `v < w`. -/
def less (v w : Json) : Except PyExc Bool :=
  match v.lt? w with
  | some b => .ok b
  | none => .error .typeError

/-- The condition `bound is not None and ...` of a comparison with a bound. -/
def beyond (bound : Json) (comparison : Except PyExc Bool) : Except PyExc Bool :=
  match bound with
  | .null => .ok false
  | _ => comparison

/-- `_evaluate_one(metric, value, spec)`. -/
def evaluateOne (env : Env) (metric : String) (value spec : Json) : Except PyExc Obj :=
  match value with
  | .null => .ok [("metric", .str metric), ("status", .str "fail"), ("reason", .str "not reported")]
  | _ => do
    let lo ← attrGet spec "min"
    let hi ← attrGet spec "max"
    let failed (comparison : String) (bound : Json) : Obj :=
      [("metric", .str metric), ("value", value), ("status", .str "fail"),
        ("reason", .str (env.format value ++ comparison ++ env.format bound))]
    if ← beyond lo (less value lo) then return failed " < min " lo
    if ← beyond hi (less hi value) then return failed " > max " hi
    return [("metric", .str metric), ("value", value), ("status", .str "pass")]

/-- `check(metrics, limits)`. -/
def check (env : Env) (metrics limits : Obj) : Except PyExc Obj := do
  let names := (limits.map Prod.fst).mergeSort fun a b => decide (a ≤ b)
  let items ← names.mapM fun metric =>
    evaluateOne env metric (Obj.get metrics metric) (pyOr (Obj.get limits metric) (.obj []))
  let overall := if items.all fun i => (Obj.get i "status").pyEq (.str "pass") then "pass" else "fail"
  return [("overall", .str overall), ("items", .arr (items.map .obj))]

end ConstraintEngine

/-- `result["metrics"]`; `make_result` makes it a dict. -/
def metricsOf (result : Obj) : Obj :=
  match Obj.get result "metrics" with
  | .obj metrics => metrics
  | _ => []

/-- The verdict on a result, where the request brings limits. -/
def withVerdict (env : Env) (params result : Obj) : Except PyExc Obj :=
  match Obj.get params "constraints" with
  | .obj limits => do
    let verdict ← ConstraintEngine.check env (metricsOf result) limits
    return Obj.set result "constraints" (.obj verdict)
  | _ => .ok result

/-- `_m_result_update`; `path` is where the latest result is written. -/
def mResultUpdate (env : Env) (path : String) (params : Obj) : Prog PyExc Tunnel Json :=
  match Obj.get params "result" with
  | .obj data => do
    let result ← Prog.ofExcept (withVerdict env params (makeResult env data))
    Prog.ofExcept (env.validate "result" result)
    onResults (ResultStore.update env result)
    emit env "result.updated" [("result_id", Obj.get result "result_id")]
    return .obj [("result", .obj result), ("path", .str path)]
  | _ => throw (rpcError invalidParams "params.result must be an object")

/-- The record of the run that `_m_run_import_result` is called for. -/
def findRun (params : Obj) : Prog PyExc Tunnel (Json × Obj) := do
  let rid ← requireId "run_id" params
  match ← onRuns (getRecord rid) with
  | some run => return (rid, run)
  | none => throw (rpcError notFound "unknown run_id: %s" [rid])

/-- The result that the metrics of a request make. -/
def importedResult (env : Env) (params metrics : Obj) : Except PyExc Obj := do
  let result ← withVerdict env params
    (makeResult env [("metrics", .obj metrics), ("source", Obj.getD params "source" (.str "ade"))])
  env.validate "result" result
  return result

/-- The stores and the events of an imported result. -/
def storeImported (env : Env) (rid : Json) (result : Obj) : Prog PyExc Tunnel Json := do
  let resultId := Obj.get result "result_id"
  onResults (ResultStore.update env result)
  let _ ← onRuns (RunStore.linkResult env rid resultId)
  let run ← onRuns (RunStore.setStatus env rid (.str "done"))
  emit env "result.updated" [("result_id", resultId)]
  emit env "run.done" [("run_id", rid), ("result_id", resultId)]
  return .obj [("run", .obj run), ("result", .obj result)]

/-- `_m_run_import_result`. -/
def mRunImportResult (env : Env) (params : Obj) : Prog PyExc Tunnel Json := do
  let found ← findRun params
  match Obj.get params "metrics" with
  | .obj metrics =>
    let result ← Prog.ofExcept (importedResult env params metrics)
    storeImported env found.1 result
  | _ => throw (rpcError invalidParams "params.metrics must be an object")

/-- The daemon, with the context store that no other request changes. -/
structure Daemon where
  tunnel : Tunnel
  contexts : ContextStore

/-- A request that the rest of the daemon serves. -/
def onTunnel {α : Type} (m : Prog PyExc Tunnel α) : Prog PyExc Daemon α :=
  m.zoom Daemon.tunnel fun t d => { d with tunnel := t }

/-- An operation of the context store. -/
def onContexts {α : Type} (m : Prog PyExc ContextStore α) : Prog PyExc Daemon α :=
  m.zoom Daemon.contexts fun c d => { d with contexts := c }

/-- The heartbeat of a request that names its session. -/
def touchSession (env : Env) (params : Obj) : Prog PyExc Tunnel Unit :=
  let sid := Obj.get params "session_id"
  if sid.truthy then onRegistry (Registry.touch env sid) else pure ()

/-- The log line of a stored context. -/
def contextLogged (context : Obj) : Except PyExc Unit := do
  let _ ← attrGet (Obj.getD context "cellview" (.obj [])) "lib"
  let _ ← pyLen (Obj.getD context "instances" (.arr []))

/-- `_m_context_update`; `path` is where the latest context is written. -/
def mContextUpdate (env : Env) (path : String) (params : Obj) : Prog PyExc Daemon Json :=
  match Obj.get params "context" with
  | .obj context => do
    Prog.ofExcept (env.validate "context" context)
    onTunnel (touchSession env params)
    onContexts (ContextStore.update env context)
    Prog.ofExcept (contextLogged context)
    return .obj [("stored", .bool true), ("path", .str path)]
  | _ => throw (rpcError invalidParams "params.context must be an object")

end VirtuosoFlow.Tunnel
