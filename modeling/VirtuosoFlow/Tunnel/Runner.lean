import VirtuosoFlow.Tunnel.Daemon

/-!
# The job runner

`sim/runner.py`. A runner thread shares the stores with the request handlers and
takes no lock across its steps, so the model cuts `JobRunner.run` where other
requests can come in between: at every access to a store and around every command.
`RunPoint` names the places between the cuts together with the local variables that
are live there.
-/

namespace VirtuosoFlow.Tunnel

open Base

/-- How a command ended. -/
inductive CommandOutcome where
  | timedOut
  | launchFailed (reason : String)
  | exited (code : ℤ) (log : String)

/-- The metrics file a command leaves in the run's directory. -/
inductive MetricsFile where
  | missing
  /-- Finding out whether the file is there raises this `OSError`. -/
  | inaccessible (m : Message)
  | unreadable (e : PyExc)
  | contents (text : String)

/-- What one step of a runner finds outside the stores. -/
structure World where
  env : Env
  netlist : CommandOutcome
  simulator : CommandOutcome
  metricsFile : MetricsFile

/-- Where a runner stands. -/
inductive RunPoint where
  | lookup
  | createRun (job : Obj)
  | markRunning (job : Obj) (rid : Json)
  | setRunning (job : Obj) (rid : Json)
  | context (job : Obj) (rid : Json)
  | netlist (job : Obj) (rid : Json) (vars : List String)
  | attachNetlist (job : Obj) (rid : Json) (vars : List String) (code : ℤ) (log : String)
  | simulate (job : Obj) (rid : Json) (vars : List String)
  | attachLog (job : Obj) (rid : Json) (code : ℤ) (log : String)
  | readMetrics (job : Obj) (rid : Json)
  | storeResult (rid : Json) (result : Obj)
  | linkResult (rid : Json) (result : Obj)
  | setDone (rid : Json) (result : Obj)
  | markDone (rid : Json) (result : Obj)
  | emitResult (rid : Json) (result job : Obj)
  | emitDone (rid : Json) (result job : Obj)
  | failRun (rid error : Json)
  | failJob (error : Json)
  | emitFailed (error : Json) (job : Obj)
  | returned (job : Obj)
  | raised (e : PyExc)

/-- The values of the environment variables that `_job_context` takes from the job. -/
def jobContext (env : Env) (job : Obj) : Except PyExc (List String) := do
  let cv := pyOr (Obj.get job "cellview") (.obj [])
  let lib ← attrGet cv "lib"
  let cell ← attrGet cv "cell"
  let view ← attrGet cv "view"
  return [Obj.get job "job_id", lib, cell, view, Obj.get job "test",
    Obj.get job "inputs_fingerprint", Obj.get job "saved_at"].map fun v =>
      env.format (pyOr v (.str ""))

/-- `subprocess.run`: an argument or variable that cannot be handed to a process is refused,
with an exception the runner does not catch. -/
def runCommand (env : Env) (command vars : List String) (outcome : CommandOutcome) :
    Except PyExc CommandOutcome :=
  match (command ++ vars).findSome? env.nameError with
  | some e => .error e
  | none => .ok outcome

/-- The result record of a parsed metrics file, before `make_result`. -/
def resultData (job parsed : Obj) (metrics : Json) : Obj :=
  let data : Obj := [("metrics", metrics), ("source", .str "spectre"),
    ("test", Obj.get job "test"), ("cellview", Obj.get job "cellview")]
  let data := ["provenance", "metric_quality"].foldl (fun data key =>
    if (Obj.get parsed key).truthy then Obj.set data key (Obj.get parsed key) else data) data
  let session := Obj.get job "session"
  let fingerprint := Obj.get job "session_fingerprint"
  if session.truthy || fingerprint.truthy then
    let prov := match Obj.get data "provenance" with
      | .obj members => members
      | _ => []
    let prov := if session.truthy then Obj.set prov "session" session else prov
    let prov := if fingerprint.truthy then Obj.set prov "session_fingerprint" fingerprint else prov
    Obj.set data "provenance" (.obj prov)
  else data

/-- From the metrics file to the result to store, or the text of the failure. Only the parser
stands inside the `try`: an exception of `mpath.exists()` leaves the runner. -/
def readResult (w : World) (job : Obj) : Except PyExc (String ⊕ Obj) :=
  let failed (e : PyExc) : Except PyExc (String ⊕ Obj) :=
    if isReadError e then .ok (.inl ("could not parse metrics: " ++ w.env.strExc e)) else .error e
  match w.metricsFile with
  | .missing => .ok (.inl ("simulator produced no metrics file (" ++ w.env.simMetricsFile ++ ")"))
  | .inaccessible m => .error (.osError m)
  | .unreadable e => failed e
  | .contents text =>
    match parseResultFile w.env text with
    | .error e => failed e
    | .ok parsed =>
      let metrics := pyOr (Obj.get parsed "metrics") (.obj [])
      if metrics.truthy then .ok (.inr (makeResult w.env (resultData job parsed metrics)))
      else .ok (.inl ("no metrics parsed from " ++ w.env.simMetricsFile))

/-- Where the end of the netlist command leads. -/
def afterNetlist (env : Env) (job : Obj) (rid : Json) (vars : List String) :
    CommandOutcome → RunPoint
  | .timedOut =>
    .failRun rid (.str ("netlist step timed out after " ++ toString env.simTimeout ++ "s"))
  | .launchFailed reason => .failRun rid (.str ("could not launch netlist: " ++ reason))
  | .exited code log => .attachNetlist job rid vars code log

/-- Where the end of the simulator leads. -/
def afterSimulator (env : Env) (job : Obj) (rid : Json) : CommandOutcome → RunPoint
  | .timedOut =>
    .failRun rid (.str ("simulator timed out after " ++ toString env.simTimeout ++ "s"))
  | .launchFailed reason => .failRun rid (.str ("could not launch simulator: " ++ reason))
  | .exited code log => .attachLog job rid code log

/-- Where reading the metrics file leads. -/
def afterReading (rid : Json) : String ⊕ Obj → RunPoint
  | .inl error => .failRun rid (.str error)
  | .inr result => .storeResult rid result

/-- One step of `JobRunner.run(job_id, command)`: the point it leads to. -/
def runnerStep (w : World) (jobId : Json) (command : List String) :
    RunPoint → Prog PyExc Tunnel RunPoint
  | .lookup => do
    match ← onJobs (JobStore.get jobId) with
    | none => throw (.keyError (.text "unknown job_id: %s" [jobId]))
    | some job => return .createRun job
  | .createRun job => do
    let run ← onRuns (RunStore.create w.env [("test", Obj.get job "test"),
      ("cellview", Obj.get job "cellview"), ("job_id", jobId)])
    return .markRunning job (Obj.get run "run_id")
  | .markRunning job rid => do
    let _ ← onJobs (JobStore.markRunning w.env jobId)
    return .setRunning job rid
  | .setRunning job rid => do
    let _ ← onRuns (RunStore.setStatus w.env rid (.str "running"))
    return .context job rid
  | .context job rid => do
    let vars ← Prog.ofExcept (jobContext w.env job)
    return .netlist job rid vars
  | .netlist job rid vars =>
    match w.env.netlistCmd with
    | none => return .simulate job rid vars
    | some ncmd => do
      let outcome ← Prog.ofExcept (runCommand w.env ncmd vars w.netlist)
      return afterNetlist w.env job rid vars outcome
  | .attachNetlist job rid vars code log => do
    (onRuns (RunStore.attachText w.env rid "netlistlog" "netlist.log" log)).suppress isFileError
    return if code = 0 then .simulate job rid vars
      else .failRun rid (.str ("netlist command exited " ++ toString code))
  | .simulate job rid vars => do
    let outcome ← Prog.ofExcept (runCommand w.env command vars w.simulator)
    return afterSimulator w.env job rid outcome
  | .attachLog job rid code log => do
    (onRuns (RunStore.attachText w.env rid "log" "sim.log" log)).suppress isFileError
    return if code = 0 then .readMetrics job rid
      else .failRun rid (.str ("simulator exited " ++ toString code))
  | .readMetrics job rid => do
    let reading ← Prog.ofExcept (readResult w job)
    return afterReading rid reading
  | .storeResult rid result => do
    onResults (ResultStore.update w.env result)
    return .linkResult rid result
  | .linkResult rid result => do
    let _ ← onRuns (RunStore.linkResult w.env rid (Obj.get result "result_id"))
    return .setDone rid result
  | .setDone rid result => do
    let _ ← onRuns (RunStore.setStatus w.env rid (.str "done"))
    return .markDone rid result
  | .markDone rid result => do
    let job ← onJobs (JobStore.markDone w.env jobId (Obj.get result "result_id") rid)
    return .emitResult rid result job
  | .emitResult rid result job => do
    emit w.env "result.updated" [("result_id", Obj.get result "result_id")]
    return .emitDone rid result job
  | .emitDone rid result job => do
    emit w.env "job.done" [("job_id", jobId), ("result_id", Obj.get result "result_id"),
      ("run_id", rid)]
    return .returned job
  -- `_fail(job_id, run_id, error)`
  | .failRun rid error => do
    (onRuns (RunStore.setStatus w.env rid (.str "failed"))).suppress isLookupError
    return .failJob error
  | .failJob error => do
    let job ← onJobs (JobStore.markFailed w.env jobId error)
    return .emitFailed error job
  | .emitFailed error job => do
    emit w.env "job.failed" [("job_id", jobId), ("error", error)]
    return .returned job
  | .returned job => return .returned job
  | .raised e => return .raised e

/-- A runner thread: the arguments of `run` and where it stands. -/
structure Runner where
  jobId : Json
  command : List String
  point : RunPoint

/-- Let a runner take one step; an exception ends it. -/
def Runner.advance (w : World) (r : Runner) (t : Tunnel) : Runner × Tunnel :=
  match (runnerStep w r.jobId r.command r.point).exec t with
  | (.ok point, t') => ({ r with point := point }, t')
  | (.error e, t') => ({ r with point := .raised e }, t')

end VirtuosoFlow.Tunnel
