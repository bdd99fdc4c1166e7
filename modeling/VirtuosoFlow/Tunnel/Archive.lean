import VirtuosoFlow.Tunnel.Updates
import VirtuosoFlow.Tunnel.System
import VirtuosoFlow.Tunnel.Containment
import Mathlib.Logic.Function.Basic

/-!
# Results and contexts on disk

The requests that store results and contexts, and the runner threads that store results, over the files
below `vfp_home()`. A file is known by the value whose JSON text it holds. A restart ends the threads
and constructs the stores of results, contexts, jobs and runs from their files.
-/

namespace VirtuosoFlow.Tunnel

open Base Base.Posix

/-- The files, each with the value that was written to it. -/
abbrev Contents := Place → Option Json

/-- Writing some files below a directory, in turn. -/
def Contents.write (dir : Place) (writes : List (String × Json)) (files : Contents) : Contents :=
  writes.foldl (fun files w => Function.update files (locate dir w.1.toList) (some w.2)) files

/-- The name of the latest file of a store. -/
def latestName (kind : String) : String := "latest_" ++ kind ++ ".json"

/-- The name of the dated file of a store, `%s_%s.json` with `_stamp()`. -/
def datedName (env : Env) (kind : String) : String := kind ++ "_" ++ env.fileStamp env.now ++ ".json"

/-- `results_dir()` and `contexts_dir()`. -/
def storeOf (home : Place) (kind : String) : Place := storeDir home (kind ++ "s")

/-- The files that a store of latest values wrote between two states. The latest file comes first; a step
that does not write it leaves in it what it holds. -/
def latestWrites (kind : String) (before after : ResultStore) : List (String × Json) :=
  after.latestFile.toList.map (fun v => (latestName kind, .obj v)) ++
    (after.history.drop before.history.length).map fun w => (w.1, .obj w.2)

/-- `_load_latest()`. -/
def loadLatest (home : Place) (kind : String) (files : Contents) : ResultStore :=
  match files (storeOf home kind ++ [(latestName kind).toList]) with
  | some (.obj value) => ⟨some value, some value, []⟩
  | _ => ⟨none, none, []⟩

/-- What `_load()` of jobs and runs does with one file. -/
def loadRecord (field : String) (files : Contents) (records : Dict Key Obj) (path : Place) :
    Except PyExc (Dict Key Obj) :=
  match files path with
  | none => .ok records
  | some (.obj r) =>
    if (Obj.get r field).truthy then (hashKey (Obj.get r field)).map fun k => records.insert k r
    else .ok records
  | some _ => .error .attributeError

/-- `_load()`, given the files in some order. -/
def loadRecords (field : String) (files : Contents) (paths : List Place) : Except PyExc (Dict Key Obj) :=
  paths.foldlM (loadRecord field files) Dict.empty

/-- The daemon, its runner threads and the files. -/
structure Archive where
  daemon : Daemon
  runners : List Runner
  files : Contents

/-- The requests that store results and contexts or start a job, the steps of the runners, and restarts. -/
inductive ArchiveInput where
  | resultUpdate (env : Env) (path : String) (params : Obj)
  | runImportResult (env : Env) (params : Obj)
  | contextUpdate (env : Env) (path : String) (params : Obj)
  | jobRun (env : Env) (params : Obj)
  | advance (w : World) (i : ℕ)
  /-- A new process, with the names that `*.json` and `*/run.json` give, and all that is in no store here. -/
  | restart (jobs runs : List (List Char)) (others : Tunnel)

namespace Archive

variable (home : Place)

/-- `jobs_dir()` and `runs_dir()`. -/
def jobsDir : Place := storeDir home "jobs"

/-- `runs_dir()`. -/
def runsDir : Place := storeDir home "runs"

/-- The `run.json` in a directory below `runs_dir()`. -/
def runFile (name : List Char) : Place := runsDir home ++ [name, "run.json".toList]

/-- The disk after a step. -/
def flush (before after : Daemon) (files : Contents) : Contents :=
  let jobs := newWrites before.tunnel.jobs after.tunnel.jobs
  let runs := newWrites before.tunnel.runs after.tunnel.runs
  let results := latestWrites "result" before.tunnel.results after.tunnel.results
  let contexts := latestWrites "context" before.contexts after.contexts
  (((files.write (jobsDir home) jobs).write (runsDir home) runs).write (storeOf home "result") results).write
    (storeOf home "context") contexts

/-- The stores of a new process. -/
def reload (jobs runs : List (List Char)) (others : Tunnel) (files : Contents) : Except PyExc Daemon := do
  let jobs ← loadRecords "job_id" files (jobs.map fun name => jobsDir home ++ [name])
  let runs ← loadRecords "run_id" files (runs.map fun name => runFile home name)
  return ⟨{ others with jobs := ⟨jobs, []⟩, runs := ⟨runs, []⟩, results := loadLatest home "result" files },
    loadLatest home "context" files⟩

/-- A request is served. -/
def serve (request : Prog PyExc Daemon Json) (s : Archive) : Except PyExc Json × Archive :=
  ((request.exec s.daemon).1,
    ⟨(request.exec s.daemon).2, s.runners, flush home s.daemon (request.exec s.daemon).2 s.files⟩)

/-- One input. A process that cannot load a store does not start. -/
def step : ArchiveInput → Archive → Except PyExc Json × Archive
  | .resultUpdate env path params, s => serve home (onTunnel (mResultUpdate env path params)) s
  | .runImportResult env params, s => serve home (onTunnel (mRunImportResult env params)) s
  | .contextUpdate env path params, s => serve home (mContextUpdate env path params) s
  | .jobRun env params, s =>
    let out := serve home (onTunnel (handle env .jobRun params)) s
    (out.1, { out.2 with runners := s.runners ++ startedRunner env .jobRun params out.1 })
  | .advance w i, s =>
    match s.runners[i]? with
    | none => (.ok .null, s)
    | some r =>
      let next := r.advance w s.daemon.tunnel
      let after : Daemon := { s.daemon with tunnel := next.2 }
      (.ok .null, ⟨after, s.runners.set i next.1, flush home s.daemon after s.files⟩)
  | .restart jobs runs others, s =>
    match reload home jobs runs others s.files with
    | .ok d => (.ok .null, ⟨d, [], s.files⟩)
    | .error e => (.error e, s)

end Archive

/-- The result that a `result.update` request stores. -/
def updatedResult (env : Env) (params : Obj) : Except PyExc Obj :=
  match Obj.get params "result" with
  | .obj data => do
    let result ← withVerdict env params (makeResult env data)
    env.validate "result" result
    return result
  | _ => .error (rpcError invalidParams "params.result must be an object")

/-- The result that a `run.import_result` request stores, if the run is there. -/
def importToStore (env : Env) (params : Obj) (t : Tunnel) : Option Obj :=
  match ((findRun params).exec t).1, Obj.get params "metrics" with
  | .ok _, .obj metrics => (importedResult env params metrics).toOption
  | _, _ => none

/-- The context that a `design.context.update` request stores. -/
def contextToStore (env : Env) (params : Obj) (t : Tunnel) : Option Obj :=
  match Obj.get params "context" with
  | .obj context =>
    match env.validate "context" context, ((touchSession env params).exec t).1 with
    | .ok _, .ok _ => some context
    | _, _ => none
  | _ => none

/-- The result that a runner is about to store. -/
def RunPoint.toStore : RunPoint → Option Obj
  | .storeResult _ result => some result
  | _ => none

namespace Archive

/-- The result that an input stores in a state, if it stores one, and where it is served. -/
def resultToStore (s : Archive) : ArchiveInput → Option (Env × Obj)
  | .resultUpdate env _ params => (updatedResult env params).toOption.map (env, ·)
  | .runImportResult env params => (importToStore env params s.daemon.tunnel).map (env, ·)
  | .advance w i => (s.runners[i]?.bind fun r => r.point.toStore).map (w.env, ·)
  | _ => none

/-- The context that an input stores. -/
def contextStored (s : Archive) : ArchiveInput → Option (Env × Obj)
  | .contextUpdate env _ params => (contextToStore env params s.daemon.tunnel).map (env, ·)
  | _ => none

end Archive

section Writing

variable {dir : Place} {writes : List (String × Json)} {files : Contents} {p : Place}

/-- Files are written one part after the other. -/
theorem Contents.write_append (rest : List (String × Json)) :
    files.write dir (writes ++ rest) = (files.write dir writes).write dir rest := List.foldl_append

/-- A place that no write leads to is left alone. -/
theorem Contents.write_of_ne (h : ∀ w ∈ writes, locate dir w.1.toList ≠ p) : files.write dir writes p = files p := by
  induction writes generalizing files with
  | nil => rfl
  | cons w writes ih =>
    have hrest : ∀ w ∈ writes, locate dir w.1.toList ≠ p := fun w hw => h w (List.mem_cons_of_mem _ hw)
    have hhead : p ≠ locate dir w.1.toList := (h w List.mem_cons_self).symm
    rw [← List.singleton_append, Contents.write_append, ih hrest]
    exact Function.update_of_ne hhead _ _

/-- What is at a place afterwards was there before or was written. -/
theorem Contents.write_cases : files.write dir writes p = files p ∨
    ∃ w ∈ writes, locate dir w.1.toList = p ∧ files.write dir writes p = some w.2 := by
  induction writes generalizing files with
  | nil => exact .inl rfl
  | cons w writes ih =>
    rw [← List.singleton_append, Contents.write_append]
    rcases @ih (files.write dir [w]) with hsame | ⟨w', hw', hplace, hwritten⟩
    · rw [hsame]
      by_cases hplace : locate dir w.1.toList = p
      · refine .inr ⟨w, List.mem_cons_self, hplace, ?_⟩
        rw [← hplace]
        exact Function.update_self _ _ _
      · exact .inl (Function.update_of_ne (Ne.symm hplace) _ _)
    · exact .inr ⟨w', List.mem_cons_of_mem _ hw', hplace, hwritten⟩

/-- The last write stays. -/
theorem Contents.write_last (w : String × Json) :
    files.write dir (writes ++ [w]) (locate dir w.1.toList) = some w.2 := by
  rw [Contents.write_append]
  exact Function.update_self _ _ _

/-- A place lies in one store's directory at most. -/
theorem storeDir_unique {home : Place} {a b : String} (ha : Inside (storeDir home a) p)
    (hb : Inside (storeDir home b) p) :
    a = b := by
  have hlength : (storeDir home a).length = (storeDir home b).length := by simp [storeDir]
  have hdir : storeDir home a = storeDir home b :=
    (List.prefix_of_prefix_length_le ha hb hlength.le).eq_of_length hlength
  have hname := List.append_cancel_left hdir
  exact String.toList_inj.mp (List.singleton_inj.mp hname)

end Writing

end VirtuosoFlow.Tunnel
