import VirtuosoFlow.Tunnel.RecordStore
import VirtuosoFlow.Tunnel.Lifecycle

/-!
# Simulation jobs

The job model (`sim/job.py`) and its store (`sim/job_store.py`) with the freshness
guard.
-/

namespace VirtuosoFlow.Tunnel

open Base

/-- The statuses of a job. -/
inductive JobStatus where
  | queued | running | done | failed | cancelled
  deriving DecidableEq

/-- How the records spell a status. -/
def JobStatus.name : JobStatus → String
  | .queued => "queued"
  | .running => "running"
  | .done => "done"
  | .failed => "failed"
  | .cancelled => "cancelled"

/-- `TRANSITIONS`. -/
def JobStatus.transitions : JobStatus → List JobStatus
  | .queued => [.running, .cancelled]
  | .running => [.done, .failed, .cancelled]
  | .done => []
  | .failed => []
  | .cancelled => []

/-- The state machine of jobs. -/
def jobLifecycle : Lifecycle JobStatus where
  name := JobStatus.name
  name_injective := by intro a b; cases a <;> cases b <;> simp [JobStatus.name]
  all := [.queued, .running, .done, .failed, .cancelled]
  mem_all := by intro a; cases a <;> simp
  first := .queued
  transitions := JobStatus.transitions

/-- `compute_fingerprint(cellview, test)`. -/
def computeFingerprint (env : Env) (cellview test : Json) : Json :=
  .str ("fp_" ++ env.sha1 (.obj [("cellview", pyOr cellview (.obj [])),
    ("test", pyOr test (.str "")), ("extra", .obj [])]))

/-- `make_job(data)`. -/
def makeJob (env : Env) (data : Obj) : Obj :=
  let j := if (Obj.get data "job_id").truthy then data
    else Obj.set data "job_id" (.str ("job_" ++ env.uuid))
  let j := Obj.setDefault j "schema_version" (.str "0.1")
  let j := Obj.setDefault j "status" (.str "queued")
  let j := if (Obj.get j "inputs_fingerprint").truthy then j
    else Obj.set j "inputs_fingerprint"
      (computeFingerprint env (Obj.get j "cellview") (Obj.get j "test"))
  let j := Obj.setDefault j "created_at" env.stamp
  Obj.set j "updated_at" env.stamp

/-- `transition(job, new_status, **fields)`. -/
def jobTransition (env : Env) (new : JobStatus) (fields : Obj) : Obj → Except PyExc Obj :=
  jobLifecycle.transition
    (fun j => Obj.set (Obj.set (Obj.update j fields) "status" (.str new.name))
      "updated_at" env.stamp) new

/-- The fields among these that are not `None`. -/
def presentFields (fields : Obj) : Obj :=
  fields.filter fun e => match e.2 with
    | .null => false
    | _ => true

namespace JobStore

/-- `add(job)`. -/
def add (env : Env) (job : Obj) : Prog PyExc Store Obj := do
  if !(Obj.get job "job_id").truthy then
    throw (.valueError (.text "job missing job_id" []))
  insertNew "job_id" "duplicate job_id: %s" job
  persist env "job_id" job
  return job

/-- `get(job_id)`. -/
def get (id : Json) : Prog PyExc Store (Option Obj) := getRecord id

/-- `list(status)`. -/
def list (status : Json) : Prog PyExc Store (List Obj) :=
  listRecords (fun j => Obj.getD j "created_at" (.str "")) status

/-- `fresh_done(fingerprint)`: the newest done job with this fingerprint. -/
def freshDone (fingerprint : Json) : Prog PyExc Store (Option Obj) := do
  if !fingerprint.truthy then return none
  let done ← list (.str "done")
  return (done.filter fun j => (Obj.get j "inputs_fingerprint").pyEq fingerprint).head?

/-- `_set(job_id, new_status, **fields)`. -/
def set (env : Env) (new : JobStatus) (fields : Obj) (id : Json) : Prog PyExc Store Obj :=
  Tunnel.setStatus env "job_id" "unknown job_id: %s" (jobTransition env new fields) id

/-- `mark_running(job_id)`. -/
def markRunning (env : Env) (id : Json) : Prog PyExc Store Obj := set env .running [] id

/-- `mark_done(job_id, result_id, run_id)`. -/
def markDone (env : Env) (id resultId runId : Json) : Prog PyExc Store Obj :=
  set env .done (presentFields [("result_id", resultId), ("run_id", runId)]) id

/-- `mark_failed(job_id, error)`. -/
def markFailed (env : Env) (id error : Json) : Prog PyExc Store Obj :=
  set env .failed (if error.truthy then [("error", error)] else []) id

/-- `cancel(job_id)`. -/
def cancel (env : Env) (id : Json) : Prog PyExc Store Obj := set env .cancelled [] id

end JobStore

section Records

variable {env : Env} {data j j' : Obj} {new : JobStatus} {fields : Obj}

/-- A new record is in the status its payload names, `queued` by default. -/
theorem statusOf_makeJob : jobLifecycle.statusOf (makeJob env data) = jobLifecycle.statusOf data := by
  have hid : ∀ v, (Obj.set data "job_id" v).lookup "status" = data.lookup "status" :=
    fun v => Obj.lookup_set_ne data (by decide) v
  unfold makeJob Lifecycle.statusOf Obj.getD
  dsimp only
  split <;> split <;> simp [Obj.getD, hid] <;> rfl

/-- The members that the life of a job changes. -/
def jobTouched : List String := ["status", "updated_at", "result_id", "run_id", "error"]

/-- A job moves into one of `targets`. -/
def jobNext (targets : List JobStatus) : Obj → Obj → Prop :=
  jobLifecycle.Step targets jobTouched

/-- `update` changes the members it is given. -/
theorem lookup_update {o other : Obj} {f : String} (hf : f ∉ other.map Prod.fst) :
    (Obj.update o other).lookup f = o.lookup f := by
  unfold Obj.update
  induction other generalizing o with
  | nil => rfl
  | cons e rest ih =>
    simp only [List.map_cons, List.mem_cons, not_or] at hf
    rw [List.foldl_cons, ih hf.2, Obj.lookup_set_ne o hf.1]

/-- A passing transition moves along an edge into its target. -/
theorem jobNext_of_transition {targets : List JobStatus}
    (hfields : ∀ e ∈ fields, e.1 ∈ jobTouched) (hnew : new ∈ targets)
    (h : jobTransition env new fields j = .ok j') : jobNext targets j j' := by
  apply Lifecycle.step_of_transition _ _ hnew h
  · simp [Lifecycle.At, Lifecycle.statusOf, Obj.getD, jobLifecycle]
  · intro f hf
    have hnotField : f ∉ fields.map Prod.fst := by
      intro hmem
      obtain ⟨e, he, rfl⟩ := List.mem_map.mp hmem
      exact hf (hfields e he)
    simp only [jobTouched, List.mem_cons, List.not_mem_nil, or_false, not_or] at hf
    simp [hf.1, hf.2.1, lookup_update hnotField]

end Records

section Effects

variable {fresh : Key → Obj → Prop} {targets : List JobStatus}
variable {env : Env} {j : Obj} {id v w : Json} {new : JobStatus} {fields : Obj}

namespace JobStore

/-- Setting a status lets the jobs evolve. -/
theorem set_keeps (hfields : ∀ e ∈ fields, e.1 ∈ jobTouched) (hnew : new ∈ targets) :
    Prog.Keeps (Store.Evolves fresh (jobNext targets)) (set env new fields id) :=
  Tunnel.setStatus_keeps fun _ _ h => jobNext_of_transition hfields hnew h

/-- The fields of `mark_done` are the ones its transition may touch. -/
theorem doneFields_touched :
    ∀ e ∈ presentFields [("result_id", v), ("run_id", w)], e.1 ∈ jobTouched := by
  intro e he
  have hmem := (List.mem_filter.mp he).1
  simp only [List.mem_cons, List.not_mem_nil, or_false] at hmem
  rcases hmem with rfl | rfl <;> simp [jobTouched]

/-- So is the field of `mark_failed`. -/
theorem failedFields_touched :
    ∀ e ∈ if v.truthy then [("error", v)] else [], e.1 ∈ jobTouched := by
  intro e he
  split at he
  · obtain rfl := List.mem_singleton.mp he
    simp [jobTouched]
  · simp at he

/-- So does adding a job. -/
theorem add_keeps (hfresh : ∀ k, (Obj.get j "job_id").key? = some k → fresh k j) :
    Prog.Keeps (Store.Evolves fresh (jobNext targets)) (add env j) := by
  intro st
  unfold add
  split
  · exact Std.Refl.refl st
  · exact Prog.Keeps.bind (insertNew_keeps hfresh)
      (fun _ => .bind persist_keeps fun _ => .pure _) st

/-- What `add` can do to the records. -/
theorem add_records (env : Env) (j : Obj) (st : Store) :
    ((add env j).exec st).2.records = st.records ∨
    ∃ k, (Obj.get j "job_id").key? = some k ∧ st.records.get? k = none ∧
      ((add env j).exec st).2.records = st.records.insert k j := by
  unfold add
  split
  · exact .inl rfl
  · exact insertNew_persist_records

/-- Along an edge of the table `_set` replaces the record; after that only writing its file
can raise. -/
theorem exec_set (env : Env) (fields : Obj) {k : Key} {a : JobStatus} {st : Store}
    (hkey : id.key? = some k) (hj : st.records.get? k = some j) (hat : jobLifecycle.At j a)
    (hedge : new ∈ a.transitions) :
    ∃ j' writes, (set env new fields id).exec st =
        ((persistError env "job_id" j').elim (.ok j') .error,
          { records := st.records.insert k j', writes := writes }) ∧
      jobLifecycle.At j' new ∧
      ∀ f, f ≠ "status" → f ≠ "updated_at" → j'.lookup f = (Obj.update j fields).lookup f := by
  have htr : jobTransition env new fields j = .ok (Obj.set (Obj.set (Obj.update j fields) "status"
      (.str new.name)) "updated_at" env.stamp) :=
    Lifecycle.transition_eq_ok.mpr ⟨⟨a, hat, hedge⟩, rfl⟩
  obtain ⟨writes, hexec⟩ := exec_setStatus env "job_id" "unknown job_id: %s" hkey hj htr
  refine ⟨_, writes, hexec, ?_, ?_⟩
  · simp [Lifecycle.At, Lifecycle.statusOf, Obj.getD, jobLifecycle]
  · intro f hstatus hupdated
    simp [hstatus, hupdated]

/-- Elsewhere it raises and changes nothing. -/
theorem exec_set_refused (env : Env) (fields : Obj) {k : Key} {a : JobStatus} {st : Store}
    (hkey : id.key? = some k) (hj : st.records.get? k = some j) (hat : jobLifecycle.At j a)
    (hedge : new ∉ a.transitions) : ∃ e, (set env new fields id).exec st = (.error e, st) := by
  cases htr : jobTransition env new fields j with
  | ok j' =>
    obtain ⟨⟨b, hat', hmem⟩, _⟩ := Lifecycle.transition_eq_ok.mp htr
    rw [hat.eq hat'] at hedge
    exact absurd hmem hedge
  | error e =>
    refine ⟨e, ?_⟩
    simp [set, Tunnel.setStatus, Prog.exec_bind, hashKey, hkey, hj, htr]

/-- Listing leaves the jobs. -/
theorem list_keeps : Prog.Keeps (Store.Evolves fresh (jobNext targets)) (list id) :=
  listRecords_keeps

/-- What the freshness guard hands out is stored, done, and has the fingerprint asked for. -/
theorem freshDone_spec {st st' : Store} {fingerprint : Json}
    (h : (freshDone fingerprint).exec st = (.ok (some j), st')) :
    (∃ k, st.records.get? k = some j) ∧ Obj.get j "status" = .str "done" ∧
      (Obj.get j "inputs_fingerprint").pyEq fingerprint = true := by
  unfold freshDone at h
  by_cases htruthy : fingerprint.truthy = true
  · simp only [htruthy, Bool.not_true, Bool.false_eq_true, if_false] at h
    obtain ⟨done, st₁, hlist, hpick⟩ := Prog.exec_bind_eq_ok h
    simp only [Prog.exec_pure, Prod.mk.injEq, Except.ok.injEq] at hpick
    have hmem := List.mem_filter.mp (List.mem_of_mem_head? hpick.1)
    obtain ⟨hstored, hstatus⟩ := mem_of_listRecords (by decide) hlist hmem.1
    exact ⟨hstored, hstatus, hmem.2⟩
  · simp [htruthy] at h

/-- The guard only reads. -/
theorem freshDone_reads (fingerprint : Json) :
    Prog.Reads (freshDone fingerprint) := by
  intro st
  unfold freshDone
  split
  · rfl
  · exact Prog.Keeps.bind (.bind .get fun _ => .ofExcept _) (fun _ => .pure _) st

/-- So does looking for a done one. -/
theorem freshDone_keeps : Prog.Keeps (Store.Evolves fresh (jobNext targets)) (freshDone id) := by
  intro st
  unfold freshDone
  split
  · exact Std.Refl.refl st
  · exact Prog.Keeps.bind list_keeps (fun _ => .pure _) st

end JobStore

end Effects

end VirtuosoFlow.Tunnel
