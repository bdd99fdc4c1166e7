import VirtuosoFlow.Tunnel.System

/-!
# A cancel request against a runner

`job.cancel` may come in between any two steps of the runner that drives the job. The
runner updates the results, the run and the job one after the other, and only the
update of the job looks at the job's state machine. How the race ends therefore
depends on where the runner stands when the cancel comes, and on whether anything
raises that `run` does not catch.
-/

namespace VirtuosoFlow.Tunnel

open Base RunStore

/-- A runner, the stores it shares with the requests, and the id of its run once it has
drawn it. Nothing reads that id but the statements about the race. -/
structure Race where
  point : RunPoint
  tunnel : Tunnel
  runId : Option String

/-- The next step of the runner, or a `job.cancel` request. -/
inductive Race.Move where
  | advance (w : World)
  | cancel (env : Env)

/-- The id of the run after a step from this point. -/
def RunPoint.drawn (w : World) (runId : Option String) : RunPoint → Option String
  | .createRun _ => some ("run_" ++ w.env.uuid)
  | _ => runId

/-- One move of the race for `jobId`. -/
def Race.step (jobId : Json) (command : List String) : Race.Move → Race → Except PyExc Json × Race
  | .advance w, s =>
    let out := Runner.advance w ⟨jobId, command, s.point⟩ s.tunnel
    (.ok .null, ⟨out.1.point, out.2, s.point.drawn w s.runId⟩)
  | .cancel env, s =>
    let out := (mJobCancel env [("job_id", jobId)]).exec s.tunnel
    (out.1, { s with tunnel := out.2 })

/-- The races for `jobId` that begin with these stores. -/
def race (jobId : Json) (command : List String) (t₀ : Tunnel) :
    Machine Race Race.Move (Except PyExc Json) where
  init s := s = ⟨.lookup, t₀, none⟩
  step := Race.step jobId command

/-- `run` has returned or raised. -/
def RunPoint.finished : RunPoint → Bool
  | .returned _ => true
  | .raised _ => true
  | _ => false

/-- The job under `k` is stored in this status. -/
def HasJob (t : Tunnel) (k : Key) (a : JobStatus) : Prop :=
  ∃ j, t.jobs.records.get? k = some j ∧ jobLifecycle.At j a

/-- What `_m_job_run` checks before it starts a runner. -/
structure Started (jobId : Json) (k : Key) (t : Tunnel) : Prop where
  truthy : jobId.truthy = true
  key : jobId.key? = some k
  queued : HasJob t k .queued

/-- The job and its run are done with one result, and that is the latest. -/
def Settled.Done (t : Tunnel) (k : Key) (rid : String) : Prop :=
  ∃ j result, t.jobs.records.get? k = some j ∧ jobLifecycle.At j .done ∧
    HasRun t.runs rid "done" (Obj.get j "result_id") ∧
    t.results.latest = some result ∧ Obj.get result "result_id" = Obj.get j "result_id"

/-- The run has failed, its job has failed or was cancelled, and no result was stored. -/
def Settled.Failed (t₀ t : Tunnel) (k : Key) (rid : String) : Prop :=
  (HasJob t k .failed ∨ HasJob t k .cancelled) ∧ (∃ v, HasRun t.runs rid "failed" v) ∧
    t.results = t₀.results

/-- The ways a race may end. -/
def Settled (t₀ : Tunnel) (k : Key) (s : Race) : Prop :=
  ∃ rid, s.runId = some rid ∧ (Settled.Done s.tunnel k rid ∨ Settled.Failed t₀ s.tunnel k rid)

/-- The step raises nothing that `run` does not catch; the points not listed never do. -/
def Passes (w : World) (command : List String) : RunPoint → Prop
  | .context job _ => ∃ vars, jobContext w.env job = .ok vars
  | .netlist _ _ vars => ∀ ncmd, w.env.netlistCmd = some ncmd →
      ∃ outcome, runCommand w.env ncmd vars w.netlist = .ok outcome
  | .simulate _ _ vars => ∃ outcome, runCommand w.env command vars w.simulator = .ok outcome
  | .readMetrics job _ => ∃ reading, readResult w job = .ok reading
  | _ => True

/-- How far the stores are at a point. -/
inductive Phase where
  | waiting
  | created (rid : Json)
  | marked (rid : Json)
  | running (rid : Json)
  | parsed (rid : Json) (result : Obj)
  | stored (rid : Json) (result : Obj)
  | linked (rid : Json) (result : Obj)
  | closed (rid : Json) (result : Obj)
  | failing
  | finished

/-- The phase of a point. -/
def RunPoint.phase : RunPoint → Phase
  | .lookup => .waiting
  | .createRun _ => .waiting
  | .markRunning _ rid => .created rid
  | .setRunning _ rid => .marked rid
  | .context _ rid => .running rid
  | .netlist _ rid _ => .running rid
  | .attachNetlist _ rid _ _ _ => .running rid
  | .simulate _ rid _ => .running rid
  | .attachLog _ rid _ _ => .running rid
  | .readMetrics _ rid => .running rid
  | .storeResult rid result => .parsed rid result
  | .linkResult rid result => .stored rid result
  | .setDone rid result => .linked rid result
  | .markDone rid result => .closed rid result
  | .failRun rid _ => .running rid
  | .failJob _ => .failing
  | _ => .finished

/-- The runner has stored the result and not yet marked the job done. -/
def Phase.storing : Phase → Bool
  | .stored _ _ => true
  | .linked _ _ => true
  | .closed _ _ => true
  | _ => false

/-- The moves after which the race still ends well. A cancel comes neither before the job
is marked running nor between the storing of the result and `mark_done`. A step raises
nothing that `run` does not catch, and no result is stored for a cancelled job. -/
def Clean (command : List String) (k : Key) (s : Race) : Race.Move → Prop
  | .cancel _ => ¬ HasJob s.tunnel k .queued ∧
      (s.point.phase.storing = true → ¬ HasJob s.tunnel k .running)
  | .advance w =>
    match s.point with
    | .markRunning _ _ => ∀ j, s.tunnel.jobs.records.get? k = some j →
        persistError w.env "job_id" j = none
    | .storeResult _ _ => ResultStore.Writable w.env ∧ ¬ HasJob s.tunnel k .cancelled
    | p => Passes w command p

/-- The runner's own run is stored with this status and this result. -/
def Owns (s : Race) (rid : Json) (status : String) (result : Json) : Prop :=
  ∃ id, rid = .str id ∧ s.runId = some id ∧ HasRun s.tunnel.runs id status result

/-- The job was marked running and may have been cancelled since; no result is stored. -/
def Busy (t₀ : Tunnel) (k : Key) (t : Tunnel) : Prop :=
  (HasJob t k .running ∨ HasJob t k .cancelled) ∧ t.results = t₀.results

/-- The result is stored, and the job is running. -/
def Stored (k : Key) (t : Tunnel) (result : Obj) : Prop :=
  HasJob t k .running ∧ t.results.latest = some result ∧
    (Obj.get result "result_id").truthy = true

/-- What holds of the stores in every phase as long as every move was clean. -/
def Sound (t₀ : Tunnel) (k : Key) (s : Race) : Prop :=
  match s.point.phase with
  | .waiting => HasJob s.tunnel k .queued ∧ s.tunnel.results = t₀.results
  | .created rid => Owns s rid "created" .null ∧ HasJob s.tunnel k .queued ∧
      s.tunnel.results = t₀.results
  | .marked rid => Owns s rid "created" .null ∧ Busy t₀ k s.tunnel
  | .running rid => Owns s rid "running" .null ∧ Busy t₀ k s.tunnel
  | .parsed rid result => Owns s rid "running" .null ∧ Busy t₀ k s.tunnel ∧
      (Obj.get result "result_id").truthy = true
  | .stored rid result => Owns s rid "running" .null ∧ Stored k s.tunnel result
  | .linked rid result => Owns s rid "running" (Obj.get result "result_id") ∧
      Stored k s.tunnel result
  | .closed rid result => Owns s rid "done" (Obj.get result "result_id") ∧
      Stored k s.tunnel result
  | .failing => (∃ rid, Owns s rid "failed" .null) ∧ Busy t₀ k s.tunnel
  | .finished => Settled t₀ k s

/-- What holds from the first move on that was not clean. -/
def Spoiled (k : Key) (s : Race) : Prop :=
  match s.point.phase with
  | .waiting => HasJob s.tunnel k .cancelled
  | .created rid => Owns s rid "created" .null ∧ HasJob s.tunnel k .cancelled
  | .stored rid _ => (∃ v, Owns s rid "running" v) ∧ HasJob s.tunnel k .cancelled
  | .linked rid _ => (∃ v, Owns s rid "running" v) ∧ HasJob s.tunnel k .cancelled
  | .closed rid _ => (∃ v, Owns s rid "done" v) ∧ HasJob s.tunnel k .cancelled
  | .finished => (∃ e, s.point = .raised e) ∧ (∃ rid status v, Owns s rid status v ∧ status ≠ "failed") ∧
      ∃ a, HasJob s.tunnel k a ∧ a ≠ .done
  | _ => False

section Jobs

variable {env : Env} {jobId : Json} {k : Key} {t : Tunnel} {j : Obj} {a b : JobStatus}

/-- A stored job is in one status. -/
theorem HasJob.eq (ha : HasJob t k a) (hb : HasJob t k b) : a = b := by
  obtain ⟨j, hj, hat⟩ := ha
  obtain ⟨j', hj', hat'⟩ := hb
  obtain rfl : j = j' := by simpa [hj] using hj'
  exact hat.eq hat'

/-- An answered `job.run` leaves the stores as a race for its job needs them. -/
theorem started_of_mJobRun {params : Obj} {t' : Tunnel} {command : List String}
    (h : (mJobRun env params).exec t = (.ok (jobId, command), t')) : ∃ k, Started jobId k t' := by
  unfold mJobRun findJob requireId at h
  obtain ⟨⟨id, job⟩, t₁, hfind, h⟩ := Prog.exec_bind_eq_ok h
  obtain ⟨id', t₂, hid, hfind⟩ := Prog.exec_bind_eq_ok hfind
  obtain ⟨found, t₃, hget, hfind⟩ := Prog.exec_bind_eq_ok hfind
  by_cases htruthy : (Obj.get params "job_id").truthy = true
  · rw [if_pos htruthy] at hid
    simp only [Prog.exec_pure, Prod.mk.injEq, Except.ok.injEq] at hid
    obtain ⟨rfl, rfl⟩ := hid
    cases found with
    | none => simp at hfind
    | some job' =>
      simp only [Prog.exec_pure, Prod.mk.injEq, Except.ok.injEq] at hfind
      obtain ⟨⟨rfl, rfl⟩, rfl⟩ := hfind
      dsimp only at h
      split at h
      · rename_i hstatus
        cases hcmd : env.simCmd with
        | none => simp [hcmd] at h
        | some cmd =>
          simp only [hcmd, Prog.exec_pure, Prod.mk.injEq, Except.ok.injEq] at h
          obtain ⟨⟨rfl, _⟩, rfl⟩ := h
          simp only [exec_onJobs, JobStore.get, getRecord, Prog.exec_bind, Prog.exec_ofExcept,
            hashKey] at hget
          cases hkey : (Obj.get params "job_id").key? with
          | none => simp [hkey] at hget
          | some k =>
            simp only [hkey, Prog.exec_get, Prog.exec_pure, Prod.mk.injEq, Except.ok.injEq] at hget
            obtain ⟨hjob, rfl⟩ := hget
            refine ⟨k, htruthy, hkey, job', hjob, ?_⟩
            have hqueued : Obj.get job' "status" = .str "queued" := Json.pyEq_str.mp hstatus
            unfold Obj.get Obj.getD at hqueued
            unfold Lifecycle.At Lifecycle.statusOf Obj.getD
            cases hlook : job'.lookup "status" with
            | none => simp [hlook] at hqueued
            | some v => simpa [hlook, jobLifecycle, JobStatus.name] using hqueued
      · simp at h
  · rw [if_neg htruthy] at hid
    simp at hid

/-- What `job.cancel` does to the stores: it moves the job if an edge leads there. -/
theorem mJobCancel_effect (env : Env) (htruthy : jobId.truthy = true) (hkey : jobId.key? = some k)
    (hjob : HasJob t k a) :
    let t' := ((mJobCancel env [("job_id", jobId)]).exec t).2
    t'.runs = t.runs ∧ t'.results = t.results ∧
      if .cancelled ∈ a.transitions then HasJob t' k .cancelled
      else t'.jobs.records = t.jobs.records := by
  have hid : Obj.get [("job_id", jobId)] "job_id" = jobId := by simp [Obj.get, Obj.getD]
  have hrequire : (requireId "job_id" [("job_id", jobId)]).exec t = (.ok jobId, t) := by
    rw [requireId, hid, if_pos htruthy]
    rfl
  have hrest : ∀ job : Obj, Prog.Keeps (Prog.Fixes fun t : Tunnel => (t.jobs, t.runs, t.results))
      (announceJob env (some "job.cancelled") [] job >>= fun _ =>
        (pure (Json.obj [("job", .obj job)]) : Prog PyExc Tunnel Json)) := fun job =>
    .bind (.bind (.ofExcept _) fun _ => fun _ => rfl) fun _ => .pure _
  have hkeeps := Prog.Keeps.of_rest
    (m := (onJobs (JobStore.cancel env jobId)).mapError lookupErrorAsRpc) hrest t
  have hcancel : (mJobCancel env [("job_id", jobId)]).exec t =
      ((onJobs (JobStore.cancel env jobId)).mapError lookupErrorAsRpc >>= fun job =>
        announceJob env (some "job.cancelled") [] job >>= fun _ =>
          pure (Json.obj [("job", .obj job)])).exec t := by
    rw [mJobCancel, jobSet, Prog.exec_bind_ok hrequire]
  intro t'
  rw [← hcancel] at hkeeps
  simp only [Prog.Fixes, Prog.exec_mapError_snd, exec_onJobs, Prod.mk.injEq] at hkeeps
  obtain ⟨hjobs, hruns, hresults⟩ := hkeeps
  refine ⟨hruns, hresults, ?_⟩
  obtain ⟨j, hj, hat⟩ := hjob
  split
  · rename_i hedge
    obtain ⟨j', writes, hexec, hat', _⟩ := JobStore.exec_set env [] hkey hj hat hedge
    refine ⟨j', ?_, hat'⟩
    change t'.jobs = _ at hjobs
    rw [hjobs, JobStore.cancel, hexec]
    simp
  · rename_i hedge
    obtain ⟨e, hexec⟩ := JobStore.exec_set_refused env [] hkey hj hat hedge
    change t'.jobs = _ at hjobs
    rw [hjobs, JobStore.cancel, hexec]

end Jobs

section Cancel

variable {t₀ : Tunnel} {jobId : Json} {command : List String} {k : Key} {s : Race}

/-- A cancel request that comes while the job cannot be cancelled changes nothing here. -/
theorem settled_cancel {s' : Race} (h : Settled t₀ k s) (hid : s'.runId = s.runId)
    (hruns : s'.tunnel.runs = s.tunnel.runs) (hresults : s'.tunnel.results = s.tunnel.results)
    (hjobs : s'.tunnel.jobs.records = s.tunnel.jobs.records) : Settled t₀ k s' := by
  unfold Settled Settled.Done Settled.Failed HasJob at *
  rwa [hid, hruns, hresults, hjobs]

/-- A settled job is neither queued nor running. -/
theorem Settled.job (h : Settled t₀ k s) :
    ∃ a, HasJob s.tunnel k a ∧ a ≠ .queued ∧ a ≠ .running ∧ .cancelled ∉ a.transitions := by
  obtain ⟨rid, _, ⟨j, result, hj, hat, _⟩ | ⟨hjob | hjob, _⟩⟩ := h
  · exact ⟨.done, ⟨j, hj, hat⟩, by decide, by decide, by decide⟩
  · exact ⟨.failed, hjob, by decide, by decide, by decide⟩
  · exact ⟨.cancelled, hjob, by decide, by decide, by decide⟩

/-- A cancel request keeps a busy job busy. -/
theorem Busy.cancel (env : Env) (htruthy : jobId.truthy = true) (hkey : jobId.key? = some k)
    (h : Busy t₀ k s.tunnel) :
    Busy t₀ k ((mJobCancel env [("job_id", jobId)]).exec s.tunnel).2 := by
  obtain ⟨hjob, hresults⟩ := h
  rcases hjob with hjob | hjob
  · obtain ⟨_, hresults', hcancelled⟩ := mJobCancel_effect env htruthy hkey hjob
    rw [if_pos (by decide)] at hcancelled
    exact ⟨.inr hcancelled, hresults'.trans hresults⟩
  · obtain ⟨_, hresults', hjobs⟩ := mJobCancel_effect env htruthy hkey hjob
    rw [if_neg (by decide)] at hjobs
    obtain ⟨j, hj, hat⟩ := hjob
    refine ⟨.inr ⟨j, ?_, hat⟩, hresults'.trans hresults⟩
    rw [hjobs]
    exact hj

/-- The run stays where only the job changes. -/
theorem Owns.of_runs {s' : Race} {rid v : Json} {status : String} (h : Owns s rid status v)
    (hid : s'.runId = s.runId) (hruns : s'.tunnel.runs = s.tunnel.runs) : Owns s' rid status v := by
  unfold Owns at *
  rwa [hid, hruns]

/-- A cancel request in a sound state leads to a sound one if it was clean, and spoils the
race otherwise. -/
theorem sound_cancel (env : Env) (htruthy : jobId.truthy = true) (hkey : jobId.key? = some k)
    (h : Sound t₀ k s) :
    (Clean command k s (.cancel env) → Sound t₀ k (Race.step jobId command (.cancel env) s).2) ∧
    (¬ Clean command k s (.cancel env) → Spoiled k (Race.step jobId command (.cancel env) s).2) := by
  have heffect : ∀ {a}, HasJob s.tunnel k a → _ := fun hjob =>
    mJobCancel_effect env htruthy hkey hjob
  have hbusy : Busy t₀ k s.tunnel →
      Busy t₀ k ((mJobCancel env [("job_id", jobId)]).exec s.tunnel).2 :=
    Busy.cancel env htruthy hkey
  set s' := (Race.step jobId command (.cancel env) s).2 with hs'
  have hpoint : s'.point = s.point := rfl
  have hid : s'.runId = s.runId := rfl
  unfold Sound at h
  unfold Clean Sound Spoiled
  rw [hpoint]
  -- while the job runs a cancel is clean unless a result is being stored
  have hrunning : Busy t₀ k s.tunnel → s.point.phase.storing = false →
      s'.tunnel.runs = s.tunnel.runs ∧ ¬ HasJob s.tunnel k .queued ∧
        ¬ (s.point.phase.storing = true) := by
    intro hbusy hstoring
    rcases hbusy.1 with hjob | hjob
    · refine ⟨(heffect hjob).1, fun hqueued => ?_, by simp [hstoring]⟩
      have hsame := hjob.eq hqueued
      simp at hsame
    · refine ⟨(heffect hjob).1, fun hqueued => ?_, by simp [hstoring]⟩
      have hsame := hjob.eq hqueued
      simp at hsame
  cases hphase : s.point.phase with
  | waiting =>
    rw [hphase] at h
    obtain ⟨hqueued, hresults⟩ := h
    obtain ⟨_, _, hcancelled⟩ := heffect hqueued
    rw [if_pos (by decide)] at hcancelled
    exact ⟨fun hclean => absurd hqueued hclean.1, fun _ => hcancelled⟩
  | created rid =>
    rw [hphase] at h
    obtain ⟨hrun, hqueued, hresults⟩ := h
    obtain ⟨hruns, _, hcancelled⟩ := heffect hqueued
    rw [if_pos (by decide)] at hcancelled
    exact ⟨fun hclean => absurd hqueued hclean.1, fun _ => ⟨hrun.of_runs hid hruns, hcancelled⟩⟩
  | marked rid | running rid =>
    rw [hphase] at h hrunning
    obtain ⟨hruns, hqueued, hstoring⟩ := hrunning h.2 rfl
    refine ⟨fun _ => ⟨h.1.of_runs hid hruns, hbusy h.2⟩, fun hunclean => ?_⟩
    exact absurd ⟨hqueued, fun hfalse => absurd hfalse hstoring⟩ hunclean
  | parsed rid result =>
    rw [hphase] at h hrunning
    obtain ⟨hruns, hqueued, hstoring⟩ := hrunning h.2.1 rfl
    refine ⟨fun _ => ⟨h.1.of_runs hid hruns, hbusy h.2.1, h.2.2⟩, fun hunclean => ?_⟩
    exact absurd ⟨hqueued, fun hfalse => absurd hfalse hstoring⟩ hunclean
  | failing =>
    rw [hphase] at h hrunning
    obtain ⟨hruns, hqueued, hstoring⟩ := hrunning h.2 rfl
    obtain ⟨rid, hrun⟩ := h.1
    refine ⟨fun _ => ⟨⟨rid, hrun.of_runs hid hruns⟩, hbusy h.2⟩, fun hunclean => ?_⟩
    exact absurd ⟨hqueued, fun hfalse => absurd hfalse hstoring⟩ hunclean
  | stored rid result | linked rid result | closed rid result =>
    rw [hphase] at h
    obtain ⟨hruns, _, hcancelled⟩ := heffect h.2.1
    rw [if_pos (by decide)] at hcancelled
    refine ⟨fun hclean => absurd h.2.1 (hclean.2 rfl), fun _ => ?_⟩
    exact ⟨⟨_, h.1.of_runs hid hruns⟩, hcancelled⟩
  | finished =>
    rw [hphase] at h
    obtain ⟨a, hjob, hqueued, _, hedge⟩ := h.job
    obtain ⟨hruns, hresults, hjobs⟩ := heffect hjob
    rw [if_neg hedge] at hjobs
    refine ⟨fun _ => settled_cancel h hid hruns hresults hjobs, fun hunclean => ?_⟩
    refine absurd ⟨fun hjob' => hqueued (hjob.eq hjob'), ?_⟩ hunclean
    simp [Phase.storing]

/-- A spoiled race stays spoiled through a cancel request. -/
theorem spoiled_cancel (env : Env) (htruthy : jobId.truthy = true) (hkey : jobId.key? = some k)
    (h : Spoiled k s) : Spoiled k (Race.step jobId command (.cancel env) s).2 := by
  have heffect : ∀ {a}, HasJob s.tunnel k a → _ := fun hjob =>
    mJobCancel_effect env htruthy hkey hjob
  set s' := (Race.step jobId command (.cancel env) s).2 with hs'
  have hpoint : s'.point = s.point := rfl
  have hid : s'.runId = s.runId := rfl
  have hstays : HasJob s.tunnel k .cancelled →
      s'.tunnel.runs = s.tunnel.runs ∧ HasJob s'.tunnel k .cancelled := by
    intro hjob
    obtain ⟨hruns, _, hjobs⟩ := heffect hjob
    rw [if_neg (by decide)] at hjobs
    refine ⟨hruns, ?_⟩
    unfold HasJob at hjob ⊢
    change s'.tunnel.jobs.records = _ at hjobs
    rwa [hjobs]
  unfold Spoiled at h ⊢
  rw [hpoint]
  cases hphase : s.point.phase with
  | waiting =>
    rw [hphase] at h
    exact (hstays h).2
  | created rid =>
    rw [hphase] at h
    obtain ⟨hruns, hjob⟩ := hstays h.2
    exact ⟨h.1.of_runs hid hruns, hjob⟩
  | stored rid result | linked rid result | closed rid result =>
    rw [hphase] at h
    obtain ⟨⟨v, hrun⟩, hcancelled⟩ := h
    obtain ⟨hruns, hjob⟩ := hstays hcancelled
    exact ⟨⟨v, hrun.of_runs hid hruns⟩, hjob⟩
  | finished =>
    rw [hphase] at h
    obtain ⟨hraised, ⟨rid, status, v, hrun, hne⟩, a, hjob, hnot⟩ := h
    obtain ⟨hruns, _, hjobs⟩ := heffect hjob
    refine ⟨hraised, ⟨rid, status, v, hrun.of_runs hid hruns, hne⟩, ?_⟩
    split at hjobs
    · exact ⟨.cancelled, hjobs, by decide⟩
    · refine ⟨a, ?_, hnot⟩
      unfold HasJob at hjob ⊢
      change s'.tunnel.jobs.records = _ at hjobs
      rwa [hjobs]
  | _ =>
    rw [hphase] at h
    exact absurd h not_false

end Cancel

section Advance

variable {t₀ t t' : Tunnel} {jobId rid : Json} {command : List String} {k : Key} {s : Race}
variable {w : World} {runId : Option String} {point next : RunPoint} {e : PyExc}

/-- A step that returns leads to the next point. -/
theorem step_advance_ok (h : (runnerStep w jobId command s.point).exec s.tunnel = (.ok next, t')) :
    (Race.step jobId command (.advance w) s).2 = ⟨next, t', s.point.drawn w s.runId⟩ := by
  simp [Race.step, Runner.advance, h]

/-- A step that raises ends the runner. -/
theorem step_advance_error
    (h : (runnerStep w jobId command s.point).exec s.tunnel = (.error e, t')) :
    (Race.step jobId command (.advance w) s).2 = ⟨.raised e, t', s.point.drawn w s.runId⟩ := by
  simp [Race.step, Runner.advance, h]

/-- A result that was read has an id that is true. -/
theorem truthy_id_of_readResult {job result : Obj} (h : readResult w job = .ok (.inr result)) :
    (Obj.get result "result_id").truthy = true := by
  unfold readResult at h
  dsimp only at h
  split at h
  · cases h
  · cases h
  · split at h <;> cases h
  · split at h
    · split at h <;> cases h
    · split at h
      · obtain rfl := Sum.inr.inj (Except.ok.inj h)
        exact truthy_id_makeResult
      · simp at h

/-- The points that only look outside the stores go on if they pass, and raise otherwise. -/
theorem runnerStep_outside (w : World) (jobId : Json) (command : List String) (t : Tunnel)
    (hpoint : (∃ job, point = .context job rid) ∨ (∃ job vars, point = .netlist job rid vars) ∨
      (∃ job vars, point = .simulate job rid vars) ∨ ∃ job, point = .readMetrics job rid) :
    (Passes w command point → ∃ next, (runnerStep w jobId command point).exec t = (.ok next, t) ∧
      (next.phase = .running rid ∨ ∃ result, next = .storeResult rid result ∧
        (Obj.get result "result_id").truthy = true)) ∧
    (¬ Passes w command point → ∃ e, (runnerStep w jobId command point).exec t = (.error e, t)) := by
  have hnetlist : ∀ job vars outcome, (afterNetlist w.env job rid vars outcome).phase = .running rid :=
    fun job vars outcome => by cases outcome <;> rfl
  have hsimulator : ∀ job outcome, (afterSimulator w.env job rid outcome).phase = .running rid :=
    fun job outcome => by cases outcome <;> rfl
  rcases hpoint with ⟨job, rfl⟩ | ⟨job, vars, rfl⟩ | ⟨job, vars, rfl⟩ | ⟨job, rfl⟩
  · cases hctx : jobContext w.env job with
    | ok vars => simp [runnerStep, Prog.exec_bind, Passes, hctx, RunPoint.phase]
    | error e => simp [runnerStep, Prog.exec_bind, Passes, hctx]
  · cases hncmd : w.env.netlistCmd with
    | none => simp [runnerStep, Passes, hncmd, RunPoint.phase]
    | some ncmd =>
      cases hrun : runCommand w.env ncmd vars w.netlist with
      | ok outcome => simp [runnerStep, Prog.exec_bind, Passes, hncmd, hrun, hnetlist]
      | error e => simp [runnerStep, Prog.exec_bind, Passes, hncmd, hrun]
  · cases hrun : runCommand w.env command vars w.simulator with
    | ok outcome => simp [runnerStep, Prog.exec_bind, Passes, hrun, hsimulator]
    | error e => simp [runnerStep, Prog.exec_bind, Passes, hrun]
  · cases hread : readResult w job with
    | error e => simp [runnerStep, Prog.exec_bind, Passes, hread]
    | ok reading =>
      cases reading with
      | inl error => simp [runnerStep, Prog.exec_bind, Passes, hread, afterReading, RunPoint.phase]
      | inr result =>
        have hid := truthy_id_of_readResult hread
        simp [runnerStep, Prog.exec_bind, Passes, hread, afterReading, hid]

/-- A stored job is found. -/
theorem advance_lookup {j : Obj} (hkey : jobId.key? = some k)
    (hj : t.jobs.records.get? k = some j) :
    (Race.step jobId command (.advance w) ⟨.lookup, t, runId⟩).2 = ⟨.createRun j, t, runId⟩ := by
  have hstep : (runnerStep w jobId command .lookup).exec t = (.ok (.createRun j), t) := by
    simp [runnerStep, Prog.exec_bind, JobStore.get, getRecord, hashKey, hkey, hj]
  exact step_advance_ok (s := ⟨.lookup, t, runId⟩) hstep

/-- The runner creates its run. -/
theorem advance_createRun {job : Obj} :
    ∃ runs id, (Race.step jobId command (.advance w) ⟨.createRun job, t, runId⟩).2 =
        ⟨.markRunning job (.str id), { t with runs := runs }, some id⟩ ∧
      HasRun runs id "created" .null := by
  obtain ⟨u, runs, hcreate, hid, hrun⟩ := exec_create w.env [("test", Obj.get job "test"),
    ("cellview", Obj.get job "cellview"), ("job_id", jobId)] t.runs rfl rfl rfl
  have hstep : (runnerStep w jobId command (.createRun job)).exec t =
      (.ok (.markRunning job (.str ("run_" ++ w.env.uuid))), { t with runs := runs }) := by
    simp [runnerStep, Prog.exec_bind, hcreate, hid]
  exact ⟨runs, _, step_advance_ok (s := ⟨.createRun job, t, runId⟩) hstep, hrun⟩

/-- Marking a queued job running raises exactly if the name of its file does. -/
theorem markRunning_effect (env : Env) (hkey : jobId.key? = some k) (hjob : HasJob t k .queued) :
    ∃ r jobs, (onJobs (JobStore.markRunning env jobId)).exec t = (r, { t with jobs := jobs }) ∧
      HasJob { t with jobs := jobs } k .running ∧
      ((∃ j, r = .ok j) ↔ ∀ j, t.jobs.records.get? k = some j →
        persistError env "job_id" j = none) := by
  obtain ⟨j, hj, hat⟩ := hjob
  obtain ⟨j', writes, hexec, hat', hlookup⟩ := JobStore.exec_set env [] hkey hj hat
    (show JobStatus.running ∈ _ by decide)
  have hsame : persistError env "job_id" j' = persistError env "job_id" j :=
    persistError_congr (hlookup "job_id" (by decide) (by decide))
  refine ⟨_, _, by rw [exec_onJobs, JobStore.markRunning, hexec], ⟨j', by simp, hat'⟩, ?_⟩
  rw [hsame, hj]
  cases herr : persistError env "job_id" j with
  | none => simp [herr]
  | some e => simp [herr]

/-- Storing a result raises exactly if the disk does not take it. -/
theorem storeResult_effect (w : World) (jobId : Json) (command : List String) (rid : Json)
    (result : Obj) (t : Tunnel) :
    (ResultStore.Writable w.env → ∃ results, results.latest = some result ∧
      (runnerStep w jobId command (.storeResult rid result)).exec t =
        (.ok (.linkResult rid result), { t with results := results })) ∧
    (¬ ResultStore.Writable w.env → ∃ e results,
      (runnerStep w jobId command (.storeResult rid result)).exec t =
        (.error e, { t with results := results })) := by
  constructor
  · intro hwritable
    obtain ⟨results, hexec, hlatest⟩ := ResultStore.exec_update result t.results hwritable
    exact ⟨results, hlatest, by simp [runnerStep, Prog.exec_bind, hexec]⟩
  · intro hwritable
    obtain ⟨e, results, hexec⟩ := ResultStore.exec_update_error result t.results hwritable
    exact ⟨e, results, by simp [runnerStep, Prog.exec_bind, hexec]⟩

/-- Marking a running job done gives it the result and the run. -/
theorem markDone_effect (env : Env) (rid : Json) {resultId : Json} (hkey : jobId.key? = some k)
    (hjob : HasJob t k .running) (hid : resultId.truthy = true) :
    ∃ r jobs j, (onJobs (JobStore.markDone env jobId resultId rid)).exec t =
        (r, { t with jobs := jobs }) ∧ jobs.records.get? k = some j ∧ jobLifecycle.At j .done ∧
      Obj.get j "result_id" = resultId := by
  obtain ⟨j, hj, hat⟩ := hjob
  obtain ⟨j', writes, hexec, hat', hlookup⟩ := JobStore.exec_set env
    (presentFields [("result_id", resultId), ("run_id", rid)]) hkey hj hat
    (show JobStatus.done ∈ _ by decide)
  refine ⟨_, _, j', by rw [exec_onJobs, JobStore.markDone, hexec], by simp, hat', ?_⟩
  have hresult : (Obj.update j (presentFields [("result_id", resultId), ("run_id", rid)])).lookup
      "result_id" = some resultId := by
    cases resultId with
    | null => simp [Json.truthy] at hid
    | _ => cases rid <;> simp [presentFields, Obj.update]
  rw [Obj.get, Obj.getD, hlookup "result_id" (by decide) (by decide), hresult]
  rfl

/-- Marking a busy job failed fails it, unless it was cancelled. -/
theorem markFailed_effect (env : Env) (error : Json) (hkey : jobId.key? = some k)
    (hjob : HasJob t k .running ∨ HasJob t k .cancelled) :
    ∃ r jobs, (onJobs (JobStore.markFailed env jobId error)).exec t = (r, { t with jobs := jobs }) ∧
      (HasJob { t with jobs := jobs } k .failed ∨ HasJob { t with jobs := jobs } k .cancelled) := by
  rcases hjob with ⟨j, hj, hat⟩ | ⟨j, hj, hat⟩
  · obtain ⟨j', writes, hexec, hat', _⟩ := JobStore.exec_set env
      (if error.truthy then [("error", error)] else []) hkey hj hat
      (show JobStatus.failed ∈ _ by decide)
    exact ⟨_, _, by rw [exec_onJobs, JobStore.markFailed, hexec], .inl ⟨j', by simp, hat'⟩⟩
  · obtain ⟨e, hexec⟩ := JobStore.exec_set_refused env
      (if error.truthy then [("error", error)] else []) hkey hj hat
      (show JobStatus.failed ∉ _ by decide)
    exact ⟨_, _, by rw [exec_onJobs, JobStore.markFailed, hexec], .inr ⟨j, hj, hat⟩⟩

/-- Attaching a text raises nothing that is not dropped, and leaves the run as it is. -/
theorem attachText_effect (env : Env) (label filename text : String) {id status : String} {v : Json}
    (h : HasRun t.runs id status v) :
    ∃ runs, ((onRuns (RunStore.attachText env (.str id) label filename text)).suppress
        isFileError).exec t = (.ok (), { t with runs := runs }) ∧ HasRun runs id status v := by
  rcases exec_attachText env label filename text h with ⟨m, hexec⟩ | ⟨u, runs, hexec, hrun⟩
  · refine ⟨t.runs, ?_, h⟩
    simp [Prog.exec_suppress, hexec, isFileError]
  · refine ⟨runs, ?_, hrun⟩
    simp [Prog.exec_suppress, hexec]

/-- Setting the status of a stored run raises nothing. -/
theorem setRun_effect (env : Env) {id status new : String} {v : Json} (h : HasRun t.runs id status v)
    (hnew : new ∈ validStatuses) :
    ∃ u runs, (onRuns (RunStore.setStatus env (.str id) (.str new))).exec t =
      (.ok u, { t with runs := runs }) ∧ HasRun runs id new v := by
  obtain ⟨u, runs, hexec, hrun⟩ := RunStore.exec_setStatus env h hnew
  exact ⟨u, runs, by rw [exec_onRuns, hexec], hrun⟩

section OnRun

/-! The points that only change the run, when it is stored. -/

variable {id : String} {status : String} {v : Json} {job result : Obj} {vars : List String}
variable {code : ℤ} {log : String} {error : Json}

/-- The run is marked as running. -/
theorem advance_setRunning (h : HasRun t.runs id status v) :
    ∃ runs, (Race.step jobId command (.advance w) ⟨.setRunning job (.str id), t, runId⟩).2 =
        ⟨.context job (.str id), { t with runs := runs }, runId⟩ ∧ HasRun runs id "running" v := by
  obtain ⟨u, runs, hexec, hrun⟩ := setRun_effect w.env h (show "running" ∈ _ by decide)
  have hstep : (runnerStep w jobId command (.setRunning job (.str id))).exec t =
      (.ok (.context job (.str id)), { t with runs := runs }) := by
    rw [runnerStep, Prog.exec_bind_ok hexec]
    rfl
  exact ⟨runs, step_advance_ok (s := ⟨.setRunning job (.str id), t, runId⟩) hstep, hrun⟩

/-- The log of the netlister is attached, and its code decides how to go on. -/
theorem advance_attachNetlist (h : HasRun t.runs id status v) :
    ∃ runs, (Race.step jobId command (.advance w)
        ⟨.attachNetlist job (.str id) vars code log, t, runId⟩).2 =
        ⟨if code = 0 then .simulate job (.str id) vars
          else .failRun (.str id) (.str ("netlist command exited " ++ toString code)),
          { t with runs := runs }, runId⟩ ∧ HasRun runs id status v := by
  obtain ⟨runs, hexec, hrun⟩ := attachText_effect w.env "netlistlog" "netlist.log" log h
  have hstep : (runnerStep w jobId command (.attachNetlist job (.str id) vars code log)).exec t =
      (.ok (if code = 0 then .simulate job (.str id) vars
        else .failRun (.str id) (.str ("netlist command exited " ++ toString code))),
        { t with runs := runs }) := by
    rw [runnerStep, Prog.exec_bind_ok hexec]
    rfl
  exact ⟨runs, step_advance_ok (s := ⟨.attachNetlist job (.str id) vars code log, t, runId⟩) hstep,
    hrun⟩

/-- The log of the simulator is attached, and its code decides how to go on. -/
theorem advance_attachLog (h : HasRun t.runs id status v) :
    ∃ runs, (Race.step jobId command (.advance w)
        ⟨.attachLog job (.str id) code log, t, runId⟩).2 =
        ⟨if code = 0 then .readMetrics job (.str id)
          else .failRun (.str id) (.str ("simulator exited " ++ toString code)),
          { t with runs := runs }, runId⟩ ∧ HasRun runs id status v := by
  obtain ⟨runs, hexec, hrun⟩ := attachText_effect w.env "log" "sim.log" log h
  have hstep : (runnerStep w jobId command (.attachLog job (.str id) code log)).exec t =
      (.ok (if code = 0 then .readMetrics job (.str id)
        else .failRun (.str id) (.str ("simulator exited " ++ toString code))),
        { t with runs := runs }) := by
    rw [runnerStep, Prog.exec_bind_ok hexec]
    rfl
  exact ⟨runs, step_advance_ok (s := ⟨.attachLog job (.str id) code log, t, runId⟩) hstep, hrun⟩

/-- The result is linked to the run. -/
theorem advance_linkResult (h : HasRun t.runs id status v) :
    ∃ runs, (Race.step jobId command (.advance w) ⟨.linkResult (.str id) result, t, runId⟩).2 =
        ⟨.setDone (.str id) result, { t with runs := runs }, runId⟩ ∧
      HasRun runs id status (Obj.get result "result_id") := by
  obtain ⟨u, runs, hexec, hrun⟩ := exec_linkResult w.env (Obj.get result "result_id") h
  have hstep : (runnerStep w jobId command (.linkResult (.str id) result)).exec t =
      (.ok (.setDone (.str id) result), { t with runs := runs }) := by
    simp [runnerStep, Prog.exec_bind, hexec]
  exact ⟨runs, step_advance_ok (s := ⟨.linkResult (.str id) result, t, runId⟩) hstep, hrun⟩

/-- The run is marked as done. -/
theorem advance_setDone (h : HasRun t.runs id status v) :
    ∃ runs, (Race.step jobId command (.advance w) ⟨.setDone (.str id) result, t, runId⟩).2 =
        ⟨.markDone (.str id) result, { t with runs := runs }, runId⟩ ∧ HasRun runs id "done" v := by
  obtain ⟨u, runs, hexec, hrun⟩ := setRun_effect w.env h (show "done" ∈ _ by decide)
  have hstep : (runnerStep w jobId command (.setDone (.str id) result)).exec t =
      (.ok (.markDone (.str id) result), { t with runs := runs }) := by
    rw [runnerStep, Prog.exec_bind_ok hexec]
    rfl
  exact ⟨runs, step_advance_ok (s := ⟨.setDone (.str id) result, t, runId⟩) hstep, hrun⟩

/-- The run is marked as failed. -/
theorem advance_failRun (h : HasRun t.runs id status v) :
    ∃ runs, (Race.step jobId command (.advance w) ⟨.failRun (.str id) error, t, runId⟩).2 =
        ⟨.failJob error, { t with runs := runs }, runId⟩ ∧ HasRun runs id "failed" v := by
  obtain ⟨u, runs, hexec, hrun⟩ := setRun_effect w.env h (show "failed" ∈ _ by decide)
  have hstep : (runnerStep w jobId command (.failRun (.str id) error)).exec t =
      (.ok (.failJob error), { t with runs := runs }) := by
    simp [runnerStep, Prog.exec_bind, Prog.exec_suppress, hexec]
  exact ⟨runs, step_advance_ok (s := ⟨.failRun (.str id) error, t, runId⟩) hstep, hrun⟩

end OnRun

/-- A busy job is not done. -/
theorem Busy.ne_done (h : Busy t₀ k t) : ∃ a, HasJob t k a ∧ a ≠ .done := by
  rcases h.1 with hjob | hjob
  · exact ⟨.running, hjob, by decide⟩
  · exact ⟨.cancelled, hjob, by decide⟩

/-- A step outside the stores goes on if it passes, and spoils the race otherwise. -/
theorem sound_outside (hphase : point.phase = .running rid)
    (hpoint : (∃ job, point = .context job rid) ∨ (∃ job vars, point = .netlist job rid vars) ∨
      (∃ job vars, point = .simulate job rid vars) ∨ ∃ job, point = .readMetrics job rid)
    (h : Sound t₀ k ⟨point, t, runId⟩) :
    (Passes w command point → Sound t₀ k (Race.step jobId command (.advance w) ⟨point, t, runId⟩).2) ∧
    (¬ Passes w command point →
      Spoiled k (Race.step jobId command (.advance w) ⟨point, t, runId⟩).2) := by
  unfold Sound at h
  dsimp only at h
  rw [hphase] at h
  obtain ⟨hrun, hbusy⟩ := h
  have hdrawn : point.drawn w runId = runId := by
    rcases hpoint with ⟨_, rfl⟩ | ⟨_, _, rfl⟩ | ⟨_, _, rfl⟩ | ⟨_, rfl⟩ <;> rfl
  obtain ⟨hgoes, hraises⟩ := runnerStep_outside w jobId command t hpoint
  constructor
  · intro hpasses
    obtain ⟨next, hexec, hnext⟩ := hgoes hpasses
    rw [step_advance_ok (s := ⟨point, t, runId⟩) hexec, hdrawn]
    rcases hnext with hphase' | ⟨result, rfl, hid⟩
    · unfold Sound
      dsimp only
      rw [hphase']
      exact ⟨hrun, hbusy⟩
    · exact ⟨hrun, hbusy, hid⟩
  · intro hpasses
    obtain ⟨e, hexec⟩ := hraises hpasses
    rw [step_advance_error (s := ⟨point, t, runId⟩) hexec, hdrawn]
    exact ⟨⟨e, rfl⟩, ⟨rid, "running", .null, hrun, by decide⟩, hbusy.ne_done⟩

/-- A step of the runner in a sound state leads to a sound one if it was clean, and spoils
the race otherwise. -/
theorem sound_advance (w : World) (hkey : jobId.key? = some k) (h : Sound t₀ k s) :
    (Clean command k s (.advance w) → Sound t₀ k (Race.step jobId command (.advance w) s).2) ∧
    (¬ Clean command k s (.advance w) →
      Spoiled k (Race.step jobId command (.advance w) s).2) := by
  obtain ⟨point, t, runId⟩ := s
  -- the steps that raise nothing have no unclean case
  have hclean : ∀ {C P Q : Prop}, C → P → (C → P) ∧ (¬ C → Q) := fun hC hP =>
    ⟨fun _ => hP, fun hnot => absurd hC hnot⟩
  cases hpoint : point with
  | lookup =>
    subst hpoint
    obtain ⟨hqueued, hresults⟩ := h
    have ⟨j, hj, _⟩ := hqueued
    rw [advance_lookup hkey hj]
    exact hclean trivial ⟨hqueued, hresults⟩
  | createRun job =>
    subst hpoint
    obtain ⟨hqueued, hresults⟩ := h
    obtain ⟨runs, id, hstep, hrun⟩ := advance_createRun
    rw [hstep]
    exact hclean trivial ⟨⟨id, rfl, rfl, hrun⟩, hqueued, hresults⟩
  | markRunning job rid =>
    subst hpoint
    obtain ⟨⟨id, rfl, hid, hrun⟩, hqueued, hresults⟩ := h
    obtain ⟨r, jobs, hexec, hrunning, hok⟩ := markRunning_effect w.env hkey hqueued
    cases r with
    | ok j =>
      have hstep : (runnerStep w jobId command (.markRunning job (.str id))).exec t =
          (.ok (.setRunning job (.str id)), { t with jobs := jobs }) := by
        rw [runnerStep, Prog.exec_bind_ok hexec]
        rfl
      rw [step_advance_ok (s := ⟨.markRunning job (.str id), t, runId⟩) hstep]
      exact hclean (hok.mp ⟨j, rfl⟩) ⟨⟨id, rfl, hid, hrun⟩, .inl hrunning, hresults⟩
    | error e =>
      have hstep : (runnerStep w jobId command (.markRunning job (.str id))).exec t =
          (.error e, { t with jobs := jobs }) := by
        rw [runnerStep, Prog.exec_bind_error hexec]
      rw [step_advance_error (s := ⟨.markRunning job (.str id), t, runId⟩) hstep]
      constructor
      · intro hfile
        obtain ⟨j, hj⟩ := hok.mpr hfile
        cases hj
      · intro _
        exact ⟨⟨e, rfl⟩, ⟨.str id, "created", .null, ⟨id, rfl, hid, hrun⟩, by decide⟩,
          .running, hrunning, by decide⟩
  | setRunning job rid =>
    subst hpoint
    obtain ⟨⟨id, rfl, hid, hrun⟩, hbusy⟩ := h
    obtain ⟨runs, hstep, hrun'⟩ := advance_setRunning hrun
    rw [hstep]
    exact hclean trivial ⟨⟨id, rfl, hid, hrun'⟩, hbusy⟩
  | context job rid =>
    subst hpoint
    exact sound_outside rfl (.inl ⟨job, rfl⟩) h
  | netlist job rid vars =>
    subst hpoint
    exact sound_outside rfl (.inr (.inl ⟨job, vars, rfl⟩)) h
  | simulate job rid vars =>
    subst hpoint
    exact sound_outside rfl (.inr (.inr (.inl ⟨job, vars, rfl⟩))) h
  | readMetrics job rid =>
    subst hpoint
    exact sound_outside rfl (.inr (.inr (.inr ⟨job, rfl⟩))) h
  | attachNetlist job rid vars code log =>
    subst hpoint
    obtain ⟨⟨id, rfl, hid, hrun⟩, hbusy⟩ := h
    obtain ⟨runs, hstep, hrun'⟩ := advance_attachNetlist hrun
    rw [hstep]
    split <;> exact hclean trivial ⟨⟨id, rfl, hid, hrun'⟩, hbusy⟩
  | attachLog job rid code log =>
    subst hpoint
    obtain ⟨⟨id, rfl, hid, hrun⟩, hbusy⟩ := h
    obtain ⟨runs, hstep, hrun'⟩ := advance_attachLog hrun
    rw [hstep]
    split <;> exact hclean trivial ⟨⟨id, rfl, hid, hrun'⟩, hbusy⟩
  | storeResult rid result =>
    subst hpoint
    obtain ⟨hrun, hbusy, htruthy⟩ := h
    obtain ⟨hstores, hraises⟩ := storeResult_effect w jobId command rid result t
    by_cases hwritable : ResultStore.Writable w.env
    · obtain ⟨results, hlatest, hstep⟩ := hstores hwritable
      rw [step_advance_ok (s := ⟨.storeResult rid result, t, runId⟩) hstep]
      rcases hbusy.1 with hjob | hjob
      · have hnot : ¬ HasJob t k .cancelled := by
          intro hcancelled
          have hsame := hjob.eq hcancelled
          simp at hsame
        exact hclean ⟨hwritable, hnot⟩ ⟨hrun, hjob, hlatest, htruthy⟩
      · exact ⟨fun hC => absurd hjob hC.2, fun _ => ⟨⟨_, hrun⟩, hjob⟩⟩
    · obtain ⟨e, results, hstep⟩ := hraises hwritable
      rw [step_advance_error (s := ⟨.storeResult rid result, t, runId⟩) hstep]
      refine ⟨fun hC => absurd hC.1 hwritable, fun _ => ?_⟩
      exact ⟨⟨e, rfl⟩, ⟨rid, "running", .null, hrun, by decide⟩, hbusy.ne_done⟩
  | linkResult rid result =>
    subst hpoint
    obtain ⟨⟨id, rfl, hid, hrun⟩, hstored⟩ := h
    obtain ⟨runs, hstep, hrun'⟩ := advance_linkResult hrun
    rw [hstep]
    exact hclean trivial ⟨⟨id, rfl, hid, hrun'⟩, hstored⟩
  | setDone rid result =>
    subst hpoint
    obtain ⟨⟨id, rfl, hid, hrun⟩, hstored⟩ := h
    obtain ⟨runs, hstep, hrun'⟩ := advance_setDone hrun
    rw [hstep]
    exact hclean trivial ⟨⟨id, rfl, hid, hrun'⟩, hstored⟩
  | markDone rid result =>
    subst hpoint
    obtain ⟨⟨id, rfl, hid, hrun⟩, hjob, hlatest, htruthy⟩ := h
    obtain ⟨r, jobs, j, hexec, hj, hat, hresult⟩ :=
      markDone_effect w.env (.str id) hkey hjob htruthy
    have hsettled : ∀ next : RunPoint,
        Settled t₀ k ⟨next, { t with jobs := jobs }, runId⟩ := fun next =>
      ⟨id, hid, .inl ⟨j, result, hj, hat, by rw [hresult]; exact hrun, hlatest, hresult.symm⟩⟩
    cases r with
    | ok job =>
      have hstep : (runnerStep w jobId command (.markDone (.str id) result)).exec t =
          (.ok (.emitResult (.str id) result job), { t with jobs := jobs }) := by
        rw [runnerStep, Prog.exec_bind_ok hexec]
        rfl
      rw [step_advance_ok (s := ⟨.markDone (.str id) result, t, runId⟩) hstep]
      exact hclean trivial (hsettled _)
    | error e =>
      have hstep : (runnerStep w jobId command (.markDone (.str id) result)).exec t =
          (.error e, { t with jobs := jobs }) := by
        rw [runnerStep, Prog.exec_bind_error hexec]
      rw [step_advance_error (s := ⟨.markDone (.str id) result, t, runId⟩) hstep]
      exact hclean trivial (hsettled _)
  | failRun rid error =>
    subst hpoint
    obtain ⟨⟨id, rfl, hid, hrun⟩, hbusy⟩ := h
    obtain ⟨runs, hstep, hrun'⟩ := advance_failRun hrun
    rw [hstep]
    exact hclean trivial ⟨⟨.str id, id, rfl, hid, hrun'⟩, hbusy⟩
  | failJob error =>
    subst hpoint
    obtain ⟨⟨rid, id, rfl, hid, hrun⟩, hbusy⟩ := h
    obtain ⟨r, jobs, hexec, hjob⟩ := markFailed_effect w.env error hkey hbusy.1
    have hsettled : ∀ next : RunPoint,
        Settled t₀ k ⟨next, { t with jobs := jobs }, runId⟩ := fun next =>
      ⟨id, hid, .inr ⟨hjob, ⟨_, hrun⟩, hbusy.2⟩⟩
    cases r with
    | ok job =>
      have hstep : (runnerStep w jobId command (.failJob error)).exec t =
          (.ok (.emitFailed error job), { t with jobs := jobs }) := by
        rw [runnerStep, Prog.exec_bind_ok hexec]
        rfl
      rw [step_advance_ok (s := ⟨.failJob error, t, runId⟩) hstep]
      exact hclean trivial (hsettled _)
    | error e =>
      have hstep : (runnerStep w jobId command (.failJob error)).exec t =
          (.error e, { t with jobs := jobs }) := by
        rw [runnerStep, Prog.exec_bind_error hexec]
      rw [step_advance_error (s := ⟨.failJob error, t, runId⟩) hstep]
      exact hclean trivial (hsettled _)
  | emitResult rid result job | emitDone rid result job | emitFailed error job | returned job
  | raised e =>
    subst hpoint
    exact hclean trivial h

/-- A spoiled race stays spoiled through a step of the runner. -/
theorem spoiled_advance (w : World) (hkey : jobId.key? = some k) (h : Spoiled k s) :
    Spoiled k (Race.step jobId command (.advance w) s).2 := by
  obtain ⟨point, t, runId⟩ := s
  cases hpoint : point with
  | lookup =>
    subst hpoint
    have ⟨j, hj, _⟩ := h
    rw [advance_lookup hkey hj]
    exact h
  | createRun job =>
    subst hpoint
    obtain ⟨runs, id, hstep, hrun⟩ := advance_createRun
    rw [hstep]
    exact ⟨⟨id, rfl, rfl, hrun⟩, h⟩
  | markRunning job rid =>
    subst hpoint
    obtain ⟨hrun, ⟨j, hj, hat⟩⟩ := h
    obtain ⟨e, hexec⟩ := JobStore.exec_set_refused w.env [] hkey hj hat
      (show JobStatus.running ∉ _ by decide)
    have hstep : (runnerStep w jobId command (.markRunning job rid)).exec t = (.error e, t) := by
      simp [runnerStep, Prog.exec_bind, JobStore.markRunning, hexec]
    rw [step_advance_error (s := ⟨.markRunning job rid, t, runId⟩) hstep]
    exact ⟨⟨e, rfl⟩, ⟨rid, "created", .null, hrun, by decide⟩, .cancelled, ⟨j, hj, hat⟩, by decide⟩
  | linkResult rid result =>
    subst hpoint
    obtain ⟨⟨v, id, rfl, hid, hrun⟩, hjob⟩ := h
    obtain ⟨runs, hstep, hrun'⟩ := advance_linkResult hrun
    rw [hstep]
    exact ⟨⟨_, id, rfl, hid, hrun'⟩, hjob⟩
  | setDone rid result =>
    subst hpoint
    obtain ⟨⟨v, id, rfl, hid, hrun⟩, hjob⟩ := h
    obtain ⟨runs, hstep, hrun'⟩ := advance_setDone hrun
    rw [hstep]
    exact ⟨⟨v, id, rfl, hid, hrun'⟩, hjob⟩
  | markDone rid result =>
    subst hpoint
    obtain ⟨⟨v, hrun⟩, ⟨j, hj, hat⟩⟩ := h
    obtain ⟨e, hexec⟩ := JobStore.exec_set_refused w.env
      (presentFields [("result_id", Obj.get result "result_id"), ("run_id", rid)]) hkey hj hat
      (show JobStatus.done ∉ _ by decide)
    have hstep : (runnerStep w jobId command (.markDone rid result)).exec t = (.error e, t) := by
      simp [runnerStep, Prog.exec_bind, JobStore.markDone, hexec]
    rw [step_advance_error (s := ⟨.markDone rid result, t, runId⟩) hstep]
    exact ⟨⟨e, rfl⟩, ⟨rid, "done", v, hrun, by decide⟩, .cancelled, ⟨j, hj, hat⟩, by decide⟩
  | raised e =>
    subst hpoint
    exact h
  | emitResult rid result job | emitDone rid result job | emitFailed error job | returned job =>
    subst hpoint
    obtain ⟨⟨e, hraised⟩, _⟩ := h
    cases hraised
  | _ =>
    subst hpoint
    exact absurd h not_false

end Advance

section Runs

variable {t₀ : Tunnel} {jobId : Json} {command : List String} {k : Key} {s : Race}

/-- A race that is spoiled when the runner has finished does not settle. -/
theorem not_settled_of_spoiled (h : Spoiled k s) (hfinished : s.point.finished = true) :
    ¬ Settled t₀ k s := by
  obtain ⟨point, t, runId⟩ := s
  have hphase : point.phase = .finished := by cases point <;> simp [RunPoint.finished] at hfinished <;> rfl
  unfold Spoiled at h
  dsimp only at h
  rw [hphase] at h
  obtain ⟨_, ⟨rid, status, v, ⟨id, _, hid, r, hr, hrun⟩, hnot⟩, a, hjob, hdone⟩ := h
  rintro ⟨id', hid', hends⟩
  dsimp only at hid hid'
  obtain rfl : id = id' := by simpa [hid] using hid'
  rcases hends with ⟨j, result, hj, hat, _⟩ | ⟨_, ⟨v', r', hr', hrun'⟩, _⟩
  · exact hdone (hjob.eq ⟨j, hj, hat⟩)
  · obtain rfl : r = r' := by simpa [hr] using hr'
    have hsame := hrun.status.symm.trans hrun'.status
    exact hnot (by simpa using hsame)

/-- In every race, the stores are sound as long as every move was clean, and spoiled from
the first move on that was not. -/
theorem sound_or_spoiled (hstart : Started jobId k t₀)
    {h : List (Entry Race Race.Move (Except PyExc Json))}
    (hrun : Run (race jobId command t₀) (fun _ _ => True) h s) :
    ((∀ e ∈ h, Clean command k e.before e.input) ∧ Sound t₀ k s) ∨
      ((¬ ∀ e ∈ h, Clean command k e.before e.input) ∧ Spoiled k s) := by
  induction hrun with
  | init hinit =>
    obtain rfl := hinit
    exact .inl ⟨by simp, hstart.queued, rfl⟩
  | @step h s m hrun _ ih =>
    change _ ∨ _ ∧ Spoiled k (Race.step jobId command m s).2
    have hall : (∀ e ∈ h ++ [(race jobId command t₀).fire s m], Clean command k e.before e.input) ↔
        (∀ e ∈ h, Clean command k e.before e.input) ∧ Clean command k s m := by
      simp [or_imp, forall_and, Machine.fire]
    rw [hall]
    rcases ih with ⟨hclean, hsound⟩ | ⟨hunclean, hspoiled⟩
    · have hnext : (Clean command k s m → Sound t₀ k (Race.step jobId command m s).2) ∧
          (¬ Clean command k s m → Spoiled k (Race.step jobId command m s).2) := by
        cases m with
        | advance w => exact sound_advance w hstart.key hsound
        | cancel env => exact sound_cancel env hstart.truthy hstart.key hsound
      by_cases hmove : Clean command k s m
      · exact .inl ⟨⟨hclean, hmove⟩, hnext.1 hmove⟩
      · exact .inr ⟨fun hboth => hmove hboth.2, hnext.2 hmove⟩
    · refine .inr ⟨fun hboth => hunclean hboth.1, ?_⟩
      cases m with
      | advance w => exact spoiled_advance w hstart.key hspoiled
      | cancel env => exact spoiled_cancel env hstart.truthy hstart.key hspoiled

end Runs

/-- The race after these moves. -/
def Race.after (jobId : Json) (command : List String) (s : Race) (moves : List Race.Move) : Race :=
  moves.foldl (fun s m => (Race.step jobId command m s).2) s

/-- A run goes on with any moves. -/
theorem run_after {t₀ : Tunnel} {jobId : Json} {command : List String} {s : Race}
    {h : List (Entry Race Race.Move (Except PyExc Json))} (moves : List Race.Move)
    (hrun : Run (race jobId command t₀) (fun _ _ => True) h s) :
    ∃ h', Run (race jobId command t₀) (fun _ _ => True) h' (Race.after jobId command s moves) := by
  induction moves generalizing s h with
  | nil => exact ⟨h, hrun⟩
  | cons m rest ih => exact ih (.step (i := m) hrun trivial)

/-- The stores with one queued job `job_1`. -/
def sampleQueued : Tunnel :=
  ((mJobCreate .sample [("job", .obj [("job_id", .str "job_1")])]).exec (Tunnel.fresh .empty)).2

/-- A step that finds a simulator that ends well and leaves the metrics `gain=1.5`. -/
def sampleAdvance : Race.Move :=
  .advance ⟨.sample, .exited 0 "", .exited 0 "", .contents "gain=1.5"⟩

/-- The race for `job_1` after these moves. -/
def sampleRace (moves : List Race.Move) : Race :=
  Race.after (.str "job_1") ["spectre"] ⟨.lookup, sampleQueued, none⟩ moves

/-- The job of the sample. -/
theorem sampleQueued_record : sampleQueued.jobs.records.get? (.str "job_1") =
    some (makeJob .sample [("job_id", .str "job_1")]) := by rfl

/-- It is queued, and can be run. -/
theorem sampleQueued_started : Started (.str "job_1") (.str "job_1") sampleQueued :=
  ⟨rfl, rfl, _, sampleQueued_record, statusOf_makeJob⟩

/-- Without a cancel request the runner comes to its end. -/
theorem sampleRace_finished :
    (sampleRace (List.replicate 15 sampleAdvance)).point.finished = true := by rfl

/-- The cancel request comes while the simulator of `job_1` is at work. -/
def sampleCancelled : Race :=
  sampleRace (List.replicate 6 sampleAdvance ++ .cancel .sample :: List.replicate 7 sampleAdvance)

/-- The record of `job_1` at the end of that race. -/
def sampleCancelledJob : Obj :=
  (sampleCancelled.tunnel.jobs.records.get? (.str "job_1")).getD []

/-- The record of its run. -/
def sampleCancelledRun : Obj :=
  (sampleCancelled.tunnel.runs.records.get? (.str "run_0123456789ab")).getD []

/-- The runner of the cancelled sample has finished. -/
theorem sampleCancelled_finished : sampleCancelled.point.finished = true := by rfl

/-- Its job is cancelled. -/
theorem sampleCancelled_job : sampleCancelled.tunnel.jobs.records.get? (.str "job_1") =
    some sampleCancelledJob := by rfl

/-- Its run is there. -/
theorem sampleCancelled_run : sampleCancelled.tunnel.runs.records.get? (.str "run_0123456789ab") =
    some sampleCancelledRun := by rfl

/-- That run is done. -/
theorem sampleCancelledRun_status : Obj.get sampleCancelledRun "status" = .str "done" := by rfl

/-- A result was stored all the same. -/
theorem sampleCancelled_latest : sampleCancelled.tunnel.results.latest.isSome = true := by rfl

end VirtuosoFlow.Tunnel
