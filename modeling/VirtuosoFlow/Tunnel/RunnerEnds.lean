import VirtuosoFlow.Tunnel.Cancellation

/-!
# How a runner ends

Between `mark_running` and the last mark of a job the runner meets data that it does not
guard: a cellview that is no dict, a string that cannot enter a process, a metrics file
that cannot be looked for or takes the parser down, a disk that refuses the result. What it raises there nobody
turns into a failure. The runner is watched together with the cancel requests for its job.
-/

namespace VirtuosoFlow.Tunnel

open Base RunStore

/-- `TERMINAL_STATUSES`. -/
def terminalStatuses : List JobStatus := [.done, .failed, .cancelled]

/-- The job has come to an end, and so has the run that was created for it. -/
def Ended (k : Key) (s : Race) : Prop :=
  (∃ a ∈ terminalStatuses, HasJob s.tunnel k a) ∧
    ∀ id, s.runId = some id → ∃ status ∈ ["done", "failed"], ∃ v, HasRun s.tunnel.runs id status v

/-- The moves that let the runner come to its end. No cancel comes while the job is queued.
The job's file has a name, the job's cellview is a dict or nothing, every string handed to a
command can be encoded and holds no NUL, the metrics file can be looked for, reading it
raises nothing but `OSError` and `ValueError`, and the disk takes the result. -/
def Unhindered (command : List String) (k : Key) (s : Race) : Race.Move → Prop
  | .cancel _ => ¬ HasJob s.tunnel k .queued
  | .advance w =>
    match s.point with
    | .markRunning _ _ => ∀ j, s.tunnel.jobs.records.get? k = some j →
        persistError w.env "job_id" j = none
    | .context job _ => (Obj.get job "cellview").truthy = true →
        ∃ members, Obj.get job "cellview" = .obj members
    | .netlist _ _ vars => ∀ ncmd, w.env.netlistCmd = some ncmd →
        ∀ s ∈ ncmd ++ vars, w.env.fsEncodeError s = none ∧ '\x00' ∉ s.toList
    | .simulate _ _ vars =>
      ∀ s ∈ command ++ vars, w.env.fsEncodeError s = none ∧ '\x00' ∉ s.toList
    | .readMetrics _ _ => (∀ m, w.metricsFile ≠ .inaccessible m) ∧
        (∀ e, w.metricsFile = .unreadable e → isReadError e = true) ∧
        ∀ text e, w.metricsFile = .contents text → parseResultFile w.env text = .error e →
          isReadError e = true
    | .storeResult _ _ => ResultStore.Writable w.env
    | _ => True

/-- The job was taken out of the queue and may have been cancelled since. -/
def Underway (t : Tunnel) (k : Key) : Prop := HasJob t k .running ∨ HasJob t k .cancelled

/-- What holds of the stores in every phase as long as no move hindered the runner. -/
def OnCourse (k : Key) (s : Race) : Prop :=
  match s.point.phase with
  | .waiting => HasJob s.tunnel k .queued
  | .created rid => (∃ v, Owns s rid "created" v) ∧ HasJob s.tunnel k .queued
  | .marked rid => (∃ v, Owns s rid "created" v) ∧ Underway s.tunnel k
  | .running rid => (∃ v, Owns s rid "running" v) ∧ Underway s.tunnel k
  | .parsed rid _ => (∃ v, Owns s rid "running" v) ∧ Underway s.tunnel k
  | .stored rid _ => (∃ v, Owns s rid "running" v) ∧ Underway s.tunnel k
  | .linked rid _ => (∃ v, Owns s rid "running" v) ∧ Underway s.tunnel k
  | .closed rid _ => (∃ v, Owns s rid "done" v) ∧ Underway s.tunnel k
  | .failing => (∃ rid v, Owns s rid "failed" v) ∧ Underway s.tunnel k
  | .finished => Ended k s

/-- The runner's run is stored, and it has not ended. -/
def RunOpen (s : Race) : Prop :=
  ∃ rid status v, Owns s rid status v ∧ status ∉ ["done", "failed"]

/-- What holds from the first move on that hindered the runner, and of a job that was not
queued when the runner began. -/
def Hung (k : Key) (s : Race) : Prop :=
  match s.point.phase with
  | .waiting => ¬ HasJob s.tunnel k .queued
  | .created rid => (∃ v, Owns s rid "created" v) ∧ ¬ HasJob s.tunnel k .queued
  | .finished => RunOpen s ∨ s.tunnel.jobs.records.get? k = none
  | _ => False

section Guards

variable {w : World} {command vars : List String} {job : Obj} {rid : Json}

/-- The context can be built exactly if the cellview is a dict or nothing. -/
theorem jobContext_ok_iff {env : Env} : (∃ vars, jobContext env job = .ok vars) ↔
    ((Obj.get job "cellview").truthy = true → ∃ members, Obj.get job "cellview" = .obj members) := by
  unfold jobContext pyOr
  by_cases htruthy : (Obj.get job "cellview").truthy = true
  · rw [if_pos htruthy]
    cases hcv : Obj.get job "cellview" with
    | obj members => simp [attrGet, bind, Except.bind, pure, Except.pure]
    | _ => simp [attrGet, bind, Except.bind, hcv ▸ htruthy]
  · rw [if_neg htruthy]
    simp [attrGet, bind, Except.bind, pure, Except.pure, htruthy]

/-- A command can be launched, or fail to be, exactly if every string of it can be handed
over. -/
theorem runCommand_ok_iff {env : Env} {outcome : CommandOutcome} :
    (∃ o, runCommand env command vars outcome = .ok o) ↔
      ∀ s ∈ command ++ vars, env.fsEncodeError s = none ∧ '\x00' ∉ s.toList := by
  have hnone : (command ++ vars).findSome? env.nameError = none ↔
      ∀ s ∈ command ++ vars, env.fsEncodeError s = none ∧ '\x00' ∉ s.toList := by
    rw [List.findSome?_eq_none_iff]
    exact forall₂_congr fun s _ => Env.nameError_eq_none
  rw [← hnone]
  unfold runCommand
  cases (command ++ vars).findSome? env.nameError with
  | none => simp
  | some e => simp

/-- Reading the metrics goes on exactly if the file can be looked for, and reading it raises
nothing but `OSError` and `ValueError`. -/
theorem readResult_ok_iff : (∃ reading, readResult w job = .ok reading) ↔
    (∀ m, w.metricsFile ≠ .inaccessible m) ∧
    (∀ e, w.metricsFile = .unreadable e → isReadError e = true) ∧
      ∀ text e, w.metricsFile = .contents text → parseResultFile w.env text = .error e →
        isReadError e = true := by
  unfold readResult
  cases hfile : w.metricsFile with
  | missing => simp
  | inaccessible m => simp
  | unreadable e =>
    by_cases hread : isReadError e = true
    · simp [hread]
    · simp [hread]
  | contents text =>
    have htext : (∀ text' e, MetricsFile.contents text = .contents text' →
        parseResultFile w.env text' = .error e → isReadError e = true) ↔
        ∀ e, parseResultFile w.env text = .error e → isReadError e = true := by
      refine ⟨fun h e => h text e rfl, ?_⟩
      rintro h text' e ⟨⟩
      exact h e
    rw [htext]
    dsimp only
    cases hparse : parseResultFile w.env text with
    | error e => by_cases hread : isReadError e = true <;> simp [hread]
    | ok parsed =>
      dsimp only
      split <;> simp

/-- At the points that look outside the stores, to go on is to be unhindered. -/
theorem passes_iff_unhindered {s : Race} (hpoint : (∃ job, s.point = .context job rid) ∨
    (∃ job vars, s.point = .netlist job rid vars) ∨
    (∃ job vars, s.point = .simulate job rid vars) ∨ ∃ job, s.point = .readMetrics job rid)
    (k : Key) : Passes w command s.point ↔ Unhindered command k s (.advance w) := by
  rcases hpoint with ⟨job, hp⟩ | ⟨job, vars, hp⟩ | ⟨job, vars, hp⟩ | ⟨job, hp⟩
  · simp only [Passes, Unhindered, hp]
    exact jobContext_ok_iff
  · simp only [Passes, Unhindered, hp]
    exact forall_congr' fun ncmd => imp_congr_right fun _ => runCommand_ok_iff
  · simp only [Passes, Unhindered, hp]
    exact runCommand_ok_iff
  · simp only [Passes, Unhindered, hp]
    exact readResult_ok_iff

end Guards

section Cancel

variable {jobId : Json} {command : List String} {k : Key} {s : Race} {t : Tunnel}

/-- A job under way was taken out of the queue. -/
theorem Underway.not_queued (h : Underway t k) : ¬ HasJob t k .queued := by
  intro hqueued
  rcases h with hjob | hjob
  · have hsame := hjob.eq hqueued
    simp at hsame
  · have hsame := hjob.eq hqueued
    simp at hsame

/-- A cancel request keeps a job under way. -/
theorem Underway.cancel (env : Env) (htruthy : jobId.truthy = true) (hkey : jobId.key? = some k)
    (h : Underway t k) : Underway ((mJobCancel env [("job_id", jobId)]).exec t).2 k := by
  rcases h with hjob | hjob
  · obtain ⟨_, _, hcancelled⟩ := mJobCancel_effect env htruthy hkey hjob
    rw [if_pos (by decide)] at hcancelled
    exact .inr hcancelled
  · obtain ⟨_, _, hjobs⟩ := mJobCancel_effect env htruthy hkey hjob
    rw [if_neg (by decide)] at hjobs
    right
    unfold HasJob at hjob ⊢
    rwa [hjobs]

/-- A cancel request leaves the runs alone. -/
theorem mJobCancel_runs (env : Env) (params : Obj) (t : Tunnel) :
    ((mJobCancel env params).exec t).2.runs = t.runs := by
  have hcancel : ∀ id, Prog.Keeps (fun _ _ => True) (JobStore.cancel env id) :=
    fun _ _ => trivial
  have hkeeps : Prog.Keeps (Prog.Fixes Tunnel.runs) (mJobCancel env params) := by
    refine .bind (.ite (.pure _) (.throw _)) fun id => ?_
    refine .bind (.mapError (.zoom (hcancel id) fun _ _ _ => rfl)) fun job => ?_
    refine .bind (.bind (.ofExcept _) fun _ => ?_) fun _ => .pure _
    exact fun _ => rfl
  exact hkeeps t

/-- A cancel request puts no job into the queue, and stores none. -/
theorem mJobCancel_adds_nothing (env : Env) (params : Obj) (t : Tunnel) (k : Key) :
    let t' := ((mJobCancel env params).exec t).2
    (HasJob t' k .queued → HasJob t k .queued) ∧
      (t.jobs.records.get? k = none → t'.jobs.records.get? k = none) := by
  intro t'
  have hlaw : Method.jobCancel.law.Holds t t' := handle_keeps env .jobCancel params t
  have hnew : Method.jobCancel.law.newJob = false := rfl
  constructor
  · rintro ⟨j', hj', hat⟩
    apply hlaw.jobs.not_entered (G := fun j => jobLifecycle.At j .queued) ?_ ?_ hj' hat
    · rintro j _ ⟨hallowed, _⟩
      simp [hnew] at hallowed
    · rintro r r' ⟨a, b, _, _, hedge, hat', _⟩ hqueued
      obtain rfl := hat'.eq hqueued
      cases a <;> simp [jobLifecycle, JobStatus.transitions] at hedge
  · intro hnone
    cases hj' : t'.jobs.records.get? k with
    | none => rfl
    | some j' =>
      rcases hlaw.jobs.origin hj' with ⟨j, hj, _⟩ | ⟨_, j, ⟨hallowed, _⟩, _⟩
      · simp [hnone] at hj
      · simp [hnew] at hallowed

/-- What has ended stays as it is. -/
theorem Ended.cancel (env : Env) (htruthy : jobId.truthy = true) (hkey : jobId.key? = some k)
    (h : Ended k s) : Ended k (Race.step jobId command (.cancel env) s).2 := by
  obtain ⟨⟨a, ha, hjob⟩, hruns⟩ := h
  have hedge : .cancelled ∉ a.transitions := by
    simp only [terminalStatuses, List.mem_cons, List.not_mem_nil, or_false] at ha
    rcases ha with rfl | rfl | rfl <;> decide
  obtain ⟨hsame, _, hjobs⟩ := mJobCancel_effect env htruthy hkey hjob
  rw [if_neg hedge] at hjobs
  refine ⟨⟨a, ha, ?_⟩, ?_⟩
  · unfold HasJob at hjob ⊢
    change ∃ j, ((mJobCancel env [("job_id", jobId)]).exec s.tunnel).2.jobs.records.get? k = some j ∧ _
    rwa [hjobs]
  · intro id hid
    change ∃ status ∈ _, ∃ v, HasRun ((mJobCancel env [("job_id", jobId)]).exec s.tunnel).2.runs _ _ _
    rw [hsame]
    exact hruns id hid

/-- A cancel request leaves a runner on its course unless it comes while the job is queued;
then the runner hangs. -/
theorem onCourse_cancel (env : Env) (htruthy : jobId.truthy = true) (hkey : jobId.key? = some k)
    (h : OnCourse k s) :
    (Unhindered command k s (.cancel env) →
      OnCourse k (Race.step jobId command (.cancel env) s).2) ∧
    (¬ Unhindered command k s (.cancel env) →
      Hung k (Race.step jobId command (.cancel env) s).2) := by
  set s' := (Race.step jobId command (.cancel env) s).2 with hs'
  have hpoint : s'.point = s.point := rfl
  have hruns : s'.tunnel.runs = s.tunnel.runs := mJobCancel_runs env _ s.tunnel
  have howns : ∀ {rid status}, (∃ v, Owns s rid status v) → ∃ v, Owns s' rid status v :=
    fun ⟨v, hrun⟩ => ⟨v, hrun.of_runs rfl hruns⟩
  have hqueued : HasJob s.tunnel k .queued → ¬ HasJob s'.tunnel k .queued := by
    intro hjob hjob'
    obtain ⟨_, _, hcancelled⟩ := mJobCancel_effect env htruthy hkey hjob
    rw [if_pos (by decide)] at hcancelled
    have hsame := hcancelled.eq hjob'
    simp at hsame
  have hunderway : Underway s.tunnel k → Underway s'.tunnel k := .cancel env htruthy hkey
  unfold OnCourse at h
  unfold Unhindered OnCourse Hung
  rw [hpoint]
  cases hphase : s.point.phase with
  | waiting =>
    rw [hphase] at h
    exact ⟨fun hnot => absurd h hnot, fun _ => hqueued h⟩
  | created rid =>
    rw [hphase] at h
    exact ⟨fun hnot => absurd h.2 hnot, fun _ => ⟨howns h.1, hqueued h.2⟩⟩
  | failing =>
    rw [hphase] at h
    obtain ⟨⟨rid, hrun⟩, hjob⟩ := h
    exact ⟨fun _ => ⟨⟨rid, howns hrun⟩, hunderway hjob⟩,
      fun hhindered => absurd hjob.not_queued hhindered⟩
  | finished =>
    rw [hphase] at h
    refine ⟨fun _ => h.cancel env htruthy hkey, fun hhindered => ?_⟩
    obtain ⟨⟨a, ha, hjob⟩, _⟩ := h
    refine absurd (fun hjob' => ?_) hhindered
    obtain rfl := hjob.eq hjob'
    simp [terminalStatuses] at ha
  | _ =>
    rw [hphase] at h
    exact ⟨fun _ => ⟨howns h.1, hunderway h.2⟩, fun hhindered => absurd h.2.not_queued hhindered⟩

/-- A cancel request does not bring a hanging runner back. -/
theorem hung_cancel (env : Env) (h : Hung k s) :
    Hung k (Race.step jobId command (.cancel env) s).2 := by
  set s' := (Race.step jobId command (.cancel env) s).2 with hs'
  have hpoint : s'.point = s.point := rfl
  have hruns : s'.tunnel.runs = s.tunnel.runs := mJobCancel_runs env _ s.tunnel
  obtain ⟨hqueued, hnone⟩ := mJobCancel_adds_nothing env [("job_id", jobId)] s.tunnel k
  have hstays : ¬ HasJob s.tunnel k .queued → ¬ HasJob s'.tunnel k .queued :=
    fun hnot hjob => hnot (hqueued hjob)
  unfold Hung at h ⊢
  rw [hpoint]
  cases hphase : s.point.phase with
  | waiting =>
    rw [hphase] at h
    exact hstays h
  | created rid =>
    rw [hphase] at h
    obtain ⟨⟨v, hrun⟩, hnot⟩ := h
    exact ⟨⟨v, hrun.of_runs rfl hruns⟩, hstays hnot⟩
  | finished =>
    rw [hphase] at h
    rcases h with ⟨rid, status, v, hrun, hopen⟩ | hmissing
    · exact .inl ⟨rid, status, v, hrun.of_runs rfl hruns, hopen⟩
    · exact .inr (hnone hmissing)
  | _ =>
    rw [hphase] at h
    exact absurd h not_false

end Cancel

section Advance

variable {t : Tunnel} {jobId rid : Json} {command : List String} {k : Key} {s : Race}
variable {w : World} {runId : Option String} {point : RunPoint}

/-- A job that is not queued is not marked running. -/
theorem markRunning_refused (env : Env) (hkey : jobId.key? = some k)
    (hnot : ¬ HasJob t k .queued) :
    ∃ e, (onJobs (JobStore.markRunning env jobId)).exec t = (.error e, t) := by
  rcases setStatus_cases env "job_id" "unknown job_id: %s" (jobTransition env .running [])
      jobId t.jobs with ⟨e, hexec⟩ | ⟨k', j, j', writes, hkey', hj, htr, hexec⟩
  · exact ⟨e, by rw [exec_onJobs, JobStore.markRunning, JobStore.set, hexec]⟩
  · obtain rfl : k = k' := by simpa [hkey] using hkey'
    obtain ⟨⟨a, hat, hedge⟩, _⟩ := Lifecycle.transition_eq_ok.mp htr
    have hqueued : a = .queued := by
      cases a <;> simp [jobLifecycle, JobStatus.transitions] at hedge ⊢
    exact absurd ⟨j, hj, hqueued ▸ hat⟩ hnot

/-- Marking a job under way done ends it, in one of two ways. -/
theorem markDone_ends (env : Env) (resultId rid : Json) (hkey : jobId.key? = some k)
    (hjob : Underway t k) :
    ∃ r jobs, (onJobs (JobStore.markDone env jobId resultId rid)).exec t =
        (r, { t with jobs := jobs }) ∧ ∃ a ∈ terminalStatuses, HasJob { t with jobs := jobs } k a := by
  rcases hjob with ⟨j, hj, hat⟩ | ⟨j, hj, hat⟩
  · obtain ⟨j', writes, hexec, hat', _⟩ := JobStore.exec_set env
      (presentFields [("result_id", resultId), ("run_id", rid)]) hkey hj hat
      (show JobStatus.done ∈ _ by decide)
    exact ⟨_, _, by rw [exec_onJobs, JobStore.markDone, hexec], .done, by decide, j', by simp, hat'⟩
  · obtain ⟨e, hexec⟩ := JobStore.exec_set_refused env
      (presentFields [("result_id", resultId), ("run_id", rid)]) hkey hj hat
      (show JobStatus.done ∉ _ by decide)
    exact ⟨_, _, by rw [exec_onJobs, JobStore.markDone, hexec], .cancelled, by decide, j, hj, hat⟩

/-- A step outside the stores keeps the runner on its course if it is unhindered; otherwise
the runner hangs. -/
theorem onCourse_outside (hphase : point.phase = .running rid)
    (hpoint : (∃ job, point = .context job rid) ∨ (∃ job vars, point = .netlist job rid vars) ∨
      (∃ job vars, point = .simulate job rid vars) ∨ ∃ job, point = .readMetrics job rid)
    (h : OnCourse k ⟨point, t, runId⟩) :
    (Unhindered command k ⟨point, t, runId⟩ (.advance w) →
      OnCourse k (Race.step jobId command (.advance w) ⟨point, t, runId⟩).2) ∧
    (¬ Unhindered command k ⟨point, t, runId⟩ (.advance w) →
      Hung k (Race.step jobId command (.advance w) ⟨point, t, runId⟩).2) := by
  unfold OnCourse at h
  dsimp only at h
  rw [hphase] at h
  obtain ⟨⟨v, hrun⟩, hjob⟩ := h
  have hdrawn : point.drawn w runId = runId := by
    rcases hpoint with ⟨_, rfl⟩ | ⟨_, _, rfl⟩ | ⟨_, _, rfl⟩ | ⟨_, rfl⟩ <;> rfl
  rw [← passes_iff_unhindered (s := ⟨point, t, runId⟩) hpoint k]
  obtain ⟨hgoes, hraises⟩ := runnerStep_outside w jobId command t hpoint
  constructor
  · intro hpasses
    obtain ⟨next, hexec, hnext⟩ := hgoes hpasses
    rw [step_advance_ok (s := ⟨point, t, runId⟩) hexec, hdrawn]
    rcases hnext with hphase' | ⟨result, rfl, _⟩
    · unfold OnCourse
      dsimp only
      rw [hphase']
      exact ⟨⟨v, hrun⟩, hjob⟩
    · exact ⟨⟨v, hrun⟩, hjob⟩
  · intro hpasses
    obtain ⟨e, hexec⟩ := hraises hpasses
    rw [step_advance_error (s := ⟨point, t, runId⟩) hexec, hdrawn]
    exact .inl ⟨rid, "running", v, hrun, by decide⟩

/-- A step of the runner keeps it on its course if it is unhindered; otherwise the runner
hangs. -/
theorem onCourse_advance (w : World) (hkey : jobId.key? = some k) (h : OnCourse k s) :
    (Unhindered command k s (.advance w) →
      OnCourse k (Race.step jobId command (.advance w) s).2) ∧
    (¬ Unhindered command k s (.advance w) →
      Hung k (Race.step jobId command (.advance w) s).2) := by
  obtain ⟨point, t, runId⟩ := s
  -- the steps that raise nothing are never hindered
  have hgoes : ∀ {C P Q : Prop}, C → P → (C → P) ∧ (¬ C → Q) := fun hC hP =>
    ⟨fun _ => hP, fun hnot => absurd hC hnot⟩
  cases hpoint : point with
  | lookup =>
    subst hpoint
    have ⟨j, hj, _⟩ := h
    rw [advance_lookup hkey hj]
    exact hgoes trivial h
  | createRun job =>
    subst hpoint
    obtain ⟨runs, id, hstep, hrun⟩ := advance_createRun
    rw [hstep]
    exact hgoes trivial ⟨⟨_, id, rfl, rfl, hrun⟩, h⟩
  | markRunning job rid =>
    subst hpoint
    obtain ⟨⟨v, id, rfl, hid, hrun⟩, hqueued⟩ := h
    obtain ⟨r, jobs, hexec, hrunning, hok⟩ := markRunning_effect w.env hkey hqueued
    cases r with
    | ok j =>
      have hstep : (runnerStep w jobId command (.markRunning job (.str id))).exec t =
          (.ok (.setRunning job (.str id)), { t with jobs := jobs }) := by
        rw [runnerStep, Prog.exec_bind_ok hexec]
        rfl
      rw [step_advance_ok (s := ⟨.markRunning job (.str id), t, runId⟩) hstep]
      exact hgoes (hok.mp ⟨j, rfl⟩) ⟨⟨v, id, rfl, hid, hrun⟩, .inl hrunning⟩
    | error e =>
      have hstep : (runnerStep w jobId command (.markRunning job (.str id))).exec t =
          (.error e, { t with jobs := jobs }) := by
        rw [runnerStep, Prog.exec_bind_error hexec]
      rw [step_advance_error (s := ⟨.markRunning job (.str id), t, runId⟩) hstep]
      constructor
      · intro hfile
        obtain ⟨j, hj⟩ := hok.mpr hfile
        cases hj
      · intro _
        exact .inl ⟨.str id, "created", v, ⟨id, rfl, hid, hrun⟩, by decide⟩
  | setRunning job rid =>
    subst hpoint
    obtain ⟨⟨v, id, rfl, hid, hrun⟩, hjob⟩ := h
    obtain ⟨runs, hstep, hrun'⟩ := advance_setRunning hrun
    rw [hstep]
    exact hgoes trivial ⟨⟨v, id, rfl, hid, hrun'⟩, hjob⟩
  | context job rid =>
    subst hpoint
    exact onCourse_outside rfl (.inl ⟨job, rfl⟩) h
  | netlist job rid vars =>
    subst hpoint
    exact onCourse_outside rfl (.inr (.inl ⟨job, vars, rfl⟩)) h
  | simulate job rid vars =>
    subst hpoint
    exact onCourse_outside rfl (.inr (.inr (.inl ⟨job, vars, rfl⟩))) h
  | readMetrics job rid =>
    subst hpoint
    exact onCourse_outside rfl (.inr (.inr (.inr ⟨job, rfl⟩))) h
  | attachNetlist job rid vars code log =>
    subst hpoint
    obtain ⟨⟨v, id, rfl, hid, hrun⟩, hjob⟩ := h
    obtain ⟨runs, hstep, hrun'⟩ := advance_attachNetlist hrun
    rw [hstep]
    split <;> exact hgoes trivial ⟨⟨v, id, rfl, hid, hrun'⟩, hjob⟩
  | attachLog job rid code log =>
    subst hpoint
    obtain ⟨⟨v, id, rfl, hid, hrun⟩, hjob⟩ := h
    obtain ⟨runs, hstep, hrun'⟩ := advance_attachLog hrun
    rw [hstep]
    split <;> exact hgoes trivial ⟨⟨v, id, rfl, hid, hrun'⟩, hjob⟩
  | storeResult rid result =>
    subst hpoint
    obtain ⟨⟨v, hrun⟩, hjob⟩ := h
    obtain ⟨hstores, hraises⟩ := storeResult_effect w jobId command rid result t
    constructor
    · intro hwritable
      obtain ⟨results, _, hstep⟩ := hstores hwritable
      rw [step_advance_ok (s := ⟨.storeResult rid result, t, runId⟩) hstep]
      exact ⟨⟨v, hrun⟩, hjob⟩
    · intro hwritable
      obtain ⟨e, results, hstep⟩ := hraises hwritable
      rw [step_advance_error (s := ⟨.storeResult rid result, t, runId⟩) hstep]
      exact .inl ⟨rid, "running", v, hrun, by decide⟩
  | linkResult rid result =>
    subst hpoint
    obtain ⟨⟨v, id, rfl, hid, hrun⟩, hjob⟩ := h
    obtain ⟨runs, hstep, hrun'⟩ := advance_linkResult hrun
    rw [hstep]
    exact hgoes trivial ⟨⟨_, id, rfl, hid, hrun'⟩, hjob⟩
  | setDone rid result =>
    subst hpoint
    obtain ⟨⟨v, id, rfl, hid, hrun⟩, hjob⟩ := h
    obtain ⟨runs, hstep, hrun'⟩ := advance_setDone hrun
    rw [hstep]
    exact hgoes trivial ⟨⟨v, id, rfl, hid, hrun'⟩, hjob⟩
  | markDone rid result =>
    subst hpoint
    obtain ⟨⟨v, id, rfl, hid, hrun⟩, hjob⟩ := h
    obtain ⟨r, jobs, hexec, hends⟩ :=
      markDone_ends w.env (Obj.get result "result_id") (.str id) hkey hjob
    have hended : ∀ next : RunPoint, Ended k ⟨next, { t with jobs := jobs }, runId⟩ := by
      intro next
      refine ⟨hends, fun id' hid' => ⟨"done", by decide, v, ?_⟩⟩
      obtain rfl : id = id' := Option.some.inj (hid.symm.trans hid')
      exact hrun
    cases r with
    | ok job =>
      have hstep : (runnerStep w jobId command (.markDone (.str id) result)).exec t =
          (.ok (.emitResult (.str id) result job), { t with jobs := jobs }) := by
        rw [runnerStep, Prog.exec_bind_ok hexec]
        rfl
      rw [step_advance_ok (s := ⟨.markDone (.str id) result, t, runId⟩) hstep]
      exact hgoes trivial (hended _)
    | error e =>
      have hstep : (runnerStep w jobId command (.markDone (.str id) result)).exec t =
          (.error e, { t with jobs := jobs }) := by
        rw [runnerStep, Prog.exec_bind_error hexec]
      rw [step_advance_error (s := ⟨.markDone (.str id) result, t, runId⟩) hstep]
      exact hgoes trivial (hended _)
  | failRun rid error =>
    subst hpoint
    obtain ⟨⟨v, id, rfl, hid, hrun⟩, hjob⟩ := h
    obtain ⟨runs, hstep, hrun'⟩ := advance_failRun hrun
    rw [hstep]
    exact hgoes trivial ⟨⟨.str id, v, id, rfl, hid, hrun'⟩, hjob⟩
  | failJob error =>
    subst hpoint
    obtain ⟨⟨rid, v, id, rfl, hid, hrun⟩, hjob⟩ := h
    obtain ⟨r, jobs, hexec, hends⟩ := markFailed_effect w.env error hkey hjob
    have hended : ∀ next : RunPoint, Ended k ⟨next, { t with jobs := jobs }, runId⟩ := by
      intro next
      constructor
      · rcases hends with hfailed | hcancelled
        · exact ⟨.failed, by decide, hfailed⟩
        · exact ⟨.cancelled, by decide, hcancelled⟩
      · intro id' hid'
        obtain rfl : id = id' := Option.some.inj (hid.symm.trans hid')
        exact ⟨"failed", by decide, v, hrun⟩
    cases r with
    | ok job =>
      have hstep : (runnerStep w jobId command (.failJob error)).exec t =
          (.ok (.emitFailed error job), { t with jobs := jobs }) := by
        rw [runnerStep, Prog.exec_bind_ok hexec]
        rfl
      rw [step_advance_ok (s := ⟨.failJob error, t, runId⟩) hstep]
      exact hgoes trivial (hended _)
    | error e =>
      have hstep : (runnerStep w jobId command (.failJob error)).exec t =
          (.error e, { t with jobs := jobs }) := by
        rw [runnerStep, Prog.exec_bind_error hexec]
      rw [step_advance_error (s := ⟨.failJob error, t, runId⟩) hstep]
      exact hgoes trivial (hended _)
  | emitResult rid result job | emitDone rid result job | emitFailed error job | returned job
  | raised e =>
    subst hpoint
    exact hgoes trivial h

/-- A hanging runner goes on to raise, and changes nothing any more. -/
theorem hung_advance (w : World) (hkey : jobId.key? = some k) (h : Hung k s) :
    Hung k (Race.step jobId command (.advance w) s).2 := by
  obtain ⟨point, t, runId⟩ := s
  cases hpoint : point with
  | lookup =>
    subst hpoint
    cases hj : t.jobs.records.get? k with
    | none =>
      have hstep : (runnerStep w jobId command .lookup).exec t =
          (.error (.keyError (.text "unknown job_id: %s" [jobId])), t) := by
        simp [runnerStep, Prog.exec_bind, JobStore.get, getRecord, hashKey, hkey, hj]
      rw [step_advance_error (s := ⟨.lookup, t, runId⟩) hstep]
      exact .inr hj
    | some j =>
      rw [advance_lookup hkey hj]
      exact h
  | createRun job =>
    subst hpoint
    obtain ⟨runs, id, hstep, hrun⟩ := advance_createRun
    rw [hstep]
    exact ⟨⟨_, id, rfl, rfl, hrun⟩, h⟩
  | markRunning job rid =>
    subst hpoint
    obtain ⟨⟨v, hrun⟩, hnot⟩ := h
    obtain ⟨e, hexec⟩ := markRunning_refused w.env hkey hnot
    have hstep : (runnerStep w jobId command (.markRunning job rid)).exec t = (.error e, t) := by
      rw [runnerStep, Prog.exec_bind_error hexec]
    rw [step_advance_error (s := ⟨.markRunning job rid, t, runId⟩) hstep]
    exact .inl ⟨rid, "created", v, hrun, by decide⟩
  | emitResult rid result job | emitDone rid result job | emitFailed error job | returned job
  | raised e =>
    subst hpoint
    exact h
  | _ =>
    subst hpoint
    exact absurd h not_false

end Advance

section Runs

variable {t₀ : Tunnel} {jobId : Json} {command : List String} {k : Key} {s : Race}
variable {h : List (Entry Race Race.Move (Except PyExc Json))}

/-- Where the runner hung, the job or the run has not ended. -/
theorem not_ended_of_hung (hhung : Hung k s) (hfinished : s.point.finished = true) :
    ¬ Ended k s := by
  have hphase : s.point.phase = .finished := by
    revert hfinished
    cases s.point <;> simp [RunPoint.finished, RunPoint.phase]
  unfold Hung at hhung
  rw [hphase] at hhung
  rintro ⟨⟨a, _, j, hj, _⟩, hruns⟩
  rcases hhung with ⟨rid, status, v, ⟨id, _, hid, r, hr, hrun⟩, hopen⟩ | hmissing
  · obtain ⟨status', hstatus', v', r', hr', hrun'⟩ := hruns id hid
    obtain rfl : r = r' := by simpa [hr] using hr'
    have hsame : status = status' := by simpa using hrun.status.symm.trans hrun'.status
    exact hopen (hsame ▸ hstatus')
  · simp [hmissing] at hj

/-- In every race, the runner is on its course as long as the job was queued at the start
and no move hindered it, and hangs otherwise. -/
theorem onCourse_or_hung (htruthy : jobId.truthy = true) (hkey : jobId.key? = some k)
    (hrun : Run (race jobId command t₀) (fun _ _ => True) h s) :
    ((HasJob t₀ k .queued ∧ ∀ e ∈ h, Unhindered command k e.before e.input) ∧ OnCourse k s) ∨
      (¬ (HasJob t₀ k .queued ∧ ∀ e ∈ h, Unhindered command k e.before e.input) ∧ Hung k s) := by
  induction hrun with
  | init hinit =>
    obtain rfl := hinit
    by_cases hqueued : HasJob t₀ k .queued
    · exact .inl ⟨⟨hqueued, by simp⟩, hqueued⟩
    · exact .inr ⟨fun hboth => hqueued hboth.1, hqueued⟩
  | @step h s m hrun _ ih =>
    change _ ∧ OnCourse k (Race.step jobId command m s).2 ∨
      _ ∧ Hung k (Race.step jobId command m s).2
    have hall : (∀ e ∈ h ++ [(race jobId command t₀).fire s m],
        Unhindered command k e.before e.input) ↔
        (∀ e ∈ h, Unhindered command k e.before e.input) ∧ Unhindered command k s m := by
      simp [or_imp, forall_and, Machine.fire]
    rw [hall]
    rcases ih with ⟨⟨hqueued, hfree⟩, hcourse⟩ | ⟨hhindered, hhung⟩
    · have hnext : (Unhindered command k s m → OnCourse k (Race.step jobId command m s).2) ∧
          (¬ Unhindered command k s m → Hung k (Race.step jobId command m s).2) := by
        cases m with
        | advance w => exact onCourse_advance w hkey hcourse
        | cancel env => exact onCourse_cancel env htruthy hkey hcourse
      by_cases hmove : Unhindered command k s m
      · exact .inl ⟨⟨hqueued, hfree, hmove⟩, hnext.1 hmove⟩
      · exact .inr ⟨fun hboth => hmove hboth.2.2, hnext.2 hmove⟩
    · refine .inr ⟨fun hboth => hhindered ⟨hboth.1, hboth.2.1⟩, ?_⟩
      cases m with
      | advance w => exact hung_advance w hkey hhung
      | cancel env => exact hung_cancel env hhung

end Runs

/-- A request for a job whose cellview is a string. -/
def sampleMalformed : Obj :=
  [("job", .obj [("job_id", .str "job_1"), ("cellview", .str "lib/top/schematic")])]

/-- The stores after that request. -/
def sampleMalformedQueued : Tunnel :=
  ((mJobCreate .sample sampleMalformed).exec (Tunnel.fresh .empty)).2

/-- The race for that job after five steps of its runner. -/
def sampleHung : Race :=
  Race.after (.str "job_1") ["spectre"] ⟨.lookup, sampleMalformedQueued, none⟩
    (List.replicate 5 sampleAdvance)

/-- The record of the job then. -/
def sampleHungJob : Obj := (sampleHung.tunnel.jobs.records.get? (.str "job_1")).getD []

/-- The runner of the hung sample has finished. -/
theorem sampleHung_finished : sampleHung.point.finished = true := by rfl

/-- Its job still says that it runs. -/
theorem sampleHung_job : sampleHung.tunnel.jobs.records.get? (.str "job_1") =
    some sampleHungJob := by rfl

/-- The tunnel accepts the malformed job. -/
theorem sampleMalformed_accepted :
    ((mJobCreate .sample sampleMalformed).exec (Tunnel.fresh .empty)).1.isOk = true := by rfl

end VirtuosoFlow.Tunnel
