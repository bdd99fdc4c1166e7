import VirtuosoFlow.Tunnel.Requests

/-!
# The freshness guard

`job.create` answers with a stored job instead of a new one when a done job has the
same fingerprint. The guard trusts the stored status, so what a reused job went
through depends on how records come to carry `running` and `done`.
-/

namespace VirtuosoFlow.Tunnel

open Base

/-- The job under a key is in a status. -/
def JobIn (k : Key) (a : JobStatus) (s : System) : Prop :=
  ∃ j, s.tunnel.jobs.records.get? k = some j ∧ jobLifecycle.At j a

/-- The step moved the job under a key from one status to another. -/
def JobMoves (k : Key) (a b : JobStatus) (e : Entry System Input (Except PyExc Json)) : Prop :=
  JobIn k a e.before ∧ JobIn k b e.after

/-- The steps that keep the histories of jobs complete: `job.create` stores no job that is
already running or done. -/
def KeepsJobHistory (s : System) : Input → Prop
  | .request env .jobCreate params => ∀ k j, StoresJob env params s.tunnel k j →
      ¬ jobLifecycle.At j .running ∧ ¬ jobLifecycle.At j .done
  | _ => True

/-- No request moves a job twice. -/
theorem Method.jobTargets_stuck (m : Method) :
    ∀ a ∈ m.law.jobTargets, ∀ b ∈ m.law.jobTargets, b ∉ a.transitions := by
  cases m <;> decide

/-- No input moves a job twice: no status it moves jobs into leads to another such. -/
theorem jobTargets_stuck (i : Input) (s : System) :
    ∀ a ∈ (i.law s).jobTargets, ∀ b ∈ (i.law s).jobTargets, b ∉ a.transitions := by
  cases i with
  | request env method params => exact method.jobTargets_stuck
  | sweep env => simp [Input.law]
  | advance w j =>
    simp only [Input.law]
    cases hr : s.runners[j]? with
    | none => simp
    | some r =>
      simp only [Option.map_some, Option.getD_some]
      cases r.point <;> simp [RunPoint.law, JobStatus.transitions]

/-- Only `job.create` stores jobs. -/
theorem newJob_eq_false {i : Input} {s : System}
    (h : ∀ env params, i ≠ .request env .jobCreate params) : (i.law s).newJob = false := by
  cases i with
  | request env method params => cases method <;> first | rfl | exact absurd rfl (h env params)
  | sweep env => rfl
  | advance w j =>
    simp only [Input.law]
    cases hr : s.runners[j]? with
    | none => rfl
    | some r =>
      simp only [Option.map_some, Option.getD_some]
      cases r.point <;> rfl

/-- A job that is found running or done after a step, and was not before, came along an
edge of the table. -/
theorem jobMoves_of_step {s : System} {i : Input} {k : Key} {b : JobStatus}
    (hkeeps : KeepsJobHistory s i) (hb : b = .running ∨ b = .done) (hbefore : ¬ JobIn k b s)
    (hafter : JobIn k b (daemon.step i s).2) :
    ∃ a, b ∈ a.transitions ∧ JobMoves k a b (daemon.fire s i) := by
  have hlaw := step_law i s
  have hstuck := jobTargets_stuck i s
  have hafter' := hafter
  obtain ⟨j', hj', hat'⟩ := hafter
  by_cases hcreate : ∃ env params, i = .request env .jobCreate params
  · obtain ⟨env, params, rfl⟩ := hcreate
    exfalso
    rcases mJobCreate_records env params s.tunnel
      with hsame | ⟨k', j, hstores, hinsert⟩
    · exact hbefore ⟨j', by rw [← hsame]; exact hj', hat'⟩
    · have hget : (s.tunnel.jobs.records.insert k' j).get? k = some j' := by
        rw [← hinsert]; exact hj'
      rw [Dict.get?_insert] at hget
      split at hget
      · obtain rfl : j = j' := by simpa using hget
        obtain ⟨hrunning, hdone⟩ := hkeeps k' j hstores
        rcases hb with rfl | rfl
        · exact hrunning hat'
        · exact hdone hat'
      · exact hbefore ⟨j', hget, hat'⟩
  · have hnew : (i.law s).newJob = false :=
      newJob_eq_false fun env params heq => hcreate ⟨env, params, heq⟩
    rcases hlaw.jobs.origin hj' with ⟨j, hj, hpath⟩ | ⟨_, j, harrives, _⟩
    · rcases Lifecycle.step_of_steps hstuck hpath with rfl | ⟨a, b', hat, _, hedge, hat'', _⟩
      · exact absurd ⟨j', hj, hat'⟩ hbefore
      · obtain rfl := hat''.eq hat'
        exact ⟨a, hedge, ⟨j, hj, hat⟩, hafter'⟩
    · simp [Arrives, hnew] at harrives

/-- In a run whose steps keep the histories, a done job went from queued through running
to done. -/
theorem done_was_run {h : List (Entry System Input (Except PyExc Json))} {s : System}
    (hrun : Run daemon KeepsJobHistory h s) {k : Key} (hdone : JobIn k .done s) :
    ∃ h₁ e₁ h₂ e₂ h₃, h = h₁ ++ e₁ :: (h₂ ++ e₂ :: h₃) ∧
      JobMoves k .queued .running e₁ ∧ JobMoves k .running .done e₂ := by
  have hfresh : ∀ b s, daemon.init s → ¬ JobIn k b s := by
    rintro b _ ⟨registry, rfl⟩ ⟨j, hj, _⟩
    simp [Tunnel.fresh, Store.empty] at hj
  obtain ⟨h', e₂, h₃, rfl, hrun', hok, hfire, hnot, hin⟩ := Run.cause (hfresh .done) hrun hdone
  rw [hfire] at hin
  obtain ⟨a, hedge, hmove⟩ := jobMoves_of_step hok (.inr rfl) hnot hin
  obtain rfl : a = .running := by cases a <;> simp [JobStatus.transitions] at hedge ⊢
  obtain ⟨h₁, e₁, h₂, rfl, _, hok', hfire', hnot', hin'⟩ :=
    Run.cause (hfresh .running) hrun' hmove.1
  rw [hfire'] at hin'
  obtain ⟨a, hedge', hmove'⟩ := jobMoves_of_step hok' (.inl rfl) hnot' hin'
  obtain rfl : a = .queued := by cases a <;> simp [JobStatus.transitions] at hedge' ⊢
  rw [← hfire] at hmove
  rw [← hfire'] at hmove'
  exact ⟨h₁, e₁, h₂, e₂, h₃, by simp, hmove', hmove⟩

/-- In a run whose steps keep the histories, `job.create` reuses a job only if it has the
candidate's fingerprint, is done, and went from queued through running to done before. -/
theorem reused_job_was_run {h : List (Entry System Input (Except PyExc Json))} {s : System}
    (hrun : Run daemon KeepsJobHistory h s) {e : Entry System Input (Except PyExc Json)}
    (he : e ∈ h) {env : Env} {params members j : Obj}
    (hinput : e.input = .request env .jobCreate params) (houtput : e.output = .ok (.obj members))
    (hreused : Obj.get members "reused" = .bool true) (hjob : Obj.get members "job" = .obj j) :
    (∃ t c, JobCandidate env params e.before.tunnel t c ∧
      (Obj.get j "inputs_fingerprint").pyEq (Obj.get c "inputs_fingerprint") = true) ∧
    Obj.get j "status" = .str "done" ∧
    ∃ k h₁ e₁ h₂ e₂ h₃ h₄, e.before.tunnel.jobs.records.get? k = some j ∧
      h = h₁ ++ e₁ :: (h₂ ++ e₂ :: h₃) ++ e :: h₄ ∧
      JobMoves k .queued .running e₁ ∧ JobMoves k .running .done e₂ := by
  obtain ⟨h', h₄, rfl, hrun', _, hfire⟩ := hrun.split_of_mem he
  have hanswer : (mJobCreate env params).exec e.before.tunnel =
      (.ok (.obj members), ((mJobCreate env params).exec e.before.tunnel).2) := by
    rw [hfire, hinput] at houtput
    exact Prod.ext houtput rfl
  obtain ⟨hcandidate, ⟨k, hstored⟩, hstatus⟩ := mJobCreate_reused hanswer hreused hjob
  have hdone : JobIn k .done e.before := by
    refine ⟨j, hstored, ?_⟩
    unfold Obj.get Obj.getD at hstatus
    unfold Lifecycle.At Lifecycle.statusOf Obj.getD
    cases hlook : j.lookup "status" with
    | none => simp [hlook] at hstatus
    | some v => simpa [hlook, jobLifecycle, JobStatus.name] using hstatus
  obtain ⟨h₁, e₁, h₂, e₂, h₃, rfl, hmove₁, hmove₂⟩ := done_was_run hrun' hdone
  exact ⟨hcandidate, hstatus, k, h₁, e₁, h₂, e₂, h₃, h₄, hstored, rfl, hmove₁, hmove₂⟩

/-- The payload of a job `job_1`. -/
def sampleJob : Obj := [("job_id", .str "job_1"), ("inputs_fingerprint", .str "fp_1")]

/-- The daemon after `job_1` was created, marked running and marked done. -/
def sampleJobDone : System :=
  let queued := (daemon.step (sampleRequest .jobCreate [("job", .obj sampleJob)]) sampleStart).2
  let running := (daemon.step (sampleRequest .jobMarkRunning [("job_id", .str "job_1")]) queued).2
  (daemon.step (sampleRequest .jobMarkDone [("job_id", .str "job_1")]) running).2

/-- The record of `job_1` once it is done. -/
def sampleDoneRecord : Obj := (sampleJobDone.tunnel.jobs.records.get? (.str "job_1")).getD []

/-- A second request with the fingerprint of `job_1`. -/
def sampleRepeat : Input :=
  sampleRequest .jobCreate [("job", .obj [("inputs_fingerprint", .str "fp_1")])]

/-- The repeated request is answered with the done job. -/
theorem sampleRepeat_answer : (daemon.step sampleRepeat sampleJobDone).1 =
    .ok (.obj [("job", .obj sampleDoneRecord), ("reused", .bool true)]) := by rfl

/-- A payload without a status keeps the histories. -/
theorem keepsJobHistory_of_no_status {s : System} (data : Obj)
    (hstatus : data.lookup "status" = none) :
    KeepsJobHistory s (sampleRequest .jobCreate [("job", .obj data)]) := by
  rintro k j ⟨t', hcandidate, _⟩
  have hqueued : jobLifecycle.At j .queued := by
    rw [Lifecycle.At, statusOf_candidate hcandidate rfl, Lifecycle.statusOf, Obj.getD, hstatus]
    rfl
  constructor <;> intro hat <;> simpa using hqueued.eq hat

/-- The histories are kept by creating `job_1`, moving it to done and asking for it again. -/
theorem reused_job_was_run_sample : ∃ h, Run daemon KeepsJobHistory (h ++
      [daemon.fire sampleJobDone sampleRepeat]) (daemon.step sampleRepeat sampleJobDone).2 ∧
    ∃ k h₁ e₁ h₂ e₂ h₃ h₄, h ++ [daemon.fire sampleJobDone sampleRepeat] =
        h₁ ++ e₁ :: (h₂ ++ e₂ :: h₃) ++ daemon.fire sampleJobDone sampleRepeat :: h₄ ∧
      JobMoves k .queued .running e₁ ∧ JobMoves k .running .done e₂ := by
  have hqueued := Run.step (run_sampleStart KeepsJobHistory)
    (keepsJobHistory_of_no_status sampleJob (by decide))
  have hrunning := Run.step (i := sampleRequest .jobMarkRunning [("job_id", .str "job_1")])
    hqueued trivial
  have hdone := Run.step (i := sampleRequest .jobMarkDone [("job_id", .str "job_1")])
    hrunning trivial
  have hrun := Run.step (i := sampleRepeat) hdone (keepsJobHistory_of_no_status _ (by decide))
  obtain ⟨_, _, k, h₁, e₁, h₂, e₂, h₃, h₄, _, hsplit, hmove₁, hmove₂⟩ :=
    reused_job_was_run hrun (e := daemon.fire sampleJobDone sampleRepeat)
      (List.mem_append_right _ (List.mem_singleton.mpr rfl)) rfl sampleRepeat_answer rfl rfl
  exact ⟨_, hrun, k, h₁, e₁, h₂, e₂, h₃, h₄, hsplit, hmove₁, hmove₂⟩

/-- A payload that names the status `done`. -/
def sampleForgedJob : Obj := [("job_id", .str "job_1"), ("inputs_fingerprint", .str "fp_1"),
  ("status", .str "done")]

/-- The daemon after it stored that payload. -/
def sampleForgedDone : System :=
  (daemon.step (sampleRequest .jobCreate [("job", .obj sampleForgedJob)]) sampleStart).2

/-- It is also answered with one that was created as done. -/
theorem sampleRepeat_forged : (daemon.step sampleRepeat sampleForgedDone).1 =
    .ok (.obj [("job", .obj (makeJob .sample sampleForgedJob)), ("reused", .bool true)]) := by rfl

/-- The guard hands out a job that nothing ever moved. -/
theorem reused_job_never_run : ∃ h s e members j, Run daemon (fun _ _ => True) h s ∧ e ∈ h ∧
    (∃ env params, e.input = .request env .jobCreate params) ∧ e.output = .ok (.obj members) ∧
    Obj.get members "reused" = .bool true ∧ Obj.get members "job" = .obj j ∧
    ¬ ∃ k h₁ e₁ h₂ e₂ h₃ h₄, h = h₁ ++ e₁ :: (h₂ ++ e₂ :: h₃) ++ e :: h₄ ∧
      JobMoves k .queued .running e₁ ∧ JobMoves k .running .done e₂ := by
  let create := sampleRequest .jobCreate [("job", .obj sampleForgedJob)]
  have hrun : Run daemon (fun _ _ => True)
      [daemon.fire sampleStart create, daemon.fire sampleForgedDone sampleRepeat] _ :=
    .step (i := sampleRepeat) (.step (i := create) (run_sampleStart _) trivial) trivial
  refine ⟨_, _, daemon.fire sampleForgedDone sampleRepeat, _, _, hrun, by simp, ⟨_, _, rfl⟩,
    sampleRepeat_forged, rfl, rfl, ?_⟩
  rintro ⟨k, h₁, e₁, h₂, e₂, h₃, h₄, hsplit, _⟩
  have hlength := congrArg List.length hsplit
  simp only [List.length_cons, List.length_nil, List.length_append] at hlength
  omega

end VirtuosoFlow.Tunnel
