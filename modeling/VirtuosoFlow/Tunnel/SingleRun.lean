import VirtuosoFlow.Base.Permit
import VirtuosoFlow.Tunnel.Freshness

/-!
# One job, one simulation

`job.run` looks at the status of a job and starts a runner without reserving the job, so
several runners may be on their way for one job. What keeps them from simulating it twice
is the step from queued to running inside the job store: it comes before every command,
and no edge leads back to queued.
-/

namespace VirtuosoFlow.Tunnel

open Base

/-- A tunnel process: it starts over whatever its stores were loaded with. -/
def tunnelProcess : Machine System Input (Except PyExc Json) where
  init s := s.runners = []
  step := System.step

/-- The two configured commands. -/
inductive Command where
  | netlist | simulator
  deriving DecidableEq

/-- The command that the next step of a runner at this point starts. -/
def RunPoint.starts (w : World) (command : List String) : RunPoint → List Command
  | .netlist _ _ vars =>
    match w.env.netlistCmd with
    | none => []
    | some ncmd => if (runCommand w.env ncmd vars w.netlist).isOk then [.netlist] else []
  | .simulate _ _ vars =>
    if (runCommand w.env command vars w.simulator).isOk then [.simulator] else []
  | _ => []

/-- The commands that a step of a run starts for the job under `k`. -/
def startsAt (k : Key) (e : Entry System Input (Except PyExc Json)) : List Command :=
  match e.input with
  | .advance w i =>
    match e.before.runners[i]? with
    | some r => if r.jobId.key? = some k then r.point.starts w r.command else []
    | none => []
  | _ => []

/-- All commands started for the job under `k`, in order. -/
def startsFor (k : Key) (h : List (Entry System Input (Except PyExc Json))) : List Command :=
  h.flatMap (startsAt k)

/-- What a runner may still start once it has marked its job running. -/
def RunPoint.ahead : RunPoint → List Command
  | .setRunning _ _ => [.netlist, .simulator]
  | .context _ _ => [.netlist, .simulator]
  | .netlist _ _ _ => [.netlist, .simulator]
  | .attachNetlist _ _ _ _ _ => [.simulator]
  | .simulate _ _ _ => [.simulator]
  | _ => []

/-- What a runner may still start for the job under `k`. -/
def Runner.ahead (k : Key) (r : Runner) : List Command :=
  if r.jobId.key? = some k then r.point.ahead else []

/-- The job under `k` has left its queue. -/
def JobLeft (k : Key) (s : System) : Prop := ∃ a, a ≠ .queued ∧ JobIn k a s

/-- The runners of a job as competitors for the step out of the queue. -/
def RunsWithin (todo : List Command) (k : Key)
    (h : List (Entry System Input (Except PyExc Json))) (s : System) : Prop :=
  Permitted todo (¬ JobLeft k s) (s.runners.map (Runner.ahead k)) (startsFor k h)

section Status

variable {k : Key} {s : System} {a : JobStatus}

/-- A job is in one status. -/
theorem JobIn.eq {b : JobStatus} (ha : JobIn k a s) (hb : JobIn k b s) : a = b := by
  obtain ⟨j, hj, hat⟩ := ha
  obtain ⟨j', hj', hat'⟩ := hb
  obtain rfl : j = j' := by simpa [hj] using hj'
  exact hat.eq hat'

/-- No edge leads back to the queue. -/
theorem queued_not_mem_transitions (b : JobStatus) : .queued ∉ b.transitions := by
  cases b <;> decide

/-- A job that left its queue does not come back. -/
theorem JobLeft.step (h : JobLeft k s) (i : Input) : JobLeft k (tunnelProcess.step i s).2 := by
  obtain ⟨a, ha, j, hj, hat⟩ := h
  obtain ⟨j', hj', hpath⟩ := (step_law i s).jobs.advanced hj
  have hend : ∃ b, b ≠ .queued ∧ jobLifecycle.At j' b := by
    cases hpath.cases_tail with
    | inl heq => exact ⟨a, ha, heq ▸ hat⟩
    | inr htail =>
      obtain ⟨_, _, c, b, _, _, hedge, hat', _⟩ := htail
      refine ⟨b, ?_, hat'⟩
      rintro rfl
      exact queued_not_mem_transitions c hedge
  obtain ⟨b, hb, hat'⟩ := hend
  exact ⟨b, hb, j', hj', hat'⟩

/-- A cancelled job stays cancelled. -/
theorem JobIn.cancelled_step (h : JobIn k .cancelled s) (i : Input) :
    JobIn k .cancelled (tunnelProcess.step i s).2 := by
  obtain ⟨j, hj, hat⟩ := h
  obtain ⟨j', hj', hpath⟩ := (step_law i s).jobs.advanced hj
  have hsame : j' = j := by
    apply Lifecycle.eq_of_steps hat _ hpath
    intro b _
    change b ∉ JobStatus.cancelled.transitions
    simp [JobStatus.transitions]
  exact ⟨j', hj', hsame ▸ hat⟩

end Status

section Steps

variable {w : World} {jobId : Json} {command : List String} {point : RunPoint} {k : Key}

/-- A runner starts what it has ahead. -/
theorem starts_sublist_ahead (w : World) (command : List String) (point : RunPoint) :
    (point.starts w command).Sublist point.ahead := by
  cases point with
  | netlist job rid vars =>
    unfold RunPoint.starts RunPoint.ahead
    cases w.env.netlistCmd with
    | none => simp
    | some ncmd =>
      dsimp only
      split <;> simp
  | simulate job rid vars =>
    unfold RunPoint.starts RunPoint.ahead
    dsimp only
    split <;> simp
  | _ => exact List.nil_sublist _

/-- Only by marking its job running does a runner get anything ahead: the other steps go on
with a part of what they have not started. -/
theorem runnerStep_spends (hpoint : ∀ job rid, point ≠ .markRunning job rid) :
    Prog.Gives (fun p => (point.starts w command ++ p.ahead).Sublist point.ahead)
      (runnerStep w jobId command point) := by
  cases point with
  | markRunning job rid => exact absurd rfl (hpoint job rid)
  | lookup =>
    refine .last fun job => ?_
    cases job with
    | none => exact .throw _
    | some job => exact .pure (List.Sublist.refl _)
  | netlist job rid vars =>
    unfold runnerStep RunPoint.starts
    cases w.env.netlistCmd with
    | none => exact .pure (by simp [RunPoint.ahead])
    | some ncmd =>
      refine .bind (.ofExcept fun outcome houtcome => houtcome) fun outcome houtcome => ?_
      refine .pure ?_
      simp only [houtcome, Except.isOk, Except.toBool, if_true]
      cases outcome <;> simp [afterNetlist, RunPoint.ahead]
  | attachNetlist job rid vars code log =>
    refine .last fun _ => .pure ?_
    split <;> simp [RunPoint.starts, RunPoint.ahead]
  | simulate job rid vars =>
    unfold runnerStep RunPoint.starts
    refine .bind (.ofExcept fun outcome houtcome => houtcome) fun outcome houtcome => ?_
    refine .pure ?_
    simp only [houtcome, Except.isOk, Except.toBool, if_true]
    cases outcome <;> simp [afterSimulator, RunPoint.ahead]
  | attachLog job rid code log =>
    refine .last fun _ => .pure ?_
    split <;> simp [RunPoint.starts, RunPoint.ahead]
  | readMetrics job rid =>
    refine .last fun reading => .pure ?_
    cases reading <;> simp [afterReading, RunPoint.starts, RunPoint.ahead]
  | returned job => exact .pure (List.Sublist.refl _)
  | raised e => exact .pure (List.Sublist.refl _)
  | _ => exact .last fun _ => .pure (by simp [RunPoint.starts, RunPoint.ahead])

/-- Marking a job running passes only for a job in the queue, and takes it out. -/
theorem markRunning_takes {job : Obj} {rid : Json} {t t' : Tunnel} {p : RunPoint}
    (hkey : jobId.key? = some k)
    (h : (runnerStep w jobId command (.markRunning job rid)).exec t = (.ok p, t')) :
    p = .setRunning job rid ∧ (∃ j, t.jobs.records.get? k = some j ∧ jobLifecycle.At j .queued) ∧
      ∃ j, t'.jobs.records.get? k = some j ∧ jobLifecycle.At j .running := by
  unfold runnerStep at h
  obtain ⟨_, t₁, hmark, hrest⟩ := Prog.exec_bind_eq_ok h
  simp only [Prog.exec_pure, Prod.mk.injEq, Except.ok.injEq] at hrest
  obtain ⟨rfl, rfl⟩ := hrest
  refine ⟨rfl, ?_⟩
  rw [exec_onJobs] at hmark
  rcases setStatus_cases w.env "job_id" "unknown job_id: %s" (jobTransition w.env .running [])
      jobId t.jobs with ⟨e, hexec⟩ | ⟨k', j, j', writes, hkey', hj, htr, hexec⟩
  · simp [JobStore.markRunning, JobStore.set, hexec] at hmark
  · obtain rfl : k = k' := by simpa [hkey] using hkey'
    obtain ⟨⟨a, hat, hedge⟩, hj'⟩ := Lifecycle.transition_eq_ok.mp htr
    have hqueued : a = .queued := by
      cases a <;> simp [jobLifecycle, JobStatus.transitions] at hedge ⊢
    refine ⟨⟨j, hj, hqueued ▸ hat⟩, j', ?_, ?_⟩
    · have hjobs := congrArg (fun out => out.2.jobs.records.get? k) hmark
      simpa [JobStore.markRunning, JobStore.set, hexec] using hjobs.symm
    · rw [hj']
      simp [Lifecycle.At, Lifecycle.statusOf, Obj.getD, jobLifecycle]

end Steps

section Runs

/-- A request starts no runner, or one that stands at its first step. -/
theorem startedRunner_cases (env : Env) (method : Method) (params : Obj)
    (out : Except PyExc Json) : startedRunner env method params out = [] ∨
      ∃ command, startedRunner env method params out =
        [⟨Obj.get params "job_id", command, .lookup⟩] := by
  unfold startedRunner
  split
  · split
    · exact .inr ⟨_, rfl⟩
    · exact .inl rfl
  · exact .inl rfl

variable {todo : List Command} {k : Key} {s : System}
variable {h : List (Entry System Input (Except PyExc Json))}

/-- What one more step starts. -/
theorem startsFor_fire (i : Input) :
    startsFor k (h ++ [tunnelProcess.fire s i]) = startsFor k h ++ startsAt k (tunnelProcess.fire s i) := by
  simp [startsFor]

/-- A step that starts nothing and leaves every runner what it has ahead. -/
theorem RunsWithin.keep {i : Input} (hwithin : RunsWithin todo k h s)
    (hstarts : startsAt k (tunnelProcess.fire s i) = [])
    (hahead : (tunnelProcess.step i s).2.runners.map (Runner.ahead k) =
      s.runners.map (Runner.ahead k)) :
    RunsWithin todo k (h ++ [tunnelProcess.fire s i]) (tunnelProcess.step i s).2 := by
  have hleft : ¬ JobLeft k (tunnelProcess.step i s).2 → ¬ JobLeft k s :=
    fun hnot hleft => hnot (hleft.step i)
  unfold RunsWithin
  rw [startsFor_fire, hstarts, List.append_nil, hahead]
  exact Permitted.lose hwithin hleft

/-- A request starts no command; the runner it may start has none ahead. -/
theorem RunsWithin.request (hwithin : RunsWithin todo k h s) (env : Env) (method : Method)
    (params : Obj) : RunsWithin todo k (h ++ [tunnelProcess.fire s (.request env method params)])
      (tunnelProcess.step (.request env method params) s).2 := by
  set out := ((handle env method params).exec s.tunnel).1 with hout
  have hrunners : (tunnelProcess.step (.request env method params) s).2.runners =
      s.runners ++ startedRunner env method params out := rfl
  rcases startedRunner_cases env method params out with hnone | ⟨command, hone⟩
  · apply hwithin.keep rfl
    rw [hrunners, hnone, List.append_nil]
  · have hleft : ¬ JobLeft k (tunnelProcess.step (.request env method params) s).2 →
        ¬ JobLeft k s := fun hnot hleft => hnot (hleft.step _)
    have hstarts : startsAt k (tunnelProcess.fire s (.request env method params)) = [] := rfl
    have hahead : Runner.ahead k ⟨Obj.get params "job_id", command, .lookup⟩ = [] := by
      simp [Runner.ahead, RunPoint.ahead]
    unfold RunsWithin
    rw [startsFor_fire, hstarts, List.append_nil, hrunners, hone, List.map_append,
      List.map_singleton, hahead]
    exact Permitted.join (Permitted.lose hwithin hleft)

/-- A step of a runner that does not take the job under `k` out of the queue. -/
theorem RunsWithin.spend {w : World} {i : ℕ} {r : Runner} (hwithin : RunsWithin todo k h s)
    (hr : s.runners[i]? = some r)
    (hspends : r.jobId.key? = some k →
      (r.point.starts w r.command ++ (r.advance w s.tunnel).1.point.ahead).Sublist
        r.point.ahead) :
    RunsWithin todo k (h ++ [tunnelProcess.fire s (.advance w i)])
      (tunnelProcess.step (.advance w i) s).2 := by
  have hnext : (tunnelProcess.step (.advance w i) s).2 =
      ⟨(r.advance w s.tunnel).2, s.runners.set i (r.advance w s.tunnel).1⟩ := by
    simp [tunnelProcess, System.step, hr]
  have hleft : ¬ JobLeft k (tunnelProcess.step (.advance w i) s).2 → ¬ JobLeft k s :=
    fun hnot hleft => hnot (hleft.step _)
  have hat : (s.runners.map (Runner.ahead k))[i]? = some (r.ahead k) := by simp [hr]
  have hid : (r.advance w s.tunnel).1.jobId = r.jobId := by
    unfold Runner.advance
    cases (runnerStep w r.jobId r.command r.point).exec s.tunnel with
    | mk out t => cases out <;> rfl
  have hstarts : startsAt k (tunnelProcess.fire s (.advance w i)) =
      if r.jobId.key? = some k then r.point.starts w r.command else [] := by
    simp [startsAt, Machine.fire, hr]
  have hpart : (startsAt k (tunnelProcess.fire s (.advance w i)) ++
      (r.advance w s.tunnel).1.ahead k).Sublist (r.ahead k) := by
    rw [hstarts, Runner.ahead, Runner.ahead, hid]
    split
    · rename_i hkey
      exact hspends hkey
    · exact List.Sublist.refl _
  unfold RunsWithin
  rw [startsFor_fire, hnext, List.map_set]
  rw [hnext] at hleft
  exact Permitted.spend hwithin hleft hat hpart.subperm

/-- The step of a runner that takes the job under `k` out of the queue. -/
theorem RunsWithin.take {w : World} {i : ℕ} {r : Runner} {job : Obj} {rid : Json} {p : RunPoint}
    {t' : Tunnel} (hwithin : RunsWithin todo k h s) (hr : s.runners[i]? = some r)
    (hkey : r.jobId.key? = some k) (hpoint : r.point = .markRunning job rid)
    (hexec : (runnerStep w r.jobId r.command r.point).exec s.tunnel = (.ok p, t'))
    (htodo : JobMoves k .queued .running (tunnelProcess.fire s (.advance w i)) →
      todo = [.netlist, .simulator]) :
    RunsWithin todo k (h ++ [tunnelProcess.fire s (.advance w i)])
      (tunnelProcess.step (.advance w i) s).2 := by
  have hadvance : r.advance w s.tunnel = ({ r with point := p }, t') := by
    simp [Runner.advance, hexec]
  rw [hpoint] at hexec
  obtain ⟨rfl, hqueued, hrunning⟩ := markRunning_takes hkey hexec
  have hnext : (tunnelProcess.step (.advance w i) s).2 =
      ⟨t', s.runners.set i { r with point := .setRunning job rid }⟩ := by
    simp [tunnelProcess, System.step, hr, hadvance]
  have hfree : ¬ JobLeft k s := by
    rintro ⟨a, ha, hin⟩
    exact ha (hin.eq hqueued)
  have hmoves : JobMoves k .queued .running (tunnelProcess.fire s (.advance w i)) := by
    refine ⟨hqueued, ?_⟩
    rw [Machine.fire, hnext]
    exact hrunning
  have htaken : JobLeft k (tunnelProcess.step (.advance w i) s).2 :=
    ⟨.running, by decide, hmoves.2⟩
  have hstarts : startsAt k (tunnelProcess.fire s (.advance w i)) = [] := by
    simp [startsAt, Machine.fire, hr, hpoint, RunPoint.starts]
  have hall : Runner.ahead k { r with point := .setRunning job rid } = todo := by
    rw [htodo hmoves]
    simp [Runner.ahead, hkey, RunPoint.ahead]
  have hat : (s.runners.map (Runner.ahead k))[i]? = some (r.ahead k) := by simp [hr]
  unfold RunsWithin
  rw [startsFor_fire, hstarts, List.append_nil, hnext, List.map_set, hall]
  rw [hnext] at htaken
  exact Permitted.take hwithin hfree (not_not_intro htaken) hat

/-- Every step starts only what is still permitted, if the job is marked running only where
the whole simulation is. -/
theorem RunsWithin.step (hwithin : RunsWithin todo k h s) (i : Input)
    (htodo : JobMoves k .queued .running (tunnelProcess.fire s i) →
      todo = [.netlist, .simulator]) :
    RunsWithin todo k (h ++ [tunnelProcess.fire s i]) (tunnelProcess.step i s).2 := by
  cases i with
  | request env method params => exact hwithin.request env method params
  | sweep env => exact hwithin.keep rfl rfl
  | advance w i =>
    cases hr : s.runners[i]? with
    | none =>
      have hstarts : startsAt k (tunnelProcess.fire s (.advance w i)) = [] := by
        simp [startsAt, Machine.fire, hr]
      have hnext : (tunnelProcess.step (.advance w i) s).2 = s := by
        simp [tunnelProcess, System.step, hr]
      exact hwithin.keep hstarts (by rw [hnext])
    | some r =>
      by_cases htakes : r.jobId.key? = some k ∧ ∃ job rid p t',
          r.point = .markRunning job rid ∧
            (runnerStep w r.jobId r.command r.point).exec s.tunnel = (.ok p, t')
      · obtain ⟨hkey, job, rid, p, t', hpoint, hexec⟩ := htakes
        exact hwithin.take hr hkey hpoint hexec htodo
      · apply hwithin.spend hr
        intro hkey
        cases hexec : (runnerStep w r.jobId r.command r.point).exec s.tunnel with
        | mk out t' =>
          cases out with
          | ok p =>
            have hpoint : ∀ job rid, r.point ≠ .markRunning job rid := fun job rid heq =>
              htakes ⟨hkey, job, rid, p, t', heq, hexec⟩
            have hspends := runnerStep_spends hpoint s.tunnel p t' hexec
            simpa [Runner.advance, hexec] using hspends
          | error e =>
            have hstarts := starts_sublist_ahead w r.command r.point
            simpa [Runner.advance, hexec, RunPoint.ahead] using hstarts

/-- A job that was cancelled out of its queue is cancelled, and nothing is permitted any
more. -/
theorem runsWithin_of_run (k : Key) (hrun : Run tunnelProcess (fun _ _ => True) h s) :
    RunsWithin [.netlist, .simulator] k h s ∧
      ((∃ e ∈ h, JobMoves k .queued .cancelled e) → JobIn k .cancelled s ∧ RunsWithin [] k h s) := by
  induction hrun with
  | @init s hinit =>
    have hnone : s.runners = [] := hinit
    have hstart : RunsWithin [.netlist, .simulator] k [] s := by
      unfold RunsWithin
      rw [hnone]
      exact Permitted.start _ _
    exact ⟨hstart, by simp⟩
  | @step h s i _ _ ih =>
    obtain ⟨hwithin, hcancelled⟩ := ih
    refine ⟨hwithin.step i fun _ => rfl, ?_⟩
    rintro ⟨e, he, hmoves⟩
    have hnever : JobIn k .cancelled (tunnelProcess.step i s).2 →
        ¬ JobMoves k .queued .running (tunnelProcess.fire s i) := by
      rintro hin ⟨_, hrunning⟩
      have hsame := hin.eq hrunning
      simp at hsame
    rcases List.mem_append.mp he with hearlier | hlast
    · obtain ⟨hin, hnothing⟩ := hcancelled ⟨e, hearlier, hmoves⟩
      have hin' := hin.cancelled_step i
      exact ⟨hin', hnothing.step i fun htakes => absurd htakes (hnever hin')⟩
    · obtain rfl := List.mem_singleton.mp hlast
      obtain ⟨hqueued, hin'⟩ := hmoves
      have hfree : ¬ JobLeft k s := by
        rintro ⟨a, ha, hin⟩
        exact ha (hin.eq hqueued)
      have hnothing : RunsWithin [] k h s := Permitted.withdraw hwithin hfree
      exact ⟨hin', hnothing.step i fun htakes => absurd htakes (hnever hin')⟩

/-- In every run of a tunnel process, each of the two commands is started at most once for
a job, and none for a job that was cancelled out of its queue. -/
theorem simulated_at_most_once (hrun : Run tunnelProcess (fun _ _ => True) h s) (k : Key) :
    (∀ c, (startsFor k h).count c ≤ 1) ∧
      ((∃ e ∈ h, JobMoves k .queued .cancelled e) → startsFor k h = []) := by
  obtain ⟨hwithin, hcancelled⟩ := runsWithin_of_run k hrun
  constructor
  · intro c
    have hcount : [Command.netlist, Command.simulator].count c ≤ 1 := by cases c <;> decide
    exact (Permitted.count_done_le hwithin c).trans hcount
  · intro hmoved
    exact Permitted.done_eq_nil (hcancelled hmoved).2

end Runs

/-- Surroundings with a netlist command. -/
def sampleNetlisting : Env := { Env.sample with netlistCmd := some ["si", "-batch"] }

/-- What a runner of the sample finds: both commands end well. -/
def sampleWorld : World := ⟨sampleNetlisting, .exited 0 "", .exited 0 "", .contents "gain=1.5"⟩

/-- A job is created, `job.run` is asked for twice, and both runners come to their end. -/
def sampleTwiceRun : List Input :=
  [sampleRequest .jobCreate [("job", .obj sampleJob)],
    sampleRequest .jobRun [("job_id", .str "job_1")],
    sampleRequest .jobRun [("job_id", .str "job_1")]] ++
  List.replicate 2 (.advance sampleWorld 0) ++ List.replicate 8 (.advance sampleWorld 1) ++
  List.replicate 2 (.advance sampleWorld 0)

/-- The steps of the process on these inputs. -/
def sampleTwiceRunSteps : List (Entry System Input (Except PyExc Json)) :=
  tunnelProcess.trace sampleStart sampleTwiceRun

/-- The job of the sample is asked to run twice. -/
theorem run_sampleTwiceRun : Run tunnelProcess (fun _ _ => True) sampleTwiceRunSteps
    (tunnelProcess.last sampleStart sampleTwiceRun) :=
  Run.append_trace (.init rfl) sampleTwiceRun fun _ _ => trivial

/-- Each of its commands is started once. -/
theorem sampleTwiceRun_starts :
    startsFor (.str "job_1") sampleTwiceRunSteps = [.netlist, .simulator] := by rfl

/-- Neither is started twice. -/
theorem simulated_at_most_once_sample :
    startsFor (.str "job_1") sampleTwiceRunSteps = [.netlist, .simulator] ∧
    ∀ c, (startsFor (.str "job_1") sampleTwiceRunSteps).count c ≤ 1 :=
  ⟨sampleTwiceRun_starts, (simulated_at_most_once run_sampleTwiceRun _).1⟩

end VirtuosoFlow.Tunnel
