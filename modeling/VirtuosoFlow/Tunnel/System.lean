import VirtuosoFlow.Tunnel.Runner
import VirtuosoFlow.Base.Run

/-!
# The daemon as a state machine

The requests, the sweep of stale proposals and the steps of the runner threads are
the inputs of one machine. Each input obeys a law: which records it may store and
along which edges it may move the stored ones.
-/

namespace VirtuosoFlow.Tunnel

open Base

/-- The methods of the proposal, transaction and job families. -/
inductive Method where
  | proposalCreate | proposalList | proposalGet | proposalApprove | proposalReject
  | proposalMarkApplied | proposalMarkFailed
  | transactionCreate | transactionList | transactionGet | transactionRollback
  | transactionMarkRolledBack | transactionMarkFailed
  | jobCreate | jobList | jobGet | jobCancel | jobMarkRunning | jobMarkDone | jobMarkFailed
  | jobRun
  deriving DecidableEq

/-- The dispatch table: the handler registered for a method. -/
def handle (env : Env) : Method → Obj → Prog PyExc Tunnel Json
  | .proposalCreate => mProposalCreate env
  | .proposalList => mProposalList env
  | .proposalGet => mProposalGet env
  | .proposalApprove => mProposalApprove env
  | .proposalReject => mProposalReject env
  | .proposalMarkApplied => mProposalMarkApplied env
  | .proposalMarkFailed => mProposalMarkFailed env
  | .transactionCreate => mTransactionCreate env
  | .transactionList => mTransactionList
  | .transactionGet => mTransactionGet
  | .transactionRollback => mTransactionRollback
  | .transactionMarkRolledBack => mTransactionMarkRolledBack env
  | .transactionMarkFailed => mTransactionMarkFailed env
  | .jobCreate => mJobCreate env
  | .jobList => mJobList
  | .jobGet => mJobGet
  | .jobCancel => mJobCancel env
  | .jobMarkRunning => mJobMarkRunning env
  | .jobMarkDone => mJobMarkDone env
  | .jobMarkFailed => mJobMarkFailed env
  | .jobRun => fun params => do
    let started ← mJobRun env params
    return .obj [("job_id", started.1), ("started", .bool true)]

/-- The thread that an answered `job.run` starts. -/
def startedRunner (env : Env) (method : Method) (params : Obj) :
    Except PyExc Json → List Runner
  | .ok _ =>
    match method, env.simCmd with
    | .jobRun, some cmd => [⟨Obj.get params "job_id", cmd, .lookup⟩]
    | _, _ => []
  | .error _ => []

/-- What can happen to the daemon. -/
inductive Input where
  | request (env : Env) (method : Method) (params : Obj)
  | sweep (env : Env)
  | advance (w : World) (i : ℕ)

/-- The stores together with the runner threads started so far. -/
structure System where
  tunnel : Tunnel
  runners : List Runner

/-- One input of the daemon. -/
def System.step : Input → System → Except PyExc Json × System
  | .request env method params, s =>
    let out := (handle env method params).exec s.tunnel
    (out.1, ⟨out.2, s.runners ++ startedRunner env method params out.1⟩)
  | .sweep env, s =>
    let out := (onProposals (ProposalStore.expireStale env)).exec s.tunnel
    (out.1.map .arr, ⟨out.2, s.runners⟩)
  | .advance w i, s =>
    match s.runners[i]? with
    | none => (.ok .null, s)
    | some r => (.ok .null, ⟨(r.advance w s.tunnel).2, s.runners.set i (r.advance w s.tunnel).1⟩)

/-- The daemon started over an empty directory, with whatever sessions. -/
def daemon : Machine System Input (Except PyExc Json) where
  init s := ∃ registry, s = ⟨Tunnel.fresh registry, []⟩
  step := System.step

/-- A request in the sample surroundings, for examples. -/
def sampleRequest (method : Method) (params : Obj) : Input := .request .sample method params

/-- The daemon before its first request, without sessions. -/
def sampleStart : System := ⟨Tunnel.fresh .empty, []⟩

/-- A daemon that has just begun. -/
theorem run_sampleStart (ok : System → Input → Prop) : Run daemon ok [] sampleStart :=
  .init ⟨.empty, rfl⟩

/-- What may happen to the records: whether new ones of a kind may be stored, and the
statuses that stored ones may be moved into. -/
structure Law where
  newProposal : Bool := false
  proposalTargets : List ProposalStatus := []
  newTransaction : Bool := false
  transactionTargets : List TransactionStatus := []
  newJob : Bool := false
  jobTargets : List JobStatus := []

/-- A record of a kind that may be stored arrives under the key of its id. -/
def Arrives (allowed : Bool) (field : String) (k : Key) (r : Obj) : Prop :=
  allowed = true ∧ (Obj.get r field).key? = some k

/-- The stores of proposals, transactions and jobs evolve under a law. -/
structure Law.Holds (L : Law) (t t' : Tunnel) : Prop where
  proposals : Store.Evolves (Arrives L.newProposal "proposal_id")
    (proposalNext L.proposalTargets) t.proposals t'.proposals
  transactions : Store.Evolves (Arrives L.newTransaction "transaction_id")
    (transactionNext L.transactionTargets) t.transactions t'.transactions
  jobs : Store.Evolves (Arrives L.newJob "job_id") (jobNext L.jobTargets) t.jobs t'.jobs

section Rules

variable {L : Law} {α : Type} {env : Env} {params : Obj}

instance : Std.Refl L.Holds := ⟨fun _ => ⟨Std.Refl.refl _, Std.Refl.refl _, Std.Refl.refl _⟩⟩

instance : IsTrans Tunnel L.Holds :=
  ⟨fun _ _ _ h h' => ⟨IsTrans.trans _ _ _ h.proposals h'.proposals,
    IsTrans.trans _ _ _ h.transactions h'.transactions, IsTrans.trans _ _ _ h.jobs h'.jobs⟩⟩

/-- What keeps the law of the proposals keeps the law. -/
theorem onProposals_keeps {m : Prog PyExc Store α}
    (hm : Prog.Keeps (Store.Evolves (Arrives L.newProposal "proposal_id")
      (proposalNext L.proposalTargets)) m) : Prog.Keeps L.Holds (onProposals m) :=
  .zoom hm fun _ _ h => ⟨h, Std.Refl.refl _, Std.Refl.refl _⟩

/-- So does what keeps that of the transactions. -/
theorem onTransactions_keeps {m : Prog PyExc Store α}
    (hm : Prog.Keeps (Store.Evolves (Arrives L.newTransaction "transaction_id")
      (transactionNext L.transactionTargets)) m) : Prog.Keeps L.Holds (onTransactions m) :=
  .zoom hm fun _ _ h => ⟨Std.Refl.refl _, h, Std.Refl.refl _⟩

/-- So does what keeps that of the jobs. -/
theorem onJobs_keeps {m : Prog PyExc Store α}
    (hm : Prog.Keeps (Store.Evolves (Arrives L.newJob "job_id") (jobNext L.jobTargets)) m) :
    Prog.Keeps L.Holds (onJobs m) :=
  .zoom hm fun _ _ h => ⟨Std.Refl.refl _, Std.Refl.refl _, h⟩

/-- A program on another component leaves the three stores alone. -/
theorem onRuns_keeps (m : Prog PyExc Store α) : Prog.Keeps L.Holds (onRuns m) :=
  fun _ => ⟨Std.Refl.refl _, Std.Refl.refl _, Std.Refl.refl _⟩

/-- Results are not under the law. -/
theorem onResults_keeps (m : Prog PyExc ResultStore α) : Prog.Keeps L.Holds (onResults m) :=
  fun _ => ⟨Std.Refl.refl _, Std.Refl.refl _, Std.Refl.refl _⟩

/-- Neither are sessions. -/
theorem onRegistry_keeps (m : Prog PyExc Store α) : Prog.Keeps L.Holds (onRegistry m) :=
  fun _ => ⟨Std.Refl.refl _, Std.Refl.refl _, Std.Refl.refl _⟩

/-- Neither are events. -/
theorem emit_keeps (etype : String) (payload : Obj) :
    Prog.Keeps L.Holds (emit env etype payload) :=
  fun _ => ⟨Std.Refl.refl _, Std.Refl.refl _, Std.Refl.refl _⟩

/-- Announcing keeps the law. -/
theorem announce_keeps {event : Option String} (payload : Obj) :
    Prog.Keeps L.Holds (announce env event payload) := by
  cases event with
  | none => exact .pure _
  | some etype => exact emit_keeps _ _

/-- Asking for an id keeps the law. -/
theorem requireId_keeps (field : String) : Prog.Keeps L.Holds (requireId field params) :=
  .ite (.pure _) (.throw _)

end Rules

section Handlers

variable {L : Law} {env : Env} {params : Obj}

/-- Creating a proposal keeps a law that allows it. -/
theorem mProposalCreate_keeps (hnew : L.newProposal = true) :
    Prog.Keeps L.Holds (mProposalCreate env params) := by
  unfold mProposalCreate
  split
  · refine .bind (.ofExcept _) fun _ => ?_
    refine .bind (.mapError (onProposals_keeps (ProposalStore.create_keeps ?_))) fun p => ?_
    · intro k hk
      exact ⟨hnew, hk⟩
    · exact .bind (.ofExcept _) fun _ => .bind (.ofExcept _) fun _ =>
        .bind (emit_keeps _ _) fun _ => .pure _
  · exact .throw _

/-- Announcing expiries keeps the law. -/
theorem emitExpired_keeps (ids : List Json) : Prog.Keeps L.Holds (emitExpired env ids) := by
  induction ids with
  | nil => exact .pure _
  | cons id rest ih => exact .bind (emit_keeps _ _) fun _ => ih

/-- Listing proposals keeps a law that lets them expire. -/
theorem mProposalList_keeps (hexpire : .expired ∈ L.proposalTargets) :
    Prog.Keeps L.Holds (mProposalList env params) :=
  .bind (onProposals_keeps (ProposalStore.expireStale_keeps hexpire)) fun _ =>
    .bind (emitExpired_keeps _) fun _ =>
      .bind (onProposals_keeps (ProposalStore.list_keeps hexpire)) fun _ => .pure _

/-- So does asking for one. -/
theorem mProposalGet_keeps (hexpire : .expired ∈ L.proposalTargets) :
    Prog.Keeps L.Holds (mProposalGet env params) := by
  refine .bind (requireId_keeps _) fun id => ?_
  refine .bind (onProposals_keeps (ProposalStore.get_keeps hexpire)) fun p => ?_
  cases p with
  | none => exact .throw _
  | some p => exact .pure _

/-- The handlers that move one proposal move it into their target. -/
theorem setProposal_keeps {new : ProposalStatus} {event : Option String}
    (hnew : new ∈ L.proposalTargets) :
    Prog.Keeps L.Holds (setProposal env (ProposalStore.setStatus env new) event params) := by
  refine .bind (requireId_keeps _) fun id => ?_
  refine .bind (.mapError (onProposals_keeps (ProposalStore.setStatus_keeps hnew))) fun p => ?_
  exact .bind (announce_keeps _) fun _ => .pure _

/-- Binding to a session keeps the law. -/
theorem bindSession_keeps (sid : Json) (data : Obj) : Prog.Keeps L.Holds (bindSession sid data) := by
  refine .bind (onRegistry_keeps _) fun fp => ?_
  cases fp <;> exact .pure _

/-- Binding a transaction keeps the law. -/
theorem bindActor_keeps (data : Obj) : Prog.Keeps L.Holds (bindActor params data) :=
  .bind (.ite (bindSession_keeps (Obj.get params "session_id") data) (.pure _)) fun _ => .pure _

/-- Checking permissions keeps the law. -/
theorem checkPermissions_keeps (candidate : Obj) :
    Prog.Keeps L.Holds (checkPermissions env params candidate) :=
  .bind .get fun _ => .bind (.ofExcept _) fun _ => .bind (.ofExcept _) fun _ =>
    .bind (.ofExcept _) fun _ => .ite (.pure _) (.throw _)

/-- Linking a proposal sweeps, and moves the proposal into its target. -/
theorem linkProposal_keeps {fresh : Key → Obj → Prop} {targets : List ProposalStatus} {pid : Json}
    {expected new : ProposalStatus} (hexpire : .expired ∈ targets) (hnew : new ∈ targets) :
    Prog.Keeps (Store.Evolves fresh (proposalNext targets))
      (linkProposal env pid expected new) := by
  refine .ite ?_ (.pure _)
  refine .bind (ProposalStore.get_keeps hexpire) fun p => ?_
  cases p with
  | none => exact .pure _
  | some p => exact .ite (.suppress (ProposalStore.setStatus_keeps hnew)) (.pure _)

/-- Creating a transaction keeps a law that lets its proposal be applied. -/
theorem mTransactionCreate_keeps (hexpire : .expired ∈ L.proposalTargets)
    (happly : .applied ∈ L.proposalTargets) (hnew : L.newTransaction = true) :
    Prog.Keeps L.Holds (mTransactionCreate env params) := by
  unfold mTransactionCreate
  split
  · refine .bind (bindActor_keeps _) fun data => ?_
    refine .bind (checkPermissions_keeps _) fun _ => ?_
    refine .bind (.ofExcept _) fun _ => ?_
    refine .bind (.mapError (onTransactions_keeps
      (TransactionStore.add_keeps fun k hk => ⟨hnew, hk⟩))) fun txn => ?_
    refine .bind (onProposals_keeps (linkProposal_keeps hexpire happly)) fun _ => ?_
    exact .bind (.ofExcept _) fun _ => .bind (.ofExcept _) fun _ =>
      .bind (emit_keeps _ _) fun _ => .pure _
  · exact .throw _

/-- Listing transactions keeps the law. -/
theorem mTransactionList_keeps : Prog.Keeps L.Holds (mTransactionList params) :=
  .bind (onTransactions_keeps TransactionStore.list_keeps) fun _ => .pure _

/-- Finding one keeps the law. -/
theorem findTransaction_keeps : Prog.Keeps L.Holds (findTransaction params) := by
  refine .bind (requireId_keeps _) fun id => ?_
  refine .bind (onTransactions_keeps getRecord_keeps) fun t => ?_
  cases t with
  | none => exact .throw _
  | some t => exact .pure _

/-- Asking what to roll back keeps the law. -/
theorem mTransactionRollback_keeps : Prog.Keeps L.Holds (mTransactionRollback params) :=
  .bind findTransaction_keeps fun _ => .ite (.pure _) (.throw _)

/-- Marking a rollback keeps a law that allows it. -/
theorem mTransactionMarkRolledBack_keeps (hexpire : .expired ∈ L.proposalTargets)
    (hback : .rolledBack ∈ L.proposalTargets) (hnew : .rolledBack ∈ L.transactionTargets) :
    Prog.Keeps L.Holds (mTransactionMarkRolledBack env params) := by
  refine .bind (requireId_keeps _) fun id => ?_
  refine .bind (.mapError (onTransactions_keeps (TransactionStore.setStatus_keeps hnew)))
    fun t => ?_
  exact .bind (onProposals_keeps (linkProposal_keeps hexpire hback)) fun _ =>
    .bind (emit_keeps _ _) fun _ => .pure _

/-- Marking a failure keeps a law that allows it. -/
theorem mTransactionMarkFailed_keeps (hnew : .failed ∈ L.transactionTargets) :
    Prog.Keeps L.Holds (mTransactionMarkFailed env params) := by
  refine .bind (requireId_keeps _) fun id => ?_
  exact .bind (.mapError (onTransactions_keeps (TransactionStore.setStatus_keeps hnew)))
    fun _ => .pure _

/-- Binding a job keeps the law. -/
theorem bindJobSession_keeps (data : Obj) :
    Prog.Keeps L.Holds (bindJobSession env params data) :=
  .ite (.bind (onRegistry_keeps _) fun _ => bindSession_keeps _ _) (.pure _)

/-- Looking for a job to reuse keeps the law. -/
theorem reuseJob_keeps (candidate : Obj) : Prog.Keeps L.Holds (reuseJob params candidate) :=
  .ite (onJobs_keeps JobStore.freshDone_keeps) (.pure _)

/-- Creating a job keeps a law that allows it. -/
theorem mJobCreate_keeps (hnew : L.newJob = true) :
    Prog.Keeps L.Holds (mJobCreate env params) := by
  unfold mJobCreate
  split
  · refine .bind (bindJobSession_keeps _) fun data => ?_
    refine .bind (reuseJob_keeps _) fun fresh => ?_
    cases fresh with
    | some fresh => exact .pure _
    | none =>
      refine .bind (.ofExcept _) fun _ => ?_
      refine .bind (.mapError (onJobs_keeps (JobStore.add_keeps fun k hk => ⟨hnew, hk⟩)))
        fun job => ?_
      exact .bind (.ofExcept _) fun _ => .bind (emit_keeps _ _) fun _ => .pure _
  · exact .throw _

/-- Listing jobs keeps the law. -/
theorem mJobList_keeps : Prog.Keeps L.Holds (mJobList params) :=
  .bind (onJobs_keeps JobStore.list_keeps) fun _ => .pure _

/-- Finding one keeps the law. -/
theorem findJob_keeps : Prog.Keeps L.Holds (findJob params) := by
  refine .bind (requireId_keeps _) fun id => ?_
  refine .bind (onJobs_keeps getRecord_keeps) fun job => ?_
  cases job with
  | none => exact .throw _
  | some job => exact .pure _

/-- The handlers that move one job move it as their operation does. -/
theorem jobSet_keeps {op : Json → Prog PyExc Store Obj} {event : Option String}
    {shown : List String}
    (hop : ∀ id, Prog.Keeps (Store.Evolves (Arrives L.newJob "job_id") (jobNext L.jobTargets))
      (op id)) : Prog.Keeps L.Holds (jobSet env op event shown params) := by
  refine .bind (requireId_keeps _) fun id => ?_
  refine .bind (.mapError (onJobs_keeps (hop id))) fun job => ?_
  refine .bind ?_ fun _ => .pure _
  cases event with
  | none => exact .pure _
  | some etype => exact .bind (.ofExcept _) fun _ => emit_keeps _ _

/-- Starting one keeps the law. -/
theorem mJobRun_keeps : Prog.Keeps L.Holds (mJobRun env params) := by
  refine .bind findJob_keeps fun found => ?_
  refine .ite ?_ (.throw _)
  cases env.simCmd with
  | none => exact .throw _
  | some cmd => exact .pure _

end Handlers

/-- The law of each method. -/
def Method.law : Method → Law
  | .proposalCreate => { newProposal := true }
  | .proposalList => { proposalTargets := [.expired] }
  | .proposalGet => { proposalTargets := [.expired] }
  | .proposalApprove => { proposalTargets := [.approved] }
  | .proposalReject => { proposalTargets := [.rejected] }
  | .proposalMarkApplied => { proposalTargets := [.applied] }
  | .proposalMarkFailed => { proposalTargets := [.failed] }
  | .transactionCreate => { newTransaction := true, proposalTargets := [.expired, .applied] }
  | .transactionMarkRolledBack =>
    { transactionTargets := [.rolledBack], proposalTargets := [.expired, .rolledBack] }
  | .transactionMarkFailed => { transactionTargets := [.failed] }
  | .jobCreate => { newJob := true }
  | .jobCancel => { jobTargets := [.cancelled] }
  | .jobMarkRunning => { jobTargets := [.running] }
  | .jobMarkDone => { jobTargets := [.done] }
  | .jobMarkFailed => { jobTargets := [.failed] }
  | _ => {}

/-- Every request obeys the law of its method, answered or refused. -/
theorem handle_keeps (env : Env) (method : Method) (params : Obj) :
    Prog.Keeps method.law.Holds (handle env method params) := by
  cases method with
  | proposalCreate => exact mProposalCreate_keeps rfl
  | proposalList => exact mProposalList_keeps (by simp [Method.law])
  | proposalGet => exact mProposalGet_keeps (by simp [Method.law])
  | proposalApprove => exact setProposal_keeps (by simp [Method.law])
  | proposalReject => exact setProposal_keeps (by simp [Method.law])
  | proposalMarkApplied => exact setProposal_keeps (by simp [Method.law])
  | proposalMarkFailed => exact setProposal_keeps (by simp [Method.law])
  | transactionCreate =>
    exact mTransactionCreate_keeps (by simp [Method.law]) (by simp [Method.law]) rfl
  | transactionList => exact mTransactionList_keeps
  | transactionGet => exact .bind findTransaction_keeps fun _ => .pure _
  | transactionRollback => exact mTransactionRollback_keeps
  | transactionMarkRolledBack =>
    exact mTransactionMarkRolledBack_keeps (by simp [Method.law]) (by simp [Method.law])
      (by simp [Method.law])
  | transactionMarkFailed => exact mTransactionMarkFailed_keeps (by simp [Method.law])
  | jobCreate => exact mJobCreate_keeps rfl
  | jobList => exact mJobList_keeps
  | jobGet => exact .bind findJob_keeps fun _ => .pure _
  | jobCancel =>
    exact jobSet_keeps fun _ => JobStore.set_keeps (by simp) (by simp [Method.law])
  | jobMarkRunning =>
    exact jobSet_keeps fun _ => JobStore.set_keeps (by simp) (by simp [Method.law])
  | jobMarkDone =>
    exact jobSet_keeps fun _ =>
      JobStore.set_keeps JobStore.doneFields_touched (by simp [Method.law])
  | jobMarkFailed =>
    exact jobSet_keeps fun _ =>
      JobStore.set_keeps JobStore.failedFields_touched (by simp [Method.law])
  | jobRun => exact .bind mJobRun_keeps fun _ => .pure _

/-- The law of a runner's step: only three points touch the job store. -/
def RunPoint.law : RunPoint → Law
  | .markRunning _ _ => { jobTargets := [.running] }
  | .markDone _ _ => { jobTargets := [.done] }
  | .failJob _ => { jobTargets := [.failed] }
  | _ => {}

/-- Every step of a runner obeys the law of the point it starts from. -/
theorem runnerStep_keeps (w : World) (jobId : Json) (command : List String) (point : RunPoint) :
    Prog.Keeps point.law.Holds (runnerStep w jobId command point) := by
  cases point with
  | lookup =>
    refine .bind (onJobs_keeps getRecord_keeps) fun job => ?_
    cases job with
    | none => exact .throw _
    | some job => exact .pure _
  | createRun job => exact .bind (onRuns_keeps _) fun _ => .pure _
  | markRunning job rid =>
    exact .bind (onJobs_keeps (JobStore.set_keeps (by simp) (by simp [RunPoint.law])))
      fun _ => .pure _
  | setRunning job rid => exact .bind (onRuns_keeps _) fun _ => .pure _
  | context job rid => exact .bind (.ofExcept _) fun _ => .pure _
  | netlist job rid vars =>
    unfold runnerStep
    cases w.env.netlistCmd with
    | none => exact .pure _
    | some ncmd => exact .bind (.ofExcept _) fun _ => .pure _
  | attachNetlist job rid vars code log =>
    exact .bind (.suppress (onRuns_keeps _)) fun _ => .pure _
  | simulate job rid vars => exact .bind (.ofExcept _) fun _ => .pure _
  | attachLog job rid code log => exact .bind (.suppress (onRuns_keeps _)) fun _ => .pure _
  | readMetrics job rid => exact .bind (.ofExcept _) fun _ => .pure _
  | storeResult rid result => exact .bind (onResults_keeps _) fun _ => .pure _
  | linkResult rid result => exact .bind (onRuns_keeps _) fun _ => .pure _
  | setDone rid result => exact .bind (onRuns_keeps _) fun _ => .pure _
  | markDone rid result =>
    exact .bind (onJobs_keeps
      (JobStore.set_keeps JobStore.doneFields_touched (by simp [RunPoint.law]))) fun _ => .pure _
  | emitResult rid result job => exact .bind (emit_keeps _ _) fun _ => .pure _
  | emitDone rid result job => exact .bind (emit_keeps _ _) fun _ => .pure _
  | failRun rid error => exact .bind (.suppress (onRuns_keeps _)) fun _ => .pure _
  | failJob error =>
    exact .bind (onJobs_keeps
      (JobStore.set_keeps JobStore.failedFields_touched (by simp [RunPoint.law]))) fun _ => .pure _
  | emitFailed error job => exact .bind (emit_keeps _ _) fun _ => .pure _
  | returned job => exact .pure _
  | raised e => exact .pure _

/-- The law of an input in a state. -/
def Input.law (s : System) : Input → Law
  | .request _ method _ => method.law
  | .sweep _ => { proposalTargets := [.expired] }
  | .advance _ i => (s.runners[i]?.map fun r => r.point.law).getD {}

/-- Every input obeys its law. -/
theorem step_law (i : Input) (s : System) :
    (i.law s).Holds s.tunnel (daemon.step i s).2.tunnel := by
  cases i with
  | request env method params => exact handle_keeps env method params s.tunnel
  | sweep env =>
    exact onProposals_keeps (ProposalStore.expireStale_keeps (by simp [Input.law])) s.tunnel
  | advance w i =>
    simp only [Input.law, daemon, System.step]
    cases hr : s.runners[i]? with
    | none => exact Std.Refl.refl _
    | some r =>
      have hkeeps := runnerStep_keeps w r.jobId r.command r.point s.tunnel
      simp only [Option.map_some, Option.getD_some, Runner.advance]
      cases hexec : (runnerStep w r.jobId r.command r.point).exec s.tunnel with
      | mk out t =>
        rw [hexec] at hkeeps
        cases out <;> exact hkeeps

end VirtuosoFlow.Tunnel
