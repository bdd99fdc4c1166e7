import VirtuosoFlow.Tunnel.Proposal
import VirtuosoFlow.Tunnel.Permissions
import VirtuosoFlow.Tunnel.Transaction
import VirtuosoFlow.Tunnel.Job
import VirtuosoFlow.Tunnel.Event
import VirtuosoFlow.Tunnel.Result
import VirtuosoFlow.Tunnel.Artifact

/-!
# The tunnel and its request handlers

The state of the daemon (`daemon.py`) and its handlers for the proposal, transaction
and job requests. A handler either returns the result of the response or raises, and
keeps what it had changed by then.
-/

set_option linter.dupNamespace false

namespace VirtuosoFlow.Tunnel

open Base

/-- The stores of the daemon. -/
structure Tunnel where
  proposals : Store
  transactions : Store
  jobs : Store
  runs : Store
  results : ResultStore
  events : EventLog
  registry : Store
  /-- `self.permissions`. -/
  permissions : Json

/-- A daemon freshly started over an empty directory; sessions are not looked at here. -/
def Tunnel.fresh (registry : Store) : Tunnel :=
  ⟨.empty, .empty, .empty, .empty, .empty, .empty, registry, .obj []⟩

section Components

variable {α : Type}

/-- An operation of the proposal store. -/
def onProposals (m : Prog PyExc Store α) : Prog PyExc Tunnel α :=
  m.zoom Tunnel.proposals fun st t => { t with proposals := st }

/-- An operation of the transaction store. -/
def onTransactions (m : Prog PyExc Store α) : Prog PyExc Tunnel α :=
  m.zoom Tunnel.transactions fun st t => { t with transactions := st }

/-- An operation of the job store. -/
def onJobs (m : Prog PyExc Store α) : Prog PyExc Tunnel α :=
  m.zoom Tunnel.jobs fun st t => { t with jobs := st }

/-- An operation of the run store. -/
def onRuns (m : Prog PyExc Store α) : Prog PyExc Tunnel α :=
  m.zoom Tunnel.runs fun st t => { t with runs := st }

/-- An operation of the result store. -/
def onResults (m : Prog PyExc ResultStore α) : Prog PyExc Tunnel α :=
  m.zoom Tunnel.results fun st t => { t with results := st }

/-- An operation of the session registry. -/
def onRegistry (m : Prog PyExc Store α) : Prog PyExc Tunnel α :=
  m.zoom Tunnel.registry fun st t => { t with registry := st }

/-- `self.events.emit(etype, payload)`. -/
def emit (env : Env) (etype : String) (payload : Obj) : Prog PyExc Tunnel Unit :=
  modify fun t => { t with events := t.events.emit env etype payload }

/-- The event of a handler that emits one. -/
def announce (env : Env) (event : Option String) (payload : Obj) : Prog PyExc Tunnel Unit :=
  match event with
  | some etype => emit env etype payload
  | none => pure ()

end Components

/-- `x = params.get(field)`, refused when it is false. -/
def requireId (field : String) (params : Obj) : Prog PyExc Tunnel Json :=
  if (Obj.get params field).truthy then pure (Obj.get params field)
  else throw (rpcError invalidParams ("params." ++ field ++ " required"))

/-- `v[:60]`. -/
def pySlice : Json → Except PyExc Unit
  | .str _ => .ok ()
  | .arr _ => .ok ()
  | _ => .error .typeError

section Components

variable {α : Type} (m : Prog PyExc Store α) (t : Tunnel)

/-- A program on the proposals changes these alone. -/
@[simp] theorem exec_onProposals : (onProposals m).exec t =
    ((m.exec t.proposals).1, { t with proposals := (m.exec t.proposals).2 }) := rfl

/-- A program on the transactions changes these alone. -/
@[simp] theorem exec_onTransactions : (onTransactions m).exec t =
    ((m.exec t.transactions).1, { t with transactions := (m.exec t.transactions).2 }) := rfl

/-- A program on the jobs changes these alone. -/
@[simp] theorem exec_onJobs : (onJobs m).exec t =
    ((m.exec t.jobs).1, { t with jobs := (m.exec t.jobs).2 }) := rfl

/-- A program on the runs changes these alone. -/
@[simp] theorem exec_onRuns : (onRuns m).exec t =
    ((m.exec t.runs).1, { t with runs := (m.exec t.runs).2 }) := rfl

/-- A program on the sessions changes these alone. -/
@[simp] theorem exec_onRegistry : (onRegistry m).exec t =
    ((m.exec t.registry).1, { t with registry := (m.exec t.registry).2 }) := rfl

/-- A program on the results changes these alone. -/
@[simp] theorem exec_onResults (m : Prog PyExc ResultStore α) : (onResults m).exec t =
    ((m.exec t.results).1, { t with results := (m.exec t.results).2 }) := rfl

/-- Emitting adds to the events alone. -/
@[simp] theorem exec_emit (env : Env) (etype : String) (payload : Obj) :
    (emit env etype payload).exec t =
      (.ok (), { t with events := t.events.emit env etype payload }) := rfl

end Components

section Proposals

/-- The log line and the event of a stored proposal. -/
def proposalCreated (env : Env) (p : Obj) : Prog PyExc Tunnel Json := do
  let id ← Prog.ofExcept (getItem p "proposal_id")
  Prog.ofExcept (pySlice (Obj.getD p "reason" (.str "")))
  emit env "proposal.created" [("proposal_id", id), ("cellview", Obj.get p "cellview")]
  return .obj [("proposal", .obj p)]

/-- `_m_proposal_create`. -/
def mProposalCreate (env : Env) (params : Obj) : Prog PyExc Tunnel Json :=
  match Obj.get params "proposal" with
  | .obj data => do
    Prog.ofExcept (env.validate "proposal" data)
    let p ← (onProposals (ProposalStore.create env data)).mapError valueErrorAsRpc
    proposalCreated env p
  | _ => throw (rpcError invalidParams "params.proposal must be an object")

/-- One event for each id. -/
def emitExpired (env : Env) : List Json → Prog PyExc Tunnel Unit
  | [] => pure ()
  | id :: rest => do
    emit env "proposal.expired" [("proposal_id", id)]
    emitExpired env rest

/-- `_m_proposal_list`. -/
def mProposalList (env : Env) (params : Obj) : Prog PyExc Tunnel Json := do
  let expired ← onProposals (ProposalStore.expireStale env)
  emitExpired env expired
  let items ← onProposals (ProposalStore.list env (Obj.get params "status"))
  return .obj [("proposals", .arr (items.map .obj)), ("count", .int items.length)]

/-- `_m_proposal_get`. -/
def mProposalGet (env : Env) (params : Obj) : Prog PyExc Tunnel Json := do
  let id ← requireId "proposal_id" params
  match ← onProposals (ProposalStore.get env id) with
  | some p => return .obj [("proposal", .obj p)]
  | none => throw (rpcError notFound "unknown proposal_id: %s" [id])

/-- The event and the answer of a moved proposal. -/
def proposalMoved (env : Env) (event : Option String) (id : Json) (p : Obj) :
    Prog PyExc Tunnel Json := do
  announce env event [("proposal_id", id)]
  return .obj [("proposal", .obj p)]

/-- The shape of the handlers that move one proposal; two of them emit an event. -/
def setProposal (env : Env) (op : Json → Prog PyExc Store Obj) (event : Option String)
    (params : Obj) : Prog PyExc Tunnel Json := do
  let id ← requireId "proposal_id" params
  let p ← (onProposals (op id)).mapError lookupErrorAsRpc
  proposalMoved env event id p

/-- `_m_proposal_approve`. -/
def mProposalApprove (env : Env) : Obj → Prog PyExc Tunnel Json :=
  setProposal env (ProposalStore.approve env) (some "proposal.approved")

/-- `_m_proposal_reject`. -/
def mProposalReject (env : Env) : Obj → Prog PyExc Tunnel Json :=
  setProposal env (ProposalStore.reject env) (some "proposal.rejected")

/-- `_m_proposal_mark_applied`. -/
def mProposalMarkApplied (env : Env) : Obj → Prog PyExc Tunnel Json :=
  setProposal env (ProposalStore.markApplied env) none

/-- `_m_proposal_mark_failed`. -/
def mProposalMarkFailed (env : Env) : Obj → Prog PyExc Tunnel Json :=
  setProposal env (ProposalStore.markFailed env) none

end Proposals

section Transactions

/-- The session a new transaction or job is bound to, with its fingerprint. -/
def bindSession (sid : Json) (data : Obj) : Prog PyExc Tunnel Obj := do
  let data := Obj.set data "session" sid
  match ← onRegistry (Registry.sessionFingerprint sid) with
  | some fp => return Obj.set data "session_fingerprint" (.obj fp)
  | none => return data

/-- The session of a transaction, where the payload names none. -/
def bindTransactionSession (params data : Obj) : Prog PyExc Tunnel Obj :=
  let sid := Obj.get params "session_id"
  if sid.truthy && !(Obj.get data "session").truthy then bindSession sid data else pure data

/-- The session and the actor of a transaction, where the payload names none. -/
def bindActor (params data : Obj) : Prog PyExc Tunnel Obj := do
  let data ← bindTransactionSession params data
  let actor := Obj.get params "actor"
  return if actor.truthy && !(Obj.get data "actor").truthy then Obj.set data "actor" actor
    else data

/-- The permission check of `_m_transaction_create`. -/
def checkPermissions (env : Env) (params candidate : Obj) : Prog PyExc Tunnel Unit := do
  let t ← get
  let perms := pyOr (pyOr (Obj.get params "permissions") t.permissions) (.obj [])
  let targets := pyOr (pyOr (Obj.get candidate "after") (Obj.get candidate "before")) (.arr [])
  let allow ← Prog.ofExcept (attrGet perms "allow_modify")
  let deny ← Prog.ofExcept (attrGet perms "deny_modify")
  let viol ← Prog.ofExcept (violations env targets allow deny)
  if viol.isEmpty then pure ()
  else throw (.rpc permissionDenied
    (.text "modify not permitted for: %s" [.str (", ".intercalate (viol.map Prod.fst))])
    (some (.arr (viol.map fun v => .obj [("target", .str v.1), ("reason", .str v.2)]))))

/-- `p = self.proposals.get(pid)` and, from one status, a move of `p` whose lookup errors
are dropped. -/
def linkProposal (env : Env) (pid : Json) (expected new : ProposalStatus) :
    Prog PyExc Store Unit :=
  if pid.truthy then do
    match ← ProposalStore.get env pid with
    | some p =>
      if (Obj.get p "status").pyEq (.str expected.name) then
        (ProposalStore.setStatus env new pid).suppress isLookupError
      else pure ()
    | none => pure ()
  else pure ()

/-- The log line and the event of a stored transaction. -/
def transactionCreated (env : Env) (txn : Obj) : Prog PyExc Tunnel Json := do
  let tid ← Prog.ofExcept (getItem txn "transaction_id")
  let _ ← Prog.ofExcept (pyLen (Obj.getD txn "after" (.arr [])))
  emit env "transaction.created"
    [("transaction_id", tid), ("proposal_id", Obj.get txn "proposal_id")]
  return .obj [("transaction", .obj txn)]

/-- `_m_transaction_create`. -/
def mTransactionCreate (env : Env) (params : Obj) : Prog PyExc Tunnel Json :=
  match Obj.get params "transaction" with
  | .obj data => do
    let data ← bindActor params data
    let candidate := makeTransaction env data
    checkPermissions env params candidate
    Prog.ofExcept (env.validate "transaction" candidate)
    let txn ← (onTransactions (TransactionStore.add env candidate)).mapError valueErrorAsRpc
    onProposals (linkProposal env (Obj.get txn "proposal_id") .approved .applied)
    transactionCreated env txn
  | _ => throw (rpcError invalidParams "params.transaction must be an object")

/-- `_m_transaction_list`. -/
def mTransactionList (params : Obj) : Prog PyExc Tunnel Json := do
  let items ← onTransactions (TransactionStore.list (Obj.get params "status"))
  return .obj [("transactions", .arr (items.map .obj)), ("count", .int items.length)]

/-- The lookup that `transaction.get` and `transaction.rollback` share. -/
def findTransaction (params : Obj) : Prog PyExc Tunnel (Json × Obj) := do
  let id ← requireId "transaction_id" params
  match ← onTransactions (TransactionStore.get id) with
  | some t => return (id, t)
  | none => throw (rpcError notFound "unknown transaction_id: %s" [id])

/-- `_m_transaction_get`. -/
def mTransactionGet (params : Obj) : Prog PyExc Tunnel Json := do
  let found ← findTransaction params
  return .obj [("transaction", .obj found.2)]

/-- `_m_transaction_rollback`: the restore recipe of an applied transaction. -/
def mTransactionRollback (params : Obj) : Prog PyExc Tunnel Json := do
  let (id, t) ← findTransaction params
  if (Obj.get t "status").pyEq (.str "applied") then
    return .obj [("transaction", .obj t), ("restore", Obj.getD t "before" (.arr []))]
  else throw (rpcError invalidParams
    "transaction %s is %s, only 'applied' can be rolled back" [id, Obj.get t "status"])

/-- The event and the answer of a transaction marked rolled back. -/
def transactionRolledBack (env : Env) (id : Json) (t : Obj) : Prog PyExc Tunnel Json := do
  emit env "transaction.rolled_back"
    [("transaction_id", id), ("proposal_id", Obj.get t "proposal_id")]
  return .obj [("transaction", .obj t)]

/-- `_m_transaction_mark_rolled_back`. -/
def mTransactionMarkRolledBack (env : Env) (params : Obj) : Prog PyExc Tunnel Json := do
  let id ← requireId "transaction_id" params
  let t ← (onTransactions (TransactionStore.markRolledBack env id)).mapError lookupErrorAsRpc
  onProposals (linkProposal env (Obj.get t "proposal_id") .applied .rolledBack)
  transactionRolledBack env id t

/-- `_m_transaction_mark_failed`. -/
def mTransactionMarkFailed (env : Env) (params : Obj) : Prog PyExc Tunnel Json := do
  let id ← requireId "transaction_id" params
  let t ← (onTransactions (TransactionStore.markFailed env id)).mapError lookupErrorAsRpc
  return .obj [("transaction", .obj t)]

end Transactions

section Jobs

/-- The session part of `_m_job_create`. -/
def bindJobSession (env : Env) (params data : Obj) : Prog PyExc Tunnel Obj :=
  let sid := Obj.get params "session_id"
  if sid.truthy then do
    onRegistry (Registry.touch env sid)
    bindSession sid data
  else pure data

/-- The freshness guard of `_m_job_create`, unless the caller opts out. -/
def reuseJob (params candidate : Obj) : Prog PyExc Tunnel (Option Obj) :=
  if (Obj.getD params "reuse" (.bool true)).truthy then
    onJobs (JobStore.freshDone (Obj.get candidate "inputs_fingerprint"))
  else pure none

/-- The event of a stored job. -/
def jobCreated (env : Env) (job : Obj) : Prog PyExc Tunnel Json := do
  let id ← Prog.ofExcept (getItem job "job_id")
  emit env "job.created" [("job_id", id), ("test", Obj.get job "test")]
  return .obj [("job", .obj job), ("reused", .bool false)]

/-- `_m_job_create`. -/
def mJobCreate (env : Env) (params : Obj) : Prog PyExc Tunnel Json :=
  match Obj.get params "job" with
  | .obj data => do
    let data ← bindJobSession env params data
    let candidate := makeJob env data
    match ← reuseJob params candidate with
    | some fresh => return .obj [("job", .obj fresh), ("reused", .bool true)]
    | none =>
      Prog.ofExcept (env.validate "job" candidate)
      let job ← (onJobs (JobStore.add env candidate)).mapError valueErrorAsRpc
      jobCreated env job
  | _ => throw (rpcError invalidParams "params.job must be an object")

/-- `_m_job_list`. -/
def mJobList (params : Obj) : Prog PyExc Tunnel Json := do
  let items ← onJobs (JobStore.list (Obj.get params "status"))
  return .obj [("jobs", .arr (items.map .obj)), ("count", .int items.length)]

/-- The lookup that `job.get` and `job.run` share. -/
def findJob (params : Obj) : Prog PyExc Tunnel (Json × Obj) := do
  let id ← requireId "job_id" params
  match ← onJobs (JobStore.get id) with
  | some job => return (id, job)
  | none => throw (rpcError notFound "unknown job_id: %s" [id])

/-- `_m_job_get`. -/
def mJobGet (params : Obj) : Prog PyExc Tunnel Json := do
  let found ← findJob params
  return .obj [("job", .obj found.2)]

/-- The event of a job handler, with the members of the job it shows. -/
def announceJob (env : Env) (event : Option String) (shown : List String) (job : Obj) :
    Prog PyExc Tunnel Unit :=
  match event with
  | some etype => do
    let jid ← Prog.ofExcept (getItem job "job_id")
    emit env etype (("job_id", jid) :: shown.map fun f => (f, Obj.get job f))
  | none => pure ()

/-- `_job_set(method, params, **fields)`, and the event its handler emits. -/
def jobSet (env : Env) (op : Json → Prog PyExc Store Obj) (event : Option String)
    (shown : List String) (params : Obj) : Prog PyExc Tunnel Json := do
  let id ← requireId "job_id" params
  let job ← (onJobs (op id)).mapError lookupErrorAsRpc
  announceJob env event shown job
  return .obj [("job", .obj job)]

/-- `_m_job_mark_running`. -/
def mJobMarkRunning (env : Env) : Obj → Prog PyExc Tunnel Json :=
  jobSet env (JobStore.markRunning env) none []

/-- `_m_job_mark_done`. -/
def mJobMarkDone (env : Env) (params : Obj) : Prog PyExc Tunnel Json :=
  jobSet env
    (fun id => JobStore.markDone env id (Obj.get params "result_id") (Obj.get params "run_id"))
    (some "job.done") ["result_id"] params

/-- `_m_job_mark_failed`. -/
def mJobMarkFailed (env : Env) (params : Obj) : Prog PyExc Tunnel Json :=
  jobSet env (fun id => JobStore.markFailed env id (Obj.get params "error"))
    (some "job.failed") [] params

/-- `_m_job_cancel`. -/
def mJobCancel (env : Env) : Obj → Prog PyExc Tunnel Json :=
  jobSet env (JobStore.cancel env) (some "job.cancelled") []

/-- `_m_job_run` up to the start of the thread: the job's id and the command to run. -/
def mJobRun (env : Env) (params : Obj) : Prog PyExc Tunnel (Json × List String) := do
  let (id, job) ← findJob params
  if (Obj.get job "status").pyEq (.str "queued") then
    match env.simCmd with
    | some cmd => return (id, cmd)
    | none => throw (rpcError invalidParams "no simulator configured (set VFP_SIM_CMD)")
  else throw (rpcError invalidState "job %s is %s; only a queued job can be run"
    [id, Obj.get job "status"])

end Jobs

end VirtuosoFlow.Tunnel
