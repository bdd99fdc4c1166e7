import VirtuosoFlow.Tunnel.Updates
import VirtuosoFlow.Tunnel.Sweep
import VirtuosoFlow.Tunnel.Replies
import VirtuosoFlow.Tunnel.Dispatch

/-!
# What an error answer leaves behind

Six requests change the records, the latest context or the latest result. Each changes memory
first and may still raise: when it names a file, links a proposal, writes a log line or writes the
latest value to disk. For each this file has the exact condition under which an exception leaves
everything as it was, and carries it through the dispatcher.
-/

set_option linter.dupNamespace false

namespace VirtuosoFlow.Tunnel

open Base

/-- The records and the latest result. -/
def Tunnel.contents (t : Tunnel) :
    Dict Key Obj × Dict Key Obj × Dict Key Obj × Dict Key Obj × Option Obj :=
  (t.proposals.records, t.transactions.records, t.jobs.records, t.runs.records, t.results.latest)

/-- The same with the latest context. -/
def Daemon.contents (d : Daemon) :
    (Dict Key Obj × Dict Key Obj × Dict Key Obj × Dict Key Obj × Option Obj) × Option Obj :=
  (d.tunnel.contents, d.contexts.latest)

section Stored

variable {env : Env} {params : Obj} {t : Tunnel} {k : Key}

/-- An id that is true is there to be read. -/
theorem getItem_of_truthy {o : Obj} {f : String} (h : (Obj.get o f).truthy = true) :
    getItem o f = .ok (Obj.get o f) := by
  unfold getItem
  unfold Obj.get Obj.getD at h ⊢
  cases hl : o.lookup f with
  | none => simp [hl, Json.truthy] at h
  | some v => rfl

/-- After a proposal was stored, its file has a name and its reason can be cut for the log. -/
structure ProposalReturns (env : Env) (p : Obj) : Prop where
  file : persistError env "proposal_id" p = none
  log : (pySlice (Obj.getD p "reason" (.str ""))).isOk = true

/-- A request that would store a proposal stores it, and returns if nothing raises after that. -/
theorem mProposalCreate_stores {p : Obj} (h : StoresProposal env params t k p) :
    ((mProposalCreate env params).exec t).2.proposals.records = t.proposals.records.insert k p ∧
      (((mProposalCreate env params).exec t).1.isOk = true ↔ ProposalReturns env p) := by
  obtain ⟨data, hdata, hvalid, rfl, hkey, hfree⟩ := h
  have hid : (Obj.get (makeProposal env data) "proposal_id").truthy = true := truthy_id_makeProposal
  unfold mProposalCreate
  rw [hdata]
  dsimp only
  rw [hvalid, Prog.exec_bind_ok (Prog.exec_ofExcept _ _)]
  have hcreate : ∃ writes, ((onProposals (ProposalStore.create env data)).mapError valueErrorAsRpc).exec t =
      ((persistError env "proposal_id" (makeProposal env data)).elim (.ok (makeProposal env data))
        fun e => .error (valueErrorAsRpc e),
        { t with proposals := ⟨t.proposals.records.insert k (makeProposal env data), writes⟩ }) := by
    obtain ⟨writes, hexec⟩ := exec_insertNew_persist env "proposal_id" "duplicate proposal_id: %s" hkey hfree
    refine ⟨writes, ?_⟩
    simp only [ProposalStore.create, Prog.exec_mapError, exec_onProposals, hexec]
    cases persistError env "proposal_id" (makeProposal env data) <;> rfl
  obtain ⟨writes, hcreate⟩ := hcreate
  generalize makeProposal env data = p at *
  cases herr : persistError env "proposal_id" p with
  | some e =>
    rw [herr] at hcreate
    rw [Prog.exec_bind_error hcreate]
    refine ⟨rfl, ?_⟩
    constructor
    · intro hok
      cases hok
    · intro hreturns
      rw [hreturns.file] at herr
      cases herr
  | none =>
    rw [herr] at hcreate
    rw [Prog.exec_bind_ok hcreate, proposalCreated, getItem_of_truthy hid,
      Prog.exec_bind_ok (Prog.exec_ofExcept _ _)]
    cases hlog : pySlice (Obj.getD p "reason" (.str "")) with
    | error e =>
      rw [Prog.exec_bind_error (Prog.exec_ofExcept _ _)]
      refine ⟨rfl, ?_⟩
      constructor
      · intro hok
        cases hok
      · intro hreturns
        have hok := hreturns.log
        rw [hlog] at hok
        cases hok
    | ok u =>
      rw [Prog.exec_bind_ok (Prog.exec_ofExcept _ _)]
      refine ⟨rfl, fun _ => ⟨herr, ?_⟩, fun _ => rfl⟩
      rw [hlog]
      rfl

/-- What proposals have no part in. -/
def besideProposals (t : Tunnel) : Store × Store × Store × ResultStore := (t.transactions, t.jobs, t.runs, t.results)

/-- What touches proposals alone leaves the rest. -/
theorem onProposals_fixes {α : Type} (m : Prog PyExc Store α) :
    Prog.Keeps (Prog.Fixes besideProposals) (onProposals m) := fun _ => rfl

/-- An event is none of the stored records. -/
theorem emit_fixes (etype : String) (payload : Obj) :
    Prog.Keeps (Prog.Fixes besideProposals) (emit env etype payload) := fun _ => rfl

/-- Creating a proposal leaves the other stores. -/
theorem mProposalCreate_others (env : Env) (params : Obj) :
    Prog.Keeps (Prog.Fixes besideProposals) (mProposalCreate env params) := by
  unfold mProposalCreate
  split
  · refine .bind (.ofExcept _) fun _ => .bind (.mapError (onProposals_fixes _)) fun p => ?_
    exact .bind (.ofExcept _) fun _ => .bind (.ofExcept _) fun _ => .bind (emit_fixes _ _) fun _ => .pure _
  · exact .throw _

/-- It leaves no proposal behind an error exactly if nothing raises once one is stored. -/
theorem raisesClean_mProposalCreate : Prog.RaisesClean Tunnel.contents (mProposalCreate env params) t ↔
    ∀ e : Key × Obj, StoresProposal env params t e.1 e.2 → ProposalReturns env e.2 := by
  have hothers := mProposalCreate_others env params t
  simp only [Prog.Fixes, besideProposals, Prod.mk.injEq] at hothers
  refine Prog.raisesClean_iff ?_ ?_
  · intro hnone
    rcases mProposalCreate_records env params t with hsame | ⟨k, p, hstores, _⟩
    · exact Prog.raisesClean_of_same (by simp [Tunnel.contents, hsame, hothers])
    · exact absurd hstores (hnone (k, p))
  · rintro ⟨k, p⟩ hstores
    obtain ⟨hrecords, hok⟩ := mProposalCreate_stores hstores
    refine ⟨hok, fun _ hsame => ?_⟩
    obtain ⟨data, _, _, _, _, hfree⟩ := hstores
    have hproposals : ((mProposalCreate env params).exec t).2.proposals.records = t.proposals.records :=
      congrArg Prod.fst hsame
    rw [← hproposals, hrecords] at hfree
    simp at hfree

/-- After a transaction was added, its file has a name, its proposal can be linked and its changes
can be counted for the log. -/
structure TransactionReturns (env : Env) (t : Tunnel) (u : Obj) : Prop where
  file : persistError env "transaction_id" u = none
  link : LinkReturns env (Obj.get u "proposal_id") t.proposals
  log : (pyLen (Obj.getD u "after" (.arr []))).isOk = true

/-- A transaction is created without an error exactly if these steps return. -/
theorem createReturns_iff {u : Obj} : CreateReturns env t u ↔ TransactionReturns env t u := by
  constructor
  · intro h
    exact ⟨h.file, linkProposal_returns_iff.mp h.link, h.log⟩
  · intro h
    exact ⟨h.file, linkProposal_returns_iff.mpr h.link, h.log⟩

/-- What transactions and proposals have no part in. -/
def besideTransactions (t : Tunnel) : Store × Store × ResultStore := (t.jobs, t.runs, t.results)

/-- What touches transactions alone leaves the rest. -/
theorem onTransactions_fixes {α : Type} (m : Prog PyExc Store α) :
    Prog.Keeps (Prog.Fixes besideTransactions) (onTransactions m) := fun _ => rfl

/-- What follows on a stored transaction leaves the stores of the other records. -/
theorem transactionCreated_others (u : Obj) :
    Prog.Keeps (Prog.Fixes besideTransactions) (transactionCreated env u) :=
  .bind (.ofExcept _) fun _ => .bind (.ofExcept _) fun _ => .bind (fun _ => rfl) fun _ => .pure _

/-- A program that only reads fixes every part of the state. -/
theorem fixes_of_reads {α ρ : Type} {m : Prog PyExc Tunnel α} (h : Prog.Reads m) (view : Tunnel → ρ) :
    Prog.Keeps (Prog.Fixes view) m := h.mono fun _ _ hsame => congrArg view hsame

/-- So does creating one. -/
theorem mTransactionCreate_others (env : Env) (params : Obj) :
    Prog.Keeps (Prog.Fixes besideTransactions) (mTransactionCreate env params) := by
  have hlink : ∀ pid : Json, Prog.Keeps (Prog.Fixes besideTransactions)
      (onProposals (linkProposal env pid .approved .applied)) := fun _ _ => rfl
  unfold mTransactionCreate
  split
  · refine .bind (fixes_of_reads (bindActor_reads _) _) fun _ => ?_
    refine .bind (fixes_of_reads (checkPermissions_reads _) _) fun _ => ?_
    refine .bind (.ofExcept _) fun _ => .bind (.mapError (onTransactions_fixes _)) fun u => ?_
    exact .bind (hlink _) fun _ => transactionCreated_others u
  · exact .throw _

/-- It leaves no transaction behind an error exactly if nothing raises once one is stored. -/
theorem raisesClean_mTransactionCreate : Prog.RaisesClean Tunnel.contents (mTransactionCreate env params) t ↔
    ∀ e : Key × Obj, StoresTransaction env params t e.1 e.2 → TransactionReturns env t e.2 := by
  have hothers := mTransactionCreate_others env params t
  simp only [Prog.Fixes, besideTransactions, Prod.mk.injEq] at hothers
  refine Prog.raisesClean_iff ?_ ?_
  · intro hnone
    rcases mTransactionCreate_cases env params t with ⟨hsame, hproposals⟩ | ⟨i, u, hstores, _⟩
    · exact Prog.raisesClean_of_same (by simp [Tunnel.contents, hsame, hproposals, hothers])
    · exact absurd hstores (hnone (i, u))
  · rintro ⟨i, u⟩ hstores
    obtain ⟨hrecords, hok⟩ := mTransactionCreate_stores hstores
    rw [createReturns_iff] at hok
    refine ⟨hok, fun _ hsame => ?_⟩
    obtain ⟨_, _, _, _, _, _, _, _, _, hfree⟩ := hstores
    have htransactions : ((mTransactionCreate env params).exec t).2.transactions.records =
        t.transactions.records := congrArg (fun c => c.2.1) hsame
    rw [← htransactions, hrecords] at hfree
    simp at hfree

/-- Asking the freshness guard is reading. -/
theorem reuseJob_reads (params candidate : Obj) : Prog.Reads (reuseJob params candidate) :=
  .ite ((JobStore.freshDone_reads _).zoom fun _ => rfl) (.pure _)

/-- What jobs have no part in. -/
def besideJobs (t : Tunnel) : Store × Store × Store × ResultStore := (t.proposals, t.transactions, t.runs, t.results)

/-- Binding a job to its session leaves the other stores. -/
theorem bindJobSession_others (env : Env) (params data : Obj) :
    Prog.Keeps (Prog.Fixes besideJobs) (bindJobSession env params data) := by
  refine .ite (.bind (fun _ => rfl) fun _ => .bind (fun _ => rfl) fun fp => ?_) (.pure _)
  cases fp <;> exact .pure _

/-- What touches jobs alone leaves the rest. -/
theorem onJobs_fixes {α : Type} (m : Prog PyExc Store α) :
    Prog.Keeps (Prog.Fixes besideJobs) (onJobs m) := fun _ => rfl

/-- Creating a job leaves the other stores. -/
theorem mJobCreate_others (env : Env) (params : Obj) :
    Prog.Keeps (Prog.Fixes besideJobs) (mJobCreate env params) := by
  unfold mJobCreate
  split
  · refine .bind (bindJobSession_others _ _ _) fun data => ?_
    refine .bind (fixes_of_reads (reuseJob_reads _ _) _) fun fresh => ?_
    cases fresh with
    | some fresh => exact .pure _
    | none =>
      refine .bind (.ofExcept _) fun _ => .bind (.mapError (onJobs_fixes _)) fun job => ?_
      exact .bind (.ofExcept _) fun _ => .bind (fun _ => rfl) fun _ => .pure _
  · exact .throw _

/-- A new job has an id that is true: a false one is replaced. -/
theorem truthy_id_makeJob {data : Obj} : (Obj.get (makeJob env data) "job_id").truthy = true := by
  unfold makeJob
  dsimp only
  split <;> split <;> simp_all

/-- A request that would store a job stores it, and returns if its file has a name. -/
theorem mJobCreate_stores {j : Obj} (h : StoresJob env params t k j) :
    ((mJobCreate env params).exec t).2.jobs.records = t.jobs.records.insert k j ∧
      (((mJobCreate env params).exec t).1.isOk = true ↔ persistError env "job_id" j = none) := by
  obtain ⟨t', ⟨data, data', hdata, hbound, rfl⟩, hreuse, hvalid, hkey, hfree⟩ := h
  have hjobs : t'.jobs = t.jobs := by
    have hfixes := bindJobSession_fixes env params data t
    simpa [hbound, Prog.Fixes] using hfixes
  have hid : (Obj.get (makeJob env data') "job_id").truthy = true := truthy_id_makeJob
  unfold mJobCreate
  rw [hdata]
  dsimp only
  rw [Prog.exec_bind_ok hbound, Prog.exec_bind_ok ((reuseJob_reads _ _).exec_of_fst hreuse)]
  dsimp only
  rw [hvalid, Prog.exec_bind_ok (Prog.exec_ofExcept _ _)]
  rw [← hjobs] at hfree
  have hadd : ∃ writes, ((onJobs (JobStore.add env (makeJob env data'))).mapError valueErrorAsRpc).exec t' =
      ((persistError env "job_id" (makeJob env data')).elim (.ok (makeJob env data'))
        fun e => .error (valueErrorAsRpc e),
        { t' with jobs := ⟨t'.jobs.records.insert k (makeJob env data'), writes⟩ }) := by
    obtain ⟨writes, hexec⟩ := exec_insertNew_persist env "job_id" "duplicate job_id: %s" hkey hfree
    refine ⟨writes, ?_⟩
    simp only [JobStore.add, hid, Bool.not_true, Bool.false_eq_true, if_false, Prog.exec_mapError, exec_onJobs, hexec]
    cases persistError env "job_id" (makeJob env data') <;> rfl
  obtain ⟨writes, hadd⟩ := hadd
  generalize makeJob env data' = j at *
  cases herr : persistError env "job_id" j with
  | some e =>
    rw [herr] at hadd
    rw [Prog.exec_bind_error hadd, hjobs]
    exact ⟨rfl, by simp [Except.isOk, Except.toBool]⟩
  | none =>
    rw [herr] at hadd
    rw [Prog.exec_bind_ok hadd, jobCreated, getItem_of_truthy hid, Prog.exec_bind_ok (Prog.exec_ofExcept _ _), hjobs]
    exact ⟨rfl, by simp [Prog.exec_bind, Except.isOk, Except.toBool]⟩

/-- It leaves no job behind an error exactly if the job's file can be named. -/
theorem raisesClean_mJobCreate : Prog.RaisesClean Tunnel.contents (mJobCreate env params) t ↔
    ∀ e : Key × Obj, StoresJob env params t e.1 e.2 → persistError env "job_id" e.2 = none := by
  have hothers := mJobCreate_others env params t
  simp only [Prog.Fixes, besideJobs, Prod.mk.injEq] at hothers
  refine Prog.raisesClean_iff ?_ ?_
  · intro hnone
    rcases mJobCreate_records env params t with hsame | ⟨k, j, hstores, _⟩
    · exact Prog.raisesClean_of_same (by simp [Tunnel.contents, hsame, hothers])
    · exact absurd hstores (hnone (k, j))
  · rintro ⟨k, j⟩ hstores
    obtain ⟨hrecords, hok⟩ := mJobCreate_stores hstores
    refine ⟨hok, fun _ hsame => ?_⟩
    obtain ⟨_, _, _, _, _, hfree⟩ := hstores
    have hjobs : ((mJobCreate env params).exec t).2.jobs.records = t.jobs.records :=
      congrArg (fun c => c.2.2.1) hsame
    rw [← hjobs, hrecords] at hfree
    simp at hfree

end Stored

section Latest

variable {env : Env} {params : Obj} {t : Tunnel} {d : Daemon}

/-- A `result.update` request with these parameters would replace the latest result by another. -/
def StoresResult (env : Env) (params : Obj) (t : Tunnel) (result : Obj) : Prop :=
  ∃ data, Obj.get params "result" = .obj data ∧ withVerdict env params (makeResult env data) = .ok result ∧
    env.validate "result" result = .ok () ∧ env.dirsOk = true ∧ t.results.latest ≠ some result

/-- An update leaves no result behind an error exactly if results can be written. -/
theorem raisesClean_mResultUpdate (path : String) :
    Prog.RaisesClean Tunnel.contents (mResultUpdate env path params) t ↔
      ∀ result, StoresResult env params t result → LatestWritable env "result" := by
  unfold mResultUpdate
  cases hdata : Obj.get params "result" with
  | obj data =>
    simp only [Prog.raisesClean_ofExcept_bind]
    have hcore : ∀ result, Prog.RaisesClean Tunnel.contents (do
          onResults (ResultStore.update env result)
          emit env "result.updated" [("result_id", Obj.get result "result_id")]
          return .obj [("result", .obj result), ("path", .str path)] : Prog PyExc Tunnel Json) t ↔
        (env.dirsOk = true → t.results.latest ≠ some result → LatestWritable env "result") := by
      intro result
      rcases updateLatest_cases env "result" result t.results
        with ⟨hdirs, e, hexec⟩ | ⟨hdirs, hwritable, st, hlatest, hexec⟩ | ⟨hdirs, hwritable, e, st, hlatest, hexec⟩
      · rw [← ResultStore.update_eq] at hexec
        simp [Prog.RaisesClean, Prog.exec_bind, hexec, hdirs]
      · rw [← ResultStore.update_eq] at hexec
        simp [Prog.RaisesClean, Prog.exec_bind, hexec, hwritable]
      · rw [← ResultStore.update_eq] at hexec
        simp [Prog.RaisesClean, Prog.exec_bind, hexec, hdirs, hwritable, Tunnel.contents, hlatest, eq_comm]
    simp only [hcore]
    constructor
    · rintro h result ⟨data', hdata', hverdict, hvalid, hdirs, hnew⟩
      rw [hdata] at hdata'
      cases hdata'
      exact h result hverdict () hvalid hdirs hnew
    · intro h result hverdict _ hvalid hdirs hnew
      exact h result ⟨data, hdata, hverdict, hvalid, hdirs, hnew⟩
  | _ =>
    simp only [Prog.raisesClean_throw, true_iff]
    rintro result ⟨data, hdata', _⟩
    rw [hdata] at hdata'
    cases hdata'

/-- A `design.context.update` request with these parameters would replace the latest context by
another. -/
def StoresContext (env : Env) (params : Obj) (d : Daemon) (context : Obj) : Prop :=
  Obj.get params "context" = .obj context ∧ env.validate "context" context = .ok () ∧
    ((touchSession env params).exec d.tunnel).1 = .ok () ∧ env.dirsOk = true ∧ d.contexts.latest ≠ some context

/-- After a context was remembered, its files can be written and the log line can be told. -/
structure ContextReturns (env : Env) (context : Obj) : Prop where
  files : LatestWritable env "context"
  log : (contextLogged context).isOk = true

/-- Hearing of a session leaves the stored records. -/
theorem touchSession_fixes (env : Env) (params : Obj) :
    Prog.Keeps (Prog.Fixes Tunnel.contents) (touchSession env params) := .ite (fun _ => rfl) (.pure _)

/-- An update leaves no context behind an error exactly if nothing raises once one is stored. -/
theorem raisesClean_mContextUpdate (path : String) :
    Prog.RaisesClean Daemon.contents (mContextUpdate env path params) d ↔
      ∀ context, StoresContext env params d context → ContextReturns env context := by
  unfold mContextUpdate
  cases hdata : Obj.get params "context" with
  | obj context =>
    have htouch : Prog.Keeps (Prog.Fixes fun d : Daemon => (d.tunnel.contents, d.contexts))
        (onTunnel (touchSession env params)) := by
      intro d
      have hsame := touchSession_fixes env params d.tunnel
      simp only [Prog.Fixes] at hsame
      simp [Prog.Fixes, onTunnel, hsame]
    have hcore : ∀ d : Daemon, Prog.RaisesClean Daemon.contents (do
          onContexts (ContextStore.update env context)
          Prog.ofExcept (contextLogged context)
          return .obj [("stored", .bool true), ("path", .str path)] : Prog PyExc Daemon Json) d ↔
        (env.dirsOk = true → d.contexts.latest ≠ some context → ContextReturns env context) := by
      intro d
      rcases updateLatest_cases env "context" context d.contexts
        with ⟨hdirs, e, hexec⟩ | ⟨hdirs, hwritable, st, hlatest, hexec⟩ | ⟨hdirs, hwritable, e, st, hlatest, hexec⟩
      · simp [Prog.RaisesClean, Prog.exec_bind, onContexts, ContextStore.update, hexec, hdirs]
      · cases hlog : contextLogged context with
        | ok u =>
          have hreturns : ContextReturns env context := ⟨hwritable, by rw [hlog]; rfl⟩
          simp [Prog.RaisesClean, Prog.exec_bind, onContexts, ContextStore.update, hexec, hreturns]
        | error e =>
          have hraises : ¬ ContextReturns env context := by
            intro hreturns
            have hok := hreturns.log
            rw [hlog] at hok
            cases hok
          simp [Prog.RaisesClean, Prog.exec_bind, onContexts, ContextStore.update, hexec, hraises, hdirs,
            Daemon.contents, hlatest, eq_comm]
      · have hraises : ¬ ContextReturns env context := fun hreturns => hwritable hreturns.files
        simp [Prog.RaisesClean, Prog.exec_bind, onContexts, ContextStore.update, hexec, hraises, hdirs,
          Daemon.contents, hlatest, eq_comm]
    rw [Prog.raisesClean_ofExcept_bind]
    have hview : Prog.Keeps (Prog.Fixes Daemon.contents) (onTunnel (touchSession env params)) :=
      htouch.mono fun _ _ h => by
        simp only [Prog.Fixes, Prod.mk.injEq] at h
        simp [Prog.Fixes, Daemon.contents, h]
    simp only [Prog.raisesClean_bind hview, hcore]
    constructor
    · rintro h context' ⟨hdata', hvalid, htouched, hdirs, hnew⟩
      rw [hdata] at hdata'
      cases hdata'
      exact h () hvalid () _ (Prod.ext htouched rfl) hdirs hnew
    · intro h _ hvalid _ d' htouched hdirs hnew
      have hsame := htouch d
      rw [htouched] at hsame
      simp only [Prog.Fixes, Prod.mk.injEq] at hsame
      rw [hsame.2] at hnew
      exact h context ⟨hdata, hvalid, congrArg Prod.fst htouched, hdirs, hnew⟩
  | _ =>
    simp only [Prog.raisesClean_throw, true_iff]
    rintro context ⟨hdata', _⟩
    rw [hdata] at hdata'
    cases hdata'

end Latest

section Import

variable {env : Env} {params : Obj} {t : Tunnel} {st : Store} {k : Key} {id : Json} {r : Obj}

/-- The directory of a run can be named: its own id is a string. -/
def RunNamed (r : Obj) : Prop := ∃ rid, Obj.get r "run_id" = .str rid

/-- Writing the file of a run raises exactly if its directory cannot be named. -/
theorem exec_persist_run (hdirs : env.dirsOk = true) (r : Obj) (st : Store) :
    (RunNamed r ∧ ∃ writes, (RunStore.persist env r).exec st = (.ok (), { st with writes := writes })) ∨
    (¬ RunNamed r ∧ (RunStore.persist env r).exec st = (.error .typeError, st)) := by
  unfold RunNamed
  cases hid : Obj.get r "run_id" with
  | str rid => exact .inl ⟨⟨rid, rfl⟩, RunStore.exec_persist env st hid⟩
  | _ =>
    right
    constructor
    · rintro ⟨rid, hrid⟩
      cases hrid
    · simp [RunStore.persist, hid, hdirs]

/-- A run that a member other than its id is set in, as `_update` leaves it. -/
def stampedRun (env : Env) (field : String) (v : Json) (r : Obj) : Obj :=
  Obj.set (Obj.set r field v) "updated_at" env.stamp

/-- A run keeps its name when a field is set. -/
theorem runNamed_stampedRun {field : String} {v : Json} (hfield : field ≠ "run_id") :
    RunNamed (stampedRun env field v r) ↔ RunNamed r := by
  unfold RunNamed stampedRun
  rw [Obj.get_set_ne _ (by decide), Obj.get_set_ne _ (Ne.symm hfield)]

/-- `_update` changes the run, and then raises exactly if its directory cannot be named. -/
theorem exec_update_run {field : String} {v : Json} (hfield : field ≠ "run_id") (hdirs : env.dirsOk = true)
    (hkey : id.key? = some k) (hr : st.records.get? k = some r) :
    ∃ out writes, (RunStore.update env id fun r => .ok (Obj.set r field v)).exec st =
        (out, ⟨st.records.insert k (stampedRun env field v r), writes⟩) ∧
      (out.isOk = true ↔ RunNamed r) := by
  rcases exec_persist_run hdirs (stampedRun env field v r)
      { st with records := st.records.insert k (stampedRun env field v r) }
    with ⟨hnamed, writes, hexec⟩ | ⟨hnamed, hexec⟩
  · rw [runNamed_stampedRun hfield] at hnamed
    refine ⟨.ok (stampedRun env field v r), writes, ?_, by simp [Except.isOk, Except.toBool, hnamed]⟩
    unfold stampedRun at hexec
    simp [RunStore.update, Prog.exec_bind, hashKey, hkey, hr, hexec, stampedRun]
  · rw [runNamed_stampedRun hfield] at hnamed
    refine ⟨.error .typeError, st.writes, ?_, by simp [Except.isOk, Except.toBool, hnamed]⟩
    unfold stampedRun at hexec
    simp [RunStore.update, Prog.exec_bind, hashKey, hkey, hr, hexec, stampedRun]

/-- A `run.import_result` request with these parameters gets as far as storing this result for this
run. -/
structure ImportsResult (env : Env) (params : Obj) (t : Tunnel) (k : Key) (run result : Obj) : Prop where
  truthy : (Obj.get params "run_id").truthy = true
  key : (Obj.get params "run_id").key? = some k
  stored : t.runs.records.get? k = some run
  result : ∃ metrics, Obj.get params "metrics" = .obj metrics ∧ importedResult env params metrics = .ok result
  dirs : env.dirsOk = true

/-- It would replace the latest result by another, or change the run. -/
def ImportChanges (env : Env) (params : Obj) (t : Tunnel) (i : Key × Obj × Obj) : Prop :=
  ImportsResult env params t i.1 i.2.1 i.2.2 ∧ (t.results.latest ≠ some i.2.2 ∨
    LatestWritable env "result" ∧ stampedRun env "result_id" (Obj.get i.2.2 "result_id") i.2.1 ≠ i.2.1)

/-- After the result was remembered, its files can be written and the directory of the run can be
named. -/
structure ImportReturns (env : Env) (run : Obj) : Prop where
  files : LatestWritable env "result"
  named : RunNamed run

/-- What is stored for an imported result: the latest result, then the run. -/
theorem storeImported_cases {run result : Obj} (himports : ImportsResult env params t k run result) :
    (LatestWritable env "result" ∧ RunNamed run ∧
      ∃ answer, ((storeImported env (Obj.get params "run_id") result).exec t).1 = .ok answer) ∨
    ∃ e t', (storeImported env (Obj.get params "run_id") result).exec t = (.error e, t') ∧
      ¬ ImportReturns env run ∧
      t'.contents = (t.proposals.records, t.transactions.records, t.jobs.records,
        if LatestWritable env "result" then
          t.runs.records.insert k (stampedRun env "result_id" (Obj.get result "result_id") run)
        else t.runs.records, some result) := by
  have hfield : "result_id" ≠ "run_id" := by decide
  rcases updateLatest_cases env "result" result t.results
    with ⟨hdirs, _⟩ | ⟨hdirs, hwritable, st, hlatest, hexec⟩ | ⟨hdirs, hwritable, e, st, hlatest, hexec⟩
  · rw [himports.dirs] at hdirs
    cases hdirs
  · have hstored : t.runs.records.get? k = some run := himports.stored
    have hupdate : (onResults (ResultStore.update env result)).exec t = (.ok (), { t with results := st }) := by
      rw [exec_onResults, ResultStore.update_eq, hexec]
    obtain ⟨out, writes, hlink, hok⟩ :=
      exec_update_run (v := Obj.get result "result_id") hfield hdirs himports.key hstored
    unfold storeImported
    dsimp only
    rw [Prog.exec_bind_ok hupdate]
    cases out with
    | error e =>
      right
      have hraised : (onRuns (RunStore.linkResult env (Obj.get params "run_id") (Obj.get result "result_id"))).exec
          { t with results := st } = (.error e, { t with results := st, runs := ⟨t.runs.records.insert k
            (stampedRun env "result_id" (Obj.get result "result_id") run), writes⟩ }) := by
        simp [RunStore.linkResult, hlink]
      refine ⟨e, _, Prog.exec_bind_error hraised, fun hreturns => ?_, ?_⟩
      · cases hok.mpr hreturns.named
      · simp [Tunnel.contents, hlatest, hwritable]
    | ok linked =>
      left
      have hnamed := hok.mp rfl
      refine ⟨hwritable, hnamed, ?_⟩
      have hlinked : (onRuns (RunStore.linkResult env (Obj.get params "run_id") (Obj.get result "result_id"))).exec
          { t with results := st } = (.ok linked, { t with results := st, runs := ⟨t.runs.records.insert k
            (stampedRun env "result_id" (Obj.get result "result_id") run), writes⟩ }) := by
        simp [RunStore.linkResult, hlink]
      rw [Prog.exec_bind_ok hlinked]
      have hfound : (t.runs.records.insert k (stampedRun env "result_id" (Obj.get result "result_id") run)).get? k =
          some (stampedRun env "result_id" (Obj.get result "result_id") run) := by simp
      have hstatus : "status" ≠ "run_id" := by decide
      have hmarked : ∃ out writes', (RunStore.update env (Obj.get params "run_id")
            fun r => .ok (Obj.set r "status" (.str "done"))).exec
          ⟨t.runs.records.insert k (stampedRun env "result_id" (Obj.get result "result_id") run), writes⟩ =
            (out, ⟨(t.runs.records.insert k _).insert k _, writes'⟩) ∧
          (out.isOk = true ↔ RunNamed (stampedRun env "result_id" (Obj.get result "result_id") run)) :=
        exec_update_run hstatus hdirs himports.key hfound
      obtain ⟨out, writes', hset, hok'⟩ := hmarked
      rw [runNamed_stampedRun hfield] at hok'
      cases out with
      | error e => cases hok'.mpr hnamed
      | ok run' =>
        have hvalid : (RunStore.validStatuses.any fun s => (Json.str "done").pyEq (.str s)) = true := by decide
        refine ⟨.obj [("run", .obj run'), ("result", .obj result)], ?_⟩
        simp [Prog.exec_bind, RunStore.setStatus, hvalid, hset]
  · right
    have hraised : (onResults (ResultStore.update env result)).exec t = (.error e, { t with results := st }) := by
      rw [exec_onResults, ResultStore.update_eq, hexec]
    refine ⟨e, { t with results := st }, Prog.exec_bind_error hraised, fun hreturns => hwritable hreturns.files, ?_⟩
    simp [Tunnel.contents, hlatest, hwritable]

/-- Storing an import leaves nothing behind an error exactly if what changes returns. -/
theorem raisesClean_storeImported {run result : Obj} (himports : ImportsResult env params t k run result) :
    Prog.RaisesClean Tunnel.contents (storeImported env (Obj.get params "run_id") result) t ↔
      (ImportChanges env params t (k, run, result) → ImportReturns env run) := by
  rcases storeImported_cases himports with ⟨hwritable, hnamed, answer, hanswer⟩ | ⟨e, t', hexec, hnot, hcontents⟩
  · have hreturns : ImportReturns env run := ⟨hwritable, hnamed⟩
    simp [Prog.RaisesClean, hanswer, hreturns]
  · have hstored : t.runs.records.get? k = some run := himports.stored
    have hsame : Prog.RaisesClean Tunnel.contents (storeImported env (Obj.get params "run_id") result) t ↔
        t'.contents = t.contents := by
      simp [Prog.RaisesClean, hexec]
    rw [hsame, hcontents]
    have hinsert : ∀ r, t.runs.records.insert k r = t.runs.records ↔ r = run := by
      intro r
      constructor
      · intro heq
        have hget : (t.runs.records.insert k r).get? k = some r := by simp
        rw [heq, hstored] at hget
        exact (Option.some.inj hget).symm
      · rintro rfl
        exact Dict.insert_of_get? hstored
    unfold ImportChanges Tunnel.contents
    by_cases hwritable : LatestWritable env "result"
    · simp only [if_pos hwritable, Prod.mk.injEq, true_and, hinsert]
      rw [eq_comm (a := some result)]
      simp [hwritable, himports, hnot, and_comm]
    · simp [hwritable, himports, hnot, eq_comm]

/-- Finding a run reads only. -/
theorem findRun_reads (params : Obj) : Prog.Reads (findRun params) := by
  unfold findRun requireId
  refine .bind (.ite (.pure _) (.throw _)) fun rid => .bind (getRecord_reads.zoom fun _ => rfl) fun run => ?_
  cases run with
  | some run => exact .pure _
  | none => exact .throw _

/-- A run that is found is the one under the id. -/
theorem findRun_ok {found : Json × Obj} {t' : Tunnel} (h : (findRun params).exec t = (.ok found, t')) :
    found.1 = Obj.get params "run_id" ∧ (Obj.get params "run_id").truthy = true ∧
      ∃ k, (Obj.get params "run_id").key? = some k ∧ t.runs.records.get? k = some found.2 := by
  unfold findRun requireId at h
  by_cases htruthy : (Obj.get params "run_id").truthy = true
  · rw [if_pos htruthy, Prog.exec_bind_ok (Prog.exec_pure _ _)] at h
    obtain ⟨run, t₁, hget, h⟩ := Prog.exec_bind_eq_ok h
    cases hkey : (Obj.get params "run_id").key? with
    | none => simp [getRecord, Prog.exec_bind, hashKey, hkey] at hget
    | some k =>
      simp only [exec_onRuns, getRecord, Prog.exec_bind, hashKey, hkey, Prog.exec_ofExcept, Prog.exec_get,
        Prog.exec_pure, Prod.mk.injEq, Except.ok.injEq] at hget
      cases run with
      | none => simp at h
      | some run =>
        simp only [Prog.exec_pure, Prod.mk.injEq, Except.ok.injEq] at h
        rw [← h.1]
        exact ⟨rfl, htruthy, k, rfl, hget.1⟩
  · rw [if_neg htruthy, Prog.exec_bind_error (Prog.exec_throw _ _)] at h
    cases h

/-- A run that is stored is found. -/
theorem exec_findRun {run : Obj} (htruthy : (Obj.get params "run_id").truthy = true)
    (hkey : (Obj.get params "run_id").key? = some k) (hrun : t.runs.records.get? k = some run) :
    (findRun params).exec t = (.ok (Obj.get params "run_id", run), t) := by
  unfold findRun requireId
  rw [if_pos htruthy, Prog.exec_bind_ok (Prog.exec_pure _ _)]
  simp [Prog.exec_bind, getRecord, hashKey, hkey, hrun]

/-- So does the request for an import. -/
theorem raisesClean_mRunImportResult : Prog.RaisesClean Tunnel.contents (mRunImportResult env params) t ↔
    ∀ i, ImportChanges env params t i → ImportReturns env i.2.1 := by
  unfold mRunImportResult
  rw [Prog.raisesClean_bind (fixes_of_reads (findRun_reads params) _)]
  constructor
  · rintro h ⟨k, run, result⟩ hchanges
    have himports := hchanges.1
    obtain ⟨metrics, hmetrics, hresult⟩ := himports.result
    have hfound := h _ t (exec_findRun himports.truthy himports.key himports.stored)
    simp only [hmetrics, Prog.raisesClean_ofExcept_bind] at hfound
    exact (raisesClean_storeImported himports).mp (hfound result hresult) hchanges
  · intro h found t' hfound
    obtain ⟨hid, htruthy, k, hkey, hrun⟩ := findRun_ok hfound
    obtain rfl : t' = t := by
      have hreads : ((findRun params).exec t).2 = t := findRun_reads params t
      rw [hfound] at hreads
      exact hreads
    cases hmetrics : Obj.get params "metrics" with
    | obj metrics =>
      simp only [Prog.raisesClean_ofExcept_bind]
      intro result hresult
      by_cases hdirs : env.dirsOk = true
      · have himports : ImportsResult env params t' k found.2 result :=
          ⟨htruthy, hkey, hrun, ⟨metrics, hmetrics, hresult⟩, hdirs⟩
        rw [hid]
        exact (raisesClean_storeImported himports).mpr (h (k, found.2, result))
      · rcases updateLatest_cases env "result" result t'.results with ⟨_, e, hexec⟩ | ⟨hdirs', _⟩ | ⟨hdirs', _⟩
        · have hraised : (onResults (ResultStore.update env result)).exec t' = (.error e, t') := by
            rw [exec_onResults, ResultStore.update_eq, hexec]
          apply Prog.raisesClean_of_same
          unfold storeImported
          dsimp only
          rw [Prog.exec_bind_error hraised]
        · exact absurd hdirs' hdirs
        · exact absurd hdirs' hdirs
    | _ => exact Prog.raisesClean_throw _

end Import

/-- The six requests. -/
inductive RecordMethod where
  | contextUpdate | proposalCreate | transactionCreate | jobCreate | runImportResult | resultUpdate

/-- The name a request is registered under. -/
def RecordMethod.name : RecordMethod → String
  | .contextUpdate => "design.context.update"
  | .proposalCreate => "proposal.create"
  | .transactionCreate => "transaction.create"
  | .jobCreate => "job.create"
  | .runImportResult => "run.import_result"
  | .resultUpdate => "result.update"

/-- The method that is registered; `home` is `vfp_home()`. -/
def RecordMethod.handler (env : Env) (home : String) (method : RecordMethod) (params : Obj) : Prog PyExc Daemon Json :=
  match method with
  | .contextUpdate => mContextUpdate env (home ++ "/contexts/latest_context.json") params
  | .proposalCreate => onTunnel (mProposalCreate env params)
  | .transactionCreate => onTunnel (mTransactionCreate env params)
  | .jobCreate => onTunnel (mJobCreate env params)
  | .runImportResult => onTunnel (mRunImportResult env params)
  | .resultUpdate => onTunnel (mResultUpdate env (home ++ "/results/latest_result.json") params)

/-- The daemon's dispatcher, as far as these requests go. -/
def recordDispatcher (env : Env) (home : String) (str : Json → String) (excText : PyExc → String) :
    Dispatcher Daemon where
  methods := [RecordMethod.contextUpdate, .proposalCreate, .transactionCreate, .resultUpdate, .runImportResult,
    .jobCreate].map fun method => (method.name, method.handler env home)
  str := str
  excText := excText

/-- After a request has changed something nothing raises. -/
def Safe (env : Env) (d : Daemon) (params : Obj) : RecordMethod → Prop
  | .contextUpdate => ∀ context, StoresContext env params d context → ContextReturns env context
  | .proposalCreate => ∀ e : Key × Obj, StoresProposal env params d.tunnel e.1 e.2 → ProposalReturns env e.2
  | .transactionCreate => ∀ e : Key × Obj, StoresTransaction env params d.tunnel e.1 e.2 →
    TransactionReturns env d.tunnel e.2
  | .jobCreate => ∀ e : Key × Obj, StoresJob env params d.tunnel e.1 e.2 → persistError env "job_id" e.2 = none
  | .runImportResult => ∀ i, ImportChanges env params d.tunnel i → ImportReturns env i.2.1
  | .resultUpdate => ∀ result, StoresResult env params d.tunnel result → LatestWritable env "result"

section Dispatched

variable {env : Env} {home : String} {str : Json → String} {excText : PyExc → String}
variable {m params : Obj} {method : RecordMethod} {d : Daemon}

/-- A request on the tunnel raises cleanly exactly if it does so there. -/
theorem raisesClean_onTunnel {α : Type} {m : Prog PyExc Tunnel α} :
    Prog.RaisesClean Daemon.contents (onTunnel m) d ↔ Prog.RaisesClean Tunnel.contents m d.tunnel := by
  apply Prog.raisesClean_zoom
  simp [Daemon.contents]

/-- Each handler raises cleanly exactly if its request is safe. -/
theorem raisesClean_handler :
    Prog.RaisesClean Daemon.contents (method.handler env home params) d ↔ Safe env d params method := by
  cases method with
  | contextUpdate => exact raisesClean_mContextUpdate _
  | proposalCreate => exact raisesClean_onTunnel.trans raisesClean_mProposalCreate
  | transactionCreate => exact raisesClean_onTunnel.trans raisesClean_mTransactionCreate
  | jobCreate => exact raisesClean_onTunnel.trans raisesClean_mJobCreate
  | runImportResult => exact raisesClean_onTunnel.trans raisesClean_mRunImportResult
  | resultUpdate => exact raisesClean_onTunnel.trans (raisesClean_mResultUpdate _)

/-- The dispatcher calls the handler of the method. -/
theorem calls_handler (hparams : paramsOf m = some params) (hmethod : Obj.get m "method" = .str method.name) :
    Calls (recordDispatcher env home str excText) m (method.handler env home) params := by
  refine ⟨hparams, method.name, hmethod, ?_⟩
  cases method <;> rfl

/-- An error answer to one of the six requests leaves the proposals, transactions, jobs and runs, the
latest context and the latest result as they were exactly if nothing raises in the handler once it
has changed one of them. -/
theorem error_leaves_iff (hrequest : isRequest m = true) (hmethod : Obj.get m "method" = .str method.name) :
    ErrorLeaves (recordDispatcher env home str excText) Daemon.contents m d ↔
      ∀ params, paramsOf m = some params → Safe env d params method := by
  cases hparams : paramsOf m with
  | none => simp [errorLeaves_of_params Daemon.contents hrequest hparams]
  | some params =>
    rw [errorLeaves_call Daemon.contents hrequest (calls_handler hparams hmethod), raisesClean_handler]
    simp

end Dispatched

/-- A request message. -/
def requestMessage (method : RecordMethod) (params : Obj) : Obj :=
  [("jsonrpc", .str "2.0"), ("id", .int 1), ("method", .str method.name), ("params", .obj params)]

/-- A daemon freshly started over an empty directory. -/
def Daemon.fresh : Daemon := ⟨Tunnel.fresh .empty, .empty⟩

/-- A proposal that is created without an error. -/
theorem error_leaves_iff_sample :
    ErrorLeaves (recordDispatcher .sample ".vfp" (fun _ => "") fun _ => "") Daemon.contents
      (requestMessage .proposalCreate [("proposal", .obj sampleProposal)]) Daemon.fresh := by
  have hiff : ErrorLeaves (recordDispatcher .sample ".vfp" (fun _ => "") fun _ => "") Daemon.contents
      (requestMessage .proposalCreate [("proposal", .obj sampleProposal)]) Daemon.fresh ↔
      ∀ params, paramsOf (requestMessage .proposalCreate [("proposal", .obj sampleProposal)]) = some params →
        Safe .sample Daemon.fresh params .proposalCreate := error_leaves_iff rfl rfl
  refine hiff.mpr fun params hparams => ?_
  obtain rfl : [("proposal", .obj sampleProposal)] = params := Option.some.inj hparams
  rintro ⟨k, p⟩ ⟨data, hdata, -, rfl, -⟩
  obtain rfl : sampleProposal = data := Json.obj.inj hdata
  exact ⟨by rfl, by rfl⟩

/-- A proposal whose reason is a number. -/
def sampleUnsliced : Obj := [("proposal_id", .str "p_1"), ("reason", .int 5)]

/-- A proposal whose reason cannot be cut is stored before the error. -/
theorem error_after_storing :
    ¬ ErrorLeaves (recordDispatcher .sample ".vfp" (fun _ => "") fun _ => "") Daemon.contents
      (requestMessage .proposalCreate [("proposal", .obj sampleUnsliced)]) Daemon.fresh := by
  have hcalls : Calls (recordDispatcher .sample ".vfp" (fun _ => "") fun _ => "")
      (requestMessage .proposalCreate [("proposal", .obj sampleUnsliced)])
      (RecordMethod.proposalCreate.handler .sample ".vfp") [("proposal", .obj sampleUnsliced)] :=
    calls_handler rfl rfl
  rw [errorLeaves_call Daemon.contents rfl hcalls, raisesClean_handler]
  intro hsafe
  have hstores : StoresProposal .sample [("proposal", .obj sampleUnsliced)] Daemon.fresh.tunnel (.str "p_1")
      (makeProposal .sample sampleUnsliced) := ⟨sampleUnsliced, rfl, rfl, rfl, rfl, rfl⟩
  have hlog := (hsafe (.str "p_1", makeProposal .sample sampleUnsliced) hstores).log
  cases hlog

end VirtuosoFlow.Tunnel
