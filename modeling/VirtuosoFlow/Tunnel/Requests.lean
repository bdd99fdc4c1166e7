import VirtuosoFlow.Tunnel.System

/-!
# What single requests do

The laws bound what a request may do to the records. This file says exactly what the
creating and the moving requests do, in terms of the state before them. The states it
ends with serve the examples.
-/

namespace VirtuosoFlow.Tunnel

open Base

/-- A `proposal.create` request with these parameters would store `p` under the key `k`. -/
def StoresProposal (env : Env) (params : Obj) (t : Tunnel) (k : Key) (p : Obj) : Prop :=
  ∃ data, Obj.get params "proposal" = .obj data ∧ env.validate "proposal" data = .ok () ∧
    p = makeProposal env data ∧ (Obj.get p "proposal_id").key? = some k ∧
    t.proposals.records.get? k = none

/-- The record `make_job` builds for a `job.create` request with these parameters. -/
def JobCandidate (env : Env) (params : Obj) (t t' : Tunnel) (j : Obj) : Prop :=
  ∃ data data', Obj.get params "job" = .obj data ∧
    (bindJobSession env params data).exec t = (.ok data', t') ∧ j = makeJob env data'

/-- A `job.create` request with these parameters would store `j` under the key `k`. -/
def StoresJob (env : Env) (params : Obj) (t : Tunnel) (k : Key) (j : Obj) : Prop :=
  ∃ t', JobCandidate env params t t' j ∧ ((reuseJob params j).exec t').1 = .ok none ∧
    env.validate "job" j = .ok () ∧ (Obj.get j "job_id").key? = some k ∧
    t.jobs.records.get? k = none

/-- A `transaction.create` request with these parameters would store `u` under `i`. -/
def StoresTransaction (env : Env) (params : Obj) (t : Tunnel) (i : Key) (u : Obj) : Prop :=
  ∃ data data' t', Obj.get params "transaction" = .obj data ∧
    (bindActor params data).exec t = (.ok data', t') ∧ u = makeTransaction env data' ∧
    ((checkPermissions env params u).exec t').1 = .ok () ∧
    env.validate "transaction" u = .ok () ∧ (Obj.get u "transaction_id").key? = some i ∧
    t.transactions.records.get? i = none

section Proposals

variable {env : Env} {params : Obj} {t : Tunnel}

/-- After a proposal is stored the records stay as they are. -/
theorem proposalCreated_fixes (env : Env) (p : Obj) :
    Prog.Keeps (Prog.Fixes Tunnel.proposals) (proposalCreated env p) :=
  .bind (.ofExcept _) fun _ => .bind (.ofExcept _) fun _ => .bind (fun _ => rfl) fun _ => .pure _

/-- What `proposal.create` can do to the records. -/
theorem mProposalCreate_records (env : Env) (params : Obj) (t : Tunnel) :
    ((mProposalCreate env params).exec t).2.proposals.records = t.proposals.records ∨
    ∃ k p, StoresProposal env params t k p ∧
      ((mProposalCreate env params).exec t).2.proposals.records =
        t.proposals.records.insert k p := by
  unfold mProposalCreate
  split
  · rename_i data hdata
    cases hvalid : env.validate "proposal" data with
    | error e =>
      rw [Prog.exec_bind_error (Prog.exec_ofExcept _ _)]
      exact .inl rfl
    | ok u =>
      rw [Prog.exec_bind_ok (Prog.exec_ofExcept _ _)]
      have hrest := Prog.Keeps.of_rest
        (m := (onProposals (ProposalStore.create env data)).mapError valueErrorAsRpc)
        (proposalCreated_fixes env) t
      simp only [Prog.Fixes, Prog.exec_mapError_snd, exec_onProposals] at hrest
      rw [hrest]
      rcases ProposalStore.create_records env data t.proposals
        with hsame | ⟨k, hkey, hfree, hnew⟩
      · exact .inl hsame
      · exact .inr ⟨k, _, ⟨data, hdata, hvalid, rfl, hkey, hfree⟩, hnew⟩
  · exact .inl rfl

/-- `create` returns the proposal it stores, which was not stored before. -/
theorem ProposalStore.create_ok {data p : Obj} {st st' : Store} (h : (create env data).exec st = (.ok p, st')) :
    p = makeProposal env data ∧
      ∃ k, (Obj.get (makeProposal env data) "proposal_id").key? = some k ∧ st.records.get? k = none := by
  unfold create at h
  dsimp only at h
  generalize makeProposal env data = created at h ⊢
  obtain ⟨_, _, hinsert, h⟩ := Prog.exec_bind_eq_ok h
  obtain ⟨_, _, _, h⟩ := Prog.exec_bind_eq_ok h
  exact ⟨(Except.ok.inj (congrArg Prod.fst h)).symm, insertNew_ok hinsert⟩

/-- An accepted `proposal.create` answers the record it stored. -/
theorem mProposalCreate_answers {answer : Json} {t' : Tunnel}
    (h : (mProposalCreate env params).exec t = (.ok answer, t')) :
    ∃ k p, StoresProposal env params t k p ∧ answer = .obj [("proposal", .obj p)] := by
  unfold mProposalCreate at h
  split at h
  · rename_i data hdata
    obtain ⟨_, t₁, hvalid, h⟩ := Prog.exec_bind_eq_ok h
    rw [Prog.exec_ofExcept, Prod.mk.injEq] at hvalid
    obtain ⟨hvalid, rfl⟩ := hvalid
    obtain ⟨p, t₂, hcreate, h⟩ := Prog.exec_bind_eq_ok h
    obtain ⟨_, _, _, h⟩ := Prog.exec_bind_eq_ok h
    obtain ⟨_, _, _, h⟩ := Prog.exec_bind_eq_ok h
    obtain ⟨_, _, _, h⟩ := Prog.exec_bind_eq_ok h
    simp only [Prog.exec_pure, Prod.mk.injEq, Except.ok.injEq] at h
    have hexec := Prog.exec_mapError_eq_ok.mp hcreate
    rw [exec_onProposals, Prod.mk.injEq] at hexec
    cases hcreated : (ProposalStore.create env data).exec t.proposals with
    | mk out st =>
      rw [hcreated] at hexec
      obtain rfl : out = .ok p := hexec.1
      obtain ⟨hp, k, hkey, hfree⟩ := ProposalStore.create_ok hcreated
      exact ⟨k, p, ⟨data, hdata, hvalid, hp, hp ▸ hkey, hfree⟩, h.1.symm⟩
  · simp at h

/-- What a handler that moves one proposal can do to the records. Once the record is
replaced, only writing its file can raise. -/
theorem setProposal_cases (env : Env) (new : ProposalStatus) (event : Option String)
    (params : Obj) (t : Tunnel) :
    ((setProposal env (ProposalStore.setStatus env new) event params).exec t).2.proposals.records =
      t.proposals.records ∨
    ∃ k p p', (Obj.get params "proposal_id").key? = some k ∧
      t.proposals.records.get? k = some p ∧ proposalTransition env new p = .ok p' ∧
      ((setProposal env (ProposalStore.setStatus env new) event params).exec t).2.proposals.records =
        t.proposals.records.insert k p' ∧
      (persistError env "proposal_id" p' = none → ∃ answer,
        ((setProposal env (ProposalStore.setStatus env new) event params).exec t).1 = .ok answer) := by
  unfold setProposal requireId
  by_cases hid : (Obj.get params "proposal_id").truthy = true
  · rw [if_pos hid, Prog.exec_bind_ok (Prog.exec_pure _ _)]
    rcases setStatus_cases env "proposal_id" "unknown proposal_id: %s"
      (proposalTransition env new) (Obj.get params "proposal_id") t.proposals
      with ⟨e, hexec⟩ | ⟨k, p, p', writes, hkey, hp, htr, hexec⟩
    · left
      have hop : ((onProposals (ProposalStore.setStatus env new
          (Obj.get params "proposal_id"))).mapError lookupErrorAsRpc).exec t =
          (.error (lookupErrorAsRpc e), t) := by
        simp [Prog.exec_mapError, ProposalStore.setStatus, hexec]
      rw [Prog.exec_bind_error hop]
    · right
      refine ⟨k, p, p', hkey, hp, htr, ?_⟩
      cases herr : persistError env "proposal_id" p' with
      | some e =>
        have hop : ((onProposals (ProposalStore.setStatus env new
            (Obj.get params "proposal_id"))).mapError lookupErrorAsRpc).exec t =
            (.error (lookupErrorAsRpc e),
              { t with proposals := ⟨t.proposals.records.insert k p', writes⟩ }) := by
          simp [Prog.exec_mapError, ProposalStore.setStatus, hexec, herr]
        rw [Prog.exec_bind_error hop]
        exact ⟨rfl, by simp⟩
      | none =>
        have hop : ((onProposals (ProposalStore.setStatus env new
            (Obj.get params "proposal_id"))).mapError lookupErrorAsRpc).exec t =
            (.ok p', { t with proposals := ⟨t.proposals.records.insert k p', writes⟩ }) := by
          simp [Prog.exec_mapError, ProposalStore.setStatus, hexec, herr]
        rw [Prog.exec_bind_ok hop]
        cases event with
        | none => exact ⟨rfl, fun _ => ⟨_, rfl⟩⟩
        | some etype => exact ⟨rfl, fun _ => ⟨_, rfl⟩⟩
  · left
    rw [if_neg hid, Prog.exec_bind_error (Prog.exec_throw _ _)]

end Proposals

section Transactions

variable {env : Env} {params data : Obj} {t : Tunnel}

/-- Binding a session to a transaction looks the session up. -/
theorem bindSession_reads (sid : Json) (data : Obj) : Prog.Reads (bindSession sid data) := by
  have hfingerprint : Prog.Reads (Registry.sessionFingerprint sid) := by
    intro st
    unfold Registry.sessionFingerprint
    split
    · rfl
    · exact Prog.Keeps.bind getRecord_reads (fun _ => .bind (.ofExcept _) fun _ => .pure _) st
  refine .bind (hfingerprint.zoom fun _ => rfl) fun fp => ?_
  cases fp <;> exact .pure _

/-- Binding a transaction to its session reads only. -/
theorem bindActor_reads (data : Obj) : Prog.Reads (bindActor params data) :=
  .bind (.ite (bindSession_reads (Obj.get params "session_id") data) (.pure _)) fun _ => .pure _

/-- So does checking permissions. -/
theorem checkPermissions_reads (u : Obj) : Prog.Reads (checkPermissions env params u) :=
  .bind .get fun _ => .bind (.ofExcept _) fun _ => .bind (.ofExcept _) fun _ =>
    .bind (.ofExcept _) fun _ => .ite (.pure _) (.throw _)

/-- After a transaction is stored and linked both stores stay as they are. -/
theorem transactionCreated_fixes (env : Env) (u : Obj) :
    Prog.Keeps (Prog.Fixes fun t : Tunnel => (t.proposals, t.transactions))
      (transactionCreated env u) :=
  .bind (.ofExcept _) fun _ => .bind (.ofExcept _) fun _ => .bind (fun _ => rfl) fun _ => .pure _

/-- What `transaction.create` can do to the two stores: nothing, or store a transaction,
and then link its proposal unless writing the transaction's file raises. -/
theorem mTransactionCreate_cases (env : Env) (params : Obj) (t : Tunnel) :
    (((mTransactionCreate env params).exec t).2.transactions.records = t.transactions.records ∧
      ((mTransactionCreate env params).exec t).2.proposals = t.proposals) ∨
    ∃ i u, StoresTransaction env params t i u ∧
      ((mTransactionCreate env params).exec t).2.transactions.records =
        t.transactions.records.insert i u ∧
      ((mTransactionCreate env params).exec t).2.proposals =
        if persistError env "transaction_id" u = none then
          ((linkProposal env (Obj.get u "proposal_id") .approved .applied).exec t.proposals).2
        else t.proposals := by
  unfold mTransactionCreate
  split
  · rename_i data hdata
    cases hactor : ((bindActor params data).exec t).1 with
    | error e =>
      rw [Prog.exec_bind_error ((bindActor_reads data).exec_of_fst hactor)]
      exact .inl ⟨rfl, rfl⟩
    | ok data' =>
      have hbound := (bindActor_reads data).exec_of_fst hactor
      rw [Prog.exec_bind_ok hbound]
      generalize hu : makeTransaction env data' = u
      cases hpermitted : ((checkPermissions env params u).exec t).1 with
      | error e =>
        rw [Prog.exec_bind_error ((checkPermissions_reads u).exec_of_fst hpermitted)]
        exact .inl ⟨rfl, rfl⟩
      | ok _ =>
        rw [Prog.exec_bind_ok ((checkPermissions_reads u).exec_of_fst hpermitted)]
        cases hvalid : env.validate "transaction" u with
        | error e =>
          rw [Prog.exec_bind_error (Prog.exec_ofExcept _ _)]
          exact .inl ⟨rfl, rfl⟩
        | ok _ =>
          rw [Prog.exec_bind_ok (Prog.exec_ofExcept _ _)]
          rcases TransactionStore.add_cases env u t.transactions
            with ⟨e, hexec⟩ | ⟨i, writes, hkey, hfree, hexec⟩
          · have hadd : ((onTransactions (TransactionStore.add env u)).mapError
                valueErrorAsRpc).exec t = (.error (valueErrorAsRpc e), t) := by
              simp [Prog.exec_mapError, hexec]
            rw [Prog.exec_bind_error hadd]
            exact .inl ⟨rfl, rfl⟩
          · right
            refine ⟨i, u, ⟨data, data', t, hdata, hbound, hu.symm, hpermitted, hvalid, hkey,
              hfree⟩, ?_⟩
            cases herr : persistError env "transaction_id" u with
            | some e =>
              have hadd : ((onTransactions (TransactionStore.add env u)).mapError
                  valueErrorAsRpc).exec t = (.error (valueErrorAsRpc e),
                    { t with transactions := ⟨t.transactions.records.insert i u, writes⟩ }) := by
                simp [Prog.exec_mapError, hexec, herr]
              rw [Prog.exec_bind_error hadd]
              exact ⟨rfl, by simp⟩
            | none =>
              have hadd : ((onTransactions (TransactionStore.add env u)).mapError
                  valueErrorAsRpc).exec t = (.ok u,
                    { t with transactions := ⟨t.transactions.records.insert i u, writes⟩ }) := by
                simp [Prog.exec_mapError, hexec, herr]
              rw [Prog.exec_bind_ok hadd]
              have hrest := Prog.Keeps.of_rest
                (m := onProposals (linkProposal env (Obj.get u "proposal_id") .approved .applied))
                (fun _ => transactionCreated_fixes env u)
                { t with transactions := ⟨t.transactions.records.insert i u, writes⟩ }
              simp only [Prog.Fixes, exec_onProposals, Prod.mk.injEq] at hrest
              exact ⟨by rw [hrest.2], by rw [hrest.1]; simp⟩
  · exact .inl ⟨rfl, rfl⟩

/-- After a rollback is recorded and linked both stores stay as they are. -/
theorem transactionRolledBack_fixes (env : Env) (id : Json) (u : Obj) :
    Prog.Keeps (Prog.Fixes fun t : Tunnel => (t.proposals, t.transactions))
      (transactionRolledBack env id u) :=
  .bind (fun _ => rfl) fun _ => .pure _

/-- What `transaction.mark_rolled_back` can do to the two stores: nothing, or mark an
applied transaction, and then link its proposal unless writing its file raises. -/
theorem mTransactionMarkRolledBack_cases (env : Env) (params : Obj) (t : Tunnel) :
    (((mTransactionMarkRolledBack env params).exec t).2.transactions.records =
        t.transactions.records ∧
      ((mTransactionMarkRolledBack env params).exec t).2.proposals = t.proposals) ∨
    ∃ i u u', (Obj.get params "transaction_id").key? = some i ∧ t.transactions.records.get? i = some u ∧
      transactionTransition .rolledBack u = .ok u' ∧
      ((mTransactionMarkRolledBack env params).exec t).2.transactions.records =
        t.transactions.records.insert i u' ∧
      (((mTransactionMarkRolledBack env params).exec t).2.proposals = t.proposals ∨
        persistError env "transaction_id" u' = none ∧
        ((mTransactionMarkRolledBack env params).exec t).2.proposals =
          ((linkProposal env (Obj.get u' "proposal_id") .applied .rolledBack).exec
            t.proposals).2) := by
  unfold mTransactionMarkRolledBack requireId
  by_cases hid : (Obj.get params "transaction_id").truthy = true
  · rw [if_pos hid, Prog.exec_bind_ok (Prog.exec_pure _ _)]
    rcases setStatus_cases env "transaction_id" "unknown transaction_id: %s"
      (transactionTransition .rolledBack) (Obj.get params "transaction_id") t.transactions
      with ⟨e, hexec⟩ | ⟨i, u, u', writes, hkey, hu, htr, hexec⟩
    · have hop : ((onTransactions (TransactionStore.markRolledBack env
          (Obj.get params "transaction_id"))).mapError lookupErrorAsRpc).exec t =
          (.error (lookupErrorAsRpc e), t) := by
        simp [Prog.exec_mapError, TransactionStore.markRolledBack, TransactionStore.setStatus, hexec]
      rw [Prog.exec_bind_error hop]
      exact .inl ⟨rfl, rfl⟩
    · right
      refine ⟨i, u, u', hkey, hu, htr, ?_⟩
      cases herr : persistError env "transaction_id" u' with
      | some e =>
        have hop : ((onTransactions (TransactionStore.markRolledBack env
            (Obj.get params "transaction_id"))).mapError lookupErrorAsRpc).exec t =
            (.error (lookupErrorAsRpc e),
              { t with transactions := ⟨t.transactions.records.insert i u', writes⟩ }) := by
          simp [Prog.exec_mapError, TransactionStore.markRolledBack, TransactionStore.setStatus,
            hexec, herr]
        rw [Prog.exec_bind_error hop]
        exact ⟨rfl, .inl rfl⟩
      | none =>
        have hop : ((onTransactions (TransactionStore.markRolledBack env
            (Obj.get params "transaction_id"))).mapError lookupErrorAsRpc).exec t =
            (.ok u', { t with transactions := ⟨t.transactions.records.insert i u', writes⟩ }) := by
          simp [Prog.exec_mapError, TransactionStore.markRolledBack, TransactionStore.setStatus,
            hexec, herr]
        rw [Prog.exec_bind_ok hop]
        have hrest := Prog.Keeps.of_rest
          (m := onProposals (linkProposal env (Obj.get u' "proposal_id") .applied .rolledBack))
          (fun _ => transactionRolledBack_fixes env (Obj.get params "transaction_id") u')
          { t with transactions := ⟨t.transactions.records.insert i u', writes⟩ }
        simp only [Prog.Fixes, exec_onProposals, Prod.mk.injEq] at hrest
        exact ⟨by rw [hrest.2], .inr ⟨rfl, by rw [hrest.1]⟩⟩
  · rw [if_neg hid, Prog.exec_bind_error (Prog.exec_throw _ _)]
    exact .inl ⟨rfl, rfl⟩

end Transactions

section Jobs

variable {env : Env} {params data : Obj} {t : Tunnel}

/-- Binding a session leaves the jobs alone. -/
theorem bindJobSession_fixes (env : Env) (params data : Obj) :
    Prog.Keeps (Prog.Fixes Tunnel.jobs) (bindJobSession env params data) := by
  refine .ite (.bind (fun _ => rfl) fun _ => .bind (fun _ => rfl) fun fp => ?_) (.pure _)
  cases fp <;> exact .pure _

/-- Binding a session touches two members. -/
theorem lookup_of_bindJobSession {f : String} {data' : Obj} {t' : Tunnel} (hf : f ≠ "session")
    (hf' : f ≠ "session_fingerprint") (h : (bindJobSession env params data).exec t = (.ok data', t')) :
    data'.lookup f = data.lookup f := by
  unfold bindJobSession at h
  dsimp only at h
  split at h
  · obtain ⟨_, t₁, _, h⟩ := Prog.exec_bind_eq_ok h
    obtain ⟨fp, t₂, _, h⟩ := Prog.exec_bind_eq_ok h
    cases fp with
    | none =>
      obtain rfl : _ = data' := by simpa using congrArg Prod.fst h
      exact Obj.lookup_set_ne data hf _
    | some fp =>
      obtain rfl : _ = data' := by simpa using congrArg Prod.fst h
      rw [Obj.lookup_set_ne _ hf', Obj.lookup_set_ne data hf]
  · obtain rfl : data = data' := by simpa using congrArg Prod.fst h
    rfl

/-- The status of a new job is the one its payload names, `queued` by default. -/
theorem statusOf_candidate {t' : Tunnel} {j : Obj} (h : JobCandidate env params t t' j)
    (hdata : Obj.get params "job" = .obj data) :
    jobLifecycle.statusOf j = jobLifecycle.statusOf data := by
  obtain ⟨data₀, data', hdata₀, hbound, rfl⟩ := h
  obtain rfl : data₀ = data := by simpa [hdata] using hdata₀.symm
  rw [statusOf_makeJob, Lifecycle.statusOf, Obj.getD, lookup_of_bindJobSession (by decide) (by decide) hbound]
  rfl

/-- A new job keeps the fingerprint that its payload names. -/
theorem get_fingerprint_makeJob (h : (Obj.get data "inputs_fingerprint").truthy = true) :
    Obj.get (makeJob env data) "inputs_fingerprint" = Obj.get data "inputs_fingerprint" := by
  have hid : ∀ v, Obj.get (Obj.set data "job_id" v) "inputs_fingerprint" = Obj.get data "inputs_fingerprint" :=
    fun v => Obj.get_set_ne data (by decide) v
  unfold makeJob
  dsimp only
  split <;> simp [hid, h]

/-- A candidate has the fingerprint of its payload, if there is one. -/
theorem get_fingerprint_of_candidate {t' : Tunnel} (h : JobCandidate env params t t' j)
    (hdata : Obj.get params "job" = .obj data) (htruthy : (Obj.get data "inputs_fingerprint").truthy = true) :
    Obj.get j "inputs_fingerprint" = Obj.get data "inputs_fingerprint" := by
  obtain ⟨data₀, data', hdata₀, hbound, rfl⟩ := h
  obtain rfl : data₀ = data := by simpa [hdata] using hdata₀.symm
  have hsame : Obj.get data' "inputs_fingerprint" = Obj.get data₀ "inputs_fingerprint" := by
    rw [Obj.get, Obj.getD, lookup_of_bindJobSession (by decide) (by decide) hbound]
    rfl
  rw [get_fingerprint_makeJob (by rw [hsame, htruthy]), hsame]

/-- A new job keeps the cellview that its payload names. -/
theorem get_cellview_of_candidate {t' : Tunnel} (h : JobCandidate env params t t' j)
    (hdata : Obj.get params "job" = .obj data) : Obj.get j "cellview" = Obj.get data "cellview" := by
  obtain ⟨data₀, data', hdata₀, hbound, rfl⟩ := h
  obtain rfl : data₀ = data := by simpa [hdata] using hdata₀.symm
  have hsame : Obj.get data' "cellview" = Obj.get data₀ "cellview" := by
    rw [Obj.get, Obj.getD, lookup_of_bindJobSession (by decide) (by decide) hbound]
    rfl
  rw [← hsame]
  unfold makeJob
  dsimp only
  split <;> split <;> simp

/-- A new job says which status it is in. -/
theorem get_status_of_candidate {t' : Tunnel} (h : JobCandidate env params t t' j)
    (hdata : Obj.get params "job" = .obj data) (hnone : data.lookup "status" = none) :
    Obj.get j "status" = .str "queued" := by
  obtain ⟨data₀, data', hdata₀, hbound, rfl⟩ := h
  obtain rfl : data₀ = data := by simpa [hdata] using hdata₀.symm
  have hsame : data'.lookup "status" = none := by
    rw [lookup_of_bindJobSession (by decide) (by decide) hbound, hnone]
  unfold makeJob
  dsimp only
  split <;> split <;> simp [Obj.get, Obj.getD, hsame]

/-- Asking the guard leaves the jobs alone. -/
theorem reuseJob_fixes (params candidate : Obj) :
    Prog.Keeps (Prog.Fixes Tunnel.jobs) (reuseJob params candidate) := by
  exact .ite (.zoom (JobStore.freshDone_reads _) fun _ _ h => h) (.pure _)

/-- After a job is stored the jobs stay as they are. -/
theorem jobCreated_fixes (env : Env) (job : Obj) : Prog.Keeps (Prog.Fixes Tunnel.jobs) (jobCreated env job) :=
  .bind (.ofExcept _) fun _ => .bind (fun _ => rfl) fun _ => .pure _

/-- What `job.create` can do to the records. -/
theorem mJobCreate_records (env : Env) (params : Obj) (t : Tunnel) :
    ((mJobCreate env params).exec t).2.jobs.records = t.jobs.records ∨
    ∃ k j, StoresJob env params t k j ∧
      ((mJobCreate env params).exec t).2.jobs.records = t.jobs.records.insert k j := by
  unfold mJobCreate
  split
  · rename_i data hdata
    have hbind := bindJobSession_fixes env params data t
    cases hbound : (bindJobSession env params data).exec t with
    | mk r t₁ =>
      have hjobs : t₁.jobs = t.jobs := by simpa [hbound, Prog.Fixes] using hbind
      cases r with
      | error e =>
        left
        rw [Prog.exec_bind_error hbound, hjobs]
      | ok data' =>
        rw [Prog.exec_bind_ok hbound]
        generalize hcandidate : makeJob env data' = j
        have hreads := reuseJob_fixes params j t₁
        cases hreuse : (reuseJob params j).exec t₁ with
        | mk r t₂ =>
          have hjobs' : t₂.jobs = t.jobs := by
            rw [hreuse] at hreads
            exact hreads.trans hjobs
          cases r with
          | error e =>
            left
            rw [Prog.exec_bind_error hreuse, hjobs']
          | ok fresh =>
            rw [Prog.exec_bind_ok hreuse]
            cases fresh with
            | some fresh => exact .inl (by rw [Prog.exec_pure, hjobs'])
            | none =>
              cases hvalid : env.validate "job" j with
              | error e =>
                left
                rw [Prog.exec_bind_error (Prog.exec_ofExcept _ _), hjobs']
              | ok u =>
                rw [Prog.exec_bind_ok (Prog.exec_ofExcept _ _)]
                have hrest := Prog.Keeps.of_rest
                  (m := (onJobs (JobStore.add env j)).mapError valueErrorAsRpc)
                  (jobCreated_fixes env) t₂
                simp only [Prog.Fixes, Prog.exec_mapError_snd, exec_onJobs, hjobs'] at hrest
                rw [hrest]
                rcases JobStore.add_records env j t.jobs
                  with hsame | ⟨k, hkey, hfree, hnew⟩
                · exact .inl hsame
                · refine .inr ⟨k, j, ⟨t₁, ⟨data, data', hdata, hbound, hcandidate.symm⟩, ?_,
                    hvalid, hkey, hfree⟩, hnew⟩
                  rw [hreuse]
  · exact .inl rfl

/-- `add` returns the job it stores, which was not stored before. -/
theorem JobStore.add_ok {st st' : Store} {r : Obj} (h : (add env j).exec st = (.ok r, st')) :
    r = j ∧ ∃ k, (Obj.get j "job_id").key? = some k ∧ st.records.get? k = none := by
  unfold add at h
  split at h
  · simp [Prog.exec_bind] at h
  · obtain ⟨_, _, hinsert, h⟩ := Prog.exec_bind_eq_ok h
    obtain ⟨_, _, _, h⟩ := Prog.exec_bind_eq_ok h
    exact ⟨(Except.ok.inj (congrArg Prod.fst h)).symm, insertNew_ok hinsert⟩

/-- `job.create` answers with a stored job that is done and has the candidate's fingerprint, or with the
candidate. -/
theorem mJobCreate_answers {answer : Json} {t' : Tunnel} (h : (mJobCreate env params).exec t = (.ok answer, t')) :
    ∃ t₁ c, JobCandidate env params t t₁ c ∧
      ((∃ j, answer = .obj [("job", .obj j), ("reused", .bool true)] ∧
          ((reuseJob params c).exec t₁).1 = .ok (some j) ∧ t'.jobs = t.jobs ∧
          (∃ k, t.jobs.records.get? k = some j) ∧ Obj.get j "status" = .str "done" ∧
          (Obj.get j "inputs_fingerprint").pyEq (Obj.get c "inputs_fingerprint") = true) ∨
        answer = .obj [("job", .obj c), ("reused", .bool false)] ∧ ∃ k, StoresJob env params t k c) := by
  unfold mJobCreate at h
  split at h
  · rename_i data hdata
    obtain ⟨data', t₁, hbound, h⟩ := Prog.exec_bind_eq_ok h
    have hjobs : t₁.jobs = t.jobs := by
      have hbind := bindJobSession_fixes env params data t
      simpa [hbound, Prog.Fixes] using hbind
    refine ⟨t₁, makeJob env data', ⟨data, data', hdata, hbound, rfl⟩, ?_⟩
    obtain ⟨fresh, t₂, hreuse, h⟩ := Prog.exec_bind_eq_ok h
    have hsame : t₂.jobs = t.jobs := by
      have hreads := reuseJob_fixes params (makeJob env data') t₁
      rw [hreuse] at hreads
      exact hreads.trans hjobs
    cases fresh with
    | none =>
      right
      obtain ⟨_, t₃, hvalid, h⟩ := Prog.exec_bind_eq_ok h
      rw [Prog.exec_ofExcept, Prod.mk.injEq] at hvalid
      obtain ⟨hvalid, rfl⟩ := hvalid
      obtain ⟨job, t₃, hadd, h⟩ := Prog.exec_bind_eq_ok h
      obtain ⟨_, _, _, h⟩ := Prog.exec_bind_eq_ok h
      obtain ⟨_, _, _, h⟩ := Prog.exec_bind_eq_ok h
      simp only [Prog.exec_pure, Prod.mk.injEq, Except.ok.injEq] at h
      have hexec := Prog.exec_mapError_eq_ok.mp hadd
      rw [exec_onJobs, Prod.mk.injEq] at hexec
      obtain ⟨rfl, k, hkey, hfree⟩ := JobStore.add_ok (Prod.ext hexec.1 rfl)
      rw [hsame] at hfree
      exact ⟨h.1.symm, k, t₁, ⟨data, data', hdata, hbound, rfl⟩, by rw [hreuse], hvalid, hkey, hfree⟩
    | some fresh =>
      left
      simp only [Prog.exec_pure, Prod.mk.injEq, Except.ok.injEq] at h
      refine ⟨fresh, h.1.symm, by rw [hreuse], by rw [← h.2, hsame], ?_⟩
      unfold reuseJob at hreuse
      split at hreuse
      · simp only [exec_onJobs, Prod.mk.injEq] at hreuse
        have hfound : (JobStore.freshDone (Obj.get (makeJob env data') "inputs_fingerprint")).exec t₁.jobs =
            (.ok (some fresh), _) := Prod.ext hreuse.1 rfl
        obtain ⟨hstored, hstatus, hfingerprint⟩ := JobStore.freshDone_spec hfound
        rw [hjobs] at hstored
        exact ⟨hstored, hstatus, hfingerprint⟩
      · simp at hreuse
  · simp at h

/-- What a `job.create` that answers `reused` hands out. -/
theorem mJobCreate_reused {members : Obj} {t' : Tunnel} {j : Obj}
    (h : (mJobCreate env params).exec t = (.ok (.obj members), t'))
    (hreused : Obj.get members "reused" = .bool true) (hjob : Obj.get members "job" = .obj j) :
    (∃ t₁ c, JobCandidate env params t t₁ c ∧
      (Obj.get j "inputs_fingerprint").pyEq (Obj.get c "inputs_fingerprint") = true) ∧
    (∃ k, t.jobs.records.get? k = some j) ∧ Obj.get j "status" = .str "done" := by
  obtain ⟨t₁, c, hcandidate, ⟨j', hanswer, -, -, hstored, hstatus, hfingerprint⟩ | ⟨hanswer, -⟩⟩ :=
    mJobCreate_answers h
  · obtain rfl := Json.obj.inj hanswer
    obtain rfl : j' = j := Json.obj.inj hjob
    exact ⟨⟨t₁, c, hcandidate, hfingerprint⟩, hstored, hstatus⟩
  · -- a new job is answered with `reused = false`
    obtain rfl := Json.obj.inj hanswer
    cases hreused

end Jobs

/-- The payload of a proposal `p_1`. -/
def sampleProposal : Obj := [("proposal_id", .str "p_1")]

/-- The daemon after it stored `p_1`. -/
def sampleCreated : System :=
  (daemon.step (sampleRequest .proposalCreate [("proposal", .obj sampleProposal)]) sampleStart).2

/-- The daemon after it approved `p_1`. -/
def sampleApproved : System :=
  (daemon.step (sampleRequest .proposalApprove sampleProposal) sampleCreated).2

/-- The proposal of the sample is stored. -/
theorem sampleCreated_record : sampleCreated.tunnel.proposals.records.get? (.str "p_1") =
    some (makeProposal .sample sampleProposal) := by rfl

/-- After that it is approved. -/
theorem sampleApproved_record : sampleApproved.tunnel.proposals.records.get? (.str "p_1") =
    some (Obj.set (makeProposal .sample sampleProposal) "status" (.str "approved")) := by rfl

end VirtuosoFlow.Tunnel
