import VirtuosoFlow.Tunnel.ErrorAnswers

/-!
# The files that a creating request writes

A request that stores a record writes one file for it, named after its id, if the id is a string that
a file name can hold and the disk takes the file. A request that stores none writes none.
-/

namespace VirtuosoFlow.Tunnel

open Base

/-- The files that a store wrote between two states. -/
def newWrites (before after : Store) : List (String × Json) := after.writes.drop before.writes.length

/-- The file of a record is written, under this id. -/
structure FileWritten (env : Env) (field : String) (r : Obj) (s : String) : Prop where
  named : persistError env field r = none
  id : r.lookup field = some (.str s)
  dirs : env.dirsOk = true
  writable : env.writable (s ++ ".json") = true

section Persist

variable {env : Env} {field : String} {r : Obj} {st : Store} {w : String × Json}

/-- Where nothing happened nothing was written. -/
@[simp] theorem newWrites_self (st : Store) : newWrites st st = [] := by simp [newWrites]

/-- A record whose file can be written is written. -/
theorem writes_persist_written {s : String} (h : FileWritten env field r s) :
    ((persist env field r).exec st).2.writes = st.writes ++ [(s ++ ".json", .obj r)] := by
  unfold persist
  rw [h.named, h.id]
  simp [h.dirs, h.writable]

/-- No other record is. -/
theorem writes_persist_none (h : ∀ s, ¬ FileWritten env field r s) :
    ((persist env field r).exec st).2.writes = st.writes := by
  unfold persist
  cases herr : persistError env field r with
  | some e => rfl
  | none =>
    cases hid : r.lookup field with
    | none => rfl
    | some v =>
      cases v with
      | str s =>
        have hnot : ¬ (env.dirsOk && env.writable (s ++ ".json")) = true := by
          intro hw
          simp only [Bool.and_eq_true] at hw
          exact h s ⟨herr, hid, hw.1, hw.2⟩
        simp [hnot]
      | _ => rfl

/-- `_persist` writes one file or none. -/
theorem mem_newWrites_persist {records : Dict Key Obj} :
    w ∈ newWrites st ((persist env field r).exec { st with records := records }).2 ↔
      ∃ s, FileWritten env field r s ∧ w = (s ++ ".json", .obj r) := by
  unfold newWrites
  by_cases h : ∃ s, FileWritten env field r s
  · obtain ⟨s, hs⟩ := h
    rw [writes_persist_written hs]
    simp only [List.drop_left, List.mem_singleton]
    constructor
    · intro hw
      exact ⟨s, hs, hw⟩
    · rintro ⟨s', hs', hw⟩
      obtain rfl : s = s' := by simpa using hs.id.symm.trans hs'.id
      exact hw
  · rw [writes_persist_none fun s hs => h ⟨s, hs⟩]
    simp only [List.drop_length, List.not_mem_nil, false_iff]
    rintro ⟨s, hs, -⟩
    exact h ⟨s, hs⟩

/-- A record is added and written, or nothing happens. -/
theorem insertNew_persist_snd (env : Env) (field duplicate : String) (r : Obj) (st : Store) :
    (∃ k, (Obj.get r field).key? = some k ∧ st.records.get? k = none ∧
      ((do insertNew field duplicate r; persist env field r; return r : Prog PyExc Store Obj).exec st).2 =
        ((persist env field r).exec { st with records := st.records.insert k r }).2) ∨
    ((∀ k, (Obj.get r field).key? = some k → st.records.get? k ≠ none) ∧
      ((do insertNew field duplicate r; persist env field r; return r : Prog PyExc Store Obj).exec st).2 = st) := by
  cases hkey : (Obj.get r field).key? with
  | none =>
    right
    have hraised : (insertNew field duplicate r).exec st = (.error .typeError, st) := by
      simp [insertNew, Prog.exec_bind, hashKey, hkey]
    exact ⟨by simp, by rw [Prog.exec_bind_error hraised]⟩
  | some k =>
    cases hrec : st.records.get? k with
    | none =>
      left
      have hnew : (insertNew field duplicate r).exec st = (.ok (), { st with records := st.records.insert k r }) := by
        simp [insertNew, Prog.exec_bind, hashKey, hkey, hrec]
      refine ⟨k, rfl, hrec, ?_⟩
      rw [Prog.exec_bind_ok hnew]
      exact (Prog.Keeps.of_rest (R := Prog.Fixes fun st => st) (fun _ => .pure _) _)
    | some r' =>
      right
      have hraised : (insertNew field duplicate r).exec st =
          (.error (.valueError (.text duplicate [Obj.get r field])), st) := by
        simp [insertNew, Prog.exec_bind, hashKey, hkey, hrec]
      refine ⟨?_, by rw [Prog.exec_bind_error hraised]⟩
      rintro k' hk'
      cases hk'
      simp [hrec]

end Persist

/-- A request either would store a record, and then adds and writes it, or leaves the store alone. -/
structure Writes (env : Env) (field : String) (Stores : Key → Obj → Prop) (st st' : Store) : Prop where
  stored : ∀ k r, Stores k r → st' = ((persist env field r).exec { st with records := st.records.insert k r }).2
  refused : (∀ k r, ¬ Stores k r) → st' = st

section Requests

variable {env : Env} {params : Obj} {t : Tunnel}

/-- Creating a proposal is inserting it and writing it. -/
theorem create_eq (env : Env) (data : Obj) : ProposalStore.create env data = (do
    insertNew "proposal_id" "duplicate proposal_id: %s" (makeProposal env data)
    persist env "proposal_id" (makeProposal env data)
    return makeProposal env data) := rfl

/-- An id that is true is not refused. -/
theorem add_eq (env : Env) {u : Obj} (hid : (Obj.get u "transaction_id").truthy = true) :
    TransactionStore.add env u = (do
      insertNew "transaction_id" "duplicate transaction_id: %s" u
      persist env "transaction_id" u
      return u) := by
  simp only [TransactionStore.add, hid, Bool.not_true, Bool.false_eq_true, if_false]

/-- Creating a proposal writes what is stored, if anything. -/
theorem writes_mProposalCreate : Writes env "proposal_id" (StoresProposal env params t) t.proposals
    ((mProposalCreate env params).exec t).2.proposals := by
  have hcreate : ∀ data, Obj.get params "proposal" = .obj data → env.validate "proposal" data = .ok () →
      ((mProposalCreate env params).exec t).2.proposals = ((ProposalStore.create env data).exec t.proposals).2 := by
    intro data hdata hvalid
    unfold mProposalCreate
    rw [hdata]
    dsimp only
    rw [hvalid, Prog.exec_bind_ok (Prog.exec_ofExcept _ _)]
    have hrest := Prog.Keeps.of_rest (m := (onProposals (ProposalStore.create env data)).mapError valueErrorAsRpc)
      (proposalCreated_fixes env) t
    simp only [Prog.Fixes, Prog.exec_mapError_snd, exec_onProposals] at hrest
    rw [hrest]
  constructor
  · rintro k p ⟨data, hdata, hvalid, rfl, hkey, hfree⟩
    rw [hcreate data hdata hvalid, create_eq]
    rcases insertNew_persist_snd env "proposal_id" "duplicate proposal_id: %s" (makeProposal env data) t.proposals
      with ⟨k', hkey', _, hexec⟩ | ⟨hnone, _⟩
    · rw [hkey] at hkey'
      cases hkey'
      exact hexec
    · exact absurd hfree (hnone k hkey)
  · intro hnone
    cases hdata : Obj.get params "proposal" with
    | obj data =>
      cases hvalid : env.validate "proposal" data with
      | ok u =>
        rw [hcreate data hdata hvalid, create_eq]
        rcases insertNew_persist_snd env "proposal_id" "duplicate proposal_id: %s" (makeProposal env data) t.proposals
          with ⟨k, hkey, hfree, _⟩ | ⟨_, hexec⟩
        · exact absurd ⟨data, hdata, hvalid, rfl, hkey, hfree⟩ (hnone k (makeProposal env data))
        · exact hexec
      | error e =>
        unfold mProposalCreate
        rw [hdata]
        dsimp only
        rw [hvalid, Prog.exec_bind_error (Prog.exec_ofExcept _ _)]
    | _ =>
      unfold mProposalCreate
      rw [hdata]
      rfl

/-- A transaction is added before anything else is done with it. -/
theorem writes_mTransactionCreate : Writes env "transaction_id" (StoresTransaction env params t) t.transactions
    ((mTransactionCreate env params).exec t).2.transactions := by
  have hadd : ∀ data data' u, Obj.get params "transaction" = .obj data →
      (bindActor params data).exec t = (.ok data', t) → u = makeTransaction env data' →
      ((checkPermissions env params u).exec t).1 = .ok () → env.validate "transaction" u = .ok () →
      ((mTransactionCreate env params).exec t).2.transactions =
        ((do insertNew "transaction_id" "duplicate transaction_id: %s" u; persist env "transaction_id" u; return u :
          Prog PyExc Store Obj).exec t.transactions).2 := by
    rintro data data' u hdata hbound rfl hpermitted hvalid
    have hid : (Obj.get (makeTransaction env data') "transaction_id").truthy = true := truthy_id_makeTransaction
    unfold mTransactionCreate
    rw [hdata]
    dsimp only
    rw [Prog.exec_bind_ok hbound, Prog.exec_bind_ok ((checkPermissions_reads _).exec_of_fst hpermitted), hvalid,
      Prog.exec_bind_ok (Prog.exec_ofExcept _ _)]
    have hlink : ∀ u : Obj, Prog.Keeps (Prog.Fixes Tunnel.transactions) (do
        onProposals (linkProposal env (Obj.get u "proposal_id") .approved .applied)
        transactionCreated env u) := by
      intro u
      have hcreated : Prog.Keeps (Prog.Fixes Tunnel.transactions) (transactionCreated env u) :=
        (transactionCreated_fixes env u).mono fun _ _ h => congrArg Prod.snd h
      exact .bind (fun _ => rfl) fun _ => hcreated
    have hrest := Prog.Keeps.of_rest
      (m := (onTransactions (TransactionStore.add env (makeTransaction env data'))).mapError valueErrorAsRpc) hlink t
    simp only [Prog.Fixes, Prog.exec_mapError_snd, exec_onTransactions] at hrest
    rw [hrest, add_eq env hid]
  constructor
  · rintro k u ⟨data, data', t', hdata, hbound, hu, hpermitted, hvalid, hkey, hfree⟩
    obtain rfl : t = t' := by
      have hreads : ((bindActor params data).exec t).2 = t := bindActor_reads data t
      rw [hbound] at hreads
      exact hreads.symm
    rw [hadd data data' u hdata hbound hu hpermitted hvalid]
    rcases insertNew_persist_snd env "transaction_id" "duplicate transaction_id: %s" u t.transactions
      with ⟨k', hkey', _, hexec⟩ | ⟨hnone, _⟩
    · rw [hkey] at hkey'
      cases hkey'
      exact hexec
    · exact absurd hfree (hnone k hkey)
  · intro hnone
    have hsame : ∀ {e t'} {m : Prog PyExc Tunnel Json}, m.exec t = (.error e, t') → t' = t →
        (m.exec t).2.transactions = t.transactions := by
      rintro e t' m hexec rfl
      rw [hexec]
    cases hdata : Obj.get params "transaction" with
    | obj data =>
      cases hactor : ((bindActor params data).exec t).1 with
      | error e =>
        rw [mTransactionCreate, hdata]
        exact hsame (Prog.exec_bind_error ((bindActor_reads data).exec_of_fst hactor)) rfl
      | ok data' =>
        have hbound := (bindActor_reads data).exec_of_fst hactor
        cases hpermitted : ((checkPermissions env params (makeTransaction env data')).exec t).1 with
        | error e =>
          rw [mTransactionCreate, hdata]
          dsimp only
          rw [Prog.exec_bind_ok hbound]
          exact hsame (Prog.exec_bind_error ((checkPermissions_reads _).exec_of_fst hpermitted)) rfl
        | ok _ =>
          cases hvalid : env.validate "transaction" (makeTransaction env data') with
          | error e =>
            rw [mTransactionCreate, hdata]
            dsimp only
            rw [Prog.exec_bind_ok hbound, Prog.exec_bind_ok ((checkPermissions_reads _).exec_of_fst hpermitted), hvalid]
            exact hsame (Prog.exec_bind_error (Prog.exec_ofExcept _ _)) rfl
          | ok _ =>
            rw [hadd data data' _ hdata hbound rfl hpermitted hvalid]
            rcases insertNew_persist_snd env "transaction_id" "duplicate transaction_id: %s" (makeTransaction env data')
              t.transactions with ⟨k, hkey, hfree, _⟩ | ⟨_, hexec⟩
            · exact absurd ⟨data, data', t, hdata, hbound, rfl, hpermitted, hvalid, hkey, hfree⟩ (hnone k _)
            · exact hexec
    | _ =>
      rw [mTransactionCreate, hdata]
      rfl

/-- The same for jobs. -/
theorem jobAdd_eq (env : Env) {j : Obj} (hid : (Obj.get j "job_id").truthy = true) :
    JobStore.add env j = (do
      insertNew "job_id" "duplicate job_id: %s" j
      persist env "job_id" j
      return j) := by
  simp only [JobStore.add, hid, Bool.not_true, Bool.false_eq_true, if_false]

/-- So does creating a job. -/
theorem writes_mJobCreate : Writes env "job_id" (StoresJob env params t) t.jobs
    ((mJobCreate env params).exec t).2.jobs := by
  have hadd : ∀ data data' t', Obj.get params "job" = .obj data →
      (bindJobSession env params data).exec t = (.ok data', t') →
      ((reuseJob params (makeJob env data')).exec t').1 = .ok none →
      env.validate "job" (makeJob env data') = .ok () →
      ((mJobCreate env params).exec t).2.jobs =
        ((do insertNew "job_id" "duplicate job_id: %s" (makeJob env data'); persist env "job_id" (makeJob env data')
             return makeJob env data' : Prog PyExc Store Obj).exec t.jobs).2 := by
    intro data data' t' hdata hbound hreuse hvalid
    have hid : (Obj.get (makeJob env data') "job_id").truthy = true := truthy_id_makeJob
    have hjobs : t'.jobs = t.jobs := by
      have hfixes := bindJobSession_fixes env params data t
      simpa [hbound, Prog.Fixes] using hfixes
    rw [mJobCreate, hdata]
    dsimp only
    rw [Prog.exec_bind_ok hbound, Prog.exec_bind_ok ((reuseJob_reads _ _).exec_of_fst hreuse)]
    dsimp only
    rw [hvalid, Prog.exec_bind_ok (Prog.exec_ofExcept _ _)]
    have hrest := Prog.Keeps.of_rest (m := (onJobs (JobStore.add env (makeJob env data'))).mapError valueErrorAsRpc)
      (jobCreated_fixes env) t'
    simp only [Prog.Fixes, Prog.exec_mapError_snd, exec_onJobs] at hrest
    rw [hrest, jobAdd_eq env hid, hjobs]
  constructor
  · rintro k j ⟨t', ⟨data, data', hdata, hbound, rfl⟩, hreuse, hvalid, hkey, hfree⟩
    rw [hadd data data' t' hdata hbound hreuse hvalid]
    rcases insertNew_persist_snd env "job_id" "duplicate job_id: %s" (makeJob env data') t.jobs
      with ⟨k', hkey', _, hexec⟩ | ⟨hnone, _⟩
    · rw [hkey] at hkey'
      cases hkey'
      exact hexec
    · exact absurd hfree (hnone k hkey)
  · intro hnone
    cases hdata : Obj.get params "job" with
    | obj data =>
      have hfixes := bindJobSession_fixes env params data t
      cases hbound : (bindJobSession env params data).exec t with
      | mk r t' =>
        have hjobs : t'.jobs = t.jobs := by simpa [hbound, Prog.Fixes] using hfixes
        cases r with
        | error e =>
          rw [mJobCreate, hdata]
          dsimp only
          rw [Prog.exec_bind_error hbound, hjobs]
        | ok data' =>
          have hguard : Prog.Reads (reuseJob params (makeJob env data')) := reuseJob_reads params _
          cases hreuse : ((reuseJob params (makeJob env data')).exec t').1 with
          | error e =>
            rw [mJobCreate, hdata]
            dsimp only
            rw [Prog.exec_bind_ok hbound, Prog.exec_bind_error (hguard.exec_of_fst hreuse), hjobs]
          | ok fresh =>
            cases fresh with
            | some fresh =>
              rw [mJobCreate, hdata]
              dsimp only
              rw [Prog.exec_bind_ok hbound, Prog.exec_bind_ok (hguard.exec_of_fst hreuse)]
              exact hjobs
            | none =>
              cases hvalid : env.validate "job" (makeJob env data') with
              | error e =>
                rw [mJobCreate, hdata]
                dsimp only
                rw [Prog.exec_bind_ok hbound, Prog.exec_bind_ok (hguard.exec_of_fst hreuse)]
                dsimp only
                rw [hvalid, Prog.exec_bind_error (Prog.exec_ofExcept _ _), hjobs]
              | ok u =>
                rw [hadd data data' t' hdata hbound hreuse hvalid]
                rcases insertNew_persist_snd env "job_id" "duplicate job_id: %s" (makeJob env data') t.jobs
                  with ⟨k, hkey, hfree, _⟩ | ⟨_, hexec⟩
                · exact absurd ⟨t', ⟨data, data', hdata, hbound, rfl⟩, hreuse, hvalid, hkey, hfree⟩ (hnone k _)
                · exact hexec
    | _ =>
      rw [mJobCreate, hdata]
      rfl

end Requests

end VirtuosoFlow.Tunnel
