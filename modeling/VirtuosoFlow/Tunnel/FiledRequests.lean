import VirtuosoFlow.Tunnel.RecordFiles
import VirtuosoFlow.Tunnel.ErrorAnswers

/-!
# What requests do to the files

Each request, answered or refused, takes the three stores and their directories from one state where records and
files go together to another, as long as a record that it would store has a file of its own and nothing raises
after that, and no sweep stops halfway.
-/

namespace VirtuosoFlow.Tunnel

open Base Base.Posix JsonText

/-- The files of the three stores go with their records, and the sessions stay. -/
def KeepsFiled (fmt : FloatFormat) (home : Place) (takes : String → Bool) (t t' : Tunnel) : Prop :=
  (∀ family : Family, StaysFiled fmt takes family.field (family.dir home) (family.store t) (family.store t')) ∧
    t'.registry = t.registry

section Handlers

variable {fmt : FloatFormat} {home : Place} {takes : String → Bool} {env : Env} {params : Obj} {α β : Type}
  {t : Tunnel} {st : Store}

instance : Std.Refl (KeepsFiled fmt home takes) := ⟨fun _ => ⟨fun _ => Std.Refl.refl _, rfl⟩⟩

instance : IsTrans Tunnel (KeepsFiled fmt home takes) := by
  constructor
  rintro t₁ t₂ t₃ ⟨h, hregistry⟩ ⟨h', hregistry'⟩
  exact ⟨fun family => IsTrans.trans _ _ _ (h family) (h' family), hregistry'.trans hregistry⟩

/-- The rule of sequences in one state: the second part starts where the first one ended. -/
theorem keeps_bind_at {σ ε : Type} {R : σ → σ → Prop} [IsTrans σ R] {m : Prog ε σ α} {f : α → Prog ε σ β} {s : σ}
    (hm : R s (m.exec s).2) (hf : ∀ a s', m.exec s = (.ok a, s') → R s' ((f a).exec s').2) :
    R s ((m >>= f).exec s).2 := by
  rw [Prog.exec_bind]
  cases hexec : m.exec s with
  | mk r s' =>
    rw [hexec] at hm
    cases r with
    | ok a => exact IsTrans.trans _ _ _ hm (hf a s' hexec)
    | error e => exact hm

/-- What keeps the proposals filed keeps all filed. -/
theorem onProposals_filed {m : Prog PyExc Store α}
    (hm : StaysFiled fmt takes "proposal_id" (Family.proposals.dir home) t.proposals (m.exec t.proposals).2) :
    KeepsFiled fmt home takes t ((onProposals m).exec t).2 := by
  refine ⟨fun family => ?_, rfl⟩
  cases family with
  | proposals => exact hm
  | transactions => exact Std.Refl.refl (r := StaysFiled fmt takes _ _) t.transactions
  | jobs => exact Std.Refl.refl (r := StaysFiled fmt takes _ _) t.jobs

/-- So does what keeps the transactions filed. -/
theorem onTransactions_filed {m : Prog PyExc Store α}
    (hm : Prog.Keeps (StaysFiled fmt takes "transaction_id" (Family.transactions.dir home)) m) :
    Prog.Keeps (KeepsFiled fmt home takes) (onTransactions m) := by
  intro t
  refine ⟨fun family => ?_, rfl⟩
  cases family with
  | proposals => exact Std.Refl.refl (r := StaysFiled fmt takes _ _) t.proposals
  | transactions => exact hm t.transactions
  | jobs => exact Std.Refl.refl (r := StaysFiled fmt takes _ _) t.jobs

/-- So does what keeps the jobs filed. -/
theorem onJobs_filed {m : Prog PyExc Store α}
    (hm : Prog.Keeps (StaysFiled fmt takes "job_id" (Family.jobs.dir home)) m) :
    Prog.Keeps (KeepsFiled fmt home takes) (onJobs m) := by
  intro t
  refine ⟨fun family => ?_, rfl⟩
  cases family with
  | proposals => exact Std.Refl.refl (r := StaysFiled fmt takes _ _) t.proposals
  | transactions => exact Std.Refl.refl (r := StaysFiled fmt takes _ _) t.transactions
  | jobs => exact hm t.jobs

/-- Emitting an event keeps all filed. -/
theorem emit_filed (etype : String) (payload : Obj) :
    Prog.Keeps (KeepsFiled fmt home takes) (emit env etype payload) :=
  fun _ => ⟨fun family => by cases family <;> exact Std.Refl.refl _, rfl⟩

/-- So does asking for an id. -/
theorem requireId_filed (field : String) : Prog.Keeps (KeepsFiled fmt home takes) (requireId field params) :=
  .ite (.pure _) (.throw _)

/-- The sweep, and what reads after it. -/
theorem get_filed (htakes : TakesFiles takes env) (hsweep : SweepFiles env st) (id : Json) :
    StaysFiled fmt takes "proposal_id" (Family.proposals.dir home) st ((ProposalStore.get env id).exec st).2 :=
  keeps_bind_at (expireStale_staysFiled htakes hsweep) fun _ _ _ => getRecord_reads.keeps _

/-- Listing keeps the proposals filed. -/
theorem list_filed (htakes : TakesFiles takes env) (hsweep : SweepFiles env st) (status : Json) :
    StaysFiled fmt takes "proposal_id" (Family.proposals.dir home) st ((ProposalStore.list env status).exec st).2 :=
  keeps_bind_at (expireStale_staysFiled htakes hsweep) fun _ _ _ => listRecords_reads.keeps _

/-- Moving a proposal keeps its id and leaves a value. -/
theorem setProposal_staysFiled (htakes : TakesFiles takes env) (new : ProposalStatus) (id : Json) :
    Prog.Keeps (StaysFiled fmt takes "proposal_id" (Family.proposals.dir home))
      (ProposalStore.setStatus env new id) := by
  refine setStatus_staysFiled id htakes (fun r r' htr => ?_) fun r r' htr hr => wellFormed_proposalTransition hr htr
  obtain ⟨_, rfl⟩ := Lifecycle.transition_eq_ok.mp htr
  simp

/-- So does moving a transaction. -/
theorem setTransaction_staysFiled (htakes : TakesFiles takes env) (new : TransactionStatus) (id : Json) :
    Prog.Keeps (StaysFiled fmt takes "transaction_id" (Family.transactions.dir home))
      (TransactionStore.setStatus env new id) := by
  refine setStatus_staysFiled id htakes (fun r r' htr => ?_)
    fun r r' htr hr => wellFormed_transactionTransition hr htr
  obtain ⟨_, rfl⟩ := Lifecycle.transition_eq_ok.mp htr
  simp

/-- And a job, with fields that are values. -/
theorem setJob_staysFiled (htakes : TakesFiles takes env) (mark : JobMark)
    (hfields : ∀ e ∈ mark.fields, WellFormed fmt e.2) (id : Json) :
    Prog.Keeps (StaysFiled fmt takes "job_id" (Family.jobs.dir home))
      (JobStore.set env mark.status mark.fields id) :=
  setStatus_staysFiled id htakes (fun _ _ htr => lookup_jobTransition htr)
    fun _ _ htr hr => wellFormed_jobTransition hr hfields htr

/-- Linking a proposal keeps them filed. -/
theorem linkProposal_filed {pid : Json} {expected new : ProposalStatus} (htakes : TakesFiles takes env)
    (hsweep : pid.truthy = true → SweepFiles env st) :
    StaysFiled fmt takes "proposal_id" (Family.proposals.dir home) st
      ((linkProposal env pid expected new).exec st).2 := by
  unfold linkProposal
  split
  · rename_i htruthy
    refine keeps_bind_at (get_filed htakes (hsweep htruthy) pid) fun p st' _ => ?_
    cases p with
    | none => exact Std.Refl.refl _
    | some p =>
      dsimp only
      split
      · exact setProposal_staysFiled htakes new pid st'
      · exact Std.Refl.refl _
  · exact Std.Refl.refl _

/-- So does setting a status. -/
theorem setProposal_filed (htakes : TakesFiles takes env) (new : ProposalStatus) (event : Option String) :
    Prog.Keeps (KeepsFiled fmt home takes) (setProposal env (ProposalStore.setStatus env new) event params) := by
  refine .bind (requireId_filed _) fun id => ?_
  refine .bind (.mapError fun t => onProposals_filed (setProposal_staysFiled htakes new id t.proposals)) fun p => ?_
  refine .bind ?_ fun _ => .pure _
  cases event with
  | none => exact .pure _
  | some etype => exact emit_filed _ _

/-- Finding a transaction keeps all filed. -/
theorem findTransaction_filed : Prog.Keeps (KeepsFiled fmt home takes) (findTransaction params) := by
  refine .bind (requireId_filed _) fun id => ?_
  refine .bind (onTransactions_filed getRecord_reads.keeps) fun t => ?_
  cases t with
  | none => exact .throw _
  | some t => exact .pure _

/-- So does finding a job. -/
theorem findJob_filed : Prog.Keeps (KeepsFiled fmt home takes) (findJob params) := by
  refine .bind (requireId_filed _) fun id => ?_
  refine .bind (onJobs_filed getRecord_reads.keeps) fun t => ?_
  cases t with
  | none => exact .throw _
  | some t => exact .pure _

/-- Setting the status of a job keeps all filed. -/
theorem jobSet_filed {op : Json → Prog PyExc Store Obj} {event : Option String} {shown : List String}
    (hop : ∀ id, Prog.Keeps (StaysFiled fmt takes "job_id" (Family.jobs.dir home)) (op id)) :
    Prog.Keeps (KeepsFiled fmt home takes) (jobSet env op event shown params) := by
  refine .bind (requireId_filed _) fun id => ?_
  refine .bind (.mapError (onJobs_filed (hop id))) fun job => ?_
  refine .bind ?_ fun _ => .pure _
  cases event with
  | none => exact .pure _
  | some etype => exact .bind (.ofExcept _) fun _ => emit_filed _ _

/-- An id that is read is true, and stands in the parameters. -/
theorem requireId_ok {field : String} {id : Json} {t' : Tunnel} (h : (requireId field params).exec t = (.ok id, t')) :
    id = Obj.get params field ∧ id.truthy = true ∧ t' = t := by
  unfold requireId at h
  split at h
  · rename_i htruthy
    simp only [Prog.exec_pure, Prod.mk.injEq, Except.ok.injEq] at h
    obtain ⟨rfl, rfl⟩ := h
    exact ⟨rfl, htruthy, rfl⟩
  · simp at h

/-- Asking for a proposal keeps all filed. -/
theorem mProposalGet_filed (htakes : TakesFiles takes env)
    (hsweep : (Obj.get params "proposal_id").truthy = true → SweepFiles env t.proposals) :
    KeepsFiled fmt home takes t ((mProposalGet env params).exec t).2 := by
  refine keeps_bind_at (requireId_filed _ t) fun id t' hid => ?_
  obtain ⟨rfl, htruthy, rfl⟩ := requireId_ok hid
  refine keeps_bind_at (onProposals_filed (get_filed htakes (hsweep htruthy) _)) fun p t' _ => ?_
  cases p with
  | none => exact Std.Refl.refl _
  | some p => exact Std.Refl.refl _

/-- Announcing expiries leaves the proposals. -/
theorem emitExpired_fixes (ids : List Json) : Prog.Keeps (Prog.Fixes Tunnel.proposals) (emitExpired env ids) := by
  induction ids with
  | nil => exact .pure _
  | cons id rest ih => exact .bind (fun _ => rfl) fun _ => ih

/-- It keeps all filed. -/
theorem emitExpired_filed (ids : List Json) : Prog.Keeps (KeepsFiled fmt home takes) (emitExpired env ids) := by
  induction ids with
  | nil => exact .pure _
  | cons id rest ih => exact .bind (emit_filed _ _) fun _ => ih

/-- Listing proposals keeps all filed. -/
theorem mProposalList_filed (htakes : TakesFiles takes env) (hsweep : SweepFiles env t.proposals) :
    KeepsFiled fmt home takes t ((mProposalList env params).exec t).2 := by
  refine keeps_bind_at (onProposals_filed (expireStale_staysFiled htakes hsweep)) fun ids t₁ hids => ?_
  have hswept : SweepFiles env t₁.proposals := by
    rw [exec_onProposals, Prod.mk.injEq] at hids
    rw [← hids.2]
    exact sweepFiles_after (Prod.ext hids.1 rfl)
  refine keeps_bind_at (emitExpired_filed ids t₁) fun _ t₂ hemit => ?_
  have hsame : t₂.proposals = t₁.proposals := by
    have hfixes : Prog.Keeps (Prog.Fixes Tunnel.proposals) (emitExpired env ids) := emitExpired_fixes ids
    have hlast := hfixes t₁
    rwa [hemit] at hlast
  rw [← hsame] at hswept
  exact keeps_bind_at (onProposals_filed (list_filed htakes hswept _)) fun _ _ _ => Std.Refl.refl _

/-- A request would mark this transaction as rolled back and write its file. -/
def MarksRolledBack (env : Env) (params : Obj) (t : Tunnel) (u : Obj) : Prop :=
  ∃ i u', (Obj.get params "transaction_id").key? = some i ∧ t.transactions.records.get? i = some u ∧
    transactionTransition .rolledBack u = .ok u' ∧ persistError env "transaction_id" u' = none

/-- Marking a transaction as rolled back keeps all filed. -/
theorem mTransactionMarkRolledBack_filed (htakes : TakesFiles takes env)
    (hsweep : ∀ u, MarksRolledBack env params t u → (Obj.get u "proposal_id").truthy = true →
      SweepFiles env t.proposals) :
    KeepsFiled fmt home takes t ((mTransactionMarkRolledBack env params).exec t).2 := by
  refine keeps_bind_at (requireId_filed _ t) fun id t' hid => ?_
  obtain ⟨rfl, -, rfl⟩ := requireId_ok hid
  refine keeps_bind_at (Prog.Keeps.mapError
    (onTransactions_filed (setTransaction_staysFiled htakes .rolledBack _)) t') fun u' t₁ hset => ?_
  have hexec := Prog.exec_mapError_eq_ok.mp hset
  rw [exec_onTransactions, Prod.mk.injEq] at hexec
  have hproposals : t₁.proposals = t'.proposals := by rw [← hexec.2]
  have hlink : StaysFiled fmt takes "proposal_id" (Family.proposals.dir home) t₁.proposals
      ((linkProposal env (Obj.get u' "proposal_id") .applied .rolledBack).exec t₁.proposals).2 := by
    rcases setStatus_cases env "transaction_id" "unknown transaction_id: %s" (transactionTransition .rolledBack)
      (Obj.get params "transaction_id") t'.transactions with ⟨e, hraised⟩ | ⟨i, u, u₁, writes, hkey, hu, htr, hmarked⟩
    · have hout : (Except.error e : Except PyExc Obj) = .ok u' := by
        rw [← hexec.1, TransactionStore.markRolledBack, TransactionStore.setStatus, hraised]
      cases hout
    · have hout : (persistError env "transaction_id" u₁).elim (Except.ok u₁) Except.error = Except.ok u' := by
        rw [← hexec.1, TransactionStore.markRolledBack, TransactionStore.setStatus, hmarked]
      cases herror : persistError env "transaction_id" u₁ with
      | some e =>
        rw [herror] at hout
        cases hout
      | none =>
        rw [herror] at hout
        obtain rfl : u₁ = u' := Except.ok.inj hout
        have hpid : Obj.get u₁ "proposal_id" = Obj.get u "proposal_id" := by
          obtain ⟨_, rfl⟩ := Lifecycle.transition_eq_ok.mp htr
          simp [Obj.get, Obj.getD]
        rw [hproposals, hpid]
        exact linkProposal_filed htakes fun htruthy => hsweep u ⟨i, u₁, hkey, hu, htr, herror⟩ htruthy
  refine keeps_bind_at (onProposals_filed hlink) fun _ t₂ _ => ?_
  exact Prog.Keeps.bind (emit_filed _ _) (fun _ => .pure _) t₂

end Handlers

/-- A request would store this record under this key. -/
def Family.Stores (env : Env) (params : Obj) (t : Tunnel) : Family → Key → Obj → Prop
  | .proposals => StoresProposal env params t
  | .transactions => StoresTransaction env params t
  | .jobs => StoresJob env params t

/-- Nothing raises once the record is stored and its file is written. -/
def Family.Returns (env : Env) (t : Tunnel) (r : Obj) : Family → Prop
  | .proposals => (pySlice (Obj.getD r "reason" (.str ""))).isOk = true
  | .transactions => LinkReturns env (Obj.get r "proposal_id") t.proposals ∧
      (pyLen (Obj.getD r "after" (.arr []))).isOk = true
  | .jobs => True

/-- A request would sweep and then answer, whatever the sweep raises. -/
def Sweeps (env : Env) (params : Obj) (t : Tunnel) : Method → Prop
  | .proposalList => True
  | .proposalGet => (Obj.get params "proposal_id").truthy = true
  | .transactionMarkRolledBack => ∃ u, MarksRolledBack env params t u ∧ (Obj.get u "proposal_id").truthy = true
  | _ => False

/-- A request that keeps the files with the records: what it would store under a name has a file of its own, and
nothing raises after that; a sweep does not stop halfway; and a job that is reused can have a file. -/
structure Restorable (home : Place) (takes : String → Bool) (env : Env) (method : Method) (params : Obj)
    (t : Tunnel) : Prop where
  files : ∀ family : Family, method = family.create → ∀ k r, family.Stores env params t k r → Joinable k →
    OwnFile takes (family.dir home) (family.store t).records k ∧ family.Returns env t r
  sweeps : Sweeps env params t method → SweepFiles env t.proposals
  reused : method = .jobCreate → ∀ t' c k j, JobCandidate env params t t' c →
    ((reuseJob params c).exec t').1 = .ok (some j) → t.jobs.records.get? k = some j → Joinable k

section Requests

variable {fmt : FloatFormat} {home : Place} {takes : String → Bool} {env : Env} {params : Obj} {method : Method}
  {t : Tunnel} {α : Type}

/-- What a request would store is a record. -/
theorem Family.Stores.isRecord {family : Family} {k : Key} {r : Obj} (h : family.Stores env params t k r)
    (hclock : Clock fmt env) (hsessions : SessionValues fmt t.registry) (hparams : WellFormed fmt (.obj params)) :
    IsRecord fmt family.field k r := by
  cases family with
  | proposals =>
    refine ⟨?_, ?_, wellFormed_storesProposal hclock hparams h⟩
    · obtain ⟨data, -, -, -, hkey, -⟩ := h
      exact hkey
    · obtain ⟨data, -, -, rfl, -, -⟩ := h
      exact truthy_id_makeProposal
  | transactions =>
    refine ⟨?_, ?_, wellFormed_storesTransaction hclock hsessions hparams h⟩
    · obtain ⟨data, data', t', -, -, -, -, -, hkey, -⟩ := h
      exact hkey
    · obtain ⟨data, data', t', -, -, rfl, -, -, -, -⟩ := h
      exact truthy_id_makeTransaction
  | jobs =>
    refine ⟨?_, ?_, wellFormed_storesJob hclock hsessions hparams h⟩
    · obtain ⟨t', -, -, -, hkey, -⟩ := h
      exact hkey
    · obtain ⟨t', ⟨data, data', -, -, rfl⟩, -, -, -, -⟩ := h
      exact truthy_id_makeJob

/-- Each family's request writes what it stores. -/
theorem Family.writes (family : Family) : Writes env family.field (family.Stores env params t) (family.store t)
    (family.store ((handle env family.create params).exec t).2) := by
  cases family with
  | proposals => exact writes_mProposalCreate
  | transactions => exact writes_mTransactionCreate
  | jobs => exact writes_mJobCreate

/-- A request that would store a record stores it, and returns if nothing raises after that. -/
theorem Family.Stores.stored {family : Family} {k : Key} {r : Obj} (h : family.Stores env params t k r) :
    (family.store ((handle env family.create params).exec t).2).records = (family.store t).records.insert k r ∧
      (((handle env family.create params).exec t).1.isOk = true ↔
        persistError env family.field r = none ∧ family.Returns env t r) := by
  cases family with
  | proposals =>
    obtain ⟨hrecords, hok⟩ := mProposalCreate_stores h
    exact ⟨hrecords, hok.trans ⟨fun h => ⟨h.file, h.log⟩, fun h => ⟨h.1, h.2⟩⟩⟩
  | transactions =>
    obtain ⟨hrecords, hok⟩ := mTransactionCreate_stores h
    exact ⟨hrecords, (hok.trans createReturns_iff).trans
      ⟨fun h => ⟨h.file, h.link, h.log⟩, fun h => ⟨h.1, h.2.1, h.2.2⟩⟩⟩
  | jobs =>
    obtain ⟨hrecords, hok⟩ := mJobCreate_stores h
    exact ⟨hrecords, hok.trans (and_iff_left trivial).symm⟩

/-- What would be stored is new. -/
theorem Family.Stores.free {family : Family} {k : Key} {r : Obj} (h : family.Stores env params t k r) :
    (family.store t).records.get? k = none := by
  cases family with
  | proposals =>
    obtain ⟨data, -, -, -, -, hfree⟩ := h
    exact hfree
  | transactions =>
    obtain ⟨data, data', t', -, -, -, -, -, -, hfree⟩ := h
    exact hfree
  | jobs =>
    obtain ⟨t', -, -, -, -, hfree⟩ := h
    exact hfree

/-- An accepted request answers the record that it stored, or a job that it reuses. -/
theorem Family.create_answers {family : Family} {answer : Json} {t' : Tunnel}
    (h : (handle env family.create params).exec t = (.ok answer, t')) :
    ∃ r, family.answered answer = some r ∧ ((∃ k, family.Stores env params t k r) ∨
      family.create = .jobCreate ∧ family.store t' = family.store t ∧
        (∃ k, (family.store t).records.get? k = some r) ∧
        ∃ t₁ c, JobCandidate env params t t₁ c ∧ ((reuseJob params c).exec t₁).1 = .ok (some r)) := by
  cases family with
  | proposals =>
    obtain ⟨k, p, hstores, rfl⟩ := mProposalCreate_answers h
    exact ⟨p, rfl, .inl ⟨k, hstores⟩⟩
  | transactions =>
    obtain ⟨k, u, hstores, rfl, -⟩ := mTransactionCreate_ok h
    exact ⟨u, rfl, .inl ⟨k, hstores⟩⟩
  | jobs =>
    obtain ⟨t₁, c, hcandidate, ⟨j, rfl, hreuse, hsame, hstored, -, -⟩ | ⟨rfl, hstores⟩⟩ := mJobCreate_answers h
    · exact ⟨j, rfl, .inr ⟨rfl, hsame, hstored, t₁, c, hcandidate, hreuse⟩⟩
    · exact ⟨c, rfl, .inl hstores⟩

/-- What touches proposals alone leaves the sessions. -/
theorem onProposals_registry (m : Prog PyExc Store α) : Prog.Keeps (Prog.Fixes Tunnel.registry) (onProposals m) :=
  fun _ => rfl

/-- What touches transactions alone leaves the sessions. -/
theorem onTransactions_registry (m : Prog PyExc Store α) :
    Prog.Keeps (Prog.Fixes Tunnel.registry) (onTransactions m) := fun _ => rfl

/-- What touches jobs alone leaves the sessions. -/
theorem onJobs_registry (m : Prog PyExc Store α) : Prog.Keeps (Prog.Fixes Tunnel.registry) (onJobs m) :=
  fun _ => rfl

/-- Creating a proposal leaves the sessions. -/
theorem mProposalCreate_registry : Prog.Keeps (Prog.Fixes Tunnel.registry) (mProposalCreate env params) := by
  unfold mProposalCreate
  split
  · refine .bind (.ofExcept _) fun _ => .bind (.mapError (onProposals_registry _)) fun p => ?_
    exact .bind (.ofExcept _) fun _ => .bind (.ofExcept _) fun _ => .bind (fun _ => rfl) fun _ => .pure _
  · exact .throw _

/-- Creating a transaction leaves the sessions. -/
theorem mTransactionCreate_registry : Prog.Keeps (Prog.Fixes Tunnel.registry) (mTransactionCreate env params) := by
  unfold mTransactionCreate
  split
  · refine .bind (fixes_of_reads (bindActor_reads _) _) fun _ => ?_
    refine .bind (fixes_of_reads (checkPermissions_reads _) _) fun _ => ?_
    refine .bind (.ofExcept _) fun _ => .bind (.mapError (onTransactions_registry _)) fun u => ?_
    refine .bind (onProposals_registry _) fun _ => ?_
    exact .bind (.ofExcept _) fun _ => .bind (.ofExcept _) fun _ => .bind (fun _ => rfl) fun _ => .pure _
  · exact .throw _

/-- Making a job sees a session at most. -/
theorem mJobCreate_sessions (hclock : Clock fmt env) (h : SessionValues fmt t.registry) :
    SessionValues fmt ((mJobCreate env params).exec t).2.registry := by
  have hbound : ∀ data, SessionValues fmt ((bindJobSession env params data).exec t).2.registry := by
    intro data
    unfold bindJobSession
    dsimp only
    split
    · have hlast : Prog.Fixes Tunnel.registry
          ((onRegistry (Registry.touch env (Obj.get params "session_id"))).exec t).2
          ((do
            onRegistry (Registry.touch env (Obj.get params "session_id"))
            bindSession (Obj.get params "session_id") data : Prog PyExc Tunnel Obj).exec t).2 :=
        Prog.Keeps.of_rest (fun _ => fixes_of_reads (bindSession_reads _ _) _) t
      rw [hlast]
      exact sessionValues_touch hclock _ t.registry h
    · exact h
  unfold mJobCreate
  split
  · rename_i data hdata
    have hrest : ∀ {f : Obj → Prog PyExc Tunnel Json}, (∀ data', Prog.Keeps (Prog.Fixes Tunnel.registry) (f data')) →
        SessionValues fmt ((bindJobSession env params data >>= f).exec t).2.registry := by
      intro f hf
      have hlast := Prog.Keeps.of_rest (m := bindJobSession env params data) hf t
      exact hlast ▸ hbound data
    refine hrest fun data' => .bind (fixes_of_reads (reuseJob_reads _ _) _) fun fresh => ?_
    cases fresh with
    | some fresh => exact .pure _
    | none =>
      refine .bind (.ofExcept _) fun _ => .bind (.mapError (onJobs_registry _)) fun job => ?_
      exact .bind (.ofExcept _) fun _ => .bind (fun _ => rfl) fun _ => .pure _
  · exact h

/-- The requests that create no record. -/
theorem handle_beside (htakes : TakesFiles takes env) (hparams : WellFormed fmt (.obj params))
    (hnot : ∀ family : Family, method ≠ family.create)
    (hsweeps : Sweeps env params t method → SweepFiles env t.proposals) :
    KeepsFiled fmt home takes t ((handle env method params).exec t).2 := by
  cases method with
  | proposalCreate => exact absurd rfl (hnot .proposals)
  | transactionCreate => exact absurd rfl (hnot .transactions)
  | jobCreate => exact absurd rfl (hnot .jobs)
  | proposalList => exact mProposalList_filed htakes (hsweeps trivial)
  | proposalGet => exact mProposalGet_filed htakes hsweeps
  | proposalApprove => exact setProposal_filed htakes _ _ t
  | proposalReject => exact setProposal_filed htakes _ _ t
  | proposalMarkApplied => exact setProposal_filed htakes _ _ t
  | proposalMarkFailed => exact setProposal_filed htakes _ _ t
  | transactionList => exact Prog.Keeps.bind (onTransactions_filed listRecords_reads.keeps) (fun _ => .pure _) t
  | transactionGet => exact Prog.Keeps.bind findTransaction_filed (fun _ => .pure _) t
  | transactionRollback => exact Prog.Keeps.bind findTransaction_filed (fun _ => .ite (.pure _) (.throw _)) t
  | transactionMarkRolledBack =>
    exact mTransactionMarkRolledBack_filed htakes fun u hmarks htruthy => hsweeps ⟨u, hmarks, htruthy⟩
  | transactionMarkFailed =>
    exact Prog.Keeps.bind (requireId_filed _) (fun id =>
      .bind (.mapError (onTransactions_filed (setTransaction_staysFiled htakes .failed id))) fun _ => .pure _) t
  | jobList => exact Prog.Keeps.bind (onJobs_filed listRecords_reads.keeps) (fun _ => .pure _) t
  | jobGet => exact Prog.Keeps.bind findJob_filed (fun _ => .pure _) t
  | jobCancel => exact jobSet_filed (setJob_staysFiled htakes .cancelled (by simp [JobMark.fields])) t
  | jobMarkRunning => exact jobSet_filed (setJob_staysFiled htakes .running (by simp [JobMark.fields])) t
  | jobMarkDone =>
    refine jobSet_filed (setJob_staysFiled htakes (.done _ _) fun e he => ?_) t
    rcases List.mem_cons.mp (List.mem_filter.mp he).1 with rfl | hlast
    · exact hparams.get _
    · obtain rfl := List.mem_singleton.mp hlast
      exact hparams.get _
  | jobMarkFailed =>
    refine jobSet_filed (setJob_staysFiled htakes (.failed (Obj.get params "error")) fun e he => ?_) t
    change e ∈ (if (Obj.get params "error").truthy = true then [("error", Obj.get params "error")] else []) at he
    split at he
    · obtain rfl := List.mem_singleton.mp he
      exact hparams.get _
    · cases he
  | jobRun =>
    refine Prog.Keeps.bind (.bind findJob_filed fun found => .ite ?_ (.throw _)) (fun _ => .pure _) t
    cases env.simCmd with
    | none => exact .throw _
    | some cmd => exact .pure _

/-- A store that stays as it is stays filed. -/
theorem StaysFiled.of_eq {field : String} {dir : Place} {st st' : Store} (h : st' = st) :
    StaysFiled fmt takes field dir st st' := by
  rw [h]
  exact Std.Refl.refl (r := StaysFiled fmt takes field dir) st

/-- Linking the proposal of a new transaction sweeps only where the sweep returns. -/
theorem mTransactionCreate_linked (htakes : TakesFiles takes env)
    (hlinks : ∀ i u, StoresTransaction env params t i u → persistError env "transaction_id" u = none →
      LinkReturns env (Obj.get u "proposal_id") t.proposals) :
    StaysFiled fmt takes "proposal_id" (Family.proposals.dir home) t.proposals
      ((mTransactionCreate env params).exec t).2.proposals := by
  rcases mTransactionCreate_cases env params t with ⟨-, hsame⟩ | ⟨i, u, hstores, -, hproposals⟩
  · exact .of_eq hsame
  · rw [hproposals]
    split
    · rename_i hnone
      intro horderly
      refine linkProposal_filed htakes (fun htruthy => ?_) horderly
      exact sweepFiles_of_returns (hlinks i u hstores hnone htruthy).1 htakes.dirs horderly.keyed
    · exact .of_eq rfl

/-- A request keeps the files of all three stores with their records. -/
theorem handle_filed (htakes : TakesFiles takes env) (hclock : Clock fmt env) (hparams : WellFormed fmt (.obj params))
    (hsessions : SessionValues fmt t.registry) (h : Restorable home takes env method params t) (family : Family) :
    StaysFiled fmt takes family.field (family.dir home) (family.store t)
      (family.store ((handle env method params).exec t).2) := by
  by_cases hcreate : method = family.create
  · subst hcreate
    exact family.writes.staysFiled htakes fun k r hstores =>
      ⟨hstores.isRecord hclock hsessions hparams, fun hk => (h.files family rfl k r hstores hk).1⟩
  · by_cases hnot : ∀ family : Family, method ≠ family.create
    · exact (handle_beside htakes hparams hnot h.sweeps).1 family
    · -- another family's record is created
      push Not at hnot
      obtain ⟨other, rfl⟩ := hnot
      cases other with
      | proposals =>
        have hothers := mProposalCreate_others env params t
        simp only [Prog.Fixes, besideProposals, Prod.mk.injEq] at hothers
        cases family with
        | proposals => exact absurd rfl hcreate
        | transactions => exact .of_eq hothers.1
        | jobs => exact .of_eq hothers.2.1
      | transactions =>
        have hothers := mTransactionCreate_others env params t
        simp only [Prog.Fixes, besideTransactions, Prod.mk.injEq] at hothers
        cases family with
        | proposals =>
          refine mTransactionCreate_linked htakes fun i u hstores hnone => ?_
          have hmade : Family.transactions.Stores env params t i u := hstores
          have hrecord := hmade.isRecord hclock hsessions hparams
          exact (h.files .transactions rfl i u hstores (joinable_of_persistError htakes.dirs hrecord.key hnone)).2.1
        | transactions => exact absurd rfl hcreate
        | jobs => exact .of_eq hothers.1
      | jobs =>
        have hothers := mJobCreate_others env params t
        simp only [Prog.Fixes, besideJobs, Prod.mk.injEq] at hothers
        cases family with
        | proposals => exact .of_eq hothers.1
        | transactions => exact .of_eq hothers.2.1
        | jobs => exact absurd rfl hcreate

/-- Every request leaves sessions that are values. -/
theorem handle_sessions (htakes : TakesFiles takes env) (hclock : Clock fmt env)
    (hparams : WellFormed fmt (.obj params)) (hsessions : SessionValues fmt t.registry)
    (h : Restorable home takes env method params t) :
    SessionValues fmt ((handle env method params).exec t).2.registry := by
  by_cases hnot : ∀ family : Family, method ≠ family.create
  · have hbeside : KeepsFiled fmt home takes t ((handle env method params).exec t).2 :=
      handle_beside htakes hparams hnot h.sweeps
    rw [hbeside.2]
    exact hsessions
  · push Not at hnot
    obtain ⟨family, rfl⟩ := hnot
    cases family with
    | proposals =>
      have hfixes : ((handle env Family.proposals.create params).exec t).2.registry = t.registry :=
        mProposalCreate_registry t
      rwa [hfixes]
    | transactions =>
      have hfixes : ((handle env Family.transactions.create params).exec t).2.registry = t.registry :=
        mTransactionCreate_registry t
      rwa [hfixes]
    | jobs => exact mJobCreate_sessions hclock hsessions

/-- What holds of the keys of a store that evolves without new records. -/
theorem stored_iff_of_evolves {fresh : Key → Obj → Prop} {next : Obj → Obj → Prop} {d d' : Dict Key Obj}
    (h : Evolves fresh next d d') (hnone : ∀ k r, ¬ fresh k r) (k : Key) :
    (∃ r, d'.get? k = some r) ↔ ∃ r, d.get? k = some r := by
  constructor
  · rintro ⟨r', hr'⟩
    rcases h.origin hr' with ⟨r, hr, -⟩ | ⟨-, r, hfresh, -⟩
    · exact ⟨r, hr⟩
    · exact absurd hfresh (hnone k r)
  · rintro ⟨r, hr⟩
    obtain ⟨r', hr', -⟩ := h.advanced hr
    exact ⟨r', hr'⟩

/-- Other requests create none of a family's records, and lose none. -/
theorem handle_stored {family : Family} (hcreate : method ≠ family.create) (k : Key) :
    (∃ r, (family.store ((handle env method params).exec t).2).records.get? k = some r) ↔
      ∃ r, (family.store t).records.get? k = some r := by
  have hlaw := handle_keeps env method params t
  cases family with
  | proposals =>
    have hnone : method.law.newProposal = false := by
      cases method <;> first | rfl | exact absurd rfl hcreate
    exact stored_iff_of_evolves hlaw.proposals (fun k r harrives => by simp [Arrives, hnone] at harrives) k
  | transactions =>
    have hnone : method.law.newTransaction = false := by
      cases method <;> first | rfl | exact absurd rfl hcreate
    exact stored_iff_of_evolves hlaw.transactions (fun k r harrives => by simp [Arrives, hnone] at harrives) k
  | jobs =>
    have hnone : method.law.newJob = false := by
      cases method <;> first | rfl | exact absurd rfl hcreate
    exact stored_iff_of_evolves hlaw.jobs (fun k r harrives => by simp [Arrives, hnone] at harrives) k

/-- An answer has the record of this key. -/
def Answers (family : Family) (out : Except PyExc Json) (k : Key) : Prop :=
  ∃ answer r, out = .ok answer ∧ family.answered answer = some r ∧ (Obj.get r family.field).key? = some k

/-- A request that creates a record stores just the key that it answers, if that one can be joined. -/
theorem create_stored {family : Family} (htakes : TakesFiles takes env) (hclock : Clock fmt env)
    (hparams : WellFormed fmt (.obj params)) (hsessions : SessionValues fmt t.registry)
    (horderly : Orderly fmt takes family.field (family.dir home) (family.store t).records)
    (h : Restorable home takes env family.create params t) (k : Key) :
    (Answers family ((handle env family.create params).exec t).1 k → Joinable k) ∧
      (Joinable k → ((∃ r, (family.store ((handle env family.create params).exec t).2).records.get? k = some r) ↔
        (∃ r, (family.store t).records.get? k = some r) ∨
          Answers family ((handle env family.create params).exec t).1 k)) := by
  by_cases hany : ∃ k₀ r₀, family.Stores env params t k₀ r₀
  · obtain ⟨k₀, r₀, hstores⟩ := hany
    obtain ⟨hrecords, hok⟩ := hstores.stored
    have hrecord := hstores.isRecord hclock hsessions hparams
    have hanswered : ∀ {answer}, ((handle env family.create params).exec t).1 = .ok answer →
        Joinable k₀ ∧ family.answered answer = some r₀ := by
      intro answer hout
      have hreturned : persistError env family.field r₀ = none ∧ family.Returns env t r₀ := hok.mp (by rw [hout]; rfl)
      refine ⟨joinable_of_persistError htakes.dirs hrecord.key hreturned.1, ?_⟩
      obtain ⟨r, hr, ⟨k', hstores'⟩ | ⟨-, hsame, -⟩⟩ := Family.create_answers (Prod.ext hout rfl)
      · -- only one record would be stored
        have hinsert := hstores'.stored.1
        rw [hrecords] at hinsert
        have hget := congrArg (fun d => d.get? k') hinsert
        simp only [Dict.get?_insert_self] at hget
        by_cases hk : k' = k₀
        · rw [hk, Dict.get?_insert_self] at hget
          rw [hr, hget]
        · rw [Dict.get?_insert_ne _ hk, hstores'.free] at hget
          cases hget
      · have hget := congrArg (fun st : Store => st.records.get? k₀) hsame
        simp only [hrecords, Dict.get?_insert_self, hstores.free] at hget
        cases hget
    constructor
    · rintro ⟨answer, r, hout, hr, hkey⟩
      obtain ⟨hk₀, hr₀⟩ := hanswered hout
      obtain rfl : r₀ = r := Option.some.inj (hr₀.symm.trans hr)
      obtain rfl : k₀ = k := Option.some.inj (hrecord.key.symm.trans hkey)
      exact hk₀
    · intro hk
      rw [hrecords]
      constructor
      · rintro ⟨r, hr⟩
        rw [Dict.get?_insert] at hr
        split at hr
        · rename_i heq
          subst heq
          have hreturned := hok.mpr
            ⟨persistError_joinable htakes hrecord.key hk, (h.files family rfl k r₀ hstores hk).2⟩
          cases hout : ((handle env family.create params).exec t).1 with
          | error e =>
            rw [hout] at hreturned
            cases hreturned
          | ok answer => exact .inr ⟨answer, r₀, rfl, (hanswered hout).2, hrecord.key⟩
        · exact .inl ⟨r, hr⟩
      · rintro (⟨r, hr⟩ | ⟨answer, r, hout, hr, hkey⟩)
        · by_cases hk₀ : k = k₀
          · exact ⟨r₀, by rw [hk₀, Dict.get?_insert_self]⟩
          · exact ⟨r, by rw [Dict.get?_insert_ne _ hk₀, hr]⟩
        · obtain ⟨-, hr₀⟩ := hanswered hout
          obtain rfl : r₀ = r := Option.some.inj (hr₀.symm.trans hr)
          obtain rfl : k₀ = k := Option.some.inj (hrecord.key.symm.trans hkey)
          exact ⟨r₀, Dict.get?_insert_self _ _ _⟩
  · have hsame : family.store ((handle env family.create params).exec t).2 = family.store t :=
      family.writes.refused fun k r hstores => hany ⟨k, r, hstores⟩
    have hstored : Answers family ((handle env family.create params).exec t).1 k →
        Joinable k ∧ ∃ r, (family.store t).records.get? k = some r := by
      rintro ⟨answer, r, hout, hr, hkey⟩
      obtain ⟨r', hr', ⟨k', hstores⟩ | ⟨hjobs, -, ⟨k', hk'⟩, t₁, c, hcandidate, hreuse⟩⟩ :=
        Family.create_answers (Prod.ext hout rfl)
      · exact absurd ⟨k', r', hstores⟩ hany
      · obtain rfl : r' = r := Option.some.inj (hr'.symm.trans hr)
        obtain rfl : k' = k := Option.some.inj ((horderly.keyed k' r' hk').key.symm.trans hkey)
        refine ⟨?_, r', hk'⟩
        cases family with
        | proposals => cases hjobs
        | transactions => cases hjobs
        | jobs => exact h.reused rfl t₁ c k' r' hcandidate hreuse hk'
    refine ⟨fun hanswers => (hstored hanswers).1, fun _ => ?_⟩
    rw [hsame]
    exact ⟨.inl, fun h => h.elim id fun hanswers => (hstored hanswers).2⟩

end Requests

end VirtuosoFlow.Tunnel
