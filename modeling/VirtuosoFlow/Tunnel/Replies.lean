import VirtuosoFlow.Tunnel.Requests

/-!
# What the transaction methods answer

The record that an accepted `transaction.create` stores and returns, the recipe that
`transaction.rollback` answers, and the marks that end a rollback, seen from the caller: each
method's effect on the stored transactions where it is accepted.
-/

namespace VirtuosoFlow.Tunnel

open Base

/-- No name occurs twice among the members. -/
def UniqueMembers (o : Obj) : Prop := (o.map Prod.fst).Nodup

section Members

variable {o : Obj} {k : String} {v : Json}

/-- Setting a member repeats no name. -/
theorem UniqueMembers.set (h : UniqueMembers o) (k : String) (v : Json) : UniqueMembers (Obj.set o k v) := by
  unfold UniqueMembers Obj.set
  rw [keys_assocSet]
  split
  · exact h
  · rename_i hnew
    exact h.append (List.nodup_singleton k) (by simpa using hnew)

/-- Neither does a default. -/
theorem UniqueMembers.setDefault (h : UniqueMembers o) (k : String) (v : Json) :
    UniqueMembers (Obj.setDefault o k v) := by
  unfold Obj.setDefault
  split
  · exact h
  · exact h.set k v

end Members

/-- The members that the daemon may add to a transaction it is sent. -/
def boundMembers : List String := ["session", "session_fingerprint", "actor"]

section Create

variable {env : Env} {params data data' : Obj} {t t' : Tunnel} {i : Key} {u : Obj} {r : Json}

/-- Binding the session and the actor sets no other member. -/
theorem bindActor_lookup (h : (bindActor params data).exec t = (.ok data', t')) :
    (UniqueMembers data → UniqueMembers data') ∧ ∀ f ∉ boundMembers, data'.lookup f = data.lookup f := by
  have hset : ∀ (o : Obj) (k : String) (v : Json), k ∈ boundMembers → ∀ f ∉ boundMembers,
      (Obj.set o k v).lookup f = o.lookup f := by
    intro o k v hk f hf
    refine Obj.lookup_set_ne o ?_ v
    rintro rfl
    exact hf hk
  unfold bindActor at h
  obtain ⟨data₁, t₁, hsession, h⟩ := Prog.exec_bind_eq_ok h
  have hbound : (UniqueMembers data → UniqueMembers data₁) ∧ ∀ f ∉ boundMembers, data₁.lookup f = data.lookup f := by
    unfold bindTransactionSession at hsession
    dsimp only at hsession
    split at hsession
    · unfold bindSession at hsession
      obtain ⟨fp, t₂, _, hsession⟩ := Prog.exec_bind_eq_ok hsession
      cases fp with
      | none =>
        obtain rfl : _ = data₁ := by simpa using congrArg Prod.fst hsession
        exact ⟨fun hu => hu.set _ _, hset _ _ _ (by decide)⟩
      | some fp =>
        obtain rfl : _ = data₁ := by simpa using congrArg Prod.fst hsession
        refine ⟨fun hu => (hu.set _ _).set _ _, fun f hf => ?_⟩
        rw [hset _ _ _ (by decide) f hf, hset _ _ _ (by decide) f hf]
    · obtain rfl : data = data₁ := by simpa using congrArg Prod.fst hsession
      exact ⟨id, fun f _ => rfl⟩
  obtain rfl : _ = data' := by simpa using congrArg Prod.fst h
  split
  · refine ⟨fun hu => (hbound.1 hu).set _ _, fun f hf => ?_⟩
    rw [hset _ _ _ (by decide) f hf, hbound.2 f hf]
  · exact hbound

/-- A default does not touch a member that is there. -/
theorem lookup_setDefault_of_some {o : Obj} {f : String} {v : Json} (k : String) (w : Json)
    (h : o.lookup f = some v) : (Obj.setDefault o k w).lookup f = some v := by
  by_cases hk : f = k
  · subst hk
    rw [Obj.setDefault, if_pos (by rw [h]; rfl), h]
  · rw [Obj.lookup_setDefault_ne o hk, h]

/-- The members of a transaction that it was built from are kept. -/
theorem makeTransaction_lookup {f : String} {v : Json} (hf : f ≠ "transaction_id")
    (h : data.lookup f = some v) : (makeTransaction env data).lookup f = some v := by
  unfold makeTransaction
  have hbase : (if (Obj.get data "transaction_id").truthy = true then data
      else Obj.set data "transaction_id" (.str ("t_" ++ env.uuid))).lookup f = some v := by
    split
    · exact h
    · rw [Obj.lookup_set_ne data hf, h]
  have hversion := lookup_setDefault_of_some "schema_version" (.str "0.1") hbase
  have hstatus := lookup_setDefault_of_some "status" (.str "applied") hversion
  have hbefore := lookup_setDefault_of_some "before" (.arr []) hstatus
  have hafter := lookup_setDefault_of_some "after" (.arr []) hbefore
  have hstamp := lookup_setDefault_of_some "timestamp" env.stamp hafter
  exact lookup_setDefault_of_some "created_ts" _ hstamp

/-- A member that is no default stays absent. -/
theorem makeTransaction_absent {f : String}
    (hf : f ∉ ["transaction_id", "schema_version", "status", "before", "after", "timestamp", "created_ts"]) :
    (makeTransaction env data).lookup f = data.lookup f := by
  simp only [List.mem_cons, List.not_mem_nil, or_false, not_or] at hf
  obtain ⟨hid, hversion, hstatus, hbefore, hafter, hstamp, hcreated⟩ := hf
  unfold makeTransaction
  dsimp only
  rw [Obj.lookup_setDefault_ne _ hcreated, Obj.lookup_setDefault_ne _ hstamp,
    Obj.lookup_setDefault_ne _ hafter, Obj.lookup_setDefault_ne _ hbefore,
    Obj.lookup_setDefault_ne _ hstatus, Obj.lookup_setDefault_ne _ hversion]
  split
  · rfl
  · exact Obj.lookup_set_ne data hid _

/-- A transaction sent without an id gets one of its own. -/
theorem makeTransaction_id (h : data.lookup "transaction_id" = none) :
    Obj.get (makeTransaction env data) "transaction_id" = .str ("t_" ++ env.uuid) := by
  have hfalse : (Obj.get data "transaction_id").truthy = false := by
    simp [Obj.get, Obj.getD, h, Json.truthy]
  simp [makeTransaction, hfalse]

/-- A transaction repeats no name if its payload does not. -/
theorem makeTransaction_unique (h : UniqueMembers data) : UniqueMembers (makeTransaction env data) := by
  unfold makeTransaction
  refine ((((((?_ : UniqueMembers _).setDefault _ _).setDefault _ _).setDefault _ _).setDefault _ _).setDefault
    _ _).setDefault _ _
  split
  · exact h
  · exact h.set _ _

/-- A transaction sent without values before has an empty list of them. -/
theorem makeTransaction_before (h : data.lookup "before" = none) :
    Obj.getD (makeTransaction env data) "before" (.arr []) = .arr [] := by
  have hbase : (if (Obj.get data "transaction_id").truthy = true then data
      else Obj.set data "transaction_id" (.str ("t_" ++ env.uuid))).lookup "before" = none := by
    split
    · exact h
    · rw [Obj.lookup_set_ne _ (by decide), h]
  simp [makeTransaction, Obj.getD, hbase]

/-- An accepted `transaction.create` answers the record it stored. -/
theorem mTransactionCreate_ok (h : (mTransactionCreate env params).exec t = (.ok r, t')) :
    ∃ i u, StoresTransaction env params t i u ∧ r = .obj [("transaction", .obj u)] ∧
      t'.transactions.records = t.transactions.records.insert i u := by
  have hcases := mTransactionCreate_cases env params t
  rw [h] at hcases
  unfold mTransactionCreate at h
  split at h
  · rename_i data hdata
    replace h := Prog.exec_bind_eq_ok h
    obtain ⟨data', t₁, hbound, h⟩ := h
    obtain rfl : t₁ = t := by
      have hreads : ((bindActor params data).exec t).2 = t := bindActor_reads data t
      rw [hbound] at hreads
      exact hreads
    dsimp only at h
    generalize hu : makeTransaction env data' = u at h
    replace h := Prog.exec_bind_eq_ok h
    obtain ⟨_, t₂, hpermitted, h⟩ := h
    obtain rfl : t₂ = t₁ := by
      have hreads : ((checkPermissions env params u).exec t₁).2 = t₁ := checkPermissions_reads u t₁
      rw [hpermitted] at hreads
      exact hreads
    replace h := Prog.exec_bind_eq_ok h
    obtain ⟨_, t₃, hvalid, h⟩ := h
    rw [Prog.exec_ofExcept, Prod.mk.injEq] at hvalid
    obtain ⟨hvalid, rfl⟩ := hvalid
    replace h := Prog.exec_bind_eq_ok h
    obtain ⟨txn, t₄, hadd, h⟩ := h
    rcases TransactionStore.add_cases env u t₂.transactions
      with ⟨e, hexec⟩ | ⟨i, writes, hkey, hfree, hexec⟩
    · simp [Prog.exec_mapError, hexec] at hadd
    · have hstores : StoresTransaction env params t₂ i u :=
        ⟨data, data', t₂, hdata, hbound, hu.symm, by rw [hpermitted], hvalid, hkey, hfree⟩
      cases herr : persistError env "transaction_id" u with
      | some e => simp [Prog.exec_mapError, hexec, herr] at hadd
      | none =>
        have hadd' : ((onTransactions (TransactionStore.add env u)).mapError
            valueErrorAsRpc).exec t₂ = (.ok u,
              { t₂ with transactions := ⟨t₂.transactions.records.insert i u, writes⟩ }) := by
          simp [Prog.exec_mapError, hexec, herr]
        rw [hadd'] at hadd
        obtain ⟨rfl, rfl⟩ : u = txn ∧ _ = t₄ := by simpa using hadd
        have hrest := Prog.Keeps.of_rest
          (m := onProposals (linkProposal env (Obj.get u "proposal_id") .approved .applied))
          (fun _ => transactionCreated_fixes env u)
          { t₂ with transactions := ⟨t₂.transactions.records.insert i u, writes⟩ }
        rw [h] at hrest
        simp only [Prog.Fixes, exec_onProposals, Prod.mk.injEq] at hrest
        refine ⟨i, u, hstores, ?_, by rw [hrest.2]⟩
        obtain ⟨_, t₅, _, h⟩ := Prog.exec_bind_eq_ok h
        unfold transactionCreated at h
        obtain ⟨_, _, _, h⟩ := Prog.exec_bind_eq_ok h
        obtain ⟨_, _, _, h⟩ := Prog.exec_bind_eq_ok h
        obtain ⟨_, _, _, h⟩ := Prog.exec_bind_eq_ok h
        simpa using (congrArg Prod.fst h).symm
  · simp at h

/-- What comes after a transaction was added: its file has a name, and nothing raises in the linking of
its proposal and in the log line. -/
structure CreateReturns (env : Env) (t : Tunnel) (u : Obj) : Prop where
  file : persistError env "transaction_id" u = none
  link : ((linkProposal env (Obj.get u "proposal_id") .approved .applied).exec t.proposals).1 = .ok ()
  log : (pyLen (Obj.getD u "after" (.arr []))).isOk = true

/-- Every transaction has an id. -/
theorem truthy_id_makeTransaction : (Obj.get (makeTransaction env data) "transaction_id").truthy = true := by
  have hset : ∀ o : Obj, ∀ k ∈ ["schema_version", "status", "before", "after", "timestamp", "created_ts"],
      ∀ v, Obj.get (Obj.setDefault o k v) "transaction_id" = Obj.get o "transaction_id" := by
    intro o k hk v
    refine Obj.get_setDefault_ne o ?_ v
    rintro rfl
    simp at hk
  unfold makeTransaction
  dsimp only
  rw [hset _ _ (by decide), hset _ _ (by decide), hset _ _ (by decide), hset _ _ (by decide),
    hset _ _ (by decide), hset _ _ (by decide)]
  split
  · assumption
  · rw [Obj.get_set_self]
    simp [Json.truthy]

/-- A transaction whose id is new is added; after that only writing its file can raise. -/
theorem exec_add (env : Env) {st : Store} (hid : (Obj.get u "transaction_id").truthy = true)
    (hkey : (Obj.get u "transaction_id").key? = some i) (hfree : st.records.get? i = none) :
    ∃ writes, (TransactionStore.add env u).exec st =
      ((persistError env "transaction_id" u).elim (.ok u) .error, ⟨st.records.insert i u, writes⟩) := by
  have hnew : (insertNew "transaction_id" "duplicate transaction_id: %s" u).exec st =
      (.ok (), { st with records := st.records.insert i u }) := by
    simp [insertNew, Prog.exec_bind, hashKey, hkey, hfree]
  obtain ⟨writes, hpersist⟩ := exec_persist env "transaction_id" u { st with records := st.records.insert i u }
  refine ⟨writes, ?_⟩
  unfold TransactionStore.add
  simp only [hid, Bool.not_true, Bool.false_eq_true, if_false, Prog.exec_bind, Prog.exec_pure, hnew, hpersist]
  cases persistError env "transaction_id" u <;> rfl

/-- The log line and the answer of a stored transaction. -/
theorem isOk_transactionCreated (hid : (Obj.get u "transaction_id").truthy = true) :
    ((transactionCreated env u).exec t).1.isOk = (pyLen (Obj.getD u "after" (.arr []))).isOk := by
  have hitem : getItem u "transaction_id" = .ok (Obj.get u "transaction_id") := by
    unfold getItem
    unfold Obj.get Obj.getD at hid ⊢
    cases hl : u.lookup "transaction_id" with
    | none => simp [hl, Json.truthy] at hid
    | some v => rfl
  unfold transactionCreated
  rw [hitem, Prog.exec_bind_ok (Prog.exec_ofExcept _ _)]
  cases hlen : pyLen (Obj.getD u "after" (.arr [])) with
  | error e =>
    rw [Prog.exec_bind_error (Prog.exec_ofExcept _ _)]
    rfl
  | ok n =>
    rw [Prog.exec_bind_ok (Prog.exec_ofExcept _ _)]
    rfl

/-- A request that would store a transaction stores it, and returns if nothing raises after that. -/
theorem mTransactionCreate_stores (h : StoresTransaction env params t i u) :
    ((mTransactionCreate env params).exec t).2.transactions.records = t.transactions.records.insert i u ∧
      (((mTransactionCreate env params).exec t).1.isOk = true ↔ CreateReturns env t u) := by
  obtain ⟨data, data', t₁, hdata, hbound, rfl, hpermitted, hvalid, hkey, hfree⟩ := h
  obtain rfl : t = t₁ := by
    have hreads : ((bindActor params data).exec t).2 = t := bindActor_reads data t
    rw [hbound] at hreads
    exact hreads.symm
  have hid : (Obj.get (makeTransaction env data') "transaction_id").truthy = true :=
    truthy_id_makeTransaction
  unfold mTransactionCreate
  rw [hdata]
  dsimp only
  rw [Prog.exec_bind_ok hbound]
  generalize makeTransaction env data' = u at *
  rw [Prog.exec_bind_ok ((checkPermissions_reads u).exec_of_fst hpermitted), hvalid,
    Prog.exec_bind_ok (Prog.exec_ofExcept _ _)]
  obtain ⟨writes, hexec⟩ := exec_add env hid hkey hfree
  cases herr : persistError env "transaction_id" u with
  | some e =>
    have hadd : ((onTransactions (TransactionStore.add env u)).mapError valueErrorAsRpc).exec t =
        (.error (valueErrorAsRpc e),
          { t with transactions := ⟨t.transactions.records.insert i u, writes⟩ }) := by
      simp [Prog.exec_mapError, hexec, herr]
    rw [Prog.exec_bind_error hadd]
    refine ⟨rfl, ?_⟩
    constructor
    · intro hok
      cases hok
    · intro hreturns
      rw [hreturns.file] at herr
      cases herr
  | none =>
    have hadd : ((onTransactions (TransactionStore.add env u)).mapError valueErrorAsRpc).exec t =
        (.ok u, { t with transactions := ⟨t.transactions.records.insert i u, writes⟩ }) := by
      simp [Prog.exec_mapError, hexec, herr]
    rw [Prog.exec_bind_ok hadd]
    have hrest := Prog.Keeps.of_rest
      (m := onProposals (linkProposal env (Obj.get u "proposal_id") .approved .applied))
      (fun _ => transactionCreated_fixes env u)
      { t with transactions := ⟨t.transactions.records.insert i u, writes⟩ }
    simp only [Prog.Fixes, exec_onProposals, Prod.mk.injEq] at hrest
    refine ⟨by rw [hrest.2], ?_⟩
    cases hlink : (linkProposal env (Obj.get u "proposal_id") .approved .applied).exec t.proposals with
    | mk r st =>
      cases r with
      | error e =>
        have hraised : (onProposals (linkProposal env (Obj.get u "proposal_id") .approved .applied)).exec
            { t with transactions := ⟨t.transactions.records.insert i u, writes⟩ } = (.error e,
              { t with transactions := ⟨t.transactions.records.insert i u, writes⟩, proposals := st }) := by
          simp [hlink]
        rw [Prog.exec_bind_error hraised]
        constructor
        · intro hok
          cases hok
        · intro hreturns
          have hlinked := hreturns.link
          rw [hlink] at hlinked
          cases hlinked
      | ok _ =>
        have hlinked : (onProposals (linkProposal env (Obj.get u "proposal_id") .approved .applied)).exec
            { t with transactions := ⟨t.transactions.records.insert i u, writes⟩ } = (.ok (),
              { t with transactions := ⟨t.transactions.records.insert i u, writes⟩, proposals := st }) := by
          simp [hlink]
        rw [Prog.exec_bind_ok hlinked, isOk_transactionCreated hid]
        constructor
        · intro hlog
          exact ⟨herr, by rw [hlink], hlog⟩
        · exact CreateReturns.log

/-- A `transaction.create` request returns exactly if it stores a transaction and nothing raises after
that. -/
theorem isOk_mTransactionCreate : ((mTransactionCreate env params).exec t).1.isOk = true ↔
    ∃ i u, StoresTransaction env params t i u ∧ CreateReturns env t u := by
  constructor
  · intro hok
    cases hexec : (mTransactionCreate env params).exec t with
    | mk out t' =>
      rw [hexec] at hok
      cases out with
      | error e => cases hok
      | ok r =>
        obtain ⟨i, u, hstores, _, _⟩ := mTransactionCreate_ok hexec
        refine ⟨i, u, hstores, (mTransactionCreate_stores hstores).2.mp ?_⟩
        rw [hexec]
        rfl
  · rintro ⟨i, u, hstores, hreturns⟩
    exact (mTransactionCreate_stores hstores).2.mpr hreturns

/-- A request that would store no transaction leaves the stored ones alone. -/
theorem mTransactionCreate_stores_none (h : ∀ i u, ¬ StoresTransaction env params t i u) :
    ((mTransactionCreate env params).exec t).2.transactions.records = t.transactions.records := by
  rcases mTransactionCreate_cases env params t with ⟨hsame, _⟩ | ⟨i, u, hstores, _⟩
  · exact hsame
  · exact absurd hstores (h i u)

/-- The parts of the tunnel that `transaction.create` looks at before it stores anything. -/
def createView (t : Tunnel) : Store × Store × Json := (t.transactions, t.registry, t.permissions)

/-- Binding the session and the actor looks at the registry only. -/
theorem fst_bindActor_congr {t : Tunnel} (h : t'.registry = t.registry) (data : Obj) :
    ((bindActor params data).exec t').1 = ((bindActor params data).exec t).1 := by
  have hsession : ((bindTransactionSession params data).exec t').1 =
      ((bindTransactionSession params data).exec t).1 := by
    unfold bindTransactionSession bindSession
    dsimp only
    split
    · simp only [Prog.exec_bind, exec_onRegistry, h]
      cases (Registry.sessionFingerprint (Obj.get params "session_id")).exec t.registry with
      | mk r st =>
        cases r with
        | error e => rfl
        | ok fp => cases fp <;> rfl
    · rfl
  unfold bindActor
  rw [Prog.exec_bind, Prog.exec_bind]
  cases hm : (bindTransactionSession params data).exec t with
  | mk r t₁ =>
    cases hm' : (bindTransactionSession params data).exec t' with
    | mk r' t₁' =>
      rw [hm, hm'] at hsession
      obtain rfl : r' = r := hsession
      cases r' <;> rfl

/-- Checking the permissions looks at the permissions only. -/
theorem fst_checkPermissions_congr {t : Tunnel} (h : t'.permissions = t.permissions) (u : Obj) :
    ((checkPermissions env params u).exec t').1 = ((checkPermissions env params u).exec t).1 := by
  unfold checkPermissions
  rw [Prog.exec_bind_ok (Prog.exec_get t'), Prog.exec_bind_ok (Prog.exec_get t), h]
  generalize pyOr (pyOr (Obj.get params "permissions") t.permissions) (.obj []) = perms
  simp only [Prog.exec_bind, Prog.exec_ofExcept]
  cases attrGet perms "allow_modify" with
  | error e => rfl
  | ok allow =>
    cases attrGet perms "deny_modify" with
    | error e => rfl
    | ok deny =>
      dsimp only
      cases violations env (pyOr (pyOr (Obj.get u "after") (Obj.get u "before")) (.arr [])) allow deny with
      | error e => rfl
      | ok viol =>
        dsimp only
        split <;> rfl

/-- What a request would store depends on these parts only. -/
theorem storesTransaction_congr {t : Tunnel} (h : createView t' = createView t) :
    StoresTransaction env params t' i u ↔ StoresTransaction env params t i u := by
  simp only [createView, Prod.mk.injEq] at h
  obtain ⟨htransactions, hregistry, hpermissions⟩ := h
  have hone : ∀ t t' : Tunnel, t'.transactions = t.transactions → t'.registry = t.registry →
      t'.permissions = t.permissions → StoresTransaction env params t i u →
        StoresTransaction env params t' i u := by
    rintro t t' htransactions hregistry hpermissions
      ⟨data, data', t₁, hdata, hbound, hu, hpermitted, hvalid, hkey, hfree⟩
    obtain rfl : t = t₁ := by
      have hreads : ((bindActor params data).exec t).2 = t := bindActor_reads data t
      rw [hbound] at hreads
      exact hreads.symm
    have hbound' : (bindActor params data).exec t' = (.ok data', t') := by
      refine (bindActor_reads data).exec_of_fst ?_
      rw [fst_bindActor_congr hregistry, hbound]
    refine ⟨data, data', t', hdata, hbound', hu, ?_, hvalid, hkey, ?_⟩
    · rw [fst_checkPermissions_congr hpermissions, hpermitted]
    · rw [htransactions]
      exact hfree
  exact ⟨hone t' t htransactions.symm hregistry.symm hpermissions.symm,
    hone t t' htransactions hregistry hpermissions⟩

/-- Marking a proposal failed leaves them alone. -/
theorem mProposalMarkFailed_fixes (env : Env) (params : Obj) :
    Prog.Keeps (Prog.Fixes createView) (mProposalMarkFailed env params) := by
  have hid : Prog.Keeps (Prog.Fixes createView) (requireId "proposal_id" params) :=
    .ite (.pure _) (.throw _)
  exact .bind hid fun _ => .bind (fun _ => rfl) fun _ => .bind (.pure _) fun _ => .pure _

end Create

section Rollback

variable {env : Env} {params : Obj} {t t' : Tunnel} {k : Key} {u : Obj} {r : Json}

/-- Looking a transaction up changes nothing and answers a stored record. -/
theorem findTransaction_ok {found : Json × Obj}
    (h : (findTransaction params).exec t = (.ok found, t')) :
    found.1 = Obj.get params "transaction_id" ∧ t' = t ∧
      (Obj.get params "transaction_id").truthy = true ∧
      ∃ k, (Obj.get params "transaction_id").key? = some k ∧
        t.transactions.records.get? k = some found.2 := by
  unfold findTransaction requireId at h
  by_cases hid : (Obj.get params "transaction_id").truthy = true
  · rw [if_pos hid, Prog.exec_bind_ok (Prog.exec_pure _ _)] at h
    cases hkey : (Obj.get params "transaction_id").key? with
    | none =>
      simp [Prog.exec_bind, TransactionStore.get, getRecord, hashKey, hkey] at h
    | some k =>
      simp only [Prog.exec_bind, exec_onTransactions, TransactionStore.get, getRecord, hashKey, hkey,
        Prog.exec_ofExcept, Prog.exec_get, Prog.exec_pure] at h
      cases hrec : t.transactions.records.get? k with
      | none => simp [hrec] at h
      | some u =>
        simp only [hrec, Prog.exec_pure, Prod.mk.injEq, Except.ok.injEq] at h
        obtain ⟨rfl, rfl⟩ := h
        exact ⟨rfl, rfl, hid, k, rfl, hrec⟩
  · rw [if_neg hid, Prog.exec_bind_error (Prog.exec_throw _ _)] at h
    simp at h

/-- An accepted `transaction.rollback` answers an applied record and its values before. -/
theorem mTransactionRollback_ok (h : (mTransactionRollback params).exec t = (.ok r, t')) :
    t' = t ∧ (Obj.get params "transaction_id").truthy = true ∧
      ∃ k u, (Obj.get params "transaction_id").key? = some k ∧
      t.transactions.records.get? k = some u ∧ Obj.get u "status" = .str "applied" ∧
      r = .obj [("transaction", .obj u), ("restore", Obj.getD u "before" (.arr []))] := by
  unfold mTransactionRollback at h
  replace h := Prog.exec_bind_eq_ok h
  obtain ⟨⟨id, u⟩, t₁, hfound, h⟩ := h
  obtain ⟨rfl, rfl, hid, k, hkey, hrec⟩ := findTransaction_ok hfound
  dsimp only at h hrec
  by_cases hstatus : (Obj.get u "status").pyEq (.str "applied") = true
  · simp only [hstatus, if_true, Prog.exec_pure, Prod.mk.injEq, Except.ok.injEq] at h
    obtain ⟨rfl, rfl⟩ := h
    exact ⟨rfl, hid, k, u, hkey, hrec, Json.pyEq_str.mp hstatus, rfl⟩
  · simp [hstatus] at h

/-- An applied transaction may be rolled back and may be marked failed. -/
theorem transactionTransition_of_applied {new : TransactionStatus}
    (hnew : new ∈ TransactionStatus.applied.transitions) (h : Obj.get u "status" = .str "applied") :
    transactionTransition new u = .ok (Obj.set u "status" (.str new.name)) := by
  refine Lifecycle.transition_eq_ok.mpr ⟨⟨.applied, ?_, hnew⟩, rfl⟩
  have hlookup : u.lookup "status" = some (.str "applied") := by
    unfold Obj.get Obj.getD at h
    cases hl : u.lookup "status" with
    | none => simp [hl] at h
    | some v => simpa [hl] using h
  show Obj.getD u "status" _ = _
  rw [Obj.getD, hlookup]
  rfl

/-- Marking an applied transaction writes its status, whatever happens after that. -/
theorem exec_setStatus_applied (env : Env) {new : TransactionStatus} {id : Json} {st : Store}
    (hnew : new ∈ TransactionStatus.applied.transitions) (hkey : id.key? = some k)
    (hrec : st.records.get? k = some u) (h : Obj.get u "status" = .str "applied") :
    ((TransactionStore.setStatus env new id).exec st).2.records =
      st.records.insert k (Obj.set u "status" (.str new.name)) := by
  obtain ⟨writes, hexec⟩ := exec_setStatus env "transaction_id" "unknown transaction_id: %s" hkey hrec
    (transactionTransition_of_applied hnew h)
  rw [TransactionStore.setStatus, hexec]

/-- Marking an applied transaction rolled back. -/
theorem mTransactionMarkRolledBack_records (hid : (Obj.get params "transaction_id").truthy = true)
    (hkey : (Obj.get params "transaction_id").key? = some k)
    (hrec : t.transactions.records.get? k = some u) (h : Obj.get u "status" = .str "applied") :
    ((mTransactionMarkRolledBack env params).exec t).2.transactions.records =
      t.transactions.records.insert k (Obj.set u "status" (.str "rolled_back")) := by
  have hset := exec_setStatus_applied env (show .rolledBack ∈ _ by decide) hkey hrec h
  have hrest := Prog.Keeps.of_rest
    (m := (onTransactions (TransactionStore.markRolledBack env
      (Obj.get params "transaction_id"))).mapError lookupErrorAsRpc)
    (f := fun u => do
      onProposals (linkProposal env (Obj.get u "proposal_id") .applied .rolledBack)
      transactionRolledBack env (Obj.get params "transaction_id") u)
    (R := Prog.Fixes Tunnel.transactions)
    (fun u => .bind (fun _ => rfl) fun _ => .bind (fun _ => rfl) fun _ => .pure _) t
  unfold mTransactionMarkRolledBack requireId
  rw [if_pos hid, Prog.exec_bind_ok (Prog.exec_pure _ _), congrArg Store.records hrest]
  exact hset

/-- Marking an applied transaction failed. -/
theorem mTransactionMarkFailed_records (hid : (Obj.get params "transaction_id").truthy = true)
    (hkey : (Obj.get params "transaction_id").key? = some k)
    (hrec : t.transactions.records.get? k = some u) (h : Obj.get u "status" = .str "applied") :
    ((mTransactionMarkFailed env params).exec t).2.transactions.records =
      t.transactions.records.insert k (Obj.set u "status" (.str "failed")) := by
  have hset := exec_setStatus_applied env (show .failed ∈ _ by decide) hkey hrec h
  have hrest := Prog.Keeps.of_rest
    (m := (onTransactions (TransactionStore.markFailed env
      (Obj.get params "transaction_id"))).mapError lookupErrorAsRpc)
    (f := fun u => pure (Json.obj [("transaction", .obj u)]))
    (R := Prog.Fixes Tunnel.transactions) (fun u => .pure _) t
  unfold mTransactionMarkFailed requireId
  rw [if_pos hid, Prog.exec_bind_ok (Prog.exec_pure _ _), congrArg Store.records hrest]
  exact hset

end Rollback

end VirtuosoFlow.Tunnel
