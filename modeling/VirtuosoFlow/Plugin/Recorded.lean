import VirtuosoFlow.Tunnel.Replies
import VirtuosoFlow.Plugin.Transaction

/-!
# What the tunnel records for the plugin

A transaction the plugin sends is stored under a fresh id with the members it was sent with,
and the answer names it. A rollback is answered with the stored record. These are the facts
about the tunnel that the plugin's transactions rest on.
-/

namespace VirtuosoFlow.Plugin

open Base Tunnel

/-- The id of the transaction that a call has the tunnel record. -/
def transactionId (s : Session) : String := "t_" ++ s.env.uuid

/-- A record as the plugin sends it: no member twice, and no id. -/
structure Sendable (txn : Obj) : Prop where
  unique : UniqueMembers txn
  noId : txn.lookup "transaction_id" = none

/-- The record stored for a sent one. -/
structure StoredFor (s : Session) (txn u : Obj) : Prop where
  unique : UniqueMembers u
  id : Obj.get u "transaction_id" = .str (transactionId s)
  kept : ∀ f v, f ∉ boundMembers → txn.lookup f = some v → u.lookup f = some v
  before : txn.lookup "before" = none → Obj.getD u "before" (.arr []) = .arr []
  checkpoint : u.lookup "checkpoint" = txn.lookup "checkpoint"

section Create

variable {s : Session} {txn u : Obj} {w : World}

/-- The record that the tunnel stores for a sent transaction. -/
theorem storedFor_of_stores {t : Tunnel.Tunnel} {i : Key} {params : Obj} (hsent : Sendable txn)
    (hparams : Obj.get params "transaction" = .obj txn) (h : StoresTransaction s.env params t i u) :
    StoredFor s txn u ∧ i = .str (transactionId s) := by
  obtain ⟨data, data', t', hdata, hbound, rfl, _, _, hkey, _⟩ := h
  obtain rfl : txn = data := by simpa [hparams] using hdata
  obtain ⟨hunique, hlookup⟩ := bindActor_lookup hbound
  have hnoId : data'.lookup "transaction_id" = none := by
    rw [hlookup _ (by decide), hsent.noId]
  have hid : Obj.get (makeTransaction s.env data') "transaction_id" = .str (transactionId s) :=
    makeTransaction_id hnoId
  refine ⟨⟨makeTransaction_unique (hunique hsent.unique), hid, ?_, ?_, ?_⟩, ?_⟩
  · intro f v hf hv
    have hne : f ≠ "transaction_id" := by
      rintro rfl
      simp [hsent.noId] at hv
    exact makeTransaction_lookup hne ((hlookup f hf).trans hv)
  · intro hbefore
    exact makeTransaction_before ((hlookup _ (by decide)).trans hbefore)
  · rw [makeTransaction_absent (by decide), hlookup _ (by decide)]
  · rw [hid] at hkey
    exact (Option.some.inj hkey).symm

/-- A transaction that is accepted is stored under its new id, and the answer shows it. -/
theorem sendTransaction_ok (hsent : Sendable txn) (h : (sendTransaction s txn w).1.ok = true) :
    ∃ u, StoredFor s txn u ∧ w.tunnel.transactions.records.get? (.str (transactionId s)) = none ∧
      (sendTransaction s txn w).1.payload = Value.ofJson (.obj [("transaction", .obj u)]) ∧
      (sendTransaction s txn w).2.tunnel.transactions.records =
        w.tunnel.transactions.records.insert (.str (transactionId s)) u ∧
      (sendTransaction s txn w).2.inFlight = w.inFlight := by
  unfold sendTransaction at h ⊢
  obtain ⟨_, heq⟩ := vfpRpcFile_ok h
  rw [heq] at h ⊢
  obtain ⟨result, hexec, hpayload, hflight⟩ := vfpRpcExec_ok h
  have htransaction : Obj.get [("session_id", Json.str (s.sessionId.getD "")),
      ("actor", .str (s.actor.getD "user")), ("transaction", .obj txn)] "transaction" = .obj txn := rfl
  generalize [("session_id", Json.str (s.sessionId.getD "")), ("actor", .str (s.actor.getD "user")),
    ("transaction", .obj txn)] = params at *
  have hcreate : (mTransactionCreate s.env params).exec w.tunnel =
    (.ok result, (vfpRpcExec s .transactionCreate params w).2.tunnel) := hexec
  obtain ⟨i, u, hstores, rfl, hrecords⟩ := mTransactionCreate_ok hcreate
  obtain ⟨hstored, rfl⟩ := storedFor_of_stores hsent htransaction hstores
  obtain ⟨_, _, _, _, _, _, _, _, _, hfree⟩ := hstores
  exact ⟨u, hstored, hfree, hpayload, hrecords, hflight⟩

/-- A call does not touch the design. -/
@[simp] theorem db_sendTransaction : (sendTransaction s txn w).2.db = w.db := db_vfpRpcFile

/-- The answer to an accepted transaction names its id. -/
theorem vfpAlistGet_created (h : StoredFor s txn u) :
    vfpAlistGet (vfpAlistGet (Value.ofJson (.obj [("transaction", .obj u)])) "transaction")
      "transaction_id" = .str (transactionId s) := by
  rw [vfpAlistGet_obj (by simp), show Obj.get [("transaction", Json.obj u)] "transaction" = .obj u from rfl,
    vfpAlistGet_obj h.unique, h.id]
  rfl

/-- The records of schematic transactions can be sent. -/
theorem sendable_schematicRecord (s : Session) (pid lib cell : Value) (before after : Json)
    (connectivity : Option Json) (ckptView : Option String) :
    Sendable (schematicRecord s pid lib cell before after connectivity ckptView) := by
  cases connectivity <;> cases ckptView <;> exact ⟨by simp [UniqueMembers, schematicRecord], rfl⟩

end Create

section Rollback

variable {s : Session} {tid : String} {w : World}

/-- A rollback that is answered finds an applied record, and changes nothing. -/
theorem rollback_ok
    (h : (vfpRpcParam s .transactionRollback "transaction_id" tid w).1.ok = true) :
    tid ≠ "" ∧ ∃ u, w.tunnel.transactions.records.get? (.str tid) = some u ∧
      Obj.get u "status" = .str "applied" ∧
      (vfpRpcParam s .transactionRollback "transaction_id" tid w).1.payload =
        Value.ofJson (.obj [("transaction", .obj u), ("restore", Obj.getD u "before" (.arr []))]) ∧
      (vfpRpcParam s .transactionRollback "transaction_id" tid w).2 = w := by
  unfold vfpRpcParam at h ⊢
  obtain ⟨result, hexec, hpayload, hflight⟩ := vfpRpcExec_ok h
  have hrollback : (mTransactionRollback [("transaction_id", .str tid)]).exec w.tunnel = _ := hexec
  obtain ⟨htunnel, hid, k, u, hkey, hrec, hstatus, rfl⟩ := mTransactionRollback_ok hrollback
  obtain rfl : Key.str tid = k := by simpa [Obj.get, Obj.getD] using hkey
  have htid : tid ≠ "" := by simpa [Obj.get, Obj.getD] using hid
  refine ⟨htid, u, hrec, hstatus, hpayload, ?_⟩
  have hdb : (vfpRpcExec s .transactionRollback [("transaction_id", .str tid)] w).2.db = w.db :=
    db_vfpRpcExec
  generalize (vfpRpcExec s .transactionRollback [("transaction_id", .str tid)] w).2 = w' at *
  obtain ⟨db, tunnel, inFlight⟩ := w'
  simp only at hdb htunnel hflight
  rw [hdb, htunnel, hflight]

/-- Reading the two parts of the answer to a rollback. -/
theorem vfpAlistGet_rollback (u : Obj) (restore : Json) :
    vfpAlistGet (Value.ofJson (.obj [("transaction", .obj u), ("restore", restore)])) "transaction" =
        Value.ofJson (.obj u) ∧
      vfpAlistGet (Value.ofJson (.obj [("transaction", .obj u), ("restore", restore)])) "restore" =
        Value.ofJson restore := by
  constructor <;> exact vfpAlistGet_obj (by simp) _

/-- An applied record that is marked has the new status, if the request gets through. -/
theorem markRolledBack_records {u : Obj} (hserved : (s.exchange .transactionMarkRolledBack).Served)
    (htid : tid ≠ "") (hrec : w.tunnel.transactions.records.get? (.str tid) = some u)
    (hstatus : Obj.get u "status" = .str "applied") :
    (markRolledBack s tid w).tunnel.transactions.records =
      w.tunnel.transactions.records.insert (.str tid) (Obj.set u "status" (.str "rolled_back")) := by
  have hmark : ((mTransactionMarkRolledBack s.env [("transaction_id", .str tid)]).exec
      w.tunnel).2.transactions.records =
        w.tunnel.transactions.records.insert (.str tid) (Obj.set u "status" (.str "rolled_back")) :=
    mTransactionMarkRolledBack_records (by simpa [Obj.get, Obj.getD] using htid) (by rfl) hrec hstatus
  rw [markRolledBack, vfpRpcParam, vfpRpcExec_served hserved]
  exact hmark

/-- Marking a transaction as rolled back leaves the design. -/
@[simp] theorem db_markRolledBack : (markRolledBack s tid w).db = w.db := db_vfpRpcExec

/-- So does marking it as failed. -/
@[simp] theorem db_markTransactionFailed : (markTransactionFailed s tid w).db = w.db := db_vfpRpcExec

/-- So does marking a proposal as failed. -/
@[simp] theorem db_markProposalFailed {pid : Value} : (markProposalFailed s pid w).db = w.db :=
  db_vfpRpcExec

end Rollback

section Moves

variable {s : Session} {method : Method} {params : Obj} {w w' w'' : World} {k : Key} {u u' : Obj}

/-- Transactions arrive, and move to rolled back or failed. -/
def TxnsMove (w w' : World) : Prop :=
  Store.Evolves (fun _ _ => True) (transactionNext [.rolledBack, .failed]) w.tunnel.transactions
    w'.tunnel.transactions

/-- Transactions that stay as they are move on. -/
theorem TxnsMove.refl (w : World) : TxnsMove w w := Std.Refl.refl w.tunnel.transactions

/-- So do those that move on twice. -/
theorem TxnsMove.trans (h : TxnsMove w w') (h' : TxnsMove w' w'') : TxnsMove w w'' :=
  Relation.ReflTransGen.trans h h'

/-- No request moves a transaction to applied. -/
theorem transactionTargets_law (method : Method) :
    ∀ b ∈ method.law.transactionTargets, b ∈ [TransactionStatus.rolledBack, .failed] := by
  cases method <;> decide

/-- Whatever is asked of the tunnel, and whatever becomes of the request. -/
theorem txnsMove_vfpRpcExec : TxnsMove w (vfpRpcExec s method params w).2 := by
  have hserve : TxnsMove w (w.serve s.env method params) := by
    refine Evolves.mono (fun _ _ _ => trivial) ?_ (handle_keeps s.env method params w.tunnel).transactions
    rintro r r' ⟨a, b, hat, hb, hrest⟩
    exact ⟨a, b, hat, transactionTargets_law method b hb, hrest⟩
  unfold vfpRpcExec
  split
  · exact hserve
  · exact .refl w
  · exact hserve
  · exact .refl w

/-- The same for the two marks, after the design has changed. -/
theorem txnsMove_marks (s : Session) (tid : String) (w : World) (db : Database) :
    TxnsMove w (markRolledBack s tid { w with db := db }) ∧
      TxnsMove w (markTransactionFailed s tid { w with db := db }) := by
  have hmark : ∀ method, TxnsMove { w with db := db }
      (vfpRpcExec s method [("transaction_id", .str tid)] { w with db := db }).2 :=
    fun _ => txnsMove_vfpRpcExec
  exact ⟨hmark _, hmark _⟩

/-- Recording a transaction lets the others stay. -/
theorem txnsMove_sendTransaction {txn : Obj} : TxnsMove w (sendTransaction s txn w).2 := by
  unfold sendTransaction vfpRpcFile
  split
  · split
    · exact txnsMove_vfpRpcExec
    · exact .refl w
  · exact .refl w

/-- A record whose status is read as a text is in that status. -/
theorem statusOf_of_get {x : String} (h : Obj.get u "status" = .str x) :
    transactionLifecycle.statusOf u = .str x := by
  unfold Lifecycle.statusOf Obj.getD
  unfold Obj.get Obj.getD at h
  cases hlookup : u.lookup "status" with
  | none =>
    rw [hlookup] at h
    cases h
  | some status =>
    rw [hlookup] at h
    exact h

/-- A stored transaction stays stored, and one that is still applied was not touched. -/
theorem TxnsMove.stored (h : TxnsMove w w') (hrec : w.tunnel.transactions.records.get? k = some u) :
    ∃ u', w'.tunnel.transactions.records.get? k = some u' ∧
      (Obj.get u' "status" = .str "applied" → u' = u) := by
  obtain ⟨u', hrec', hpath⟩ := Evolves.advanced h hrec
  refine ⟨u', hrec', ?_⟩
  intro happlied
  have happlied' : transactionLifecycle.At u' .applied := statusOf_of_get happlied
  cases hpath.cases_tail with
  | inl heq => exact heq
  | inr hlast =>
    obtain ⟨v, _, a, b, _, hb, _, hat, _⟩ := hlast
    rw [hat.eq happlied'] at hb
    simp at hb

end Moves

end VirtuosoFlow.Plugin
