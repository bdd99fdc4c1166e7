import VirtuosoFlow.Tunnel.RecordStore
import VirtuosoFlow.Tunnel.Lifecycle

/-!
# Transactions

The transaction model (`transaction/model.py`) and its store (`transaction/manager.py`).
-/

namespace VirtuosoFlow.Tunnel

open Base

/-- The statuses of a transaction. -/
inductive TransactionStatus where
  | applied | failed | rolledBack
  deriving DecidableEq

/-- How the records spell a status. -/
def TransactionStatus.name : TransactionStatus → String
  | .applied => "applied"
  | .failed => "failed"
  | .rolledBack => "rolled_back"

/-- `TRANSITIONS`. -/
def TransactionStatus.transitions : TransactionStatus → List TransactionStatus
  | .applied => [.rolledBack, .failed]
  | .failed => []
  | .rolledBack => []

/-- The state machine of transactions. -/
def transactionLifecycle : Lifecycle TransactionStatus where
  name := TransactionStatus.name
  name_injective := by intro a b; cases a <;> cases b <;> simp [TransactionStatus.name]
  all := [.applied, .failed, .rolledBack]
  mem_all := by intro a; cases a <;> simp
  first := .applied
  transitions := TransactionStatus.transitions

/-- `make_transaction(data)`. -/
def makeTransaction (env : Env) (data : Obj) : Obj :=
  let t := if (Obj.get data "transaction_id").truthy then data
    else Obj.set data "transaction_id" (.str ("t_" ++ env.uuid))
  let t := Obj.setDefault t "schema_version" (.str "0.1")
  let t := Obj.setDefault t "status" (.str "applied")
  let t := Obj.setDefault t "before" (.arr [])
  let t := Obj.setDefault t "after" (.arr [])
  let t := Obj.setDefault t "timestamp" env.stamp
  Obj.setDefault t "created_ts" (.float (.finite env.now))

/-- `transition(transaction, new_status)`. -/
def transactionTransition (new : TransactionStatus) : Obj → Except PyExc Obj :=
  transactionLifecycle.transition (fun t => Obj.set t "status" (.str new.name)) new

namespace TransactionStore

/-- `add(transaction)`. -/
def add (env : Env) (transaction : Obj) : Prog PyExc Store Obj := do
  if !(Obj.get transaction "transaction_id").truthy then
    throw (.valueError (.text "transaction missing transaction_id" []))
  insertNew "transaction_id" "duplicate transaction_id: %s" transaction
  persist env "transaction_id" transaction
  return transaction

/-- `get(transaction_id)`. -/
def get (id : Json) : Prog PyExc Store (Option Obj) := getRecord id

/-- `list(status)`: newest first by the pair of epoch and timestamp. -/
def list (status : Json) : Prog PyExc Store (List Obj) :=
  listRecords
    (fun t => .arr [Obj.getD t "created_ts" (.int 0), Obj.getD t "timestamp" (.str "")]) status

/-- `_set_status(transaction_id, new_status)`. -/
def setStatus (env : Env) (new : TransactionStatus) (id : Json) : Prog PyExc Store Obj :=
  Tunnel.setStatus env "transaction_id" "unknown transaction_id: %s"
    (transactionTransition new) id

/-- `mark_rolled_back(transaction_id)`. -/
def markRolledBack (env : Env) (id : Json) : Prog PyExc Store Obj :=
  setStatus env .rolledBack id

/-- `mark_failed(transaction_id)`. -/
def markFailed (env : Env) (id : Json) : Prog PyExc Store Obj := setStatus env .failed id

end TransactionStore

section Effects

variable {fresh : Key → Obj → Prop} {targets : List TransactionStatus}
variable {env : Env} {t t' : Obj} {id : Json} {new : TransactionStatus} {st : Store}

/-- A transaction moves into one of `targets`; only its status changes. -/
def transactionNext (targets : List TransactionStatus) : Obj → Obj → Prop :=
  transactionLifecycle.Step targets ["status"]

/-- A passing transition moves along an edge into its target. -/
theorem transactionNext_of_transition (hnew : new ∈ targets)
    (h : transactionTransition new t = .ok t') : transactionNext targets t t' := by
  apply Lifecycle.step_of_transition _ _ hnew h
  · simp [Lifecycle.At, Lifecycle.statusOf, Obj.getD, transactionLifecycle]
  · intro f hf
    have hne : f ≠ "status" := by simpa using hf
    simp [hne]

namespace TransactionStore

/-- Setting a status lets the transactions evolve. -/
theorem setStatus_keeps (hnew : new ∈ targets) :
    Prog.Keeps (Store.Evolves fresh (transactionNext targets)) (setStatus env new id) :=
  Tunnel.setStatus_keeps fun _ _ h => transactionNext_of_transition hnew h

/-- Listing leaves them. -/
theorem list_keeps :
    Prog.Keeps (Store.Evolves fresh (transactionNext targets)) (list id) := listRecords_keeps

/-- Adding one lets them evolve. -/
theorem add_keeps (hfresh : ∀ k, (Obj.get t "transaction_id").key? = some k → fresh k t) :
    Prog.Keeps (Store.Evolves fresh (transactionNext targets)) (add env t) := by
  intro st
  unfold add
  split
  · exact Std.Refl.refl st
  · exact Prog.Keeps.bind (insertNew_keeps hfresh)
      (fun _ => .bind persist_keeps fun _ => .pure _) st

/-- What `add` can do: raise and leave the records alone, or store the record under the key
of its id, which was free; after that only writing the file can raise. -/
theorem add_cases (env : Env) (t : Obj) (st : Store) :
    (∃ e, (add env t).exec st = (.error e, st)) ∨
    ∃ k writes, (Obj.get t "transaction_id").key? = some k ∧ st.records.get? k = none ∧
      (add env t).exec st = ((persistError env "transaction_id" t).elim (.ok t) .error,
        { records := st.records.insert k t, writes := writes }) := by
  unfold add
  by_cases hid : (Obj.get t "transaction_id").truthy = true
  · rcases insertNew_cases "transaction_id" "duplicate transaction_id: %s" t st
      with ⟨e, hexec⟩ | ⟨k, hkey, hfree, hexec⟩
    · exact .inl ⟨e, by simp [hid, Prog.exec_bind, hexec]⟩
    · obtain ⟨writes, hpersist⟩ := exec_persist env "transaction_id" t
        { st with records := st.records.insert k t }
      refine .inr ⟨k, writes, hkey, hfree, ?_⟩
      simp only [hid, Bool.not_true, Bool.false_eq_true, if_false, Prog.exec_bind,
        Prog.exec_pure, hexec, hpersist]
      cases persistError env "transaction_id" t <;> rfl
  · exact .inl ⟨_, by simp [hid, Prog.exec_bind]; rfl⟩

end TransactionStore

end Effects

end VirtuosoFlow.Tunnel
