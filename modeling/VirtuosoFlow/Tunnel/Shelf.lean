import Mathlib.Logic.Function.Basic
import VirtuosoFlow.Base.Run
import VirtuosoFlow.Tunnel.Containment

/-!
# Stores that several requests use at once

Each operation of the stores changes the records under the lock and writes or removes the files
of the records it changed after it left the lock. Here the two parts are separate steps, and the
steps of any number of requests interleave. The parts under the lock are those of
`proposal/manager.py`, `transaction/manager.py`, `sim/job_store.py` and `session/registry.py`.
The files of all stores lie below one home, each where its id leads from the directory of its
store; of a file the record is kept that it holds the text of.
-/

namespace VirtuosoFlow.Tunnel

open Base Base.Posix

/-- The four stores. -/
inductive StoreName where
  | proposals | transactions | jobs | registry
  deriving DecidableEq

/-- The member that holds the id of a store's records. -/
def StoreName.field : StoreName → String
  | .proposals => "proposal_id"
  | .transactions => "transaction_id"
  | .jobs => "job_id"
  | .registry => "session_id"

/-- `proposals_dir()`, `transactions_dir()`, `jobs_dir()` and `sessions_dir()`. -/
def StoreName.dir (home : Place) : StoreName → Place
  | .proposals => storeDir home "proposals"
  | .transactions => storeDir home "transactions"
  | .jobs => storeDir home "jobs"
  | .registry => storeDir home "sessions"

/-- The files below a home, by the record that each holds. -/
abbrev Files := Place → Option Obj

/-- What a request has still to do to a file when it leaves the lock. -/
inductive FileAction where
  /-- Write a record that nobody changes any more: every update makes a copy. -/
  | write (u : Obj)
  /-- Write a session, which is changed in place, as it is by then. -/
  | save (k : Key)
  /-- Remove the file of a session. -/
  | unlink (k : Key)

/-- The records of a store, and the sessions that were removed: a request may still hold one. -/
structure Memory where
  records : Dict Key Obj
  gone : Dict Key Obj

/-- A store, and what each request has still to do to its files. -/
structure Shelf where
  memory : Memory
  pending : List (List FileAction)

/-- An operation on the records alone. -/
def onRecords {α : Type} (m : Prog PyExc Store α) : Prog PyExc Memory α :=
  m.zoom (fun m => ⟨m.records, []⟩) fun st m => { m with records := st.records }

/-- The locked part of `_set_status` and `_set`. -/
def lockedSet (unknown : String) (transition : Obj → Except PyExc Obj) (id : Json) : Prog PyExc Store Obj := do
  let key ← Prog.ofExcept (hashKey id)
  let st ← get
  match st.records.get? key with
  | none => throw (.keyError (.text unknown [id]))
  | some record =>
    let updated ← Prog.ofExcept (transition record)
    set { st with records := st.records.insert key updated }
    return updated

namespace Registry

/-- One part of `_fingerprint`: `str(client.get(k) or "").strip()`. -/
def fingerprintPart (env : Env) (members : Obj) (k : String) : String :=
  String.ofList (strip (if (Obj.get members k).truthy then env.format (Obj.get members k) else "").toList)

/-- `_fingerprint(client)`. -/
def fingerprint (env : Env) (client : Json) : Option (String × String) :=
  match client with
  | .obj members =>
    let pid := fingerprintPart env members "virtuoso_pid"
    let start := fingerprintPart env members "virtuoso_start"
    if pid != "" && start != "" then some (pid, start) else none
  | _ => none

/-- `n + 1`. -/
def successor (env : Env) (n : Json) : Except PyExc Json :=
  match n with
  | .int n => .ok (.int (n + 1))
  | .bool b => .ok (.int ((if b then 1 else 0) + 1))
  | .float (.finite q) => .ok (.float (env.round (q + 1)))
  | .float x => .ok (.float x)
  | _ => .error .typeError

/-- The session of the same Virtuoso process, if there is one. -/
def sameProcess (env : Env) (client : Json) (records : Dict Key Obj) : Option (Key × Obj) :=
  (fingerprint env client).bind fun fp =>
    records.entries.find? fun e => fingerprint env (Obj.get e.2 "client") == some fp

/-- A session seen now. -/
def seen (env : Env) (rec : Obj) : Obj :=
  Obj.set (Obj.set rec "last_seen" env.stamp) "_last_ts" (.float (.finite env.now))

/-- A session that `register` makes. -/
def newSession (env : Env) (client : Json) (sid : String) : Obj :=
  [("session_id", .str sid), ("client", client), ("created_at", env.stamp), ("last_seen", env.stamp),
    ("reconnects", .int 0), ("_created_ts", .float (.finite env.now)),
    ("_last_ts", .float (.finite env.now))]

/-- The locked part of `register(client)`. A session that is found is changed in place, member by
member. -/
def register (env : Env) (client : Json) : Prog PyExc Memory (List FileAction) := do
  let client := pyOr client (.obj [])
  let m ← MonadState.get
  match sameProcess env client m.records with
  | some (key, existing) =>
    let existing := seen env (Obj.set existing "client" client)
    set { m with records := m.records.insert key existing }
    let reconnects ← Prog.ofExcept (successor env (Obj.getD existing "reconnects" (.int 0)))
    set { m with records := m.records.insert key (Obj.set existing "reconnects" reconnects) }
    return [.save key]
  | none =>
    let sid := "s_" ++ env.uuid
    set { m with records := m.records.insert (.str sid) (newSession env client sid) }
    return [.save (.str sid)]

/-- The locked part of `touch(sid)`. -/
def touchLocked (env : Env) (sid : Json) : Prog PyExc Memory (List FileAction) := do
  let key ← Prog.ofExcept (hashKey sid)
  let m ← MonadState.get
  match m.records.get? key with
  | none => return []
  | some rec =>
    set { m with records := m.records.insert key (seen env rec) }
    return [.save key]

/-- `_now() - max_idle_s`. -/
def cutoff (env : Env) : PyFloat → PyFloat
  | .finite q => env.round (env.now - q)
  | .nan => .nan
  | .infinite negative => .infinite !negative

/-- The keys of the sessions last seen before a time. -/
def idle (limit : PyFloat) : List (Key × Obj) → Except PyExc (List Key)
  | [] => .ok []
  | (key, rec) :: rest =>
    match (Obj.getD rec "_last_ts" (.int 0)).lt? (.float limit) with
    | none => .error .typeError
    | some old => (idle limit rest).map fun keys => if old then key :: keys else keys

/-- Memory without these sessions. -/
def forget (removed : List Key) (m : Memory) : Memory where
  records := m.records.filterKeys fun k => !removed.contains k
  gone := removed.foldl (fun gone k => (m.records.get? k).elim gone (gone.insert k)) m.gone

/-- The locked part of `reap(max_idle_s)`. -/
def reap (env : Env) (maxIdle : PyFloat) : Prog PyExc Memory (List FileAction) := do
  if maxIdle == .finite 0 || maxIdle.lt (.finite 0) then return []
  let m ← MonadState.get
  let removed ← Prog.ofExcept (idle (cutoff env maxIdle) m.records.entries)
  set (forget removed m)
  return removed.map .unlink

end Registry

/-- The marks of a job. -/
inductive JobMark where
  | running
  | done (resultId runId : Json)
  | failed (error : Json)
  | cancelled

/-- The status that a mark leads to. -/
def JobMark.status : JobMark → JobStatus
  | .running => .running
  | .done _ _ => .done
  | .failed _ => .failed
  | .cancelled => .cancelled

/-- The fields that a mark sets besides the status. -/
def JobMark.fields : JobMark → Obj
  | .running => []
  | .done resultId runId => presentFields [("result_id", resultId), ("run_id", runId)]
  | .failed error => if error.truthy then [("error", error)] else []
  | .cancelled => []

/-- The operations that change a store. -/
inductive StoreCall where
  | proposalCreate (data : Obj)
  | proposalSet (new : ProposalStatus) (id : Json)
  | proposalExpire
  | transactionAdd (t : Obj)
  | transactionSet (new : TransactionStatus) (id : Json)
  | jobAdd (j : Obj)
  | jobSet (mark : JobMark) (id : Json)
  | sessionRegister (client : Json)
  | sessionTouch (sid : Json)
  | sessionReap (maxIdle : PyFloat)

/-- The store that an operation changes. -/
def StoreCall.store : StoreCall → StoreName
  | .proposalCreate _ | .proposalSet _ _ | .proposalExpire => .proposals
  | .transactionAdd _ | .transactionSet _ _ => .transactions
  | .jobAdd _ | .jobSet _ _ => .jobs
  | .sessionRegister _ | .sessionTouch _ | .sessionReap _ => .registry

/-- The locked part of `ProposalStore.create`, `TransactionStore.add` and `JobStore.add`. -/
def lockedAdd (field duplicate : String) (u : Obj) : Prog PyExc Store Obj := do
  insertNew field duplicate u
  return u

/-- The locked part of `expire_stale`. -/
def lockedExpire (env : Env) : Prog PyExc Store (List Obj) := do
  if env.proposalTtl ≤ 0 then return []
  let st ← get
  ProposalStore.expireEntries env st.records.entries

/-- The part of an operation under the lock, and the files it leaves to be written or removed. -/
def StoreCall.locked (env : Env) : StoreCall → Prog PyExc Memory (List FileAction)
  | .proposalCreate data => do
    let p ← onRecords (lockedAdd "proposal_id" "duplicate proposal_id: %s" (makeProposal env data))
    return [.write p]
  | .proposalSet new id => do
    let p ← onRecords (lockedSet "unknown proposal_id: %s" (proposalTransition env new) id)
    return [.write p]
  | .proposalExpire => do
    let newly ← onRecords (lockedExpire env)
    return newly.map .write
  | .transactionAdd t => do
    if !(Obj.get t "transaction_id").truthy then
      throw (.valueError (.text "transaction missing transaction_id" []))
    let t ← onRecords (lockedAdd "transaction_id" "duplicate transaction_id: %s" t)
    return [.write t]
  | .transactionSet new id => do
    let t ← onRecords (lockedSet "unknown transaction_id: %s" (transactionTransition new) id)
    return [.write t]
  | .jobAdd j => do
    if !(Obj.get j "job_id").truthy then throw (.valueError (.text "job missing job_id" []))
    let j ← onRecords (lockedAdd "job_id" "duplicate job_id: %s" j)
    return [.write j]
  | .jobSet mark id => do
    let j ← onRecords (lockedSet "unknown job_id: %s" (jobTransition env mark.status mark.fields) id)
    return [.write j]
  | .sessionRegister client => Registry.register env client
  | .sessionTouch sid => Registry.touchLocked env sid
  | .sessionReap maxIdle => Registry.reap env maxIdle

/-- Where the file of an id is: `dir / ("%s.json" % id)`. -/
def fileName (s : String) : List Char := (s ++ ".json").toList

/-- `_persist`, for a store whose files are joined to a directory. -/
def writeFile (env : Env) (field : String) (dir : Place) (u : Obj) (files : Files) : Except PyExc Files :=
  match persistError env field u, u.lookup field with
  | some e, _ => .error e
  | none, some (.str s) =>
    .ok (if env.dirsOk && env.writable (s ++ ".json") then
      Function.update files (locate dir (fileName s)) (some u) else files)
  | none, _ => .ok files

/-- Removing the file of an id; an `OSError` is dropped, and the permissions of the directory decide as
they do for a write. -/
def unlinkFile (env : Env) (dir : Place) (k : Key) (files : Files) : Except PyExc Files :=
  match k with
  | .str s =>
    match env.nameError s with
    | some e => .error e
    | none =>
      .ok (if env.writable (s ++ ".json") then Function.update files (locate dir (fileName s)) none else files)
  | _ => .error .typeError

/-- The record that an action writes, if it is no removal. -/
def FileAction.content (m : Memory) : FileAction → Option Obj
  | .write u => some u
  | .save k => (m.records.get? k).or (m.gone.get? k)
  | .unlink _ => none

/-- Carry an action out. -/
def FileAction.run (env : Env) (field : String) (dir : Place) (m : Memory) (files : Files) :
    FileAction → Except PyExc Files
  | .write u => writeFile env field dir u files
  | .save k => ((m.records.get? k).or (m.gone.get? k)).elim (.ok files) fun u => writeFile env field dir u files
  | .unlink k => unlinkFile env dir k files

/-- A request takes the lock: its operation changes the records and leaves actions on files. -/
def Shelf.call (env : Env) (c : StoreCall) (sh : Shelf) : Except PyExc Unit × Shelf :=
  match (c.locked env).exec sh.memory with
  | (.ok actions, m) => (.ok (), { sh with memory := m, pending := sh.pending ++ [actions] })
  | (.error e, m) => (.error e, { sh with memory := m })

/-- A request takes its next action; if it raises the request is over. -/
def Shelf.proceed (env : Env) (field : String) (dir : Place) (i : ℕ) (files : Files) (sh : Shelf) :
    Except PyExc Unit × Shelf × Files :=
  match sh.pending[i]? with
  | some (a :: rest) =>
    match a.run env field dir sh.memory files with
    | .ok files => (.ok (), { sh with pending := sh.pending.set i rest }, files)
    | .error e => (.error e, { sh with pending := sh.pending.set i [] }, files)
  | _ => (.ok (), sh, files)

/-- A step of a request: into the lock of a store, or on to its next file. -/
inductive ShelfInput where
  | call (env : Env) (c : StoreCall)
  | proceed (env : Env) (name : StoreName) (i : ℕ)

/-- The stores of a daemon, and the files below its home. -/
structure Shelves where
  shelf : StoreName → Shelf
  files : Files

/-- A call is made, or the next one of its file actions is carried out. -/
def Shelves.step (home : Place) : ShelfInput → Shelves → Except PyExc Unit × Shelves
  | .call env c, s =>
    let called := (s.shelf c.store).call env c
    (called.1, { s with shelf := Function.update s.shelf c.store called.2 })
  | .proceed env name i, s =>
    let proceeded := (s.shelf name).proceed env name.field (name.dir home) i s.files
    (proceeded.1, ⟨Function.update s.shelf name proceeded.2.1, proceeded.2.2⟩)

section Sequential

variable {env : Env} {field : String} {dir : Place} {u : Obj}

/-- `_set_status` is its locked part, then the write of its file. -/
theorem setStatus_eq_locked (unknown : String) (transition : Obj → Except PyExc Obj) (id : Json) (st : Store) :
    (setStatus env field unknown transition id).exec st =
      (do let u ← lockedSet unknown transition id; persist env field u; return u : Prog PyExc Store Obj).exec
        st := by
  unfold setStatus lockedSet
  simp only [Prog.exec_bind]
  cases hkey : hashKey id with
  | error e => rfl
  | ok key =>
    simp only [Prog.exec_ofExcept, Prog.exec_get]
    cases hrec : st.records.get? key with
    | none => rfl
    | some record =>
      simp only [Prog.exec_bind]
      cases transition record <;> rfl

/-- `create` is its locked part, then the write of its file. -/
theorem create_eq_locked (data : Obj) (st : Store) : (ProposalStore.create env data).exec st =
    (do
      let p ← lockedAdd "proposal_id" "duplicate proposal_id: %s" (makeProposal env data)
      persist env "proposal_id" p
      return p : Prog PyExc Store Obj).exec st := by
  unfold ProposalStore.create lockedAdd
  simp only [Prog.exec_bind]
  cases (insertNew "proposal_id" "duplicate proposal_id: %s" (makeProposal env data)).exec st with
  | mk r st => cases r <;> rfl

/-- `expire_stale` is its locked part, then the writes of its files. -/
theorem expireStale_eq_locked (st : Store) : (ProposalStore.expireStale env).exec st =
    (do
      let newly ← lockedExpire env
      ProposalStore.persistAll env newly
      Prog.ofExcept (newly.mapM fun u => getItem u "proposal_id") : Prog PyExc Store (List Json)).exec st := by
  unfold ProposalStore.expireStale lockedExpire
  split <;> rfl

/-- The record whose text a file holds. -/
def recordOf : Json → Option Obj
  | .obj u => some u
  | _ => none

/-- The files that a sequence of writes leaves. -/
def filesOf (dir : Place) (writes : List (String × Json)) : Files :=
  writes.foldl
    (fun files w => Function.update files (locate dir w.1.toList)
      (recordOf w.2)) fun _ => none

/-- One more write replaces one file. -/
theorem filesOf_append (dir : Place) (writes : List (String × Json)) (s : String) (u : Obj) :
    filesOf dir (writes ++ [(s ++ ".json", .obj u)]) =
      Function.update (filesOf dir writes) (locate dir (fileName s)) (some u) := by
  unfold filesOf
  rw [List.foldl_append]
  rfl

/-- `_persist` writes to the files what `writeFile` says. -/
theorem persist_writeFile (st : Store) :
    (writeFile env field dir u (filesOf dir st.writes)).map (fun _ => ()) = ((persist env field u).exec st).1 ∧
      ∀ files, writeFile env field dir u (filesOf dir st.writes) = .ok files →
        filesOf dir ((persist env field u).exec st).2.writes = files := by
  unfold writeFile persist
  cases herr : persistError env field u with
  | some e => exact ⟨rfl, fun files h => by cases h⟩
  | none =>
    cases hid : u.lookup field with
    | none =>
      refine ⟨rfl, ?_⟩
      intro files h
      exact Except.ok.inj h
    | some v =>
      cases v with
      | str s =>
        dsimp only
        split
        · refine ⟨rfl, ?_⟩
          intro files h
          rw [← Except.ok.inj h]
          exact filesOf_append dir st.writes s u
        · refine ⟨rfl, ?_⟩
          intro files h
          exact Except.ok.inj h
      | _ =>
        refine ⟨rfl, ?_⟩
        intro files h
        exact Except.ok.inj h

end Sequential

end VirtuosoFlow.Tunnel
