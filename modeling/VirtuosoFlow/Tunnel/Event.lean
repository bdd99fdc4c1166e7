import VirtuosoFlow.Tunnel.RecordStore

/-!
# The event log and the session registry

`EventLog.emit` (`event/manager.py`) and the parts of `session/registry.py` that
the proposal, transaction and job requests use.
-/

namespace VirtuosoFlow.Tunnel

open Base

/-- The event log: the last number given out, the events kept in memory, and the lines
written to the log file. -/
structure EventLog where
  seq : ℕ
  recent : List Obj
  lines : List Obj

/-- A log freshly constructed over an empty directory. -/
def EventLog.empty : EventLog := ⟨0, [], []⟩

/-- `DEFAULT_RETAIN`. -/
def defaultRetain : ℕ := 2000

/-- `emit(etype, payload)`. -/
def EventLog.emit (env : Env) (etype : String) (payload : Obj) (log : EventLog) : EventLog :=
  let e : Obj := [("seq", .int (log.seq + 1)), ("ts", env.stamp), ("type", .str etype),
    ("payload", .obj payload)]
  let events := log.recent ++ [e]
  { seq := log.seq + 1
    recent := events.drop (events.length - defaultRetain)
    lines := if env.dirsOk && env.writable "events.jsonl" then log.lines ++ [e] else log.lines }

namespace Registry

/-- `touch(sid)`. -/
def touch (env : Env) (sid : Json) : Prog PyExc Store Unit := do
  let key ← Prog.ofExcept (hashKey sid)
  let st ← get
  match st.records.get? key with
  | none => return ()
  | some rec =>
    let seen := Obj.set (Obj.set rec "last_seen" env.stamp) "_last_ts" (.float (.finite env.now))
    set { st with records := st.records.insert key seen }
    persist env "session_id" seen

/-- `get(sid)`. -/
def get (sid : Json) : Prog PyExc Store (Option Obj) := getRecord sid

/-- The members of a client that identify its Virtuoso process. -/
def fingerprintMembers : List String :=
  ["virtuoso_pid", "virtuoso_start", "display", "cds_lib"]

/-- The identifying members of a client that are true. -/
def fingerprintOf (client : Json) : Except PyExc Obj :=
  match client with
  | .obj members => .ok (fingerprintMembers.filterMap fun k =>
      if (Obj.get members k).truthy then some (k, Obj.get members k) else none)
  | _ => .error .attributeError

/-- `_session_fingerprint(sid)`. -/
def sessionFingerprint (sid : Json) : Prog PyExc Store (Option Obj) := do
  if !sid.truthy then return none
  let rec ← get sid
  let fp ← Prog.ofExcept (fingerprintOf (pyOr (Obj.get (rec.getD []) "client") (.obj [])))
  return if fp.isEmpty then none else some fp

end Registry

end VirtuosoFlow.Tunnel
