import VirtuosoFlow.Tunnel.Restart

/-!
# Sessions

The session requests of the daemon, served one at a time over the registry and the directory of its
files (`session/registry.py`): registering a client drops idle sessions first and then finds the session of
the same Virtuoso process or makes one. A restart loads the registry from the files.
-/

namespace VirtuosoFlow.Tunnel

open Base Base.Posix JsonText

/-- The live sessions, and the record whose text each file holds. -/
structure SessionHome where
  records : Dict Key Obj
  files : Files

/-- `sessions_dir()`, where paths start at the home. -/
def sessionsDir : Place := StoreName.registry.dir []

namespace SessionHome

/-- The sessions as an operation under the lock finds them: served one at a time, no request holds one that
was removed. -/
def memory (s : SessionHome) : Memory := ⟨s.records, .empty⟩

/-- The texts of the files. -/
def texts (fmt : FloatFormat) (s : SessionHome) : Disk := fun place =>
  (s.files place).map fun r => dumps fmt (some 2) (.obj r)

end SessionHome

namespace Registry

/-- What an operation does to the files after it left the lock. -/
def carryOut (env : Env) : List FileAction → Prog PyExc SessionHome Unit
  | [] => pure ()
  | a :: rest => do
    let s ← MonadState.get
    let files ← Prog.ofExcept (a.run env "session_id" sessionsDir s.memory s.files)
    set { s with files := files }
    carryOut env rest

/-- An operation of the registry: its part under the lock, then its files. -/
def perform (env : Env) (locked : Prog PyExc Memory (List FileAction)) : Prog PyExc SessionHome (List FileAction) := do
  let actions ← locked.zoom SessionHome.memory fun m s => { s with records := m.records }
  carryOut env actions
  return actions

/-- The record that `register` returns: the one it wrote. -/
def returned (s : SessionHome) (saved : List FileAction) : Obj :=
  (saved.head?.bind (FileAction.content s.memory)).getD []

/-- The ids that `reap` returns. -/
def removedIds (actions : List FileAction) : List Json :=
  actions.filterMap fun
    | .unlink (.str sid) => some (.str sid)
    | _ => none

end Registry

/-- `float(v)`. -/
def pyFloat (env : Env) : Json → Except PyExc PyFloat
  | .str s =>
    match env.floatOf s with
    | some x => .ok x
    | none => .error (.valueError (.text "could not convert string to float" []))
  | v =>
    match v.number? with
    | none => .error .typeError
    | some (.finite q) =>
      match env.round q with
      | .finite x => .ok (.finite x)
      | _ => .error .overflowError
    | some x => .ok x

/-- `_m_session_register`, but for its log line; `ttl` is `session_ttl_s()` as a float. -/
def mSessionRegister (env : Env) (ttl : PyFloat) (params : Obj) : Prog PyExc SessionHome Json := do
  let _ ← Registry.perform env (Registry.reap env ttl)
  let saved ← Registry.perform env (Registry.register env (Obj.getD params "client" (.obj [])))
  let session := Registry.returned (← MonadState.get) saved
  let sid ← Prog.ofExcept (getItem session "session_id")
  let registeredAt ← Prog.ofExcept (getItem session "created_at")
  return .obj [("session_id", sid), ("registered_at", registeredAt),
    ("reconnects", Obj.getD session "reconnects" (.int 0))]

/-- `_m_session_ping`. -/
def mSessionPing (env : Env) (params : Obj) : Prog PyExc SessionHome Json := do
  let sid := Obj.get params "session_id"
  if sid.truthy then
    let _ ← Registry.perform env (Registry.touchLocked env sid)
  return .obj [("pong", .bool true), ("time", env.stamp), ("session_id", sid)]

/-- The limit that `_m_session_reap` passes on. -/
def reapLimit (env : Env) (ttl : PyFloat) (params : Obj) : Except PyExc PyFloat :=
  match Obj.get params "max_idle_s" with
  | .null => .ok ttl
  | maxIdle => if maxIdle.truthy then pyFloat env maxIdle else .ok (.finite 0)

/-- `_m_session_reap`, but for its log line. -/
def mSessionReap (env : Env) (ttl : PyFloat) (params : Obj) : Prog PyExc SessionHome Json := do
  let limit ← Prog.ofExcept (reapLimit env ttl params)
  let actions ← Registry.perform env (Registry.reap env limit)
  let removed := Registry.removedIds actions
  return .obj [("removed", .arr removed), ("count", .int removed.length)]

/-- The session requests and restarts. -/
inductive SessionInput where
  | register (env : Env) (ttl : PyFloat) (params : Obj)
  | ping (env : Env) (params : Obj)
  | reap (env : Env) (ttl : PyFloat) (params : Obj)
  /-- A new process, with the names that `glob` gives. -/
  | restart (names : List (List Char))

/-- One input; a process that cannot load the registry does not start. -/
def SessionHome.step (fmt : FloatFormat) : SessionInput → SessionHome → Except PyExc Json × SessionHome
  | .register env ttl params, s => (mSessionRegister env ttl params).exec s
  | .ping env params, s => (mSessionPing env params).exec s
  | .reap env ttl params, s => (mSessionReap env ttl params).exec s
  | .restart names, s =>
    match loadStore fmt "session_id" (s.texts fmt) sessionsDir names with
    | .ok records => (.ok .null, { s with records := records })
    | .error e => (.error e, s)

/-- The registry of a daemon that starts over a home without sessions. -/
def sessionMachine (fmt : FloatFormat) : Machine SessionHome SessionInput (Except PyExc Json) where
  init s := s = ⟨.empty, fun _ => none⟩
  step := SessionHome.step fmt

/-- A host whose disk works, whose clock tells a float and whose `str` is that of the daemon. -/
structure SteadyHost (fmt : FloatFormat) (daemon env : Env) : Prop where
  disk : WorkingDisk env
  clock : Clock fmt env
  str : env.str = daemon.str

/-- The inputs: any payload, an id that names a file and is not in use, and the files that are there. -/
def SessionInput.Ordinary (fmt : FloatFormat) (daemon : Env) (s : SessionHome) : SessionInput → Prop
  | .register env _ params => SteadyHost fmt daemon env ∧ WellFormed fmt (.obj params) ∧
      PlainId ("s_" ++ env.uuid) ∧ s.records.get? (.str ("s_" ++ env.uuid)) = none
  | .ping env _ | .reap env _ _ => SteadyHost fmt daemon env
  | .restart names => Globs (s.texts fmt) sessionsDir names

end VirtuosoFlow.Tunnel
