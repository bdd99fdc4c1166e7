import VirtuosoFlow.Tunnel.Event

/-!
# The extension API

The registry of announced namespaces and the store of action requests
(`extension/registry.py`) with their handlers in `daemon.py`. The tunnel only keeps the
requests: a servicer pulls the pending ones, runs them and posts the outcomes.
-/

namespace VirtuosoFlow.Tunnel

open Base

/-- The parts of the daemon behind the extension API. -/
structure Channel where
  extensions : Dict Key Obj
  actions : Dict Key Obj
  events : EventLog

/-- `self.events.emit(etype, payload)`. -/
def Channel.emit (env : Env) (etype : String) (payload : Obj) : Prog PyExc Channel Unit :=
  modify fun c => { c with events := c.events.emit env etype payload }

namespace ExtensionRegistry

/-- `register(namespace, methods, description, meta)`. -/
def register (env : Env) (ns methods description info : Json) : Prog PyExc Channel Obj := do
  match ns with
  | .str name =>
    if name = "" then throw (.valueError (.text "namespace must be a non-empty string" []))
    let methods ← Prog.ofExcept (pyIter (pyOr methods (.arr [])))
    if methods.any fun m => match m with
      | .str _ => false
      | _ => true then
      throw (.valueError (.text "methods must be a list of strings" []))
    let c ← get
    let registered := match c.extensions.get? (.str name) with
      | some known => Obj.get known "registered_at"
      | none => env.stamp
    let announced : Obj := [("namespace", ns), ("methods", .arr methods),
      ("description", pyOr description (.str "")),
      ("meta", match info with
        | .obj members => .obj members
        | _ => .obj []),
      ("registered_at", registered), ("updated_at", env.stamp)]
    modify fun c => { c with extensions := c.extensions.insert (.str name) announced }
    return announced
  | _ => throw (.valueError (.text "namespace must be a non-empty string" []))

/-- `unregister(namespace)`. -/
def unregister (ns : Json) : Prog PyExc Channel Bool := do
  let key ← Prog.ofExcept (hashKey ns)
  let c ← get
  modify fun c => { c with extensions := c.extensions.filterKeys (· ≠ key) }
  return (c.extensions.get? key).isSome

/-- `knows(namespace)`. -/
def knows (ns : Json) : Prog PyExc Channel Bool := do
  let key ← Prog.ofExcept (hashKey ns)
  let c ← get
  return (c.extensions.get? key).isSome

end ExtensionRegistry

namespace ActionStore

/-- The record of a new action. -/
def requested (env : Env) (ns method params : Json) : Obj :=
  [("action_id", .str ("act_" ++ env.uuid)), ("namespace", ns), ("method", method),
    ("params", match params with
      | .obj members => .obj members
      | _ => .obj []),
    ("status", .str "pending"), ("result", .null), ("error", .null),
    ("created_at", env.stamp), ("updated_at", env.stamp)]

/-- `create(namespace, method, params)`. -/
def create (env : Env) (ns method params : Json) : Prog PyExc Channel Obj := do
  if !ns.truthy || !method.truthy then
    throw (.valueError (.text "namespace and method are required" []))
  let action := requested env ns method params
  modify fun c => { c with actions := c.actions.insert (.str ("act_" ++ env.uuid)) action }
  return action

/-- The record of a completed action. -/
def completed (env : Env) (result error : Json) (action : Obj) : Obj :=
  let action := Obj.set action "status" (.str (if error.truthy then "failed" else "done"))
  let action := Obj.set action "result" result
  let action := Obj.set action "error" error
  Obj.set action "updated_at" env.stamp

/-- `complete(action_id, result, error)`. -/
def complete (env : Env) (id result error : Json) : Prog PyExc Channel (Option Obj) := do
  let key ← Prog.ofExcept (hashKey id)
  let c ← get
  match c.actions.get? key with
  | none => return none
  | some action =>
    let action := completed env result error action
    set { c with actions := c.actions.insert key action }
    return some action

/-- `get(action_id)`. -/
def get (id : Json) : Prog PyExc Channel (Option Obj) := do
  let key ← Prog.ofExcept (hashKey id)
  let c ← MonadState.get
  return c.actions.get? key

/-- The filter of `pending(namespace)`. -/
def isPending (ns : Json) (action : Obj) : Bool :=
  (Obj.get action "status").pyEq (.str "pending") && match ns with
    | .null => true
    | _ => (Obj.get action "namespace").pyEq ns

/-- `pending(namespace)`. -/
def pending (ns : Json) : Prog PyExc Channel (List Obj) := do
  let c ← MonadState.get
  return c.actions.values.filter (isPending ns)

end ActionStore

/-- `_m_extension_register`, but for the heartbeat of the session that sends it. -/
def mExtensionRegister (env : Env) (params : Obj) : Prog PyExc Channel Json := do
  let announced ← (ExtensionRegistry.register env (Obj.get params "namespace")
    (Obj.get params "methods") (Obj.getD params "description" (.str ""))
    (Obj.get params "meta")).mapError valueErrorAsRpc
  Channel.emit env "extension.registered"
    [("namespace", Obj.get params "namespace"), ("methods", Obj.get announced "methods")]
  return .obj [("extension", .obj announced)]

/-- `_m_extension_unregister`. -/
def mExtensionUnregister (params : Obj) : Prog PyExc Channel Json := do
  let ns := Obj.get params "namespace"
  if !ns.truthy then throw (rpcError invalidParams "params.namespace required")
  let removed ← ExtensionRegistry.unregister ns
  return .obj [("namespace", ns), ("removed", .bool removed)]

/-- `_m_action_request`. -/
def mActionRequest (env : Env) (params : Obj) : Prog PyExc Channel Json := do
  let ns := Obj.get params "namespace"
  let method := Obj.get params "method"
  if !ns.truthy || !method.truthy then
    throw (rpcError invalidParams "params.namespace and params.method required")
  let action ← (ActionStore.create env ns method (Obj.get params "params")).mapError
    valueErrorAsRpc
  Channel.emit env "action.request"
    [("action_id", Obj.get action "action_id"), ("namespace", ns), ("method", method)]
  let serviced ← ExtensionRegistry.knows ns
  return .obj [("action_id", Obj.get action "action_id"), ("status", Obj.get action "status"),
    ("serviced", .bool serviced)]

/-- `_m_action_pending`. -/
def mActionPending (params : Obj) : Prog PyExc Channel Json := do
  let actions ← ActionStore.pending (Obj.get params "namespace")
  return .obj [("actions", .arr (actions.map .obj)), ("count", .int actions.length)]

/-- `_m_action_complete`. -/
def mActionComplete (env : Env) (params : Obj) : Prog PyExc Channel Json := do
  let aid := Obj.get params "action_id"
  if !aid.truthy then throw (rpcError invalidParams "params.action_id required")
  match ← ActionStore.complete env aid (Obj.get params "result") (Obj.get params "error") with
  | none => throw (rpcError notFound "unknown action_id: %s" [aid])
  | some action =>
    Channel.emit env "action.complete"
      [("action_id", aid), ("status", Obj.get action "status")]
    return .obj [("action_id", aid), ("status", Obj.get action "status")]

/-- `_m_action_get`. -/
def mActionGet (params : Obj) : Prog PyExc Channel Json := do
  let aid := Obj.get params "action_id"
  let action ← if aid.truthy then ActionStore.get aid else pure none
  match action with
  | none => throw (rpcError notFound "unknown action_id: %s" [aid])
  | some action => return .obj [("action", .obj action)]

/-- The methods of the extension API. -/
inductive ChannelMethod where
  | extensionRegister | extensionUnregister
  | actionRequest | actionPending | actionComplete | actionGet
  deriving DecidableEq

/-- The dispatch table: the handler registered for a method. -/
def ChannelMethod.handle (env : Env) : ChannelMethod → Obj → Prog PyExc Channel Json
  | .extensionRegister => mExtensionRegister env
  | .extensionUnregister => mExtensionUnregister
  | .actionRequest => mActionRequest env
  | .actionPending => mActionPending
  | .actionComplete => mActionComplete env
  | .actionGet => mActionGet

section Effects

variable {env : Env} {params : Obj} {c : Channel} {id ns : Json}

/-- An emitted event leaves the actions alone. -/
theorem Channel.emit_fixes (env : Env) (etype : String) (payload : Obj) :
    Prog.Keeps (Prog.Fixes Channel.actions) (Channel.emit env etype payload) := fun _ => rfl

/-- Registering an extension leaves the actions. -/
theorem ExtensionRegistry.register_fixes (env : Env) (ns methods description info : Json) :
    Prog.Keeps (Prog.Fixes Channel.actions)
      (ExtensionRegistry.register env ns methods description info) := by
  unfold ExtensionRegistry.register
  cases ns with
  | str name =>
    dsimp only
    split
    · exact .throw _
    · refine .bind (.ofExcept _) fun _ => ?_
      split
      · exact .throw _
      · refine .bind .get fun _ => .bind ?_ fun _ => .pure _
        exact fun _ => rfl
  | _ => exact .throw _

/-- The announcements leave the actions alone. -/
theorem mExtensionRegister_fixes (env : Env) (params : Obj) :
    Prog.Keeps (Prog.Fixes Channel.actions) (mExtensionRegister env params) :=
  .bind (.mapError (ExtensionRegistry.register_fixes env _ _ _ _)) fun _ =>
    .bind (Channel.emit_fixes env _ _) fun _ => .pure _

/-- Unregistering one leaves the actions. -/
theorem mExtensionUnregister_fixes (params : Obj) :
    Prog.Keeps (Prog.Fixes Channel.actions) (mExtensionUnregister params) := by
  unfold mExtensionUnregister
  dsimp only
  split
  · exact .throw _
  · refine .bind (.bind (.ofExcept _) fun _ => .bind .get fun _ => .bind ?_ fun _ => .pure _)
      fun _ => .pure _
    exact fun _ => rfl

/-- Pulling and looking up only read. -/
theorem mActionPending_reads (params : Obj) : Prog.Reads (mActionPending params) :=
  .bind (.bind .get fun _ => .pure _) fun _ => .pure _

/-- Asking for an action leaves the actions. -/
theorem mActionGet_fixes (params : Obj) :
    Prog.Keeps (Prog.Fixes Channel.actions) (mActionGet params) := by
  have hget : ∀ aid, Prog.Keeps (Prog.Fixes Channel.actions) (ActionStore.get aid) := fun _ =>
    .bind (.ofExcept _) fun _ => .bind .get fun _ => .pure _
  have hfound : ∀ (aid : Json) (action : Option Obj), Prog.Keeps (Prog.Fixes Channel.actions)
      (match action with
        | none => throw (rpcError notFound "unknown action_id: %s" [aid])
        | some action => return .obj [("action", .obj action)] : Prog PyExc Channel Json) := by
    intro aid action
    cases action with
    | none => exact .throw _
    | some action => exact .pure _
  unfold mActionGet
  dsimp only
  split
  · exact .bind (hget _) (hfound _)
  · exact .bind (.pure _) (hfound _)

/-- `action.request` stores one pending action, under an id just drawn. -/
theorem mActionRequest_actions (env : Env) (params : Obj) (c : Channel) :
    ((mActionRequest env params).exec c).2.actions = c.actions ∨
    ((mActionRequest env params).exec c).2.actions =
      c.actions.insert (.str ("act_" ++ env.uuid)) (ActionStore.requested env
        (Obj.get params "namespace") (Obj.get params "method") (Obj.get params "params")) := by
  by_cases hempty : (!(Obj.get params "namespace").truthy || !(Obj.get params "method").truthy) = true
  · left
    simp [mActionRequest, hempty, Prog.exec_bind]
  · right
    set action := ActionStore.requested env (Obj.get params "namespace")
      (Obj.get params "method") (Obj.get params "params") with haction
    have hexec : ((ActionStore.create env (Obj.get params "namespace") (Obj.get params "method")
        (Obj.get params "params")).mapError valueErrorAsRpc).exec c = (.ok action,
          { c with actions := c.actions.insert (.str ("act_" ++ env.uuid)) action }) := by
      simp [ActionStore.create, hempty, Prog.exec_bind, Prog.exec_mapError, haction]
    have hrest : Prog.Keeps (Prog.Fixes Channel.actions) (do
        Channel.emit env "action.request" [("action_id", Obj.get action "action_id"),
          ("namespace", Obj.get params "namespace"), ("method", Obj.get params "method")]
        let serviced ← ExtensionRegistry.knows (Obj.get params "namespace")
        return Json.obj [("action_id", Obj.get action "action_id"),
          ("status", Obj.get action "status"), ("serviced", .bool serviced)]) :=
      .bind (Channel.emit_fixes env _ _) fun _ =>
        .bind (.bind (.ofExcept _) fun _ => .bind .get fun _ => .pure _) fun _ => .pure _
    have hkeeps := hrest { c with actions := c.actions.insert (.str ("act_" ++ env.uuid)) action }
    unfold mActionRequest
    dsimp only
    rw [if_neg hempty, Prog.exec_bind_ok hexec]
    exact hkeeps

/-- `action.complete` completes the record under the key of its id, if it is there. -/
theorem mActionComplete_actions (env : Env) (params : Obj) (c : Channel) {k : Key}
    (htruthy : (Obj.get params "action_id").truthy = true)
    (hkey : (Obj.get params "action_id").key? = some k) :
    ((mActionComplete env params).exec c).2.actions = match c.actions.get? k with
      | none => c.actions
      | some action => c.actions.insert k (ActionStore.completed env (Obj.get params "result")
          (Obj.get params "error") action) := by
  cases hget : c.actions.get? k with
  | none =>
    simp [mActionComplete, ActionStore.complete, htruthy, hkey, hashKey, hget, Prog.exec_bind]
  | some action =>
    simp [mActionComplete, ActionStore.complete, htruthy, hkey, hashKey, hget, Prog.exec_bind,
      Channel.emit]

/-- Without such an id it raises and changes nothing. -/
theorem mActionComplete_refused (env : Env) (params : Obj) (c : Channel)
    (hid : (Obj.get params "action_id").truthy = false ∨ (Obj.get params "action_id").key? = none) :
    ((mActionComplete env params).exec c).2.actions = c.actions := by
  by_cases htruthy : (Obj.get params "action_id").truthy = true
  · have hkey : (Obj.get params "action_id").key? = none := by
      rcases hid with hfalse | hkey
      · simp [htruthy] at hfalse
      · exact hkey
    simp [mActionComplete, ActionStore.complete, htruthy, hkey, hashKey, Prog.exec_bind]
  · simp [mActionComplete, htruthy, Prog.exec_bind]

end Effects

end VirtuosoFlow.Tunnel
