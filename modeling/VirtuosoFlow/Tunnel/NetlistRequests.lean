import VirtuosoFlow.Tunnel.Actions

/-!
# Netlist requests

The store of netlist requests (`sim/netlist_requests.py`) with its handlers in `daemon.py`, beside the
extension API: a plugin pulls the pending requests and posts the decks.
-/

namespace VirtuosoFlow.Tunnel

open Base

/-- The channels on which a request is serviced by somebody else. -/
structure Desk where
  channel : Channel
  netlists : Dict Key Obj

/-- An operation of the extension API. -/
def onChannel {α : Type} (m : Prog PyExc Channel α) : Prog PyExc Desk α :=
  m.zoom Desk.channel fun c d => { d with channel := c }

namespace NetlistRequestStore

/-- The record of a new request. -/
def requested (env : Env) (cellview corner : Json) : Obj :=
  [("request_id", .str ("nlr_" ++ env.uuid)), ("status", .str "pending"), ("cellview", cellview),
    ("corner", pyOr corner (.str "Nominal")), ("deck", .null), ("error", .null),
    ("created_at", env.stamp), ("updated_at", env.stamp)]

/-- `create(cellview, corner)`. -/
def create (env : Env) (cellview corner : Json) : Prog PyExc Desk Obj := do
  let req := requested env cellview corner
  modify fun d => { d with netlists := d.netlists.insert (.str ("nlr_" ++ env.uuid)) req }
  return req

/-- The record of a completed request. -/
def completed (env : Env) (deck error : Json) (req : Obj) : Obj :=
  let req := Obj.set req "status" (.str (if error.truthy then "failed" else "done"))
  let req := Obj.set req "deck" deck
  let req := Obj.set req "error" error
  Obj.set req "updated_at" env.stamp

/-- `complete(request_id, deck, error)`. -/
def complete (env : Env) (id deck error : Json) : Prog PyExc Desk (Option Obj) := do
  let key ← Prog.ofExcept (hashKey id)
  let d ← MonadState.get
  match d.netlists.get? key with
  | none => return none
  | some req =>
    let req := completed env deck error req
    set { d with netlists := d.netlists.insert key req }
    return some req

/-- `get(request_id)`. -/
def get (id : Json) : Prog PyExc Desk (Option Obj) := do
  let key ← Prog.ofExcept (hashKey id)
  let d ← MonadState.get
  return d.netlists.get? key

/-- `pending()`. -/
def pending : Prog PyExc Desk (List Obj) := do
  let d ← MonadState.get
  return d.netlists.values.filter fun req => (Obj.get req "status").pyEq (.str "pending")

end NetlistRequestStore

/-- `_m_netlist_request`. -/
def mNetlistRequest (env : Env) (params : Obj) : Prog PyExc Desk Json :=
  match Obj.get params "cellview" with
  | .obj cv => do
    let req ← NetlistRequestStore.create env (.obj cv) (Obj.get params "corner")
    onChannel (Channel.emit env "netlist.request"
      [("request_id", Obj.get req "request_id"), ("cellview", .obj cv), ("corner", Obj.get req "corner")])
    return .obj [("request_id", Obj.get req "request_id"), ("status", Obj.get req "status")]
  | _ => throw (rpcError invalidParams "params.cellview must be an object")

/-- `_m_netlist_complete`. -/
def mNetlistComplete (env : Env) (params : Obj) : Prog PyExc Desk Json := do
  let rid := Obj.get params "request_id"
  if !rid.truthy then throw (rpcError invalidParams "params.request_id required")
  match ← NetlistRequestStore.complete env rid (Obj.get params "deck") (Obj.get params "error") with
  | none => throw (rpcError notFound "unknown request_id: %s" [rid])
  | some req =>
    onChannel (Channel.emit env "netlist.complete" [("request_id", rid), ("status", Obj.get req "status")])
    return .obj [("request_id", rid), ("status", Obj.get req "status")]

/-- `_m_netlist_get`. -/
def mNetlistGet (params : Obj) : Prog PyExc Desk Json := do
  let rid := Obj.get params "request_id"
  let req ← if rid.truthy then NetlistRequestStore.get rid else pure none
  match req with
  | none => throw (rpcError notFound "unknown request_id: %s" [rid])
  | some req => return .obj [("request", .obj req)]

/-- `_m_netlist_pending`. -/
def mNetlistPending : Prog PyExc Desk Json := do
  let reqs ← NetlistRequestStore.pending
  return .obj [("requests", .arr (reqs.map .obj)), ("count", .int reqs.length)]

/-- The methods of the netlist channel. -/
inductive NetlistMethod where
  | netlistRequest | netlistComplete | netlistGet | netlistPending
  deriving DecidableEq

/-- The dispatch table: the handler registered for a method. -/
def NetlistMethod.handle (env : Env) : NetlistMethod → Obj → Prog PyExc Desk Json
  | .netlistRequest => mNetlistRequest env
  | .netlistComplete => mNetlistComplete env
  | .netlistGet => mNetlistGet
  | .netlistPending => fun _ => mNetlistPending

section Effects

variable {env : Env} {params : Obj} {d : Desk}

/-- `netlist.request` stores one pending request, under an id just drawn. -/
theorem mNetlistRequest_netlists (env : Env) (params : Obj) (d : Desk) :
    ((mNetlistRequest env params).exec d).2.netlists = d.netlists ∨
    ((mNetlistRequest env params).exec d).2.netlists =
      d.netlists.insert (.str ("nlr_" ++ env.uuid)) (NetlistRequestStore.requested env
        (Obj.get params "cellview") (Obj.get params "corner")) := by
  unfold mNetlistRequest
  split
  · rename_i cv hcv
    right
    rw [hcv]
    set req := NetlistRequestStore.requested env (.obj cv) (Obj.get params "corner")
    have hexec : (NetlistRequestStore.create env (.obj cv) (Obj.get params "corner")).exec d =
        (.ok req, { d with netlists := d.netlists.insert (.str ("nlr_" ++ env.uuid)) req }) := rfl
    rw [Prog.exec_bind_ok hexec]
    rfl
  · exact .inl rfl

/-- `netlist.complete` completes the record under the key of its id, if it is there. -/
theorem mNetlistComplete_netlists (env : Env) (params : Obj) (d : Desk) :
    ((mNetlistComplete env params).exec d).2.netlists = d.netlists ∧
      ((Obj.get params "request_id").truthy = false ∨
        ∀ k, (Obj.get params "request_id").key? = some k → d.netlists.get? k = none) ∨
    ∃ k req, (Obj.get params "request_id").truthy = true ∧ (Obj.get params "request_id").key? = some k ∧
      d.netlists.get? k = some req ∧
      ((mNetlistComplete env params).exec d).2.netlists = d.netlists.insert k
        (NetlistRequestStore.completed env (Obj.get params "deck") (Obj.get params "error") req) := by
  by_cases htruthy : (Obj.get params "request_id").truthy = true
  · cases hkey : (Obj.get params "request_id").key? with
    | none =>
      refine .inl ⟨?_, .inr (by simp)⟩
      simp [mNetlistComplete, NetlistRequestStore.complete, htruthy, hkey, hashKey, Prog.exec_bind]
    | some k =>
      cases hget : d.netlists.get? k with
      | none =>
        refine .inl ⟨?_, .inr ?_⟩
        · simp [mNetlistComplete, NetlistRequestStore.complete, htruthy, hkey, hashKey, hget, Prog.exec_bind]
        · rintro _ ⟨⟩
          exact hget
      | some req =>
        refine .inr ⟨k, req, htruthy, rfl, hget, ?_⟩
        simp [mNetlistComplete, NetlistRequestStore.complete, htruthy, hkey, hashKey, hget, Prog.exec_bind,
          Channel.emit, onChannel]
  · refine .inl ⟨?_, .inl (by simpa using htruthy)⟩
    simp [mNetlistComplete, htruthy, Prog.exec_bind]

/-- Looking up and pulling only read. -/
theorem mNetlistGet_reads (params : Obj) : Prog.Reads (mNetlistGet params) := by
  have hget : ∀ rid, Prog.Reads (NetlistRequestStore.get rid) := fun _ =>
    .bind (.ofExcept _) fun _ => .bind .get fun _ => .pure _
  have hfound : ∀ (rid : Json) (req : Option Obj), Prog.Reads (match req with
      | none => throw (rpcError notFound "unknown request_id: %s" [rid])
      | some req => return .obj [("request", .obj req)] : Prog PyExc Desk Json) := by
    intro rid req
    cases req with
    | none => exact .throw _
    | some req => exact .pure _
  unfold mNetlistGet
  dsimp only
  split
  · exact .bind (hget _) (hfound _)
  · exact .bind (.pure _) (hfound _)

/-- `netlist.get` answers the record under the key of its id. -/
theorem mNetlistGet_answers {answer : Json} (hok : ((mNetlistGet params).exec d).1 = .ok answer) :
    ∃ k req, (Obj.get params "request_id").key? = some k ∧ d.netlists.get? k = some req ∧
      answer = .obj [("request", .obj req)] := by
  by_cases htruthy : (Obj.get params "request_id").truthy = true
  · cases hkey : (Obj.get params "request_id").key? with
    | none => simp [mNetlistGet, NetlistRequestStore.get, htruthy, hkey, hashKey, Prog.exec_bind] at hok
    | some k =>
      cases hget : d.netlists.get? k with
      | none => simp [mNetlistGet, NetlistRequestStore.get, htruthy, hkey, hashKey, hget, Prog.exec_bind] at hok
      | some req =>
        have hanswer : ((mNetlistGet params).exec d).1 = .ok (.obj [("request", .obj req)]) := by
          simp [mNetlistGet, NetlistRequestStore.get, htruthy, hkey, hashKey, hget, Prog.exec_bind]
        exact ⟨k, req, rfl, hget, Except.ok.inj (hok.symm.trans hanswer)⟩
  · simp [mNetlistGet, htruthy, Prog.exec_bind] at hok

/-- Listing the pending requests reads only. -/
theorem mNetlistPending_reads : Prog.Reads mNetlistPending :=
  .bind (.bind .get fun _ => .pure _) fun _ => .pure _

/-- The netlist channel leaves the actions alone. -/
theorem NetlistMethod.handle_fixes (env : Env) (method : NetlistMethod) (params : Obj) :
    Prog.Keeps (Prog.Fixes fun d : Desk => d.channel.actions) (method.handle env params) := by
  have hemit : ∀ etype payload, Prog.Keeps (Prog.Fixes fun d : Desk => d.channel.actions)
      (onChannel (Channel.emit env etype payload)) := fun _ _ _ => rfl
  cases method with
  | netlistGet => exact (mNetlistGet_reads params).keeps
  | netlistPending => exact mNetlistPending_reads.keeps
  | netlistRequest =>
    change Prog.Keeps _ (mNetlistRequest env params)
    unfold mNetlistRequest
    split
    · exact .bind (.bind (fun _ => rfl) fun _ => .pure _) fun _ => .bind (hemit _ _) fun _ => .pure _
    · exact .throw _
  | netlistComplete =>
    change Prog.Keeps _ (mNetlistComplete env params)
    have hcomplete : ∀ id deck error, Prog.Keeps (Prog.Fixes fun d : Desk => d.channel.actions)
        (NetlistRequestStore.complete env id deck error) := by
      intro id deck error d
      unfold NetlistRequestStore.complete
      cases hkey : hashKey id with
      | error e => rfl
      | ok key =>
        rw [Prog.exec_bind_ok (Prog.exec_ofExcept _ _), Prog.exec_bind_ok (Prog.exec_get d)]
        cases d.netlists.get? key <;> rfl
    unfold mNetlistComplete
    dsimp only
    split
    · exact .throw _
    · refine .bind (hcomplete _ _ _) fun req => ?_
      cases req with
      | none => exact .throw _
      | some req => exact .bind (hemit _ _) fun _ => .pure _

end Effects

end VirtuosoFlow.Tunnel
