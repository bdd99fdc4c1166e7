import VirtuosoFlow.Tunnel.ActionRuns
import VirtuosoFlow.Tunnel.Outcomes
import VirtuosoFlow.Plugin.Rpc

/-!
# The service loops

`vfpServiceNetlistRequests` and `vfpServiceActionRequests` (`vfp_rpc_server.il`): each pulls the pending
requests, runs the handler of one after the other and posts what it came to. The calls of a pass reach the
tunnel and its params files can be written.
-/

namespace VirtuosoFlow.Plugin

open Base
open Tunnel (Desk Kind NetlistMethod ChannelMethod Handled Outcome outcomeOf posted desk DrawsNew)

/-- The names of an open cellview. -/
structure CellViewNames where
  libName : Option String
  cellName : Option String
  viewName : Option String

/-- What the netlist handler finds around it while it runs for one request. -/
structure Netlister where
  env : Tunnel.Env
  printer : Printer
  /-- `dbOpenCellViewByType(lib cell view "" "r")`, `none` where it raises. -/
  openCellView : Value → Value → Value → Option (Option CellViewNames)
  /-- `fboundp('maeCreateNetlistForCorner)`. -/
  netlisterBound : Bool
  /-- `vfpNetlistDir()`. -/
  netlistDir : String
  /-- `maeOpenSetup(lib cell "maestro")`, `none` where it raises. -/
  openSetup : String → String → Option Value
  /-- `car(maeGetSetup(?session session))`, `none` where it raises. -/
  getSetup : String → Option Value
  /-- Whether the deck is there after `maeCreateNetlistForCorner(test corner od ?session session)`. -/
  deckWritten : Value → Value → String → String → Bool

/-- `vfpNetlistCellView(cv ?corner corner)`: the deck path or `nil`. -/
def vfpNetlistCellView (n : Netlister) (cv : Option CellViewNames) (corner : Value) : Except SkillError Value :=
  match cv with
  | none => .ok .nil
  | some cv =>
    if n.netlisterBound then
      match cv.libName, cv.cellName, cv.viewName with
      | some lib, some cell, some view =>
        let od := n.netlistDir ++ "/" ++ lib ++ "__" ++ cell ++ "__" ++ view
        match n.openSetup lib cell with
        | some (.str session) =>
          let test := (n.getSetup session).getD .nil
          if test.truthy then
            let deck := od ++ "/netlist/input.scs"
            if n.deckWritten test corner od session then
              -- the log line of a deck formats the corner with `%s`, outside `errset`
              if isText corner then .ok (.str deck) else .error .raised
            else .ok .nil
          else .ok .nil
        | _ => .ok .nil
      | _, _, _ => .ok .nil
    else .ok .nil

/-- The deck that the loop body makes of a request. -/
def netlistDeck (n : Netlister) (req : Value) : Except SkillError Value :=
  let cv := vfpAlistGet req "cellview"
  let lib := vfpAlistGet cv "lib"
  let cell := vfpAlistGet cv "cell"
  let view := vfpAlistGet cv "view"
  let corner := vfpAlistGet req "corner"
  if lib.truthy && cell.truthy && view.truthy then
    match n.openCellView lib cell view with
    | none => .error .raised
    | some opened => vfpNetlistCellView n opened (if corner.truthy then corner else .str "Nominal")
  else .ok .nil

/-- `vfpRpcExec(method args)` on the netlist channel. -/
def callNetlist (env : Tunnel.Env) (method : NetlistMethod) (params : Obj) : Prog SkillError Desk Reply := fun d =>
  (.ok (.ofOutcome env ((method.handle env params).exec d).1), ((method.handle env params).exec d).2)

/-- `vfpRpcExec(method args)` on the extension API. -/
def callAction (env : Tunnel.Env) (method : ChannelMethod) (params : Obj) : Prog SkillError Desk Reply := fun d =>
  (.ok (.ofOutcome env ((method.handle env params).exec d.channel).1),
    { d with channel := ((method.handle env params).exec d.channel).2 })

/-- `foreach( x xs body )`, with the position of `x`. -/
def foreach (body : ℕ → Value → Prog SkillError Desk Unit) : ℕ → List Value → Prog SkillError Desk Unit
  | _, [] => pure ()
  | i, x :: xs => do
    body i x
    foreach body (i + 1) xs

/-- What is posted for a request whose handler came to a deck or to `nil`. -/
def netlistReport (n : Netlister) (rid deck : Value) : Obj :=
  ("request_id", .str (n.printer.format rid)) ::
    if deck.truthy then [("deck", .str (n.printer.format deck))] else [("error", .str "netlist failed")]

/-- The body of the loop in `vfpServiceNetlistRequests`. -/
def serviceNetlist (n : Netlister) (req : Value) : Prog SkillError Desk Unit := do
  let rid := vfpAlistGet req "request_id"
  let deck ← Prog.ofExcept (netlistDeck n req)
  if rid.truthy then
    let _ ← callNetlist n.env .netlistComplete (netlistReport n rid deck)

/-- `vfpServiceNetlistRequests()`, with what the handler of the `i`-th request finds. -/
def vfpServiceNetlistRequests (env : Tunnel.Env) (n : ℕ → Netlister) : Prog SkillError Desk Unit := do
  let res ← callNetlist env .netlistPending []
  if res.ok then
    foreach (fun i => serviceNetlist (n i)) 0 (vfpAlistGet res.payload "requests").toList

/-- What the dispatch of one action comes to under `errset`, and how its outcome is posted. -/
structure ActionServicer where
  env : Tunnel.Env
  printer : Printer
  handled : Handled

/-- The parameters of `vfpActionComplete` for an action. -/
def actionReport (a : ActionServicer) (aid : Value) : Obj := a.handled.report (vfpToJson a.printer aid)

/-- `vfpActionComplete(aid resultObj errStr)`: the helper reads the params file as JSON. -/
def vfpActionComplete (a : ActionServicer) (aid : Value) : Prog SkillError Desk Unit := do
  if sendable (.obj (actionReport a aid)) then
    let _ ← callAction a.env .actionComplete (actionReport a aid)

/-- The body of the loop in `vfpServiceActionRequests`. -/
def serviceAction (a : ActionServicer) (act : Value) : Prog SkillError Desk Unit :=
  if (vfpAlistGet act "action_id").truthy then vfpActionComplete a (vfpAlistGet act "action_id") else pure ()

/-- `vfpServiceActionRequests()`. -/
def vfpServiceActionRequests (env : Tunnel.Env) (a : ℕ → ActionServicer) : Prog SkillError Desk Unit := do
  let res ← callAction env .actionPending [("namespace", .str "layout")]
  if res.ok then
    foreach (fun i => serviceAction (a i)) 0 (vfpAlistGet res.payload "actions").toList

/-- The netlist requests that a pass pulls. -/
def pendingNetlists (d : Desk) : List Obj :=
  d.netlists.values.filter fun req => (Obj.get req "status").pyEq (.str "pending")

/-- The layout actions that a pass pulls. -/
def pendingActions (d : Desk) : List Obj :=
  d.channel.actions.values.filter (Tunnel.ActionStore.isPending (.str "layout"))

/-- What the body of a loop does to the request it is for. -/
inductive Posting where
  | completes (params : Obj)
  | lost
  | raises

/-- The request is completed as its own handler came out, and with an error if the handler raised. -/
def CompletedAs (kind : Kind) (req : Obj) (expected : Option Obj) (d : Desk) : Prop :=
  ∃ k req', (Obj.get req kind.idField).key? = some k ∧ (kind.records d).get? k = some req' ∧
    match expected with
    | none => (outcomeOf kind req').status = .str "failed" ∧ (outcomeOf kind req').error.truthy = true
    | some params => outcomeOf kind req' = posted kind params

/-- What the handler of a netlist request comes to: `none` if it raises. -/
def netlistExpected (n : Netlister) (req : Obj) : Option Obj :=
  match netlistDeck n (Value.ofJson (.obj req)) with
  | .error _ => none
  | .ok deck => some (netlistReport n (Value.ofJson (Obj.get req "request_id")) deck)

/-- What the dispatch of an action comes to: `none` if it raises. -/
def actionExpected (a : ActionServicer) (act : Obj) : Option Obj :=
  match a.handled with
  | .raised => none
  | _ => some (actionReport a (Value.ofJson (Obj.get act "action_id")))

/-- The body of a loop serves one request: it does this posting for the request under `k` and leaves the
others alone. -/
def Serves (kind : Kind) (k : Key) (posting : Posting) (body : Prog SkillError Desk Unit) : Prop :=
  ∀ d req, (kind.records d).get? k = some req →
    (∀ k', k' ≠ k → (kind.records (body.exec d).2).get? k' = (kind.records d).get? k') ∧
    match posting with
    | .completes params => (body.exec d).1 = .ok () ∧ ∃ req', (kind.records (body.exec d).2).get? k = some req' ∧
        outcomeOf kind req' = posted kind params
    | .lost => (body.exec d).1 = .ok () ∧ (kind.records (body.exec d).2).get? k = some req
    | .raises => (body.exec d).1 = .error .raised ∧ (kind.records (body.exec d).2).get? k = some req

section Loops

variable {kind : Kind} {key : Value → Key} {posting : ℕ → Value → Posting}
  {body : ℕ → Value → Prog SkillError Desk Unit} {L : List Value}

/-- A loop whose body serves each request leaves the requests of others alone, leaves a request whose body
does not complete it alone, and completes the others, as long as no body raises. -/
theorem foreach_serves (d : Desk) (i : ℕ)
    (hbody : ∀ i, ∀ v ∈ L, Serves kind (key v) (posting i v) (body i v)) (hnodup : (L.map key).Nodup)
    (hstored : ∀ v ∈ L, ∃ req, (kind.records d).get? (key v) = some req) :
    (∀ k ∉ L.map key, (kind.records ((foreach body i L).exec d).2).get? k = (kind.records d).get? k) ∧
    (∀ j v, L[j]? = some v → posting (i + j) v = .lost ∨ posting (i + j) v = .raises →
      (kind.records ((foreach body i L).exec d).2).get? (key v) = (kind.records d).get? (key v)) ∧
    ((∀ j v, L[j]? = some v → posting (i + j) v ≠ .raises) →
      ∀ j v params, L[j]? = some v → posting (i + j) v = .completes params →
        ∃ req, (kind.records ((foreach body i L).exec d).2).get? (key v) = some req ∧
          outcomeOf kind req = posted kind params) := by
  induction L generalizing d i with
  | nil => exact ⟨fun _ _ => rfl, by simp, by simp⟩
  | cons x xs ih =>
    rw [List.map_cons, List.nodup_cons] at hnodup
    obtain ⟨req, hreq⟩ := hstored x List.mem_cons_self
    obtain ⟨hframe, hserved⟩ := hbody i x List.mem_cons_self d req hreq
    have hne : ∀ v ∈ xs, key v ≠ key x := fun v hv heq => hnodup.1 (List.mem_map.mpr ⟨v, hv, heq⟩)
    -- what the rest of the loop does after the first body returned
    have hrest := ih ((body i x).exec d).2 (i + 1) (fun i v hv => hbody i v (List.mem_cons_of_mem _ hv)) hnodup.2
      fun v hv => by
        rw [hframe _ (hne v hv)]
        exact hstored v (List.mem_cons_of_mem _ hv)
    obtain ⟨hothers, hleft, hdone⟩ := hrest
    by_cases hraises : posting i x = .raises
    · rw [hraises] at hserved
      have hstop : ((foreach body i (x :: xs)).exec d).2 = ((body i x).exec d).2 := by
        rw [foreach, Prog.exec_bind_error (Prod.ext hserved.1 rfl)]
      rw [hstop]
      refine ⟨fun k hk => ?_, fun j v hv _ => ?_, fun hnone => absurd hraises (hnone 0 x rfl)⟩
      · rw [List.map_cons, List.mem_cons, not_or] at hk
        exact hframe k hk.1
      · cases j with
        | zero =>
          obtain rfl : x = v := by simpa using hv
          rw [hserved.2, hreq]
        | succ j => exact hframe _ (hne v (List.mem_of_getElem? hv))
    · have hreturned : ((body i x).exec d).1 = .ok () := by
        cases hp : posting i x with
        | completes params =>
          rw [hp] at hserved
          exact hserved.1
        | lost =>
          rw [hp] at hserved
          exact hserved.1
        | raises => exact absurd hp hraises
      have hgoes : ((foreach body i (x :: xs)).exec d).2 =
          ((foreach body (i + 1) xs).exec ((body i x).exec d).2).2 := by
        rw [foreach, Prog.exec_bind_ok (Prod.ext hreturned rfl)]
      rw [hgoes]
      refine ⟨fun k hk => ?_, fun j v hv hpost => ?_, fun hnone j v params hv hpost => ?_⟩
      · rw [List.map_cons, List.mem_cons, not_or] at hk
        rw [hothers k hk.2, hframe k hk.1]
      · cases j with
        | zero =>
          obtain rfl : x = v := by simpa using hv
          rw [hothers _ hnodup.1]
          rcases hpost with hlost | hraised
          · rw [show posting i x = .lost from hlost] at hserved
            rw [hserved.2, hreq]
          · exact absurd hraised hraises
        | succ j =>
          have hshift : i + (j + 1) = i + 1 + j := by omega
          rw [hshift] at hpost
          rw [hleft j v hv hpost, hframe _ (hne v (List.mem_of_getElem? hv))]
      · cases j with
        | zero =>
          obtain rfl : x = v := by simpa using hv
          rw [show posting i x = .completes params from hpost] at hserved
          rw [hothers _ hnodup.1]
          exact hserved.2
        | succ j =>
          have hshift : i + (j + 1) = i + 1 + j := by omega
          rw [hshift] at hpost
          refine hdone (fun j v hv => ?_) j v params hv hpost
          have hlater := hnone (j + 1) v hv
          rwa [show i + (j + 1) = i + 1 + j by omega] at hlater

end Loops

section Bodies

variable {n : Netlister} {a : ActionServicer} {k : Key} {req : Obj}

/-- The id that a pulled record tells. -/
theorem vfpAlistGet_id {kind : Kind} (h : Tunnel.RequestKeyed kind k req) :
    ∃ id, k = .str id ∧ id ≠ "" ∧ Obj.get req kind.idField = .str id ∧
      vfpAlistGet (Value.ofJson (.obj req)) kind.idField = .str id := by
  obtain ⟨id, hk, hne, hid, hnodup⟩ := h
  exact ⟨id, hk, hne, hid, by rw [vfpAlistGet_obj hnodup, hid, Value.ofJson]⟩

/-- What the body does for a netlist request. -/
def netlistPosting (n : Netlister) (req : Value) : Posting :=
  match netlistDeck n req with
  | .error _ => .raises
  | .ok deck => .completes (netlistReport n (vfpAlistGet req "request_id") deck)

/-- Servicing a netlist request posts its completion. -/
theorem serviceNetlist_serves (h : Tunnel.RequestKeyed .netlist k req) :
    Serves .netlist k (netlistPosting n (Value.ofJson (.obj req))) (serviceNetlist n (Value.ofJson (.obj req))) := by
  obtain ⟨id, rfl, hne, hid, halist⟩ := vfpAlistGet_id h
  rw [Kind.idField] at halist
  intro d r hr
  cases hdeck : netlistDeck n (Value.ofJson (.obj req)) with
  | error e =>
    have hexec : (serviceNetlist n (Value.ofJson (.obj req))).exec d = (.error e, d) := by
      simp [serviceNetlist, hdeck, Prog.exec_bind]
    rw [hexec, netlistPosting, hdeck]
    exact ⟨fun _ _ => rfl, by cases e; rfl, hr⟩
  | ok deck =>
    set params := netlistReport n (.str id) deck with hparams
    have hnamed : Obj.get params "request_id" = .str id := rfl
    have hexec : (serviceNetlist n (Value.ofJson (.obj req))).exec d =
        (.ok (), ((Tunnel.mNetlistComplete n.env params).exec d).2) := by
      rw [serviceNetlist, halist, hdeck, Prog.exec_bind_ok (Prog.exec_ofExcept _ _)]
      rfl
    rw [hexec, netlistPosting, hdeck, halist]
    have hstored : d.netlists.get? (.str id) = some r := hr
    rcases Tunnel.mNetlistComplete_netlists n.env params d with
      ⟨_, hmissed⟩ | ⟨k', r', _, hkey, hget, hnetlists⟩
    · rw [hnamed] at hmissed
      rcases hmissed with hfalse | hnone
      · simp [hne] at hfalse
      · rw [hnone _ rfl] at hstored
        cases hstored
    · rw [hnamed] at hkey
      obtain rfl : Key.str id = k' := Option.some.inj hkey
      obtain rfl : r = r' := Option.some.inj (hstored.symm.trans hget)
      simp only [Kind.records, hnetlists]
      refine ⟨fun k' hk' => Dict.get?_insert_ne _ hk' _, trivial, _, Dict.get?_insert_self _ _ _, ?_⟩
      exact Tunnel.outcomeOf_completed_netlist n.env params r

/-- What the body does for an action. -/
def actionPosting (a : ActionServicer) (act : Value) : Posting :=
  if sendable (.obj (actionReport a (vfpAlistGet act "action_id"))) then
    .completes (actionReport a (vfpAlistGet act "action_id"))
  else .lost

/-- The report of an action names it. -/
theorem get_actionReport (a : ActionServicer) (id : String) :
    Obj.get (actionReport a (.str id)) "action_id" = .str id := by
  unfold actionReport
  cases a.handled with
  | raised => rfl
  | gave result error => cases result <;> cases error <;> rfl

/-- Servicing an action posts its completion. -/
theorem serviceAction_serves (h : Tunnel.RequestKeyed .action k req) :
    Serves .action k (actionPosting a (Value.ofJson (.obj req))) (serviceAction a (Value.ofJson (.obj req))) := by
  obtain ⟨id, rfl, hne, hid, halist⟩ := vfpAlistGet_id h
  rw [Kind.idField] at halist
  intro d r hr
  rw [actionPosting, halist]
  have hbody : serviceAction a (Value.ofJson (.obj req)) = vfpActionComplete a (.str id) := by
    rw [serviceAction, halist]
    rfl
  rw [hbody]
  set params := actionReport a (.str id) with hparams
  have hnamed : Obj.get params "action_id" = .str id := get_actionReport a id
  by_cases hsend : sendable (.obj params) = true
  · have hexec : (vfpActionComplete a (.str id)).exec d =
        (.ok (), { d with channel := ((Tunnel.mActionComplete a.env params).exec d.channel).2 }) := by
      rw [vfpActionComplete, ← hparams, if_pos hsend]
      rfl
    have hstored : d.channel.actions.get? (.str id) = some r := hr
    have hactions := Tunnel.mActionComplete_actions a.env params d.channel (k := .str id)
      (by simp [hnamed, hne]) (by rw [hnamed]; rfl)
    rw [hstored] at hactions
    rw [hexec, if_pos hsend]
    simp only [Kind.records, hactions]
    refine ⟨fun k' hk' => Dict.get?_insert_ne _ hk' _, trivial, _, Dict.get?_insert_self _ _ _, ?_⟩
    exact Tunnel.outcomeOf_completed_action a.env params r
  · have hexec : (vfpActionComplete a (.str id)).exec d = (.ok (), d) := by
      rw [vfpActionComplete, ← hparams, if_neg hsend]
      rfl
    rw [hexec, if_neg hsend]
    exact ⟨fun _ _ => rfl, rfl, hr⟩

end Bodies

section Passes

variable {d : Desk} {env : Tunnel.Env}

/-- The key under which a pulled record is stored. -/
def pulledKey (field : String) (v : Value) : Key :=
  match vfpAlistGet v field with
  | .str id => .str id
  | _ => .none

/-- A request that was pulled carries the key that it is stored under. -/
theorem pulledKey_eq {kind : Kind} {k : Key} {req : Obj} (h : Tunnel.RequestKeyed kind k req) :
    pulledKey kind.idField (Value.ofJson (.obj req)) = k := by
  obtain ⟨id, rfl, _, _, halist⟩ := vfpAlistGet_id h
  rw [pulledKey, halist]

/-- A pass finds each pulled request once, under its id. -/
theorem pulled_keys (kind : Kind) (pulls : Obj → Bool) (hkeyed : Tunnel.RequestsKeyed d) :
    ((((kind.records d).values.filter pulls).map fun req => Value.ofJson (.obj req)).map
      (pulledKey kind.idField)).Nodup := by
  have hkeys : ((kind.records d).values.map fun req => pulledKey kind.idField (Value.ofJson (.obj req))) =
      (kind.records d).entries.map Prod.fst := by
    unfold Dict.values
    rw [List.map_map]
    refine List.map_congr_left fun e he => ?_
    exact pulledKey_eq (hkeyed kind e.1 e.2 (Dict.mem_entries_iff.mp he))
  have hsub := (List.filter_sublist (p := pulls) (l := (kind.records d).values)).map
    fun req => pulledKey kind.idField (Value.ofJson (.obj req))
  rw [hkeys] at hsub
  rw [List.map_map]
  exact (kind.records d).nodup.sublist hsub

/-- A pass of the netlist loop does what its loop over the pending requests does. -/
theorem exec_vfpServiceNetlistRequests (env : Tunnel.Env) (n : ℕ → Netlister) (d : Desk) :
    (vfpServiceNetlistRequests env n).exec d =
      (foreach (fun i => serviceNetlist (n i)) 0
        ((pendingNetlists d).map fun req => Value.ofJson (.obj req))).exec d := by
  set answer : Obj := [("requests", .arr ((pendingNetlists d).map .obj)), ("count", .int (pendingNetlists d).length)]
    with hanswer
  have hpull : (callNetlist env .netlistPending []).exec d = (.ok ⟨true, Value.ofJson (.obj answer)⟩, d) := rfl
  have hlist : (vfpAlistGet (Value.ofJson (.obj answer)) "requests").toList =
      (pendingNetlists d).map fun req => Value.ofJson (.obj req) := by
    have hget : Obj.get answer "requests" = .arr ((pendingNetlists d).map .obj) := rfl
    rw [vfpAlistGet_obj (by simp [hanswer]), hget, Value.toList_ofJson_arr, List.map_map]
    rfl
  rw [vfpServiceNetlistRequests, Prog.exec_bind_ok hpull, if_pos rfl, hlist]

/-- Servicing actions goes through the pending ones. -/
theorem exec_vfpServiceActionRequests (env : Tunnel.Env) (a : ℕ → ActionServicer) (d : Desk) :
    (vfpServiceActionRequests env a).exec d =
      (foreach (fun i => serviceAction (a i)) 0
        ((pendingActions d).map fun act => Value.ofJson (.obj act))).exec d := by
  set answer : Obj := [("actions", .arr ((pendingActions d).map .obj)), ("count", .int (pendingActions d).length)]
    with hanswer
  have hpull : (callAction env .actionPending [("namespace", .str "layout")]).exec d =
      (.ok ⟨true, Value.ofJson (.obj answer)⟩, d) := rfl
  have hlist : (vfpAlistGet (Value.ofJson (.obj answer)) "actions").toList =
      (pendingActions d).map fun act => Value.ofJson (.obj act) := by
    have hget : Obj.get answer "actions" = .arr ((pendingActions d).map .obj) := rfl
    rw [vfpAlistGet_obj (by simp [hanswer]), hget, Value.toList_ofJson_arr, List.map_map]
    rfl
  rw [vfpServiceActionRequests, Prog.exec_bind_ok hpull, if_pos rfl, hlist]

/-- A request that is still pending has not been completed in any way. -/
theorem not_completed_of_pending {kind : Kind} {k : Key} {req : Obj} {expected : Option Obj} {d' : Desk}
    (hkey : (Obj.get req kind.idField).key? = some k) (hstored : (kind.records d').get? k = some req)
    (hpending : (Obj.get req "status").pyEq (.str "pending") = true) : ¬ CompletedAs kind req expected d' := by
  have hstatus : Obj.get req "status" = .str "pending" := Json.pyEq_str.mp hpending
  rintro ⟨k', req', hkey', hstored', houtcome⟩
  obtain rfl : k = k' := Option.some.inj (hkey.symm.trans hkey')
  obtain rfl : req = req' := Option.some.inj (hstored.symm.trans hstored')
  cases expected with
  | none => simp [outcomeOf, hstatus] at houtcome
  | some params =>
    have hposted : Json.str "pending" = (posted kind params).status := by
      rw [← hstatus]
      exact congrArg Outcome.status houtcome
    rw [posted] at hposted
    dsimp only at hposted
    split at hposted <;> exact absurd (Json.str.inj hposted) (by decide)

/-- What the loop over the pulled requests of a kind did to one of them. -/
theorem pass_serves (hkeyed : Tunnel.RequestsKeyed d) (kind : Kind) (pulls : Obj → Bool)
    (posting : ℕ → Value → Posting) (body : ℕ → Value → Prog SkillError Desk Unit)
    (hbody : ∀ i k req, Tunnel.RequestKeyed kind k req →
      Serves kind k (posting i (Value.ofJson (.obj req))) (body i (Value.ofJson (.obj req)))) :
    let pulled := (kind.records d).values.filter pulls
    let last := ((foreach body 0 (pulled.map fun req => Value.ofJson (.obj req))).exec d).2
    ∀ i req, pulled[i]? = some req → ∃ k, Tunnel.RequestKeyed kind k req ∧
      (Obj.get req kind.idField).key? = some k ∧
        (posting i (Value.ofJson (.obj req)) = .lost ∨ posting i (Value.ofJson (.obj req)) = .raises →
        (kind.records last).get? k = some req) ∧
      ((∀ j other, pulled[j]? = some other → posting j (Value.ofJson (.obj other)) ≠ .raises) →
        ∀ params, posting i (Value.ofJson (.obj req)) = .completes params →
          ∃ req', (kind.records last).get? k = some req' ∧ outcomeOf kind req' = posted kind params) := by
  intro pulled last i req hreq
  have hstored : ∀ r ∈ pulled, ∃ k, (kind.records d).get? k = some r := fun r hr =>
    Dict.mem_values_iff.mp (List.mem_of_mem_filter hr)
  obtain ⟨k, hk⟩ := hstored req (List.mem_of_getElem? hreq)
  have hreqKeyed := hkeyed kind k req hk
  have hkey := pulledKey_eq hreqKeyed
  obtain ⟨_, hleft, hdone⟩ := @foreach_serves kind (pulledKey kind.idField) posting body
    (pulled.map fun req => Value.ofJson (.obj req)) d 0 (by
      intro i v hv
      obtain ⟨r, hr, rfl⟩ := List.mem_map.mp hv
      obtain ⟨k', hk'⟩ := hstored r hr
      rw [pulledKey_eq (hkeyed kind k' r hk')]
      exact hbody i k' r (hkeyed kind k' r hk'))
    (pulled_keys kind pulls hkeyed) (by
      intro v hv
      obtain ⟨r, hr, rfl⟩ := List.mem_map.mp hv
      obtain ⟨k', hk'⟩ := hstored r hr
      exact ⟨r, by rw [pulledKey_eq (hkeyed kind k' r hk'), hk']⟩)
  have hat : (pulled.map fun req => Value.ofJson (.obj req))[i]? = some (Value.ofJson (.obj req)) := by
    rw [List.getElem?_map, hreq, Option.map_some]
  refine ⟨k, hreqKeyed, ?_, fun hposting => ?_, fun hnone params hposting => ?_⟩
  · obtain ⟨id, rfl, _, hid, _⟩ := hreqKeyed
    rw [hid, Json.key?_str]
  · have hsame := hleft i _ hat (by simpa using hposting)
    rw [hkey, hk] at hsame
    exact hsame
  · have hcompleted := hdone (by
      intro j v hv
      rw [List.getElem?_map] at hv
      obtain ⟨other, hother, rfl⟩ := Option.map_eq_some_iff.mp hv
      simpa using hnone j other hother) i _ params hat (by simpa using hposting)
    rw [hkey] at hcompleted
    exact hcompleted

/-- A pass of the netlist loop completes every request as its own handler came out exactly if no handler
raises. -/
theorem netlists_isolated_iff (hkeyed : Tunnel.RequestsKeyed d) (env : Tunnel.Env) (n : ℕ → Netlister) :
    (∀ i req, (pendingNetlists d)[i]? = some req →
      CompletedAs .netlist req (netlistExpected (n i) req) ((vfpServiceNetlistRequests env n).exec d).2) ↔
    ∀ i req, (pendingNetlists d)[i]? = some req → netlistDeck (n i) (Value.ofJson (.obj req)) ≠ .error .raised := by
  have hserves := pass_serves hkeyed .netlist (fun req => (Obj.get req "status").pyEq (.str "pending"))
    (fun i => netlistPosting (n i)) (fun i => serviceNetlist (n i)) fun i k req h => serviceNetlist_serves h
  rw [exec_vfpServiceNetlistRequests]
  constructor
  · intro hall i req hreq hraised
    obtain ⟨k, _, hkey, hleft, _⟩ := hserves i req hreq
    -- its own body stopped the loop, or an earlier one did: the request is still pending
    have hstays := hleft (.inr (by rw [netlistPosting, hraised]))
    have hpending := (List.mem_filter.mp (List.mem_of_getElem? hreq)).2
    exact not_completed_of_pending hkey hstays hpending (hall i req hreq)
  · intro hquiet i req hreq
    obtain ⟨k, ⟨_, _, _, _, hnodup⟩, hkey, _, hdone⟩ := hserves i req hreq
    have hdeck : ∀ j other, (pendingNetlists d)[j]? = some other →
        ∃ deck, netlistDeck (n j) (Value.ofJson (.obj other)) = .ok deck := by
      intro j other hother
      cases hcase : netlistDeck (n j) (Value.ofJson (.obj other)) with
      | ok deck => exact ⟨deck, rfl⟩
      | error e =>
        cases e
        exact absurd hcase (hquiet j other hother)
    obtain ⟨deck, hown⟩ := hdeck i req hreq
    have hnone : ∀ j other, (pendingNetlists d)[j]? = some other →
        netlistPosting (n j) (Value.ofJson (.obj other)) ≠ .raises := by
      intro j other hother
      obtain ⟨deck', hdeck'⟩ := hdeck j other hother
      rw [netlistPosting, hdeck']
      exact Posting.noConfusion
    obtain ⟨req', hreq', houtcome⟩ := hdone hnone _ (by rw [netlistPosting, hown])
    refine ⟨k, req', hkey, hreq', ?_⟩
    rw [netlistExpected, hown]
    rw [vfpAlistGet_obj hnodup] at houtcome
    exact houtcome

/-- A pass of the action loop completes every action as its own handler came out exactly if the helper can
read each outcome. -/
theorem actions_isolated_iff (hkeyed : Tunnel.RequestsKeyed d) (env : Tunnel.Env) (a : ℕ → ActionServicer) :
    (∀ i act, (pendingActions d)[i]? = some act →
      CompletedAs .action act (actionExpected (a i) act) ((vfpServiceActionRequests env a).exec d).2) ↔
    ∀ i act, (pendingActions d)[i]? = some act →
      sendable (.obj (actionReport (a i) (Value.ofJson (Obj.get act "action_id")))) = true := by
  have hserves := pass_serves hkeyed .action (Tunnel.ActionStore.isPending (.str "layout"))
    (fun i => actionPosting (a i)) (fun i => serviceAction (a i)) fun i k act h => serviceAction_serves h
  rw [exec_vfpServiceActionRequests]
  have halist : ∀ {k act}, Tunnel.RequestKeyed .action k act →
      vfpAlistGet (Value.ofJson (.obj act)) "action_id" = Value.ofJson (Obj.get act "action_id") := by
    rintro k act ⟨_, _, _, _, hnodup⟩
    exact vfpAlistGet_obj hnodup "action_id"
  constructor
  · intro hall i act hact
    obtain ⟨k, hown, hkey, hleft, _⟩ := hserves i act hact
    cases hsend : sendable (.obj (actionReport (a i) (Value.ofJson (Obj.get act "action_id")))) with
    | true => rfl
    | false =>
      have hstays := hleft (.inl (by rw [actionPosting, halist hown, if_neg (by simp [hsend])]))
      have hpulled := (List.mem_filter.mp (List.mem_of_getElem? hact)).2
      unfold Tunnel.ActionStore.isPending at hpulled
      rw [Bool.and_eq_true] at hpulled
      exact absurd (hall i act hact) (not_completed_of_pending hkey hstays hpulled.1)
  · intro hsend i act hact
    obtain ⟨k, hown, hkey, _, hdone⟩ := hserves i act hact
    have hnone : ∀ j other, (pendingActions d)[j]? = some other →
        actionPosting (a j) (Value.ofJson (.obj other)) ≠ .raises := by
      intro j other _
      unfold actionPosting
      split <;> exact Posting.noConfusion
    obtain ⟨act', hact', houtcome⟩ := hdone hnone (actionReport (a i) (Value.ofJson (Obj.get act "action_id")))
      (by rw [actionPosting, halist hown, if_pos (hsend i act hact)])
    refine ⟨k, act', hkey, hact', ?_⟩
    unfold actionExpected
    cases hhandled : (a i).handled with
    | gave result error => exact houtcome
    | raised =>
      have hreport : actionReport (a i) (Value.ofJson (Obj.get act "action_id")) =
          [("action_id", vfpToJson (a i).printer (Value.ofJson (Obj.get act "action_id"))),
            ("error", .str "layout action raised an error")] := by
        rw [actionReport, hhandled]
        rfl
      rw [houtcome, hreport]
      exact ⟨rfl, rfl⟩

end Passes

/-- In every state the tunnel reaches: a pass of either loop completes every pending request, with an error if
its handler raised and as the handler came out otherwise. For netlist requests exactly if no handler raises;
for actions exactly if the helper can read each outcome. -/
theorem services_isolate_iff {h : List (Entry Desk Tunnel.DeskInput (Except Tunnel.PyExc Json))} {d : Desk}
    (hrun : Run desk (fun _ _ => True) h d) (env : Tunnel.Env) (n : ℕ → Netlister) (a : ℕ → ActionServicer) :
    ((∀ i req, (pendingNetlists d)[i]? = some req →
        CompletedAs .netlist req (netlistExpected (n i) req) ((vfpServiceNetlistRequests env n).exec d).2) ↔
      ∀ i req, (pendingNetlists d)[i]? = some req →
        netlistDeck (n i) (Value.ofJson (.obj req)) ≠ .error .raised) ∧
    ((∀ i act, (pendingActions d)[i]? = some act →
        CompletedAs .action act (actionExpected (a i) act) ((vfpServiceActionRequests env a).exec d).2) ↔
      ∀ i act, (pendingActions d)[i]? = some act →
        sendable (.obj (actionReport (a i) (Value.ofJson (Obj.get act "action_id")))) = true) := by
  have hkeyed := Tunnel.requestsKeyed_of_run hrun
  exact ⟨netlists_isolated_iff hkeyed env n, actions_isolated_iff hkeyed env a⟩

/-- A netlister that opens the cellviews with a library name and writes every deck. -/
def Netlister.sample : Netlister where
  env := .sample
  printer := .sample
  openCellView
    | .str lib, .str cell, .str view => some (some ⟨some lib, some cell, some view⟩)
    | _, _, _ => none
  netlisterBound := true
  netlistDir := "/tmp/vfp_netlist"
  openSetup _ _ := some (.str "fnxSession0")
  getSetup _ := some (.str "test")
  deckWritten _ _ _ _ := true

/-- A dispatch that raises. -/
def ActionServicer.sample : ActionServicer := ⟨.sample, .sample, .raised⟩

/-- A netlist request for a cellview with this library. -/
def sampleNetlistCall (uuid : String) (lib : Json) : Tunnel.DeskInput :=
  .netlist { Tunnel.Env.sample with uuid := uuid } .netlistRequest
    [("cellview", .obj [("lib", lib), ("cell", .str "ota"), ("view", .str "schematic")])]

/-- The channels with two pending netlist requests, the first one for this library. -/
def samplePending (lib : Json) : Desk :=
  (desk.step (sampleNetlistCall "ba9876543210" (.str "lib"))
    (desk.step (sampleNetlistCall "0123456789ab" lib) Tunnel.sampleDesk).2).2

/-- Two requests are made. -/
theorem run_samplePending (lib : Json) : ∃ h, Run desk (fun _ _ => True) h (samplePending lib) := by
  have hstart : Run desk (fun _ _ => True) [] Tunnel.sampleDesk := .init ⟨.empty, rfl⟩
  have hfirst : Run desk (fun _ _ => True) _ _ :=
    .step (i := sampleNetlistCall "0123456789ab" lib) hstart trivial
  exact ⟨_, .step (i := sampleNetlistCall "ba9876543210" (.str "lib")) hfirst trivial⟩

/-- The second of them. -/
def sampleSecond : Obj :=
  Tunnel.NetlistRequestStore.requested { Tunnel.Env.sample with uuid := "ba9876543210" }
    (.obj [("lib", .str "lib"), ("cell", .str "ota"), ("view", .str "schematic")]) .null

/-- The second request is completed as its own. -/
theorem services_isolate_iff_sample : CompletedAs .netlist sampleSecond (netlistExpected .sample sampleSecond)
    ((vfpServiceNetlistRequests .sample fun _ => .sample).exec (samplePending (.str "lib"))).2 := by
  obtain ⟨h, hrun⟩ := run_samplePending (.str "lib")
  refine (services_isolate_iff hrun .sample (fun _ => .sample) fun _ => .sample).1.mpr ?_ 1 _ rfl
  intro i req hreq hraised
  have hdeck : netlistDeck .sample (Value.ofJson (.obj req)) =
      .ok (.str "/tmp/vfp_netlist/lib__ota__schematic/netlist/input.scs") := by
    rcases i with _ | _ | i
    · obtain rfl := Option.some.inj hreq
      rfl
    · obtain rfl := Option.some.inj hreq
      rfl
    · cases hreq
  rw [hdeck] at hraised
  cases hraised

/-- A request whose library is a number makes the netlist loop raise, and the good request behind it stays
pending. -/
theorem netlist_blocked : (∃ h, Run desk (fun _ _ => True) h (samplePending (.int 5))) ∧
    (pendingNetlists (samplePending (.int 5)))[1]? = some sampleSecond ∧
    netlistExpected .sample sampleSecond = some [("request_id", .str "nlr_ba9876543210"),
      ("deck", .str "/tmp/vfp_netlist/lib__ota__schematic/netlist/input.scs")] ∧
    ((vfpServiceNetlistRequests .sample fun _ => .sample).exec (samplePending (.int 5))).1 = .error .raised ∧
    ¬ CompletedAs .netlist sampleSecond (netlistExpected .sample sampleSecond)
      ((vfpServiceNetlistRequests .sample fun _ => .sample).exec (samplePending (.int 5))).2 :=
  ⟨run_samplePending _, rfl, rfl, rfl,
    not_completed_of_pending (k := .str "nlr_ba9876543210") rfl rfl rfl⟩

end VirtuosoFlow.Plugin
