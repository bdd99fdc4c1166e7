import VirtuosoFlow.Base.Permit
import VirtuosoFlow.Base.Run
import VirtuosoFlow.Tunnel.Actions

/-!
# Servicing actions

`vfpServiceActionRequests` (`vfp_rpc_server.il`) pulls the pending actions of its namespace,
runs the handler of one after the other and posts each outcome with `action.complete`. A
pull neither takes an action out of the store nor reserves it: it stays pending until a
completion for it reaches the tunnel. What a handler does is not looked at here, only that
it runs; a posted outcome may be lost, or arrive at any later time.
-/

namespace VirtuosoFlow.Tunnel

open Base

/-- One call of `vfpServiceActionRequests`: the rest of the list it pulled, and the outcome
it has to post before it goes on. -/
structure Servicing where
  queue : List Obj
  report : Option Obj

/-- What `vfpDispatchLayoutAction` may come to under `errset`. -/
inductive Handled where
  | raised
  | gave (result : Option Json) (error : Option String)

/-- The parameters of `vfpActionComplete(aid resultObj errStr)`. -/
def Handled.report (aid : Json) : Handled → Obj
  | .raised => [("action_id", aid), ("error", .str "layout action raised an error")]
  | .gave _ (some error) => [("action_id", aid), ("error", .str error)]
  | .gave (some result) none => [("action_id", aid), ("result", result)]
  | .gave none none =>
    [("action_id", aid), ("error", .str "layout action produced no result")]

/-- Tunnel, servicers, and the completions on their way. -/
structure Exchange where
  channel : Channel
  servicings : List Servicing
  flight : List Obj

/-- What can happen: a request of anybody, the pull that opens a servicing (its answer heard
or not), the next handler of a servicing, its next post, and the arrival of a post. -/
inductive ExchangeInput where
  | rpc (env : Env) (method : ChannelMethod) (params : Obj)
  | pull (ns : Json) (heard : Bool)
  | run (i : ℕ) (outcome : Handled)
  | post (i : ℕ) (sent : Bool)
  | arrive (env : Env) (j : ℕ)

/-- The actions in the answer to `action.pending`. -/
def actionsOf : Except PyExc Json → List Obj
  | .ok (.obj answer) =>
    match Obj.get answer "actions" with
    | .arr items => items.filterMap fun item => match item with
      | .obj action => some action
      | _ => none
    | _ => []
  | _ => []

/-- What a servicer has to do after its pull. -/
def pulled (ns : Json) (heard : Bool) (c : Channel) : List Obj :=
  if heard then actionsOf ((mActionPending [("namespace", ns)]).exec c).1 else []

/-- The outcome a servicer posts; it posts none for an action without an id. -/
def reportOf (action : Obj) (outcome : Handled) : Option Obj :=
  match Obj.get action "action_id" with
  | .null => none
  | aid => some (outcome.report aid)

/-- One step of the exchange, and the answer to a request. -/
def Exchange.step : ExchangeInput → Exchange → Except PyExc Json × Exchange
  | .rpc env method params, x =>
    let out := (method.handle env params).exec x.channel
    (out.1, { x with channel := out.2 })
  | .pull ns heard, x =>
    (.ok .null, { x with servicings := x.servicings ++ [⟨pulled ns heard x.channel, none⟩] })
  | .run i outcome, x =>
    match x.servicings[i]? with
    | some ⟨action :: rest, none⟩ =>
      (.ok .null, { x with servicings := x.servicings.set i ⟨rest, reportOf action outcome⟩ })
    | _ => (.ok .null, x)
  | .post i sent, x =>
    match x.servicings[i]? with
    | some ⟨queue, some report⟩ =>
      (.ok .null, { x with
        servicings := x.servicings.set i ⟨queue, none⟩
        flight := if sent then x.flight ++ [report] else x.flight })
    | _ => (.ok .null, x)
  | .arrive env j, x =>
    match x.flight[j]? with
    | some report =>
      let out := (mActionComplete env report).exec x.channel
      (out.1, { x with channel := out.2, flight := x.flight.eraseIdx j })
    | none => (.ok .null, x)

/-- The exchange from the start of the tunnel on. -/
def exchange : Machine Exchange ExchangeInput (Except PyExc Json) where
  init x := ∃ events, x = ⟨⟨.empty, .empty, events⟩, [], []⟩
  step := Exchange.step

/-- A requested action gets an id that no stored action has. -/
def DrawsFresh (x : Exchange) : ExchangeInput → Prop
  | .rpc env .actionRequest _ => x.channel.actions.get? (.str ("act_" ++ env.uuid)) = none
  | _ => True

/-- The id of an action. -/
def actionId (action : Obj) : Option String :=
  match Obj.get action "action_id" with
  | .str aid => some aid
  | _ => none

/-- The ids of the actions that a step hands to a servicer. -/
def listedAt (e : Entry Exchange ExchangeInput (Except PyExc Json)) : List String :=
  match e.input with
  | .pull ns heard => (pulled ns heard e.before.channel).filterMap actionId
  | _ => []

/-- The id of the action whose handler a step runs. -/
def ranAt (e : Entry Exchange ExchangeInput (Except PyExc Json)) : List String :=
  match e.input with
  | .run i _ =>
    match e.before.servicings[i]? with
    | some ⟨action :: _, none⟩ => (actionId action).toList
    | _ => []
  | _ => []

/-- The parameters of an `action.complete` that a step brings to the tunnel. -/
def completionAt (e : Entry Exchange ExchangeInput (Except PyExc Json)) : Option Obj :=
  match e.input with
  | .rpc _ .actionComplete params => some params
  | .arrive _ j => e.before.flight[j]?
  | _ => none

/-- A completion for the stored action `aid` reaches the tunnel. -/
def Completes (aid : String) (e : Entry Exchange ExchangeInput (Except PyExc Json)) : Prop :=
  ∃ params action, completionAt e = some params ∧ Obj.get params "action_id" = .str aid ∧
    e.before.channel.actions.get? (.str aid) = some action

/-- No servicer has anything left to run. -/
def Idle (x : Exchange) : Prop := ∀ v ∈ x.servicings, v.queue = []

/-- The ids of the actions that the servicers have not run yet. -/
def queuedIds (x : Exchange) : List (List String) :=
  x.servicings.map fun v => v.queue.filterMap actionId

/-- Actions are stored under their ids. -/
def ActionsKeyed (c : Channel) : Prop :=
  ∀ k action, c.actions.get? k = some action → ∃ aid, k = .str aid ∧ actionId action = some aid

/-- The action is stored, and not pending any more. -/
def Closed (aid : String) (c : Channel) : Prop :=
  ∃ action, c.actions.get? (.str aid) = some action ∧
    (Obj.get action "status").pyEq (.str "pending") = false

section Channel

variable {c c' : Channel} {aid : String} {env : Env} {params : Obj}

/-- Listed as pending are the pending actions of the namespace. -/
theorem actionsOf_pending (ns : Json) (c : Channel) :
    actionsOf ((mActionPending [("namespace", ns)]).exec c).1 =
      c.actions.values.filter (ActionStore.isPending ns) := by
  simp [mActionPending, ActionStore.pending, Prog.exec_bind, actionsOf, Obj.get, Obj.getD,
    List.filterMap_map]

/-- A completed action keeps its id and is not pending. -/
theorem completed_spec (env : Env) (result error : Json) (action : Obj) :
    actionId (ActionStore.completed env result error action) = actionId action ∧
      (Obj.get (ActionStore.completed env result error action) "status").pyEq
        (.str "pending") = false := by
  constructor
  · simp [actionId, ActionStore.completed]
  · have hstatus : Obj.get (ActionStore.completed env result error action) "status" =
        .str (if error.truthy then "failed" else "done") := by simp [ActionStore.completed]
    rw [hstatus]
    split <;> rfl

/-- How one request changes the actions: not at all, or it stores a new one, or it completes
a stored one. -/
theorem handle_actions (env : Env) (method : ChannelMethod) (params : Obj) (c : Channel) :
    ((method.handle env params).exec c).2.actions = c.actions ∨
    (method = .actionRequest ∧ ∃ action, actionId action = some ("act_" ++ env.uuid) ∧
      ((method.handle env params).exec c).2.actions =
        c.actions.insert (.str ("act_" ++ env.uuid)) action) ∨
    (∃ k action result error, c.actions.get? k = some action ∧
      ((method.handle env params).exec c).2.actions =
        c.actions.insert k (ActionStore.completed env result error action)) := by
  cases method with
  | extensionRegister => exact .inl (mExtensionRegister_fixes env params c)
  | extensionUnregister => exact .inl (mExtensionUnregister_fixes params c)
  | actionPending =>
    have hreads : ((mActionPending params).exec c).2 = c := mActionPending_reads params c
    exact .inl (congrArg Channel.actions hreads)
  | actionGet => exact .inl (mActionGet_fixes params c)
  | actionRequest =>
    rcases mActionRequest_actions env params c with hsame | hinsert
    · exact .inl hsame
    · exact .inr (.inl ⟨rfl, _, rfl, hinsert⟩)
  | actionComplete =>
    by_cases htruthy : (Obj.get params "action_id").truthy = true
    · cases hkey : (Obj.get params "action_id").key? with
      | none => exact .inl (mActionComplete_refused env params c (.inr hkey))
      | some k =>
        have hactions := mActionComplete_actions env params c htruthy hkey
        cases hget : c.actions.get? k with
        | none =>
          rw [hget] at hactions
          exact .inl hactions
        | some action =>
          rw [hget] at hactions
          exact .inr (.inr ⟨k, action, _, _, hget, hactions⟩)
    · exact .inl (mActionComplete_refused env params c (.inl (by simpa using htruthy)))

/-- A request leaves the actions under their ids. -/
theorem ActionsKeyed.handle (h : ActionsKeyed c) (env : Env) (method : ChannelMethod)
    (params : Obj) : ActionsKeyed ((method.handle env params).exec c).2 := by
  intro k action hk
  rcases handle_actions env method params c with
    hsame | ⟨_, action', hid, hinsert⟩ | ⟨k', action', result, error, hget, hinsert⟩
  · rw [hsame] at hk
    exact h k action hk
  · rw [hinsert, Dict.get?_insert] at hk
    split at hk
    · rename_i heq
      obtain rfl : action' = action := by simpa using hk
      exact ⟨_, heq, hid⟩
    · exact h k action hk
  · rw [hinsert, Dict.get?_insert] at hk
    split at hk
    · rename_i heq
      subst heq
      obtain ⟨aid, hkey, hid⟩ := h k action' hget
      obtain rfl : ActionStore.completed env result error action' = action := by simpa using hk
      exact ⟨aid, hkey, by rw [(completed_spec env result error action').1, hid]⟩
    · exact h k action hk

/-- A closed action stays closed as long as no new one takes its id. -/
theorem Closed.handle (h : Closed aid c) (env : Env) (method : ChannelMethod) (params : Obj)
    (hfresh : method = .actionRequest → c.actions.get? (.str ("act_" ++ env.uuid)) = none) :
    Closed aid ((method.handle env params).exec c).2 := by
  obtain ⟨action, hget, hstatus⟩ := h
  unfold Closed
  rcases handle_actions env method params c with
    hsame | ⟨hmethod, action', hid, hinsert⟩ | ⟨k', action', result, error, hget', hinsert⟩
  · rw [hsame]
    exact ⟨action, hget, hstatus⟩
  · have hne : Key.str aid ≠ .str ("act_" ++ env.uuid) := by
      intro heq
      rw [heq, hfresh hmethod] at hget
      simp at hget
    rw [hinsert, Dict.get?_insert, if_neg hne]
    exact ⟨action, hget, hstatus⟩
  · rw [hinsert, Dict.get?_insert]
    split
    · exact ⟨_, rfl, (completed_spec env result error action').2⟩
    · exact ⟨action, hget, hstatus⟩

/-- A completion closes its action. -/
theorem closed_of_complete (hid : Obj.get params "action_id" = .str aid) (haid : aid ≠ "")
    {action : Obj} (hget : c.actions.get? (.str aid) = some action) :
    Closed aid ((mActionComplete env params).exec c).2 := by
  have htruthy : (Obj.get params "action_id").truthy = true := by simp [hid, haid]
  have hkey : (Obj.get params "action_id").key? = some (.str aid) := by simp [hid]
  unfold Closed
  rw [mActionComplete_actions env params c htruthy hkey, hget]
  exact ⟨_, Dict.get?_insert_self _ _ _, (completed_spec env _ _ action).2⟩

/-- A pull lists no action twice, and no closed one. -/
theorem pulled_spec (ns : Json) (heard : Bool) (h : ActionsKeyed c) :
    ((pulled ns heard c).filterMap actionId).Nodup ∧
      ∀ aid, Closed aid c → aid ∉ (pulled ns heard c).filterMap actionId := by
  unfold pulled
  cases heard with
  | false => simp
  | true =>
    simp only [if_true, actionsOf_pending]
    constructor
    · have hall : (c.actions.values.filterMap actionId).Nodup := by
        refine Dict.nodup_filterMap_values Key.str ?_
        intro k action aid hk hid
        obtain ⟨aid', rfl, hid'⟩ := h k action hk
        rw [Option.some.inj (hid.symm.trans hid')]
      exact hall.sublist (List.filter_sublist.filterMap actionId)
    · rintro aid ⟨action, hget, hstatus⟩ hmem
      obtain ⟨action', hmem', hid⟩ := List.mem_filterMap.mp hmem
      obtain ⟨hstored, hpending⟩ := List.mem_filter.mp hmem'
      obtain ⟨k, hk⟩ := Dict.mem_values_iff.mp hstored
      obtain ⟨aid', rfl, hid'⟩ := h k action' hk
      obtain rfl : aid = aid' := by simpa [hid] using hid'
      obtain rfl : action = action' := by simpa [hget] using hk
      simp [ActionStore.isPending, hstatus] at hpending

end Channel

section Steps

variable {x : Exchange} {aid : String}

/-- Exchanging one servicing splits the ids still to be run around it. -/
theorem queuedIds_set {i : ℕ} {v : Servicing} (hi : x.servicings[i]? = some v) :
    ∃ rest, (queuedIds x).flatten.Perm (v.queue.filterMap actionId ++ rest) ∧
      ∀ v' : Servicing, ((x.servicings.set i v').map fun v => v.queue.filterMap actionId).flatten.Perm
        (v'.queue.filterMap actionId ++ rest) := by
  have hat : (queuedIds x)[i]? = some (v.queue.filterMap actionId) := by simp [queuedIds, hi]
  obtain ⟨rest, hall, hset⟩ := flatten_set_perm hat
  refine ⟨rest, hall, fun v' => ?_⟩
  rw [List.map_set]
  exact hset _

/-- Every listed action is run or still to be run, and nothing else is. -/
theorem balance_step (i : ExchangeInput) (x : Exchange) :
    (ranAt (exchange.fire x i) ++ (queuedIds (exchange.step i x).2).flatten).Perm
      ((queuedIds x).flatten ++ listedAt (exchange.fire x i)) := by
  cases i with
  | rpc env method params => simp [ranAt, listedAt, Machine.fire, exchange, Exchange.step, queuedIds]
  | pull ns heard => simp [ranAt, listedAt, Machine.fire, exchange, Exchange.step, queuedIds]
  | run i outcome =>
    have hnone : listedAt (exchange.fire x (.run i outcome)) = [] := rfl
    rw [hnone, List.append_nil]
    simp only [ranAt, Machine.fire, exchange, Exchange.step]
    cases hi : x.servicings[i]? with
    | none => exact List.Perm.refl _
    | some v =>
      obtain ⟨queue, report⟩ := v
      cases queue with
      | nil => exact List.Perm.refl _
      | cons action rest =>
        cases report with
        | some report => exact List.Perm.refl _
        | none =>
          obtain ⟨others, hall, hset⟩ := queuedIds_set hi
          have hafter := hset ⟨rest, reportOf action outcome⟩
          have hhead : (actionId action).toList ++ (rest.filterMap actionId ++ others) =
              (action :: rest).filterMap actionId ++ others := by
            cases hid : actionId action <;> simp [hid]
          exact ((hafter.append_left _).trans (hhead ▸ List.Perm.refl _)).trans hall.symm
  | post i sent =>
    have hnone : listedAt (exchange.fire x (.post i sent)) = [] := rfl
    have hran : ranAt (exchange.fire x (.post i sent)) = [] := rfl
    rw [hnone, hran, List.append_nil, List.nil_append]
    simp only [exchange, Exchange.step]
    cases hi : x.servicings[i]? with
    | none => exact List.Perm.refl _
    | some v =>
      obtain ⟨queue, report⟩ := v
      cases report with
      | none => exact List.Perm.refl _
      | some report =>
        obtain ⟨others, hall, hset⟩ := queuedIds_set hi
        exact (hset ⟨queue, none⟩).trans hall.symm
  | arrive env j =>
    simp only [ranAt, listedAt, Machine.fire, exchange, Exchange.step]
    split <;> simp [queuedIds]

/-- Every step leaves the actions under their ids. -/
theorem keyed_step (h : ActionsKeyed x.channel) (i : ExchangeInput) :
    ActionsKeyed (exchange.step i x).2.channel := by
  cases i with
  | rpc env method params => exact h.handle env method params
  | pull ns heard => exact h
  | run i outcome =>
    simp only [exchange, Exchange.step]
    split <;> exact h
  | post i sent =>
    simp only [exchange, Exchange.step]
    split <;> exact h
  | arrive env j =>
    simp only [exchange, Exchange.step]
    split
    · exact h.handle env .actionComplete _
    · exact h

/-- A closed action stays closed. -/
theorem closed_step (h : Closed aid x.channel) {i : ExchangeInput} (hfresh : DrawsFresh x i) :
    Closed aid (exchange.step i x).2.channel := by
  cases i with
  | rpc env method params =>
    apply h.handle env method params
    rintro rfl
    exact hfresh
  | pull ns heard => exact h
  | run i outcome =>
    simp only [exchange, Exchange.step]
    split <;> exact h
  | post i sent =>
    simp only [exchange, Exchange.step]
    split <;> exact h
  | arrive env j =>
    simp only [exchange, Exchange.step]
    split
    · exact h.handle env .actionComplete _ (by simp)
    · exact h

/-- A completion that reaches the tunnel closes its action. -/
theorem closed_of_completes {i : ExchangeInput} (haid : aid ≠ "")
    (h : Completes aid (exchange.fire x i)) : Closed aid (exchange.step i x).2.channel := by
  obtain ⟨params, action, hcompletion, hid, hget⟩ := h
  cases i with
  | rpc env method params' =>
    cases method with
    | actionComplete =>
      obtain rfl : params' = params := Option.some.inj hcompletion
      exact closed_of_complete hid haid hget
    | _ => cases hcompletion
  | arrive env j =>
    have hj : x.flight[j]? = some params := hcompletion
    simp only [exchange, Exchange.step, hj]
    exact closed_of_complete hid haid hget
  | _ => cases hcompletion

/-- A step lists no action twice, and no closed one. -/
theorem listedAt_spec (h : ActionsKeyed x.channel) (i : ExchangeInput) :
    (listedAt (exchange.fire x i)).Nodup ∧
      ∀ aid, Closed aid x.channel → aid ∉ listedAt (exchange.fire x i) := by
  cases i with
  | pull ns heard => exact pulled_spec ns heard h
  | _ => exact ⟨List.nodup_nil, fun _ _ => List.not_mem_nil⟩

end Steps

/-- The ids of all actions whose handlers ran, in order. -/
def ranIds (h : List (Entry Exchange ExchangeInput (Except PyExc Json))) : List String :=
  h.flatMap ranAt

section Runs

variable {x : Exchange} {aid : String}
variable {h : List (Entry Exchange ExchangeInput (Except PyExc Json))}

/-- In every run, what was listed was run or is still to be run. -/
theorem balance_of_run (hrun : Run exchange DrawsFresh h x) :
    (ranIds h ++ (queuedIds x).flatten).Perm (h.flatMap listedAt) := by
  induction hrun with
  | init hinit =>
    obtain ⟨events, rfl⟩ := hinit
    simp [ranIds, queuedIds]
  | @step h x i _ _ ih =>
    have hstep := (balance_step i x).append_left (ranIds h)
    have hbefore := ih.append_right (listedAt (exchange.fire x i))
    rw [List.append_assoc] at hbefore
    simpa [ranIds] using hstep.trans hbefore

/-- In every run, no step lists an action twice, and the actions are under their ids. -/
theorem keyed_of_run (hrun : Run exchange DrawsFresh h x) :
    ActionsKeyed x.channel ∧ ∀ e ∈ h, (listedAt e).Nodup := by
  induction hrun with
  | init hinit =>
    obtain ⟨events, rfl⟩ := hinit
    exact ⟨fun k action hk => by simp at hk, by simp⟩
  | @step h x i _ _ ih =>
    obtain ⟨hkeyed, hnodup⟩ := ih
    refine ⟨keyed_step hkeyed i, fun e he => ?_⟩
    rcases List.mem_append.mp he with hmem | hmem
    · exact hnodup e hmem
    · obtain rfl := List.mem_singleton.mp hmem
      exact (listedAt_spec hkeyed i).1

/-- In every run, no step after a completion of an action lists it. -/
theorem not_listed_after (haid : aid ≠ "") (hrun : Run exchange DrawsFresh h x) :
    ((∃ e ∈ h, Completes aid e) → Closed aid x.channel) ∧
      h.Pairwise fun e e' => Completes aid e → aid ∉ listedAt e' := by
  induction hrun with
  | init => exact ⟨by simp, List.Pairwise.nil⟩
  | @step h x i hrun hfresh ih =>
    obtain ⟨hclosed, hpairs⟩ := ih
    constructor
    · rintro ⟨e, he, hcompletes⟩
      rcases List.mem_append.mp he with hmem | hmem
      · exact closed_step (hclosed ⟨e, hmem, hcompletes⟩) hfresh
      · obtain rfl := List.mem_singleton.mp hmem
        exact closed_of_completes haid hcompletes
    · rw [List.pairwise_append]
      refine ⟨hpairs, List.pairwise_singleton _ _, fun e he e' he' hcompletes => ?_⟩
      obtain rfl := List.mem_singleton.mp he'
      exact (listedAt_spec (keyed_of_run hrun).1 i).2 aid (hclosed ⟨e, he, hcompletes⟩)

/-- Where no step lists an id twice, it is listed as often as there are steps that list it. -/
theorem count_flatMap_eq_countP {α : Type*} {f : α → List String} {l : List α}
    (hnodup : ∀ e ∈ l, (f e).Nodup) (aid : String) :
    (l.flatMap f).count aid = l.countP fun e => aid ∈ f e := by
  induction l with
  | nil => rfl
  | cons e l ih =>
    have hrest := ih fun e' he' => hnodup e' (List.mem_cons_of_mem e he')
    have hhead := (hnodup e List.mem_cons_self).count (a := aid)
    rw [List.flatMap_cons, List.count_append, List.countP_cons, hrest, hhead]
    by_cases hmem : aid ∈ f e <;> simp [hmem, Nat.add_comm]

/-- In every run, the handler of an action runs at most once for each pull that lists the
action, exactly once when the servicers are through, and no pull after a completion for it
has reached the tunnel lists it. -/
theorem runs_once_per_listing (hrun : Run exchange DrawsFresh h x) (uuid : String) :
    (ranIds h).count ("act_" ++ uuid) ≤ (h.countP fun e => "act_" ++ uuid ∈ listedAt e) ∧
      (Idle x → (ranIds h).count ("act_" ++ uuid) =
        h.countP fun e => "act_" ++ uuid ∈ listedAt e) ∧
      h.Pairwise fun e e' => Completes ("act_" ++ uuid) e → "act_" ++ uuid ∉ listedAt e' := by
  have haid : "act_" ++ uuid ≠ "" := by simp [String.append_eq_empty_iff]
  have hlisted := count_flatMap_eq_countP (keyed_of_run hrun).2 ("act_" ++ uuid)
  have hbalance := (balance_of_run hrun).count_eq ("act_" ++ uuid)
  rw [List.count_append, hlisted] at hbalance
  refine ⟨by omega, fun hidle => ?_, (not_listed_after haid hrun).2⟩
  have hnone : (queuedIds x).flatten = [] := by
    rw [List.flatten_eq_nil_iff]
    intro ids hids
    obtain ⟨v, hv, rfl⟩ := List.mem_map.mp hids
    rw [hidle v hv]
    rfl
  rw [hnone, List.count_nil] at hbalance
  omega

end Runs

/-- A layout edit is requested, pulled by two servicers before either has posted an outcome,
and run by both. -/
def sampleServicedTwice : List ExchangeInput :=
  [.rpc .sample .actionRequest [("namespace", .str "layout"), ("method", .str "runPrimitive"),
      ("params", .obj [("name", .str "widen_net")])],
    .pull (.str "layout") true, .pull (.str "layout") true,
    .run 0 (.gave (some (.obj [("status", .str "applied")])) none),
    .run 1 (.gave (some (.obj [("status", .str "applied")])) none)]

/-- The tunnel just started. -/
def sampleExchange : Exchange := ⟨⟨.empty, .empty, .empty⟩, [], []⟩

/-- The steps of the exchange on these inputs. -/
def sampleServicedTwiceSteps : List (Entry Exchange ExchangeInput (Except PyExc Json)) :=
  exchange.trace sampleExchange sampleServicedTwice

/-- An action is listed to two plugins. -/
theorem run_sampleServicedTwice : Run exchange DrawsFresh sampleServicedTwiceSteps
    (exchange.last sampleExchange sampleServicedTwice) := by
  have hinit : exchange.init sampleExchange := ⟨.empty, rfl⟩
  apply Run.append_trace (.init hinit) sampleServicedTwice
  intro e he
  simp only [sampleServicedTwice, Machine.trace, List.mem_cons, List.not_mem_nil, or_false] at he
  rcases he with rfl | rfl | rfl | rfl | rfl
  · rfl
  · trivial
  · trivial
  · trivial
  · trivial

/-- Both run it. -/
theorem sampleServicedTwice_ran :
    ranIds sampleServicedTwiceSteps = ["act_0123456789ab", "act_0123456789ab"] := by rfl

/-- It was run no more often than it was listed. -/
theorem runs_once_per_listing_sample :
    (ranIds sampleServicedTwiceSteps).count ("act_" ++ "0123456789ab") ≤
      sampleServicedTwiceSteps.countP fun e => "act_" ++ "0123456789ab" ∈ listedAt e :=
  (runs_once_per_listing run_sampleServicedTwice "0123456789ab").1

/-- Two servicers run the handler of one requested action. -/
theorem run_by_both : ∃ h x, Run exchange DrawsFresh h x ∧
    (ranIds h).count "act_0123456789ab" = 2 := by
  refine ⟨_, _, run_sampleServicedTwice, ?_⟩
  rw [sampleServicedTwice_ran]
  decide

end VirtuosoFlow.Tunnel
