import VirtuosoFlow.Base.Run
import VirtuosoFlow.Tunnel.NetlistRequests

/-!
# The outcome of a finished request

`ActionStore.complete` and `NetlistRequestStore.complete` write the outcome of a request whatever its
status is. So what `action.get` and `netlist.get` return is the last outcome that was posted.
-/

namespace VirtuosoFlow.Tunnel

open Base

/-- The two kinds of requests. -/
inductive Kind where
  | action | netlist
  deriving DecidableEq

namespace Kind

/-- The stored requests of a kind. -/
def records : Kind → Desk → Dict Key Obj
  | .action, d => d.channel.actions
  | .netlist, d => d.netlists

/-- The member that names a request. -/
def idField : Kind → String
  | .action => "action_id"
  | .netlist => "request_id"

/-- The member with the result or the deck. -/
def payload : Kind → String
  | .action => "result"
  | .netlist => "deck"

/-- The member of an answer that holds the request. -/
def member : Kind → String
  | .action => "action"
  | .netlist => "request"

end Kind

/-- A call on one of the channels. -/
inductive DeskInput where
  | action (env : Env) (method : ChannelMethod) (params : Obj)
  | netlist (env : Env) (method : NetlistMethod) (params : Obj)

/-- The handler of a call. -/
def DeskInput.handler : DeskInput → Prog PyExc Desk Json
  | .action env method params => onChannel (method.handle env params)
  | .netlist env method params => method.handle env params

/-- The channels from the start of the tunnel on. -/
def desk : Machine Desk DeskInput (Except PyExc Json) where
  init d := ∃ events, d = ⟨⟨.empty, .empty, events⟩, .empty⟩
  step i d := i.handler.exec d

/-- A new request gets an id that no stored one has. -/
def DrawsNew (d : Desk) : DeskInput → Prop
  | .action env .actionRequest _ => d.channel.actions.get? (.str ("act_" ++ env.uuid)) = none
  | .netlist env .netlistRequest _ => d.netlists.get? (.str ("nlr_" ++ env.uuid)) = none
  | _ => True

/-- What a caller acts on. -/
structure Outcome where
  status : Json
  payload : Json
  error : Json

/-- The outcome in a record. -/
def outcomeOf (kind : Kind) (req : Obj) : Outcome :=
  ⟨Obj.get req "status", Obj.get req kind.payload, Obj.get req "error"⟩

/-- The outcome that the parameters of a completion post. -/
def posted (kind : Kind) (params : Obj) : Outcome :=
  ⟨.str (if (Obj.get params "error").truthy then "failed" else "done"), Obj.get params kind.payload,
    Obj.get params "error"⟩

/-- The parameters name the request under `k`. -/
def names (kind : Kind) (k : Key) (params : Obj) : Bool :=
  (Obj.get params kind.idField).truthy && decide ((Obj.get params kind.idField).key? = some k)

/-- The parameters of a completion for the request under `k`. -/
def completionOf (kind : Kind) (k : Key) : DeskInput → Option Obj
  | .action _ .actionComplete params =>
    if kind = .action ∧ names kind k params = true then some params else none
  | .netlist _ .netlistComplete params =>
    if kind = .netlist ∧ names kind k params = true then some params else none
  | _ => none

/-- The last completion for the request under `k` among these steps. -/
def lastCompletion (kind : Kind) (k : Key) (h : List (Entry Desk DeskInput (Except PyExc Json))) : Option Obj :=
  (h.filterMap fun e => completionOf kind k e.input).getLast?

/-- The call looks the request under `k` up. -/
def Asks (kind : Kind) (k : Key) (i : DeskInput) : Prop :=
  ∃ env params, names kind k params = true ∧
    i = match kind with
      | .action => .action env .actionGet params
      | .netlist => .netlist env .netlistGet params

/-- The step answers a lookup of the request under `k` with this outcome. -/
def Shows (kind : Kind) (k : Key) (o : Outcome) (e : Entry Desk DeskInput (Except PyExc Json)) : Prop :=
  Asks kind k e.input ∧ ∃ req, e.output = .ok (.obj [(kind.member, .obj req)]) ∧ outcomeOf kind req = o

section Steps

variable {kind : Kind} {k : Key} {d : Desk} {i : DeskInput} {req : Obj} {env : Env} {params : Obj}

/-- The request of a call is the one under its id. -/
theorem names_iff : names kind k params = true ↔
    (Obj.get params kind.idField).truthy = true ∧ (Obj.get params kind.idField).key? = some k := by
  rw [names, Bool.and_eq_true, decide_eq_true_iff]

/-- A completed action has the posted outcome. -/
theorem outcomeOf_completed_action (env : Env) (params req : Obj) :
    outcomeOf .action (ActionStore.completed env (Obj.get params "result") (Obj.get params "error") req) =
      posted .action params := by
  simp [outcomeOf, posted, ActionStore.completed, Kind.payload]

/-- So has a completed netlist request. -/
theorem outcomeOf_completed_netlist (env : Env) (params req : Obj) :
    outcomeOf .netlist (NetlistRequestStore.completed env (Obj.get params "deck") (Obj.get params "error") req) =
      posted .netlist params := by
  simp [outcomeOf, posted, NetlistRequestStore.completed, Kind.payload]

/-- A call on the extension API leaves a stored action with its outcome, or with the one it posts. -/
theorem action_outcome {method : ChannelMethod} (hnew : DrawsNew d (.action env method params))
    (hreq : d.channel.actions.get? k = some req) :
    ∃ req', (desk.step (.action env method params) d).2.channel.actions.get? k = some req' ∧
      outcomeOf .action req' = (completionOf .action k (.action env method params)).elim (outcomeOf .action req)
        (posted .action) := by
  have hsame : ∀ c : Channel, c.actions = d.channel.actions → ∃ req', c.actions.get? k = some req' ∧
      outcomeOf .action req' = outcomeOf .action req := fun c hc => ⟨req, by rw [hc, hreq], rfl⟩
  cases method with
  | extensionRegister => exact hsame _ (mExtensionRegister_fixes env params d.channel)
  | extensionUnregister => exact hsame _ (mExtensionUnregister_fixes params d.channel)
  | actionPending =>
    have hreads : ((mActionPending params).exec d.channel).2 = d.channel := mActionPending_reads params d.channel
    exact hsame _ (congrArg Channel.actions hreads)
  | actionGet => exact hsame _ (mActionGet_fixes params d.channel)
  | actionRequest =>
    rcases mActionRequest_actions env params d.channel with hstays | hinsert
    · exact hsame _ hstays
    · have hne : k ≠ .str ("act_" ++ env.uuid) := by
        rintro rfl
        rw [show d.channel.actions.get? (.str ("act_" ++ env.uuid)) = none from hnew] at hreq
        cases hreq
      refine ⟨req, ?_, rfl⟩
      change ((mActionRequest env params).exec d.channel).2.actions.get? k = some req
      rw [hinsert, Dict.get?_insert_ne _ hne, hreq]
  | actionComplete =>
    by_cases hnames : names .action k params = true
    · have hnamed : (Obj.get params "action_id").truthy = true ∧ (Obj.get params "action_id").key? = some k :=
        names_iff.mp hnames
      have hactions := mActionComplete_actions env params d.channel hnamed.1 hnamed.2
      rw [hreq] at hactions
      refine ⟨ActionStore.completed env (Obj.get params "result") (Obj.get params "error") req, ?_, ?_⟩
      · change ((mActionComplete env params).exec d.channel).2.actions.get? k = _
        rw [hactions, Dict.get?_insert_self]
      · rw [outcomeOf_completed_action, completionOf, if_pos ⟨rfl, hnames⟩]
        rfl
    · have hnone : completionOf .action k (.action env .actionComplete params) = none := by
        simp [completionOf, hnames]
      rw [hnone]
      by_cases htruthy : (Obj.get params "action_id").truthy = true
      · cases hkey : (Obj.get params "action_id").key? with
        | none => exact hsame _ (mActionComplete_refused env params d.channel (.inr hkey))
        | some k' =>
          have hne : k ≠ k' := by
            rintro rfl
            exact hnames (names_iff.mpr ⟨htruthy, hkey⟩)
          have hactions := mActionComplete_actions env params d.channel htruthy hkey
          refine ⟨req, ?_, rfl⟩
          change ((mActionComplete env params).exec d.channel).2.actions.get? k = some req
          rw [hactions]
          split
          · exact hreq
          · rw [Dict.get?_insert_ne _ hne, hreq]
      · exact hsame _ (mActionComplete_refused env params d.channel (.inl (by simpa using htruthy)))

/-- The same on the netlist channel. -/
theorem netlist_outcome {method : NetlistMethod} (hnew : DrawsNew d (.netlist env method params))
    (hreq : d.netlists.get? k = some req) :
    ∃ req', (desk.step (.netlist env method params) d).2.netlists.get? k = some req' ∧
      outcomeOf .netlist req' = (completionOf .netlist k (.netlist env method params)).elim
        (outcomeOf .netlist req) (posted .netlist) := by
  have hsame : ∀ d' : Desk, d'.netlists = d.netlists → ∃ req', d'.netlists.get? k = some req' ∧
      outcomeOf .netlist req' = outcomeOf .netlist req := fun d' hd => ⟨req, by rw [hd, hreq], rfl⟩
  cases method with
  | netlistGet =>
    have hreads : ((mNetlistGet params).exec d).2 = d := mNetlistGet_reads params d
    exact hsame _ (congrArg Desk.netlists hreads)
  | netlistPending =>
    have hreads : (mNetlistPending.exec d).2 = d := mNetlistPending_reads d
    exact hsame _ (congrArg Desk.netlists hreads)
  | netlistRequest =>
    rcases mNetlistRequest_netlists env params d with hstays | hinsert
    · exact hsame _ hstays
    · have hne : k ≠ .str ("nlr_" ++ env.uuid) := by
        rintro rfl
        rw [show d.netlists.get? (.str ("nlr_" ++ env.uuid)) = none from hnew] at hreq
        cases hreq
      refine ⟨req, ?_, rfl⟩
      change ((mNetlistRequest env params).exec d).2.netlists.get? k = some req
      rw [hinsert, Dict.get?_insert_ne _ hne, hreq]
  | netlistComplete =>
    rcases mNetlistComplete_netlists env params d with ⟨hstays, hmissed⟩ | ⟨k', req', htruthy, hkey, hget, hactions⟩
    · have hnot : ¬ names .netlist k params = true := by
        intro hnames
        have hnamed : (Obj.get params "request_id").truthy = true ∧ (Obj.get params "request_id").key? = some k :=
          names_iff.mp hnames
        rcases hmissed with hfalse | hnone
        · rw [hnamed.1] at hfalse
          cases hfalse
        · rw [hnone k hnamed.2] at hreq
          cases hreq
      have hnone : completionOf .netlist k (.netlist env .netlistComplete params) = none := by
        simp [completionOf, hnot]
      rw [hnone]
      exact hsame _ hstays
    · change ∃ r, ((mNetlistComplete env params).exec d).2.netlists.get? k = some r ∧ _
      rw [hactions]
      by_cases hk : k = k'
      · subst hk
        have hnames : names .netlist k params = true := names_iff.mpr ⟨htruthy, hkey⟩
        obtain rfl : req = req' := Option.some.inj (hreq.symm.trans hget)
        refine ⟨_, Dict.get?_insert_self _ _ _, ?_⟩
        rw [outcomeOf_completed_netlist, completionOf, if_pos ⟨rfl, hnames⟩]
        rfl
      · have hnot : ¬ names .netlist k params = true := by
          intro hnames
          have hkey' : (Obj.get params "request_id").key? = some k := (names_iff.mp hnames).2
          exact hk (Option.some.inj (hkey'.symm.trans hkey))
        have hnone : completionOf .netlist k (.netlist env .netlistComplete params) = none := by
          simp [completionOf, hnot]
        rw [hnone, Dict.get?_insert_ne _ hk]
        exact ⟨req, hreq, rfl⟩

/-- A call leaves a stored request with its outcome, or with the one it posts. -/
theorem step_outcome (hnew : DrawsNew d i) (hreq : (kind.records d).get? k = some req) :
    ∃ req', (kind.records (desk.step i d).2).get? k = some req' ∧
      outcomeOf kind req' = (completionOf kind k i).elim (outcomeOf kind req) (posted kind) := by
  cases i with
  | action env method params =>
    cases kind with
    | action => exact action_outcome hnew hreq
    | netlist =>
      have hnone : completionOf .netlist k (.action env method params) = none := by
        cases method <;> simp [completionOf]
      rw [hnone]
      exact ⟨req, hreq, rfl⟩
  | netlist env method params =>
    cases kind with
    | netlist => exact netlist_outcome hnew hreq
    | action =>
      have hnone : completionOf .action k (.netlist env method params) = none := by
        cases method <;> simp [completionOf]
      rw [hnone]
      have hfixes : (method.handle env params |>.exec d).2.channel.actions = d.channel.actions :=
        NetlistMethod.handle_fixes env method params d
      refine ⟨req, ?_, rfl⟩
      change (method.handle env params |>.exec d).2.channel.actions.get? k = some req
      rw [hfixes]
      exact hreq

/-- A lookup of a stored request answers with its record and changes nothing. -/
theorem step_asks (hasks : Asks kind k i) (hreq : (kind.records d).get? k = some req) :
    desk.step i d = (.ok (.obj [(kind.member, .obj req)]), d) := by
  obtain ⟨env, params, hnames, rfl⟩ := hasks
  cases kind with
  | action =>
    have hnamed : (Obj.get params "action_id").truthy = true ∧ (Obj.get params "action_id").key? = some k :=
      names_iff.mp hnames
    have hstored : d.channel.actions.get? k = some req := hreq
    have hexec : (mActionGet params).exec d.channel = (.ok (.obj [("action", .obj req)]), d.channel) := by
      simp [mActionGet, ActionStore.get, hnamed.1, hnamed.2, hashKey, hstored, Prog.exec_bind]
    change (onChannel (mActionGet params)).exec d = _
    rw [onChannel, Prog.exec_zoom, hexec]
    rfl
  | netlist =>
    have hnamed : (Obj.get params "request_id").truthy = true ∧ (Obj.get params "request_id").key? = some k :=
      names_iff.mp hnames
    have hstored : d.netlists.get? k = some req := hreq
    change (mNetlistGet params).exec d = _
    simp [mNetlistGet, NetlistRequestStore.get, hnamed.1, hnamed.2, hashKey, hstored, Prog.exec_bind, Kind.member]

/-- What a lookup answers with is stored. -/
theorem stored_of_shows {o : Outcome} {e : Entry Desk DeskInput (Except PyExc Json)}
    (hfire : e = desk.fire e.before e.input) (h : Shows kind k o e) :
    ∃ req, (kind.records e.after).get? k = some req ∧ outcomeOf kind req = o := by
  obtain ⟨hasks, req, hanswer, houtcome⟩ := h
  cases hreq : (kind.records e.before).get? k with
  | some req' =>
    have hstep := step_asks hasks hreq
    rw [hfire] at hanswer ⊢
    obtain rfl : req' = req := by simpa [Machine.fire, hstep] using hanswer
    refine ⟨req', ?_, houtcome⟩
    change (kind.records (desk.step e.input e.before).2).get? k = _
    rw [hstep]
    exact hreq
  | none =>
    -- an unknown id is answered with an error
    obtain ⟨env, params, hnames, hinput⟩ := hasks
    obtain ⟨htruthy, hkey⟩ := names_iff.mp hnames
    rw [hfire] at hanswer
    cases kind with
    | action =>
      have hfree : e.before.channel.actions.get? k = none := hreq
      simp only [Kind.idField] at htruthy hkey
      rw [hinput] at hanswer
      simp [Machine.fire, desk, DeskInput.handler, onChannel, ChannelMethod.handle, mActionGet, ActionStore.get,
        htruthy, hkey, hashKey, hfree, Prog.exec_bind] at hanswer
    | netlist =>
      have hfree : e.before.netlists.get? k = none := hreq
      simp only [Kind.idField] at htruthy hkey
      rw [hinput] at hanswer
      simp [Machine.fire, desk, DeskInput.handler, NetlistMethod.handle, mNetlistGet, NetlistRequestStore.get,
        htruthy, hkey, hashKey, hfree, Prog.exec_bind] at hanswer

end Steps

/-- The request is stored under the id it tells, and its members have names of their own. -/
def RequestKeyed (kind : Kind) (k : Key) (req : Obj) : Prop :=
  ∃ id, k = .str id ∧ id ≠ "" ∧ Obj.get req kind.idField = .str id ∧ (req.map Prod.fst).Nodup

/-- All requests of both kinds are. -/
def RequestsKeyed (d : Desk) : Prop :=
  ∀ kind k req, (Kind.records kind d).get? k = some req → RequestKeyed kind k req

section Keys

variable {kind : Kind} {k : Key} {d : Desk} {i : DeskInput}

/-- Setting a member repeats no name. -/
theorem nodup_set {o : Obj} (h : (o.map Prod.fst).Nodup) (f : String) (v : Json) :
    ((Obj.set o f v).map Prod.fst).Nodup := by
  have hkeys := keys_assocSet f v o
  rw [Obj.set, hkeys]
  split
  · exact h
  · rename_i hnew
    exact List.nodup_append.mpr ⟨h, List.nodup_singleton _, fun a ha b hb => by
      rintro rfl
      exact hnew (List.mem_singleton.mp hb ▸ ha)⟩

/-- A prefixed id is not empty. -/
theorem prefixed_ne_empty {p : String} (hp : p ≠ "") (s : String) : p ++ s ≠ "" := by
  intro h
  exact hp (String.append_eq_empty_iff.mp h).1

/-- A completed action stays under its key. -/
theorem requestKeyed_completed_action {env : Env} {result error : Json} {act : Obj}
    (h : RequestKeyed .action k act) : RequestKeyed .action k (ActionStore.completed env result error act) := by
  obtain ⟨id, hk, hne, hid, hnodup⟩ := h
  refine ⟨id, hk, hne, ?_, nodup_set (nodup_set (nodup_set (nodup_set hnodup _ _) _ _) _ _) _ _⟩
  rw [← hid]
  simp [ActionStore.completed, Kind.idField]

/-- So does a completed netlist request. -/
theorem requestKeyed_completed_netlist {env : Env} {deck error : Json} {req : Obj}
    (h : RequestKeyed .netlist k req) : RequestKeyed .netlist k (NetlistRequestStore.completed env deck error req) := by
  obtain ⟨id, hk, hne, hid, hnodup⟩ := h
  refine ⟨id, hk, hne, ?_, nodup_set (nodup_set (nodup_set (nodup_set hnodup _ _) _ _) _ _) _ _⟩
  rw [← hid]
  simp [NetlistRequestStore.completed, Kind.idField]

/-- A call leaves the requests under their ids. -/
theorem requestsKeyed_step (h : RequestsKeyed d) (i : DeskInput) : RequestsKeyed (desk.step i d).2 := by
  have hinsert : ∀ {kind : Kind} {k' : Key} {req' : Obj}, RequestKeyed kind k' req' →
      ∀ k req, ((kind.records d).insert k' req').get? k = some req → RequestKeyed kind k req := by
    intro kind k' req' hkeyed k req hget
    rw [Dict.get?_insert] at hget
    split at hget
    · rename_i hk
      obtain rfl := Option.some.inj hget
      exact hk ▸ hkeyed
    · exact h kind k req hget
  intro kind k req hget
  cases i with
  | action env method params =>
    cases kind with
    | netlist => exact h .netlist k req hget
    | action =>
      have hsame : ∀ c : Channel, c.actions = d.channel.actions → c.actions.get? k = some req →
          RequestKeyed .action k req := fun c hc hreq => h .action k req (by rw [← hreq, hc]; rfl)
      cases method with
      | extensionRegister => exact hsame _ (mExtensionRegister_fixes env params d.channel) hget
      | extensionUnregister => exact hsame _ (mExtensionUnregister_fixes params d.channel) hget
      | actionPending =>
        have hreads : ((mActionPending params).exec d.channel).2 = d.channel := mActionPending_reads params d.channel
        exact hsame _ (congrArg Channel.actions hreads) hget
      | actionGet => exact hsame _ (mActionGet_fixes params d.channel) hget
      | actionRequest =>
        rcases mActionRequest_actions env params d.channel with hstays | hnew
        · exact hsame _ hstays hget
        · change ((mActionRequest env params).exec d.channel).2.actions.get? k = some req at hget
          rw [hnew] at hget
          refine hinsert ⟨_, rfl, prefixed_ne_empty (by decide) _, rfl, ?_⟩ k req hget
          simp [ActionStore.requested]
      | actionComplete =>
        by_cases hid : (Obj.get params "action_id").truthy = false ∨ (Obj.get params "action_id").key? = none
        · exact hsame _ (mActionComplete_refused env params d.channel hid) hget
        · obtain ⟨htruthy, hkey⟩ := not_or.mp hid
          obtain ⟨k', hk'⟩ := Option.ne_none_iff_exists'.mp hkey
          have hactions := mActionComplete_actions env params d.channel (by simpa using htruthy) hk'
          cases hstored : d.channel.actions.get? k' with
          | none =>
            rw [hstored] at hactions
            exact hsame _ hactions hget
          | some act =>
            rw [hstored] at hactions
            change ((mActionComplete env params).exec d.channel).2.actions.get? k = some req at hget
            rw [hactions] at hget
            exact hinsert (requestKeyed_completed_action (h .action k' act hstored)) k req hget
  | netlist env method params =>
    cases kind with
    | action =>
      have hfixes : (method.handle env params |>.exec d).2.channel.actions = d.channel.actions :=
        NetlistMethod.handle_fixes env method params d
      change (method.handle env params |>.exec d).2.channel.actions.get? k = some req at hget
      rw [hfixes] at hget
      exact h .action k req hget
    | netlist =>
      have hsame : ∀ d' : Desk, d'.netlists = d.netlists → d'.netlists.get? k = some req →
          RequestKeyed .netlist k req := fun d' hd hreq => h .netlist k req (by rw [← hreq, hd]; rfl)
      cases method with
      | netlistGet =>
        have hreads : ((mNetlistGet params).exec d).2 = d := mNetlistGet_reads params d
        exact hsame _ (congrArg Desk.netlists hreads) hget
      | netlistPending =>
        have hreads : (mNetlistPending.exec d).2 = d := mNetlistPending_reads d
        exact hsame _ (congrArg Desk.netlists hreads) hget
      | netlistRequest =>
        rcases mNetlistRequest_netlists env params d with hstays | hnew
        · exact hsame _ hstays hget
        · change ((mNetlistRequest env params).exec d).2.netlists.get? k = some req at hget
          rw [hnew] at hget
          refine hinsert ⟨_, rfl, prefixed_ne_empty (by decide) _, rfl, ?_⟩ k req hget
          simp [NetlistRequestStore.requested]
      | netlistComplete =>
        rcases mNetlistComplete_netlists env params d with ⟨hstays, _⟩ | ⟨k', req', _, _, hstored, hnew⟩
        · exact hsame _ hstays hget
        · change ((mNetlistComplete env params).exec d).2.netlists.get? k = some req at hget
          rw [hnew] at hget
          exact hinsert (requestKeyed_completed_netlist (h .netlist k' req' hstored)) k req hget

/-- Along every run the requests lie under their ids. -/
theorem requestsKeyed_of_run {h : List (Entry Desk DeskInput (Except PyExc Json))} {ok : Desk → DeskInput → Prop}
    (hrun : Run desk ok h d) : RequestsKeyed d := by
  refine hrun.invariant (I := RequestsKeyed) ?_ fun _ i _ hkeyed => requestsKeyed_step hkeyed i
  rintro _ ⟨events, rfl⟩ kind k req hreq
  cases kind <;> simp [Kind.records] at hreq

end Keys

section Runs

variable {h h₁ h₂ h₃ : List (Entry Desk DeskInput (Except PyExc Json))} {d : Desk} {kind : Kind} {k : Key}

/-- The last completion after one more step. -/
theorem lastCompletion_append (h : List (Entry Desk DeskInput (Except PyExc Json)))
    (e : Entry Desk DeskInput (Except PyExc Json)) :
    lastCompletion kind k (h ++ [e]) = (completionOf kind k e.input).or (lastCompletion kind k h) := by
  unfold lastCompletion
  rw [List.filterMap_append]
  cases hlast : completionOf kind k e.input with
  | none => simp [hlast]
  | some params => simp [hlast]

/-- Along every run: a lookup that comes after another one of the same request is answered, and with the same
outcome exactly if the last completion in between, if there is one, posts that outcome. -/
theorem outcome_kept_iff (hrun : Run desk DrawsNew h d) {o : Outcome} {g g' : Entry Desk DeskInput (Except PyExc Json)}
    (hh : h = h₁ ++ g :: h₂ ++ g' :: h₃) (hg : Shows kind k o g) (hg' : Asks kind k g'.input) :
    ∃ o', Shows kind k o' g' ∧
      (o' = o ↔ ∀ params, lastCompletion kind k h₂ = some params → posted kind params = o) := by
  obtain ⟨hbefore, _, hfire'⟩ := hrun.prior hh
  obtain ⟨_, _, hfire⟩ := hbefore.prior rfl
  obtain ⟨req, hreq, houtcome⟩ := stored_of_shows hfire hg
  have hsegment : ∃ req, (kind.records g'.before).get? k = some req ∧
      outcomeOf kind req = (lastCompletion kind k h₂).elim o (posted kind) := by
    refine Run.segment (R := fun h d => ∃ req, (kind.records d).get? k = some req ∧
      outcomeOf kind req = (lastCompletion kind k h).elim o (posted kind)) ?_ hbefore rfl ⟨req, hreq, houtcome⟩
    rintro h d i hnew ⟨req, hreq, houtcome⟩
    obtain ⟨req', hreq', hstep⟩ := step_outcome hnew hreq
    refine ⟨req', hreq', ?_⟩
    rw [hstep, lastCompletion_append, houtcome]
    change _ = ((completionOf kind k i).or (lastCompletion kind k h)).elim o (posted kind)
    cases completionOf kind k i <;> rfl
  obtain ⟨req', hreq', houtcome'⟩ := hsegment
  have hanswer := step_asks hg' hreq'
  refine ⟨_, ⟨hg', req', ?_, rfl⟩, ?_⟩
  · rw [hfire']
    exact congrArg Prod.fst hanswer
  · rw [houtcome']
    cases lastCompletion kind k h₂ <;> simp

end Runs

/-- The netlist request of the samples is asked for. -/
def sampleDeckRequest : DeskInput := .netlist .sample .netlistRequest [("cellview", .obj [("lib", .str "lib")])]

/-- A completion of it. -/
def sampleDeckPost (member : String) (v : Json) : DeskInput :=
  .netlist .sample .netlistComplete [("request_id", .str "nlr_0123456789ab"), (member, v)]

/-- A lookup of it. -/
def sampleDeckGet : DeskInput := .netlist .sample .netlistGet [("request_id", .str "nlr_0123456789ab")]

/-- The channels before the first request. -/
def sampleDesk : Desk := ⟨⟨.empty, .empty, .empty⟩, .empty⟩

/-- The channels after the request and its deck. -/
def sampleDecked : Desk :=
  (desk.step (sampleDeckPost "deck" (.str "/tmp/d/input.scs")) (desk.step sampleDeckRequest sampleDesk).2).2

/-- The outcome of a deck that was posted. -/
def sampleDeckDone : Outcome := ⟨.str "done", .str "/tmp/d/input.scs", .null⟩

/-- The steps to the deck. -/
def sampleDeckSteps : List (Entry Desk DeskInput (Except PyExc Json)) :=
  desk.trace sampleDesk [sampleDeckRequest, sampleDeckPost "deck" (.str "/tmp/d/input.scs")]

/-- A request is completed with a deck. -/
theorem run_sampleDecked : Run desk DrawsNew sampleDeckSteps sampleDecked := by
  have hstart : Run desk DrawsNew [] sampleDesk := .init ⟨.empty, rfl⟩
  refine hstart.append_trace [sampleDeckRequest, sampleDeckPost "deck" (.str "/tmp/d/input.scs")] ?_
  intro e he
  simp only [Machine.trace, List.mem_cons, List.not_mem_nil, or_false] at he
  rcases he with rfl | rfl
  · rfl
  · trivial

/-- It shows the deck. -/
theorem sampleDecked_shows :
    Shows .netlist (.str "nlr_0123456789ab") sampleDeckDone (desk.fire sampleDecked sampleDeckGet) :=
  ⟨⟨_, _, rfl, rfl⟩, _, rfl, rfl⟩

/-- It shows the same deck again. -/
theorem outcome_kept_iff_sample : ∃ o', Shows .netlist (.str "nlr_0123456789ab") o'
      (desk.fire (desk.step sampleDeckGet sampleDecked).2 sampleDeckGet) ∧ o' = sampleDeckDone := by
  have hfirst : Run desk DrawsNew _ _ := .step (i := sampleDeckGet) run_sampleDecked trivial
  have hsecond : Run desk DrawsNew _ _ := .step (i := sampleDeckGet) hfirst trivial
  have hasks : Asks .netlist (.str "nlr_0123456789ab") sampleDeckGet := ⟨_, _, rfl, rfl⟩
  have hshown : sampleDeckSteps ++ [desk.fire sampleDecked sampleDeckGet] ++
      [desk.fire (desk.step sampleDeckGet sampleDecked).2 sampleDeckGet] =
    sampleDeckSteps ++ desk.fire sampleDecked sampleDeckGet :: [] ++
      desk.fire (desk.step sampleDeckGet sampleDecked).2 sampleDeckGet :: [] := rfl
  obtain ⟨o', hshows, hiff⟩ := outcome_kept_iff hsecond hshown sampleDecked_shows hasks
  exact ⟨o', hshows, hiff.mpr (by simp [lastCompletion])⟩

/-- A late completion makes a failure of a deck that a caller has been shown. -/
theorem outcome_overwritten : ∃ h₁ g h₂ g' d o o', Run desk DrawsNew (h₁ ++ g :: h₂ ++ [g']) d ∧
    Shows .netlist (.str "nlr_0123456789ab") o g ∧ o.status = .str "done" ∧
    Shows .netlist (.str "nlr_0123456789ab") o' g' ∧ o'.status = .str "failed" := by
  have hshown : Run desk DrawsNew _ _ := .step (i := sampleDeckGet) run_sampleDecked trivial
  have hlate : Run desk DrawsNew _ _ := .step (i := sampleDeckPost "error" (.str "netlisting failed")) hshown trivial
  have hagain : Run desk DrawsNew _ _ := .step (i := sampleDeckGet) hlate trivial
  refine ⟨sampleDeckSteps, desk.fire sampleDecked sampleDeckGet, [_], _, _, sampleDeckDone,
    ⟨.str "failed", .null, .str "netlisting failed"⟩, hagain, sampleDecked_shows, rfl,
      ⟨⟨_, _, rfl, rfl⟩, _, rfl, rfl⟩, rfl⟩

end VirtuosoFlow.Tunnel
