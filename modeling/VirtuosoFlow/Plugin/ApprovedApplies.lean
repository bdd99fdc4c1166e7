import VirtuosoFlow.Tunnel.ApprovalGate
import VirtuosoFlow.Tunnel.Agreement
import VirtuosoFlow.Tunnel.StoredProposals
import VirtuosoFlow.Tunnel.FiledRequests
import VirtuosoFlow.Plugin.ApplyAgreement

/-!
# Applying approved proposals

`vfpApplyProposal` asks the tunnel for a proposal and applies it if it is approved, and `vfpApplyAllApproved` does
this for each proposal that the tunnel lists as approved. While it does, other clients may approve, reject and apply
proposals, and requests that were late arrive.
-/

namespace VirtuosoFlow.Plugin

open Base Tunnel

/-- The first two steps of `vfpApplyProposal`: the proposal, if the tunnel has it and it is approved. -/
def fetchApproved (s : Session) (pid : Value) (w : World) : Option Value × World :=
  let res := vfpRpcParam s .proposalGet "proposal_id" (s.printer.format pid) w
  let proposal := vfpAlistGet res.1.payload "proposal"
  (if res.1.ok = true ∧ vfpAlistGet proposal "status" = .str "approved" then some proposal else none, res.2)

/-- `vfpApplyProposal(proposalId)`: the id of the transaction, or `nil`; each call of the tunnel has a session. -/
def vfpApplyProposal (s s' : Session) (pid : Value) (w : World) : Value × World :=
  let got := fetchApproved s pid w
  match got.1 with
  | none => (.nil, got.2)
  | some proposal => vfpApplyTransaction s' proposal got.2

/-- The proposals that `proposal.list` gives as approved. -/
def listApproved (s : Session) (w : World) : List Value × World :=
  let res := vfpRpcExec s .proposalList [("status", .str "approved")] w
  (if res.1.ok then (vfpAlistGet res.1.payload "proposals").toList else [], res.2)

/-- `vfpApplyApprovedProposal()`. -/
def vfpApplyApprovedProposal (s s' s'' : Session) (w : World) : Value × World :=
  let listed := listApproved s w
  match listed.1 with
  | [] => (.nil, listed.2)
  | p :: _ => vfpApplyProposal s' s'' (vfpAlistGet p "proposal_id") listed.2

/-- The loop of `vfpApplyAllApproved`: the pairs `(pid txnId)` of the proposals that were applied. -/
def applyEach : (ℕ → Session × Session) → List Value → World → List (Value × Value) × World
  | _, [], w => ([], w)
  | calls, p :: rest, w =>
    let pid := vfpAlistGet p "proposal_id"
    let out := vfpApplyProposal (calls 0).1 (calls 0).2 pid w
    let others := applyEach (fun i => calls (i + 1)) rest out.2
    (if out.1 = .nil then others.1 else (pid, out.1) :: others.1, others.2)

/-- The request of `vfpFetchPendingProposals()`. -/
def refreshPending (s : Session) (w : World) : World :=
  (vfpRpcExec s .proposalList [("status", .str "pending")] w).2

/-- `vfpApplyAllApproved()`. -/
def vfpApplyAllApproved (s s' : Session) (calls : ℕ → Session × Session) (w : World) : List (Value × Value) × World :=
  let listed := listApproved s w
  match listed.1 with
  | [] => ([], listed.2)
  | proposals =>
    let out := applyEach calls proposals listed.2
    (out.1, refreshPending s' out.2)

/-- A Virtuoso process at work: the proposals it still has to look at, the one that passed the gate with the id it was
asked for by, and what was applied. -/
structure Console where
  world : World
  runners : List Runner
  queue : List Value
  held : Option (Value × Value)
  applied : List (Value × Value)

namespace Console

/-- The daemon that the process is connected to. -/
def system (c : Console) : System := ⟨c.world.tunnel, c.runners⟩

/-- The process waits for its user. -/
def idle (c : Console) : Bool := c.queue.isEmpty && c.held.isNone

end Console

/-- What happens around the process, and the parts of its functions. -/
inductive ConsoleInput where
  /-- Another client, the sweep or a runner. -/
  | daemon (i : Input)
  /-- A request arrives that the process no longer waits for. -/
  | arrive (n : ℕ)
  /-- The designer edits. -/
  | draw (db : Database)
  | applyProposal (pid : Value)
  | applyApproved (s : Session)
  | applyAll (s : Session)
  /-- The next proposal is fetched. -/
  | fetch (s : Session)
  /-- The proposal that passed the gate is applied. -/
  | apply (s : Session)
  | refresh (s : Session)

/-- One input. -/
def Console.step : ConsoleInput → Console → Value × Console
  | .daemon i, c =>
    let system := (Tunnel.daemon.step i c.system).2
    (.nil, { c with world := { c.world with tunnel := system.tunnel }, runners := system.runners })
  | .arrive n, c =>
    match c.world.inFlight[n]? with
    | none => (.nil, c)
    | some r =>
      (.nil, { c with world := { c.world.serve r.1 r.2.1 r.2.2 with inFlight := c.world.inFlight.eraseIdx n } })
  | .draw db, c => (.nil, { c with world := { c.world with db := db } })
  | .applyProposal pid, c => (.nil, if c.idle then { c with queue := [pid] } else c)
  | .applyApproved s, c =>
    if c.idle then
      let listed := listApproved s c.world
      (.nil, { c with world := listed.2, queue := (listed.1.take 1).map (vfpAlistGet · "proposal_id") })
    else (.nil, c)
  | .applyAll s, c =>
    if c.idle then
      let listed := listApproved s c.world
      (.nil, { c with world := listed.2, queue := listed.1.map (vfpAlistGet · "proposal_id") })
    else (.nil, c)
  | .fetch s, c =>
    match c.held, c.queue with
    | none, pid :: rest =>
      let got := fetchApproved s pid c.world
      (.nil, { c with world := got.2, queue := rest, held := got.1.map fun proposal => (pid, proposal) })
    | _, _ => (.nil, c)
  | .apply s, c =>
    match c.held with
    | none => (.nil, c)
    | some (pid, proposal) =>
      let out := vfpApplyTransaction s proposal c.world
      (out.1, { c with
        world := out.2
        held := none
        applied := if out.1 = .nil then c.applied else c.applied ++ [(pid, out.1)] })
  | .refresh s, c => (.nil, { c with world := refreshPending s c.world })

/-- A process that starts over this design, with a tunnel without records. -/
def console (db : Database) : Machine Console ConsoleInput Value where
  init c := ∃ registry, c = ⟨⟨db, Tunnel.fresh registry, []⟩, [], [], none, []⟩
  step := Console.step

/-- What other clients send keeps the gate, and is JSON, where no name comes twice; the process has one printer. -/
def ConsoleInput.Ordinary (printer : Printer) (c : Console) : ConsoleInput → Prop
  | .daemon i => KeepsGate c.system i ∧ ∀ env params data, i = .request env .proposalCreate params →
      Obj.get params "proposal" = .obj data → UniqueMembers data
  | .arrive _ | .draw _ | .applyProposal _ => True
  | .applyApproved s | .applyAll s | .fetch s | .apply s | .refresh s => s.printer = printer

section Functions

variable {c : Console} {w : World}

/-- The pairs that the inputs of a batch add. -/
def batchInputs (calls : ℕ → Session × Session) : ℕ → List ConsoleInput
  | 0 => []
  | n + 1 => .fetch (calls 0).1 :: .apply (calls 0).2 :: batchInputs (fun i => calls (i + 1)) n

/-- Fetching the next proposal and applying it is `vfpApplyProposal`. -/
theorem last_fetch_apply (db : Database) (s s' : Session) {pid : Value} {rest : List Value} (hheld : c.held = none)
    (hqueue : c.queue = pid :: rest) :
    (console db).last c [.fetch s, .apply s'] =
      { c with
        world := (vfpApplyProposal s s' pid c.world).2
        queue := rest
        applied := c.applied ++ if (vfpApplyProposal s s' pid c.world).1 = .nil then []
          else [(pid, (vfpApplyProposal s s' pid c.world).1)] } := by
  obtain ⟨world, runners, queue, held, applied⟩ := c
  obtain rfl : held = none := hheld
  obtain rfl : queue = pid :: rest := hqueue
  unfold vfpApplyProposal
  simp only [Machine.last, List.foldl_cons, List.foldl_nil, console, Console.step]
  cases hgot : (fetchApproved s pid world).1 with
  | none => simp
  | some proposal =>
    simp only [Option.map_some]
    split <;> simp

/-- The loop of a batch, input by input. -/
theorem last_applyEach (db : Database) (calls : ℕ → Session × Session) (proposals : List Value)
    (hheld : c.held = none) (hqueue : c.queue = proposals.map (vfpAlistGet · "proposal_id")) :
    (console db).last c (batchInputs calls proposals.length) =
      { c with
        world := (applyEach calls proposals c.world).2
        queue := []
        applied := c.applied ++ (applyEach calls proposals c.world).1 } := by
  induction proposals generalizing calls c with
  | nil =>
    obtain ⟨world, runners, queue, held, applied⟩ := c
    obtain rfl : queue = [] := hqueue
    simp [batchInputs, Machine.last, applyEach]
  | cons p rest ih =>
    have hfirst := last_fetch_apply db (calls 0).1 (calls 0).2 hheld hqueue
    have hsplit : (console db).last c (batchInputs calls (p :: rest).length) =
        (console db).last ((console db).last c [.fetch (calls 0).1, .apply (calls 0).2])
          (batchInputs (fun i => calls (i + 1)) rest.length) := rfl
    have hrest := ih (c := (console db).last c [.fetch (calls 0).1, .apply (calls 0).2]) (fun i => calls (i + 1))
      (by rw [hfirst]; exact hheld) (by rw [hfirst])
    rw [hsplit, hrest, hfirst]
    simp only [applyEach, List.append_assoc]
    congr 2
    split <;> simp

/-- The parts of a batch are ordinary inputs. -/
theorem ordinary_batchInputs {printer : Printer} {calls : ℕ → Session × Session}
    (hcalls : ∀ i, (calls i).1.printer = printer ∧ (calls i).2.printer = printer) {n : ℕ} {i : ConsoleInput}
    (hi : i ∈ batchInputs calls n) : i.Ordinary printer c := by
  induction n generalizing calls with
  | zero => cases hi
  | succ n ih =>
    rcases List.mem_cons.mp hi with rfl | hi
    · exact (hcalls 0).1
    · rcases List.mem_cons.mp hi with rfl | hi
      · exact (hcalls 0).2
      · exact ih (fun i => hcalls (i + 1)) hi

/-- What a batch does is done by a run of its parts, if nothing else happens. -/
theorem vfpApplyAllApproved_runs {printer : Printer} {h : List (Entry Console ConsoleInput Value)} {db : Database}
    (hrun : Run (console db) (ConsoleInput.Ordinary printer) h c) (hidle : c.idle = true) {s s' : Session}
    {calls : ℕ → Session × Session} (hs : s.printer = printer) (hs' : s'.printer = printer)
    (hcalls : ∀ i, (calls i).1.printer = printer ∧ (calls i).2.printer = printer) :
    ∃ h', Run (console db) (ConsoleInput.Ordinary printer) h'
      { c with
        world := (vfpApplyAllApproved s s' calls c.world).2
        applied := c.applied ++ (vfpApplyAllApproved s s' calls c.world).1 } := by
  obtain ⟨hqueue, hheld⟩ : c.queue = [] ∧ c.held = none := by simpa [Console.idle] using hidle
  have hlisted : ∀ inputs, (console db).last c (.applyAll s :: inputs) =
      (console db).last { c with
        world := (listApproved s c.world).2
        queue := (listApproved s c.world).1.map (vfpAlistGet · "proposal_id") } inputs := by
    intro inputs
    simp only [Machine.last, List.foldl_cons, console, Console.step, hidle, if_true]
  cases hproposals : (listApproved s c.world).1 with
  | nil =>
    have hnext := hrun.append_trace [.applyAll s] (fun e he => by
      rw [List.mem_singleton.mp he]
      exact hs)
    have hbatch : vfpApplyAllApproved s s' calls c.world = ([], (listApproved s c.world).2) := by
      unfold vfpApplyAllApproved
      simp only [hproposals]
    rw [hlisted, hproposals, List.map_nil, ← hqueue] at hnext
    rw [hbatch, List.append_nil]
    exact ⟨_, hnext⟩
  | cons p rest =>
    have hnext := hrun.append_trace (.applyAll s :: (batchInputs calls (p :: rest).length ++ [.refresh s'])) (by
      intro e he
      rcases List.mem_cons.mp (Machine.input_mem_of_trace he) with hinput | hinput
      · rw [hinput]
        exact hs
      · rcases List.mem_append.mp hinput with hinput | hinput
        · exact ordinary_batchInputs hcalls hinput
        · rw [List.mem_singleton.mp hinput]
          exact hs')
    have hbatch : vfpApplyAllApproved s s' calls c.world =
        ((applyEach calls (p :: rest) (listApproved s c.world).2).1,
          refreshPending s' (applyEach calls (p :: rest) (listApproved s c.world).2).2) := by
      unfold vfpApplyAllApproved
      simp only [hproposals]
    have hloop := last_applyEach (c := { c with
      world := (listApproved s c.world).2
      queue := (listApproved s c.world).1.map (vfpAlistGet · "proposal_id") }) db calls (p :: rest) hheld
      (by rw [hproposals])
    have hend : ∀ c inputs, (console db).last c (inputs ++ [.refresh s']) =
        { (console db).last c inputs with world := refreshPending s' ((console db).last c inputs).world } :=
      fun _ _ => List.foldl_append
    rw [hlisted, hend, hloop, ← hqueue] at hnext
    rw [hbatch]
    exact ⟨_, hnext⟩

end Functions

section Life

variable {L : Law} {t t' : Tunnel.Tunnel} {k : Key} {p p' : Obj}

/-- The second proposal is the first one, later: past the gate, and past `approved` if the first one was. -/
structure Onward (p p' : Obj) : Prop where
  gated : Gated p'
  past : ¬ proposalLifecycle.At p .approved → ¬ proposalLifecycle.At p' .approved
  kept : ∀ f ∉ proposalTouched, p'.lookup f = p.lookup f

/-- Once past the gate, a proposal stays there, and does not become approved again. -/
theorem onward_of_steps {targets : List ProposalStatus} (hgated : Gated p)
    (hpath : Relation.ReflTransGen (proposalNext targets) p p') : Onward p p' := by
  induction hpath with
  | refl => exact ⟨hgated, id, fun _ _ => rfl⟩
  | tail _ hstep ih =>
    obtain ⟨a, b, hat, _, hedge, hat', hkept⟩ := hstep
    obtain ⟨a', ha', hat₂⟩ := ih.gated
    obtain rfl := hat.eq hat₂
    have hb : b ∈ gatedStatuses ∧ b ≠ .approved := by
      revert ha' hedge
      cases a <;> cases b <;> decide
    exact ⟨⟨b, hb.1, hat'⟩, fun _ happroved => hb.2 (hat'.eq happroved),
      fun f hf => (hkept f hf).trans (ih.kept f hf)⟩

/-- What is stored behind the gate goes on within the lifecycle. -/
theorem onward_of_law (hlaw : L.Holds t t') (hp : t.proposals.records.get? k = some p) (hgated : Gated p) :
    ∃ p', t'.proposals.records.get? k = some p' ∧ Onward p p' := by
  obtain ⟨p', hp', hpath⟩ := hlaw.proposals.advanced hp
  exact ⟨p', hp', onward_of_steps hgated hpath⟩

/-- A stored transaction stays, with the proposal that it names. -/
theorem transaction_of_law {u : Obj} {pid : Json} (hlaw : L.Holds t t') (hu : t.transactions.records.get? k = some u)
    (hpid : Obj.get u "proposal_id" = pid) :
    ∃ u', t'.transactions.records.get? k = some u' ∧ Obj.get u' "proposal_id" = pid := by
  obtain ⟨u', hu', hpath⟩ := hlaw.transactions.advanced hu
  refine ⟨u', hu', ?_⟩
  rw [← hpid, Obj.get, Obj.getD, Lifecycle.lookup_of_steps (by decide) hpath]
  rfl

/-- A proposal is at the status that its record names. -/
theorem at_of_get {a : ProposalStatus} (h : Obj.get p "status" = .str a.name) : proposalLifecycle.At p a := by
  unfold Lifecycle.At Lifecycle.statusOf Obj.getD
  unfold Obj.get Obj.getD at h
  cases hlookup : p.lookup "status" with
  | none =>
    rw [hlookup] at h
    cases h
  | some status =>
    rw [hlookup] at h
    exact h

/-- The record of an approved proposal says so. -/
theorem get_of_at_approved (h : proposalLifecycle.At p .approved) : Obj.get p "status" = .str "approved" := by
  unfold Lifecycle.At Lifecycle.statusOf Obj.getD at h
  unfold Obj.get Obj.getD
  cases hlookup : p.lookup "status" with
  | none => simp [hlookup, proposalLifecycle, ProposalStatus.name] at h
  | some status =>
    rw [hlookup] at h
    exact h

/-- What `get` returns is what the store then holds. -/
theorem get_ok {env : Env} {id : Json} {st st' : Store} {found : Option Obj}
    (h : (ProposalStore.get env id).exec st = (.ok found, st')) :
    ∃ k, id.key? = some k ∧ st'.records.get? k = found := by
  unfold ProposalStore.get at h
  obtain ⟨_, st₁, _, hread⟩ := Prog.exec_bind_eq_ok h
  unfold getRecord hashKey at hread
  cases hkey : id.key? with
  | none =>
    rw [hkey, Prog.exec_bind_error (Prog.exec_ofExcept _ _)] at hread
    cases hread
  | some k =>
    rw [hkey, Prog.exec_bind_ok (Prog.exec_ofExcept _ _), Prog.exec_bind_ok (Prog.exec_get _)] at hread
    obtain ⟨hvalue, rfl⟩ := Prod.mk.inj hread
    exact ⟨k, rfl, Except.ok.inj hvalue⟩

/-- Linking a proposal that returns does not leave it approved. -/
theorem linkProposal_past {env : Env} {pid : Json} {st : Store} (hkey : pid.key? = some k)
    (htruthy : pid.truthy = true) (hok : ((linkProposal env pid .approved .applied).exec st).1 = .ok ())
    (hp : ((linkProposal env pid .approved .applied).exec st).2.records.get? k = some p) :
    ¬ proposalLifecycle.At p .approved := by
  intro hat
  rw [linkProposal, if_pos htruthy] at hok hp
  cases hget : (ProposalStore.get env pid).exec st with
  | mk out st₁ =>
    cases out with
    | error e =>
      rw [Prog.exec_bind_error hget] at hok
      cases hok
    | ok found =>
      rw [Prog.exec_bind_ok hget] at hp
      have hfound : st₁.records.get? k = found := by
        obtain ⟨k', hkey', hfound⟩ := get_ok hget
        rw [hkey] at hkey'
        obtain rfl := Option.some.inj hkey'
        exact hfound
      cases found with
      | none =>
        have hsame : st₁.records.get? k = some p := hp
        rw [hfound] at hsame
        cases hsame
      | some q =>
        dsimp only at hp
        by_cases hstatus : (Obj.get q "status").pyEq (.str ProposalStatus.approved.name) = true
        · rw [if_pos hstatus, Prog.exec_suppress_snd, ProposalStore.setStatus] at hp
          have hq : proposalLifecycle.At q .approved := at_of_get (Json.pyEq_str.mp hstatus)
          have htr : proposalTransition env .applied q =
              .ok (Obj.set (Obj.set q "status" (.str "applied")) "updated_at" env.stamp) :=
            Lifecycle.transition_eq_ok.mpr ⟨⟨.approved, hq, by decide⟩, rfl⟩
          obtain ⟨writes, hset⟩ := exec_setStatus env "proposal_id" "unknown proposal_id: %s" hkey hfound htr
          rw [hset, Dict.get?_insert_self] at hp
          obtain rfl := Option.some.inj hp
          have happlied : proposalLifecycle.At
              (Obj.set (Obj.set q "status" (.str "applied")) "updated_at" env.stamp) .applied := by
            simp [Lifecycle.At, Lifecycle.statusOf, Obj.getD, proposalLifecycle, ProposalStatus.name]
          exact absurd (hat.eq happlied) (by decide)
        · rw [if_neg hstatus] at hp
          have hsame : st₁.records.get? k = some p := hp
          rw [hfound] at hsame
          obtain rfl := Option.some.inj hsame
          exact hstatus (Json.pyEq_str.mpr (get_of_at_approved hat))

end Life

section Calls

variable {s : Session} {method : Method} {params : Obj} {w w' w'' : World} {proposal pid : Value}

/-- The requests that applying proposals makes. -/
def applyMethods : List Method := [.proposalGet, .proposalList, .transactionCreate, .proposalMarkFailed]

/-- What they may do to the records: no proposal is approved. -/
def applyLaw : Law := { newTransaction := true, proposalTargets := [.expired, .applied, .failed] }

/-- The requests that an apply makes keep the law of applying. -/
theorem handle_applyLaw (hmethod : method ∈ applyMethods) (env : Tunnel.Env) :
    Prog.Keeps applyLaw.Holds (handle env method params) := by
  simp only [applyMethods, List.mem_cons, List.not_mem_nil, or_false] at hmethod
  rcases hmethod with rfl | rfl | rfl | rfl
  · exact mProposalGet_keeps (by decide)
  · exact mProposalList_keeps (by decide)
  · exact mTransactionCreate_keeps (by decide) (by decide) rfl
  · exact setProposal_keeps (by decide)

/-- The tunnel served some of these requests, and some may be on their way. -/
structure Requested (w w' : World) : Prop where
  law : applyLaw.Holds w.tunnel w'.tunnel
  unique : KeepsProposals UniqueMembers w.tunnel w'.tunnel
  flight : ∀ r ∈ w'.inFlight, r ∈ w.inFlight ∨ r.2.1 ∈ applyMethods

/-- A world that stays as it is has requested nothing. -/
theorem Requested.refl (w : World) : Requested w w := ⟨Std.Refl.refl _, Std.Refl.refl _, fun _ h => .inl h⟩

/-- Neither has one whose design is edited. -/
theorem Requested.edited {db : Database} : Requested w { w with db := db } :=
  ⟨Std.Refl.refl _, Std.Refl.refl _, fun _ h => .inl h⟩

/-- What two steps request, the second after the first. -/
theorem Requested.trans (h : Requested w w') (h' : Requested w' w'') : Requested w w'' where
  law := IsTrans.trans _ _ _ h.law h'.law
  unique := IsTrans.trans _ _ _ h.unique h'.unique
  flight r hr := (h'.flight r hr).elim (h.flight r) .inr

/-- A request of the process that is served. -/
theorem asked_serve (hmethod : method ∈ applyMethods) (env : Tunnel.Env) :
    Requested w (w.serve env method params) where
  law := handle_applyLaw hmethod env w.tunnel
  unique := by
    have hinput := input_keepsProposals keptByLife_uniqueMembers ⟨w.tunnel, []⟩ (i := .request env method params)
      (by
        intro env' params' hrequest
        injection hrequest with _ hcreate
        rw [hcreate] at hmethod
        exact absurd hmethod (by decide))
    exact hinput
  flight _ h := .inl h

/-- A call of the process, answered or not. -/
theorem asked_vfpRpcExec (hmethod : method ∈ applyMethods) : Requested w (vfpRpcExec s method params w).2 := by
  unfold vfpRpcExec
  split
  · exact asked_serve hmethod s.env
  · exact .refl w
  · exact asked_serve hmethod s.env
  · refine ⟨Std.Refl.refl _, Std.Refl.refl _, fun r hr => ?_⟩
    rcases List.mem_append.mp hr with hr | hr
    · exact .inl hr
    · rw [List.mem_singleton.mp hr]
      exact .inr hmethod

/-- The call that records a transaction. -/
theorem asked_sendTransaction {txn : Obj} : Requested w (sendTransaction s txn w).2 := by
  unfold sendTransaction vfpRpcFile
  split
  · split
    · exact asked_vfpRpcExec (by decide)
    · exact .refl w
  · exact .refl w

/-- The call that marks a proposal as failed. -/
theorem asked_markProposalFailed : Requested w (markProposalFailed s pid w) := asked_vfpRpcExec (by decide)

/-- An apply makes only calls of the process. -/
theorem asked_vfpApplyTransaction : Requested w (vfpApplyTransaction s proposal w).2 := by
  cases hopen : openFor proposal w.db with
  | none =>
    have heq : vfpApplyTransaction s proposal w =
        (.nil, markProposalFailed s (vfpAlistGet proposal "proposal_id") w) := by
      unfold vfpApplyTransaction
      dsimp only
      rw [show openSchematic _ _ w.db = none from hopen]
    rw [heq]
    exact asked_markProposalFailed
  | some out =>
    obtain ⟨v, cv, db⟩ := out
    cases hall : (setParams "after" (changesOf proposal) cv).1 with
    | false =>
      rw [vfpApplyTransaction_incomplete hopen hall]
      exact Requested.edited.trans asked_markProposalFailed
    | true =>
      have hsent : Requested w (answeredApply s proposal w v cv db).2 :=
        (show Requested w (savedApply s proposal w v cv db) from .edited).trans asked_sendTransaction
      cases hok : (answeredApply s proposal w v cv db).1.ok with
      | true =>
        rw [vfpApplyTransaction_accepted hopen hall hok]
        exact hsent
      | false =>
        rw [vfpApplyTransaction_rejected hopen hall hok]
        exact (hsent.trans .edited).trans asked_markProposalFailed

/-- So does fetching a proposal. -/
theorem asked_fetchApproved : Requested w (fetchApproved s pid w).2 := asked_vfpRpcExec (by decide)

/-- So does listing the approved ones. -/
theorem asked_listApproved : Requested w (listApproved s w).2 := asked_vfpRpcExec (by decide)

/-- So does looking for pending ones. -/
theorem asked_refreshPending : Requested w (refreshPending s w) := asked_vfpRpcExec (by decide)

/-- Nothing that is read of the tunnel changes the design. -/
theorem db_fetchApproved : (fetchApproved s pid w).2.db = w.db := db_vfpRpcExec

/-- Listing leaves the design. -/
theorem db_listApproved : (listApproved s w).2.db = w.db := db_vfpRpcExec

/-- So does looking for pending proposals. -/
theorem db_refreshPending : (refreshPending s w).db = w.db := db_vfpRpcExec

/-- What `proposal.get` answers is stored. -/
theorem mProposalGet_ok {env : Tunnel.Env} {t t' : Tunnel.Tunnel} {r : Json}
    (h : (mProposalGet env params).exec t = (.ok r, t')) :
    (Obj.get params "proposal_id").truthy = true ∧ ∃ k p, (Obj.get params "proposal_id").key? = some k ∧
      t'.proposals.records.get? k = some p ∧ r = .obj [("proposal", .obj p)] := by
  unfold mProposalGet at h
  obtain ⟨id, t₁, hid, hrest⟩ := Prog.exec_bind_eq_ok h
  obtain ⟨rfl, htruthy, rfl⟩ := requireId_ok hid
  refine ⟨htruthy, ?_⟩
  obtain ⟨found, t₂, hget, hanswer⟩ := Prog.exec_bind_eq_ok hrest
  rw [exec_onProposals] at hget
  obtain ⟨hout, rfl⟩ := Prod.mk.inj hget
  obtain ⟨k, hkey, hp⟩ := get_ok (Prod.ext hout rfl)
  cases found with
  | none => cases hanswer
  | some p =>
    obtain ⟨hr, rfl⟩ := Prod.mk.inj hanswer
    exact ⟨k, p, hkey, hp, (Except.ok.inj hr).symm⟩

/-- A proposal that passed the gate is stored, and approved. -/
theorem fetchApproved_some (h : (fetchApproved s pid w).1 = some proposal)
    (hunique : ∀ k p, w.tunnel.proposals.records.get? k = some p → UniqueMembers p) :
    s.printer.format pid ≠ "" ∧ ∃ p,
      (fetchApproved s pid w).2.tunnel.proposals.records.get? (.str (s.printer.format pid)) = some p ∧
      UniqueMembers p ∧ proposalLifecycle.At p .approved ∧ proposal = Value.ofJson (.obj p) := by
  unfold fetchApproved at h ⊢
  dsimp only at h ⊢
  split at h
  · rename_i happroved
    obtain rfl := Option.some.inj h
    obtain ⟨hok, hstatus⟩ := happroved
    unfold vfpRpcParam at hok hstatus ⊢
    obtain ⟨result, hexec, hpayload, -⟩ := vfpRpcExec_ok hok
    obtain ⟨htruthy, k, p, hkey, hp, rfl⟩ := mProposalGet_ok hexec
    have hpid : Obj.get [("proposal_id", Json.str (s.printer.format pid))] "proposal_id" =
        .str (s.printer.format pid) := rfl
    rw [hpid] at htruthy hkey
    obtain rfl : Key.str (s.printer.format pid) = k := Option.some.inj hkey
    have hmembers : UniqueMembers p := by
      have hasked : Requested w (vfpRpcExec s .proposalGet [("proposal_id", .str (s.printer.format pid))] w).2 :=
        asked_vfpRpcExec (by decide)
      exact hasked.unique hunique _ p hp
    have hproposal : vfpAlistGet (vfpRpcExec s .proposalGet
        [("proposal_id", .str (s.printer.format pid))] w).1.payload "proposal" = Value.ofJson (.obj p) := by
      rw [hpayload, vfpAlistGet_obj (by simp)]
      rfl
    rw [hproposal] at hstatus
    refine ⟨by simpa using htruthy, p, hp, hmembers, at_of_get ?_, hproposal⟩
    rw [vfpAlistGet_obj hmembers] at hstatus
    cases hget : Obj.get p "status" with
    | str x =>
      rw [hget, Value.ofJson] at hstatus
      rw [Value.str.inj hstatus]
      rfl
    | null => rw [hget] at hstatus; cases hstatus
    | bool b => rw [hget] at hstatus; cases b <;> cases hstatus
    | int n => rw [hget] at hstatus; cases hstatus
    | float x =>
      rw [hget] at hstatus
      cases x with
      | infinite negative => cases negative <;> cases hstatus
      | finite q => cases hstatus
      | nan => cases hstatus
    | arr items => rw [hget] at hstatus; cases items <;> cases hstatus
    | obj members => rw [hget] at hstatus; cases members <;> cases hstatus
  · cases h

end Calls

section Edits

variable {s : Session} {proposal : Value} {w : World} {lib cell : String} {k : Value × Value}

/-- What an apply writes to a parameter: what the proposal last names for it, after the change if the tunnel answered
with the id of the transaction, else before it, even where the tunnel recorded the change and its answer was lost. -/
def Writes (proposal : Value) (answered : Bool) (v : ViewName) (k : Value × Value) (w w' : World) : Prop :=
  (∃ cv db, openFor proposal w.db = some (v, cv, db)) ∧ k ∈ (changesOf proposal).map target ∧
    w'.param v k = lastWrite (writesOf (if answered then "after" else "before") (changesOf proposal)) k

/-- A list of changes that names a parameter writes a value to it. -/
theorem lastWrite_named (key : String) (h : k ∈ (changesOf proposal).map target) :
    ∃ x, lastWrite (writesOf key (changesOf proposal)) k = some x := by
  obtain ⟨ch, hch, rfl⟩ := List.mem_map.mp h
  exact exists_lastWrite key hch

/-- A list of changes writes nothing to a parameter that it does not name. -/
theorem lastWrite_unnamed {key : String} (h : k ∉ (changesOf proposal).map target) :
    lastWrite (writesOf key (changesOf proposal)) k = none := by
  rw [← Option.not_isSome_iff_eq_none, isSome_lastWrite, keys_writesOf]
  exact h

/-- An apply changes other schematics than its own in nothing. -/
theorem contents_vfpApplyTransaction_other {v : ViewName} {cv : CellView} {db : Database}
    (hopen : openFor proposal w.db = some (v, cv, db)) (hne : schematicOf lib cell ≠ v) :
    (vfpApplyTransaction s proposal w).2.db.contents (schematicOf lib cell) =
      w.db.contents (schematicOf lib cell) := by
  obtain ⟨l, c, _, _, rfl, _, _, rfl⟩ := openSchematic_eq_some hopen
  have hckpt : schematicOf lib cell ≠ ⟨(schematicOf l c).lib, (schematicOf l c).cell,
      "schematic" ++ "_vfpckpt_" ++ "preapply" ++ "_" ++ vfpCompactTime s⟩ := by
    intro heq
    exact checkpoint_ne "schematic" "preapply" (vfpCompactTime s) (congrArg ViewName.view heq).symm
  have hopened : w.db.SameAt (w.db.hold (schematicOf l c) cv (w.db.handles (schematicOf l c) + 1)
      (w.db.windows (schematicOf l c))) (schematicOf lib cell) := Database.sameAt_hold hne
  have hchecked := hopened.trans (sameAt_checkpointCellView s.cadence "schematic" "preapply" (vfpCompactTime s)
    (schematicOf l c) (schematicOf lib cell) _ hckpt)
  have hsaved := hchecked.trans (@sameAt_edit_dbSave _ (setParams "after" (changesOf proposal) cv).2 _ _ hne)
  cases hall : (setParams "after" (changesOf proposal) cv).1 with
  | false =>
    rw [vfpApplyTransaction_incomplete hopen hall, db_markProposalFailed]
    exact (hchecked.trans (sameAt_edit_dbSave hne)).contents
  | true =>
    cases hok : (answeredApply s proposal w (schematicOf l c) cv _).1.ok with
    | true =>
      rw [vfpApplyTransaction_accepted hopen hall hok, answeredApply, db_sendTransaction]
      exact hsaved.contents
    | false =>
      rw [vfpApplyTransaction_rejected hopen hall hok, db_markProposalFailed]
      exact (hsaved.trans (sameAt_edit_dbSave hne)).contents

/-- Undoing a list of changes writes the values before, wherever it had written those after. -/
theorem param?_undone (cv : CellView) (k : Value × Value) :
    (setParams "before" (changesOf proposal) (setParams "after" (changesOf proposal) cv).2).2.param? k =
      (cv.param? k).map fun v => (lastWrite (writesOf "before" (changesOf proposal)) k).getD v := by
  rw [param?_setParams, param?_setParams]
  by_cases hk : k ∈ (changesOf proposal).map target
  · obtain ⟨x, hx⟩ := lastWrite_named "before" hk
    cases cv.param? k <;> simp [hx]
  · simp [lastWrite_unnamed hk]

/-- What the schematic holds after an apply that opened it. -/
theorem param_applied {v : ViewName} {cv : CellView} {db : Database}
    (hopen : openFor proposal w.db = some (v, cv, db)) (k : Value × Value) :
    (vfpApplyTransaction s proposal w).2.param v k = (cv.param? k).map fun x =>
      (lastWrite (writesOf (if decide ((vfpApplyTransaction s proposal w).1 ≠ .nil) then "after" else "before")
        (changesOf proposal)) k).getD x := by
  by_cases hnil : (vfpApplyTransaction s proposal w).1 = .nil
  · rw [World.param, contents_failed hopen hnil, hnil]
    exact param?_undone cv k
  · obtain ⟨v', cv', db', _, hopen', _, _, _, hcontents, _⟩ := vfpApplyTransaction_ne_nil hnil
    rw [hopen] at hopen'
    obtain ⟨rfl, rfl, rfl⟩ : v = v' ∧ cv = cv' ∧ db = db' := by simpa using hopen'
    rw [World.param, hcontents, decide_eq_true hnil]
    exact param?_setParams "after" (changesOf proposal) cv k

/-- Where an apply changes a parameter of a schematic, it writes what the proposal names. -/
theorem writes_of_changed (h : (vfpApplyTransaction s proposal w).2.param (schematicOf lib cell) k ≠
      w.param (schematicOf lib cell) k) :
    Writes proposal (decide ((vfpApplyTransaction s proposal w).1 ≠ .nil)) (schematicOf lib cell) k w
      (vfpApplyTransaction s proposal w).2 := by
  cases hopen : openFor proposal w.db with
  | none =>
    have heq : vfpApplyTransaction s proposal w =
        (.nil, markProposalFailed s (vfpAlistGet proposal "proposal_id") w) := by
      unfold vfpApplyTransaction
      dsimp only
      rw [show openSchematic _ _ w.db = none from hopen]
    rw [heq] at h
    exact absurd (by unfold World.param; rw [db_markProposalFailed]) h
  | some out =>
    obtain ⟨v, cv, db⟩ := out
    by_cases hv : schematicOf lib cell = v
    · subst hv
      have hbefore : w.param (schematicOf lib cell) k = cv.param? k := by
        obtain ⟨_, _, _, _, _, hcontents, _⟩ := openSchematic_eq_some hopen
        rw [World.param, hcontents]
        rfl
      have hafter := param_applied (s := s) hopen k
      refine ⟨⟨cv, db, hopen⟩, ?_⟩
      by_cases hk : k ∈ (changesOf proposal).map target
      · refine ⟨hk, ?_⟩
        obtain ⟨x, hx⟩ := lastWrite_named _ hk
        rw [hafter, hx]
        rw [hbefore, hafter] at h
        cases hparam : cv.param? k with
        | none => simp [hparam] at h
        | some y => rfl
      · rw [hbefore, hafter, lastWrite_unnamed hk] at h
        exact absurd (by cases cv.param? k <;> rfl) h
    · exact absurd (by unfold World.param; rw [contents_vfpApplyTransaction_other hopen hv]) h

end Edits

section Gate

variable {s : Session} {w : World} {i : String} {p p' : Obj} {proposal : Value}

/-- A value made of a proposal as it is stored under an id, but for the members that its life changes. -/
structure Passed (t : Tunnel.Tunnel) (i : String) (proposal : Value) : Prop where
  stored : ∃ p p', proposal = Value.ofJson (.obj p) ∧ UniqueMembers p ∧
    t.proposals.records.get? (.str i) = some p' ∧ Onward p p'

/-- An applied proposal: its transaction is stored, and it is past the gate and no longer approved. -/
structure Settled (t : Tunnel.Tunnel) (i : String) (tid : Value) : Prop where
  transaction : ∃ j u, tid = .str j ∧ t.transactions.records.get? (.str j) = some u ∧
    Obj.get u "proposal_id" = .str i
  proposal : ∃ p, t.proposals.records.get? (.str i) = some p ∧ Gated p ∧ ¬ proposalLifecycle.At p .approved

/-- What passed the gate stays behind it. -/
theorem Passed.kept {L : Law} {t t' : Tunnel.Tunnel} (h : Passed t i proposal) (hlaw : L.Holds t t') :
    Passed t' i proposal := by
  obtain ⟨p, p', heq, hunique, hp', honward⟩ := h.stored
  obtain ⟨p'', hp'', honward'⟩ := onward_of_law hlaw hp' honward.gated
  exact ⟨p, p'', heq, hunique, hp'', honward'.gated, fun h => honward'.past (honward.past h),
    fun f hf => (honward'.kept f hf).trans (honward.kept f hf)⟩

/-- A transaction that was answered stays stored for its proposal. -/
theorem Settled.kept {L : Law} {t t' : Tunnel.Tunnel} {tid : Value} (h : Settled t i tid) (hlaw : L.Holds t t') :
    Settled t' i tid := by
  obtain ⟨j, u, htid, hu, hpid⟩ := h.transaction
  obtain ⟨u', hu', hpid'⟩ := transaction_of_law hlaw hu hpid
  obtain ⟨p, hp, hgated, hpast⟩ := h.proposal
  obtain ⟨p', hp', honward⟩ := onward_of_law hlaw hp hgated
  exact ⟨⟨j, u', htid, hu', hpid'⟩, p', hp', honward.gated, honward.past hpast⟩

/-- What a proposal is about is read from members that its life does not change. -/
theorem read_onward (h : Onward p p') (hp : UniqueMembers p) (hp' : UniqueMembers p') {f : String}
    (hf : f ∉ proposalTouched) :
    vfpAlistGet (Value.ofJson (.obj p)) f = vfpAlistGet (Value.ofJson (.obj p')) f := by
  rw [vfpAlistGet_obj hp, vfpAlistGet_obj hp', Obj.get, Obj.get, Obj.getD, Obj.getD, h.kept f hf]

/-- A proposal that has gone on in its lifecycle names the same values. -/
theorem writes_onward (h : Onward p p') (hp : UniqueMembers p) (hp' : UniqueMembers p') {answered : Bool}
    {v : ViewName} {k : Value × Value} {w' : World} :
    Writes (Value.ofJson (.obj p)) answered v k w w' ↔ Writes (Value.ofJson (.obj p')) answered v k w w' := by
  unfold Writes openFor changesOf
  rw [read_onward h hp hp' (f := "cellview") (by decide), read_onward h hp hp' (f := "changes") (by decide)]

/-- A request stores one record at most. -/
theorem storesTransaction_unique {env : Tunnel.Env} {params : Obj} {t : Tunnel.Tunnel} {j j' : Key} {u u' : Obj}
    (h : StoresTransaction env params t j u) (h' : StoresTransaction env params t j' u') : u = u' := by
  obtain ⟨data, bound, t₁, hdata, hbound, rfl, _⟩ := h
  obtain ⟨data', bound', t₁', hdata', hbound', rfl, _⟩ := h'
  obtain rfl : data = data' := by simpa [hdata] using hdata'
  rw [hbound] at hbound'
  rw [Except.ok.inj (congrArg Prod.fst hbound')]

/-- A transaction that the tunnel confirmed has left its proposal no longer approved. -/
theorem past_of_confirmed {txn q : Obj} (hsent : Sendable txn) (hok : (sendTransaction s txn w).1.ok = true)
    (hpid : txn.lookup "proposal_id" = some (.str i)) (hi : i ≠ "")
    (hq : (sendTransaction s txn w).2.tunnel.proposals.records.get? (.str i) = some q) :
    ¬ proposalLifecycle.At q .approved := by
  rw [sendTransaction_eq] at hok hq
  obtain ⟨_, heq⟩ := vfpRpcFile_ok hok
  rw [heq] at hok hq
  obtain ⟨result, hexec, -, -⟩ := vfpRpcExec_ok hok
  have hcreate : (mTransactionCreate s.env (createParams s txn)).exec w.tunnel = (.ok result, _) := hexec
  obtain ⟨j, u, hstores, hreturns⟩ := isOk_mTransactionCreate.mp (by rw [hcreate]; rfl)
  have hrecords := (mTransactionCreate_stores hstores).1
  obtain ⟨hstored, -⟩ := storedFor_of_stores hsent rfl hstores
  have hget : Obj.get u "proposal_id" = .str i := by
    rw [Obj.get, Obj.getD, hstored.kept "proposal_id" (.str i) (by decide) hpid]
    rfl
  rcases mTransactionCreate_cases s.env (createParams s txn) w.tunnel with ⟨hsame, -⟩ | ⟨j', u', hstores', -, hlinked⟩
  · obtain ⟨_, _, _, _, _, _, _, _, _, hfree⟩ := hstores
    have hnone := congrArg (fun d => d.get? j) (hsame.symm.trans hrecords)
    simp [hfree] at hnone
  · obtain rfl := storesTransaction_unique hstores hstores'
    rw [if_pos hreturns.file, hget] at hlinked
    have hlink := hreturns.link
    rw [hget] at hlink
    rw [hcreate] at hlinked
    rw [hlinked] at hq
    exact linkProposal_past rfl (by simpa using hi) hlink hq

/-- An apply that the tunnel confirmed has settled its proposal, under a transaction that is new. -/
theorem settled_of_applied (hpassed : Passed w.tunnel i proposal) (hkeyed : Keyed w.tunnel)
    (h : (vfpApplyTransaction s proposal w).1 ≠ .nil) :
    Settled (vfpApplyTransaction s proposal w).2.tunnel i (vfpApplyTransaction s proposal w).1 ∧
      ∀ j, (vfpApplyTransaction s proposal w).1 = .str j → w.tunnel.transactions.records.get? (.str j) = none := by
  obtain ⟨p, p', rfl, hunique, hp', honward⟩ := hpassed.stored
  obtain ⟨hkey, htruthy⟩ := hkeyed _ p' hp'
  have hid : Obj.get p "proposal_id" = .str i := by
    rw [Obj.get, Obj.getD, ← honward.kept "proposal_id" (by decide)]
    exact key?_eq_str hkey
  obtain ⟨v, cv, db, u, hopen, hset, htid, -, -, hstored, hfree, hrecords⟩ := vfpApplyTransaction_ne_nil h
  rw [htid]
  have hsent : (sentApply s (Value.ofJson (.obj p)) v cv db).lookup "proposal_id" = some (.str i) := by
    show some (vfpToJson s.printer (vfpAlistGet (Value.ofJson (.obj p)) "proposal_id")) = some (.str i)
    rw [vfpAlistGet_obj hunique, hid]
    rfl
  have hpid : Obj.get u "proposal_id" = .str i := by
    rw [Obj.get, Obj.getD, hstored.kept "proposal_id" (.str i) (by decide) hsent]
    rfl
  have htransaction : (vfpApplyTransaction s (Value.ofJson (.obj p)) w).2.tunnel.transactions.records.get?
      (.str (transactionId s)) = some u := by
    rw [hrecords, Dict.get?_insert_self]
  obtain ⟨q, hq, hgated⟩ := onward_of_law (asked_vfpApplyTransaction (s := s)).law hp' honward.gated
  refine ⟨⟨⟨_, u, rfl, htransaction, hpid⟩, q, hq, hgated.gated, ?_⟩, ?_⟩
  · have hok : (answeredApply s (Value.ofJson (.obj p)) w v cv db).1.ok = true := by
      by_contra hnot
      rw [Bool.not_eq_true] at hnot
      exact h (by rw [vfpApplyTransaction_rejected hopen hset hnot])
    rw [vfpApplyTransaction_accepted hopen hset hok] at hq
    have hi : i ≠ "" := by
      rintro rfl
      rw [key?_eq_str hkey] at htruthy
      simp at htruthy
    exact past_of_confirmed (sendable_schematicRecord ..) hok hsent hi hq
  · intro j hj
    rw [← Value.str.inj hj]
    exact hfree

end Gate

section Runs

variable {printer : Printer} {design : Database} {c : Console} {h : List (Entry Console ConsoleInput Value)}

/-- Another client approved the proposal. -/
def Approves (k : Key) (e : Entry Console ConsoleInput Value) : Prop :=
  ∃ i, e.input = .daemon i ∧ ApprovesPending k (Tunnel.daemon.fire e.before.system i)

/-- What is applied passed the gate, and is applied once. -/
structure Guarded (printer : Printer) (c : Console) : Prop where
  unique : ∀ k p, c.world.tunnel.proposals.records.get? k = some p → UniqueMembers p
  keyed : Keyed c.world.tunnel
  flight : ∀ r ∈ c.world.inFlight, r.2.1 ∈ applyMethods
  held : ∀ pid proposal, c.held = some (pid, proposal) →
    Passed c.world.tunnel (printer.format pid) proposal ∧ ∀ e ∈ c.applied, printer.format e.1 ≠ printer.format pid
  applied : ∀ e ∈ c.applied, Settled c.world.tunnel (printer.format e.1) e.2
  once : (c.applied.map fun e => printer.format e.1).Nodup
  apart : (c.applied.map Prod.snd).Nodup

/-- The record of a payload without repeated members has none either. -/
theorem makeProposal_unique {env : Tunnel.Env} {data : Obj} (h : UniqueMembers data) :
    UniqueMembers (makeProposal env data) := by
  unfold makeProposal
  refine ((((((((?_ : UniqueMembers _).setDefault _ _).setDefault _ _).setDefault _ _).setDefault _ _).setDefault
    _ _).setDefault _ _).setDefault _ _).set _ _
  split
  · exact h
  · exact h.set _ _

/-- Whatever is not another client asks for the proposals only, records transactions or marks proposals failed. -/
theorem asked_step {i : ConsoleInput} (hflight : ∀ r ∈ c.world.inFlight, r.2.1 ∈ applyMethods)
    (hi : ∀ j, i ≠ .daemon j) : Requested c.world (Console.step i c).2.world := by
  cases i with
  | daemon j => exact absurd rfl (hi j)
  | arrive n =>
    unfold Console.step
    dsimp only
    cases hr : c.world.inFlight[n]? with
    | none => exact .refl _
    | some r =>
      have hserved : Requested c.world (c.world.serve r.1 r.2.1 r.2.2) :=
        asked_serve (hflight r (List.mem_of_getElem? hr)) r.1
      exact ⟨hserved.law, hserved.unique, fun r hr => .inl (List.mem_of_mem_eraseIdx hr)⟩
  | draw db => exact .edited
  | applyProposal pid =>
    unfold Console.step
    dsimp only
    split <;> exact .refl _
  | applyApproved s =>
    unfold Console.step
    dsimp only
    split
    · exact asked_listApproved
    · exact .refl _
  | applyAll s =>
    unfold Console.step
    dsimp only
    split
    · exact asked_listApproved
    · exact .refl _
  | fetch s =>
    unfold Console.step
    dsimp only
    split
    · exact asked_fetchApproved
    · exact .refl _
  | apply s =>
    unfold Console.step
    dsimp only
    split
    · exact .refl _
    · exact asked_vfpApplyTransaction
  | refresh s => exact asked_refreshPending

/-- The tunnel goes on, and what is held and applied stays as it is. -/
theorem Guarded.moved {L : Law} (hc : Guarded printer c) {c' : Console} (hheld : c'.held = c.held)
    (happlied : c'.applied = c.applied) (hlaw : L.Holds c.world.tunnel c'.world.tunnel)
    (hunique : KeepsProposals UniqueMembers c.world.tunnel c'.world.tunnel) (hkeyed : Keyed c'.world.tunnel)
    (hflight : ∀ r ∈ c'.world.inFlight, r.2.1 ∈ applyMethods) : Guarded printer c' where
  unique := hunique hc.unique
  keyed := hkeyed
  flight := hflight
  held pid proposal h := by
    obtain ⟨hpassed, hnew⟩ := hc.held pid proposal (hheld ▸ h)
    rw [happlied]
    exact ⟨hpassed.kept hlaw, hnew⟩
  applied e he := (hc.applied e (happlied ▸ he)).kept hlaw
  once := by
    rw [happlied]
    exact hc.once
  apart := by
    rw [happlied]
    exact hc.apart

/-- So it does on the process's own requests. -/
theorem Guarded.asked (hc : Guarded printer c) {c' : Console} (hheld : c'.held = c.held)
    (happlied : c'.applied = c.applied) (hasked : Requested c.world c'.world) : Guarded printer c' :=
  hc.moved hheld happlied hasked.law hasked.unique
    (hc.keyed.preserved hasked.law fun hnew => absurd hnew (by decide))
    fun r hr => (hasked.flight r hr).elim (hc.flight r) id

/-- Other clients leave what is held and applied as it is. -/
theorem guarded_daemon (hc : Guarded printer c) {i : Input}
    (hjson : ∀ env params data, i = .request env .proposalCreate params →
      Obj.get params "proposal" = .obj data → UniqueMembers data) :
    Guarded printer (Console.step (.daemon i) c).2 := by
  have hlaw := step_law i c.system
  have hunique : KeepsProposals UniqueMembers c.world.tunnel (Console.step (.daemon i) c).2.world.tunnel := by
    refine input_keepsProposals keptByLife_uniqueMembers c.system ?_
    rintro env params hinput k p ⟨data, hdata, -, rfl, -⟩
    exact makeProposal_unique (hjson env params data hinput hdata)
  have htrue : KeepsProposals (fun p => (Obj.get p "proposal_id").truthy = true) c.world.tunnel
      (Console.step (.daemon i) c).2.world.tunnel := by
    refine input_keepsProposals ?_ c.system ?_
    · intro p f v hf hp
      have hne : "proposal_id" ≠ f := by
        rintro rfl
        revert hf
        decide
      rwa [Obj.get_set_ne _ hne]
    · rintro env params - k p ⟨data, -, -, rfl, -⟩
      exact truthy_id_makeProposal
  have hkeyed : Keyed (Console.step (.daemon i) c).2.world.tunnel :=
    hc.keyed.preserved hlaw fun _ k p hp _ => htrue (fun k p hp => (hc.keyed k p hp).2) k p hp
  exact hc.moved rfl rfl hlaw hunique hkeyed hc.flight

/-- A proposal that is fetched has not been applied. -/
theorem guarded_fetch (hc : Guarded printer c) {s : Session} (hs : s.printer = printer) :
    Guarded printer (Console.step (.fetch s) c).2 := by
  unfold Console.step
  dsimp only
  split
  · rename_i pid rest hheld hqueue
    have hasked : Guarded printer { c with world := (fetchApproved s pid c.world).2, queue := rest } :=
      hc.asked rfl rfl asked_fetchApproved
    refine ⟨hasked.unique, hasked.keyed, hasked.flight, fun pid' proposal h => ?_, hasked.applied, hasked.once,
      hasked.apart⟩
    obtain ⟨proposal', hgot, hpair⟩ := Option.map_eq_some_iff.mp h
    obtain ⟨rfl, rfl⟩ := Prod.mk.inj hpair
    obtain ⟨-, p, hp, hmembers, happroved, hproposal⟩ := fetchApproved_some hgot hc.unique
    rw [hs] at hp
    have hgated : Gated p := ⟨.approved, by decide, happroved⟩
    refine ⟨⟨p, p, hproposal, hmembers, hp, hgated, id, fun _ _ => rfl⟩, fun e he heq => ?_⟩
    obtain ⟨p', hp', -, hpast⟩ := (hasked.applied e he).proposal
    rw [heq] at hp'
    obtain rfl : p = p' := Option.some.inj (hp.symm.trans hp')
    exact hpast happroved
  · exact hc

/-- Applying the proposal that passed the gate. -/
theorem guarded_apply (hc : Guarded printer c) (s : Session) : Guarded printer (Console.step (.apply s) c).2 := by
  unfold Console.step
  dsimp only
  split
  · exact hc
  · rename_i pid proposal hheld
    obtain ⟨hpassed, hnew⟩ := hc.held pid proposal hheld
    have hasked : Guarded printer { c with world := (vfpApplyTransaction s proposal c.world).2 } :=
      hc.asked rfl rfl asked_vfpApplyTransaction
    dsimp only
    split
    · exact ⟨hasked.unique, hasked.keyed, hasked.flight, fun _ _ h => (by cases h), hasked.applied, hasked.once,
        hasked.apart⟩
    · rename_i hnil
      obtain ⟨hsettled, hfree⟩ := settled_of_applied hpassed hc.keyed hnil
      refine ⟨hasked.unique, hasked.keyed, hasked.flight, fun _ _ h => (by cases h), fun e he => ?_, ?_, ?_⟩
      · rcases List.mem_append.mp he with he | he
        · exact hasked.applied e he
        · rw [List.mem_singleton.mp he]
          exact hsettled
      · rw [List.map_append, List.map_singleton]
        refine hc.once.append (List.nodup_singleton _) ?_
        simpa [List.disjoint_singleton] using fun a b hmem heq => hnew (a, b) hmem heq
      · rw [List.map_append, List.map_singleton]
        refine hc.apart.append (List.nodup_singleton _) ?_
        rw [List.disjoint_singleton]
        intro hmem
        obtain ⟨e, he, heq⟩ := List.mem_map.mp hmem
        obtain ⟨j, u, htid, hu, -⟩ := (hc.applied e he).transaction
        have hnone := hfree j (heq.symm.trans htid)
        rw [hu] at hnone
        cases hnone

/-- Every step keeps the guard. -/
theorem guarded_step (hc : Guarded printer c) {i : ConsoleInput} (hok : i.Ordinary printer c) :
    Guarded printer (Console.step i c).2 := by
  cases i with
  | daemon i => exact guarded_daemon hc hok.2
  | fetch s => exact guarded_fetch hc hok
  | apply s => exact guarded_apply hc s
  | arrive n =>
    refine hc.asked ?_ ?_ (asked_step hc.flight (by simp)) <;>
    · unfold Console.step
      dsimp only
      split <;> rfl
  | draw db => exact hc.asked rfl rfl (asked_step hc.flight (by simp))
  | refresh s => exact hc.asked rfl rfl (asked_step hc.flight (by simp))
  | applyProposal pid =>
    refine hc.asked ?_ ?_ (asked_step hc.flight (by simp)) <;>
    · unfold Console.step
      dsimp only
      split <;> rfl
  | applyApproved s =>
    refine hc.asked ?_ ?_ (asked_step hc.flight (by simp)) <;>
    · unfold Console.step
      dsimp only
      split <;> rfl
  | applyAll s =>
    refine hc.asked ?_ ?_ (asked_step hc.flight (by simp)) <;>
    · unfold Console.step
      dsimp only
      split <;> rfl

/-- It holds after every run. -/
theorem guarded_of_run (hrun : Run (console design) (ConsoleInput.Ordinary printer) h c) : Guarded printer c := by
  refine hrun.invariant ?_ fun c i hok hc => guarded_step hc hok
  rintro _ ⟨registry, rfl⟩
  exact ⟨fun k p hp => (by cases hp), fun k p hp => (by cases hp), by simp, fun _ _ h => (by cases h), by simp,
    List.nodup_nil, List.nodup_nil⟩

/-- A proposal past the gate was approved by another client. -/
theorem approved_of_run (hrun : Run (console design) (ConsoleInput.Ordinary printer) h c) {k : Key} {p : Obj}
    (hp : c.world.tunnel.proposals.records.get? k = some p) (hgated : Gated p) : ∃ e ∈ h, Approves k e := by
  obtain ⟨h₁, e, h₂, rfl, hprior, hok, hfire, hbefore, p', hp', hgated'⟩ :=
    Run.cause (P := fun c => ∃ p, c.world.tunnel.proposals.records.get? k = some p ∧ Gated p)
      (by rintro _ ⟨registry, rfl⟩ ⟨p, hp, -⟩; cases hp) hrun ⟨p, hp, hgated⟩
  refine ⟨e, by simp, ?_⟩
  cases hinput : e.input with
  | daemon i =>
    rw [hinput] at hok hfire
    rw [hfire] at hp'
    exact ⟨i, hinput, approvesPending_of_step hok.1 hbefore hp' hgated'⟩
  | _ =>
    rw [hinput] at hfire
    have hasked := asked_step (guarded_of_run hprior).flight (i := e.input) (by simp [hinput])
    rw [hinput] at hasked
    rw [hfire] at hp'
    exact absurd (gated_of_law hasked.law rfl (by decide) hp' hgated') hbefore

/-- Applying and drawing are all that changes the design. -/
theorem db_step {i : ConsoleInput} (hdraw : ∀ db, i ≠ .draw db) (happly : ∀ s, i ≠ .apply s) :
    (Console.step i c).2.world.db = c.world.db := by
  cases i with
  | draw db => exact absurd rfl (hdraw db)
  | apply s => exact absurd rfl (happly s)
  | daemon i => rfl
  | refresh s => exact db_refreshPending
  | arrive n =>
    unfold Console.step
    dsimp only
    split <;> rfl
  | applyProposal pid =>
    unfold Console.step
    dsimp only
    split <;> rfl
  | applyApproved s =>
    unfold Console.step
    dsimp only
    split
    · exact db_listApproved
    · rfl
  | applyAll s =>
    unfold Console.step
    dsimp only
    split
    · exact db_listApproved
    · rfl
  | fetch s =>
    unfold Console.step
    dsimp only
    split
    · exact db_fetchApproved
    · rfl

/-- What the process does with the proposal it holds. -/
theorem step_apply {pid proposal : Value} (s : Session) (hheld : c.held = some (pid, proposal)) :
    (Console.step (.apply s) c).1 = (vfpApplyTransaction s proposal c.world).1 ∧
      (Console.step (.apply s) c).2.world = (vfpApplyTransaction s proposal c.world).2 := by
  unfold Console.step
  dsimp only
  rw [hheld]
  exact ⟨rfl, rfl⟩

end Runs

/-- The proposal that doubles the resistor, as a client sends it. -/
def sampleDoubledData : Obj :=
  [("proposal_id", .str "p_1"),
    ("cellview", .obj [("lib", .str "lib"), ("cell", .str "top"), ("view", .str "schematic")]),
    ("changes", .arr [sampleChange "R1" "r" (some "1K") "2K"])]

/-- It is created and approved, and then applied. -/
def sampleApproval : List ConsoleInput :=
  [.daemon (sampleRequest .proposalCreate [("proposal", .obj sampleDoubledData)]),
    .daemon (sampleRequest .proposalApprove [("proposal_id", .str "p_1")]),
    .applyProposal (.str "p_1"), .fetch .sample, .apply .sample]

/-- The process of the samples. -/
def sampleConsole : Console := ⟨sampleWorld, [], [], none, []⟩

end VirtuosoFlow.Plugin
