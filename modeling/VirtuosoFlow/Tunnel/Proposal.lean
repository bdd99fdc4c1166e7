import VirtuosoFlow.Tunnel.RecordStore
import VirtuosoFlow.Tunnel.Lifecycle

/-!
# Proposals

The proposal model (`proposal/model.py`) and its store (`proposal/manager.py`).
-/

namespace VirtuosoFlow.Tunnel

open Base

/-- The statuses of a proposal. -/
inductive ProposalStatus where
  | pending | approved | rejected | applied | failed | rolledBack | expired
  deriving DecidableEq

/-- How the records spell a status. -/
def ProposalStatus.name : ProposalStatus → String
  | .pending => "pending"
  | .approved => "approved"
  | .rejected => "rejected"
  | .applied => "applied"
  | .failed => "failed"
  | .rolledBack => "rolled_back"
  | .expired => "expired"

/-- `TRANSITIONS`. -/
def ProposalStatus.transitions : ProposalStatus → List ProposalStatus
  | .pending => [.approved, .rejected, .expired]
  | .approved => [.applied, .failed]
  | .rejected => []
  | .applied => [.rolledBack]
  | .failed => []
  | .rolledBack => []
  | .expired => []

/-- No edge leads to pending. -/
theorem ProposalStatus.ne_pending_of_edge {a b : ProposalStatus} (hedge : b ∈ a.transitions) : b ≠ .pending := by
  rintro rfl
  cases a <;> simp [transitions] at hedge

/-- The state machine of proposals. -/
def proposalLifecycle : Lifecycle ProposalStatus where
  name := ProposalStatus.name
  name_injective := by intro a b; cases a <;> cases b <;> simp [ProposalStatus.name]
  all := [.pending, .approved, .rejected, .applied, .failed, .rolledBack, .expired]
  mem_all := by intro a; cases a <;> simp
  first := .pending
  transitions := ProposalStatus.transitions

/-- `make_proposal(data)`. -/
def makeProposal (env : Env) (data : Obj) : Obj :=
  let p := if (Obj.get data "proposal_id").truthy then data
    else Obj.set data "proposal_id" (.str ("p_" ++ env.uuid))
  let p := Obj.setDefault p "schema_version" (.str "0.1")
  let p := Obj.setDefault p "status" (.str "pending")
  let p := Obj.setDefault p "created_by" (.str "agent")
  let p := Obj.setDefault p "requires_user_approval" (.bool true)
  let p := Obj.setDefault p "changes" (.arr [])
  let p := Obj.setDefault p "created_at" env.stamp
  let p := Obj.setDefault p "created_ts" (.float (.finite env.now))
  Obj.set p "updated_at" env.stamp

/-- `transition(proposal, new_status)`. -/
def proposalTransition (env : Env) (new : ProposalStatus) : Obj → Except PyExc Obj :=
  proposalLifecycle.transition
    (fun p => Obj.set (Obj.set p "status" (.str new.name)) "updated_at" env.stamp) new

namespace ProposalStore

/-- `create(data)`. -/
def create (env : Env) (data : Obj) : Prog PyExc Store Obj := do
  let p := makeProposal env data
  insertNew "proposal_id" "duplicate proposal_id: %s" p
  persist env "proposal_id" p
  return p

/-- Whether the sweep expires a record: pending, with an age above the limit. -/
def isStale (env : Env) (p : Obj) : Except PyExc Bool :=
  if (Obj.get p "status").pyEq (.str "pending") then
    match Obj.get p "created_ts" with
    | .null => .ok false
    | ts => (env.age ts).map fun age => !(age.lt (.finite env.proposalTtl) ||
        age == .finite env.proposalTtl)
  else .ok false

/-- The locked loop of `expire_stale`; returns the records it expired. -/
def expireEntries (env : Env) : List (Key × Obj) → Prog PyExc Store (List Obj)
  | [] => pure []
  | (key, p) :: rest => do
    if ← Prog.ofExcept (isStale env p) then
      let updated ← Prog.ofExcept (proposalTransition env .expired p)
      let updated := Obj.set updated "expired_reason"
        (.str ("no approval within " ++ toString env.proposalTtl ++ "s TTL"))
      modify fun st => { st with records := st.records.insert key updated }
      let newly ← expireEntries env rest
      return updated :: newly
    else expireEntries env rest

/-- `for u in newly: self._persist(u)`. -/
def persistAll (env : Env) : List Obj → Prog PyExc Store Unit
  | [] => pure ()
  | u :: rest => do
    persist env "proposal_id" u
    persistAll env rest

/-- `expire_stale()`; returns the ids of the records it expired. -/
def expireStale (env : Env) : Prog PyExc Store (List Json) := do
  if env.proposalTtl ≤ 0 then return []
  let st ← get
  let newly ← expireEntries env st.records.entries
  persistAll env newly
  Prog.ofExcept (newly.mapM fun u => getItem u "proposal_id")

/-- `get(proposal_id)`. -/
def get (env : Env) (id : Json) : Prog PyExc Store (Option Obj) := do
  let _ ← expireStale env
  getRecord id

/-- `list(status)`. -/
def list (env : Env) (status : Json) : Prog PyExc Store (List Obj) := do
  let _ ← expireStale env
  listRecords (fun p => Obj.getD p "created_at" (.str "")) status

/-- `_set_status(proposal_id, new_status)`. -/
def setStatus (env : Env) (new : ProposalStatus) (id : Json) : Prog PyExc Store Obj :=
  Tunnel.setStatus env "proposal_id" "unknown proposal_id: %s" (proposalTransition env new) id

/-- `approve(proposal_id)`. -/
def approve (env : Env) (id : Json) : Prog PyExc Store Obj := setStatus env .approved id

/-- `reject(proposal_id)`. -/
def reject (env : Env) (id : Json) : Prog PyExc Store Obj := setStatus env .rejected id

/-- `mark_applied(proposal_id)`. -/
def markApplied (env : Env) (id : Json) : Prog PyExc Store Obj := setStatus env .applied id

/-- `mark_failed(proposal_id)`. -/
def markFailed (env : Env) (id : Json) : Prog PyExc Store Obj := setStatus env .failed id

/-- `mark_rolled_back(proposal_id)`. -/
def markRolledBack (env : Env) (id : Json) : Prog PyExc Store Obj :=
  setStatus env .rolledBack id

end ProposalStore

section Records

variable {env : Env} {data p p' : Obj} {new : ProposalStatus}

/-- A new record is in the status its payload names, `pending` by default. -/
theorem statusOf_makeProposal :
    proposalLifecycle.statusOf (makeProposal env data) = proposalLifecycle.statusOf data := by
  have hid : ∀ v, (Obj.set data "proposal_id" v).lookup "status" = data.lookup "status" :=
    fun v => Obj.lookup_set_ne data (by decide) v
  unfold makeProposal Lifecycle.statusOf Obj.getD
  split <;> simp [Obj.getD, hid] <;> rfl

/-- A new record has an id that is true: a false one is replaced. -/
theorem truthy_id_makeProposal : (Obj.get (makeProposal env data) "proposal_id").truthy = true := by
  unfold makeProposal Obj.get Obj.getD
  dsimp only
  split
  · rename_i hid
    simpa using hid
  · simp

/-- The members that the life of a proposal changes. -/
def proposalTouched : List String := ["status", "updated_at", "expired_reason"]

/-- A proposal moves into one of `targets`. -/
def proposalNext (targets : List ProposalStatus) : Obj → Obj → Prop :=
  proposalLifecycle.Step targets proposalTouched

/-- A transition that passes starts from a status with an edge to its target. -/
theorem proposalTransition_source (h : proposalTransition env new p = .ok p') :
    ∃ a, proposalLifecycle.At p a ∧ new ∈ a.transitions :=
  (Lifecycle.transition_eq_ok.mp h).1

/-- A passing transition moves along an edge into its target. -/
theorem proposalNext_of_transition {targets : List ProposalStatus} (hnew : new ∈ targets)
    (h : proposalTransition env new p = .ok p') : proposalNext targets p p' := by
  apply Lifecycle.step_of_transition _ _ hnew h
  · simp [Lifecycle.At, Lifecycle.statusOf, Obj.getD, proposalLifecycle]
  · intro f hf
    simp only [proposalTouched, List.mem_cons, List.not_mem_nil, or_false, not_or] at hf
    simp [hf.1, hf.2.1]

/-- A record the sweep looks at is pending when it is found stale. -/
theorem at_pending_of_isStale (h : ProposalStore.isStale env p = .ok true) :
    proposalLifecycle.At p .pending := by
  unfold ProposalStore.isStale at h
  split at h
  · rename_i hstatus
    have hget : Obj.get p "status" = .str "pending" := Json.pyEq_str.mp hstatus
    unfold Obj.get Obj.getD at hget
    unfold Lifecycle.At Lifecycle.statusOf Obj.getD
    cases hlook : p.lookup "status" with
    | none => simp [hlook] at hget
    | some v => simpa [hlook, proposalLifecycle, ProposalStatus.name] using hget
  · simp at h

end Records

section Effects

variable {fresh : Key → Obj → Prop} {targets : List ProposalStatus}
variable {env : Env} {data : Obj} {id : Json} {new : ProposalStatus} {st : Store}

namespace ProposalStore

/-- Setting a status lets the proposals evolve. -/
theorem setStatus_keeps (hnew : new ∈ targets) :
    Prog.Keeps (Store.Evolves fresh (proposalNext targets)) (setStatus env new id) :=
  Tunnel.setStatus_keeps fun _ _ h => proposalNext_of_transition hnew h

/-- What `create` can do to the records. -/
theorem create_records (env : Env) (data : Obj) (st : Store) :
    ((create env data).exec st).2.records = st.records ∨
    ∃ k, (Obj.get (makeProposal env data) "proposal_id").key? = some k ∧
      st.records.get? k = none ∧
      ((create env data).exec st).2.records = st.records.insert k (makeProposal env data) := by
  unfold create
  dsimp only
  generalize makeProposal env data = p
  exact insertNew_persist_records

/-- So does creating one. -/
theorem create_keeps
    (hfresh : ∀ k, (Obj.get (makeProposal env data) "proposal_id").key? = some k →
      fresh k (makeProposal env data)) :
    Prog.Keeps (Store.Evolves fresh (proposalNext targets)) (create env data) :=
  .bind (insertNew_keeps hfresh) fun _ => .bind persist_keeps fun _ => .pure _

/-- The loop of the sweep replaces stale records that are still as it found them: no key
comes twice, so an earlier replacement is never under a later key. -/
theorem expireEntries_evolves (hexpired : .expired ∈ targets) (st : Store)
    (l : List (Key × Obj))
    (hnodup : (l.map Prod.fst).Nodup) (hfound : ∀ e ∈ l, st.records.get? e.1 = some e.2) :
    Store.Evolves fresh (proposalNext targets) st ((expireEntries env l).exec st).2 := by
  induction l generalizing st with
  | nil => exact Std.Refl.refl st
  | cons e rest ih =>
    obtain ⟨key, p⟩ := e
    simp only [List.map_cons, List.nodup_cons] at hnodup
    have hrest : ∀ e ∈ rest, st.records.get? e.1 = some e.2 := fun e he =>
      hfound e (List.mem_cons_of_mem _ he)
    unfold expireEntries
    cases hstale : isStale env p with
    | error err => simpa [Prog.exec_bind] using Std.Refl.refl st
    | ok stale =>
      cases stale with
      | false => simpa [Prog.exec_bind] using ih st hnodup.2 hrest
      | true =>
        have hat := at_pending_of_isStale hstale
        cases htr : proposalTransition env .expired p with
        | error err => simpa [Prog.exec_bind, htr] using Std.Refl.refl st
        | ok updated =>
          simp only [Prog.exec_bind, Prog.exec_ofExcept, Prog.exec_modify, if_true]
          set marked := Obj.set updated "expired_reason"
            (.str ("no approval within " ++ toString env.proposalTtl ++ "s TTL")) with hmarked
          have hnext : proposalNext targets p marked := by
            obtain ⟨_, rfl⟩ := Lifecycle.transition_eq_ok.mp htr
            refine ⟨.pending, .expired, hat, hexpired, by decide, ?_, ?_⟩
            · simp [Lifecycle.At, Lifecycle.statusOf, Obj.getD, hmarked, proposalLifecycle]
            · intro f hf
              simp only [proposalTouched, List.mem_cons, List.not_mem_nil, or_false, not_or] at hf
              simp [hmarked, hf.1, hf.2.1, hf.2.2]
          have hfirst : Store.Evolves fresh (proposalNext targets) st
              { st with records := st.records.insert key marked } :=
            .advance (hfound (key, p) List.mem_cons_self) hnext
          have htail := ih { st with records := st.records.insert key marked } hnodup.2 (by
            intro e he
            have hne : e.1 ≠ key := fun heq => hnodup.1 (heq ▸ List.mem_map_of_mem he)
            simpa [hne] using hrest e he)
          refine IsTrans.trans _ _ _ hfirst ?_
          cases hexec : (expireEntries env rest).exec
              { st with records := st.records.insert key marked } with
          | mk r st' =>
            rw [hexec] at htail
            cases r <;> simpa [hexec] using htail

/-- Writing them to the disk leaves them. -/
theorem persistAll_keeps {l : List Obj} :
    Prog.Keeps (Store.Evolves fresh (proposalNext targets)) (persistAll env l) := by
  induction l with
  | nil => exact .pure _
  | cons u rest ih => exact .bind persist_keeps fun _ => ih

/-- The sweep expires pending records and does nothing else to the store. -/
theorem expireStale_keeps (hexpired : .expired ∈ targets) :
    Prog.Keeps (Store.Evolves fresh (proposalNext targets)) (expireStale env) := by
  intro st
  unfold expireStale
  split
  · exact Std.Refl.refl st
  · have hloop : Store.Evolves fresh (proposalNext targets) st
        ((expireEntries env st.records.entries).exec st).2 :=
      expireEntries_evolves hexpired st _ st.records.nodup fun e he => Dict.mem_entries_iff.mp he
    simp only [Prog.exec_bind, Prog.exec_get]
    cases hexec : (expireEntries env st.records.entries).exec st with
    | mk r st' =>
      rw [hexec] at hloop
      cases r with
      | error e => exact hloop
      | ok newly =>
        exact IsTrans.trans _ _ _ hloop
          (Prog.Keeps.bind (persistAll_keeps (l := newly)) (fun _ => .ofExcept _) st')

/-- Asking for one lets them evolve: a sweep comes first. -/
theorem get_keeps (hexpired : .expired ∈ targets) :
    Prog.Keeps (Store.Evolves fresh (proposalNext targets)) (get env id) :=
  .bind (expireStale_keeps hexpired) fun _ => getRecord_keeps

/-- So does listing them. -/
theorem list_keeps (hexpired : .expired ∈ targets) :
    Prog.Keeps (Store.Evolves fresh (proposalNext targets)) (list env id) :=
  .bind (expireStale_keeps hexpired) fun _ => listRecords_keeps

end ProposalStore

end Effects

namespace ProposalStore

variable {env : Env} {st : Store}

/-- The sweep goes through: every age can be told, and every stale record has a file name. -/
def SweepPasses (env : Env) (st : Store) : Prop :=
  0 < env.proposalTtl → ∀ k p, st.records.get? k = some p →
    ∃ stale, isStale env p = .ok stale ∧
      (stale = true → persistError env "proposal_id" p = none)

/-- The sweep goes through one record: its age can be told, and if it is stale its file has a name. -/
def EntryPasses (env : Env) (p : Obj) : Prop :=
  ∃ stale, isStale env p = .ok stale ∧
    (stale = true → persistError env "proposal_id" p = none ∧ (p.lookup "proposal_id").isSome)

/-- What the sweep makes of a stale record. -/
def markExpired (env : Env) (p : Obj) : Obj :=
  Obj.set (Obj.set (Obj.set p "status" (.str "expired")) "updated_at" env.stamp) "expired_reason"
    (.str ("no approval within " ++ toString env.proposalTtl ++ "s TTL"))

/-- A proposal that is marked keeps its id. -/
@[simp] theorem lookup_id_markExpired (env : Env) (p : Obj) :
    (markExpired env p).lookup "proposal_id" = p.lookup "proposal_id" := by
  simp [markExpired]

/-- A stale record is replaced, and the loop goes on. -/
theorem exec_expireEntries_stale {key : Key} {p : Obj} {rest : List (Key × Obj)} (st : Store)
    (hstale : isStale env p = .ok true) :
    (expireEntries env ((key, p) :: rest)).exec st =
      (do let newly ← expireEntries env rest; return markExpired env p :: newly : Prog PyExc Store _).exec
        { st with records := st.records.insert key (markExpired env p) } := by
  have hedge : ∃ a, proposalLifecycle.At p a ∧ .expired ∈ proposalLifecycle.transitions a :=
    ⟨.pending, at_pending_of_isStale hstale, by decide⟩
  have htr : proposalTransition env .expired p =
      .ok (Obj.set (Obj.set p "status" (.str "expired")) "updated_at" env.stamp) :=
    Lifecycle.transition_eq_ok.mpr ⟨hedge, rfl⟩
  rw [expireEntries, hstale, Prog.exec_bind_ok (Prog.exec_ofExcept _ _), if_pos rfl, htr,
    Prog.exec_bind_ok (Prog.exec_ofExcept _ _), Prog.exec_bind_ok (Prog.exec_modify _ _)]
  rfl

/-- Any other record is passed over. -/
theorem exec_expireEntries_fresh {key : Key} {p : Obj} {rest : List (Key × Obj)} (st : Store)
    (hfresh : isStale env p = .ok false) :
    (expireEntries env ((key, p) :: rest)).exec st = (expireEntries env rest).exec st := by
  rw [expireEntries, hfresh, Prog.exec_bind_ok (Prog.exec_ofExcept _ _), if_neg (by simp)]

/-- The loop of the sweep returns records whose files have names. -/
theorem expireEntries_ok (st : Store) (l : List (Key × Obj)) (hpasses : ∀ e ∈ l, EntryPasses env e.2) :
    ∃ newly st', (expireEntries env l).exec st = (.ok newly, st') ∧
      ∀ u ∈ newly, persistError env "proposal_id" u = none ∧ (u.lookup "proposal_id").isSome := by
  induction l generalizing st with
  | nil => exact ⟨[], st, rfl, by simp⟩
  | cons e rest ih =>
    obtain ⟨key, p⟩ := e
    have hrest := fun e he => hpasses e (List.mem_cons_of_mem _ he)
    obtain ⟨stale, hstale, hfile⟩ := hpasses (key, p) List.mem_cons_self
    cases stale with
    | false =>
      rw [exec_expireEntries_fresh st hstale]
      exact ih st hrest
    | true =>
      rw [exec_expireEntries_stale st hstale]
      obtain ⟨newly, st', hexec, hnewly⟩ :=
        ih { st with records := st.records.insert key (markExpired env p) } hrest
      refine ⟨markExpired env p :: newly, st', by rw [Prog.exec_bind_ok hexec]; rfl, ?_⟩
      intro u hu
      rcases List.mem_cons.mp hu with rfl | hmem
      · rw [persistError_congr (lookup_id_markExpired env p), lookup_id_markExpired]
        exact hfile rfl
      · exact hnewly u hmem

/-- Files that have names are written without an exception. -/
theorem persistAll_ok (st : Store) (l : List Obj)
    (hfiles : ∀ u ∈ l, persistError env "proposal_id" u = none) :
    ∃ st', (persistAll env l).exec st = (.ok (), st') := by
  induction l generalizing st with
  | nil => exact ⟨st, rfl⟩
  | cons u rest ih =>
    obtain ⟨writes, hexec⟩ := exec_persist env "proposal_id" u st
    rw [hfiles u List.mem_cons_self] at hexec
    obtain ⟨st', hrest⟩ := ih { st with writes := writes }
      fun u hu => hfiles u (List.mem_cons_of_mem _ hu)
    exact ⟨st', by rw [persistAll, Prog.exec_bind_ok hexec, hrest]⟩

/-- Members that are present are read without an exception. -/
theorem mapM_getItem_ok {f : String} (l : List Obj) (hpresent : ∀ u ∈ l, (u.lookup f).isSome) :
    ∃ ids, l.mapM (fun u => getItem u f) = .ok ids := by
  induction l with
  | nil => exact ⟨[], rfl⟩
  | cons u rest ih =>
    obtain ⟨ids, hrest⟩ := ih fun u hu => hpresent u (List.mem_cons_of_mem _ hu)
    obtain ⟨v, hv⟩ := Option.isSome_iff_exists.mp (hpresent u List.mem_cons_self)
    refine ⟨v :: ids, ?_⟩
    rw [List.mapM_cons, hrest, getItem, hv]
    rfl

/-- A sweep that goes through every record returns. -/
theorem expireStale_returns
    (hpasses : 0 < env.proposalTtl → ∀ k p, st.records.get? k = some p → EntryPasses env p) :
    ∃ ids st', (expireStale env).exec st = (.ok ids, st') := by
  unfold expireStale
  split
  · exact ⟨[], st, rfl⟩
  · rename_i httl
    have hentry : ∀ e ∈ st.records.entries, st.records.get? e.1 = some e.2 :=
      fun e he => Dict.mem_entries_iff.mp he
    obtain ⟨newly, st₁, hexec, hnewly⟩ := expireEntries_ok st st.records.entries
      (fun e he => hpasses (by omega) e.1 e.2 (hentry e he))
    obtain ⟨st₂, hfiles⟩ := persistAll_ok st₁ newly fun u hu => (hnewly u hu).1
    obtain ⟨ids, hread⟩ := mapM_getItem_ok newly fun u hu => (hnewly u hu).2
    refine ⟨ids, st₂, ?_⟩
    rw [Prog.exec_bind_ok (Prog.exec_get st), Prog.exec_bind_ok hexec, Prog.exec_bind_ok hfiles,
      Prog.exec_ofExcept, hread]

/-- So does one over records that all have ids. -/
theorem expireStale_ok (hpasses : SweepPasses env st)
    (hids : ∀ k p, st.records.get? k = some p → (p.lookup "proposal_id").isSome) :
    ∃ ids st', (expireStale env).exec st = (.ok ids, st') := by
  refine expireStale_returns fun httl k p hp => ?_
  obtain ⟨stale, hstale, hfile⟩ := hpasses httl k p hp
  exact ⟨stale, hstale, fun h => ⟨hfile h, hids k p hp⟩⟩

end ProposalStore

end VirtuosoFlow.Tunnel
