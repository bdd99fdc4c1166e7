import VirtuosoFlow.Tunnel.Replies

/-!
# What holds of every stored proposal

A property of proposals that is kept when the members are set that their life changes holds of all stored proposals,
if it holds of each that is created.
-/

namespace VirtuosoFlow.Tunnel

open Base

variable {P : Obj → Prop} {env : Env} {params : Obj} {t t' : Tunnel}

/-- Setting the members that the life of a proposal changes keeps the property. -/
def KeptByLife (P : Obj → Prop) : Prop := ∀ p f v, f ∈ proposalTouched → P p → P (Obj.set p f v)

/-- If all proposals of a store have the property, those of the other have it. -/
def KeepsAll (P : Obj → Prop) (st st' : Store) : Prop :=
  (∀ k p, st.records.get? k = some p → P p) → ∀ k p, st'.records.get? k = some p → P p

instance : Std.Refl (KeepsAll P) := ⟨fun _ h => h⟩

instance : IsTrans Store (KeepsAll P) := ⟨fun _ _ _ h h' hall => h' (h hall)⟩

/-- No change of status repeats a member. -/
theorem keptByLife_uniqueMembers : KeptByLife UniqueMembers := fun _ f v _ h => h.set f v

section Operations

variable {st : Store}

/-- The same records are kept. -/
theorem keepsAll_of_records {st' : Store} (h : st'.records = st.records) : KeepsAll P st st' := by
  intro hall k p hp
  rw [h] at hp
  exact hall k p hp

/-- Replacing a record by one with the property. -/
theorem keepsAll_insert {k : Key} {r : Obj} {st' : Store} (h : st'.records = st.records.insert k r)
    (hr : (∀ k p, st.records.get? k = some p → P p) → P r) : KeepsAll P st st' := by
  intro hall k' p hp
  rw [h, Dict.get?_insert] at hp
  split at hp
  · obtain rfl : r = p := Option.some.inj hp
    exact hr hall
  · exact hall k' p hp

/-- Writing a record keeps them. -/
theorem persist_keepsAll (field : String) (r : Obj) : Prog.Keeps (KeepsAll P) (persist env field r) := by
  intro st
  obtain ⟨writes, hexec⟩ := exec_persist env field r st
  rw [hexec]
  exact keepsAll_of_records rfl

/-- A transition keeps what life keeps. -/
theorem KeptByLife.transition (hP : KeptByLife P) {new : ProposalStatus} {p p' : Obj}
    (h : proposalTransition env new p = .ok p') (hp : P p) : P p' := by
  obtain ⟨_, rfl⟩ := Lifecycle.transition_eq_ok.mp h
  exact hP _ _ _ (by decide) (hP _ _ _ (by decide) hp)

/-- Setting a status keeps it of all proposals. -/
theorem setStatus_keepsAll (hP : KeptByLife P) (new : ProposalStatus) (id : Json) :
    Prog.Keeps (KeepsAll P) (ProposalStore.setStatus env new id) := by
  intro st
  unfold ProposalStore.setStatus
  rcases setStatus_cases env "proposal_id" "unknown proposal_id: %s" (proposalTransition env new) id st
    with ⟨e, hexec⟩ | ⟨k, r, r', writes, _, hr, htr, hexec⟩
  · rw [hexec]
    exact Std.Refl.refl st
  · rw [hexec]
    exact keepsAll_insert rfl fun hall => hP.transition htr (hall k r hr)

/-- The loop of the sweep, over proposals that have the property. -/
theorem expireEntries_keepsAll (hP : KeptByLife P) {l : List (Key × Obj)} (hl : ∀ e ∈ l, P e.2) :
    Prog.Keeps (KeepsAll P) (ProposalStore.expireEntries env l) := by
  induction l with
  | nil => exact .pure _
  | cons e rest ih =>
    obtain ⟨key, p⟩ := e
    have hp : P p := hl (key, p) List.mem_cons_self
    have hrest := ih fun e he => hl e (List.mem_cons_of_mem _ he)
    unfold ProposalStore.expireEntries
    refine .bind (.ofExcept _) fun stale => .ite ?_ hrest
    cases htr : proposalTransition env .expired p with
    | error e => exact fun st => Std.Refl.refl st
    | ok updated =>
      intro st
      rw [Prog.exec_bind_ok (Prog.exec_ofExcept _ _), Prog.exec_bind_ok (Prog.exec_modify _ _)]
      have hmarked : KeepsAll P st { st with records := st.records.insert key (Obj.set updated "expired_reason"
          (.str ("no approval within " ++ toString env.proposalTtl ++ "s TTL"))) } :=
        keepsAll_insert rfl fun _ => hP _ _ _ (by decide) (hP.transition htr hp)
      exact IsTrans.trans _ _ _ hmarked (Prog.Keeps.bind hrest (fun _ => .pure _) _)

/-- So does a sweep. -/
theorem expireStale_keepsAll (hP : KeptByLife P) : Prog.Keeps (KeepsAll P) (ProposalStore.expireStale env) := by
  intro st hall
  have hpersist : ∀ l, Prog.Keeps (KeepsAll P) (ProposalStore.persistAll env l) := by
    intro l
    induction l with
    | nil => exact .pure _
    | cons u rest ih => exact .bind (persist_keepsAll _ _) fun _ => ih
  unfold ProposalStore.expireStale
  split
  · exact hall
  · have hloop : Prog.Keeps (KeepsAll P) (ProposalStore.expireEntries env st.records.entries) :=
      expireEntries_keepsAll hP fun e he => hall e.1 e.2 (Dict.mem_entries_iff.mp he)
    rw [Prog.exec_bind_ok (Prog.exec_get st)]
    exact Prog.Keeps.bind hloop (fun newly => .bind (hpersist newly) fun _ => .ofExcept _) st hall

/-- So does asking for a proposal. -/
theorem get_keepsAll (hP : KeptByLife P) (id : Json) : Prog.Keeps (KeepsAll P) (ProposalStore.get env id) :=
  .bind (expireStale_keepsAll hP) fun _ => getRecord_reads.keeps

/-- So does listing them. -/
theorem list_keepsAll (hP : KeptByLife P) (status : Json) : Prog.Keeps (KeepsAll P) (ProposalStore.list env status) :=
  .bind (expireStale_keepsAll hP) fun _ => listRecords_reads.keeps

/-- So does linking one. -/
theorem linkProposal_keepsAll (hP : KeptByLife P) (pid : Json) (expected new : ProposalStatus) :
    Prog.Keeps (KeepsAll P) (linkProposal env pid expected new) := by
  refine .ite ?_ (.pure _)
  refine .bind (get_keepsAll hP pid) fun p => ?_
  cases p with
  | none => exact .pure _
  | some p => exact .ite (.suppress (setStatus_keepsAll hP new pid)) (.pure _)

end Operations

section Requests

/-- The same of the proposals of a tunnel. -/
def KeepsProposals (P : Obj → Prop) (t t' : Tunnel) : Prop := KeepsAll P t.proposals t'.proposals

instance : Std.Refl (KeepsProposals P) := ⟨fun _ h => h⟩

instance : IsTrans Tunnel (KeepsProposals P) := ⟨fun _ _ _ h h' hall => h' (h hall)⟩

/-- What keeps the store of proposals keeps the proposals. -/
theorem onProposals_keepsAll {α : Type} {m : Prog PyExc Store α} (hm : Prog.Keeps (KeepsAll P) m) :
    Prog.Keeps (KeepsProposals P) (onProposals m) :=
  .zoom hm fun _ _ h => h

/-- Emitting an event keeps them. -/
theorem emit_keepsProposals (etype : String) (payload : Obj) :
    Prog.Keeps (KeepsProposals P) (emit env etype payload) :=
  fun _ => Std.Refl.refl _

/-- Asking for an id keeps them. -/
theorem requireId_keepsProposals (field : String) : Prog.Keeps (KeepsProposals P) (requireId field params) :=
  .ite (.pure _) (.throw _)

/-- Listing them keeps them. -/
theorem mProposalList_keepsProposals (hP : KeptByLife P) :
    Prog.Keeps (KeepsProposals P) (mProposalList env params) := by
  have hemit : ∀ ids, Prog.Keeps (KeepsProposals P) (emitExpired env ids) := by
    intro ids
    induction ids with
    | nil => exact .pure _
    | cons id rest ih => exact .bind (emit_keepsProposals _ _) fun _ => ih
  exact .bind (onProposals_keepsAll (expireStale_keepsAll hP)) fun ids => .bind (hemit ids) fun _ =>
    .bind (onProposals_keepsAll (list_keepsAll hP _)) fun _ => .pure _

/-- Asking for one keeps them. -/
theorem mProposalGet_keepsProposals (hP : KeptByLife P) :
    Prog.Keeps (KeepsProposals P) (mProposalGet env params) := by
  refine .bind (requireId_keepsProposals _) fun id => ?_
  refine .bind (onProposals_keepsAll (get_keepsAll hP id)) fun p => ?_
  cases p with
  | none => exact .throw _
  | some p => exact .pure _

/-- Setting a status keeps them. -/
theorem setProposal_keepsProposals (hP : KeptByLife P) (new : ProposalStatus) (event : Option String) :
    Prog.Keeps (KeepsProposals P) (setProposal env (ProposalStore.setStatus env new) event params) := by
  refine .bind (requireId_keepsProposals _) fun id => ?_
  refine .bind (.mapError (onProposals_keepsAll (setStatus_keepsAll hP new id))) fun p => .bind ?_ fun _ => .pure _
  cases event with
  | none => exact .pure _
  | some etype => exact emit_keepsProposals _ _

/-- An input that stores no proposal and moves none leaves the proposals as they are. -/
theorem proposals_of_law {L : Law} (hlaw : L.Holds t t') (hnew : L.newProposal = false)
    (htargets : L.proposalTargets = []) : t'.proposals.records = t.proposals.records := by
  have hevolves : Relation.ReflTransGen _ t.proposals.records t'.proposals.records := hlaw.proposals
  generalize t'.proposals.records = records at hevolves ⊢
  induction hevolves with
  | refl => rfl
  | tail _ hmove ih =>
    cases hmove with
    | add _ hfresh => simp [Arrives, hnew] at hfresh
    | advance _ hnext =>
      obtain ⟨_, b, _, hb, _⟩ := hnext
      rw [htargets] at hb
      cases hb

/-- If every proposal that an input creates has the property, all stored ones keep it. -/
theorem input_keepsProposals (hP : KeptByLife P) (s : System) {i : Input}
    (hcreate : ∀ env params, i = .request env .proposalCreate params →
      ∀ k p, StoresProposal env params s.tunnel k p → P p) :
    KeepsProposals P s.tunnel (daemon.step i s).2.tunnel := by
  by_cases hsame : (i.law s).newProposal = false ∧ (i.law s).proposalTargets = []
  · exact keepsAll_of_records (proposals_of_law (step_law i s) hsame.1 hsame.2)
  cases i with
  | sweep env => exact onProposals_keepsAll (expireStale_keepsAll hP) s.tunnel
  | advance w j =>
    refine absurd ?_ hsame
    simp only [Input.law]
    cases hr : s.runners[j]? with
    | none => simp
    | some r => cases hpoint : r.point <;> simp [RunPoint.law, hpoint]
  | request env method params =>
    cases method with
    | proposalCreate =>
      rcases mProposalCreate_records env params s.tunnel with hrecords | ⟨k, p, hstores, hrecords⟩
      · exact keepsAll_of_records hrecords
      · intro hall k' p' hp'
        have hget : (s.tunnel.proposals.records.insert k p).get? k' = some p' := by
          rw [← hrecords]
          exact hp'
        rw [Dict.get?_insert] at hget
        split at hget
        · obtain rfl : p = p' := Option.some.inj hget
          exact hcreate env params rfl k p hstores
        · exact hall k' p' hget
    | proposalList => exact mProposalList_keepsProposals hP s.tunnel
    | proposalGet => exact mProposalGet_keepsProposals hP s.tunnel
    | proposalApprove => exact setProposal_keepsProposals hP .approved _ s.tunnel
    | proposalReject => exact setProposal_keepsProposals hP .rejected _ s.tunnel
    | proposalMarkApplied => exact setProposal_keepsProposals hP .applied _ s.tunnel
    | proposalMarkFailed => exact setProposal_keepsProposals hP .failed _ s.tunnel
    | transactionCreate =>
      show KeepsAll P s.tunnel.proposals ((mTransactionCreate env params).exec s.tunnel).2.proposals
      rcases mTransactionCreate_cases env params s.tunnel with ⟨_, hsame⟩ | ⟨i, u, _, _, hlinked⟩
      · rw [hsame]
        exact Std.Refl.refl _
      · rw [hlinked]
        split
        · exact linkProposal_keepsAll hP _ _ _ s.tunnel.proposals
        · exact Std.Refl.refl _
    | transactionMarkRolledBack =>
      show KeepsAll P s.tunnel.proposals ((mTransactionMarkRolledBack env params).exec s.tunnel).2.proposals
      rcases mTransactionMarkRolledBack_cases env params s.tunnel
        with ⟨_, hsame⟩ | ⟨i, u, u', _, _, _, _, hsame | ⟨_, hlinked⟩⟩
      · rw [hsame]
        exact Std.Refl.refl _
      · rw [hsame]
        exact Std.Refl.refl _
      · rw [hlinked]
        exact linkProposal_keepsAll hP _ _ _ s.tunnel.proposals
    | _ => exact absurd ⟨rfl, rfl⟩ hsame

end Requests

end VirtuosoFlow.Tunnel
