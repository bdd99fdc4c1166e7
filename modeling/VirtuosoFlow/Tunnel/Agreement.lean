import VirtuosoFlow.Tunnel.Requests

/-!
# Agreement of proposals and transactions

Two stores with separate state machines, linked by the handlers of
`transaction.create` and `transaction.mark_rolled_back`. The first stores a
transaction before it looks at the proposal, and links the proposal only if it finds
it approved.
-/

namespace VirtuosoFlow.Tunnel

open Base Relation

/-- An applied transaction under `i` carries the proposal id with key `k`. -/
def AppliedFor (t : Tunnel) (k i : Key) (u : Obj) : Prop :=
  t.transactions.records.get? i = some u ∧ transactionLifecycle.At u .applied ∧
    (Obj.get u "proposal_id").key? = some k

/-- A proposal and the transactions that carry its id agree. -/
structure Agrees (t : Tunnel) (k : Key) (p : Obj) : Prop where
  /-- At most one applied transaction carries the id. -/
  one : ∀ i j u v, AppliedFor t k i u → AppliedFor t k j v → i = j
  /-- If one does, the proposal is applied. -/
  applied : ∀ i u, AppliedFor t k i u → proposalLifecycle.At p .applied
  /-- If the proposal is rolled back, none does. -/
  rolledBack : proposalLifecycle.At p .rolledBack → ∀ i u, ¬ AppliedFor t k i u

/-- The steps that keep the agreement. A new proposal takes no id that applied transactions
carry, but for one transaction and a payload that says `applied`. A new transaction for a
stored proposal finds it approved, and if it is stored as applied nothing stops the link:
its own file has a name and the sweep before the lookup goes through. -/
def KeepsAgreement (s : System) : Input → Prop
  | .request env .proposalCreate params => ∀ k p, StoresProposal env params s.tunnel k p →
      (∀ i u, ¬ AppliedFor s.tunnel k i u) ∨ (proposalLifecycle.At p .applied ∧
        ∀ i j u v, AppliedFor s.tunnel k i u → AppliedFor s.tunnel k j v → i = j)
  | .request env .transactionCreate params => ∀ i u, StoresTransaction env params s.tunnel i u →
      ∀ k p, s.tunnel.proposals.records.get? k = some p →
        (Obj.get u "proposal_id").key? = some k → proposalLifecycle.At p .approved ∧
        (transactionLifecycle.At u .applied → persistError env "transaction_id" u = none ∧
          ProposalStore.SweepPasses env s.tunnel.proposals)
  | _ => True

/-- Proposals are stored under the key of their id, which is true. -/
def Keyed (t : Tunnel) : Prop := ∀ k p, t.proposals.records.get? k = some p →
  (Obj.get p "proposal_id").key? = some k ∧ (Obj.get p "proposal_id").truthy = true

/-- A proposal found under `k` was there before and moved into `targets` only. -/
def Traces (k : Key) (targets : List ProposalStatus) (st st' : Store) : Prop :=
  ∀ p', st'.records.get? k = some p' → ∃ p, st.records.get? k = some p ∧
    ReflTransGen (proposalNext targets) p p'

section Traces

variable {k : Key} {targets : List ProposalStatus} {st st' : Store}

instance : Std.Refl (Traces k targets) := ⟨fun _ p' hp' => ⟨p', hp', .refl⟩⟩

instance : IsTrans Store (Traces k targets) := by
  refine ⟨fun a b c hab hbc p' hp' => ?_⟩
  obtain ⟨p₁, hp₁, hlast⟩ := hbc p' hp'
  obtain ⟨p, hp, hfirst⟩ := hab p₁ hp₁
  exact ⟨p, hp, hfirst.trans hlast⟩

/-- Where nothing new arrives, every proposal can be traced back. -/
theorem traces_of_evolves {fresh : Key → Obj → Prop} (hfresh : ∀ k p, ¬ fresh k p)
    (h : Store.Evolves fresh (proposalNext targets) st st') : Traces k targets st st' := by
  intro p' hp'
  rcases h.origin hp' with hstored | ⟨_, p, hnew, _⟩
  · exact hstored
  · exact absurd hnew (hfresh k p)

/-- A proposal that is traced back without a rollback among the targets is applied before
if it is applied after, or left `applied` alone. -/
theorem eq_of_applied {p p' : Obj} (hnot : .rolledBack ∉ targets)
    (hpath : ReflTransGen (proposalNext targets) p p') (hat : proposalLifecycle.At p .applied) :
    p' = p := by
  apply Lifecycle.eq_of_steps hat _ hpath
  intro b hb hedge
  have hback : b = .rolledBack := by simpa [proposalLifecycle, ProposalStatus.transitions] using hedge
  exact hnot (hback ▸ hb)

end Traces

section Linking

variable {env : Env} {pid : Json} {k : Key} {p : Obj} {st : Store}
variable {expected new : ProposalStatus}

/-- Linking a proposal only expires the others. -/
theorem linkProposal_traces (hkey : pid.key? ≠ some k) :
    Prog.Keeps (Traces k [.expired]) (linkProposal env pid expected new) := by
  refine .ite ?_ (.pure _)
  have hkeeps : Prog.Keeps (Store.Evolves (fun _ _ => False) (proposalNext [.expired]))
      (ProposalStore.get env pid) := ProposalStore.get_keeps (by simp)
  have hget : Prog.Keeps (Traces k [.expired]) (ProposalStore.get env pid) :=
    hkeeps.mono fun _ _ => traces_of_evolves fun _ _ hfalse => hfalse
  refine .bind hget fun p => ?_
  cases p with
  | none => exact .pure _
  | some p =>
    refine .ite (.suppress ?_) (.pure _)
    intro st p' hp'
    refine ⟨p', ?_, .refl⟩
    rcases setStatus_cases env "proposal_id" "unknown proposal_id: %s"
      (proposalTransition env new) pid st
      with ⟨e, hexec⟩ | ⟨k', r, r', writes, hkey', _, _, hexec⟩
    · simpa [ProposalStore.setStatus, hexec] using hp'
    · have hne : k ≠ k' := by
        rintro rfl
        exact hkey hkey'
      simpa [ProposalStore.setStatus, hexec, hne] using hp'

/-- Linking an approved proposal applies it, if the sweep before the lookup goes through. -/
theorem linkProposal_applied (hp : st.records.get? k = some p)
    (hat : proposalLifecycle.At p .approved) (hkey : pid.key? = some k)
    (htruthy : pid.truthy = true) (hpasses : ProposalStore.SweepPasses env st)
    (hids : ∀ k p, st.records.get? k = some p → (p.lookup "proposal_id").isSome) :
    ∃ p', ((linkProposal env pid .approved .applied).exec st).2.records.get? k = some p' ∧
      proposalLifecycle.At p' .applied := by
  -- the sweep returns, and an approved proposal is not stale
  obtain ⟨ids, st₁, hsweep⟩ := ProposalStore.expireStale_ok hpasses hids
  have hkeeps : Prog.Keeps (Store.Evolves (fun _ _ => False) (proposalNext [.expired]))
      (ProposalStore.expireStale env) := ProposalStore.expireStale_keeps (by simp)
  have hevolves : Store.Evolves (fun _ _ => False) (proposalNext [.expired]) st st₁ := by
    simpa [hsweep] using hkeeps st
  have hp₁ : st₁.records.get? k = some p := by
    obtain ⟨p₁, hp₁, hpath⟩ := hevolves.advanced hp
    have heq : p₁ = p := by
      apply Lifecycle.eq_of_steps hat _ hpath
      simp [proposalLifecycle, ProposalStatus.transitions]
    rw [hp₁, heq]
  have hget : (ProposalStore.get env pid).exec st = (.ok (some p), st₁) := by
    rw [ProposalStore.get, Prog.exec_bind_ok hsweep]
    simp [getRecord, Prog.exec_bind, hashKey, hkey, hp₁]
  -- the transition along the edge into `applied` passes
  have hedge : ∃ a, proposalLifecycle.At p a ∧ .applied ∈ proposalLifecycle.transitions a :=
    ⟨.approved, hat, by decide⟩
  have htr : proposalTransition env .applied p =
      .ok (Obj.set (Obj.set p "status" (.str "applied")) "updated_at" env.stamp) :=
    Lifecycle.transition_eq_ok.mpr ⟨hedge, rfl⟩
  obtain ⟨writes, hset⟩ := exec_setStatus env "proposal_id" "unknown proposal_id: %s" hkey hp₁ htr
  have hstatus : (Obj.get p "status").pyEq (.str "approved") = true := by
    apply Json.pyEq_str.mpr
    unfold Lifecycle.At Lifecycle.statusOf Obj.getD at hat
    unfold Obj.get Obj.getD
    cases hlook : p.lookup "status" with
    | none => simp [hlook, proposalLifecycle, ProposalStatus.name] at hat
    | some v => simpa [hlook, proposalLifecycle, ProposalStatus.name] using hat
  refine ⟨Obj.set (Obj.set p "status" (.str "applied")) "updated_at" env.stamp, ?_, ?_⟩
  · rw [linkProposal, if_pos htruthy, Prog.exec_bind_ok hget]
    simp [hstatus, ProposalStatus.name, ProposalStore.setStatus, hset]
  · simp [Lifecycle.At, Lifecycle.statusOf, Obj.getD, proposalLifecycle, ProposalStatus.name]

end Linking

section Records

variable {L : Law} {t t' : Tunnel} {k : Key} {p p' : Obj}

/-- Where nothing is stored, an applied transaction was applied before: no edge leads into
`applied`. -/
theorem appliedFor_of_law (hlaw : L.Holds t t') (hnew : L.newTransaction = false) {i : Key}
    {u : Obj} (h : AppliedFor t' k i u) : AppliedFor t k i u := by
  obtain ⟨hu, hat, hkey⟩ := h
  rcases hlaw.transactions.origin hu with ⟨u₀, hu₀, hpath⟩ | ⟨_, u₀, harrives, _⟩
  · have heq : u = u₀ := by
      cases hpath.cases_tail with
      | inl heq => exact heq
      | inr htail =>
        obtain ⟨u₁, _, a, b, _, _, hedge, hat', _⟩ := htail
        obtain rfl := hat'.eq hat
        cases a <;> simp [transactionLifecycle, TransactionStatus.transitions] at hedge
    rw [heq]
    exact ⟨hu₀, heq ▸ hat, heq ▸ hkey⟩
  · simp [Arrives, hnew] at harrives

/-- A proposal no applied transaction names agrees with the transactions. -/
theorem agrees_of_none (hnone : ∀ i u, ¬ AppliedFor t k i u) : Agrees t k p where
  one i _ u _ hu _ := absurd hu (hnone i u)
  applied i u hu := absurd hu (hnone i u)
  rolledBack _ := hnone

/-- Agreement survives where no transaction becomes applied and the proposal is not rolled
back. -/
theorem Agrees.preserved {targets : List ProposalStatus} (h : Agrees t k p)
    (hnot : .rolledBack ∉ targets) (hpath : ReflTransGen (proposalNext targets) p p')
    (hback : ∀ i u, AppliedFor t' k i u → AppliedFor t k i u) : Agrees t' k p' := by
  by_cases hsome : ∃ i u, AppliedFor t k i u
  · obtain ⟨i, u, hu⟩ := hsome
    have hat := h.applied i u hu
    have heq : p' = p := eq_of_applied hnot hpath hat
    constructor
    · intro i j u v hu hv
      exact h.one i j u v (hback i u hu) (hback j v hv)
    · intro _ _ _
      rwa [heq]
    · intro hrolled
      rw [heq] at hrolled
      have hsame := hat.eq hrolled
      simp at hsame
  · apply agrees_of_none
    intro i u hu
    exact hsome ⟨i, u, hback i u hu⟩

/-- Agreement survives where no transaction becomes applied and the proposal stays. -/
theorem Agrees.kept (h : Agrees t k p)
    (hback : ∀ i u, AppliedFor t' k i u → AppliedFor t k i u) : Agrees t' k p := by
  have hnot : ProposalStatus.rolledBack ∉ ([] : List ProposalStatus) := by simp
  exact h.preserved hnot .refl hback

/-- Ids survive where only `proposal.create` stores proposals, under ids that are true. -/
theorem Keyed.preserved (h : Keyed t) (hlaw : L.Holds t t')
    (hnew : L.newProposal = true → ∀ k p, t'.proposals.records.get? k = some p →
      t.proposals.records.get? k = none → (Obj.get p "proposal_id").truthy = true) : Keyed t' := by
  intro k p' hp'
  rcases hlaw.proposals.origin hp' with ⟨p, hp, hpath⟩ | ⟨hnone, p, ⟨hallowed, hkey⟩, hpath⟩
  · have hid : p'.lookup "proposal_id" = p.lookup "proposal_id" :=
      Lifecycle.lookup_of_steps (by decide) hpath
    have hkeyed := h k p hp
    unfold Obj.get Obj.getD at hkeyed ⊢
    rwa [hid]
  · have hid : p'.lookup "proposal_id" = p.lookup "proposal_id" :=
      Lifecycle.lookup_of_steps (by decide) hpath
    refine ⟨?_, hnew hallowed k p' hp' hnone⟩
    unfold Obj.get Obj.getD at hkey ⊢
    rwa [hid]

/-- A stored id is present. -/
theorem Keyed.isSome (h : Keyed t) (hp : t.proposals.records.get? k = some p) :
    (p.lookup "proposal_id").isSome := by
  obtain ⟨_, htruthy⟩ := h k p hp
  unfold Obj.get Obj.getD at htruthy
  cases hlook : p.lookup "proposal_id" with
  | none => simp [hlook, Json.truthy] at htruthy
  | some v => rfl

end Records

/-- What holds of the two stores in every state of a run that keeps the agreement. -/
structure Linked (s : System) : Prop where
  keyed : Keyed s.tunnel
  agrees : ∀ k p, s.tunnel.proposals.records.get? k = some p → Agrees s.tunnel k p

section Steps

variable {s : System} {env : Env} {params : Obj}

/-- An input that stores neither proposals nor transactions and rolls no proposal back
keeps the agreement. -/
theorem linked_of_law {i : Input} (h : Linked s) (hproposal : (i.law s).newProposal = false)
    (htransaction : (i.law s).newTransaction = false)
    (hnot : .rolledBack ∉ (i.law s).proposalTargets) : Linked (daemon.step i s).2 := by
  have hlaw := step_law i s
  constructor
  · apply h.keyed.preserved hlaw
    intro hnew
    simp [hproposal] at hnew
  · intro k p' hp'
    rcases hlaw.proposals.origin hp' with ⟨p, hp, hpath⟩ | ⟨_, p, harrives, _⟩
    · exact (h.agrees k p hp).preserved hnot hpath fun i u => appliedFor_of_law hlaw htransaction
    · simp [Arrives, hproposal] at harrives

/-- Creating a proposal keeps transactions and proposals linked. -/
theorem linked_proposalCreate (h : Linked s)
    (hkeeps : KeepsAgreement s (.request env .proposalCreate params)) :
    Linked (daemon.step (.request env .proposalCreate params) s).2 := by
  have hlaw := step_law (.request env .proposalCreate params) s
  have hback : ∀ k i u, AppliedFor (daemon.step (.request env .proposalCreate params) s).2.tunnel
      k i u → AppliedFor s.tunnel k i u := fun k i u => appliedFor_of_law hlaw rfl
  have hrecords := mProposalCreate_records env params s.tunnel
  constructor
  · apply h.keyed.preserved hlaw
    intro _ k p hp hnone
    rcases hrecords with hsame | ⟨k', p', ⟨data, _, _, hmake, _⟩, hinsert⟩
    · have hget : s.tunnel.proposals.records.get? k = some p := by
        rw [← hsame]
        exact hp
      simp [hnone] at hget
    · have hget : (s.tunnel.proposals.records.insert k' p').get? k = some p := by
        rw [← hinsert]
        exact hp
      rw [Dict.get?_insert] at hget
      split at hget
      · obtain rfl : p' = p := by simpa using hget
        rw [hmake]
        exact truthy_id_makeProposal
      · simp [hnone] at hget
  · intro k p hp
    rcases hrecords with hsame | ⟨k', p', hstores, hinsert⟩
    · have hget : s.tunnel.proposals.records.get? k = some p := by
        rw [← hsame]
        exact hp
      exact (h.agrees k p hget).kept (hback k)
    · have hget : (s.tunnel.proposals.records.insert k' p').get? k = some p := by
        rw [← hinsert]
        exact hp
      rw [Dict.get?_insert] at hget
      split at hget
      · rename_i heq
        subst heq
        obtain rfl : p' = p := by simpa using hget
        rcases hkeeps k p' hstores with hnone | ⟨hat, hone⟩
        · exact agrees_of_none fun i u hu => hnone i u (hback k i u hu)
        · constructor
          · intro i j u v hu hv
            exact hone i j u v (hback k i u hu) (hback k j v hv)
          · intro _ _ _
            exact hat
          · intro hrolled
            have hsame := hat.eq hrolled
            simp at hsame
      · exact (h.agrees k p hget).kept (hback k)

/-- A stored transaction for an approved proposal applies it; every other proposal keeps
its status. -/
theorem linked_transactionCreate (h : Linked s)
    (hkeeps : KeepsAgreement s (.request env .transactionCreate params)) :
    Linked (daemon.step (.request env .transactionCreate params) s).2 := by
  have hlaw := step_law (.request env .transactionCreate params) s
  have hkeyed : Keyed (daemon.step (.request env .transactionCreate params) s).2.tunnel := by
    apply h.keyed.preserved hlaw
    intro hnew
    simp [Input.law, Method.law] at hnew
  refine ⟨hkeyed, ?_⟩
  intro k p' hp'
  set t' := (daemon.step (.request env .transactionCreate params) s).2.tunnel
  rcases mTransactionCreate_cases env params s.tunnel with
    ⟨htransactions, hproposals⟩ | ⟨i, u, hstores, htransactions, hproposals⟩
  · -- nothing was stored
    change t'.transactions.records = s.tunnel.transactions.records at htransactions
    change t'.proposals = s.tunnel.proposals at hproposals
    rw [hproposals] at hp'
    apply (h.agrees k p' hp').kept
    intro i u hu
    rwa [AppliedFor, htransactions] at hu
  · change t'.transactions.records = s.tunnel.transactions.records.insert i u at htransactions
    change t'.proposals = _ at hproposals
    have hcases : ∀ j v, AppliedFor t' k j v → (j = i ∧ v = u) ∨ AppliedFor s.tunnel k j v := by
      rintro j v ⟨hv, hat, hkey⟩
      rw [htransactions, Dict.get?_insert] at hv
      split at hv
      · rename_i heq
        left
        exact ⟨heq, by simpa using hv.symm⟩
      · right
        exact ⟨hv, hat, hkey⟩
    obtain ⟨p, hp, hpath⟩ : ∃ p, s.tunnel.proposals.records.get? k = some p ∧
        ReflTransGen (proposalNext [.expired, .applied]) p p' := by
      rcases hlaw.proposals.origin hp' with hstored | ⟨_, p, harrives, _⟩
      · exact hstored
      · simp [Arrives, Input.law, Method.law] at harrives
    by_cases happlied : transactionLifecycle.At u .applied ∧ (Obj.get u "proposal_id").key? = some k
    · -- the proposal was approved, and is applied now
      obtain ⟨hat, hkey⟩ := happlied
      obtain ⟨hatp, hlinks⟩ := hkeeps i u hstores k p hp hkey
      obtain ⟨hfile, hpasses⟩ := hlinks hat
      have hid := h.keyed k p hp
      have htruthy : (Obj.get u "proposal_id").truthy = true := by
        rw [Json.truthy_of_key? hkey, ← Json.truthy_of_key? hid.1]
        exact hid.2
      obtain ⟨p₁, hp₁, hat₁⟩ := linkProposal_applied hp hatp hkey htruthy hpasses
        fun _ _ hstored => h.keyed.isSome hstored
      rw [if_pos hfile] at hproposals
      rw [hproposals, hp₁] at hp'
      obtain rfl := Option.some.inj hp'
      have hnone : ∀ j v, ¬ AppliedFor s.tunnel k j v := by
        intro j v hv
        have hsame := hatp.eq ((h.agrees k p hp).applied j v hv)
        simp at hsame
      have honly : ∀ j v, AppliedFor t' k j v → j = i := by
        intro j v hv
        rcases hcases j v hv with ⟨heq, _⟩ | hold
        · exact heq
        · exact absurd hold (hnone j v)
      constructor
      · intro j j' v v' hv hv'
        rw [honly j v hv, honly j' v' hv']
      · intro _ _ _
        exact hat₁
      · intro hrolled
        have hsame := hat₁.eq hrolled
        simp at hsame
    · -- no applied transaction of the proposal is new
      apply (h.agrees k p hp).preserved (by simp) hpath
      intro j v hv
      rcases hcases j v hv with ⟨_, rfl⟩ | hold
      · exact absurd hv.2 happlied
      · exact hold

/-- A rollback takes the one applied transaction of a proposal away, and rolls back that
proposal alone. -/
theorem linked_transactionMarkRolledBack (h : Linked s) :
    Linked (daemon.step (.request env .transactionMarkRolledBack params) s).2 := by
  have hlaw := step_law (.request env .transactionMarkRolledBack params) s
  have hkeyed :
      Keyed (daemon.step (.request env .transactionMarkRolledBack params) s).2.tunnel := by
    apply h.keyed.preserved hlaw
    intro hnew
    simp [Input.law, Method.law] at hnew
  refine ⟨hkeyed, ?_⟩
  intro k p' hp'
  have hback : ∀ j v, AppliedFor
      (daemon.step (.request env .transactionMarkRolledBack params) s).2.tunnel k j v →
      AppliedFor s.tunnel k j v := fun j v => appliedFor_of_law hlaw rfl
  set t' := (daemon.step (.request env .transactionMarkRolledBack params) s).2.tunnel
  rcases mTransactionMarkRolledBack_cases env params s.tunnel with
    ⟨_, hproposals⟩ | ⟨i, u, u', _, hu, htr, htransactions, hproposals⟩
  · change t'.proposals = s.tunnel.proposals at hproposals
    rw [hproposals] at hp'
    exact (h.agrees k p' hp').kept hback
  · change t'.transactions.records = s.tunnel.transactions.records.insert i u' at htransactions
    change t'.proposals = _ ∨ _ ∧ t'.proposals = _ at hproposals
    obtain ⟨⟨a, hat, hedge⟩, rfl⟩ := Lifecycle.transition_eq_ok.mp htr
    obtain rfl : a = .applied := by
      cases a <;> simp [transactionLifecycle, TransactionStatus.transitions] at hedge ⊢
    rcases hproposals with hproposals | ⟨_, hproposals⟩
    · rw [hproposals] at hp'
      exact (h.agrees k p' hp').kept hback
    by_cases hkey : (Obj.get u "proposal_id").key? = some k
    · -- the transaction was the only applied one of this proposal
      obtain ⟨p, hp, _⟩ : ∃ p, s.tunnel.proposals.records.get? k = some p ∧
          ReflTransGen (proposalNext [.expired, .rolledBack]) p p' := by
        rcases hlaw.proposals.origin hp' with hstored | ⟨_, p, harrives, _⟩
        · exact hstored
        · simp [Arrives, Input.law, Method.law] at harrives
      apply agrees_of_none
      intro j v hv
      obtain rfl : j = i := (h.agrees k p hp).one j i v u (hback j v hv) ⟨hu, hat, hkey⟩
      obtain ⟨hstored, hstatus, _⟩ := hv
      rw [htransactions, Dict.get?_insert, if_pos rfl] at hstored
      obtain rfl := Option.some.inj hstored
      simp [Lifecycle.At, Lifecycle.statusOf, Obj.getD, transactionLifecycle,
        TransactionStatus.name] at hstatus
    · have hother : (Obj.get (Obj.set u "status" (.str TransactionStatus.rolledBack.name))
          "proposal_id").key? ≠ some k := by
        simpa [Obj.get, Obj.getD] using hkey
      have htraces : Traces k [.expired] s.tunnel.proposals t'.proposals := by
        rw [hproposals]
        exact linkProposal_traces hother s.tunnel.proposals
      obtain ⟨p, hp, hpath⟩ := htraces p' hp'
      exact (h.agrees k p hp).preserved (by simp) hpath hback

/-- Every step that keeps the agreement preserves what links the two stores. -/
theorem linked_step {i : Input} (h : Linked s) (hkeeps : KeepsAgreement s i) :
    Linked (daemon.step i s).2 := by
  cases i with
  | sweep env => exact linked_of_law h rfl rfl (by simp [Input.law])
  | advance w j =>
    apply linked_of_law h
    all_goals
      simp only [Input.law]
      cases s.runners[j]? with
      | none => simp
      | some r => cases hpoint : r.point <;> simp [RunPoint.law, hpoint]
  | request env method params =>
    cases method with
    | proposalCreate => exact linked_proposalCreate h hkeeps
    | transactionCreate => exact linked_transactionCreate h hkeeps
    | transactionMarkRolledBack => exact linked_transactionMarkRolledBack h
    | _ => exact linked_of_law h rfl rfl (by simp [Input.law, Method.law])

end Steps

/-- In a run whose steps keep the agreement, every stored proposal agrees with the
transactions that carry its id, and a transaction for a stored proposal was stored while
that proposal was approved. -/
theorem agreement {h : List (Entry System Input (Except PyExc Json))} {s : System}
    (hrun : Run daemon KeepsAgreement h s) :
    (∀ k p, s.tunnel.proposals.records.get? k = some p →
      (Obj.get p "proposal_id").key? = some k ∧ Agrees s.tunnel k p) ∧
    ∀ e ∈ h, ∀ env params, e.input = .request env .transactionCreate params →
      ∀ i u k p, e.before.tunnel.transactions.records.get? i = none →
        e.after.tunnel.transactions.records.get? i = some u →
        e.before.tunnel.proposals.records.get? k = some p →
        (Obj.get u "proposal_id").key? = some k → proposalLifecycle.At p .approved := by
  constructor
  · have hlinked : Linked s := by
      refine Run.invariant (I := Linked) ?_ ?_ hrun
      · rintro _ ⟨registry, rfl⟩
        constructor <;> intro k p hp <;> simp [Tunnel.fresh, Store.empty] at hp
      · intro s i hkeeps h
        exact linked_step h hkeeps
    intro k p hp
    exact ⟨(hlinked.keyed k p hp).1, hlinked.agrees k p hp⟩
  · intro e he env params hinput i u k p hnone hsome hp hkey
    obtain ⟨_, _, _, _, hok, hfire⟩ := hrun.split_of_mem he
    rw [hinput] at hok hfire
    rw [hfire] at hsome
    rcases mTransactionCreate_cases env params e.before.tunnel with
      ⟨htransactions, _⟩ | ⟨i', u', hstores, htransactions, _⟩
    · have hget : e.before.tunnel.transactions.records.get? i = some u := by
        rw [← htransactions]
        exact hsome
      simp [hnone] at hget
    · have hget : (e.before.tunnel.transactions.records.insert i' u').get? i = some u := by
        rw [← htransactions]
        exact hsome
      rw [Dict.get?_insert] at hget
      split at hget
      · obtain rfl : u' = u := by simpa using hget
        exact (hok i' u' hstores k p hp hkey).1
      · simp [hnone] at hget

/-- The payload of a transaction `t_1` for `p_1`. -/
def sampleTransaction : Obj := [("transaction_id", .str "t_1"), ("proposal_id", .str "p_1")]

/-- The request that stores it. -/
def sampleApply : Input :=
  sampleRequest .transactionCreate [("transaction", .obj sampleTransaction)]

/-- The record of `p_1` once it is applied. -/
def sampleAppliedRecord : Obj :=
  Obj.set (makeProposal .sample sampleProposal) "status" (.str "applied")

/-- The proposal of the sample is applied. -/
theorem sampleApply_record : (daemon.step sampleApply sampleApproved).2.tunnel.proposals.records.get?
    (.str "p_1") = some sampleAppliedRecord := by rfl

/-- Before that it is approved, and the only one. -/
theorem sampleApproved_records : sampleApproved.tunnel.proposals.records =
    Store.empty.records.insert (.str "p_1")
      (Obj.set (makeProposal .sample sampleProposal) "status" (.str "approved")) := by rfl

/-- The transaction of the sample names nobody to bind. -/
theorem sampleTransaction_bound : ((bindActor [("transaction", .obj sampleTransaction)]
    sampleTransaction).exec sampleApproved.tunnel).1 = .ok sampleTransaction := by rfl

/-- Applying the approved `p_1` keeps the agreement. -/
theorem keepsAgreement_sampleApply : KeepsAgreement sampleApproved sampleApply := by
  intro i u hstores k p hp hkey
  have honly : ∀ k p, sampleApproved.tunnel.proposals.records.get? k = some p →
      p = Obj.set (makeProposal .sample sampleProposal) "status" (.str "approved") := by
    intro k p hp
    rw [sampleApproved_records, Dict.get?_insert] at hp
    split at hp
    · exact (Option.some.inj hp).symm
    · simp [Store.empty] at hp
  have hat : proposalLifecycle.At
      (Obj.set (makeProposal .sample sampleProposal) "status" (.str "approved")) .approved := by
    simp [Lifecycle.At, Lifecycle.statusOf, Obj.getD, proposalLifecycle, ProposalStatus.name]
  obtain rfl := honly k p hp
  refine ⟨hat, ?_⟩
  intro _
  constructor
  · obtain ⟨data, data', t', hdata, hbound, rfl, _⟩ := hstores
    obtain rfl : sampleTransaction = data := by simpa [Obj.get, Obj.getD] using hdata
    have hsame := (congrArg Prod.fst hbound).symm.trans sampleTransaction_bound
    obtain rfl := Except.ok.inj hsame
    rfl
  · intro _ k p hp
    obtain rfl := honly k p hp
    exact ⟨false, rfl, by simp⟩

/-- The applied proposal agrees with its transaction. -/
theorem agreement_sample : ∃ h, Run daemon KeepsAgreement h (daemon.step sampleApply sampleApproved).2 ∧
    Agrees (daemon.step sampleApply sampleApproved).2.tunnel (.str "p_1") sampleAppliedRecord := by
  have hcreate : KeepsAgreement sampleStart
      (sampleRequest .proposalCreate [("proposal", .obj sampleProposal)]) := by
    intro k p _
    left
    rintro i u ⟨hu, _⟩
    simp [sampleStart, Tunnel.fresh, Store.empty] at hu
  have happrove : KeepsAgreement sampleCreated (sampleRequest .proposalApprove sampleProposal) :=
    trivial
  have hrun := Run.step (Run.step (Run.step (run_sampleStart _) hcreate) happrove)
    keepsAgreement_sampleApply
  exact ⟨_, hrun, ((agreement hrun).1 _ _ sampleApply_record).2⟩

/-- The daemon after it stored a transaction for `p_1` while that was pending. -/
def sampleUnapproved : System := (daemon.step sampleApply sampleCreated).2

/-- In the other sample the proposal is pending. -/
theorem sampleUnapproved_proposal : sampleUnapproved.tunnel.proposals.records.get? (.str "p_1") =
    some (makeProposal .sample sampleProposal) := by rfl

/-- Its transaction is stored all the same. -/
theorem sampleUnapproved_transaction :
    sampleUnapproved.tunnel.transactions.records.get? (.str "t_1") =
      some (makeTransaction .sample sampleTransaction) := by rfl

/-- A transaction for a pending proposal is stored as applied, and the proposal stays
pending. -/
theorem applied_while_pending : ∃ h p, Run daemon (fun _ _ => True) h sampleUnapproved ∧
    sampleUnapproved.tunnel.proposals.records.get? (.str "p_1") = some p ∧
    ¬ Agrees sampleUnapproved.tunnel (.str "p_1") p := by
  have hrun : Run daemon (fun _ _ => True) _ sampleUnapproved :=
    .step (i := sampleApply) (.step (run_sampleStart _) trivial) trivial
  refine ⟨_, _, hrun, sampleUnapproved_proposal, ?_⟩
  intro hagrees
  have hpending : proposalLifecycle.At (makeProposal .sample sampleProposal) .pending :=
    statusOf_makeProposal
  have happlied := hagrees.applied (.str "t_1") _
    ⟨sampleUnapproved_transaction, rfl, rfl⟩
  have hsame := hpending.eq happlied
  simp at hsame

end VirtuosoFlow.Tunnel
