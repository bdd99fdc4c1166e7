import VirtuosoFlow.Tunnel.Requests

/-!
# The approval gate

Which proposals are past the gate, and how they came there. A record enters the
statuses behind the gate through `proposal.approve` alone, unless it is created in
one of them: `make_proposal` keeps the status its payload names.
-/

namespace VirtuosoFlow.Tunnel

open Base

/-- The statuses a proposal can only have after it was approved. -/
def gatedStatuses : List ProposalStatus := [.approved, .applied, .failed, .rolledBack]

/-- The record is past the gate. -/
def Gated (p : Obj) : Prop := ∃ a ∈ gatedStatuses, proposalLifecycle.At p a

/-- The steps that keep the gate: what `proposal.create` stores is pending, and the file of
a pending proposal that is being approved has a name. -/
def KeepsGate (s : System) : Input → Prop
  | .request env .proposalCreate params =>
    ∀ k p, StoresProposal env params s.tunnel k p → proposalLifecycle.At p .pending
  | .request env .proposalApprove params =>
    ∀ k p, (Obj.get params "proposal_id").key? = some k →
      s.tunnel.proposals.records.get? k = some p → proposalLifecycle.At p .pending →
      persistError env "proposal_id" p = none
  | _ => True

/-- The step is an answered `proposal.approve` of the proposal under `k`, found pending. -/
def ApprovesPending (k : Key) (e : Entry System Input (Except PyExc Json)) : Prop :=
  ∃ env params p answer, e.input = .request env .proposalApprove params ∧
    (Obj.get params "proposal_id").key? = some k ∧
    e.before.tunnel.proposals.records.get? k = some p ∧ proposalLifecycle.At p .pending ∧
    e.output = .ok answer

section Steps

variable {env : Env} {params : Obj} {t : Tunnel}

/-- The edges behind the gate start behind it, but for the one into `approved`. -/
theorem gated_of_edge {a b : ProposalStatus} (hedge : b ∈ a.transitions) (hb : b ∈ gatedStatuses)
    (hne : b ≠ .approved) : a ∈ gatedStatuses := by
  revert hedge hb hne
  cases a <;> cases b <;> decide

/-- No step into a status other than `approved` crosses the gate. -/
theorem gated_of_next {targets : List ProposalStatus} (hnot : .approved ∉ targets) {p p' : Obj}
    (h : proposalNext targets p p') (hgated : Gated p') : Gated p := by
  obtain ⟨a, b, hat, hb, hedge, hat', _⟩ := h
  obtain ⟨c, hc, hatc⟩ := hgated
  obtain rfl := hat'.eq hatc
  have hne : b ≠ .approved := fun heq => hnot (heq ▸ hb)
  exact ⟨a, gated_of_edge hedge hc hne, hat⟩

/-- A pending record is not past the gate. -/
theorem not_gated_of_pending {p : Obj} (h : proposalLifecycle.At p .pending) : ¬ Gated p := by
  rintro ⟨a, ha, hat⟩
  obtain rfl := h.eq hat
  simp [gatedStatuses] at ha

/-- An input that neither creates nor approves puts no proposal past the gate. -/
theorem gated_of_law {L : Law} {t' : Tunnel} {k : Key} {p' : Obj} (hlaw : L.Holds t t')
    (hnew : L.newProposal = false) (hnot : .approved ∉ L.proposalTargets)
    (hp' : t'.proposals.records.get? k = some p') (hgated : Gated p') :
    ∃ p, t.proposals.records.get? k = some p ∧ Gated p := by
  apply Evolves.not_entered hlaw.proposals _ _ hp' hgated
  · intro r _ harrives
    simp [Arrives, hnew] at harrives
  · intro r r' hnext
    exact gated_of_next hnot hnext

end Steps

/-- A step that keeps the gate and puts a proposal past it is an approval of it. -/
theorem approvesPending_of_step {s : System} {i : Input} {k : Key} {p' : Obj}
    (hkeeps : KeepsGate s i)
    (hbefore : ¬ ∃ p, s.tunnel.proposals.records.get? k = some p ∧ Gated p)
    (hp' : (daemon.step i s).2.tunnel.proposals.records.get? k = some p') (hgated : Gated p') :
    ApprovesPending k (daemon.fire s i) := by
  have hlaw := step_law i s
  -- every other input is refuted by its law
  by_cases hopen : (i.law s).newProposal = true ∨ .approved ∈ (i.law s).proposalTargets
  · cases i with
    | sweep env => simp [Input.law] at hopen
    | advance w j =>
      simp only [Input.law] at hopen
      cases hr : s.runners[j]? with
      | none => simp [hr] at hopen
      | some r => cases hpoint : r.point <;> simp [hr, RunPoint.law, hpoint] at hopen
    | request env method params =>
      cases method with
      | proposalCreate =>
        rcases mProposalCreate_records env params s.tunnel
          with hsame | ⟨k', p, hstores, hinsert⟩
        · exact absurd ⟨p', by rw [← hsame]; exact hp', hgated⟩ hbefore
        · have hget : (s.tunnel.proposals.records.insert k' p).get? k = some p' := by
            rw [← hinsert]; exact hp'
          rw [Dict.get?_insert] at hget
          split at hget
          · obtain rfl : p = p' := by simpa using hget
            exact absurd hgated (not_gated_of_pending (hkeeps k' p hstores))
          · exact absurd ⟨p', hget, hgated⟩ hbefore
      | proposalApprove =>
        rcases setProposal_cases env .approved (some "proposal.approved") params s.tunnel
          with hsame | ⟨k', p, p₁, hkey, hp, htr, hinsert, hanswer⟩
        · exact absurd ⟨p', by rw [← hsame]; exact hp', hgated⟩ hbefore
        · have hget : (s.tunnel.proposals.records.insert k' p₁).get? k = some p' := by
            rw [← hinsert]; exact hp'
          rw [Dict.get?_insert] at hget
          split at hget
          · rename_i heq
            subst heq
            have hpending : proposalLifecycle.At p .pending := by
              obtain ⟨a, hat, hmem⟩ := proposalTransition_source htr
              cases a <;> simp [ProposalStatus.transitions] at hmem
              exact hat
            have hsame : persistError env "proposal_id" p₁ = persistError env "proposal_id" p := by
              obtain ⟨_, rfl⟩ := Lifecycle.transition_eq_ok.mp htr
              exact persistError_congr (by simp)
            obtain ⟨answer, hok⟩ := hanswer (hsame ▸ hkeeps k p hkey hp hpending)
            exact ⟨env, params, p, answer, rfl, hkey, hp, hpending, hok⟩
          · exact absurd ⟨p', hget, hgated⟩ hbefore
      | _ => simp [Input.law, Method.law] at hopen
  · simp only [not_or, Bool.not_eq_true] at hopen
    exact absurd (gated_of_law hlaw hopen.1 hopen.2 hp' hgated) hbefore

/-- In a run whose steps keep the gate, a proposal past it was approved while pending, and
`proposal.create` stores pending proposals only. -/
theorem gated_was_approved {h : List (Entry System Input (Except PyExc Json))} {s : System}
    (hrun : Run daemon KeepsGate h s) :
    (∀ k p, s.tunnel.proposals.records.get? k = some p → Gated p → ∃ e ∈ h, ApprovesPending k e) ∧
    ∀ e ∈ h, ∀ env params, e.input = .request env .proposalCreate params →
      ∀ k p, e.before.tunnel.proposals.records.get? k = none →
        e.after.tunnel.proposals.records.get? k = some p → proposalLifecycle.At p .pending := by
  constructor
  · intro k p hp hgated
    obtain ⟨h₁, e, h₂, rfl, _, hok, hfire, hbefore, p', hp', hgated'⟩ :=
      Run.cause (P := fun s => ∃ p, s.tunnel.proposals.records.get? k = some p ∧ Gated p)
        (by rintro _ ⟨registry, rfl⟩ ⟨p, hp, _⟩; simp [Tunnel.fresh, Store.empty] at hp)
        hrun ⟨p, hp, hgated⟩
    refine ⟨e, by simp, ?_⟩
    rw [hfire] at hp' ⊢
    exact approvesPending_of_step hok hbefore hp' hgated'
  · intro e he env params hinput k p hnone hsome
    obtain ⟨_, _, _, _, hok, hfire⟩ := hrun.split_of_mem he
    rw [hinput] at hok hfire
    rw [hfire] at hsome
    rcases mProposalCreate_records env params e.before.tunnel
      with hsame | ⟨k', p', hstores, hinsert⟩
    · have hget : e.before.tunnel.proposals.records.get? k = some p := by
        rw [← hsame]; exact hsome
      simp [hnone] at hget
    · have hget : (e.before.tunnel.proposals.records.insert k' p').get? k = some p := by
        rw [← hinsert]; exact hsome
      rw [Dict.get?_insert] at hget
      split at hget
      · obtain rfl : p' = p := by simpa using hget
        exact hok k' p' hstores
      · simp [hnone] at hget

/-- Storing and approving `p_1` is a run whose steps keep the gate. -/
theorem run_sampleApproved : ∃ h, Run daemon KeepsGate h sampleApproved := by
  have hcreate : KeepsGate sampleStart
      (sampleRequest .proposalCreate [("proposal", .obj sampleProposal)]) := by
    rintro k p ⟨data, hdata, _, rfl, _⟩
    obtain rfl : sampleProposal = data := by simpa [Obj.get, Obj.getD] using hdata
    exact statusOf_makeProposal
  have happrove : KeepsGate sampleCreated (sampleRequest .proposalApprove sampleProposal) := by
    intro k p hkey hp _
    obtain rfl : Key.str "p_1" = k := by simpa [sampleProposal, Obj.get, Obj.getD] using hkey
    rw [sampleCreated_record] at hp
    obtain rfl := Option.some.inj hp
    rfl
  exact ⟨_, .step (.step (run_sampleStart _) hcreate) happrove⟩

/-- An approved proposal was approved while it was pending. -/
theorem gated_was_approved_sample : ∃ h, Run daemon KeepsGate h sampleApproved ∧
    ∃ e ∈ h, ApprovesPending (.str "p_1") e := by
  obtain ⟨h, hrun⟩ := run_sampleApproved
  have hgated : Gated (Obj.set (makeProposal .sample sampleProposal) "status" (.str "approved")) :=
    ⟨.approved, by simp [gatedStatuses], by simp [Lifecycle.At, Lifecycle.statusOf, Obj.getD,
      proposalLifecycle, ProposalStatus.name]⟩
  exact ⟨h, hrun, (gated_was_approved hrun).1 _ _ sampleApproved_record hgated⟩

/-- A payload that names the status `approved`. -/
def sampleForged : Obj := [("proposal_id", .str "p_1"), ("status", .str "approved")]

/-- The daemon after it stored that payload. -/
def sampleForgedCreated : System :=
  (daemon.step (sampleRequest .proposalCreate [("proposal", .obj sampleForged)]) sampleStart).2

/-- The forged proposal is stored as it came. -/
theorem sampleForgedCreated_record :
    sampleForgedCreated.tunnel.proposals.records.get? (.str "p_1") =
      some (makeProposal .sample sampleForged) := by rfl

/-- It is stored approved, and nobody approved it. -/
theorem forged_past_gate : ∃ h p, Run daemon (fun _ _ => True) h sampleForgedCreated ∧
    sampleForgedCreated.tunnel.proposals.records.get? (.str "p_1") = some p ∧
    proposalLifecycle.At p .approved ∧ ¬ ∃ e ∈ h, ApprovesPending (.str "p_1") e := by
  let create := sampleRequest .proposalCreate [("proposal", .obj sampleForged)]
  have hrun : Run daemon (fun _ _ => True) [daemon.fire sampleStart create]
      sampleForgedCreated := .step (run_sampleStart _) trivial
  refine ⟨_, _, hrun, sampleForgedCreated_record, statusOf_makeProposal, ?_⟩
  rintro ⟨e, he, env, params, p, answer, hinput, _⟩
  obtain rfl := List.mem_singleton.mp he
  simp [Machine.fire, create, sampleRequest] at hinput

end VirtuosoFlow.Tunnel
