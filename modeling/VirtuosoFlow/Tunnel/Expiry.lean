import VirtuosoFlow.Tunnel.Requests
import VirtuosoFlow.Tunnel.Sweep

/-!
# Proposals past the time limit

A pending proposal that is older than `VFP_PROPOSAL_TTL_S` is expired by the next request that sweeps.
Until then it can be approved; after it, it cannot.
-/

namespace VirtuosoFlow

/-- A float above another is neither below it nor equal to it. -/
theorem PyFloat.not_le_of_lt {x y : PyFloat} (h : PyFloat.lt x y = true) :
    PyFloat.lt y x = false ∧ (y == x) = false := by
  cases x with
  | nan => cases h
  | finite p =>
    cases y with
    | nan => cases h
    | finite q =>
      have hlt : p < q := by simpa [PyFloat.lt] using h
      exact ⟨by simpa [PyFloat.lt] using hlt.le, by simpa using hlt.ne'⟩
    | infinite negative => cases negative <;> simp_all [PyFloat.lt]
  | infinite negative =>
    cases y with
    | nan => cases negative <;> cases h
    | finite q => cases negative <;> simp_all [PyFloat.lt]
    | infinite negative' => cases negative <;> cases negative' <;> simp_all [PyFloat.lt]

namespace Tunnel

open Base Relation

/-- More than the time limit has passed since `c`. -/
def Env.Overdue (env : Env) (c : ℚ) : Prop :=
  0 < env.proposalTtl ∧ ∃ age, env.age (.float (.finite c)) = .ok age ∧
    PyFloat.lt (.finite env.proposalTtl) age = true

/-- Where the clock's floats are subtracted exactly, this is the comparison of the numbers. -/
theorem Env.overdue_iff {env : Env} {c : ℚ} (hc : env.round c = .finite c)
    (hage : env.round (env.now - c) = .finite (env.now - c)) :
    env.Overdue c ↔ 0 < env.proposalTtl ∧ (env.proposalTtl : ℚ) < env.now - c := by
  simp [Env.Overdue, Env.age, Json.number?, hc, hage, PyFloat.lt]

/-- The step stores a proposal under `k` at the time `c`, from a payload that brings no `created_ts`. -/
def CreatesAt (k : Key) (c : ℚ) (e : Entry System Input (Except PyExc Json)) : Prop :=
  ∃ env params data, e.input = .request env .proposalCreate params ∧ env.now = c ∧
    Obj.get params "proposal" = .obj data ∧ data.lookup "created_ts" = none ∧
    e.before.tunnel.proposals.records.get? k = none ∧ (e.after.tunnel.proposals.records.get? k).isSome = true

/-- The step is a list or get request that was answered. -/
def AnswersLookup (env : Env) (e : Entry System Input (Except PyExc Json)) : Prop :=
  ∃ method params answer, e.input = .request env method params ∧
    (method = .proposalList ∨ method = .proposalGet) ∧ e.output = .ok answer

/-- The step is an answered `proposal.approve` of the proposal under `k`. -/
def Approves (k : Key) (e : Entry System Input (Except PyExc Json)) : Prop :=
  ∃ env params answer, e.input = .request env .proposalApprove params ∧
    (Obj.get params "proposal_id").key? = some k ∧ e.output = .ok answer

/-- The record tells its age from `c`, and the sweep sees it while it is pending. -/
def AgesFrom (c : ℚ) (p : Obj) : Prop :=
  p.lookup "created_ts" = some (.float (.finite c)) ∧
    (proposalLifecycle.At p .pending → Obj.get p "status" = .str "pending")

section Records

variable {env : Env} {c : ℚ} {p p' data : Obj} {targets : List ProposalStatus}

/-- No edge leads to pending. -/
theorem ne_pending_of_next (h : proposalNext targets p p') : ¬ proposalLifecycle.At p' .pending := by
  obtain ⟨a, b, _, _, hedge, hat, _⟩ := h
  intro hpending
  exact ProposalStatus.ne_pending_of_edge hedge (hat.eq hpending)

/-- A proposal goes on ageing from its creation. -/
theorem AgesFrom.next (hp : AgesFrom c p) (h : proposalNext targets p p') : AgesFrom c p' := by
  refine ⟨?_, fun hpending => absurd hpending (ne_pending_of_next h)⟩
  obtain ⟨_, _, _, _, _, _, hkeep⟩ := h
  rw [hkeep "created_ts" (by decide)]
  exact hp.1

/-- So it does along its whole history. -/
theorem AgesFrom.path (hp : AgesFrom c p) (h : ReflTransGen (proposalNext targets) p p') : AgesFrom c p' := by
  induction h with
  | refl => exact hp
  | tail _ hnext ih => exact ih.next hnext

/-- A proposal that is not pending does not become so. -/
theorem not_pending_path (hp : ¬ proposalLifecycle.At p .pending) (h : ReflTransGen (proposalNext targets) p p') :
    ¬ proposalLifecycle.At p' .pending := by
  induction h with
  | refl => exact hp
  | tail _ hnext _ => exact ne_pending_of_next hnext

/-- A new proposal ages from now. -/
theorem agesFrom_makeProposal (h : data.lookup "created_ts" = none) : AgesFrom env.now (makeProposal env data) := by
  have hid : ∀ v, (Obj.set data "proposal_id" v).lookup "created_ts" = none := fun v => by
    rw [Obj.lookup_set_ne data (by decide) v, h]
  constructor
  · unfold makeProposal
    dsimp only
    split <;> simp [hid, h, Obj.getD]
  · intro hpending
    have hstatus : proposalLifecycle.statusOf (makeProposal env data) = Obj.get (makeProposal env data) "status" := by
      unfold makeProposal Lifecycle.statusOf Obj.get Obj.getD
      dsimp only
      split <;> simp
    rw [← hstatus]
    exact hpending

/-- A pending record whose age is above the limit is stale. -/
theorem isStale_of_overdue (hp : AgesFrom c p) (hat : proposalLifecycle.At p .pending) (hover : env.Overdue c) :
    ProposalStore.isStale env p = .ok true := by
  obtain ⟨_, age, hage, hlt⟩ := hover
  have hstatus : (Obj.get p "status").pyEq (.str "pending") = true := by
    rw [Json.pyEq_str]
    exact hp.2 hat
  have hcreated : Obj.get p "created_ts" = .float (.finite c) := by
    simp [Obj.get, Obj.getD, hp.1]
  obtain ⟨hnot, hne⟩ := PyFloat.not_le_of_lt hlt
  rw [ProposalStore.isStale, if_pos hstatus, hcreated]
  simp [hage, Except.map, hnot, hne]

end Records

/-- The proposal under `k` is stored and not pending. -/
def Decided (k : Key) (st : Store) : Prop :=
  ∃ p, st.records.get? k = some p ∧ ¬ proposalLifecycle.At p .pending

section Sweeping

variable {env : Env} {st st' : Store} {k : Key} {p : Obj} {c : ℚ}

/-- A proposal that is decided stays so. -/
theorem Decided.evolves {fresh : Key → Obj → Prop} {targets : List ProposalStatus} (h : Decided k st)
    (hevolves : Store.Evolves fresh (proposalNext targets) st st') : Decided k st' := by
  obtain ⟨p, hp, hnot⟩ := h
  obtain ⟨p', hp', hpath⟩ := Evolves.advanced hevolves hp
  exact ⟨p', hp', not_pending_path hnot hpath⟩

/-- Writing the expired records leaves the records alone. -/
theorem ProposalStore.persistAll_fixes (env : Env) (l : List Obj) :
    Prog.Keeps (Prog.Fixes Store.records) (ProposalStore.persistAll env l) := by
  induction l with
  | nil => exact .pure _
  | cons u rest ih => exact .bind (persist_fixes env "proposal_id" u) fun _ => ih

/-- A sweep that returned has expired each stale record. -/
theorem get?_expireStale_stale {ids : List Json} (h : (ProposalStore.expireStale env).exec st = (.ok ids, st'))
    (httl : 0 < env.proposalTtl) (hp : st.records.get? k = some p)
    (hstale : ProposalStore.isStale env p = .ok true) :
    st'.records.get? k = some (ProposalStore.markExpired env p) := by
  have hpositive : ¬ env.proposalTtl ≤ 0 := by omega
  unfold ProposalStore.expireStale at h
  rw [if_neg hpositive, Prog.exec_bind_ok (Prog.exec_get st)] at h
  obtain ⟨newly, st₁, hloop, hfiles⟩ := Prog.exec_bind_eq_ok h
  have hfixes : st'.records = st₁.records := by
    have hkeeps : Prog.Keeps (Prog.Fixes Store.records)
        (do ProposalStore.persistAll env newly; Prog.ofExcept (newly.mapM fun u => getItem u "proposal_id")) :=
      .bind (ProposalStore.persistAll_fixes env newly) fun _ => .ofExcept _
    have hlast := hkeeps st₁
    rw [hfiles] at hlast
    exact hlast
  have hentry : (k, p) ∈ st.records.entries := Dict.mem_entries_iff.mpr hp
  obtain ⟨_, _, hentries, _⟩ :=
    ProposalStore.expireEntries_spec st.records.nodup (fun e he => Dict.mem_entries_iff.mp he) hloop
  rw [hfixes]
  rcases hentries (k, p) hentry with ⟨hfresh, _⟩ | ⟨_, _, hmarked⟩
  · rw [hstale] at hfresh
    cases hfresh
  · exact hmarked

/-- After a sweep that returned, a proposal above the limit is not pending. -/
theorem expireStale_settles {ids : List Json} (h : (ProposalStore.expireStale env).exec st = (.ok ids, st'))
    (hover : env.Overdue c) (hp : st.records.get? k = some p) (hages : AgesFrom c p) : Decided k st' := by
  have hkeeps : Prog.Keeps (Store.Evolves (fun _ _ => False) (proposalNext [.expired]))
      (ProposalStore.expireStale env) := ProposalStore.expireStale_keeps (by simp)
  have hevolves : Store.Evolves (fun _ _ => False) (proposalNext [.expired]) st st' := by
    simpa [h] using hkeeps st
  by_cases hat : proposalLifecycle.At p .pending
  · have hmarked := get?_expireStale_stale h hover.1 hp (isStale_of_overdue hages hat hover)
    refine ⟨_, hmarked, fun hpending => ?_⟩
    have hexpired : proposalLifecycle.At (ProposalStore.markExpired env p) .expired := by
      simp [Lifecycle.At, Lifecycle.statusOf, Obj.getD, ProposalStore.markExpired, proposalLifecycle,
        ProposalStatus.name]
    cases hexpired.eq hpending
  · exact Decided.evolves ⟨p, hp, hat⟩ hevolves

/-- After an answered lookup a proposal above the limit is not pending. -/
theorem lookup_settles {t : Tunnel} {params : Obj} {method : Method} {answer : Json}
    (hmethod : method = .proposalList ∨ method = .proposalGet)
    (hanswer : ((handle env method params).exec t).1 = .ok answer) (hover : env.Overdue c)
    (hp : t.proposals.records.get? k = some p) (hages : AgesFrom c p) :
    Decided k ((handle env method params).exec t).2.proposals := by
  obtain ⟨t', hexec⟩ : ∃ t', (handle env method params).exec t = (.ok answer, t') := ⟨_, Prod.ext hanswer rfl⟩
  rw [hexec]
  rcases hmethod with rfl | rfl
  · obtain ⟨ids, t₁, hsweep, hrest⟩ := Prog.exec_bind_eq_ok hexec
    rw [exec_onProposals, Prod.mk.injEq] at hsweep
    obtain ⟨hids, rfl⟩ := hsweep
    have hfirst := expireStale_settles (Prod.ext hids rfl) hover hp hages
    have hkeeps : Prog.Keeps (Law.Holds { proposalTargets := [.expired] })
        (do
          emitExpired env ids
          let items ← onProposals (ProposalStore.list env (Obj.get params "status"))
          return .obj [("proposals", .arr (items.map .obj)), ("count", .int items.length)] : Prog PyExc Tunnel Json) :=
      .bind (emitExpired_keeps ids) fun _ =>
        .bind (onProposals_keeps (ProposalStore.list_keeps (by simp))) fun _ => .pure _
    have hlaw := hkeeps { t with proposals := ((ProposalStore.expireStale env).exec t.proposals).2 }
    rw [hrest] at hlaw
    exact hfirst.evolves hlaw.proposals
  · obtain ⟨id, t₁, hid, hrest⟩ := Prog.exec_bind_eq_ok hexec
    have hsame : t₁ = t := by
      unfold requireId at hid
      split at hid <;> cases hid
      rfl
    subst hsame
    obtain ⟨rec, t₂, hget, hlast⟩ := Prog.exec_bind_eq_ok hrest
    have hanswered : t' = t₂ := by
      cases rec with
      | none => cases hlast
      | some p => exact (congrArg Prod.snd hlast).symm
    rw [exec_onProposals, Prod.mk.injEq] at hget
    obtain ⟨hrec, rfl⟩ := hget
    obtain ⟨ids, st₁, hsweep, hlookup⟩ := Prog.exec_bind_eq_ok
      (show (ProposalStore.get env id).exec t₁.proposals = (.ok rec, _) from Prod.ext hrec rfl)
    have hreads : ((ProposalStore.get env id).exec t₁.proposals).2 = st₁ := by
      have hfixed : ((getRecord id).exec st₁).2 = st₁ := getRecord_reads st₁
      rw [hlookup] at hfixed
      exact hfixed
    rw [hanswered]
    change Decided k ((ProposalStore.get env id).exec t₁.proposals).2
    rw [hreads]
    exact expireStale_settles hsweep hover hp hages

/-- What is answered with success to `proposal.approve` was pending before. -/
theorem pending_of_approve {t : Tunnel} {params : Obj} {answer : Json}
    (hkey : (Obj.get params "proposal_id").key? = some k)
    (hanswer : ((handle env .proposalApprove params).exec t).1 = .ok answer) : ¬ Decided k t.proposals := by
  obtain ⟨t', hexec⟩ : ∃ t', (handle env .proposalApprove params).exec t = (.ok answer, t') :=
    ⟨_, Prod.ext hanswer rfl⟩
  obtain ⟨id, t₁, hid, hrest⟩ := Prog.exec_bind_eq_ok hexec
  obtain ⟨rfl, rfl⟩ : id = Obj.get params "proposal_id" ∧ t₁ = t := by
    unfold requireId at hid
    split at hid <;> cases hid
    exact ⟨rfl, rfl⟩
  obtain ⟨p', t₂, hset, _⟩ := Prog.exec_bind_eq_ok hrest
  rw [Prog.exec_mapError_eq_ok, exec_onProposals, Prod.mk.injEq] at hset
  rintro ⟨p, hp, hnot⟩
  rcases setStatus_cases env "proposal_id" "unknown proposal_id: %s" (proposalTransition env .approved)
    (Obj.get params "proposal_id") t₁.proposals with ⟨e, hraised⟩ | ⟨k', q, q', writes, hkey', hq, htr, _⟩
  · have hraised' : ((ProposalStore.approve env (Obj.get params "proposal_id")).exec t₁.proposals).1 = .error e := by
      rw [ProposalStore.approve, ProposalStore.setStatus, hraised]
    rw [hraised'] at hset
    cases hset.1
  · obtain rfl : k = k' := Option.some.inj (hkey.symm.trans hkey')
    obtain rfl : p = q := Option.some.inj (hp.symm.trans hq)
    obtain ⟨a, hat, hmem⟩ := proposalTransition_source htr
    cases a <;> simp [ProposalStatus.transitions] at hmem
    exact hnot hat

end Sweeping

section Runs

variable {h : List (Entry System Input (Except PyExc Json))} {s : System} {k : Key} {c : ℚ}

/-- A stored proposal goes on telling its age from the same time. -/
theorem agesFrom_step (i : Input) (h : ∃ p, s.tunnel.proposals.records.get? k = some p ∧ AgesFrom c p) :
    ∃ p, (daemon.step i s).2.tunnel.proposals.records.get? k = some p ∧ AgesFrom c p := by
  obtain ⟨p, hp, hages⟩ := h
  obtain ⟨p', hp', hpath⟩ := Evolves.advanced (step_law i s).proposals hp
  exact ⟨p', hp', hages.path hpath⟩

/-- A proposal that is created ages from that time. -/
theorem CreatesAt.agesFrom {e : Entry System Input (Except PyExc Json)} (hfire : e = daemon.fire e.before e.input)
    (h : CreatesAt k c e) : ∃ p, e.after.tunnel.proposals.records.get? k = some p ∧ AgesFrom c p := by
  obtain ⟨env, params, data, hinput, rfl, hdata, hnone, hfree, hstored⟩ := h
  obtain ⟨p, hp⟩ := Option.isSome_iff_exists.mp hstored
  rw [hinput] at hfire
  have hafter : e.after.tunnel.proposals.records =
      ((mProposalCreate env params).exec e.before.tunnel).2.proposals.records := by
    rw [hfire]
    rfl
  refine ⟨p, hp, ?_⟩
  rcases mProposalCreate_records env params e.before.tunnel with hsame | ⟨k', q, ⟨data', hdata', _, rfl, _⟩, hinsert⟩
  · rw [hafter, hsame, hfree] at hp
    cases hp
  · obtain rfl : data = data' := Json.obj.inj (hdata.symm.trans hdata')
    rw [hafter, hinsert, Dict.get?_insert] at hp
    split at hp
    · obtain rfl := Option.some.inj hp
      exact agesFrom_makeProposal hnone
    · rw [hfree] at hp
      cases hp

/-- Along every run: a proposal whose approval succeeded was within the time limit at every list and get
request that was answered between its creation and its approval. -/
theorem approved_within_limit (hrun : Run daemon (fun _ _ => True) h s)
    {h₁ h₂ h₃ h₄ : List (Entry System Input (Except PyExc Json))}
    {created looked approved : Entry System Input (Except PyExc Json)} {env : Env}
    (hh : h = h₁ ++ created :: h₂ ++ looked :: h₃ ++ approved :: h₄)
    (hcreated : CreatesAt k c created) (hlooked : AnswersLookup env looked) (happroved : Approves k approved) :
    ¬ env.Overdue c := by
  intro hover
  obtain ⟨hbefore, _, hfire⟩ := hrun.prior hh
  obtain ⟨hmiddle, _, hfire'⟩ := hbefore.prior rfl
  obtain ⟨_, _, hfire''⟩ := hmiddle.prior rfl
  obtain ⟨p, hp, hages⟩ := Run.persists (P := fun s => ∃ p, s.tunnel.proposals.records.get? k = some p ∧ AgesFrom c p)
    (fun _ i _ => agesFrom_step i) hmiddle rfl (hcreated.agesFrom hfire'')
  obtain ⟨method, params, answer, hinput, hmethod, hanswer⟩ := hlooked
  rw [hinput] at hfire'
  have hsettled : Decided k looked.after.tunnel.proposals := by
    rw [hfire'] at hanswer ⊢
    exact lookup_settles hmethod hanswer hover hp hages
  have hstill : Decided k approved.before.tunnel.proposals :=
    Run.persists (P := fun s => Decided k s.tunnel.proposals)
      (fun s i _ h => h.evolves (step_law i s).proposals) hbefore rfl hsettled
  obtain ⟨env', params', answer', hinput', hkey, hanswer'⟩ := happroved
  rw [hinput'] at hfire
  rw [hfire] at hanswer'
  exact pending_of_approve hkey hanswer' hstill

end Runs

/-- What returns has a value. -/
theorem Except.exists_of_isOk {ε α : Type} {r : Except ε α} (h : r.isOk = true) : ∃ a, r = .ok a := by
  cases r with
  | ok a => exact ⟨a, rfl⟩
  | error e => cases h

/-- The sample surroundings at a time, with a limit of 300 seconds. -/
def Env.limited (now : ℚ) : Env := { Env.sample with now := now, proposalTtl := 300 }

/-- The daemon after `p_1` was created at time zero, and listed after a minute. -/
def sampleLooked : System :=
  (daemon.step (.request (Env.limited 60) .proposalList [])
    (daemon.step (.request (Env.limited 0) .proposalCreate [("proposal", .obj sampleProposal)]) sampleStart).2).2

/-- A proposal that is approved in time is not overdue. -/
theorem approved_within_limit_sample : ¬ (Env.limited 60).Overdue 0 := by
  have hrun := Run.append_trace (run_sampleStart fun _ _ => True)
    [.request (Env.limited 0) .proposalCreate [("proposal", .obj sampleProposal)],
      .request (Env.limited 60) .proposalList [], .request (Env.limited 400) .proposalApprove sampleProposal]
    fun _ _ => trivial
  have hlisted : (daemon.step (.request (Env.limited 60) .proposalList [])
    (daemon.step (.request (Env.limited 0) .proposalCreate [("proposal", .obj sampleProposal)]) sampleStart).2).1.isOk =
      true := by decide +kernel
  have happroved : (daemon.step (.request (Env.limited 400) .proposalApprove sampleProposal) sampleLooked).1.isOk =
      true := by decide +kernel
  obtain ⟨_, hlisted⟩ := Except.exists_of_isOk hlisted
  obtain ⟨_, happroved⟩ := Except.exists_of_isOk happroved
  have hcreated : CreatesAt (.str "p_1") 0
      (daemon.fire sampleStart (.request (Env.limited 0) .proposalCreate [("proposal", .obj sampleProposal)])) :=
    ⟨_, _, sampleProposal, rfl, rfl, rfl, rfl, rfl, rfl⟩
  have hsteps : ∀ created looked approved : Entry System Input (Except PyExc Json),
      [created, looked, approved] = [] ++ created :: [] ++ looked :: [] ++ approved :: [] := fun _ _ _ => rfl
  refine approved_within_limit hrun (hsteps _ _ _) hcreated ?_ ?_
  · exact ⟨_, _, _, rfl, .inl rfl, hlisted⟩
  · exact ⟨_, _, _, rfl, rfl, happroved⟩

/-- With no list or get request in between, a proposal is approved long after its time limit. -/
theorem approved_too_late : ∃ h s e, Run daemon (fun _ _ => True) h s ∧ e ∈ h ∧ Approves (.str "p_1") e ∧
    e.input = .request (Env.limited 1000) .proposalApprove sampleProposal ∧
    (∃ e ∈ h, CreatesAt (.str "p_1") 0 e) ∧ (Env.limited 1000).Overdue 0 := by
  refine ⟨_, _, _, Run.append_trace (run_sampleStart fun _ _ => True)
    [.request (Env.limited 0) .proposalCreate [("proposal", .obj sampleProposal)],
      .request (Env.limited 1000) .proposalApprove sampleProposal] fun _ _ => trivial,
    List.mem_cons_of_mem _ List.mem_cons_self, ?_, rfl, ⟨_, List.mem_cons_self, ?_⟩, ?_⟩
  · exact ⟨_, _, _, rfl, rfl, rfl⟩
  · exact ⟨_, _, sampleProposal, rfl, rfl, rfl, rfl, rfl, rfl⟩
  · rw [Env.overdue_iff rfl rfl]
    decide +kernel

end Tunnel

end VirtuosoFlow
