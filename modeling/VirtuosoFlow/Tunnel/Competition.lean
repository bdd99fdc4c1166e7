import VirtuosoFlow.Tunnel.Requests
import VirtuosoFlow.Tunnel.Shelf

/-!
# Requests that compete for a proposal

`proposal.approve`, `reject`, `mark_applied` and `mark_failed` each look a proposal up and replace it
under the lock of the store; its file, the event and the answer come after that. The sweep expires
under the same lock. Here any number of such requests and sweeps interleave between these steps.
-/

namespace VirtuosoFlow.Tunnel

open Base Relation

/-- The requests that move one proposal. -/
inductive Verdict where
  | approve | reject | markApplied | markFailed
  deriving DecidableEq

namespace Verdict

/-- The request of a verdict. -/
def method : Verdict → Method
  | .approve => .proposalApprove
  | .reject => .proposalReject
  | .markApplied => .proposalMarkApplied
  | .markFailed => .proposalMarkFailed

/-- The status that a verdict leads to. -/
def target : Verdict → ProposalStatus
  | .approve => .approved
  | .reject => .rejected
  | .markApplied => .applied
  | .markFailed => .failed

/-- The event that announces a verdict. -/
def event : Verdict → Option String
  | .approve => some "proposal.approved"
  | .reject => some "proposal.rejected"
  | _ => none

/-- These two compete with the sweep for a pending proposal. -/
def decides : Verdict → Bool
  | .approve => true
  | .reject => true
  | _ => false

/-- The part of `_set_status` under the lock. -/
def locked (env : Env) (v : Verdict) (id : Json) : Prog PyExc Tunnel Obj :=
  (onProposals (lockedSet "unknown proposal_id: %s" (proposalTransition env v.target) id)).mapError lookupErrorAsRpc

/-- The file, the event and the answer. -/
def conclude (env : Env) (v : Verdict) (id : Json) (p : Obj) : Prog PyExc Tunnel Json := do
  (onProposals (persist env "proposal_id" p)).mapError lookupErrorAsRpc
  proposalMoved env v.event id p

/-- With nobody in between, the parts of a request are its handler. -/
theorem handle_eq (env : Env) (v : Verdict) (params : Obj) (t : Tunnel) :
    (handle env v.method params).exec t =
      (do
        let id ← requireId "proposal_id" params
        let p ← v.locked env id
        v.conclude env id p : Prog PyExc Tunnel Json).exec t := by
  have hparts : ∀ id, ((onProposals (ProposalStore.setStatus env v.target id)).mapError lookupErrorAsRpc >>=
      proposalMoved env v.event id).exec t =
        (do let p ← v.locked env id; v.conclude env id p : Prog PyExc Tunnel Json).exec t := by
    intro id
    have hlocked := @setStatus_eq_locked env "proposal_id" "unknown proposal_id: %s"
      (proposalTransition env v.target) id t.proposals
    simp only [Prog.exec_bind, locked, conclude, Prog.exec_mapError, exec_onProposals, ProposalStore.setStatus, hlocked]
    cases (lockedSet "unknown proposal_id: %s" (proposalTransition env v.target) id).exec t.proposals with
    | mk r st =>
      cases r with
      | error e => rfl
      | ok p =>
        simp only [Prog.exec_pure]
        cases (persist env "proposal_id" p).exec st with
        | mk r st => cases r <;> rfl
  have hhandler : handle env v.method params =
      setProposal env (ProposalStore.setStatus env v.target) v.event params := by
    cases v <;> rfl
  rw [hhandler, setProposal, Prog.exec_bind, Prog.exec_bind]
  cases hid : (requireId "proposal_id" params).exec t with
  | mk r t' =>
    have hreads : t' = t := by
      unfold requireId at hid
      split at hid <;> exact (congrArg Prod.snd hid).symm
    subst hreads
    cases r with
    | error e => rfl
    | ok id => exact hparts id

end Verdict

/-- How far a request has come: to the lock, past it with the record it made, or to its answer. -/
inductive Stage where
  | asking
  | moved (p : Obj)
  | answered (out : Except PyExc Json)

/-- The stage after the lock. -/
def Stage.ofLocked : Except PyExc Obj → Stage
  | .ok p => .moved p
  | .error e => .answered (.error e)

/-- A request with its `proposal_id`. -/
structure Rival where
  verdict : Verdict
  id : Json
  stage : Stage

/-- The tunnel and the requests that came in so far. -/
structure Contest where
  tunnel : Tunnel
  rivals : List Rival

/-- A request comes in, takes the lock or goes on to its answer, or a sweep takes the lock. -/
inductive Contest.Input where
  | arrive (verdict : Verdict) (params : Obj)
  | lock (env : Env) (i : ℕ)
  | finish (env : Env) (i : ℕ)
  | sweep (env : Env)

namespace Contest

/-- A request that came in, refused if it names no proposal. -/
def arrived (verdict : Verdict) (params : Obj) (t : Tunnel) : Rival where
  verdict := verdict
  id := Obj.get params "proposal_id"
  stage :=
    match ((requireId "proposal_id" params).exec t).1 with
    | .ok _ => .asking
    | .error e => .answered (.error e)

/-- A verdict arrives, is decided under the lock, or is answered; and sweeps come in between. -/
def step : Input → Contest → Unit × Contest
  | .arrive verdict params, s => ((), ⟨s.tunnel, s.rivals ++ [arrived verdict params s.tunnel]⟩)
  | .lock env i, s =>
    match s.rivals[i]? with
    | some ⟨verdict, id, .asking⟩ =>
      let out := (verdict.locked env id).exec s.tunnel
      ((), ⟨out.2, s.rivals.set i ⟨verdict, id, Stage.ofLocked out.1⟩⟩)
    | _ => ((), s)
  | .finish env i, s =>
    match s.rivals[i]? with
    | some ⟨verdict, id, .moved p⟩ =>
      let out := (verdict.conclude env id p).exec s.tunnel
      ((), ⟨out.2, s.rivals.set i ⟨verdict, id, .answered out.1⟩⟩)
    | _ => ((), s)
  | .sweep env, s => ((), ⟨((onProposals (lockedExpire env)).exec s.tunnel).2, s.rivals⟩)

end Contest

/-- The contests that begin with these stores, before any request came in. -/
def contest (t₀ : Tunnel) : Machine Contest Contest.Input Unit where
  init s := s = ⟨t₀, []⟩
  step := Contest.step

/-- The record under a key. -/
def Contest.record (s : Contest) (k : Key) : Option Obj := s.tunnel.proposals.records.get? k

/-- The proposal under a key is stored in this status. -/
def Contest.HasStatus (s : Contest) (k : Key) (a : ProposalStatus) : Prop :=
  ∃ p, s.record k = some p ∧ proposalLifecycle.At p a

/-- A request that got past the lock. -/
def Rival.Past (r : Rival) : Prop :=
  (∃ p, r.stage = .moved p) ∨ ∃ out, r.stage = .answered (.ok out)

/-- The `i`-th request takes the lock and moves its proposal. -/
def Succeeds (i : ℕ) (e : Entry Contest Contest.Input Unit) : Prop :=
  ∃ env r p, e.input = .lock env i ∧ e.before.rivals[i]? = some r ∧ r.stage = .asking ∧
    e.after.rivals[i]? = some { r with stage := .moved p }

/-- An approve, reject or expire step that succeeds for the proposal under a key. -/
def Decides (k : Key) (e : Entry Contest Contest.Input Unit) : Prop :=
  (∃ i r, Succeeds i e ∧ e.before.rivals[i]? = some r ∧ r.verdict.decides = true ∧ r.id.key? = some k) ∨
    (∃ env, e.input = .sweep env) ∧ e.after.record k ≠ e.before.record k

/-- The statuses that a proposal takes along a history, from the first to the last: in every step it
stays as it is, or moves along an edge of `TRANSITIONS`. -/
inductive StatusPath (k : Key) :
    ProposalStatus → List (Entry Contest Contest.Input Unit) → ProposalStatus → Prop
  | start {a : ProposalStatus} : StatusPath k a [] a
  | stays {a b : ProposalStatus} {h : List (Entry Contest Contest.Input Unit)}
      {e : Entry Contest Contest.Input Unit} : StatusPath k a h b → e.after.record k = e.before.record k →
      e.after.HasStatus k b → StatusPath k a (h ++ [e]) b
  | moves {a b c : ProposalStatus} {h : List (Entry Contest Contest.Input Unit)}
      {e : Entry Contest Contest.Input Unit} : StatusPath k a h b → e.before.HasStatus k b →
      c ∈ b.transitions → e.after.HasStatus k c → StatusPath k a (h ++ [e]) c

section Steps

variable {env : Env} {v : Verdict} {id : Json} {k : Key} {a : ProposalStatus} {s : Contest} {t : Tunnel} {st : Store}

/-- What the locked part can do: raise and change nothing, or replace the record of its id along an edge. -/
theorem locked_cases (env : Env) (v : Verdict) (id : Json) (t : Tunnel) :
    (∃ e, (v.locked env id).exec t = (.error e, t)) ∨
    ∃ k p p', id.key? = some k ∧ t.proposals.records.get? k = some p ∧ proposalTransition env v.target p = .ok p' ∧
      (v.locked env id).exec t =
        (.ok p', { t with proposals := { t.proposals with records := t.proposals.records.insert k p' } }) := by
  unfold Verdict.locked
  rw [Prog.exec_mapError, exec_onProposals]
  cases hkey : id.key? with
  | none => exact .inl ⟨_, by simp [lockedSet, Prog.exec_bind, hashKey, hkey]; rfl⟩
  | some k =>
    cases hp : t.proposals.records.get? k with
    | none => exact .inl ⟨_, by simp [lockedSet, Prog.exec_bind, hashKey, hkey, hp]; rfl⟩
    | some p =>
      cases htr : proposalTransition env v.target p with
      | error e => exact .inl ⟨_, by simp [lockedSet, Prog.exec_bind, hashKey, hkey, hp, htr]; rfl⟩
      | ok p' => exact .inr ⟨k, p, p', rfl, hp, htr, by simp [lockedSet, Prog.exec_bind, hashKey, hkey, hp, htr]⟩

/-- After the lock the records stay as they are. -/
theorem conclude_fixes (env : Env) (v : Verdict) (id : Json) (p : Obj) :
    Prog.Keeps (Prog.Fixes fun t : Tunnel => t.proposals.records) (v.conclude env id p) := by
  have hpersist : Prog.Keeps (Prog.Fixes fun t : Tunnel => t.proposals.records)
      (onProposals (persist env "proposal_id" p)) := .zoom (persist_fixes env "proposal_id" p) fun _ _ h => h
  refine .bind (.mapError hpersist) fun _ => ?_
  unfold proposalMoved announce
  cases v.event with
  | none => exact .bind (.pure _) fun _ => .pure _
  | some etype => exact .bind (fun _ => rfl) fun _ => .pure _

/-- The sweep leaves a record as it is, or expires it. -/
theorem lockedExpire_record (env : Env) {p : Obj} (hp : st.records.get? k = some p) :
    ∃ p', ((lockedExpire env).exec st).2.records.get? k = some p' ∧
      (p' = p ∨ proposalNext [.expired] p p') := by
  have hevolves : Store.Evolves (fun _ _ => False) (proposalNext [.expired]) st ((lockedExpire env).exec st).2 := by
    unfold lockedExpire
    split
    · exact Std.Refl.refl st
    · rw [Prog.exec_bind_ok (Prog.exec_get st)]
      exact ProposalStore.expireEntries_evolves (by simp) st _ st.records.nodup fun e he => Dict.mem_entries_iff.mp he
  obtain ⟨p', hp', hpath⟩ := Evolves.advanced hevolves hp
  exact ⟨p', hp', Lifecycle.step_of_steps (by decide) hpath⟩

/-- The record a step leaves: the same, or one that moved along an edge. -/
theorem step_record {p : Obj} (input : Contest.Input) (hp : s.record k = some p) :
    ∃ p', (Contest.step input s).2.record k = some p' ∧ (p' = p ∨ ∃ b, proposalNext [b] p p') := by
  have hsame : ∃ p', s.record k = some p' ∧ (p' = p ∨ ∃ b, proposalNext [b] p p') := ⟨p, hp, .inl rfl⟩
  cases input with
  | arrive verdict params => exact hsame
  | lock env i =>
    cases hr : s.rivals[i]? with
    | none => simpa only [Contest.step, hr] using hsame
    | some r =>
      obtain ⟨v, id, stage⟩ := r
      cases stage with
      | moved _ => simpa only [Contest.step, hr] using hsame
      | answered _ => simpa only [Contest.step, hr] using hsame
      | asking =>
        simp only [Contest.step, hr, Contest.record]
        rcases locked_cases env v id s.tunnel with ⟨e, hexec⟩ | ⟨k', q, q', _, hq, htr, hexec⟩
        · rw [hexec]
          exact hsame
        · rw [hexec]
          by_cases hk : k = k'
          · subst hk
            obtain rfl : p = q := Option.some.inj (hp.symm.trans hq)
            refine ⟨q', Dict.get?_insert_self _ _ _, .inr ⟨v.target, ?_⟩⟩
            exact proposalNext_of_transition (List.mem_singleton.mpr rfl) htr
          · exact ⟨p, (Dict.get?_insert_ne _ hk _).trans hp, .inl rfl⟩
  | finish env i =>
    cases hr : s.rivals[i]? with
    | none => simpa only [Contest.step, hr] using hsame
    | some r =>
      obtain ⟨v, id, stage⟩ := r
      cases stage with
      | asking => simpa only [Contest.step, hr] using hsame
      | answered _ => simpa only [Contest.step, hr] using hsame
      | moved q =>
        simp only [Contest.step, hr, Contest.record]
        have hfixes : ((v.conclude env id q).exec s.tunnel).2.proposals.records = s.tunnel.proposals.records :=
          conclude_fixes env v id q s.tunnel
        rw [hfixes]
        exact hsame
  | sweep env =>
    obtain ⟨p', hp', hnext⟩ := lockedExpire_record env hp
    exact ⟨p', hp', hnext.imp_right fun h => ⟨.expired, h⟩⟩

/-- A step that decides finds the proposal pending, and leaves it in another status. -/
theorem decides_pending {input : Contest.Input} (h : Decides k ((contest t).fire s input))
    (hstored : (s.record k).isSome = true) :
    s.HasStatus k .pending ∧ ∃ b, b ≠ .pending ∧ (Contest.step input s).2.HasStatus k b := by
  obtain ⟨p, hp⟩ := Option.isSome_iff_exists.mp hstored
  rcases h with ⟨i, r, ⟨env, r', q, hinput, hr', hasking, hafter⟩, hr, hdecides, hkey⟩ | ⟨⟨env, hinput⟩, hchanged⟩
  · obtain rfl : r' = r := Option.some.inj (hr'.symm.trans hr)
    obtain ⟨v, id, stage⟩ := r'
    have hask : stage = .asking := hasking
    subst hask
    change input = _ at hinput
    subst hinput
    have hrival : s.rivals[i]? = some ⟨v, id, .asking⟩ := hr
    have hlt : i < s.rivals.length := (List.getElem?_eq_some_iff.mp hrival).1
    simp only [Machine.fire, contest, Contest.step, hrival] at hafter ⊢
    rcases locked_cases env v id s.tunnel with ⟨e, hexec⟩ | ⟨k', p₁, p', hkey', hp₁, htr, hexec⟩
    · simp [hexec, hlt, Stage.ofLocked] at hafter
    · obtain rfl : k = k' := Option.some.inj (hkey.symm.trans hkey')
      obtain rfl : p = p₁ := Option.some.inj (hp.symm.trans hp₁)
      have hnext : proposalNext [v.target] p p' := proposalNext_of_transition (List.mem_singleton.mpr rfl) htr
      obtain ⟨a, b, hat, hb, hedge, hat', _⟩ := hnext
      obtain rfl := List.mem_singleton.mp hb
      have hfrom : ∀ w : Verdict, w.decides = true → ∀ a : ProposalStatus,
          w.target ∈ proposalLifecycle.transitions a → a = .pending ∧ w.target ≠ .pending := by
        intro w hw a hedge
        cases w <;> cases a <;> simp_all [Verdict.decides, Verdict.target, proposalLifecycle,
          ProposalStatus.transitions]
      obtain ⟨rfl, hne⟩ := hfrom v hdecides a hedge
      refine ⟨⟨p, hp, hat⟩, v.target, hne, p', ?_, hat'⟩
      simp only [hexec, Contest.record]
      exact Dict.get?_insert_self _ _ _
  · change input = _ at hinput
    subst hinput
    obtain ⟨p', hp', hnext⟩ := lockedExpire_record env hp
    have hrecord : (Contest.step (.sweep env) s).2.record k = some p' := hp'
    rcases hnext with rfl | ⟨a, b, hat, hb, hedge, hat', _⟩
    · exact absurd (hrecord.trans hp.symm) hchanged
    · obtain rfl := List.mem_singleton.mp hb
      have ha : a = .pending := by
        cases a <;> simp_all [proposalLifecycle, ProposalStatus.transitions]
      subst ha
      exact ⟨⟨p, hp, hat⟩, .expired, by decide, p', hrecord, hat'⟩

/-- A refused request leaves everything as it was, and is answered with an error. -/
theorem lock_refused {i : ℕ} {r : Rival} (hr : s.rivals[i]? = some r) (hasking : r.stage = .asking)
    (hnot : ¬ Succeeds i ((contest t).fire s (.lock env i))) :
    (Contest.step (.lock env i) s).2.tunnel = s.tunnel ∧
      ∃ e, (Contest.step (.lock env i) s).2.rivals[i]? = some { r with stage := .answered (.error e) } := by
  obtain ⟨v, id, stage⟩ := r
  have hask : stage = .asking := hasking
  subst hask
  have hlt : i < s.rivals.length := (List.getElem?_eq_some_iff.mp hr).1
  unfold Succeeds at hnot
  simp only [Machine.fire, contest, Contest.step, hr] at hnot ⊢
  rcases locked_cases env v id s.tunnel with ⟨e, hexec⟩ | ⟨k', p₁, p', _, _, _, hexec⟩
  · simp only [hexec]
    exact ⟨trivial, e, by simp [hlt, Stage.ofLocked]⟩
  · refine absurd ⟨env, ⟨v, id, .asking⟩, p', rfl, rfl, rfl, ?_⟩ hnot
    simp [hexec, hlt, Stage.ofLocked]

/-- A request gets past the lock by taking it with success. -/
theorem past_step {i : ℕ} {r : Rival} {input : Contest.Input}
    (hafter : (Contest.step input s).2.rivals[i]? = some r) (hpast : r.Past) :
    (∃ r', s.rivals[i]? = some r' ∧ r'.Past) ∨ Succeeds i ((contest t).fire s input) := by
  cases input with
  | arrive verdict params =>
    simp only [Contest.step, List.getElem?_append] at hafter
    split at hafter
    · exact .inl ⟨r, hafter, hpast⟩
    · obtain ⟨_, hr⟩ := List.getElem?_eq_some_iff.mp hafter
      have hnew : Contest.arrived verdict params s.tunnel = r := by simpa using hr
      subst hnew
      unfold Rival.Past Contest.arrived at hpast
      dsimp only at hpast
      split at hpast <;> simp at hpast
  | lock env j =>
    cases hr : s.rivals[j]? with
    | none => exact .inl ⟨r, by simpa only [Contest.step, hr] using hafter, hpast⟩
    | some r₀ =>
      obtain ⟨v, id, stage⟩ := r₀
      cases stage with
      | moved _ => exact .inl ⟨r, by simpa only [Contest.step, hr] using hafter, hpast⟩
      | answered _ => exact .inl ⟨r, by simpa only [Contest.step, hr] using hafter, hpast⟩
      | asking =>
        have hlt : j < s.rivals.length := (List.getElem?_eq_some_iff.mp hr).1
        by_cases hij : i = j
        · subst hij
          by_cases hwon : Succeeds i ((contest t).fire s (.lock env i))
          · exact .inr hwon
          · simp only [Contest.step, hr, List.getElem?_set_self hlt, Option.some.injEq] at hafter
            subst hafter
            rcases locked_cases env v id s.tunnel with ⟨e, hexec⟩ | ⟨k', q, q', _, _, _, hexec⟩
            · rw [hexec] at hpast
              simp [Rival.Past, Stage.ofLocked] at hpast
            · refine absurd ⟨env, ⟨v, id, .asking⟩, q', rfl, hr, rfl, ?_⟩ hwon
              simp only [Machine.fire, contest, Contest.step, hr]
              simp [hexec, hlt, Stage.ofLocked]
        · refine .inl ⟨r, ?_, hpast⟩
          simpa only [Contest.step, hr, List.getElem?_set_ne (Ne.symm hij)] using hafter
  | finish env j =>
    cases hr : s.rivals[j]? with
    | none => exact .inl ⟨r, by simpa only [Contest.step, hr] using hafter, hpast⟩
    | some r₀ =>
      obtain ⟨v, id, stage⟩ := r₀
      cases stage with
      | asking => exact .inl ⟨r, by simpa only [Contest.step, hr] using hafter, hpast⟩
      | answered _ => exact .inl ⟨r, by simpa only [Contest.step, hr] using hafter, hpast⟩
      | moved q =>
        by_cases hij : i = j
        · subst hij
          exact .inl ⟨_, hr, .inl ⟨q, rfl⟩⟩
        · refine .inl ⟨r, ?_, hpast⟩
          simpa only [Contest.step, hr, List.getElem?_set_ne (Ne.symm hij)] using hafter
  | sweep env => exact .inl ⟨r, hafter, hpast⟩

end Steps

section Runs

variable {t₀ : Tunnel} {k : Key} {h : List (Entry Contest Contest.Input Unit)} {s : Contest}

/-- A proposal has one status. -/
theorem Contest.HasStatus.unique {a b : ProposalStatus} (ha : s.HasStatus k a) (hb : s.HasStatus k b) : a = b := by
  obtain ⟨p, hp, hat⟩ := ha
  obtain ⟨q, hq, hat'⟩ := hb
  obtain rfl : p = q := Option.some.inj (hp.symm.trans hq)
  exact hat.eq hat'

/-- Along every run the statuses of a pending proposal follow the edges, and as long as it is pending no
step decided it. -/
theorem statusPath_of_run (hpending : (Contest.mk t₀ []).HasStatus k .pending)
    (hrun : Run (contest t₀) (fun _ _ => True) h s) :
    ∃ b, StatusPath k .pending h b ∧ s.HasStatus k b ∧ (b = .pending → ∀ e ∈ h, ¬ Decides k e) := by
  induction hrun with
  | init hs =>
    obtain rfl : _ = Contest.mk t₀ [] := hs
    exact ⟨.pending, .start, hpending, by simp⟩
  | @step h s input _ _ ih =>
    obtain ⟨b, hpath, hstatus, hopen⟩ := ih
    obtain ⟨p, hp, hat⟩ := id hstatus
    have hdecides : Decides k ((contest t₀).fire s input) →
      b = .pending ∧ ¬ (Contest.step input s).2.HasStatus k .pending := by
      intro hdec
      obtain ⟨hbefore, c, hc, hafter⟩ := decides_pending hdec (by simp [hp])
      exact ⟨hstatus.unique hbefore, fun hstill => hc (hafter.unique hstill)⟩
    obtain ⟨p', hp', rfl | ⟨c, a, c', hat', hc, hedge, hnew, _⟩⟩ := step_record input hp
    · have hkeeps : (Contest.step input s).2.HasStatus k b := ⟨p', hp', hat⟩
      refine ⟨b, .stays hpath (hp'.trans hp.symm) hkeeps, hkeeps, fun hb e he => ?_⟩
      rcases List.mem_append.mp he with he | he
      · exact hopen hb e he
      · obtain rfl := List.mem_singleton.mp he
        intro hdec
        exact (hdecides hdec).2 (hb ▸ hkeeps)
    · obtain rfl := List.mem_singleton.mp hc
      obtain rfl : b = a := hstatus.unique ⟨p, hp, hat'⟩
      have hmoved : (Contest.step input s).2.HasStatus k c' := ⟨p', hp', hnew⟩
      exact ⟨c', .moves hpath hstatus hedge hmoved, hmoved,
        fun hc => absurd hc (ProposalStatus.ne_pending_of_edge hedge)⟩

/-- A request that got past the lock took it with success. -/
theorem succeeded_of_past {i : ℕ} {r : Rival} (hrun : Run (contest t₀) (fun _ _ => True) h s)
    (hr : s.rivals[i]? = some r) (hpast : r.Past) : ∃ e ∈ h, Succeeds i e := by
  induction hrun generalizing r with
  | init hs =>
    obtain rfl : _ = Contest.mk t₀ [] := hs
    simp at hr
  | @step h s input _ _ ih =>
    rcases past_step (t := t₀) hr hpast with ⟨r', hr', hpast'⟩ | hwon
    · obtain ⟨e, he, hsucc⟩ := ih hr' hpast'
      exact ⟨e, List.mem_append_left _ he, hsucc⟩
    · exact ⟨_, by simp, hwon⟩

/-- Of the steps that decide a pending proposal, one at most succeeds. -/
theorem decides_pairwise (hpending : (Contest.mk t₀ []).HasStatus k .pending)
    (hrun : Run (contest t₀) (fun _ _ => True) h s) :
    h.Pairwise fun e e' => ¬ (Decides k e ∧ Decides k e') := by
  induction hrun with
  | init => exact .nil
  | @step h s input hrun _ ih =>
    refine List.pairwise_append.mpr ⟨ih, List.pairwise_singleton _ _, fun e he e' he' ⟨hdec, hdec'⟩ => ?_⟩
    obtain rfl := List.mem_singleton.mp he'
    obtain ⟨b, _, hstatus, hopen⟩ := statusPath_of_run hpending hrun
    have hstored : (s.record k).isSome = true := by
      obtain ⟨p, hp, _⟩ := hstatus
      simp [hp]
    obtain ⟨hbefore, _⟩ := decides_pending hdec' hstored
    exact hopen (hstatus.unique hbefore) e he hdec

/-- However the requests for a pending proposal and the sweeps interleave: its statuses are a path of
`TRANSITIONS`, one at most of the steps that decide it succeeds, and a request that does not succeed
changes nothing and is answered with an error. -/
theorem rivals_settle (hpending : (Contest.mk t₀ []).HasStatus k .pending)
    (hrun : Run (contest t₀) (fun _ _ => True) h s) :
    (∃ b, StatusPath k .pending h b ∧ s.HasStatus k b) ∧
    h.Pairwise (fun e e' => ¬ (Decides k e ∧ Decides k e')) ∧
    (∀ e ∈ h, ∀ env i r, e.input = .lock env i → e.before.rivals[i]? = some r → r.stage = .asking →
      ¬ Succeeds i e → e.after.tunnel = e.before.tunnel ∧
        ∃ x, e.after.rivals[i]? = some { r with stage := .answered (.error x) }) ∧
    ∀ i r out, s.rivals[i]? = some r → r.stage = .answered out →
      (∃ e ∈ h, Succeeds i e) ∨ ∃ x, out = .error x := by
  refine ⟨?_, decides_pairwise hpending hrun, ?_, ?_⟩
  · obtain ⟨b, hpath, hstatus, _⟩ := statusPath_of_run hpending hrun
    exact ⟨b, hpath, hstatus⟩
  · intro e he env i r hinput hr hasking hnot
    obtain ⟨_, _, _, _, _, hfire⟩ := hrun.split_of_mem he
    rw [hinput] at hfire
    rw [hfire] at hnot ⊢
    exact lock_refused hr hasking hnot
  · intro i r out hr hanswered
    cases out with
    | error x => exact .inr ⟨x, rfl⟩
    | ok out => exact .inl (succeeded_of_past hrun hr (.inr ⟨out, hanswered⟩))

/-- An approve and a reject of `p_1` come in, the reject takes the lock first, a sweep runs in between. -/
def sampleRivalry : List Contest.Input :=
  [.arrive .approve sampleProposal, .arrive .reject sampleProposal, .lock .sample 1, .sweep .sample,
    .lock .sample 0, .finish .sample 1]

/-- Where the sample contest comes to. -/
def sampleSettled : Contest := (contest sampleCreated.tunnel).last ⟨sampleCreated.tunnel, []⟩ sampleRivalry

/-- Two verdicts on one proposal, at the same time. -/
theorem rivals_settle_sample :
    (∃ b, sampleSettled.HasStatus (.str "p_1") b) ∧
      ∀ i r out, sampleSettled.rivals[i]? = some r → r.stage = .answered out →
        (∃ e ∈ (contest sampleCreated.tunnel).trace ⟨sampleCreated.tunnel, []⟩ sampleRivalry, Succeeds i e) ∨
          ∃ x, out = .error x := by
  have hpending : (Contest.mk sampleCreated.tunnel []).HasStatus (.str "p_1") .pending :=
    ⟨_, sampleCreated_record, by rfl⟩
  have hrun : Run (contest sampleCreated.tunnel) (fun _ _ => True)
      ([] ++ (contest sampleCreated.tunnel).trace ⟨sampleCreated.tunnel, []⟩ sampleRivalry) sampleSettled :=
    Run.append_trace (.init rfl) sampleRivalry fun _ _ => trivial
  obtain ⟨⟨b, _, hstatus⟩, _, _, hanswered⟩ := rivals_settle hpending hrun
  exact ⟨⟨b, hstatus⟩, hanswered⟩

end Runs

end VirtuosoFlow.Tunnel
