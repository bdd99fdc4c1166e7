import VirtuosoFlow.Tunnel.Expiry

/-!
# Expiries and their events

`proposal.list` turns what its sweep expired into `proposal.expired` events. The sweep inside `list`,
the one of `proposal.get` and those of the lookups in the transaction handlers are not announced.
-/

namespace VirtuosoFlow.Tunnel

open Base Relation

/-- `_m_proposal_list`, which reads the clock twice: for the sweep it announces, and in `list`. -/
def mProposalListTwice (env later : Env) (params : Obj) : Prog PyExc Tunnel Json := do
  let expired ← onProposals (ProposalStore.expireStale env)
  emitExpired env expired
  let items ← onProposals (ProposalStore.list later (Obj.get params "status"))
  return .obj [("proposals", .arr (items.map .obj)), ("count", .int items.length)]

/-- With one reading of the clock this is the handler. -/
theorem mProposalListTwice_self (env : Env) : mProposalListTwice env env = mProposalList env := rfl

/-- The methods of the proposal and transaction families but for `proposal.list`. -/
def Method.announcesNothing : Method → Bool
  | .proposalCreate | .proposalGet | .proposalApprove | .proposalReject | .proposalMarkApplied
  | .proposalMarkFailed | .transactionCreate | .transactionList | .transactionGet | .transactionRollback
  | .transactionMarkRolledBack | .transactionMarkFailed => true
  | _ => false

/-- A request of the two families. -/
inductive Call where
  | list (env later : Env) (params : Obj)
  | other (env : Env) (method : Method) (params : Obj)

/-- The handler of a call. -/
def Call.handler : Call → Prog PyExc Tunnel Json
  | .list env later params => mProposalListTwice env later params
  | .other env method params => handle env method params

/-- The tunnel from a given state. -/
def announcer (t₀ : Tunnel) : Machine Tunnel Call (Except PyExc Json) where
  init t := t = t₀
  step i t := i.handler.exec t

/-- The line is a `proposal.expired` event of the proposal under `k`. -/
def tellsExpiry (k : Key) (line : Obj) : Bool :=
  match Obj.get line "payload" with
  | .obj payload => (Obj.get line "type").pyEq (.str "proposal.expired") &&
      decide ((Obj.get payload "proposal_id").key? = some k)
  | _ => false

/-- How many events of the log tell that the proposal under `k` expired. -/
def EventLog.expiries (k : Key) (log : EventLog) : ℕ := log.lines.countP (tellsExpiry k)

/-- The file of the log takes a line. -/
def Env.logs (env : Env) : Bool := env.dirsOk && env.writable "events.jsonl"

/-- The proposal under `k` becomes expired. -/
def Expires (k : Key) (t t' : Tunnel) : Prop :=
  (∃ p, t.proposals.records.get? k = some p ∧ ¬ proposalLifecycle.At p .expired) ∧
    ∃ p, t'.proposals.records.get? k = some p ∧ proposalLifecycle.At p .expired

/-- Every proposal is stored under its id. -/
def ProposalsKeyed (st : Store) : Prop :=
  ∀ k p, st.records.get? k = some p → (Obj.get p "proposal_id").key? = some k

namespace ProposalStore

/-- The record is past the limit. -/
def Stale (env : Env) (p : Obj) : Prop := 0 < env.proposalTtl ∧ isStale env p = .ok true

/-- No stale record comes before the first one whose age cannot be told. -/
def passesAll (env : Env) : List (Key × Obj) → Bool
  | [] => true
  | (_, p) :: rest =>
    match isStale env p with
    | .ok true => false
    | .ok false => passesAll env rest
    | .error _ => true

/-- The sweep expires nothing. -/
def SweepsNone (env : Env) (st : Store) : Prop :=
  0 < env.proposalTtl → passesAll env st.records.entries = true

end ProposalStore

/-- What a call expires, it announces: the sweep of `proposal.list` returns if it expires anything, the
log takes its events and no proposal passes its limit before the sweep inside `list`; every other sweep
expires nothing. -/
def Announces (t : Tunnel) : Call → Prop
  | .list env later _ =>
    (ProposalStore.SweepsNone env t.proposals ∨
      ProposalStore.SweepReturns env t.proposals ∧ env.logs = true) ∧
    ∀ k p, t.proposals.records.get? k = some p → ProposalStore.Stale later p → ProposalStore.Stale env p
  | .other env .proposalGet params =>
    (Obj.get params "proposal_id").truthy = true → ProposalStore.SweepsNone env t.proposals
  | .other env .transactionCreate params =>
    ∀ i u, StoresTransaction env params t i u → persistError env "transaction_id" u = none →
      (Obj.get u "proposal_id").truthy = true → ProposalStore.SweepsNone env t.proposals
  | .other env .transactionMarkRolledBack params =>
    ∀ i u u', (Obj.get params "transaction_id").key? = some i → t.transactions.records.get? i = some u →
      transactionTransition .rolledBack u = .ok u' → persistError env "transaction_id" u' = none →
      (Obj.get u' "proposal_id").truthy = true → ProposalStore.SweepsNone env t.proposals
  | .other _ method _ => method.announcesNothing = true

section Silence

variable {k : Key} {env : Env} {params : Obj} {log : EventLog}

/-- Events of other types announce no expiry. -/
theorem expiries_emit_other {etype : String} (h : etype ≠ "proposal.expired") (payload : Obj) :
    (log.emit env etype payload).expiries k = log.expiries k := by
  have hline : ∀ e : Obj, Obj.get e "type" = .str etype → tellsExpiry k e = false := by
    intro e he
    unfold tellsExpiry
    split
    · simp [he, Json.pyEq, h]
    · rfl
  unfold EventLog.expiries EventLog.emit
  dsimp only
  split
  · rw [List.countP_append, List.countP_singleton, hline _ rfl]
    rfl
  · rfl

/-- An expiry is announced for the proposal that it names. -/
theorem expiries_emit_expired (hlog : env.logs = true) (id : Json) :
    (log.emit env "proposal.expired" [("proposal_id", id)]).expiries k =
      log.expiries k + if id.key? = some k then 1 else 0 := by
  have htakes : (env.dirsOk && env.writable "events.jsonl") = true := hlog
  have hline : tellsExpiry k [("seq", .int (log.seq + 1)), ("ts", env.stamp), ("type", .str "proposal.expired"),
      ("payload", .obj [("proposal_id", id)])] = decide (id.key? = some k) := by rfl
  unfold EventLog.expiries EventLog.emit
  simp only [htakes, if_true, List.countP_append, List.countP_singleton, hline, decide_eq_true_eq]

/-- The handler announces no expiry. -/
abbrev Silent {α : Type} (k : Key) (m : Prog PyExc Tunnel α) : Prop :=
  Prog.Keeps (Prog.Fixes fun t : Tunnel => t.events.expiries k) m

/-- Emitting an event of another type is silent. -/
theorem emit_silent {etype : String} (h : etype ≠ "proposal.expired") (payload : Obj) :
    Silent k (emit env etype payload) := fun _ => expiries_emit_other h payload

/-- So is announcing one. -/
theorem announce_silent {event : Option String} (h : event ≠ some "proposal.expired") (payload : Obj) :
    Silent k (announce env event payload) := by
  cases event with
  | none => exact .pure _
  | some etype => exact emit_silent (fun heq => h (by rw [heq])) payload

/-- What touches proposals alone is silent. -/
theorem onProposals_silent {α : Type} (m : Prog PyExc Store α) : Silent k (onProposals m) := fun _ => rfl

/-- What touches transactions alone is silent. -/
theorem onTransactions_silent {α : Type} (m : Prog PyExc Store α) : Silent k (onTransactions m) := fun _ => rfl

/-- Asking for an id is silent. -/
theorem requireId_silent (field : String) : Silent k (requireId field params) := .ite (.pure _) (.throw _)

/-- Creating a proposal announces no expiry. -/
theorem mProposalCreate_silent : Silent k (mProposalCreate env params) := by
  unfold mProposalCreate
  split
  · refine .bind (.ofExcept _) fun _ => .bind (.mapError (onProposals_silent _)) fun p => ?_
    exact .bind (.ofExcept _) fun _ => .bind (.ofExcept _) fun _ =>
      .bind (emit_silent (by decide) _) fun _ => .pure _
  · exact .throw _

/-- Asking for one announces none. -/
theorem mProposalGet_silent : Silent k (mProposalGet env params) := by
  refine .bind (requireId_silent _) fun id => .bind (onProposals_silent _) fun p => ?_
  cases p with
  | none => exact .throw _
  | some p => exact .pure _

/-- Setting a status announces none, unless it is asked to. -/
theorem setProposal_silent {op : Json → Prog PyExc Store Obj} {event : Option String}
    (h : event ≠ some "proposal.expired") : Silent k (setProposal env op event params) :=
  .bind (requireId_silent _) fun _ => .bind (.mapError (onProposals_silent _)) fun _ =>
    .bind (announce_silent h _) fun _ => .pure _

/-- Creating a transaction announces none. -/
theorem mTransactionCreate_silent : Silent k (mTransactionCreate env params) := by
  unfold mTransactionCreate
  split
  · refine .bind (bindActor_reads _).keeps fun data => .bind (checkPermissions_reads _).keeps fun _ => ?_
    refine .bind (.ofExcept _) fun _ => .bind (.mapError (onTransactions_silent _)) fun txn => ?_
    refine .bind (onProposals_silent _) fun _ => .bind (.ofExcept _) fun _ => .bind (.ofExcept _) fun _ => ?_
    exact .bind (emit_silent (by decide) _) fun _ => .pure _
  · exact .throw _

/-- Finding one announces none. -/
theorem findTransaction_silent : Silent k (findTransaction params) := by
  refine .bind (requireId_silent _) fun id => .bind (onTransactions_silent _) fun t => ?_
  cases t with
  | none => exact .throw _
  | some t => exact .pure _

/-- Marking one as rolled back announces none. -/
theorem mTransactionMarkRolledBack_silent : Silent k (mTransactionMarkRolledBack env params) :=
  .bind (requireId_silent _) fun _ => .bind (.mapError (onTransactions_silent _)) fun _ =>
    .bind (onProposals_silent _) fun _ => .bind (emit_silent (by decide) _) fun _ => .pure _

/-- Only `proposal.list` announces expiries. -/
theorem handle_silent {method : Method} (h : method.announcesNothing = true) : Silent k (handle env method params) := by
  cases method <;> simp only [Method.announcesNothing, Bool.false_eq_true] at h
  case proposalCreate => exact mProposalCreate_silent
  case proposalGet => exact mProposalGet_silent
  case proposalApprove => exact setProposal_silent (by decide)
  case proposalReject => exact setProposal_silent (by decide)
  case proposalMarkApplied => exact setProposal_silent (by decide)
  case proposalMarkFailed => exact setProposal_silent (by decide)
  case transactionCreate => exact mTransactionCreate_silent
  case transactionList => exact .bind (onTransactions_silent _) fun _ => .pure _
  case transactionGet => exact .bind findTransaction_silent fun _ => .pure _
  case transactionRollback => exact .bind findTransaction_silent fun _ => .ite (.pure _) (.throw _)
  case transactionMarkRolledBack => exact mTransactionMarkRolledBack_silent
  case transactionMarkFailed =>
    exact .bind (requireId_silent _) fun _ => .bind (.mapError (onTransactions_silent _)) fun _ => .pure _

end Silence

namespace ProposalStore

variable {env : Env} {st st' : Store} {k : Key}

/-- A sweep that passes all proposals marks none. -/
theorem exec_expireEntries_none (st : Store) {l : List (Key × Obj)} (h : passesAll env l = true) :
    ∃ r, (expireEntries env l).exec st = (r, st) ∧ ∀ newly, r = .ok newly → newly = [] := by
  induction l with
  | nil => exact ⟨.ok [], rfl, by simp⟩
  | cons e l ih =>
    obtain ⟨key, p⟩ := e
    cases hstale : isStale env p with
    | error x =>
      rw [expireEntries, hstale, Prog.exec_bind_error (Prog.exec_ofExcept _ _)]
      exact ⟨.error x, rfl, by simp⟩
    | ok stale =>
      cases stale with
      | true => simp [passesAll, hstale] at h
      | false =>
        rw [exec_expireEntries_fresh st hstale]
        exact ih (by simpa [passesAll, hstale] using h)

/-- A sweep that expires nothing leaves the store as it is, and returns no id if it returns. -/
theorem exec_expireStale_none (h : SweepsNone env st) :
    ∃ r, (expireStale env).exec st = (r, st) ∧ ∀ ids, r = .ok ids → ids = [] := by
  unfold expireStale
  split
  · exact ⟨.ok [], rfl, by simp⟩
  · rename_i httl
    obtain ⟨r, hexec, hnone⟩ := exec_expireEntries_none st (h (by omega))
    rw [Prog.exec_bind_ok (Prog.exec_get st)]
    cases r with
    | error x =>
      rw [Prog.exec_bind_error hexec]
      exact ⟨.error x, rfl, by simp⟩
    | ok newly =>
      obtain rfl := hnone newly rfl
      rw [Prog.exec_bind_ok hexec]
      exact ⟨.ok [], rfl, by simp⟩

/-- Where no record is stale nothing is expired. -/
theorem sweepsNone_of_fresh (h : ∀ k p, st.records.get? k = some p → ¬ Stale env p) : SweepsNone env st := by
  intro httl
  have hfresh : ∀ e ∈ st.records.entries, isStale env e.2 ≠ .ok true := fun e he hstale =>
    h e.1 e.2 (Dict.mem_entries_iff.mp he) ⟨httl, hstale⟩
  generalize st.records.entries = l at hfresh
  induction l with
  | nil => rfl
  | cons e l ih =>
    obtain ⟨key, p⟩ := e
    have hp := hfresh (key, p) List.mem_cons_self
    have hrest := ih fun e he => hfresh e (List.mem_cons_of_mem _ he)
    unfold passesAll
    split
    · rename_i hstale
      exact absurd hstale hp
    · exact hrest
    · rfl

/-- A lookup after a sweep that expires nothing leaves the store as it is. -/
theorem exec_get_none (h : SweepsNone env st) (id : Json) : ((get env id).exec st).2 = st := by
  obtain ⟨r, hexec, _⟩ := exec_expireStale_none h
  unfold get
  cases r with
  | error x => rw [Prog.exec_bind_error hexec]
  | ok ids =>
    rw [Prog.exec_bind_ok hexec]
    exact getRecord_reads st

/-- Listing changes nothing where the sweep passes all proposals. -/
theorem exec_list_none (h : SweepsNone env st) (status : Json) : ((list env status).exec st).2 = st := by
  obtain ⟨r, hexec, _⟩ := exec_expireStale_none h
  unfold list
  cases r with
  | error x => rw [Prog.exec_bind_error hexec]
  | ok ids =>
    rw [Prog.exec_bind_ok hexec]
    exact listRecords_reads st

/-- How many of these ids name the proposal under `k`. -/
def named (k : Key) (ids : List Json) : ℕ := ids.countP fun id => decide (id.key? = some k)

/-- A loop that returned has the id of each stale record once, and no other. -/
theorem expireEntries_named {l : List (Key × Obj)} {newly : List Obj} {ids : List Json}
    (hnodup : (l.map Prod.fst).Nodup) (hkeyed : ∀ e ∈ l, (Obj.get e.2 "proposal_id").key? = some e.1)
    (h : (expireEntries env l).exec st = (.ok newly, st'))
    (hids : newly.mapM (fun u => getItem u "proposal_id") = .ok ids) :
    (∀ p, (k, p) ∈ l → isStale env p = .ok true → named k ids = 1) ∧
      ((∀ p, (k, p) ∈ l → isStale env p ≠ .ok true) → named k ids = 0) := by
  induction l generalizing st st' newly ids with
  | nil =>
    obtain rfl : newly = [] := by simpa [expireEntries] using (congrArg Prod.fst h).symm
    obtain rfl : ids = [] := by simpa [pure, Except.pure] using hids.symm
    simp [named]
  | cons e l ih =>
    obtain ⟨key, p⟩ := e
    rw [List.map_cons, List.nodup_cons] at hnodup
    have hrest := fun e he => hkeyed e (List.mem_cons_of_mem _ he)
    have hnotin : ∀ q, (key, q) ∉ l := fun q hq => hnodup.1 (List.mem_map.mpr ⟨(key, q), hq, rfl⟩)
    cases hstale : isStale env p with
    | error x =>
      rw [expireEntries, hstale, Prog.exec_bind_error (Prog.exec_ofExcept _ _)] at h
      cases h
    | ok stale =>
      cases stale with
      | false =>
        rw [exec_expireEntries_fresh st hstale] at h
        obtain ⟨hone, hzero⟩ := ih hnodup.2 hrest h hids
        constructor
        · intro q hq hold
          rcases List.mem_cons.mp hq with heq | hmem
          · obtain ⟨rfl, rfl⟩ := Prod.mk.inj heq
            rw [hstale] at hold
            cases hold
          · exact hone q hmem hold
        · exact fun hfresh => hzero fun q hq => hfresh q (List.mem_cons_of_mem _ hq)
      | true =>
        rw [exec_expireEntries_stale st hstale] at h
        obtain ⟨others, st₁, hloop, hlast⟩ := Prog.exec_bind_eq_ok h
        obtain rfl : markExpired env p :: others = newly := by simpa using congrArg Prod.fst hlast
        have hid : getItem (markExpired env p) "proposal_id" = getItem p "proposal_id" := by
          rw [getItem, getItem, lookup_id_markExpired]
        have hkey := hkeyed (key, p) List.mem_cons_self
        rw [List.mapM_cons, hid] at hids
        cases hlook : p.lookup "proposal_id" with
        | none =>
          rw [getItem, hlook] at hids
          cases hids
        | some v =>
          have hv : v.key? = some key := by simpa [Obj.get, Obj.getD, hlook] using hkey
          rw [getItem, hlook] at hids
          cases hothers : others.mapM (fun u => getItem u "proposal_id") with
          | error x =>
            rw [hothers] at hids
            cases hids
          | ok ids' =>
            rw [hothers] at hids
            obtain rfl : v :: ids' = ids := Except.ok.inj hids
            obtain ⟨hone, hzero⟩ := ih hnodup.2 hrest hloop hothers
            have hcount : named k (v :: ids') = named k ids' + if key = k then 1 else 0 := by
              simp [named, List.countP_cons, hv]
            rw [hcount]
            by_cases hk : key = k
            · subst hk
              have hnone := hzero fun q hq => absurd hq (hnotin q)
              exact ⟨fun _ _ _ => by simp [hnone], fun hfresh => absurd hstale (hfresh p List.mem_cons_self)⟩
            · refine ⟨fun q hq hold => ?_, fun hfresh => ?_⟩
              · rcases List.mem_cons.mp hq with heq | hmem
                · exact absurd (Prod.mk.inj heq).1.symm hk
                · simp [hone q hmem hold, hk]
              · simp [hzero fun q hq => hfresh q (List.mem_cons_of_mem _ hq), hk]

/-- What a sweep that returned did: each stale record is expired, and its id is returned once. -/
theorem expireStale_spec {ids : List Json} (hkeyed : ProposalsKeyed st)
    (h : (expireStale env).exec st = (.ok ids, st')) :
    (∀ k, st.records.get? k = none → st'.records.get? k = none ∧ named k ids = 0) ∧
      ∀ k p, st.records.get? k = some p →
        Stale env p ∧ st'.records.get? k = some (markExpired env p) ∧ named k ids = 1 ∨
          ¬ Stale env p ∧ st'.records.get? k = some p ∧ named k ids = 0 := by
  unfold expireStale at h
  split at h
  · rename_i httl
    obtain ⟨rfl, rfl⟩ : [] = ids ∧ st = st' := by simpa using h
    exact ⟨fun k hk => ⟨hk, rfl⟩, fun k p hp => .inr ⟨fun hold => by have := hold.1; omega, hp, rfl⟩⟩
  · rename_i httl
    rw [Prog.exec_bind_ok (Prog.exec_get st)] at h
    obtain ⟨newly, st₁, hloop, hrest⟩ := Prog.exec_bind_eq_ok h
    obtain ⟨_, st₂, hfiles, hread⟩ := Prog.exec_bind_eq_ok hrest
    rw [Prog.exec_ofExcept, Prod.mk.injEq] at hread
    obtain ⟨hids, rfl⟩ := hread
    have hfixes : st₂.records = st₁.records := by
      have hkept := persistAll_fixes env newly st₁
      rw [hfiles] at hkept
      exact hkept
    have hstored : ∀ e ∈ st.records.entries, st.records.get? e.1 = some e.2 := fun e he => Dict.mem_entries_iff.mp he
    obtain ⟨_, hothers, hentries, _⟩ := expireEntries_spec st.records.nodup hstored hloop
    have hnamed := fun k => expireEntries_named (k := k) st.records.nodup
      (fun e he => hkeyed e.1 e.2 (hstored e he)) hloop hids
    rw [hfixes]
    constructor
    · intro k hk
      have hfree : ∀ p, (k, p) ∉ st.records.entries := fun p hp => by
        rw [Dict.mem_entries_iff.mp hp] at hk
        cases hk
      refine ⟨?_, (hnamed k).2 fun p hp => absurd hp (hfree p)⟩
      rw [hothers k, hk]
      intro hmem
      obtain ⟨e, he, rfl⟩ := List.mem_map.mp hmem
      exact hfree e.2 he
    · intro k p hp
      have hentry : (k, p) ∈ st.records.entries := Dict.mem_entries_iff.mpr hp
      rcases hentries (k, p) hentry with ⟨hfresh, hget⟩ | ⟨hold, _, hget⟩
      · refine .inr ⟨fun hstale => ?_, hget, (hnamed k).2 fun q hq hold => ?_⟩
        · rw [hstale.2] at hfresh
          cases hfresh
        · obtain rfl : p = q := Option.some.inj (hp.symm.trans (Dict.mem_entries_iff.mp hq))
          rw [hold] at hfresh
          cases hfresh
      · exact .inl ⟨⟨by omega, hold⟩, hget, (hnamed k).1 p hentry hold⟩

end ProposalStore

/-- The step announces what it expires: one event of the proposal under `k` if it expires it, else none. -/
def Tallies (k : Key) (t t' : Tunnel) : Prop :=
  (Expires k t t' → t'.events.expiries k = t.events.expiries k + 1) ∧
    (¬ Expires k t t' → t'.events.expiries k = t.events.expiries k)

section Steps

variable {k : Key} {env later : Env} {params : Obj} {t t' : Tunnel}

/-- What a sweep has marked is announced, each once. -/
theorem emitExpired_tells (hlog : env.logs = true) (ids : List Json) (t : Tunnel) :
    ∃ t', (emitExpired env ids).exec t = (.ok (), t') ∧ t'.proposals = t.proposals ∧
      ∀ k, t'.events.expiries k = t.events.expiries k + ProposalStore.named k ids := by
  induction ids generalizing t with
  | nil => exact ⟨t, rfl, rfl, fun _ => rfl⟩
  | cons id ids ih =>
    obtain ⟨t', hexec, hproposals, hcount⟩ :=
      ih { t with events := t.events.emit env "proposal.expired" [("proposal_id", id)] }
    refine ⟨t', ?_, hproposals, fun k => ?_⟩
    · rw [emitExpired, Prog.exec_bind_ok (exec_emit t env _ _), hexec]
    · rw [hcount k]
      simp only [expiries_emit_expired hlog, ProposalStore.named, List.countP_cons, decide_eq_true_eq]
      omega

/-- A store that evolves without expiring lets no proposal become expired. -/
theorem not_expires_of_evolves {fresh : Key → Obj → Prop} {targets : List ProposalStatus}
    (h : Store.Evolves fresh (proposalNext targets) t.proposals t'.proposals) (hnot : .expired ∉ targets) :
    ¬ Expires k t t' := by
  rintro ⟨⟨p, hp, hbefore⟩, p', hp', hafter⟩
  obtain ⟨q, hq, hpath⟩ := Evolves.advanced h hp
  obtain rfl : q = p' := Option.some.inj (hq.symm.trans hp')
  rcases ReflTransGen.cases_tail hpath with rfl | ⟨_, _, a, b, _, hb, _, hat, _⟩
  · exact hbefore hafter
  · obtain rfl := hat.eq hafter
    exact hnot hb

/-- Nothing expires where the proposals stay as they are. -/
theorem not_expires_of_same (h : t'.proposals = t.proposals) : ¬ Expires k t t' := by
  rintro ⟨⟨p, hp, hbefore⟩, p', hp', hafter⟩
  rw [h, hp] at hp'
  obtain rfl := Option.some.inj hp'
  exact hbefore hafter

/-- A proposal that was marked has expired. -/
theorem at_expired_markExpired (env : Env) (p : Obj) :
    proposalLifecycle.At (ProposalStore.markExpired env p) .expired := by
  simp [Lifecycle.At, Lifecycle.statusOf, Obj.getD, ProposalStore.markExpired, proposalLifecycle,
    ProposalStatus.name]

/-- Linking a proposal where the sweep expires nothing moves it to its target or not at all. -/
theorem linkProposal_evolves {pid : Json} {expected new : ProposalStatus} {st : Store}
    (hnone : pid.truthy = true → ProposalStore.SweepsNone env st) :
    Store.Evolves (fun _ _ => False) (proposalNext [new]) st ((linkProposal env pid expected new).exec st).2 := by
  unfold linkProposal
  split
  · rename_i hpid
    have hsame := ProposalStore.exec_get_none (hnone hpid) pid
    rw [Prog.exec_bind]
    cases hget : (ProposalStore.get env pid).exec st with
    | mk r st₁ =>
      rw [hget] at hsame
      subst hsame
      cases r with
      | error x => exact Std.Refl.refl _
      | ok rec =>
        cases rec with
        | none => exact Std.Refl.refl _
        | some p =>
          have hset : Prog.Keeps (Store.Evolves (fun _ _ => False) (proposalNext [new]))
              ((ProposalStore.setStatus env new pid).suppress isLookupError) :=
            .suppress (ProposalStore.setStatus_keeps (by simp))
          exact Prog.Keeps.ite hset (.pure _) _
  · exact Std.Refl.refl _

/-- A call other than `proposal.list` that announces what it expires expires nothing. -/
theorem other_not_expires {method : Method} (hann : Announces t (.other env method params)) :
    ¬ Expires k t ((handle env method params).exec t).2 := by
  have hlaw := handle_keeps env method params t
  by_cases hlists : .expired ∈ method.law.proposalTargets
  · cases method <;> simp [Method.law] at hlists
    case proposalList => cases hann
    case proposalGet =>
      have hsame : ((mProposalGet env params).exec t).2.proposals = t.proposals := by
        unfold mProposalGet requireId
        by_cases hid : (Obj.get params "proposal_id").truthy = true
        · have hget := ProposalStore.exec_get_none (hann hid) (Obj.get params "proposal_id")
          rw [if_pos hid, Prog.exec_bind_ok (Prog.exec_pure _ _), Prog.exec_bind, exec_onProposals, hget]
          cases ((ProposalStore.get env (Obj.get params "proposal_id")).exec t.proposals).1 with
          | error x => rfl
          | ok rec => cases rec <;> rfl
        · rw [if_neg hid, Prog.exec_bind_error (Prog.exec_throw _ _)]
      exact not_expires_of_same hsame
    case transactionCreate =>
      rcases mTransactionCreate_cases env params t with ⟨_, hsame⟩ | ⟨i, u, hstores, _, hlinked⟩
      · exact not_expires_of_same hsame
      · have hevolves : Store.Evolves (fun _ _ => False) (proposalNext [.applied]) t.proposals
            ((mTransactionCreate env params).exec t).2.proposals := by
          rw [hlinked]
          split
          · rename_i hfile
            exact linkProposal_evolves (hann i u hstores hfile)
          · exact Std.Refl.refl _
        exact not_expires_of_evolves hevolves (by simp)
    case transactionMarkRolledBack =>
      rcases mTransactionMarkRolledBack_cases env params t with
        ⟨_, hsame⟩ | ⟨i, u, u', hkey, hu, htr, _, hsame | ⟨hfile, hlinked⟩⟩
      · exact not_expires_of_same hsame
      · exact not_expires_of_same hsame
      · have hevolves : Store.Evolves (fun _ _ => False) (proposalNext [.rolledBack]) t.proposals
            ((mTransactionMarkRolledBack env params).exec t).2.proposals := by
          rw [hlinked]
          exact linkProposal_evolves (hann i u u' hkey hu htr hfile)
        exact not_expires_of_evolves hevolves (by simp)
  · exact not_expires_of_evolves hlaw.proposals hlists

/-- A request that announces no expiry is one of those that cannot. -/
theorem announcesNothing_of_announces {method : Method} (hann : Announces t (.other env method params)) :
    method.announcesNothing = true := by
  cases method <;> first | rfl | exact hann

/-- After the sweep of `list` that announces, the sweep inside finds nothing stale. -/
theorem sweepsNone_after {ids : List Json} {st st' : Store} (hkeyed : ProposalsKeyed st)
    (h : (ProposalStore.expireStale env).exec st = (.ok ids, st'))
    (hbetween : ∀ k p, st.records.get? k = some p → ProposalStore.Stale later p → ProposalStore.Stale env p) :
    ProposalStore.SweepsNone later st' := by
  obtain ⟨hfree, hstored⟩ := ProposalStore.expireStale_spec hkeyed h
  refine ProposalStore.sweepsNone_of_fresh fun k q hq hstale => ?_
  cases hp : st.records.get? k with
  | none =>
    rw [(hfree k hp).1] at hq
    cases hq
  | some p =>
    rcases hstored k p hp with ⟨_, hget, _⟩ | ⟨hfresh, hget, _⟩
    · obtain rfl : ProposalStore.markExpired env p = q := Option.some.inj (hget.symm.trans hq)
      have hsettled : ProposalStore.isStale later (ProposalStore.markExpired env p) = .ok false :=
        ProposalStore.isStale_of_status (a := .expired) (by simp [ProposalStore.markExpired, ProposalStatus.name])
          (by decide)
      rw [hstale.2] at hsettled
      cases hsettled
    · obtain rfl : p = q := Option.some.inj (hget.symm.trans hq)
      exact hfresh (hbetween k p hp hstale)

/-- A `proposal.list` that announces what it expires: one event for each. -/
theorem list_tallies (hkeyed : ProposalsKeyed t.proposals) (hann : Announces t (.list env later params)) :
    Tallies k t ((mProposalListTwice env later params).exec t).2 := by
  obtain ⟨hsweep, hbetween⟩ := hann
  have hstays : ∀ t', t'.proposals = t.proposals → t'.events = t.events → Tallies k t t' := fun t' hsame hevents =>
    ⟨fun hexpires => absurd hexpires (not_expires_of_same hsame), fun _ => by rw [hevents]⟩
  cases hexec : (ProposalStore.expireStale env).exec t.proposals with
  | mk r st =>
    cases r with
    | error x =>
      -- only a sweep that expires nothing may raise
      have hnone : ProposalStore.SweepsNone env t.proposals := by
        rcases hsweep with hnone | ⟨hreturns, _⟩
        · exact hnone
        · obtain ⟨ids, st', hok⟩ := ProposalStore.expireStale_returns hreturns
          rw [hexec] at hok
          cases hok
      obtain ⟨r, hraised, _⟩ := ProposalStore.exec_expireStale_none hnone
      obtain rfl : st = t.proposals := (congrArg Prod.snd hexec).symm.trans (congrArg Prod.snd hraised)
      have hstop : (onProposals (ProposalStore.expireStale env)).exec t = (.error x, t) := by
        rw [exec_onProposals, hexec]
      rw [mProposalListTwice, Prog.exec_bind_error hstop]
      exact hstays t rfl rfl
    | ok ids =>
      obtain ⟨hfree, hstored⟩ := ProposalStore.expireStale_spec hkeyed hexec
      have htold : ∃ t', (emitExpired env ids).exec { t with proposals := st } = (.ok (), t') ∧ t'.proposals = st ∧
          ∀ k, t'.events.expiries k = t.events.expiries k + ProposalStore.named k ids := by
        rcases hsweep with hnone | ⟨_, hlog⟩
        · obtain ⟨r, hraised, hempty⟩ := ProposalStore.exec_expireStale_none hnone
          obtain rfl : ids = [] := hempty ids ((congrArg Prod.fst hraised).symm.trans (congrArg Prod.fst hexec))
          exact ⟨_, rfl, rfl, fun _ => rfl⟩
        · exact emitExpired_tells hlog ids _
      obtain ⟨t', hemitted, hproposals, hcount⟩ := htold
      have hlist : ((onProposals (ProposalStore.list later (Obj.get params "status"))).exec t').2 = t' := by
        have hsame := ProposalStore.exec_list_none (sweepsNone_after hkeyed hexec hbetween) (Obj.get params "status")
        rw [exec_onProposals, hproposals, hsame, ← hproposals]
      have hfinal : ((mProposalListTwice env later params).exec t).2 = t' := by
        have hstart : (onProposals (ProposalStore.expireStale env)).exec t = (.ok ids, { t with proposals := st }) := by
          rw [exec_onProposals, hexec]
        rw [mProposalListTwice, Prog.exec_bind_ok hstart, Prog.exec_bind_ok hemitted, Prog.exec_bind]
        cases hread : (onProposals (ProposalStore.list later (Obj.get params "status"))).exec t' with
        | mk r t'' =>
          rw [hread] at hlist
          subst hlist
          cases r <;> rfl
      rw [hfinal]
      unfold Tallies
      rw [hcount k]
      cases hp : t.proposals.records.get? k with
      | none =>
        obtain ⟨_, hzero⟩ := hfree k hp
        refine ⟨fun ⟨⟨p, hp', _⟩, _⟩ => ?_, fun _ => by rw [hzero, Nat.add_zero]⟩
        rw [hp] at hp'
        cases hp'
      | some p =>
        rcases hstored k p hp with ⟨hstale, hget, hone⟩ | ⟨_, hget, hzero⟩
        · refine ⟨fun _ => by rw [hone], fun hnot => absurd ⟨⟨p, hp, fun hat => ?_⟩, _, ?_,
            at_expired_markExpired env p⟩ hnot⟩
          · cases hat.eq (at_pending_of_isStale hstale.2)
          · rw [hproposals]
            exact hget
        · refine ⟨fun ⟨⟨p₁, hp₁, hbefore⟩, p₂, hp₂, hafter⟩ => ?_, fun _ => by rw [hzero, Nat.add_zero]⟩
          obtain rfl : p = p₁ := Option.some.inj (hp.symm.trans hp₁)
          rw [hproposals, hget] at hp₂
          obtain rfl := Option.some.inj hp₂
          exact absurd hafter hbefore

/-- A call that announces what it expires adds one event for each proposal that becomes expired. -/
theorem call_tallies (hkeyed : ProposalsKeyed t.proposals) {call : Call} (hann : Announces t call) :
    Tallies k t (call.handler.exec t).2 := by
  cases call with
  | list env later params => exact list_tallies hkeyed hann
  | other env method params =>
    exact ⟨fun hexpires => absurd hexpires (other_not_expires hann),
      fun _ => handle_silent (announcesNothing_of_announces hann) t⟩

/-- The law of a call. -/
def Call.law : Call → Law
  | .list _ _ _ => { proposalTargets := [.expired] }
  | .other _ method _ => method.law

/-- A call keeps its law. -/
theorem call_keeps (call : Call) (t : Tunnel) : call.law.Holds t (call.handler.exec t).2 := by
  cases call with
  | list env later params =>
    have hkeeps : Prog.Keeps (Law.Holds { proposalTargets := [.expired] }) (mProposalListTwice env later params) :=
      .bind (onProposals_keeps (ProposalStore.expireStale_keeps (by simp))) fun _ =>
        .bind (emitExpired_keeps _) fun _ =>
          .bind (onProposals_keeps (ProposalStore.list_keeps (by simp))) fun _ => .pure _
    exact hkeeps t
  | other env method params => exact handle_keeps env method params t

/-- Proposals stay under their keys. -/
theorem ProposalsKeyed.evolves {allowed : Bool} {targets : List ProposalStatus} {st st' : Store}
    (hkeyed : ProposalsKeyed st)
    (h : Store.Evolves (Arrives allowed "proposal_id") (proposalNext targets) st st') : ProposalsKeyed st' := by
  have hpath : ∀ {p p'}, ReflTransGen (proposalNext targets) p p' →
      Obj.get p' "proposal_id" = Obj.get p "proposal_id" := by
    intro p p' hpath
    induction hpath with
    | refl => rfl
    | tail _ hnext ih =>
      obtain ⟨_, _, _, _, _, _, hkeep⟩ := hnext
      rw [← ih, Obj.get, Obj.getD, hkeep "proposal_id" (by decide)]
      rfl
  intro k p' hp'
  rcases Evolves.origin h hp' with ⟨p, hp, hnext⟩ | ⟨_, p, ⟨_, hkey⟩, hnext⟩
  · rw [hpath hnext]
    exact hkeyed k p hp
  · rw [hpath hnext]
    exact hkey

/-- An expired proposal stays expired. -/
theorem expired_stays {fresh : Key → Obj → Prop} {targets : List ProposalStatus} {st st' : Store}
    (h : Store.Evolves fresh (proposalNext targets) st st')
    (hexpired : ∃ p, st.records.get? k = some p ∧ proposalLifecycle.At p .expired) :
    ∃ p, st'.records.get? k = some p ∧ proposalLifecycle.At p .expired := by
  obtain ⟨p, hp, hat⟩ := hexpired
  obtain ⟨p', hp', hpath⟩ := Evolves.advanced h hp
  obtain rfl : p' = p := Lifecycle.eq_of_steps hat (by simp [proposalLifecycle, ProposalStatus.transitions]) hpath
  exact ⟨p', hp', hat⟩

end Steps

section Runs

variable {t₀ t : Tunnel} {h : List (Entry Tunnel Call (Except PyExc Json))} {k : Key}

/-- In every run whose calls announce what they expire: each proposal that became expired has one
`proposal.expired` event, and no other proposal has one. -/
theorem expiries_announced (hkeyed : ProposalsKeyed t₀.proposals) (hrun : Run (announcer t₀) Announces h t) (k : Key) :
    ((∃ e ∈ h, Expires k e.before e.after) → t.events.expiries k = t₀.events.expiries k + 1) ∧
      ((¬ ∃ e ∈ h, Expires k e.before e.after) → t.events.expiries k = t₀.events.expiries k) := by
  -- a proposal that became expired stays so, and does not become it again
  suffices hinv : ProposalsKeyed t.proposals ∧
      ((∃ e ∈ h, Expires k e.before e.after) → t.events.expiries k = t₀.events.expiries k + 1 ∧
        ∃ p, t.proposals.records.get? k = some p ∧ proposalLifecycle.At p .expired) ∧
      ((¬ ∃ e ∈ h, Expires k e.before e.after) → t.events.expiries k = t₀.events.expiries k) from
    ⟨fun hexpired => (hinv.2.1 hexpired).1, hinv.2.2⟩
  induction hrun with
  | init ht =>
    obtain rfl : _ = t₀ := ht
    exact ⟨hkeyed, by simp, fun _ => rfl⟩
  | @step h t call _ hann ih =>
    obtain ⟨hkeyed', hone, hnone⟩ := ih
    have hlaw := call_keeps call t
    obtain ⟨hexpires, hsame⟩ := call_tallies (k := k) hkeyed' hann
    change (Expires k t (call.handler.exec t).2 → _) at hexpires
    have hsplit : (∃ e ∈ h ++ [(announcer t₀).fire t call], Expires k e.before e.after) ↔
        (∃ e ∈ h, Expires k e.before e.after) ∨ Expires k t (call.handler.exec t).2 := by
      simp only [List.mem_append, List.mem_singleton, or_and_right, exists_or, exists_eq_left]
      rfl
    refine ⟨hkeyed'.evolves hlaw.proposals, fun hexpired => ?_, fun hnot => ?_⟩
    · by_cases hbefore : ∃ e ∈ h, Expires k e.before e.after
      · obtain ⟨hcount, hstays⟩ := hone hbefore
        have hagain : ¬ Expires k t (call.handler.exec t).2 := by
          rintro ⟨⟨p, hp, hnot⟩, _⟩
          obtain ⟨q, hq, hat⟩ := hstays
          obtain rfl : p = q := Option.some.inj (hp.symm.trans hq)
          exact hnot hat
        exact ⟨(hsame hagain).trans hcount, expired_stays hlaw.proposals hstays⟩
      · have hnow : Expires k t (call.handler.exec t).2 := (hsplit.mp hexpired).resolve_left hbefore
        exact ⟨(hexpires hnow).trans (by rw [hnone hbefore]), hnow.2⟩
    · have hboth := not_or.mp (fun hor => hnot (hsplit.mpr hor))
      exact (hsame hboth.2).trans (hnone hboth.1)

end Runs

/-- The tunnel after `p_1` was created at time zero. -/
def sampleLimited : Tunnel :=
  ((handle (Env.limited 0) .proposalCreate [("proposal", .obj sampleProposal)]).exec (Tunnel.fresh .empty)).2

/-- The sample has one proposal. -/
theorem sampleLimited_record {k : Key} {p : Obj} (hp : sampleLimited.proposals.records.get? k = some p) :
    k = .str "p_1" ∧ p = makeProposal (Env.limited 0) sampleProposal := by
  have hrecords : sampleLimited.proposals.records =
      (Dict.empty : Dict Key Obj).insert (.str "p_1") (makeProposal (Env.limited 0) sampleProposal) := by rfl
  rw [hrecords, Dict.get?_insert] at hp
  split at hp
  · rename_i hk
    exact ⟨hk, (Option.some.inj hp).symm⟩
  · cases hp

/-- It expires if it is found expired later. -/
theorem sampleLimited_expired {t : Tunnel}
    (h : (t.proposals.records.get? (.str "p_1")).any (fun p => (Obj.get p "status").pyEq (.str "expired")) = true) :
    Expires (.str "p_1") sampleLimited t := by
  refine ⟨⟨makeProposal (Env.limited 0) sampleProposal, by rfl, fun hat => ?_⟩, ?_⟩
  · have hpending : proposalLifecycle.At (makeProposal (Env.limited 0) sampleProposal) .pending := by rfl
    cases hat.eq hpending
  · obtain ⟨p, hp, hstatus⟩ := (Option.any_eq_true _ _).mp h
    refine ⟨p, hp, ?_⟩
    have hget : Obj.get p "status" = .str "expired" := Json.pyEq_str.mp hstatus
    unfold Obj.get Obj.getD at hget
    unfold Lifecycle.At Lifecycle.statusOf Obj.getD
    cases hlook : p.lookup "status" with
    | none => simp [hlook] at hget
    | some v => simpa [hlook, proposalLifecycle, ProposalStatus.name] using hget

/-- A lookup of `p_1` after its limit. -/
def sampleLateGet : Call := .other (Env.limited 1000) .proposalGet sampleProposal

/-- A list request after the limit of `p_1`. -/
def sampleLateList : Call := .list (Env.limited 1000) (Env.limited 1000) []

/-- Its expiry is announced once, by a late list. -/
theorem expiries_announced_sample :
    ((announcer sampleLimited).last sampleLimited [sampleLateList]).events.expiries (.str "p_1") =
      sampleLimited.events.expiries (.str "p_1") + 1 := by
  have hkeyed : ProposalsKeyed sampleLimited.proposals := by
    intro k p hp
    obtain ⟨rfl, rfl⟩ := sampleLimited_record hp
    rfl
  have hover : (Env.limited 1000).Overdue 0 := by
    rw [Env.overdue_iff rfl rfl]
    decide +kernel
  have hreturns : ProposalStore.SweepReturns (Env.limited 1000) sampleLimited.proposals := by
    intro _ k p hp
    obtain ⟨rfl, rfl⟩ := sampleLimited_record hp
    exact ⟨true, isStale_of_overdue (agesFrom_makeProposal rfl) rfl hover, fun _ => ⟨rfl, rfl⟩⟩
  have hrun : Run (announcer sampleLimited) Announces
      ([] ++ (announcer sampleLimited).trace sampleLimited [sampleLateList]) _ :=
    Run.append_trace (.init rfl) [sampleLateList] (by
      intro e he
      obtain rfl : e = _ := List.mem_singleton.mp he
      exact ⟨.inr ⟨hreturns, rfl⟩, fun _ _ _ hstale => hstale⟩)
  refine (expiries_announced hkeyed hrun (.str "p_1")).1 ⟨_, List.mem_singleton.mpr rfl, ?_⟩
  exact sampleLimited_expired (by decide +kernel)

/-- A lookup expires a proposal, and the log has no event of it. -/
theorem expired_unannounced :
    Expires (.str "p_1") sampleLimited (sampleLateGet.handler.exec sampleLimited).2 ∧
      (sampleLateGet.handler.exec sampleLimited).2.events.expiries (.str "p_1") = 0 :=
  ⟨sampleLimited_expired (by decide +kernel), by decide +kernel⟩

end VirtuosoFlow.Tunnel
