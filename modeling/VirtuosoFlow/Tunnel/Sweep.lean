import VirtuosoFlow.Tunnel.Agreement

/-!
# When the sweep returns

Before a proposal is read the sweep runs over every record. It raises exactly if one of them has
an age that cannot be told, or is stale and cannot be written; then whatever was to read raises
too. This file has that condition, and the one for linking the proposal of a transaction.
-/

namespace VirtuosoFlow.Tunnel

open Base Relation

namespace ProposalStore

/-- Every record lets the sweep go through. -/
def SweepReturns (env : Env) (st : Store) : Prop :=
  0 < env.proposalTtl → ∀ k p, st.records.get? k = some p → EntryPasses env p

section Sweep

variable {env : Env} {st st' : Store}

/-- A loop that returned told every age, and returned every record it marked. -/
theorem expireEntries_returned {l : List (Key × Obj)} {newly : List Obj}
    (h : (expireEntries env l).exec st = (.ok newly, st')) :
    ∀ e ∈ l, ∃ stale, isStale env e.2 = .ok stale ∧ (stale = true → markExpired env e.2 ∈ newly) := by
  induction l generalizing st st' newly with
  | nil => simp
  | cons e rest ih =>
    obtain ⟨key, p⟩ := e
    cases hstale : isStale env p with
    | error err =>
      rw [expireEntries, hstale, Prog.exec_bind_error (Prog.exec_ofExcept _ _)] at h
      cases h
    | ok stale =>
      cases stale with
      | false =>
        rw [exec_expireEntries_fresh st hstale] at h
        intro e he
        rcases List.mem_cons.mp he with rfl | hmem
        · exact ⟨false, hstale, by simp⟩
        · exact ih h e hmem
      | true =>
        rw [exec_expireEntries_stale st hstale] at h
        obtain ⟨others, st₁, hrest, hlast⟩ := Prog.exec_bind_eq_ok h
        obtain rfl : markExpired env p :: others = newly := by simpa using congrArg Prod.fst hlast
        intro e he
        rcases List.mem_cons.mp he with rfl | hmem
        · exact ⟨true, hstale, fun _ => List.mem_cons_self⟩
        · obtain ⟨stale, hstale', hin⟩ := ih hrest e hmem
          exact ⟨stale, hstale', fun htrue => List.mem_cons_of_mem _ (hin htrue)⟩

/-- Where all were written, each could be. -/
theorem persistAll_returned {l : List Obj} (h : (persistAll env l).exec st = (.ok (), st')) :
    ∀ u ∈ l, persistError env "proposal_id" u = none := by
  induction l generalizing st with
  | nil => simp
  | cons u rest ih =>
    obtain ⟨_, st₁, hfirst, hrest⟩ := Prog.exec_bind_eq_ok h
    intro u' hu'
    rcases List.mem_cons.mp hu' with rfl | hmem
    · obtain ⟨writes, hexec⟩ := exec_persist env "proposal_id" u' st
      rw [hexec] at hfirst
      cases herr : persistError env "proposal_id" u' with
      | none => rfl
      | some e => simp [herr] at hfirst
    · exact ih hrest u' hmem

/-- Where all were read, each was there. -/
theorem mapM_getItem_returned {f : String} {l : List Obj} {ids : List Json}
    (h : l.mapM (fun u => getItem u f) = .ok ids) : ∀ u ∈ l, (u.lookup f).isSome := by
  induction l generalizing ids with
  | nil => simp
  | cons u rest ih =>
    rw [List.mapM_cons] at h
    cases hitem : getItem u f with
    | error e =>
      rw [hitem] at h
      cases h
    | ok v =>
      rw [hitem] at h
      cases hrest : rest.mapM (fun u => getItem u f) with
      | error e =>
        rw [hrest] at h
        cases h
      | ok others =>
        intro u' hu'
        rcases List.mem_cons.mp hu' with rfl | hmem
        · unfold getItem at hitem
          cases hlook : u'.lookup f with
          | none => simp [hlook] at hitem
          | some w => rfl
        · exact ih hrest u' hmem

/-- The sweep returns exactly if every record lets it go through. -/
theorem expireStale_returns_iff :
    (∃ ids st', (expireStale env).exec st = (.ok ids, st')) ↔ SweepReturns env st := by
  constructor
  · rintro ⟨ids, st', h⟩ httl k p hp
    have hpositive : ¬ env.proposalTtl ≤ 0 := by omega
    unfold expireStale at h
    rw [if_neg hpositive, Prog.exec_bind_ok (Prog.exec_get st)] at h
    obtain ⟨newly, st₁, hloop, h⟩ := Prog.exec_bind_eq_ok h
    obtain ⟨_, st₂, hfiles, hread⟩ := Prog.exec_bind_eq_ok h
    rw [Prog.exec_ofExcept, Prod.mk.injEq] at hread
    have hentry : (k, p) ∈ st.records.entries := Dict.mem_entries_iff.mpr hp
    obtain ⟨stale, hstale, hin⟩ := expireEntries_returned hloop (k, p) hentry
    refine ⟨stale, hstale, fun htrue => ?_⟩
    have hmem := hin htrue
    have hfile := persistAll_returned hfiles _ hmem
    have hid := mapM_getItem_returned hread.1 _ hmem
    rw [persistError_congr (lookup_id_markExpired env p)] at hfile
    rw [lookup_id_markExpired] at hid
    exact ⟨hfile, hid⟩
  · exact expireStale_returns

/-- The sweep leaves an approved proposal alone, and approves none. -/
theorem get?_expireStale_approved {ids : List Json} {k : Key} {p : Obj}
    (h : (expireStale env).exec st = (.ok ids, st')) (hat : proposalLifecycle.At p .approved) :
    st'.records.get? k = some p ↔ st.records.get? k = some p := by
  have hkeeps : Prog.Keeps (Store.Evolves (fun _ _ => False) (proposalNext [.expired]))
      (expireStale env) := expireStale_keeps (by simp)
  have hevolves : Store.Evolves (fun _ _ => False) (proposalNext [.expired]) st st' := by
    simpa [h] using hkeeps st
  constructor
  · intro hp
    obtain ⟨p₀, hp₀, hpath⟩ := traces_of_evolves (fun _ _ hfalse => hfalse) hevolves p hp
    -- the last step of a path into `p` would end in `expired`
    rcases ReflTransGen.cases_tail hpath with rfl | ⟨q, _, a, b, _, hb, _, hbat, _⟩
    · exact hp₀
    · have heq : b = .approved := hbat.eq hat
      simp [heq] at hb
  · intro hp
    obtain ⟨p₁, hp₁, hpath⟩ := hevolves.advanced hp
    have heq : p₁ = p := by
      apply Lifecycle.eq_of_steps hat _ hpath
      simp [proposalLifecycle, ProposalStatus.transitions]
    rw [hp₁, heq]

/-- A record whose status is another than the first is not stale. -/
theorem isStale_of_status {p : Obj} {a : ProposalStatus} (h : Obj.get p "status" = .str a.name) (ha : a ≠ .pending) :
    isStale env p = .ok false := by
  have hpending : ¬ (Obj.get p "status").pyEq (.str "pending") = true := by
    rw [Json.pyEq_str, h]
    intro heq
    exact ha (proposalLifecycle.name_injective (Json.str.inj heq))
  rw [isStale, if_neg hpending]

/-- A proposal that was marked is not stale. -/
theorem isStale_markExpired (env : Env) (p : Obj) : isStale env (markExpired env p) = .ok false :=
  isStale_of_status (a := .expired) (by simp [markExpired, ProposalStatus.name]) (by decide)

/-- No stale record comes before one whose age cannot be told: a sweep that raises has not expired any. -/
def SweepWhole (env : Env) (st : Store) : Prop :=
  0 < env.proposalTtl → st.records.entries.Pairwise fun e e' =>
    isStale env e.2 = .ok true → ∃ stale, isStale env e'.2 = .ok stale

/-- A loop that returned left each record as it was, or replaced it because it was stale. -/
theorem expireEntries_spec {l : List (Key × Obj)} {newly : List Obj} (hnodup : (l.map Prod.fst).Nodup)
    (hfound : ∀ e ∈ l, st.records.get? e.1 = some e.2) (h : (expireEntries env l).exec st = (.ok newly, st')) :
    st'.writes = st.writes ∧ (∀ k, k ∉ l.map Prod.fst → st'.records.get? k = st.records.get? k) ∧
      (∀ e ∈ l, isStale env e.2 = .ok false ∧ st'.records.get? e.1 = some e.2 ∨
        isStale env e.2 = .ok true ∧ markExpired env e.2 ∈ newly ∧ st'.records.get? e.1 = some (markExpired env e.2)) ∧
      ∀ u ∈ newly, ∃ e ∈ l, isStale env e.2 = .ok true ∧ u = markExpired env e.2 := by
  induction l generalizing st newly with
  | nil =>
    simp only [expireEntries, Prog.exec_pure, Prod.mk.injEq, Except.ok.injEq] at h
    obtain ⟨rfl, rfl⟩ := h
    simp
  | cons e l ih =>
    obtain ⟨key, p⟩ := e
    rw [List.map_cons, List.nodup_cons] at hnodup
    have hkey : ∀ e ∈ l, e.1 ≠ key := fun e he heq => hnodup.1 (List.mem_map.mpr ⟨e, he, heq⟩)
    have hp := hfound (key, p) List.mem_cons_self
    cases hstale : isStale env p with
    | error x =>
      rw [expireEntries, hstale, Prog.exec_bind_error (Prog.exec_ofExcept _ _)] at h
      cases h
    | ok stale =>
      cases stale with
      | false =>
        rw [exec_expireEntries_fresh st hstale] at h
        obtain ⟨hwrites, hothers, hentries, hnewly⟩ :=
          ih hnodup.2 (fun e he => hfound e (List.mem_cons_of_mem _ he)) h
        refine ⟨hwrites, ?_, ?_, ?_⟩
        · intro k hk
          rw [List.map_cons, List.mem_cons, not_or] at hk
          exact hothers k hk.2
        · intro e he
          rcases List.mem_cons.mp he with rfl | hmem
          · exact .inl ⟨hstale, (hothers key hnodup.1).trans hp⟩
          · exact hentries e hmem
        · intro u hu
          obtain ⟨e, he, hmarked⟩ := hnewly u hu
          exact ⟨e, List.mem_cons_of_mem _ he, hmarked⟩
      | true =>
        rw [exec_expireEntries_stale st hstale] at h
        obtain ⟨others, st₁, hrest, hlast⟩ := Prog.exec_bind_eq_ok h
        rw [Prog.exec_pure, Prod.mk.injEq, Except.ok.injEq] at hlast
        obtain ⟨rfl, rfl⟩ := hlast
        obtain ⟨hwrites, hothers, hentries, hnewly⟩ := ih hnodup.2 (by
          intro e he
          rw [Dict.get?_insert_ne _ (hkey e he)]
          exact hfound e (List.mem_cons_of_mem _ he)) hrest
        refine ⟨hwrites, ?_, ?_, ?_⟩
        · intro k hk
          rw [List.map_cons, List.mem_cons, not_or] at hk
          rw [hothers k hk.2, Dict.get?_insert_ne _ hk.1]
        · intro e he
          rcases List.mem_cons.mp he with rfl | hmem
          · refine .inr ⟨hstale, List.mem_cons_self, ?_⟩
            rw [hothers key hnodup.1, Dict.get?_insert_self]
          · rcases hentries e hmem with hfresh | ⟨hold, hin, hget⟩
            · exact .inl hfresh
            · exact .inr ⟨hold, List.mem_cons_of_mem _ hin, hget⟩
        · intro u hu
          rcases List.mem_cons.mp hu with rfl | hmem
          · exact ⟨(key, p), List.mem_cons_self, hstale, rfl⟩
          · obtain ⟨e, he, hmarked⟩ := hnewly u hmem
            exact ⟨e, List.mem_cons_of_mem _ he, hmarked⟩

/-- A loop over records whose ages can be told returns. -/
theorem expireEntries_returns {l : List (Key × Obj)} (st : Store)
    (h : ∀ e ∈ l, ∃ stale, isStale env e.2 = .ok stale) :
    ∃ newly st', (expireEntries env l).exec st = (.ok newly, st') := by
  induction l generalizing st with
  | nil => exact ⟨[], st, rfl⟩
  | cons e l ih =>
    obtain ⟨key, p⟩ := e
    have hrest := fun e he => h e (List.mem_cons_of_mem _ he)
    obtain ⟨stale, hstale⟩ := h (key, p) List.mem_cons_self
    cases stale with
    | false =>
      rw [exec_expireEntries_fresh st hstale]
      exact ih st hrest
    | true =>
      rw [exec_expireEntries_stale st hstale]
      obtain ⟨newly, st', hexec⟩ := ih { st with records := st.records.insert key (markExpired env p) } hrest
      exact ⟨markExpired env p :: newly, st', by rw [Prog.exec_bind_ok hexec]; rfl⟩

end Sweep

end ProposalStore

section Linking

variable {env : Env} {pid : Json} {st : Store}

/-- Linking the proposal of a transaction goes through: the sweep returns, the id can be looked up,
and if an approved proposal is found its file has a name, or the exception is one that is dropped. -/
def LinkReturns (env : Env) (pid : Json) (st : Store) : Prop :=
  pid.truthy = true → ProposalStore.SweepReturns env st ∧ ∃ k, pid.key? = some k ∧
    ∀ p, st.records.get? k = some p → proposalLifecycle.At p .approved →
      ∀ e, persistError env "proposal_id" p = some e → isLookupError e = true

/-- The status of a record compared with a name other than the first. -/
theorem pyEq_approved_iff {p : Obj} :
    (Obj.get p "status").pyEq (.str ProposalStatus.approved.name) = true ↔ proposalLifecycle.At p .approved := by
  rw [Json.pyEq_str]
  unfold Lifecycle.At Lifecycle.statusOf Obj.get Obj.getD
  cases p.lookup "status" <;> simp [proposalLifecycle, ProposalStatus.name]

/-- Applying an approved proposal raises what writing its file raises. -/
theorem exec_apply_approved {k : Key} {p : Obj} (hkey : pid.key? = some k) (hp : st.records.get? k = some p)
    (hat : proposalLifecycle.At p .approved) :
    (((ProposalStore.setStatus env .applied pid).suppress isLookupError).exec st).1 = .ok () ↔
      ∀ e, persistError env "proposal_id" p = some e → isLookupError e = true := by
  have hedge : ∃ a, proposalLifecycle.At p a ∧ .applied ∈ proposalLifecycle.transitions a :=
    ⟨.approved, hat, by decide⟩
  have htr : proposalTransition env .applied p =
      .ok (Obj.set (Obj.set p "status" (.str "applied")) "updated_at" env.stamp) :=
    Lifecycle.transition_eq_ok.mpr ⟨hedge, rfl⟩
  obtain ⟨writes, hset⟩ := exec_setStatus env "proposal_id" "unknown proposal_id: %s" hkey hp htr
  have hid : (Obj.set (Obj.set p "status" (.str "applied")) "updated_at" env.stamp).lookup "proposal_id" =
      p.lookup "proposal_id" := by simp
  rw [Prog.exec_suppress, ProposalStore.setStatus, hset, persistError_congr hid]
  cases persistError env "proposal_id" p with
  | none => simp
  | some e => cases hlookup : isLookupError e <;> simp [hlookup]

/-- Linking returns exactly if its conditions hold. -/
theorem linkProposal_returns_iff :
    ((linkProposal env pid .approved .applied).exec st).1 = .ok () ↔ LinkReturns env pid st := by
  unfold linkProposal LinkReturns
  by_cases htruthy : pid.truthy = true
  · rw [if_pos htruthy, imp_iff_right htruthy, ← ProposalStore.expireStale_returns_iff]
    cases hsweep : (ProposalStore.expireStale env).exec st with
    | mk r st₁ =>
      cases r with
      | error e =>
        have hget : (ProposalStore.get env pid).exec st = (.error e, st₁) := by
          rw [ProposalStore.get, Prog.exec_bind_error hsweep]
        rw [Prog.exec_bind_error hget]
        simp
      | ok ids =>
        cases hkey : pid.key? with
        | none =>
          have hget : (ProposalStore.get env pid).exec st = (.error .typeError, st₁) := by
            rw [ProposalStore.get, Prog.exec_bind_ok hsweep]
            simp [getRecord, Prog.exec_bind, hashKey, hkey]
          rw [Prog.exec_bind_error hget]
          simp
        | some k =>
          have hget : (ProposalStore.get env pid).exec st = (.ok (st₁.records.get? k), st₁) := by
            rw [ProposalStore.get, Prog.exec_bind_ok hsweep]
            simp [getRecord, Prog.exec_bind, hashKey, hkey]
          have hsame : ∀ p, proposalLifecycle.At p .approved →
              (st₁.records.get? k = some p ↔ st.records.get? k = some p) :=
            fun p hat => ProposalStore.get?_expireStale_approved hsweep hat
          rw [Prog.exec_bind_ok hget]
          cases hp₁ : st₁.records.get? k with
          | none =>
            have hnone : ∀ p, st.records.get? k = some p → ¬ proposalLifecycle.At p .approved := by
              intro p hp hat
              rw [(hsame p hat).mpr hp] at hp₁
              cases hp₁
            simp only [Prog.exec_pure, true_iff]
            exact ⟨⟨ids, st₁, rfl⟩, k, rfl, fun p hp hat => absurd hat (hnone p hp)⟩
          | some p₁ =>
            by_cases hat : proposalLifecycle.At p₁ .approved
            · have hp := (hsame p₁ hat).mp hp₁
              simp only [if_pos (pyEq_approved_iff.mpr hat)]
              rw [exec_apply_approved hkey hp₁ hat]
              constructor
              · intro hfile
                refine ⟨⟨ids, st₁, rfl⟩, k, rfl, fun p hp' _ => ?_⟩
                rw [hp] at hp'
                cases hp'
                exact hfile
              · rintro ⟨-, k', hk', hfile⟩
                cases hk'
                exact hfile p₁ hp hat
            · have hnone : ∀ p, st.records.get? k = some p → ¬ proposalLifecycle.At p .approved := by
                intro p hp hat'
                rw [(hsame p hat').mpr hp] at hp₁
                cases hp₁
                exact hat hat'
              simp only [if_neg (mt pyEq_approved_iff.mp hat), Prog.exec_pure, true_iff]
              exact ⟨⟨ids, st₁, rfl⟩, k, rfl, fun p hp hat => absurd hat (hnone p hp)⟩
  · simp [htruthy]

end Linking

end VirtuosoFlow.Tunnel
