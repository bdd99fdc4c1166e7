import VirtuosoFlow.JsonDumps
import VirtuosoFlow.Tunnel.Replies

/-!
# Values that Python can hold

A dict has each key once and a float is a float. What a client sends and what the clock and the
registry supply are such values, and so are the records that the tunnel builds from them.
-/

namespace VirtuosoFlow.JsonText

open Base

section Members

variable {fmt : FloatFormat} {o other : Obj} {k : String} {v : Json}

/-- Members are printable if each is. -/
theorem printableMembers_iff {plain : Char → Prop} {ms : List (String × Json)} :
    PrintableMembers fmt plain ms ↔ ∀ e ∈ ms, (∀ c ∈ e.1.toList, plain c) ∧ Printable fmt plain e.2 := by
  induction ms with
  | nil => simp [PrintableMembers]
  | cons e ms ih =>
    obtain ⟨k, v⟩ := e
    rw [PrintableMembers, ih, List.forall_mem_cons, and_assoc]

/-- A dict is a value if its keys differ and its members are values. -/
theorem wellFormed_obj_iff : WellFormed fmt (.obj o) ↔ (o.map Prod.fst).Nodup ∧ ∀ e ∈ o, WellFormed fmt e.2 := by
  unfold WellFormed
  rw [Printable, printableMembers_iff]
  simp

/-- A string is well formed. -/
theorem wellFormed_str (s : String) : WellFormed fmt (.str s) := fun _ _ => trivial

/-- A member of a well formed object is well formed. -/
theorem WellFormed.lookup (h : WellFormed fmt (.obj o)) (hv : o.lookup k = some v) : WellFormed fmt v := by
  refine (wellFormed_obj_iff.mp h).2 (k, v) ?_
  clear h
  induction o with
  | nil => cases hv
  | cons e o ih =>
    obtain ⟨k', v'⟩ := e
    rw [lookup_cons_eq_ite] at hv
    split at hv
    · rename_i hk
      subst hk
      obtain rfl : v' = v := Option.some.inj hv
      exact List.mem_cons_self
    · exact List.mem_cons_of_mem _ (ih hv)

/-- So is what `get` gives. -/
theorem WellFormed.get (h : WellFormed fmt (.obj o)) (k : String) : WellFormed fmt (Obj.get o k) := by
  unfold Obj.get Obj.getD
  cases hv : o.lookup k with
  | none => trivial
  | some v => exact h.lookup hv

/-- After setting, a member is the new one or an old one. -/
theorem mem_assocSet {e : String × Json} (h : e ∈ assocSet k v o) : e = (k, v) ∨ e ∈ o := by
  induction o with
  | nil => exact .inl (List.mem_singleton.mp h)
  | cons e' o ih =>
    obtain ⟨k', v'⟩ := e'
    unfold assocSet at h
    split at h
    · rcases List.mem_cons.mp h with rfl | hmem
      · exact .inl rfl
      · exact .inr (List.mem_cons_of_mem _ hmem)
    · rcases List.mem_cons.mp h with rfl | hmem
      · exact .inr List.mem_cons_self
      · exact (ih hmem).imp id (List.mem_cons_of_mem _)

/-- Setting a well formed member keeps an object well formed. -/
theorem WellFormed.set (h : WellFormed fmt (.obj o)) (k : String) (hv : WellFormed fmt v) :
    WellFormed fmt (.obj (Obj.set o k v)) := by
  obtain ⟨hnodup, hmembers⟩ := wellFormed_obj_iff.mp h
  have hunique : Tunnel.UniqueMembers (Obj.set o k v) := Tunnel.UniqueMembers.set hnodup k v
  refine wellFormed_obj_iff.mpr ⟨hunique, fun e he => ?_⟩
  rcases mem_assocSet he with rfl | hmem
  · exact hv
  · exact hmembers e hmem

/-- So does a default. -/
theorem WellFormed.setDefault (h : WellFormed fmt (.obj o)) (k : String) (hv : WellFormed fmt v) :
    WellFormed fmt (.obj (Obj.setDefault o k v)) := by
  unfold Obj.setDefault
  split
  · exact h
  · exact h.set k hv

/-- So does updating with well formed members. -/
theorem WellFormed.update (h : WellFormed fmt (.obj o)) (hother : ∀ e ∈ other, WellFormed fmt e.2) :
    WellFormed fmt (.obj (Obj.update o other)) := by
  unfold Obj.update
  induction other generalizing o with
  | nil => exact h
  | cons e other ih =>
    exact ih (h.set e.1 (hother e List.mem_cons_self)) fun e' he' => hother e' (List.mem_cons_of_mem _ he')

end Members

end VirtuosoFlow.JsonText

namespace VirtuosoFlow.Tunnel

open Base JsonText

/-- The clock tells a float. -/
def Clock (fmt : FloatFormat) (env : Env) : Prop := WellFormed fmt (.float (.finite env.now))

/-- The stored sessions are values. -/
def SessionValues (fmt : FloatFormat) (st : Store) : Prop :=
  ∀ k r, st.records.get? k = some r → WellFormed fmt (.obj r)

section Records

variable {fmt : FloatFormat} {env : Env} {data p p' j j' u u' fields : Obj}

/-- A time stamp is well formed. -/
theorem wellFormed_stamp (env : Env) : WellFormed fmt env.stamp := wellFormed_str _

/-- A record with an id of its own, or with a new one. -/
theorem wellFormed_withId (h : WellFormed fmt (.obj data)) (field id : String) :
    WellFormed fmt (.obj (if (Obj.get data field).truthy then data else Obj.set data field (.str id))) := by
  split
  · exact h
  · exact h.set _ (wellFormed_str _)

/-- A proposal is well formed if its payload is. -/
theorem wellFormed_makeProposal (hclock : Clock fmt env) (h : WellFormed fmt (.obj data)) :
    WellFormed fmt (.obj (makeProposal env data)) := by
  have hdefaults := (((((((wellFormed_withId h "proposal_id" ("p_" ++ env.uuid)).setDefault "schema_version"
    (wellFormed_str "0.1")).setDefault "status" (wellFormed_str "pending")).setDefault "created_by"
    (wellFormed_str "agent")).setDefault "requires_user_approval" (v := .bool true) trivial).setDefault "changes"
    (v := .arr []) trivial).setDefault "created_at" (wellFormed_stamp env)).setDefault "created_ts" hclock
  exact hdefaults.set "updated_at" (wellFormed_stamp env)

/-- So is a transaction. -/
theorem wellFormed_makeTransaction (hclock : Clock fmt env) (h : WellFormed fmt (.obj data)) :
    WellFormed fmt (.obj (makeTransaction env data)) :=
  ((((((wellFormed_withId h "transaction_id" ("t_" ++ env.uuid)).setDefault "schema_version"
    (wellFormed_str "0.1")).setDefault "status" (wellFormed_str "applied")).setDefault "before"
    (v := .arr []) trivial).setDefault "after" (v := .arr []) trivial).setDefault "timestamp"
    (wellFormed_stamp env)).setDefault "created_ts" hclock

/-- So is a job. -/
theorem wellFormed_makeJob (h : WellFormed fmt (.obj data)) : WellFormed fmt (.obj (makeJob env data)) := by
  have hstatus := ((wellFormed_withId h "job_id" ("job_" ++ env.uuid)).setDefault "schema_version"
    (wellFormed_str "0.1")).setDefault "status" (wellFormed_str "queued")
  have hfingerprint : ∀ {j : Obj}, WellFormed fmt (.obj j) →
      WellFormed fmt (.obj (if (Obj.get j "inputs_fingerprint").truthy then j
        else Obj.set j "inputs_fingerprint" (computeFingerprint env (Obj.get j "cellview") (Obj.get j "test")))) := by
    intro j hj
    split
    · exact hj
    · exact hj.set _ (wellFormed_str _)
  exact ((hfingerprint hstatus).setDefault "created_at" (wellFormed_stamp env)).set "updated_at" (wellFormed_stamp env)

/-- A transition keeps a proposal well formed. -/
theorem wellFormed_proposalTransition {new : ProposalStatus} (h : WellFormed fmt (.obj p))
    (htr : proposalTransition env new p = .ok p') : WellFormed fmt (.obj p') := by
  obtain ⟨_, rfl⟩ := Lifecycle.transition_eq_ok.mp htr
  exact (h.set _ (wellFormed_str _)).set _ (wellFormed_stamp env)

/-- So it does a transaction. -/
theorem wellFormed_transactionTransition {new : TransactionStatus} (h : WellFormed fmt (.obj u))
    (htr : transactionTransition new u = .ok u') : WellFormed fmt (.obj u') := by
  obtain ⟨_, rfl⟩ := Lifecycle.transition_eq_ok.mp htr
  exact h.set _ (wellFormed_str _)

/-- So it does a job. -/
theorem wellFormed_jobTransition {new : JobStatus} (h : WellFormed fmt (.obj j))
    (hfields : ∀ e ∈ fields, WellFormed fmt e.2) (htr : jobTransition env new fields j = .ok j') :
    WellFormed fmt (.obj j') := by
  obtain ⟨_, rfl⟩ := Lifecycle.transition_eq_ok.mp htr
  exact ((h.update hfields).set _ (wellFormed_str _)).set _ (wellFormed_stamp env)

/-- Marking a proposal keeps it well formed. -/
theorem wellFormed_markExpired (h : WellFormed fmt (.obj p)) :
    WellFormed fmt (.obj (ProposalStore.markExpired env p)) :=
  ((h.set _ (wellFormed_str _)).set _ (wellFormed_stamp env)).set _ (wellFormed_str _)

end Records

section Sessions

variable {fmt : FloatFormat} {env : Env} {params data data' fp : Obj} {sid client : Json} {st st' : Store}
  {t t' : Tunnel}

/-- The identifying members of a client are values if the client is one. -/
theorem wellFormed_fingerprintOf (h : WellFormed fmt client) (hfp : Registry.fingerprintOf client = .ok fp) :
    WellFormed fmt (.obj fp) := by
  cases client with
  | obj members =>
    obtain rfl : _ = fp := Except.ok.inj hfp
    refine wellFormed_obj_iff.mpr ⟨?_, ?_⟩
    · have hkeys : ∀ names : List String, ((names.filterMap fun k =>
          if (Obj.get members k).truthy then some (k, Obj.get members k) else none).map Prod.fst).Sublist names := by
        intro names
        induction names with
        | nil => exact .slnil
        | cons k names ih =>
          rw [List.filterMap_cons]
          by_cases htruthy : (Obj.get members k).truthy = true
          · simpa [htruthy] using ih.cons_cons k
          · simpa [htruthy] using ih.cons k
      have hnames : Registry.fingerprintMembers.Nodup := by decide
      exact hnames.sublist (hkeys _)
    · intro e he
      obtain ⟨k, _, hk⟩ := List.mem_filterMap.mp he
      split at hk
      · obtain rfl : _ = e := Option.some.inj hk
        exact h.get k
      · cases hk
  | _ => cases hfp

/-- What is found under an id. -/
theorem exec_getRecord_ok {rec : Option Obj} (h : (getRecord sid).exec st = (.ok rec, st')) :
    st' = st ∧ ∃ k, sid.key? = some k ∧ rec = st.records.get? k := by
  cases hkey : sid.key? with
  | none => simp [getRecord, Prog.exec_bind, hashKey, hkey] at h
  | some k =>
    simp only [getRecord, Prog.exec_bind, hashKey, hkey, Prog.exec_ofExcept, Prog.exec_get, Prog.exec_pure,
      Prod.mk.injEq, Except.ok.injEq] at h
    exact ⟨h.2.symm, k, rfl, h.1.symm⟩

/-- An empty object is well formed. -/
theorem wellFormed_empty : WellFormed fmt (.obj []) := wellFormed_obj_iff.mpr ⟨List.nodup_nil, by simp⟩

/-- The fingerprint of a session is well formed. -/
theorem wellFormed_sessionFingerprint (h : SessionValues fmt st)
    (hexec : (Registry.sessionFingerprint sid).exec st = (.ok (some fp), st')) : WellFormed fmt (.obj fp) := by
  unfold Registry.sessionFingerprint at hexec
  split at hexec
  · cases hexec
  · obtain ⟨rec, st₁, hget, hread⟩ := Prog.exec_bind_eq_ok hexec
    obtain ⟨fp', st₂, hfp, hlast⟩ := Prog.exec_bind_eq_ok hread
    obtain ⟨_, k, _, rfl⟩ := exec_getRecord_ok hget
    have hrec : WellFormed fmt (.obj ((st.records.get? k).getD [])) := by
      cases hr : st.records.get? k with
      | none => exact wellFormed_empty
      | some r => exact h k r hr
    have hclient : WellFormed fmt (pyOr (Obj.get ((st.records.get? k).getD []) "client") (.obj [])) := by
      unfold pyOr
      split
      · exact hrec.get _
      · exact wellFormed_empty
    rw [Prog.exec_ofExcept, Prod.mk.injEq] at hfp
    have hvalue := wellFormed_fingerprintOf hclient hfp.1
    rw [Prog.exec_pure, Prod.mk.injEq] at hlast
    have hsome := Except.ok.inj hlast.1
    split at hsome
    · cases hsome
    · obtain rfl : fp' = fp := Option.some.inj hsome
      exact hvalue

/-- Binding a session to a payload. -/
theorem wellFormed_bindSession (hsessions : SessionValues fmt t.registry) (hsid : WellFormed fmt sid)
    (h : WellFormed fmt (.obj data)) (hexec : (bindSession sid data).exec t = (.ok data', t')) :
    WellFormed fmt (.obj data') := by
  obtain ⟨found, t₁, hfound, hexec⟩ := Prog.exec_bind_eq_ok hexec
  rw [exec_onRegistry, Prod.mk.injEq] at hfound
  cases found with
  | none =>
    obtain rfl : Obj.set data "session" sid = data' := by simpa using congrArg Prod.fst hexec
    exact h.set _ hsid
  | some fp =>
    obtain rfl : Obj.set (Obj.set data "session" sid) "session_fingerprint" (.obj fp) = data' := by
      simpa using congrArg Prod.fst hexec
    have hfp : WellFormed fmt (.obj fp) := wellFormed_sessionFingerprint hsessions (Prod.ext hfound.1 rfl)
    exact (h.set _ hsid).set _ hfp

/-- A payload that is bound to its session is well formed. -/
theorem wellFormed_bindActor (hsessions : SessionValues fmt t.registry) (hparams : WellFormed fmt (.obj params))
    (h : WellFormed fmt (.obj data)) (hexec : (bindActor params data).exec t = (.ok data', t')) :
    WellFormed fmt (.obj data') := by
  obtain ⟨data₁, t₁, hsession, hexec⟩ := Prog.exec_bind_eq_ok hexec
  have hbound : WellFormed fmt (.obj data₁) := by
    unfold bindTransactionSession at hsession
    dsimp only at hsession
    split at hsession
    · exact wellFormed_bindSession hsessions (hparams.get _) h hsession
    · obtain rfl : data = data₁ := by simpa using congrArg Prod.fst hsession
      exact h
  obtain rfl : _ = data' := by simpa using congrArg Prod.fst hexec
  split
  · exact hbound.set _ (hparams.get _)
  · exact hbound

/-- A session that was seen is stored again. -/
theorem sessionValues_touch (hclock : Clock fmt env) (sid : Json) :
    Prog.Keeps (fun st st' => SessionValues fmt st → SessionValues fmt st') (Registry.touch env sid) := by
  intro st h
  unfold Registry.touch
  cases hkey : sid.key? with
  | none => simpa [Prog.exec_bind, hashKey, hkey] using h
  | some key =>
    cases hrec : st.records.get? key with
    | none => simpa [Prog.exec_bind, hashKey, hkey, hrec] using h
    | some rec =>
      simp only [Prog.exec_bind, hashKey, hkey, Prog.exec_ofExcept, Prog.exec_get, hrec, Prog.exec_set]
      generalize hseen : Obj.set (Obj.set rec "last_seen" env.stamp) "_last_ts" (.float (.finite env.now)) = seen
      obtain ⟨writes, hpersist⟩ := exec_persist env "session_id" seen { st with records := st.records.insert key seen }
      rw [hpersist]
      intro k r hr
      rw [Dict.get?_insert] at hr
      split at hr
      · obtain rfl : seen = r := Option.some.inj hr
        rw [← hseen]
        exact ((h key rec hrec).set _ (wellFormed_stamp env)).set _ hclock
      · exact h k r hr

/-- So is that of a job. -/
theorem wellFormed_bindJobSession (hclock : Clock fmt env) (hsessions : SessionValues fmt t.registry)
    (hparams : WellFormed fmt (.obj params)) (h : WellFormed fmt (.obj data))
    (hexec : (bindJobSession env params data).exec t = (.ok data', t')) : WellFormed fmt (.obj data') := by
  unfold bindJobSession at hexec
  dsimp only at hexec
  split at hexec
  · obtain ⟨_, t₁, htouch, hexec⟩ := Prog.exec_bind_eq_ok hexec
    have hkept := sessionValues_touch hclock (Obj.get params "session_id") t.registry hsessions
    rw [exec_onRegistry, Prod.mk.injEq] at htouch
    rw [← htouch.2] at hexec
    exact wellFormed_bindSession hkept (hparams.get _) h hexec
  · obtain rfl : data = data' := by simpa using congrArg Prod.fst hexec
    exact h

end Sessions

section Stored

variable {fmt : FloatFormat} {env : Env} {params r : Obj} {t : Tunnel} {k : Key}

/-- What a request would store is a value. -/
theorem wellFormed_storesProposal (hclock : Clock fmt env) (hparams : WellFormed fmt (.obj params))
    (h : StoresProposal env params t k r) : WellFormed fmt (.obj r) := by
  obtain ⟨data, hdata, _, rfl, _⟩ := h
  have hvalue := hparams.get "proposal"
  rw [hdata] at hvalue
  exact wellFormed_makeProposal hclock hvalue

/-- A transaction that is stored is well formed. -/
theorem wellFormed_storesTransaction (hclock : Clock fmt env) (hsessions : SessionValues fmt t.registry)
    (hparams : WellFormed fmt (.obj params)) (h : StoresTransaction env params t k r) : WellFormed fmt (.obj r) := by
  obtain ⟨data, data', t', hdata, hbound, rfl, _⟩ := h
  have hvalue := hparams.get "transaction"
  rw [hdata] at hvalue
  exact wellFormed_makeTransaction hclock (wellFormed_bindActor hsessions hparams hvalue hbound)

/-- So is a job that is stored. -/
theorem wellFormed_storesJob (hclock : Clock fmt env) (hsessions : SessionValues fmt t.registry)
    (hparams : WellFormed fmt (.obj params)) (h : StoresJob env params t k r) : WellFormed fmt (.obj r) := by
  obtain ⟨t', ⟨data, data', hdata, hbound, rfl⟩, _⟩ := h
  have hvalue := hparams.get "job"
  rw [hdata] at hvalue
  exact wellFormed_makeJob (wellFormed_bindJobSession hclock hsessions hparams hvalue hbound)

end Stored

end VirtuosoFlow.Tunnel
