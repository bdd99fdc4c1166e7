import VirtuosoFlow.Tunnel.Written
import VirtuosoFlow.Base.Run
import VirtuosoFlow.Base.StableSort

/-!
# The result that the freshness guard serves

`fresh_done` takes the first done job of a fingerprint from the list that is sorted by `created_at`, latest
first. The stamps are whole seconds, and the sort is stable: of the jobs of one second it lists the one first
that was created first.
-/

namespace VirtuosoFlow.Tunnel

open Base

/-- `create(data)`. -/
def JobStore.create (env : Env) (data : Obj) : Prog PyExc Store Obj := add env (makeJob env data)

/-- The calls that change a job store. -/
inductive JobCall where
  | create (data : Obj)
  | markRunning (id : Json)
  | markDone (id resultId runId : Json)
  | markFailed (id error : Json)
  | cancel (id : Json)

/-- One call of the store. -/
def JobCall.run (env : Env) : JobCall → Prog PyExc Store Obj
  | .create data => JobStore.create env data
  | .markRunning id => JobStore.markRunning env id
  | .markDone id resultId runId => JobStore.markDone env id resultId runId
  | .markFailed id error => JobStore.markFailed env id error
  | .cancel id => JobStore.cancel env id

/-- A job store that starts empty, under any calls. -/
def jobMachine : Machine Store (Env × JobCall) (Except PyExc Obj) where
  init st := st = .empty
  step i st := (i.2.run i.1).exec st

/-- No job is created with a `created_at` of the client's. -/
def Unstamped (_ : Store) (i : Env × JobCall) : Prop :=
  match i.2 with
  | .create data => data.lookup "created_at" = none
  | _ => True

/-- The key of the job that a call creates: that of its id, if it is free. -/
def createdKey (env : Env) (st : Store) : JobCall → Option Key
  | .create data => (Obj.get (makeJob env data) "job_id").key?.filter fun k => (st.records.get? k).isNone
  | _ => none

/-- The keys of the jobs created in a run, first to last. -/
def created (h : List (Entry Store (Env × JobCall) (Except PyExc Obj))) : List Key :=
  h.filterMap fun e => createdKey e.input.1 e.before e.input.2

/-- When a job says that it was created. -/
def createdAt (r : Obj) : String :=
  match Obj.getD r "created_at" (.str "") with
  | .str s => s
  | _ => ""

/-- A stored job is done, and has this fingerprint. -/
structure Hit (st : Store) (fingerprint : Json) (k : Key) (r : Obj) : Prop where
  stored : st.records.get? k = some r
  done : Obj.get r "status" = .str "done"
  fingerprint : (Obj.get r "inputs_fingerprint").pyEq fingerprint = true

/-- Of the done jobs with this fingerprint, this one was created last. -/
def CreatedLast (h : List (Entry Store (Env × JobCall) (Except PyExc Obj))) (st : Store) (fingerprint : Json)
    (k : Key) (r : Obj) : Prop :=
  Hit st fingerprint k r ∧ ∀ k' r', Hit st fingerprint k' r' → k' ≠ k → [k', k].Sublist (created h)

section Truth

variable {v w : Json}

/-- What equals a hashable value has its key. -/
theorem key?_of_pyEq {k : Key} (hv : v.key? = some k) (h : v.pyEq w = true) : w.key? = some k := by
  cases v with
  | arr xs => simp [Json.key?] at hv
  | obj xs => simp [Json.key?] at hv
  | _ =>
    simp only [Json.pyEq, hv] at h
    cases hw : w.key? with
    | none => cases k <;> simp [hw] at h
    | some k' => cases k <;> simp_all

/-- Equal values have one truth. -/
theorem truthy_of_pyEq (h : v.pyEq w = true) : v.truthy = w.truthy := by
  cases hv : v.key? with
  | some k => rw [Json.truthy_of_key? hv, Json.truthy_of_key? (key?_of_pyEq hv h)]
  | none =>
    -- only lists and dicts have no key, and equal ones have one length
    cases v with
    | arr xs =>
      cases w with
      | arr ys => cases xs <;> cases ys <;> simp_all [Json.pyEq, Json.pyEqList, Json.truthy]
      | _ => simp [Json.pyEq, Json.key?] at h
    | obj xs =>
      cases w with
      | obj ys => cases xs <;> cases ys <;> simp_all [Json.pyEq, Json.truthy]
      | _ => simp [Json.pyEq, Json.key?] at h
    | float x => cases x <;> simp [Json.key?] at hv
    | _ => simp [Json.key?] at hv

end Truth

section Sorting

variable {κ : Type*} [LinearOrder κ] {key : Obj → Json} {g : Obj → κ} {l : List Obj} {r : Obj}

/-- Inserting into a sorted list keeps it sorted. -/
theorem insertDesc_eq (hkey : ∀ x ∈ l, (key r).lt? (key x) = some (decide (g r < g x))) :
    insertDesc key r l = .ok (l.orderedInsert (fun a b => g b ≤ g a) r) := by
  induction l with
  | nil => rfl
  | cons x rest ih =>
    have hrest := ih fun y hy => hkey y (List.mem_cons_of_mem _ hy)
    rw [insertDesc, hkey x List.mem_cons_self, List.orderedInsert_cons]
    by_cases hlt : g r < g x
    · rw [decide_eq_true hlt, if_neg (not_le.mpr hlt)]
      dsimp only
      rw [hrest]
      rfl
    · rw [decide_eq_false hlt, if_pos (not_lt.mp hlt)]

/-- `sorted(.., reverse=True)` on keys that compare as the values of a linear order is the stable sort. -/
theorem sortedDesc_eq (key : Obj → Json) (g : Obj → κ)
    (hkey : ∀ a ∈ l, ∀ b ∈ l, (key a).lt? (key b) = some (decide (g a < g b))) :
    sortedDesc key l = .ok (l.insertionSort fun a b => g b ≤ g a) := by
  induction l with
  | nil => rfl
  | cons r rest ih =>
    have hrest := ih fun a ha b hb => hkey a (List.mem_cons_of_mem _ ha) b (List.mem_cons_of_mem _ hb)
    rw [sortedDesc, hrest, List.insertionSort_cons]
    refine insertDesc_eq fun x hx => ?_
    rw [List.mem_insertionSort] at hx
    exact hkey r List.mem_cons_self x (List.mem_cons_of_mem _ hx)

end Sorting

section Runs

variable {env : Env} {call : JobCall} {data : Obj} {st : Store} {k : Key} {r r' : Obj}
variable {h : List (Entry Store (Env × JobCall) (Except PyExc Obj))}

/-- A job is stored under its own id, stamped with a string, and its fingerprint is true. -/
structure FiledJob (k : Key) (r : Obj) : Prop where
  id : (Obj.get r "job_id").key? = some k
  stamped : r.lookup "created_at" = some (.str (createdAt r))
  fingerprinted : (Obj.get r "inputs_fingerprint").truthy = true

/-- The targets of the calls. -/
def callTargets : List JobStatus := [.running, .done, .failed, .cancelled]

/-- What one call does to the records. -/
inductive CallEffect (env : Env) (st : Store) (call : JobCall) : Dict Key Obj → Prop
  | none : createdKey env st call = none → CallEffect env st call st.records
  | create {data : Obj} {k : Key} : call = .create data → createdKey env st call = some k →
      (Obj.get (makeJob env data) "job_id").key? = some k → st.records.get? k = Option.none →
      CallEffect env st call (st.records.insert k (makeJob env data))
  | move {k : Key} {r r' : Obj} : createdKey env st call = Option.none → st.records.get? k = some r →
      jobNext callTargets r r' → CallEffect env st call (st.records.insert k r')

/-- Creating a job adds it or raises. -/
theorem callEffect_create (env : Env) (st : Store) (data : Obj) :
    CallEffect env st (.create data) ((JobStore.create env data).exec st).2.records := by
  have hid : (Obj.get (makeJob env data) "job_id").truthy = true := truthy_id_makeJob
  rw [JobStore.create, jobAdd_eq env hid]
  rcases insertNew_persist_snd env "job_id" "duplicate job_id: %s" (makeJob env data) st
    with ⟨k, hkey, hfree, hexec⟩ | ⟨htaken, hexec⟩
  · have hcreated : createdKey env st (.create data) = some k := by simp [createdKey, hkey, hfree]
    obtain ⟨writes, hpersist⟩ := exec_persist env "job_id" (makeJob env data)
      { st with records := st.records.insert k (makeJob env data) }
    rw [hexec, hpersist]
    exact .create rfl hcreated hkey hfree
  · have hcreated : createdKey env st (.create data) = none := by
      refine Option.eq_none_iff_forall_ne_some.mpr fun k hk => ?_
      obtain ⟨hkey, hfree⟩ := Option.filter_eq_some_iff.mp hk
      exact htaken k hkey (Option.isNone_iff_eq_none.mp hfree)
    rw [hexec]
    exact .none hcreated

/-- Setting a status changes that job. -/
theorem callEffect_set {new : JobStatus} {fields : Obj} (id : Json) (hnone : createdKey env st call = none)
    (hfields : ∀ e ∈ fields, e.1 ∈ jobTouched) (hnew : new ∈ callTargets) :
    CallEffect env st call ((JobStore.set env new fields id).exec st).2.records := by
  unfold JobStore.set
  rcases setStatus_cases env "job_id" "unknown job_id: %s" (jobTransition env new fields) id st
    with ⟨e, hexec⟩ | ⟨k, r, r', writes, -, hrec, htr, hexec⟩
  · rw [hexec]
    exact .none hnone
  · rw [hexec]
    exact .move hnone hrec (jobNext_of_transition hfields hnew htr)

/-- What a call does to the jobs. -/
theorem callEffect (env : Env) (st : Store) (call : JobCall) :
    CallEffect env st call ((call.run env).exec st).2.records := by
  cases call with
  | create data => exact callEffect_create env st data
  | markRunning id => exact callEffect_set id rfl (by simp) (by simp [callTargets])
  | markDone id resultId runId => exact callEffect_set id rfl JobStore.doneFields_touched (by simp [callTargets])
  | markFailed id error => exact callEffect_set id rfl JobStore.failedFields_touched (by simp [callTargets])
  | cancel id => exact callEffect_set id rfl (by simp) (by simp [callTargets])

/-- Every job has a fingerprint. -/
theorem truthy_fingerprint_makeJob : (Obj.get (makeJob env data) "inputs_fingerprint").truthy = true := by
  unfold makeJob
  dsimp only
  split <;> split <;> simp_all [computeFingerprint]

/-- A new job is filed under its id. -/
theorem filedJob_makeJob (hfree : data.lookup "created_at" = none)
    (hkey : (Obj.get (makeJob env data) "job_id").key? = some k) : FiledJob k (makeJob env data) := by
  have hstamp : (makeJob env data).lookup "created_at" = some env.stamp := by
    unfold makeJob
    dsimp only
    split <;> split <;> simp [Obj.getD, hfree]
  have hcreated : createdAt (makeJob env data) = env.iso env.now := by
    simp [createdAt, Obj.getD, hstamp, Env.stamp]
  exact ⟨hkey, by rw [hstamp, hcreated]; rfl, truthy_fingerprint_makeJob⟩

/-- The life of a job leaves its id, its stamp and its fingerprint alone. -/
theorem FiledJob.next (hfiled : FiledJob k r) (hnext : jobNext callTargets r r') : FiledJob k r' := by
  obtain ⟨_, _, _, _, _, _, hkeep⟩ := hnext
  have hid := hkeep "job_id" (by simp [jobTouched])
  have hstamp := hkeep "created_at" (by simp [jobTouched])
  have hfingerprint := hkeep "inputs_fingerprint" (by simp [jobTouched])
  constructor
  · simpa only [Obj.get, Obj.getD, hid] using hfiled.id
  · simpa only [createdAt, Obj.getD, hstamp] using hfiled.stamped
  · simpa only [Obj.get, Obj.getD, hfingerprint] using hfiled.fingerprinted

/-- The entries of the store are the jobs created in the run, in this order, each filed. -/
structure InOrder (h : List (Entry Store (Env × JobCall) (Except PyExc Obj))) (st : Store) : Prop where
  order : st.records.entries.map Prod.fst = created h
  filed : ∀ k r, st.records.get? k = some r → FiledJob k r

/-- Every call keeps the order of creation. -/
theorem inOrder_step {i : Env × JobCall} (hok : Unstamped st i) (hinv : InOrder h st) :
    InOrder (h ++ [jobMachine.fire st i]) (jobMachine.step i st).2 := by
  obtain ⟨env, call⟩ := i
  have hcreated : created (h ++ [jobMachine.fire st (env, call)]) =
      created h ++ (createdKey env st call).toList := by
    rw [created, List.filterMap_append]
    cases hkey : createdKey env st call <;> simp [created, Machine.fire, hkey]
  generalize hrecords : (jobMachine.step (env, call) st).2.records = records
  have heffect : CallEffect env st call records := hrecords ▸ callEffect env st call
  constructor
  · rw [hcreated, hrecords]
    cases heffect with
    | none hnone => simp [hnone, hinv.order]
    | create _ hkey _ hfree => simp [hkey, Dict.entries_insert_of_none _ hfree, hinv.order]
    | move hnone hrec _ =>
      obtain ⟨l₁, l₂, hsplit⟩ := Dict.split_of_get? hrec
      rw [hnone, Dict.entries_insert_of_split hsplit, ← hinv.order, hsplit]
      simp
  · rw [hrecords]
    intro k r hr
    cases heffect with
    | none _ => exact hinv.filed k r hr
    | create hcall _ hkey hfree =>
      rw [Dict.get?_insert] at hr
      split at hr
      · obtain rfl := Option.some.inj hr
        subst k
        subst call
        exact filedJob_makeJob hok hkey
      · exact hinv.filed k r hr
    | move _ hrec hnext =>
      rw [Dict.get?_insert] at hr
      split at hr
      · obtain rfl := Option.some.inj hr
        subst k
        exact (hinv.filed _ _ hrec).next hnext
      · exact hinv.filed k r hr

/-- It is kept by every run. -/
theorem inOrder_of_run (hrun : Run jobMachine Unstamped h st) : InOrder h st := by
  induction hrun with
  | init hs =>
    obtain rfl := hs
    exact ⟨rfl, fun k r hr => nomatch hr⟩
  | step _ hok ih => exact inOrder_step hok ih

end Runs

section Guard

variable {st : Store} {fingerprint : Json} {k k' : Key} {r r' : Obj}
variable {h : List (Entry Store (Env × JobCall) (Except PyExc Obj))}

/-- A job is filed under one key. -/
theorem FiledJob.key_eq (hr : FiledJob k r) (hr' : FiledJob k' r) : k = k' :=
  Option.some.inj (hr.id.symm.trans hr'.id)

/-- No record is stored twice. -/
theorem InOrder.nodup_values (hinv : InOrder h st) : st.records.values.Nodup := by
  have hentries : st.records.entries.Nodup := .of_map Prod.fst st.records.nodup
  refine hentries.map_on ?_
  rintro ⟨k, r⟩ hk ⟨k', r'⟩ hk' hsame
  obtain rfl : r = r' := hsame
  have hfiled := hinv.filed k r (Dict.mem_entries_iff.mp hk)
  have hfiled' := hinv.filed k' r (Dict.mem_entries_iff.mp hk')
  rw [hfiled.key_eq hfiled']

/-- Two jobs stand in the store in the order in which they were created. -/
theorem InOrder.pair_values (hinv : InOrder h st) (hr : st.records.get? k = some r)
    (hr' : st.records.get? k' = some r') (hbefore : [k', k].Sublist (created h)) :
    [r', r].Sublist st.records.values := by
  rw [← hinv.order] at hbefore
  obtain ⟨l, hl, hmap⟩ := List.sublist_map_iff.mp hbefore
  obtain ⟨⟨a, x⟩, l, rfl, rfl, hrest⟩ := List.map_eq_cons_iff.mp hmap.symm
  obtain ⟨⟨b, y⟩, l, rfl, rfl, hnil⟩ := List.map_eq_cons_iff.mp hrest
  obtain rfl := List.map_eq_nil_iff.mp hnil
  obtain rfl : x = r' := Option.some.inj ((Dict.mem_entries_iff.mp (hl.subset (by simp))).symm.trans hr')
  obtain rfl : y = r := Option.some.inj ((Dict.mem_entries_iff.mp (hl.subset (by simp))).symm.trans hr)
  exact hl.map Prod.snd

/-- The list of the done jobs, latest stamp first. -/
theorem InOrder.exec_list (hinv : InOrder h st) : (JobStore.list (.str "done")).exec st =
    (.ok ((st.records.values.filter fun r => (Obj.get r "status").pyEq (.str "done")).insertionSort
      fun a b => createdAt b ≤ createdAt a), st) := by
  have hkeys : ∀ r ∈ st.records.values, Obj.getD r "created_at" (.str "") = .str (createdAt r) := by
    intro r hr
    obtain ⟨k, hk⟩ := Dict.mem_values_iff.mp hr
    rw [Obj.getD, (hinv.filed k r hk).stamped, Option.getD_some]
  have hsorted := sortedDesc_eq (fun j => Obj.getD j "created_at" (.str "")) createdAt
    (l := st.records.values.filter fun r => (Obj.get r "status").pyEq (.str "done")) (by
      intro a ha b hb
      rw [hkeys a (List.mem_filter.mp ha).1, hkeys b (List.mem_filter.mp hb).1]
      rfl)
  have hdone : (Json.str "done").truthy = true := by decide
  simp only [JobStore.list, listRecords, Prog.exec_bind, Prog.exec_get, hdone, if_true, Prog.exec_ofExcept, hsorted]

/-- What the guard answers: nothing without a hit, and else the first created of the hits with the latest
stamp. -/
theorem InOrder.freshDone_first (hinv : InOrder h st) (fingerprint : Json) :
    ∃ out, (JobStore.freshDone fingerprint).exec st = (.ok out, st) ∧
      (out = none ↔ ∀ k r, ¬ Hit st fingerprint k r) ∧
      ∀ r, out = some r → ∃ k, Hit st fingerprint k r ∧ ∀ k' r', Hit st fingerprint k' r' → k' ≠ k →
        createdAt r' ≤ createdAt r ∧ (createdAt r' = createdAt r → ¬ [k', k].Sublist (created h)) := by
  by_cases htruthy : fingerprint.truthy = true
  · generalize hdone : st.records.values.filter (fun r => (Obj.get r "status").pyEq (.str "done")) = done
    have hmem : ∀ r, r ∈ done ↔ (∃ k, st.records.get? k = some r) ∧ Obj.get r "status" = .str "done" := by
      intro r
      rw [← hdone, List.mem_filter, Dict.mem_values_iff, Json.pyEq_str]
    have hexec : (JobStore.freshDone fingerprint).exec st =
        (.ok ((done.insertionSort fun a b => createdAt b ≤ createdAt a).filter
          fun j => (Obj.get j "inputs_fingerprint").pyEq fingerprint).head?, st) := by
      have hlist := hinv.exec_list
      rw [hdone] at hlist
      unfold JobStore.freshDone
      rw [if_neg (by simp [htruthy]), Prog.exec_bind_ok hlist]
      rfl
    refine ⟨_, hexec, ?_, ?_⟩
    · rw [List.head?_eq_none_iff, List.filter_eq_nil_iff]
      constructor
      · intro hnone k r hhit
        exact hnone r ((List.mem_insertionSort _).mpr ((hmem r).mpr ⟨⟨k, hhit.stored⟩, hhit.done⟩))
          hhit.fingerprint
      · intro hnone r hr hfingerprint
        obtain ⟨⟨k, hk⟩, hstatus⟩ := (hmem r).mp ((List.mem_insertionSort _).mp hr)
        exact hnone k r ⟨hk, hstatus, hfingerprint⟩
    · intro r hr
      have hpassed := List.mem_filter.mp (List.mem_of_mem_head? hr)
      obtain ⟨⟨k, hk⟩, hstatus⟩ := (hmem r).mp ((List.mem_insertionSort _).mp hpassed.1)
      refine ⟨k, ⟨hk, hstatus, hpassed.2⟩, fun k' r' hhit hne => ?_⟩
      have hne' : r' ≠ r := by
        rintro rfl
        exact hne ((hinv.filed k' r' hhit.stored).key_eq (hinv.filed k r' hk))
      have hnodup : done.Nodup := hdone ▸ hinv.nodup_values.filter _
      have : Std.Total fun a b : Obj => createdAt b ≤ createdAt a :=
        ⟨fun a b => le_total (createdAt b) (createdAt a)⟩
      have : IsTrans Obj fun a b => createdAt b ≤ createdAt a := ⟨fun _ _ _ h h' => h'.trans h⟩
      obtain ⟨hle, hfirst⟩ := rel_of_head_insertionSort hnodup hr
        ((hmem r').mpr ⟨⟨k', hhit.stored⟩, hhit.done⟩)
        hhit.fingerprint hne'
      refine ⟨hle, fun hsame hbefore => hfirst hsame.ge ?_⟩
      have hpair := (hinv.pair_values hk hhit.stored hbefore).filter
        fun r => (Obj.get r "status").pyEq (.str "done")
      have hkept : [r', r].filter (fun r => (Obj.get r "status").pyEq (.str "done")) = [r', r] := by
        simp [hhit.done, hstatus]
      rwa [hkept, hdone] at hpair
  · refine ⟨none, ?_, ?_, nofun⟩
    · unfold JobStore.freshDone
      rw [if_pos (by simp [htruthy])]
      rfl
    · refine iff_of_true rfl fun k r hhit => htruthy ?_
      rw [← truthy_of_pyEq hhit.fingerprint]
      exact (hinv.filed k r hhit.stored).fingerprinted

/-- One of the hits was created last. -/
theorem InOrder.exists_createdLast (hinv : InOrder h st) (hhit : Hit st fingerprint k r) :
    ∃ k₀ r₀, CreatedLast h st fingerprint k₀ r₀ := by
  classical
  generalize hhits : st.records.entries.filter (fun e => decide (Hit st fingerprint e.1 e.2)) = hits
  have hmem : ∀ k r, (k, r) ∈ hits ↔ Hit st fingerprint k r := by
    intro k r
    rw [← hhits, List.mem_filter, Dict.mem_entries_iff]
    simp only [decide_eq_true_eq, and_iff_right_iff_imp]
    exact Hit.stored
  rcases List.eq_nil_or_concat hits with hnil | ⟨before, ⟨k₀, r₀⟩, hconcat⟩
  · have hin := (hmem k r).mpr hhit
    rw [hnil] at hin
    cases hin
  · rw [List.concat_eq_append] at hconcat
    refine ⟨k₀, r₀, (hmem k₀ r₀).mp (by simp [hconcat]), fun k' r' hhit' hne => ?_⟩
    have hin := (hmem k' r').mpr hhit'
    rw [hconcat, List.mem_append, List.mem_singleton] at hin
    have hbefore : (k', r') ∈ before := hin.resolve_right fun heq => hne (congrArg Prod.fst heq)
    have hpair : [(k', r'), (k₀, r₀)].Sublist hits := by
      rw [hconcat]
      exact (List.singleton_sublist.mpr hbefore).append (List.Sublist.refl [(k₀, r₀)])
    rw [← hhits] at hpair
    rw [← hinv.order]
    exact (hpair.trans List.filter_sublist).map Prod.fst

/-- Each job is created once. -/
theorem InOrder.nodup_created (hinv : InOrder h st) : (created h).Nodup := hinv.order ▸ st.records.nodup

/-- Only one job was created last. -/
theorem CreatedLast.unique (hinv : InOrder h st) (hr : CreatedLast h st fingerprint k r)
    (hr' : CreatedLast h st fingerprint k' r') : k = k' ∧ r = r' := by
  have hkey : k = k' := by
    by_contra hne
    exact pair_sublist_asymm hinv.nodup_created (hr.2 k' r' hr'.1 (Ne.symm hne)) (hr'.2 k r hr.1 hne)
  subst hkey
  exact ⟨rfl, Option.some.inj (hr.1.stored.symm.trans hr'.1.stored)⟩

end Guard

/-- The guard answers nothing just when no done job has the fingerprint. Else it answers the one that was
created last just when that one is stamped later than every other: in one second it is the first. -/
theorem freshDone_newest_iff {h : List (Entry Store (Env × JobCall) (Except PyExc Obj))} {st : Store}
    (hrun : Run jobMachine Unstamped h st) (fingerprint : Json) :
    ∃ out, (JobStore.freshDone fingerprint).exec st = (.ok out, st) ∧
      (out = none ↔ ∀ k r, ¬ Hit st fingerprint k r) ∧
      ((∀ r, out = some r → ∃ k, CreatedLast h st fingerprint k r) ↔
        ∀ k r, CreatedLast h st fingerprint k r → ∀ k' r', Hit st fingerprint k' r' → k' ≠ k →
          createdAt r' < createdAt r) := by
  have hinv := inOrder_of_run hrun
  obtain ⟨out, hexec, hnone, hfirst⟩ := hinv.freshDone_first fingerprint
  refine ⟨out, hexec, hnone, ?_, ?_⟩
  · intro hlast k r hr k' r' hhit hne
    obtain ⟨served, rfl⟩ : ∃ served, out = some served := by
      refine Option.ne_none_iff_exists'.mp fun hout => ?_
      exact hnone.mp hout k r hr.1
    obtain ⟨k₀, hserved⟩ := hlast served rfl
    obtain ⟨rfl, rfl⟩ := hr.unique hinv hserved
    obtain ⟨k₁, hhit₁, hbest⟩ := hfirst r rfl
    obtain rfl : k₁ = k := (hinv.filed k₁ r hhit₁.stored).key_eq (hinv.filed k r hr.1.stored)
    obtain ⟨hle, htie⟩ := hbest k' r' hhit hne
    exact lt_of_le_of_ne hle fun hsame => htie hsame (hr.2 k' r' hhit hne)
  · intro hapart r hr
    obtain ⟨k, hhit, hbest⟩ := hfirst r hr
    obtain ⟨k₀, r₀, hlast⟩ := hinv.exists_createdLast hhit
    refine ⟨k, ?_⟩
    by_cases hk : k₀ = k
    · subst hk
      obtain rfl : r₀ = r := Option.some.inj (hlast.1.stored.symm.trans hhit.stored)
      exact hlast
    · have hlater := hapart k₀ r₀ hlast k r hhit (Ne.symm hk)
      exact absurd (hbest k₀ r₀ hlast.1 hk).1 (not_le.mpr hlater)

section Examples

variable {second second' : String} {k : Key} {r : Obj}

/-- The surroundings of the examples in this second. -/
def sampleIn (second : String) : Env := { Env.sample with iso := fun _ => second }

/-- The calls that bring one job to its end within one second. -/
def sampleFinished (second id : String) : List (Env × JobCall) :=
  [(sampleIn second, .create [("job_id", .str id), ("inputs_fingerprint", .str "fp_1")]),
    (sampleIn second, .markRunning (.str id)), (sampleIn second, .markDone (.str id) .null .null)]

/-- Two jobs of one fingerprint, both done. -/
def sampleBoth (second second' : String) : List (Env × JobCall) :=
  sampleFinished second "job_1" ++ sampleFinished second' "job_2"

/-- What becomes of such a job. -/
def sampleDoneIn (second id : String) : Obj :=
  [("job_id", .str id), ("inputs_fingerprint", .str "fp_1"), ("schema_version", .str "0.1"),
    ("status", .str "done"), ("created_at", .str second), ("updated_at", .str second)]

/-- Two jobs are created and done. -/
theorem run_sampleBoth (second second' : String) :
    Run jobMachine Unstamped (jobMachine.trace .empty (sampleBoth second second'))
      (jobMachine.last .empty (sampleBoth second second')) := by
  have hstart : Run jobMachine Unstamped [] .empty := .init rfl
  have hrun := hstart.append_trace (sampleBoth second second') (by
      intro e he
      simp only [sampleBoth, sampleFinished, List.cons_append, List.nil_append, Machine.trace, List.mem_cons,
        List.not_mem_nil, or_false] at he
      rcases he with rfl | rfl | rfl | rfl | rfl | rfl
      · rfl
      · trivial
      · trivial
      · rfl
      · trivial
      · trivial)
  simpa using hrun

/-- Two done jobs of different seconds. -/
def sampleApart : List (Env × JobCall) := sampleBoth "2026-01-01T00:00:00" "2026-01-01T00:00:01"

/-- Both are found, by their seconds. -/
theorem hit_sampleApart (hhit : Hit (jobMachine.last .empty sampleApart) (.str "fp_1") k r) :
    (k = .str "job_1" ∧ createdAt r = "2026-01-01T00:00:00") ∨
      (k = .str "job_2" ∧ createdAt r = "2026-01-01T00:00:01") := by
  have hentries : (jobMachine.last .empty sampleApart).records.entries =
      [(.str "job_1", sampleDoneIn "2026-01-01T00:00:00" "job_1"),
        (.str "job_2", sampleDoneIn "2026-01-01T00:00:01" "job_2")] := rfl
  have hmem := Dict.mem_entries_iff.mpr hhit.stored
  rw [hentries] at hmem
  simp only [List.mem_cons, Prod.mk.injEq, List.not_mem_nil, or_false] at hmem
  rcases hmem with ⟨rfl, rfl⟩ | ⟨rfl, rfl⟩
  · exact .inl ⟨rfl, rfl⟩
  · exact .inr ⟨rfl, rfl⟩

/-- The one created later is given. -/
theorem freshDone_newest_iff_sample : ∃ out k,
    ((JobStore.freshDone (.str "fp_1")).exec (jobMachine.last .empty sampleApart)).1 = .ok (some out) ∧
    CreatedLast (jobMachine.trace .empty sampleApart) (jobMachine.last .empty sampleApart) (.str "fp_1") k out := by
  obtain ⟨out, hexec, -, hiff⟩ := freshDone_newest_iff
    (run_sampleBoth "2026-01-01T00:00:00" "2026-01-01T00:00:01") (.str "fp_1")
  obtain ⟨served, hserved⟩ : ∃ served,
      ((JobStore.freshDone (.str "fp_1")).exec (jobMachine.last .empty sampleApart)).1 = .ok (some served) :=
    ⟨_, rfl⟩
  obtain rfl : out = some served := Except.ok.inj ((congrArg Prod.fst hexec).symm.trans hserved)
  refine ⟨served, ?_⟩
  obtain ⟨k, hlast⟩ := hiff.mpr (by
    intro k r hlast k' r' hhit hne
    rcases hit_sampleApart hlast.1 with ⟨rfl, hr⟩ | ⟨rfl, hr⟩
    · obtain ⟨r₂, hr₂⟩ : ∃ r₂,
          Hit (jobMachine.last .empty sampleApart) (.str "fp_1") (.str "job_2") r₂ :=
        ⟨_, rfl, rfl, by decide⟩
      have hturned := hlast.2 _ _ hr₂ (by decide)
      exact absurd hturned (by decide)
    · rcases hit_sampleApart hhit with ⟨rfl, hr'⟩ | ⟨rfl, -⟩
      · rw [hr, hr']
        decide
      · exact absurd rfl hne) served rfl
  exact ⟨k, hserved, hlast⟩

/-- Of two jobs of one second the guard serves the first. -/
theorem freshDone_first_of_second : ¬ ∀ (h : List (Entry Store (Env × JobCall) (Except PyExc Obj))) (st : Store)
    (fingerprint : Json), Run jobMachine Unstamped h st →
      ∀ r, ((JobStore.freshDone fingerprint).exec st).1 = .ok (some r) →
        ∃ k, CreatedLast h st fingerprint k r := by
  intro hall
  obtain ⟨r, hserved, hid⟩ : ∃ r, ((JobStore.freshDone (.str "fp_1")).exec
      (jobMachine.last .empty (sampleBoth "2026-01-01T00:00:00" "2026-01-01T00:00:00"))).1 = .ok (some r) ∧
      Obj.get r "job_id" = .str "job_1" := ⟨_, rfl, rfl⟩
  have hrun := run_sampleBoth "2026-01-01T00:00:00" "2026-01-01T00:00:00"
  obtain ⟨k, hlast⟩ := hall _ _ (.str "fp_1") hrun r hserved
  have hkey := ((inOrder_of_run hrun).filed k r hlast.1.stored).id
  rw [hid] at hkey
  obtain rfl : .str "job_1" = k := Option.some.inj hkey
  obtain ⟨r₂, hr₂⟩ : ∃ r₂, Hit (jobMachine.last .empty
      (sampleBoth "2026-01-01T00:00:00" "2026-01-01T00:00:00")) (.str "fp_1") (.str "job_2") r₂ :=
    ⟨_, rfl, rfl, by decide⟩
  have hturned := hlast.2 _ _ hr₂ (by decide)
  exact absurd hturned (by decide)

end Examples

end VirtuosoFlow.Tunnel
