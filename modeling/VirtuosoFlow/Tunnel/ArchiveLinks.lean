import VirtuosoFlow.Tunnel.Archive
import VirtuosoFlow.Tunnel.Dispatch

/-!
# The result ids that jobs and runs carry

What the requests and the runners write into the stores of jobs and runs: a done job and a run carry no
result id but one of a given set, in memory and in every file that is written.
-/

namespace VirtuosoFlow.Tunnel

open Base Base.Posix

/-- All records of a store have a property. -/
def AllRecords (P : Key → Obj → Prop) (st : Store) : Prop := ∀ k r, st.records.get? k = some r → P k r

/-- A store keeps a property of its records and writes only files of one kind. -/
def Appends (P : Key → Obj → Prop) (good : String × Json → Prop) (st st' : Store) : Prop :=
  AllRecords P st → AllRecords P st' ∧ ∃ writes, st'.writes = st.writes ++ writes ∧ ∀ w ∈ writes, good w

/-- The record carries no result id but one of these. -/
def Backed (ids : Json → Prop) (r : Obj) : Prop :=
  Obj.get r "result_id" = .null ∨ ids (Obj.get r "result_id")

/-- A done job names a result, if it names one, that is stored. -/
def DoneBacked (ids : Json → Prop) (j : Obj) : Prop := Obj.get j "status" = .str "done" → Backed ids j

/-- A job is stored under its id. -/
structure JobLinked (ids : Json → Prop) (k : Key) (j : Obj) : Prop where
  key : (Obj.get j "job_id").key? = some k
  done : DoneBacked ids j

/-- A run is stored under its id, which names a directory. -/
structure RunLinked (ids : Json → Prop) (k : Key) (r : Obj) : Prop where
  key : ∃ s, k = .str s ∧ Plain s.toList ∧ Obj.get r "run_id" = .str s
  backed : Backed ids r

/-- The file of a job lies below none of the other stores' directories. -/
def FileApart (home : Place) (id : String) : Prop :=
  ∀ name ∈ ["results", "contexts", "runs"],
    ¬ Inside (storeDir home name) (locate (Archive.jobsDir home) (id ++ ".json").toList)

/-- The file of a job. -/
def JobWrite (home : Place) (ids : Json → Prop) (w : String × Json) : Prop :=
  ∃ s j, w = (s ++ ".json", .obj j) ∧ FileApart home s ∧ DoneBacked ids j

/-- The `run.json` of a run, or another file in its directory. -/
def RunWrite (ids : Json → Prop) (w : String × Json) : Prop :=
  ∃ s, Plain s.toList ∧ ((∃ r, w = (s ++ "/run.json", .obj r) ∧ RunLinked ids (.str s) r) ∨
    ∃ name content, w = (s ++ "/" ++ name, content) ∧ Plain name.toList ∧ name ≠ "run.json")

/-- The stores of jobs and runs go from one state to another. -/
structure KeepsLinks (home : Place) (ids : Json → Prop) (t t' : Tunnel) : Prop where
  jobs : Appends (JobLinked ids) (JobWrite home ids) t.jobs t'.jobs
  runs : Appends (RunLinked ids) (RunWrite ids) t.runs t'.runs

/-- What a runner knows of the result it stored. -/
def RunPoint.Backed (ids : Json → Prop) : RunPoint → Prop
  | .storeResult _ result => (Obj.get result "result_id").truthy = true
  | .linkResult _ result | .setDone _ result | .markDone _ result =>
    (Obj.get result "result_id").truthy = true ∧ ids (Obj.get result "result_id")
  | _ => True

section Store

variable {P : Key → Obj → Prop} {good : String × Json → Prop} {env : Env} {r : Obj} {k : Key} {id : Json} {st : Store}

instance : Std.Refl (Appends P good) :=
  ⟨fun _ h => ⟨h, [], (List.append_nil _).symm, by simp⟩⟩

instance : IsTrans Store (Appends P good) := by
  constructor
  intro st₁ st₂ st₃ h h' hst
  obtain ⟨hst₂, writes, heq, hgood⟩ := h hst
  obtain ⟨hst₃, rest, heq', hgood'⟩ := h' hst₂
  refine ⟨hst₃, writes ++ rest, by rw [heq', heq, List.append_assoc], ?_⟩
  intro w hw
  rcases List.mem_append.mp hw with hmem | hmem
  · exact hgood w hmem
  · exact hgood' w hmem

/-- A good record may be added to good ones. -/
theorem AllRecords.insert (h : AllRecords P st) (hr : P k r) (writes : List (String × Json)) :
    AllRecords P ⟨st.records.insert k r, writes⟩ := by
  intro k' r' hr'
  rw [Dict.get?_insert] at hr'
  split at hr'
  · rename_i hk
    obtain rfl : r = r' := Option.some.inj hr'
    rw [hk]
    exact hr
  · exact h k' r' hr'

/-- What follows for each record follows for all. -/
theorem AllRecords.mono {Q : Key → Obj → Prop} (h : AllRecords P st) (hPQ : ∀ k r, P k r → Q k r) : AllRecords Q st :=
  fun k r hr => hPQ k r (h k r hr)

/-- Inserting a record and then writing files. -/
theorem appends_insert {st' : Store} {writes : List (String × Json)} (hr : P k r)
    (hst' : st' = ⟨st.records.insert k r, st.writes ++ writes⟩) (hgood : ∀ w ∈ writes, good w) :
    Appends P good st st' := by
  rintro h
  rw [hst']
  exact ⟨h.insert hr _, writes, rfl, hgood⟩

/-- What `_persist` leaves of a store. -/
theorem exec_persist_snd (env : Env) (field : String) (r : Obj) (st : Store) :
    ∃ writes, ((persist env field r).exec st).2 = ⟨st.records, st.writes ++ writes⟩ ∧
      ∀ w ∈ writes, ∃ s, Obj.get r field = .str s ∧ w = (s ++ ".json", .obj r) := by
  obtain ⟨all, hexec⟩ := exec_persist env field r st
  by_cases hwritten : ∃ s, FileWritten env field r s
  · obtain ⟨s, hs⟩ := hwritten
    have hwrites : ((persist env field r).exec st).2.writes = st.writes ++ [(s ++ ".json", .obj r)] :=
      writes_persist_written hs
    refine ⟨[(s ++ ".json", .obj r)], ?_, ?_⟩
    · rw [← hwrites, hexec]
    · intro w hw
      refine ⟨s, ?_, List.mem_singleton.mp hw⟩
      simp [Obj.get, Obj.getD, hs.id]
  · have hwrites : ((persist env field r).exec st).2.writes = st.writes :=
      writes_persist_none fun s hs => hwritten ⟨s, hs⟩
    refine ⟨[], ?_, by simp⟩
    rw [List.append_nil, ← hwrites, hexec]

/-- A transition of a record whose result is good. -/
theorem setStatus_appends {field unknown : String} {transition : Obj → Except PyExc Obj}
    (hnext : ∀ k r r', id.key? = some k → P k r → transition r = .ok r' →
      P k r' ∧ ∀ s, Obj.get r' field = .str s → good (s ++ ".json", .obj r')) :
    Prog.Keeps (Appends P good) (setStatus env field unknown transition id) := by
  intro st hst
  rcases setStatus_cases env field unknown transition id st with ⟨e, hexec⟩ | ⟨k, r, r', _, hkey, hr, htr, _⟩
  · rw [hexec]
    exact Std.Refl.refl (r := Appends P good) st hst
  · obtain ⟨hr', hgood⟩ := hnext k r r' hkey (hst k r hr) htr
    obtain ⟨writes, hpersist, hwrites⟩ := exec_persist_snd env field r' { st with records := st.records.insert k r' }
    have hsnd : ((setStatus env field unknown transition id).exec st).2 =
        ⟨st.records.insert k r', st.writes ++ writes⟩ := by
      rw [← hpersist]
      simp only [setStatus, Prog.exec_bind, Prog.exec_ofExcept, hashKey, hkey, Prog.exec_get, hr, htr, Prog.exec_set]
      cases (persist env field r').exec { st with records := st.records.insert k r' } with
      | mk out st' => cases out <;> rfl
    refine appends_insert hr' hsnd ?_ hst
    intro w hw
    obtain ⟨s, hid, rfl⟩ := hwrites w hw
    exact hgood s hid

end Store

section Runs

variable {ids : Json → Prop} {env : Env} {r : Obj} {id : Json} {st : Store}

/-- Persisting a run writes its `run.json` at most. -/
theorem exec_persist_run_snd (env : Env) (r : Obj) (st : Store) :
    ∃ writes, ((RunStore.persist env r).exec st).2 = ⟨st.records, st.writes ++ writes⟩ ∧
      ∀ w ∈ writes, ∃ s, Obj.get r "run_id" = .str s ∧ w = (s ++ "/run.json", .obj r) := by
  unfold RunStore.persist
  cases hid : Obj.get r "run_id" with
  | str s =>
    by_cases hw : (env.dirsOk && env.writable (s ++ "/run.json")) = true
    · exact ⟨[(s ++ "/run.json", .obj r)], by simp [hw], by simp⟩
    · exact ⟨[], by simp [hw], by simp⟩
  | _ => by_cases hdirs : env.dirsOk = true <;> exact ⟨[], by simp [hdirs], by simp⟩

/-- The file of a linked run. -/
theorem RunLinked.write {k : Key} (h : RunLinked ids k r) {s : String} (hid : Obj.get r "run_id" = .str s) :
    RunWrite ids (s ++ "/run.json", .obj r) := by
  obtain ⟨s', hk, hplain, hown⟩ := h.key
  obtain rfl : s' = s := Json.str.inj (hown.symm.trans hid)
  subst hk
  exact ⟨s', hplain, .inl ⟨r, rfl, h⟩⟩

/-- A run with the same id and a stored result is linked. -/
theorem RunLinked.congr {k : Key} {r' : Obj} (h : RunLinked ids k r) (hid : Obj.get r' "run_id" = Obj.get r "run_id")
    (hbacked : Backed ids r') : RunLinked ids k r' :=
  ⟨by rw [hid]; exact h.key, hbacked⟩

namespace RunStore

/-- Storing a run and writing its file. -/
theorem insert_persist_keeps {P : Key → Obj → Prop} {good : String × Json → Prop} {k : Key} (hr : P k r)
    (hgood : ∀ s, Obj.get r "run_id" = .str s → good (s ++ "/run.json", .obj r)) (st : Store) :
    Appends P good st ((RunStore.persist env r).exec { st with records := st.records.insert k r }).2 := by
  obtain ⟨writes, hpersist, hwrites⟩ := exec_persist_run_snd env r { st with records := st.records.insert k r }
  refine appends_insert hr hpersist ?_
  intro w hw
  obtain ⟨s, hid, rfl⟩ := hwrites w hw
  exact hgood s hid

/-- An update keeps what its changed and stamped record satisfies. -/
theorem update_keeps {P : Key → Obj → Prop} {good : String × Json → Prop} {mutate : Obj → Except PyExc Obj}
    (hmutate : ∀ k r r', P k r → mutate r = .ok r' → P k (Obj.set r' "updated_at" env.stamp))
    (hgood : ∀ k r s, P k r → Obj.get r "run_id" = .str s → good (s ++ "/run.json", .obj r)) :
    Prog.Keeps (Appends P good) (RunStore.update env id mutate) := by
  intro st hst
  have hrefl := Std.Refl.refl (r := Appends P good) st hst
  cases hkey : id.key? with
  | none => simpa [RunStore.update, Prog.exec_bind, hashKey, hkey] using hrefl
  | some k =>
    cases hr : st.records.get? k with
    | none => simpa [RunStore.update, Prog.exec_bind, hashKey, hkey, hr] using hrefl
    | some r =>
      cases hm : mutate r with
      | error e => simpa [RunStore.update, Prog.exec_bind, hashKey, hkey, hr, hm] using hrefl
      | ok r' =>
        have hstamped : P k (Obj.set r' "updated_at" env.stamp) := hmutate k r r' (hst k r hr) hm
        have hsnd : ((RunStore.update env id mutate).exec st).2 =
            ((RunStore.persist env (Obj.set r' "updated_at" env.stamp)).exec
              { st with records := st.records.insert k (Obj.set r' "updated_at" env.stamp) }).2 := by
          simp only [RunStore.update, Prog.exec_bind, hashKey, hkey, Prog.exec_ofExcept, Prog.exec_get, hr, hm,
            Prog.exec_set]
          cases (RunStore.persist env (Obj.set r' "updated_at" env.stamp)).exec
              { st with records := st.records.insert k (Obj.set r' "updated_at" env.stamp) } with
          | mk out st' => cases out <;> rfl
        rw [hsnd]
        exact insert_persist_keeps hstamped (hgood k _ · hstamped) st hst

/-- An update that keeps runs linked writes linked ones. -/
theorem update_appends {mutate : Obj → Except PyExc Obj}
    (hmutate : ∀ k r r', RunLinked ids k r → mutate r = .ok r' → RunLinked ids k r') :
    Prog.Keeps (Appends (RunLinked ids) (RunWrite ids)) (RunStore.update env id mutate) := by
  refine update_keeps (fun k r r' h hm => ?_) fun k r s h hid => h.write hid
  have hlinked := hmutate k r r' h hm
  refine hlinked.congr (Obj.get_set_ne _ (by decide) _) ?_
  unfold Backed
  rw [Obj.get_set_ne _ (by decide)]
  exact hlinked.backed

/-- So does setting a status. -/
theorem setStatus_appends {status : Json} :
    Prog.Keeps (Appends (RunLinked ids) (RunWrite ids)) (RunStore.setStatus env id status) := by
  have hupdate : Prog.Keeps (Appends (RunLinked ids) (RunWrite ids))
      (RunStore.update env id fun r => .ok (Obj.set r "status" status)) := by
    refine update_appends ?_
    rintro k r r' h hset
    obtain rfl : Obj.set r "status" status = r' := Except.ok.inj hset
    refine h.congr (Obj.get_set_ne _ (by decide) _) ?_
    unfold Backed
    rw [Obj.get_set_ne _ (by decide)]
    exact h.backed
  unfold RunStore.setStatus
  split
  · exact .bind (.throw _) fun _ => hupdate
  · exact hupdate

/-- So does linking a result that is stored. -/
theorem linkResult_appends {resultId : Json} (hid : ids resultId) :
    Prog.Keeps (Appends (RunLinked ids) (RunWrite ids)) (RunStore.linkResult env id resultId) := by
  refine update_appends ?_
  rintro k r r' h hset
  obtain rfl : Obj.set r "result_id" resultId = r' := Except.ok.inj hset
  refine h.congr (Obj.get_set_ne _ (by decide) _) (.inr ?_)
  rw [Obj.get_set_self]
  exact hid

/-- An artifact leaves a run linked. -/
theorem setArtifact_linked {label path : String} {k : Key} {r' : Obj} (h : RunLinked ids k r)
    (hset : setArtifact label path r = .ok r') : RunLinked ids k r' := by
  refine h.congr (setArtifact_run_id hset) ?_
  unfold setArtifact at hset
  cases hitem : getItem r "artifacts" with
  | error e =>
    rw [hitem] at hset
    cases hset
  | ok v =>
    rw [hitem] at hset
    cases v with
    | obj artifacts =>
      cases hset
      unfold Backed
      rw [Obj.get_set_ne _ (by decide)]
      exact h.backed
    | _ => cases hset

/-- A log is written next to the `run.json`. -/
theorem attachText_appends {label filename text : String} (hplain : Plain filename.toList)
    (hname : filename ≠ "run.json") :
    Prog.Keeps (Appends (RunLinked ids) (RunWrite ids)) (RunStore.attachText env id label filename text) := by
  intro st hst
  have hrefl := Std.Refl.refl (r := Appends (RunLinked ids) (RunWrite ids)) st hst
  cases hkey : id.key? with
  | none => simpa [attachText, Prog.exec_bind, hashKey, hkey] using hrefl
  | some k =>
    cases hr : st.records.get? k with
    | none => simpa [attachText, Prog.exec_bind, hashKey, hkey, hr] using hrefl
    | some r =>
      obtain ⟨s, rfl, hs, hid⟩ := (hst k r hr).key
      obtain rfl : id = .str s := key?_eq_str hkey
      by_cases hwritable : env.writable (s ++ "/" ++ filename) = true
      · have hwritten : Appends (RunLinked ids) (RunWrite ids) st
            { st with writes := st.writes ++ [(s ++ "/" ++ filename, .str text)] } := by
          refine fun h => ⟨h, _, rfl, ?_⟩
          intro w hw
          rw [List.mem_singleton.mp hw]
          exact ⟨s, hs, .inr ⟨filename, .str text, rfl, hplain, hname⟩⟩
        have hupdated : Prog.Keeps (Appends (RunLinked ids) (RunWrite ids)) (update env (.str s)
            (setArtifact label (env.runsDir ++ "/" ++ s ++ "/" ++ filename))) :=
          update_appends fun k r r' h hset => setArtifact_linked h hset
        have hboth := IsTrans.trans _ _ _ hwritten (hupdated _) hst
        simpa [attachText, Prog.exec_bind, hashKey, hr, hwritable] using hboth
      · simpa [attachText, Prog.exec_bind, hashKey, hr, hwritable] using hrefl

/-- The id of a new run names a directory. -/
theorem plain_new {uuid : String} (h : '/' ∉ uuid.toList) : Plain ("run_" ++ uuid).toList := by
  have hlist : ("run_" ++ uuid).toList = 'r' :: 'u' :: 'n' :: '_' :: uuid.toList := by simp
  rw [hlist]
  refine ⟨by simp [h], by simp, by simp, ?_⟩
  unfold up
  simp

/-- A new run is linked. -/
theorem create_appends {info : Obj} (huuid : '/' ∉ env.uuid.toList) (hinfo : info.lookup "result_id" = none) :
    Prog.Keeps (Appends (RunLinked ids) (RunWrite ids)) (RunStore.create env info) := by
  intro st
  unfold RunStore.create
  dsimp only
  set u := Obj.setDefault (Obj.setDefault (Obj.set (Obj.setDefault
    (Obj.set info "run_id" (.str ("run_" ++ env.uuid))) "status" (.str "created"))
    "created_at" env.stamp) "artifacts" (.obj [])) "result_id" .null with hu
  have hlinked : RunLinked ids (.str ("run_" ++ env.uuid)) u := by
    refine ⟨⟨_, rfl, plain_new huuid, ?_⟩, .inl ?_⟩
    · simp [hu, Obj.get, Obj.getD]
    · simp [hu, Obj.get, Obj.getD, hinfo]
  have hsnd := @insert_persist_keeps env u _ (RunWrite ids) _ hlinked (fun s => hlinked.write) st
  rw [Prog.exec_bind_ok (Prog.exec_modify _ _), Prog.exec_bind]
  cases hexec : (RunStore.persist env u).exec
      { st with records := st.records.insert (.str ("run_" ++ env.uuid)) u } with
  | mk out st' =>
    rw [hexec] at hsnd
    cases out <;> exact hsnd

end RunStore

end Runs

section Jobs

variable {home : Place} {ids : Json → Prop} {env : Env} {id : Json} {new : JobStatus} {fields : Obj}

/-- A job whose file lies apart moves into a status; if that is `done` its result is one of these. -/
theorem JobStore.set_appends (hapart : ∀ s, id = .str s → FileApart home s)
    (hfields : "job_id" ∉ fields.map Prod.fst)
    (hdone : new = .done → ∀ j, ids (Obj.get (Obj.update j fields) "result_id")) :
    Prog.Keeps (Appends (JobLinked ids) (JobWrite home ids)) (JobStore.set env new fields id) := by
  refine setStatus_appends ?_
  intro k j j' hkey hj htr
  obtain ⟨_, rfl⟩ := Lifecycle.transition_eq_ok.mp htr
  have hid : Obj.get (Obj.set (Obj.set (Obj.update j fields) "status" (.str new.name)) "updated_at" env.stamp)
      "job_id" =
      Obj.get j "job_id" := by
    rw [Obj.get_set_ne _ (by decide), Obj.get_set_ne _ (by decide)]
    simp only [Obj.get, Obj.getD, lookup_update hfields]
  have hbacked : DoneBacked ids
      (Obj.set (Obj.set (Obj.update j fields) "status" (.str new.name)) "updated_at" env.stamp) := by
    intro hstatus
    rw [Obj.get_set_ne _ (by decide), Obj.get_set_self] at hstatus
    have hnew : new = .done := jobLifecycle.name_injective (Json.str.inj hstatus)
    right
    rw [Obj.get_set_ne _ (by decide), Obj.get_set_ne _ (by decide)]
    exact hdone hnew j
  refine ⟨⟨by rw [hid]; exact hj.key, hbacked⟩, ?_⟩
  intro s hs
  rw [hid] at hs
  have hk := hj.key
  rw [hs] at hk
  obtain rfl := Option.some.inj hk
  exact ⟨s, _, rfl, hapart s (key?_eq_str hkey), hbacked⟩

end Jobs

section Handlers

variable {home : Place} {ids : Json → Prop} {env : Env} {params : Obj} {t t' : Tunnel}

instance : Std.Refl (KeepsLinks home ids) := ⟨fun _ => ⟨Std.Refl.refl _, Std.Refl.refl _⟩⟩

instance : IsTrans Tunnel (KeepsLinks home ids) :=
  ⟨fun _ _ _ h h' => ⟨IsTrans.trans _ _ _ h.jobs h'.jobs, IsTrans.trans _ _ _ h.runs h'.runs⟩⟩

/-- Where jobs and runs stay as they are, so do the links. -/
theorem keepsLinks_of_same (hjobs : t'.jobs = t.jobs) (hruns : t'.runs = t.runs) : KeepsLinks home ids t t' := by
  constructor
  · rw [hjobs]
    exact Std.Refl.refl _
  · rw [hruns]
    exact Std.Refl.refl _

/-- What keeps the jobs linked keeps all links. -/
theorem onJobs_links {α : Type} {m : Prog PyExc Store α}
    (hm : Prog.Keeps (Appends (JobLinked ids) (JobWrite home ids)) m) : Prog.Keeps (KeepsLinks home ids) (onJobs m) :=
  hm.zoom fun _ _ h => ⟨h, Std.Refl.refl _⟩

/-- So does what keeps the runs linked. -/
theorem onRuns_links {α : Type} {m : Prog PyExc Store α}
    (hm : Prog.Keeps (Appends (RunLinked ids) (RunWrite ids)) m) : Prog.Keeps (KeepsLinks home ids) (onRuns m) :=
  hm.zoom fun _ _ h => ⟨Std.Refl.refl _, h⟩

/-- Results are not linked to jobs or runs. -/
theorem onResults_links {α : Type} (m : Prog PyExc ResultStore α) : Prog.Keeps (KeepsLinks home ids) (onResults m) :=
  fun _ => keepsLinks_of_same rfl rfl

/-- Emitting an event leaves the links. -/
theorem emit_links (etype : String) (payload : Obj) : Prog.Keeps (KeepsLinks home ids) (emit env etype payload) :=
  fun _ => keepsLinks_of_same rfl rfl

/-- So does hearing of a session. -/
theorem touchSession_links : Prog.Keeps (KeepsLinks home ids) (touchSession env params) :=
  .ite (fun _ => keepsLinks_of_same rfl rfl) (.pure _)

/-- So does storing a result. -/
theorem mResultUpdate_links (path : String) : Prog.Keeps (KeepsLinks home ids) (mResultUpdate env path params) := by
  unfold mResultUpdate
  cases Obj.get params "result" with
  | obj data =>
    exact .bind (.ofExcept _) fun _ => .bind (.ofExcept _) fun _ => .bind (onResults_links _) fun _ =>
      .bind (emit_links _ _) fun _ => .pure _
  | _ => exact .throw _

/-- Importing a result links its run to it. -/
theorem storeImported_links {rid : Json} {result : Obj} (hid : ids (Obj.get result "result_id")) :
    Prog.Keeps (KeepsLinks home ids) (storeImported env rid result) :=
  .bind (onResults_links _) fun _ => .bind (onRuns_links (RunStore.linkResult_appends hid)) fun _ =>
    .bind (onRuns_links RunStore.setStatus_appends) fun _ => .bind (emit_links _ _) fun _ =>
    .bind (emit_links _ _) fun _ => .pure _

/-- `run.import_result` finds its run or changes nothing. -/
theorem mRunImportResult_cases (env : Env) (params : Obj) (t : Tunnel) :
    (importToStore env params t = none ∧ ∃ e, (mRunImportResult env params).exec t = (.error e, t)) ∨
    ∃ result rid, importToStore env params t = some result ∧
      (mRunImportResult env params).exec t = (storeImported env rid result).exec t := by
  have hreads : ((findRun params).exec t).2 = t := findRun_reads params t
  unfold mRunImportResult importToStore
  cases hfind : (findRun params).exec t with
  | mk out t' =>
    rw [hfind] at hreads
    obtain rfl : t' = t := hreads
    cases out with
    | error e =>
      rw [Prog.exec_bind_error hfind]
      exact .inl ⟨rfl, e, rfl⟩
    | ok found =>
      rw [Prog.exec_bind_ok hfind]
      cases hmetrics : Obj.get params "metrics" with
      | obj metrics =>
        cases himported : importedResult env params metrics with
        | error e => exact .inl ⟨by simp [himported, Except.toOption], e, by simp [himported, Prog.exec_bind]⟩
        | ok result =>
          right
          refine ⟨result, found.1, by simp [himported, Except.toOption], ?_⟩
          simp [himported, Prog.exec_bind]
      | _ => exact .inl ⟨rfl, _, rfl⟩

/-- So does the request for that. -/
theorem mRunImportResult_links
    (hids : ∀ result, importToStore env params t = some result → ids (Obj.get result "result_id")) :
    KeepsLinks home ids t ((mRunImportResult env params).exec t).2 := by
  rcases mRunImportResult_cases env params t with ⟨_, e, hexec⟩ | ⟨result, rid, hstore, hexec⟩
  · rw [hexec]
    exact Std.Refl.refl t
  · rw [hexec]
    exact storeImported_links (hids result hstore) t

/-- Starting a job reads only. -/
theorem jobRun_reads : Prog.Reads (handle env .jobRun params) := by
  have hfind : Prog.Reads (findJob params) := by
    unfold findJob requireId
    refine .bind (.ite (.pure _) (.throw _)) fun id => .bind (getRecord_reads.zoom fun _ => rfl) fun job => ?_
    cases job with
    | none => exact .throw _
    | some job => exact .pure _
  refine .bind (.bind hfind fun found => .ite ?_ (.throw _)) fun _ => .pure _
  cases env.simCmd with
  | none => exact .throw _
  | some cmd => exact .pure _

end Handlers

section Runners

variable {home : Place} {ids : Json → Prop} {w : World} {jobId : Json} {command : List String} {point : RunPoint}

/-- The fields of a finished job hold its result. -/
theorem get_doneFields {id rid : Json} (hid : id.truthy = true) (j : Obj) :
    Obj.get (Obj.update j (presentFields [("result_id", id), ("run_id", rid)])) "result_id" = id := by
  cases id with
  | null => cases hid
  | _ => cases rid <;> simp [presentFields, Obj.update]

/-- Marking a job as failed keeps the links. -/
theorem markFailed_links {error : Json} (hapart : ∀ s, jobId = .str s → FileApart home s) :
    Prog.Keeps (KeepsLinks home ids) (onJobs (JobStore.markFailed w.env jobId error)) := by
  refine onJobs_links (JobStore.set_appends hapart ?_ (by simp))
  split <;> simp

/-- What a runner changes of the jobs and runs. -/
theorem runnerStep_links (hapart : ∀ s, jobId = .str s → FileApart home s) (huuid : '/' ∉ w.env.uuid.toList)
    (hpoint : point.Backed ids) : Prog.Keeps (KeepsLinks home ids) (runnerStep w jobId command point) := by
  have hnetlist : Plain "netlist.log".toList := by unfold Plain; decide
  have hsim : Plain "sim.log".toList := by unfold Plain; decide
  cases point with
  | lookup =>
    refine .bind ((getRecord_reads.zoom fun _ => rfl).keeps) fun job => ?_
    cases job with
    | none => exact .throw _
    | some job => exact .pure _
  | createRun job => exact .bind (onRuns_links (RunStore.create_appends huuid (by simp))) fun _ => .pure _
  | markRunning job rid =>
    exact .bind (onJobs_links (JobStore.set_appends hapart (by simp) (by simp))) fun _ => .pure _
  | setRunning job rid => exact .bind (onRuns_links RunStore.setStatus_appends) fun _ => .pure _
  | context job rid => exact .bind (.ofExcept _) fun _ => .pure _
  | netlist job rid vars =>
    unfold runnerStep
    cases w.env.netlistCmd with
    | none => exact .pure _
    | some ncmd => exact .bind (.ofExcept _) fun _ => .pure _
  | attachNetlist job rid vars code log =>
    exact .bind (.suppress (onRuns_links (RunStore.attachText_appends hnetlist (by decide)))) fun _ => .pure _
  | simulate job rid vars => exact .bind (.ofExcept _) fun _ => .pure _
  | attachLog job rid code log =>
    exact .bind (.suppress (onRuns_links (RunStore.attachText_appends hsim (by decide)))) fun _ => .pure _
  | readMetrics job rid => exact .bind (.ofExcept _) fun _ => .pure _
  | storeResult rid result => exact .bind (onResults_links _) fun _ => .pure _
  | linkResult rid result => exact .bind (onRuns_links (RunStore.linkResult_appends hpoint.2)) fun _ => .pure _
  | setDone rid result => exact .bind (onRuns_links RunStore.setStatus_appends) fun _ => .pure _
  | markDone rid result =>
    obtain ⟨htruthy, hid⟩ := hpoint
    have hfields : "job_id" ∉ (presentFields [("result_id", Obj.get result "result_id"), ("run_id", rid)]).map
        Prod.fst := by
      intro hmem
      obtain ⟨e, he, hname⟩ := List.mem_map.mp hmem
      have htouched := JobStore.doneFields_touched e he
      rw [hname] at htouched
      revert htouched
      decide
    refine .bind (onJobs_links (JobStore.set_appends hapart hfields fun _ j => ?_)) fun _ => .pure _
    rw [get_doneFields htruthy]
    exact hid
  | emitResult rid result job => exact .bind (emit_links _ _) fun _ => .pure _
  | emitDone rid result job => exact .bind (emit_links _ _) fun _ => .pure _
  | failRun rid error => exact .bind (.suppress (onRuns_links RunStore.setStatus_appends)) fun _ => .pure _
  | failJob error => exact .bind (markFailed_links hapart) fun _ => .pure _
  | emitFailed error job => exact .bind (emit_links _ _) fun _ => .pure _
  | returned job => exact .pure _
  | raised e => exact .pure _

/-- A point from which a result is stored or linked is reached from one that knows it. -/
theorem runnerStep_backed {next : RunPoint} {t t' : Tunnel} (hpoint : point.Backed ids)
    (hstored : ∀ rid result, point = .storeResult rid result → ids (Obj.get result "result_id"))
    (h : (runnerStep w jobId command point).exec t = (.ok next, t')) : next.Backed ids := by
  cases point with
  | lookup =>
    obtain ⟨job, _, _, h⟩ := Prog.exec_bind_eq_ok h
    cases job with
    | none => cases h
    | some job => cases h; trivial
  | netlist job rid vars =>
    unfold runnerStep at h
    cases hcmd : w.env.netlistCmd with
    | none =>
      rw [hcmd] at h
      cases h
      trivial
    | some ncmd =>
      rw [hcmd] at h
      obtain ⟨outcome, _, _, h⟩ := Prog.exec_bind_eq_ok h
      cases h
      cases outcome <;> trivial
  | attachNetlist job rid vars code log =>
    obtain ⟨_, _, _, h⟩ := Prog.exec_bind_eq_ok h
    cases h
    split <;> trivial
  | simulate job rid vars =>
    obtain ⟨outcome, _, _, h⟩ := Prog.exec_bind_eq_ok h
    cases h
    cases outcome <;> trivial
  | attachLog job rid code log =>
    obtain ⟨_, _, _, h⟩ := Prog.exec_bind_eq_ok h
    cases h
    split <;> trivial
  | readMetrics job rid =>
    obtain ⟨reading, _, hread, h⟩ := Prog.exec_bind_eq_ok h
    cases h
    rw [Prog.exec_ofExcept] at hread
    have hreading : readResult w job = .ok reading := (Prod.mk.inj hread).1
    cases reading with
    | inl error => trivial
    | inr result =>
      obtain ⟨data, rfl⟩ : ∃ data, result = makeResult w.env data := by
        unfold readResult at hreading
        dsimp only at hreading
        split at hreading
        · cases hreading
        · cases hreading
        · split at hreading <;> cases hreading
        · split at hreading
          · split at hreading <;> cases hreading
          · split at hreading
            · cases hreading
              exact ⟨_, rfl⟩
            · cases hreading
      exact truthy_id_makeResult
  | storeResult rid result =>
    obtain ⟨_, _, _, h⟩ := Prog.exec_bind_eq_ok h
    cases h
    exact ⟨hpoint, hstored rid result rfl⟩
  | linkResult rid result =>
    obtain ⟨_, _, _, h⟩ := Prog.exec_bind_eq_ok h
    cases h
    exact hpoint
  | setDone rid result =>
    obtain ⟨_, _, _, h⟩ := Prog.exec_bind_eq_ok h
    cases h
    exact hpoint
  | returned job => cases h; trivial
  | raised e => cases h; trivial
  | _ =>
    obtain ⟨_, _, _, h⟩ := Prog.exec_bind_eq_ok h
    cases h
    trivial

end Runners

end VirtuosoFlow.Tunnel
