import VirtuosoFlow.Tunnel.RecordStore

/-!
# Simulation runs

The run store (`artifact/manager.py`), as far as the job runner uses it. A run is
changed in place, so the record under its id is the only copy.
-/

namespace VirtuosoFlow.Tunnel.RunStore

open Base

/-- `VALID_STATUSES`. -/
def validStatuses : List String := ["created", "running", "done", "failed"]

/-- `_persist(r)`: the run's directory and its `run.json`. -/
def persist (env : Env) (r : Obj) : Prog PyExc Store Unit := do
  match Obj.get r "run_id" with
  | .str rid =>
    if env.dirsOk && env.writable (rid ++ "/run.json") then
      modify fun st => { st with writes := st.writes ++ [(rid ++ "/run.json", .obj r)] }
  | _ => if env.dirsOk then throw .typeError

/-- `create(meta)`. -/
def create (env : Env) (info : Obj) : Prog PyExc Store Obj := do
  let rid := "run_" ++ env.uuid
  let r := Obj.set info "run_id" (.str rid)
  let r := Obj.setDefault r "status" (.str "created")
  let r := Obj.set r "created_at" env.stamp
  let r := Obj.setDefault r "artifacts" (.obj [])
  let r := Obj.setDefault r "result_id" .null
  modify fun st => { st with records := st.records.insert (.str rid) r }
  persist env r
  return r

/-- `_update(run_id, mutate)`. -/
def update (env : Env) (id : Json) (mutate : Obj → Except PyExc Obj) : Prog PyExc Store Obj := do
  let key ← Prog.ofExcept (hashKey id)
  let st ← get
  match st.records.get? key with
  | none => throw (.keyError (.text "unknown run_id: %s" [id]))
  | some r =>
    let r ← Prog.ofExcept (mutate r)
    let r := Obj.set r "updated_at" env.stamp
    set { st with records := st.records.insert key r }
    persist env r
    return r

/-- `set_status(run_id, status)`. -/
def setStatus (env : Env) (id status : Json) : Prog PyExc Store Obj := do
  if !(validStatuses.any fun s => status.pyEq (.str s)) then
    throw (.valueError (.text "invalid run status: %s" [status]))
  update env id fun r => .ok (Obj.set r "status" status)

/-- `link_result(run_id, result_id)`. -/
def linkResult (env : Env) (id resultId : Json) : Prog PyExc Store Obj :=
  update env id fun r => .ok (Obj.set r "result_id" resultId)

/-- `rr["artifacts"].__setitem__(label, path)`. -/
def setArtifact (label path : String) (r : Obj) : Except PyExc Obj := do
  match ← getItem r "artifacts" with
  | .obj artifacts => return Obj.set r "artifacts" (.obj (Obj.set artifacts label (.str path)))
  | .arr _ => throw .typeError
  | _ => throw .attributeError

/-- `attach_text(run_id, label, filename, text)`. -/
def attachText (env : Env) (id : Json) (label filename text : String) :
    Prog PyExc Store Obj := do
  let key ← Prog.ofExcept (hashKey id)
  match (← get).records.get? key, id with
  | none, _ => throw (.keyError (.text "unknown run_id: %s" [id]))
  | some _, .str rid =>
    if !env.writable (rid ++ "/" ++ filename) then throw (.osError (.text filename []))
    modify fun st => { st with writes := st.writes ++ [(rid ++ "/" ++ filename, .str text)] }
    update env id (setArtifact label (env.runsDir ++ "/" ++ rid ++ "/" ++ filename))
  | some _, _ => throw .typeError

section Specifications

variable {env : Env} {rid status new label filename text : String} {result resultId : Json}
variable {r r' : Obj} {st : Store}

/-- A record of this store: its id, its status, its result and a dict of artifacts. -/
structure IsRun (rid status : String) (result : Json) (r : Obj) : Prop where
  id : Obj.get r "run_id" = .str rid
  status : Obj.get r "status" = .str status
  result : Obj.get r "result_id" = result
  artifacts : ∃ paths, r.lookup "artifacts" = some (.obj paths)

/-- The run `rid` is stored with this status and this result. -/
def HasRun (st : Store) (rid status : String) (result : Json) : Prop :=
  ∃ r, st.records.get? (.str rid) = some r ∧ IsRun rid status result r

/-- Writing the file of a run raises nothing. -/
theorem exec_persist (env : Env) (st : Store) (hid : Obj.get r "run_id" = .str rid) :
    ∃ writes, (persist env r).exec st = (.ok (), { st with writes := writes }) := by
  unfold persist
  rw [hid]
  by_cases hw : (env.dirsOk && env.writable (rid ++ "/run.json")) = true
  · exact ⟨st.writes ++ [(rid ++ "/run.json", .obj r)], by simp [hw]⟩
  · exact ⟨st.writes, by simp [hw]⟩

/-- An update that succeeds replaces the record. -/
theorem exec_update (env : Env) (mutate : Obj → Except PyExc Obj)
    (hr : st.records.get? (.str rid) = some r) (hmutate : mutate r = .ok r')
    (hrun : IsRun rid new result r') :
    ∃ u st', (update env (.str rid) mutate).exec st = (.ok u, st') ∧
      HasRun st' rid new result := by
  have hstamped : IsRun rid new result (Obj.set r' "updated_at" env.stamp) := by
    constructor
    · simpa using hrun.id
    · simpa using hrun.status
    · simpa using hrun.result
    · simpa using hrun.artifacts
  obtain ⟨writes, hpersist⟩ := exec_persist env
    { st with records := st.records.insert (.str rid) (Obj.set r' "updated_at" env.stamp) }
    hstamped.id
  refine ⟨Obj.set r' "updated_at" env.stamp,
    ⟨st.records.insert (.str rid) (Obj.set r' "updated_at" env.stamp), writes⟩, ?_, ?_⟩
  · simp only [update, Prog.exec_bind, hashKey, Json.key?_str, Prog.exec_ofExcept, Prog.exec_get,
      hr, hmutate, Prog.exec_set, hpersist, Prog.exec_pure]
  · exact ⟨Obj.set r' "updated_at" env.stamp, by simp, hstamped⟩

/-- A valid status is stored. -/
theorem exec_setStatus (env : Env) (h : HasRun st rid status result) (hnew : new ∈ validStatuses) :
    ∃ u st', (setStatus env (.str rid) (.str new)).exec st = (.ok u, st') ∧
      HasRun st' rid new result := by
  obtain ⟨r, hr, hrun⟩ := h
  have hset : IsRun rid new result (Obj.set r "status" (.str new)) := by
    constructor
    · simpa using hrun.id
    · simp
    · simpa using hrun.result
    · simpa using hrun.artifacts
  obtain ⟨u, st', hexec, hnext⟩ :=
    exec_update env (fun r => .ok (Obj.set r "status" (.str new))) hr rfl hset
  refine ⟨u, st', ?_, hnext⟩
  have hvalid : (validStatuses.any fun s => (Json.str new).pyEq (.str s)) = true :=
    List.any_eq_true.mpr ⟨new, hnew, Json.pyEq_str.mpr rfl⟩
  simp only [setStatus, hvalid, Bool.not_true, Bool.false_eq_true, if_false]
  exact hexec

/-- A result is linked to its run. -/
theorem exec_linkResult (env : Env) (resultId : Json) (h : HasRun st rid status result) :
    ∃ u st', (linkResult env (.str rid) resultId).exec st = (.ok u, st') ∧
      HasRun st' rid status resultId := by
  obtain ⟨r, hr, hrun⟩ := h
  have hset : IsRun rid status resultId (Obj.set r "result_id" resultId) := by
    constructor
    · simpa using hrun.id
    · simpa using hrun.status
    · simp
    · simpa using hrun.artifacts
  exact exec_update env (fun r => .ok (Obj.set r "result_id" resultId)) hr rfl hset

/-- Attaching a text raises an `OSError` or nothing, and leaves the run as it is otherwise. -/
theorem exec_attachText (env : Env) (label filename text : String)
    (h : HasRun st rid status result) :
    (∃ m, (attachText env (.str rid) label filename text).exec st = (.error (.osError m), st)) ∨
    ∃ u st', (attachText env (.str rid) label filename text).exec st = (.ok u, st') ∧
      HasRun st' rid status result := by
  obtain ⟨r, hr, hrun⟩ := h
  by_cases hwritable : env.writable (rid ++ "/" ++ filename) = true
  · right
    obtain ⟨paths, hpaths⟩ := hrun.artifacts
    let path : Json := .str (env.runsDir ++ "/" ++ rid ++ "/" ++ filename)
    have hmutate : setArtifact label (env.runsDir ++ "/" ++ rid ++ "/" ++ filename) r =
        .ok (Obj.set r "artifacts" (.obj (Obj.set paths label path))) := by
      rw [setArtifact, getItem, hpaths]
      rfl
    have hset : IsRun rid status result
        (Obj.set r "artifacts" (.obj (Obj.set paths label path))) := by
      constructor
      · simpa using hrun.id
      · simpa using hrun.status
      · simpa using hrun.result
      · exact ⟨Obj.set paths label path, by simp⟩
    let st₁ : Store := { st with
      writes := st.writes ++ [(rid ++ "/" ++ filename, .str text)] }
    have hr₁ : st₁.records.get? (.str rid) = some r := hr
    obtain ⟨u, st', hexec, hnext⟩ := exec_update env _ hr₁ hmutate hset
    refine ⟨u, st', ?_, hnext⟩
    simp only [attachText, Prog.exec_bind, hashKey, Json.key?_str, Prog.exec_ofExcept,
      Prog.exec_get, hr, hwritable, Bool.not_true, Bool.false_eq_true, if_false,
      Prog.exec_modify]
    exact hexec
  · left
    refine ⟨.text filename [], ?_⟩
    simp [attachText, Prog.exec_bind, hashKey, hr, hwritable]

/-- A new run is stored as created, without a result. -/
theorem exec_create (env : Env) (info : Obj) (st : Store)
    (hstatus : info.lookup "status" = none) (hresult : info.lookup "result_id" = none)
    (hartifacts : info.lookup "artifacts" = none) :
    ∃ u st', (create env info).exec st = (.ok u, st') ∧
      Obj.get u "run_id" = .str ("run_" ++ env.uuid) ∧
      HasRun st' ("run_" ++ env.uuid) "created" .null := by
  unfold create
  dsimp only
  set u := Obj.setDefault (Obj.setDefault (Obj.set (Obj.setDefault
    (Obj.set info "run_id" (.str ("run_" ++ env.uuid))) "status" (.str "created"))
    "created_at" env.stamp) "artifacts" (.obj [])) "result_id" .null with hu
  have hrun : IsRun ("run_" ++ env.uuid) "created" .null u := by
    constructor
    · simp [hu, Obj.get, Obj.getD]
    · simp [hu, Obj.get, Obj.getD, hstatus]
    · simp [hu, Obj.get, Obj.getD, hresult]
    · exact ⟨[], by simp [hu, Obj.getD, hartifacts]⟩
  obtain ⟨writes, hpersist⟩ := exec_persist env
    { st with records := st.records.insert (.str ("run_" ++ env.uuid)) u } hrun.id
  refine ⟨u, { records := st.records.insert (.str ("run_" ++ env.uuid)) u, writes := writes },
    ?_, hrun.id, u, by simp, hrun⟩
  rw [Prog.exec_bind_ok (Prog.exec_modify _ _), Prog.exec_bind_ok hpersist]
  rfl

end Specifications

end VirtuosoFlow.Tunnel.RunStore
