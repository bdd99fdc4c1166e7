import VirtuosoFlow.Tunnel.ArchiveLinks

/-!
# The records of runs

The requests on runs, and the start of a new process over the `run.json` files. `run.create` copies
what the client sends before it fills in defaults; every later operation relies on the status and the
artifacts that the record then has.
-/

namespace VirtuosoFlow.Tunnel

open Base Base.Posix

section Handlers

/-- `_m_run_create`. -/
def mRunCreate (env : Env) (params : Obj) : Prog PyExc Tunnel Json := do
  let info : Obj := match Obj.get params "run" with
    | .obj info => info
    | _ => []
  let run ← onRuns (RunStore.create env info)
  return .obj [("run", .obj run)]

/-- `_m_run_set_status`. -/
def mRunSetStatus (env : Env) (params : Obj) : Prog PyExc Tunnel Json := do
  let rid ← requireId "run_id" params
  let run ← (onRuns (RunStore.setStatus env rid (Obj.get params "status"))).mapError lookupErrorAsRpc
  if (Obj.get run "status").pyEq (.str "done") then
    emit env "run.done" [("run_id", rid)]
  return .obj [("run", .obj run)]

/-- The requests that change runs. -/
inductive RunMethod where
  | runCreate | runSetStatus | runAttach | runImportResult
  deriving DecidableEq

/-- The handler registered for a method. -/
def handleRun (env : Env) : RunMethod → Obj → Prog PyExc Tunnel Json
  | .runCreate => mRunCreate env
  | .runSetStatus => mRunSetStatus env
  | .runAttach => mRunAttach env
  | .runImportResult => mRunImportResult env

/-- `self._runs[rid] = r` for a value read from a file. -/
def addRun (records : Dict Key Obj) : Json → Except PyExc (Dict Key Obj)
  | .obj r =>
    if (Obj.get r "run_id").truthy then (hashKey (Obj.get r "run_id")).map fun k => records.insert k r
    else .ok records
  | _ => .error .attributeError

/-- What `_load()` does with one file. The file of a record holds its JSON text, an attachment its text. -/
def loadRun (env : Env) (files : Contents) (records : Dict Key Obj) (path : Place) :
    Except PyExc (Dict Key Obj) :=
  match files path with
  | none => .ok records
  | some (.str text) =>
    match env.jsonLoads text with
    | .ok v => addRun records v
    | .error e => if isReadError e then .ok records else .error e
  | some v => addRun records v

/-- A request, or a restart over the files that are there. -/
inductive RunInput where
  | request (env : Env) (method : RunMethod) (params : Obj)
  /-- A new process, with the directories in which it finds a `run.json`, and all that is not in its run
  store. -/
  | restart (env : Env) (names : List (List Char)) (others : Tunnel)

/-- The files that the run store has written. -/
def runFiles (home : Place) (t : Tunnel) : Contents :=
  Contents.write (Archive.runsDir home) t.runs.writes fun _ => none

/-- The daemon started over an empty directory of runs. A process that cannot load the runs does not start. -/
def runMachine (home : Place) : Machine Tunnel RunInput (Except PyExc Json) where
  init t := t.runs = .empty
  step
    | .request env method params, t => (handleRun env method params).exec t
    | .restart env names others, t =>
      match (names.map (Archive.runFile home)).foldlM (loadRun env (runFiles home t)) Dict.empty with
      | .ok records => (.ok .null, { others with runs := ⟨records, t.runs.writes⟩ })
      | .error e => (.error e, t)

end Handlers

section Properties

/-- One of `VALID_STATUSES`. -/
def ValidStatus (v : Json) : Prop := ∃ s ∈ RunStore.validStatuses, v = .str s

/-- A record with a valid status and an object of artifacts. -/
structure WellFormedRun (r : Obj) : Prop where
  status : ValidStatus (Obj.get r "status")
  artifacts : ∃ paths, r.lookup "artifacts" = some (.obj paths)

/-- What a client may send as a new run: a status that is valid and artifacts that are an object, if it
sends any. -/
structure WellFormedInfo (info : Obj) : Prop where
  status : ∀ v, info.lookup "status" = some v → ValidStatus v
  artifacts : ∀ v, info.lookup "artifacts" = some v → ∃ paths, v = .obj paths

/-- A text that can be encoded and is attached under a string label has its record updated once it is
written. -/
def AttachesCleanly (t : Tunnel) : Prop :=
  ∀ env params rid filename label content, AttachesText env params t rid filename →
    Obj.get params "label" = .str label → Obj.get params "text" = .str content → env.encodeError content = none →
      ((mRunAttach env params).exec t).1.isOk = true

/-- All runs are well formed, and attaching to them does not fail half way. -/
structure ServesRuns (t : Tunnel) : Prop where
  wellFormed : ∀ k r, t.runs.records.get? k = some r → WellFormedRun r
  attaches : AttachesCleanly t

namespace RunInput

/-- The input is a request. -/
def isRequest : RunInput → Bool
  | .request .. => true
  | .restart .. => false

/-- Only well formed runs are created. -/
def WellFormed : RunInput → Prop
  | .request _ .runCreate params => ∀ info, Obj.get params "run" = .obj info → WellFormedInfo info
  | _ => True

/-- No text is attached in place of a `run.json`. -/
def AttachesApart (home : Place) (t : Tunnel) : RunInput → Prop
  | .request env .runAttach params => ∀ rid filename, AttachesText env params t rid filename →
      ∀ name, locate (Archive.runsDir home) (attachedName rid filename).toList ≠ Archive.runFile home name
  | _ => True

/-- A text that is written under a string label can be encoded. -/
def EncodesText (t : Tunnel) : RunInput → Prop
  | .request env .runAttach params => ∀ rid filename label content, AttachesText env params t rid filename →
      Obj.get params "label" = .str label → Obj.get params "text" = .str content → env.encodeError content = none
  | _ => True

end RunInput

/-- An attachment under a string label that wrote its file has returned. -/
def AttachedWhole (e : Entry Tunnel RunInput (Except PyExc Json)) : Prop :=
  ∀ env params rid filename label, e.input = .request env .runAttach params →
    AttachesText env params e.before rid filename → Obj.get params "label" = .str label → e.output.isOk = true

/-- A record of the store: well formed, and stored under its id. -/
structure KeptRun (k : Key) (r : Obj) : Prop where
  key : (Obj.get r "run_id").key? = some k
  wellFormed : WellFormedRun r

end Properties

section Store

variable {env : Env} {good : String × Json → Prop} {id status : Json} {info r r' : Obj} {k : Key} {st : Store}

/-- Only the status and the artifacts decide whether a run is well formed. -/
theorem WellFormedRun.congr (h : WellFormedRun r) (hstatus : Obj.get r' "status" = Obj.get r "status")
    (hartifacts : r'.lookup "artifacts" = r.lookup "artifacts") : WellFormedRun r' :=
  ⟨hstatus ▸ h.status, hartifacts ▸ h.artifacts⟩

/-- A member that is none of those looked at does not matter. -/
theorem KeptRun.set {member : String} (h : KeptRun k r) (v : Json)
    (hmember : member ∉ ["run_id", "status", "artifacts"]) : KeptRun k (Obj.set r member v) := by
  simp only [List.mem_cons, List.not_mem_nil, or_false, not_or] at hmember
  obtain ⟨hid, hstatus, hartifacts⟩ := hmember
  refine ⟨?_, h.wellFormed.congr (Obj.get_set_ne _ (Ne.symm hstatus) _)
    (Obj.lookup_set_ne _ (Ne.symm hartifacts) _)⟩
  rw [Obj.get_set_ne _ (Ne.symm hid)]
  exact h.key

/-- The record that `create` stores. -/
def createdRun (env : Env) (info : Obj) : Obj :=
  let r := Obj.set info "run_id" (.str ("run_" ++ env.uuid))
  let r := Obj.setDefault r "status" (.str "created")
  let r := Obj.set r "created_at" env.stamp
  let r := Obj.setDefault r "artifacts" (.obj [])
  Obj.setDefault r "result_id" .null

/-- The id of a new run. -/
theorem get_createdRun_id : Obj.get (createdRun env info) "run_id" = .str ("run_" ++ env.uuid) := by
  simp [createdRun, Obj.get, Obj.getD]

/-- Its status, which the request may give. -/
theorem get_createdRun_status :
    Obj.get (createdRun env info) "status" = (info.lookup "status").getD (.str "created") := by
  simp [createdRun, Obj.get, Obj.getD]

/-- Its artifacts, which the request may give. -/
theorem lookup_createdRun_artifacts :
    (createdRun env info).lookup "artifacts" = some ((info.lookup "artifacts").getD (.obj [])) := by
  simp [createdRun, Obj.getD]

/-- The defaults are well formed; what the client sends decides. -/
theorem wellFormedRun_createdRun_iff : WellFormedRun (createdRun env info) ↔ WellFormedInfo info := by
  constructor
  · rintro ⟨hstatus, hartifacts⟩
    rw [get_createdRun_status] at hstatus
    rw [lookup_createdRun_artifacts] at hartifacts
    refine ⟨fun v hv => ?_, fun v hv => ?_⟩
    · rwa [hv] at hstatus
    · rw [hv] at hartifacts
      obtain ⟨paths, heq⟩ := hartifacts
      exact ⟨paths, Option.some.inj heq⟩
  · rintro ⟨hstatus, hartifacts⟩
    constructor
    · rw [get_createdRun_status]
      cases hv : info.lookup "status" with
      | none => exact ⟨"created", by decide, rfl⟩
      | some v => exact hstatus v hv
    · rw [lookup_createdRun_artifacts]
      cases hv : info.lookup "artifacts" with
      | none => exact ⟨[], rfl⟩
      | some v =>
        obtain ⟨paths, rfl⟩ := hartifacts v hv
        exact ⟨paths, rfl⟩

/-- Creating a run stores its record and writes its file, or not. -/
theorem exec_create_snd (env : Env) (info : Obj) (st : Store) : ∃ writes,
    (RunStore.create env info).exec st = (.ok (createdRun env info),
      ⟨st.records.insert (.str ("run_" ++ env.uuid)) (createdRun env info), st.writes ++ writes⟩) ∧
    ∀ w ∈ writes, w = ("run_" ++ env.uuid ++ "/run.json", .obj (createdRun env info)) := by
  obtain ⟨all, hpersist⟩ := RunStore.exec_persist env
    { st with records := st.records.insert (.str ("run_" ++ env.uuid)) (createdRun env info) } get_createdRun_id
  obtain ⟨writes, hsnd, hwrites⟩ := exec_persist_run_snd env (createdRun env info)
    { st with records := st.records.insert (.str ("run_" ++ env.uuid)) (createdRun env info) }
  rw [hpersist] at hsnd
  have hall : all = st.writes ++ writes := congrArg Store.writes hsnd
  refine ⟨writes, ?_, fun w hw => ?_⟩
  · have hcreate : (RunStore.create env info).exec st = ((do
        RunStore.persist env (createdRun env info)
        return createdRun env info : Prog PyExc Store Obj).exec
        { st with records := st.records.insert (.str ("run_" ++ env.uuid)) (createdRun env info) }) := rfl
    rw [hcreate, Prog.exec_bind_ok hpersist, hall]
    rfl
  · obtain ⟨s, hs, rfl⟩ := hwrites w hw
    rw [get_createdRun_id] at hs
    rw [← Json.str.inj hs]

/-- Creating well formed runs keeps all runs well formed. -/
theorem create_keepsRuns (hgood : ∀ name r, WellFormedRun r → good (name, .obj r))
    (hinfo : WellFormedInfo info) :
    Prog.Keeps (Appends KeptRun good) (RunStore.create env info) := by
  intro st
  have hkept : KeptRun (.str ("run_" ++ env.uuid)) (createdRun env info) :=
    ⟨by rw [get_createdRun_id, Json.key?_str], wellFormedRun_createdRun_iff.mpr hinfo⟩
  obtain ⟨writes, hexec, hwrites⟩ := exec_create_snd env info st
  refine appends_insert hkept (by rw [hexec]) fun w hw => ?_
  rw [hwrites w hw]
  exact hgood _ _ hkept.wellFormed

/-- So does an update that changes a record into a kept one. -/
theorem update_keepsRuns {mutate : Obj → Except PyExc Obj}
    (hgood : ∀ name r, WellFormedRun r → good (name, .obj r))
    (hmutate : ∀ k r r', KeptRun k r → mutate r = .ok r' → KeptRun k r') :
    Prog.Keeps (Appends KeptRun good) (RunStore.update env id mutate) := by
  refine RunStore.update_keeps (fun k r r' h hm => ?_) fun k r s h _ => hgood _ _ h.wellFormed
  exact (hmutate k r r' h hm).set _ (by decide)

/-- Linking a result keeps the runs well formed. -/
theorem linkResult_keepsRuns (hgood : ∀ name r, WellFormedRun r → good (name, .obj r)) (resultId : Json) :
    Prog.Keeps (Appends KeptRun good) (RunStore.linkResult env id resultId) := by
  refine update_keepsRuns hgood ?_
  intro k r r' h hset
  obtain rfl : Obj.set r "result_id" resultId = r' := Except.ok.inj hset
  exact h.set _ (by decide)

/-- A status is checked before it is set. -/
theorem setStatus_keepsRuns (hgood : ∀ name r, WellFormedRun r → good (name, .obj r)) :
    Prog.Keeps (Appends KeptRun good) (RunStore.setStatus env id status) := by
  by_cases hvalid : ValidStatus status
  · have hupdate : Prog.Keeps (Appends KeptRun good)
        (RunStore.update env id fun r => .ok (Obj.set r "status" status)) := by
      refine update_keepsRuns hgood ?_
      intro k r r' h hset
      obtain rfl : Obj.set r "status" status = r' := Except.ok.inj hset
      refine ⟨?_, ?_, ?_⟩
      · rw [Obj.get_set_ne _ (by decide)]
        exact h.key
      · rw [Obj.get_set_self]
        exact hvalid
      · rw [Obj.lookup_set_ne _ (by decide)]
        exact h.wellFormed.artifacts
    unfold RunStore.setStatus
    exact .ite (.bind (.throw _) fun _ => hupdate) hupdate
  · have hcheck : (RunStore.validStatuses.any fun s => status.pyEq (.str s)) = false := by
      rw [Bool.eq_false_iff]
      intro hany
      obtain ⟨s, hs, heq⟩ := List.any_eq_true.mp hany
      exact hvalid ⟨s, hs, Json.pyEq_str.mp heq⟩
    intro st
    unfold RunStore.setStatus
    rw [hcheck]
    exact Std.Refl.refl st

/-- An artifact keeps its run well formed. -/
theorem setArtifact_kept {label path : String} (h : KeptRun k r)
    (hset : RunStore.setArtifact label path r = .ok r') :
    KeptRun k r' := by
  obtain ⟨paths, hpaths⟩ := h.wellFormed.artifacts
  have hitem : getItem r "artifacts" = .ok (.obj paths) := by
    rw [getItem, hpaths]
  unfold RunStore.setArtifact at hset
  rw [hitem] at hset
  obtain rfl : Obj.set r "artifacts" (.obj (Obj.set paths label (.str path))) = r' := Except.ok.inj hset
  refine ⟨?_, ?_, ?_⟩
  · rw [Obj.get_set_ne _ (by decide)]
    exact h.key
  · rw [Obj.get_set_ne _ (by decide)]
    exact h.wellFormed.status
  · exact ⟨_, Obj.lookup_set_self _ _ _⟩

/-- Nothing is attached to an id that is no string. -/
theorem attach_refused_id {label filename text : Json} (h : ∀ rid, id ≠ .str rid) :
    ((RunStore.attach env id label filename text).exec st).2 = st := by
  unfold RunStore.attach
  cases hkey : id.key? with
  | none => simp [Prog.exec_bind, hashKey, hkey]
  | some k =>
    cases hr : st.records.get? k with
    | none => simp [Prog.exec_bind, hashKey, hkey, hr]
    | some r =>
      simp only [Prog.exec_bind, hashKey, hkey, Prog.exec_ofExcept, Prog.exec_get, hr]
      split
      · next rid name content => exact absurd rfl (h rid)
      · rfl

/-- An attachment changes the artifacts only. -/
theorem attach_keepsRuns {label filename text : Json} (hgood : ∀ name r, WellFormedRun r → good (name, .obj r))
    (htext : ∀ rid name content r written, id = .str rid → filename = .str name → text = .str content →
      st.records.get? (.str rid) = some r → env.nameError name = none →
      env.writable (attachedName rid name) = true → good (attachedName rid name, .str written)) :
    Appends KeptRun good st ((RunStore.attach env id label filename text).exec st).2 := by
  by_cases hid : ∃ rid, id = .str rid
  · obtain ⟨rid, rfl⟩ := hid
    by_cases hwrites : ∃ name content r, filename = .str name ∧ text = .str content ∧
        st.records.get? (.str rid) = some r ∧ env.nameError name = none ∧
        env.writable (attachedName rid name) = true
    · obtain ⟨name, content, r, rfl, rfl, hr, hnamed, hwritable⟩ := hwrites
      have hwritten : ∀ written, Appends KeptRun good st
          { st with writes := st.writes ++ [(attachedName rid name, .str written)] } := by
        refine fun written h => ⟨h, _, rfl, ?_⟩
        intro w hw
        rw [List.mem_singleton.mp hw]
        exact htext rid name content r written rfl rfl rfl hr hnamed hwritable
      have hupdated : Prog.Keeps (Appends KeptRun good) (RunStore.update env (.str rid) fun r => do
          let label ← labelKey env label
          RunStore.setArtifact label (joinedText env.runsDir rid name) r) := by
        refine update_keepsRuns hgood fun k r r' h hset => ?_
        cases hlabel : labelKey env label with
        | error e =>
          rw [hlabel] at hset
          cases hset
        | ok key =>
          rw [hlabel] at hset
          exact setArtifact_kept h hset
      cases hcontent : env.encodeError content with
      | some m =>
        rw [exec_attach_unencoded hr hnamed hwritable hcontent]
        exact hwritten ""
      | none =>
        rw [exec_attach_encoded hr hnamed hwritable hcontent]
        exact IsTrans.trans _ _ _ (hwritten content) (hupdated _)
    · have hrefused : ((RunStore.attach env (.str rid) label filename text).exec st).2 = st := by
        refine attach_refused fun name content r hname hcontent hr hnamed => ?_
        by_contra hwritable
        exact hwrites ⟨name, content, r, hname, hcontent, hr, hnamed, by simpa using hwritable⟩
      rw [hrefused]
      exact Std.Refl.refl st
  · rw [attach_refused_id fun rid heq => hid ⟨rid, heq⟩]
    exact Std.Refl.refl st

/-- Attaching a text to a kept run under a string label returns once the text is written. -/
theorem exec_attach_kept {rid name label content : String} (hr : st.records.get? (.str rid) = some r)
    (hkept : KeptRun (.str rid) r) (hnamed : env.nameError name = none)
    (hwritable : env.writable (attachedName rid name) = true) (hcontent : env.encodeError content = none) :
    ∃ u st',
      (RunStore.attach env (.str rid) (.str label) (.str name) (.str content)).exec st = (.ok u, st') := by
  obtain ⟨s, hs, hstatus⟩ := hkept.wellFormed.status
  obtain ⟨paths, hpaths⟩ := hkept.wellFormed.artifacts
  have hitem : getItem r "artifacts" = .ok (.obj paths) := by
    rw [getItem, hpaths]
  have hset : RunStore.setArtifact label (joinedText env.runsDir rid name) r =
      .ok (Obj.set r "artifacts" (.obj (Obj.set paths label (.str (joinedText env.runsDir rid name))))) := by
    unfold RunStore.setArtifact
    rw [hitem]
    rfl
  have hrun : RunStore.IsRun rid s (Obj.get r "result_id")
      (Obj.set r "artifacts" (.obj (Obj.set paths label (.str (joinedText env.runsDir rid name))))) := by
    constructor
    · rw [Obj.get_set_ne _ (by decide)]
      exact key?_eq_str hkept.key
    · rw [Obj.get_set_ne _ (by decide)]
      exact hstatus
    · exact Obj.get_set_ne _ (by decide) _
    · exact ⟨_, Obj.lookup_set_self _ _ _⟩
  have hwritten : ({ st with writes := st.writes ++ [(attachedName rid name, .str content)] } : Store).records.get?
      (.str rid) = some r := hr
  obtain ⟨u, st', hexec, -⟩ := RunStore.exec_update env
    (fun r => do
      let label ← labelKey env (.str label)
      RunStore.setArtifact label (joinedText env.runsDir rid name) r) hwritten hset hrun
  exact ⟨u, st', (exec_attach_encoded hr hnamed hwritable hcontent).trans hexec⟩

end Store

section Handlers

variable {env : Env} {good : String × Json → Prop} {params : Obj} {t : Tunnel} {method : RunMethod}

/-- The run store keeps its runs, whatever else changes. -/
def KeepsRuns (good : String × Json → Prop) (t t' : Tunnel) : Prop := Appends KeptRun good t.runs t'.runs

instance : Std.Refl (KeepsRuns good) := ⟨fun t => Std.Refl.refl t.runs⟩

instance : IsTrans Tunnel (KeepsRuns good) :=
  ⟨fun t₁ t₂ t₃ h h' => IsTrans.trans (r := Appends KeptRun good) t₁.runs t₂.runs t₃.runs h h'⟩

/-- What keeps the store of runs keeps the runs. -/
theorem onRuns_keepsRuns {α : Type} {m : Prog PyExc Store α} (hm : Prog.Keeps (Appends KeptRun good) m) :
    Prog.Keeps (KeepsRuns good) (onRuns m) := hm.zoom fun _ _ h => h

/-- What leaves the runs keeps them. -/
theorem keepsRuns_of_fixes {α : Type} {m : Prog PyExc Tunnel α} (hm : Prog.Keeps (Prog.Fixes Tunnel.runs) m) :
    Prog.Keeps (KeepsRuns good) m := by
  intro t
  have hsame : (m.exec t).2.runs = t.runs := hm t
  unfold KeepsRuns
  rw [hsame]
  exact Std.Refl.refl t.runs

/-- Emitting an event keeps them. -/
theorem emit_keepsRuns (etype : String) (payload : Obj) :
    Prog.Keeps (KeepsRuns good) (emit env etype payload) :=
  keepsRuns_of_fixes fun _ => rfl

/-- Creating a run from a well formed payload keeps them. -/
theorem mRunCreate_keepsRuns (hgood : ∀ name r, WellFormedRun r → good (name, .obj r))
    (hinfo : ∀ info, Obj.get params "run" = .obj info → WellFormedInfo info) :
    Prog.Keeps (KeepsRuns good) (mRunCreate env params) := by
  have hcreate : ∀ info : Obj, WellFormedInfo info → Prog.Keeps (KeepsRuns good) (do
      let run ← onRuns (RunStore.create env info)
      return .obj [("run", .obj run)] : Prog PyExc Tunnel Json) := fun info h =>
    .bind (onRuns_keepsRuns (create_keepsRuns hgood h)) fun _ => .pure _
  have hempty : WellFormedInfo [] := ⟨by simp, by simp⟩
  unfold mRunCreate
  cases hrun : Obj.get params "run" with
  | obj info => exact hcreate info (hinfo info hrun)
  | _ => exact hcreate [] hempty

/-- Asking for an id reads only. -/
theorem requireId_reads (field : String) : Prog.Reads (requireId field params) := by
  unfold requireId
  exact .ite (.pure _) (.throw _)

/-- Setting a status keeps them. -/
theorem mRunSetStatus_keepsRuns (hgood : ∀ name r, WellFormedRun r → good (name, .obj r)) :
    Prog.Keeps (KeepsRuns good) (mRunSetStatus env params) := by
  unfold mRunSetStatus
  refine .bind (requireId_reads _).keeps fun rid => ?_
  refine .bind (onRuns_keepsRuns (setStatus_keepsRuns hgood)).mapError fun run => ?_
  exact .ite (.bind (emit_keepsRuns _ _) fun _ => .pure _) (.pure _)

/-- Importing a result keeps them. -/
theorem mRunImportResult_keepsRuns (hgood : ∀ name r, WellFormedRun r → good (name, .obj r)) :
    KeepsRuns good t ((mRunImportResult env params).exec t).2 := by
  have hstore : ∀ rid result, Prog.Keeps (KeepsRuns good) (storeImported env rid result) := fun rid result =>
    .bind (keepsRuns_of_fixes fun _ => rfl) fun _ =>
    .bind (onRuns_keepsRuns (linkResult_keepsRuns hgood _)) fun _ =>
    .bind (onRuns_keepsRuns (setStatus_keepsRuns hgood)) fun _ =>
    .bind (emit_keepsRuns _ _) fun _ => .bind (emit_keepsRuns _ _) fun _ => .pure _
  rcases mRunImportResult_cases env params t with ⟨_, e, hexec⟩ | ⟨result, rid, _, hexec⟩
  · rw [hexec]
    exact Std.Refl.refl t
  · rw [hexec]
    exact hstore rid result t

/-- `run.attach` hands its parameters to the store or leaves the runs alone. -/
theorem mRunAttach_keepsRuns (hgood : ∀ name r, WellFormedRun r → good (name, .obj r))
    (htext : ∀ rid filename written, AttachesText env params t rid filename →
      good (attachedName rid filename, .str written)) :
    KeepsRuns good t ((mRunAttach env params).exec t).2 := by
  have hrefl : KeepsRuns good t t := Std.Refl.refl t
  have hcore : (Obj.get params "run_id").truthy = true → (Obj.get params "label").truthy = true →
      KeepsRuns good t ((do
        let filename ← Prog.ofExcept (attachFilename params)
        let run ← (onRuns (RunStore.attach env (Obj.get params "run_id") (Obj.get params "label") filename
          (Obj.get params "text"))).mapError keyErrorAsRpc
        return .obj [("run", .obj run)] : Prog PyExc Tunnel Json).exec t).2 := by
    intro hid hlabel
    cases htarget : attachFilename params with
    | error e =>
      rw [Prog.exec_bind_error (Prog.exec_ofExcept _ _)]
      exact hrefl
    | ok filename =>
      rw [Prog.exec_bind_ok (Prog.exec_ofExcept _ _), KeepsRuns, runs_attached]
      refine attach_keepsRuns hgood fun rid name content r written hrid hname hcontent hr hnamed hwritable => ?_
      refine htext rid name written
        ⟨hrid, ?_, hlabel, ⟨content, hcontent⟩, ?_, ⟨r, hr⟩, hnamed, hwritable⟩
      · simpa [hrid] using hid
      · rw [htarget, hname]
  unfold mRunAttach
  dsimp only
  cases hboth : (Obj.get params "run_id").truthy && (Obj.get params "label").truthy with
  | false => exact hrefl
  | true =>
    simp only [Bool.and_eq_true] at hboth
    have hrun := hcore hboth.1 hboth.2
    simp only [Bool.not_true, Bool.false_eq_true, if_false]
    cases htext : Obj.get params "text" with
    | null => exact hrefl
    | _ =>
      rw [htext] at hrun
      exact hrun

/-- What a request does to the runs. -/
theorem handleRun_keepsRuns (hgood : ∀ name r, WellFormedRun r → good (name, .obj r))
    (hinfo : RunInput.WellFormed (.request env method params))
    (htext : method = .runAttach → ∀ rid filename written, AttachesText env params t rid filename →
      good (attachedName rid filename, .str written)) :
    KeepsRuns good t ((handleRun env method params).exec t).2 := by
  cases method with
  | runCreate => exact mRunCreate_keepsRuns hgood hinfo t
  | runSetStatus => exact mRunSetStatus_keepsRuns hgood t
  | runAttach =>
    exact mRunAttach_keepsRuns hgood (htext rfl)
  | runImportResult => exact mRunImportResult_keepsRuns hgood

end Handlers

section Loading

variable {env : Env} {home : Place} {files : Contents} {names : List (List Char)}

/-- All records of a dictionary are kept ones. -/
def AllKept (records : Dict Key Obj) : Prop := ∀ k r, records.get? k = some r → KeptRun k r

/-- A well formed run that is loaded is kept. -/
theorem addRun_kept {records loaded : Dict Key Obj} {r : Obj} (h : AllKept records) (hr : WellFormedRun r)
    (hadd : addRun records (.obj r) = .ok loaded) : AllKept loaded := by
  dsimp only [addRun] at hadd
  split at hadd
  · cases hkey : (Obj.get r "run_id").key? with
    | none => simp [hashKey, hkey, Except.map] at hadd
    | some k =>
      have hloaded : records.insert k r = loaded := by simpa [hashKey, hkey, Except.map] using hadd
      have hkept : AllRecords KeptRun ⟨records, []⟩ := h
      rw [← hloaded]
      exact hkept.insert ⟨hkey, hr⟩ []
  · rw [← Except.ok.inj hadd]
    exact h

/-- Loading `run.json` files that hold well formed records. -/
theorem foldlM_loadRun_kept (hfiles : ∀ name v, files (Archive.runFile home name) = some v →
    ∃ r, v = .obj r ∧ WellFormedRun r) {records loaded : Dict Key Obj} (h : AllKept records)
    (hload : (names.map (Archive.runFile home)).foldlM (loadRun env files) records = .ok loaded) :
    AllKept loaded := by
  induction names generalizing records with
  | nil =>
    obtain rfl : records = loaded := Except.ok.inj hload
    exact h
  | cons name names ih =>
    rw [List.map_cons, List.foldlM_cons] at hload
    cases hone : loadRun env files records (Archive.runFile home name) with
    | error e =>
      rw [hone] at hload
      cases hload
    | ok next =>
      rw [hone] at hload
      refine ih ?_ hload
      cases hfile : files (Archive.runFile home name) with
      | none =>
        have hsame : records = next := by simpa [loadRun, hfile] using hone
        rw [← hsame]
        exact h
      | some v =>
        obtain ⟨r, rfl, hr⟩ := hfiles name v hfile
        have hadd : addRun records (.obj r) = .ok next := by simpa [loadRun, hfile] using hone
        exact addRun_kept h hr hadd

/-- A file that was written holds a well formed record, or is none that a new process reads. -/
def RecordOrApart (home : Place) (w : String × Json) : Prop :=
  (∃ r, w.2 = .obj r ∧ WellFormedRun r) ∨
    ∀ name, locate (Archive.runsDir home) w.1.toList ≠ Archive.runFile home name

/-- The files of runs hold well formed runs. -/
theorem runFiles_wellFormed {t : Tunnel} (h : ∀ w ∈ t.runs.writes, RecordOrApart home w)
    (name : List Char) (v : Json)
    (hfile : runFiles home t (Archive.runFile home name) = some v) : ∃ r, v = .obj r ∧ WellFormedRun r := by
  unfold runFiles at hfile
  rcases Contents.write_cases with hsame | ⟨w, hw, hplace, hwritten⟩
  · rw [hsame] at hfile
    cases hfile
  · rw [hwritten] at hfile
    rcases h w hw with hrecord | hapart
    · rw [← Option.some.inj hfile]
      exact hrecord
    · exact absurd hplace (hapart name)

end Loading

section Runs

variable {home : Place} {t : Tunnel} {h : List (Entry Tunnel RunInput (Except PyExc Json))}

/-- All runs are kept, and the run store has written nothing but such files. -/
structure RunsKept (good : String × Json → Prop) (t : Tunnel) : Prop where
  records : AllRecords KeptRun t.runs
  writes : ∀ w ∈ t.runs.writes, good w

/-- Kept runs stay so. -/
theorem RunsKept.of_keepsRuns {good : String × Json → Prop} {t' : Tunnel} (hkept : RunsKept good t)
    (h : KeepsRuns good t t') : RunsKept good t' := by
  obtain ⟨hrecords, writes, heq, hgood⟩ := h hkept.records
  refine ⟨hrecords, fun w hw => ?_⟩
  rw [heq] at hw
  rcases List.mem_append.mp hw with hmem | hmem
  · exact hkept.writes w hmem
  · exact hgood w hmem

/-- There is no run at first. -/
theorem runsKept_init {good : String × Json → Prop} (hinit : (runMachine home).init t) : RunsKept good t := by
  have hempty : t.runs = .empty := hinit
  constructor
  · rw [hempty]
    intro k r hr
    cases hr
  · rw [hempty]
    intro w hw
    cases hw

/-- An attachment that writes its file is what the store makes of it. -/
theorem exec_mRunAttach {env : Env} {params : Obj} {rid filename content : String}
    (hattaches : AttachesText env params t rid filename) (htext : Obj.get params "text" = .str content) :
    (mRunAttach env params).exec t = (do
      let run ← (onRuns (RunStore.attach env (.str rid) (Obj.get params "label") (.str filename)
        (.str content))).mapError keyErrorAsRpc
      return .obj [("run", .obj run)] : Prog PyExc Tunnel Json).exec t := by
  have htruthy : (Json.str rid).truthy = true := by simpa using hattaches.truthy
  unfold mRunAttach
  simp only [hattaches.run, htruthy, hattaches.labelled, Bool.and_self, Bool.not_true, Bool.false_eq_true,
    if_false, htext]
  rw [Prog.exec_bind_ok (by rw [Prog.exec_ofExcept, hattaches.target])]

/-- Kept runs are served. -/
theorem servesRuns_of_kept (hkept : AllRecords KeptRun t.runs) : ServesRuns t := by
  refine ⟨fun k r hr => (hkept k r hr).wellFormed, ?_⟩
  intro env params rid filename label content hattaches hlabel htext hcontent
  obtain ⟨r, hr⟩ := hattaches.stored
  obtain ⟨u, st', hexec⟩ := @exec_attach_kept env r t.runs rid filename label content hr (hkept _ _ hr)
    hattaches.named hattaches.writable hcontent
  have hruns : (onRuns (RunStore.attach env (.str rid) (.str label) (.str filename) (.str content))).exec t =
      (.ok u, { t with runs := st' }) := by
    rw [exec_onRuns, hexec]
  rw [exec_mRunAttach hattaches htext, hlabel, Prog.exec_bind_ok (Prog.exec_mapError_eq_ok.mpr hruns)]
  rfl

/-- A text that cannot be encoded raises once its file was emptied. -/
theorem attach_unencoded_raises {env : Env} {params : Obj} {rid filename content : String} {m : Message}
    (hattaches : AttachesText env params t rid filename) (htext : Obj.get params "text" = .str content)
    (hcontent : env.encodeError content = some m) :
    ((mRunAttach env params).exec t).1 = .error (.valueError m) := by
  obtain ⟨r, hr⟩ := hattaches.stored
  have hruns : (onRuns (RunStore.attach env (.str rid) (Obj.get params "label") (.str filename)
      (.str content))).exec t = (.error (.valueError m),
      { t with runs := { t.runs with writes := t.runs.writes ++ [(attachedName rid filename, .str "")] } }) := by
    rw [exec_onRuns, exec_attach_unencoded hr hattaches.named hattaches.writable hcontent]
  have hmapped : ((onRuns (RunStore.attach env (.str rid) (Obj.get params "label") (.str filename)
      (.str content))).mapError keyErrorAsRpc).exec t = (.error (.valueError m),
      { t with runs := { t.runs with writes := t.runs.writes ++ [(attachedName rid filename, .str "")] } }) := by
    rw [Prog.exec_mapError, hruns]
    rfl
  rw [exec_mRunAttach hattaches htext, Prog.exec_bind_error hmapped]

/-- Creating a run that is not well formed stores it. -/
theorem not_servesRuns_created {env : Env} {params info : Obj} (hrun : Obj.get params "run" = .obj info)
    (hinfo : ¬ WellFormedInfo info) : ¬ ServesRuns ((mRunCreate env params).exec t).2 := by
  obtain ⟨writes, hexec, -⟩ := exec_create_snd env info t.runs
  intro hserves
  refine hinfo (wellFormedRun_createdRun_iff.mp (hserves.wellFormed (.str ("run_" ++ env.uuid))
    (createdRun env info) ?_))
  have hruns : (onRuns (RunStore.create env info)).exec t = (.ok (createdRun env info),
      { t with runs := ⟨t.runs.records.insert (.str ("run_" ++ env.uuid)) (createdRun env info),
        t.runs.writes ++ writes⟩ }) := by
    rw [exec_onRuns, hexec]
  unfold mRunCreate
  simp only [hrun]
  rw [Prog.exec_bind_ok hruns]
  exact Dict.get?_insert_self _ _ _

/-- A step keeps the runs, if only well formed runs are created, the files of records are good, and so are
those of the attachments. -/
theorem runsKept_request {good : String × Json → Prop} {env : Env} {method : RunMethod} {params : Obj}
    (hgood : ∀ name r, WellFormedRun r → good (name, .obj r))
    (hinfo : RunInput.WellFormed (.request env method params))
    (htext : method = .runAttach → ∀ rid filename written, AttachesText env params t rid filename →
      good (attachedName rid filename, .str written)) (hkept : RunsKept good t) :
    RunsKept good ((runMachine home).step (.request env method params) t).2 :=
  hkept.of_keepsRuns (handleRun_keepsRuns hgood hinfo htext)

/-- A new process loads kept runs, if no text stands in place of a record. -/
theorem runsKept_restart {env : Env} {names : List (List Char)} {others : Tunnel}
    (hkept : RunsKept (RecordOrApart home) t) :
    RunsKept (RecordOrApart home) ((runMachine home).step (.restart env names others) t).2 := by
  dsimp only [runMachine]
  cases hload : (names.map (Archive.runFile home)).foldlM (loadRun env (runFiles home t)) Dict.empty with
  | error e => exact hkept
  | ok records =>
    have hempty : AllKept Dict.empty := by
      intro k r hr
      cases hr
    exact ⟨foldlM_loadRun_kept (runFiles_wellFormed hkept.writes) hempty hload, hkept.writes⟩

/-- What every admitted step keeps holds before and after each of them. -/
theorem runsKept_around {good : String × Json → Prop} {ok : Tunnel → RunInput → Prop}
    (hstep : ∀ t i, ok t i → RunsKept good t → RunsKept good ((runMachine home).step i t).2)
    (hrun : Run (runMachine home) ok h t) {e : Entry Tunnel RunInput (Except PyExc Json)} (he : e ∈ h) :
    RunsKept good e.before ∧ RunsKept good e.after := by
  obtain ⟨h₁, h₂, rfl, hprior, hok, hfire⟩ := hrun.split_of_mem he
  have hbefore : RunsKept good e.before := hprior.invariant (fun _ => runsKept_init) hstep
  refine ⟨hbefore, ?_⟩
  rw [hfire]
  exact hstep _ _ hok hbefore

/-- Over kept runs a text that can be encoded is attached whole. -/
theorem attachedWhole_of_kept {e : Entry Tunnel RunInput (Except PyExc Json)}
    (hfire : e = (runMachine home).fire e.before e.input) (hkept : AllRecords KeptRun e.before.runs)
    (hencodes : e.input.EncodesText e.before) : AttachedWhole e := by
  intro env params rid filename label hinput hattaches hlabel
  obtain ⟨content, htext⟩ := hattaches.text
  rw [hinput] at hencodes hfire
  have hcontent : env.encodeError content = none := hencodes rid filename label content hattaches hlabel htext
  rw [hfire]
  exact (servesRuns_of_kept hkept).attaches env params rid filename label content hattaches hlabel htext hcontent

/-- Where every attachment is whole, their texts can be encoded. -/
theorem encodesText_of_whole {e : Entry Tunnel RunInput (Except PyExc Json)}
    (hfire : e = (runMachine home).fire e.before e.input) (hwhole : AttachedWhole e) :
    e.input.EncodesText e.before := by
  cases hinput : e.input with
  | restart env names others => trivial
  | request env method params =>
    cases method with
    | runAttach =>
      intro rid filename label content hattaches hlabel htext
      have hok := hwhole env params rid filename label hinput hattaches hlabel
      rw [hfire, hinput] at hok
      cases hcontent : env.encodeError content with
      | none => rfl
      | some m =>
        have hraised := attach_unencoded_raises hattaches htext hcontent
        change ((mRunAttach env params).exec e.before).1.isOk = true at hok
        rw [hraised] at hok
        cases hok
    | _ => trivial

/-- The runs are well formed in every state and every attachment is whole exactly when only well formed runs
are created and only texts that can be encoded attached; over starts of new processes too, as long as no text
is attached in place of a `run.json`. -/
theorem runs_well_formed_iff (hrun : Run (runMachine home) (fun _ _ => True) h t) :
    ((∀ e ∈ h, e.input.isRequest = true) →
      ((∀ e ∈ h, ServesRuns e.after ∧ AttachedWhole e) ↔
        ∀ e ∈ h, e.input.WellFormed ∧ e.input.EncodesText e.before)) ∧
    ((∀ e ∈ h, e.input.WellFormed ∧ e.input.EncodesText e.before ∧ e.input.AttachesApart home e.before) →
      ∀ e ∈ h, ServesRuns e.after ∧ AttachedWhole e) := by
  refine ⟨fun hrequests => ⟨fun hserves e he => ?_, fun hinputs e he => ?_⟩, fun hinputs e he => ?_⟩
  · obtain ⟨-, -, -, -, -, hfire⟩ := hrun.split_of_mem he
    obtain ⟨hafter, hwhole⟩ := hserves e he
    refine ⟨?_, encodesText_of_whole hfire hwhole⟩
    rw [hfire] at hafter
    cases hinput : e.input with
    | restart env names others => trivial
    | request env method params =>
      cases method with
      | runCreate =>
        intro info hinfo
        rw [hinput] at hafter
        by_contra hnot
        exact not_servesRuns_created hinfo hnot hafter
      | _ => trivial
  · obtain ⟨-, -, -, -, -, hfire⟩ := hrun.split_of_mem he
    have hrestricted : Run (runMachine home) (fun _ i => i.isRequest = true ∧ i.WellFormed) h t :=
      hrun.restrict fun e he => ⟨hrequests e he, (hinputs e he).1⟩
    have hkept : RunsKept (fun _ => True) e.before ∧ RunsKept (fun _ => True) e.after := by
      refine runsKept_around (fun t i hok hkept => ?_) hrestricted he
      cases i with
      | restart env names others => cases hok.1
      | request env method params =>
        exact runsKept_request (fun _ _ _ => trivial) hok.2 (fun _ _ _ _ _ => trivial) hkept
    exact ⟨servesRuns_of_kept hkept.2.records, attachedWhole_of_kept hfire hkept.1.records (hinputs e he).2⟩
  · obtain ⟨-, -, -, -, -, hfire⟩ := hrun.split_of_mem he
    have hrestricted : Run (runMachine home) (fun t i => i.WellFormed ∧ i.AttachesApart home t) h t :=
      hrun.restrict fun e he => ⟨(hinputs e he).1, (hinputs e he).2.2⟩
    have hkept : RunsKept (RecordOrApart home) e.before ∧ RunsKept (RecordOrApart home) e.after := by
      refine runsKept_around (fun t i hok hkept => ?_) hrestricted he
      cases i with
      | restart env names others => exact runsKept_restart hkept
      | request env method params =>
        refine runsKept_request (fun name r hr => .inl ⟨r, rfl, hr⟩) hok.1
          (fun hmethod rid filename written h => ?_) hkept
        subst hmethod
        exact .inr (hok.2 rid filename h)
    exact ⟨servesRuns_of_kept hkept.2.records, attachedWhole_of_kept hfire hkept.1.records (hinputs e he).2.1⟩

/-- A new run as the plugin creates it. -/
def sampleRun : Obj := [("run", .obj [("test", .str "tb"), ("status", .str "running")])]

/-- A text for the run with this id. -/
def sampleLog : Obj :=
  [("run_id", .str "run_0123456789ab"), ("label", .str "log"), ("filename", .str "sim.log"),
    ("text", .str "ok")]

/-- The run is created and the log is attached to it. -/
def sampleAttaching : List RunInput :=
  [.request .sample .runCreate sampleRun, .request .sample .runAttach sampleLog]

/-- The run has the log in the end, and all is well on the way. -/
theorem runs_well_formed_iff_sample :
    (((runMachine []).last (Tunnel.fresh .empty) sampleAttaching).runs.records.get?
      (.str "run_0123456789ab")).map (fun r => Obj.get r "artifacts") =
        some (.obj [("log", .str ".vfp/runs/run_0123456789ab/sim.log")]) ∧
    ∀ e ∈ (runMachine []).trace (Tunnel.fresh .empty) sampleAttaching, ServesRuns e.after ∧ AttachedWhole e := by
  refine ⟨by rfl, ?_⟩
  have hinit : (runMachine []).init (Tunnel.fresh .empty) := rfl
  have hrun : Run (runMachine []) (fun _ _ => True) _ _ :=
    (Run.init hinit).append_trace sampleAttaching fun _ _ => trivial
  have hinput : ∀ e ∈ (runMachine []).trace (Tunnel.fresh .empty) sampleAttaching,
      e.input = .request .sample .runCreate sampleRun ∨ e.input = .request .sample .runAttach sampleLog := by
    intro e he
    simpa [sampleAttaching] using Machine.input_mem_of_trace he
  refine ((runs_well_formed_iff hrun).1 fun e he => ?_).mpr fun e he => ?_
  · rcases hinput e he with hcreate | hattach
    · rw [hcreate]
      rfl
    · rw [hattach]
      rfl
  · rcases hinput e he with hcreate | hattach
    · rw [hcreate]
      refine ⟨fun info hinfo => ?_, trivial⟩
      obtain rfl := Json.obj.inj hinfo
      refine ⟨?_, ?_⟩
      · intro v hv
        obtain rfl := Option.some.inj hv
        exact ⟨"running", by decide, rfl⟩
      · intro v hv
        cases hv
    · rw [hattach]
      exact ⟨trivial, fun _ _ _ _ _ _ _ => rfl⟩

/-- A run whose artifacts are a list. -/
def sampleListedRun : Obj := [("run", .obj [("status", .str "bogus"), ("artifacts", .arr [])])]

/-- The daemon after that run was created. -/
def sampleUnfit : Tunnel :=
  (runMachine []).last (Tunnel.fresh .empty) [.request .sample .runCreate sampleListedRun]

/-- The run of the sample is stored with a status that is none. -/
theorem unfit_stored :
    (sampleUnfit.runs.records.get? (.str "run_0123456789ab")).map (fun r => Obj.get r "status") =
    some (.str "bogus") := by
  rfl

/-- A log cannot be attached to it. -/
theorem unfit_refuses : ((mRunAttach .sample sampleLog).exec sampleUnfit).1 = .error .typeError := by
  rfl

/-- `run.create` stores a status and artifacts of any kind; `run.attach` then raises with its file written. -/
theorem unfit_run_created :
    (∃ r, sampleUnfit.runs.records.get? (.str "run_0123456789ab") = some r ∧ ¬ WellFormedRun r) ∧
    ((mRunAttach .sample sampleLog).exec sampleUnfit).1 = .error .typeError ∧
    ("run_0123456789ab/sim.log", Json.str "ok") ∈
      ((mRunAttach .sample sampleLog).exec sampleUnfit).2.runs.writes := by
  obtain ⟨r, hr, hstatus⟩ := Option.map_eq_some_iff.mp unfit_stored
  refine ⟨⟨r, hr, fun hwellFormed => ?_⟩, unfit_refuses, List.mem_cons_of_mem _ List.mem_cons_self⟩
  obtain ⟨s, hs, heq⟩ := hwellFormed.status
  obtain rfl : "bogus" = s := Json.str.inj (hstatus.symm.trans heq)
  exact absurd hs (by decide)

end Runs

end VirtuosoFlow.Tunnel
