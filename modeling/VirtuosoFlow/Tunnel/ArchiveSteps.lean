import VirtuosoFlow.Tunnel.ArchiveLinks

/-!
# What one step stores

A request or a step of a runner stores one result or none, one context or none, and writes the files of
the jobs and runs that it changes. The dated file of a result or context is named by the second in which it
is stored.
-/

namespace VirtuosoFlow.Tunnel

open Base Base.Posix

/-- A host whose disk takes the files of both stores, and whose stamps and fresh ids are no paths. -/
structure WorkingHost (env : Env) : Prop where
  dirs : env.dirsOk = true
  results : LatestWritable env "result"
  contexts : LatestWritable env "context"
  stamp : '/' ∉ (env.fileStamp env.now).toList
  uuid : '/' ∉ env.uuid.toList

/-- An input is served by such a host. -/
def ArchiveInput.Hosted : ArchiveInput → Prop
  | .resultUpdate env _ _ | .runImportResult env _ | .contextUpdate env _ _ | .jobRun env _ => WorkingHost env
  | .advance w _ => WorkingHost w.env
  | .restart .. => True

/-- The dated file of the current second. -/
def datedFile (home : Place) (kind : String) (env : Env) : Place :=
  storeOf home kind ++ [(datedName env kind).toList]

/-- What a store came to hold in a step, dated. -/
def ResultStore.newHistory (before after : ResultStore) : List (String × Obj) :=
  after.history.drop before.history.length

/-- What is known of a runner: its job's file lies apart, and the result it stored is one of these. -/
structure Runner.Linked (home : Place) (ids : Json → Prop) (r : Runner) : Prop where
  apart : ∀ s, r.jobId = .str s → FileApart home s
  point : r.point.Backed ids

/-- The dated file of the current second is not there yet, or it holds this value. -/
def SecondFree (home : Place) (kind : String) (files : Contents) (env : Env) (value : Obj) : Prop :=
  ∀ v, files (datedFile home kind env) = some v → v = .obj value

/-- A working host serves the input; what it stores meets no other value of its second; a job that is started
has its file apart. -/
structure Spaced (home : Place) (s : Archive) (i : ArchiveInput) : Prop where
  hosted : i.Hosted
  result : ∀ x ∈ s.resultToStore i, SecondFree home "result" s.files x.1 x.2
  context : ∀ x ∈ s.contextStored i, SecondFree home "context" s.files x.1 x.2
  job : ∀ env params id, i = .jobRun env params → Obj.get params "job_id" = .str id → FileApart home id

section Stores

variable {env : Env} {kind : String} {value : Obj} {params : Obj} {w : World}

/-- A value that can be written becomes the latest one, with a dated copy. -/
theorem exec_updateLatest (hdirs : env.dirsOk = true) (hw : LatestWritable env kind) (st : ResultStore) :
    (updateLatest env kind value).exec st =
      (.ok (), ⟨some value, some value, st.history ++ [(datedName env kind, value)]⟩) := by
  obtain ⟨hlatest, hdated⟩ := hw
  simp [updateLatest, Prog.exec_bind, hdirs, hlatest, hdated, datedName]

/-- So does a result. -/
theorem exec_update_results (hhost : WorkingHost env) (t : Tunnel) : (onResults (ResultStore.update env value)).exec t =
    (.ok (), { t with
      results := ⟨some value, some value, t.results.history ++ [(datedName env "result", value)]⟩ }) := by
  rw [exec_onResults, ResultStore.update_eq, exec_updateLatest hhost.dirs hhost.results]

/-- A store that took one value, or none. -/
def Takes (kind : String) (x : Option (Env × Obj)) (before after : ResultStore) : Prop :=
  after.history = before.history ++ x.toList.map fun x => (datedName x.1 kind, x.2)

/-- What was taken is new in the history. -/
theorem Takes.newHistory {x : Option (Env × Obj)} {before after : ResultStore} (h : Takes kind x before after) :
    before.newHistory after = x.toList.map fun x => (datedName x.1 kind, x.2) := by
  rw [ResultStore.newHistory, h, List.drop_left]

/-- A store that stays as it is has taken nothing. -/
theorem takes_none {before after : ResultStore} (h : after = before) : Takes kind none before after :=
  by rw [h]; exact (List.append_nil _).symm

/-- The rest of `result.update`, once the result is made. -/
def storeUpdated (env : Env) (path : String) (result : Obj) : Prog PyExc Tunnel Json := do
  onResults (ResultStore.update env result)
  emit env "result.updated" [("result_id", Obj.get result "result_id")]
  return .obj [("result", .obj result), ("path", .str path)]

/-- A result is refused, or stored. -/
theorem mResultUpdate_cases (env : Env) (path : String) (params : Obj) (t : Tunnel) :
    (∃ e, updatedResult env params = .error e ∧ (mResultUpdate env path params).exec t = (.error e, t)) ∨
    ∃ result, updatedResult env params = .ok result ∧
      (mResultUpdate env path params).exec t = (storeUpdated env path result).exec t := by
  unfold mResultUpdate updatedResult
  cases Obj.get params "result" with
  | obj data =>
    dsimp only
    cases withVerdict env params (makeResult env data) with
    | error e => exact .inl ⟨e, rfl, rfl⟩
    | ok result =>
      cases hvalid : env.validate "result" result with
      | error e => exact .inl ⟨e, by simp [hvalid, bind, Except.bind], by simp [hvalid, Prog.exec_bind]⟩
      | ok u => exact .inr ⟨result, by simp [hvalid, bind, Except.bind, pure, Except.pure],
          by simp [hvalid, Prog.exec_bind, storeUpdated]⟩
  | _ => exact .inl ⟨_, rfl, rfl⟩

/-- `result.update` stores the result that it answers, or raises and stores none. -/
theorem mResultUpdate_takes (hhost : WorkingHost env) (path : String) (params : Obj) (t : Tunnel) :
    Takes "result" ((updatedResult env params).toOption.map (env, ·)) t.results
        ((mResultUpdate env path params).exec t).2.results ∧
      ∀ answer, ((mResultUpdate env path params).exec t).1 = .ok answer →
        ∃ result, updatedResult env params = .ok result ∧
          answer = .obj [("result", .obj result), ("path", .str path)] := by
  rcases mResultUpdate_cases env path params t with ⟨e, hupdated, hexec⟩ | ⟨result, hupdated, hexec⟩
  · rw [hexec, hupdated]
    exact ⟨takes_none rfl, fun answer h => by cases h⟩
  · rw [hexec, hupdated, storeUpdated, Prog.exec_bind_ok (exec_update_results hhost t)]
    refine ⟨rfl, fun answer h => ?_⟩
    cases h
    exact ⟨result, rfl, rfl⟩

/-- Importing a result takes it. -/
theorem storeImported_takes (hhost : WorkingHost env) (rid : Json) (result : Obj) (t : Tunnel) :
    Takes "result" (some (env, result)) t.results ((storeImported env rid result).exec t).2.results ∧
      ∀ answer, ((storeImported env rid result).exec t).1 = .ok answer →
        ∃ run, answer = .obj [("run", .obj run), ("result", .obj result)] := by
  have hruns : ∀ m : Prog PyExc Store Obj, Prog.Keeps (Prog.Fixes Tunnel.results) (onRuns m) := fun _ _ => rfl
  have hemit : ∀ etype payload, Prog.Keeps (Prog.Fixes Tunnel.results) (emit env etype payload) := fun _ _ _ => rfl
  constructor
  · have hrest := Prog.Keeps.of_rest (m := onResults (ResultStore.update env result))
      (fun _ => .bind (hruns (RunStore.linkResult env rid (Obj.get result "result_id"))) fun _ =>
        .bind (hruns (RunStore.setStatus env rid (.str "done"))) fun run =>
        .bind (hemit "result.updated" [("result_id", Obj.get result "result_id")]) fun _ =>
        .bind (hemit "run.done" [("run_id", rid), ("result_id", Obj.get result "result_id")]) fun _ =>
        .pure (Json.obj [("run", .obj run), ("result", .obj result)])) t
    rw [exec_update_results hhost] at hrest
    have hsame : ((storeImported env rid result).exec t).2.results = _ := hrest
    rw [Takes, hsame]
    rfl
  · intro answer hanswer
    obtain ⟨_, _, _, h⟩ := Prog.exec_bind_eq_ok (Prod.ext hanswer rfl)
    obtain ⟨_, _, _, h⟩ := Prog.exec_bind_eq_ok h
    obtain ⟨run, _, _, h⟩ := Prog.exec_bind_eq_ok h
    obtain ⟨_, _, _, h⟩ := Prog.exec_bind_eq_ok h
    obtain ⟨_, _, _, h⟩ := Prog.exec_bind_eq_ok h
    cases h
    exact ⟨run, rfl⟩

/-- The request takes what is to be imported. -/
theorem mRunImportResult_takes (hhost : WorkingHost env) (params : Obj) (t : Tunnel) :
    Takes "result" ((importToStore env params t).map (env, ·)) t.results
        ((mRunImportResult env params).exec t).2.results ∧
      ∀ answer, ((mRunImportResult env params).exec t).1 = .ok answer →
        ∃ result run, importToStore env params t = some result ∧
          answer = .obj [("run", .obj run), ("result", .obj result)] := by
  rcases mRunImportResult_cases env params t with ⟨hnone, e, hexec⟩ | ⟨result, rid, hstore, hexec⟩
  · rw [hexec, hnone]
    exact ⟨takes_none rfl, fun answer h => by cases h⟩
  · rw [hexec, hstore]
    obtain ⟨htakes, hanswers⟩ := storeImported_takes hhost rid result t
    refine ⟨htakes, fun answer h => ?_⟩
    obtain ⟨run, hrun⟩ := hanswers answer h
    exact ⟨result, run, rfl, hrun⟩

/-- `design.context.update` stores its context once the session was touched, and leaves the rest alone. -/
theorem mContextUpdate_takes (hhost : WorkingHost env) (path : String) (params : Obj) (d : Daemon) :
    Takes "context" ((contextToStore env params d.tunnel).map (env, ·)) d.contexts
        ((mContextUpdate env path params).exec d).2.contexts ∧
      (((mContextUpdate env path params).exec d).2.tunnel = d.tunnel ∨
        ((mContextUpdate env path params).exec d).2.tunnel = ((touchSession env params).exec d.tunnel).2) ∧
      ∀ answer context, ((mContextUpdate env path params).exec d).1 = .ok answer →
        Obj.get params "context" = .obj context → contextToStore env params d.tunnel = some context := by
  unfold mContextUpdate contextToStore
  cases Obj.get params "context" with
  | obj context =>
    dsimp only
    cases hvalid : env.validate "context" context with
    | error e =>
      rw [Prog.exec_bind_error (Prog.exec_ofExcept _ _)]
      exact ⟨takes_none rfl, .inl rfl, fun _ _ h => by cases h⟩
    | ok u =>
      rw [Prog.exec_bind_ok (Prog.exec_ofExcept _ _)]
      have htouch : (onTunnel (touchSession env params)).exec d = (((touchSession env params).exec d.tunnel).1,
          { d with tunnel := ((touchSession env params).exec d.tunnel).2 }) := rfl
      cases htouched : ((touchSession env params).exec d.tunnel).1 with
      | error e =>
        rw [htouched] at htouch
        rw [Prog.exec_bind_error htouch]
        exact ⟨takes_none rfl, .inr rfl, fun _ _ h => by cases h⟩
      | ok u =>
        rw [htouched] at htouch
        have hstore : ∀ d : Daemon, (onContexts (ContextStore.update env context)).exec d = (.ok (), { d with
            contexts := ⟨some context, some context,
              d.contexts.history ++ [(datedName env "context", context)]⟩ }) := by
          intro d
          have hupdate : (ContextStore.update env context).exec d.contexts = _ :=
            exec_updateLatest hhost.dirs hhost.contexts d.contexts
          rw [onContexts, Prog.exec_zoom, hupdate]
        rw [Prog.exec_bind_ok htouch, Prog.exec_bind_ok (hstore _)]
        refine ⟨?_, .inr ?_, fun answer context' _ hcontext => ?_⟩
        · cases contextLogged context <;> rfl
        · cases contextLogged context <;> rfl
        · obtain rfl := Json.obj.inj hcontext
          rfl
  | _ => exact ⟨takes_none rfl, .inl rfl, fun _ _ h => by cases h⟩

/-- A runner that is not about to store its result leaves the results alone. -/
theorem runnerStep_results {jobId : Json} {command : List String} {point : RunPoint} (h : point.toStore = none) :
    Prog.Keeps (Prog.Fixes Tunnel.results) (runnerStep w jobId command point) := by
  have hruns : ∀ {α : Type} (m : Prog PyExc Store α), Prog.Keeps (Prog.Fixes Tunnel.results) (onRuns m) :=
    fun _ _ => rfl
  have hjobs : ∀ {α : Type} (m : Prog PyExc Store α), Prog.Keeps (Prog.Fixes Tunnel.results) (onJobs m) :=
    fun _ _ => rfl
  have hemit : ∀ etype payload, Prog.Keeps (Prog.Fixes Tunnel.results) (emit w.env etype payload) := fun _ _ _ => rfl
  cases point with
  | storeResult rid result => cases h
  | lookup =>
    refine .bind (hjobs _) fun job => ?_
    cases job with
    | none => exact .throw _
    | some job => exact .pure _
  | netlist job rid vars =>
    unfold runnerStep
    cases w.env.netlistCmd with
    | none => exact .pure _
    | some ncmd => exact .bind (.ofExcept _) fun _ => .pure _
  | createRun job => exact .bind (hruns _) fun _ => .pure _
  | setRunning job rid => exact .bind (hruns _) fun _ => .pure _
  | linkResult rid result => exact .bind (hruns _) fun _ => .pure _
  | setDone rid result => exact .bind (hruns _) fun _ => .pure _
  | attachNetlist job rid vars code log => exact .bind (.suppress (hruns _)) fun _ => .pure _
  | attachLog job rid code log => exact .bind (.suppress (hruns _)) fun _ => .pure _
  | failRun rid error => exact .bind (.suppress (hruns _)) fun _ => .pure _
  | markRunning job rid => exact .bind (hjobs _) fun _ => .pure _
  | markDone rid result => exact .bind (hjobs _) fun _ => .pure _
  | failJob error => exact .bind (hjobs _) fun _ => .pure _
  | emitResult rid result job => exact .bind (hemit _ _) fun _ => .pure _
  | emitDone rid result job => exact .bind (hemit _ _) fun _ => .pure _
  | emitFailed error job => exact .bind (hemit _ _) fun _ => .pure _
  | context job rid => exact .bind (.ofExcept _) fun _ => .pure _
  | simulate job rid vars => exact .bind (.ofExcept _) fun _ => .pure _
  | readMetrics job rid => exact .bind (.ofExcept _) fun _ => .pure _
  | returned job => exact .pure _
  | raised e => exact .pure _

/-- What a runner leaves is what its step leaves. -/
theorem advance_snd (w : World) (r : Runner) (t : Tunnel) :
    (r.advance w t).2 = ((runnerStep w r.jobId r.command r.point).exec t).2 := by
  unfold Runner.advance
  cases (runnerStep w r.jobId r.command r.point).exec t with
  | mk out t' => cases out <;> rfl

/-- A runner takes the result that it is about to store. -/
theorem advance_takes (hhost : WorkingHost w.env) (r : Runner) (t : Tunnel) :
    Takes "result" (r.point.toStore.map (w.env, ·)) t.results (r.advance w t).2.results := by
  rw [advance_snd]
  cases hstore : r.point.toStore with
  | none => exact takes_none (runnerStep_results hstore t)
  | some result =>
    cases hpoint : r.point with
    | storeResult rid result' =>
      rw [hpoint] at hstore
      obtain rfl : result' = result := Option.some.inj hstore
      rw [runnerStep, Prog.exec_bind_ok (exec_update_results hhost t)]
      rfl
    | _ => simp [hpoint, RunPoint.toStore] at hstore

/-- A runner goes on knowing its result; once it stored one, that is among these. -/
theorem advance_linked {home : Place} {ids : Json → Prop} {r : Runner} (h : r.Linked home ids)
    (hstored : ∀ result, r.point.toStore = some result → ids (Obj.get result "result_id")) (t : Tunnel) :
    (r.advance w t).1.Linked home ids := by
  unfold Runner.advance
  cases hexec : (runnerStep w r.jobId r.command r.point).exec t with
  | mk out t' =>
    cases out with
    | error e => exact ⟨h.apart, trivial⟩
    | ok next =>
      refine ⟨h.apart, runnerStep_backed h.point (fun rid result hpoint => ?_) hexec⟩
      exact hstored result (by rw [hpoint]; rfl)

end Stores

/-- What a step other than a restart does. -/
structure StepEffect (home : Place) (s : Archive) (i : ArchiveInput) (s' : Archive) : Prop where
  files : s'.files = Archive.flush home s.daemon s'.daemon s.files
  results : Takes "result" (s.resultToStore i) s.daemon.tunnel.results s'.daemon.tunnel.results
  contexts : Takes "context" (s.contextStored i) s.daemon.contexts s'.daemon.contexts
  links : ∀ ids, (∀ r ∈ s.runners, r.Linked home ids) → (∀ x ∈ s.resultToStore i, ids (Obj.get x.2 "result_id")) →
    KeepsLinks home ids s.daemon.tunnel s'.daemon.tunnel ∧ ∀ r ∈ s'.runners, r.Linked home ids

section Steps

variable {home : Place} {s : Archive} {i : ArchiveInput}

/-- A step changes nothing and stores nothing, or it is a restart, or it does what a request or a runner can do. -/
theorem step_cases (hok : Spaced home s i) :
    ((Archive.step home i s).2 = s ∧ s.resultToStore i = none ∧ s.contextStored i = none) ∨
    (∃ jobs runs others d, i = .restart jobs runs others ∧ Archive.reload home jobs runs others s.files = .ok d ∧
      (Archive.step home i s).2 = ⟨d, [], s.files⟩) ∨
    StepEffect home s i (Archive.step home i s).2 := by
  cases i with
  | resultUpdate env path params =>
    have htakes := (mResultUpdate_takes hok.hosted path params s.daemon.tunnel).1
    exact .inr (.inr ⟨rfl, htakes, takes_none rfl, fun ids hrunners _ => ⟨mResultUpdate_links path _, hrunners⟩⟩)
  | runImportResult env params =>
    have htakes := (mRunImportResult_takes hok.hosted params s.daemon.tunnel).1
    refine .inr (.inr ⟨rfl, htakes, takes_none rfl, fun ids hrunners hids => ⟨mRunImportResult_links ?_, hrunners⟩⟩)
    intro result hresult
    exact hids (env, result) (by simp [Archive.resultToStore, hresult])
  | contextUpdate env path params =>
    obtain ⟨htakes, htunnel, _⟩ := mContextUpdate_takes hok.hosted path params s.daemon
    have hresults : ((mContextUpdate env path params).exec s.daemon).2.tunnel.results = s.daemon.tunnel.results := by
      have htouch : Prog.Keeps (Prog.Fixes Tunnel.results) (touchSession env params) := .ite (fun _ => rfl) (.pure _)
      rcases htunnel with hsame | htouched
      · rw [hsame]
      · rw [htouched]
        exact htouch _
    refine .inr (.inr ⟨rfl, takes_none hresults, htakes, fun ids hrunners _ => ⟨?_, hrunners⟩⟩)
    show KeepsLinks home ids s.daemon.tunnel ((mContextUpdate env path params).exec s.daemon).2.tunnel
    rcases htunnel with hsame | htouched
    · rw [hsame]
      exact Std.Refl.refl _
    · rw [htouched]
      exact touchSession_links _
  | jobRun env params =>
    have hreads : ((handle env .jobRun params).exec s.daemon.tunnel).2 = s.daemon.tunnel := jobRun_reads _
    have htunnel : (Archive.step home (.jobRun env params) s).2.daemon.tunnel = s.daemon.tunnel := hreads
    refine .inr (.inr ⟨rfl, takes_none (by rw [htunnel]), takes_none rfl, fun ids hrunners _ => ⟨?_, ?_⟩⟩)
    · rw [htunnel]
      exact Std.Refl.refl _
    · intro r hr
      rcases List.mem_append.mp hr with hold | hnew
      · exact hrunners r hold
      · unfold startedRunner at hnew
        split at hnew
        · split at hnew
          · obtain rfl := List.mem_singleton.mp hnew
            exact ⟨fun id hid => hok.job env params id rfl hid, trivial⟩
          · cases hnew
        · cases hnew
  | advance w n =>
    cases hr : s.runners[n]? with
    | none => exact .inl ⟨by simp [Archive.step, hr], by simp [Archive.resultToStore, hr], rfl⟩
    | some r =>
      have hmem : r ∈ s.runners := List.mem_of_getElem? hr
      have hstep : (Archive.step home (.advance w n) s).2 =
          ⟨{ s.daemon with tunnel := (r.advance w s.daemon.tunnel).2 },
            s.runners.set n (r.advance w s.daemon.tunnel).1,
            Archive.flush home s.daemon { s.daemon with tunnel := (r.advance w s.daemon.tunnel).2 } s.files⟩ := by
        simp [Archive.step, hr]
      have hstore : s.resultToStore (.advance w n) = r.point.toStore.map (w.env, ·) := by
        simp [Archive.resultToStore, hr]
      rw [hstep]
      refine .inr (.inr ⟨rfl, ?_, takes_none rfl, fun ids hrunners hids => ?_⟩)
      · rw [hstore]
        exact advance_takes hok.hosted r _
      · have hstored : ∀ result, r.point.toStore = some result → ids (Obj.get result "result_id") := by
          intro result hresult
          exact hids (w.env, result) (by simp [hstore, hresult])
        constructor
        · show KeepsLinks home ids s.daemon.tunnel (r.advance w s.daemon.tunnel).2
          rw [advance_snd]
          exact runnerStep_links (hrunners r hmem).apart hok.hosted.uuid (hrunners r hmem).point _
        · intro r' hr'
          rcases List.mem_or_eq_of_mem_set hr' with hold | rfl
          · exact hrunners r' hold
          · exact advance_linked (hrunners r hmem) hstored _
  | restart jobs runs others =>
    cases hload : Archive.reload home jobs runs others s.files with
    | error e => exact .inl ⟨by simp [Archive.step, hload], rfl, rfl⟩
    | ok d => exact .inr (.inl ⟨jobs, runs, others, d, rfl, hload, by simp [Archive.step, hload]⟩)

end Steps

end VirtuosoFlow.Tunnel
