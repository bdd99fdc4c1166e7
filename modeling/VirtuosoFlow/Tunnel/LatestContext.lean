import VirtuosoFlow.Tunnel.StoredHistory

/-!
# The latest context

`design.context.get` answers the context that was stored last. That stays so through everything else that
the daemon serves and through restarts, as long as its disk takes the files and no job's file lies in another
store.
-/

namespace VirtuosoFlow.Tunnel

open Base Base.Posix

/-- `_m_context_get`. -/
def mContextGet (_params : Obj) : Prog PyExc Daemon Json := do
  let d ← get
  return .obj [("context", (d.contexts.latest.map .obj).getD .null)]

/-- A working host serves the input, and a job that is started has its file apart. -/
structure Placed (home : Place) (i : ArchiveInput) : Prop where
  hosted : i.Hosted
  job : ∀ env params id, i = .jobRun env params → Obj.get params "job_id" = .str id → FileApart home id

/-- The file of the latest context. -/
def latestFile (home : Place) : Place := storeOf home "context" ++ [(latestName "context").toList]

/-- Of what is carried nothing is asked but that it names files of its own store. -/
abbrev AnyId : Json → Prop := fun _ => True

/-- What a step writes goes to its own store, and the file of the latest context holds what the store holds. -/
structure Archive.InPlace (home : Place) (s : Archive) : Prop where
  jobs : AllRecords (JobLinked AnyId) s.daemon.tunnel.jobs
  runs : AllRecords (RunLinked AnyId) s.daemon.tunnel.runs
  runners : ∀ r ∈ s.runners, r.Linked home AnyId
  runFiles : ∀ name r, s.files (Archive.runFile home name) = some (.obj r) → (Obj.get r "run_id").truthy = true →
    ∃ k, RunLinked AnyId k r
  latest : s.daemon.contexts.latestFile = s.daemon.contexts.latest
  file : s.files (latestFile home) = s.daemon.contexts.latest.map .obj

section Steps

variable {home : Place} {s s' : Archive} {i : ArchiveInput}

/-- What a step does, other than a restart or a turn of a runner that is not there. -/
theorem step_effect (hplaced : Placed home i) (hrestart : ∀ jobs runs others, i ≠ .restart jobs runs others) :
    (Archive.step home i s).2 = s ∧ s.contextStored i = none ∨
      StepEffect home s i (Archive.step home i s).2 := by
  -- over a disk without files no second is taken
  have hspaced : Spaced home { s with files := fun _ => none } i :=
    ⟨hplaced.hosted, fun _ _ _ h => (by cases h), fun _ _ _ h => (by cases h), hplaced.job⟩
  have hsame : ∀ {s' : Archive}, s'.daemon = s.daemon → s'.runners = s.runners →
      s'.files = Archive.flush home s.daemon s'.daemon s.files → s.resultToStore i = none →
      s.contextStored i = none → StepEffect home s i s' := by
    intro s' hdaemon hrunners hfiles hresult hcontext
    refine ⟨hfiles, ?_, ?_, fun ids hlinked _ => ⟨?_, ?_⟩⟩
    · rw [hresult]
      exact takes_none (by rw [hdaemon])
    · rw [hcontext]
      exact takes_none (by rw [hdaemon])
    · rw [hdaemon]
      exact keepsLinks_of_same rfl rfl
    · rw [hrunners]
      exact hlinked
  have hcases := step_cases hspaced
  cases i with
  | restart jobs runs others => exact absurd rfl (hrestart jobs runs others)
  | advance w n =>
    cases hr : s.runners[n]? with
    | none => exact .inl ⟨by simp [Archive.step, hr], rfl⟩
    | some r =>
      right
      have hstep : ∀ files, (Archive.step home (.advance w n) { s with files := files }).2 =
          ⟨{ s.daemon with tunnel := (r.advance w s.daemon.tunnel).2 },
            s.runners.set n (r.advance w s.daemon.tunnel).1,
            Archive.flush home s.daemon { s.daemon with tunnel := (r.advance w s.daemon.tunnel).2 } files⟩ := by
        intro files
        simp [Archive.step, hr]
      have hhere := hstep s.files
      rw [hstep] at hcases
      rw [show ({ s with files := s.files } : Archive) = s from rfl] at hhere
      rw [hhere]
      rcases hcases with ⟨heq, hresult, hcontext⟩ | ⟨_, _, _, _, h, _⟩ | heffect
      · have hdaemon := congrArg Archive.daemon heq
        have hrunners := congrArg Archive.runners heq
        exact hsame hdaemon hrunners rfl hresult hcontext
      · cases h
      · exact ⟨rfl, heffect.results, heffect.contexts, heffect.links⟩
  | _ =>
    right
    rcases hcases with ⟨heq, hresult, hcontext⟩ | ⟨_, _, _, _, h, _⟩ | heffect
    · have hdaemon := congrArg Archive.daemon heq
      have hrunners := congrArg Archive.runners heq
      exact hsame hdaemon hrunners rfl hresult hcontext
    · cases h
    · exact ⟨rfl, heffect.results, heffect.contexts, heffect.links⟩

/-- A context that is stored becomes the latest one, in memory and in its file; else the store stays. -/
theorem mContextUpdate_contexts {env : Env} (hhost : WorkingHost env) (path : String) (params : Obj) (d : Daemon) :
    ((mContextUpdate env path params).exec d).2.contexts =
      match contextToStore env params d.tunnel with
      | some context => ⟨some context, some context, d.contexts.history ++ [(datedName env "context", context)]⟩
      | none => d.contexts := by
  unfold mContextUpdate contextToStore
  cases Obj.get params "context" with
  | obj context =>
    dsimp only
    cases hvalid : env.validate "context" context with
    | error e =>
      rw [Prog.exec_bind_error (Prog.exec_ofExcept _ _)]
    | ok u =>
      rw [Prog.exec_bind_ok (Prog.exec_ofExcept _ _)]
      have htouch : (onTunnel (touchSession env params)).exec d = (((touchSession env params).exec d.tunnel).1,
          { d with tunnel := ((touchSession env params).exec d.tunnel).2 }) := rfl
      cases htouched : ((touchSession env params).exec d.tunnel).1 with
      | error e =>
        rw [htouched] at htouch
        rw [Prog.exec_bind_error htouch]
      | ok u =>
        rw [htouched] at htouch
        rw [Prog.exec_bind_ok htouch]
        have hstore : (ContextStore.update env context).exec d.contexts = _ :=
          exec_updateLatest hhost.dirs hhost.contexts d.contexts
        have hupdate : ∀ t, (onContexts (ContextStore.update env context)).exec { d with tunnel := t } = (.ok (), ⟨t,
            ⟨some context, some context, d.contexts.history ++ [(datedName env "context", context)]⟩⟩) := by
          intro t
          rw [onContexts, Prog.exec_zoom, hstore]
        rw [Prog.exec_bind_ok (hupdate _)]
        cases contextLogged context <;> rfl
  | _ => rfl

/-- What was stored last, in memory and in the latest file, after a step other than a restart. -/
theorem contexts_of_step (hplaced : Placed home i) (hrestart : ∀ jobs runs others, i ≠ .restart jobs runs others) :
    (Archive.step home i s).2.daemon.contexts.latest =
        ((s.contextStored i).map Prod.snd).or s.daemon.contexts.latest ∧
      (Archive.step home i s).2.daemon.contexts.latestFile =
        ((s.contextStored i).map Prod.snd).or s.daemon.contexts.latestFile := by
  cases i with
  | restart jobs runs others => exact absurd rfl (hrestart jobs runs others)
  | contextUpdate env path params =>
    have hcontexts : (Archive.step home (.contextUpdate env path params) s).2.daemon.contexts = _ :=
      mContextUpdate_contexts hplaced.hosted path params s.daemon
    rw [hcontexts]
    have hstored : s.contextStored (.contextUpdate env path params) =
        (contextToStore env params s.daemon.tunnel).map (env, ·) := rfl
    rw [hstored]
    cases contextToStore env params s.daemon.tunnel with
    | none => exact ⟨rfl, rfl⟩
    | some context => exact ⟨rfl, rfl⟩
  | advance w n =>
    have hcontexts : (Archive.step home (.advance w n) s).2.daemon.contexts = s.daemon.contexts := by
      rw [Archive.step]
      cases s.runners[n]? <;> rfl
    rw [hcontexts]
    exact ⟨rfl, rfl⟩
  | _ => exact ⟨rfl, rfl⟩

/-- Where the writes of a step go. -/
theorem writing_of_effect (hplaced : Placed home i) (hin : s.InPlace home) (heffect : StepEffect home s i s') :
    Writing home AnyId s s' := by
  obtain ⟨hlinks, _⟩ := heffect.links AnyId hin.runners fun _ _ => trivial
  refine ⟨(appends_newWrites hlinks.jobs hin.jobs).2, (appends_newWrites hlinks.runs hin.runs).2, ?_, ?_⟩
  · intro w hw
    rcases latestWrites_cases home heffect.results (.inl rfl) (stamp_of_result hplaced.hosted) hw
      with hlatest | ⟨y, _, hdated, _⟩
    · exact ⟨_, hlatest⟩
    · exact ⟨_, hdated⟩
  · intro w hw
    rcases latestWrites_cases home heffect.contexts (.inr rfl) (stamp_of_context hplaced.hosted) hw
      with hlatest | ⟨y, _, hdated, _⟩
    · exact ⟨_, hlatest⟩
    · exact ⟨_, hdated⟩

/-- The latest file holds what the store last wrote to it. -/
theorem flush_latestFile (hplaced : Placed home i) (heffect : StepEffect home s i s')
    (hwriting : Writing home AnyId s s') (files : Contents) :
    Archive.flush home s.daemon s'.daemon files (latestFile home) =
      (s'.daemon.contexts.latestFile.map Json.obj).or (files (latestFile home)) := by
  have hinside : Inside (storeDir home "contexts") (latestFile home) := inside_child _ _
  have hjobs : ∀ w ∈ newWrites s.daemon.tunnel.jobs s'.daemon.tunnel.jobs,
      locate (Archive.jobsDir home) w.1.toList ≠ latestFile home := by
    intro w hw heq
    obtain ⟨id, j, rfl, hapart, _⟩ := hwriting.jobs w hw
    rw [← heq] at hinside
    exact hapart "contexts" (by simp) hinside
  have hruns : ∀ w ∈ newWrites s.daemon.tunnel.runs s'.daemon.tunnel.runs,
      locate (Archive.runsDir home) w.1.toList ≠ latestFile home := by
    intro w hw heq
    obtain ⟨r, name, hrun, _⟩ := (hwriting.runs w hw).place
    exact storeOf_apart (by decide) (hrun.symm.trans heq)
  have hresults : ∀ w ∈ latestWrites "result" s.daemon.tunnel.results s'.daemon.tunnel.results,
      locate (storeOf home "result") w.1.toList ≠ latestFile home := by
    intro w hw heq
    obtain ⟨name, hresult⟩ := hwriting.results w hw
    exact storeOf_apart (by decide) (hresult.symm.trans heq)
  have hdated : ∀ w ∈ (s'.daemon.contexts.history.drop s.daemon.contexts.history.length).map
      fun w => (w.1, Json.obj w.2), locate (storeOf home "context") w.1.toList ≠ latestFile home := by
    intro w hw heq
    have hnew : s'.daemon.contexts.history.drop s.daemon.contexts.history.length = _ := heffect.contexts.newHistory
    rw [hnew] at hw
    obtain ⟨_, hnamed, rfl⟩ := List.mem_map.mp hw
    obtain ⟨y, hy, rfl⟩ := List.mem_map.mp hnamed
    have hstamp := stamp_of_context hplaced.hosted y (Option.mem_toList.mp hy)
    rw [locate_plain _ (datedName_plain (kind_slash (.inr rfl)) hstamp)] at heq
    exact datedName_ne_latest y.1 (.inr rfl) (List.singleton_inj.mp (List.append_cancel_left heq))
  have hsplit : latestWrites "context" s.daemon.contexts s'.daemon.contexts =
      s'.daemon.contexts.latestFile.toList.map (fun v => (latestName "context", Json.obj v)) ++
        (s'.daemon.contexts.history.drop s.daemon.contexts.history.length).map fun w => (w.1, Json.obj w.2) := rfl
  unfold Archive.flush
  rw [hsplit, Contents.write_append, Contents.write_of_ne hdated]
  cases s'.daemon.contexts.latestFile with
  | none =>
    have hnone : ∀ w ∈ (none : Option Obj).toList.map fun v => (latestName "context", Json.obj v),
        locate (storeOf home "context") w.1.toList ≠ latestFile home := fun w hw => (by cases hw)
    rw [Contents.write_of_ne hnone, Contents.write_of_ne hresults, Contents.write_of_ne hruns,
      Contents.write_of_ne hjobs]
    rfl
  | some v =>
    have hplace : locate (storeOf home "context") (latestName "context").toList = latestFile home :=
      locate_plain _ (latestName_plain (kind_slash (.inr rfl)))
    rw [← hplace]
    exact Function.update_self _ _ _

/-- The `run.json` files stay those of runs under their ids. -/
theorem runFiles_flush (hwriting : Writing home AnyId s s') (hin : s.InPlace home) (name : List Char) {r : Obj}
    (hfile : Archive.flush home s.daemon s'.daemon s.files (Archive.runFile home name) = some (.obj r))
    (htruthy : (Obj.get r "run_id").truthy = true) : ∃ k, RunLinked AnyId k r := by
  rcases flush_cases home s.daemon s'.daemon s.files (Archive.runFile home name)
    with hsame | ⟨w, hw, hplace, _⟩ | ⟨w, hw, hplace, hwritten⟩ | ⟨w, hw, hplace, _⟩ | ⟨w, hw, hplace, _⟩
  · rw [hsame] at hfile
    exact hin.runFiles name r hfile htruthy
  · obtain ⟨id, j, rfl, hapart, _⟩ := hwriting.jobs w hw
    have hinside : Inside (storeDir home "runs") (Archive.runFile home name) := inside_child _ _
    rw [← hplace] at hinside
    exact absurd hinside (hapart "runs" (by simp))
  · obtain ⟨dir, file, hrun, hlinked⟩ := (hwriting.runs w hw).place
    have hnames := List.append_cancel_left (hrun.symm.trans hplace)
    have hjson : file = "run.json".toList := List.singleton_inj.mp (List.tail_eq_of_cons_eq hnames)
    obtain ⟨r', k, hr', hlink⟩ := hlinked hjson
    rw [hwritten, hr'] at hfile
    obtain rfl : r' = r := Json.obj.inj (Option.some.inj hfile)
    exact ⟨k, hlink⟩
  · obtain ⟨file, hresult⟩ := hwriting.results w hw
    exact absurd (hresult.symm.trans hplace) (storeOf_apart (by decide))
  · obtain ⟨file, hcontext⟩ := hwriting.contexts w hw
    exact absurd (hcontext.symm.trans hplace) (storeOf_apart (by decide))

/-- A step writes to its own store. -/
theorem StepEffect.inPlace (heffect : StepEffect home s i s') (hplaced : Placed home i) (hin : s.InPlace home)
    (hlatest : s'.daemon.contexts.latest = ((s.contextStored i).map Prod.snd).or s.daemon.contexts.latest)
    (hfile : s'.daemon.contexts.latestFile = ((s.contextStored i).map Prod.snd).or s.daemon.contexts.latestFile) :
    s'.InPlace home := by
  have hwriting := writing_of_effect hplaced hin heffect
  obtain ⟨hlinks, hrunners⟩ := heffect.links AnyId hin.runners fun _ _ => trivial
  have hagree : s'.daemon.contexts.latestFile = s'.daemon.contexts.latest := by rw [hlatest, hfile, hin.latest]
  refine ⟨(appends_newWrites hlinks.jobs hin.jobs).1, (appends_newWrites hlinks.runs hin.runs).1, hrunners, ?_,
    hagree, ?_⟩
  · intro name r hr htruthy
    rw [heffect.files] at hr
    exact runFiles_flush hwriting hin name hr htruthy
  · rw [heffect.files, flush_latestFile hplaced heffect hwriting, hagree, hin.file, hlatest]
    cases s.contextStored i with
    | none => cases s.daemon.contexts.latest <;> rfl
    | some x => rfl

/-- A new process that loads the files has them in place, and the latest context. -/
theorem inPlace_reload {jobs runs : List (List Char)} {others : Tunnel} {d : Daemon} (hin : s.InPlace home)
    (hload : Archive.reload home jobs runs others s.files = .ok d) :
    (⟨d, [], s.files⟩ : Archive).InPlace home ∧ d.contexts.latest = s.daemon.contexts.latest := by
  obtain ⟨js, rs, hjobs, hruns, rfl⟩ := reload_ok hload
  have hcontexts : loadLatest home "context" s.files =
      ⟨s.daemon.contexts.latest, s.daemon.contexts.latest, []⟩ := by
    have hfile : s.files (storeOf home "context" ++ [(latestName "context").toList]) = _ := hin.file
    rw [loadLatest, hfile]
    cases s.daemon.contexts.latest <;> rfl
  refine ⟨⟨?_, ?_, fun r hr => (by cases hr), hin.runFiles, ?_, ?_⟩, ?_⟩
  · intro k j hj
    obtain ⟨_, _, _, _, hkey⟩ := loadRecords_mem hjobs hj
    exact ⟨hkey, fun _ => .inr trivial⟩
  · intro k r hr
    obtain ⟨path, hpath, hfile, htruthy, hkey⟩ := loadRecords_mem hruns hr
    obtain ⟨name, _, rfl⟩ := List.mem_map.mp hpath
    obtain ⟨own, hlinked⟩ := hin.runFiles name r hfile htruthy
    obtain ⟨id, rfl, _, hid⟩ := hlinked.key
    rw [hid] at hkey
    obtain rfl : Key.str id = k := Option.some.inj hkey
    exact hlinked
  · show (loadLatest home "context" s.files).latestFile = (loadLatest home "context" s.files).latest
    rw [hcontexts]
  · show s.files (latestFile home) = (loadLatest home "context" s.files).latest.map .obj
    rw [hcontexts, hin.file]
  · show (loadLatest home "context" s.files).latest = _
    rw [hcontexts]

/-- A process that starts over files without a latest context. -/
theorem inPlace_init (hinit : (archive home).init s) (hfile : s.files (latestFile home) = none) :
    s.InPlace home ∧ s.daemon.contexts.latest = none := by
  obtain ⟨hrunners, hlinked, jobs, runs, others, hload⟩ := hinit
  have hempty : (⟨⟨Tunnel.fresh .empty, .empty⟩, [], s.files⟩ : Archive).InPlace home := by
    refine ⟨fun k j hj => (by cases hj), fun k r hr => (by cases hr), fun r hr => (by cases hr), ?_, rfl, hfile⟩
    intro name r hr htruthy
    obtain ⟨k, hk⟩ := hlinked.runs name r hr htruthy
    exact ⟨k, hk.mono fun _ _ => trivial⟩
  obtain ⟨hin, hlatest⟩ := inPlace_reload hempty hload
  rw [show s = ⟨s.daemon, [], s.files⟩ from hrunners ▸ rfl]
  exact ⟨hin, hlatest⟩

/-- Every step leaves all in place, and the latest context is the one it stored, or else the one before. -/
theorem inPlace_step (hplaced : Placed home i) (hin : s.InPlace home) :
    (Archive.step home i s).2.InPlace home ∧ (Archive.step home i s).2.daemon.contexts.latest =
      ((s.contextStored i).map Prod.snd).or s.daemon.contexts.latest := by
  by_cases hrestart : ∃ jobs runs others, i = .restart jobs runs others
  · obtain ⟨jobs, runs, others, rfl⟩ := hrestart
    rw [Archive.step]
    cases hload : Archive.reload home jobs runs others s.files with
    | error e => exact ⟨hin, rfl⟩
    | ok d => exact inPlace_reload hin hload
  · have hother : ∀ jobs runs others, i ≠ .restart jobs runs others := fun jobs runs others h =>
      hrestart ⟨jobs, runs, others, h⟩
    obtain ⟨hlatest, hfile⟩ := @contexts_of_step home s i hplaced hother
    rcases step_effect hplaced hother with ⟨hsame, hcontext⟩ | heffect
    · rw [hsame, hcontext]
      exact ⟨hin, rfl⟩
    · exact ⟨heffect.inPlace hplaced hin hlatest hfile, hlatest⟩

end Steps

end VirtuosoFlow.Tunnel
