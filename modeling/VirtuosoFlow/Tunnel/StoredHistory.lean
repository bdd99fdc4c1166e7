import VirtuosoFlow.Tunnel.ArchiveSteps

/-!
# Stored results and contexts stay readable

Everything stored stays readable, and the ids that done jobs and runs carry are those of readable results,
as long as no second brings two different results or two different contexts and no job's file lies in
another store. Two results of one second show that the names of the dated files alone are not enough.
-/

namespace VirtuosoFlow.Tunnel

open Base Base.Posix

/-- A file in the directory of results or contexts holds the value. -/
def Readable (home : Place) (kind : String) (files : Contents) (value : Obj) : Prop :=
  ∃ name, files (storeOf home kind ++ [name]) = some (.obj value)

/-- A dated file holds a result of this id. -/
def KeptId (home : Place) (files : Contents) (id : Json) : Prop :=
  ∃ name result, name ≠ (latestName "result").toList ∧ files (storeOf home "result" ++ [name]) = some (.obj result) ∧
    Obj.get result "result_id" = id

/-- The files but the latest one stay as they are. -/
def KeepsDated (home : Place) (kind : String) (files files' : Contents) : Prop :=
  ∀ name v, name ≠ (latestName kind).toList → files (storeOf home kind ++ [name]) = some v →
    files' (storeOf home kind ++ [name]) = some v

/-- The files of jobs and runs carry only ids of dated results. -/
structure FilesLinked (home : Place) (files : Contents) : Prop where
  jobs : ∀ name j, files (Archive.jobsDir home ++ [name]) = some (.obj j) → DoneBacked (KeptId home files) j
  runs : ∀ name r, files (Archive.runFile home name) = some (.obj r) → (Obj.get r "run_id").truthy = true →
    ∃ k, RunLinked (KeptId home files) k r

/-- What holds between any two steps. -/
structure Archive.Linked (home : Place) (s : Archive) : Prop where
  files : FilesLinked home s.files
  jobs : AllRecords (JobLinked (KeptId home s.files)) s.daemon.tunnel.jobs
  runs : AllRecords (RunLinked (KeptId home s.files)) s.daemon.tunnel.runs
  runners : ∀ r ∈ s.runners, r.Linked home (KeptId home s.files)

/-- A process that was just started over files that carry only ids of results that are there. -/
def archive (home : Place) : Machine Archive ArchiveInput (Except PyExc Json) where
  init s := s.runners = [] ∧ FilesLinked home s.files ∧
    ∃ jobs runs others, Archive.reload home jobs runs others s.files = .ok s.daemon
  step := Archive.step home

section Places

variable {home : Place} {env : Env} {kind : String}

/-- The name of a dated file is plain. -/
theorem datedName_plain (hkind : '/' ∉ kind.toList) (hstamp : '/' ∉ (env.fileStamp env.now).toList) :
    Plain (datedName env kind).toList := by
  have hslash : '/' ∉ (kind ++ "_" ++ env.fileStamp env.now).toList := by simp [hkind, hstamp]
  exact plain_id hslash

/-- So is that of the latest file. -/
theorem latestName_plain (hkind : '/' ∉ kind.toList) : Plain (latestName kind).toList := by
  have hslash : '/' ∉ ("latest_" ++ kind).toList := by simp [hkind]
  exact plain_id hslash

/-- The latest file is none of the dated ones. -/
theorem datedName_ne_latest (env : Env) (hkind : kind = "result" ∨ kind = "context") :
    (datedName env kind).toList ≠ (latestName kind).toList := by
  rcases hkind with rfl | rfl <;> simp [datedName, latestName]

/-- So are the names of the two kinds. -/
theorem kind_slash (hkind : kind = "result" ∨ kind = "context") : '/' ∉ kind.toList := by
  rcases hkind with rfl | rfl <;> decide

/-- A child of a directory lies inside it. -/
theorem inside_child (dir : Place) (names : List (List Char)) : Inside dir (dir ++ names) := List.prefix_append _ _

/-- The place of a file of a run. -/
theorem locate_run (home : Place) {s name : String} (hs : Plain s.toList) (hname : Plain name.toList) :
    locate (Archive.runsDir home) (s ++ "/" ++ name).toList = Archive.runsDir home ++ [s.toList, name.toList] := by
  have hjoin : (s ++ "/" ++ name).toList = s.toList ++ '/' :: name.toList := by simp
  have hrelative : isAbsolute name.toList = false := by
    cases hlist : name.toList with
    | nil => rfl
    | cons c rest =>
      have hc : c ≠ '/' := by
        rintro rfl
        exact hname.1 (by rw [hlist]; exact List.mem_cons_self)
      simp [isAbsolute, hc]
  rw [hjoin, locate_append _ hs.2.1 hrelative, locate_plain _ hs, locate_plain _ hname, List.append_assoc]
  rfl

/-- What a run writes goes to its directory. -/
theorem RunWrite.place {ids : Json → Prop} {w : String × Json} (h : RunWrite ids w) :
    ∃ s name, locate (Archive.runsDir home) w.1.toList = Archive.runsDir home ++ [s, name] ∧
      (name = "run.json".toList → ∃ r k, w.2 = .obj r ∧ RunLinked ids k r) := by
  obtain ⟨s, hs, ⟨r, rfl, hr⟩ | ⟨name, content, rfl, hplain, hname⟩⟩ := h
  · have hrun : Plain "run.json".toList := by unfold Plain; decide
    have hjoin : s ++ "/run.json" = s ++ "/" ++ "run.json" := (@String.append_assoc s "/" "run.json").symm
    have hplace := locate_run home hs hrun
    rw [← hjoin] at hplace
    exact ⟨s.toList, "run.json".toList, hplace, fun _ => ⟨r, _, rfl, hr⟩⟩
  · refine ⟨s.toList, name.toList, locate_run home hs hplain, fun heq => ?_⟩
    exact absurd (String.toList_inj.mp heq) hname

end Places

section Mono

variable {ids ids' : Json → Prop} {home : Place} {files files' : Contents} {k : Key} {r : Obj}

/-- A result that is stored is stored among more. -/
theorem Backed.mono (h : Backed ids r) (hids : ∀ v, ids v → ids' v) : Backed ids' r := h.imp id (hids _)

/-- So is the result of a done job. -/
theorem DoneBacked.mono (h : DoneBacked ids r) (hids : ∀ v, ids v → ids' v) : DoneBacked ids' r :=
  fun hdone => (h hdone).mono hids

/-- A linked job stays linked. -/
theorem JobLinked.mono (h : JobLinked ids k r) (hids : ∀ v, ids v → ids' v) : JobLinked ids' k r :=
  ⟨h.key, h.done.mono hids⟩

/-- So does a linked run. -/
theorem RunLinked.mono (h : RunLinked ids k r) (hids : ∀ v, ids v → ids' v) : RunLinked ids' k r :=
  ⟨h.key, h.backed.mono hids⟩

/-- So does a runner. -/
theorem Runner.Linked.mono {r : Runner} (h : r.Linked home ids) (hids : ∀ v, ids v → ids' v) : r.Linked home ids' := by
  refine ⟨h.apart, ?_⟩
  have hpoint := h.point
  cases hp : r.point with
  | storeResult rid result => rw [hp] at hpoint; exact hpoint
  | linkResult rid result => rw [hp] at hpoint; exact ⟨hpoint.1, hids _ hpoint.2⟩
  | setDone rid result => rw [hp] at hpoint; exact ⟨hpoint.1, hids _ hpoint.2⟩
  | markDone rid result => rw [hp] at hpoint; exact ⟨hpoint.1, hids _ hpoint.2⟩
  | _ => trivial

/-- An id that is kept is kept among more files. -/
theorem KeptId.mono (h : KeepsDated home "result" files files') (v : Json) (hv : KeptId home files v) :
    KeptId home files' v := by
  obtain ⟨name, result, hname, hfile, hid⟩ := hv
  exact ⟨name, result, hname, h name _ hname hfile, hid⟩

end Mono

section Flush

variable {home : Place} {s s' : Archive} {i : ArchiveInput} {p : Place}

/-- The four directories are apart, so a file is there as before or one store wrote it. -/
theorem flush_cases (home : Place) (before after : Daemon) (files : Contents) (p : Place) :
    Archive.flush home before after files p = files p ∨
    (∃ w ∈ newWrites before.tunnel.jobs after.tunnel.jobs, locate (Archive.jobsDir home) w.1.toList = p ∧
      Archive.flush home before after files p = some w.2) ∨
    (∃ w ∈ newWrites before.tunnel.runs after.tunnel.runs, locate (Archive.runsDir home) w.1.toList = p ∧
      Archive.flush home before after files p = some w.2) ∨
    (∃ w ∈ latestWrites "result" before.tunnel.results after.tunnel.results,
      locate (storeOf home "result") w.1.toList = p ∧ Archive.flush home before after files p = some w.2) ∨
    ∃ w ∈ latestWrites "context" before.contexts after.contexts,
      locate (storeOf home "context") w.1.toList = p ∧ Archive.flush home before after files p = some w.2 := by
  unfold Archive.flush
  rcases Contents.write_cases with hcontexts | hcontexts
  · rw [hcontexts]
    rcases Contents.write_cases with hresults | hresults
    · rw [hresults]
      rcases Contents.write_cases with hruns | hruns
      · rw [hruns]
        rcases Contents.write_cases with hjobs | hjobs
        · exact .inl hjobs
        · exact .inr (.inl hjobs)
      · exact .inr (.inr (.inl hruns))
    · exact .inr (.inr (.inr (.inl hresults)))
  · exact .inr (.inr (.inr (.inr hcontexts)))

/-- What a store of latest values writes: the latest file, and the dated one of what it took. -/
theorem latestWrites_cases (home : Place) {kind : String} {x : Option (Env × Obj)} {before after : ResultStore}
    (htakes : Takes kind x before after) (hkind : kind = "result" ∨ kind = "context")
    (hstamp : ∀ y ∈ x, '/' ∉ (y.1.fileStamp y.1.now).toList) {w : String × Json}
    (hw : w ∈ latestWrites kind before after) :
    locate (storeOf home kind) w.1.toList = storeOf home kind ++ [(latestName kind).toList] ∨
    ∃ y ∈ x, locate (storeOf home kind) w.1.toList = datedFile home kind y.1 ∧ w.2 = .obj y.2 := by
  have hslash := kind_slash hkind
  have hnew : after.history.drop before.history.length = _ := htakes.newHistory
  rw [latestWrites, hnew] at hw
  rcases List.mem_append.mp hw with hlatest | hdated
  · left
    obtain ⟨v, _, rfl⟩ := List.mem_map.mp hlatest
    exact locate_plain _ (latestName_plain hslash)
  · right
    cases x with
    | none => cases hdated
    | some y =>
      obtain rfl : w = (datedName y.1 kind, .obj y.2) := by simpa using hdated
      exact ⟨y, rfl, locate_plain _ (datedName_plain hslash (hstamp y rfl)), rfl⟩

/-- The last file that such a store writes is the dated one. -/
theorem write_latestWrites {kind : String} {y : Env × Obj} {before after : ResultStore} {files : Contents}
    (htakes : Takes kind (some y) before after) (hkind : kind = "result" ∨ kind = "context")
    (hstamp : '/' ∉ (y.1.fileStamp y.1.now).toList) :
    files.write (storeOf home kind) (latestWrites kind before after) (datedFile home kind y.1) = some (.obj y.2) := by
  have hnew : after.history.drop before.history.length = _ := htakes.newHistory
  have hplace : datedFile home kind y.1 = locate (storeOf home kind) (datedName y.1 kind).toList :=
    (locate_plain _ (datedName_plain (kind_slash hkind) hstamp)).symm
  rw [latestWrites, hnew, hplace]
  exact Contents.write_last (datedName y.1 kind, .obj y.2)

/-- In the directory of one store the other stores change nothing. -/
theorem storeOf_apart {a b : String} {names names' : List (List Char)} (hab : a ≠ b) :
    storeDir home a ++ names ≠ storeDir home b ++ names' := by
  intro heq
  have hb : Inside (storeDir home b) (storeDir home a ++ names) := by
    rw [heq]
    exact inside_child _ _
  exact hab (storeDir_unique (inside_child _ _) hb)

/-- What is newly written is good, where only good files are written. -/
theorem appends_newWrites {P : Key → Obj → Prop} {good : String × Json → Prop} {st st' : Store}
    (h : Appends P good st st') (hst : AllRecords P st) : AllRecords P st' ∧ ∀ w ∈ newWrites st st', good w := by
  obtain ⟨hst', writes, heq, hgood⟩ := h hst
  refine ⟨hst', fun w hw => ?_⟩
  rw [newWrites, heq, List.drop_left] at hw
  exact hgood w hw

/-- The files that a change writes. -/
structure Writing (home : Place) (ids : Json → Prop) (s s' : Archive) : Prop where
  jobs : ∀ w ∈ newWrites s.daemon.tunnel.jobs s'.daemon.tunnel.jobs, JobWrite home ids w
  runs : ∀ w ∈ newWrites s.daemon.tunnel.runs s'.daemon.tunnel.runs, RunWrite ids w
  results : ∀ w ∈ latestWrites "result" s.daemon.tunnel.results s'.daemon.tunnel.results, ∃ name,
    locate (storeOf home "result") w.1.toList = storeDir home "results" ++ [name]
  contexts : ∀ w ∈ latestWrites "context" s.daemon.contexts s'.daemon.contexts, ∃ name,
    locate (storeOf home "context") w.1.toList = storeDir home "contexts" ++ [name]

/-- Among the results only the result store writes. -/
theorem Writing.at_results {ids : Json → Prop} (h : Writing home ids s s') (files : Contents) (name : List Char) :
    Archive.flush home s.daemon s'.daemon files (storeOf home "result" ++ [name]) =
      files (storeOf home "result" ++ [name]) ∨
    ∃ w ∈ latestWrites "result" s.daemon.tunnel.results s'.daemon.tunnel.results,
      locate (storeOf home "result") w.1.toList = storeOf home "result" ++ [name] ∧
      Archive.flush home s.daemon s'.daemon files (storeOf home "result" ++ [name]) = some w.2 := by
  rcases flush_cases home s.daemon s'.daemon files (storeOf home "result" ++ [name])
    with hsame | ⟨w, hw, hplace, _⟩ | ⟨w, hw, hplace, _⟩ | hresults | ⟨w, hw, hplace, _⟩
  · exact .inl hsame
  · obtain ⟨id, j, rfl, hapart, _⟩ := h.jobs w hw
    have hinside : Inside (storeDir home "results") (storeOf home "result" ++ [name]) := inside_child _ _
    rw [← hplace] at hinside
    exact absurd hinside (hapart "results" (by simp))
  · obtain ⟨s, file, hrun, _⟩ := (h.runs w hw).place
    exact absurd (hrun.symm.trans hplace) (storeOf_apart (by decide))
  · exact .inr hresults
  · obtain ⟨file, hcontext⟩ := h.contexts w hw
    exact absurd (hcontext.symm.trans hplace) (storeOf_apart (by decide))

/-- Among the contexts only the context store writes. -/
theorem Writing.at_contexts {ids : Json → Prop} (h : Writing home ids s s') (files : Contents) (name : List Char) :
    Archive.flush home s.daemon s'.daemon files (storeOf home "context" ++ [name]) =
      files (storeOf home "context" ++ [name]) ∨
    ∃ w ∈ latestWrites "context" s.daemon.contexts s'.daemon.contexts,
      locate (storeOf home "context") w.1.toList = storeOf home "context" ++ [name] ∧
      Archive.flush home s.daemon s'.daemon files (storeOf home "context" ++ [name]) = some w.2 := by
  rcases flush_cases home s.daemon s'.daemon files (storeOf home "context" ++ [name])
    with hsame | ⟨w, hw, hplace, _⟩ | ⟨w, hw, hplace, _⟩ | ⟨w, hw, hplace, _⟩ | hcontexts
  · exact .inl hsame
  · obtain ⟨id, j, rfl, hapart, _⟩ := h.jobs w hw
    have hinside : Inside (storeDir home "contexts") (storeOf home "context" ++ [name]) := inside_child _ _
    rw [← hplace] at hinside
    exact absurd hinside (hapart "contexts" (by simp))
  · obtain ⟨s, file, hrun, _⟩ := (h.runs w hw).place
    exact absurd (hrun.symm.trans hplace) (storeOf_apart (by decide))
  · obtain ⟨file, hresult⟩ := h.results w hw
    exact absurd (hresult.symm.trans hplace) (storeOf_apart (by decide))
  · exact .inr hcontexts

/-- The files of jobs and runs stay linked. -/
theorem Writing.linked {ids : Json → Prop} (h : Writing home ids s s') {files : Contents}
    (hids : ∀ v, KeptId home files v → ids v) (hlinked : FilesLinked home files)
    (hnext : ∀ v, ids v → KeptId home (Archive.flush home s.daemon s'.daemon files) v) :
    FilesLinked home (Archive.flush home s.daemon s'.daemon files) := by
  constructor
  · intro name j hfile
    rcases flush_cases home s.daemon s'.daemon files (Archive.jobsDir home ++ [name])
      with hsame | ⟨w, hw, _, hwritten⟩ | ⟨w, hw, hplace, _⟩ | ⟨w, hw, hplace, _⟩ | ⟨w, hw, hplace, _⟩
    · rw [hsame] at hfile
      exact (hlinked.jobs name j hfile).mono fun v hv => hnext v (hids v hv)
    · obtain ⟨id, j', rfl, _, hdone⟩ := h.jobs w hw
      rw [hwritten] at hfile
      obtain rfl : j' = j := Json.obj.inj (Option.some.inj hfile)
      exact hdone.mono hnext
    · obtain ⟨s, file, hrun, _⟩ := (h.runs w hw).place
      exact absurd (hrun.symm.trans hplace) (storeOf_apart (by decide))
    · obtain ⟨file, hresult⟩ := h.results w hw
      exact absurd (hresult.symm.trans hplace) (storeOf_apart (by decide))
    · obtain ⟨file, hcontext⟩ := h.contexts w hw
      exact absurd (hcontext.symm.trans hplace) (storeOf_apart (by decide))
  · intro name r hfile htruthy
    rcases flush_cases home s.daemon s'.daemon files (Archive.runFile home name)
      with hsame | ⟨w, hw, hplace, _⟩ | ⟨w, hw, hplace, hwritten⟩ | ⟨w, hw, hplace, _⟩ | ⟨w, hw, hplace, _⟩
    · rw [hsame] at hfile
      obtain ⟨k, hrun⟩ := hlinked.runs name r hfile htruthy
      exact ⟨k, hrun.mono fun v hv => hnext v (hids v hv)⟩
    · obtain ⟨id, j, rfl, hapart, _⟩ := h.jobs w hw
      have hinside : Inside (storeDir home "runs") (Archive.runFile home name) := inside_child _ _
      rw [← hplace] at hinside
      exact absurd hinside (hapart "runs" (by simp))
    · obtain ⟨s, file, hrun, hlinkedRun⟩ := (h.runs w hw).place
      have hnames := List.append_cancel_left (hrun.symm.trans hplace)
      have hrunJson : file = "run.json".toList := by
        have htail := List.tail_eq_of_cons_eq hnames
        exact List.singleton_inj.mp htail
      obtain ⟨r', k, hr', hlink⟩ := hlinkedRun hrunJson
      rw [hwritten, hr'] at hfile
      obtain rfl : r' = r := Json.obj.inj (Option.some.inj hfile)
      exact ⟨k, hlink.mono hnext⟩
    · obtain ⟨file, hresult⟩ := h.results w hw
      exact absurd (hresult.symm.trans hplace) (storeOf_apart (by decide))
    · obtain ⟨file, hcontext⟩ := h.contexts w hw
      exact absurd (hcontext.symm.trans hplace) (storeOf_apart (by decide))

/-- Where the dated file of a second does not hold another value, dated files stay. -/
theorem keepsDated_of_free {kind : String} {x : Option (Env × Obj)} {before after : ResultStore}
    {files files' : Contents}
    (htakes : Takes kind x before after) (hkind : kind = "result" ∨ kind = "context")
    (hstamp : ∀ y ∈ x, '/' ∉ (y.1.fileStamp y.1.now).toList) (hfree : ∀ y ∈ x, SecondFree home kind files y.1 y.2)
    (hfiles : ∀ name, files' (storeOf home kind ++ [name]) = files (storeOf home kind ++ [name]) ∨
      ∃ w ∈ latestWrites kind before after, locate (storeOf home kind) w.1.toList = storeOf home kind ++ [name] ∧
        files' (storeOf home kind ++ [name]) = some w.2) : KeepsDated home kind files files' := by
  intro name v hname hfile
  rcases hfiles name with hsame | ⟨w, hw, hplace, hwritten⟩
  · rw [hsame]
    exact hfile
  · have hcases := latestWrites_cases home htakes hkind hstamp hw
    rcases hcases with hlatest | ⟨y, hy, hdated, hvalue⟩
    · have heq := List.append_cancel_left (hplace.symm.trans hlatest)
      exact absurd (List.singleton_inj.mp heq) hname
    · have hat : datedFile home kind y.1 = storeOf home kind ++ [name] := hdated.symm.trans hplace
      have hv : v = .obj y.2 := hfree y hy v (by rw [hat]; exact hfile)
      rw [hwritten, hvalue, hv]

/-- The time of a result names a file. -/
theorem stamp_of_result (hhost : i.Hosted) : ∀ y ∈ s.resultToStore i, '/' ∉ (y.1.fileStamp y.1.now).toList := by
  intro y hy
  cases i with
  | resultUpdate env path params =>
    obtain ⟨r, _, rfl⟩ := Option.map_eq_some_iff.mp hy
    exact hhost.stamp
  | runImportResult env params =>
    obtain ⟨r, _, rfl⟩ := Option.map_eq_some_iff.mp hy
    exact hhost.stamp
  | advance w n =>
    obtain ⟨r, _, rfl⟩ := Option.map_eq_some_iff.mp hy
    exact hhost.stamp
  | _ => cases hy

/-- So does that of a context. -/
theorem stamp_of_context (hhost : i.Hosted) : ∀ y ∈ s.contextStored i, '/' ∉ (y.1.fileStamp y.1.now).toList := by
  intro y hy
  cases i with
  | contextUpdate env path params =>
    obtain ⟨c, _, rfl⟩ := Option.map_eq_some_iff.mp hy
    exact hhost.stamp
  | _ => cases hy

end Flush

/-- What a step leaves: the dated files, the links, and in its dated file what it stored. -/
structure Leaves (home : Place) (s : Archive) (i : ArchiveInput) (s' : Archive) : Prop where
  results : KeepsDated home "result" s.files s'.files
  contexts : KeepsDated home "context" s.files s'.files
  linked : s'.Linked home
  result : ∀ y ∈ s.resultToStore i, s'.files (datedFile home "result" y.1) = some (.obj y.2)
  context : ∀ y ∈ s.contextStored i, s'.files (datedFile home "context" y.1) = some (.obj y.2)

section Steps

variable {home : Place} {s s' : Archive} {i : ArchiveInput} {files : Contents}

/-- What a step writes goes to its own stores. -/
theorem StepEffect.writing (h : StepEffect home s i s') (hok : Spaced home s i) {ids : Json → Prop}
    (hrunners : ∀ r ∈ s.runners, r.Linked home ids) (hids : ∀ y ∈ s.resultToStore i, ids (Obj.get y.2 "result_id"))
    (hjobs : AllRecords (JobLinked ids) s.daemon.tunnel.jobs)
    (hruns : AllRecords (RunLinked ids) s.daemon.tunnel.runs) :
    Writing home ids s s' := by
  obtain ⟨hlinks, _⟩ := h.links ids hrunners hids
  refine ⟨(appends_newWrites hlinks.jobs hjobs).2, (appends_newWrites hlinks.runs hruns).2, ?_, ?_⟩
  · intro w hw
    rcases latestWrites_cases home h.results (.inl rfl) (stamp_of_result hok.hosted) hw
      with hlatest | ⟨y, _, hdated, _⟩
    · exact ⟨_, hlatest⟩
    · exact ⟨_, hdated⟩
  · intro w hw
    rcases latestWrites_cases home h.contexts (.inr rfl) (stamp_of_context hok.hosted) hw
      with hlatest | ⟨y, _, hdated, _⟩
    · exact ⟨_, hlatest⟩
    · exact ⟨_, hdated⟩

/-- The dated files that a change writes hold what it stored. -/
theorem StepEffect.dated (h : StepEffect home s i s') (hok : Spaced home s i) :
    (∀ y ∈ s.resultToStore i, s'.files (datedFile home "result" y.1) = some (.obj y.2)) ∧
      ∀ y ∈ s.contextStored i, s'.files (datedFile home "context" y.1) = some (.obj y.2) := by
  rw [h.files]
  constructor
  · intro y hy
    have htakes := h.results
    have hstamp := stamp_of_result hok.hosted y hy
    rw [Option.mem_def.mp hy] at htakes
    have hwritten : ∀ files : Contents, files.write (storeOf home "result")
        (latestWrites "result" s.daemon.tunnel.results s'.daemon.tunnel.results) (datedFile home "result" y.1) =
          some (.obj y.2) := fun files => write_latestWrites htakes (.inl rfl) hstamp
    unfold Archive.flush
    rw [Contents.write_of_ne, hwritten]
    intro w hw heq
    have hplace : ∃ name, locate (storeOf home "context") w.1.toList = storeDir home "contexts" ++ [name] := by
      rcases latestWrites_cases home h.contexts (.inr rfl) (stamp_of_context hok.hosted) hw
        with hlatest | ⟨c, _, hdated, _⟩
      · exact ⟨_, hlatest⟩
      · exact ⟨_, hdated⟩
    obtain ⟨name, hcontext⟩ := hplace
    exact storeOf_apart (by decide) (hcontext.symm.trans heq)
  · intro y hy
    have htakes := h.contexts
    rw [Option.mem_def.mp hy] at htakes
    exact write_latestWrites htakes (.inr rfl) (stamp_of_context hok.hosted y hy)

/-- A step in its own second leaves the history. -/
theorem StepEffect.leaves (h : StepEffect home s i s') (hok : Spaced home s i) (hlinked : s.Linked home) :
    Leaves home s i s' := by
  obtain ⟨hresult, hcontext⟩ := h.dated hok
  -- where the writes go does not depend on the ids that are carried
  have hplaces : Writing home (fun _ => True) s s' :=
    h.writing hok (fun r hr => (hlinked.runners r hr).mono fun _ _ => trivial) (fun _ _ => trivial)
      (hlinked.jobs.mono fun _ _ hj => hj.mono fun _ _ => trivial)
      (hlinked.runs.mono fun _ _ hr => hr.mono fun _ _ => trivial)
  have hresults : KeepsDated home "result" s.files s'.files := by
    rw [h.files]
    exact keepsDated_of_free h.results (.inl rfl) (stamp_of_result hok.hosted) hok.result (hplaces.at_results s.files)
  have hcontexts : KeepsDated home "context" s.files s'.files := by
    rw [h.files]
    exact keepsDated_of_free h.contexts (.inr rfl) (stamp_of_context hok.hosted) hok.context
      (hplaces.at_contexts s.files)
  have hids : ∀ v, KeptId home s.files v → KeptId home s'.files v := fun v => KeptId.mono hresults v
  have hnew : ∀ y ∈ s.resultToStore i, KeptId home s'.files (Obj.get y.2 "result_id") := fun y hy =>
    ⟨_, y.2, datedName_ne_latest y.1 (.inl rfl), hresult y hy, rfl⟩
  have hrunners : ∀ r ∈ s.runners, r.Linked home (KeptId home s'.files) := fun r hr => (hlinked.runners r hr).mono hids
  have hjobs : AllRecords (JobLinked (KeptId home s'.files)) s.daemon.tunnel.jobs :=
    hlinked.jobs.mono fun _ _ hj => hj.mono hids
  have hruns : AllRecords (RunLinked (KeptId home s'.files)) s.daemon.tunnel.runs :=
    hlinked.runs.mono fun _ _ hr => hr.mono hids
  obtain ⟨hlinks, hrunners'⟩ := h.links _ hrunners hnew
  have hfiles : FilesLinked home s'.files := by
    have hwriting := h.writing hok hrunners hnew hjobs hruns
    have hnext : ∀ v, KeptId home s'.files v → KeptId home (Archive.flush home s.daemon s'.daemon s.files) v := by
      intro v hv
      rw [← h.files]
      exact hv
    rw [h.files]
    exact hwriting.linked hids hlinked.files hnext
  exact ⟨hresults, hcontexts, ⟨hfiles, (appends_newWrites hlinks.jobs hjobs).1, (appends_newWrites hlinks.runs hruns).1,
    hrunners'⟩, hresult, hcontext⟩

/-- What is loaded comes from the file. -/
theorem loadRecord_mem {field : String} {loaded next : Dict Key Obj} {path : Place}
    (h : loadRecord field files loaded path = .ok next) {k : Key} {r : Obj} (hr : next.get? k = some r) :
    loaded.get? k = some r ∨
      files path = some (.obj r) ∧ (Obj.get r field).truthy = true ∧ (Obj.get r field).key? = some k := by
  unfold loadRecord at h
  cases hfile : files path with
  | none =>
    rw [hfile] at h
    obtain rfl : loaded = next := Except.ok.inj h
    exact .inl hr
  | some v =>
    rw [hfile] at h
    cases v with
    | obj read =>
      by_cases htruthy : (Obj.get read field).truthy = true
      · cases hkey : (Obj.get read field).key? with
        | none => simp [htruthy, hashKey, hkey, Except.map] at h
        | some own =>
          obtain rfl : loaded.insert own read = next := by simpa [htruthy, hashKey, hkey, Except.map] using h
          rw [Dict.get?_insert] at hr
          split at hr
          · rename_i hk
            obtain rfl : read = r := Option.some.inj hr
            exact .inr ⟨rfl, htruthy, by rw [hkey, hk]⟩
          · exact .inl hr
      · obtain rfl : loaded = next := by simpa [htruthy] using h
        exact .inl hr
    | _ => cases h

/-- What is loaded was read from one of the files. -/
theorem loadRecords_mem {field : String} {paths : List Place} {records : Dict Key Obj}
    (h : loadRecords field files paths = .ok records) {k : Key} {r : Obj} (hr : records.get? k = some r) :
    ∃ path ∈ paths, files path = some (.obj r) ∧ (Obj.get r field).truthy = true ∧ (Obj.get r field).key? = some k := by
  have hfrom : ∀ loaded : Dict Key Obj, paths.foldlM (loadRecord field files) loaded = .ok records →
      loaded.get? k = some r ∨ ∃ path ∈ paths, files path = some (.obj r) ∧ (Obj.get r field).truthy = true ∧
        (Obj.get r field).key? = some k := by
    clear h
    induction paths with
    | nil =>
      intro loaded hload
      obtain rfl : loaded = records := Except.ok.inj hload
      exact .inl hr
    | cons path paths ih =>
      intro loaded hload
      rw [List.foldlM_cons] at hload
      cases hnext : loadRecord field files loaded path with
      | error e =>
        rw [hnext] at hload
        cases hload
      | ok next =>
        rw [hnext] at hload
        rcases ih next hload with hbefore | ⟨later, hmem, hread⟩
        · rcases loadRecord_mem hnext hbefore with hloaded | hhere
          · exact .inl hloaded
          · exact .inr ⟨path, List.mem_cons_self, hhere⟩
        · exact .inr ⟨later, List.mem_cons_of_mem _ hmem, hread⟩
  rcases hfrom Dict.empty h with hempty | hread
  · simp at hempty
  · exact hread

/-- A new process has the jobs and runs of the files, and the latest result and context. -/
theorem reload_ok {jobs runs : List (List Char)} {others : Tunnel} {d : Daemon}
    (h : Archive.reload home jobs runs others files = .ok d) :
    ∃ js rs, loadRecords "job_id" files (jobs.map fun name => Archive.jobsDir home ++ [name]) = .ok js ∧
      loadRecords "run_id" files (runs.map fun name => Archive.runFile home name) = .ok rs ∧
      d = ⟨{ others with jobs := ⟨js, []⟩, runs := ⟨rs, []⟩, results := loadLatest home "result" files },
        loadLatest home "context" files⟩ := by
  unfold Archive.reload at h
  cases hjobs : loadRecords "job_id" files (jobs.map fun name => Archive.jobsDir home ++ [name]) with
  | error e =>
    rw [hjobs] at h
    cases h
  | ok js =>
    cases hruns : loadRecords "run_id" files (runs.map fun name => Archive.runFile home name) with
    | error e =>
      rw [hjobs, hruns] at h
      cases h
    | ok rs =>
      rw [hjobs, hruns] at h
      exact ⟨js, rs, rfl, rfl, (Except.ok.inj h).symm⟩

/-- A process that loads linked files is linked. -/
theorem linked_reload {jobs runs : List (List Char)} {others : Tunnel} {d : Daemon} (hfiles : FilesLinked home files)
    (h : Archive.reload home jobs runs others files = .ok d) : (⟨d, [], files⟩ : Archive).Linked home := by
  obtain ⟨js, rs, hjobs, hruns, rfl⟩ := reload_ok h
  refine ⟨hfiles, ?_, ?_, fun r hr => by cases hr⟩
  · intro k j hj
    obtain ⟨path, hpath, hfile, _, hkey⟩ := loadRecords_mem hjobs hj
    obtain ⟨name, _, rfl⟩ := List.mem_map.mp hpath
    exact ⟨hkey, hfiles.jobs name j hfile⟩
  · intro k r hr
    obtain ⟨path, hpath, hfile, htruthy, hkey⟩ := loadRecords_mem hruns hr
    obtain ⟨name, _, rfl⟩ := List.mem_map.mp hpath
    obtain ⟨own, hlinked⟩ := hfiles.runs name r hfile htruthy
    obtain ⟨s, rfl, _, hid⟩ := hlinked.key
    rw [hid] at hkey
    obtain rfl : Key.str s = k := Option.some.inj hkey
    exact hlinked

/-- What every step leaves. -/
theorem leaves_step (hok : Spaced home s i) (hlinked : s.Linked home) :
    Leaves home s i (Archive.step home i s).2 := by
  rcases step_cases hok with ⟨hsame, hresult, hcontext⟩ | ⟨jobs, runs, others, d, rfl, hload, hstep⟩ | hchange
  · rw [hsame]
    refine ⟨fun _ _ _ h => h, fun _ _ _ h => h, hlinked, ?_, ?_⟩
    · rw [hresult]
      intro y hy
      cases hy
    · rw [hcontext]
      intro y hy
      cases hy
  · rw [hstep]
    refine ⟨fun _ _ _ h => h, fun _ _ _ h => h, linked_reload hlinked.files hload, ?_, ?_⟩
    · intro y hy
      cases hy
    · intro y hy
      cases hy
  · exact hchange.leaves hok hlinked

end Steps

section Runs

variable {home : Place} {s : Archive} {history : List (Entry Archive ArchiveInput (Except PyExc Json))}

/-- Every run keeps the records linked. -/
theorem linked_of_run (hrun : Run (archive home) (Spaced home) history s) : s.Linked home := by
  refine hrun.invariant ?_ fun s i hok hlinked => (leaves_step hok hlinked).linked
  rintro s ⟨hrunners, hfiles, jobs, runs, others, hload⟩
  have hlinked := linked_reload hfiles hload
  exact ⟨hlinked.files, hlinked.jobs, hlinked.runs, fun r hr => by rw [hrunners] at hr; cases hr⟩

/-- What a step put into a dated file stays there. -/
theorem dated_stays {e : Entry Archive ArchiveInput (Except PyExc Json)}
    (hrun : Run (archive home) (Spaced home) history s)
    (he : e ∈ history) {kind : String} (hkind : kind = "result" ∨ kind = "context") {env : Env} {value : Obj}
    (hfile : e.after.files (datedFile home kind env) = some (.obj value)) :
    s.files (datedFile home kind env) = some (.obj value) := by
  obtain ⟨h₁, h₂, hhistory, hbefore, hok, hfire⟩ := hrun.split_of_mem he
  have hlinked : e.after.Linked home := by
    rw [hfire]
    exact (leaves_step hok (linked_of_run hbefore)).linked
  have hstays : s.Linked home ∧ s.files (datedFile home kind env) = some (.obj value) := by
    refine Run.persists (P := fun s => s.Linked home ∧ s.files (datedFile home kind env) = some (.obj value))
      ?_ hrun hhistory ⟨hlinked, hfile⟩
    rintro s i hok ⟨hs, hthere⟩
    have hleaves := leaves_step hok hs
    refine ⟨hleaves.linked, ?_⟩
    have hname := datedName_ne_latest env hkind
    rcases hkind with rfl | rfl
    · exact hleaves.results _ _ hname hthere
    · exact hleaves.contexts _ _ hname hthere
  exact hstays.2

end Runs

/-- The answer to a request tells that the result is stored. -/
def AnswersResult (e : Entry Archive ArchiveInput (Except PyExc Json)) (result : Obj) : Prop :=
  ((∃ env path params, e.input = .resultUpdate env path params) ∨ ∃ env params, e.input = .runImportResult env params) ∧
    ∃ answer, e.output = .ok (.obj answer) ∧ Obj.get answer "result" = .obj result

/-- A step answered that it stored the result, or a request or a runner wrote its dated file. -/
def ResultStored (e : Entry Archive ArchiveInput (Except PyExc Json)) (result : Obj) : Prop :=
  AnswersResult e result ∨
    ∃ name, (name, result) ∈ e.before.daemon.tunnel.results.newHistory e.after.daemon.tunnel.results

/-- A request was answered that stores the context, or wrote its dated file. -/
def ContextStored (e : Entry Archive ArchiveInput (Except PyExc Json)) (context : Obj) : Prop :=
  (∃ env path params answer, e.input = .contextUpdate env path params ∧ Obj.get params "context" = .obj context ∧
    e.output = .ok answer) ∨
  ∃ name, (name, context) ∈ e.before.daemon.contexts.newHistory e.after.daemon.contexts

/-- A done job or a run carries the result id. -/
def Carried (t : Tunnel) (id : Json) : Prop :=
  id ≠ .null ∧ ((∃ k j, t.jobs.records.get? k = some j ∧ Obj.get j "status" = .str "done" ∧
    Obj.get j "result_id" = id) ∨
    ∃ k r, t.runs.records.get? k = some r ∧ Obj.get r "result_id" = id)

section Stored

variable {home : Place} {s : Archive} {i : ArchiveInput} {result context : Obj}
variable {history : List (Entry Archive ArchiveInput (Except PyExc Json))}

/-- Where nothing happened nothing is new. -/
theorem newHistory_self (st : ResultStore) : st.newHistory st = [] := List.drop_length

/-- What is new was taken. -/
theorem mem_newHistory {kind : String} {x : Option (Env × Obj)} {before after : ResultStore}
    {name : String} {value : Obj}
    (htakes : Takes kind x before after) (h : (name, value) ∈ before.newHistory after) :
    ∃ env, x = some (env, value) := by
  rw [htakes.newHistory] at h
  cases x with
  | none => cases h
  | some y =>
    obtain ⟨env, stored⟩ := y
    obtain ⟨_, rfl⟩ : name = datedName env kind ∧ value = stored := by simpa using h
    exact ⟨env, rfl⟩

/-- A restart adds nothing to the history. -/
theorem newHistory_reload {jobs runs : List (List Char)} {others : Tunnel} {files : Contents} {d : Daemon}
    (h : Archive.reload home jobs runs others files = .ok d) (before : ResultStore) :
    before.newHistory d.tunnel.results = [] ∧ before.newHistory d.contexts = [] := by
  have hloaded : ∀ kind, (loadLatest home kind files).history = [] := by
    intro kind
    unfold loadLatest
    split <;> rfl
  obtain ⟨js, rs, _, _, rfl⟩ := reload_ok h
  simp [ResultStore.newHistory, hloaded]

/-- What is told to be stored, or written, is what the input stores. -/
theorem toStore_of_result (hok : Spaced home s i) (h : ResultStored ((archive home).fire s i) result) :
    ∃ env, s.resultToStore i = some (env, result) := by
  rcases h with ⟨hinput, answer, hanswer, hresult⟩ | ⟨name, hmem⟩
  · rcases hinput with ⟨env, path, params, hinput⟩ | ⟨env, params, hinput⟩
    · obtain rfl : i = .resultUpdate env path params := hinput
      obtain ⟨stored, hupdated, hgiven⟩ := (mResultUpdate_takes hok.hosted path params s.daemon.tunnel).2 _ hanswer
      obtain rfl := Json.obj.inj hgiven
      obtain rfl : stored = result := by simpa [Obj.get, Obj.getD] using hresult
      exact ⟨env, by simp [Archive.resultToStore, hupdated, Except.toOption]⟩
    · obtain rfl : i = .runImportResult env params := hinput
      obtain ⟨stored, run, himport, hgiven⟩ := (mRunImportResult_takes hok.hosted params s.daemon.tunnel).2 _ hanswer
      obtain rfl := Json.obj.inj hgiven
      obtain rfl : stored = result := Json.obj.inj hresult
      exact ⟨env, by simp [Archive.resultToStore, himport]⟩
  · have hnew : (name, result) ∈
        s.daemon.tunnel.results.newHistory (Archive.step home i s).2.daemon.tunnel.results := hmem
    rcases step_cases hok with ⟨hsame, _⟩ | ⟨jobs, runs, others, d, rfl, hload, hstep⟩ | hchange
    · rw [hsame, newHistory_self] at hnew
      cases hnew
    · rw [hstep, (newHistory_reload hload _).1] at hnew
      cases hnew
    · exact mem_newHistory hchange.results hnew

/-- A context that is stored was to be stored. -/
theorem toStore_of_context (hok : Spaced home s i) (h : ContextStored ((archive home).fire s i) context) :
    ∃ env, s.contextStored i = some (env, context) := by
  rcases h with ⟨env, path, params, answer, hinput, hcontext, hanswer⟩ | ⟨name, hmem⟩
  · obtain rfl : i = .contextUpdate env path params := hinput
    have hstored := (mContextUpdate_takes hok.hosted path params s.daemon).2.2 answer context hanswer hcontext
    exact ⟨env, by simp [Archive.contextStored, hstored]⟩
  · have hnew : (name, context) ∈ s.daemon.contexts.newHistory (Archive.step home i s).2.daemon.contexts := hmem
    rcases step_cases hok with ⟨hsame, _⟩ | ⟨jobs, runs, others, d, rfl, hload, hstep⟩ | hchange
    · rw [hsame, newHistory_self] at hnew
      cases hnew
    · rw [hstep, (newHistory_reload hload _).2] at hnew
      cases hnew
    · exact mem_newHistory hchange.contexts hnew

/-- In a run in which no second brings two results or two contexts, and no started job has its file in another
store, every stored result and every stored context stays readable, and every result id that a done job or a run
carries is that of a readable result. -/
theorem stored_stays_readable (hrun : Run (archive home) (Spaced home) history s) :
    (∀ e ∈ history, ∀ result, ResultStored e result → Readable home "result" s.files result) ∧
    (∀ id, Carried s.daemon.tunnel id →
      ∃ result, Readable home "result" s.files result ∧ Obj.get result "result_id" = id) ∧
    ∀ e ∈ history, ∀ context, ContextStored e context → Readable home "context" s.files context := by
  refine ⟨?_, ?_, ?_⟩
  · intro e he result hstored
    obtain ⟨h₁, h₂, _, hbefore, hok, hfire⟩ := hrun.split_of_mem he
    rw [hfire] at hstored
    obtain ⟨env, hvalue⟩ := toStore_of_result hok hstored
    have hafter : e.after.files (datedFile home "result" env) = some (.obj result) := by
      rw [hfire]
      exact (leaves_step hok (linked_of_run hbefore)).result (env, result) hvalue
    exact ⟨_, dated_stays hrun he (.inl rfl) hafter⟩
  · rintro id ⟨hid, ⟨k, j, hj, hdone, hcarried⟩ | ⟨k, r, hr, hcarried⟩⟩
    · rcases ((linked_of_run hrun).jobs k j hj).done hdone with hnull | ⟨name, result, _, hfile, hresult⟩
      · exact absurd (hcarried.symm.trans hnull) hid
      · exact ⟨result, ⟨name, hfile⟩, hresult.trans hcarried⟩
    · rcases ((linked_of_run hrun).runs k r hr).backed with hnull | ⟨name, result, _, hfile, hresult⟩
      · exact absurd (hcarried.symm.trans hnull) hid
      · exact ⟨result, ⟨name, hfile⟩, hresult.trans hcarried⟩
  · intro e he context hstored
    obtain ⟨h₁, h₂, _, hbefore, hok, hfire⟩ := hrun.split_of_mem he
    rw [hfire] at hstored
    obtain ⟨env, hvalue⟩ := toStore_of_context hok hstored
    have hafter : e.after.files (datedFile home "context" env) = some (.obj context) := by
      rw [hfire]
      exact (leaves_step hok (linked_of_run hbefore)).context (env, context) hvalue
    exact ⟨_, dated_stays hrun he (.inr rfl) hafter⟩

end Stored

/-- An update whose second is free is spaced. -/
theorem spaced_resultUpdate {home : Place} {s : Archive} {env : Env} {path : String} {params : Obj}
    (hhost : WorkingHost env)
    (hfree : ∀ x ∈ s.resultToStore (.resultUpdate env path params), SecondFree home "result" s.files x.1 x.2) :
    Spaced home s (.resultUpdate env path params) := by
  refine ⟨hhost, hfree, ?_, ?_⟩
  · intro x hx
    cases hx
  · intro env params id h
    cases h

/-- The home of the samples. -/
def sampleVfpHome : Place := [".vfp".toList]

/-- A daemon over a home without any file. -/
def sampleArchive : Archive := ⟨⟨Tunnel.fresh .empty, .empty⟩, [], fun _ => none⟩

/-- A daemon that has just begun. -/
theorem run_sampleArchive (ok : Archive → ArchiveInput → Prop) : Run (archive sampleVfpHome) ok [] sampleArchive := by
  refine .init ⟨rfl, ⟨?_, ?_⟩, [], [], Tunnel.fresh .empty, rfl⟩
  · intro name j hfile
    cases hfile
  · intro name r hfile
    cases hfile

/-- A result with an id of its own. -/
def sampleStored (id : String) : Obj := [("result_id", .str id), ("metrics", .obj [("gain", .int 1)])]

/-- The request that stores it. -/
def sampleStoring (env : Env) (id : String) : ArchiveInput :=
  .resultUpdate env "latest_result.json" [("result", .obj (sampleStored id))]

/-- One second later. -/
def sampleLater : Env := { Env.sample with fileStamp := fun _ => "20260101_000001" }

/-- The host of the samples works. -/
theorem workingHost_sample : WorkingHost Env.sample := ⟨rfl, by decide, by decide, by decide, by decide⟩

/-- So it does later. -/
theorem workingHost_later : WorkingHost sampleLater := ⟨rfl, by decide, by decide, by decide, by decide⟩

/-- Two results in two seconds. -/
def sampleSpaced : List ArchiveInput := [sampleStoring Env.sample "r1", sampleStoring sampleLater "r2"]

/-- A result that was stored is still there after others. -/
theorem stored_stays_readable_sample :
    Readable sampleVfpHome "result" ((archive sampleVfpHome).last sampleArchive sampleSpaced).files
      (makeResult Env.sample (sampleStored "r1")) := by
  have hrun := (run_sampleArchive (Spaced sampleVfpHome)).append_trace sampleSpaced (by
    intro e he
    rcases List.mem_cons.mp he with rfl | he
    · refine spaced_resultUpdate workingHost_sample fun x _ v hv => ?_
      cases hv
    · obtain rfl := List.mem_singleton.mp he
      refine spaced_resultUpdate workingHost_later fun x hx v hv => ?_
      obtain rfl : (sampleLater, makeResult sampleLater (sampleStored "r2")) = x := Option.some.inj hx
      cases hv)
  have hstored : ResultStored ((archive sampleVfpHome).fire sampleArchive (sampleStoring Env.sample "r1"))
      (makeResult Env.sample (sampleStored "r1")) := .inl ⟨.inl ⟨_, _, _, rfl⟩, _, rfl, rfl⟩
  exact (stored_stays_readable hrun).1 _ List.mem_cons_self _ hstored

/-- A second result in the second of the first. -/
def sampleSameSecond : List ArchiveInput := [sampleStoring Env.sample "r1", sampleStoring Env.sample "r2"]

/-- Two results of one second have one dated file, and the first is in no file any more. -/
theorem first_result_overwritten :
    ¬ ∀ history s, Run (archive sampleVfpHome) (fun _ i => i.Hosted) history s → ∀ e ∈ history, ∀ result,
      ResultStored e result → Readable sampleVfpHome "result" s.files result := by
  intro hall
  have hrun := (run_sampleArchive fun _ i => i.Hosted).append_trace sampleSameSecond (by
    intro e he
    rcases List.mem_cons.mp he with rfl | he
    · exact workingHost_sample
    · obtain rfl := List.mem_singleton.mp he
      exact workingHost_sample)
  have hstored : ResultStored ((archive sampleVfpHome).fire sampleArchive (sampleStoring Env.sample "r1"))
      (makeResult Env.sample (sampleStored "r1")) := .inl ⟨.inl ⟨_, _, _, rfl⟩, _, rfl, rfl⟩
  obtain ⟨name, hfile⟩ := hall _ _ hrun _ List.mem_cons_self _ hstored
  -- the second request wrote both files anew
  have hfiles : ((archive sampleVfpHome).last sampleArchive sampleSameSecond).files =
      Function.update (Function.update (Function.update (Function.update (fun _ => none)
        [".vfp".toList, "results".toList, "latest_result.json".toList]
          (some (.obj (makeResult Env.sample (sampleStored "r1")))))
        [".vfp".toList, "results".toList, "result_20260101_000000.json".toList]
          (some (.obj (makeResult Env.sample (sampleStored "r1")))))
        [".vfp".toList, "results".toList, "latest_result.json".toList]
          (some (.obj (makeResult Env.sample (sampleStored "r2")))))
        [".vfp".toList, "results".toList, "result_20260101_000000.json".toList]
          (some (.obj (makeResult Env.sample (sampleStored "r2")))) := rfl
  have hother : makeResult Env.sample (sampleStored "r2") ≠ makeResult Env.sample (sampleStored "r1") := by
    intro heq
    have hid : Json.str "r2" = Json.str "r1" := congrArg (fun r => Obj.get r "result_id") heq
    exact absurd (Json.str.inj hid) (by decide)
  rw [hfiles] at hfile
  simp only [Function.update_apply] at hfile
  split at hfile
  · exact hother (Json.obj.inj (Option.some.inj hfile))
  · split at hfile
    · exact hother (Json.obj.inj (Option.some.inj hfile))
    · cases hfile

end VirtuosoFlow.Tunnel
