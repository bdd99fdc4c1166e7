import VirtuosoFlow.Plugin.Preflight
import VirtuosoFlow.Plugin.Servicing
import VirtuosoFlow.Tunnel.Freshness

/-!
# Simulating a cellview from the plugin

`vfpRunSimJob` (`vfp_sim.il`) pre-flights a cellview, creates a job for it on the tunnel with the fingerprint
taken there, and has the job run unless `job.create` answers with one that is done. Cellviews are edited and
saved between the calls, and the tunnel's runner threads go on by themselves. The history of the fingerprints
is kept beside: of which cellview, and in which state of the designs, that of each stored job was taken.
-/

namespace VirtuosoFlow.Plugin

open Base Relation
open Tunnel (System daemon)

/-- What one call of `vfpRunSimJob` finds, with its keyword arguments. -/
structure SimCall where
  /-- The surroundings of the tunnel while it serves the requests of the call. -/
  env : Tunnel.Env
  test : String
  /-- What the netlister finds, if the call is `attended`. -/
  attended : Option Netlister
  corner : String
  /-- `vfpStateGet('sessionId)`. -/
  sessionId : Option String
  /-- `vfpCvSavedAt(cv)`. -/
  savedAt : Option String
  /-- Whether `vfpWriteFile` can write the job file. -/
  paramsWritable : Bool
  /-- Whether the request of a method reaches the tunnel. -/
  reaches : Tunnel.Method → Bool
  /-- Whether the answer to a request that reaches it comes back. -/
  answers : Tunnel.Method → Bool

/-- What `vfpRunSimJob` returns: `nil`, or the job's id and whether the job was reused. -/
abbrev SimAnswer := Option (Json × Bool)

/-- `vfpAlistGet` on an answer of the tunnel, whose dictionaries have each key once. -/
def answerGet (answer : Json) (key : String) : Json :=
  match answer with
  | .obj members => Obj.get members key
  | _ => .null

/-- `vfpRpcExec(method args)`: the payload of an answer that is `ok`. -/
def SimCall.exec (call : SimCall) (method : Tunnel.Method) (params : Obj) (s : System) : Option Json × System :=
  if call.reaches method then
    let out := daemon.step (.request call.env method params) s
    (if call.answers method then out.1.toOption else none, out.2)
  else (none, s)

section Calls

variable {ι : Type} (printer : Printer) (call : SimCall) (cv : SimCellView ι)

/-- The session id that a call sends along. -/
def SimCall.sid : Json := .str (call.sessionId.getD "")

/-- The deck of an attended call is assembled first; whether the call goes on. -/
def SimCall.netlisted : Except SkillError Bool :=
  match call.attended with
  | none => .ok true
  | some n =>
    (vfpNetlistCellView n (some ⟨some cv.libName, some cv.cellName, some cv.viewName⟩) (.str call.corner)).map
      Value.truthy

/-- The names of a cellview, as a job has them. -/
def SimCellView.names : Json :=
  .obj [("lib", .str cv.libName), ("cell", .str cv.cellName), ("view", .str cv.viewName)]

/-- The job that a call asks for. -/
def SimCall.job (fingerprint : String) : Obj :=
  [("cellview", cv.names), ("test", .str call.test), ("inputs_fingerprint", .str fingerprint),
    ("saved_at", .str (call.savedAt.getD ""))]

/-- The parameters of its `job.create`. -/
def SimCall.createParams (fingerprint : String) : Obj :=
  [("session_id", call.sid), ("job", .obj (call.job cv fingerprint))]

/-- From the answer of `job.create` on: a job that is done needs no run. -/
def SimCall.start (payload : Json) (s : System) : SimAnswer × System :=
  let job := answerGet payload "job"
  let jid := answerGet job "job_id"
  if (answerGet job "status").pyEq (.str "done") then (some (jid, true), s)
  else
    let out := call.exec .jobRun
      [("job_id", .str (printer.format (Value.ofJson jid))), ("session_id", call.sid)] s
    (out.1.map fun _ => (jid, false), out.2)

/-- From the job file on. -/
def SimCall.submit (fingerprint : String) (s : System) : SimAnswer × System :=
  let params := call.createParams cv fingerprint
  if call.paramsWritable && sendable (.obj params) then
    let created := call.exec .jobCreate params s
    match created.1 with
    | none => (none, created.2)
    | some payload => call.start printer payload created.2
  else (none, s)

end Calls

/-- `vfpRunSimJob(cv ?test test ?attended attended ?corner corner)`. -/
def vfpRunSimJob {ι : Type} (printer : Printer) (d : OpenCellViews ι) (call : SimCall) (cv : Option ι) (s : System) :
    Except SkillError SimAnswer × System :=
  match cv with
  | none => (.ok none, s)
  | some c =>
    let pf := vfpSimPreflight printer d cv call.test
    if pf.dirty then (.ok none, s)
    else
      match call.netlisted (d.cellView c) with
      | .error e => (.error e, s)
      | .ok false => (.ok none, s)
      | .ok true =>
        let out := call.submit printer (d.cellView c) pf.fingerprint s
        (.ok out.1, out.2)

/-- That the fingerprint of a stored job was taken, of which cellview and in which state of the designs. -/
structure Taken (ι : Type) where
  job : Key
  cv : ι
  test : String
  designs : OpenCellViews ι

/-- The cellview as it was then. -/
def Taken.cellView {ι : Type} (t : Taken ι) : SimCellView ι := t.designs.cellView t.cv

/-- The fingerprint that was taken. -/
def Taken.fingerprint {ι : Type} (printer : Printer) (t : Taken ι) : String :=
  vfpInputsFingerprint printer (some t.cellView) t.test

/-- The designs and the tunnel, with the history of the fingerprints of the stored jobs. -/
structure SimWorld (ι : Type) where
  designs : OpenCellViews ι
  system : System
  taken : List (Taken ι)

/-- What can happen: an edit leaves a cellview with these instances, and modified unless it undid every change;
`jobRun` is a `job.run` of any client, and `runner` lets one of the tunnel's runner threads take a step. -/
inductive SimInput (ι : Type) where
  | edit (c : ι) (instances : List (SimInst ι)) (modified : Bool)
  | save (c : ι)
  | runSim (call : SimCall) (cv : Option ι)
  | jobRun (env : Tunnel.Env) (params : Obj)
  | runner (w : Tunnel.World) (i : ℕ)

/-- The jobs that one state of the tunnel has and another has not. -/
def newJobs (s s' : System) : List Key :=
  (s'.tunnel.jobs.records.entries.map Prod.fst).filter fun k => (s.tunnel.jobs.records.get? k).isNone

section Machine

variable {ι : Type} [DecidableEq ι]

/-- The designs after an edit. -/
def OpenCellViews.edited (d : OpenCellViews ι) (c : ι) (instances : List (SimInst ι)) (modified : Bool) :
    OpenCellViews ι where
  cellView := Function.update d.cellView c { d.cellView c with instances := instances }
  modified := Function.update d.modified c modified

/-- The designs after a cellview is saved. -/
def OpenCellViews.saved (d : OpenCellViews ι) (c : ι) : OpenCellViews ι :=
  { d with modified := Function.update d.modified c false }

/-- One step. -/
def SimWorld.step (printer : Printer) : SimInput ι → SimWorld ι → Except SkillError SimAnswer × SimWorld ι
  | .edit c instances modified, w => (.ok none, { w with designs := w.designs.edited c instances modified })
  | .save c, w => (.ok none, { w with designs := w.designs.saved c })
  | .runSim call cv, w =>
    let out := vfpRunSimJob printer w.designs call cv w.system
    (out.1, { w with
      system := out.2
      taken := w.taken ++ cv.toList.flatMap fun c =>
        (newJobs w.system out.2).map fun k => ⟨k, c, call.test, w.designs⟩ })
  | .jobRun env params, w =>
    (.ok none, { w with system := (daemon.step (.request env .jobRun params) w.system).2 })
  | .runner world i, w => (.ok none, { w with system := (daemon.step (.advance world i) w.system).2 })

/-- Any designs, and the tunnel started over an empty directory. -/
def simMachine (ι : Type) [DecidableEq ι] (printer : Printer) :
    Machine (SimWorld ι) (SimInput ι) (Except SkillError SimAnswer) where
  init w := daemon.init w.system ∧ w.taken = []
  step := SimWorld.step printer

end Machine

section Jobs

variable {ι : Type} {printer : Printer} {call : SimCall} {cv : SimCellView ι} {fp : String} {s s' : System} {k : Key}
  {j : Obj} {jid : Json}

/-- The jobs of the tunnel. -/
def jobOf (s : System) (k : Key) : Option Obj := s.tunnel.jobs.records.get? k

/-- The stored jobs stay, with all that their life leaves alone. -/
def JobsStay (s s' : System) : Prop := ∀ k j, jobOf s k = some j →
  ∃ j', jobOf s' k = some j' ∧ ∀ f ∉ Tunnel.jobTouched, j'.lookup f = j.lookup f

/-- A job of a cellview with a fingerprint, under the key of its id. -/
structure JobWith (fp : String) (names : Json) (k : Key) (j : Obj) : Prop where
  fingerprint : Obj.get j "inputs_fingerprint" = .str fp
  cellview : Obj.get j "cellview" = names
  id : (Obj.get j "job_id").key? = some k

/-- Jobs that are left alone stay. -/
theorem JobsStay.refl (s : System) : JobsStay s s := fun _ j hj => ⟨j, hj, fun _ _ => rfl⟩

/-- They stay over two steps if they stay over each. -/
theorem JobsStay.trans {s'' : System} (h : JobsStay s s') (h' : JobsStay s' s'') : JobsStay s s'' := by
  intro k j hj
  obtain ⟨j', hj', hsame⟩ := h k j hj
  obtain ⟨j'', hj'', hsame'⟩ := h' k j' hj'
  exact ⟨j'', hj'', fun f hf => (hsame' f hf).trans (hsame f hf)⟩

/-- What the life of a job leaves alone includes its fingerprint and its id. -/
theorem JobWith.stay {names : Json} (h : JobWith fp names k j) {j' : Obj}
    (hsame : ∀ f ∉ Tunnel.jobTouched, j'.lookup f = j.lookup f) :
    JobWith fp names k j' := by
  have hget : ∀ f ∉ Tunnel.jobTouched, Obj.get j' f = Obj.get j f := by
    intro f hf
    rw [Obj.get, Obj.getD, hsame f hf]
    rfl
  exact ⟨(hget _ (by decide)).trans h.fingerprint, (hget _ (by decide)).trans h.cellview,
    (congrArg Json.key? (hget _ (by decide))).trans h.id⟩

/-- No input of the tunnel takes a job away. -/
theorem jobsStay_step (i : Tunnel.Input) (s : System) : JobsStay s (daemon.step i s).2 := by
  intro k j hj
  obtain ⟨j', hj', hpath⟩ := (Tunnel.step_law i s).jobs.advanced hj
  exact ⟨j', hj', fun f hf => Tunnel.Lifecycle.lookup_of_steps hf hpath⟩

/-- Only `job.create` stores jobs. -/
theorem jobOf_of_step {i : Tunnel.Input} (hi : ∀ env params, i ≠ .request env .jobCreate params)
    (hj : jobOf (daemon.step i s).2 k = some j) : ∃ j₀, jobOf s k = some j₀ := by
  rcases (Tunnel.step_law i s).jobs.origin hj with ⟨j₀, hj₀, -⟩ | ⟨-, j₀, ⟨hnew, -⟩, -⟩
  · exact ⟨j₀, hj₀⟩
  · rw [Tunnel.newJob_eq_false hi] at hnew
    cases hnew

/-- A request leaves what jobs were made for. -/
theorem jobsStay_exec (method : Tunnel.Method) (params : Obj) : JobsStay s (call.exec method params s).2 := by
  unfold SimCall.exec
  split
  · exact jobsStay_step _ _
  · exact .refl s

/-- What a job that a call creates is like. -/
theorem jobWith_of_create (hfp : fp ≠ "") (hnone : jobOf s k = none)
    (hj : jobOf (call.exec .jobCreate (call.createParams cv fp) s).2 k = some j) :
    JobWith fp cv.names k j := by
  unfold SimCall.exec at hj
  split at hj
  · rcases Tunnel.mJobCreate_records call.env (call.createParams cv fp) s.tunnel with hsame | ⟨k', j', hstores, hinsert⟩
    · have hbefore : jobOf s k = some j := by
        rw [jobOf, ← hsame]
        exact hj
      rw [hnone] at hbefore
      cases hbefore
    · have hget : (s.tunnel.jobs.records.insert k' j').get? k = some j := by
        rw [← hinsert]
        exact hj
      rw [Dict.get?_insert] at hget
      split at hget
      · rename_i hkey
        subst hkey
        obtain rfl : j' = j := Option.some.inj hget
        obtain ⟨t', hcandidate, -, -, hid, -⟩ := hstores
        refine ⟨?_, Tunnel.get_cellview_of_candidate hcandidate rfl, hid⟩
        have hnamed : Obj.get (call.job cv fp) "inputs_fingerprint" = .str fp := rfl
        rw [← hnamed]
        exact Tunnel.get_fingerprint_of_candidate hcandidate rfl (by simpa [hnamed] using hfp)
      · rw [jobOf, hget] at hnone
        cases hnone
  · rw [hnone] at hj
    cases hj

/-- After the job is created no further job is stored. -/
theorem jobOf_of_start {payload : Json} (hj : jobOf (call.start printer payload s).2 k = some j) :
    ∃ j₀, jobOf s k = some j₀ := by
  unfold SimCall.start at hj
  dsimp only at hj
  split at hj
  · exact ⟨j, hj⟩
  · unfold SimCall.exec at hj
    split at hj
    · exact jobOf_of_step (fun env params heq => by cases heq) hj
    · exact ⟨j, hj⟩

/-- So does starting a job. -/
theorem jobsStay_start (payload : Json) : JobsStay s (call.start printer payload s).2 := by
  unfold SimCall.start
  dsimp only
  split
  · exact .refl s
  · exact jobsStay_exec _ _

/-- So does submitting one. -/
theorem jobsStay_submit : JobsStay s (call.submit printer cv fp s).2 := by
  unfold SimCall.submit
  dsimp only
  split
  · split
    · exact jobsStay_exec _ _
    · exact (jobsStay_exec _ _).trans (jobsStay_start _)
  · exact .refl s

/-- What a job that a call leaves behind is like. -/
theorem jobWith_of_submit (hfp : fp ≠ "") (hnone : jobOf s k = none)
    (hj : jobOf (call.submit printer cv fp s).2 k = some j) :
    JobWith fp cv.names k j := by
  unfold SimCall.submit at hj
  dsimp only at hj
  split at hj
  · split at hj
    · exact jobWith_of_create hfp hnone hj
    · rename_i payload _
      obtain ⟨j₀, hj₀⟩ := jobOf_of_start hj
      have hstay : JobsStay _ (call.start printer payload
        (call.exec .jobCreate (call.createParams cv fp) s).2).2 := jobsStay_start payload
      obtain ⟨j', hj', hsame⟩ := hstay k j₀ hj₀
      obtain rfl : j' = j := Option.some.inj (hj'.symm.trans hj)
      exact (jobWith_of_create hfp hnone hj₀).stay hsame
  · rw [hnone] at hj
    cases hj

/-- A payload comes from a handler that returned it. -/
theorem handle_of_exec {method : Tunnel.Method} {params : Obj} {payload : Json}
    (h : (call.exec method params s).1 = some payload) :
    ∃ t', (Tunnel.handle call.env method params).exec s.tunnel = (.ok payload, t') := by
  unfold SimCall.exec at h
  split at h
  · dsimp only at h
    split at h
    · cases hout : ((Tunnel.handle call.env method params).exec s.tunnel).1 with
      | error e =>
        change (((Tunnel.handle call.env method params).exec s.tunnel).1).toOption = some payload at h
        rw [hout] at h
        cases h
      | ok result =>
        change (((Tunnel.handle call.env method params).exec s.tunnel).1).toOption = some payload at h
        rw [hout] at h
        obtain rfl := Option.some.inj h
        exact ⟨_, Prod.ext hout rfl⟩
    · cases h
  · cases h

/-- The plugin tells a reused job by its status. -/
theorem done_of_start {payload : Json} (h : (call.start printer payload s).1 = some (jid, true)) :
    answerGet (answerGet payload "job") "status" = .str "done" ∧
      answerGet (answerGet payload "job") "job_id" = jid := by
  unfold SimCall.start at h
  dsimp only at h
  split at h
  · rename_i hdone
    exact ⟨Json.pyEq_str.mp hdone, (Prod.mk.inj (Option.some.inj h)).1⟩
  · obtain ⟨_, -, hpair⟩ := Option.map_eq_some_iff.mp h
    cases hpair

/-- A job that is handed out as reused is stored and done, and has the fingerprint that was sent. -/
theorem reused_of_submit (hfp : fp ≠ "") (h : (call.submit printer cv fp s).1 = some (jid, true)) :
    ∃ k j, jobOf s k = some j ∧ Obj.get j "inputs_fingerprint" = .str fp ∧ Obj.get j "status" = .str "done" ∧
      Obj.get j "job_id" = jid := by
  unfold SimCall.submit at h
  dsimp only at h
  split at h
  · split at h
    · cases h
    · rename_i payload hpayload
      obtain ⟨hdone, rfl⟩ := done_of_start h
      obtain ⟨t', hexec⟩ := handle_of_exec hpayload
      have hcreate : (Tunnel.mJobCreate call.env (call.createParams cv fp)).exec s.tunnel = (.ok payload, t') := hexec
      obtain ⟨t₁, c, hcandidate, ⟨j, rfl, -, -, ⟨k, hstored⟩, hstatus, hsame⟩ | ⟨rfl, -⟩⟩ :=
        Tunnel.mJobCreate_answers hcreate
      · have hnamed : Obj.get (call.job cv fp) "inputs_fingerprint" = .str fp := rfl
        rw [Tunnel.get_fingerprint_of_candidate hcandidate rfl (by simpa [hnamed] using hfp), hnamed,
          Json.pyEq_str] at hsame
        exact ⟨k, j, hstored, hsame, hstatus, rfl⟩
      · have hqueued : Obj.get c "status" = .str "queued" :=
          Tunnel.get_status_of_candidate hcandidate rfl rfl
        exact absurd (hqueued.symm.trans hdone) (by simp)
  · cases h

end Jobs

section Traces

variable {ι : Type} {printer : Printer} {d : OpenCellViews ι} {call : SimCall} {cv : Option ι} {c : ι}
  {s s' : System} {k : Key} {j : Obj} {jid : Json}

/-- No fingerprint is empty. -/
theorem fingerprint_ne (printer : Printer) (cv : Option (SimCellView ι)) (test : String) :
    vfpInputsFingerprint printer cv test ≠ "" := by
  intro hempty
  have hlist := congrArg String.toList hempty
  simp [vfpInputsFingerprint] at hlist

/-- What `vfpRunSimJob` does to the tunnel it does by a call with the fingerprint, or it does nothing. -/
theorem vfpRunSimJob_cases (printer : Printer) (d : OpenCellViews ι) (call : SimCall) (c : ι) (s : System) :
    (vfpRunSimJob printer d call (some c) s).2 = s ∧
        (∀ jid, (vfpRunSimJob printer d call (some c) s).1 ≠ .ok (some (jid, true))) ∨
      vfpRunSimJob printer d call (some c) s =
        (.ok (call.submit printer (d.cellView c) (vfpInputsFingerprint printer (some (d.cellView c)) call.test) s).1,
          (call.submit printer (d.cellView c) (vfpInputsFingerprint printer (some (d.cellView c)) call.test) s).2) := by
  unfold vfpRunSimJob
  dsimp only
  split
  · exact .inl ⟨rfl, fun jid h => by cases h⟩
  · split
    · exact .inl ⟨rfl, fun jid h => by cases h⟩
    · exact .inl ⟨rfl, fun jid h => by cases h⟩
    · exact .inr rfl

/-- Running a simulation leaves what the other jobs were made for. -/
theorem jobsStay_vfpRunSimJob : JobsStay s (vfpRunSimJob printer d call cv s).2 := by
  cases cv with
  | none => exact .refl s
  | some c =>
    rcases vfpRunSimJob_cases printer d call c s with ⟨hsame, -⟩ | hsubmit
    · rw [hsame]
      exact .refl s
    · rw [hsubmit]
      exact jobsStay_submit

/-- A job that it makes is for the cellview and its fingerprint. -/
theorem jobWith_of_vfpRunSimJob (hnone : jobOf s k = none)
    (hj : jobOf (vfpRunSimJob printer d call (some c) s).2 k = some j) :
    JobWith (vfpInputsFingerprint printer (some (d.cellView c)) call.test) (d.cellView c).names k j := by
  rcases vfpRunSimJob_cases printer d call c s with ⟨hsame, -⟩ | hsubmit
  · rw [hsame, hnone] at hj
    cases hj
  · rw [hsubmit] at hj
    exact jobWith_of_submit (fingerprint_ne printer _ _) hnone hj

/-- A job that it reuses is done and has the fingerprint. -/
theorem reused_of_vfpRunSimJob (h : (vfpRunSimJob printer d call (some c) s).1 = .ok (some (jid, true))) :
    ∃ k j, jobOf s k = some j ∧
      Obj.get j "inputs_fingerprint" = .str (vfpInputsFingerprint printer (some (d.cellView c)) call.test) ∧
      Obj.get j "status" = .str "done" ∧ Obj.get j "job_id" = jid := by
  rcases vfpRunSimJob_cases printer d call c s with ⟨-, hnot⟩ | hsubmit
  · exact absurd h (hnot jid)
  · rw [hsubmit] at h
    exact reused_of_submit (fingerprint_ne printer _ _) (Except.ok.inj h)

/-- New jobs are those that are there after a step and not before. -/
theorem mem_newJobs : k ∈ newJobs s s' ↔ jobOf s k = none ∧ ∃ j, jobOf s' k = some j := by
  simp only [newJobs, List.mem_filter, List.mem_map, Option.isNone_iff_eq_none, Prod.exists, exists_and_right,
    exists_eq_right, Dict.mem_entries_iff, jobOf]
  exact and_comm

variable {w : SimWorld ι}

/-- The history tells of every stored job, and tells its fingerprint. -/
structure Traced (printer : Printer) (w : SimWorld ι) : Prop where
  stored : ∀ k j, jobOf w.system k = some j → ∃ t ∈ w.taken, t.job = k
  made : ∀ t ∈ w.taken, ∃ j, jobOf w.system t.job = some j ∧ JobWith (t.fingerprint printer) t.cellView.names t.job j

/-- An input of the tunnel that creates no job leaves the history as it is. -/
theorem traced_daemon (h : Traced printer w) (i : Tunnel.Input)
    (hi : ∀ env params, i ≠ .request env .jobCreate params) :
    Traced printer { w with system := (daemon.step i w.system).2 } := by
  constructor
  · intro k j hj
    obtain ⟨j₀, hj₀⟩ := jobOf_of_step hi hj
    exact h.stored k j₀ hj₀
  · intro t ht
    obtain ⟨j, hj, hmade⟩ := h.made t ht
    obtain ⟨j', hj', hsame⟩ := jobsStay_step i w.system t.job j hj
    exact ⟨j', hj', hmade.stay hsame⟩

variable [DecidableEq ι]

/-- Every step keeps what the jobs were made for. -/
theorem traced_step (h : Traced printer w) (i : SimInput ι) : Traced printer (w.step printer i).2 := by
  cases i with
  | edit c instances modified => exact ⟨h.stored, h.made⟩
  | save c => exact ⟨h.stored, h.made⟩
  | jobRun env params => exact traced_daemon h (.request env .jobRun params) fun _ _ heq => by cases heq
  | runner world i => exact traced_daemon h (.advance world i) fun _ _ heq => by cases heq
  | runSim call cv =>
    generalize hout : vfpRunSimJob printer w.designs call cv w.system = out
    have hstay : JobsStay w.system out.2 := hout ▸ jobsStay_vfpRunSimJob
    have hnext : (w.step printer (.runSim call cv)).2 = { w with
        system := out.2
        taken := w.taken ++ cv.toList.flatMap fun c =>
          (newJobs w.system out.2).map fun k => ⟨k, c, call.test, w.designs⟩ } := by
      rw [← hout]
      rfl
    rw [hnext]
    constructor
    · intro k j hj
      cases hbefore : jobOf w.system k with
      | some j₀ =>
        obtain ⟨t, ht, hk⟩ := h.stored k j₀ hbefore
        exact ⟨t, List.mem_append_left _ ht, hk⟩
      | none =>
        have hnew : k ∈ newJobs w.system out.2 := mem_newJobs.mpr ⟨hbefore, j, hj⟩
        cases cv with
        | none =>
          have hsame : out.2 = w.system := by rw [← hout, vfpRunSimJob]
          have hafter : jobOf out.2 k = some j := hj
          rw [hsame, hbefore] at hafter
          cases hafter
        | some c =>
          refine ⟨⟨k, c, call.test, w.designs⟩, List.mem_append_right _ ?_, rfl⟩
          simpa using hnew
    · intro t ht
      rcases List.mem_append.mp ht with hold | hadded
      · obtain ⟨j, hj, hmade⟩ := h.made t hold
        obtain ⟨j', hj', hsame⟩ := hstay t.job j hj
        exact ⟨j', hj', hmade.stay hsame⟩
      · cases cv with
        | none => simp at hadded
        | some c =>
          obtain ⟨k, hk, rfl⟩ : ∃ k ∈ newJobs w.system out.2, (⟨k, c, call.test, w.designs⟩ : Taken ι) = t := by
            simpa using hadded
          obtain ⟨hnone, j, hj⟩ := mem_newJobs.mp hk
          refine ⟨j, hj, ?_⟩
          rw [← hout] at hj
          exact jobWith_of_vfpRunSimJob hnone hj

/-- It is kept by every run. -/
theorem traced_of_run {ok : SimWorld ι → SimInput ι → Prop}
    {h : List (Entry (SimWorld ι) (SimInput ι) (Except SkillError SimAnswer))}
    (hrun : Run (simMachine ι printer) ok h w) : Traced printer w := by
  refine hrun.invariant ?_ fun _ i _ htraced => traced_step htraced i
  rintro w ⟨⟨registry, hsystem⟩, htaken⟩
  constructor
  · intro k j hj
    rw [jobOf, hsystem] at hj
    cases hj
  · intro t ht
    rw [htaken] at ht
    cases ht

end Traces

end VirtuosoFlow.Plugin
