import VirtuosoFlow.Base.PosixPath
import VirtuosoFlow.Tunnel.Written

/-!
# Where the files of a request lie

Ids, labels and file names come from clients and become path components: `<id>.json` is joined to
the directory of a store, and the file name of an attachment to the directory of its run. This file
says for which of them the files that a request writes lie inside that directory.
-/

namespace VirtuosoFlow.Tunnel

open Base Base.Posix

/-- The root of an absolute path text: two slashes at its start, and no more, are kept. -/
def rootText (text : List Char) : String :=
  if (text.takeWhile (· == '/')).length = 2 then "//" else "/"

/-- The text of a path that is joined to the directory of a run: `str(path)`. -/
def joinedText (runsDir rid filename : String) : String :=
  let names := "/".intercalate ((components filename.toList).map String.ofList)
  if isAbsolute filename.toList then rootText filename.toList ++ names
  else runsDir ++ "/" ++ rid ++ "/" ++ names

/-- The file of an attachment, from the directory of all runs. -/
def attachedName (rid filename : String) : String :=
  if isAbsolute filename.toList then filename else rid ++ "/" ++ filename

/-- A label as the key it becomes in the file: `json.dumps` writes every key as a string. Here the
record holds that key at once, so that the labels `1` and `"1"`, which the dict tells apart until its file
is read again, are one. -/
def labelKey (env : Env) : Json → Except PyExc String
  | .str s => .ok s
  | .bool b => .ok (if b then "true" else "false")
  | .null => .ok "null"
  | .arr _ => .error .typeError
  | .obj _ => .error .typeError
  | v => .ok (env.str v)

/-- `attach_text(run_id, label, filename, text)`, whatever the request brings. -/
def RunStore.attach (env : Env) (id label filename text : Json) : Prog PyExc Store Obj := do
  let key ← Prog.ofExcept (hashKey id)
  match (← get).records.get? key with
  | none => throw (.keyError (.text "unknown run_id: %s" [id]))
  | some _ =>
    match id, filename, text with
    | .str rid, .str name, .str content =>
      if let some e := env.nameError name then throw e
      if !env.writable (attachedName rid name) then throw (.osError (.text name []))
      -- the file is opened, and with it emptied, before its text is encoded
      if let some m := env.encodeError content then
        modify fun st => { st with writes := st.writes ++ [(attachedName rid name, .str "")] }
        throw (.valueError m)
      modify fun st => { st with writes := st.writes ++ [(attachedName rid name, .str content)] }
      RunStore.update env id fun r => do
        let label ← labelKey env label
        RunStore.setArtifact label (joinedText env.runsDir rid name) r
    | _, _, _ => throw .typeError

/-- `label + ".txt"`. -/
def defaultFilename : Json → Except PyExc Json
  | .str label => .ok (.str (label ++ ".txt"))
  | _ => .error .typeError

/-- `except KeyError as e: raise JsonRpcError(NOT_FOUND, str(e))`. -/
def keyErrorAsRpc : PyExc → PyExc
  | .keyError m => .rpc notFound (.quoted m) none
  | e => e

/-- The file name of an attachment: `params.get("filename") or (label + ".txt")`. -/
def attachFilename (params : Obj) : Except PyExc Json :=
  if (Obj.get params "filename").truthy then .ok (Obj.get params "filename")
  else defaultFilename (Obj.get params "label")

/-- `_m_run_attach`. -/
def mRunAttach (env : Env) (params : Obj) : Prog PyExc Tunnel Json := do
  let rid := Obj.get params "run_id"
  let label := Obj.get params "label"
  if !(rid.truthy && label.truthy) then throw (rpcError invalidParams "params.run_id and params.label required")
  match Obj.get params "text" with
  | .null => throw (rpcError invalidParams "params.text required")
  | text =>
    let filename ← Prog.ofExcept (attachFilename params)
    let run ← (onRuns (RunStore.attach env rid label filename text)).mapError keyErrorAsRpc
    return .obj [("run", .obj run)]

/-- The directory of a store under `vfp_home()`. -/
def storeDir (home : Place) (name : String) : Place := home ++ [name.toList]

/-- `_run_dir(run_id)`. -/
def runDir (home : Place) (rid : String) : Place := locate (storeDir home "runs") rid.toList

/-- Every file that a store wrote, joined to `base`, lies inside `dir`. -/
def WritesInside (base dir : Place) (before after : Store) : Prop :=
  ∀ w ∈ newWrites before after, Inside dir (locate base w.1.toList)

section Records

variable {env : Env} {params : Obj} {t : Tunnel} {field : String} {st st' : Store}

/-- Where a request has one record at most to store, its file decides. -/
theorem writesInside_iff {Stores : Key → Obj → Prop} (dir : Place) (hwrites : Writes env field Stores st st') :
    WritesInside dir dir st st' ↔
      ∀ k r, Stores k r → ∀ s, FileWritten env field r s → Stays dir (s ++ ".json").toList := by
  constructor
  · intro hinside k r hstores s hwritten
    rw [← inside_locate_iff]
    refine hinside (s ++ ".json", .obj r) ?_
    rw [hwrites.stored k r hstores, mem_newWrites_persist]
    exact ⟨s, hwritten, rfl⟩
  · intro hstays w hw
    by_cases hnone : ∃ k r, Stores k r
    · obtain ⟨k, r, hstores⟩ := hnone
      rw [hwrites.stored k r hstores, mem_newWrites_persist] at hw
      obtain ⟨s, hwritten, rfl⟩ := hw
      exact (inside_locate_iff dir _).mpr (hstays k r hstores s hwritten)
    · rw [hwrites.refused fun k r hstores => hnone ⟨k, r, hstores⟩, newWrites_self] at hw
      cases hw

/-- With the extension an id without a slash is a plain name. -/
theorem plain_id {s : String} (h : '/' ∉ s.toList) : Plain (s ++ ".json").toList := by
  have hend : (s ++ ".json").toList = s.toList ++ ['.', 'j', 's', 'o', 'n'] := by simp
  have hlength : 5 ≤ (s ++ ".json").toList.length := by
    rw [hend, List.length_append]
    simp
  refine ⟨?_, ?_, ?_, ?_⟩
  · rw [hend]
    simp [h]
  · intro heq
    rw [heq] at hlength
    simp at hlength
  · intro heq
    rw [heq] at hlength
    simp at hlength
  · intro heq
    rw [heq] at hlength
    simp [up] at hlength

/-- So its file always stays. -/
theorem stays_id (dir : Place) {s : String} (h : '/' ∉ s.toList) : Stays dir (s ++ ".json").toList :=
  stays_plain dir (plain_id h)

end Records

section Names

variable {dir place : Place} {k : Key} {n : List Char}

/-- The extension of the files that are loaded. -/
def extension : List Char := ['.', 'j', 's', 'o', 'n']

/-- The name under which a place is in a directory. -/
def childName (dir place : Place) : Option (List Char) :=
  if place.dropLast = dir then place.getLast? else none

/-- The name of a place that lies right below a directory. -/
theorem childName_eq_some : childName dir place = some n ↔ place = dir ++ [n] := by
  unfold childName
  constructor
  · intro h
    split at h
    · rename_i hdir
      rw [← hdir, List.dropLast_append_getLast? n h]
    · cases h
  · rintro rfl
    simp

/-- An id that an extension can be joined to, and that can be part of a path. -/
def Joinable (k : Key) : Prop := ∃ s, k = .str s ∧ '\x00' ∉ s.toList

/-- The name of the file of an id, where the file lies in this directory. -/
def fileOf (dir : Place) : Key → Option (List Char)
  | .str s => if '\x00' ∈ s.toList then none else childName dir (locate dir (s ++ ".json").toList)
  | _ => none

/-- The file of an id that can be joined and stays in the directory. -/
theorem fileOf_eq_some : fileOf dir k = some n ↔
    ∃ s, k = .str s ∧ '\x00' ∉ s.toList ∧ locate dir (s ++ ".json").toList = dir ++ [n] := by
  cases k with
  | str s =>
    by_cases hnul : '\x00' ∈ s.toList
    · simp [fileOf, hnul]
    · simp [fileOf, hnul, childName_eq_some]
  | _ => simp [fileOf]

/-- An id with a file can be joined. -/
theorem joinable_of_fileOf (h : fileOf dir k = some n) : Joinable k := by
  obtain ⟨s, rfl, hnul, -⟩ := fileOf_eq_some.mp h
  exact ⟨s, rfl, hnul⟩

/-- What is joined last is the name of the file, and has the extension. -/
theorem extension_fileOf (h : fileOf dir k = some n) : extension <:+ n := by
  obtain ⟨s, rfl, -, hplace⟩ := fileOf_eq_some.mp h
  by_cases hslash : '/' ∈ s.toList
  · obtain ⟨back, front, hreverse, hback⟩ := List.eq_append_cons_of_mem (List.mem_reverse.mpr hslash)
    have hsplit : s.toList = front.reverse ++ '/' :: back.reverse := by
      rw [← List.reverse_reverse s.toList, hreverse]
      simp
    have hname : (s ++ ".json").toList = front.reverse ++ '/' :: (String.ofList back.reverse ++ ".json").toList := by
      simp [hsplit]
    have hplain : Plain (String.ofList back.reverse ++ ".json").toList := plain_id (by simpa using hback)
    have hrelative : isAbsolute (String.ofList back.reverse ++ ".json").toList = false := by
      have happend := isAbsolute_plain_append hplain []
      rwa [List.append_nil] at happend
    rw [hname, locate_slash dir hrelative, locate_plain _ hplain] at hplace
    obtain rfl := List.singleton_inj.mp (List.append_inj_right' hplace rfl)
    exact ⟨back.reverse, by simp [extension]⟩
  · rw [locate_plain dir (plain_id hslash)] at hplace
    obtain rfl := List.singleton_inj.mp (List.append_cancel_left hplace)
    exact ⟨s.toList, by simp [extension]⟩

end Names

/-- Every run is stored under its own id. -/
def RunsKeyed (st : Store) : Prop :=
  ∀ k r, st.records.get? k = some r → (Obj.get r "run_id").key? = some k

/-- A `run.attach` request with these parameters writes a text under this file name. -/
structure AttachesText (env : Env) (params : Obj) (t : Tunnel) (rid filename : String) : Prop where
  run : Obj.get params "run_id" = .str rid
  truthy : rid ≠ ""
  labelled : (Obj.get params "label").truthy = true
  text : ∃ content, Obj.get params "text" = .str content
  target : attachFilename params = .ok (.str filename)
  stored : ∃ r, t.runs.records.get? (.str rid) = some r
  named : env.nameError filename = none
  writable : env.writable (attachedName rid filename) = true

section Attach

variable {env : Env} {params : Obj} {t : Tunnel} {st : Store} {id : Json} {rid filename : String}

/-- Persisting a run writes its file or nothing. -/
theorem writes_persist_run (env : Env) (r : Obj) (st : Store) :
    ((RunStore.persist env r).exec st).2.writes = st.writes ∨
    ∃ own, Obj.get r "run_id" = .str own ∧
      ((RunStore.persist env r).exec st).2.writes = st.writes ++ [(own ++ "/run.json", .obj r)] := by
  unfold RunStore.persist
  cases hid : Obj.get r "run_id" with
  | str own =>
    by_cases hw : (env.dirsOk && env.writable (own ++ "/run.json")) = true
    · exact .inr ⟨own, rfl, by simp [hw]⟩
    · exact .inl (by simp [hw])
  | _ =>
    left
    by_cases hdirs : env.dirsOk = true <;> simp [hdirs]

/-- An update that leaves the id of the run alone writes its `run.json` or nothing. -/
theorem writes_update_run {mutate : Obj → Except PyExc Obj} (hkeyed : RunsKeyed st)
    (hmutate : ∀ r r', mutate r = .ok r' → Obj.get r' "run_id" = Obj.get r "run_id") (hkey : id = .str rid) :
    ((RunStore.update env id mutate).exec st).2.writes = st.writes ∨
    ∃ r, ((RunStore.update env id mutate).exec st).2.writes = st.writes ++ [(rid ++ "/run.json", .obj r)] := by
  subst hkey
  cases hr : st.records.get? (.str rid) with
  | none => exact .inl (by simp [RunStore.update, Prog.exec_bind, hashKey, hr])
  | some r =>
    cases hm : mutate r with
    | error e => exact .inl (by simp [RunStore.update, Prog.exec_bind, hashKey, hr, hm])
    | ok r' =>
      have hown : Obj.get (Obj.set r' "updated_at" env.stamp) "run_id" = .str rid := by
        rw [Obj.get_set_ne _ (by decide), hmutate r r' hm]
        exact key?_eq_str (hkeyed _ _ hr)
      have hwrites : ((RunStore.update env (.str rid) mutate).exec st).2.writes =
          ((RunStore.persist env (Obj.set r' "updated_at" env.stamp)).exec
            { st with records := st.records.insert (.str rid) (Obj.set r' "updated_at" env.stamp) }).2.writes := by
        simp only [RunStore.update, Prog.exec_bind, hashKey, Json.key?_str, Prog.exec_ofExcept, Prog.exec_get, hr, hm,
          Prog.exec_set]
        cases (RunStore.persist env (Obj.set r' "updated_at" env.stamp)).exec
            { st with records := st.records.insert (.str rid) (Obj.set r' "updated_at" env.stamp) } with
        | mk out st' => cases out <;> rfl
      rw [hwrites]
      rcases writes_persist_run env (Obj.set r' "updated_at" env.stamp)
        { st with records := st.records.insert (.str rid) (Obj.set r' "updated_at" env.stamp) }
        with hnone | ⟨own, hid, hone⟩
      · exact .inl hnone
      · rw [hown] at hid
        cases hid
        exact .inr ⟨_, hone⟩

/-- An artifact leaves the id of its run. -/
theorem setArtifact_run_id {label path : String} {r r' : Obj} (h : RunStore.setArtifact label path r = .ok r') :
    Obj.get r' "run_id" = Obj.get r "run_id" := by
  unfold RunStore.setArtifact at h
  cases hitem : getItem r "artifacts" with
  | error e =>
    rw [hitem] at h
    cases h
  | ok v =>
    rw [hitem] at h
    cases v with
    | obj artifacts =>
      cases h
      exact Obj.get_set_ne _ (by decide) _
    | _ => cases h

/-- A text that cannot be encoded leaves an empty file. -/
theorem exec_attach_unencoded {label : Json} {content : String} {r : Obj} {m : Message}
    (hr : st.records.get? (.str rid) = some r) (hnamed : env.nameError filename = none)
    (hwritable : env.writable (attachedName rid filename) = true) (hcontent : env.encodeError content = some m) :
    (RunStore.attach env (.str rid) label (.str filename) (.str content)).exec st =
      (.error (.valueError m), { st with writes := st.writes ++ [(attachedName rid filename, .str "")] }) := by
  simp only [RunStore.attach, Prog.exec_bind, hashKey, Json.key?_str, Prog.exec_ofExcept, Prog.exec_get, hr, hnamed,
    hwritable, hcontent, Bool.not_true, Bool.false_eq_true, if_false, Prog.exec_modify, Prog.exec_throw]

/-- Any other text is written, and the record updated. -/
theorem exec_attach_encoded {label : Json} {content : String} {r : Obj}
    (hr : st.records.get? (.str rid) = some r) (hnamed : env.nameError filename = none)
    (hwritable : env.writable (attachedName rid filename) = true) (hcontent : env.encodeError content = none) :
    (RunStore.attach env (.str rid) label (.str filename) (.str content)).exec st =
      (RunStore.update env (.str rid) fun r => do
        let label ← labelKey env label
        RunStore.setArtifact label (joinedText env.runsDir rid filename) r).exec
        { st with writes := st.writes ++ [(attachedName rid filename, .str content)] } := by
  simp only [RunStore.attach, Prog.exec_bind, hashKey, Json.key?_str, Prog.exec_ofExcept, Prog.exec_get, hr, hnamed,
    hwritable, hcontent, Bool.not_true, Bool.false_eq_true, if_false, Prog.exec_modify]

/-- An attachment writes its file, and then the `run.json` of its run or nothing. -/
theorem writes_attach_text {label : Json} {content : String} {r : Obj} (hkeyed : RunsKeyed st)
    (hr : st.records.get? (.str rid) = some r) (hnamed : env.nameError filename = none)
    (hwritable : env.writable (attachedName rid filename) = true) :
    ∃ written rest, ((RunStore.attach env (.str rid) label (.str filename) (.str content)).exec st).2.writes =
        st.writes ++ (attachedName rid filename, .str written) :: rest ∧
      ∀ w ∈ rest, w.1 = rid ++ "/run.json" := by
  cases hcontent : env.encodeError content with
  | some m =>
    rw [exec_attach_unencoded hr hnamed hwritable hcontent]
    exact ⟨"", [], rfl, by simp⟩
  | none =>
    have hmutate : ∀ r r', (do
        let label ← labelKey env label
        RunStore.setArtifact label (joinedText env.runsDir rid filename) r : Except PyExc Obj) = .ok r' →
        Obj.get r' "run_id" = Obj.get r "run_id" := by
      intro r r' h
      cases hlabel : labelKey env label with
      | error e =>
        rw [hlabel] at h
        cases h
      | ok key =>
        rw [hlabel] at h
        exact setArtifact_run_id h
    have hkeyed' : RunsKeyed { st with writes := st.writes ++ [(attachedName rid filename, .str content)] } := hkeyed
    have hupdate := @writes_update_run env _ (.str rid) rid _ hkeyed' hmutate rfl
    rw [exec_attach_encoded hr hnamed hwritable hcontent]
    rcases hupdate with hnone | ⟨r', hone⟩
    · exact ⟨content, [], hnone, by simp⟩
    · refine ⟨content, [(rid ++ "/run.json", .obj r')], ?_, by simp⟩
      rw [hone, List.append_assoc]
      rfl

/-- The text goes to the place that the file name leads to from the directory of the run. -/
theorem locate_attachedName (home : Place) (hrid : rid ≠ "") :
    locate (storeDir home "runs") (attachedName rid filename).toList =
      locate (runDir home rid) filename.toList := by
  unfold attachedName
  by_cases habsolute : isAbsolute filename.toList = true
  · rw [if_pos habsolute, locate, locate, if_pos habsolute, if_pos habsolute]
  · rw [if_neg habsolute]
    have hjoin : (rid ++ "/" ++ filename).toList = rid.toList ++ '/' :: filename.toList := by simp
    rw [hjoin, locate_append _ (by simpa using hrid) (by simpa using habsolute)]
    rfl

/-- The `run.json` of a run lies in its directory. -/
theorem inside_run_json (home : Place) (hrid : rid ≠ "") :
    Inside (runDir home rid) (locate (storeDir home "runs") (rid ++ "/run.json").toList) := by
  have hjoin : (rid ++ "/run.json").toList = rid.toList ++ '/' :: "run.json".toList := by simp
  have hplain : Plain "run.json".toList := by unfold Plain; decide
  rw [hjoin, locate_append _ (by simpa using hrid) rfl]
  exact (inside_locate_iff _ _).mpr (stays_plain _ hplain)

/-- What the handler does to the runs the store does. -/
theorem runs_attached (m : Prog PyExc Store Obj) (t : Tunnel) :
    ((do let run ← (onRuns m).mapError keyErrorAsRpc; return .obj [("run", .obj run)] :
      Prog PyExc Tunnel Json).exec t).2.runs = (m.exec t.runs).2 := by
  have hrest := Prog.Keeps.of_rest (R := Prog.Fixes Tunnel.runs) (m := (onRuns m).mapError keyErrorAsRpc)
    (f := fun run => (pure (.obj [("run", .obj run)]) : Prog PyExc Tunnel Json)) (fun _ => .pure _) t
  simp only [Prog.Fixes, Prog.exec_mapError_snd, exec_onRuns] at hrest
  exact hrest

/-- Without a run, a name and a text that are strings, and a file that can be written, nothing is done. -/
theorem attach_refused {label filename text : Json}
    (h : ∀ name content r, filename = .str name → text = .str content → st.records.get? (.str rid) = some r →
      env.nameError name = none → env.writable (attachedName rid name) = false) :
    ((RunStore.attach env (.str rid) label filename text).exec st).2 = st := by
  unfold RunStore.attach
  simp only [Prog.exec_bind, hashKey, Json.key?_str, Prog.exec_ofExcept, Prog.exec_get]
  cases hr : st.records.get? (.str rid) with
  | none => rfl
  | some r =>
    cases filename with
    | str name =>
      cases text with
      | str content =>
        cases hnamed : env.nameError name with
        | some e => simp [hnamed, Prog.exec_bind]
        | none =>
          have hw := h name content r rfl rfl hr hnamed
          simp [hnamed, hw, Prog.exec_bind]
      | _ => rfl
    | _ => rfl

/-- A request that attaches a text hands it to the store. -/
theorem mRunAttach_attaches (h : AttachesText env params t rid filename) :
    ∃ label content, ((mRunAttach env params).exec t).2.runs =
      ((RunStore.attach env (.str rid) label (.str filename) (.str content)).exec t.runs).2 := by
  obtain ⟨content, htext⟩ := h.text
  refine ⟨Obj.get params "label", content, ?_⟩
  have htruthy : (Json.str rid).truthy = true := by simpa using h.truthy
  unfold mRunAttach
  simp only [h.run, htruthy, h.labelled, Bool.and_self, Bool.not_true, Bool.false_eq_true, if_false, htext]
  rw [Prog.exec_bind_ok (by rw [Prog.exec_ofExcept, h.target])]
  exact runs_attached _ t

/-- Any other request for a run leaves the runs alone. -/
theorem mRunAttach_refused (hrun : Obj.get params "run_id" = .str rid)
    (h : ∀ filename, ¬ AttachesText env params t rid filename) : ((mRunAttach env params).exec t).2.runs = t.runs := by
  unfold mRunAttach
  dsimp only
  cases htruthy : (Obj.get params "run_id").truthy && (Obj.get params "label").truthy with
  | false => rfl
  | true =>
    simp only [Bool.and_eq_true] at htruthy
    simp only [Bool.not_true, Bool.false_eq_true, if_false]
    have hid : rid ≠ "" := by simpa [hrun] using htruthy.1
    have hcore : ∀ text, Obj.get params "text" = text → ((do
        let filename ← Prog.ofExcept (attachFilename params)
        let run ← (onRuns (RunStore.attach env (Obj.get params "run_id") (Obj.get params "label") filename
          text)).mapError keyErrorAsRpc
        return .obj [("run", .obj run)] : Prog PyExc Tunnel Json).exec t).2.runs = t.runs := by
      intro text htext
      cases htarget : attachFilename params with
      | error e => rw [Prog.exec_bind_error (Prog.exec_ofExcept _ _)]
      | ok filename =>
        rw [Prog.exec_bind_ok (Prog.exec_ofExcept _ _), runs_attached, hrun]
        refine attach_refused fun name content r hname hcontent hr hnamed => ?_
        subst hname
        by_contra hwritable
        exact h name ⟨hrun, hid, htruthy.2, ⟨content, htext.trans hcontent⟩, htarget, ⟨r, hr⟩, hnamed,
          by simpa using hwritable⟩
    cases htext : Obj.get params "text" with
    | null => rfl
    | bool b => exact hcore _ htext
    | int n => exact hcore _ htext
    | float x => exact hcore _ htext
    | str s => exact hcore _ htext
    | arr l => exact hcore _ htext
    | obj m => exact hcore _ htext

/-- Attaching a text stays in the directory of the run exactly if its name does. -/
theorem writesInside_mRunAttach (home : Place) (hkeyed : RunsKeyed t.runs)
    (hrun : Obj.get params "run_id" = .str rid) :
    WritesInside (storeDir home "runs") (runDir home rid) t.runs ((mRunAttach env params).exec t).2.runs ↔
      ∀ filename, AttachesText env params t rid filename → Stays (runDir home rid) filename.toList := by
  have hnew : ∀ filename, AttachesText env params t rid filename → ∃ written rest,
      newWrites t.runs ((mRunAttach env params).exec t).2.runs =
        (attachedName rid filename, .str written) :: rest ∧ ∀ w ∈ rest, w.1 = rid ++ "/run.json" := by
    intro filename hattaches
    obtain ⟨label, content, hexec⟩ := mRunAttach_attaches hattaches
    obtain ⟨r, hr⟩ := hattaches.stored
    obtain ⟨written, rest, hwrites, hrest⟩ := @writes_attach_text env t.runs rid filename label content r hkeyed hr
      hattaches.named hattaches.writable
    exact ⟨written, rest, by rw [hexec, newWrites, hwrites, List.drop_left], hrest⟩
  constructor
  · intro hinside filename hattaches
    obtain ⟨content, rest, hwrites, -⟩ := hnew filename hattaches
    have hplace := hinside (attachedName rid filename, .str content) (by rw [hwrites]; exact List.mem_cons_self)
    rw [locate_attachedName home hattaches.truthy] at hplace
    exact (inside_locate_iff _ _).mp hplace
  · intro hstays w hw
    by_cases hany : ∃ filename, AttachesText env params t rid filename
    · obtain ⟨filename, hattaches⟩ := hany
      obtain ⟨content, rest, hwrites, hrest⟩ := hnew filename hattaches
      rw [hwrites] at hw
      rcases List.mem_cons.mp hw with rfl | hmem
      · rw [locate_attachedName home hattaches.truthy]
        exact (inside_locate_iff _ _).mpr (hstays filename hattaches)
      · rw [hrest w hmem]
        exact inside_run_json home hattaches.truthy
    · rw [mRunAttach_refused hrun fun filename hattaches => hany ⟨filename, hattaches⟩, newWrites_self] at hw
      cases hw

end Attach

/-- The files of a request that creates a record or attaches a text lie inside the directory they belong
to exactly if the name that the client chose stays there. -/
theorem writes_inside_iff (env : Env) (params : Obj) {t : Tunnel} (home : Place) (hkeyed : RunsKeyed t.runs) :
    (WritesInside (storeDir home "proposals") (storeDir home "proposals") t.proposals
        ((mProposalCreate env params).exec t).2.proposals ↔
      ∀ k p, StoresProposal env params t k p → ∀ s, FileWritten env "proposal_id" p s →
        Stays (storeDir home "proposals") (s ++ ".json").toList) ∧
    (WritesInside (storeDir home "transactions") (storeDir home "transactions") t.transactions
        ((mTransactionCreate env params).exec t).2.transactions ↔
      ∀ k u, StoresTransaction env params t k u → ∀ s, FileWritten env "transaction_id" u s →
        Stays (storeDir home "transactions") (s ++ ".json").toList) ∧
    (WritesInside (storeDir home "jobs") (storeDir home "jobs") t.jobs ((mJobCreate env params).exec t).2.jobs ↔
      ∀ k j, StoresJob env params t k j → ∀ s, FileWritten env "job_id" j s →
        Stays (storeDir home "jobs") (s ++ ".json").toList) ∧
    ∀ rid, Obj.get params "run_id" = .str rid →
      (WritesInside (storeDir home "runs") (runDir home rid) t.runs ((mRunAttach env params).exec t).2.runs ↔
        ∀ filename, AttachesText env params t rid filename → Stays (runDir home rid) filename.toList) := by
  refine ⟨?_, ?_, ?_, ?_⟩
  · exact writesInside_iff _ writes_mProposalCreate
  · exact writesInside_iff _ writes_mTransactionCreate
  · exact writesInside_iff _ writes_mJobCreate
  · intro rid hrun
    exact writesInside_mRunAttach home hkeyed hrun

/-- A proposal whose id leads to the parent directory. -/
def sampleClimbing : Obj := [("proposal_id", .str "../x")]

/-- A proposal is written to the directory of proposals. -/
theorem writes_inside_iff_sample :
    WritesInside (storeDir [] "proposals") (storeDir [] "proposals") (Tunnel.fresh .empty).proposals
      ((mProposalCreate .sample [("proposal", .obj sampleProposal)]).exec (Tunnel.fresh .empty)).2.proposals := by
  have hkeyed : RunsKeyed (Tunnel.fresh .empty).runs := by
    intro k r hr
    cases hr
  refine (writes_inside_iff .sample [("proposal", .obj sampleProposal)] [] hkeyed).1.mpr ?_
  rintro k p ⟨data, hdata, -, rfl, -⟩ s hwritten
  obtain rfl : sampleProposal = data := Json.obj.inj hdata
  obtain rfl : "p_1" = s := Json.str.inj (Option.some.inj hwritten.id)
  exact stays_id _ (by decide)

/-- The file of such a proposal lies outside. -/
theorem climbing_id_escapes :
    ¬ WritesInside (storeDir [] "proposals") (storeDir [] "proposals") (Tunnel.fresh .empty).proposals
      ((mProposalCreate .sample [("proposal", .obj sampleClimbing)]).exec (Tunnel.fresh .empty)).2.proposals := by
  intro hinside
  have hplace := hinside ("../x.json", .obj (makeProposal .sample sampleClimbing)) List.mem_cons_self
  unfold Inside at hplace
  exact absurd hplace (by decide)

end VirtuosoFlow.Tunnel
