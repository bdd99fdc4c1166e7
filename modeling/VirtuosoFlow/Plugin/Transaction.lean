import VirtuosoFlow.Plugin.Connectivity
import VirtuosoFlow.Plugin.Rpc
import VirtuosoFlow.Plugin.Schematic

/-!
# Schematic transactions

`vfp_transaction.il`: an approved proposal is applied to the schematic and recorded in the
tunnel with the values before and after, and a recorded transaction is rolled back by writing
the values before. A record may come from any client, so a rollback may raise where it goes
through a value that is no list; an apply takes its proposal to be of the shape that the schema
gives. Log lines and dialogs are left out, but for the error of a rollback's log line.
-/

namespace VirtuosoFlow.Plugin

open Base

/-- `buildString(parseString(getCurrentTime() " :") "_")`. -/
def vfpCompactTime (s : Session) : String :=
  let tokens := (s.currentTime.toList.splitOnP fun c => c = ' ' || c = ':').filter fun l => !l.isEmpty
  "_".intercalate (tokens.map String.ofList)

/-- The instance and the parameter that an element of a change list or a snapshot names. -/
def target (ch : Value) : Value × Value := (vfpAlistGet ch "instance", vfpAlistGet ch "param")

/-- Set every parameter of a list to the value its element has under a key, going on after a
failure; whether all could be set, and the cellview. -/
def setParams (key : String) (changes : List Value) (cv : CellView) : Bool × CellView :=
  changes.foldl
    (fun acc ch =>
      let out := vfpSetInstanceParam acc.2 (target ch).1 (target ch).2 (vfpAlistGet ch key)
      (acc.1 && out.1, out.2)) (true, cv)

/-- One element of a snapshot. -/
def snapshotEntry (printer : Printer) (cv : CellView) (ch : Value) : Json :=
  .obj [("instance", vfpToJson printer (target ch).1), ("param", vfpToJson printer (target ch).2),
    ("value", .str (vfpToStr printer (vfpGetInstanceParamValue cv (target ch).1 (target ch).2)))]

/-- `vfpSnapshotJson(cv changes)`. -/
def vfpSnapshotJson (printer : Printer) (cv : CellView) (changes : List Value) : Json :=
  .arr (changes.map (snapshotEntry printer cv))

/-- `vfpRecordBeforeState(cv changes)`. -/
def vfpRecordBeforeState (printer : Printer) (cv : CellView) (changes : List Value) : Json :=
  vfpSnapshotJson printer cv changes

/-- `vfpRecordAfterState(cv changes)`. -/
def vfpRecordAfterState (printer : Printer) (cv : CellView) (changes : List Value) : Json :=
  vfpSnapshotJson printer cv changes

/-- Send a transaction with the session and the actor: the part that both kinds share. -/
def sendTransaction (s : Session) (txn : Obj) (w : World) : Reply × World :=
  vfpRpcFile s .transactionCreate
    [("session_id", .str (s.sessionId.getD "")), ("actor", .str (s.actor.getD "user")),
      ("transaction", .obj txn)] w

/-- The checkpoint block of a transaction. -/
def checkpointBlock (s : Session) (view : String) : Json :=
  .obj [("view", .str view), ("created_at", .str s.isoTime)]

/-- The record that `vfpCreateTransaction` sends. -/
def schematicRecord (s : Session) (pid lib cell : Value) (before after : Json)
    (connectivity : Option Json) (ckptView : Option String) : Obj :=
  [("schema_version", .str "0.1"), ("proposal_id", vfpToJson s.printer pid), ("status", .str "applied"),
    ("cellview", .obj [("lib", vfpToJson s.printer lib), ("cell", vfpToJson s.printer cell),
      ("view", .str "schematic")]),
    ("before", before), ("after", after)] ++
  (connectivity.toList.map fun c => ("connectivity", c)) ++
  (ckptView.toList.map fun view => ("checkpoint", checkpointBlock s view))

/-- `vfpCreateTransaction(proposalId lib cell beforeArr afterArr connJ ckptView)`. -/
def vfpCreateTransaction (s : Session) (pid lib cell : Value) (before after : Json)
    (connectivity : Option Json) (ckptView : Option String) (w : World) : Reply × World :=
  sendTransaction s (schematicRecord s pid lib cell before after connectivity ckptView) w

/-- `vfpRestoreFromChanges(cv changes)`. -/
def vfpRestoreFromChanges (v : ViewName) (changes : List Value) (cv : CellView) (db : Database) :
    Database :=
  (db.edit v (setParams "before" changes cv).2).dbSave v

/-- `vfpRpcExec("proposal.mark_failed" ..)`. -/
def markProposalFailed (s : Session) (pid : Value) (w : World) : World :=
  (vfpRpcParam s .proposalMarkFailed "proposal_id" (s.printer.format pid) w).2

/-- `vfpRpcExec("transaction.mark_failed" ..)`. -/
def markTransactionFailed (s : Session) (tid : String) (w : World) : World :=
  (vfpRpcParam s .transactionMarkFailed "transaction_id" tid w).2

/-- `vfpRpcExec("transaction.mark_rolled_back" ..)`. -/
def markRolledBack (s : Session) (tid : String) (w : World) : World :=
  (vfpRpcParam s .transactionMarkRolledBack "transaction_id" tid w).2

/-- Open the schematic that two members of an association list name. -/
def openSchematic (lib cell : Value) (db : Database) : Option (ViewName × CellView × Database) :=
  match lib, cell with
  | .str lib, .str cell => (vfpOpenSchematicForEdit lib cell db).map fun out => (schematicOf lib cell, out)
  | _, _ => none

/-- `vfpApplyTransaction(proposal)`: the id of the transaction, or `nil`. -/
def vfpApplyTransaction (s : Session) (proposal : Value) (w : World) : Value × World :=
  let pid := vfpAlistGet proposal "proposal_id"
  let cvAlist := vfpAlistGet proposal "cellview"
  let lib := vfpAlistGet cvAlist "lib"
  let cell := vfpAlistGet cvAlist "cell"
  let changes := (vfpAlistGet proposal "changes").toList
  match openSchematic lib cell w.db with
  | none => (.nil, markProposalFailed s pid w)
  | some (v, cv, db) =>
    let ckpt := vfpCheckpointCellView s.cadence "preapply" (vfpCompactTime s) v db
    let before := vfpRecordBeforeState s.printer cv changes
    let out := setParams "after" changes cv
    if out.1 then
      let after := vfpRecordAfterState s.printer out.2 changes
      let saved := (ckpt.2.edit v out.2).dbSave v
      let sent := vfpCreateTransaction s pid lib cell before after (s.connectivity cv out.2) ckpt.1
        { w with db := saved }
      if sent.1.ok then
        (vfpAlistGet (vfpAlistGet sent.1.payload "transaction") "transaction_id", sent.2)
      else
        let undone := vfpRestoreFromChanges v changes out.2 saved
        (.nil, markProposalFailed s pid { sent.2 with db := undone })
    else
      let undone := vfpRestoreFromChanges v changes out.2 ckpt.2
      (.nil, markProposalFailed s pid { w with db := undone })

/-- The name in the log line of a value that cannot be written: the instance, or the parameter if the instance
is there. -/
def missingName (cv : CellView) (k : Value × Value) : Value :=
  if (vfpFindInstance cv k.1).isSome then k.2 else k.1

/-- One value of a restore list: whether it was written, and the cellview, or nothing where SKILL raises. -/
def restoreParam (cv : CellView) (pv : Value) : Option (Bool × CellView) :=
  if pv.isList then
    let out := vfpSetInstanceParam cv (target pv).1 (target pv).2 (vfpAlistGet pv "value")
    -- the log line formats the missing name with `%s`
    if out.1 || isText (missingName cv (target pv)) then some out else none
  else none

/-- Write a restore list, going on after a value that cannot be written: whether all could be, or nothing
where SKILL raises, and the cellview. -/
def restoreParams : List Value → Bool × CellView → Option Bool × CellView
  | [], acc => (some acc.1, acc.2)
  | pv :: restore, acc =>
    match restoreParam acc.2 pv with
    | some out => restoreParams restore (acc.1 && out.1, out.2)
    | none => (none, acc.2)

/-- Whether `vfpConnSnapFromJson(j)` goes through. -/
def snapReadable (j : Value) : Bool :=
  !j.truthy || j.isList && ((vfpAlistGet j "instances").isList && (vfpAlistGet j "instances").toList.all fun r =>
    r.isList && ((vfpAlistGet r "terms").isList && (vfpAlistGet r "terms").toList.all Value.isList))

/-- Whether a rollback gets through the check of the connectivity that its record carries; what the check finds
is only logged and shown. -/
def connChecked (s : Session) (txn : Value) (cv : CellView) : Bool :=
  let connectivity := vfpAlistGet txn "connectivity"
  let connStored := vfpConnSnapFromJson (vfpAlistGet connectivity "before")
  connectivity.isList &&
    (snapReadable (vfpAlistGet connectivity "before") && (!connStored.truthy || s.compares connStored cv))

/-- `vfpRollbackTransaction(transactionId)`: whether the transaction was rolled back, or nothing where it
raises. -/
def vfpRollbackTransaction (s : Session) (tid : String) (w : World) : Option Bool × World :=
  let res := vfpRpcParam s .transactionRollback "transaction_id" tid w
  if res.1.ok then
    let txn := vfpAlistGet res.1.payload "transaction"
    let restore := vfpAlistGet res.1.payload "restore"
    let cvAlist := vfpAlistGet txn "cellview"
    if cvAlist.isList then
      match openSchematic (vfpAlistGet cvAlist "lib") (vfpAlistGet cvAlist "cell") res.2.db with
      | none => (some false, res.2)
      | some (v, cv, db) =>
        if restore.isList then
          let out := restoreParams restore.toList (true, cv)
          match out.1 with
          | none => (none, { res.2 with db := db.edit v out.2 })
          | some okAll =>
            let w := { res.2 with db := (db.edit v out.2).dbSave v }
            if connChecked s txn out.2 then
              if okAll then (some true, markRolledBack s tid w)
              else (some false, markTransactionFailed s tid w)
            else (none, w)
        else (none, { res.2 with db := db })
    else (none, res.2)
  else (some false, res.2)

/-- `vfpGetLastTransaction()`. -/
def vfpGetLastTransaction (s : Session) (w : World) : Value × World :=
  let res := vfpRpcParam s .transactionList "status" "applied" w
  if res.1.ok then
    (vfpAlistGet (vfpAlistGet res.1.payload "transactions").car "transaction_id", res.2)
  else (.nil, res.2)

section SetParams

variable {key : String} {changes : List Value} {cv : CellView}

/-- What a list of changes writes. -/
def writesOf (key : String) (changes : List Value) : List ((Value × Value) × Value) :=
  changes.map fun ch => (target ch, vfpAlistGet ch key)

/-- The changes write to the parameters that they name. -/
@[simp] theorem keys_writesOf (key : String) (changes : List Value) :
    (writesOf key changes).map Prod.fst = changes.map target := by
  rw [writesOf, List.map_map]
  rfl

/-- Setting a list of parameters is a sequence of writes to slots. -/
theorem foldl_setParams (key : String) (changes : List Value) (acc : Bool × CellView) :
    (changes.foldl
      (fun acc ch =>
        let out := vfpSetInstanceParam acc.2 (target ch).1 (target ch).2 (vfpAlistGet ch key)
        (acc.1 && out.1, out.2)) acc).2 = paramSlots.writeAll (writesOf key changes) acc.2 := by
  induction changes generalizing acc with
  | nil => rfl
  | cons ch changes ih => exact ih _

/-- Setting parameters is writing to them, one after the other. -/
theorem setParams_snd (key : String) (changes : List Value) (cv : CellView) :
    (setParams key changes cv).2 = paramSlots.writeAll (writesOf key changes) cv :=
  foldl_setParams key changes (true, cv)

/-- All parameters of a list can be set exactly if all of them are there. -/
theorem setParams_fst : (setParams key changes cv).1 = true ↔
    ∀ ch ∈ changes, (cv.param? (target ch)).isSome = true := by
  have hgen : ∀ (changes : List Value) (acc : Bool × CellView),
      (changes.foldl
        (fun acc ch =>
          let out := vfpSetInstanceParam acc.2 (target ch).1 (target ch).2 (vfpAlistGet ch key)
          (acc.1 && out.1, out.2)) acc).1 = true ↔
      acc.1 = true ∧ ∀ ch ∈ changes, (acc.2.param? (target ch)).isSome = true := by
    intro changes
    induction changes with
    | nil => simp
    | cons ch changes ih =>
      intro acc
      have hkeep : ∀ k, ((vfpSetInstanceParam acc.2 (target ch).1 (target ch).2
          (vfpAlistGet ch key)).2.param? k).isSome = (acc.2.param? k).isSome := by
        intro k
        rw [param?_vfpSetInstanceParam]
        split <;> simp
      rw [List.foldl_cons, ih]
      simp only [Bool.and_eq_true, vfpSetInstanceParam_fst, hkeep, List.mem_cons, forall_eq_or_imp,
        Prod.mk.eta, and_assoc]
  have hall := hgen changes (true, cv)
  rw [← setParams] at hall
  simpa using hall

/-- What the parameters hold after a list of them was set. -/
theorem param?_setParams (key : String) (changes : List Value) (cv : CellView) (k : Value × Value) :
    (setParams key changes cv).2.param? k =
      (cv.param? k).map fun v => (lastWrite (writesOf key changes) k).getD v := by
  rw [setParams_snd]
  exact paramSlots.get?_writeAll _ _ _

/-- An element of a restore list that is a list with texts for names. -/
structure NamesTexts (pv : Value) : Prop where
  list : pv.isList = true
  inst : isText (target pv).1 = true
  param : isText (target pv).2 = true

/-- What the write of a value comes to where SKILL does not raise. -/
theorem restoreParam_eq_some {pv : Value} {out : Bool × CellView} (h : restoreParam cv pv = some out) :
    out = vfpSetInstanceParam cv (target pv).1 (target pv).2 (vfpAlistGet pv "value") := by
  unfold restoreParam at h
  dsimp only at h
  split at h
  · split at h
    · exact (Option.some.inj h).symm
    · cases h
  · cases h

/-- SKILL raises at an element that is no list, or does not name texts. -/
theorem restoreParam_eq_none {pv : Value} (h : restoreParam cv pv = none) : ¬ NamesTexts pv := by
  rintro ⟨hlist, hinst, hparam⟩
  have hmissing : isText (missingName cv (target pv)) = true := by
    unfold missingName
    split
    · exact hparam
    · exact hinst
  unfold restoreParam at h
  dsimp only at h
  rw [if_pos hlist, hmissing, Bool.or_true, if_pos rfl] at h
  cases h

/-- A restore writes its whole list, or a part of it up to an element where SKILL raises. -/
theorem restoreParams_cases (restore : List Value) (acc : Bool × CellView) :
    let set := fun restore : List Value => restore.foldl
      (fun acc ch =>
        let out := vfpSetInstanceParam acc.2 (target ch).1 (target ch).2 (vfpAlistGet ch "value")
        (acc.1 && out.1, out.2)) acc
    restoreParams restore acc = (some (set restore).1, (set restore).2) ∨
      ∃ done pv rest, restore = done ++ pv :: rest ∧ ¬ NamesTexts pv ∧
        restoreParams restore acc = (none, (set done).2) := by
  dsimp only
  induction restore generalizing acc with
  | nil => exact .inl rfl
  | cons pv restore ih =>
    unfold restoreParams
    cases hstep : restoreParam acc.2 pv with
    | none => exact .inr ⟨[], pv, restore, rfl, restoreParam_eq_none hstep, rfl⟩
    | some out =>
      obtain rfl := restoreParam_eq_some hstep
      dsimp only
      rcases ih (acc.1 && (vfpSetInstanceParam acc.2 (target pv).1 (target pv).2 (vfpAlistGet pv "value")).1,
        (vfpSetInstanceParam acc.2 (target pv).1 (target pv).2 (vfpAlistGet pv "value")).2) with
        heq | ⟨done, pv', rest, rfl, hraises, heq⟩
      · exact .inl heq
      · exact .inr ⟨pv :: done, pv', rest, rfl, hraises, heq⟩

/-- A restore into a cellview. -/
theorem restoreParams_eq (restore : List Value) (cv : CellView) :
    restoreParams restore (true, cv) = (some (setParams "value" restore cv).1, (setParams "value" restore cv).2) ∨
      ∃ done pv rest, restore = done ++ pv :: rest ∧ ¬ NamesTexts pv ∧
        restoreParams restore (true, cv) = (none, (setParams "value" done cv).2) :=
  restoreParams_cases restore (true, cv)

end SetParams

section Opening

variable {lib cell : Value} {db db' : Database} {v : ViewName} {cv : CellView}

/-- What opening a schematic gives. -/
theorem openSchematic_eq_some (h : openSchematic lib cell db = some (v, cv, db')) :
    ∃ l c, lib = .str l ∧ cell = .str c ∧ v = schematicOf l c ∧ db.contents v = some cv ∧
      cv.viewType = "schematic" ∧ db' = db.hold v cv (db.handles v + 1) (db.windows v) := by
  unfold openSchematic at h
  split at h
  · rename_i l c
    obtain ⟨⟨cv', db''⟩, hopen, heq⟩ := Option.map_eq_some_iff.mp h
    simp only [Prod.mk.injEq] at heq
    obtain ⟨rfl, rfl, rfl⟩ := heq
    obtain ⟨hcontents, htype, hdb⟩ := Database.dbOpenCellViewByType_eq_some hopen
    have htype' : cv'.viewType = "schematic" := htype.resolve_left (by decide)
    exact ⟨l, c, rfl, rfl, rfl, hcontents, htype', hdb⟩
  · simp at h

/-- A checkpoint of a view gets a name of its own. -/
theorem checkpoint_ne (base tag time : String) : base ++ "_vfpckpt_" ++ tag ++ "_" ++ time ≠ base := by
  intro h
  have hlength := congrArg String.length h
  simp only [String.length_append] at hlength
  have hpos : "_vfpckpt_".length = 9 := by decide
  omega

/-- Checkpointing a view changes nothing at the views of other names. -/
theorem sameAt_checkpointCellView (c : Cadence) (base tag time : String) (v u : ViewName) (db : Database)
    (h : u ≠ ⟨v.lib, v.cell, base ++ "_vfpckpt_" ++ tag ++ "_" ++ time⟩) :
    db.SameAt (checkpointCellView c base tag time v db).2 u := c.copy_others h

end Opening

section Editing

variable {v : ViewName} {cv cv' : CellView} {db db' : Database}

/-- An open view shows an edit that was saved, and so does the disk. -/
theorem contents_edit_dbSave (cv : CellView) {o : Opened} (h : db.opened v = some o) :
    ((db.edit v cv).dbSave v).contents v = some cv ∧ ((db.edit v cv).dbSave v).disk v = some cv ∧
      ((db.edit v cv).dbSave v).opened v = some ⟨cv, o.handles, o.windows, o.held⟩ := by
  have hopened := (Database.edit_of_opened cv h).2
  refine ⟨?_, ?_, ?_⟩
  · rw [Database.contents_dbSave, Database.contents_of_opened hopened]
  · rw [Database.disk_dbSave hopened]
  · rw [Database.opened_dbSave, hopened]

/-- An edit that is saved leaves the other views. -/
theorem sameAt_edit_dbSave {u : ViewName} (h : u ≠ v) : db.SameAt ((db.edit v cv).dbSave v) u :=
  (Database.sameAt_edit h).trans (Database.sameAt_dbSave h)

end Editing

end VirtuosoFlow.Plugin
