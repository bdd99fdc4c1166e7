import VirtuosoFlow.Plugin.Recorded

/-!
# Layout transactions

`vfp_layout_txn.il`: an edit of a layout is recorded with the name of a checkpoint, a copy of
the whole view taken before the edit, and it is rolled back by putting the checkpoint in the
place of the view.
-/

namespace VirtuosoFlow.Plugin

open Base Tunnel

/-- An edit function on an open cellview: what it returns, or nothing if it raises, and the cellview
it leaves. -/
abbrev Edit := CellView → Option Value × CellView

/-- `car(errset(..))`. -/
def errset (result : Option Value) : Value := result.getD .nil

/-- `vfpLayoutCheckpoint(cv tag)`. -/
def vfpLayoutCheckpoint (c : Cadence) (tag time : String) (v : ViewName) (db : Database) :
    Option String × Database :=
  checkpointCellView c "layout" tag time v db

/-- `vfpLayoutWindowsFor(lib cell view)`: how many windows show the view. -/
def vfpLayoutWindowsFor (v : ViewName) (db : Database) : ℕ := db.windows v

/-- `vfpLayoutRestoreFromView(lib cell view ckptView)`: whether the copy was made. -/
def vfpLayoutRestoreFromView (c : Cadence) (v ckpt : ViewName) (db : Database) : Bool × Database :=
  match db.dbOpenCellViewByType ckpt "" with
  | none => (false, db)
  | some (_, db) =>
    let reopen := vfpLayoutWindowsFor v db
    let cleared := c.ddDeleteObj v (c.closeWindows v db)
    let copied := c.dbCopyCellView ckpt v false cleared
    let closed := c.dbClose ckpt copied.2
    (copied.1, if 0 < reopen then c.geOpen v closed else closed)

/-- The record that `vfpCreateLayoutTransaction` sends. -/
def layoutRecord (s : Session) (lib cell : String) (geometry : Json) (connectivity : Option Json)
    (ckptView : Option String) : Obj :=
  [("schema_version", .str "0.1"), ("kind", .str "layout_geom"), ("status", .str "applied"),
    ("cellview", .obj [("lib", .str lib), ("cell", .str cell), ("view", .str "layout")]),
    ("geometry", geometry)] ++
  (connectivity.toList.map fun c => ("connectivity", c)) ++
  (ckptView.toList.map fun view => ("checkpoint", checkpointBlock s view))

/-- `vfpCreateLayoutTransaction(lib cell geomJ connJ ckptView)`. -/
def vfpCreateLayoutTransaction (s : Session) (lib cell : String) (geometry : Json)
    (connectivity : Option Json) (ckptView : Option String) (w : World) : Reply × World :=
  sendTransaction s (layoutRecord s lib cell geometry connectivity ckptView) w

/-- `vfpLayoutTxnApply(cv editFn tag)`: the id of the transaction, or `nil`. -/
def vfpLayoutTxnApply (s : Session) (tag : String) (editFn : Edit) (v : ViewName) (cv : CellView)
    (w : World) : Value × World :=
  match vfpLayoutCheckpoint s.cadence tag (vfpCompactTime s) v w.db with
  | (none, db) => (.nil, { w with db := db })
  | (some ckpt, db) =>
    let out := editFn cv
    let edited := db.edit v out.2
    if (errset out.1).truthy then
      let sent := vfpCreateLayoutTransaction s v.lib v.cell (s.geometry cv out.2)
        (s.connectivity cv out.2) (some ckpt) { w with db := edited.dbSave v }
      if sent.1.ok then
        (vfpAlistGet (vfpAlistGet sent.1.payload "transaction") "transaction_id", sent.2)
      else
        let restored := (vfpLayoutRestoreFromView s.cadence v ⟨v.lib, v.cell, ckpt⟩ sent.2.db).2
        (.nil, { sent.2 with db := restored })
    else
      let restored := (vfpLayoutRestoreFromView s.cadence v ⟨v.lib, v.cell, ckpt⟩ edited).2
      (.nil, { w with db := restored })

/-- Restore the view `layout` of a cell from the checkpoint that a record names: whether the copy was made, or
nothing where SKILL raises. -/
def restoreLayout (c : Cadence) (lib cell ckpt : Value) (db : Database) : Option Bool × Database :=
  match lib, cell, ckpt with
  | .str lib, .str cell, .str ckpt =>
    let out := vfpLayoutRestoreFromView c ⟨lib, cell, "layout"⟩ ⟨lib, cell, ckpt⟩ db
    (some out.1, out.2)
  -- no checkpoint can be opened, and the log line formats the three names with `%s`
  | lib, cell, ckpt => (if isText lib && (isText cell && isText ckpt) then some false else none, db)

/-- `vfpLayoutTxnRollback(txnId)`: whether the transaction was rolled back, or nothing where it raises. -/
def vfpLayoutTxnRollback (s : Session) (tid : String) (w : World) : Option Bool × World :=
  let res := vfpRpcParam s .transactionRollback "transaction_id" tid w
  if res.1.ok then
    let txn := vfpAlistGet res.1.payload "transaction"
    let cvAlist := vfpAlistGet txn "cellview"
    let checkpoint := vfpAlistGet txn "checkpoint"
    let ckpt := vfpAlistGet checkpoint "view"
    if cvAlist.isList && checkpoint.isList then
      if ckpt.truthy then
        let out := restoreLayout s.cadence (vfpAlistGet cvAlist "lib") (vfpAlistGet cvAlist "cell") ckpt res.2.db
        let w := { res.2 with db := out.2 }
        match out.1 with
        | none => (none, w)
        | some true => (some true, markRolledBack s tid w)
        | some false => (some false, markTransactionFailed s tid w)
      else (some false, markTransactionFailed s tid res.2)
    else (none, res.2)
  else (some false, res.2)

section Restore

variable {c : Cadence} {v ckpt u : ViewName} {db db' db'' : Database} {src : CellView}

/-- A view shows what it showed, and is on disk what it was. -/
structure Kept (db db' : Database) (u : ViewName) : Prop where
  contents : db'.contents u = db.contents u
  disk : db'.disk u = db.disk u

/-- A view at which nothing changed is kept. -/
theorem Database.SameAt.kept (h : db.SameAt db' u) : Kept db db' u := ⟨h.contents, h.disk⟩

/-- What two steps keep. -/
theorem Kept.trans (h : Kept db db' u) (h' : Kept db' db'' u) : Kept db db'' u :=
  ⟨h'.contents.trans h.contents, h'.disk.trans h.disk⟩

/-- A new window shows what is there. -/
theorem kept_geOpen : Kept db (c.geOpen v db) u := by
  by_cases hu : u = v
  · subst hu
    exact ⟨c.geOpen_contents, c.geOpen_disk⟩
  · exact (c.geOpen_others hu).kept

/-- The last step of a restore shows no view in a new light. -/
theorem kept_reopened {p : Prop} [Decidable p] : Kept db (if p then c.geOpen v db else db) u := by
  split
  · exact kept_geOpen
  · exact ⟨rfl, rfl⟩

/-- A view to be restored, once its windows are closed and it is deleted, if it can be. -/
def cleared (c : Cadence) (v : ViewName) (db : Database) : Database := c.ddDeleteObj v (c.closeWindows v db)

/-- The steps of a restore after the checkpoint was opened, and before a window is opened again. -/
def replaced (c : Cadence) (v ckpt : ViewName) (db : Database) : Database :=
  c.dbClose ckpt (c.dbCopyCellView ckpt v false (cleared c v db)).2

/-- What a restore does once the checkpoint is open. -/
theorem vfpLayoutRestoreFromView_opened (h : db.contents ckpt = some src) :
    ∃ opened, opened = db.hold ckpt src (db.handles ckpt + 1) (db.windows ckpt) ∧
      (vfpLayoutRestoreFromView c v ckpt db).1 = (c.dbCopyCellView ckpt v false (cleared c v opened)).1 ∧
      (vfpLayoutRestoreFromView c v ckpt db).2 =
        if 0 < opened.windows v then c.geOpen v (replaced c v ckpt opened) else replaced c v ckpt opened := by
  rw [vfpLayoutRestoreFromView, Database.dbOpenCellViewByType_of_contents h (.inl rfl)]
  exact ⟨_, rfl, rfl, rfl⟩

/-- A restore without a checkpoint does nothing. -/
theorem vfpLayoutRestoreFromView_missing (h : db.contents ckpt = none) :
    vfpLayoutRestoreFromView c v ckpt db = (false, db) := by
  rw [vfpLayoutRestoreFromView, Database.dbOpenCellViewByType, h]

/-- Clearing a view changes nothing at the others. -/
theorem sameAt_cleared (hne : u ≠ v) : db.SameAt (cleared c v db) u :=
  (c.closeWindows_others hne).trans (c.delete_others hne)

/-- A view that a program holds stays in the way of the copy. -/
theorem cleared_of_held (hheld : 0 < db.handles v) : cleared c v db = c.closeWindows v db ∧
    c.dbCopyCellView ckpt v false (c.closeWindows v db) = (false, c.closeWindows v db) := by
  have hhandles : 0 < (c.closeWindows v db).handles v := by rw [(c.closeWindows_held hheld).2]; exact hheld
  have hopened : ((c.closeWindows v db).opened v).isSome = true :=
    Database.isSome_opened.mpr (Nat.add_pos_left hhandles _)
  obtain ⟨o, ho⟩ := Option.isSome_iff_exists.mp hopened
  refine ⟨c.delete_opened hopened, c.copy_there ?_⟩
  rw [Database.contents_of_opened ho]
  rfl

/-- What holds at a view once the checkpoint is closed, if nothing happened there since it was
opened. -/
theorem kept_reclosed (hsrc : db.contents ckpt = some src)
    (hsame : Database.SameAt (db.hold ckpt src (db.handles ckpt + 1) (db.windows ckpt)) db' u) :
    Kept db (c.dbClose ckpt db') u := by
  by_cases hu : u = ckpt
  · subst hu
    obtain ⟨hdisk, hcontents⟩ := Cadence.sameAt_reclose hsrc hsame
    exact ⟨hcontents.trans hsrc.symm, hdisk⟩
  · exact ((Database.sameAt_hold hu).trans (hsame.trans (c.close_others hu))).kept

/-- A restore changes nothing at the other views. -/
theorem vfpLayoutRestoreFromView_others (hu : u ≠ v) :
    Kept db (vfpLayoutRestoreFromView c v ckpt db).2 u := by
  cases hsrc : db.contents ckpt with
  | none =>
    rw [vfpLayoutRestoreFromView_missing hsrc]
    exact ⟨rfl, rfl⟩
  | some src =>
    obtain ⟨opened, hopened, _, hresult⟩ := vfpLayoutRestoreFromView_opened (c := c) (v := v) hsrc
    rw [hresult]
    refine Kept.trans (kept_reclosed hsrc ?_) kept_reopened
    rw [← hopened]
    exact (sameAt_cleared hu).trans (c.copy_others hu)

/-- A restore that returns `t` found the checkpoint, and the view has what the checkpoint has. -/
theorem vfpLayoutRestoreFromView_true (h : (vfpLayoutRestoreFromView c v ckpt db).1 = true) :
    ∃ src, db.contents ckpt = some src ∧ (vfpLayoutRestoreFromView c v ckpt db).2.contents v = some src := by
  cases hsrc : db.contents ckpt with
  | none =>
    rw [vfpLayoutRestoreFromView_missing hsrc] at h
    cases h
  | some src =>
    obtain ⟨opened, hopened, hok, hresult⟩ := vfpLayoutRestoreFromView_opened (c := c) (v := v) hsrc
    rw [hok] at h
    obtain ⟨hne, hcopied⟩ := c.copy_contents h
    have hshown : opened.contents ckpt = some src := by
      rw [hopened]
      exact Database.contents_hold (by omega)
    refine ⟨src, rfl, ?_⟩
    rw [hresult, kept_reopened.contents, replaced, (c.close_others hne.symm).contents, hcopied,
      (sameAt_cleared hne).contents, hshown]

/-- A view that a program holds keeps what it shows, and only its windows may be closed and one of them
opened again. -/
theorem vfpLayoutRestoreFromView_held (hne : v ≠ ckpt) (hheld : 0 < db.handles v) :
    (∀ u, Kept db (vfpLayoutRestoreFromView c v ckpt db).2 u) ∧
      (vfpLayoutRestoreFromView c v ckpt db).2.handles v = db.handles v ∧
      ((vfpLayoutRestoreFromView c v ckpt db).2.windows v = 0 ↔ db.windows v = 0) := by
  cases hsrc : db.contents ckpt with
  | none =>
    rw [vfpLayoutRestoreFromView_missing hsrc]
    exact ⟨fun u => ⟨rfl, rfl⟩, rfl, Iff.rfl⟩
  | some src =>
    obtain ⟨opened, hopened, _, hresult⟩ := vfpLayoutRestoreFromView_opened (c := c) (v := v) hsrc
    have hsame : db.SameAt opened v := by
      rw [hopened]
      exact Database.sameAt_hold hne
    have hheld' : 0 < opened.handles v := by rw [hsame.handles]; exact hheld
    obtain ⟨hkeep, hcopy⟩ := @cleared_of_held c v ckpt opened hheld'
    obtain ⟨hcontents, hhandles⟩ := c.closeWindows_held hheld'
    have hwindows : (c.closeWindows v opened).windows v ≤ opened.windows v := c.closeWindows_windows
    have hclose : Database.SameAt (c.closeWindows v opened) (c.dbClose ckpt (c.closeWindows v opened)) v :=
      c.close_others hne
    have hreplaced : replaced c v ckpt opened = c.dbClose ckpt (c.closeWindows v opened) := by
      rw [replaced, hkeep, hcopy]
    obtain ⟨cv, hcv⟩ : ∃ cv, opened.contents v = some cv := by
      have hsome : 0 < opened.handles v + opened.windows v := by omega
      obtain ⟨o, ho⟩ := Option.isSome_iff_exists.mp (Database.isSome_opened.mpr hsome)
      exact ⟨o.contents, Database.contents_of_opened ho⟩
    have hshown : (c.dbClose ckpt (c.closeWindows v opened)).contents v = some cv := by
      rw [hclose.contents, hcontents, hcv]
    rw [hresult, hreplaced]
    refine ⟨?_, ?_, ?_⟩
    · intro u
      refine Kept.trans ?_ kept_reopened
      by_cases hu : u = v
      · subst hu
        exact ⟨by rw [hshown, ← hsame.contents, hcv],
          by rw [hclose.disk, c.closeWindows_disk, hsame.disk]⟩
      · refine kept_reclosed hsrc ?_
        rw [← hopened]
        exact c.closeWindows_others hu
    · split
      · rw [c.geOpen_handles, hclose.handles, hhandles, hsame.handles]
      · rw [hclose.handles, hhandles, hsame.handles]
    · split
      · rename_i hpos
        have hreopened : 0 < (c.geOpen v (c.dbClose ckpt (c.closeWindows v opened))).windows v :=
          c.geOpen_windows (by rw [hshown]; rfl)
        rw [hsame.windows] at hpos
        omega
      · rename_i hzero
        rw [hclose.windows]
        rw [hsame.windows] at hzero hwindows
        omega

end Restore

section Apply

variable {s : Session} {tag : String} {editFn : Edit} {v : ViewName} {cv : CellView} {w : World}

/-- The view that the checkpoint of an edit goes to. -/
def checkpointOf (s : Session) (tag : String) (v : ViewName) : ViewName :=
  ⟨v.lib, v.cell, "layout" ++ "_vfpckpt_" ++ tag ++ "_" ++ vfpCompactTime s⟩

/-- The checkpoint of an edit can be taken. -/
def CheckpointTaken (s : Session) (tag : String) (v : ViewName) (db : Database) : Prop :=
  (s.cadence.dbCopyCellView v (checkpointOf s tag v) true db).1 = true

/-- The design once the checkpoint of an edit was taken. -/
def checkpointed (s : Session) (tag : String) (v : ViewName) (db : Database) : Database :=
  (s.cadence.dbCopyCellView v (checkpointOf s tag v) true db).2

/-- The design when the edit function is done. -/
def editedLayout (s : Session) (tag : String) (editFn : Edit) (v : ViewName) (cv : CellView)
    (db : Database) : Database :=
  (checkpointed s tag v db).edit v (editFn cv).2

/-- The record that an edit sends. -/
def editRecord (s : Session) (tag : String) (editFn : Edit) (v : ViewName) (cv : CellView) : Obj :=
  layoutRecord s v.lib v.cell (s.geometry cv (editFn cv).2) (s.connectivity cv (editFn cv).2)
    (some (checkpointOf s tag v).view)

/-- The reply to the record, and the world then. -/
def sentEdit (s : Session) (tag : String) (editFn : Edit) (v : ViewName) (cv : CellView) (w : World) :
    Reply × World :=
  sendTransaction s (editRecord s tag editFn v cv)
    { w with db := (editedLayout s tag editFn v cv w.db).dbSave v }

/-- The records of layout transactions can be sent. -/
theorem sendable_layoutRecord (s : Session) (lib cell : String) (geometry : Json)
    (connectivity : Option Json) (ckptView : Option String) :
    Sendable (layoutRecord s lib cell geometry connectivity ckptView) := by
  cases connectivity <;> cases ckptView <;> exact ⟨by simp [UniqueMembers, layoutRecord], rfl⟩

/-- The record of an edit has no values before. -/
theorem before_editRecord (s : Session) (tag : String) (editFn : Edit) (v : ViewName) (cv : CellView) :
    (editRecord s tag editFn v cv).lookup "before" = none := by
  unfold editRecord layoutRecord
  cases s.connectivity cv (editFn cv).2 <;> rfl

/-- A checkpoint that was taken has a name. -/
theorem vfpLayoutCheckpoint_taken {db : Database} (h : CheckpointTaken s tag v db) :
    vfpLayoutCheckpoint s.cadence tag (vfpCompactTime s) v db =
      (some (checkpointOf s tag v).view, checkpointed s tag v db) := Prod.ext (if_pos h) rfl

/-- A checkpoint that was not taken has none. -/
theorem vfpLayoutCheckpoint_refused {db : Database} (h : ¬ CheckpointTaken s tag v db) :
    vfpLayoutCheckpoint s.cadence tag (vfpCompactTime s) v db = (none, checkpointed s tag v db) :=
  Prod.ext (if_neg h) rfl

/-- Without a checkpoint there is no edit. -/
theorem vfpLayoutTxnApply_refused (h : ¬ CheckpointTaken s tag v w.db) :
    vfpLayoutTxnApply s tag editFn v cv w = (.nil, { w with db := checkpointed s tag v w.db }) := by
  rw [vfpLayoutTxnApply, vfpLayoutCheckpoint_refused h]

/-- An edit that is made and accepted gets the id of its transaction. -/
theorem vfpLayoutTxnApply_accepted (htaken : CheckpointTaken s tag v w.db)
    (hedit : (errset (editFn cv).1).truthy = true) (hok : (sentEdit s tag editFn v cv w).1.ok = true) :
    vfpLayoutTxnApply s tag editFn v cv w =
      (.str (transactionId s), (sentEdit s tag editFn v cv w).2) := by
  obtain ⟨u, hstored, _, hpayload, _⟩ := sendTransaction_ok (sendable_layoutRecord ..) hok
  rw [vfpLayoutTxnApply, vfpLayoutCheckpoint_taken htaken]
  refine (if_pos hedit).trans ((if_pos hok).trans (Prod.ext ?_ rfl))
  show vfpAlistGet (vfpAlistGet (sentEdit s tag editFn v cv w).1.payload "transaction") _ = _
  rw [sentEdit, editRecord, hpayload, vfpAlistGet_created hstored]

/-- An edit that is made and not accepted. -/
theorem vfpLayoutTxnApply_rejected (htaken : CheckpointTaken s tag v w.db)
    (hedit : (errset (editFn cv).1).truthy = true) (hok : (sentEdit s tag editFn v cv w).1.ok = false) :
    vfpLayoutTxnApply s tag editFn v cv w = (.nil, { (sentEdit s tag editFn v cv w).2 with
      db := (vfpLayoutRestoreFromView s.cadence v (checkpointOf s tag v) (sentEdit s tag editFn v cv w).2.db).2 }) := by
  have hnot : ¬ (sentEdit s tag editFn v cv w).1.ok = true := by simp [hok]
  rw [vfpLayoutTxnApply, vfpLayoutCheckpoint_taken htaken]
  exact (if_pos hedit).trans (if_neg hnot)

/-- An edit function that returns `nil` or raises. -/
theorem vfpLayoutTxnApply_failed (htaken : CheckpointTaken s tag v w.db)
    (hedit : (errset (editFn cv).1).truthy = false) :
    vfpLayoutTxnApply s tag editFn v cv w = (.nil, { w with
      db := (vfpLayoutRestoreFromView s.cadence v (checkpointOf s tag v)
        (editedLayout s tag editFn v cv w.db)).2 }) := by
  have hnot : ¬ (errset (editFn cv).1).truthy = true := by simp [hedit]
  rw [vfpLayoutTxnApply, vfpLayoutCheckpoint_taken htaken]
  exact if_neg hnot

/-- An edit with a transaction was made and accepted. -/
theorem vfpLayoutTxnApply_ne_nil (h : (vfpLayoutTxnApply s tag editFn v cv w).1 ≠ .nil) :
    CheckpointTaken s tag v w.db ∧ (errset (editFn cv).1).truthy = true ∧
      (sentEdit s tag editFn v cv w).1.ok = true := by
  have htaken : CheckpointTaken s tag v w.db := by
    by_contra hnot
    rw [vfpLayoutTxnApply_refused hnot] at h
    exact h rfl
  cases hedit : (errset (editFn cv).1).truthy with
  | false =>
    rw [vfpLayoutTxnApply_failed htaken hedit] at h
    exact absurd rfl h
  | true =>
    cases hok : (sentEdit s tag editFn v cv w).1.ok with
    | false =>
      rw [vfpLayoutTxnApply_rejected htaken hedit hok] at h
      exact absurd rfl h
    | true => exact ⟨htaken, rfl, rfl⟩

/-- An edited view is not its own checkpoint. -/
theorem CheckpointTaken.ne {db : Database} (h : CheckpointTaken s tag v db) : v ≠ checkpointOf s tag v :=
  (s.cadence.copy_contents h).1

/-- Taking a checkpoint changes nothing at the views of other names. -/
theorem sameAt_checkpointed {db : Database} {u : ViewName} (hu : u ≠ checkpointOf s tag v) :
    db.SameAt (checkpointed s tag v db) u := s.cadence.copy_others hu

/-- The edited view after its checkpoint was taken and the edit made: nothing is on disk yet. -/
theorem editedLayout_of_opened (s : Session) (tag : String) (editFn : Edit) (cv : CellView) {o : Opened}
    {db : Database} (hopen : db.opened v = some o) (hne : v ≠ checkpointOf s tag v) :
    (editedLayout s tag editFn v cv db).opened v =
        some ⟨(editFn cv).2, o.handles, o.windows, o.held⟩ ∧
      (editedLayout s tag editFn v cv db).disk v = db.disk v := by
  have hstored : (checkpointed s tag v db).opened v = some o := by
    rw [(sameAt_checkpointed hne).opened, hopen]
  obtain ⟨hdisk, hopened⟩ := Database.edit_of_opened (editFn cv).2 hstored
  refine ⟨hopened, ?_⟩
  rw [editedLayout, hdisk, (sameAt_checkpointed hne).disk]

/-- The design after the edit was saved: the view has what the edit left, in memory and on disk, and
the checkpoint has what was there before. -/
theorem saved_editedLayout (s : Session) (tag : String) (editFn : Edit) (cv : CellView) {o : Opened}
    {db : Database} (hopen : db.opened v = some o) (htaken : CheckpointTaken s tag v db) :
    ((editedLayout s tag editFn v cv db).dbSave v).opened v =
        some ⟨(editFn cv).2, o.handles, o.windows, o.held⟩ ∧
      ((editedLayout s tag editFn v cv db).dbSave v).disk v = some (editFn cv).2 ∧
      ((editedLayout s tag editFn v cv db).dbSave v).contents (checkpointOf s tag v) = some o.contents ∧
      ∀ u, u ≠ v → u ≠ checkpointOf s tag v →
        db.SameAt ((editedLayout s tag editFn v cv db).dbSave v) u := by
  obtain ⟨hne, hcopied⟩ := s.cadence.copy_contents htaken
  have hstored : (checkpointed s tag v db).opened v = some o := by
    rw [(sameAt_checkpointed hne).opened, hopen]
  obtain ⟨_, hdisk, hopened⟩ := contents_edit_dbSave (editFn cv).2 hstored
  have hckpt : (checkpointed s tag v db).SameAt ((editedLayout s tag editFn v cv db).dbSave v)
      (checkpointOf s tag v) := sameAt_edit_dbSave hne.symm
  refine ⟨hopened, hdisk, ?_, ?_⟩
  · rw [hckpt.contents, checkpointed, hcopied, Database.contents_of_opened hopen]
  · intro u hu hu'
    exact (sameAt_checkpointed hu').trans (sameAt_edit_dbSave hu)

/-- The ends of an edit: without a checkpoint, recorded, not accepted, or failed. -/
theorem vfpLayoutTxnApply_cases (s : Session) (tag : String) (editFn : Edit) (v : ViewName) (cv : CellView)
    (w : World) :
    vfpLayoutTxnApply s tag editFn v cv w = (.nil, { w with db := checkpointed s tag v w.db }) ∨
      vfpLayoutTxnApply s tag editFn v cv w = (.str (transactionId s), (sentEdit s tag editFn v cv w).2) ∨
      vfpLayoutTxnApply s tag editFn v cv w = (.nil, { (sentEdit s tag editFn v cv w).2 with
        db := (vfpLayoutRestoreFromView s.cadence v (checkpointOf s tag v)
          (sentEdit s tag editFn v cv w).2.db).2 }) ∨
      vfpLayoutTxnApply s tag editFn v cv w = (.nil, { w with
        db := (vfpLayoutRestoreFromView s.cadence v (checkpointOf s tag v)
          (editedLayout s tag editFn v cv w.db)).2 }) := by
  by_cases htaken : CheckpointTaken s tag v w.db
  · cases hedit : (errset (editFn cv).1).truthy with
    | false => exact .inr (.inr (.inr (vfpLayoutTxnApply_failed htaken hedit)))
    | true =>
      cases hok : (sentEdit s tag editFn v cv w).1.ok with
      | false => exact .inr (.inr (.inl (vfpLayoutTxnApply_rejected htaken hedit hok)))
      | true => exact .inr (.inl (vfpLayoutTxnApply_accepted htaken hedit hok))
  · exact .inl (vfpLayoutTxnApply_refused htaken)

/-- However an edit ends, only the edited view and its checkpoint can change. -/
theorem kept_vfpLayoutTxnApply (editFn : Edit) (cv : CellView) (w : World) {u : ViewName} (hu : u ≠ v)
    (hu' : u ≠ checkpointOf s tag v) : Kept w.db (vfpLayoutTxnApply s tag editFn v cv w).2.db u := by
  have hedited : w.db.SameAt (editedLayout s tag editFn v cv w.db) u :=
    (sameAt_checkpointed hu').trans (Database.sameAt_edit hu)
  have hsent : w.db.SameAt (sentEdit s tag editFn v cv w).2.db u := by
    rw [sentEdit, db_sendTransaction]
    exact hedited.trans (Database.sameAt_dbSave hu)
  rcases vfpLayoutTxnApply_cases s tag editFn v cv w with heq | heq | heq | heq <;> rw [heq]
  · exact (sameAt_checkpointed hu').kept
  · exact hsent.kept
  · exact hsent.kept.trans (vfpLayoutRestoreFromView_others hu)
  · exact hedited.kept.trans (vfpLayoutRestoreFromView_others hu)

/-- However an edit ends, the tunnel got one request at most. -/
theorem txnsMove_vfpLayoutTxnApply (s : Session) (tag : String) (editFn : Edit) (v : ViewName)
    (cv : CellView) (w : World) : TxnsMove w (vfpLayoutTxnApply s tag editFn v cv w).2 := by
  have hsent : TxnsMove { w with db := (editedLayout s tag editFn v cv w.db).dbSave v }
      (sentEdit s tag editFn v cv w).2 := txnsMove_sendTransaction
  rcases vfpLayoutTxnApply_cases s tag editFn v cv w with heq | heq | heq | heq <;> rw [heq]
  · exact .refl w
  · exact hsent
  · exact hsent
  · exact .refl w

end Apply

end VirtuosoFlow.Plugin
