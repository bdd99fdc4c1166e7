import VirtuosoFlow.Plugin.Skill
import Mathlib.Logic.Function.Basic

/-!
# The design database

The cellviews of the libraries as the plugin uses them: what is on disk, what is open in
virtual memory and who holds it open. All handles and windows on a view share one copy in
memory; it is purged when the last of them is gone. Opening, editing and saving a view are
defined here. The calls that copy, delete and close views and that open and close windows are a
parameter, with what is documented of them: what a copy leaves open is not.
-/

namespace VirtuosoFlow.Plugin

/-- A view of a cell. -/
structure ViewName where
  lib : String
  cell : String
  view : String
  deriving DecidableEq

/-- A parameter of the CDF of an instance. -/
structure CdfParam where
  name : String
  value : Value
  deriving DecidableEq

/-- An instance: its name, its origin, and the CDF parameters it has, if it has a CDF. -/
structure DbInst where
  name : String
  xy : ℚ × ℚ
  cdf : Option (List CdfParam)
  deriving DecidableEq

/-- A shape, as far as the primitives read it. -/
structure DbShape where
  objType : String
  layerName : String
  net : Option String
  width : Value
  deriving DecidableEq

/-- The contents of a cellview. -/
structure CellView where
  viewType : String
  instances : List DbInst
  shapes : List DbShape
  deriving DecidableEq

/-- A cellview in virtual memory. Somebody holds it: a handle of a program or a window. -/
structure Opened where
  contents : CellView
  handles : ℕ
  windows : ℕ
  held : 0 < handles + windows

/-- A cellview in memory with these holders; without any it is purged. -/
def Opened.mk? (contents : CellView) (handles windows : ℕ) : Option Opened :=
  if h : 0 < handles + windows then some ⟨contents, handles, windows, h⟩ else none

/-- The views on disk and the views in memory. -/
structure Database where
  disk : ViewName → Option CellView
  opened : ViewName → Option Opened

namespace Database

/-- What the database shows for a view: the copy in memory, else the one on disk. -/
def contents (db : Database) (v : ViewName) : Option CellView :=
  match db.opened v with
  | some o => some o.contents
  | none => db.disk v

/-- The handles on a view. -/
def handles (db : Database) (v : ViewName) : ℕ := (db.opened v).elim 0 Opened.handles

/-- The windows on a view. -/
def windows (db : Database) (v : ViewName) : ℕ := (db.opened v).elim 0 Opened.windows

/-- Set the contents of a view in memory and its holders. -/
def hold (v : ViewName) (cv : CellView) (handles windows : ℕ) (db : Database) : Database :=
  { db with opened := Function.update db.opened v (Opened.mk? cv handles windows) }

/-- Set what is on disk for a view. -/
def store (v : ViewName) (cv : Option CellView) (db : Database) : Database :=
  { db with disk := Function.update db.disk v cv }

/-- `dbOpenCellViewByType`: one more handle; an empty view type accepts every view. -/
def dbOpenCellViewByType (v : ViewName) (viewType : String) (db : Database) :
    Option (CellView × Database) :=
  match db.contents v with
  | some cv =>
    if viewType = "" ∨ cv.viewType = viewType then
      some (cv, db.hold v cv (db.handles v + 1) (db.windows v))
    else none
  | none => none

/-- An edit of the copy in memory. -/
def edit (v : ViewName) (cv : CellView) (db : Database) : Database :=
  match db.opened v with
  | some o => db.hold v cv o.handles o.windows
  | none => db

/-- `dbSave`. -/
def dbSave (v : ViewName) (db : Database) : Database :=
  match db.opened v with
  | some o => db.store v (some o.contents)
  | none => db

section Views

variable {db db' db'' : Database} {v u : ViewName} {cv : CellView} {viewType : String} {n m : ℕ}

/-- Nothing changed at a view. -/
structure SameAt (db db' : Database) (u : ViewName) : Prop where
  disk : db'.disk u = db.disk u
  opened : db'.opened u = db.opened u

/-- A database is the same as itself at any view. -/
theorem SameAt.refl (db : Database) (u : ViewName) : SameAt db db u := ⟨rfl, rfl⟩

/-- It is the same at a view after two steps if each leaves the view. -/
theorem SameAt.trans (h : SameAt db db' u) (h' : SameAt db' db'' u) : SameAt db db'' u :=
  ⟨h'.disk.trans h.disk, h'.opened.trans h.opened⟩

/-- The same view has the same contents. -/
theorem SameAt.contents (h : SameAt db db' u) : db'.contents u = db.contents u := by
  rw [Database.contents, h.opened, h.disk]
  rfl

/-- It has as many handles. -/
theorem SameAt.handles (h : SameAt db db' u) : db'.handles u = db.handles u := by
  rw [Database.handles, h.opened]
  rfl

/-- It has as many windows. -/
theorem SameAt.windows (h : SameAt db db' u) : db'.windows u = db.windows u := by
  rw [Database.windows, h.opened]
  rfl

/-- A view is open exactly if somebody holds it. -/
theorem isSome_opened : (db.opened v).isSome = true ↔ 0 < db.handles v + db.windows v := by
  unfold handles windows
  cases h : db.opened v with
  | none => simp
  | some o => simpa using o.held

/-- An open view has the contents in memory. -/
theorem contents_of_opened {o : Opened} (h : db.opened v = some o) :
    db.contents v = some o.contents := by
  rw [contents, h]

/-- A view that is not open has those on the disk. -/
theorem contents_of_closed (h : db.opened v = none) : db.contents v = db.disk v := by
  rw [contents, h]

section Hold

/-- Holding a view open leaves the disk. -/
@[simp] theorem disk_hold : (db.hold v cv n m).disk = db.disk := rfl

/-- What is in memory of a view that is held open. -/
theorem opened_hold : (db.hold v cv n m).opened v = Opened.mk? cv n m := Function.update_self ..

/-- Holding a view open leaves the others. -/
theorem sameAt_hold (h : u ≠ v) : SameAt db (db.hold v cv n m) u :=
  ⟨rfl, Function.update_of_ne h ..⟩

/-- A view with holders shows what was put into memory. -/
theorem contents_hold (h : 0 < n + m) : (db.hold v cv n m).contents v = some cv := by
  rw [contents, opened_hold, Opened.mk?, dif_pos h]

/-- The holders of a view are those that were set, if any were. -/
theorem holders_hold : (db.hold v cv n m).handles v = n ∧ (db.hold v cv n m).windows v = m := by
  rw [handles, windows, opened_hold, Opened.mk?]
  by_cases h : 0 < n + m
  · rw [dif_pos h]
    exact ⟨rfl, rfl⟩
  · have hn : n = 0 := by omega
    have hm : m = 0 := by omega
    rw [dif_neg h, hn, hm]
    exact ⟨rfl, rfl⟩

/-- Storing a view leaves the others. -/
theorem sameAt_store {c : Option CellView} (h : u ≠ v) : SameAt db (db.store v c) u :=
  ⟨Function.update_of_ne h .., rfl⟩

/-- What is stored is on the disk. -/
@[simp] theorem disk_store {c : Option CellView} : (db.store v c).disk v = c :=
  Function.update_self ..

/-- Storing leaves what is open. -/
@[simp] theorem opened_store {c : Option CellView} : (db.store v c).opened = db.opened := rfl

end Hold

section Operations

/-- What opening a view gives: its contents, and one more handle on it. -/
theorem dbOpenCellViewByType_eq_some (h : db.dbOpenCellViewByType v viewType = some (cv, db')) :
    db.contents v = some cv ∧ (viewType = "" ∨ cv.viewType = viewType) ∧
      db' = db.hold v cv (db.handles v + 1) (db.windows v) := by
  unfold dbOpenCellViewByType at h
  cases hcontents : db.contents v with
  | none => simp [hcontents] at h
  | some c =>
    rw [hcontents] at h
    by_cases htype : viewType = "" ∨ c.viewType = viewType
    · simp only [if_pos htype, Option.some.injEq, Prod.mk.injEq] at h
      obtain ⟨rfl, rfl⟩ := h
      exact ⟨rfl, htype, rfl⟩
    · simp [if_neg htype] at h

/-- A view that is there is opened, unless it is of another type. -/
theorem dbOpenCellViewByType_of_contents (h : db.contents v = some cv)
    (htype : viewType = "" ∨ cv.viewType = viewType) : db.dbOpenCellViewByType v viewType =
      some (cv, db.hold v cv (db.handles v + 1) (db.windows v)) := by
  rw [dbOpenCellViewByType, h]
  exact if_pos htype

/-- An edit leaves the other views. -/
theorem sameAt_edit (h : u ≠ v) : SameAt db (db.edit v cv) u := by
  unfold edit
  split
  · exact sameAt_hold h
  · exact .refl db u

/-- Editing an open view. -/
theorem edit_of_opened (cv : CellView) {o : Opened} (h : db.opened v = some o) :
    (db.edit v cv).disk = db.disk ∧
      (db.edit v cv).opened v = some ⟨cv, o.handles, o.windows, o.held⟩ := by
  rw [edit, h]
  refine ⟨rfl, ?_⟩
  rw [opened_hold, Opened.mk?, dif_pos o.held]

/-- Saving leaves the other views. -/
theorem sameAt_dbSave (h : u ≠ v) : SameAt db (db.dbSave v) u := by
  unfold dbSave
  split
  · exact sameAt_store h
  · exact .refl db u

/-- Saving leaves what is open. -/
@[simp] theorem opened_dbSave : (db.dbSave v).opened = db.opened := by
  unfold dbSave
  split <;> rfl

/-- Saving changes nothing the database shows. -/
@[simp] theorem contents_dbSave : (db.dbSave v).contents u = db.contents u := by
  by_cases h : u = v
  · subst h
    cases ho : db.opened u with
    | some o => rw [contents_of_opened ho, contents_of_opened (o := o) (by rw [opened_dbSave, ho])]
    | none => rw [dbSave, ho]
  · exact (sameAt_dbSave h).contents

/-- Saving puts what is in memory on the disk. -/
theorem disk_dbSave {o : Opened} (h : db.opened v = some o) :
    (db.dbSave v).disk v = some o.contents := by
  rw [dbSave, h]
  exact disk_store

end Operations

end Views

end Database

/-- The calls of Virtuoso that the plugin leaves to it, most of them under `errset`, and what is documented of
them. Nothing is said about what a copy leaves open, or whether it is on disk when the call returns. -/
structure Cadence where
  /-- `dbCopyCellView(cv lib cell view nil nil overwrite)` of a view to another: whether it was made. -/
  dbCopyCellView : ViewName → ViewName → Bool → Database → Bool × Database
  /-- `ddDeleteObj`. -/
  ddDeleteObj : ViewName → Database → Database
  /-- `dbClose` of a handle on a view. -/
  dbClose : ViewName → Database → Database
  /-- `hiCloseWindow` on every window of a view. -/
  closeWindows : ViewName → Database → Database
  /-- `geOpen` of a view. -/
  geOpen : ViewName → Database → Database
  /-- A copy is made of one view as another, and it has what the view has. -/
  copy_contents : ∀ {src dst : ViewName} {overwrite : Bool} {db : Database},
    (dbCopyCellView src dst overwrite db).1 = true →
      src ≠ dst ∧ (dbCopyCellView src dst overwrite db).2.contents dst = db.contents src
  /-- A copy does not replace a view that is there, unless it is told to: it returns `nil`. -/
  copy_there : ∀ {src dst : ViewName} {db : Database}, (db.contents dst).isSome = true →
    dbCopyCellView src dst false db = (false, db)
  copy_others : ∀ {src dst u : ViewName} {overwrite : Bool} {db : Database}, u ≠ dst →
    db.SameAt (dbCopyCellView src dst overwrite db).2 u
  /-- A view that is open cannot be deleted. -/
  delete_opened : ∀ {v : ViewName} {db : Database}, (db.opened v).isSome = true → ddDeleteObj v db = db
  delete_others : ∀ {v u : ViewName} {db : Database}, u ≠ v → db.SameAt (ddDeleteObj v db) u
  /-- A handle less: the view stays in memory as long as somebody else holds it. -/
  close_opened : ∀ {v : ViewName} {db : Database} {o : Opened}, db.opened v = some o → 0 < o.handles →
    (dbClose v db).opened v = Opened.mk? o.contents (o.handles - 1) o.windows
  close_disk : ∀ {v : ViewName} {db : Database}, (dbClose v db).disk v = db.disk v
  close_others : ∀ {v u : ViewName} {db : Database}, u ≠ v → db.SameAt (dbClose v db) u
  /-- A view that a program holds open stays open when its windows are closed. -/
  closeWindows_held : ∀ {v : ViewName} {db : Database}, 0 < db.handles v →
    (closeWindows v db).contents v = db.contents v ∧ (closeWindows v db).handles v = db.handles v
  closeWindows_windows : ∀ {v : ViewName} {db : Database}, (closeWindows v db).windows v ≤ db.windows v
  closeWindows_disk : ∀ {v : ViewName} {db : Database}, (closeWindows v db).disk v = db.disk v
  closeWindows_others : ∀ {v u : ViewName} {db : Database}, u ≠ v → db.SameAt (closeWindows v db) u
  /-- A window is opened on a view that is there. -/
  geOpen_windows : ∀ {v : ViewName} {db : Database}, (db.contents v).isSome = true →
    0 < (geOpen v db).windows v
  geOpen_handles : ∀ {v : ViewName} {db : Database}, (geOpen v db).handles v = db.handles v
  geOpen_contents : ∀ {v : ViewName} {db : Database}, (geOpen v db).contents v = db.contents v
  geOpen_disk : ∀ {v : ViewName} {db : Database}, (geOpen v db).disk v = db.disk v
  geOpen_others : ∀ {v u : ViewName} {db : Database}, u ≠ v → db.SameAt (geOpen v db) u

namespace Cadence

section Closing

variable {c : Cadence} {db db' : Database} {v : ViewName} {cv : CellView} {o : Opened}

/-- Closing a handle: what the view has then, and who holds it. -/
theorem contents_close (h : db.opened v = some o) (hheld : 0 < o.handles) :
    (c.dbClose v db).contents v =
      if 0 < o.handles - 1 + o.windows then some o.contents else db.disk v := by
  have hopened := c.close_opened h hheld
  by_cases hleft : 0 < o.handles - 1 + o.windows
  · rw [Opened.mk?, dif_pos hleft] at hopened
    rw [if_pos hleft, Database.contents_of_opened hopened]
  · rw [Opened.mk?, dif_neg hleft] at hopened
    rw [if_neg hleft, Database.contents_of_closed hopened, c.close_disk]

/-- Closing the handle just opened puts a view back, whoever else holds it. -/
theorem sameAt_reclose (h : db.contents v = some cv)
    (hsame : Database.SameAt (db.hold v cv (db.handles v + 1) (db.windows v)) db' v) :
    (c.dbClose v db').disk v = db.disk v ∧ (c.dbClose v db').contents v = some cv := by
  have hheld : 0 < db.handles v + 1 + db.windows v := by omega
  have hopened : db'.opened v = some ⟨cv, db.handles v + 1, db.windows v, hheld⟩ := by
    rw [hsame.opened, Database.opened_hold, Opened.mk?, dif_pos hheld]
  have hpos : 0 < db.handles v + 1 := by omega
  have hdisk : db'.disk v = db.disk v := hsame.disk
  refine ⟨c.close_disk.trans hdisk, ?_⟩
  rw [contents_close hopened hpos, hdisk, Nat.add_sub_cancel]
  split
  · rfl
  · rename_i hpurged
    have hclosed : db.opened v = none := by
      rw [← Option.not_isSome_iff_eq_none, Database.isSome_opened]
      exact hpurged
    rw [← h, Database.contents_of_closed hclosed]

end Closing

end Cadence

section Sample

variable {v src dst : ViewName} {overwrite lingers : Bool} {db : Database}

/-- A copy to a view that is not open, which may stay open itself. -/
def sampleCopyView (lingers : Bool) (src dst : ViewName) (overwrite : Bool) (db : Database) : Bool × Database :=
  match db.contents src with
  | none => (false, db)
  | some cv =>
    if src = dst ∨ (db.opened dst).isSome = true ∨ (db.disk dst).isSome = true ∧ overwrite = false then
      (false, db)
    else (true, if lingers then (db.store dst (some cv)).hold dst cv 1 0 else db.store dst (some cv))

/-- A view that is not open is deleted. -/
def sampleDeleteView (v : ViewName) (db : Database) : Database :=
  if (db.opened v).isSome then db else db.store v none

/-- One handle less. -/
def sampleCloseView (v : ViewName) (db : Database) : Database :=
  match db.opened v with
  | some o => db.hold v o.contents (o.handles - 1) o.windows
  | none => db

/-- All windows of a view are closed. -/
def sampleCloseWindows (v : ViewName) (db : Database) : Database :=
  match db.opened v with
  | some o => db.hold v o.contents o.handles 0
  | none => db

/-- One window more. -/
def sampleOpenWindow (v : ViewName) (db : Database) : Database :=
  match db.contents v with
  | some cv => db.hold v cv (db.handles v) (db.windows v + 1)
  | none => db

/-- A copy that was made. -/
theorem sampleCopyView_true (h : (sampleCopyView lingers src dst overwrite db).1 = true) :
    src ≠ dst ∧ db.opened dst = none ∧ ∃ cv, db.contents src = some cv ∧
      sampleCopyView lingers src dst overwrite db =
        (true, if lingers then (db.store dst (some cv)).hold dst cv 1 0 else db.store dst (some cv)) := by
  unfold sampleCopyView at h ⊢
  cases hsrc : db.contents src with
  | none => simp [hsrc] at h
  | some cv =>
    rw [hsrc] at h
    by_cases hnot : src = dst ∨ (db.opened dst).isSome = true ∨ (db.disk dst).isSome = true ∧ overwrite = false
    · simp [if_pos hnot] at h
    · have hopened : ¬ (db.opened dst).isSome = true := fun h => hnot (.inr (.inl h))
      exact ⟨fun h => hnot (.inl h), Option.not_isSome_iff_eq_none.mp hopened, cv, rfl, if_neg hnot⟩

/-- A copy does not change other views. -/
theorem sameAt_sampleCopyView {u : ViewName} (hu : u ≠ dst) :
    db.SameAt (sampleCopyView lingers src dst overwrite db).2 u := by
  unfold sampleCopyView
  split
  · exact .refl db u
  · split
    · exact .refl db u
    · cases lingers with
      | false => exact Database.sameAt_store hu
      | true => exact (Database.sameAt_store hu).trans (Database.sameAt_hold hu)

/-- A view that is there is in the way of a copy. -/
theorem sampleCopyView_there (h : (db.contents dst).isSome = true) :
    sampleCopyView lingers src dst false db = (false, db) := by
  unfold sampleCopyView
  split
  · rfl
  · refine if_pos (.inr ?_)
    cases hopened : db.opened dst with
    | some o => exact .inl rfl
    | none =>
      rw [Database.contents_of_closed hopened] at h
      exact .inr ⟨h, rfl⟩

/-- Closing the windows of a view and opening one concern the view only. -/
theorem sameAt_sampleHold {u : ViewName} (hu : u ≠ v) :
    db.SameAt (sampleDeleteView v db) u ∧ db.SameAt (sampleCloseView v db) u ∧
      db.SameAt (sampleCloseWindows v db) u ∧ db.SameAt (sampleOpenWindow v db) u := by
  unfold sampleDeleteView sampleCloseView sampleCloseWindows sampleOpenWindow
  refine ⟨?_, ?_, ?_, ?_⟩ <;> split
  exacts [.refl db u, Database.sameAt_store hu, Database.sameAt_hold hu, .refl db u, Database.sameAt_hold hu,
    .refl db u, Database.sameAt_hold hu, .refl db u]

/-- A sample of the calls, whose copies stay open or not. -/
def Cadence.sample (lingers : Bool) : Cadence where
  dbCopyCellView := sampleCopyView lingers
  ddDeleteObj := sampleDeleteView
  dbClose := sampleCloseView
  closeWindows := sampleCloseWindows
  geOpen := sampleOpenWindow
  copy_contents := by
    intro src dst overwrite db h
    obtain ⟨hne, hopened, cv, hsrc, heq⟩ := sampleCopyView_true h
    refine ⟨hne, ?_⟩
    rw [heq, hsrc]
    cases lingers with
    | false =>
      have hclosed : (db.store dst (some cv)).opened dst = none := hopened
      exact (Database.contents_of_closed hclosed).trans Database.disk_store
    | true => exact Database.contents_hold (by omega)
  copy_there := sampleCopyView_there
  copy_others := sameAt_sampleCopyView
  delete_opened := fun h => if_pos h
  delete_others := fun hu => (sameAt_sampleHold hu).1
  close_opened := by
    intro v db o h _
    unfold sampleCloseView
    rw [h]
    exact Database.opened_hold
  close_disk := by
    intro v db
    unfold sampleCloseView
    split <;> rfl
  close_others := fun hu => (sameAt_sampleHold hu).2.1
  closeWindows_held := by
    intro v db h
    unfold sampleCloseWindows
    cases ho : db.opened v with
    | none => simp [Database.handles, ho] at h
    | some o =>
      have hhandles : db.handles v = o.handles := by rw [Database.handles, ho]; rfl
      have hheld : 0 < o.handles + 0 := by omega
      exact ⟨(Database.contents_hold hheld).trans (Database.contents_of_opened ho).symm,
        Database.holders_hold.1.trans hhandles.symm⟩
  closeWindows_windows := by
    intro v db
    unfold sampleCloseWindows
    split
    · rw [Database.holders_hold.2]
      exact Nat.zero_le _
    · exact le_rfl
  closeWindows_disk := by
    intro v db
    unfold sampleCloseWindows
    split <;> rfl
  closeWindows_others := fun hu => (sameAt_sampleHold hu).2.2.1
  geOpen_windows := by
    intro v db h
    obtain ⟨cv, hcv⟩ := Option.isSome_iff_exists.mp h
    unfold sampleOpenWindow
    rw [hcv]
    dsimp only
    rw [Database.holders_hold.2]
    omega
  geOpen_handles := by
    intro v db
    unfold sampleOpenWindow
    split
    · exact Database.holders_hold.1
    · rfl
  geOpen_contents := by
    intro v db
    unfold sampleOpenWindow
    split
    · rename_i cv hcv
      rw [hcv]
      exact Database.contents_hold (by omega)
    · rfl
  geOpen_disk := by
    intro v db
    unfold sampleOpenWindow
    split <;> rfl
  geOpen_others := fun hu => (sameAt_sampleHold hu).2.2.2

end Sample

end VirtuosoFlow.Plugin
