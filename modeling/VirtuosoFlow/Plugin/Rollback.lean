import VirtuosoFlow.Base.Journal
import VirtuosoFlow.Plugin.FailedApply

/-!
# Recorded values and their rollback

What a stored transaction says about the parameters it set, and what a rollback that returns
`t` wrote. Where the values are strings a snapshot records them as they are, so a stored
transaction is a change of the journal of reversible changes.
-/

namespace VirtuosoFlow.Plugin

open Base Tunnel

/-- The values that a rollback of a record writes. -/
def restoreOf (u : Obj) : List Value := (Value.ofJson (Obj.getD u "before" (.arr []))).toList

/-- Open the schematic that a record names. -/
def openRecorded (u : Obj) (db : Database) : Option (ViewName × CellView × Database) :=
  openSchematic (vfpAlistGet (vfpAlistGet (Value.ofJson (.obj u)) "cellview") "lib")
    (vfpAlistGet (vfpAlistGet (Value.ofJson (.obj u)) "cellview") "cell") db

/-- The world when a rollback has written the values of a record and saved. -/
def savedRollback (u : Obj) (v : ViewName) (cv : CellView) (db : Database) (w : World) : World :=
  { w with db := (db.edit v (setParams "value" (restoreOf u) cv).2).dbSave v }

section Rollback

variable {s : Session} {tid : String} {w : World}

/-- A rollback that returns `t` found an applied record, wrote all its values before into the
schematic the record names, and asked the tunnel to mark it. -/
theorem vfpRollbackTransaction_true (h : (vfpRollbackTransaction s tid w).1 = some true) :
    ∃ u v cv db, tid ≠ "" ∧ w.tunnel.transactions.records.get? (.str tid) = some u ∧
      Obj.get u "status" = .str "applied" ∧ openRecorded u w.db = some (v, cv, db) ∧
      (setParams "value" (restoreOf u) cv).1 = true ∧
      (vfpRollbackTransaction s tid w).2 = markRolledBack s tid (savedRollback u v cv db w) := by
  unfold vfpRollbackTransaction at h ⊢
  dsimp only at h ⊢
  by_cases hok : (vfpRpcParam s .transactionRollback "transaction_id" tid w).1.ok = true
  · obtain ⟨htid, u, hrec, hstatus, hpayload, hworld⟩ := rollback_ok hok
    obtain ⟨htxn, hrestore⟩ := vfpAlistGet_rollback u (Obj.getD u "before" (.arr []))
    rw [if_pos hok] at h ⊢
    rw [hpayload, hworld, htxn, hrestore] at h ⊢
    split at h
    · rename_i hcellview
      rw [if_pos hcellview]
      cases hopen : openRecorded u w.db with
      | none =>
        rw [show openSchematic _ _ w.db = none from hopen] at h
        cases Option.some.inj h
      | some out =>
        obtain ⟨v, cv, db⟩ := out
        rw [show openSchematic _ _ w.db = some (v, cv, db) from hopen] at h ⊢
        dsimp only at h ⊢
        split at h
        · rename_i hlist
          rw [if_pos hlist]
          rcases restoreParams_eq (restoreOf u) cv with heq | ⟨done, _, _, _, _, heq⟩
          · rw [show restoreParams (Value.ofJson (Obj.getD u "before" (.arr []))).toList (true, cv) = _ from heq]
              at h ⊢
            dsimp only at h ⊢
            split at h
            · rename_i hchecked
              rw [if_pos hchecked]
              by_cases hall : (setParams "value" (restoreOf u) cv).1 = true
              · refine ⟨u, v, cv, db, htid, hrec, hstatus, hopen, hall, ?_⟩
                rw [if_pos hall]
                rfl
              · rw [if_neg hall] at h
                cases Option.some.inj h
            · cases h
          · rw [show restoreParams (Value.ofJson (Obj.getD u "before" (.arr []))).toList (true, cv) = _ from heq]
              at h
            cases h
        · cases h
    · cases h
  · rw [if_neg hok] at h
    cases Option.some.inj h

/-- What a rollback that returns `t` does to the design: the schematic of the cell that the record names
gets the values, and the other views are as they were. -/
theorem vfpRollbackTransaction_restores {u : Obj} {lib cell : String}
    (h : (vfpRollbackTransaction s tid w).1 = some true)
    (hrec : w.tunnel.transactions.records.get? (.str tid) = some u)
    (hlib : vfpAlistGet (vfpAlistGet (Value.ofJson (.obj u)) "cellview") "lib" = .str lib)
    (hcell : vfpAlistGet (vfpAlistGet (Value.ofJson (.obj u)) "cellview") "cell" = .str cell) :
    ∃ cv, w.db.contents (schematicOf lib cell) = some cv ∧
      (vfpRollbackTransaction s tid w).2.db.contents (schematicOf lib cell) =
        some (setParams "value" (restoreOf u) cv).2 ∧
      ∀ v, v ≠ schematicOf lib cell →
        (vfpRollbackTransaction s tid w).2.db.contents v = w.db.contents v := by
  obtain ⟨u', v, cv, db, _, hrec', _, hopen, _, hworld⟩ := vfpRollbackTransaction_true h
  obtain rfl : u = u' := Option.some.inj (hrec.symm.trans hrec')
  obtain ⟨l, c, hl, hc, rfl, hcontents, _, rfl⟩ := openSchematic_eq_some hopen
  obtain rfl : lib = l := Value.str.inj (hlib.symm.trans hl)
  obtain rfl : cell = c := Value.str.inj (hcell.symm.trans hc)
  obtain ⟨o, ho⟩ : ∃ o, (w.db.hold (schematicOf lib cell) cv (w.db.handles (schematicOf lib cell) + 1)
      (w.db.windows (schematicOf lib cell))).opened (schematicOf lib cell) = some o := by
    rw [Database.opened_hold, Opened.mk?, dif_pos (by omega)]
    exact ⟨_, rfl⟩
  rw [hworld, db_markRolledBack]
  refine ⟨cv, hcontents, (contents_edit_dbSave _ ho).1, ?_⟩
  intro v hv
  exact ((Database.sameAt_hold hv).trans (sameAt_edit_dbSave hv)).contents

end Rollback

section Snapshots

variable {printer : Printer} {cv : CellView} {changes : List Value} {k : Value × Value}

/-- Parameters that are there are named by strings. -/
theorem str_of_param? (h : (cv.param? k).isSome = true) : ∃ i p, k = (.str i, .str p) := by
  unfold CellView.param? at h
  rw [Option.isSome_map] at h
  obtain ⟨p, hp⟩ := Option.isSome_iff_exists.mp h
  obtain ⟨i, hi, hip⟩ := Option.bind_eq_some_iff.mp hp
  obtain ⟨params, _, hfind⟩ := Option.bind_eq_some_iff.mp hip
  have hnamed : DbInst.named k.1 i = true := List.find?_some (l := cv.instances) hi
  have hinst : Value.str i.name = k.1 := of_decide_eq_true hnamed
  have hnamed' : CdfParam.named k.2 p = true := List.find?_some hfind
  have hparam : Value.str p.name = k.2 := of_decide_eq_true hnamed'
  exact ⟨i.name, p.name, Prod.ext hinst.symm hparam.symm⟩

/-- All parameters hold strings. -/
def StringValued (cv : CellView) : Prop := ∀ k x, cv.param? k = some x → ∃ s, x = .str s

/-- The values an array of a record gives to the parameters. -/
def valuesOf (snapshot : Json) (k : Value × Value) : Option Value :=
  lastWrite (writesOf "value" (Value.ofJson snapshot).toList) k

/-- One element of a snapshot, read back: the text of the value. -/
theorem read_snapshotEntry {ch : Value} (hthere : (cv.param? (target ch)).isSome = true) :
    (target (Value.ofJson (snapshotEntry printer cv ch)),
        vfpAlistGet (Value.ofJson (snapshotEntry printer cv ch)) "value") =
      (target ch, .str (vfpToStr printer ((cv.param? (target ch)).getD .nil))) := by
  obtain ⟨i, p, hk⟩ := str_of_param? hthere
  have hvalue : vfpGetInstanceParamValue cv (target ch).1 (target ch).2 = (cv.param? (target ch)).getD .nil :=
    vfpGetInstanceParamValue_eq cv _ _
  have hunique : ((show Obj from [("instance", Json.str i), ("param", .str p),
      ("value", .str (vfpToStr printer ((cv.param? (.str i, .str p)).getD .nil)))]).map Prod.fst).Nodup := by
    simp
  unfold snapshotEntry
  rw [hvalue, hk]
  dsimp only [vfpToJson]
  unfold target
  rw [vfpAlistGet_obj hunique, vfpAlistGet_obj hunique, vfpAlistGet_obj hunique]
  rfl

/-- What a rollback of a snapshot of parameters that are there writes. -/
theorem writesOf_snapshot (hthere : ∀ ch ∈ changes, (cv.param? (target ch)).isSome = true) :
    writesOf "value" (Value.ofJson (vfpSnapshotJson printer cv changes)).toList =
      changes.map fun ch => (target ch, .str (vfpToStr printer ((cv.param? (target ch)).getD .nil))) := by
  unfold writesOf vfpSnapshotJson
  rw [Value.toList_ofJson_arr, List.map_map, List.map_map]
  exact List.map_congr_left fun ch hch => read_snapshotEntry (hthere ch hch)

/-- A snapshot of parameters that hold strings gives each of them the value it has. -/
theorem valuesOf_snapshot (hstrings : StringValued cv)
    (hthere : ∀ ch ∈ changes, (cv.param? (target ch)).isSome = true) (k : Value × Value) :
    valuesOf (vfpSnapshotJson printer cv changes) k =
      if k ∈ changes.map target then cv.param? k else none := by
  have hread : writesOf "value" (Value.ofJson (vfpSnapshotJson printer cv changes)).toList =
      changes.map fun ch => (target ch, (cv.param? (target ch)).getD .nil) := by
    rw [writesOf_snapshot hthere]
    refine List.map_congr_left fun ch hch => ?_
    obtain ⟨x, hx⟩ := Option.isSome_iff_exists.mp (hthere ch hch)
    obtain ⟨text, rfl⟩ := hstrings _ _ hx
    rw [hx, Option.getD_some, vfpToStr]
  have hkeys : (changes.map fun ch => (target ch, (cv.param? (target ch)).getD .nil)).map Prod.fst =
      changes.map target := by
    rw [List.map_map]
    rfl
  unfold valuesOf
  rw [hread]
  by_cases hk : k ∈ changes.map target
  · have hagree : ∀ e ∈ changes.map fun ch => (target ch, (cv.param? (target ch)).getD .nil),
        e.2 = (cv.param? e.1).getD .nil := by
      intro e he
      obtain ⟨ch, _, rfl⟩ := List.mem_map.mp he
      rfl
    rw [if_pos hk, lastWrite_eq_of_mem (fun k => (cv.param? k).getD .nil) hagree (by rw [hkeys]; exact hk)]
    obtain ⟨ch, hch, rfl⟩ := List.mem_map.mp hk
    obtain ⟨x, hx⟩ := Option.isSome_iff_exists.mp (hthere ch hch)
    rw [hx]
    rfl
  · rw [if_neg hk, ← Option.not_isSome_iff_eq_none, isSome_lastWrite, hkeys]
    exact hk

end Snapshots

/-- A stored transaction as a change of the journal. -/
def changeOf (u : Obj) : Change (Value × Value) Value where
  before := valuesOf (Obj.getD u "before" (.arr []))
  after := valuesOf (Obj.getD u "after" (.arr []))
  standing := (Obj.get u "status").pyEq (.str "applied")

/-- A record names the schematic of a cell. -/
def onSchematic (lib cell : String) (u : Obj) : Bool :=
  decide (vfpAlistGet (Value.ofJson (Obj.get u "cellview")) "lib" = .str lib) &&
    decide (vfpAlistGet (Value.ofJson (Obj.get u "cellview")) "cell" = .str cell)

/-- The journal that the stored transactions on a schematic make, oldest first. -/
def journalOf (lib cell : String) (t : Tunnel.Tunnel) : List (Change (Value × Value) Value) :=
  (t.transactions.records.values.filter (onSchematic lib cell)).map changeOf

/-- The journal that some entries of the store make. -/
def journalAmong (lib cell : String) (entries : List (Key × Obj)) : List (Change (Value × Value) Value) :=
  ((entries.map Prod.snd).filter (onSchematic lib cell)).map changeOf

/-- A transaction is on a schematic if its record names that cell. -/
theorem onSchematic_iff {lib cell : String} {u : Obj} : onSchematic lib cell u = true ↔
    vfpAlistGet (Value.ofJson (Obj.get u "cellview")) "lib" = .str lib ∧
      vfpAlistGet (Value.ofJson (Obj.get u "cellview")) "cell" = .str cell := by
  simp [onSchematic]

/-- The journal around a transaction on the schematic. -/
theorem journalOf_of_split {lib cell : String} {t : Tunnel.Tunnel} {older newer : List (Key × Obj)} {k : Key} {u : Obj}
    (hsplit : t.transactions.records.entries = older ++ (k, u) :: newer) (hon : onSchematic lib cell u = true) :
    journalOf lib cell t = journalAmong lib cell older ++ changeOf u :: journalAmong lib cell newer := by
  unfold journalOf Dict.values
  rw [hsplit, List.map_append, List.filter_append, List.map_append, List.map_cons, List.filter_cons_of_pos hon]
  rfl

/-- Its status does not matter to that. -/
@[simp] theorem onSchematic_set_status (lib cell : String) (u : Obj) (status : Json) :
    onSchematic lib cell (Obj.set u "status" status) = onSchematic lib cell u := by
  unfold onSchematic
  rw [Obj.get_set_ne _ (by decide)]

/-- A record that is no longer applied is a change that was undone. -/
theorem changeOf_undone (u : Obj) :
    changeOf (Obj.set u "status" (.str "rolled_back")) = (changeOf u).undone := by
  unfold changeOf Change.undone
  simp [Obj.getD, Json.pyEq, Json.key?]

end VirtuosoFlow.Plugin
