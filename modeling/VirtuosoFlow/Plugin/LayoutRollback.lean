import VirtuosoFlow.Plugin.LayoutPrim

/-!
# Rolling layout transactions back

A rollback that returns `t` has put the recorded checkpoint in the place of the view `layout`,
whatever view the transaction edited.
-/

namespace VirtuosoFlow.Plugin

open Base Tunnel

/-- The view `layout` of a cell. -/
def layoutOf (lib cell : String) : ViewName := ⟨lib, cell, "layout"⟩

/-- A copy that a transaction of one of the two kinds took. -/
def ViewName.IsCheckpoint (u : ViewName) : Prop :=
  ∃ base rest, (base = "layout" ∨ base = "schematic") ∧ u.view = base ++ "_vfpckpt_" ++ rest

/-- A record names a cell and the view of a checkpoint. -/
structure NamesCheckpoint (u : Obj) (lib cell ckpt : String) : Prop where
  lib : vfpAlistGet (vfpAlistGet (Value.ofJson (.obj u)) "cellview") "lib" = .str lib
  cell : vfpAlistGet (vfpAlistGet (Value.ofJson (.obj u)) "cellview") "cell" = .str cell
  ckpt : vfpAlistGet (vfpAlistGet (Value.ofJson (.obj u)) "checkpoint") "view" = .str ckpt

section Names

variable {s : Session} {tag lib cell ckpt : String} {editFn : Edit} {v : ViewName} {pre : CellView} {u : Obj}

/-- The checkpoints of layout transactions are checkpoints. -/
theorem isCheckpoint_checkpointOf : (checkpointOf s tag v).IsCheckpoint := by
  refine ⟨"layout", tag ++ "_" ++ vfpCompactTime s, .inl rfl, ?_⟩
  simp only [checkpointOf, String.append_assoc]

/-- The layout of a cell is no checkpoint. -/
theorem not_isCheckpoint_layoutOf : ¬ (layoutOf lib cell).IsCheckpoint := by
  rintro ⟨base, rest, hbase, heq⟩
  have hlength : "layout".length = (base ++ "_vfpckpt_" ++ rest).length := congrArg String.length heq
  have hinfix : "_vfpckpt_".length = 9 := by decide
  have hshort : "layout".length = 6 := by decide
  simp only [String.length_append] at hlength
  omega

/-- The record of a layout edit names its cell and its checkpoint. -/
theorem namesCheckpoint_stored (h : StoredFor s (editRecord s tag editFn v pre) u) :
    NamesCheckpoint u v.lib v.cell (checkpointOf s tag v).view := by
  have hcellview : Obj.get u "cellview" =
      .obj [("lib", .str v.lib), ("cell", .str v.cell), ("view", .str "layout")] := by
    rw [Obj.get, Obj.getD, h.kept "cellview" _ (by decide) rfl, Option.getD_some]
  have hckpt : Obj.get u "checkpoint" = checkpointBlock s (checkpointOf s tag v).view := by
    rw [Obj.get, Obj.getD, h.checkpoint, editRecord, layoutRecord]
    cases s.connectivity pre (editFn pre).2 <;> rfl
  refine ⟨?_, ?_, ?_⟩
  · rw [vfpAlistGet_obj h.unique, hcellview, vfpAlistGet_obj (by simp)]
    rfl
  · rw [vfpAlistGet_obj h.unique, hcellview, vfpAlistGet_obj (by simp)]
    rfl
  · rw [vfpAlistGet_obj h.unique, hckpt, checkpointBlock, vfpAlistGet_obj (by simp)]
    rfl

/-- A record names one checkpoint. -/
theorem NamesCheckpoint.eq {lib' cell' ckpt' : String} (h : NamesCheckpoint u lib cell ckpt)
    (h' : NamesCheckpoint u lib' cell' ckpt') : lib = lib' ∧ cell = cell' ∧ ckpt = ckpt' :=
  ⟨Value.str.inj (h.lib.symm.trans h'.lib), Value.str.inj (h.cell.symm.trans h'.cell),
    Value.str.inj (h.ckpt.symm.trans h'.ckpt)⟩

end Names

section Rollback

variable {s : Session} {tid : String} {w : World}

/-- A record whose restore was made names its cell and its checkpoint by strings. -/
theorem restoreLayout_true {c : Cadence} {lib cell ckpt : Value} {db : Database}
    (h : (restoreLayout c lib cell ckpt db).1 = some true) :
    ∃ l c' k, lib = .str l ∧ cell = .str c' ∧ ckpt = .str k ∧
      (vfpLayoutRestoreFromView c (layoutOf l c') ⟨l, c', k⟩ db).1 = true ∧
      (restoreLayout c lib cell ckpt db).2 = (vfpLayoutRestoreFromView c (layoutOf l c') ⟨l, c', k⟩ db).2 := by
  unfold restoreLayout at h ⊢
  split at h
  · exact ⟨_, _, _, rfl, rfl, rfl, Option.some.inj h, rfl⟩
  · split at h
    · cases Option.some.inj h
    · cases h

/-- A layout rollback that returns `t` found an applied record, restored the view `layout` of its cell
from the checkpoint it names, and asked the tunnel to mark it. -/
theorem vfpLayoutTxnRollback_true (h : (vfpLayoutTxnRollback s tid w).1 = some true) :
    ∃ u lib cell ckpt, tid ≠ "" ∧ w.tunnel.transactions.records.get? (.str tid) = some u ∧
      Obj.get u "status" = .str "applied" ∧ NamesCheckpoint u lib cell ckpt ∧
      (vfpLayoutRestoreFromView s.cadence (layoutOf lib cell) ⟨lib, cell, ckpt⟩ w.db).1 = true ∧
      (vfpLayoutTxnRollback s tid w).2 = markRolledBack s tid { w with
        db := (vfpLayoutRestoreFromView s.cadence (layoutOf lib cell) ⟨lib, cell, ckpt⟩ w.db).2 } := by
  unfold vfpLayoutTxnRollback at h ⊢
  dsimp only at h ⊢
  by_cases hok : (vfpRpcParam s .transactionRollback "transaction_id" tid w).1.ok = true
  · obtain ⟨htid, u, hrec, hstatus, hpayload, hworld⟩ := rollback_ok hok
    obtain ⟨htxn, _⟩ := vfpAlistGet_rollback u (Obj.getD u "before" (.arr []))
    rw [if_pos hok] at h ⊢
    rw [hpayload, hworld, htxn] at h ⊢
    have hnames := fun lib cell ckpt => @NamesCheckpoint.mk u lib cell ckpt
    generalize vfpAlistGet (vfpAlistGet (Value.ofJson (.obj u)) "checkpoint") "view" = ckpt at *
    generalize vfpAlistGet (vfpAlistGet (Value.ofJson (.obj u)) "cellview") "lib" = lib at *
    generalize vfpAlistGet (vfpAlistGet (Value.ofJson (.obj u)) "cellview") "cell" = cell at *
    split at h
    · rename_i hlists
      rw [if_pos hlists]
      by_cases hckpt : ckpt.truthy = true
      · rw [if_pos hckpt] at h ⊢
        cases hout : (restoreLayout s.cadence lib cell ckpt w.db).1 with
        | none => simp [hout] at h
        | some restored =>
          cases restored with
          | false => simp [hout] at h
          | true =>
            obtain ⟨l, c, k, rfl, rfl, rfl, hrestored, hdb⟩ := restoreLayout_true hout
            rw [hdb]
            exact ⟨u, l, c, k, htid, hrec, hstatus, hnames l c k rfl rfl rfl, hrestored, rfl⟩
      · rw [if_neg hckpt] at h
        cases Option.some.inj h
    · cases h
  · rw [if_neg hok] at h
    cases Option.some.inj h

/-- What a layout rollback that returns `t` does to the design: the view `layout` gets what the
checkpoint has, and the other views are as they were. -/
theorem vfpLayoutTxnRollback_restores {u : Obj} {lib cell ckpt : String}
    (h : (vfpLayoutTxnRollback s tid w).1 = some true)
    (hrec : w.tunnel.transactions.records.get? (.str tid) = some u) (hnames : NamesCheckpoint u lib cell ckpt) :
    (vfpLayoutTxnRollback s tid w).2.db.contents (layoutOf lib cell) = w.db.contents ⟨lib, cell, ckpt⟩ ∧
      ∀ v, v ≠ layoutOf lib cell → Kept w.db (vfpLayoutTxnRollback s tid w).2.db v := by
  obtain ⟨u', lib', cell', ckpt', _, hrec', _, hnames', hrestored, hworld⟩ := vfpLayoutTxnRollback_true h
  obtain rfl : u = u' := Option.some.inj (hrec.symm.trans hrec')
  obtain ⟨rfl, rfl, rfl⟩ := hnames.eq hnames'
  obtain ⟨src, hsrc, hcontents⟩ := vfpLayoutRestoreFromView_true hrestored
  rw [hworld, db_markRolledBack]
  refine ⟨hcontents.trans hsrc.symm, ?_⟩
  intro v hv
  exact vfpLayoutRestoreFromView_others hv

end Rollback

section EditedView

variable {s s' : Session} {prims : Registry} {name tid : String} {params : Value} {dryRun : Bool}
  {w w' : World} {v : ViewName} {pre : CellView} {prim : Primitive} {r : Obj}

/-- A view of a cell is as it was, and so are the other views of the cell, checkpoints aside. -/
def ViewRestored (v : ViewName) (w w' : World) : Prop :=
  w'.db.contents v = w.db.contents v ∧
    ∀ u : ViewName, u.lib = v.lib → u.cell = v.cell → u ≠ v → ¬ u.IsCheckpoint →
      w'.db.contents u = w.db.contents u

/-- Rolling back the transaction that the runner reported restores the edited view and no other exactly
if the view is named `layout`, or the edit changed nothing and the view `layout` had the same
contents. -/
theorem rollback_restores_view_iff (hprim : prims name = some prim) (hview : paramsView params = some v)
    (hpre : w.db.contents v = some pre)
    (hrun : (vfpLayoutRunPrimitive s prims name params dryRun w).1 = some r)
    (hreport : Obj.get r "transaction_id" = .str tid) (htid : tid ≠ "")
    (hidle : ∀ u, w'.db.contents u =
      (vfpLayoutRunPrimitive s prims name params dryRun w).2.db.contents u)
    (hrecord : w'.tunnel.transactions.records.get? (.str tid) =
      (vfpLayoutRunPrimitive s prims name params dryRun w).2.tunnel.transactions.records.get? (.str tid))
    (hback : (vfpLayoutTxnRollback s' tid w').1 = some true) :
    ViewRestored v w (vfpLayoutTxnRollback s' tid w').2 ↔
      v.view = "layout" ∨ (prim.editFn pre params).2 = pre ∧
        w.db.contents (layoutOf v.lib v.cell) = some pre := by
  obtain ⟨prim', v', pre', hprim', hview', rfl, hedit⟩ := vfpLayoutRunPrimitive_reports hrun hreport htid
  obtain rfl : prim = prim' := Option.some.inj (hprim.symm.trans hprim')
  obtain rfl : v = v' := Option.some.inj (hview.symm.trans hview')
  obtain rfl : pre = pre' := Option.some.inj (hpre.symm.trans hedit.edited.found)
  obtain ⟨u, hstored, hrecords⟩ := hedit.stored
  rw [hrecords, Dict.get?_insert_self] at hrecord
  have hnames := namesCheckpoint_stored hstored
  obtain ⟨hlayout, hothers⟩ := vfpLayoutTxnRollback_restores hback hrecord hnames
  have hckpt : w'.db.contents (checkpointOf s name v) = some pre := by
    rw [hidle, hedit.edited.checkpoint]
  have hckpt' := hlayout.trans hckpt
  generalize (vfpLayoutTxnRollback s' (transactionId s) w').2 = back at *
  -- the other views have what the edit left, and that is what they had before it
  have hunedited : ∀ u, u ≠ layoutOf v.lib v.cell → u ≠ v → ¬ u.IsCheckpoint →
      back.db.contents u = w.db.contents u := by
    intro u hu huv hcheckpoint
    have hne : u ≠ checkpointOf s name v := by
      rintro rfl
      exact hcheckpoint isCheckpoint_checkpointOf
    rw [(hothers u hu).contents, hidle, (hedit.edited.others u huv hne).contents]
  by_cases hv : v = layoutOf v.lib v.cell
  · have hname : v.view = "layout" := congrArg ViewName.view hv
    refine iff_of_true ⟨?_, ?_⟩ (.inl hname)
    · rw [hpre, ← hckpt', ← hv]
    · intro u _ _ huv hcheckpoint
      exact hunedited u (by rw [← hv]; exact huv) huv hcheckpoint
  · have hname : v.view ≠ "layout" := fun h => hv (by rw [layoutOf, ← h])
    have hedited : back.db.contents v = some (prim.editFn pre params).2 := by
      rw [(hothers v hv).contents, hidle, hedit.edited.shown]
    rw [or_iff_right hname]
    constructor
    · rintro ⟨hback, hrest⟩
      have hlayoutKept := hrest (layoutOf v.lib v.cell) rfl rfl (Ne.symm hv) not_isCheckpoint_layoutOf
      exact ⟨Option.some.inj (hedited.symm.trans (hback.trans hpre)), hlayoutKept.symm.trans hckpt'⟩
    · rintro ⟨hsame, hlayoutPre⟩
      refine ⟨hedited.trans (by rw [hsame, hpre]), ?_⟩
      intro u _ _ huv hcheckpoint
      by_cases hu : u = layoutOf v.lib v.cell
      · rw [hu, hckpt', hlayoutPre]
      · exact hunedited u hu huv hcheckpoint

/-- A layout with one path. -/
def samplePathLayout : CellView where
  viewType := "maskLayout"
  instances := []
  shapes := [⟨"path", "M1", some "a", .fix 1⟩]

/-- A library with this layout under a name, and a fresh tunnel. -/
def sampleLayoutWorld (view : String) : World where
  db :=
    { disk := fun v => if v = ⟨"lib", "top", view⟩ then some samplePathLayout else none
      opened := fun _ => none }
  tunnel := Tunnel.fresh .empty
  inFlight := []

/-- The parameters that widen the path. -/
def sampleWiden (view : String) : Value :=
  .ofJson (.obj [("lib", .str "lib"), ("cell", .str "top"), ("view", .str view), ("net", .str "a"),
    ("width", .int 2)])

/-- The path is widened as a transaction. -/
def sampleWidened (view : String) : World :=
  (vfpLayoutRunPrimitive .sample .sample "widen_net" (sampleWiden view) false (sampleLayoutWorld view)).2

/-- The transaction is rolled back. -/
def sampleWidenedBack (view : String) : Option Bool × World :=
  vfpLayoutTxnRollback .sample (transactionId .sample) (sampleWidened view)

/-- An edit of a view named `layout` that is rolled back. -/
theorem rollback_restores_view_iff_sample :
    ViewRestored ⟨"lib", "top", "layout"⟩ (sampleLayoutWorld "layout") (sampleWidenedBack "layout").2 := by
  have hprim : Registry.sample "widen_net" = some widenNet := by rfl
  have hpre : (sampleLayoutWorld "layout").db.contents ⟨"lib", "top", "layout"⟩ = some samplePathLayout := by
    rfl
  have hback : (sampleWidenedBack "layout").1 = some true := by rfl
  exact (rollback_restores_view_iff (s := .sample) hprim (by rfl) hpre (by rfl) (by rfl) (by decide)
    (fun u => rfl) rfl hback).mpr (.inl rfl)

/-- Rolling back an edit of `layout2` leaves the edit there. -/
theorem rollback_misses_view :
    ((vfpLayoutRunPrimitive .sample .sample "widen_net" (sampleWiden "layout2") false
        (sampleLayoutWorld "layout2")).1.map fun r => Obj.get r "transaction_id") =
      some (.str (transactionId .sample)) ∧
    (sampleWidenedBack "layout2").1 = some true ∧
    ¬ ViewRestored ⟨"lib", "top", "layout2"⟩ (sampleLayoutWorld "layout2") (sampleWidenedBack "layout2").2 := by
  refine ⟨by rfl, by rfl, ?_⟩
  intro h
  have hwidened : (sampleWidenedBack "layout2").2.db.contents ⟨"lib", "top", "layout2"⟩ =
    some { samplePathLayout with shapes := [⟨"path", "M1", some "a", .fix 2⟩] } := by rfl
  rw [h.1] at hwidened
  exact absurd hwidened (by decide)

end EditedView

end VirtuosoFlow.Plugin
