import VirtuosoFlow.Plugin.LayoutRollback

/-!
# Failed layout edits

The runner still has the view open when a failed edit is to be undone, so the checkpoint is
never put back. What undoes a failed edit, if anything does, is that the view is closed without
a save.
-/

namespace VirtuosoFlow.Plugin

open Base Tunnel

section Held

variable {c : Cadence} {db : Database} {v ckpt : ViewName} {o : Opened}

/-- A restore of a view that a program holds, and the program's closing it then: the view keeps what it
has in memory as long as somebody else holds it. -/
theorem closed_after_restore (hopened : db.opened v = some o) (hheld : 0 < o.handles) (hne : v ≠ ckpt) :
    (c.dbClose v (vfpLayoutRestoreFromView c v ckpt db).2).disk v = db.disk v ∧
      (c.dbClose v (vfpLayoutRestoreFromView c v ckpt db).2).contents v =
        if 0 < o.handles - 1 + o.windows then some o.contents else db.disk v := by
  have hhandles : db.handles v = o.handles := by rw [Database.handles, hopened]; rfl
  have hwindows : db.windows v = o.windows := by rw [Database.windows, hopened]; rfl
  have hheld' : 0 < db.handles v := by omega
  obtain ⟨hkept, hhandles', hwindows'⟩ := @vfpLayoutRestoreFromView_held c v ckpt db hne hheld'
  generalize (vfpLayoutRestoreFromView c v ckpt db).2 = restored at *
  have hsome : 0 < restored.handles v + restored.windows v := by omega
  obtain ⟨o', ho'⟩ := Option.isSome_iff_exists.mp (Database.isSome_opened.mpr hsome)
  have hcontents : o'.contents = o.contents := by
    have hsame := (hkept v).contents
    rw [Database.contents_of_opened ho', Database.contents_of_opened hopened] at hsame
    exact Option.some.inj hsame
  have hholders : restored.handles v = o'.handles ∧ restored.windows v = o'.windows := by
    rw [Database.handles, Database.windows, ho']
    exact ⟨rfl, rfl⟩
  have hpos : 0 < o'.handles := by omega
  have hiff : 0 < o'.handles - 1 + o'.windows ↔ 0 < o.handles - 1 + o.windows := by omega
  rw [c.close_disk, Cadence.contents_close ho' hpos, hcontents, (hkept v).disk]
  exact ⟨rfl, if_congr hiff rfl rfl⟩

end Held

section Undone

variable {s : Session} {prims : Registry} {name : String} {params : Value} {w : World} {v : ViewName}
  {pre : CellView} {prim : Primitive} {editFn : Edit} {r : Obj}

/-- A view has what it had, in the database and on disk. -/
def Undone (v : ViewName) (w w' : World) : Prop :=
  w'.db.disk v = w.db.disk v ∧ w'.db.contents v = w.db.contents v

/-- The checkpoint of an edit is taken while the runner holds the view. -/
def TakenFor (s : Session) (name : String) (v : ViewName) (pre : CellView) (w : World) : Prop :=
  CheckpointTaken s name v (w.db.hold v pre (w.db.handles v + 1) (w.db.windows v))

/-- An edit function that fails: nothing was saved, and the edit is gone if the view is purged. -/
theorem undone_of_failed (hpre : w.db.contents v = some pre) (htaken : TakenFor s name v pre w)
    (hedit : (errset (editFn pre).1).truthy = false) :
    Undone v w (ranEdit s name editFn v pre w) ↔ w.db.opened v = none ∨ (editFn pre).2 = pre := by
  obtain ⟨o, hopened, _, hhandles, hwindows⟩ := opened_held v pre w.db
  have hne : v ≠ checkpointOf s name v := CheckpointTaken.ne htaken
  obtain ⟨hedited, hdisk⟩ := editedLayout_of_opened s name editFn pre hopened hne
  have hheld : 0 < o.handles := by omega
  obtain ⟨hafterDisk, hafterContents⟩ := @closed_after_restore s.cadence _ v _ _ hedited hheld hne
  have htaken' : CheckpointTaken s name v
      (show World from { w with db := w.db.hold v pre (w.db.handles v + 1) (w.db.windows v) }).db := htaken
  have hdb : (ranEdit s name editFn v pre w).db = s.cadence.dbClose v
      (vfpLayoutRestoreFromView s.cadence v (checkpointOf s name v) (editedLayout s name editFn v pre
        (w.db.hold v pre (w.db.handles v + 1) (w.db.windows v)))).2 := by
    rw [ranEdit, editView, vfpLayoutTxnApply_failed htaken' hedit]
  have hpurged : w.db.opened v = none ↔ ¬ 0 < w.db.handles v + w.db.windows v := by
    rw [← Database.isSome_opened, Option.not_isSome_iff_eq_none]
  have hholders : 0 < o.handles - 1 + o.windows ↔ 0 < w.db.handles v + w.db.windows v := by omega
  rw [Undone, hdb, hafterDisk, hafterContents, hdisk, Database.disk_hold, hpurged, hpre]
  by_cases hothers : 0 < w.db.handles v + w.db.windows v
  · rw [if_pos (hholders.mpr hothers), Option.some.injEq]
    simp [hothers]
  · have hclosed : w.db.disk v = some pre := by
      rw [← hpre, Database.contents_of_closed (hpurged.mpr hothers)]
    rw [if_neg (fun h => hothers (hholders.mp h))]
    simp [hothers, hclosed]

/-- An edit that is not accepted: it was saved before the tunnel was asked. -/
theorem undone_of_rejected (hpre : w.db.contents v = some pre) (htaken : TakenFor s name v pre w)
    (hedit : (errset (editFn pre).1).truthy = true) (hnil : (editView s name editFn v pre w).1 = .nil) :
    Undone v w (ranEdit s name editFn v pre w) ↔ (editFn pre).2 = pre ∧ w.db.disk v = some pre := by
  obtain ⟨o, hopened, _, hhandles, hwindows⟩ := opened_held v pre w.db
  have hne : v ≠ checkpointOf s name v := CheckpointTaken.ne htaken
  have htaken' : CheckpointTaken s name v
      (show World from { w with db := w.db.hold v pre (w.db.handles v + 1) (w.db.windows v) }).db := htaken
  unfold ranEdit
  unfold editView at hnil ⊢
  cases hok : (sentEdit s name editFn v pre
      { w with db := w.db.hold v pre (w.db.handles v + 1) (w.db.windows v) }).1.ok with
  | true =>
    rw [vfpLayoutTxnApply_accepted htaken' hedit hok] at hnil
    cases hnil
  | false =>
    obtain ⟨hsaved, hdisk, _⟩ := saved_editedLayout s name editFn pre hopened htaken
    have hheld : 0 < o.handles := by omega
    obtain ⟨hafterDisk, hafterContents⟩ := @closed_after_restore s.cadence _ v _ _ hsaved hheld hne
    have hdb : (sentEdit s name editFn v pre
        { w with db := w.db.hold v pre (w.db.handles v + 1) (w.db.windows v) }).2.db =
        (editedLayout s name editFn v pre
          (w.db.hold v pre (w.db.handles v + 1) (w.db.windows v))).dbSave v := db_sendTransaction
    rw [vfpLayoutTxnApply_rejected htaken' hedit hok]
    dsimp only
    rw [hdb, Undone, hafterDisk, hafterContents, hdisk, ite_self, hpre]
    constructor
    · rintro ⟨hondisk, hshown⟩
      exact ⟨Option.some.inj hshown, hondisk.symm.trans hshown⟩
    · rintro ⟨hsame, hondisk⟩
      exact ⟨by rw [hondisk, hsame], congrArg some hsame⟩

/-- A failed edit whose checkpoint was taken was undone when the runner returns exactly if it had not saved
and nobody else had the view open, or it changed nothing, neither in memory nor by the save. -/
theorem failed_edit_undone_iff (hprim : prims name = some prim) (hview : paramsView params = some v)
    (hpre : w.db.contents v = some pre)
    (hrun : (vfpLayoutRunPrimitive s prims name params false w).1 = some r)
    (hfailed : Obj.get r "status" = .str "failed") (htaken : TakenFor s name v pre w) :
    Undone v w (vfpLayoutRunPrimitive s prims name params false w).2 ↔
      if (errset (prim.editFn pre params).1).truthy then
        (prim.editFn pre params).2 = pre ∧ w.db.disk v = some pre
      else w.db.opened v = none ∨ (prim.editFn pre params).2 = pre := by
  obtain ⟨prim', v', pre', hprim', hview', hpre', htype⟩ := vfpLayoutRunPrimitive_some hrun
  obtain rfl : prim = prim' := Option.some.inj (hprim.symm.trans hprim')
  obtain rfl : v = v' := Option.some.inj (hview.symm.trans hview')
  obtain rfl : pre = pre' := Option.some.inj (hpre.symm.trans hpre')
  have hresult := vfpLayoutRunPrimitive_edit (s := s) hprim hview hpre htype
  rw [hresult] at hrun ⊢
  obtain rfl := Option.some.inj hrun
  have hnil : (editView s name (fun c => prim.editFn c params) v pre w).1 = .nil := by
    by_contra hid
    have htruthy : (Value.str (transactionId s)).truthy = true := rfl
    rw [(editRecorded hpre hid).1, if_pos htruthy] at hfailed
    exact absurd (Json.str.inj hfailed) (by decide)
  by_cases hedit : (errset (prim.editFn pre params).1).truthy = true
  · rw [if_pos hedit]
    exact undone_of_rejected hpre htaken hedit hnil
  · rw [if_neg hedit]
    exact undone_of_failed hpre htaken (Bool.eq_false_of_not_eq_true hedit)

/-- A primitive that raises after it has widened the path. -/
def widenAndRaise : Primitive :=
  { widenNet with editFn := fun cv params => (none, (vfpPrimWidenNetEdit cv params).2) }

/-- The registry with this primitive. -/
def Registry.raising : Registry := vfpLayoutRegisterPrimitive "widen_net" widenAndRaise fun _ => none

/-- A primitive that raises in a view named `layout`. -/
theorem failed_edit_undone_iff_sample :
    Undone ⟨"lib", "top", "layout"⟩ (sampleLayoutWorld "layout")
      (vfpLayoutRunPrimitive .sample .raising "widen_net" (sampleWiden "layout") false
        (sampleLayoutWorld "layout")).2 := by
  have hprim : Registry.raising "widen_net" = some widenAndRaise := by rfl
  have hview : paramsView (sampleWiden "layout") = some ⟨"lib", "top", "layout"⟩ := by rfl
  have hpre : (sampleLayoutWorld "layout").db.contents ⟨"lib", "top", "layout"⟩ = some samplePathLayout := by
    rfl
  have htaken : TakenFor .sample "widen_net" ⟨"lib", "top", "layout"⟩ samplePathLayout
      (sampleLayoutWorld "layout") := by rfl
  have hundone := failed_edit_undone_iff (s := .sample) hprim hview hpre (by rfl) (by rfl) htaken
  rw [if_neg (by decide)] at hundone
  exact hundone.mpr (.inl rfl)

/-- A process that cannot reach the tunnel. -/
def Session.unreachable : Session := { Session.sample with exchange := fun _ => .requestLost }

/-- A widened path whose transaction the tunnel does not take stays widened. -/
theorem rejected_edit_stays :
    ((vfpLayoutRunPrimitive .unreachable .sample "widen_net" (sampleWiden "layout") false
        (sampleLayoutWorld "layout")).1.map fun r => Obj.get r "status") = some (.str "failed") ∧
      TakenFor .unreachable "widen_net" ⟨"lib", "top", "layout"⟩ samplePathLayout (sampleLayoutWorld "layout") ∧
      ¬ Undone ⟨"lib", "top", "layout"⟩ (sampleLayoutWorld "layout")
        (vfpLayoutRunPrimitive .unreachable .sample "widen_net" (sampleWiden "layout") false
          (sampleLayoutWorld "layout")).2 := by
  refine ⟨by rfl, by rfl, ?_⟩
  rintro ⟨hdisk, _⟩
  have hbefore : (sampleLayoutWorld "layout").db.disk ⟨"lib", "top", "layout"⟩ = some samplePathLayout := by rfl
  have hwidened : (vfpLayoutRunPrimitive .unreachable .sample "widen_net" (sampleWiden "layout") false
      (sampleLayoutWorld "layout")).2.db.disk ⟨"lib", "top", "layout"⟩ =
      some { samplePathLayout with shapes := [⟨"path", "M1", some "a", .fix 2⟩] } := by rfl
  rw [hdisk, hbefore] at hwidened
  exact absurd hwidened (by decide)

end Undone

end VirtuosoFlow.Plugin
