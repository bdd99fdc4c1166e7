import VirtuosoFlow.Plugin.LayoutRollback
import VirtuosoFlow.Plugin.Rollback

/-!
# Two kinds of transactions and two rollbacks

Both kinds of transactions are in one store, and both rollbacks take the id of any of them. What
each of the four combinations leaves follows from what the record of a kind has: a schematic
transaction has the values before and, mostly, a checkpoint; a layout transaction has a
checkpoint only.
-/

namespace VirtuosoFlow.Plugin

open Base Tunnel

/-- The rollback of the menu and the picker, and that of the action `layout.rollback`. -/
inductive RollbackEntry where
  | rollbackTransaction
  | layoutTxnRollback

/-- Whether a rollback of a transaction returns `t`, or nothing if it raises, and the world after it. -/
def RollbackEntry.run : RollbackEntry → Session → String → World → Option Bool × World
  | .rollbackTransaction => vfpRollbackTransaction
  | .layoutTxnRollback => vfpLayoutTxnRollback

/-- The kind of a transaction: with its changes, if it set parameters. -/
inductive TxnKind where
  | schematic (changes : List Value)
  | layoutGeom

/-- A transaction of a kind was applied: the view it edited, what the view had before, its id and its
record. -/
inductive AppliedAs : TxnKind → ViewName → CellView → String → Obj → Prop
  | schematic {s : Session} {proposal : Value} {w : World} {v : ViewName} {pre : CellView}
      {db : Database} {tid : String} {u : Obj} :
      openFor proposal w.db = some (v, pre, db) → (vfpApplyTransaction s proposal w).1 = .str tid →
      (vfpApplyTransaction s proposal w).2.tunnel.transactions.records.get? (.str tid) = some u →
      AppliedAs (.schematic (changesOf proposal)) v pre tid u
  | layoutGeom {s : Session} {prims : Registry} {name : String} {params : Value} {dryRun : Bool}
      {w : World} {v : ViewName} {pre : CellView} {r : Obj} {tid : String} {u : Obj} :
      paramsView params = some v → w.db.contents v = some pre →
      (vfpLayoutRunPrimitive s prims name params dryRun w).1 = some r →
      Obj.get r "transaction_id" = .str tid → tid ≠ "" →
      (vfpLayoutRunPrimitive s prims name params dryRun w).2.tunnel.transactions.records.get? (.str tid) =
        some u → AppliedAs .layoutGeom v pre tid u

/-- The view of the checkpoint that a record names, in the cell of a view. -/
def recordedCheckpoint (v : ViewName) (u : Obj) : ViewName :=
  match vfpAlistGet (vfpAlistGet (Value.ofJson (.obj u)) "checkpoint") "view" with
  | .str ckpt => ⟨v.lib, v.cell, ckpt⟩
  | _ => v

/-- A view has these contents, and the other views of the cell are as they were, checkpoints aside. -/
def BackAsBefore (v : ViewName) (pre : CellView) (w w' : World) : Prop :=
  w'.db.contents v = some pre ∧
    ∀ u : ViewName, u.lib = v.lib → u.cell = v.cell → u ≠ v → ¬ u.IsCheckpoint →
      w'.db.contents u = w.db.contents u

/-- When a rollback can bring back what a transaction of a kind found: the rollback of the menu writes
the texts of the parameters and nothing for a layout transaction, and the layout rollback copies
the checkpoint over the view `layout`. -/
def Recoverable (kind : TxnKind) (entry : RollbackEntry) (v : ViewName) (pre : CellView) (u : Obj)
    (w : World) : Prop :=
  match entry, kind with
  | .rollbackTransaction, .schematic changes =>
    (∀ ch ∈ changes, ∃ text, pre.param? (target ch) = some (.str text)) ∧
      ∃ cv, w.db.contents v = some cv ∧ paramSlots.DifferOnlyAt (changes.map target) pre cv
  | .rollbackTransaction, .layoutGeom => w.db.contents v = some pre
  | .layoutTxnRollback, _ =>
    if v = layoutOf v.lib v.cell then w.db.contents (recordedCheckpoint v u) = some pre
    else w.db.contents v = some pre ∧
      w.db.contents (layoutOf v.lib v.cell) = w.db.contents (recordedCheckpoint v u)

section Records

variable {kind : TxnKind} {v : ViewName} {pre : CellView} {tid : String} {u : Obj} {changes : List Value}

/-- The record of an applied transaction names the cell of the view. -/
structure NamesCell (u : Obj) (v : ViewName) : Prop where
  lib : vfpAlistGet (vfpAlistGet (Value.ofJson (.obj u)) "cellview") "lib" = .str v.lib
  cell : vfpAlistGet (vfpAlistGet (Value.ofJson (.obj u)) "cellview") "cell" = .str v.cell

/-- What the record of a schematic transaction has: the texts of the values before, of parameters that
were all there. -/
theorem AppliedAs.schematic_record (h : AppliedAs (.schematic changes) v pre tid u) :
    NamesCell u v ∧ v = schematicOf v.lib v.cell ∧
      (∀ ch ∈ changes, (pre.param? (target ch)).isSome = true) ∧
      ∃ printer, writesOf "value" (restoreOf u) =
        changes.map fun ch => (target ch, .str (vfpToStr printer ((pre.param? (target ch)).getD .nil))) := by
  cases h with
  | @schematic s proposal w _ _ db _ _ hopen hid hrec =>
    have hne : (vfpApplyTransaction s proposal w).1 ≠ .nil := by
      rw [hid]
      simp
    obtain ⟨v', pre', db', u', hopen', hall, htid, _, _, hstored, _, hrecords⟩ :=
      vfpApplyTransaction_ne_nil hne
    obtain ⟨rfl, rfl, rfl⟩ : v = v' ∧ pre = pre' ∧ db = db' := by
      simpa using hopen.symm.trans hopen'
    obtain rfl : tid = transactionId s := Value.str.inj (hid.symm.trans htid)
    rw [hrecords, Dict.get?_insert_self] at hrec
    obtain rfl := Option.some.inj hrec
    obtain ⟨l, c, hlib, hcell, rfl, _⟩ := openSchematic_eq_some hopen
    have hcellview : Obj.get u' "cellview" = .obj [("lib", .str l), ("cell", .str c),
        ("view", .str "schematic")] := by
      have hlookup : (sentApply s proposal (schematicOf l c) pre db).lookup "cellview" = some (.obj
          [("lib", .str l), ("cell", .str c), ("view", .str "schematic")]) := by
        show some _ = _
        rw [hlib, hcell]
        rfl
      rw [Obj.get, Obj.getD, hstored.kept "cellview" _ (by decide) hlookup, Option.getD_some]
    have hbefore : Obj.getD u' "before" (.arr []) = vfpSnapshotJson s.printer pre (changesOf proposal) := by
      rw [Obj.getD, hstored.kept "before" _ (by decide) (by rfl)]
      rfl
    have hthere := setParams_fst.mp hall
    refine ⟨⟨?_, ?_⟩, rfl, hthere, s.printer, ?_⟩
    · rw [vfpAlistGet_obj hstored.unique, hcellview, vfpAlistGet_obj (by simp)]
      rfl
    · rw [vfpAlistGet_obj hstored.unique, hcellview, vfpAlistGet_obj (by simp)]
      rfl
    · rw [restoreOf, hbefore]
      exact writesOf_snapshot hthere

/-- What the record of a layout transaction has: no values before. -/
theorem AppliedAs.layout_record (h : AppliedAs .layoutGeom v pre tid u) :
    NamesCell u v ∧ restoreOf u = [] := by
  cases h with
  | layoutGeom hview hpre hrun hreport htid hrec =>
    obtain ⟨prim, v', pre', _, hview', rfl, hedit⟩ := vfpLayoutRunPrimitive_reports hrun hreport htid
    obtain rfl : v = v' := Option.some.inj (hview.symm.trans hview')
    obtain ⟨u', hstored, hrecords⟩ := hedit.stored
    rw [hrecords, Dict.get?_insert_self] at hrec
    obtain rfl := Option.some.inj hrec
    obtain ⟨hlib, hcell, _⟩ := namesCheckpoint_stored hstored
    refine ⟨⟨hlib, hcell⟩, ?_⟩
    rw [restoreOf, hstored.before (before_editRecord ..)]
    rfl

end Records

section Combinations

variable {s : Session} {kind : TxnKind} {entry : RollbackEntry} {v : ViewName} {pre : CellView}
  {tid : String} {u : Obj} {changes : List Value} {w : World}

/-- Writing the texts of values gives the values where they are strings. -/
theorem texts_eq_iff {printer : Printer} (hthere : ∀ ch ∈ changes, (pre.param? (target ch)).isSome = true) :
    (∀ e ∈ changes.map fun ch => (target ch, Value.str (vfpToStr printer ((pre.param? (target ch)).getD .nil))),
      ∀ x, pre.param? e.1 = some x →
        lastWrite (changes.map fun ch =>
          (target ch, Value.str (vfpToStr printer ((pre.param? (target ch)).getD .nil)))) e.1 = some x) ↔
    ∀ ch ∈ changes, ∃ text, pre.param? (target ch) = some (.str text) := by
  have hagree : ∀ e ∈ changes.map fun ch =>
      (target ch, Value.str (vfpToStr printer ((pre.param? (target ch)).getD .nil))),
      e.2 = .str (vfpToStr printer ((pre.param? e.1).getD .nil)) := by
    intro e he
    obtain ⟨ch, _, rfl⟩ := List.mem_map.mp he
    rfl
  have hlast : ∀ ch ∈ changes, ∀ x, pre.param? (target ch) = some x →
      lastWrite (changes.map fun ch =>
        (target ch, Value.str (vfpToStr printer ((pre.param? (target ch)).getD .nil)))) (target ch) =
        some (.str (vfpToStr printer x)) := by
    intro ch hch x hx
    have hmem : target ch ∈ (changes.map fun ch =>
        (target ch, Value.str (vfpToStr printer ((pre.param? (target ch)).getD .nil)))).map Prod.fst := by
      rw [List.map_map]
      exact List.mem_map.mpr ⟨ch, hch, rfl⟩
    rw [lastWrite_eq_of_mem (fun k => .str (vfpToStr printer ((pre.param? k).getD .nil))) hagree hmem, hx]
    rfl
  constructor
  · intro h ch hch
    obtain ⟨x, hx⟩ := Option.isSome_iff_exists.mp (hthere ch hch)
    have hvalue := h _ (List.mem_map.mpr ⟨ch, hch, rfl⟩) x hx
    rw [hlast ch hch x hx] at hvalue
    exact ⟨vfpToStr printer x, hx.trans hvalue.symm⟩
  · intro h e he x hx
    obtain ⟨ch, hch, rfl⟩ := List.mem_map.mp he
    obtain ⟨text, htext⟩ := h ch hch
    obtain rfl : Value.str text = x := Option.some.inj (htext.symm.trans hx)
    exact hlast ch hch _ hx

/-- A schematic transaction and the rollback of the menu. -/
theorem schematic_by_rollbackTransaction (happlied : AppliedAs (.schematic changes) v pre tid u)
    (hrec : w.tunnel.transactions.records.get? (.str tid) = some u)
    (hback : (vfpRollbackTransaction s tid w).1 = some true) :
    BackAsBefore v pre w (vfpRollbackTransaction s tid w).2 ↔
      Recoverable (.schematic changes) .rollbackTransaction v pre u w := by
  obtain ⟨hcell, hv, hthere, printer, hwrites⟩ := happlied.schematic_record
  obtain ⟨cv, hcontents, hresult, hothers⟩ :=
    vfpRollbackTransaction_restores hback hrec hcell.lib hcell.cell
  rw [← hv] at hcontents hresult hothers
  rw [setParams_snd, hwrites] at hresult
  have hkeys : (changes.map fun ch =>
      (target ch, Value.str (vfpToStr printer ((pre.param? (target ch)).getD .nil)))).map Prod.fst =
      changes.map target := by
    rw [List.map_map]
    rfl
  have hiff := paramSlots_lawful.writeAll_eq_iff (changes.map fun ch =>
    (target ch, Value.str (vfpToStr printer ((pre.param? (target ch)).getD .nil)))) pre cv
  rw [hkeys] at hiff
  constructor
  · rintro ⟨hback, _⟩
    obtain ⟨hlast, hdiffer⟩ := hiff.mp (Option.some.inj (hresult.symm.trans hback))
    exact ⟨(texts_eq_iff hthere).mp hlast, cv, hcontents, hdiffer⟩
  · rintro ⟨hstrings, cv', hcontents', hdiffer⟩
    obtain rfl : cv = cv' := Option.some.inj (hcontents.symm.trans hcontents')
    refine ⟨?_, fun u _ _ hu _ => hothers u hu⟩
    rw [hresult, hiff.mpr ⟨(texts_eq_iff hthere).mpr hstrings, hdiffer⟩]

/-- A layout transaction and the rollback of the menu: nothing is written. -/
theorem layout_by_rollbackTransaction (happlied : AppliedAs .layoutGeom v pre tid u)
    (hrec : w.tunnel.transactions.records.get? (.str tid) = some u)
    (hback : (vfpRollbackTransaction s tid w).1 = some true) :
    BackAsBefore v pre w (vfpRollbackTransaction s tid w).2 ↔
      Recoverable .layoutGeom .rollbackTransaction v pre u w := by
  obtain ⟨hcell, hnothing⟩ := happlied.layout_record
  obtain ⟨cv, hcontents, hresult, hothers⟩ :=
    vfpRollbackTransaction_restores hback hrec hcell.lib hcell.cell
  have hsame : ∀ u, (vfpRollbackTransaction s tid w).2.db.contents u = w.db.contents u := by
    intro u
    by_cases hu : u = schematicOf v.lib v.cell
    · rw [hu, hresult, hcontents, hnothing]
      rfl
    · exact hothers u hu
  unfold BackAsBefore Recoverable
  rw [hsame]
  exact and_iff_left fun u _ _ _ _ => hsame u

/-- A transaction of either kind and the layout rollback. -/
theorem any_by_layoutTxnRollback (hcell : NamesCell u v)
    (hrec : w.tunnel.transactions.records.get? (.str tid) = some u)
    (hback : (vfpLayoutTxnRollback s tid w).1 = some true) :
    BackAsBefore v pre w (vfpLayoutTxnRollback s tid w).2 ↔ Recoverable kind .layoutTxnRollback v pre u w := by
  obtain ⟨u', lib, cell, ckpt, _, hrec', _, hnames, _⟩ := vfpLayoutTxnRollback_true hback
  obtain rfl : u = u' := Option.some.inj (hrec.symm.trans hrec')
  obtain rfl : v.lib = lib := Value.str.inj (hcell.lib.symm.trans hnames.lib)
  obtain rfl : v.cell = cell := Value.str.inj (hcell.cell.symm.trans hnames.cell)
  have hckpt : recordedCheckpoint v u = ⟨v.lib, v.cell, ckpt⟩ := by
    rw [recordedCheckpoint, hnames.ckpt]
  obtain ⟨hresult, hothers⟩ := vfpLayoutTxnRollback_restores hback hrec hnames
  unfold Recoverable
  rw [hckpt]
  by_cases hv : v = layoutOf v.lib v.cell
  · rw [if_pos hv, BackAsBefore, ← hresult, ← hv]
    exact and_iff_left fun u _ _ hu _ => (hothers u (by rw [← hv]; exact hu)).contents
  · rw [if_neg hv, BackAsBefore, (hothers v hv).contents]
    refine and_congr_right fun _ => ?_
    constructor
    · intro hrest
      have hkept := hrest (layoutOf v.lib v.cell) rfl rfl (Ne.symm hv) not_isCheckpoint_layoutOf
      rw [← hkept, hresult]
    · intro hsame u _ _ _ _
      by_cases hu : u = layoutOf v.lib v.cell
      · rw [hu, hresult, hsame]
      · exact (hothers u hu).contents

/-- A rollback that returns `t` brings the edited view back and changes no other exactly if it can. -/
theorem rollback_respects_kind_iff (happlied : AppliedAs kind v pre tid u)
    (hrec : w.tunnel.transactions.records.get? (.str tid) = some u)
    (hback : (entry.run s tid w).1 = some true) :
    BackAsBefore v pre w (entry.run s tid w).2 ↔ Recoverable kind entry v pre u w := by
  cases entry with
  | rollbackTransaction =>
    cases kind with
    | schematic changes => exact schematic_by_rollbackTransaction happlied hrec hback
    | layoutGeom => exact layout_by_rollbackTransaction happlied hrec hback
  | layoutTxnRollback =>
    cases kind with
    | schematic changes => exact any_by_layoutTxnRollback happlied.schematic_record.1 hrec hback
    | layoutGeom => exact any_by_layoutTxnRollback happlied.layout_record.1 hrec hback

/-- The transaction of a layout, rolled back as one. -/
theorem rollback_respects_kind_iff_sample :
    BackAsBefore ⟨"lib", "top", "layout"⟩ samplePathLayout (sampleWidened "layout")
      (sampleWidenedBack "layout").2 := by
  obtain ⟨u, hrec⟩ : ∃ u, (sampleWidened "layout").tunnel.transactions.records.get?
      (.str (transactionId .sample)) = some u := ⟨_, by rfl⟩
  have hview : paramsView (sampleWiden "layout") = some ⟨"lib", "top", "layout"⟩ := by rfl
  have hpre : (sampleLayoutWorld "layout").db.contents ⟨"lib", "top", "layout"⟩ = some samplePathLayout := by
    rfl
  have happlied := AppliedAs.layoutGeom (s := .sample) hview hpre (by rfl) (by rfl) (by decide) hrec
  have hback : (RollbackEntry.layoutTxnRollback.run .sample (transactionId .sample)
      (sampleWidened "layout")).1 = some true := by rfl
  refine (rollback_respects_kind_iff happlied hrec hback).mpr ?_
  obtain rfl : _ = u := Option.some.inj (Eq.trans (by rfl) hrec)
  rw [Recoverable, if_pos (by rfl)]
  rfl

/-- A cell with a schematic and a layout, and a fresh tunnel. -/
def sampleCellWorld : World where
  db :=
    { disk := fun v =>
        if v = schematicOf "lib" "top" then some sampleSchematic
        else if v = layoutOf "lib" "top" then some samplePathLayout else none
      opened := fun _ => none }
  tunnel := Tunnel.fresh .empty
  inFlight := []

/-- The path of its layout is widened as a transaction. -/
def sampleCellWidened : World :=
  (vfpLayoutRunPrimitive .sample .sample "widen_net" (sampleWiden "layout") false sampleCellWorld).2

/-- The menu rolls the last transaction back: the path stays widened. -/
theorem menu_rollback_restores_nothing :
    (vfpGetLastTransaction .sample sampleCellWidened).1 = .str (transactionId .sample) ∧
      (vfpRollbackTransaction .sample (transactionId .sample) sampleCellWidened).1 = some true ∧
      ((vfpRollbackTransaction .sample (transactionId .sample)
        sampleCellWidened).2.tunnel.transactions.records.get? (.str (transactionId .sample))).map
          (fun u => Obj.get u "status") = some (.str "rolled_back") ∧
      ¬ BackAsBefore (layoutOf "lib" "top") samplePathLayout sampleCellWidened
        (vfpRollbackTransaction .sample (transactionId .sample) sampleCellWidened).2 := by
  refine ⟨by rfl, by rfl, by rfl, ?_⟩
  rintro ⟨hcontents, _⟩
  have hwidened : (vfpRollbackTransaction .sample (transactionId .sample)
      sampleCellWidened).2.db.contents (layoutOf "lib" "top") =
      some { samplePathLayout with shapes := [⟨"path", "M1", some "a", .fix 2⟩] } := by rfl
  rw [hcontents] at hwidened
  exact absurd hwidened (by decide)

end Combinations

end VirtuosoFlow.Plugin
