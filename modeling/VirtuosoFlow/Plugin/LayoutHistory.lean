import VirtuosoFlow.Base.Run
import VirtuosoFlow.Plugin.LayoutRollback

/-!
# Histories of layout transactions

Edits and rollbacks of layouts in any order. A transaction that is still applied can be rolled
back to what its edit found as long as its checkpoint is there, and the names of checkpoints
have the seconds of the clock only: a later edit may take the same name.
-/

namespace VirtuosoFlow.Plugin

open Base Tunnel

/-- A call on layouts: edit by a primitive, or roll a transaction back. -/
inductive LayoutCall where
  | edit (s : Session) (name : String) (params : Value)
  | rollback (s : Session) (tid : String)

/-- The transaction that the runner reports, if it reports one. -/
def reportedId (r : Option Obj) : Option String :=
  match r.map fun r => Obj.get r "transaction_id" with
  | some (.str tid) => if tid = "" then none else some tid
  | _ => none

/-- The transaction that a call made or rolled back, if it did, and the world after it. -/
def LayoutCall.run (prims : Registry) : LayoutCall → World → Option String × World
  | .edit s name params, w =>
    let out := vfpLayoutRunPrimitive s prims name params false w
    (reportedId out.1, out.2)
  | .rollback s tid, w =>
    let out := vfpLayoutTxnRollback s tid w
    (if out.1 = some true then some tid else none, out.2)

/-- The calls from a given world. -/
def layoutMachine (prims : Registry) (w₀ : World) : Machine World LayoutCall (Option String) where
  init w := w = w₀
  step := LayoutCall.run prims

/-- An edit that was recorded: its transaction, the view, and what the view had before and after. -/
structure MadeEdit where
  tid : String
  view : ViewName
  before : CellView
  after : CellView

/-- The recorded edit of a step, if it is one. -/
def madeBy (e : Entry World LayoutCall (Option String)) : Option MadeEdit :=
  match e.input, e.output with
  | .edit _ _ params, some tid =>
    match paramsView params with
    | some v =>
      match e.before.db.contents v, e.after.db.contents v with
      | some before, some after => some ⟨tid, v, before, after⟩
      | _, _ => none
    | none => none
  | _, _ => none

/-- The recorded edits of a history, oldest first. -/
def madeIn (history : List (Entry World LayoutCall (Option String))) : List MadeEdit :=
  history.filterMap madeBy

section Steps

variable {s : Session} {prims : Registry} {name tid : String} {params : Value} {w w₀ : World}
  {history : List (Entry World LayoutCall (Option String))} {u : ViewName}

/-- An id that is reported is that of the stored transaction. -/
theorem reportedId_eq_some {r : Option Obj} (h : reportedId r = some tid) :
    ∃ r', r = some r' ∧ Obj.get r' "transaction_id" = .str tid ∧ tid ≠ "" := by
  unfold reportedId at h
  cases r with
  | none => cases h
  | some r' =>
    rw [Option.map_some] at h
    cases hid : Obj.get r' "transaction_id" with
    | str x =>
      rw [hid] at h
      by_cases hx : x = ""
      · simp [hx] at h
      · simp only [if_neg hx, Option.some.injEq] at h
        subst h
        exact ⟨r', rfl, hid, hx⟩
    | _ => simp [hid] at h

/-- What an edit with a transaction did. -/
theorem edit_made (w₀ : World) (history : List (Entry World LayoutCall (Option String))) {made : String}
    (h : ((LayoutCall.edit s name params).run prims w).1 = some made) :
    ∃ (prim : Primitive) (v : ViewName) (pre : CellView), paramsView params = some v ∧
      made = transactionId s ∧
      EditRecorded s name (fun c => prim.editFn c params) v pre w
        ((LayoutCall.edit s name params).run prims w).2 ∧
      madeIn (history ++ [(layoutMachine prims w₀).fire w (.edit s name params)]) =
        madeIn history ++ [⟨transactionId s, v, pre, (prim.editFn pre params).2⟩] := by
  obtain ⟨r, hrun, hreport, hne⟩ := reportedId_eq_some h
  obtain ⟨prim, v, pre, _, hview, rfl, hrecorded⟩ := vfpLayoutRunPrimitive_reports hrun hreport hne
  refine ⟨prim, v, pre, hview, rfl, hrecorded, ?_⟩
  have houtput : ((layoutMachine prims w₀).fire w (.edit s name params)).output =
      some (transactionId s) := h
  have hmade : madeBy ((layoutMachine prims w₀).fire w (.edit s name params)) =
      some ⟨transactionId s, v, pre, (prim.editFn pre params).2⟩ := by
    unfold madeBy
    rw [houtput]
    dsimp only [Machine.fire, layoutMachine]
    rw [hview]
    dsimp only [LayoutCall.run]
    rw [hrecorded.edited.found, hrecorded.edited.shown]
  rw [madeIn, List.filterMap_append, List.filterMap_cons_some hmade]
  rfl

/-- A step without a transaction made by an edit adds no edit. -/
theorem none_made {call : LayoutCall}
    (h : madeBy ((layoutMachine prims w₀).fire w call) = none) :
    madeIn (history ++ [(layoutMachine prims w₀).fire w call]) = madeIn history := by
  rw [madeIn, List.filterMap_append, List.filterMap_cons_none h, List.filterMap_nil, List.append_nil]
  rfl

/-- A restore of a layout changes no view of another name. -/
theorem kept_restoreLayout {c : Cadence} {lib cell ckpt : Value} {db : Database}
    (hu : ∀ lib cell, u ≠ layoutOf lib cell) : Kept db (restoreLayout c lib cell ckpt db).2 u := by
  unfold restoreLayout
  split
  · exact vfpLayoutRestoreFromView_others (hu _ _)
  · exact ⟨rfl, rfl⟩

/-- However a layout rollback ends, only a view named `layout` can change, and transactions only arrive
and move on. -/
theorem vfpLayoutTxnRollback_keeps (s : Session) (tid : String) (w : World) :
    (∀ u : ViewName, (∀ lib cell, u ≠ layoutOf lib cell) →
      Kept w.db (vfpLayoutTxnRollback s tid w).2.db u) ∧
      TxnsMove w (vfpLayoutTxnRollback s tid w).2 := by
  have hdb : (vfpRpcParam s .transactionRollback "transaction_id" tid w).2.db = w.db := db_vfpRpcExec
  have hmove : TxnsMove w (vfpRpcParam s .transactionRollback "transaction_id" tid w).2 :=
    txnsMove_vfpRpcExec
  unfold vfpLayoutTxnRollback
  generalize vfpRpcParam s .transactionRollback "transaction_id" tid w = res at *
  dsimp only
  have hsame : ∀ u : ViewName, Kept w.db res.2.db u := fun u => by rw [hdb]; exact ⟨rfl, rfl⟩
  split
  · split
    · split
      · generalize vfpAlistGet (vfpAlistGet (vfpAlistGet res.1.payload "transaction") "checkpoint") "view" = ckpt
        generalize vfpAlistGet (vfpAlistGet (vfpAlistGet res.1.payload "transaction") "cellview") "lib" = lib
        generalize vfpAlistGet (vfpAlistGet (vfpAlistGet res.1.payload "transaction") "cellview") "cell" = cell
        have hkept : ∀ u : ViewName, (∀ lib cell, u ≠ layoutOf lib cell) →
            Kept w.db (restoreLayout s.cadence lib cell ckpt res.2.db).2 u :=
          fun u hu => (hsame u).trans (kept_restoreLayout hu)
        split
        · exact ⟨hkept, hmove⟩
        · rw [db_markRolledBack]
          exact ⟨hkept, hmove.trans (txnsMove_marks ..).1⟩
        · rw [db_markTransactionFailed]
          exact ⟨hkept, hmove.trans (txnsMove_marks ..).2⟩
      · rw [db_markTransactionFailed]
        exact ⟨fun u _ => hsame u, hmove.trans txnsMove_vfpRpcExec⟩
    · exact ⟨fun u _ => hsame u, hmove⟩
  · exact ⟨fun u _ => hsame u, hmove⟩

end Steps

section Checkpoints

variable {prims : Registry} {w₀ w : World} {history : List (Entry World LayoutCall (Option String))}

/-- An edit takes no checkpoint of a transaction that is still applied, neither as the view to edit nor
as the name of its own checkpoint. -/
def TakesNoCheckpoint (w : World) : LayoutCall → Prop
  | .edit s name params => ∀ v, paramsView params = some v →
      ∀ k u lib cell ckpt, w.tunnel.transactions.records.get? k = some u →
        Obj.get u "status" = .str "applied" → NamesCheckpoint u lib cell ckpt →
          (⟨lib, cell, ckpt⟩ : ViewName) ≠ v ∧ ⟨lib, cell, ckpt⟩ ≠ checkpointOf s name v
  | .rollback _ _ => True

/-- An edit's transaction, as long as it is applied, names a checkpoint that has what the edit found. -/
structure Restorable (m : MadeEdit) (w : World) : Prop where
  stored : ∃ u, w.tunnel.transactions.records.get? (.str m.tid) = some u
  restorable : ∀ u, w.tunnel.transactions.records.get? (.str m.tid) = some u →
    Obj.get u "status" = .str "applied" →
      ∃ ckpt, (⟨m.view.lib, m.view.cell, ckpt⟩ : ViewName).IsCheckpoint ∧
        NamesCheckpoint u m.view.lib m.view.cell ckpt ∧
        w.db.contents ⟨m.view.lib, m.view.cell, ckpt⟩ = some m.before

/-- A step that moves no other transactions to applied and keeps the checkpoints of those that still
are keeps them restorable. -/
theorem Restorable.step {m : MadeEdit} {w' : World} (h : Restorable m w) (hmove : TxnsMove w w')
    (hkept : ∀ u ckpt, w.tunnel.transactions.records.get? (.str m.tid) = some u →
      Obj.get u "status" = .str "applied" → NamesCheckpoint u m.view.lib m.view.cell ckpt →
      (⟨m.view.lib, m.view.cell, ckpt⟩ : ViewName).IsCheckpoint →
      w'.db.contents ⟨m.view.lib, m.view.cell, ckpt⟩ = w.db.contents ⟨m.view.lib, m.view.cell, ckpt⟩) :
    Restorable m w' := by
  obtain ⟨u, hrec⟩ := h.stored
  obtain ⟨u', hrec', hsame⟩ := hmove.stored hrec
  refine ⟨⟨u', hrec'⟩, ?_⟩
  intro u'' hrec'' happlied
  obtain rfl : u' = u'' := Option.some.inj (hrec'.symm.trans hrec'')
  obtain rfl := hsame happlied
  obtain ⟨ckpt, hcheckpoint, hnames, hcontents⟩ := h.restorable u' hrec happlied
  exact ⟨ckpt, hcheckpoint, hnames, (hkept u' ckpt hrec happlied hnames hcheckpoint).trans hcontents⟩

/-- An edit that takes no checkpoint of a transaction that is still applied. -/
theorem Restorable.edit {m : MadeEdit} {s : Session} {name : String} {params : Value} (h : Restorable m w)
    (hok : TakesNoCheckpoint w (.edit s name params)) :
    Restorable m ((LayoutCall.edit s name params).run prims w).2 := by
  show Restorable m (vfpLayoutRunPrimitive s prims name params false w).2
  rcases vfpLayoutRunPrimitive_cases s prims name params w with heq | ⟨prim, v, pre, hview, _, heq⟩
  · rw [heq]
    exact h
  · rw [heq]
    refine h.step txnsMove_ranEdit ?_
    intro u ckpt hrec happlied hnames _
    obtain ⟨hview', hname⟩ := hok v hview _ u _ _ _ hrec happlied hnames
    exact (kept_ranEdit hview' hname).contents

/-- An edit that was just recorded. -/
theorem restorable_made {s : Session} {name : String} {editFn : Edit} {v : ViewName} {pre after : CellView}
    {w' : World} (h : EditRecorded s name editFn v pre w w') :
    Restorable ⟨transactionId s, v, pre, after⟩ w' := by
  obtain ⟨u, hstored, hrecords⟩ := h.stored
  have hrec : w'.tunnel.transactions.records.get? (.str (transactionId s)) = some u := by
    rw [hrecords, Dict.get?_insert_self]
  refine ⟨⟨u, hrec⟩, ?_⟩
  intro u' hrec' _
  obtain rfl : u = u' := Option.some.inj (hrec.symm.trans hrec')
  exact ⟨(checkpointOf s name v).view, isCheckpoint_checkpointOf, namesCheckpoint_stored hstored,
    h.edited.checkpoint⟩

/-- Every edit stays restorable as long as no edit takes the checkpoint of a transaction that is still
applied. -/
theorem restorable_of_run
    (hrun : Run (layoutMachine prims w₀) TakesNoCheckpoint history w) :
    ∀ m ∈ madeIn history, Restorable m w := by
  induction hrun with
  | init hw => intro m hm; cases hm
  | @step history w call hrun hok ih =>
    cases call with
    | rollback s tid =>
      obtain ⟨hkept, hmove⟩ := vfpLayoutTxnRollback_keeps s tid w
      intro m hm
      rw [none_made (by rfl)] at hm
      refine (ih m hm).step hmove ?_
      intro u ckpt _ _ _ hcheckpoint
      refine (hkept _ ?_).contents
      rintro lib cell heq
      rw [heq] at hcheckpoint
      exact not_isCheckpoint_layoutOf hcheckpoint
    | edit s name params =>
      cases hmade : ((LayoutCall.edit s name params).run prims w).1 with
      | none =>
        have hnone : madeBy ((layoutMachine prims w₀).fire w (.edit s name params)) = none := by
          unfold madeBy
          rw [show ((layoutMachine prims w₀).fire w (.edit s name params)).output = none from hmade]
          rfl
        intro m hm
        rw [none_made hnone] at hm
        exact (ih m hm).edit hok
      | some made =>
        obtain ⟨prim, v, pre, _, _, hrecorded, hin⟩ := edit_made w₀ history hmade
        intro m hm
        rw [hin] at hm
        rcases List.mem_append.mp hm with hold | hnew
        · exact (ih m hold).edit hok
        · obtain rfl := List.mem_singleton.mp hnew
          exact restorable_made hrecorded

/-- Every transaction that is still applied names a checkpoint with what its edit found, as long as no
edit takes the checkpoint of one that is; and a rollback puts that into the view `layout`. -/
theorem checkpoints_not_shared (hrun : Run (layoutMachine prims w₀) TakesNoCheckpoint history w)
    {m : MadeEdit} (hm : m ∈ madeIn history) {u : Obj}
    (hrec : w.tunnel.transactions.records.get? (.str m.tid) = some u)
    (happlied : Obj.get u "status" = .str "applied") :
    (∃ ckpt, NamesCheckpoint u m.view.lib m.view.cell ckpt ∧
      w.db.contents ⟨m.view.lib, m.view.cell, ckpt⟩ = some m.before) ∧
    ∀ s, (vfpLayoutTxnRollback s m.tid w).1 = some true →
      (vfpLayoutTxnRollback s m.tid w).2.db.contents (layoutOf m.view.lib m.view.cell) = some m.before := by
  obtain ⟨ckpt, _, hnames, hcontents⟩ := (restorable_of_run hrun m hm).restorable u hrec happlied
  refine ⟨⟨ckpt, hnames, hcontents⟩, ?_⟩
  intro s hback
  rw [(vfpLayoutTxnRollback_restores hback hrec hnames).1, hcontents]

/-- Widen the path of a view as a transaction that gets this id, at a time; copies stay open or not. -/
def sampleWidenAt (lingers : Bool) (uuid time view : String) (width : ℤ) : LayoutCall :=
  .edit { Session.sample with
      env := { Tunnel.Env.sample with uuid := uuid }, currentTime := time, cadence := .sample lingers }
    "widen_net"
    (.ofJson (.obj [("lib", .str "lib"), ("cell", .str "top"), ("view", .str view), ("net", .str "a"),
      ("width", .int width)]))

/-- The first edit widens the path of the layout. -/
def sampleWidenFirst (lingers : Bool) : LayoutCall :=
  sampleWidenAt lingers "a" "Jun 13 14:30:05 2026" "layout" 2

/-- One edit of the sample layout. -/
def sampleOneEdit (lingers : Bool) : World :=
  ((sampleWidenFirst lingers).run .sample (sampleLayoutWorld "layout")).2

/-- Two edits of the sample layout in one second. -/
def sampleTwoEdits : World :=
  ((sampleWidenAt false "b" "Jun 13 14:30:05 2026" "layout" 3).run .sample (sampleOneEdit false)).2

/-- An edit of the sample layout, and one of its checkpoint a second later. -/
def sampleCheckpointEdit (lingers : Bool) : World :=
  ((sampleWidenAt lingers "b" "Jun 13 14:30:06 2026" "layout_vfpckpt_widen_net_Jun_13_14_30_05_2026" 3).run .sample
    (sampleOneEdit lingers)).2

/-- The first edit. -/
def sampleMade : MadeEdit :=
  ⟨"t_a", layoutOf "lib" "top", samplePathLayout,
    { samplePathLayout with shapes := [⟨"path", "M1", some "a", .fix 2⟩] }⟩

/-- The checkpoint of an edit holds the layout before it. -/
theorem checkpoints_not_shared_sample :
    ∃ u ckpt, (sampleOneEdit false).tunnel.transactions.records.get? (.str "t_a") = some u ∧
      NamesCheckpoint u "lib" "top" ckpt ∧
      (sampleOneEdit false).db.contents ⟨"lib", "top", ckpt⟩ = some samplePathLayout := by
  have hok : TakesNoCheckpoint (sampleLayoutWorld "layout") (sampleWidenFirst false) := by
    intro v _ k u _ _ _ hrec
    cases hrec
  have hrun : Run (layoutMachine .sample (sampleLayoutWorld "layout")) TakesNoCheckpoint
      [(layoutMachine .sample (sampleLayoutWorld "layout")).fire (sampleLayoutWorld "layout")
        (sampleWidenFirst false)] (sampleOneEdit false) := .step (.init rfl) hok
  obtain ⟨u, hrec⟩ : ∃ u, (sampleOneEdit false).tunnel.transactions.records.get? (.str "t_a") = some u :=
    ⟨_, by rfl⟩
  have hmade : madeIn [(layoutMachine .sample (sampleLayoutWorld "layout")).fire (sampleLayoutWorld "layout")
      (sampleWidenFirst false)] = [sampleMade] := by rfl
  have hm : sampleMade ∈ madeIn [(layoutMachine .sample (sampleLayoutWorld "layout")).fire
      (sampleLayoutWorld "layout") (sampleWidenFirst false)] := by
    rw [hmade]
    exact List.mem_singleton.mpr rfl
  have happlied : Obj.get u "status" = .str "applied" := by
    obtain rfl : _ = u := Option.some.inj (Eq.trans (by rfl) hrec)
    rfl
  obtain ⟨⟨ckpt, hnames, hcontents⟩, _⟩ := checkpoints_not_shared hrun hm hrec happlied
  exact ⟨u, ckpt, hrec, hnames, hcontents⟩

/-- The first edit is still applied in a world that edits led to, and its checkpoint does not have what it
found. -/
def CheckpointLost (w : World) : Prop :=
  ∃ history u ckpt, Run (layoutMachine .sample (sampleLayoutWorld "layout")) (fun _ _ => True) history w ∧
    sampleMade ∈ madeIn history ∧ w.tunnel.transactions.records.get? (.str "t_a") = some u ∧
    Obj.get u "status" = .str "applied" ∧ NamesCheckpoint u "lib" "top" ckpt ∧
    w.db.contents ⟨"lib", "top", ckpt⟩ ≠ some sampleMade.before

/-- The first edit is recorded, whether its copy stays open or not. -/
theorem madeBy_first (lingers : Bool) : madeBy ((layoutMachine .sample (sampleLayoutWorld "layout")).fire
    (sampleLayoutWorld "layout") (sampleWidenFirst lingers)) = some sampleMade := by
  cases lingers <;> rfl

/-- A second edit after which the first one's checkpoint has another width. -/
theorem checkpointLost_of_second {lingers : Bool} {second : LayoutCall} {w : World} {u : Obj}
    (hrun : (second.run .sample (sampleOneEdit lingers)).2 = w)
    (hrec : w.tunnel.transactions.records.get? (.str "t_a") = some u)
    (happlied : Obj.get u "status" = .str "applied")
    (hnames : NamesCheckpoint u "lib" "top" "layout_vfpckpt_widen_net_Jun_13_14_30_05_2026")
    (hwidened : w.db.contents ⟨"lib", "top", "layout_vfpckpt_widen_net_Jun_13_14_30_05_2026"⟩ ≠
      some samplePathLayout) : CheckpointLost w := by
  subst hrun
  refine ⟨_, u, _, .step (.step (.init rfl) trivial) trivial, ?_, hrec, happlied, hnames, hwidened⟩
  exact List.mem_filterMap.mpr ⟨_, List.mem_append_left _ (List.mem_append_right _
    (List.mem_singleton.mpr rfl)), madeBy_first lingers⟩

/-- A checkpoint is edited as a view, whether it stays open or not. -/
theorem checkpointLost_edited (lingers : Bool) : CheckpointLost (sampleCheckpointEdit lingers) := by
  obtain ⟨u, hrec⟩ : ∃ u, (sampleCheckpointEdit lingers).tunnel.transactions.records.get? (.str "t_a") =
      some u := by
    cases lingers <;> exact ⟨_, by rfl⟩
  have happlied : Obj.get u "status" = .str "applied" := by
    cases lingers <;> (obtain rfl : _ = u := Option.some.inj (Eq.trans (by rfl) hrec); rfl)
  have hnames : NamesCheckpoint u "lib" "top" "layout_vfpckpt_widen_net_Jun_13_14_30_05_2026" := by
    cases lingers <;>
      (obtain rfl : _ = u := Option.some.inj (Eq.trans (by rfl) hrec); exact ⟨by rfl, by rfl, by rfl⟩)
  refine checkpointLost_of_second rfl hrec happlied hnames ?_
  have hfound : (sampleCheckpointEdit lingers).db.contents
      ⟨"lib", "top", "layout_vfpckpt_widen_net_Jun_13_14_30_05_2026"⟩ =
      some { samplePathLayout with shapes := [⟨"path", "M1", some "a", .fix 3⟩] } := by
    cases lingers <;> rfl
  rw [hfound]
  decide

/-- Two edits in one second share a checkpoint: where a copy does not stay open, the first one's has what the
second found. And whether it does or not, a checkpoint can be edited as a view. -/
theorem checkpoint_shared : CheckpointLost sampleTwoEdits ∧ CheckpointLost (sampleCheckpointEdit false) ∧
    CheckpointLost (sampleCheckpointEdit true) := by
  refine ⟨?_, checkpointLost_edited false, checkpointLost_edited true⟩
  obtain ⟨u, hrec⟩ : ∃ u, sampleTwoEdits.tunnel.transactions.records.get? (.str "t_a") = some u := ⟨_, by rfl⟩
  obtain rfl : _ = u := Option.some.inj (Eq.trans (by rfl) hrec)
  refine checkpointLost_of_second rfl hrec (by rfl) ⟨by rfl, by rfl, by rfl⟩ ?_
  have hfound : sampleTwoEdits.db.contents ⟨"lib", "top", "layout_vfpckpt_widen_net_Jun_13_14_30_05_2026"⟩ =
      some { samplePathLayout with shapes := [⟨"path", "M1", some "a", .fix 2⟩] } := by rfl
  rw [hfound]
  decide

end Checkpoints

end VirtuosoFlow.Plugin
