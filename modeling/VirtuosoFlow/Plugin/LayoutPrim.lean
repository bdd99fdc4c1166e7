import VirtuosoFlow.Plugin.LayoutTxn

/-!
# Layout primitives

`vfp_layout_prim.il`: the registry of primitives, and the runner that describes a primitive's
edit or makes it as a layout transaction.
-/

namespace VirtuosoFlow.Plugin

open Base Tunnel

/-- A registered primitive: both functions may raise, and only the edit changes the cellview. -/
structure Primitive where
  describeFn : CellView → Value → Option Value
  editFn : CellView → Value → Option Value × CellView
  risk : String
  checks : List String

/-- `VFP_LAYOUT_PRIMS`. -/
abbrev Registry := String → Option Primitive

/-- `vfpLayoutRegisterPrimitive`. -/
def vfpLayoutRegisterPrimitive (name : String) (prim : Primitive) (prims : Registry) : Registry :=
  Function.update prims name (some prim)

/-- A list of values. -/
def Value.ofList : List Value → Value
  | [] => .nil
  | a :: as => .cons a (ofList as)

/-- `or(a b)`. -/
def Value.orElse (a b : Value) : Value := if a.truthy then a else b

/-- `nth(n l)`. -/
def Value.nth : ℕ → Value → Value
  | 0, l => l.car
  | n + 1, l => l.cdr.nth n

/-- `vfpLayoutPrimVal(v)`, encoded. -/
def vfpLayoutPrimVal (printer : Printer) : Value → Json
  | .nil => .arr []
  | .cons a d => .arr ((Value.cons a d).toList.map (vfpToJson printer))
  | v => vfpToJson printer v

/-- One change of a result. -/
def primChange (printer : Printer) (ch : Value) : Json :=
  .obj [("type", .str (vfpToStr printer (ch.nth 0))), ("subject", .str (vfpToStr printer (ch.nth 1))),
    ("old", vfpLayoutPrimVal printer (ch.nth 2)), ("new", vfpLayoutPrimVal printer (ch.nth 3))]

/-- `vfpLayoutPrimResultJ(name params status changes risk checks txnId)`. -/
def vfpLayoutPrimResultJ (printer : Printer) (name : String) (params : Value) (status : String)
    (changes : Value) (risk : String) (checks : List String) (txnId : Value) : Obj :=
  [("schema_version", .str "0.1"), ("primitive", .str name),
    ("target", vfpToJson printer ((vfpAlistGet params "net").orElse
      ((vfpAlistGet params "instance").orElse (.str "")))),
    ("status", .str status), ("risk_level", .str risk),
    ("changes", .arr (changes.toList.map (primChange printer))),
    ("required_checks", .arr (checks.map .str)),
    ("rollback_available", .bool (status == "proposal" || status == "applied")),
    ("transaction_id", vfpToJson printer (txnId.orElse (.str "")))]

/-- The view that three members of an association list name. -/
def viewNamed : Value → Value → Value → Option ViewName
  | .str lib, .str cell, .str view => some ⟨lib, cell, view⟩
  | _, _, _ => none

/-- The view that the parameters of a primitive name. -/
def paramsView (params : Value) : Option ViewName :=
  viewNamed (vfpAlistGet params "lib") (vfpAlistGet params "cell")
    ((vfpAlistGet params "view").orElse (.str "layout"))

/-- `vfpLayoutRunPrimitive(name params dryRun)`. -/
def vfpLayoutRunPrimitive (s : Session) (prims : Registry) (name : String) (params : Value)
    (dryRun : Bool) (w : World) : Option Obj × World :=
  match prims name, paramsView params with
  | some prim, some v =>
    let result status changes txnId :=
      vfpLayoutPrimResultJ s.printer name params status changes prim.risk prim.checks txnId
    if dryRun then
      match w.db.dbOpenCellViewByType v "" with
      | none => (none, w)
      | some (cv, db) =>
        (some (result "proposal" (errset (prim.describeFn cv params)) .nil),
          { w with db := s.cadence.dbClose v db })
    else
      match w.db.dbOpenCellViewByType v "maskLayout" with
      | none => (none, w)
      | some (cv, db) =>
        let changes := errset (prim.describeFn cv params)
        let out := vfpLayoutTxnApply s name (fun c => prim.editFn c params) v cv { w with db := db }
        let status := if out.1.truthy then "applied" else "failed"
        (some (result status changes out.1), { out.2 with db := s.cadence.dbClose v out.2.db })
  | _, _ => (none, w)

/-- `vfpPrimWidenNetPaths(cv net)`, one shape at a time. -/
def vfpPrimWidenNetPath (net : Value) (sh : DbShape) : Bool :=
  sh.objType == "path" && sh.net.any fun n => decide (Value.str n = net)

/-- `vfpPrimWidenNetDescribe(cv params)`. -/
def vfpPrimWidenNetDescribe (cv : CellView) (params : Value) : Option Value :=
  let paths := cv.shapes.filter (vfpPrimWidenNetPath (vfpAlistGet params "net"))
  some (.ofList (paths.map fun p =>
    .ofList [.str "path_width", .str p.layerName, p.width, vfpAlistGet params "width"]))

/-- `vfpPrimWidenNetEdit(cv params)`. -/
def vfpPrimWidenNetEdit (cv : CellView) (params : Value) : Option Value × CellView :=
  let net := vfpAlistGet params "net"
  let widen sh := if vfpPrimWidenNetPath net sh then { sh with width := vfpAlistGet params "width" } else sh
  (some (if cv.shapes.any (vfpPrimWidenNetPath net) then .t else .nil),
    { cv with shapes := cv.shapes.map widen })

/-- The primitive `widen_net`. -/
def widenNet : Primitive where
  describeFn := vfpPrimWidenNetDescribe
  editFn := vfpPrimWidenNetEdit
  risk := "medium"
  checks := ["drc"]

/-- The registry with the primitive `widen_net`. -/
def Registry.sample : Registry := vfpLayoutRegisterPrimitive "widen_net" widenNet fun _ => none

section Runner

variable {s : Session} {prims : Registry} {name : String} {params : Value} {dryRun : Bool} {w : World}
  {v : ViewName} {editFn : Edit} {pre : CellView} {prim : Primitive} {r : Obj}

/-- Edit a view: the steps of the runner that change something. -/
def editView (s : Session) (tag : String) (editFn : Edit) (v : ViewName) (pre : CellView) (w : World) :
    Value × World :=
  vfpLayoutTxnApply s tag editFn v pre
    { w with db := w.db.hold v pre (w.db.handles v + 1) (w.db.windows v) }

/-- What an edit did to the design that was recorded. -/
structure LayoutEdited (s : Session) (tag : String) (editFn : Edit) (v : ViewName) (pre : CellView)
    (db db' : Database) : Prop where
  found : db.contents v = some pre
  shown : db'.contents v = some (editFn pre).2
  checkpoint : db'.contents (checkpointOf s tag v) = some pre
  others : ∀ u, u ≠ v → u ≠ checkpointOf s tag v → Kept db db' u

/-- The view as the runner holds it. -/
theorem opened_held (v : ViewName) (pre : CellView) (db : Database) :
    ∃ o, (db.hold v pre (db.handles v + 1) (db.windows v)).opened v = some o ∧ o.contents = pre ∧
      o.handles = db.handles v + 1 ∧ o.windows = db.windows v := by
  rw [Database.opened_hold, Opened.mk?, dif_pos (by omega)]
  exact ⟨_, rfl, rfl, rfl, rfl⟩

/-- Opening a view, editing it with a checkpoint, saving and closing it. -/
theorem layoutEdited {db : Database} (hfound : db.contents v = some pre)
    (htaken : CheckpointTaken s name v (db.hold v pre (db.handles v + 1) (db.windows v))) :
    LayoutEdited s name editFn v pre db (s.cadence.dbClose v
      ((editedLayout s name editFn v pre (db.hold v pre (db.handles v + 1) (db.windows v))).dbSave v)) := by
  obtain ⟨o, ho, hpre, hhandles, _⟩ := opened_held v pre db
  have hhold : ∀ u, u ≠ v → db.SameAt (db.hold v pre (db.handles v + 1) (db.windows v)) u :=
    fun u hu => Database.sameAt_hold hu
  have hne := htaken.ne
  obtain ⟨hopened, hdisk, hckpt, hothers⟩ := saved_editedLayout s name editFn pre ho htaken
  generalize (editedLayout s name editFn v pre (db.hold v pre (db.handles v + 1) (db.windows v))).dbSave v =
    saved at *
  have hheld : 0 < o.handles := by omega
  refine ⟨hfound, ?_, ?_, ?_⟩
  · rw [Cadence.contents_close hopened hheld, hdisk]
    split <;> rfl
  · rw [(s.cadence.close_others hne.symm).contents, hckpt, hpre]
  · intro u hu hu'
    exact ((hhold u hu).trans ((hothers u hu hu').trans (s.cadence.close_others hu))).kept

/-- An edit that the tunnel recorded. -/
structure EditRecorded (s : Session) (tag : String) (editFn : Edit) (v : ViewName) (pre : CellView)
    (w w' : World) : Prop where
  edited : LayoutEdited s tag editFn v pre w.db w'.db
  fresh : w.tunnel.transactions.records.get? (.str (transactionId s)) = none
  stored : ∃ u, StoredFor s (editRecord s tag editFn v pre) u ∧
    w'.tunnel.transactions.records = w.tunnel.transactions.records.insert (.str (transactionId s)) u

/-- An edit that returns an id was recorded. -/
theorem editRecorded (hfound : w.db.contents v = some pre) (h : (editView s name editFn v pre w).1 ≠ .nil) :
    (editView s name editFn v pre w).1 = .str (transactionId s) ∧
      EditRecorded s name editFn v pre w { (editView s name editFn v pre w).2 with
        db := s.cadence.dbClose v (editView s name editFn v pre w).2.db } := by
  unfold editView at h ⊢
  obtain ⟨htaken, hedit, hok⟩ := vfpLayoutTxnApply_ne_nil h
  rw [vfpLayoutTxnApply_accepted htaken hedit hok]
  obtain ⟨u, hstored, hfresh, _, hrecords, _⟩ := sendTransaction_ok (sendable_layoutRecord ..) hok
  have hdb : (sentEdit s name editFn v pre
      { w with db := w.db.hold v pre (w.db.handles v + 1) (w.db.windows v) }).2.db =
      (editedLayout s name editFn v pre
        (w.db.hold v pre (w.db.handles v + 1) (w.db.windows v))).dbSave v := db_sendTransaction
  refine ⟨rfl, ?_, hfresh, u, hstored, hrecords⟩
  dsimp only
  rw [hdb]
  exact layoutEdited hfound htaken

/-- The world after the runner has edited a view. -/
def ranEdit (s : Session) (tag : String) (editFn : Edit) (v : ViewName) (pre : CellView) (w : World) : World :=
  { (editView s tag editFn v pre w).2 with db := s.cadence.dbClose v (editView s tag editFn v pre w).2.db }

/-- However an edit ends, only the edited view and its checkpoint can change. -/
theorem kept_ranEdit {u : ViewName} (hu : u ≠ v) (hu' : u ≠ checkpointOf s name v) :
    Kept w.db (ranEdit s name editFn v pre w).db u := by
  have hhold : w.db.SameAt (w.db.hold v pre (w.db.handles v + 1) (w.db.windows v)) u :=
    Database.sameAt_hold hu
  have happly := kept_vfpLayoutTxnApply editFn pre
    { w with db := w.db.hold v pre (w.db.handles v + 1) (w.db.windows v) } hu hu'
  exact hhold.kept.trans (happly.trans (s.cadence.close_others hu).kept)

/-- However an edit ends, transactions only arrive and move on. -/
theorem txnsMove_ranEdit : TxnsMove w (ranEdit s name editFn v pre w) := by
  have happly := txnsMove_vfpLayoutTxnApply s name editFn v pre
    { w with db := w.db.hold v pre (w.db.handles v + 1) (w.db.windows v) }
  exact happly

/-- What the runner does if it finds the primitive and can open the view for an edit. -/
theorem vfpLayoutRunPrimitive_edit (hprim : prims name = some prim) (hview : paramsView params = some v)
    (hfound : w.db.contents v = some pre) (htype : pre.viewType = "maskLayout") :
    vfpLayoutRunPrimitive s prims name params false w =
      (some (vfpLayoutPrimResultJ s.printer name params
        (if (editView s name (fun c => prim.editFn c params) v pre w).1.truthy then "applied" else "failed")
        (errset (prim.describeFn pre params)) prim.risk prim.checks
        (editView s name (fun c => prim.editFn c params) v pre w).1),
      ranEdit s name (fun c => prim.editFn c params) v pre w) := by
  unfold vfpLayoutRunPrimitive
  rw [hprim, hview]
  dsimp only
  rw [if_neg (by decide), Database.dbOpenCellViewByType_of_contents hfound (.inr htype)]
  rfl

/-- A runner that gets to an answer found the primitive and a view. -/
theorem vfpLayoutRunPrimitive_some (h : (vfpLayoutRunPrimitive s prims name params false w).1 = some r) :
    ∃ prim v pre, prims name = some prim ∧ paramsView params = some v ∧ w.db.contents v = some pre ∧
      pre.viewType = "maskLayout" := by
  unfold vfpLayoutRunPrimitive at h
  split at h
  · rename_i prim v hprim hview
    rw [if_neg (by decide)] at h
    split at h
    · cases h
    · rename_i cv db hopen
      obtain ⟨hcontents, htype, _⟩ := Database.dbOpenCellViewByType_eq_some hopen
      exact ⟨prim, v, cv, hprim, hview, hcontents, htype.resolve_left (by decide)⟩
  · cases h

/-- The runner without a dry run changes nothing, or edits a view. -/
theorem vfpLayoutRunPrimitive_cases (s : Session) (prims : Registry) (name : String) (params : Value)
    (w : World) : vfpLayoutRunPrimitive s prims name params false w = (none, w) ∨
      ∃ (prim : Primitive) (v : ViewName) (pre : CellView), paramsView params = some v ∧
        w.db.contents v = some pre ∧ (vfpLayoutRunPrimitive s prims name params false w).2 =
          ranEdit s name (fun c => prim.editFn c params) v pre w := by
  cases hrun : (vfpLayoutRunPrimitive s prims name params false w).1 with
  | some r =>
    obtain ⟨prim, v, pre, hprim, hview, hfound, htype⟩ := vfpLayoutRunPrimitive_some hrun
    refine .inr ⟨prim, v, pre, hview, hfound, ?_⟩
    rw [vfpLayoutRunPrimitive_edit hprim hview hfound htype]
  | none =>
    left
    unfold vfpLayoutRunPrimitive at hrun ⊢
    split
    · rename_i prim v hprim hview
      rw [hprim, hview] at hrun
      dsimp only at hrun
      rw [if_neg (by decide)] at hrun ⊢
      cases hopen : w.db.dbOpenCellViewByType v "maskLayout" with
      | none => rfl
      | some out =>
        rw [hopen] at hrun
        cases hrun
    · rfl

/-- A dry run reports no transaction. -/
theorem vfpLayoutRunPrimitive_dry (h : (vfpLayoutRunPrimitive s prims name params true w).1 = some r) :
    Obj.get r "transaction_id" = .str "" := by
  unfold vfpLayoutRunPrimitive at h
  split at h
  · rw [if_pos rfl] at h
    split at h
    · cases h
    · obtain rfl := Option.some.inj h
      rfl
  · cases h

/-- The id that a result reports. -/
theorem transaction_id_result {printer : Printer} {status risk : String} {changes txnId : Value}
    {checks : List String} :
    Obj.get (vfpLayoutPrimResultJ printer name params status changes risk checks txnId) "transaction_id" =
      vfpToJson printer (txnId.orElse (.str "")) := rfl

/-- A transaction that the runner reports was recorded for the edit of the primitive. -/
theorem vfpLayoutRunPrimitive_reports {tid : String}
    (hrun : (vfpLayoutRunPrimitive s prims name params dryRun w).1 = some r)
    (hreport : Obj.get r "transaction_id" = .str tid) (htid : tid ≠ "") :
    ∃ prim v pre, prims name = some prim ∧ paramsView params = some v ∧ tid = transactionId s ∧
      EditRecorded s name (fun c => prim.editFn c params) v pre w
        (vfpLayoutRunPrimitive s prims name params dryRun w).2 := by
  cases dryRun with
  | true =>
    rw [vfpLayoutRunPrimitive_dry hrun] at hreport
    exact absurd (Json.str.inj hreport).symm htid
  | false =>
    obtain ⟨prim, v, pre, hprim, hview, hfound, htype⟩ := vfpLayoutRunPrimitive_some hrun
    have hedit := vfpLayoutRunPrimitive_edit (s := s) hprim hview hfound htype
    rw [hedit] at hrun ⊢
    obtain rfl := Option.some.inj hrun
    rw [transaction_id_result] at hreport
    have hid : (editView s name (fun c => prim.editFn c params) v pre w).1 ≠ .nil := by
      intro hnil
      rw [hnil] at hreport
      exact htid (Json.str.inj hreport).symm
    obtain ⟨htxn, hrecorded⟩ := editRecorded hfound hid
    rw [htxn] at hreport
    exact ⟨prim, v, pre, hprim, hview, (Json.str.inj hreport).symm, hrecorded⟩

end Runner

end VirtuosoFlow.Plugin
