import VirtuosoFlow.Base.Journal
import VirtuosoFlow.Plugin.LayoutHistory

/-!
# The layout and its transactions

Edits of one layout and rollbacks of them. A rollback puts a whole checkpoint in place of the
layout, so the layout is what the newest applied transaction left only as long as every
rollback picks that one.
-/

namespace VirtuosoFlow.Plugin

open Base Tunnel

/-- A record of a layout transaction names the cell. -/
def onLayout (lib cell : String) (u : Obj) : Bool :=
  decide (Value.ofJson (Obj.get u "kind") = .str "layout_geom") &&
    (decide (vfpAlistGet (vfpAlistGet (Value.ofJson (.obj u)) "cellview") "lib" = .str lib) &&
      decide (vfpAlistGet (vfpAlistGet (Value.ofJson (.obj u)) "cellview") "cell" = .str cell))

/-- A call on the layout of a cell that succeeds: the tunnel marks a transaction that is rolled back. -/
def Succeeded (prims : Registry) (lib cell : String) (w : World) (call : LayoutCall) : Prop :=
  (call.run prims w).1.isSome = true ∧
    match call with
    | .edit _ _ params => paramsView params = some (layoutOf lib cell)
    | .rollback s tid =>
      (∀ u, w.tunnel.transactions.records.get? (.str tid) = some u → onLayout lib cell u = true) ∧
        (s.exchange .transactionMarkRolledBack).Served

/-- An edit's checkpoint gets a name that no applied transaction on the layout has. -/
def NewName (lib cell : String) (w : World) : LayoutCall → Prop
  | .edit s name _ => ∀ k u ckpt, w.tunnel.transactions.records.get? k = some u →
      onLayout lib cell u = true → Obj.get u "status" = .str "applied" → NamesCheckpoint u lib cell ckpt →
        ckpt ≠ (checkpointOf s name (layoutOf lib cell)).view
  | .rollback _ _ => True

/-- A rollback picks the newest applied transaction on the layout. -/
def NewestPicked (lib cell : String) (w : World) : LayoutCall → Prop
  | .edit _ _ _ => True
  | .rollback _ tid => ∀ older u newer, w.tunnel.transactions.records.entries = older ++ (.str tid, u) :: newer →
      ∀ e ∈ newer, onLayout lib cell e.2 = true → Obj.get e.2 "status" ≠ .str "applied"

/-- The transaction of an edit is still applied. -/
def stillApplied (w : World) (m : MadeEdit) : Bool :=
  (w.tunnel.transactions.records.get? (.str m.tid)).any fun u => (Obj.get u "status").pyEq (.str "applied")

/-- An edit as a change of the journal; a layout is one key. -/
def layoutChange (w : World) (m : MadeEdit) : Change Unit CellView where
  before _ := some m.before
  after _ := some m.after
  standing := stillApplied w m

/-- The layout and its transactions agree. -/
structure LayoutAgreeing (lib cell : String) (c₀ : CellView) (made : List MadeEdit) (w : World) : Prop where
  restorable : ∀ m ∈ made, Restorable m w
  views : ∀ m ∈ made, m.view = layoutOf lib cell
  named : ∀ m ∈ made, ∀ u, w.tunnel.transactions.records.get? (.str m.tid) = some u →
    Obj.get u "status" = .str "applied" → onLayout lib cell u = true
  owned : ∀ k u, w.tunnel.transactions.records.get? k = some u → onLayout lib cell u = true →
    Obj.get u "status" = .str "applied" → ∃ m ∈ made, k = .str m.tid
  ordered : (made.map fun m => Key.str m.tid).Sublist (w.tunnel.transactions.records.entries.map Prod.fst)
  chained : Change.Chained (fun _ => c₀) (made.map (layoutChange w))
  contents : w.db.contents (layoutOf lib cell) =
    some (Change.replay (fun _ => c₀) (made.map (layoutChange w)) ())

section Edit

variable {lib cell : String} {c₀ : CellView} {made : List MadeEdit} {w w' : World} {s : Session}
  {name : String} {editFn : Edit} {pre : CellView}

/-- An edit still applies if its record says so. -/
theorem stillApplied_iff {m : MadeEdit} {u : Obj}
    (hrec : w.tunnel.transactions.records.get? (.str m.tid) = some u) :
    stillApplied w m = true ↔ Obj.get u "status" = .str "applied" := by
  rw [stillApplied, hrec, Option.any_some, Json.pyEq_str]

/-- The record of an edit is one on its layout. -/
theorem onLayout_stored {v : ViewName} {u : Obj} (h : StoredFor s (editRecord s name editFn v pre) u) :
    onLayout v.lib v.cell u = true ∧ Obj.get u "status" = .str "applied" := by
  obtain ⟨hlib, hcell, _⟩ := namesCheckpoint_stored h
  have hkind : Obj.get u "kind" = .str "layout_geom" := by
    rw [Obj.get, Obj.getD, h.kept "kind" _ (by decide) rfl, Option.getD_some]
  have hstatus : Obj.get u "status" = .str "applied" := by
    rw [Obj.get, Obj.getD, h.kept "status" _ (by decide) rfl, Option.getD_some]
  refine ⟨?_, hstatus⟩
  rw [onLayout, hkind, hlib, hcell]
  simp [Value.ofJson]

/-- The applied statuses of edits are those of their records. -/
theorem map_layoutChange_congr (hsame : ∀ m ∈ made,
    w'.tunnel.transactions.records.get? (.str m.tid) = w.tunnel.transactions.records.get? (.str m.tid)) :
    made.map (layoutChange w') = made.map (layoutChange w) := by
  refine List.map_congr_left fun m hm => ?_
  rw [layoutChange, layoutChange, stillApplied, stillApplied, hsame m hm]

/-- A recorded edit of the layout extends the agreement. -/
theorem LayoutAgreeing.edit {params : Value} (h : LayoutAgreeing lib cell c₀ made w)
    (hedit : EditRecorded s name editFn (layoutOf lib cell) pre w w')
    (hname : NewName lib cell w (.edit s name params)) :
    LayoutAgreeing lib cell c₀ (made ++ [⟨transactionId s, layoutOf lib cell, pre, (editFn pre).2⟩]) w' := by
  obtain ⟨u, hstored, hrecords⟩ := hedit.stored
  obtain ⟨hon, happlied⟩ := onLayout_stored hstored
  have hnew : w'.tunnel.transactions.records.get? (.str (transactionId s)) = some u := by
    rw [hrecords, Dict.get?_insert_self]
  have hne : ∀ m ∈ made, Key.str m.tid ≠ Key.str (transactionId s) := by
    intro m hm heq
    obtain ⟨u', hu'⟩ := (h.restorable m hm).stored
    rw [heq, hedit.fresh] at hu'
    cases hu'
  have hsame : ∀ m ∈ made, w'.tunnel.transactions.records.get? (.str m.tid) =
      w.tunnel.transactions.records.get? (.str m.tid) := by
    intro m hm
    rw [hrecords, Dict.get?_insert_ne _ (hne m hm)]
  have hmove : TxnsMove w w' := by
    show Evolves _ _ w.tunnel.transactions.records w'.tunnel.transactions.records
    rw [hrecords]
    exact .add hedit.fresh trivial
  have hjournal : (made ++ [(⟨transactionId s, layoutOf lib cell, pre, (editFn pre).2⟩ : MadeEdit)]).map
      (layoutChange w') = made.map (layoutChange w) ++
        [layoutChange w' ⟨transactionId s, layoutOf lib cell, pre, (editFn pre).2⟩] := by
    rw [List.map_append, map_layoutChange_congr hsame]
    rfl
  have hstanding : stillApplied w' ⟨transactionId s, layoutOf lib cell, pre, (editFn pre).2⟩ = true :=
    (stillApplied_iff hnew).mpr happlied
  have hfound : Change.replay (fun _ => c₀) (made.map (layoutChange w)) () = pre :=
    Option.some.inj (h.contents.symm.trans hedit.edited.found)
  refine ⟨?_, ?_, ?_, ?_, ?_, ?_, ?_⟩
  · intro m hm
    rcases List.mem_append.mp hm with hold | hlast
    · refine (h.restorable m hold).step hmove ?_
      intro u' ckpt hrec happlied' hnames hcheckpoint
      have hview := h.views m hold
      rw [hview] at hnames hcheckpoint ⊢
      have hne' : (⟨lib, cell, ckpt⟩ : ViewName) ≠ checkpointOf s name (layoutOf lib cell) := fun heq =>
        hname _ u' ckpt hrec (h.named m hold u' hrec happlied') happlied' hnames (congrArg ViewName.view heq)
      refine (hedit.edited.others _ ?_ hne').contents
      intro heq
      change (⟨lib, cell, ckpt⟩ : ViewName).IsCheckpoint at hcheckpoint
      rw [heq] at hcheckpoint
      exact not_isCheckpoint_layoutOf hcheckpoint
    · obtain rfl := List.mem_singleton.mp hlast
      exact restorable_made hedit
  · intro m hm
    rcases List.mem_append.mp hm with hold | hlast
    · exact h.views m hold
    · obtain rfl := List.mem_singleton.mp hlast
      rfl
  · intro m hm u' hrec happlied'
    rcases List.mem_append.mp hm with hold | hlast
    · exact h.named m hold u' (by rw [← hsame m hold]; exact hrec) happlied'
    · obtain rfl := List.mem_singleton.mp hlast
      obtain rfl : u = u' := Option.some.inj (hnew.symm.trans hrec)
      exact hon
  · intro k u' hrec hon' happlied'
    by_cases hk : k = .str (transactionId s)
    · exact ⟨_, List.mem_append_right _ (List.mem_singleton.mpr rfl), hk⟩
    · rw [hrecords, Dict.get?_insert_ne _ hk] at hrec
      obtain ⟨m, hm, hkey⟩ := h.owned k u' hrec hon' happlied'
      exact ⟨m, List.mem_append_left _ hm, hkey⟩
  · rw [hrecords, Dict.entries_insert_of_none u hedit.fresh, List.map_append, List.map_append]
    exact h.ordered.append (List.Sublist.refl _)
  · rw [hjournal]
    apply h.chained.snoc
    intro k _
    rw [hfound]
    rfl
  · rw [hjournal, Change.replay_append, Change.replay_cons, Change.replay_nil, hedit.edited.shown]
    have hcovers : (layoutChange w' ⟨transactionId s, layoutOf lib cell, pre, (editFn pre).2⟩).Covers () :=
      ⟨hstanding, rfl⟩
    rw [Change.overlay_of_covers hcovers]
    rfl

end Edit

section Rollback

variable {lib cell tid : String} {c₀ : CellView} {made older newer : List MadeEdit} {w : World} {s : Session}
  {m : MadeEdit} {u : Obj}

/-- No later edit is still applied if the newest applied transaction is picked. -/
theorem newest_of_picked (h : LayoutAgreeing lib cell c₀ (older ++ m :: newer) w)
    (hrec : w.tunnel.transactions.records.get? (.str m.tid) = some u)
    (hpicked : NewestPicked lib cell w (.rollback s m.tid)) :
    (layoutChange w m).Newest (newer.map (layoutChange w)) := by
  intro k _ f hf hcovers
  obtain ⟨m', hm', rfl⟩ := List.mem_map.mp hf
  obtain ⟨l₁, l₂, hsplit⟩ := Dict.split_of_get? hrec
  have hnodup := w.tunnel.transactions.records.nodup
  have hordered := h.ordered
  rw [hsplit, List.map_append, List.map_cons] at hnodup hordered
  rw [List.map_append, List.map_cons] at hordered
  have hnot : Key.str m.tid ∉ l₁.map Prod.fst := by
    intro hmem
    exact (List.nodup_append.mp hnodup).2.2 _ hmem _ List.mem_cons_self rfl
  have hlater : Key.str m'.tid ∈ l₂.map Prod.fst :=
    (sublist_after hnot hordered).subset (List.mem_map.mpr ⟨m', hm', rfl⟩)
  obtain ⟨e, he, hkey⟩ := List.mem_map.mp hlater
  have hentry : w.tunnel.transactions.records.get? (.str m'.tid) = some e.2 := by
    rw [← Dict.mem_entries_iff, ← hkey, hsplit]
    exact List.mem_append_right _ (List.mem_cons_of_mem _ he)
  have hmade : m' ∈ older ++ m :: newer := List.mem_append_right _ (List.mem_cons_of_mem _ hm')
  have happlied : Obj.get e.2 "status" = .str "applied" := (stillApplied_iff hentry).mp hcovers.1
  exact hpicked l₁ u l₂ hsplit e he (h.named m' hmade e.2 hentry happlied) happlied

/-- The journal of the edits once one of them is marked rolled back. -/
theorem map_layoutChange_undone {w' : World}
    (hnodup : ((older ++ m :: newer).map fun m => Key.str m.tid).Nodup)
    (hrecords : w'.tunnel.transactions.records =
      w.tunnel.transactions.records.insert (.str m.tid) (Obj.set u "status" (.str "rolled_back"))) :
    (older ++ m :: newer).map (layoutChange w') =
      older.map (layoutChange w) ++ (layoutChange w m).undone :: newer.map (layoutChange w) := by
  have hne : ∀ m' ∈ older ++ newer, Key.str m'.tid ≠ Key.str m.tid := by
    intro m' hm' heq
    rw [List.map_append, List.map_cons] at hnodup
    have hnot := List.nodup_middle.mp hnodup
    rw [List.nodup_cons, ← List.map_append, ← heq] at hnot
    exact hnot.1 (List.mem_map.mpr ⟨m', hm', rfl⟩)
  have hundone : layoutChange w' m = (layoutChange w m).undone := by
    have hstanding : stillApplied w' m = false := by
      rw [stillApplied, hrecords, Dict.get?_insert_self, Option.any_some, Obj.get_set_self]
      decide
    rw [layoutChange, hstanding]
    rfl
  have hsame : ∀ made : List MadeEdit, (∀ m' ∈ made, m' ∈ older ++ newer) →
      made.map (layoutChange w') = made.map (layoutChange w) := by
    intro made hin
    refine map_layoutChange_congr fun m' hm' => ?_
    rw [hrecords, Dict.get?_insert_ne _ (hne m' (hin m' hm'))]
  rw [List.map_append, List.map_cons, hundone, hsame older fun _ => List.mem_append_left _,
    hsame newer fun _ => List.mem_append_right _]

/-- The agreement holds on once the newest applied transaction is marked rolled back and the layout is as it found
it. -/
theorem LayoutAgreeing.undone {w' : World} (h : LayoutAgreeing lib cell c₀ (older ++ m :: newer) w)
    (hrec : w.tunnel.transactions.records.get? (.str m.tid) = some u) (hstatus : Obj.get u "status" = .str "applied")
    (hnewest : (layoutChange w m).Newest (newer.map (layoutChange w))) (hmove : TxnsMove w w')
    (hrecords : w'.tunnel.transactions.records =
      w.tunnel.transactions.records.insert (.str m.tid) (Obj.set u "status" (.str "rolled_back")))
    (hlayout : w'.db.contents (layoutOf lib cell) = some m.before)
    (hothers : ∀ v, v ≠ layoutOf lib cell → Kept w.db w'.db v) :
    LayoutAgreeing lib cell c₀ (older ++ m :: newer) w' := by
  have hjournal' := map_layoutChange_undone (h.ordered.nodup w.tunnel.transactions.records.nodup) hrecords
  have hchained := h.chained
  rw [List.map_append, List.map_cons] at hchained
  -- a transaction that is still applied is another one, and its record is as before
  have hbefore : ∀ k u', w'.tunnel.transactions.records.get? k = some u' → Obj.get u' "status" = .str "applied" →
      w.tunnel.transactions.records.get? k = some u' := by
    intro k u' hrec' happlied
    rw [hrecords] at hrec'
    by_cases hk : k = Key.str m.tid
    · rw [hk, Dict.get?_insert_self] at hrec'
      obtain rfl := Option.some.inj hrec'
      simp at happlied
    · rwa [Dict.get?_insert_ne _ hk] at hrec'
  refine ⟨?_, h.views, ?_, ?_, ?_, ?_, ?_⟩
  · intro m' hm'
    refine (h.restorable m' hm').step hmove ?_
    intro u' ckpt' _ _ _ hcheckpoint'
    refine (hothers _ ?_).contents
    rintro heq
    rw [heq] at hcheckpoint'
    exact not_isCheckpoint_layoutOf hcheckpoint'
  · intro m' hm' u' hrec' happlied
    exact h.named m' hm' u' (hbefore _ u' hrec' happlied) happlied
  · intro k u' hrec' hon' happlied
    exact h.owned k u' (hbefore k u' hrec' happlied) hon' happlied
  · obtain ⟨l₁, l₂, hsplit⟩ := Dict.split_of_get? hrec
    have hordered := h.ordered
    rw [hsplit] at hordered
    rw [hrecords, Dict.entries_insert_of_split hsplit]
    simpa using hordered
  · rw [hjournal']
    exact hchained.undo hnewest
  · have hundo : some (Change.replay (fun _ => c₀) ((older ++ m :: newer).map (layoutChange w')) ()) =
        some m.before := by
      rw [hjournal', Change.replay_undo hchained ((stillApplied_iff hrec).mpr hstatus) hnewest ()]
      exact if_pos rfl
    rw [hundo]
    exact hlayout

/-- A rollback of the newest applied transaction keeps the agreement. -/
theorem LayoutAgreeing.rollback (h : LayoutAgreeing lib cell c₀ made w)
    (hback : (vfpLayoutTxnRollback s tid w).1 = some true)
    (hon : ∀ u, w.tunnel.transactions.records.get? (.str tid) = some u → onLayout lib cell u = true)
    (hserved : (s.exchange .transactionMarkRolledBack).Served)
    (hpicked : NewestPicked lib cell w (.rollback s tid)) :
    LayoutAgreeing lib cell c₀ made (vfpLayoutTxnRollback s tid w).2 := by
  obtain ⟨u, lib', cell', ckpt, htid, hrec, hstatus, hnames, _, hworld⟩ := vfpLayoutTxnRollback_true hback
  obtain ⟨m, hm, hkey⟩ := h.owned _ u hrec (hon u hrec) hstatus
  obtain rfl : tid = m.tid := Key.str.inj hkey
  obtain ⟨ckpt', hcheckpoint, hnames', hckpt⟩ := (h.restorable m hm).restorable u hrec hstatus
  obtain ⟨rfl, rfl, rfl⟩ := hnames.eq hnames'
  obtain ⟨hlayout, hothers⟩ := vfpLayoutTxnRollback_restores hback hrec hnames
  have hrecords : (vfpLayoutTxnRollback s m.tid w).2.tunnel.transactions.records =
      w.tunnel.transactions.records.insert (.str m.tid) (Obj.set u "status" (.str "rolled_back")) := by
    rw [hworld]
    exact markRolledBack_records hserved htid hrec hstatus
  rw [hckpt] at hlayout
  rw [h.views m hm] at hlayout hothers
  have hmove := (vfpLayoutTxnRollback_keeps s m.tid w).2
  generalize (vfpLayoutTxnRollback s m.tid w).2 = w' at *
  obtain ⟨older, newer, rfl⟩ := List.append_of_mem hm
  exact h.undone hrec hstatus (newest_of_picked h hrec hpicked) hmove hrecords hlayout hothers

end Rollback

section Runs

variable {prims : Registry} {lib cell : String} {c₀ : CellView} {made : List MadeEdit} {w₀ w : World}
  {history : List (Entry World LayoutCall (Option String))}

/-- What a layout has once only the applied edits count is what the newest of them left. -/
theorem replay_layoutChange (c₀ : CellView) (made : List MadeEdit) (w : World) :
    Change.replay (fun _ => c₀) (made.map (layoutChange w)) () =
      ((made.filter (stillApplied w)).getLast?).elim c₀ MadeEdit.after := by
  have hstanding : ((fun e : Change Unit CellView => e.standing) ∘ layoutChange w) = stillApplied w := rfl
  have hafter : (fun m => (layoutChange w m).after ()) = fun m : MadeEdit => some m.after := rfl
  rw [Change.replay_eq_getLast, List.filter_map, hstanding, List.filterMap_map]
  show ((List.filterMap (fun m => (layoutChange w m).after ()) _).getLast?).getD c₀ = _
  rw [hafter, List.filterMap_eq_map', List.getLast?_map]
  cases (made.filter (stillApplied w)).getLast? <;> rfl

/-- Every call that succeeds keeps the layout in agreement, as long as a rollback picks the newest
applied transaction and an edit takes a new name for its checkpoint. -/
theorem layoutAgreeing_of_run
    (hinit : ∀ k u, w₀.tunnel.transactions.records.get? k = some u → onLayout lib cell u = true →
      Obj.get u "status" ≠ .str "applied")
    (hcontents : w₀.db.contents (layoutOf lib cell) = some c₀)
    (hrun : Run (layoutMachine prims w₀) (fun w call =>
      Succeeded prims lib cell w call ∧ NewestPicked lib cell w call ∧ NewName lib cell w call) history w) :
    LayoutAgreeing lib cell c₀ (madeIn history) w := by
  induction hrun with
  | init hw =>
    obtain rfl : _ = w₀ := hw
    refine ⟨?_, ?_, ?_, ?_, List.nil_sublist _, trivial, hcontents⟩
    · intro m hm; cases hm
    · intro m hm; cases hm
    · intro m hm; cases hm
    · intro k u hrec hon happlied
      exact absurd happlied (hinit k u hrec hon)
  | @step history w call hrun hok ih =>
    obtain ⟨⟨hsome, hcall⟩, hpicked, hname⟩ := hok
    cases call with
    | edit s name params =>
      obtain ⟨made, hmade⟩ := Option.isSome_iff_exists.mp hsome
      obtain ⟨prim, v, pre, hview, _, hrecorded, hin⟩ := edit_made w₀ history hmade
      obtain rfl : v = layoutOf lib cell := Option.some.inj (hview.symm.trans hcall)
      rw [hin]
      exact ih.edit hrecorded hname
    | rollback s tid =>
      obtain ⟨hon, hserved⟩ := hcall
      have hback : (vfpLayoutTxnRollback s tid w).1 = some true := by
        by_contra hnot
        simp [LayoutCall.run, hnot] at hsome
      rw [none_made (by rfl)]
      exact ih.rollback hback hon hserved hpicked

/-- The layout is what the newest applied transaction left, or as it was at the start if none is
applied, as long as every rollback picks that transaction. -/
theorem layout_stays_truthful
    (hinit : ∀ k u, w₀.tunnel.transactions.records.get? k = some u → onLayout lib cell u = true →
      Obj.get u "status" ≠ .str "applied")
    (hcontents : w₀.db.contents (layoutOf lib cell) = some c₀)
    (hrun : Run (layoutMachine prims w₀) (fun w call =>
      Succeeded prims lib cell w call ∧ NewestPicked lib cell w call ∧ NewName lib cell w call) history w) :
    w.db.contents (layoutOf lib cell) =
      some (((madeIn history).filter (stillApplied w)).getLast?.elim c₀ MadeEdit.after) := by
  have h := layoutAgreeing_of_run hinit hcontents hrun
  rw [h.contents, replay_layoutChange]

/-- Widen the path a second later; copies stay open or not. -/
def sampleWidenLater (lingers : Bool) : LayoutCall :=
  sampleWidenAt lingers "b" "Jun 13 14:30:06 2026" "layout" 3

/-- Two edits of the sample layout, a second apart. -/
def sampleApart (lingers : Bool) : World :=
  ((sampleWidenLater lingers).run .sample (sampleOneEdit lingers)).2

/-- A rollback in a process whose copies stay open or not. -/
def sampleRollback (lingers : Bool) (tid : String) : LayoutCall :=
  .rollback { Session.sample with cadence := .sample lingers } tid

/-- The older of the two is rolled back. -/
def sampleOlderBack (lingers : Bool) : World :=
  ((sampleRollback lingers "t_a").run .sample (sampleApart lingers)).2

/-- The newer of the two is rolled back. -/
def sampleNewerBack (lingers : Bool) : World :=
  ((sampleRollback lingers "t_b").run .sample (sampleApart lingers)).2

/-- A sample rollback of either transaction that returns `t` succeeds. -/
theorem succeeded_rollback_sample {lingers : Bool} {tid : String}
    (h : ((sampleRollback lingers tid).run .sample (sampleApart lingers)).1.isSome = true)
    (hon : ((sampleApart lingers).tunnel.transactions.records.get? (.str tid)).all (onLayout "lib" "top") = true) :
    Succeeded .sample "lib" "top" (sampleApart lingers) (sampleRollback lingers tid) := by
  refine ⟨h, ?_, Or.inl rfl⟩
  intro u hu
  rw [hu] at hon
  exact hon

/-- The first edit finds no checkpoint. -/
theorem newName_first (lingers : Bool) :
    NewName "lib" "top" (sampleLayoutWorld "layout") (sampleWidenFirst lingers) := by
  intro k u ckpt hrec
  cases hrec

/-- A second later there is another name for a checkpoint. -/
theorem newName_later (lingers : Bool) :
    NewName "lib" "top" (sampleOneEdit lingers) (sampleWidenLater lingers) := by
  intro k u ckpt hrec _ _ hnames
  have hkey : k = .str "t_a" := by
    have hkeys : (sampleOneEdit lingers).tunnel.transactions.records.entries.map Prod.fst = [.str "t_a"] := by
      cases lingers <;> rfl
    have hk : k ∈ (sampleOneEdit lingers).tunnel.transactions.records.entries.map Prod.fst :=
      List.mem_map.mpr ⟨(k, u), Dict.mem_entries_iff.mpr hrec, rfl⟩
    rw [hkeys] at hk
    exact List.mem_singleton.mp hk
  subst hkey
  have hfirst : NamesCheckpoint u "lib" "top" "layout_vfpckpt_widen_net_Jun_13_14_30_05_2026" := by
    cases lingers <;>
      (obtain rfl : _ = u := Option.some.inj (Eq.trans (by rfl) hrec); exact ⟨by rfl, by rfl, by rfl⟩)
  obtain ⟨_, _, rfl⟩ := hfirst.eq hnames
  cases lingers <;> decide

/-- No transaction is newer than the second. -/
theorem newestPicked_sample (lingers : Bool) :
    NewestPicked "lib" "top" (sampleApart lingers) (sampleRollback lingers "t_b") := by
  intro older u newer hsplit e he
  have hkeys : (sampleApart lingers).tunnel.transactions.records.entries.map Prod.fst =
      [.str "t_a", .str "t_b"] := by
    cases lingers <;> rfl
  rw [hsplit, List.map_append, List.map_cons] at hkeys
  have hnone : newer = [] := by
    rcases older with _ | ⟨a, _ | ⟨b, older⟩⟩ <;> simp_all
  rw [hnone] at he
  cases he

/-- The two edits succeed, whether copies stay open or not. -/
theorem succeeded_edits (lingers : Bool) :
    Succeeded .sample "lib" "top" (sampleLayoutWorld "layout") (sampleWidenFirst lingers) ∧
      Succeeded .sample "lib" "top" (sampleOneEdit lingers) (sampleWidenLater lingers) := by
  cases lingers <;> exact ⟨⟨by rfl, by rfl⟩, ⟨by rfl, by rfl⟩⟩

/-- The newer of two edits is rolled back, and the older one still applies. -/
theorem layout_stays_truthful_sample :
    (sampleNewerBack true).db.contents (layoutOf "lib" "top") =
      some { samplePathLayout with shapes := [⟨"path", "M1", some "a", .fix 2⟩] } := by
  obtain ⟨hfirst, hlater⟩ := succeeded_edits true
  have hback : Succeeded .sample "lib" "top" (sampleApart true) (sampleRollback true "t_b") :=
    succeeded_rollback_sample (by rfl) (by rfl)
  have hpicked : NewestPicked "lib" "top" (sampleLayoutWorld "layout") (sampleWidenFirst true) ∧
      NewestPicked "lib" "top" (sampleOneEdit true) (sampleWidenLater true) := ⟨trivial, trivial⟩
  refine (layout_stays_truthful ?_ rfl
    (.step (.step (.step (.init rfl) ⟨hfirst, hpicked.1, newName_first true⟩)
      ⟨hlater, hpicked.2, newName_later true⟩)
      ⟨hback, newestPicked_sample true, trivial⟩)).trans ?_
  · intro k u hrec
    cases hrec
  · rfl

/-- The older of two transactions is rolled back: the layout is as at the start, while the newer one, still
applied, left another. -/
def OlderUndone (lingers : Bool) : Prop :=
  ∃ history, Run (layoutMachine .sample (sampleLayoutWorld "layout"))
      (fun w call => Succeeded .sample "lib" "top" w call ∧ NewName "lib" "top" w call)
      history (sampleOlderBack lingers) ∧
    (sampleOlderBack lingers).db.contents (layoutOf "lib" "top") = some samplePathLayout ∧
    ((madeIn history).filter (stillApplied (sampleOlderBack lingers))).getLast?.elim samplePathLayout
      MadeEdit.after = { samplePathLayout with shapes := [⟨"path", "M1", some "a", .fix 3⟩] }

/-- The older of two edits is rolled back, whether its copy lingers or not. -/
theorem olderUndone (lingers : Bool) : OlderUndone lingers := by
  obtain ⟨hfirst, hlater⟩ := succeeded_edits lingers
  have hback : Succeeded .sample "lib" "top" (sampleApart lingers) (sampleRollback lingers "t_a") :=
    succeeded_rollback_sample (by cases lingers <;> rfl) (by cases lingers <;> rfl)
  exact ⟨_, .step (.step (.step (.init rfl) ⟨hfirst, newName_first lingers⟩) ⟨hlater, newName_later lingers⟩)
    ⟨hback, trivial⟩, by cases lingers <;> rfl, by cases lingers <;> rfl⟩

/-- An older transaction can be undone under a newer one, whether a copy stays open or not. -/
theorem layout_older_undone_under_newer : OlderUndone false ∧ OlderUndone true :=
  ⟨olderUndone false, olderUndone true⟩

end Runs

end VirtuosoFlow.Plugin
