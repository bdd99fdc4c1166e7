import VirtuosoFlow.Plugin.Recorded

/-!
# Applies that fail

When not every parameter can be set, or the tunnel does not accept the transaction,
`vfpApplyTransaction` writes the values that the proposal says were there before. The schematic
is as it was exactly if the proposal was right about the parameters it names.
-/

namespace VirtuosoFlow.Plugin

open Base Tunnel

/-- The changes of a proposal. -/
def changesOf (proposal : Value) : List Value := (vfpAlistGet proposal "changes").toList

/-- Open the schematic that a proposal is about. -/
def openFor (proposal : Value) (db : Database) : Option (ViewName × CellView × Database) :=
  openSchematic (vfpAlistGet (vfpAlistGet proposal "cellview") "lib")
    (vfpAlistGet (vfpAlistGet proposal "cellview") "cell") db

/-- The value of a parameter in a view, if the view has it. -/
def World.param (w : World) (v : ViewName) (k : Value × Value) : Option Value :=
  (w.db.contents v).bind fun cv => cv.param? k

section Steps

variable {s : Session} {proposal : Value} {w : World} {v : ViewName} {cv : CellView} {db : Database}

/-- The schematic is open for editing after the checkpoint. -/
theorem opened_checkpoint (c : Cadence) (time : String) (hopen : openFor proposal w.db = some (v, cv, db)) :
    ∃ o, (vfpCheckpointCellView c "preapply" time v db).2.opened v = some o ∧ o.contents = cv := by
  obtain ⟨lib, cell, _, _, rfl, _, _, rfl⟩ := openSchematic_eq_some hopen
  have hheld : 0 < w.db.handles (schematicOf lib cell) + 1 + w.db.windows (schematicOf lib cell) := by omega
  have hne : schematicOf lib cell ≠ ⟨(schematicOf lib cell).lib, (schematicOf lib cell).cell,
      "schematic" ++ "_vfpckpt_" ++ "preapply" ++ "_" ++ time⟩ := by
    intro heq
    exact checkpoint_ne "schematic" "preapply" time (congrArg ViewName.view heq).symm
  have hsame := sameAt_checkpointCellView c "schematic" "preapply" time (schematicOf lib cell)
    (schematicOf lib cell) (w.db.hold (schematicOf lib cell) cv (w.db.handles (schematicOf lib cell) + 1)
      (w.db.windows (schematicOf lib cell))) hne
  refine ⟨⟨cv, _, _, hheld⟩, ?_, rfl⟩
  rw [vfpCheckpointCellView, hsame.opened, Database.opened_hold, Opened.mk?, dif_pos hheld]

/-- The world as `vfpApplyTransaction` hands it to the tunnel: the parameters set and saved. -/
def savedApply (s : Session) (proposal : Value) (w : World) (v : ViewName) (cv : CellView)
    (db : Database) : World :=
  let ckpt := vfpCheckpointCellView s.cadence "preapply" (vfpCompactTime s) v db
  { w with db := (ckpt.2.edit v (setParams "after" (changesOf proposal) cv).2).dbSave v }

/-- What `vfpApplyTransaction` sends. -/
def sentApply (s : Session) (proposal : Value) (v : ViewName) (cv : CellView) (db : Database) : Obj :=
  let out := setParams "after" (changesOf proposal) cv
  schematicRecord s (vfpAlistGet proposal "proposal_id") (vfpAlistGet (vfpAlistGet proposal "cellview") "lib")
    (vfpAlistGet (vfpAlistGet proposal "cellview") "cell")
    (vfpRecordBeforeState s.printer cv (changesOf proposal))
    (vfpRecordAfterState s.printer out.2 (changesOf proposal)) (s.connectivity cv out.2)
    (vfpCheckpointCellView s.cadence "preapply" (vfpCompactTime s) v db).1

/-- The answer to the transaction of an apply, and the world after it. -/
def answeredApply (s : Session) (proposal : Value) (w : World) (v : ViewName) (cv : CellView)
    (db : Database) : Reply × World :=
  sendTransaction s (sentApply s proposal v cv db) (savedApply s proposal w v cv db)

/-- The design after an apply was undone. -/
def undoneApply (proposal : Value) (v : ViewName) (cv : CellView) (db : Database) : Database :=
  vfpRestoreFromChanges v (changesOf proposal) (setParams "after" (changesOf proposal) cv).2 db

/-- An apply whose parameters are all there and whose transaction is accepted. -/
theorem vfpApplyTransaction_accepted (hopen : openFor proposal w.db = some (v, cv, db))
    (hall : (setParams "after" (changesOf proposal) cv).1 = true)
    (hok : (answeredApply s proposal w v cv db).1.ok = true) :
    vfpApplyTransaction s proposal w = (.str (transactionId s), (answeredApply s proposal w v cv db).2) := by
  obtain ⟨u, hstored, _, hpayload, _⟩ := sendTransaction_ok (sendable_schematicRecord ..) hok
  unfold vfpApplyTransaction
  dsimp only
  rw [show openSchematic _ _ w.db = some (v, cv, db) from hopen]
  refine (if_pos hall).trans ((if_pos hok).trans (Prod.ext ?_ rfl))
  show vfpAlistGet (vfpAlistGet (answeredApply s proposal w v cv db).1.payload "transaction") _ = _
  rw [answeredApply, sentApply, hpayload, vfpAlistGet_created hstored]

/-- An apply whose transaction is not accepted. -/
theorem vfpApplyTransaction_rejected (hopen : openFor proposal w.db = some (v, cv, db))
    (hall : (setParams "after" (changesOf proposal) cv).1 = true)
    (hok : (answeredApply s proposal w v cv db).1.ok = false) :
    vfpApplyTransaction s proposal w =
      (.nil, markProposalFailed s (vfpAlistGet proposal "proposal_id")
        { (answeredApply s proposal w v cv db).2 with
          db := undoneApply proposal v cv (savedApply s proposal w v cv db).db }) := by
  have hnot : ¬ (answeredApply s proposal w v cv db).1.ok = true := by simp [hok]
  unfold vfpApplyTransaction
  dsimp only
  rw [show openSchematic _ _ w.db = some (v, cv, db) from hopen]
  exact (if_pos hall).trans (if_neg hnot)

/-- An apply that cannot set every parameter. -/
theorem vfpApplyTransaction_incomplete (hopen : openFor proposal w.db = some (v, cv, db))
    (hall : (setParams "after" (changesOf proposal) cv).1 = false) :
    vfpApplyTransaction s proposal w =
      (.nil, markProposalFailed s (vfpAlistGet proposal "proposal_id")
        { w with
          db := undoneApply proposal v cv
            (vfpCheckpointCellView s.cadence "preapply" (vfpCompactTime s) v db).2 }) := by
  have hnot : ¬ (setParams "after" (changesOf proposal) cv).1 = true := by simp [hall]
  unfold vfpApplyTransaction
  dsimp only
  rw [show openSchematic _ _ w.db = some (v, cv, db) from hopen]
  exact if_neg hnot

/-- An apply that does not return `nil` opened the schematic, set every parameter and had the tunnel
store the transaction. -/
theorem vfpApplyTransaction_ne_nil (h : (vfpApplyTransaction s proposal w).1 ≠ .nil) :
    ∃ v cv db u, openFor proposal w.db = some (v, cv, db) ∧
      (setParams "after" (changesOf proposal) cv).1 = true ∧
      (vfpApplyTransaction s proposal w).1 = .str (transactionId s) ∧
      (vfpApplyTransaction s proposal w).2.db = (savedApply s proposal w v cv db).db ∧
      (vfpApplyTransaction s proposal w).2.db.contents v =
        some (setParams "after" (changesOf proposal) cv).2 ∧
      StoredFor s (sentApply s proposal v cv db) u ∧
      w.tunnel.transactions.records.get? (.str (transactionId s)) = none ∧
      (vfpApplyTransaction s proposal w).2.tunnel.transactions.records =
        w.tunnel.transactions.records.insert (.str (transactionId s)) u := by
  cases hopen : openFor proposal w.db with
  | none =>
    exfalso
    apply h
    unfold vfpApplyTransaction
    dsimp only
    rw [show openSchematic _ _ w.db = none from hopen]
  | some out =>
    obtain ⟨v, cv, db⟩ := out
    have hall : (setParams "after" (changesOf proposal) cv).1 = true := by
      by_contra hnot
      rw [Bool.not_eq_true] at hnot
      exact h (by rw [vfpApplyTransaction_incomplete hopen hnot])
    have hanswered : (answeredApply s proposal w v cv db).1.ok = true := by
      by_contra hnot
      rw [Bool.not_eq_true] at hnot
      exact h (by rw [vfpApplyTransaction_rejected hopen hall hnot])
    obtain ⟨u, hstored, hfree, _, hrecords, _⟩ :=
      sendTransaction_ok (sendable_schematicRecord ..) hanswered
    obtain ⟨o, ho, _⟩ := opened_checkpoint s.cadence (vfpCompactTime s) hopen
    rw [vfpApplyTransaction_accepted hopen hall hanswered]
    have hdb : (answeredApply s proposal w v cv db).2.db = (savedApply s proposal w v cv db).db := by
      rw [answeredApply, db_sendTransaction]
    refine ⟨v, cv, db, u, rfl, hall, rfl, hdb, ?_, hstored, hfree, hrecords⟩
    rw [hdb]
    exact (contents_edit_dbSave _ ho).1

/-- An apply that returns `nil` leaves the values that the proposal names as those before. -/
theorem contents_failed (hopen : openFor proposal w.db = some (v, cv, db))
    (hnil : (vfpApplyTransaction s proposal w).1 = .nil) :
    (vfpApplyTransaction s proposal w).2.db.contents v =
      some (setParams "before" (changesOf proposal) (setParams "after" (changesOf proposal) cv).2).2 := by
  obtain ⟨o, ho, _⟩ := opened_checkpoint s.cadence (vfpCompactTime s) hopen
  cases hall : (setParams "after" (changesOf proposal) cv).1 with
  | false =>
    rw [vfpApplyTransaction_incomplete hopen hall, db_markProposalFailed]
    exact (contents_edit_dbSave _ ho).1
  | true =>
    cases hok : (answeredApply s proposal w v cv db).1.ok with
    | true =>
      rw [vfpApplyTransaction_accepted hopen hall hok] at hnil
      cases hnil
    | false =>
      rw [vfpApplyTransaction_rejected hopen hall hok, db_markProposalFailed]
      have hsaved := (contents_edit_dbSave (setParams "after" (changesOf proposal) cv).2 ho).2.2
      exact (contents_edit_dbSave _ hsaved).1

end Steps

section Intact

variable {s : Session} {proposal : Value} {w : World} {v : ViewName} {cv : CellView} {db : Database}

/-- Every parameter that a proposal names is as it was. -/
def Intact (proposal : Value) (v : ViewName) (w w' : World) : Prop :=
  ∀ ch ∈ changesOf proposal, w'.param v (target ch) = w.param v (target ch)

/-- What a proposal last names as the value before is what the cellview has, at every parameter that
is there. -/
def RightAbout (proposal : Value) (cv : CellView) : Prop :=
  ∀ ch ∈ changesOf proposal, ∀ value, cv.param? (target ch) = some value →
    lastWrite (writesOf "before" (changesOf proposal)) (target ch) = some value

/-- An apply that returns `nil` after it opened the schematic leaves every parameter of the proposal
as it was exactly if the proposal is right about the values before. -/
theorem failed_apply_intact_iff (hopen : openFor proposal w.db = some (v, cv, db))
    (hnil : (vfpApplyTransaction s proposal w).1 = .nil) :
    Intact proposal v w (vfpApplyTransaction s proposal w).2 ↔ RightAbout proposal cv := by
  have hcontents : w.db.contents v = some cv := by
    obtain ⟨_, _, _, _, rfl, hcontents, _⟩ := openSchematic_eq_some hopen
    exact hcontents
  have hstep : ∀ ch ∈ changesOf proposal,
      ((vfpApplyTransaction s proposal w).2.param v (target ch) = w.param v (target ch) ↔
        ∀ value, cv.param? (target ch) = some value →
          lastWrite (writesOf "before" (changesOf proposal)) (target ch) = some value) := by
    intro ch hch
    have hnamed : target ch ∈ (writesOf "before" (changesOf proposal)).map Prod.fst := by
      rw [keys_writesOf]
      exact List.mem_map.mpr ⟨ch, hch, rfl⟩
    have hkeys : (writesOf "before" (changesOf proposal)).map Prod.fst =
        (writesOf "after" (changesOf proposal)).map Prod.fst := by
      rw [keys_writesOf, keys_writesOf]
    have hrewrite := paramSlots.get?_rewrite hkeys cv (target ch)
    rw [World.param, World.param, contents_failed hopen hnil, hcontents, setParams_snd, setParams_snd]
    change paramSlots.get? _ _ = paramSlots.get? _ _ ↔ _
    rw [hrewrite]
    exact paramSlots.get?_writeAll_eq_iff hnamed
  constructor
  · intro hintact ch hch
    exact (hstep ch hch).mp (hintact ch hch)
  · intro hright ch hch
    exact (hstep ch hch).mpr (hright ch hch)

/-- A change of a proposal, as `proposal.get` answers it; the value before may be absent. -/
def sampleChange (instName param : String) (before : Option String) (after : String) : Json :=
  .obj ([("type", .str "set_instance_param"), ("instance", .str instName), ("param", .str param)] ++
    (before.toList.map fun b => ("before", .str b)) ++ [("after", .str after)])

/-- A proposal for the cell `lib/top`. -/
def sampleProposalFor (changes : List Json) : Value :=
  Value.ofJson (.obj [("proposal_id", .str "p_1"),
    ("cellview", .obj [("lib", .str "lib"), ("cell", .str "top"), ("view", .str "schematic")]),
    ("changes", .arr changes)])

/-- A schematic with one resistor. -/
def sampleSchematic : CellView where
  viewType := "schematic"
  instances := [⟨"R1", (0, 0), some [⟨"r", .str "1K"⟩]⟩]
  shapes := []

/-- A library with this schematic, and a fresh tunnel. -/
def sampleWorld : World where
  db :=
    { disk := fun v => if v = schematicOf "lib" "top" then some sampleSchematic else none
      opened := fun _ => none }
  tunnel := Tunnel.fresh .empty
  inFlight := []

/-- The proposal names the right value for the parameter that is there. -/
def sampleRight : Value :=
  sampleProposalFor [sampleChange "R1" "r" (some "1K") "2K", sampleChange "R9" "r" (some "1K") "2K"]

/-- A proposal that names the right value leaves the design intact. -/
theorem failed_apply_intact_iff_sample :
    Intact sampleRight (schematicOf "lib" "top") sampleWorld
      (vfpApplyTransaction .sample sampleRight sampleWorld).2 := by
  have hopen : ∃ db, openFor sampleRight sampleWorld.db =
      some (schematicOf "lib" "top", sampleSchematic, db) := ⟨_, by rfl⟩
  obtain ⟨db, hopen⟩ := hopen
  refine (failed_apply_intact_iff hopen (by rfl)).mpr ?_
  intro ch hch value hvalue
  have hchanges : changesOf sampleRight =
      [Value.ofJson (sampleChange "R1" "r" (some "1K") "2K"),
        Value.ofJson (sampleChange "R9" "r" (some "1K") "2K")] := rfl
  rw [hchanges] at hch
  simp only [List.mem_cons, List.not_mem_nil, or_false] at hch
  rcases hch with rfl | rfl
  · exact hvalue ▸ (by decide)
  · cases hvalue

/-- The proposal does not name the value before, and one of its instances is missing. -/
def sampleStale : Value :=
  sampleProposalFor [sampleChange "R1" "r" none "2K", sampleChange "R9" "r" none "2K"]

/-- The resistor loses its value. -/
theorem failed_apply_lost : (vfpApplyTransaction .sample sampleStale sampleWorld).1 = .nil ∧
    sampleWorld.param (schematicOf "lib" "top") (.str "R1", .str "r") = some (.str "1K") ∧
    (vfpApplyTransaction .sample sampleStale sampleWorld).2.param (schematicOf "lib" "top")
      (.str "R1", .str "r") = some .nil := by
  exact ⟨by rfl, by rfl, by rfl⟩

end Intact

end VirtuosoFlow.Plugin
