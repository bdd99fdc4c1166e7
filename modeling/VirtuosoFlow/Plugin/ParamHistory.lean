import VirtuosoFlow.Base.Run
import VirtuosoFlow.Plugin.Rollback

/-!
# Histories of schematic transactions

Applies and rollbacks on one schematic, each rollback of whatever applied transaction is
picked. The stored transactions are a journal of the changes, and the schematic agrees with it
as long as every rollback picks a transaction whose parameters no later applied transaction
sets.
-/

namespace VirtuosoFlow.Plugin

open Base Tunnel

/-- A call on the schematic: apply a proposal, or roll a transaction back. -/
inductive ParamCall where
  | apply (s : Session) (proposal : Value)
  | rollback (s : Session) (tid : String)

/-- Whether a call succeeds, and the world after it. -/
def ParamCall.run : ParamCall → World → Bool × World
  | .apply s proposal, w =>
    ((vfpApplyTransaction s proposal w).1.truthy, (vfpApplyTransaction s proposal w).2)
  | .rollback s tid, w =>
    (decide ((vfpRollbackTransaction s tid w).1 = some true), (vfpRollbackTransaction s tid w).2)

/-- The calls from a given world. -/
def paramMachine (w₀ : World) : Machine World ParamCall Bool where
  init w := w = w₀
  step := ParamCall.run

/-- A call on the schematic of a cell that succeeds: the values applied are strings, and the tunnel
marks a transaction that is rolled back. -/
def Succeeds (lib cell : String) (w : World) (call : ParamCall) : Prop :=
  (call.run w).1 = true ∧
    match call with
    | .apply _ proposal =>
      vfpAlistGet (vfpAlistGet proposal "cellview") "lib" = .str lib ∧
        vfpAlistGet (vfpAlistGet proposal "cellview") "cell" = .str cell ∧
        ∀ ch ∈ changesOf proposal, ∃ x, vfpAlistGet ch "after" = .str x
    | .rollback s tid =>
      (∀ u, w.tunnel.transactions.records.get? (.str tid) = some u → onSchematic lib cell u = true) ∧
        (s.exchange .transactionMarkRolledBack).Served

/-- A rollback picks a transaction whose parameters no later applied transaction sets. -/
def PicksNewest (lib cell : String) (w : World) : ParamCall → Prop
  | .apply _ _ => True
  | .rollback _ tid => ∀ older u newer,
      w.tunnel.transactions.records.entries = older ++ (.str tid, u) :: newer →
      ∀ k, (valuesOf (Obj.getD u "after" (.arr [])) k).isSome = true →
        ∀ e ∈ newer, onSchematic lib cell e.2 = true → Obj.get e.2 "status" = .str "applied" →
          valuesOf (Obj.getD e.2 "after" (.arr [])) k = none

/-- The value after that the newest applied transaction on a schematic recorded for a parameter. -/
def newestApplied (lib cell : String) (t : Tunnel.Tunnel) (k : Value × Value) : Option Value :=
  (((t.transactions.records.values.filter (onSchematic lib cell)).filter fun u =>
    (Obj.get u "status").pyEq (.str "applied")).filterMap
      fun u => valuesOf (Obj.getD u "after" (.arr [])) k).getLast?

/-- The journal replays to what the newest applied transactions recorded. -/
theorem replay_journalOf (lib cell : String) (t : Tunnel.Tunnel) (base : Value × Value → Value)
    (k : Value × Value) :
    Change.replay base (journalOf lib cell t) k = (newestApplied lib cell t k).getD (base k) := by
  rw [Change.replay_eq_getLast, journalOf, newestApplied, List.filter_map, List.filterMap_map]
  rfl

/-- An applied record of a schematic transaction: the values before and after are strings, of the same
parameters. -/
structure RecordsParams (u : Obj) : Prop where
  unique : UniqueMembers u
  domain : ∀ k, ((changeOf u).before k).isSome = ((changeOf u).after k).isSome
  strings : ∀ k x, (changeOf u).before k = some x → ∃ text, x = .str text

/-- Opening what a record on a schematic names opens this schematic. -/
theorem openRecorded_eq_some {lib cell : String} {u : Obj} {db db' : Database} {v : ViewName}
    {cv : CellView} (hunique : UniqueMembers u) (hon : onSchematic lib cell u = true)
    (hopen : openRecorded u db = some (v, cv, db')) :
    v = schematicOf lib cell ∧ db.contents v = some cv := by
  obtain ⟨l, c, hlib, hcell, rfl, hcontents, _⟩ := openSchematic_eq_some hopen
  obtain ⟨hlib', hcell'⟩ := onSchematic_iff.mp hon
  rw [vfpAlistGet_obj hunique] at hlib hcell
  obtain rfl : lib = l := Value.str.inj (hlib'.symm.trans hlib)
  obtain rfl : cell = c := Value.str.inj (hcell'.symm.trans hcell)
  exact ⟨rfl, hcontents⟩

/-- The schematic agrees with the journal of its transactions. -/
structure Agreeing (lib cell : String) (cv₀ cv : CellView) (w : World) : Prop where
  contents : w.db.contents (schematicOf lib cell) = some cv
  slots : ∀ k, (cv.param? k).isSome = (cv₀.param? k).isSome
  strings : StringValued cv
  records : ∀ e ∈ w.tunnel.transactions.records.entries, onSchematic lib cell e.2 = true →
    Obj.get e.2 "status" = .str "applied" → RecordsParams e.2
  chained : Change.Chained (fun k => (cv₀.param? k).getD .nil) (journalOf lib cell w.tunnel)
  values : ∀ k x, cv.param? k = some x →
    x = Change.replay (fun k => (cv₀.param? k).getD .nil) (journalOf lib cell w.tunnel) k

section Apply

variable {lib cell : String} {cv₀ cv : CellView} {w : World} {s : Session} {proposal : Value}

/-- The record of an accepted apply. -/
theorem changeOf_applied {txn u : Obj} {before after : CellView} {changes : List Value}
    (printer : Printer) (hbefore : StringValued before) (hafter : StringValued after)
    (hthere : ∀ ch ∈ changes, (before.param? (target ch)).isSome = true)
    (hthere' : ∀ ch ∈ changes, (after.param? (target ch)).isSome = true)
    (hstored : StoredFor s txn u)
    (htxn : txn.lookup "before" = some (vfpSnapshotJson printer before changes) ∧
      txn.lookup "after" = some (vfpSnapshotJson printer after changes) ∧
      txn.lookup "status" = some (.str "applied")) :
    (changeOf u).before = (fun k => if k ∈ changes.map target then before.param? k else none) ∧
      (changeOf u).after = (fun k => if k ∈ changes.map target then after.param? k else none) ∧
      (changeOf u).standing = true := by
  have hb := hstored.kept "before" _ (by decide) htxn.1
  have ha := hstored.kept "after" _ (by decide) htxn.2.1
  have hs := hstored.kept "status" _ (by decide) htxn.2.2
  refine ⟨?_, ?_, ?_⟩
  · funext k
    show valuesOf (Obj.getD u "before" (.arr [])) k = _
    rw [Obj.getD, hb]
    exact valuesOf_snapshot hbefore hthere k
  · funext k
    show valuesOf (Obj.getD u "after" (.arr [])) k = _
    rw [Obj.getD, ha]
    exact valuesOf_snapshot hafter hthere' k
  · show (Obj.getD u "status" .null).pyEq (.str "applied") = true
    rw [Obj.getD, hs]
    exact Json.pyEq_str.mpr rfl

/-- Setting parameters to strings leaves strings. -/
theorem stringValued_setParams {key : String} {changes : List Value} (h : StringValued cv)
    (hchanges : ∀ ch ∈ changes, ∃ x, vfpAlistGet ch key = .str x) :
    StringValued (setParams key changes cv).2 := by
  intro k x hx
  rw [param?_setParams] at hx
  obtain ⟨y, hy, rfl⟩ := Option.map_eq_some_iff.mp hx
  cases hlast : lastWrite (writesOf key changes) k with
  | none => exact h k y hy
  | some z =>
    obtain ⟨ch, hch, heq⟩ := List.mem_map.mp (mem_of_lastWrite hlast)
    obtain ⟨text, htext⟩ := hchanges ch hch
    have hz : vfpAlistGet ch key = z := congrArg Prod.snd heq
    exact ⟨text, by rw [Option.getD_some, ← hz, htext]⟩

/-- An apply that succeeds adds a change that found what the journal leaves. -/
theorem agreeing_apply (h : Agreeing lib cell cv₀ cv w) (hok : Succeeds lib cell w (.apply s proposal)) :
    ∃ cv', Agreeing lib cell cv₀ cv' (vfpApplyTransaction s proposal w).2 := by
  obtain ⟨htrue, hlib, hcell, hstrings⟩ := hok
  have hresult : (vfpApplyTransaction s proposal w).1 ≠ .nil := by
    intro hnil
    simp [ParamCall.run, hnil, Value.truthy] at htrue
  obtain ⟨v, cv', db, u, hopen, hall, _, _, hcontents, hstored, hfree, hrecords⟩ :=
    vfpApplyTransaction_ne_nil hresult
  obtain ⟨l, c, hl, hc, rfl, hcontents₀, _⟩ := openSchematic_eq_some hopen
  obtain rfl : lib = l := Value.str.inj (hlib.symm.trans hl)
  obtain rfl : cell = c := Value.str.inj (hcell.symm.trans hc)
  obtain rfl : cv = cv' := Option.some.inj (h.contents.symm.trans hcontents₀)
  have hthere := setParams_fst.mp hall
  have hset := param?_setParams "after" (changesOf proposal) cv
  have hstrings' := stringValued_setParams h.strings hstrings
  have hkeys : (writesOf "after" (changesOf proposal)).map Prod.fst = (changesOf proposal).map target :=
    keys_writesOf _ _
  have hslots : ∀ k, ((setParams "after" (changesOf proposal) cv).2.param? k).isSome =
      (cv.param? k).isSome := by
    intro k
    rw [hset, Option.isSome_map]
  have hchange := changeOf_applied s.printer h.strings hstrings' hthere
    (fun ch hch => by rw [hslots]; exact hthere ch hch) hstored ⟨by rfl, by rfl, by rfl⟩
  have hcellview : u.lookup "cellview" = some (.obj [("lib", .str lib), ("cell", .str cell),
      ("view", .str "schematic")]) := by
    refine hstored.kept "cellview" _ (by decide) ?_
    show some _ = _
    rw [hlib, hcell]
    rfl
  have hunique := hstored.unique
  clear hstored hopen
  generalize (setParams "after" (changesOf proposal) cv).2 = cv' at *
  generalize vfpApplyTransaction s proposal w = out at *
  obtain ⟨hbefore, hafter, hstanding⟩ := hchange
  have hcovers : ∀ k, (changeOf u).Covers k → k ∈ (changesOf proposal).map target := by
    intro k hk
    by_contra hnot
    have hsome := hk.2
    rw [hafter] at hsome
    simp [hnot] at hsome
  have hentries := Dict.entries_insert_of_none u hfree
  rw [← hrecords] at hentries
  have hon : onSchematic lib cell u = true := by
    rw [onSchematic_iff, Obj.get, Obj.getD, hcellview, Option.getD_some]
    exact ⟨vfpAlistGet_obj (by simp) _, vfpAlistGet_obj (by simp) _⟩
  have hjournal : journalOf lib cell out.2.tunnel = journalOf lib cell w.tunnel ++ [changeOf u] :=
    journalOf_of_split hentries hon
  refine ⟨cv', hcontents, ?_, hstrings', ?_, ?_, ?_⟩
  · intro k
    rw [hslots, h.slots]
  · intro e he hone happlied
    rw [hentries] at he
    rcases List.mem_append.mp he with hold | hnew
    · exact h.records e hold hone happlied
    · obtain rfl := List.mem_singleton.mp hnew
      refine ⟨hunique, ?_, ?_⟩
      · intro k
        rw [hbefore, hafter]
        by_cases hk : k ∈ (changesOf proposal).map target
        · simp only [hk, if_true, hslots]
        · simp only [hk, if_false]
      · intro k x hx
        rw [hbefore] at hx
        by_cases hk : k ∈ (changesOf proposal).map target
        · simp only [hk, if_true] at hx
          exact h.strings k x hx
        · simp [hk] at hx
  · rw [hjournal]
    apply h.chained.snoc
    intro k hk
    obtain ⟨ch, hch, rfl⟩ := List.mem_map.mp (hcovers k hk)
    obtain ⟨x, hx⟩ := Option.isSome_iff_exists.mp (hthere ch hch)
    rw [hbefore]
    simp only [hcovers _ hk, if_true]
    rw [hx, h.values _ x hx]
  · intro k x hx
    rw [hjournal, Change.replay_append, Change.replay_cons, Change.replay_nil]
    by_cases hk : k ∈ (changesOf proposal).map target
    · have hafterk : (changeOf u).after k = some x := by
        rw [hafter]
        simp only [hk, if_true, hx]
      have hcov : (changeOf u).Covers k := ⟨hstanding, by rw [hafterk]; rfl⟩
      have hover := Change.overlay_of_covers hcov
        (Change.replay (fun k => (cv₀.param? k).getD .nil) (journalOf lib cell w.tunnel))
      rw [hafterk] at hover
      exact (Option.some.inj hover).symm
    · rw [Change.overlay_of_not_covers fun hcov => hk (hcovers k hcov)]
      have hnone : lastWrite (writesOf "after" (changesOf proposal)) k = none := by
        rw [← Option.not_isSome_iff_eq_none, isSome_lastWrite, hkeys]
        exact hk
      rw [hset, hnone] at hx
      obtain ⟨y, hy, rfl⟩ := Option.map_eq_some_iff.mp hx
      exact h.values k y hy

end Apply

section Undo

variable {lib cell : String} {cv₀ cv : CellView} {w : World} {s : Session} {tid : String}

/-- A transaction that is picked is the newest change of its parameters. -/
theorem newest_of_picks {older newer : List (Key × Obj)} {u : Obj}
    (hpicks : PicksNewest lib cell w (.rollback s tid))
    (hsplit : w.tunnel.transactions.records.entries = older ++ (.str tid, u) :: newer) :
    (changeOf u).Newest (journalAmong lib cell newer) := by
  intro k hk f hf hcovers
  obtain ⟨u', hu', rfl⟩ := List.mem_map.mp hf
  obtain ⟨hmem, hone⟩ := List.mem_filter.mp hu'
  obtain ⟨e, he, rfl⟩ := List.mem_map.mp hmem
  have hnone := hpicks older u newer hsplit k hk e he hone (Json.pyEq_str.mp hcovers.1)
  have hsome : (valuesOf (Obj.getD e.2 "after" (.arr [])) k).isSome = true := hcovers.2
  rw [hnone] at hsome
  simp at hsome

/-- The agreement holds on once the newest transaction of its parameters is marked rolled back and the values that
it found are written. -/
theorem Agreeing.undone {w' : World} {cv' : CellView} {older newer : List (Key × Obj)} {key : Key} {u : Obj}
    (h : Agreeing lib cell cv₀ cv w)
    (hsplit : w.tunnel.transactions.records.entries = older ++ (key, u) :: newer)
    (hentries : w'.tunnel.transactions.records.entries =
      older ++ (key, Obj.set u "status" (.str "rolled_back")) :: newer)
    (hon : onSchematic lib cell u = true) (hstatus : Obj.get u "status" = .str "applied")
    (hnewest : (changeOf u).Newest (journalAmong lib cell newer))
    (hcontents : w'.db.contents (schematicOf lib cell) = some cv')
    (hset : ∀ k, cv'.param? k = (cv.param? k).map fun y => ((changeOf u).before k).getD y) :
    Agreeing lib cell cv₀ cv' w' := by
  have hrecord : RecordsParams u := h.records (key, u) (by rw [hsplit]; simp) hon hstatus
  have hjournal := journalOf_of_split hsplit hon
  have hjournal' : journalOf lib cell w'.tunnel = _ := journalOf_of_split hentries (by simp [hon])
  rw [changeOf_undone] at hjournal'
  have hchained := h.chained
  rw [hjournal] at hchained
  refine ⟨hcontents, ?_, ?_, ?_, ?_, ?_⟩
  · intro k
    rw [hset, Option.isSome_map, h.slots]
  · intro k x hx
    rw [hset] at hx
    obtain ⟨y, hy, rfl⟩ := Option.map_eq_some_iff.mp hx
    cases hbefore : (changeOf u).before k with
    | none => exact h.strings k y hy
    | some z => exact hrecord.strings k z hbefore
  · intro e he hone happlied
    rw [hentries] at he
    rcases List.mem_append.mp he with hold | hrest
    · exact h.records e (by rw [hsplit]; exact List.mem_append_left _ hold) hone happlied
    · rcases List.mem_cons.mp hrest with rfl | hnew
      · simp at happlied
      · exact h.records e (by rw [hsplit]; exact List.mem_append_right _ (List.mem_cons_of_mem _ hnew))
          hone happlied
  · rw [hjournal']
    exact hchained.undo hnewest
  · intro k x hx
    rw [hset] at hx
    obtain ⟨y, hy, rfl⟩ := Option.map_eq_some_iff.mp hx
    have hstanding : (changeOf u).standing = true := Json.pyEq_str.mpr hstatus
    rw [hjournal', Change.replay_undo_getD hchained hstanding hnewest (hrecord.domain k), ← hjournal,
      ← h.values k y hy]

/-- A rollback that succeeds on the newest transaction of its parameters undoes a change. -/
theorem agreeing_rollback (h : Agreeing lib cell cv₀ cv w)
    (hok : Succeeds lib cell w (.rollback s tid)) (hpicks : PicksNewest lib cell w (.rollback s tid)) :
    ∃ cv', Agreeing lib cell cv₀ cv' (vfpRollbackTransaction s tid w).2 := by
  obtain ⟨htrue, hon, hserved⟩ := hok
  obtain ⟨u, v, cv', db, htid, hrec, hstatus, hopen, _, hworld⟩ :=
    vfpRollbackTransaction_true (of_decide_eq_true htrue)
  obtain ⟨older, newer, hsplit⟩ := Dict.split_of_get? hrec
  replace hon := hon u hrec
  have hrecord : RecordsParams u := h.records (.str tid, u) (by rw [hsplit]; simp) hon hstatus
  obtain ⟨rfl, hcontents₀⟩ := openRecorded_eq_some hrecord.unique hon hopen
  obtain rfl : cv = cv' := Option.some.inj (h.contents.symm.trans hcontents₀)
  have hopened : ∃ o, db.opened (schematicOf lib cell) = some o := by
    obtain ⟨_, _, _, _, _, _, _, rfl⟩ := openSchematic_eq_some hopen
    rw [Database.opened_hold, Opened.mk?, dif_pos (by omega)]
    exact ⟨_, rfl⟩
  obtain ⟨o, ho⟩ := hopened
  rw [hworld]
  refine ⟨(setParams "value" (restoreOf u) cv).2, h.undone hsplit ?_ hon hstatus (newest_of_picks hpicks hsplit) ?_
    (param?_setParams "value" (restoreOf u) cv)⟩
  · have hrecords : (markRolledBack s tid
        (savedRollback u (schematicOf lib cell) cv db w)).tunnel.transactions.records =
        w.tunnel.transactions.records.insert (.str tid) (Obj.set u "status" (.str "rolled_back")) :=
      markRolledBack_records hserved htid hrec hstatus
    rw [hrecords]
    exact Dict.entries_insert_of_split hsplit _
  · have hdb : (markRolledBack s tid (savedRollback u (schematicOf lib cell) cv db w)).db =
        (db.edit (schematicOf lib cell) (setParams "value" (restoreOf u) cv).2).dbSave
          (schematicOf lib cell) := db_markRolledBack
    rw [hdb]
    exact (contents_edit_dbSave (setParams "value" (restoreOf u) cv).2 ho).1

/-- Every call that succeeds keeps the schematic in agreement, as long as a rollback picks the newest
transaction of its parameters. -/
theorem agreeing_call {call : ParamCall} (h : Agreeing lib cell cv₀ cv w) (hok : Succeeds lib cell w call)
    (hpicks : PicksNewest lib cell w call) : ∃ cv', Agreeing lib cell cv₀ cv' (call.run w).2 := by
  cases call with
  | apply s proposal => exact agreeing_apply h hok
  | rollback s tid => exact agreeing_rollback h hok hpicks

end Undo

section Runs

variable {lib cell : String} {cv₀ : CellView} {w₀ w : World} {history : List (Entry World ParamCall Bool)}

/-- After any applies and rollbacks, each rollback of a transaction whose parameters no later applied
transaction sets, every parameter has the value after that the newest applied transaction
recorded for it, or its first value. -/
theorem records_stay_truthful
    (hunapplied : ∀ u ∈ w₀.tunnel.transactions.records.values, onSchematic lib cell u = true →
      Obj.get u "status" ≠ .str "applied")
    (hcontents : w₀.db.contents (schematicOf lib cell) = some cv₀) (hstrings : StringValued cv₀)
    (hrun : Run (paramMachine w₀) (fun w call => Succeeds lib cell w call ∧ PicksNewest lib cell w call)
      history w) (k : Value × Value) :
    w.param (schematicOf lib cell) k =
      (w₀.param (schematicOf lib cell) k).map fun x => (newestApplied lib cell w.tunnel k).getD x := by
  have hagree : ∃ cv, Agreeing lib cell cv₀ cv w := by
    refine hrun.invariant (I := fun w => ∃ cv, Agreeing lib cell cv₀ cv w) ?_ ?_
    · rintro w rfl
      have hnone : ∀ e ∈ journalOf lib cell w.tunnel, e.standing = false := by
        intro e he
        obtain ⟨u, hu, rfl⟩ := List.mem_map.mp he
        obtain ⟨hmem, hon⟩ := List.mem_filter.mp hu
        by_contra hstanding
        exact hunapplied u hmem hon (Json.pyEq_str.mp (Bool.eq_true_of_not_eq_false hstanding))
      refine ⟨cv₀, hcontents, fun k => rfl, hstrings, ?_, Change.chained_of_undone hnone _, ?_⟩
      · intro e he hon happlied
        exact absurd happlied (hunapplied e.2 (List.mem_map.mpr ⟨e, he, rfl⟩) hon)
      · intro k x hx
        rw [Change.replay_of_not_covers fun f hf hcovers => ?_, hx]
        · rfl
        · have hf' := hnone f hf
          rw [hcovers.1] at hf'
          cases hf'
    · rintro w call ⟨hok, hpicks⟩ ⟨cv, h⟩
      exact agreeing_call h hok hpicks
  obtain ⟨cv, h⟩ := hagree
  rw [World.param, World.param, h.contents, hcontents, Option.bind_some, Option.bind_some]
  cases hx : cv.param? k with
  | none =>
    have hnone : cv₀.param? k = none := by
      rw [← Option.not_isSome_iff_eq_none, ← h.slots, hx]
      simp
    rw [hnone]
    rfl
  | some x =>
    have hsome : (cv₀.param? k).isSome = true := by rw [← h.slots, hx]; rfl
    obtain ⟨y, hy⟩ := Option.isSome_iff_exists.mp hsome
    rw [h.values k x hx, replay_journalOf, hy]
    rfl

/-- Apply a proposal with one change, whose transaction gets this id. -/
def sampleApplyAs (uuid before after : String) : ParamCall :=
  .apply { Session.sample with env := { Tunnel.Env.sample with uuid := uuid } }
    (sampleProposalFor [sampleChange "R1" "r" (some before) after])

/-- Two applies to one parameter. -/
def sampleTwice : World :=
  ((sampleApplyAs "b" "2K" "3K").run ((sampleApplyAs "a" "1K" "2K").run sampleWorld).2).2

/-- The older of the two is rolled back. -/
def sampleOlder : World := ((ParamCall.rollback .sample "t_a").run sampleTwice).2

/-- The newer of the two is rolled back. -/
def sampleNewer : World := ((ParamCall.rollback .sample "t_b").run sampleTwice).2

/-- A sample apply that returns the id of its transaction succeeds. -/
theorem succeeds_sample {uuid before after : String} {w : World}
    (h : ((sampleApplyAs uuid before after).run w).1 = true) :
    Succeeds "lib" "top" w (sampleApplyAs uuid before after) := by
  refine ⟨h, rfl, rfl, ?_⟩
  intro ch hch
  have hchanges : changesOf (sampleProposalFor [sampleChange "R1" "r" (some before) after]) =
      [Value.ofJson (sampleChange "R1" "r" (some before) after)] := rfl
  rw [hchanges, List.mem_singleton] at hch
  subst hch
  exact ⟨after, rfl⟩

/-- A sample rollback of either transaction that returns `t` succeeds. -/
theorem succeeds_rollback_sample {tid : String} (h : ((ParamCall.rollback .sample tid).run sampleTwice).1 = true)
    (hon : (sampleTwice.tunnel.transactions.records.get? (.str tid)).all (onSchematic "lib" "top") = true) :
    Succeeds "lib" "top" sampleTwice (.rollback .sample tid) := by
  refine ⟨h, ?_, Or.inl rfl⟩
  intro u hu
  rw [hu] at hon
  exact hon

/-- The resistor's value is a string. -/
theorem stringValued_sampleSchematic : StringValued sampleSchematic := by
  intro k x hx
  obtain ⟨p, hp, rfl⟩ := Option.map_eq_some_iff.mp hx
  obtain ⟨i, hi, hparam⟩ := Option.bind_eq_some_iff.mp hp
  obtain rfl := List.mem_singleton.mp (List.mem_of_find?_eq_some hi)
  obtain rfl := List.mem_singleton.mp (List.mem_of_find?_eq_some hparam)
  exact ⟨"1K", rfl⟩

/-- No transaction is newer than the second. -/
theorem picksNewest_sample : PicksNewest "lib" "top" sampleTwice (.rollback .sample "t_b") := by
  intro older u newer hsplit k _ e he _
  have hkeys : sampleTwice.tunnel.transactions.records.entries.map Prod.fst =
      [.str "t_a", .str "t_b"] := by rfl
  rw [hsplit, List.map_append, List.map_cons] at hkeys
  have hnone : newer = [] := by
    rcases older with _ | ⟨a, _ | ⟨b, older⟩⟩ <;> simp_all
  rw [hnone] at he
  cases he

/-- The newest applied record tells the value of the parameter. -/
theorem records_stay_truthful_sample :
    sampleNewer.param (schematicOf "lib" "top") (.str "R1", .str "r") =
      (sampleWorld.param (schematicOf "lib" "top") (.str "R1", .str "r")).map fun x =>
        (newestApplied "lib" "top" sampleNewer.tunnel (.str "R1", .str "r")).getD x := by
  have hcontents : sampleWorld.db.contents (schematicOf "lib" "top") = some sampleSchematic := rfl
  refine records_stay_truthful ?_ hcontents stringValued_sampleSchematic
    (.step (.step (.step (.init rfl) ⟨succeeds_sample (by rfl), trivial⟩)
      ⟨succeeds_sample (by rfl), trivial⟩)
      ⟨succeeds_rollback_sample (by rfl) (by rfl), picksNewest_sample⟩) _
  intro u hu
  cases hu

/-- The older of two transactions on one parameter is rolled back: the parameter has its first value,
while the transaction still applied recorded another. -/
theorem older_undone_under_newer :
    (∃ history, Run (paramMachine sampleWorld) (Succeeds "lib" "top") history sampleOlder) ∧
      sampleOlder.param (schematicOf "lib" "top") (.str "R1", .str "r") = some (.str "1K") ∧
      newestApplied "lib" "top" sampleOlder.tunnel (.str "R1", .str "r") = some (.str "3K") := by
  refine ⟨⟨_, .step (.step (.step (.init rfl) (succeeds_sample (by rfl))) (succeeds_sample (by rfl)))
    (succeeds_rollback_sample (by rfl) (by rfl))⟩, by rfl, by rfl⟩

end Runs

end VirtuosoFlow.Plugin
