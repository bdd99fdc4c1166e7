import VirtuosoFlow.Plugin.Rollback

/-!
# The values that a rollback restores

A transaction records the text of every value that it replaces, and a rollback writes the texts
back. A parameter that held a string holds it again; one that held a number, `t` or `nil` holds
its text afterwards.
-/

namespace VirtuosoFlow.Plugin

open Base Tunnel

/-- The tunnel serves requests of any clients. -/
def ServedBetween (w w' : World) : Prop :=
  Relation.ReflTransGen (fun t t' => ∃ env method params, t' = ((handle env method params).exec t).2)
    w.tunnel w'.tunnel

/-- Requests leave a stored transaction alone or move it on. -/
theorem ServedBetween.txnsMove {w w' : World} (h : ServedBetween w w') : TxnsMove w w' := by
  unfold ServedBetween at h
  unfold TxnsMove
  generalize w'.tunnel = t' at h ⊢
  induction h with
  | refl => exact Std.Refl.refl _
  | tail _ hlast ih =>
    obtain ⟨env, method, params, rfl⟩ := hlast
    refine ih.trans (Evolves.mono (fun _ _ _ => trivial) ?_ (handle_keeps env method params _).transactions)
    rintro r r' ⟨a, b, hat, hb, hrest⟩
    exact ⟨a, b, hat, transactionTargets_law method b hb, hrest⟩

section Restored

variable {printer : Printer} {cv : CellView} {changes : List Value} {x : Value}

/-- What a rollback writes into a parameter that a snapshot names: the text of its value. -/
theorem lastWrite_snapshot (hthere : ∀ ch ∈ changes, (cv.param? (target ch)).isSome = true)
    {ch : Value} (hch : ch ∈ changes) (hx : cv.param? (target ch) = some x) :
    lastWrite (writesOf "value" (Value.ofJson (vfpSnapshotJson printer cv changes)).toList) (target ch) =
      some (.str (vfpToStr printer x)) := by
  have hkeys : (writesOf "value" (Value.ofJson (vfpSnapshotJson printer cv changes)).toList).map Prod.fst =
      changes.map target := by
    rw [writesOf_snapshot hthere, List.map_map]
    rfl
  have hagree : ∀ e ∈ writesOf "value" (Value.ofJson (vfpSnapshotJson printer cv changes)).toList,
      e.2 = .str (vfpToStr printer ((cv.param? e.1).getD .nil)) := by
    intro e he
    rw [writesOf_snapshot hthere] at he
    obtain ⟨ch', _, rfl⟩ := List.mem_map.mp he
    rfl
  have hmem : target ch ∈ (writesOf "value"
      (Value.ofJson (vfpSnapshotJson printer cv changes)).toList).map Prod.fst := by
    rw [hkeys]
    exact List.mem_map_of_mem hch
  rw [lastWrite_eq_of_mem (fun k => .str (vfpToStr printer ((cv.param? k).getD .nil))) hagree hmem, hx,
    Option.getD_some]

/-- The text of a value is the value exactly when it is a string. -/
theorem str_vfpToStr_iff : Value.str (vfpToStr printer x) = x ↔ ∃ text, x = .str text := by
  constructor
  · intro h
    exact ⟨_, h.symm⟩
  · rintro ⟨text, rfl⟩
    rfl

end Restored

section Rollback

variable {s s' : Session} {proposal : Value} {lib cell tid : String} {w w' : World}

/-- What the named parameters hold after the rollback of an apply: the texts of their values before. -/
theorem param_rolledBack (hlib : vfpAlistGet (vfpAlistGet proposal "cellview") "lib" = .str lib)
    (hcell : vfpAlistGet (vfpAlistGet proposal "cellview") "cell" = .str cell)
    (hrecorded : (vfpApplyTransaction s proposal w).1 = .str tid)
    (hserved : ServedBetween (vfpApplyTransaction s proposal w).2 w')
    (hsame : w'.db.contents (schematicOf lib cell) =
      (vfpApplyTransaction s proposal w).2.db.contents (schematicOf lib cell))
    (hback : (vfpRollbackTransaction s' tid w').1 = some true) {ch : Value} (hch : ch ∈ changesOf proposal) :
    ∃ x, w.param (schematicOf lib cell) (target ch) = some x ∧
      (vfpRollbackTransaction s' tid w').2.param (schematicOf lib cell) (target ch) =
        some (.str (vfpToStr s.printer x)) := by
  have hresult : (vfpApplyTransaction s proposal w).1 ≠ .nil := by
    rw [hrecorded]
    exact nofun
  obtain ⟨v, cv, db, u, hopen, hall, hid, _, hcontents, hstored, _, hrecords⟩ :=
    vfpApplyTransaction_ne_nil hresult
  obtain ⟨l, c, hl, hc, rfl, hcontents₀, _⟩ := openSchematic_eq_some hopen
  obtain rfl : lib = l := Value.str.inj (hlib.symm.trans hl)
  obtain rfl : cell = c := Value.str.inj (hcell.symm.trans hc)
  obtain rfl : tid = transactionId s := Value.str.inj (hrecorded.symm.trans hid)
  -- the record is as the apply stored it, for a rollback only takes one that is still applied
  have hrec : (vfpApplyTransaction s proposal w).2.tunnel.transactions.records.get?
      (.str (transactionId s)) = some u := by
    rw [hrecords, Dict.get?_insert, if_pos rfl]
  obtain ⟨u', hrec', hkept⟩ := hserved.txnsMove.stored hrec
  obtain ⟨u'', _, _, _, _, hrec'', happlied, _⟩ := vfpRollbackTransaction_true hback
  obtain rfl : u' = u'' := Option.some.inj (hrec'.symm.trans hrec'')
  obtain rfl : u' = u := hkept happlied
  have hcellview : u'.lookup "cellview" = some (.obj [("lib", .str lib), ("cell", .str cell),
      ("view", .str "schematic")]) := by
    refine hstored.kept "cellview" _ (by decide) ?_
    show some _ = _
    rw [hlib, hcell]
    rfl
  have hread : ∀ name, vfpAlistGet (vfpAlistGet (Value.ofJson (.obj u')) "cellview") name =
      Value.ofJson (Obj.get [("lib", .str lib), ("cell", .str cell), ("view", .str "schematic")] name) := by
    intro name
    rw [vfpAlistGet_obj hstored.unique, Obj.get, Obj.getD, hcellview, Option.getD_some]
    exact vfpAlistGet_obj (by simp) _
  obtain ⟨cv', hcv', hrestored, _⟩ := vfpRollbackTransaction_restores hback hrec'
    (hread "lib") (hread "cell")
  obtain rfl : (setParams "after" (changesOf proposal) cv).2 = cv' := by
    rw [hsame, hcontents] at hcv'
    exact Option.some.inj hcv'
  have hthere := setParams_fst.mp hall
  obtain ⟨x, hx⟩ := Option.isSome_iff_exists.mp (hthere ch hch)
  refine ⟨x, by rw [World.param, hcontents₀, Option.bind_some, hx], ?_⟩
  have hbefore : restoreOf u' =
      (Value.ofJson (vfpSnapshotJson s.printer cv (changesOf proposal))).toList := by
    have hlookup := hstored.kept "before" (vfpSnapshotJson s.printer cv (changesOf proposal)) (by decide)
      (by rfl)
    rw [restoreOf, Obj.getD, hlookup, Option.getD_some]
  rw [World.param, hrestored, Option.bind_some, param?_setParams, param?_setParams, hx, hbefore,
    lastWrite_snapshot hthere hch hx]
  rfl

/-- A rollback right after an apply gives every parameter that the transaction names the value it held
before exactly when all of these were strings. -/
theorem rollback_restores_values_iff
    (hlib : vfpAlistGet (vfpAlistGet proposal "cellview") "lib" = .str lib)
    (hcell : vfpAlistGet (vfpAlistGet proposal "cellview") "cell" = .str cell)
    (hrecorded : (vfpApplyTransaction s proposal w).1 = .str tid)
    (hserved : ServedBetween (vfpApplyTransaction s proposal w).2 w')
    (hsame : w'.db.contents (schematicOf lib cell) =
      (vfpApplyTransaction s proposal w).2.db.contents (schematicOf lib cell))
    (hback : (vfpRollbackTransaction s' tid w').1 = some true) :
    (∀ ch ∈ changesOf proposal,
        (vfpRollbackTransaction s' tid w').2.param (schematicOf lib cell) (target ch) =
          w.param (schematicOf lib cell) (target ch)) ↔
      ∀ ch ∈ changesOf proposal, ∃ text,
        w.param (schematicOf lib cell) (target ch) = some (.str text) := by
  refine forall₂_congr fun ch hch => ?_
  obtain ⟨x, hx, hrestored⟩ := param_rolledBack hlib hcell hrecorded hserved hsame hback hch
  rw [hx, hrestored, Option.some_inj, str_vfpToStr_iff]
  simp only [Option.some_inj]

end Rollback

/-- A schematic with one resistor, whose value is given. -/
def resistorOf (value : Value) : CellView where
  viewType := "schematic"
  instances := [⟨"R1", (0, 0), some [⟨"r", value⟩]⟩]
  shapes := []

/-- A library with this schematic. -/
def resistorWorld (value : Value) : World :=
  { sampleWorld with
    db.disk := fun v => if v = schematicOf "lib" "top" then some (resistorOf value) else none }

/-- A proposal for the value of the resistor. -/
def resistorProposal : Value := sampleProposalFor [sampleChange "R1" "r" none "2K"]

/-- The world after the proposal was applied. -/
def appliedResistor (value : Value) : World :=
  (vfpApplyTransaction .sample resistorProposal (resistorWorld value)).2

/-- A changed resistor gets its value back. -/
theorem rollback_restores_values_iff_sample :
    (vfpRollbackTransaction .sample (transactionId .sample) (appliedResistor (.str "1K"))).2.param
        (schematicOf "lib" "top") (.str "R1", .str "r") =
      (resistorWorld (.str "1K")).param (schematicOf "lib" "top") (.str "R1", .str "r") := by
  have hchanges : changesOf resistorProposal = [Value.ofJson (sampleChange "R1" "r" none "2K")] := rfl
  have hrecorded : (vfpApplyTransaction .sample resistorProposal (resistorWorld (.str "1K"))).1 =
      .str (transactionId .sample) := by
    rfl
  have hback : (vfpRollbackTransaction .sample (transactionId .sample) (appliedResistor (.str "1K"))).1 =
      some true := by
    rfl
  have hrestored := (rollback_restores_values_iff rfl rfl hrecorded .refl rfl hback).mpr ?_
  · exact hrestored _ (by rw [hchanges]; exact List.mem_singleton_self _)
  · intro ch hch
    rw [hchanges, List.mem_singleton] at hch
    subst hch
    exact ⟨"1K", rfl⟩

/-- A parameter that held `nil` holds the empty string after the rollback. -/
theorem rollback_leaves_text :
    (vfpApplyTransaction .sample resistorProposal (resistorWorld .nil)).1 = .str (transactionId .sample) ∧
      (vfpRollbackTransaction .sample (transactionId .sample) (appliedResistor .nil)).1 = some true ∧
      (resistorWorld .nil).param (schematicOf "lib" "top") (.str "R1", .str "r") = some .nil ∧
      (vfpRollbackTransaction .sample (transactionId .sample) (appliedResistor .nil)).2.param
        (schematicOf "lib" "top") (.str "R1", .str "r") = some (.str "") := by
  exact ⟨by rfl, by rfl, by rfl, by rfl⟩

end VirtuosoFlow.Plugin
