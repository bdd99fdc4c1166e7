import VirtuosoFlow.Plugin.Rollback

/-!
# How a rollback can end

`vfpRollbackTransaction` goes on after a value that cannot be written, saves what it has written, and has
the transaction marked failed. So besides the rollback of everything and the one that changes nothing there is
one that is left half done; and a record that is not as the plugin writes it may make SKILL raise on the way,
before the transaction is marked.
-/

namespace VirtuosoFlow.Plugin

open Base Tunnel

section Outcomes

/-- Every request of the plugin is answered. -/
def Session.Connected (s : Session) : Prop := ∀ method, s.exchange method = .answered

/-- A transaction that is applied, with its record. -/
structure AppliedIn (w : World) (tid : String) (u : Obj) : Prop where
  id : tid ≠ ""
  record : w.tunnel.transactions.records.get? (.str tid) = some u
  status : Obj.get u "status" = .str "applied"

/-- The status of a transaction. -/
def World.txnStatus (w : World) (tid : String) : Option Json :=
  (w.tunnel.transactions.records.get? (.str tid)).map fun u => Obj.get u "status"

/-- The rollback returns `t`, and every parameter of the list has its value, the last one if there are
several. -/
def RestoresAll (u : Obj) (w : World) (out : Option Bool × World) : Prop :=
  out.1 = some true ∧ ∃ v cv db cv', openRecorded u w.db = some (v, cv, db) ∧ out.2.db.contents v = some cv' ∧
    ∀ pv ∈ restoreOf u, ∃ value, lastWrite (writesOf "value" (restoreOf u)) (target pv) = some value ∧
      cv'.param? (target pv) = some value

/-- The rollback returns `nil`, and nothing is done: the schematic cannot be opened. -/
def ChangesNothing (u : Obj) (w : World) (out : Option Bool × World) : Prop :=
  openRecorded u w.db = none ∧ out = (some false, w)

/-- The rollback returns `nil`, the values of the parameters that are there are written and saved, and the
transaction has failed. -/
def RestoresSome (tid : String) (u : Obj) (w : World) (out : Option Bool × World) : Prop :=
  out.1 = some false ∧ out.2.txnStatus tid = some (.str "failed") ∧
    ∃ v cv db cv', openRecorded u w.db = some (v, cv, db) ∧
      (∃ pv ∈ restoreOf u, cv.param? (target pv) = none) ∧
      out.2.db.contents v = some cv' ∧ out.2.db.disk v = some cv' ∧
      ∀ k, cv'.param? k = (cv.param? k).map fun x => (lastWrite (writesOf "value" (restoreOf u)) k).getD x

/-- A record that is not as the plugin writes it: its cellview or its values before are no lists, an element of
the values is no list or does not name texts, or its connectivity cannot be compared. -/
def Misshapen (s : Session) (u : Obj) : Prop :=
  (vfpAlistGet (Value.ofJson (.obj u)) "cellview").isList = false ∨
    (Value.ofJson (Obj.getD u "before" (.arr []))).isList = false ∨
    (∃ pv ∈ restoreOf u, ¬ NamesTexts pv) ∨ ∃ cv, connChecked s (Value.ofJson (.obj u)) cv = false

/-- The values of a list are written in part: a parameter is as it was, or has a value that the list gives
it. -/
def PartlyWritten (u : Obj) (w w' : World) : Prop :=
  ∀ v k, w'.param v k = w.param v k ∨
    ∃ pv ∈ restoreOf u, target pv = k ∧ w'.param v k = some (vfpAlistGet pv "value")

/-- The rollback raises on a record that is not as the plugin writes it: values may be written, and the
transaction is as it was. -/
def Raises (s : Session) (u : Obj) (w : World) (out : Option Bool × World) : Prop :=
  out.1 = none ∧ Misshapen s u ∧ out.2.tunnel = w.tunnel ∧ PartlyWritten u w out.2

/-- Every value is restored, or the design and the transaction are as they were. -/
def AllOrNothing (tid : String) (u : Obj) (w : World) (out : Option Bool × World) : Prop :=
  (out.1 = some true ∧ ∃ v cv db cv', openRecorded u w.db = some (v, cv, db) ∧ out.2.db.contents v = some cv' ∧
    ∀ pv ∈ restoreOf u, cv'.param? (target pv) = some (vfpAlistGet pv "value")) ∨
  (out.1 = some false ∧ (∀ v, out.2.db.contents v = w.db.contents v) ∧ out.2.txnStatus tid = w.txnStatus tid)

end Outcomes

section Answer

variable {s : Session} {w : World} {tid : String} {u : Obj}

/-- A rollback of an applied transaction is answered with its record and the values before. -/
theorem exec_mTransactionRollback {t : Tunnel.Tunnel} (htid : tid ≠ "")
    (hrec : t.transactions.records.get? (.str tid) = some u) (hstatus : Obj.get u "status" = .str "applied") :
    (mTransactionRollback [("transaction_id", .str tid)]).exec t =
      (.ok (.obj [("transaction", .obj u), ("restore", Obj.getD u "before" (.arr []))]), t) := by
  have hid : (Obj.get [("transaction_id", Json.str tid)] "transaction_id").truthy = true := by
    simpa [Obj.get, Obj.getD] using htid
  have hkey : (Obj.get [("transaction_id", Json.str tid)] "transaction_id").key? = some (.str tid) := rfl
  have hfound : (findTransaction [("transaction_id", .str tid)]).exec t = (.ok (.str tid, u), t) := by
    unfold findTransaction requireId
    rw [if_pos hid, Prog.exec_bind_ok (Prog.exec_pure _ _)]
    simp only [Prog.exec_bind, exec_onTransactions, TransactionStore.get, getRecord, hashKey, hkey,
      Prog.exec_ofExcept, Prog.exec_get, Prog.exec_pure, hrec]
    rfl
  unfold mTransactionRollback
  rw [Prog.exec_bind_ok hfound]
  dsimp only
  rw [hstatus, if_pos (Json.pyEq_str.mpr rfl), Prog.exec_pure]

/-- The tunnel answers a rollback with the record and what to restore. -/
theorem rollback_answer (hs : s.Connected) (h : AppliedIn w tid u) :
    vfpRpcParam s .transactionRollback "transaction_id" tid w =
      (⟨true, Value.ofJson (.obj [("transaction", .obj u), ("restore", Obj.getD u "before" (.arr []))])⟩, w) := by
  have hexec := exec_mTransactionRollback h.id h.record h.status
  have hhandle : Tunnel.handle s.env .transactionRollback [("transaction_id", .str tid)] =
      mTransactionRollback [("transaction_id", .str tid)] := rfl
  rw [vfpRpcParam, vfpRpcExec, hs]
  dsimp only
  rw [World.serve, hhandle, hexec]
  rfl

/-- An applied record that is marked failed has this status. -/
theorem txnStatus_markTransactionFailed (hs : s.Connected) (h : AppliedIn w tid u) :
    (markTransactionFailed s tid w).txnStatus tid = some (.str "failed") := by
  have hmark : ((mTransactionMarkFailed s.env [("transaction_id", .str tid)]).exec
      w.tunnel).2.transactions.records =
        w.tunnel.transactions.records.insert (.str tid) (Obj.set u "status" (.str "failed")) :=
    mTransactionMarkFailed_records (by simpa [Obj.get, Obj.getD] using h.id) (by rfl) h.record h.status
  have hserved : (s.exchange .transactionMarkFailed).Served := .inl (hs _)
  have hrecords : (markTransactionFailed s tid w).tunnel.transactions.records =
      w.tunnel.transactions.records.insert (.str tid) (Obj.set u "status" (.str "failed")) := by
    rw [markTransactionFailed, vfpRpcParam, vfpRpcExec_served hserved]
    exact hmark
  rw [World.txnStatus, hrecords, Dict.get?_insert_self, Option.map_some]
  simp

/-- A rollback of an applied transaction opens the schematic, writes what it can, saves it, checks the
connectivity and has the transaction marked, unless SKILL raises. -/
theorem vfpRollbackTransaction_eq (hs : s.Connected) (h : AppliedIn w tid u) :
    vfpRollbackTransaction s tid w =
      if (vfpAlistGet (Value.ofJson (.obj u)) "cellview").isList then
        match openRecorded u w.db with
        | none => (some false, w)
        | some (v, cv, db) =>
          if (Value.ofJson (Obj.getD u "before" (.arr []))).isList then
            let out := restoreParams (restoreOf u) (true, cv)
            match out.1 with
            | none => (none, { w with db := db.edit v out.2 })
            | some okAll =>
              let w := { w with db := (db.edit v out.2).dbSave v }
              if connChecked s (Value.ofJson (.obj u)) out.2 then
                if okAll then (some true, markRolledBack s tid w)
                else (some false, markTransactionFailed s tid w)
              else (none, w)
          else (none, { w with db := db })
      else (none, w) := by
  obtain ⟨htxn, hrestore⟩ := vfpAlistGet_rollback u (Obj.getD u "before" (.arr []))
  unfold vfpRollbackTransaction
  rw [rollback_answer hs h]
  dsimp only
  rw [if_pos rfl, htxn, hrestore]
  rfl

end Answer

section Ends

variable {s : Session} {w : World} {tid : String} {u : Obj} {v : ViewName} {cv : CellView} {db : Database}

/-- After the writes and the save the view has what was written, in memory and on disk. -/
theorem contents_savedRollback (hopen : openRecorded u w.db = some (v, cv, db)) :
    (savedRollback u v cv db w).db.contents v = some (setParams "value" (restoreOf u) cv).2 ∧
      (savedRollback u v cv db w).db.disk v = some (setParams "value" (restoreOf u) cv).2 := by
  obtain ⟨_, _, _, _, _, _, _, rfl⟩ := openSchematic_eq_some hopen
  obtain ⟨o, ho⟩ : ∃ o, (w.db.hold v cv (w.db.handles v + 1) (w.db.windows v)).opened v = some o := by
    rw [Database.opened_hold, Opened.mk?, dif_pos (by omega)]
    exact ⟨_, rfl⟩
  obtain ⟨hcontents, hdisk, -⟩ := contents_edit_dbSave (setParams "value" (restoreOf u) cv).2 ho
  exact ⟨hcontents, hdisk⟩

/-- A parameter of the list that is there has the last value that the list names for it. -/
theorem param?_restored {pv : Value} (hpv : pv ∈ restoreOf u) (hthere : (cv.param? (target pv)).isSome = true) :
    ∃ value, lastWrite (writesOf "value" (restoreOf u)) (target pv) = some value ∧
      (setParams "value" (restoreOf u) cv).2.param? (target pv) = some value := by
  have hnamed : target pv ∈ (writesOf "value" (restoreOf u)).map Prod.fst := by
    rw [keys_writesOf]
    exact List.mem_map_of_mem hpv
  obtain ⟨value, hvalue⟩ := Option.isSome_iff_exists.mp (isSome_lastWrite.mpr hnamed)
  obtain ⟨x, hx⟩ := Option.isSome_iff_exists.mp hthere
  refine ⟨value, hvalue, ?_⟩
  rw [param?_setParams, hx, hvalue]
  rfl

/-- Opening the schematic changes no parameter. -/
theorem partlyWritten_opened (hopen : openRecorded u w.db = some (v, cv, db)) :
    PartlyWritten u w { w with db := db } := by
  obtain ⟨_, _, _, _, _, hcontents, _, rfl⟩ := openSchematic_eq_some hopen
  intro v' k
  left
  unfold World.param
  by_cases hv : v' = v
  · subst hv
    rw [hcontents]
    exact congrArg (Option.bind · _) (Database.contents_hold (by omega))
  · exact congrArg (Option.bind · _) (Database.sameAt_hold hv).contents

/-- The first values of the list are written into the schematic, which may be saved then. -/
theorem partlyWritten_set {done rest : List Value} {db' : Database}
    (hopen : openRecorded u w.db = some (v, cv, db)) (hdone : restoreOf u = done ++ rest)
    (hset : db'.contents v = some (setParams "value" done cv).2)
    (hothers : ∀ v', v' ≠ v → db'.contents v' = db.contents v') : PartlyWritten u w { w with db := db' } := by
  obtain ⟨_, _, _, _, _, hcontents, _, rfl⟩ := openSchematic_eq_some hopen
  intro v' k
  unfold World.param
  by_cases hv : v' = v
  · subst hv
    rw [hcontents, hset, Option.bind_some, Option.bind_some, param?_setParams]
    cases hparam : cv.param? k with
    | none => exact .inl rfl
    | some x =>
      cases hlast : lastWrite (writesOf "value" done) k with
      | none => exact .inl rfl
      | some value =>
        obtain ⟨pv, hpv, heq⟩ := List.mem_map.mp (mem_of_lastWrite hlast)
        obtain ⟨htarget, hvalue⟩ := Prod.mk.inj heq
        refine .inr ⟨pv, ?_, htarget, ?_⟩
        · rw [hdone]
          exact List.mem_append_left _ hpv
        · rw [hvalue]
          rfl
  · left
    rw [hothers v' hv, (Database.sameAt_hold hv).contents]

/-- An edit of the schematic shows what was written, and the other views are as they were. -/
theorem contents_editRollback (cv' : CellView) (hopen : openRecorded u w.db = some (v, cv, db)) :
    (db.edit v cv').contents v = some cv' ∧ ∀ v', v' ≠ v → (db.edit v cv').contents v' = db.contents v' := by
  obtain ⟨_, _, _, _, _, _, _, rfl⟩ := openSchematic_eq_some hopen
  obtain ⟨o, ho⟩ : ∃ o, (w.db.hold v cv (w.db.handles v + 1) (w.db.windows v)).opened v = some o := by
    rw [Database.opened_hold, Opened.mk?, dif_pos (by omega)]
    exact ⟨_, rfl⟩
  refine ⟨Database.contents_of_opened (Database.edit_of_opened cv' ho).2, ?_⟩
  exact fun v' hv => (Database.sameAt_edit hv).contents

/-- The tunnel has a transaction on `lib/top` with these values before. -/
def sampleRecorded (before : List (String × String × String)) : World :=
  (sendTransaction .sample [("proposal_id", .str "p_1"),
    ("cellview", .obj [("lib", .str "lib"), ("cell", .str "top"), ("view", .str "schematic")]),
    ("before", .arr (before.map fun e =>
      .obj [("instance", .str e.1), ("param", .str e.2.1), ("value", .str e.2.2)])),
    ("after", .arr [])] sampleWorld).2

/-- Two parameters, of an instance that is there and of one that was deleted. -/
def sampleHalf : World := sampleRecorded [("R1", "r", "5K"), ("R9", "r", "5K")]

/-- The transaction of the sample is applied. -/
theorem appliedIn_sampleHalf : ∃ u, AppliedIn sampleHalf (transactionId .sample) u :=
  ⟨_, by decide, by rfl, by rfl⟩

/-- One parameter with two values. -/
def sampleTwoValues : World := sampleRecorded [("R1", "r", "5K"), ("R1", "r", "6K")]

/-- The transaction with two values is applied to its schematic. -/
theorem appliedIn_sampleTwoValues : ∃ u, AppliedIn sampleTwoValues (transactionId .sample) u ∧
    Value.ofJson (.obj [("instance", .str "R1"), ("param", .str "r"), ("value", .str "5K")]) ∈ restoreOf u ∧
      ∀ v cv db, openRecorded u sampleTwoValues.db = some (v, cv, db) → v = schematicOf "lib" "top" := by
  refine ⟨_, ⟨by decide, by rfl, by rfl⟩, List.mem_cons_self, fun v cv db hopen => ?_⟩
  obtain ⟨lib, cell, hlib, hcell, rfl, -⟩ := openSchematic_eq_some hopen
  obtain rfl : "lib" = lib := Value.str.inj hlib
  obtain rfl : "top" = cell := Value.str.inj hcell
  rfl

end Ends

end VirtuosoFlow.Plugin
