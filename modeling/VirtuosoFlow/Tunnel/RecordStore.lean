import VirtuosoFlow.Tunnel.Python
import VirtuosoFlow.Base.Lifecycle

/-!
# Record stores

`ProposalStore`, `TransactionStore` and `JobStore` are one program three times:
records in memory under their id, each change written to a file named after the
id once the lock is released. This file has that program and what one operation can do to the records.
-/

namespace VirtuosoFlow.Tunnel

open Base

/-- A store: the records in memory, and every file it wrote, oldest first. -/
structure Store where
  records : Dict Key Obj
  writes : List (String × Json)

/-- A store freshly constructed over an empty directory. -/
def Store.empty : Store := ⟨Dict.empty, []⟩

/-- The exception `_persist` lets through. Only `OSError` is caught there: an id that
is no string cannot be joined to the extension, and not every string can name a file. The `RecursionError`
of `json.dumps` over a record that is nested deeper than the interpreter's stack is left out. -/
def persistError (env : Env) (field : String) (record : Obj) : Option PyExc :=
  if env.dirsOk then
    match record.lookup field with
    | none => some (.keyError (.text field []))
    | some (.str s) => env.nameError s
    | some _ => some .typeError
  else none

/-- Only the id decides whether a record's file name can be formed. -/
theorem persistError_congr {env : Env} {field : String} {r r' : Obj}
    (h : r'.lookup field = r.lookup field) : persistError env field r' = persistError env field r := by
  unfold persistError
  rw [h]

/-- `_persist`. -/
def persist (env : Env) (field : String) (record : Obj) : Prog PyExc Store Unit := do
  match persistError env field record, record.lookup field with
  | some e, _ => throw e
  | none, some (.str s) =>
    if env.dirsOk && env.writable (s ++ ".json") then
      modify fun st => { st with writes := st.writes ++ [(s ++ ".json", .obj record)] }
  | none, _ => pure ()

/-- The locked part of `create` and `add`: refuse a second record of an id. -/
def insertNew (field duplicate : String) (record : Obj) : Prog PyExc Store Unit := do
  let id := Obj.get record field
  let key ← Prog.ofExcept (hashKey id)
  let st ← get
  match st.records.get? key with
  | some _ => throw (.valueError (.text duplicate [id]))
  | none => set { st with records := st.records.insert key record }

/-- `_set_status` and `_set`: the locked lookup and transition, then `_persist`. -/
def setStatus (env : Env) (field unknown : String) (transition : Obj → Except PyExc Obj)
    (id : Json) : Prog PyExc Store Obj := do
  let key ← Prog.ofExcept (hashKey id)
  let st ← get
  match st.records.get? key with
  | none => throw (.keyError (.text unknown [id]))
  | some record =>
    let updated ← Prog.ofExcept (transition record)
    set { st with records := st.records.insert key updated }
    persist env field updated
    return updated

/-- `self._records.get(id)`. -/
def getRecord (id : Json) : Prog PyExc Store (Option Obj) := do
  let key ← Prog.ofExcept (hashKey id)
  let st ← get
  return st.records.get? key

/-- One insertion of the stable descending sort; comparing two values without an
order raises. -/
def insertDesc (key : Obj → Json) (r : Obj) : List Obj → Except PyExc (List Obj)
  | [] => .ok [r]
  | r' :: rest =>
    match (key r).lt? (key r') with
    | none => .error .typeError
    | some false => .ok (r :: r' :: rest)
    | some true => (insertDesc key r rest).map (r' :: ·)

/-- `sorted(items, key=key, reverse=True)`. -/
def sortedDesc (key : Obj → Json) : List Obj → Except PyExc (List Obj)
  | [] => .ok []
  | r :: rest =>
    match sortedDesc key rest with
    | .error e => .error e
    | .ok sorted => insertDesc key r sorted

/-- `list(status)`: the records, filtered when a status is given, newest first. -/
def listRecords (key : Obj → Json) (status : Json) : Prog PyExc Store (List Obj) := do
  let st ← get
  let items := st.records.values
  let items := if status.truthy then
      items.filter fun r => (Obj.get r "status").pyEq status
    else items
  Prog.ofExcept (sortedDesc key items)

section Effects

variable {env : Env} {field unknown duplicate : String} {record : Obj} {id : Json} {st : Store}
variable {transition : Obj → Except PyExc Obj}

/-- Writing a file leaves the records alone, and raises what `persistError` says. -/
theorem exec_persist (env : Env) (field : String) (record : Obj) (st : Store) :
    ∃ writes, (persist env field record).exec st =
      ((persistError env field record).elim (.ok ()) .error, { st with writes := writes }) := by
  unfold persist
  cases herr : persistError env field record with
  | some e => exact ⟨st.writes, rfl⟩
  | none =>
    cases hid : record.lookup field with
    | none => exact ⟨st.writes, rfl⟩
    | some v =>
      cases v with
      | str s =>
        by_cases hw : (env.dirsOk && env.writable (s ++ ".json")) = true
        · exact ⟨st.writes ++ [(s ++ ".json", .obj record)], by simp [hw]⟩
        · exact ⟨st.writes, by simp [hw]⟩
      | _ => exact ⟨st.writes, rfl⟩

/-- Writing a record leaves the records in memory. -/
theorem persist_fixes (env : Env) (field : String) (record : Obj) :
    Prog.Keeps (Prog.Fixes Store.records) (persist env field record) := by
  intro st
  obtain ⟨writes, hexec⟩ := exec_persist env field record st
  rw [hexec]
  rfl

/-- What `insertNew` can do: raise and change nothing, or add the record under the key of
its id, which was free. -/
theorem insertNew_cases (field duplicate : String) (record : Obj) (st : Store) :
    (∃ e, (insertNew field duplicate record).exec st = (.error e, st)) ∨
    ∃ k, (Obj.get record field).key? = some k ∧ st.records.get? k = none ∧
      (insertNew field duplicate record).exec st =
        (.ok (), { st with records := st.records.insert k record }) := by
  unfold insertNew
  cases hkey : (Obj.get record field).key? with
  | none => exact .inl ⟨.typeError, by simp [Prog.exec_bind, hashKey, hkey]⟩
  | some k =>
    cases hrec : st.records.get? k with
    | some r => exact .inl ⟨_, by simp [Prog.exec_bind, hashKey, hkey, hrec]; rfl⟩
    | none => exact .inr ⟨k, rfl, hrec, by simp [Prog.exec_bind, hashKey, hkey, hrec]⟩

/-- What was added was not stored before. -/
theorem insertNew_ok {field duplicate : String} {record : Obj} {st st' : Store} {u : Unit}
    (h : (insertNew field duplicate record).exec st = (.ok u, st')) :
    ∃ k, (Obj.get record field).key? = some k ∧ st.records.get? k = none := by
  rcases insertNew_cases field duplicate record st with ⟨e, hexec⟩ | ⟨k, hkey, hfree, -⟩
  · cases hexec.symm.trans h
  · exact ⟨k, hkey, hfree⟩

/-- A transition that passes replaces the record; after that only writing the file can
raise. -/
theorem exec_setStatus (env : Env) (field unknown : String) {k : Key} {r r' : Obj} (hkey : id.key? = some k)
    (hrec : st.records.get? k = some r) (htr : transition r = .ok r') :
    ∃ writes, (setStatus env field unknown transition id).exec st =
      ((persistError env field r').elim (.ok r') .error,
        { records := st.records.insert k r', writes := writes }) := by
  obtain ⟨writes, hpersist⟩ := exec_persist env field r'
    { st with records := st.records.insert k r' }
  refine ⟨writes, ?_⟩
  simp only [setStatus, Prog.exec_bind, Prog.exec_ofExcept, hashKey, hkey, Prog.exec_get, hrec, htr,
    Prog.exec_set, hpersist]
  cases persistError env field r' <;> rfl

/-- What `setStatus` can do: raise and leave the records alone, or replace the record of
the id by its transition. -/
theorem setStatus_cases (env : Env) (field unknown : String)
    (transition : Obj → Except PyExc Obj) (id : Json) (st : Store) :
    (∃ e, (setStatus env field unknown transition id).exec st = (.error e, st)) ∨
    ∃ k r r' writes, id.key? = some k ∧ st.records.get? k = some r ∧ transition r = .ok r' ∧
      (setStatus env field unknown transition id).exec st =
        ((persistError env field r').elim (.ok r') .error,
          { records := st.records.insert k r', writes := writes }) := by
  cases hkey : id.key? with
  | none => exact .inl ⟨.typeError, by simp [setStatus, Prog.exec_bind, hashKey, hkey]⟩
  | some k =>
    cases hrec : st.records.get? k with
    | none => exact .inl ⟨_, by simp [setStatus, Prog.exec_bind, hashKey, hkey, hrec]; rfl⟩
    | some r =>
      cases htr : transition r with
      | error e => exact .inl ⟨e, by simp [setStatus, Prog.exec_bind, hashKey, hkey, hrec, htr]⟩
      | ok r' =>
        obtain ⟨writes, hexec⟩ := exec_setStatus env field unknown hkey hrec htr
        exact .inr ⟨k, r, r', writes, rfl, hrec, htr, hexec⟩

/-- A record whose id is new is added; after that only writing its file can raise. -/
theorem exec_insertNew_persist (env : Env) (field duplicate : String) {r : Obj} {k : Key}
    (hkey : (Obj.get r field).key? = some k) (hfree : st.records.get? k = none) :
    ∃ writes, (do insertNew field duplicate r; persist env field r; return r : Prog PyExc Store Obj).exec st =
      ((persistError env field r).elim (.ok r) .error, ⟨st.records.insert k r, writes⟩) := by
  have hnew : (insertNew field duplicate r).exec st = (.ok (), { st with records := st.records.insert k r }) := by
    simp [insertNew, Prog.exec_bind, hashKey, hkey, hfree]
  obtain ⟨writes, hpersist⟩ := exec_persist env field r { st with records := st.records.insert k r }
  refine ⟨writes, ?_⟩
  simp only [Prog.exec_bind, hnew, hpersist]
  cases persistError env field r <;> rfl

/-- A store operation that adds a record and then writes its file changes the records as
its first part does. -/
theorem insertNew_persist_records {r : Obj} :
    ((do insertNew field duplicate r; persist env field r; return r : Prog PyExc Store Obj).exec
      st).2.records = st.records ∨
    ∃ k, (Obj.get r field).key? = some k ∧ st.records.get? k = none ∧
      ((do insertNew field duplicate r; persist env field r; return r : Prog PyExc Store Obj).exec
        st).2.records = st.records.insert k r := by
  rcases insertNew_cases field duplicate r st with ⟨e, hexec⟩ | ⟨k, hkey, hfree, hexec⟩
  · left
    rw [Prog.exec_bind_error hexec]
  · right
    refine ⟨k, hkey, hfree, ?_⟩
    rw [Prog.exec_bind_ok hexec]
    have hfix := Prog.Keeps.bind (persist_fixes env field r)
      (fun _ => Prog.Keeps.pure r) { st with records := st.records.insert k r }
    exact hfix

end Effects

/-- The records of a store evolve. -/
def Store.Evolves (fresh : Key → Obj → Prop) (next : Obj → Obj → Prop) (st st' : Store) : Prop :=
  Base.Evolves fresh next st.records st'.records

section Evolves

variable {fresh : Key → Obj → Prop} {next : Obj → Obj → Prop}
variable {env : Env} {field unknown duplicate : String} {record : Obj} {id : Json}
variable {transition : Obj → Except PyExc Obj}

instance : Std.Refl (Store.Evolves fresh next) := ⟨fun st => Std.Refl.refl st.records⟩

instance : IsTrans Store (Store.Evolves fresh next) :=
  ⟨fun _ _ _ h h' => Relation.ReflTransGen.trans (r := Moves fresh next) h h'⟩

/-- So it lets them evolve. -/
theorem persist_keeps : Prog.Keeps (Store.Evolves fresh next) (persist env field record) := by
  intro st
  obtain ⟨writes, hexec⟩ := exec_persist env field record st
  rw [hexec]
  exact Std.Refl.refl st.records

/-- Inserting a fresh record lets them evolve. -/
theorem insertNew_keeps (hfresh : ∀ k, (Obj.get record field).key? = some k → fresh k record) :
    Prog.Keeps (Store.Evolves fresh next) (insertNew field duplicate record) := by
  intro st
  rcases insertNew_cases field duplicate record st with ⟨e, hexec⟩ | ⟨k, hkey, hfree, hexec⟩
  · rw [hexec]
    exact Std.Refl.refl st
  · rw [hexec]
    exact .add hfree (hfresh k hkey)

/-- So does a transition to a next status. -/
theorem setStatus_keeps (hnext : ∀ r r', transition r = .ok r' → next r r') :
    Prog.Keeps (Store.Evolves fresh next) (setStatus env field unknown transition id) := by
  intro st
  rcases setStatus_cases env field unknown transition id st
    with ⟨e, hexec⟩ | ⟨k, r, r', writes, _, hrec, htr, hexec⟩
  · rw [hexec]
    exact Std.Refl.refl st
  · rw [hexec]
    exact .advance hrec (hnext r r' htr)

/-- Looking for a record reads only. -/
theorem getRecord_reads : Prog.Reads (getRecord id) :=
  .bind (.ofExcept _) fun _ => .bind .get fun _ => .pure _

/-- So does listing records. -/
theorem listRecords_reads {key : Obj → Json} {status : Json} :
    Prog.Reads (listRecords key status) := .bind .get fun _ => .ofExcept _

/-- Looking for a record lets them evolve. -/
theorem getRecord_keeps : Prog.Keeps (Store.Evolves fresh next) (getRecord id) :=
  .bind (.ofExcept _) fun _ => .bind .get fun _ => .pure _

/-- So does listing records. -/
theorem listRecords_keeps {key : Obj → Json} {status : Json} :
    Prog.Keeps (Store.Evolves fresh next) (listRecords key status) :=
  .bind .get fun _ => .ofExcept _

end Evolves

section Listing

variable {key : Obj → Json} {status : Json} {r x : Obj} {l sorted : List Obj} {st st' : Store}

/-- An insertion adds the inserted record and nothing else. -/
theorem mem_of_insertDesc (h : insertDesc key r l = .ok sorted) (hx : x ∈ sorted) :
    x = r ∨ x ∈ l := by
  induction l generalizing sorted with
  | nil =>
    obtain rfl : [r] = sorted := by simpa [insertDesc] using h
    exact .inl (List.mem_singleton.mp hx)
  | cons r' rest ih =>
    unfold insertDesc at h
    cases hlt : (key r).lt? (key r') with
    | none => simp [hlt] at h
    | some less =>
      cases less with
      | false =>
        obtain rfl : r :: r' :: rest = sorted := by simpa [hlt] using h
        exact List.mem_cons.mp hx
      | true =>
        cases hrest : insertDesc key r rest with
        | error e => simp [hlt, hrest, Except.map] at h
        | ok sorted' =>
          obtain rfl : r' :: sorted' = sorted := by simpa [hlt, hrest, Except.map] using h
          rcases List.mem_cons.mp hx with rfl | hmem
          · exact .inr List.mem_cons_self
          · exact (ih hrest hmem).imp id (List.mem_cons_of_mem _)

/-- Sorting lists nothing but the given records. -/
theorem mem_of_sortedDesc (h : sortedDesc key l = .ok sorted) (hx : x ∈ sorted) : x ∈ l := by
  induction l generalizing sorted with
  | nil =>
    obtain rfl : [] = sorted := by simpa [sortedDesc] using h
    exact hx
  | cons r rest ih =>
    unfold sortedDesc at h
    cases hrest : sortedDesc key rest with
    | error e => simp [hrest] at h
    | ok sorted' =>
      rcases mem_of_insertDesc (by simpa [hrest] using h) hx with rfl | hmem
      · exact List.mem_cons_self
      · exact List.mem_cons_of_mem _ (ih hrest hmem)

/-- A record listed under a status is stored, and has that status. -/
theorem mem_of_listRecords {s : String} (hs : s ≠ "")
    (h : (listRecords key (.str s)).exec st = (.ok l, st')) (hx : x ∈ l) :
    (∃ k, st.records.get? k = some x) ∧ Obj.get x "status" = .str s := by
  simp only [listRecords, Prog.exec_bind, Prog.exec_get, Prog.exec_ofExcept, Json.truthy_str,
    bne_iff_ne, ne_eq, hs, not_false_eq_true, if_true, Prod.mk.injEq] at h
  have hmem := List.mem_filter.mp (mem_of_sortedDesc h.1 hx)
  exact ⟨Dict.mem_values_iff.mp hmem.1, Json.pyEq_str.mp hmem.2⟩

end Listing

end VirtuosoFlow.Tunnel
