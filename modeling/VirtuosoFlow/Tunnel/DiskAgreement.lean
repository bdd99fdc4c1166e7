import VirtuosoFlow.Base.WriteBehind
import VirtuosoFlow.Tunnel.Shelf

/-!
# Files and records

When all requests are done, the files hold exactly the records, as long as every record has a
file of its own in the directory and the action that is done last on a file is that of the
record's newest update. Nothing in the code sees to that: ids become file names as they are, and
actions on one file are done in any order once their requests have left the lock.
-/

namespace VirtuosoFlow.Tunnel

open Base Base.Posix

/-- The file of an id, where it lies in this directory. -/
def fileAt (dir : Place) (files : Files) (k : Key) : Option Obj := (fileOf dir k).bind fun n => files (dir ++ [n])

/-- The files of a directory hold exactly these records. -/
structure Holds (dir : Place) (files : Files) (records : Dict Key Obj) : Prop where
  file : ∀ k u, records.get? k = some u → fileAt dir files k = some u
  only : ∀ n u, files (dir ++ [n]) = some u → ∃ k, records.get? k = some u ∧ fileOf dir k = some n

/-- The key whose file an action writes or removes. -/
def FileAction.target (field : String) : FileAction → Option Key
  | .write u => (Obj.get u field).key?
  | .save k => some k
  | .unlink k => some k

/-- What the files of a store have, behind what its memory has. A file counts for the id of the record that it
holds. -/
def Shelf.behind (field : String) (dir : Place) (files : Files) (sh : Shelf) : Behind Key Obj where
  memory := sh.memory.records.get?
  disk k := (fileAt dir files k).filter fun u => (Obj.get u field).key? = some k
  queued k := ∃ a ∈ sh.pending.flatten, a.target field = some k

/-- A record is stored under the key of its id, which is true. -/
def HasKey (field : String) (u : Obj) (k : Key) : Prop :=
  (Obj.get u field).key? = some k ∧ (Obj.get u field).truthy = true

/-- Records and removed sessions are stored under their ids. -/
structure Memory.Keyed (field : String) (m : Memory) : Prop where
  records : ∀ k u, m.records.get? k = some u → HasKey field u k
  gone : ∀ k u, m.gone.get? k = some u → HasKey field u k

/-- What holds of a store between any two steps. -/
structure Shelf.Sound (field : String) (dir : Place) (files : Files) (sh : Shelf) : Prop where
  keyed : sh.memory.Keyed field
  named : ∀ n u, files (dir ++ [n]) = some u → ∃ k, (Obj.get u field).key? = some k ∧ fileOf dir k = some n
  agrees : (sh.behind field dir files).Agrees

/-- A store as it is when it is loaded: no request is under way, and the files hold the records. -/
structure Shelf.Loaded (field : String) (dir : Place) (files : Files) (sh : Shelf) : Prop where
  idle : sh.pending = []
  keyed : sh.memory.Keyed field
  holds : Holds dir files sh.memory.records

/-- The stores of a daemon that was just started. -/
def shelfMachine (home : Place) : Machine Shelves ShelfInput (Except PyExc Unit) where
  init s := ∀ name, (s.shelf name).Loaded name.field (name.dir home) s.files
  step := Shelves.step home

/-- An action takes effect on a file in the directory that no other record has, and if no other action on it is
outstanding, it leaves there what the record is now. -/
structure WritesNewest (env : Env) (field : String) (dir : Place) (files : Files) (sh : Shelf) (a : FileAction)
    (others : List FileAction) (k : Key) (n : List Char) : Prop where
  target : a.target field = some k
  place : fileOf dir k = some n
  apart : ∀ k', k' ≠ k → fileOf dir k' = some n →
    sh.memory.records.get? k' = none ∧ ∀ b ∈ others, b.target field ≠ some k'
  written : ∃ files', a.run env field dir sh.memory files = .ok files' ∧ files' (dir ++ [n]) = a.content sh.memory
  newest : (∀ b ∈ others, b.target field ≠ some k) → a.content sh.memory = sh.memory.records.get? k

/-- The steps that keep the files in step with the records: no operation raises after it changed
records, every record has a file of its own, and the last outstanding action on it is that of the newest
update. -/
def InStep (home : Place) (s : Shelves) : ShelfInput → Prop
  | .call env c => ∀ e m, (c.locked env).exec (s.shelf c.store).memory = (.error e, m) →
      m = (s.shelf c.store).memory
  | .proceed env name i => ∀ a rest, (s.shelf name).pending[i]? = some (a :: rest) →
      ∃ k n, WritesNewest env name.field (name.dir home) s.files (s.shelf name) a
        ((s.shelf name).pending.set i rest).flatten k n

/-- `_load`, given the files of the directory in some order. -/
def load (field : String) (files : List (List Char × Obj)) : Except PyExc (Dict Key Obj) :=
  files.foldlM
    (fun records f =>
      if (Obj.get f.2 field).truthy then (hashKey (Obj.get f.2 field)).map fun k => records.insert k f.2
      else .ok records) Dict.empty

/-- A listing of a directory. -/
structure Lists (dir : Place) (files : Files) (l : List (List Char × Obj)) : Prop where
  nodup : (l.map Prod.fst).Nodup
  mem : ∀ n u, (n, u) ∈ l ↔ files (dir ++ [n]) = some u

section Locked

variable {field : String} {env : Env} {m m' : Memory} {actions : List FileAction} {u : Obj} {k : Key}

/-- What the locked part of an operation does: it leaves an action for every record it changes. -/
structure Queues (field : String) (m m' : Memory) (actions : List FileAction) : Prop where
  keyed : m.Keyed field → m'.Keyed field
  covers : m.Keyed field → ∀ k, (∀ a ∈ actions, a.target field ≠ some k) →
    m'.records.get? k = m.records.get? k

/-- A record with the same field has the same key. -/
theorem HasKey.congr {u' : Obj} (h : HasKey field u k) (hsame : u'.lookup field = u.lookup field) :
    HasKey field u' k := by
  unfold HasKey Obj.get Obj.getD at h ⊢
  rw [hsame]
  exact h

/-- Storing one record under its id and writing it. -/
theorem Queues.insert {action : FileAction} (hkey : m.Keyed field → HasKey field u k)
    (htarget : m.Keyed field → action.target field = some k) :
    Queues field m { m with records := m.records.insert k u } [action] := by
  constructor
  · intro h
    refine ⟨?_, h.gone⟩
    intro k' u' hrec
    rw [Dict.get?_insert] at hrec
    split at hrec
    · rename_i hk
      obtain rfl : u = u' := Option.some.inj hrec
      rw [hk]
      exact hkey h
    · exact h.records k' u' hrec
  · intro h k' hnot
    have hne : k' ≠ k := by
      rintro rfl
      exact hnot action (List.mem_singleton.mpr rfl) (htarget h)
    exact Dict.get?_insert_ne _ hne _

/-- Nothing changes and nothing is left to be done. -/
theorem Queues.refl (field : String) (m : Memory) : Queues field m m [] :=
  ⟨id, fun _ _ _ => rfl⟩

/-- A locked part of the record stores keeps the removed sessions. -/
theorem exec_onRecords {α : Type} (p : Prog PyExc Store α) (m : Memory) :
    (onRecords p).exec m = ((p.exec ⟨m.records, []⟩).1,
      { m with records := (p.exec ⟨m.records, []⟩).2.records }) := rfl

/-- What a program on the records of a memory leaves. -/
theorem exec_onRecords_eq_ok {α : Type} {p : Prog PyExc Store α} {a : α}
    (h : (onRecords p).exec m = (.ok a, m')) :
    ∃ st, p.exec ⟨m.records, []⟩ = (.ok a, st) ∧ m' = { m with records := st.records } := by
  rw [exec_onRecords, Prod.mk.injEq] at h
  exact ⟨_, Prod.ext h.1 rfl, h.2.symm⟩

/-- Adding a record. -/
theorem lockedAdd_queues {duplicate : String} {p : Obj} (hid : (Obj.get u field).truthy = true)
    (h : (onRecords (lockedAdd field duplicate u)).exec m = (.ok p, m')) :
    Queues field m m' [.write p] := by
  obtain ⟨st, hexec, rfl⟩ := exec_onRecords_eq_ok h
  unfold lockedAdd at hexec
  rcases insertNew_cases field duplicate u ⟨m.records, []⟩ with ⟨e, hnew⟩ | ⟨k, hkey, _, hnew⟩
  · rw [Prog.exec_bind_error hnew] at hexec
    simp at hexec
  · rw [Prog.exec_bind_ok hnew] at hexec
    simp only [Prog.exec_pure, Prod.mk.injEq, Except.ok.injEq] at hexec
    obtain ⟨rfl, rfl⟩ := hexec
    exact .insert (fun _ => ⟨hkey, hid⟩) fun _ => hkey

/-- Moving a record by a transition that keeps its id. -/
theorem lockedSet_queues {unknown : String} {transition : Obj → Except PyExc Obj} {id : Json} {p : Obj}
    (hkeeps : ∀ r r', transition r = .ok r' → r'.lookup field = r.lookup field)
    (h : (onRecords (lockedSet unknown transition id)).exec m = (.ok p, m')) :
    Queues field m m' [.write p] := by
  obtain ⟨st, hexec, rfl⟩ := exec_onRecords_eq_ok h
  unfold lockedSet at hexec
  obtain ⟨k, st₁, hkey, hexec⟩ := Prog.exec_bind_eq_ok hexec
  rw [Prog.exec_ofExcept, Prod.mk.injEq] at hkey
  obtain ⟨_, rfl⟩ := hkey
  rw [Prog.exec_bind_ok (Prog.exec_get _)] at hexec
  cases hrec : m.records.get? k with
  | none => simp [hrec] at hexec
  | some r =>
    simp only [hrec] at hexec
    obtain ⟨r', st₂, htr, hexec⟩ := Prog.exec_bind_eq_ok hexec
    rw [Prog.exec_ofExcept, Prod.mk.injEq] at htr
    obtain ⟨htr, rfl⟩ := htr
    rw [Prog.exec_bind_ok (Prog.exec_set _ _)] at hexec
    simp only [Prog.exec_pure, Prod.mk.injEq, Except.ok.injEq] at hexec
    obtain ⟨rfl, rfl⟩ := hexec
    have hkeyed : m.Keyed field → HasKey field r' k := fun hm =>
      (hm.records k r hrec).congr (hkeeps r r' htr)
    exact .insert hkeyed fun hm => (hkeyed hm).1

/-- The sweep writes what it expires. -/
theorem expireEntries_queues {l : List (Key × Obj)} {st st' : Store} {newly : List Obj}
    (hl : ∀ e ∈ l, HasKey "proposal_id" e.2 e.1)
    (h : (ProposalStore.expireEntries env l).exec st = (.ok newly, st')) :
    (∀ k u, st'.records.get? k = some u → st.records.get? k = some u ∨ HasKey "proposal_id" u k) ∧
      ∀ k, (∀ u ∈ newly, (Obj.get u "proposal_id").key? ≠ some k) →
        st'.records.get? k = st.records.get? k := by
  induction l generalizing st newly with
  | nil =>
    simp only [ProposalStore.expireEntries, Prog.exec_pure, Prod.mk.injEq, Except.ok.injEq] at h
    obtain ⟨rfl, rfl⟩ := h
    exact ⟨fun k u hu => .inl hu, fun k _ => rfl⟩
  | cons e l ih =>
    obtain ⟨key, p⟩ := e
    have hrest : ∀ e ∈ l, HasKey "proposal_id" e.2 e.1 := fun e he => hl e (List.mem_cons_of_mem _ he)
    unfold ProposalStore.expireEntries at h
    obtain ⟨stale, st₁, hstale, h⟩ := Prog.exec_bind_eq_ok h
    rw [Prog.exec_ofExcept, Prod.mk.injEq] at hstale
    obtain ⟨_, rfl⟩ := hstale
    cases stale with
    | false => exact ih hrest h
    | true =>
      simp only [if_true] at h
      obtain ⟨updated, st₂, htr, h⟩ := Prog.exec_bind_eq_ok h
      rw [Prog.exec_ofExcept, Prod.mk.injEq] at htr
      obtain ⟨htr, rfl⟩ := htr
      rw [Prog.exec_bind_ok (Prog.exec_modify _ _)] at h
      obtain ⟨newly', st₃, hexec, h⟩ := Prog.exec_bind_eq_ok h
      simp only [Prog.exec_pure, Prod.mk.injEq, Except.ok.injEq] at h
      obtain ⟨rfl, rfl⟩ := h
      obtain ⟨hstored, hcovers⟩ := ih hrest hexec
      generalize hu : Obj.set updated "expired_reason" _ = u at *
      have hkey : HasKey "proposal_id" u key := by
        refine (hl _ List.mem_cons_self).congr ?_
        obtain ⟨_, rfl⟩ := Lifecycle.transition_eq_ok.mp htr
        rw [← hu]
        simp
      constructor
      · intro k r hr
        rcases hstored k r hr with hold | hnew
        · rw [Dict.get?_insert] at hold
          split at hold
          · rename_i hk
            obtain rfl : u = r := Option.some.inj hold
            rw [hk]
            exact .inr hkey
          · exact .inl hold
        · exact .inr hnew
      · intro k hnot
        have hne : k ≠ key := by
          rintro rfl
          exact hnot u List.mem_cons_self hkey.1
        rw [hcovers k fun u' hu' => hnot u' (List.mem_cons_of_mem _ hu')]
        exact Dict.get?_insert_ne _ hne _

/-- A sweep queues the records that it marks. -/
theorem lockedExpire_queues {newly : List Obj} (h : (onRecords (lockedExpire env)).exec m = (.ok newly, m')) :
    Queues "proposal_id" m m' (newly.map .write) := by
  obtain ⟨st, hexec, rfl⟩ := exec_onRecords_eq_ok h
  unfold lockedExpire at hexec
  split at hexec
  · simp only [Prog.exec_pure, Prod.mk.injEq, Except.ok.injEq] at hexec
    obtain ⟨rfl, rfl⟩ := hexec
    exact .refl _ m
  · rw [Prog.exec_bind_ok (Prog.exec_get _)] at hexec
    have hentries : m.Keyed "proposal_id" → ∀ e ∈ m.records.entries, HasKey "proposal_id" e.2 e.1 :=
      fun hm e he => hm.records e.1 e.2 (Dict.mem_entries_iff.mp he)
    constructor
    · intro hm
      refine ⟨?_, hm.gone⟩
      intro k u hrec
      rcases (expireEntries_queues (hentries hm) hexec).1 k u hrec with hold | hnew
      · exact hm.records k u hold
      · exact hnew
    · intro hm k hnot
      refine (expireEntries_queues (hentries hm) hexec).2 k ?_
      intro u hu
      exact hnot (.write u) (List.mem_map.mpr ⟨u, hu, rfl⟩)

/-- Marks keep the ids of their jobs. -/
theorem lookup_jobTransition {mark : JobMark} {j j' : Obj} (h : jobTransition env mark.status mark.fields j = .ok j') :
    j'.lookup "job_id" = j.lookup "job_id" := by
  obtain ⟨_, rfl⟩ := Lifecycle.transition_eq_ok.mp h
  have hfields : "job_id" ∉ mark.fields.map Prod.fst := by
    have htouched : ∀ e ∈ mark.fields, e.1 ∈ jobTouched := by
      cases mark with
      | running => intro e he; cases he
      | done resultId runId => exact JobStore.doneFields_touched
      | failed error => exact JobStore.failedFields_touched
      | cancelled => intro e he; cases he
    intro hmem
    obtain ⟨e, he, hid⟩ := List.mem_map.mp hmem
    have htouch := htouched e he
    rw [hid] at htouch
    revert htouch
    decide
  rw [Obj.lookup_set_ne _ (by decide), Obj.lookup_set_ne _ (by decide), lookup_update hfields]

/-- Seeing a session keeps its id. -/
theorem lookup_seen (u : Obj) : (Registry.seen env u).lookup "session_id" = u.lookup "session_id" := by
  rw [Registry.seen, Obj.lookup_set_ne _ (by decide), Obj.lookup_set_ne _ (by decide)]

/-- Registering queues the new session, and the reaped ones to be removed. -/
theorem register_queues {client : Json} (h : (Registry.register env client).exec m = (.ok actions, m')) :
    Queues "session_id" m m' actions := by
  unfold Registry.register at h
  dsimp only at h
  rw [Prog.exec_bind_ok (Prog.exec_get m)] at h
  generalize pyOr client (.obj []) = client at h
  cases hsame : Registry.sameProcess env client m.records with
  | none =>
    simp only [hsame] at h
    rw [Prog.exec_bind_ok (Prog.exec_set _ _)] at h
    simp only [Prog.exec_pure, Prod.mk.injEq, Except.ok.injEq] at h
    obtain ⟨rfl, rfl⟩ := h
    have htruthy : (Json.str ("s_" ++ env.uuid)).truthy = true := by simp [Json.truthy]
    exact .insert (fun _ => ⟨rfl, htruthy⟩) fun _ => rfl
  | some found =>
    obtain ⟨key, existing⟩ := found
    simp only [hsame] at h
    rw [Prog.exec_bind_ok (Prog.exec_set _ _)] at h
    obtain ⟨reconnects, m₁, hcount, h⟩ := Prog.exec_bind_eq_ok h
    rw [Prog.exec_bind_ok (Prog.exec_set _ _)] at h
    simp only [Prog.exec_pure, Prod.mk.injEq, Except.ok.injEq] at h
    obtain ⟨rfl, rfl⟩ := h
    have hstored : m.records.get? key = some existing := by
      unfold Registry.sameProcess at hsame
      obtain ⟨fp, _, hfind⟩ := Option.bind_eq_some_iff.mp hsame
      exact Dict.mem_entries_iff.mp (List.mem_of_find?_eq_some hfind)
    have hkeyed : m.Keyed "session_id" → HasKey "session_id"
        (Obj.set (Registry.seen env (Obj.set existing "client" client)) "reconnects" reconnects) key := by
      intro hm
      refine (hm.records key existing hstored).congr ?_
      rw [Obj.lookup_set_ne _ (by decide), lookup_seen, Obj.lookup_set_ne _ (by decide)]
    exact .insert hkeyed fun _ => rfl

/-- Hearing of a session queues its record. -/
theorem touch_queues {sid : Json} (h : (Registry.touchLocked env sid).exec m = (.ok actions, m')) :
    Queues "session_id" m m' actions := by
  unfold Registry.touchLocked at h
  obtain ⟨key, m₁, hkey, h⟩ := Prog.exec_bind_eq_ok h
  rw [Prog.exec_ofExcept, Prod.mk.injEq] at hkey
  obtain ⟨_, rfl⟩ := hkey
  rw [Prog.exec_bind_ok (Prog.exec_get m)] at h
  cases hrec : m.records.get? key with
  | none =>
    simp only [hrec, Prog.exec_pure, Prod.mk.injEq, Except.ok.injEq] at h
    obtain ⟨rfl, rfl⟩ := h
    exact .refl _ m
  | some u =>
    simp only [hrec] at h
    rw [Prog.exec_bind_ok (Prog.exec_set _ _)] at h
    simp only [Prog.exec_pure, Prod.mk.injEq, Except.ok.injEq] at h
    obtain ⟨rfl, rfl⟩ := h
    exact .insert (fun hm => (hm.records key u hrec).congr (lookup_seen u)) fun _ => rfl

/-- A session that was removed was stored before. -/
theorem gone_forget {removed : List Key} (h : (Registry.forget removed m).gone.get? k = some u) :
    m.gone.get? k = some u ∨ m.records.get? k = some u := by
  unfold Registry.forget at h
  dsimp only at h
  generalize m.gone = gone at *
  induction removed generalizing gone with
  | nil => exact .inl h
  | cons key removed ih =>
    rw [List.foldl_cons] at h
    rcases ih _ h with hgone | hrec
    · cases hkey : m.records.get? key with
      | none =>
        rw [hkey] at hgone
        exact .inl hgone
      | some r =>
        rw [hkey, Option.elim_some, Dict.get?_insert] at hgone
        split at hgone
        · rename_i hk
          rw [hk, ← hgone]
          exact .inr hkey
        · exact .inl hgone
    · exact .inr hrec

/-- A reap queues the sessions that it drops. -/
theorem reap_queues {maxIdle : PyFloat} (h : (Registry.reap env maxIdle).exec m = (.ok actions, m')) :
    Queues "session_id" m m' actions := by
  unfold Registry.reap at h
  split at h
  · simp only [Prog.exec_pure, Prod.mk.injEq, Except.ok.injEq] at h
    obtain ⟨rfl, rfl⟩ := h
    exact .refl _ m
  · rw [Prog.exec_bind_ok (Prog.exec_get m)] at h
    obtain ⟨removed, m₁, hidle, h⟩ := Prog.exec_bind_eq_ok h
    rw [Prog.exec_ofExcept, Prod.mk.injEq] at hidle
    obtain ⟨_, rfl⟩ := hidle
    rw [Prog.exec_bind_ok (Prog.exec_set _ _)] at h
    simp only [Prog.exec_pure, Prod.mk.injEq, Except.ok.injEq] at h
    obtain ⟨rfl, rfl⟩ := h
    have hrecords : ∀ k, (Registry.forget removed m).records.get? k =
        if !removed.contains k then m.records.get? k else none := Dict.get?_filterKeys _ _
    constructor
    · intro hm
      constructor
      · intro k u hrec
        rw [hrecords] at hrec
        split at hrec
        · exact hm.records k u hrec
        · cases hrec
      · intro k u hgone
        rcases gone_forget hgone with hold | hrec
        · exact hm.gone k u hold
        · exact hm.records k u hrec
    · intro _ k hnot
      have hkept : removed.contains k = false := by
        rw [← Bool.not_eq_true, List.contains_iff_mem]
        intro hmem
        exact hnot (.unlink k) (List.mem_map.mpr ⟨k, hmem, rfl⟩) rfl
      rw [hrecords, hkept]
      rfl

/-- An operation that ends with writing a record did so. -/
theorem written_of_ok {body : Prog PyExc Memory Obj}
    (h : (do let u ← body; return [FileAction.write u] : Prog PyExc Memory (List FileAction)).exec m =
      (.ok actions, m')) : ∃ u, body.exec m = (.ok u, m') ∧ actions = [.write u] := by
  obtain ⟨u, m₁, hbody, h⟩ := Prog.exec_bind_eq_ok h
  simp only [Prog.exec_pure, Prod.mk.injEq, Except.ok.injEq] at h
  obtain ⟨rfl, rfl⟩ := h
  exact ⟨u, hbody, rfl⟩

/-- Every operation leaves an action for each record it changes. -/
theorem locked_queues {c : StoreCall} (h : (c.locked env).exec m = (.ok actions, m')) :
    Queues c.store.field m m' actions := by
  cases c with
  | proposalCreate data =>
    rw [StoreCall.locked] at h
    obtain ⟨p, hadd, rfl⟩ := written_of_ok h
    exact lockedAdd_queues truthy_id_makeProposal hadd
  | proposalSet new id =>
    rw [StoreCall.locked] at h
    obtain ⟨p, hset, rfl⟩ := written_of_ok h
    refine lockedSet_queues ?_ hset
    intro r r' htr
    obtain ⟨_, rfl⟩ := Lifecycle.transition_eq_ok.mp htr
    simp [StoreCall.store, StoreName.field]
  | proposalExpire =>
    rw [StoreCall.locked] at h
    obtain ⟨newly, m₁, hexpire, h⟩ := Prog.exec_bind_eq_ok h
    simp only [Prog.exec_pure, Prod.mk.injEq, Except.ok.injEq] at h
    obtain ⟨rfl, rfl⟩ := h
    exact lockedExpire_queues hexpire
  | transactionAdd t =>
    rw [StoreCall.locked] at h
    by_cases hid : (Obj.get t "transaction_id").truthy = true
    · simp only [hid, Bool.not_true, Bool.false_eq_true, if_false] at h
      obtain ⟨p, hadd, rfl⟩ := written_of_ok h
      exact lockedAdd_queues hid hadd
    · simp [hid, Prog.exec_bind] at h
  | transactionSet new id =>
    rw [StoreCall.locked] at h
    obtain ⟨p, hset, rfl⟩ := written_of_ok h
    refine lockedSet_queues ?_ hset
    intro r r' htr
    obtain ⟨_, rfl⟩ := Lifecycle.transition_eq_ok.mp htr
    simp [StoreCall.store, StoreName.field]
  | jobAdd j =>
    rw [StoreCall.locked] at h
    by_cases hid : (Obj.get j "job_id").truthy = true
    · simp only [hid, Bool.not_true, Bool.false_eq_true, if_false] at h
      obtain ⟨p, hadd, rfl⟩ := written_of_ok h
      exact lockedAdd_queues hid hadd
    · simp [hid, Prog.exec_bind] at h
  | jobSet mark id =>
    rw [StoreCall.locked] at h
    obtain ⟨p, hset, rfl⟩ := written_of_ok h
    exact lockedSet_queues (fun r r' htr => lookup_jobTransition htr) hset
  | sessionRegister client => exact register_queues h
  | sessionTouch sid => exact touch_queues h
  | sessionReap maxIdle => exact reap_queues h

end Locked

section Files

variable {field : String} {dir : Place} {env : Env} {m : Memory} {files files' : Files} {a : FileAction}
  {u : Obj} {k : Key} {n : List Char} {sh : Shelf}

/-- What the file of an id holds. -/
theorem fileAt_eq_some : fileAt dir files k = some u ↔ ∃ n, fileOf dir k = some n ∧ files (dir ++ [n]) = some u := by
  unfold fileAt
  exact Option.bind_eq_some_iff

/-- Two ids of one file are told apart by the record in it. -/
theorem disk_eq_some : (sh.behind field dir files).disk k = some u ↔
    (Obj.get u field).key? = some k ∧ ∃ n, fileOf dir k = some n ∧ files (dir ++ [n]) = some u := by
  have hdisk : (sh.behind field dir files).disk k =
      (fileAt dir files k).filter fun u => (Obj.get u field).key? = some k := rfl
  rw [hdisk, Option.filter_eq_some_iff, fileAt_eq_some, decide_eq_true_eq]
  exact and_comm

/-- The files hold the records when they agree with them and have the names of their records. -/
theorem holds_iff_agrees (hkeyed : sh.memory.Keyed field) : Holds dir files sh.memory.records ↔
    (∀ n u, files (dir ++ [n]) = some u → ∃ k, (Obj.get u field).key? = some k ∧ fileOf dir k = some n) ∧
      (sh.behind field dir files).disk = (sh.behind field dir files).memory := by
  have hmemory : ∀ k, (sh.behind field dir files).memory k = sh.memory.records.get? k := fun _ => rfl
  constructor
  · intro hholds
    refine ⟨fun n u hfile => ?_, ?_⟩
    · obtain ⟨k, hrec, hplace⟩ := hholds.only n u hfile
      exact ⟨k, (hkeyed.records k u hrec).1, hplace⟩
    · funext k
      refine Option.ext fun u => ?_
      rw [disk_eq_some, hmemory]
      constructor
      · rintro ⟨hkey, n, -, hfile⟩
        obtain ⟨k', hrec, -⟩ := hholds.only n u hfile
        obtain rfl : k' = k := Option.some.inj ((hkeyed.records k' u hrec).1.symm.trans hkey)
        exact hrec
      · intro hrec
        exact ⟨(hkeyed.records k u hrec).1, fileAt_eq_some.mp (hholds.file k u hrec)⟩
  · rintro ⟨hnamed, hsame⟩
    constructor
    · intro k u hrec
      rw [← hmemory, ← hsame] at hrec
      exact fileAt_eq_some.mpr (disk_eq_some.mp hrec).2
    · intro n u hfile
      obtain ⟨k, hkey, hplace⟩ := hnamed n u hfile
      refine ⟨k, ?_, hplace⟩
      rw [← hmemory, ← hsame]
      exact disk_eq_some.mpr ⟨hkey, n, hplace, hfile⟩

/-- Writing a record changes its own file or none. -/
theorem writeFile_ok (h : writeFile env field dir u files = .ok files') :
    files' = files ∨ ∃ s, u.lookup field = some (.str s) ∧
      files' = Function.update files (locate dir (fileName s)) (some u) := by
  unfold writeFile at h
  split at h
  · cases h
  · rename_i s _ hid
    split at h
    · exact .inr ⟨s, hid, (Except.ok.inj h).symm⟩
    · exact .inl (Except.ok.inj h).symm
  · exact .inl (Except.ok.inj h).symm

/-- So does every action. -/
theorem run_ok (hkeyed : m.Keyed field) (h : a.run env field dir m files = .ok files') :
    files' = files ∨ ∃ s, a.target field = some (.str s) ∧
      files' = Function.update files (locate dir (fileName s)) (a.content m) := by
  cases a with
  | write u =>
    rcases writeFile_ok h with hsame | ⟨s, hid, hfiles⟩
    · exact .inl hsame
    · refine .inr ⟨s, ?_, hfiles⟩
      rw [FileAction.target, Obj.get, Obj.getD, hid]
      rfl
  | save k =>
    unfold FileAction.run at h
    dsimp only at h
    cases hobject : (m.records.get? k).or (m.gone.get? k) with
    | none =>
      rw [hobject] at h
      exact .inl (Except.ok.inj h).symm
    | some u =>
      rw [hobject] at h
      have hkey : HasKey field u k := by
        rcases Option.or_eq_some_iff.mp hobject with hrec | ⟨_, hgone⟩
        · exact hkeyed.records k u hrec
        · exact hkeyed.gone k u hgone
      rcases writeFile_ok h with hsame | ⟨s, hid, hfiles⟩
      · exact .inl hsame
      · right
        have hk := hkey.1
        rw [Obj.get, Obj.getD, hid] at hk
        refine ⟨s, ?_, ?_⟩
        · rw [FileAction.target, ← hk]
          rfl
        · rw [FileAction.content, hobject]
          exact hfiles
  | unlink k =>
    unfold FileAction.run unlinkFile at h
    cases k with
    | str s =>
      dsimp only at h
      split at h
      · cases h
      · split at h
        · exact .inr ⟨s, rfl, (Except.ok.inj h).symm⟩
        · exact .inl (Except.ok.inj h).symm
    | _ => cases h

/-- An action leaves every file but that of its id alone. -/
theorem run_elsewhere (hkeyed : m.Keyed field) (h : a.run env field dir m files = .ok files')
    (htarget : a.target field = some k) (hplace : fileOf dir k = some n) {place : Place} (hne : place ≠ dir ++ [n]) :
    files' place = files place := by
  rcases run_ok hkeyed h with rfl | ⟨s, hs, rfl⟩
  · rfl
  · obtain rfl : k = .str s := Option.some.inj (htarget.symm.trans hs)
    obtain ⟨s', hs', -, hlocate⟩ := fileOf_eq_some.mp hplace
    obtain rfl := Key.str.inj hs'
    refine Function.update_of_ne ?_ _ _
    rw [fileName, hlocate]
    exact hne

/-- What an action writes is a record of its id. -/
theorem key_content (hkeyed : m.Keyed field) (htarget : a.target field = some k) (hcontent : a.content m = some u) :
    (Obj.get u field).key? = some k := by
  cases a with
  | write u' =>
    obtain rfl : u' = u := Option.some.inj hcontent
    exact htarget
  | save k' =>
    obtain rfl : k' = k := Option.some.inj htarget
    rcases Option.or_eq_some_iff.mp hcontent with hrec | ⟨_, hgone⟩
    · exact (hkeyed.records k' u hrec).1
    · exact (hkeyed.gone k' u hgone).1
  | unlink k' => cases hcontent

/-- The files of a listing are loaded under the ids of their records, if no two have one id. -/
theorem load_from {l : List (List Char × Obj)} (hnodup : (l.map Prod.fst).Nodup)
    (hkeys : ∀ n u, (n, u) ∈ l → ∃ k, HasKey field u k ∧ fileOf dir k = some n) (loaded : Dict Key Obj) :
    ∃ records, l.foldlM
        (fun records f =>
          if (Obj.get f.2 field).truthy then (hashKey (Obj.get f.2 field)).map fun k => records.insert k f.2
          else Except.ok records) loaded = .ok records ∧
      (∀ n u k, (n, u) ∈ l → (Obj.get u field).key? = some k → records.get? k = some u) ∧
      ∀ k, (∀ n u, (n, u) ∈ l → (Obj.get u field).key? ≠ some k) → records.get? k = loaded.get? k := by
  induction l generalizing loaded with
  | nil =>
    refine ⟨loaded, rfl, ?_, fun k _ => rfl⟩
    intro n u k hmem
    cases hmem
  | cons f l ih =>
    obtain ⟨n, u⟩ := f
    obtain ⟨k, ⟨hkey, htruthy⟩, hplace⟩ := hkeys n u List.mem_cons_self
    rw [List.map_cons, List.nodup_cons] at hnodup
    have hrest : ∀ n u, (n, u) ∈ l → ∃ k, HasKey field u k ∧ fileOf dir k = some n :=
      fun n u hmem => hkeys n u (List.mem_cons_of_mem _ hmem)
    obtain ⟨records, hload, hfound, hothers⟩ := ih hnodup.2 hrest (loaded.insert k u)
    refine ⟨records, ?_, ?_, ?_⟩
    · rw [List.foldlM_cons]
      simp only [htruthy, if_true, hashKey, hkey]
      exact hload
    · intro n' u' k' hmem hkey'
      rcases List.mem_cons.mp hmem with heq | hlater
      · obtain ⟨rfl, rfl⟩ := Prod.mk.inj heq
        obtain rfl : k = k' := Option.some.inj (hkey.symm.trans hkey')
        rw [hothers, Dict.get?_insert_self]
        -- a later file of the same id would be the same file
        intro n'' u'' hmem' hkey''
        obtain ⟨k'', hhas, hplace''⟩ := hrest n'' u'' hmem'
        obtain rfl : k'' = k := Option.some.inj (hhas.1.symm.trans hkey'')
        obtain rfl : n' = n'' := Option.some.inj (hplace.symm.trans hplace'')
        exact hnodup.1 (List.mem_map.mpr ⟨_, hmem', rfl⟩)
      · exact hfound n' u' k' hlater hkey'
    · intro k' hnot
      have hne : k' ≠ k := by
        rintro rfl
        exact hnot n u List.mem_cons_self hkey
      rw [hothers k' fun n' u' hmem => hnot n' u' (List.mem_cons_of_mem _ hmem), Dict.get?_insert_ne _ hne]

/-- A store that was just loaded. -/
theorem Shelf.Loaded.sound (h : sh.Loaded field dir files) : sh.Sound field dir files := by
  obtain ⟨hnamed, hsame⟩ := (holds_iff_agrees h.keyed).mp h.holds
  exact ⟨h.keyed, hnamed, fun k _ => congrFun hsame k⟩

/-- Only the files in its directory count for a store. -/
theorem Shelf.Sound.congr (h : sh.Sound field dir files) (hsame : ∀ n, files' (dir ++ [n]) = files (dir ++ [n])) :
    sh.Sound field dir files' := by
  refine ⟨h.keyed, fun n u hfile => h.named n u ((hsame n).symm.trans hfile), fun k hnot => ?_⟩
  refine Eq.trans (Option.ext fun u => ?_) (h.agrees k hnot)
  rw [disk_eq_some, disk_eq_some]
  simp only [hsame]

/-- An operation under the lock. -/
theorem Shelf.Sound.call {c : StoreCall} (h : sh.Sound c.store.field dir files)
    (hok : ∀ e m, (c.locked env).exec sh.memory = (.error e, m) → m = sh.memory) :
    (sh.call env c).2.Sound c.store.field dir files := by
  unfold Shelf.call
  cases hexec : (c.locked env).exec sh.memory with
  | mk r m =>
    cases r with
    | error e =>
      rw [hok e m hexec]
      exact h
    | ok actions =>
      have hqueues := locked_queues hexec
      refine ⟨hqueues.keyed h.keyed, h.named, ?_⟩
      refine h.agrees.update rfl ?_ ?_
      · rintro k ⟨a, ha, htarget⟩
        refine ⟨a, ?_, htarget⟩
        show a ∈ (sh.pending ++ [actions]).flatten
        rw [List.flatten_append]
        exact List.mem_append_left _ ha
      · intro k hnot
        apply hqueues.covers h.keyed
        intro a ha htarget
        refine hnot ⟨a, ?_, htarget⟩
        show a ∈ (sh.pending ++ [actions]).flatten
        rw [List.flatten_append]
        exact List.mem_append_right _ (by simpa using ha)

/-- What is outstanding: a request's next action, and what is outstanding after it. -/
theorem queued_of_next {i : ℕ} {rest : List FileAction} {k' : Key} (hnext : sh.pending[i]? = some (a :: rest))
    (htarget : a.target field = some k) : (sh.behind field dir files).queued k' ↔
      k' = k ∨ ∃ b ∈ (sh.pending.set i rest).flatten, b.target field = some k' := by
  constructor
  · rintro ⟨b, hb, hbtarget⟩
    rcases (mem_flatten_of_next hnext).mp hb with rfl | hrest
    · exact .inl (Option.some.inj (hbtarget.symm.trans htarget))
    · exact .inr ⟨b, hrest, hbtarget⟩
  · rintro (rfl | ⟨b, hb, hbtarget⟩)
    · exact ⟨a, (mem_flatten_of_next hnext).mpr (.inl rfl), htarget⟩
    · exact ⟨b, (mem_flatten_of_next hnext).mpr (.inr hb), hbtarget⟩

/-- An action leaves what the files have for the other ids. -/
theorem Shelf.Sound.disk_others {sh' : Shelf} {others : List FileAction} {k' : Key}
    (h : sh.Sound field dir files) (hwrites : WritesNewest env field dir files sh a others k n)
    (hrun : a.run env field dir sh.memory files = .ok files') (hfile : files' (dir ++ [n]) = a.content sh.memory)
    (hqueued : (sh.behind field dir files).queued k' ↔ k' = k ∨ ∃ b ∈ others, b.target field = some k')
    (hk' : k' ≠ k) : (sh'.behind field dir files').disk k' = (sh.behind field dir files).disk k' := by
  refine Option.ext fun u => ?_
  rw [disk_eq_some, disk_eq_some]
  by_cases hplace : fileOf dir k' = some n
  · -- another id of the same file: there is no record of it, and none in the file
    obtain ⟨hnone, hothers⟩ := hwrites.apart k' hk' hplace
    have hidle : ¬ (sh.behind field dir files).queued k' := by
      rw [hqueued]
      rintro (heq | ⟨b, hb, hbtarget⟩)
      · exact hk' heq
      · exact hothers b hb hbtarget
    have hbefore : (sh.behind field dir files).disk k' = none := (h.agrees k' hidle).trans hnone
    constructor
    · rintro ⟨hkey, n', hn', hu⟩
      obtain rfl : n = n' := Option.some.inj (hplace.symm.trans hn')
      have hown := key_content h.keyed hwrites.target (hfile.symm.trans hu)
      exact absurd (Option.some.inj (hkey.symm.trans hown)) hk'
    · intro hu
      rw [← disk_eq_some, hbefore] at hu
      cases hu
  · have hsame : ∀ n', fileOf dir k' = some n' → files' (dir ++ [n']) = files (dir ++ [n']) := fun n' hn' =>
      run_elsewhere h.keyed hrun hwrites.target hwrites.place fun heq =>
        hplace (List.singleton_inj.mp (List.append_cancel_left heq) ▸ hn')
    constructor
    · rintro ⟨hkey, n', hn', hu⟩
      exact ⟨hkey, n', hn', (hsame n' hn').symm.trans hu⟩
    · rintro ⟨hkey, n', hn', hu⟩
      exact ⟨hkey, n', hn', (hsame n' hn').trans hu⟩

/-- A request's next action. -/
theorem Shelf.Sound.proceed {i : ℕ} (h : sh.Sound field dir files)
    (hok : ∀ a rest, sh.pending[i]? = some (a :: rest) →
      ∃ k n, WritesNewest env field dir files sh a (sh.pending.set i rest).flatten k n) :
    (sh.proceed env field dir i files).2.1.Sound field dir (sh.proceed env field dir i files).2.2 := by
  unfold Shelf.proceed
  split
  · rename_i a rest hnext
    obtain ⟨k, n, hwrites⟩ := hok a rest hnext
    obtain ⟨files', hrun, hfile⟩ := hwrites.written
    rw [hrun]
    refine ⟨h.keyed, fun n' u hu => ?_, ?_⟩
    · by_cases hn' : n' = n
      · subst hn'
        exact ⟨k, key_content h.keyed hwrites.target (hfile.symm.trans hu), hwrites.place⟩
      · have helse : files' (dir ++ [n']) = files (dir ++ [n']) :=
          run_elsewhere h.keyed hrun hwrites.target hwrites.place fun heq =>
            hn' (List.singleton_inj.mp (List.append_cancel_left heq))
        exact h.named n' u (helse.symm.trans hu)
    · refine h.agrees.write k rfl (fun k' hk' => ?_) fun hnot => ?_
      · have hqueued : (sh.behind field dir files).queued k' ↔ _ := queued_of_next hnext hwrites.target
        exact ⟨h.disk_others hwrites hrun hfile hqueued hk', fun hq => (hqueued.mp hq).resolve_left hk'⟩
      · refine Eq.trans (Option.ext fun u => ?_)
          (hwrites.newest fun b hb hbtarget => hnot ⟨b, hb, hbtarget⟩)
        rw [disk_eq_some, ← hfile]
        constructor
        · rintro ⟨_, n', hn', hu⟩
          obtain rfl : n = n' := Option.some.inj (hwrites.place.symm.trans hn')
          exact hu
        · intro hu
          exact ⟨key_content h.keyed hwrites.target (hfile.symm.trans hu), n, hwrites.place, hu⟩
  · exact h

/-- The directories of two stores are different. -/
theorem dir_ne {name name' : StoreName} (h : name ≠ name') (home : Place) : name.dir home ≠ name'.dir home := by
  intro heq
  cases name <;> cases name' <;> simp [StoreName.dir, storeDir] at heq h

/-- An action leaves the files of other directories alone. -/
theorem proceed_elsewhere {i : ℕ} {dir' : Place} (hkeyed : sh.memory.Keyed field)
    (hok : ∀ a rest, sh.pending[i]? = some (a :: rest) →
      ∃ k n, WritesNewest env field dir files sh a (sh.pending.set i rest).flatten k n) (hdir : dir' ≠ dir)
    (n' : List Char) : (sh.proceed env field dir i files).2.2 (dir' ++ [n']) = files (dir' ++ [n']) := by
  unfold Shelf.proceed
  split
  · rename_i a rest hnext
    obtain ⟨k, n, hwrites⟩ := hok a rest hnext
    obtain ⟨files', hrun, -⟩ := hwrites.written
    rw [hrun]
    exact run_elsewhere hkeyed hrun hwrites.target hwrites.place fun heq => hdir (List.append_inj_left' heq rfl)
  · rfl

end Files

section Runs

variable {home : Place} {s : Shelves} {history : List (Entry Shelves ShelfInput (Except PyExc Unit))}

/-- What every step that keeps in step keeps. -/
theorem sound_of_run (hrun : Run (shelfMachine home) (InStep home) history s) (name : StoreName) :
    (s.shelf name).Sound name.field (name.dir home) s.files := by
  refine hrun.invariant
    (I := fun s : Shelves => ∀ name, (s.shelf name).Sound name.field (name.dir home) s.files) ?_ ?_ name
  · intro s hinit name
    exact (hinit name).sound
  · intro s input hok h name
    cases input with
    | call env c =>
      show (Function.update s.shelf c.store _ name).Sound _ _ _
      by_cases hname : name = c.store
      · subst hname
        rw [Function.update_self]
        exact (h c.store).call hok
      · rw [Function.update_of_ne hname]
        exact h name
    | proceed env name' i =>
      show (Function.update s.shelf name' _ name).Sound _ _ _
      by_cases hname : name = name'
      · subst hname
        rw [Function.update_self]
        exact (h name).proceed hok
      · rw [Function.update_of_ne hname]
        exact (h name).congr fun n => proceed_elsewhere (h name').keyed hok (dir_ne hname home) n

/-- When every request is done, the files of each store hold exactly its records, and loading them in
any order gives the same records, as long as every step keeps in step. -/
theorem disk_agrees (hrun : Run (shelfMachine home) (InStep home) history s)
    (hdone : ∀ name, ∀ actions ∈ (s.shelf name).pending, actions = []) (name : StoreName) :
    Holds (name.dir home) s.files (s.shelf name).memory.records ∧
      ∀ l, Lists (name.dir home) s.files l → ∃ records, load name.field l = .ok records ∧
        ∀ k, records.get? k = (s.shelf name).memory.records.get? k := by
  have h := sound_of_run hrun name
  have hnone : ∀ k, ¬ ((s.shelf name).behind name.field (name.dir home) s.files).queued k := by
    rintro k ⟨a, ha, _⟩
    obtain ⟨actions, hactions, hmem⟩ := List.mem_flatten.mp ha
    rw [hdone name actions hactions] at hmem
    cases hmem
  have hholds : Holds (name.dir home) s.files (s.shelf name).memory.records :=
    (holds_iff_agrees h.keyed).mpr ⟨h.named, h.agrees.settled hnone⟩
  refine ⟨hholds, ?_⟩
  intro l hl
  have hkeys : ∀ n u, (n, u) ∈ l → ∃ k, HasKey name.field u k ∧ fileOf (name.dir home) k = some n := by
    intro n u hmem
    obtain ⟨k, hrec, hplace⟩ := hholds.only n u ((hl.mem n u).mp hmem)
    exact ⟨k, h.keyed.records k u hrec, hplace⟩
  obtain ⟨records, hload, hfound, hothers⟩ := load_from hl.nodup hkeys Dict.empty
  refine ⟨records, hload, ?_⟩
  intro k
  cases hrec : (s.shelf name).memory.records.get? k with
  | some u =>
    obtain ⟨n, -, hfile⟩ := fileAt_eq_some.mp (hholds.file k u hrec)
    exact hfound n u k ((hl.mem n u).mpr hfile) (h.keyed.records k u hrec).1
  | none =>
    rw [hothers k, Dict.get?_empty]
    intro n u hmem hkey
    obtain ⟨k', hrec', -⟩ := hholds.only n u ((hl.mem n u).mp hmem)
    obtain rfl : k' = k := Option.some.inj ((h.keyed.records k' u hrec').1.symm.trans hkey)
    rw [hrec] at hrec'
    cases hrec'

/-- The stores of a daemon that never ran, over an empty home. -/
def emptyShelves : Shelves := ⟨fun _ => ⟨⟨.empty, .empty⟩, []⟩, fun _ => none⟩

/-- Empty shelves are a start. -/
theorem init_emptyShelves : (shelfMachine home).init emptyShelves := by
  intro name
  refine ⟨rfl, ⟨?_, ?_⟩, ?_, ?_⟩
  · intro k u hrec
    cases hrec
  · intro k u hrec
    cases hrec
  · intro k u hrec
    cases hrec
  · intro n u hfile
    cases hfile

/-- A proposal is created and its file is written. -/
def sampleWritten : Shelves :=
  (Shelves.step [] (.proceed .sample .proposals 0)
    (Shelves.step [] (.call .sample (.proposalCreate [("proposal_id", .str "p_1")])) emptyShelves).2).2

/-- Its file. -/
theorem fileOf_sample : fileOf (StoreName.proposals.dir []) (.str "p_1") = some (fileName "p_1") := by
  refine fileOf_eq_some.mpr ⟨"p_1", rfl, by decide, ?_⟩
  exact locate_plain _ (plain_id (by decide))

/-- The record that was written is in its file. -/
theorem disk_agrees_sample :
    Holds (StoreName.proposals.dir []) sampleWritten.files (sampleWritten.shelf .proposals).memory.records := by
  have hcall : InStep [] emptyShelves (.call .sample (.proposalCreate [("proposal_id", .str "p_1")])) := by
    intro e m hexec
    cases hexec
  have hproceed : InStep []
      (Shelves.step [] (.call .sample (.proposalCreate [("proposal_id", .str "p_1")])) emptyShelves).2
      (.proceed .sample .proposals 0) := by
    intro a rest hnext
    cases hnext
    refine ⟨.str "p_1", fileName "p_1", rfl, fileOf_sample, ?_, ⟨_, rfl, rfl⟩, fun _ => rfl⟩
    intro k' hk' _
    refine ⟨?_, fun b hb => by cases hb⟩
    exact Dict.get?_insert_ne _ hk' _
  have hrun : Run (shelfMachine []) (InStep []) _ sampleWritten :=
    .step (.step (.init init_emptyShelves) hcall) hproceed
  refine (disk_agrees hrun ?_ .proposals).1
  intro name actions hactions
  cases name with
  | proposals =>
    have hpending : (sampleWritten.shelf .proposals).pending = [[]] := by rfl
    rw [hpending] at hactions
    exact List.mem_singleton.mp hactions
  | _ => cases hactions

/-- Two requests overlap: the proposal is approved and applied, and the file of the approval is written
last. -/
def sampleOvertaken : Shelves :=
  [ShelfInput.call .sample (.proposalSet .approved (.str "p_1")),
    .call .sample (.proposalSet .applied (.str "p_1")), .proceed .sample .proposals 2,
    .proceed .sample .proposals 1].foldl (fun s i => (Shelves.step [] i s).2) sampleWritten

/-- All requests are done, the proposal is applied, and its file says that it is approved. -/
theorem file_overtaken : (∃ history, Run (shelfMachine []) (fun _ _ => True) history sampleOvertaken) ∧
    (∀ name, ∀ actions ∈ (sampleOvertaken.shelf name).pending, actions = []) ∧
    ((sampleOvertaken.shelf .proposals).memory.records.get? (.str "p_1")).map (fun p => Obj.get p "status") =
      some (.str "applied") ∧
    (fileAt (StoreName.proposals.dir []) sampleOvertaken.files (.str "p_1")).map (fun p => Obj.get p "status") =
      some (.str "approved") := by
  refine ⟨⟨_, .step (.step (.step (.step (.step (.step (.init init_emptyShelves)
    trivial) trivial) trivial) trivial) trivial) trivial⟩, ?_, by rfl, by rfl⟩
  intro name actions hactions
  cases name with
  | proposals =>
    have hpending : (sampleOvertaken.shelf .proposals).pending = [[], [], []] := by rfl
    rw [hpending] at hactions
    simpa using hactions
  | _ => cases hactions

end Runs

end VirtuosoFlow.Tunnel
