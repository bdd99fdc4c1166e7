import VirtuosoFlow.Tunnel.Sessions

/-!
# One session per Virtuoso process

Every live session has a file with its record and no other file is there, so a restart finds the same
sessions; and no two live sessions are of one Virtuoso process. Registering keeps both, because it looks for
the process among all live sessions before it makes a session.
-/

namespace VirtuosoFlow.Tunnel

open Base Base.Posix JsonText

namespace Registry

/-- Two clients are of one Virtuoso process. -/
def SameProcess (daemon : Env) (client client' : Json) : Prop :=
  ∃ fp, fingerprint daemon client = some fp ∧ fingerprint daemon client' = some fp

/-- The session is dropped by a reap with this limit. -/
def isIdle (env : Env) (limit : PyFloat) (r : Obj) : Bool :=
  !(limit == .finite 0 || limit.lt (.finite 0)) &&
    (Obj.getD r "_last_ts" (.int 0)).lt? (.float (cutoff env limit)) == some true

/-- The keys of the sessions that a reap drops. -/
def dropped (env : Env) (limit : PyFloat) (records : Dict Key Obj) : List Key :=
  (records.entries.filter fun e => isIdle env limit e.2).map Prod.fst

/-- The sessions that a reap leaves. -/
def live (env : Env) (limit : PyFloat) (records : Dict Key Obj) : Dict Key Obj :=
  records.filterKeys fun k => !(dropped env limit records).contains k

end Registry

open Registry

/-- No two sessions are of one Virtuoso process. -/
def OnePerProcess (daemon : Env) (records : Dict Key Obj) : Prop :=
  ∀ k k' r r', records.get? k = some r → records.get? k' = some r' →
    SameProcess daemon (Obj.get r "client") (Obj.get r' "client") → k = k'

/-- A session as the registry makes it. -/
structure IsSession (fmt : FloatFormat) (sid : String) (r : Obj) : Prop where
  storable : Storable fmt "session_id" sid r
  created : ∃ v, r.lookup "created_at" = some v
  reconnects : ∃ n, r.lookup "reconnects" = some (.int n)
  lastSeen : ∃ q, r.lookup "_last_ts" = some (.float (.finite q))

/-- The files are those of the sessions, and no two sessions are of one process. -/
structure Coherent (fmt : FloatFormat) (daemon : Env) (s : SessionHome) : Prop where
  sessions : ∀ k r, s.records.get? k = some r → ∃ sid, k = .str sid ∧ IsSession fmt sid r
  file : ∀ sid, s.files (sessionsDir ++ [fileName sid]) = s.records.get? (.str sid)
  named : ∀ name r, s.files (sessionsDir ++ [name]) = some r → ∃ sid, name = fileName sid
  unique : OnePerProcess daemon s.records

section Fingerprints

variable {daemon env : Env} {client : Json} {records : Dict Key Obj} {k : Key} {r : Obj}

/-- Only `str` of the host decides which process a client is of. -/
theorem fingerprint_congr (h : env.str = daemon.str) (client : Json) :
    fingerprint env client = fingerprint daemon client := by
  have hformat : ∀ v, env.format v = daemon.format v := by
    intro v
    cases v <;> simp [Env.format, h]
  cases client <;> simp [fingerprint, fingerprintPart, hformat]

/-- Hosts that print alike tell the same processes apart. -/
theorem sameProcess_congr (h : env.str = daemon.str) (client : Json) (records : Dict Key Obj) :
    sameProcess env client records = sameProcess daemon client records := by
  simp only [sameProcess, fingerprint_congr h]

/-- The search finds a session of the process. -/
theorem sameProcess_some (h : sameProcess daemon client records = some (k, r)) :
    records.get? k = some r ∧ SameProcess daemon (Obj.get r "client") client := by
  unfold sameProcess at h
  obtain ⟨fp, hfp, hfind⟩ := Option.bind_eq_some_iff.mp h
  have hfound : fingerprint daemon (Obj.get r "client") = some fp := by
    simpa using List.find?_some hfind
  exact ⟨Dict.mem_entries_iff.mp (List.mem_of_find?_eq_some hfind), fp, hfound, hfp⟩

/-- If it finds none, there is none. -/
theorem sameProcess_none (h : sameProcess daemon client records = none) (hr : records.get? k = some r) :
    ¬ SameProcess daemon (Obj.get r "client") client := by
  rintro ⟨fp, hfound, hfp⟩
  rw [sameProcess, hfp, Option.bind_some, List.find?_eq_none] at h
  have hnot := h (k, r) (Dict.mem_entries_iff.mpr hr)
  simp [hfound] at hnot

end Fingerprints

section Reaping

variable {env : Env} {limit : PyFloat} {records : Dict Key Obj} {k : Key} {r : Obj} {m : Memory}

/-- Dropped are the sessions that are idle. -/
theorem mem_dropped : k ∈ dropped env limit records ↔ ∃ r, records.get? k = some r ∧ isIdle env limit r = true := by
  simp [dropped, Dict.mem_entries_iff]

/-- The sessions that are not idle are left. -/
theorem get?_live (env : Env) (limit : PyFloat) (records : Dict Key Obj) (k : Key) :
    (live env limit records).get? k = (records.get? k).filter fun r => !isIdle env limit r := by
  rw [live, Dict.get?_filterKeys]
  cases hr : records.get? k with
  | none => simp
  | some r =>
    cases hidle : isIdle env limit r with
    | true =>
      have hmem : k ∈ dropped env limit records := mem_dropped.mpr ⟨r, hr, hidle⟩
      simp [hmem, hidle, Option.filter_some]
    | false =>
      have hnot : k ∉ dropped env limit records := by
        intro hmem
        obtain ⟨r', hr', hidle'⟩ := mem_dropped.mp hmem
        obtain rfl : r = r' := Option.some.inj (hr.symm.trans hr')
        rw [hidle] at hidle'
        cases hidle'
      simp [hnot, hidle, Option.filter_some]

/-- A live session was there. -/
theorem get?_of_live (h : (live env limit records).get? k = some r) : records.get? k = some r := by
  rw [get?_live, Option.filter_eq_some_iff] at h
  exact h.1

/-- Every session is either dropped or left. -/
theorem length_live (env : Env) (limit : PyFloat) (records : Dict Key Obj) :
    (live env limit records).entries.length + (dropped env limit records).length = records.entries.length := by
  have hleft : (live env limit records).entries = records.entries.filter fun e => !isIdle env limit e.2 := by
    show (records.entries.filter fun e => !(dropped env limit records).contains e.1) = _
    refine List.filter_congr fun e he => ?_
    have hr := Dict.mem_entries_iff.mp he
    cases hidle : isIdle env limit e.2 with
    | true =>
      have hmem : e.1 ∈ dropped env limit records := mem_dropped.mpr ⟨e.2, hr, hidle⟩
      simp [hmem]
    | false =>
      have hnot : e.1 ∉ dropped env limit records := by
        intro hmem
        obtain ⟨r, hr', hidle'⟩ := mem_dropped.mp hmem
        obtain rfl : e.2 = r := Option.some.inj (hr.symm.trans hr')
        rw [hidle] at hidle'
        cases hidle'
      simp [hnot]
  rw [hleft, dropped, List.length_map, Nat.add_comm, ← List.length_eq_length_filter_add]

/-- Among sessions with a time, the idle ones are those seen before the limit. -/
theorem idle_eq {l : List (Key × Obj)} (cut : PyFloat)
    (hseen : ∀ e ∈ l, ∃ q, e.2.lookup "_last_ts" = some (.float (.finite q))) :
    idle cut l = .ok ((l.filter fun e =>
      (Obj.getD e.2 "_last_ts" (.int 0)).lt? (.float cut) == some true).map Prod.fst) := by
  induction l with
  | nil => rfl
  | cons e l ih =>
    obtain ⟨k, r⟩ := e
    obtain ⟨q, hq⟩ := hseen (k, r) List.mem_cons_self
    have hrest := ih fun e he => hseen e (List.mem_cons_of_mem _ he)
    have hlt : (Obj.getD r "_last_ts" (.int 0)).lt? (.float cut) = some ((PyFloat.finite q).lt cut) := by
      rw [Obj.getD, hq]
      rfl
    rw [idle, hlt, hrest]
    cases hold : (PyFloat.finite q).lt cut <;> simp [Except.map, hlt, hold]

/-- The locked part of a reap drops the idle sessions. -/
theorem exec_reap (hseen : ∀ k r, m.records.get? k = some r → ∃ q, r.lookup "_last_ts" = some (.float (.finite q))) :
    (reap env limit).exec m = (.ok ((dropped env limit m.records).map .unlink),
      forget (dropped env limit m.records) m) := by
  unfold reap
  by_cases hoff : (limit == .finite 0 || limit.lt (.finite 0)) = true
  · have hnone : dropped env limit m.records = [] := by
      simp [dropped, isIdle, hoff]
    have hall : m.records.filterKeys (fun _ => true) = m.records := by
      cases m.records
      simp [Dict.filterKeys]
    rw [if_pos hoff, hnone]
    show (_, m) = (_, (⟨m.records.filterKeys fun _ => true, m.gone⟩ : Memory))
    rw [hall]
    rfl
  · have hrest : idle (cutoff env limit) m.records.entries = .ok (dropped env limit m.records) := by
      rw [idle_eq _ fun e he => hseen e.1 e.2 (Dict.mem_entries_iff.mp he)]
      have hon : (limit == .finite 0 || limit.lt (.finite 0)) = false := by simpa using hoff
      simp only [dropped, isIdle, hon, Bool.not_false, Bool.true_and]
    rw [if_neg hoff, Prog.exec_bind_ok (Prog.exec_get m), hrest]
    rfl

end Reaping

section Files

variable {fmt : FloatFormat} {daemon env : Env} {s : SessionHome} {sid : String} {r : Obj}

/-- Two sessions have two files. -/
theorem sessionFile_ne {sid' : String} (h : sid' ≠ sid) :
    sessionsDir ++ [fileName sid'] ≠ sessionsDir ++ [fileName sid] :=
  fun heq => h (fileName_injective (List.singleton_inj.mp (List.append_cancel_left heq)))

/-- Writing the file of a session. -/
theorem carryOut_save (hr : s.records.get? (.str sid) = some r) (hsession : IsSession fmt sid r)
    (hdisk : WorkingDisk env) : (carryOut env [.save (.str sid)]).exec s =
      (.ok (), { s with files := Function.update s.files (sessionsDir ++ [fileName sid]) (some r) }) := by
  have hwritten := hsession.storable.written hdisk
  have hplace : locate sessionsDir (fileName sid) = sessionsDir ++ [fileName sid] :=
    locate_plain sessionsDir (plain_id hsession.storable.plain.slash)
  have hrun : (FileAction.save (.str sid)).run env "session_id" sessionsDir s.memory s.files =
      .ok (Function.update s.files (sessionsDir ++ [fileName sid]) (some r)) := by
    have hfound : (s.memory.records.get? (.str sid)).or (s.memory.gone.get? (.str sid)) = some r := by
      rw [show s.memory.records.get? (.str sid) = some r from hr, Option.some_or]
    rw [FileAction.run, hfound, Option.elim_some, writeFile, hwritten.named, hwritten.id, hwritten.dirs]
    dsimp only
    rw [hwritten.writable, hplace]
    rfl
  rw [carryOut, Prog.exec_bind_ok (Prog.exec_get s), hrun, Prog.exec_bind_ok (Prog.exec_ofExcept _ _),
    Prog.exec_bind_ok (Prog.exec_set _ _)]
  rfl

/-- Removing the files of some sessions. -/
theorem carryOut_unlink {keys : List Key} (hkeys : ∀ k ∈ keys, ∃ sid, k = .str sid ∧ PlainId sid)
    (hdisk : WorkingDisk env) (s : SessionHome) :
    ∃ files, (carryOut env (keys.map .unlink)).exec s = (.ok (), { s with files := files }) ∧
      (∀ sid, files (sessionsDir ++ [fileName sid]) =
        if Key.str sid ∈ keys then none else s.files (sessionsDir ++ [fileName sid])) ∧
      ∀ place, files place ≠ none → files place = s.files place := by
  induction keys generalizing s with
  | nil => exact ⟨s.files, rfl, by simp, fun _ _ => rfl⟩
  | cons k keys ih =>
    obtain ⟨sid, rfl, hplain⟩ := hkeys k List.mem_cons_self
    set gone : SessionHome := { s with files := Function.update s.files (sessionsDir ++ [fileName sid]) none }
      with hgone
    obtain ⟨files, hexec, hfiles, hnamed⟩ := ih (fun k hk => hkeys k (List.mem_cons_of_mem _ hk)) gone
    have hplace : locate sessionsDir (fileName sid) = sessionsDir ++ [fileName sid] :=
      locate_plain sessionsDir (plain_id hplain.slash)
    have hrun : (FileAction.unlink (.str sid)).run env "session_id" sessionsDir s.memory s.files = .ok gone.files := by
      rw [FileAction.run, unlinkFile, hdisk.nameable hplain, hdisk.files sid hplain, hplace]
      rfl
    refine ⟨files, ?_, fun sid' => ?_, fun place hthere => ?_⟩
    · rw [List.map_cons, carryOut, Prog.exec_bind_ok (Prog.exec_get s), hrun,
        Prog.exec_bind_ok (Prog.exec_ofExcept _ _), Prog.exec_bind_ok (Prog.exec_set _ _)]
      exact hexec
    · rw [hfiles]
      by_cases hsid : sid' = sid
      · subst hsid
        simp [hgone]
      · have hother : gone.files (sessionsDir ++ [fileName sid']) = s.files (sessionsDir ++ [fileName sid']) :=
          Function.update_of_ne (sessionFile_ne hsid) none s.files
        rw [hother]
        simp [hsid]
    · have hkept := hnamed place hthere
      rw [hkept] at hthere ⊢
      by_cases hat : place = sessionsDir ++ [fileName sid]
      · rw [hat] at hthere
        exact absurd (Function.update_self _ _ _) hthere
      · exact Function.update_of_ne hat none s.files

/-- The sessions after a reap, with their files. -/
theorem perform_reap (h : Coherent fmt daemon s) (hdisk : WorkingDisk env) (limit : PyFloat) :
    ∃ s', (perform env (reap env limit)).exec s = (.ok ((dropped env limit s.records).map .unlink), s') ∧
      s'.records = live env limit s.records ∧ Coherent fmt daemon s' := by
  have hseen : ∀ k r, s.memory.records.get? k = some r →
      ∃ q, r.lookup "_last_ts" = some (.float (.finite q)) := by
    intro k r hr
    obtain ⟨sid, _, hsession⟩ := h.sessions k r hr
    exact hsession.lastSeen
  have hkeys : ∀ k ∈ dropped env limit s.records, ∃ sid, k = .str sid ∧ PlainId sid := by
    intro k hk
    obtain ⟨r, hr, _⟩ := mem_dropped.mp hk
    obtain ⟨sid, hsid, hsession⟩ := h.sessions k r hr
    exact ⟨sid, hsid, hsession.storable.plain⟩
  set left : SessionHome := { s with records := live env limit s.records } with hleft
  obtain ⟨files, hcarry, hfiles, hnamed⟩ := carryOut_unlink hkeys hdisk left
  have hlocked : ((reap env limit).zoom SessionHome.memory fun m s => { s with records := m.records }).exec s =
      (.ok ((dropped env limit s.records).map .unlink), left) := by
    rw [Prog.exec_zoom, exec_reap hseen]
    rfl
  refine ⟨{ left with files := files }, ?_, rfl, ?_⟩
  · rw [perform, Prog.exec_bind_ok hlocked, Prog.exec_bind_ok hcarry]
    rfl
  · refine ⟨fun k r hr => h.sessions k r (get?_of_live hr), fun sid => ?_, fun name r hr => ?_, ?_⟩
    · show files (sessionsDir ++ [fileName sid]) = (live env limit s.records).get? (.str sid)
      rw [hfiles, live, Dict.get?_filterKeys, hleft, h.file]
      by_cases hmem : Key.str sid ∈ dropped env limit s.records <;> simp [hmem]
    · have hthere : files (sessionsDir ++ [name]) = some r := hr
      have hkept := hnamed (sessionsDir ++ [name]) (by simp [hthere])
      exact h.named name r (hkept.symm.trans hthere)
    · exact fun k k' r r' hr hr' => h.unique k k' r r' (get?_of_live hr) (get?_of_live hr')

/-- A session that is stored and written. -/
theorem Coherent.put (h : Coherent fmt daemon s) (hsession : IsSession fmt sid r)
    (hunique : ∀ k r', k ≠ .str sid → s.records.get? k = some r' →
      ¬ SameProcess daemon (Obj.get r' "client") (Obj.get r "client")) :
    Coherent fmt daemon
      ⟨s.records.insert (.str sid) r, Function.update s.files (sessionsDir ++ [fileName sid]) (some r)⟩ := by
  have hstored : ∀ k r', (s.records.insert (.str sid) r).get? k = some r' →
      k = .str sid ∧ r' = r ∨ k ≠ .str sid ∧ s.records.get? k = some r' := by
    intro k r' hr'
    rw [Dict.get?_insert] at hr'
    split at hr'
    · rename_i hk
      exact .inl ⟨hk, (Option.some.inj hr').symm⟩
    · rename_i hk
      exact .inr ⟨hk, hr'⟩
  refine ⟨fun k r' hr' => ?_, fun sid' => ?_, fun name r' hr' => ?_, fun k k' r₁ r₂ hr₁ hr₂ hsame => ?_⟩
  · rcases hstored k r' hr' with ⟨rfl, rfl⟩ | ⟨_, hold⟩
    · exact ⟨sid, rfl, hsession⟩
    · exact h.sessions k r' hold
  · by_cases hsid : sid' = sid
    · rw [hsid]
      simp
    · have hkey : Key.str sid' ≠ Key.str sid := fun h => hsid (Key.str.inj h)
      rw [Dict.get?_insert_ne _ hkey]
      exact (Function.update_of_ne (sessionFile_ne hsid) _ _).trans (h.file sid')
  · by_cases hat : name = fileName sid
    · exact ⟨sid, hat⟩
    · have hplace : sessionsDir ++ [name] ≠ sessionsDir ++ [fileName sid] :=
        fun heq => hat (List.singleton_inj.mp (List.append_cancel_left heq))
      exact h.named name r' ((Function.update_of_ne hplace _ _).symm.trans hr')
  · rcases hstored k r₁ hr₁ with ⟨rfl, rfl⟩ | ⟨hk, hold⟩
    · rcases hstored k' r₂ hr₂ with ⟨rfl, rfl⟩ | ⟨hk', hold'⟩
      · rfl
      · obtain ⟨fp, hfp, hfp'⟩ := hsame
        exact absurd ⟨fp, hfp', hfp⟩ (hunique k' r₂ hk' hold')
    · rcases hstored k' r₂ hr₂ with ⟨rfl, rfl⟩ | ⟨hk', hold'⟩
      · exact absurd hsame (hunique k r₁ hk hold)
      · exact h.unique k k' r₁ r₂ hold hold' hsame

end Files

section Registering

variable {fmt : FloatFormat} {daemon env : Env} {s : SessionHome} {sid : String} {r : Obj} {client v : Json}

/-- A member that is set to a value of its own kind. -/
theorem IsSession.set (h : IsSession fmt sid r) (k : String) (hv : WellFormed fmt v) (hid : k ≠ "session_id")
    (hcreated : k ≠ "created_at") (hcount : k = "reconnects" → ∃ n, v = .int n)
    (hseen : k = "_last_ts" → ∃ q, v = .float (.finite q)) : IsSession fmt sid (Obj.set r k v) where
  storable := ⟨h.storable.plain, h.storable.nonempty, by rw [Obj.lookup_set_ne _ hid.symm, h.storable.id],
    h.storable.value.set k hv⟩
  created := by
    rw [Obj.lookup_set_ne _ hcreated.symm]
    exact h.created
  reconnects := by
    by_cases hk : k = "reconnects"
    · obtain ⟨n, rfl⟩ := hcount hk
      exact ⟨n, by rw [hk, Obj.lookup_set_self]⟩
    · rw [Obj.lookup_set_ne _ (Ne.symm hk)]
      exact h.reconnects
  lastSeen := by
    by_cases hk : k = "_last_ts"
    · obtain ⟨q, rfl⟩ := hseen hk
      exact ⟨q, by rw [hk, Obj.lookup_set_self]⟩
    · rw [Obj.lookup_set_ne _ (Ne.symm hk)]
      exact h.lastSeen

/-- A session that was seen. -/
theorem IsSession.seenNow (h : IsSession fmt sid r) (hclock : Clock fmt env) : IsSession fmt sid (seen env r) :=
  (h.set "last_seen" (wellFormed_stamp env) (by decide) (by decide) (by simp) (by simp)).set "_last_ts" hclock
    (by decide) (by decide) (by simp) fun _ => ⟨_, rfl⟩

/-- A new session is one. -/
theorem isSession_new (hclock : Clock fmt env) (hclient : WellFormed fmt client) (hid : PlainId sid) (hne : sid ≠ "") :
    IsSession fmt sid (newSession env client sid) where
  storable := by
    refine ⟨hid, hne, rfl, wellFormed_obj_iff.mpr ⟨?_, ?_⟩⟩
    · show ["session_id", "client", "created_at", "last_seen", "reconnects", "_created_ts", "_last_ts"].Nodup
      decide
    · simp only [newSession, List.forall_mem_cons, List.not_mem_nil, false_imp_iff, implies_true, and_true]
      exact ⟨wellFormed_str _, hclient, wellFormed_stamp env, wellFormed_stamp env, trivial, hclock, hclock⟩
  created := ⟨_, rfl⟩
  reconnects := ⟨0, rfl⟩
  lastSeen := ⟨_, rfl⟩

/-- What a client payload stands for. -/
theorem wellFormed_pyOr (h : WellFormed fmt client) : WellFormed fmt (pyOr client (.obj [])) := by
  unfold pyOr
  split
  · exact h
  · exact wellFormed_empty

/-- Storing a session under the lock, then writing its file. -/
theorem perform_put (locked : Prog PyExc Memory (List FileAction)) (h : Coherent fmt daemon s)
    (hsession : IsSession fmt sid r) (hdisk : WorkingDisk env)
    (hunique : ∀ k r', k ≠ .str sid → s.records.get? k = some r' →
      ¬ SameProcess daemon (Obj.get r' "client") (Obj.get r "client"))
    (hlocked : locked.exec s.memory = (.ok [.save (.str sid)], ⟨s.records.insert (.str sid) r, .empty⟩)) :
    ∃ s', (perform env locked).exec s = (.ok [.save (.str sid)], s') ∧ s'.records = s.records.insert (.str sid) r ∧
      Coherent fmt daemon s' := by
  have hzoom : (locked.zoom SessionHome.memory fun m s => { s with records := m.records }).exec s =
      (.ok [.save (.str sid)], ⟨s.records.insert (.str sid) r, s.files⟩) := by
    rw [Prog.exec_zoom, hlocked]
  have hcarry := carryOut_save (s := ⟨s.records.insert (.str sid) r, s.files⟩) (Dict.get?_insert_self _ _ r) hsession
    hdisk
  refine ⟨_, ?_, rfl, h.put hsession hunique⟩
  rw [perform, Prog.exec_bind_ok hzoom, Prog.exec_bind_ok hcarry]
  rfl

/-- What registering a client does to the sessions. -/
theorem perform_register (h : Coherent fmt daemon s) (host : SteadyHost fmt daemon env)
    (hclient : WellFormed fmt client)
    (hid : PlainId ("s_" ++ env.uuid)) :
    ∃ sid r s', (perform env (register env client)).exec s = (.ok [.save (.str sid)], s') ∧
      s'.records = s.records.insert (.str sid) r ∧ IsSession fmt sid r ∧ Coherent fmt daemon s' ∧
      Obj.get r "client" = pyOr client (.obj []) ∧
      match sameProcess daemon (pyOr client (.obj [])) s.records with
      | some (k, found) => k = .str sid ∧ s.records.get? k = some found ∧
          ∃ n, Obj.get found "reconnects" = .int n ∧ Obj.get r "reconnects" = .int (n + 1)
      | none => sid = "s_" ++ env.uuid ∧ Obj.get r "reconnects" = .int 0 := by
  have hvalue := wellFormed_pyOr hclient
  have hlookup := sameProcess_congr host.str (pyOr client (.obj [])) s.records
  cases hsame : sameProcess daemon (pyOr client (.obj [])) s.records with
  | none =>
    rw [hsame] at hlookup
    have hsession := isSession_new host.clock hvalue hid (by simp)
    obtain ⟨s', hexec, hrecords, hs'⟩ := perform_put (register env client) h hsession host.disk
      (fun k r' _ hr' => sameProcess_none hsame hr') (by
        unfold register
        dsimp only
        rw [Prog.exec_bind_ok (Prog.exec_get _)]
        simp only [SessionHome.memory, hlookup]
        rfl)
    exact ⟨_, _, s', hexec, hrecords, hsession, hs', rfl, rfl, rfl⟩
  | some e =>
    obtain ⟨k, found⟩ := e
    rw [hsame] at hlookup
    obtain ⟨hfound, hprocess⟩ := sameProcess_some hsame
    obtain ⟨sid, rfl, hold⟩ := h.sessions k found hfound
    obtain ⟨n, hn⟩ := hold.reconnects
    set existing := seen env (Obj.set found "client" (pyOr client (.obj []))) with hexisting
    have hcount : existing.lookup "reconnects" = some (.int n) := by
      rw [hexisting, seen, Obj.lookup_set_ne _ (by decide), Obj.lookup_set_ne _ (by decide),
        Obj.lookup_set_ne _ (by decide), hn]
    have hsession : IsSession fmt sid (Obj.set existing "reconnects" (.int (n + 1))) :=
      ((hold.set "client" hvalue (by decide) (by decide) (by simp) (by simp)).seenNow host.clock).set "reconnects"
        trivial (by decide) (by decide) (fun _ => ⟨_, rfl⟩) (by simp)
    have hkept : Obj.get (Obj.set existing "reconnects" (.int (n + 1))) "client" = pyOr client (.obj []) := by
      rw [Obj.get, Obj.getD, Obj.lookup_set_ne _ (by decide), hexisting, seen, Obj.lookup_set_ne _ (by decide),
        Obj.lookup_set_ne _ (by decide), Obj.lookup_set_self]
      rfl
    obtain ⟨s', hexec, hrecords, hs'⟩ := perform_put (register env client) h hsession host.disk
      (fun k' r' hk' hr' hsame' => by
        rw [hkept] at hsame'
        obtain ⟨fp, hfp, hfp'⟩ := hsame'
        obtain ⟨fp₀, hfp₀, hfp₀'⟩ := hprocess
        obtain rfl : fp = fp₀ := Option.some.inj (hfp'.symm.trans hfp₀')
        exact hk' (h.unique k' (.str sid) r' found hr' hfound ⟨fp, hfp, hfp₀⟩)) (by
        unfold register
        dsimp only
        rw [Prog.exec_bind_ok (Prog.exec_get _)]
        simp only [SessionHome.memory, hlookup]
        rw [Prog.exec_bind_ok (Prog.exec_set _ _), ← hexisting, Obj.getD, hcount]
        rfl)
    refine ⟨sid, _, s', hexec, hrecords, hsession, hs', hkept, rfl, hfound, n, ?_, ?_⟩
    · rw [Obj.get, Obj.getD, hn]
      rfl
    · rw [Obj.get, Obj.getD, Obj.lookup_set_self]
      rfl

/-- A heartbeat keeps the sessions. -/
theorem perform_touch (h : Coherent fmt daemon s) (host : SteadyHost fmt daemon env) (v : Json) :
    Coherent fmt daemon ((perform env (touchLocked env v)).exec s).2 ∧
      ((perform env (touchLocked env v)).exec s).2.records.entries.length = s.records.entries.length := by
  have hlocked := fun out m (hout : (touchLocked env v).exec s.memory = (out, m)) =>
    (show ((touchLocked env v).zoom SessionHome.memory fun m s => { s with records := m.records }).exec s =
      (out, { s with records := m.records }) by rw [Prog.exec_zoom, hout])
  cases hkey : hashKey v with
  | error e =>
    have hraises : (touchLocked env v).exec s.memory = (.error e, s.memory) := by
      rw [touchLocked, hkey, Prog.exec_bind_error (Prog.exec_ofExcept _ _)]
    rw [perform, Prog.exec_bind_error (hlocked _ _ hraises)]
    exact ⟨h, rfl⟩
  | ok key =>
    cases hr : s.records.get? key with
    | none =>
      have hmisses : (touchLocked env v).exec s.memory = (.ok [], s.memory) := by
        rw [touchLocked, hkey, Prog.exec_bind_ok (Prog.exec_ofExcept _ _), Prog.exec_bind_ok (Prog.exec_get _)]
        simp only [SessionHome.memory, hr]
        rfl
      rw [perform, Prog.exec_bind_ok (hlocked _ _ hmisses)]
      exact ⟨h, rfl⟩
    | some r =>
      obtain ⟨sid, rfl, hsession⟩ := h.sessions key r hr
      have hclient : Obj.get (seen env r) "client" = Obj.get r "client" := by
        rw [Obj.get, Obj.get, Obj.getD, Obj.getD, seen, Obj.lookup_set_ne _ (by decide),
          Obj.lookup_set_ne _ (by decide)]
      obtain ⟨s', hexec, hrecords, hs'⟩ := perform_put (touchLocked env v) h
        (hsession.seenNow host.clock) host.disk (fun k r' hk hr' hsame => by
          rw [hclient] at hsame
          exact hk (h.unique k (.str sid) r' r hr' hr hsame)) (by
          rw [touchLocked, hkey, Prog.exec_bind_ok (Prog.exec_ofExcept _ _), Prog.exec_bind_ok (Prog.exec_get _)]
          simp only [SessionHome.memory, hr]
          rfl)
      rw [hexec]
      exact ⟨hs', by rw [hrecords, Dict.length_insert_of_get? hr]⟩

end Registering

section Requests

variable {fmt : FloatFormat} {daemon env : Env} {s : SessionHome} {limit ttl : PyFloat} {params : Obj}

/-- The client of a register request: `params.get("client", {}) or {}`. -/
def clientOf (params : Obj) : Json := pyOr (Obj.getD params "client" (.obj [])) (.obj [])

/-- What a register request answers and does: if a session that is left after the idle ones were dropped is of
the client's process, it is answered and counts one reconnect more; else a new session is made. -/
def RegistersOnce (daemon env : Env) (ttl : PyFloat) (params : Obj) (s : SessionHome) : Prop :=
  let left := live env ttl s.records
  let out := (mSessionRegister env ttl params).exec s
  ∃ sid r, out.2.records.get? (.str sid) = some r ∧ Obj.get r "client" = clientOf params ∧
    (∀ k, k ≠ .str sid → out.2.records.get? k = left.get? k) ∧
    out.1 = .ok (.obj [("session_id", .str sid), ("registered_at", Obj.get r "created_at"),
      ("reconnects", Obj.get r "reconnects")]) ∧
    ((∃ found n, left.get? (.str sid) = some found ∧ SameProcess daemon (Obj.get found "client") (clientOf params) ∧
        Obj.get found "reconnects" = .int n ∧ Obj.get r "reconnects" = .int (n + 1)) ∨
      (∀ k found, left.get? k = some found → ¬ SameProcess daemon (Obj.get found "client") (clientOf params)) ∧
        s.records.get? (.str sid) = none ∧ Obj.get r "reconnects" = .int 0)

/-- Whether a request makes a session. -/
def creates (daemon : Env) (e : Entry SessionHome SessionInput (Except PyExc Json)) : ℕ :=
  match e.input with
  | .register env ttl params =>
    if (sameProcess daemon (clientOf params) (live env ttl e.before.records)).isSome then 0 else 1
  | _ => 0

/-- How many sessions a request reaps. -/
def reaps (e : Entry SessionHome SessionInput (Except PyExc Json)) : ℕ :=
  match e.input with
  | .register env ttl _ => (dropped env ttl e.before.records).length
  | .reap env ttl params =>
    match reapLimit env ttl params with
    | .ok limit => (dropped env limit e.before.records).length
    | .error _ => 0
  | _ => 0

/-- A member that is there is read. -/
theorem getItem_eq {r : Obj} {k : String} (h : ∃ v, r.lookup k = some v) : getItem r k = .ok (Obj.get r k) := by
  obtain ⟨v, hv⟩ := h
  rw [getItem, hv, Obj.get, Obj.getD, hv]
  rfl

/-- A register request, step by step. -/
theorem exec_mSessionRegister (h : Coherent fmt daemon s)
    (hok : (SessionInput.register env ttl params).Ordinary fmt daemon s) :
    ∃ s', ((mSessionRegister env ttl params).exec s).2 = s' ∧ Coherent fmt daemon s' ∧
      RegistersOnce daemon env ttl params s ∧
      s'.records.entries.length + (dropped env ttl s.records).length = s.records.entries.length +
        if (sameProcess daemon (clientOf params) (live env ttl s.records)).isSome then 0 else 1 := by
  obtain ⟨host, hparams, hid, hnew⟩ := hok
  obtain ⟨s₁, hreap, hleft, h₁⟩ := perform_reap h host.disk ttl
  have hclient : WellFormed fmt (Obj.getD params "client" (.obj [])) := by
    unfold Obj.getD
    cases hv : params.lookup "client" with
    | none => exact wellFormed_empty
    | some v => exact hparams.lookup hv
  have hfree : s₁.records.get? (.str ("s_" ++ env.uuid)) = none := by
    rw [hleft, get?_live, hnew]
    rfl
  obtain ⟨sid, r, s₂, hregister, hrecords, hsession, h₂, hkept, hfound⟩ := perform_register h₁ host hclient hid
  have hstored : s₂.records.get? (.str sid) = some r := by rw [hrecords, Dict.get?_insert_self]
  have hreturned : returned s₂ [.save (.str sid)] = r := by
    simp [returned, FileAction.content, SessionHome.memory, hstored]
  have hexec : (mSessionRegister env ttl params).exec s = (.ok (.obj [("session_id", .str sid),
      ("registered_at", Obj.get r "created_at"), ("reconnects", Obj.get r "reconnects")]), s₂) := by
    have hsid : Obj.get r "session_id" = .str sid := by rw [Obj.get, Obj.getD, hsession.storable.id]; rfl
    obtain ⟨n, hn⟩ := hsession.reconnects
    have hcount : Obj.getD r "reconnects" (.int 0) = Obj.get r "reconnects" := by
      rw [Obj.get, Obj.getD, Obj.getD, hn]
      rfl
    rw [mSessionRegister, Prog.exec_bind_ok hreap, Prog.exec_bind_ok hregister, Prog.exec_bind_ok (Prog.exec_get _),
      hreturned]
    dsimp only
    rw [getItem_eq ⟨_, hsession.storable.id⟩, getItem_eq hsession.created, hcount, hsid]
    rfl
  have hothers : ∀ k, k ≠ .str sid → s₂.records.get? k = (live env ttl s.records).get? k := by
    intro k hk
    rw [hrecords, Dict.get?_insert_ne _ hk, hleft]
  have hlength := length_live env ttl s.records
  rw [hleft] at hfound
  refine ⟨s₂, by rw [hexec], h₂, ⟨sid, r, ?_, hkept, ?_, by rw [hexec], ?_⟩, ?_⟩
  · rw [hexec]
    exact hstored
  · rw [hexec]
    exact hothers
  · cases hsame : sameProcess daemon (clientOf params) (live env ttl s.records) with
    | some e =>
      obtain ⟨k, found⟩ := e
      rw [clientOf] at hsame
      rw [hsame] at hfound
      obtain ⟨rfl, hget, n, hn, hn'⟩ := hfound
      exact .inl ⟨found, n, hget, (sameProcess_some hsame).2, hn, hn'⟩
    | none =>
      have hnone := hsame
      rw [clientOf] at hsame
      rw [hsame] at hfound
      obtain ⟨rfl, hn⟩ := hfound
      exact .inr ⟨fun k found hget => sameProcess_none hnone hget, hnew, hn⟩
  · cases hsame : sameProcess daemon (clientOf params) (live env ttl s.records) with
    | some e =>
      obtain ⟨k, found⟩ := e
      rw [clientOf] at hsame
      rw [hsame] at hfound
      obtain ⟨rfl, hget, _⟩ := hfound
      rw [hrecords, hleft, Dict.length_insert_of_get? hget]
      exact hlength
    | none =>
      rw [clientOf] at hsame
      rw [hsame] at hfound
      obtain ⟨rfl, _⟩ := hfound
      rw [hrecords, Dict.length_insert_of_none r hfree, hleft]
      simp only [Option.isSome_none, Bool.false_eq_true, if_false]
      omega

/-- The registry that a new process loads. -/
theorem coherent_restart (h : Coherent fmt daemon s) {names : List (List Char)}
    (hnames : Globs (s.texts fmt) sessionsDir names) :
    ∃ records, loadStore fmt "session_id" (s.texts fmt) sessionsDir names = .ok records ∧
      Coherent fmt daemon { s with records := records } ∧ records.entries.length = s.records.entries.length := by
  have hstorables : Storables fmt "session_id" s.records := by
    intro k r hr
    obtain ⟨sid, hsid, hsession⟩ := h.sessions k r hr
    exact ⟨sid, hsid, hsession.storable⟩
  have hfiled : Filed fmt sessionsDir (s.texts fmt) s.records := by
    refine ⟨fun sid => ?_, fun name text htext => ?_⟩
    · exact congrArg (Option.map _) (h.file sid)
    · obtain ⟨r, hr, _⟩ := Option.map_eq_some_iff.mp htext
      exact h.named name r hr
  obtain ⟨records, hload, hsame⟩ := loadStore_filed hstorables hfiled hnames
  refine ⟨records, hload, ⟨?_, fun sid => ?_, h.named, ?_⟩, Dict.length_eq_of_get? hsame⟩
  · intro k r hr
    exact h.sessions k r (hsame k ▸ hr)
  · rw [hsame]
    exact h.file sid
  · intro k k' r r' hr hr'
    exact h.unique k k' r r' (hsame k ▸ hr) (hsame k' ▸ hr')

/-- One input keeps the sessions coherent, and what it makes and drops is all that changes their number. -/
theorem step_coherent (h : Coherent fmt daemon s) {i : SessionInput} (hok : i.Ordinary fmt daemon s) :
    Coherent fmt daemon ((sessionMachine fmt).step i s).2 ∧
      ((sessionMachine fmt).step i s).2.records.entries.length + reaps ((sessionMachine fmt).fire s i) =
        s.records.entries.length + creates daemon ((sessionMachine fmt).fire s i) := by
  cases i with
  | register env ttl params =>
    obtain ⟨s', hexec, hs', _, hlength⟩ := exec_mSessionRegister h hok
    change Coherent fmt daemon ((mSessionRegister env ttl params).exec s).2 ∧
      ((mSessionRegister env ttl params).exec s).2.records.entries.length + _ = _
    rw [hexec]
    exact ⟨hs', hlength⟩
  | ping env params =>
    change Coherent fmt daemon ((mSessionPing env params).exec s).2 ∧
      ((mSessionPing env params).exec s).2.records.entries.length = s.records.entries.length
    unfold mSessionPing
    dsimp only
    split
    · obtain ⟨hcoherent, hlength⟩ := perform_touch h hok (Obj.get params "session_id")
      cases htouch : (perform env (touchLocked env (Obj.get params "session_id"))).exec s with
      | mk out s' =>
        rw [htouch] at hcoherent hlength
        cases out with
        | error e =>
          rw [Prog.exec_bind_error htouch]
          exact ⟨hcoherent, hlength⟩
        | ok actions =>
          rw [Prog.exec_bind_ok htouch]
          exact ⟨hcoherent, hlength⟩
    · exact ⟨h, rfl⟩
  | reap env ttl params =>
    change Coherent fmt daemon ((mSessionReap env ttl params).exec s).2 ∧
      ((mSessionReap env ttl params).exec s).2.records.entries.length + _ = s.records.entries.length
    unfold reaps mSessionReap
    dsimp only [Machine.fire]
    cases hlimit : reapLimit env ttl params with
    | error e =>
      rw [Prog.exec_bind_error (Prog.exec_ofExcept _ _)]
      exact ⟨h, rfl⟩
    | ok limit =>
      obtain ⟨s', hexec, hleft, hs'⟩ := perform_reap h hok.disk limit
      rw [Prog.exec_bind_ok (Prog.exec_ofExcept _ _), Prog.exec_bind_ok hexec]
      refine ⟨hs', ?_⟩
      show s'.records.entries.length + (dropped env limit s.records).length = s.records.entries.length
      rw [hleft]
      exact length_live env limit s.records
  | restart names =>
    obtain ⟨records, hload, hs', hlength⟩ := coherent_restart h hok
    have hstep : (sessionMachine fmt).step (.restart names) s = (.ok .null, { s with records := records }) := by
      show SessionHome.step fmt (.restart names) s = _
      rw [SessionHome.step, hload]
    rw [hstep]
    exact ⟨hs', hlength⟩

/-- An empty registry is coherent. -/
theorem coherent_init (fmt : FloatFormat) (daemon : Env) : Coherent fmt daemon ⟨.empty, fun _ => none⟩ where
  sessions k r hr := by cases hr
  file sid := rfl
  named name r hr := by cases hr
  unique k k' r r' hr := by cases hr

end Requests

/-- In every state that session requests and restarts lead to, no two live sessions are of one Virtuoso
process; a register request is answered with the session of its process that is left after the reap, one
reconnect more, or else with a new one; and the live sessions are those that were made but for those that were
reaped. -/
theorem one_session_per_process {fmt : FloatFormat} {daemon : Env}
    {h : List (Entry SessionHome SessionInput (Except PyExc Json))} {s : SessionHome}
    (hrun : Run (sessionMachine fmt) (SessionInput.Ordinary fmt daemon) h s) :
    OnePerProcess daemon s.records ∧
    (∀ env ttl params, (SessionInput.register env ttl params).Ordinary fmt daemon s →
      RegistersOnce daemon env ttl params s) ∧
    s.records.entries.length + (h.map reaps).sum = (h.map (creates daemon)).sum := by
  have hkept : Coherent fmt daemon s ∧
      s.records.entries.length + (h.map reaps).sum = (h.map (creates daemon)).sum := by
    induction hrun with
    | init hs =>
      obtain rfl : _ = _ := hs
      exact ⟨coherent_init fmt daemon, rfl⟩
    | @step h s i _ hok ih =>
      obtain ⟨hcoherent, hlength⟩ := ih
      obtain ⟨hnext, hcount⟩ := step_coherent hcoherent hok
      refine ⟨hnext, ?_⟩
      simp only [List.map_append, List.map_cons, List.map_nil, List.sum_append, List.sum_cons, List.sum_nil]
      omega
  obtain ⟨hcoherent, hcount⟩ := hkept
  refine ⟨hcoherent.unique, fun env ttl params hok => ?_, hcount⟩
  obtain ⟨_, _, _, honce, _⟩ := exec_mSessionRegister hcoherent hok
  exact honce

/-- A format that knows the times of the samples. -/
def sampleTimes : FloatFormat where
  parse text := .finite (if text = ['0', '.', '0'] then 0 else 1000)
  repr q := if q = 0 then ['0', '.', '0'] else ['1', '0', '0', '0', '.', '0']
  repr_text _ q _ := by
    split
    · exact ⟨[], ['0'], ['.', '0'], [], rfl, .inl rfl, .inl rfl,
        .inr ⟨['0'], rfl, by simp, Base.forall_mem_of_all (by decide)⟩, .inl rfl,
        by simp⟩
    · exact ⟨[], ['1', '0', '0', '0'], ['.', '0'], [], rfl, .inl rfl,
        .inr ⟨'1', ['0', '0', '0'], rfl, by decide, by decide, Base.forall_mem_of_all (by decide)⟩,
        .inr ⟨['0'], rfl, by simp, Base.forall_mem_of_all (by decide)⟩,
        .inl rfl, by simp⟩
  parse_repr text q h := by
    have hq : q = 0 ∨ q = 1000 := by
      have hvalue := PyFloat.finite.inj h
      split at hvalue
      · exact .inl hvalue.symm
      · exact .inr hvalue.symm
    rcases hq with rfl | rfl
    · simp
    · simp

/-- The host of the samples. -/
def sampleHost (uuid : String) (now : ℚ) : Env :=
  { Env.sample with
    uuid := uuid
    now := now
    str := fun
      | .int n => toString n
      | _ => "" }

/-- The payload of a Virtuoso process. -/
def sampleClient (pid : Json) : Json := .obj [("virtuoso_pid", pid), ("virtuoso_start", .str "111")]

/-- Such a process registers, under this idle limit. -/
def sampleRegisters (uuid : String) (now limit : ℚ) (pid : Json) : SessionInput :=
  .register (sampleHost uuid now) (.finite limit) [("client", sampleClient pid)]

/-- The sessions after it registered for the first time. -/
def sampleOnce (limit : ℚ) (pid : Json) : SessionHome :=
  ((sessionMachine sampleTimes).step (sampleRegisters "0123456789ab" 0 limit pid) ⟨.empty, fun _ => none⟩).2

/-- It registers again. -/
def sampleAgain (later limit : ℚ) (pid : Json) : Except PyExc Json × SessionHome :=
  (sessionMachine sampleTimes).step (sampleRegisters "ba9876543210" later limit pid) (sampleOnce limit pid)

/-- The session of an answer. -/
def sessionOf : Except PyExc Json → Option String
  | .ok (.obj answer) =>
    match Obj.get answer "session_id" with
    | .str sid => some sid
    | _ => none
  | _ => none

/-- The hosts of the samples are steady. -/
theorem steady_sampleHost {now : ℚ} (hnow : now = 0 ∨ now = 1000) (uuid : String) :
    SteadyHost sampleTimes (sampleHost "" 0) (sampleHost uuid now) where
  disk := ⟨rfl, fun _ _ => rfl, fun _ _ => rfl⟩
  clock := by
    rcases hnow with rfl | rfl
    · exact ⟨['0', '.', '0'], rfl⟩
    · exact ⟨[], rfl⟩
  str := rfl

/-- The samples are runs. -/
theorem run_sampleAgain {later limit : ℚ} (hlater : later = 0 ∨ later = 1000) {pid : Json}
    (hpid : WellFormed sampleTimes pid)
    (hfree : (sampleOnce limit pid).records.get? (.str "s_ba9876543210") = none) :
    ∃ h, Run (sessionMachine sampleTimes) (SessionInput.Ordinary sampleTimes (sampleHost "" 0)) h
      (sampleAgain later limit pid).2 := by
  have hclient : WellFormed sampleTimes (.obj [("client", sampleClient pid)]) := by
    refine wellFormed_obj_iff.mpr ⟨by simp, ?_⟩
    simp only [List.forall_mem_cons, List.not_mem_nil, false_imp_iff, implies_true, and_true]
    refine wellFormed_obj_iff.mpr ⟨by simp, ?_⟩
    simp only [List.forall_mem_cons, List.not_mem_nil, false_imp_iff, implies_true, and_true]
    exact ⟨hpid, wellFormed_str _⟩
  have hstart : Run (sessionMachine sampleTimes) (SessionInput.Ordinary sampleTimes (sampleHost "" 0)) []
      ⟨.empty, fun _ => none⟩ := .init rfl
  have honce : Run (sessionMachine sampleTimes) (SessionInput.Ordinary sampleTimes (sampleHost "" 0)) _
      (sampleOnce limit pid) :=
    hstart.step ⟨steady_sampleHost (.inl rfl) _, hclient, by decide, rfl⟩
  have hid : PlainId ("s_" ++ "ba9876543210") := by decide
  exact ⟨_, honce.step ⟨steady_sampleHost hlater _, hclient, hid, hfree⟩⟩

/-- A process that registers again keeps its session. -/
theorem one_session_per_process_sample :
    OnePerProcess (sampleHost "" 0) (sampleAgain 0 600 (.str "3500")).2.records ∧
      sessionOf (sampleAgain 0 600 (.str "3500")).1 = some "s_0123456789ab" := by
  have hfree : (sampleOnce 600 (.str "3500")).records.get? (.str "s_ba9876543210") = none := rfl
  obtain ⟨h, hrun⟩ := run_sampleAgain (.inl rfl) (wellFormed_str "3500") hfree
  exact ⟨(one_session_per_process hrun).1, by decide +kernel⟩

/-- A process that tells its pid as the number zero has two sessions; and one that was idle for longer than
the limit is answered a new session although its old one is still live. -/
theorem process_registered_twice :
    ((∃ h, Run (sessionMachine sampleTimes) (SessionInput.Ordinary sampleTimes (sampleHost "" 0)) h
        (sampleAgain 0 0 (.int 0)).2) ∧ (sampleHost "" 0).format (.int 0) = "0" ∧
      ∀ sid ∈ ["s_0123456789ab", "s_ba9876543210"], ∃ r, (sampleAgain 0 0 (.int 0)).2.records.get? (.str sid) = some r ∧
        Obj.get r "client" = sampleClient (.int 0)) ∧
    (∃ h, Run (sessionMachine sampleTimes) (SessionInput.Ordinary sampleTimes (sampleHost "" 0)) h
        (sampleAgain 1000 600 (.str "3500")).2) ∧
      (∃ r, (sampleOnce 600 (.str "3500")).records.get? (.str "s_0123456789ab") = some r ∧
        Obj.get r "client" = sampleClient (.str "3500")) ∧
      sessionOf (sampleAgain 1000 600 (.str "3500")).1 = some "s_ba9876543210" := by
  refine ⟨⟨run_sampleAgain (.inl rfl) trivial rfl, by decide, ?_⟩,
    run_sampleAgain (.inr rfl) (wellFormed_str "3500") rfl,
    ⟨_, rfl, rfl⟩, by decide +kernel⟩
  intro sid hsid
  simp only [List.mem_cons, List.not_mem_nil, or_false] at hsid
  rcases hsid with rfl | rfl
  · exact ⟨_, rfl, rfl⟩
  · exact ⟨_, rfl, rfl⟩

end VirtuosoFlow.Tunnel
