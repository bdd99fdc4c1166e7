import VirtuosoFlow.Tunnel.Restart
import VirtuosoFlow.Tunnel.Expiry

/-!
# Records and their files

An id is joined to the directory of its store as it is, so the file of a record may lie elsewhere, and two
ids may have one file. Where each record whose id can be joined has a file of its own in the directory, the
operations of a store keep its files and its records together; a sweep does so as long as it does not stop
between expiring a record and writing its file.
-/

namespace VirtuosoFlow.Tunnel

open Base Base.Posix JsonText

/-- The disk makes directories and takes the files of these names. -/
structure TakesFiles (takes : String → Bool) (env : Env) : Prop where
  dirs : env.dirsOk = true
  names : ∀ s, env.fsEncodeError s = none
  files : env.writable = takes

/-- The file of an id lies in the directory, and the disk takes it. -/
def HasFile (takes : String → Bool) (dir : Place) (k : Key) : Prop :=
  (fileOf dir k).isSome = true ∧ ∀ s, k = .str s → takes (s ++ ".json") = true

/-- Records under their ids, each with a file of its own where its id can be joined. -/
structure Orderly (fmt : FloatFormat) (takes : String → Bool) (field : String) (dir : Place)
    (records : Dict Key Obj) : Prop where
  keyed : ∀ k r, records.get? k = some r → IsRecord fmt field k r
  file : ∀ k r, records.get? k = some r → Joinable k → HasFile takes dir k
  apart : ∀ k k' r r' n, records.get? k = some r → records.get? k' = some r' → fileOf dir k = some n →
    fileOf dir k' = some n → k = k'

/-- A directory has the files of these records, but for some that are behind, and no others. -/
structure OnDiskBut (fmt : FloatFormat) (dir : Place) (behind : Key → Prop) (disk : Disk)
    (records : Dict Key Obj) : Prop where
  file : ∀ k r n, records.get? k = some r → fileOf dir k = some n → ¬ behind k →
    disk (dir ++ [n]) = some (dumps fmt (some 2) (.obj r))
  only : ∀ n text, extension <:+ n → disk (dir ++ [n]) = some text →
    ∃ k r, records.get? k = some r ∧ fileOf dir k = some n

/-- A directory has the files of these records and no others. -/
abbrev OnDisk (fmt : FloatFormat) (dir : Place) (disk : Disk) (records : Dict Key Obj) : Prop :=
  OnDiskBut fmt dir (fun _ => False) disk records

/-- A store goes from one state to another, and its files go with its records. -/
def StaysFiled (fmt : FloatFormat) (takes : String → Bool) (field : String) (dir : Place) (st st' : Store) : Prop :=
  Orderly fmt takes field dir st.records → Orderly fmt takes field dir st'.records ∧
    ∃ writes, st'.writes = st.writes ++ writes ∧ InDir dir writes ∧
      ∀ disk, OnDisk fmt dir disk st.records → OnDisk fmt dir (writeFiles fmt dir writes disk) st'.records

section Filing

variable {fmt : FloatFormat} {takes : String → Bool} {field : String} {dir : Place} {disk : Disk} {env : Env}
  {records : Dict Key Obj} {r : Obj} {k : Key} {s : String} {st st' : Store} {behind rest : Key → Prop}

/-- What a restart loads from such a directory. -/
theorem Orderly.filedUnder (h : Orderly fmt takes field dir records) (hdisk : OnDisk fmt dir disk records) :
    FiledUnder fmt field dir disk (fileOf dir) records :=
  ⟨fun k r _ hr _ => h.keyed k r hr,
    fun k r n hr hn => ⟨extension_fileOf hn, hdisk.file k r n hr hn id⟩, hdisk.only, h.apart⟩

/-- The files are the same on a disk that has the same in the directory. -/
theorem OnDiskBut.congr {disk' : Disk} (h : OnDiskBut fmt dir behind disk records)
    (hsame : ∀ n, disk' (dir ++ [n]) = disk (dir ++ [n])) : OnDiskBut fmt dir behind disk' records := by
  constructor
  · intro k r n hr hn hbehind
    rw [hsame]
    exact h.file k r n hr hn hbehind
  · intro n text hjson htext
    rw [hsame] at htext
    exact h.only n text hjson htext

/-- More records may be behind. -/
theorem OnDiskBut.mono (h : OnDiskBut fmt dir behind disk records)
    (hrest : ∀ k, (fileOf dir k).isSome = true → behind k → rest k) : OnDiskBut fmt dir rest disk records :=
  ⟨fun k r n hr hn hnot => h.file k r n hr hn fun hb => hnot (hrest k (by rw [hn]; rfl) hb), h.only⟩

/-- Writing the file of a stored record, it is no longer behind. -/
theorem OnDiskBut.write (h : OnDiskBut fmt dir behind disk records) (hr : records.get? (.str s) = some r)
    {n : List Char} (hn : fileOf dir (.str s) = some n)
    (hapart : ∀ k r', records.get? k = some r' → fileOf dir k = some n → k = .str s)
    (hbehind : ∀ k, behind k → k = .str s ∨ rest k) :
    OnDiskBut fmt dir rest (writeFiles fmt dir [(s ++ ".json", .obj r)] disk) records := by
  obtain ⟨s', hs', -, hplace⟩ := fileOf_eq_some.mp hn
  obtain rfl := Key.str.inj hs'
  constructor
  · intro k r' m hr' hm hnot
    rw [writeFiles_at hplace]
    by_cases hmn : m = n
    · subst hmn
      obtain rfl := hapart k r' hr' hm
      obtain rfl : r' = r := Option.some.inj (hr'.symm.trans hr)
      rw [if_pos rfl]
    · rw [if_neg hmn]
      refine h.file k r' m hr' hm fun hb => ?_
      rcases hbehind k hb with rfl | hrest
      · exact hmn (Option.some.inj (hm.symm.trans hn))
      · exact hnot hrest
  · intro m text hjson htext
    rw [writeFiles_at hplace] at htext
    split at htext
    · rename_i hm
      exact ⟨.str s, r, hr, hm ▸ hn⟩
    · exact h.only m text hjson htext

instance : Std.Refl (StaysFiled fmt takes field dir) :=
  ⟨fun _ h => ⟨h, [], (List.append_nil _).symm, by simp [InDir], fun _ hdisk => hdisk⟩⟩

instance : IsTrans Store (StaysFiled fmt takes field dir) := by
  constructor
  intro st₁ st₂ st₃ h h' h₁
  obtain ⟨h₂, writes, heq, hin, hfiled⟩ := h h₁
  obtain ⟨h₃, more, heq', hin', hfiled'⟩ := h' h₂
  refine ⟨h₃, writes ++ more, by rw [heq', heq, List.append_assoc], ?_, ?_⟩
  · intro w hw
    rcases List.mem_append.mp hw with hmem | hmem
    · exact hin w hmem
    · exact hin' w hmem
  · intro disk hdisk
    rw [writeFiles_append]
    exact hfiled' _ (hfiled disk hdisk)

/-- A key has a file that the disk takes, and that is no other record's. -/
def OwnFile (takes : String → Bool) (dir : Place) (records : Dict Key Obj) (k : Key) : Prop :=
  HasFile takes dir k ∧ ∀ k' r n, records.get? k' = some r → fileOf dir k' = some n → fileOf dir k = some n → k' = k

/-- A stored id that can be joined has a file of its own. -/
theorem Orderly.ownFile (h : Orderly fmt takes field dir records) (hr : records.get? k = some r)
    (hk : Joinable k) : OwnFile takes dir records k :=
  ⟨h.file k r hr hk, fun k' r' n hr' hn' hn => h.apart k' k r' r n hr' hr hn' hn⟩

/-- A value with the same id is a record too. -/
theorem IsRecord.of_lookup {r' : Obj} (h : IsRecord fmt field k r) (hid : r'.lookup field = r.lookup field)
    (hvalue : WellFormed fmt (.obj r')) : IsRecord fmt field k r' := by
  have hsame : Obj.get r' field = Obj.get r field := by
    unfold Obj.get Obj.getD
    rw [hid]
  exact ⟨hsame ▸ h.key, hsame ▸ h.truthy, hvalue⟩

/-- A record whose file can be written is. -/
theorem exec_persist_written (h : FileWritten env field r s) :
    (persist env field r).exec st = (.ok (), { st with writes := st.writes ++ [(s ++ ".json", .obj r)] }) := by
  obtain ⟨writes, hexec⟩ := exec_persist env field r st
  have hwrites : ((persist env field r).exec st).2.writes = st.writes ++ [(s ++ ".json", .obj r)] :=
    writes_persist_written h
  rw [hexec] at hwrites ⊢
  rw [h.named]
  have hsame : writes = st.writes ++ [(s ++ ".json", .obj r)] := hwrites
  rw [hsame]
  rfl

/-- A record under a string has that string as its id. -/
theorem lookup_of_key (hid : (Obj.get r field).key? = some (.str s)) : r.lookup field = some (.str s) := by
  have hget := key?_eq_str hid
  unfold Obj.get Obj.getD at hget
  cases hl : r.lookup field with
  | none => simp [hl] at hget
  | some v => simpa [hl] using hget

/-- An id that can be joined has a file name. -/
theorem persistError_joinable (htakes : TakesFiles takes env) (hid : (Obj.get r field).key? = some k)
    (hk : Joinable k) :
    persistError env field r = none := by
  obtain ⟨s, rfl, hnul⟩ := hk
  have hname : env.nameError s = none := Env.nameError_eq_none.mpr ⟨htakes.names s, hnul⟩
  simp only [persistError, htakes.dirs, if_true, lookup_of_key hid, hname]

/-- The file of a record whose id can be joined is written. -/
theorem exec_persist_joinable (htakes : TakesFiles takes env) (hid : (Obj.get r field).key? = some (.str s))
    (hnul : '\x00' ∉ s.toList) (htaken : takes (s ++ ".json") = true) :
    (persist env field r).exec st = (.ok (), { st with writes := st.writes ++ [(s ++ ".json", .obj r)] }) :=
  exec_persist_written ⟨persistError_joinable htakes hid ⟨s, rfl, hnul⟩, lookup_of_key hid, htakes.dirs,
    by rw [htakes.files, htaken]⟩

/-- Any other record has no file to be written. -/
theorem persistError_refused (hdirs : env.dirsOk = true) (hid : (Obj.get r field).key? = some k) (hk : ¬ Joinable k) :
    ∃ e, persistError env field r = some e := by
  unfold persistError
  rw [if_pos hdirs]
  unfold Obj.get Obj.getD at hid
  cases hl : r.lookup field with
  | none => exact ⟨_, rfl⟩
  | some v =>
    cases v with
    | str s =>
      cases herror : env.nameError s with
      | some e => exact ⟨e, herror⟩
      | none =>
        refine absurd ⟨s, ?_, (Env.nameError_eq_none.mp herror).2⟩ hk
        simpa [hl] using hid.symm
    | _ => exact ⟨_, rfl⟩

/-- An id whose file can be named can be joined. -/
theorem joinable_of_persistError (hdirs : env.dirsOk = true) (hid : (Obj.get r field).key? = some k)
    (hnone : persistError env field r = none) : Joinable k := by
  by_contra hk
  obtain ⟨e, he⟩ := persistError_refused hdirs hid hk
  cases hnone.symm.trans he

/-- Where an id cannot be joined, persisting raises. -/
theorem exec_persist_refused (hdirs : env.dirsOk = true) (hid : (Obj.get r field).key? = some k)
    (hk : ¬ Joinable k) (st : Store) : ∃ e, (persist env field r).exec st = (.error e, st) := by
  obtain ⟨e, he⟩ := persistError_refused hdirs hid hk
  refine ⟨e, ?_⟩
  unfold persist
  rw [he]
  rfl

/-- Changes to records without files leave the files alone. -/
theorem staysFiled_beside (hwrites : st'.writes = st.writes)
    (hsame : ∀ k, Joinable k → st'.records.get? k = st.records.get? k)
    (hkeyed : Orderly fmt takes field dir st.records → ∀ k r, st'.records.get? k = some r → IsRecord fmt field k r) :
    StaysFiled fmt takes field dir st st' := by
  intro h
  have hold : ∀ k n, fileOf dir k = some n → st'.records.get? k = st.records.get? k :=
    fun k n hn => hsame k (joinable_of_fileOf hn)
  refine ⟨⟨hkeyed h, ?_, ?_⟩, [], by rw [hwrites, List.append_nil], by simp [InDir], fun disk hdisk => ⟨?_, ?_⟩⟩
  · intro k r hr hk
    rw [hsame k hk] at hr
    exact h.file k r hr hk
  · intro k k' r r' n hr hr' hn hn'
    rw [hold k n hn] at hr
    rw [hold k' n hn'] at hr'
    exact h.apart k k' r r' n hr hr' hn hn'
  · intro k r n hr hn
    rw [hold k n hn] at hr
    exact hdisk.file k r n hr hn
  · intro n text hjson htext
    obtain ⟨k, r, hr, hn⟩ := hdisk.only n text hjson htext
    exact ⟨k, r, (hold k n hn).trans hr, hn⟩

/-- A record is stored, and its file is written where its id can be joined. -/
theorem staysFiled_persist (htakes : TakesFiles takes env)
    (hnew : Orderly fmt takes field dir st.records →
      IsRecord fmt field k r ∧ (Joinable k → OwnFile takes dir st.records k)) :
    StaysFiled fmt takes field dir st
      ((persist env field r).exec { st with records := st.records.insert k r }).2 := by
  intro h
  obtain ⟨hrecord, hown⟩ := hnew h
  have hkeyed : ∀ k' r', (st.records.insert k r).get? k' = some r' → IsRecord fmt field k' r' := by
    intro k' r' hr'
    rw [Dict.get?_insert] at hr'
    split at hr'
    · rename_i hk
      subst hk
      exact Option.some.inj hr' ▸ hrecord
    · exact h.keyed k' r' hr'
  by_cases hk : Joinable k
  · obtain ⟨hfile, hapart⟩ := hown hk
    obtain ⟨s, rfl, hnul⟩ := hk
    obtain ⟨n, hn⟩ := Option.isSome_iff_exists.mp hfile.1
    obtain ⟨s', hs', -, hplace⟩ := fileOf_eq_some.mp hn
    obtain rfl := Key.str.inj hs'
    rw [exec_persist_joinable htakes hrecord.key hnul (hfile.2 s rfl)]
    refine ⟨⟨hkeyed, ?_, ?_⟩, [(s ++ ".json", .obj r)], rfl, ?_, fun disk hdisk => ?_⟩
    · intro k' r' hr' hk'
      rw [Dict.get?_insert] at hr'
      split at hr'
      · rename_i heq
        exact heq ▸ hfile
      · exact h.file k' r' hr' hk'
    · -- the record's own file is no other's
      intro k₁ k₂ r₁ r₂ m hr₁ hr₂ hm₁ hm₂
      rw [Dict.get?_insert] at hr₁ hr₂
      split at hr₁ <;> split at hr₂
      · rename_i h₁ h₂
        rw [h₁, h₂]
      · rename_i h₁ h₂
        exact absurd (hapart k₂ r₂ m hr₂ hm₂ (h₁ ▸ hm₁)) h₂
      · rename_i h₁ h₂
        exact absurd (hapart k₁ r₁ m hr₁ hm₁ (h₂ ▸ hm₂)) h₁
      · exact h.apart k₁ k₂ r₁ r₂ m hr₁ hr₂ hm₁ hm₂
    · intro w hw
      rw [List.mem_singleton.mp hw]
      exact ⟨n, hplace⟩
    · have hbut : OnDiskBut fmt dir (fun k' => k' = .str s) disk (st.records.insert (.str s) r) := by
        constructor
        · intro k' r' m hr' hm hne
          rw [Dict.get?_insert_ne _ hne] at hr'
          exact hdisk.file k' r' m hr' hm id
        · intro m text hjson htext
          obtain ⟨k', r', hr', hm⟩ := hdisk.only m text hjson htext
          by_cases heq : k' = .str s
          · exact ⟨k', r, by rw [heq, Dict.get?_insert_self], hm⟩
          · exact ⟨k', r', by rw [Dict.get?_insert_ne _ heq, hr'], hm⟩
      refine hbut.write (Dict.get?_insert_self _ _ r) hn ?_ fun _ => .inl
      intro k' r' hr' hm
      by_contra hne
      rw [Dict.get?_insert_ne _ hne] at hr'
      exact hne (hapart k' r' n hr' hm hn)
  · obtain ⟨e, hexec⟩ := exec_persist_refused htakes.dirs hrecord.key hk { st with records := st.records.insert k r }
    rw [hexec]
    refine staysFiled_beside rfl (fun k' hk' => ?_) (fun _ => hkeyed) h
    have hne : k' ≠ k := fun heq => hk (heq ▸ hk')
    exact Dict.get?_insert_ne _ hne r

/-- A request that stores a record files it, and one that stores none writes nothing. -/
theorem Writes.staysFiled {Stores : Key → Obj → Prop} (h : Writes env field Stores st st')
    (htakes : TakesFiles takes env) (hstored : ∀ k r, Stores k r →
      IsRecord fmt field k r ∧ (Joinable k → OwnFile takes dir st.records k)) :
    StaysFiled fmt takes field dir st st' := by
  by_cases hany : ∃ k r, Stores k r
  · obtain ⟨k, r, hstores⟩ := hany
    rw [h.stored k r hstores]
    exact staysFiled_persist htakes fun _ => hstored k r hstores
  · rw [h.refused fun k r hstores => hany ⟨k, r, hstores⟩]
    exact Std.Refl.refl (r := StaysFiled fmt takes field dir) st

/-- Moving a record by a transition that keeps its id. -/
theorem setStatus_staysFiled {unknown : String} {transition : Obj → Except PyExc Obj} (id : Json)
    (htakes : TakesFiles takes env) (hid : ∀ r r', transition r = .ok r' → r'.lookup field = r.lookup field)
    (hvalue : ∀ r r', transition r = .ok r' → WellFormed fmt (.obj r) → WellFormed fmt (.obj r')) :
    Prog.Keeps (StaysFiled fmt takes field dir) (setStatus env field unknown transition id) := by
  intro st
  rcases setStatus_cases env field unknown transition id st with ⟨e, hexec⟩ | ⟨k, r, r', writes, hkey, hr, htr, -⟩
  · rw [hexec]
    exact Std.Refl.refl (r := StaysFiled fmt takes field dir) st
  · have hset : ((setStatus env field unknown transition id).exec st).2 =
        ((persist env field r').exec { st with records := st.records.insert k r' }).2 := by
      simp only [setStatus, Prog.exec_bind, Prog.exec_ofExcept, hashKey, hkey, Prog.exec_get, hr, htr, Prog.exec_set]
      cases (persist env field r').exec { st with records := st.records.insert k r' } with
      | mk out st' => cases out <;> rfl
    rw [hset]
    refine staysFiled_persist htakes fun h => ⟨?_, fun hk => h.ownFile hr hk⟩
    have hrecord := h.keyed k r hr
    exact hrecord.of_lookup (hid r r' htr) (hvalue r r' htr hrecord.value)

end Filing

section Sweeping

variable {fmt : FloatFormat} {takes : String → Bool} {dir : Place} {env : Env} {st st' : Store}

open ProposalStore

/-- A sweep does not stop between expiring a record that has a file and writing the file: it stops at a
record whose age cannot be told before any such record is stale, or it can tell all ages, and behind a stale
record without a file there is no stale record with one. -/
def SweepFiles (env : Env) (st : Store) : Prop :=
  0 < env.proposalTtl →
    (∃ before e after, st.records.entries = before ++ e :: after ∧ (∀ stale, isStale env e.2 ≠ .ok stale) ∧
      ∀ e' ∈ before, isStale env e'.2 = .ok true → ¬ Joinable e'.1) ∨
    (∀ e ∈ st.records.entries, ∃ stale, isStale env e.2 = .ok stale) ∧
      st.records.entries.Pairwise fun e e' =>
        isStale env e.2 = .ok true → isStale env e'.2 = .ok true → Joinable e'.1 → Joinable e.1

/-- A loop that stops has marked stale records only, and those before the one it stopped at. -/
theorem expireEntries_stops (before after : List (Key × Obj)) {e : Key × Obj}
    (hstops : ∀ stale, isStale env e.2 ≠ .ok stale) (st : Store) :
    ∃ x st', (expireEntries env (before ++ e :: after)).exec st = (.error x, st') ∧ st'.writes = st.writes ∧
      ∀ k, st'.records.get? k = st.records.get? k ∨ ∃ e' ∈ before, e'.1 = k ∧ isStale env e'.2 = .ok true ∧
        st'.records.get? k = some (markExpired env e'.2) := by
  induction before generalizing st with
  | nil =>
    cases hstale : isStale env e.2 with
    | ok stale => exact absurd hstale (hstops stale)
    | error x =>
      refine ⟨x, st, ?_, rfl, fun _ => .inl rfl⟩
      rw [List.nil_append, expireEntries, hstale, Prog.exec_bind_error (Prog.exec_ofExcept _ _)]
  | cons e₀ before ih =>
    obtain ⟨key, p⟩ := e₀
    rw [List.cons_append]
    cases hstale : isStale env p with
    | error x =>
      refine ⟨x, st, ?_, rfl, fun _ => .inl rfl⟩
      rw [expireEntries, hstale, Prog.exec_bind_error (Prog.exec_ofExcept _ _)]
    | ok stale =>
      cases stale with
      | false =>
        rw [exec_expireEntries_fresh st hstale]
        obtain ⟨x, st', hexec, hwrites, hrecords⟩ := ih st
        refine ⟨x, st', hexec, hwrites, fun k => (hrecords k).imp_right ?_⟩
        rintro ⟨e', he', hmarked⟩
        exact ⟨e', List.mem_cons_of_mem _ he', hmarked⟩
      | true =>
        rw [exec_expireEntries_stale st hstale]
        obtain ⟨x, st', hexec, hwrites, hrecords⟩ :=
          ih { st with records := st.records.insert key (markExpired env p) }
        refine ⟨x, st', by rw [Prog.exec_bind_error hexec], hwrites, fun k => ?_⟩
        rcases hrecords k with hsame | ⟨e', he', hmarked⟩
        · rw [Dict.get?_insert] at hsame
          split at hsame
          · rename_i hk
            exact .inr ⟨(key, p), List.mem_cons_self, hk.symm, hstale, hsame⟩
          · exact .inl hsame
        · exact .inr ⟨e', List.mem_cons_of_mem _ he', hmarked⟩

/-- A loop that returns hands out what it marked, in order. -/
theorem expireEntries_marked {l : List (Key × Obj)} {newly : List Obj}
    (h : (expireEntries env l).exec st = (.ok newly, st')) :
    ∃ marked : List (Key × Obj), marked.Sublist l ∧ (∀ e ∈ l, isStale env e.2 = .ok true → e ∈ marked) ∧
      (∀ e ∈ marked, isStale env e.2 = .ok true) ∧ newly = marked.map fun e => markExpired env e.2 := by
  induction l generalizing st st' newly with
  | nil =>
    simp only [expireEntries, Prog.exec_pure, Prod.mk.injEq, Except.ok.injEq] at h
    exact ⟨[], .slnil, by simp, by simp, h.1.symm⟩
  | cons e l ih =>
    obtain ⟨key, p⟩ := e
    cases hstale : isStale env p with
    | error x =>
      rw [expireEntries, hstale, Prog.exec_bind_error (Prog.exec_ofExcept _ _)] at h
      cases h
    | ok stale =>
      cases stale with
      | false =>
        rw [exec_expireEntries_fresh st hstale] at h
        obtain ⟨marked, hsub, hall, hstales, hnewly⟩ := ih h
        refine ⟨marked, hsub.cons _, fun e he hs => ?_, hstales, hnewly⟩
        rcases List.mem_cons.mp he with rfl | hmem
        · cases hstale.symm.trans hs
        · exact hall e hmem hs
      | true =>
        rw [exec_expireEntries_stale st hstale] at h
        obtain ⟨others, st₁, hrest, hlast⟩ := Prog.exec_bind_eq_ok h
        rw [Prog.exec_pure, Prod.mk.injEq, Except.ok.injEq] at hlast
        obtain ⟨marked, hsub, hall, hstales, hnewly⟩ := ih hrest
        refine ⟨(key, p) :: marked, hsub.cons_cons _, fun e he hs => ?_, ?_, ?_⟩
        · rcases List.mem_cons.mp he with rfl | hmem
          · exact List.mem_cons_self
          · exact List.mem_cons_of_mem _ (hall e hmem hs)
        · intro e he
          rcases List.mem_cons.mp he with rfl | hmem
          · exact hstale
          · exact hstales e hmem
        · rw [← hlast.1, hnewly]
          rfl

/-- A loop that returned left each record as it was, or marked it because it was stale. -/
theorem expireEntries_records {newly : List Obj}
    (h : (expireEntries env st.records.entries).exec st = (.ok newly, st')) :
    st'.writes = st.writes ∧
    (∀ k p, st.records.get? k = some p → isStale env p = .ok false ∧ st'.records.get? k = some p ∨
      isStale env p = .ok true ∧ st'.records.get? k = some (markExpired env p)) ∧
    ∀ k r, st'.records.get? k = some r → ∃ p, st.records.get? k = some p := by
  have hfound : ∀ e ∈ st.records.entries, st.records.get? e.1 = some e.2 := fun e he => Dict.mem_entries_iff.mp he
  obtain ⟨hwrites, hothers, hentries, -⟩ := expireEntries_spec st.records.nodup hfound h
  refine ⟨hwrites, fun k p hp => ?_, fun k r hr => ?_⟩
  · rcases hentries (k, p) (Dict.mem_entries_iff.mpr hp) with hfresh | ⟨hstale, -, hget⟩
    · exact .inl hfresh
    · exact .inr ⟨hstale, hget⟩
  · by_contra hnone
    have hk : k ∉ st.records.entries.map Prod.fst := by
      intro hmem
      obtain ⟨e, he, rfl⟩ := List.mem_map.mp hmem
      exact hnone ⟨e.2, hfound e he⟩
    rw [hothers k hk] at hr
    exact hnone ⟨r, hr⟩

/-- Writing the files of stored records, they are no longer behind; it may stop at a record without a file. -/
theorem persistAll_filed (htakes : TakesFiles takes env) (pending : List (Key × Obj)) (st : Store)
    (horderly : Orderly fmt takes "proposal_id" dir st.records)
    (hpending : ∀ e ∈ pending, st.records.get? e.1 = some e.2)
    (hpairs : pending.Pairwise fun e e' => Joinable e'.1 → Joinable e.1) :
    ∃ writes, ((persistAll env (pending.map Prod.snd)).exec st).2 = ⟨st.records, st.writes ++ writes⟩ ∧
      InDir dir writes ∧ ∀ disk, OnDiskBut fmt dir (fun k => ∃ e ∈ pending, e.1 = k) disk st.records →
        OnDisk fmt dir (writeFiles fmt dir writes disk) st.records := by
  induction pending generalizing st with
  | nil => exact ⟨[], by rw [List.append_nil]; rfl, by simp [InDir], fun disk h => h.mono (by simp)⟩
  | cons e pending ih =>
    obtain ⟨k, u⟩ := e
    obtain ⟨hfirst, hrest⟩ := List.pairwise_cons.mp hpairs
    have hu := hpending (k, u) List.mem_cons_self
    have hkey := (horderly.keyed k u hu).key
    by_cases hk : Joinable k
    · obtain ⟨hfile, hapart⟩ := horderly.ownFile hu hk
      obtain ⟨s, rfl, hnul⟩ := hk
      obtain ⟨n, hn⟩ := Option.isSome_iff_exists.mp hfile.1
      obtain ⟨s', hs', -, hplace⟩ := fileOf_eq_some.mp hn
      obtain rfl := Key.str.inj hs'
      obtain ⟨writes, hexec, hin, hfiled⟩ := ih { st with writes := st.writes ++ [(s ++ ".json", .obj u)] } horderly
        (fun e he => hpending e (List.mem_cons_of_mem _ he)) hrest
      refine ⟨(s ++ ".json", .obj u) :: writes, ?_, ?_, fun disk hdisk => ?_⟩
      · rw [List.map_cons, persistAll,
          Prog.exec_bind_ok (exec_persist_joinable htakes hkey hnul (hfile.2 s rfl)), hexec, List.append_assoc]
        rfl
      · intro w hw
        rcases List.mem_cons.mp hw with rfl | hmem
        · exact ⟨n, hplace⟩
        · exact hin w hmem
      · rw [← List.singleton_append, writeFiles_append]
        refine hfiled _ (hdisk.write hu hn (fun k r hr hm => hapart k r n hr hm hn) ?_)
        rintro k ⟨e, he, rfl⟩
        rcases List.mem_cons.mp he with rfl | hmem
        · exact .inl rfl
        · exact .inr ⟨e, hmem, rfl⟩
    · -- it stops here, and none of the records to come has a file
      obtain ⟨x, hexec⟩ := exec_persist_refused htakes.dirs hkey hk st
      refine ⟨[], ?_, by simp [InDir], fun disk hdisk => hdisk.mono ?_⟩
      · rw [List.map_cons, persistAll, Prog.exec_bind_error hexec, List.append_nil]
      · rintro k' hfile ⟨e, he, rfl⟩
        obtain ⟨n, hn⟩ := Option.isSome_iff_exists.mp hfile
        rcases List.mem_cons.mp he with rfl | hmem
        · exact hk (joinable_of_fileOf hn)
        · exact hk (hfirst e hmem (joinable_of_fileOf hn))

/-- The sweep writes what it expires. -/
theorem expireStale_staysFiled (htakes : TakesFiles takes env) (hsweep : SweepFiles env st) :
    StaysFiled fmt takes "proposal_id" dir st ((expireStale env).exec st).2 := by
  unfold expireStale
  split
  · exact Std.Refl.refl (r := StaysFiled fmt takes "proposal_id" dir) st
  · rename_i httl
    rw [Prog.exec_bind_ok (Prog.exec_get st)]
    have hfound : ∀ e ∈ st.records.entries, st.records.get? e.1 = some e.2 := fun e he => Dict.mem_entries_iff.mp he
    have hmarked : ∀ k p, IsRecord fmt "proposal_id" k p → IsRecord fmt "proposal_id" k (markExpired env p) :=
      fun k p h => h.of_lookup (lookup_id_markExpired env p) (wellFormed_markExpired h.value)
    rcases hsweep (by omega) with ⟨before, e, after, heq, hstops, hunfiled⟩ | ⟨htold, hpairs⟩
    · obtain ⟨x, st₁, hloop, hwrites, hrecords⟩ := expireEntries_stops before after hstops st
      rw [heq, Prog.exec_bind_error hloop]
      refine staysFiled_beside hwrites (fun k hk => ?_) fun h k r hr => ?_
      · rcases hrecords k with hsame | ⟨e', he', rfl, hstale, -⟩
        · exact hsame
        · exact absurd hk (hunfiled e' he' hstale)
      · rcases hrecords k with hsame | ⟨e', he', rfl, hstale, hget⟩
        · exact h.keyed k r (hsame ▸ hr)
        · obtain rfl := Option.some.inj (hget.symm.trans hr)
          refine hmarked _ _ (h.keyed _ _ (hfound e' ?_))
          rw [heq]
          exact List.mem_append_left _ he'
    · obtain ⟨newly, st₁, hloop⟩ := expireEntries_returns st htold
      obtain ⟨hwrites, hstep, hback⟩ := expireEntries_records hloop
      obtain ⟨marked, hsub, hall, hstales, rfl⟩ := expireEntries_marked hloop
      rw [Prog.exec_bind_ok hloop]
      intro h
      have h₁ : Orderly fmt takes "proposal_id" dir st₁.records := by
        refine ⟨fun k r hr => ?_, fun k r hr => ?_, fun k k' r r' n hr hr' => ?_⟩
        · obtain ⟨p, hp⟩ := hback k r hr
          rcases hstep k p hp with ⟨-, hget⟩ | ⟨-, hget⟩
          · exact Option.some.inj (hget.symm.trans hr) ▸ h.keyed k p hp
          · exact Option.some.inj (hget.symm.trans hr) ▸ hmarked k p (h.keyed k p hp)
        · obtain ⟨p, hp⟩ := hback k r hr
          exact h.file k p hp
        · obtain ⟨p, hp⟩ := hback k r hr
          obtain ⟨p', hp'⟩ := hback k' r' hr'
          exact h.apart k k' p p' n hp hp'
      obtain ⟨writes, hexec, hin, hfiled⟩ := persistAll_filed htakes (marked.map fun e =>
          (e.1, markExpired env e.2)) st₁ h₁ (by
        intro e he
        obtain ⟨e', he', rfl⟩ := List.mem_map.mp he
        rcases hstep e'.1 e'.2 (hfound e' (hsub.subset he')) with ⟨hfresh, -⟩ | ⟨-, hget⟩
        · cases hfresh.symm.trans (hstales e' he')
        · exact hget) (by
        rw [List.pairwise_map]
        refine (hpairs.sublist hsub).imp_of_mem fun he he' hpair => ?_
        exact hpair (hstales _ he) (hstales _ he'))
      have hlast : ((do
          persistAll env (marked.map fun e => markExpired env e.2)
          Prog.ofExcept ((marked.map fun e => markExpired env e.2).mapM fun u => getItem u "proposal_id") :
            Prog PyExc Store (List Json)).exec st₁).2 =
          ((persistAll env (marked.map fun e => markExpired env e.2)).exec st₁).2 :=
        Prog.Keeps.of_rest (R := Prog.Fixes fun st => st) (fun _ => .ofExcept _) st₁
      rw [List.map_map] at hexec
      have hpersisted : ((persistAll env (marked.map fun e => markExpired env e.2)).exec st₁).2 =
          ⟨st₁.records, st₁.writes ++ writes⟩ := hexec
      rw [hlast, hpersisted]
      refine ⟨h₁, writes, by rw [hwrites], hin, fun disk hdisk => hfiled disk ⟨?_, ?_⟩⟩
      · -- what was not marked is as before
        intro k r n hr hn hnot
        obtain ⟨p, hp⟩ := hback k r hr
        rcases hstep k p hp with ⟨-, hget⟩ | ⟨hstale, -⟩
        · obtain rfl := Option.some.inj (hget.symm.trans hr)
          exact hdisk.file k p n hp hn id
        · have hmem : (k, p) ∈ marked := hall (k, p) (Dict.mem_entries_iff.mpr hp) hstale
          exact absurd ⟨(k, markExpired env p), List.mem_map.mpr ⟨(k, p), hmem, rfl⟩, rfl⟩ hnot
      · intro n text hjson htext
        obtain ⟨k, p, hp, hn⟩ := hdisk.only n text hjson htext
        rcases hstep k p hp with ⟨-, hget⟩ | ⟨-, hget⟩
        · exact ⟨k, _, hget, hn⟩
        · exact ⟨k, _, hget, hn⟩

/-- A sweep that returned has left nothing stale. -/
theorem sweepFiles_after {ids : List Json} (h : (expireStale env).exec st = (.ok ids, st')) : SweepFiles env st' := by
  intro httl
  unfold expireStale at h
  rw [if_neg (by omega), Prog.exec_bind_ok (Prog.exec_get st)] at h
  obtain ⟨newly, st₁, hloop, h⟩ := Prog.exec_bind_eq_ok h
  have hrecords : st'.records = st₁.records := by
    have hfixes : Prog.Keeps (Prog.Fixes Store.records) (do
        persistAll env newly
        Prog.ofExcept (newly.mapM fun u => getItem u "proposal_id") : Prog PyExc Store (List Json)) :=
      .bind (persistAll_fixes env newly) fun _ => .ofExcept _
    have hlast := hfixes st₁
    rw [h] at hlast
    exact hlast
  obtain ⟨-, hstep, hback⟩ := expireEntries_records hloop
  have hfresh : ∀ e ∈ st'.records.entries, isStale env e.2 = .ok false := by
    intro e he
    have hget := Dict.mem_entries_iff.mp he
    rw [hrecords] at hget
    obtain ⟨p, hp⟩ := hback e.1 e.2 hget
    rcases hstep e.1 p hp with ⟨hfresh, hsame⟩ | ⟨-, hmarked⟩
    · rwa [Option.some.inj (hget.symm.trans hsame)]
    · rw [Option.some.inj (hget.symm.trans hmarked)]
      exact isStale_markExpired env p
  refine .inr ⟨fun e he => ⟨false, hfresh e he⟩, List.pairwise_of_forall_mem_list fun e he e' _ hstale => ?_⟩
  rw [hfresh e he] at hstale
  cases hstale

/-- A sweep that would return does not stop halfway. -/
theorem sweepFiles_of_returns (h : SweepReturns env st) (hdirs : env.dirsOk = true)
    (hkeyed : ∀ k r, st.records.get? k = some r → IsRecord fmt "proposal_id" k r) : SweepFiles env st := by
  intro httl
  have hpasses : ∀ e ∈ st.records.entries, EntryPasses env e.2 :=
    fun e he => h httl e.1 e.2 (Dict.mem_entries_iff.mp he)
  refine .inr ⟨fun e he => ?_, List.pairwise_of_forall_mem_list fun e he e' _ hstale _ _ => ?_⟩
  · obtain ⟨stale, hstale, -⟩ := hpasses e he
    exact ⟨stale, hstale⟩
  · obtain ⟨stale, hage, hfile⟩ := hpasses e he
    obtain rfl : true = stale := Except.ok.inj (hstale.symm.trans hage)
    exact joinable_of_persistError hdirs (hkeyed e.1 e.2 (Dict.mem_entries_iff.mp he)).key (hfile rfl).1

end Sweeping

end VirtuosoFlow.Tunnel
