import VirtuosoFlow.Tunnel.Home

/-!
# What a restart finds

Records lie in files of their own, and `_load` reads them back: where the files of a directory hold the
records of a store that have a file name, and nothing else, the store loaded from it has just these.
-/

namespace VirtuosoFlow.Tunnel

open Base Base.Posix JsonText

/-- A record that a file can hold, under its id. -/
structure Storable (fmt : FloatFormat) (field s : String) (r : Obj) : Prop where
  plain : PlainId s
  nonempty : s ≠ ""
  id : r.lookup field = some (.str s)
  value : WellFormed fmt (.obj r)

/-- Every record is one, and is stored under its id. -/
def Storables (fmt : FloatFormat) (field : String) (records : Dict Key Obj) : Prop :=
  ∀ k r, records.get? k = some r → ∃ s, k = .str s ∧ Storable fmt field s r

/-- A directory has the files of these records and no others. -/
structure Filed (fmt : FloatFormat) (dir : Place) (disk : Disk) (records : Dict Key Obj) : Prop where
  file : ∀ s, disk (dir ++ [fileName s]) = (records.get? (.str s)).map fun r => dumps fmt (some 2) (.obj r)
  named : ∀ name text, disk (dir ++ [name]) = some text → ∃ s, name = fileName s

/-- A value that `json.dumps` writes, stored under the key of its id, which is true. -/
structure IsRecord (fmt : FloatFormat) (field : String) (k : Key) (r : Obj) : Prop where
  key : (Obj.get r field).key? = some k
  truthy : (Obj.get r field).truthy = true
  value : WellFormed fmt (.obj r)

/-- The files of a directory hold the records whose keys have a file name, each a file of its own, and
nothing else. -/
structure FiledUnder (fmt : FloatFormat) (field : String) (dir : Place) (disk : Disk) (name : Key → Option (List Char))
    (records : Dict Key Obj) : Prop where
  keyed : ∀ k r n, records.get? k = some r → name k = some n → IsRecord fmt field k r
  file : ∀ k r n, records.get? k = some r → name k = some n →
    extension <:+ n ∧ disk (dir ++ [n]) = some (dumps fmt (some 2) (.obj r))
  only : ∀ n text, extension <:+ n → disk (dir ++ [n]) = some text → ∃ k r, records.get? k = some r ∧ name k = some n
  apart : ∀ k k' r r' n, records.get? k = some r → records.get? k' = some r' → name k = some n → name k' = some n →
    k = k'

section Loading

variable {fmt : FloatFormat} {field : String} {dir : Place} {disk : Disk} {records : Dict Key Obj}
  {name : Key → Option (List Char)}

/-- The text of a record is loaded as the record. -/
theorem loadText_dumps {k : Key} {r : Obj} (h : IsRecord fmt field k r) (loaded : Dict Key Obj) :
    loadText fmt field loaded (dumps fmt (some 2) (.obj r)) = .ok (loaded.insert k r) := by
  unfold loadText
  rw [loads_dumps (some 2) h.value]
  simp [h.truthy, hashKey, h.key, Except.map]

/-- Of the records that have a file, those are loaded whose files are listed; the others stay as they were. -/
theorem foldlM_loadText (h : FiledUnder fmt field dir disk name records) {names : List (List Char)}
    (hnames : ∀ n ∈ names, (disk (dir ++ [n])).isSome = true ∧ extension <:+ n) (loaded : Dict Key Obj) :
    ∃ all, names.foldlM
        (fun records n =>
          match disk (dir ++ [n]) with
          | none => Except.ok records
          | some text => loadText fmt field records text) loaded = .ok all ∧
      (∀ k r n, records.get? k = some r → name k = some n → n ∈ names → all.get? k = some r) ∧
      ∀ k, (∀ r n, records.get? k = some r → name k = some n → n ∉ names) → all.get? k = loaded.get? k := by
  induction names generalizing loaded with
  | nil => exact ⟨loaded, rfl, by simp, fun _ _ => rfl⟩
  | cons n names ih =>
    obtain ⟨hsome, hjson⟩ := hnames n List.mem_cons_self
    obtain ⟨text, htext⟩ := Option.isSome_iff_exists.mp hsome
    obtain ⟨k, r, hr, hn⟩ := h.only n text hjson htext
    have hrecord := h.keyed k r n hr hn
    obtain rfl : dumps fmt (some 2) (.obj r) = text :=
      Option.some.inj ((h.file k r n hr hn).2.symm.trans htext)
    obtain ⟨all, hload, hfound, hothers⟩ :=
      ih (fun n hn => hnames n (List.mem_cons_of_mem _ hn)) (loaded.insert k r)
    refine ⟨all, ?_, ?_, ?_⟩
    · rw [List.foldlM_cons, htext]
      simp only [loadText_dumps hrecord]
      exact hload
    · intro k' r' n' hr' hn' hmem
      by_cases hlater : n' ∈ names
      · exact hfound k' r' n' hr' hn' hlater
      · obtain rfl : n' = n := (List.mem_cons.mp hmem).resolve_right hlater
        obtain rfl : k' = k := h.apart k' k r' r n' hr' hr hn' hn
        obtain rfl : r' = r := Option.some.inj (hr'.symm.trans hr)
        have hnot : ∀ r n, records.get? k' = some r → name k' = some n → n ∉ names := by
          intro r₂ n₂ _ hn₂
          obtain rfl : n' = n₂ := Option.some.inj (hn'.symm.trans hn₂)
          exact hlater
        rw [hothers k' hnot, Dict.get?_insert_self]
    · intro k' hk'
      have hne : k' ≠ k := by
        rintro rfl
        exact hk' r n hr hn List.mem_cons_self
      rw [hothers k' fun r n hr hn hmem => hk' r n hr hn (List.mem_cons_of_mem _ hmem), Dict.get?_insert_ne _ hne]

/-- What is loaded from a directory are the records that have a file there. -/
theorem loadStore_filedUnder (h : FiledUnder fmt field dir disk name records) {names : List (List Char)}
    (hnames : Globs disk dir names) : ∃ loaded, loadStore fmt field disk dir names = .ok loaded ∧
      ∀ k r, loaded.get? k = some r ↔ records.get? k = some r ∧ (name k).isSome = true := by
  obtain ⟨loaded, hload, hfound, hothers⟩ := foldlM_loadText h (fun n hn => (hnames.mem n).mp hn) Dict.empty
  have hlisted : ∀ k r n, records.get? k = some r → name k = some n → n ∈ names := by
    intro k r n hr hn
    obtain ⟨hjson, htext⟩ := h.file k r n hr hn
    exact (hnames.mem n).mpr ⟨by rw [htext]; rfl, hjson⟩
  refine ⟨loaded, hload, fun k r => ?_⟩
  by_cases hstored : ∃ r n, records.get? k = some r ∧ name k = some n
  · obtain ⟨r', n, hr', hn⟩ := hstored
    rw [hfound k r' n hr' hn (hlisted k r' n hr' hn), hr', hn]
    simp
  · have hnot : ∀ r n, records.get? k = some r → name k = some n → n ∉ names :=
      fun r n hr hn _ => hstored ⟨r, n, hr, hn⟩
    rw [hothers k hnot, Dict.get?_empty]
    constructor
    · intro hnone
      cases hnone
    · rintro ⟨hr, hname⟩
      obtain ⟨n, hn⟩ := Option.isSome_iff_exists.mp hname
      exact absurd ⟨r, n, hr, hn⟩ hstored

/-- The file name of a plain id. -/
def plainName : Key → Option (List Char)
  | .str s => some (fileName s)
  | _ => none

/-- A directory that has the files of some records is loaded as these records. -/
theorem loadStore_filed (hstorables : Storables fmt field records) (hfiled : Filed fmt dir disk records)
    {names : List (List Char)} (hnames : Globs disk dir names) :
    ∃ loaded, loadStore fmt field disk dir names = .ok loaded ∧ ∀ k, loaded.get? k = records.get? k := by
  have hunder : FiledUnder fmt field dir disk plainName records := by
    constructor
    · intro k r n hr _
      obtain ⟨s, rfl, hs⟩ := hstorables k r hr
      have hid : Obj.get r field = .str s := by rw [Obj.get, Obj.getD, hs.id]; rfl
      exact ⟨by rw [hid]; rfl, by rw [hid]; simp [hs.nonempty], hs.value⟩
    · intro k r n hr hn
      obtain ⟨s, rfl, -⟩ := hstorables k r hr
      obtain rfl : fileName s = n := Option.some.inj hn
      rw [hfiled.file, hr, fileName_eq]
      exact ⟨List.suffix_append _ _, rfl⟩
    · intro n text _ htext
      obtain ⟨s, rfl⟩ := hfiled.named n text htext
      have hfile := hfiled.file s
      rw [htext] at hfile
      obtain ⟨r, hr, -⟩ := Option.map_eq_some_iff.mp hfile.symm
      exact ⟨.str s, r, hr, rfl⟩
    · intro k k' r r' n hr hr' hn hn'
      obtain ⟨s, rfl, -⟩ := hstorables k r hr
      obtain ⟨s', rfl, -⟩ := hstorables k' r' hr'
      rw [fileName_injective (Option.some.inj (hn.trans hn'.symm))]
  obtain ⟨loaded, hload, hsame⟩ := loadStore_filedUnder hunder hnames
  refine ⟨loaded, hload, fun k => Option.ext fun r => ?_⟩
  rw [hsame, and_iff_left_iff_imp]
  intro hr
  obtain ⟨s, rfl, -⟩ := hstorables k r hr
  rfl

end Loading

/-- Directories can be made, and every plain name can be encoded and a file of it written. -/
structure WorkingDisk (env : Env) : Prop where
  dirs : env.dirsOk = true
  names : ∀ s, PlainId s → env.fsEncodeError s = none
  files : ∀ s, PlainId s → env.writable (s ++ ".json") = true

/-- A plain name can name a file. -/
theorem WorkingDisk.nameable {env : Env} (hdisk : WorkingDisk env) {s : String} (hs : PlainId s) :
    env.nameError s = none :=
  Env.nameError_eq_none.mpr ⟨hdisk.names s hs, hs.nul⟩

/-- A working disk takes the file of such a record. -/
theorem Storable.written {fmt : FloatFormat} {env : Env} {field s : String} {r : Obj} (hs : Storable fmt field s r)
    (hdisk : WorkingDisk env) : FileWritten env field r s := by
  refine ⟨?_, hs.id, hdisk.dirs, hdisk.files s hs.plain⟩
  have hname : env.nameError s = none := hdisk.nameable hs.plain
  simp only [persistError, hdisk.dirs, if_true, hs.id, hname]

end VirtuosoFlow.Tunnel
