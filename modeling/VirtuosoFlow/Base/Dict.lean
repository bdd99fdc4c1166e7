import Mathlib.Data.List.Nodup

/-!
# Insertion-ordered dictionaries

A dictionary keeps one value for each key and remembers the order in which the
keys first arrived; overwriting a key leaves it in its place. Uniqueness of the
keys is a field, so every dictionary that can be written down has it.
-/

namespace Base

variable {κ ν : Type*} [DecidableEq κ]

/-- A property of all elements of a list, tested element by element. -/
theorem forall_mem_of_all {α : Type*} {p : α → Prop} [DecidablePred p] {l : List α}
    (h : (l.all fun a => p a) = true) : ∀ a ∈ l, p a := by
  simpa using h

/-- Overwrite the first entry of a key, or append a new entry at the end. -/
def assocSet (k : κ) (v : ν) : List (κ × ν) → List (κ × ν)
  | [] => [(k, v)]
  | (k', v') :: l => if k' = k then (k, v) :: l else (k', v') :: assocSet k v l

/-- Reading a list headed by an entry compares that entry's key first. -/
theorem lookup_cons_eq_ite (k k' : κ) (v : ν) (l : List (κ × ν)) :
    ((k', v) :: l).lookup k = if k = k' then some v else l.lookup k := by
  by_cases h : k = k'
  · simp [h]
  · rw [List.lookup_cons, beq_false_of_ne h, if_neg h]

/-- The entry just written is the one that is read back. -/
@[simp] theorem lookup_assocSet_self (k : κ) (v : ν) (l : List (κ × ν)) :
    (assocSet k v l).lookup k = some v := by
  induction l with
  | nil => simp [assocSet]
  | cons e l ih =>
    obtain ⟨k', v'⟩ := e
    by_cases h : k' = k
    · simp [assocSet, h]
    · rw [assocSet, if_neg h, lookup_cons_eq_ite, if_neg (Ne.symm h), ih]

/-- Setting a key to the value it has changes nothing. -/
theorem assocSet_of_lookup {k : κ} {v : ν} {l : List (κ × ν)} (h : l.lookup k = some v) : assocSet k v l = l := by
  induction l with
  | nil => cases h
  | cons e l ih =>
    obtain ⟨k₀, v₀⟩ := e
    rw [lookup_cons_eq_ite] at h
    by_cases h₀ : k = k₀
    · subst h₀
      rw [if_pos rfl] at h
      cases h
      simp [assocSet]
    · rw [if_neg h₀] at h
      simp [assocSet, Ne.symm h₀, ih h]

/-- Writing one key does not change what another key reads. -/
@[simp] theorem lookup_assocSet_ne {k k' : κ} (h : k' ≠ k) (v : ν) (l : List (κ × ν)) :
    (assocSet k v l).lookup k' = l.lookup k' := by
  induction l with
  | nil => simp [assocSet, h]
  | cons e l ih =>
    obtain ⟨k₀, v₀⟩ := e
    by_cases h₀ : k₀ = k
    · subst h₀
      simp [assocSet, lookup_cons_eq_ite, h]
    · simp [assocSet, h₀, lookup_cons_eq_ite, ih]

/-- The keys after a write are the old keys, with a new key at the end. -/
theorem keys_assocSet (k : κ) (v : ν) (l : List (κ × ν)) :
    (assocSet k v l).map Prod.fst =
      if k ∈ l.map Prod.fst then l.map Prod.fst else l.map Prod.fst ++ [k] := by
  induction l with
  | nil => simp [assocSet]
  | cons e l ih =>
    obtain ⟨k₀, v₀⟩ := e
    by_cases h₀ : k₀ = k
    · simp [assocSet, h₀]
    · rw [assocSet, if_neg h₀, List.map_cons, ih]
      by_cases hk : k ∈ l.map Prod.fst
      · simp [hk]
      · simp [hk, Ne.symm h₀]

/-- What comes after an element in a part of a list comes after it in the list. -/
theorem sublist_after {α : Type*} {k : α} {l₁ l₂ m₁ m₂ : List α} (hnot : k ∉ l₁)
    (h : (m₁ ++ k :: m₂).Sublist (l₁ ++ k :: l₂)) : m₂.Sublist l₂ := by
  obtain ⟨n₁, n₂, heq, h₁, h₂⟩ := List.sublist_append_iff.mp h
  have hrest : (k :: m₂).Sublist n₂ := by
    rcases List.append_eq_append_iff.mp heq with ⟨c, hc, hc'⟩ | ⟨c, _, hc⟩
    · cases c with
      | nil =>
        rw [List.nil_append] at hc'
        rw [hc']
      | cons a c =>
        obtain ⟨rfl, _⟩ := List.cons.inj (hc'.trans (List.cons_append ..))
        exact absurd (h₁.subset (by rw [hc]; simp)) hnot
    · rw [hc]
      exact List.sublist_append_right c _
  exact List.cons_sublist_cons.mp (hrest.trans h₂)

/-- A dictionary with unique keys, in order of first insertion. -/
structure Dict (κ ν : Type*) where
  /-- The entries in insertion order. -/
  entries : List (κ × ν)
  /-- No key occurs twice. -/
  nodup : (entries.map Prod.fst).Nodup

namespace Dict

/-- The dictionary without entries. -/
def empty : Dict κ ν := ⟨[], List.nodup_nil⟩

/-- The value stored under a key, if there is one. -/
def get? (d : Dict κ ν) (k : κ) : Option ν := d.entries.lookup k

/-- Store a value under a key, keeping the place of a key that is present. -/
def insert (d : Dict κ ν) (k : κ) (v : ν) : Dict κ ν where
  entries := assocSet k v d.entries
  nodup := by
    rw [keys_assocSet]
    split
    · exact d.nodup
    · rename_i h
      exact d.nodup.append (List.nodup_singleton k) (by simpa using h)

/-- Keep the entries whose keys pass a test. -/
def filterKeys (d : Dict κ ν) (p : κ → Bool) : Dict κ ν where
  entries := d.entries.filter fun e => p e.1
  nodup := d.nodup.sublist (List.filter_sublist.map Prod.fst)

/-- The stored values in insertion order. -/
def values (d : Dict κ ν) : List ν := d.entries.map Prod.snd

/-- An empty dict has no key. -/
@[simp] theorem get?_empty (k : κ) : (empty : Dict κ ν).get? k = none := rfl

/-- A value is found under the key that it was put under. -/
@[simp] theorem get?_insert_self (d : Dict κ ν) (k : κ) (v : ν) :
    (d.insert k v).get? k = some v :=
  lookup_assocSet_self k v d.entries

/-- The other keys keep their values. -/
@[simp] theorem get?_insert_ne {k k' : κ} (d : Dict κ ν) (h : k' ≠ k) (v : ν) :
    (d.insert k v).get? k' = d.get? k' :=
  lookup_assocSet_ne h v d.entries

/-- Putting the value that is there changes nothing. -/
theorem insert_of_get? {d : Dict κ ν} {k : κ} {v : ν} (h : d.get? k = some v) : d.insert k v = d := by
  cases d with
  | mk entries nodup =>
    have hsame : assocSet k v entries = entries := assocSet_of_lookup h
    simp [insert, hsame]

/-- What a key reads after a write, in one equation. -/
theorem get?_insert (d : Dict κ ν) (k k' : κ) (v : ν) :
    (d.insert k v).get? k' = if k' = k then some v else d.get? k' := by
  by_cases h : k' = k
  · subst h; simp
  · simp [h]

/-- An entry is listed exactly when its key reads its value. -/
theorem mem_entries_iff {d : Dict κ ν} {k : κ} {v : ν} :
    (k, v) ∈ d.entries ↔ d.get? k = some v := by
  unfold get?
  have hnodup := d.nodup
  generalize d.entries = l at hnodup
  induction l with
  | nil => simp
  | cons e l ih =>
    obtain ⟨k₀, v₀⟩ := e
    simp only [List.map_cons, List.nodup_cons] at hnodup
    by_cases h : k = k₀
    · subst h
      have hnot : (k, v) ∉ l := fun hmem =>
        hnodup.1 (List.mem_map.mpr ⟨(k, v), hmem, rfl⟩)
      simp [hnot, eq_comm]
    · simp [lookup_cons_eq_ite, h, ih hnodup.2]

/-- A value is listed exactly when some key reads it. -/
theorem mem_values_iff {d : Dict κ ν} {v : ν} :
    v ∈ d.values ↔ ∃ k, d.get? k = some v := by
  simp only [values, List.mem_map, ← mem_entries_iff]
  constructor
  · rintro ⟨⟨k, v'⟩, hmem, rfl⟩
    exact ⟨k, hmem⟩
  · rintro ⟨k, hmem⟩
    exact ⟨(k, v), hmem, rfl⟩

/-- Names that tell the keys apart are taken once: where the name of a value determines its
key, no name is listed twice. -/
theorem nodup_filterMap_values {β : Type*} {d : Dict κ ν} {name : ν → Option β} (key : β → κ)
    (hkey : ∀ k v b, d.get? k = some v → name v = some b → key b = k) :
    (d.values.filterMap name).Nodup := by
  have hentries : ∀ e ∈ d.entries, ∀ b, name e.2 = some b → key b = e.1 := by
    intro e he b hb
    exact hkey e.1 e.2 b (mem_entries_iff.mp he) hb
  have hnodup := d.nodup
  unfold values
  generalize d.entries = l at hentries hnodup
  have hsub : (((l.map Prod.snd).filterMap name).map key).Sublist (l.map Prod.fst) := by
    clear hnodup
    induction l with
    | nil => simp
    | cons e l ih =>
      have hrest := ih fun e' he' => hentries e' (List.mem_cons_of_mem e he')
      cases hname : name e.2 with
      | none =>
        rw [List.map_cons, List.filterMap_cons_none hname, List.map_cons]
        exact hrest.cons e.1
      | some b =>
        rw [List.map_cons, List.filterMap_cons_some hname, List.map_cons, List.map_cons,
          hentries e List.mem_cons_self b hname]
        exact hrest.cons_cons e.1
  exact (hnodup.sublist hsub).of_map

/-- A key that passes the test keeps its value, the others lose it. -/
theorem get?_filterKeys (d : Dict κ ν) (p : κ → Bool) (k : κ) :
    (d.filterKeys p).get? k = if p k then d.get? k else none := by
  unfold get?
  show (d.entries.filter fun e => p e.1).lookup k = _
  generalize d.entries = l
  induction l with
  | nil => simp
  | cons e l ih =>
    obtain ⟨k₀, v₀⟩ := e
    rw [List.filter_cons, lookup_cons_eq_ite]
    by_cases hk : k = k₀
    · subst hk
      by_cases hp : p k = true
      · simp [hp]
      · simpa [hp] using ih
    · by_cases hp : p k₀ = true
      · simp only [hp, if_true, lookup_cons_eq_ite, if_neg hk, ih]
      · simp only [hp, Bool.false_eq_true, if_false, if_neg hk, ih]

/-- A new key goes to the end. -/
theorem entries_insert_of_none {d : Dict κ ν} {k : κ} (v : ν) (h : d.get? k = none) :
    (d.insert k v).entries = d.entries ++ [(k, v)] := by
  unfold get? at h
  show assocSet k v d.entries = d.entries ++ [(k, v)]
  generalize d.entries = l at h
  induction l with
  | nil => rfl
  | cons e l ih =>
    obtain ⟨k₀, v₀⟩ := e
    rw [lookup_cons_eq_ite] at h
    by_cases hk : k = k₀
    · simp [hk] at h
    · rw [if_neg hk] at h
      rw [assocSet, if_neg (Ne.symm hk), ih h, List.cons_append]

/-- A key that is present keeps its place. -/
theorem entries_insert_of_split {d : Dict κ ν} {k : κ} {v : ν} {l₁ l₂ : List (κ × ν)}
    (h : d.entries = l₁ ++ (k, v) :: l₂) (v' : ν) : (d.insert k v').entries = l₁ ++ (k, v') :: l₂ := by
  have hnodup := d.nodup
  show assocSet k v' d.entries = l₁ ++ (k, v') :: l₂
  rw [h] at hnodup ⊢
  clear h
  induction l₁ with
  | nil => simp [assocSet]
  | cons e l₁ ih =>
    obtain ⟨k₀, v₀⟩ := e
    rw [List.cons_append, List.map_cons, List.nodup_cons] at hnodup
    have hne : k₀ ≠ k := by
      rintro rfl
      exact hnodup.1 (by simp)
    rw [List.cons_append, assocSet, if_neg hne, ih hnodup.2, List.cons_append]

/-- A stored value splits the entries. -/
theorem split_of_get? {d : Dict κ ν} {k : κ} {v : ν} (h : d.get? k = some v) :
    ∃ l₁ l₂, d.entries = l₁ ++ (k, v) :: l₂ :=
  List.append_of_mem (mem_entries_iff.mpr h)

/-- Replacing a value keeps the number of keys. -/
theorem length_insert_of_get? {d : Dict κ ν} {k : κ} {v : ν} (h : d.get? k = some v) (v' : ν) :
    (d.insert k v').entries.length = d.entries.length := by
  obtain ⟨l₁, l₂, hentries⟩ := split_of_get? h
  rw [entries_insert_of_split hentries, hentries]
  simp

/-- A new key is one more. -/
theorem length_insert_of_none {d : Dict κ ν} {k : κ} (v : ν) (h : d.get? k = none) :
    (d.insert k v).entries.length = d.entries.length + 1 := by
  rw [entries_insert_of_none v h, List.length_append, List.length_singleton]

/-- Dicts with the same values have the same number of keys. -/
theorem length_eq_of_get? {d d' : Dict κ ν} (h : ∀ k, d.get? k = d'.get? k) :
    d.entries.length = d'.entries.length := by
  have hmem : ∀ {e e' : Dict κ ν}, (∀ k, e.get? k = e'.get? k) → ∀ k, k ∈ e.entries.map Prod.fst →
      k ∈ e'.entries.map Prod.fst := by
    intro e e' hsame k hk
    obtain ⟨x, hx, rfl⟩ := List.mem_map.mp hk
    exact List.mem_map_of_mem (mem_entries_iff.mpr (hsame x.1 ▸ mem_entries_iff.mp hx))
  have hperm : (d.entries.map Prod.fst).Perm (d'.entries.map Prod.fst) :=
    (List.perm_ext_iff_of_nodup d.nodup d'.nodup).mpr fun k => ⟨hmem h k, hmem (fun k => (h k).symm) k⟩
  simpa using hperm.length_eq

/-- After several writes a key reads the last value written under it. -/
theorem get?_foldl_insert (l : List (κ × ν)) (d : Dict κ ν) (k : κ) :
    (l.foldl (fun d e => d.insert e.1 e.2) d).get? k =
      (((l.filter fun e => e.1 = k).map Prod.snd).getLast?).or (d.get? k) := by
  induction l generalizing d with
  | nil => rfl
  | cons e l ih =>
    rw [List.foldl_cons, ih, get?_insert]
    by_cases hk : e.1 = k
    · rw [List.filter_cons_of_pos (by simpa using hk), List.map_cons, List.getLast?_cons, if_pos hk.symm]
      cases ((l.filter fun e => e.1 = k).map Prod.snd).getLast? <;> rfl
    · rw [List.filter_cons_of_neg (by simpa using hk), if_neg (Ne.symm hk)]

/-- Writes of keys that are new and pairwise different are listed one after the other. -/
theorem entries_foldl_insert (l : List (κ × ν)) (d : Dict κ ν) (hl : (l.map Prod.fst).Nodup)
    (hnew : ∀ e ∈ l, d.get? e.1 = none) :
    (l.foldl (fun d e => d.insert e.1 e.2) d).entries = d.entries ++ l := by
  induction l generalizing d with
  | nil => simp
  | cons e l ih =>
    rw [List.map_cons, List.nodup_cons] at hl
    have hrest : ∀ e' ∈ l, (d.insert e.1 e.2).get? e'.1 = none := by
      intro e' he'
      have hne : e'.1 ≠ e.1 := fun h => hl.1 (h ▸ List.mem_map_of_mem he')
      rw [get?_insert_ne d hne]
      exact hnew e' (List.mem_cons_of_mem _ he')
    rw [List.foldl_cons, ih _ hl.2 hrest, entries_insert_of_none _ (hnew e List.mem_cons_self)]
    simp

end Dict

end Base
