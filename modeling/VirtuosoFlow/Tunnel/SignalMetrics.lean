import Mathlib.Data.List.ReduceOption
import VirtuosoFlow.Base.Runs
import VirtuosoFlow.Tunnel.Result

/-!
# Metrics of the traced signals

The simulation wrapper `cellview_spectre_job.py` takes the last values of a sweep from a sectioned
analysis file: `_san` and `_parse_psf_ascii_final`. A metric is named after the signal and its unit,
and two signals can come under one name.
-/

namespace VirtuosoFlow.Tunnel

open Base

/-- `_san(name)`: `re.sub(r"[^0-9A-Za-z]+", "_", name).strip("_")`. -/
def san (name : List Char) : List Char := stripSep '_' (replaceRuns Char.isAlphanum '_' false name)

/-- `"([^"]+)"` at the front of a text: what it matches and what follows it. -/
def quotedText : List Char → Option (List Char × List Char)
  | '"' :: rest =>
    let text := rest.takeWhile (· != '"')
    match rest.dropWhile (· != '"') with
    | '"' :: after => if text.isEmpty then none else some (text, after)
    | _ => none
  | _ => none

/-- `\s+` at the front of a text: what follows it. -/
def afterSpaces (s : List Char) : Option (List Char) :=
  if s.head?.any isPySpace then some (s.dropWhile isPySpace) else none

/-- The name and the unit in a line of the TRACE section: `"([^"]+)"\s+"([^"]+)"`. -/
def traceSignal (line : List Char) : Option (List Char × List Char) := do
  let (name, rest) ← quotedText line
  let (unit, _) ← quotedText (← afterSpaces rest)
  return (name, unit)

/-- The name and the word in a line of the VALUE section: `"([^"]+)"\s+(\S+)\s*$`. -/
def valueEntry (line : List Char) : Option (List Char × List Char) := do
  let (name, rest) ← quotedText line
  let rest ← afterSpaces rest
  let word := rest.takeWhile (!isPySpace ·)
  if !word.isEmpty && (rest.dropWhile (!isPySpace ·)).all isPySpace then some (name, word) else none

/-- The lines that begin a section. -/
def sectionNames : List (List Char) :=
  ["HEADER".toList, "TYPE".toList, "SWEEP".toList, "TRACE".toList, "VALUE".toList, "END".toList]

/-- The local variables of `_parse_psf_ascii_final`. -/
structure PsfScan where
  units : Dict (List Char) (List Char)
  last : Dict (List Char) PyFloat
  current : Option (List Char)

/-- One line of the file; `float(word)` is `none` where it raises `ValueError`. -/
def PsfScan.read (floatOf : String → Option PyFloat) (st : PsfScan) (raw : List Char) : PsfScan :=
  let line := strip raw
  if line ∈ sectionNames then { st with current := some line }
  else if st.current = some "TRACE".toList then
    match traceSignal line with
    | some (name, unit) => { st with units := st.units.insert name unit }
    | none => st
  else if st.current = some "VALUE".toList then
    match valueEntry line with
    | some (name, word) =>
      if (st.units.get? name).isSome then
        { st with last := st.last.insert name ((floatOf (String.ofList word)).getD .nan) }
      else st
    | none => st
  else st

/-- A signal: its name and its unit. -/
abbrev Signal := List Char × List Char

/-- What the name of a metric begins with. -/
def unitPrefix (unit : List Char) : List Char :=
  if unit = ['V'] then "V_".toList else if unit = ['I'] then "I_".toList else []

/-- The name of the metric of a signal. -/
def metricName (signal : Signal) : List Char := unitPrefix signal.2 ++ san signal.1

/-- `_parse_psf_ascii_final(path)` of a file with these lines. -/
def parsePsfAsciiFinal (floatOf : String → Option PyFloat) (lines : List (List Char)) :
    Dict (List Char) PyFloat :=
  let st := lines.foldl (PsfScan.read floatOf) ⟨.empty, .empty, none⟩
  st.last.entries.foldl (fun out e => out.insert (metricName (e.1, (st.units.get? e.1).getD [])) e.2) .empty

section Names

/-- The runs of ASCII letters and digits in a name. -/
abbrev alnumRuns (name : List Char) : List (List Char) := runs Char.isAlphanum name

/-- The units that give the metric a prefix. -/
def Prefixed (unit : List Char) : Prop := unit = ['V'] ∨ unit = ['I']

instance : DecidablePred Prefixed := fun unit => inferInstanceAs (Decidable (unit = ['V'] ∨ unit = ['I']))

/-- A signal with a unit prefix and one without: the runs of the other are the unit and the runs of
the first, which has some. -/
def Shadows (s s' : Signal) : Prop :=
  Prefixed s.2 ∧ ¬ Prefixed s'.2 ∧ alnumRuns s.1 ≠ [] ∧ alnumRuns s'.1 = s.2 :: alnumRuns s.1

instance (s s' : Signal) : Decidable (Shadows s s') :=
  inferInstanceAs (Decidable (_ ∧ _ ∧ _ ∧ _))

/-- Two signals that come under one metric name. -/
def Clash (s s' : Signal) : Prop :=
  (alnumRuns s.1 = alnumRuns s'.1 ∧ (s.2 = s'.2 ∨ ¬ Prefixed s.2 ∧ ¬ Prefixed s'.2)) ∨
    Shadows s s' ∨ Shadows s' s

instance (s s' : Signal) : Decidable (Clash s s') := inferInstanceAs (Decidable (_ ∨ _ ∨ _))

/-- The texts between underscores when these runs are put together; without runs it is the empty text. -/
def orEmpty : List (List Char) → List (List Char)
  | [] => [[]]
  | run :: others => run :: others

/-- No words are joined to nothing, as one empty word is. -/
theorem intercalate_orEmpty (ws : List (List Char)) : ['_'].intercalate (orEmpty ws) = ['_'].intercalate ws := by
  cases ws <;> rfl

/-- A word in front of others, or of one that is empty. -/
theorem intercalate_cons_orEmpty (w : List Char) (ws : List (List Char)) :
    ['_'].intercalate (w :: orEmpty ws) = w ++ '_' :: ['_'].intercalate ws := by
  cases ws <;> simp [orEmpty, List.intercalate_cons_cons]

/-- The texts that a metric name has between its underscores. -/
def pieces (s : Signal) : List (List Char) :=
  if Prefixed s.2 then s.2 :: orEmpty (alnumRuns s.1) else orEmpty (alnumRuns s.1)

/-- The name of a metric, from its pieces. -/
theorem metricName_eq (s : Signal) : metricName s = ['_'].intercalate (pieces s) := by
  have hsan : san s.1 = ['_'].intercalate (alnumRuns s.1) :=
    stripSep_replaceRuns rfl s.1
  unfold metricName unitPrefix pieces
  by_cases hv : s.2 = ['V']
  · rw [if_pos hv, if_pos (.inl hv), intercalate_cons_orEmpty, hsan, hv]
    rfl
  · by_cases hi : s.2 = ['I']
    · rw [if_neg hv, if_pos hi, if_pos (.inr hi), intercalate_cons_orEmpty, hsan, hi]
      rfl
    · have hplain : ¬ Prefixed s.2 := not_or.mpr ⟨hv, hi⟩
      rw [if_neg hv, if_neg hi, if_neg hplain, intercalate_orEmpty, hsan, List.nil_append]

/-- Runs are not empty and free of underscores. -/
theorem alnumRuns_plain {name run : List Char} (h : run ∈ alnumRuns name) : run ≠ [] ∧ '_' ∉ run := by
  obtain ⟨hne, hkept⟩ := runs_plain h
  exact ⟨hne, fun hmem => absurd (hkept '_' hmem) (by decide)⟩

/-- A piece is empty or one of the words. -/
theorem mem_orEmpty {ws : List (List Char)} {piece : List Char} (h : piece ∈ orEmpty ws) :
    piece = [] ∨ piece ∈ ws := by
  cases ws with
  | nil => exact .inl (List.mem_singleton.mp h)
  | cons run others => exact .inr h

/-- There are pieces, and none holds an underscore. -/
theorem pieces_plain (s : Signal) : pieces s ≠ [] ∧ ∀ piece ∈ pieces s, '_' ∉ piece := by
  have hruns : ∀ piece ∈ orEmpty (alnumRuns s.1), '_' ∉ piece := by
    intro piece hpiece
    rcases mem_orEmpty hpiece with rfl | hmem
    · exact List.not_mem_nil
    · exact (alnumRuns_plain hmem).2
  have hne : orEmpty (alnumRuns s.1) ≠ [] := by
    cases alnumRuns s.1 <;> exact List.cons_ne_nil _ _
  unfold pieces
  split
  · rename_i hprefixed
    refine ⟨List.cons_ne_nil _ _, fun piece hpiece => ?_⟩
    rcases List.mem_cons.mp hpiece with rfl | hpiece
    · rcases hprefixed with hunit | hunit <;> rw [hunit] <;> decide
    · exact hruns piece hpiece
  · exact ⟨hne, hruns⟩

/-- No name has an empty run, so the empty text stands only where there are no runs. -/
theorem orEmpty_eq_of_nil_mem {name : List Char} (h : [] ∈ orEmpty (alnumRuns name)) : alnumRuns name = [] := by
  cases hruns : alnumRuns name with
  | nil => rfl
  | cons run others =>
    have hmem : [] ∈ alnumRuns name := by
      rw [hruns] at h ⊢
      exact h
    exact absurd rfl (alnumRuns_plain hmem).1

/-- The words can be told from the pieces. -/
theorem orEmpty_inj {name name' : List Char} :
    orEmpty (alnumRuns name) = orEmpty (alnumRuns name') ↔ alnumRuns name = alnumRuns name' := by
  refine ⟨fun h => ?_, fun h => by rw [h]⟩
  by_cases hnil : [] ∈ orEmpty (alnumRuns name)
  · rw [orEmpty_eq_of_nil_mem hnil, orEmpty_eq_of_nil_mem (h ▸ hnil)]
  · have hnil' : [] ∉ orEmpty (alnumRuns name') := h ▸ hnil
    cases hruns : alnumRuns name with
    | nil => simp [hruns, orEmpty] at hnil
    | cons run others =>
      cases hruns' : alnumRuns name' with
      | nil => simp [hruns', orEmpty] at hnil'
      | cons run' others' =>
        rw [hruns, hruns'] at h
        exact h

/-- A prefix in front gives the runs of another name only where there are runs behind it. -/
theorem cons_orEmpty_eq {unit name name' : List Char} (hunit : unit ≠ []) :
    unit :: orEmpty (alnumRuns name) = orEmpty (alnumRuns name') ↔
      alnumRuns name ≠ [] ∧ alnumRuns name' = unit :: alnumRuns name := by
  cases hruns' : alnumRuns name' with
  | nil => simp [orEmpty, hunit]
  | cons run' others' =>
    cases hruns : alnumRuns name with
    | nil =>
      refine iff_of_false (fun h => ?_) fun h => h.1 rfl
      obtain ⟨-, hrest⟩ := List.cons.inj h
      have hmem : [] ∈ alnumRuns name' := hruns' ▸ List.mem_cons_of_mem run' (hrest ▸ List.mem_cons_self)
      exact (alnumRuns_plain hmem).1 rfl
    | cons run others => simp [orEmpty, eq_comm]

/-- A unit with a prefix is not empty. -/
theorem Prefixed.ne_nil {unit : List Char} (h : Prefixed unit) : unit ≠ [] := by
  rcases h with h | h <;> rw [h] <;> exact List.cons_ne_nil _ _

/-- Two signals come under one metric name exactly when they clash. -/
theorem metricName_eq_iff (s s' : Signal) : metricName s = metricName s' ↔ Clash s s' := by
  have hpieces : metricName s = metricName s' ↔ pieces s = pieces s' := by
    rw [metricName_eq, metricName_eq]
    refine ⟨fun h => ?_, fun h => by rw [h]⟩
    have hsplit := congrArg (List.splitOn '_') h
    rwa [List.splitOn_intercalate '_' (pieces_plain s).2 (pieces_plain s).1,
      List.splitOn_intercalate '_' (pieces_plain s').2 (pieces_plain s').1] at hsplit
  rw [hpieces]
  unfold pieces Clash Shadows
  by_cases hs : Prefixed s.2 <;> by_cases hs' : Prefixed s'.2
  · rw [if_pos hs, if_pos hs', List.cons.injEq, orEmpty_inj]
    simp [hs, hs', and_comm]
  · rw [if_pos hs, if_neg hs', cons_orEmpty_eq hs.ne_nil]
    have hne : s.2 ≠ s'.2 := fun h => hs' (h ▸ hs)
    simp [hs, hs', hne]
  · rw [if_neg hs, if_pos hs', eq_comm, cons_orEmpty_eq hs'.ne_nil]
    have hne : s.2 ≠ s'.2 := fun h => hs (h ▸ hs')
    simp [hs, hs', hne]
  · rw [if_neg hs, if_neg hs', orEmpty_inj]
    simp [hs, hs']

end Names

/-- The lines of a sectioned analysis file: the sections before TRACE, the lines of the TRACE and of
the VALUE section below their names, and what begins with END. -/
structure AnalysisFile where
  front : List (List Char)
  traceName : List Char
  trace : List (List Char)
  valueName : List Char
  value : List (List Char)
  back : List (List Char)
  front_plain : ∀ raw ∈ front, strip raw ≠ "TRACE".toList ∧ strip raw ≠ "VALUE".toList
  traceName_eq : strip traceName = "TRACE".toList
  trace_plain : ∀ raw ∈ trace, strip raw ∉ sectionNames
  valueName_eq : strip valueName = "VALUE".toList
  value_plain : ∀ raw ∈ value, strip raw ∉ sectionNames
  back_end : ∀ raw ∈ back.head?, strip raw = "END".toList
  back_plain : ∀ raw ∈ back, strip raw ≠ "TRACE".toList ∧ strip raw ≠ "VALUE".toList

namespace AnalysisFile

variable (floatOf : String → Option PyFloat) (a : AnalysisFile)

/-- All lines of the file. -/
def lines : List (List Char) := a.front ++ a.traceName :: a.trace ++ a.valueName :: a.value ++ a.back

/-- The signals that the TRACE section lists with a unit. -/
def traced : List Signal := a.trace.filterMap fun raw => traceSignal (strip raw)

/-- What the VALUE section lists, line by line. -/
def listed : List (List Char × List Char) := a.value.filterMap fun raw => valueEntry (strip raw)

/-- What is read for a signal in the VALUE section, `none` for what is no number. -/
def readings (name : List Char) : List (Option PyFloat) :=
  (a.listed.filter fun e => e.1 = name).map fun e => floatOf (String.ofList e.2)

/-- The numbers of a signal in the VALUE section. -/
def numbers (name : List Char) : List PyFloat := (a.readings floatOf name).reduceOption

/-- A file whose TRACE section lists different names, each with a number in the VALUE section. -/
structure Measured : Prop where
  distinct : (a.traced.map Prod.fst).Nodup
  numbered : ∀ s ∈ a.traced, a.numbers floatOf s.1 ≠ []

/-- The metrics are exactly the traced signals, each with its last number. -/
def EachKept : Prop :=
  (parsePsfAsciiFinal floatOf a.lines).entries.Perm
    (a.traced.map fun s => (metricName s, (a.numbers floatOf s.1).getLastD .nan))

/-- What the VALUE section lists last for a signal is a number, or its last number is not a number
in the sense of floating point. -/
def EndsWithNumber (name : List Char) : Prop :=
  (a.readings floatOf name).getLast? ≠ some none ∨ (a.numbers floatOf name).getLast? = some .nan

instance (name : List Char) : Decidable (a.EndsWithNumber floatOf name) := inferInstanceAs (Decidable (_ ∨ _))

end AnalysisFile

section Scanning

variable {floatOf : String → Option PyFloat} {units : Dict (List Char) (List Char)}
  {last : Dict (List Char) PyFloat} {current : Option (List Char)}

/-- The name of a section begins it. -/
theorem read_of_section {st : PsfScan} {raw name : List Char} (hraw : strip raw = name)
    (h : name ∈ sectionNames) :
    st.read floatOf raw = { st with current := some name } := by
  unfold PsfScan.read
  rw [hraw, if_pos h]

/-- A line of the traces gives the unit of a signal. -/
theorem read_of_trace {raw : List Char} (h : strip raw ∉ sectionNames) :
    PsfScan.read floatOf ⟨units, last, some "TRACE".toList⟩ raw =
      ⟨(traceSignal (strip raw)).elim units fun s => units.insert s.1 s.2, last, some "TRACE".toList⟩ := by
  unfold PsfScan.read
  rw [if_neg h, if_pos rfl]
  cases traceSignal (strip raw) <;> rfl

/-- A line of the values gives the value of a signal that is traced. -/
theorem read_of_value {raw : List Char} (h : strip raw ∉ sectionNames) :
    PsfScan.read floatOf ⟨units, last, some "VALUE".toList⟩ raw =
      ⟨units, (valueEntry (strip raw)).elim last fun e => if (units.get? e.1).isSome then
        last.insert e.1 ((floatOf (String.ofList e.2)).getD .nan) else last, some "VALUE".toList⟩ := by
  have hsection : some "VALUE".toList ≠ some "TRACE".toList := by decide
  unfold PsfScan.read
  rw [if_neg h, if_neg hsection, if_pos rfl]
  cases valueEntry (strip raw) with
  | none => rfl
  | some e =>
    by_cases hknown : (units.get? e.1).isSome = true
    · simp [hknown]
    · simp [hknown]

/-- Outside the two sections lines do not matter. -/
theorem foldl_read_plain {lines : List (List Char)}
    (hcurrent : current ≠ some "TRACE".toList ∧ current ≠ some "VALUE".toList)
    (hlines : ∀ raw ∈ lines, strip raw ≠ "TRACE".toList ∧ strip raw ≠ "VALUE".toList) :
    ∃ current', lines.foldl (PsfScan.read floatOf) ⟨units, last, current⟩ = ⟨units, last, current'⟩ ∧
      current' ≠ some "TRACE".toList ∧ current' ≠ some "VALUE".toList := by
  induction lines generalizing current with
  | nil => exact ⟨current, rfl, hcurrent⟩
  | cons raw lines ih =>
    obtain ⟨hraw, hrest⟩ := List.forall_mem_cons.mp hlines
    rw [List.foldl_cons]
    by_cases hname : strip raw ∈ sectionNames
    · rw [read_of_section rfl hname]
      exact ih ⟨fun h => hraw.1 (Option.some.inj h), fun h => hraw.2 (Option.some.inj h)⟩ hrest
    · unfold PsfScan.read
      rw [if_neg hname, if_neg hcurrent.1, if_neg hcurrent.2]
      exact ih hcurrent hrest

/-- The lines of the TRACE section. -/
theorem foldl_read_trace {lines : List (List Char)} (hlines : ∀ raw ∈ lines, strip raw ∉ sectionNames) :
    lines.foldl (PsfScan.read floatOf) ⟨units, last, some "TRACE".toList⟩ =
      ⟨(lines.filterMap fun raw => traceSignal (strip raw)).foldl (fun units s => units.insert s.1 s.2) units, last,
        some "TRACE".toList⟩ := by
  induction lines generalizing units with
  | nil => rfl
  | cons raw lines ih =>
    obtain ⟨hraw, hrest⟩ := List.forall_mem_cons.mp hlines
    rw [List.foldl_cons, read_of_trace hraw, ih hrest, List.filterMap_cons]
    cases traceSignal (strip raw) <;> rfl

/-- The lines of the VALUE section: those of traced signals are stored. -/
theorem foldl_read_value {lines : List (List Char)} (hlines : ∀ raw ∈ lines, strip raw ∉ sectionNames) :
    lines.foldl (PsfScan.read floatOf) ⟨units, last, some "VALUE".toList⟩ =
      ⟨units, (((lines.filterMap fun raw => valueEntry (strip raw)).filter fun e => (units.get? e.1).isSome).map
        fun e => (e.1, (floatOf (String.ofList e.2)).getD .nan)).foldl (fun last e => last.insert e.1 e.2) last,
        some "VALUE".toList⟩ := by
  induction lines generalizing last with
  | nil => rfl
  | cons raw lines ih =>
    obtain ⟨hraw, hrest⟩ := List.forall_mem_cons.mp hlines
    rw [List.foldl_cons, read_of_value hraw, ih hrest, List.filterMap_cons]
    cases valueEntry (strip raw) with
    | none => rfl
    | some entry =>
      by_cases hknown : (units.get? entry.1).isSome = true
      · simp [hknown]
      · simp [hknown]

end Scanning

namespace AnalysisFile

variable {floatOf : String → Option PyFloat} {a : AnalysisFile}

/-- The units of the traced signals. -/
def unitsOf (a : AnalysisFile) : Dict (List Char) (List Char) :=
  a.traced.foldl (fun units s => units.insert s.1 s.2) .empty

/-- What is stored for the traced signals. -/
def lastOf (floatOf : String → Option PyFloat) (a : AnalysisFile) : Dict (List Char) PyFloat :=
  ((a.listed.filter fun e => (a.unitsOf.get? e.1).isSome).map
    fun e => (e.1, (floatOf (String.ofList e.2)).getD .nan)).foldl (fun last e => last.insert e.1 e.2) .empty

/-- What the whole file leaves in the local variables. -/
theorem foldl_read_lines : ∃ current, a.lines.foldl (PsfScan.read floatOf) ⟨.empty, .empty, none⟩ =
    ⟨a.unitsOf, a.lastOf floatOf, current⟩ := by
  obtain ⟨before, hfront, -⟩ :=
    @foldl_read_plain floatOf .empty .empty none a.front ⟨nofun, nofun⟩ a.front_plain
  unfold lines
  rw [List.foldl_append, List.foldl_append, List.foldl_append, hfront, List.foldl_cons, List.foldl_cons,
    read_of_section a.traceName_eq (by decide), foldl_read_trace a.trace_plain,
    read_of_section a.valueName_eq (by decide), foldl_read_value a.value_plain]
  change ∃ current, a.back.foldl (PsfScan.read floatOf) ⟨a.unitsOf, a.lastOf floatOf, some "VALUE".toList⟩ = _
  cases hback : a.back with
  | nil => exact ⟨_, rfl⟩
  | cons raw back =>
    have hend : strip raw = "END".toList := a.back_end raw (by rw [hback]; rfl)
    have hplain : ∀ raw ∈ back, strip raw ≠ "TRACE".toList ∧ strip raw ≠ "VALUE".toList := fun line hline =>
      a.back_plain line (hback ▸ List.mem_cons_of_mem raw hline)
    rw [List.foldl_cons, read_of_section hend (by decide)]
    obtain ⟨after, hafter, -⟩ := @foldl_read_plain floatOf a.unitsOf (a.lastOf floatOf) (some "END".toList) back
      ⟨by decide, by decide⟩ hplain
    exact ⟨after, hafter⟩

/-- A signal has the unit the TRACE section gives it. -/
theorem get?_unitsOf (h : (a.traced.map Prod.fst).Nodup) {name unit : List Char} :
    a.unitsOf.get? name = some unit ↔ (name, unit) ∈ a.traced := by
  have hentries : a.unitsOf.entries = a.traced := Dict.entries_foldl_insert _ _ h fun _ _ => rfl
  rw [← Dict.mem_entries_iff, hentries]

/-- What is stored under a name. -/
theorem get?_lastOf (name : List Char) : (a.lastOf floatOf).get? name =
    if (a.unitsOf.get? name).isSome then (a.readings floatOf name).getLast?.map fun r => r.getD .nan else none := by
  unfold lastOf readings
  rw [Dict.get?_foldl_insert, List.filter_map, List.filter_filter, List.map_map, Dict.get?_empty, Option.or_none]
  by_cases hknown : (a.unitsOf.get? name).isSome = true
  · have hfilter : (a.listed.filter fun e => e.1 = name && (a.unitsOf.get? e.1).isSome) =
        a.listed.filter fun e => e.1 = name := by
      refine List.filter_congr fun e _ => ?_
      by_cases he : e.1 = name
      · simp [he, hknown]
      · simp [he]
    rw [if_pos hknown, ← List.getLast?_map, List.map_map, ← hfilter]
    rfl
  · have hfilter : (a.listed.filter fun e => e.1 = name && (a.unitsOf.get? e.1).isSome) = [] := by
      refine List.filter_eq_nil_iff.mpr fun e _ => ?_
      by_cases he : e.1 = name
      · simp [he, hknown]
      · simp [he]
    rw [if_neg hknown]
    exact List.getLast?_eq_none_iff.mpr (List.map_eq_nil_iff.mpr hfilter)

/-- The value stored for a signal. -/
def lastReading (floatOf : String → Option PyFloat) (a : AnalysisFile) (name : List Char) : PyFloat :=
  ((a.readings floatOf name).getLast?.getD none).getD .nan

/-- The entries stored are the traced signals, each with its last reading. -/
theorem entries_lastOf (h : a.Measured floatOf) :
    (a.lastOf floatOf).entries.Perm (a.traced.map fun s => (s.1, a.lastReading floatOf s.1)) := by
  have hnodup : (a.lastOf floatOf).entries.Nodup := List.Nodup.of_map _ (a.lastOf floatOf).nodup
  have htraced : (a.traced.map fun s => (s.1, a.lastReading floatOf s.1)).Nodup := by
    refine List.Nodup.of_map Prod.fst ?_
    rw [List.map_map]
    exact h.distinct
  refine (List.perm_ext_iff_of_nodup hnodup htraced).mpr fun ⟨name, x⟩ => ?_
  rw [Dict.mem_entries_iff, get?_lastOf, List.mem_map]
  constructor
  · intro hx
    obtain ⟨hknown, hx⟩ := Option.ite_none_right_eq_some.mp hx
    obtain ⟨unit, hunit⟩ := Option.isSome_iff_exists.mp hknown
    obtain ⟨r, hr, rfl⟩ := Option.map_eq_some_iff.mp hx
    refine ⟨(name, unit), (get?_unitsOf h.distinct).mp hunit, ?_⟩
    simp [lastReading, hr]
  · rintro ⟨⟨name, unit⟩, hs, heq⟩
    obtain ⟨rfl, rfl⟩ := Prod.mk.inj heq
    have hne : a.readings floatOf name ≠ [] := by
      intro hnil
      refine h.numbered _ hs ?_
      simp [numbers, hnil, List.reduceOption]
    rw [if_pos (by rw [(get?_unitsOf h.distinct).mpr hs]; rfl), lastReading, List.getLast?_eq_some_getLast hne]
    rfl

/-- Under different metric names every traced signal has a metric, its last reading. -/
theorem entries_parsePsfAsciiFinal (h : a.Measured floatOf) (hnames : (a.traced.map metricName).Nodup) :
    (parsePsfAsciiFinal floatOf a.lines).entries.Perm
      (a.traced.map fun s => (metricName s, a.lastReading floatOf s.1)) := by
  obtain ⟨current, hscan⟩ := @foldl_read_lines floatOf a
  let metric := fun e : List Char × PyFloat => (metricName (e.1, (a.unitsOf.get? e.1).getD []), e.2)
  have hmetrics : ((a.lastOf floatOf).entries.map metric).Perm
      (a.traced.map fun s => (metricName s, a.lastReading floatOf s.1)) := by
    have hmap := (entries_lastOf h).map metric
    rw [List.map_map] at hmap
    refine hmap.trans (List.Perm.of_eq (List.map_congr_left fun s hs => ?_))
    have hunit : a.unitsOf.get? s.1 = some s.2 := (get?_unitsOf h.distinct).mpr hs
    show (metricName (s.1, (a.unitsOf.get? s.1).getD []), _) = _
    rw [hunit]
    rfl
  have hkeys : (((a.lastOf floatOf).entries.map metric).map Prod.fst).Nodup := by
    rw [(hmetrics.map Prod.fst).nodup_iff, List.map_map]
    exact hnames
  have hout : (parsePsfAsciiFinal floatOf a.lines).entries = (a.lastOf floatOf).entries.map metric := by
    have hwrites := Dict.entries_foldl_insert _ Dict.empty hkeys fun _ _ => rfl
    rw [List.foldl_map] at hwrites
    unfold parsePsfAsciiFinal
    rw [hscan]
    exact hwrites
  rw [hout]
  exact hmetrics

/-- The last reading is the last number where the signal ends with a number. -/
theorem lastReading_eq_iff {name : List Char} (h : a.numbers floatOf name ≠ []) :
    a.lastReading floatOf name = (a.numbers floatOf name).getLastD .nan ↔ a.EndsWithNumber floatOf name := by
  unfold lastReading EndsWithNumber
  unfold numbers at h ⊢
  generalize a.readings floatOf name = readings at h ⊢
  rcases List.eq_nil_or_concat readings with rfl | ⟨before, r, rfl⟩
  · exact absurd rfl h
  · cases r with
    | some x => simp [List.reduceOption_append]
    | none =>
      -- the last line is no number, so the code reads NaN there
      have hnumbers : (before.concat none).reduceOption = before.reduceOption := by
        simp [List.reduceOption_append]
      rw [hnumbers] at h ⊢
      rw [List.getLastD_eq_getLast?, List.getLast?_eq_some_getLast h]
      simp [eq_comm]

/-- Every traced signal of a measured file has its metric exactly when no two of them clash and each ends
with a number. -/
theorem signals_kept_iff (h : a.Measured floatOf) : a.EachKept floatOf ↔
    a.traced.Pairwise (fun s s' => ¬ Clash s s') ∧ ∀ s ∈ a.traced, a.EndsWithNumber floatOf s.1 := by
  have hclash : (a.traced.map metricName).Nodup ↔ a.traced.Pairwise fun s s' => ¬ Clash s s' := by
    rw [List.nodup_iff_pairwise_ne, List.pairwise_map]
    exact List.Pairwise.iff fun s s' => not_congr (metricName_eq_iff s s')
  rw [← hclash]
  unfold EachKept
  constructor
  · intro hkept
    have hnames : (a.traced.map metricName).Nodup := by
      have hkeys := ((hkept.map Prod.fst).nodup_iff).mp (parsePsfAsciiFinal floatOf a.lines).nodup
      rwa [List.map_map] at hkeys
    refine ⟨hnames, fun s hs => (lastReading_eq_iff (h.numbered s hs)).mp ?_⟩
    have hmem := ((entries_parsePsfAsciiFinal h hnames).symm.trans hkept).subset
      (List.mem_map_of_mem (f := fun s => (metricName s, a.lastReading floatOf s.1)) hs)
    obtain ⟨s', hs', heq⟩ := List.mem_map.mp hmem
    obtain ⟨hname, hvalue⟩ := Prod.mk.inj heq
    rw [← List.inj_on_of_nodup_map hnames hs' hs hname]
    rw [← List.inj_on_of_nodup_map hnames hs' hs hname] at hvalue
    exact hvalue.symm
  · rintro ⟨hnames, hends⟩
    refine (entries_parsePsfAsciiFinal h hnames).trans (List.Perm.of_eq (List.map_congr_left fun s hs => ?_))
    rw [(lastReading_eq_iff (h.numbered s hs)).mpr (hends s hs)]

end AnalysisFile

section Examples

/-- `float` on the words of the examples. -/
def sampleFloat (s : String) : Option PyFloat :=
  if s = "1" then some (.finite 1) else if s = "2" then some (.finite 2) else none

/-- A file with these lines in its two sections. -/
def sampleFile (trace value : List (List Char)) (htrace : ∀ raw ∈ trace, strip raw ∉ sectionNames)
    (hvalue : ∀ raw ∈ value, strip raw ∉ sectionNames) : AnalysisFile where
  front := ["HEADER".toList]
  traceName := "TRACE".toList
  trace := trace
  valueName := "VALUE".toList
  value := value
  back := ["END".toList]
  front_plain := by decide
  traceName_eq := rfl
  trace_plain := htrace
  valueName_eq := rfl
  value_plain := hvalue
  back_end := by decide
  back_plain := by decide

/-- The nodes `in` and `out`. -/
def sampleNodes : AnalysisFile :=
  sampleFile ["\"in\" \"V\"".toList, "\"out\" \"V\"".toList] ["\"in\" 1".toList, "\"out\" 2".toList]
    (by decide) (by decide)

/-- A bit of the bus `a` and the node `a_0`. -/
def sampleBus : AnalysisFile :=
  sampleFile ["\"a<0>\" \"V\"".toList, "\"a_0\" \"V\"".toList] ["\"a<0>\" 1".toList, "\"a_0\" 2".toList]
    (by decide) (by decide)

/-- Two nodes whose names stay apart. -/
theorem signals_kept_iff_sample : sampleNodes.EachKept sampleFloat := by
  have hmeasured : sampleNodes.Measured sampleFloat := ⟨by decide, by decide⟩
  exact (AnalysisFile.signals_kept_iff hmeasured).mpr ⟨by decide, by decide⟩

/-- The bit and the node are both measured, and one metric is left. -/
theorem bus_bit_lost : sampleBus.Measured sampleFloat ∧ ¬ sampleBus.EachKept sampleFloat := by
  refine ⟨⟨by decide, by decide⟩, fun h => ?_⟩
  have hlength := h.length_eq
  exact absurd hlength (by decide)

end Examples

end VirtuosoFlow.Tunnel
