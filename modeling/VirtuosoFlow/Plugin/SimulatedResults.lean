import VirtuosoFlow.Plugin.ReplyText
import VirtuosoFlow.Plugin.SpectreWrapper
import VirtuosoFlow.Tunnel.DoneResults

/-!
# From the measurements to the result

The wrapper writes its measurements with `json.dump`; the runner parses the file, and the result store keeps what
`make_result` makes of it. Each measurement is in the result as a number or as a tag.
-/

namespace VirtuosoFlow.Plugin

open Base Base.Posix JsonText Tunnel

section Floats

variable {fmt : FloatFormat} {floatOf : String → Option PyFloat}

/-- `float(s)` gives floats. -/
def GivesFloats (fmt : FloatFormat) (floatOf : String → Option PyFloat) : Prop :=
  ∀ s q, floatOf s = some (.finite q) → ∃ text, fmt.parse text = .finite q

/-- A measurement that is finite is a float. -/
def IsFloat (fmt : FloatFormat) (x : PyFloat) : Prop := ∀ q, x = .finite q → ∃ text, fmt.parse text = .finite q

/-- A number that is read is a float, or not a number. -/
theorem isFloat_read (h : GivesFloats fmt floatOf) (s : String) : IsFloat fmt ((floatOf s).getD .nan) := by
  intro q hq
  cases hs : floatOf s with
  | none =>
    rw [hs] at hq
    cases hq
  | some x =>
    rw [hs] at hq
    exact h s q (hs.trans (congrArg some hq))

/-- What holds of all values of a dictionary and of those stored into it one by one holds of all values then. -/
theorem forall_foldl_insert {α κ ν : Type} [DecidableEq κ] {P : ν → Prop} {key : α → κ} {value : α → ν} (l : List α)
    {d : Dict κ ν} (hd : ∀ k v, d.get? k = some v → P v) (hl : ∀ a ∈ l, P (value a)) :
    ∀ k v, (l.foldl (fun d a => d.insert (key a) (value a)) d).get? k = some v → P v := by
  induction l generalizing d with
  | nil => exact hd
  | cons a l ih =>
    refine ih (fun k v hv => ?_) fun b hb => hl b (List.mem_cons_of_mem a hb)
    rw [Dict.get?_insert] at hv
    split at hv
    · exact Option.some.inj hv ▸ hl a List.mem_cons_self
    · exact hd k v hv

/-- The values read from a file are such. -/
theorem isFloat_parsePsf (h : GivesFloats fmt floatOf) (lines : List (List Char)) :
    ∀ e ∈ (parsePsfAsciiFinal floatOf lines).entries, IsFloat fmt e.2 := by
  have hscan : ∀ st : PsfScan, (∀ k v, st.last.get? k = some v → IsFloat fmt v) →
      ∀ k v, (lines.foldl (PsfScan.read floatOf) st).last.get? k = some v → IsFloat fmt v := by
    induction lines with
    | nil => exact fun st hst => hst
    | cons line lines ih =>
      intro st hst
      refine ih _ fun k v hv => ?_
      unfold PsfScan.read at hv
      dsimp only at hv
      split at hv
      · exact hst k v hv
      · split at hv
        · split at hv <;> exact hst k v hv
        · split at hv
          · split at hv
            · split at hv
              · rw [Dict.get?_insert] at hv
                split at hv
                · exact Option.some.inj hv ▸ isFloat_read h _
                · exact hst k v hv
              · exact hst k v hv
            · exact hst k v hv
          · exact hst k v hv
  have hlast := hscan ⟨.empty, .empty, none⟩ fun k v hv => by cases hv
  intro e he
  refine forall_foldl_insert (P := IsFloat fmt) _ (fun k v hv => by cases hv) (fun e he => ?_) e.1 e.2
    (Dict.mem_entries_iff.mp he)
  exact hlast e.1 e.2 (Dict.mem_entries_iff.mp he)

/-- Every measurement is a float. -/
theorem isFloat_measure (h : GivesFloats fmt floatOf) (files : List (List Char × List (List Char))) :
    ∀ name x, (measure floatOf files).get? name = some x → IsFloat fmt x := by
  have hnodes : ∀ lines name x, (nodeVoltages floatOf lines).get? name = some x → IsFloat fmt x :=
    fun lines => forall_foldl_insert _ (fun k v hv => by cases hv) fun e _ => isFloat_read h _
  unfold measure
  have hfold : ∀ (names : List (List Char)) (raw : Dict (List Char) PyFloat),
      (∀ name x, raw.get? name = some x → IsFloat fmt x) → ∀ name x,
        (names.foldl (fun raw name => (parsePsfAsciiFinal floatOf ((files.lookup name).getD [])).entries.foldl
          (fun raw e => raw.insert e.1 e.2) raw) raw).get? name = some x → IsFloat fmt x := by
    intro names
    induction names with
    | nil => exact fun raw hraw => hraw
    | cons name names ih =>
      exact fun raw hraw => ih _ (forall_foldl_insert _ hraw (isFloat_parsePsf h _))
  exact hfold _ _ (hnodes _)

end Floats

section Files

variable {fmt : FloatFormat} {raw : Dict (List Char) PyFloat} {prov : Obj} {name tag : String} {x : Json}

/-- The numbers are the finite values. -/
theorem mem_splitNumbers : (name, x) ∈ splitNumbers raw ↔
    ∃ q, raw.get? name.toList = some (.finite q) ∧ x = .float (.finite q) := by
  unfold splitNumbers
  rw [List.mem_filterMap]
  constructor
  · rintro ⟨⟨key, value⟩, hmem, heq⟩
    obtain ⟨q, hq, hpair⟩ := Option.map_eq_some_iff.mp heq
    obtain ⟨rfl, rfl⟩ := Prod.mk.inj hpair
    cases value with
    | finite p =>
      obtain rfl := Option.some.inj hq
      exact ⟨p, by rw [String.toList_ofList]; exact Dict.mem_entries_iff.mp hmem, rfl⟩
    | _ => cases hq
  · rintro ⟨q, hget, rfl⟩
    exact ⟨(name.toList, .finite q), Dict.mem_entries_iff.mpr hget, by simp [finite?]⟩

/-- The tags are those of the values that get one. -/
theorem mem_splitTags : (name, .str tag) ∈ splitTags raw ↔
    ∃ y, raw.get? name.toList = some y ∧ classify name.toList y = some tag := by
  unfold splitTags
  rw [List.mem_filterMap]
  constructor
  · rintro ⟨⟨key, value⟩, hmem, heq⟩
    obtain ⟨t, ht, hpair⟩ := Option.map_eq_some_iff.mp heq
    obtain ⟨rfl, hstr⟩ := Prod.mk.inj hpair
    obtain rfl := Json.str.inj hstr
    rw [String.toList_ofList]
    exact ⟨value, Dict.mem_entries_iff.mp hmem, ht⟩
  · rintro ⟨y, hget, hclass⟩
    exact ⟨(name.toList, y), Dict.mem_entries_iff.mpr hget, by simp [hclass]⟩

/-- A measurement without a tag is finite. -/
theorem finite_of_untagged {key : List Char} {y : PyFloat} (h : classify key y = none) : ∃ q, y = .finite q := by
  cases y with
  | finite q => exact ⟨q, rfl⟩
  | _ => cases h

/-- Members that are named after different entries have different names. -/
theorem nodup_members {l : List (List Char × PyFloat)} (hl : (l.map Prod.fst).Nodup)
    {member : List Char × PyFloat → Option (String × Json)}
    (hnamed : ∀ e m, member e = some m → m.1 = String.ofList e.1) : ((l.filterMap member).map Prod.fst).Nodup := by
  have hsub : ((l.filterMap member).map Prod.fst).Sublist ((l.map Prod.fst).map String.ofList) := by
    clear hl
    induction l with
    | nil => exact .slnil
    | cons e l ih =>
      cases hm : member e with
      | none => simpa [hm] using ih.cons (String.ofList e.1)
      | some m => simpa [hm, hnamed e m hm] using ih
  exact hsub.nodup (hl.map fun a b hab => String.ofList_inj.mp hab)

/-- What the wrapper writes is a value that Python can hold. -/
theorem wellFormed_output (hraw : ∀ name y, raw.get? name = some y → IsFloat fmt y)
    (hprov : WellFormed fmt (.obj prov)) : WellFormed fmt (wrapperOutput raw prov) := by
  have hnumbers : WellFormed fmt (.obj (splitNumbers raw)) := by
    refine wellFormed_obj_iff.mpr ⟨nodup_members raw.nodup fun e m hm => ?_, ?_⟩
    · obtain ⟨q, -, rfl⟩ := Option.map_eq_some_iff.mp hm
      rfl
    rintro ⟨key, y⟩ he
    obtain ⟨q, hq, rfl⟩ := mem_splitNumbers.mp he
    exact hraw _ _ hq q rfl
  have htags : WellFormed fmt (.obj (splitTags raw)) := by
    refine wellFormed_obj_iff.mpr ⟨nodup_members raw.nodup fun e m hm => ?_, fun e he => ?_⟩
    · obtain ⟨t, -, rfl⟩ := Option.map_eq_some_iff.mp hm
      rfl
    obtain ⟨e', -, heq⟩ := List.mem_filterMap.mp he
    obtain ⟨t, -, rfl⟩ := Option.map_eq_some_iff.mp heq
    exact wellFormed_str t
  refine wellFormed_obj_iff.mpr ⟨by simp, ?_⟩
  simp only [List.forall_mem_cons, List.not_mem_nil, false_imp_iff, implies_true, and_true]
  exact ⟨hnumbers, hprov, htags⟩

end Files

section Results

variable {fmt : FloatFormat} {env : Env} {raw : Dict (List Char) PyFloat} {job parsed prov metrics : Obj}

/-- The tunnel's `json.loads` reads what the wrapper's `json.dump` writes. -/
def ReadsDumps (fmt : FloatFormat) (env : Env) : Prop :=
  ∀ text v, loads fmt text.toList = some v → env.jsonLoads text = .ok v

/-- The numbers are finite, and stay as they are. -/
theorem extractMetrics_numbers (env : Env) {members : Obj}
    (h : members.lookup "metrics" = some (.obj (splitNumbers raw))) :
    extractMetrics env (.obj members) = splitNumbers raw := by
  unfold extractMetrics
  dsimp only
  rw [h]
  show (splitNumbers raw).filterMap (fun e => (coerceNumber env e.2).map (e.1, ·)) = splitNumbers raw
  have hkeep : ∀ e ∈ splitNumbers raw, (coerceNumber env e.2).map (e.1, ·) = some e := by
    rintro ⟨name, x⟩ he
    obtain ⟨q, -, rfl⟩ := mem_splitNumbers.mp he
    rfl
  rw [List.filterMap_congr hkeep, List.filterMap_some]

/-- The blocks of the file. -/
def parsedOutput (raw : Dict (List Char) PyFloat) (prov : Obj) : Obj :=
  if splitTags raw = [] then [("metrics", .obj (splitNumbers raw)), ("provenance", .obj prov)]
  else [("metrics", .obj (splitNumbers raw)), ("provenance", .obj prov), ("metric_quality", .obj (splitTags raw))]

/-- The metrics of what is read are the numbers. -/
theorem get_metrics_parsedOutput : Obj.get (parsedOutput raw prov) "metrics" = .obj (splitNumbers raw) := by
  unfold parsedOutput
  split <;> rfl

/-- Its provenance is that of the wrapper. -/
theorem get_provenance_parsedOutput : Obj.get (parsedOutput raw prov) "provenance" = .obj prov := by
  unfold parsedOutput
  split <;> rfl

/-- Its quality is made of the tags, if there are any. -/
theorem get_quality_parsedOutput : Obj.get (parsedOutput raw prov) "metric_quality" =
    if splitTags raw = [] then .null else .obj (splitTags raw) := by
  unfold parsedOutput
  split <;> rfl

/-- The runner parses the file back into its blocks. -/
theorem parse_output (hloads : ReadsDumps fmt env) (hvalue : WellFormed fmt (wrapperOutput raw prov))
    (hprov : prov ≠ []) :
    parseResultFile env (outputText fmt raw prov) = .ok (parsedOutput raw prov) := by
  have hread : env.jsonLoads (outputText fmt raw prov) = .ok (wrapperOutput raw prov) :=
    hloads _ _ (by rw [outputText, String.toList_ofList]; exact loads_dumps (some 2) hvalue)
  have hfirst : ((outputText fmt raw prov).toList.dropWhile isPySpace).head? = some '{' := by
    rw [outputText, String.toList_ofList]
    rfl
  have hmetrics : extractMetrics env (wrapperOutput raw prov) = splitNumbers raw := extractMetrics_numbers env rfl
  unfold parseResultFile parsedOutput
  simp only [hfirst, hread]
  rw [wrapperOutput] at hmetrics ⊢
  simp only [hmetrics]
  obtain ⟨e, rest, rfl⟩ := List.exists_cons_of_ne_nil hprov
  cases splitTags raw <;> rfl

/-- `make_result` leaves the other members alone. -/
theorem get_makeResult (env : Env) (data : Obj) {field : String}
    (hfield : field ∉ ["result_id", "metrics", "schema_version", "source", "created_at"]) :
    Obj.get (makeResult env data) field = Obj.get data field := by
  simp only [List.mem_cons, List.not_mem_nil, or_false, not_or] at hfield
  obtain ⟨hid, hmetrics, hversion, hsource, hcreated⟩ := hfield
  unfold makeResult
  dsimp only
  rw [Obj.get_setDefault_ne _ hcreated, Obj.get_setDefault_ne _ hsource, Obj.get_setDefault_ne _ hversion,
    Obj.get_set_ne _ hmetrics]
  split
  · rfl
  · exact Obj.get_set_ne _ hid _

/-- The record carries the tags of the file. -/
theorem get_quality_resultData (job : Obj) {tags : Obj} (metrics : Json)
    (h : Obj.get parsed "metric_quality" = if tags = [] then .null else .obj tags) :
    Obj.get (resultData job parsed metrics) "metric_quality" = if tags = [] then .null else .obj tags := by
  have hne : "metric_quality" ≠ "provenance" := by decide
  have htagged : ∀ data : Obj, Obj.get data "metric_quality" = .null →
      Obj.get (if (Obj.get parsed "metric_quality").truthy then
        Obj.set data "metric_quality" (Obj.get parsed "metric_quality") else data) "metric_quality" =
        if tags = [] then .null else .obj tags := by
    intro data hnone
    rw [h]
    cases tags with
    | nil => exact hnone
    | cons e rest => exact Obj.get_set_self _ _ _
  unfold resultData
  simp only [List.foldl_cons, List.foldl_nil]
  split
  · rw [Obj.get_set_ne _ hne]
    refine htagged _ ?_
    split
    · exact Obj.get_set_ne _ hne _
    · rfl
  · refine htagged _ ?_
    split
    · exact Obj.get_set_ne _ hne _
    · rfl

/-- The record carries where the measurements are from, and the session beside it. -/
theorem get_provenance_resultData (job : Obj) (metrics : Json) (hprov : prov ≠ [])
    (h : Obj.get parsed "provenance" = .obj prov) :
    ∃ kept, Obj.get (resultData job parsed metrics) "provenance" = .obj kept ∧
      ∀ field, field ≠ "session" → field ≠ "session_fingerprint" → kept.lookup field = prov.lookup field := by
  have hne : "provenance" ≠ "metric_quality" := by decide
  have htruthy : (Obj.get parsed "provenance").truthy = true := by
    rw [h]
    cases prov with
    | nil => exact absurd rfl hprov
    | cons e rest => rfl
  have hblocks : ∀ base : Obj, Obj.get (if (Obj.get parsed "metric_quality").truthy then
      Obj.set (Obj.set base "provenance" (Obj.get parsed "provenance")) "metric_quality"
        (Obj.get parsed "metric_quality")
      else Obj.set base "provenance" (Obj.get parsed "provenance")) "provenance" = .obj prov := by
    intro base
    split
    · rw [Obj.get_set_ne _ hne, Obj.get_set_self, h]
    · rw [Obj.get_set_self, h]
  unfold resultData
  simp only [List.foldl_cons, List.foldl_nil, htruthy, if_true, hblocks]
  split
  · refine ⟨_, Obj.get_set_self _ _ _, fun field hsession hfingerprint => ?_⟩
    have hstamped : (if (Obj.get job "session").truthy then Obj.set prov "session" (Obj.get job "session")
        else prov).lookup field = prov.lookup field := by
      split
      · exact Obj.lookup_set_ne _ hsession _
      · rfl
    split
    · exact (Obj.lookup_set_ne _ hfingerprint _).trans hstamped
    · exact hstamped
  · exact ⟨prov, hblocks _, fun _ _ _ => rfl⟩

end Results

section Simulations

variable {host : WrapperHost} {w : Tunnel.World} {job : Obj} {sim : Simulated}

/-- The values of a wrapper's job. -/
def WrapperJob.values (job : WrapperJob) : List Json :=
  [job.jobId, job.test, job.fingerprint, job.lib, job.cell, job.view]

/-- A value that is filled in is well formed. -/
theorem wellFormed_orMember {fmt : FloatFormat} {v data x : Json} {field : String} (hv : WellFormed fmt v)
    (hdata : WellFormed fmt data) (h : orMember v data field = some x) : WellFormed fmt x := by
  unfold orMember at h
  split at h
  · exact Option.some.inj h ▸ hv
  · split at h
    · rename_i members
      obtain rfl := Option.some.inj h
      unfold pyOr
      split
      · exact WellFormed.get hdata field
      · exact wellFormed_str ""
    · cases h

/-- The values that the environment gives are well formed. -/
theorem wellFormed_jobOfVars (host : WrapperHost) : ∀ v ∈ (jobOfVars host).values, WellFormed host.fmt v := by
  simp only [WrapperJob.values, jobOfVars, List.forall_mem_cons, List.not_mem_nil, false_imp_iff, implies_true,
    and_true]
  exact ⟨wellFormed_str _, wellFormed_str _, wellFormed_str _, wellFormed_str _, wellFormed_str _, wellFormed_str _⟩

/-- So are those of a job that is filled in. -/
theorem wellFormed_fillIn {fmt : FloatFormat} {job filled : WrapperJob} {data : Json}
    (hjob : ∀ v ∈ job.values, WellFormed fmt v) (hdata : WellFormed fmt data) (h : job.fillIn data = some filled) :
    ∀ v ∈ filled.values, WellFormed fmt v := by
  simp only [WrapperJob.values, List.forall_mem_cons, List.not_mem_nil, false_imp_iff, implies_true, and_true]
    at hjob ⊢
  obtain ⟨hid, htest, hfingerprint, hlib, hcell, hview⟩ := hjob
  cases data with
  | obj data =>
    have hcv : WellFormed fmt (pyOr (Obj.get data "cellview") (.obj [])) := by
      unfold pyOr
      split
      · exact WellFormed.get hdata _
      · exact wellFormed_empty
    simp only [WrapperJob.fillIn, Option.bind_eq_bind, Option.bind_eq_some_iff] at h
    obtain ⟨lib, hlib', cell, hcell', view, hview', test, htest', fingerprint, hfingerprint', id, hid', h⟩ := h
    obtain rfl := Option.some.inj h
    exact ⟨wellFormed_orMember hid hdata hid', wellFormed_orMember htest hdata htest',
      wellFormed_orMember hfingerprint hdata hfingerprint', wellFormed_orMember hlib hcv hlib',
      wellFormed_orMember hcell hcv hcell', wellFormed_orMember hview hcv hview'⟩
  | _ => cases h

/-- The values of a job are values that Python can hold. -/
theorem wellFormed_readJob {job : WrapperJob} (h : readJob host = some job) :
    ∀ v ∈ job.values, WellFormed host.fmt v := by
  have hvars := wellFormed_jobOfVars host
  unfold readJob at h
  dsimp only at h
  split at h
  · exact Option.some.inj h ▸ hvars
  · split at h
    · split at h
      · exact Option.some.inj h ▸ hvars
      · cases h
    · split at h
      · rename_i hloads
        exact wellFormed_fillIn hvars (Sexpr.wellFormed_loads hloads) h
      · exact Option.some.inj h ▸ hvars

/-- What `simulate` gives is what its parts give. -/
theorem parts_of_simulate (h : simulate host = some sim) :
    readJob host = some sim.job ∧ provenance host sim.job sim.deck sim.mode = some sim.prov ∧
      ∃ files, sim.raw = measure host.floatOf files := by
  simp only [simulate, Option.bind_eq_bind, Option.bind_eq_some_iff] at h
  obtain ⟨job, hjob, ⟨deck, mode⟩, -, h⟩ := h
  split at h
  · cases h
  · obtain ⟨prov, hprov, h⟩ := Option.bind_eq_some_iff.mp h
    split at h
    · obtain rfl := Option.some.inj h
      exact ⟨hjob, hprov, _, rfl⟩
    · cases h

/-- Where a simulation is from, member by member. -/
theorem prov_of_simulate (h : simulate host = some sim) : ∃ saved, WellFormed host.fmt saved ∧
    sim.prov = [("netlist_hash", .str ((host.sha256 sim.deck).getD "")), ("source_mode", .str sim.mode),
      ("cellview", .obj [("lib", sim.job.lib), ("cell", sim.job.cell), ("view", sim.job.view)]),
      ("saved_at", saved), ("fingerprint", sim.job.fingerprint)] := by
  obtain ⟨-, hprov, -⟩ := parts_of_simulate h
  obtain ⟨saved, hsaved, hprov⟩ := Option.bind_eq_some_iff.mp hprov
  refine ⟨saved, ?_, (Option.some.inj hprov).symm⟩
  unfold savedAt at hsaved
  split at hsaved
  · exact Option.some.inj hsaved ▸ wellFormed_str _
  · split at hsaved
    · obtain rfl := Option.some.inj hsaved
      split
      · trivial
      · exact wellFormed_str _
    · exact Option.some.inj hsaved ▸ trivial
    · cases hsaved

/-- What the wrapper writes is well formed. -/
theorem wellFormed_simulated (hfloats : GivesFloats host.fmt host.floatOf) (h : simulate host = some sim) :
    WellFormed host.fmt (wrapperOutput sim.raw sim.prov) := by
  obtain ⟨hjob, -, files, hraw⟩ := parts_of_simulate h
  obtain ⟨saved, hsaved, hprov⟩ := prov_of_simulate h
  have hvalues := wellFormed_readJob hjob
  simp only [WrapperJob.values, List.forall_mem_cons, List.not_mem_nil, false_imp_iff, implies_true, and_true]
    at hvalues
  obtain ⟨-, -, hfingerprint, hlib, hcell, hview⟩ := hvalues
  have hcellview : WellFormed host.fmt
      (.obj [("lib", sim.job.lib), ("cell", sim.job.cell), ("view", sim.job.view)]) := by
    refine wellFormed_obj_iff.mpr ⟨by simp, ?_⟩
    simp only [List.forall_mem_cons, List.not_mem_nil, false_imp_iff, implies_true, and_true]
    exact ⟨hlib, hcell, hview⟩
  refine wellFormed_output (hraw ▸ isFloat_measure hfloats files) ?_
  rw [hprov]
  refine wellFormed_obj_iff.mpr ⟨by simp, ?_⟩
  simp only [List.forall_mem_cons, List.not_mem_nil, false_imp_iff, implies_true, and_true]
  exact ⟨wellFormed_str _, wellFormed_str _, hcellview, hsaved, hfingerprint⟩

/-- The names that a job gives its cellview. -/
structure Names (job : Obj) (lib cell view : String) : Prop where
  cellview : ∃ cv, Obj.get job "cellview" = .obj cv ∧ Obj.get cv "lib" = .str lib ∧ Obj.get cv "cell" = .str cell ∧
    Obj.get cv "view" = .str view
  lib_ne : lib ≠ ""
  cell_ne : cell ≠ ""
  view_ne : view ≠ ""

/-- The file that the runner reads for a job is what the wrapper wrote that ran with the values of the job. -/
structure LeftBy (host : WrapperHost) (w : Tunnel.World) (job : Obj) (sim : Simulated) : Prop where
  ran : ∃ vars runDir, jobContext w.env job = .ok vars ∧
    simulate (host.within (vars ++ [runDir, w.env.simMetricsFile])) = some sim
  file : w.metricsFile = .contents (outputText host.fmt sim.raw sim.prov)
  reads : ReadsDumps host.fmt w.env

/-- The values that the runner sets are what the wrapper takes for the job. -/
theorem jobOfVars_within (host : WrapperHost) (id lib cell view test fingerprint saved dir file : String) :
    let job := jobOfVars (host.within [id, lib, cell, view, test, fingerprint, saved, dir, file])
    job.lib = .str lib ∧ job.cell = .str cell ∧ job.view = .str view ∧ job.fingerprint = .str fingerprint := by
  have hvalue : ∀ value : String, (if value = "" then "" else value) = value :=
    fun value => ite_eq_right_iff.mpr Eq.symm
  exact ⟨congrArg Json.str (hvalue lib), congrArg Json.str (hvalue cell), congrArg Json.str (hvalue view),
    congrArg Json.str (hvalue fingerprint)⟩

/-- A job with names needs no `job.json`. -/
theorem readJob_of_names {lib cell view : String} (hlib : (jobOfVars host).lib = .str lib)
    (hcell : (jobOfVars host).cell = .str cell) (hview : (jobOfVars host).view = .str view)
    (hne : lib ≠ "" ∧ cell ≠ "" ∧ view ≠ "") : readJob host = some (jobOfVars host) := by
  have hnamed : (jobOfVars host).named = true := by
    simp [WrapperJob.named, hlib, hcell, hview, Json.truthy, hne]
  unfold readJob
  simp [hnamed]

/-- A wrapper that runs with the names of a job says in its measurements where they are from. -/
theorem names_of_leftBy {lib cell view : String} (h : LeftBy host w job sim) (hnames : Names job lib cell view) :
    sim.prov.lookup "cellview" = some (.obj [("lib", .str lib), ("cell", .str cell), ("view", .str view)]) ∧
      sim.prov.lookup "fingerprint" =
        some (.str (w.env.format (pyOr (Obj.get job "inputs_fingerprint") (.str "")))) := by
  obtain ⟨vars, runDir, hvars, hsim⟩ := h.ran
  obtain ⟨cv, hcv, hlib, hcell, hview⟩ := hnames.cellview
  have hcv' : pyOr (Obj.get job "cellview") (.obj []) = .obj cv := by
    rw [hcv]
    cases cv with
    | nil => rfl
    | cons e rest => rfl
  have hkept : ∀ name : String, name ≠ "" → w.env.format (pyOr (.str name) (.str "")) = name := by
    intro name hne
    simp [pyOr, Json.truthy, hne, Env.format]
  simp only [jobContext, hcv', attrGet, hlib, hcell, hview] at hvars
  obtain rfl := Except.ok.inj hvars
  simp only [List.map_cons, List.map_nil, List.cons_append, List.nil_append, hkept lib hnames.lib_ne,
    hkept cell hnames.cell_ne, hkept view hnames.view_ne] at hsim
  obtain ⟨hjob, -⟩ := parts_of_simulate hsim
  obtain ⟨saved, -, hprov⟩ := prov_of_simulate hsim
  obtain ⟨hlib', hcell', hview', hfingerprint⟩ := jobOfVars_within host
    (w.env.format (pyOr (Obj.get job "job_id") (.str ""))) lib cell view
    (w.env.format (pyOr (Obj.get job "test") (.str "")))
    (w.env.format (pyOr (Obj.get job "inputs_fingerprint") (.str "")))
    (w.env.format (pyOr (Obj.get job "saved_at") (.str ""))) runDir w.env.simMetricsFile
  have hread := readJob_of_names hlib' hcell' hview' ⟨hnames.lib_ne, hnames.cell_ne, hnames.view_ne⟩
  have hsame := Option.some.inj (hjob.symm.trans hread)
  rw [hprov, hsame, hlib', hcell', hview', hfingerprint]
  exact ⟨rfl, rfl⟩

/-- What a result says of a simulation: its numbers are the finite measurements, its tags are those of `classify`,
each measurement has a number or a tag, and where they are from is told as the wrapper told it, which for a job
with names is the job's own cellview and fingerprint. -/
structure Reports (w : Tunnel.World) (job : Obj) (sim : Simulated) (result : Obj) : Prop where
  numbers : ∃ metrics, Obj.get result "metrics" = .obj metrics ∧ ∀ name x, (name, x) ∈ metrics ↔
    ∃ q, sim.raw.get? name.toList = some (.finite q) ∧ x = .float (.finite q)
  tags : ∀ name tag, (∃ quality, Obj.get result "metric_quality" = .obj quality ∧ (name, .str tag) ∈ quality) ↔
    ∃ y, sim.raw.get? name.toList = some y ∧ classify name.toList y = some tag
  accounted : ∀ name y, sim.raw.get? name = some y → (∃ q, y = .finite q) ∨ ∃ tag, classify name y = some tag
  source : ∃ prov, Obj.get result "provenance" = .obj prov ∧
    (∀ field, field ≠ "session" → field ≠ "session_fingerprint" → prov.lookup field = sim.prov.lookup field) ∧
    ∀ lib cell view, Names job lib cell view →
      prov.lookup "cellview" = some (.obj [("lib", .str lib), ("cell", .str cell), ("view", .str view)]) ∧
      prov.lookup "fingerprint" = some (.str (w.env.format (pyOr (Obj.get job "inputs_fingerprint") (.str ""))))

/-- The runner refuses a file without numbers, and takes from another a result that reports the simulation. -/
theorem readResult_leftBy (hfloats : GivesFloats host.fmt host.floatOf) (h : LeftBy host w job sim) :
    (splitNumbers sim.raw = [] ∧ ∃ error, readResult w job = .ok (.inl error)) ∨
      (splitNumbers sim.raw ≠ [] ∧ ∃ result, readResult w job = .ok (.inr result) ∧ Reports w job sim result) := by
  obtain ⟨vars, runDir, -, hsim⟩ := h.ran
  have hvalue : WellFormed host.fmt (wrapperOutput sim.raw sim.prov) :=
    @wellFormed_simulated (host.within _) sim hfloats hsim
  obtain ⟨saved, -, hprov⟩ := prov_of_simulate hsim
  have hne : sim.prov ≠ [] := hprov ▸ List.cons_ne_nil _ _
  have hread : readResult w job = _ :=
    readResult_of_parsed h.file (parse_output h.reads hvalue hne) get_metrics_parsedOutput
  by_cases hempty : splitNumbers sim.raw = []
  · rw [if_pos hempty] at hread
    exact .inl ⟨hempty, _, hread⟩
  · rw [if_neg hempty] at hread
    refine .inr ⟨hempty, _, hread, ?_, fun name tag => ?_, fun name y _ => ?_, ?_⟩
    · obtain ⟨kept, hkept, hmem⟩ := @metrics_of_makeResult w.env _ _
        (lookup_metrics_resultData job (parsedOutput sim.raw sim.prov) (.obj (splitNumbers sim.raw)))
      refine ⟨kept, hkept, fun name x => (hmem name x).trans ⟨?_, ?_⟩⟩
      · rintro ⟨e, he, hnumber, -⟩
        obtain ⟨q, hq, rfl⟩ := mem_splitNumbers.mp he
        exact ⟨q, hq, (Option.some.inj hnumber).symm⟩
      · rintro ⟨q, hq, rfl⟩
        exact ⟨.float (.finite q), mem_splitNumbers.mpr ⟨q, hq, rfl⟩, rfl, trivial⟩
    · rw [get_makeResult _ _ (by decide), get_quality_resultData job _ get_quality_parsedOutput, ← mem_splitTags]
      constructor
      · rintro ⟨quality, hget, hmem⟩
        split at hget
        · cases hget
        · exact Json.obj.inj hget ▸ hmem
      · intro hmem
        exact ⟨_, if_neg (List.ne_nil_of_mem hmem), hmem⟩
    · cases htag : classify name y with
      | none => exact .inl (finite_of_untagged htag)
      | some tag => exact .inr ⟨tag, rfl⟩
    · obtain ⟨prov, hget, hlookup⟩ := get_provenance_resultData job (.obj (splitNumbers sim.raw)) hne
        get_provenance_parsedOutput
      refine ⟨prov, (get_makeResult _ _ (by decide)).trans hget, hlookup, fun lib cell view hnames => ?_⟩
      rw [hlookup "cellview" (by decide) (by decide), hlookup "fingerprint" (by decide) (by decide)]
      exact names_of_leftBy h hnames

end Simulations

section Runs

variable {host : WrapperHost} {jobId : Json} {command : List String} {k : Key} {t₀ : Tunnel} {s : Race}
  {h : List (Entry Race Race.Move (Except PyExc Json))}

/-- The command of the runner is the wrapper: the file that a step reads is what the wrapper left. -/
def Simulates (host : WrapperHost) (s : Race) (m : Race.Move) : Prop :=
  ∀ w job rid, m = .advance w → s.point = .readMetrics job rid → ∃ sim, LeftBy host w job sim

/-- The step that takes a result from the file. -/
theorem step_read {w : Tunnel.World} {job result : Obj} {rid : Json} (hpoint : s.point = .readMetrics job rid)
    (hread : readResult w job = .ok (.inr result)) :
    (Race.step jobId command (.advance w) s).2 = ⟨.storeResult rid result, s.tunnel, s.runId⟩ := by
  have hstep : (runnerStep w jobId command s.point).exec s.tunnel = (.ok (.storeResult rid result), s.tunnel) := by
    rw [hpoint]
    simp only [runnerStep, hread]
    rfl
  have hdrawn : s.point.drawn w s.runId = s.runId := by
    rw [hpoint]
    rfl
  simp only [Race.step, Runner.advance, hstep, hdrawn]

/-- What was read in a run was left by the wrapper. -/
theorem leftBy_of_reading {ok : Race → Race.Move → Prop}
    (hrun : Run (race jobId command t₀) (fun s m => ok s m ∧ Simulates host s m) h s) {w : Tunnel.World} {job : Obj}
    (hread : (w, job) ∈ readings h) : ∃ sim, LeftBy host w job sim := by
  obtain ⟨e, he, hmem⟩ := List.mem_flatMap.mp hread
  obtain ⟨-, -, -, -, hmove, -⟩ := hrun.split_of_mem he
  cases hinput : e.input with
  | cancel env =>
    rw [hinput] at hmem
    cases hmem
  | advance w' =>
    rw [hinput] at hmem
    cases hpoint : e.before.point with
    | readMetrics job' rid =>
      rw [hpoint] at hmem
      obtain ⟨rfl, rfl⟩ := Prod.mk.inj (List.mem_singleton.mp hmem)
      exact hmove.2 w job rid hinput hpoint
    | _ =>
      rw [hpoint] at hmem
      cases hmem

end Runs

section Samples

/-- A host whose simulator leaves the voltages of two nodes, one of them no number. -/
def sampleHost : WrapperHost where
  fmt := .sample
  floatOf s := if s = "0.0" then some (.finite 0) else none
  format _ := ""
  getenv name := if name = "VFP_REUSE_NETLIST" then some "input.scs" else none
  cwd := "."
  pathExists _ := true
  readText _ := .error (.osError (.text "No such file" []))
  sha256 _ := some "e3b0"
  siExit := 0
  spectre _ := (0, [("dcOp.dc".toList, ["\"out\" \"V\" 0.0".toList, "\"in\" \"V\" nan".toList])])
  metricsWritable := true

/-- What the wrapper makes of them for `job_1`. -/
def sampleSim : Simulated where
  job := ⟨.str "job_1", .str "", .str "fp_0123456789abcdef", .str "", .str "", .str "", "runs/1", "metrics.json"⟩
  deck := "input.scs"
  mode := "reuse"
  raw := ⟨[("V_out".toList, .finite 0), ("V_in".toList, .nan)], by decide⟩
  prov := [("netlist_hash", .str "e3b0"), ("source_mode", .str "reuse"),
    ("cellview", .obj [("lib", .str ""), ("cell", .str ""), ("view", .str "")]), ("saved_at", .null),
    ("fingerprint", .str "fp_0123456789abcdef")]

/-- The surroundings of the sample, with the parser. -/
def sampleParsing : Env :=
  { Env.sample with
    jsonLoads := fun text => match loads .sample text.toList with
      | some v => .ok v
      | none => .error (.valueError (.text "Expecting value" [])) }

/-- What the runner finds when it reads the file. -/
def sampleWritten : Tunnel.World :=
  sampleLeaving sampleParsing (outputText .sample sampleSim.raw sampleSim.prov)

/-- A step beside that one. -/
def sampleOther : Race.Move := .advance (sampleLeaving .sample "")

/-- The race for `job_1` at its beginning. -/
def sampleBegin : Race := ⟨.lookup, sampleQueued, none⟩

/-- The race where the runner reads the file. -/
def sampleReads : Race := Race.after (.str "job_1") ["wrapper"] sampleBegin (List.replicate 8 sampleOther)

/-- The record of the job that was looked up. -/
def sampleLookedUp : Obj := (sampleQueued.jobs.records.get? (.str "job_1")).getD []

/-- The result that the runner takes from the file. -/
def sampleTaken : Obj :=
  makeResult sampleParsing (resultData sampleLookedUp (parsedOutput sampleSim.raw sampleSim.prov)
    (.obj (splitNumbers sampleSim.raw)))

/-- The race for `job_1` where the runner has the result. -/
def sampleStores : Race :=
  ⟨.storeResult (.str "run_0123456789ab") sampleTaken, sampleReads.tunnel, some "run_0123456789ab"⟩

/-- The end of the race. -/
def sampleStored : Race := Race.after (.str "job_1") ["wrapper"] sampleStores (List.replicate 6 sampleOther)

/-- The moves of the race. -/
def sampleMoves : List Race.Move :=
  List.replicate 8 sampleOther ++ .advance sampleWritten :: List.replicate 6 sampleOther

/-- The sample is about to read its metrics. -/
theorem sampleReads_point : sampleReads.point = .readMetrics sampleLookedUp (.str "run_0123456789ab") := by rfl

/-- Its file is what the wrapper left. -/
theorem leftBy_sample : LeftBy sampleHost sampleWritten sampleLookedUp sampleSim := by
  refine ⟨⟨["job_1", "", "", "", "", "fp_0123456789abcdef", ""], "runs/1", by rfl, by rfl⟩, rfl, fun text v hv => ?_⟩
  have hloads : loads .sample text.toList = some v := hv
  simp [sampleWritten, sampleLeaving, sampleParsing, hloads]

/-- Its parser gives floats. -/
theorem sampleHost_floats : GivesFloats sampleHost.fmt sampleHost.floatOf := by
  intro s q hq
  have hs : (if s = "0.0" then some (PyFloat.finite 0) else none) = some (.finite q) := hq
  split at hs
  · exact ⟨[], Option.some.inj hs⟩
  · cases hs

/-- A result is taken from the file. -/
theorem sampleWritten_read : readResult sampleWritten sampleLookedUp = .ok (.inr sampleTaken) := by
  have hvalue : WellFormed .sample (wrapperOutput sampleSim.raw sampleSim.prov) := by
    obtain ⟨vars, runDir, -, hsim⟩ := leftBy_sample.ran
    exact @wellFormed_simulated (sampleHost.within _) sampleSim sampleHost_floats hsim
  have hparsed : parseResultFile sampleWritten.env (outputText .sample sampleSim.raw sampleSim.prov) =
      .ok (parsedOutput sampleSim.raw sampleSim.prov) :=
    parse_output leftBy_sample.reads hvalue (by simp [sampleSim])
  have hnumbers : splitNumbers sampleSim.raw ≠ [] := by simp [splitNumbers, sampleSim, finite?]
  exact (readResult_of_parsed leftBy_sample.file hparsed get_metrics_parsedOutput).trans (if_neg hnumbers)

/-- That result is to be stored. -/
theorem sampleReads_step :
    (Race.step (.str "job_1") ["wrapper"] (.advance sampleWritten) sampleReads).2 = sampleStores := by
  have hrunId : sampleReads.runId = some "run_0123456789ab" := by rfl
  rw [step_read sampleReads_point sampleWritten_read, hrunId]
  rfl

/-- The daemon's runner of `job_1`. -/
def sampleRunner : Machine Race Race.Move (Except PyExc Json) := race (.str "job_1") ["wrapper"] sampleQueued

/-- The runner comes to its end. -/
theorem last_sampleMoves : sampleRunner.last sampleBegin sampleMoves = sampleStored := by
  unfold sampleMoves Machine.last
  rw [List.foldl_append, List.foldl_cons]
  exact congrArg (fun s => Race.after (.str "job_1") ["wrapper"] s (List.replicate 6 sampleOther)) sampleReads_step

/-- It has finished then. -/
theorem finished_sampleStored : sampleStored.point.finished = true := by rfl

/-- The job is done then. -/
theorem sampleStored_job : HasJob sampleStored.tunnel (.str "job_1") .done := by
  have hjob : sampleStored.tunnel.jobs.records.get? (.str "job_1") =
      some ((sampleStored.tunnel.jobs.records.get? (.str "job_1")).getD []) := by rfl
  exact ⟨_, hjob, by rfl⟩

/-- The runner has ended then. -/
theorem sampleStored_ended : Ended (.str "job_1") sampleStored := by
  have hrun : sampleStored.tunnel.runs.records.get? (.str "run_0123456789ab") =
      some ((sampleStored.tunnel.runs.records.get? (.str "run_0123456789ab")).getD []) := by rfl
  refine ⟨⟨.done, by simp [terminalStatuses], sampleStored_job⟩, fun id hid => ?_⟩
  obtain rfl : "run_0123456789ab" = id := Option.some.inj (Eq.trans (by rfl) hid)
  exact ⟨"done", by simp, .str "r_0123456789ab", _, hrun, by rfl, by rfl, by rfl, _, by rfl⟩

/-- A step that reads no file is one with the wrapper. -/
theorem simulates_of_quiet {e : Entry Race Race.Move (Except PyExc Json)}
    (h : (e.before.point.reads sampleWritten).isEmpty) : Simulates sampleHost e.before e.input := by
  intro w job rid _ hpoint
  rw [hpoint] at h
  cases h

/-- The run reads its file once. -/
theorem trace_sampleMoves : sampleRunner.trace sampleBegin sampleMoves =
    sampleRunner.trace sampleBegin (List.replicate 8 sampleOther) ++
      sampleRunner.fire sampleReads (.advance sampleWritten) ::
        sampleRunner.trace (sampleRunner.step (.advance sampleWritten) sampleReads).2
          (List.replicate 6 sampleOther) :=
  rfl

/-- The step that reads finds the file of the wrapper, and the others read nothing. -/
theorem simulates_sample : ∀ e ∈ sampleRunner.trace sampleBegin sampleMoves,
    Simulates sampleHost e.before e.input := by
  have hfront : ((sampleRunner.trace sampleBegin (List.replicate 8 sampleOther)).all
      fun e => (e.before.point.reads sampleWritten).isEmpty) = true := by rfl
  have hback : ((sampleRunner.trace sampleStores (List.replicate 6 sampleOther)).all
      fun e => (e.before.point.reads sampleWritten).isEmpty) = true := by rfl
  intro e he
  rw [trace_sampleMoves] at he
  rcases List.mem_append.mp he with he | he
  · exact simulates_of_quiet (List.all_eq_true.mp hfront e he)
  · rcases List.mem_cons.mp he with rfl | he
    · intro w job rid hmove hpoint
      obtain rfl := Race.Move.advance.inj hmove
      obtain ⟨rfl, -⟩ := RunPoint.readMetrics.inj (sampleReads_point.symm.trans hpoint)
      exact ⟨sampleSim, leftBy_sample⟩
    · have hstep : (sampleRunner.step (.advance sampleWritten) sampleReads).2 = sampleStores := sampleReads_step
      rw [hstep] at he
      exact simulates_of_quiet (List.all_eq_true.mp hback e he)

end Samples

end VirtuosoFlow.Plugin
