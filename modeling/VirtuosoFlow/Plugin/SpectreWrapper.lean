import VirtuosoFlow.Plugin.DeckPath
import VirtuosoFlow.Tunnel.SignalMetrics
import VirtuosoFlow.Tunnel.Values
import Mathlib.Data.List.Sort
import Mathlib.Data.List.Lex
import Mathlib.Data.Char

/-!
# The simulation wrapper

`scripts/cellview_spectre_job.py`, the command that the runner starts for a job: it takes the job from its
variables, looks for the deck of the cellview, has it simulated and leaves the measurements in a metrics file, the
finite ones as numbers and what is no plain number as a tag.
-/

namespace VirtuosoFlow.Plugin

open Base Base.Posix JsonText Tunnel

/-- What the wrapper finds around it. -/
structure WrapperHost where
  fmt : FloatFormat
  /-- `float(s)`; `none` where it raises `ValueError`. -/
  floatOf : String → Option PyFloat
  /-- `"%s" % v`. -/
  format : Json → String
  /-- `os.environ.get(name)`. -/
  getenv : String → Option String
  /-- `os.getcwd()`. -/
  cwd : String
  pathExists : String → Bool
  /-- The text of a file. -/
  readText : String → Except PyExc String
  /-- The SHA-256 of what a file holds, in hex; `none` where it cannot be opened. -/
  sha256 : String → Option String
  /-- The exit code of `si`. -/
  siExit : ℤ
  /-- What the simulator makes of a deck: its exit code, and the files of `psf` with their lines. -/
  spectre : String → ℤ × List (List Char × List (List Char))
  /-- Whether the metrics file can be written. -/
  metricsWritable : Bool

/-- `os.environ.get(name) or default`. -/
def WrapperHost.var (host : WrapperHost) (name default : String) : String :=
  match host.getenv name with
  | some v => if v = "" then default else v
  | none => default

section Jobs

/-- The dict `job` of the wrapper. -/
structure WrapperJob where
  jobId : Json
  test : Json
  fingerprint : Json
  lib : Json
  cell : Json
  view : Json
  runDir : String
  metricsFile : String

/-- `job["lib"] and job["cell"] and job["view"]`. -/
def WrapperJob.named (job : WrapperJob) : Bool := job.lib.truthy && job.cell.truthy && job.view.truthy

/-- `v or data.get(field) or ""`; `none` where `data` is no dict and is asked. -/
def orMember (v data : Json) (field : String) : Option Json :=
  if v.truthy then some v
  else match data with
    | .obj members => some (pyOr (Obj.get members field) (.str ""))
    | _ => none

/-- What `job.json` adds to a job without names; `none` where an exception is not caught. -/
def WrapperJob.fillIn (job : WrapperJob) : Json → Option WrapperJob
  | .obj data => do
    let cv := pyOr (Obj.get data "cellview") (.obj [])
    let lib ← orMember job.lib cv "lib"
    let cell ← orMember job.cell cv "cell"
    let view ← orMember job.view cv "view"
    let test ← orMember job.test (.obj data) "test"
    let fingerprint ← orMember job.fingerprint (.obj data) "inputs_fingerprint"
    let jobId ← orMember job.jobId (.obj data) "job_id"
    return ⟨jobId, test, fingerprint, lib, cell, view, job.runDir, job.metricsFile⟩
  | _ => none

/-- The job that the variables tell. -/
def jobOfVars (host : WrapperHost) : WrapperJob where
  jobId := .str (host.var "VFP_JOB_ID" "")
  test := .str (host.var "VFP_JOB_TEST" "")
  fingerprint := .str (host.var "VFP_JOB_FINGERPRINT" "")
  lib := .str (host.var "VFP_JOB_LIB" "")
  cell := .str (host.var "VFP_JOB_CELL" "")
  view := .str (host.var "VFP_JOB_VIEW" "")
  runDir := host.var "VFP_RUN_DIR" host.cwd
  metricsFile := host.var "VFP_METRICS_FILE" "metrics.json"

/-- `read_job()`; `none` where the process ends with an exception. -/
def readJob (host : WrapperHost) : Option WrapperJob :=
  let job := jobOfVars host
  let path := pathJoin job.runDir "job.json"
  if job.named || !host.pathExists path then some job
  else match host.readText path with
    | .error e => if isReadError e then some job else none
    | .ok text =>
      match loads host.fmt text.toList with
      | some data => job.fillIn data
      | none => some job

end Jobs

section Decks

variable (host : WrapperHost) (job : WrapperJob)

/-- `path if os.path.exists(path)`. -/
def WrapperHost.here (path : String) : Option String := if host.pathExists path then some path else none

/-- The path under `VFP_NETLIST_DIR`, for a job with names. -/
def jobDeck : Option String :=
  match host.getenv "VFP_NETLIST_DIR" with
  | some base =>
    if base = "" || !job.named then none
    else
      let key := host.format job.lib ++ "__" ++ host.format job.cell ++ "__" ++ host.format job.view
      some (pathJoin (pathJoin (pathJoin base key) "netlist") "input.scs")
  | none => none

/-- `netlist_via_reuse(job)`; `none` where it raises `RuntimeError`. -/
def reuseDeck : Option String :=
  ((host.getenv "VFP_REUSE_NETLIST").bind fun p => if p = "" then none else host.here p).or
    (((jobDeck host job).bind host.here).or (host.here (pathJoin job.runDir "input.scs")))

/-- `netlist_via_si(job)`: names that are no strings cannot be arguments. -/
def siDeck : Option String :=
  match job.lib, job.cell, job.view with
  | .str lib, .str cell, .str view =>
    if lib = "" || cell = "" || view = "" || host.siExit != 0 then none
    else (host.here (pathJoin job.runDir "input.scs")).or
      (host.here (pathJoin (pathJoin job.runDir "netlist") "input.scs"))
  | _, _, _ => none

/-- `netlist(job)`: the deck and the mode. -/
def netlist : Option (String × String) :=
  if (host.getenv "VFP_NETLIST_MODE").getD "reuse" = "si" then (siDeck host job).map (·, "si")
  else (reuseDeck host job).map (·, "reuse")

/-- For the names of a cellview this is where the plugin puts its deck. -/
theorem reuseDeck_eq {cv : CvNames} (hnames : ∀ s, host.format (.str s) = s) (hlib : job.lib = .str cv.lib)
    (hcell : job.cell = .str cv.cell) (hview : job.view = .str cv.view) :
    reuseDeck host job = netlistViaReuse
      ⟨host.getenv "VFP_REUSE_NETLIST", host.getenv "VFP_NETLIST_DIR", host.pathExists, job.runDir⟩ cv := by
  have hnamed : job.named = true := by
    have hne : ∀ {name : String}, IsName name → name ≠ "" := by
      rintro _ ⟨hne, -⟩ rfl
      exact hne rfl
    simp [WrapperJob.named, hlib, hcell, hview, Json.truthy, hne cv.lib_ok, hne cv.cell_ok, hne cv.view_ok]
  have hdeck : jobDeck host job = conventionDeck
      ⟨host.getenv "VFP_REUSE_NETLIST", host.getenv "VFP_NETLIST_DIR", host.pathExists, job.runDir⟩ cv := by
    unfold jobDeck conventionDeck
    dsimp only
    cases host.getenv "VFP_NETLIST_DIR" with
    | none => rfl
    | some base =>
      simp only [hnamed, hlib, hcell, hview, hnames, CvNames.key, Bool.not_true, Bool.or_false, decide_eq_true_eq]
  rw [reuseDeck, hdeck]
  rfl

end Decks

section Measurements

/-- `\s*"([^"]+)"\s+"V"\s+(\S+)` in a line of `dcOp.dc`. -/
def nodeEntry (line : List Char) : Option (List Char × List Char) := do
  let (name, rest) ← quotedText (line.dropWhile isPySpace)
  let (unit, rest) ← quotedText (← afterSpaces rest)
  let rest ← afterSpaces rest
  let word := rest.takeWhile (!isPySpace ·)
  if unit = ['V'] && !word.isEmpty then some (name, word) else none

/-- The node voltages of `dcOp.dc`. -/
def nodeVoltages (floatOf : String → Option PyFloat) (lines : List (List Char)) : Dict (List Char) PyFloat :=
  (lines.filterMap nodeEntry).foldl (fun raw e =>
    raw.insert ("V_".toList ++ san e.1) ((floatOf (String.ofList e.2)).getD .nan)) .empty

/-- `word in text`. -/
def within (word text : List Char) : Bool := text.tails.any (word.isPrefixOf ·)

/-- The names of the analysis files, as `glob` matches them and `sorted` orders them. -/
def analysisNames (names : List (List Char)) : List (List Char) :=
  let shown := names.filter fun name => name.head? != some '.'
  let tran := shown.filter (within ".tran".toList)
  let ac := shown.filter (".ac".toList.isSuffixOf ·)
  let dc := shown.filter (".dc".toList.isSuffixOf ·)
  ((tran ++ ac ++ dc).insertionSort (· ≤ ·)).filter (!"dcOp.dc".toList.isSuffixOf ·)

/-- `measure(psf_dir, test)` of a directory with these files. -/
def measure (floatOf : String → Option PyFloat) (files : List (List Char × List (List Char))) :
    Dict (List Char) PyFloat :=
  (analysisNames (files.map Prod.fst)).foldl (fun raw name =>
    (parsePsfAsciiFinal floatOf ((files.lookup name).getD [])).entries.foldl (fun raw e => raw.insert e.1 e.2) raw)
    (nodeVoltages floatOf ((files.lookup "dcOp.dc".toList).getD []))

/-- `_is_margin(name)`. -/
def isMargin (name : List Char) : Bool :=
  let upper := name.map Char.toUpper
  "GM".toList.isPrefixOf upper || "PM".toList.isPrefixOf upper

/-- `_is_gain(name)`. -/
def isGain (name : List Char) : Bool :=
  let upper := name.map Char.toUpper
  within "dB".toList name || "A0".toList.isPrefixOf upper || "GAIN".toList.isPrefixOf upper

/-- `SENTINEL_DB`. -/
def sentinelDb : ℚ := 999

/-- `classify(name, value)` of a float. -/
def classify (name : List Char) : PyFloat → Option String
  | .finite q => if isGain name && decide (sentinelDb ≤ |q|) then some "saturated" else none
  | _ => some (if isMargin name then "unconditional" else "undefined")

/-- The finite value of a float. -/
def finite? : PyFloat → Option ℚ
  | .finite q => some q
  | _ => none

/-- The first dict of `split_metrics(raw)`. -/
def splitNumbers (raw : Dict (List Char) PyFloat) : Obj :=
  raw.entries.filterMap fun e => (finite? e.2).map fun q => (String.ofList e.1, .float (.finite q))

/-- The second dict of `split_metrics(raw)`. -/
def splitTags (raw : Dict (List Char) PyFloat) : Obj :=
  raw.entries.filterMap fun e => (classify e.1 e.2).map fun tag => (String.ofList e.1, .str tag)

end Measurements

section Output

variable (host : WrapperHost)

/-- `os.path.dirname(path)`. -/
def dirname (path : List Char) : List Char :=
  let head := (path.reverse.dropWhile (· != '/')).reverse
  let body := (head.reverse.dropWhile (· == '/')).reverse
  if body.isEmpty then head else body

/-- `_saved_at(deck_path)`; `none` where the process ends with an exception. -/
def savedAt (deck : String) : Option Json :=
  if host.var "VFP_JOB_SAVED_AT" "" != "" then some (.str (host.var "VFP_JOB_SAVED_AT" ""))
  else match host.readText (pathJoin (String.ofList (dirname deck.toList)) "saved_at.txt") with
    | .ok text =>
      let text := strip text.toList
      some (if text.isEmpty then .null else .str (String.ofList text))
    | .error (.osError _) => some .null
    | .error _ => none

/-- `provenance(job, deck_path, mode)`. -/
def provenance (job : WrapperJob) (deck mode : String) : Option Obj := do
  let saved ← savedAt host deck
  return [("netlist_hash", .str ((host.sha256 deck).getD "")), ("source_mode", .str mode),
    ("cellview", .obj [("lib", job.lib), ("cell", job.cell), ("view", job.view)]), ("saved_at", saved),
    ("fingerprint", job.fingerprint)]

/-- The object that `main` writes. -/
def wrapperOutput (raw : Dict (List Char) PyFloat) (prov : Obj) : Json :=
  .obj [("metrics", .obj (splitNumbers raw)), ("provenance", .obj prov), ("metric_quality", .obj (splitTags raw))]

/-- The text of the metrics file. -/
def outputText (fmt : FloatFormat) (raw : Dict (List Char) PyFloat) (prov : Obj) : String :=
  String.ofList (dumps fmt (some 2) (wrapperOutput raw prov))

/-- What a simulation gives: the measurements and where they are from. -/
structure Simulated where
  job : WrapperJob
  deck : String
  mode : String
  raw : Dict (List Char) PyFloat
  prov : Obj

/-- The part of `main` before the metrics file; `none` where the exit code is not zero. -/
def simulate : Option Simulated := do
  let job ← readJob host
  let (deck, mode) ← netlist host job
  let (code, files) := host.spectre deck
  let raw := measure host.floatOf files
  if code != 0 || raw.entries.isEmpty then none
  else do
    let prov ← provenance host job deck mode
    if host.metricsWritable then some ⟨job, deck, mode, raw, prov⟩ else none

/-- `main()`: the text of the metrics file, `none` where the exit code is not zero. -/
def wrapperMain : Option String :=
  (simulate host).map fun sim => outputText host.fmt sim.raw sim.prov

end Output

section Contexts

/-- The variables of `_job_context`: those it takes from the job, in the order of its values, and two more. -/
def contextNames : List String :=
  ["VFP_JOB_ID", "VFP_JOB_LIB", "VFP_JOB_CELL", "VFP_JOB_VIEW", "VFP_JOB_TEST", "VFP_JOB_FINGERPRINT",
    "VFP_JOB_SAVED_AT", "VFP_RUN_DIR", "VFP_METRICS_FILE"]

/-- The host as the wrapper finds it that the runner starts with these values. -/
def WrapperHost.within (host : WrapperHost) (values : List String) : WrapperHost :=
  { host with getenv := fun name => ((contextNames.zip values).lookup name).or (host.getenv name) }

end Contexts

end VirtuosoFlow.Plugin
