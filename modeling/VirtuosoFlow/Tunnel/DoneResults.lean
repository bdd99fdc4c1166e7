import VirtuosoFlow.Tunnel.ArchiveSteps
import VirtuosoFlow.Tunnel.RunnerEnds
import VirtuosoFlow.Tunnel.Verdicts

/-!
# What a job that is done has measured

The runner parses the metrics file, refuses it when nothing was parsed, and stores what
`make_result` keeps. The parser of JSON files drops what is not finite before that test, the
parser of text files does not, so a text file can pass the test and leave nothing to keep.
-/

namespace VirtuosoFlow.Tunnel

open Base RunStore

section Contents

/-- A number of a metrics file, finite or not: a number, or a text that `float` reads. -/
def numberOf (env : Env) : Json → Option Json
  | .int n => some (.int n)
  | .float x => some (.float x)
  | .str s => (env.floatOf s).map .float
  | _ => none

/-- A number that is neither NaN nor infinite. -/
def IsFinite : Json → Prop
  | .int _ => True
  | .float (.finite _) => True
  | _ => False

/-- The parser takes a text for JSON. -/
def IsJsonText (text : String) : Prop :=
  (text.toList.dropWhile isPySpace).head? = some '{' ∨ (text.toList.dropWhile isPySpace).head? = some '['

/-- Where a JSON file has its metrics: in the member `metrics`, or in the file's own object. -/
def metricsSource : Json → Json
  | .obj members => (members.lookup "metrics").getD (.obj members)
  | v => v

/-- The entry of a JSON file under a key. -/
def JsonEntry (env : Env) (text key : String) (x : Json) : Prop :=
  ∃ v members e, env.jsonLoads text = .ok v ∧ metricsSource v = .obj members ∧ (key, e) ∈ members ∧
    numberOf env e = some x

/-- The entry of a text file under a key: the last line of the key counts. -/
def TextEntry (env : Env) (text key : String) (x : Json) : Prop :=
  ((((splitLines [] text.toList).filterMap (lineEntry env)).filter fun e => e.1 = key).map Prod.snd).getLast? =
    some x

/-- The entry of a metrics file under a key. -/
def FileEntry (env : Env) (text key : String) (x : Json) : Prop :=
  (IsJsonText text ∧ JsonEntry env text key x) ∨ (¬ IsJsonText text ∧ TextEntry env text key x)

/-- A result has metrics, and they are the finite entries of the file. -/
def RealResult (env : Env) (text : String) (result : Obj) : Prop :=
  ∃ metrics, Obj.get result "metrics" = .obj metrics ∧ metrics ≠ [] ∧
    ∀ key x, (key, x) ∈ metrics ↔ FileEntry env text key x ∧ IsFinite x

/-- A text file with entries has a finite one. -/
def FiniteIfAny (env : Env) (text : String) : Prop :=
  ¬ IsJsonText text → (∃ key x, TextEntry env text key x) → ∃ key x, TextEntry env text key x ∧ IsFinite x

variable {env : Env} {text key : String} {x v : Json}

/-- A float is taken as a number if it is finite. -/
theorem coerceNumber_float (y : PyFloat) :
    coerceNumber env (.float y) = some x ↔ numberOf env (.float y) = some x ∧ IsFinite x := by
  have hnumber : numberOf env (.float y) = some x ↔ Json.float y = x := Option.some_inj
  rw [hnumber]
  cases y with
  | finite q =>
    simp only [coerceNumber, Option.some.injEq]
    exact ⟨fun h => ⟨h, h ▸ trivial⟩, And.left⟩
  | _ =>
    refine iff_of_false (by simp [coerceNumber]) ?_
    rintro ⟨rfl, hfinite⟩
    exact hfinite

/-- A number is kept when it is finite. -/
theorem coerceNumber_eq_some : coerceNumber env v = some x ↔ numberOf env v = some x ∧ IsFinite x := by
  cases v with
  | int n =>
    simp only [coerceNumber, numberOf, Option.some.injEq]
    exact ⟨fun h => ⟨h, h ▸ trivial⟩, And.left⟩
  | float y => exact coerceNumber_float y
  | str s =>
    have hcoerce : coerceNumber env (.str s) = (env.floatOf s).bind fun y => coerceNumber env (.float y) := by
      simp only [coerceNumber]
      cases env.floatOf s with
      | none => rfl
      | some y => cases y <;> rfl
    have hnumber : numberOf env (.str s) = (env.floatOf s).bind fun y => numberOf env (.float y) := by
      simp only [numberOf]
      cases env.floatOf s <;> rfl
    rw [hcoerce, hnumber]
    cases env.floatOf s with
    | none => simp
    | some y => exact coerceNumber_float y
  | _ => simp [coerceNumber, numberOf]

/-- Reading a number again changes nothing. -/
theorem numberOf_idem (h : numberOf env v = some x) : numberOf env x = some x := by
  cases v with
  | int n => exact Option.some.inj h ▸ rfl
  | float y => exact Option.some.inj h ▸ rfl
  | str s =>
    obtain ⟨y, -, rfl⟩ := Option.map_eq_some_iff.mp h
    rfl
  | _ => cases h

/-- The metrics are the members that are finite numbers. -/
theorem mem_extractMetrics : (key, x) ∈ extractMetrics env v ↔
    ∃ members e, metricsSource v = .obj members ∧ (key, e) ∈ members ∧ numberOf env e = some x ∧
      IsFinite x := by
  have hobj : ∀ members, metricsSource v = .obj members →
      extractMetrics env v = members.filterMap fun e => (coerceNumber env e.2).map (e.1, ·) := by
    intro members h
    cases v with
    | obj own =>
      have hsource : (own.lookup "metrics").getD (.obj own) = .obj members := h
      unfold extractMetrics
      dsimp only
      rw [hsource]
    | _ => cases h
  by_cases hsource : ∃ members, metricsSource v = .obj members
  · obtain ⟨members, hmembers⟩ := hsource
    rw [hobj members hmembers, hmembers, List.mem_filterMap]
    constructor
    · rintro ⟨⟨k, e⟩, hmem, heq⟩
      obtain ⟨y, hy, hpair⟩ := Option.map_eq_some_iff.mp heq
      obtain ⟨rfl, rfl⟩ := Prod.mk.inj hpair
      exact ⟨members, e, rfl, hmem, coerceNumber_eq_some.mp hy⟩
    · rintro ⟨members', e, heq, hmem, hnumber⟩
      obtain rfl := Json.obj.inj heq
      exact ⟨(key, e), hmem, by rw [coerceNumber_eq_some.mpr hnumber]; rfl⟩
  · -- without members nothing is extracted
    have hnone : extractMetrics env v = [] := by
      cases v with
      | obj own =>
        unfold extractMetrics
        dsimp only
        split
        · next members h => exact absurd ⟨members, h⟩ hsource
        · rfl
      | _ => rfl
    rw [hnone]
    constructor
    · intro hmem
      cases hmem
    · rintro ⟨members, e, h, -⟩
      exact absurd ⟨members, h⟩ hsource

/-- The metrics of a text are its entries. -/
theorem mem_parseText : (key, x) ∈ parseText env text ↔ TextEntry env text key x := by
  have hfold : ∀ (step : Obj → List Char → Obj),
      (∀ m raw, step m raw = (lineEntry env raw).elim m fun e => Obj.set m e.1 e.2) →
      ∀ (lines : List (List Char)) (d : Dict String Json), lines.foldl step d.entries =
        ((lines.filterMap (lineEntry env)).foldl (fun d e => d.insert e.1 e.2) d).entries := by
    intro step hstep lines
    induction lines with
    | nil => exact fun d => rfl
    | cons raw lines ih =>
      intro d
      rw [List.foldl_cons, List.filterMap_cons, hstep]
      cases lineEntry env raw with
      | none => exact ih d
      | some e => exact ih (d.insert e.1 e.2)
  have hparse : parseText env text = (((splitLines [] text.toList).filterMap (lineEntry env)).foldl
      (fun d e => d.insert e.1 e.2) Dict.empty).entries :=
    hfold _ (fun m raw => by cases lineEntry env raw <;> rfl) (splitLines [] text.toList) .empty
  rw [hparse, Dict.mem_entries_iff, Dict.get?_foldl_insert, Dict.get?_empty, Option.or_none]
  rfl

/-- A text file is always parsed. -/
theorem parseResultFile_text (h : ¬ IsJsonText text) :
    parseResultFile env text = .ok [("metrics", .obj (parseText env text))] := by
  have hfirst : ¬ ((text.toList.dropWhile isPySpace).head? == some '{' ||
      (text.toList.dropWhile isPySpace).head? == some '[') = true := by
    simpa [IsJsonText] using h
  unfold parseResultFile
  exact if_neg hfirst

/-- The runner takes a result only from a file it can read. -/
theorem contents_of_taken {w : World} {job result : Obj} (h : readResult w job = .ok (.inr result)) :
    ∃ text, w.metricsFile = .contents text := by
  cases hfile : w.metricsFile with
  | contents text => exact ⟨text, rfl⟩
  | missing =>
    unfold readResult at h
    rw [hfile] at h
    cases h
  | inaccessible m =>
    unfold readResult at h
    rw [hfile] at h
    cases h
  | unreadable e =>
    unfold readResult at h
    dsimp only at h
    rw [hfile] at h
    dsimp only at h
    split at h <;> cases h

/-- The runner takes no result from a file that is not parsed. -/
theorem parsed_of_taken {w : World} {job result : Obj} (hfile : w.metricsFile = .contents text)
    (h : readResult w job = .ok (.inr result)) : ∃ parsed, parseResultFile w.env text = .ok parsed := by
  cases hparsed : parseResultFile w.env text with
  | ok parsed => exact ⟨parsed, rfl⟩
  | error e =>
    unfold readResult at h
    dsimp only at h
    rw [hfile] at h
    dsimp only at h
    rw [hparsed] at h
    dsimp only at h
    split at h <;> cases h

/-- The blocks of schema 0.2 leave the metrics alone. -/
theorem lookup_foldl_blocks (add : Obj → String → Obj) (out : Obj)
    (hadd : ∀ out key, "metrics" ≠ key → (add out key).lookup "metrics" = out.lookup "metrics") :
    (["provenance", "metric_quality"].foldl add out).lookup "metrics" = out.lookup "metrics" := by
  rw [List.foldl_cons, List.foldl_cons, List.foldl_nil, hadd _ _ (by decide), hadd _ _ (by decide)]

/-- The parsed metrics: all entries of a text file, and the finite ones of a JSON file. -/
theorem metrics_of_parseResultFile {parsed : Obj} (h : parseResultFile env text = .ok parsed) :
    ∃ metrics, Obj.get parsed "metrics" = .obj metrics ∧
      ∀ key x, (key, x) ∈ metrics ↔ FileEntry env text key x ∧ (IsJsonText text → IsFinite x) := by
  unfold parseResultFile at h
  dsimp only at h
  split at h
  · rename_i hfirst
    have hjson : IsJsonText text := by simpa [IsJsonText] using hfirst
    cases hloads : env.jsonLoads text with
    | error e => simp [hloads] at h
    | ok v =>
      have hentries : ∀ key x, (key, x) ∈ extractMetrics env v ↔
          FileEntry env text key x ∧ (IsJsonText text → IsFinite x) := by
        intro key x
        rw [mem_extractMetrics]
        constructor
        · rintro ⟨members, e, hsource, hmem, hnumber, hfinite⟩
          exact ⟨.inl ⟨hjson, v, members, e, hloads, hsource, hmem, hnumber⟩, fun _ => hfinite⟩
        · rintro ⟨⟨-, v', members, e, hloads', hsource, hmem, hnumber⟩ | ⟨hnot, -⟩, hfinite⟩
          · obtain rfl : v = v' := Except.ok.inj (hloads.symm.trans hloads')
            exact ⟨members, e, hsource, hmem, hnumber, hfinite hjson⟩
          · exact absurd hjson hnot
      have hparsed : Obj.get parsed "metrics" = .obj (extractMetrics env v) := by
        rw [hloads] at h
        cases v with
        | obj members =>
          obtain rfl := Except.ok.inj h
          have hblocks := lookup_foldl_blocks (fun out key => match Obj.get members key with
            | .obj block => if block.isEmpty then out else Obj.set out key (.obj block)
            | _ => out) [("metrics", .obj (extractMetrics env (.obj members)))] fun out key hkey => by
              split
              · split
                · rfl
                · exact Obj.lookup_set_ne out hkey _
              · rfl
          exact congrArg (fun found : Option Json => found.getD .null) hblocks
        | _ =>
          obtain rfl := Except.ok.inj h
          rfl
      exact ⟨extractMetrics env v, hparsed, hentries⟩
  · rename_i hfirst
    have htext : ¬ IsJsonText text := by simpa [IsJsonText] using hfirst
    obtain rfl := Except.ok.inj h
    refine ⟨parseText env text, rfl, fun key x => ?_⟩
    rw [mem_parseText]
    constructor
    · exact fun hentry => ⟨.inr ⟨htext, hentry⟩, fun hjson => absurd hjson htext⟩
    · rintro ⟨⟨hjson, -⟩ | ⟨-, hentry⟩, -⟩
      · exact absurd hjson htext
      · exact hentry

/-- The record keeps the parsed metrics. -/
theorem lookup_metrics_resultData (job parsed : Obj) (metrics : Json) :
    (resultData job parsed metrics).lookup "metrics" = some metrics := by
  have hblocks := lookup_foldl_blocks (fun data key =>
    if (Obj.get parsed key).truthy then Obj.set data key (Obj.get parsed key) else data)
    [("metrics", metrics), ("source", .str "spectre"), ("test", Obj.get job "test"),
      ("cellview", Obj.get job "cellview")]
    fun data key hkey => by
      split
      · exact Obj.lookup_set_ne data hkey _
      · rfl
  unfold resultData
  dsimp only
  split
  · rw [Obj.lookup_set_ne _ (by decide), hblocks]
    rfl
  · rw [hblocks]
    rfl

/-- `make_result` keeps the finite metrics. -/
theorem metrics_of_makeResult {data metrics : Obj} (h : data.lookup "metrics" = some (.obj metrics)) :
    ∃ kept, Obj.get (makeResult env data) "metrics" = .obj kept ∧
      ∀ key x, (key, x) ∈ kept ↔ ∃ e, (key, e) ∈ metrics ∧ numberOf env e = some x ∧ IsFinite x := by
  have hextracted : ∀ r : Obj, r.lookup "metrics" = some (.obj metrics) → ∀ key x,
      (key, x) ∈ extractMetrics env (.obj r) ↔
        ∃ e, (key, e) ∈ metrics ∧ numberOf env e = some x ∧ IsFinite x := by
    intro r hr key x
    have hsource : metricsSource (.obj r) = .obj metrics := by rw [metricsSource, hr]; rfl
    rw [mem_extractMetrics, hsource]
    constructor
    · rintro ⟨members, e, heq, hrest⟩
      obtain rfl := Json.obj.inj heq
      exact ⟨e, hrest⟩
    · rintro ⟨e, hrest⟩
      exact ⟨metrics, e, rfl, hrest⟩
  unfold makeResult
  dsimp only
  split
  · refine ⟨extractMetrics env (.obj data), ?_, hextracted data h⟩
    simp
  · have hid : "metrics" ≠ "result_id" := by decide
    let named := Obj.set data "result_id" (.str ("r_" ++ env.uuid))
    refine ⟨extractMetrics env (.obj named), ?_, hextracted named ((Obj.lookup_set_ne data hid _).trans h)⟩
    simp [named]

/-- The entries of a file are numbers. -/
theorem FileEntry.number (h : FileEntry env text key x) : numberOf env x = some x := by
  rcases h with ⟨-, v, members, e, -, -, -, hnumber⟩ | ⟨-, hentry⟩
  · exact numberOf_idem hnumber
  · obtain ⟨entry, hmem, rfl⟩ := List.mem_map.mp (List.mem_of_getLast? hentry)
    obtain ⟨raw, -, hline⟩ := List.mem_filterMap.mp (List.mem_filter.mp hmem).1
    unfold lineEntry at hline
    dsimp only at hline
    split at hline
    · cases hline
    · obtain ⟨keyed, -, hline⟩ := Option.bind_eq_some_iff.mp hline
      obtain ⟨y, -, hline⟩ := Option.bind_eq_some_iff.mp hline
      rw [← Option.some.inj hline]
      rfl

/-- Outside JSON the entries of a file are its lines. -/
theorem fileEntry_of_text (h : ¬ IsJsonText text) : FileEntry env text key x ↔ TextEntry env text key x :=
  ⟨fun hentry => (hentry.resolve_left fun hjson => h hjson.1).2, fun hentry => .inr ⟨h, hentry⟩⟩

/-- A file without metrics is refused; from one with metrics the runner takes a result. -/
theorem readResult_of_parsed {w : World} {job parsed metrics : Obj} (hfile : w.metricsFile = .contents text)
    (hparsed : parseResultFile w.env text = .ok parsed) (hget : Obj.get parsed "metrics" = .obj metrics) :
    readResult w job = if metrics = [] then .ok (.inl ("no metrics parsed from " ++ w.env.simMetricsFile))
      else .ok (.inr (makeResult w.env (resultData job parsed (.obj metrics)))) := by
  unfold readResult
  dsimp only
  rw [hfile]
  dsimp only
  rw [hparsed]
  dsimp only
  rw [hget]
  cases metrics with
  | nil => rfl
  | cons e rest => rfl

/-- A result that the runner takes from the file has the finite entries of the file, and it has
metrics exactly when a text file with entries has a finite one. -/
theorem realResult_iff {w : World} {job result : Obj} (hfile : w.metricsFile = .contents text)
    (h : readResult w job = .ok (.inr result)) :
    RealResult w.env text result ↔ FiniteIfAny w.env text := by
  obtain ⟨parsed, hparsed⟩ := parsed_of_taken hfile h
  obtain ⟨metrics, hget, hmetrics⟩ := metrics_of_parseResultFile hparsed
  have hread : readResult w job = _ := readResult_of_parsed hfile hparsed hget
  have hne : metrics ≠ [] := by
    rintro rfl
    rw [if_pos rfl] at hread
    cases h.symm.trans hread
  rw [if_neg hne] at hread
  obtain rfl := Sum.inr.inj (Except.ok.inj (h.symm.trans hread))
  obtain ⟨kept, hkept, hmem⟩ :=
    @metrics_of_makeResult w.env _ _ (lookup_metrics_resultData job parsed (.obj metrics))
  have hentries : ∀ key x, (key, x) ∈ kept ↔ FileEntry w.env text key x ∧ IsFinite x := by
    intro key x
    rw [hmem]
    constructor
    · rintro ⟨e, he, hnumber, hfinite⟩
      obtain ⟨hentry, -⟩ := (hmetrics key e).mp he
      obtain rfl : e = x := Option.some.inj (hentry.number.symm.trans hnumber)
      exact ⟨hentry, hfinite⟩
    · rintro ⟨hentry, hfinite⟩
      exact ⟨x, (hmetrics key x).mpr ⟨hentry, fun _ => hfinite⟩, hentry.number, hfinite⟩
  have hreal : RealResult w.env text (makeResult w.env (resultData job parsed (.obj metrics))) ↔
      ∃ key x, FileEntry w.env text key x ∧ IsFinite x := by
    constructor
    · rintro ⟨kept', -, hne', hentries'⟩
      obtain ⟨⟨key, x⟩, hx⟩ := List.exists_mem_of_ne_nil kept' hne'
      exact ⟨key, x, (hentries' key x).mp hx⟩
    · rintro ⟨key, x, hx⟩
      exact ⟨kept, hkept, List.ne_nil_of_mem ((hentries key x).mpr hx), hentries⟩
  rw [hreal]
  obtain ⟨⟨key, x⟩, hx⟩ := List.exists_mem_of_ne_nil metrics hne
  obtain ⟨hentry, hfinite⟩ := (hmetrics key x).mp hx
  by_cases hjson : IsJsonText text
  · exact iff_of_true ⟨key, x, hentry, hfinite hjson⟩ fun htext => absurd hjson htext
  · simp only [FiniteIfAny, fileEntry_of_text hjson] at hentry ⊢
    exact ⟨fun h _ _ => h, fun h => h hjson ⟨key, x, hentry⟩⟩

/-- Where the runner takes no result from the file, a text file has no entries. -/
theorem finiteIfAny_of_refused {w : World} {job : Obj} {error : String} (hfile : w.metricsFile = .contents text)
    (h : readResult w job = .ok (.inl error)) : FiniteIfAny w.env text := by
  rintro htext ⟨key, x, hentry⟩
  have hparsed : parseResultFile w.env text = _ := parseResultFile_text htext
  obtain ⟨metrics, hget, hmetrics⟩ := metrics_of_parseResultFile hparsed
  have hread : readResult w job = _ := readResult_of_parsed hfile hparsed hget
  have hmem : (key, x) ∈ metrics :=
    (hmetrics key x).mpr ⟨(fileEntry_of_text htext).mpr hentry, fun hjson => absurd hjson htext⟩
  rw [if_neg (List.ne_nil_of_mem hmem)] at hread
  cases h.symm.trans hread

end Contents

/-- What a runner has learnt of its job where it stands. -/
inductive Told where
  | nothing
  | result (r : Obj)
  | failure
  | over

/-- What a runner knows at a point. -/
def RunPoint.told : RunPoint → Told
  | .storeResult _ r | .linkResult _ r | .setDone _ r | .markDone _ r | .emitResult _ r _ | .emitDone _ r _ =>
    .result r
  | .failRun _ _ | .failJob _ | .emitFailed _ _ => .failure
  | .returned _ | .raised _ => .over
  | _ => .nothing

/-- The result that is stored where a runner stands. -/
def RunPoint.stored : RunPoint → Option Obj
  | .linkResult _ r | .setDone _ r | .markDone _ r | .emitResult _ r _ | .emitDone _ r _ => some r
  | _ => none

/-- The file that a step from a point reads, and for which job. -/
def RunPoint.reads (w : World) : RunPoint → List (World × Obj)
  | .readMetrics job _ => [(w, job)]
  | _ => []

/-- The files that were read in a race. -/
def readings (h : List (Entry Race Race.Move (Except PyExc Json))) : List (World × Obj) :=
  h.flatMap fun e => match e.input with
    | .advance w => e.before.point.reads w
    | .cancel _ => []

/-- How the files read account for what the runner knows. -/
def Tells (rs : List (World × Obj)) : Told → Prop
  | .nothing => rs = []
  | .result r => ∃ w job, rs = [(w, job)] ∧ readResult w job = .ok (.inr r)
  | .failure => rs = [] ∨ ∃ w job error, rs = [(w, job)] ∧ readResult w job = .ok (.inl error)
  | .over => True

section Steps

variable {w : World} {jobId : Json} {command : List String} {point : RunPoint} {k : Key} {t : Tunnel}

/-- A step accounts for what it learns. -/
theorem runnerStep_tells {rs : List (World × Obj)} (h : Tells rs point.told) :
    Prog.Gives (fun next => Tells (rs ++ point.reads w) next.told) (runnerStep w jobId command point) := by
  have hkeep : rs ++ [] = rs := List.append_nil rs
  cases point with
  | lookup =>
    refine .last fun job => ?_
    cases job with
    | none => exact .throw _
    | some job => exact .pure (hkeep.trans h)
  | netlist job rid vars =>
    unfold runnerStep
    cases w.env.netlistCmd with
    | none => exact .pure (hkeep.trans h)
    | some ncmd =>
      refine .last fun outcome => .pure ?_
      cases outcome with
      | exited code log => exact hkeep.trans h
      | _ => exact .inl (hkeep.trans h)
  | attachNetlist job rid vars code log =>
    refine .last fun _ => .pure ?_
    split
    · exact hkeep.trans h
    · exact .inl (hkeep.trans h)
  | simulate job rid vars =>
    refine .last fun outcome => .pure ?_
    cases outcome with
    | exited code log => exact hkeep.trans h
    | _ => exact .inl (hkeep.trans h)
  | attachLog job rid code log =>
    refine .last fun _ => .pure ?_
    split
    · exact hkeep.trans h
    · exact .inl (hkeep.trans h)
  | readMetrics job rid =>
    -- the only step that reads the file
    obtain rfl : rs = [] := h
    refine .bind (.ofExcept fun reading hreading => hreading) fun reading hreading => .pure ?_
    cases reading with
    | inl error => exact .inr ⟨w, job, error, rfl, hreading⟩
    | inr result => exact ⟨w, job, rfl, hreading⟩
  | emitDone rid result job => exact .last fun _ => .pure trivial
  | emitFailed error job => exact .last fun _ => .pure trivial
  | returned job => exact .pure trivial
  | raised e => exact .pure trivial
  | _ =>
    refine .last fun _ => .pure ?_
    exact hkeep.symm ▸ h

/-- A runner goes on with the result it has stored. -/
theorem runnerStep_stored : Prog.Gives
    (fun next => ∀ r, next.stored = some r → point.stored = some r ∨ ∃ rid, point = .storeResult rid r)
    (runnerStep w jobId command point) := by
  have hnone : ∀ {next : RunPoint}, next.stored = none →
      ∀ r, next.stored = some r → point.stored = some r ∨ ∃ rid, point = .storeResult rid r := by
    intro next hnext r hr
    rw [hnext] at hr
    cases hr
  cases point with
  | lookup =>
    refine .last fun job => ?_
    cases job with
    | none => exact .throw _
    | some job => exact .pure (hnone rfl)
  | netlist job rid vars =>
    unfold runnerStep
    cases w.env.netlistCmd with
    | none => exact .pure (hnone rfl)
    | some ncmd =>
      refine .last fun outcome => .pure (hnone ?_)
      cases outcome <;> rfl
  | attachNetlist job rid vars code log =>
    refine .last fun _ => .pure (hnone ?_)
    split <;> rfl
  | simulate job rid vars =>
    refine .last fun outcome => .pure (hnone ?_)
    cases outcome <;> rfl
  | attachLog job rid code log =>
    refine .last fun _ => .pure (hnone ?_)
    split <;> rfl
  | readMetrics job rid =>
    refine .last fun reading => .pure (hnone ?_)
    cases reading <;> rfl
  | storeResult rid result =>
    refine .last fun _ => .pure fun r hr => .inr ⟨rid, ?_⟩
    rw [Option.some.inj hr]
  | linkResult rid result => exact .last fun _ => .pure fun r hr => .inl hr
  | setDone rid result => exact .last fun _ => .pure fun r hr => .inl hr
  | markDone rid result => exact .last fun _ => .pure fun r hr => .inl hr
  | emitResult rid result job => exact .last fun _ => .pure fun r hr => .inl hr
  | returned job => exact .pure (hnone rfl)
  | raised e => exact .pure (hnone rfl)
  | _ => exact .last fun _ => .pure (hnone rfl)

/-- Marking a job gives it no other status than that. -/
theorem status_of_set {env : Env} {new a : JobStatus} {fields : Obj} (hkey : jobId.key? = some k)
    (h : HasJob ((onJobs (JobStore.set env new fields jobId)).exec t).2 k a) : HasJob t k a ∨ a = new := by
  rw [exec_onJobs, JobStore.set] at h
  rcases setStatus_cases env "job_id" "unknown job_id: %s" (jobTransition env new fields) jobId t.jobs with
    ⟨e, hexec⟩ | ⟨k', j, j', writes, hkey', hj, htr, hexec⟩
  · rw [hexec] at h
    exact .inl h
  · obtain rfl : k = k' := Option.some.inj (hkey.symm.trans hkey')
    rw [hexec] at h
    obtain ⟨-, hj'⟩ := Lifecycle.transition_eq_ok.mp htr
    obtain ⟨r, hr, hat⟩ := h
    obtain rfl : j' = r := Option.some.inj ((Dict.get?_insert_self _ _ _).symm.trans hr)
    have hnew : jobLifecycle.At j' new := by
      rw [hj']
      simp [Lifecycle.At, Lifecycle.statusOf, Obj.getD, jobLifecycle]
    exact .inr (Lifecycle.At.eq hat hnew)

/-- A runner gives its job no status but those it marks. -/
theorem runnerStep_status (hkey : jobId.key? = some k) {a : JobStatus}
    (h : HasJob ((runnerStep w jobId command point).exec t).2 k a) :
    HasJob t k a ∨ a = .running ∨ (∃ rid r, point = .markDone rid r ∧ a = .done) ∨
      ∃ error, point = .failJob error ∧ a = .failed := by
  have hruns : ∀ {α : Type} (m : Prog PyExc Store α), Prog.Keeps (Prog.Fixes Tunnel.jobs) (onRuns m) :=
    fun _ _ => rfl
  have hresults : ∀ {α : Type} (m : Prog PyExc ResultStore α),
      Prog.Keeps (Prog.Fixes Tunnel.jobs) (onResults m) := fun _ _ => rfl
  have hemit : ∀ etype payload, Prog.Keeps (Prog.Fixes Tunnel.jobs) (emit w.env etype payload) := fun _ _ _ => rfl
  have hfixed : Prog.Keeps (Prog.Fixes Tunnel.jobs) (runnerStep w jobId command point) → HasJob t k a := by
    intro hm
    unfold HasJob at h ⊢
    rwa [hm t] at h
  -- after the mark of a job a step only goes on
  have hmark : ∀ {new : JobStatus} {fields : Obj} {f : Obj → Prog PyExc Tunnel RunPoint},
      (∀ j, Prog.Reads (f j)) →
      runnerStep w jobId command point = onJobs (JobStore.set w.env new fields jobId) >>= f →
      HasJob t k a ∨ a = new := by
    intro new fields f hf hstep
    rw [hstep, Prog.exec_bind] at h
    refine @status_of_set jobId k t w.env new a fields hkey ?_
    cases hexec : (onJobs (JobStore.set w.env new fields jobId)).exec t with
    | mk r t' =>
      rw [hexec] at h
      cases r with
      | error e => exact h
      | ok j =>
        have hreads : ((f j).exec t').2 = t' := hf j t'
        dsimp only at h
        rwa [hreads] at h
  cases point with
  | markRunning job rid =>
    exact (hmark (fun _ => .pure _) rfl).imp_right .inl
  | markDone rid result =>
    exact (hmark (fun _ => .pure _) rfl).imp_right fun ha => .inr (.inl ⟨rid, result, rfl, ha⟩)
  | failJob error =>
    exact (hmark (fun _ => .pure _) rfl).imp_right fun ha => .inr (.inr ⟨error, rfl, ha⟩)
  | lookup =>
    have hget : Prog.Keeps (Prog.Fixes Tunnel.jobs) (onJobs (JobStore.get jobId)) := fun t => getRecord_reads t.jobs
    refine .inl (hfixed (.bind hget fun job => ?_))
    cases job with
    | none => exact .throw _
    | some job => exact .pure _
  | netlist job rid vars =>
    refine .inl (hfixed ?_)
    unfold runnerStep
    cases w.env.netlistCmd with
    | none => exact .pure _
    | some ncmd => exact .bind (.ofExcept _) fun _ => .pure _
  | createRun job => exact .inl (hfixed (.bind (hruns _) fun _ => .pure _))
  | setRunning job rid => exact .inl (hfixed (.bind (hruns _) fun _ => .pure _))
  | linkResult rid result => exact .inl (hfixed (.bind (hruns _) fun _ => .pure _))
  | setDone rid result => exact .inl (hfixed (.bind (hruns _) fun _ => .pure _))
  | attachNetlist job rid vars code log => exact .inl (hfixed (.bind (.suppress (hruns _)) fun _ => .pure _))
  | attachLog job rid code log => exact .inl (hfixed (.bind (.suppress (hruns _)) fun _ => .pure _))
  | failRun rid error => exact .inl (hfixed (.bind (.suppress (hruns _)) fun _ => .pure _))
  | storeResult rid result => exact .inl (hfixed (.bind (hresults _) fun _ => .pure _))
  | emitResult rid result job => exact .inl (hfixed (.bind (hemit _ _) fun _ => .pure _))
  | emitDone rid result job => exact .inl (hfixed (.bind (hemit _ _) fun _ => .pure _))
  | emitFailed error job => exact .inl (hfixed (.bind (hemit _ _) fun _ => .pure _))
  | context job rid => exact .inl (hfixed (.bind (.ofExcept _) fun _ => .pure _))
  | simulate job rid vars => exact .inl (hfixed (.bind (.ofExcept _) fun _ => .pure _))
  | readMetrics job rid => exact .inl (hfixed (.bind (.ofExcept _) fun _ => .pure _))
  | returned job => exact .inl (hfixed (.pure _))
  | raised e => exact .inl (hfixed (.pure _))

end Steps

/-- The moves of a race in which nothing but the metrics file decides how the job ends: none hinders the
runner, and the job is not cancelled. -/
def Uninterrupted (command : List String) (k : Key) (s : Race) (m : Race.Move) : Prop :=
  Unhindered command k s m ∧ ∀ env, m = .cancel env → ¬ HasJob s.tunnel k .running

/-- What the runner knows, what is stored, and how the job stands agree with the files read. -/
structure Informed (k : Key) (h : List (Entry Race Race.Move (Except PyExc Json))) (s : Race) : Prop where
  told : Tells (readings h) s.point.told
  stored : ∀ r, s.point.stored = some r → s.tunnel.results.latest = some r
  done : HasJob s.tunnel k .done → ∃ r, s.tunnel.results.latest = some r ∧ Tells (readings h) (.result r)
  failed : HasJob s.tunnel k .failed → Tells (readings h) .failure
  uncancelled : ¬ HasJob s.tunnel k .cancelled

section Runs

variable {jobId : Json} {command : List String} {k : Key} {t₀ : Tunnel} {s : Race}
variable {h : List (Entry Race Race.Move (Except PyExc Json))}

/-- Before a runner comes to its end its job is under way. -/
theorem underway_of_onCourse (hcourse : OnCourse k s) (hphase : s.point.phase ≠ .finished) :
    HasJob s.tunnel k .queued ∨ HasJob s.tunnel k .running ∨ HasJob s.tunnel k .cancelled := by
  unfold OnCourse at hcourse
  cases hpoint : s.point.phase with
  | finished => exact absurd hpoint hphase
  | waiting =>
    rw [hpoint] at hcourse
    exact .inl hcourse
  | created rid =>
    rw [hpoint] at hcourse
    exact .inl hcourse.2
  | _ =>
    rw [hpoint] at hcourse
    exact .inr hcourse.2

/-- A runner whose job has ended reads nothing and stores nothing any more. -/
theorem phase_of_ended {a : JobStatus} (ha : a = .done ∨ a = .failed) (hcourse : OnCourse k s)
    (hjob : HasJob s.tunnel k a) : s.point.phase = .finished := by
  by_contra hphase
  rcases underway_of_onCourse hcourse hphase with hother | hother | hother <;>
    rcases ha with rfl | rfl <;> cases hjob.eq hother

/-- A step of the runner. -/
theorem Informed.advance (w : World) (hkey : jobId.key? = some k) (hcourse : OnCourse k s)
    (hfree : Unhindered command k s (.advance w)) (hinformed : Informed k h s) :
    Informed k (h ++ [(race jobId command t₀).fire s (.advance w)])
      (Race.step jobId command (.advance w) s).2 := by
  have hreadings : readings (h ++ [(race jobId command t₀).fire s (.advance w)]) =
      readings h ++ s.point.reads w := by
    simp [readings, Machine.fire]
  have htunnel : (Race.step jobId command (.advance w) s).2.tunnel =
      ((runnerStep w jobId command s.point).exec s.tunnel).2 := advance_snd w ⟨jobId, command, s.point⟩ s.tunnel
  have hresults : s.point.toStore = none →
      (Race.step jobId command (.advance w) s).2.tunnel.results = s.tunnel.results := by
    intro hstore
    rw [htunnel]
    exact runnerStep_results hstore s.tunnel
  have hidle : s.point.phase = .finished → s.point.toStore = none ∧ s.point.reads w = [] := by
    intro hphase
    cases hpoint : s.point <;> simp [hpoint, RunPoint.phase] at hphase <;> exact ⟨rfl, rfl⟩
  refine ⟨?_, ?_, ?_, ?_, ?_⟩
  · rw [hreadings]
    cases hexec : (runnerStep w jobId command s.point).exec s.tunnel with
    | mk out t' =>
      cases out with
      | error e =>
        rw [step_advance_error hexec]
        trivial
      | ok next =>
        rw [step_advance_ok hexec]
        exact runnerStep_tells hinformed.told s.tunnel next t' hexec
  · intro r hr
    cases hexec : (runnerStep w jobId command s.point).exec s.tunnel with
    | mk out t' =>
      cases out with
      | error e =>
        rw [step_advance_error hexec] at hr
        cases hr
      | ok next =>
        rw [step_advance_ok hexec] at hr
        rcases runnerStep_stored s.tunnel next t' hexec r hr with hbefore | ⟨rid, hpoint⟩
        · have hstore : s.point.toStore = none := by
            cases hpoint : s.point <;> first | rfl | (rw [hpoint] at hbefore; cases hbefore)
          rw [hresults hstore]
          exact hinformed.stored r hbefore
        · have hwritable : ResultStore.Writable w.env := by
            unfold Unhindered at hfree
            rw [hpoint] at hfree
            exact hfree
          obtain ⟨st, hupdate, hlatest⟩ := ResultStore.exec_update r s.tunnel.results hwritable
          have hexec' : (onResults (ResultStore.update w.env r)).exec s.tunnel =
              (.ok (), { s.tunnel with results := st }) := by
            rw [exec_onResults, hupdate]
          rw [htunnel, hpoint, runnerStep, Prog.exec_bind_ok hexec']
          exact hlatest
  · intro hdone
    rw [htunnel] at hdone
    rcases runnerStep_status hkey hdone with hbefore | hrunning | ⟨rid, r, hpoint, -⟩ | ⟨error, -, hfailed⟩
    · obtain ⟨hstore, hreads⟩ := hidle (phase_of_ended (.inl rfl) hcourse hbefore)
      rw [hresults hstore, hreadings, hreads, List.append_nil]
      exact hinformed.done hbefore
    · cases hrunning
    · have hstore : s.point.toStore = none := by rw [hpoint]; rfl
      have hreads : s.point.reads w = [] := by rw [hpoint]; rfl
      have htold := hinformed.told
      rw [hresults hstore, hreadings, hreads, List.append_nil]
      rw [hpoint] at htold
      exact ⟨r, hinformed.stored r (by rw [hpoint]; rfl), htold⟩
    · cases hfailed
  · intro hfailed
    rw [htunnel] at hfailed
    rcases runnerStep_status hkey hfailed with hbefore | hrunning | ⟨rid, r, -, hdone⟩ | ⟨error, hpoint, -⟩
    · obtain ⟨-, hreads⟩ := hidle (phase_of_ended (.inr rfl) hcourse hbefore)
      rw [hreadings, hreads, List.append_nil]
      exact hinformed.failed hbefore
    · cases hrunning
    · cases hdone
    · have hreads : s.point.reads w = [] := by rw [hpoint]; rfl
      have htold := hinformed.told
      rw [hreadings, hreads, List.append_nil]
      rw [hpoint] at htold
      exact htold
  · intro hcancelled
    rw [htunnel] at hcancelled
    rcases runnerStep_status hkey hcancelled with
      hbefore | hrunning | ⟨rid, r, -, hdone⟩ | ⟨error, -, hfailed⟩
    · exact hinformed.uncancelled hbefore
    · cases hrunning
    · cases hdone
    · cases hfailed

/-- A cancel request that does not cancel the job. -/
theorem Informed.cancel (env : Env) (htruthy : jobId.truthy = true) (hkey : jobId.key? = some k)
    (hcourse : OnCourse k s) (hfree : Uninterrupted command k s (.cancel env)) (hinformed : Informed k h s) :
    Informed k (h ++ [(race jobId command t₀).fire s (.cancel env)])
      (Race.step jobId command (.cancel env) s).2 := by
  have hreadings : readings (h ++ [(race jobId command t₀).fire s (.cancel env)]) = readings h := by
    simp [readings, Machine.fire]
  have hphase : s.point.phase = .finished := by
    by_contra hphase
    rcases underway_of_onCourse hcourse hphase with hother | hother | hother
    · exact hfree.1 hother
    · exact hfree.2 env rfl hother
    · exact hinformed.uncancelled hother
  unfold OnCourse at hcourse
  rw [hphase] at hcourse
  obtain ⟨⟨a, ha, hjob⟩, -⟩ := hcourse
  have hedge : .cancelled ∉ a.transitions := by
    simp only [terminalStatuses, List.mem_cons, List.not_mem_nil, or_false] at ha
    rcases ha with rfl | rfl | rfl <;> decide
  obtain ⟨-, hresults, hjobs⟩ := mJobCancel_effect env htruthy hkey hjob
  rw [if_neg hedge] at hjobs
  have hsame : ∀ b, HasJob (Race.step jobId command (.cancel env) s).2.tunnel k b → HasJob s.tunnel k b := by
    intro b hb
    unfold HasJob at hb ⊢
    change ∃ j, ((mJobCancel env [("job_id", jobId)]).exec s.tunnel).2.jobs.records.get? k = some j ∧ _ at hb
    rwa [hjobs] at hb
  have hlatest : (Race.step jobId command (.cancel env) s).2.tunnel.results = s.tunnel.results := hresults
  refine ⟨?_, ?_, ?_, ?_, ?_⟩
  · rw [hreadings]
    exact hinformed.told
  · intro r hr
    rw [hlatest]
    exact hinformed.stored r hr
  · intro hdone
    rw [hlatest, hreadings]
    exact hinformed.done (hsame _ hdone)
  · intro hfailed
    rw [hreadings]
    exact hinformed.failed (hsame _ hfailed)
  · exact fun hcancelled => hinformed.uncancelled (hsame _ hcancelled)

/-- An uninterrupted runner stays on its course. -/
theorem onCourse_of_run (htruthy : jobId.truthy = true) (hkey : jobId.key? = some k)
    (hqueued : HasJob t₀ k .queued) (hrun : Run (race jobId command t₀) (Uninterrupted command k) h s) :
    OnCourse k s := by
  have hfree : ∀ e ∈ h, Unhindered command k e.before e.input := by
    intro e he
    obtain ⟨h₁, h₂, -, -, hmove, -⟩ := hrun.split_of_mem he
    exact hmove.1
  rcases onCourse_or_hung htruthy hkey (hrun.mono fun _ _ _ => trivial) with ⟨-, hcourse⟩ | ⟨hhindered, -⟩
  · exact hcourse
  · exact absurd ⟨hqueued, hfree⟩ hhindered

/-- Every run keeps the runner informed. -/
theorem informed_of_run (htruthy : jobId.truthy = true) (hkey : jobId.key? = some k)
    (hqueued : HasJob t₀ k .queued) (hrun : Run (race jobId command t₀) (Uninterrupted command k) h s) :
    Informed k h s := by
  induction hrun with
  | init hinit =>
    obtain rfl := hinit
    refine ⟨rfl, ?_, ?_, ?_, ?_⟩
    · exact fun r hr => by cases hr
    · exact fun hdone => by cases hqueued.eq hdone
    · exact fun hfailed => by cases hqueued.eq hfailed
    · exact fun hcancelled => by cases hqueued.eq hcancelled
  | @step h s m hrun hmove ih =>
    have hcourse := onCourse_of_run htruthy hkey hqueued hrun
    cases m with
    | advance w => exact ih.advance w hkey hcourse hmove.1
    | cancel env => exact ih.cancel env htruthy hkey hcourse hmove

/-- The job is done and the latest result has the finite entries of the file that was read, at least one;
or the job has failed. -/
def EndsReal (k : Key) (h : List (Entry Race Race.Move (Except PyExc Json))) (s : Race) : Prop :=
  (HasJob s.tunnel k .done ∧ ∃ result, s.tunnel.results.latest = some result ∧
    ∃ w job text, (w, job) ∈ readings h ∧ w.metricsFile = .contents text ∧ RealResult w.env text result) ∨
  HasJob s.tunnel k .failed

/-- The steps of a runner that finds the same world at each of them. -/
def driven (jobId : Json) (command : List String) (t₀ : Tunnel) (w : World) (n : ℕ) :
    List (Entry Race Race.Move (Except PyExc Json)) :=
  (race jobId command t₀).trace ⟨.lookup, t₀, none⟩ (List.replicate n (.advance w))

/-- A driven race is advanced only. -/
theorem input_of_driven {w : World} {n : ℕ} {e : Entry Race Race.Move (Except PyExc Json)}
    (he : e ∈ driven jobId command t₀ w n) : e.input = .advance w :=
  List.eq_of_mem_replicate (Machine.input_mem_of_trace he)

/-- A runner that ends its job and its run was not interrupted. -/
theorem run_driven (htruthy : jobId.truthy = true) (hkey : jobId.key? = some k) (w : World) (n : ℕ)
    (hfinished :
      (Race.after jobId command ⟨.lookup, t₀, none⟩ (List.replicate n (.advance w))).point.finished = true)
    (hended : Ended k (Race.after jobId command ⟨.lookup, t₀, none⟩ (List.replicate n (.advance w)))) :
    Run (race jobId command t₀) (Uninterrupted command k) (driven jobId command t₀ w n)
      (Race.after jobId command ⟨.lookup, t₀, none⟩ (List.replicate n (.advance w))) := by
  have hrun : Run (race jobId command t₀) (fun _ _ => True) (driven jobId command t₀ w n)
      (Race.after jobId command ⟨.lookup, t₀, none⟩ (List.replicate n (.advance w))) :=
    Run.append_trace (.init rfl) _ fun _ _ => trivial
  refine hrun.restrict fun e he => ⟨?_, fun env hcancel => ?_⟩
  · rcases onCourse_or_hung htruthy hkey hrun with ⟨⟨-, hfree⟩, -⟩ | ⟨-, hhung⟩
    · exact hfree e he
    · exact absurd hended (not_ended_of_hung hhung hfinished)
  · cases (input_of_driven he).symm.trans hcancel

/-- The files read are those the world has. -/
theorem reads_of_driven {w w' : World} {job : Obj} {n : ℕ}
    (hread : (w', job) ∈ readings (driven jobId command t₀ w n)) : w' = w := by
  obtain ⟨e, he, hmem⟩ := List.mem_flatMap.mp hread
  rw [input_of_driven he] at hmem
  cases hpoint : e.before.point with
  | readMetrics job' rid =>
    rw [hpoint] at hmem
    exact (Prod.mk.inj (List.mem_singleton.mp hmem)).1
  | _ =>
    rw [hpoint] at hmem
    cases hmem

end Runs

section Examples

/-- What a runner finds whose simulator leaves this text. -/
def sampleLeaving (env : Env) (text : String) : World := ⟨env, .exited 0 "", .exited 0 "", .contents text⟩

/-- The race for `job_1` with this text. -/
def sampleTextRace (env : Env) (text : String) : Race :=
  Race.after (.str "job_1") ["spectre"] ⟨.lookup, sampleQueued, none⟩
    (List.replicate 15 (.advance (sampleLeaving env text)))

/-- The record of `job_1` at the end. -/
def sampleTextJob (env : Env) (text : String) : Obj :=
  ((sampleTextRace env text).tunnel.jobs.records.get? (.str "job_1")).getD []

/-- The record of its run. -/
def sampleTextRun (env : Env) (text : String) : Obj :=
  ((sampleTextRace env text).tunnel.runs.records.get? (.str "run_0123456789ab")).getD []

/-- The race of the sample has finished. -/
theorem sampleGain_finished : (sampleTextRace .sample "gain=1.5").point.finished = true := by rfl

/-- Its job. -/
theorem sampleGain_job : (sampleTextRace .sample "gain=1.5").tunnel.jobs.records.get? (.str "job_1") =
    some (sampleTextJob .sample "gain=1.5") := by rfl

/-- Its run. -/
theorem sampleGain_run : (sampleTextRace .sample "gain=1.5").tunnel.runs.records.get? (.str "run_0123456789ab") =
    some (sampleTextRun .sample "gain=1.5") := by rfl

/-- The race with a value that is no number has finished. -/
theorem sampleNan_finished : (sampleTextRace .readingNan "gain=nan").point.finished = true := by rfl

/-- Its job. -/
theorem sampleNan_job : (sampleTextRace .readingNan "gain=nan").tunnel.jobs.records.get? (.str "job_1") =
    some (sampleTextJob .readingNan "gain=nan") := by rfl

/-- Its run. -/
theorem sampleNan_run : (sampleTextRace .readingNan "gain=nan").tunnel.runs.records.get? (.str "run_0123456789ab") =
    some (sampleTextRun .readingNan "gain=nan") := by rfl

/-- A race whose records say that the job and its run are done was not interrupted. -/
theorem run_sampleText {env : Env} {text : String} {result : Json}
    (hfinished : (sampleTextRace env text).point.finished = true)
    (hjob : (sampleTextRace env text).tunnel.jobs.records.get? (.str "job_1") = some (sampleTextJob env text))
    (hrun : (sampleTextRace env text).tunnel.runs.records.get? (.str "run_0123456789ab") =
      some (sampleTextRun env text))
    (hid : (sampleTextRace env text).runId = some "run_0123456789ab")
    (hdone : jobLifecycle.At (sampleTextJob env text) .done)
    (hrundone : IsRun "run_0123456789ab" "done" result (sampleTextRun env text)) :
    Run (race (.str "job_1") ["spectre"] sampleQueued) (Uninterrupted ["spectre"] (.str "job_1"))
      (driven (.str "job_1") ["spectre"] sampleQueued (sampleLeaving env text) 15) (sampleTextRace env text) := by
  have hended : Ended (.str "job_1") (sampleTextRace env text) := by
    refine ⟨⟨.done, by simp [terminalStatuses], _, hjob, hdone⟩, fun id hid' => ?_⟩
    obtain rfl : "run_0123456789ab" = id := Option.some.inj (hid.symm.trans hid')
    exact ⟨"done", by simp, result, _, hrun, hrundone⟩
  exact run_driven rfl rfl (sampleLeaving env text) 15 hfinished hended

end Examples

end VirtuosoFlow.Tunnel
