import VirtuosoFlow.Tunnel.Python

/-!
# Simulation results

`sim/metrics.py`, `sim/parser.py` and the result store (`sim/manager.py`). Text is
handled as lists of characters.
-/

namespace VirtuosoFlow.Tunnel

open Base

/-- `_coerce_number(v)`: numbers and number texts, finite ones only. -/
def coerceNumber (env : Env) : Json → Option Json
  | .int n => some (.int n)
  | .float (.finite q) => some (.float (.finite q))
  | .str s =>
    match env.floatOf s with
    | some (.finite q) => some (.float (.finite q))
    | _ => none
  | _ => none

/-- `extract_metrics(obj)`. -/
def extractMetrics (env : Env) (v : Json) : Obj :=
  let src := match v with
    | .obj members => (members.lookup "metrics").getD v
    | _ => v
  match src with
  | .obj members => members.filterMap fun (k, v) => (coerceNumber env v).map (k, ·)
  | _ => []

/-- `make_result(data)`. -/
def makeResult (env : Env) (data : Obj) : Obj :=
  let r := if (Obj.get data "result_id").truthy then data
    else Obj.set data "result_id" (.str ("r_" ++ env.uuid))
  let r := Obj.set r "metrics" (.obj (extractMetrics env (.obj r)))
  let has02 := (Obj.get r "provenance").truthy || (Obj.get r "metric_quality").truthy
  let r := Obj.setDefault r "schema_version" (.str (if has02 then "0.2" else "0.1"))
  let r := Obj.setDefault r "source" (.str "manual")
  Obj.setDefault r "created_at" env.stamp

/-- `str.isspace` of one character. -/
def isPySpace (c : Char) : Bool :=
  let n := c.toNat
  (9 ≤ n && n ≤ 13) || (28 ≤ n && n ≤ 32) || n == 0x85 || n == 0xa0 || n == 0x1680 ||
    (0x2000 ≤ n && n ≤ 0x200a) || n == 0x2028 || n == 0x2029 || n == 0x202f ||
    n == 0x205f || n == 0x3000

/-- The characters that end a line for `str.splitlines`. -/
def isLineEnd (c : Char) : Bool :=
  let n := c.toNat
  (10 ≤ n && n ≤ 13) || (28 ≤ n && n ≤ 30) || n == 0x85 || n == 0x2028 || n == 0x2029

/-- `s.strip()`. -/
def strip (s : List Char) : List Char :=
  ((s.dropWhile isPySpace).reverse.dropWhile isPySpace).reverse

/-- `text.splitlines()`, the current line given so far. A carriage return followed by a
newline ends one line; the empty lines that splitting them leaves are skipped anyway. -/
def splitLines (line : List Char) : List Char → List (List Char)
  | [] => if line.isEmpty then [] else [line]
  | c :: rest => if isLineEnd c then line :: splitLines [] rest else splitLines (line ++ [c]) rest

/-- `line.partition(sep)` as key and value; `none` where `sep not in line`. -/
def partitionAt (sep : Char) (line : List Char) : Option (List Char × List Char) :=
  if line.contains sep then
    some (line.takeWhile (· != sep), (line.dropWhile (· != sep)).tail)
  else none

/-- The first separator of a line decides its key and value. -/
def lineEntry (env : Env) (raw : List Char) : Option (String × Json) :=
  let line := strip raw
  if line.isEmpty || line.head? == some '#' || line.head? == some ';' then none
  else do
    let (key, val) ← ['=', ',', '\t', ' '].findSome? fun sep => partitionAt sep line
    let x ← env.floatOf (String.ofList (strip val))
    return (String.ofList (strip key), .float x)

/-- `_parse_text(text)`. -/
def parseText (env : Env) (text : String) : Obj :=
  (splitLines [] text.toList).foldl (fun metrics raw =>
    match lineEntry env raw with
    | some (key, x) => Obj.set metrics key x
    | none => metrics) []

/-- `parse_result_file(path)` of a file with this text. -/
def parseResultFile (env : Env) (text : String) : Except PyExc Obj :=
  let first := (text.toList.dropWhile isPySpace).head?
  if first == some '{' || first == some '[' then
    match env.jsonLoads text with
    | .error e => .error e
    | .ok v =>
      let out : Obj := [("metrics", .obj (extractMetrics env v))]
      match v with
      | .obj members => .ok (["provenance", "metric_quality"].foldl (fun out key =>
          match Obj.get members key with
          | .obj block => if block.isEmpty then out else Obj.set out key (.obj block)
          | _ => out) out)
      | _ => .ok out
  else .ok [("metrics", .obj (parseText env text))]

/-- The result store: the latest result in memory and on disk, and the dated copies. -/
structure ResultStore where
  latest : Option Obj
  latestFile : Option Obj
  history : List (String × Obj)

/-- A store freshly constructed over an empty directory. -/
def ResultStore.empty : ResultStore := ⟨none, none, []⟩

/-- `update(result)`. -/
def ResultStore.update (env : Env) (result : Obj) : Prog PyExc ResultStore Unit := do
  if !env.dirsOk then throw (.osError (.text "results" []))
  modify fun st => { st with latest := some result }
  if !env.writable "latest_result.json" then
    throw (.osError (.text "latest_result.json" []))
  modify fun st => { st with latestFile := some result }
  let name := "result_" ++ env.fileStamp env.now ++ ".json"
  if !env.writable name then throw (.osError (.text name []))
  modify fun st => { st with history := st.history ++ [(name, result)] }

section Specifications

variable {env : Env} {data : Obj}

/-- A new result has an id that is true: a false one is replaced. -/
theorem truthy_id_makeResult : (Obj.get (makeResult env data) "result_id").truthy = true := by
  unfold makeResult
  dsimp only
  split
  · rename_i hid
    simpa using hid
  · simp

/-- The disk takes the three writes of `update`. -/
def ResultStore.Writable (env : Env) : Prop :=
  env.dirsOk = true ∧ env.writable "latest_result.json" = true ∧
    env.writable ("result_" ++ env.fileStamp env.now ++ ".json") = true

/-- Where the disk takes the writes, the result becomes the latest. -/
theorem ResultStore.exec_update (result : Obj) (st : ResultStore) (h : Writable env) :
    ∃ st', (update env result).exec st = (.ok (), st') ∧ st'.latest = some result := by
  obtain ⟨hdirs, hlatest, hdated⟩ := h
  refine ⟨⟨some result, some result,
    st.history ++ [("result_" ++ env.fileStamp env.now ++ ".json", result)]⟩, ?_, rfl⟩
  simp [update, Prog.exec_bind, hdirs, hlatest, hdated]

/-- Where it does not, `update` raises. -/
theorem ResultStore.exec_update_error (result : Obj) (st : ResultStore)
    (h : ¬ Writable env) :
    ∃ e st', (update env result).exec st = (.error e, st') := by
  unfold update
  by_cases hdirs : env.dirsOk = true
  · by_cases hlatest : env.writable "latest_result.json" = true
    · have hdated : ¬ env.writable ("result_" ++ env.fileStamp env.now ++ ".json") = true :=
        fun hdated => h ⟨hdirs, hlatest, hdated⟩
      exact ⟨_, _, by simp [Prog.exec_bind, hdirs, hlatest, hdated]; exact ⟨rfl, rfl⟩⟩
    · exact ⟨_, _, by simp [Prog.exec_bind, hdirs, hlatest]; exact ⟨rfl, rfl⟩⟩
  · exact ⟨_, _, by simp [Prog.exec_bind, hdirs]; exact ⟨rfl, rfl⟩⟩

end Specifications

end VirtuosoFlow.Tunnel
