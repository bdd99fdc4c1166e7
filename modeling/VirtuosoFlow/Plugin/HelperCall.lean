import VirtuosoFlow.Base.Lines
import VirtuosoFlow.Tunnel.Connection
import VirtuosoFlow.Tunnel.Values
import VirtuosoFlow.Plugin.CommandLine
import VirtuosoFlow.Plugin.EncoderText
import VirtuosoFlow.Plugin.ReplyText
import VirtuosoFlow.Plugin.Rpc

/-!
# A call through the helper

What stands between a call of the plugin and the handler in the tunnel: the command line and the shell that reads
it, the arguments of `skillrpc.py` and the params it makes of them, a line of JSON each way over a connection
whose bytes arrive in pieces, and the text that the plugin reads. Between them the call is what `vfpRpcExec` of
the world says.
-/

namespace VirtuosoFlow.Plugin

open Base Base.Shell JsonText Tunnel

namespace Helper

section Launch

/-- What the shell runs, and where it sends the output. -/
structure Launched where
  words : List (List Char)
  stdout : Option (List Char)

/-- One command with its redirections. -/
def launched : List Token → Option Launched
  | [] => some ⟨[], none⟩
  | .word w :: rest => (launched rest).map fun l => { l with words := w :: l.words }
  | .operator ['>'] :: .word file :: rest =>
    (launched rest).map fun l => { l with stdout := some (l.stdout.getD file) }
  | .ioNumber ['2'] :: .operator ['>', '>'] :: .word _ :: rest => launched rest
  | _ => none

/-- The arguments of the module, in `env -u VAR VAR= VAR= python -m module ...`. -/
def moduleArgs : List (List Char) → Option (List String)
  | _ :: _ :: _ :: _ :: _ :: _ :: dash :: module :: args =>
    if dash = "-m".toList ∧ module = "vfp_tunnel.skillrpc".toList then some (args.map String.ofList) else none
  | _ => none

end Launch

section Arguments

/-- What `main` uses of its parsed arguments. -/
structure HelperArgs where
  method : Option String
  param : List String
  paramJson : List String
  paramsFile : Option String

/-- A word that begins with a dash. -/
def isOption (word : String) : Bool := word.toList.head? == some '-'

/-- `ap.parse_args(argv)`; nothing where it exits. Each option is followed by its value. -/
def parseArgs : HelperArgs → List String → Option HelperArgs
  | args, [] => some args
  | args, word :: rest =>
    if isOption word then
      match rest with
      | [] => none
      | value :: rest =>
        if isOption value then none
        else if word = "--param" then parseArgs { args with param := args.param ++ [value] } rest
        else if word = "--param-json" then parseArgs { args with paramJson := args.paramJson ++ [value] } rest
        else if word = "--params-file" then parseArgs { args with paramsFile := some value } rest
        else none
    else
      match args.method with
      | none => parseArgs { args with method := some word } rest
      | some _ => none

/-- What `main` catches, or does not. -/
inductive Failure where
  /-- `JsonRpcError(code, message)`. -/
  | rpc (code message : Json)
  /-- `OSError`. -/
  | os
  | uncaught

/-- `kv.partition("=")`, without the separator. -/
def partitionParam (kv : String) : String × String :=
  (String.ofList (kv.toList.takeWhile (· ≠ '=')), String.ofList (kv.toList.dropWhile (· ≠ '=')).tail)

variable (fmt : FloatFormat) (files : String → Option (List Char))

/-- The object in `args.params_file`. -/
def loadedParams : Option String → Except Failure Obj
  | none => .ok []
  | some path =>
    match files path with
    | none => .error .os
    | some text =>
      match loads fmt text with
      | none => .error .uncaught
      | some (.obj loaded) => .ok (Obj.update [] loaded)
      | some _ => .ok []

/-- `params[key] = json.loads(val)`. -/
def setJson (params : Obj) (kv : String) : Except Failure Obj :=
  match loads fmt (partitionParam kv).2.toList with
  | none => .error .uncaught
  | some v => .ok (Obj.set params (partitionParam kv).1 v)

/-- The params of `session.register` are the client. -/
def wrapClient (method : String) (params : Obj) : Obj :=
  if method = "session.register" then [("client", .obj params)] else params

/-- `_params(args)`. -/
def helperParams (method : String) (args : HelperArgs) : Except Failure Obj := do
  let params ← loadedParams fmt files args.paramsFile
  let params := args.param.foldl
    (fun params kv => Obj.set params (partitionParam kv).1 (.str (partitionParam kv).2)) params
  let params ← args.paramJson.foldlM (setJson fmt) params
  return wrapClient method params

end Arguments

section Wire

variable {σ : Type} (fmt : FloatFormat) (d : Dispatcher σ)

/-- The request that `call` sends; `id` is the number it draws. -/
def requestOf (id method : String) (params : Obj) : Obj :=
  [("jsonrpc", .str "2.0"), ("id", .str id), ("method", .str method), ("params", .obj params)]

/-- The loop over the lines of a connection, and the bytes it writes. -/
def serve : List (List UInt8) → σ → List UInt8 × σ
  | [], s => ([], s)
  | line :: rest, s =>
    match (handleLine fmt d (line ++ [10])).exec s with
    | (.ok out, s') => ((out.toList.flatMap fun r => lineOf fmt (.obj r)) ++ (serve rest s').1, (serve rest s').2)
    | (.error _, s') => ([], s')

/-- `while b"\n" not in buf`: receive until a line is there or the connection is closed. -/
def receive : List (List UInt8) → List UInt8 → List UInt8
  | [], buf => buf
  | chunk :: rest, buf => if 10 ∈ buf ∨ chunk = [] then buf else receive rest (buf ++ chunk)

/-- `call`, from the bytes it received on. -/
def replied (buf : List UInt8) : Except Failure Json :=
  let line := buf.takeWhile (· ≠ 10)
  if line = [] then .error (.rpc (.int (-32000)) (.str "no response from tunnel"))
  else
    match parseLine fmt line with
    | some (.obj resp) =>
      if (Obj.get resp "error").truthy then
        match Obj.get resp "error" with
        | .obj e => .error (.rpc (Obj.get e "code") (Obj.get e "message"))
        | _ => .error .uncaught
      else .ok (Obj.get resp "result")
    | _ => .error .uncaught

/-- `call(method, params)`; the connection cuts the response into pieces. -/
def call (cut : List UInt8 → List (List UInt8)) (id method : String) (params : Obj) (s : σ) :
    Except Failure Json × σ :=
  let served := serve fmt d (completeLines 10 (lineOf fmt (.obj (requestOf id method params)))) s
  (replied fmt (receive (cut served.1) []), served.2)

/-- What `main` writes, unless it raises. -/
def printed (unreachable : String) : Except Failure Json → Option (List Char)
  | .ok result => some (Sexpr.replyText fmt true result)
  | .error (.rpc code message) => some (Sexpr.replyText fmt false (.obj [("code", code), ("message", message)]))
  | .error .os => some (Sexpr.replyText fmt false (.obj [("code", .int (-32000)), ("message", .str unreachable)]))
  | .error .uncaught => none

end Wire

section Calls

/-- What a call meets besides the tunnel: the texts of files, the number it draws, how the response is cut, the
message of an endpoint that cannot be reached, and the encoding of its standard output. -/
structure Surroundings where
  files : String → Option (List Char)
  id : String
  cut : List UInt8 → List (List UInt8)
  unreachable : String
  stdout : Sexpr.Stdout

variable {σ : Type} (fmt : FloatFormat) (d : Dispatcher σ) (around : Surroundings)

/-- `main(argv)`: what it prints, unless it does not get to. -/
def main (argv : List String) (s : σ) : Option (List Char) × σ :=
  match parseArgs ⟨none, [], [], none⟩ argv with
  | some ⟨some method, param, paramJson, paramsFile⟩ =>
    match helperParams fmt around.files method ⟨some method, param, paramJson, paramsFile⟩ with
    | .error e => ((printed fmt around.unreachable (.error e)).bind around.stdout.write, s)
    | .ok params =>
      let called := call fmt d around.cut around.id method params s
      ((printed fmt around.unreachable called.1).bind around.stdout.write, called.2)
  | _ => (none, s)

/-- `list(nil list(list("code" -32000) list("message" "helper exec failed")))`. -/
def execFailed : Value :=
  Sexpr.replyPair false (.obj [("code", .int (-32000)), ("message", .str "helper exec failed")])

/-- `list(nil list(list("message" text)))`. -/
def unread (text : String) : Value := Sexpr.replyPair false (.obj [("message", .str text)])

/-- `vfpRpcExec(method args)`. -/
def vfpRpcExec (env : ShellSetup) (method : RpcMethod) (args : List String) (s : σ) : Value × σ :=
  match (tokens (rpcCommand env method args).toList).bind launched with
  | none => (execFailed, s)
  | some l =>
    match moduleArgs l.words with
    | none => (execFailed, s)
    | some argv =>
      let ran := main fmt d around argv s
      match ran.1 with
      | none => (execFailed, ran.2)
      | some text =>
        if l.stdout = some env.out.toList then
          ((Sexpr.skillRead fmt text).getD (unread "parse error"), ran.2)
        else (unread "no helper output", ran.2)

/-- `vfpRpcCall(method params)`. -/
def vfpRpcCall (env : ShellSetup) (method : RpcMethod) (params : List (String × String)) (s : σ) : Value × σ :=
  vfpRpcExec fmt d around env method (params.flatMap fun pair => ["--param", pair.1 ++ "=" ++ pair.2]) s

end Calls

section Words

variable {env : ShellSetup} {method : RpcMethod} {args : List String}

/-- Words are arguments of the command. -/
theorem launched_words (words : List (List Char)) (rest : List Token) :
    launched (words.map .word ++ rest) = (launched rest).map fun l => { l with words := words ++ l.words } := by
  induction words with
  | nil => simp
  | cons w words ih =>
    rw [List.map_cons, List.cons_append, launched, ih, Option.map_map]
    rfl

/-- The words of the command, and the file that the plugin reads. -/
theorem launched_rpcTokens : launched (rpcTokens env method args) =
    some ⟨["env".toList, "-u".toList, "PYTHONHOME".toList, "LD_LIBRARY_PATH=".toList,
      ("PYTHONPATH=" ++ env.vfpTunnelDir).toList, env.vfpRpcPython.toList, "-m".toList,
      "vfp_tunnel.skillrpc".toList, method.name.toList] ++ args.map String.toList, some env.out.toList⟩ := by
  have hwords : rpcTokens env method args =
      (["env".toList, "-u".toList, "PYTHONHOME".toList, "LD_LIBRARY_PATH=".toList,
        ("PYTHONPATH=" ++ env.vfpTunnelDir).toList, env.vfpRpcPython.toList, "-m".toList,
        "vfp_tunnel.skillrpc".toList, method.name.toList] ++ args.map String.toList).map .word ++
      [.operator ['>'], wordToken env.out, .ioNumber ['2'], .operator ['>', '>'], wordToken env.errf] := by
    simp [rpcTokens, wordToken]
  rw [hwords, launched_words]
  simp [launched, wordToken]

/-- What stands behind the module is given to it. -/
theorem moduleArgs_words (a b c d e f : List Char) (args : List (List Char)) :
    moduleArgs (a :: b :: c :: d :: e :: f :: "-m".toList :: "vfp_tunnel.skillrpc".toList :: args) =
      some (args.map String.ofList) := by
  rw [moduleArgs, if_pos ⟨rfl, rfl⟩]

/-- The module gets the method and the arguments of the call, if no quote is in the way. -/
theorem moduleArgs_rpcCommand (method : RpcMethod) (hargs : ∀ a ∈ args, '\'' ∉ a.toList)
    (hroot : '\'' ∉ env.repoRoot.toList) (hpython : '\'' ∉ env.vfpRpcPython.toList)
    (htmp : '\'' ∉ (env.tmpDir.getD "/tmp").toList) :
    ∃ l, (tokens (rpcCommand env method args).toList).bind launched = some l ∧
      moduleArgs l.words = some (method.name :: args) ∧ l.stdout = some env.out.toList := by
  have htokens : tokens (rpcCommand env method args).toList = some (rpcTokens env method args) :=
    tokens_rpcCommand_iff.mpr ⟨quote_not_mem_vfpTunnelDir_iff.mpr hroot, hpython, hargs,
    quote_not_mem_out_iff.mpr htmp, quote_not_mem_errf_iff.mpr htmp⟩
  refine ⟨_, by rw [htokens, Option.bind_some, launched_rpcTokens], ?_, rfl⟩
  rw [List.cons_append, List.cons_append, List.cons_append, List.cons_append, List.cons_append, List.cons_append,
    List.cons_append, List.cons_append, moduleArgs_words]
  simp

end Words

section Params

/-- An argument that the plugin adds to a call. -/
inductive RpcArg where
  /-- `--param key=value`. -/
  | param (key value : String)
  /-- `--params-file path`. -/
  | file (path : String)

/-- The words of an argument. -/
def RpcArg.words : RpcArg → List String
  | .param key value => ["--param", key ++ "=" ++ value]
  | .file path => ["--params-file", path]

/-- Neither a key nor a path begins with a dash, and a key has no equals sign. -/
def RpcArg.Plain : RpcArg → Prop
  | .param key _ => isOption key = false ∧ '=' ∉ key.toList
  | .file path => isOption path = false

/-- The text of a param. -/
def RpcArg.text? : RpcArg → Option String
  | .param key value => some (key ++ "=" ++ value)
  | .file _ => none

/-- The params file of a call, if an argument names one. -/
def RpcArg.lastFile (file : Option String) : RpcArg → Option String
  | .param _ _ => file
  | .file path => some path

/-- The params after an argument. -/
def RpcArg.set (params : Obj) : RpcArg → Obj
  | .param key value => Obj.set params key (.str value)
  | .file _ => params

variable {fmt : FloatFormat} {files : String → Option (List Char)} {args : List RpcArg}

/-- The params that the arguments of a call stand for. -/
def sentParams (fmt : FloatFormat) (files : String → Option (List Char)) (method : String) (args : List RpcArg) :
    Except Failure Obj :=
  (loadedParams fmt files (args.foldl RpcArg.lastFile none)).map fun loaded =>
    wrapClient method (args.foldl RpcArg.set loaded)

/-- A param is no option if its key is none. -/
theorem isOption_append {key : String} (h : isOption key = false) (value : String) :
    isOption (key ++ "=" ++ value) = false := by
  unfold isOption at h ⊢
  rw [String.toList_append, String.toList_append]
  cases hkey : key.toList with
  | nil => rfl
  | cons c cs =>
    rw [hkey] at h
    exact h

/-- A param is parted at its first equals sign. -/
theorem partitionParam_append {key : String} (h : '=' ∉ key.toList) (value : String) :
    partitionParam (key ++ "=" ++ value) = (key, value) := by
  have htext : (key ++ "=" ++ value).toList = key.toList ++ '=' :: value.toList := by
    rw [String.toList_append, String.toList_append]
    simp
  have hall : ∀ c ∈ key.toList, decide (c ≠ '=') = true := by
    intro c hc
    rw [decide_eq_true_eq]
    rintro rfl
    exact h hc
  rw [partitionParam, htext, List.takeWhile_append_of_pos hall, List.dropWhile_append_of_pos hall]
  simp

/-- The first word is the method. -/
theorem parseArgs_method {word : String} (h : isOption word = false) (rest : List String) :
    parseArgs ⟨none, [], [], none⟩ (word :: rest) = parseArgs ⟨some word, [], [], none⟩ rest := by
  rw [parseArgs.eq_def]
  simp only [h, Bool.false_eq_true, if_false]

/-- The words of the arguments are taken as they are meant. -/
theorem parseArgs_words (hplain : ∀ arg ∈ args, arg.Plain) (a : HelperArgs) :
    parseArgs a (args.flatMap RpcArg.words) = some { a with
      param := a.param ++ args.filterMap RpcArg.text?
      paramsFile := args.foldl RpcArg.lastFile a.paramsFile } := by
  induction args generalizing a with
  | nil => simp [parseArgs]
  | cons arg args ih =>
    have hrest := ih fun arg harg => hplain arg (List.mem_cons_of_mem _ harg)
    have hthis := hplain arg List.mem_cons_self
    cases arg with
    | param key value =>
      have hoption : isOption "--param" = true := by decide
      have hvalue := isOption_append hthis.1 value
      rw [List.flatMap_cons, RpcArg.words, List.cons_append, List.cons_append, List.nil_append, parseArgs,
        if_pos hoption]
      simp only [hvalue, Bool.false_eq_true, if_false, if_true, hrest]
      simp [RpcArg.text?, RpcArg.lastFile]
    | file path =>
      have hoption : isOption "--params-file" = true := by decide
      have hvalue : isOption path = false := hthis
      have hother : "--params-file" ≠ "--param" ∧ "--params-file" ≠ "--param-json" := by decide
      rw [List.flatMap_cons, RpcArg.words, List.cons_append, List.cons_append, List.nil_append, parseArgs,
        if_pos hoption]
      simp only [hvalue, Bool.false_eq_true, if_false, if_neg hother.1, if_neg hother.2, if_true, hrest]
      rw [List.filterMap_cons_none rfl, List.foldl_cons, RpcArg.lastFile]

/-- The params given as texts are set one after the other. -/
theorem foldl_texts (hplain : ∀ arg ∈ args, arg.Plain) (params : Obj) :
    (args.filterMap RpcArg.text?).foldl
        (fun params kv => Obj.set params (partitionParam kv).1 (.str (partitionParam kv).2)) params =
      args.foldl RpcArg.set params := by
  induction args generalizing params with
  | nil => rfl
  | cons arg args ih =>
    have hrest := fun params => ih (fun arg harg => hplain arg (List.mem_cons_of_mem _ harg)) params
    cases arg with
    | param key value =>
      have hkey : '=' ∉ key.toList := (hplain _ List.mem_cons_self).2
      simp only [List.filterMap_cons, RpcArg.text?, List.foldl_cons, partitionParam_append hkey, RpcArg.set, hrest]
    | file path =>
      rw [List.filterMap_cons_none rfl]
      exact hrest params

/-- The params of the helper are those that the arguments stand for. -/
theorem helperParams_words (hplain : ∀ arg ∈ args, arg.Plain) (method : String) (m : Option String) :
    helperParams fmt files method
        ⟨m, args.filterMap RpcArg.text?, [], args.foldl RpcArg.lastFile none⟩ =
      sentParams fmt files method args := by
  unfold helperParams sentParams
  cases loadedParams fmt files (args.foldl RpcArg.lastFile none) with
  | error e => rfl
  | ok loaded =>
    show Except.ok _ = Except.ok _
    rw [foldl_texts hplain]

/-- And they are a value. -/
theorem wellFormed_sentParams {method : String} {params : Obj} (h : sentParams fmt files method args = .ok params) :
    WellFormed fmt (.obj params) := by
  have hset : ∀ loaded : Obj, WellFormed fmt (.obj loaded) →
      WellFormed fmt (.obj (args.foldl RpcArg.set loaded)) := by
    clear h
    induction args with
    | nil => exact fun _ h => h
    | cons arg args ih =>
      intro loaded hloaded
      refine ih _ ?_
      cases arg with
      | param key value => exact hloaded.set key (wellFormed_str value)
      | file path => exact hloaded
  have hloaded : ∀ loaded, loadedParams fmt files (args.foldl RpcArg.lastFile none) = .ok loaded →
      WellFormed fmt (.obj loaded) := by
    intro loaded hl
    unfold loadedParams at hl
    split at hl
    · obtain rfl := Except.ok.inj hl
      exact wellFormed_empty
    · split at hl
      · cases hl
      · split at hl
        · cases hl
        · rename_i members hparsed
          obtain rfl := Except.ok.inj hl
          exact WellFormed.update wellFormed_empty (wellFormed_obj_iff.mp (Sexpr.wellFormed_loads hparsed)).2
        · obtain rfl := Except.ok.inj hl
          exact wellFormed_empty
  unfold sentParams at h
  cases hl : loadedParams fmt files (args.foldl RpcArg.lastFile none) with
  | error e =>
    rw [hl] at h
    cases h
  | ok loaded =>
    rw [hl] at h
    obtain rfl := Except.ok.inj h
    unfold wrapClient
    split
    · exact wellFormed_obj_iff.mpr ⟨by simp, by simpa using hset loaded (hloaded loaded hl)⟩
    · exact hset loaded (hloaded loaded hl)

end Params

section Bytes

variable {fmt : FloatFormat}

/-- A line end is no byte of another character of one byte. -/
theorem newline_not_mem_encodeUtf8 {text : List Char} (h : ∀ c ∈ text, Ascii c) : 10 ∉ encodeUtf8 text := by
  induction text with
  | nil => simp [encodeUtf8]
  | cons c text ih =>
    obtain ⟨hlow, hhigh⟩ := h c List.mem_cons_self
    have hval : c.val.toNat < 127 := hhigh
    have hsize : c.utf8Size = 1 := Char.utf8Size_eq_one_iff.mpr (UInt32.le_iff_toNat_le.mpr (by simpa using hval.le))
    have hsingle : encodeUtf8 [c] = [c.val.toUInt8] := by
      simp [encodeUtf8, List.utf8Encode, String.utf8EncodeChar_eq_singleton hsize]
    have hother : c.val.toUInt8 ≠ 10 := by
      intro heq
      have hnat := congrArg UInt8.toNat heq
      have hsmall : c.val.toNat = 10 := by
        rw [UInt32.toNat_toUInt8, Nat.mod_eq_of_lt (by omega)] at hnat
        exact hnat
      have : c.toNat = 10 := hsmall
      omega
    rw [← List.singleton_append, encodeUtf8_append, hsingle]
    intro hmem
    rcases List.mem_append.mp hmem with hnew | hold
    · exact hother (List.mem_singleton.mp hnew).symm
    · exact ih (fun c hc => h c (List.mem_cons_of_mem _ hc)) hold

/-- The line of an object, without its end. -/
theorem lineOf_eq {o : Obj} (h : WellFormed fmt (.obj o)) :
    ∃ body, lineOf fmt (.obj o) = body ++ [10] ∧ 10 ∉ body ∧ body ≠ [] ∧ parseLine fmt body = some (.obj o) := by
  have hline : lineOf fmt (.obj o) = encodeUtf8 (dumps fmt none (.obj o)) ++ [10] := by
    rw [lineOf, encodeUtf8_append]
    rfl
  refine ⟨_, hline, newline_not_mem_encodeUtf8 (ascii_print _ 0 h), fun hempty => ?_, ?_⟩
  · have hblank := (parseLine_lineOf h).1
    rw [hline, hempty] at hblank
    exact hblank (by decide)
  · rw [parseLine, decodeUtf8_encodeUtf8]
    exact loads_dumps none h

/-- Whatever pieces a line arrives in, the line is what is received up to its end. -/
theorem takeWhile_receive {body : List UInt8} (hbody : 10 ∉ body) (chunks : List (List UInt8)) {buf : List UInt8}
    (hne : [] ∉ chunks) (h : buf ++ chunks.flatten = body ++ [10]) :
    (receive chunks buf).takeWhile (· ≠ 10) = body := by
  have hline : (body ++ [10]).takeWhile (· ≠ (10 : UInt8)) = body := by
    rw [List.takeWhile_append_of_pos fun b hb => by
      rw [decide_eq_true_eq]
      rintro rfl
      exact hbody hb]
    simp
  induction chunks generalizing buf with
  | nil =>
    rw [List.flatten_nil, List.append_nil] at h
    rw [receive, h, hline]
  | cons chunk rest ih =>
    rw [receive]
    split
    · rename_i hstop
      obtain hend | rfl := hstop
      · obtain ⟨front, back, rfl, hfront⟩ := List.eq_append_cons_of_mem hend
        have hall : ∀ b ∈ front, decide (b ≠ (10 : UInt8)) = true := by
          intro b hb
          rw [decide_eq_true_eq]
          rintro rfl
          exact hfront hb
        rw [← hline, ← h, List.takeWhile_append_of_pos hall, List.append_assoc,
          List.takeWhile_append_of_pos hall]
        simp
      · exact absurd List.mem_cons_self hne
    · refine ih (fun hmem => hne (List.mem_cons_of_mem _ hmem)) ?_
      rw [List.append_assoc, ← List.flatten_cons]
      exact h

end Bytes

section Exchange

variable {σ : Type} {fmt : FloatFormat} {d : Dispatcher σ} {id method : String} {params : Obj}
  {fn : Obj → Prog PyExc σ Json} {s : σ} {cut : List UInt8 → List (List UInt8)} {out : Except PyExc Json}

/-- What a handler returned, or raised with an error, goes through JSON. -/
def Transmissible (fmt : FloatFormat) : Except PyExc Json → Prop
  | .ok result => WellFormed fmt result
  | .error (.rpc _ _ (some data)) => WellFormed fmt data
  | .error _ => True

/-- The standard output of the helper encodes what it prints for an outcome. -/
def Encodes (out : Sexpr.Stdout) (excText : PyExc → String) : Except PyExc Json → Prop
  | .ok result => out.Encodes result
  | .error e => ∀ c ∈ (excText e).toList, out.encodes c = true

/-- The pieces of a stream of bytes are not empty, and go together to the stream. -/
def Cuts (cut : List UInt8 → List (List UInt8)) : Prop := ∀ bytes, (cut bytes).flatten = bytes ∧ [] ∉ cut bytes

/-- What `call` returns or raises for the outcome of a handler. -/
def transmitted (excText : PyExc → String) : Except PyExc Json → Except Failure Json
  | .ok result => .ok result
  | .error (.rpc code m data) => .error (.rpc (.int code) (.str (excText (.rpc code m data))))
  | .error e => .error (.rpc (.int internalError) (.str (excText e)))

/-- An integer is well formed. -/
theorem wellFormed_int (n : ℤ) : WellFormed fmt (.int n) := trivial

/-- An error answer is a value when its data is. -/
theorem wellFormed_error (id : String) (code : ℤ) (message : String) {data : Option Json}
    (hdata : ∀ v, data = some v → WellFormed fmt v) :
    WellFormed fmt (.obj (error (.str id) code message data)) := by
  have hmembers : WellFormed fmt
      (.obj (("code", .int code) :: ("message", .str message) :: errorData data)) := by
    unfold errorData
    split
    · exact wellFormed_obj_iff.mpr ⟨by simp, by simp [wellFormed_int, wellFormed_str]⟩
    · exact wellFormed_obj_iff.mpr ⟨by simp, by simp [wellFormed_int, wellFormed_str]⟩
    · rename_i v _
      exact wellFormed_obj_iff.mpr ⟨by simp, by simp [wellFormed_int, wellFormed_str, hdata v rfl]⟩
  exact wellFormed_obj_iff.mpr ⟨by simp [error], by simp [error, wellFormed_str, hmembers]⟩

/-- The answer to a request is an object, and a value. -/
theorem answer_wellFormed (d : Dispatcher σ) (id : String) (htrans : Transmissible fmt out) :
    ∃ r, d.answer (.str id) out = some r ∧ WellFormed fmt (.obj r) := by
  cases out with
  | ok result =>
    refine ⟨response (.str id) result, rfl, wellFormed_obj_iff.mpr ⟨by simp [response], ?_⟩⟩
    have hresult : WellFormed fmt result := htrans
    simp [response, wellFormed_str, hresult]
  | error e =>
    refine ⟨d.errorOf (.str id) e, rfl, ?_⟩
    cases e with
    | rpc code m data =>
      refine wellFormed_error id code _ fun v hv => ?_
      subst hv
      exact htrans
    | _ => exact wellFormed_error id internalError _ fun v hv => by cases hv

/-- The client takes from the answer what the handler returned or raised. -/
theorem replied_answer {r : Obj} (hr : d.answer (.str id) out = some r) {buf body : List UInt8}
    (hbuf : buf.takeWhile (· ≠ 10) = body) (hne : body ≠ []) (hparse : parseLine fmt body = some (.obj r)) :
    replied fmt buf = transmitted d.excText out := by
  unfold replied
  simp only [hbuf, if_neg hne, hparse]
  cases out with
  | ok result =>
    obtain rfl := Option.some.inj hr
    rfl
  | error e =>
    obtain rfl := Option.some.inj hr
    cases e <;> rfl

/-- The request is one line, which is served by the method it names. -/
theorem serve_request (hparams : WellFormed fmt (.obj params)) (hfn : d.methods.lookup method = some fn) :
    serve fmt d (completeLines 10 (lineOf fmt (.obj (requestOf id method params)))) s =
      (((d.answer (.str id) ((fn params).exec s).1).toList.flatMap fun r => lineOf fmt (.obj r)),
        ((fn params).exec s).2) := by
  have hrequest : WellFormed fmt (.obj (requestOf id method params)) :=
    wellFormed_obj_iff.mpr ⟨by simp [requestOf], by simp [requestOf, wellFormed_str, hparams]⟩
  obtain ⟨body, hline, hend, -, -⟩ := lineOf_eq hrequest
  obtain ⟨hne, hparse⟩ := parseLine_lineOf hrequest
  have hlines : completeLines 10 (body ++ [10]) = [body] := by
    rw [(lines_cons hend []).1, (lines_of_not_mem List.not_mem_nil).1]
  have hcalls : Calls d (requestOf id method params) fn params := ⟨rfl, method, rfl, hfn⟩
  have hexec := exec_dispatch_call (s := s) rfl hcalls
  rw [hline, hlines, serve, ← hline, handleLine, if_neg hne, hparse]
  simp only [hexec, serve, List.append_nil]
  rfl

/-- A call gives what the handler returned or raised, and leaves the state that the handler left. -/
theorem call_eq (id : String) (hparams : WellFormed fmt (.obj params)) (hfn : d.methods.lookup method = some fn)
    (htrans : Transmissible fmt ((fn params).exec s).1) (hcut : Cuts cut) :
    call fmt d cut id method params s =
      (transmitted d.excText ((fn params).exec s).1, ((fn params).exec s).2) := by
  obtain ⟨r, hr, hwell⟩ := answer_wellFormed d id htrans
  obtain ⟨body, hline, hend, hne, hparse⟩ := lineOf_eq hwell
  unfold call
  simp only [serve_request hparams hfn, hr, Option.toList_some, List.flatMap_singleton]
  rw [replied_answer hr (takeWhile_receive hend _ (hcut _).2 ?_) hne hparse]
  rw [List.nil_append, (hcut _).1, hline]

end Exchange

section Refinement

variable {σ : Type} {fmt : FloatFormat} {d : Dispatcher σ} {around : Surroundings} {env : ShellSetup}
  {method : RpcMethod} {args : List RpcArg} {params : Obj} {fn : Obj → Prog PyExc σ Json} {s : σ}

/-- The pair for the outcome of a handler. -/
def outcomePair (excText : PyExc → String) : Except PyExc Json → Value
  | .ok result => Sexpr.replyPair true result
  | .error (.rpc code m data) =>
    Sexpr.replyPair false (.obj [("code", .int code), ("message", .str (excText (.rpc code m data)))])
  | .error e => Sexpr.replyPair false (.obj [("code", .int internalError), ("message", .str (excText e))])

/-- What the helper prints for an outcome is read as its pair. -/
theorem printed_read (around : Surroundings) {out : Except PyExc Json} (htrans : Transmissible fmt out)
    (hencodes : Encodes around.stdout d.excText out) :
    ∃ text, (printed fmt around.unreachable (transmitted d.excText out)).bind around.stdout.write = some text ∧
      Sexpr.skillRead fmt text = some (outcomePair d.excText out) := by
  have hread : ∀ ok {v : Json}, WellFormed fmt v → around.stdout.Encodes v →
      ∃ text, around.stdout.write (Sexpr.replyText fmt ok v) = some text ∧
        Sexpr.skillRead fmt text = some (Sexpr.replyPair ok v) := by
    intro ok v hv hv'
    refine ⟨_, (Sexpr.write_reply around.stdout hv ok).1 hv', ?_⟩
    rw [Sexpr.skillRead, Sexpr.read_reply hv ok (by omega)]
    rfl
  have herror : ∀ (code : ℤ) (e : PyExc), (∀ c ∈ (d.excText e).toList, around.stdout.encodes c = true) →
      ∃ text, around.stdout.write (Sexpr.replyText fmt false
          (.obj [("code", .int code), ("message", .str (d.excText e))])) = some text ∧
        Sexpr.skillRead fmt text =
          some (Sexpr.replyPair false (.obj [("code", .int code), ("message", .str (d.excText e))])) := by
    intro code e he
    refine hread false (wellFormed_obj_iff.mpr ⟨by simp, by simp [wellFormed_int, wellFormed_str]⟩) fun c hc => ?_
    simp only [Sexpr.texts, Sexpr.textsMembers, List.append_nil, List.nil_append, List.mem_append] at hc
    rcases hc with hc | hc | hc
    · exact around.stdout.ascii c (Base.forall_mem_of_all (p := fun c => c.toNat < 128) (by decide) c hc)
    · exact around.stdout.ascii c (Base.forall_mem_of_all (p := fun c => c.toNat < 128) (by decide) c hc)
    · exact he c hc
  cases out with
  | ok result => exact hread true htrans hencodes
  | error e =>
    cases e with
    | rpc code m data => exact herror code (.rpc code m data) hencodes
    | _ => exact herror internalError _ hencodes

/-- The arguments of a call can be passed, and the params they stand for are there. -/
structure Passable (fmt : FloatFormat) (env : ShellSetup) (around : Surroundings) (method : RpcMethod)
    (args : List RpcArg) (params : Obj) : Prop where
  root : '\'' ∉ env.repoRoot.toList
  python : '\'' ∉ env.vfpRpcPython.toList
  tmp : '\'' ∉ (env.tmpDir.getD "/tmp").toList
  name : isOption method.name = false
  quotes : ∀ arg ∈ args, ∀ word ∈ arg.words, '\'' ∉ word.toList
  plain : ∀ arg ∈ args, arg.Plain
  params : sentParams fmt around.files method.name args = .ok params
  cuts : Cuts around.cut

/-- Through the shell, the helper, the connection and back, a call gives what the handler of its method gives for
its params, and has the effect of the handler. -/
theorem vfpRpcExec_eq (h : Passable fmt env around method args params)
    (hfn : d.methods.lookup method.name = some fn) (htrans : Transmissible fmt ((fn params).exec s).1)
    (hencodes : Encodes around.stdout d.excText ((fn params).exec s).1) :
    vfpRpcExec fmt d around env method (args.flatMap RpcArg.words) s =
      (outcomePair d.excText ((fn params).exec s).1, ((fn params).exec s).2) := by
  have hquotes : ∀ a ∈ args.flatMap RpcArg.words, '\'' ∉ a.toList := by
    intro a ha
    obtain ⟨arg, harg, hword⟩ := List.mem_flatMap.mp ha
    exact h.quotes arg harg a hword
  obtain ⟨l, hl, hargv, hstdout⟩ := moduleArgs_rpcCommand method hquotes h.root h.python h.tmp
  have hparse : parseArgs ⟨none, [], [], none⟩ (method.name :: args.flatMap RpcArg.words) =
      some ⟨some method.name, args.filterMap RpcArg.text?, [], args.foldl RpcArg.lastFile none⟩ := by
    rw [parseArgs_method h.name, parseArgs_words h.plain]
    rfl
  have hparams : helperParams fmt around.files method.name
      ⟨some method.name, args.filterMap RpcArg.text?, [], args.foldl RpcArg.lastFile none⟩ = .ok params := by
    rw [helperParams_words h.plain, h.params]
  obtain ⟨text, hprinted, hread⟩ := printed_read (d := d) around htrans hencodes
  have hcall := call_eq around.id (wellFormed_sentParams h.params) hfn htrans h.cuts
  have hmain : main fmt d around (method.name :: args.flatMap RpcArg.words) s =
      (some text, ((fn params).exec s).2) := by
    unfold main
    simp only [hparse, hparams, hcall, hprinted]
  unfold vfpRpcExec
  simp only [hl, hargv, hmain, hstdout, if_true, hread, Option.getD_some]

end Refinement

section Plugin

/-- The name a method is registered under. -/
def methodName : Method → String
  | .proposalCreate => "proposal.create"
  | .proposalList => "proposal.list"
  | .proposalGet => "proposal.get"
  | .proposalApprove => "proposal.approve"
  | .proposalReject => "proposal.reject"
  | .proposalMarkApplied => "proposal.mark_applied"
  | .proposalMarkFailed => "proposal.mark_failed"
  | .transactionCreate => "transaction.create"
  | .transactionList => "transaction.list"
  | .transactionGet => "transaction.get"
  | .transactionRollback => "transaction.rollback"
  | .transactionMarkRolledBack => "transaction.mark_rolled_back"
  | .transactionMarkFailed => "transaction.mark_failed"
  | .jobCreate => "job.create"
  | .jobList => "job.list"
  | .jobGet => "job.get"
  | .jobCancel => "job.cancel"
  | .jobMarkRunning => "job.mark_running"
  | .jobMarkDone => "job.mark_done"
  | .jobMarkFailed => "job.mark_failed"
  | .jobRun => "job.run"

/-- The tunnel's dispatcher, for the proposals, transactions and jobs. -/
def tunnelDispatcher (env : Tunnel.Env) (str : Json → String) : Dispatcher Tunnel.Tunnel where
  methods := [Method.proposalCreate, .proposalList, .proposalGet, .proposalApprove, .proposalReject,
    .proposalMarkApplied, .proposalMarkFailed, .transactionCreate, .transactionList, .transactionGet,
    .transactionRollback, .transactionMarkRolledBack, .transactionMarkFailed, .jobCreate, .jobList, .jobGet,
    .jobRun, .jobCancel, .jobMarkRunning, .jobMarkDone, .jobMarkFailed].map
      fun method => (methodName method, Tunnel.handle env method)
  str := str
  excText := env.strExc

/-- A method is found under its name. -/
theorem lookup_methodName (env : Tunnel.Env) (str : Json → String) (method : Method) :
    (tunnelDispatcher env str).methods.lookup (methodName method) = some (Tunnel.handle env method) := by
  cases method <;> rfl

/-- No method looks like an option. -/
theorem isOption_methodName (method : Method) : isOption (methodName method) = false := by
  cases method <;> decide

/-- The params of a method are sent as they are. -/
theorem wrapClient_methodName (method : Method) (params : Obj) : wrapClient (methodName method) params = params := by
  refine if_neg ?_
  cases method <;> decide

/-- The pair that the plugin gets. -/
def replyValue (r : Reply) : Value := .cons (if r.ok then .t else .nil) (.cons r.payload .nil)

/-- The pair that the plugin gets, and the tunnel after the call. -/
def pairOf (r : Reply × World) : Value × Tunnel.Tunnel := (replyValue r.1, r.2.tunnel)

/-- How the plugin passes the params of a call. -/
inductive Payload where
  /-- One `--param key=value`. -/
  | param (key value : String)
  /-- A params file, with what `vfpToJson` made of the params. -/
  | file (path : String) (params : Obj)

/-- The params that reach the handler. -/
def Payload.params : Payload → Obj
  | .param key value => [(key, .str value)]
  | .file _ params => params

/-- A call of the plugin, with what it meets on its way. -/
structure PluginCall where
  method : Method
  rpc : RpcMethod
  payload : Payload
  session : Session
  around : Surroundings

/-- The call through the shell, the helper, the connection and the dispatcher. -/
def PluginCall.helped (fmt : FloatFormat) (str : Json → String) (env : ShellSetup) (c : PluginCall)
    (t : Tunnel.Tunnel) : Value × Tunnel.Tunnel :=
  match c.payload with
  | .param key value => vfpRpcCall fmt (tunnelDispatcher c.session.env str) c.around env c.rpc [(key, value)] t
  | .file path _ =>
    vfpRpcExec fmt (tunnelDispatcher c.session.env str) c.around env c.rpc ["--params-file", path] t

/-- The call as the world of the plugin has it: the handler gets the params. -/
def PluginCall.direct (c : PluginCall) (w : World) : Reply × World :=
  match c.payload with
  | .param key value => vfpRpcParam c.session c.method key value w
  | .file _ params => vfpRpcFile c.session c.method params w

/-- Calls one after the other, through the helper. -/
def helpedAll (fmt : FloatFormat) (str : Json → String) (env : ShellSetup) :
    List PluginCall → Tunnel.Tunnel → List Value × Tunnel.Tunnel
  | [], t => ([], t)
  | c :: rest, t =>
    let called := c.helped fmt str env t
    let after := helpedAll fmt str env rest called.2
    (called.1 :: after.1, after.2)

/-- Calls one after the other, in the world of the plugin. -/
def directAll : List PluginCall → World → List Reply × World
  | [], w => ([], w)
  | c :: rest, w =>
    let called := c.direct w
    let after := directAll rest called.2
    (called.1 :: after.1, after.2)

variable {fmt : FloatFormat} {around : Surroundings} {env : ShellSetup} {session : Session} {method : Method}
  {rpc : RpcMethod} {args : List RpcArg} {params : Obj} {w : World} {str : Json → String}

/-- What the plugin gets from an exchange that is answered. -/
theorem pairOf_answered (h : session.exchange method = .answered) :
    pairOf (Plugin.vfpRpcExec session method params w) =
      (outcomePair session.env.strExc ((Tunnel.handle session.env method params).exec w.tunnel).1,
        ((Tunnel.handle session.env method params).exec w.tunnel).2) := by
  rw [Plugin.vfpRpcExec, h]
  dsimp only [pairOf, World.serve]
  cases ((Tunnel.handle session.env method params).exec w.tunnel).1 with
  | ok result => rfl
  | error e => cases e <;> rfl

/-- The paths of a call hold no quote, and its response comes in pieces. -/
structure Reachable (env : ShellSetup) (around : Surroundings) : Prop where
  root : '\'' ∉ env.repoRoot.toList
  python : '\'' ∉ env.vfpRpcPython.toList
  tmp : '\'' ∉ (env.tmpDir.getD "/tmp").toList
  cuts : Cuts around.cut

/-- A word that the shell and the helper take as it is. -/
def PlainWord (word : String) : Prop := '\'' ∉ word.toList ∧ isOption word = false

/-- The words of a payload are taken as they are, and a params file is there and holds no float. -/
def Payload.Carried (fmt : FloatFormat) (around : Surroundings) : Payload → Prop
  | .param key value => PlainWord key ∧ '=' ∉ key.toList ∧ '\'' ∉ value.toList
  | .file path params => PlainWord path ∧ Encoder.Floatless (.obj params) ∧ WellFormed fmt (.obj params) ∧
      ∃ printL printG, around.files path = some (Encoder.vfpToJson printL printG (Encoder.treeOf (.obj params)))

/-- An exchange that is answered, over paths and words that are taken as they are, with an outcome that JSON and
the output of the helper can carry. -/
structure PluginCall.Carried (fmt : FloatFormat) (env : ShellSetup) (c : PluginCall) (w : World) : Prop where
  reach : Reachable env c.around
  name : c.rpc.name = methodName c.method
  answered : c.session.exchange c.method = .answered
  writable : c.session.paramsWritable = true
  payload : c.payload.Carried fmt c.around
  wire : Transmissible fmt ((Tunnel.handle c.session.env c.method c.payload.params).exec w.tunnel).1
  output : Encodes c.around.stdout c.session.env.strExc
    ((Tunnel.handle c.session.env c.method c.payload.params).exec w.tunnel).1

/-- Each call is carried, in the world that the calls before it lead to. -/
def CarriedAll (fmt : FloatFormat) (env : ShellSetup) : List PluginCall → World → Prop
  | [], _ => True
  | c :: rest, w => c.Carried fmt env w ∧ CarriedAll fmt env rest (c.direct w).2

/-- A call whose params are sent gets what the tunnel answers. -/
theorem vfpRpcExec_answered (hreach : Reachable env around) (hname : rpc.name = methodName method)
    (hanswered : session.exchange method = .answered)
    (hquotes : ∀ arg ∈ args, ∀ word ∈ arg.words, '\'' ∉ word.toList) (hplain : ∀ arg ∈ args, arg.Plain)
    (hparams : sentParams fmt around.files (methodName method) args = .ok params)
    (htrans : Transmissible fmt ((Tunnel.handle session.env method params).exec w.tunnel).1)
    (hencodes : Encodes around.stdout session.env.strExc ((Tunnel.handle session.env method params).exec w.tunnel).1) :
    vfpRpcExec fmt (tunnelDispatcher session.env str) around env rpc (args.flatMap RpcArg.words) w.tunnel =
      pairOf (Plugin.vfpRpcExec session method params w) := by
  have hpass : Passable fmt env around rpc args params :=
    ⟨hreach.root, hreach.python, hreach.tmp, hname ▸ isOption_methodName method, hquotes, hplain,
      hname ▸ hparams, hreach.cuts⟩
  have hlookup : (tunnelDispatcher session.env str).methods.lookup rpc.name =
      some (Tunnel.handle session.env method) := hname ▸ lookup_methodName session.env str method
  rw [vfpRpcExec_eq hpass hlookup htrans hencodes, pairOf_answered hanswered]
  rfl

/-- A params file that `json.load` refuses ends the helper. -/
theorem vfpRpcExec_unsendable {σ : Type} {d : Dispatcher σ} (hreach : Reachable env around)
    (hname : isOption rpc.name = false) {path : String} (hpath : PlainWord path) {text : List Char}
    (hfile : around.files path = some text) (hloads : loads fmt text = none) (s : σ) :
    vfpRpcExec fmt d around env rpc ["--params-file", path] s = (execFailed, s) := by
  have hquotes : ∀ a ∈ ["--params-file", path], '\'' ∉ a.toList := by
    rw [List.forall_mem_cons, List.forall_mem_singleton]
    exact ⟨by decide, hpath.1⟩
  obtain ⟨l, hl, hargv, hstdout⟩ := moduleArgs_rpcCommand rpc hquotes hreach.root hreach.python hreach.tmp
  have hoption : isOption "--params-file" = true := by decide
  have hother : "--params-file" ≠ "--param" ∧ "--params-file" ≠ "--param-json" := by decide
  have hmain : main fmt d around (rpc.name :: ["--params-file", path]) s = (none, s) := by
    unfold main
    rw [parseArgs_method hname]
    simp only [parseArgs, hpath.2, hoption, Bool.false_eq_true, if_false, if_true, if_neg hother.1,
      if_neg hother.2]
    simp only [helperParams, loadedParams, hfile, hloads]
    rfl
  unfold vfpRpcExec
  simp only [hl, hargv, hmain]

/-- A params file that `json.load` reads as these params reaches the handler. -/
theorem vfpRpcExec_file {σ : Type} {d : Dispatcher σ} {fn : Obj → Prog PyExc σ Json} (hreach : Reachable env around)
    (hname : isOption rpc.name = false) (hwrap : rpc.name ≠ "session.register") {path : String}
    (hpath : PlainWord path) {text : List Char} (hfile : around.files path = some text)
    (hloads : loads fmt text = some (.obj params)) (hwell : WellFormed fmt (.obj params))
    (hfn : d.methods.lookup rpc.name = some fn) (s : σ) (htrans : Transmissible fmt ((fn params).exec s).1)
    (hencodes : Encodes around.stdout d.excText ((fn params).exec s).1) :
    vfpRpcExec fmt d around env rpc ["--params-file", path] s =
      (outcomePair d.excText ((fn params).exec s).1, ((fn params).exec s).2) := by
  have hquotes : ∀ arg ∈ [RpcArg.file path], ∀ word ∈ arg.words, '\'' ∉ word.toList := by
    rw [List.forall_mem_singleton, RpcArg.words, List.forall_mem_cons, List.forall_mem_singleton]
    exact ⟨by decide, hpath.1⟩
  have hplain : ∀ arg ∈ [RpcArg.file path], arg.Plain := List.forall_mem_singleton.mpr hpath.2
  have hparams : sentParams fmt around.files rpc.name [RpcArg.file path] = .ok params := by
    have hloaded : loadedParams fmt around.files (some path) = .ok params := by
      simp only [loadedParams, hfile, hloads]
      rw [update_of_nodup (wellFormed_obj_iff.mp hwell).1]
    show (loadedParams fmt around.files (some path)).map _ = _
    rw [hloaded]
    show Except.ok (wrapClient rpc.name params) = _
    rw [wrapClient, if_neg hwrap]
  have hpass : Passable fmt env around rpc [RpcArg.file path] params :=
    ⟨hreach.root, hreach.python, hreach.tmp, hname, hquotes, hplain, hparams, hreach.cuts⟩
  have hwords : [RpcArg.file path].flatMap RpcArg.words = ["--params-file", path] := by simp [RpcArg.words]
  rw [← hwords]
  exact vfpRpcExec_eq hpass hfn htrans hencodes

/-- A call with one param. -/
theorem vfpRpcCall_param (hreach : Reachable env around) (hname : rpc.name = methodName method)
    (hanswered : session.exchange method = .answered) {key value : String} (hkey : PlainWord key)
    (heq : '=' ∉ key.toList) (hvalue : '\'' ∉ value.toList)
    (htrans : Transmissible fmt ((Tunnel.handle session.env method [(key, .str value)]).exec w.tunnel).1)
    (hencodes : Encodes around.stdout session.env.strExc
      ((Tunnel.handle session.env method [(key, .str value)]).exec w.tunnel).1) :
    vfpRpcCall fmt (tunnelDispatcher session.env str) around env rpc [(key, value)] w.tunnel =
      pairOf (vfpRpcParam session method key value w) := by
  have hquotes : ∀ arg ∈ [RpcArg.param key value], ∀ word ∈ arg.words, '\'' ∉ word.toList := by
    rw [List.forall_mem_singleton, RpcArg.words, List.forall_mem_cons, List.forall_mem_singleton]
    refine ⟨by decide, ?_⟩
    rw [String.toList_append, String.toList_append]
    intro hmem
    rcases List.mem_append.mp hmem with hfront | hvalue'
    · rcases List.mem_append.mp hfront with hkey' | hsep
      · exact hkey.1 hkey'
      · exact absurd hsep (by decide)
    · exact hvalue hvalue'
  have hplain : ∀ arg ∈ [RpcArg.param key value], arg.Plain :=
    List.forall_mem_singleton.mpr ⟨hkey.2, heq⟩
  have hparams : sentParams fmt around.files (methodName method) [RpcArg.param key value] =
      .ok [(key, .str value)] := by
    show Except.ok (wrapClient (methodName method) [(key, .str value)]) = _
    rw [wrapClient_methodName]
  have hwords : [RpcArg.param key value].flatMap RpcArg.words = ["--param", key ++ "=" ++ value] := by
    simp [RpcArg.words]
  rw [vfpRpcCall, vfpRpcParam, List.flatMap_singleton, ← hwords]
  exact vfpRpcExec_answered hreach hname hanswered hquotes hplain hparams htrans hencodes

/-- A call with a params file: where `json.load` refuses the file, the plugin is told that the helper failed. -/
theorem vfpRpcExec_tree (hreach : Reachable env around) (hname : rpc.name = methodName method)
    (hanswered : session.exchange method = .answered) (hwritable : session.paramsWritable = true) {path : String}
    (hpath : PlainWord path) (hfloats : Encoder.Floatless (.obj params)) (hwell : WellFormed fmt (.obj params))
    {printL : Value → String} {printG : ℚ → String}
    (hfile : around.files path = some (Encoder.vfpToJson printL printG (Encoder.treeOf (.obj params))))
    (htrans : Transmissible fmt ((Tunnel.handle session.env method params).exec w.tunnel).1)
    (hencodes : Encodes around.stdout session.env.strExc ((Tunnel.handle session.env method params).exec w.tunnel).1) :
    vfpRpcExec fmt (tunnelDispatcher session.env str) around env rpc ["--params-file", path] w.tunnel =
      pairOf (vfpRpcFile session method params w) := by
  have hloads := @Encoder.loads_vfpToJson_eq fmt _ printL printG hfloats
  have hoption : isOption rpc.name = false := hname ▸ isOption_methodName method
  have hlookup : (tunnelDispatcher session.env str).methods.lookup rpc.name =
      some (Tunnel.handle session.env method) := hname ▸ lookup_methodName session.env str method
  unfold vfpRpcFile
  rw [if_pos hwritable]
  cases hsend : sendable (.obj params) with
  | false =>
    rw [hsend] at hloads
    rw [vfpRpcExec_unsendable hreach hoption hpath hfile hloads]
    rfl
  | true =>
    rw [hsend, if_pos rfl, Encoder.dictOf_of_wellFormed _ hwell] at hloads
    have hwrap : rpc.name ≠ "session.register" := by
      rw [hname]
      cases method <;> decide
    rw [if_pos rfl, vfpRpcExec_file hreach hoption hwrap hpath hfile hloads hwell hlookup w.tunnel htrans
      hencodes, pairOf_answered hanswered]
    rfl

/-- One call through the helper is the call that the world of the plugin has. -/
theorem PluginCall.helped_eq {c : PluginCall} (h : c.Carried fmt env w) :
    c.helped fmt str env w.tunnel = pairOf (c.direct w) := by
  obtain ⟨method, rpc, payload, session, around⟩ := c
  cases payload with
  | param key value =>
    obtain ⟨hkey, heq, hvalue⟩ := h.payload
    show vfpRpcCall fmt (tunnelDispatcher session.env str) around env rpc [(key, value)] w.tunnel =
      pairOf (vfpRpcParam session method key value w)
    exact vfpRpcCall_param h.reach h.name h.answered hkey heq hvalue h.wire h.output
  | file path params =>
    obtain ⟨hpath, hfloats, hwell, printL, printG, hfile⟩ := h.payload
    show vfpRpcExec fmt (tunnelDispatcher session.env str) around env rpc ["--params-file", path] w.tunnel =
      pairOf (vfpRpcFile session method params w)
    exact vfpRpcExec_tree h.reach h.name h.answered h.writable hpath hfloats hwell hfile h.wire h.output

/-- Any sequence of calls of the plugin, each with one param or a params file, taken through the shell, the helper,
JSON on the wire in any pieces, the dispatcher, and the text that SKILL reads: the plugin gets the replies and the
tunnel comes to the state that the world of the plugin has for exchanges that are answered. -/
theorem plugin_calls_refined {calls : List PluginCall} (h : CarriedAll fmt env calls w) :
    helpedAll fmt str env calls w.tunnel =
      ((directAll calls w).1.map replyValue, (directAll calls w).2.tunnel) := by
  induction calls generalizing w with
  | nil => rfl
  | cons c calls ih =>
    have hcall : c.helped fmt str env w.tunnel = pairOf (c.direct w) := c.helped_eq h.1
    have hrest := ih h.2
    have htunnel : (c.helped fmt str env w.tunnel).2 = (c.direct w).2.tunnel := by rw [hcall]; rfl
    unfold helpedAll directAll
    dsimp only
    rw [htunnel, hrest, hcall]
    rfl

end Plugin

section Samples

/-- A response that comes byte by byte. -/
def bytewise (bytes : List UInt8) : List (List UInt8) := bytes.map fun b => [b]

/-- Coming byte by byte is coming in pieces. -/
theorem cuts_bytewise : Cuts bytewise := by
  intro bytes
  refine ⟨?_, by simp [bytewise]⟩
  induction bytes with
  | nil => rfl
  | cons b bytes ih => rw [bytewise, List.map_cons, List.flatten_cons, ← bytewise, ih, List.singleton_append]

/-- Every outcome can be printed where every character can. -/
theorem encodes_unicode {excText : PyExc → String} {out : Except PyExc Json} : Encodes .unicode excText out := by
  cases out with
  | ok result => exact fun _ _ => rfl
  | error e => exact fun _ _ => rfl

/-- No files besides. -/
def sampleSurroundings : Surroundings := ⟨fun _ => none, "4f1c", bytewise, "cannot reach tunnel", .unicode⟩

/-- `proposal.get`, as the plugin calls it. -/
def rpcProposalGet : RpcMethod where
  name := "proposal.get"
  nonempty := by decide
  ordinary c hc := of_decide_eq_true
    (List.all_eq_true.mp (show "proposal.get".toList.all (Ordinary ·) = true by decide) c hc)

/-- A plugin with an empty design, and a tunnel without records. -/
def sampleCaller : World := ⟨⟨fun _ => none, fun _ => none⟩, Tunnel.Tunnel.fresh .empty, []⟩

/-- A call of `proposal.get` with this id. -/
def sampleGet (id : String) : PluginCall :=
  ⟨.proposalGet, rpcProposalGet, .param "proposal_id" id, .sample, sampleSurroundings⟩

/-- Two proposals are asked for, one after the other. -/
theorem plugin_calls_refined_sample :
    helpedAll .sample (fun _ => "") .sample [sampleGet "p_7", sampleGet "p_8"] sampleCaller.tunnel =
      ((directAll [sampleGet "p_7", sampleGet "p_8"] sampleCaller).1.map replyValue,
        (directAll [sampleGet "p_7", sampleGet "p_8"] sampleCaller).2.tunnel) := by
  have hreach : Reachable .sample sampleSurroundings := ⟨by decide, by decide, by decide, cuts_bytewise⟩
  have hwire : ∀ id ∈ ["p_7", "p_8"], Transmissible .sample
      ((Tunnel.handle Session.sample.env .proposalGet [("proposal_id", .str id)]).exec sampleCaller.tunnel).1 := by
    intro id hid
    simp only [List.mem_cons, List.not_mem_nil, or_false] at hid
    rcases hid with rfl | rfl
    · trivial
    · trivial
  have hcarried : ∀ w : World, w.tunnel = sampleCaller.tunnel → ∀ id ∈ ["p_7", "p_8"], '\'' ∉ id.toList →
      (sampleGet id).Carried .sample .sample w := by
    intro w hw id hid hquote
    refine ⟨hreach, rfl, rfl, rfl, ⟨⟨by decide, by decide⟩, by decide, hquote⟩, ?_, encodes_unicode⟩
    rw [hw]
    exact hwire id hid
  have hsame : ((sampleGet "p_7").direct sampleCaller).2.tunnel = sampleCaller.tunnel := by rfl
  exact plugin_calls_refined ⟨hcarried sampleCaller rfl "p_7" (by simp) (by decide),
    hcarried _ hsame "p_8" (by simp) (by decide), trivial⟩

end Samples

end Helper

end VirtuosoFlow.Plugin
