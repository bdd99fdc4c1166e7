import VirtuosoFlow.Json
import VirtuosoFlow.Base.Prog

/-!
# The tunnel's surroundings

Exceptions, the JSON-RPC error codes, and what a request finds in the process
around it: the clock, the generated identifiers, the disk and the configuration.
An exception text is kept as its format string and the values put into it.

JSON may bring in a text that holds half of a surrogate pair, which no text here can:
any text may stand for one, and the surroundings say which texts cannot be encoded. The
recursion limit of the interpreter is left out, except where a text is parsed.
-/

namespace VirtuosoFlow.Tunnel

open Base

/-- A text of the source: a format string and its arguments, or such a text quoted,
which is what `str(e)` gives for a `KeyError`. -/
inductive Message where
  | text (format : String) (args : List Json)
  | quoted (m : Message)

/-- The exceptions raised by the tunnel's code and by the Python operations it uses. -/
inductive PyExc where
  | typeError
  | attributeError
  | overflowError
  | recursionError
  | osError (m : Message)
  | keyError (m : Message)
  | valueError (m : Message)
  /-- `JsonRpcError(code, message, data)`. -/
  | rpc (code : ℤ) (m : Message) (data : Option Json)

/-- `INTERNAL_ERROR`. -/
def internalError : ℤ := -32603
/-- `INVALID_PARAMS`. -/
def invalidParams : ℤ := -32602
/-- `NOT_FOUND`. -/
def notFound : ℤ := -32001
/-- `PERMISSION_DENIED`. -/
def permissionDenied : ℤ := -32002
/-- `INVALID_STATE`. -/
def invalidState : ℤ := -32003

/-- `raise JsonRpcError(code, format % args)`. -/
def rpcError (code : ℤ) (format : String) (args : List Json := []) : PyExc :=
  .rpc code (.text format args) none

/-- `except ValueError as e: raise JsonRpcError(INVALID_PARAMS, str(e))`. -/
def valueErrorAsRpc : PyExc → PyExc
  | .valueError m => .rpc invalidParams m none
  | e => e

/-- The same with `except KeyError as e: raise JsonRpcError(NOT_FOUND, str(e))` before it. -/
def lookupErrorAsRpc : PyExc → PyExc
  | .keyError m => .rpc notFound (.quoted m) none
  | e => valueErrorAsRpc e

/-- The exceptions dropped by `except (KeyError, ValueError): pass`. -/
def isLookupError : PyExc → Bool
  | .keyError _ => true
  | .valueError _ => true
  | _ => false

/-- The exceptions dropped by `except (KeyError, OSError): pass`. -/
def isFileError : PyExc → Bool
  | .keyError _ => true
  | .osError _ => true
  | _ => false

/-- The exceptions caught by `except (OSError, ValueError) as e`. -/
def isReadError : PyExc → Bool
  | .osError _ => true
  | .valueError _ => true
  | _ => false

/-- What the process around a request supplies while the request is served. -/
structure Env where
  /-- `time.time()`. -/
  now : ℚ
  /-- `_iso`: local time to the second. -/
  iso : ℚ → String
  /-- `_stamp()` of the result files: local time to the second. -/
  fileStamp : ℚ → String
  /-- `uuid.uuid4().hex[:12]`, drawn once in each request that needs it. -/
  uuid : String
  /-- The double nearest to a rational number. -/
  round : ℚ → PyFloat
  /-- `float(s)` of a string; `none` where it raises `ValueError`. -/
  floatOf : String → Option PyFloat
  /-- `proposal_ttl_s()`. -/
  proposalTtl : ℤ
  /-- Whether `ensure_dirs()` succeeds. -/
  dirsOk : Bool
  /-- Whether a file of this name can be written in the store's directory. -/
  writable : String → Bool
  /-- The text of the `UnicodeEncodeError` that `s.encode("utf-8")` raises, if it does. -/
  encodeError : String → Option Message
  /-- The same of `os.fsencode(s)`, which file names, arguments and variables go through. -/
  fsEncodeError : String → Option Message
  /-- `json.loads(s)`. -/
  jsonLoads : String → Except PyExc Json
  /-- `str(runs_dir())`. -/
  runsDir : String
  /-- `_validate_or_raise(name, data)`; raises nothing where `jsonschema` is absent. -/
  validate : String → Obj → Except PyExc Unit
  /-- `"%s" % v` for a value that is not a string. -/
  str : Json → String
  /-- `"%r" % s`. -/
  repr : String → String
  /-- The first sixteen hex digits of the SHA-1 of a value's canonical dump. -/
  sha1 : Json → String
  /-- `str(e)`. -/
  strExc : PyExc → String
  /-- `sim_timeout_s()`. -/
  simTimeout : ℤ
  /-- `sim_metrics_file()`. -/
  simMetricsFile : String
  /-- `sim_cmd()`. -/
  simCmd : Option (List String)
  /-- `netlist_cmd()`. -/
  netlistCmd : Option (List String)

/-- Surroundings in which the disk works and nothing is validated or swept, for examples. -/
def Env.sample : Env where
  now := 0
  iso := fun _ => "2026-01-01T00:00:00"
  fileStamp := fun _ => "20260101_000000"
  uuid := "0123456789ab"
  round := .finite
  floatOf := fun s => if s = "1.5" then some (.finite (3 / 2)) else none
  proposalTtl := 0
  dirsOk := true
  writable := fun _ => true
  encodeError := fun _ => none
  fsEncodeError := fun _ => none
  jsonLoads := fun _ => .error (.valueError (.text "Expecting value" []))
  runsDir := ".vfp/runs"
  validate := fun _ _ => .ok ()
  str := fun _ => ""
  repr := fun s => "'" ++ s ++ "'"
  sha1 := fun _ => "0123456789abcdef"
  strExc := fun _ => ""
  simTimeout := 600
  simMetricsFile := "metrics.json"
  simCmd := some ["spectre"]
  netlistCmd := none

/-- `"%s" % v`. -/
def Env.format (env : Env) : Json → String
  | .str s => s
  | v => env.str v

/-- `_iso(_now())` as a JSON value. -/
def Env.stamp (env : Env) : Json := .str (env.iso env.now)

/-- What the system calls raise for a text that cannot be handed to them. -/
def Env.nameError (env : Env) (s : String) : Option PyExc :=
  match env.fsEncodeError s with
  | some m => some (.valueError m)
  | none => if s.toList.contains '\x00' then some (.valueError (.text "embedded null byte" [])) else none

/-- A text is handed over exactly if it can be encoded and holds no NUL. -/
theorem Env.nameError_eq_none {env : Env} {s : String} :
    env.nameError s = none ↔ env.fsEncodeError s = none ∧ '\x00' ∉ s.toList := by
  unfold Env.nameError
  cases env.fsEncodeError s with
  | none => simp
  | some m => simp

/-- `time.time() - ts`: an int is first converted to a float, which may overflow. -/
def Env.age (env : Env) (ts : Json) : Except PyExc PyFloat :=
  match ts.number? with
  | none => .error .typeError
  | some .nan => .ok .nan
  | some (.infinite negative) => .ok (.infinite !negative)
  | some (.finite q) =>
    match env.round q with
    | .finite x => .ok (env.round (env.now - x))
    | _ => .error .overflowError

/-- The key of a value used to index a dictionary; unhashable values raise. -/
def hashKey (v : Json) : Except PyExc Key :=
  match v.key? with
  | some k => .ok k
  | none => .error .typeError

/-- `len(v)`. -/
def pyLen : Json → Except PyExc ℕ
  | .str s => .ok s.length
  | .arr items => .ok items.length
  | .obj members => .ok members.length
  | _ => .error .typeError

/-- `v.get(k)` on a value that may not be a dict. -/
def attrGet (v : Json) (k : String) : Except PyExc Json :=
  match v with
  | .obj members => .ok (Obj.get members k)
  | _ => .error .attributeError

/-- `d[k]`. -/
def getItem (o : Obj) (k : String) : Except PyExc Json :=
  match o.lookup k with
  | some v => .ok v
  | none => .error (.keyError (.text k []))

/-- `a or b`. -/
def pyOr (a b : Json) : Json := if a.truthy then a else b

/-- The items of `for x in v`; only lists of the tunnel's data hold anything but strings. -/
def pyIter : Json → Except PyExc (List Json)
  | .arr items => .ok items
  | .str s => .ok (s.toList.map fun c => .str (String.singleton c))
  | .obj members => .ok (members.map fun m => .str m.1)
  | _ => .error .typeError

end VirtuosoFlow.Tunnel
