import VirtuosoFlow.Tunnel.Python

/-!
# Modify permissions

`transaction/permissions.py`: shell patterns over `<instance>.<param>` targets. The
patterns are those of `fnmatch.fnmatchcase`, read into items before they are matched.
-/

namespace VirtuosoFlow.Tunnel

/-- One item of a shell pattern. -/
inductive GlobItem where
  | star
  | any
  | char (c : Char)
  | set (negated : Bool) (ranges : List (Char × Char))

/-- The characters before the first closing bracket, and those after it. -/
def splitBracket : List Char → Option (List Char × List Char)
  | [] => none
  | c :: rest =>
    if c = ']' then some ([], rest)
    else (splitBracket rest).map fun (inside, after) => (c :: inside, after)

/-- The text between brackets, cut at the dashes that make ranges: the first argument says how many characters to
pass over before the next one is looked for. -/
def setChunks : ℕ → List Char → List Char → List (List Char)
  | _, chunk, [] => [chunk]
  | 0, chunk, '-' :: rest => chunk :: setChunks 2 [] rest
  | 0, chunk, c :: rest => setChunks 0 (chunk ++ [c]) rest
  | n + 1, chunk, c :: rest => setChunks n (chunk ++ [c]) rest

/-- A dash that nothing follows stands for itself. -/
def closeChunks : List (List Char) → List (List Char)
  | [chunk, []] => [chunk ++ ['-']]
  | chunk :: rest => chunk :: closeChunks rest
  | [] => []

/-- A range whose ends are the wrong way round is taken out, with its ends. -/
def dropReversed : List (List Char) → List (List Char)
  | [] => []
  | chunk :: rest =>
    match chunk.getLast?, dropReversed rest with
    | some lo, (hi :: next) :: others =>
      if hi < lo then (chunk.dropLast ++ next) :: others else chunk :: (hi :: next) :: others
    | _, others => chunk :: others

/-- The ranges that the pieces stand for; a dash that comes first stands for itself. -/
def chunkRanges : List (List Char) → List (Char × Char)
  | [] => []
  | [chunk] => chunk.map fun c => (c, c)
  | chunk :: next :: rest =>
    (chunk.map fun c => (c, c)) ++ (chunk.getLast?.getD '-', (chunk.getLast?.bind fun _ => next.head?).getD '-') ::
      chunkRanges (next :: rest)

/-- The item for the text between brackets. What is left once the reversed ranges are out decides whether the set is
negated, and a set that is left empty matches nothing. -/
def setItem (stuff : List Char) : GlobItem :=
  match dropReversed (closeChunks (setChunks (if stuff.head? = some '!' then 2 else 1) [] stuff)) with
  | ('!' :: chunk) :: rest => .set true (chunkRanges (chunk :: rest))
  | chunks => .set false (chunkRanges chunks)

/-- Read a pattern; the first argument bounds the number of items. A bracket that is
never closed stands for itself, and one that opens a set takes at least one character. -/
def globItems : ℕ → List Char → List GlobItem
  | 0, _ => []
  | _ + 1, [] => []
  | n + 1, '*' :: rest => .star :: globItems n rest
  | n + 1, '?' :: rest => .any :: globItems n rest
  | n + 1, '[' :: rest =>
    let mark := if rest.head? = some '!' then ['!'] else []
    match rest.drop mark.length with
    | [] => .char '[' :: globItems n rest
    | c :: body =>
      match splitBracket body with
      | none => .char '[' :: globItems n rest
      | some (inside, after) => setItem (mark ++ c :: inside) :: globItems n after
  | n + 1, c :: rest => .char c :: globItems n rest

/-- Whether an item matches one character. -/
def GlobItem.accepts : GlobItem → Char → Bool
  | .star, _ => false
  | .any, _ => true
  | .char c, d => c == d
  | .set negated ranges, d => (ranges.any fun (lo, hi) => lo ≤ d && d ≤ hi) != negated

/-- Whether the items match the whole text. -/
def globMatch : List GlobItem → List Char → Bool
  | [], s => s.isEmpty
  | .star :: items, s => s.tails.any fun t => globMatch items t
  | _ :: _, [] => false
  | item :: items, c :: s => item.accepts c && globMatch items s

/-- `fnmatch.fnmatchcase(name, pat)`. -/
def fnmatchcase (name pat : String) : Bool :=
  globMatch (globItems pat.length pat.toList) name.toList

/-- `target_of(change)`. -/
def targetOf (env : Env) (change : Json) : Except PyExc String := do
  match change with
  | .obj members =>
    return env.format (Obj.getD members "instance" (.str "")) ++ "." ++
      env.format (Obj.getD members "param" (.str ""))
  | _ => throw .attributeError

/-- The first pattern that matches; only strings are patterns. -/
def firstMatch (target : String) : List Json → Except PyExc (Option String)
  | [] => .ok none
  | .str pat :: rest =>
    if fnmatchcase target pat then .ok (some pat) else firstMatch target rest
  | _ :: _ => .error .typeError

/-- `is_allowed(target, allow, deny)`: the reason of a refusal, if there is one. -/
def isAllowed (env : Env) (target : String) (allow deny : Json) :
    Except PyExc (Option String) := do
  match ← firstMatch target (← pyIter (pyOr deny (.arr []))) with
  | some pat => return some ("denied by deny_modify pattern " ++ env.repr pat)
  | none =>
    let allow := pyOr allow (.arr [])
    if !allow.truthy then return none
    match ← firstMatch target (← pyIter allow) with
    | some _ => return none
    | none => return some "not matched by any allow_modify pattern"

/-- The loop of `violations`. -/
def violationsOf (env : Env) (allow deny : Json) :
    List Json → Except PyExc (List (String × String))
  | [] => .ok []
  | change :: rest => do
    let target ← targetOf env change
    let refused ← isAllowed env target allow deny
    let others ← violationsOf env allow deny rest
    return (refused.map fun reason => (target, reason)).toList ++ others

/-- `violations(changes, allow, deny)`. -/
def violations (env : Env) (changes allow deny : Json) :
    Except PyExc (List (String × String)) := do
  violationsOf env allow deny (← pyIter (pyOr changes (.arr [])))

example : fnmatchcase "M12.w" "M*.[wl]" = true := by decide

-- without its reversed range the set starts with the mark of a negation
example : fnmatchcase "x" "[a--!]" = true := by decide

end VirtuosoFlow.Tunnel
