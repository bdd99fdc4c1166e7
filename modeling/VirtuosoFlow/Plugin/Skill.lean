import VirtuosoFlow.Json

/-!
# SKILL values and the tunnel's answers

The data of the plugin: SKILL values, the association lists that a JSON object becomes
(`to_sexpr` of `skillrpc.py`, read back by the SKILL reader), and what the encoder of
`vfp_utils.il` makes of a value.
-/

namespace VirtuosoFlow.Plugin

/-- A SKILL value. Lists are built from `cons` and `nil`. -/
inductive Value where
  | nil
  | t
  | str (s : String)
  | fix (n : ℤ)
  | flo (x : ℚ)
  | sym (name : String)
  | cons (car cdr : Value)
  deriving DecidableEq

namespace Value

/-- `car(v)`. -/
def car : Value → Value
  | .cons a _ => a
  | _ => .nil

/-- `cdr(v)`. -/
def cdr : Value → Value
  | .cons _ d => d
  | _ => .nil

/-- The elements of a list. -/
def toList : Value → List Value
  | .cons a d => a :: d.toList
  | _ => []

/-- Everything but `nil` counts as true. -/
def truthy (v : Value) : Bool := v != .nil

/-- Whether `foreach` can go through a value; on the others it raises. -/
def isList : Value → Bool
  | .nil => true
  | .cons _ _ => true
  | _ => false

/-- How a float is written by `repr` and read back. -/
def ofFloat : PyFloat → Value
  | .finite q => .flo q
  | .nan => .sym "nan"
  | .infinite false => .sym "inf"
  | .infinite true => .sym "-inf"

mutual

/-- `to_sexpr(obj)`, read by the SKILL reader. -/
def ofJson : Json → Value
  | .null => .nil
  | .bool b => if b then .t else .nil
  | .int n => .fix n
  | .float x => ofFloat x
  | .str s => .str s
  | .arr items => ofItems items
  | .obj members => ofMembers members

/-- The elements of an array. -/
def ofItems : List Json → Value
  | [] => .nil
  | v :: vs => .cons (ofJson v) (ofItems vs)

/-- The members of an object, as pairs `(key value)`. -/
def ofMembers : List (String × Json) → Value
  | [] => .nil
  | (k, v) :: ms => .cons (.cons (.str k) (.cons (ofJson v) .nil)) (ofMembers ms)

end

/-- The values of items, as a list. -/
@[simp] theorem toList_ofItems (items : List Json) : (ofItems items).toList = items.map ofJson := by
  induction items with
  | nil => rfl
  | cons v vs ih => rw [ofItems, toList, ih, List.map_cons]

/-- The values of an array, as a list. -/
@[simp] theorem toList_ofJson_arr (items : List Json) :
    (ofJson (.arr items)).toList = items.map ofJson := by
  rw [ofJson, toList_ofItems]

end Value

/-- A SKILL error. -/
inductive SkillError where
  | raised

/-- `sprintf` takes strings and symbols for `%s`. -/
def isText : Value → Bool
  | .str _ | .sym _ | .t | .nil => true
  | _ => false

/-- `vfpAlistGet(alist key)` of a list: the last pair of a key wins. -/
def vfpAlistGet (alist : Value) (key : String) : Value :=
  alist.toList.foldl
    (fun val pair =>
      match pair with
      | .cons (.str k) rest => if k = key then rest.car else val
      | _ => val) .nil

section Alist

variable {o : Obj} {key : String} {found : Value}

/-- Reading an object pair by pair, from a value found before. -/
theorem foldl_ofMembers (o : Obj) (key : String) (found : Value) (hunique : (o.map Prod.fst).Nodup) :
    (Value.ofMembers o).toList.foldl
      (fun val pair =>
        match pair with
        | .cons (.str k) rest => if k = key then rest.car else val
        | _ => val) found = ((o.lookup key).map Value.ofJson).getD found := by
  induction o generalizing found with
  | nil => rfl
  | cons m ms ih =>
    obtain ⟨k, v⟩ := m
    rw [List.map_cons, List.nodup_cons] at hunique
    rw [Value.ofMembers, Value.toList, List.foldl_cons, ih _ hunique.2, Base.lookup_cons_eq_ite]
    by_cases h : key = k
    · subst h
      have hnone : ms.lookup key = none := by
        rw [List.lookup_eq_none_iff]
        rintro ⟨k', v'⟩ hmem
        have hne : k' ≠ key := fun heq => hunique.1 (List.mem_map.mpr ⟨_, hmem, heq⟩)
        simpa [beq_eq_false_iff_ne] using hne.symm
      simp [hnone, Value.car]
    · simp [h, Ne.symm h]

/-- A member of an object whose names are unique is read as it is. -/
theorem vfpAlistGet_obj (hunique : (o.map Prod.fst).Nodup) (key : String) :
    vfpAlistGet (Value.ofJson (.obj o)) key = Value.ofJson (Obj.get o key) := by
  rw [Value.ofJson, vfpAlistGet, foldl_ofMembers o key .nil hunique, Obj.get, Obj.getD]
  cases o.lookup key <;> rfl

end Alist

/-- `vfpAutoNetP`: the names that match `^net[0-9]+$`. -/
def vfpAutoNetP (name : String) : Bool :=
  match name.toList with
  | 'n' :: 'e' :: 't' :: digits => !digits.isEmpty && digits.all Char.isDigit
  | _ => false

/-- The texts of `sprintf` that depend on the format: `%L`, and what JSON reads from `%g`. -/
structure Printer where
  /-- `sprintf(nil "%L" v)`. -/
  printL : Value → String
  /-- The number that is read from `sprintf(nil "%g" x)`. -/
  readG : ℚ → Json

/-- A printer for examples. -/
def Printer.sample : Printer where
  printL
    | .fix n => toString n
    | .t => "t"
    | .sym s => s
    | _ => ""
  readG x := .float (.finite x)

/-- `vfpToStr(x)`. -/
def vfpToStr (printer : Printer) : Value → String
  | .str s => s
  | .nil => ""
  | v => printer.printL v

/-- The text `"%s"` of a value. -/
def Printer.format (printer : Printer) : Value → String
  | .str s => s
  | v => printer.printL v

/-- `vfpToJson(x)` of a value that is no tagged constructor, as `json.load` reads it. -/
def vfpToJson (printer : Printer) : Value → Json
  | .str s => .str s
  | .sym name => if name = "true" then .bool true else if name = "false" then .bool false
    else .str (printer.printL (.sym name))
  | .t => .bool true
  | .nil => .null
  | .fix n => .int n
  | .flo x => printer.readG x
  | v => .str (printer.printL v)

/-- `vfpJsonEsc` leaves these characters as they are, and `json.load` refuses them. -/
def rawControl (c : Char) : Bool := c.toNat < 32 && c != '\n' && c != '\t'

mutual

/-- Whether the text of a tree of `vfpJObj` and `vfpJArr` is read back. -/
def sendable : Json → Bool
  | .str s => !s.toList.any rawControl
  | .arr items => sendableItems items
  | .obj members => sendableMembers members
  | _ => true

/-- The same for the elements of an array. -/
def sendableItems : List Json → Bool
  | [] => true
  | v :: vs => sendable v && sendableItems vs

/-- The same for the members of an object. -/
def sendableMembers : List (String × Json) → Bool
  | [] => true
  | (k, v) :: ms => !k.toList.any rawControl && sendable v && sendableMembers ms

end

end VirtuosoFlow.Plugin
