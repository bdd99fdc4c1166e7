import VirtuosoFlow.Base.Dict
import Mathlib.Algebra.Order.Ring.Rat

/-!
# JSON values as the tunnel sees them

`json.loads` turns a request into Python values. This file models those values
together with the Python operations the tunnel applies to arbitrary ones: truth,
`==`, `<`, use as a dictionary key, and the methods of `dict`. A finite float is
modelled by its exact rational value.
-/

namespace VirtuosoFlow

open Base

/-- The floats that `json.loads` produces; Python accepts `NaN` and `Infinity`. -/
inductive PyFloat where
  | finite (q : ℚ)
  | nan
  | infinite (negative : Bool)
  deriving DecidableEq

/-- A JSON value. The members of an object keep their order. -/
inductive Json where
  | null
  | bool (b : Bool)
  | int (n : ℤ)
  | float (x : PyFloat)
  | str (s : String)
  | arr (items : List Json)
  | obj (members : List (String × Json))

/-- The members of an object: a Python `dict` with string keys. -/
abbrev Obj := List (String × Json)

/-- What a hashable value is stored under: equal numbers are one key, whatever their
type, and `NaN` is the single object the parser uses for it. -/
inductive Key where
  | none
  | num (q : ℚ)
  | nan
  | infinite (negative : Bool)
  | str (s : String)
  deriving DecidableEq

/-- The truth of the values stored under a key. -/
def Key.truthy : Key → Bool
  | .none => false
  | .num q => q != 0
  | .str s => s != ""
  | _ => true

/-- Python comparison of floats; every comparison with `NaN` is false. -/
def PyFloat.lt : PyFloat → PyFloat → Bool
  | .finite p, .finite q => decide (p < q)
  | .infinite true, .finite _ => true
  | .finite _, .infinite false => true
  | .infinite true, .infinite false => true
  | _, _ => false

namespace Json

/-- `bool(v)`: empty containers, zero and `None` are false. -/
def truthy : Json → Bool
  | .null => false
  | .bool b => b
  | .int n => n != 0
  | .float (.finite q) => q != 0
  | .float _ => true
  | .str s => s != ""
  | .arr items => !items.isEmpty
  | .obj members => !members.isEmpty

/-- The dictionary key of a value; lists and dicts are unhashable. -/
def key? : Json → Option Key
  | .null => some .none
  | .bool b => some (.num (if b then 1 else 0))
  | .int n => some (.num n)
  | .float (.finite q) => some (.num q)
  | .float .nan => some .nan
  | .float (.infinite b) => some (.infinite b)
  | .str s => some (.str s)
  | .arr _ => none
  | .obj _ => none

/-- The numeric value of a number; `bool` is a subtype of `int`. -/
def number? : Json → Option PyFloat
  | .bool b => some (.finite (if b then 1 else 0))
  | .int n => some (.finite n)
  | .float x => some x
  | _ => none

/-- The value `NaN`. -/
def isNan : Json → Bool
  | .float .nan => true
  | _ => false

mutual

/-- `a == b`: numbers by value, containers by content, dicts without regard to order.
Containers compare their elements by identity first, which only `NaN` shows. -/
def pyEq : Json → Json → Bool
  | .arr xs, .arr ys => pyEqList xs ys
  | .obj xs, .obj ys => xs.length == ys.length && pyEqMembers xs ys
  | a, b =>
    match a.key?, b.key? with
    | some .nan, _ => false
    | some k, some k' => k == k'
    | _, _ => false

/-- `==` of two lists, element by element. -/
def pyEqList : List Json → List Json → Bool
  | [], [] => true
  | x :: xs, y :: ys => (x.isNan && y.isNan || x.pyEq y) && pyEqList xs ys
  | _, _ => false

/-- Every member on the left is an equal member on the right. -/
def pyEqMembers : List (String × Json) → List (String × Json) → Bool
  | [], _ => true
  | (k, v) :: xs, ys =>
    (match ys.lookup k with
      | some w => v.isNan && w.isNan || v.pyEq w
      | none => false) && pyEqMembers xs ys

end

mutual

/-- `a < b`; `none` where Python raises `TypeError`. -/
def lt? : Json → Json → Option Bool
  | .arr xs, .arr ys => ltList? xs ys
  | .str a, .str b => some (decide (a < b))
  | a, b =>
    match a.number?, b.number? with
    | some x, some y => some (x.lt y)
    | _, _ => none

/-- `<` of two lists: the first unequal elements decide, then the lengths. -/
def ltList? : List Json → List Json → Option Bool
  | _, [] => some false
  | [], _ :: _ => some true
  | x :: xs, y :: ys => if x.isNan && y.isNan || x.pyEq y then ltList? xs ys else x.lt? y

end

/-- Only the string itself equals a string. -/
@[simp] theorem pyEq_str {v : Json} {s : String} : v.pyEq (.str s) = true ↔ v = .str s := by
  cases v with
  | float x => cases x <;> simp [pyEq, key?]
  | _ => simp [pyEq, key?]

/-- A string is its own key. -/
@[simp] theorem key?_str (s : String) : (Json.str s).key? = some (.str s) := rfl

/-- The truth of a hashable value can be told from its key. -/
theorem truthy_of_key? {v : Json} {k : Key} (h : v.key? = some k) : v.truthy = k.truthy := by
  cases v with
  | bool b =>
    obtain rfl : Key.num (if b then 1 else 0) = k := by simpa [key?] using h
    cases b <;> simp [truthy, Key.truthy]
  | int n =>
    obtain rfl : Key.num n = k := by simpa [key?] using h
    by_cases hn : n = 0
    · subst hn
      simp [truthy, Key.truthy]
    · have hq : (n : ℚ) ≠ 0 := by simpa [Rat.intCast_eq_zero_iff] using hn
      rw [truthy, Key.truthy, bne_iff_ne.mpr hn, bne_iff_ne.mpr hq]
  | float x =>
    cases x with
    | _ =>
      simp only [key?, Option.some.injEq] at h
      subst h
      simp [truthy, Key.truthy]
  | arr items => simp [key?] at h
  | obj members => simp [key?] at h
  | _ =>
    simp only [key?, Option.some.injEq] at h
    subst h
    simp [truthy, Key.truthy]

/-- A string is true exactly when it is not empty. -/
@[simp] theorem truthy_str (s : String) : (Json.str s).truthy = (s != "") := rfl

end Json

namespace Obj

/-- `d.get(k, default)`. -/
def getD (o : Obj) (k : String) (default : Json) : Json := (o.lookup k).getD default

/-- `d.get(k)`. -/
def get (o : Obj) (k : String) : Json := getD o k .null

/-- `d[k] = v`. -/
def set (o : Obj) (k : String) (v : Json) : Obj := assocSet k v o

/-- `d.setdefault(k, v)`. -/
def setDefault (o : Obj) (k : String) (v : Json) : Obj :=
  if (o.lookup k).isSome then o else set o k v

/-- `d.update(other)`. -/
def update (o : Obj) (other : Obj) : Obj := other.foldl (fun acc e => set acc e.1 e.2) o

/-- A member that was set is found. -/
@[simp] theorem lookup_set_self (o : Obj) (k : String) (v : Json) :
    (set o k v).lookup k = some v := lookup_assocSet_self k v o

/-- Setting a member leaves the others. -/
@[simp] theorem lookup_set_ne {k k' : String} (o : Obj) (h : k' ≠ k) (v : Json) :
    (set o k v).lookup k' = o.lookup k' := lookup_assocSet_ne h v o

/-- A default is taken exactly when the member is absent. -/
@[simp] theorem lookup_setDefault_self (o : Obj) (k : String) (v : Json) :
    (setDefault o k v).lookup k = some (getD o k v) := by
  unfold setDefault getD
  cases h : o.lookup k <;> simp [h]

/-- A default leaves the other members. -/
@[simp] theorem lookup_setDefault_ne {k k' : String} (o : Obj) (h : k' ≠ k) (v : Json) :
    (setDefault o k v).lookup k' = o.lookup k' := by
  unfold setDefault
  split
  · rfl
  · exact lookup_set_ne o h v

/-- `get` gives a member that was set. -/
@[simp] theorem get_set_self (o : Obj) (k : String) (v : Json) : get (set o k v) k = v := by
  simp [get, getD]

/-- `get` gives the other members as before. -/
@[simp] theorem get_set_ne {k k' : String} (o : Obj) (h : k' ≠ k) (v : Json) :
    get (set o k v) k' = get o k' := by
  simp [get, getD, h]

/-- `get` gives the other members as before a default. -/
@[simp] theorem get_setDefault_ne {k k' : String} (o : Obj) (h : k' ≠ k) (v : Json) :
    get (setDefault o k v) k' = get o k' := by
  simp [get, getD, h]

end Obj

end VirtuosoFlow
