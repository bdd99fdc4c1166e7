import VirtuosoFlow.JsonDumps
import VirtuosoFlow.Plugin.Skill

/-!
# The JSON encoder of the plugin

`vfpToJson` of `vfp_utils.il` on the trees that `vfpJObj` and `vfpJArr` build: the text of
a tree is the text that a printer without white space makes of it.
-/

namespace VirtuosoFlow.Plugin.Encoder

open VirtuosoFlow VirtuosoFlow.JsonText

section Trees

/-- `list(...)`. -/
def list : List Value → Value
  | [] => .nil
  | v :: vs => .cons v (list vs)

/-- A list of values gives them back. -/
@[simp] theorem toList_list (vs : List Value) : (list vs).toList = vs := by
  induction vs with
  | nil => rfl
  | cons v vs ih => rw [list, Value.toList, ih]

/-- `vfpJObj("k" v "k" v ...)`. -/
def vfpJObj (kv : List Value) : Value := .cons (.sym "jobj") (list kv)

/-- `apply('vfpJArr elems)`. -/
def vfpJArr (elems : List Value) : Value := .cons (.sym "jarr") (list elems)

mutual

/-- The tree of a JSON value without floats. -/
def treeOf : Json → Value
  | .null => .nil
  | .bool true => .sym "true"
  | .bool false => .sym "false"
  | .int n => .fix n
  | .float _ => .nil
  | .str s => .str s
  | .arr vs => .cons (.sym "jarr") (treeOfItems vs)
  | .obj ms => .cons (.sym "jobj") (treeOfMembers ms)

/-- The elements of an array. -/
def treeOfItems : List Json → Value
  | [] => .nil
  | v :: vs => .cons (treeOf v) (treeOfItems vs)

/-- The members of an object, a key and a value in turn. -/
def treeOfMembers : List (String × Json) → Value
  | [] => .nil
  | (k, v) :: ms => .cons (.str k) (.cons (treeOf v) (treeOfMembers ms))

end

mutual

/-- No part of the value is a float. -/
def Floatless : Json → Prop
  | .float _ => False
  | .arr vs => FloatlessItems vs
  | .obj ms => FloatlessMembers ms
  | _ => True

/-- The same for the elements of an array. -/
def FloatlessItems : List Json → Prop
  | [] => True
  | v :: vs => Floatless v ∧ FloatlessItems vs

/-- The same for the members of an object. -/
def FloatlessMembers : List (String × Json) → Prop
  | [] => True
  | (_, v) :: ms => Floatless v ∧ FloatlessMembers ms

end

end Trees

section Encoder

variable (printL : Value → String) (printG : ℚ → String)

/-- What `vfpJsonEsc` makes of a character. -/
def escapeChar : Char → List Char
  | '\\' => ['\\', '\\']
  | '"' => ['\\', '"']
  | '\n' => ['\\', 'n']
  | '\t' => ['\\', 't']
  | c => [c]

/-- `vfpJsonEsc(s)`. -/
def vfpJsonEsc (s : String) : List Char := s.toList.flatMap escapeChar

/-- `strcat("\"" vfpJsonEsc(s) "\"")`. -/
def quoteJson (s : String) : List Char := '"' :: (vfpJsonEsc s ++ ['"'])

/-- `buildString(parts ",")`. -/
def buildString (parts : List (List Char)) : List Char := [','].intercalate parts

mutual

/-- `vfpToJson(x)`. -/
def vfpToJson : Value → List Char
  | .str s => quoteJson s
  | .sym name =>
    if name = "true" then "true".toList
    else if name = "false" then "false".toList
    else quoteJson (printL (.sym name))
  | .t => "true".toList
  | .nil => "null".toList
  | .fix n => intText n
  | .flo x => (printG x).toList
  | .cons a d =>
    if a = .sym "jobj" then '{' :: (buildString (vfpJObjParts d) ++ ['}'])
    else if a = .sym "jarr" then '[' :: (buildString (vfpJArrParts d) ++ [']'])
    else quoteJson (printL (.cons a d))

/-- The parts that `vfpJObjToJson` joins. -/
def vfpJObjParts : Value → List (List Char)
  | .cons k (.cons v rest) => (vfpToJson k ++ ':' :: vfpToJson v) :: vfpJObjParts rest
  | .cons k _ => [vfpToJson k ++ ':' :: "null".toList]
  | _ => []

/-- The parts that `vfpJArrToJson` joins. -/
def vfpJArrParts : Value → List (List Char)
  | .cons e rest => vfpToJson e :: vfpJArrParts rest
  | _ => []

end

end Encoder

section Style

/-- An escaped character is read back. -/
theorem character_escapeChar (c : Char) (hc : rawControl c = false) (rest : List Char) :
    character (escapeChar c ++ rest) = some (c, rest) := by
  unfold escapeChar
  split
  · rfl
  · rfl
  · rfl
  · rfl
  · rename_i hslash hquote hline htab
    have hhigh : ¬ c.toNat < 32 := by
      intro hlow
      simp [rawControl, hlow] at hc
      exact absurd (hc hline) htab
    have hne : c ≠ '\\' := hslash
    simp [character, hne, hhigh]

/-- No escape begins with a quote. -/
theorem escapeChar_head (c : Char) : (escapeChar c).head? ≠ some '"' := by
  unfold escapeChar
  split
  · decide
  · decide
  · decide
  · decide
  · rename_i hslash hquote hline htab
    simpa using hquote

/-- The style of the encoder: no white space at all. -/
def encoderStyle : Style where
  escape := escapeChar
  plain c := rawControl c = false
  opening _ := []
  comma _ := []
  closing _ := []
  colon := []
  character_escape := character_escapeChar
  escape_head c _ := escapeChar_head c
  opening_blank := by simp
  comma_blank := by simp
  closing_blank := by simp
  colon_blank := by simp

variable {fmt : FloatFormat} {printL : Value → String} {printG : ℚ → String}

/-- Parts joined by commas: the first one, and each further one with a comma before it. -/
theorem buildString_cons (part : List Char) (parts : List (List Char)) :
    buildString (part :: parts) = part ++ parts.flatMap (',' :: ·) := by
  induction parts generalizing part with
  | nil => simp [buildString, List.intercalate]
  | cons p ps ih =>
    have hcons : buildString (part :: p :: ps) = part ++ ',' :: buildString (p :: ps) := by
      simp [buildString, List.intercalate]
    rw [hcons, ih, List.flatMap_cons, List.cons_append]

/-- The text of a member, between the braces of its object. -/
theorem printMember_encoder (k : String) (v : Json) (d : ℕ) (rest : List Char) :
    printMember fmt encoderStyle d (k, v) ++ rest =
      quoteJson k ++ ':' :: (print fmt encoderStyle (d + 1) v ++ rest) := by
  simp [printMember, quote, quoteJson, vfpJsonEsc, encoderStyle]

mutual

/-- The text of a tree is the printed value. -/
theorem vfpToJson_treeOf : ∀ (v : Json) (d : ℕ), Floatless v →
    vfpToJson printL printG (treeOf v) = print fmt encoderStyle d v
  | .null, _, _ => rfl
  | .bool true, _, _ => rfl
  | .bool false, _, _ => rfl
  | .int _, _, _ => rfl
  | .str _, _, _ => rfl
  | .arr [], _, _ => rfl
  | .arr (v :: vs), d, ⟨hv, hvs⟩ => by
    have hhead := vfpToJson_treeOf v (d + 1) hv
    have htail := parts_treeOfItems vs d hvs
    rw [treeOf, treeOfItems, vfpToJson, if_neg (by decide), if_pos rfl, vfpJArrParts, buildString_cons,
      List.append_assoc, htail, hhead]
    rfl
  | .obj [], _, _ => rfl
  | .obj ((k, v) :: ms), d, ⟨hv, hms⟩ => by
    have hhead := vfpToJson_treeOf v (d + 1) hv
    have htail := parts_treeOfMembers ms d hms
    rw [treeOf, treeOfMembers, vfpToJson, if_pos rfl, vfpJObjParts, buildString_cons, List.append_assoc,
      htail, hhead, vfpToJson, print, printMember_encoder, List.append_assoc, List.cons_append]
    rfl

/-- The further elements of an array. -/
theorem parts_treeOfItems : ∀ (vs : List Json) (d : ℕ), FloatlessItems vs →
    (vfpJArrParts printL printG (treeOfItems vs)).flatMap (',' :: ·) ++ [']'] =
      printItems fmt encoderStyle d vs
  | [], _, _ => rfl
  | v :: vs, d, ⟨hv, hvs⟩ => by
    have hhead := vfpToJson_treeOf v (d + 1) hv
    have htail := parts_treeOfItems vs d hvs
    rw [treeOfItems, vfpJArrParts, List.flatMap_cons, List.append_assoc, htail, hhead]
    rfl

/-- The further members of an object. -/
theorem parts_treeOfMembers : ∀ (ms : List (String × Json)) (d : ℕ), FloatlessMembers ms →
    (vfpJObjParts printL printG (treeOfMembers ms)).flatMap (',' :: ·) ++ ['}'] =
      printMembers fmt encoderStyle d ms
  | [], _, _ => rfl
  | (k, v) :: ms, d, ⟨hv, hms⟩ => by
    have hhead := vfpToJson_treeOf v (d + 1) hv
    have htail := parts_treeOfMembers ms d hms
    rw [treeOfMembers, vfpJObjParts, List.flatMap_cons, List.append_assoc, htail, hhead, vfpToJson,
      printMembers, printMember_encoder, List.cons_append, List.append_assoc, List.cons_append]
    rfl

end

end Style

/-- A string that can be sent holds no raw control character. -/
theorem plain_of_sendable {s : String} (h : sendable (.str s) = true) : ∀ c ∈ s.toList, rawControl c = false := by
  simpa [sendable] using h

end VirtuosoFlow.Plugin.Encoder
