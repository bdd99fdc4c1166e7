import VirtuosoFlow.Plugin.Sexpr
import VirtuosoFlow.Plugin.Encoder
import Mathlib.Data.String.Basic
import Mathlib.Data.List.Sort

/-!
# Connectivity snapshots

A snapshot on its way into a transaction record and back: `vfpConnSnapJ` and `vfpToJson` in
the plugin, JSON in the tunnel, `to_sexpr`, the SKILL reader and `vfpConnSnapFromJson`. It
comes back as it was. The comparison of a rollback then finds no difference in an untouched
schematic just when no two terminals that are written alike are on different nets, and no
two instances of one name have different masters.
-/

namespace VirtuosoFlow.Plugin

open JsonText Sexpr Encoder

section Snapshots

/-- An instance: its name, its master and the nets of its terminals. -/
structure ConnInst where
  name : String
  master : String
  terms : List (String × Option String)
  deriving DecidableEq

/-- What `vfpSnapshotConnectivity` returns. -/
structure ConnSnapshot where
  cellview : String
  instances : List ConnInst
  namedNets : List String
  autoNets : List String
  deriving DecidableEq

/-- The name of a net, `nil` for none. -/
def netValue : Option String → Value
  | none => .nil
  | some net => .str net

/-- A terminal and its net. -/
def termRow (tn : String × Option String) : Value := list [.str tn.1, netValue tn.2]

/-- The row of an instance. -/
def ConnInst.toSkill (r : ConnInst) : Value :=
  list [.str r.name, .str r.master, list (r.terms.map termRow)]

/-- The association list of a snapshot. -/
def ConnSnapshot.toSkill (s : ConnSnapshot) : Value :=
  list [list [.str "cellview", .str s.cellview], list [.str "instances", list (s.instances.map ConnInst.toSkill)],
    list [.str "named_nets", list (s.namedNets.map .str)], list [.str "auto_nets", list (s.autoNets.map .str)]]

/-- The names in a row. -/
def ConnInst.names (r : ConnInst) : List String :=
  r.name :: r.master :: r.terms.flatMap fun tn => tn.1 :: tn.2.toList

/-- The names in a snapshot. -/
def ConnSnapshot.names (s : ConnSnapshot) : List String :=
  s.cellview :: (s.instances.flatMap ConnInst.names ++ (s.namedNets ++ s.autoNets))

/-- No name has a control character other than a newline or a tab. -/
def ConnSnapshot.Clean (s : ConnSnapshot) : Prop :=
  ∀ name ∈ s.names, ∀ c ∈ name.toList, c.toNat < 32 → c = '\n' ∨ c = '\t'

/-- A terminal in `vfpConnSnapJ`. -/
def termJ (tn : Value) : Value := vfpJObj [.str "term", tn.car, .str "net", tn.cdr.car]

/-- An instance in `vfpConnSnapJ`. -/
def instJ (r : Value) : Value :=
  vfpJObj [.str "name", r.car, .str "master", r.cdr.car,
    .str "terms", vfpJArr (r.cdr.cdr.car.toList.map termJ)]

/-- `vfpConnSnapJ(snap)`. -/
def vfpConnSnapJ (snap : Value) : Value :=
  vfpJObj [.str "schema_version", .str "0.1", .str "cellview", vfpAlistGet snap "cellview",
    .str "instances", vfpJArr ((vfpAlistGet snap "instances").toList.map instJ),
    .str "named_nets", vfpJArr (vfpAlistGet snap "named_nets").toList,
    .str "auto_nets", vfpJArr (vfpAlistGet snap "auto_nets").toList]

/-- A terminal in `vfpConnSnapFromJson`. -/
def termFromJson (tn : Value) : Value := list [vfpAlistGet tn "term", vfpAlistGet tn "net"]

/-- An instance in `vfpConnSnapFromJson`. -/
def instFromJson (r : Value) : Value :=
  list [vfpAlistGet r "name", vfpAlistGet r "master", list ((vfpAlistGet r "terms").toList.map termFromJson)]

/-- `vfpConnSnapFromJson(j)`. -/
def vfpConnSnapFromJson (j : Value) : Value :=
  if j.truthy then
    list [list [.str "cellview", vfpAlistGet j "cellview"],
      list [.str "instances", list ((vfpAlistGet j "instances").toList.map instFromJson)],
      list [.str "named_nets", vfpAlistGet j "named_nets"], list [.str "auto_nets", vfpAlistGet j "auto_nets"]]
  else .nil

/-- A JSON value that the tunnel writes and reads again, in one layout after another. -/
def reserialised (fmt : FloatFormat) (layouts : List (Option ℕ)) (v : Json) : Option Json :=
  layouts.foldlM (fun v layout => loads fmt (dumps fmt layout v)) v

/-- The way of a snapshot into the tunnel and back. -/
def restored (fmt : FloatFormat) (printL : Value → String) (printG : ℚ → String) (layouts : List (Option ℕ))
    (snap : Value) : Option Value := do
  let stored ← loads fmt (Encoder.vfpToJson printL printG (vfpConnSnapJ snap))
  let sent ← reserialised fmt layouts stored
  let answer ← skillRead fmt (toSexpr fmt sent)
  return vfpConnSnapFromJson answer

end Snapshots

section Json

/-- The net of a terminal in JSON. -/
def netJson : Option String → Json
  | none => .null
  | some net => .str net

/-- A terminal in JSON. -/
def termJson (tn : String × Option String) : Json := .obj [("term", .str tn.1), ("net", netJson tn.2)]

/-- An instance in JSON. -/
def ConnInst.toJson (r : ConnInst) : Json :=
  .obj [("name", .str r.name), ("master", .str r.master), ("terms", .arr (r.terms.map termJson))]

/-- A snapshot in JSON. -/
def ConnSnapshot.toJson (s : ConnSnapshot) : Json :=
  .obj [("schema_version", .str "0.1"), ("cellview", .str s.cellview),
    ("instances", .arr (s.instances.map ConnInst.toJson)), ("named_nets", .arr (s.namedNets.map .str)),
    ("auto_nets", .arr (s.autoNets.map .str))]

/-- The trees of items, one by one. -/
theorem treeOfItems_eq (vs : List Json) : treeOfItems vs = list (vs.map treeOf) := by
  induction vs with
  | nil => rfl
  | cons v vs ih => rw [treeOfItems, ih, List.map_cons, list]

/-- The values of items, one by one. -/
theorem ofItems_eq (vs : List Json) : Value.ofItems vs = list (vs.map Value.ofJson) := by
  induction vs with
  | nil => rfl
  | cons v vs ih => rw [Value.ofItems, ih, List.map_cons, list]

/-- The fields of a snapshot as SKILL reads them. -/
theorem vfpAlistGet_toSkill (s : ConnSnapshot) :
    vfpAlistGet s.toSkill "cellview" = .str s.cellview ∧
      vfpAlistGet s.toSkill "instances" = list (s.instances.map ConnInst.toSkill) ∧
      vfpAlistGet s.toSkill "named_nets" = list (s.namedNets.map .str) ∧
      vfpAlistGet s.toSkill "auto_nets" = list (s.autoNets.map .str) :=
  ⟨rfl, rfl, rfl, rfl⟩

/-- The tree of a terminal. -/
theorem treeOf_termJson (tn : String × Option String) : treeOf (termJson tn) = termJ (termRow tn) := by
  obtain ⟨term, net⟩ := tn
  cases net <;> rfl

/-- The tree of an instance. -/
theorem treeOf_inst (r : ConnInst) : treeOf r.toJson = instJ r.toSkill := by
  have hrow : r.toSkill.cdr.cdr.car = list (r.terms.map termRow) := rfl
  have hterms : (r.terms.map termJson).map treeOf = (r.terms.map termRow).map termJ := by
    rw [List.map_map, List.map_map]
    exact List.map_congr_left fun tn _ => treeOf_termJson tn
  simp only [ConnInst.toJson, treeOf, treeOfMembers, treeOfItems_eq, hterms, instJ, hrow, toList_list]
  rfl

/-- The trees of strings are strings. -/
theorem map_treeOf_str (names : List String) : (names.map Json.str).map treeOf = names.map Value.str := by
  rw [List.map_map]
  exact List.map_congr_left fun name _ => rfl

/-- `vfpConnSnapJ` builds the tree of the snapshot in JSON. -/
theorem vfpConnSnapJ_toSkill (s : ConnSnapshot) : vfpConnSnapJ s.toSkill = treeOf s.toJson := by
  obtain ⟨hcellview, hinstances, hnamed, hauto⟩ := vfpAlistGet_toSkill s
  have hrows : (s.instances.map ConnInst.toJson).map treeOf = (s.instances.map ConnInst.toSkill).map instJ := by
    rw [List.map_map, List.map_map]
    exact List.map_congr_left fun r _ => treeOf_inst r
  simp only [vfpConnSnapJ, hcellview, hinstances, hnamed, hauto, toList_list, ConnSnapshot.toJson, treeOf,
    treeOfMembers, treeOfItems_eq, map_treeOf_str, hrows]
  rfl

/-- The association list of a terminal, read back. -/
theorem termFromJson_termJson (tn : String × Option String) :
    termFromJson (Value.ofJson (termJson tn)) = termRow tn := by
  obtain ⟨term, net⟩ := tn
  cases net <;> rfl

/-- The association list of an instance, read back. -/
theorem instFromJson_inst (r : ConnInst) : instFromJson (Value.ofJson r.toJson) = r.toSkill := by
  have hterms : vfpAlistGet (Value.ofJson r.toJson) "terms" =
      list ((r.terms.map termJson).map Value.ofJson) := ofItems_eq _
  have hrows : ((r.terms.map termJson).map Value.ofJson).map termFromJson = r.terms.map termRow := by
    rw [List.map_map, List.map_map]
    exact List.map_congr_left fun tn _ => termFromJson_termJson tn
  rw [instFromJson, hterms, toList_list, hrows]
  rfl

/-- `vfpConnSnapFromJson` undoes `vfpConnSnapJ`. -/
theorem vfpConnSnapFromJson_ofJson (s : ConnSnapshot) :
    vfpConnSnapFromJson (Value.ofJson s.toJson) = s.toSkill := by
  have hinstances : vfpAlistGet (Value.ofJson s.toJson) "instances" =
      list ((s.instances.map ConnInst.toJson).map Value.ofJson) := ofItems_eq _
  have hnamed : vfpAlistGet (Value.ofJson s.toJson) "named_nets" =
      list ((s.namedNets.map Json.str).map Value.ofJson) := ofItems_eq _
  have hauto : vfpAlistGet (Value.ofJson s.toJson) "auto_nets" =
      list ((s.autoNets.map Json.str).map Value.ofJson) := ofItems_eq _
  have hstrings : ∀ names : List String, (names.map Json.str).map Value.ofJson = names.map Value.str := by
    intro names
    rw [List.map_map]
    exact List.map_congr_left fun name _ => rfl
  have hrows : ((s.instances.map ConnInst.toJson).map Value.ofJson).map instFromJson =
      s.instances.map ConnInst.toSkill := by
    rw [List.map_map, List.map_map]
    exact List.map_congr_left fun r _ => instFromJson_inst r
  have htruthy : (Value.ofJson s.toJson).truthy = true := rfl
  rw [vfpConnSnapFromJson, if_pos htruthy, hinstances, hnamed, hauto, toList_list, hrows, hstrings, hstrings]
  rfl

end Json

section Restored

variable {fmt : FloatFormat} {s : ConnSnapshot}

/-- Items that are made printably are printable. -/
theorem printableItems_map {α : Type} {plain : Char → Prop} {f : α → Json} (xs : List α) :
    (∀ x ∈ xs, Printable fmt plain (f x)) → PrintableItems fmt plain (xs.map f) := by
  induction xs with
  | nil => exact fun _ => trivial
  | cons x xs ih =>
    intro h
    exact ⟨h x List.mem_cons_self, ih fun y hy => h y (List.mem_cons_of_mem x hy)⟩

/-- Items that are made without floats hold none. -/
theorem floatlessItems_map {α : Type} {f : α → Json} (xs : List α) :
    (∀ x ∈ xs, Floatless (f x)) → FloatlessItems (xs.map f) := by
  induction xs with
  | nil => exact fun _ => trivial
  | cons x xs ih =>
    intro h
    exact ⟨h x List.mem_cons_self, ih fun y hy => h y (List.mem_cons_of_mem x hy)⟩

/-- A snapshot in JSON can be printed when its names can. -/
theorem printable_toJson {plain : Char → Prop}
    (hkeys : ∀ key ∈ ["schema_version", "0.1", "cellview", "instances", "named_nets", "auto_nets", "name", "master",
      "terms", "term", "net"], ∀ c ∈ key.toList, plain c)
    (h : ∀ name ∈ s.names, ∀ c ∈ name.toList, plain c) : Printable fmt plain s.toJson := by
  have hterm : ∀ r ∈ s.instances, ∀ tn ∈ r.terms, Printable fmt plain (termJson tn) := by
    intro r hr tn htn
    have hmem : ∀ name ∈ tn.1 :: tn.2.toList, ∀ c ∈ name.toList, plain c := by
      intro name hname
      refine h name (List.mem_cons_of_mem _ (List.mem_append_left _ (List.mem_flatMap.mpr ⟨r, hr, ?_⟩)))
      exact List.mem_cons_of_mem _ (List.mem_cons_of_mem _ (List.mem_flatMap.mpr ⟨tn, htn, hname⟩))
    obtain ⟨term, net⟩ := tn
    refine ⟨by simp, hkeys _ (by simp), hmem _ (by simp), hkeys _ (by simp), ?_, trivial⟩
    cases net with
    | none => trivial
    | some net => exact hmem net (by simp)
  have hinst : ∀ r ∈ s.instances, Printable fmt plain r.toJson := by
    intro r hr
    have hmem : ∀ name ∈ [r.name, r.master], ∀ c ∈ name.toList, plain c := by
      intro name hname
      refine h name (List.mem_cons_of_mem _ (List.mem_append_left _ (List.mem_flatMap.mpr ⟨r, hr, ?_⟩)))
      simp only [List.mem_cons, List.not_mem_nil, or_false] at hname
      rcases hname with rfl | rfl <;> simp [ConnInst.names]
    exact ⟨by simp, hkeys _ (by simp), hmem _ (by simp), hkeys _ (by simp), hmem _ (by simp), hkeys _ (by simp),
      printableItems_map _ (hterm r hr), trivial⟩
  have hnamed : ∀ net ∈ s.namedNets, Printable fmt plain (.str net) := fun net hnet =>
    h net (by simp [ConnSnapshot.names, hnet])
  have hauto : ∀ net ∈ s.autoNets, Printable fmt plain (.str net) := fun net hnet =>
    h net (by simp [ConnSnapshot.names, hnet])
  exact ⟨by simp, hkeys _ (by simp), hkeys _ (by simp), hkeys _ (by simp), h _ (by simp [ConnSnapshot.names]),
    hkeys _ (by simp), printableItems_map _ hinst, hkeys _ (by simp), printableItems_map _ hnamed,
    hkeys _ (by simp), printableItems_map _ hauto, trivial⟩

/-- A snapshot holds no floats. -/
theorem floatless_toJson (s : ConnSnapshot) : Floatless s.toJson := by
  have hterm : ∀ tn, Floatless (termJson tn) := by
    intro tn
    obtain ⟨term, net⟩ := tn
    cases net <;> exact ⟨trivial, trivial, trivial⟩
  have hinst : ∀ r : ConnInst, Floatless r.toJson := fun r =>
    ⟨trivial, trivial, floatlessItems_map _ fun tn _ => hterm tn, trivial⟩
  exact ⟨trivial, trivial, floatlessItems_map _ fun r _ => hinst r, floatlessItems_map _ fun _ _ => trivial,
    floatlessItems_map _ fun _ _ => trivial, trivial⟩

/-- Line ends and tabs are escaped, so they do no harm. -/
theorem rawControl_eq_false {c : Char} (h : c.toNat < 32 → c = '\n' ∨ c = '\t') : rawControl c = false := by
  by_cases hlow : c.toNat < 32
  · rcases h hlow with rfl | rfl <;> decide
  · simp [rawControl, hlow]

/-- What the tunnel writes it reads back, however often. -/
theorem reserialised_eq (layouts : List (Option ℕ)) {v : Json} (hv : WellFormed fmt v) :
    reserialised fmt layouts v = some v := by
  induction layouts with
  | nil => rfl
  | cons layout layouts ih =>
    have hread := loads_dumps layout hv
    rw [reserialised, List.foldlM_cons, hread]
    exact ih

/-- A snapshot comes back as it was. -/
theorem restored_toSkill (printL : Value → String) (printG : ℚ → String) (layouts : List (Option ℕ))
    (hclean : s.Clean) : restored fmt printL printG layouts s.toSkill = some s.toSkill := by
  have hwell : WellFormed fmt s.toJson := printable_toJson (fun _ _ _ _ => trivial) (fun _ _ _ _ => trivial)
  have hplain : Printable fmt encoderStyle.plain s.toJson :=
    printable_toJson (by
        refine fun key hkey => Base.forall_mem_of_all (p := fun c => rawControl c = false) ?_
        revert key
        exact Base.forall_mem_of_all (by decide))
      fun name hname c hc => rawControl_eq_false (hclean name hname c hc)
  have htext := @vfpToJson_treeOf fmt printL printG s.toJson 0 (floatless_toJson s)
  have hread := @loads_print fmt encoderStyle s.toJson hplain
  rw [← htext, ← vfpConnSnapJ_toSkill] at hread
  rw [restored, hread]
  simp only [Option.bind_eq_bind, Option.bind_some, reserialised_eq layouts hwell, skillRead_toSexpr hwell,
    vfpConnSnapFromJson_ofJson]
  rfl

end Restored

end VirtuosoFlow.Plugin
