import VirtuosoFlow.Base.Slots
import VirtuosoFlow.Plugin.Database

/-!
# Schematic access

`vfp_schematic.il`: reading and writing the CDF parameters of the instances of an open
cellview, and the checkpoint of a whole cellview. The parameters of a cellview are slots:
a parameter that is there can be overwritten, and no write adds one.
-/

namespace VirtuosoFlow.Plugin

open Base

section Lists

variable {α : Type} {p q : α → Bool} {f g : α → α} {l : List α}

/-- Change the first element of a list that is found. -/
def modifyFirst (p : α → Bool) (f : α → α) : List α → List α
  | [] => []
  | a :: l => if p a then f a :: l else a :: modifyFirst p f l

/-- The same search finds the changed element. -/
theorem find?_modifyFirst_self (hf : ∀ a, p a = true → p (f a) = true) :
    (modifyFirst p f l).find? p = (l.find? p).map f := by
  induction l with
  | nil => rfl
  | cons a l ih =>
    by_cases h : p a = true
    · simp [modifyFirst, h, hf a h]
    · simp [modifyFirst, h, ih]

/-- A search for other elements finds what it found. -/
theorem find?_modifyFirst_ne (hne : ∀ a, p a = true → q a = false)
    (hf : ∀ a, p a = true → p (f a) = true) : (modifyFirst p f l).find? q = l.find? q := by
  induction l with
  | nil => rfl
  | cons a l ih =>
    by_cases h : p a = true
    · simp [modifyFirst, h, hne a h, hne _ (hf a h)]
    · simp [modifyFirst, h, List.find?_cons, ih]

/-- Changing an element into itself, or none. -/
theorem modifyFirst_same (h : ∀ a, l.find? p = some a → f a = a) : modifyFirst p f l = l := by
  induction l with
  | nil => rfl
  | cons a l ih =>
    by_cases hp : p a = true
    · simp [modifyFirst, hp, h a (by simp [hp])]
    · have hrest : modifyFirst p f l = l := ih fun b hb => h b (by simp [hp, hb])
      simp [modifyFirst, hp, hrest]

/-- Changing the first element twice. -/
theorem modifyFirst_modifyFirst (hg : ∀ a, p a = true → p (g a) = true) :
    modifyFirst p f (modifyFirst p g l) = modifyFirst p (fun a => f (g a)) l := by
  induction l with
  | nil => rfl
  | cons a l ih =>
    by_cases h : p a = true
    · simp [modifyFirst, h, hg a h]
    · simp [modifyFirst, h, ih]

/-- Changes of different elements can be made in either order. -/
theorem modifyFirst_comm (hne : ∀ a, p a = true → q a = false) (hf : ∀ a, p a = true → p (f a) = true)
    (hg : ∀ a, q a = true → q (g a) = true) :
    modifyFirst p f (modifyFirst q g l) = modifyFirst q g (modifyFirst p f l) := by
  have hne' : ∀ a, q a = true → p a = false := by
    intro a hq
    by_contra hp
    rw [hne a (Bool.eq_true_of_not_eq_false hp)] at hq
    cases hq
  induction l with
  | nil => rfl
  | cons a l ih =>
    by_cases hp : p a = true
    · simp [modifyFirst, hp, hne a hp, hne _ (hf a hp)]
    · by_cases hq : q a = true
      · simp [modifyFirst, hp, hq, hne' _ (hg a hq)]
      · simp [modifyFirst, hp, hq, ih]

end Lists

/-- The parameter a value names. -/
def CdfParam.named (name : Value) (p : CdfParam) : Bool := .str p.name = name

/-- The instance a value names. -/
def DbInst.named (name : Value) (i : DbInst) : Bool := .str i.name = name

/-- `vfpFindInstance(cv instName)`. -/
def vfpFindInstance (cv : CellView) (instName : Value) : Option DbInst :=
  cv.instances.find? (DbInst.named instName)

/-- The parameter of a name in the CDF of an instance, if there is one. -/
def DbInst.param? (inst : DbInst) (paramName : Value) : Option CdfParam :=
  inst.cdf.bind fun params => params.find? (CdfParam.named paramName)

/-- `vfpInstParamGet(inst paramName)`. -/
def vfpInstParamGet (inst : Option DbInst) (paramName : Value) : Value :=
  ((inst.bind fun i => i.param? paramName).map CdfParam.value).getD .nil

/-- `vfpInstParamSet(inst paramName value)`: whether the parameter was there, and the instance. -/
def vfpInstParamSet (inst : DbInst) (paramName value : Value) : Bool × DbInst :=
  match inst.param? paramName with
  | some _ =>
    let set := modifyFirst (CdfParam.named paramName) fun p => { p with value := value }
    (true, { inst with cdf := inst.cdf.map set })
  | none => (false, inst)

/-- `vfpGetInstanceParamValue(cv instName paramName)`. -/
def vfpGetInstanceParamValue (cv : CellView) (instName paramName : Value) : Value :=
  vfpInstParamGet (vfpFindInstance cv instName) paramName

/-- `vfpSetInstanceParam(cv instName paramName value)`. -/
def vfpSetInstanceParam (cv : CellView) (instName paramName value : Value) : Bool × CellView :=
  match vfpFindInstance cv instName with
  | some inst =>
    let set := modifyFirst (DbInst.named instName) fun i => (vfpInstParamSet i paramName value).2
    ((vfpInstParamSet inst paramName value).1, { cv with instances := set cv.instances })
  | none => (false, cv)

/-- A copy of a view under a name made of a prefix, a tag and the time, replacing a view of that
name. -/
def checkpointCellView (c : Cadence) (base tag time : String) (v : ViewName) (db : Database) :
    Option String × Database :=
  let vn := base ++ "_vfpckpt_" ++ tag ++ "_" ++ time
  let out := c.dbCopyCellView v ⟨v.lib, v.cell, vn⟩ true db
  (if out.1 then some vn else none, out.2)

/-- `vfpCheckpointCellView(cv tag)`. -/
def vfpCheckpointCellView (c : Cadence) (tag time : String) (v : ViewName) (db : Database) :
    Option String × Database :=
  checkpointCellView c "schematic" tag time v db

/-- The schematic view of a cell. -/
def schematicOf (lib cell : String) : ViewName := ⟨lib, cell, "schematic"⟩

/-- `vfpOpenSchematicForEdit(lib cell)`. -/
def vfpOpenSchematicForEdit (lib cell : String) (db : Database) : Option (CellView × Database) :=
  db.dbOpenCellViewByType (schematicOf lib cell) "schematic"

section Params

variable {cv : CellView} {inst inst' param param' value : Value} {i : DbInst}

/-- The value of a parameter, if the cellview has it. -/
def CellView.param? (cv : CellView) (k : Value × Value) : Option Value :=
  ((vfpFindInstance cv k.1).bind fun i => i.param? k.2).map CdfParam.value

/-- The value of a parameter is read, or `nil` where there is none. -/
theorem vfpGetInstanceParamValue_eq (cv : CellView) (inst param : Value) :
    vfpGetInstanceParamValue cv inst param = (cv.param? (inst, param)).getD .nil := rfl

/-- What a write to a parameter does to the parameters of the instance. -/
theorem param?_vfpInstParamSet (i : DbInst) (param param' value : Value) :
    (vfpInstParamSet i param value).2.param? param' =
      if param = param' then (i.param? param').map fun p => { p with value := value }
      else i.param? param' := by
  unfold vfpInstParamSet
  cases h : i.param? param with
  | none =>
    by_cases hname : param = param'
    · subst hname
      simp [h]
    · simp [hname]
  | some p =>
    obtain ⟨params, hcdf, _⟩ := Option.bind_eq_some_iff.mp h
    have hnamed : ∀ a : CdfParam, CdfParam.named param a = true →
        CdfParam.named param { a with value := value } = true := fun a ha => ha
    simp only [DbInst.param?, hcdf, Option.map_some, Option.bind_some]
    by_cases hname : param = param'
    · subst hname
      rw [if_pos rfl, find?_modifyFirst_self hnamed]
    · rw [if_neg hname, find?_modifyFirst_ne (fun a ha => ?_) hnamed]
      have heq : Value.str a.name = param := of_decide_eq_true ha
      exact decide_eq_false fun hother => hname (heq.symm.trans hother)

/-- A write keeps the name of the instance. -/
theorem name_vfpInstParamSet (i : DbInst) (param value : Value) :
    (vfpInstParamSet i param value).2.name = i.name := by
  unfold vfpInstParamSet
  split <;> rfl

/-- A write is reported to have worked exactly if the parameter is there. -/
theorem vfpSetInstanceParam_fst (cv : CellView) (inst param value : Value) :
    (vfpSetInstanceParam cv inst param value).1 = (cv.param? (inst, param)).isSome := by
  unfold vfpSetInstanceParam CellView.param?
  cases h : vfpFindInstance cv inst with
  | none => rfl
  | some i =>
    simp only [Option.bind_some, Option.isSome_map]
    unfold vfpInstParamSet
    cases i.param? param <;> rfl

/-- What a write leaves in each parameter of the cellview. -/
theorem param?_vfpSetInstanceParam (cv : CellView) (inst param value : Value) (k : Value × Value) :
    (vfpSetInstanceParam cv inst param value).2.param? k =
      if (inst, param) = k then (cv.param? k).map fun _ => value else cv.param? k := by
  obtain ⟨inst', param'⟩ := k
  unfold vfpSetInstanceParam
  cases h : vfpFindInstance cv inst with
  | none =>
    by_cases hk : (inst, param) = (inst', param')
    · obtain ⟨rfl, rfl⟩ := Prod.mk.inj hk
      simp [CellView.param?, h]
    · rw [if_neg hk]
  | some i =>
    have hnamed : ∀ a : DbInst, DbInst.named inst a = true →
        DbInst.named inst (vfpInstParamSet a param value).2 = true := by
      intro a ha
      rw [DbInst.named, name_vfpInstParamSet]
      exact ha
    simp only [CellView.param?, vfpFindInstance]
    by_cases hinst : inst = inst'
    · subst hinst
      rw [find?_modifyFirst_self hnamed]
      have hfind : cv.instances.find? (DbInst.named inst) = some i := h
      simp only [hfind, Option.map_some, Option.bind_some, param?_vfpInstParamSet, Prod.mk.injEq,
        true_and]
      by_cases hparam : param = param'
      · simp only [if_pos hparam, Option.map_map]
        rfl
      · simp only [if_neg hparam]
    · rw [find?_modifyFirst_ne (fun a ha => ?_) hnamed, if_neg (fun hk => hinst (Prod.mk.inj hk).1)]
      have heq : Value.str a.name = inst := of_decide_eq_true ha
      exact decide_eq_false fun hother => hinst (heq.symm.trans hother)

/-- The parameters of a cellview are slots. -/
def paramSlots : Slots CellView (Value × Value) Value where
  get? := CellView.param?
  put k value cv := (vfpSetInstanceParam cv k.1 k.2 value).2
  get?_put cv k k' value := param?_vfpSetInstanceParam cv k.1 k.2 value k'

/-- A write to a parameter of an instance changes the first parameter of the name. -/
theorem vfpInstParamSet_snd (i : DbInst) (param value : Value) : (vfpInstParamSet i param value).2 =
    { i with cdf := i.cdf.map (modifyFirst (CdfParam.named param) fun p => { p with value := value }) } := by
  unfold vfpInstParamSet
  cases h : i.param? param with
  | some p => rfl
  | none =>
    obtain ⟨name, xy, cdf⟩ := i
    cases cdf with
    | none => rfl
    | some params =>
      have hnone : params.find? (CdfParam.named param) = none := h
      have hsame : modifyFirst (CdfParam.named param) (fun p => { p with value := value }) params = params :=
        modifyFirst_same fun a ha => by rw [hnone] at ha; cases ha
      simp [hsame]

/-- A write changes the first instance of the name. -/
theorem vfpSetInstanceParam_snd (cv : CellView) (inst param value : Value) :
    (vfpSetInstanceParam cv inst param value).2 = { cv with
      instances := modifyFirst (DbInst.named inst) (fun i => (vfpInstParamSet i param value).2) cv.instances } := by
  unfold vfpSetInstanceParam
  cases h : vfpFindInstance cv inst with
  | some i => rfl
  | none =>
    have hnone : cv.instances.find? (DbInst.named inst) = none := h
    have hsame : modifyFirst (DbInst.named inst) (fun i => (vfpInstParamSet i param value).2) cv.instances =
        cv.instances := modifyFirst_same fun a ha => by rw [hnone] at ha; cases ha
    rw [hsame]

/-- A write keeps an instance one of its name. -/
theorem named_vfpInstParamSet (inst : Value) (i : DbInst) (param value : Value) :
    DbInst.named inst (vfpInstParamSet i param value).2 = DbInst.named inst i := by
  rw [DbInst.named, DbInst.named, name_vfpInstParamSet]

/-- Two writes to one parameter of an instance. -/
theorem vfpInstParamSet_twice (i : DbInst) (param value value' : Value) :
    (vfpInstParamSet (vfpInstParamSet i param value').2 param value).2 = (vfpInstParamSet i param value).2 := by
  simp only [vfpInstParamSet_snd, Option.map_map, Function.comp_def]
  congr 2
  funext params
  exact modifyFirst_modifyFirst fun a ha => ha

/-- Writes to two parameters of an instance can be made in either order. -/
theorem vfpInstParamSet_comm (i : DbInst) (value value' : Value) (hne : param ≠ param') :
    (vfpInstParamSet (vfpInstParamSet i param' value').2 param value).2 =
      (vfpInstParamSet (vfpInstParamSet i param value).2 param' value').2 := by
  simp only [vfpInstParamSet_snd, Option.map_map, Function.comp_def]
  congr 2
  funext params
  refine modifyFirst_comm (fun a ha => ?_) (fun a ha => ha) (fun a ha => ha)
  have heq : Value.str a.name = param := of_decide_eq_true ha
  exact decide_eq_false fun hother => hne (heq.symm.trans hother)

/-- Writing the value that is there, or to a parameter that is not there, changes nothing. -/
theorem vfpSetInstanceParam_same (cv : CellView) (k : Value × Value) (value : Value)
    (hsame : ∀ x, cv.param? k = some x → x = value) : (vfpSetInstanceParam cv k.1 k.2 value).2 = cv := by
  rw [vfpSetInstanceParam_snd]
  have hinst : modifyFirst (DbInst.named k.1) (fun i => (vfpInstParamSet i k.2 value).2) cv.instances =
      cv.instances := by
    apply modifyFirst_same
    intro i hi
    have hparam : cv.param? k = (i.param? k.2).map CdfParam.value := by
      have hfind : vfpFindInstance cv k.1 = some i := hi
      rw [CellView.param?, hfind, Option.bind_some]
    rw [vfpInstParamSet_snd]
    obtain ⟨name, xy, cdf⟩ := i
    cases cdf with
    | none => rfl
    | some params =>
      have hset : modifyFirst (CdfParam.named k.2) (fun p => { p with value := value }) params = params := by
        apply modifyFirst_same
        intro p hp
        have hvalue : cv.param? k = some p.value := by
          rw [hparam, DbInst.param?, Option.bind_some, hp]
          rfl
        rw [← hsame _ hvalue]
      simp [hset]
  rw [hinst]

/-- Nothing but its parameters changes in a cellview that is written to. -/
theorem paramSlots_lawful : paramSlots.Lawful where
  put_same := vfpSetInstanceParam_same
  put_put cv k value value' := by
    show (vfpSetInstanceParam (vfpSetInstanceParam cv k.1 k.2 value').2 k.1 k.2 value).2 =
      (vfpSetInstanceParam cv k.1 k.2 value).2
    simp only [vfpSetInstanceParam_snd]
    congr 1
    rw [modifyFirst_modifyFirst fun a ha => by rw [named_vfpInstParamSet]; exact ha]
    simp only [vfpInstParamSet_twice]
  put_comm cv k k' value value' hne := by
    show (vfpSetInstanceParam (vfpSetInstanceParam cv k'.1 k'.2 value').2 k.1 k.2 value).2 =
      (vfpSetInstanceParam (vfpSetInstanceParam cv k.1 k.2 value).2 k'.1 k'.2 value').2
    simp only [vfpSetInstanceParam_snd]
    congr 1
    by_cases hinst : k.1 = k'.1
    · have hparam : k.2 ≠ k'.2 := fun h => hne (Prod.ext hinst h)
      rw [hinst, modifyFirst_modifyFirst fun a ha => by rw [named_vfpInstParamSet]; exact ha,
        modifyFirst_modifyFirst fun a ha => by rw [named_vfpInstParamSet]; exact ha]
      simp only [vfpInstParamSet_comm _ _ _ hparam]
    · refine modifyFirst_comm (fun a ha => ?_) (fun a ha => ?_) (fun a ha => ?_)
      · have heq : Value.str a.name = k.1 := of_decide_eq_true ha
        exact decide_eq_false fun hother => hinst (heq.symm.trans hother)
      · rw [named_vfpInstParamSet]
        exact ha
      · rw [named_vfpInstParamSet]
        exact ha

end Params

end VirtuosoFlow.Plugin
