import VirtuosoFlow.Base.Keyed
import VirtuosoFlow.Plugin.Route

/-!
# Where a terminal is

Two functions say where the pin of an instance terminal lies: `vfpInstTermPoint` for the sheet and
`vfpRTermPoint` for the router. The pins belong to the master, and only the first function maps
them through the placement of the instance.
-/

namespace VirtuosoFlow.Plugin

open Base

/-- The orientations of an instance. -/
inductive Orient where
  | r0 | r90 | r180 | r270 | mx | mxr90 | my | myr90
  deriving DecidableEq

/-- A point turned and mirrored. -/
def Orient.apply : Orient → ℚ × ℚ → ℚ × ℚ
  | .r0, (x, y) => (x, y)
  | .r90, (x, y) => (-y, x)
  | .r180, (x, y) => (-x, -y)
  | .r270, (x, y) => (y, -x)
  | .mx, (x, y) => (x, -y)
  | .mxr90, (x, y) => (y, x)
  | .my, (x, y) => (-x, y)
  | .myr90, (x, y) => (-y, -x)

/-- `list(origin orient magnification)`. -/
structure Transform where
  origin : ℚ × ℚ
  orient : Orient
  mag : ℚ

/-- `dbTransformPoint(point transform)`: magnified, turned and moved. -/
def dbTransformPoint (p : ℚ × ℚ) (t : Transform) : ℚ × ℚ :=
  let q := t.orient.apply (t.mag * p.1, t.mag * p.2)
  (q.1 + t.origin.1, q.2 + t.origin.2)

/-- A terminal of a master: its pins, each with the box of its figure if it has one. -/
structure MasterTerm where
  name : String
  pins : List (Option BBox)

/-- A master; its terminals have names of their own. -/
structure Master where
  terminals : List MasterTerm
  distinct : (terminals.map MasterTerm.name).Nodup

/-- An instance of a master. -/
structure PlacedInst where
  master : Master
  transform : Transform

/-- The box of the figure of the first pin: `car(term~>pins)~>fig~>bBox`. -/
def MasterTerm.box (term : MasterTerm) : Option BBox := term.pins.head?.join

/-- The terminal of an instance on a net: its `term` is the terminal of the master. -/
def PlacedInst.instTerm (_inst : PlacedInst) (term : MasterTerm) (net : Option String) : InstTerm := ⟨net, term.box⟩

/-- The centre of a box. -/
def BBox.centre (bb : BBox) : ℚ × ℚ :=
  (middle bb.lowerLeft.1 bb.upperRight.1, middle bb.lowerLeft.2 bb.upperRight.2)

/-- `vfpInstTermPoint(inst termName)`. -/
def vfpInstTermPoint (inst : PlacedInst) (termName : String) : Option (ℚ × ℚ) :=
  let bb := (inst.master.terminals.find? fun tm => tm.name = termName).bind MasterTerm.box
  bb.map fun bb => dbTransformPoint bb.centre inst.transform

section Points

variable {inst : PlacedInst} {term : MasterTerm} {bb : BBox}

/-- The router's point of a terminal is the centre of the pin in the master. -/
theorem vfpRTermPoint_instTerm (net : Option String) (hbox : term.box = some bb) :
    vfpRTermPoint (inst.instTerm term net) = some bb.centre := by
  rw [vfpRTermPoint, PlacedInst.instTerm, hbox]
  rfl

/-- The point on the sheet is the centre of the pin mapped through the placement. -/
theorem vfpInstTermPoint_name (hterm : term ∈ inst.master.terminals) (hbox : term.box = some bb) :
    vfpInstTermPoint inst term.name = some (dbTransformPoint bb.centre inst.transform) := by
  rw [vfpInstTermPoint, find?_key inst.master.distinct hterm, Option.bind_some, hbox]
  rfl

/-- The router takes a terminal to be where it is just when the placement leaves the centre of its
pin in place. -/
theorem term_points_agree_iff (net : Option String) (hterm : term ∈ inst.master.terminals)
    (hbox : term.box = some bb) :
    vfpRTermPoint (inst.instTerm term net) = vfpInstTermPoint inst term.name ↔
      dbTransformPoint bb.centre inst.transform = bb.centre := by
  rw [vfpRTermPoint_instTerm net hbox, vfpInstTermPoint_name hterm hbox, Option.some.injEq]
  exact eq_comm

/-- Without turning or magnification this means an instance at the origin. -/
theorem dbTransformPoint_moved (p : ℚ × ℚ) (origin : ℚ × ℚ) :
    dbTransformPoint p ⟨origin, .r0, 1⟩ = p ↔ origin = (0, 0) := by
  obtain ⟨x, y⟩ := p
  obtain ⟨dx, dy⟩ := origin
  simp [dbTransformPoint, Orient.apply]

end Points

/-- A terminal with one pin. -/
def sampleGate : MasterTerm := ⟨"G", [some ⟨(0, 0), (2, 2)⟩]⟩

/-- A device placed somewhere. -/
def samplePlaced (origin : ℚ × ℚ) : PlacedInst := ⟨⟨[sampleGate], by simp⟩, ⟨origin, .r0, 1⟩⟩

/-- An instance at the origin. -/
theorem term_points_agree_iff_sample :
    vfpRTermPoint ((samplePlaced (0, 0)).instTerm sampleGate none) =
        vfpInstTermPoint (samplePlaced (0, 0)) sampleGate.name ↔
      dbTransformPoint (BBox.centre ⟨(0, 0), (2, 2)⟩) (samplePlaced (0, 0)).transform =
        BBox.centre ⟨(0, 0), (2, 2)⟩ :=
  term_points_agree_iff none (List.mem_singleton.mpr rfl) rfl

/-- The router looks for the gate of a placed device in the middle of the master. -/
theorem term_point_misplaced :
    vfpRTermPoint ((samplePlaced (10, 0)).instTerm sampleGate none) = some (1, 1) ∧
      vfpInstTermPoint (samplePlaced (10, 0)) sampleGate.name = some (11, 1) := by
  decide +kernel

end VirtuosoFlow.Plugin
