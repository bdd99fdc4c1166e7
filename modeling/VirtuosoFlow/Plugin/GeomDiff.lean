import VirtuosoFlow.Base.Keyed
import VirtuosoFlow.Plugin.Route

/-!
# The geometry audit

`vfp_layout_txn.il`: a snapshot of a layout cellview and the comparison of two of them that a
layout transaction records. Shapes are matched by their database object and compared by one field
of their row.
-/

namespace VirtuosoFlow.Plugin

deriving instance DecidableEq for BBox

/-- A shape of a cellview: the database object, and what a snapshot reads of it. -/
structure LayoutShape where
  object : ℕ
  layerName : String
  purpose : Option String
  objType : String
  bBox : BBox
  net : Option String

/-- An instance of a layout, as a snapshot reads it. -/
structure PlacedRow where
  name : String
  xy : ℚ × ℚ
  orient : String
  deriving DecidableEq

/-- What a snapshot reads of an open layout; the shapes are objects of their own. -/
structure LayoutObjects where
  shapes : List LayoutShape
  instances : List PlacedRow
  vias : Option ℕ
  distinct : (shapes.map LayoutShape.object).Nodup

/-- A row `(sh layer purpose objType bbox netName)`. -/
structure ShapeRow where
  sh : ℕ
  layer : String
  purpose : String
  objType : String
  bBox : BBox
  netName : Option String

/-- What an element of a row can be. -/
inductive RowField where
  | object (n : ℕ)
  | text (s : String)
  | box (b : BBox)
  | nil
  deriving DecidableEq

/-- `nth(n row)`; the first element has the number zero. -/
def ShapeRow.nth (row : ShapeRow) : ℕ → RowField
  | 0 => .object row.sh
  | 1 => .text row.layer
  | 2 => .text row.purpose
  | 3 => .text row.objType
  | 4 => .box row.bBox
  | 5 => (row.netName.map RowField.text).getD .nil
  | _ => .nil

/-- What `vfpLayoutGeomSnapshot` returns. -/
structure GeomSnapshot where
  shapes : List ShapeRow
  instances : List PlacedRow
  counts : ℕ × ℕ × ℕ
  distinct : (shapes.map ShapeRow.sh).Nodup

/-- The row of a shape. -/
def shapeRow (sh : LayoutShape) : ShapeRow :=
  ⟨sh.object, sh.layerName, sh.purpose.getD "drawing", sh.objType, sh.bBox, sh.net⟩

/-- `vfpLayoutGeomSnapshot(cv)`. -/
def vfpLayoutGeomSnapshot (cv : LayoutObjects) : GeomSnapshot where
  shapes := cv.shapes.map shapeRow
  instances := cv.instances
  counts := (cv.shapes.length, cv.vias.getD 0, cv.instances.length)
  distinct := by
    rw [List.map_map]
    exact cv.distinct

/-- The kinds of a change. -/
inductive GeomKind where
  | shapeModified | shapeRemoved | shapeAdded | instMoved | instReoriented
  deriving DecidableEq

/-- A record `(kind subject detail)`. -/
structure GeomChange where
  kind : GeomKind
  subject : String
  detail : String
  deriving DecidableEq

/-- The records on a shape: `nth(1 s)` is the layer and `nth(2 s)` the purpose. -/
def modifiedRecord (s : ShapeRow) : GeomChange :=
  ⟨.shapeModified, s.layer, s.purpose ++ " on " ++ s.layer ++ " moved/resized"⟩

/-- The record of a shape that is gone. -/
def removedRecord (s : ShapeRow) : GeomChange :=
  ⟨.shapeRemoved, s.layer, "removed " ++ s.purpose ++ " on " ++ s.layer⟩

/-- The record of a shape that is new. -/
def addedRecord (s : ShapeRow) : GeomChange :=
  ⟨.shapeAdded, s.layer, "added " ++ s.purpose ++ " on " ++ s.layer⟩

/-- What is reported on a shape of the first snapshot. -/
def shapeDiff (shB : List ShapeRow) (s : ShapeRow) : List GeomChange :=
  if s.sh ∈ shB.map ShapeRow.sh then
    if some (s.nth 3) = (shB.find? fun x => x.sh = s.sh).map (ShapeRow.nth · 3) then []
    else [modifiedRecord s]
  else [removedRecord s]

/-- What is reported on a shape of the second snapshot. -/
def newShapeDiff (shA : List ShapeRow) (s : ShapeRow) : List GeomChange :=
  if s.sh ∈ shA.map ShapeRow.sh then [] else [addedRecord s]

/-- What is reported on an instance of the first snapshot. -/
def placementDiff (iB : List PlacedRow) (ra : PlacedRow) : List GeomChange :=
  match iB.find? fun x => x.name = ra.name with
  | none => []
  | some rb =>
    (if ra.xy = rb.xy then [] else [⟨.instMoved, ra.name, ra.name ++ " moved"⟩]) ++
      if ra.orient = rb.orient then []
      else [⟨.instReoriented, ra.name, ra.name ++ " orient " ++ ra.orient ++ " -> " ++ rb.orient⟩]

/-- `vfpLayoutGeomDiff(snapA snapB)`. -/
def vfpLayoutGeomDiff (snapA snapB : GeomSnapshot) : List GeomChange :=
  snapA.shapes.flatMap (shapeDiff snapB.shapes) ++
    (snapB.shapes.flatMap (newShapeDiff snapA.shapes) ++
      snapA.instances.flatMap (placementDiff snapB.instances))

/-- The records of a kind, in order. -/
def recordsOf (kind : GeomKind) (diffs : List GeomChange) : List GeomChange :=
  diffs.filter fun d => d.kind = kind

section Shapes

variable {A B : GeomSnapshot}

/-- The shapes of one snapshot that another does not have. -/
def GeomSnapshot.only (A B : GeomSnapshot) : List ShapeRow :=
  A.shapes.filter fun s => s.sh ∉ B.shapes.map ShapeRow.sh

/-- The shapes of the first snapshot that have another value in the second. -/
def GeomSnapshot.differing {α : Type} [DecidableEq α] (value : ShapeRow → α) (A B : GeomSnapshot) :
    List ShapeRow :=
  A.shapes.filter fun s => ∃ sb ∈ B.shapes, sb.sh = s.sh ∧ value s ≠ value sb

/-- Records made for some elements of a list, one each. -/
theorem flatMap_singleton_if {α β : Type} (l : List α) (p : α → Prop) [DecidablePred p] (f : α → β) :
    (l.flatMap fun a => if p a then [f a] else []) = (l.filter p).map f := by
  induction l with
  | nil => rfl
  | cons a l ih =>
    by_cases h : p a
    · simp [h, ih]
    · simp [h, ih]

/-- The one row of a shape in the second snapshot. -/
theorem find?_sh {s sb : ShapeRow} (hsb : sb ∈ B.shapes) (hsame : sb.sh = s.sh) :
    (B.shapes.find? fun x => x.sh = s.sh) = some sb := by
  rw [← hsame]
  exact Base.find?_key B.distinct hsb

/-- A shape in both snapshots is compared by its object type. -/
theorem shapeDiff_kept {s sb : ShapeRow} (hsb : sb ∈ B.shapes) (hsame : sb.sh = s.sh) :
    shapeDiff B.shapes s = if s.objType ≠ sb.objType then [modifiedRecord s] else [] := by
  have hin : s.sh ∈ B.shapes.map ShapeRow.sh := by
    rw [← hsame]
    exact List.mem_map_of_mem hsb
  rw [shapeDiff, if_pos hin, find?_sh hsb hsame]
  simp [ShapeRow.nth]

/-- Records on shapes come from the two passes over shapes. -/
theorem recordsOf_diff {kind : GeomKind} (hmoved : kind ≠ .instMoved) (hreoriented : kind ≠ .instReoriented)
    (A B : GeomSnapshot) : recordsOf kind (vfpLayoutGeomDiff A B) =
      (A.shapes.flatMap fun s => recordsOf kind (shapeDiff B.shapes s)) ++
        B.shapes.flatMap fun s => recordsOf kind (newShapeDiff A.shapes s) := by
  have hplaced : (A.instances.flatMap fun ra => recordsOf kind (placementDiff B.instances ra)) = [] := by
    refine List.flatMap_eq_nil_iff.mpr fun ra _ => ?_
    unfold placementDiff recordsOf
    split
    · rfl
    · split <;> split <;> simp [hmoved.symm, hreoriented.symm]
  unfold recordsOf at hplaced ⊢
  unfold vfpLayoutGeomDiff
  rw [List.filter_append, List.filter_append, List.filter_flatMap, List.filter_flatMap, List.filter_flatMap,
    hplaced, List.append_nil]

/-- The shapes reported as removed are the ones that only the first snapshot has. -/
theorem recordsOf_removed (A B : GeomSnapshot) :
    recordsOf .shapeRemoved (vfpLayoutGeomDiff A B) = (A.only B).map removedRecord := by
  have hfirst : ∀ s, recordsOf .shapeRemoved (shapeDiff B.shapes s) =
      if s.sh ∉ B.shapes.map ShapeRow.sh then [removedRecord s] else [] := by
    intro s
    unfold shapeDiff recordsOf
    by_cases hin : s.sh ∈ B.shapes.map ShapeRow.sh
    · rw [if_pos hin, if_neg (not_not.mpr hin)]
      split <;> simp [modifiedRecord]
    · rw [if_neg hin, if_pos hin]
      rfl
  have hsecond : ∀ s, recordsOf .shapeRemoved (newShapeDiff A.shapes s) = [] := by
    intro s
    unfold newShapeDiff recordsOf
    split <;> simp [addedRecord]
  rw [recordsOf_diff (by decide) (by decide), funext hfirst, flatMap_singleton_if,
    List.flatMap_eq_nil_iff.mpr fun s _ => hsecond s, List.append_nil]
  rfl

/-- The shapes reported as added are the ones that only the second snapshot has. -/
theorem recordsOf_added (A B : GeomSnapshot) :
    recordsOf .shapeAdded (vfpLayoutGeomDiff A B) = (B.only A).map addedRecord := by
  have hfirst : ∀ s, recordsOf .shapeAdded (shapeDiff B.shapes s) = [] := by
    intro s
    unfold shapeDiff recordsOf
    split
    · split <;> simp [modifiedRecord]
    · simp [removedRecord]
  have hsecond : ∀ s, recordsOf .shapeAdded (newShapeDiff A.shapes s) =
      if s.sh ∉ A.shapes.map ShapeRow.sh then [addedRecord s] else [] := by
    intro s
    unfold newShapeDiff recordsOf
    by_cases hin : s.sh ∈ A.shapes.map ShapeRow.sh
    · rw [if_pos hin, if_neg (not_not.mpr hin)]
      rfl
    · rw [if_neg hin, if_pos hin]
      rfl
  rw [recordsOf_diff (by decide) (by decide), funext hsecond, flatMap_singleton_if,
    List.flatMap_eq_nil_iff.mpr fun s _ => hfirst s, List.nil_append]
  rfl

/-- The shapes reported as modified are the ones that both snapshots have with another object type. -/
theorem recordsOf_modified (A B : GeomSnapshot) :
    recordsOf .shapeModified (vfpLayoutGeomDiff A B) =
      (A.differing ShapeRow.objType B).map modifiedRecord := by
  have hfirst : ∀ s, recordsOf .shapeModified (shapeDiff B.shapes s) =
      if ∃ sb ∈ B.shapes, sb.sh = s.sh ∧ s.objType ≠ sb.objType then [modifiedRecord s] else [] := by
    intro s
    by_cases hin : s.sh ∈ B.shapes.map ShapeRow.sh
    · obtain ⟨sb, hsb, hsame⟩ := List.mem_map.mp hin
      have hone : (∃ sb' ∈ B.shapes, sb'.sh = s.sh ∧ s.objType ≠ sb'.objType) ↔ s.objType ≠ sb.objType := by
        constructor
        · rintro ⟨sb', hsb', hsame', hne⟩
          have hfind := find?_sh hsb' hsame'
          rw [find?_sh hsb hsame] at hfind
          rw [Option.some.inj hfind]
          exact hne
        · intro hne
          exact ⟨sb, hsb, hsame, hne⟩
      rw [shapeDiff_kept hsb hsame]
      by_cases hne : s.objType ≠ sb.objType
      · rw [if_pos hne, if_pos (hone.mpr hne)]
        rfl
      · rw [if_neg hne, if_neg fun h => hne (hone.mp h)]
        rfl
    · have hnone : ¬ ∃ sb ∈ B.shapes, sb.sh = s.sh ∧ s.objType ≠ sb.objType := by
        rintro ⟨sb, hsb, hsame, -⟩
        exact hin (List.mem_map.mpr ⟨sb, hsb, hsame⟩)
      rw [shapeDiff, if_neg hin, if_neg hnone]
      rfl
  have hsecond : ∀ s, recordsOf .shapeModified (newShapeDiff A.shapes s) = [] := by
    intro s
    unfold newShapeDiff recordsOf
    split <;> simp [addedRecord]
  rw [recordsOf_diff (by decide) (by decide), funext hfirst, flatMap_singleton_if,
    List.flatMap_eq_nil_iff.mpr fun s _ => hsecond s, List.append_nil]
  rfl

/-- Both snapshots hold the same shapes with the same boxes. -/
def SameShapes (A B : GeomSnapshot) : Prop :=
  (∀ s ∈ A.shapes, ∃ sb ∈ B.shapes, sb.sh = s.sh ∧ sb.bBox = s.bBox) ∧
    ∀ sb ∈ B.shapes, ∃ s ∈ A.shapes, s.sh = sb.sh ∧ s.bBox = sb.bBox

/-- The records on shapes are those of the shapes that were removed, added, and moved or resized. -/
structure ShapesExact (A B : GeomSnapshot) : Prop where
  removed : recordsOf .shapeRemoved (vfpLayoutGeomDiff A B) = (A.only B).map removedRecord
  added : recordsOf .shapeAdded (vfpLayoutGeomDiff A B) = (B.only A).map addedRecord
  modified : recordsOf .shapeModified (vfpLayoutGeomDiff A B) =
    (A.differing ShapeRow.bBox B).map modifiedRecord
  none_iff : (recordsOf .shapeRemoved (vfpLayoutGeomDiff A B) = [] ∧
    recordsOf .shapeAdded (vfpLayoutGeomDiff A B) = [] ∧
    recordsOf .shapeModified (vfpLayoutGeomDiff A B) = []) ↔ SameShapes A B

/-- A shape that the other snapshot has. -/
theorem only_nil_iff (A B : GeomSnapshot) :
    A.only B = [] ↔ ∀ s ∈ A.shapes, ∃ sb ∈ B.shapes, sb.sh = s.sh := by
  simp [GeomSnapshot.only, List.filter_eq_nil_iff]

/-- Nothing was removed, added, moved or resized just when the shapes and their boxes are the same. -/
theorem sameShapes_iff (A B : GeomSnapshot) :
    (A.only B = [] ∧ B.only A = [] ∧ A.differing ShapeRow.bBox B = []) ↔ SameShapes A B := by
  have hdiffering : A.differing ShapeRow.bBox B = [] ↔
      ∀ s ∈ A.shapes, ∀ sb ∈ B.shapes, sb.sh = s.sh → s.bBox = sb.bBox := by
    simp [GeomSnapshot.differing, List.filter_eq_nil_iff]
  rw [only_nil_iff, only_nil_iff, hdiffering]
  constructor
  · rintro ⟨hremoved, hadded, hboxes⟩
    constructor
    · intro s hs
      obtain ⟨sb, hsb, hsame⟩ := hremoved s hs
      exact ⟨sb, hsb, hsame, (hboxes s hs sb hsb hsame).symm⟩
    · intro sb hsb
      obtain ⟨s, hs, hsame⟩ := hadded sb hsb
      exact ⟨s, hs, hsame, hboxes s hs sb hsb hsame.symm⟩
  · rintro ⟨hfirst, hsecond⟩
    refine ⟨?_, ?_, ?_⟩
    · intro s hs
      obtain ⟨sb, hsb, hsame, -⟩ := hfirst s hs
      exact ⟨sb, hsb, hsame⟩
    · intro sb hsb
      obtain ⟨s, hs, hsame, -⟩ := hsecond sb hsb
      exact ⟨s, hs, hsame⟩
    · intro s hs sb hsb hsame
      obtain ⟨sb', hsb', hsame', hbox⟩ := hfirst s hs
      have hfind := find?_sh hsb' hsame'
      rw [find?_sh hsb hsame] at hfind
      rw [Option.some.inj hfind]
      exact hbox.symm

/-- A record on a modified shape tells its layer and purpose. -/
theorem modifiedRecord_inj {s s' : ShapeRow} :
    modifiedRecord s = modifiedRecord s' ↔ (s.layer, s.purpose) = (s'.layer, s'.purpose) := by
  constructor
  · intro h
    simp only [modifiedRecord, GeomChange.mk.injEq, true_and] at h
    obtain ⟨hlayer, hdetail⟩ := h
    rw [hlayer] at hdetail
    have htext := congrArg String.toList hdetail
    simp only [String.toList_append, List.append_cancel_right_eq] at htext
    rw [hlayer, String.toList_inj.mp htext]
  · intro h
    obtain ⟨hlayer, hpurpose⟩ := Prod.mk.inj h
    rw [modifiedRecord, modifiedRecord, hlayer, hpurpose]

/-- Functions that identify the same elements identify the same lists. -/
theorem map_eq_map_congr {α β γ : Type} {f : α → β} {g : α → γ} (h : ∀ a b, f a = f b ↔ g a = g b) (xs ys : List α) :
    xs.map f = ys.map f ↔ xs.map g = ys.map g := by
  induction xs generalizing ys with
  | nil => simp
  | cons x xs ih =>
    cases ys with
    | nil => simp
    | cons y ys => simp only [List.map_cons, List.cons.injEq, h x y, ih ys]

/-- The records on shapes are exact just when the shapes with another object type and those with another
box are on the same layers, for the same purposes. -/
theorem shapes_exact_iff (A B : GeomSnapshot) : ShapesExact A B ↔
    (A.differing ShapeRow.objType B).map (fun s => (s.layer, s.purpose)) =
      (A.differing ShapeRow.bBox B).map fun s => (s.layer, s.purpose) := by
  rw [← map_eq_map_congr fun s s' => @modifiedRecord_inj s s', ← recordsOf_modified]
  constructor
  · intro h
    exact h.modified
  · intro hmodified
    refine ⟨recordsOf_removed A B, recordsOf_added A B, hmodified, ?_⟩
    rw [hmodified, recordsOf_removed, recordsOf_added, ← sameShapes_iff]
    simp only [List.map_eq_nil_iff]

/-- A layout with one rectangle. -/
def sampleRect (box : BBox) : LayoutObjects where
  shapes := [⟨1, "M1", none, "rect", box, some "out"⟩]
  instances := []
  vias := some 0
  distinct := by simp

/-- A rectangle is moved, and no record says so. -/
theorem move_not_reported :
    vfpLayoutGeomDiff (vfpLayoutGeomSnapshot (sampleRect ⟨(0, 0), (1, 1)⟩))
        (vfpLayoutGeomSnapshot (sampleRect ⟨(5, 0), (6, 1)⟩)) = [] ∧
      ¬ ShapesExact (vfpLayoutGeomSnapshot (sampleRect ⟨(0, 0), (1, 1)⟩))
        (vfpLayoutGeomSnapshot (sampleRect ⟨(5, 0), (6, 1)⟩)) := by
  constructor
  · decide +kernel
  · intro hexact
    have hmodified := hexact.modified
    revert hmodified
    decide +kernel

end Shapes

end VirtuosoFlow.Plugin
