import VirtuosoFlow.Plugin.RouteQuality

/-!
# What the routing grid covers

`vfpLayoutRoute` gives its grid as many columns as whole pitches fit into the width of the cellview, and
as many rows as fit into its height. What lies beyond the last column or row, or so close before its end
that the quotient is rounded up, is not on the grid, and a terminal there is none of the terminals that are
routed.
-/

namespace VirtuosoFlow.Plugin

open Base

/-- The grid that `vfpLayoutRoute` makes. -/
def layoutGrid (cv : Layout) (pitch : ℚ) : Grid :=
  vfpRGmake (pitches pitch cv.bBox.lowerLeft.1 cv.bBox.upperRight.1)
    (pitches pitch cv.bBox.lowerLeft.2 cv.bBox.upperRight.2) cv.bBox.lowerLeft.1 cv.bBox.lowerLeft.2 pitch

/-- The grid with the obstacles in it, which the router starts from. -/
def routingGrid (cv : Layout) (pitch : ℚ) : Grid := vfpRMarkObstacles (layoutGrid cv pitch) cv

/-- Routing a layout is routing on its grid. -/
theorem vfpLayoutRoute_eq (cv : Layout) (pitch : ℚ) :
    vfpLayoutRoute cv pitch = vfpRouterBasic cv (routingGrid cv pitch) := rfl

section Frame

variable {g g' : Grid} {cv : Layout} {pitch : ℚ}

/-- Changes that leave the frame alone do so one after the other. -/
theorem sameFrame_foldl {α : Type} {f : Grid → α → Grid} (hf : ∀ g a, SameFrame g (f g a)) (l : List α) (g : Grid) :
    SameFrame g (l.foldl f g) := by
  induction l generalizing g with
  | nil => exact .refl g
  | cons a l ih => exact (hf g a).trans (ih (f g a))

/-- Marking obstacles leaves the frame of the grid. -/
theorem sameFrame_markObstacles (g : Grid) (cv : Layout) : SameFrame g (vfpRMarkObstacles g cv) := by
  refine sameFrame_foldl (fun g i => ?_) _ g
  refine sameFrame_foldl (fun g c => ?_) _ g
  refine sameFrame_foldl (fun g r => ?_) _ g
  split
  · exact sameFrame_set g _ _
  · exact .refl g

/-- The terminals of a net are those on the grid that `vfpLayoutRoute` makes. -/
theorem vfpRNetTerms_routingGrid (cv : Layout) (pitch : ℚ) (net : String) :
    vfpRNetTerms (routingGrid cv pitch) cv net = vfpRNetTerms (layoutGrid cv pitch) cv net :=
  vfpRNetTerms_congr (sameFrame_markObstacles _ cv) cv net

/-- A cell is on the grid if its column and its row are. -/
theorem vfpRGin_iff {c r : ℤ} : vfpRGin g c r = true ↔ 0 ≤ c ∧ c < g.nc ∧ 0 ≤ r ∧ r < g.nr := by
  simp only [vfpRGin, Bool.and_eq_true, decide_eq_true_eq, and_assoc]

/-- The places between a start and an end, counted in pitches, are none below zero. -/
theorem pitches_nonneg (hpitch : 0 < pitch) {x₀ x : ℚ} (h : x₀ ≤ x) : 0 ≤ pitches pitch x₀ x :=
  Int.floor_nonneg.mpr (roundTo_nonneg 53 (div_nonneg (roundTo_nonneg 53 (sub_nonneg.mpr h)) hpitch.le))

/-- A place is before the end of the last whole pitch, and not so close to it that its quotient is rounded
up. -/
def WithinWhole (pitch x₀ x₁ x : ℚ) : Prop := RoundsBelow 53 (pitches pitch x₀ x₁) (double (x - x₀) / pitch)

/-- A place is in one of the whole pitches between two places exactly if its quotient is rounded to less than
their number. -/
theorem pitches_lt_pitches_iff (hpitch : 0 < pitch) {x₀ x₁ x : ℚ} (h : x₀ ≤ x) (h' : x ≤ x₁) :
    pitches pitch x₀ x < pitches pitch x₀ x₁ ↔ WithinWhole pitch x₀ x₁ x := by
  have hquotient : ∀ y, x₀ ≤ y → 0 ≤ double (y - x₀) / pitch := fun y hy =>
    div_nonneg (roundTo_nonneg 53 (sub_nonneg.mpr hy)) hpitch.le
  have hcount : (0 : ℚ) ≤ pitches pitch x₀ x₁ := by exact_mod_cast pitches_nonneg hpitch (h.trans h')
  -- the number of whole pitches is itself a double
  have hdigits : HasDigits 53 (pitches pitch x₀ x₁ : ℚ) := (hasDigits_roundTo 53 (hquotient x₁ (h.trans h'))).floor
  calc pitches pitch x₀ x < pitches pitch x₀ x₁ ↔ double (double (x - x₀) / pitch) < pitches pitch x₀ x₁ :=
        Int.floor_lt
    _ ↔ _ := roundTo_lt_iff (by decide) (hquotient x h) hdigits hcount

/-- A point of the cellview is on the grid exactly if it is within the whole columns and the whole rows. -/
theorem vfpRGin_layoutGrid_iff (hpitch : 0 < pitch) {p : ℚ × ℚ} (hp : p ∈ cv.bBox.region) :
    vfpRGin (layoutGrid cv pitch) (vfpRGcol (layoutGrid cv pitch) p.1)
        (vfpRGrow (layoutGrid cv pitch) p.2) = true ↔
      WithinWhole pitch cv.bBox.lowerLeft.1 cv.bBox.upperRight.1 p.1 ∧
        WithinWhole pitch cv.bBox.lowerLeft.2 cv.bBox.upperRight.2 p.2 := by
  obtain ⟨hlower, hupper⟩ := hp
  rw [← pitches_lt_pitches_iff hpitch hlower.1 hupper.1, ← pitches_lt_pitches_iff hpitch hlower.2 hupper.2,
    vfpRGin_iff]
  constructor
  · exact fun h => ⟨h.2.1, h.2.2.2⟩
  · exact fun h => ⟨pitches_nonneg hpitch hlower.1, h.1, pitches_nonneg hpitch hlower.2, h.2⟩

/-- The cell of a terminal is among the terminals of its net exactly if it is on the grid. -/
theorem termCell_mem_iff {i : Instance} {it : InstTerm} {net : String} {p : ℚ × ℚ} (hi : i ∈ cv.instances)
    (hit : it ∈ i.instTerms) (hnet : it.net = some net) (hpoint : vfpRTermPoint it = some p) :
    (⟨.m1, vfpRGcol g p.1, vfpRGrow g p.2⟩ : Cell) ∈ vfpRNetTerms g cv net ↔
      vfpRGin g (vfpRGcol g p.1) (vfpRGrow g p.2) = true := by
  constructor
  · intro hmem
    exact mem_gridCells.mp (mem_vfpRNetTerms hmem).1
  · intro hin
    rw [vfpRNetTerms, List.mem_reverse, List.mem_flatMap]
    refine ⟨i, hi, List.mem_filterMap.mpr ⟨it, hit, ?_⟩⟩
    simp [termCell, hnet, hpoint, hin]

/-- A terminal inside the cellview is routed exactly if its point is within the whole columns and the whole
rows. -/
theorem terminal_on_grid_iff {i : Instance} {it : InstTerm} {net : String} {p : ℚ × ℚ} (hpitch : 0 < pitch)
    (hi : i ∈ cv.instances) (hit : it ∈ i.instTerms) (hnet : it.net = some net)
    (hpoint : vfpRTermPoint it = some p) (hinside : p ∈ cv.bBox.region) :
    (⟨.m1, vfpRGcol (routingGrid cv pitch) p.1, vfpRGrow (routingGrid cv pitch) p.2⟩ : Cell) ∈
        vfpRNetTerms (routingGrid cv pitch) cv net ↔
      WithinWhole pitch cv.bBox.lowerLeft.1 cv.bBox.upperRight.1 p.1 ∧
        WithinWhole pitch cv.bBox.lowerLeft.2 cv.bBox.upperRight.2 p.2 := by
  have hframe := sameFrame_markObstacles (layoutGrid cv pitch) cv
  have hcol : vfpRGcol (routingGrid cv pitch) p.1 = vfpRGcol (layoutGrid cv pitch) p.1 := by
    rw [vfpRGcol, vfpRGcol, routingGrid, hframe.x0, hframe.pitch]
  have hrow : vfpRGrow (routingGrid cv pitch) p.2 = vfpRGrow (layoutGrid cv pitch) p.2 := by
    rw [vfpRGrow, vfpRGrow, routingGrid, hframe.y0, hframe.pitch]
  rw [vfpRNetTerms_routingGrid, hcol, hrow, termCell_mem_iff hi hit hnet hpoint,
    vfpRGin_layoutGrid_iff hpitch hinside]

end Frame

/-- A cellview seven units wide and high, with one terminal, whose pin is a point. -/
def sampleSpot (x y : ℚ) : Layout :=
  ⟨⟨(0, 0), (7, 7)⟩, [⟨⟨(0, 0), (0, 0)⟩, [⟨some "a", some ⟨(x, y), (x, y)⟩⟩]⟩], ["a"]⟩

/-- The double that `0.6` is read as. -/
def samplePitch : ℚ := 5404319552844595 / 9007199254740992

/-- The double that `6.6` is read as: it comes before eleven pitches. -/
def sampleEdge : ℚ := 3715469692580659 / 562949953421312

/-- A spot of the sample lies in its layout. -/
theorem sampleSpot_inside {x y : ℚ} (hx : 0 ≤ x ∧ x ≤ 7) (hy : 0 ≤ y ∧ y ≤ 7) :
    (x, y) ∈ (sampleSpot x y).bBox.region :=
  ⟨⟨hx.1, hy.1⟩, ⟨hx.2, hy.2⟩⟩

/-- A terminal well inside is found on the grid. -/
theorem terminal_on_grid_iff_sample :
    (⟨.m1, vfpRGcol (routingGrid (sampleSpot (1 / 2) (1 / 2)) samplePitch) (1 / 2),
        vfpRGrow (routingGrid (sampleSpot (1 / 2) (1 / 2)) samplePitch) (1 / 2)⟩ : Cell) ∈
      vfpRNetTerms (routingGrid (sampleSpot (1 / 2) (1 / 2)) samplePitch) (sampleSpot (1 / 2) (1 / 2)) "a" := by
  have hpitch : 0 < samplePitch := by norm_num [samplePitch]
  have hwithin : WithinWhole samplePitch 0 7 (1 / 2) :=
    (pitches_lt_pitches_iff hpitch (by norm_num) (by norm_num)).mp (by decide +kernel)
  exact (terminal_on_grid_iff hpitch (List.mem_singleton.mpr rfl) (List.mem_singleton.mpr rfl) rfl
    (by decide +kernel) (sampleSpot_inside (by norm_num) (by norm_num))).mpr ⟨hwithin, hwithin⟩

/-- A terminal beyond the last whole column is left out, and so is one before its end whose quotient is
rounded up. -/
theorem terminal_left_out :
    (∀ x ∈ [55 / 8, sampleEdge], vfpRTermPoint ⟨some "a", some ⟨(x, 1 / 2), (x, 1 / 2)⟩⟩ = some (x, 1 / 2) ∧
      (x, 1 / 2) ∈ (sampleSpot x (1 / 2)).bBox.region ∧
      vfpRNetTerms (routingGrid (sampleSpot x (1 / 2)) samplePitch) (sampleSpot x (1 / 2)) "a" = []) ∧
    pitches samplePitch 0 7 = 11 ∧ sampleEdge < 11 * samplePitch := by
  refine ⟨fun x hx => ?_, by decide +kernel, by norm_num [sampleEdge, samplePitch]⟩
  simp only [List.mem_cons, List.not_mem_nil, or_false] at hx
  rcases hx with rfl | rfl
  · exact ⟨by decide +kernel, sampleSpot_inside (by norm_num) (by norm_num), by decide +kernel⟩
  · exact ⟨by decide +kernel, sampleSpot_inside (by norm_num [sampleEdge]) (by norm_num), by decide +kernel⟩

end VirtuosoFlow.Plugin
