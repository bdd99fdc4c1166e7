import VirtuosoFlow.Base.Grid
import VirtuosoFlow.Base.Rounding
import VirtuosoFlow.Plugin.Skill
import Mathlib.Algebra.Order.Floor.Ring
import Mathlib.Data.Rat.Floor
import Mathlib.Logic.Function.Basic

/-!
# The basic router

`vfp_layout_route.il`: the grid, the maze search, and the backend that routes the nets
of a layout one after the other. A layout is what the router reads of a cellview: the
boxes of its instances, their terminals with the box of their first pin, and the names
of its nets. Coordinates are rational numbers. Where a column, a row or the centre of a pin is computed,
every operation rounds as C doubles do; the rectangles that are painted are exact.
-/

namespace VirtuosoFlow.Plugin

open Base

/-- A bounding box, by its lower left and upper right corner. -/
structure BBox where
  lowerLeft : ℚ × ℚ
  upperRight : ℚ × ℚ

/-- An instance terminal: its net, and the box of the figure of its first pin. -/
structure InstTerm where
  net : Option String
  pin : Option BBox

/-- A placed device. -/
structure Instance where
  bBox : BBox
  instTerms : List InstTerm

/-- What the router reads of a layout cellview. -/
structure Layout where
  bBox : BBox
  instances : List Instance
  nets : List String

/-- The routing layers: `0` is M1, `1` is M2. -/
inductive Layer where
  | m1 | m2
  deriving DecidableEq

/-- The number of a layer. -/
def Layer.toInt : Layer → ℤ
  | .m1 => 0
  | .m2 => 1

/-- `difference(1 l)`. -/
def Layer.other : Layer → Layer
  | .m1 => .m2
  | .m2 => .m1

/-- `list(l c r)`. -/
structure Cell where
  layer : Layer
  col : ℤ
  row : ℤ
  deriving DecidableEq

/-- What holds a grid cell: `'obs` or a net. -/
inductive Holder where
  | obs
  | net (name : String)
  deriving DecidableEq

/-- `vfpRGmake`: the struct `(nc nr occ x0 y0 pitch)`; `occ` is a table with default `nil`. -/
structure Grid where
  nc : ℤ
  nr : ℤ
  occ : ℤ → Option Holder
  x0 : ℚ
  y0 : ℚ
  pitch : ℚ

/-- `fix(quotient(difference(x x0) pitch))`, in doubles; with a pitch of zero SKILL raises instead. -/
def pitches (pitch x₀ x : ℚ) : ℤ := ⌊double (double (x - x₀) / pitch)⌋

/-- `quotient(plus(a b) 2.0)`, in doubles. -/
def middle (a b : ℚ) : ℚ := double (double (a + b) / 2)

section GridModel

variable (g : Grid)

/-- A grid without holders. -/
def vfpRGmake (nc nr : ℤ) (x0 y0 pitch : ℚ) : Grid := ⟨nc, nr, fun _ => none, x0, y0, pitch⟩

/-- The number of a cell. -/
def vfpRGidx (p : Cell) : ℤ := (p.layer.toInt * g.nc + p.col) * g.nr + p.row

/-- What holds a cell. -/
def vfpRGget (p : Cell) : Option Holder := g.occ (vfpRGidx g p)

/-- A cell gets a holder. -/
def vfpRGset (p : Cell) (v : Holder) : Grid :=
  { g with occ := Function.update g.occ (vfpRGidx g p) (some v) }

/-- The cell is on the grid. -/
def vfpRGin (c r : ℤ) : Bool := 0 ≤ c && c < g.nc && 0 ≤ r && r < g.nr

/-- Nothing else than the net holds the cell. -/
def vfpRGpassable (p : Cell) (net : String) : Bool :=
  (vfpRGget g p).isNone || vfpRGget g p == some (.net net)

/-- The column of a coordinate. -/
def vfpRGcol (x : ℚ) : ℤ := pitches g.pitch g.x0 x

/-- The row of a coordinate. -/
def vfpRGrow (y : ℚ) : ℤ := pitches g.pitch g.y0 y

/-- The middle of a column. -/
def vfpRGcx (c : ℤ) : ℚ := g.x0 + (c + 1 / 2) * g.pitch

/-- The middle of a row. -/
def vfpRGcy (r : ℤ) : ℚ := g.y0 + (r + 1 / 2) * g.pitch

/-- The cells of the grid, layer by layer and column by column. -/
def gridCells : List Cell :=
  [Layer.m1, Layer.m2].flatMap fun l =>
    (List.range g.nc.toNat).flatMap fun (c : ℕ) =>
      (List.range g.nr.toNat).map fun (r : ℕ) => ⟨l, c, r⟩

/-- `vfpRClaimedCells`: the cells a net holds, last one first. -/
def vfpRClaimedCells (net : String) : List Cell :=
  ((gridCells g).filter fun p => vfpRGget g p = some (.net net)).reverse

/-- `vfpRClaim`. -/
def vfpRClaim (path : List Cell) (net : String) : Grid :=
  path.foldl (fun g p => vfpRGset g p (.net net)) g

end GridModel

section Maze

variable (g : Grid)

/-- The local variables of `vfpRMaze` that its loop changes. -/
structure Search where
  q : List Cell
  visited : ℤ → Bool
  prev : ℤ → Option Cell

/-- `foreach(s srcList ...)`: each source enters the queue once. -/
def Search.start (srcList : List Cell) : Search :=
  srcList.foldl (fun s p =>
    if s.visited (vfpRGidx g p) then s
    else { s with q := p :: s.q, visited := Function.update s.visited (vfpRGidx g p) true })
    ⟨[], fun _ => false, fun _ => none⟩

/-- The places one step away: the four neighbours, then the other layer. -/
def Cell.steps (p : Cell) : List Cell :=
  [⟨p.layer, p.col + 1, p.row⟩, ⟨p.layer, p.col - 1, p.row⟩, ⟨p.layer, p.col, p.row + 1⟩,
    ⟨p.layer, p.col, p.row - 1⟩, ⟨p.layer.other, p.col, p.row⟩]

/-- One round of `foreach(n ...)`: an unvisited place of the grid that is the target or
passable enters the queue. -/
def Search.visit (tgt : Cell) (net : String) (cur : Cell) (s : Search) (n : Cell) : Search :=
  if vfpRGin g n.col n.row && !s.visited (vfpRGidx g n) &&
      (n == tgt || vfpRGpassable g n net) then
    { q := s.q ++ [n]
      visited := Function.update s.visited (vfpRGidx g n) true
      prev := Function.update s.prev (vfpRGidx g n) (some cur) }
  else s

/-- The cells of the grid the search has not visited. -/
def Search.unvisited (s : Search) : List Cell :=
  (gridCells g).filter fun p => !s.visited (vfpRGidx g p)

/-- What the loop uses up: each round takes one place from the queue, and a place enters
the queue when it is first visited. -/
def Search.measure (s : Search) : ℕ := s.q.length + (s.unvisited g).length

variable {g}

/-- The cells of a grid are those on it. -/
theorem mem_gridCells {p : Cell} : p ∈ gridCells g ↔ vfpRGin g p.col p.row = true := by
  obtain ⟨l, c, r⟩ := p
  simp only [gridCells, List.mem_flatMap, List.mem_map, List.mem_range, Cell.mk.injEq, vfpRGin,
    Bool.and_eq_true, decide_eq_true_eq]
  constructor
  · rintro ⟨l', _, c', hc, r', hr, rfl, rfl, rfl⟩
    omega
  · rintro ⟨⟨⟨hc, hc'⟩, hr⟩, hr'⟩
    refine ⟨l, by cases l <;> simp, c.toNat, by omega, r.toNat, by omega, rfl, ?_, ?_⟩
    · omega
    · omega

/-- Visiting a place uses nothing up. -/
theorem Search.measure_visit (tgt : Cell) (net : String) (cur : Cell) (s : Search) (n : Cell) :
    (s.visit g tgt net cur n).measure g ≤ s.measure g := by
  unfold Search.visit
  split
  · rename_i hcond
    simp only [Bool.and_eq_true, Bool.not_eq_true'] at hcond
    obtain ⟨⟨hin, hnot⟩, _⟩ := hcond
    have hmem : n ∈ s.unvisited g := List.mem_filter.mpr ⟨mem_gridCells.mpr hin, by simp [hnot]⟩
    have hsub : ((gridCells g).filter fun p => !(Function.update s.visited (vfpRGidx g n) true
        (vfpRGidx g p))).length < (s.unvisited g).length := by
      have hfilter : ((gridCells g).filter fun p => !(Function.update s.visited (vfpRGidx g n) true
          (vfpRGidx g p))) = (s.unvisited g).filter fun p => vfpRGidx g p ≠ vfpRGidx g n := by
        unfold Search.unvisited
        rw [List.filter_filter]
        apply List.filter_congr
        intro p _
        by_cases heq : vfpRGidx g p = vfpRGidx g n
        · simp [heq]
        · simp [heq]
      rw [hfilter]
      exact List.length_filter_lt_length_iff_exists.mpr ⟨n, hmem, by simp⟩
    simp only [Search.measure, Search.unvisited, List.length_append, List.length_cons,
      List.length_nil] at hsub ⊢
    omega
  · exact le_refl _

/-- Visiting places one after the other uses nothing up. -/
theorem Search.measure_foldl_visit (tgt : Cell) (net : String) (cur : Cell) (l : List Cell)
    (s : Search) : (l.foldl (Search.visit g tgt net cur) s).measure g ≤ s.measure g := by
  induction l generalizing s with
  | nil => exact le_refl _
  | cons n rest ih => exact (ih _).trans (s.measure_visit tgt net cur n)

variable (g)

/-- `while(and(q null(found)) ...)`: the state in which the target was taken from the queue,
`none` if the queue runs empty. -/
def Search.loop (tgt : Cell) (net : String) (s : Search) : Option Search :=
  match _hq : s.q with
  | [] => none
  | cur :: rest =>
    if cur = tgt then some { s with q := rest }
    else Search.loop tgt net (cur.steps.foldl (Search.visit g tgt net cur) { s with q := rest })
termination_by s.measure g
decreasing_by
  refine lt_of_le_of_lt (Search.measure_foldl_visit tgt net cur cur.steps _) ?_
  simp [Search.measure, Search.unvisited, _hq]

/-- `while(prev[k] ...)`: no path has more steps than the grid has cells. -/
def backtrace (prev : ℤ → Option Cell) : ℕ → Cell → List Cell → List Cell
  | 0, _, path => path
  | fuel + 1, cur, path =>
    match prev (vfpRGidx g cur) with
    | none => path
    | some p => backtrace prev fuel p (p :: path)

/-- `vfpRMaze`. -/
def vfpRMaze (srcList : List Cell) (tgt : Cell) (net : String) : Option (List Cell) :=
  (Search.loop g tgt net (Search.start g srcList)).map fun s =>
    backtrace g s.prev (gridCells g).length tgt [tgt]

end Maze

section Terminals

/-- `i`, `i + 1`, up to `j`. -/
def upTo (i j : ℤ) : List ℤ := (List.range (j - i + 1).toNat).map fun (n : ℕ) => i + n

/-- `vfpRMarkObstacles`: the M1 cells under the boxes of the instances. -/
def vfpRMarkObstacles (g : Grid) (cv : Layout) : Grid :=
  cv.instances.foldl (fun g i =>
    (upTo (vfpRGcol g i.bBox.lowerLeft.1) (vfpRGcol g i.bBox.upperRight.1)).foldl (fun g c =>
      (upTo (vfpRGrow g i.bBox.lowerLeft.2) (vfpRGrow g i.bBox.upperRight.2)).foldl (fun g r =>
        if vfpRGin g c r then vfpRGset g ⟨.m1, c, r⟩ .obs else g) g) g) g

/-- `vfpRTermPoint`: the centre of the box of the first pin. -/
def vfpRTermPoint (it : InstTerm) : Option (ℚ × ℚ) :=
  it.pin.map fun bb => (middle bb.lowerLeft.1 bb.upperRight.1, middle bb.lowerLeft.2 bb.upperRight.2)

/-- The cell that an instance terminal adds to the terminals of a net. -/
def termCell (g : Grid) (net : String) (it : InstTerm) : Option Cell :=
  if it.net = some net then
    match vfpRTermPoint it with
    | some p =>
      if vfpRGin g (vfpRGcol g p.1) (vfpRGrow g p.2) then
        some ⟨.m1, vfpRGcol g p.1, vfpRGrow g p.2⟩
      else none
    | none => none
  else none

/-- `vfpRNetTerms`: the terminals of a net that lie on the grid, last one first. -/
def vfpRNetTerms (g : Grid) (cv : Layout) (net : String) : List Cell :=
  (cv.instances.flatMap fun i => i.instTerms.filterMap (termCell g net)).reverse

/-- The named nets of the connectivity snapshot, then its auto nets. -/
def routedNets (cv : Layout) : List String :=
  cv.nets.filter (fun n => !vfpAutoNetP n) ++ cv.nets.filter vfpAutoNetP

end Terminals

section Painting

/-- What a routed path paints. -/
inductive Figure where
  | cell (p : Cell)
  | via (c r : ℤ)
  deriving DecidableEq

/-- A rectangle in the cellview. -/
structure Rect where
  layerName : String
  bBox : BBox

/-- The square with this centre and half this width. -/
def square (x y w : ℚ) : BBox := ⟨(x - w, y - w), (x + w, y + w)⟩

/-- The rectangle that `vfpRPaintCell` or `vfpRPaintVia` creates. -/
def Figure.rect (g : Grid) : Figure → Rect
  | .cell p => ⟨match p.layer with | .m1 => "M1" | .m2 => "M2",
      square (vfpRGcx g p.col) (vfpRGcy g p.row) (g.pitch * (1 / 2))⟩
  | .via c r => ⟨"V1", square (vfpRGcx g c) (vfpRGcy g r) (13 / 100)⟩

/-- The loop of `vfpRPaintPath`, given the cell painted before. -/
def paintFrom : Option Cell → List Cell → List Figure
  | _, [] => []
  | prev, p :: rest =>
    match prev with
    | some q =>
      if q.layer ≠ p.layer then .cell p :: .via p.col p.row :: paintFrom (some p) rest
      else .cell p :: paintFrom (some p) rest
    | none => .cell p :: paintFrom (some p) rest

end Painting

section Backend

/-- A figure in the cellview and the net it was painted for. -/
structure Painted where
  net : String
  figure : Figure

/-- One call of the maze search: for which net and terminal, and what it returned. -/
structure MazeCall where
  net : String
  tcell : Cell
  path : Option (List Cell)

/-- The grid, the figures painted so far, and the calls of the maze search so far. -/
structure Routing where
  g : Grid
  painted : List Painted
  calls : List MazeCall

/-- `vfpRPaintPath`. -/
def vfpRPaintPath (s : Routing) (path : List Cell) (net : String) : Routing :=
  { s with
    g := vfpRClaim s.g path net
    painted := s.painted ++ (paintFrom none path).map fun f => ⟨net, f⟩ }

/-- The body of `foreach(tcell rest ...)`, with the variable `any`. -/
def routeTerminal (net : String) (s : Routing × Bool) (tcell : Cell) : Routing × Bool :=
  let g := vfpRGset s.1.g ⟨.m1, tcell.col, tcell.row⟩ (.net net)
  let path := vfpRMaze g (vfpRClaimedCells g net) tcell net
  let s' : Routing := { s.1 with g := g, calls := s.1.calls ++ [⟨net, tcell, path⟩] }
  match path with
  | some path => (vfpRPaintPath s' path net, true)
  | none => (s', s.2)

/-- The body of `foreach(net nets ...)`, with the variable `routed`. -/
def routeNet (cv : Layout) (s : Routing × ℕ) (net : String) : Routing × ℕ :=
  match vfpRNetTerms s.1.g cv net with
  | seed :: tcell :: rest =>
    let g := vfpRGset s.1.g ⟨.m1, seed.col, seed.row⟩ (.net net)
    let out := (tcell :: rest).foldl (routeTerminal net) ({ s.1 with g := g }, false)
    (out.1, if out.2 then s.2 + 1 else s.2)
  | _ => s

/-- `vfpRouterBasic`, with what it left behind. -/
def vfpRouterBasic (cv : Layout) (g : Grid) : Routing × ℕ :=
  (routedNets cv).foldl (routeNet cv) (⟨g, [], []⟩, 0)

/-- `vfpLayoutRoute` with the basic backend. -/
def vfpLayoutRoute (cv : Layout) (pitch : ℚ) : Routing × ℕ :=
  let bb := cv.bBox
  let g := vfpRGmake (pitches pitch bb.lowerLeft.1 bb.upperRight.1) (pitches pitch bb.lowerLeft.2 bb.upperRight.2)
    bb.lowerLeft.1 bb.lowerLeft.2 pitch
  vfpRouterBasic cv (vfpRMarkObstacles g cv)

end Backend

end VirtuosoFlow.Plugin
