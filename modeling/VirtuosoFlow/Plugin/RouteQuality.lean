import VirtuosoFlow.Plugin.Routed

/-!
# Connections and shorts of the painted geometry

Both questions about the geometry the basic router paints come down to the cells in
which the terminals lie, since these are the cells it paints.
-/

namespace VirtuosoFlow.Plugin

open Base

section Connections

/-- Two painted cells of a net are joined: neighbours on one layer, or one above the other
with a via painted there. -/
def Touching (s : Routing) (net : String) (p q : Cell) : Prop :=
  (p.layer = q.layer ∧ Adjacent (p.col, p.row) (q.col, q.row)) ∨
    (p.layer ≠ q.layer ∧ p.col = q.col ∧ p.row = q.row ∧ ⟨net, .via p.col p.row⟩ ∈ s.painted)

/-- The cells painted for a net, and its seed. -/
def wiring (s : Routing) (net : String) (seed : Cell) : Set Cell :=
  {p | ⟨net, .cell p⟩ ∈ s.painted ∨ p = seed}

/-- Every terminal of the net for which the search returned a path is joined to its seed. -/
def Connects (s : Routing) (net : String) (seed : Cell) : Prop :=
  ∀ call ∈ s.calls, call.net = net → call.path.isSome = true →
    Joined (Touching s net) (wiring s net seed) call.tcell seed

/-- The columns and rows of two terminals are adjacent. -/
def Neighbours (p q : Cell) : Prop := Adjacent (p.col, p.row) (q.col, q.row)

variable {g : Grid} {cv : Layout} {net : String} {seed : Cell} {rest : List Cell}

/-- The wiring of a net is its terminals. -/
theorem mem_wiring (hnet : net ∈ routedNets cv) (hterms : vfpRNetTerms g cv net = seed :: rest)
    (p : Cell) : p ∈ wiring (vfpRouterBasic cv g).1 net seed ↔ p ∈ seed :: rest := by
  have hrouted : routedTerms g cv net = rest := by rw [routedTerms, hterms, List.tail_cons]
  change ⟨net, .cell p⟩ ∈ (vfpRouterBasic cv g).1.painted ∨ p = seed ↔ _
  rw [mem_painted, List.mem_cons]
  constructor
  · rintro (⟨_, t, ht, hfigure⟩ | rfl)
    · obtain rfl := Figure.cell.inj hfigure
      exact .inr (hrouted ▸ ht)
    · exact .inl rfl
  · rintro (rfl | hmem)
    · exact .inr rfl
    · exact .inl ⟨hnet, p, by rw [hrouted]; exact hmem, rfl⟩

/-- The router paints no via, and works on M1 alone. -/
theorem touching_iff_neighbours (hterms : vfpRNetTerms g cv net = seed :: rest) {p q : Cell}
    (hp : p ∈ seed :: rest) (hq : q ∈ seed :: rest) :
    Touching (vfpRouterBasic cv g).1 net p q ↔ Neighbours p q := by
  have hlayer : ∀ p ∈ seed :: rest, p.layer = .m1 := by
    intro p hp
    rw [← hterms] at hp
    exact (mem_vfpRNetTerms hp).2
  have hsame : p.layer = q.layer := by rw [hlayer p hp, hlayer q hq]
  constructor
  · rintro (⟨_, hadjacent⟩ | ⟨hne, _⟩)
    · exact hadjacent
    · exact absurd hsame hne
  · intro hadjacent
    exact .inl ⟨hsame, hadjacent⟩

/-- A walk over the wiring of a net is a walk over its terminals. -/
theorem joined_wiring_iff (hnet : net ∈ routedNets cv)
    (hterms : vfpRNetTerms g cv net = seed :: rest) (t : Cell) :
    Joined (Touching (vfpRouterBasic cv g).1 net) (wiring (vfpRouterBasic cv g).1 net seed) t seed ↔
      Joined Neighbours {p | p ∈ seed :: rest} t seed := by
  constructor
  · intro hjoined
    refine hjoined.mono ?_ ?_
    · intro p hp
      exact (mem_wiring hnet hterms p).mp hp
    · intro p hp q hq htouching
      have hp' := (mem_wiring hnet hterms p).mp hp
      have hq' := (mem_wiring hnet hterms q).mp hq
      exact (touching_iff_neighbours hterms hp' hq').mp htouching
  · intro hjoined
    refine hjoined.mono ?_ ?_
    · intro p hp
      exact (mem_wiring hnet hterms p).mpr hp
    · intro p hp q hq hadjacent
      exact (touching_iff_neighbours hterms hp hq).mpr hadjacent

/-- The basic router connects a net exactly if from each of its terminals steps to
neighbouring cells lead over its terminals to the seed. -/
theorem connects_iff (hnet : net ∈ routedNets cv) (hterms : vfpRNetTerms g cv net = seed :: rest) :
    Connects (vfpRouterBasic cv g).1 net seed ↔
      ∀ t ∈ rest, Joined Neighbours {p | p ∈ seed :: rest} t seed := by
  have hrouted : routedTerms g cv net = rest := by rw [routedTerms, hterms, List.tail_cons]
  constructor
  · intro hconnects t ht
    have hcall : (⟨net, t, some [t]⟩ : MazeCall) ∈ (vfpRouterBasic cv g).1.calls :=
      mem_calls.mpr ⟨hnet, by rw [hrouted]; exact ht, rfl⟩
    exact (joined_wiring_iff hnet hterms t).mp (hconnects _ hcall rfl rfl)
  · rintro hall ⟨n, t, path⟩ hcall rfl _
    obtain ⟨_, ht, _⟩ := mem_calls.mp hcall
    exact (joined_wiring_iff hnet hterms t).mpr (hall t (hrouted ▸ ht))

/-- A grid of four columns and four rows with pitch one. -/
def sampleGrid : Grid := vfpRGmake 4 4 0 0 1

/-- A terminal of a net in the middle of a cell. -/
def sampleTerm (net : String) (c r : ℕ) : InstTerm :=
  ⟨some net, some ⟨(c, r), (c + 1, r + 1)⟩⟩

/-- Numbers of cells and the middles of cells are doubles. -/
theorem double_half {n : ℕ} (h : n ≤ 2 ^ 53) : double (n / 2) = n / 2 :=
  roundTo_eq_self (by decide) ⟨n, -1, h, by rw [zpow_neg_one, div_eq_mul_inv]⟩

/-- The middle of a cell of a grid with pitch one lies in it. -/
theorem pitches_middle {c : ℕ} (h : c < 2 ^ 50) : pitches 1 0 (middle c (c + 1)) = c := by
  have hsum : (c : ℚ) + (c + 1) = (2 * (2 * c + 1) : ℕ) / 2 := by
    push_cast
    ring
  have hmiddle : middle c (c + 1) = (2 * c + 1 : ℕ) / 2 := by
    rw [middle, hsum, double_half (by omega)]
    have hhalf : ((2 * (2 * c + 1) : ℕ) : ℚ) / 2 / 2 = (2 * c + 1 : ℕ) / 2 := by
      push_cast
      ring
    rw [hhalf, double_half (by omega)]
  rw [pitches, hmiddle, sub_zero, div_one, double_half (by omega), double_half (by omega), Int.floor_eq_iff]
  push_cast
  constructor
  · linarith
  · linarith

/-- On a grid that starts at the origin and has pitch one, it lies in the cell it was made for. -/
theorem termCell_sampleTerm {g : Grid} (hx : g.x0 = 0) (hy : g.y0 = 0) (hpitch : g.pitch = 1)
    (net other : String) {c r : ℕ} (hc : c < 2 ^ 50) (hr : r < 2 ^ 50) :
    termCell g net (sampleTerm other c r) =
      if other = net ∧ vfpRGin g c r = true then some ⟨.m1, c, r⟩ else none := by
  by_cases hnet : other = net
  · simp [termCell, sampleTerm, vfpRTermPoint, vfpRGcol, vfpRGrow, hnet, hx, hy, hpitch, pitches_middle hc,
      pitches_middle hr]
  · simp [termCell, sampleTerm, hnet]

/-- A layout with one instance that has these terminals. -/
def sampleLayout (nets : List String) (terms : List InstTerm) : Layout :=
  ⟨⟨(0, 0), (4, 4)⟩, [⟨⟨(0, 0), (0, 0)⟩, terms⟩], nets⟩

/-- Two terminals of one net in neighbouring cells. -/
def sampleNear : Layout := sampleLayout ["a"] [sampleTerm "a" 0 0, sampleTerm "a" 1 0]

/-- The terminals of a net lie in the cells that the sample puts them in. -/
theorem vfpRNetTerms_sampleLayout {g : Grid} (hx : g.x0 = 0) (hy : g.y0 = 0) (hpitch : g.pitch = 1)
    (nets : List String) (terms : List (String × ℕ × ℕ)) (hsmall : ∀ t ∈ terms, t.2.1 < 2 ^ 50 ∧ t.2.2 < 2 ^ 50)
    (net : String) :
    vfpRNetTerms g (sampleLayout nets (terms.map fun t => sampleTerm t.1 t.2.1 t.2.2)) net =
      (terms.filterMap fun t =>
        if t.1 = net ∧ vfpRGin g t.2.1 t.2.2 = true then some ⟨.m1, t.2.1, t.2.2⟩ else none).reverse := by
  simp only [vfpRNetTerms, sampleLayout, List.flatMap_cons, List.flatMap_nil, List.append_nil, List.filterMap_map]
  refine congrArg List.reverse (List.filterMap_congr fun t ht => ?_)
  exact termCell_sampleTerm hx hy hpitch net t.1 (hsmall t ht).1 (hsmall t ht).2

/-- The terminals of the near sample. -/
theorem sampleNear_terms : vfpRNetTerms sampleGrid sampleNear "a" =
    [⟨.m1, 1, 0⟩, ⟨.m1, 0, 0⟩] :=
  vfpRNetTerms_sampleLayout rfl rfl rfl ["a"] [("a", 0, 0), ("a", 1, 0)] (by decide) "a"

/-- Two neighbouring terminals are connected. -/
theorem connects_iff_sample : Connects (vfpRouterBasic sampleNear sampleGrid).1 "a" ⟨.m1, 1, 0⟩ := by
  apply (connects_iff (by decide) sampleNear_terms).mpr
  intro t ht
  obtain rfl := List.mem_singleton.mp ht
  apply Relation.ReflTransGen.single
  refine ⟨by simp, by simp, ?_⟩
  exact (by decide : Adjacent (0, 0) (1, 0))

/-- Two terminals of one net with a cell between them. -/
def sampleFar : Layout := sampleLayout ["a"] [sampleTerm "a" 0 0, sampleTerm "a" 2 0]

/-- The terminals of the far sample. -/
theorem sampleFar_terms : vfpRNetTerms sampleGrid sampleFar "a" =
    [⟨.m1, 2, 0⟩, ⟨.m1, 0, 0⟩] :=
  vfpRNetTerms_sampleLayout rfl rfl rfl ["a"] [("a", 0, 0), ("a", 2, 0)] (by decide) "a"

/-- The search returns a path for the second terminal, and nothing joins it to the first. -/
theorem routed_not_connected : ∃ call ∈ (vfpRouterBasic sampleFar sampleGrid).1.calls,
    call.net = "a" ∧ call.path = some [call.tcell] ∧
    ¬ Joined (Touching (vfpRouterBasic sampleFar sampleGrid).1 "a")
      (wiring (vfpRouterBasic sampleFar sampleGrid).1 "a" ⟨.m1, 2, 0⟩) call.tcell ⟨.m1, 2, 0⟩ := by
  have hcall : (⟨"a", ⟨.m1, 0, 0⟩, some [⟨.m1, 0, 0⟩]⟩ : MazeCall) ∈
      (vfpRouterBasic sampleFar sampleGrid).1.calls := by
    apply mem_calls.mpr
    exact ⟨by decide, by simp [routedTerms, sampleFar_terms], rfl⟩
  refine ⟨_, hcall, rfl, rfl, ?_⟩
  intro hjoined
  have hwalk := (joined_wiring_iff (by decide) sampleFar_terms _).mp hjoined
  have hsame := hwalk.eq_of_isolated (by
    intro p hp
    simp only [List.mem_cons, List.not_mem_nil, or_false, Set.mem_ofPred_eq] at hp
    rcases hp with rfl | rfl
    · exact (by decide : ¬ Adjacent (0, 0) (2, 0))
    · exact (by decide : ¬ Adjacent (0, 0) (0, 0)))
  cases hsame

end Connections

section Shorts

/-- The points of a box, its edges included. -/
def BBox.region (bb : BBox) : Set (ℚ × ℚ) := Set.Icc bb.lowerLeft bb.upperRight

/-- No two rectangles painted for different nets on one metal layer meet. -/
def NoShorts (g : Grid) (painted : List Painted) : Prop :=
  ∀ metal ∈ ["M1", "M2"], ∀ a ∈ painted, ∀ b ∈ painted, a.net ≠ b.net →
    (a.figure.rect g).layerName = metal → (b.figure.rect g).layerName = metal →
    Disjoint (a.figure.rect g).bBox.region (b.figure.rect g).bBox.region

/-- Two cells are two columns or two rows apart. -/
def Apart (p q : Cell) : Prop := 2 ≤ |p.col - q.col| ∨ 2 ≤ |p.row - q.row|

variable {g : Grid} {cv : Layout}

/-- The rectangle painted for a cell is the cell. -/
theorem region_cell (g : Grid) (p : Cell) :
    ((Figure.cell p).rect g).bBox.region = cellBox g.x0 g.y0 g.pitch (p.col, p.row) := by
  have hlow : ∀ (x₀ : ℚ) (n : ℤ), x₀ + (n + 1 / 2) * g.pitch - g.pitch * (1 / 2) = x₀ + n * g.pitch :=
    fun x₀ n => by ring
  have hhigh : ∀ (x₀ : ℚ) (n : ℤ),
      x₀ + (n + 1 / 2) * g.pitch + g.pitch * (1 / 2) = x₀ + (n + 1) * g.pitch :=
    fun x₀ n => by ring
  simp only [BBox.region, Figure.rect, square, vfpRGcx, vfpRGcy, cellBox, hlow, hhigh]

/-- The layer of a cell's rectangle tells the layer of the cell. -/
theorem layerName_cell (g : Grid) {p : Cell} (h : p.layer = .m1) :
    ((Figure.cell p).rect g).layerName = "M1" := by
  rw [Figure.rect, h]

/-- Terminals that are routed lie on M1. -/
theorem layer_of_mem_routedTerms {net : String} {t : Cell} (ht : t ∈ routedTerms g cv net) :
    t.layer = .m1 := (mem_vfpRNetTerms (List.mem_of_mem_tail ht)).2

/-- The basic router paints no short exactly if the terminals of different nets, the first
of each net aside, are two columns or two rows apart. -/
theorem no_shorts_iff (hpitch : 0 < g.pitch) :
    NoShorts g (vfpRouterBasic cv g).1.painted ↔
      ∀ m ∈ routedNets cv, ∀ n ∈ routedNets cv, m ≠ n →
        ∀ t ∈ routedTerms g cv m, ∀ u ∈ routedTerms g cv n, Apart t u := by
  constructor
  · intro hshorts m hm n hn hne t ht u hu
    have hpt : (⟨m, .cell t⟩ : Painted) ∈ (vfpRouterBasic cv g).1.painted :=
      mem_painted.mpr ⟨hm, t, ht, rfl⟩
    have hpu : (⟨n, .cell u⟩ : Painted) ∈ (vfpRouterBasic cv g).1.painted :=
      mem_painted.mpr ⟨hn, u, hu, rfl⟩
    have hdisjoint := hshorts "M1" (by simp) _ hpt _ hpu hne
      (layerName_cell g (layer_of_mem_routedTerms ht)) (layerName_cell g (layer_of_mem_routedTerms hu))
    rw [region_cell, region_cell] at hdisjoint
    exact (cellBox_disjoint_iff hpitch _ _).mp hdisjoint
  · rintro hapart metal _ ⟨m, f⟩ ha ⟨n, f'⟩ hb hne _ _
    obtain ⟨hm, t, ht, rfl⟩ := mem_painted.mp ha
    obtain ⟨hn, u, hu, rfl⟩ := mem_painted.mp hb
    rw [region_cell, region_cell]
    exact (cellBox_disjoint_iff hpitch _ _).mpr (hapart m hm n hn hne t ht u hu)

/-- Two nets whose terminals are far apart. -/
def sampleSpaced : Layout :=
  sampleLayout ["a", "b"] [sampleTerm "a" 0 0, sampleTerm "a" 1 0, sampleTerm "b" 0 2,
    sampleTerm "b" 1 2]

/-- The routed terminals of the spaced sample. -/
theorem sampleSpaced_terms : routedTerms sampleGrid sampleSpaced "a" = [⟨.m1, 0, 0⟩] ∧
    routedTerms sampleGrid sampleSpaced "b" = [⟨.m1, 0, 2⟩] := by
  have hterms := vfpRNetTerms_sampleLayout (g := sampleGrid) rfl rfl rfl ["a", "b"]
    [("a", 0, 0), ("a", 1, 0), ("b", 0, 2), ("b", 1, 2)] (by decide)
  exact ⟨congrArg List.tail (hterms "a"), congrArg List.tail (hterms "b")⟩

/-- Nets that are a cell apart are not shorted. -/
theorem no_shorts_iff_sample :
    NoShorts sampleGrid (vfpRouterBasic sampleSpaced sampleGrid).1.painted := by
  apply (no_shorts_iff (show (0 : ℚ) < 1 by norm_num)).mpr
  have hnets : routedNets sampleSpaced = ["a", "b"] := by decide
  rw [hnets]
  intro m hm n hn hne t ht u hu
  simp only [List.mem_cons, List.not_mem_nil, or_false] at hm hn
  rcases hm with rfl | rfl <;> rcases hn with rfl | rfl
  · exact absurd rfl hne
  · rw [sampleSpaced_terms.1] at ht
    rw [sampleSpaced_terms.2] at hu
    obtain rfl := List.mem_singleton.mp ht
    obtain rfl := List.mem_singleton.mp hu
    exact .inr (by decide)
  · rw [sampleSpaced_terms.2] at ht
    rw [sampleSpaced_terms.1] at hu
    obtain rfl := List.mem_singleton.mp ht
    obtain rfl := List.mem_singleton.mp hu
    exact .inr (by decide)
  · exact absurd rfl hne

/-- Two nets with terminals in neighbouring cells. -/
def sampleClose : Layout :=
  sampleLayout ["a", "b"] [sampleTerm "a" 0 0, sampleTerm "a" 3 0, sampleTerm "b" 0 1,
    sampleTerm "b" 3 1]

/-- The routed terminals of the close sample. -/
theorem sampleClose_terms : routedTerms sampleGrid sampleClose "a" = [⟨.m1, 0, 0⟩] ∧
    routedTerms sampleGrid sampleClose "b" = [⟨.m1, 0, 1⟩] := by
  have hterms := vfpRNetTerms_sampleLayout (g := sampleGrid) rfl rfl rfl ["a", "b"]
    [("a", 0, 0), ("a", 3, 0), ("b", 0, 1), ("b", 3, 1)] (by decide)
  exact ⟨congrArg List.tail (hterms "a"), congrArg List.tail (hterms "b")⟩

/-- Their cells share an edge, and so do the rectangles. -/
theorem painted_short : ¬ NoShorts sampleGrid (vfpRouterBasic sampleClose sampleGrid).1.painted := by
  intro hshorts
  have ha : (⟨"a", .cell ⟨.m1, 0, 0⟩⟩ : Painted) ∈ (vfpRouterBasic sampleClose sampleGrid).1.painted :=
    mem_painted.mpr ⟨by decide, _, by rw [sampleClose_terms.1]; exact List.mem_singleton.mpr rfl, rfl⟩
  have hb : (⟨"b", .cell ⟨.m1, 0, 1⟩⟩ : Painted) ∈ (vfpRouterBasic sampleClose sampleGrid).1.painted :=
    mem_painted.mpr ⟨by decide, _, by rw [sampleClose_terms.2]; exact List.mem_singleton.mpr rfl, rfl⟩
  have hdisjoint := hshorts "M1" (by simp) _ ha _ hb (by decide) rfl rfl
  rw [region_cell, region_cell] at hdisjoint
  have happart := (cellBox_disjoint_iff (show (0 : ℚ) < 1 by norm_num) _ _).mp hdisjoint
  exact absurd happart (by decide)

end Shorts

end VirtuosoFlow.Plugin
