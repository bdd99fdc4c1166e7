import VirtuosoFlow.Plugin.GridCover

/-!
# Who holds the cells of the grid

Each cell that `vfpLayoutRoute` sets, in order: first the obstacles, then net by net the terminals and the
cells of the paths. A terminal is set without looking at who holds its cell, so a cell goes from one net
to another just when two routed nets have a terminal in it.
-/

namespace VirtuosoFlow.Plugin

open Base

/-- A cell and what it is set to. -/
abbrev Setting := Cell × Holder

/-- The grid after some calls of `vfpRGset`. -/
def settle (g : Grid) (ws : List Setting) : Grid := ws.foldl (fun g w => vfpRGset g w.1 w.2) g

/-- What `vfpRMarkObstacles` sets. -/
def obstacleSettings (g : Grid) (cv : Layout) : List Setting :=
  cv.instances.flatMap fun i =>
    (upTo (vfpRGcol g i.bBox.lowerLeft.1) (vfpRGcol g i.bBox.upperRight.1)).flatMap fun c =>
      (upTo (vfpRGrow g i.bBox.lowerLeft.2) (vfpRGrow g i.bBox.upperRight.2)).filterMap fun r =>
        if vfpRGin g c r then some (⟨.m1, c, r⟩, .obs) else none

/-- What routing a terminal sets: its cell, then the cells of the path. -/
def terminalSettings (net : String) (g : Grid) (tcell : Cell) : List Setting :=
  let g' := vfpRGset g ⟨.m1, tcell.col, tcell.row⟩ (.net net)
  (⟨.m1, tcell.col, tcell.row⟩, .net net) ::
    ((vfpRMaze g' (vfpRClaimedCells g' net) tcell net).getD []).map fun p => (p, .net net)

/-- What routing the terminals of a net sets. -/
def restSettings (net : String) : Grid → List Cell → List Setting
  | _, [] => []
  | g, tcell :: rest =>
    terminalSettings net g tcell ++ restSettings net (settle g (terminalSettings net g tcell)) rest

/-- What routing a net sets. -/
def netSettings (cv : Layout) (g : Grid) (net : String) : List Setting :=
  match vfpRNetTerms g cv net with
  | seed :: tcell :: rest =>
    (⟨.m1, seed.col, seed.row⟩, .net net) ::
      restSettings net (vfpRGset g ⟨.m1, seed.col, seed.row⟩ (.net net)) (tcell :: rest)
  | _ => []

/-- What routing some nets sets. -/
def netsSettings (cv : Layout) : Grid → List String → List Setting
  | _, [] => []
  | g, net :: nets => netSettings cv g net ++ netsSettings cv (settle g (netSettings cv g net)) nets

/-- What `vfpLayoutRoute` sets, in order. -/
def routeSettings (cv : Layout) (pitch : ℚ) : List Setting :=
  obstacleSettings (layoutGrid cv pitch) cv ++ netsSettings cv (routingGrid cv pitch) (routedNets cv)

section Order

variable {g g' : Grid} {cv : Layout} {pitch : ℚ} {net : String}

/-- Settings are made one part after the other. -/
theorem settle_append (g : Grid) (ws ws' : List Setting) : settle g (ws ++ ws') = settle (settle g ws) ws' :=
  List.foldl_append

/-- Settings leave the frame of the grid. -/
theorem sameFrame_settle (g : Grid) (ws : List Setting) : SameFrame g (settle g ws) :=
  sameFrame_foldl (fun g (w : Setting) => sameFrame_set g w.1 w.2) ws g

/-- Two ways to change a grid that agree on grids of one frame. -/
theorem foldl_congr_frame {α : Type} {f f' : Grid → α → Grid}
    (hf : ∀ g' a, SameFrame g g' → f g' a = f' g' a) (hframe : ∀ g a, SameFrame g (f' g a)) (l : List α) :
    ∀ g', SameFrame g g' → l.foldl f g' = l.foldl f' g' := by
  induction l with
  | nil => exact fun _ _ => rfl
  | cons a l ih =>
    intro g' hg
    rw [List.foldl_cons, List.foldl_cons, hf g' a hg]
    exact ih (f' g' a) (hg.trans (hframe g' a))

/-- Marking the obstacles sets them one after the other. -/
theorem settle_obstacleSettings (g : Grid) (cv : Layout) :
    settle g (obstacleSettings g cv) = vfpRMarkObstacles g cv := by
  unfold settle obstacleSettings vfpRMarkObstacles
  simp only [List.foldl_flatMap, List.foldl_filterMap]
  symm
  refine foldl_congr_frame ?_ ?_ cv.instances g (.refl g)
  · intro g₁ i hg₁
    have hcol : vfpRGcol g₁ = vfpRGcol g := by
      funext x
      rw [vfpRGcol, vfpRGcol, hg₁.x0, hg₁.pitch]
    have hrow : ∀ g₂, SameFrame g g₂ → vfpRGrow g₂ = vfpRGrow g := by
      intro g₂ hg₂
      funext y
      rw [vfpRGrow, vfpRGrow, hg₂.y0, hg₂.pitch]
    rw [hcol]
    refine foldl_congr_frame ?_ ?_ _ g₁ hg₁
    · intro g₂ c hg₂
      rw [hrow g₂ hg₂]
      refine foldl_congr_frame ?_ ?_ _ g₂ hg₂
      · intro g₃ r hg₃
        have hin : vfpRGin g₃ c r = vfpRGin g c r := by
          rw [vfpRGin, vfpRGin, hg₃.nc, hg₃.nr]
        rw [hin]
        split <;> rfl
      · intro g₃ r
        split
        · exact sameFrame_set ..
        · exact .refl _
    · intro g₂ c
      refine sameFrame_foldl (fun g₃ r => ?_) _ g₂
      split
      · exact sameFrame_set ..
      · exact .refl _
  · intro g₁ i
    refine sameFrame_foldl (fun g₂ c => sameFrame_foldl (fun g₃ r => ?_) _ g₂) _ g₁
    split
    · exact sameFrame_set ..
    · exact .refl _

/-- Claiming a path sets its cells. -/
theorem settle_claim (g : Grid) (path : List Cell) (net : String) :
    settle g (path.map fun p => (p, .net net)) = vfpRClaim g path net := by
  unfold settle vfpRClaim
  rw [List.foldl_map]

/-- Routing a terminal makes these settings. -/
theorem settle_terminalSettings (s : Routing × Bool) (tcell : Cell) :
    settle s.1.g (terminalSettings net s.1.g tcell) = (routeTerminal net s tcell).1.g := by
  unfold terminalSettings routeTerminal
  rw [settle, List.foldl_cons, ← settle]
  dsimp only
  generalize vfpRMaze _ _ tcell net = found
  cases found with
  | none => rfl
  | some path => exact settle_claim _ path net

/-- So does routing several terminals. -/
theorem settle_restSettings (l : List Cell) (s : Routing × Bool) :
    settle s.1.g (restSettings net s.1.g l) = (l.foldl (routeTerminal net) s).1.g := by
  induction l generalizing s with
  | nil => rfl
  | cons tcell l ih =>
    rw [restSettings, settle_append, settle_terminalSettings, List.foldl_cons]
    exact ih (routeTerminal net s tcell)

/-- So does routing a net. -/
theorem settle_netSettings (cv : Layout) (s : Routing × ℕ) (net : String) :
    settle s.1.g (netSettings cv s.1.g net) = (routeNet cv s net).1.g := by
  unfold netSettings routeNet
  cases vfpRNetTerms s.1.g cv net with
  | nil => rfl
  | cons seed rest =>
    cases rest with
    | nil => rfl
    | cons tcell rest =>
      exact settle_restSettings (tcell :: rest)
        ({ s.1 with g := vfpRGset s.1.g ⟨.m1, seed.col, seed.row⟩ (.net net) }, false)

/-- So does routing several nets. -/
theorem settle_netsSettings (cv : Layout) (nets : List String) (s : Routing × ℕ) :
    settle s.1.g (netsSettings cv s.1.g nets) = (nets.foldl (routeNet cv) s).1.g := by
  induction nets generalizing s with
  | nil => rfl
  | cons net nets ih =>
    rw [netsSettings, settle_append, settle_netSettings, List.foldl_cons]
    exact ih (routeNet cv s net)

/-- These are the settings that lead to the grid which the router leaves behind. -/
theorem settle_routeSettings (cv : Layout) (pitch : ℚ) :
    settle (layoutGrid cv pitch) (routeSettings cv pitch) = (vfpLayoutRoute cv pitch).1.g := by
  rw [routeSettings, settle_append, settle_obstacleSettings, vfpLayoutRoute_eq]
  exact settle_netsSettings cv (routedNets cv) (⟨routingGrid cv pitch, [], []⟩, 0)

end Order

section Settings

variable {g g' : Grid} {cv : Layout} {pitch : ℚ} {net : String}

/-- Grids of one frame have the same cells. -/
theorem gridCells_congr (h : SameFrame g g') : gridCells g' = gridCells g := by
  rw [gridCells, gridCells, h.nc, h.nr]

/-- The path of a terminal is its cell alone. -/
theorem terminalSettings_eq {t : Cell} (ht : t ∈ gridCells g) (hlayer : t.layer = .m1) :
    terminalSettings net g t = [(t, .net net), (t, .net net)] := by
  obtain ⟨l, c, r⟩ := t
  obtain rfl : l = .m1 := hlayer
  have hgrid := gridCells_congr (sameFrame_set g ⟨.m1, c, r⟩ (.net net))
  have hclaimed : ∀ p ∈ vfpRClaimedCells (vfpRGset g ⟨.m1, c, r⟩ (.net net)) net,
      p ∈ gridCells (vfpRGset g ⟨.m1, c, r⟩ (.net net)) :=
    fun p hp => (List.mem_filter.mp (List.mem_reverse.mp hp)).1
  have hmem : (⟨.m1, c, r⟩ : Cell) ∈ vfpRClaimedCells (vfpRGset g ⟨.m1, c, r⟩ (.net net)) net := by
    refine List.mem_reverse.mpr (List.mem_filter.mpr ⟨hgrid ▸ ht, ?_⟩)
    simp [vfpRGget_set_self]
  simp [terminalSettings, vfpRMaze_of_mem net hclaimed hmem]

/-- Each terminal cell is set to its net. -/
theorem mem_restSettings {w : Setting} (l : List Cell) (g : Grid)
    (hcells : ∀ t ∈ l, t ∈ gridCells g ∧ t.layer = .m1) :
    w ∈ restSettings net g l ↔ ∃ t ∈ l, w = (t, .net net) := by
  induction l generalizing g with
  | nil => simp [restSettings]
  | cons t l ih =>
    obtain ⟨ht, hlayer⟩ := hcells t List.mem_cons_self
    have hrest : ∀ u ∈ l, u ∈ gridCells (settle g (terminalSettings net g t)) ∧ u.layer = .m1 := by
      intro u hu
      rw [gridCells_congr (sameFrame_settle g _)]
      exact hcells u (List.mem_cons_of_mem t hu)
    rw [restSettings, List.mem_append, ih _ hrest, terminalSettings_eq ht hlayer]
    simp

/-- Routing a net with two terminals or more sets the cells of its terminals, and nothing else. -/
theorem mem_netSettings {w : Setting} : w ∈ netSettings cv g net ↔
    2 ≤ (vfpRNetTerms g cv net).length ∧ ∃ t ∈ vfpRNetTerms g cv net, w = (t, .net net) := by
  have hcells : ∀ t ∈ vfpRNetTerms g cv net, t ∈ gridCells g ∧ t.layer = .m1 :=
    fun t ht => mem_vfpRNetTerms ht
  unfold netSettings
  cases hterms : vfpRNetTerms g cv net with
  | nil => simp
  | cons seed rest =>
    cases rest with
    | nil => simp
    | cons t rest =>
      rw [hterms] at hcells
      have hseed : (⟨.m1, seed.col, seed.row⟩ : Cell) = seed := by
        rw [← (hcells seed List.mem_cons_self).2]
      have hrest : ∀ u ∈ t :: rest, u ∈ gridCells (vfpRGset g seed (.net net)) ∧ u.layer = .m1 := by
        intro u hu
        rw [gridCells_congr (sameFrame_set g seed _)]
        exact hcells u (List.mem_cons_of_mem seed hu)
      dsimp only
      rw [hseed, List.mem_cons, mem_restSettings (t :: rest) _ hrest]
      simp

/-- So are the terminal cells of all nets with two terminals or more. -/
theorem mem_netsSettings {w : Setting} (nets : List String) (g : Grid) : w ∈ netsSettings cv g nets ↔
    ∃ net ∈ nets, 2 ≤ (vfpRNetTerms g cv net).length ∧ ∃ t ∈ vfpRNetTerms g cv net, w = (t, .net net) := by
  induction nets generalizing g with
  | nil => simp [netsSettings]
  | cons net nets ih =>
    have hterms := vfpRNetTerms_congr (sameFrame_settle g (netSettings cv g net)) cv
    rw [netsSettings, List.mem_append, mem_netSettings, ih]
    simp only [hterms, List.mem_cons, exists_eq_or_imp]

/-- A net is routed: it is one of the nets of the layout and has two terminals or more on the grid. -/
def IsRouted (g : Grid) (cv : Layout) (net : String) : Prop :=
  net ∈ routedNets cv ∧ 2 ≤ (vfpRNetTerms g cv net).length

/-- The cells that are set to a net are its terminals. -/
theorem mem_routeSettings_net {p : Cell} : (p, .net net) ∈ routeSettings cv pitch ↔
    IsRouted (layoutGrid cv pitch) cv net ∧ p ∈ vfpRNetTerms (layoutGrid cv pitch) cv net := by
  have hobstacle : (p, Holder.net net) ∉ obstacleSettings (layoutGrid cv pitch) cv := by
    simp only [obstacleSettings, List.mem_flatMap, List.mem_filterMap, not_exists, not_and]
    intro i _ c _ r _ hset
    split at hset
    · cases hset
    · cases hset
  rw [routeSettings, List.mem_append, mem_netsSettings]
  simp only [hobstacle, false_or, vfpRNetTerms_routingGrid, IsRouted]
  constructor
  · rintro ⟨m, hm, hlength, t, ht, heq⟩
    obtain ⟨rfl, hholder⟩ := Prod.mk.inj heq
    obtain rfl := Holder.net.inj hholder
    exact ⟨⟨hm, hlength⟩, ht⟩
  · rintro ⟨⟨hm, hlength⟩, ht⟩
    exact ⟨net, hm, hlength, p, ht, rfl⟩

/-- All cells that are set are on the grid. -/
theorem mem_gridCells_of_routeSettings {w : Setting} (hw : w ∈ routeSettings cv pitch) :
    w.1 ∈ gridCells (layoutGrid cv pitch) := by
  rcases List.mem_append.mp hw with hobstacle | hnet
  · simp only [obstacleSettings, List.mem_flatMap, List.mem_filterMap] at hobstacle
    obtain ⟨i, _, c, _, r, _, hset⟩ := hobstacle
    split at hset
    · rename_i hin
      obtain rfl := Option.some.inj hset
      exact mem_gridCells.mpr hin
    · cases hset
  · obtain ⟨m, _, _, t, ht, rfl⟩ := (mem_netsSettings _ _).mp hnet
    rw [vfpRNetTerms_routingGrid] at ht
    exact (mem_vfpRNetTerms ht).1

end Settings

section Exclusive

variable {g : Grid} {cv : Layout} {pitch : ℚ}

/-- Whenever a cell is set to a net, it is held by no other net, and if it is an obstacle, then the net
has a terminal in it. -/
def Exclusive (cv : Layout) (g : Grid) (ws : List Setting) : Prop :=
  ∀ before p net after, ws = before ++ (p, .net net) :: after →
    (∀ other, vfpRGget (settle g before) p = some (.net other) → other = net) ∧
      (vfpRGget (settle g before) p = some .obs → p ∈ vfpRNetTerms g cv net)

/-- One more setting changes the cell that it sets, and no other. -/
theorem vfpRGget_settle_snoc (g : Grid) (ws : List Setting) (w : Setting) (p : Cell) :
    vfpRGget (settle g (ws ++ [w])) p =
      if vfpRGidx g p = vfpRGidx g w.1 then some w.2 else vfpRGget (settle g ws) p := by
  have hframe := sameFrame_settle g ws
  have hidx : ∀ q, vfpRGidx (settle g ws) q = vfpRGidx g q := by
    intro q
    rw [vfpRGidx, vfpRGidx, hframe.nc, hframe.nr]
  rw [settle_append]
  change Function.update (settle g ws).occ (vfpRGidx (settle g ws) w.1) (some w.2) (vfpRGidx (settle g ws) p) = _
  rw [hidx, hidx]
  split
  · rename_i heq
    rw [heq, Function.update_self]
  · rename_i hne
    rw [Function.update_of_ne hne, vfpRGget, hidx]

/-- A cell has what some cell of its number was set to. -/
theorem vfpRGget_settle (ws : List Setting) (hempty : ∀ k, g.occ k = none) {p : Cell} {v : Holder}
    (h : vfpRGget (settle g ws) p = some v) : ∃ q, (q, v) ∈ ws ∧ vfpRGidx g q = vfpRGidx g p := by
  induction ws using List.reverseRecOn with
  | nil =>
    change g.occ _ = some v at h
    rw [hempty] at h
    cases h
  | append_singleton ws w ih =>
    rw [vfpRGget_settle_snoc] at h
    split at h
    · rename_i hidx
      exact ⟨w.1, by simp [← Option.some.inj h], hidx.symm⟩
    · obtain ⟨q, hq, hqp⟩ := ih h
      exact ⟨q, List.mem_append_left _ hq, hqp⟩

/-- If cells only go to nets that may have them, a net keeps the cells that were set to it. -/
theorem Exclusive.holds (h : Exclusive cv (layoutGrid cv pitch) (routeSettings cv pitch)) {p : Cell}
    {net : String} (before : List Setting) :
    ∀ after, netsSettings cv (routingGrid cv pitch) (routedNets cv) = before ++ after →
      (p, .net net) ∈ before →
      vfpRGget (settle (layoutGrid cv pitch) (obstacleSettings (layoutGrid cv pitch) cv ++ before)) p =
        some (.net net) := by
  induction before using List.reverseRecOn with
  | nil => exact fun _ _ hmem => nomatch hmem
  | append_singleton before w ih =>
    intro after hsplit hmem
    have hall : ∀ w' ∈ before ++ [w], w' ∈ routeSettings cv pitch := by
      intro w' hw'
      rw [routeSettings, hsplit]
      exact List.mem_append_right _ (List.mem_append_left _ hw')
    obtain ⟨m, -, -, t, ht, rfl⟩ := (@mem_netsSettings cv _ _ _).mp
      (hsplit ▸ List.mem_append_left after (List.mem_append_right before (List.mem_singleton.mpr rfl)))
    rw [← List.append_assoc, vfpRGget_settle_snoc]
    split
    · rename_i hidx
      obtain rfl : p = t := vfpRGidx_injective (mem_gridCells_of_routeSettings (hall _ hmem))
        (mem_gridCells_of_routeSettings (hall (t, .net m) (by simp))) hidx
      rcases List.mem_append.mp hmem with hold | hnew
      · have hheld := ih ((p, .net m) :: after) (by simpa using hsplit) hold
        have hexclusive := (h (obstacleSettings (layoutGrid cv pitch) cv ++ before) p m after
          (by rw [routeSettings, hsplit]; simp)).1 net hheld
        rw [hexclusive]
      · rw [List.mem_singleton] at hnew
        rw [(Prod.mk.inj hnew).2]
    · rename_i hidx
      refine ih ((t, .net m) :: after) (by simpa using hsplit) ?_
      rcases List.mem_append.mp hmem with hold | hnew
      · exact hold
      · rw [List.mem_singleton] at hnew
        rw [(Prod.mk.inj hnew).1] at hidx
        exact absurd rfl hidx

/-- If cells only go to nets that may have them, no two routed nets have a terminal in one cell. -/
theorem Exclusive.disjoint (h : Exclusive cv (layoutGrid cv pitch) (routeSettings cv pitch)) {m n : String}
    (hm : IsRouted (layoutGrid cv pitch) cv m) (hn : IsRouted (layoutGrid cv pitch) cv n) (hne : m ≠ n) {p : Cell}
    (hpm : p ∈ vfpRNetTerms (layoutGrid cv pitch) cv m) : p ∉ vfpRNetTerms (layoutGrid cv pitch) cv n := by
  intro hpn
  have hmem : ∀ net, IsRouted (layoutGrid cv pitch) cv net →
      p ∈ vfpRNetTerms (layoutGrid cv pitch) cv net →
      (p, .net net) ∈ netsSettings cv (routingGrid cv pitch) (routedNets cv) := by
    intro net hnet hp
    rw [mem_netsSettings]
    exact ⟨net, hnet.1, by rw [vfpRNetTerms_routingGrid]; exact hnet.2, p,
      by rw [vfpRNetTerms_routingGrid]; exact hp, rfl⟩
  have hheld := h.holds _ [] (List.append_nil _).symm (hmem m hm hpm)
  rw [h.holds _ [] (List.append_nil _).symm (hmem n hn hpn)] at hheld
  exact hne (Holder.net.inj (Option.some.inj hheld)).symm

/-- Cells keep their net, and obstacles go only to nets with a terminal in them, exactly if no two routed
nets have a terminal in one cell. -/
theorem ownership_exclusive_iff (cv : Layout) (pitch : ℚ) :
    Exclusive cv (layoutGrid cv pitch) (routeSettings cv pitch) ↔
      ∀ m n, IsRouted (layoutGrid cv pitch) cv m → IsRouted (layoutGrid cv pitch) cv n → m ≠ n →
        ∀ p ∈ vfpRNetTerms (layoutGrid cv pitch) cv m, p ∉ vfpRNetTerms (layoutGrid cv pitch) cv n := by
  constructor
  · intro h m n hm hn hne p hpm
    exact h.disjoint hm hn hne hpm
  · intro hdisjoint before p net after hsplit
    have hset : (p, .net net) ∈ routeSettings cv pitch := by simp [hsplit]
    obtain ⟨hrouted, hp⟩ := mem_routeSettings_net.mp hset
    refine ⟨?_, fun _ => hp⟩
    intro other hheld
    obtain ⟨q, hq, hidx⟩ := vfpRGget_settle before (fun _ => rfl) hheld
    have hq' : (q, .net other) ∈ routeSettings cv pitch := by
      rw [hsplit]
      exact List.mem_append_left _ hq
    obtain rfl : q = p := vfpRGidx_injective (mem_gridCells_of_routeSettings hq')
      (mem_gridCells_of_routeSettings hset) hidx
    obtain ⟨hrouted', hq''⟩ := mem_routeSettings_net.mp hq'
    by_contra hne
    exact hdisjoint other net hrouted' hrouted hne q hq'' hp

end Exclusive

/-- Two nets with a terminal in one cell. -/
def sampleShared : Layout :=
  sampleLayout ["a", "b"] [sampleTerm "a" 0 0, sampleTerm "a" 2 0, sampleTerm "b" 0 0, sampleTerm "b" 2 2]

/-- Both nets of the sample have a terminal in the same cell. -/
theorem sampleShared_terms :
    vfpRNetTerms (layoutGrid sampleShared 1) sampleShared "a" = [⟨.m1, 2, 0⟩, ⟨.m1, 0, 0⟩] ∧
      vfpRNetTerms (layoutGrid sampleShared 1) sampleShared "b" = [⟨.m1, 2, 2⟩, ⟨.m1, 0, 0⟩] := by
  have hgrid : layoutGrid sampleShared 1 = sampleGrid := by
    have hfour : pitches 1 0 4 = 4 := by decide +kernel
    norm_num [layoutGrid, sampleShared, sampleLayout, sampleGrid, hfour]
  have hterms := vfpRNetTerms_sampleLayout (g := sampleGrid) rfl rfl rfl ["a", "b"]
    [("a", 0, 0), ("a", 2, 0), ("b", 0, 0), ("b", 2, 2)] (by decide)
  rw [hgrid]
  exact ⟨hterms "a", hterms "b"⟩

/-- The second net takes the cell of the first one. -/
theorem cell_taken : ¬ Exclusive sampleShared (layoutGrid sampleShared 1) (routeSettings sampleShared 1) := by
  intro h
  obtain ⟨ha, hb⟩ := sampleShared_terms
  have hrouted : IsRouted (layoutGrid sampleShared 1) sampleShared "a" ∧
      IsRouted (layoutGrid sampleShared 1) sampleShared "b" :=
    ⟨⟨by decide, by simp [ha]⟩, ⟨by decide, by simp [hb]⟩⟩
  have hpa : (⟨.m1, 0, 0⟩ : Cell) ∈ vfpRNetTerms (layoutGrid sampleShared 1) sampleShared "a" := by simp [ha]
  have hpb : (⟨.m1, 0, 0⟩ : Cell) ∈ vfpRNetTerms (layoutGrid sampleShared 1) sampleShared "b" := by simp [hb]
  exact h.disjoint hrouted.1 hrouted.2 (by decide) hpa hpb

end VirtuosoFlow.Plugin
