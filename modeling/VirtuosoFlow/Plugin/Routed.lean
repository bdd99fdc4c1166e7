import VirtuosoFlow.Plugin.Route

/-!
# What the basic router leaves behind

Each terminal cell is claimed for its net before the search from the claimed cells to
it starts. The search therefore finds it among its own sources, and the path it returns
is that cell alone. So the router paints, net by net, the terminals but the first, and
nothing in between.
-/

namespace VirtuosoFlow.Plugin

open Base

section Frame

/-- Two grids of one size at one place. -/
structure SameFrame (g g' : Grid) : Prop where
  nc : g'.nc = g.nc
  nr : g'.nr = g.nr
  x0 : g'.x0 = g.x0
  y0 : g'.y0 = g.y0
  pitch : g'.pitch = g.pitch

variable {g g' g'' : Grid} {p q : Cell} {v : Holder}

/-- A grid has its own frame. -/
theorem SameFrame.refl (g : Grid) : SameFrame g g := ⟨rfl, rfl, rfl, rfl, rfl⟩

/-- The frame stays over two steps if it stays over each. -/
theorem SameFrame.trans (h : SameFrame g g') (h' : SameFrame g' g'') : SameFrame g g'' :=
  ⟨h'.nc.trans h.nc, h'.nr.trans h.nr, h'.x0.trans h.x0, h'.y0.trans h.y0,
    h'.pitch.trans h.pitch⟩

/-- Setting a cell leaves the frame alone. -/
theorem sameFrame_set (g : Grid) (p : Cell) (v : Holder) : SameFrame g (vfpRGset g p v) :=
  ⟨rfl, rfl, rfl, rfl, rfl⟩

/-- Claiming a path leaves the frame. -/
theorem sameFrame_claim (g : Grid) (path : List Cell) (net : String) :
    SameFrame g (vfpRClaim g path net) := by
  unfold vfpRClaim
  induction path generalizing g with
  | nil => exact .refl g
  | cons p rest ih => exact (sameFrame_set g p (.net net)).trans (ih _)

/-- The terminals of a net depend on the frame alone. -/
theorem vfpRNetTerms_congr (h : SameFrame g g') (cv : Layout) (net : String) :
    vfpRNetTerms g' cv net = vfpRNetTerms g cv net := by
  have hcell : termCell g' net = termCell g net := by
    have hcol : vfpRGcol g' = vfpRGcol g := by
      funext x
      rw [vfpRGcol, vfpRGcol, h.x0, h.pitch]
    have hrow : vfpRGrow g' = vfpRGrow g := by
      funext y
      rw [vfpRGrow, vfpRGrow, h.y0, h.pitch]
    have hin : vfpRGin g' = vfpRGin g := by
      funext c r
      rw [vfpRGin, vfpRGin, h.nc, h.nr]
    unfold termCell
    rw [hcol, hrow, hin]
  rw [vfpRNetTerms, hcell, vfpRNetTerms]

/-- Terminals lie on the grid, on M1. -/
theorem mem_vfpRNetTerms {cv : Layout} {net : String} (h : p ∈ vfpRNetTerms g cv net) :
    p ∈ gridCells g ∧ p.layer = .m1 := by
  simp only [vfpRNetTerms, List.mem_reverse, List.mem_flatMap, List.mem_filterMap] at h
  obtain ⟨i, _, it, _, hterm⟩ := h
  unfold termCell at hterm
  split at hterm
  · split at hterm
    · split at hterm
      · rename_i hin
        obtain rfl := Option.some.inj hterm
        exact ⟨mem_gridCells.mpr hin, rfl⟩
      · cases hterm
    · cases hterm
  · cases hterm

/-- A set cell holds what was set. -/
theorem vfpRGget_set_self (g : Grid) (p : Cell) (v : Holder) :
    vfpRGget (vfpRGset g p v) p = some v := by
  simp [vfpRGget, vfpRGset, vfpRGidx]

/-- Numbers below a bound and a multiple of the bound are read off their sum. -/
theorem eq_of_mul_add_eq {n a b r s : ℤ} (hr : 0 ≤ r) (hrn : r < n) (hs : 0 ≤ s) (hsn : s < n)
    (h : a * n + r = b * n + s) : a = b ∧ r = s := by
  have hdvd : (a - b) * n = s - r := by linarith
  have hab : a = b := by
    by_contra hne
    have hcases : a - b ≤ -1 ∨ 1 ≤ a - b := by omega
    rcases hcases with hlow | hhigh
    · have hmul : (a - b) * n ≤ -1 * n := mul_le_mul_of_nonneg_right hlow (by omega)
      omega
    · have hmul : 1 * n ≤ (a - b) * n := mul_le_mul_of_nonneg_right hhigh (by omega)
      omega
  subst hab
  exact ⟨rfl, by omega⟩

/-- No two cells of a grid share an index. -/
theorem vfpRGidx_injective (hp : p ∈ gridCells g) (hq : q ∈ gridCells g)
    (h : vfpRGidx g p = vfpRGidx g q) : p = q := by
  obtain ⟨l, c, r⟩ := p
  obtain ⟨l', c', r'⟩ := q
  simp only [mem_gridCells, vfpRGin, Bool.and_eq_true, decide_eq_true_eq] at hp hq
  obtain ⟨⟨⟨hc, hcn⟩, hr⟩, hrn⟩ := hp
  obtain ⟨⟨⟨hc', hcn'⟩, hr'⟩, hrn'⟩ := hq
  obtain ⟨hcol, rfl⟩ := eq_of_mul_add_eq hr hrn hr' hrn' h
  obtain ⟨hlayer, rfl⟩ := eq_of_mul_add_eq hc hcn hc' hcn' hcol
  have hl : l = l' := by
    cases l <;> cases l' <;> simp [Layer.toInt] at hlayer ⊢
  rw [hl]

end Frame

section Maze

variable {g : Grid} {tgt : Cell} {srcList : List Cell}

/-- The sources enter the queue, and no place has a predecessor yet. -/
theorem Search.start_spec (g : Grid) (l : List Cell) (s : Search)
    (hqueue : ∀ k, s.visited k = true → ∃ p ∈ s.q, vfpRGidx g p = k) :
    let s' := l.foldl (fun s p =>
      if s.visited (vfpRGidx g p) then s
      else { s with q := p :: s.q, visited := Function.update s.visited (vfpRGidx g p) true }) s
    s'.prev = s.prev ∧ (∀ p ∈ s'.q, p ∈ s.q ∨ p ∈ l) ∧
      (∀ k, s'.visited k = true → ∃ p ∈ s'.q, vfpRGidx g p = k) ∧
      (∀ k, s.visited k = true → s'.visited k = true) ∧
      ∀ p ∈ l, s'.visited (vfpRGidx g p) = true := by
  induction l generalizing s with
  | nil => exact ⟨rfl, fun p hp => .inl hp, hqueue, fun _ h => h, by simp⟩
  | cons a rest ih =>
    simp only [List.foldl_cons]
    by_cases hvisited : s.visited (vfpRGidx g a) = true
    · rw [if_pos hvisited]
      obtain ⟨hprev, hsub, hq, hmono, hall⟩ := ih s hqueue
      refine ⟨hprev, ?_, hq, hmono, ?_⟩
      · intro p hp
        exact (hsub p hp).imp id (List.mem_cons_of_mem _)
      · intro p hp
        rcases List.mem_cons.mp hp with rfl | hmem
        · exact hmono _ hvisited
        · exact hall p hmem
    · rw [if_neg hvisited]
      have hqueue' : ∀ k, Function.update s.visited (vfpRGidx g a) true k = true →
          ∃ p ∈ a :: s.q, vfpRGidx g p = k := by
        intro k hk
        by_cases heq : k = vfpRGidx g a
        · exact ⟨a, List.mem_cons_self, heq.symm⟩
        · rw [Function.update_of_ne heq] at hk
          obtain ⟨p, hp, hidx⟩ := hqueue k hk
          exact ⟨p, List.mem_cons_of_mem _ hp, hidx⟩
      obtain ⟨hprev, hsub, hq, hmono, hall⟩ := ih
        { s with q := a :: s.q, visited := Function.update s.visited (vfpRGidx g a) true } hqueue'
      refine ⟨hprev, ?_, hq, ?_, ?_⟩
      · intro p hp
        rcases hsub p hp with hmem | hmem
        · rcases List.mem_cons.mp hmem with rfl | hold
          · exact .inr List.mem_cons_self
          · exact .inl hold
        · exact .inr (List.mem_cons_of_mem _ hmem)
      · intro k hk
        apply hmono
        change Function.update s.visited (vfpRGidx g a) true k = true
        by_cases heq : k = vfpRGidx g a
        · rw [heq, Function.update_self]
        · rwa [Function.update_of_ne heq]
      · intro p hp
        rcases List.mem_cons.mp hp with rfl | hmem
        · exact hmono _ (Function.update_self _ _ _)
        · exact hall p hmem

/-- A visited place keeps its predecessor. -/
theorem Search.visit_visited (g : Grid) (tgt : Cell) (net : String) (cur : Cell) (s : Search)
    (n : Cell) {k : ℤ} (hk : s.visited k = true) :
    (s.visit g tgt net cur n).visited k = true ∧
      (s.visit g tgt net cur n).prev k = s.prev k ∧
      ∀ p ∈ s.q, p ∈ (s.visit g tgt net cur n).q := by
  unfold Search.visit
  split
  · rename_i hcond
    simp only [Bool.and_eq_true, Bool.not_eq_true'] at hcond
    have hne : k ≠ vfpRGidx g n := by
      rintro rfl
      simp [hk] at hcond
    refine ⟨?_, Function.update_of_ne hne _ _, fun p hp => List.mem_append_left _ hp⟩
    change Function.update s.visited (vfpRGidx g n) true k = true
    rwa [Function.update_of_ne hne]
  · exact ⟨hk, rfl, fun p hp => hp⟩

/-- What was visited stays visited, and what waits stays in the queue. -/
theorem Search.foldl_visit_visited (g : Grid) (tgt : Cell) (net : String) (cur : Cell)
    (l : List Cell) (s : Search) {k : ℤ}
    (hk : s.visited k = true) :
    (l.foldl (Search.visit g tgt net cur) s).visited k = true ∧
      (l.foldl (Search.visit g tgt net cur) s).prev k = s.prev k ∧
      ∀ p ∈ s.q, p ∈ (l.foldl (Search.visit g tgt net cur) s).q := by
  induction l generalizing s with
  | nil => exact ⟨hk, rfl, fun p hp => hp⟩
  | cons n rest ih =>
    obtain ⟨hvisited, hprev, hq⟩ := s.visit_visited g tgt net cur n hk
    obtain ⟨hvisited', hprev', hq'⟩ := ih _ hvisited
    exact ⟨hvisited', hprev'.trans hprev, fun p hp => hq' p (hq p hp)⟩

/-- A target that is in the queue is found, and keeps its predecessor. -/
theorem Search.loop_of_mem (g : Grid) (tgt : Cell) (net : String) (s : Search) (hmem : tgt ∈ s.q)
    (hvisited : s.visited (vfpRGidx g tgt) = true) :
    ∃ s', s.loop g tgt net = some s' ∧ s'.prev (vfpRGidx g tgt) = s.prev (vfpRGidx g tgt) := by
  fun_induction Search.loop g tgt net s with
  | case1 s hq => simp [hq] at hmem
  | case2 s rest hq => exact ⟨_, rfl, rfl⟩
  | case3 s cur rest hq hne ih =>
    have hrest : tgt ∈ rest := by
      rw [hq] at hmem
      rcases List.mem_cons.mp hmem with heq | hmem
      · exact absurd heq.symm hne
      · exact hmem
    obtain ⟨hvisited', hprev, hkept⟩ := Search.foldl_visit_visited g tgt net cur
      cur.steps { s with q := rest } hvisited
    obtain ⟨s', hloop, hprev'⟩ := ih (hkept tgt hrest) hvisited'
    exact ⟨s', hloop, hprev'.trans hprev⟩

/-- A search whose target is among its sources returns the target alone. -/
theorem vfpRMaze_of_mem (net : String) (hsources : ∀ p ∈ srcList, p ∈ gridCells g) (hmem : tgt ∈ srcList) :
    vfpRMaze g srcList tgt net = some [tgt] := by
  obtain ⟨hprev, hsub, hqueue, _, hall⟩ := Search.start_spec g srcList ⟨[], fun _ => false, fun _ => none⟩
    (by simp)
  have hvisited := hall tgt hmem
  obtain ⟨p, hp, hidx⟩ := hqueue _ hvisited
  have hpsrc : p ∈ srcList := by simpa using hsub p hp
  obtain rfl : p = tgt := vfpRGidx_injective (hsources p hpsrc) (hsources tgt hmem) hidx
  obtain ⟨s', hloop, hprev'⟩ := Search.loop_of_mem g p net (Search.start g srcList) hp hvisited
  have hnone : s'.prev (vfpRGidx g p) = none := by
    rw [hprev']
    exact congrFun hprev (vfpRGidx g p)
  have hback : backtrace g s'.prev (gridCells g).length p [p] = [p] := by
    cases (gridCells g).length with
    | zero => rfl
    | succ fuel => rw [backtrace, hnone]
  rw [vfpRMaze, hloop, Option.map_some, hback]

end Maze

section Backend

variable {g : Grid} {cv : Layout}

/-- The terminals of a net that the router routes: all but the first. -/
def routedTerms (g : Grid) (cv : Layout) (net : String) : List Cell := (vfpRNetTerms g cv net).tail

/-- The figures painted for one net. -/
def paintedFor (g : Grid) (cv : Layout) (net : String) : List Painted :=
  (routedTerms g cv net).map fun t => ⟨net, .cell t⟩

/-- The calls of the maze search for one net. -/
def callsFor (g : Grid) (cv : Layout) (net : String) : List MazeCall :=
  (routedTerms g cv net).map fun t => ⟨net, t, some [t]⟩

/-- Routing one terminal paints its cell. -/
theorem routeTerminal_spec (net : String) (s : Routing × Bool) {t : Cell} (ht : t ∈ gridCells s.1.g)
    (hlayer : t.layer = .m1) :
    SameFrame s.1.g (routeTerminal net s t).1.g ∧
      (routeTerminal net s t).1.painted = s.1.painted ++ [⟨net, .cell t⟩] ∧
      (routeTerminal net s t).1.calls = s.1.calls ++ [⟨net, t, some [t]⟩] := by
  obtain ⟨l, c, r⟩ := t
  obtain rfl : l = .m1 := hlayer
  have hclaimed : ∀ p ∈ vfpRClaimedCells (vfpRGset s.1.g ⟨.m1, c, r⟩ (.net net)) net,
      p ∈ gridCells (vfpRGset s.1.g ⟨.m1, c, r⟩ (.net net)) := by
    intro p hp
    exact (List.mem_filter.mp (List.mem_reverse.mp hp)).1
  have hmem : (⟨.m1, c, r⟩ : Cell) ∈ vfpRClaimedCells (vfpRGset s.1.g ⟨.m1, c, r⟩ (.net net)) net := by
    apply List.mem_reverse.mpr
    apply List.mem_filter.mpr
    exact ⟨ht, by simp [vfpRGget_set_self]⟩
  have hpath := vfpRMaze_of_mem net hclaimed hmem
  have hstep : routeTerminal net s ⟨.m1, c, r⟩ = (vfpRPaintPath { s.1 with
      g := vfpRGset s.1.g ⟨.m1, c, r⟩ (.net net)
      calls := s.1.calls ++ [⟨net, ⟨.m1, c, r⟩, some [⟨.m1, c, r⟩]⟩] } [⟨.m1, c, r⟩] net, true) := by
    simp only [routeTerminal, hpath]
  rw [hstep]
  refine ⟨?_, rfl, rfl⟩
  exact (sameFrame_set _ _ _).trans (sameFrame_claim _ _ _)

/-- Routing terminals one after the other paints their cells. -/
theorem foldl_routeTerminal_spec (net : String) (l : List Cell) (s : Routing × Bool)
    (hcells : ∀ t ∈ l, t ∈ gridCells s.1.g ∧ t.layer = .m1) :
    SameFrame s.1.g (l.foldl (routeTerminal net) s).1.g ∧
      (l.foldl (routeTerminal net) s).1.painted =
        s.1.painted ++ l.map (fun t => ⟨net, .cell t⟩) ∧
      (l.foldl (routeTerminal net) s).1.calls =
        s.1.calls ++ l.map (fun t => ⟨net, t, some [t]⟩) := by
  induction l generalizing s with
  | nil => exact ⟨.refl _, by simp, by simp⟩
  | cons t rest ih =>
    obtain ⟨ht, hlayer⟩ := hcells t List.mem_cons_self
    obtain ⟨hframe, hpainted, hcalls⟩ := routeTerminal_spec net s ht hlayer
    have hcells' : ∀ t' ∈ rest, t' ∈ gridCells (routeTerminal net s t).1.g ∧ t'.layer = .m1 := by
      intro t' ht'
      obtain ⟨hin, hl⟩ := hcells t' (List.mem_cons_of_mem _ ht')
      refine ⟨?_, hl⟩
      rw [mem_gridCells] at hin ⊢
      rw [vfpRGin, hframe.nc, hframe.nr]
      exact hin
    obtain ⟨hframe', hpainted', hcalls'⟩ := ih (routeTerminal net s t) hcells'
    refine ⟨hframe.trans hframe', ?_, ?_⟩
    · rw [List.foldl_cons, hpainted', hpainted, List.append_assoc]
      rfl
    · rw [List.foldl_cons, hcalls', hcalls, List.append_assoc]
      rfl

/-- Routing one net paints its terminals but the first. -/
theorem routeNet_spec (cv : Layout) (s : Routing × ℕ) (net : String) :
    SameFrame s.1.g (routeNet cv s net).1.g ∧
      (routeNet cv s net).1.painted = s.1.painted ++ paintedFor s.1.g cv net ∧
      (routeNet cv s net).1.calls = s.1.calls ++ callsFor s.1.g cv net := by
  unfold routeNet paintedFor callsFor routedTerms
  have hcells : ∀ t ∈ vfpRNetTerms s.1.g cv net, t ∈ gridCells s.1.g ∧ t.layer = .m1 :=
    fun t ht => mem_vfpRNetTerms ht
  cases hterms : vfpRNetTerms s.1.g cv net with
  | nil => exact ⟨.refl _, by simp, by simp⟩
  | cons seed rest =>
    cases rest with
    | nil => exact ⟨.refl _, by simp, by simp⟩
    | cons t rest =>
      rw [hterms] at hcells
      obtain ⟨hframe, hpainted, hcalls⟩ := foldl_routeTerminal_spec net (t :: rest)
        ({ s.1 with g := vfpRGset s.1.g ⟨.m1, seed.col, seed.row⟩ (.net net) }, false)
        fun t' ht' => hcells t' (List.mem_cons_of_mem _ ht')
      exact ⟨(sameFrame_set _ _ _).trans hframe, hpainted, hcalls⟩

/-- What the router paints and searches, net by net. -/
theorem foldl_routeNet_spec (cv : Layout) (nets : List String) (s : Routing × ℕ) :
    SameFrame s.1.g (nets.foldl (routeNet cv) s).1.g ∧
      (nets.foldl (routeNet cv) s).1.painted =
        s.1.painted ++ nets.flatMap (paintedFor s.1.g cv) ∧
      (nets.foldl (routeNet cv) s).1.calls = s.1.calls ++ nets.flatMap (callsFor s.1.g cv) := by
  induction nets generalizing s with
  | nil => exact ⟨.refl _, by simp, by simp⟩
  | cons net rest ih =>
    obtain ⟨hframe, hpainted, hcalls⟩ := routeNet_spec cv s net
    obtain ⟨hframe', hpainted', hcalls'⟩ := ih (routeNet cv s net)
    have hterms : ∀ n, routedTerms (routeNet cv s net).1.g cv n = routedTerms s.1.g cv n := by
      intro n
      rw [routedTerms, vfpRNetTerms_congr hframe, routedTerms]
    have hpaint : paintedFor (routeNet cv s net).1.g cv = paintedFor s.1.g cv := by
      funext n
      rw [paintedFor, hterms, paintedFor]
    have hcall : callsFor (routeNet cv s net).1.g cv = callsFor s.1.g cv := by
      funext n
      rw [callsFor, hterms, callsFor]
    rw [List.foldl_cons, List.flatMap_cons, List.flatMap_cons]
    refine ⟨hframe.trans hframe', ?_, ?_⟩
    · rw [hpainted', hpainted, hpaint, List.append_assoc]
    · rw [hcalls', hcalls, hcall, List.append_assoc]

/-- The figures the router leaves: the cells of the terminals but the first of each net. -/
theorem mem_painted {p : Painted} : p ∈ (vfpRouterBasic cv g).1.painted ↔
    p.net ∈ routedNets cv ∧ ∃ t ∈ routedTerms g cv p.net, p.figure = .cell t := by
  rw [vfpRouterBasic, (foldl_routeNet_spec cv (routedNets cv) (⟨g, [], []⟩, 0)).2.1]
  obtain ⟨net, figure⟩ := p
  simp only [List.nil_append, List.mem_flatMap, paintedFor, List.mem_map, Painted.mk.injEq]
  constructor
  · rintro ⟨n, hn, t, ht, rfl, rfl⟩
    exact ⟨hn, t, ht, rfl⟩
  · rintro ⟨hn, t, ht, rfl⟩
    exact ⟨net, hn, t, ht, rfl, rfl⟩

/-- The searches the router made: one for each of these terminals, which returned it alone. -/
theorem mem_calls {call : MazeCall} : call ∈ (vfpRouterBasic cv g).1.calls ↔
    call.net ∈ routedNets cv ∧ call.tcell ∈ routedTerms g cv call.net ∧
      call.path = some [call.tcell] := by
  rw [vfpRouterBasic, (foldl_routeNet_spec cv (routedNets cv) (⟨g, [], []⟩, 0)).2.2]
  obtain ⟨net, tcell, path⟩ := call
  simp only [List.nil_append, List.mem_flatMap, callsFor, List.mem_map, MazeCall.mk.injEq]
  constructor
  · rintro ⟨n, hn, t, ht, rfl, rfl, rfl⟩
    exact ⟨hn, ht, rfl⟩
  · rintro ⟨hn, ht, rfl⟩
    exact ⟨net, hn, tcell, ht, rfl, rfl, rfl⟩

end Backend

end VirtuosoFlow.Plugin
