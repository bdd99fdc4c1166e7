import VirtuosoFlow.Base.BreadthFirst
import VirtuosoFlow.Plugin.Routed

/-!
# What the maze search finds

`vfpRMaze` is a breadth-first search over the cells of the grid. Its tables are indexed by the number of
a cell, and no two cells of the grid share a number, so they are tables over cells. A path that it
returns is a shortest walk from a source to the target, and it returns none only where there is none.
-/

namespace VirtuosoFlow.Plugin

open Base

section Walks

/-- A step over the grid: to a neighbour on the same layer, or to the other layer. -/
def Cell.Moves (g : Grid) (p n : Cell) : Prop :=
  vfpRGin g n.col n.row = true ∧
    ((n.layer = p.layer ∧ Adjacent (p.col, p.row) (n.col, n.row)) ∨
      (n.layer ≠ p.layer ∧ n.col = p.col ∧ n.row = p.row))

/-- A cell is free, or the net holds it. -/
def FreeFor (g : Grid) (net : String) (p : Cell) : Prop :=
  vfpRGget g p = none ∨ vfpRGget g p = some (.net net)

/-- A walk over the grid from a source to the target: the cells after the first are free or held by the
net, the target aside. -/
structure MazeWalk (g : Grid) (srcList : List Cell) (tgt : Cell) (net : String) (w : List Cell) : Prop where
  source : ∃ p ∈ srcList, w.head? = some p
  target : w.getLast? = some tgt
  moves : w.IsChain (Cell.Moves g)
  free : ∀ n ∈ w.tail, n = tgt ∨ FreeFor g net n

/-- One step of such a walk. -/
def MazeStep (g : Grid) (tgt : Cell) (net : String) (p n : Cell) : Prop :=
  p.Moves g n ∧ (n = tgt ∨ FreeFor g net n)

variable {g : Grid} {tgt p n : Cell} {net : String} {srcList w : List Cell}

/-- The places one step away. -/
theorem mem_steps_iff : n ∈ p.steps ↔
    (n.layer = p.layer ∧ Adjacent (p.col, p.row) (n.col, n.row)) ∨
      (n.layer ≠ p.layer ∧ n.col = p.col ∧ n.row = p.row) := by
  obtain ⟨l, c, r⟩ := p
  obtain ⟨l', c', r'⟩ := n
  have hother : l' = l.other ↔ l' ≠ l := by cases l <;> cases l' <;> decide
  simp only [Cell.steps, List.mem_cons, List.not_mem_nil, or_false, Cell.mk.injEq, Adjacent, hother]
  constructor
  · rintro (⟨rfl, rfl, rfl⟩ | ⟨rfl, rfl, rfl⟩ | ⟨rfl, rfl, rfl⟩ | ⟨rfl, rfl, rfl⟩ | ⟨hne, rfl, rfl⟩)
    · exact .inl ⟨rfl, by simp⟩
    · exact .inl ⟨rfl, by simp⟩
    · exact .inl ⟨rfl, by simp⟩
    · exact .inl ⟨rfl, by simp⟩
    · exact .inr ⟨hne, rfl, rfl⟩
  · rintro (⟨rfl, hadjacent⟩ | ⟨hne, rfl, rfl⟩)
    · have hplace : (c' = c + 1 ∧ r' = r) ∨ (c' = c - 1 ∧ r' = r) ∨ (c' = c ∧ r' = r + 1) ∨
          (c' = c ∧ r' = r - 1) := by
        rcases abs_cases (c - c') with hc | hc <;> rcases abs_cases (r - r') with hr | hr <;> omega
      tauto
    · exact .inr (.inr (.inr (.inr ⟨hne, rfl, rfl⟩)))

/-- A cell can be passed if it is free for the net. -/
theorem passable_iff : vfpRGpassable g p net = true ↔ FreeFor g net p := by
  simp [vfpRGpassable, FreeFor]

/-- What may enter the queue. -/
theorem mazeStep_iff : MazeStep g tgt net p n ↔
    n ∈ p.steps ∧ vfpRGin g n.col n.row = true ∧ (n == tgt || vfpRGpassable g n net) = true := by
  rw [MazeStep, Cell.Moves, mem_steps_iff, Bool.or_eq_true, beq_iff_eq, passable_iff]
  tauto

/-- Walks over the grid are walks of such steps. -/
theorem mazeWalk_iff : MazeWalk g srcList tgt net w ↔ Walk (MazeStep g tgt net) (· ∈ srcList) tgt w := by
  have hchain : ∀ w : List Cell, w.IsChain (MazeStep g tgt net) ↔
      w.IsChain (Cell.Moves g) ∧ ∀ n ∈ w.tail, n = tgt ∨ FreeFor g net n := by
    intro w
    induction w with
    | nil => simp
    | cons a l ih =>
      cases l with
      | nil => simp
      | cons b l =>
        rw [List.isChain_cons_cons, List.isChain_cons_cons, ih, MazeStep]
        simp only [List.tail_cons, List.mem_cons, forall_eq_or_imp]
        tauto
  constructor
  · rintro ⟨⟨p, hp, hhead⟩, htarget, hmoves, hfree⟩
    exact ⟨⟨p, hp, hhead⟩, htarget, (hchain w).mpr ⟨hmoves, hfree⟩⟩
  · rintro ⟨⟨p, hp, hhead⟩, htarget, hsteps⟩
    exact ⟨⟨p, hp, hhead⟩, htarget, ((hchain w).mp hsteps).1, ((hchain w).mp hsteps).2⟩

end Walks

section Tables

variable {g : Grid} {tgt cur : Cell} {net : String} {srcList : List Cell}

/-- A cell of the grid that the search has visited. -/
def Search.Seen (g : Grid) (s : Search) (p : Cell) : Prop :=
  p ∈ gridCells g ∧ s.visited (vfpRGidx g p) = true

/-- The cell from which a cell was visited. -/
def Search.parent (g : Grid) (s : Search) (p : Cell) : Option Cell := s.prev (vfpRGidx g p)

/-- The walk back over the table is the walk back over the cells. -/
theorem backtrace_eq (s : Search) (fuel : ℕ) (p : Cell) (path : List Cell) :
    backtrace g s.prev fuel p path = walkBack (s.parent g) fuel p path := by
  induction fuel generalizing p path with
  | zero => rfl
  | succ fuel ih =>
    rw [backtrace, walkBack, Search.parent]
    cases s.prev (vfpRGidx g p) with
    | none => rfl
    | some q => exact ih q (q :: path)

/-- What the rounds of `foreach(n ...)` do: some unvisited places enter the queue, each with its
predecessor, and after them every place that may enter is visited. -/
theorem Search.foldl_visit_spec (g : Grid) (tgt : Cell) (net : String) (cur : Cell) (l : List Cell)
    (s : Search) :
    ∃ new : List Cell, (l.foldl (Search.visit g tgt net cur) s).q = s.q ++ new ∧ new.Nodup ∧
      (∀ n ∈ new, n ∈ l ∧ vfpRGin g n.col n.row = true ∧
        (n == tgt || vfpRGpassable g n net) = true ∧ s.visited (vfpRGidx g n) = false) ∧
      (∀ k, (l.foldl (Search.visit g tgt net cur) s).visited k = true ↔
        s.visited k = true ∨ ∃ n ∈ new, vfpRGidx g n = k) ∧
      (∀ n ∈ new, (l.foldl (Search.visit g tgt net cur) s).prev (vfpRGidx g n) = some cur) ∧
      (∀ k, s.visited k = true → (l.foldl (Search.visit g tgt net cur) s).prev k = s.prev k) ∧
      ∀ n ∈ l, vfpRGin g n.col n.row = true → (n == tgt || vfpRGpassable g n net) = true →
        (l.foldl (Search.visit g tgt net cur) s).visited (vfpRGidx g n) = true := by
  induction l generalizing s with
  | nil => exact ⟨[], by simp⟩
  | cons a l ih =>
    obtain ⟨new, hq, hnodup, hnew, hvisited, hprev, hkept, hall⟩ := ih (s.visit g tgt net cur a)
    rw [List.foldl_cons]
    by_cases henters : vfpRGin g a.col a.row && !s.visited (vfpRGidx g a) &&
        (a == tgt || vfpRGpassable g a net)
    · have hvisit : s.visit g tgt net cur a =
          { q := s.q ++ [a]
            visited := Function.update s.visited (vfpRGidx g a) true
            prev := Function.update s.prev (vfpRGidx g a) (some cur) } := by
        rw [Search.visit, if_pos henters]
      simp only [Bool.and_eq_true, Bool.not_eq_true'] at henters
      obtain ⟨⟨hin, hunvisited⟩, hopen⟩ := henters
      have hone : ∀ k, (s.visit g tgt net cur a).visited k = true ↔
          s.visited k = true ∨ vfpRGidx g a = k := by
        intro k
        by_cases hk : k = vfpRGidx g a
        · subst hk
          simp [hvisit]
        · simp [hvisit, Function.update_of_ne hk, Ne.symm hk]
      have hself : (s.visit g tgt net cur a).visited (vfpRGidx g a) = true := (hone _).mpr (.inr rfl)
      refine ⟨a :: new, ?_, ?_, ?_, ?_, ?_, ?_, ?_⟩
      · rw [hq, hvisit, List.append_assoc, List.singleton_append]
      · refine List.nodup_cons.mpr ⟨?_, hnodup⟩
        intro hmem
        have hnot := (hnew a hmem).2.2.2
        rw [hself] at hnot
        cases hnot
      · intro n hn
        rcases List.mem_cons.mp hn with rfl | hmem
        · exact ⟨List.mem_cons_self, hin, hopen, hunvisited⟩
        · obtain ⟨hl, hin', hopen', hnot⟩ := hnew n hmem
          refine ⟨List.mem_cons_of_mem a hl, hin', hopen', ?_⟩
          by_contra hvis
          rw [Bool.not_eq_false] at hvis
          rw [(hone _).mpr (.inl hvis)] at hnot
          cases hnot
      · intro k
        rw [hvisited, hone]
        simp only [List.mem_cons, exists_eq_or_imp]
        tauto
      · intro n hn
        rcases List.mem_cons.mp hn with rfl | hmem
        · rw [hkept _ hself, hvisit]
          exact Function.update_self ..
        · exact hprev n hmem
      · intro k hk
        have hne : k ≠ vfpRGidx g a := by
          rintro rfl
          rw [hk] at hunvisited
          cases hunvisited
        rw [hkept k ((hone k).mpr (.inl hk)), hvisit]
        exact Function.update_of_ne hne ..
      · intro n hn hin' hopen'
        rcases List.mem_cons.mp hn with rfl | hmem
        · exact (hvisited _).mpr (.inl hself)
        · exact hall n hmem hin' hopen'
    · have hvisit : s.visit g tgt net cur a = s := by
        rw [Search.visit, if_neg henters]
      rw [hvisit] at hq hnew hvisited hkept hprev hall ⊢
      refine ⟨new, hq, hnodup, ?_, hvisited, hprev, hkept, ?_⟩
      · intro n hn
        obtain ⟨hl, hrest⟩ := hnew n hn
        exact ⟨List.mem_cons_of_mem a hl, hrest⟩
      · intro n hn hin' hopen'
        rcases List.mem_cons.mp hn with rfl | hmem
        · have hvis : s.visited (vfpRGidx g n) = true := by
            simpa [hin', hopen'] using henters
          exact (hvisited _).mpr (.inl hvis)
        · exact hall n hmem hin' hopen'

/-- The queue of the sources has each of them once. -/
theorem Search.start_queue (g : Grid) (l : List Cell) (s : Search) (hnodup : s.q.Nodup)
    (hqueued : ∀ p ∈ s.q, s.visited (vfpRGidx g p) = true) :
    let s' := l.foldl (fun s p =>
      if s.visited (vfpRGidx g p) then s
      else { s with q := p :: s.q, visited := Function.update s.visited (vfpRGidx g p) true }) s
    s'.q.Nodup ∧ ∀ p ∈ s'.q, s'.visited (vfpRGidx g p) = true := by
  induction l generalizing s with
  | nil => exact ⟨hnodup, hqueued⟩
  | cons a l ih =>
    simp only [List.foldl_cons]
    by_cases hvisited : s.visited (vfpRGidx g a) = true
    · rw [if_pos hvisited]
      exact ih s hnodup hqueued
    · rw [if_neg hvisited]
      refine ih _ ?_ ?_
      · exact List.nodup_cons.mpr ⟨fun hmem => hvisited (hqueued a hmem), hnodup⟩
      · intro p hp
        change Function.update s.visited (vfpRGidx g a) true (vfpRGidx g p) = true
        by_cases heq : vfpRGidx g p = vfpRGidx g a
        · rw [heq, Function.update_self]
        · rw [Function.update_of_ne heq]
          rcases List.mem_cons.mp hp with rfl | hmem
          · exact absurd rfl heq
          · exact hqueued p hmem

end Tables

section Search

variable {g : Grid} {tgt : Cell} {net : String} {srcList : List Cell}

/-- The search over the tables is a breadth-first search, and the target is in the queue once it was
seen. -/
def Search.Sound (g : Grid) (srcList : List Cell) (tgt : Cell) (net : String) (s : Search) : Prop :=
  (∃ depth, BreadthFirst (MazeStep g tgt net) (· ∈ srcList) s.q (s.Seen g) (s.parent g) depth) ∧
    (s.Seen g tgt → tgt ∈ s.q)

/-- The search starts with its sources. -/
theorem Search.start_sound (hsrc : ∀ p ∈ srcList, p ∈ gridCells g) :
    (Search.start g srcList).Sound g srcList tgt net := by
  obtain ⟨hprev, hsub, hqueue, _, hall⟩ :=
    Search.start_spec g srcList ⟨[], fun _ => false, fun _ => none⟩ (by simp)
  obtain ⟨hnodup, hqueued⟩ :=
    Search.start_queue g srcList ⟨[], fun _ => false, fun _ => none⟩ List.nodup_nil (by simp)
  have hmem : ∀ p ∈ (Search.start g srcList).q, p ∈ srcList := by
    intro p hp
    simpa using hsub p hp
  have hseen : ∀ p, (Search.start g srcList).Seen g p ↔ p ∈ (Search.start g srcList).q := by
    intro p
    constructor
    · rintro ⟨hin, hvisited⟩
      obtain ⟨q, hq, hidx⟩ := hqueue _ hvisited
      obtain rfl : q = p := vfpRGidx_injective (hsrc q (hmem q hq)) hin hidx
      exact hq
    · intro hp
      exact ⟨hsrc p (hmem p hp), hqueued p hp⟩
  refine ⟨⟨_, BreadthFirst.start hnodup ?_ hseen ?_⟩, (hseen tgt).mp⟩
  · intro p
    exact ⟨hmem p, fun hp => (hseen p).mp ⟨hsrc p hp, hall p hp⟩⟩
  · intro p
    exact congrFun hprev (vfpRGidx g p)

/-- A round of the loop keeps this. -/
theorem Search.expand_sound {cur : Cell} {rest : List Cell} {s : Search} (hs : s.Sound g srcList tgt net)
    (hq : s.q = cur :: rest) (hne : cur ≠ tgt) :
    (cur.steps.foldl (Search.visit g tgt net cur) { s with q := rest }).Sound g srcList tgt net := by
  obtain ⟨⟨depth, hbfs⟩, hpending⟩ := hs
  obtain ⟨new, hq', hnodup, hnew, hvisited, hprev, hkept, hall⟩ :=
    Search.foldl_visit_spec g tgt net cur cur.steps { s with q := rest }
  generalize cur.steps.foldl (Search.visit g tgt net cur) { s with q := rest } = s' at *
  have hgrid : ∀ n ∈ new, n ∈ gridCells g := fun n hn => mem_gridCells.mpr (hnew n hn).2.1
  have hseen : ∀ p, s'.Seen g p ↔ s.Seen g p ∨ p ∈ new := by
    intro p
    rw [Search.Seen, Search.Seen, hvisited]
    constructor
    · rintro ⟨hin, hold | ⟨n, hn, hidx⟩⟩
      · exact .inl ⟨hin, hold⟩
      · obtain rfl : n = p := vfpRGidx_injective (hgrid n hn) hin hidx
        exact .inr hn
    · rintro (⟨hin, hold⟩ | hn)
      · exact ⟨hin, .inl hold⟩
      · exact ⟨hgrid p hn, .inr ⟨p, hn, rfl⟩⟩
  rw [hq] at hbfs hpending
  constructor
  · refine ⟨fun p => if p ∈ new then depth cur + 1 else depth p, ?_⟩
    rw [hq']
    refine hbfs.expand hnodup ?_ ?_ hseen hprev ?_
    · intro n hn
      obtain ⟨hstep, hin, hopen, hunvisited⟩ := hnew n hn
      refine ⟨?_, mazeStep_iff.mpr ⟨hstep, hin, hopen⟩⟩
      rintro ⟨-, hold⟩
      rw [hold] at hunvisited
      cases hunvisited
    · intro n hstep
      obtain ⟨hmem, hin, hopen⟩ := mazeStep_iff.mp hstep
      exact (hseen n).mp ⟨mem_gridCells.mpr hin, hall n hmem hin hopen⟩
    · rintro p ⟨-, hold⟩
      exact hkept _ hold
  · intro htgt
    rw [hq', List.mem_append]
    rcases (hseen tgt).mp htgt with hold | hmem
    · exact .inl ((List.mem_cons.mp (hpending hold)).resolve_left (Ne.symm hne))
    · exact .inr hmem

/-- When the loop ends without the target, no steps lead to it; otherwise the target was in front of the
queue of a breadth-first search. -/
theorem Search.loop_spec (s : Search) (hs : s.Sound g srcList tgt net) :
    match s.loop g tgt net with
    | none => ∀ n, ¬ Reached (MazeStep g tgt net) (· ∈ srcList) n tgt
    | some s' => s'.Seen g tgt ∧ ∃ depth, BreadthFirst (MazeStep g tgt net) (· ∈ srcList)
        (tgt :: s'.q) (s'.Seen g) (s'.parent g) depth := by
  fun_induction Search.loop g tgt net s with
  | case1 s hq =>
    intro n hreached
    obtain ⟨⟨depth, hbfs⟩, hpending⟩ := hs
    rw [hq] at hbfs hpending
    cases hpending (hbfs.seen_of_reached hreached)
  | case2 s rest hq =>
    obtain ⟨⟨depth, hbfs⟩, -⟩ := hs
    rw [hq] at hbfs
    exact ⟨hbfs.queued tgt List.mem_cons_self, depth, hbfs⟩
  | case3 s cur rest hq hne ih => exact ih (Search.expand_sound hs hq hne)

/-- What `vfpRMaze` returns, and that its loops end. -/
theorem vfpRMaze_spec (hsrc : ∀ p ∈ srcList, p ∈ gridCells g) (tgt : Cell) (net : String) :
    (vfpRMaze g srcList tgt net = none ∧ ∀ n, ¬ Reached (MazeStep g tgt net) (· ∈ srcList) n tgt) ∨
      ∃ s path, Search.loop g tgt net (Search.start g srcList) = some s ∧
        vfpRMaze g srcList tgt net = some path ∧
        Walk (MazeStep g tgt net) (· ∈ srcList) tgt path ∧ path.Nodup ∧
        (∃ p, path.head? = some p ∧ s.prev (vfpRGidx g p) = none) ∧
        ∀ n, Reached (MazeStep g tgt net) (· ∈ srcList) n tgt → path.length ≤ n + 1 := by
  have hstart : (Search.start g srcList).Sound g srcList tgt net := Search.start_sound hsrc
  have hloop := Search.loop_spec (Search.start g srcList) hstart
  rw [vfpRMaze]
  generalize Search.loop g tgt net (Search.start g srcList) = found at *
  cases found with
  | none => exact .inl ⟨rfl, hloop⟩
  | some s =>
    obtain ⟨hseen, depth, hbfs⟩ := hloop
    -- the cells of the walk back are different cells of the grid, so there is fuel enough
    have hfuel : depth tgt ≤ (gridCells g).length := by
      obtain ⟨front, -, -, hlength, hfront, hnodup, -⟩ := hbfs.walkBack_spec hseen le_rfl []
      rw [← hlength]
      exact (hnodup.subperm fun p hp => (hfront p hp).1.1).length_le
    obtain ⟨front, hback, hwalk, hlength, hfront, hnodup, hend⟩ := hbfs.walkBack_spec hseen hfuel [tgt]
    refine .inr ⟨s, front ++ [tgt], rfl, ?_, hwalk, ?_, hend, ?_⟩
    · rw [Option.map_some, backtrace_eq, hback]
    · refine List.Nodup.append hnodup (List.nodup_singleton tgt) ?_
      rw [List.disjoint_singleton]
      exact fun hmem => (hfront tgt hmem).2.false
    · intro n hreached
      rw [List.length_append, hlength]
      exact Nat.succ_le_succ (hbfs.depth_le_of_reached hreached)

/-- The search ends, the walk back ends at a cell without a predecessor, and a path is a walk from a
source to the target that visits no cell twice. -/
theorem vfpRMaze_sound (hsrc : ∀ p ∈ srcList, p ∈ gridCells g) (tgt : Cell) (net : String) :
    (∀ s, Search.loop g tgt net (Search.start g srcList) = some s →
      ∃ p, (backtrace g s.prev (gridCells g).length tgt [tgt]).head? = some p ∧
        s.prev (vfpRGidx g p) = none) ∧
    ∀ path, vfpRMaze g srcList tgt net = some path → MazeWalk g srcList tgt net path ∧ path.Nodup := by
  rcases vfpRMaze_spec hsrc tgt net with ⟨hnone, -⟩ | ⟨s, path, hloop, hpath, hwalk, hnodup, hend, -⟩
  · constructor
    · intro s hloop
      rw [vfpRMaze, hloop] at hnone
      cases hnone
    · intro path hpath
      rw [hnone] at hpath
      cases hpath
  · constructor
    · intro s' hloop'
      obtain rfl : s = s' := Option.some.inj (hloop.symm.trans hloop')
      rw [vfpRMaze, hloop, Option.map_some] at hpath
      rw [Option.some.inj hpath]
      exact hend
    · intro path' hpath'
      obtain rfl : path = path' := Option.some.inj (hpath.symm.trans hpath')
      exact ⟨mazeWalk_iff.mpr hwalk, hnodup⟩

/-- A path of two cells. -/
theorem vfpRMaze_sound_sample :
    MazeWalk (vfpRGmake 2 1 0 0 1) [⟨.m1, 0, 0⟩] ⟨.m1, 1, 0⟩ "a" [⟨.m1, 0, 0⟩, ⟨.m1, 1, 0⟩] ∧
      [(⟨.m1, 0, 0⟩ : Cell), ⟨.m1, 1, 0⟩].Nodup :=
  (vfpRMaze_sound (g := vfpRGmake 2 1 0 0 1) (by decide) ⟨.m1, 1, 0⟩ "a").2 _ (by decide +kernel)

/-- The search finds no path just when no walk leads to the target, and no walk takes fewer steps than
the path it finds. -/
theorem vfpRMaze_complete (hsrc : ∀ p ∈ srcList, p ∈ gridCells g) (tgt : Cell) (net : String) :
    (vfpRMaze g srcList tgt net = none ↔ ¬ ∃ w, MazeWalk g srcList tgt net w) ∧
    ∀ path, vfpRMaze g srcList tgt net = some path →
      ∀ w, MazeWalk g srcList tgt net w → path.length ≤ w.length := by
  rcases vfpRMaze_spec hsrc tgt net with ⟨hnone, hno⟩ | ⟨s, path, -, hpath, hwalk, -, -, hleast⟩
  · have hwalks : ¬ ∃ w, MazeWalk g srcList tgt net w := by
      rintro ⟨w, hw⟩
      obtain ⟨n, -, hreached⟩ := (mazeWalk_iff.mp hw).reached
      exact hno n hreached
    refine ⟨iff_of_true hnone hwalks, ?_⟩
    intro path hpath
    rw [hnone] at hpath
    cases hpath
  · refine ⟨iff_of_false (by simp [hpath]) (not_not.mpr ⟨path, mazeWalk_iff.mpr hwalk⟩), ?_⟩
    intro path' hpath' w hw
    obtain rfl : path = path' := Option.some.inj (hpath.symm.trans hpath')
    obtain ⟨n, hlength, hreached⟩ := (mazeWalk_iff.mp hw).reached
    rw [hlength]
    exact hleast n hreached

/-- Two neighbouring cells are connected. -/
theorem vfpRMaze_complete_sample :
    vfpRMaze (vfpRGmake 2 1 0 0 1) [⟨.m1, 0, 0⟩] ⟨.m1, 1, 0⟩ "a" = none ↔
      ¬ ∃ w, MazeWalk (vfpRGmake 2 1 0 0 1) [⟨.m1, 0, 0⟩] ⟨.m1, 1, 0⟩ "a" w :=
  (vfpRMaze_complete (by decide) ⟨.m1, 1, 0⟩ "a").1

end Search

end VirtuosoFlow.Plugin
