import Mathlib.Data.List.Chain
import Mathlib.Data.List.Nodup

/-!
# Breadth-first search

A search takes places from the front of a queue and puts the places one step further, which it has not
seen before, at its end. The queue then holds the places in the order of their depths, and the place
in front is as deep as the shortest walk to it is long. The places from which others were seen lead
back to a source.
-/

namespace Base

variable {α : Type*}

/-- A list of places that starts at a source, ends at a target and takes one step at a time. -/
structure Walk (E : α → α → Prop) (S : α → Prop) (tgt : α) (w : List α) : Prop where
  source : ∃ a, S a ∧ w.head? = some a
  target : w.getLast? = some tgt
  steps : w.IsChain E

/-- A place that a number of steps leads to from a source. -/
inductive Reached (E : α → α → Prop) (S : α → Prop) : ℕ → α → Prop
  | source {a : α} : S a → Reached E S 0 a
  | step {n : ℕ} {a b : α} : Reached E S n a → E a b → Reached E S (n + 1) b

/-- The state of a search: its queue, the places it has seen, the places from which it saw them, and
how deep they are. -/
structure BreadthFirst (E : α → α → Prop) (S : α → Prop) (q : List α) (seen : α → Prop)
    (parent : α → Option α) (depth : α → ℕ) : Prop where
  nodup : q.Nodup
  queued : ∀ a ∈ q, seen a
  source : ∀ a, S a → seen a ∧ depth a = 0
  root : ∀ a, seen a → parent a = none → S a
  edge : ∀ a b, seen a → parent a = some b → seen b ∧ E b a ∧ depth a = depth b + 1
  ordered : q.Pairwise fun a b => depth a ≤ depth b
  window : ∀ a ∈ q, ∀ b ∈ q, depth a ≤ depth b + 1
  early : ∀ a, seen a → a ∉ q → ∀ b ∈ q, depth a ≤ depth b
  closed : ∀ a, seen a → a ∉ q → ∀ b, E a b → seen b ∧ depth b ≤ depth a + 1

section Walks

variable {E : α → α → Prop} {S : α → Prop} {tgt : α} {w : List α}

/-- Steps go on from a place that was reached. -/
theorem Reached.along {n : ℕ} {a : α} (h : Reached E S n a) {l : List α} (hchain : (a :: l).IsChain E)
    (hlast : (a :: l).getLast? = some tgt) : Reached E S (n + l.length) tgt := by
  induction l generalizing a n with
  | nil =>
    obtain rfl : a = tgt := by simpa using hlast
    exact h
  | cons b l ih =>
    rw [List.isChain_cons_cons] at hchain
    have hrest := ih (h.step hchain.1) hchain.2 (by simpa using hlast)
    rw [List.length_cons]
    convert hrest using 1
    omega

/-- A walk reaches its target in one step less than it has places. -/
theorem Walk.reached (h : Walk E S tgt w) : ∃ n, w.length = n + 1 ∧ Reached E S n tgt := by
  obtain ⟨a, ha, hhead⟩ := h.source
  cases w with
  | nil => cases hhead
  | cons b l =>
    obtain rfl : b = a := by simpa using hhead
    refine ⟨l.length, rfl, ?_⟩
    have hreached := (Reached.source ha).along h.steps h.target
    rwa [Nat.zero_add] at hreached

/-- One more step makes a longer walk. -/
theorem Walk.snoc (h : Walk E S tgt w) {a : α} (hstep : E tgt a) : Walk E S a (w ++ [a]) where
  source := by
    obtain ⟨b, hb, hhead⟩ := h.source
    refine ⟨b, hb, ?_⟩
    rw [List.head?_append, hhead]
    rfl
  target := by simp
  steps := by
    rw [List.isChain_append]
    refine ⟨h.steps, List.isChain_singleton a, ?_⟩
    intro b hb c hc
    obtain rfl : tgt = b := by simpa [h.target] using hb
    obtain rfl : a = c := by simpa using hc
    exact hstep

end Walks

namespace BreadthFirst

variable {E : α → α → Prop} {S : α → Prop} {q rest : List α} {seen seen' : α → Prop}
  {parent parent' : α → Option α} {depth : α → ℕ} {cur tgt : α}

/-- A search starts with its sources in the queue. -/
theorem start (hnodup : q.Nodup) (hsources : ∀ a, a ∈ q ↔ S a) (hseen : ∀ a, seen a ↔ a ∈ q)
    (hparent : ∀ a, parent a = none) : BreadthFirst E S q seen parent fun _ => 0 where
  nodup := hnodup
  queued a ha := (hseen a).mpr ha
  source a ha := ⟨(hseen a).mpr ((hsources a).mpr ha), rfl⟩
  root a ha _ := (hsources a).mp ((hseen a).mp ha)
  edge a b _ hab := by
    rw [hparent a] at hab
    cases hab
  ordered := List.pairwise_of_forall fun _ _ => le_refl 0
  window _ _ _ _ := Nat.zero_le _
  early _ _ _ _ _ := le_refl 0
  closed a ha hnot := absurd ((hseen a).mp ha) hnot

/-- A round of the search: the place in front leaves the queue, and the unseen places one step further
enter it. -/
theorem expand [DecidableEq α] (h : BreadthFirst E S (cur :: rest) seen parent depth) {new : List α}
    (hnodup : new.Nodup) (hnew : ∀ a ∈ new, ¬ seen a ∧ E cur a)
    (hall : ∀ a, E cur a → seen a ∨ a ∈ new) (hseen : ∀ a, seen' a ↔ seen a ∨ a ∈ new)
    (hparent : ∀ a ∈ new, parent' a = some cur) (hkept : ∀ a, seen a → parent' a = parent a) :
    BreadthFirst E S (rest ++ new) seen' parent'
      (fun a => if a ∈ new then depth cur + 1 else depth a) := by
  have hcur : seen cur := h.queued cur List.mem_cons_self
  have hrest : ∀ a ∈ rest, seen a := fun a ha => h.queued a (List.mem_cons_of_mem cur ha)
  have hold : ∀ a, seen a → a ∉ new := fun a ha hmem => (hnew a hmem).1 ha
  have hdepth : ∀ a, seen a → (if a ∈ new then depth cur + 1 else depth a) = depth a :=
    fun a ha => if_neg (hold a ha)
  have hbounds : ∀ a ∈ rest, depth cur ≤ depth a ∧ depth a ≤ depth cur + 1 := fun a ha =>
    ⟨(List.pairwise_cons.mp h.ordered).1 a ha, h.window a (List.mem_cons_of_mem cur ha) cur List.mem_cons_self⟩
  have hqueue : ∀ a ∈ rest ++ new,
      depth cur ≤ (if a ∈ new then depth cur + 1 else depth a) ∧
        (if a ∈ new then depth cur + 1 else depth a) ≤ depth cur + 1 := by
    intro a ha
    rcases List.mem_append.mp ha with hmem | hmem
    · rw [hdepth a (hrest a hmem)]
      exact hbounds a hmem
    · rw [if_pos hmem]
      omega
  -- what has left the queue is at most as deep as the place in front was
  have hdone : ∀ a, seen a → a ∉ rest → depth a ≤ depth cur := by
    intro a ha hnot
    by_cases hac : a = cur
    · rw [hac]
    · exact h.early a ha (by simp [hac, hnot]) cur List.mem_cons_self
  constructor
  · refine List.Nodup.append (List.nodup_cons.mp h.nodup).2 hnodup ?_
    exact List.disjoint_left.mpr fun a ha hmem => hold a (hrest a ha) hmem
  · intro a ha
    rw [hseen]
    exact (List.mem_append.mp ha).imp (hrest a) id
  · intro a ha
    obtain ⟨hsa, hda⟩ := h.source a ha
    exact ⟨(hseen a).mpr (.inl hsa), (hdepth a hsa).trans hda⟩
  · intro a ha hnone
    rcases (hseen a).mp ha with hold' | hmem
    · exact h.root a hold' ((hkept a hold').symm.trans hnone)
    · rw [hparent a hmem] at hnone
      cases hnone
  · intro a b ha hab
    rcases (hseen a).mp ha with hold' | hmem
    · obtain ⟨hb, hE, hd⟩ := h.edge a b hold' ((hkept a hold').symm.trans hab)
      exact ⟨(hseen b).mpr (.inl hb), hE, by rw [hdepth a hold', hdepth b hb, hd]⟩
    · rw [hparent a hmem] at hab
      obtain rfl := Option.some.inj hab
      exact ⟨(hseen cur).mpr (.inl hcur), (hnew a hmem).2, by rw [if_pos hmem, hdepth cur hcur]⟩
  · rw [List.pairwise_append]
    refine ⟨?_, ?_, ?_⟩
    · refine (List.pairwise_cons.mp h.ordered).2.imp_of_mem fun {a b} ha hb hab => ?_
      rwa [hdepth a (hrest a ha), hdepth b (hrest b hb)]
    · refine List.pairwise_of_forall_mem_list fun a ha b hb => ?_
      rw [if_pos ha, if_pos hb]
    · intro a ha b hb
      rw [if_pos hb, hdepth a (hrest a ha)]
      exact (hbounds a ha).2
  · intro a ha b hb
    have hupper := (hqueue a ha).2
    have hlower := (hqueue b hb).1
    omega
  · intro a ha hnot b hb
    rw [List.mem_append, not_or] at hnot
    have hseena : seen a := ((hseen a).mp ha).resolve_right hnot.2
    rw [if_neg hnot.2]
    exact (hdone a hseena hnot.1).trans (hqueue b hb).1
  · intro a ha hnot b hab
    rw [List.mem_append, not_or] at hnot
    have hseena : seen a := ((hseen a).mp ha).resolve_right hnot.2
    rw [if_neg hnot.2]
    by_cases hac : a = cur
    · subst hac
      rcases hall b hab with hb | hmem
      · refine ⟨(hseen b).mpr (.inl hb), ?_⟩
        rw [hdepth b hb]
        by_cases hbrest : b ∈ rest
        · exact (hbounds b hbrest).2
        · exact (hdone b hb hbrest).trans (Nat.le_succ _)
      · exact ⟨(hseen b).mpr (.inr hmem), by rw [if_pos hmem]⟩
    · obtain ⟨hb, hd⟩ := h.closed a hseena (by simp [hac, hnot.1]) b hab
      exact ⟨(hseen b).mpr (.inl hb), by rwa [hdepth b hb]⟩

/-- When the queue is empty, every place that can be reached was seen. -/
theorem seen_of_reached (h : BreadthFirst E S [] seen parent depth) {n : ℕ} {a : α}
    (hreached : Reached E S n a) : seen a := by
  induction hreached with
  | source ha => exact (h.source _ ha).1
  | step _ hab ih => exact (h.closed _ ih (by simp) _ hab).1

/-- No walk to the place in front of the queue takes fewer steps than this is deep. -/
theorem depth_le_of_reached (h : BreadthFirst E S (tgt :: rest) seen parent depth) {n : ℕ}
    (hreached : Reached E S n tgt) : depth tgt ≤ n := by
  have hshallow : ∀ {m : ℕ} {a : α}, Reached E S m a → m ≤ depth tgt → seen a ∧ depth a ≤ m := by
    intro m a ha
    induction ha with
    | source ha =>
      intro _
      exact ⟨(h.source _ ha).1, (h.source _ ha).2.le⟩
    | @step m a b _ hab ih =>
      intro hm
      obtain ⟨hseen, hdepth⟩ := ih (by omega)
      -- what is less deep than the front has left the queue
      have hleft : a ∉ tgt :: rest := by
        intro hmem
        rcases List.mem_cons.mp hmem with rfl | hrest
        · omega
        · have hfront := (List.pairwise_cons.mp h.ordered).1 a hrest
          omega
      obtain ⟨hb, hdb⟩ := h.closed a hseen hleft b hab
      exact ⟨hb, by omega⟩
  by_contra hlt
  have hle := (hshallow hreached (by omega)).2
  omega

end BreadthFirst

/-- The places that lead back from one, in front of a path. -/
def walkBack (parent : α → Option α) : ℕ → α → List α → List α
  | 0, _, path => path
  | fuel + 1, a, path =>
    match parent a with
    | none => path
    | some b => walkBack parent fuel b (b :: path)

/-- What leads back from a place is a walk to it from a source, of as many steps as the place is deep. -/
theorem BreadthFirst.walkBack_spec {E : α → α → Prop} {S : α → Prop} {q : List α} {seen : α → Prop}
    {parent : α → Option α} {depth : α → ℕ} (h : BreadthFirst E S q seen parent depth) {fuel : ℕ} {a : α}
    (ha : seen a) (hfuel : depth a ≤ fuel) (path : List α) :
    ∃ front, walkBack parent fuel a path = front ++ path ∧ Walk E S a (front ++ [a]) ∧
      front.length = depth a ∧ (∀ b ∈ front, seen b ∧ depth b < depth a) ∧ front.Nodup ∧
      ∃ b, (front ++ [a]).head? = some b ∧ parent b = none := by
  induction fuel generalizing a path with
  | zero =>
    have hnone : parent a = none := by
      cases hparent : parent a with
      | none => rfl
      | some b =>
        have hdepth := (h.edge a b ha hparent).2.2
        omega
    refine ⟨[], rfl, ⟨⟨a, h.root a ha hnone, rfl⟩, rfl, List.isChain_singleton a⟩, ?_, by simp, by simp, a, rfl, hnone⟩
    rw [(h.source a (h.root a ha hnone)).2]
    rfl
  | succ fuel ih =>
    cases hparent : parent a with
    | none =>
      refine ⟨[], by simp [walkBack, hparent],
        ⟨⟨a, h.root a ha hparent, rfl⟩, rfl, List.isChain_singleton a⟩, ?_, by simp, by simp, a, rfl, hparent⟩
      rw [(h.source a (h.root a ha hparent)).2]
      rfl
    | some b =>
      obtain ⟨hb, hE, hdepth⟩ := h.edge a b ha hparent
      obtain ⟨front, hback, hwalk, hlength, hfront, hnodup, c, hhead, hroot⟩ := ih hb (by omega) (b :: path)
      refine ⟨front ++ [b], ?_, hwalk.snoc hE, ?_, ?_, ?_, c, ?_, hroot⟩
      · simp only [walkBack, hparent, hback, List.append_assoc, List.singleton_append]
      · rw [List.length_append, hlength, hdepth]
        rfl
      · intro z hz
        rcases List.mem_append.mp hz with hmem | hmem
        · exact ⟨(hfront z hmem).1, (hfront z hmem).2.trans (by omega)⟩
        · rw [List.mem_singleton.mp hmem]
          exact ⟨hb, by omega⟩
      · refine List.Nodup.append hnodup (List.nodup_singleton b) ?_
        rw [List.disjoint_singleton]
        exact fun hmem => (hfront b hmem).2.false
      · rw [List.head?_append, hhead]
        rfl

end Base
