import Mathlib.Data.List.DropRight
import VirtuosoFlow.Base.Delimited

/-!
# Names with their separators levelled

Every run of elements that are not kept is replaced by one separator, and the separators at the two
ends are dropped. What is left are the runs of kept elements with the separator between them, so two
names come out alike exactly when their runs do.
-/

namespace Base

variable {α : Type} (keep : α → Bool) (sep : α)

/-- Every run of elements that are not kept, replaced by the separator; `inside` such a run the
separator stands already. -/
def replaceRuns (inside : Bool) : List α → List α
  | [] => []
  | c :: rest =>
    if keep c then c :: replaceRuns false rest
    else if inside then replaceRuns true rest
    else sep :: replaceRuns true rest

/-- The separators at both ends dropped. -/
def stripSep [DecidableEq α] (s : List α) : List α := (s.dropWhile (· == sep)).rdropWhile (· == sep)

/-- The runs of kept elements. -/
def runs (s : List α) : List (List α) := (s.splitOnP (!keep ·)).filter (!·.isEmpty)

variable {keep sep}

/-- The pieces between the elements that are not kept have kept elements only. -/
theorem mem_splitOnP_keep {s piece : List α} (h : piece ∈ s.splitOnP (!keep ·)) :
    ∀ c ∈ piece, keep c = true := by
  induction s generalizing piece with
  | nil => simp_all
  | cons c s ih =>
    obtain ⟨first, others, hs⟩ := List.exists_cons_of_ne_nil (List.splitOnP_ne_nil (!keep ·) s)
    rw [List.splitOnP_cons_eq_if_modifyHead] at h
    by_cases hc : keep c = true
    · simp only [hc, Bool.not_true, Bool.false_eq_true, if_false, hs, List.modifyHead_cons, List.mem_cons] at h
      rcases h with rfl | h
      · have hfirst := ih (hs ▸ List.mem_cons_self)
        simpa [hc] using hfirst
      · exact ih (hs ▸ List.mem_cons_of_mem _ h)
    · simp only [hc, Bool.not_false, if_true, List.mem_cons] at h
      rcases h with rfl | h
      · simp
      · exact ih h

/-- A run is not empty and has kept elements only. -/
theorem runs_plain {s run : List α} (h : run ∈ runs keep s) : run ≠ [] ∧ ∀ c ∈ run, keep c = true := by
  obtain ⟨hsplit, hrun⟩ := List.mem_filter.mp h
  exact ⟨by simpa using hrun, mem_splitOnP_keep hsplit⟩

section Trailing

variable {p : α → Bool} {c : α}

/-- An element that does not go keeps its place when the end is dropped. -/
theorem rdropWhile_cons_neg (h : p c = false) (s : List α) : (c :: s).rdropWhile p = c :: s.rdropWhile p := by
  simp only [List.rdropWhile, List.reverse_cons, List.dropWhile_append]
  by_cases hs : (s.reverse.dropWhile p).isEmpty = true
  · rw [if_pos hs, List.isEmpty_iff.mp hs]
    simp [h]
  · rw [if_neg hs]
    simp

/-- An element that goes does so when all that follows it does. -/
theorem rdropWhile_cons_pos (h : p c = true) (s : List α) :
    (c :: s).rdropWhile p = if s.rdropWhile p = [] then [] else c :: s.rdropWhile p := by
  simp only [List.rdropWhile, List.reverse_cons, List.dropWhile_append, List.reverse_eq_nil_iff]
  by_cases hs : s.reverse.dropWhile p = []
  · rw [if_pos (List.isEmpty_iff.mpr hs), if_pos hs]
    simp [h]
  · rw [if_neg (by simpa using hs), if_neg hs]
    simp

end Trailing

/-- The separator in front of a text that is not empty. -/
def ledBy (sep : α) : List α → List α
  | [] => []
  | c :: s => sep :: c :: s

/-- A part that is not empty is led by the separator. -/
theorem ledBy_of_ne_nil {s : List α} (h : s ≠ []) : ledBy sep s = sep :: s := by
  cases s with
  | nil => exact absurd rfl h
  | cons c s => rfl

/-- The first run and what follows it. -/
theorem intercalate_cons_runs (first : List α) {others : List (List α)}
    (hothers : ∀ run ∈ others, run ≠ []) :
    [sep].intercalate (first :: others) = first ++ ledBy sep ([sep].intercalate others) := by
  by_cases hnil : others = []
  · subst hnil
    simp [ledBy]
  · rw [ledBy_of_ne_nil (intercalate_ne_nil hothers hnil)]
    obtain ⟨run, others, rfl⟩ := List.exists_cons_of_ne_nil hnil
    simp [List.intercalate_cons_cons]

variable [DecidableEq α]

/-- What is written for a text inside a run of separators and behind its first piece, with the
separators at the end dropped. -/
theorem rdropWhile_replaceRuns (hsep : keep sep = false) (s : List α) :
    (replaceRuns keep sep true s).rdropWhile (· == sep) = [sep].intercalate (runs keep s) ∧
      ∀ first others, s.splitOnP (!keep ·) = first :: others →
        (replaceRuns keep sep false s).rdropWhile (· == sep) =
          first ++ ledBy sep ([sep].intercalate (others.filter (!·.isEmpty))) := by
  induction s with
  | nil =>
    refine ⟨by simp [replaceRuns, runs], fun first others h => ?_⟩
    obtain ⟨rfl, rfl⟩ := List.cons.inj h
    simp [replaceRuns, ledBy]
  | cons c s ih =>
    obtain ⟨hinside, hbehind⟩ := ih
    obtain ⟨piece, pieces, hs⟩ := List.exists_cons_of_ne_nil (List.splitOnP_ne_nil (!keep ·) s)
    by_cases hc : keep c = true
    · have hsplit : (c :: s).splitOnP (!keep ·) = (c :: piece) :: pieces := by
        rw [List.splitOnP_cons_eq_if_modifyHead, if_neg (by simp [hc]), hs, List.modifyHead_cons]
      have hne : (c == sep) = false := by
        rw [beq_eq_false_iff_ne]
        rintro rfl
        rw [hsep] at hc
        cases hc
      have hwritten : ∀ inside, (replaceRuns keep sep inside (c :: s)).rdropWhile (· == sep) =
          c :: piece ++ ledBy sep ([sep].intercalate (pieces.filter (!·.isEmpty))) := by
        intro inside
        rw [replaceRuns, if_pos hc, rdropWhile_cons_neg (p := (· == sep)) hne, hbehind piece pieces hs,
          List.cons_append]
      constructor
      · rw [hwritten, runs, hsplit, List.filter_cons_of_pos (by simp),
          intercalate_cons_runs _ fun run hrun => by simpa using (List.mem_filter.mp hrun).2]
      · intro first others h
        obtain ⟨rfl, rfl⟩ := List.cons.inj (hsplit.symm.trans h)
        exact hwritten false
    · have hsplit : (c :: s).splitOnP (!keep ·) = [] :: s.splitOnP (!keep ·) := by
        rw [List.splitOnP_cons_eq_if_modifyHead, if_pos (by simp [hc])]
      constructor
      · rw [replaceRuns, if_neg hc, if_pos rfl, hinside, runs, runs, hsplit,
          List.filter_cons_of_neg (by simp)]
      · intro first others h
        obtain ⟨rfl, rfl⟩ := List.cons.inj (hsplit.symm.trans h)
        rw [replaceRuns, if_neg hc, if_neg (by simp), rdropWhile_cons_pos (by simp), hinside,
          List.nil_append, runs]
        cases [sep].intercalate ((s.splitOnP (!keep ·)).filter (!·.isEmpty)) <;> simp [ledBy]

/-- At the front the separators go with the first run that is not kept. -/
theorem dropWhile_replaceRuns (hsep : keep sep = false) (s : List α) :
    (replaceRuns keep sep false s).dropWhile (· == sep) = replaceRuns keep sep true s := by
  have hinside : (replaceRuns keep sep true s).dropWhile (· == sep) = replaceRuns keep sep true s := by
    induction s with
    | nil => rfl
    | cons c s ih =>
      by_cases hc : keep c = true
      · have hne : ¬ (c == sep) = true := by
          rw [beq_iff_eq]
          rintro rfl
          rw [hsep] at hc
          cases hc
        rw [replaceRuns, if_pos hc, List.dropWhile_cons_of_neg (p := (· == sep)) hne]
      · rw [replaceRuns, if_neg hc, if_pos rfl, ih]
  cases s with
  | nil => rfl
  | cons c s =>
    by_cases hc : keep c = true
    · rw [replaceRuns, if_pos hc] at hinside
      rw [replaceRuns, if_pos hc, replaceRuns, if_pos hc, hinside]
    · rw [replaceRuns, if_neg hc, if_pos rfl] at hinside
      rw [replaceRuns, if_neg hc, if_neg (by simp), List.dropWhile_cons_of_pos (by simp), replaceRuns,
        if_neg hc, if_pos rfl, hinside]

/-- A levelled name has its runs with the separator between them. -/
theorem stripSep_replaceRuns (hsep : keep sep = false) (s : List α) :
    stripSep sep (replaceRuns keep sep false s) = [sep].intercalate (runs keep s) := by
  rw [stripSep, dropWhile_replaceRuns hsep, (rdropWhile_replaceRuns hsep s).1]

end Base
