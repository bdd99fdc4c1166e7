import Mathlib.Data.List.Basic
import Mathlib.Order.Basic

/-!
# Lines of a stream

A stream of lines that arrives in pieces: the lines that are complete, and the part of a line after them. What
follows a piece goes on with its unfinished line.
-/

namespace Base

variable {α : Type*} [BEq α] [LawfulBEq α] {sep : α} {line rest : List α}

/-- The lines of a stream that a separator ends. -/
def completeLines (sep : α) (stream : List α) : List (List α) := (stream.splitOn sep).dropLast

/-- What follows the last separator. -/
def partialLine (sep : α) (stream : List α) : List α :=
  (stream.splitOn sep).getLast (List.splitOn_ne_nil sep stream)

/-- What holds of an unfinished line, and of a stream with one line more at its head, holds of every stream. -/
theorem lines_induction (sep : α) {P : List α → Prop} (unfinished : ∀ line, sep ∉ line → P line)
    (first : ∀ line rest, sep ∉ line → P rest → P (line ++ sep :: rest)) (stream : List α) : P stream := by
  by_cases h : sep ∈ stream
  · obtain ⟨line, rest, heq, hline⟩ := List.eq_append_cons_of_mem h
    rw [heq]
    exact first line rest hline (lines_induction sep unfinished first rest)
  · exact unfinished stream h
termination_by stream.length
decreasing_by
  rw [heq, List.length_append, List.length_cons]
  omega

/-- Without a line end there is only an unfinished line. -/
theorem lines_of_not_mem (h : sep ∉ line) : completeLines sep line = [] ∧ partialLine sep line = line := by
  simp [completeLines, partialLine, List.splitOn_eq_singleton h]

/-- A line that is ended comes first. -/
theorem lines_cons (h : sep ∉ line) (rest : List α) :
    completeLines sep (line ++ sep :: rest) = line :: completeLines sep rest ∧
      partialLine sep (line ++ sep :: rest) = partialLine sep rest := by
  have hne := List.splitOn_ne_nil sep rest
  simp only [completeLines, partialLine, List.splitOn_append_cons_self_of_not_mem h,
    List.dropLast_cons_of_ne_nil hne, List.getLast_cons hne, and_self]

/-- A stream goes on with the unfinished line of its first part. -/
theorem lines_append (sep : α) (x y : List α) :
    completeLines sep (x ++ y) = completeLines sep x ++ completeLines sep (partialLine sep x ++ y) ∧
      partialLine sep (x ++ y) = partialLine sep (partialLine sep x ++ y) := by
  induction x using lines_induction sep with
  | unfinished line hline =>
    obtain ⟨hcomplete, hpartial⟩ := lines_of_not_mem hline
    simp [hcomplete, hpartial]
  | first line rest hline ih =>
    obtain ⟨hcomplete, hpartial⟩ := lines_cons hline rest
    obtain ⟨hcomplete', hpartial'⟩ := lines_cons hline (rest ++ y)
    rw [List.append_assoc, List.cons_append, hcomplete', hpartial', hcomplete, hpartial, ih.1, ih.2]
    exact ⟨rfl, rfl⟩

/-- An unfinished line has no line end. -/
theorem not_mem_partialLine (sep : α) (stream : List α) : sep ∉ partialLine sep stream := by
  induction stream using lines_induction sep with
  | unfinished line hline =>
    rw [(lines_of_not_mem hline).2]
    exact hline
  | first line rest hline ih =>
    rw [(lines_cons hline rest).2]
    exact ih

/-- A piece of a stream of lines has the first of them complete, and its unfinished line goes on with the others. -/
theorem lines_of_piece (x y : List α) {lines : List (List α)} (hlines : ∀ line ∈ lines, sep ∉ line)
    (h : x ++ y = lines.flatMap (· ++ [sep])) :
    completeLines sep x = lines.take (completeLines sep x).length ∧
      partialLine sep x ++ y = (lines.drop (completeLines sep x).length).flatMap (· ++ [sep]) := by
  induction x using lines_induction sep generalizing lines with
  | unfinished line hline =>
    obtain ⟨hcomplete, hpartial⟩ := lines_of_not_mem hline
    rw [hcomplete, hpartial]
    exact ⟨rfl, h⟩
  | first line rest hline ih =>
    obtain ⟨hcomplete, hpartial⟩ := lines_cons hline rest
    rw [hcomplete, hpartial]
    cases lines with
    | nil => simp at h
    | cons line' lines =>
      have hline' := hlines line' List.mem_cons_self
      rw [List.flatMap_cons, List.append_assoc, List.append_assoc, List.cons_append, List.singleton_append] at h
      obtain rfl : line = line' := by
        have hhead := congrArg (fun stream => (completeLines sep stream).head?) h
        rw [(lines_cons hline _).1, (lines_cons hline' _).1] at hhead
        exact Option.some.inj hhead
      have hrest := (List.cons.inj (List.append_cancel_left h)).2
      obtain ⟨hcomplete', hpartial'⟩ := ih (fun l hl => hlines l (List.mem_cons_of_mem _ hl)) hrest
      refine ⟨?_, ?_⟩
      · rw [List.length_cons, List.take_succ_cons, ← hcomplete']
      · rw [List.length_cons, List.drop_succ_cons, hpartial']

end Base
