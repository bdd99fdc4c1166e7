import Mathlib.Data.List.DropRight

/-!
# Paths that are joined to a directory

A path text is a list of names between slashes; empty names and dots do not count. Joining it to a
directory starts from there, or from the root if it is absolute, and two dots go up by one. This
file follows such a path to the place it leads to, in a tree without links, and says exactly when
that place lies inside the directory.
-/

namespace Base.Posix

/-- The names on the way from the root to a file or directory. -/
abbrev Place := List (List Char)

/-- The name that leads to the parent. -/
def up : List Char := ['.', '.']

/-- The names of a path text. -/
def components (text : List Char) : List (List Char) :=
  (text.splitOn '/').filter fun name => !(name == [] || name == ['.'])

/-- The path begins at the root. -/
def isAbsolute (text : List Char) : Bool := text.head? == some '/'

/-- One name followed; the root is its own parent. -/
def enter (place : Place) (name : List Char) : Place :=
  if name = up then place.dropLast else place ++ [name]

/-- The names followed in turn. -/
def walk (place : Place) (names : List (List Char)) : Place := names.foldl enter place

/-- Where a path leads that is joined to a directory. -/
def locate (dir : Place) (text : List Char) : Place :=
  walk (if isAbsolute text then [] else dir) (components text)

/-- Two path texts joined: the second as it is if it is absolute, and after one slash otherwise. -/
def join (first rest : List Char) : List Char :=
  if isAbsolute rest then rest
  else if first = [] ∨ first.getLast? = some '/' then first ++ rest
  else first ++ '/' :: rest

/-- The place is the directory or below it. -/
def Inside (dir place : Place) : Prop := dir <+: place

/-- One more name, where so many go up and these follow. -/
def settle (n : ℕ × Place) (name : List Char) : ℕ × Place :=
  if name = up then
    if n.2 = [] then (n.1 + 1, []) else (n.1, n.2.dropLast)
  else (n.1, n.2 ++ [name])

/-- A path without detours: how often it goes up before all else, and the names that follow. -/
def normal (text : List Char) : ℕ × Place := (components text).foldl settle (0, [])

section Walk

variable {dir place : Place} {name text : List Char}

/-- Entering a name from a settled path is settling the name. -/
theorem enter_settle (dir : Place) (n : ℕ × Place) (name : List Char) :
    enter (dir.rdrop n.1 ++ n.2) name = dir.rdrop (settle n name).1 ++ (settle n name).2 := by
  obtain ⟨m, names⟩ := n
  unfold enter settle
  by_cases hup : name = up
  · simp only [if_pos hup]
    by_cases hnames : names = []
    · subst hnames
      simp only [List.append_nil, if_true, List.rdrop, List.dropLast_eq_take, List.length_take, List.take_take]
      congr 1
      omega
    · simp only [if_neg hnames, List.dropLast_append_of_ne_nil hnames]
  · simp only [if_neg hup, List.append_assoc]

/-- So is walking along several names. -/
theorem walk_settle (dir : Place) (n : ℕ × Place) (names : List (List Char)) :
    walk (dir.rdrop n.1 ++ n.2) names =
      dir.rdrop (names.foldl settle n).1 ++ (names.foldl settle n).2 := by
  induction names generalizing n with
  | nil => rfl
  | cons name rest ih =>
    have hstep := ih (settle n name)
    rw [← enter_settle] at hstep
    exact hstep

/-- A path leads where its normal form leads. -/
theorem walk_components (dir : Place) (text : List Char) :
    walk dir (components text) = dir.rdrop (normal text).1 ++ (normal text).2 := by
  have h := walk_settle dir (0, []) (components text)
  rw [List.rdrop_zero, List.append_nil] at h
  exact h

/-- A joined path stays in the directory if it does not go above it, or comes back by the names of
the directory itself; an absolute one has to name the directory from the root. -/
def Stays (dir : Place) (text : List Char) : Prop :=
  if isAbsolute text then dir <+: (normal text).2 else dir.rtake (normal text).1 <+: (normal text).2

instance (dir : Place) (text : List Char) : Decidable (Stays dir text) := by
  unfold Stays
  infer_instance

/-- A path leads into a directory exactly if its names do not leave it. -/
theorem inside_locate_iff (dir : Place) (text : List Char) : Inside dir (locate dir text) ↔ Stays dir text := by
  unfold Inside locate Stays
  rw [walk_components]
  by_cases habsolute : isAbsolute text = true
  · rw [if_pos habsolute, if_pos habsolute, List.rdrop_nil, List.nil_append]
  · rw [if_neg habsolute, if_neg habsolute]
    have hdir : dir.rdrop (normal text).1 ++ dir.rtake (normal text).1 = dir := List.take_append_drop _ _
    calc dir <+: dir.rdrop (normal text).1 ++ (normal text).2
        ↔ dir.rdrop (normal text).1 ++ dir.rtake (normal text).1 <+:
            dir.rdrop (normal text).1 ++ (normal text).2 := by rw [hdir]
      _ ↔ dir.rtake (normal text).1 <+: (normal text).2 := List.prefix_append_right_inj _

/-- A name is a path of its own. -/
def Plain (name : List Char) : Prop := '/' ∉ name ∧ name ≠ [] ∧ name ≠ ['.'] ∧ name ≠ up

/-- A plain name is its only component. -/
theorem components_plain (h : Plain name) : components name = [name] := by
  obtain ⟨hslash, hempty, hdot, -⟩ := h
  have hsplit : name.splitOn '/' = [name] := by
    rw [List.splitOn_eq_splitOnP]
    refine List.splitOnP_eq_singleton fun c hc => ?_
    simp only [beq_eq_false_iff_ne]
    rintro rfl
    exact hslash hc
  simp [components, hsplit, hempty, hdot]

/-- A plain name leads to a child of the directory. -/
theorem locate_plain (dir : Place) (h : Plain name) : locate dir name = dir ++ [name] := by
  have hrelative : ¬ isAbsolute name = true := by
    intro habsolute
    cases name with
    | nil => cases habsolute
    | cons c rest =>
      obtain rfl : c = '/' := by simpa [isAbsolute] using habsolute
      exact h.1 List.mem_cons_self
  rw [locate, if_neg hrelative, components_plain h]
  simp [walk, enter, h.2.2.2]

/-- A plain name stays in its directory. -/
theorem stays_plain (dir : Place) (h : Plain name) : Stays dir name := by
  rw [← inside_locate_iff, locate_plain dir h]
  exact List.prefix_append _ _

/-- Two paths joined by a slash are followed one after the other. -/
theorem components_append (first rest : List Char) :
    components (first ++ '/' :: rest) = components first ++ components rest := by
  unfold components
  rw [List.splitOn_eq_splitOnP, List.splitOn_eq_splitOnP, List.splitOn_eq_splitOnP,
    List.splitOnP_append_cons _ _ (by simp), List.filter_append]

/-- A relative path below another is followed from there. -/
theorem locate_append (dir : Place) {first rest : List Char} (hfirst : first ≠ [])
    (hrest : isAbsolute rest = false) :
    locate dir (first ++ '/' :: rest) = locate (locate dir first) rest := by
  have hsame : isAbsolute (first ++ '/' :: rest) = isAbsolute first := by
    cases first with
    | nil => exact absurd rfl hfirst
    | cons c first => rfl
  rw [locate, locate, locate, hsame, hrest, components_append, walk, List.foldl_append]
  rfl

/-- A path that starts with a plain name is relative. -/
theorem isAbsolute_plain_append (h : Plain name) (rest : List Char) : isAbsolute (name ++ rest) = false := by
  cases name with
  | nil => exact absurd rfl h.2.1
  | cons c name =>
    have hc : c ≠ '/' := by
      rintro rfl
      exact h.1 List.mem_cons_self
    simp [isAbsolute, hc]

/-- A slash at the end of a path leads nowhere else. -/
theorem locate_slash (dir : Place) {first rest : List Char} (hrest : isAbsolute rest = false) :
    locate dir (first ++ '/' :: rest) = locate (locate dir (first ++ ['/'])) rest := by
  have hsame : isAbsolute (first ++ '/' :: rest) = isAbsolute (first ++ ['/']) := by
    cases first with
    | nil => rfl
    | cons c first => rfl
  have hnone : components [] = [] := rfl
  rw [locate, locate, locate, hsame, hrest, components_append, components_append, hnone, List.append_nil,
    walk, List.foldl_append]
  rfl

/-- A joined path is followed from where the first part leads. -/
theorem locate_join (dir : Place) {first rest : List Char} (hfirst : first ≠ [])
    (hrest : isAbsolute rest = false) : locate dir (join first rest) = locate (locate dir first) rest := by
  rw [join, if_neg (by simp [hrest])]
  by_cases hslash : first = [] ∨ first.getLast? = some '/'
  · rw [if_pos hslash]
    obtain ⟨before, rfl⟩ := List.getLast?_eq_some_iff.mp (hslash.resolve_left hfirst)
    rw [List.append_assoc]
    exact locate_slash dir hrest
  · rw [if_neg hslash]
    exact locate_append dir hfirst hrest

end Walk

end Base.Posix
