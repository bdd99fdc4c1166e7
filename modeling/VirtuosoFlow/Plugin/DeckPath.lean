import VirtuosoFlow.Base.PosixPath
import VirtuosoFlow.Base.Separated
import VirtuosoFlow.Plugin.Servicing

/-!
# Where the deck of a cellview lies

The plugin writes the deck of a cellview into a directory named after it (`vfp_netlist.il`), and the
simulation wrapper derives the same place from the names (`cellview_spectre_job.py`). The names
are put together with two underscores, which may occur in the names themselves.
-/

namespace VirtuosoFlow.Plugin

open Base Base.Posix

/-- A name of a library, a cell or a view. -/
def IsName (name : String) : Prop := name.toList ≠ [] ∧ '/' ∉ name.toList

/-- The names of a cellview. -/
structure CvNames where
  lib : String
  cell : String
  view : String
  lib_ok : IsName lib
  cell_ok : IsName cell
  view_ok : IsName view

/-- Cellviews are the same if their three names are. -/
theorem CvNames.ext_iff {p q : CvNames} :
    p = q ↔ p.lib = q.lib ∧ p.cell = q.cell ∧ p.view = q.view := by
  cases p
  cases q
  simp

/-- The cellview, opened by the plugin. -/
def CvNames.opened (cv : CvNames) : CellViewNames := ⟨some cv.lib, some cv.cell, some cv.view⟩

/-- `"%s__%s__%s"` of the three names. -/
def CvNames.key (cv : CvNames) : String := cv.lib ++ "__" ++ cv.cell ++ "__" ++ cv.view

/-- What the wrapper finds in its environment. -/
structure WrapperEnv where
  /-- `VFP_REUSE_NETLIST`. -/
  reuseNetlist : Option String
  /-- `VFP_NETLIST_DIR`. -/
  netlistDir : Option String
  /-- `os.path.exists`. -/
  pathExists : String → Bool
  runDir : String

/-- `os.path.join(first, rest)`. -/
def pathJoin (first rest : String) : String := String.ofList (join first.toList rest.toList)

/-- The path that `netlist_via_reuse` derives from the names of the cellview. -/
def conventionDeck (env : WrapperEnv) (cv : CvNames) : Option String :=
  match env.netlistDir with
  | some base =>
    if base = "" then none else some (pathJoin (pathJoin (pathJoin base cv.key) "netlist") "input.scs")
  | none => none

/-- `netlist_via_reuse(job)`. -/
def netlistViaReuse (env : WrapperEnv) (cv : CvNames) : Option String :=
  let here (path : String) : Option String := if env.pathExists path then some path else none
  (env.reuseNetlist.bind fun p => if p = "" then none else here p).or
    (((conventionDeck env cv).bind here).or (here (pathJoin env.runDir "input.scs")))

section Keys

variable {p q : CvNames}

/-- The cell and the view, put together. -/
def CvNames.inLib (cv : CvNames) : List Char := separated '_' cv.cell.toList cv.view.toList

/-- The key of a cellview, as the library and what is in it. -/
theorem CvNames.toList_key (cv : CvNames) : cv.key.toList = separated '_' cv.lib.toList cv.inLib := by
  have hsep : "__".toList = ['_', '_'] := by decide
  simp only [CvNames.key, CvNames.inLib, separated, String.toList_append, hsep, List.append_assoc,
    List.cons_append, List.nil_append]

/-- Some underscores belong to a name of one cellview and to a separator of the other. -/
def Shifted (p q : CvNames) : Prop :=
  CutLater '_' p.lib.toList p.inLib q.lib.toList q.inLib ∨
    CutLater '_' q.lib.toList q.inLib p.lib.toList p.inLib ∨
    p.lib = q.lib ∧ (CutLater '_' p.cell.toList p.view.toList q.cell.toList q.view.toList ∨
      CutLater '_' q.cell.toList q.view.toList p.cell.toList p.view.toList)

/-- The names put together are those of another cellview exactly where underscores shift. -/
theorem CvNames.toList_key_eq_iff : p.key.toList = q.key.toList ↔ p = q ∨ Shifted p q := by
  rw [CvNames.toList_key, CvNames.toList_key, separated_eq_iff, CvNames.ext_iff, String.toList_inj]
  constructor
  · rintro (⟨hlib, hrest⟩ | h | h)
    · rcases separated_eq_iff.mp hrest with ⟨hcell, hview⟩ | h | h
      · exact .inl ⟨hlib, String.toList_inj.mp hcell, String.toList_inj.mp hview⟩
      · exact .inr (.inr (.inr ⟨hlib, .inl h⟩))
      · exact .inr (.inr (.inr ⟨hlib, .inr h⟩))
    · exact .inr (.inl h)
    · exact .inr (.inr (.inl h))
  · rintro (⟨hlib, hcell, hview⟩ | h | h | ⟨hlib, h⟩)
    · refine .inl ⟨hlib, ?_⟩
      rw [CvNames.inLib, CvNames.inLib, hcell, hview]
    · exact .inr (.inl h)
    · exact .inr (.inr h)
    · exact .inl ⟨hlib, separated_eq_iff.mpr (.inr h)⟩

/-- A name is not shifted against itself. -/
theorem not_shifted_self (p : CvNames) : ¬ Shifted p p := by
  rintro (h | h | ⟨-, h | h⟩) <;> exact absurd h.length_lt (lt_irrefl _)

/-- No underscores shift where no library and no cell has two in a row, or one at its end. -/
theorem not_shifted_of_single (h : ∀ name ∈ [p.lib, p.cell, q.lib, q.cell],
    ¬ ['_'] <:+ name.toList ∧ ¬ ['_', '_'] <:+: name.toList) : ¬ Shifted p q := by
  have hnot {a r s : List Char} {name : String} (hname : name ∈ [p.lib, p.cell, q.lib, q.cell]) :
      ¬ CutLater '_' a r name.toList s := by
    intro hcut
    rcases hcut.ends_or_doubles with hends | hdoubles
    · exact (h name hname).1 hends
    · exact (h name hname).2 hdoubles
  rintro (hcut | hcut | ⟨-, hcut | hcut⟩) <;> exact hnot (by simp) hcut

/-- The names put together are one name of a directory. -/
theorem plain_key (cv : CvNames) : Plain cv.key.toList := by
  have hunderscore : '_' ∈ cv.key.toList := by
    rw [CvNames.toList_key, separated]
    simp
  refine ⟨?_, ?_, ?_, ?_⟩
  · rw [CvNames.toList_key]
    simp [CvNames.inLib, separated, cv.lib_ok.2, cv.cell_ok.2, cv.view_ok.2]
  all_goals
    intro heq
    rw [heq] at hunderscore
    simp [up] at hunderscore

end Keys

section Paths

variable {p q : CvNames} {base deck : String} {corner : Value} {env : WrapperEnv} {n : Netlister}

/-- Where the deck of a cellview lies. -/
def deckPlace (dir : Place) (base : String) (cv : CvNames) : Place :=
  locate dir base.toList ++ [cv.key.toList] ++ ["netlist".toList] ++ ["input.scs".toList]

/-- The name of the directory of a netlist is plain. -/
theorem plain_netlist : Plain "netlist".toList := by
  refine ⟨?_, ?_, ?_, ?_⟩ <;> decide

/-- So is the name of a deck. -/
theorem plain_input : Plain "input.scs".toList := by
  refine ⟨?_, ?_, ?_, ?_⟩ <;> decide

/-- A plain name is not absolute. -/
theorem isAbsolute_plain {name : List Char} (h : Plain name) : isAbsolute name = false := by
  have happend := isAbsolute_plain_append h []
  rwa [List.append_nil] at happend

/-- The path of a deck that is written. -/
theorem vfpNetlistCellView_ok (h : vfpNetlistCellView n (some p.opened) corner = .ok (.str deck)) :
    deck = n.netlistDir ++ "/" ++ p.lib ++ "__" ++ p.cell ++ "__" ++ p.view ++ "/netlist/input.scs" := by
  unfold vfpNetlistCellView CvNames.opened at h
  dsimp only at h
  split at h
  · split at h
    · split at h
      · split at h
        · split at h
          · obtain ⟨rfl⟩ := h
            rfl
          · cases h
        · cases h
      · cases h
    · cases h
  · cases h

/-- The plugin's path leads there. -/
theorem locate_vfpNetlistCellView (dir : Place) (hbase : n.netlistDir ≠ "")
    (hdeck : vfpNetlistCellView n (some p.opened) corner = .ok (.str deck)) :
    locate dir deck.toList = deckPlace dir n.netlistDir p := by
  have hne : n.netlistDir.toList ≠ [] := by simpa using hbase
  have hslash : "/".toList = ['/'] := by decide
  have hfile : "/netlist/input.scs".toList = '/' :: ("netlist".toList ++ '/' :: "input.scs".toList) := by
    decide
  have hpath : deck.toList = (n.netlistDir.toList ++ '/' :: p.key.toList) ++
      '/' :: ("netlist".toList ++ '/' :: "input.scs".toList) := by
    rw [vfpNetlistCellView_ok hdeck, ← hfile]
    simp only [CvNames.key, String.toList_append, hslash, List.append_assoc, List.cons_append,
      List.nil_append]
  calc locate dir deck.toList
      = locate (locate dir (n.netlistDir.toList ++ '/' :: p.key.toList))
          ("netlist".toList ++ '/' :: "input.scs".toList) := by
        rw [hpath]
        exact locate_append dir (by simp) (isAbsolute_plain_append plain_netlist _)
    _ = locate (locate dir (n.netlistDir.toList ++ '/' :: p.key.toList) ++ ["netlist".toList])
          "input.scs".toList := by
        rw [locate_append _ plain_netlist.2.1 (isAbsolute_plain plain_input),
          locate_plain _ plain_netlist]
    _ = deckPlace dir n.netlistDir p := by
        rw [locate_append dir hne (isAbsolute_plain (plain_key p)), locate_plain _ (plain_key p),
          locate_plain _ plain_input, deckPlace]

/-- A joined plain name is one step further. -/
theorem locate_pathJoin (dir : Place) {first rest : String} (hfirst : first.toList ≠ [])
    (hrest : Plain rest.toList) :
    locate dir (pathJoin first rest).toList = locate dir first.toList ++ [rest.toList] := by
  rw [pathJoin, String.toList_ofList, locate_join dir hfirst (isAbsolute_plain hrest),
    locate_plain _ hrest]

/-- A joined path is not empty. -/
theorem pathJoin_ne_nil (first : String) {rest : String} (h : Plain rest.toList) :
    (pathJoin first rest).toList ≠ [] := by
  rw [pathJoin, String.toList_ofList, join, if_neg (by simp [isAbsolute_plain h])]
  split
  · exact List.append_ne_nil_of_right_ne_nil _ h.2.1
  · simp

/-- The wrapper's path leads there. -/
theorem locate_conventionDeck (dir : Place) (hbase : base ≠ "") (henv : env.netlistDir = some base) :
    ∃ cand, conventionDeck env q = some cand ∧ locate dir cand.toList = deckPlace dir base q := by
  have hne : base.toList ≠ [] := by simpa using hbase
  refine ⟨pathJoin (pathJoin (pathJoin base q.key) "netlist") "input.scs", ?_, ?_⟩
  · simp only [conventionDeck, henv, if_neg hbase]
  · rw [locate_pathJoin dir (pathJoin_ne_nil _ plain_netlist) plain_input,
      locate_pathJoin dir (pathJoin_ne_nil _ (plain_key q)) plain_netlist,
      locate_pathJoin dir hne (plain_key q), deckPlace]

/-- Two decks lie at one place exactly if their keys are the same. -/
theorem deckPlace_eq_iff (dir : Place) :
    deckPlace dir base p = deckPlace dir base q ↔ p.key.toList = q.key.toList := by
  simp [deckPlace]

/-- The plugin's deck of one cellview is where the wrapper looks for the deck of another if and only if
both are the same cellview, exactly when no underscores shift between their names. -/
theorem deck_paths_differ_iff (dir : Place) (hbase : n.netlistDir ≠ "")
    (henv : env.netlistDir = some n.netlistDir)
    (hdeck : vfpNetlistCellView n (some p.opened) corner = .ok (.str deck)) :
    (∃ cand, conventionDeck env q = some cand ∧
        (locate dir deck.toList = locate dir cand.toList ↔ p = q)) ↔
      ¬ Shifted p q := by
  obtain ⟨cand, hcand, hplace⟩ := locate_conventionDeck (q := q) dir hbase henv
  have hsame : locate dir deck.toList = locate dir cand.toList ↔ p = q ∨ Shifted p q := by
    rw [locate_vfpNetlistCellView dir hbase hdeck, hplace, deckPlace_eq_iff, CvNames.toList_key_eq_iff]
  constructor
  · rintro ⟨cand', hcand', hiff⟩ hshifted
    obtain rfl : cand = cand' := Option.some.inj (hcand.symm.trans hcand')
    obtain rfl : p = q := hiff.mp (hsame.mpr (.inr hshifted))
    exact not_shifted_self p hshifted
  · intro hnot
    refine ⟨cand, hcand, ?_⟩
    rw [hsame]
    exact or_iff_left hnot

end Paths

/-- A cellview of the library `a`. -/
def cellOfA : CvNames where
  lib := "a"
  cell := "b__c"
  view := "v"
  lib_ok := ⟨by decide, by decide⟩
  cell_ok := ⟨by decide, by decide⟩
  view_ok := ⟨by decide, by decide⟩

/-- A cellview of the library `a__b`. -/
def cellOfAB : CvNames where
  lib := "a__b"
  cell := "c"
  view := "v"
  lib_ok := ⟨by decide, by decide⟩
  cell_ok := ⟨by decide, by decide⟩
  view_ok := ⟨by decide, by decide⟩

/-- A wrapper with the same directory of decks, whose files are all there. -/
def WrapperEnv.sample : WrapperEnv := ⟨none, some "/tmp/vfp_netlist", fun _ => true, "/run"⟩

/-- The deck of one cellview, by the convention and as it is found. -/
theorem deck_paths_differ_iff_sample : ∃ cand, conventionDeck .sample cellOfA = some cand ∧
    (locate [] "/tmp/vfp_netlist/a__b__c__v/netlist/input.scs".toList = locate [] cand.toList ↔
      cellOfA = cellOfA) := by
  have hdeck : vfpNetlistCellView .sample (some cellOfA.opened) .nil =
      .ok (.str "/tmp/vfp_netlist/a__b__c__v/netlist/input.scs") := by
    rfl
  exact (deck_paths_differ_iff [] (by decide) rfl hdeck).mpr (not_shifted_self cellOfA)

/-- The plugin writes the deck of one cell into the file that the wrapper simulates for another. -/
theorem decks_collide : cellOfAB ≠ cellOfA ∧ ∃ deck,
    vfpNetlistCellView .sample (some cellOfAB.opened) (.str "Nominal") = .ok (.str deck) ∧
      netlistViaReuse .sample cellOfA = some deck := by
  refine ⟨?_, "/tmp/vfp_netlist/a__b__c__v/netlist/input.scs", by rfl, by decide⟩
  rw [Ne, CvNames.ext_iff]
  rintro ⟨hlib, -⟩
  exact absurd hlib (by decide)

end VirtuosoFlow.Plugin
