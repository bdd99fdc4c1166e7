import VirtuosoFlow.Plugin.CallText
import VirtuosoFlow.Tunnel.Requests

/-!
# Names spliced into SKILL texts

`vcli_backend` of `delegated_netlist.py` and the buttons of `vfpShowProposal` put names between
quotes into a text that SKILL evaluates, without escaping them. The cellview of a job and the id of a
proposal come from the tunnel's clients.
-/

namespace VirtuosoFlow.Plugin

open CallText

section Texts

/-- The text that `vcli_backend(lib, cell, view, corner)` hands to `vcli`. -/
def vcliSkill (skillDir lib cell view corner : String) : String :=
  "progn( " ++
    ("load(\"" ++ skillDir ++ "/vfp_utils.il\") ") ++
    ("load(\"" ++ skillDir ++ "/vfp_netlist.il\") ") ++
    ("vfpNetlistCellView(dbOpenCellViewByType(" ++
      ("\"" ++ lib ++ "\" \"" ++ cell ++ "\" \"" ++ view ++ "\" \"\" \"r\") ")) ++
    ("?corner \"" ++ corner ++ "\") )")

/-- The callback of the button Approve. -/
def approveCallback (pid : String) : String := "vfpApproveProposal(\"" ++ pid ++ "\")"

/-- The callback of the button Reject. -/
def rejectCallback (pid : String) : String := "vfpRejectProposal(\"" ++ pid ++ "\")"

/-- The callback of the button Apply. -/
def applyCallback (pid : String) : String := "vfpApplyProposal(\"" ++ pid ++ "\")"

end Texts

section Meant

/-- A call on one string. -/
def callOn (fn s : String) : Exprs := .call fn.toList (.str s.toList .nil) .nil

/-- The call that the text of `vcli_backend` is meant to be. -/
def netlistCall (skillDir lib cell view corner : String) : Exprs :=
  .call "progn".toList
    (.call "load".toList (.str (skillDir ++ "/vfp_utils.il").toList .nil)
      (.call "load".toList (.str (skillDir ++ "/vfp_netlist.il").toList .nil)
        (.call "vfpNetlistCellView".toList
          (.call "dbOpenCellViewByType".toList
            (.str lib.toList (.str cell.toList (.str view.toList (.str [] (.str "r".toList .nil)))))
            (.key "corner".toList (.str corner.toList .nil)))
          .nil)))
    .nil

/-- The blanks that the templates put around the arguments of a function. -/
def padding (fn : List Char) : List Char := if fn = "progn".toList then [' '] else []

/-- The padding of a call is blank. -/
theorem padding_blank (fn : List Char) : ∀ c ∈ padding fn, isBlank c = true := by
  unfold padding
  split
  · simp [isBlank]
  · simp

/-- The expression is a call of the netlister, spelled with its padding. -/
theorem vcliSkill_eq (skillDir lib cell view corner : String) :
    (vcliSkill skillDir lib cell view corner).toList =
      spell padding (netlistCall skillDir lib cell view corner) := by
  simp [vcliSkill, netlistCall, spell, gap, padding]

/-- A call with one string, as it is spelled. -/
theorem callOn_eq {fn : String} (h : fn.toList ≠ "progn".toList) (s : String) :
    spell padding (callOn fn s) = fn.toList ++ '(' :: '"' :: (s.toList ++ ['"', ')']) := by
  have hpad : padding fn.toList = [] := if_neg h
  simp [callOn, spell, gap, hpad]

/-- The callback of approving is such a call. -/
theorem approveCallback_eq (pid : String) :
    (approveCallback pid).toList = spell padding (callOn "vfpApproveProposal" pid) := by
  have hne : "vfpApproveProposal".toList ≠ "progn".toList := by simp
  rw [callOn_eq hne]
  unfold approveCallback
  rw [String.toList_append, String.toList_append]
  simp

/-- So is that of rejecting. -/
theorem rejectCallback_eq (pid : String) :
    (rejectCallback pid).toList = spell padding (callOn "vfpRejectProposal" pid) := by
  have hne : "vfpRejectProposal".toList ≠ "progn".toList := by simp
  rw [callOn_eq hne]
  unfold rejectCallback
  rw [String.toList_append, String.toList_append]
  simp

/-- So is that of applying. -/
theorem applyCallback_eq (pid : String) :
    (applyCallback pid).toList = spell padding (callOn "vfpApplyProposal" pid) := by
  have hne : "vfpApplyProposal".toList ≠ "progn".toList := by simp
  rw [callOn_eq hne]
  unfold applyCallback
  rw [String.toList_append, String.toList_append]
  simp

end Meant

section Spliced

/-- A string that is spliced into a text unchanged. -/
def Spliceable (s : String) : Prop := '"' ∉ s.toList ∧ '\\' ∉ s.toList

instance (s : String) : Decidable (Spliceable s) := inferInstanceAs (Decidable (_ ∧ _))

/-- It is read as that call exactly if its text can be spliced. -/
theorem readText_callOn {text : List Char} {fn s : String} (htext : text = spell padding (callOn fn s))
    (hname : fn.toList.all isNameChar = true) (hne : fn.toList ≠ []) :
    readText text = some (callOn fn s) ↔ Spliceable s := by
  have hnamed : (callOn fn s).Named := ⟨isIdentifier_of_all hne hname, trivial, trivial⟩
  rw [htext, callOn, readText_spell padding_blank hnamed]
  exact and_iff_left trivial

/-- The call of the netlister is read as such exactly if its texts can be spliced. -/
theorem readText_vcliSkill (skillDir lib cell view corner : String) :
    readText (vcliSkill skillDir lib cell view corner).toList =
        some (netlistCall skillDir lib cell view corner) ↔
      Spliceable skillDir ∧ Spliceable lib ∧ Spliceable cell ∧ Spliceable view ∧ Spliceable corner := by
  have hload : IsIdentifier "load".toList := isIdentifier_of_all (by decide) rfl
  have hopen : IsIdentifier "dbOpenCellViewByType".toList := isIdentifier_of_all (by decide) rfl
  have hnetlist : IsIdentifier "vfpNetlistCellView".toList := isIdentifier_of_all (by decide) rfl
  have hcorner : IsIdentifier "corner".toList := isIdentifier_of_all (by decide) rfl
  have hnamed : (netlistCall skillDir lib cell view corner).Named :=
    ⟨isIdentifier_of_all (by decide) rfl,
      ⟨hload, trivial, hload, trivial, hnetlist, ⟨hopen, trivial, hcorner, trivial⟩, trivial⟩, trivial⟩
  have hdir : ∀ file : String, Spliceable file →
      (Quotable (skillDir ++ file).toList ↔ Spliceable skillDir) := by
    intro file hfile
    simp [Quotable, Spliceable, hfile.1, hfile.2]
  rw [vcliSkill_eq, netlistCall, readText_spell padding_blank hnamed]
  simp only [Exprs.Quotable, hdir "/vfp_utils.il" (by decide), hdir "/vfp_netlist.il" (by decide)]
  have hfixed : Quotable [] ∧ Quotable "r".toList := by simp [Quotable]
  simp only [hfixed.1, hfixed.2, and_true]
  constructor
  · rintro ⟨hskill, -, ⟨hlib, hcell, hview⟩, hcorner⟩
    exact ⟨hskill, hlib, hcell, hview, hcorner⟩
  · rintro ⟨hskill, hlib, hcell, hview, hcorner⟩
    exact ⟨hskill, hskill, ⟨hlib, hcell, hview⟩, hcorner⟩

/-- The texts are read as the single calls that were meant, on the names as they are, exactly when no name
holds a quote or a backslash, and the configured directory does not either. -/
theorem names_spliced_iff (skillDir lib cell view corner pid : String) :
    (readText (vcliSkill skillDir lib cell view corner).toList =
        some (netlistCall skillDir lib cell view corner) ↔
      Spliceable skillDir ∧ Spliceable lib ∧ Spliceable cell ∧ Spliceable view ∧ Spliceable corner) ∧
    (readText (approveCallback pid).toList = some (callOn "vfpApproveProposal" pid) ↔ Spliceable pid) ∧
    (readText (rejectCallback pid).toList = some (callOn "vfpRejectProposal" pid) ↔ Spliceable pid) ∧
    (readText (applyCallback pid).toList = some (callOn "vfpApplyProposal" pid) ↔ Spliceable pid) := by
  refine ⟨readText_vcliSkill skillDir lib cell view corner, ?_, ?_, ?_⟩
  · exact readText_callOn (approveCallback_eq pid) rfl (by decide)
  · exact readText_callOn (rejectCallback_eq pid) rfl (by decide)
  · exact readText_callOn (applyCallback_eq pid) rfl (by decide)

/-- The tunnel accepts an id that ends the string. -/
theorem injected_accepted : ((Tunnel.mProposalCreate .sample [("proposal", .obj
    [("proposal_id", .str "p_1\") load(\"x")])]).exec (Tunnel.Tunnel.fresh .empty)).1.isOk = true := by
  rfl

/-- SKILL then reads two calls. -/
theorem injected_read : readText "vfpApproveProposal(\"p_1\") load(\"x\")".toList =
    some (.call "vfpApproveProposal".toList (.str "p_1".toList .nil)
      (.call "load".toList (.str "x".toList .nil) .nil)) := by
  rfl

/-- The tunnel takes a proposal whose callback calls another function behind the one that was meant. -/
theorem callback_injected :
    ((Tunnel.mProposalCreate .sample [("proposal", .obj [("proposal_id", .str "p_1\") load(\"x")])]).exec
      (Tunnel.Tunnel.fresh .empty)).1.isOk = true ∧
    readText (approveCallback "p_1\") load(\"x").toList =
      some (.call "vfpApproveProposal".toList (.str "p_1".toList .nil)
        (.call "load".toList (.str "x".toList .nil) .nil)) ∧
    readText (approveCallback "p_1\") load(\"x").toList ≠
      some (callOn "vfpApproveProposal" "p_1\") load(\"x") := by
  have htext : approveCallback "p_1\") load(\"x" = "vfpApproveProposal(\"p_1\") load(\"x\")" := by
    decide
  rw [htext, injected_read]
  refine ⟨injected_accepted, rfl, fun heq => ?_⟩
  obtain ⟨-, -, hmore⟩ := Exprs.call.inj (Option.some.inj heq)
  cases hmore

end Spliced

end VirtuosoFlow.Plugin
