import Mathlib.Logic.Relation
import VirtuosoFlow.Plugin.Fingerprint

/-!
# The pre-flight of a simulation

`vfpSimPreflight` says that a cellview is ready if neither it nor the master of one of its instances has
unsaved changes. The netlist is made of the whole hierarchy, and the masters of the masters are not
looked at.
-/

namespace VirtuosoFlow.Plugin

/-- The open cellviews and what the session knows of them. -/
structure OpenCellViews (ι : Type) where
  cellView : ι → SimCellView ι
  /-- `dbIsCellViewModified(cv)`: changed since it was opened or saved. -/
  modified : ι → Bool

/-- What `vfpSimPreflight` returns. -/
structure Preflight where
  ready : Bool
  dirty : Bool
  cellview : String
  fingerprint : String
  reason : String
  deriving DecidableEq

section Dirty

variable {ι : Type} (printer : Printer) (d : OpenCellViews ι) (cv : Option ι) (test : String)

/-- `vfpCvId(cv)`. -/
def vfpCvId : String :=
  match cv with
  | some c => (d.cellView c).libName ++ "/" ++ (d.cellView c).cellName ++ "/" ++ (d.cellView c).viewName
  | none => "(none)"

/-- `vfpCellViewDirty(cv)`. -/
def vfpCellViewDirty : Bool :=
  match cv with
  | some c => d.modified c
  | none => false

/-- `vfpCellViewDirtyHier(cv)`. -/
def vfpCellViewDirtyHier : Bool :=
  vfpCellViewDirty d cv ||
    match cv with
    | some c => (d.cellView c).instances.any fun inst => vfpCellViewDirty d inst.master
    | none => false

/-- `vfpSimPreflight(cv test)`. -/
def vfpSimPreflight : Preflight where
  ready := !vfpCellViewDirtyHier d cv
  dirty := vfpCellViewDirtyHier d cv
  cellview := vfpCvId d cv
  fingerprint := vfpInputsFingerprint printer (cv.map d.cellView) test
  reason :=
    if vfpCellViewDirtyHier d cv then vfpCvId d cv ++ " has unsaved changes; save before netlisting" else ""

end Dirty

section Hierarchy

open Relation

variable {ι : Type} {printer : Printer} {d : OpenCellViews ι} {cv c c' : ι} {test : String}

/-- A cellview is the master of an instance in another one. -/
def OpenCellViews.Below (d : OpenCellViews ι) (c c' : ι) : Prop :=
  ∃ inst ∈ (d.cellView c).instances, inst.master = some c'

/-- A hierarchy is clean if its top and all that is below are saved. -/
theorem dirtyHier_eq_false_iff : vfpCellViewDirtyHier d (some cv) = false ↔
    d.modified cv = false ∧ ∀ c, d.Below cv c → d.modified c = false := by
  rw [vfpCellViewDirtyHier, Bool.or_eq_false_iff]
  refine and_congr_right fun _ => ?_
  constructor
  · rintro hany c ⟨inst, hinst, hmaster⟩
    have hclean := List.any_eq_false.mp hany inst hinst
    rw [hmaster] at hclean
    exact Bool.eq_false_iff.mpr hclean
  · intro hbelow
    refine List.any_eq_false.mpr fun inst hinst => ?_
    cases hmaster : inst.master with
    | none => exact Bool.false_ne_true
    | some c =>
      have hclean : vfpCellViewDirty d (some c) = false := hbelow c ⟨inst, hinst, hmaster⟩
      exact Bool.eq_false_iff.mp hclean

/-- A ready pre-flight is one of a cellview that is saved and whose masters are saved. -/
theorem ready_iff : (vfpSimPreflight printer d (some cv) test).ready = true ↔
    d.modified cv = false ∧ ∀ c, d.Below cv c → d.modified c = false := by
  rw [← dirtyHier_eq_false_iff, vfpSimPreflight, Bool.not_eq_true']

/-- All that is reached is the cellview, the masters of its instances and what is below these. -/
theorem reach_cases (h : ReflTransGen d.Below cv c) :
    c = cv ∨ d.Below cv c ∨ ∃ m, d.Below cv m ∧ TransGen d.Below m c := by
  rcases ReflTransGen.cases_head h with rfl | ⟨m, hm, hrest⟩
  · exact .inl rfl
  · rcases reflTransGen_iff_eq_or_transGen.mp hrest with rfl | htrans
    · exact .inr (.inl hm)
    · exact .inr (.inr ⟨m, hm, htrans⟩)

/-- Ready means that all that is reached is saved just when the cellview or a master of its instances is
not saved, or everything below these masters is. -/
theorem ready_all_saved_iff (printer : Printer) (d : OpenCellViews ι) (cv : ι) (test : String) :
    ((vfpSimPreflight printer d (some cv) test).ready = true →
      ∀ c, ReflTransGen d.Below cv c → d.modified c = false) ↔
    d.modified cv = true ∨ (∃ m, d.Below cv m ∧ d.modified m = true) ∨
      ∀ m c, d.Below cv m → TransGen d.Below m c → d.modified c = false := by
  rw [ready_iff]
  constructor
  · intro h
    by_cases htop : d.modified cv = true
    · exact .inl htop
    by_cases hmaster : ∃ m, d.Below cv m ∧ d.modified m = true
    · exact .inr (.inl hmaster)
    refine .inr (.inr fun m c hm hc => ?_)
    have hmasters : ∀ m, d.Below cv m → d.modified m = false :=
      fun m hm => Bool.eq_false_iff.mpr fun hmod => hmaster ⟨m, hm, hmod⟩
    exact h ⟨Bool.eq_false_iff.mpr htop, hmasters⟩ c (.head hm hc.to_reflTransGen)
  · rintro hcond ⟨htop, hmasters⟩ c hc
    rcases hcond with hmod | ⟨m, hm, hmod⟩ | hdeep
    · exact absurd hmod (Bool.eq_false_iff.mp htop)
    · exact absurd hmod (Bool.eq_false_iff.mp (hmasters m hm))
    · rcases reach_cases hc with rfl | hbelow | ⟨m, hm, htrans⟩
      · exact htop
      · exact hmasters c hbelow
      · exact hdeep m c hm htrans

/-- An instance of an open master, without terminals and parameters. -/
def sampleSub (cell : String) (master : Option ℕ) : SimInst ℕ where
  name := "I0"
  libName := "lib"
  cellName := cell
  viewName := "symbol"
  master := master
  prop := []
  instTerms := []
  distinctProps := List.nodup_nil
  distinctTerms := List.nodup_nil
  namedNets := by simp

/-- A bench with an amplifier with a bias cell, the bias cell being changed and not saved. -/
def sampleHierarchy : OpenCellViews ℕ where
  cellView
    | 0 => ⟨"lib", "bench", "schematic", [sampleSub "amp" (some 1)]⟩
    | 1 => ⟨"lib", "amp", "schematic", [sampleSub "bias" (some 2)]⟩
    | _ => ⟨"lib", "bias", "schematic", []⟩
  modified c := c == 2

example : (vfpSimPreflight .sample sampleHierarchy (some 1) "tran").reason =
    "lib/amp/schematic has unsaved changes; save before netlisting" := by decide

/-- The pre-flight of the bench is ready, two levels above the change. -/
theorem deep_change_unseen :
    ¬((vfpSimPreflight .sample sampleHierarchy (some 0) "tran").ready = true →
      ∀ c, ReflTransGen sampleHierarchy.Below 0 c → sampleHierarchy.modified c = false) := by
  intro h
  have hamp : sampleHierarchy.Below 0 1 := ⟨_, List.mem_cons_self, rfl⟩
  have hbias : sampleHierarchy.Below 1 2 := ⟨_, List.mem_cons_self, rfl⟩
  have hready : (vfpSimPreflight .sample sampleHierarchy (some 0) "tran").ready = true := by decide
  exact absurd (h hready 2 (.head hamp (.single hbias))) (by decide)

end Hierarchy

end VirtuosoFlow.Plugin
