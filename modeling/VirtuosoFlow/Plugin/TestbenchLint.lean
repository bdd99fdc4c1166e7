import VirtuosoFlow.Plugin.AutoRenames
import VirtuosoFlow.Plugin.Preflight
import VirtuosoFlow.Base.Keyed

/-!
# Hazards in a schematic

`vfpLintTestbench` reports the terminals that are connected to nothing else, and `vfpConnectivityRisks` the nets
with terminals whose names are automatic and pinned by no label. Both are compared with what the cellview
connects.
-/

namespace VirtuosoFlow.Plugin

open Base

section CellViews

/-- A figure of a net: whether it is a wire label, and whether its children are. -/
structure NetFig where
  isWireLabel : Bool
  children : List Bool

/-- A net of an open cellview. -/
structure SchNet where
  name : String
  figs : List NetFig

/-- A terminal of an open cellview. -/
structure SchTerminal where
  name : String
  direction : Value
  net : Option String

/-- An instance with the parameters that `cdfGetInstCDF` gives. -/
structure SchInst (ι : Type) extends SimInst ι where
  cdf : Option (List (String × Value))
  distinctCdf : ((cdf.getD []).map Prod.fst).Nodup

/-- An open schematic. Its instances, nets and terminals have names of their own. -/
structure SchCellView (ι : Type) where
  libName : String
  cellName : String
  viewName : String
  instances : List (SchInst ι)
  nets : List SchNet
  terminals : List SchTerminal
  distinctInsts : (instances.map fun inst => inst.name).Nodup
  distinctNets : (nets.map SchNet.name).Nodup
  distinctTerminals : (terminals.map SchTerminal.name).Nodup
  knownNets : ∀ inst ∈ instances, ∀ it ∈ inst.instTerms, ∀ name, it.2 = some name → ∃ net ∈ nets, net.name = name

/-- The open cellviews, and the one that each window edits. -/
structure SchSession (ι : Type) where
  cellView : ι → SchCellView ι
  modified : ι → Bool
  /-- `hiGetCurrentWindow()->editCellView`. -/
  current : Option ι
  /-- The same for each window of `hiGetWindowList()`. -/
  windows : List (Option ι)

variable {ι : Type}

/-- What the pre-flight reads of a cellview. -/
def SchCellView.sim (cv : SchCellView ι) : SimCellView ι :=
  ⟨cv.libName, cv.cellName, cv.viewName, cv.instances.map SchInst.toSimInst⟩

/-- What the pre-flight reads of the session. -/
def SchSession.views (s : SchSession ι) : OpenCellViews ι := ⟨fun c => (s.cellView c).sim, s.modified⟩

/-- `vfpGetCurrentCellView()`. -/
def vfpGetCurrentCellView (s : SchSession ι) : Option ι := s.current.or (s.windows.findSome? id)

/-- `vfpSnapshotConnectivity(cv)`. -/
def vfpSnapshotConnectivity (s : SchSession ι) (c : ι) : ConnSnapshot where
  cellview := vfpCvId s.views (some c)
  instances := (s.cellView c).instances.map fun inst => ⟨inst.name, vfpCvId s.views inst.master, inst.instTerms⟩
  namedNets := ((s.cellView c).nets.map SchNet.name).filter (!vfpAutoNetP ·)
  autoNets := ((s.cellView c).nets.map SchNet.name).filter (vfpAutoNetP ·)

end CellViews

section Risks

variable {ι : Type}

/-- `vfpNetLabeledP(net)`. -/
def vfpNetLabeledP : Option SchNet → Bool
  | some net => net.figs.any fun f => f.isWireLabel || f.children.any id
  | none => false

/-- `vfpConnectivityRisks(cv)`: the nets, each with its terminals. -/
def vfpConnectivityRisks (s : SchSession ι) (c : ι) : List (String × List String) :=
  ((vfpConnNetMembers (vfpSnapshotConnectivity s c)).filter fun e =>
    vfpAutoNetP e.1 && !vfpNetLabeledP ((s.cellView c).nets.find? fun net => net.name = e.1)).map
      fun e => (e.1, e.2.reverse)

/-- The instance terminals on a net, as they are written. -/
def SchCellView.pinsOn (cv : SchCellView ι) (net : String) : List String :=
  cv.instances.flatMap fun inst =>
    (inst.instTerms.filter fun it => it.2 = some net).map fun it => instTerm inst.name it.1

/-- A net that another run of the schematic checker may rename: it has an automatic name and no label. -/
def SchCellView.Unpinned (cv : SchCellView ι) (name : String) : Prop :=
  vfpAutoNetP name = true ∧ ∀ net ∈ cv.nets, net.name = name →
    ∀ f ∈ net.figs, f.isWireLabel = false ∧ true ∉ f.children

/-- The terminals on a net, in the snapshot and in the cellview. -/
theorem termsOn_snapshot (s : SchSession ι) (c : ι) (net : String) :
    termsOn (vfpSnapshotConnectivity s c) net = (s.cellView c).pinsOn net := by
  unfold termsOn SchCellView.pinsOn vfpSnapshotConnectivity
  rw [List.flatMap_map]

/-- The label check looks at the one net of the name. -/
theorem labeledP_eq_false_iff (cv : SchCellView ι) (name : String) :
    vfpNetLabeledP (cv.nets.find? fun net => net.name = name) = false ↔
      ∀ net ∈ cv.nets, net.name = name → ∀ f ∈ net.figs, f.isWireLabel = false ∧ true ∉ f.children := by
  have hunlabeled : ∀ net : SchNet, vfpNetLabeledP (some net) = false ↔
      ∀ f ∈ net.figs, f.isWireLabel = false ∧ true ∉ f.children := by
    intro net
    simp [vfpNetLabeledP]
  cases hfind : cv.nets.find? fun net => net.name = name with
  | none =>
    refine ⟨fun _ net hnet hname => ?_, fun _ => rfl⟩
    exact absurd hname (of_decide_eq_false (by simpa using List.find?_eq_none.mp hfind net hnet))
  | some found =>
    have hname : found.name = name := by simpa using List.find?_some hfind
    rw [hunlabeled]
    refine ⟨fun h net hnet heq => ?_, fun h => h found (List.mem_of_find?_eq_some hfind) hname⟩
    rw [eq_of_key cv.distinctNets hnet (List.mem_of_find?_eq_some hfind) (heq.trans hname.symm)]
    exact h

/-- The risks are the nets without a pinned name that connect terminals, each with these. -/
theorem mem_vfpConnectivityRisks_iff {s : SchSession ι} {c : ι} {net : String} {pins : List String} :
    (net, pins) ∈ vfpConnectivityRisks s c ↔
      (s.cellView c).Unpinned net ∧ pins = (s.cellView c).pinsOn net ∧ pins ≠ [] := by
  have hnodup : ((vfpConnNetMembers (vfpSnapshotConnectivity s c)).map Prod.fst).Nodup :=
    nodup_foldl_addMember _ [] List.nodup_nil
  have hmem : ∀ name members, (name, members) ∈ vfpConnNetMembers (vfpSnapshotConnectivity s c) ↔
      (s.cellView c).pinsOn name ≠ [] ∧ members = ((s.cellView c).pinsOn name).reverse := by
    intro name members
    have hentry := Dict.mem_entries_iff (d := ⟨vfpConnNetMembers (vfpSnapshotConnectivity s c), hnodup⟩)
      (k := name) (v := members)
    have hlookup := lookup_netMembers (vfpSnapshotConnectivity s c) name
    rw [termsOn_snapshot] at hlookup
    rw [hentry, Dict.get?, hlookup]
    split
    · rename_i hempty
      simp [hempty]
    · rename_i hne
      simp [hne, eq_comm]
  rw [vfpConnectivityRisks, List.mem_map, SchCellView.Unpinned, ← labeledP_eq_false_iff]
  constructor
  · rintro ⟨⟨name, members⟩, he, heq⟩
    obtain ⟨hmember, hrisk⟩ := List.mem_filter.mp he
    obtain ⟨rfl, rfl⟩ := Prod.mk.inj heq
    obtain ⟨hne, rfl⟩ := (hmem _ _).mp hmember
    simp only [Bool.and_eq_true, Bool.not_eq_true'] at hrisk
    exact ⟨hrisk, List.reverse_reverse _, by simpa using hne⟩
  · rintro ⟨hrisk, rfl, hne⟩
    refine ⟨(net, ((s.cellView c).pinsOn net).reverse), List.mem_filter.mpr ⟨(hmem _ _).mpr ⟨hne, rfl⟩, ?_⟩, ?_⟩
    · simp only [Bool.and_eq_true, Bool.not_eq_true']
      exact hrisk
    · rw [List.reverse_reverse]

end Risks

section Lint

variable {ι : Type}

/-- What `~>` gives for a relation: `nil`, an object for one alone, or a list. -/
inductive Slot (α : Type) where
  | nil
  | one (a : α)
  | many (as : List α)

/-- The value of a relation with these members. -/
def Slot.of {α : Type} : List α → Slot α
  | [] => .nil
  | [a] => .one a
  | as => .many as

/-- `vfpSeqCount(x)`. -/
def vfpSeqCount {α : Type} : Slot α → ℕ
  | .nil => 0
  | .one _ => 1
  | .many as => as.length

/-- The count of a list is its length. -/
@[simp] theorem vfpSeqCount_of {α : Type} (as : List α) : vfpSeqCount (.of as) = as.length := by
  match as with
  | [] => rfl
  | [_] => rfl
  | _ :: _ :: _ => rfl

/-- `vfpSourceCellP(cellName)`. -/
def vfpSourceCellP (cellName : String) : Bool :=
  ["vsource", "isource", "vdc", "idc", "vsin", "isin", "vpulse", "ipulse", "vpwl", "ipwl", "vexp", "iexp", "vsffm",
    "port", "vcvs", "vccs", "cccs", "ccvs"].contains cellName

/-- `net~>instTerms`, each with the name of its instance. -/
def SchCellView.instTermsOf (cv : SchCellView ι) (net : String) : List (String × String) :=
  cv.instances.flatMap fun inst => (inst.instTerms.filter fun it => it.2 = some net).map fun it => (inst.name, it.1)

/-- `net~>term`. -/
def SchCellView.termsOf (cv : SchCellView ι) (net : String) : List SchTerminal :=
  cv.terminals.filter fun term => term.net = some net

/-- `vfpNetConnCount(net)`. -/
def vfpNetConnCount (cv : SchCellView ι) : Option SchNet → ℕ
  | some net => vfpSeqCount (.of (cv.instTermsOf net.name)) + vfpSeqCount (.of (cv.termsOf net.name))
  | none => 0

/-- `vfpInstTermNet(inst termName)`. -/
def vfpInstTermNet (cv : SchCellView ι) (inst : SchInst ι) (termName : String) : Option SchNet := do
  let it ← inst.instTerms.find? fun it => it.1 = termName
  let name ← it.2
  cv.nets.find? fun net => net.name = name

/-- What is reported. -/
inductive LintKind where
  | danglingSource
  | floatingTerm
  deriving DecidableEq

/-- A record of `vfpLintTestbench`. -/
structure LintIssue where
  kind : LintKind
  subject : String
  net : Option String
  deriving DecidableEq

/-- What is reported on a terminal of the master of an instance. -/
def lintTerm (cv : SchCellView ι) (isSrc : Bool) (inst : SchInst ι) (tname : String) : Option LintIssue :=
  let net := vfpInstTermNet cv inst tname
  if vfpNetConnCount cv net ≤ 1 then
    some ⟨if isSrc then .danglingSource else .floatingTerm, instTerm inst.name tname, net.map SchNet.name⟩
  else none

/-- What is reported on an instance; without an open master there is no terminal to look at. -/
def lintInst (s : SchSession ι) (cv : SchCellView ι) (inst : SchInst ι) : List LintIssue :=
  match inst.master with
  | some m =>
    ((s.cellView m).terminals.map SchTerminal.name).filterMap
      (lintTerm cv (vfpSourceCellP (s.cellView m).cellName) inst)
  | none => []

/-- `vfpLintTestbench(cv)`. -/
def vfpLintTestbench (s : SchSession ι) (c : ι) : List LintIssue :=
  (s.cellView c).instances.flatMap (lintInst s (s.cellView c))

end Lint

section Connections

variable {ι : Type}

/-- What a net connects: terminals of instances, and terminals of the cellview. -/
inductive ConnPoint where
  | pin (inst term : String)
  | port (name : String)

/-- A point is on a net. -/
def SchCellView.On (cv : SchCellView ι) (net : String) : ConnPoint → Prop
  | .pin inst term => ∃ i ∈ cv.instances, i.name = inst ∧ (term, some net) ∈ i.instTerms
  | .port name => ∃ t ∈ cv.terminals, t.name = name ∧ t.net = some net

/-- A terminal that no net connects with another point. -/
def SchCellView.Dangling (cv : SchCellView ι) (inst term : String) : Prop :=
  ∀ net, cv.On net (.pin inst term) → ∀ p, cv.On net p → p = .pin inst term

/-- The points on a net. -/
def SchCellView.points (cv : SchCellView ι) (net : String) : List ConnPoint :=
  ((cv.instTermsOf net).map fun it => .pin it.1 it.2) ++ (cv.termsOf net).map fun t => .port t.name

variable {cv : SchCellView ι} {inst : SchInst ι} {net term : String} {p : ConnPoint}

/-- The points of a net are what is on it. -/
theorem mem_points_iff : p ∈ cv.points net ↔ cv.On net p := by
  unfold SchCellView.points SchCellView.instTermsOf SchCellView.termsOf
  cases p with
  | pin i t =>
    simp only [List.mem_append, List.mem_map, List.mem_flatMap, List.mem_filter, decide_eq_true_eq]
    constructor
    · rintro (⟨_, ⟨inst, hinst, it, ⟨hit, hnet⟩, rfl⟩, heq⟩ | ⟨_, _, heq⟩)
      · obtain ⟨rfl, rfl⟩ := ConnPoint.pin.inj heq
        refine ⟨inst, hinst, rfl, ?_⟩
        rw [← hnet]
        exact hit
      · cases heq
    · rintro ⟨inst, hinst, rfl, hit⟩
      exact .inl ⟨_, ⟨inst, hinst, _, ⟨hit, rfl⟩, rfl⟩, rfl⟩
  | port n =>
    simp only [List.mem_append, List.mem_map, List.mem_filter, decide_eq_true_eq]
    constructor
    · rintro (⟨_, _, heq⟩ | ⟨t, ⟨ht, hnet⟩, heq⟩)
      · cases heq
      · exact ⟨t, ht, ConnPoint.port.inj heq, hnet⟩
    · rintro ⟨t, ht, rfl, hnet⟩
      exact .inr ⟨t, ⟨ht, hnet⟩, rfl⟩

/-- Each point is on a net once. -/
theorem nodup_points (cv : SchCellView ι) (net : String) : (cv.points net).Nodup := by
  have hpins : (cv.instTermsOf net).Nodup := by
    refine List.nodup_flatMap.mpr ⟨fun inst _ => ?_, ?_⟩
    · have hterms : ((inst.instTerms.filter fun it => it.2 = some net).map Prod.fst).Nodup :=
        inst.distinctTerms.sublist (List.filter_sublist.map _)
      have hpair : (inst.instTerms.filter fun it => it.2 = some net).map (fun it => (inst.name, it.1)) =
          ((inst.instTerms.filter fun it => it.2 = some net).map Prod.fst).map (Prod.mk inst.name) := by
        rw [List.map_map]
        rfl
      rw [hpair]
      exact hterms.map (Prod.mk_right_injective inst.name)
    · refine (List.pairwise_map.mp cv.distinctInsts).imp fun hne it hfirst hsecond => ?_
      obtain ⟨_, _, rfl⟩ := List.mem_map.mp hfirst
      obtain ⟨_, _, heq⟩ := List.mem_map.mp hsecond
      exact hne (Prod.mk.inj heq).1.symm
  have hports : ((cv.termsOf net).map SchTerminal.name).Nodup :=
    cv.distinctTerminals.sublist (List.filter_sublist.map _)
  refine List.Nodup.append ?_ ?_ ?_
  · refine hpins.map fun it it' heq => ?_
    obtain ⟨hinst, hterm⟩ := ConnPoint.pin.inj heq
    exact Prod.ext hinst hterm
  · rw [← Function.comp_def, ← List.map_map]
    exact hports.map fun _ _ => ConnPoint.port.inj
  · rintro p hpin hport
    obtain ⟨_, _, rfl⟩ := List.mem_map.mp hpin
    obtain ⟨_, _, heq⟩ := List.mem_map.mp hport
    cases heq

/-- There are as many as are counted. -/
theorem length_points (cv : SchCellView ι) (net : SchNet) :
    (cv.points net.name).length = vfpNetConnCount cv (some net) := by
  simp [SchCellView.points, vfpNetConnCount]

/-- The net of a terminal of an instance is the net that it is on. -/
theorem vfpInstTermNet_eq_some_iff (hinst : inst ∈ cv.instances) :
    (vfpInstTermNet cv inst term).map SchNet.name = some net ↔ cv.On net (.pin inst.name term) := by
  have hkey : ∀ it ∈ inst.instTerms, (inst.instTerms.find? fun x => x.1 = it.1) = some it :=
    fun it hit => find?_key inst.distinctTerms hit
  constructor
  · intro h
    obtain ⟨found, hfound, rfl⟩ := Option.map_eq_some_iff.mp h
    obtain ⟨⟨t, on⟩, hit, hrest⟩ := Option.bind_eq_some_iff.mp hfound
    obtain ⟨name, hname, hnet⟩ := Option.bind_eq_some_iff.mp hrest
    obtain rfl : t = term := by simpa using List.find?_some hit
    have hfoundName : found.name = name := by simpa using List.find?_some hnet
    refine ⟨inst, hinst, rfl, ?_⟩
    rw [hfoundName, ← hname]
    exact List.mem_of_find?_eq_some hit
  · rintro ⟨i, hi, hname, hit⟩
    have heq := @eq_of_key _ _ _ (fun inst : SchInst ι => inst.name) _ _ _ cv.distinctInsts hi hinst hname
    subst heq
    obtain ⟨found, hfound, rfl⟩ := cv.knownNets i hi _ hit net rfl
    have hnet : (cv.nets.find? fun x => x.name = found.name) = some found := find?_key cv.distinctNets hfound
    have hterm := hkey _ hit
    simp only at hterm
    simp [vfpInstTermNet, hterm, hnet]

/-- Counting the points on its net tells whether a terminal is connected to anything else. -/
theorem vfpNetConnCount_le_one_iff (hinst : inst ∈ cv.instances) :
    vfpNetConnCount cv (vfpInstTermNet cv inst term) ≤ 1 ↔ cv.Dangling inst.name term := by
  have hon : ∀ name, (vfpInstTermNet cv inst term).map SchNet.name = some name ↔ cv.On name (.pin inst.name term) :=
    fun _ => vfpInstTermNet_eq_some_iff hinst
  cases hnet : vfpInstTermNet cv inst term with
  | none =>
    refine iff_of_true (Nat.zero_le 1) fun name hname => ?_
    have hnone := (hon name).mpr hname
    rw [hnet] at hnone
    cases hnone
  | some found =>
    rw [hnet] at hon
    have hpoint : ConnPoint.pin inst.name term ∈ cv.points found.name := mem_points_iff.mpr ((hon _).mp rfl)
    rw [← length_points]
    constructor
    · intro hone name hname p hp
      obtain rfl : found.name = name := Option.some.inj ((hon name).mpr hname)
      have hmem := mem_points_iff.mpr hp
      obtain ⟨q, hq⟩ := List.length_eq_one_iff.mp (Nat.le_antisymm hone (List.length_pos_of_mem hpoint))
      rw [hq, List.mem_singleton] at hmem hpoint
      rw [hmem, hpoint]
    · intro hdangling
      have hall : ∀ p ∈ cv.points found.name, p = .pin inst.name term := fun p hp =>
        hdangling found.name ((hon _).mp rfl) p (mem_points_iff.mp hp)
      have hreplicate := List.eq_replicate_of_mem hall
      exact List.nodup_replicate.mp (hreplicate ▸ nodup_points cv found.name)

/-- A terminal of the open master of an instance is connected to nothing else, and this is reported on it. -/
def SchSession.Hazard (s : SchSession ι) (c : ι) (issue : LintIssue) : Prop :=
  ∃ inst ∈ (s.cellView c).instances, ∃ m, inst.master = some m ∧ ∃ t ∈ (s.cellView m).terminals,
    (s.cellView c).Dangling inst.name t.name ∧
    issue.kind = (if vfpSourceCellP (s.cellView m).cellName then .danglingSource else .floatingTerm) ∧
    issue.subject = instTerm inst.name t.name ∧
    ∀ net, issue.net = some net ↔ (s.cellView c).On net (.pin inst.name t.name)

/-- The lint reports all hazards and nothing besides. -/
theorem mem_vfpLintTestbench_iff {s : SchSession ι} {c : ι} {issue : LintIssue} :
    issue ∈ vfpLintTestbench s c ↔ s.Hazard c issue := by
  rw [vfpLintTestbench, List.mem_flatMap]
  refine exists_congr fun inst => and_congr_right fun hinst => ?_
  unfold lintInst
  cases hmaster : inst.master with
  | none => simp
  | some m =>
    simp only [Option.some.injEq, exists_eq_left', List.mem_filterMap, List.mem_map, exists_exists_and_eq_and]
    refine exists_congr fun t => and_congr_right fun _ => ?_
    have hnet : ∀ net, (vfpInstTermNet (s.cellView c) inst t.name).map SchNet.name = some net ↔
        (s.cellView c).On net (.pin inst.name t.name) := fun _ => vfpInstTermNet_eq_some_iff hinst
    rw [lintTerm, Option.ite_none_right_eq_some, vfpNetConnCount_le_one_iff hinst]
    refine and_congr_right fun _ => ?_
    constructor
    · intro h
      obtain rfl := Option.some.inj h
      exact ⟨rfl, rfl, hnet⟩
    · rintro ⟨hkind, hsubject, hon⟩
      have hsame : issue.net = (vfpInstTermNet (s.cellView c) inst t.name).map SchNet.name :=
        Option.ext fun net => (hon net).trans (hnet net).symm
      rw [← hkind, ← hsubject, ← hsame]

end Connections

end VirtuosoFlow.Plugin
