import VirtuosoFlow.Plugin.AutoRenames

/-!
# The comparison of a layout with its schematic

`vfpLayoutVsSchematic` compares the two views terminal by terminal: the terminals that share its net among
those that both views have. Names of nets do not count, so what is compared is how the nets part the
common terminals.
-/

namespace VirtuosoFlow.Plugin

open Base

section Definitions

/-- `parseString(text sep)`: what stands between separators, without the empty texts. -/
def parseString (text : String) (sep : Char) : List String :=
  ((text.toList.splitOn sep).filter fun token => !token.isEmpty).map String.ofList

/-- `vfpLvsInstOf(instTerm)`. -/
def vfpLvsInstOf (instTerm : String) : Option String := (parseString instTerm '.').head?

/-- `vfpLvsPinCellP(cellName)`. -/
def vfpLvsPinCellP (cellName : Option String) : Bool :=
  match cellName with
  | some cell => ["ipin", "opin", "iopin"].contains cell
  | none => false

/-- `vfpLvsCellOfMaster(masterId)`. -/
def vfpLvsCellOfMaster (masterId : String) : Option String := (parseString masterId '/')[1]?

example : vfpLvsPinCellP (vfpLvsCellOfMaster "basic/ipin/symbol") = true := by decide

/-- `vfpLvsDeviceNames(snap)`. -/
def vfpLvsDeviceNames (snap : ConnSnapshot) : List String :=
  (snap.instances.filter fun r => !vfpLvsPinCellP (vfpLvsCellOfMaster r.master)).map ConnInst.name

/-- The terminals of the net of a terminal, in `vfpLvsTermGroups`. -/
def netGroup (members : List (String × List String)) (pr : String × Option String) : List String :=
  match pr.2 with
  | some net => (members.lookup net).getD []
  | none => [pr.1]

/-- `vfpLvsTermGroups(snap keepTerms)`. -/
def vfpLvsTermGroups (snap : ConnSnapshot) (keepTerms : List String) : List (String × List String) :=
  ((vfpConnTermMap snap).filter fun pr => keepTerms.contains pr.1).map fun pr =>
    (pr.1, sortNames ((netGroup (vfpConnNetMembers snap) pr).filter keepTerms.contains))

/-- `matched` in `vfpLayoutVsSchematic`. -/
def matchedDevices (lsnap ssnap : ConnSnapshot) : List String :=
  (vfpLvsDeviceNames ssnap).filter (vfpLvsDeviceNames lsnap).contains

/-- `shared` in `vfpLayoutVsSchematic`. -/
def sharedTerms (lsnap ssnap : ConnSnapshot) : List String :=
  ((vfpConnTermMap ssnap).map Prod.fst).filter fun tnm =>
    ((vfpLvsInstOf tnm).elim false (matchedDevices lsnap ssnap).contains) &&
      ((vfpConnTermMap lsnap).map Prod.fst).contains tnm

/-- What is reported on a terminal of both views. -/
def netMismatch (sGroups lGroups : List (String × List String)) (tnm : String) :
    Option (String × List String × List String) :=
  match sGroups.find? fun x => x.1 = tnm, lGroups.find? fun x => x.1 = tnm with
  | some sg, some lg => if sg.2 = lg.2 then none else some (tnm, sg.2, lg.2)
  | _, _ => none

/-- What `vfpLayoutVsSchematic` returns. -/
structure LvsResult where
  schematic : String × String × String
  layout : String × String × String
  status : String
  matched : ℕ
  onlyInLayout : List String
  onlyInSchematic : List String
  netMismatches : List (String × List String × List String)
  deriving DecidableEq

/-- `vfpLayoutVsSchematic(layoutCv schematicCv)`, of the names of the cellviews and their snapshots. -/
def vfpLayoutVsSchematic (layoutCv schematicCv : String × String × String) (lsnap ssnap : ConnSnapshot) :
    LvsResult :=
  let lDev := vfpLvsDeviceNames lsnap
  let sDev := vfpLvsDeviceNames ssnap
  let onlyL := lDev.filter fun n => !sDev.contains n
  let onlyS := sDev.filter fun n => !lDev.contains n
  let shared := sharedTerms lsnap ssnap
  let mism := shared.filterMap (netMismatch (vfpLvsTermGroups ssnap shared) (vfpLvsTermGroups lsnap shared))
  { schematic := schematicCv
    layout := layoutCv
    status := if onlyL = [] ∧ onlyS = [] ∧ mism = [] then "clean" else "issues"
    matched := (matchedDevices lsnap ssnap).length
    onlyInLayout := onlyL
    onlyInSchematic := onlyS
    netMismatches := mism }

/-- The terminals with a net mismatch. -/
def mismatching (layoutCv schematicCv : String × String × String) (lsnap ssnap : ConnSnapshot) : Set String :=
  {tnm | tnm ∈ (vfpLayoutVsSchematic layoutCv schematicCv lsnap ssnap).netMismatches.map Prod.fst}

end Definitions

section Statement

/-- The instances have names, without a dot and each its own, and one terminal of a name each. -/
structure NamedInstances (s : ConnSnapshot) : Prop extends DotFree s where
  named : ∀ r ∈ s.instances, r.name ≠ ""

/-- An instance that is no pin symbol. -/
def ConnSnapshot.HasDevice (s : ConnSnapshot) (inst : String) : Prop :=
  ∃ r ∈ s.instances, r.name = inst ∧ vfpLvsPinCellP (vfpLvsCellOfMaster r.master) = false

/-- A terminal that both views have, of an instance that is a device in both. -/
def SharedTerm (lsnap ssnap : ConnSnapshot) (text : String) : Prop :=
  ∃ inst term, text = instTerm inst term ∧ lsnap.HasDevice inst ∧ ssnap.HasDevice inst ∧
    (∃ net, lsnap.HasTerm inst term net) ∧ ∃ net, ssnap.HasTerm inst term net

/-- Two terminals are one, or they are on one net. -/
def OneNet (s : ConnSnapshot) (text text' : String) : Prop :=
  text = text' ∨ ∃ net, text ∈ termsOn s net ∧ text' ∈ termsOn s net

end Statement

section Shared

variable {s lsnap ssnap : ConnSnapshot} {inst term text : String}

/-- The names listed are those of the devices. -/
theorem mem_deviceNames_iff : inst ∈ vfpLvsDeviceNames s ↔ s.HasDevice inst := by
  simp only [vfpLvsDeviceNames, ConnSnapshot.HasDevice, List.mem_map, List.mem_filter, Bool.not_eq_true']
  constructor
  · rintro ⟨r, ⟨hr, hdevice⟩, hname⟩
    exact ⟨r, hr, hname, hdevice⟩
  · rintro ⟨r, hr, hname, hdevice⟩
    exact ⟨r, ⟨hr, hdevice⟩, hname⟩

/-- The instance of a terminal is what comes before the first dot. -/
theorem vfpLvsInstOf_instTerm (hname : inst ≠ "") (hdot : '.' ∉ inst.toList) (term : String) :
    vfpLvsInstOf (instTerm inst term) = some inst := by
  have hfirst : inst.toList.splitOn '.' = [inst.toList] := by
    rw [List.splitOn_eq_splitOnP]
    refine List.splitOnP_eq_singleton fun c hc => ?_
    simp only [beq_eq_false_iff_ne]
    rintro rfl
    exact hdot hc
  have hne : inst.toList.isEmpty = false := by simpa using hname
  have hsplit : (instTerm inst term).toList.splitOn '.' = inst.toList :: term.toList.splitOn '.' := by
    rw [toList_instTerm, List.splitOn_eq_splitOnP, List.splitOnP_append_cons _ _ (by simp),
      ← List.splitOn_eq_splitOnP, ← List.splitOn_eq_splitOnP, hfirst, List.singleton_append]
  simp [vfpLvsInstOf, parseString, hsplit, hne]

/-- The common terminals are those that both views have. -/
theorem mem_sharedTerms_iff (hl : NamedInstances lsnap) (hs : NamedInstances ssnap) :
    text ∈ sharedTerms lsnap ssnap ↔ SharedTerm lsnap ssnap text := by
  have hkeys : ∀ s : ConnSnapshot, text ∈ (vfpConnTermMap s).map Prod.fst ↔
      ∃ inst term, text = instTerm inst term ∧ ∃ net, s.HasTerm inst term net := by
    intro s
    rw [List.mem_map]
    constructor
    · rintro ⟨pr, hpr, rfl⟩
      obtain ⟨inst, term, heq, hterm⟩ := mem_termMap_iff.mp hpr
      exact ⟨inst, term, heq, pr.2, hterm⟩
    · rintro ⟨inst, term, rfl, net, hterm⟩
      exact ⟨_, hterm.mem_termMap, rfl⟩
  have hplain : ∀ {s : ConnSnapshot}, NamedInstances s → ∀ {inst term net}, s.HasTerm inst term net →
      inst ≠ "" ∧ '.' ∉ inst.toList := by
    rintro s h inst term net ⟨r, hr, rfl, -⟩
    exact ⟨h.named r hr, h.dotless r hr⟩
  simp only [sharedTerms, List.mem_filter, hkeys, Bool.and_eq_true, List.contains_iff_mem]
  constructor
  · rintro ⟨⟨inst, term, rfl, net, hterm⟩, hmatched, inst', term', heq, net', hterm'⟩
    obtain ⟨hne, hdot⟩ := hplain hs hterm
    obtain ⟨rfl, rfl⟩ := instTerm_inj_of_dotless hdot (hplain hl hterm').2 heq
    rw [vfpLvsInstOf_instTerm hne hdot, Option.elim_some, List.contains_iff_mem, matchedDevices,
      List.mem_filter, List.contains_iff_mem, mem_deviceNames_iff, mem_deviceNames_iff] at hmatched
    exact ⟨inst, term, rfl, hmatched.2, hmatched.1, ⟨net', hterm'⟩, net, hterm⟩
  · rintro ⟨inst, term, rfl, hdl, hds, hterml, net, hterm⟩
    obtain ⟨hne, hdot⟩ := hplain hs hterm
    refine ⟨⟨inst, term, rfl, net, hterm⟩, ?_, inst, term, rfl, hterml⟩
    rw [vfpLvsInstOf_instTerm hne hdot, Option.elim_some, List.contains_iff_mem, matchedDevices,
      List.mem_filter, List.contains_iff_mem, mem_deviceNames_iff, mem_deviceNames_iff]
    exact ⟨hds, hdl⟩

end Shared

section Groups

variable {s lsnap ssnap : ConnSnapshot} {keepTerms : List String} {text text' : String} {on : Option String}

/-- A terminal is written once with its net. -/
theorem DotFree.on_unique (h : DotFree s) {on' : Option String} (hon : (text, on) ∈ vfpConnTermMap s)
    (hon' : (text, on') ∈ vfpConnTermMap s) : on = on' :=
  congrArg Prod.snd (eq_of_key h.nodup_termMap hon hon' rfl)

/-- The group of a terminal are the terminals on one net with it. -/
theorem mem_netGroup_iff (h : DotFree s) (hon : (text, on) ∈ vfpConnTermMap s) :
    text' ∈ netGroup (vfpConnNetMembers s) (text, on) ↔ OneNet s text text' := by
  cases on with
  | none =>
    rw [netGroup, List.mem_singleton]
    constructor
    · exact fun heq => .inl heq.symm
    · rintro (heq | ⟨net, hnet, -⟩)
      · exact heq.symm
      · exact absurd (h.on_unique hon (mem_termsOn_iff_mem.mp hnet)) (by simp)
  | some net =>
    have hnet : text ∈ termsOn s net := mem_termsOn_iff_mem.mpr hon
    have hne : termsOn s net ≠ [] := List.ne_nil_of_mem hnet
    have hgroup : netGroup (vfpConnNetMembers s) (text, some net) = (termsOn s net).reverse := by
      simp [netGroup, lookup_netMembers, hne]
    rw [hgroup, List.mem_reverse]
    constructor
    · exact fun hnet' => .inr ⟨net, hnet, hnet'⟩
    · rintro (heq | ⟨other, hother, hother'⟩)
      · exact heq ▸ hnet
      · obtain rfl := Option.some.inj (h.on_unique hon (mem_termsOn_iff_mem.mp hother))
        exact hother'

/-- A net lists each of its terminals once. -/
theorem nodup_netGroup (h : DotFree s) (pr : String × Option String) :
    (netGroup (vfpConnNetMembers s) pr).Nodup := by
  unfold netGroup
  split
  · rename_i net _
    rw [lookup_netMembers]
    split
    · exact List.nodup_nil
    · exact List.nodup_reverse.mpr (h.nodup_termsOn net)
  · exact List.nodup_singleton _

/-- The entry of a kept terminal is the one with its own net. -/
theorem find_termGroups (h : DotFree s) (hkeep : text ∈ keepTerms) (hon : (text, on) ∈ vfpConnTermMap s) :
    (vfpLvsTermGroups s keepTerms).find? (fun x => x.1 = text) =
      some (text, sortNames ((netGroup (vfpConnNetMembers s) (text, on)).filter keepTerms.contains)) := by
  have hkeys : ((vfpLvsTermGroups s keepTerms).map Prod.fst).Nodup := by
    rw [vfpLvsTermGroups, List.map_map]
    exact h.nodup_termMap.sublist (List.filter_sublist.map _)
  refine find?_key hkeys (List.mem_map.mpr ⟨(text, on), List.mem_filter.mpr ⟨hon, ?_⟩, rfl⟩)
  exact List.contains_iff_mem.mpr hkeep

/-- A kept terminal with a net of its own in both views has a mismatch just when a kept terminal is on its
net in one view only. -/
theorem netMismatch_eq_none_iff (hl : DotFree lsnap) (hs : DotFree ssnap) (hkeep : text ∈ keepTerms)
    {onL onS : Option String} (honL : (text, onL) ∈ vfpConnTermMap lsnap) (honS : (text, onS) ∈ vfpConnTermMap ssnap) :
    netMismatch (vfpLvsTermGroups ssnap keepTerms) (vfpLvsTermGroups lsnap keepTerms) text = none ↔
      ∀ text' ∈ keepTerms, OneNet lsnap text text' ↔ OneNet ssnap text text' := by
  have hnodup : ∀ {s : ConnSnapshot}, DotFree s → ∀ pr,
      ((netGroup (vfpConnNetMembers s) pr).filter keepTerms.contains).Nodup :=
    fun h pr => (nodup_netGroup h pr).filter _
  rw [netMismatch, find_termGroups hs hkeep honS, find_termGroups hl hkeep honL]
  simp only [ite_eq_left_iff, reduceCtorEq, imp_false, not_not]
  rw [sortNames_eq_iff, List.perm_ext_iff_of_nodup (hnodup hs _) (hnodup hl _)]
  simp only [List.mem_filter, List.contains_iff_mem, mem_netGroup_iff hl honL, mem_netGroup_iff hs honS]
  constructor
  · intro hsame text' hmem
    have htext := hsame text'
    simp only [hmem, and_true] at htext
    exact htext.symm
  · intro hsame text'
    refine and_congr_left fun hmem => (hsame text' hmem).symm

/-- A row of the report is about the terminal that it is made for. -/
theorem fst_of_netMismatch {sGroups lGroups : List (String × List String)} {row : String × List String × List String}
    (h : netMismatch sGroups lGroups text = some row) : row.1 = text := by
  unfold netMismatch at h
  split at h
  · split at h
    · cases h
    · rw [← Option.some.inj h]
  · cases h

end Groups

section Partitions

variable {lsnap ssnap : ConnSnapshot} {layoutCv schematicCv : String × String × String} {text : String}

/-- The terminals with a mismatch are those that are on one net with a common terminal in one view only. -/
theorem mem_mismatching_iff (hl : NamedInstances lsnap) (hs : NamedInstances ssnap) :
    text ∈ mismatching layoutCv schematicCv lsnap ssnap ↔ SharedTerm lsnap ssnap text ∧
      ∃ text', SharedTerm lsnap ssnap text' ∧ ¬(OneNet lsnap text text' ↔ OneNet ssnap text text') := by
  have hrow : text ∈ mismatching layoutCv schematicCv lsnap ssnap ↔ text ∈ sharedTerms lsnap ssnap ∧
      netMismatch (vfpLvsTermGroups ssnap (sharedTerms lsnap ssnap))
        (vfpLvsTermGroups lsnap (sharedTerms lsnap ssnap)) text ≠ none := by
    simp only [mismatching, vfpLayoutVsSchematic, Set.mem_ofPred_eq, List.mem_map, List.mem_filterMap]
    constructor
    · rintro ⟨row, ⟨tnm, htnm, hrow⟩, rfl⟩
      rw [fst_of_netMismatch hrow]
      exact ⟨htnm, by simp [hrow]⟩
    · rintro ⟨htext, hne⟩
      obtain ⟨row, hrow⟩ := Option.ne_none_iff_exists'.mp hne
      exact ⟨row, ⟨text, htext, hrow⟩, fst_of_netMismatch hrow⟩
  rw [hrow, mem_sharedTerms_iff hl hs]
  refine and_congr_right fun hshared => ?_
  have hkeep := (mem_sharedTerms_iff hl hs).mpr hshared
  obtain ⟨inst, term, rfl, -, -, ⟨onL, hterml⟩, onS, hterms⟩ := hshared
  have hiff := netMismatch_eq_none_iff hl.toDotFree hs.toDotFree hkeep hterml.mem_termMap hterms.mem_termMap
  simp only [mem_sharedTerms_iff hl hs] at hiff
  rw [ne_eq, hiff]
  simp only [not_forall, exists_prop]

/-- No terminal has a mismatch just when the nets part the common terminals in the same way. -/
theorem mismatches_nil_iff (hl : NamedInstances lsnap) (hs : NamedInstances ssnap) :
    (vfpLayoutVsSchematic layoutCv schematicCv lsnap ssnap).netMismatches = [] ↔
      ∀ x y, SharedTerm lsnap ssnap x → SharedTerm lsnap ssnap y → (OneNet lsnap x y ↔ OneNet ssnap x y) := by
  have hnil : (vfpLayoutVsSchematic layoutCv schematicCv lsnap ssnap).netMismatches = [] ↔
      ∀ x, x ∉ mismatching layoutCv schematicCv lsnap ssnap := by
    rw [← List.map_eq_nil_iff (f := Prod.fst), List.eq_nil_iff_forall_not_mem]
    rfl
  rw [hnil]
  simp only [mem_mismatching_iff hl hs, not_and, not_exists, not_not]
  exact ⟨fun h x y hx hy => h x hx y hy, fun h x hx y hy => h x y hx hy⟩

section Views

variable {f : String → String} {s : ConnSnapshot}

/-- Renaming nets leaves the names of instances. -/
theorem NamedInstances.rename (h : NamedInstances s) (f : String → String) : NamedInstances (s.rename f) where
  toDotFree := h.toDotFree.rename f
  named := by
    simp only [ConnSnapshot.rename, List.forall_mem_map, ConnInst.rename]
    exact h.named

/-- Renaming nets leaves the devices. -/
theorem hasDevice_rename_iff {inst : String} : (s.rename f).HasDevice inst ↔ s.HasDevice inst := by
  simp only [ConnSnapshot.HasDevice, ConnSnapshot.rename, List.mem_map, exists_exists_and_eq_and, ConnInst.rename]

/-- Renaming nets leaves the connected terminals. -/
theorem exists_hasTerm_rename_iff {inst term : String} :
    (∃ net, (s.rename f).HasTerm inst term net) ↔ ∃ net, s.HasTerm inst term net := by
  constructor
  · rintro ⟨net, hterm⟩
    obtain ⟨before, hbefore, -⟩ := hasTerm_rename_iff.mp hterm
    exact ⟨before, hbefore⟩
  · rintro ⟨net, hterm⟩
    exact ⟨net.map f, hasTerm_rename_iff.mpr ⟨net, hterm, rfl⟩⟩

/-- Nets under other names connect the same terminals. -/
theorem oneNet_rename_iff (hinj : Set.InjOn f s.nets) {x y : String} : OneNet (s.rename f) x y ↔ OneNet s x y := by
  refine or_congr_right ?_
  constructor
  · rintro ⟨net, hx, hy⟩
    obtain ⟨before, hbefore, rfl⟩ := mem_nets_rename_iff.mp (mem_nets_iff.mpr (List.ne_nil_of_mem hx))
    rw [termsOn_rename hinj hbefore] at hx hy
    exact ⟨before, hx, hy⟩
  · rintro ⟨net, hx, hy⟩
    refine ⟨f net, ?_⟩
    rw [termsOn_rename hinj (mem_nets_iff.mpr (List.ne_nil_of_mem hx))]
    exact ⟨hx, hy⟩

/-- It leaves the terminals that both sides have, on the side of the layout. -/
theorem sharedTerm_rename_layout_iff : SharedTerm (lsnap.rename f) ssnap text ↔ SharedTerm lsnap ssnap text := by
  simp only [SharedTerm, hasDevice_rename_iff, exists_hasTerm_rename_iff]

/-- So it does on the side of the schematic. -/
theorem sharedTerm_rename_schematic_iff : SharedTerm lsnap (ssnap.rename f) text ↔ SharedTerm lsnap ssnap text := by
  simp only [SharedTerm, hasDevice_rename_iff, exists_hasTerm_rename_iff]

/-- Both sides share their terminals. -/
theorem sharedTerm_comm : SharedTerm lsnap ssnap text ↔ SharedTerm ssnap lsnap text := by
  simp only [SharedTerm]
  exact exists₂_congr fun _ _ => by tauto

end Views

/-- The comparison of the nets is one of how they part the common terminals: it finds nothing just when they
do it in the same way, and neither the names of nets nor which view is which change what it finds. -/
theorem lvs_compares_partitions (hl : NamedInstances lsnap) (hs : NamedInstances ssnap)
    (layoutCv schematicCv : String × String × String) :
    ((vfpLayoutVsSchematic layoutCv schematicCv lsnap ssnap).netMismatches = [] ↔
      ∀ x y, SharedTerm lsnap ssnap x → SharedTerm lsnap ssnap y → (OneNet lsnap x y ↔ OneNet ssnap x y)) ∧
    (∀ f, Set.InjOn f lsnap.nets →
      mismatching layoutCv schematicCv (lsnap.rename f) ssnap = mismatching layoutCv schematicCv lsnap ssnap) ∧
    (∀ f, Set.InjOn f ssnap.nets →
      mismatching layoutCv schematicCv lsnap (ssnap.rename f) = mismatching layoutCv schematicCv lsnap ssnap) ∧
    mismatching schematicCv layoutCv ssnap lsnap = mismatching layoutCv schematicCv lsnap ssnap := by
  refine ⟨mismatches_nil_iff hl hs, fun f hinj => ?_, fun f hinj => ?_, ?_⟩
  · ext text
    simp only [mem_mismatching_iff (hl.rename f) hs, mem_mismatching_iff hl hs, sharedTerm_rename_layout_iff,
      oneNet_rename_iff hinj]
  · ext text
    simp only [mem_mismatching_iff hl (hs.rename f), mem_mismatching_iff hl hs, sharedTerm_rename_schematic_iff,
      oneNet_rename_iff hinj]
  · ext text
    simp only [mem_mismatching_iff hl hs, mem_mismatching_iff hs hl, @sharedTerm_comm ssnap lsnap, iff_comm]

/-- The instances of the sample have different names. -/
theorem namedInstances_sampleResistor : NamedInstances sampleResistor where
  toDotFree := wellNamed_sampleResistor.dotFree
  named := by
    rintro i (_ | ⟨_, ⟨⟩⟩)
    decide

/-- A resistor against itself with its nets renamed. -/
theorem lvs_compares_partitions_sample :
    ((vfpLayoutVsSchematic ("lib", "top", "layout") ("lib", "top", "schematic") sampleResistor
        (sampleResistor.rename swapNets)).netMismatches = [] ↔
      ∀ x y, SharedTerm sampleResistor (sampleResistor.rename swapNets) x →
        SharedTerm sampleResistor (sampleResistor.rename swapNets) y →
          (OneNet sampleResistor x y ↔ OneNet (sampleResistor.rename swapNets) x y)) :=
  (lvs_compares_partitions namedInstances_sampleResistor (namedInstances_sampleResistor.rename swapNets)
    ("lib", "top", "layout") ("lib", "top", "schematic")).1

end Partitions

end VirtuosoFlow.Plugin
