import VirtuosoFlow.Plugin.TopologyDiff
import Mathlib.Data.Set.Function

/-!
# Renumbered nets

After a wire is drawn anew an auto-named net can have another number. `vfpConnectivityDiff` does not see
this, since such a net stands for the terminals it connects, and `vfpConnAutoRenames` lists which nets have
another name.
-/

namespace VirtuosoFlow.Plugin

open Base

section Definitions

/-- A record `'autoNetRenamed` of `vfpConnAutoRenames`. -/
structure AutoNetRenamed where
  before : String
  after : String
  deriving DecidableEq

/-- What `vfpConnAutoRenames` reports on a net of the first snapshot. -/
def autoRename (canonB : List (String × String)) (ea : String × String) : Option AutoNetRenamed :=
  match canonB.find? fun e => e.2 = ea.2 with
  | none => none
  | some eb => if ea.1 ≠ eb.1 ∧ vfpAutoNetP ea.1 = true ∧ vfpAutoNetP eb.1 = true then some ⟨ea.1, eb.1⟩ else none

/-- `vfpConnAutoRenames(snapA snapB)`. -/
def vfpConnAutoRenames (snapA snapB : ConnSnapshot) : List AutoNetRenamed :=
  (vfpConnCanonMap snapA).filterMap (autoRename (vfpConnCanonMap snapB))

/-- The nets that terminals are on. -/
def ConnSnapshot.nets (s : ConnSnapshot) : Set String := {net | ∃ inst term, s.HasTerm inst term (some net)}

/-- An instance with its nets under other names. -/
def ConnInst.rename (r : String → String) (inst : ConnInst) : ConnInst :=
  { inst with terms := inst.terms.map fun tn => (tn.1, tn.2.map r) }

/-- The snapshot after the nets are given other names. -/
def ConnSnapshot.rename (r : String → String) (s : ConnSnapshot) : ConnSnapshot where
  cellview := s.cellview
  instances := s.instances.map (ConnInst.rename r)
  namedNets := ((s.namedNets ++ s.autoNets).map r).filter fun net => !vfpAutoNetP net
  autoNets := ((s.namedNets ++ s.autoNets).map r).filter vfpAutoNetP

/-- Auto-named nets are given other numbers, each one its own, and the other nets keep their names. -/
structure Renumbering (r : String → String) (s : ConnSnapshot) : Prop where
  injOn : Set.InjOn r {net | net ∈ s.nets ∧ vfpAutoNetP net = true}
  auto : ∀ net ∈ s.nets, vfpAutoNetP net = true → vfpAutoNetP (r net) = true
  kept : ∀ net ∈ s.nets, vfpAutoNetP net = false → r net = net

end Definitions

section Rename

variable {r : String → String} {s : ConnSnapshot} {inst term net : String} {on : Option String}

/-- The terminals of the renamed snapshot are on the renamed nets. -/
theorem hasTerm_rename_iff :
    (s.rename r).HasTerm inst term on ↔ ∃ before, s.HasTerm inst term before ∧ on = before.map r := by
  simp only [ConnSnapshot.HasTerm, ConnSnapshot.rename, List.mem_map]
  constructor
  · rintro ⟨_, ⟨i, hi, rfl⟩, rfl, hmem⟩
    obtain ⟨tn, htn, heq⟩ := List.mem_map.mp hmem
    obtain ⟨rfl, rfl⟩ := Prod.mk.inj heq
    exact ⟨tn.2, ⟨i, hi, rfl, htn⟩, rfl⟩
  · rintro ⟨before, ⟨i, hi, rfl, hmem⟩, rfl⟩
    exact ⟨_, ⟨i, hi, rfl⟩, rfl, List.mem_map.mpr ⟨_, hmem, rfl⟩⟩

/-- The instances and their terminals are named as before. -/
theorem DotFree.rename (h : DotFree s) (r : String → String) : DotFree (s.rename r) where
  instances := by
    have hnames : (s.rename r).instances.map ConnInst.name = s.instances.map ConnInst.name := by
      rw [ConnSnapshot.rename, List.map_map]
      rfl
    exact hnames ▸ h.instances
  terms := by
    simp only [ConnSnapshot.rename, List.forall_mem_map]
    intro i hi
    have hterms : (i.rename r).terms.map Prod.fst = i.terms.map Prod.fst := by
      rw [ConnInst.rename, List.map_map]
      rfl
    exact hterms ▸ h.terms i hi
  dotless := by
    simp only [ConnSnapshot.rename, List.forall_mem_map, ConnInst.rename]
    exact h.dotless

/-- Nets that stay apart connect the same terminals under their other names. -/
theorem termsOn_rename (hinj : Set.InjOn r s.nets) (hnet : net ∈ s.nets) :
    termsOn (s.rename r) (r net) = termsOn s net := by
  simp only [termsOn, ConnSnapshot.rename, List.flatMap_map]
  refine List.flatMap_congr fun i hi => ?_
  rw [ConnInst.rename, List.filter_map, List.map_map]
  congr 1
  refine List.filter_congr fun tn htn => ?_
  cases hon : tn.2 with
  | none => simp [hon]
  | some other =>
    have hother : other ∈ s.nets := ⟨i.name, tn.1, i, hi, rfl, hon ▸ htn⟩
    simp [hon, hinj.eq_iff hother hnet]

/-- The terminals on a net are those that the terminal map puts there. -/
theorem mem_termsOn_iff_mem {text : String} : text ∈ termsOn s net ↔ (text, some net) ∈ vfpConnTermMap s := by
  rw [← filterMap_termMap, List.mem_map]
  constructor
  · rintro ⟨⟨text, on⟩, hpr, rfl⟩
    obtain ⟨hmem, hon⟩ := List.mem_filter.mp hpr
    exact of_decide_eq_true hon ▸ hmem
  · intro hmem
    exact ⟨_, List.mem_filter.mpr ⟨hmem, by simp⟩, rfl⟩

/-- A net is one that some terminal is on. -/
theorem mem_nets_iff : net ∈ s.nets ↔ termsOn s net ≠ [] := by
  constructor
  · rintro ⟨inst, term, hterm⟩
    exact List.ne_nil_of_mem (mem_termsOn_iff.mpr ⟨inst, term, rfl, hterm⟩)
  · intro hne
    obtain ⟨text, htext⟩ := List.exists_mem_of_ne_nil _ hne
    obtain ⟨inst, term, -, hterm⟩ := mem_termsOn_iff.mp htext
    exact ⟨inst, term, hterm⟩

/-- The nets after the renaming. -/
theorem mem_nets_rename_iff : net ∈ (s.rename r).nets ↔ ∃ before ∈ s.nets, r before = net := by
  constructor
  · rintro ⟨inst, term, hterm⟩
    obtain ⟨before, hbefore, heq⟩ := hasTerm_rename_iff.mp hterm
    obtain ⟨old, rfl, rfl⟩ := Option.map_eq_some_iff.mp heq.symm
    exact ⟨old, ⟨inst, term, hbefore⟩, rfl⟩
  · rintro ⟨before, ⟨inst, term, hterm⟩, rfl⟩
    exact ⟨inst, term, hasTerm_rename_iff.mpr ⟨some before, hterm, rfl⟩⟩

/-- A terminal of a well named snapshot is on one net. -/
theorem WellNamed.net_unique (h : WellNamed s) {on' : Option String} (hterm : s.HasTerm inst term on)
    (hterm' : s.HasTerm inst term on') : on = on' :=
  congrArg Prod.snd (eq_of_key h.nodup_termMap hterm.mem_termMap hterm'.mem_termMap rfl)

end Rename

section Canonical

variable {s : ConnSnapshot} {net canon : String}

/-- Each net is collected once. -/
theorem nodup_foldl_addMember (terms : List (String × Option String)) (acc : List (String × List String))
    (hacc : (acc.map Prod.fst).Nodup) : ((terms.foldl addMember acc).map Prod.fst).Nodup := by
  induction terms generalizing acc with
  | nil => exact hacc
  | cons pr terms ih =>
    refine ih _ ?_
    unfold addMember
    split
    · exact hacc
    · rename_i net _
      split
      · rename_i members hmembers
        rw [keys_assocSet]
        split
        · exact hacc
        · rename_i hnot
          exact hacc.append (List.nodup_singleton net) (by simpa using hnot)
      · rename_i hnone
        refine List.nodup_cons.mpr ⟨fun hmem => ?_, hacc⟩
        obtain ⟨e, he, rfl⟩ := List.mem_map.mp hmem
        exact absurd (List.lookup_eq_none_iff.mp hnone e he) (by simp)

/-- What is collected for a net is its terminals, the last first. -/
theorem lookup_netMembers (s : ConnSnapshot) (net : String) : (vfpConnNetMembers s).lookup net =
    if termsOn s net = [] then none else some (termsOn s net).reverse := by
  have hmembers := lookup_foldl_addMember (vfpConnTermMap s) [] net
  rw [filterMap_termMap] at hmembers
  rw [vfpConnNetMembers, hmembers]
  cases termsOn s net with
  | nil => rfl
  | cons t ts => simp

/-- The nets of a snapshot with what stands for them. -/
theorem mem_canonMap_iff : (net, canon) ∈ vfpConnCanonMap s ↔
    net ∈ s.nets ∧ canon = canonName net (termsOn s net) := by
  have hnodup : ((vfpConnNetMembers s).map Prod.fst).Nodup := nodup_foldl_addMember _ [] List.nodup_nil
  have hmem : ∀ members, (net, members) ∈ vfpConnNetMembers s ↔ (vfpConnNetMembers s).lookup net = some members :=
    fun members => Dict.mem_entries_iff (d := ⟨vfpConnNetMembers s, hnodup⟩)
  have hsort : canonName net (termsOn s net).reverse = canonName net (termsOn s net) := by
    rw [canonName, sortNames_perm (List.reverse_perm _), canonName]
  rw [vfpConnCanonMap, List.mem_map, mem_nets_iff]
  constructor
  · rintro ⟨⟨other, members⟩, he, heq⟩
    obtain ⟨rfl, rfl⟩ := Prod.mk.inj heq
    have hfound := (hmem members).mp he
    rw [lookup_netMembers] at hfound
    split at hfound
    · cases hfound
    · rename_i hne
      have hmembers : (termsOn s other).reverse = members := Option.some.inj hfound
      refine ⟨hne, ?_⟩
      rw [← hmembers]
      exact hsort
  · rintro ⟨hne, rfl⟩
    refine ⟨(net, (termsOn s net).reverse), (hmem _).mpr ?_, by rw [hsort]⟩
    rw [lookup_netMembers, if_neg hne]

end Canonical

section Renumbered

variable {r : String → String} {s : ConnSnapshot} {net other : String}

/-- A renumbering takes different nets to different nets. -/
theorem Renumbering.injOn_nets (hr : Renumbering r s) : Set.InjOn r s.nets := by
  intro a ha b hb heq
  cases hautoA : vfpAutoNetP a with
  | true =>
    have hauto := hr.auto a ha hautoA
    cases hautoB : vfpAutoNetP b with
    | true => exact hr.injOn ⟨ha, hautoA⟩ ⟨hb, hautoB⟩ heq
    | false =>
      rw [heq, hr.kept b hb hautoB, hautoB] at hauto
      cases hauto
  | false =>
    cases hautoB : vfpAutoNetP b with
    | true =>
      have hauto := hr.auto b hb hautoB
      rw [← heq, hr.kept a ha hautoA, hautoA] at hauto
      cases hauto
    | false => exact (hr.kept a ha hautoA).symm.trans (heq.trans (hr.kept b hb hautoB))

/-- A net is auto-named after a renumbering just when it was before. -/
theorem Renumbering.autoNetP_eq (hr : Renumbering r s) (hnet : net ∈ s.nets) :
    vfpAutoNetP (r net) = vfpAutoNetP net := by
  cases hauto : vfpAutoNetP net with
  | true => exact hr.auto net hnet hauto
  | false => rw [hr.kept net hnet hauto, hauto]

/-- The name of an automatic net begins with no tilde. -/
theorem untilded_of_auto (h : vfpAutoNetP net = true) : net.toList.head? ≠ some '~' := by
  intro htilde
  unfold vfpAutoNetP at h
  split at h
  · rename_i heq
    rw [heq] at htilde
    cases htilde
  · cases h

/-- A renumbered snapshot is well named. -/
theorem WellNamed.rename (h : WellNamed s) (hr : Renumbering r s) : WellNamed (s.rename r) where
  instances := (h.dotFree.rename r).instances
  terms := (h.dotFree.rename r).terms
  undivided := by
    simp only [ConnSnapshot.rename, List.forall_mem_map, ConnInst.rename]
    exact h.undivided
  untilded := by
    simp only [ConnSnapshot.rename, List.forall_mem_map, ConnInst.rename]
    intro i hi tn htn net hnet
    obtain ⟨old, hold, rfl⟩ := Option.map_eq_some_iff.mp hnet
    have hmem : old ∈ s.nets := ⟨i.name, tn.1, i, hi, rfl, hold ▸ htn⟩
    cases hauto : vfpAutoNetP old with
    | true => exact untilded_of_auto (hr.auto old hmem hauto)
    | false => exact (hr.kept old hmem hauto).symm ▸ h.untilded i hi tn htn old hold

/-- A terminal of a net is on the net that has another name. -/
theorem sameNet_rename (hr : Renumbering r s) {inst term : String} {on : Option String}
    (hterm : s.HasTerm inst term on) : SameNet s (s.rename r) on (on.map r) := by
  cases on with
  | none => trivial
  | some net =>
    have hnet : net ∈ s.nets := ⟨inst, term, hterm⟩
    cases hauto : vfpAutoNetP net with
    | true =>
      refine .inr ⟨hauto, hr.auto net hnet hauto, fun text => ?_⟩
      rw [termsOn_rename hr.injOn_nets hnet]
    | false =>
      have hkept := hr.kept net hnet hauto
      exact .inl ⟨hauto, (hr.autoNetP_eq hnet).trans hauto, hkept.symm⟩

/-- The comparison with the renumbered snapshot finds no difference. -/
theorem diff_rename_nil (h : WellNamed s) (hr : Renumbering r s) : vfpConnectivityDiff s (s.rename r) = [] := by
  refine (vfpConnectivityDiff_nil_iff h (h.rename hr)).mpr ⟨fun inst master => ?_, ?_⟩
  · simp only [ConnSnapshot.HasInst, ConnSnapshot.rename, List.mem_map, exists_exists_and_eq_and, ConnInst.rename]
  · intro inst term netA netB htermA htermB
    obtain ⟨before, hbefore, rfl⟩ := hasTerm_rename_iff.mp htermB
    obtain rfl := h.net_unique htermA hbefore
    exact sameNet_rename hr htermA

/-- What stands for an auto-named net stands for no other net of the renumbered snapshot. -/
theorem eq_of_canonName_eq (h : WellNamed s) (hr : Renumbering r s) (hnet : net ∈ s.nets) (hother : other ∈ s.nets)
    (hauto : vfpAutoNetP net = true)
    (heq : canonName (r other) (termsOn (s.rename r) (r other)) = canonName net (termsOn s net)) : other = net := by
  have hrenamed : r other ∈ (s.rename r).nets := mem_nets_rename_iff.mpr ⟨other, hother, rfl⟩
  cases hautoO : vfpAutoNetP (r other) with
  | false =>
    obtain ⟨inst, term, hterm⟩ := hrenamed
    rw [canonName, hautoO, if_neg Bool.false_ne_true] at heq
    exact absurd heq (canonName_ne_of_auto (h.rename hr) hauto hterm)
  | true =>
    have hsame := (canonName_auto_iff h (h.rename hr) hauto hautoO).mp heq.symm
    rw [termsOn_rename hr.injOn_nets hother] at hsame
    obtain ⟨text, htext⟩ := List.exists_mem_of_ne_nil _ (mem_nets_iff.mp hnet)
    have hon := mem_termsOn_iff_mem.mp htext
    have hon' := mem_termsOn_iff_mem.mp ((hsame text).mp htext)
    exact Option.some.inj (congrArg Prod.snd (eq_of_key h.nodup_termMap hon' hon rfl))

/-- The search for what stands for an auto-named net finds the net under its other name. -/
theorem find_canon_rename (h : WellNamed s) (hr : Renumbering r s) (hnet : net ∈ s.nets)
    (hauto : vfpAutoNetP net = true) : ∃ canon,
      (vfpConnCanonMap (s.rename r)).find? (fun e => e.2 = canonName net (termsOn s net)) = some (r net, canon) := by
  have hcanon : canonName (r net) (termsOn (s.rename r) (r net)) = canonName net (termsOn s net) := by
    rw [termsOn_rename hr.injOn_nets hnet, canonName, canonName, if_pos hauto, if_pos (hr.auto net hnet hauto)]
  have hmem : (r net, canonName net (termsOn s net)) ∈ vfpConnCanonMap (s.rename r) :=
    mem_canonMap_iff.mpr ⟨mem_nets_rename_iff.mpr ⟨net, hnet, rfl⟩, hcanon.symm⟩
  cases hfind : (vfpConnCanonMap (s.rename r)).find? (fun e => e.2 = canonName net (termsOn s net)) with
  | none => exact absurd (List.find?_eq_none.mp hfind _ hmem) (by simp)
  | some e =>
    obtain ⟨hother, heq⟩ := mem_canonMap_iff.mp (List.mem_of_find?_eq_some hfind)
    obtain ⟨other, hother, hname⟩ := mem_nets_rename_iff.mp hother
    have hkey : e.2 = canonName net (termsOn s net) := by simpa using List.find?_some hfind
    rw [← hname] at heq
    obtain rfl := eq_of_canonName_eq h hr hnet hother hauto (heq.symm.trans hkey)
    exact ⟨e.2, congrArg some (Prod.ext hname.symm rfl)⟩

/-- The nets that are reported are the auto-named ones with another name. -/
theorem mem_autoRenames_iff (h : WellNamed s) (hr : Renumbering r s) {before after : String} :
    (⟨before, after⟩ : AutoNetRenamed) ∈ vfpConnAutoRenames s (s.rename r) ↔
      before ∈ s.nets ∧ vfpAutoNetP before = true ∧ after = r before ∧ r before ≠ before := by
  rw [vfpConnAutoRenames, List.mem_filterMap]
  constructor
  · rintro ⟨⟨net, canon⟩, hmem, hrow⟩
    obtain ⟨hnet, rfl⟩ := mem_canonMap_iff.mp hmem
    unfold autoRename at hrow
    split at hrow
    · cases hrow
    · rename_i eb hfind
      split at hrow
      · rename_i hcond
        obtain ⟨hne, hauto, -⟩ := hcond
        obtain ⟨canon, hfound⟩ := find_canon_rename h hr hnet hauto
        obtain rfl := Option.some.inj (hfind.symm.trans hfound)
        obtain ⟨rfl, rfl⟩ := AutoNetRenamed.mk.inj (Option.some.inj hrow)
        exact ⟨hnet, hauto, rfl, Ne.symm hne⟩
      · cases hrow
  · rintro ⟨hnet, hauto, rfl, hne⟩
    refine ⟨(before, canonName before (termsOn s before)), mem_canonMap_iff.mpr ⟨hnet, rfl⟩, ?_⟩
    obtain ⟨canon, hfound⟩ := find_canon_rename h hr hnet hauto
    simp only [autoRename, hfound]
    exact if_pos ⟨Ne.symm hne, hauto, hr.auto before hnet hauto⟩

/-- A net is reported at most once. -/
theorem nodup_autoRenames (snapA snapB : ConnSnapshot) : (vfpConnAutoRenames snapA snapB).Nodup := by
  have hkeys : (vfpConnCanonMap snapA).Pairwise fun e e' => e.1 ≠ e'.1 := by
    have hnodup : ((vfpConnNetMembers snapA).map Prod.fst).Nodup := nodup_foldl_addMember _ [] List.nodup_nil
    rw [vfpConnCanonMap, List.pairwise_map]
    exact List.pairwise_map.mp hnodup
  have hbefore : ∀ {e row}, autoRename (vfpConnCanonMap snapB) e = some row → row.before = e.1 := by
    intro e row hrow
    unfold autoRename at hrow
    split at hrow
    · cases hrow
    · split at hrow
      · rw [← Option.some.inj hrow]
      · cases hrow
  refine hkeys.filterMap _ fun e e' hne row hrow row' hrow' heq => hne ?_
  rw [← hbefore hrow, ← hbefore hrow', heq]

/-- Renumbering auto-named nets is no difference, and the nets that have another name are listed. -/
theorem renumbered_nets_listed (h : WellNamed s) (hr : Renumbering r s) :
    vfpConnectivityDiff s (s.rename r) = [] ∧ (vfpConnAutoRenames s (s.rename r)).Nodup ∧
      ∀ before after, (⟨before, after⟩ : AutoNetRenamed) ∈ vfpConnAutoRenames s (s.rename r) ↔
        before ∈ s.nets ∧ vfpAutoNetP before = true ∧ after = r before ∧ r before ≠ before :=
  ⟨diff_rename_nil h hr, nodup_autoRenames s (s.rename r), fun _ _ => mem_autoRenames_iff h hr⟩

/-- Two auto-named nets that exchange their numbers. -/
def swapNets (net : String) : String :=
  if net = "net1" then "net2" else if net = "net2" then "net1" else net

/-- A resistor between two auto-named nets. -/
def sampleResistor : ConnSnapshot where
  cellview := "lib/top/schematic"
  instances := [⟨"R0", "analogLib/res/symbol", [("PLUS", some "net1"), ("MINUS", some "net2")]⟩]
  namedNets := []
  autoNets := ["net1", "net2"]

/-- The sample is well named. -/
theorem wellNamed_sampleResistor : WellNamed sampleResistor where
  instances := by decide
  terms := by decide
  undivided := by
    have hinst : Undivided "R0" := ⟨by decide, by decide⟩
    have hplus : Undivided "PLUS" := ⟨by decide, by decide⟩
    have hminus : Undivided "MINUS" := ⟨by decide, by decide⟩
    rintro i (_ | ⟨_, ⟨⟩⟩)
    refine ⟨hinst, ?_⟩
    rintro tn (_ | ⟨_, _ | ⟨_, ⟨⟩⟩⟩)
    · exact hplus
    · exact hminus
  untilded := by
    rintro i (_ | ⟨_, ⟨⟩⟩) tn (_ | ⟨_, _ | ⟨_, ⟨⟩⟩⟩) net hnet
    · obtain rfl := Option.some.inj hnet
      exact untilded_of_auto (by decide)
    · obtain rfl := Option.some.inj hnet
      exact untilded_of_auto (by decide)

/-- It has two nets. -/
theorem nets_sampleResistor {net : String} (h : net ∈ sampleResistor.nets) : net = "net1" ∨ net = "net2" := by
  obtain ⟨inst, term, i, hi, rfl, hterm⟩ := h
  obtain rfl := List.mem_singleton.mp hi
  simp only [List.mem_cons, Prod.mk.injEq, Option.some.injEq, List.not_mem_nil, or_false] at hterm
  exact hterm.imp And.right And.right

/-- Swapping their numbers is a renumbering. -/
theorem renumbering_swapNets : Renumbering swapNets sampleResistor where
  injOn := by
    intro a ha b hb heq
    rcases nets_sampleResistor ha.1 with rfl | rfl <;> rcases nets_sampleResistor hb.1 with rfl | rfl
    · rfl
    · exact absurd heq (by decide)
    · exact absurd heq (by decide)
    · rfl
  auto := by
    intro net hnet _
    rcases nets_sampleResistor hnet with rfl | rfl
    · decide
    · decide
  kept := by
    intro net hnet hauto
    rcases nets_sampleResistor hnet with rfl | rfl
    · exact absurd hauto (by decide)
    · exact absurd hauto (by decide)

/-- A resistor whose two nets swap their numbers. -/
theorem renumbered_nets_listed_sample :
    vfpConnectivityDiff sampleResistor (sampleResistor.rename swapNets) = [] ∧
      (vfpConnAutoRenames sampleResistor (sampleResistor.rename swapNets)).Nodup ∧
      ∀ before after, (⟨before, after⟩ : AutoNetRenamed) ∈
          vfpConnAutoRenames sampleResistor (sampleResistor.rename swapNets) ↔
        before ∈ sampleResistor.nets ∧ vfpAutoNetP before = true ∧ after = swapNets before ∧
          swapNets before ≠ before :=
  renumbered_nets_listed wellNamed_sampleResistor renumbering_swapNets

end Renumbered

end VirtuosoFlow.Plugin
