import VirtuosoFlow.Plugin.Connectivity

/-!
# The comparison of two snapshots

`vfpConnectivityDiff` compares terminals by the text `inst.term` and auto-named nets by their
sorted terminals. That text does not tell an instance `a` with a terminal `b.c` from an
instance `a.b` with a terminal `c`, so the comparison of a snapshot with itself is empty
just when terminals written alike are on nets that are written alike.
-/

namespace VirtuosoFlow.Plugin

open JsonText

section Diff

/-- A record of `vfpConnectivityDiff`. -/
inductive ConnDiff where
  | instRemoved (name : String)
  | instAdded (name : String)
  | masterChanged (name before after : String)
  | netChanged (term : String) (before after : Option String)
  deriving DecidableEq

/-- The text of a terminal of an instance. -/
def instTerm (inst term : String) : String := inst ++ "." ++ term

/-- `vfpConnTermMap(snap)`. -/
def vfpConnTermMap (snap : ConnSnapshot) : List (String × Option String) :=
  snap.instances.flatMap fun r => r.terms.map fun tn => (instTerm r.name tn.1, tn.2)

/-- One terminal in `vfpConnNetMembers`. -/
def addMember (acc : List (String × List String)) (pr : String × Option String) : List (String × List String) :=
  match pr.2 with
  | none => acc
  | some net =>
    match acc.lookup net with
    | some members => Base.assocSet net (pr.1 :: members) acc
    | none => (net, [pr.1]) :: acc

/-- `vfpConnNetMembers(snap)`. -/
def vfpConnNetMembers (snap : ConnSnapshot) : List (String × List String) :=
  (vfpConnTermMap snap).foldl addMember []

/-- `sort(members 'alphalessp)`. -/
def sortNames (members : List String) : List String := members.mergeSort fun a b => decide (a ≤ b)

/-- The canonical name of a net with some terminals. -/
def canonName (net : String) (members : List String) : String :=
  if vfpAutoNetP net then "~" ++ "|".intercalate (sortNames members) else net

/-- `vfpConnCanonMap(snap)`. -/
def vfpConnCanonMap (snap : ConnSnapshot) : List (String × String) :=
  (vfpConnNetMembers snap).map fun e => (e.1, canonName e.1 e.2)

/-- `and(net cadr(assoc(net canon)))`. -/
def canonOf (canon : List (String × String)) (net : Option String) : Option String :=
  net.bind fun net => canon.lookup net

/-- What is reported on an instance of the first snapshot. -/
def instDiff (instsB : List ConnInst) (ra : ConnInst) : List ConnDiff :=
  match instsB.find? fun r => r.name = ra.name with
  | none => [.instRemoved ra.name]
  | some rb => if ra.master = rb.master then [] else [.masterChanged ra.name ra.master rb.master]

/-- What is reported on an instance of the second snapshot. -/
def addedDiff (instsA : List ConnInst) (rb : ConnInst) : List ConnDiff :=
  match instsA.find? fun r => r.name = rb.name with
  | none => [.instAdded rb.name]
  | some _ => []

/-- What is reported on a terminal of the first snapshot. -/
def termDiff (canonA canonB : List (String × String)) (termsB : List (String × Option String))
    (pa : String × Option String) : List ConnDiff :=
  match termsB.find? fun x => x.1 = pa.1 with
  | none => []
  | some pb => if canonOf canonA pa.2 = canonOf canonB pb.2 then [] else [.netChanged pa.1 pa.2 pb.2]

/-- `vfpConnectivityDiff(snapA snapB)`. -/
def vfpConnectivityDiff (snapA snapB : ConnSnapshot) : List ConnDiff :=
  snapA.instances.flatMap (instDiff snapB.instances) ++
    (snapB.instances.flatMap (addedDiff snapA.instances) ++
      (vfpConnTermMap snapA).flatMap
        (termDiff (vfpConnCanonMap snapA) (vfpConnCanonMap snapB) (vfpConnTermMap snapB)))

end Diff

section Nets

/-- The terminals of a snapshot on a net, as they are written. -/
def termsOn (s : ConnSnapshot) (net : String) : List String :=
  s.instances.flatMap fun r =>
    (r.terms.filter fun tn => tn.2 = some net).map fun tn => instTerm r.name tn.1

/-- What stands for the net of a terminal: its name, or the sorted terminals of an auto-named one. -/
def standsFor (s : ConnSnapshot) (net : Option String) : Option String :=
  net.map fun net => canonName net (termsOn s net)

/-- The entries of the terminal map for a net are the terminals on it. -/
theorem filterMap_termMap (s : ConnSnapshot) (net : String) :
    ((vfpConnTermMap s).filter fun pr => pr.2 = some net).map Prod.fst = termsOn s net := by
  unfold vfpConnTermMap termsOn
  rw [List.filter_flatMap, List.map_flatMap]
  congr 1
  funext r
  rw [List.filter_map, List.map_map]
  rfl

/-- The members of a net after some terminals: the new ones, the last first. -/
theorem lookup_foldl_addMember (terms : List (String × Option String)) (acc : List (String × List String))
    (net : String) :
    (terms.foldl addMember acc).lookup net =
      match acc.lookup net, (terms.filter fun pr => pr.2 = some net).map Prod.fst with
      | none, [] => none
      | none, t :: ts => some (t :: ts).reverse
      | some members, new => some (new.reverse ++ members) := by
  induction terms generalizing acc with
  | nil => cases h : acc.lookup net <;> simp [h]
  | cons pr terms ih =>
    obtain ⟨term, on⟩ := pr
    rw [List.foldl_cons, ih]
    cases on with
    | none => simp [addMember]
    | some n =>
      by_cases hn : n = net
      · subst hn
        cases hacc : acc.lookup n with
        | none => simp [addMember, hacc]
        | some members => simp [addMember, hacc]
      · have hother : (addMember acc (term, some n)).lookup net = acc.lookup net := by
          cases hacc : acc.lookup n with
          | none => simp [addMember, hacc, Base.lookup_cons_eq_ite, Ne.symm hn]
          | some members => simp [addMember, hacc, Base.lookup_assocSet_ne (Ne.symm hn)]
        simp [hother, hn]

/-- Sorting forgets the order. -/
theorem sortNames_perm {xs ys : List String} (h : xs.Perm ys) : sortNames xs = sortNames ys := by
  have hx := List.mergeSort_perm xs fun a b => decide (a ≤ b)
  have hy := List.mergeSort_perm ys fun a b => decide (a ≤ b)
  exact List.Perm.eq_of_sortedLE List.sortedLE_mergeSort List.sortedLE_mergeSort (hx.trans (h.trans hy.symm))

/-- The canonical name of a net is made of its members. -/
theorem lookup_map_canon (members : List (String × List String)) (net : String) :
    (members.map fun e => (e.1, canonName e.1 e.2)).lookup net = (members.lookup net).map (canonName net) := by
  induction members with
  | nil => rfl
  | cons e members ih =>
    rw [List.map_cons, Base.lookup_cons_eq_ite, Base.lookup_cons_eq_ite, ih]
    split
    · rename_i h
      subst h
      rfl
    · rfl

/-- The canonical net of a terminal of the snapshot is what stands for its net. -/
theorem canonOf_eq {s : ConnSnapshot} {pr : String × Option String} (h : pr ∈ vfpConnTermMap s) :
    canonOf (vfpConnCanonMap s) pr.2 = standsFor s pr.2 := by
  obtain ⟨term, on⟩ := pr
  cases on with
  | none => rfl
  | some net =>
    have hterm : term ∈ termsOn s net := by
      rw [← filterMap_termMap]
      exact List.mem_map.mpr ⟨_, List.mem_filter.mpr ⟨h, by simp⟩, rfl⟩
    have hmembers := lookup_foldl_addMember (vfpConnTermMap s) [] net
    rw [filterMap_termMap] at hmembers
    cases hterms : termsOn s net with
    | nil =>
      rw [hterms] at hterm
      cases hterm
    | cons t ts =>
      rw [hterms] at hmembers
      have hsort : sortNames (t :: ts).reverse = sortNames (t :: ts) := sortNames_perm (List.reverse_perm _)
      have hcanon : canonName net (t :: ts).reverse = canonName net (t :: ts) := by
        rw [canonName, hsort, canonName]
      simp only [canonOf, standsFor, vfpConnCanonMap, vfpConnNetMembers, Option.bind_some, Option.map_some,
        lookup_map_canon, hmembers, hterms, List.lookup_nil, hcanon]

end Nets

section Untouched

variable {s : ConnSnapshot}

/-- Instances of one name have one master, and terminals written alike are on nets that are
written alike. -/
structure Unambiguous (s : ConnSnapshot) : Prop where
  masters : ∀ r ∈ s.instances, ∀ r' ∈ s.instances, r.name = r'.name → r.master = r'.master
  nets : ∀ r ∈ s.instances, ∀ tn ∈ r.terms, ∀ r' ∈ s.instances, ∀ tn' ∈ r'.terms,
    instTerm r.name tn.1 = instTerm r'.name tn'.1 → standsFor s tn.2 = standsFor s tn'.2

/-- Each element agrees with the first one of its key just when all of one key agree. -/
theorem agree_iff {α κ β : Type} [DecidableEq κ] {xs : List α} {key : α → κ} {val : α → β} :
    (∀ a ∈ xs, ∀ b, xs.find? (fun x => key x = key a) = some b → val a = val b) ↔
      ∀ a ∈ xs, ∀ b ∈ xs, key a = key b → val a = val b := by
  constructor
  · intro h a ha b hb hkey
    cases hfind : xs.find? (fun x => key x = key a) with
    | none => exact absurd (List.find?_eq_none.mp hfind a ha) (by simp)
    | some c =>
      have hb' : xs.find? (fun x => key x = key b) = some c := by
        rw [← hkey]
        exact hfind
      rw [h a ha c hfind, h b hb c hb']
  · intro h a ha b hfind
    have hkey : key b = key a := by simpa using List.find?_some hfind
    exact h a ha b (List.mem_of_find?_eq_some hfind) hkey.symm

/-- An instance gives no difference exactly if its namesake has the same master. -/
theorem instDiff_nil_iff (insts : List ConnInst) {r : ConnInst} (hr : r ∈ insts) :
    instDiff insts r = [] ↔ ∀ b, insts.find? (fun x => x.name = r.name) = some b → r.master = b.master := by
  unfold instDiff
  cases hfind : insts.find? (fun x => x.name = r.name) with
  | none => exact absurd (List.find?_eq_none.mp hfind r hr) (by simp)
  | some b => simp

/-- An instance that is there is not added. -/
theorem addedDiff_nil (insts : List ConnInst) {r : ConnInst} (hr : r ∈ insts) : addedDiff insts r = [] := by
  unfold addedDiff
  cases hfind : insts.find? (fun x => x.name = r.name) with
  | none => exact absurd (List.find?_eq_none.mp hfind r hr) (by simp)
  | some b => rfl

/-- A terminal gives no difference exactly if its namesake stands for the same net. -/
theorem termDiff_nil_iff {pr : String × Option String} (hpr : pr ∈ vfpConnTermMap s) :
    termDiff (vfpConnCanonMap s) (vfpConnCanonMap s) (vfpConnTermMap s) pr = [] ↔
      ∀ b, (vfpConnTermMap s).find? (fun x => x.1 = pr.1) = some b → standsFor s pr.2 = standsFor s b.2 := by
  unfold termDiff
  cases hfind : (vfpConnTermMap s).find? (fun x => x.1 = pr.1) with
  | none => exact absurd (List.find?_eq_none.mp hfind pr hpr) (by simp)
  | some b => simp [canonOf_eq hpr, canonOf_eq (List.mem_of_find?_eq_some hfind)]

/-- The terminal map has the terminals of all instances. -/
theorem forall_termMap {P : String × Option String → Prop} :
    (∀ pr ∈ vfpConnTermMap s, P pr) ↔ ∀ r ∈ s.instances, ∀ tn ∈ r.terms, P (instTerm r.name tn.1, tn.2) := by
  simp only [vfpConnTermMap, List.mem_flatMap, List.mem_map]
  constructor
  · intro h r hr tn htn
    exact h _ ⟨r, hr, tn, htn, rfl⟩
  · rintro h pr ⟨r, hr, tn, htn, rfl⟩
    exact h r hr tn htn

/-- A snapshot is found equal to itself just when it is unambiguous. -/
theorem vfpConnectivityDiff_self_iff (s : ConnSnapshot) : vfpConnectivityDiff s s = [] ↔ Unambiguous s := by
  have hmasters : (∀ r ∈ s.instances, instDiff s.instances r = []) ↔
      ∀ r ∈ s.instances, ∀ r' ∈ s.instances, r.name = r'.name → r.master = r'.master := by
    rw [← agree_iff]
    exact forall₂_congr fun r hr => instDiff_nil_iff s.instances hr
  have hnets : (∀ pr ∈ vfpConnTermMap s,
        termDiff (vfpConnCanonMap s) (vfpConnCanonMap s) (vfpConnTermMap s) pr = []) ↔
      ∀ pr ∈ vfpConnTermMap s, ∀ pr' ∈ vfpConnTermMap s, pr.1 = pr'.1 → standsFor s pr.2 = standsFor s pr'.2 := by
    rw [← @agree_iff _ _ _ _ (vfpConnTermMap s) Prod.fst fun pr => standsFor s pr.2]
    exact forall₂_congr fun pr hpr => termDiff_nil_iff hpr
  have hadded : ∀ r ∈ s.instances, addedDiff s.instances r = [] := fun r hr => addedDiff_nil s.instances hr
  unfold vfpConnectivityDiff
  rw [List.append_eq_nil_iff, List.append_eq_nil_iff, List.flatMap_eq_nil_iff, List.flatMap_eq_nil_iff,
    List.flatMap_eq_nil_iff, hmasters, hnets]
  simp only [forall_termMap]
  exact ⟨fun h => ⟨h.1, h.2.2⟩, fun h => ⟨h.masters, hadded, h.nets⟩⟩

/-- A stored snapshot comes back as it was; and it is found equal to the untouched schematic
just when the schematic is unambiguous. -/
theorem untouched_no_difference_iff (fmt : FloatFormat) (printL : Value → String) (printG : ℚ → String)
    (layouts : List (Option ℕ)) (hclean : s.Clean) :
    (∃ stored : ConnSnapshot, restored fmt printL printG layouts s.toSkill = some stored.toSkill ∧ stored = s ∧
      vfpConnectivityDiff stored s = []) ↔ Unambiguous s := by
  rw [← vfpConnectivityDiff_self_iff]
  constructor
  · rintro ⟨stored, -, rfl, hdiff⟩
    exact hdiff
  · intro hdiff
    exact ⟨s, restored_toSkill printL printG layouts hclean, rfl, hdiff⟩

/-- Names are clean if each of their characters is. -/
theorem clean_of_all
    (h : (s.names.all fun name => name.toList.all fun c => 32 ≤ c.toNat || c == '\n' || c == '\t') = true) :
    s.Clean := by
  intro name hname c hc hlow
  have hname' := List.all_eq_true.mp (List.all_eq_true.mp h name hname) c hc
  simp only [Bool.or_eq_true, decide_eq_true_eq, beq_iff_eq] at hname'
  rcases hname' with (hhigh | hnewline) | htab
  · omega
  · exact .inl hnewline
  · exact .inr htab

/-- A divider whose tap is unconnected. -/
def sampleDivider : ConnSnapshot where
  cellview := "lib/div/schematic"
  instances := [⟨"R0", "analogLib/res/symbol", [("PLUS", some "vin"), ("MINUS", some "net1")]⟩,
    ⟨"R1", "analogLib/res/symbol", [("PLUS", some "net1"), ("MINUS", none)]⟩]
  namedNets := ["vin"]
  autoNets := ["net1"]

/-- A divider with one net unconnected, stored and read back. -/
theorem untouched_no_difference_iff_sample :
    (∃ stored : ConnSnapshot, restored .sample (fun _ => "") (fun _ => "0") [some 2, none] sampleDivider.toSkill =
      some stored.toSkill ∧ stored = sampleDivider ∧ vfpConnectivityDiff stored sampleDivider = []) ↔
      Unambiguous sampleDivider :=
  untouched_no_difference_iff .sample _ _ _ (clean_of_all (by decide))

/-- Two terminals that are written alike, on different nets. -/
def sampleDotted : ConnSnapshot where
  cellview := "lib/top/schematic"
  instances := [⟨"a", "lib/x/symbol", [("b.c", some "in")]⟩, ⟨"a.b", "lib/y/symbol", [("c", some "out")]⟩]
  namedNets := ["in", "out"]
  autoNets := []

/-- Nothing was touched, and the comparison reports a changed net. -/
theorem dotted_names_differ :
    sampleDotted.Clean ∧ ¬ ∃ stored : ConnSnapshot,
      restored .sample (fun _ => "") (fun _ => "0") [some 2, none] sampleDotted.toSkill = some stored.toSkill ∧
        stored = sampleDotted ∧ vfpConnectivityDiff stored sampleDotted = [] := by
  refine ⟨clean_of_all (by decide), ?_⟩
  rintro ⟨stored, -, rfl, hdiff⟩
  have hnets := ((vfpConnectivityDiff_self_iff sampleDotted).mp hdiff).nets
  have hsame := hnets ⟨"a", "lib/x/symbol", [("b.c", some "in")]⟩ (by simp [sampleDotted]) ("b.c", some "in")
    (by simp) ⟨"a.b", "lib/y/symbol", [("c", some "out")]⟩ (by simp [sampleDotted]) ("c", some "out") (by simp)
    (by decide)
  have hin : vfpAutoNetP "in" = false := by decide
  have hout : vfpAutoNetP "out" = false := by decide
  simp [standsFor, canonName, hin, hout] at hsame

end Untouched

end VirtuosoFlow.Plugin
