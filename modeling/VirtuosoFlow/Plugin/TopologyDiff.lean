import VirtuosoFlow.Base.Delimited
import VirtuosoFlow.Base.Keyed
import VirtuosoFlow.Plugin.ConnectivityDiff

/-!
# What the comparison of two snapshots finds

An empty `vfpConnectivityDiff` says that the instances and their masters are the same, and that the
terminals in both snapshots are on the same nets. A terminal in only one of them is not looked
at, so the comparison is complete unless the terminals are all that differs.
-/

namespace VirtuosoFlow.Plugin

open Base

/-- A name without the characters that stand between names. -/
def Undivided (name : String) : Prop := '.' ∉ name.toList ∧ '|' ∉ name.toList

/-- The instances have names of their own and each has one terminal of a name, names can be put
together, and no net has the name that stands for the terminals of another. -/
structure WellNamed (s : ConnSnapshot) : Prop where
  instances : (s.instances.map ConnInst.name).Nodup
  terms : ∀ r ∈ s.instances, (r.terms.map Prod.fst).Nodup
  undivided : ∀ r ∈ s.instances, Undivided r.name ∧ ∀ tn ∈ r.terms, Undivided tn.1
  untilded : ∀ r ∈ s.instances, ∀ tn ∈ r.terms, ∀ net, tn.2 = some net → net.toList.head? ≠ some '~'

/-- The instances have names of their own, without a dot, and each has one terminal of a name. -/
structure DotFree (s : ConnSnapshot) : Prop where
  instances : (s.instances.map ConnInst.name).Nodup
  terms : ∀ r ∈ s.instances, (r.terms.map Prod.fst).Nodup
  dotless : ∀ r ∈ s.instances, '.' ∉ r.name.toList

/-- Well chosen names hold no dot. -/
theorem WellNamed.dotFree {s : ConnSnapshot} (h : WellNamed s) : DotFree s where
  instances := h.instances
  terms := h.terms
  dotless r hr := (h.undivided r hr).1.1

/-- A snapshot has an instance of a master. -/
def ConnSnapshot.HasInst (s : ConnSnapshot) (inst master : String) : Prop :=
  ∃ r ∈ s.instances, r.name = inst ∧ r.master = master

/-- A snapshot has a terminal of an instance, on a net or floating. -/
def ConnSnapshot.HasTerm (s : ConnSnapshot) (inst term : String) (net : Option String) : Prop :=
  ∃ r ∈ s.instances, r.name = inst ∧ (term, net) ∈ r.terms

/-- The same instances with the same masters. -/
def SameInstances (snapA snapB : ConnSnapshot) : Prop :=
  ∀ inst master, snapA.HasInst inst master ↔ snapB.HasInst inst master

/-- The same terminals. -/
def SameTerms (snapA snapB : ConnSnapshot) : Prop :=
  ∀ inst term, (∃ net, snapA.HasTerm inst term net) ↔ ∃ net, snapB.HasTerm inst term net

/-- Floating in both, on the same named net, or on auto-named nets with the same members. -/
def SameNet (snapA snapB : ConnSnapshot) : Option String → Option String → Prop
  | none, none => True
  | some netA, some netB =>
    (vfpAutoNetP netA = false ∧ vfpAutoNetP netB = false ∧ netA = netB) ∨
      (vfpAutoNetP netA = true ∧ vfpAutoNetP netB = true ∧
        ∀ term, term ∈ termsOn snapA netA ↔ term ∈ termsOn snapB netB)
  | _, _ => False

/-- Every terminal that is in both is on the same net. -/
def NetsAgree (snapA snapB : ConnSnapshot) : Prop :=
  ∀ inst term netA netB, snapA.HasTerm inst term netA → snapB.HasTerm inst term netB →
    SameNet snapA snapB netA netB

/-- Two snapshots of one topology. -/
def SameTopology (snapA snapB : ConnSnapshot) : Prop :=
  SameInstances snapA snapB ∧ SameTerms snapA snapB ∧ NetsAgree snapA snapB

section Names

variable {s : ConnSnapshot} {inst inst' term term' : String}

/-- The text of a terminal, as characters. -/
theorem toList_instTerm (inst term : String) :
    (instTerm inst term).toList = inst.toList ++ '.' :: term.toList := by
  have hdot : ".".toList = ['.'] := by decide
  rw [instTerm, String.toList_append, String.toList_append, hdot, List.append_assoc]
  rfl

/-- The written terminal tells the instance and the terminal. -/
theorem instTerm_inj (hinst : Undivided inst) (hterm : Undivided term)
    (h : instTerm inst term = instTerm inst' term') : inst = inst' ∧ term = term' := by
  have hlist := congrArg String.toList h
  rw [toList_instTerm, toList_instTerm, List.append_cons_inj_of_notMem hinst.1 hterm.1] at hlist
  exact ⟨String.toList_inj.mp hlist.1, String.toList_inj.mp hlist.2.2⟩

/-- Without dots the text tells the instance and the terminal. -/
theorem instTerm_inj_of_dotless (hinst : '.' ∉ inst.toList) (hinst' : '.' ∉ inst'.toList)
    (h : instTerm inst term = instTerm inst' term') : inst = inst' ∧ term = term' := by
  have hlist := congrArg String.toList h
  rw [toList_instTerm, toList_instTerm] at hlist
  obtain ⟨hfront, hrest⟩ := before_first_inj hinst hinst' hlist
  exact ⟨String.toList_inj.mp hfront, String.toList_inj.mp hrest⟩

/-- The terminal map has the terminals of the snapshot. -/
theorem mem_termMap_iff {pr : String × Option String} : pr ∈ vfpConnTermMap s ↔
    ∃ inst term, pr.1 = instTerm inst term ∧ s.HasTerm inst term pr.2 := by
  simp only [vfpConnTermMap, List.mem_flatMap, List.mem_map]
  constructor
  · rintro ⟨r, hr, tn, htn, rfl⟩
    exact ⟨r.name, tn.1, rfl, r, hr, rfl, htn⟩
  · rintro ⟨inst, term, heq, r, hr, rfl, htn⟩
    exact ⟨r, hr, (term, pr.2), htn, Prod.ext heq.symm rfl⟩

/-- A terminal of the snapshot is in the map. -/
theorem ConnSnapshot.HasTerm.mem_termMap {net : Option String} (h : s.HasTerm inst term net) :
    (instTerm inst term, net) ∈ vfpConnTermMap s :=
  mem_termMap_iff.mpr ⟨inst, term, rfl, h⟩

/-- The names of its terminals hold no divider. -/
theorem WellNamed.undivided_of_hasTerm (h : WellNamed s) {net : Option String}
    (hterm : s.HasTerm inst term net) : Undivided inst ∧ Undivided term := by
  obtain ⟨r, hr, rfl, htn⟩ := hterm
  exact ⟨(h.undivided r hr).1, (h.undivided r hr).2 _ htn⟩

/-- The terminals of a snapshot are all written differently. -/
theorem DotFree.nodup_termMap (h : DotFree s) : ((vfpConnTermMap s).map Prod.fst).Nodup := by
  rw [vfpConnTermMap, List.map_flatMap, List.nodup_flatMap]
  constructor
  · intro r hr
    have hterms := h.terms r hr
    rw [List.map_map]
    rw [List.Nodup, List.pairwise_map] at hterms ⊢
    exact hterms.imp fun {a b} hne heq => hne (instTerm_inj_of_dotless (h.dotless r hr) (h.dotless r hr) heq).2
  · have hinsts := h.instances
    rw [List.Nodup, List.pairwise_map] at hinsts
    refine hinsts.imp_of_mem fun {r r'} hr hr' hne => ?_
    rw [Function.onFun_apply, List.disjoint_left]
    intro text htext htext'
    rw [List.map_map, List.mem_map] at htext htext'
    obtain ⟨tn, htn, rfl⟩ := htext
    obtain ⟨tn', htn', heq⟩ := htext'
    have heq' : instTerm r.name tn.1 = instTerm r'.name tn'.1 := heq.symm
    exact hne (instTerm_inj_of_dotless (h.dotless r hr) (h.dotless r' hr') heq').1

/-- Each terminal is there once. -/
theorem WellNamed.nodup_termMap (h : WellNamed s) : ((vfpConnTermMap s).map Prod.fst).Nodup :=
  h.dotFree.nodup_termMap

end Names

section Instances

variable {snapA snapB : ConnSnapshot}

/-- Nothing is reported on an instance that the second snapshot has with the same master. -/
theorem instDiff_eq_nil_iff (hB : WellNamed snapB) (ra : ConnInst) :
    instDiff snapB.instances ra = [] ↔ snapB.HasInst ra.name ra.master := by
  unfold instDiff
  cases hfind : snapB.instances.find? (fun r => r.name = ra.name) with
  | none =>
    refine iff_of_false (by simp) ?_
    rintro ⟨r, hr, hname, -⟩
    exact List.find?_eq_none.mp hfind r hr (by simpa using hname)
  | some rb =>
    have hrb := List.mem_of_find?_eq_some hfind
    have hname : rb.name = ra.name := by simpa using List.find?_some hfind
    by_cases hmaster : ra.master = rb.master
    · simp only [if_pos hmaster, true_iff]
      exact ⟨rb, hrb, hname, hmaster.symm⟩
    · simp only [if_neg hmaster, List.cons_ne_nil, false_iff]
      rintro ⟨r, hr, hname', hmaster'⟩
      obtain rfl : r = rb := eq_of_key hB.instances hr hrb (hname'.trans hname.symm)
      exact hmaster hmaster'.symm

/-- An instance is not added exactly if it has a namesake. -/
theorem addedDiff_eq_nil_iff (rb : ConnInst) :
    addedDiff snapA.instances rb = [] ↔ ∃ ra ∈ snapA.instances, ra.name = rb.name := by
  unfold addedDiff
  cases hfind : snapA.instances.find? (fun r => r.name = rb.name) with
  | none =>
    refine iff_of_false (by simp) ?_
    rintro ⟨r, hr, hname⟩
    exact List.find?_eq_none.mp hfind r hr (by simpa using hname)
  | some ra =>
    refine iff_of_true rfl ⟨ra, List.mem_of_find?_eq_some hfind, ?_⟩
    simpa using List.find?_some hfind

/-- The passes over the instances report nothing exactly when these are the same. -/
theorem instances_diff_nil_iff (hB : WellNamed snapB) :
    ((∀ ra ∈ snapA.instances, instDiff snapB.instances ra = []) ∧
        ∀ rb ∈ snapB.instances, addedDiff snapA.instances rb = []) ↔
      SameInstances snapA snapB := by
  simp only [instDiff_eq_nil_iff hB, addedDiff_eq_nil_iff]
  constructor
  · rintro ⟨hkept, hadded⟩ inst master
    constructor
    · rintro ⟨ra, hra, rfl, rfl⟩
      exact hkept ra hra
    · rintro ⟨rb, hrb, rfl, rfl⟩
      obtain ⟨ra, hra, hname⟩ := hadded rb hrb
      obtain ⟨rb', hrb', hname', hmaster'⟩ := hkept ra hra
      obtain rfl : rb' = rb := eq_of_key hB.instances hrb' hrb (hname'.trans hname)
      exact ⟨ra, hra, hname, hmaster'.symm⟩
  · intro h
    constructor
    · intro ra hra
      exact (h ra.name ra.master).mp ⟨ra, hra, rfl, rfl⟩
    · intro rb hrb
      obtain ⟨ra, hra, hname, -⟩ := (h rb.name rb.master).mpr ⟨rb, hrb, rfl, rfl⟩
      exact ⟨ra, hra, hname⟩

end Instances

section Canonical

variable {snapA snapB : ConnSnapshot} {net : String} {xs ys : List String}

/-- Sorted lists are one list exactly when they are permutations of each other. -/
theorem sortNames_eq_iff : sortNames xs = sortNames ys ↔ xs.Perm ys := by
  constructor
  · intro h
    have hx : (sortNames xs).Perm xs := List.mergeSort_perm ..
    have hy : (sortNames ys).Perm ys := List.mergeSort_perm ..
    exact hx.symm.trans (h ▸ hy)
  · exact sortNames_perm

/-- What is on a net are terminals of the snapshot. -/
theorem mem_termsOn_iff {text : String} : text ∈ termsOn snapA net ↔
    ∃ inst term, text = instTerm inst term ∧ snapA.HasTerm inst term (some net) := by
  rw [← filterMap_termMap, List.mem_map]
  constructor
  · rintro ⟨pr, hpr, rfl⟩
    obtain ⟨hmem, hnet⟩ := List.mem_filter.mp hpr
    obtain ⟨inst, term, heq, hterm⟩ := mem_termMap_iff.mp hmem
    rw [of_decide_eq_true hnet] at hterm
    exact ⟨inst, term, heq, hterm⟩
  · rintro ⟨inst, term, rfl, hterm⟩
    refine ⟨(instTerm inst term, some net), ?_, rfl⟩
    exact List.mem_filter.mpr ⟨mem_termMap_iff.mpr ⟨inst, term, rfl, hterm⟩, by simp⟩

/-- A net has each of its terminals once. -/
theorem DotFree.nodup_termsOn (h : DotFree snapA) (net : String) : (termsOn snapA net).Nodup := by
  rw [← filterMap_termMap]
  exact h.nodup_termMap.sublist (List.filter_sublist.map _)

/-- So it has with well chosen names. -/
theorem WellNamed.nodup_termsOn (h : WellNamed snapA) (net : String) : (termsOn snapA net).Nodup :=
  h.dotFree.nodup_termsOn net

/-- What is put together is no empty text, and what stands between is not in it. -/
theorem WellNamed.member_apart (h : WellNamed snapA) {text : String} (htext : text ∈ termsOn snapA net) :
    text ≠ "" ∧ '|' ∉ text.toList := by
  obtain ⟨inst, term, rfl, hterm⟩ := mem_termsOn_iff.mp htext
  obtain ⟨hinst, hname⟩ := h.undivided_of_hasTerm hterm
  constructor
  · intro hempty
    simpa [toList_instTerm] using congrArg String.toList hempty
  · rw [toList_instTerm]
    simp [hinst.2, hname.2]

/-- No net's name begins with a tilde. -/
theorem WellNamed.untilded_of_hasTerm (h : WellNamed snapA) {inst term : String}
    (hterm : snapA.HasTerm inst term (some net)) : net.toList.head? ≠ some '~' := by
  obtain ⟨r, hr, -, htn⟩ := hterm
  exact h.untilded r hr _ htn net rfl

/-- The canonical name of an automatic net, as characters. -/
theorem toList_canonName_auto {members : List String} (hauto : vfpAutoNetP net = true) :
    (canonName net members).toList = '~' :: ("|".intercalate (sortNames members)).toList := by
  have htilde : "~".toList = ['~'] := by decide
  rw [canonName, if_pos hauto, String.toList_append, htilde]
  rfl

/-- Sorting keeps the names. -/
theorem mem_sortNames {x : String} : x ∈ sortNames xs ↔ x ∈ xs :=
  (List.mergeSort_perm xs fun a b => decide (a ≤ b)).mem_iff

/-- The canonical names of two auto-named nets are one exactly when their members are the same. -/
theorem canonName_auto_iff (hA : WellNamed snapA) (hB : WellNamed snapB) {netA netB : String}
    (hautoA : vfpAutoNetP netA = true) (hautoB : vfpAutoNetP netB = true) :
    canonName netA (termsOn snapA netA) = canonName netB (termsOn snapB netB) ↔
      ∀ term, term ∈ termsOn snapA netA ↔ term ∈ termsOn snapB netB := by
  rw [← List.perm_ext_iff_of_nodup (hA.nodup_termsOn netA) (hB.nodup_termsOn netB), ← sortNames_eq_iff]
  constructor
  · intro h
    have hlist := congrArg String.toList h
    rw [toList_canonName_auto hautoA, toList_canonName_auto hautoB] at hlist
    have hjoined := String.toList_inj.mp (List.cons.inj hlist).2
    exact string_intercalate_inj (by decide) (fun x hx => hA.member_apart (mem_sortNames.mp hx))
      (fun y hy => hB.member_apart (mem_sortNames.mp hy)) hjoined
  · intro h
    rw [canonName, canonName, if_pos hautoA, if_pos hautoB, h]

/-- The canonical name of an auto-named net is the name of no net. -/
theorem canonName_ne_of_auto {inst term other : String} {members : List String} (hA : WellNamed snapA)
    (hauto : vfpAutoNetP other = true) (hterm : snapA.HasTerm inst term (some net)) :
    net ≠ canonName other members := by
  intro heq
  apply hA.untilded_of_hasTerm hterm
  rw [heq, toList_canonName_auto hauto]
  rfl

/-- What stands for the nets of two terminals is one exactly when they are the same net. -/
theorem standsFor_eq_iff (hA : WellNamed snapA) (hB : WellNamed snapB) {inst term inst' term' : String}
    {netA netB : Option String} (htermA : snapA.HasTerm inst term netA)
    (htermB : snapB.HasTerm inst' term' netB) :
    standsFor snapA netA = standsFor snapB netB ↔ SameNet snapA snapB netA netB := by
  cases netA with
  | none => cases netB <;> simp [standsFor, SameNet]
  | some a =>
    cases netB with
    | none => simp [standsFor, SameNet]
    | some b =>
      rw [standsFor, standsFor, Option.map_some, Option.map_some, Option.some_inj, SameNet]
      cases hautoA : vfpAutoNetP a with
      | false =>
        have hnameA : canonName a (termsOn snapA a) = a := by simp [canonName, hautoA]
        rw [hnameA]
        cases hautoB : vfpAutoNetP b with
        | false => simp [canonName, hautoB]
        | true => simpa using canonName_ne_of_auto hA hautoB htermA
      | true =>
        cases hautoB : vfpAutoNetP b with
        | false =>
          have hnameB : canonName b (termsOn snapB b) = b := by simp [canonName, hautoB]
          rw [hnameB]
          simpa using (canonName_ne_of_auto hB hautoA htermB).symm
        | true =>
          rw [canonName_auto_iff hA hB hautoA hautoB]
          simp

end Canonical

section Complete

variable {snapA snapB : ConnSnapshot}

/-- Nothing is reported on a terminal exactly when it is on the same net wherever it is in both. -/
theorem termDiff_eq_nil_iff (hA : WellNamed snapA) (hB : WellNamed snapB) {inst term : String}
    {netA : Option String} (htermA : snapA.HasTerm inst term netA) :
    termDiff (vfpConnCanonMap snapA) (vfpConnCanonMap snapB) (vfpConnTermMap snapB)
        (instTerm inst term, netA) = [] ↔
      ∀ netB, snapB.HasTerm inst term netB → SameNet snapA snapB netA netB := by
  unfold termDiff
  cases hfind : (vfpConnTermMap snapB).find? (fun x => x.1 = instTerm inst term) with
  | none =>
    refine iff_of_true rfl ?_
    intro netB htermB
    exact absurd (decide_eq_true rfl) (List.find?_eq_none.mp hfind _ htermB.mem_termMap)
  | some pb =>
    have hmemB := List.mem_of_find?_eq_some hfind
    have hkey : pb.1 = instTerm inst term := by simpa using List.find?_some hfind
    -- the terminal that is found is the only one that is written so
    have honly : ∀ netB, snapB.HasTerm inst term netB ↔ netB = pb.2 := by
      intro netB
      constructor
      · intro htermB
        exact congrArg Prod.snd (eq_of_key hB.nodup_termMap htermB.mem_termMap hmemB hkey.symm)
      · rintro rfl
        obtain ⟨inst', term', htext, htermB⟩ := mem_termMap_iff.mp hmemB
        obtain ⟨hinst, hterm⟩ := hA.undivided_of_hasTerm htermA
        obtain ⟨rfl, rfl⟩ := instTerm_inj hinst hterm (hkey.symm.trans htext)
        exact htermB
    have hsame : standsFor snapA netA = standsFor snapB pb.2 ↔ SameNet snapA snapB netA pb.2 :=
      standsFor_eq_iff hA hB htermA ((honly pb.2).mpr rfl)
    have hcanonA : canonOf (vfpConnCanonMap snapA) netA = standsFor snapA netA :=
      canonOf_eq htermA.mem_termMap
    dsimp only
    rw [hcanonA, canonOf_eq hmemB]
    simp only [honly, forall_eq, ← hsame]
    by_cases hnet : standsFor snapA netA = standsFor snapB pb.2 <;> simp [hnet]

/-- The comparison finds no difference exactly when the instances are the same and the terminals in
both snapshots are on the same nets. -/
theorem vfpConnectivityDiff_nil_iff (hA : WellNamed snapA) (hB : WellNamed snapB) :
    vfpConnectivityDiff snapA snapB = [] ↔ SameInstances snapA snapB ∧ NetsAgree snapA snapB := by
  have hterms : (∀ pa ∈ vfpConnTermMap snapA, termDiff (vfpConnCanonMap snapA) (vfpConnCanonMap snapB)
      (vfpConnTermMap snapB) pa = []) ↔ NetsAgree snapA snapB := by
    constructor
    · intro h inst term netA netB htermA htermB
      exact (termDiff_eq_nil_iff hA hB htermA).mp (h _ htermA.mem_termMap) netB htermB
    · rintro h ⟨text, netA⟩ hpa
      obtain ⟨inst, term, rfl, htermA⟩ := mem_termMap_iff.mp hpa
      exact (termDiff_eq_nil_iff hA hB htermA).mpr fun netB htermB =>
        h inst term netA netB htermA htermB
  rw [vfpConnectivityDiff, List.append_eq_nil_iff, List.append_eq_nil_iff, List.flatMap_eq_nil_iff,
    List.flatMap_eq_nil_iff, List.flatMap_eq_nil_iff, hterms, ← and_assoc, instances_diff_nil_iff hB]

/-- The comparison is complete exactly when the terminals are the same, or something else differs. -/
theorem diff_complete_iff (hA : WellNamed snapA) (hB : WellNamed snapB) :
    (vfpConnectivityDiff snapA snapB = [] ↔ SameTopology snapA snapB) ↔
      SameTerms snapA snapB ∨ ¬ SameInstances snapA snapB ∨ ¬ NetsAgree snapA snapB := by
  rw [vfpConnectivityDiff_nil_iff hA hB, SameTopology]
  tauto

end Complete

/-- A schematic with one instance, which has these terminals. -/
def samplePins (terms : List (String × Option String)) : ConnSnapshot where
  cellview := "lib/top/schematic"
  instances := [⟨"I0", "lib/x/symbol", terms⟩]
  namedNets := ["in"]
  autoNets := []

/-- The names of the samples are well chosen. -/
theorem wellNamed_samplePins {terms : List (String × Option String)} (hdistinct : (terms.map Prod.fst).Nodup)
    (hnames : ∀ tn ∈ terms, tn.1 = "A" ∨ tn.1 = "B") (hnets : ∀ tn ∈ terms, tn.2 = some "in" ∨ tn.2 = none) :
    WellNamed (samplePins terms) := by
  have hundivided : Undivided "I0" ∧ Undivided "A" ∧ Undivided "B" := by
    refine ⟨⟨?_, ?_⟩, ⟨?_, ?_⟩, ⟨?_, ?_⟩⟩ <;> decide
  refine ⟨by simp [samplePins], ?_, ?_, ?_⟩
  · simpa [samplePins] using hdistinct
  · simp only [samplePins, List.mem_singleton, forall_eq]
    refine ⟨hundivided.1, fun tn htn => ?_⟩
    rcases hnames tn htn with hname | hname
    · exact hname ▸ hundivided.2.1
    · exact hname ▸ hundivided.2.2
  · simp only [samplePins, List.mem_singleton, forall_eq]
    intro tn htn net hnet
    rcases hnets tn htn with hin | hnone
    · obtain rfl : "in" = net := Option.some.inj (hin.symm.trans hnet)
      decide
    · rw [hnone] at hnet
      cases hnet

/-- A snapshot against itself. -/
theorem diff_complete_iff_sample :
    vfpConnectivityDiff (samplePins [("A", some "in")]) (samplePins [("A", some "in")]) = [] ↔
      SameTopology (samplePins [("A", some "in")]) (samplePins [("A", some "in")]) := by
  have hnamed : WellNamed (samplePins [("A", some "in")]) :=
    wellNamed_samplePins (by simp) (by simp) (by simp)
  exact (diff_complete_iff hnamed hnamed).mpr (.inl fun _ _ => Iff.rfl)

/-- An instance gains a terminal, which floats, and the comparison finds no difference. -/
theorem gained_terminal_unseen :
    WellNamed (samplePins [("A", some "in")]) ∧
      WellNamed (samplePins [("A", some "in"), ("B", none)]) ∧
      vfpConnectivityDiff (samplePins [("A", some "in")]) (samplePins [("A", some "in"), ("B", none)]) = [] ∧
      ¬ SameTopology (samplePins [("A", some "in")]) (samplePins [("A", some "in"), ("B", none)]) := by
  refine ⟨wellNamed_samplePins (by simp) (by simp) (by simp),
    wellNamed_samplePins (by simp) (by simp) (by simp), by decide, ?_⟩
  rintro ⟨-, hterms, -⟩
  obtain ⟨net, r, hr, -, htn⟩ := (hterms "I0" "B").mpr ⟨none, _, List.mem_singleton_self _, rfl, by simp⟩
  obtain rfl := List.mem_singleton.mp hr
  simp at htn

end VirtuosoFlow.Plugin
