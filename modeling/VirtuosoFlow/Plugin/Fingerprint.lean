import VirtuosoFlow.Base.Delimited
import VirtuosoFlow.Base.Keyed
import VirtuosoFlow.Plugin.TopologyDiff

/-!
# The fingerprint of the inputs of a simulation

`vfpInputsFingerprint` writes the test, the net of each instance terminal, and the cell and the explicit
parameters of each instance into one text. For names without the characters that stand between them
the text tells all of these. It does not tell the library and the view of a master.
-/

namespace VirtuosoFlow.Plugin

open Base

/-- An instance as the pre-flight reads it: its master by name, the open master, its explicit parameters
and its terminals. A net has a name. -/
structure SimInst (ι : Type) where
  name : String
  libName : String
  cellName : String
  viewName : String
  master : Option ι
  prop : List (String × Value)
  instTerms : List (String × Option String)
  distinctProps : (prop.map Prod.fst).Nodup
  distinctTerms : (instTerms.map Prod.fst).Nodup
  namedNets : ∀ it ∈ instTerms, it.2 ≠ some ""

/-- A cellview as the pre-flight reads it. -/
structure SimCellView (ι : Type) where
  libName : String
  cellName : String
  viewName : String
  instances : List (SimInst ι)

/-- `sprintf(nil "%s.%s=%s" ...)`. -/
def netLine (inst term : String) (net : Option String) : String :=
  inst ++ "." ++ term ++ "=" ++ net.getD ""

/-- `sprintf(nil "%s=%s" p~>name vfpToStr(p~>value))`. -/
def propText (printer : Printer) (p : String × Value) : String := p.1 ++ "=" ++ vfpToStr printer p.2

/-- `sprintf(nil "%s:%s[%s]" ...)`. -/
def partText (inst cell : String) (pp : List String) : String :=
  inst ++ ":" ++ cell ++ "[" ++ ",".intercalate (sortNames pp) ++ "]"

section Fingerprint

variable {ι : Type}

/-- The lines on terminals. -/
def SimCellView.terms (cv : SimCellView ι) : List String :=
  (cv.instances.flatMap fun inst => inst.instTerms.map fun it => netLine inst.name it.1 it.2).reverse

/-- The lines on instances. -/
def SimCellView.parts (printer : Printer) (cv : SimCellView ι) : List String :=
  (cv.instances.map fun inst =>
    partText inst.name inst.cellName (inst.prop.map (propText printer)).reverse).reverse

/-- `vfpInputsFingerprint(cv test)`. -/
def vfpInputsFingerprint (printer : Printer) (cv : Option (SimCellView ι)) (test : String) : String :=
  let terms := sortNames ((cv.map SimCellView.terms).getD [])
  let parts := sortNames ((cv.map (SimCellView.parts printer)).getD [])
  "test=" ++ vfpToStr printer (.str test) ++ ";conn=" ++ "|".intercalate terms ++ ";params=" ++
    "|".intercalate parts

/-- A name without the characters that stand between names. -/
def Undelimited (name : String) : Prop := ∀ c ∈ ['=', '.', ':', ';', '|', ',', '[', ']'], c ∉ name.toList

/-- The instances have names of their own, and no name or value has a character that stands between
names. -/
structure PlainNames (printer : Printer) (cv : SimCellView ι) : Prop where
  distinct : (cv.instances.map SimInst.name).Nodup
  insts : ∀ inst ∈ cv.instances, Undelimited inst.name ∧ Undelimited inst.cellName
  terms : ∀ inst ∈ cv.instances, ∀ it ∈ inst.instTerms, Undelimited it.1 ∧ Undelimited (it.2.getD "")
  props : ∀ inst ∈ cv.instances, ∀ p ∈ inst.prop, Undelimited p.1 ∧ Undelimited (vfpToStr printer p.2)

/-- A terminal of an instance is on a net, or on none. -/
def SimCellView.OnNet (cv : SimCellView ι) (inst term : String) (net : Option String) : Prop :=
  ∃ i ∈ cv.instances, i.name = inst ∧ (term, net) ∈ i.instTerms

/-- An instance has a master of this cell. -/
def SimCellView.HasCell (cv : SimCellView ι) (inst cell : String) : Prop :=
  ∃ i ∈ cv.instances, i.name = inst ∧ i.cellName = cell

/-- An instance has this master. -/
def SimCellView.HasMaster (cv : SimCellView ι) (inst lib cell view : String) : Prop :=
  ∃ i ∈ cv.instances, i.name = inst ∧ i.libName = lib ∧ i.cellName = cell ∧ i.viewName = view

/-- An instance has an explicit parameter with a value of this text. -/
def SimCellView.HasProp (printer : Printer) (cv : SimCellView ι) (inst prop text : String) : Prop :=
  ∃ i ∈ cv.instances, i.name = inst ∧ ∃ value, (prop, value) ∈ i.prop ∧ vfpToStr printer value = text

/-- What the fingerprint tells is the same. -/
structure SameTold (printer : Printer) (cv cv' : SimCellView ι) (test test' : String) : Prop where
  test : test = test'
  nets : ∀ inst term net, cv.OnNet inst term net ↔ cv'.OnNet inst term net
  cells : ∀ inst cell, cv.HasCell inst cell ↔ cv'.HasCell inst cell
  props : ∀ inst prop text, cv.HasProp printer inst prop text ↔ cv'.HasProp printer inst prop text

/-- The instances have the same masters. -/
def SameMasters (cv cv' : SimCellView ι) : Prop :=
  ∀ inst lib cell view, cv.HasMaster inst lib cell view ↔ cv'.HasMaster inst lib cell view

/-- Test, nets, masters and explicit parameters are the same. -/
structure SameContent (printer : Printer) (cv cv' : SimCellView ι) (test test' : String) : Prop where
  test : test = test'
  nets : ∀ inst term net, cv.OnNet inst term net ↔ cv'.OnNet inst term net
  masters : SameMasters cv cv'
  props : ∀ inst prop text, cv.HasProp printer inst prop text ↔ cv'.HasProp printer inst prop text

end Fingerprint

section Texts

variable {inst inst' term term' cell cell' : String} {net net' : Option String} {pp pp' : List String}
  {printer : Printer} {p p' : String × Value}

/-- The line of a terminal, as characters. -/
theorem toList_netLine (inst term : String) (net : Option String) :
    (netLine inst term net).toList = inst.toList ++ '.' :: (term.toList ++ '=' :: (net.getD "").toList) := by
  have hdot : ".".toList = ['.'] := by decide
  have heq : "=".toList = ['='] := by decide
  simp only [netLine, String.toList_append, hdot, heq, List.append_assoc, List.cons_append, List.nil_append]

/-- The text of a property, as characters. -/
theorem toList_propText (printer : Printer) (p : String × Value) :
    (propText printer p).toList = p.1.toList ++ '=' :: (vfpToStr printer p.2).toList := by
  have heq : "=".toList = ['='] := by decide
  simp only [propText, String.toList_append, heq, List.append_assoc, List.singleton_append]

/-- The text of an instance, as characters. -/
theorem toList_partText (inst cell : String) (pp : List String) : (partText inst cell pp).toList =
    (inst.toList ++ ':' :: (cell.toList ++ '[' :: (",".intercalate (sortNames pp)).toList)) ++ [']'] := by
  have hcolon : ":".toList = [':'] := by decide
  have hopen : "[".toList = ['['] := by decide
  have hclose : "]".toList = [']'] := by decide
  simp only [partText, String.toList_append, hcolon, hopen, hclose, List.append_assoc, List.cons_append,
    List.nil_append]

/-- The name of a net tells whether there is one. -/
theorem getD_inj (hnet : net ≠ some "") (hnet' : net' ≠ some "") (h : net.getD "" = net'.getD "") :
    net = net' := by
  cases net with
  | none =>
    cases net' with
    | none => rfl
    | some name => exact absurd (congrArg some h.symm) hnet'
  | some name =>
    cases net' with
    | none => exact absurd (congrArg some h) hnet
    | some name' => exact congrArg some h

/-- A line on a terminal tells the instance, the terminal and its net. -/
theorem netLine_inj (hinst : Undelimited inst) (hinst₂ : Undelimited inst')
    (hterm : Undelimited term) (hterm₂ : Undelimited term')
    (hnet : net ≠ some "") (hnet' : net' ≠ some "") (h : netLine inst term net = netLine inst' term' net') :
    inst = inst' ∧ term = term' ∧ net = net' := by
  have hlist := congrArg String.toList h
  rw [toList_netLine, toList_netLine] at hlist
  obtain ⟨hi, hrest⟩ := before_first_inj (hinst '.' (by simp)) (hinst₂ '.' (by simp)) hlist
  obtain ⟨ht, hn⟩ := before_first_inj (hterm '=' (by simp)) (hterm₂ '=' (by simp)) hrest
  exact ⟨String.toList_inj.mp hi, String.toList_inj.mp ht, getD_inj hnet hnet' (String.toList_inj.mp hn)⟩

/-- The text of a parameter tells its name and the text of its value. -/
theorem propText_inj (hp : Undelimited p.1) (hp₂ : Undelimited p'.1)
    (h : propText printer p = propText printer p') :
    p.1 = p'.1 ∧ vfpToStr printer p.2 = vfpToStr printer p'.2 := by
  have hlist := congrArg String.toList h
  rw [toList_propText, toList_propText] at hlist
  obtain ⟨hname, hvalue⟩ := before_first_inj (hp '=' (by simp)) (hp₂ '=' (by simp)) hlist
  exact ⟨String.toList_inj.mp hname, String.toList_inj.mp hvalue⟩

/-- The text of an instance tells its name, its cell and its parameters up to their order. -/
theorem partText_inj (hinst : Undelimited inst) (hinst₂ : Undelimited inst')
    (hcell : Undelimited cell) (hcell₂ : Undelimited cell')
    (hpp : ∀ x ∈ pp, x ≠ "" ∧ ',' ∉ x.toList) (hpp' : ∀ x ∈ pp', x ≠ "" ∧ ',' ∉ x.toList)
    (h : partText inst cell pp = partText inst' cell' pp') : inst = inst' ∧ cell = cell' ∧ pp.Perm pp' := by
  have hlist := congrArg String.toList h
  rw [toList_partText, toList_partText, List.append_left_inj] at hlist
  obtain ⟨hi, hrest⟩ := before_first_inj (hinst ':' (by simp)) (hinst₂ ':' (by simp)) hlist
  obtain ⟨hc, hprops⟩ := before_first_inj (hcell '[' (by simp)) (hcell₂ '[' (by simp)) hrest
  have hsorted := string_intercalate_inj (by decide) (fun x hx => hpp x (mem_sortNames.mp hx))
    (fun x hx => hpp' x (mem_sortNames.mp hx)) (String.toList_inj.mp hprops)
  exact ⟨String.toList_inj.mp hi, String.toList_inj.mp hc, sortNames_eq_iff.mp hsorted⟩

/-- The whole text tells the test and the two lists of lines, if no line has a semicolon. -/
theorem sections_inj {test test' conn conn' params params' : String} (hconn : ';' ∉ conn.toList)
    (hconn' : ';' ∉ conn'.toList) (hparams : ';' ∉ params.toList) (hparams' : ';' ∉ params'.toList)
    (h : "test=" ++ test ++ ";conn=" ++ conn ++ ";params=" ++ params =
      "test=" ++ test' ++ ";conn=" ++ conn' ++ ";params=" ++ params') :
    test = test' ∧ conn = conn' ∧ params = params' := by
  have hlist := congrArg String.toList h
  have hc : ";conn=".toList = ';' :: "conn=".toList := by decide
  have hp : ";params=".toList = ';' :: "params=".toList := by decide
  have hshape : ∀ t c p : String, ("test=" ++ t ++ ";conn=" ++ c ++ ";params=" ++ p).toList =
      (("test=".toList ++ t.toList) ++ ';' :: ("conn=".toList ++ c.toList)) ++
        ';' :: ("params=".toList ++ p.toList) := by
    intro t c p
    simp only [String.toList_append, hc, hp, List.append_assoc, List.cons_append]
  rw [hshape, hshape] at hlist
  obtain ⟨hfront, hparts⟩ := after_last_inj (by simp [hparams]) (by simp [hparams']) hlist
  obtain ⟨htest, hterms⟩ := after_last_inj (by simp [hconn]) (by simp [hconn']) hfront
  refine ⟨String.toList_inj.mp ?_, String.toList_inj.mp ?_, String.toList_inj.mp ?_⟩
  · exact List.append_cancel_left htest
  · exact List.append_cancel_left hterms
  · exact List.append_cancel_left hparts

end Texts

section Lines

variable {ι : Type} {printer : Printer} {cv cv' : SimCellView ι} {line : String}

/-- An instance among the others of its name. -/
theorem PlainNames.unique (h : PlainNames printer cv) {i j : SimInst ι} (hi : i ∈ cv.instances)
    (hj : j ∈ cv.instances) (hname : i.name = j.name) : i = j :=
  List.inj_on_of_nodup_map h.distinct hi hj hname

/-- The lines are those of the connected terminals. -/
theorem mem_lines_iff : line ∈ cv.terms ↔
    ∃ inst term net, cv.OnNet inst term net ∧ line = netLine inst term net := by
  simp only [SimCellView.terms, List.mem_reverse, List.mem_flatMap, List.mem_map]
  constructor
  · rintro ⟨i, hi, it, hit, rfl⟩
    exact ⟨i.name, it.1, it.2, ⟨i, hi, rfl, hit⟩, rfl⟩
  · rintro ⟨inst, term, net, ⟨i, hi, rfl, hit⟩, rfl⟩
    exact ⟨i, hi, (term, net), hit, rfl⟩

/-- The parts are those of the instances. -/
theorem mem_parts_iff : line ∈ cv.parts printer ↔ ∃ i ∈ cv.instances,
    line = partText i.name i.cellName (i.prop.map (propText printer)).reverse := by
  simp only [SimCellView.parts, List.mem_reverse, List.mem_map, eq_comm]

/-- What is known of a terminal on a net. -/
theorem PlainNames.onNet (h : PlainNames printer cv) {inst term : String} {net : Option String}
    (hnet : cv.OnNet inst term net) :
    Undelimited inst ∧ Undelimited term ∧ Undelimited (net.getD "") ∧ net ≠ some "" := by
  obtain ⟨i, hi, rfl, hit⟩ := hnet
  obtain ⟨hterm, hname⟩ := h.terms i hi _ hit
  exact ⟨(h.insts i hi).1, hterm, hname, i.namedNets _ hit⟩

/-- No line on a terminal is empty or has one of these characters. -/
theorem PlainNames.terms_apart (h : PlainNames printer cv) (hline : line ∈ cv.terms) :
    line ≠ "" ∧ '|' ∉ line.toList ∧ ';' ∉ line.toList := by
  obtain ⟨inst, term, net, hnet, rfl⟩ := mem_lines_iff.mp hline
  obtain ⟨hinst, hterm, hname, -⟩ := h.onNet hnet
  have hapart : ∀ c ∈ ['|', ';'], c ∉ (netLine inst term net).toList := by
    intro c hc
    have hplain : c ∈ ['=', '.', ':', ';', '|', ',', '[', ']'] := by aesop
    have hne : c ≠ '.' ∧ c ≠ '=' := by aesop
    simp [toList_netLine, hinst c hplain, hterm c hplain, hname c hplain, hne.1, hne.2]
  refine ⟨fun hempty => ?_, hapart _ (by simp), hapart _ (by simp)⟩
  simpa [toList_netLine] using congrArg String.toList hempty

/-- No text of a parameter is empty or has one of these characters. -/
theorem PlainNames.props_apart (h : PlainNames printer cv) {i : SimInst ι} (hi : i ∈ cv.instances) {text : String}
    (htext : text ∈ (i.prop.map (propText printer)).reverse) :
    text ≠ "" ∧ ∀ c ∈ ['|', ';', ','], c ∉ text.toList := by
  obtain ⟨p, hp, rfl⟩ := List.mem_map.mp (List.mem_reverse.mp htext)
  obtain ⟨hname, hvalue⟩ := h.props i hi p hp
  constructor
  · intro hempty
    simpa [toList_propText] using congrArg String.toList hempty
  · intro c hc
    have hplain : c ∈ ['=', '.', ':', ';', '|', ',', '[', ']'] := by aesop
    have hne : c ≠ '=' := by aesop
    simp [toList_propText, hname c hplain, hvalue c hplain, hne]

/-- With plain names no property text holds a comma. -/
theorem PlainNames.props_comma (h : PlainNames printer cv) {i : SimInst ι} (hi : i ∈ cv.instances) :
    ∀ text ∈ (i.prop.map (propText printer)).reverse, text ≠ "" ∧ ',' ∉ text.toList :=
  fun _ htext => (h.props_apart hi htext).imp_right fun hc => hc ',' (by simp)

/-- No text of an instance is empty or has one of these characters. -/
theorem PlainNames.parts_apart (h : PlainNames printer cv) (hline : line ∈ cv.parts printer) :
    line ≠ "" ∧ '|' ∉ line.toList ∧ ';' ∉ line.toList := by
  obtain ⟨i, hi, rfl⟩ := mem_parts_iff.mp hline
  obtain ⟨hinst, hcell⟩ := h.insts i hi
  have hprops : ∀ c ∈ ['|', ';'],
      c ∉ (",".intercalate (sortNames (i.prop.map (propText printer)).reverse)).toList := by
    intro c hc
    refine not_mem_string_intercalate ?_ fun text htext => ?_
    · have hne : c ≠ ',' := by aesop
      simpa using hne
    · exact (h.props_apart hi (mem_sortNames.mp htext)).2 c (by aesop)
  have hapart : ∀ c ∈ ['|', ';'],
      c ∉ (partText i.name i.cellName (i.prop.map (propText printer)).reverse).toList := by
    intro c hc
    have hplain : c ∈ ['=', '.', ':', ';', '|', ',', '[', ']'] := by aesop
    have hne : c ≠ ':' ∧ c ≠ '[' ∧ c ≠ ']' := by aesop
    rw [toList_partText]
    simp only [List.mem_append, List.mem_cons, List.not_mem_nil, hinst c hplain, hcell c hplain, hprops c hc, hne.1,
      hne.2.1, hne.2.2, or_self, not_false_eq_true]
  refine ⟨fun hempty => ?_, hapart _ (by simp), hapart _ (by simp)⟩
  simpa [toList_partText] using congrArg String.toList hempty

end Lines

section Told

variable {ι : Type} {printer : Printer} {cv cv' : SimCellView ι} {test test' : String}

/-- The fingerprints are one just when the tests are one and the lines of each kind are the same. -/
theorem fingerprint_eq_iff_lines (h : PlainNames printer cv) (h' : PlainNames printer cv') :
    vfpInputsFingerprint printer (some cv) test = vfpInputsFingerprint printer (some cv') test' ↔
      test = test' ∧ cv.terms.Perm cv'.terms ∧ (cv.parts printer).Perm (cv'.parts printer) := by
  constructor
  · intro heq
    have hno : ∀ {cv : SimCellView ι}, PlainNames printer cv →
        ';' ∉ ("|".intercalate (sortNames cv.terms)).toList ∧
          ';' ∉ ("|".intercalate (sortNames (cv.parts printer))).toList := by
      intro cv h
      constructor
      · exact not_mem_string_intercalate (by decide) fun line hline =>
          (h.terms_apart (mem_sortNames.mp hline)).2.2
      · exact not_mem_string_intercalate (by decide) fun line hline =>
          (h.parts_apart (mem_sortNames.mp hline)).2.2
    obtain ⟨htest, hterms, hparts⟩ := sections_inj (hno h).1 (hno h').1 (hno h).2 (hno h').2 heq
    refine ⟨htest, sortNames_eq_iff.mp ?_, sortNames_eq_iff.mp ?_⟩
    · refine string_intercalate_inj (c := '|') (by decide) (fun line hline => ?_) (fun line hline => ?_) hterms
      · exact (h.terms_apart (mem_sortNames.mp hline)).imp_right And.left
      · exact (h'.terms_apart (mem_sortNames.mp hline)).imp_right And.left
    · refine string_intercalate_inj (c := '|') (by decide) (fun line hline => ?_) (fun line hline => ?_) hparts
      · exact (h.parts_apart (mem_sortNames.mp hline)).imp_right And.left
      · exact (h'.parts_apart (mem_sortNames.mp hline)).imp_right And.left
  · rintro ⟨rfl, hterms, hparts⟩
    simp only [vfpInputsFingerprint, Option.map_some, Option.getD_some, sortNames_perm hterms,
      sortNames_perm hparts]

/-- A terminal that one design has on a net is on it in another one with the same lines. -/
theorem SimCellView.OnNet.of_lines (h : PlainNames printer cv) (h' : PlainNames printer cv')
    (hlines : cv.terms ⊆ cv'.terms) {inst term : String} {net : Option String} (hnet : cv.OnNet inst term net) :
    cv'.OnNet inst term net := by
  obtain ⟨inst', term', net', hnet', heq⟩ :=
    mem_lines_iff.mp (hlines (mem_lines_iff.mpr ⟨inst, term, net, hnet, rfl⟩))
  obtain ⟨hi, ht, -, hn⟩ := h.onNet hnet
  obtain ⟨hi', ht', -, hn'⟩ := h'.onNet hnet'
  obtain ⟨rfl, rfl, rfl⟩ := netLine_inj hi hi' ht ht' hn hn' heq
  exact hnet'

/-- An instance of one design is in another one with the same texts of instances, with the same cell and
the same parameters. -/
theorem instance_of_parts (h : PlainNames printer cv) (h' : PlainNames printer cv')
    (hparts : cv.parts printer ⊆ cv'.parts printer) {i : SimInst ι} (hi : i ∈ cv.instances) :
    ∃ i' ∈ cv'.instances, i'.name = i.name ∧ i'.cellName = i.cellName ∧
      (i.prop.map (propText printer)).Perm (i'.prop.map (propText printer)) := by
  obtain ⟨i', hi', heq⟩ := mem_parts_iff.mp (hparts (mem_parts_iff.mpr ⟨i, hi, rfl⟩))
  obtain ⟨hname, hcell, hprops⟩ := partText_inj (h.insts i hi).1 (h'.insts i' hi').1 (h.insts i hi).2
    (h'.insts i' hi').2 (h.props_comma hi) (h'.props_comma hi') heq
  refine ⟨i', hi', hname.symm, hcell.symm, ?_⟩
  exact (List.reverse_perm _).symm.trans (hprops.trans (List.reverse_perm _))

/-- A cellview with these parts has the properties in them. -/
theorem SimCellView.HasProp.of_parts (h : PlainNames printer cv) (h' : PlainNames printer cv')
    (hparts : cv.parts printer ⊆ cv'.parts printer) {inst prop text : String}
    (hprop : cv.HasProp printer inst prop text) : cv'.HasProp printer inst prop text := by
  obtain ⟨i, hi, rfl, value, hmem, rfl⟩ := hprop
  obtain ⟨i', hi', hname, -, hperm⟩ := instance_of_parts h h' hparts hi
  obtain ⟨p, hp, heq⟩ := List.mem_map.mp (hperm.mem_iff.mp (List.mem_map_of_mem hmem))
  obtain ⟨rfl, hvalue⟩ := propText_inj (h'.props i' hi' p hp).1 (h.props i hi _ hmem).1 heq
  exact ⟨i', hi', hname, p.2, hp, hvalue⟩

/-- It has the cells in them. -/
theorem SimCellView.HasCell.of_parts (h : PlainNames printer cv) (h' : PlainNames printer cv')
    (hparts : cv.parts printer ⊆ cv'.parts printer) {inst cell : String} (hcell : cv.HasCell inst cell) :
    cv'.HasCell inst cell := by
  obtain ⟨i, hi, rfl, rfl⟩ := hcell
  obtain ⟨i', hi', hname, hcell, -⟩ := instance_of_parts h h' hparts hi
  exact ⟨i', hi', hname, hcell⟩

/-- The lines on terminals differ. -/
theorem PlainNames.nodup_terms (h : PlainNames printer cv) : cv.terms.Nodup := by
  rw [SimCellView.terms, List.nodup_reverse, List.nodup_flatMap]
  constructor
  · intro i hi
    have hterms := i.distinctTerms
    rw [List.Nodup, List.pairwise_map] at hterms ⊢
    exact hterms.imp_of_mem fun {a b} ha hb hne heq =>
      hne (netLine_inj (h.insts i hi).1 (h.insts i hi).1 (h.terms i hi a ha).1 (h.terms i hi b hb).1
        (i.namedNets a ha) (i.namedNets b hb) heq).2.1
  · have hinsts := h.distinct
    rw [List.Nodup, List.pairwise_map] at hinsts
    refine hinsts.imp_of_mem fun {i j} hi hj hne => ?_
    rw [Function.onFun_apply, List.disjoint_left]
    intro line hline hline'
    obtain ⟨a, ha, rfl⟩ := List.mem_map.mp hline
    obtain ⟨b, hb, heq⟩ := List.mem_map.mp hline'
    exact hne (netLine_inj (h.insts j hj).1 (h.insts i hi).1 (h.terms j hj b hb).1 (h.terms i hi a ha).1
      (j.namedNets b hb) (i.namedNets a ha) heq).1.symm

/-- The texts of the parameters of an instance differ. -/
theorem PlainNames.nodup_props (h : PlainNames printer cv) {i : SimInst ι} (hi : i ∈ cv.instances) :
    (i.prop.map (propText printer)).Nodup := by
  have hnames := i.distinctProps
  rw [List.Nodup, List.pairwise_map] at hnames ⊢
  exact hnames.imp_of_mem fun {p q} hp hq hne heq =>
    hne (propText_inj (h.props i hi p hp).1 (h.props i hi q hq).1 heq).1

/-- The texts of the instances differ. -/
theorem PlainNames.nodup_parts (h : PlainNames printer cv) : (cv.parts printer).Nodup := by
  have hinsts := h.distinct
  rw [SimCellView.parts, List.nodup_reverse]
  rw [List.Nodup, List.pairwise_map] at hinsts ⊢
  refine hinsts.imp_of_mem fun {i j} hi hj hne heq => hne ?_
  exact (partText_inj (h.insts i hi).1 (h.insts j hj).1 (h.insts i hi).2 (h.insts j hj).2 (h.props_comma hi)
    (h.props_comma hj) heq).1

/-- The texts of properties are those of their names and values. -/
theorem mem_propTexts_iff {i : SimInst ι} {text : String} : text ∈ i.prop.map (propText printer) ↔
    ∃ prop value, (prop, value) ∈ i.prop ∧ text = prop ++ "=" ++ vfpToStr printer value := by
  rw [List.mem_map]
  constructor
  · rintro ⟨p, hp, rfl⟩
    exact ⟨p.1, p.2, hp, rfl⟩
  · rintro ⟨prop, value, hp, rfl⟩
    exact ⟨(prop, value), hp, rfl⟩

/-- In two designs that tell the same, the parameters of two instances of one name are the same. -/
theorem SameTold.props_subset (h' : PlainNames printer cv') (htold : SameTold printer cv cv' test test')
    {i i' : SimInst ι} (hi : i ∈ cv.instances) (hi' : i' ∈ cv'.instances) (hname : i.name = i'.name) :
    i.prop.map (propText printer) ⊆ i'.prop.map (propText printer) := by
  intro text htext
  obtain ⟨prop, value, hp, rfl⟩ := mem_propTexts_iff.mp htext
  obtain ⟨j, hj, hjname, value', hp', hvalue⟩ :=
    (htold.props i.name prop (vfpToStr printer value)).mp ⟨i, hi, rfl, value, hp, rfl⟩
  obtain rfl := h'.unique hj hi' (hjname.trans hname)
  exact mem_propTexts_iff.mpr ⟨prop, value', hp', by rw [hvalue]⟩

/-- Being told the same goes both ways. -/
theorem SameTold.symm (htold : SameTold printer cv cv' test test') : SameTold printer cv' cv test' test where
  test := htold.test.symm
  nets inst term net := (htold.nets inst term net).symm
  cells inst cell := (htold.cells inst cell).symm
  props inst prop text := (htold.props inst prop text).symm

/-- A text of an instance is among those of another design that tells the same. -/
theorem SameTold.parts_subset (h : PlainNames printer cv) (h' : PlainNames printer cv')
    (htold : SameTold printer cv cv' test test') : cv.parts printer ⊆ cv'.parts printer := by
  intro line hline
  obtain ⟨i, hi, rfl⟩ := mem_parts_iff.mp hline
  obtain ⟨i', hi', hname, hcell⟩ := (htold.cells i.name i.cellName).mp ⟨i, hi, rfl, rfl⟩
  have hperm : (i.prop.map (propText printer)).Perm (i'.prop.map (propText printer)) := by
    refine (List.perm_ext_iff_of_nodup (h.nodup_props hi) (h'.nodup_props hi')).mpr fun text => ⟨?_, ?_⟩
    · exact fun htext => htold.props_subset h' hi hi' hname.symm htext
    · exact fun htext => htold.symm.props_subset h hi' hi hname htext
  have hsorted := sortNames_perm ((List.reverse_perm _).trans (hperm.trans (List.reverse_perm _).symm))
  exact mem_parts_iff.mpr ⟨i', hi', by rw [partText, partText, hname, hcell, hsorted]⟩

/-- Cellviews that are told the same have the same lines. -/
theorem SameTold.lines_subset (htold : SameTold printer cv cv' test test') : cv.terms ⊆ cv'.terms := by
  intro line hline
  obtain ⟨inst, term, net, hnet, rfl⟩ := mem_lines_iff.mp hline
  exact mem_lines_iff.mpr ⟨inst, term, net, (htold.nets inst term net).mp hnet, rfl⟩

/-- The fingerprints of two designs are one just when what they tell is the same. -/
theorem fingerprint_eq_iff (h : PlainNames printer cv) (h' : PlainNames printer cv') :
    vfpInputsFingerprint printer (some cv) test = vfpInputsFingerprint printer (some cv') test' ↔
      SameTold printer cv cv' test test' := by
  rw [fingerprint_eq_iff_lines h h']
  constructor
  · rintro ⟨htest, hlines, hparts⟩
    refine ⟨htest, fun inst term net => ⟨?_, ?_⟩, fun inst cell => ⟨?_, ?_⟩,
      fun inst prop text => ⟨?_, ?_⟩⟩
    · exact SimCellView.OnNet.of_lines h h' hlines.subset
    · exact SimCellView.OnNet.of_lines h' h hlines.symm.subset
    · exact SimCellView.HasCell.of_parts h h' hparts.subset
    · exact SimCellView.HasCell.of_parts h' h hparts.symm.subset
    · exact SimCellView.HasProp.of_parts h h' hparts.subset
    · exact SimCellView.HasProp.of_parts h' h hparts.symm.subset
  · intro htold
    refine ⟨htold.test, ?_, ?_⟩
    · refine (List.perm_ext_iff_of_nodup h.nodup_terms h'.nodup_terms).mpr fun line => ⟨?_, ?_⟩
      · exact fun hline => htold.lines_subset hline
      · exact fun hline => htold.symm.lines_subset hline
    · refine (List.perm_ext_iff_of_nodup h.nodup_parts h'.nodup_parts).mpr fun line => ⟨?_, ?_⟩
      · exact fun hline => htold.parts_subset h h' hline
      · exact fun hline => htold.symm.parts_subset h' h hline

/-- One fingerprint means one content just when what is told being the same means that no master comes from
another library or has another view. -/
theorem fingerprint_tells_iff (h : PlainNames printer cv) (h' : PlainNames printer cv') :
    (vfpInputsFingerprint printer (some cv) test = vfpInputsFingerprint printer (some cv') test' →
      SameContent printer cv cv' test test') ↔ (SameTold printer cv cv' test test' → SameMasters cv cv') := by
  rw [fingerprint_eq_iff h h']
  refine forall_congr' fun htold => ?_
  exact ⟨SameContent.masters, fun hmasters => ⟨htold.test, htold.nets, hmasters, htold.props⟩⟩

end Told

section Order

variable {ι : Type} {printer : Printer} {cv cv' : SimCellView ι} {i i' : SimInst ι}

/-- An instance whose properties and terminals are listed in another order. -/
structure SimInst.Reordered (i i' : SimInst ι) : Prop where
  name : i.name = i'.name
  libName : i.libName = i'.libName
  cellName : i.cellName = i'.cellName
  viewName : i.viewName = i'.viewName
  master : i.master = i'.master
  prop : i.prop.Perm i'.prop
  instTerms : i.instTerms.Perm i'.instTerms

/-- A cellview whose instances are listed in another order, and each of them reordered. -/
structure SimCellView.Reordered (cv cv' : SimCellView ι) : Prop where
  libName : cv.libName = cv'.libName
  cellName : cv.cellName = cv'.cellName
  viewName : cv.viewName = cv'.viewName
  instances : ∃ insts, cv.instances.Perm insts ∧ List.Forall₂ SimInst.Reordered insts cv'.instances

/-- Reordered lists are reordered when reversed. -/
theorem perm_reverse_congr {α : Type} {l l' : List α} (h : l.Perm l') : l.reverse.Perm l'.reverse :=
  (List.reverse_perm l).trans (h.trans (List.reverse_perm l').symm)

/-- Reordering the properties of an instance leaves its text. -/
theorem SimInst.Reordered.part_eq (h : i.Reordered i') :
    partText i.name i.cellName (i.prop.map (propText printer)).reverse =
      partText i'.name i'.cellName (i'.prop.map (propText printer)).reverse := by
  have htexts := perm_reverse_congr (h.prop.map (propText printer))
  rw [partText, partText, h.name, h.cellName, sortNames_perm htexts]

/-- Reordering its terminals reorders its lines. -/
theorem SimInst.Reordered.lines_perm (h : i.Reordered i') :
    (i.instTerms.map fun it => netLine i.name it.1 it.2).Perm
      (i'.instTerms.map fun it => netLine i'.name it.1 it.2) := by
  rw [h.name]
  exact h.instTerms.map _

/-- The lists of the fingerprint are reordered with the cellview, and then sorted. -/
theorem SimCellView.Reordered.terms_perm (h : cv.Reordered cv') : cv.terms.Perm cv'.terms := by
  obtain ⟨insts, hperm, hinsts⟩ := h.instances
  refine perm_reverse_congr ((hperm.flatMap_right _).trans ?_)
  clear hperm
  generalize cv'.instances = insts' at hinsts ⊢
  induction hinsts with
  | nil => exact .refl _
  | cons hi _ ih =>
    rw [List.flatMap_cons, List.flatMap_cons]
    exact hi.lines_perm.append ih

/-- Reordering the instances reorders their texts. -/
theorem SimCellView.Reordered.parts_perm (h : cv.Reordered cv') : (cv.parts printer).Perm (cv'.parts printer) := by
  obtain ⟨insts, hperm, hinsts⟩ := h.instances
  refine perm_reverse_congr ((hperm.map _).trans (.of_eq ?_))
  clear hperm
  generalize cv'.instances = insts' at hinsts ⊢
  induction hinsts with
  | nil => rfl
  | cons hi _ ih => rw [List.map_cons, List.map_cons, hi.part_eq, ih]

/-- In whatever order the instances, their terminals and their properties are listed, the fingerprint is
the same. -/
theorem fingerprint_of_reordered (h : cv.Reordered cv') (test : String) :
    vfpInputsFingerprint printer (some cv) test = vfpInputsFingerprint printer (some cv') test := by
  simp only [vfpInputsFingerprint, Option.map_some, Option.getD_some, sortNames_perm h.terms_perm,
    sortNames_perm h.parts_perm]

end Order

section Inverters

/-- An inverter from a library, with one terminal on a net and one parameter. -/
def sampleInverter (libName : String) : SimCellView Unit where
  libName := "top"
  cellName := "ring"
  viewName := "schematic"
  instances := [
    { name := "I0", libName, cellName := "inv", viewName := "symbol", master := none
      prop := [("w", .str "2u")]
      instTerms := [("A", some "in"), ("Y", none)]
      distinctProps := by decide
      distinctTerms := by decide
      namedNets := by decide }]

/-- A name without any of the delimiters. -/
theorem undelimited_of_all {name : String}
    (h : (['=', '.', ':', ';', '|', ',', '[', ']'].all fun c => decide (c ∉ name.toList)) = true) :
    Undelimited name :=
  fun c hc => of_decide_eq_true (List.all_eq_true.mp h c hc)

/-- The names of the sample are plain. -/
theorem plainNames_sampleInverter (libName : String) : PlainNames .sample (sampleInverter libName) where
  distinct := List.nodup_singleton _
  insts := by
    have hinst : Undelimited "I0" := undelimited_of_all (by decide)
    have hcell : Undelimited "inv" := undelimited_of_all (by decide)
    rintro inst (_ | ⟨_, ⟨⟩⟩)
    exact ⟨hinst, hcell⟩
  terms := by
    rintro inst (_ | ⟨_, ⟨⟩⟩) it (_ | ⟨_, _ | ⟨_, ⟨⟩⟩⟩)
    · exact ⟨undelimited_of_all (by decide), undelimited_of_all (by decide)⟩
    · exact ⟨undelimited_of_all (by decide), undelimited_of_all (by decide)⟩
  props := by
    rintro inst (_ | ⟨_, ⟨⟩⟩) p (_ | ⟨_, ⟨⟩⟩)
    exact ⟨undelimited_of_all (by decide), undelimited_of_all (by decide)⟩

/-- Two inverters from different libraries. -/
theorem fingerprint_tells_iff_sample :
    (vfpInputsFingerprint .sample (some (sampleInverter "fast")) "tran" =
        vfpInputsFingerprint .sample (some (sampleInverter "slow")) "tran" →
      SameContent .sample (sampleInverter "fast") (sampleInverter "slow") "tran" "tran") ↔
    (SameTold .sample (sampleInverter "fast") (sampleInverter "slow") "tran" "tran" →
      SameMasters (sampleInverter "fast") (sampleInverter "slow")) :=
  fingerprint_tells_iff (plainNames_sampleInverter "fast") (plainNames_sampleInverter "slow")

/-- The same inverter, listed from its last terminal to its first. -/
def sampleTurned : SimCellView Unit := { sampleInverter "fast" with
  instances := (sampleInverter "fast").instances.map fun i => { i with
    instTerms := i.instTerms.reverse
    distinctTerms := by
      rw [List.map_reverse]
      exact List.nodup_reverse.mpr i.distinctTerms
    namedNets := fun it hit => i.namedNets it (List.mem_reverse.mp hit) } }

/-- The inverter listed the other way round. -/
theorem fingerprint_of_reordered_sample :
    vfpInputsFingerprint .sample (some (sampleInverter "fast")) "tran" =
      vfpInputsFingerprint .sample (some sampleTurned) "tran" := by
  apply fingerprint_of_reordered
  refine ⟨rfl, rfl, rfl, _, .refl _, ?_⟩
  exact .cons ⟨rfl, rfl, rfl, rfl, rfl, .refl _, (List.reverse_perm _).symm⟩ .nil

/-- An inverter that is exchanged for one of another library leaves the fingerprint as it is. -/
theorem exchanged_master_unseen :
    PlainNames .sample (sampleInverter "fast") ∧ PlainNames .sample (sampleInverter "slow") ∧
      ¬(vfpInputsFingerprint .sample (some (sampleInverter "fast")) "tran" =
          vfpInputsFingerprint .sample (some (sampleInverter "slow")) "tran" →
        SameContent .sample (sampleInverter "fast") (sampleInverter "slow") "tran" "tran") := by
  refine ⟨plainNames_sampleInverter "fast", plainNames_sampleInverter "slow", fun h => ?_⟩
  have hsame : SameContent .sample (sampleInverter "fast") (sampleInverter "slow") "tran" "tran" := h rfl
  obtain ⟨i, hi, -, hlib, -⟩ :=
    (hsame.masters "I0" "fast" "inv" "symbol").mp ⟨_, List.mem_cons_self, rfl, rfl, rfl, rfl⟩
  rcases hi with _ | ⟨_, ⟨⟩⟩
  exact absurd hlib (by decide)

end Inverters

end VirtuosoFlow.Plugin
