import VirtuosoFlow.Plugin.TestbenchLint
import VirtuosoFlow.Plugin.ReplyText

/-!
# The design context

`vfp_context.il` makes of the cellview that is edited one payload: its instances with their parameters and nets,
its ports and nets, the hazards and the pre-flight. The payload is an encoded tree, and what Python reads of the
tree describes the cellview.
-/

namespace VirtuosoFlow.Plugin

open Base Encoder JsonText

section Extraction

variable {ι : Type} (printer : Printer)

/-- `vfpJObj("lib" lib "cell" cell "view" view)`. -/
def cellViewJ (lib cell view : String) : Value :=
  vfpJObj [.str "lib", .str lib, .str "cell", .str cell, .str "view", .str view]

/-- `vfpInstNets(inst)`. -/
def vfpInstNets (inst : SchInst ι) : Value :=
  vfpJObj (inst.instTerms.flatMap fun it => [.str it.1, .str (it.2.getD "")])

/-- `vfpInstParams(inst)`. -/
def vfpInstParams (inst : SchInst ι) : Value :=
  vfpJObj ((inst.cdf.getD []).flatMap fun p => [.str p.1, .str (vfpToStr printer p.2)])

/-- `vfpExtractInstances(cv)`. -/
def vfpExtractInstances (cv : SchCellView ι) : Value :=
  vfpJArr (cv.instances.map fun inst => vfpJObj
    [.str "name", .str inst.name, .str "master", cellViewJ inst.libName inst.cellName inst.viewName,
      .str "params", vfpInstParams printer inst, .str "nets", vfpInstNets inst])

/-- `vfpExtractNets(cv)`. -/
def vfpExtractNets (cv : SchCellView ι) : Value :=
  vfpJArr (cv.nets.map fun net => vfpJObj [.str "name", .str net.name])

/-- `vfpExtractPorts(cv)`. -/
def vfpExtractPorts (cv : SchCellView ι) : Value :=
  vfpJArr (cv.terminals.map fun term => vfpJObj
    [.str "name", .str term.name, .str "direction", .str (vfpToStr printer term.direction)])

/-- `vfpConnRisksJ(cv)`. -/
def vfpConnRisksJ (s : SchSession ι) (c : ι) : Value :=
  vfpJArr ((vfpConnectivityRisks s c).map fun r => vfpJObj
    [.str "net", .str r.1, .str "kind", .str "auto_net", .str "terminals", vfpJArr (r.2.map .str)])

/-- The symbol of a kind of issue. -/
def LintKind.symbol : LintKind → Value
  | .danglingSource => .sym "danglingSource"
  | .floatingTerm => .sym "floatingTerm"

/-- `vfpLintJson(cv)`. -/
def vfpLintJson (s : SchSession ι) (c : ι) : Value :=
  vfpJArr ((vfpLintTestbench s c).map fun r => vfpJObj
    [.str "kind", .str (vfpToStr printer r.kind.symbol), .str "subject", .str r.subject, .str "net", netValue r.net])

/-- `if(x 'true 'false)`. -/
def boolSymbol (x : Bool) : Value := if x then .sym "true" else .sym "false"

/-- `vfpSimPreflightJson(cv test)`. -/
def vfpSimPreflightJson (s : SchSession ι) (c : ι) (test : String) : Value :=
  let pf := vfpSimPreflight printer s.views (some c) test
  vfpJObj [.str "ready", boolSymbol pf.ready, .str "dirty", boolSymbol pf.dirty, .str "cellview", .str pf.cellview,
    .str "fingerprint", .str pf.fingerprint, .str "reason", .str pf.reason]

/-- `vfpExtractDesignContext()`; `time` is what `vfpIsoTime()` gives. -/
def vfpExtractDesignContext (time : String) (s : SchSession ι) : Option Value :=
  (vfpGetCurrentCellView s).map fun c =>
    let cv := s.cellView c
    vfpJObj [.str "schema_version", .str "0.1", .str "source", .str "virtuoso-flow-plugin",
      .str "timestamp", .str time,
      .str "cellview", cellViewJ cv.libName cv.cellName cv.viewName,
      .str "instances", vfpExtractInstances printer cv, .str "ports", vfpExtractPorts printer cv,
      .str "nets", vfpExtractNets cv, .str "connectivity_risks", vfpConnRisksJ s c,
      .str "tb_lint", vfpLintJson printer s c, .str "sim_preflight", vfpSimPreflightJson printer s c "",
      .str "ade", vfpJObj [.str "available", .sym "false"],
      .str "last_result", vfpJObj [.str "available", .sym "false"]]

end Extraction

section Payload

variable {ι : Type} (printer : Printer)

/-- A cellview by name, in JSON. -/
def cellViewJson (lib cell view : String) : Json := .obj [("lib", .str lib), ("cell", .str cell), ("view", .str view)]

/-- The nets of an instance; a terminal on no net has the empty text. -/
def instNets (inst : SchInst ι) : Obj := inst.instTerms.map fun it => (it.1, .str (it.2.getD ""))

/-- The parameters of an instance. -/
def instParams (inst : SchInst ι) : Obj := (inst.cdf.getD []).map fun p => (p.1, .str (vfpToStr printer p.2))

/-- An instance in JSON. -/
def instanceJson (inst : SchInst ι) : Json :=
  .obj [("name", .str inst.name), ("master", cellViewJson inst.libName inst.cellName inst.viewName),
    ("params", .obj (instParams printer inst)), ("nets", .obj (instNets inst))]

/-- A terminal of the cellview in JSON. -/
def portJson (term : SchTerminal) : Json :=
  .obj [("name", .str term.name), ("direction", .str (vfpToStr printer term.direction))]

/-- A net at risk in JSON. -/
def riskJson (net : String) (pins : List String) : Json :=
  .obj [("net", .str net), ("kind", .str "auto_net"), ("terminals", .arr (pins.map .str))]

/-- An issue of the lint in JSON. -/
def issueJson (issue : LintIssue) : Json :=
  .obj [("kind", .str (vfpToStr printer issue.kind.symbol)), ("subject", .str issue.subject),
    ("net", netJson issue.net)]

/-- A pre-flight in JSON. -/
def preflightJson (pf : Preflight) : Json :=
  .obj [("ready", .bool pf.ready), ("dirty", .bool pf.dirty), ("cellview", .str pf.cellview),
    ("fingerprint", .str pf.fingerprint), ("reason", .str pf.reason)]

/-- The context of a cellview. -/
def designContext (time : String) (s : SchSession ι) (c : ι) : Obj :=
  let cv := s.cellView c
  [("schema_version", .str "0.1"), ("source", .str "virtuoso-flow-plugin"), ("timestamp", .str time),
    ("cellview", cellViewJson cv.libName cv.cellName cv.viewName),
    ("instances", .arr (cv.instances.map (instanceJson printer))),
    ("ports", .arr (cv.terminals.map (portJson printer))),
    ("nets", .arr (cv.nets.map fun net => .obj [("name", .str net.name)])),
    ("connectivity_risks", .arr ((vfpConnectivityRisks s c).map fun r => riskJson r.1 r.2)),
    ("tb_lint", .arr ((vfpLintTestbench s c).map (issueJson printer))),
    ("sim_preflight", preflightJson (vfpSimPreflight printer s.views (some c) "")),
    ("ade", .obj [("available", .bool false)]), ("last_result", .obj [("available", .bool false)])]

end Payload

section Trees

variable {ι : Type} {printer : Printer} {fmt : FloatFormat}

/-- The trees of members, as keys and values in turn. -/
theorem treeOfMembers_eq (ms : List (String × Json)) :
    treeOfMembers ms = list (ms.flatMap fun m => [.str m.1, treeOf m.2]) := by
  induction ms with
  | nil => rfl
  | cons m ms ih =>
    obtain ⟨k, v⟩ := m
    rw [treeOfMembers, ih]
    rfl

/-- The tree of an object. -/
theorem treeOf_obj (ms : List (String × Json)) :
    treeOf (.obj ms) = vfpJObj (ms.flatMap fun m => [.str m.1, treeOf m.2]) := by
  rw [treeOf, treeOfMembers_eq, vfpJObj]

/-- The tree of an array. -/
theorem treeOf_arr (vs : List Json) : treeOf (.arr vs) = vfpJArr (vs.map treeOf) := by
  rw [treeOf, treeOfItems_eq, vfpJArr]

/-- The tree of a truth value. -/
theorem treeOf_bool (x : Bool) : treeOf (.bool x) = boolSymbol x := by cases x <;> rfl

/-- The tree of a net, or of none. -/
theorem treeOf_netJson (net : Option String) : treeOf (netJson net) = netValue net := by cases net <;> rfl

/-- The tree of an instance is what the plugin builds for it. -/
theorem treeOf_instanceJson (inst : SchInst ι) : treeOf (instanceJson printer inst) = vfpJObj
    [.str "name", .str inst.name, .str "master", cellViewJ inst.libName inst.cellName inst.viewName,
      .str "params", vfpInstParams printer inst, .str "nets", vfpInstNets inst] := by
  have hparams : treeOf (.obj (instParams printer inst)) = vfpInstParams printer inst := by
    rw [treeOf_obj, instParams, List.flatMap_map]
    rfl
  have hnets : treeOf (.obj (instNets inst)) = vfpInstNets inst := by
    rw [treeOf_obj, instNets, List.flatMap_map]
    rfl
  rw [instanceJson, treeOf_obj]
  simp only [List.flatMap_cons, List.flatMap_nil, List.cons_append, List.nil_append, hparams, hnets]
  rfl

/-- So is that of a risk. -/
theorem treeOf_riskJson (net : String) (pins : List String) : treeOf (riskJson net pins) = vfpJObj
    [.str "net", .str net, .str "kind", .str "auto_net", .str "terminals", vfpJArr (pins.map .str)] := by
  have hpins : treeOf (.arr (pins.map .str)) = vfpJArr (pins.map .str) := by
    rw [treeOf_arr, List.map_map]
    rfl
  rw [riskJson, treeOf_obj]
  simp only [List.flatMap_cons, List.flatMap_nil, List.cons_append, List.nil_append, hpins]
  rfl

/-- So is that of an issue. -/
theorem treeOf_issueJson (issue : LintIssue) : treeOf (issueJson printer issue) = vfpJObj
    [.str "kind", .str (vfpToStr printer issue.kind.symbol), .str "subject", .str issue.subject,
      .str "net", netValue issue.net] := by
  rw [issueJson, treeOf_obj]
  simp only [List.flatMap_cons, List.flatMap_nil, List.cons_append, List.nil_append, treeOf_netJson]
  rfl

/-- So is that of a pre-flight. -/
theorem treeOf_preflightJson (s : SchSession ι) (c : ι) (test : String) :
    treeOf (preflightJson (vfpSimPreflight printer s.views (some c) test)) =
      vfpSimPreflightJson printer s c test := by
  rw [preflightJson, treeOf_obj]
  simp only [List.flatMap_cons, List.flatMap_nil, List.cons_append, List.nil_append, treeOf_bool]
  rfl

/-- The payload is the tree of the context. -/
theorem vfpExtractDesignContext_eq (time : String) (s : SchSession ι) :
    vfpExtractDesignContext printer time s =
      (vfpGetCurrentCellView s).map fun c => treeOf (.obj (designContext printer time s c)) := by
  unfold vfpExtractDesignContext
  congr 1
  funext c
  have hinstances : treeOf (.arr ((s.cellView c).instances.map (instanceJson printer))) =
      vfpExtractInstances printer (s.cellView c) := by
    rw [treeOf_arr, List.map_map, vfpExtractInstances]
    congr 2
    funext inst
    exact treeOf_instanceJson inst
  have hports : treeOf (.arr ((s.cellView c).terminals.map (portJson printer))) =
      vfpExtractPorts printer (s.cellView c) := by
    rw [treeOf_arr, List.map_map]
    rfl
  have hnets : treeOf (.arr ((s.cellView c).nets.map fun net => .obj [("name", .str net.name)])) =
      vfpExtractNets (s.cellView c) := by
    rw [treeOf_arr, List.map_map]
    rfl
  have hrisks : treeOf (.arr ((vfpConnectivityRisks s c).map fun r => riskJson r.1 r.2)) = vfpConnRisksJ s c := by
    rw [treeOf_arr, List.map_map, vfpConnRisksJ]
    congr 2
    funext r
    exact treeOf_riskJson r.1 r.2
  have hlint : treeOf (.arr ((vfpLintTestbench s c).map (issueJson printer))) = vfpLintJson printer s c := by
    rw [treeOf_arr, List.map_map, vfpLintJson]
    congr 2
    funext issue
    exact treeOf_issueJson issue
  rw [designContext, treeOf_obj]
  simp only [List.flatMap_cons, List.flatMap_nil, List.cons_append, List.nil_append, hinstances, hports, hnets,
    hrisks, hlint, treeOf_preflightJson]
  rfl

end Trees

section Values

variable {ι : Type} {printer : Printer} {fmt : FloatFormat}

/-- A value without floats that Python can hold. -/
def Plainly (fmt : FloatFormat) (v : Json) : Prop := Floatless v ∧ WellFormed fmt v

/-- A string is plain. -/
theorem plainly_str (s : String) : Plainly fmt (.str s) := ⟨trivial, wellFormed_str s⟩

/-- So is a truth value. -/
theorem plainly_bool (x : Bool) : Plainly fmt (.bool x) := ⟨trivial, trivial⟩

/-- So is an object of plain members without a repeated name. -/
theorem plainly_obj {ms : Obj} (hnodup : (ms.map Prod.fst).Nodup) (h : ∀ m ∈ ms, Plainly fmt m.2) :
    Plainly fmt (.obj ms) := by
  refine ⟨?_, wellFormed_obj_iff.mpr ⟨hnodup, fun m hm => (h m hm).2⟩⟩
  clear hnodup
  induction ms with
  | nil => trivial
  | cons m ms ih => exact ⟨(h m List.mem_cons_self).1, ih fun x hx => h x (List.mem_cons_of_mem _ hx)⟩

/-- So is an array of plain items. -/
theorem plainly_arr_map {α : Type} {f : α → Json} (xs : List α) (h : ∀ x ∈ xs, Plainly fmt (f x)) :
    Plainly fmt (.arr (xs.map f)) := by
  refine ⟨floatlessItems_map xs fun x hx => (h x hx).1, Sexpr.wellFormed_arr_iff.mpr fun v hv => ?_⟩
  obtain ⟨x, hx, rfl⟩ := List.mem_map.mp hv
  exact (h x hx).2

/-- So is the name of a cellview. -/
theorem plainly_cellViewJson (lib cell view : String) : Plainly fmt (cellViewJson lib cell view) :=
  plainly_obj (by simp) (by simp [plainly_str])

/-- So is an instance. -/
theorem plainly_instanceJson (inst : SchInst ι) : Plainly fmt (instanceJson printer inst) := by
  have hnets : Plainly fmt (.obj (instNets inst)) := by
    refine plainly_obj ?_ fun m hm => ?_
    · have hkeys : (instNets inst).map Prod.fst = inst.instTerms.map Prod.fst := by
        rw [instNets, List.map_map]
        rfl
      rw [hkeys]
      exact inst.distinctTerms
    · obtain ⟨it, _, rfl⟩ := List.mem_map.mp hm
      exact plainly_str _
  have hparams : Plainly fmt (.obj (instParams printer inst)) := by
    refine plainly_obj ?_ fun m hm => ?_
    · have hkeys : (instParams printer inst).map Prod.fst = (inst.cdf.getD []).map Prod.fst := by
        rw [instParams, List.map_map]
        rfl
      rw [hkeys]
      exact inst.distinctCdf
    · obtain ⟨p, _, rfl⟩ := List.mem_map.mp hm
      exact plainly_str _
  exact plainly_obj (by simp) (by simp [plainly_str, plainly_cellViewJson, hnets, hparams])

/-- So is a risk. -/
theorem plainly_riskJson (net : String) (pins : List String) : Plainly fmt (riskJson net pins) :=
  plainly_obj (by simp) (by simp [plainly_str, plainly_arr_map])

/-- So is an issue. -/
theorem plainly_issueJson (issue : LintIssue) : Plainly fmt (issueJson printer issue) := by
  have hnet : Plainly fmt (netJson issue.net) := by
    cases issue.net with
    | none => exact ⟨trivial, trivial⟩
    | some net => exact plainly_str net
  exact plainly_obj (by simp) (by simp [plainly_str, hnet])

/-- So is the whole context. -/
theorem plainly_designContext (time : String) (s : SchSession ι) (c : ι) :
    Plainly fmt (.obj (designContext printer time s c)) := by
  have hports : ∀ term : SchTerminal, Plainly fmt (portJson printer term) := fun term =>
    plainly_obj (by simp) (by simp [plainly_str])
  have hnets : ∀ net : SchNet, Plainly fmt (.obj [("name", .str net.name)]) := fun net =>
    plainly_obj (by simp) (by simp [plainly_str])
  have hpreflight : ∀ pf, Plainly fmt (preflightJson pf) := fun pf =>
    plainly_obj (by simp) (by simp [plainly_str, plainly_bool])
  have hunavailable : Plainly fmt (.obj [("available", .bool false)]) :=
    plainly_obj (by simp) (by simp [plainly_bool])
  have hinstances : Plainly fmt (.arr ((s.cellView c).instances.map (instanceJson printer))) :=
    plainly_arr_map _ fun inst _ => plainly_instanceJson inst
  have hports' := plainly_arr_map (s.cellView c).terminals fun term _ => hports term
  have hnets' := plainly_arr_map (s.cellView c).nets fun net _ => hnets net
  have hrisks : Plainly fmt (.arr ((vfpConnectivityRisks s c).map fun r => riskJson r.1 r.2)) :=
    plainly_arr_map _ fun r _ => plainly_riskJson r.1 r.2
  have hlint : Plainly fmt (.arr ((vfpLintTestbench s c).map (issueJson printer))) :=
    plainly_arr_map _ fun r _ => plainly_issueJson r
  unfold designContext
  refine plainly_obj (by simp) ?_
  simp only [List.forall_mem_cons, List.not_mem_nil, false_implies, implies_true, and_true, plainly_str,
    plainly_cellViewJson, hinstances, hports', hnets', hrisks, hlint, hpreflight, hunavailable]

end Values

section Meaning

variable {ι : Type} {printer : Printer}

/-- An item describes an instance: its name and master, the text of each parameter, and the net of each terminal. -/
def DescribesInst (printer : Printer) (inst : SchInst ι) (item : Json) : Prop :=
  ∃ params nets : Obj, item = .obj [("name", .str inst.name),
      ("master", cellViewJson inst.libName inst.cellName inst.viewName), ("params", .obj params),
      ("nets", .obj nets)] ∧
    (∀ name text, params.lookup name = some text ↔
      ∃ value, (name, value) ∈ inst.cdf.getD [] ∧ text = .str (vfpToStr printer value)) ∧
    ∀ term text, nets.lookup term = some text ↔
      (term, none) ∈ inst.instTerms ∧ text = .str "" ∨ ∃ net, (term, some net) ∈ inst.instTerms ∧ text = .str net

/-- What a context tells of a cellview in a session. -/
structure Describes (printer : Printer) (s : SchSession ι) (c : ι) (context : Obj) : Prop where
  cellview : Obj.get context "cellview" =
    cellViewJson (s.cellView c).libName (s.cellView c).cellName (s.cellView c).viewName
  instances : ∃ items, Obj.get context "instances" = .arr items ∧
    List.Forall₂ (DescribesInst printer) (s.cellView c).instances items
  ports : Obj.get context "ports" = .arr ((s.cellView c).terminals.map (portJson printer))
  nets : Obj.get context "nets" = .arr ((s.cellView c).nets.map fun net => .obj [("name", .str net.name)])
  risks : ∃ items, Obj.get context "connectivity_risks" = .arr items ∧ ∀ item, item ∈ items ↔
    ∃ net, (s.cellView c).Unpinned net ∧ (s.cellView c).pinsOn net ≠ [] ∧
      item = riskJson net ((s.cellView c).pinsOn net)
  lint : ∃ items, Obj.get context "tb_lint" = .arr items ∧ ∀ item, item ∈ items ↔
    ∃ issue, s.Hazard c issue ∧ item = issueJson printer issue
  preflight : ∃ pf : Preflight, Obj.get context "sim_preflight" = preflightJson pf ∧
    (pf.ready = true ↔ s.modified c = false ∧ ∀ c', s.views.Below c c' → s.modified c' = false) ∧
    pf.fingerprint = vfpInputsFingerprint printer (some (s.cellView c).sim) ""

/-- A member of a dict that is made of a list with keys of its own. -/
theorem lookup_map_iff {α : Type} {xs : List α} {key : α → String} {value : α → Json} {k : String} {v : Json}
    (hdistinct : (xs.map key).Nodup) :
    (xs.map fun x => (key x, value x)).lookup k = some v ↔ ∃ x ∈ xs, key x = k ∧ value x = v := by
  have hkeys : ((xs.map fun x => (key x, value x)).map Prod.fst).Nodup := by
    rw [List.map_map]
    exact hdistinct
  have hmem := Dict.mem_entries_iff (d := ⟨xs.map fun x => (key x, value x), hkeys⟩) (k := k) (v := v)
  refine hmem.symm.trans (List.mem_map.trans ?_)
  simp only [Prod.mk.injEq]

/-- What is exported of an instance describes it. -/
theorem describes_instanceJson (inst : SchInst ι) : DescribesInst printer inst (instanceJson printer inst) := by
  refine ⟨instParams printer inst, instNets inst, rfl, fun name text => ?_, fun term text => ?_⟩
  · refine (lookup_map_iff inst.distinctCdf).trans ?_
    constructor
    · rintro ⟨⟨_, value⟩, hp, rfl, rfl⟩
      exact ⟨value, hp, rfl⟩
    · rintro ⟨value, hp, rfl⟩
      exact ⟨_, hp, rfl, rfl⟩
  · refine (lookup_map_iff inst.distinctTerms).trans ?_
    constructor
    · rintro ⟨⟨_, net⟩, hit, rfl, rfl⟩
      cases net with
      | none => exact .inl ⟨hit, rfl⟩
      | some net => exact .inr ⟨net, hit, rfl⟩
    · rintro (⟨hit, rfl⟩ | ⟨net, hit, rfl⟩)
      · exact ⟨_, hit, rfl, rfl⟩
      · exact ⟨_, hit, rfl, rfl⟩

/-- The context that is made of a cellview describes it. -/
theorem describes_designContext (time : String) (s : SchSession ι) (c : ι) :
    Describes printer s c (designContext printer time s c) := by
  refine ⟨rfl, ⟨_, rfl, ?_⟩, rfl, rfl, ⟨_, rfl, fun item => ?_⟩, ⟨_, rfl, fun item => ?_⟩, ⟨_, rfl, ready_iff, rfl⟩⟩
  · exact List.forall₂_map_right_iff.mpr (List.forall₂_same.mpr fun inst _ => describes_instanceJson inst)
  · rw [List.mem_map]
    constructor
    · rintro ⟨⟨net, pins⟩, hr, rfl⟩
      obtain ⟨hunpinned, rfl, hne⟩ := mem_vfpConnectivityRisks_iff.mp hr
      exact ⟨net, hunpinned, hne, rfl⟩
    · rintro ⟨net, hunpinned, hne, rfl⟩
      exact ⟨(net, _), mem_vfpConnectivityRisks_iff.mpr ⟨hunpinned, rfl, hne⟩, rfl⟩
  · rw [List.mem_map]
    constructor
    · rintro ⟨issue, hissue, rfl⟩
      exact ⟨issue, mem_vfpLintTestbench_iff.mp hissue, rfl⟩
    · rintro ⟨issue, hissue, rfl⟩
      exact ⟨issue, mem_vfpLintTestbench_iff.mpr hissue, rfl⟩

end Meaning

end VirtuosoFlow.Plugin
