import VirtuosoFlow.Plugin.GeomDiff

/-!
# What the geometry audit says about instances

`vfpLayoutGeomDiff` walks the instances of the first snapshot and compares each with the one of its
name in the second. An instance in only one of the snapshots gets no record.
-/

namespace VirtuosoFlow.Plugin

open Base

/-- The instances that a comparison has a record on. -/
def reportedInsts (diffs : List GeomChange) : List String :=
  (diffs.filter fun d => d.kind = .instMoved ∨ d.kind = .instReoriented).map GeomChange.subject

/-- A snapshot has an instance of this name. -/
def GeomSnapshot.HasInst (A : GeomSnapshot) (name : String) : Prop := ∃ r ∈ A.instances, r.name = name

/-- An instance is in only one of two snapshots, or its origin or orientation differs. -/
def InstDiffers (A B : GeomSnapshot) (name : String) : Prop :=
  (A.HasInst name ∧ ¬ B.HasInst name) ∨ (B.HasInst name ∧ ¬ A.HasInst name) ∨
    ∃ ra ∈ A.instances, ∃ rb ∈ B.instances, ra.name = name ∧ rb.name = name ∧
      (ra.xy ≠ rb.xy ∨ ra.orient ≠ rb.orient)

/-- The records on instances are on exactly those that differ, and an empty comparison means that both
snapshots hold the same instances at the same places. -/
structure InstancesExact (A B : GeomSnapshot) : Prop where
  reported : ∀ name, name ∈ reportedInsts (vfpLayoutGeomDiff A B) ↔ InstDiffers A B name
  silent : vfpLayoutGeomDiff A B = [] → ∀ row, row ∈ A.instances ↔ row ∈ B.instances

section Instances

variable {A B : GeomSnapshot}

/-- Records on shapes are not on instances. -/
theorem mem_reportedInsts {diffs : List GeomChange} {name : String} :
    name ∈ reportedInsts diffs ↔
      ∃ d ∈ diffs, (d.kind = .instMoved ∨ d.kind = .instReoriented) ∧ d.subject = name := by
  simp only [reportedInsts, List.mem_map, List.mem_filter, decide_eq_true_eq, and_assoc]

/-- A shape that was there gives a change or a removal. -/
theorem kind_of_mem_shapeDiff {shB : List ShapeRow} {s : ShapeRow} {d : GeomChange}
    (hd : d ∈ shapeDiff shB s) : d.kind = .shapeModified ∨ d.kind = .shapeRemoved := by
  unfold shapeDiff at hd
  split at hd
  · split at hd
    · cases hd
    · rw [List.mem_singleton.mp hd]
      exact .inl rfl
  · rw [List.mem_singleton.mp hd]
    exact .inr rfl

/-- A shape that was not there gives an addition. -/
theorem kind_of_mem_newShapeDiff {shA : List ShapeRow} {s : ShapeRow} {d : GeomChange}
    (hd : d ∈ newShapeDiff shA s) : d.kind = .shapeAdded := by
  unfold newShapeDiff at hd
  split at hd
  · cases hd
  · rw [List.mem_singleton.mp hd]
    rfl

/-- The records on an instance are on its name, and there are some exactly when the instance of its
name in the second snapshot is placed differently. -/
theorem exists_mem_placementDiff {iB : List PlacedRow} {ra : PlacedRow} {name : String} :
    (∃ d ∈ placementDiff iB ra, (d.kind = .instMoved ∨ d.kind = .instReoriented) ∧ d.subject = name) ↔
      ra.name = name ∧ ∃ rb, iB.find? (fun x => x.name = ra.name) = some rb ∧
        (ra.xy ≠ rb.xy ∨ ra.orient ≠ rb.orient) := by
  unfold placementDiff
  cases iB.find? fun x => x.name = ra.name with
  | none => simp
  | some rb =>
    by_cases hxy : ra.xy = rb.xy <;> by_cases horient : ra.orient = rb.orient <;> simp [hxy, horient]

/-- An instance is reported exactly when both snapshots have it and it is placed differently. -/
theorem mem_reportedInsts_diff (hB : (B.instances.map PlacedRow.name).Nodup) {name : String} :
    name ∈ reportedInsts (vfpLayoutGeomDiff A B) ↔
      ∃ ra ∈ A.instances, ∃ rb ∈ B.instances, ra.name = name ∧ rb.name = name ∧
        (ra.xy ≠ rb.xy ∨ ra.orient ≠ rb.orient) := by
  rw [mem_reportedInsts]
  constructor
  · rintro ⟨d, hd, hkind, hsubject⟩
    rw [vfpLayoutGeomDiff, List.mem_append, List.mem_append] at hd
    rcases hd with hshape | hshape | hinst
    · obtain ⟨s, _, hmem⟩ := List.mem_flatMap.mp hshape
      rcases kind_of_mem_shapeDiff hmem with hk | hk <;> simp [hk] at hkind
    · obtain ⟨s, _, hmem⟩ := List.mem_flatMap.mp hshape
      simp [kind_of_mem_newShapeDiff hmem] at hkind
    · obtain ⟨ra, hra, hmem⟩ := List.mem_flatMap.mp hinst
      obtain ⟨hname, rb, hfind, hplace⟩ := exists_mem_placementDiff.mp ⟨d, hmem, hkind, hsubject⟩
      have hrb : rb.name = ra.name := by simpa using List.find?_some hfind
      exact ⟨ra, hra, rb, List.mem_of_find?_eq_some hfind, hname, hrb.trans hname, hplace⟩
  · rintro ⟨ra, hra, rb, hrb, hname, hname', hplace⟩
    have hfind : B.instances.find? (fun x => x.name = ra.name) = some rb := by
      rw [hname, ← hname']
      exact find?_key hB hrb
    obtain ⟨d, hmem, hkind, hsubject⟩ := exists_mem_placementDiff.mpr ⟨hname, rb, hfind, hplace⟩
    refine ⟨d, ?_, hkind, hsubject⟩
    rw [vfpLayoutGeomDiff, List.mem_append, List.mem_append]
    exact .inr (.inr (List.mem_flatMap.mpr ⟨ra, hra, hmem⟩))

/-- Instances of the same names that do not differ are the same rows. -/
theorem mem_of_not_differs (hsame : ∀ name, ¬ InstDiffers A B name) {row : PlacedRow}
    (hrow : row ∈ A.instances) : row ∈ B.instances := by
  have hdiffers := hsame row.name
  have hin : B.HasInst row.name := by
    by_contra hnot
    exact hdiffers (.inl ⟨⟨row, hrow, rfl⟩, hnot⟩)
  obtain ⟨rb, hrb, hname⟩ := hin
  have hplace : row.xy = rb.xy ∧ row.orient = rb.orient := by
    by_contra hnot
    rw [not_and_or] at hnot
    exact hdiffers (.inr (.inr ⟨row, hrow, rb, hrb, rfl, hname, hnot⟩))
  obtain rfl : rb = row := by
    cases rb
    cases row
    simp_all
  exact hrb

/-- Differing goes both ways. -/
theorem InstDiffers.symm {name : String} (h : InstDiffers A B name) : InstDiffers B A name := by
  rcases h with honly | honly | ⟨ra, hra, rb, hrb, hname, hname', hplace⟩
  · exact .inr (.inl honly)
  · exact .inl honly
  · exact .inr (.inr ⟨rb, hrb, ra, hra, hname', hname, hplace.imp Ne.symm Ne.symm⟩)

/-- The records on instances are exact just when the two snapshots have instances of the same names. -/
theorem instances_exact_iff (hB : (B.instances.map PlacedRow.name).Nodup) :
    InstancesExact A B ↔ ∀ name, A.HasInst name ↔ B.HasInst name := by
  constructor
  · intro h name
    by_contra hnot
    have hdiffers : InstDiffers A B name := by
      unfold InstDiffers
      tauto
    obtain ⟨ra, hra, rb, hrb, hname, hname', -⟩ :=
      (mem_reportedInsts_diff hB).mp ((h.reported name).mpr hdiffers)
    exact hnot ⟨fun _ => ⟨rb, hrb, hname'⟩, fun _ => ⟨ra, hra, hname⟩⟩
  · intro hnames
    have hreported : ∀ name, name ∈ reportedInsts (vfpLayoutGeomDiff A B) ↔ InstDiffers A B name := by
      intro name
      rw [mem_reportedInsts_diff hB]
      constructor
      · exact fun h => .inr (.inr h)
      · rintro (⟨hA, hnot⟩ | ⟨hB', hnot⟩ | h)
        · exact absurd ((hnames name).mp hA) hnot
        · exact absurd ((hnames name).mpr hB') hnot
        · exact h
    refine ⟨hreported, ?_⟩
    intro hnil row
    have hsame : ∀ name, ¬ InstDiffers A B name := by
      intro name hdiffers
      have hmem := (hreported name).mpr hdiffers
      rw [hnil] at hmem
      cases hmem
    exact ⟨mem_of_not_differs hsame, mem_of_not_differs fun name h => hsame name h.symm⟩

end Instances

/-- A layout with these instances. -/
def samplePlacement (instances : List PlacedRow) : LayoutObjects := ⟨[], instances, some 0, by simp⟩

/-- An instance that was moved. -/
theorem instances_exact_iff_sample :
    InstancesExact (vfpLayoutGeomSnapshot (samplePlacement [⟨"I0", (0, 0), "R0"⟩]))
      (vfpLayoutGeomSnapshot (samplePlacement [⟨"I0", (5, 0), "R0"⟩])) :=
  (instances_exact_iff (by simp [vfpLayoutGeomSnapshot, samplePlacement])).mpr fun name => by
    simp [GeomSnapshot.HasInst, vfpLayoutGeomSnapshot, samplePlacement]

/-- An instance is deleted, and no record says so. -/
theorem deletion_not_reported :
    vfpLayoutGeomDiff (vfpLayoutGeomSnapshot (samplePlacement [⟨"I0", (0, 0), "R0"⟩]))
        (vfpLayoutGeomSnapshot (samplePlacement [])) = [] ∧
      ¬ InstancesExact (vfpLayoutGeomSnapshot (samplePlacement [⟨"I0", (0, 0), "R0"⟩]))
        (vfpLayoutGeomSnapshot (samplePlacement [])) := by
  have hnil : vfpLayoutGeomDiff (vfpLayoutGeomSnapshot (samplePlacement [⟨"I0", (0, 0), "R0"⟩]))
      (vfpLayoutGeomSnapshot (samplePlacement [])) = [] := by decide +kernel
  refine ⟨hnil, fun h => ?_⟩
  have hrow := (h.silent hnil ⟨"I0", (0, 0), "R0"⟩).mp (List.mem_singleton.mpr rfl)
  cases hrow

end VirtuosoFlow.Plugin
