import VirtuosoFlow.Plugin.SimRuns

/-!
# Which results are reused

A call of `vfpRunSimJob` that hands out a reused job goes by the fingerprint of the cellview it is for. That
tells the nets, the cells and the explicit parameters of the instances of this cellview, and nothing of what is
below them: a result is reused rightly as long as nothing is edited that was below when the fingerprint was
taken.
-/

namespace VirtuosoFlow.Plugin

open Base Relation

section Reuse

variable {ι : Type} {printer : Printer} {cv cv' : SimCellView ι} {test test' : String}

/-- An instance that stays, by its name and its cell, keeps its master. -/
def KeepsMasters (cv cv' : SimCellView ι) : Prop := ∀ i ∈ cv.instances, ∀ i' ∈ cv'.instances, i.name = i'.name →
  i.cellName = i'.cellName → i.libName = i'.libName ∧ i.viewName = i'.viewName ∧ i.master = i'.master

/-- A cellview keeps its own masters. -/
theorem KeepsMasters.refl (h : PlainNames printer cv) : KeepsMasters cv cv := by
  intro i hi i' hi' hname _
  obtain rfl := h.unique hi hi' hname
  exact ⟨rfl, rfl, rfl⟩

/-- What is told being the same, the masters are the same if instances that stay keep theirs. -/
theorem KeepsMasters.sameContent (h : KeepsMasters cv' cv) (htold : SameTold printer cv cv' test test') :
    SameContent printer cv cv' test test' := by
  refine ⟨htold.test, htold.nets, ?_, htold.props⟩
  intro inst lib cell view
  constructor
  · rintro ⟨i, hi, rfl, rfl, rfl, rfl⟩
    obtain ⟨i', hi', hname, hcell⟩ := (htold.cells i.name i.cellName).mp ⟨i, hi, rfl, rfl⟩
    obtain ⟨hlib, hview, -⟩ := h i' hi' i hi hname hcell
    exact ⟨i', hi', hname, hlib, hcell, hview⟩
  · rintro ⟨i', hi', rfl, rfl, rfl, rfl⟩
    obtain ⟨i, hi, hname, hcell⟩ := (htold.cells i'.name i'.cellName).mpr ⟨i', hi', rfl, rfl⟩
    obtain ⟨hlib, hview, -⟩ := h i' hi' i hi hname.symm hcell.symm
    exact ⟨i, hi, hname, hlib.symm, hcell, hview.symm⟩

/-- A cellview has the content that it has. -/
theorem SameContent.refl (printer : Printer) (cv : SimCellView ι) (test : String) :
    SameContent printer cv cv test test :=
  ⟨rfl, fun _ _ _ => Iff.rfl, fun _ _ _ _ => Iff.rfl, fun _ _ _ => Iff.rfl⟩

end Reuse

section Runs

variable {ι : Type} {printer : Printer} {w : SimWorld ι} {test : String}

/-- What was below a cellview with a job is as it was, and its instances that stayed have the same masters. -/
structure Undisturbed (printer : Printer) (w : SimWorld ι) : Prop where
  plain : ∀ t ∈ w.taken, PlainNames printer t.cellView
  below : ∀ t ∈ w.taken, ∀ c, TransGen t.designs.Below t.cv c → w.designs.cellView c = t.designs.cellView c
  masters : ∀ t ∈ w.taken, KeepsMasters t.cellView (w.designs.cellView t.cv)

/-- What is below a cellview that tells what it told then was below it then, and is as it was. -/
theorem Undisturbed.hierarchy (h : Undisturbed printer w) {t : Taken ι} (ht : t ∈ w.taken)
    (htold : SameTold printer (w.designs.cellView t.cv) t.cellView test t.test) {c : ι}
    (hc : ReflTransGen w.designs.Below t.cv c) :
    c = t.cv ∨ TransGen t.designs.Below t.cv c ∧ w.designs.cellView c = t.designs.cellView c := by
  induction hc with
  | refl => exact .inl rfl
  | @tail b c hb hbelow ih =>
    right
    have hthen : TransGen t.designs.Below t.cv c := by
      rcases ih with rfl | ⟨htrans, hsame⟩
      · obtain ⟨inst, hinst, hmaster⟩ := hbelow
        obtain ⟨inst', hinst', hname, hcell⟩ := (htold.cells inst.name inst.cellName).mp ⟨inst, hinst, rfl, rfl⟩
        obtain ⟨-, -, hsame⟩ := h.masters t ht inst' hinst' inst hinst hname hcell
        exact .single ⟨inst', hinst', hsame.trans hmaster⟩
      · refine htrans.tail ?_
        obtain ⟨inst, hinst, hmaster⟩ := hbelow
        exact ⟨inst, hsame ▸ hinst, hmaster⟩
    exact ⟨hthen, h.below t ht c hthen⟩

variable [DecidableEq ι]

/-- The steps that reuse may go by. An edit leaves alone what was below a cellview when the fingerprint of one
of its jobs was taken, and what it leaves of a cellview with a job keeps its masters. A simulated cellview has
plain names, and tells something else than every other cellview with a job did. -/
def ReuseSafe (printer : Printer) (w : SimWorld ι) : SimInput ι → Prop
  | .edit c instances modified => ∀ t ∈ w.taken, ¬ TransGen t.designs.Below t.cv c ∧
      (t.cv = c → KeepsMasters t.cellView ((w.designs.edited c instances modified).cellView c))
  | .runSim call (some c) => PlainNames printer (w.designs.cellView c) ∧
      ∀ t ∈ w.taken, t.cv ≠ c → ¬ SameTold printer (w.designs.cellView c) t.cellView call.test t.test
  | _ => True

/-- Every safe step keeps the taken jobs undisturbed. -/
theorem undisturbed_step (h : Undisturbed printer w) {i : SimInput ι} (hok : ReuseSafe printer w i) :
    Undisturbed printer (w.step printer i).2 := by
  cases i with
  | save c => exact ⟨h.plain, h.below, h.masters⟩
  | jobRun env params => exact ⟨h.plain, h.below, h.masters⟩
  | runner world i => exact ⟨h.plain, h.below, h.masters⟩
  | edit c instances modified =>
    have hother : ∀ c', c' ≠ c → (w.designs.edited c instances modified).cellView c' = w.designs.cellView c' :=
      fun c' hne => Function.update_of_ne hne _ _
    refine ⟨h.plain, ?_, ?_⟩
    · intro t ht c' hc'
      obtain ⟨hnot, -⟩ := hok t ht
      have hne : c' ≠ c := by
        rintro rfl
        exact hnot hc'
      exact (hother c' hne).trans (h.below t ht c' hc')
    · intro t ht
      by_cases hc : t.cv = c
      · subst hc
        exact (hok t ht).2 rfl
      · change KeepsMasters t.cellView ((w.designs.edited c instances modified).cellView t.cv)
        rw [hother _ hc]
        exact h.masters t ht
  | runSim call cv =>
    cases cv with
    | none =>
      change Undisturbed printer { w with
        system := (vfpRunSimJob printer w.designs call none w.system).2
        taken := w.taken ++ [] }
      rw [List.append_nil]
      exact ⟨h.plain, h.below, h.masters⟩
    | some c =>
      have hadded : ∀ t ∈ (w.step printer (.runSim call (some c))).2.taken, t ∈ w.taken ∨
          t.designs = w.designs ∧ t.cv = c := by
        intro t ht
        rcases List.mem_append.mp ht with hold | hnew
        · exact .inl hold
        · simp only [Option.toList_some, List.flatMap_singleton, List.mem_map] at hnew
          obtain ⟨k, -, rfl⟩ := hnew
          exact .inr ⟨rfl, rfl⟩
      constructor
      · intro t ht
        rcases hadded t ht with hold | ⟨hd, rfl⟩
        · exact h.plain t hold
        · rw [Taken.cellView, hd]
          exact hok.1
      · intro t ht c' hc'
        rcases hadded t ht with hold | ⟨hd, rfl⟩
        · exact h.below t hold c' hc'
        · rw [hd]
          rfl
      · intro t ht
        rcases hadded t ht with hold | ⟨hd, rfl⟩
        · exact h.masters t hold
        · rw [Taken.cellView, hd]
          exact .refl hok.1

/-- They are undisturbed after every run. -/
theorem undisturbed_of_run {h : List (Entry (SimWorld ι) (SimInput ι) (Except SkillError SimAnswer))}
    (hrun : Run (simMachine ι printer) (ReuseSafe printer) h w) : Undisturbed printer w := by
  refine hrun.invariant ?_ fun _ i hok hkept => undisturbed_step hkept hok
  rintro w ⟨-, htaken⟩
  constructor <;> intro t ht <;> (rw [htaken] at ht; cases ht)

/-- In every run whose steps reuse may go by, a job that `vfpRunSimJob` says was reused is one whose fingerprint
was taken when the cellview and all below it had the connectivity, the masters and the explicit parameters that
they have at the call. -/
theorem reused_results_hold {h : List (Entry (SimWorld ι) (SimInput ι) (Except SkillError SimAnswer))}
    (hrun : Run (simMachine ι printer) (ReuseSafe printer) h w) :
    ∀ e ∈ h, ∀ call c jid, e.input = .runSim call (some c) → e.output = .ok (some (jid, true)) →
      (∃ t ∈ e.before.taken, jid.key? = some t.job) ∧
      ∀ t ∈ e.before.taken, jid.key? = some t.job → ∀ c', ReflTransGen e.before.designs.Below c c' →
        SameContent printer (e.before.designs.cellView c') (t.designs.cellView c') call.test t.test := by
  intro e he call c jid hinput houtput
  obtain ⟨h₁, h₂, rfl, hprior, hok, hfire⟩ := hrun.split_of_mem he
  have htraced := traced_of_run hprior
  have hkept := undisturbed_of_run hprior
  rw [hinput] at hok
  have hreused : (vfpRunSimJob printer e.before.designs call (some c) e.before.system).1 = .ok (some (jid, true)) := by
    rw [hfire, hinput] at houtput
    exact houtput
  obtain ⟨k, j, hj, hfingerprint, -, rfl⟩ := reused_of_vfpRunSimJob hreused
  obtain ⟨t₀, ht₀, rfl⟩ := htraced.stored k j hj
  obtain ⟨j₀, hj₀, hmade⟩ := htraced.made t₀ ht₀
  obtain rfl : j₀ = j := Option.some.inj (hj₀.symm.trans hj)
  refine ⟨⟨t₀, ht₀, hmade.id⟩, ?_⟩
  intro t ht hid c' hc'
  -- the job that is handed out is the one whose fingerprint `t` tells of
  have hkey : t₀.job = t.job := Option.some.inj (hmade.id.symm.trans hid)
  obtain ⟨j', hj', hmade'⟩ := htraced.made t ht
  rw [← hkey] at hj'
  obtain rfl : j₀ = j' := Option.some.inj (hj₀.symm.trans hj')
  have hsame : vfpInputsFingerprint printer (some (e.before.designs.cellView c)) call.test =
      vfpInputsFingerprint printer (some t.cellView) t.test :=
    Json.str.inj (hfingerprint.symm.trans hmade'.fingerprint)
  have htold := (fingerprint_eq_iff hok.1 (hkept.plain t ht)).mp hsame
  obtain rfl : t.cv = c := by
    by_contra hne
    exact hok.2 t ht hne htold
  rcases hkept.hierarchy ht htold hc' with rfl | ⟨-, hsame'⟩
  · exact (hkept.masters t ht).sameContent htold
  · rw [hsame', ← htold.test]
    exact .refl printer _ _

end Runs

section Examples

/-- The bench over two levels, with nothing changed. -/
def sampleBench : OpenCellViews ℕ := { sampleHierarchy with modified := fun _ => false }

/-- A call whose requests are answered. -/
def SimCall.sample : SimCall where
  env := .sample
  test := "tran"
  attended := none
  corner := "Nominal"
  sessionId := none
  savedAt := none
  paramsWritable := true
  reaches _ := true
  answers _ := true

/-- What its fingerprint is. -/
def sampleFingerprint : String := "test=tran;conn=;params=I0:amp[]"

/-- The bench is simulated. -/
def sampleSimulate : SimInput ℕ := .runSim .sample (some 0)

/-- The runner thread takes a step, with a simulator that leaves a metric. -/
def sampleRunnerStep : SimInput ℕ := .runner ⟨.sample, .exited 0 "", .exited 0 "", .contents "gain=1.5"⟩ 0

/-- The bench before it is first simulated. -/
def sampleSimStart : SimWorld ℕ := ⟨sampleBench, Tunnel.sampleStart, []⟩

/-- The bench with its first job. -/
def sampleSubmitted : SimWorld ℕ :=
  ⟨sampleBench, (SimCall.sample.submit .sample (sampleBench.cellView 0) sampleFingerprint Tunnel.sampleStart).2,
    [⟨.str "job_0123456789ab", 0, "tran", sampleBench⟩]⟩

/-- The bench with its first job done. -/
def sampleSimulated : SimWorld ℕ := (simMachine ℕ .sample).last sampleSubmitted (List.replicate 15 sampleRunnerStep)

/-- The fingerprint of the sample. -/
theorem fingerprint_sampleBench :
    vfpInputsFingerprint .sample (some (sampleBench.cellView 0)) "tran" = sampleFingerprint := by
  have hterms : sortNames ((some (sampleBench.cellView 0)).map SimCellView.terms |>.getD []) = [] := by
    simp [sampleBench, sampleHierarchy, SimCellView.terms, sampleSub, sortNames]
  have hparts : sortNames (((some (sampleBench.cellView 0)).map (SimCellView.parts .sample)).getD []) =
      ["I0:amp[]"] := by
    have hpart : partText "I0" "amp" [] = "I0:amp[]" := by
      simp [partText, sortNames]
    simp [sampleBench, sampleHierarchy, SimCellView.parts, sampleSub, sortNames, hpart]
  unfold vfpInputsFingerprint
  rw [hterms, hparts]
  rfl

/-- What a call for the bench does, as long as nothing is changed in it or right below it. -/
theorem vfpRunSimJob_sample {d : OpenCellViews ℕ} (hcv : d.cellView 0 = sampleBench.cellView 0)
    (hclean : d.modified 0 = false) (hclean' : d.modified 1 = false) (s : Tunnel.System) :
    vfpRunSimJob .sample d .sample (some 0) s =
      (.ok (SimCall.sample.submit .sample (sampleBench.cellView 0) sampleFingerprint s).1,
        (SimCall.sample.submit .sample (sampleBench.cellView 0) sampleFingerprint s).2) := by
  have hdirty : vfpCellViewDirtyHier d (some 0) = false := by
    refine dirtyHier_eq_false_iff.mpr ⟨hclean, ?_⟩
    rintro c ⟨inst, hinst, hmaster⟩
    rw [hcv] at hinst
    obtain rfl := List.mem_singleton.mp hinst
    obtain rfl := Option.some.inj hmaster
    exact hclean'
  unfold vfpRunSimJob
  simp only [vfpSimPreflight, hdirty, Option.map_some, hcv, SimCall.sample, fingerprint_sampleBench]
  rfl

/-- Its simulation is submitted. -/
theorem step_sampleSimStart : (sampleSimStart.step .sample sampleSimulate).2 = sampleSubmitted := by
  have hcall := vfpRunSimJob_sample (d := sampleBench) rfl rfl rfl Tunnel.sampleStart
  simp only [SimWorld.step, sampleSimulate, sampleSimStart, SimCall.sample] at hcall ⊢
  rw [hcall]
  rfl

/-- The names of the sample are plain. -/
theorem plainNames_sampleBench : PlainNames .sample (sampleBench.cellView 0) where
  distinct := List.nodup_singleton _
  insts := by
    rintro inst (_ | ⟨_, ⟨⟩⟩)
    exact ⟨undelimited_of_all (by decide), undelimited_of_all (by decide)⟩
  terms := by
    rintro inst (_ | ⟨_, ⟨⟩⟩) it ⟨⟩
  props := by
    rintro inst (_ | ⟨_, ⟨⟩⟩) p ⟨⟩

/-- Up to its end, the first simulation consists of steps that reuse may go by. -/
theorem run_sampleSimulated :
    ∃ h, Run (simMachine ℕ .sample) (ReuseSafe .sample) h sampleSimulated := by
  have hfirst : ReuseSafe .sample sampleSimStart sampleSimulate :=
    ⟨plainNames_sampleBench, fun t ht => by cases ht⟩
  have hstart : Run (simMachine ℕ .sample) (ReuseSafe .sample) [] sampleSimStart := .init ⟨⟨.empty, rfl⟩, rfl⟩
  have hsubmitted := hstart.step hfirst
  have hlast := hsubmitted.append_trace (List.replicate 15 sampleRunnerStep) (by
    intro e he
    rw [List.eq_of_mem_replicate (Machine.input_mem_of_trace he)]
    trivial)
  change Run _ _ _ ((simMachine ℕ .sample).last (sampleSimStart.step .sample sampleSimulate).2 _) at hlast
  rw [step_sampleSimStart] at hlast
  exact ⟨_, hlast⟩

/-- Simulating it again gives the same job. -/
theorem sampleSimulated_again :
    ((simMachine ℕ .sample).fire sampleSimulated sampleSimulate).output =
      .ok (some (.str "job_0123456789ab", true)) := by
  change (vfpRunSimJob .sample sampleSimulated.designs .sample (some 0) sampleSimulated.system).1 = _
  rw [vfpRunSimJob_sample (by rfl) (by rfl) (by rfl)]
  rfl

/-- What the reused job simulated is what is there. -/
theorem reused_results_hold_sample : ∃ t : Taken ℕ, (Json.str "job_0123456789ab").key? = some t.job ∧
    ∀ c, ReflTransGen sampleBench.Below 0 c →
      SameContent .sample (sampleBench.cellView c) (t.designs.cellView c) "tran" t.test := by
  obtain ⟨h, hrun⟩ := run_sampleSimulated
  have hagain : ReuseSafe .sample sampleSimulated sampleSimulate := by
    refine ⟨plainNames_sampleBench, fun t ht hne => ?_⟩
    have htaken : sampleSimulated.taken = [⟨.str "job_0123456789ab", 0, "tran", sampleBench⟩] := by rfl
    rw [htaken] at ht
    obtain rfl := List.mem_singleton.mp ht
    exact absurd rfl hne
  obtain ⟨⟨t, ht, hid⟩, hsame⟩ := reused_results_hold (hrun.step hagain)
    ((simMachine ℕ .sample).fire sampleSimulated sampleSimulate) (by simp) .sample 0 _ rfl sampleSimulated_again
  exact ⟨t, hid, hsame t ht hid⟩

/-- A load in the bias cell, two levels below the bench. -/
def sampleDeepEdit : SimInput ℕ := .edit 2 [sampleSub "res" none] true

/-- The bench after the bias cell was edited and saved. -/
def sampleDeepSaved : SimWorld ℕ :=
  (simMachine ℕ .sample).last sampleSimulated [sampleDeepEdit, .save 2]

/-- A change further down gives the same job too. -/
theorem sampleDeepSaved_again : ((simMachine ℕ .sample).fire sampleDeepSaved sampleSimulate).output =
    .ok (some (.str "job_0123456789ab", true)) := by
  change (vfpRunSimJob .sample sampleDeepSaved.designs .sample (some 0) sampleDeepSaved.system).1 = _
  rw [vfpRunSimJob_sample (by rfl) (by rfl) (by rfl)]
  rfl

/-- A job is reused after a cellview two levels below was edited. -/
theorem deep_edit_reused : ¬ ∀ (h : List (Entry (SimWorld ℕ) (SimInput ℕ) (Except SkillError SimAnswer)))
    (w : SimWorld ℕ), Run (simMachine ℕ .sample) (fun _ _ => True) h w →
    ∀ e ∈ h, ∀ call c jid, e.input = .runSim call (some c) → e.output = .ok (some (jid, true)) →
      ∀ t ∈ e.before.taken, jid.key? = some t.job → ∀ c', ReflTransGen e.before.designs.Below c c' →
        SameContent .sample (e.before.designs.cellView c') (t.designs.cellView c') call.test t.test := by
  intro hall
  obtain ⟨h, hrun⟩ := run_sampleSimulated
  have hrun' : Run (simMachine ℕ .sample) (fun _ _ => True) h sampleSimulated := hrun.mono fun _ _ _ => trivial
  have hsaved := hrun'.append_trace [sampleDeepEdit, .save 2] fun _ _ => trivial
  have hagain := hsaved.step (i := sampleSimulate) trivial
  have hsame := hall _ _ hagain ((simMachine ℕ .sample).fire sampleDeepSaved sampleSimulate) (by simp [sampleDeepSaved])
    .sample 0 _ rfl sampleDeepSaved_again ⟨.str "job_0123456789ab", 0, "tran", sampleBench⟩
    (List.mem_singleton.mpr rfl) rfl 2
    (.head ⟨_, List.mem_cons_self, rfl⟩ (.single ⟨_, List.mem_cons_self, rfl⟩))
  obtain ⟨i, hi, -⟩ := (hsame.masters "I0" "lib" "res" "symbol").mp ⟨_, List.mem_cons_self, rfl, rfl, rfl, rfl⟩
  cases hi

end Examples

end VirtuosoFlow.Plugin
