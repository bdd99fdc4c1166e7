import VirtuosoFlow.Tunnel.Updates

/-!
# When a verdict is a pass

`constraint.check` compares metrics with their limits and passes a metric unless one of two
comparisons finds it outside. A comparison with `NaN` finds nothing, and a metric with one bound may
be infinite on the other side, so a pass says less than that the metric is a number within its
limits. This file says when it says that much.
-/

namespace VirtuosoFlow

/-- The order of the numbers; `NaN` has no place in it. -/
def PyFloat.le : PyFloat → PyFloat → Bool
  | .finite p, .finite q => decide (p ≤ q)
  | .infinite true, .finite _ => true
  | .finite _, .infinite false => true
  | .infinite n, .infinite m => n || !m
  | _, _ => false

/-- One number is at most another if both are numbers and the other is not less. -/
theorem PyFloat.le_iff {x y : PyFloat} : x.le y = true ↔ x ≠ .nan ∧ y ≠ .nan ∧ y.lt x = false := by
  cases x with
  | nan => simp [PyFloat.le]
  | finite p =>
    cases y with
    | finite q => simp [PyFloat.le, PyFloat.lt]
    | nan => simp [PyFloat.le]
    | infinite m => cases m <;> simp [PyFloat.le, PyFloat.lt]
  | infinite n =>
    cases y with
    | nan => cases n <;> simp [PyFloat.le]
    | finite q => cases n <;> simp [PyFloat.le, PyFloat.lt]
    | infinite m => cases n <;> cases m <;> simp [PyFloat.le, PyFloat.lt]

namespace Json

variable {v w : Json} {x y : PyFloat} {b : Bool}

/-- Only numbers can be compared with a number. -/
theorem number?_of_lt? (hv : v.number? = some x) (h : v.lt? w = some b) :
    ∃ y, w.number? = some y ∧ x.lt y = b := by
  cases v with
  | bool _ | int _ | float _ =>
    cases hw : w.number? with
    | none => cases w <;> simp_all [lt?, number?]
    | some y => cases w <;> simp_all [lt?, number?]
  | _ => simp [number?] at hv

/-- What can be compared with a number is one. -/
theorem number?_of_lt?' (hw : w.number? = some y) (h : v.lt? w = some b) :
    ∃ x, v.number? = some x ∧ x.lt y = b := by
  cases w with
  | bool _ | int _ | float _ =>
    cases hv : v.number? with
    | none => cases v <;> simp_all [lt?, number?]
    | some x => cases v <;> simp_all [lt?, number?]
  | _ => simp [number?] at hw

/-- What counts as NaN is NaN. -/
theorem isNan_of_number? (h : v.number? = some .nan) : v.isNan = true := by
  cases v with
  | float x =>
    obtain rfl : x = .nan := by simpa [number?] using h
    rfl
  | _ => simp [number?] at h

end Json

namespace Tunnel

open Base

/-- A check of metrics, and where they came from. -/
def constraintVerdict (env : Env) (metrics limits : Obj) (source : String) : Prog PyExc Tunnel Json := do
  let verdict ← Prog.ofExcept (ConstraintEngine.check env metrics limits)
  return .obj (Obj.set verdict "source" (.str source))

/-- `_m_constraint_check`. -/
def mConstraintCheck (env : Env) (params : Obj) : Prog PyExc Tunnel Json :=
  match Obj.get params "constraints" with
  | .obj limits =>
    match Obj.get params "metrics" with
    | .obj metrics => constraintVerdict env metrics limits "params"
    | _ => do
      let t ← get
      let latest := t.results.latest.getD []
      if latest.isEmpty then throw (rpcError invalidParams "no metrics provided and no stored result")
      match Obj.getD latest "metrics" (.obj []) with
      | .obj metrics => constraintVerdict env metrics limits "latest_result"
      -- a stored value that is no dict is only looked into when there is a limit
      | v =>
        if v.truthy && !limits.isEmpty then throw .attributeError
        else constraintVerdict env [] limits "latest_result"
  | _ => throw (rpcError invalidParams "params.constraints must be an object")

/-- The metrics that a request is answered from. -/
def usedMetrics (params : Obj) (t : Tunnel) : Obj :=
  match Obj.get params "metrics" with
  | .obj metrics => metrics
  | _ => metricsOf (t.results.latest.getD [])

namespace ConstraintEngine

/-- The bound of a metric on one side. -/
def bound (limits : Obj) (metric side : String) : Json :=
  match pyOr (Obj.get limits metric) (.obj []) with
  | .obj spec => Obj.get spec side
  | _ => .null

/-- A metric is reported as a finite number, and the bounds given for it hold. -/
structure Within (metrics limits : Obj) (metric : String) (q : ℚ) : Prop where
  value : (Obj.get metrics metric).number? = some (.finite q)
  low : bound limits metric "min" ≠ .null →
    ∃ x, (bound limits metric "min").number? = some x ∧ x.le (.finite q) = true
  high : bound limits metric "max" ≠ .null →
    ∃ x, (bound limits metric "max").number? = some x ∧ (PyFloat.finite q).le x = true

/-- A metric is not reported, or a comparison finds it outside of a bound. -/
def Outside (metrics limits : Obj) (metric : String) : Prop :=
  Obj.get metrics metric = .null ∨
    (bound limits metric "min" ≠ .null ∧
      (Obj.get metrics metric).lt? (bound limits metric "min") = some true) ∨
    (bound limits metric "max" ≠ .null ∧
      (bound limits metric "max").lt? (Obj.get metrics metric) = some true)

/-- A metric is a finite number, and no bound of it is `NaN`. -/
structure Measured (metrics limits : Obj) (metric : String) : Prop where
  value : ∃ q, (Obj.get metrics metric).number? = some (.finite q)
  low : (bound limits metric "min").isNan = false
  high : (bound limits metric "max").isNan = false

section Check

variable {env : Env} {metrics limits : Obj} {metric : String} {v w spec lo hi : Json} {item : Obj}

/-- A bound is passed if it is there and the comparison says so. -/
theorem beyond_true {bound : Json} : beyond bound (less v w) = .ok true ↔ bound ≠ .null ∧ v.lt? w = some true := by
  unfold beyond less
  cases v.lt? w <;> cases bound <;> simp

/-- It is not if it is not there or the comparison says no. -/
theorem beyond_false {bound : Json} :
    beyond bound (less v w) = .ok false ↔ (bound ≠ .null → v.lt? w = some false) := by
  unfold beyond less
  cases v.lt? w <;> cases bound <;> simp

/-- What is read of the limits of a metric that is reported. -/
theorem attrGet_bound {side : String} (h : attrGet (pyOr (Obj.get limits metric) (.obj [])) side = .ok lo) :
    bound limits metric side = lo := by
  unfold bound
  cases hspec : pyOr (Obj.get limits metric) (.obj []) with
  | obj spec =>
    rw [hspec] at h
    exact Except.ok.inj h
  | _ =>
    rw [hspec] at h
    cases h

/-- An item passes just when neither comparison finds the metric outside. -/
theorem evaluateOne_status (hv : v ≠ .null) (h : evaluateOne env metric v spec = .ok item) :
    ∃ lo hi, attrGet spec "min" = .ok lo ∧ attrGet spec "max" = .ok hi ∧
      ((Obj.get item "status" = .str "pass" ∧ beyond lo (less v lo) = .ok false ∧
          beyond hi (less hi v) = .ok false) ∨
        (Obj.get item "status" = .str "fail" ∧
          (beyond lo (less v lo) = .ok true ∨ beyond hi (less hi v) = .ok true))) := by
  unfold evaluateOne at h
  split at h
  · exact absurd rfl hv
  · cases hlo : attrGet spec "min" with
    | error e =>
      rw [hlo] at h
      cases h
    | ok lo =>
      cases hhi : attrGet spec "max" with
      | error e =>
        simp only [hlo, hhi, Bind.bind, Except.bind, reduceCtorEq] at h
      | ok hi =>
        simp only [hlo, hhi, Bind.bind, Except.bind] at h
        refine ⟨lo, hi, rfl, rfl, ?_⟩
        cases hbelow : beyond lo (less v lo) with
        | error e =>
          rw [hbelow] at h
          cases h
        | ok below =>
          rw [hbelow] at h
          cases below with
          | true =>
            obtain rfl := Except.ok.inj h
            exact .inr ⟨rfl, .inl rfl⟩
          | false =>
            cases habove : beyond hi (less hi v) with
            | error e =>
              simp only [habove, reduceCtorEq, Bool.false_eq_true, if_false] at h
            | ok above =>
              simp only [habove, Bool.false_eq_true, if_false] at h
              cases above with
              | true =>
                obtain rfl := Except.ok.inj h
                exact .inr ⟨rfl, .inr rfl⟩
              | false =>
                obtain rfl := Except.ok.inj h
                exact .inl ⟨rfl, rfl, rfl⟩

/-- A metric passes just when it is not found outside; then both comparisons were made. -/
theorem evaluateOne_pass (h : evaluateOne env metric (Obj.get metrics metric)
      (pyOr (Obj.get limits metric) (.obj [])) = .ok item) :
    (Obj.get item "status" = .str "pass" ↔ ¬ Outside metrics limits metric) ∧
      (¬ Outside metrics limits metric →
        (bound limits metric "min" ≠ .null →
          (Obj.get metrics metric).lt? (bound limits metric "min") = some false) ∧
        (bound limits metric "max" ≠ .null →
          (bound limits metric "max").lt? (Obj.get metrics metric) = some false)) := by
  by_cases hv : Obj.get metrics metric = .null
  · have houtside : Outside metrics limits metric := .inl hv
    have hfail : Obj.get item "status" = .str "fail" := by
      rw [hv] at h
      obtain rfl := Except.ok.inj h
      rfl
    rw [hfail]
    exact ⟨⟨fun hpass => by simp at hpass, fun hin => absurd houtside hin⟩, fun hin => absurd houtside hin⟩
  · obtain ⟨lo, hi, hlo, hhi, hstatus⟩ := evaluateOne_status hv h
    obtain rfl := attrGet_bound hlo
    obtain rfl := attrGet_bound hhi
    rcases hstatus with ⟨hpass, hbelow, habove⟩ | ⟨hfail, hfound⟩
    · rw [beyond_false] at hbelow habove
      have hinside : ¬ Outside metrics limits metric := by
        rintro (hnull | ⟨hbound, hlt⟩ | ⟨hbound, hlt⟩)
        · exact hv hnull
        · rw [hbelow hbound] at hlt
          cases hlt
        · rw [habove hbound] at hlt
          cases hlt
      exact ⟨⟨fun _ => hinside, fun _ => hpass⟩, fun _ => ⟨hbelow, habove⟩⟩
    · have houtside : Outside metrics limits metric := by
        rcases hfound with hbelow | habove
        · exact .inr (.inl (beyond_true.mp hbelow))
        · exact .inr (.inr (beyond_true.mp habove))
      rw [hfail]
      exact ⟨⟨fun hpass => by simp at hpass, fun hin => absurd houtside hin⟩, fun hin => absurd houtside hin⟩

/-- A metric within its limits is not found outside. -/
theorem not_outside_of_within {q : ℚ} (h : Within metrics limits metric q) : ¬ Outside metrics limits metric := by
  rintro (hnull | ⟨hbound, hlt⟩ | ⟨hbound, hlt⟩)
  · have hvalue := h.value
    rw [hnull] at hvalue
    cases hvalue
  · obtain ⟨x, hx, hle⟩ := h.low hbound
    obtain ⟨y, hy, hless⟩ := Json.number?_of_lt? h.value hlt
    obtain rfl : x = y := Option.some.inj (hx.symm.trans hy)
    rw [(PyFloat.le_iff.mp hle).2.2] at hless
    cases hless
  · obtain ⟨x, hx, hle⟩ := h.high hbound
    obtain ⟨y, hy, hless⟩ := Json.number?_of_lt?' h.value hlt
    obtain rfl : x = y := Option.some.inj (hx.symm.trans hy)
    rw [(PyFloat.le_iff.mp hle).2.2] at hless
    cases hless

/-- Within its limits a metric is measured: the bounds that hold are numbers. -/
theorem measured_of_within {q : ℚ} (h : Within metrics limits metric q) : Measured metrics limits metric := by
  have hnumber : ∀ {v : Json}, v.isNan = true → v.number? = some .nan ∧ v ≠ .null := by
    intro v hv
    cases v with
    | float x => cases x <;> simp_all [Json.isNan, Json.number?]
    | _ => simp [Json.isNan] at hv
  refine ⟨⟨q, h.value⟩, ?_, ?_⟩
  · cases hnan : (bound limits metric "min").isNan with
    | false => rfl
    | true =>
      obtain ⟨hnumber, hbound⟩ := hnumber hnan
      obtain ⟨x, hx, hle⟩ := h.low hbound
      exact absurd (Option.some.inj (hx.symm.trans hnumber)) (PyFloat.le_iff.mp hle).1
  · cases hnan : (bound limits metric "max").isNan with
    | false => rfl
    | true =>
      obtain ⟨hnumber, hbound⟩ := hnumber hnan
      obtain ⟨x, hx, hle⟩ := h.high hbound
      exact absurd (Option.some.inj (hx.symm.trans hnumber)) (PyFloat.le_iff.mp hle).2.1

/-- A measured metric whose comparisons find nothing is within its limits. -/
theorem within_of_measured (h : Measured metrics limits metric)
    (hlow : bound limits metric "min" ≠ .null →
      (Obj.get metrics metric).lt? (bound limits metric "min") = some false)
    (hhigh : bound limits metric "max" ≠ .null →
      (bound limits metric "max").lt? (Obj.get metrics metric) = some false) :
    ∃ q, Within metrics limits metric q := by
  obtain ⟨q, hq⟩ := h.value
  refine ⟨q, hq, ?_, ?_⟩
  · intro hbound
    obtain ⟨x, hx, hless⟩ := Json.number?_of_lt? hq (hlow hbound)
    refine ⟨x, hx, PyFloat.le_iff.mpr ⟨?_, by simp, hless⟩⟩
    rintro rfl
    exact absurd (Json.isNan_of_number? hx) (by simp [h.low])
  · intro hbound
    obtain ⟨x, hx, hless⟩ := Json.number?_of_lt?' hq (hhigh hbound)
    refine ⟨x, hx, PyFloat.le_iff.mpr ⟨by simp, ?_, hless⟩⟩
    rintro rfl
    exact absurd (Json.isNan_of_number? hx) (by simp [h.high])

/-- The items of a verdict, one for each limit. -/
theorem mapM_items {names : List String} {f : String → Except PyExc Obj} {items : List Obj}
    (h : names.mapM f = .ok items) (p : Obj → Bool) :
    (∀ name ∈ names, ∃ item, f name = .ok item) ∧
      (items.all p = true ↔ ∀ name ∈ names, ∀ item, f name = .ok item → p item = true) := by
  induction names generalizing items with
  | nil =>
    obtain rfl : [] = items := Except.ok.inj h
    simp
  | cons name names ih =>
    rw [List.mapM_cons] at h
    cases hname : f name with
    | error e =>
      rw [hname] at h
      cases h
    | ok item =>
      cases hrest : names.mapM f with
      | error e =>
        simp only [hname, hrest, Bind.bind, Except.bind, reduceCtorEq] at h
      | ok rest =>
        simp only [hname, hrest, Bind.bind, Except.bind, Pure.pure, Except.pure, Except.ok.injEq] at h
        subst h
        obtain ⟨hreturned, hall⟩ := ih hrest
        constructor
        · intro n hn
          rcases List.mem_cons.mp hn with rfl | hn
          · exact ⟨item, hname⟩
          · exact hreturned n hn
        · simp only [List.all_cons, Bool.and_eq_true, hall, List.forall_mem_cons, hname, Except.ok.injEq,
            forall_eq']

/-- A verdict passes just when no metric is found outside, and tells nothing else of a metric that is
not. -/
theorem check_pass {verdict : Obj} (h : check env metrics limits = .ok verdict) :
    (Obj.get verdict "overall" = .str "pass" ↔
        ∀ metric ∈ limits.map Prod.fst, ¬ Outside metrics limits metric) ∧
      ∀ metric ∈ limits.map Prod.fst, ∃ item, evaluateOne env metric (Obj.get metrics metric)
        (pyOr (Obj.get limits metric) (.obj [])) = .ok item := by
  unfold check at h
  dsimp only at h
  cases hitems : ((limits.map Prod.fst).mergeSort fun a b => decide (a ≤ b)).mapM fun metric =>
      evaluateOne env metric (Obj.get metrics metric) (pyOr (Obj.get limits metric) (.obj [])) with
  | error e =>
    rw [hitems] at h
    cases h
  | ok items =>
    rw [hitems] at h
    obtain ⟨hreturned, hall⟩ := mapM_items hitems fun i => (Obj.get i "status").pyEq (.str "pass")
    simp only [List.mem_mergeSort] at hreturned hall
    obtain rfl := Except.ok.inj h
    refine ⟨?_, hreturned⟩
    have hoverall : (∀ metric ∈ limits.map Prod.fst, ¬ Outside metrics limits metric) ↔
        (items.all fun i => (Obj.get i "status").pyEq (.str "pass")) = true := by
      rw [hall]
      refine forall₂_congr fun metric hmetric => ?_
      obtain ⟨item, hitem⟩ := hreturned metric hmetric
      rw [← (evaluateOne_pass hitem).1]
      simp [hitem]
    rw [hoverall]
    cases hpass : items.all fun i => (Obj.get i "status").pyEq (.str "pass") with
    | true => simp [Obj.get, Obj.getD]
    | false => simp [Obj.get, Obj.getD]

end Check

end ConstraintEngine

section Request

open ConstraintEngine

variable {env : Env} {params metrics limits verdict : Obj} {t t' : Tunnel} {source : String}

/-- The verdict has the outcome of the check. -/
theorem constraintVerdict_ok (h : (constraintVerdict env metrics limits source).exec t = (.ok (.obj verdict), t')) :
    ∃ checked, check env metrics limits = .ok checked ∧
      Obj.get verdict "overall" = Obj.get checked "overall" := by
  obtain ⟨checked, t₁, hcheck, h⟩ := Prog.exec_bind_eq_ok h
  rw [Prog.exec_ofExcept, Prod.mk.injEq] at hcheck
  have hverdict : Obj.set checked "source" (.str source) = verdict := by
    simpa using congrArg Prod.fst h
  refine ⟨checked, hcheck.1, ?_⟩
  rw [← hverdict, Obj.get_set_ne _ (by decide)]

/-- The metrics of a result are the object under that name. -/
theorem metricsOf_eq {result : Obj} (h : Obj.getD result "metrics" (.obj []) = .obj metrics) :
    metricsOf result = metrics := by
  unfold metricsOf Obj.get
  unfold Obj.getD at h ⊢
  cases hlookup : result.lookup "metrics" with
  | none =>
    rw [hlookup] at h
    exact (Json.obj.inj h)
  | some v =>
    rw [hlookup, Option.getD_some] at h
    rw [Option.getD_some, h]

/-- Without an object there are none. -/
theorem metricsOf_other {result : Obj}
    (h : ∀ metrics, Obj.getD result "metrics" (.obj []) ≠ .obj metrics) : metricsOf result = [] := by
  unfold metricsOf Obj.get
  unfold Obj.getD at h ⊢
  cases hlookup : result.lookup "metrics" with
  | none => rfl
  | some v =>
    rw [hlookup, Option.getD_some] at h
    rw [Option.getD_some]
    split
    · rename_i metrics
      exact absurd rfl (h metrics)
    · rfl

/-- Without metrics in the request those of the latest result are used. -/
theorem usedMetrics_latest (h : ∀ metrics, Obj.get params "metrics" ≠ .obj metrics) :
    usedMetrics params t = metricsOf (t.results.latest.getD []) := by
  unfold usedMetrics
  split
  · rename_i metrics hmetrics
    exact absurd hmetrics (h metrics)
  · rfl

/-- A verdict that is returned is one on the metrics of the request, or else on those of the latest
result. -/
theorem mConstraintCheck_ok (h : (mConstraintCheck env params).exec t = (.ok (.obj verdict), t')) :
    ∃ limits checked, Obj.get params "constraints" = .obj limits ∧
      check env (usedMetrics params t) limits = .ok checked ∧
      Obj.get verdict "overall" = Obj.get checked "overall" := by
  unfold mConstraintCheck at h
  split at h
  · rename_i limits hlimits
    refine ⟨limits, ?_⟩
    split at h
    · rename_i metrics hmetrics
      obtain ⟨checked, hchecked, hoverall⟩ := constraintVerdict_ok h
      refine ⟨checked, hlimits, ?_, hoverall⟩
      rw [usedMetrics, hmetrics]
      exact hchecked
    · rename_i hother
      obtain ⟨t₁, t₂, hget, h⟩ := Prog.exec_bind_eq_ok h
      obtain ⟨rfl, rfl⟩ : t = t₁ ∧ t = t₂ := by simpa using hget
      dsimp only at h
      split at h
      · replace h := congrArg Prod.fst h
        simp [Prog.exec_bind] at h
      · rw [usedMetrics_latest hother]
        split at h
        · rename_i metrics hmetrics
          obtain ⟨checked, hchecked, hoverall⟩ := constraintVerdict_ok h
          refine ⟨checked, hlimits, ?_, hoverall⟩
          rw [metricsOf_eq hmetrics]
          exact hchecked
        · rename_i hnodict
          split at h
          · simp at h
          · obtain ⟨checked, hchecked, hoverall⟩ := constraintVerdict_ok h
            refine ⟨checked, hlimits, ?_, hoverall⟩
            rw [metricsOf_other hnodict]
            exact hchecked
  · simp at h

/-- A verdict is a pass just when every limited metric is a finite number within its bounds, if a metric
is found outside anyway, or if all of them are measured. -/
theorem pass_within_iff (h : (mConstraintCheck env params).exec t = (.ok (.obj verdict), t')) :
    ∃ limits, Obj.get params "constraints" = .obj limits ∧
      ((Obj.get verdict "overall" = .str "pass" ↔
          ∀ metric ∈ limits.map Prod.fst, ∃ q, Within (usedMetrics params t) limits metric q) ↔
        (∃ metric ∈ limits.map Prod.fst, Outside (usedMetrics params t) limits metric) ∨
          ∀ metric ∈ limits.map Prod.fst, Measured (usedMetrics params t) limits metric) := by
  obtain ⟨limits, checked, hlimits, hcheck, hoverall⟩ := mConstraintCheck_ok h
  refine ⟨limits, hlimits, ?_⟩
  obtain ⟨hpass, hreturned⟩ := check_pass hcheck
  rw [hoverall, hpass]
  generalize usedMetrics params t = metrics at hreturned
  constructor
  · intro hiff
    by_cases houtside : ∃ metric ∈ limits.map Prod.fst, Outside metrics limits metric
    · exact .inl houtside
    · right
      intro metric hmetric
      have hinside : ∀ metric ∈ limits.map Prod.fst, ¬ Outside metrics limits metric :=
        fun m hm hout => houtside ⟨m, hm, hout⟩
      obtain ⟨q, hq⟩ := hiff.mp hinside metric hmetric
      exact measured_of_within hq
  · rintro (⟨metric, hmetric, houtside⟩ | hmeasured)
    · constructor
      · intro hinside
        exact absurd houtside (hinside metric hmetric)
      · intro hwithin
        obtain ⟨q, hq⟩ := hwithin metric hmetric
        exact absurd houtside (not_outside_of_within hq)
    · constructor
      · intro hinside metric hmetric
        obtain ⟨item, hitem⟩ := hreturned metric hmetric
        obtain ⟨hlow, hhigh⟩ := (evaluateOne_pass hitem).2 (hinside metric hmetric)
        exact within_of_measured (hmeasured metric hmetric) hlow hhigh
      · intro hwithin metric hmetric
        obtain ⟨q, hq⟩ := hwithin metric hmetric
        exact not_outside_of_within hq

/-- The check of a single limit. -/
theorem check_singleton (env : Env) (metrics : Obj) (metric : String) (spec : Json) :
    check env metrics [(metric, spec)] = (do
      let item ← evaluateOne env metric (Obj.get metrics metric) (pyOr spec (.obj []))
      let overall := if (Obj.get item "status").pyEq (.str "pass") then "pass" else "fail"
      return [("overall", .str overall), ("items", .arr [.obj item])]) := by
  have hget : Obj.get [(metric, spec)] metric = spec := by simp [Obj.get, Obj.getD]
  unfold check
  simp only [List.map_cons, List.map_nil, List.mergeSort_singleton, List.mapM_cons, List.mapM_nil, hget,
    bind_assoc, pure_bind, List.all_cons, List.all_nil, Bool.and_true]

/-- A request to check one metric against a lower bound. -/
def sampleGainCheck (gain low : PyFloat) : Obj :=
  [("constraints", .obj [("gain", .obj [("min", .float low)])]), ("metrics", .obj [("gain", .float gain)])]

/-- The verdict on it, if it is not found outside. -/
def sampleGainPassed (gain : PyFloat) : Obj :=
  [("overall", .str "pass"), ("items", .arr [.obj [("metric", .str "gain"), ("value", .float gain),
    ("status", .str "pass")]]), ("source", .str "params")]

/-- A gain between its bounds. -/
theorem pass_within_iff_sample :
    ∃ limits, Obj.get (sampleGainCheck (.finite 2) (.infinite true)) "constraints" = .obj limits ∧
      ((Obj.get (sampleGainPassed (.finite 2)) "overall" = .str "pass" ↔
          ∀ metric ∈ limits.map Prod.fst, ∃ q,
            Within (usedMetrics (sampleGainCheck (.finite 2) (.infinite true)) (Tunnel.fresh .empty)) limits metric q) ↔
        (∃ metric ∈ limits.map Prod.fst,
            Outside (usedMetrics (sampleGainCheck (.finite 2) (.infinite true)) (Tunnel.fresh .empty)) limits metric) ∨
          ∀ metric ∈ limits.map Prod.fst,
            Measured (usedMetrics (sampleGainCheck (.finite 2) (.infinite true)) (Tunnel.fresh .empty))
              limits metric) := by
  have hcheck : (mConstraintCheck .sample (sampleGainCheck (.finite 2) (.infinite true))).exec
      (Tunnel.fresh .empty) = (.ok (.obj (sampleGainPassed (.finite 2))), Tunnel.fresh .empty) := by
    change (constraintVerdict .sample [("gain", .float (.finite 2))]
      [("gain", .obj [("min", .float (.infinite true))])] "params").exec _ = _
    rw [constraintVerdict, check_singleton]
    rfl
  exact pass_within_iff hcheck

/-- Surroundings in which the text `nan` is read as a float. -/
def Env.readingNan : Env := { Env.sample with floatOf := fun s => if s = "nan" then some .nan else none }

/-- A file that reports no number for a metric passes the limit on it. -/
theorem nan_passes : ∃ parsed verdict t',
    parseResultFile .readingNan "gain=nan" = .ok parsed ∧
    (mConstraintCheck .readingNan [("constraints", .obj [("gain", .obj [("min", .float (.finite 1))])]),
      ("metrics", Obj.get parsed "metrics")]).exec (Tunnel.fresh .empty) = (.ok (.obj verdict), t') ∧
    Obj.get verdict "overall" = .str "pass" ∧
    ¬ ∃ q, Within [("gain", .float .nan)] [("gain", .obj [("min", .float (.finite 1))])] "gain" q := by
  refine ⟨[("metrics", .obj [("gain", .float .nan)])], sampleGainPassed .nan, Tunnel.fresh .empty, rfl, ?_, rfl, ?_⟩
  · change (constraintVerdict .readingNan [("gain", .float .nan)]
      [("gain", .obj [("min", .float (.finite 1))])] "params").exec _ = _
    rw [constraintVerdict, check_singleton]
    rfl
  · rintro ⟨q, hq⟩
    have hvalue : Json.number? (.float .nan) = some (.finite q) := hq.value
    simp [Json.number?] at hvalue

end Request

end Tunnel

end VirtuosoFlow
