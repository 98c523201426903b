/-
  Mtrader.Registry.Drift

  `detect_drift` of `ModelRegistry` in `registry/manager.py`.

  - Everything is over a field of numbers; `np.log` and `float` are parameters.
  - `metrics["feature_baseline"]` is a dict of lists, which the record of a model leaves
    out; it is given beside the registry.
  - A column of `recent_data` has its missing values as `none`.
-/

import Mtrader.Registry.Manager
import Mtrader.Divergence.Symmetric
import Mathlib.Analysis.SpecialFunctions.Log.Basic

namespace Mtrader.Registry

open Py

variable {F : Type} [Field F] [LinearOrder F]

-- ============================================================================
-- Histograms
-- ============================================================================

/-- The outer edges of `np.histogram_bin_edges`; a single value gets a bin range of 1. -/
def outerEdges (values : List F) : F × F :=
  let first := values.min?.getD 0
  let last := values.max?.getD 0
  if first = last then (first - 1 / 2, last + 1 / 2) else (first, last)

/-- The `i`-th of the 11 edges of `np.histogram_bin_edges(values, bins=10)`. -/
def binEdge (values : List F) (i : ℕ) : F :=
  let outer := outerEdges values
  outer.1 + i * ((outer.2 - outer.1) / 10)

/-- A bin has its lower edge and not its upper edge; only the last bin has both. -/
def inBin (edge : ℕ → F) (i : ℕ) (x : F) : Bool :=
  edge i ≤ x && (x < edge (i + 1) || i == 9 && x == edge (i + 1))

/-- `np.histogram(values, bins=edges)` -/
def histogram (edge : ℕ → F) (values : List F) : List ℕ :=
  (List.range 10).map fun i => values.countP (inBin edge i)

-- the largest value is in the last bin, not beyond it
example : histogram (binEdge [0, 1, 2, 10]) ([0, 1, 2, 10] : List ℚ) =
    [1, 1, 1, 0, 0, 0, 0, 0, 0, 1] := by decide +kernel

/-- `np.clip(hist / max(hist.sum(), 1), 1e-6, None)` -/
def clippedShares (hist : List ℕ) : List F :=
  hist.map fun (n : ℕ) => max ((n : F) / (max hist.sum 1 : ℕ)) (1 / 1000000)

/-- `ref_pct` and `cur_pct`: the shares of a sample in the bins of both samples. -/
def shares (ref curr : List F) (sample : List F) : List F :=
  clippedShares (histogram (binEdge (ref ++ curr)) sample)

/-- `np.sum((cur_pct - ref_pct) * np.log(cur_pct / ref_pct))` -/
def psi (log : F → F) (ref curr : List F) : F :=
  Divergence.divergence log (shares ref curr curr) (shares ref curr ref)

-- ============================================================================
-- detect_drift
-- ============================================================================

/-- The columns of a data frame. -/
abbrev RecentData (F : Type) : Type := List (String × List (Option F))

structure DriftReport (F : Type) where
  psi : String → Option F := fun _ => none
  featureDrift : String → Option Bool := fun _ => none
  conceptDrift : Bool := false

/-- What the numbers need from elsewhere. -/
structure Numerics (F : Type) where
  /-- `np.log` -/
  log : F → F
  /-- `float(v)` of a metric. -/
  float : Val F → Except Exc F

/-- `recent_data[f].dropna()`; no values if there is no such column. -/
def currentValues (recent : RecentData F) (f : String) : List F :=
  ((recent.lookup f).getD []).reduceOption

/-- `baseline.get(f, curr[: min(500, len(curr))])` -/
def reference (baseline : String → Option (List F)) (f : String) (curr : List F) : List F :=
  (baseline f).getD (curr.take (min 500 curr.length))

/-- The body of the loop over the features of a model. -/
def checkFeature (log : F → F) (baseline : String → Option (List F)) (recent : RecentData F)
    (report : DriftReport F) (f : String) : DriftReport F :=
  let curr := currentValues recent f
  if curr.isEmpty then report
  else
    let value := psi log (reference baseline f curr) curr
    { report with
      psi := Function.update report.psi f (some value)
      featureDrift := Function.update report.featureDrift f (some (1 / 5 < value)) }

/-- `.mean()` of a column; nan, which is less than nothing, where there are no values. -/
def mean (values : List F) : Option F :=
  if values.isEmpty then none else some (values.sum / values.length)

/-- The mean of the last 100 rows of `strategy_pnl`, or 0 without this column. -/
def rollingExpectancy (recent : RecentData F) : Option F :=
  match recent.lookup "strategy_pnl" with
  | some column => mean (column.drop (column.length - 100)).reduceOption
  | none => some 0

def ModelRegistry.detectDrift (registry : ModelRegistry F) (lib : Numerics F)
    (featureBaseline : Model F → String → Option (List F)) (modelId : String)
    (recent : RecentData F) : Except Exc (DriftReport F) :=
  match registry.getModel modelId with
  | none => .error (.valueError "model not found")
  | some model => do
      let report := model.features.foldl (checkFeature lib.log (featureBaseline model) recent) {}
      let expectancy ← lib.float (model.metrics.getD (.other "expectancy") (.int 0))
      return { report with
        conceptDrift := (rollingExpectancy recent).any fun x => x < expectancy * (1 / 2) }

-- ============================================================================
-- The shares
-- ============================================================================

theorem length_shares (ref curr sample : List F) : (shares ref curr sample).length = 10 := by
  rw [shares, clippedShares, List.length_map, histogram, List.length_map, List.length_range]

omit [Field F] [LinearOrder F] in
/-- An extreme of two samples does not depend on which comes first. -/
theorem extreme_append_comm {extreme : List F → Option F} {r : F → F → Prop}
    (hnone : ∀ xs, extreme xs = none ↔ xs = [])
    (hsome : ∀ xs x, extreme xs = some x ↔ x ∈ xs ∧ ∀ y ∈ xs, r x y) (xs ys : List F) :
    extreme (xs ++ ys) = extreme (ys ++ xs) := by
  have hmem : ∀ x, x ∈ xs ++ ys ↔ x ∈ ys ++ xs := fun _ => List.perm_append_comm.mem_iff
  cases hextreme : extreme (ys ++ xs) with
  | none =>
      rw [hnone, List.append_eq_nil_iff] at hextreme ⊢
      exact hextreme.symm
  | some x =>
      rw [hsome] at hextreme ⊢
      exact ⟨(hmem x).mpr hextreme.1, fun y hy => hextreme.2 y ((hmem y).mp hy)⟩

/-- The bins do not depend on which sample comes first. -/
theorem outerEdges_append_comm (ref curr : List F) :
    outerEdges (ref ++ curr) = outerEdges (curr ++ ref) := by
  have hmin : (ref ++ curr).min? = (curr ++ ref).min? :=
    extreme_append_comm (fun _ => List.min?_eq_none_iff) (fun _ _ => List.min?_eq_some_iff) _ _
  have hmax : (ref ++ curr).max? = (curr ++ ref).max? :=
    extreme_append_comm (fun _ => List.max?_eq_none_iff) (fun _ _ => List.max?_eq_some_iff) _ _
  rw [outerEdges, outerEdges, hmin, hmax]

theorem shares_comm (ref curr sample : List F) :
    shares ref curr sample = shares curr ref sample := by
  have hedges : binEdge (ref ++ curr) = binEdge (curr ++ ref) := by
    funext i
    rw [binEdge, binEdge, outerEdges_append_comm]
  rw [shares, shares, hedges]

theorem shares_pos [IsStrictOrderedRing F] (ref curr sample : List F) :
    ∀ x ∈ shares ref curr sample, 0 < x := by
  intro x hx
  obtain ⟨n, -, rfl⟩ := List.mem_map.mp hx
  exact lt_max_of_lt_right (by norm_num)

theorem psi_comm {log : F → F} (hlog : Divergence.IsLog log) (ref curr : List F) :
    psi log ref curr = psi log curr ref := by
  rw [psi, psi, Divergence.divergence_comm hlog, shares_comm ref curr, shares_comm ref curr]

-- ============================================================================
-- The report
-- ============================================================================

variable {log : F → F} {baseline : String → Option (List F)} {recent : RecentData F}

theorem checkFeature_psi (report : DriftReport F) (g f : String) :
    (checkFeature log baseline recent report g).psi f =
      if f = g ∧ currentValues recent f ≠ [] then
        some (psi log (reference baseline f (currentValues recent f)) (currentValues recent f))
      else report.psi f := by
  unfold checkFeature
  by_cases hnone : currentValues recent g = []
  · have hnot : ¬ (f = g ∧ currentValues recent f ≠ []) := by
      rintro ⟨rfl, h⟩
      exact h hnone
    simp only [hnone, List.isEmpty_nil, if_true, if_neg hnot]
  · simp only [List.isEmpty_eq_false_iff.mpr hnone, Bool.false_eq_true, if_false]
    by_cases hfg : f = g
    · subst hfg
      rw [if_pos ⟨rfl, hnone⟩, Function.update_self]
    · rw [if_neg fun h => hfg h.1, Function.update_of_ne hfg]

/-- What the report says of a feature: nothing if it is not one of the model's or has no
    current values. -/
theorem foldl_checkFeature (features : List String) (report : DriftReport F) (f : String) :
    (features.foldl (checkFeature log baseline recent) report).psi f =
      if f ∈ features ∧ currentValues recent f ≠ [] then
        some (psi log (reference baseline f (currentValues recent f)) (currentValues recent f))
      else report.psi f := by
  induction features generalizing report with
  | nil => simp
  | cons g features ih =>
      rw [List.foldl_cons, ih, checkFeature_psi]
      by_cases hvalues : currentValues recent f = []
      · simp [hvalues]
      · by_cases hmem : f ∈ features
        · simp [hvalues, hmem]
        · simp [hvalues, hmem]

/-- A call that returns has found the model. -/
theorem detectDrift_ok {registry : ModelRegistry F} {lib : Numerics F}
    {featureBaseline : Model F → String → Option (List F)} {modelId : String}
    {report : DriftReport F}
    (h : registry.detectDrift lib featureBaseline modelId recent = .ok report) :
    ∃ model, registry.getModel modelId = some model ∧
      ∀ f, report.psi f =
        if f ∈ model.features ∧ currentValues recent f ≠ [] then
          some (psi lib.log (reference (featureBaseline model) f (currentValues recent f))
            (currentValues recent f))
        else none := by
  unfold ModelRegistry.detectDrift at h
  cases hmodel : registry.getModel modelId with
  | none =>
      rw [hmodel] at h
      cases h
  | some model =>
      rw [hmodel] at h
      obtain ⟨expectancy, -, hreport⟩ := bind_eq_ok.mp h
      cases hreport
      exact ⟨model, rfl, fun f => foldl_checkFeature model.features {} f⟩

-- ============================================================================
-- The index is a divergence
-- ============================================================================

theorem isLog_log : Divergence.IsLog Real.log where
  pos _ := Real.log_pos
  inv := Real.log_inv
  one := Real.log_one

/-- A feature has an index where it has current values.  The index is not negative; it is
    zero only if both samples have the same shares; and a call with the current values as
    baseline and the baseline as current values reports the same. -/
theorem detectDrift_psi (float : Val ℝ → Except Exc ℝ) (registry : ModelRegistry ℝ)
    (featureBaseline : Model ℝ → String → Option (List ℝ)) (modelId : String)
    (recent : RecentData ℝ) (report : DriftReport ℝ)
    (h : registry.detectDrift ⟨Real.log, float⟩ featureBaseline modelId recent = .ok report) :
    ∃ model, registry.getModel modelId = some model ∧ ∀ f,
      let curr := currentValues recent f
      let ref := reference (featureBaseline model) f curr
      ((report.psi f).isSome ↔ f ∈ model.features ∧ curr ≠ []) ∧
        ∀ value, report.psi f = some value →
          value = psi Real.log ref curr ∧ 0 ≤ value ∧
          (value = 0 ↔ shares ref curr ref = shares ref curr curr) ∧
          value = psi Real.log curr ref ∧
          ∀ (float' : Val ℝ → Except Exc ℝ) (registry' : ModelRegistry ℝ)
            (featureBaseline' : Model ℝ → String → Option (List ℝ)) (modelId' : String)
            (recent' : RecentData ℝ) (report' : DriftReport ℝ) (model' : Model ℝ),
            registry'.detectDrift ⟨Real.log, float'⟩ featureBaseline' modelId' recent' =
              .ok report' →
            registry'.getModel modelId' = some model' → f ∈ model'.features →
            featureBaseline' model' f = some curr → currentValues recent' f = ref →
            ref ≠ [] → report'.psi f = some value := by
  obtain ⟨model, hmodel, hpsi⟩ := detectDrift_ok h
  refine ⟨model, hmodel, fun f => ?_⟩
  intro curr ref
  have hf : report.psi f =
      if f ∈ model.features ∧ curr ≠ [] then some (psi Real.log ref curr) else none := hpsi f
  constructor
  · rw [hf]
    split
    next hreported => exact iff_of_true rfl hreported
    next hmissing => exact iff_of_false (by simp) hmissing
  intro value hvalue
  have heq : value = psi Real.log ref curr := by
    rw [hf] at hvalue
    split at hvalue
    next => exact (Option.some.inj hvalue).symm
    next => cases hvalue
  have hpositive := shares_pos ref curr
  refine ⟨heq, ?_, ?_, heq.trans (psi_comm isLog_log ref curr), ?_⟩
  · rw [heq]
    exact Divergence.divergence_nonneg isLog_log (hpositive curr) (hpositive ref)
  · rw [heq, psi, Divergence.divergence_eq_zero_iff isLog_log
      ((length_shares ref curr curr).trans (length_shares ref curr ref).symm) (hpositive curr)
      (hpositive ref)]
    exact eq_comm
  · intro float' registry' featureBaseline' modelId' recent' report' model' h' hmodel' hmem
      hbaseline hcurrent hne
    obtain ⟨found, hfound, hpsi'⟩ := detectDrift_ok h'
    cases hfound.symm.trans hmodel'
    rw [hpsi' f, hcurrent, if_pos ⟨hmem, hne⟩, reference, hbaseline, heq]
    exact congrArg some (psi_comm isLog_log curr ref)

/-- `float(v)` of a number. -/
def floatOfNumber : Val F → Except Exc F
  | .int i => .ok i
  | .float x => .ok x
  | _ => .error (.typeError "float() argument must be a string or a real number")

/-- A registry with one model, of one feature. -/
def trendRegistry (F : Type) : ModelRegistry F :=
  (ModelRegistry.empty.register "m1"
    { name := "trend", modelType := "classifier", artifactPath := "trend.bin"
      metrics := Dict.empty, parameters := Dict.empty, features := ["atr"], targets := []
      createdBy := "ops" } 0 0 fun _ h => by cases h).2

/-- Two current values against an empty baseline. -/
theorem detectDrift_psi_trend :
    ∃ report value,
      (trendRegistry ℝ).detectDrift ⟨Real.log, floatOfNumber⟩ (fun _ _ => some []) "m1"
        [("atr", [some 1, none, some 2])] = .ok report ∧
      report.psi "atr" = some value ∧ 0 ≤ value ∧ value = psi Real.log [1, 2] [] := by
  obtain ⟨model, hmodel, hreport⟩ := detectDrift_psi floatOfNumber (trendRegistry ℝ)
    (fun _ _ => some []) "m1" [("atr", [some 1, none, some 2])] _ rfl
  obtain ⟨hsome, hvalue⟩ := hreport "atr"
  cases hmodel
  obtain ⟨value, hpsi⟩ := Option.isSome_iff_exists.mp
    (hsome.mpr ⟨List.mem_singleton_self "atr", List.cons_ne_nil 1 [2]⟩)
  obtain ⟨-, hnonneg, -, hexchanged, -⟩ := hvalue value hpsi
  exact ⟨_, value, rfl, hpsi, hnonneg, hexchanged⟩

end Mtrader.Registry
