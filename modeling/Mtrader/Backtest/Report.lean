/-
  Mtrader.Backtest.Report

  Two of the statistics of `BacktestEngine.run` as the source computes them: the drawdowns
  and the profit factor.

  - `Report` stands where `run` has its statistics; the others stay with the libraries.
  - A comparison with the running maximum is exact here, as are quotients.
-/

import Mtrader.Backtest.Bookkeeping
import Mtrader.Py.Exact
import Mtrader.Stretches.Longest
import Mathlib.Tactic.FieldSimp

namespace Mtrader.Backtest

open Py Stretches

variable {F Rest : Type}

-- ============================================================================
-- The statistics
-- ============================================================================

/-- A profit factor; `float("inf")` when no trade has lost. -/
inductive Factor (F : Type)
  | finite (x : F)
  | infinite
  deriving DecidableEq

section

variable [Prims F]

/-- `profit_factor > x`. -/
def Factor.above : Factor F → F → Bool
  | .finite y, x => Prims.lt x y
  | .infinite, _ => true

/-- `x / y`; dividing by zero raises. -/
def divide (x y : F) : Option F := if isZero y then none else some (x / y)

/-- `eq.cummax()`, with the maximum of what has been before. -/
def cummaxFrom (peak : F) : List F → List F
  | [] => []
  | x :: curve => pyMax peak x :: cummaxFrom (pyMax peak x) curve

def cummax : List F → List F
  | [] => []
  | x :: curve => x :: cummaxFrom x curve

/-- `dd_curve`. -/
def drawdownCurve (curve : List F) : List F :=
  List.zipWith (fun x peak => x / peak - Prims.ofRat 1) curve (cummax curve)

/-- `int((dd_curve < 0).sum())`. -/
def maxDrawdownDuration (curve : List F) : ℕ :=
  ((drawdownCurve curve).filter fun x => Prims.lt x (Prims.ofRat 0)).length

variable [Add F]

/-- `sum(xs)`. -/
def pySum (xs : List F) : F := xs.foldl (fun acc x => acc + x) (Prims.ofRat 0)

/-- `profit_factor` of the profits of the trades; none where it divides by zero. -/
def profitFactor (pnls : List F) : Option (Factor F) :=
  let wins := pnls.filter fun pnl => Prims.lt (Prims.ofRat 0) pnl
  let losses := pnls.filter fun pnl => Prims.le pnl (Prims.ofRat 0)
  if losses.isEmpty then some .infinite
  else (divide (pySum wins) (Prims.abs (pySum losses))).map .finite

/-- The statistics that the source computes itself, and the others. -/
structure Report (F Rest : Type) where
  drawdownCurve : List F
  maxDrawdownDuration : ℕ
  profitFactor : Factor F
  rest : Rest

def zeroDivision : Exc := .external "ZeroDivisionError: float division by zero"

/-- The statistics of an equity curve and of the profits of the trades. -/
def report (rest : List Time → List F → List F → Except Exc Rest) (times : List Time)
    (curve pnls : List F) : Except Exc (Report F Rest) :=
  match profitFactor pnls with
  | none => .error zeroDivision
  | some factor => do
      let rest ← rest times curve pnls
      return {
        drawdownCurve := drawdownCurve curve
        maxDrawdownDuration := maxDrawdownDuration curve
        profitFactor := factor
        rest := rest }

/-- The libraries of a run that reports. -/
def Libraries.reporting (libs : Libraries F Rest) : Libraries F (Report F Rest) where
  sortIndex := libs.sortIndex
  sortIndex_perm := libs.sortIndex_perm
  sortIndex_sorted := libs.sortIndex_sorted
  log1p := libs.log1p
  statistics := report libs.statistics

end

-- ============================================================================
-- Drawdowns
-- ============================================================================

/-- One of the values up to number `i` is above `x`. -/
def Exceeded (curve : List ℚ) (i : ℕ) (x : ℚ) : Prop := ∃ j ≤ i, ∃ y ∈ curve[j]?, x < y

instance (curve : List ℚ) (i : ℕ) (x : ℚ) : Decidable (Exceeded curve i x) :=
  inferInstanceAs (Decidable (∃ j ≤ i, ∃ y ∈ curve[j]?, x < y))

/-- The bar is strictly below the running peak. -/
def BelowPeak (curve : List ℚ) (i : ℕ) : Prop := ∃ x ∈ curve[i]?, Exceeded curve i x

instance (curve : List ℚ) : DecidablePred (BelowPeak curve) := fun i =>
  inferInstanceAs (Decidable (∃ x ∈ curve[i]?, Exceeded curve i x))

/-- The bars below the running peak. -/
def belowPeak (curve : List ℚ) : Finset ℕ := (Finset.range curve.length).filter (BelowPeak curve)

theorem lt_pyMax_iff {x a b : ℚ} : x < pyMax a b ↔ x < a ∨ x < b := by
  simp only [pyMax, lt_rat, decide_eq_true_eq]
  split
  next h => exact ⟨.inr, fun hx => hx.elim (fun ha => ha.trans h) id⟩
  next h => exact ⟨.inl, fun hx => hx.elim id fun hb => hb.trans_le (not_lt.mp h)⟩

theorem exceeded_zero {x y : ℚ} {curve : List ℚ} : Exceeded (y :: curve) 0 x ↔ x < y := by
  simp [Exceeded]

theorem exceeded_succ {x y : ℚ} {curve : List ℚ} {i : ℕ} :
    Exceeded (y :: curve) (i + 1) x ↔ x < y ∨ Exceeded curve i x := by
  constructor
  · rintro ⟨j, hj, z, hz, hlt⟩
    cases j with
    | zero =>
        obtain rfl : y = z := Option.some.inj hz
        exact .inl hlt
    | succ j => exact .inr ⟨j, Nat.le_of_succ_le_succ hj, z, hz, hlt⟩
  · rintro (hlt | ⟨j, hj, z, hz, hlt⟩)
    · exact ⟨0, Nat.zero_le _, y, rfl, hlt⟩
    · exact ⟨j + 1, Nat.succ_le_succ hj, z, hz, hlt⟩

theorem lt_cummaxFrom_iff {peak p : ℚ} {curve : List ℚ} {i : ℕ}
    (h : (cummaxFrom peak curve)[i]? = some p) (x : ℚ) :
    x < p ↔ x < peak ∨ Exceeded curve i x := by
  induction curve generalizing peak i with
  | nil => cases h
  | cons y curve ih =>
      cases i with
      | zero =>
          obtain rfl : pyMax peak y = p := Option.some.inj h
          rw [lt_pyMax_iff, exceeded_zero]
      | succ i => rw [ih h, lt_pyMax_iff, or_assoc, exceeded_succ]

/-- The running maximum is above a value when one of the values so far is. -/
theorem lt_cummax_iff {p : ℚ} {curve : List ℚ} {i : ℕ} (h : (cummax curve)[i]? = some p)
    (x : ℚ) : x < p ↔ Exceeded curve i x := by
  cases curve with
  | nil => cases h
  | cons y curve =>
      cases i with
      | zero =>
          obtain rfl : y = p := Option.some.inj h
          rw [exceeded_zero]
      | succ i => rw [lt_cummaxFrom_iff h, exceeded_succ]

theorem length_cummaxFrom (peak : ℚ) (curve : List ℚ) :
    (cummaxFrom peak curve).length = curve.length := by
  induction curve generalizing peak with
  | nil => rfl
  | cons x curve ih => rw [cummaxFrom, List.length_cons, List.length_cons, ih]

theorem length_cummax (curve : List ℚ) : (cummax curve).length = curve.length := by
  cases curve with
  | nil => rfl
  | cons x curve => rw [cummax, List.length_cons, List.length_cons, length_cummaxFrom]

/-- The duration counts the bars below the peak, if the first value is positive. -/
theorem maxDrawdownDuration_eq_card {curve : List ℚ} (hpos : ∀ x ∈ curve[0]?, 0 < x) :
    maxDrawdownDuration curve = (belowPeak curve).card := by
  have hlength : (drawdownCurve curve).length = curve.length := by
    rw [drawdownCurve, List.length_zipWith, length_cummax, Nat.min_self]
  rw [maxDrawdownDuration, length_filter_eq_card, hlength, belowPeak]
  congr 1
  apply Finset.filter_congr
  intro i hi
  rw [Finset.mem_range] at hi
  have hi' : i < (cummax curve).length := by rwa [length_cummax]
  have hx : curve[i]? = some curve[i] := List.getElem?_eq_getElem hi
  have hp : (cummax curve)[i]? = some (cummax curve)[i] := List.getElem?_eq_getElem hi'
  have hpeak : 0 < (cummax curve)[i] := by
    rw [lt_cummax_iff hp]
    have hfirst : curve[0]? = some curve[0] := List.getElem?_eq_getElem (by omega)
    exact ⟨0, Nat.zero_le i, _, hfirst, hpos _ hfirst⟩
  have hbelow : BelowPeak curve i ↔ curve[i] < (cummax curve)[i] := by
    rw [lt_cummax_iff hp]
    simp [BelowPeak, hx]
  rw [hbelow, drawdownCurve, List.getElem?_zipWith, hx, hp]
  simp [sub_neg, div_lt_one hpeak]

/-- Counting the bars finds the longest stretch exactly when they are consecutive. -/
theorem isLongest_duration_iff {curve : List ℚ} (hpos : ∀ x ∈ curve[0]?, 0 < x) :
    IsLongest (belowPeak curve) (maxDrawdownDuration curve) ↔ Unbroken (belowPeak curve) := by
  rw [maxDrawdownDuration_eq_card hpos, isLongest_card_iff]

/-- What a run that returns has reported. -/
theorem run_reported [Prims F] [Add F] {libs : Libraries F Rest} {engine : BacktestEngine F}
    {strategy : Strategy F} {strategyName : String} {data : List (Row F)} {initialCapital : F}
    {flags : Flags} {params : Dict ParamKey F} {res : BacktestResult F (Report F Rest)}
    (h : engine.run libs.reporting strategy strategyName data initialCapital flags params
      = .ok res) :
    res.statistics.drawdownCurve = drawdownCurve res.equityCurve ∧
      res.statistics.maxDrawdownDuration = maxDrawdownDuration res.equityCurve ∧
      profitFactor (res.trades.map Trade.pnl) = some res.statistics.profitFactor := by
  unfold BacktestEngine.run at h
  obtain ⟨b, -, h⟩ := bind_eq_ok.mp h
  obtain ⟨statistics, hstatistics, h⟩ := bind_eq_ok.mp h
  obtain ⟨iterations, -, h⟩ := bind_eq_ok.mp h
  cases h
  have hreport : report libs.statistics ((libs.sortIndex data).map Row.time) b.equityCurve
      (b.trades.map Trade.pnl) = .ok statistics := hstatistics
  unfold report at hreport
  split at hreport
  next => cases hreport
  next factor hfactor =>
    obtain ⟨rest, -, hreport⟩ := bind_eq_ok.mp hreport
    cases hreport
    exact ⟨rfl, rfl, hfactor⟩

/-- The duration of the longest drawdown is reported exactly when the bars below the running
    peak are consecutive. -/
theorem maxDrawdownDuration_iff (libs : Libraries ℚ Rest) (engine : BacktestEngine ℚ)
    (strategy : Strategy ℚ) (strategyName : String) (data : List (Row ℚ)) (initialCapital : ℚ)
    (hcapital : 0 < initialCapital) (flags : Flags) (params : Dict ParamKey ℚ)
    (res : BacktestResult ℚ (Report ℚ Rest))
    (h : engine.run libs.reporting strategy strategyName data initialCapital flags params
      = .ok res) :
    IsLongest (belowPeak res.equityCurve) res.statistics.maxDrawdownDuration ↔
      Unbroken (belowPeak res.equityCurve) := by
  obtain ⟨b, hloop, hcurve, -, -⟩ := BacktestEngine.run_eq_ok h
  have hpos : ∀ x ∈ res.equityCurve[0]?, 0 < x := by
    intro x hx
    rw [hcurve] at hx
    obtain ⟨hlength, rfl⟩ := List.getElem?_eq_some_iff.mp hx
    rw [(loop_booked hloop).first hlength]
    exact hcapital
  rw [(run_reported h).2.1, isLongest_duration_iff hpos]

-- Two drawdowns with a recovery between them, and one drawdown

/-- No commission, no slippage. -/
def free : Flags := { commission := false, slippage := false }

/-- A run of `alternate` without costs. -/
def runFree (data : List (Row ℚ)) : Except Exc (BacktestResult ℚ (Report ℚ Unit)) :=
  BacktestEngine.default.run exactLibraries.reporting alternate "alternate" data 10000 free .empty

theorem exists_free (data : List (Row ℚ)) (check : BacktestResult ℚ (Report ℚ Unit) → Bool)
    (h : (runFree data).toOption.any check) : ∃ res, runFree data = .ok res ∧ check res := by
  cases hrun : runFree data with
  | ok res =>
      rw [hrun] at h
      exact ⟨res, rfl, h⟩
  | error x =>
      rw [hrun] at h
      cases h

def dippingFrame : List (Row ℚ) := [priceRow 1 100, priceRow 2 90]

def recoveringFrame : List (Row ℚ) :=
  dippingFrame ++ [priceRow 3 90, priceRow 4 100, priceRow 5 120, priceRow 6 120, priceRow 7 100,
    priceRow 8 90]

/-- Four bars are below the peak, three of them in a row. -/
theorem maxDrawdownDuration_recovering :
    ¬ ∀ res, runFree recoveringFrame = .ok res →
      IsLongest (belowPeak res.equityCurve) res.statistics.maxDrawdownDuration := by
  intro hall
  obtain ⟨res, hrun, hcurve⟩ := exists_free recoveringFrame
    (fun res => res.equityCurve = [10000, 9990, 9990, 9990, 10010, 10010, 10010, 10000])
    (by decide +kernel)
  have hlongest := hall res hrun
  rw [(run_reported hrun).2.1, of_decide_eq_true hcurve, isLongest_duration_iff (by simp)]
    at hlongest
  have hgap := hlongest 3 (by decide +kernel) 7 (by decide +kernel) 4 (by decide) (by decide)
  exact absurd hgap (by decide +kernel)

theorem maxDrawdownDuration_iff_dipping :
    ∃ res, runFree dippingFrame = .ok res ∧ res.equityCurve = [10000, 9990] ∧
      (IsLongest (belowPeak res.equityCurve) res.statistics.maxDrawdownDuration ↔
        Unbroken (belowPeak res.equityCurve)) := by
  obtain ⟨res, hrun, hcurve⟩ := exists_free dippingFrame
    (fun res => res.equityCurve = [10000, 9990]) (by decide +kernel)
  exact ⟨res, hrun, of_decide_eq_true hcurve,
    maxDrawdownDuration_iff _ _ _ _ _ _ (by norm_num) _ _ res hrun⟩

-- ============================================================================
-- The profit factor
-- ============================================================================

theorem pySum_rat (xs : List ℚ) : pySum xs = xs.sum := by
  rw [List.sum_eq_foldl]
  rfl

/-- The profits that count as losses, and those that do not. -/
theorem sum_wins_add_losses (pnls : List ℚ) :
    (pnls.filter fun pnl => 0 < pnl).sum + (pnls.filter fun pnl => pnl ≤ 0).sum = pnls.sum := by
  induction pnls with
  | nil => simp
  | cons pnl pnls ih =>
      rcases lt_or_ge 0 pnl with hwin | hloss
      · have hnot : ¬ pnl ≤ 0 := not_le.mpr hwin
        simp only [List.filter_cons, hwin, hnot, decide_true, decide_false, if_true,
          Bool.false_eq_true, if_false, List.sum_cons]
        linarith
      · have hnot : ¬ 0 < pnl := not_lt.mpr hloss
        simp only [List.filter_cons, hloss, hnot, decide_true, decide_false, if_true,
          Bool.false_eq_true, if_false, List.sum_cons]
        linarith

theorem sum_nonpos {xs : List ℚ} (h : ∀ x ∈ xs, x ≤ 0) : xs.sum ≤ 0 := by
  induction xs with
  | nil => exact le_refl 0
  | cons x xs ih =>
      have hx := h x List.mem_cons_self
      have hxs := ih fun y hy => h y (List.mem_cons_of_mem x hy)
      rw [List.sum_cons]
      linarith

/-- A sum without positive terms is zero when all terms are. -/
theorem sum_eq_zero_iff {xs : List ℚ} (h : ∀ x ∈ xs, x ≤ 0) :
    xs.sum = 0 ↔ ∀ x ∈ xs, x = 0 := by
  induction xs with
  | nil => simp
  | cons x xs ih =>
      have hx := h x List.mem_cons_self
      have hrest := fun y hy => h y (List.mem_cons_of_mem x hy)
      have hxs := sum_nonpos hrest
      rw [List.sum_cons, List.forall_mem_cons, ← ih hrest]
      constructor
      · intro hsum
        constructor <;> linarith
      · rintro ⟨rfl, hsum⟩
        rw [hsum, add_zero]

/-- The losses of a list of profits. -/
theorem losses_sum_eq_zero_iff (pnls : List ℚ) :
    (pnls.filter fun pnl => pnl ≤ 0).sum = 0 ↔ ∀ pnl ∈ pnls, 0 ≤ pnl := by
  have hnonpos : ∀ x ∈ pnls.filter fun pnl => pnl ≤ 0, x ≤ 0 := by
    intro x hx
    exact of_decide_eq_true (List.mem_filter.mp hx).2
  rw [sum_eq_zero_iff hnonpos]
  constructor
  · intro h pnl hpnl
    rcases le_or_gt pnl 0 with hle | hlt
    · rw [h pnl (List.mem_filter.mpr ⟨hpnl, decide_eq_true hle⟩)]
    · exact hlt.le
  · intro h pnl hpnl
    obtain ⟨hmem, hle⟩ := List.mem_filter.mp hpnl
    exact le_antisymm (of_decide_eq_true hle) (h pnl hmem)

theorem profitFactor_rat (pnls : List ℚ) :
    profitFactor pnls =
      if (pnls.filter fun pnl => pnl ≤ 0) = [] then some .infinite
      else if (pnls.filter fun pnl => pnl ≤ 0).sum = 0 then none
      else some (.finite ((pnls.filter fun pnl => 0 < pnl).sum /
        |(pnls.filter fun pnl => pnl ≤ 0).sum|)) := by
  unfold profitFactor divide
  simp only [pySum_rat, lt_rat, le_rat, ofRat_rat, abs_rat, isZero_rat, List.isEmpty_iff,
    abs_eq_zero, decide_eq_true_eq]
  split
  next => rfl
  next =>
    split
    next => rfl
    next => rfl

/-- The division is by zero exactly when a trade has broken even and none has lost. -/
theorem profitFactor_isSome_iff (pnls : List ℚ) :
    (profitFactor pnls).isSome ↔ (∃ pnl ∈ pnls, pnl < 0) ∨ ∀ pnl ∈ pnls, pnl ≠ 0 := by
  have hnil : (pnls.filter fun pnl => pnl ≤ 0) = [] ↔ ∀ pnl ∈ pnls, 0 < pnl := by
    simp [List.filter_eq_nil_iff]
  have hsum := losses_sum_eq_zero_iff pnls
  rw [profitFactor_rat]
  split
  next hnone =>
    refine iff_of_true rfl (.inr fun pnl hpnl => ?_)
    exact (hnil.mp hnone pnl hpnl).ne'
  next hsome =>
    split
    next hzero =>
      refine iff_of_false nofun ?_
      rintro (⟨pnl, hpnl, hneg⟩ | hall)
      · exact absurd hneg (not_lt.mpr (hsum.mp hzero pnl hpnl))
      · refine hsome (hnil.mpr fun pnl hpnl => ?_)
        exact lt_of_le_of_ne (hsum.mp hzero pnl hpnl) (hall pnl hpnl).symm
    next hneg =>
      refine iff_of_true rfl (.inl ?_)
      by_contra hnone
      refine hneg (hsum.mpr fun pnl hpnl => ?_)
      exact not_lt.mp fun hlt => hnone ⟨pnl, hpnl, hlt⟩

/-- A finite profit factor is above 1 exactly when the profits have a positive sum. -/
theorem above_one_iff {pnls : List ℚ} {factor : Factor ℚ} (h : profitFactor pnls = some factor)
    (hloss : ∃ pnl ∈ pnls, pnl ≤ 0) : factor.above 1 = true ↔ 0 < pnls.sum := by
  have hsum := sum_wins_add_losses pnls
  have hnonpos : (pnls.filter fun pnl => pnl ≤ 0).sum ≤ 0 :=
    sum_nonpos fun x hx => of_decide_eq_true (List.mem_filter.mp hx).2
  rw [profitFactor_rat] at h
  split at h
  next hnone =>
    obtain ⟨pnl, hpnl, hle⟩ := hloss
    have hmem : pnl ∈ pnls.filter fun pnl => pnl ≤ 0 :=
      List.mem_filter.mpr ⟨hpnl, decide_eq_true hle⟩
    rw [hnone] at hmem
    cases hmem
  next =>
    split at h
    next => cases h
    next hne =>
      obtain rfl := Option.some.inj h
      have hpos : 0 < |(pnls.filter fun pnl => pnl ≤ 0).sum| := abs_pos.mpr hne
      have habove : (Factor.finite ((pnls.filter fun pnl => 0 < pnl).sum /
          |(pnls.filter fun pnl => pnl ≤ 0).sum|)).above 1 = true ↔
          1 < (pnls.filter fun pnl => 0 < pnl).sum /
            |(pnls.filter fun pnl => pnl ≤ 0).sum| := decide_eq_true_iff
      rw [habove, lt_div_iff₀ hpos, one_mul, abs_of_nonpos hnonpos]
      constructor <;> intro hlt <;> linarith

/-- The profits of a book. -/
def Book.pnls (b : Book F) : List F := b.trades.map Trade.pnl

/-- `final_capital`, after the loop. -/
def Book.finalCapital (initialCapital : F) (b : Book F) : F :=
  b.equityCurve.getLast?.getD initialCapital

/-- Where dividing by zero is what a run that has ended its loop comes to, it raises. -/
theorem run_eq_zeroDivision [Prims F] [Add F] {libs : Libraries F Rest}
    {engine : BacktestEngine F} {strategy : Strategy F} {strategyName : String}
    {data : List (Row F)} {initialCapital : F} {flags : Flags} {params : Dict ParamKey F}
    {b : Book F}
    (hloop : Loop.run (onRow libs.reporting engine strategy flags params) []
      (libs.sortIndex data) { equity := initialCapital } = .ok b)
    (hnone : profitFactor b.pnls = none) :
    engine.run libs.reporting strategy strategyName data initialCapital flags params =
      .error zeroDivision := by
  have hstatistics : ∀ times,
      libs.reporting.statistics times b.equityCurve (b.trades.map Trade.pnl) =
        .error zeroDivision := by
    intro times
    show report _ _ _ b.pnls = _
    rw [report, hnone]
  unfold BacktestEngine.run
  have hsort : libs.reporting.sortIndex data = libs.sortIndex data := rfl
  simp only [hsort, hloop, hstatistics, bind, Except.bind]

/-- A run never divides by zero for its profit factor, which is above 1 exactly when the
    capital has grown, exactly when a trade has lost or none has broken even. -/
theorem profitFactor_iff (libs : Libraries ℚ Rest) (engine : BacktestEngine ℚ)
    (strategy : Strategy ℚ) (data : List (Row ℚ)) (initialCapital : ℚ) (flags : Flags)
    (params : Dict ParamKey ℚ) (b : Book ℚ)
    (hloop : Loop.run (onRow libs engine strategy flags params) [] (libs.sortIndex data)
      { equity := initialCapital } = .ok b) :
    ((profitFactor b.pnls).isSome ∧ ((∃ t ∈ b.trades, t.pnl ≤ 0) →
        ∀ factor ∈ profitFactor b.pnls,
          factor.above 1 = true ↔ initialCapital < b.finalCapital initialCapital)) ↔
      (∃ t ∈ b.trades, t.pnl < 0) ∨ ∀ t ∈ b.trades, t.pnl ≠ 0 := by
  have hfinal : b.finalCapital initialCapital = initialCapital + b.pnls.sum :=
    (loop_booked hloop).final
  have hlost : (∃ pnl ∈ b.pnls, pnl < 0) ↔ ∃ t ∈ b.trades, t.pnl < 0 := by
    simp [Book.pnls]
  have heven : (∀ pnl ∈ b.pnls, pnl ≠ 0) ↔ ∀ t ∈ b.trades, t.pnl ≠ 0 := by
    simp [Book.pnls]
  rw [← hlost, ← heven, ← profitFactor_isSome_iff]
  constructor
  · intro h
    exact h.1
  · intro hsome
    refine ⟨hsome, fun hloss factor hfactor => ?_⟩
    have hloss' : ∃ pnl ∈ b.pnls, pnl ≤ 0 := by
      obtain ⟨t, ht, hle⟩ := hloss
      exact ⟨t.pnl, List.mem_map_of_mem ht, hle⟩
    rw [above_one_iff hfactor hloss', hfinal, lt_add_iff_pos_right]

-- A trade that breaks even, and one that loses

def evenFrame : List (Row ℚ) := [priceRow 1 100, priceRow 2 100]

/-- The loop of `alternate` without costs. -/
def freeLoop (data : List (Row ℚ)) : Except Exc (Book ℚ) :=
  Loop.run (onRow exactLibraries BacktestEngine.default alternate free .empty) []
    (exactLibraries.sortIndex data) { equity := 10000 }

theorem exists_book (data : List (Row ℚ)) (check : Book ℚ → Bool)
    (h : (freeLoop data).toOption.any check) : ∃ b, freeLoop data = .ok b ∧ check b := by
  cases hrun : freeLoop data with
  | ok b =>
      rw [hrun] at h
      exact ⟨b, rfl, h⟩
  | error x =>
      rw [hrun] at h
      cases h

/-- The only trade breaks even, and its profit is divided by. -/
theorem profitFactor_even :
    ¬ ∀ b, freeLoop evenFrame = .ok b → (profitFactor b.pnls).isSome := by
  intro hall
  obtain ⟨b, hrun, hnone⟩ := exists_book evenFrame (fun b => (profitFactor b.pnls).isNone)
    (by decide +kernel)
  have hsome := hall b hrun
  rw [Option.isNone_iff_eq_none] at hnone
  rw [hnone] at hsome
  cases hsome

theorem profitFactor_iff_dipping :
    ∃ b, freeLoop dippingFrame = .ok b ∧ profitFactor b.pnls = some (.finite 0) ∧
      (((profitFactor b.pnls).isSome ∧ ((∃ t ∈ b.trades, t.pnl ≤ 0) →
          ∀ factor ∈ profitFactor b.pnls,
            factor.above 1 = true ↔ 10000 < b.finalCapital 10000)) ↔
        (∃ t ∈ b.trades, t.pnl < 0) ∨ ∀ t ∈ b.trades, t.pnl ≠ 0) := by
  obtain ⟨b, hrun, hfactor⟩ := exists_book dippingFrame
    (fun b => profitFactor b.pnls = some (.finite 0)) (by decide +kernel)
  exact ⟨b, hrun, of_decide_eq_true hfactor,
    profitFactor_iff exactLibraries BacktestEngine.default alternate dippingFrame 10000 free
      .empty b hrun⟩

end Mtrader.Backtest
