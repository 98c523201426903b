/-
  Mtrader.Backtest.Summary

  The other statistics of `BacktestEngine.run` that the source computes from the equity
  curve and the trades: the maximal drawdown, the averages over the trades and the monthly
  returns.

  - `Summary` stands where a `Report` has the rest; the annualised return and the ratios
    stay with the libraries.
  - A month is the number that `Calendar.monthOf` gives it, where pandas names it by its
    last day.
-/

import Mtrader.Backtest.Report
import Mtrader.Calendar.Gregorian
import Mtrader.Windows.Grouped
import Mathlib.Algebra.Order.BigOperators.Group.List

namespace Mtrader.Backtest

open Py Windows

variable {F Rest : Type}

-- ============================================================================
-- The statistics
-- ============================================================================

section

variable [Prims F]

/-- `min(a, b)`. -/
def pyMin (a b : F) : F := if Prims.lt b a then b else a

/-- The smaller one of two numbers, for pandas: nan is passed over. -/
def nanMin (a b : F) : F := if Prims.lt b a || !Prims.le a a then b else a

/-- What `choose` comes to over some numbers, and 0 where there are none. -/
def extreme (choose : F → F → F) : List F → F
  | [] => Prims.ofRat 0
  | x :: xs => xs.foldl choose x

/-- `float(dd_curve.min()) if not dd_curve.empty else 0.0`. -/
def maxDd (curve : List F) : F := extreme nanMin (drawdownCurve curve)

/-- `eq.pct_change().fillna(0)`. -/
def returns : List F → List F
  | [] => []
  | x :: curve =>
      let changes := List.zipWith (fun x y => y / x - Prims.ofRat 1) (x :: curve) curve
      Prims.ofRat 0 :: changes.map fun r => if Prims.le r r then r else Prims.ofRat 0

/-- The month of a row. -/
def monthAt (t : Time) : ℤ := Calendar.monthOf (t / 86400000000)

/-- The months from the first row's to the last row's. -/
def monthsOf (times : List Time) : List ℤ :=
  match times.head?, times.getLast? with
  | some first, some last =>
      (List.range (monthAt last - monthAt first + 1).toNat).map fun k : ℕ => monthAt first + (k : ℤ)
  | _, _ => []

variable [Add F]

/-- `np.mean(xs) if xs else 0`. -/
def pyMean (xs : List F) : F :=
  if xs.isEmpty then Prims.ofRat 0 else pySum xs / Prims.ofRat xs.length

/-- `(1 + x).prod() - 1`. -/
def compound (xs : List F) : F :=
  (xs.foldl (fun acc x => acc * (Prims.ofRat 1 + x)) (Prims.ofRat 1)) - Prims.ofRat 1

/-- `ret.resample("M").apply(lambda x: (1 + x).prod() - 1)`. -/
def monthlyReturns (times : List Time) (curve : List F) : List (ℤ × F) :=
  (monthsOf times).map fun month =>
    (month, compound ((group (fun p => monthAt p.1) month (times.zip (returns curve))).map
      Prod.snd))

/-- The statistics that are computed here, and the others. -/
structure Summary (F Rest : Type) where
  maxDrawdown : F
  maxDrawdownPercent : F
  winRate : F
  expectancy : F
  avgWin : F
  avgLoss : F
  largestWin : F
  largestLoss : F
  monthlyReturns : List (ℤ × F)
  rest : Rest

def summary (rest : List Time → List F → List F → Except Exc Rest) (times : List Time)
    (curve pnls : List F) : Except Exc (Summary F Rest) := do
  let wins := pnls.filter fun pnl => Prims.lt (Prims.ofRat 0) pnl
  let losses := pnls.filter fun pnl => Prims.le pnl (Prims.ofRat 0)
  let rest ← rest times curve pnls
  return {
    maxDrawdown := Prims.abs (maxDd curve)
    maxDrawdownPercent := Prims.abs (maxDd curve) * Prims.ofRat 100
    winRate := if pnls.isEmpty then Prims.ofRat 0
      else Prims.ofRat wins.length / Prims.ofRat pnls.length
    expectancy := pyMean pnls
    avgWin := pyMean wins
    avgLoss := pyMean losses
    largestWin := extreme pyMax wins
    largestLoss := extreme pyMin losses
    monthlyReturns := monthlyReturns times curve
    rest := rest }

/-- The libraries of a run that summarises. -/
def Libraries.summarising (libs : Libraries F Rest) : Libraries F (Summary F Rest) where
  sortIndex := libs.sortIndex
  sortIndex_perm := libs.sortIndex_perm
  sortIndex_sorted := libs.sortIndex_sorted
  log1p := libs.log1p
  statistics := summary libs.statistics

/-- What a run that returns has summarised. -/
theorem run_summarised {libs : Libraries F Rest} {engine : BacktestEngine F}
    {strategy : Strategy F} {strategyName : String} {data : List (Row F)} {initialCapital : F}
    {flags : Flags} {params : Dict ParamKey F} {res : BacktestResult F (Report F (Summary F Rest))}
    (h : engine.run libs.summarising.reporting strategy strategyName data initialCapital flags
      params = .ok res) :
    ∃ rest, summary (fun _ _ _ => .ok rest) ((libs.sortIndex data).map Row.time) res.equityCurve
        (res.trades.map Trade.pnl) = .ok res.statistics.rest ∧
      res.totalReturn = totalReturn res.equityCurve initialCapital ∧
      res.totalTrades = res.trades.length ∧
      res.winningTrades =
        ((res.trades.map Trade.pnl).filter fun pnl => Prims.lt (Prims.ofRat 0) pnl).length ∧
      res.losingTrades =
        ((res.trades.map Trade.pnl).filter fun pnl => Prims.le pnl (Prims.ofRat 0)).length := by
  unfold BacktestEngine.run at h
  obtain ⟨b, -, h⟩ := bind_eq_ok.mp h
  obtain ⟨statistics, hstatistics, h⟩ := bind_eq_ok.mp h
  obtain ⟨iterations, -, h⟩ := bind_eq_ok.mp h
  cases h
  have hreport : report libs.summarising.statistics ((libs.sortIndex data).map Row.time)
      b.equityCurve (b.trades.map Trade.pnl) = .ok statistics := hstatistics
  unfold report at hreport
  split at hreport
  next => cases hreport
  next factor hfactor =>
    obtain ⟨s, hsummary, hreport⟩ := bind_eq_ok.mp hreport
    cases hreport
    obtain ⟨rest, -, hrest⟩ := bind_eq_ok.mp hsummary
    cases hrest
    exact ⟨rest, rfl, rfl, rfl, rfl, rfl⟩

end

-- ============================================================================
-- The maximal drawdown
-- ============================================================================

theorem pyMax_rat (a b : ℚ) : pyMax a b = max a b := by
  simp only [pyMax, lt_rat, decide_eq_true_eq]
  split
  next h => exact (max_eq_right h.le).symm
  next h => exact (max_eq_left (not_lt.mp h)).symm

theorem pyMin_rat (a b : ℚ) : pyMin a b = min a b := by
  simp only [pyMin, lt_rat, decide_eq_true_eq]
  split
  next h => exact (min_eq_right h.le).symm
  next h => exact (min_eq_left (not_lt.mp h)).symm

theorem nanMin_rat (a b : ℚ) : nanMin a b = min a b := by
  rw [← pyMin_rat]
  simp [nanMin, pyMin]

/-- The least of some numbers. -/
theorem over_min {choose : ℚ → ℚ → ℚ} (hchoose : ∀ a b, choose a b = min a b) {xs : List ℚ}
    (hne : xs ≠ []) : extreme choose xs ∈ xs ∧ ∀ x ∈ xs, extreme choose xs ≤ x := by
  obtain rfl : choose = min := funext fun a => funext (hchoose a)
  cases xs with
  | nil => exact absurd rfl hne
  | cons x xs => exact List.min?_eq_some_iff.mp List.min?_cons'

/-- The greatest of some numbers. -/
theorem over_max {choose : ℚ → ℚ → ℚ} (hchoose : ∀ a b, choose a b = max a b) {xs : List ℚ}
    (hne : xs ≠ []) : extreme choose xs ∈ xs ∧ ∀ x ∈ xs, x ≤ extreme choose xs := by
  obtain rfl : choose = max := funext fun a => funext (hchoose a)
  cases xs with
  | nil => exact absurd rfl hne
  | cons x xs => exact List.max?_eq_some_iff.mp List.max?_cons'

theorem mem_cummaxFrom {peak p : ℚ} {curve : List ℚ} {j : ℕ}
    (h : (cummaxFrom peak curve)[j]? = some p) : p = peak ∨ ∃ i ≤ j, curve[i]? = some p := by
  induction curve generalizing peak j with
  | nil => cases h
  | cons y curve ih =>
      have hpeak : pyMax peak y = peak ∨ pyMax peak y = y := by
        unfold pyMax
        split
        · exact .inr rfl
        · exact .inl rfl
      have hone : p = pyMax peak y → p = peak ∨ ∃ i ≤ j, (y :: curve)[i]? = some p := by
        rintro rfl
        refine hpeak.imp id fun hy => ⟨0, Nat.zero_le j, ?_⟩
        rw [hy]
        rfl
      cases j with
      | zero => exact hone (Option.some.inj h).symm
      | succ j =>
          rcases ih h with hp | ⟨i, hi, hcurve⟩
          · exact hone hp
          · exact .inr ⟨i + 1, Nat.succ_le_succ hi, hcurve⟩

/-- The running maximum is one of the values so far. -/
theorem mem_cummax {p : ℚ} {curve : List ℚ} {j : ℕ} (h : (cummax curve)[j]? = some p) :
    ∃ i ≤ j, curve[i]? = some p := by
  cases curve with
  | nil => cases h
  | cons y curve =>
      cases j with
      | zero => exact ⟨0, le_refl 0, h⟩
      | succ j =>
          rcases mem_cummaxFrom h with rfl | ⟨i, hi, hcurve⟩
          · exact ⟨0, Nat.zero_le _, rfl⟩
          · exact ⟨i + 1, Nat.succ_le_succ hi, hcurve⟩

/-- The greatest value up to number `j`. -/
structure PeakAt (curve : List ℚ) (j : ℕ) (p : ℚ) : Prop where
  reached : ∃ i ≤ j, curve[i]? = some p
  greatest : ∀ i ≤ j, ∀ x ∈ curve[i]?, x ≤ p
  pos : 0 < p

/-- Every drawdown is measured against the greatest value so far. -/
theorem drawdown_at {curve : List ℚ} (hpos : ∀ x ∈ curve[0]?, 0 < x) {j : ℕ} {y : ℚ}
    (hy : curve[j]? = some y) :
    ∃ p, PeakAt curve j p ∧ (drawdownCurve curve)[j]? = some (y / p - 1) := by
  obtain ⟨hj, -⟩ := List.getElem?_eq_some_iff.mp hy
  obtain ⟨p, hp⟩ : ∃ p, (cummax curve)[j]? = some p :=
    ⟨_, List.getElem?_eq_getElem (by rwa [length_cummax])⟩
  have hgreatest : ∀ i ≤ j, ∀ x ∈ curve[i]?, x ≤ p := by
    intro i hi x hx
    by_contra hlt
    exact lt_irrefl p ((lt_cummax_iff hp p).mpr ⟨i, hi, x, hx, not_le.mp hlt⟩)
  have hfirst : curve[0]? = some curve[0] := List.getElem?_eq_getElem (by omega)
  refine ⟨p, ⟨mem_cummax hp, hgreatest, ?_⟩, ?_⟩
  · exact (hpos _ hfirst).trans_le (hgreatest 0 (Nat.zero_le j) _ hfirst)
  · rw [drawdownCurve, List.getElem?_zipWith, hy, hp]
    rfl

/-- `d` is the deepest fall of a curve below the greatest value so far, as a part of it. -/
structure DeepestFall (curve : List ℚ) (d : ℚ) : Prop where
  below : ∀ j : ℕ, ∀ y ∈ curve[j]?, ∃ p, PeakAt curve j p ∧ 1 - y / p ≤ d
  attained : curve ≠ [] → ∃ j : ℕ, ∃ y ∈ curve[j]?, ∃ p, PeakAt curve j p ∧ d = 1 - y / p
  /-- Below a value that is not the greatest, a negative one is relatively further. -/
  bound : ∀ i j : ℕ, i ≤ j → ∀ x ∈ curve[i]?, ∀ y ∈ curve[j]?, 0 < x → 0 ≤ y → 1 - y / x ≤ d
  nonneg : 0 ≤ d
  /-- More than everything is lost only where a value is negative. -/
  le_one_iff : d ≤ 1 ↔ ∀ y ∈ curve, 0 ≤ y
  zero_iff : d = 0 ↔ curve.Pairwise fun x y => x ≤ y

theorem length_drawdownCurve (curve : List ℚ) : (drawdownCurve curve).length = curve.length := by
  rw [drawdownCurve, List.length_zipWith, length_cummax, Nat.min_self]

/-- The minimum of the drawdowns, which are all of the form that `drawdown_at` says. -/
theorem maxDd_spec {curve : List ℚ} (hpos : ∀ x ∈ curve[0]?, 0 < x) (hne : curve ≠ []) :
    (∃ j y p, curve[j]? = some y ∧ PeakAt curve j p ∧ maxDd curve = y / p - 1) ∧
      ∀ j y, curve[j]? = some y → ∃ p, PeakAt curve j p ∧ maxDd curve ≤ y / p - 1 := by
  have hne' : drawdownCurve curve ≠ [] := by
    rw [← List.length_pos_iff, length_drawdownCurve]
    exact List.length_pos_iff.mpr hne
  obtain ⟨hmem, hleast⟩ := over_min nanMin_rat hne'
  constructor
  · obtain ⟨j, hj, hmin⟩ := List.getElem_of_mem hmem
    rw [length_drawdownCurve] at hj
    obtain ⟨p, hp, hat⟩ := drawdown_at hpos (List.getElem?_eq_getElem hj)
    refine ⟨j, _, p, List.getElem?_eq_getElem hj, hp, ?_⟩
    rw [List.getElem?_eq_getElem (by rwa [length_drawdownCurve]), Option.some_inj] at hat
    exact hmin.symm.trans hat
  · intro j y hy
    obtain ⟨p, hp, hat⟩ := drawdown_at hpos hy
    exact ⟨p, hp, hleast _ (List.mem_of_getElem? hat)⟩

theorem deepestFall_maxDd {curve : List ℚ} (hpos : ∀ x ∈ curve[0]?, 0 < x) :
    DeepestFall curve |maxDd curve| := by
  by_cases hne : curve = []
  · subst hne
    exact ⟨nofun, fun h => absurd rfl h, nofun, abs_nonneg _, by decide +kernel,
      by decide +kernel⟩
  obtain ⟨⟨j₀, y₀, p₀, hy₀, hp₀, hmin⟩, hleast⟩ := maxDd_spec hpos hne
  -- at the minimum the value is at most the peak
  have hle : y₀ / p₀ ≤ 1 := (div_le_one hp₀.pos).mpr (hp₀.greatest j₀ (le_refl _) y₀ hy₀)
  have habs : |maxDd curve| = 1 - y₀ / p₀ := by
    rw [hmin, abs_of_nonpos (by linarith)]
    ring
  refine ⟨?_, fun _ => ⟨j₀, y₀, hy₀, p₀, hp₀, habs⟩, ?_, abs_nonneg _, ?_, ?_⟩
  · intro j y hy
    obtain ⟨p, hp, hmin'⟩ := hleast j y hy
    refine ⟨p, hp, ?_⟩
    rw [habs]
    linarith
  · intro i j hij x hx y hy hxpos hynonneg
    obtain ⟨p, hp, hmin'⟩ := hleast j y hy
    have hxp : x ≤ p := hp.greatest i hij x hx
    have hquot : y / p ≤ y / x := div_le_div_of_nonneg_left hynonneg hxpos hxp
    rw [habs]
    linarith
  · rw [habs]
    constructor
    · intro hd y hy
      obtain ⟨j, hj, rfl⟩ := List.getElem_of_mem hy
      obtain ⟨p, hp, hmin'⟩ := hleast j _ (List.getElem?_eq_getElem hj)
      have hquot : 0 ≤ curve[j] / p := by linarith
      by_contra hneg
      exact absurd hquot (not_le.mpr (div_neg_of_neg_of_pos (not_le.mp hneg) hp.pos))
    · intro hall
      have hquot := div_nonneg (hall y₀ (List.mem_of_getElem? hy₀)) hp₀.pos.le
      linarith
  · rw [habs, List.pairwise_iff_getElem]
    constructor
    · intro hd i j hi hj hij
      obtain ⟨p, hp, hmin'⟩ := hleast j _ (List.getElem?_eq_getElem hj)
      have hquot : 1 ≤ curve[j] / p := by linarith
      have hx := hp.greatest i hij.le _ (List.getElem?_eq_getElem hi)
      exact hx.trans ((one_le_div hp.pos).mp hquot)
    · intro hsorted
      obtain ⟨i, hi, hx⟩ := hp₀.reached
      obtain ⟨hj, rfl⟩ := List.getElem?_eq_some_iff.mp hy₀
      obtain ⟨hi', rfl⟩ := List.getElem?_eq_some_iff.mp hx
      have hup : curve[i] ≤ curve[j₀] := by
        rcases Nat.eq_or_lt_of_le hi with rfl | hlt
        · exact le_refl _
        · exact hsorted i j₀ hi' hj hlt
      have hone := (one_le_div hp₀.pos).mpr hup
      linarith

/-- The reported drawdown of a run is the deepest fall of its equity curve. -/
theorem maxDrawdown_deepest (libs : Libraries ℚ Rest) (engine : BacktestEngine ℚ)
    (strategy : Strategy ℚ) (strategyName : String) (data : List (Row ℚ)) (initialCapital : ℚ)
    (hcapital : 0 < initialCapital) (flags : Flags) (params : Dict ParamKey ℚ)
    (res : BacktestResult ℚ (Report ℚ (Summary ℚ Rest)))
    (h : engine.run libs.summarising.reporting strategy strategyName data initialCapital flags
      params = .ok res) :
    DeepestFall res.equityCurve res.statistics.rest.maxDrawdown ∧
      res.statistics.rest.maxDrawdownPercent = res.statistics.rest.maxDrawdown * 100 := by
  obtain ⟨b, hloop, hcurve, -, -⟩ := BacktestEngine.run_eq_ok h
  have hpos : ∀ x ∈ res.equityCurve[0]?, 0 < x := by
    intro x hx
    rw [hcurve] at hx
    obtain ⟨hlength, rfl⟩ := List.getElem?_eq_some_iff.mp hx
    rw [(loop_booked hloop).first hlength]
    exact hcapital
  obtain ⟨rest, hsummary, -⟩ := run_summarised h
  have hdrawdown : |maxDd res.equityCurve| = res.statistics.rest.maxDrawdown ∧
      |maxDd res.equityCurve| * 100 = res.statistics.rest.maxDrawdownPercent := by
    rw [← Except.ok.inj hsummary]
    exact ⟨rfl, rfl⟩
  rw [← hdrawdown.1, ← hdrawdown.2]
  exact ⟨deepestFall_maxDd hpos, rfl⟩

/-- A summarised run of `alternate` on the default engine, with commission. -/
def runSummary (data : List (Row ℚ)) :
    Except Exc (BacktestResult ℚ (Report ℚ (Summary ℚ Unit))) :=
  BacktestEngine.default.run exactLibraries.summarising.reporting alternate "alternate" data 10000
    { slippage := false } .empty

theorem exists_summary (data : List (Row ℚ))
    (check : BacktestResult ℚ (Report ℚ (Summary ℚ Unit)) → Bool)
    (h : (runSummary data).toOption.any check) :
    ∃ res, runSummary data = .ok res ∧ check res := by
  cases hrun : runSummary data with
  | ok res =>
      rw [hrun] at h
      exact ⟨res, rfl, h⟩
  | error x =>
      rw [hrun] at h
      cases h

/-- Two trades on days in three months: one loses 17, the other wins 33. -/
def monthsFrame : List (Row ℚ) :=
  [priceRow 0 100, priceRow (20 * 86400000000) 90, priceRow (40 * 86400000000) 100,
    priceRow (41 * 86400000000) 90, priceRow (70 * 86400000000) 130]

theorem maxDrawdown_deepest_months :
    ∃ res, runSummary monthsFrame = .ok res ∧ res.statistics.rest.maxDrawdown = 17 / 10000 ∧
      DeepestFall res.equityCurve res.statistics.rest.maxDrawdown := by
  obtain ⟨res, hrun, hdrawdown⟩ := exists_summary monthsFrame
    (fun res => res.statistics.rest.maxDrawdown = 17 / 10000) (by decide +kernel)
  exact ⟨res, hrun, of_decide_eq_true hdrawdown,
    (maxDrawdown_deepest _ _ _ _ _ _ (by norm_num) _ _ res hrun).1⟩

-- ============================================================================
-- The monthly returns
-- ============================================================================

theorem compound_rat (xs : List ℚ) : compound xs = (xs.map fun x => 1 + x).prod - 1 := by
  unfold compound
  rw [List.prod_eq_foldl, List.foldl_map]
  rfl

theorem returns_cons (x : ℚ) (curve : List ℚ) :
    returns (x :: curve) = 0 :: List.zipWith (fun x y => y / x - 1) (x :: curve) curve := by
  simp [returns]

theorem length_returns (curve : List ℚ) : (returns curve).length = curve.length := by
  cases curve with
  | nil => rfl
  | cons x curve => simp [returns_cons]

/-- The changes multiply to the ratio of the last value and the first. -/
theorem prod_changes {x : ℚ} {curve : List ℚ} (hne : ∀ y ∈ (x :: curve).dropLast, y ≠ 0)
    (hx : x ≠ 0) :
    ((List.zipWith (fun x y => y / x - 1) (x :: curve) curve).map fun r => 1 + r).prod =
      (x :: curve).getLast (List.cons_ne_nil x curve) / x := by
  induction curve generalizing x with
  | nil => simp [hx]
  | cons y curve ih =>
      rw [List.zipWith_cons_cons, List.map_cons, List.prod_cons, List.getLast_cons_cons]
      have hrest : ∀ z ∈ (y :: curve).dropLast, z ≠ 0 := fun z hz =>
        hne z (by rw [List.dropLast_cons_of_ne_nil (List.cons_ne_nil y curve)]; exact .tail x hz)
      cases curve with
      | nil =>
          simp
      | cons z curve =>
          have hy : y ≠ 0 := hrest y (by simp)
          rw [ih hrest hy]
          field_simp
          ring

theorem prod_returns {x : ℚ} {curve : List ℚ} (hne : ∀ y ∈ (x :: curve).dropLast, y ≠ 0)
    (hx : x ≠ 0) :
    ((returns (x :: curve)).map fun r => 1 + r).prod =
      (x :: curve).getLast (List.cons_ne_nil x curve) / x := by
  rw [returns_cons, List.map_cons, List.prod_cons, prod_changes hne hx, add_zero, one_mul]

/-- Months do not go backwards. -/
theorem monthAt_mono {t t' : ℤ} (h : t ≤ t') : monthAt t ≤ monthAt t' := by
  have hday : t / 86400000000 ≤ t' / 86400000000 := Int.ediv_le_ediv (by norm_num) h
  have hstart := (Calendar.monthOf_spec (t / 86400000000)).1
  have hend := (Calendar.monthOf_spec (t' / 86400000000)).2
  have hlt : monthAt t < monthAt t' + 1 := Calendar.firstDay_lt_iff.mp (by unfold monthAt; omega)
  omega

/-- The months of sorted times are all there, once each. -/
theorem monthsOf_spec {times : List Time} (hsorted : times.Pairwise fun t t' => t ≤ t') :
    (monthsOf times).Nodup ∧ ∀ t ∈ times, monthAt t ∈ monthsOf times := by
  cases times with
  | nil => exact ⟨.nil, nofun⟩
  | cons first times =>
      have hlast := List.getLast?_eq_some_getLast (List.cons_ne_nil first times)
      unfold monthsOf
      rw [List.head?_cons, hlast]
      simp only
      constructor
      · exact List.nodup_range.map fun a b hab => by simpa using hab
      · intro t ht
        have hfirst : first ≤ t := by
          rcases List.mem_cons.mp ht with rfl | ht
          · exact le_refl t
          · exact List.rel_of_pairwise_cons hsorted ht
        have hle : t ≤ (first :: times).getLast (List.cons_ne_nil first times) :=
          hsorted.rel_getLast ht
        have hmonth := monthAt_mono hfirst
        have hmonth' := monthAt_mono hle
        refine List.mem_map.mpr ⟨(monthAt t - monthAt first).toNat, List.mem_range.mpr ?_, ?_⟩
        all_goals omega

theorem prod_monthlyReturns {times : List Time} (hsorted : times.Pairwise fun t t' => t ≤ t')
    {curve : List ℚ} (hlength : times.length = curve.length) :
    ((monthlyReturns times curve).map fun m => 1 + m.2).prod =
      ((returns curve).map fun r => 1 + r).prod := by
  obtain ⟨hnodup, hmonths⟩ := monthsOf_spec hsorted
  have hkeys : ∀ p ∈ times.zip (returns curve), monthAt p.1 ∈ monthsOf times :=
    fun p hp => hmonths p.1 (List.of_mem_zip hp).1
  have hgroups := prod_groups (fun p : Time × ℚ => monthAt p.1) (fun p => 1 + p.2)
    hnodup hkeys
  have hzip : (returns curve) = (times.zip (returns curve)).map Prod.snd := by
    rw [List.map_snd_zip]
    rw [length_returns, hlength]
  conv_rhs => rw [hzip, List.map_map]
  refine Eq.trans ?_ hgroups
  simp [monthlyReturns, compound_rat, List.map_map, Function.comp_def]

/-- The monthly returns of a run compound to its total return, if the equity is not zero
    before the end. -/
theorem monthlyReturns_compound (libs : Libraries ℚ Rest) (engine : BacktestEngine ℚ)
    (strategy : Strategy ℚ) (strategyName : String) (data : List (Row ℚ)) (initialCapital : ℚ)
    (hcapital : initialCapital ≠ 0) (flags : Flags) (params : Dict ParamKey ℚ)
    (res : BacktestResult ℚ (Report ℚ (Summary ℚ Rest)))
    (h : engine.run libs.summarising.reporting strategy strategyName data initialCapital flags
      params = .ok res)
    (hequity : ∀ x ∈ res.equityCurve.dropLast, x ≠ 0) :
    (res.statistics.rest.monthlyReturns.map fun m => 1 + m.2).prod = 1 + res.totalReturn := by
  obtain ⟨b, hloop, hcurve, -, -⟩ := BacktestEngine.run_eq_ok h
  obtain ⟨rest, hsummary, htotal, -⟩ := run_summarised h
  have hbooked := loop_booked hloop
  have hsorted : ((libs.sortIndex data).map Row.time).Pairwise fun t t' => t ≤ t' :=
    List.pairwise_map.mpr (libs.sortIndex_sorted data)
  have hlength : ((libs.sortIndex data).map Row.time).length = res.equityCurve.length := by
    rw [List.length_map, hcurve, hbooked.length]
    rfl
  rw [htotal, ← Except.ok.inj hsummary]
  refine (prod_monthlyReturns hsorted hlength).trans ?_
  rw [hcurve] at hequity ⊢
  cases hequities : b.equityCurve with
  | nil => simp [returns, totalReturn]
  | cons x curve =>
      have hfirst : x = initialCapital := by
        have hzero := hbooked.first (by rw [hequities]; exact Nat.zero_lt_succ _)
        simpa [hequities] using hzero
      subst hfirst
      rw [hequities] at hequity
      rw [prod_returns hequity hcapital, totalReturn,
        List.getLast?_eq_some_getLast (List.cons_ne_nil x curve)]
      simp

theorem monthlyReturns_compound_months :
    ∃ res, runSummary monthsFrame = .ok res ∧
      res.statistics.rest.monthlyReturns.map Prod.fst = [23640, 23641, 23642] ∧
      (res.statistics.rest.monthlyReturns.map fun m => 1 + m.2).prod = 1 + res.totalReturn := by
  obtain ⟨res, hrun, hcheck⟩ := exists_summary monthsFrame
    (fun res => (∀ x ∈ res.equityCurve.dropLast, x ≠ 0) ∧
      res.statistics.rest.monthlyReturns.map Prod.fst = [23640, 23641, 23642]) (by decide +kernel)
  obtain ⟨hequity, hmonths⟩ := of_decide_eq_true hcheck
  exact ⟨res, hrun, hmonths,
    monthlyReturns_compound _ _ _ _ _ _ (by norm_num) _ _ res hrun hequity⟩

-- ============================================================================
-- The trades
-- ============================================================================

theorem pyMean_nil : pyMean ([] : List ℚ) = 0 := rfl

theorem pyMean_mul_length (xs : List ℚ) : pyMean xs * xs.length = xs.sum := by
  cases xs with
  | nil => rw [pyMean_nil, zero_mul, List.sum_nil]
  | cons x xs =>
      have hlength : ((x :: xs).length : ℚ) ≠ 0 := by
        rw [List.length_cons]
        exact_mod_cast Nat.succ_ne_zero xs.length
      have hmean : pyMean (x :: xs) = (x :: xs).sum / (x :: xs).length := by
        rw [← pySum_rat]
        rfl
      rw [hmean, div_mul_cancel₀ _ hlength]

/-- A mean lies between bounds of the numbers, where these are on either side of 0. -/
theorem pyMean_le {xs : List ℚ} {c : ℚ} (hc : xs = [] → 0 ≤ c) (h : ∀ x ∈ xs, x ≤ c) :
    pyMean xs ≤ c := by
  cases xs with
  | nil => exact hc rfl
  | cons x xs =>
      have hlength : (0 : ℚ) < (x :: xs).length := by
        rw [List.length_cons]
        exact_mod_cast Nat.succ_pos xs.length
      have hsum := List.sum_le_card_nsmul (x :: xs) c h
      rw [nsmul_eq_mul, ← pyMean_mul_length, mul_comm] at hsum
      exact le_of_mul_le_mul_left hsum hlength

theorem le_pyMean {xs : List ℚ} {c : ℚ} (hc : xs = [] → c ≤ 0) (h : ∀ x ∈ xs, c ≤ x) :
    c ≤ pyMean xs := by
  cases xs with
  | nil => exact hc rfl
  | cons x xs =>
      have hlength : (0 : ℚ) < (x :: xs).length := by
        rw [List.length_cons]
        exact_mod_cast Nat.succ_pos xs.length
      have hsum := List.card_nsmul_le_sum (x :: xs) c h
      rw [nsmul_eq_mul, ← pyMean_mul_length, mul_comm (pyMean _)] at hsum
      exact le_of_mul_le_mul_left hsum hlength

/-- The wins and the losses among the profits. -/
def winsOf (pnls : List ℚ) : List ℚ := pnls.filter fun pnl => 0 < pnl
def lossesOf (pnls : List ℚ) : List ℚ := pnls.filter fun pnl => pnl ≤ 0

theorem length_wins_add_losses (pnls : List ℚ) :
    (winsOf pnls).length + (lossesOf pnls).length = pnls.length := by
  have hnot : lossesOf pnls = pnls.filter fun pnl => !decide (0 < pnl) := by
    refine List.filter_congr fun pnl _ => ?_
    rw [← decide_not, decide_eq_decide, not_lt]
  rw [hnot, winsOf]
  exact List.length_eq_length_filter_add (fun pnl : ℚ => decide (0 < pnl)) |>.symm

theorem largestWin_spec (pnls : List ℚ) :
    0 ≤ extreme pyMax (winsOf pnls) ∧ ∀ x ∈ winsOf pnls, x ≤ extreme pyMax (winsOf pnls) := by
  by_cases hne : winsOf pnls = []
  · rw [hne]
    exact ⟨le_refl _, nofun⟩
  · obtain ⟨hmem, hgreatest⟩ := over_max pyMax_rat hne
    exact ⟨(of_decide_eq_true (List.mem_filter.mp hmem).2).le, hgreatest⟩

theorem largestLoss_spec (pnls : List ℚ) :
    extreme pyMin (lossesOf pnls) ≤ 0 ∧ ∀ x ∈ lossesOf pnls, extreme pyMin (lossesOf pnls) ≤ x := by
  by_cases hne : lossesOf pnls = []
  · rw [hne]
    exact ⟨le_refl _, nofun⟩
  · obtain ⟨hmem, hleast⟩ := over_min pyMin_rat hne
    exact ⟨of_decide_eq_true (List.mem_filter.mp hmem).2, hleast⟩

/-- The mean profit by the shares of the wins and the losses. -/
theorem mean_eq_shares {pnls : List ℚ} (hne : pnls ≠ []) :
    pyMean pnls = (winsOf pnls).length / pnls.length * pyMean (winsOf pnls) +
      (1 - (winsOf pnls).length / pnls.length) * pyMean (lossesOf pnls) := by
  have hlength : (pnls.length : ℚ) ≠ 0 := by
    exact_mod_cast (List.length_pos_iff.mpr hne).ne'
  have hcount : ((winsOf pnls).length : ℚ) + (lossesOf pnls).length = pnls.length := by
    exact_mod_cast length_wins_add_losses pnls
  have hwins := pyMean_mul_length (winsOf pnls)
  have hlosses := pyMean_mul_length (lossesOf pnls)
  have hall := pyMean_mul_length pnls
  have hsum : (winsOf pnls).sum + (lossesOf pnls).sum = pnls.sum := sum_wins_add_losses pnls
  have hshare : 1 - ((winsOf pnls).length : ℚ) / pnls.length =
      (lossesOf pnls).length / pnls.length := by
    rw [← hcount] at hlength ⊢
    field_simp
    ring
  rw [hshare]
  refine mul_right_cancel₀ hlength ?_
  calc pyMean pnls * pnls.length
      = (winsOf pnls).sum + (lossesOf pnls).sum := by rw [hall, hsum]
    _ = pyMean (winsOf pnls) * (winsOf pnls).length +
        pyMean (lossesOf pnls) * (lossesOf pnls).length := by rw [hwins, hlosses]
    _ = _ := by field_simp

/-- What the statistics of a run say about its trades. -/
structure TradesSummarised (initialCapital : ℚ)
    (res : BacktestResult ℚ (Report ℚ (Summary ℚ Rest))) : Prop where
  total : res.winningTrades + res.losingTrades = res.totalTrades
  expectancy : res.statistics.rest.expectancy * res.totalTrades =
    res.finalCapital - initialCapital
  shares : res.statistics.rest.expectancy =
    res.statistics.rest.winRate * res.statistics.rest.avgWin +
      (1 - res.statistics.rest.winRate) * res.statistics.rest.avgLoss
  between : ∀ t ∈ res.trades,
    res.statistics.rest.largestLoss ≤ t.pnl ∧ t.pnl ≤ res.statistics.rest.largestWin
  losses : res.statistics.rest.largestLoss ≤ res.statistics.rest.avgLoss ∧
    res.statistics.rest.avgLoss ≤ 0
  wins : 0 ≤ res.statistics.rest.avgWin ∧
    res.statistics.rest.avgWin ≤ res.statistics.rest.largestWin

theorem run_tradesSummarised (libs : Libraries ℚ Rest) (engine : BacktestEngine ℚ)
    (strategy : Strategy ℚ) (strategyName : String) (data : List (Row ℚ)) (initialCapital : ℚ)
    (flags : Flags) (params : Dict ParamKey ℚ)
    (res : BacktestResult ℚ (Report ℚ (Summary ℚ Rest)))
    (h : engine.run libs.summarising.reporting strategy strategyName data initialCapital flags
      params = .ok res) :
    TradesSummarised initialCapital res := by
  obtain ⟨-, -, hfinal, -⟩ := run_books h
  obtain ⟨rest, hsummary, -, htotal, hwinning, hlosing⟩ := run_summarised h
  have hsummary' := (Except.ok.inj hsummary).symm
  generalize hpnls : res.trades.map Trade.pnl = pnls at hwinning hlosing hsummary'
  have hcount : res.totalTrades = pnls.length := by rw [htotal, ← hpnls, List.length_map]
  have hwins : (pnls.filter fun pnl => Prims.lt (Prims.ofRat 0) pnl) = winsOf pnls := rfl
  have hlosses : (pnls.filter fun pnl => Prims.le pnl (Prims.ofRat 0)) = lossesOf pnls := rfl
  have hrealised : realised res.trades = pnls.sum := by rw [realised, hpnls]
  rw [hwins] at hwinning hsummary'
  rw [hlosses] at hlosing hsummary'
  obtain ⟨hwinpos, hwinmax⟩ := largestWin_spec pnls
  obtain ⟨hlossneg, hlossmin⟩ := largestLoss_spec pnls
  constructor
  · rw [hwinning, hlosing, hcount, length_wins_add_losses]
  · rw [hsummary', hcount, hfinal, hrealised]
    exact (pyMean_mul_length pnls).trans (add_sub_cancel_left _ _).symm
  · rw [hsummary']
    by_cases hne : pnls = []
    · simp [hne, pyMean_nil, winsOf, lossesOf]
    · have hempty : pnls.isEmpty = false := by simpa using hne
      simp only [hempty, Bool.false_eq_true, if_false]
      exact mean_eq_shares hne
  · intro t ht
    have hmem : t.pnl ∈ pnls := hpnls ▸ List.mem_map_of_mem ht
    rw [hsummary']
    rcases lt_or_ge 0 t.pnl with hwin | hloss
    · refine ⟨hlossneg.trans hwin.le, hwinmax _ ?_⟩
      exact List.mem_filter.mpr ⟨hmem, decide_eq_true hwin⟩
    · refine ⟨hlossmin _ ?_, hloss.trans hwinpos⟩
      exact List.mem_filter.mpr ⟨hmem, decide_eq_true hloss⟩
  · rw [hsummary']
    refine ⟨le_pyMean (fun _ => hlossneg) hlossmin, pyMean_le (fun _ => le_refl 0) ?_⟩
    exact fun x hx => of_decide_eq_true (List.mem_filter.mp hx).2
  · rw [hsummary']
    refine ⟨le_pyMean (fun _ => le_refl 0) ?_, pyMean_le (fun _ => hwinpos) hwinmax⟩
    exact fun x hx => (of_decide_eq_true (List.mem_filter.mp hx).2 : (0 : ℚ) < x).le

theorem run_tradesSummarised_months :
    ∃ res, runSummary monthsFrame = .ok res ∧ res.statistics.rest.largestLoss = -17 ∧
      TradesSummarised 10000 res := by
  obtain ⟨res, hrun, hloss⟩ := exists_summary monthsFrame
    (fun res => res.statistics.rest.largestLoss = -17) (by decide +kernel)
  exact ⟨res, hrun, of_decide_eq_true hloss, run_tradesSummarised _ _ _ _ _ _ _ _ res hrun⟩

end Mtrader.Backtest
