/-
  Mtrader.Backtest.MonteCarlo

  `BacktestEngine.monte_carlo` of `engine/backtester.py`, in exact arithmetic.

  - A trade is the profit that `get` finds in it, if any.
  - `np.random.choice` draws indices, which are a parameter: `draw i j` is the number that
    is drawn for place `j` of iteration `i`, brought into range.
  - The dicts of the result are lists of items, by the level that `str` makes a key of.
  - A mean of nothing is `nan`, here none; a quantile of nothing raises.
-/

import Mtrader.Py.Value
import Mtrader.OrderStatistics.Quantile

namespace Mtrader.Backtest

open Py OrderStatistics

variable {F : Type}

/-- A dict of a trade. -/
structure TradeProfit (F : Type) where
  pnl : Option F

/-- The dict that `monte_carlo` returns; without trades it has no mean and no deviation. -/
structure MonteCarlo (F : Type) where
  distribution : List F
  mean : Option F := none
  std : Option F := none
  var : List (F × F)
  cvar : List (F × Option F)

/-- The value at risk at a level, and the mean of the tail below it. -/
structure Risk (F : Type) where
  level : F
  var : F
  cvar : Option F

section

variable [Field F]

/-- `[t.get("pnl", 0) for t in trades]`. -/
def profits (trades : List (TradeProfit F)) : List F := trades.map fun t => t.pnl.getD 0

/-- `np.random.choice(pnl, size=len(pnl), replace=True)` in iteration `i`. -/
def resample (draw : ℕ → ℕ → ℕ) (pnl : List F) (i : ℕ) : List F :=
  (List.range pnl.length).map fun j => pnl.getD (draw i j % pnl.length) 0

/-- `dist`. -/
def sampleSums (draw : ℕ → ℕ → ℕ) (pnl : List F) (iterations : ℤ) : List F :=
  (List.range iterations.toNat).map fun i => (resample draw pnl i).sum

variable [LinearOrder F]

/-- `xs.mean()`. -/
def npMean (xs : List F) : Option F := if xs = [] then none else some (mean xs)

/-- `xs.std()`; `sqrt` is a parameter. -/
def npStd (sqrt : F → F) (xs : List F) : Option F :=
  if xs = [] then none else some (sqrt (mean (xs.map fun x => (x - mean xs) ^ 2)))

variable [FloorSemiring F]

/-- `np.quantile(xs, q)`. -/
def npQuantile (xs : List F) (q : F) : Except Exc F :=
  if ¬ (0 ≤ q ∧ q ≤ 1) then .error (.valueError "Quantiles must be in the range [0, 1]")
  else if xs = [] then .error (.external "IndexError: index -1 is out of bounds")
  else .ok (quantile xs q)

/-- The entries of `var` and `cvar` for a level. -/
def riskAt (dist : List F) (c : F) : Except Exc (Risk F) := do
  let bound ← npQuantile dist (1 - c)
  return { level := c, var := bound, cvar := npMean (tail dist bound) }

/-- `BacktestEngine.monte_carlo`. -/
def monteCarlo (sqrt : F → F) (draw : ℕ → ℕ → ℕ) (trades : List (TradeProfit F))
    (iterations : ℤ := 10000) (confidenceLevels : List F := [95 / 100, 99 / 100]) :
    Except Exc (MonteCarlo F) := do
  let pnl := profits trades
  if pnl = [] then return { distribution := [], var := [], cvar := [] }
  else
    let dist := sampleSums draw pnl iterations
    let risks ← confidenceLevels.mapM (riskAt dist)
    return {
      distribution := dist
      mean := npMean dist
      std := npStd sqrt dist
      var := risks.map fun r => (r.level, r.var)
      cvar := risks.map fun r => (r.level, r.cvar) }

end

-- ============================================================================
-- The distribution
-- ============================================================================

section

variable [Field F] {draw : ℕ → ℕ → ℕ} {pnl : List F}

theorem profits_ne_nil {trades : List (TradeProfit F)} (h : trades ≠ []) :
    profits trades ≠ [] := by
  rw [profits, Ne, List.map_eq_nil_iff]
  exact h

theorem resample_mem (hne : pnl ≠ []) {i : ℕ} {x : F} (hx : x ∈ resample draw pnl i) :
    x ∈ pnl := by
  obtain ⟨j, -, rfl⟩ := List.mem_map.mp hx
  have hlt : draw i j % pnl.length < pnl.length := Nat.mod_lt _ (List.length_pos_iff.mpr hne)
  rw [List.getD_eq_getElem _ _ hlt]
  exact List.getElem_mem hlt

theorem length_resample (i : ℕ) : (resample draw pnl i).length = pnl.length := by
  rw [resample, List.length_map, List.length_range]

theorem sampleSums_ne_nil {iterations : ℤ} (hpos : 1 ≤ iterations) :
    sampleSums draw pnl iterations ≠ [] := by
  rw [sampleSums, Ne, List.map_eq_nil_iff, List.range_eq_nil]
  omega

variable [LinearOrder F] [IsStrictOrderedRing F]

/-- A sum of resampled profits lies between as many of the least and of the greatest. -/
theorem sampleSums_bounds (hne : pnl ≠ []) {iterations : ℤ} {lo hi : F}
    (hbounds : ∀ p ∈ pnl, lo ≤ p ∧ p ≤ hi) {s : F} (hs : s ∈ sampleSums draw pnl iterations) :
    pnl.length * lo ≤ s ∧ s ≤ pnl.length * hi := by
  obtain ⟨i, -, rfl⟩ := List.mem_map.mp hs
  have hlo := List.card_nsmul_le_sum (resample draw pnl i) lo fun x hx =>
    (hbounds x (resample_mem hne hx)).1
  have hhi := List.sum_le_card_nsmul (resample draw pnl i) hi fun x hx =>
    (hbounds x (resample_mem hne hx)).2
  rw [length_resample, nsmul_eq_mul] at hlo hhi
  exact ⟨hlo, hhi⟩

-- ============================================================================
-- Value at risk
-- ============================================================================

variable [FloorSemiring F] {dist : List F} {c c' : F}

/-- The value at risk at a level. -/
def valueAtRisk (dist : List F) (c : F) : F := quantile dist (1 - c)

/-- The mean of the tail below it. -/
def conditionalValueAtRisk (dist : List F) (c : F) : F := mean (tail dist (valueAtRisk dist c))

/-- The tail is not empty. -/
theorem tail_ne_nil (hne : dist ≠ []) (hc : c ≤ 1) : tail dist (valueAtRisk dist c) ≠ [] := by
  obtain ⟨x, hx, hle⟩ := exists_le_quantile hne (sub_nonneg.mpr hc)
  exact List.ne_nil_of_mem (mem_tail.mpr ⟨hx, hle⟩)

theorem riskAt_eq (hne : dist ≠ []) (hc : 0 ≤ c ∧ c ≤ 1) :
    riskAt dist c = .ok {
      level := c
      var := valueAtRisk dist c
      cvar := some (conditionalValueAtRisk dist c) } := by
  have hlevel : 0 ≤ 1 - c ∧ 1 - c ≤ 1 := ⟨sub_nonneg.mpr hc.2, sub_le_self 1 hc.1⟩
  have hquantile : npQuantile dist (1 - c) = .ok (valueAtRisk dist c) := by
    rw [npQuantile, if_neg (not_not_intro hlevel), if_neg hne, valueAtRisk]
  have hmean : npMean (tail dist (valueAtRisk dist c)) =
      some (conditionalValueAtRisk dist c) := if_neg (tail_ne_nil hne hc.2)
  unfold riskAt
  rw [hquantile, ← hmean]
  rfl

theorem cvar_le_var (hne : dist ≠ []) (hc : c ≤ 1) :
    conditionalValueAtRisk dist c ≤ valueAtRisk dist c :=
  mean_le (tail_ne_nil hne hc) fun _ hx => (mem_tail.mp hx).2

theorem valueAtRisk_antitone (hcc : c ≤ c') (hc : c' ≤ 1) :
    valueAtRisk dist c' ≤ valueAtRisk dist c :=
  quantile_mono dist (sub_nonneg.mpr hc) (sub_le_sub_left hcc 1)

theorem cvar_antitone (hne : dist ≠ []) (hcc : c ≤ c') (hc : c' ≤ 1) :
    conditionalValueAtRisk dist c' ≤ conditionalValueAtRisk dist c :=
  mean_tail_mono (tail_ne_nil hne hc) (valueAtRisk_antitone hcc hc)

/-- Both lie between the bounds of the distribution. -/
theorem risk_bounds (hne : dist ≠ []) (hc : c ≤ 1) {lo hi : F}
    (hbounds : ∀ s ∈ dist, lo ≤ s ∧ s ≤ hi) :
    lo ≤ conditionalValueAtRisk dist c ∧ valueAtRisk dist c ≤ hi := by
  constructor
  · exact le_mean (tail_ne_nil hne hc) fun x hx => (hbounds x (mem_tail.mp hx).1).1
  · obtain ⟨x, hx, hle⟩ := exists_quantile_le hne (1 - c)
    exact hle.trans (hbounds x hx).2

-- ============================================================================
-- The result
-- ============================================================================

/-- What a caller may rely on in the value at risk and the means of the tails. -/
structure Coherent (pnl : List F) (res : MonteCarlo F) : Prop where
  tail : ∀ c t, (c, t) ∈ res.cvar → t.isSome
  cvar_le_var : ∀ c v t, (c, v) ∈ res.var → (c, some t) ∈ res.cvar → t ≤ v
  var_antitone : ∀ c c' v v', c ≤ c' → (c, v) ∈ res.var → (c', v') ∈ res.var → v' ≤ v
  cvar_antitone : ∀ c c' t t', c ≤ c' → (c, some t) ∈ res.cvar → (c', some t') ∈ res.cvar →
    t' ≤ t
  var_bounds : ∀ lo ∈ pnl.min?, ∀ hi ∈ pnl.max?, ∀ c v, (c, v) ∈ res.var →
    pnl.length * lo ≤ v ∧ v ≤ pnl.length * hi
  cvar_bounds : ∀ lo ∈ pnl.min?, ∀ hi ∈ pnl.max?, ∀ c t, (c, some t) ∈ res.cvar →
    pnl.length * lo ≤ t ∧ t ≤ pnl.length * hi

/-- The entries of levels between 0 and 1 are coherent. -/
theorem coherent_of_levels {levels : List F} {res : MonteCarlo F} (hne : dist ≠ [])
    (hlevels : ∀ c ∈ levels, 0 ≤ c ∧ c ≤ 1)
    (hbounds : ∀ lo ∈ pnl.min?, ∀ hi ∈ pnl.max?, ∀ s ∈ dist,
      pnl.length * lo ≤ s ∧ s ≤ pnl.length * hi)
    (hvar : res.var = levels.map fun c => (c, valueAtRisk dist c))
    (hcvar : res.cvar = levels.map fun c => (c, some (conditionalValueAtRisk dist c))) :
    Coherent pnl res := by
  have hv : ∀ {c v}, (c, v) ∈ res.var → c ≤ 1 ∧ v = valueAtRisk dist c := by
    intro c v h
    rw [hvar] at h
    obtain ⟨c, hc, heq⟩ := List.mem_map.mp h
    cases heq
    exact ⟨(hlevels c hc).2, rfl⟩
  have ht : ∀ {c t}, (c, t) ∈ res.cvar →
      c ≤ 1 ∧ t = some (conditionalValueAtRisk dist c) := by
    intro c t h
    rw [hcvar] at h
    obtain ⟨c, hc, heq⟩ := List.mem_map.mp h
    cases heq
    exact ⟨(hlevels c hc).2, rfl⟩
  refine ⟨?_, ?_, ?_, ?_, ?_, ?_⟩
  · intro c t h
    rw [(ht h).2]
    rfl
  · intro c v t h h'
    obtain ⟨hc, rfl⟩ := hv h
    cases (ht h').2
    exact cvar_le_var hne hc
  · intro c c' v v' hcc h h'
    obtain ⟨-, rfl⟩ := hv h
    obtain ⟨hc', rfl⟩ := hv h'
    exact valueAtRisk_antitone hcc hc'
  · intro c c' t t' hcc h h'
    cases (ht h).2
    cases (ht h').2
    exact cvar_antitone hne hcc (ht h').1
  · intro lo hlo hi hhi c v h
    obtain ⟨hc, rfl⟩ := hv h
    obtain ⟨hlow, hhigh⟩ := risk_bounds hne hc (hbounds lo hlo hi hhi)
    exact ⟨hlow.trans (cvar_le_var hne hc), hhigh⟩
  · intro lo hlo hi hhi c t h
    cases (ht h).2
    have hc := (ht h).1
    obtain ⟨hlow, hhigh⟩ := risk_bounds hne hc (hbounds lo hlo hi hhi)
    exact ⟨hlow, (cvar_le_var hne hc).trans hhigh⟩

omit [Field F] [IsStrictOrderedRing F] [FloorSemiring F] in
theorem mem_bounds {lo hi p : F} (hlo : pnl.min? = some lo) (hhi : pnl.max? = some hi)
    (hp : p ∈ pnl) : lo ≤ p ∧ p ≤ hi :=
  ⟨(List.le_min?_iff hlo).mp (le_refl lo) p hp, (List.max?_le_iff hhi).mp (le_refl hi) p hp⟩

theorem mapM_eq_ok {ε α β : Type} {f : α → Except ε β} {g : α → β} {xs : List α}
    (h : ∀ x ∈ xs, f x = .ok (g x)) : xs.mapM f = .ok (xs.map g) := by
  induction xs with
  | nil => rfl
  | cons x xs ih =>
      rw [List.mapM_cons, h x List.mem_cons_self,
        ih fun y hy => h y (List.mem_cons_of_mem x hy)]
      rfl

/-- What a simulation that has something to draw from returns. -/
theorem monteCarlo_eq (sqrt : F → F) {trades : List (TradeProfit F)} (htrades : trades ≠ [])
    {iterations : ℤ} {confidenceLevels : List F}
    (hdist : sampleSums draw (profits trades) iterations = dist) (hne : dist ≠ [])
    (hlevels : ∀ c ∈ confidenceLevels, 0 ≤ c ∧ c ≤ 1) :
    monteCarlo sqrt draw trades iterations confidenceLevels = .ok {
      distribution := dist
      mean := npMean dist
      std := npStd sqrt dist
      var := confidenceLevels.map fun c => (c, valueAtRisk dist c)
      cvar := confidenceLevels.map fun c => (c, some (conditionalValueAtRisk dist c)) } := by
  have hpnl := profits_ne_nil htrades
  have hrisks := mapM_eq_ok fun c hc => riskAt_eq hne (hlevels c hc)
  have hmapM : confidenceLevels.mapM (riskAt dist) = .ok _ := hrisks
  unfold monteCarlo
  simp only [if_neg hpnl, hdist, hmapM, bind, Except.bind, pure, Except.pure, List.map_map]
  rfl

/-- With trades, at least one iteration and levels between 0 and 1, the simulation returns,
    and its result is coherent. -/
theorem monteCarlo_coherent (sqrt : F → F) (draw : ℕ → ℕ → ℕ) (trades : List (TradeProfit F))
    (htrades : trades ≠ []) (iterations : ℤ) (hiterations : 1 ≤ iterations)
    (confidenceLevels : List F) (hlevels : ∀ c ∈ confidenceLevels, 0 ≤ c ∧ c ≤ 1) :
    ∃ res, monteCarlo sqrt draw trades iterations confidenceLevels = .ok res ∧
      res.var.map Prod.fst = confidenceLevels ∧ res.cvar.map Prod.fst = confidenceLevels ∧
      Coherent (profits trades) res := by
  have hne : sampleSums draw (profits trades) iterations ≠ [] := sampleSums_ne_nil hiterations
  refine ⟨_, monteCarlo_eq sqrt htrades rfl hne hlevels, ?_, ?_, ?_⟩
  · simp [List.map_map, Function.comp_def]
  · simp [List.map_map, Function.comp_def]
  · refine coherent_of_levels hne hlevels (fun lo hlo hi hhi s hs => ?_) rfl rfl
    exact sampleSums_bounds (profits_ne_nil htrades) (fun p hp => mem_bounds hlo hhi hp) hs

end

/-- Three trades, one without a profit, and four iterations. -/
def threeTrades : Except Exc (MonteCarlo ℚ) :=
  monteCarlo (fun x => x) (fun i j => i + j * j) [⟨some 1⟩, ⟨some (-1 / 2)⟩, ⟨none⟩] 4 [9 / 10, 1]

theorem monteCarlo_coherent_three :
    ∃ res, threeTrades = .ok res ∧ res.var = [(9 / 10, -7 / 20), (1, -1 / 2)] ∧
      Coherent [1, -1 / 2, 0] res := by
  have hlevels : ∀ c ∈ ([9 / 10, 1] : List ℚ), 0 ≤ c ∧ c ≤ 1 := by
    intro c hc
    simp only [List.mem_cons, List.not_mem_nil, or_false] at hc
    rcases hc with rfl | rfl <;> norm_num
  obtain ⟨res, hres, -, -, hcoherent⟩ := monteCarlo_coherent (fun x : ℚ => x)
    (fun i j => i + j * j) [⟨some 1⟩, ⟨some (-1 / 2)⟩, ⟨none⟩] (by simp) 4 (by norm_num)
    [9 / 10, 1] hlevels
  have hvar : threeTrades.toOption.map MonteCarlo.var = some [(9 / 10, -7 / 20), (1, -1 / 2)] := by
    decide +kernel
  have hok : threeTrades = .ok res := hres
  rw [hok] at hvar
  exact ⟨res, hok, Option.some.inj hvar, hcoherent⟩

end Mtrader.Backtest
