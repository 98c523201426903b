/-
  Mtrader.Backtest.Costs

  A backtest with commission and slippage against the same backtest without them, in
  exact arithmetic and without margin checks.

  The strategy sees neither the prices paid nor the equity, so both runs hold the same
  position at every row.  The costs shift every entry and every exit against it, and
  take a fee at the exit.
-/

import Mtrader.Backtest.NoLookahead
import Mtrader.Py.Exact

namespace Mtrader.Backtest

open Py

variable {Statistics : Type}

-- ============================================================================
-- Adverse prices
-- ============================================================================

/-- `1` or `-1`. -/
theorem sign_rat (side : Side) : (side.sign : ℚ) = 1 ∨ (side.sign : ℚ) = -1 := by
  cases side with
  | buy => exact .inl rfl
  | sell => exact .inr rfl

theorem sign_mul_self (side : Side) : (side.sign : ℚ) * side.sign = 1 := by
  rcases sign_rat side with h | h <;> rw [h] <;> norm_num

/-- The position of a run with costs and the one of a run without: the same, entered at a
    price that is no better. -/
structure Costlier (p p' : Position ℚ) : Prop where
  side : p.side = p'.side
  qty : p.qty = p'.qty
  nonneg : 0 ≤ p.qty
  entry : p'.entry * p.side.sign ≤ p.entry * p.side.sign

/-- The books of a run with costs and of one without. -/
structure Below (b b' : Book ℚ) : Prop where
  equity : b.equity ≤ b'.equity
  curve : List.Forall₂ (fun x x' => x ≤ x') b.equityCurve b'.equityCurve
  position : Option.Rel Costlier b.position b'.position

theorem Below.mark {b b' : Book ℚ} (h : Below b b') : Below b.mark b'.mark where
  equity := h.equity
  curve := List.rel_append h.curve (.cons h.equity .nil)
  position := h.position

/-- The models have non-negative parameters. -/
structure NonnegCosts (engine : BacktestEngine ℚ) : Prop where
  perLot : 0 ≤ engine.commissionModel.commissionPerLot
  minCommission : 0 ≤ engine.commissionModel.minCommission
  baseSlippage : 0 ≤ engine.slippageModel.baseSlippage

theorem commission_nonneg {engine : BacktestEngine ℚ} (h : NonnegCosts engine) (volume price : ℚ) :
    0 ≤ engine.commissionModel.calculate volume price := by
  unfold CommissionModel.calculate pyMax
  split
  next => exact mul_nonneg (abs_nonneg volume) h.perLot
  next => exact h.minCommission

theorem map_eq_ok {ε α β : Type} {f : α → β} {x : Except ε α} {b : β} (h : x.map f = .ok b) :
    ∃ a, f a = b := by
  cases x with
  | error e => cases h
  | ok a => exact ⟨a, Except.ok.inj h⟩

theorem widening_nonneg {model : SlippageModel ℚ} {volatility : Val ℚ} {x : ℚ}
    (h : model.widening volatility = .ok x) : 0 ≤ x := by
  unfold SlippageModel.widening at h
  split at h
  next =>
    cases h
    exact le_refl 0
  next =>
    obtain ⟨y, rfl⟩ := map_eq_ok h
    exact abs_nonneg y
  next =>
    cases h
    exact le_refl 0

/-- Slippage is a non-negative amount of the price. -/
theorem slippage_nonneg {engine : BacktestEngine ℚ} (h : NonnegCosts engine)
    {libs : Libraries ℚ Statistics} (hlog : ∀ x, 0 ≤ x → 0 ≤ libs.log1p x) {price volume s : ℚ}
    {volatility : Val ℚ} (hprice : 0 ≤ price)
    (hs : engine.slippageModel.calculate libs price volume volatility = .ok s) : 0 ≤ s := by
  obtain ⟨widening, hwidening, hs⟩ := bind_eq_ok.mp hs
  have hnonneg := widening_nonneg hwidening
  have hmult : 0 ≤ 1 + widening := by linarith
  obtain rfl :
      price * engine.slippageModel.baseSlippage * (1 + widening) * libs.log1p |volume| = s :=
    Except.ok.inj hs
  exact mul_nonneg (mul_nonneg (mul_nonneg hprice h.baseSlippage) hmult)
    (hlog _ (abs_nonneg volume))

-- ============================================================================
-- One row
-- ============================================================================

/-- Costs on, and costs off. -/
def withCosts : Flags := { commission := true, slippage := true, margin := false }
def withoutCosts : Flags := { commission := false, slippage := false, margin := false }

/-- A price with slippage is the price and a non-negative amount. -/
theorem slip_withCosts {engine : BacktestEngine ℚ} (h : NonnegCosts engine)
    {libs : Libraries ℚ Statistics} (hlog : ∀ x, 0 ≤ x → 0 ≤ libs.log1p x) {row : Row ℚ}
    {price qty x : ℚ} {apply : ℚ → ℚ} (hprice : 0 ≤ price)
    (hx : slip libs engine withCosts row price qty apply = .ok x) : ∃ s, 0 ≤ s ∧ x = apply s := by
  obtain ⟨s, hs, hx⟩ := bind_eq_ok.mp hx
  exact ⟨s, slippage_nonneg h hlog hprice hs, (Except.ok.inj hx).symm⟩

/-- Closing a position at a price that is no better earns no more. -/
theorem close_pnl_le {engine : BacktestEngine ℚ} (h : NonnegCosts engine) {p p' : Position ℚ}
    (hp : Costlier p p') {exit exit' : ℚ} (hexit : exit * p.side.sign ≤ exit' * p.side.sign)
    (time : Time) (i : ℕ) :
    (engine.close withCosts p exit time i).pnl
      ≤ (engine.close withoutCosts p' exit' time i).pnl := by
  have hpnl : (engine.close withCosts p exit time i).pnl
      = (exit - p.entry) * p.qty * p.side.sign - engine.commissionModel.calculate p.qty exit := rfl
  have hpnl' : (engine.close withoutCosts p' exit' time i).pnl
      = (exit' - p'.entry) * p'.qty * p'.side.sign - 0 := rfl
  have hfee := commission_nonneg h p.qty exit
  have hprice : exit * p.side.sign - p.entry * p.side.sign
      ≤ exit' * p.side.sign - p'.entry * p.side.sign := sub_le_sub hexit hp.entry
  have hgross := mul_le_mul_of_nonneg_right hprice hp.nonneg
  rw [hpnl, hpnl', ← hp.side, ← hp.qty]
  calc (exit - p.entry) * p.qty * p.side.sign - engine.commissionModel.calculate p.qty exit
      ≤ (exit - p.entry) * p.qty * p.side.sign := by linarith
    _ = (exit * p.side.sign - p.entry * p.side.sign) * p.qty := by ring
    _ ≤ (exit' * p.side.sign - p'.entry * p.side.sign) * p.qty := hgross
    _ = (exit' - p'.entry) * p.qty * p.side.sign - 0 := by ring

/-- Entering with slippage costs more, on either side. -/
theorem entry_costlier (side : Side) (price : ℚ) {s : ℚ} (hs : 0 ≤ s) :
    price * (side.sign : ℚ) ≤ (price + s * side.sign) * side.sign := by
  have hsign := sign_mul_self side
  calc price * (side.sign : ℚ) ≤ price * side.sign + s := by linarith
    _ = price * side.sign + s * (side.sign * side.sign) := by rw [hsign, mul_one]
    _ = (price + s * side.sign) * side.sign := by ring

/-- Leaving with slippage yields less, on either side. -/
theorem exit_adverse (side : Side) (price : ℚ) {s : ℚ} (hs : 0 ≤ s) :
    (price - s * side.sign) * side.sign ≤ price * (side.sign : ℚ) := by
  have hsign := sign_mul_self side
  calc (price - s * side.sign) * (side.sign : ℚ)
      = price * side.sign - s * (side.sign * side.sign) := by ring
    _ = price * side.sign - s := by rw [hsign, mul_one]
    _ ≤ price * side.sign := by linarith

theorem Below.none {b b' : Book ℚ} (h : Below b b') (hnone : b.position = none) :
    b'.position = none := by
  have hposition := h.position
  rw [hnone] at hposition
  cases hp' : b'.position with
  | none => rfl
  | some p' =>
      rw [hp'] at hposition
      cases hposition

theorem Below.some {b b' : Book ℚ} (h : Below b b') {p : Position ℚ}
    (hsome : b.position = some p) : ∃ p', b'.position = some p' ∧ Costlier p p' := by
  have hposition := h.position
  rw [hsome] at hposition
  cases hp' : b'.position with
  | none =>
      rw [hp'] at hposition
      cases hposition
  | some p' =>
      rw [hp'] at hposition
      cases hposition with
      | some hp => exact ⟨p', rfl, hp⟩

/-- A row keeps the book with costs below the one without, and the row of the run without
    costs is read when the other is. -/
theorem onRow_below {engine : BacktestEngine ℚ} (h : NonnegCosts engine)
    {libs : Libraries ℚ Statistics} (hlog : ∀ x, 0 ≤ x → 0 ≤ libs.log1p x)
    {strategy : Strategy ℚ} {params : Dict ParamKey ℚ}
    (hsize : ∀ qty, (params.getD .size (.float 1)).toFloat = .ok qty → 0 ≤ qty)
    {seen : List (Row ℚ)} {row : Row ℚ}
    (hclose : ∀ cell price, row.cells .close = some cell → cell.toFloat = .ok price → 0 ≤ price)
    {b b' b₁ : Book ℚ} (hb : Below b b')
    (hrow : onRow libs engine strategy withCosts params seen row b = .ok b₁) :
    ∃ b₁', onRow libs engine strategy withoutCosts params seen row b' = .ok b₁' ∧
      Below b₁ b₁' := by
  unfold onRow at hrow ⊢
  obtain ⟨signal, hsignal, hrow⟩ := bind_eq_ok.mp hrow
  obtain ⟨cell, hcell, hrow⟩ := bind_eq_ok.mp hrow
  obtain ⟨price, hread, hrow⟩ := bind_eq_ok.mp hrow
  obtain ⟨vol, hvol, hrow⟩ := bind_eq_ok.mp hrow
  have hprice : 0 ≤ price := hclose cell price (Dict.item_eq_ok hcell) hread
  simp only [hsignal, hcell, hread, hvol, bind, Except.bind]
  split at hrow
  next hnone =>
    obtain ⟨side, hside, hrow⟩ := bind_eq_ok.mp hrow
    simp only [hb.none hnone, hside]
    cases side with
    | none =>
        cases hrow
        exact ⟨_, rfl, hb.mark⟩
    | some side =>
        obtain ⟨qty, hqty, hrow⟩ := bind_eq_ok.mp hrow
        obtain ⟨margin, hmargin, hrow⟩ := bind_eq_ok.mp hrow
        obtain ⟨entry, hentry, hrow⟩ := bind_eq_ok.mp hrow
        obtain ⟨s, hs, rfl⟩ := slip_withCosts h hlog hprice hentry
        cases hrow
        simp only [hqty, hmargin]
        refine ⟨_, rfl, Below.mark ⟨hb.equity, hb.curve, .some ?_⟩⟩
        exact ⟨rfl, rfl, hsize qty hqty, entry_costlier side price hs⟩
  next p hsome =>
    obtain ⟨closing, hclosing, hrow⟩ := bind_eq_ok.mp hrow
    obtain ⟨p', hsome', hp⟩ := hb.some hsome
    simp only [hsome', hclosing]
    cases closing with
    | false =>
        cases hrow
        exact ⟨_, rfl, hb.mark⟩
    | true =>
        obtain ⟨exit, hexit, hrow⟩ := bind_eq_ok.mp hrow
        obtain ⟨s, hs, rfl⟩ := slip_withCosts h hlog hprice hexit
        cases hrow
        refine ⟨_, rfl, Below.mark ⟨?_, hb.curve, .none⟩⟩
        have hpnl := close_pnl_le h hp (exit_adverse p.side price hs) row.time seen.length
        exact add_le_add hb.equity hpnl

-- ============================================================================
-- The whole loop
-- ============================================================================

/-- The equity curve of a run with commission and slippage is, row by row, at most the
    curve of the run without them; and that run builds a curve when the other does. -/
theorem equityCurve_withCosts_le (engine : BacktestEngine ℚ) (h : NonnegCosts engine)
    (libs : Libraries ℚ Statistics) (hlog : ∀ x, 0 ≤ x → 0 ≤ libs.log1p x)
    (strategy : Strategy ℚ) (params : Dict ParamKey ℚ)
    (hsize : ∀ qty, (params.getD .size (.float 1)).toFloat = .ok qty → 0 ≤ qty)
    (data : List (Row ℚ))
    (hprices : ∀ row ∈ data, ∀ cell price, row.cells .close = some cell →
      cell.toFloat = .ok price → 0 ≤ price)
    (initialCapital : ℚ) (b : Book ℚ)
    (hrun : Loop.run (onRow libs engine strategy withCosts params) [] (libs.sortIndex data)
      { equity := initialCapital } = .ok b) :
    ∃ b', Loop.run (onRow libs engine strategy withoutCosts params) [] (libs.sortIndex data)
        { equity := initialCapital } = .ok b' ∧
      List.Forall₂ (fun x x' => x ≤ x') b.equityCurve b'.equityCurve := by
  have hstart : Below ({ equity := initialCapital } : Book ℚ) { equity := initialCapital } :=
    ⟨le_refl _, .nil, .none⟩
  obtain ⟨b', hrun', hbelow⟩ := Loop.run_related hrun hstart fun seen row hrow b b' b₁ hb hbody =>
    onRow_below h hlog hsize (hprices row ((libs.sortIndex_perm data).mem_iff.mp hrow)) hb hbody
  exact ⟨b', hrun', hbelow.curve⟩

/-- The loop of `alternate` on the default engine. -/
def alternateLoop (flags : Flags) : Except Exc (Book ℚ) :=
  Loop.run (onRow exactLibraries BacktestEngine.default alternate flags .empty) []
    (exactLibraries.sortIndex risingFrame) { equity := 10000 }

theorem equityCurve_withCosts_le_alternate :
    ∃ b b', alternateLoop withCosts = .ok b ∧ alternateLoop withoutCosts = .ok b' ∧
      List.Forall₂ (fun x x' => x ≤ x') b.equityCurve b'.equityCurve := by
  have hok : (alternateLoop withCosts).isOk = true := by decide +kernel
  cases hrun : alternateLoop withCosts with
  | error x =>
      rw [hrun] at hok
      cases hok
  | ok b =>
      have hprices : ∀ row ∈ risingFrame, ∀ cell price, row.cells .close = some cell →
          cell.toFloat = .ok price → 0 ≤ price := by
        intro row hrow cell price hcell hprice
        simp only [risingFrame, List.mem_cons, List.not_mem_nil, or_false] at hrow
        rcases hrow with rfl | rfl | rfl | rfl <;>
          (cases hcell; cases hprice; norm_num)
      obtain ⟨b', hrun', hle⟩ := equityCurve_withCosts_le BacktestEngine.default
        ⟨by decide +kernel, by decide +kernel, by decide +kernel⟩ exactLibraries
        (fun x hx => hx) alternate .empty
        (fun qty hqty => by cases hqty; exact zero_le_one) risingFrame hprices 10000 b hrun
      exact ⟨b, b', rfl, hrun', hle⟩

end Mtrader.Backtest
