/-
  Mtrader.Backtest.Mirror

  A strategy against its mirror image, which sells where it buys and buys where it sells,
  in exact arithmetic and without margin checks.

  Long and short positions are treated alike: both runs trade in the same rows, and what
  one earns the other loses.  Slippage and commission are paid by both.
-/

import Mtrader.Backtest.Costs

namespace Mtrader.Backtest

open Py

variable {Statistics : Type}

-- ============================================================================
-- Mirror images
-- ============================================================================

def Side.opposite : Side → Side
  | .buy => .sell
  | .sell => .buy

theorem Side.sign_opposite (side : Side) : (side.opposite.sign : ℚ) = -side.sign := by
  cases side with
  | buy => rfl
  | sell => exact (neg_neg 1).symm

def Signal.mirror : Signal → Signal
  | .buy => .sell
  | .sell => .buy
  | signal => signal

theorem Signal.side_mirror (signal : Signal) :
    signal.mirror.side = signal.side.map (Option.map Side.opposite) := by
  cases signal <;> rfl

theorem Signal.isClose_mirror (signal : Signal) : signal.mirror.isClose = signal.isClose := by
  cases signal <;> rfl

/-- The strategy with `"buy"` and `"sell"` exchanged. -/
def mirror (strategy : Strategy ℚ) : Strategy ℚ := fun seen params =>
  (strategy seen params).map Signal.mirror

-- ============================================================================
-- Two runs
-- ============================================================================

/-- The positions of a run and of its mirror image. -/
structure MirroredPosition (flags : Flags) (p p' : Position ℚ) : Prop where
  side : p'.side = p.side.opposite
  qty : p'.qty = p.qty
  time : p'.time = p.time
  row : p'.row = p.row
  nonneg : 0 ≤ p.qty
  /-- Both are entered at one price, with the same slippage. -/
  entry : ∃ price s, 0 ≤ s ∧ (flags.slippage = false → s = 0) ∧
    p.entry = price + s * p.side.sign ∧ p'.entry = price - s * p.side.sign

/-- The trades of a run and of its mirror image. -/
structure MirroredTrade (flags : Flags) (t t' : Trade ℚ) : Prop where
  side : t'.side = t.side.opposite
  qty : t'.qty = t.qty
  entryRow : t'.entryRow = t.entryRow
  exitRow : t'.exitRow = t.exitRow
  entryTime : t'.entryTime = t.entryTime
  exitTime : t'.exitTime = t.exitTime
  commission : t'.commission = t.commission
  nonneg : 0 ≤ t.commission
  free : flags.commission = false → t.commission = 0
  /-- What they lose together is their slippage and their commissions. -/
  pnl : ∃ s, 0 ≤ s ∧ (flags.slippage = false → s = 0) ∧
    t.pnl + t'.pnl = -(2 * s) - t.commission - t'.commission

/-- Two equities that together do not exceed the two capitals, and lose nothing without
    costs. -/
structure Together (flags : Flags) (capital x x' : ℚ) : Prop where
  le : x + x' ≤ 2 * capital
  eq : flags.commission = false → flags.slippage = false → x + x' = 2 * capital

/-- The books of a run and of its mirror image. -/
structure Mirrored (flags : Flags) (capital : ℚ) (b b' : Book ℚ) : Prop where
  equity : Together flags capital b.equity b'.equity
  curve : List.Forall₂ (Together flags capital) b.equityCurve b'.equityCurve
  trades : List.Forall₂ (MirroredTrade flags) b.trades b'.trades
  position : Option.Rel (MirroredPosition flags) b.position b'.position

theorem Mirrored.mark {flags : Flags} {capital : ℚ} {b b' : Book ℚ}
    (h : Mirrored flags capital b b') : Mirrored flags capital b.mark b'.mark where
  equity := h.equity
  curve := List.rel_append h.curve (.cons h.equity .nil)
  trades := h.trades
  position := h.position

theorem MirroredTrade.together {flags : Flags} {capital x x' : ℚ} {t t' : Trade ℚ}
    (h : MirroredTrade flags t t') (hx : Together flags capital x x') :
    Together flags capital (x + t.pnl) (x' + t'.pnl) := by
  obtain ⟨s, hs, hfree, hpnl⟩ := h.pnl
  have hcommission := h.commission
  have hnonneg := h.nonneg
  constructor
  · have hle := hx.le
    linarith
  · intro hoff hslippage
    have heq := hx.eq hoff hslippage
    have hzero := h.free hoff
    have hs := hfree hslippage
    linarith

-- ============================================================================
-- One row
-- ============================================================================

/-- A price with slippage is the price and a non-negative amount `s`, and slippage in another
    direction adds the same amount there. -/
theorem slip_eq_ok {engine : BacktestEngine ℚ} (h : NonnegCosts engine)
    {libs : Libraries ℚ Statistics} (hlog : ∀ x, 0 ≤ x → 0 ≤ libs.log1p x) {flags : Flags}
    {row : Row ℚ} {price qty x : ℚ} {apply : ℚ → ℚ} (hprice : 0 ≤ price)
    (happly : apply 0 = price) (hx : slip libs engine flags row price qty apply = .ok x) :
    ∃ s, 0 ≤ s ∧ (flags.slippage = false → s = 0) ∧ x = apply s ∧
      ∀ apply' : ℚ → ℚ, apply' 0 = price →
        slip libs engine flags row price qty apply' = .ok (apply' s) := by
  unfold slip at hx ⊢
  by_cases hslippage : flags.slippage = true
  · simp only [hslippage, if_true] at hx ⊢
    obtain ⟨s, hs, hx⟩ := bind_eq_ok.mp hx
    refine ⟨s, slippage_nonneg h hlog hprice hs, by simp, (Except.ok.inj hx).symm, ?_⟩
    intro apply' _
    rw [hs]
    rfl
  · simp only [hslippage] at hx ⊢
    cases hx
    exact ⟨0, le_rfl, fun _ => rfl, happly.symm, fun apply' happly' => by rw [happly']; rfl⟩

/-- Closing two mirrored positions at one price. -/
theorem MirroredPosition.close {engine : BacktestEngine ℚ} (h : NonnegCosts engine) {flags : Flags}
    {p p' : Position ℚ} (hp : MirroredPosition flags p p') (price : ℚ) {s : ℚ} (hs : 0 ≤ s)
    (hfree : flags.slippage = false → s = 0) (time : Time) (i : ℕ) :
    MirroredTrade flags (engine.close flags p (price - s * p.side.sign) time i)
      (engine.close flags p' (price - s * p'.side.sign) time i) := by
  obtain ⟨side, qty, entry, time₀, row⟩ := p
  obtain ⟨side', qty', entry', time₀', row'⟩ := p'
  obtain ⟨hside, hqty, htime, hrow, hnonneg, price₀, s₀, hs₀, hfree₀, hentry, hentry'⟩ := hp
  simp only at hside hqty htime hrow hnonneg hentry hentry'
  subst hside hqty htime hrow hentry hentry'
  have hsign := side.sign_opposite
  have hsquare := sign_mul_self side
  refine ⟨rfl, rfl, rfl, rfl, rfl, rfl, rfl, ?_, ?_, (s₀ + s) * qty', ?_, ?_, ?_⟩
  · show 0 ≤ if flags.commission then _ else _
    split
    next => exact commission_nonneg h _ _
    next => exact le_rfl
  · intro hoff
    show (if flags.commission then _ else _) = _
    rw [hoff]
    rfl
  · exact mul_nonneg (add_nonneg hs₀ hs) hnonneg
  · intro hslippage
    rw [hfree₀ hslippage, hfree hslippage]
    ring
  · have hgross : (price - s * side.sign - (price₀ + s₀ * side.sign)) * qty' * side.sign
        + (price - s * -side.sign - (price₀ - s₀ * side.sign)) * qty' * -side.sign
        = -(2 * ((s₀ + s) * qty')) :=
      calc (price - s * side.sign - (price₀ + s₀ * side.sign)) * qty' * side.sign
            + (price - s * -side.sign - (price₀ - s₀ * side.sign)) * qty' * -side.sign
          = -(2 * ((s₀ + s) * qty')) * (side.sign * side.sign) := by ring
        _ = -(2 * ((s₀ + s) * qty')) := by rw [hsquare, mul_one]
    simp only [BacktestEngine.close]
    rw [hsign]
    linarith

theorem Mirrored.none {flags : Flags} {capital : ℚ} {b b' : Book ℚ}
    (h : Mirrored flags capital b b') (hnone : b.position = none) : b'.position = none := by
  have hposition := h.position
  rw [hnone] at hposition
  cases hp' : b'.position with
  | none => rfl
  | some p' =>
      rw [hp'] at hposition
      cases hposition

theorem Mirrored.some {flags : Flags} {capital : ℚ} {b b' : Book ℚ}
    (h : Mirrored flags capital b b') {p : Position ℚ} (hsome : b.position = some p) :
    ∃ p', b'.position = some p' ∧ MirroredPosition flags p p' := by
  have hposition := h.position
  rw [hsome] at hposition
  cases hp' : b'.position with
  | none =>
      rw [hp'] at hposition
      cases hposition
  | some p' =>
      rw [hp'] at hposition
      cases hposition with
      | some hp => exact ⟨p', rfl, hp⟩

/-- A row keeps the two books mirrored, and the mirror image reads it when the strategy
    does. -/
theorem onRow_mirrored {engine : BacktestEngine ℚ} (h : NonnegCosts engine)
    {libs : Libraries ℚ Statistics} (hlog : ∀ x, 0 ≤ x → 0 ≤ libs.log1p x)
    {strategy : Strategy ℚ} {flags : Flags} (hmargin : flags.margin = false)
    {params : Dict ParamKey ℚ}
    (hsize : ∀ qty, (params.getD .size (.float 1)).toFloat = .ok qty → 0 ≤ qty)
    {seen : List (Row ℚ)} {row : Row ℚ}
    (hclose : ∀ cell price, row.cells .close = some cell → cell.toFloat = .ok price → 0 ≤ price)
    {capital : ℚ} {b b' b₁ : Book ℚ} (hb : Mirrored flags capital b b')
    (hrow : onRow libs engine strategy flags params seen row b = .ok b₁) :
    ∃ b₁', onRow libs engine (mirror strategy) flags params seen row b' = .ok b₁' ∧
      Mirrored flags capital b₁ b₁' := by
  unfold onRow at hrow ⊢
  obtain ⟨signal, hsignal, hrow⟩ := bind_eq_ok.mp hrow
  obtain ⟨cell, hcell, hrow⟩ := bind_eq_ok.mp hrow
  obtain ⟨price, hread, hrow⟩ := bind_eq_ok.mp hrow
  obtain ⟨vol, hvol, hrow⟩ := bind_eq_ok.mp hrow
  have hprice : 0 ≤ price := hclose cell price (Dict.item_eq_ok hcell) hread
  have hmirror : mirror strategy (seen ++ [row]) params = .ok signal.mirror := by
    rw [mirror, hsignal]
    rfl
  simp only [hmirror, hcell, hread, hvol, bind, Except.bind]
  split at hrow
  next hnone =>
    obtain ⟨side, hside, hrow⟩ := bind_eq_ok.mp hrow
    have hside' : signal.mirror.side = .ok (side.map Side.opposite) := by
      rw [signal.side_mirror, hside]
      rfl
    simp only [hb.none hnone, hside']
    cases side with
    | none =>
        cases hrow
        exact ⟨_, rfl, hb.mark⟩
    | some side =>
        obtain ⟨qty, hqty, hrow⟩ := bind_eq_ok.mp hrow
        obtain ⟨margin, hrequired, hrow⟩ := bind_eq_ok.mp hrow
        simp only [hmargin, Bool.false_and, Bool.false_eq_true, if_false] at hrow
        obtain ⟨entry, hentry, hrow⟩ := bind_eq_ok.mp hrow
        obtain ⟨s, hs, hfree, rfl, hslip⟩ := slip_eq_ok h hlog hprice (by ring) hentry
        cases hrow
        have hslip' := hslip (fun s => price + s * side.opposite.sign) (by ring)
        simp only [Option.map_some, hqty, hrequired, hmargin, Bool.false_and, Bool.false_eq_true,
          if_false, hslip']
        refine ⟨_, rfl, Mirrored.mark ⟨hb.equity, hb.curve, hb.trades, .some ?_⟩⟩
        refine ⟨rfl, rfl, rfl, rfl, hsize qty hqty, price, s, hs, hfree, rfl, ?_⟩
        show price + s * (side.opposite.sign : ℚ) = price - s * side.sign
        rw [side.sign_opposite]
        ring
  next p hsome =>
    obtain ⟨closing, hclosing, hrow⟩ := bind_eq_ok.mp hrow
    obtain ⟨p', hsome', hp⟩ := hb.some hsome
    simp only [hsome', signal.isClose_mirror, hclosing]
    cases closing with
    | false =>
        cases hrow
        exact ⟨_, rfl, hb.mark⟩
    | true =>
        obtain ⟨exit, hexit, hrow⟩ := bind_eq_ok.mp hrow
        obtain ⟨s, hs, hfree, rfl, hslip⟩ := slip_eq_ok h hlog hprice (by ring) hexit
        cases hrow
        have hslip' := hslip (fun s => price - s * p'.side.sign) (by ring)
        simp only [hp.qty, hslip', if_true]
        have htrade := hp.close h price hs hfree row.time seen.length
        refine ⟨_, rfl, Mirrored.mark ⟨htrade.together hb.equity, hb.curve, ?_, .none⟩⟩
        exact List.rel_append hb.trades (.cons htrade .nil)

-- ============================================================================
-- The whole loop
-- ============================================================================

/-- A strategy and its mirror image trade in the same rows, on opposite sides.  Row by row,
    their equities together are at most the two capitals, and exactly these without commission
    and slippage. -/
theorem mirror_together (engine : BacktestEngine ℚ) (h : NonnegCosts engine)
    (libs : Libraries ℚ Statistics) (hlog : ∀ x, 0 ≤ x → 0 ≤ libs.log1p x)
    (strategy : Strategy ℚ) (flags : Flags) (hmargin : flags.margin = false)
    (params : Dict ParamKey ℚ)
    (hsize : ∀ qty, (params.getD .size (.float 1)).toFloat = .ok qty → 0 ≤ qty)
    (data : List (Row ℚ))
    (hprices : ∀ row ∈ data, ∀ cell price, row.cells .close = some cell →
      cell.toFloat = .ok price → 0 ≤ price)
    (initialCapital : ℚ) (b : Book ℚ)
    (hrun : Loop.run (onRow libs engine strategy flags params) [] (libs.sortIndex data)
      { equity := initialCapital } = .ok b) :
    ∃ b', Loop.run (onRow libs engine (mirror strategy) flags params) [] (libs.sortIndex data)
        { equity := initialCapital } = .ok b' ∧ Mirrored flags initialCapital b b' := by
  have htogether : Together flags initialCapital initialCapital initialCapital :=
    ⟨by linarith, fun _ _ => by ring⟩
  have hstart : Mirrored flags initialCapital ({ equity := initialCapital } : Book ℚ)
      { equity := initialCapital } := ⟨htogether, .nil, .nil, .none⟩
  exact Loop.run_related hrun hstart fun seen row hrow b b' b₁ hb hbody =>
    onRow_mirrored h hlog hmargin hsize (hprices row ((libs.sortIndex_perm data).mem_iff.mp hrow))
      hb hbody

theorem mirror_together_alternate : ∃ b b', alternateLoop withCosts = .ok b ∧
    Loop.run (onRow exactLibraries BacktestEngine.default (mirror alternate) withCosts .empty) []
      (exactLibraries.sortIndex risingFrame) { equity := 10000 } = .ok b' ∧
    Mirrored withCosts 10000 b b' := by
  have hok : (alternateLoop withCosts).isOk = true := by decide +kernel
  cases hrun : alternateLoop withCosts with
  | error x =>
      rw [hrun] at hok
      cases hok
  | ok b =>
      have hprices : ∀ row ∈ risingFrame, ∀ cell price, row.cells .close = some cell →
          cell.toFloat = .ok price → 0 ≤ price := by
        intro row hrow cell price hcell hprice
        simp only [risingFrame, List.mem_cons, List.not_mem_nil, or_false] at hrow
        rcases hrow with rfl | rfl | rfl | rfl <;>
          (cases hcell; cases hprice; norm_num)
      have hnonneg : NonnegCosts BacktestEngine.default :=
        ⟨by decide +kernel, by decide +kernel, by decide +kernel⟩
      obtain ⟨b', hrun', hmirrored⟩ := mirror_together BacktestEngine.default hnonneg
        exactLibraries (fun x hx => hx) alternate withCosts rfl .empty
        (fun qty hqty => by cases hqty; exact zero_le_one) risingFrame hprices 10000 b hrun
      exact ⟨b, b', rfl, hrun', hmirrored⟩

end Mtrader.Backtest
