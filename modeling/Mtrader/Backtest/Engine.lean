/-
  Mtrader.Backtest.Engine

  `BacktestEngine.run` of `engine/backtester.py` with its commission, slippage and
  margin models.

  - A frame is the list of its rows, each with all its cells, so that frames with the
    same rows have the same columns; a strategy is given the rows up to the current
    one and the parameters, and may raise.
  - The result's records of trades name the two times of a trade.  The model also
    keeps the numbers of the rows these times were read at (`entryRow`, `exitRow`),
    which the source does not store.
  - `sort_index`, `log1p` and the statistics of the result are computed by pandas and
    numpy; `Libraries` stands for them.  A run time in milliseconds is not modelled.
-/

import Mtrader.Py.Value
import Mtrader.Loop.Prefix

namespace Mtrader.Backtest

open Py

/-- The columns of a price frame. -/
inductive Column
  | close | volume | volatility
  | other (name : String)
  deriving DecidableEq, Repr

instance : DictKey Column where
  name
    | .close => "close"
    | .volume => "volume"
    | .volatility => "volatility"
    | .other name => name

/-- The keys of `strategy_params` that `run` reads. -/
inductive ParamKey
  | size | strategyId | strategyName | symbol | timeframe | optimizationIterations
  | other (name : String)
  deriving DecidableEq, Repr

/-- The asset classes of a margin model. -/
inductive AssetClass
  | forex | indices | commodities | stocks
  | other (name : String)
  deriving DecidableEq, Repr

/-- One row of a frame with its index value. -/
structure Row (F : Type) where
  time : Time
  cells : Dict Column F

/-- What a strategy returns, as far as the loop can tell signals apart; comparing an
    `ambiguous` one with a text has no truth value (a frame). -/
inductive Signal
  | buy | sell | close | other | ambiguous
  deriving DecidableEq, Repr

inductive Side
  | buy | sell
  deriving DecidableEq, Repr

variable {F : Type}

/-- A strategy: a pure function of the frame and the parameters. -/
abbrev Strategy (F : Type) : Type := List (Row F) → Dict ParamKey F → Except Exc Signal

/-- `signal in ("buy", "sell")`, with the side if it is. -/
def Signal.side : Signal → Except Exc (Option Side)
  | .buy => .ok (some .buy)
  | .sell => .ok (some .sell)
  | .close => .ok none
  | .other => .ok none
  | .ambiguous => .error (.valueError "The truth value of a DataFrame is ambiguous")

/-- `signal == "close"`. -/
def Signal.isClose : Signal → Except Exc Bool
  | .close => .ok true
  | .ambiguous => .error (.valueError "The truth value of a DataFrame is ambiguous")
  | _ => .ok false

-- ============================================================================
-- Cost models
-- ============================================================================

/-- `CommissionModel`; its `currency` is not used. -/
structure CommissionModel (F : Type) where
  commissionPerLot : F
  minCommission : F

structure SlippageModel (F : Type) where
  baseSlippage : F
  volatilityMultiplier : Bool

structure MarginModel (F : Type) where
  marginRates : AssetClass → Option F

/-- What pandas and numpy compute for `run`. -/
structure Libraries (F Statistics : Type) where
  /-- `sort_index`. -/
  sortIndex : List (Row F) → List (Row F)
  sortIndex_perm : ∀ rows, (sortIndex rows).Perm rows
  sortIndex_sorted : ∀ rows, (sortIndex rows).Pairwise fun row row' => row.time ≤ row'.time
  log1p : F → F
  /-- The statistics of an equity curve on its index and of the profits of the
      trades: returns, ratios, drawdowns, averages, monthly returns. -/
  statistics : List Time → List F → List F → Except Exc Statistics

section

variable [Prims F] [Add F] {Statistics : Type}

/-- `max(a, b)`. -/
def pyMax (a b : F) : F := if Prims.lt a b then b else a

def CommissionModel.calculate (c : CommissionModel F) (volume _price : F) : F :=
  pyMax c.minCommission (Prims.abs volume * c.commissionPerLot)

/-- `abs(float(volatility))` where the model widens by it and there is one, else 0. -/
def SlippageModel.widening (s : SlippageModel F) (volatility : Val F) : Except Exc F :=
  match s.volatilityMultiplier, volatility with
  | true, .none => .ok (Prims.ofRat 0)
  | true, v => v.toFloat.map Prims.abs
  | false, _ => .ok (Prims.ofRat 0)

def SlippageModel.calculate (s : SlippageModel F) (libs : Libraries F Statistics)
    (price volume : F) (volatility : Val F) : Except Exc F := do
  let mult := Prims.ofRat 1 + (← s.widening volatility)
  return price * s.baseSlippage * mult * libs.log1p (Prims.abs volume)

/-- `margin_rates["forex"]` is evaluated whether or not it is needed. -/
def MarginModel.calculateRequired (m : MarginModel F) (_symbol : String) (volume price : F)
    (assetClass : AssetClass := .forex) : Except Exc F :=
  match m.marginRates .forex with
  | none => .error (.keyError "forex")
  | some forex => .ok (Prims.abs (volume * price) * (m.marginRates assetClass).getD forex)

end

-- ============================================================================
-- The loop
-- ============================================================================

structure BacktestEngine (F : Type) where
  commissionModel : CommissionModel F
  slippageModel : SlippageModel F
  marginModel : MarginModel F

/-- `BacktestEngine()`, with the default of each model. -/
def BacktestEngine.default [Prims F] : BacktestEngine F where
  commissionModel := { commissionPerLot := Prims.ofRat 7, minCommission := Prims.ofRat 0 }
  slippageModel := { baseSlippage := Prims.ofRat (1 / 10000), volatilityMultiplier := true }
  marginModel :=
    { marginRates := fun
        | .forex => some (Prims.ofRat (1 / 50))
        | .indices => some (Prims.ofRat (1 / 20))
        | .commodities => some (Prims.ofRat (1 / 10))
        | .stocks => some (Prims.ofRat (1 / 5))
        | .other _ => none }

/-- The keyword arguments of `run` other than the strategy's. -/
structure Flags where
  commission : Bool := true
  slippage : Bool := true
  margin : Bool := true

/-- The dict `position`, with the row it was opened at. -/
structure Position (F : Type) where
  side : Side
  qty : F
  entry : F
  time : Time
  row : ℕ

/-- A dict of `trades`, with the rows of its two times. -/
structure Trade (F : Type) where
  entryTime : Time
  exitTime : Time
  side : Side
  entry : F
  exit : F
  qty : F
  pnl : F
  commission : F
  entryRow : ℕ
  exitRow : ℕ

/-- The variables of the loop. -/
structure Book (F : Type) where
  equity : F
  equityCurve : List F := []
  trades : List (Trade F) := []
  position : Option (Position F) := none

/-- `equity_curve.append(equity)`. -/
def Book.mark (b : Book F) : Book F := { b with equityCurve := b.equityCurve ++ [b.equity] }

section

variable [Prims F] [Add F] {Statistics : Type}

/-- `1 if side == "buy" else -1`. -/
def Side.sign : Side → F
  | .buy => Prims.ofRat 1
  | .sell => Prims.ofRat (-1)

/-- Add or take off the slippage, if it is on. -/
def slip (libs : Libraries F Statistics) (engine : BacktestEngine F) (flags : Flags) (row : Row F)
    (price qty : F) (apply : F → F) : Except Exc F := do
  if flags.slippage then
    let volatility := row.cells.getD .volatility .none
    return apply (← engine.slippageModel.calculate libs price qty volatility)
  else return price

/-- The trade that closes `position` at price `exit`, in row `i`. -/
def BacktestEngine.close (engine : BacktestEngine F) (flags : Flags) (position : Position F)
    (exit : F) (time : Time) (i : ℕ) : Trade F :=
  let gross := (exit - position.entry) * position.qty * position.side.sign
  let fee := if flags.commission then engine.commissionModel.calculate position.qty exit
    else Prims.ofRat 0
  { entryTime := position.time
    exitTime := time
    side := position.side
    entry := position.entry
    exit := exit
    qty := position.qty
    pnl := gross - fee
    commission := fee
    entryRow := position.row
    exitRow := i }

/-- The body of the loop, on the rows `seen` before this one. -/
def onRow (libs : Libraries F Statistics) (engine : BacktestEngine F) (strategy : Strategy F)
    (flags : Flags) (params : Dict ParamKey F) (seen : List (Row F)) (row : Row F) (b : Book F) :
    Except Exc (Book F) := do
  let signal ← strategy (seen ++ [row]) params
  let price ← (← row.cells.item .close).toFloat
  let _vol ← (row.cells.getD .volume (.float (Prims.ofRat 1))).toFloat
  match b.position with
  | none =>
      match ← signal.side with
      | some side =>
          let qty ← (params.getD .size (.float (Prims.ofRat 1))).toFloat
          let requiredMargin ← engine.marginModel.calculateRequired "SYMBOL" qty price
          if flags.margin && Prims.lt b.equity requiredMargin then return b.mark
          else
            let entry ← slip libs engine flags row price qty fun s => price + s * side.sign
            return ({ b with position := some ⟨side, qty, entry, row.time, seen.length⟩ }).mark
      | none => return b.mark
  | some position =>
      if ← signal.isClose then
        let exit ← slip libs engine flags row price position.qty
          fun s => price - s * position.side.sign
        let trade := engine.close flags position exit row.time seen.length
        return ({ b with
          equity := b.equity + trade.pnl, trades := b.trades ++ [trade], position := none }).mark
      else return b.mark

/-- `BacktestResult`. -/
structure BacktestResult (F Statistics : Type) where
  strategyId : Val F
  strategyName : Val F
  symbols : List (Val F)
  timeframe : Val F
  /-- The first and the last index value; the current time for an empty frame. -/
  startDate : Option Time
  endDate : Option Time
  initialCapital : F
  finalCapital : F
  totalReturn : F
  totalTrades : ℕ
  winningTrades : ℕ
  losingTrades : ℕ
  statistics : Statistics
  parameters : Dict ParamKey F
  equityCurve : List F
  trades : List (Trade F)
  optimizationIterations : ℤ

/-- `eq.iloc[-1] / initial_capital - 1`. -/
def totalReturn (equityCurve : List F) (initialCapital : F) : F :=
  match equityCurve.getLast? with
  | some last => last / initialCapital - Prims.ofRat 1
  | none => Prims.ofRat 0

/-- `BacktestEngine.run`; `strategyName` is the strategy's `__name__`. -/
def BacktestEngine.run (engine : BacktestEngine F) (libs : Libraries F Statistics)
    (strategy : Strategy F) (strategyName : String) (data : List (Row F)) (initialCapital : F)
    (flags : Flags) (params : Dict ParamKey F) : Except Exc (BacktestResult F Statistics) := do
  let df := libs.sortIndex data
  let b ← Loop.run (onRow libs engine strategy flags params) [] df { equity := initialCapital }
  let pnls := b.trades.map Trade.pnl
  let statistics ← libs.statistics (df.map Row.time) b.equityCurve pnls
  let optimizationIterations ← (params.getD .optimizationIterations (.int 0)).toInt
  return {
    strategyId := params.getD .strategyId (.str "unknown")
    strategyName := params.getD .strategyName (.str strategyName)
    symbols := [params.getD .symbol (.str "SYMBOL")]
    timeframe := params.getD .timeframe (.str "M1")
    startDate := df.head?.map Row.time
    endDate := df.getLast?.map Row.time
    initialCapital := initialCapital
    finalCapital := b.equityCurve.getLast?.getD initialCapital
    totalReturn := totalReturn b.equityCurve initialCapital
    totalTrades := b.trades.length
    winningTrades := (pnls.filter fun pnl => Prims.lt (Prims.ofRat 0) pnl).length
    losingTrades := (pnls.filter fun pnl => Prims.le pnl (Prims.ofRat 0)).length
    statistics := statistics
    parameters := params
    equityCurve := b.equityCurve
    trades := b.trades
    optimizationIterations := optimizationIterations }

-- ============================================================================
-- What a row can do
-- ============================================================================

/-- The effect of row number `i`, read at `time`, on the loop's variables: it appends
    one value to the equity curve, and opens or closes a position at most. -/
inductive RowEffect (i : ℕ) (time : Time) (b : Book F) : Book F → Prop
  | idle : RowEffect i time b b.mark
  | entry (p : Position F) (hnone : b.position = none) (hrow : p.row = i) (htime : p.time = time) :
      RowEffect i time b ({ b with position := some p }).mark
  | exit (p : Position F) (t : Trade F) (hsome : b.position = some p)
      (hentry : t.entryRow = p.row) (hexit : t.exitRow = i)
      (hentryTime : t.entryTime = p.time) (hexitTime : t.exitTime = time) :
      RowEffect i time b
        ({ b with equity := b.equity + t.pnl, trades := b.trades ++ [t], position := none }).mark

theorem onRow_effect {libs : Libraries F Statistics} {engine : BacktestEngine F}
    {strategy : Strategy F} {flags : Flags} {params : Dict ParamKey F} {seen : List (Row F)}
    {row : Row F} {b b' : Book F}
    (h : onRow libs engine strategy flags params seen row b = .ok b') :
    RowEffect seen.length row.time b b' := by
  unfold onRow at h
  obtain ⟨signal, -, h⟩ := bind_eq_ok.mp h
  obtain ⟨cell, -, h⟩ := bind_eq_ok.mp h
  obtain ⟨price, -, h⟩ := bind_eq_ok.mp h
  obtain ⟨vol, -, h⟩ := bind_eq_ok.mp h
  split at h
  next hnone =>
    obtain ⟨side, -, h⟩ := bind_eq_ok.mp h
    cases side with
    | none =>
        cases h
        exact .idle
    | some side =>
        obtain ⟨qty, -, h⟩ := bind_eq_ok.mp h
        obtain ⟨margin, -, h⟩ := bind_eq_ok.mp h
        split at h
        next =>
          cases h
          exact .idle
        next =>
          obtain ⟨entry, -, h⟩ := bind_eq_ok.mp h
          cases h
          exact .entry _ hnone rfl rfl
  next p hsome =>
    obtain ⟨closing, -, h⟩ := bind_eq_ok.mp h
    cases closing with
    | false =>
        cases h
        exact .idle
    | true =>
        obtain ⟨exit, -, h⟩ := bind_eq_ok.mp h
        cases h
        exact .exit p _ hsome rfl rfl rfl rfl

/-- What a run that returns has computed. -/
theorem BacktestEngine.run_eq_ok {libs : Libraries F Statistics} {engine : BacktestEngine F}
    {strategy : Strategy F} {strategyName : String} {data : List (Row F)} {initialCapital : F}
    {flags : Flags} {params : Dict ParamKey F} {res : BacktestResult F Statistics}
    (h : engine.run libs strategy strategyName data initialCapital flags params = .ok res) :
    ∃ b : Book F,
      Loop.run (onRow libs engine strategy flags params) [] (libs.sortIndex data)
          { equity := initialCapital } = .ok b ∧
        res.equityCurve = b.equityCurve ∧ res.trades = b.trades ∧
        res.finalCapital = b.equityCurve.getLast?.getD initialCapital := by
  unfold BacktestEngine.run at h
  obtain ⟨b, hloop, h⟩ := bind_eq_ok.mp h
  obtain ⟨statistics, -, h⟩ := bind_eq_ok.mp h
  obtain ⟨iterations, -, h⟩ := bind_eq_ok.mp h
  cases h
  exact ⟨b, hloop, rfl, rfl, rfl⟩

end

end Mtrader.Backtest
