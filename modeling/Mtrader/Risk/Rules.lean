/-
  Mtrader.Risk.Rules

  The rules of `risk/engine.py`: the rule record, the insertion-ordered rule
  dict that `add_rule` and `remove_rule` change, and how the loop of
  `pre_trade_check` evaluates one rule.

  The rule dict is keyed by `rule.type`, so it is kept as its values in
  insertion order with the fact that no type occurs twice.
-/

import Mtrader.Execution.Order

namespace Mtrader.Risk

open Py Mtrader.Execution

inductive RiskRuleType
  | maxPositionSize | maxDrawdown | maxDailyLoss | maxLeverage | minTimeBetweenTrades
  | correlationLimit | maxSymbolConcentration | maxOpenPositions | maxOrderCount
  | maxExposure | stopLossRequired | takeProfitRequired | maxSpread | maxSlippage
  | tradingHoursOnly
  deriving DecidableEq, Repr

/-- `RiskRuleType.value`. -/
def RiskRuleType.value : RiskRuleType → String
  | .maxPositionSize => "MAX_POSITION_SIZE"
  | .maxDrawdown => "MAX_DRAWDOWN"
  | .maxDailyLoss => "MAX_DAILY_LOSS"
  | .maxLeverage => "MAX_LEVERAGE"
  | .minTimeBetweenTrades => "MIN_TIME_BETWEEN_TRADES"
  | .correlationLimit => "CORRELATION_LIMIT"
  | .maxSymbolConcentration => "MAX_SYMBOL_CONCENTRATION"
  | .maxOpenPositions => "MAX_OPEN_POSITIONS"
  | .maxOrderCount => "MAX_ORDER_COUNT"
  | .maxExposure => "MAX_EXPOSURE"
  | .stopLossRequired => "STOP_LOSS_REQUIRED"
  | .takeProfitRequired => "TAKE_PROFIT_REQUIRED"
  | .maxSpread => "MAX_SPREAD"
  | .maxSlippage => "MAX_SLIPPAGE"
  | .tradingHoursOnly => "TRADING_HOURS_ONLY"

/-- The keys of a rule's parameters and of an incident's `parameters`. -/
inductive ParamKey
  | maxPercent | maxDrawdown | maxDailyLoss | maxLeverage | seconds | reason
  deriving DecidableEq, Repr

/-- The keys of an incident's `actual_values`. -/
inductive ActualKey
  | drawdown | dailyLoss | secondsSinceLastTrade | exposure
  deriving DecidableEq, Repr

/-- The keys of the account dict that `get_account_info` returns. -/
inductive AccountKey
  | balance | equity | margin | freeMargin | marginLevel | profit | leverage | currency
  deriving DecidableEq, Repr

/-- The keys of a position row that the risk engine reads. -/
inductive PositionKey
  | profit | volume | priceCurrent | entryPrice
  deriving DecidableEq, Repr

/-- The dataclass `RiskRule`. -/
structure RiskRule (F : Type) where
  type : RiskRuleType
  parameters : Dict ParamKey F
  severity : String := "hard"
  enabled : Bool := true
  errorMessage : String := "Risk rule violated"

/-- The dataclass `TradeApproval`. -/
structure TradeApproval where
  approved : Bool
  reason : Option String := none
  ruleViolated : Option RiskRuleType := none
  warning : Option String := none
  deriving DecidableEq, Repr

variable {F : Type}

-- ============================================================================
-- The rule dict
-- ============================================================================

/-- `self.rules`: its values in insertion order, one for each type. -/
structure RuleSet (F : Type) where
  rules : List (RiskRule F)
  nodup : (rules.map RiskRule.type).Nodup

/-- `rules[rule.type] = rule`: an existing key keeps its place. -/
def setRule (rule : RiskRule F) : List (RiskRule F) → List (RiskRule F)
  | [] => [rule]
  | r :: rs => if r.type = rule.type then rule :: rs else r :: setRule rule rs

theorem setRule_types (rule : RiskRule F) (rs : List (RiskRule F)) :
    (setRule rule rs).map RiskRule.type
      = if rule.type ∈ rs.map RiskRule.type then rs.map RiskRule.type
        else rs.map RiskRule.type ++ [rule.type] := by
  induction rs with
  | nil => simp [setRule]
  | cons r rs ih =>
      by_cases h : r.type = rule.type
      · simp [setRule, h]
      · have hmem : rule.type ∈ (r :: rs).map RiskRule.type
            ↔ rule.type ∈ rs.map RiskRule.type := by
          simp [Ne.symm h]
        simp only [setRule, h, if_false, List.map_cons, ih]
        by_cases hin : rule.type ∈ rs.map RiskRule.type
        · rw [if_pos hin, if_pos (by simpa using hmem.mpr hin)]
        · rw [if_neg hin, if_neg (fun hc => hin (hmem.mp (by simpa using hc)))]
          rfl

/-- `RiskEngine.add_rule`. -/
def RuleSet.addRule (s : RuleSet F) (rule : RiskRule F) : RuleSet F where
  rules := setRule rule s.rules
  nodup := by
    rw [setRule_types]
    split
    next => exact s.nodup
    next h =>
      exact List.nodup_append.mpr ⟨s.nodup, by simp, by
        rintro a ha b hb rfl
        exact h (List.mem_singleton.mp hb ▸ ha)⟩

/-- `RiskEngine.remove_rule`. -/
def RuleSet.removeRule (s : RuleSet F) (type : RiskRuleType) : RuleSet F where
  rules := s.rules.filter fun r => r.type ≠ type
  nodup := s.nodup.sublist (List.filter_sublist.map RiskRule.type)

/-- One call that changes the rule dict. -/
inductive RuleCall (F : Type)
  | addRule (rule : RiskRule F)
  | removeRule (type : RiskRuleType)

/-- The rule dict after a call. -/
def RuleSet.call (s : RuleSet F) : RuleCall F → RuleSet F
  | .addRule rule => s.addRule rule
  | .removeRule type => s.removeRule type

variable [Prims F]

/-- A float literal. -/
def lit (q : ℚ) : Val F := .float (Prims.ofRat q)

/-- `{key: value}`. -/
def singleParam (key : ParamKey) (value : Val F) : Dict ParamKey F :=
  fun k => if k = key then some value else none

/-- The rules of a new engine. -/
def RuleSet.initial : RuleSet F where
  rules :=
    [{ type := .maxPositionSize
       parameters := singleParam .maxPercent (lit (5 / 100))
       errorMessage := "Max position size exceeded" },
     { type := .maxDrawdown
       parameters := singleParam .maxDrawdown (lit (2 / 10))
       errorMessage := "Max drawdown exceeded" },
     { type := .maxDailyLoss
       parameters := singleParam .maxDailyLoss (lit (1 / 10))
       errorMessage := "Max daily loss exceeded" },
     { type := .maxLeverage
       parameters := singleParam .maxLeverage (.int 50)
       errorMessage := "Max leverage exceeded" },
     { type := .minTimeBetweenTrades
       parameters := singleParam .seconds (.int 1)
       errorMessage := "Too many trades" }]
  nodup := by simp

/-- The rule dict of an engine after any `add_rule` and `remove_rule` calls. -/
def RuleSet.after (calls : List (RuleCall F)) : RuleSet F := calls.foldl RuleSet.call .initial

-- ============================================================================
-- One rule
-- ============================================================================

/-- `float(account_info.get(key, 0) or 0)`. -/
def accountFloat (accountInfo : Dict AccountKey F) (key : AccountKey) : Except Exc F :=
  ((accountInfo.getD key (.int 0)).orElse (.int 0)).toFloat

/-- `(a - b).total_seconds()`. -/
def totalSeconds (a b : Time) : F := Prims.ofRat ((a - b : ℤ) / 1000000)

/-- The body of the rule loop: `violated` and `actual_values`. -/
def RiskRule.evaluate (rule : RiskRule F) (accountInfo : Dict AccountKey F)
    (lastTradeTs : Option Time) (now : Time) : Except Exc (Bool × Dict ActualKey F) :=
  match rule.type, lastTradeTs with
  | .maxDrawdown, _ => do
      let bal ← accountFloat accountInfo .balance
      let eq ← accountFloat accountInfo .equity
      let dd : Val F := if Prims.lt (Prims.ofRat 0) bal then .float ((bal - eq) / bal) else .int 0
      let limit ← (rule.parameters.getD .maxDrawdown (lit (2 / 10))).toFloat
      return (Prims.lt limit (← dd.number), fun k => if k = .drawdown then some dd else none)
  | .maxDailyLoss, _ => do
      let bal ← accountFloat accountInfo .balance
      let pnl ← accountFloat accountInfo .profit
      let loss := if Prims.lt (Prims.ofRat 0) pnl then Prims.ofRat 0 else pnl
      let daily : Val F :=
        if Prims.lt (Prims.ofRat 0) bal then .float (Prims.abs loss / bal) else .int 0
      let limit ← (rule.parameters.getD .maxDailyLoss (lit (1 / 10))).toFloat
      return (Prims.lt limit (← daily.number), fun k => if k = .dailyLoss then some daily else none)
  | .minTimeBetweenTrades, some last => do
      let delta : F := totalSeconds now last
      let limit ← (rule.parameters.getD .seconds (.int 1)).toFloat
      return (Prims.lt delta limit,
        fun k => if k = .secondsSinceLastTrade then some (.float delta) else none)
  | _, _ => return (false, Dict.empty)

/-- The rule is violated as the loop computes it. -/
def RiskRule.violated (rule : RiskRule F) (accountInfo : Dict AccountKey F)
    (lastTradeTs : Option Time) (now : Time) : Bool :=
  match rule.evaluate accountInfo lastTradeTs now with
  | .ok (v, _) => v
  | .error _ => false

/-- `rule.severity == "hard"`. -/
def RiskRule.hard (rule : RiskRule F) : Bool := rule.severity == "hard"

end Mtrader.Risk
