/-
  Mtrader.Risk.Engine

  `RiskEngine` of `risk/engine.py`: the pre-trade check, the kill switch and its
  release, as programs over what the engine reads, writes and calls.

  The engine's own fields (`_kill_switch`, `rules`, `_last_trade_ts`) and its
  collaborators are operations; `Wiring` says which optional collaborators it
  was given.
-/

import Mtrader.Coroutine.Program
import Mtrader.Connectors.Broker
import Mtrader.Risk.Rules

namespace Mtrader.Risk

open Coroutine Py Mtrader.Execution Mtrader.Connectors

/-- The dict handed to `save_risk_incident`. -/
structure Incident (F : Type) where
  ruleType : String
  parameters : Dict ParamKey F
  actualValues : Dict ActualKey F
  orderId : Val F
  accountId : String
  actionTaken : String
  createdAt : Time
  triggeredBy : Option String := none
  severity : Option String := none

/-- What `RiskEngine` reads, writes and calls. -/
inductive RiskOp (F : Type)
  /-- `self._kill_switch`, read and written. -/
  | killSwitch
  | setKillSwitch (on : Bool)
  /-- `self.rules.values()`. -/
  | rules
  /-- `self._last_trade_ts`, read and written. -/
  | lastTradeTs
  | setLastTradeTs (t : Time)
  | utcnow
  | saveRiskIncident (incident : Incident F)
  | cancelAllOrders
  | closeAllPositions
  | broadcast (reason triggeredBy : String)
  | disableAllStrategies
  | sleep (seconds : ℕ)

/-- What the operations answer with. -/
@[reducible] def RiskOp.Ans {F : Type} : RiskOp F → Type
  | .killSwitch => Bool
  | .setKillSwitch _ => Unit
  | .rules => List (RiskRule F)
  | .lastTradeTs => Option Time
  | .setLastTradeTs _ => Unit
  | .utcnow => Time
  | .saveRiskIncident _ => Unit
  | .cancelAllOrders => Unit
  | .closeAllPositions => List (BrokerResponse F)
  | .broadcast _ _ => Unit
  | .disableAllStrategies => Unit
  | .sleep _ => Unit

/-- An `await` that waits for a collaborator; the engine's own fields and the clock
    are used without giving up the event loop. -/
def RiskOp.suspends {F : Type} : RiskOp F → Bool
  | .killSwitch | .setKillSwitch _ | .rules | .lastTradeTs | .setLastTradeTs _ | .utcnow => false
  | _ => true

/-- The optional collaborators of `RiskEngine.__init__` that were given. -/
structure Wiring where
  repository : Bool := false
  connector : Bool := false
  executionEngine : Bool := false
  broadcaster : Bool := false
  schedulerController : Bool := false
  deriving DecidableEq, Repr

/-- The programs of the risk engine. -/
abbrev RiskM (F : Type) : Type → Type := Prog (RiskOp.Ans (F := F)) Exc

variable {F : Type}

/-- One operation of the risk engine. -/
abbrev risk (e : RiskOp F) : RiskM F e.Ans := Prog.op e

/-- `RiskEngine._persist_incident`. -/
def persistIncident (self : Wiring) (incident : Incident F) : RiskM F Unit :=
  if self.repository then risk (.saveRiskIncident incident) else pure ()

variable [Prims F]

-- ============================================================================
-- pre_trade_check
-- ============================================================================

/-- The incident that a violated rule leaves. -/
def ruleIncident (order : OrderDict F) (rule : RiskRule F) (actualValues : Dict ActualKey F)
    (now : Time) : Incident F where
  ruleType := rule.type.value
  parameters := rule.parameters
  actualValues := actualValues
  orderId := order.get .id
  accountId := (order.getD .accountId (.str "unknown")).toStr
  actionTaken := if rule.hard then "reject" else "warning"
  createdAt := now

/-- The decision of a violated rule: a hard rule rejects, any other approves
    with a warning; either way the loop ends here. -/
def RiskRule.decision (rule : RiskRule F) : TradeApproval :=
  if rule.hard then
    { approved := false, reason := some rule.errorMessage, ruleViolated := some rule.type }
  else { approved := true, warning := some rule.errorMessage }

/-- The loop of `pre_trade_check` over the rules that are left. -/
def checkRules (self : Wiring) (order : OrderDict F) (accountInfo : Dict AccountKey F)
    (lastTradeTs : Option Time) (now : Time) : List (RiskRule F) → RiskM F TradeApproval
  | [] => do
      risk (.setLastTradeTs now)
      return { approved := true }
  | rule :: rest =>
      if !rule.enabled then checkRules self order accountInfo lastTradeTs now rest
      else do
        let (violated, actualValues) ← Prog.ofExcept (rule.evaluate accountInfo lastTradeTs now)
        if violated then do
          let createdAt ← risk .utcnow
          persistIncident self (ruleIncident order rule actualValues createdAt)
          return rule.decision
        else checkRules self order accountInfo lastTradeTs now rest

/-- `RiskEngine.pre_trade_check`; `positions` and `market_data` are not read. -/
def preTradeCheck (self : Wiring) (order : OrderDict F) (accountInfo : Dict AccountKey F)
    (_positions : List (Dict PositionKey F)) : RiskM F TradeApproval := do
  let killed : Bool ← risk .killSwitch
  if killed then
    return { approved := false, reason := some "Kill switch active" }
  else do
    let now ← risk .utcnow
    let lastTradeTs ← risk .lastTradeTs
    let rules ← risk .rules
    checkRules self order accountInfo lastTradeTs now rules

-- ============================================================================
-- kill_switch and release_kill_switch
-- ============================================================================

omit [Prims F]

/-- The body of the `try` in `kill_switch`. -/
def cancelAndClose (self : Wiring) : RiskM F Unit := do
  if self.executionEngine then
    risk .cancelAllOrders
  if self.connector then
    let _ ← risk .closeAllPositions

/-- The retry loop of `kill_switch`: `n` attempts are left. -/
def liquidate (self : Wiring) : ℕ → RiskM F Unit
  | 0 => pure ()
  | n + 1 => do
      match ← (cancelAndClose self).attempt with
      | .ok _ => pure ()
      | .error _ => do
          risk (.sleep 1)
          liquidate self n

/-- The incident that `kill_switch` leaves. -/
def killSwitchIncident (reason triggeredBy : String) (now : Time) : Incident F where
  ruleType := "KILL_SWITCH"
  parameters := fun k => if k = .reason then some (.str reason) else none
  actualValues := Dict.empty
  orderId := .none
  accountId := "global"
  actionTaken := "kill_switch"
  createdAt := now
  triggeredBy := some triggeredBy
  severity := some "CRITICAL"

/-- `RiskEngine.kill_switch`. -/
def killSwitch (self : Wiring) (reason triggeredBy : String) : RiskM F Unit := do
  risk (.setKillSwitch true)
  let now ← risk .utcnow
  persistIncident self (killSwitchIncident reason triggeredBy now)
  liquidate self 3
  if self.broadcaster then
    risk (.broadcast reason triggeredBy)
  if self.schedulerController then
    risk .disableAllStrategies

/-- `RiskEngine.release_kill_switch`. -/
def releaseKillSwitch (self : Wiring) : RiskM F Bool := do
  risk (.setKillSwitch false)
  let now ← risk .utcnow
  persistIncident self
    { ruleType := "KILL_SWITCH_RELEASE", parameters := Dict.empty, actualValues := Dict.empty,
      orderId := .none, accountId := "global", actionTaken := "warning", createdAt := now }
  return true

end Mtrader.Risk
