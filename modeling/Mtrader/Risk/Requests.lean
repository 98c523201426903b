/-
  Mtrader.Risk.Requests

  One `RiskEngine` in use: any number of checks, kill switches, releases and monitors on one
  event loop.

  `Progress` sums up what one of them has done.  A check does not wait for anything between
  its look at the kill switch and its decision; only the incident of a violated rule is
  waited for, after the rule has decided.
-/

import Mtrader.Coroutine.Tally
import Mtrader.Risk.Monitor
import Mtrader.Risk.Throttle

namespace Mtrader.Risk

open Coroutine Py Mtrader.Execution

variable {F : Type}

-- ============================================================================
-- The coroutines
-- ============================================================================

/-- A coroutine that uses the engine. -/
inductive Request (F : Type)
  | check (args : CheckArgs F)
  | kill (reason triggeredBy : String)
  | release
  /-- A monitor that is stopped after some rounds. -/
  | monitor (accountId : String) (rounds : ℕ)

/-- What it returns. -/
inductive Reply
  | approval (approval : TradeApproval)
  | released (b : Bool)
  | done
  deriving DecidableEq

section

variable [Prims F] [Add F]

def Request.run (self : Wiring) (notifier : Bool) : Request F → MonitorM F Reply
  | .check args => do
      let approval ← (preTradeCheck self args.order args.accountInfo args.positions).inr
      return .approval approval
  | .kill reason triggeredBy => do
      (killSwitch self reason triggeredBy).inr
      return .done
  | .release => do
      let b ← (releaseKillSwitch self).inr
      return .released b
  | .monitor accountId rounds => do
      monitorPositions self notifier accountId rounds
      return .done

end

-- ============================================================================
-- The engine they share
-- ============================================================================

/-- The engine's fields. -/
structure Desk (F : Type) where
  killSwitch : Bool := false
  rules : RuleSet F
  lastTradeTs : Option Time := none
  /-- The last reading of the clock. -/
  clock : Time := 0
  dailyLoss : String → F

/-- The fields answer, and the clock does not go back.  Any `add_rule` and `remove_rule`
    calls may have come before a look at the rules.  The collaborators answer or raise as
    they like. -/
def deskEnv (F : Type) : Env (Desk F) (MonitorAns F) Exc :=
  fun w e a w' =>
    match e, a with
    | .inl (.setDailyLoss id loss), a =>
        a = .ok () ∧ w' = { w with dailyLoss := Function.update w.dailyLoss id loss }
    | .inl (.dailyLoss id), a => a = .ok (w.dailyLoss id) ∧ w' = w
    | .inr .killSwitch, a => a = .ok w.killSwitch ∧ w' = w
    | .inr (.setKillSwitch on), a => a = .ok () ∧ w' = { w with killSwitch := on }
    | .inr .rules, a =>
        ∃ calls : List (RuleCall F), w' = { w with rules := calls.foldl RuleSet.call w.rules } ∧
          a = .ok w'.rules.rules
    | .inr .lastTradeTs, a => a = .ok w.lastTradeTs ∧ w' = w
    | .inr (.setLastTradeTs t), a => a = .ok () ∧ w' = { w with lastTradeTs := some t }
    | .inr .utcnow, a => ∃ now, w.clock ≤ now ∧ a = .ok now ∧ w' = { w with clock := now }
    | _, _ => w' = w

/-- An `await` that waits. -/
def riskSuspends : MonitorOp F ⊕ RiskOp F → Bool
  | .inl (.getPositions _) => true
  | .inl (.notify _ _) => true
  | .inl _ => false
  | .inr e => e.suspends

abbrev DeskHistory (ι F : Type) : Type := History ι (Desk F) (MonitorAns F) Exc

section

variable [Prims F] [Add F]

def desk {ι : Type} (self : Wiring) (notifier : Bool) (requests : ι → Request F) (w : Desk F) :
    Config ι (Desk F) (MonitorAns F) Exc Reply where
  world := w
  pool i := (requests i).run self notifier

/-- A run of coroutines that use a new engine. -/
abbrev DeskRun {ι : Type} [DecidableEq ι] (self : Wiring) (notifier : Bool)
    (requests : ι → Request F) (w : Desk F) (h : DeskHistory ι F)
    (c : Config ι (Desk F) (MonitorAns F) Exc Reply) : Prop :=
  Run riskSuspends (fun _ => deskEnv F) (desk self notifier requests w) h c

end

-- ============================================================================
-- What one of them has done
-- ============================================================================

/-- What a coroutine has come to. -/
structure Progress (F : Type) where
  /-- What the kill switch was when it looked. -/
  killed : Option Bool := none
  /-- Its readings of the clock, newest first. -/
  times : List Time := []
  lastTradeTs : Option (Option Time) := none
  rules : Option (List (RiskRule F)) := none
  /-- What it has recorded as the last trade. -/
  recorded : Option Time := none
  /-- What it has set the kill switch to. -/
  switched : Option Bool := none
  /-- The incidents whose save has returned, newest first. -/
  saved : List (Incident F) := []
  /-- How often the positions have been closed. -/
  closed : ℕ := 0

def Progress.next (p : Progress F) (e : MonitorOp F ⊕ RiskOp F)
    (a : Except Exc (MonitorAns F e)) : Progress F :=
  match e, a with
  | .inr .killSwitch, .ok killed => { p with killed := some killed }
  | .inr .utcnow, .ok now => { p with times := now :: p.times }
  | .inr .lastTradeTs, .ok last => { p with lastTradeTs := some last }
  | .inr .rules, .ok rules => { p with rules := some rules }
  | .inr (.setLastTradeTs t), .ok _ => { p with recorded := some t }
  | .inr (.setKillSwitch on), .ok _ => { p with switched := some on }
  | .inr (.saveRiskIncident incident), .ok _ => { p with saved := incident :: p.saved }
  | .inr .closeAllPositions, .ok _ => { p with closed := p.closed + 1 }
  | _, _ => p

/-- The incident whose save has returned. -/
def savedIncident (e : MonitorOp F ⊕ RiskOp F) (a : Except Exc (MonitorAns F e)) :
    Option (Incident F) :=
  match e, a with
  | .inr (.saveRiskIncident incident), .ok _ => some incident
  | _, _ => none

/-- The incidents that coroutine `i` has saved, newest first. -/
def incidentsOf {ι : Type} [DecidableEq ι] (i : ι) (h : DeskHistory ι F) : List (Incident F) :=
  h.filterMap fun entry =>
    if entry.1 = i then savedIncident entry.2.op entry.2.ans else none

/-- What the operation does about the market, or who it tells. -/
def acts : MonitorOp F ⊕ RiskOp F → Bool
  | .inr .cancelAllOrders | .inr .closeAllPositions | .inr (.broadcast _ _)
  | .inr .disableAllStrategies => true
  | _ => false

/-- The positions have been closed. -/
def hasClosed (ev : Event (Desk F) (MonitorAns F) Exc) : Bool := closesAll ev.op && ev.ans.isOk

theorem Progress.saved_next (p : Progress F) (e : MonitorOp F ⊕ RiskOp F)
    (a : Except Exc (MonitorAns F e)) :
    (p.next e a).saved = (savedIncident e a).toList ++ p.saved := by
  rcases e with e | e
  · rfl
  · cases e <;> rcases a with _ | _ <;> rfl

theorem Progress.closed_next (p : Progress F) (w : Desk F) (e : MonitorOp F ⊕ RiskOp F)
    (a : Except Exc (MonitorAns F e)) :
    (p.next e a).closed = p.closed + if hasClosed ⟨w, e, a⟩ then 1 else 0 := by
  rcases e with e | e
  · cases e <;> rfl
  · cases e <;> rcases a with _ | _ <;> rfl

section

variable {ι : Type} [DecidableEq ι] {i j : ι} {h : DeskHistory ι F}
variable {ev : Event (Desk F) (MonitorAns F) Exc}

theorem incidentsOf_self :
    incidentsOf i ((i, ev) :: h) = (savedIncident ev.op ev.ans).toList ++ incidentsOf i h := by
  unfold incidentsOf
  rw [List.filterMap_cons, if_pos rfl]
  cases savedIncident ev.op ev.ans <;> rfl

theorem incidentsOf_other (hne : j ≠ i) : incidentsOf i ((j, ev) :: h) = incidentsOf i h := by
  simp [incidentsOf, hne]

end

/-- A check that has looked at the clock, the last trade and the rules. -/
def looked (now : Time) (lastTradeTs : Option Time) (rules : List (RiskRule F)) : Progress F :=
  { killed := some false, times := [now], lastTradeTs := some lastTradeTs, rules := some rules }

/-- The coroutine has switched the engine off or on, and has looked at the clock. -/
def flipped (on : Bool) (now : Time) : Progress F := { switched := some on, times := [now] }

/-- The incident of `release_kill_switch`. -/
def releaseIncident (now : Time) : Incident F where
  ruleType := "KILL_SWITCH_RELEASE"
  parameters := Dict.empty
  actualValues := Dict.empty
  orderId := .none
  accountId := "global"
  actionTaken := "warning"
  createdAt := now

/-- The kill switch is on, and its incident has been saved if it is to be. -/
def Killed (self : Wiring) (reason triggeredBy : String) (p : Progress F) : Prop :=
  p.switched = some true ∧ ∃ now, p.times = [now] ∧
    p.saved = if self.repository then [killSwitchIncident reason triggeredBy now] else []

/-- What a coroutine that sets the kill switch may do next; `acts` are what comes after
    the incident. -/
def flipMay (self : Wiring) (on : Bool) (incident : Time → Incident F) (acts : Prop)
    (p : Progress F) : RiskOp F → Prop
  | .setKillSwitch b => b = on ∧ p = {}
  | .utcnow => p = { switched := some on }
  | .saveRiskIncident saved => self.repository ∧ ∃ now, p = flipped on now ∧ saved = incident now
  | .cancelAllOrders | .closeAllPositions | .sleep _ | .broadcast _ _ | .disableAllStrategies =>
      acts
  | _ => False

/-- What a monitor may do next. -/
def monitorMay (self : Wiring) (accountId : String) (p : Progress F) :
    MonitorOp F ⊕ RiskOp F → Prop
  | .inr (.saveRiskIncident incident) => self.repository ∧
      (∃ exposure now, incident = exposureIncident accountId exposure now) ∧
        (self.connector → p.saved.length < p.closed)
  | .inr .rules | .inr .closeAllPositions | .inr .utcnow | .inr (.sleep _) => True
  | .inr _ => False
  | .inl _ => True

/-- Every incident of a monitor has closed the positions before. -/
def Covered (self : Wiring) (p : Progress F) : Prop := self.connector → p.saved.length ≤ p.closed

variable [Prims F]

/-- The first rule that the loop does not get past is violated. -/
structure Violated (args : CheckArgs F) (now : Time) (lastTradeTs : Option Time)
    (rules : List (RiskRule F)) (rule : RiskRule F) (actualValues : Dict ActualKey F) : Prop where
  find : rules.find? (fun r => r.stops args.accountInfo lastTradeTs now) = some rule
  eval : rule.evaluate args.accountInfo lastTradeTs now = .ok (true, actualValues)

/-- What a check may do next. -/
def checkMay (self : Wiring) (args : CheckArgs F) (p : Progress F) : RiskOp F → Prop
  | .killSwitch => p = {}
  | .utcnow => p = { killed := some false } ∨ ∃ now last rules rule actualValues,
      p = looked now last rules ∧ Violated args now last rules rule actualValues
  | .lastTradeTs => ∃ now, p = { killed := some false, times := [now] }
  | .rules => ∃ now last, p = { killed := some false, times := [now], lastTradeTs := some last }
  | .setLastTradeTs now => ∃ last rules, p = looked now last rules ∧
      ∀ rule ∈ rules, rule.stops args.accountInfo last now = false
  | .saveRiskIncident incident => self.repository ∧
      ∃ now last rules rule actualValues createdAt,
        p = { looked now last rules with times := [createdAt, now] } ∧
          Violated args now last rules rule actualValues ∧
            incident = ruleIncident args.order rule actualValues createdAt
  | _ => False

/-- What a coroutine may do next. -/
def Request.may (self : Wiring) : Request F → Progress F → MonitorOp F ⊕ RiskOp F → Prop
  | .check args, p, .inr e => checkMay self args p e
  | .kill reason triggeredBy, p, .inr e =>
      flipMay self true (killSwitchIncident reason triggeredBy) (Killed self reason triggeredBy p)
        p e
  | .release, p, .inr e => flipMay self false releaseIncident False p e
  | .monitor accountId _, p, e => monitorMay self accountId p e
  | _, _, .inl _ => False

def Request.protocol (self : Wiring) (request : Request F) :
    Discipline (MonitorAns F) Exc (Progress F) where
  may := request.may self
  next := Progress.next

-- ============================================================================
-- How they end
-- ============================================================================

/-- How a check ends. -/
inductive CheckEnd (self : Wiring) (args : CheckArgs F) :
    Except Exc TradeApproval → Progress F → Prop
  | killed :
      CheckEnd self args (.ok { approved := false, reason := some "Kill switch active" })
        { killed := some true }
  | passed {now : Time} {last : Option Time} {rules : List (RiskRule F)}
      (hpass : ∀ rule ∈ rules, rule.stops args.accountInfo last now = false) :
      CheckEnd self args (.ok { approved := true })
        { looked now last rules with recorded := some now }
  | stopped {now createdAt : Time} {last : Option Time} {rules : List (RiskRule F)}
      {rule : RiskRule F} {actualValues : Dict ActualKey F}
      (hviolated : Violated args now last rules rule actualValues) :
      CheckEnd self args (.ok rule.decision)
        { looked now last rules with
          times := [createdAt, now],
          saved := if self.repository
            then [ruleIncident args.order rule actualValues createdAt] else [] }
  | failed {x : Exc} {p : Progress F} (hsaved : p.saved = []) (hrecorded : p.recorded = none)
      (hkilled : p.killed ≠ some true) : CheckEnd self args (.error x) p

/-- How a coroutine ends that sets the kill switch: its incident has been saved, or it has
    raised before. -/
def FlipEnd {R : Type} (self : Wiring) (incident : Time → Incident F) (out : Except Exc R)
    (p : Progress F) : Prop :=
  (∃ x, out = .error x) ∧ p.saved = [] ∨
    ∃ now, p.saved = if self.repository then [incident now] else []

/-- How a coroutine ends. -/
def Request.End (self : Wiring) : Request F → Except Exc Reply → Progress F → Prop
  | .check args, out, p => ∃ out', out = Except.map Reply.approval out' ∧ CheckEnd self args out' p
  | .kill reason triggeredBy, out, p => FlipEnd self (killSwitchIncident reason triggeredBy) out p
  | .release, out, p => FlipEnd self releaseIncident out p
  | .monitor _ _, _, p => Covered self p

-- ============================================================================
-- Two coroutines
-- ============================================================================

/-- All is well, and the clock moves on by `pause` microseconds at each look. -/
def deskAnswers (pause : ℕ) (w : Desk ℚ) : (e : MonitorOp ℚ ⊕ RiskOp ℚ) →
    Option (Except Exc (MonitorAns ℚ e) × Desk ℚ)
  | .inl (.getPositions _) => some (.ok [], w)
  | .inl (.setDailyLoss id loss) =>
      some (.ok (), { w with dailyLoss := Function.update w.dailyLoss id loss })
  | .inl (.dailyLoss id) => some (.ok (w.dailyLoss id), w)
  | .inl (.notify _ _) => some (.ok (), w)
  | .inr .killSwitch => some (.ok w.killSwitch, w)
  | .inr (.setKillSwitch on) => some (.ok (), { w with killSwitch := on })
  | .inr .rules => some (.ok w.rules.rules, w)
  | .inr .lastTradeTs => some (.ok w.lastTradeTs, w)
  | .inr (.setLastTradeTs t) => some (.ok (), { w with lastTradeTs := some t })
  | .inr .utcnow => some (.ok (w.clock + pause), { w with clock := w.clock + pause })
  | .inr (.saveRiskIncident _) => some (.ok (), w)
  | .inr .cancelAllOrders => some (.ok (), w)
  | .inr .closeAllPositions => some (.ok [], w)
  | .inr (.broadcast _ _) => some (.ok (), w)
  | .inr .disableAllStrategies => some (.ok (), w)
  | .inr (.sleep _) => some (.ok (), w)

theorem deskAnswers_sound (pause : ℕ) {κ : Type} (_ : κ) (w : Desk ℚ)
    (e : MonitorOp ℚ ⊕ RiskOp ℚ) (a : Except Exc (MonitorAns ℚ e)) (w' : Desk ℚ)
    (h : deskAnswers pause w e = some (a, w')) :
    deskEnv ℚ w e a w' := by
  rcases e with e | e
  · cases e <;> cases h <;> first | exact ⟨rfl, rfl⟩ | rfl
  · cases e with
    | utcnow =>
        cases h
        exact ⟨w.clock + pause, Int.le.intro pause rfl, rfl, rfl⟩
    | rules =>
        cases h
        exact ⟨[], rfl, rfl⟩
    | _ =>
        cases h
        first | exact ⟨rfl, rfl⟩ | rfl

/-- A new engine. -/
def newDesk : Desk ℚ where
  rules := .initial
  dailyLoss _ := 0

/-- The approval that a check has returned. -/
def approvalOf : MonitorM ℚ Reply → Option TradeApproval
  | .ret (.approval approval) => some approval
  | _ => none

theorem eq_ret_of_approvalOf {q : MonitorM ℚ Reply} {approval : TradeApproval}
    (h : approvalOf q = some approval) : q = .ret (.approval approval) := by
  cases q with
  | ret reply =>
      cases reply with
      | approval approval' =>
          cases h
          rfl
      | released b => cases h
      | done => cases h
  | raise x => cases h
  | call e k => cases h

/-- A check of an order of a losing account, and a kill switch. -/
def checkAndKill : Bool → Request ℚ
  | true => .check lossyCheck
  | false => .kill "drawdown" "risk desk"

/-- A check, and a second one or a kill switch that comes after it. -/
def calmThen (request : Request ℚ) : Bool → Request ℚ
  | true => .check calmCheck
  | false => request

end Mtrader.Risk
