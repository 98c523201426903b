/-
  Mtrader.Risk.Monitor

  `RiskEngine.monitor_positions`: one round of its loop, and when it has the connector
  close the positions.

  The threshold of a round is `max_percent` of the exposure itself (of 1 at least), so
  that a round closes whenever the exposure is above `max_percent`; the account's
  equity is not asked for.
-/

import Mtrader.Risk.Engine
import Mtrader.Coroutine.Exec
import Mtrader.Py.Exact
import Mathlib.Logic.Function.Basic

namespace Mtrader.Risk

open Coroutine Py Mtrader.Execution Mtrader.Connectors

variable {F : Type}

/-- What `monitor_positions` reads, writes and calls besides the engine's own operations. -/
inductive MonitorOp (F : Type)
  /-- `get_positions_callback(account_id)`. -/
  | getPositions (accountId : String)
  /-- `self._daily_loss_by_account[account_id]`, written and read. -/
  | setDailyLoss (accountId : String) (loss : F)
  | dailyLoss (accountId : String)
  /-- `notifier.notify`, with the number its text shows. -/
  | notify (accountId : String) (loss : F)

@[reducible] def MonitorOp.Ans {F : Type} : MonitorOp F → Type
  | .getPositions _ => List (Dict PositionKey F)
  | .setDailyLoss _ _ => Unit
  | .dailyLoss _ => F
  | .notify _ _ => Unit

abbrev MonitorAns (F : Type) : MonitorOp F ⊕ RiskOp F → Type :=
  Prog.SumAns (MonitorOp.Ans (F := F)) (RiskOp.Ans (F := F))

/-- The programs of the monitor. -/
abbrev MonitorM (F : Type) : Type → Type := Prog (MonitorAns F) Exc

abbrev monitor (e : MonitorOp F) : MonitorM F e.Ans := Prog.op (A := MonitorAns F) (Sum.inl e)

/-- One operation of the risk engine, in the monitor. -/
abbrev own (e : RiskOp F) : MonitorM F e.Ans := Prog.op (A := MonitorAns F) (Sum.inr e)

section

variable [Prims F] [Add F]

-- ============================================================================
-- Positions
-- ============================================================================

/-- `float(p.get("profit", 0) or 0)`. -/
def positionProfit (p : Dict PositionKey F) : Except Exc F :=
  ((p.getD .profit (.int 0)).orElse (.int 0)).toFloat

/-- `abs(volume * price)` of a position; the price is `price_current`, or
    `entry_price` where that key is absent. -/
def positionExposure (p : Dict PositionKey F) : Except Exc F := do
  let volume ← ((p.getD .volume (.int 0)).orElse (.int 0)).toFloat
  let price ← ((p.getD .priceCurrent (p.getD .entryPrice (.int 0))).orElse (.int 0)).toFloat
  return Prims.abs (volume * price)

/-- `sum(f(p) for p in positions)`, from `total` on. -/
def sumOver (f : Dict PositionKey F → Except Exc F) : F → List (Dict PositionKey F) → Except Exc F
  | total, [] => .ok total
  | total, p :: rest => do sumOver f (total + (← f p)) rest

/-- `total_pnl`. -/
def totalProfit (positions : List (Dict PositionKey F)) : Except Exc F :=
  sumOver positionProfit (Prims.ofRat 0) positions

/-- `exposure`. -/
def totalExposure (positions : List (Dict PositionKey F)) : Except Exc F :=
  sumOver positionExposure (Prims.ofRat 0) positions

-- ============================================================================
-- A round of the loop
-- ============================================================================

/-- `float(self.rules.get(MAX_POSITION_SIZE, default).parameters.get("max_percent", 0.05))`. -/
def maxPercent (rules : List (RiskRule F)) : Except Exc F :=
  match rules.find? (fun rule => rule.type = .maxPositionSize) with
  | some rule => (rule.parameters.getD .maxPercent (lit (5 / 100))).toFloat
  | none => (lit (5 / 100)).toFloat

/-- `max_percent * max(1.0, exposure)`. -/
def exposureThreshold (percent exposure : F) : F :=
  percent * if Prims.lt (Prims.ofRat 1) exposure then exposure else Prims.ofRat 1

/-- The incident of a round that has closed the positions. -/
def exposureIncident (accountId : String) (exposure : F) (now : Time) : Incident F where
  ruleType := RiskRuleType.maxExposure.value
  parameters := Dict.empty
  actualValues := fun k => if k = .exposure then some (.float exposure) else none
  orderId := .none
  accountId := accountId
  actionTaken := "position_reduced"
  createdAt := now

/-- What a round does about the exposure. -/
def reduceExposure (self : Wiring) (accountId : String) (positions : List (Dict PositionKey F))
    (exposure : F) : MonitorM F Unit := do
  if Prims.lt (Prims.ofRat 0) exposure && !positions.isEmpty then do
    let rules : List (RiskRule F) ← own .rules
    let percent ← Prog.ofExcept (maxPercent rules)
    if Prims.lt (exposureThreshold percent exposure) exposure then do
      if self.connector then
        let _ ← own .closeAllPositions
      let now ← own .utcnow
      (persistIncident self (exposureIncident accountId exposure now)).inr
    else return ()
  else return ()

/-- One round of `monitor_positions`. -/
def monitorRound (self : Wiring) (notifier : Bool) (accountId : String) : MonitorM F Unit := do
  let positions : List (Dict PositionKey F) ← monitor (.getPositions accountId)
  let totalPnl ← Prog.ofExcept (totalProfit positions)
  let loss := if Prims.lt (Prims.ofRat 0) totalPnl then Prims.ofRat 0 else totalPnl
  monitor (.setDailyLoss accountId (Prims.abs loss))
  let exposure ← Prog.ofExcept (totalExposure positions)
  reduceExposure self accountId positions exposure
  if notifier then
    let loss : F ← monitor (.dailyLoss accountId)
    if Prims.lt (Prims.ofRat 0) loss then
      monitor (.notify accountId loss)
  own (.sleep 2)

/-- `RiskEngine.monitor_positions`, stopped after some rounds. -/
def monitorPositions (self : Wiring) (notifier : Bool) (accountId : String) : ℕ → MonitorM F Unit
  | 0 => return ()
  | rounds + 1 => do
      monitorRound self notifier accountId
      monitorPositions self notifier accountId rounds

end

-- ============================================================================
-- When a round closes the positions
-- ============================================================================

/-- What a round reads: the positions, the rules, and the account the connector reports. -/
structure MonitorWorld (F : Type) where
  positions : List (Dict PositionKey F)
  rules : RuleSet F
  accountInfo : Dict AccountKey F
  dailyLoss : String → F

abbrev MonitorTrail (F : Type) : Type := Trail (MonitorWorld F) (MonitorAns F) Exc

/-- The callback and the engine's own fields answer; the other collaborators answer or
    raise as they like. -/
def monitorEnv (F : Type) : Env (MonitorWorld F) (MonitorAns F) Exc :=
  fun w e a w' =>
    match e, a with
    | .inl (.getPositions _), a => a = .ok w.positions ∧ w' = w
    | .inl (.setDailyLoss id loss), a =>
        a = .ok () ∧ w' = { w with dailyLoss := Function.update w.dailyLoss id loss }
    | .inl (.dailyLoss id), a => a = .ok (w.dailyLoss id) ∧ w' = w
    | .inr .rules, a => a = .ok w.rules.rules ∧ w' = w
    | _, _ => w' = w

/-- The call of `connector.close_all_positions`. -/
def closesAll : MonitorOp F ⊕ RiskOp F → Bool
  | .inr .closeAllPositions => true
  | _ => false

/-- The connector was told to close the positions. -/
def closedAll (log : List (Event (MonitorWorld F) (MonitorAns F) Exc)) : Bool :=
  log.any fun ev => closesAll ev.op

variable {self : Wiring} {accountId : String}

/-- Saving an incident closes nothing. -/
theorem persistIncident_closedAll {incident : Incident F} {closed : Bool} {t : MonitorTrail F}
    (ht : closedAll t.log = closed) :
    wp (monitorEnv F) (persistIncident self incident).inr (fun _ t' => closedAll t'.log = closed)
      t := by
  unfold persistIncident
  split
  next =>
    intro a w' _
    cases a with
    | ok _ => exact ht
    | error x => exact ht
  next => exact ht

variable [Prims F]

/-- The exposure is above the threshold of the round. -/
def aboveThreshold (percent exposure : F) (positions : List (Dict PositionKey F)) : Bool :=
  Prims.lt (Prims.ofRat 0) exposure && !positions.isEmpty &&
    Prims.lt (exposureThreshold percent exposure) exposure

/-- The positions are closed when the exposure is above the threshold and there is a
    connector. -/
theorem reduceExposure_closedAll {positions : List (Dict PositionKey F)} {percent exposure : F}
    {t : MonitorTrail F} (hpercent : maxPercent t.world.rules.rules = .ok percent)
    (ht : closedAll t.log = false) :
    wp (monitorEnv F) (reduceExposure self accountId positions exposure)
      (fun _ t' => closedAll t'.log =
        (self.connector && aboveThreshold percent exposure positions)) t := by
  unfold reduceExposure
  split
  swap
  next hflat =>
    have hbelow : aboveThreshold percent exposure positions = false := by
      rw [aboveThreshold, Bool.eq_false_iff.mpr hflat, Bool.false_and]
    rw [hbelow, Bool.and_false]
    exact ht
  next hopen =>
  refine wp_op_bind.mpr ⟨fun rules w' henv => ?_, fun x w' henv => by cases henv.1⟩
  obtain ⟨hrules, hw⟩ := henv
  cases hrules
  subst w'
  refine (wp_ofExcept_bind_of_ok hpercent).mpr ?_
  have habove : aboveThreshold percent exposure positions =
      Prims.lt (exposureThreshold percent exposure) exposure := by
    rw [aboveThreshold, hopen, Bool.true_and]
  rw [habove]
  split
  swap
  next hbelow =>
    rw [Bool.eq_false_iff.mpr hbelow, Bool.and_false]
    exact ht
  next hover =>
  rw [hover, Bool.and_true]
  have htail : ∀ {t : MonitorTrail F}, closedAll t.log = self.connector →
      wp (monitorEnv F) (do
        let now ← own .utcnow
        (persistIncident self (exposureIncident accountId exposure now)).inr)
        (fun _ t' => closedAll t'.log = self.connector) t := by
    intro t ht
    exact wp_op_bind.mpr ⟨fun now w' _ => persistIncident_closedAll ht, fun x w' _ => ht⟩
  split
  next hconn =>
    refine wp_op_bind.mpr ⟨fun _ w' _ => htail ?_, fun x w' _ => ?_⟩
    · rw [hconn]
      rfl
    · rw [hconn]
      rfl
  next hconn =>
    refine htail ?_
    rw [Bool.eq_false_iff.mpr hconn]
    exact ht

/-- The end of a round closes nothing. -/
theorem notify_closedAll (notifier : Bool) {closed : Bool} {t : MonitorTrail F}
    (ht : closedAll t.log = closed) :
    wp (monitorEnv F) (do
      if notifier then
        let loss : F ← monitor (.dailyLoss accountId)
        if Prims.lt (Prims.ofRat 0) loss then
          monitor (.notify accountId loss)
      own (.sleep 2)) (fun _ t' => closedAll t'.log = closed) t := by
  have hsleep : ∀ {t : MonitorTrail F}, closedAll t.log = closed →
      wp (monitorEnv F) (own (.sleep 2)) (fun _ t' => closedAll t'.log = closed) t :=
    fun ht => wp_op.mpr fun a w' _ => ht
  simp only
  split
  next =>
    refine wp_op_bind.mpr ⟨fun loss w' _ => ?_, fun x w' _ => ht⟩
    split
    next => exact wp_op_bind.mpr ⟨fun _ w' _ => hsleep ht, fun x w' _ => ht⟩
    next => exact hsleep ht
  next => exact hsleep ht

variable [Add F]

/-- A round closes the positions exactly when there is a connector, the profits are
    numbers and the exposure is above the threshold. -/
theorem monitorRound_closedAll (notifier : Bool) {w : MonitorWorld F} {percent exposure : F}
    (hpercent : maxPercent w.rules.rules = .ok percent)
    (hexposure : totalExposure w.positions = .ok exposure) :
    wp (monitorEnv F) (monitorRound self notifier accountId)
      (fun _ t' => closedAll t'.log = (self.connector && (totalProfit w.positions).isOk &&
        aboveThreshold percent exposure w.positions)) ⟨w, []⟩ := by
  refine wp_op_bind.mpr ⟨fun positions w' henv => ?_, fun x w' henv => by cases henv.1⟩
  obtain ⟨hpositions, hw⟩ := henv
  cases hpositions
  subst w'
  refine wp_ofExcept_bind.mpr ⟨fun totalPnl htotal => ?_, fun x htotal => ?_⟩
  swap
  · rw [show totalProfit w.positions = .error x from htotal]
    show false = (self.connector && false && aboveThreshold percent exposure w.positions)
    rw [Bool.and_false, Bool.false_and]
  have hok : (totalProfit w.positions).isOk = true := by
    rw [show totalProfit w.positions = .ok totalPnl from htotal]
    rfl
  rw [hok, Bool.and_true]
  refine wp_op_bind.mpr ⟨fun _ w' henv => ?_, fun x w' henv => by cases henv.1⟩
  obtain ⟨-, hw⟩ := henv
  have hrules : w'.rules = w.rules := by
    rw [hw]
    rfl
  refine (wp_ofExcept_bind_of_ok hexposure).mpr ?_
  have hpercent' : maxPercent w'.rules.rules = .ok percent := by
    rw [hrules]
    exact hpercent
  refine wp_seq (reduceExposure_closedAll hpercent' rfl) ?_ fun x t' ht' => ht'
  · exact fun _ t' ht' => notify_closedAll notifier ht'

-- ============================================================================
-- Against the account's equity
-- ============================================================================

/-- In exact arithmetic the threshold is passed when the exposure is above `max_percent`
    and that is below 1. -/
theorem aboveThreshold_iff {p x : ℚ} {positions : List (Dict PositionKey ℚ)} (hp : 0 < p)
    (hx : totalExposure positions = .ok x) :
    aboveThreshold p x positions = true ↔ p < 1 ∧ p < x := by
  have hmax : (if (1 : ℚ) < x then x else 1) = max x 1 := by
    rcases lt_or_ge 1 x with h | h
    · rw [if_pos h, max_eq_left h.le]
    · rw [if_neg h.not_gt, max_eq_right h]
  have habove : aboveThreshold p x positions = true ↔
      0 < x ∧ positions.isEmpty = false ∧ p * max x 1 < x := by
    simp [aboveThreshold, exposureThreshold, hmax, and_assoc]
  rw [habove]
  constructor
  · rintro ⟨hpos, -, hlt⟩
    constructor
    · have hle : p * x ≤ p * max x 1 := mul_le_mul_of_nonneg_left (le_max_left x 1) hp.le
      by_contra hge
      have hmul : 1 * x ≤ p * x := mul_le_mul_of_nonneg_right (not_lt.mp hge) hpos.le
      linarith
    · have hle : p * 1 ≤ p * max x 1 := mul_le_mul_of_nonneg_left (le_max_right x 1) hp.le
      linarith
  · rintro ⟨hlt, hpx⟩
    have hpos : 0 < x := hp.trans hpx
    refine ⟨hpos, ?_, ?_⟩
    · cases positions with
      | nil =>
          obtain rfl : (0 : ℚ) = x := Except.ok.inj hx
          exact absurd hpos (lt_irrefl 0)
      | cons q rest => rfl
    · rcases le_total x 1 with h | h
      · rw [max_eq_right h]
        linarith
      · rw [max_eq_left h]
        have hmul : p * x < 1 * x := mul_lt_mul_of_pos_right hlt hpos
        linarith

/-- A tenth of a lot at 1.1, on an account with an equity of 10000. -/
def smallPosition : MonitorWorld ℚ where
  positions := [fun
    | .profit => some (.int 0)
    | .volume => some (.float (1 / 10))
    | .priceCurrent => some (.float (11 / 10))
    | .entryPrice => none]
  rules := RuleSet.initial
  accountInfo := fun k => if k = .equity then some (.int 10000) else none
  dailyLoss := fun _ => 0

/-- The callback, the rules and the losses, and collaborators that all return. -/
def monitorAnswers : Answers (MonitorWorld ℚ) (MonitorAns ℚ) Exc :=
  fun w e =>
    match e with
    | .inl (.getPositions _) => (.ok w.positions, w)
    | .inl (.setDailyLoss id loss) =>
        (.ok (), { w with dailyLoss := Function.update w.dailyLoss id loss })
    | .inl (.dailyLoss id) => (.ok (w.dailyLoss id), w)
    | .inl (.notify _ _) => (.ok (), w)
    | .inr .killSwitch => (.ok false, w)
    | .inr (.setKillSwitch _) => (.ok (), w)
    | .inr .rules => (.ok w.rules.rules, w)
    | .inr .lastTradeTs => (.ok none, w)
    | .inr (.setLastTradeTs _) => (.ok (), w)
    | .inr .utcnow => (.ok 0, w)
    | .inr (.saveRiskIncident _) => (.ok (), w)
    | .inr .cancelAllOrders => (.ok (), w)
    | .inr .closeAllPositions => (.ok [], w)
    | .inr (.broadcast _ _) => (.ok (), w)
    | .inr .disableAllStrategies => (.ok (), w)
    | .inr (.sleep _) => (.ok (), w)

theorem monitorAnswers_sound (w : MonitorWorld ℚ) (e : MonitorOp ℚ ⊕ RiskOp ℚ) :
    monitorEnv ℚ w e (monitorAnswers w e).1 (monitorAnswers w e).2 := by
  rcases e with e | e
  · cases e with
    | notify id loss => exact rfl
    | _ => exact ⟨rfl, rfl⟩
  · cases e with
    | rules => exact ⟨rfl, rfl⟩
    | _ => exact rfl

/-- Where the connector reports an equity, the exposure `x` is above `p` times that. -/
def AboveEquity (w : MonitorWorld ℚ) (p x : ℚ) : Prop :=
  ∀ e, accountFloat w.accountInfo .equity = .ok e → 0 < e → p * e < x

/-- A position far below 5 percent of the equity is closed. -/
theorem monitorRound_closes_small :
    ¬ wp (monitorEnv ℚ) (monitorRound { connector := true } false "a1")
      (fun _ t' => closedAll t'.log = true → AboveEquity smallPosition (5 / 100) (11 / 100))
      ⟨smallPosition, []⟩ := by
  intro hwp
  have hplay := Prog.play_sound monitorAnswers_sound
    (monitorRound { connector := true } false "a1") ⟨smallPosition, []⟩
  have hclosed : closedAll ((monitorRound { connector := true } false "a1").play monitorAnswers
      ⟨smallPosition, []⟩).2.log = true := by
    decide +kernel
  have habove := hplay.sound hwp hclosed 10000 rfl (by norm_num)
  norm_num at habove

/-- A round closes the positions only if their exposure is above `p` times the equity
    exactly when there is no connector, a profit is no number, `p` is 1, the exposure is
    at most `p`, or it is above `p` times the equity. -/
theorem monitorRound_closes_iff (self : Wiring) (notifier : Bool) (accountId : String)
    (w : MonitorWorld ℚ) (p x : ℚ) (hp : maxPercent w.rules.rules = .ok p) (hp0 : 0 < p)
    (hp1 : p ≤ 1) (hx : totalExposure w.positions = .ok x) :
    wp (monitorEnv ℚ) (monitorRound self notifier accountId)
      (fun _ t' => (closedAll t'.log = true → AboveEquity w p x) ↔
        self.connector = false ∨ (totalProfit w.positions).isOk = false ∨ p = 1 ∨ x ≤ p ∨
          AboveEquity w p x) ⟨w, []⟩ := by
  refine wp_mono (monitorRound_closedAll notifier hp hx) fun out t' hclosed => ?_
  have hiff : closedAll t'.log = true ↔ self.connector = true ∧
      (totalProfit w.positions).isOk = true ∧ p < 1 ∧ p < x := by
    rw [hclosed, Bool.and_eq_true, Bool.and_eq_true, aboveThreshold_iff hp0 hx, and_assoc]
  rw [hiff]
  constructor
  · intro hclaim
    by_contra hcond
    simp only [not_or, Bool.not_eq_false, not_le] at hcond
    obtain ⟨hconn, hprofit, hone, habove, hbelow⟩ := hcond
    exact hbelow (hclaim ⟨hconn, hprofit, lt_of_le_of_ne hp1 hone, habove⟩)
  · rintro hcond ⟨hconn, hprofit, hone, habove⟩
    rcases hcond with h | h | h | h | h
    · rw [hconn] at h
      cases h
    · rw [hprofit] at h
      cases h
    · exact absurd h hone.ne
    · exact absurd habove h.not_gt
    · exact h

/-- The small position, with the rules of a new engine. -/
theorem monitorRound_closes_iff_small :
    wp (monitorEnv ℚ) (monitorRound { connector := true } false "a1")
      (fun _ t' => (closedAll t'.log = true → AboveEquity smallPosition (5 / 100) (11 / 100)) ↔
        ({ connector := true } : Wiring).connector = false ∨
          (totalProfit smallPosition.positions).isOk = false ∨ (5 / 100 : ℚ) = 1 ∨
          (11 / 100 : ℚ) ≤ 5 / 100 ∨ AboveEquity smallPosition (5 / 100) (11 / 100))
      ⟨smallPosition, []⟩ :=
  monitorRound_closes_iff _ _ _ smallPosition (5 / 100) (11 / 100) rfl (by norm_num)
    (by norm_num) (by decide +kernel)

end Mtrader.Risk
