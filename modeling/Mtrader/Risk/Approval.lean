/-
  Mtrader.Risk.Approval

  What an approval of `pre_trade_check` says about the account.

  With hard rules only, an order is approved when no rule stops the loop.  The
  drawdown and the daily loss are ratios of the balance, and an account whose balance
  is zero, negative or unknown has a drawdown and a loss of 0: its orders pass both
  limits.
-/

import Mtrader.Risk.Decision
import Mtrader.Py.Exact
import Mathlib.Tactic.Linarith
import Mathlib.Data.List.Nodup

namespace Mtrader.Risk

open Coroutine Py Mtrader.Execution

variable {F : Type}

/-- `approved=True` was returned. -/
def Approved (out : Except Exc TradeApproval) : Prop :=
  ∃ approval, out = .ok approval ∧ approval.approved = true

theorem not_approved_error {x : Exc} : ¬ Approved (.error x) := by
  rintro ⟨approval, h, -⟩
  cases h

theorem approved_ok {approval : TradeApproval} :
    Approved (.ok approval) ↔ approval.approved = true := by
  constructor
  · rintro ⟨_, h, happroved⟩
    cases h
    exact happroved
  · exact fun h => ⟨approval, rfl, h⟩

instance (out : Except Exc TradeApproval) : Decidable (Approved out) :=
  match out with
  | .ok _ => decidable_of_iff _ approved_ok.symm
  | .error _ => isFalse not_approved_error

variable [Prims F]

-- ============================================================================
-- How a check ends
-- ============================================================================

/-- The end of a check that began in world `w`: the kill switch refuses, no rule stops
    the loop, or the first one that does decides.  Only the second way records the time. -/
inductive Decided (w : RiskWorld F) (accountInfo : Dict AccountKey F) :
    Except Exc TradeApproval → RiskWorld F → Prop
  | killed {w' : RiskWorld F} (hon : w.killSwitch = true) (hlast : w'.lastTradeTs = w.lastTradeTs) :
      Decided w accountInfo (.ok { approved := false, reason := some "Kill switch active" }) w'
  | passed {w' : RiskWorld F} (hoff : w.killSwitch = false)
      (hpass : ∀ rule ∈ w.rules.rules, rule.stops accountInfo w.lastTradeTs w.clock = false)
      (hlast : w'.lastTradeTs = some w.clock) :
      Decided w accountInfo (.ok { approved := true }) w'
  | stopped {rule : RiskRule F} {out : Except Exc TradeApproval} {w' : RiskWorld F}
      (hoff : w.killSwitch = false)
      (hfind : w.rules.rules.find? (fun r => r.stops accountInfo w.lastTradeTs w.clock) = some rule)
      (hout : ∀ approval, out = .ok approval →
        approval = rule.decision ∧ rule.violated accountInfo w.lastTradeTs w.clock = true)
      (hlast : w'.lastTradeTs = w.lastTradeTs) : Decided w accountInfo out w'

omit [Prims F] in
/-- The first rule that stops the loop, behind rules that do not. -/
theorem find?_append_stops {before rest : List (RiskRule F)} {rule : RiskRule F}
    {stops : RiskRule F → Bool} (hbefore : ∀ r ∈ before, stops r = false)
    (hstops : stops rule = true) : (before ++ rule :: rest).find? stops = some rule := by
  have hnone : before.find? stops = none := by simpa using hbefore
  rw [List.find?_append, hnone, Option.none_or]
  exact List.find?_cons_of_pos hstops

/-- A violated rule saves its incident and decides. -/
theorem violatedRule_decided {self : Wiring} {order : OrderDict F} {w : RiskWorld F}
    {accountInfo : Dict AccountKey F} (hoff : w.killSwitch = false) {rule : RiskRule F}
    {actualValues : Dict ActualKey F}
    (hfind : w.rules.rules.find? (fun r => r.stops accountInfo w.lastTradeTs w.clock) = some rule)
    (hviolated : rule.violated accountInfo w.lastTradeTs w.clock = true)
    {t : Trail (RiskWorld F) (RiskOp.Ans (F := F)) Exc}
    (ht : t.world.lastTradeTs = w.lastTradeTs) :
    wp (riskEnv F) (do
        let createdAt ← risk .utcnow
        persistIncident self (ruleIncident order rule actualValues createdAt)
        return rule.decision)
      (fun out t' => Decided w accountInfo out t'.world) t := by
  refine wp_op_bind.mpr ⟨fun createdAt w' henv => ?_, fun x w' henv => by cases henv.1⟩
  obtain ⟨-, clock, rfl⟩ := henv
  refine wp_bind.mpr (persistIncident_wp (fun t' hsame _ => ?_) fun x t' hsame _ _ => ?_)
  · refine .stopped hoff hfind (fun approval h => ?_) (by rw [hsame]; exact ht)
    cases h
    exact ⟨rfl, hviolated⟩
  · exact .stopped hoff hfind (fun approval h => by cases h) (by rw [hsame]; exact ht)

/-- The loop over rules that follow others that did not stop it. -/
theorem checkRules_decided (self : Wiring) (order : OrderDict F) {w : RiskWorld F}
    {accountInfo : Dict AccountKey F} (hoff : w.killSwitch = false)
    {before rules : List (RiskRule F)} (hsplit : w.rules.rules = before ++ rules)
    (hbefore : ∀ rule ∈ before, rule.stops accountInfo w.lastTradeTs w.clock = false)
    {t : Trail (RiskWorld F) (RiskOp.Ans (F := F)) Exc}
    (ht : t.world.lastTradeTs = w.lastTradeTs) :
    wp (riskEnv F) (checkRules self order accountInfo w.lastTradeTs w.clock rules)
      (fun out t' => Decided w accountInfo out t'.world) t := by
  induction rules generalizing before with
  | nil =>
      refine wp_op_bind.mpr ⟨fun _ w' henv => ?_, fun x w' henv => by cases henv.1⟩
      refine .passed hoff ?_ (by rw [Trail.record_world, henv.2])
      rw [hsplit, List.append_nil]
      exact hbefore
  | cons rule rest ih =>
      have hskip : rule.stops accountInfo w.lastTradeTs w.clock = false →
          wp (riskEnv F) (checkRules self order accountInfo w.lastTradeTs w.clock rest)
            (fun out t' => Decided w accountInfo out t'.world) t := by
        intro hstops
        refine ih (by rw [hsplit, List.append_cons]) ?_
        intro r hr
        rcases List.mem_append.mp hr with hr | hr
        · exact hbefore r hr
        · rw [List.mem_singleton.mp hr]
          exact hstops
      have hfound : rule.stops accountInfo w.lastTradeTs w.clock = true →
          w.rules.rules.find? (fun r => r.stops accountInfo w.lastTradeTs w.clock) = some rule := by
        intro hstops
        rw [hsplit]
        exact find?_append_stops hbefore hstops
      unfold checkRules
      by_cases henabled : rule.enabled = true
      swap
      · have hstops : rule.stops accountInfo w.lastTradeTs w.clock = false := by
          simp [RiskRule.stops, henabled]
        simpa [henabled] using hskip hstops
      simp only [henabled, Bool.not_true, Bool.false_eq_true, if_false]
      refine wp_ofExcept_bind.mpr ⟨fun evaluation heval => ?_, fun x heval => ?_⟩
      swap
      · have hstops : rule.stops accountInfo w.lastTradeTs w.clock = true := by
          simp [RiskRule.stops, henabled, heval]
        exact .stopped hoff (hfound hstops) (fun approval h => by cases h) ht
      obtain ⟨violated, actualValues⟩ := evaluation
      cases violated with
      | false => exact hskip (by simp [RiskRule.stops, heval])
      | true =>
          have hstops : rule.stops accountInfo w.lastTradeTs w.clock = true := by
            simp [RiskRule.stops, henabled, heval]
          have hviolated : rule.violated accountInfo w.lastTradeTs w.clock = true := by
            simp [RiskRule.violated, heval]
          exact violatedRule_decided hoff (hfound hstops) hviolated ht

/-- Every check ends in one of the three ways. -/
theorem preTradeCheck_decided (self : Wiring) (order : OrderDict F)
    (accountInfo : Dict AccountKey F) (positions : List (Dict PositionKey F)) (w : RiskWorld F) :
    wp (riskEnv F) (preTradeCheck self order accountInfo positions)
      (fun out t' => Decided w accountInfo out t'.world) ⟨w, []⟩ := by
  refine wp_op_bind.mpr ⟨fun killed w' henv => ?_, fun x w' henv => by cases henv.1⟩
  obtain ⟨hkilled, hw⟩ := henv
  cases hkilled
  subst w'
  split
  next hon => exact .killed hon rfl
  next hoff =>
    have hoff : w.killSwitch = false := by simpa using hoff
    refine wp_op_bind.mpr ⟨fun now w' henv => ?_, fun x w' henv => by cases henv.1⟩
    obtain ⟨hnow, clock, hw⟩ := henv
    cases hnow
    subst w'
    refine wp_op_bind.mpr ⟨fun last w' henv => ?_, fun x w' henv => by cases henv.1⟩
    obtain ⟨hlast, hw⟩ := henv
    cases hlast
    subst w'
    refine wp_op_bind.mpr ⟨fun rules w' henv => ?_, fun x w' henv => by cases henv.1⟩
    obtain ⟨hrules, hw⟩ := henv
    cases hrules
    subst w'
    have hnone : ∀ rule ∈ ([] : List (RiskRule F)),
        rule.stops accountInfo w.lastTradeTs w.clock = false := by simp
    exact checkRules_decided self order hoff rfl hnone rfl

/-- With hard rules only, a check approves exactly when the kill switch is off and no
    rule stops the loop. -/
theorem Decided.approved_iff {w w' : RiskWorld F} {accountInfo : Dict AccountKey F}
    {out : Except Exc TradeApproval} (h : Decided w accountInfo out w')
    (hhard : ∀ rule ∈ w.rules.rules, rule.hard = true) :
    Approved out ↔ w.killSwitch = false ∧
      ∀ rule ∈ w.rules.rules, rule.stops accountInfo w.lastTradeTs w.clock = false := by
  cases h with
  | killed hon hlast => simp [approved_ok, hon]
  | passed hoff hpass hlast => simpa [approved_ok, hoff] using hpass
  | @stopped rule _ _ hoff hfind hout hlast =>
      constructor
      · rintro ⟨approval, rfl, happroved⟩
        obtain ⟨rfl, -⟩ := hout approval rfl
        have hrule : rule.hard = true := hhard rule (List.mem_of_find?_eq_some hfind)
        simp [RiskRule.decision, hrule] at happroved
      · rintro ⟨-, hpass⟩
        have hstops := List.find?_some hfind
        simp [hpass rule (List.mem_of_find?_eq_some hfind)] at hstops

-- ============================================================================
-- The rules one by one
-- ============================================================================

/-- `float(rule.parameters.get(…))` as the loop reads it for the rule's type. -/
def RiskRule.limit (rule : RiskRule F) : Except Exc F :=
  match rule.type with
  | .maxDrawdown => (rule.parameters.getD .maxDrawdown (lit (2 / 10))).toFloat
  | .maxDailyLoss => (rule.parameters.getD .maxDailyLoss (lit (1 / 10))).toFloat
  | _ => (rule.parameters.getD .seconds (.int 1)).toFloat

/-- The throttle rule lets a check at `now` pass. -/
def RiskRule.spaced (rule : RiskRule F) (lastTradeTs : Option Time) (now : Time) : Prop :=
  ∀ last, lastTradeTs = some last →
    ∃ s, rule.limit = .ok s ∧ Prims.lt (totalSeconds now last) s = false

omit [Prims F] in
/-- There is one rule of a type. -/
theorem RuleSet.eq_of_type {rules : RuleSet F} {r r' : RiskRule F} (hr : r ∈ rules.rules)
    (hr' : r' ∈ rules.rules) (htype : r.type = r'.type) : r = r' :=
  List.inj_on_of_nodup_map rules.nodup hr hr' htype

theorem stops_minTime {rule : RiskRule F} {accountInfo : Dict AccountKey F}
    {lastTradeTs : Option Time} {now : Time} (henabled : rule.enabled = true)
    (htype : rule.type = .minTimeBetweenTrades) :
    rule.stops accountInfo lastTradeTs now = false ↔ rule.spaced lastTradeTs now := by
  obtain ⟨type, parameters, severity, enabled, errorMessage⟩ := rule
  cases htype
  cases henabled
  cases lastTradeTs with
  | none => simp [RiskRule.stops, RiskRule.evaluate, RiskRule.spaced, pure, Except.pure]
  | some last =>
      cases hread : (parameters.getD .seconds (.int 1)).toFloat <;>
        simp [RiskRule.stops, RiskRule.evaluate, RiskRule.spaced, RiskRule.limit, hread, bind,
          Except.bind, pure, Except.pure]

-- ============================================================================
-- In exact arithmetic
-- ============================================================================

/-- `(bal - eq) / bal if bal > 0 else 0`. -/
def drawdown (bal eq : ℚ) : ℚ := if 0 < bal then (bal - eq) / bal else 0

/-- `abs(min(pnl, 0)) / bal if bal > 0 else 0`. -/
def dailyLoss (bal pnl : ℚ) : ℚ := if 0 < bal then |min pnl 0| / bal else 0

/-- A rule of another type than the three the loop knows never stops it. -/
theorem stops_other {rule : RiskRule ℚ} {accountInfo : Dict AccountKey ℚ}
    {lastTradeTs : Option Time} {now : Time} (hdrawdown : rule.type ≠ .maxDrawdown)
    (hloss : rule.type ≠ .maxDailyLoss) (htime : rule.type ≠ .minTimeBetweenTrades) :
    rule.stops accountInfo lastTradeTs now = false := by
  obtain ⟨type, parameters, severity, enabled, errorMessage⟩ := rule
  cases type with
  | maxDrawdown => exact absurd rfl hdrawdown
  | maxDailyLoss => exact absurd rfl hloss
  | minTimeBetweenTrades => exact absurd rfl htime
  | _ => simp [RiskRule.stops, RiskRule.evaluate, pure, Except.pure]

theorem stops_maxDrawdown {rule : RiskRule ℚ} {accountInfo : Dict AccountKey ℚ}
    {lastTradeTs : Option Time} {now : Time} {d : ℚ} (henabled : rule.enabled = true)
    (htype : rule.type = .maxDrawdown) (hlimit : rule.limit = .ok d) :
    rule.stops accountInfo lastTradeTs now = false ↔
      ∃ bal eq, accountFloat accountInfo .balance = .ok bal ∧
        accountFloat accountInfo .equity = .ok eq ∧ drawdown bal eq ≤ d := by
  obtain ⟨type, parameters, severity, enabled, errorMessage⟩ := rule
  cases htype
  cases henabled
  have hread : (parameters.getD .maxDrawdown (lit (2 / 10))).toFloat = .ok d := hlimit
  cases hbal : accountFloat accountInfo .balance with
  | error x => simp [RiskRule.stops, RiskRule.evaluate, hbal, bind, Except.bind]
  | ok bal =>
      cases heq : accountFloat accountInfo .equity with
      | error x => simp [RiskRule.stops, RiskRule.evaluate, hbal, heq, bind, Except.bind]
      | ok eq =>
          by_cases hpos : 0 < bal <;>
            simp [RiskRule.stops, RiskRule.evaluate, hbal, heq, hread, drawdown, hpos, Val.number,
              bind, Except.bind, pure, Except.pure]

theorem stops_maxDailyLoss {rule : RiskRule ℚ} {accountInfo : Dict AccountKey ℚ}
    {lastTradeTs : Option Time} {now : Time} {l : ℚ} (henabled : rule.enabled = true)
    (htype : rule.type = .maxDailyLoss) (hlimit : rule.limit = .ok l) :
    rule.stops accountInfo lastTradeTs now = false ↔
      ∃ bal pnl, accountFloat accountInfo .balance = .ok bal ∧
        accountFloat accountInfo .profit = .ok pnl ∧ dailyLoss bal pnl ≤ l := by
  obtain ⟨type, parameters, severity, enabled, errorMessage⟩ := rule
  cases htype
  cases henabled
  have hread : (parameters.getD .maxDailyLoss (lit (1 / 10))).toFloat = .ok l := hlimit
  rw [one_div] at hread
  cases hbal : accountFloat accountInfo .balance with
  | error x => simp [RiskRule.stops, RiskRule.evaluate, hbal, bind, Except.bind]
  | ok bal =>
      cases hpnl : accountFloat accountInfo .profit with
      | error x => simp [RiskRule.stops, RiskRule.evaluate, hbal, hpnl, bind, Except.bind]
      | ok pnl =>
          have hmin : (if 0 < pnl then 0 else pnl) = min pnl 0 := by
            rcases lt_or_ge 0 pnl with h | h
            · rw [if_pos h, min_eq_right h.le]
            · rw [if_neg h.not_gt, min_eq_left h]
          have hdaily : dailyLoss bal pnl =
              if 0 < bal then |if 0 < pnl then 0 else pnl| / bal else 0 := by
            rw [dailyLoss, hmin]
          by_cases hpos : 0 < bal <;>
            simp [RiskRule.stops, RiskRule.evaluate, hbal, hpnl, hread, hdaily, hpos, Val.number,
              bind, Except.bind, pure, Except.pure]

theorem drawdown_le {bal eq d : ℚ} (hbal : 0 < bal) :
    drawdown bal eq ≤ d ↔ (1 - d) * bal ≤ eq := by
  rw [drawdown, if_pos hbal, div_le_iff₀ hbal]
  constructor <;> intro h <;> linarith

theorem dailyLoss_le {bal pnl l : ℚ} (hbal : 0 < bal) :
    dailyLoss bal pnl ≤ l ↔ max 0 (-pnl) ≤ l * bal := by
  have hloss : |min pnl 0| = max 0 (-pnl) := by
    rcases le_total 0 pnl with h | h
    · rw [min_eq_right h, abs_zero, max_eq_left (neg_nonpos.mpr h)]
    · rw [min_eq_left h, abs_of_nonpos h, max_eq_right (neg_nonneg.mpr h)]
  rw [dailyLoss, if_pos hbal, div_le_iff₀ hbal, hloss]

/-- The account has a positive balance, and its equity and open loss are within the
    limits `d` and `l` of it. -/
def WithinLimits (accountInfo : Dict AccountKey ℚ) (d l : ℚ) : Prop :=
  ∃ bal eq pnl, accountFloat accountInfo .balance = .ok bal ∧
    accountFloat accountInfo .equity = .ok eq ∧ accountFloat accountInfo .profit = .ok pnl ∧
    0 < bal ∧ (1 - d) * bal ≤ eq ∧ max 0 (-pnl) ≤ l * bal

/-- A check that cannot approve whatever the balance is: the kill switch is on, the
    equity or the profit is no number, a limit is negative, or a throttle rule stops
    the loop. -/
def RefusedAnyway (w : RiskWorld ℚ) (accountInfo : Dict AccountKey ℚ) (d l : ℚ) : Prop :=
  w.killSwitch = true ∨
    (∀ eq, accountFloat accountInfo .equity ≠ .ok eq) ∨
    (∀ pnl, accountFloat accountInfo .profit ≠ .ok pnl) ∨ d < 0 ∨ l < 0 ∨
    ∃ rule ∈ w.rules.rules, rule.type = .minTimeBetweenTrades ∧
      ¬ rule.spaced w.lastTradeTs w.clock

/-- What no rule stopping the loop means, when all rules are enabled. -/
theorem all_pass_iff {w : RiskWorld ℚ} {accountInfo : Dict AccountKey ℚ} {d l : ℚ}
    (henabled : ∀ rule ∈ w.rules.rules, rule.enabled = true)
    (hd : ∃ rule ∈ w.rules.rules, rule.type = .maxDrawdown ∧ rule.limit = .ok d)
    (hl : ∃ rule ∈ w.rules.rules, rule.type = .maxDailyLoss ∧ rule.limit = .ok l) :
    (∀ rule ∈ w.rules.rules, rule.stops accountInfo w.lastTradeTs w.clock = false) ↔
      (∃ bal eq pnl, accountFloat accountInfo .balance = .ok bal ∧
        accountFloat accountInfo .equity = .ok eq ∧ accountFloat accountInfo .profit = .ok pnl ∧
        drawdown bal eq ≤ d ∧ dailyLoss bal pnl ≤ l) ∧
      ∀ rule ∈ w.rules.rules, rule.type = .minTimeBetweenTrades →
        rule.spaced w.lastTradeTs w.clock := by
  obtain ⟨rd, hrd, hrdType, hrdLimit⟩ := hd
  obtain ⟨rl, hrl, hrlType, hrlLimit⟩ := hl
  constructor
  · intro hpass
    obtain ⟨bal, eq, hbal, heq, hdd⟩ :=
      (stops_maxDrawdown (henabled rd hrd) hrdType hrdLimit).mp (hpass rd hrd)
    obtain ⟨bal', pnl, hbal', hpnl, hdaily⟩ :=
      (stops_maxDailyLoss (henabled rl hrl) hrlType hrlLimit).mp (hpass rl hrl)
    obtain rfl : bal = bal' := Except.ok.inj (hbal.symm.trans hbal')
    refine ⟨⟨bal, eq, pnl, hbal, heq, hpnl, hdd, hdaily⟩, fun rule hrule htype => ?_⟩
    exact (stops_minTime (henabled rule hrule) htype).mp (hpass rule hrule)
  · rintro ⟨⟨bal, eq, pnl, hbal, heq, hpnl, hdd, hdaily⟩, hspaced⟩ rule hrule
    by_cases htd : rule.type = .maxDrawdown
    · obtain rfl := RuleSet.eq_of_type hrule hrd (htd.trans hrdType.symm)
      exact (stops_maxDrawdown (henabled _ hrule) htd hrdLimit).mpr ⟨bal, eq, hbal, heq, hdd⟩
    by_cases htl : rule.type = .maxDailyLoss
    · obtain rfl := RuleSet.eq_of_type hrule hrl (htl.trans hrlType.symm)
      exact (stops_maxDailyLoss (henabled _ hrule) htl hrlLimit).mpr ⟨bal, pnl, hbal, hpnl, hdaily⟩
    by_cases htt : rule.type = .minTimeBetweenTrades
    · exact (stops_minTime (henabled rule hrule) htt).mpr (hspaced rule hrule htt)
    · exact stops_other htd htl htt

/-- The account dict of a terminal that gives no account. -/
def noAccount : Dict AccountKey ℚ := Dict.empty

/-- A new engine. -/
def newEngine : RiskWorld ℚ where
  killSwitch := false
  rules := RuleSet.initial
  lastTradeTs := none
  clock := 0

theorem newEngine_rules :
    ∀ rule ∈ newEngine.rules.rules, rule.enabled = true ∧ rule.hard = true := by
  simp [newEngine, RuleSet.initial, RiskRule.hard]

/-- A new engine, whose rules are all hard and enabled, approves an order of an unknown
    account. -/
theorem preTradeCheck_approves_noAccount :
    ¬ wp (riskEnv ℚ) (preTradeCheck {} Dict.empty noAccount [])
      (fun out _ => Approved out → WithinLimits noAccount (2 / 10) (1 / 10))
      ⟨newEngine, []⟩ := by
  intro hwp
  have hplay := Prog.play_sound riskAnswers_sound
    (preTradeCheck {} Dict.empty noAccount []) ⟨newEngine, []⟩
  have happroved : Approved ((preTradeCheck {} Dict.empty noAccount []).play (riskAnswers ℚ)
      ⟨newEngine, []⟩).1 := by
    decide +kernel
  obtain ⟨bal, -, -, hbal, -, -, hpos, -⟩ := hplay.sound hwp happroved
  have hzero : accountFloat noAccount .balance = .ok 0 := rfl
  rw [hzero] at hbal
  cases hbal
  exact absurd hpos (lt_irrefl 0)

/-- With hard, enabled rules only, an approval means that the account is within the
    limits exactly when the balance is positive or no number, or the check cannot
    approve for another reason. -/
theorem preTradeCheck_withinLimits_iff (self : Wiring) (order : OrderDict ℚ)
    (accountInfo : Dict AccountKey ℚ) (positions : List (Dict PositionKey ℚ)) (w : RiskWorld ℚ)
    (d l : ℚ) (hrules : ∀ rule ∈ w.rules.rules, rule.enabled = true ∧ rule.hard = true)
    (hd : ∃ rule ∈ w.rules.rules, rule.type = .maxDrawdown ∧ rule.limit = .ok d)
    (hl : ∃ rule ∈ w.rules.rules, rule.type = .maxDailyLoss ∧ rule.limit = .ok l) :
    wp (riskEnv ℚ) (preTradeCheck self order accountInfo positions)
      (fun out _ => (Approved out → WithinLimits accountInfo d l) ↔
        (∀ bal, accountFloat accountInfo .balance = .ok bal → 0 < bal) ∨
          RefusedAnyway w accountInfo d l) ⟨w, []⟩ := by
  refine wp_mono (preTradeCheck_decided self order accountInfo positions w) fun out t' hout => ?_
  rw [hout.approved_iff fun rule hrule => (hrules rule hrule).2,
    all_pass_iff (fun rule hrule => (hrules rule hrule).1) hd hl]
  constructor
  · intro hwithin
    by_contra hcond
    obtain ⟨hbalance, hanyway⟩ := not_or.mp hcond
    push Not at hbalance
    obtain ⟨bal, hbal, hnonpos⟩ := hbalance
    simp only [RefusedAnyway, not_or, not_forall, not_not, not_exists, not_and, not_lt] at hanyway
    obtain ⟨hoff, ⟨eq, heq⟩, ⟨pnl, hpnl⟩, hd0, hl0, hspaced⟩ := hanyway
    have hdd : drawdown bal eq ≤ d := by
      rw [drawdown, if_neg hnonpos.not_gt]
      exact hd0
    have hdaily : dailyLoss bal pnl ≤ l := by
      rw [dailyLoss, if_neg hnonpos.not_gt]
      exact hl0
    obtain ⟨bal', -, -, hbal', -, -, hpos, -⟩ := hwithin
      ⟨by simpa using hoff, ⟨bal, eq, pnl, hbal, heq, hpnl, hdd, hdaily⟩, hspaced⟩
    obtain rfl : bal = bal' := Except.ok.inj (hbal.symm.trans hbal')
    exact absurd hpos hnonpos.not_gt
  · rintro hcond ⟨hoff, ⟨bal, eq, pnl, hbal, heq, hpnl, hdd, hdaily⟩, hspaced⟩
    have hpos : 0 < bal ∨ bal ≤ 0 := lt_or_ge 0 bal
    rcases hpos with hpos | hnonpos
    · exact ⟨bal, eq, pnl, hbal, heq, hpnl, hpos, (drawdown_le hpos).mp hdd,
        (dailyLoss_le hpos).mp hdaily⟩
    · rw [drawdown, if_neg hnonpos.not_gt] at hdd
      rw [dailyLoss, if_neg hnonpos.not_gt] at hdaily
      rcases hcond with hbalance | hon | hnoeq | hnopnl | hd0 | hl0 | ⟨rule, hrule, htype, hsoon⟩
      · exact absurd (hbalance bal hbal) hnonpos.not_gt
      · simp [hoff] at hon
      · exact absurd heq (hnoeq eq)
      · exact absurd hpnl (hnopnl pnl)
      · exact absurd hd0 hdd.not_gt
      · exact absurd hl0 hdaily.not_gt
      · exact absurd (hspaced rule hrule htype) hsoon

/-- The rules of a new engine and an account that is down by a third. -/
theorem preTradeCheck_withinLimits_iff_new :
    wp (riskEnv ℚ) (preTradeCheck {} Dict.empty lossyAccount [])
      (fun out _ => (Approved out → WithinLimits lossyAccount (2 / 10) (1 / 10)) ↔
        (∀ bal, accountFloat lossyAccount .balance = .ok bal → 0 < bal) ∨
          RefusedAnyway newEngine lossyAccount (2 / 10) (1 / 10)) ⟨newEngine, []⟩ :=
  preTradeCheck_withinLimits_iff {} Dict.empty lossyAccount [] newEngine (2 / 10) (1 / 10)
    newEngine_rules
    ⟨_, List.mem_cons_of_mem _ List.mem_cons_self, rfl, rfl⟩
    ⟨_, List.mem_cons_of_mem _ (List.mem_cons_of_mem _ List.mem_cons_self), rfl, rfl⟩

end Mtrader.Risk
