/-
  Mtrader.Risk.Decision

  When `pre_trade_check` refuses an order.

  The loop ends at the first enabled rule that is violated, soft or hard, and at
  the first whose numbers cannot be read.  The decision is therefore that of one
  rule, the deciding one, and not of all hard rules together.
-/

import Mtrader.Risk.Engine
import Mtrader.Coroutine.Exec

namespace Mtrader.Risk

open Coroutine Py Mtrader.Execution

variable {F : Type}

/-- What the check reads: the flag, the rule dict, the last trade, the clock, and
    whether `save_risk_incident` returns. -/
structure RiskWorld (F : Type) where
  killSwitch : Bool
  rules : RuleSet F
  lastTradeTs : Option Time
  clock : Time
  saves : Bool := true

/-- The risk engine's fields, a clock that may move on, and a repository that
    returns or raises. -/
def riskEnv (F : Type) : Env (RiskWorld F) (RiskOp.Ans (F := F)) Exc :=
  fun w e a w' =>
    match e, a with
    | .killSwitch, a => a = .ok w.killSwitch ∧ w' = w
    | .setKillSwitch on, a => a = .ok () ∧ w' = { w with killSwitch := on }
    | .rules, a => a = .ok w.rules.rules ∧ w' = w
    | .lastTradeTs, a => a = .ok w.lastTradeTs ∧ w' = w
    | .setLastTradeTs t, a => a = .ok () ∧ w' = { w with lastTradeTs := some t }
    | .utcnow, a => a = .ok w.clock ∧ ∃ t, w' = { w with clock := t }
    | .saveRiskIncident _, .ok _ => w.saves = true ∧ w' = w
    | .saveRiskIncident _, .error _ => w.saves = false ∧ w' = w
    | _, _ => w' = w

/-- `approved=False` was returned. -/
def Refused (out : Except Exc TradeApproval) : Prop :=
  ∃ approval, out = .ok approval ∧ approval.approved = false

theorem not_refused_error {x : Exc} : ¬ Refused (.error x) := by
  rintro ⟨approval, h, -⟩
  cases h

theorem refused_ok {approval : TradeApproval} :
    Refused (.ok approval) ↔ approval.approved = false := by
  constructor
  · rintro ⟨_, h, happroved⟩
    cases h
    exact happroved
  · exact fun h => ⟨approval, rfl, h⟩

instance (out : Except Exc TradeApproval) : Decidable (Refused out) :=
  match out with
  | .ok _ => decidable_of_iff _ refused_ok.symm
  | .error _ => isFalse not_refused_error

variable [Prims F]

-- ============================================================================
-- The deciding rule
-- ============================================================================

/-- The loop does not get past the rule: it is enabled, and violated or
    unreadable. -/
def RiskRule.stops (rule : RiskRule F) (accountInfo : Dict AccountKey F)
    (lastTradeTs : Option Time) (now : Time) : Bool :=
  rule.enabled && match rule.evaluate accountInfo lastTradeTs now with
    | .ok (violated, _) => violated
    | .error _ => true

/-- The rule is enabled, hard and violated. -/
def RiskRule.rejects (rule : RiskRule F) (accountInfo : Dict AccountKey F)
    (lastTradeTs : Option Time) (now : Time) : Bool :=
  rule.enabled && rule.hard && rule.violated accountInfo lastTradeTs now

/-- The first rule that the loop does not get past rejects. -/
def hardRuleDecides (accountInfo : Dict AccountKey F) (lastTradeTs : Option Time) (now : Time)
    (rules : List (RiskRule F)) : Prop :=
  ∃ rule, rules.find? (fun r => r.stops accountInfo lastTradeTs now) = some rule ∧
    rule.rejects accountInfo lastTradeTs now = true

variable {accountInfo : Dict AccountKey F} {lastTradeTs : Option Time} {now : Time}

theorem hardRuleDecides_nil : ¬ hardRuleDecides accountInfo lastTradeTs now [] := by
  rintro ⟨rule, h, -⟩
  cases h

theorem hardRuleDecides_cons_pass {rule : RiskRule F} {rest : List (RiskRule F)}
    (h : rule.stops accountInfo lastTradeTs now = false) :
    hardRuleDecides accountInfo lastTradeTs now (rule :: rest) ↔
      hardRuleDecides accountInfo lastTradeTs now rest := by
  simp [hardRuleDecides, h]

theorem hardRuleDecides_cons_stop {rule : RiskRule F} {rest : List (RiskRule F)}
    (h : rule.stops accountInfo lastTradeTs now = true) :
    hardRuleDecides accountInfo lastTradeTs now (rule :: rest) ↔
      rule.rejects accountInfo lastTradeTs now = true := by
  simp [hardRuleDecides, h]

/-- A deciding hard rule is a violated one of the set. -/
theorem exists_rejects_of_decides {rules : List (RiskRule F)}
    (h : hardRuleDecides accountInfo lastTradeTs now rules) :
    ∃ rule ∈ rules, rule.rejects accountInfo lastTradeTs now = true := by
  obtain ⟨rule, hfind, hrejects⟩ := h
  exact ⟨rule, List.mem_of_find?_eq_some hfind, hrejects⟩

-- ============================================================================
-- The loop
-- ============================================================================

omit [Prims F] in
/-- Saving an incident raises exactly when there is a repository and it raises; the engine
    is left as it is. -/
theorem persistIncident_wp {self : Wiring} {incident : Incident F}
    {Q : Except Exc Unit → Trail (RiskWorld F) (RiskOp.Ans (F := F)) Exc → Prop}
    {t : Trail (RiskWorld F) (RiskOp.Ans (F := F)) Exc}
    (hok : ∀ t', t'.world = t.world → (self.repository = false ∨ t.world.saves = true) →
      Q (.ok ()) t')
    (herr : ∀ x t', t'.world = t.world → self.repository = true → t.world.saves = false →
      Q (.error x) t') :
    wp (riskEnv F) (persistIncident self incident) Q t := by
  unfold persistIncident
  split
  next hrepo =>
    refine wp_op.mpr ?_
    rintro (x | _) w' ⟨hsaves, hsame⟩
    · exact herr x _ hsame hrepo hsaves
    · exact hok _ hsame (.inr hsaves)
  next hrepo => exact hok _ rfl (.inl (by simpa using hrepo))

/-- The loop refuses exactly when a hard rule decides and its incident is saved. -/
theorem checkRules_refused (self : Wiring) (order : OrderDict F) (rules : List (RiskRule F))
    {saves : Bool} {t : Trail (RiskWorld F) (RiskOp.Ans (F := F)) Exc}
    (ht : t.world.saves = saves) :
    wp (riskEnv F) (checkRules self order accountInfo lastTradeTs now rules)
      (fun out _ => Refused out ↔
        hardRuleDecides accountInfo lastTradeTs now rules ∧
          (self.repository = false ∨ saves = true)) t := by
  subst ht
  induction rules with
  | nil =>
      refine wp_op_bind.mpr ⟨fun _ w' _ => ?_, fun x w' henv => absurd henv.1 nofun⟩
      simp [refused_ok, hardRuleDecides_nil]
  | cons rule rest ih =>
      unfold checkRules
      by_cases henabled : rule.enabled = true
      swap
      · rw [hardRuleDecides_cons_pass (by simp [RiskRule.stops, henabled])]
        simpa [henabled] using ih
      simp only [henabled, Bool.not_true, Bool.false_eq_true, if_false]
      refine wp_ofExcept_bind.mpr ⟨fun ⟨violated, actualValues⟩ heval => ?_, fun x heval => ?_⟩
      swap
      · rw [hardRuleDecides_cons_stop (by simp [RiskRule.stops, henabled, heval])]
        simp [not_refused_error, RiskRule.rejects, RiskRule.violated, heval]
      cases violated with
      | false =>
          rw [hardRuleDecides_cons_pass (by simp [RiskRule.stops, heval])]
          exact ih
      | true =>
          rw [hardRuleDecides_cons_stop (by simp [RiskRule.stops, henabled, heval])]
          have hrejects : rule.rejects accountInfo lastTradeTs now = rule.hard := by
            simp [RiskRule.rejects, RiskRule.violated, henabled, heval]
          rw [hrejects]
          refine wp_op_bind.mpr ⟨fun createdAt w' henv => ?_, fun x w' henv => absurd henv.1 nofun⟩
          obtain ⟨-, clock, rfl⟩ := henv
          refine wp_bind.mpr (persistIncident_wp (fun t' _ hsaved => ?_)
            fun x t' _ hrepo hraises => ?_)
          · rw [wp_pure, refused_ok]
            have hsaved : self.repository = false ∨ t.world.saves = true := hsaved
            cases hhard : rule.hard <;> simp [RiskRule.decision, hhard, hsaved]
          · have hraises : t.world.saves = false := hraises
            simp [not_refused_error, hrepo, hraises]

/-- `pre_trade_check` refuses when the kill switch is on, and otherwise exactly when
    a hard rule decides and its incident is saved. -/
theorem preTradeCheck_refused (self : Wiring) (order : OrderDict F)
    (accountInfo : Dict AccountKey F) (positions : List (Dict PositionKey F)) (w : RiskWorld F) :
    wp (riskEnv F) (preTradeCheck self order accountInfo positions)
      (fun out _ => Refused out ↔ w.killSwitch = true ∨
        hardRuleDecides accountInfo w.lastTradeTs w.clock w.rules.rules ∧
          (self.repository = false ∨ w.saves = true)) ⟨w, []⟩ := by
  refine wp_op_bind.mpr ⟨fun killed w' henv => ?_, fun x w' henv => absurd henv.1 nofun⟩
  obtain ⟨hkilled, hw⟩ := henv
  cases hkilled
  subst w'
  split
  next hon =>
    have hon : w.killSwitch = true := hon
    simp [refused_ok, hon]
  next hoff =>
    have hoff : w.killSwitch = false := by simpa using hoff
    simp only [hoff, Bool.false_eq_true, false_or]
    refine wp_op_bind.mpr ⟨fun now w' henv => ?_, fun x w' henv => absurd henv.1 nofun⟩
    obtain ⟨hnow, clock, hw⟩ := henv
    cases hnow
    subst w'
    refine wp_op_bind.mpr ⟨fun last w' henv => ?_, fun x w' henv => absurd henv.1 nofun⟩
    obtain ⟨hlast, hw⟩ := henv
    cases hlast
    subst w'
    refine wp_op_bind.mpr ⟨fun rules w' henv => ?_, fun x w' henv => absurd henv.1 nofun⟩
    obtain ⟨hrules, hw⟩ := henv
    cases hrules
    subst w'
    simp only [Trail.record_world]
    exact checkRules_refused self order w.rules.rules rfl

-- ============================================================================
-- Against the order-free decision
-- ============================================================================

/-- The order-free decision: the kill switch is on, or some enabled hard rule is
    violated. -/
def ShouldRefuse (w : RiskWorld F) (accountInfo : Dict AccountKey F) : Prop :=
  w.killSwitch = true ∨
    ∃ rule ∈ w.rules.rules, rule.rejects accountInfo w.lastTradeTs w.clock = true

instance (w : RiskWorld F) (accountInfo : Dict AccountKey F) :
    Decidable (ShouldRefuse w accountInfo) :=
  inferInstanceAs (Decidable (_ ∨ _))

omit [Prims F] in
/-- A clock that stands still and a repository that does as the world says. -/
def riskAnswers (F : Type) : Answers (RiskWorld F) (RiskOp.Ans (F := F)) Exc :=
  fun w e =>
    match e with
    | .killSwitch => (.ok w.killSwitch, w)
    | .setKillSwitch on => (.ok (), { w with killSwitch := on })
    | .rules => (.ok w.rules.rules, w)
    | .lastTradeTs => (.ok w.lastTradeTs, w)
    | .setLastTradeTs t => (.ok (), { w with lastTradeTs := some t })
    | .utcnow => (.ok w.clock, w)
    | .saveRiskIncident _ => (if w.saves then .ok () else .error (.external "no database"), w)
    | .cancelAllOrders => (.ok (), w)
    | .closeAllPositions => (.ok [], w)
    | .broadcast _ _ => (.ok (), w)
    | .disableAllStrategies => (.ok (), w)
    | .sleep _ => (.ok (), w)

omit [Prims F] in
theorem riskAnswers_sound (w : RiskWorld F) (e : RiskOp F) :
    riskEnv F w e (riskAnswers F w e).1 (riskAnswers F w e).2 := by
  cases e with
  | saveRiskIncident incident => cases hsaves : w.saves <;> simp [riskEnv, riskAnswers, hsaves]
  | utcnow => exact ⟨rfl, w.clock, rfl⟩
  | cancelAllOrders => exact rfl
  | closeAllPositions => exact rfl
  | broadcast reason triggeredBy => exact rfl
  | disableAllStrategies => exact rfl
  | sleep seconds => exact rfl
  | _ => exact ⟨rfl, rfl⟩

/-- An engine whose drawdown rule has been made soft. -/
def softDrawdown : RiskWorld ℚ where
  killSwitch := false
  rules := RuleSet.after [.addRule
    { type := .maxDrawdown, parameters := singleParam .maxDrawdown (lit (2 / 10)),
      severity := "soft" }]
  lastTradeTs := none
  clock := 0

/-- An account that is down by a third, a fifth of it today. -/
def lossyAccount : Dict AccountKey ℚ
  | .balance => some (.int 1000)
  | .equity => some (.int 700)
  | .profit => some (.int (-200))
  | _ => none

/-- A violated soft rule in front of a violated hard one lets the order through. -/
theorem preTradeCheck_not_always_decides :
    ¬ wp (riskEnv ℚ) (preTradeCheck {} Dict.empty lossyAccount [])
      (fun out _ => Refused out ↔ ShouldRefuse softDrawdown lossyAccount)
      ⟨softDrawdown, []⟩ := by
  intro hwp
  have hplay := Prog.play_sound riskAnswers_sound
    (preTradeCheck {} Dict.empty lossyAccount []) ⟨softDrawdown, []⟩
  have hiff := hplay.sound hwp
  revert hiff
  decide +kernel

/-- After any `add_rule` and `remove_rule` calls, `pre_trade_check` decides as the
    order-free conjunction exactly when the kill switch is on, no enabled hard rule
    is violated, or a hard rule is the first that the loop does not get past and
    its incident is saved. -/
theorem preTradeCheck_decides_iff (self : Wiring) (order : OrderDict F)
    (accountInfo : Dict AccountKey F) (positions : List (Dict PositionKey F))
    (calls : List (RuleCall F)) (killed : Bool) (lastTradeTs : Option Time) (now : Time)
    (saves : Bool) :
    let w : RiskWorld F := ⟨killed, RuleSet.after calls, lastTradeTs, now, saves⟩
    wp (riskEnv F) (preTradeCheck self order accountInfo positions)
      (fun out _ => (Refused out ↔ ShouldRefuse w accountInfo) ↔
        killed = true ∨
        (∀ rule ∈ w.rules.rules, rule.rejects accountInfo lastTradeTs now = false) ∨
        hardRuleDecides accountInfo lastTradeTs now w.rules.rules ∧
          (self.repository = false ∨ saves = true)) ⟨w, []⟩ := by
  intro w
  refine wp_mono (preTradeCheck_refused self order accountInfo positions w) fun out _ hout => ?_
  rw [hout, ShouldRefuse]
  have hsome : hardRuleDecides accountInfo lastTradeTs now w.rules.rules →
      ∃ rule ∈ w.rules.rules, rule.rejects accountInfo lastTradeTs now = true :=
    exists_rejects_of_decides
  have hnone : (∀ rule ∈ w.rules.rules, rule.rejects accountInfo lastTradeTs now = false) ↔
      ¬ ∃ rule ∈ w.rules.rules, rule.rejects accountInfo lastTradeTs now = true := by
    simp
  rw [hnone]
  constructor
  · intro hiff
    by_cases hkilled : killed = true
    · exact .inl hkilled
    · by_cases hany : ∃ rule ∈ w.rules.rules, rule.rejects accountInfo lastTradeTs now = true
      · exact .inr (.inr ((hiff.mpr (.inr hany)).resolve_left hkilled))
      · exact .inr (.inl hany)
  · rintro (hkilled | hany | hdecides)
    · exact ⟨fun _ => .inl hkilled, fun _ => .inl hkilled⟩
    · exact ⟨fun h => h.elim .inl fun h => absurd (hsome h.1) hany,
        fun h => h.elim .inl fun h => absurd h hany⟩
    · exact ⟨fun _ => .inr (hsome hdecides.1), fun _ => .inr hdecides⟩

end Mtrader.Risk
