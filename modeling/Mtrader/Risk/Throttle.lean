/-
  Mtrader.Risk.Throttle

  The time between two approvals of one engine.

  A throttle rule compares the clock with the last trade that was recorded.  Only an
  approval that no rule has stopped records its time: a warning of a soft rule is
  returned from the middle of the loop, before the rules behind it are looked at and
  before the time is recorded.
-/

import Mtrader.Risk.Approval

namespace Mtrader.Risk

open Coroutine Py Mtrader.Execution

variable {F : Type}

/-- What a check is called with. -/
structure CheckArgs (F : Type) where
  order : OrderDict F
  accountInfo : Dict AccountKey F
  positions : List (Dict PositionKey F)

variable [Prims F]

/-- A finished check. -/
abbrev Check (F : Type) : Type :=
  Call (CheckArgs F) (RiskWorld F) (RiskOp.Ans (F := F)) Exc TradeApproval

/-- The clock reading of a check that is not refused by the kill switch. -/
def Check.now (c : Check F) : Time := c.pre.clock

/-- A run of one engine from `w₀`, newest check first.  Between the checks rules are
    added and removed, the kill switch is flipped, the repository fails and recovers,
    and time passes; the clock never goes back. -/
inductive Checks (self : Wiring) (w₀ : RiskWorld F) : List (Check F) → RiskWorld F → Prop
  | nil : Checks self w₀ [] w₀
  | check {cs : List (Check F)} {w w' : RiskWorld F} {args : CheckArgs F}
      {log : List (Event (RiskWorld F) (RiskOp.Ans (F := F)) Exc)}
      {out : Except Exc TradeApproval} :
      Checks self w₀ cs w →
      Exec (riskEnv F) ⟨w, []⟩
        (preTradeCheck self args.order args.accountInfo args.positions) out ⟨w', log⟩ →
      w.clock ≤ w'.clock → Checks self w₀ (⟨args, w, log, out, w'⟩ :: cs) w'
  | rules {cs : List (Check F)} {w : RiskWorld F} (call : RuleCall F) :
      Checks self w₀ cs w → Checks self w₀ cs { w with rules := w.rules.call call }
  | killSwitch {cs : List (Check F)} {w : RiskWorld F} (on : Bool) :
      Checks self w₀ cs w → Checks self w₀ cs { w with killSwitch := on }
  | repository {cs : List (Check F)} {w : RiskWorld F} (saves : Bool) :
      Checks self w₀ cs w → Checks self w₀ cs { w with saves := saves }
  | tick {cs : List (Check F)} {w : RiskWorld F} (t : Time) :
      Checks self w₀ cs w → w.clock ≤ t → Checks self w₀ cs { w with clock := t }

/-- The rules have an enabled hard throttle rule of `s` seconds. -/
def Throttled (s : F) (rules : RuleSet F) : Prop :=
  ∃ rule ∈ rules.rules, rule.type = .minTimeBetweenTrades ∧ rule.enabled = true ∧
    rule.hard = true ∧ rule.limit = .ok s

/-- The check is decided by a violated soft rule: it is the first that the loop does not
    get past. -/
def Check.warned (c : Check F) : Prop :=
  c.pre.killSwitch = false ∧
    ∃ rule, c.pre.rules.rules.find?
        (fun r => r.stops c.call.accountInfo c.pre.lastTradeTs c.now) = some rule ∧
      rule.hard = false ∧ rule.violated c.call.accountInfo c.pre.lastTradeTs c.now = true

/-- The two checks are at least `s` seconds apart. -/
def Apart (s : F) (later earlier : Check F) : Prop :=
  Prims.lt (totalSeconds later.now earlier.now) s = false

/-- Any two approvals of the run are at least `s` seconds apart. -/
def ApprovalsApart (s : F) (cs : List (Check F)) : Prop :=
  cs.Pairwise fun later earlier => Approved later.out → Approved earlier.out → Apart s later earlier

/-- Seconds are compared as the numbers they stand for. -/
def MonotoneSeconds (F : Type) [Prims F] : Prop :=
  ∀ (a b : ℚ) (s : F), a ≤ b → Prims.lt (Prims.ofRat b) s = true → Prims.lt (Prims.ofRat a) s = true

theorem monotoneSeconds_rat : MonotoneSeconds ℚ := by
  intro a b s hab hb
  simp only [lt_rat, ofRat_rat, decide_eq_true_eq] at hb ⊢
  exact lt_of_le_of_lt hab hb

/-- A check later than the last trade it has let pass is as far from any trade before. -/
theorem totalSeconds_lt (hmono : MonotoneSeconds F) {now last earlier : Time} {s : F}
    (hle : earlier ≤ last) (h : Prims.lt (totalSeconds now last) s = false) :
    Prims.lt (totalSeconds now earlier) s = false := by
  by_contra hlt
  have hlt : Prims.lt (totalSeconds now earlier) s = true := by simpa using hlt
  have hsub : ((now - last : ℤ) / 1000000 : ℚ) ≤ ((now - earlier : ℤ) / 1000000 : ℚ) := by
    have hrat : ((now - last : ℤ) : ℚ) ≤ ((now - earlier : ℤ) : ℚ) :=
      Int.cast_le.mpr (sub_le_sub_left hle now)
    linarith
  have hearlier := hmono _ _ s hsub hlt
  rw [totalSeconds] at h
  rw [hearlier] at h
  cases h

/-- What the engine remembers of the checks so far: the time of every approval is at most
    the last trade it has recorded, and that is no later than its clock. -/
structure Remembered (cs : List (Check F)) (w : RiskWorld F) : Prop where
  recorded : ∀ c ∈ cs, Approved c.out → ∃ last, w.lastTradeTs = some last ∧ c.now ≤ last
  clock : ∀ c ∈ cs, c.now ≤ w.clock

/-- An approval without a warning records its time. -/
theorem Decided.recorded {w w' : RiskWorld F} {args : CheckArgs F}
    {out : Except Exc TradeApproval} {log : List (Event (RiskWorld F) (RiskOp.Ans (F := F)) Exc)}
    (h : Decided w args.accountInfo out w')
    (hwarned : ¬ Check.warned (⟨args, w, log, out, w'⟩ : Check F)) (happroved : Approved out) :
    w'.lastTradeTs = some w.clock ∧
      ∀ rule ∈ w.rules.rules, rule.stops args.accountInfo w.lastTradeTs w.clock = false := by
  cases h with
  | killed hon hlast => simp [approved_ok] at happroved
  | passed hoff hpass hlast => exact ⟨hlast, hpass⟩
  | @stopped rule _ _ hoff hfind hout hlast =>
      obtain ⟨approval, rfl, hyes⟩ := happroved
      obtain ⟨rfl, hviolated⟩ := hout approval rfl
      have hsoft : rule.hard = false := by
        by_contra hhard
        have hhard : rule.hard = true := by simpa using hhard
        simp [RiskRule.decision, hhard] at hyes
      exact absurd ⟨hoff, rule, hfind, hsoft, hviolated⟩ hwarned

/-- A check that does not approve leaves the last trade as it was. -/
theorem Decided.keeps {w w' : RiskWorld F} {accountInfo : Dict AccountKey F}
    {out : Except Exc TradeApproval} (h : Decided w accountInfo out w') (hno : ¬ Approved out) :
    w'.lastTradeTs = w.lastTradeTs := by
  cases h with
  | killed hon hlast => exact hlast
  | passed hoff hpass hlast => exact absurd (approved_ok.mpr rfl) hno
  | stopped hoff hfind hout hlast => exact hlast

/-- One check without a warning keeps what is remembered, and approves only far enough
    from every approval before. -/
theorem Remembered.check (hmono : MonotoneSeconds F) {s : F} {cs : List (Check F)}
    {w w' : RiskWorld F} {args : CheckArgs F} {out : Except Exc TradeApproval}
    {log : List (Event (RiskWorld F) (RiskOp.Ans (F := F)) Exc)} (h : Remembered cs w)
    (hout : Decided w args.accountInfo out w') (hclock : w.clock ≤ w'.clock)
    (hthrottled : Throttled s w.rules)
    (hwarned : ¬ Check.warned (⟨args, w, log, out, w'⟩ : Check F)) :
    Remembered (⟨args, w, log, out, w'⟩ :: cs) w' ∧
      (Approved out → ∀ c ∈ cs, Approved c.out → Apart s ⟨args, w, log, out, w'⟩ c) := by
  have hclocks : ∀ c ∈ (⟨args, w, log, out, w'⟩ :: cs : List (Check F)), c.now ≤ w'.clock := by
    rintro c (_ | ⟨_, hc⟩)
    · exact hclock
    · exact (h.clock c hc).trans hclock
  by_cases happroved : Approved out
  · obtain ⟨hlast, hpass⟩ := hout.recorded hwarned happroved
    refine ⟨⟨?_, hclocks⟩, fun _ c hc hcApproved => ?_⟩
    · rintro c (_ | ⟨_, hc⟩) hcApproved
      · exact ⟨w.clock, hlast, le_refl _⟩
      · exact ⟨w.clock, hlast, h.clock c hc⟩
    · obtain ⟨last, hrecorded, hle⟩ := h.recorded c hc hcApproved
      obtain ⟨rule, hrule, htype, henabled, -, hlimit⟩ := hthrottled
      have hspaced := (stops_minTime henabled htype).mp (hpass rule hrule)
      obtain ⟨s', hs', hlt⟩ := hspaced last hrecorded
      obtain rfl : s = s' := Except.ok.inj (hlimit.symm.trans hs')
      exact totalSeconds_lt hmono hle hlt
  · refine ⟨⟨?_, hclocks⟩, fun hyes => absurd hyes happroved⟩
    rintro c (_ | ⟨_, hc⟩) hcApproved
    · exact absurd hcApproved happroved
    · rw [hout.keeps happroved]
      exact h.recorded c hc hcApproved

/-- In a run with a throttle rule of `s` seconds throughout and without a warning, any two
    approvals are at least `s` seconds apart, and the engine remembers the last. -/
theorem Checks.spaced (hmono : MonotoneSeconds F) {self : Wiring} {s : F} {w₀ w : RiskWorld F}
    {cs : List (Check F)} (h : Checks self w₀ cs w)
    (hthrottled : ∀ c ∈ cs, Throttled s c.pre.rules) (hwarned : ∀ c ∈ cs, ¬ c.warned) :
    Remembered cs w ∧ ApprovalsApart s cs := by
  induction h with
  | nil => exact ⟨⟨by simp, by simp⟩, .nil⟩
  | @check cs w w' args log out _ hexec hclock ih =>
      obtain ⟨hnow, hthrottled⟩ := List.forall_mem_cons.mp hthrottled
      obtain ⟨hquiet, hwarned⟩ := List.forall_mem_cons.mp hwarned
      obtain ⟨hremembered, hpairs⟩ := ih hthrottled hwarned
      have hout := hexec.sound (preTradeCheck_decided self args.order args.accountInfo
        args.positions w)
      obtain ⟨hremembered, hapart⟩ := hremembered.check hmono hout hclock hnow hquiet
      refine ⟨hremembered, List.pairwise_cons.mpr ⟨fun c hc hyes hcyes => ?_, hpairs⟩⟩
      exact hapart hyes c hc hcyes
  | rules call _ ih =>
      obtain ⟨hremembered, hpairs⟩ := ih hthrottled hwarned
      exact ⟨⟨hremembered.recorded, hremembered.clock⟩, hpairs⟩
  | killSwitch on _ ih =>
      obtain ⟨hremembered, hpairs⟩ := ih hthrottled hwarned
      exact ⟨⟨hremembered.recorded, hremembered.clock⟩, hpairs⟩
  | repository saves _ ih =>
      obtain ⟨hremembered, hpairs⟩ := ih hthrottled hwarned
      exact ⟨⟨hremembered.recorded, hremembered.clock⟩, hpairs⟩
  | tick t _ hle ih =>
      obtain ⟨hremembered, hpairs⟩ := ih hthrottled hwarned
      exact ⟨⟨hremembered.recorded, fun c hc => (hremembered.clock c hc).trans hle⟩, hpairs⟩

-- ============================================================================
-- A soft rule in front of the throttle
-- ============================================================================

/-- The check of an order of a losing account. -/
def lossyCheck : CheckArgs ℚ := ⟨Dict.empty, lossyAccount, []⟩

/-- The check of an order of an account that the terminal does not give. -/
def calmCheck : CheckArgs ℚ := ⟨Dict.empty, noAccount, []⟩

/-- A check as `riskAnswers` plays it. -/
def playedCheck (args : CheckArgs ℚ) (w : RiskWorld ℚ) :
    Except Exc TradeApproval × Trail (RiskWorld ℚ) (RiskOp.Ans (F := ℚ)) Exc :=
  (preTradeCheck {} args.order args.accountInfo args.positions).play (riskAnswers ℚ) ⟨w, []⟩

/-- The check that has been played. -/
def Check.played (args : CheckArgs ℚ) (w : RiskWorld ℚ) : Check ℚ :=
  ⟨args, w, (playedCheck args w).2.log, (playedCheck args w).1, (playedCheck args w).2.world⟩

/-- No check changes the rules. -/
theorem playedCheck_rules (args : CheckArgs ℚ) (w : RiskWorld ℚ) :
    (playedCheck args w).2.world.rules = w.rules := by
  have hplay := Prog.play_sound riskAnswers_sound
    (preTradeCheck {} args.order args.accountInfo args.positions) ⟨w, []⟩
  refine hplay.sound (wp_invariant (I := fun w' => w'.rules = w.rules) ?_ _ rfl)
  intro w₁ e a w₂ hrules henv
  cases e with
  | utcnow =>
      obtain ⟨-, t, rfl⟩ := henv
      exact hrules
  | saveRiskIncident incident =>
      cases a with
      | ok _ => exact henv.2 ▸ hrules
      | error x => exact henv.2 ▸ hrules
  | cancelAllOrders => exact henv ▸ hrules
  | closeAllPositions => exact henv ▸ hrules
  | broadcast reason triggeredBy => exact henv ▸ hrules
  | disableAllStrategies => exact henv ▸ hrules
  | sleep seconds => exact henv ▸ hrules
  | setKillSwitch on => exact henv.2 ▸ hrules
  | setLastTradeTs t => exact henv.2 ▸ hrules
  | killSwitch => exact henv.2 ▸ hrules
  | rules => exact henv.2 ▸ hrules
  | lastTradeTs => exact henv.2 ▸ hrules

theorem Checks.played {w₀ w : RiskWorld ℚ} {cs : List (Check ℚ)} (args : CheckArgs ℚ)
    (h : Checks {} w₀ cs w) (hclock : w.clock ≤ (playedCheck args w).2.world.clock) :
    Checks {} w₀ (Check.played args w :: cs) (playedCheck args w).2.world :=
  h.check (Prog.play_sound riskAnswers_sound _ _) hclock

/-- An engine with the initial rules has a hard throttle rule of one second. -/
theorem throttled_initial : Throttled (1 : ℚ) RuleSet.initial := by
  refine ⟨{ type := .minTimeBetweenTrades, parameters := singleParam .seconds (.int 1),
            errorMessage := "Too many trades" }, ?_, rfl, rfl, rfl, rfl⟩
  exact List.mem_of_getLast? rfl

/-- With the initial rules, which are all hard, no check is decided by a soft rule. -/
theorem not_warned_initial {c : Check ℚ} (h : c.pre.rules = RuleSet.initial) : ¬ c.warned := by
  rintro ⟨-, rule, hfind, hsoft, -⟩
  rw [h] at hfind
  have hhard := (newEngine_rules rule (List.mem_of_find?_eq_some hfind)).2
  rw [hhard] at hsoft
  cases hsoft

/-- A soft drawdown rule in front of a throttle of one second: two orders of a losing
    account are approved at the same time. -/
theorem approvals_not_always_apart :
    ¬ ∀ (cs : List (Check ℚ)) (w : RiskWorld ℚ), Checks {} softDrawdown cs w →
      (∀ c ∈ cs, Throttled 1 c.pre.rules) → ApprovalsApart 1 cs := by
  intro hall
  have hrun := Checks.played lossyCheck (Checks.played lossyCheck
    (.nil : Checks {} softDrawdown [] softDrawdown) (by decide +kernel)) (by decide +kernel)
  have hthrottled : Throttled 1 softDrawdown.rules := by
    refine ⟨{ type := .minTimeBetweenTrades, parameters := singleParam .seconds (.int 1),
              errorMessage := "Too many trades" }, ?_, rfl, rfl, rfl, rfl⟩
    exact List.mem_of_getLast? rfl
  have hapart := hall _ _ hrun (by
    intro c hc
    rcases List.mem_cons.mp hc with rfl | hc
    · show Throttled 1 (playedCheck lossyCheck softDrawdown).2.world.rules
      rw [playedCheck_rules]
      exact hthrottled
    · rw [List.mem_singleton.mp hc]
      exact hthrottled)
  have hfirst : Approved (Check.played lossyCheck softDrawdown).out := by decide +kernel
  have hsecond : Approved (Check.played lossyCheck
      (playedCheck lossyCheck softDrawdown).2.world).out := by
    decide +kernel
  have hpair := (List.pairwise_cons.mp hapart).1 _ List.mem_cons_self hsecond hfirst
  revert hpair
  unfold Apart
  decide +kernel

/-- In every run in which a hard throttle rule of `s` seconds is always there and no check
    is decided by a violated soft rule, any two approvals are at least `s` seconds apart. -/
theorem approvals_apart (hmono : MonotoneSeconds F) (self : Wiring) (s : F)
    (w₀ w : RiskWorld F) (cs : List (Check F)) (h : Checks self w₀ cs w)
    (hthrottled : ∀ c ∈ cs, Throttled s c.pre.rules) (hwarned : ∀ c ∈ cs, ¬ c.warned) :
    ApprovalsApart s cs :=
  (h.spaced hmono hthrottled hwarned).2

/-- A new engine one second after it has approved an order. -/
def secondLater : RiskWorld ℚ :=
  { (playedCheck calmCheck newEngine).2.world with clock := 1000000 }

/-- Two checks of a new engine, a second apart, which approves both. -/
def calmChecks : List (Check ℚ) :=
  [Check.played calmCheck secondLater, Check.played calmCheck newEngine]

theorem approvals_apart_calmChecks :
    (∀ c ∈ calmChecks, Approved c.out) ∧ ApprovalsApart 1 calmChecks := by
  have hfirst := Checks.played calmCheck (.nil : Checks {} newEngine [] newEngine)
    (by decide +kernel)
  have hlater : Checks {} newEngine _ secondLater := hfirst.tick 1000000 (by decide +kernel)
  have hrun := Checks.played calmCheck hlater (by decide +kernel)
  have hrules : ∀ c ∈ calmChecks, c.pre.rules = RuleSet.initial := by
    intro c hc
    rcases List.mem_cons.mp hc with rfl | hc
    · exact playedCheck_rules calmCheck newEngine
    · rw [List.mem_singleton.mp hc]
      rfl
  constructor
  · intro c hc
    rcases List.mem_cons.mp hc with rfl | hc
    · decide +kernel
    · rw [List.mem_singleton.mp hc]
      decide +kernel
  · exact approvals_apart monotoneSeconds_rat {} 1 newEngine _ calmChecks hrun
      (fun c hc => hrules c hc ▸ throttled_initial)
      (fun c hc => not_warned_initial (hrules c hc))

end Mtrader.Risk
