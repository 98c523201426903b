/-
  Mtrader.Service.Retries

  The retry loop of `kill_switch` with an `MT5Connector`.

  The loop takes a call of `close_all_positions` that returns for a success.  The
  connector reports a position it could not close as a result with `ok` False, and the
  loop does not look at the results: it retries what raises, and nothing else.
-/

import Mtrader.Risk.Liquidation
import Mtrader.Connectors.Mt5

namespace Mtrader.Service

open Coroutine Py Mtrader.Connectors Mtrader.Risk

variable {F W : Type}

-- ============================================================================
-- The risk engine on an MT5 connector
-- ============================================================================

/-- What the risk engine and its MT5 connector call together. -/
abbrev BrokerRiskAns (F : Type) : RiskOp F ⊕ Mt5Op F → Type :=
  Prog.SumAns (RiskOp.Ans (F := F)) (Mt5Op.Ans (F := F))

/-- `self.connector` of the risk engine is an `MT5Connector`. -/
def riskOverMt5 : (e : RiskOp F) → Prog (BrokerRiskAns F) Exc e.Ans
  | .closeAllPositions => closeAllPositions.inr
  | e => Prog.opInl e

-- ============================================================================
-- The attempts of a log
-- ============================================================================

/-- What a call of `close_all_positions` answered. -/
def closeAnswer : Event W (RiskOp.Ans (F := F)) Exc → Option (Except Exc (List (BrokerResponse F)))
  | ⟨_, .closeAllPositions, a⟩ => some a
  | _ => none

/-- A failed attempt is followed by a call of `sleep`. -/
def slept : Event W (RiskOp.Ans (F := F)) Exc → Bool
  | ⟨_, .sleep _, _⟩ => true
  | _ => false

/-- The operations of an attempt. -/
def attempts : Event W (RiskOp.Ans (F := F)) Exc → Bool
  | ⟨_, .cancelAllOrders, _⟩ => true
  | ⟨_, .closeAllPositions, _⟩ => true
  | _ => false

/-- The attempts that have failed. -/
def failures (log : RiskLog W F) : ℕ := log.countP slept

/-- What the last call of `close_all_positions` answered. -/
def lastClose (log : RiskLog W F) : Option (Except Exc (List (BrokerResponse F))) :=
  (log.filterMap closeAnswer).head?

/-- Every position's request was answered `ok` True. -/
def allOk (responses : List (BrokerResponse F)) : Prop := ∀ r ∈ responses, r.ok = true

/-- If the loop was entered and left before a third attempt, then after an attempt in
    which every close request was answered `ok` True. -/
def LeavesClosed (log : RiskLog W F) : Prop :=
  log.any attempts = true → failures log < 2 →
    ∃ responses, lastClose log = some (.ok responses) ∧ allOk responses

/-- Whenever `close_all_positions` returned in one of the first two attempts, every
    position's request was answered `ok` True. -/
def ClosedOnReturn : RiskLog W F → Prop
  | [] => True
  | ev :: older =>
      (∀ responses, closeAnswer ev = some (.ok responses) → failures older < 2 →
        allOk responses) ∧ ClosedOnReturn older

-- ============================================================================
-- The loop
-- ============================================================================

/-- No call of `close_all_positions` has returned. -/
def NoReturn (log : RiskLog W F) : Prop :=
  ∀ ev ∈ log, ∀ responses, closeAnswer ev ≠ some (.ok responses)

theorem NoReturn.closedOnReturn {log : RiskLog W F} (h : NoReturn log) : ClosedOnReturn log := by
  induction log with
  | nil => trivial
  | cons ev older ih =>
      refine ⟨fun responses hev => absurd hev (h ev List.mem_cons_self responses), ?_⟩
      exact ih fun ev' hev' => h ev' (List.mem_cons_of_mem _ hev')

theorem NoReturn.nil : NoReturn ([] : RiskLog W F) := by
  intro ev hev
  cases hev

theorem NoReturn.cons {log : RiskLog W F} (h : NoReturn log)
    {ev : Event W (RiskOp.Ans (F := F)) Exc}
    (hev : ∀ responses, closeAnswer ev ≠ some (.ok responses)) : NoReturn (ev :: log) := by
  intro ev' hmem
  rcases List.mem_cons.mp hmem with rfl | hmem
  · exact hev
  · exact h ev' hmem

/-- An event that is no call of `close_all_positions`. -/
theorem NoReturn.skip {log : RiskLog W F} (h : NoReturn log)
    {ev : Event W (RiskOp.Ans (F := F)) Exc} (hev : closeAnswer ev = none) :
    NoReturn (ev :: log) := by
  refine h.cons fun responses hr => ?_
  rw [hev] at hr
  cases hr

/-- The loop is over: it has failed twice at least and closed nothing before, or the last
    call of `close_all_positions` returned. -/
inductive Over (log : RiskLog W F) : Prop
  | exhausted (hfailed : 2 ≤ failures log) (hclosed : ClosedOnReturn log)
  | returned (responses : List (BrokerResponse F)) (hlast : lastClose log = some (.ok responses))
      (hiff : ClosedOnReturn log ↔ (failures log < 2 → allOk responses))

/-- In a run whose loop is over, `LeavesClosed` is about the last results. -/
theorem Over.leavesClosed_iff {log : RiskLog W F} (h : Over log)
    (hentered : log.any attempts = true) : LeavesClosed log ↔ ClosedOnReturn log := by
  cases h with
  | exhausted hfailed hclosed =>
      exact ⟨fun _ => hclosed, fun _ _ hfew => absurd hfailed (by omega)⟩
  | returned responses hlast hiff =>
      rw [hiff]
      constructor
      · intro hleaves hfew
        obtain ⟨responses', hlast', hok⟩ := hleaves hentered hfew
        rw [hlast] at hlast'
        cases hlast'
        exact hok
      · exact fun hok _ hfew => ⟨responses, hlast, hok hfew⟩

/-- An event that is neither of the loop nor of its sleeps. -/
theorem Over.cons {log : RiskLog W F} {ev : Event W (RiskOp.Ans (F := F)) Exc} (h : Over log)
    (hclose : closeAnswer ev = none) (hslept : slept ev = false) : Over (ev :: log) := by
  have hfailures : failures (ev :: log) = failures log := by
    simp [failures, hslept]
  have hclosed : ClosedOnReturn (ev :: log) ↔ ClosedOnReturn log := by
    simp [ClosedOnReturn, hclose]
  have hlast : lastClose (ev :: log) = lastClose log := by
    simp [lastClose, hclose]
  cases h with
  | exhausted hfailed hno => exact .exhausted (by rw [hfailures]; exact hfailed) (hclosed.mpr hno)
  | returned responses hret hiff =>
      refine .returned responses (by rw [hlast]; exact hret) ?_
      rw [hclosed, hfailures]
      exact hiff

variable {env : Env W (RiskOp.Ans (F := F)) Exc} {self : Wiring}

/-- The end of an attempt: it raised and closed nothing, or `close_all_positions`
    returned. -/
def AttemptEnd (before : RiskLog W F) (out : Except Exc Unit) (log : RiskLog W F) : Prop :=
  log.any attempts = true ∧ failures log = failures before ∧
    ((∃ x, out = .error x) ∧ NoReturn log ∨ out = .ok () ∧ Over log)

theorem cancelAndClose_end (hconn : self.connector = true)
    {t : Trail W (RiskOp.Ans (F := F)) Exc} (ht : NoReturn t.log) :
    wp env (cancelAndClose self) (fun out t' => AttemptEnd t.log out t'.log) t := by
  have hclose : ∀ {t₁ : Trail W (RiskOp.Ans (F := F)) Exc}, NoReturn t₁.log →
      failures t₁.log = failures t.log →
      wp env (do let _ ← risk (F := F) .closeAllPositions)
        (fun out t' => AttemptEnd t.log out t'.log) t₁ := by
    intro t₁ hno hfailures
    refine wp_op_bind.mpr ⟨fun responses w _ => ?_, fun x w _ => ?_⟩
    · refine ⟨rfl, hfailures, .inr ⟨rfl, .returned responses rfl ?_⟩⟩
      have hsame : failures ((t₁.record .closeAllPositions (.ok responses) w).log)
          = failures t₁.log := rfl
      rw [hsame]
      constructor
      · exact fun h hfew => h.1 responses rfl hfew
      · intro hok
        refine ⟨fun responses' heq hfew => ?_, hno.closedOnReturn⟩
        cases heq
        exact hok hfew
    · refine ⟨rfl, hfailures, .inl ⟨⟨x, rfl⟩, hno.cons ?_⟩⟩
      intro responses heq
      cases heq
  unfold cancelAndClose
  simp only [hconn, if_true]
  split
  next =>
    refine wp_op_bind.mpr ⟨fun _ w _ => hclose (ht.skip rfl) rfl, fun x w _ => ?_⟩
    exact ⟨rfl, rfl, .inl ⟨⟨x, rfl⟩, ht.skip rfl⟩⟩
  next => exact hclose ht rfl

/-- The loop with `n` attempts left after `3 - n` failures. -/
theorem liquidate_over (hconn : self.connector = true)
    (hsleep : ∀ w n x w', ¬ env w (.sleep n) (.error x) w') (n : ℕ)
    {t : Trail W (RiskOp.Ans (F := F)) Exc} (hno : NoReturn t.log)
    (hleft : failures t.log + n = 3) (hentered : n = 3 ∨ t.log.any attempts = true) :
    wp env (liquidate self n)
      (fun out t' => out = .ok () ∧ t'.log.any attempts = true ∧ Over t'.log) t := by
  induction n generalizing t with
  | zero =>
      have hmade : t.log.any attempts = true := hentered.resolve_left (by omega)
      exact ⟨rfl, hmade, .exhausted (by omega) hno.closedOnReturn⟩
  | succ n ih =>
      refine wp_bind.mpr (wp_attempt.mpr ?_)
      refine wp_mono (cancelAndClose_end hconn hno) fun out t' hend => ?_
      obtain ⟨hmade, hfailures, hcase⟩ := hend
      rcases hcase with ⟨⟨x, rfl⟩, hno'⟩ | ⟨rfl, hover⟩
      swap
      · exact ⟨rfl, hmade, hover⟩
      refine wp_op_bind.mpr ⟨fun _ w _ => ?_, fun y w henv => absurd henv (hsleep _ _ _ _)⟩
      refine ih (hno'.skip rfl) ?_ (.inr ?_)
      · rw [Trail.record_log, failures, List.countP_cons_of_pos rfl]
        change failures t'.log + 1 + n = 3
        omega
      · rw [Trail.record_log, List.any_cons, hmade, Bool.or_true]

/-- What follows the loop in `kill_switch` has no part in it. -/
theorem notify_over (reason triggeredBy : String) {t : Trail W (RiskOp.Ans (F := F)) Exc}
    (hmade : t.log.any attempts = true) (ht : Over t.log) :
    wp env (do
      if self.broadcaster then
        risk (.broadcast reason triggeredBy)
      if self.schedulerController then
        risk .disableAllStrategies)
      (fun _ t' => t'.log.any attempts = true ∧ Over t'.log) t := by
  have hdisable : ∀ {t : Trail W (RiskOp.Ans (F := F)) Exc}, t.log.any attempts = true →
      Over t.log →
      wp env (if self.schedulerController then risk .disableAllStrategies else pure ())
        (fun _ t' => t'.log.any attempts = true ∧ Over t'.log) t := by
    intro t hmade ht
    split
    next => exact wp_op.mpr fun _ _ _ => ⟨hmade, ht.cons rfl rfl⟩
    next => exact ⟨hmade, ht⟩
  simp only
  split
  next =>
    refine wp_op_bind.mpr ⟨fun _ w' _ => hdisable hmade (ht.cons rfl rfl), fun x w' _ => ?_⟩
    exact ⟨hmade, ht.cons rfl rfl⟩
  next => exact hdisable hmade ht

/-- The loop is left early after a complete attempt exactly when every attempt that
    returns is complete. -/
theorem killSwitch_leavesClosed
    (hflag : ∀ w on x w', ¬ env w (.setKillSwitch on) (.error x) w')
    (hclock : ∀ w x w', ¬ env w .utcnow (.error x) w')
    (hsleep : ∀ w n x w', ¬ env w (.sleep n) (.error x) w')
    (hconn : self.connector = true) (reason triggeredBy : String) (w : W) :
    wp env (killSwitch self reason triggeredBy)
      (fun _ t' => LeavesClosed t'.log ↔ ClosedOnReturn t'.log) ⟨w, []⟩ := by
  refine wp_op_bind.mpr ⟨fun _ w₁ _ => ?_, fun x w₁ henv => absurd henv (hflag _ _ _ _)⟩
  refine wp_op_bind.mpr ⟨fun now w₂ _ => ?_, fun x w₂ henv => absurd henv (hclock _ _ _)⟩
  have hloop : ∀ {t : Trail W (RiskOp.Ans (F := F)) Exc}, NoReturn t.log → failures t.log = 0 →
      wp env (do
        liquidate self 3
        if self.broadcaster then
          risk (.broadcast reason triggeredBy)
        if self.schedulerController then
          risk .disableAllStrategies) (fun _ t' => LeavesClosed t'.log ↔ ClosedOnReturn t'.log)
        t := by
    intro t hno hfailures
    refine wp_seq (liquidate_over hconn hsleep 3 hno (by omega) (.inl rfl)) ?_ ?_
    · rintro _ t' ⟨-, hmade, hover⟩
      refine wp_mono (notify_over reason triggeredBy hmade hover) fun _ t'' hout => ?_
      exact hout.2.leavesClosed_iff hout.1
    · rintro x t' ⟨hout, -⟩
      cases hout
  have hstart : NoReturn ((({ world := w } : Trail W (RiskOp.Ans (F := F)) Exc).record
      (.setKillSwitch true) (.ok ()) w₁).record .utcnow (.ok now) w₂).log :=
    (NoReturn.nil.skip rfl).skip rfl
  refine wp_bind.mpr ?_
  unfold persistIncident
  split
  next =>
    refine wp_op.mpr ?_
    rintro (x | _) w₃ -
    · constructor
      · exact fun _ => (hstart.skip rfl).closedOnReturn
      · exact fun _ hentered => by cases hentered
    · exact hloop (hstart.skip rfl) rfl
  next => exact hloop hstart rfl

-- ============================================================================
-- With an MT5 connector
-- ============================================================================

/-- An operation of the risk engine other than `close_all_positions` is its own. -/
theorem risk_via_own {env : Env W (BrokerRiskAns F) Exc} {e : RiskOp F}
    (he : riskOverMt5 e = Prog.opInl e) {a : Except Exc e.Ans}
    {t t' : Trail W (BrokerRiskAns F) Exc} (h : env.via riskOverMt5 t e a t') :
    ∃ w', env t.world (.inl e) a w' := by
  rw [Env.via, he] at h
  obtain ⟨w', henv, -⟩ := exec_opInl h
  exact ⟨w', henv⟩

/-- One open position, and a broker that rejects every request. -/
def rejecting : Answers Unit (BrokerRiskAns ℚ) Exc :=
  fun w e =>
    match e with
    | .inl .killSwitch => (.ok true, w)
    | .inl (.setKillSwitch _) => (.ok (), w)
    | .inl .rules => (.ok [], w)
    | .inl .lastTradeTs => (.ok none, w)
    | .inl (.setLastTradeTs _) => (.ok (), w)
    | .inl .utcnow => (.ok 0, w)
    | .inl (.saveRiskIncident _) => (.ok (), w)
    | .inl .cancelAllOrders => (.ok (), w)
    | .inl .closeAllPositions => (.ok [], w)
    | .inl (.broadcast _ _) => (.ok (), w)
    | .inl .disableAllStrategies => (.ok (), w)
    | .inl (.sleep _) => (.ok (), w)
    | .inr (.idempotencyGet _) => (.ok none, w)
    | .inr (.idempotencySet _ _) => (.ok (), w)
    | .inr (.symbolInfo _) => (.ok none, w)
    | .inr (.symbolInfoTick _) => (.ok (some ⟨1, 1⟩), w)
    | .inr (.symbolSelect _) => (.ok true, w)
    | .inr (.orderCalcMargin _ _ _ _) => (.ok none, w)
    | .inr .accountInfo => (.ok none, w)
    | .inr (.positionsGet _) => (.ok (some [⟨1, "EURUSD", .buy, 1, 1, 0⟩]), w)
    | .inr (.orderSend _) =>
        (.ok (some { retcode := 10006, order := 0, deal := 0, volume := 0 }), w)
    | .inr .lastError => (.ok "", w)

/-- The answers of an engine whose connector is on such a broker. -/
def rejectedAnswers : Answers (Trail Unit (BrokerRiskAns ℚ) Exc) (RiskOp.Ans (F := ℚ)) Exc :=
  fun t e => (riskOverMt5 e).play rejecting t

/-- The run of a kill switch on such a broker. -/
def rejectedRun : Except Exc Unit ×
    Trail (Trail Unit (BrokerRiskAns ℚ) Exc) (RiskOp.Ans (F := ℚ)) Exc :=
  (killSwitch { connector := true } "drawdown" "ops").play rejectedAnswers ⟨⟨(), []⟩, []⟩

/-- The `ok` entries of the last results of `close_all_positions`. -/
def lastResults (log : RiskLog W F) : List Bool :=
  match lastClose log with
  | some (.ok responses) => responses.map BrokerResponse.ok
  | _ => []

/-- The position is still open, and there is no second attempt. -/
theorem killSwitch_leaves_open :
    ¬ wp ((Env.ofAnswers rejecting).via riskOverMt5)
      (killSwitch { connector := true } "drawdown" "ops")
      (fun _ t' => LeavesClosed t'.log) ⟨⟨(), []⟩, []⟩ := by
  intro hwp
  have hsound : ∀ t (e : RiskOp ℚ), (Env.ofAnswers rejecting).via riskOverMt5 t e
      (rejectedAnswers t e).1 (rejectedAnswers t e).2 :=
    fun t e => Prog.play_sound (Env.ofAnswers_self rejecting) (riskOverMt5 e) t
  have hplay := Prog.play_sound hsound (killSwitch { connector := true } "drawdown" "ops")
    ⟨⟨(), []⟩, []⟩
  obtain ⟨responses, hlast, hok⟩ := hplay.sound hwp (by decide +kernel) (by decide +kernel)
  have hlast : lastClose rejectedRun.2.log = some (.ok responses) := hlast
  have hresults : lastResults rejectedRun.2.log = [false] := by decide +kernel
  rw [lastResults, hlast] at hresults
  obtain ⟨r, hr, hopen⟩ := List.mem_map.mp (hresults ▸ List.mem_singleton_self false)
  rw [hok r hr] at hopen
  cases hopen

/-- For every behaviour of the broker, `kill_switch` leaves its loop before a third
    attempt only after one in which every close request was answered `ok` True exactly
    when no attempt of the first two in which `close_all_positions` returns has another
    result. -/
theorem killSwitch_leavesClosed_iff (env : Env W (BrokerRiskAns F) Exc)
    (hflag : ∀ w on x w', ¬ env w (.inl (.setKillSwitch on)) (.error x) w')
    (hclock : ∀ w x w', ¬ env w (.inl .utcnow) (.error x) w')
    (hsleep : ∀ w n x w', ¬ env w (.inl (.sleep n)) (.error x) w')
    (self : Wiring) (hconn : self.connector = true) (reason triggeredBy : String) (w : W) :
    wp (env.via riskOverMt5) (killSwitch self reason triggeredBy)
      (fun _ t' => LeavesClosed t'.log ↔ ClosedOnReturn t'.log) ⟨⟨w, []⟩, []⟩ := by
  refine killSwitch_leavesClosed ?_ ?_ ?_ hconn reason triggeredBy _
  · intro t on x t' hvia
    obtain ⟨w', henv⟩ := risk_via_own (e := .setKillSwitch on) rfl hvia
    exact hflag _ _ _ _ henv
  · intro t x t' hvia
    obtain ⟨w', henv⟩ := risk_via_own (e := .utcnow) rfl hvia
    exact hclock _ _ _ henv
  · intro t n x t' hvia
    obtain ⟨w', henv⟩ := risk_via_own (e := .sleep n) rfl hvia
    exact hsleep _ _ _ _ henv

/-- The broker that rejects every request. -/
theorem killSwitch_leavesClosed_iff_rejecting :
    wp ((Env.ofAnswers rejecting).via riskOverMt5)
      (killSwitch { connector := true } "drawdown" "ops")
      (fun _ t' => LeavesClosed t'.log ↔ ClosedOnReturn t'.log) ⟨⟨(), []⟩, []⟩ := by
  refine killSwitch_leavesClosed_iff (Env.ofAnswers rejecting) ?_ ?_ ?_ { connector := true } rfl
    "drawdown" "ops" ()
  · rintro w on x w' ⟨h, -⟩
    cases h
  · rintro w x w' ⟨h, -⟩
    cases h
  · rintro w n x w' ⟨h, -⟩
    cases h

end Mtrader.Service
