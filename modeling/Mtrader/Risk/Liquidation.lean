/-
  Mtrader.Risk.Liquidation

  Which calls of `kill_switch` come to close the positions.

  The incident is saved outside any `try`, and closing follows the order cancel
  inside one `try`, so a repository or an execution engine that raises keeps the
  connector from being called at all.
-/

import Mtrader.Risk.Engine
import Mtrader.Coroutine.Exec

namespace Mtrader.Risk

open Coroutine Py Mtrader.Connectors

variable {F W : Type}

abbrev RiskLog (W F : Type) : Type := List (Event W (RiskOp.Ans (F := F)) Exc)

/-- `close_all_positions` was called. -/
def closeCalled : Event W (RiskOp.Ans (F := F)) Exc → Bool
  | ⟨_, .closeAllPositions, _⟩ => true
  | _ => false

/-- `cancel_all_orders` was called and returned. -/
def cancelReturned : Event W (RiskOp.Ans (F := F)) Exc → Bool
  | ⟨_, .cancelAllOrders, .ok _⟩ => true
  | _ => false

/-- `save_risk_incident` was called and returned. -/
def saveReturned : Event W (RiskOp.Ans (F := F)) Exc → Bool
  | ⟨_, .saveRiskIncident _, .ok _⟩ => true
  | _ => false

/-- The connector was told to close the positions. -/
def closes (log : RiskLog W F) : Bool := log.any closeCalled

/-- Some call of `cancel_all_orders` returned. -/
def cancels (log : RiskLog W F) : Bool := log.any cancelReturned

/-- The incident was saved. -/
def saves (log : RiskLog W F) : Bool := log.any saveReturned

variable {env : Env W (RiskOp.Ans (F := F)) Exc} {self : Wiring}

/-- Positions are closed exactly when no execution engine stands before them or one
    of its order cancels returned; `saved` is whether the incident was saved. -/
structure Attempted (wiring : Wiring) (saved : Bool) (log : RiskLog W F) : Prop where
  closes : closes log = (!wiring.executionEngine || cancels log)
  saves : saves log = saved

/-- An operation that neither closes, cancels nor saves. -/
theorem Attempted.cons {saved : Bool} {ev : Event W (RiskOp.Ans (F := F)) Exc}
    {log : RiskLog W F} (h : Attempted self saved log) (hclose : closeCalled ev = false)
    (hcancel : cancelReturned ev = false) (hsave : saveReturned ev = false) :
    Attempted self saved (ev :: log) where
  closes := by simpa [Risk.closes, cancels, hclose, hcancel] using h.closes
  saves := by simpa [Risk.saves, hsave] using h.saves

/-- One attempt of the loop. -/
theorem cancelAndClose_attempted (hconn : self.connector = true) {saved : Bool}
    {t : Trail W (RiskOp.Ans (F := F)) Exc} (hsaved : saves t.log = saved)
    (ht : self.executionEngine = true → closes t.log = cancels t.log) :
    wp env (cancelAndClose self) (fun _ t' => Attempted self saved t'.log) t := by
  unfold cancelAndClose
  simp only [hconn, if_true]
  split
  next hengine =>
    refine wp_op_bind.mpr ⟨fun _ w' _ => ?_, fun x w' _ => ?_⟩
    · refine wp_op_bind.mpr ⟨fun _ w'' _ => ?_, fun x w'' _ => ?_⟩
      all_goals
        refine ⟨?_, by simpa [saves, saveReturned] using hsaved⟩
        simp [closes, closeCalled, cancels, cancelReturned]
    · refine ⟨?_, by simpa [saves, saveReturned] using hsaved⟩
      simpa [closes, closeCalled, cancels, cancelReturned, hengine] using ht hengine
  next hengine =>
    refine wp_op_bind.mpr ⟨fun _ w' _ => ?_, fun x w' _ => ?_⟩
    all_goals
      refine ⟨?_, by simpa [saves, saveReturned] using hsaved⟩
      simp [closes, closeCalled, hengine]

/-- Further attempts keep what one attempt has established. -/
theorem liquidate_attempted (hconn : self.connector = true) (n : ℕ) {saved : Bool}
    {t : Trail W (RiskOp.Ans (F := F)) Exc} (ht : Attempted self saved t.log) :
    wp env (liquidate self n) (fun _ t' => Attempted self saved t'.log) t := by
  induction n generalizing t with
  | zero => exact ht
  | succ n ih =>
      have hmatch : self.executionEngine = true → closes t.log = cancels t.log := fun h => by
        simpa [h] using ht.closes
      refine wp_bind.mpr (wp_attempt.mpr ?_)
      refine wp_mono (cancelAndClose_attempted hconn ht.saves hmatch) fun out t' hout => ?_
      cases out with
      | ok _ => exact hout
      | error _ =>
          refine wp_op_bind.mpr ⟨fun _ w' _ => ih ?_, fun x w' _ => ?_⟩
          all_goals exact hout.cons rfl rfl rfl

/-- The retry loop, from its first attempt. -/
theorem liquidate_succ_attempted (hconn : self.connector = true) (n : ℕ) {saved : Bool}
    {t : Trail W (RiskOp.Ans (F := F)) Exc} (hsaved : saves t.log = saved)
    (hcloses : closes t.log = false) (hcancels : cancels t.log = false) :
    wp env (liquidate self (n + 1)) (fun _ t' => Attempted self saved t'.log) t := by
  refine wp_bind.mpr (wp_attempt.mpr ?_)
  refine wp_mono (cancelAndClose_attempted hconn hsaved fun _ => hcloses.trans hcancels.symm)
    fun out t' hout => ?_
  cases out with
  | ok _ => exact hout
  | error _ =>
      refine wp_op_bind.mpr ⟨fun _ w' _ => liquidate_attempted hconn n ?_, fun x w' _ => ?_⟩
      all_goals exact hout.cons rfl rfl rfl

/-- What follows the loop in `kill_switch`. -/
theorem notify_attempted (reason triggeredBy : String) {saved : Bool}
    {t : Trail W (RiskOp.Ans (F := F)) Exc} (ht : Attempted self saved t.log) :
    wp env (do
      if self.broadcaster then
        risk (.broadcast reason triggeredBy)
      if self.schedulerController then
        risk .disableAllStrategies) (fun _ t' => Attempted self saved t'.log) t := by
  have hdisable : ∀ {t : Trail W (RiskOp.Ans (F := F)) Exc}, Attempted self saved t.log →
      wp env (if self.schedulerController then risk .disableAllStrategies else pure ())
        (fun _ t' => Attempted self saved t'.log) t := by
    intro t ht
    split
    next => exact wp_op.mpr fun _ _ _ => ht.cons rfl rfl rfl
    next => exact ht
  simp only
  split
  next =>
    refine wp_op_bind.mpr ⟨fun _ w' _ => hdisable ?_, fun x w' _ => ?_⟩
    all_goals exact ht.cons rfl rfl rfl
  next => exact hdisable ht

-- ============================================================================
-- The program's own execution engine
-- ============================================================================

/-- The methods of `ExecutionEngine`. -/
def executionEngineMethods : List String :=
  ["__init__", "submit_order", "cancel_order", "update_order_status", "get_order",
   "get_orders", "on", "off", "_emit", "_hydrate"]

/-- `await engine.name()` on an `ExecutionEngine`, where nothing else can fail. -/
def callExecutionEngine (name : String) : Except Exc Unit :=
  if name ∈ executionEngineMethods then .ok ()
  else .error (.attributeError ("'ExecutionEngine' object has no attribute '" ++ name ++ "'"))

/-- Collaborators that all succeed, but that the execution engine is the program's. -/
def ownEngineAnswers : Answers Unit (RiskOp.Ans (F := F)) Exc :=
  fun w e =>
    match e with
    | .killSwitch => (.ok true, w)
    | .setKillSwitch _ => (.ok (), w)
    | .rules => (.ok [], w)
    | .lastTradeTs => (.ok none, w)
    | .setLastTradeTs _ => (.ok (), w)
    | .utcnow => (.ok 0, w)
    | .saveRiskIncident _ => (.ok (), w)
    | .cancelAllOrders => (callExecutionEngine "cancel_all_orders", w)
    | .closeAllPositions => (.ok [], w)
    | .broadcast _ _ => (.ok (), w)
    | .disableAllStrategies => (.ok (), w)
    | .sleep _ => (.ok (), w)

/-- An engine with a connector and the program's execution engine. -/
def connectedWiring : Wiring := { connector := true, executionEngine := true }

/-- With the program's own execution engine the positions stay open. -/
theorem killSwitch_not_always_closes :
    ¬ wp (Env.ofAnswers (ownEngineAnswers (F := ℚ))) (killSwitch connectedWiring "drawdown" "ops")
      (fun _ t' => closes t'.log = true) ⟨(), []⟩ := by
  intro hwp
  have hplay := Prog.play_sound (Env.ofAnswers_self (ownEngineAnswers (F := ℚ)))
    (killSwitch connectedWiring "drawdown" "ops") ⟨(), []⟩
  have hclosed := hplay.sound hwp
  revert hclosed
  decide +kernel

/-- `kill_switch` has the connector close the positions exactly when its incident
    is saved or there is no repository, and there is no execution engine or one of
    its order cancels returns. -/
theorem killSwitch_closes_iff
    (hflag : ∀ w on x w', ¬ env w (.setKillSwitch on) (.error x) w')
    (hclock : ∀ w x w', ¬ env w .utcnow (.error x) w')
    (hconn : self.connector = true) (reason triggeredBy : String) (w : W) :
    wp env (killSwitch self reason triggeredBy)
      (fun _ t' => closes t'.log = true ↔
        (self.repository = false ∨ saves t'.log = true) ∧
          (self.executionEngine = false ∨ cancels t'.log = true)) ⟨w, []⟩ := by
  refine wp_op_bind.mpr ⟨fun _ w₁ _ => ?_, fun x w₁ henv => absurd henv (hflag _ _ _ _)⟩
  refine wp_op_bind.mpr ⟨fun now w₂ _ => ?_, fun x w₂ henv => absurd henv (hclock _ _ _)⟩
  have hloop : ∀ {saved : Bool} {t : Trail W (RiskOp.Ans (F := F)) Exc},
      saves t.log = saved → closes t.log = false → cancels t.log = false →
      wp env (do
        liquidate self 3
        if self.broadcaster then
          risk (.broadcast reason triggeredBy)
        if self.schedulerController then
          risk .disableAllStrategies) (fun _ t' => Attempted self saved t'.log) t := by
    intro saved t hsaved hcloses hcancels
    refine wp_seq (liquidate_succ_attempted hconn 2 hsaved hcloses hcancels) ?_ ?_
    · exact fun _ t' ht' => notify_attempted reason triggeredBy ht'
    · exact fun x t' ht' => ht'
  refine wp_bind.mpr ?_
  unfold persistIncident
  split
  next hrepo =>
    refine wp_op.mpr ?_
    rintro (x | _) w₃ -
    · simp [closes, closeCalled, saves, saveReturned, hrepo]
    · refine wp_mono (hloop rfl rfl rfl) fun out t' hout => ?_
      have hsaves : saves t'.log = true := hout.saves
      simp [hout.closes, hsaves]
  next hrepo =>
    rw [wp_pure]
    refine wp_mono (hloop rfl rfl rfl) fun out t' hout => ?_
    simp [hout.closes, hrepo]

/-- The execution engine's missing method costs all three attempts. -/
theorem killSwitch_closes_iff_ownEngine :
    wp (Env.ofAnswers (ownEngineAnswers (F := ℚ))) (killSwitch connectedWiring "drawdown" "ops")
      (fun _ t' => closes t'.log = true ↔
        (connectedWiring.repository = false ∨ saves t'.log = true) ∧
          (connectedWiring.executionEngine = false ∨ cancels t'.log = true)) ⟨(), []⟩ :=
  killSwitch_closes_iff (fun _ _ _ _ h => nomatch h.1) (fun _ _ _ h => nomatch h.1) rfl _ _ _

end Mtrader.Risk
