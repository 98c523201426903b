/-
  Mtrader.Service.KillSwitch

  Submissions against `kill_switch` and `release_kill_switch` on the risk engine
  that the execution engine uses.

  The flag is read once, at the start of the risk check; between that reading and
  the broker call a submission waits for the repository and the callbacks.  A
  submission in that window is in flight, and it is the submissions in flight
  that a kill switch does not stop.
-/

import Mtrader.Execution.Bookkeeping
import Mtrader.Execution.Table
import Mtrader.Coroutine.Interleave

namespace Mtrader.Service

open Coroutine Py Mtrader.Execution Mtrader.Connectors Mtrader.Risk

variable {F : Type}

/-- What the engine and its risk engine call together. -/
abbrev RiskServiceOp (F : Type) : Type := EngineOp F ⊕ RiskOp F

abbrev RiskServiceAns (F : Type) : RiskServiceOp F → Type :=
  Prog.SumAns (EngineOp.Ans (F := F)) (RiskOp.Ans (F := F))

/-- The programs of an engine on a risk engine. -/
abbrev RiskServiceM (F : Type) : Type → Type := Prog (RiskServiceAns F) Exc

/-- A call of the risk engine, inside the service. -/
abbrev riskEngine {R : Type} (p : RiskM F R) : RiskServiceM F R := p.inr

/-- `self.risk_engine` is a `RiskEngine`. -/
def overRisk [Prims F] (wiring : Wiring) : (e : EngineOp F) → RiskServiceM F e.Ans
  | .preTradeCheck order accountInfo positions =>
      riskEngine (preTradeCheck wiring order accountInfo positions)
  | e => Prog.opInl e

/-- A call of `submit_order`, `kill_switch` or `release_kill_switch`. -/
inductive SafetyCall (F : Type)
  | submit (order : Order F)
  | killSwitch (reason triggeredBy : String)
  | release

/-- The program of a call; what it returns is dropped. -/
def SafetyCall.prog [Prims F] (wiring : Wiring) : SafetyCall F → RiskServiceM F Unit
  | .submit order => do
      let _ ← (submitOrder order).link (overRisk wiring)
  | .killSwitch reason triggeredBy => riskEngine (Risk.killSwitch wiring reason triggeredBy)
  | .release => do
      let _ ← riskEngine (releaseKillSwitch wiring)

-- ============================================================================
-- The flag is read before the broker is called
-- ============================================================================

/-- The broker is called only after the flag has been read as off, and not read as
    on since. -/
def flagFirst (F : Type) : Discipline (RiskServiceAns F) Exc Bool where
  may cleared
    | .inl (.executeOrder _) => cleared = true
    | _ => True
  next cleared
    | .inr .killSwitch, .ok on => !on
    | .inr .killSwitch, .error _ => false
    | _, _ => cleared

/-- The risk engine's own programs may do anything. -/
theorem riskEngine_flagFirst {R : Type} (p : RiskM F R) :
    (riskEngine p).Always (flagFirst F) := by
  have hmay : ∀ g e, (flagFirst F).right.may g e := fun _ _ => trivial
  exact fun g => Prog.Obeys.inr (Prog.always_of_may hmay p g)

/-- The reading of the flag. -/
def readsFlag : RiskOp F → Bool
  | .killSwitch => true
  | _ => false

/-- The promise not to read the flag. -/
abbrev noFlagRead (F : Type) : Discipline (RiskOp.Ans (F := F)) Exc Unit :=
  .only fun e => readsFlag e = false

theorem flagFirst_idle {cleared : Bool} {e : RiskOp F} (he : readsFlag e = false) :
    (flagFirst F).right.may cleared e ∧
      ∀ a, (flagFirst F).right.next cleared e a = cleared := by
  refine ⟨trivial, fun a => ?_⟩
  cases e with
  | killSwitch => cases he
  | _ => rfl

theorem persistIncident_noFlagRead (wiring : Wiring) (incident : Incident F) :
    (persistIncident wiring incident).Always (noFlagRead F) := by
  unfold persistIncident
  split
  next => exact Prog.always_op fun _ => rfl
  next => exact Prog.always_ret ()

section

variable [Prims F]

theorem checkRules_noFlagRead (wiring : Wiring) (order : OrderDict F)
    (accountInfo : Dict AccountKey F) (lastTradeTs : Option Time) (now : Time)
    (rules : List (RiskRule F)) :
    (checkRules wiring order accountInfo lastTradeTs now rules).Always (noFlagRead F) := by
  induction rules with
  | nil => exact (Prog.always_op fun _ => rfl).bind fun _ => Prog.always_ret _
  | cons rule rest ih =>
      unfold checkRules
      split
      next => exact ih
      next =>
        refine (Prog.always_ofExcept _).bind fun ⟨violated, actualValues⟩ => ?_
        simp only
        split
        next =>
          refine (Prog.always_op fun _ => rfl).bind fun createdAt => ?_
          exact (persistIncident_noFlagRead _ _).bind fun _ => Prog.always_ret _
        next => exact ih

/-- An approval means that the flag was read as off. -/
theorem preTradeCheck_flagFirst (wiring : Wiring) (order : OrderDict F)
    (accountInfo : Dict AccountKey F) (positions : List (Dict PositionKey F)) (cleared : Bool) :
    (riskEngine (preTradeCheck wiring order accountInfo positions)).Obeys (flagFirst F)
      (fun out cleared' => ∀ approval, out = .ok approval → approval.approved = true →
        cleared' = true) cleared := by
  refine Prog.Obeys.inr (Prog.obeys_op_bind.mpr ⟨trivial, fun killed => ?_, fun x => nofun⟩)
  cases killed with
  | true =>
      rintro approval h happroved
      cases h
      cases happroved
  | false =>
      have hrest : (do
          let now ← risk (F := F) .utcnow
          let lastTradeTs ← risk (F := F) .lastTradeTs
          let rules ← risk (F := F) .rules
          checkRules wiring order accountInfo lastTradeTs now rules).Always (noFlagRead F) := by
        refine (Prog.always_op fun _ => rfl).bind fun now => ?_
        refine (Prog.always_op fun _ => rfl).bind fun lastTradeTs => ?_
        refine (Prog.always_op fun _ => rfl).bind fun rules => ?_
        exact checkRules_noFlagRead wiring order accountInfo lastTradeTs now rules
      exact ((hrest ()).of_only fun _ => flagFirst_idle).mono fun _ _ h _ _ _ => h.1

/-- What the submission's discipline allows, its implementation does after reading
    the flag as off. -/
theorem overRisk_flagFirst (wiring : Wiring) (order : Order F) {approved cleared : Bool}
    (hcleared : approved = true → cleared = true) (e : EngineOp F)
    (hmay : (submission order).may approved e) :
    (overRisk wiring e).Obeys (flagFirst F)
      (fun a cleared' => (submission order).next approved e a = true → cleared' = true)
      cleared := by
  cases e with
  | preTradeCheck d accountInfo positions =>
      refine (preTradeCheck_flagFirst wiring d accountInfo positions cleared).mono ?_
      rintro (x | approval) cleared' h happroved
      · cases happroved
      · exact h approval rfl happroved
  | executeOrder d => exact ⟨hcleared hmay.1, fun a => Prog.obeys_ofExcept.mpr hcleared⟩
  | _ => exact ⟨trivial, fun a => Prog.obeys_ofExcept.mpr hcleared⟩

/-- Every call keeps the discipline from its start. -/
theorem prog_flagFirst (wiring : Wiring) (call : SafetyCall F) :
    (call.prog wiring).Obeys (flagFirst F) (fun _ _ => True) false := by
  cases call with
  | submit order =>
      have hlink := (submitOrder_submission order).link
        (fun (approved cleared : Bool) => approved = true → cleared = true) id
        fun approved cleared e hcleared hmay => overRisk_flagFirst wiring order hcleared e hmay
      exact hlink.seq (fun _ _ _ => trivial) fun _ _ _ => trivial
  | killSwitch reason triggeredBy => exact riskEngine_flagFirst _ false
  | release => exact (riskEngine_flagFirst _).bind (fun _ => Prog.always_ret ()) false

end

-- ============================================================================
-- Submissions in flight
-- ============================================================================

/-- The coroutine can come to call the broker without reading the flag again. -/
def InFlight {R : Type} (p : RiskServiceM F R) : Prop :=
  ∃ d, p.Reaches (fun e => e ≠ .inr .killSwitch) (.inl (.executeOrder d))

/-- A coroutine that must read the flag first is not in flight. -/
theorem not_inFlight_of_obeys {R : Type} {p : RiskServiceM F R}
    (hp : p.Obeys (flagFirst F) (fun _ _ => True) false) : ¬ InFlight p := by
  rintro ⟨d, hreaches⟩
  generalize he : (.inl (.executeOrder d) : RiskServiceOp F) = e at hreaches
  induction hreaches with
  | here e k =>
      subst he
      exact absurd hp.1 (by simp [flagFirst])
  | @later e e' k a hthrough _ ih =>
      have hnext : (flagFirst F).next false e a = false := by
        rcases e with e | e
        · rfl
        · cases e with
          | killSwitch => exact absurd rfl hthrough
          | _ => rfl
      exact ih (hnext ▸ hp.2 a) he

/-- After any operation but the reading of the flag, a coroutine that was not in
    flight is not. -/
theorem not_inFlight_step {R : Type} {e : RiskServiceOp F}
    {k : Except Exc (RiskServiceAns F e) → RiskServiceM F R} (hp : ¬ InFlight (.call e k))
    (he : e ≠ .inr .killSwitch) (a : Except Exc (RiskServiceAns F e)) : ¬ InFlight (k a) := by
  rintro ⟨d, hreaches⟩
  exact hp ⟨d, .later he hreaches⟩

-- ============================================================================
-- Interleaved calls
-- ============================================================================

/-- The risk engine's flag and the execution engine's lock. -/
structure SafetyWorld (ι : Type) where
  killSwitch : Bool := false
  holder : Option ι := none

variable {ι : Type}

/-- The collaborators of coroutine `i`: the flag and the lock are what they are,
    and everything else answers anything. -/
def safetyEnv (i : ι) : Env (SafetyWorld ι) (RiskServiceAns F) Exc :=
  fun w e a w' =>
    match e, a with
    | .inr .killSwitch, a => a = .ok w.killSwitch ∧ w' = w
    | .inr (.setKillSwitch on), a => a = .ok () ∧ w' = { w with killSwitch := on }
    | .inl .acquire, .ok _ => w.holder = none ∧ w' = { w with holder := some i }
    | .inl .release, .ok _ => w' = { w with holder := none }
    | _, _ => w' = w

/-- An operation other than the setting of the flag leaves it. -/
theorem safetyEnv_killSwitch {i : ι} {w w' : SafetyWorld ι} {e : RiskServiceOp F}
    {a : Except Exc (RiskServiceAns F e)} (h : safetyEnv i w e a w')
    (he : ∀ on, e ≠ .inr (.setKillSwitch on)) : w'.killSwitch = w.killSwitch := by
  rcases e with e | e
  · cases e with
    | acquire =>
        cases a with
        | ok _ => obtain ⟨-, rfl⟩ := h; rfl
        | error x => cases h; rfl
    | release => cases a <;> cases h <;> rfl
    | _ => cases h; rfl
  · cases e with
    | killSwitch => obtain ⟨-, rfl⟩ := h; rfl
    | setKillSwitch on => exact absurd rfl (he on)
    | _ => cases h; rfl

variable [Prims F]

/-- The configuration in which no call has begun. -/
def safetyStart (wiring : Wiring) (calls : ι → SafetyCall F) (w₀ : SafetyWorld ι) :
    Config ι (SafetyWorld ι) (RiskServiceAns F) Exc Unit where
  world := w₀
  pool i := (calls i).prog wiring

abbrev SafetyHistory (ι F : Type) : Type := History ι (SafetyWorld ι) (RiskServiceAns F) Exc

variable [DecidableEq ι] {suspends : RiskServiceOp F → Bool}
variable {wiring : Wiring} {calls : ι → SafetyCall F} {w₀ : SafetyWorld ι}
variable {h : SafetyHistory ι F} {c : Config ι (SafetyWorld ι) (RiskServiceAns F) Exc Unit}

/-- Whenever the run sets the flag, no submission is in flight. -/
def SwitchedBetween (suspends : RiskServiceOp F → Bool) (wiring : Wiring)
    (calls : ι → SafetyCall F) (w₀ : SafetyWorld ι) (h : SafetyHistory ι F) : Prop :=
  ∀ h' c₁ c₂ i ev, (i, ev) :: h' <:+ h →
    Run suspends safetyEnv (safetyStart wiring calls w₀) h' c₁ →
    Step suspends safetyEnv c₁ i ev c₂ → ev.op = .inr (.setKillSwitch true) →
      ∀ j, ¬ InFlight (c₁.pool j)

/-- While the flag is on, no submission is in flight. -/
theorem not_inFlight_of_killed
    (hrun : Run suspends safetyEnv (safetyStart wiring calls w₀) h c)
    (hcond : SwitchedBetween suspends wiring calls w₀ h) (hkilled : c.world.killSwitch = true) :
    ∀ j, ¬ InFlight (c.pool j) := by
  refine hrun.invariant_of_steps
    (I := fun _ c => c.world.killSwitch = true → ∀ j, ¬ InFlight (c.pool j))
    (P := fun _ c₁ _ ev => ev.op = .inr (.setKillSwitch true) → ∀ j, ¬ InFlight (c₁.pool j))
    hcond ?_ ?_ hkilled
  · exact fun _ j => not_inFlight_of_obeys (prog_flagFirst wiring (calls j))
  · intro h c i ev c' hr hI hP hs hkilled
    have hobeys := (Run.cons hr hs).obeys (prog_flagFirst wiring (calls i))
    cases hs with
    | @mk e k a w' _ hp henv =>
        -- before the step nobody was in flight, unless it has just read the flag as on
        have hbefore : e ≠ .inr .killSwitch → ∀ j, ¬ InFlight (c.pool j) := by
          intro hread j
          by_cases hset : ∃ on, e = .inr (.setKillSwitch on)
          · obtain ⟨on, rfl⟩ := hset
            obtain ⟨-, rfl⟩ := henv
            cases hkilled
            exact hP rfl j
          · have hsame := safetyEnv_killSwitch henv fun on he => hset ⟨on, he⟩
            exact hI (hsame ▸ hkilled) j
        intro j
        by_cases hji : j = i
        · subst hji
          by_cases hread : e = .inr .killSwitch
          · subst hread
            obtain ⟨rfl, rfl⟩ := henv
            have hkilled : c.world.killSwitch = true := hkilled
            rw [Discipline.ghost_self] at hobeys
            refine not_inFlight_of_obeys ?_
            simpa [flagFirst, hkilled] using hobeys
          · have hnot := hbefore hread j
            rw [hp] at hnot
            simpa [Config.resume] using not_inFlight_step hnot hread a
        · have hpool : (c.resume suspends i (k a) w').pool j = c.pool j :=
            Function.update_of_ne hji _ _
          rw [hpool]
          by_cases hread : e = .inr .killSwitch
          · subst hread
            obtain ⟨-, rfl⟩ := henv
            exact hI hkilled j
          · exact hbefore hread j

-- ============================================================================
-- A kill switch that comes too late
-- ============================================================================

/-- The awaits of the service. -/
def serviceSuspends : RiskServiceOp F → Bool
  | .inl e => e.suspends
  | .inr e => e.suspends

/-- Collaborators that succeed at once, over a repository with a pending row. -/
def calmHandler (i : ι) : Handler (SafetyWorld ι) (RiskServiceAns ℚ) Exc :=
  fun w e =>
    match e with
    | .inl .acquire => if w.holder.isNone then some (.ok (), { w with holder := some i }) else none
    | .inl .release => some (.ok (), { w with holder := none })
    | .inl .utcnow => some (.ok 0, w)
    | .inl .getAccountInfo => some (.ok Dict.empty, w)
    | .inl (.getPositions _) => some (.ok [], w)
    | .inl (.executeOrder _) => some (.ok { ok := true }, w)
    | .inl (.cancelOrder _) => some (.ok true, w)
    | .inl (.preTradeCheck _ _ _) => some (.ok { approved := true }, w)
    | .inl (.repoGetOrder _) => some (.ok (some sampleOrder.toDict), w)
    | .inl (.repoUpdateOrder _ _) => some (.ok (), w)
    | .inl (.repoSaveOrder _) => some (.ok "o1", w)
    | .inl (.callbacks _ _) => some (.ok [], w)
    | .inl (.invoke _ payload) => some (.ok { payload }, w)
    | .inr .killSwitch => some (.ok w.killSwitch, w)
    | .inr (.setKillSwitch on) => some (.ok (), { w with killSwitch := on })
    | .inr .rules => some (.ok RuleSet.initial.rules, w)
    | .inr .lastTradeTs => some (.ok none, w)
    | .inr (.setLastTradeTs _) => some (.ok (), w)
    | .inr .utcnow => some (.ok 0, w)
    | .inr (.saveRiskIncident _) => some (.ok (), w)
    | .inr .cancelAllOrders => some (.ok (), w)
    | .inr .closeAllPositions => some (.ok [], w)
    | .inr (.broadcast _ _) => some (.ok (), w)
    | .inr .disableAllStrategies => some (.ok (), w)
    | .inr (.sleep _) => some (.ok (), w)

omit [DecidableEq ι] in
theorem calmHandler_sound (i : ι) (w : SafetyWorld ι) (e : RiskServiceOp ℚ)
    (a : Except Exc (RiskServiceAns ℚ e)) (w' : SafetyWorld ι)
    (h : calmHandler i w e = some (a, w')) : safetyEnv i w e a w' := by
  rcases e with e | e
  · cases e with
    | acquire =>
        simp only [calmHandler] at h
        split at h
        next hfree =>
          cases h
          exact ⟨by simpa using hfree, rfl⟩
        next => cases h
    | _ =>
        cases h
        exact rfl
  · cases e with
    | killSwitch =>
        cases h
        exact ⟨rfl, rfl⟩
    | setKillSwitch on =>
        cases h
        exact ⟨rfl, rfl⟩
    | _ =>
        cases h
        exact rfl

/-- A kill switch, its release and a submission. -/
def killReleaseSubmit : Fin 3 → SafetyCall ℚ
  | 0 => .killSwitch "drawdown" "ops"
  | 1 => .release
  | 2 => .submit sampleOrder

/-- The event is a broker call. -/
def callsBroker (ev : Event (SafetyWorld ι) (RiskServiceAns F) Exc) : Bool :=
  match ev.op with
  | .inl (.executeOrder _) => true
  | _ => false

omit [Prims F] [DecidableEq ι] in
theorem callsBroker_iff {ev : Event (SafetyWorld ι) (RiskServiceAns F) Exc} :
    callsBroker ev = true ↔ ∃ d, ev.op = .inl (.executeOrder d) := by
  rcases ev with ⟨w, e | e, a⟩
  · cases e <;> simp [callsBroker]
  · simp [callsBroker]

/-- The kill switch falls while the submission waits to store VALIDATED. -/
theorem executeOrder_sometimes_killed :
    ¬ ∀ (h : SafetyHistory (Fin 3) ℚ)
        (c : Config (Fin 3) (SafetyWorld (Fin 3)) (RiskServiceAns ℚ) Exc Unit),
        Run serviceSuspends safetyEnv (safetyStart {} killReleaseSubmit {}) h c →
        ∀ h' i ev d, (i, ev) :: h' <:+ h → ev.op = .inl (.executeOrder d) →
          ev.pre.killSwitch = false := by
  intro hall
  have hrace : ∃ h c, Run serviceSuspends safetyEnv (safetyStart {} killReleaseSubmit {}) h c ∧
      ∃ entry ∈ h, callsBroker entry.2 = true ∧ entry.2.pre.killSwitch = true :=
    Config.exists_run calmHandler_sound
      (List.replicate 8 2 ++ List.replicate 2 0 ++ List.replicate 9 2) _ (by decide +kernel)
  obtain ⟨h, c, hrun, ⟨i, ev⟩, hmem, hcalls, hkilled⟩ := hrace
  obtain ⟨newer, older, rfl⟩ := List.append_of_mem hmem
  obtain ⟨d, hop⟩ := callsBroker_iff.mp hcalls
  have hoff := hall _ c hrun older i ev d ⟨newer, rfl⟩ hop
  rw [hkilled] at hoff
  cases hoff

/-- If the flag is only set while no submission is in flight, no broker call begins
    while it is on. -/
theorem executeOrder_not_killed
    (hrun : Run suspends safetyEnv (safetyStart wiring calls w₀) h c)
    (hcond : SwitchedBetween suspends wiring calls w₀ h) {h' : SafetyHistory ι F} {i : ι}
    {ev : Event (SafetyWorld ι) (RiskServiceAns F) Exc} (hsuf : (i, ev) :: h' <:+ h)
    {d : OrderDict F} (hop : ev.op = .inl (.executeOrder d)) : ev.pre.killSwitch = false := by
  obtain ⟨c₁, c₂, hr, hs⟩ := hrun.entry hsuf
  have hcond' : SwitchedBetween suspends wiring calls w₀ h' := fun h'' c₁ c₂ j ev' hsuf' =>
    hcond h'' c₁ c₂ j ev' (hsuf'.trans ((List.suffix_cons _ _).trans hsuf))
  cases hs with
  | @mk e k a w' _ hp henv =>
      by_contra hkilled
      refine not_inFlight_of_killed hr hcond' (by simpa using hkilled) i ?_
      rw [hp]
      cases hop
      exact ⟨d, .here _ k⟩

/-- The event turns the flag on. -/
def switchesOn (ev : Event (SafetyWorld ι) (RiskServiceAns F) Exc) : Bool :=
  match ev.op with
  | .inr (.setKillSwitch on) => on
  | _ => false

/-- A flag that is only turned on before anything else has happened is turned on
    while no submission is in flight. -/
theorem switchedBetween_of_first
    (hfirst : ∀ entry ∈ h.dropLast, switchesOn entry.2 = false) :
    SwitchedBetween suspends wiring calls w₀ h := by
  intro h' c₁ c₂ i ev hsuf hr _ hop j
  obtain ⟨newer, rfl⟩ := hsuf
  cases h' with
  | nil =>
      cases hr
      exact not_inFlight_of_obeys (prog_flagFirst wiring (calls j))
  | cons entry older =>
      have hmem : (i, ev) ∈ (newer ++ (i, ev) :: entry :: older).dropLast := by
        rw [List.dropLast_append_of_ne_nil (by simp)]
        simp
      have hoff := hfirst _ hmem
      simp [switchesOn, hop] at hoff

/-- The kill switch and its release come before the submission. -/
theorem executeOrder_not_killed_released :
    ∃ h c, Run serviceSuspends safetyEnv (safetyStart {} killReleaseSubmit {}) h c ∧
      (∃ entry ∈ h, switchesOn entry.2 = true) ∧
      ∃ entry ∈ h, callsBroker entry.2 = true ∧ entry.2.pre.killSwitch = false := by
  have hrun : ∃ h c, Run serviceSuspends safetyEnv (safetyStart {} killReleaseSubmit {}) h c ∧
      (∃ entry ∈ h, switchesOn entry.2 = true) ∧
      (∀ entry ∈ h.dropLast, switchesOn entry.2 = false) ∧
      ∃ entry ∈ h, callsBroker entry.2 = true :=
    Config.exists_run calmHandler_sound
      (List.replicate 2 0 ++ List.replicate 2 1 ++ List.replicate 17 2) _ (by decide +kernel)
  obtain ⟨h, c, hrun, hon, hfirst, ⟨i, ev⟩, hmem, hcalls⟩ := hrun
  refine ⟨h, c, hrun, hon, (i, ev), hmem, hcalls, ?_⟩
  obtain ⟨newer, older, rfl⟩ := List.append_of_mem hmem
  obtain ⟨d, hop⟩ := callsBroker_iff.mp hcalls
  exact executeOrder_not_killed hrun (switchedBetween_of_first hfirst) ⟨newer, rfl⟩ hop

end Mtrader.Service
