/-
  Mtrader.Risk.Incidents

  The incidents that a `RiskEngine` saves, in every interleaving of what uses it.
-/

import Mtrader.Risk.Requests

namespace Mtrader.Risk

open Coroutine Py Mtrader.Execution

variable {F : Type} [Prims F] {self : Wiring} {args : CheckArgs F} {p : Progress F}

-- ============================================================================
-- One coroutine
-- ============================================================================

/-- Saving an incident adds it where there is a repository, or raises. -/
theorem persistIncident_obeys (request : Request F) {incident : Incident F}
    {Q : Except Exc Unit → Progress F → Prop}
    (hmay : self.repository → request.may self p (.inr (.saveRiskIncident incident)))
    (hok : Q (.ok ()) { p with saved := if self.repository then incident :: p.saved else p.saved })
    (herr : ∀ x, Q (.error x) p) :
    (persistIncident self incident).Obeys (request.protocol self).right Q p := by
  unfold persistIncident
  split
  next hrepository =>
    rw [if_pos hrepository] at hok
    refine Prog.obeys_op.mpr ⟨hmay hrepository, ?_⟩
    rintro (x | _)
    · exact herr x
    · exact hok
  next hrepository =>
    rw [if_neg hrepository] at hok
    exact hok

/-- A check that the kill switch has let through. -/
theorem not_killed : some false ≠ some true := by simp

/-- The rule has decided, and its incident is saved. -/
theorem violatedRule_obeys {now : Time} {last : Option Time} {rules : List (RiskRule F)}
    {rule : RiskRule F} {actualValues : Dict ActualKey F}
    (hviolated : Violated args now last rules rule actualValues) :
    (do
      let createdAt ← risk .utcnow
      persistIncident self (ruleIncident args.order rule actualValues createdAt)
      return rule.decision).Obeys ((Request.check args).protocol self).right (CheckEnd self args)
      (looked now last rules) := by
  refine Prog.obeys_op_bind.mpr ⟨?_, fun createdAt => ?_, fun x => .failed rfl rfl not_killed⟩
  · exact .inr ⟨now, last, rules, rule, actualValues, rfl, hviolated⟩
  · refine Prog.obeys_bind.mpr (persistIncident_obeys _ (fun hrepository => ?_) ?_ fun x => ?_)
    · exact ⟨hrepository, now, last, rules, rule, actualValues, createdAt, rfl, hviolated, rfl⟩
    · exact .stopped hviolated
    · exact .failed rfl rfl not_killed

/-- The loop over rules that follow others that did not stop it. -/
theorem checkRules_obeys {now : Time} {last : Option Time} {before rest : List (RiskRule F)}
    (hbefore : ∀ rule ∈ before, rule.stops args.accountInfo last now = false) :
    (checkRules self args.order args.accountInfo last now rest).Obeys
      ((Request.check args).protocol self).right (CheckEnd self args)
      (looked now last (before ++ rest)) := by
  induction rest generalizing before with
  | nil =>
      rw [List.append_nil]
      refine Prog.obeys_op_bind.mpr ⟨⟨last, before, rfl, hbefore⟩, fun _ => ?_, fun x => ?_⟩
      · exact .passed hbefore
      · exact .failed rfl rfl not_killed
  | cons rule rest ih =>
      have hskip : rule.stops args.accountInfo last now = false →
          (checkRules self args.order args.accountInfo last now rest).Obeys
            ((Request.check args).protocol self).right (CheckEnd self args)
            (looked now last (before ++ rule :: rest)) := by
        intro hstops
        rw [List.append_cons]
        refine ih fun r hr => ?_
        rcases List.mem_append.mp hr with hr | hr
        · exact hbefore r hr
        · rw [List.mem_singleton.mp hr]
          exact hstops
      unfold checkRules
      by_cases henabled : rule.enabled = true
      swap
      · have hstops : rule.stops args.accountInfo last now = false := by
          simp [RiskRule.stops, henabled]
        simpa [henabled] using hskip hstops
      simp only [henabled, Bool.not_true, Bool.false_eq_true, if_false]
      refine Prog.obeys_ofExcept_bind.mpr ⟨fun evaluation heval => ?_, fun x heval => ?_⟩
      swap
      · exact .failed rfl rfl not_killed
      obtain ⟨violated, actualValues⟩ := evaluation
      cases violated with
      | false => exact hskip (by simp [RiskRule.stops, heval])
      | true =>
          have hstops : rule.stops args.accountInfo last now = true := by
            simp [RiskRule.stops, henabled, heval]
          exact violatedRule_obeys ⟨find?_append_stops hbefore hstops, heval⟩

theorem preTradeCheck_obeys :
    (preTradeCheck self args.order args.accountInfo args.positions).Obeys
      ((Request.check args).protocol self).right (CheckEnd self args) {} := by
  unfold preTradeCheck
  have hunread : (none : Option Bool) ≠ some true := by simp
  refine Prog.obeys_op_bind.mpr ⟨rfl, fun killed => ?_, fun x => .failed rfl rfl hunread⟩
  cases killed with
  | true => exact .killed
  | false =>
      refine Prog.obeys_op_bind.mpr ⟨.inl rfl, fun now => ?_, fun x => ?_⟩
      swap
      · exact .failed rfl rfl not_killed
      refine Prog.obeys_op_bind.mpr ⟨⟨now, rfl⟩, fun last => ?_, fun x => ?_⟩
      swap
      · exact .failed rfl rfl not_killed
      refine Prog.obeys_op_bind.mpr ⟨⟨now, last, rfl⟩, fun rules => ?_, fun x => ?_⟩
      swap
      · exact .failed rfl rfl not_killed
      have hnone : ∀ rule ∈ ([] : List (RiskRule F)),
          rule.stops args.accountInfo last now = false := by simp
      exact checkRules_obeys hnone

-- ============================================================================
-- The kill switch
-- ============================================================================

section

variable {reason triggeredBy : String}

/-- What `kill_switch` does after its incident. -/
abbrev KillSteps (self : Wiring) (reason triggeredBy : String) {R : Type} (q : RiskM F R) : Prop :=
  ∀ p : Progress F, Killed self reason triggeredBy p →
    q.Obeys ((Request.kill (F := F) reason triggeredBy).protocol self).right
      (fun _ => Killed self reason triggeredBy) p

theorem killSteps_op {e : RiskOp F}
    (hmay : ∀ p : Progress F, Killed self reason triggeredBy p →
      (Request.kill reason triggeredBy).may self p (.inr e))
    (hnext : ∀ (p : Progress F) a, Killed self reason triggeredBy p →
      Killed self reason triggeredBy (Progress.next p (.inr e) a)) :
    KillSteps self reason triggeredBy (risk e) :=
  fun p hp => Prog.obeys_op.mpr ⟨hmay p hp, fun a => hnext p a hp⟩

theorem KillSteps.bind {R S : Type} {q : RiskM F R} {f : R → RiskM F S}
    (hq : KillSteps self reason triggeredBy q) (hf : ∀ r, KillSteps self reason triggeredBy (f r)) :
    KillSteps self reason triggeredBy (q >>= f) :=
  fun p hp => (hq p hp).seq (fun r p' hp' => hf r p' hp') fun _ _ hp' => hp'

theorem cancelAndClose_steps :
    KillSteps (F := F) self reason triggeredBy (cancelAndClose self) := by
  have hcancel : KillSteps (F := F) self reason triggeredBy (risk .cancelAllOrders) :=
    killSteps_op (fun p hp => hp) fun p a hp => by cases a <;> exact hp
  have hclose : KillSteps (F := F) self reason triggeredBy (risk .closeAllPositions) :=
    killSteps_op (fun p hp => hp) fun p a hp => by cases a <;> exact hp
  have htail : KillSteps (F := F) self reason triggeredBy (do
      if self.connector then
        let _ ← risk .closeAllPositions) := by
    split
    next => exact hclose.bind fun _ p hp => hp
    next => exact fun p hp => hp
  unfold cancelAndClose
  simp only
  split
  next => exact hcancel.bind fun _ => htail
  next => exact htail

theorem liquidate_steps (n : ℕ) :
    KillSteps (F := F) self reason triggeredBy (liquidate self n) := by
  induction n with
  | zero => exact fun p hp => hp
  | succ n ih =>
      have hsleep : KillSteps (F := F) self reason triggeredBy (risk (.sleep 1)) :=
        killSteps_op (fun p hp => hp) fun p a hp => by cases a <;> exact hp
      unfold liquidate
      refine KillSteps.bind (fun p hp => ?_) fun out => ?_
      · exact Prog.obeys_attempt.mpr ((cancelAndClose_steps p hp).mono fun _ _ hp' => hp')
      · cases out with
        | ok _ => exact fun p hp => hp
        | error x => exact hsleep.bind fun _ => ih

theorem killSwitch_obeys :
    (killSwitch self reason triggeredBy).Obeys
      ((Request.kill (F := F) reason triggeredBy).protocol self).right
      (FlipEnd self (killSwitchIncident reason triggeredBy)) {} := by
  have hkilled : ∀ (out : Except Exc Unit) (p : Progress F), Killed self reason triggeredBy p →
      FlipEnd self (killSwitchIncident reason triggeredBy) out p :=
    fun _ _ ⟨_, now, _, hsaved⟩ => .inr ⟨now, hsaved⟩
  have hdisable : KillSteps (F := F) self reason triggeredBy (do
      if self.schedulerController then
        risk .disableAllStrategies) := by
    split
    next => exact killSteps_op (fun p hp => hp) fun p a hp => by cases a <;> exact hp
    next => exact fun p hp => hp
  have htell : KillSteps (F := F) self reason triggeredBy (do
      if self.broadcaster then
        risk (.broadcast reason triggeredBy)
      if self.schedulerController then
        risk .disableAllStrategies) := by
    simp only
    split
    next =>
      have hbroadcast : KillSteps (F := F) self reason triggeredBy
          (risk (.broadcast reason triggeredBy)) :=
        killSteps_op (fun p hp => hp) fun p a hp => by cases a <;> exact hp
      exact hbroadcast.bind fun _ => hdisable
    next => exact hdisable
  have hsteps : KillSteps (F := F) self reason triggeredBy (do
      liquidate self 3
      if self.broadcaster then
        risk (.broadcast reason triggeredBy)
      if self.schedulerController then
        risk .disableAllStrategies) := (liquidate_steps 3).bind fun _ => htell
  unfold killSwitch
  refine Prog.obeys_op_bind.mpr ⟨⟨rfl, rfl⟩, fun _ => ?_, fun x => .inl ⟨⟨x, rfl⟩, rfl⟩⟩
  refine Prog.obeys_op_bind.mpr ⟨rfl, fun now => ?_, fun x => .inl ⟨⟨x, rfl⟩, rfl⟩⟩
  refine Prog.obeys_bind.mpr (persistIncident_obeys _ (fun hrepository => ?_) ?_ fun x => ?_)
  · exact ⟨hrepository, now, rfl, rfl⟩
  · exact (hsteps _ ⟨rfl, now, rfl, rfl⟩).mono hkilled
  · exact .inl ⟨⟨x, rfl⟩, rfl⟩

end

theorem releaseKillSwitch_obeys :
    (releaseKillSwitch (F := F) self).Obeys ((Request.release (F := F)).protocol self).right
      (FlipEnd self releaseIncident) {} := by
  unfold releaseKillSwitch
  refine Prog.obeys_op_bind.mpr ⟨⟨rfl, rfl⟩, fun _ => ?_, fun x => .inl ⟨⟨x, rfl⟩, rfl⟩⟩
  refine Prog.obeys_op_bind.mpr ⟨rfl, fun now => ?_, fun x => .inl ⟨⟨x, rfl⟩, rfl⟩⟩
  refine Prog.obeys_bind.mpr (persistIncident_obeys .release (fun hrepository => ?_) ?_ fun x => ?_)
  · exact ⟨hrepository, now, rfl, rfl⟩
  · exact Or.inr ⟨now, rfl⟩
  · exact .inl ⟨⟨x, rfl⟩, rfl⟩

-- ============================================================================
-- The monitor
-- ============================================================================

section

variable {accountId : String} {rounds : ℕ}

theorem reduceExposure_obeys {positions : List (Dict PositionKey F)} {exposure : F}
    (hp : Covered self p) :
    (reduceExposure self accountId positions exposure).Obeys
      ((Request.monitor accountId rounds).protocol self) (fun _ => Covered self) p := by
  have hsave : ∀ p : Progress F, (self.connector → p.saved.length < p.closed) → (do
      let now ← own .utcnow
      (persistIncident self (exposureIncident accountId exposure now)).inr).Obeys
        ((Request.monitor accountId rounds).protocol self) (fun _ => Covered self) p := by
    intro p hp
    have hcovered : Covered self p := fun hconnector => (hp hconnector).le
    refine Prog.obeys_op_bind.mpr ⟨trivial, fun now => Prog.Obeys.inr ?_, fun x => hcovered⟩
    refine persistIncident_obeys _ (fun hrepository => ?_) (fun hconnector => ?_) fun x => hcovered
    · exact ⟨hrepository, ⟨exposure, now, rfl⟩, hp⟩
    · show List.length (if _ then _ else p.saved) ≤ p.closed
      split
      next => exact hp hconnector
      next => exact (hp hconnector).le
  unfold reduceExposure
  split
  swap
  next => exact hp
  next =>
    refine Prog.obeys_op_bind.mpr ⟨trivial, fun rules => ?_, fun x => hp⟩
    refine Prog.obeys_ofExcept_bind.mpr ⟨fun percent _ => ?_, fun x _ => hp⟩
    split
    swap
    next => exact hp
    next =>
      split
      next hconnector =>
        refine Prog.obeys_op_bind.mpr ⟨trivial, fun _ => hsave _ fun h => ?_, fun x => hp⟩
        exact Nat.lt_succ_of_le (hp h)
      next hconnector => exact hsave _ fun h => absurd h hconnector

theorem monitorRound_obeys [Add F] (notifier : Bool) (hp : Covered self p) :
    (monitorRound self notifier accountId).Obeys ((Request.monitor accountId rounds).protocol self)
      (fun _ => Covered self) p := by
  have hsleep : ∀ p : Progress F, Covered self p →
      (own (.sleep 2)).Obeys ((Request.monitor accountId rounds).protocol self)
        (fun _ => Covered self) p :=
    fun p hp => Prog.obeys_op.mpr ⟨trivial, fun a => by cases a <;> exact hp⟩
  unfold monitorRound
  refine Prog.obeys_op_bind.mpr ⟨trivial, fun positions => ?_, fun x => hp⟩
  refine Prog.obeys_ofExcept_bind.mpr ⟨fun totalPnl _ => ?_, fun x _ => hp⟩
  refine Prog.obeys_op_bind.mpr ⟨trivial, fun _ => ?_, fun x => hp⟩
  refine Prog.obeys_ofExcept_bind.mpr ⟨fun exposure _ => ?_, fun x _ => hp⟩
  refine (reduceExposure_obeys hp).seq (fun _ p' hp' => ?_) fun x p' hp' => hp'
  simp only
  split
  next =>
    refine Prog.obeys_op_bind.mpr ⟨trivial, fun loss => ?_, fun x => hp'⟩
    split
    next => exact Prog.obeys_op_bind.mpr ⟨trivial, fun _ => hsleep _ hp', fun x => hp'⟩
    next => exact hsleep _ hp'
  next => exact hsleep _ hp'

theorem monitorPositions_obeys [Add F] (notifier : Bool) (n : ℕ) (hp : Covered self p) :
    (monitorPositions self notifier accountId n).Obeys
      ((Request.monitor accountId rounds).protocol self) (fun _ => Covered self) p := by
  induction n generalizing p with
  | zero => exact hp
  | succ n ih =>
      exact (monitorRound_obeys notifier hp).seq (fun _ p' hp' => ih hp') fun x p' hp' => hp'

end

-- ============================================================================
-- Runs
-- ============================================================================

theorem run_obeys [Add F] (notifier : Bool) (request : Request F) :
    (request.run self notifier).Obeys (request.protocol self) (request.End self) {} := by
  cases request with
  | check args =>
      refine (Prog.Obeys.inr preTradeCheck_obeys).seq (fun approval p h => ?_) fun x p h => ?_
      · exact ⟨.ok approval, rfl, h⟩
      · exact ⟨.error x, rfl, h⟩
  | kill reason triggeredBy =>
      exact (Prog.Obeys.inr killSwitch_obeys).seq (fun _ p h => h.imp (by simp) id)
        fun x p h => h.imp (by simp) id
  | release =>
      exact (Prog.Obeys.inr releaseKillSwitch_obeys).seq (fun _ p h => h.imp (by simp) id)
        fun x p h => h.imp (by simp) id
  | monitor accountId rounds =>
      have hcovered : Covered self ({} : Progress F) := fun _ => le_rfl
      exact (monitorPositions_obeys notifier rounds hcovered).seq (fun _ p h => h) fun x p h => h

variable [Add F] {ι : Type} [DecidableEq ι] {i : ι} {notifier : Bool} {requests : ι → Request F}
variable {w : Desk F} {h h' : DeskHistory ι F} {c : Config ι (Desk F) (MonitorAns F) Exc Reply}

/-- What coroutine `i` has come to. -/
def progress (self : Wiring) (requests : ι → Request F) (h : DeskHistory ι F) (i : ι) :
    Progress F :=
  ((requests i).protocol self).ghost {} i h

theorem may_of_run {ev : Event (Desk F) (MonitorAns F) Exc}
    (hrun : DeskRun self notifier requests w h c) (hsuffix : (i, ev) :: h' <:+ h) :
    (requests i).may self (progress self requests h' i) ev.op :=
  hrun.may (run_obeys notifier (requests i)) hsuffix

/-- How coroutine `i` has ended. -/
theorem end_of_run (hrun : DeskRun self notifier requests w h c) {out : Except Exc Reply}
    (hout : c.pool i = Prog.ofExcept out) :
    (requests i).End self out (progress self requests h i) := by
  have hobeys := hrun.obeys (run_obeys notifier (requests i))
  rw [hout] at hobeys
  exact Prog.obeys_ofExcept.mp hobeys

omit [Add F] in
variable (self requests) in
theorem incidentsOf_eq : incidentsOf i h = (progress self requests h i).saved := by
  induction h with
  | nil => rfl
  | cons entry h ih =>
      obtain ⟨j, ev⟩ := entry
      by_cases hij : j = i
      · subst hij
        have hnext : (progress self requests ((j, ev) :: h) j).saved =
            (Progress.next (progress self requests h j) ev.op ev.ans).saved :=
          congrArg Progress.saved Discipline.ghost_self
        rw [hnext, Progress.saved_next, ← ih, incidentsOf_self]
      · have hother : progress self requests ((j, ev) :: h) i = progress self requests h i :=
          Discipline.ghost_other hij
        rw [hother, ← ih, incidentsOf_other hij]

-- ============================================================================
-- The incidents of a run
-- ============================================================================

/-- The incident of a check that has been decided by a rule, and nothing else. -/
structure CheckAudit (self : Wiring) (args : CheckArgs F) (q : MonitorM F Reply)
    (saved : List (Incident F)) : Prop where
  decided : ∀ approval, q = .ret (.approval approval) →
    approval.ruleViolated.isSome ∨ approval.warning.isSome → self.repository → saved ≠ []
  saved : saved ≠ [] → ∃ rule actualValues last now createdAt,
    q = .ret (.approval rule.decision) ∧ rule.enabled = true ∧
      rule.evaluate args.accountInfo last now = .ok (true, actualValues) ∧
        saved = [ruleIncident args.order rule actualValues createdAt]

/-- One incident of a coroutine that sets the kill switch, before it acts. -/
structure FlipAudit (self : Wiring) (incident : Time → Incident F) (i : ι) (h : DeskHistory ι F)
    (q : MonitorM F Reply) : Prop where
  once : incidentsOf i h = [] ∨ ∃ now, incidentsOf i h = [incident now]
  returned : ∀ reply, q = .ret reply → self.repository → incidentsOf i h ≠ []
  acted : ∀ ev h', (i, ev) :: h' <:+ h → acts ev.op → self.repository → incidentsOf i h' ≠ []

/-- The incidents of a monitor, each after the positions have been closed. -/
structure MonitorAudit (self : Wiring) (accountId : String) (i : ι) (h : DeskHistory ι F) :
    Prop where
  saved : ∀ incident ∈ incidentsOf i h,
    ∃ exposure now, incident = exposureIncident accountId exposure now
  covered : self.connector → (incidentsOf i h).length ≤ tally hasClosed i h

omit [Add F] in
/-- A check that goes on has not been refused, and has neither recorded nor saved anything. -/
theorem checkMay_undecided {e : RiskOp F} (hmay : checkMay self args p e) :
    p.killed ≠ some true ∧ p.recorded = none ∧ p.saved = [] := by
  cases e with
  | killSwitch =>
      rw [show p = {} from hmay]
      exact ⟨by simp, rfl, rfl⟩
  | utcnow =>
      rcases hmay with rfl | ⟨now, last, rules, rule, actualValues, rfl, -⟩
      · exact ⟨by simp, rfl, rfl⟩
      · exact ⟨by simp [looked], rfl, rfl⟩
  | lastTradeTs =>
      obtain ⟨now, rfl⟩ := hmay
      exact ⟨by simp, rfl, rfl⟩
  | rules =>
      obtain ⟨now, last, rfl⟩ := hmay
      exact ⟨by simp, rfl, rfl⟩
  | setLastTradeTs now =>
      obtain ⟨last, rules, rfl, -⟩ := hmay
      exact ⟨by simp [looked], rfl, rfl⟩
  | saveRiskIncident incident =>
      obtain ⟨-, now, last, rules, rule, actualValues, createdAt, rfl, -⟩ := hmay
      exact ⟨by simp [looked], rfl, rfl⟩
  | _ => exact hmay.elim

omit [Add F] in
/-- The rule that has decided is enabled. -/
theorem Violated.enabled {now : Time} {last : Option Time} {rules : List (RiskRule F)}
    {rule : RiskRule F} {actualValues : Dict ActualKey F}
    (h : Violated args now last rules rule actualValues) : rule.enabled = true := by
  have hstops := List.find?_some h.find
  rw [RiskRule.stops, Bool.and_eq_true] at hstops
  exact hstops.1

omit [Add F] in
/-- Only a rule's decision names a rule or has a warning. -/
theorem CheckEnd.audit {out : Except Exc TradeApproval} (h : CheckEnd self args out p) :
    CheckAudit self args (Prog.ofExcept (out.map Reply.approval)) p.saved := by
  cases h with
  | killed =>
      refine ⟨fun approval heq hnamed => ?_, fun h => absurd rfl h⟩
      cases heq
      simp at hnamed
  | passed hpass =>
      refine ⟨fun approval heq hnamed => ?_, fun h => absurd rfl h⟩
      cases heq
      simp at hnamed
  | @stopped now createdAt last rules rule actualValues hviolated =>
      refine ⟨fun _ _ _ hrepository => ?_, fun hsaved => ?_⟩
      · simp [hrepository]
      · refine ⟨rule, actualValues, last, now, createdAt, rfl, hviolated.enabled, ?_⟩
        refine ⟨hviolated.eval, ?_⟩
        by_cases hrepository : self.repository = true
        · simp [hrepository]
        · simp [hrepository] at hsaved
  | failed hsaved hrecorded hkilled =>
      refine ⟨fun approval heq _ _ => ?_, fun h => absurd hsaved h⟩
      cases heq

theorem check_audited (hrun : DeskRun self notifier requests w h c)
    (hcheck : requests i = .check args) :
    CheckAudit self args (c.pool i) (incidentsOf i h) := by
  have hsaved : incidentsOf i h = (progress self requests h i).saved := incidentsOf_eq self requests
  have hend : ∀ out, c.pool i = Prog.ofExcept out →
      CheckAudit self args (Prog.ofExcept out) (incidentsOf i h) := by
    intro out hout
    have hend := end_of_run hrun hout
    rw [hcheck] at hend
    obtain ⟨out, rfl, hend⟩ := hend
    exact hsaved ▸ hend.audit
  cases hpool : c.pool i with
  | ret reply => exact hend (.ok reply) hpool
  | raise x => exact hend (.error x) hpool
  | call e k =>
      -- It has not ended, and what it does next it does before it saves anything.
      have hobeys := hrun.obeys (run_obeys notifier (requests i))
      rw [hpool] at hobeys
      have hmay : (Request.check args).may self (progress self requests h i) e := hcheck ▸ hobeys.1
      have hnone : (progress self requests h i).saved = [] := by
        rcases e with e | e
        · exact hmay.elim
        · exact (checkMay_undecided hmay).2.2
      refine ⟨fun approval heq _ _ => ?_, fun h => absurd (hsaved.trans hnone) h⟩
      cases heq

/-- A coroutine that sets the kill switch and saves an incident about it. -/
theorem flip_audited (on : Bool) {incident : Time → Incident F} {A : Progress F → Prop}
    (hrun : DeskRun self notifier requests w h c)
    (hmay : ∀ p e, (requests i).may self p e → ∃ e', e = .inr e' ∧
      flipMay self on incident (A p) p e')
    (hend : ∀ out p, (requests i).End self out p → FlipEnd self incident out p)
    (hacts : ∀ p, A p → self.repository → p.saved ≠ []) :
    FlipAudit self incident i h (c.pool i) := by
  have hsaved : ∀ h : DeskHistory ι F, incidentsOf i h = (progress self requests h i).saved :=
    fun h => incidentsOf_eq self requests
  refine ⟨?_, fun reply hreply hrepository => ?_, fun ev h' hsuffix hact hrepository => ?_⟩
  · rw [hsaved]
    refine hrun.ghost_invariant (run_obeys notifier (requests i))
      (I := fun p : Progress F => p.saved = [] ∨ ∃ now, p.saved = [incident now]) (.inl rfl) ?_
    intro p e a hp hallowed
    obtain ⟨e, rfl, hflip⟩ := hmay p e hallowed
    cases e with
    | saveRiskIncident saved =>
        obtain ⟨-, now, rfl, rfl⟩ := hflip
        rcases a with x | _
        · exact .inl rfl
        · exact .inr ⟨now, rfl⟩
    | _ => rcases a with x | _ <;> exact hp
  · have hreply : c.pool i = Prog.ofExcept (.ok reply) := hreply
    have hflip := hend _ _ (end_of_run hrun hreply)
    rw [hsaved]
    rcases hflip with ⟨⟨x, hx⟩, -⟩ | ⟨now, hnow⟩
    · cases hx
    · rw [hnow, if_pos hrepository]
      exact List.cons_ne_nil _ _
  · obtain ⟨e, he, hflip⟩ := hmay _ _ (may_of_run hrun hsuffix)
    rw [hsaved]
    refine hacts _ ?_ hrepository
    rw [he] at hact
    cases e <;> first | exact hflip | cases hact

theorem kill_audited {reason triggeredBy : String} (hrun : DeskRun self notifier requests w h c)
    (hkill : requests i = .kill reason triggeredBy) :
    FlipAudit self (killSwitchIncident reason triggeredBy) i h (c.pool i) := by
  refine flip_audited true (A := Killed self reason triggeredBy) hrun (fun p e hmay => ?_)
    (fun out p hend => ?_) fun p hkilled hrepository => ?_
  · rw [hkill] at hmay
    rcases e with e | e
    · exact hmay.elim
    · exact ⟨e, rfl, hmay⟩
  · rw [hkill] at hend
    exact hend
  · obtain ⟨-, now, -, hsaved⟩ := hkilled
    rw [hsaved, if_pos hrepository]
    exact List.cons_ne_nil _ _

theorem release_audited (hrun : DeskRun self notifier requests w h c)
    (hrelease : requests i = .release) : FlipAudit self releaseIncident i h (c.pool i) := by
  refine flip_audited false (A := fun _ => False) hrun (fun p e hmay => ?_)
    (fun out p hend => ?_) fun p hnever => hnever.elim
  · rw [hrelease] at hmay
    rcases e with e | e
    · exact hmay.elim
    · exact ⟨e, rfl, hmay⟩
  · rw [hrelease] at hend
    exact hend

theorem monitor_audited {accountId : String} {rounds : ℕ}
    (hrun : DeskRun self notifier requests w h c)
    (hmonitor : requests i = .monitor accountId rounds) :
    MonitorAudit self accountId i h := by
  have hsaved : incidentsOf i h = (progress self requests h i).saved := incidentsOf_eq self requests
  have hclosed : tally hasClosed i h = (progress self requests h i).closed :=
    tally_eq_ghost Progress.closed rfl Progress.closed_next i h
  suffices hall : (∀ incident ∈ (progress self requests h i).saved,
      ∃ exposure now, incident = exposureIncident accountId exposure now) ∧
        Covered self (progress self requests h i) by
    refine ⟨hsaved ▸ hall.1, fun hconnector => ?_⟩
    rw [hsaved, hclosed]
    exact hall.2 hconnector
  refine hrun.ghost_invariant (run_obeys notifier (requests i))
    (I := fun p : Progress F => (∀ incident ∈ p.saved,
      ∃ exposure now, incident = exposureIncident accountId exposure now) ∧ Covered self p)
    ⟨by simp, fun _ => le_rfl⟩ fun p e a hp hallowed => ?_
  have hmay : monitorMay self accountId p e := by
    rw [hmonitor] at hallowed
    rcases e with e | e <;> exact hallowed
  rcases e with e | e
  · exact hp
  · cases e with
    | saveRiskIncident saved =>
        obtain ⟨-, hexposure, hlt⟩ := hmay
        rcases a with x | _
        · exact hp
        · exact ⟨List.forall_mem_cons.mpr ⟨hexposure, hp.1⟩, hlt⟩
    | closeAllPositions =>
        rcases a with x | _
        · exact hp
        · exact ⟨hp.1, fun hconnector => Nat.le_succ_of_le (hp.2 hconnector)⟩
    | _ => rcases a with x | _ <;> exact hp

/-- In every interleaving, what is in the incident table is what the checks, the kill
    switches, the releases and the monitors say they have decided. -/
theorem incidents_audited (hrun : DeskRun self notifier requests w h c) (i : ι) :
    (∀ args, requests i = .check args → CheckAudit self args (c.pool i) (incidentsOf i h)) ∧
    (∀ reason triggeredBy, requests i = .kill reason triggeredBy →
      FlipAudit self (killSwitchIncident reason triggeredBy) i h (c.pool i)) ∧
    (requests i = .release → FlipAudit self releaseIncident i h (c.pool i)) ∧
    ∀ accountId rounds, requests i = .monitor accountId rounds →
      MonitorAudit self accountId i h :=
  ⟨fun _ => check_audited hrun, fun _ _ => kill_audited hrun, release_audited hrun,
    fun _ _ => monitor_audited hrun⟩

/-- The kill switch is pulled while a rejected check waits for its incident to be saved. -/
theorem exists_checkAndKill :
    ∃ h c, DeskRun { repository := true, connector := true } false checkAndKill newDesk h c ∧
      (c.pool true).returned ∧ (c.pool false).returned ∧
        (incidentsOf true h).length = 1 ∧ (incidentsOf false h).length = 1 :=
  Config.exists_run (deskAnswers_sound 100000)
    [true, true, true, true, true, false, false, false, true, false] _ (by decide +kernel)

theorem incidents_audited_checkAndKill :
    ∃ h c, DeskRun { repository := true, connector := true } false checkAndKill newDesk h c ∧
      (incidentsOf true h).length = 1 ∧
        CheckAudit { repository := true, connector := true } lossyCheck (c.pool true)
          (incidentsOf true h) := by
  obtain ⟨h, c, hrun, -, -, hlength, -⟩ := exists_checkAndKill
  exact ⟨h, c, hrun, hlength, (incidents_audited hrun true).1 lossyCheck rfl⟩

end Mtrader.Risk
