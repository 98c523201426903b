/-
  Mtrader.Risk.Concurrent

  Checks of one `RiskEngine` among all that use it: the kill switch and the throttle.

  A check holds the loop from its look at the kill switch to its decision.  What it has read
  of the engine is therefore still so when it records its time, and two checks never measure
  against the same last trade.
-/

import Mtrader.Coroutine.Tasks
import Mtrader.Risk.Incidents

namespace Mtrader.Risk

open Coroutine Py Mtrader.Execution

variable {F ι : Type} [DecidableEq ι] {i : ι}

-- ============================================================================
-- What a history has set and recorded
-- ============================================================================

/-- What the operation sets the kill switch to. -/
def setTo : MonitorOp F ⊕ RiskOp F → Option Bool
  | .inr (.setKillSwitch on) => some on
  | _ => none

/-- What the kill switch has last been set to. -/
def switchedOn (w : Desk F) : DeskHistory ι F → Bool
  | [] => w.killSwitch
  | (_, ev) :: h => (setTo ev.op).getD (switchedOn w h)

/-- What a look at the kill switch has shown. -/
def look (e : MonitorOp F ⊕ RiskOp F) (a : Except Exc (MonitorAns F e)) : Option Bool :=
  match e, a with
  | .inr .killSwitch, .ok on => some on
  | _, _ => none

/-- The last trade that the operation records. -/
def recordedTime (e : MonitorOp F ⊕ RiskOp F) (a : Except Exc (MonitorAns F e)) : Option Time :=
  match e, a with
  | .inr (.setLastTradeTs t), .ok _ => some t
  | _, _ => none

/-- The rules that the operation reads. -/
def rulesRead (e : MonitorOp F ⊕ RiskOp F) (a : Except Exc (MonitorAns F e)) :
    Option (List (RiskRule F)) :=
  match e, a with
  | .inr .rules, .ok rules => some rules
  | _, _ => none

/-- The last trades that have been recorded, and by whom, newest first. -/
def records (h : DeskHistory ι F) : List (ι × Time) :=
  h.filterMap fun entry => (recordedTime entry.2.op entry.2.ans).map fun t => (entry.1, t)

section

variable {w w' : Desk F} {p : Progress F} {e : MonitorOp F ⊕ RiskOp F}
variable {a : Except Exc (MonitorAns F e)}

theorem killSwitch_of_env (henv : deskEnv F w e a w') :
    w'.killSwitch = (setTo e).getD w.killSwitch := by
  rcases e with e | e
  · cases e with
    | setDailyLoss id loss => rw [henv.2]; rfl
    | dailyLoss id => rw [henv.2]; rfl
    | _ => rw [show w' = w from henv]; rfl
  · cases e with
    | killSwitch => rw [henv.2]; rfl
    | setKillSwitch on => rw [henv.2]; rfl
    | rules =>
        obtain ⟨calls, rfl, -⟩ := henv
        rfl
    | lastTradeTs => rw [henv.2]; rfl
    | setLastTradeTs t => rw [henv.2]; rfl
    | utcnow =>
        obtain ⟨now, -, -, rfl⟩ := henv
        rfl
    | _ => rw [show w' = w from henv]; rfl

/-- The clock does not go back, and only a record changes the last trade. -/
theorem desk_of_env (henv : deskEnv F w e a w') :
    w.clock ≤ w'.clock ∧ w'.lastTradeTs = (recordedTime e a).or w.lastTradeTs := by
  rcases e with e | e
  · cases e with
    | setDailyLoss id loss => rw [henv.2]; exact ⟨le_rfl, rfl⟩
    | dailyLoss id => rw [henv.2]; exact ⟨le_rfl, rfl⟩
    | _ => rw [show w' = w from henv]; exact ⟨le_rfl, rfl⟩
  · cases e with
    | killSwitch => rw [henv.2]; exact ⟨le_rfl, rfl⟩
    | setKillSwitch on => rw [henv.2]; exact ⟨le_rfl, rfl⟩
    | rules =>
        obtain ⟨calls, rfl, -⟩ := henv
        exact ⟨le_rfl, rfl⟩
    | lastTradeTs => rw [henv.2]; exact ⟨le_rfl, rfl⟩
    | setLastTradeTs t =>
        obtain ⟨rfl, rfl⟩ := henv
        exact ⟨le_rfl, rfl⟩
    | utcnow =>
        obtain ⟨now, hle, -, rfl⟩ := henv
        exact ⟨hle, rfl⟩
    | _ => rw [show w' = w from henv]; exact ⟨le_rfl, rfl⟩

theorem op_of_look {on : Bool} (hlook : look e a = some on) : e = .inr .killSwitch := by
  rcases e with e | e
  · cases hlook
  · cases e <;> first | rfl | cases hlook

theorem op_of_recordedTime {t : Time} (hrecord : recordedTime e a = some t) :
    e = .inr (.setLastTradeTs t) := by
  rcases e with e | e
  · cases hrecord
  · cases e with
    | setLastTradeTs t' =>
        rcases a with x | _
        · cases hrecord
        · cases hrecord
          rfl
    | _ => cases hrecord

theorem Progress.killed_next : (p.next e a).killed = (look e a).or p.killed := by
  rcases e with e | e
  · rfl
  · cases e <;> rcases a with _ | _ <;> rfl

theorem Progress.recorded_next : (p.next e a).recorded = (recordedTime e a).or p.recorded := by
  rcases e with e | e
  · rfl
  · cases e <;> rcases a with _ | _ <;> rfl

theorem Progress.rules_next : (p.next e a).rules = (rulesRead e a).or p.rules := by
  rcases e with e | e
  · rfl
  · cases e <;> rcases a with _ | _ <;> rfl

end

-- ============================================================================
-- Runs
-- ============================================================================

variable [Prims F] {self : Wiring} {requests : ι → Request F} {h h' : DeskHistory ι F}
variable {ev : Event (Desk F) (MonitorAns F) Exc} {args : CheckArgs F}

theorem progress_self : progress self requests ((i, ev) :: h) i =
    (progress self requests h i).next ev.op ev.ans := Discipline.ghost_self

theorem progress_other {j : ι} (hne : j ≠ i) :
    progress self requests ((j, ev) :: h) i = progress self requests h i :=
  Discipline.ghost_other hne

/-- What a coroutine has been shown by the kill switch, it has looked at. -/
theorem exists_look {on : Bool} (hkilled : (progress self requests h i).killed = some on) :
    ∃ ev h', (i, ev) :: h' <:+ h ∧ look ev.op ev.ans = some on :=
  exists_of_ghost (f := Progress.killed) rfl (fun _ _ _ => Progress.killed_next) hkilled

theorem exists_rulesRead {rules : List (RiskRule F)}
    (hrules : (progress self requests h i).rules = some rules) :
    ∃ ev h', (i, ev) :: h' <:+ h ∧ rulesRead ev.op ev.ans = some rules :=
  exists_of_ghost (f := Progress.rules) rfl (fun _ _ _ => Progress.rules_next) hrules

omit [Prims F] [DecidableEq ι] in
theorem mem_records {t : Time} :
    (i, t) ∈ records h ↔ ∃ ev, (i, ev) ∈ h ∧ recordedTime ev.op ev.ans = some t := by
  simp only [records, List.mem_filterMap, Option.map_eq_some_iff, Prod.exists, Prod.mk.injEq]
  constructor
  · rintro ⟨j, ev, hmem, t', hrecorded, rfl, rfl⟩
    exact ⟨ev, hmem, hrecorded⟩
  · rintro ⟨ev, hmem, hrecorded⟩
    exact ⟨i, ev, hmem, t, hrecorded, rfl, rfl⟩

theorem mem_records_of_recorded {t : Time}
    (hrecorded : (progress self requests h i).recorded = some t) : (i, t) ∈ records h := by
  obtain ⟨ev, h', hsuffix, hrecorded⟩ := exists_of_ghost (f := Progress.recorded) rfl
    (fun _ _ _ => Progress.recorded_next) hrecorded
  exact mem_records.mpr ⟨ev, hsuffix.subset List.mem_cons_self, hrecorded⟩

variable (self requests) in
/-- Who has recorded a last trade. -/
theorem recorded_of_mem {t : Time} (hmem : (i, t) ∈ records h) :
    (progress self requests h i).recorded.isSome := by
  obtain ⟨ev, hev, hrecorded⟩ := mem_records.mp hmem
  exact ghost_isSome_of_mem (f := Progress.recorded) (fun _ _ _ => Progress.recorded_next) hev
    (by rw [hrecorded]; rfl)

variable [Add F] {notifier : Bool} {w : Desk F}
variable {c : Config ι (Desk F) (MonitorAns F) Exc Reply}

theorem killSwitch_of_run (hrun : DeskRun self notifier requests w h c) :
    c.world.killSwitch = switchedOn w h := by
  induction hrun with
  | nil => rfl
  | @cons h c c' j ev hr hs ih =>
      cases hs with
      | mk _ _ henv =>
          refine (killSwitch_of_env henv).trans ?_
          rw [ih]
          rfl

/-- A look at the kill switch shows what it has last been set to. -/
theorem look_of_run (hrun : DeskRun self notifier requests w h c) (hsuffix : (i, ev) :: h' <:+ h)
    (hop : ev.op = .inr .killSwitch) : look ev.op ev.ans = some (switchedOn w h') := by
  obtain ⟨c₁, c₂, hr, hs⟩ := hrun.entry hsuffix
  cases hs with
  | mk _ _ henv =>
      cases hop
      obtain ⟨rfl, -⟩ := henv
      rw [← killSwitch_of_run hr]
      rfl

theorem check_obeys (hrun : DeskRun self notifier requests w h c)
    (hcheck : requests i = .check args) :
    (c.pool i).Obeys ((Request.check args).protocol self) ((Request.check args).End self)
      (progress self requests h i) := by
  have hobeys := hrun.obeys (run_obeys notifier (requests i))
  rw [hcheck] at hobeys
  have hprogress :
      progress self requests h i = ((Request.check args).protocol self).ghost {} i h := by
    rw [progress, hcheck]
  exact hprogress ▸ hobeys

theorem check_may (hrun : DeskRun self notifier requests w h c) (hcheck : requests i = .check args)
    (hsuffix : (i, ev) :: h' <:+ h) :
    ∃ e, ev.op = .inr e ∧ checkMay self args (progress self requests h' i) e := by
  have hmay := may_of_run hrun hsuffix
  rw [hcheck] at hmay
  cases hop : ev.op with
  | inl e =>
      rw [hop] at hmay
      exact hmay.elim
  | inr e =>
      rw [hop] at hmay
      exact ⟨e, rfl, hmay⟩

-- ============================================================================
-- The kill switch
-- ============================================================================

/-- A check that has been refused does nothing more. -/
theorem refused_stays (hrun : DeskRun self notifier requests w h c)
    (hcheck : requests i = .check args) (hsuffix : h' <:+ h)
    (hkilled : (progress self requests h' i).killed = some true) :
    progress self requests h i = progress self requests h' i := by
  induction hrun with
  | nil => rw [List.suffix_nil.mp hsuffix]
  | @cons h c c' j ev hr hs ih =>
      rcases List.suffix_cons_iff.mp hsuffix with rfl | hsuffix
      · rfl
      · have hold := ih hsuffix
        by_cases hij : j = i
        · subst hij
          obtain ⟨e, -, hmay⟩ := check_may (hr.cons hs) hcheck List.suffix_rfl
          rw [hold] at hmay
          exact absurd hkilled (checkMay_undecided hmay).1
        · rw [progress_other hij, hold]

omit [Add F] in
/-- An approval has been shown that the kill switch is off. -/
theorem CheckEnd.killed_of_approved {p : Progress F} {approval : TradeApproval}
    {out : Except Exc TradeApproval} (hend : CheckEnd self args out p)
    (hout : Except.ok (.approval approval) = out.map Reply.approval)
    (happroved : approval.approved = true) : p.killed = some false := by
  cases hend with
  | killed =>
      cases hout
      cases happroved
  | passed hpass => rfl
  | stopped hviolated => rfl
  | failed => cases hout

omit [Add F] in
/-- An approval without a warning has recorded its time. -/
theorem CheckEnd.recorded_of_approved {p : Progress F} {approval : TradeApproval}
    {out : Except Exc TradeApproval} (hend : CheckEnd self args out p)
    (hout : Except.ok (.approval approval) = out.map Reply.approval)
    (happroved : approval.approved = true) (hwarning : approval.warning = none) :
    ∃ t, p.recorded = some t := by
  cases hend with
  | killed =>
      cases hout
      cases happroved
  | passed hpass => exact ⟨_, rfl⟩
  | @stopped now createdAt last rules rule actualValues hviolated =>
      cases hout
      by_cases hhard : rule.hard = true
      · simp [RiskRule.decision, hhard] at happroved
      · simp [RiskRule.decision, hhard] at hwarning
  | failed => cases hout

/-- A check that looks at the kill switch while it is on is refused, and leaves nothing
    behind; one that approves has looked at it while it was off. -/
theorem killSwitch_gates (hrun : DeskRun self notifier requests w h c)
    (hcheck : requests i = .check args) :
    (∀ ev h', (i, ev) :: h' <:+ h → ev.op = .inr .killSwitch → switchedOn w h' = true →
      c.pool i = .ret (.approval { approved := false, reason := some "Kill switch active" }) ∧
        incidentsOf i h = [] ∧ ∀ t, (i, t) ∉ records h) ∧
    ∀ approval, c.pool i = .ret (.approval approval) → approval.approved = true →
      ∃ ev h', (i, ev) :: h' <:+ h ∧ ev.op = .inr .killSwitch ∧ switchedOn w h' = false := by
  constructor
  · intro ev h' hsuffix hop hon
    obtain ⟨e, he, hmay⟩ := check_may hrun hcheck hsuffix
    have hlook := look_of_run hrun hsuffix hop
    have hnow : progress self requests ((i, ev) :: h') i = { killed := some true } := by
      rw [progress_self]
      obtain ⟨pre, op, ans⟩ := ev
      cases hop
      cases he
      rw [show progress self requests h' i = {} from hmay]
      rcases ans with x | on
      · cases hlook
      · cases hlook
        rw [hon]
        rfl
    have hstays : progress self requests h i = { killed := some true } := by
      rw [refused_stays hrun hcheck hsuffix (by rw [hnow]), hnow]
    refine ⟨?_, ?_, fun t hmem => ?_⟩
    · have hobeys := check_obeys hrun hcheck
      rw [hstays] at hobeys
      cases hpool : c.pool i with
      | ret reply =>
          rw [hpool] at hobeys
          obtain ⟨out, hout, hend⟩ := hobeys
          cases hend with
          | killed =>
              cases hout
              rfl
          | failed => cases hout
      | raise x =>
          rw [hpool] at hobeys
          obtain ⟨out, hout, hend⟩ := hobeys
          cases hend with
          | killed => cases hout
          | failed hsaved hrecorded hkilled => exact absurd rfl hkilled
      | call e k =>
          rw [hpool] at hobeys
          rcases e with e | e
          · exact hobeys.1.elim
          · exact absurd rfl (checkMay_undecided hobeys.1).1
    · rw [incidentsOf_eq self requests, hstays]
    · have hrecorded := recorded_of_mem self requests hmem
      rw [hstays] at hrecorded
      cases hrecorded
  · intro approval hpool happroved
    have hobeys := check_obeys hrun hcheck
    rw [hpool] at hobeys
    obtain ⟨out, hout, hend⟩ := hobeys
    obtain ⟨ev, h', hsuffix, hlook⟩ := exists_look (hend.killed_of_approved hout happroved)
    have hop := op_of_look hlook
    have hshown := look_of_run hrun hsuffix hop
    rw [hlook] at hshown
    exact ⟨ev, h', hsuffix, hop, (Option.some.inj hshown).symm⟩

/-- An order is approved just before the kill switch is pulled. -/
theorem exists_calmThenKill :
    ∃ h c, DeskRun {} false (calmThen (.kill "drawdown" "risk desk")) newDesk h c ∧
      approvalOf (c.pool true) = some { approved := true } ∧ c.world.killSwitch = true :=
  Config.exists_run (deskAnswers_sound 100000) [true, true, true, true, true, false] _
    (by decide +kernel)

theorem killSwitch_gates_calm :
    ∃ h c, DeskRun {} false (calmThen (.kill "drawdown" "risk desk")) newDesk h c ∧
      c.world.killSwitch = true ∧ ∃ ev h', (true, ev) :: h' <:+ h ∧
        ev.op = .inr .killSwitch ∧ switchedOn newDesk h' = false := by
  obtain ⟨h, c, hrun, happroval, hon⟩ := exists_calmThenKill
  exact ⟨h, c, hrun, hon, (killSwitch_gates hrun rfl).2 _ (eq_ret_of_approvalOf happroval) rfl⟩

-- ============================================================================
-- The throttle
-- ============================================================================

/-- The rules have an enabled throttle rule of `s` seconds. -/
def Throttling (s : F) (rules : List (RiskRule F)) : Prop :=
  ∃ rule ∈ rules, rule.type = .minTimeBetweenTrades ∧ rule.enabled = true ∧ rule.limit = .ok s

/-- What a check holds in its hands while nobody else runs: the time, and the last trade. -/
def Fresh (w : Desk F) (p : Progress F) : Prop :=
  ∀ now, p.times = [now] →
    now = w.clock ∧ ∀ last, p.lastTradeTs = some last → last = w.lastTradeTs

/-- Checks that hold the loop are up to date, and what has been recorded is in order. -/
structure Spaced (s : F) (engine : Wiring) (requests : ι → Request F) (h : DeskHistory ι F)
    (c : Config ι (Desk F) (MonitorAns F) Exc Reply) : Prop where
  fresh : ∀ i args, requests i = .check args → (c.pool i).parked riskSuspends = false →
    Fresh c.world (progress engine requests h i)
  last : ∀ r ∈ records h, ∃ t, c.world.lastTradeTs = some t ∧ r.2 ≤ t
  clock : ∀ r ∈ records h, r.2 ≤ c.world.clock
  apart : (records h).Pairwise fun later earlier =>
    later.1 ≠ earlier.1 ∧ Prims.lt (totalSeconds later.2 earlier.2) s = false

omit [Add F] in
/-- A step of a check that goes on without waiting. -/
theorem Fresh.step {p : Progress F} {e : RiskOp F} {a : Except Exc (MonitorAns F (.inr e))}
    {w w' : Desk F} (hmay : checkMay self args p e) (henv : deskEnv F w (.inr e) a w')
    (hfresh : e.suspends = false → Fresh w p) (hrecorded : (p.next (.inr e) a).recorded = none) :
    Fresh w' (p.next (.inr e) a) := by
  cases e with
  | killSwitch =>
      obtain ⟨rfl, rfl⟩ := henv
      rw [show p = {} from hmay]
      intro now hnow
      cases hnow
  | utcnow =>
      obtain ⟨t, -, rfl, rfl⟩ := henv
      rcases hmay with rfl | ⟨now, last, rules, rule, actualValues, rfl, -⟩
      · intro now hnow
        cases hnow
        exact ⟨rfl, fun last hlast => by cases hlast⟩
      · intro now hnow
        cases hnow
  | lastTradeTs =>
      obtain ⟨rfl, rfl⟩ := henv
      intro now hnow
      refine ⟨(hfresh rfl now hnow).1, fun last hlast => ?_⟩
      exact (Option.some.inj hlast).symm
  | rules =>
      obtain ⟨calls, rfl, rfl⟩ := henv
      exact hfresh rfl
  | setLastTradeTs t =>
      obtain ⟨rfl, rfl⟩ := henv
      cases hrecorded
  | saveRiskIncident incident =>
      obtain ⟨-, now, last, rules, rule, actualValues, createdAt, rfl, -⟩ := hmay
      intro now hnow
      rcases a with x | _ <;> cases hnow
  | _ => exact hmay.elim

/-- A check that is not waiting has not recorded anything yet. -/
theorem unrecorded_of_run (hrun : DeskRun self notifier requests w h c)
    (hcheck : requests i = .check args) (hpool : (c.pool i).parked riskSuspends = false) :
    (progress self requests h i).recorded = none := by
  have hobeys := check_obeys hrun hcheck
  cases hq : c.pool i with
  | ret reply =>
      rw [hq] at hpool
      cases hpool
  | raise x =>
      rw [hq] at hpool
      cases hpool
  | call e k =>
      rw [hq] at hobeys
      rcases e with e | e
      · exact hobeys.1.elim
      · exact (checkMay_undecided hobeys.1).2.1

variable {s : F} {j : ι} {c' : Config ι (Desk F) (MonitorAns F) Exc Reply}

theorem Spaced.fresh_step (hI : Spaced s self requests h c)
    (hrun : DeskRun self notifier requests w h c)
    (hs : Step riskSuspends (fun _ => deskEnv F) c j ev c') (hcheck : requests i = .check args)
    (hpool : (c'.pool i).parked riskSuspends = false) :
    Fresh c'.world (progress self requests ((j, ev) :: h) i) := by
  by_cases hij : j = i
  · subst hij
    have hrecorded := unrecorded_of_run (hrun.cons hs) hcheck hpool
    obtain ⟨e, he, hmay⟩ := check_may (hrun.cons hs) hcheck List.suffix_rfl
    cases hs with
    | @mk e' k a w' _ hp henv =>
        cases he
        rw [progress_self] at hrecorded ⊢
        refine Fresh.step hmay henv (fun hsuspends => hI.fresh j args hcheck ?_) hrecorded
        rw [hp]
        exact hsuspends
  · rw [progress_other hij]
    by_cases hbegun : ∃ ev, (i, ev) ∈ h
    · -- It holds the loop, so that it is its turn.
      obtain ⟨ev', hev'⟩ := hbegun
      cases hs with
      | @mk e k a w' hmay hp henv =>
          have hsame : (c.resume riskSuspends j (k a) w').pool i = c.pool i :=
            Function.update_of_ne (Ne.symm hij) ..
          rw [hsame] at hpool
          rw [hrun.running_of_begun hev' hpool] at hmay
          rcases hmay with hmay | hmay
          · cases hmay
          · exact absurd (Option.some.inj hmay).symm hij
    · have hidle : progress self requests h i = {} :=
        ghost_of_idle fun ev hev => hbegun ⟨ev, hev⟩
      rw [hidle]
      intro now hnow
      cases hnow

/-- Who records a last trade is a check that no rule has stopped. -/
theorem record_of_run (hrun : DeskRun self notifier requests w ((j, ev) :: h) c) {t : Time}
    (hrecord : recordedTime ev.op ev.ans = some t) :
    ∃ args last rules, requests j = .check args ∧ ev.op = .inr (.setLastTradeTs t) ∧
      progress self requests h j = looked t last rules ∧
        ∀ rule ∈ rules, rule.stops args.accountInfo last t = false := by
  have hop : ev.op = .inr (.setLastTradeTs t) := op_of_recordedTime hrecord
  have hmay := may_of_run hrun List.suffix_rfl
  rw [hop] at hmay
  cases hrequest : requests j with
  | check args =>
      rw [hrequest] at hmay
      obtain ⟨last, rules, hp, hpass⟩ := hmay
      exact ⟨args, last, rules, rfl, hop, hp, hpass⟩
  | kill reason triggeredBy =>
      rw [hrequest] at hmay
      exact hmay.elim
  | release =>
      rw [hrequest] at hmay
      exact hmay.elim
  | monitor accountId rounds =>
      rw [hrequest] at hmay
      exact hmay.elim

theorem Spaced.step (hmono : MonotoneSeconds F) (hI : Spaced s self requests h c)
    (hrun : DeskRun self notifier requests w h c)
    (hs : Step riskSuspends (fun _ => deskEnv F) c j ev c')
    (hthrottled : ∀ entry ∈ h, ∀ rules, rulesRead entry.2.op entry.2.ans = some rules →
      Throttling s rules) : Spaced s self requests ((j, ev) :: h) c' := by
  have hfresh : ∀ i args, requests i = .check args → (c'.pool i).parked riskSuspends = false →
      Fresh c'.world (progress self requests ((j, ev) :: h) i) :=
    fun i args hcheck => hI.fresh_step hrun hs hcheck
  have hrun' := hrun.cons hs
  cases hs with
  | @mk e k a w' _ hp henv =>
      obtain ⟨hclock, hlast⟩ := desk_of_env henv
      cases hrecord : recordedTime e a with
      | none =>
          have hrecords : records ((j, ⟨c.world, e, a⟩) :: h) = records h := by
            simp [records, hrecord]
          rw [hrecord] at hlast
          refine ⟨hfresh, ?_, ?_, ?_⟩
          · rw [hrecords]
            intro r hr
            obtain ⟨t, ht, hle⟩ := hI.last r hr
            exact ⟨t, hlast.trans ht, hle⟩
          · rw [hrecords]
            exact fun r hr => (hI.clock r hr).trans hclock
          · rw [hrecords]
            exact hI.apart
      | some t =>
          have hrecords : records ((j, ⟨c.world, e, a⟩) :: h) = (j, t) :: records h := by
            simp [records, hrecord]
          obtain ⟨args, last, rules, hcheck, hop, hp', hpass⟩ := record_of_run hrun' hrecord
          -- The check has held the loop since it has looked at the clock and the last trade.
          have hnow : t = c.world.clock ∧ last = c.world.lastTradeTs := by
            have hold := hI.fresh j args hcheck (by
              rw [hp]
              show riskSuspends e = false
              rw [show e = .inr (.setLastTradeTs t) from hop]
              rfl)
            rw [hp'] at hold
            obtain ⟨hclock, hlast⟩ := hold t rfl
            exact ⟨hclock, hlast last rfl⟩
          obtain ⟨rfl, rfl⟩ := hnow
          rw [hrecord] at hlast
          refine ⟨hfresh, ?_, ?_, ?_⟩
          · rw [hrecords]
            refine List.forall_mem_cons.mpr ⟨⟨_, hlast, le_rfl⟩, fun r hr => ?_⟩
            exact ⟨_, hlast, hI.clock r hr⟩
          · rw [hrecords]
            refine List.forall_mem_cons.mpr ⟨hclock, fun r hr => ?_⟩
            exact (hI.clock r hr).trans hclock
          · rw [hrecords]
            refine List.pairwise_cons.mpr ⟨fun r hr => ⟨?_, ?_⟩, hI.apart⟩
            · -- It has not recorded anything before.
              intro heq
              have hmem : (j, r.2) ∈ records h := by
                have heq : j = r.1 := heq
                rw [heq]
                exact hr
              have hrecorded := recorded_of_mem self requests hmem
              rw [hp'] at hrecorded
              cases hrecorded
            · have hrules : (progress self requests h j).rules = some rules := by
                rw [hp']
                rfl
              obtain ⟨ev', h', hsuffix, hread⟩ := exists_rulesRead hrules
              obtain ⟨rule, hrule, htype, henabled, hlimit⟩ :=
                hthrottled _ (hsuffix.subset List.mem_cons_self) rules hread
              have hspaced := (stops_minTime henabled htype).mp (hpass rule hrule)
              obtain ⟨last, hlast, hle⟩ := hI.last r hr
              obtain ⟨s', hs', hlt⟩ := hspaced last hlast
              obtain rfl : s = s' := Except.ok.inj (hlimit.symm.trans hs')
              exact totalSeconds_lt hmono hle hlt

theorem spaced_of_run (hmono : MonotoneSeconds F) (hrun : DeskRun self notifier requests w h c)
    (hthrottled : ∀ entry ∈ h, ∀ rules, rulesRead entry.2.op entry.2.ans = some rules →
      Throttling s rules) : Spaced s self requests h c := by
  induction hrun with
  | nil =>
      refine ⟨fun i args _ _ now hnow => ?_, fun r hr => ?_, fun r hr => ?_, .nil⟩
      · cases hnow
      · cases hr
      · cases hr
  | @cons h c c' j ev hr hs ih =>
      have hold := fun entry hentry => hthrottled entry (List.mem_cons_of_mem _ hentry)
      exact (ih hold).step hmono hr hs hold

/-- As long as there is an enabled throttle rule of `s` seconds, any two approvals without a
    warning are of different checks and at least `s` seconds apart, in every interleaving. -/
theorem concurrent_approvals_apart (hmono : MonotoneSeconds F)
    (hrun : DeskRun self notifier requests w h c)
    (hthrottled : ∀ entry ∈ h, ∀ rules, rulesRead entry.2.op entry.2.ans = some rules →
      Throttling s rules) :
    ((records h).Pairwise fun later earlier =>
      later.1 ≠ earlier.1 ∧ Prims.lt (totalSeconds later.2 earlier.2) s = false) ∧
    ∀ i args approval, requests i = .check args → c.pool i = .ret (.approval approval) →
      approval.approved = true → approval.warning = none → ∃ t, (i, t) ∈ records h := by
  refine ⟨(spaced_of_run hmono hrun hthrottled).apart, fun i args approval hcheck hpool happroved
    hwarning => ?_⟩
  have hobeys := check_obeys hrun hcheck
  rw [hpool] at hobeys
  obtain ⟨out, hout, hend⟩ := hobeys
  obtain ⟨t, ht⟩ := hend.recorded_of_approved hout happroved hwarning
  exact ⟨t, mem_records_of_recorded ht⟩

instance (s : ℚ) (rules : List (RiskRule ℚ)) : Decidable (Throttling s rules) :=
  inferInstanceAs (Decidable (∃ rule ∈ rules, rule.type = .minTimeBetweenTrades ∧
    rule.enabled = true ∧ rule.limit = .ok s))

/-- Two checks at once; the second looks at the clock a second after the first. -/
theorem exists_calmTwice :
    ∃ h c, DeskRun {} false (calmThen (.check calmCheck)) newDesk h c ∧
      approvalOf (c.pool true) = some { approved := true } ∧
      approvalOf (c.pool false) = some { approved := true } ∧ (records h).length = 2 ∧
        ∀ entry ∈ h, (rulesRead entry.2.op entry.2.ans).all fun rules => Throttling 1 rules :=
  Config.exists_run (deskAnswers_sound 1000000)
    [true, true, true, true, true, false, false, false, false, false] _ (by decide +kernel)

theorem concurrent_approvals_apart_calm :
    ∃ h c, DeskRun {} false (calmThen (.check calmCheck)) newDesk h c ∧
      approvalOf (c.pool true) = some { approved := true } ∧
      approvalOf (c.pool false) = some { approved := true } ∧ (records h).length = 2 ∧
        (records h).Pairwise fun later earlier =>
          later.1 ≠ earlier.1 ∧ Prims.lt (totalSeconds later.2 earlier.2) (1 : ℚ) = false := by
  obtain ⟨h, c, hrun, hfirst, hsecond, hlength, hrules⟩ := exists_calmTwice
  refine ⟨h, c, hrun, hfirst, hsecond, hlength, ?_⟩
  refine (concurrent_approvals_apart monotoneSeconds_rat hrun fun entry hentry rules hread => ?_).1
  have hall := hrules entry hentry
  rw [hread] at hall
  exact of_decide_eq_true hall

end Mtrader.Risk
