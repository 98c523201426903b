/-
  Mtrader.Connectors.Heartbeat

  What holds of a connector while its coroutines go on.

  A heartbeat that finds the terminal gone connects again, which creates another one, and
  goes on itself; `disconnect` cancels only the one on record.  `Orderly` is what holds as
  long as nobody logs in while a heartbeat that has found the terminal gone is unfinished.
-/

import Mtrader.Connectors.Stages

namespace Mtrader.Connectors

open Coroutine Py

variable {κ : Type} [DecidableEq κ] {self : MT5Connector} {calls : κ → ClientCall}
variable {rounds : ℕ → ℕ} {h : ConnectorHistory κ} {c : ConnectorConfig κ}

-- ============================================================================
-- Stages of a run
-- ============================================================================

/-- How far a coroutine has come. -/
def stage (calls : κ → ClientCall) (h : ConnectorHistory κ) (x : Actor κ) : Stage :=
  (connectorFlow (roleOf calls x)).ghost .fresh x h

theorem stage_self {x : Actor κ} {ev : Event ConnectorWorld ConnectorOp.Ans (Thrown Exc)} :
    stage calls ((x, ev) :: h) x = (stage calls h x).next (roleOf calls x) ev.op ev.ans :=
  Discipline.ghost_self

theorem stage_other {x y : Actor κ} {ev : Event ConnectorWorld ConnectorOp.Ans (Thrown Exc)}
    (hne : x ≠ y) : stage calls ((x, ev) :: h) y = stage calls h y :=
  Discipline.ghost_other hne

omit [DecidableEq κ] in
theorem start_obeys (x : Actor κ) :
    ((connectorStart self calls rounds).pool x).Obeys (connectorFlow (roleOf calls x))
      (fun _ p => p ≠ .released) .fresh := by
  cases x with
  | client i => exact clientCall_obeys (calls i)
  | task n => exact heartbeatProg_obeys (rounds n)

/-- A coroutine that has left the lock after disconnecting holds the loop. -/
theorem running_of_released (hrun : ConnectorRun self calls rounds h c) {x : Actor κ}
    (hx : stage calls h x = .released) : c.running = some x := by
  refine hrun.running_of_busy ?_ (start_obeys x) (fun p => p = .released) ?_ ?_ hx
  · intro y
    cases y with
    | client i => rfl
    | task n => rfl
  · exact fun _ _ hp hreleased => hp hreleased
  · rintro _ e rfl hmay
    rw [may_released hmay]
    rfl

-- ============================================================================
-- What holds of a connector
-- ============================================================================

/-- Does a heartbeat find the terminal gone? -/
def findsGone : Event ConnectorWorld ConnectorOp.Ans (Thrown Exc) → Bool
  | ⟨_, .terminalInfo, .ok false⟩ => true
  | _ => false

/-- A login that has succeeded. -/
def logsIn : Event ConnectorWorld ConnectorOp.Ans (Thrown Exc) → Bool
  | ⟨_, .login .., .ok true⟩ => true
  | _ => false

/-- Heartbeat `n` has found the terminal gone. -/
def FoundGone (h : ConnectorHistory κ) (n : ℕ) : Prop :=
  ∃ ev, (.task n, ev) ∈ h ∧ findsGone ev

omit [DecidableEq κ] in
theorem FoundGone.cons {n : ℕ} {entry : Actor κ × Event ConnectorWorld ConnectorOp.Ans (Thrown Exc)}
    (hgone : FoundGone h n) : FoundGone (entry :: h) n := by
  obtain ⟨ev, hmem, hfinds⟩ := hgone
  exact ⟨ev, List.mem_cons_of_mem _ hmem, hfinds⟩

/-- No heartbeat is unfinished. -/
def AllFinished (w : ConnectorWorld) : Prop := ∀ n, ¬ w.tasks.Unfinished n

/-- What a coroutine in a stage knows of the connector. -/
def Stage.Knows (w : ConnectorWorld) : Stage → Prop
  | .offline => w.connected = false
  | .logged => AllFinished w
  | .online => AllFinished w ∧ w.connected = true
  | .found n => w.task = some n
  | .stopped n => w.task = some n
  | .joined => AllFinished w
  | .closed => AllFinished w ∧ w.connected = false
  | .released => AllFinished w ∧ w.connected = false
  | _ => True

theorem Stage.knows_outside {w : ConnectorWorld} {q : Stage} (hlocked : q.locked = false)
    (hreleased : q ≠ .released) : q.Knows w := by
  cases q with
  | released => exact absurd rfl hreleased
  | fresh => exact trivial
  | away => exact trivial
  | gone => exact trivial
  | done => exact trivial
  | _ => cases hlocked

/-- Only one coroutine is in the lock; only the heartbeat on record is unfinished; and a
    connector that is not connected has no heartbeat but one that has found the terminal
    gone. -/
structure Orderly (calls : κ → ClientCall) (h : ConnectorHistory κ) (w : ConnectorWorld) :
    Prop where
  mutex : ∀ x y, (stage calls h x).locked → (stage calls h y).locked → x = y
  held : ∀ x, (stage calls h x).locked → w.locked = true
  knows : ∀ x, (stage calls h x).Knows w
  begun : ∀ n, stage calls h (.task n) ≠ .fresh → n < w.tasks.created
  finished : ∀ n, w.tasks.finished n → stage calls h (.task n) = .done
  single : ∀ n, w.tasks.Unfinished n → w.task = some n
  gone : w.connected = false → ∀ n, w.tasks.Unfinished n → FoundGone h n
  lost : ∀ n, stage calls h (.task n) = .gone → FoundGone h n
  free : ∀ x, stage calls h x = .released → ∀ y, (stage calls h y).locked = false

theorem orderly_start : Orderly calls [] {} where
  mutex _ _ hx := nomatch hx
  held _ hx := nomatch hx
  knows _ := trivial
  begun _ hn := absurd rfl hn
  finished _ hn := nomatch hn
  single _ hn := absurd hn.1 (Nat.not_lt_zero _)
  gone _ _ hn := absurd hn.1 (Nat.not_lt_zero _)
  lost _ hn := nomatch hn
  free _ hx := nomatch hx

section

variable {role : Role} {x : Actor κ} {w w' : ConnectorWorld} {p p' q : Stage} {e : ConnectorOp}
variable {a : Except (Thrown Exc) e.Ans}

omit [DecidableEq κ] in
/-- What a coroutine outside the lock does, the one inside does not see; it is only told
    that heartbeats have finished. -/
theorem Stage.Knows.frame (hmove : Move role x w p e a p' w') (hlocked : p.locked = false)
    (hgone : role = .beats → p = .gone → ∃ n, w.tasks.Unfinished n) (hq : q.locked)
    (hknows : q.Knows w) : q.Knows w' := by
  cases hmove with
  | stay _ _ hagrees | begin _ hagrees =>
      obtain ⟨cancelled, cancelling, rfl⟩ := hagrees
      exact hknows
  | drop hrole =>
      obtain ⟨n, hn⟩ := hgone hrole rfl
      cases q with
      | offline => rfl
      | online => exact absurd hn (hknows.1 n)
      | closed => exact ⟨hknows.1, rfl⟩
      | released => cases hq
      | _ => exact hknows
  | @finish _ _ _ m =>
      have hall : AllFinished w → AllFinished { w with tasks := w.tasks.finish m } :=
        fun hall n hn => hall n (Tasks.unfinished_finish.mp hn).1
      cases q with
      | logged => exact hall hknows
      | online => exact ⟨hall hknows.1, hknows.2⟩
      | joined => exact hall hknows
      | closed => exact ⟨hall hknows.1, hknows.2⟩
      | released => cases hq
      | _ => exact hknows
  | leave hp =>
      rw [hlocked] at hp
      cases hp
  | enter => exact hknows
  | lose => exact hknows
  | return_ => exact hknows
  | _ => cases hlocked

omit [DecidableEq κ] in
/-- A coroutine comes into the lock when it is free. -/
theorem Move.locked (hmove : Move role x w p e a p' w') (hp' : p'.locked) :
    p.locked ∨ w.locked = false ∧ w'.locked = true := by
  cases hmove with
  | stay => exact .inl hp'
  | enter hfree => exact .inr ⟨hfree, rfl⟩
  | leave hp => exact .inl hp
  | begin => cases hp'
  | lose => cases hp'
  | drop => cases hp'
  | return_ => cases hp'
  | finish => cases hp'
  | _ => exact .inl rfl

omit [DecidableEq κ] in
/-- Only a coroutine that is in the lock leaves it. -/
theorem Move.held (hmove : Move role x w p e a p' w') (hheld : w.locked = true) :
    w'.locked = true ∨ p.locked ∧ p'.locked = false := by
  cases hmove with
  | stay _ _ hagrees | cancel hagrees | begin _ hagrees =>
      obtain ⟨cancelled, cancelling, rfl⟩ := hagrees
      exact .inl hheld
  | enter => exact .inl rfl
  | leave hp hnext =>
      rcases hnext with rfl | ⟨-, rfl⟩
      · exact .inr ⟨hp, rfl⟩
      · exact .inr ⟨hp, rfl⟩
  | _ => exact .inl hheld

omit [DecidableEq κ] in
/-- An unfinished heartbeat was so before, or is the one that a connected coroutine
    creates. -/
theorem Move.unfinished (hmove : Move role x w p e a p' w') {n : ℕ}
    (hn : w'.tasks.Unfinished n) :
    (w.tasks.Unfinished n ∧ (w'.task = w.task ∨ p = .online)) ∨
      p = .online ∧ n = w.tasks.created ∧ w'.task = some n := by
  cases hmove with
  | stay _ _ hagrees | cancel hagrees | begin _ hagrees =>
      obtain ⟨cancelled, cancelling, rfl⟩ := hagrees
      exact .inl ⟨hn, .inl rfl⟩
  | create =>
      rcases Tasks.unfinished_create.mp hn with hn | ⟨rfl, -⟩
      · exact .inl ⟨hn, .inr rfl⟩
      · exact .inr ⟨rfl, rfl, rfl⟩
  | finish => exact .inl ⟨(Tasks.unfinished_finish.mp hn).1, .inl rfl⟩
  | _ => exact .inl ⟨hn, .inl rfl⟩

omit [DecidableEq κ] in
/-- What the coroutine itself knows after a move. -/
theorem Stage.Knows.move (hmove : Move role x w p e a p' w') (hknows : p.Knows w)
    (hlogin : p = .offline → p' = .logged → AllFinished w)
    (hrecord : w.task = none → AllFinished w)
    (hjoin : ∀ n, w.task = some n → w.tasks.finished n → AllFinished w) : p'.Knows w' := by
  cases hmove with
  | stay _ _ hagrees | cancel hagrees =>
      obtain ⟨cancelled, cancelling, rfl⟩ := hagrees
      exact hknows
  | enter _ hp' =>
      rcases hp' with rfl | rfl
      · exact trivial
      · exact trivial
  | look hconnected => exact hconnected
  | login => exact hlogin rfl rfl
  | connect => exact ⟨hknows, rfl⟩
  | record htask => exact hrecord htask
  | find htask => exact htask
  | join hfinished => exact hjoin _ hknows hfinished
  | disconnect => exact ⟨hknows, rfl⟩
  | leave _ hp' =>
      rcases hp' with rfl | ⟨rfl, rfl⟩
      · exact trivial
      · exact hknows
  | _ => exact trivial

omit [DecidableEq κ] in
theorem Move.logsIn (hmove : Move role x w .offline e a .logged w') :
    Connectors.logsIn ⟨w, e, a⟩ := by
  cases hmove with
  | login => rfl
  | leave _ hnext =>
      rcases hnext with heq | ⟨heq, -⟩
      · cases heq
      · cases heq

omit [DecidableEq κ] in
theorem Move.findsGone (hmove : Move role x w p e a .gone w') :
    p = .gone ∨ Connectors.findsGone ⟨w, e, a⟩ := by
  cases hmove with
  | stay => exact .inl rfl
  | lose => exact .inr rfl
  | enter _ hp' =>
      rcases hp' with heq | heq
      · cases heq
      · cases heq
  | leave _ hp' =>
      rcases hp' with heq | ⟨-, heq⟩
      · cases heq
      · cases heq

omit [DecidableEq κ] in
/-- A heartbeat begins after it has been created. -/
theorem Move.created_of_fresh (hmove : Move role x w .fresh e a p' w') {n : ℕ}
    (hrole : role = .beats) (hx : x = .task n) : n < w.tasks.created := by
  cases hmove with
  | stay hfresh => exact absurd rfl hfresh
  | begin hcreated => exact hcreated n hx
  | leave hlocked => cases hlocked
  | return_ _ hne => exact absurd hrole hne
  | finish _ hfresh => exact absurd rfl hfresh

omit [DecidableEq κ] in
theorem Move.created_le (hmove : Move role x w p e a p' w') :
    w.tasks.created ≤ w'.tasks.created := by
  cases hmove with
  | stay _ _ hagrees | cancel hagrees | begin _ hagrees =>
      obtain ⟨cancelled, cancelling, rfl⟩ := hagrees
      exact le_rfl
  | create => exact Nat.le_succ _
  | _ => exact le_rfl

omit [DecidableEq κ] in
/-- A heartbeat finishes at its end, and does nothing afterwards. -/
theorem Move.finished (hmove : Move role x w p e a p' w') {n : ℕ}
    (hn : w'.tasks.finished n) : w.tasks.finished n ∨ x = .task n ∧ p' = .done := by
  cases hmove with
  | stay _ _ hagrees | cancel hagrees | begin _ hagrees =>
      obtain ⟨cancelled, cancelling, rfl⟩ := hagrees
      exact .inl hn
  | @finish _ _ _ m _ _ hx =>
      by_cases hnm : n = m
      · subst hnm
        exact .inr ⟨hx, rfl⟩
      · have hupdate : Function.update w.tasks.finished m true n = true := hn
        rw [Function.update_of_ne hnm] at hupdate
        exact .inl hupdate
  | _ => exact .inl hn

omit [DecidableEq κ] in
theorem Move.of_done (hmove : Move role x w .done e a p' w') : p' = .done := by
  cases hmove with
  | leave hlocked => cases hlocked
  | _ => rfl

omit [DecidableEq κ] in
/-- A coroutine that has left the lock after disconnecting has just done so. -/
theorem Move.of_released (hmove : Move role x w p e a .released w') : p = .closed := by
  cases hmove with
  | stay _ hreleased => exact absurd rfl hreleased
  | enter _ hp' =>
      rcases hp' with heq | heq
      · cases heq
      · cases heq
  | leave _ hp' =>
      rcases hp' with heq | ⟨hclosed, -⟩
      · cases heq
      · exact hclosed

omit [DecidableEq κ] in
/-- The connector is disconnected by `disconnect` and by a heartbeat. -/
theorem Move.connected (hmove : Move role x w p e a p' w') (hoff : w'.connected = false) :
    w.connected = false ∨ p = .joined ∨ p = .gone ∧ role = .beats := by
  cases hmove with
  | stay _ _ hagrees | cancel hagrees | begin _ hagrees =>
      obtain ⟨cancelled, cancelling, rfl⟩ := hagrees
      exact .inl hoff
  | connect => cases hoff
  | disconnect => exact .inr (.inl rfl)
  | drop hrole => exact .inr (.inr ⟨rfl, hrole⟩)
  | _ => exact .inl hoff

end

-- ============================================================================
-- Steps
-- ============================================================================

section

variable {x : Actor κ} {w w' : ConnectorWorld} {e : ConnectorOp} {a : Except (Thrown Exc) e.Ans}

namespace Orderly

/-- A heartbeat that is between its beginning and its end is unfinished. -/
theorem unfinished_of_active (hinv : Orderly calls h w) {n : ℕ}
    (hfresh : stage calls h (.task n) ≠ .fresh) (hdone : stage calls h (.task n) ≠ .done) :
    w.tasks.Unfinished n := by
  refine ⟨hinv.begun n hfresh, ?_⟩
  cases hfinished : w.tasks.finished n with
  | false => rfl
  | true => exact absurd (hinv.finished n hfinished) hdone

theorem unfinished_of_gone (hinv : Orderly calls h w) {n : ℕ}
    (hgone : stage calls h (.task n) = .gone) : w.tasks.Unfinished n :=
  hinv.unfinished_of_active (by rw [hgone]; exact nofun) (by rw [hgone]; exact nofun)

variable (hinv : Orderly calls h w)
variable (hmove : Move (roleOf calls x) x w (stage calls h x) e a
  (stage calls ((x, ⟨w, e, a⟩) :: h) x) w')

include hinv hmove

theorem mutex_step :
    ∀ y z, (stage calls ((x, ⟨w, e, a⟩) :: h) y).locked →
      (stage calls ((x, ⟨w, e, a⟩) :: h) z).locked → y = z := by
  -- Whoever comes in finds nobody inside.
  have hcome : ∀ y, x ≠ y → (stage calls ((x, ⟨w, e, a⟩) :: h) x).locked →
      (stage calls ((x, ⟨w, e, a⟩) :: h) y).locked → False := by
    intro y hxy hx hy
    rw [stage_other hxy] at hy
    rcases hmove.locked hx with hx | ⟨hfree, -⟩
    · exact hxy (hinv.mutex x y hx hy)
    · rw [hinv.held y hy] at hfree
      cases hfree
  intro y z hy hz
  by_cases hxy : x = y
  · subst hxy
    by_contra hxz
    exact hcome z hxz hy hz
  · by_cases hxz : x = z
    · subst hxz
      exact (hcome y hxy hz hy).elim
    · rw [stage_other hxy] at hy
      rw [stage_other hxz] at hz
      exact hinv.mutex y z hy hz

theorem held_step :
    ∀ y, (stage calls ((x, ⟨w, e, a⟩) :: h) y).locked → w'.locked = true := by
  intro y hy
  by_cases hxy : x = y
  · subst hxy
    rcases hmove.locked hy with hx | ⟨-, hheld⟩
    · rcases hmove.held (hinv.held x hx) with hheld | ⟨-, hleft⟩
      · exact hheld
      · rw [hleft] at hy
        cases hy
    · exact hheld
  · rw [stage_other hxy] at hy
    rcases hmove.held (hinv.held y hy) with hheld | ⟨hx, -⟩
    · exact hheld
    · exact absurd (hinv.mutex x y hx hy) hxy

theorem knows_step
    (hcalm : logsIn ⟨w, e, a⟩ → ∀ n, w.tasks.Unfinished n → ¬ FoundGone h n)
    (hreleased : ∀ y, stage calls h y = .released → x = y) :
    ∀ y, (stage calls ((x, ⟨w, e, a⟩) :: h) y).Knows w' := by
  intro y
  by_cases hxy : x = y
  · subst hxy
    refine Stage.Knows.move hmove (hinv.knows x) ?_ ?_ ?_
    · intro hp hp' n hn
      have hoffline := hinv.knows x
      rw [hp] at hoffline hmove
      rw [hp'] at hmove
      exact hcalm hmove.logsIn n hn (hinv.gone hoffline n hn)
    · intro htask n hn
      rw [hinv.single n hn] at htask
      cases htask
    · intro n htask hfinished m hm
      rw [hinv.single m hm] at htask
      obtain rfl := Option.some.inj htask
      have hunfinished := hm.2
      rw [hfinished] at hunfinished
      cases hunfinished
  · rw [stage_other hxy]
    cases hy : (stage calls h y).locked with
    | true =>
        have hx : (stage calls h x).locked = false := by
          by_contra hx
          exact hxy (hinv.mutex x y (Bool.eq_true_of_not_eq_false hx) hy)
        refine Stage.Knows.frame hmove hx ?_ hy (hinv.knows y)
        intro hrole hgone
        obtain ⟨n, rfl⟩ := task_of_beats hrole
        exact ⟨n, hinv.unfinished_of_gone hgone⟩
    | false =>
        exact Stage.knows_outside hy fun hreleased' => hxy (hreleased y hreleased')

theorem begun_step :
    ∀ n, stage calls ((x, ⟨w, e, a⟩) :: h) (.task n) ≠ .fresh → n < w'.tasks.created := by
  intro n hn
  refine lt_of_lt_of_le ?_ hmove.created_le
  by_cases hx : x = .task n
  · by_cases hfresh : stage calls h x = .fresh
    · rw [hfresh] at hmove
      exact hmove.created_of_fresh (by rw [hx]; rfl) hx
    · rw [hx] at hfresh
      exact hinv.begun n hfresh
  · rw [stage_other hx] at hn
    exact hinv.begun n hn

theorem finished_step :
    ∀ n, w'.tasks.finished n → stage calls ((x, ⟨w, e, a⟩) :: h) (.task n) = .done := by
  intro n hn
  rcases hmove.finished hn with hn | ⟨hx, hdone⟩
  · have hdone := hinv.finished n hn
    by_cases hx : x = .task n
    · rw [hx] at hmove ⊢
      rw [hdone] at hmove
      exact hmove.of_done
    · rw [stage_other hx]
      exact hdone
  · rw [← hx]
    exact hdone

theorem single_step :
    ∀ n, w'.tasks.Unfinished n → w'.task = some n := by
  intro n hn
  rcases hmove.unfinished hn with ⟨hn, htask | honline⟩ | ⟨-, -, htask⟩
  · rw [htask]
    exact hinv.single n hn
  · have hall := hinv.knows x
    rw [honline] at hall
    exact absurd hn (hall.1 n)
  · exact htask

theorem gone_step :
    w'.connected = false → ∀ n, w'.tasks.Unfinished n →
      FoundGone ((x, ⟨w, e, a⟩) :: h) n := by
  intro hoff n hn
  rcases hmove.unfinished hn with ⟨hn, -⟩ | ⟨honline, -⟩
  · rcases hmove.connected hoff with hoff | hjoined | ⟨hgone, hrole⟩
    · exact (hinv.gone hoff n hn).cons
    · have hall := hinv.knows x
      rw [hjoined] at hall
      exact absurd hn (hall n)
    · obtain ⟨m, rfl⟩ := task_of_beats hrole
      have hm := hinv.unfinished_of_gone hgone
      have htask := hinv.single n hn
      rw [hinv.single m hm] at htask
      obtain rfl := Option.some.inj htask
      exact (hinv.lost m hgone).cons
  · have hon := hinv.knows x
    rw [honline] at hon
    rcases hmove.connected hoff with hoff | hjoined | ⟨hgone, -⟩
    · rw [hon.2] at hoff
      cases hoff
    · rw [hjoined] at honline
      cases honline
    · rw [hgone] at honline
      cases honline

theorem lost_step :
    ∀ n, stage calls ((x, ⟨w, e, a⟩) :: h) (.task n) = .gone →
      FoundGone ((x, ⟨w, e, a⟩) :: h) n := by
  intro n hn
  by_cases hx : x = .task n
  · subst hx
    rw [hn] at hmove
    rcases hmove.findsGone with hgone | hfinds
    · exact (hinv.lost n hgone).cons
    · exact ⟨_, List.mem_cons_self, hfinds⟩
  · rw [stage_other hx] at hn
    exact (hinv.lost n hn).cons

theorem free_step
    (hreleased : ∀ y, stage calls h y = .released → x = y) :
    ∀ y, stage calls ((x, ⟨w, e, a⟩) :: h) y = .released → ∀ z,
      (stage calls ((x, ⟨w, e, a⟩) :: h) z).locked = false := by
  intro y hy z
  have hxy : x = y := by
    by_contra hxy
    rw [stage_other hxy] at hy
    exact hxy (hreleased y hy)
  subst hxy
  by_cases hxz : x = z
  · rw [← hxz, hy]
    rfl
  · rw [stage_other hxz]
    rw [hy] at hmove
    -- It was in the lock, so nobody else is.
    have hclosed := hmove.of_released
    by_contra hz
    have hx : (stage calls h x).locked := by
      rw [hclosed]
      rfl
    exact hxz (hinv.mutex x z hx (Bool.eq_true_of_not_eq_false hz))

omit hmove in
theorem step
    (hmove : Move (roleOf calls x) x w (stage calls h x) e a
      ((stage calls h x).next (roleOf calls x) e a) w')
    (hcalm : logsIn ⟨w, e, a⟩ → ∀ n, w.tasks.Unfinished n → ¬ FoundGone h n)
    (hreleased : ∀ y, stage calls h y = .released → x = y) :
    Orderly calls ((x, ⟨w, e, a⟩) :: h) w' := by
  have hmoves : Move (roleOf calls x) x w (stage calls h x) e a
      (stage calls ((x, ⟨w, e, a⟩) :: h) x) w' := by
    rw [stage_self]
    exact hmove
  exact {
    mutex := hinv.mutex_step hmoves
    held := hinv.held_step hmoves
    knows := hinv.knows_step hmoves hcalm hreleased
    begun := hinv.begun_step hmoves
    finished := hinv.finished_step hmoves
    single := hinv.single_step hmoves
    gone := hinv.gone_step hmoves
    lost := hinv.lost_step hmoves
    free := hinv.free_step hmoves hreleased }

end Orderly

end

end Mtrader.Connectors
