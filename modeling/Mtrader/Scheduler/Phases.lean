/-
  Mtrader.Scheduler.Phases

  How far the requests and the executions of the scheduler have come.

  A request that has entered a schedule into `_jobs` but not yet given it to the scheduler, or
  has taken it from the scheduler but not yet out of `_jobs`, holds the loop; so does an
  execution that is about to write to its dict.
-/

import Mtrader.Coroutine.Tally
import Mtrader.Scheduler.App

namespace Mtrader.Scheduler

open Coroutine Py

/-- How far a call has come. -/
inductive Phase
  | idle
  /-- The schedule is in `_jobs`, and is to be given to the scheduler. -/
  | listed (sid : String)
  /-- The scheduler does not have the job any more, and it is to be taken out of `_jobs`. -/
  | removed (sid : String)
  /-- The scheduler has started a task for the job. -/
  | fired (sid : String)
  /-- The execution has its dict, and so many attempts have failed. -/
  | holding (ref : ℕ) (cfg : ScheduleIn) (failed : ℕ)
  /-- An attempt has succeeded. -/
  | passed (ref : ℕ) (cfg : ScheduleIn) (failed : ℕ)
  /-- The last attempt has failed. -/
  | timedOut (ref : ℕ) (cfg : ScheduleIn)
  /-- `last_run` has been written. -/
  | succeeded (ref : ℕ) (cfg : ScheduleIn) (failed : ℕ)
  /-- `dead_letter` has been written. -/
  | exhausted (ref : ℕ) (cfg : ScheduleIn)
  /-- The call was cancelled, or its schedule is gone. -/
  | ended
  deriving DecidableEq

namespace Phase

/-- After a failed attempt. -/
def fail (ref : ℕ) (cfg : ScheduleIn) (failed : ℕ) : Phase :=
  if (failed : ℤ) = cfg.retries - 1 then .timedOut ref cfg else .holding ref cfg (failed + 1)

def next (p : Phase) (e : ScheduleOp) (a : Except (Thrown Exc) e.Ans) : Phase :=
  match e, a, p with
  | .setJob sid _, .ok _, _ => .listed sid
  | .addJob .., _, _ => .idle
  | .removeJob sid, .ok _, _ => .removed sid
  | .popJob _, _, _ => .idle
  | .fire, .ok sid, _ => .fired sid
  | .getJob _, .ok (ref, cfg), _ => .holding ref cfg 0
  | .getJob _, .error _, _ => .ended
  | .waitFor _, .ok _, .holding ref cfg failed => .passed ref cfg failed
  | .setLastRun ref _, .ok _, .passed _ cfg failed => .succeeded ref cfg failed
  | .setDeadLetter ref, .ok _, .timedOut _ cfg => .exhausted ref cfg
  | .setDeadLetter _, .error _, _ => .ended
  | _, .error (.exception _), .holding ref cfg failed => fail ref cfg failed
  | _, .error (.exception _), .passed ref cfg failed => fail ref cfg failed
  | _, .error .cancelled, _ => .ended
  | _, _, p => p

/-- The call holds the loop. -/
def busy : Phase → Bool
  | .listed _ => true
  | .removed _ => true
  | .passed .. => true
  | .timedOut .. => true
  | _ => false

end Phase

/-- What a call may do next. -/
def scheduleFlow : Discipline ScheduleOp.Ans (Thrown Exc) Phase where
  may p e := match e with
    | .setJob sid schedule =>
        p = .idle ∧ schedule.id = sid ∧ schedule.deadLetter = false ∧ schedule.lastRun = none
    | .addJob sid _ => p = .listed sid
    | .popJob sid => p = .removed sid
    | .getJob sid => p = .fired sid
    | .waitFor timeout => ∃ ref cfg failed, p = .holding ref cfg failed ∧
        timeout = cfg.timeoutSeconds ∧ (failed : ℤ) < cfg.retries
    | .utcnow => p = .idle ∨ ∃ ref cfg failed, p = .passed ref cfg failed
    | .setLastRun ref _ => ∃ cfg failed, p = .passed ref cfg failed
    | .setDeadLetter ref => ∃ cfg, p = .timedOut ref cfg
    | _ => p = .idle
  next := Phase.next

/-- At its end a call does not hold the loop. -/
def Released {R : Type} (_ : Except (Thrown Exc) R) (p : Phase) : Prop := p.busy = false

-- ============================================================================
-- Executions
-- ============================================================================

variable {ref : ℕ} {cfg : ScheduleIn} {k : ℕ}

/-- What an attempt comes to. -/
inductive AttemptEnd (ref : ℕ) (cfg : ScheduleIn) (k : ℕ) :
    Except (Thrown Exc) Bool → Phase → Prop
  | succeeded : AttemptEnd ref cfg k (.ok true) (.succeeded ref cfg k)
  | failed : (k : ℤ) ≠ cfg.retries - 1 →
      AttemptEnd ref cfg k (.ok false) (.holding ref cfg (k + 1))
  | exhausted : (k : ℤ) = cfg.retries - 1 → AttemptEnd ref cfg k (.ok false) (.exhausted ref cfg)
  | raised {x : Thrown Exc} {p : Phase} : p.busy = false → AttemptEnd ref cfg k (.error x) p

theorem attempt_obeys (hk : (k : ℤ) < cfg.retries) :
    (Prog.tryExcept (do
        perform (.waitFor cfg.timeoutSeconds)
        let now ← perform .utcnow
        perform (.setLastRun ref now)
        return true) fun _ => do
          if (k : ℤ) = cfg.retries - 1 then perform (.setDeadLetter ref)
          return false).Obeys scheduleFlow (AttemptEnd ref cfg k) (.holding ref cfg k) := by
  -- What the handler does after a failure.
  have hhandler : (do
      if (k : ℤ) = cfg.retries - 1 then perform (.setDeadLetter ref)
      return false : ScheduleM Bool).Obeys scheduleFlow (AttemptEnd ref cfg k)
        (Phase.fail ref cfg k) := by
    unfold Phase.fail
    by_cases hlast : (k : ℤ) = cfg.retries - 1
    · rw [if_pos hlast, if_pos hlast]
      exact Prog.obeys_op_bind.mpr
        ⟨⟨cfg, rfl⟩, fun _ => .exhausted hlast, fun _ => .raised rfl⟩
    · rw [if_neg hlast, if_neg hlast]
      exact .failed hlast
  refine Prog.obeys_tryExcept ?_
  refine Prog.obeys_op_bind.mpr ⟨⟨ref, cfg, k, rfl, rfl, hk⟩, fun _ => ?_, ?_⟩
  · refine Prog.obeys_op_bind.mpr ⟨.inr ⟨ref, cfg, k, rfl⟩, fun now => ?_, ?_⟩
    · refine Prog.obeys_op_bind.mpr ⟨⟨cfg, k, rfl⟩, fun _ => .succeeded, ?_⟩
      rintro (_ | x)
      · exact .raised rfl
      · exact hhandler
    · rintro (_ | x)
      · exact .raised rfl
      · exact hhandler
  · rintro (_ | x)
    · exact .raised rfl
    · exact hhandler

theorem attempts_obeys {m : ℕ} (hm : k + m = cfg.retries.toNat) :
    (attempts ref cfg (List.range' k m)).Obeys scheduleFlow Released (.holding ref cfg k) := by
  induction m generalizing k with
  | zero => rfl
  | succ m ih =>
      have hk : (k : ℤ) < cfg.retries := by omega
      rw [List.range'_succ, attempts]
      refine (attempt_obeys hk).seq (fun returned p hend => ?_) fun x p hend => ?_
      · rcases hend with _ | hne | hlast
        · exact rfl
        · exact ih (by omega)
        · have hm : m = 0 := by omega
          subst hm
          exact rfl
      · rcases hend with _ | _ | _ | hreleased
        exact hreleased

theorem executeJob_obeys (jobId : String) :
    (executeJob jobId).Obeys scheduleFlow Released (.fired jobId) := by
  unfold executeJob
  refine Prog.obeys_op_bind.mpr ⟨rfl, fun found => ?_, fun _ => rfl⟩
  obtain ⟨ref, cfg⟩ := found
  show (attempts ref cfg (List.range cfg.retries.toNat)).Obeys scheduleFlow Released _
  rw [List.range_eq_range']
  exact attempts_obeys (Nat.zero_add _)

-- ============================================================================
-- Calls
-- ============================================================================

/-- A request that has not touched anything. -/
def Untouched {R : Type} (out : Except (Thrown Exc) R) (p : Phase) : Prop :=
  p.busy = false ∧ ∀ r, out = .ok r → p = .idle

/-- What is left of a call when an operation on nothing has answered. -/
def Phase.after {R : Type} : Except (Thrown Exc) R → Phase
  | .error .cancelled => .ended
  | _ => .idle

theorem untouched_op {e : ScheduleOp} (hmay : scheduleFlow.may .idle e)
    (hnext : ∀ a, Phase.next .idle e a = .after a) :
    (perform e).Obeys scheduleFlow Untouched .idle := by
  refine Prog.obeys_op.mpr ⟨hmay, fun a => ?_⟩
  show Untouched a (Phase.next .idle e a)
  rw [hnext]
  rcases a with (_ | x) | r
  · exact ⟨rfl, nofun⟩
  · exact ⟨rfl, nofun⟩
  · exact ⟨rfl, fun _ _ => rfl⟩

theorem trigger_obeys (payload : ScheduleIn) :
    (trigger payload).Obeys scheduleFlow Untouched .idle := by
  have hraise : ∀ x : Exc, (raise x : ScheduleM Trigger).Obeys scheduleFlow Untouched .idle :=
    fun x => ⟨rfl, nofun⟩
  unfold trigger
  split
  · split
    · exact hraise _
    · split
      · exact hraise _
      · split
        · exact untouched_op rfl fun a => by rcases a with (_ | _) | _ <;> rfl
        · split <;> exact hraise _
  · split
    · split
      · exact hraise _
      · split
        · exact hraise _
        · exact untouched_op rfl fun a => by rcases a with (_ | _) | _ <;> rfl
    · exact hraise _

theorem createSchedule_obeys (payload : ScheduleIn) :
    (createSchedule payload).Obeys scheduleFlow Released .idle := by
  unfold createSchedule
  refine Prog.obeys_op_bind.mpr ⟨rfl, fun sid => ?_, by rintro (_ | _) <;> rfl⟩
  refine (trigger_obeys payload).seq (fun trigger p hp => ?_) fun x p hp => hp.1
  obtain rfl : p = .idle := hp.2 trigger rfl
  refine Prog.obeys_op_bind.mpr ⟨.inl rfl, fun now => ?_, by rintro (_ | _) <;> rfl⟩
  refine Prog.obeys_op_bind.mpr ⟨⟨rfl, rfl, rfl, rfl⟩, fun _ => ?_, by rintro (_ | _) <;> rfl⟩
  refine Prog.obeys_op_bind.mpr ⟨rfl, fun _ => ?_, fun _ => rfl⟩
  exact Prog.obeys_op.mpr ⟨rfl, by rintro ((_ | _) | _) <;> rfl⟩

theorem deleteSchedule_obeys (scheduleId : String) :
    (deleteSchedule scheduleId).Obeys scheduleFlow Released .idle := by
  unfold deleteSchedule
  refine Prog.obeys_op_bind.mpr ⟨rfl, fun found => ?_, by rintro (_ | _) <;> rfl⟩
  rcases found with _ | _
  · rfl
  · refine Prog.obeys_op_bind.mpr ⟨rfl, fun _ => ?_, by rintro (_ | _) <;> rfl⟩
    exact Prog.obeys_op_bind.mpr ⟨rfl, fun _ => rfl, fun _ => rfl⟩

theorem listSchedules_obeys : listSchedules.Obeys scheduleFlow Released .idle :=
  Prog.obeys_op.mpr ⟨rfl, by rintro ((_ | _) | _) <;> rfl⟩

/-- A call that is done with its work has only to give back what it has found. -/
theorem released_return {R : Type} {p : Phase} {work : ScheduleM R} (f : R → Response)
    (h : work.Obeys scheduleFlow Released p) :
    (do return f (← work) : ScheduleM Response).Obeys scheduleFlow Released p :=
  h.seq (fun _ _ hend => hend) fun _ _ hend => hend

theorem prog_obeys (call : ScheduleCall) : call.prog.Obeys scheduleFlow Released .idle := by
  -- Whatever a call waits for first, it does not hold the loop then.
  have hwaits : ∀ x, (Phase.next .idle .request (.error x)).busy = false := by
    rintro (_ | _) <;> rfl
  have hfires : ∀ x, (Phase.next .idle .fire (.error x)).busy = false := by
    rintro (_ | _) <;> rfl
  cases call with
  | create payload =>
      exact Prog.obeys_op_bind.mpr
        ⟨rfl, fun _ => released_return _ (createSchedule_obeys payload), hwaits⟩
  | delete scheduleId =>
      exact Prog.obeys_op_bind.mpr
        ⟨rfl, fun _ => released_return _ (deleteSchedule_obeys scheduleId), hwaits⟩
  | list =>
      exact Prog.obeys_op_bind.mpr
        ⟨rfl, fun _ => released_return _ listSchedules_obeys, hwaits⟩
  | execution =>
      exact Prog.obeys_op_bind.mpr
        ⟨rfl, fun jobId => released_return (fun _ => _) (executeJob_obeys jobId), hfires⟩

theorem prog_parked (call : ScheduleCall) : call.prog.parked ScheduleOp.suspends := by
  cases call <;> rfl

-- ============================================================================
-- Runs
-- ============================================================================

variable {ι : Type} [DecidableEq ι] {calls : ι → ScheduleCall} {i j : ι}
variable {h : History ι World ScheduleOp.Ans (Thrown Exc)}
variable {c : Config ι World ScheduleOp.Ans (Thrown Exc) Response}

/-- A run of requests and executions. -/
abbrev ScheduleRun (calls : ι → ScheduleCall)
    (h : History ι World ScheduleOp.Ans (Thrown Exc))
    (c : Config ι World ScheduleOp.Ans (Thrown Exc) Response) : Prop :=
  Run ScheduleOp.suspends (fun _ => scheduleEnv) (started calls) h c

/-- How far call `i` has come. -/
def phase (h : History ι World ScheduleOp.Ans (Thrown Exc)) (i : ι) : Phase :=
  scheduleFlow.ghost .idle i h

theorem phase_self {ev : Event World ScheduleOp.Ans (Thrown Exc)} :
    phase ((i, ev) :: h) i = (phase h i).next ev.op ev.ans :=
  Discipline.ghost_self

theorem phase_other {ev : Event World ScheduleOp.Ans (Thrown Exc)} (hne : j ≠ i) :
    phase ((j, ev) :: h) i = phase h i :=
  Discipline.ghost_other hne

/-- A busy call holds the loop. -/
theorem running_of_busy (hrun : ScheduleRun calls h c) (hbusy : (phase h i).busy) :
    c.running = some i := by
  refine hrun.running_of_busy (fun i => prog_parked (calls i)) (prog_obeys (calls i))
    (fun p => p.busy) (fun out p hend hp => ?_) (fun p e hp hmay => ?_) hbusy
  · have hreleased : p.busy = false := hend
    exact absurd hp (by simp [hreleased])
  · cases e with
    | request => exact absurd hp (by simp [show p = .idle from hmay, Phase.busy])
    | fire => exact absurd hp (by simp [show p = .idle from hmay, Phase.busy])
    | getJob sid => exact absurd hp (by simp [show p = .fired sid from hmay, Phase.busy])
    | waitFor timeout =>
        obtain ⟨ref, cfg, failed, rfl, -⟩ := hmay
        cases hp
    | _ => rfl

-- ============================================================================
-- A job that never runs in time
-- ============================================================================

/-- Identifiers are all the same, no trigger is refused, and every attempt times out. -/
def slowly (w : World) : (e : ScheduleOp) → Option (Except (Thrown Exc) e.Ans × World)
  | .request => some (.ok (), w)
  | .uuid4 => some (.ok "nightly", w)
  | .cronTrigger minute hour day month dow => some (.ok (.cron minute hour day month dow), w)
  | .intervalTrigger seconds => some (.ok (.interval seconds), w)
  | .utcnow => some (.ok 0, w)
  | .setJob sid schedule => some (.ok (), w.setJob sid schedule)
  | .addJob sid trigger => some (.ok (), w.setStore sid (some trigger))
  | .readJob sid => some (w.item sid w.dicts, w)
  | .contains sid => some (.ok (decide (w.Listed sid)), w)
  | .removeJob sid =>
      if (w.store sid).isSome then some (.ok (), w.setStore sid none)
      else some (.error (.exception (.jobLookupError sid)), w)
  | .popJob sid => some (.ok (), w.popJob sid)
  | .values => some (.ok (w.jobs.map fun job => w.dicts job.2), w)
  | .fire => if (w.store "nightly").isSome then some (.ok "nightly", w) else none
  | .getJob sid => some (w.item sid fun ref => (ref, (w.dicts ref).payload), w)
  | .waitFor _ => some (.error (.exception .timeoutError), w)
  | .setLastRun ref now => some (.ok (), w.assign ref (Schedule.setLastRun now))
  | .setDeadLetter ref => some (.ok (), w.assign ref Schedule.setDeadLetter)

theorem slowly_sound {κ : Type} (_ : κ) (w : World) (e : ScheduleOp)
    (a : Except (Thrown Exc) e.Ans) (w' : World) (h : slowly w e = some (a, w')) :
    scheduleEnv w e a w' := by
  cases e with
  | removeJob sid =>
      simp only [slowly] at h
      simp only [scheduleEnv]
      split at h
      next hstored =>
        cases h
        exact (if_pos hstored).mpr ⟨rfl, rfl⟩
      next hstored =>
        cases h
        exact (if_neg hstored).mpr ⟨rfl, rfl⟩
  | fire =>
      simp only [slowly] at h
      split at h
      next hstored =>
        cases h
        exact ⟨⟨_, hstored, rfl⟩, rfl⟩
      next => cases h
  | addJob sid trigger =>
      cases h
      exact .inl ⟨rfl, rfl⟩
  | cronTrigger minute hour day month dow =>
      cases h
      exact ⟨.inl rfl, rfl⟩
  | intervalTrigger seconds =>
      cases h
      exact ⟨.inl rfl, rfl⟩
  | waitFor timeout =>
      cases h
      exact ⟨.inr (.inl rfl), rfl⟩
  | uuid4 =>
      cases h
      exact ⟨⟨_, rfl⟩, rfl⟩
  | utcnow =>
      cases h
      exact ⟨⟨_, rfl⟩, rfl⟩
  | _ =>
      cases h
      exact ⟨rfl, rfl⟩

/-- A schedule with one attempt, and an execution of it. -/
def exampleCalls : Bool → ScheduleCall
  | false => .create { name := "nightly", type := "interval", seconds := some 60, retries := 1 }
  | true => .execution

theorem exists_exhausted :
    ∃ h c, ScheduleRun exampleCalls h c ∧ c.running = none ∧ (c.world.store "nightly").isSome ∧
      0 < c.world.created ∧ (c.world.dicts 0).deadLetter :=
  Config.exists_run slowly_sound
    (List.replicate 7 false ++ List.replicate 4 true) _ (by decide +kernel)

end Mtrader.Scheduler
