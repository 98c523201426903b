/-
  Mtrader.Scheduler.Ledger

  What the dicts of the schedules say about their executions.

  `dead_letter` of a dict is set exactly if an execution that has found this dict has had as
  many attempts time out as it allows, and `last_run` exactly if one has had an attempt end in
  time, whatever was deleted or created in the meantime.
-/

import Mtrader.Scheduler.Jobs

namespace Mtrader.Scheduler

open Coroutine Py

variable {w w' : World} {sid : String} {ι : Type} [DecidableEq ι] {calls : ι → ScheduleCall}
variable {i j : ι} {h : History ι World ScheduleOp.Ans (Thrown Exc)}
variable {c : Config ι World ScheduleOp.Ans (Thrown Exc) Response}
variable {e : ScheduleOp} {a : Except (Thrown Exc) e.Ans} {p : Phase} {ref : ℕ}
variable {cfg : ScheduleIn}

-- ============================================================================
-- The attempts of an execution
-- ============================================================================

/-- An attempt that has not succeeded in time. -/
def timesOut (ev : Event World ScheduleOp.Ans (Thrown Exc)) : Bool :=
  match ev with
  | ⟨_, .waitFor _, .error (.exception _)⟩ => true
  | _ => false

/-- An attempt that has succeeded in time. -/
def inTime (ev : Event World ScheduleOp.Ans (Thrown Exc)) : Bool :=
  match ev with
  | ⟨_, .waitFor _, .ok _⟩ => true
  | _ => false

/-- The dict that an execution has found under its id, and what the request had sent. -/
def found (ev : Event World ScheduleOp.Ans (Thrown Exc)) : Option (ℕ × ScheduleIn) :=
  match ev with
  | ⟨_, .getJob _, .ok cfg⟩ => some cfg
  | _ => none

/-- The dicts that call `i` has found. -/
def dictsOf (i : ι) (h : History ι World ScheduleOp.Ans (Thrown Exc)) : List (ℕ × ScheduleIn) :=
  h.filterMap fun entry => if entry.1 = i then found entry.2 else none

theorem dictsOf_self {ev : Event World ScheduleOp.Ans (Thrown Exc)} :
    dictsOf i ((i, ev) :: h) = (found ev).toList ++ dictsOf i h := by
  cases hfound : found ev <;> simp [dictsOf, hfound]

theorem dictsOf_other {ev : Event World ScheduleOp.Ans (Thrown Exc)} (hne : j ≠ i) :
    dictsOf i ((j, ev) :: h) = dictsOf i h := by
  simp [dictsOf, hne]

/-- What the phase of a call says about the dicts it has found, and about its attempts: how
    many have timed out and how many have not. -/
def Phase.Course (dicts : List (ℕ × ScheduleIn)) (late succeeded : ℕ) : Phase → Prop
  | .holding ref cfg failed => dicts = [(ref, cfg)] ∧ late = failed ∧ succeeded = 0 ∧
      (0 < cfg.retries → (failed : ℤ) < cfg.retries)
  | .passed ref cfg failed => dicts = [(ref, cfg)] ∧ late = failed ∧ succeeded = 1 ∧
      (failed : ℤ) < cfg.retries ∧ 0 < cfg.timeoutSeconds
  | .succeeded ref cfg failed => dicts = [(ref, cfg)] ∧ late = failed ∧ succeeded = 1 ∧
      (failed : ℤ) < cfg.retries ∧ 0 < cfg.timeoutSeconds
  | .timedOut ref cfg => dicts = [(ref, cfg)] ∧ (late : ℤ) = cfg.retries ∧ succeeded = 0 ∧
      0 < cfg.retries
  | .exhausted ref cfg => dicts = [(ref, cfg)] ∧ (late : ℤ) = cfg.retries ∧ succeeded = 0 ∧
      0 < cfg.retries
  | .ended => succeeded = 0 ∧ ∀ dict ∈ dicts, 0 < dict.2.retries → (late : ℤ) < dict.2.retries
  | _ => dicts = [] ∧ late = 0 ∧ succeeded = 0

/-- One operation keeps the count of the attempts. -/
theorem Phase.course_next {dicts : List (ℕ × ScheduleIn)} {late succeeded : ℕ}
    (hmay : scheduleFlow.may p e) (henv : scheduleEnv w e a w')
    (h : p.Course dicts late succeeded) :
    (p.next e a).Course ((found ⟨w, e, a⟩).toList ++ dicts)
      (late + if timesOut ⟨w, e, a⟩ then 1 else 0)
      (succeeded + if inTime ⟨w, e, a⟩ then 1 else 0) := by
  cases e with
  | setJob sid schedule =>
      obtain ⟨rfl, -⟩ := hmay
      obtain ⟨rfl, -⟩ := henv
      exact h
  | addJob sid trigger =>
      have hp : p = .listed sid := hmay
      subst hp
      exact h
  | popJob sid =>
      have hp : p = .removed sid := hmay
      subst hp
      exact h
  | getJob sid =>
      have hp : p = .fired sid := hmay
      subst hp
      obtain ⟨hdicts, hlate, hsucceeded⟩ := h
      rcases a with x | ⟨ref, cfg⟩
      · exact ⟨hsucceeded, fun dict hdict => by simp [found, hdicts] at hdict⟩
      · exact ⟨by rw [hdicts]; rfl, hlate, hsucceeded, fun hpos => hpos⟩
  | waitFor timeout =>
      obtain ⟨ref, cfg, failed, rfl, rfl, hlt⟩ := hmay
      obtain ⟨hdicts, hlate, hsucceeded, -⟩ := h
      rcases a with (_ | x) | _
      · refine ⟨hsucceeded, fun dict hdict _ => ?_⟩
        have hdict : dict = (ref, cfg) := by simpa [found, hdicts] using hdict
        simpa [hdict, hlate, timesOut] using hlt
      · -- The attempt has failed, and may have been the last.
        show (Phase.fail ref cfg failed).Course _ (late + 1) _
        rw [Phase.fail]
        by_cases hlast : (failed : ℤ) = cfg.retries - 1
        · rw [if_pos hlast]
          exact ⟨hdicts, by omega, hsucceeded, by omega⟩
        · rw [if_neg hlast]
          exact ⟨hdicts, by omega, hsucceeded, fun _ => by omega⟩
      · have htimeout : 0 < cfg.timeoutSeconds := by simpa [scheduleEnv] using henv.1
        exact ⟨hdicts, hlate, congrArg (· + 1) hsucceeded, hlt, htimeout⟩
  | utcnow =>
      obtain ⟨⟨now, rfl⟩, -⟩ := henv
      rcases hmay with rfl | ⟨ref, cfg, failed, rfl⟩
      · exact h
      · exact h
  | setLastRun ref now =>
      obtain ⟨cfg, failed, rfl⟩ := hmay
      obtain ⟨rfl, -⟩ := henv
      exact h
  | setDeadLetter ref =>
      obtain ⟨cfg, rfl⟩ := hmay
      obtain ⟨rfl, -⟩ := henv
      exact h
  | _ =>
      have hp : p = .idle := hmay
      subst hp
      obtain ⟨rfl, rfl, rfl⟩ := h
      rcases a with (_ | _) | _ <;> simp [Phase.next, Phase.Course, found, timesOut, inTime]

/-- One operation of some call keeps the count of the attempts of every call. -/
theorem Move.course (hmove : Move h j w e a w')
    (hcourse : (phase h i).Course (dictsOf i h) (tally timesOut i h) (tally inTime i h)) :
    (phase ((j, ⟨w, e, a⟩) :: h) i).Course (dictsOf i ((j, ⟨w, e, a⟩) :: h))
      (tally timesOut i ((j, ⟨w, e, a⟩) :: h)) (tally inTime i ((j, ⟨w, e, a⟩) :: h)) := by
  by_cases hij : j = i
  · subst hij
    rw [phase_self, dictsOf_self, tally_cons, tally_cons]
    simpa using Phase.course_next hmove.may hmove.env hcourse
  · rw [phase_other hij, dictsOf_other hij, tally_other hij, tally_other hij]
    exact hcourse

-- ============================================================================
-- The dicts
-- ============================================================================

/-- What an operation does to the dicts. -/
inductive Write (w : World) (e : ScheduleOp) : World → Prop
  | create {sid : String} {schedule : Schedule} :
      e = .setJob sid schedule → Write w e (w.setJob sid schedule)
  | lastRun {ref : ℕ} {now : Time} : e = .setLastRun ref now →
      Write w e (w.assign ref (Schedule.setLastRun now))
  | deadLetter {ref : ℕ} : e = .setDeadLetter ref →
      Write w e (w.assign ref Schedule.setDeadLetter)
  | nothing {w' : World} : w'.dicts = w.dicts → w'.created = w.created → w'.jobs ⊆ w.jobs →
      (∀ ref now, e ≠ .setLastRun ref now) → (∀ ref, e ≠ .setDeadLetter ref) → Write w e w'

theorem write_of_env (henv : scheduleEnv w e a w') : Write w e w' := by
  cases e with
  | setJob sid schedule => exact henv.2 ▸ .create rfl
  | setLastRun ref now => exact henv.2 ▸ .lastRun rfl
  | setDeadLetter ref => exact henv.2 ▸ .deadLetter rfl
  | popJob sid => exact henv.2 ▸ .nothing rfl rfl (List.filter_subset_self _) (by simp) (by simp)
  | addJob sid trigger =>
      rcases henv with ⟨-, rfl⟩ | ⟨-, rfl⟩
      · exact .nothing rfl rfl (List.Subset.refl _) (by simp) (by simp)
      · exact .nothing rfl rfl (List.Subset.refl _) (by simp) (by simp)
  | removeJob sid =>
      simp only [scheduleEnv] at henv
      split at henv
      · exact henv.2 ▸ .nothing rfl rfl (List.Subset.refl _) (by simp) (by simp)
      · exact henv.2 ▸ .nothing rfl rfl (List.Subset.refl _) (by simp) (by simp)
  | _ => exact henv.2 ▸ .nothing rfl rfl (List.Subset.refl _) (by simp) (by simp)

theorem ref_eq_some {ref : ℕ} (hfound : w.ref sid = some ref) : (sid, ref) ∈ w.jobs := by
  obtain ⟨job, hjob, rfl⟩ := Option.map_eq_some_iff.mp hfound
  obtain ⟨hmem, rfl⟩ := Merge.lookup_eq_some hjob
  exact hmem

/-- A dict is found by looking it up in `_jobs`. -/
theorem found_of_env (henv : scheduleEnv w e a w') (hfound : found ⟨w, e, a⟩ = some (ref, cfg)) :
    ∃ sid, (sid, ref) ∈ w.jobs ∧ (w.dicts ref).payload = cfg ∧ w' = w := by
  cases e with
  | getJob sid =>
      obtain ⟨rfl, rfl⟩ := henv
      unfold World.item at hfound
      cases href : w'.ref sid with
      | none =>
          rw [href] at hfound
          cases hfound
      | some ref' =>
          rw [href] at hfound
          cases hfound
          exact ⟨sid, ref_eq_some href, rfl, rfl⟩
  | _ => cases hfound

/-- How a call comes to its end, and that it does nothing then. -/
theorem next_ended (hmay : scheduleFlow.may p e) (henv : scheduleEnv w e a w') (ref : ℕ) :
    ((∃ cfg, p.next e a = .exhausted ref cfg) ↔ e = .setDeadLetter ref) ∧
    ((∃ cfg failed, p.next e a = .succeeded ref cfg failed) ↔ ∃ now, e = .setLastRun ref now) ∧
    (∀ cfg, p ≠ .exhausted ref cfg) ∧ ∀ cfg failed, p ≠ .succeeded ref cfg failed := by
  cases e with
  | setJob sid schedule =>
      obtain ⟨rfl, -⟩ := hmay
      obtain ⟨rfl, -⟩ := henv
      simp [Phase.next]
  | addJob sid trigger =>
      have hp : p = .listed sid := hmay
      simp [Phase.next, hp]
  | popJob sid =>
      have hp : p = .removed sid := hmay
      simp [Phase.next, hp]
  | getJob sid =>
      have hp : p = .fired sid := hmay
      rcases a with (_ | _) | ⟨_, _⟩ <;> simp [Phase.next, hp]
  | waitFor timeout =>
      obtain ⟨ref', cfg', failed, rfl, -⟩ := hmay
      rcases a with (_ | x) | _
      · simp [Phase.next]
      · simp only [Phase.next, Phase.fail]
        split <;> simp
      · simp [Phase.next]
  | utcnow =>
      obtain ⟨⟨now, rfl⟩, -⟩ := henv
      rcases hmay with rfl | ⟨ref', cfg', failed, rfl⟩ <;> simp [Phase.next]
  | setLastRun ref' now =>
      obtain ⟨cfg', failed, rfl⟩ := hmay
      obtain ⟨rfl, -⟩ := henv
      simp [Phase.next]
  | setDeadLetter ref' =>
      obtain ⟨cfg', rfl⟩ := hmay
      obtain ⟨rfl, -⟩ := henv
      simp [Phase.next]
  | _ =>
      have hp : p = .idle := hmay
      rcases a with (_ | _) | _ <;> simp [Phase.next, hp]

-- ============================================================================
-- The invariant
-- ============================================================================

/-- An execution with the dict has used up its attempts. -/
def Exhausted (h : History ι World ScheduleOp.Ans (Thrown Exc)) (ref : ℕ) : Prop :=
  ∃ i cfg, phase h i = .exhausted ref cfg

/-- An execution with the dict has succeeded. -/
def Succeeded (h : History ι World ScheduleOp.Ans (Thrown Exc)) (ref : ℕ) : Prop :=
  ∃ i cfg failed, phase h i = .succeeded ref cfg failed

theorem Move.exhausted_iff (hmove : Move h i w e a w') (ref : ℕ) :
    Exhausted ((i, ⟨w, e, a⟩) :: h) ref ↔ Exhausted h ref ∨ e = .setDeadLetter ref := by
  obtain ⟨hnext, -, hnot, -⟩ := next_ended hmove.may hmove.env ref
  constructor
  · rintro ⟨j, cfg, hj⟩
    by_cases hij : i = j
    · subst hij
      rw [phase_self] at hj
      exact .inr (hnext.mp ⟨cfg, hj⟩)
    · exact .inl ⟨j, cfg, phase_other hij ▸ hj⟩
  · rintro (⟨j, cfg, hj⟩ | he)
    · have hij : i ≠ j := by
        rintro rfl
        exact hnot cfg hj
      exact ⟨j, cfg, (phase_other hij).trans hj⟩
    · obtain ⟨cfg, hp⟩ := hnext.mpr he
      exact ⟨i, cfg, phase_self.trans hp⟩

theorem Move.succeeded_iff (hmove : Move h i w e a w') (ref : ℕ) :
    Succeeded ((i, ⟨w, e, a⟩) :: h) ref ↔ Succeeded h ref ∨ ∃ now, e = .setLastRun ref now := by
  obtain ⟨-, hnext, -, hnot⟩ := next_ended hmove.may hmove.env ref
  constructor
  · rintro ⟨j, cfg, failed, hj⟩
    by_cases hij : i = j
    · subst hij
      rw [phase_self] at hj
      exact .inr (hnext.mp ⟨cfg, failed, hj⟩)
    · exact .inl ⟨j, cfg, failed, phase_other hij ▸ hj⟩
  · rintro (⟨j, cfg, failed, hj⟩ | he)
    · have hij : i ≠ j := by
        rintro rfl
        exact hnot cfg failed hj
      exact ⟨j, cfg, failed, (phase_other hij).trans hj⟩
    · obtain ⟨cfg, failed, hp⟩ := hnext.mpr he
      exact ⟨i, cfg, failed, phase_self.trans hp⟩

structure Ledger (h : History ι World ScheduleOp.Ans (Thrown Exc)) (w : World) : Prop where
  owned : ∀ job ∈ w.jobs, job.2 < w.created ∧ (w.dicts job.2).id = job.1
  course : ∀ i, (phase h i).Course (dictsOf i h) (tally timesOut i h) (tally inTime i h)
  found : ∀ i, ∀ dict ∈ dictsOf i h, dict.1 < w.created ∧ (w.dicts dict.1).payload = dict.2
  deadLetter : ∀ ref < w.created, ((w.dicts ref).deadLetter ↔ Exhausted h ref)
  lastRun : ∀ ref < w.created, ((w.dicts ref).lastRun.isSome ↔ Succeeded h ref)

theorem dict_setJob_old {schedule : Schedule} (hlt : ref < w.created) :
    (w.setJob sid schedule).dicts ref = w.dicts ref :=
  Function.update_of_ne (Nat.ne_of_lt hlt) ..

theorem dict_setJob_new {schedule : Schedule} :
    (w.setJob sid schedule).dicts w.created = schedule := Function.update_self ..

/-- An assignment to a field keeps the others of every dict. -/
theorem dict_assign {α : Type} (field : Schedule → α) (f : Schedule → Schedule)
    (hf : ∀ cfg, field (f cfg) = field cfg) (ref ref' : ℕ) :
    field ((w.assign ref f).dicts ref') = field (w.dicts ref') := by
  by_cases href : ref' = ref
  · subst href
    exact (congrArg field (Function.update_self ..)).trans (hf _)
  · exact congrArg field (Function.update_of_ne href ..)

theorem dict_assign_self {f : Schedule → Schedule} :
    (w.assign ref f).dicts ref = f (w.dicts ref) := Function.update_self ..

/-- Who has used up the attempts, or has succeeded, has found the dict. -/
theorem Ledger.mem_of_exhausted (hI : Ledger h w) (hp : phase h i = .exhausted ref cfg) :
    (ref, cfg) ∈ dictsOf i h := by
  have hcourse := hI.course i
  rw [hp] at hcourse
  rw [hcourse.1]
  exact List.mem_singleton_self _

theorem Ledger.mem_of_succeeded (hI : Ledger h w) {failed : ℕ}
    (hp : phase h i = .succeeded ref cfg failed) : (ref, cfg) ∈ dictsOf i h := by
  have hcourse := hI.course i
  rw [hp] at hcourse
  rw [hcourse.1]
  exact List.mem_singleton_self _

/-- Nobody has found a dict that has not been created. -/
theorem Ledger.fresh (hI : Ledger h w) : ¬ Exhausted h w.created ∧ ¬ Succeeded h w.created := by
  constructor
  · rintro ⟨i, cfg, hi⟩
    exact lt_irrefl _ (hI.found i _ (hI.mem_of_exhausted hi)).1
  · rintro ⟨i, cfg, failed, hi⟩
    exact lt_irrefl _ (hI.found i _ (hI.mem_of_succeeded hi)).1

theorem Ledger.owned_step (hI : Ledger h w) (hmove : Move h i w e a w') (job : String × ℕ)
    (hjob : job ∈ w'.jobs) : job.2 < w'.created ∧ (w'.dicts job.2).id = job.1 := by
  rcases write_of_env hmove.env with @⟨s, schedule, he⟩ | _ | _ | ⟨hdicts, hcreated, hjobs, -⟩
  · subst he
    have hid : schedule.id = s := hmove.may.2.1
    rcases Merge.mem_put.mp hjob with rfl | ⟨hjob, -⟩
    · exact ⟨Nat.lt_succ_self _, by rw [dict_setJob_new, hid]⟩
    · obtain ⟨hlt, hold⟩ := hI.owned job hjob
      exact ⟨Nat.lt_succ_of_lt hlt, by rw [dict_setJob_old hlt, hold]⟩
  · obtain ⟨hlt, hold⟩ := hI.owned job hjob
    exact ⟨hlt, (dict_assign Schedule.id (Schedule.setLastRun _) (fun _ => rfl) _ _).trans hold⟩
  · obtain ⟨hlt, hold⟩ := hI.owned job hjob
    exact ⟨hlt, (dict_assign Schedule.id Schedule.setDeadLetter (fun _ => rfl) _ _).trans hold⟩
  · rw [hdicts, hcreated]
    exact hI.owned job (hjobs hjob)

/-- A dict stays, with what came from its request. -/
theorem payload_step (henv : scheduleEnv w e a w') (hlt : ref < w.created) :
    ref < w'.created ∧ (w'.dicts ref).payload = (w.dicts ref).payload := by
  rcases write_of_env henv with _ | _ | _ | ⟨hdicts, hcreated, -⟩
  · exact ⟨Nat.lt_succ_of_lt hlt, by rw [dict_setJob_old hlt]⟩
  · exact ⟨hlt, dict_assign Schedule.payload (Schedule.setLastRun _) (fun _ => rfl) _ _⟩
  · exact ⟨hlt, dict_assign Schedule.payload Schedule.setDeadLetter (fun _ => rfl) _ _⟩
  · rw [hdicts, hcreated]
    exact ⟨hlt, rfl⟩

theorem Ledger.found_step (hI : Ledger h w) (hmove : Move h i w e a w') (j : ι)
    (dict : ℕ × ScheduleIn) (hdict : dict ∈ dictsOf j ((i, ⟨w, e, a⟩) :: h)) :
    dict.1 < w'.created ∧ (w'.dicts dict.1).payload = dict.2 := by
  have hkept : dict ∈ dictsOf j h →
      dict.1 < w'.created ∧ (w'.dicts dict.1).payload = dict.2 := fun hold => by
    obtain ⟨hlt, hpayload⟩ := hI.found j dict hold
    obtain ⟨hlt', hsame⟩ := payload_step hmove.env hlt
    exact ⟨hlt', hsame.trans hpayload⟩
  by_cases hij : i = j
  · subst hij
    rw [dictsOf_self, List.mem_append, Option.mem_toList] at hdict
    rcases hdict with hnew | hold
    · obtain ⟨sid, hmem, hpayload, rfl⟩ := found_of_env hmove.env hnew
      exact ⟨(hI.owned _ hmem).1, hpayload⟩
    · exact hkept hold
  · exact hkept (dictsOf_other hij ▸ hdict)

theorem Ledger.deadLetter_step (hI : Ledger h w) (hmove : Move h i w e a w') (ref : ℕ)
    (hlt : ref < w'.created) :
    (w'.dicts ref).deadLetter ↔ Exhausted ((i, ⟨w, e, a⟩) :: h) ref := by
  rw [hmove.exhausted_iff]
  rcases write_of_env hmove.env with
    @⟨s, schedule, he⟩ | @⟨s, now, he⟩ | @⟨s, he⟩ | ⟨hdicts, hcreated, -, -, hnot⟩
  · subst he
    have hnew : schedule.deadLetter = false := hmove.may.2.2.1
    rcases Nat.lt_succ_iff_lt_or_eq.mp hlt with hlt | rfl
    · rw [dict_setJob_old hlt, hI.deadLetter ref hlt]
      simp
    · rw [dict_setJob_new, hnew]
      simpa using hI.fresh.1
  · rw [dict_assign Schedule.deadLetter (Schedule.setLastRun now) fun _ => rfl]
    rw [hI.deadLetter ref hlt]
    simp [he]
  · by_cases href : ref = s
    · subst href
      rw [dict_assign_self]
      exact iff_of_true rfl (.inr he)
    · have hsame : ((w.assign s Schedule.setDeadLetter).dicts ref) =
          w.dicts ref := Function.update_of_ne href ..
      rw [hsame, hI.deadLetter ref hlt]
      simp [he, Ne.symm href]
  · rw [hdicts, hI.deadLetter ref (hcreated ▸ hlt)]
    exact (or_iff_left (hnot ref)).symm

theorem Ledger.lastRun_step (hI : Ledger h w) (hmove : Move h i w e a w') (ref : ℕ)
    (hlt : ref < w'.created) :
    (w'.dicts ref).lastRun.isSome ↔ Succeeded ((i, ⟨w, e, a⟩) :: h) ref := by
  rw [hmove.succeeded_iff]
  rcases write_of_env hmove.env with
    @⟨s, schedule, he⟩ | @⟨s, now, he⟩ | @⟨s, he⟩ | ⟨hdicts, hcreated, -, hnot, -⟩
  · subst he
    have hnew : schedule.lastRun = none := hmove.may.2.2.2
    rcases Nat.lt_succ_iff_lt_or_eq.mp hlt with hlt | rfl
    · rw [dict_setJob_old hlt, hI.lastRun ref hlt]
      simp
    · rw [dict_setJob_new, hnew]
      simpa using hI.fresh.2
  · by_cases href : ref = s
    · subst href
      rw [dict_assign_self]
      exact iff_of_true rfl (.inr ⟨now, he⟩)
    · have hsame : ((w.assign s (Schedule.setLastRun now)).dicts ref) =
          w.dicts ref := Function.update_of_ne href ..
      rw [hsame, hI.lastRun ref hlt]
      simp [he, Ne.symm href]
  · rw [dict_assign Schedule.lastRun Schedule.setDeadLetter (fun _ => rfl), hI.lastRun ref hlt]
    simp [he]
  · rw [hdicts, hI.lastRun ref (hcreated ▸ hlt)]
    exact (or_iff_left fun ⟨now, he⟩ => hnot ref now he).symm

theorem ledger_of_run (hrun : ScheduleRun calls h c) : Ledger h c.world := by
  refine invariant_of_moves hrun ?_ fun h i w e a w' hI hmove => ?_
  · exact ⟨nofun, fun i => ⟨rfl, rfl, rfl⟩, nofun, nofun, nofun⟩
  · exact ⟨hI.owned_step hmove, fun j => hmove.course (hI.course j), hI.found_step hmove,
      hI.deadLetter_step hmove, hI.lastRun_step hmove⟩

/-- No operation takes back `dead_letter` or `last_run`. -/
theorem dict_kept (henv : scheduleEnv w e a w') (hlt : ref < w.created) :
    ((w.dicts ref).deadLetter → (w'.dicts ref).deadLetter) ∧
      ((w.dicts ref).lastRun.isSome → (w'.dicts ref).lastRun.isSome) := by
  rcases write_of_env henv with _ | @⟨s, now, he⟩ | @⟨s, he⟩ | ⟨hdicts, -⟩
  · rw [dict_setJob_old hlt]
    exact ⟨fun hdead => hdead, fun hlast => hlast⟩
  · rw [dict_assign Schedule.deadLetter (Schedule.setLastRun now) fun _ => rfl]
    refine ⟨fun hdead => hdead, fun hlast => ?_⟩
    by_cases href : ref = s
    · subst href
      rw [dict_assign_self]
      rfl
    · have hsame : (w.assign s (Schedule.setLastRun now)).dicts ref = w.dicts ref :=
        Function.update_of_ne href ..
      rw [hsame]
      exact hlast
  · rw [dict_assign Schedule.lastRun Schedule.setDeadLetter fun _ => rfl]
    refine ⟨fun hdead => ?_, fun hlast => hlast⟩
    by_cases href : ref = s
    · subst href
      rw [dict_assign_self]
      rfl
    · have hsame : (w.assign s Schedule.setDeadLetter).dicts ref = w.dicts ref :=
        Function.update_of_ne href ..
      rw [hsame]
      exact hdead
  · rw [hdicts]
    exact ⟨fun hdead => hdead, fun hlast => hlast⟩

-- ============================================================================
-- What the dicts tell
-- ============================================================================

/-- Call `i` is an execution that has found this dict. -/
def Executes (h : History ι World ScheduleOp.Ans (Thrown Exc)) (i : ι) (ref : ℕ) : Prop :=
  ref ∈ (dictsOf i h).map Prod.fst

/-- As many attempts of the call have timed out as are allowed, and at least one. -/
def Expired (h : History ι World ScheduleOp.Ans (Thrown Exc)) (i : ι) (retries : ℤ) : Prop :=
  0 < retries ∧ (tally timesOut i h : ℤ) = retries

/-- What a dict says about the executions that have found it. -/
structure Tells (h : History ι World ScheduleOp.Ans (Thrown Exc))
    (c : Config ι World ScheduleOp.Ans (Thrown Exc) Response) (ref : ℕ) : Prop where
  expired : (c.world.dicts ref).deadLetter →
    ∃ i, Executes h i ref ∧ Expired h i (c.world.dicts ref).payload.retries
  /-- Unless it has the loop, and is about to write. -/
  deadLetter : ∀ i, Executes h i ref → Expired h i (c.world.dicts ref).payload.retries →
    c.running ≠ some i → (c.world.dicts ref).deadLetter
  succeeded : (c.world.dicts ref).lastRun.isSome →
    ∃ i, Executes h i ref ∧ 0 < tally inTime i h
  lastRun : ∀ i, Executes h i ref → 0 < tally inTime i h → c.running ≠ some i →
    (c.world.dicts ref).lastRun.isSome
  unexpired : ∀ i, Executes h i ref → 0 < tally inTime i h →
    0 < (c.world.dicts ref).payload.timeoutSeconds ∧
      (tally timesOut i h : ℤ) < (c.world.dicts ref).payload.retries
  kept : ∀ j ev c', Step ScheduleOp.suspends (fun _ => scheduleEnv) c j ev c' →
    ((c.world.dicts ref).deadLetter → (c'.world.dicts ref).deadLetter) ∧
      ((c.world.dicts ref).lastRun.isSome → (c'.world.dicts ref).lastRun.isSome)

/-- How far an execution is that has used up its attempts. -/
theorem Ledger.phase_of_expired (hI : Ledger h w) (hexecutes : Executes h i ref)
    (hexpired : Expired h i (w.dicts ref).payload.retries) :
    ∃ cfg, phase h i = .timedOut ref cfg ∨ phase h i = .exhausted ref cfg := by
  obtain ⟨⟨ref', cfg⟩, hmem, rfl⟩ := List.mem_map.mp hexecutes
  obtain ⟨hpos, hcount⟩ := hexpired
  have hpayload : (w.dicts ref').payload = cfg := (hI.found i _ hmem).2
  have hcourse := hI.course i
  rw [hpayload] at hpos hcount
  cases hp : phase h i with
  | timedOut ref cfg' =>
      rw [hp] at hcourse
      have heq : (ref', cfg) = (ref, cfg') := by simpa [hcourse.1] using hmem
      cases heq
      exact ⟨cfg, .inl rfl⟩
  | exhausted ref cfg' =>
      rw [hp] at hcourse
      have heq : (ref', cfg) = (ref, cfg') := by simpa [hcourse.1] using hmem
      cases heq
      exact ⟨cfg, .inr rfl⟩
  | holding ref cfg' failed =>
      rw [hp] at hcourse
      obtain ⟨hdicts, hlate, -, hlt⟩ := hcourse
      have heq : (ref', cfg) = (ref, cfg') := by simpa [hdicts] using hmem
      cases heq
      have hfailed := hlt hpos
      omega
  | passed ref cfg' failed =>
      rw [hp] at hcourse
      obtain ⟨hdicts, hlate, -, hlt, -⟩ := hcourse
      have heq : (ref', cfg) = (ref, cfg') := by simpa [hdicts] using hmem
      cases heq
      omega
  | succeeded ref cfg' failed =>
      rw [hp] at hcourse
      obtain ⟨hdicts, hlate, -, hlt, -⟩ := hcourse
      have heq : (ref', cfg) = (ref, cfg') := by simpa [hdicts] using hmem
      cases heq
      omega
  | ended =>
      rw [hp] at hcourse
      have hlt : (tally timesOut i h : ℤ) < cfg.retries := hcourse.2 _ hmem hpos
      omega
  | _ =>
      rw [hp] at hcourse
      simp [hcourse.1] at hmem

/-- How far an execution is that has had an attempt end in time. -/
theorem Ledger.phase_of_inTime (hI : Ledger h w) (hexecutes : Executes h i ref)
    (hinTime : 0 < tally inTime i h) :
    ∃ failed, (phase h i = .passed ref (w.dicts ref).payload failed ∨
        phase h i = .succeeded ref (w.dicts ref).payload failed) ∧
      tally timesOut i h = failed ∧ (failed : ℤ) < (w.dicts ref).payload.retries ∧
        0 < (w.dicts ref).payload.timeoutSeconds := by
  obtain ⟨⟨ref', cfg⟩, hmem, rfl⟩ := List.mem_map.mp hexecutes
  have hpayload : (w.dicts ref').payload = cfg := (hI.found i _ hmem).2
  have hcourse := hI.course i
  simp only [hpayload]
  cases hp : phase h i with
  | passed ref cfg' failed =>
      rw [hp] at hcourse
      obtain ⟨hdicts, hlate, -, hlt, htimeout⟩ := hcourse
      have heq : (ref', cfg) = (ref, cfg') := by simpa [hdicts] using hmem
      cases heq
      exact ⟨failed, .inl rfl, hlate, hlt, htimeout⟩
  | succeeded ref cfg' failed =>
      rw [hp] at hcourse
      obtain ⟨hdicts, hlate, -, hlt, htimeout⟩ := hcourse
      have heq : (ref', cfg) = (ref, cfg') := by simpa [hdicts] using hmem
      cases heq
      exact ⟨failed, .inr rfl, hlate, hlt, htimeout⟩
  | holding ref cfg' failed =>
      rw [hp] at hcourse
      have hnone := hcourse.2.2.1
      omega
  | ended =>
      rw [hp] at hcourse
      have hnone := hcourse.1
      omega
  | timedOut ref cfg' =>
      rw [hp] at hcourse
      have hnone := hcourse.2.2.1
      omega
  | exhausted ref cfg' =>
      rw [hp] at hcourse
      have hnone := hcourse.2.2.1
      omega
  | _ =>
      rw [hp] at hcourse
      have hnone := hcourse.2.2
      omega

/-- The dict of a schedule has `dead_letter` set exactly if one of its executions has had all
    its attempts time out, and `last_run` exactly if one has had an attempt end in time, before
    it had used them up.  Neither is ever taken back. -/
theorem dicts_tell_executions (hrun : ScheduleRun calls h c) (ref : ℕ)
    (hlt : ref < c.world.created) : Tells h c ref := by
  have hI := ledger_of_run hrun
  refine ⟨fun hdead => ?_, fun i hexecutes hexpired hfree => ?_, fun hlast => ?_,
    fun i hexecutes hinTime hfree => ?_, fun i hexecutes hinTime => ?_, fun j ev c' hs => ?_⟩
  · obtain ⟨i, cfg, hi⟩ := (hI.deadLetter ref hlt).mp hdead
    have hmem := hI.mem_of_exhausted hi
    have hpayload : (c.world.dicts ref).payload = cfg := (hI.found i _ hmem).2
    have hcourse := hI.course i
    rw [hi] at hcourse
    obtain ⟨-, hcount, -, hpos⟩ := hcourse
    rw [← hpayload] at hcount hpos
    exact ⟨i, List.mem_map.mpr ⟨_, hmem, rfl⟩, hpos, hcount⟩
  · obtain ⟨cfg, hi | hi⟩ := hI.phase_of_expired hexecutes hexpired
    · exact absurd (running_of_busy hrun (by rw [hi]; rfl)) hfree
    · exact (hI.deadLetter ref hlt).mpr ⟨i, cfg, hi⟩
  · obtain ⟨i, cfg, failed, hi⟩ := (hI.lastRun ref hlt).mp hlast
    have hcourse := hI.course i
    rw [hi] at hcourse
    have hone := hcourse.2.2.1
    exact ⟨i, List.mem_map.mpr ⟨_, hI.mem_of_succeeded hi, rfl⟩, by omega⟩
  · obtain ⟨failed, hi | hi, -⟩ := hI.phase_of_inTime hexecutes hinTime
    · exact absurd (running_of_busy hrun (by rw [hi]; rfl)) hfree
    · exact (hI.lastRun ref hlt).mpr ⟨i, _, failed, hi⟩
  · obtain ⟨failed, -, hcount, hfewer, htimeout⟩ := hI.phase_of_inTime hexecutes hinTime
    exact ⟨htimeout, hcount ▸ hfewer⟩
  · cases hs with
    | mk _ _ henv => exact dict_kept henv hlt

/-- The execution that has set `dead_letter` had one attempt. -/
theorem dicts_tell_executions_exhausted :
    ∃ h c, ScheduleRun exampleCalls h c ∧ (c.world.dicts 0).deadLetter ∧
      ∃ i, Executes h i 0 ∧ Expired h i (c.world.dicts 0).payload.retries := by
  obtain ⟨h, c, hrun, -, -, hcreated, hdead⟩ := exists_exhausted
  exact ⟨h, c, hrun, hdead, (dicts_tell_executions hrun 0 hcreated).expired hdead⟩

end Mtrader.Scheduler
