/-
  Mtrader.Scheduler.Jobs

  `_jobs` against the job store of the scheduler, in every interleaving.

  Whatever the scheduler may start is listed, and what is listed without being in the store is
  a schedule that `add_job` has refused, or that a request which holds the loop is about to
  hand over or to take out.
-/

import Mtrader.Scheduler.Phases

namespace Mtrader.Scheduler

open Coroutine Py

variable {w w' : World} {sid : String}

-- ============================================================================
-- The dict `_jobs`
-- ============================================================================

theorem keys_setJob {schedule : Schedule} :
    (w.setJob sid schedule).jobs.map Prod.fst =
      if w.Listed sid then w.jobs.map Prod.fst else w.jobs.map Prod.fst ++ [sid] := by
  have hfound : (Merge.lookup Prod.fst w.jobs sid).isSome ↔ w.Listed sid := by
    simp [Merge.lookup, World.Listed]
  have hkeys : (w.setJob sid schedule).jobs.map Prod.fst = _ := Merge.map_key_put
  rw [hkeys]
  exact if_congr hfound rfl rfl

theorem listed_setJob {schedule : Schedule} {sid' : String} :
    (w.setJob sid schedule).Listed sid' ↔ sid' = sid ∨ w.Listed sid' := by
  unfold World.Listed
  rw [keys_setJob]
  by_cases hlisted : w.Listed sid
  · have hself : sid' = sid → w.Listed sid' := fun h => h ▸ hlisted
    rw [if_pos hlisted]
    exact (or_iff_right_of_imp hself).symm
  · rw [if_neg hlisted, List.mem_append, List.mem_singleton]
    exact or_comm

theorem listed_popJob {sid' : String} :
    (w.popJob sid).Listed sid' ↔ sid' ≠ sid ∧ w.Listed sid' := by
  simp only [World.Listed, World.popJob, List.mem_map, List.mem_filter]
  constructor
  · rintro ⟨job, ⟨hjob, hne⟩, rfl⟩
    exact ⟨by simpa using hne, job, hjob, rfl⟩
  · rintro ⟨hne, job, hjob, rfl⟩
    exact ⟨job, ⟨hjob, by simpa using hne⟩, rfl⟩

theorem nodup_setJob {schedule : Schedule} (h : (w.jobs.map Prod.fst).Nodup) :
    ((w.setJob sid schedule).jobs.map Prod.fst).Nodup := by
  rw [keys_setJob]
  split
  next => exact h
  next hnot => exact h.append (List.nodup_singleton _) (List.disjoint_singleton.mpr hnot)

theorem nodup_popJob (h : (w.jobs.map Prod.fst).Nodup) :
    ((w.popJob sid).jobs.map Prod.fst).Nodup :=
  h.sublist (List.filter_sublist.map _)

theorem store_other {sid' : String} {trigger : Option Trigger} (hne : sid' ≠ sid) :
    (w.setStore sid trigger).store sid' = w.store sid' := Function.update_of_ne hne ..

theorem store_self {trigger : Option Trigger} : (w.setStore sid trigger).store sid = trigger :=
  Function.update_self ..

-- ============================================================================
-- One operation
-- ============================================================================

variable {ι : Type} [DecidableEq ι] {calls : ι → ScheduleCall} {i j : ι}
variable {h : History ι World ScheduleOp.Ans (Thrown Exc)}
variable {c c' : Config ι World ScheduleOp.Ans (Thrown Exc) Response}
variable {e : ScheduleOp} {a : Except (Thrown Exc) e.Ans} {p : Phase}

/-- Call `i` performs an operation in a run. -/
structure Move (h : History ι World ScheduleOp.Ans (Thrown Exc)) (i : ι) (w : World)
    (e : ScheduleOp) (a : Except (Thrown Exc) e.Ans) (w' : World) : Prop where
  env : scheduleEnv w e a w'
  may : scheduleFlow.may (phase h i) e
  /-- Nobody else holds the loop. -/
  alone : ∀ j, (phase h j).busy → j = i

/-- An invariant that every operation keeps. -/
theorem invariant_of_moves {I : History ι World ScheduleOp.Ans (Thrown Exc) → World → Prop}
    (hrun : ScheduleRun calls h c) (h₀ : I [] .empty)
    (hstep : ∀ h i w e a w', I h w → Move h i w e a w' → I ((i, ⟨w, e, a⟩) :: h) w') :
    I h c.world := by
  induction hrun with
  | nil => exact h₀
  | @cons h c c' i ev hr hs ih =>
      have hmay : scheduleFlow.may (phase h i) ev.op :=
        (Run.cons hr hs).may (prog_obeys (calls i)) List.suffix_rfl
      have halone : ∀ j, (phase h j).busy → j = i := fun j hj =>
        (hs.eq_of_running (running_of_busy hr hj)).symm
      cases hs with
      | mk _ _ henv => exact hstep _ _ _ _ _ _ ih ⟨henv, hmay, halone⟩

/-- A request in between goes on with the schedule that it is about. -/
theorem pending_op (hmay : scheduleFlow.may p e) :
    (p = .listed sid → ∃ trigger, e = .addJob sid trigger) ∧
      (p = .removed sid → e = .popJob sid) := by
  cases e with
  | setJob _ _ => exact ⟨fun hp => by simp [hmay.1] at hp, fun hp => by simp [hmay.1] at hp⟩
  | addJob sid' trigger =>
      have hp : p = .listed sid' := hmay
      refine ⟨fun hp' => ?_, fun hp' => by simp [hp] at hp'⟩
      have hsid : sid' = sid := by simpa [hp] using hp'
      exact ⟨trigger, hsid ▸ rfl⟩
  | popJob sid' =>
      have hp : p = .removed sid' := hmay
      refine ⟨fun hp' => by simp [hp] at hp', fun hp' => ?_⟩
      have hsid : sid' = sid := by simpa [hp] using hp'
      exact hsid ▸ rfl
  | waitFor timeout =>
      obtain ⟨ref, cfg, failed, rfl, -⟩ := hmay
      exact ⟨nofun, nofun⟩
  | utcnow =>
      rcases hmay with rfl | ⟨ref, cfg, failed, rfl⟩
      · exact ⟨nofun, nofun⟩
      · exact ⟨nofun, nofun⟩
  | setLastRun ref now =>
      obtain ⟨cfg, failed, rfl⟩ := hmay
      exact ⟨nofun, nofun⟩
  | setDeadLetter ref =>
      obtain ⟨cfg, rfl⟩ := hmay
      exact ⟨nofun, nofun⟩
  | _ =>
      have hp : p = _ := hmay
      subst hp
      exact ⟨nofun, nofun⟩

theorem Move.addJob_of_listed (hmove : Move h i w e a w') (hj : phase h j = .listed sid) :
    j = i ∧ ∃ trigger, e = .addJob sid trigger := by
  have hji : j = i := hmove.alone j (by simp [hj, Phase.busy])
  subst hji
  exact ⟨rfl, (pending_op hmove.may).1 hj⟩

theorem Move.popJob_of_removed (hmove : Move h i w e a w') (hj : phase h j = .removed sid) :
    j = i ∧ e = .popJob sid := by
  have hji : j = i := hmove.alone j (by simp [hj, Phase.busy])
  subst hji
  exact ⟨rfl, (pending_op hmove.may).2 hj⟩

/-- The request is in between two operations on one schedule. -/
def Phase.pending : Phase → Bool
  | .listed _ | .removed _ | .fired _ => true
  | _ => false

theorem not_pending {q : Phase} (hq : q.pending = false) {P P' P'' : Prop} :
    (q = .listed sid → P) ∧ (q = .removed sid → P') ∧ (q = .fired sid → P'') := by
  refine ⟨?_, ?_, ?_⟩ <;> (rintro rfl; cases hq)

/-- What a request has just done when it is in between. -/
theorem next_pending (hmay : scheduleFlow.may p e) (henv : scheduleEnv w e a w') :
    (p.next e a = .listed sid → ∃ schedule, e = .setJob sid schedule ∧ w' = w.setJob sid schedule) ∧
    (p.next e a = .removed sid → e = .removeJob sid ∧ w' = w.setStore sid none) ∧
    (p.next e a = .fired sid → e = .fire ∧ (w.store sid).isSome ∧ w' = w) := by
  cases e with
  | setJob s schedule =>
      obtain ⟨rfl, rfl⟩ := henv
      refine ⟨fun hp => ?_, by simp [Phase.next], by simp [Phase.next]⟩
      have hs : s = sid := by simpa [Phase.next] using hp
      exact ⟨schedule, hs ▸ rfl, hs ▸ rfl⟩
  | addJob s trigger => exact not_pending rfl
  | popJob s => exact not_pending rfl
  | removeJob s =>
      have hp : p = .idle := hmay
      subst hp
      simp only [scheduleEnv] at henv
      split at henv
      · obtain ⟨rfl, rfl⟩ := henv
        refine ⟨by simp [Phase.next], fun hp => ?_, by simp [Phase.next]⟩
        have hs : s = sid := by simpa [Phase.next] using hp
        exact ⟨hs ▸ rfl, hs ▸ rfl⟩
      · obtain ⟨rfl, -⟩ := henv
        exact not_pending rfl
  | fire =>
      have hp : p = .idle := hmay
      subst hp
      obtain ⟨⟨s, hstored, rfl⟩, rfl⟩ := henv
      refine ⟨by simp [Phase.next], by simp [Phase.next], fun hp => ?_⟩
      have hs : s = sid := by simpa [Phase.next] using hp
      exact ⟨rfl, hs ▸ hstored, rfl⟩
  | getJob s =>
      have hp : p = .fired s := hmay
      subst hp
      rcases a with (_ | _) | ⟨ref, cfg⟩ <;> exact not_pending rfl
  | waitFor timeout =>
      obtain ⟨ref, cfg, failed, rfl, -⟩ := hmay
      rcases a with (_ | _) | _ <;> simp only [Phase.next, Phase.fail] <;> try split
      all_goals exact not_pending rfl
  | utcnow =>
      obtain ⟨⟨now, rfl⟩, -⟩ := henv
      rcases hmay with rfl | ⟨ref, cfg, failed, rfl⟩
      · exact not_pending rfl
      · exact not_pending rfl
  | setLastRun ref now =>
      obtain ⟨cfg, failed, rfl⟩ := hmay
      obtain ⟨rfl, -⟩ := henv
      exact not_pending rfl
  | setDeadLetter ref =>
      obtain ⟨cfg, rfl⟩ := hmay
      obtain ⟨rfl, -⟩ := henv
      exact not_pending rfl
  | _ =>
      have hp : p = .idle := hmay
      subst hp
      rcases a with (_ | _) | _ <;> exact not_pending rfl

/-- The scheduler has refused the job. -/
def refuses (sid : String) (ev : Event World ScheduleOp.Ans (Thrown Exc)) : Bool :=
  match ev with
  | ⟨_, .addJob sid' _, .error _⟩ => sid' = sid
  | _ => false

/-- What an operation does to `_jobs` and to the store. -/
inductive Effect (w : World) (e : ScheduleOp) (a : Except (Thrown Exc) e.Ans) : World → Prop
  | setJob {sid : String} {schedule : Schedule} :
      e = .setJob sid schedule → (∀ p, Phase.next p e a = .listed sid) →
      Effect w e a (w.setJob sid schedule)
  | addJob {sid : String} {trigger : Trigger} :
      e = .addJob sid trigger → Effect w e a (w.setStore sid (some trigger))
  | removeJob {sid : String} : e = .removeJob sid → (∀ p, Phase.next p e a = .removed sid) →
      Effect w e a (w.setStore sid none)
  | popJob {sid : String} : e = .popJob sid → Effect w e a (w.popJob sid)
  | nothing {w' : World} : w'.jobs = w.jobs → w'.store = w.store →
      (∀ sid trigger, e = .addJob sid trigger → refuses sid ⟨w, e, a⟩) →
      (∀ sid, e ≠ .popJob sid) → Effect w e a w'

theorem effect_of_env (henv : scheduleEnv w e a w') : Effect w e a w' := by
  cases e with
  | setJob sid schedule =>
      obtain ⟨rfl, rfl⟩ := henv
      exact .setJob rfl fun _ => rfl
  | addJob sid trigger =>
      rcases henv with ⟨-, rfl⟩ | ⟨⟨x, rfl⟩, rfl⟩
      · exact .addJob rfl
      · refine .nothing rfl rfl (fun sid' trigger' he => ?_) (by simp)
        cases he
        simp [refuses]
  | removeJob sid =>
      simp only [scheduleEnv] at henv
      split at henv
      · obtain ⟨rfl, rfl⟩ := henv
        exact .removeJob rfl fun _ => rfl
      · exact henv.2 ▸ .nothing rfl rfl (by simp) (by simp)
  | popJob sid => exact henv.2 ▸ .popJob rfl
  | _ => exact henv.2 ▸ .nothing rfl rfl (by simp) (by simp)

-- ============================================================================
-- The invariant
-- ============================================================================

/-- The scheduler has refused the job, or some request is in between. -/
def Unstored (h : History ι World ScheduleOp.Ans (Thrown Exc)) (sid : String) : Prop :=
  (∃ entry ∈ h, refuses sid entry.2) ∨ ∃ i, phase h i = .listed sid ∨ phase h i = .removed sid

structure Consistent (h : History ι World ScheduleOp.Ans (Thrown Exc)) (w : World) : Prop where
  nodup : (w.jobs.map Prod.fst).Nodup
  stored : ∀ sid, (w.store sid).isSome → w.Listed sid
  unstored : ∀ sid, w.Listed sid → w.store sid = none → Unstored h sid
  listed : ∀ i sid, phase h i = .listed sid → w.Listed sid
  removed : ∀ i sid, phase h i = .removed sid → w.store sid = none
  fired : ∀ i sid, phase h i = .fired sid → w.Listed sid ∨ ∃ entry ∈ h, entry.2.op = .popJob sid

theorem Consistent.nodup_step (hI : Consistent h w) (hmove : Move h i w e a w') :
    (w'.jobs.map Prod.fst).Nodup := by
  rcases effect_of_env hmove.env with _ | _ | _ | _ | ⟨hjobs, -⟩
  · exact nodup_setJob hI.nodup
  · exact hI.nodup
  · exact hI.nodup
  · exact nodup_popJob hI.nodup
  · exact hjobs ▸ hI.nodup

theorem Consistent.stored_step (hI : Consistent h w) (hmove : Move h i w e a w') (sid : String)
    (hsid : (w'.store sid).isSome) : w'.Listed sid := by
  have hmay := hmove.may
  rcases effect_of_env hmove.env with
    _ | @⟨s, trigger, he⟩ | @⟨s, he, -⟩ | @⟨s, he⟩ | ⟨hjobs, hstore⟩
  · exact listed_setJob.mpr (.inr (hI.stored sid hsid))
  · subst he
    by_cases hs : sid = s
    · subst hs
      exact hI.listed i sid hmay
    · exact hI.stored sid (store_other hs ▸ hsid)
  · by_cases hs : sid = s
    · rw [hs, store_self] at hsid
      cases hsid
    · exact hI.stored sid (store_other hs ▸ hsid)
  · subst he
    have hnone : w.store s = none := hI.removed i s hmay
    have hne : sid ≠ s := by
      rintro rfl
      rw [show (w.popJob sid).store sid = w.store sid from rfl, hnone] at hsid
      cases hsid
    exact listed_popJob.mpr ⟨hne, hI.stored sid hsid⟩
  · unfold World.Listed
    rw [hjobs]
    exact hI.stored sid (hstore ▸ hsid)

/-- Why a job was not stored before still holds, but for the operation that is about it. -/
theorem Move.unstored (hmove : Move h i w e a w') (hold : Unstored h sid)
    (hadd : ∀ trigger, e ≠ .addJob sid trigger) (hpop : e ≠ .popJob sid) :
    Unstored ((i, ⟨w, e, a⟩) :: h) sid := by
  rcases hold with ⟨entry, hentry, hrefuses⟩ | ⟨j, hj | hj⟩
  · exact .inl ⟨entry, List.mem_cons_of_mem _ hentry, hrefuses⟩
  · obtain ⟨-, trigger, he⟩ := hmove.addJob_of_listed hj
    exact absurd he (hadd trigger)
  · exact absurd (hmove.popJob_of_removed hj).2 hpop

theorem Consistent.unstored_step (hI : Consistent h w) (hmove : Move h i w e a w')
    (sid : String) (hlisted : w'.Listed sid) (hnone : w'.store sid = none) :
    Unstored ((i, ⟨w, e, a⟩) :: h) sid := by
  have hown : phase ((i, ⟨w, e, a⟩) :: h) i = (phase h i).next e a := phase_self
  rcases effect_of_env hmove.env with
    @⟨s, schedule, he, hnext⟩ | @⟨s, trigger, he⟩ | @⟨s, he, hnext⟩ | @⟨s, he⟩ |
      ⟨hjobs, hstore, hrefuses, hpop⟩
  · rcases listed_setJob.mp hlisted with rfl | hlisted
    · exact .inr ⟨i, .inl (hown.trans (hnext _))⟩
    · exact hmove.unstored (hI.unstored sid hlisted hnone) (by simp [he]) (by simp [he])
  · have hs : sid ≠ s := by
      rintro rfl
      rw [store_self] at hnone
      cases hnone
    have hold := hI.unstored sid hlisted (store_other hs ▸ hnone)
    exact hmove.unstored hold (by simp [he, hs.symm]) (by simp [he])
  · by_cases hs : sid = s
    · exact .inr ⟨i, .inr (hown.trans (hs ▸ hnext _))⟩
    · have hold := hI.unstored sid hlisted (store_other hs ▸ hnone)
      exact hmove.unstored hold (by simp [he]) (by simp [he])
  · obtain ⟨hs, hlisted⟩ := listed_popJob.mp hlisted
    have hold := hI.unstored sid hlisted hnone
    exact hmove.unstored hold (by simp [he]) (by simp [he, hs.symm])
  · have hlisted' : w.Listed sid := by
      unfold World.Listed at hlisted ⊢
      exact hjobs ▸ hlisted
    have hold := hI.unstored sid hlisted' (hstore ▸ hnone)
    by_cases hadd : ∃ trigger, e = .addJob sid trigger
    · obtain ⟨trigger, he⟩ := hadd
      exact .inl ⟨_, List.mem_cons_self, hrefuses sid trigger he⟩
    · exact hmove.unstored hold (fun trigger he => hadd ⟨trigger, he⟩) (hpop sid)

theorem Consistent.listed_step (hmove : Move h i w e a w') (j : ι) (sid : String)
    (hj : phase ((i, ⟨w, e, a⟩) :: h) j = .listed sid) : w'.Listed sid := by
  by_cases hij : i = j
  · subst hij
    rw [phase_self] at hj
    obtain ⟨schedule, -, rfl⟩ := (next_pending hmove.may hmove.env).1 hj
    exact listed_setJob.mpr (.inl rfl)
  · have hbusy : (phase h j).busy := by
      rw [phase_other hij] at hj
      simp [hj, Phase.busy]
    exact absurd (hmove.alone j hbusy).symm hij

theorem Consistent.removed_step (hmove : Move h i w e a w') (j : ι) (sid : String)
    (hj : phase ((i, ⟨w, e, a⟩) :: h) j = .removed sid) : w'.store sid = none := by
  by_cases hij : i = j
  · subst hij
    rw [phase_self] at hj
    obtain ⟨-, rfl⟩ := (next_pending hmove.may hmove.env).2.1 hj
    exact store_self
  · have hbusy : (phase h j).busy := by
      rw [phase_other hij] at hj
      simp [hj, Phase.busy]
    exact absurd (hmove.alone j hbusy).symm hij

theorem Consistent.fired_step (hI : Consistent h w) (hmove : Move h i w e a w') (j : ι)
    (sid : String) (hj : phase ((i, ⟨w, e, a⟩) :: h) j = .fired sid) :
    w'.Listed sid ∨ ∃ entry ∈ (i, ⟨w, e, a⟩) :: h, entry.2.op = .popJob sid := by
  by_cases hij : i = j
  · subst hij
    rw [phase_self] at hj
    obtain ⟨-, hstored, rfl⟩ := (next_pending hmove.may hmove.env).2.2 hj
    exact .inl (hI.stored sid hstored)
  · rw [phase_other hij] at hj
    rcases hI.fired j sid hj with hlisted | ⟨entry, hentry, hpop⟩
    · rcases effect_of_env hmove.env with _ | _ | _ | @⟨s, he⟩ | ⟨hjobs, -⟩
      · exact .inl (listed_setJob.mpr (.inr hlisted))
      · exact .inl hlisted
      · exact .inl hlisted
      · by_cases hs : sid = s
        · exact .inr ⟨_, List.mem_cons_self, hs ▸ he⟩
        · exact .inl (listed_popJob.mpr ⟨hs, hlisted⟩)
      · unfold World.Listed at hlisted ⊢
        exact .inl (hjobs ▸ hlisted)
    · exact .inr ⟨entry, List.mem_cons_of_mem _ hentry, hpop⟩

theorem consistent_of_run (hrun : ScheduleRun calls h c) : Consistent h c.world := by
  refine invariant_of_moves hrun ?_ fun h i w e a w' hI hmove => ?_
  · exact ⟨List.nodup_nil, nofun, nofun, nofun, nofun, nofun⟩
  · exact ⟨hI.nodup_step hmove, hI.stored_step hmove, hI.unstored_step hmove,
      Consistent.listed_step hmove, Consistent.removed_step hmove, hI.fired_step hmove⟩

/-- At every moment `_jobs` has every job of the scheduler, and no id twice, and an execution
    finds its schedule unless it has been deleted.  Whenever the loop is free, what is in
    `_jobs` only is what `add_job` has refused. -/
theorem schedules_consistent (hrun : ScheduleRun calls h c) :
    (c.world.jobs.map Prod.fst).Nodup ∧
    (∀ sid, (c.world.store sid).isSome → c.world.Listed sid) ∧
    (c.running = none → ∀ sid, c.world.Listed sid → c.world.store sid = none →
      ∃ entry ∈ h, refuses sid entry.2) ∧
    ∀ i sid, phase h i = .fired sid → (∀ entry ∈ h, entry.2.op ≠ .popJob sid) →
      c.world.Listed sid := by
  have hI := consistent_of_run hrun
  refine ⟨hI.nodup, hI.stored, fun hfree sid hlisted hnone => ?_, fun i sid hfired hnever => ?_⟩
  · rcases hI.unstored sid hlisted hnone with hrefused | ⟨i, hpending⟩
    · exact hrefused
    · -- A request in between holds the loop.
      have hbusy : (phase h i).busy := by
        rcases hpending with hp | hp <;> simp [hp, Phase.busy]
      have hrunning := running_of_busy hrun hbusy
      rw [hfree] at hrunning
      cases hrunning
  · rcases hI.fired i sid hfired with hlisted | ⟨entry, hentry, hpop⟩
    · exact hlisted
    · exact absurd hpop (hnever entry hentry)

theorem schedules_consistent_nightly :
    ∃ h c, ScheduleRun exampleCalls h c ∧ c.running = none ∧ c.world.Listed "nightly" := by
  obtain ⟨h, c, hrun, hfree, hstored, -⟩ := exists_exhausted
  exact ⟨h, c, hrun, hfree, (schedules_consistent hrun).2.1 "nightly" hstored⟩

end Mtrader.Scheduler
