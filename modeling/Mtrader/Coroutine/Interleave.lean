/-
  Mtrader.Coroutine.Interleave

  Many coroutines on one event loop.

  A `Config` is a world, a pool of programs and the coroutine that holds the
  loop, if any.  A coroutine keeps the loop until its next operation suspends
  (`suspends e`, an `await` that really waits) or it ends; then any coroutine
  may be resumed.  With `suspends := fun _ => true` every operation is a step of
  its own, the finest interleaving.

  `Run.obeys` carries a discipline (Discipline.lean) to every interleaving: each
  coroutine keeps its own whatever the others do.
-/

import Mtrader.Coroutine.Discipline
import Mathlib.Logic.Function.Basic
import Mathlib.Data.List.Infix

namespace Coroutine

variable {E : Type} {A : E → Type} {W X R S G ι : Type}

/-- The state of an event loop with the coroutines `pool`. -/
structure Config (ι W : Type) {E : Type} (A : E → Type) (X R : Type) where
  world : W
  pool : ι → Prog A X R
  running : Option ι := none

/-- The coroutine has ended, or its next operation suspends it. -/
def Prog.parked (suspends : E → Bool) : Prog A X R → Bool
  | .call e _ => suspends e
  | .ret _ => true
  | .raise _ => true

/-- The configuration after coroutine `i` was answered and continues as `p`. -/
def Config.resume [DecidableEq ι] (suspends : E → Bool) (c : Config ι W A X R) (i : ι)
    (p : Prog A X R) (w' : W) : Config ι W A X R where
  world := w'
  pool := Function.update c.pool i p
  running := if p.parked suspends then none else some i

variable [DecidableEq ι]

/-- One step: a coroutine that may run performs its next operation. -/
inductive Step (suspends : E → Bool) (env : ι → Env W A X) :
    Config ι W A X R → ι → Event W A X → Config ι W A X R → Prop
  | mk {c : Config ι W A X R} {i : ι} {e : E} {k : Except X (A e) → Prog A X R}
      {a : Except X (A e)} {w' : W} :
      (c.running = none ∨ c.running = some i) → c.pool i = .call e k →
      env i c.world e a w' →
      Step suspends env c i ⟨c.world, e, a⟩ (c.resume suspends i (k a) w')

/-- What has happened, newest first: who performed which operation. -/
abbrev History (ι W : Type) {E : Type} (A : E → Type) (X : Type) : Type :=
  List (ι × Event W A X)

/-- An interleaved run from `c₀`. -/
inductive Run (suspends : E → Bool) (env : ι → Env W A X) (c₀ : Config ι W A X R) :
    History ι W A X → Config ι W A X R → Prop
  | nil : Run suspends env c₀ [] c₀
  | cons {h : History ι W A X} {c c' : Config ι W A X R} {i : ι} {ev : Event W A X} :
      Run suspends env c₀ h c → Step suspends env c i ev c' →
      Run suspends env c₀ ((i, ev) :: h) c'

variable {suspends : E → Bool} {env : ι → Env W A X} {c₀ c c' : Config ι W A X R}
variable {h h' : History ι W A X}

/-- The worlds of a run, newest first. -/
def Config.worlds (c : Config ι W A X R) (h : History ι W A X) : List W :=
  c.world :: h.map fun entry => entry.2.pre

-- ============================================================================
-- Invariants of runs
-- ============================================================================

/-- Each operation of a run was performed from a configuration that the older
    operations reach. -/
theorem Run.entry (hrun : Run suspends env c₀ h c) {i : ι} {ev : Event W A X}
    (hsuf : (i, ev) :: h' <:+ h) :
    ∃ c₁ c₂, Run suspends env c₀ h' c₁ ∧ Step suspends env c₁ i ev c₂ := by
  induction hrun with
  | nil => exact absurd hsuf (by simp)
  | cons hr hs ih =>
      rcases List.suffix_cons_iff.mp hsuf with heq | hsuf
      · cases heq
        exact ⟨_, _, hr, hs⟩
      · exact ih hsuf

/-- A property of configurations and histories that every step keeps, in a run that
    is only known to meet a condition on each of its steps. -/
theorem Run.invariant_of_steps {I : History ι W A X → Config ι W A X R → Prop}
    {P : History ι W A X → Config ι W A X R → ι → Event W A X → Prop}
    (hrun : Run suspends env c₀ h c)
    (hP : ∀ h' c₁ c₂ i ev, (i, ev) :: h' <:+ h → Run suspends env c₀ h' c₁ →
      Step suspends env c₁ i ev c₂ → P h' c₁ i ev)
    (h₀ : I [] c₀)
    (hstep : ∀ h c i ev c', Run suspends env c₀ h c → I h c → P h c i ev →
      Step suspends env c i ev c' → I ((i, ev) :: h) c') : I h c := by
  induction hrun with
  | nil => exact h₀
  | cons hr hs ih =>
      have hI := ih fun h' c₁ c₂ i ev hsuf => hP h' c₁ c₂ i ev (hsuf.trans (List.suffix_cons _ _))
      exact hstep _ _ _ _ _ hr hI (hP _ _ _ _ _ List.suffix_rfl hr hs) hs

/-- If from a world in `I` an operation leads into `I` exactly when it meets `P`, then a
    run stays in `I` exactly when all its operations meet `P`. -/
theorem Run.stays_iff {I : W → Prop} {P : Event W A X → Prop}
    (hrun : Run suspends env c₀ h c) (h₀ : I c₀.world)
    (hstep : ∀ i w e a w', I w → env i w e a w' → (I w' ↔ P ⟨w, e, a⟩)) :
    (∀ w ∈ c.worlds h, I w) ↔ ∀ entry ∈ h, P entry.2 := by
  induction hrun with
  | nil =>
      refine iff_of_true (fun w hw => ?_) fun _ hentry => nomatch hentry
      rw [List.mem_singleton.mp hw]
      exact h₀
  | @cons h c c' i ev hr hs ih =>
      cases hs with
      | @mk e k a w' _ hp henv =>
          -- The worlds so far are those of the shorter run and the one it leads to.
          have hworlds : (∀ w ∈ w' :: c.worlds h, I w) ↔ I w' ∧ ∀ w ∈ c.worlds h, I w :=
            List.forall_mem_cons
          refine hworlds.trans (Iff.trans ?_ List.forall_mem_cons.symm)
          refine (and_congr_right' ih).trans (and_congr_left fun hall => ?_)
          exact hstep i _ e a w' (ih.mpr hall _ List.mem_cons_self) henv

theorem Step.pre_eq {i : ι} {ev : Event W A X} (hs : Step suspends env c i ev c') :
    ev.pre = c.world := by
  cases hs with
  | mk => rfl

/-- Nobody else goes on while a coroutine holds the loop. -/
theorem Step.eq_of_running {i j : ι} {ev : Event W A X} (hs : Step suspends env c i ev c')
    (hrunning : c.running = some j) : i = j := by
  cases hs with
  | mk hmay =>
      rw [hrunning] at hmay
      rcases hmay with hmay | hmay
      · cases hmay
      · exact (Option.some.inj hmay).symm

-- ============================================================================
-- Disciplines of coroutines
-- ============================================================================

variable {D : Discipline A X G} {g₀ : G} {Q : Except X R → G → Prop}

/-- The summary of coroutine `i`'s own part of a history. -/
def Discipline.ghost (D : Discipline A X G) (g₀ : G) (i : ι) : History ι W A X → G
  | [] => g₀
  | (j, ev) :: h => if j = i then D.next (D.ghost g₀ i h) ev.op ev.ans else D.ghost g₀ i h

@[simp] theorem Discipline.ghost_self {i : ι} {ev : Event W A X} :
    D.ghost g₀ i ((i, ev) :: h) = D.next (D.ghost g₀ i h) ev.op ev.ans := if_pos rfl

theorem Discipline.ghost_other {i j : ι} {ev : Event W A X} (hne : j ≠ i) :
    D.ghost g₀ i ((j, ev) :: h) = D.ghost g₀ i h := if_neg hne

/-- In every interleaving a coroutine still obeys its discipline, from the summary
    of what it has done itself. -/
theorem Run.obeys (hrun : Run suspends env c₀ h c) {i : ι}
    (h₀ : (c₀.pool i).Obeys D Q g₀) : (c.pool i).Obeys D Q (D.ghost g₀ i h) := by
  induction hrun with
  | nil => exact h₀
  | @cons h c c' j ev hr hs ih =>
      cases hs with
      | @mk e k a w' _ hp _ =>
          by_cases hij : i = j
          · subst hij
            rw [hp] at ih
            simpa [Config.resume] using ih.2 a
          · rw [Discipline.ghost_other (Ne.symm hij)]
            simpa [Config.resume, Function.update_of_ne hij] using ih

/-- Each operation of a run was one its coroutine's discipline allowed. -/
theorem Run.may (hrun : Run suspends env c₀ h c) {i : ι} {ev : Event W A X}
    (h₀ : (c₀.pool i).Obeys D Q g₀) (hsuf : (i, ev) :: h' <:+ h) :
    D.may (D.ghost g₀ i h') ev.op := by
  obtain ⟨c₁, c₂, hr, hs⟩ := hrun.entry hsuf
  cases hs with
  | mk _ hp _ =>
      have hob := hr.obeys h₀
      rw [hp] at hob
      exact hob.1

/-- What a coroutine does next, if it does anything, is what its discipline allows. -/
theorem Run.next_may {newer older : History ι W A X} {i : ι}
    (hrun : Run suspends env c₀ (newer ++ older) c) (h₀ : (c₀.pool i).Obeys D Q g₀) :
    (∀ ev, (i, ev) ∉ newer) ∨
      ∃ ev, (i, ev) ∈ newer ∧ D.may (D.ghost g₀ i older) ev.op := by
  -- It has not done anything, so that its summary is the one it had.
  suffices h : (∀ ev, (i, ev) ∉ newer) ∧ D.ghost g₀ i (newer ++ older) = D.ghost g₀ i older ∨
      ∃ ev, (i, ev) ∈ newer ∧ D.may (D.ghost g₀ i older) ev.op from h.imp_left And.left
  induction newer generalizing c with
  | nil => exact .inl ⟨fun _ => List.not_mem_nil, rfl⟩
  | cons entry newer ih =>
      obtain ⟨j, ev⟩ := entry
      have hmay : j = i → D.may (D.ghost g₀ i (newer ++ older)) ev.op := by
        rintro rfl
        exact hrun.may h₀ List.suffix_rfl
      cases hrun with
      | cons hr hs =>
          rcases ih hr with ⟨hnone, hghost⟩ | ⟨ev', hmem, hop⟩
          · by_cases hij : j = i
            · subst hij
              rw [← hghost]
              exact .inr ⟨ev, List.mem_cons_self, hmay rfl⟩
            · refine .inl ⟨fun ev' hmem => ?_, ?_⟩
              · rcases List.mem_cons.mp hmem with heq | hmem
                · exact hij (Prod.mk.inj heq).1.symm
                · exact hnone ev' hmem
              · rw [List.cons_append, Discipline.ghost_other hij, hghost]
          · exact .inr ⟨ev', List.mem_cons_of_mem _ hmem, hop⟩

/-- The summaries after one more operation. -/
theorem Discipline.ghost_cons (D : Discipline A X G) (g₀ : G) (i : ι) (ev : Event W A X)
    (h : History ι W A X) :
    (fun j => D.ghost g₀ j ((i, ev) :: h)) =
      Function.update (fun j => D.ghost g₀ j h) i (D.next (D.ghost g₀ i h) ev.op ev.ans) := by
  funext j
  by_cases hij : i = j
  · subst hij
    rw [Discipline.ghost_self, Function.update_self]
  · rw [Discipline.ghost_other hij, Function.update_of_ne (Ne.symm hij)]

-- ============================================================================
-- Running a schedule
-- ============================================================================

/-- A functional environment: the answer and the next world, `none` to block. -/
abbrev Handler (W : Type) {E : Type} (A : E → Type) (X : Type) : Type :=
  W → (e : E) → Option (Except X (A e) × W)

/-- Let coroutine `i` perform its next operation. -/
def Config.step (suspends : E → Bool) (handler : ι → Handler W A X) (c : Config ι W A X R)
    (i : ι) : Option (Event W A X × Config ι W A X R) :=
  match c.pool i with
  | .call e k =>
      if c.running = none ∨ c.running = some i then
        (handler i c.world e).map fun (a, w') =>
          (⟨c.world, e, a⟩, c.resume suspends i (k a) w')
      else none
  | _ => none

/-- Follow a schedule, oldest first; `none` if a step of it is not possible. -/
def Config.follow (suspends : E → Bool) (handler : ι → Handler W A X) :
    List ι → History ι W A X × Config ι W A X R →
      Option (History ι W A X × Config ι W A X R)
  | [], hc => some hc
  | i :: is, (h, c) =>
      match c.step suspends handler i with
      | some (ev, c') => Config.follow suspends handler is ((i, ev) :: h, c')
      | none => none

theorem Config.step_sound {handler : ι → Handler W A X} {i : ι} {ev : Event W A X}
    (hh : ∀ i w e a w', handler i w e = some (a, w') → env i w e a w')
    (hs : c.step suspends handler i = some (ev, c')) : Step suspends env c i ev c' := by
  unfold Config.step at hs
  split at hs
  next e k hp =>
    split at hs
    next hrun =>
      obtain ⟨⟨a, w'⟩, ha, heq⟩ := Option.map_eq_some_iff.mp hs
      cases heq
      exact .mk hrun hp (hh _ _ _ _ _ ha)
    next => cases hs
  next => cases hs

/-- A schedule that can be followed is a run. -/
theorem Config.follow_sound {handler : ι → Handler W A X}
    (hh : ∀ i w e a w', handler i w e = some (a, w') → env i w e a w')
    {is : List ι} (hr : Run suspends env c₀ h c)
    (hf : Config.follow suspends handler is (h, c) = some (h', c')) :
    Run suspends env c₀ h' c' := by
  induction is generalizing h c with
  | nil =>
      cases hf
      exact hr
  | cons i is ih =>
      unfold Config.follow at hf
      split at hf
      next ev c₁ hs => exact ih (.cons hr (Config.step_sound hh hs)) hf
      next => cases hf

/-- A schedule whose outcome passes a check shows that there is such a run. -/
theorem Config.exists_run {handler : ι → Handler W A X}
    (hh : ∀ i w e a w', handler i w e = some (a, w') → env i w e a w') (is : List ι)
    (check : History ι W A X → Config ι W A X R → Prop) [∀ h c, Decidable (check h c)]
    (hf : (Config.follow suspends handler is ([], c₀)).any fun hc => check hc.1 hc.2) :
    ∃ h c, Run suspends env c₀ h c ∧ check h c := by
  obtain ⟨⟨h, c⟩, hrun, hcheck⟩ := (Option.any_eq_true _ _).mp hf
  exact ⟨h, c, Config.follow_sound hh .nil hrun, of_decide_eq_true hcheck⟩

end Coroutine
