/-
  Mtrader.Coroutine.Tasks

  Tasks of an event loop: coroutines that others create, cancel and wait for.

  A task is cancelled at the operation it waits at, which then raises `cancelled`; a
  handler of exceptions does not catch that.  A task that is finished is not cancelled.
-/

import Mtrader.Coroutine.Interleave

namespace Coroutine

variable {E : Type} {A : E → Type} {W X Y R G κ ι : Type}

/-- What ends a coroutine before it returns. -/
inductive Thrown (X : Type)
  | cancelled
  | exception (x : X)
  deriving DecidableEq

/-- Somebody has answered, or raised an exception of their own. -/
def Answered (a : Except (Thrown X) R) : Prop :=
  (∃ r, a = .ok r) ∨ ∃ x, a = .error (.exception x)

/-- A coroutine that is there from the start, or task number `n`. -/
inductive Actor (κ : Type)
  | client (i : κ)
  | task (n : ℕ)
  deriving DecidableEq

-- ============================================================================
-- The tasks of a loop
-- ============================================================================

/-- The tasks, numbered as they are created. -/
structure Tasks where
  created : ℕ := 0
  finished : ℕ → Bool := fun _ => false
  /-- It has been cancelled. -/
  cancelled : ℕ → Bool := fun _ => false
  /-- Its cancellation has not reached it yet. -/
  cancelling : ℕ → Bool := fun _ => false

namespace Tasks

variable (t : Tasks)

def create : Tasks := { t with created := t.created + 1 }

def finish (n : ℕ) : Tasks := { t with finished := Function.update t.finished n true }

def Unfinished (n : ℕ) : Prop := n < t.created ∧ t.finished n = false

instance (n : ℕ) : Decidable (t.Unfinished n) := inferInstanceAs (Decidable (_ ∧ _))

def cancel (n : ℕ) : Tasks :=
  if t.Unfinished n then
    { t with
      cancelled := Function.update t.cancelled n true
      cancelling := Function.update t.cancelling n true }
  else t

/-- The cancellation has reached the task. -/
def deliver (n : ℕ) : Tasks := { t with cancelling := Function.update t.cancelling n false }

/-- Is the coroutine a task that is to be cancelled? -/
def interrupts : Actor κ → Bool
  | .client _ => false
  | .task n => n < t.created && t.cancelling n

/-- After a cancellation has reached the coroutine. -/
def interrupt : Actor κ → Tasks
  | .client _ => t
  | .task n => t.deliver n

variable {t}

theorem lt_of_interrupts {n : ℕ} (h : t.interrupts (.task n : Actor κ)) : n < t.created :=
  of_decide_eq_true (Bool.and_eq_true_iff.mp h).1

@[simp] theorem created_cancel {n : ℕ} : (t.cancel n).created = t.created := by
  unfold cancel
  split <;> rfl

@[simp] theorem finished_cancel {n : ℕ} : (t.cancel n).finished = t.finished := by
  unfold cancel
  split <;> rfl

theorem cancelled_cancel {n m : ℕ} :
    (t.cancel n).cancelled m ↔ t.cancelled m ∨ m = n ∧ t.Unfinished n := by
  unfold cancel
  split
  next hn =>
    show Function.update t.cancelled n true m = true ↔ _
    by_cases hm : m = n
    · rw [hm, Function.update_self]
      exact iff_of_true rfl (.inr ⟨rfl, hn⟩)
    · rw [Function.update_of_ne hm]
      exact (or_iff_left fun h => hm h.1).symm
  next hn => exact (or_iff_left fun h => hn h.2).symm

theorem cancelling_cancel {n m : ℕ} :
    (t.cancel n).cancelling m ↔ t.cancelling m ∨ m = n ∧ t.Unfinished n := by
  unfold cancel
  split
  next hn =>
    show Function.update t.cancelling n true m = true ↔ _
    by_cases hm : m = n
    · rw [hm, Function.update_self]
      exact iff_of_true rfl (.inr ⟨rfl, hn⟩)
    · rw [Function.update_of_ne hm]
      exact (or_iff_left fun h => hm h.1).symm
  next hn => exact (or_iff_left fun h => hn h.2).symm

theorem cancelling_of_deliver {n m : ℕ} (h : (t.deliver n).cancelling m) : t.cancelling m := by
  have hupdate : Function.update t.cancelling n false m = true := h
  by_cases hm : m = n
  · rw [hm, Function.update_self] at hupdate
    cases hupdate
  · rwa [Function.update_of_ne hm] at hupdate

/-- Only a task that there is has been cancelled, and only one that has been cancelled is to
    be told. -/
structure Sound (t : Tasks) : Prop where
  cancelled : ∀ n, t.cancelled n → n < t.created
  cancelling : ∀ n, t.cancelling n → t.cancelled n

theorem Sound.create (h : t.Sound) : t.create.Sound where
  cancelled n hn := Nat.lt_succ_of_lt (h.cancelled n hn)
  cancelling := h.cancelling

theorem Sound.finish (h : t.Sound) (n : ℕ) : (t.finish n).Sound := ⟨h.cancelled, h.cancelling⟩

theorem Sound.cancel (h : t.Sound) (n : ℕ) : (t.cancel n).Sound where
  cancelled m hm := by
    rw [created_cancel]
    rcases cancelled_cancel.mp hm with hm | ⟨rfl, hm⟩
    · exact h.cancelled m hm
    · exact hm.1
  cancelling m hm := by
    refine cancelled_cancel.mpr ?_
    exact (cancelling_cancel.mp hm).imp_left (h.cancelling m)

theorem Sound.deliver (h : t.Sound) (n : ℕ) : (t.deliver n).Sound where
  cancelled := h.cancelled
  cancelling m hm := h.cancelling m (cancelling_of_deliver hm)

/-- A task that is still to be created has not been cancelled. -/
theorem Sound.uncancelled (h : t.Sound) : t.cancelled t.created = false := by
  cases hcancelled : t.cancelled t.created with
  | false => rfl
  | true => exact absurd (h.cancelled _ hcancelled) (Nat.lt_irrefl _)

theorem unfinished_create {m : ℕ} :
    t.create.Unfinished m ↔ t.Unfinished m ∨ m = t.created ∧ t.finished m = false := by
  show m < t.created + 1 ∧ _ ↔ (m < t.created ∧ _) ∨ _
  rw [Nat.lt_succ_iff_lt_or_eq, or_and_right]
  exact Iff.rfl

theorem unfinished_finish {n m : ℕ} : (t.finish n).Unfinished m ↔ t.Unfinished m ∧ m ≠ n := by
  show m < t.created ∧ Function.update t.finished n true m = false ↔ (m < t.created ∧ _) ∧ _
  by_cases h : m = n
  · subst h
    rw [Function.update_self]
    exact iff_of_false (fun h => nomatch h.2) fun h => h.2 rfl
  · rw [Function.update_of_ne h]
    exact (and_iff_left h).symm

end Tasks

-- ============================================================================
-- Programs of tasks
-- ============================================================================

namespace Prog

/-- `try: p; except Exception: handler`. -/
def tryExcept (p : Prog A (Thrown X) R) (handler : X → Prog A (Thrown X) R) :
    Prog A (Thrown X) R := do
  match ← p.attempt with
  | .ok r => pure r
  | .error (.exception x) => handler x
  | .error .cancelled => Prog.raise .cancelled

theorem obeys_tryExcept {D : Discipline A (Thrown X) G} {Q : Except (Thrown X) R → G → Prop}
    {p : Prog A (Thrown X) R} {handler : X → Prog A (Thrown X) R} {g : G}
    (h : p.Obeys D (fun out g' => match out with
      | .error (.exception x) => (handler x).Obeys D Q g'
      | out => Q out g') g) : (p.tryExcept handler).Obeys D Q g := by
  unfold tryExcept
  rw [obeys_bind, obeys_attempt]
  refine h.mono fun out g' hout => ?_
  cases out with
  | ok r => exact hout
  | error thrown =>
      cases thrown with
      | cancelled => exact hout
      | exception x => exact hout

end Prog

-- ============================================================================
-- Between two suspensions
-- ============================================================================

/-- A coroutine that has begun and is not waiting holds the loop. -/
theorem Run.running_of_not_parked [DecidableEq ι] {suspends : E → Bool} {env : ι → Env W A X}
    {c₀ c : Config ι W A X R} {h : History ι W A X} (hrun : Run suspends env c₀ h c)
    (h₀ : ∀ i, (c₀.pool i).parked suspends) {i : ι} (hi : (c.pool i).parked suspends = false) :
    c.running = some i := by
  induction hrun with
  | nil =>
      rw [h₀ i] at hi
      cases hi
  | @cons h c c' j ev hr hs ih =>
      cases hs with
      | @mk e k a w' hmay hp henv =>
          by_cases hij : i = j
          · subst hij
            have hpool : (c.resume suspends i (k a) w').pool i = k a := Function.update_self ..
            rw [hpool] at hi
            show (if (k a).parked suspends then none else some i) = some i
            rw [hi]
            rfl
          · have hpool : (c.resume suspends j (k a) w').pool i = c.pool i :=
              Function.update_of_ne hij ..
            rw [hpool] at hi
            -- The loop was held by `i`, so `j` could not have been resumed.
            rw [ih hi] at hmay
            rcases hmay with hmay | hmay
            · cases hmay
            · exact absurd (Option.some.inj hmay) hij

/-- A coroutine that has begun and is not waiting holds the loop, whatever it begins with. -/
theorem Run.running_of_begun [DecidableEq ι] {suspends : E → Bool} {env : ι → Env W A X}
    {c₀ c : Config ι W A X R} {h : History ι W A X} (hrun : Run suspends env c₀ h c)
    {i : ι} {ev : Event W A X} (hev : (i, ev) ∈ h) (hi : (c.pool i).parked suspends = false) :
    c.running = some i := by
  induction hrun generalizing ev with
  | nil => cases hev
  | @cons h c c' j ev' hr hs ih =>
      cases hs with
      | @mk e k a w' hmay hp henv =>
          by_cases hij : i = j
          · subst hij
            have hpool : (c.resume suspends i (k a) w').pool i = k a := Function.update_self ..
            rw [hpool] at hi
            show (if (k a).parked suspends then none else some i) = some i
            rw [hi]
            rfl
          · have hpool : (c.resume suspends j (k a) w').pool i = c.pool i :=
              Function.update_of_ne hij ..
            rw [hpool] at hi
            have hold : (i, ev) ∈ h := by
              rcases List.mem_cons.mp hev with heq | hold
              · exact absurd (Prod.mk.inj heq).1 hij
              · exact hold
            -- The loop was held by `i`, so `j` could not have been resumed.
            rw [ih hold hi] at hmay
            rcases hmay with hmay | hmay
            · cases hmay
            · exact absurd (Option.some.inj hmay) hij

/-- A coroutine whose discipline lets it neither wait nor end holds the loop. -/
theorem Run.running_of_busy [DecidableEq ι] {suspends : E → Bool} {env : ι → Env W A X}
    {c₀ c : Config ι W A X R} {h : History ι W A X} {D : Discipline A X G} {g₀ : G}
    {Q : Except X R → G → Prop} (hrun : Run suspends env c₀ h c)
    (h₀ : ∀ i, (c₀.pool i).parked suspends) {i : ι} (hobeys : (c₀.pool i).Obeys D Q g₀)
    (busy : G → Prop) (hend : ∀ out g, Q out g → ¬ busy g)
    (hmay : ∀ g e, busy g → D.may g e → suspends e = false)
    (hbusy : busy (D.ghost g₀ i h)) : c.running = some i := by
  refine hrun.running_of_not_parked h₀ ?_
  have hnow := hrun.obeys hobeys
  cases hpool : c.pool i with
  | ret r =>
      rw [hpool] at hnow
      exact absurd hbusy (hend _ _ hnow)
  | raise x =>
      rw [hpool] at hnow
      exact absurd hbusy (hend _ _ hnow)
  | call e k =>
      rw [hpool] at hnow
      exact hmay _ _ hbusy hnow.1

end Coroutine
