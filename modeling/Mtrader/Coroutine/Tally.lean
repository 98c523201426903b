/-
  Mtrader.Coroutine.Tally

  Counting the operations of a history.

  `tally P i h` is how many operations in `P` are coroutine `i`'s.  Where only the members
  of a finite set perform any, and each at most `n`, the history has at most as many as the
  set has members, times `n`.
-/

import Mtrader.Coroutine.Interleave
import Mathlib.Algebra.Order.BigOperators.Group.Finset
import Mathlib.Algebra.BigOperators.Group.Finset.Piecewise
import Mathlib.Algebra.Order.Ring.Nat

namespace Coroutine

variable {E : Type} {A : E → Type} {W X R G ι : Type} [DecidableEq ι]
variable {P : Event W A X → Bool} {h : History ι W A X} {i : ι}

/-- How many operations of coroutine `i` are in `P`. -/
def tally (P : Event W A X → Bool) (i : ι) (h : History ι W A X) : ℕ :=
  h.countP fun entry => entry.1 = i && P entry.2

theorem tally_cons {j : ι} {ev : Event W A X} :
    tally P i ((j, ev) :: h) = tally P i h + if j = i ∧ P ev then 1 else 0 := by
  simp [tally, List.countP_cons]

theorem tally_other {j : ι} {ev : Event W A X} (hne : j ≠ i) :
    tally P i ((j, ev) :: h) = tally P i h := by
  simp [tally_cons, hne]

/-- The coroutines that have performed an operation in `P`. -/
def performers (P : Event W A X → Bool) (h : History ι W A X) : Finset ι :=
  ((h.filter fun entry => P entry.2).map Prod.fst).toFinset

variable {suspends : E → Bool} {env : ι → Env W A X} {c₀ c : Config ι W A X R}
variable {D : Discipline A X G} {Q : Except X R → G → Prop} {g₀ : G}

/-- A property of the summary that every allowed operation keeps. -/
theorem Run.ghost_invariant {I : G → Prop} (hrun : Run suspends env c₀ h c)
    (hobeys : (c₀.pool i).Obeys D Q g₀) (h₀ : I g₀)
    (hI : ∀ g e a, I g → D.may g e → I (D.next g e a)) : I (D.ghost g₀ i h) := by
  induction hrun with
  | nil => exact h₀
  | @cons h c c' j ev hr hs ih =>
      by_cases hij : j = i
      · subst hij
        rw [Discipline.ghost_self]
        exact hI _ _ _ ih ((Run.cons hr hs).may hobeys List.suffix_rfl)
      · rw [Discipline.ghost_other hij]
        exact ih

/-- The summary counts the operations in `P`. -/
theorem tally_eq_ghost (count : G → ℕ) (h₀ : count g₀ = 0)
    (hnext : ∀ (g : G) (w : W) e a,
      count (D.next g e a) = count g + if P ⟨w, e, a⟩ then 1 else 0)
    (i : ι) (h : History ι W A X) : tally P i h = count (D.ghost g₀ i h) := by
  induction h with
  | nil => exact h₀.symm
  | cons entry h ih =>
      obtain ⟨j, ev⟩ := entry
      by_cases hij : j = i
      · subst hij
        rw [Discipline.ghost_self, hnext _ ev.pre, tally_cons, ih]
        simp
      · rw [Discipline.ghost_other hij, tally_other hij, ih]

-- ============================================================================
-- What a summary remembers
-- ============================================================================

theorem ghost_of_idle (hidle : ∀ ev, (i, ev) ∉ h) : D.ghost g₀ i h = g₀ := by
  induction h with
  | nil => rfl
  | cons entry h ih =>
      obtain ⟨j, ev⟩ := entry
      have hne : j ≠ i := by
        rintro rfl
        exact hidle ev List.mem_cons_self
      rw [Discipline.ghost_other hne]
      exact ih fun ev hev => hidle ev (List.mem_cons_of_mem _ hev)

/-- A summary comes to be in `S` by an operation in `B` only. -/
theorem exists_event_of_ghost {S : G → Prop} {B : Event W A X → Prop} (h₀ : ¬ S g₀)
    (hnext : ∀ g w e a, S (D.next g e a) → B ⟨w, e, a⟩ ∨ S g) (hS : S (D.ghost g₀ i h)) :
    ∃ ev h', (i, ev) :: h' <:+ h ∧ B ev := by
  induction h with
  | nil => exact absurd hS h₀
  | cons entry h ih =>
      obtain ⟨j, ev⟩ := entry
      have hold : S (D.ghost g₀ i h) → ∃ ev' h', (i, ev') :: h' <:+ (j, ev) :: h ∧ B ev' := by
        intro hS
        obtain ⟨ev', h', hsuffix, hB⟩ := ih hS
        exact ⟨ev', h', hsuffix.trans (List.suffix_cons _ _), hB⟩
      by_cases hij : j = i
      · subst hij
        rw [Discipline.ghost_self] at hS
        rcases hnext _ ev.pre _ _ hS with hB | hS
        · exact ⟨ev, h, List.suffix_rfl, hB⟩
        · exact hold hS
      · rw [Discipline.ghost_other hij] at hS
        exact hold hS

section

variable {α : Type} {f : G → Option α} {g : (e : E) → Except X (A e) → Option α}

/-- What the summary remembers of the newest operation that `g` has read something off. -/
theorem exists_of_ghost (h₀ : f g₀ = none)
    (hnext : ∀ p e a, f (D.next p e a) = (g e a).or (f p)) {x : α}
    (hx : f (D.ghost g₀ i h) = some x) :
    ∃ ev h', (i, ev) :: h' <:+ h ∧ g ev.op ev.ans = some x := by
  refine exists_event_of_ghost (S := fun p => f p = some x)
    (B := fun ev => g ev.op ev.ans = some x) ?_ (fun p w e a hp => ?_) hx
  · rw [h₀]
    exact Option.some_ne_none x ∘ Eq.symm
  · rw [hnext, Option.or_eq_some_iff] at hp
    exact hp.imp_right And.right

theorem ghost_isSome_of_mem (hnext : ∀ p e a, f (D.next p e a) = (g e a).or (f p))
    {ev : Event W A X} (hev : (i, ev) ∈ h) (hg : (g ev.op ev.ans).isSome) :
    (f (D.ghost g₀ i h)).isSome := by
  induction h with
  | nil => cases hev
  | cons entry h ih =>
      obtain ⟨j, ev'⟩ := entry
      by_cases hij : j = i
      · subst hij
        rw [Discipline.ghost_self, hnext, Option.isSome_or, Bool.or_eq_true]
        rcases List.mem_cons.mp hev with heq | hev
        · cases heq
          exact .inl hg
        · exact .inr (ih hev)
      · rw [Discipline.ghost_other hij]
        rcases List.mem_cons.mp hev with heq | hev
        · exact absurd (Prod.mk.inj heq).1.symm hij
        · exact ih hev

end

end Coroutine
