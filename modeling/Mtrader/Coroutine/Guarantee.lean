/-
  Mtrader.Coroutine.Guarantee

  What a coroutine achieves while others change the world between its operations.

  A `Rely` bounds what the others may do.  `Secures` is the weakest precondition of
  one program under it, and `Run.secures` puts the programs of a pool together: if
  the steps of each stay within what the others rely on, each ends as it would have
  alone.  `Run.restrict` keeps facts about the steps of a run in its environment.
-/

import Mtrader.Coroutine.Interleave

namespace Coroutine

variable {E : Type} {A : E → Type} {W X R S ι : Type}

/-- What the world may become without the coroutine's doing. -/
structure Rely (W : Type) where
  rel : W → W → Prop
  refl : ∀ w, rel w w
  trans : ∀ {w₁ w₂ w₃}, rel w₁ w₂ → rel w₂ w₃ → rel w₁ w₃

/-- What the others leave true. -/
def Rely.Stable (rely : Rely W) (P : W → Prop) : Prop := ∀ w w', rely.rel w w' → P w → P w'

/-- What holds whatever the others do still. -/
theorem Rely.stable_later (rely : Rely W) (P : W → Prop) :
    rely.Stable fun w => ∀ w₁, rely.rel w w₁ → P w₁ :=
  fun _ _ hrel hP w₁ h₁ => hP w₁ (rely.trans hrel h₁)

/-- Whatever the others do within `rely`, the program ends in `Q`. -/
def Prog.Secures (env : Env W A X) (rely : Rely W) :
    Prog A X R → (Except X R → W → Prop) → W → Prop
  | .ret r, Q, w => ∀ w₁, rely.rel w w₁ → Q (.ok r) w₁
  | .raise x, Q, w => ∀ w₁, rely.rel w w₁ → Q (.error x) w₁
  | .call e k, Q, w => ∀ w₁, rely.rel w w₁ → ∀ a w₂, env w₁ e a w₂ → (k a).Secures env rely Q w₂

namespace Prog

variable {env : Env W A X} {rely : Rely W} {w : W}

/-- What the others do may have happened already. -/
theorem Secures.later {Q : Except X R → W → Prop} {p : Prog A X R} (h : p.Secures env rely Q w)
    {w₁ : W} (hrel : rely.rel w w₁) : p.Secures env rely Q w₁ := by
  cases p with
  | ret r => exact fun w₂ h₂ => h w₂ (rely.trans hrel h₂)
  | raise x => exact fun w₂ h₂ => h w₂ (rely.trans hrel h₂)
  | call e k => exact fun w₂ h₂ => h w₂ (rely.trans hrel h₂)

theorem Secures.mono {Q Q' : Except X R → W → Prop} {p : Prog A X R}
    (h : p.Secures env rely Q w) (hQ : ∀ out w, Q out w → Q' out w) :
    p.Secures env rely Q' w := by
  induction p generalizing w with
  | ret r => exact fun w₁ hrel => hQ _ _ (h w₁ hrel)
  | raise x => exact fun w₁ hrel => hQ _ _ (h w₁ hrel)
  | call e k ih => exact fun w₁ hrel a w₂ henv => ih a (h w₁ hrel a w₂ henv)

theorem secures_ret {P : W → Prop} {Q : Except X R → W → Prop} (hP : rely.Stable P) (hw : P w)
    {r : R} (hQ : ∀ w, P w → Q (.ok r) w) : (Prog.ret r : Prog A X R).Secures env rely Q w :=
  fun w₁ hrel => hQ w₁ (hP _ _ hrel hw)

theorem secures_raise {P : W → Prop} {Q : Except X R → W → Prop} (hP : rely.Stable P) (hw : P w)
    {x : X} (hQ : ∀ w, P w → Q (.error x) w) :
    (Prog.raise x : Prog A X R).Secures env rely Q w :=
  fun w₁ hrel => hQ w₁ (hP _ _ hrel hw)

/-- Sequencing; what the first part has secured stays true. -/
theorem Secures.bind {P : Except X R → W → Prop} {Q : Except X S → W → Prop} {p : Prog A X R}
    {f : R → Prog A X S} (hp : p.Secures env rely P w)
    (hok : ∀ r w, (∀ w₁, rely.rel w w₁ → P (.ok r) w₁) → (f r).Secures env rely Q w)
    (herr : ∀ x w, P (.error x) w → Q (.error x) w) : (p >>= f).Secures env rely Q w := by
  induction p generalizing w with
  | ret r => exact hok r w hp
  | raise x => exact fun w₁ hrel => herr x w₁ (hp w₁ hrel)
  | call e k ih => exact fun w₁ hrel a w₂ henv => ih a (hp w₁ hrel a w₂ henv)

/-- Sequencing through an intermediate assertion. -/
theorem Secures.seq {P : Except X R → W → Prop} {Q : Except X S → W → Prop} {p : Prog A X R}
    {f : R → Prog A X S} (hp : p.Secures env rely P w)
    (hok : ∀ r w, P (.ok r) w → (f r).Secures env rely Q w)
    (herr : ∀ x w, P (.error x) w → Q (.error x) w) : (p >>= f).Secures env rely Q w :=
  hp.bind (fun r w h => hok r w (h w (rely.refl w))) herr

theorem Secures.attempt {Q : Except X (Except X R) → W → Prop} {p : Prog A X R}
    (h : p.Secures env rely (fun out => Q (.ok out)) w) : p.attempt.Secures env rely Q w := by
  induction p generalizing w with
  | ret r => exact h
  | raise x => exact h
  | call e k ih => exact fun w₁ hrel a w₂ henv => ih a (h w₁ hrel a w₂ henv)

/-- The body of a `try` and then the rest of the program. -/
theorem Secures.attempt_bind {P : Except X R → W → Prop} {Q : Except X S → W → Prop}
    {p : Prog A X R} {f : Except X R → Prog A X S} (hp : p.Secures env rely P w)
    (hf : ∀ out w, (∀ w₁, rely.rel w w₁ → P out w₁) → (f out).Secures env rely Q w) :
    (p.attempt >>= f).Secures env rely Q w := by
  have hdone : p.attempt.Secures env rely
      (fun done w => match done with
        | .ok out => P out w
        | .error _ => False) w := Secures.attempt hp
  exact hdone.bind hf fun _ _ h => h.elim

/-- The cleanup comes after the program, and its exception is the outcome. -/
theorem Secures.andFinally {P Q : Except X R → W → Prop} {p : Prog A X R} {fin : Prog A X Unit}
    (hp : p.Secures env rely P w)
    (hfin : ∀ out w, P out w → fin.Secures env rely
      (fun done w => match done with
        | .ok _ => Q out w
        | .error x => Q (.error x) w) w) : (p.andFinally fin).Secures env rely Q w := by
  refine hp.attempt_bind fun out w h => ?_
  refine (hfin out w (h w (rely.refl w))).bind (fun _ w hstable => ?_) fun x w hQ => hQ
  cases out with
  | ok r => exact hstable
  | error x => exact hstable

/-- One operation. -/
theorem secures_op {P : W → Prop} {Q : Except X (A e) → W → Prop} (hP : rely.Stable P) (hw : P w)
    (hQ : ∀ w a w', P w → env w e a w' → ∀ w₁, rely.rel w' w₁ → Q a w₁) :
    (op e : Prog A X (A e)).Secures env rely Q w := by
  intro w₁ hrel a w₂ henv
  have hdone := hQ w₁ a w₂ (hP _ _ hrel hw) henv
  cases a with
  | ok r => exact hdone
  | error x => exact hdone

/-- One operation and then the rest of the program. -/
theorem secures_op_bind {P : W → Prop} {Q : Except X R → W → Prop} {f : A e → Prog A X R}
    (hP : rely.Stable P) (hw : P w)
    (hok : ∀ w r w', P w → env w e (.ok r) w' → (f r).Secures env rely Q w')
    (herr : ∀ w x w', P w → env w e (.error x) w' →
      (Prog.raise x : Prog A X R).Secures env rely Q w') :
    (op e >>= f).Secures env rely Q w := by
  intro w₁ hrel a w₂ henv
  cases a with
  | ok r => exact hok w₁ r w₂ (hP _ _ hrel hw) henv
  | error x => exact herr w₁ x w₂ (hP _ _ hrel hw) henv

end Prog

-- ============================================================================
-- Runs
-- ============================================================================

section

variable [DecidableEq ι] {suspends : E → Bool} {env : ι → Env W A X} {c₀ c : Config ι W A X R}
variable {h : History ι W A X}

/-- What every operation keeps holds in every world of a run. -/
theorem Run.keeps {I : W → Prop} (hrun : Run suspends env c₀ h c) (h₀ : I c₀.world)
    (hstep : ∀ i w e a w', I w → env i w e a w' → I w') :
    I c.world ∧ ∀ entry ∈ h, I entry.2.pre := by
  have hall := (hrun.stays_iff (P := fun _ => True) h₀ fun i w e a w' hI henv =>
    iff_of_true (hstep i w e a w' hI henv) trivial).mpr fun _ _ => trivial
  exact ⟨hall _ List.mem_cons_self, fun entry hentry =>
    hall _ (List.mem_cons_of_mem _ (List.mem_map_of_mem hentry))⟩

/-- A run whose steps all meet a condition is one of the environment that imposes it. -/
theorem Run.restrict {P : ι → Event W A X → Prop} (hrun : Run suspends env c₀ h c)
    (hP : ∀ entry ∈ h, P entry.1 entry.2) :
    Run suspends (fun i w e a w' => env i w e a w' ∧ P i ⟨w, e, a⟩) c₀ h c := by
  induction hrun with
  | nil => exact .nil
  | cons hr hs ih =>
      have hlast := hP _ List.mem_cons_self
      refine .cons (ih fun entry hentry => hP entry (List.mem_cons_of_mem _ hentry)) ?_
      cases hs with
      | mk hmay hp henv => exact .mk hmay hp ⟨henv, hlast⟩

/-- If the steps of each coroutine stay within what the others rely on, each ends as
    it would have without them. -/
theorem Run.secures {rely : ι → Rely W} {Q : ι → Except X R → W → Prop}
    (hrun : Run suspends env c₀ h c)
    (hstep : ∀ i j w e a w', j ≠ i → env j w e a w' → (rely i).rel w w')
    (h₀ : ∀ i, (c₀.pool i).Secures (env i) (rely i) (Q i) c₀.world) (i : ι) :
    (c.pool i).Secures (env i) (rely i) (Q i) c.world := by
  induction hrun with
  | nil => exact h₀ i
  | @cons h c c' j ev hr hs ih =>
      cases hs with
      | @mk e k a w' hmay hp henv =>
          show (Function.update c.pool j (k a) i).Secures (env i) (rely i) (Q i) w'
          by_cases hij : j = i
          · subst hij
            rw [hp] at ih
            rw [Function.update_self]
            exact ih c.world ((rely j).refl _) a w' henv
          · rw [Function.update_of_ne (Ne.symm hij)]
            exact ih.later (hstep i j _ e a w' hij henv)

/-- What a coroutine has secured when it has returned. -/
theorem Run.secures_ret {rely : ι → Rely W} {Q : ι → Except X R → W → Prop}
    (hrun : Run suspends env c₀ h c)
    (hstep : ∀ i j w e a w', j ≠ i → env j w e a w' → (rely i).rel w w')
    (h₀ : ∀ i, (c₀.pool i).Secures (env i) (rely i) (Q i) c₀.world) {i : ι} {r : R}
    (hret : c.pool i = .ret r) : Q i (.ok r) c.world := by
  have hsecures := hrun.secures hstep h₀ i
  rw [hret] at hsecures
  exact hsecures c.world ((rely i).refl _)

/-- What a coroutine has secured when it has raised. -/
theorem Run.secures_raise {rely : ι → Rely W} {Q : ι → Except X R → W → Prop}
    (hrun : Run suspends env c₀ h c)
    (hstep : ∀ i j w e a w', j ≠ i → env j w e a w' → (rely i).rel w w')
    (h₀ : ∀ i, (c₀.pool i).Secures (env i) (rely i) (Q i) c₀.world) {i : ι} {x : X}
    (hraise : c.pool i = .raise x) : Q i (.error x) c.world := by
  have hsecures := hrun.secures hstep h₀ i
  rw [hraise] at hsecures
  exact hsecures c.world ((rely i).refl _)

end

end Coroutine
