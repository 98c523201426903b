/-
  Mtrader.Coroutine.Program

  Programs that call their environment: a finite tree whose nodes are the
  operations of a signature `A : E → Type` (`A e` is what `e` answers with).
  Every answer is an `Except X (A e)`, since a collaborator may raise instead
  of returning; `attempt` is the body of a `try`, and `link` replaces each
  operation by the program that implements it.

  Nothing here depends on who the collaborators are.  `Exec` (Exec.lean) runs a
  program against an environment, `Run` (Interleave.lean) runs many of them at
  once.
-/

import Mathlib.Logic.Basic

namespace Coroutine

variable {E E' E'' : Type} {A : E → Type} {A' : E' → Type} {A'' : E'' → Type}
variable {X R S T : Type}

/-- A program over the operations `A` that returns an `R` or raises an `X`. -/
inductive Prog {E : Type} (A : E → Type) (X R : Type) : Type
  | ret (r : R)
  | raise (x : X)
  | call (e : E) (k : Except X (A e) → Prog A X R)

namespace Prog

/-- Sequencing; an exception skips the continuation. -/
def bind : Prog A X R → (R → Prog A X S) → Prog A X S
  | .ret r, f => f r
  | .raise x, _ => .raise x
  | .call e k, f => .call e fun a => (k a).bind f

instance : Monad (Prog A X) where
  pure := .ret
  bind := bind

/-- A value that may already be an exception. -/
def ofExcept : Except X R → Prog A X R
  | .ok r => .ret r
  | .error x => .raise x

/-- Call one operation; what it raises is raised here. -/
def op (e : E) : Prog A X (A e) := .call e ofExcept

/-- The body of a `try`: an exception becomes a value. -/
def attempt : Prog A X R → Prog A X (Except X R)
  | .ret r => .ret (.ok r)
  | .raise x => .ret (.error x)
  | .call e k => .call e fun a => (k a).attempt

/-- `try: p; finally: fin`. -/
def andFinally (p : Prog A X R) (fin : Prog A X Unit) : Prog A X R := do
  let out ← p.attempt
  fin
  ofExcept out

/-- `try: p; except: handler`. -/
def handle (p : Prog A X R) (handler : X → Prog A X R) : Prog A X R := do
  match ← p.attempt with
  | .ok r => pure r
  | .error x => handler x

/-- Replace every operation by the program that implements it. -/
def link (f : (e : E) → Prog A' X (A e)) : Prog A X R → Prog A' X R
  | .ret r => .ret r
  | .raise x => .raise x
  | .call e k => (f e).attempt.bind fun a => (k a).link f

-- ============================================================================
-- Two signatures
-- ============================================================================

/-- The operations of two signatures. -/
@[reducible] def SumAns (A : E → Type) (A' : E' → Type) : E ⊕ E' → Type
  | .inl e => A e
  | .inr e => A' e

/-- Call one operation of the first of two signatures. -/
def opInl (e : E) : Prog (SumAns A A') X (A e) := .call (.inl e) ofExcept

/-- A program over the first of two signatures. -/
def inl : Prog A X R → Prog (SumAns A A') X R
  | .ret r => .ret r
  | .raise x => .raise x
  | .call e k => .call (.inl e) fun a => (k a).inl

/-- A program over the second of two signatures. -/
def inr : Prog A' X R → Prog (SumAns A A') X R
  | .ret r => .ret r
  | .raise x => .raise x
  | .call e k => .call (.inr e) fun a => (k a).inr

-- ============================================================================
-- Monad laws
-- ============================================================================

@[simp] theorem pure_eq (r : R) : (pure r : Prog A X R) = .ret r := rfl

@[simp] theorem ret_bind (r : R) (f : R → Prog A X S) : (Prog.ret r >>= f) = f r := rfl

@[simp] theorem raise_bind (x : X) (f : R → Prog A X S) :
    (Prog.raise x >>= f) = .raise x := rfl

@[simp] theorem call_bind (e : E) (k : Except X (A e) → Prog A X R) (f : R → Prog A X S) :
    (Prog.call e k >>= f) = .call e fun a => k a >>= f := rfl

theorem bind_ret (p : Prog A X R) : (p >>= Prog.ret) = p := by
  induction p with
  | ret r => rfl
  | raise x => rfl
  | call e k ih =>
      rw [call_bind]
      congr 1
      funext a
      exact ih a

theorem bind_assoc (p : Prog A X R) (f : R → Prog A X S) (g : S → Prog A X T) :
    (p >>= f >>= g) = p >>= fun r => f r >>= g := by
  induction p with
  | ret r => rfl
  | raise x => rfl
  | call e k ih =>
      simp only [call_bind]
      congr 1
      funext a
      exact ih a

instance : LawfulMonad (Prog A X) :=
  LawfulMonad.mk' (Prog A X) bind_ret (fun _ _ => rfl) bind_assoc

@[simp] theorem ofExcept_ok (r : R) : (ofExcept (.ok r) : Prog A X R) = .ret r := rfl

@[simp] theorem ofExcept_error (x : X) : (ofExcept (.error x) : Prog A X R) = .raise x := rfl

-- ============================================================================
-- attempt and link
-- ============================================================================

@[simp] theorem attempt_ret (r : R) :
    (Prog.ret r : Prog A X R).attempt = .ret (.ok r) := rfl

@[simp] theorem attempt_raise (x : X) :
    (Prog.raise x : Prog A X R).attempt = .ret (.error x) := rfl

@[simp] theorem attempt_call (e : E) (k : Except X (A e) → Prog A X R) :
    (Prog.call e k).attempt = .call e fun a => (k a).attempt := rfl

@[simp] theorem link_ret (f : (e : E) → Prog A' X (A e)) (r : R) :
    (Prog.ret r : Prog A X R).link f = .ret r := rfl

@[simp] theorem link_raise (f : (e : E) → Prog A' X (A e)) (x : X) :
    (Prog.raise x : Prog A X R).link f = .raise x := rfl

@[simp] theorem link_call (f : (e : E) → Prog A' X (A e)) (e : E)
    (k : Except X (A e) → Prog A X R) :
    (Prog.call e k).link f = (f e).attempt >>= fun a => (k a).link f := rfl

-- ============================================================================
-- Outcomes
-- ============================================================================

/-- The program has returned. -/
def returned : Prog A X R → Bool
  | .ret _ => true
  | .raise _ => false
  | .call _ _ => false

theorem eq_ret_of_returned {p : Prog A X R} (h : p.returned) : ∃ r, p = .ret r := by
  cases p with
  | ret r => exact ⟨r, rfl⟩
  | raise x => cases h
  | call e k => cases h

-- ============================================================================
-- Reachable operations
-- ============================================================================

/-- `p` can come to call `e` when every operation it calls before satisfies
    `through`, whatever the answers are. -/
inductive Reaches (through : E → Prop) : Prog A X R → E → Prop
  | here (e : E) (k : Except X (A e) → Prog A X R) : Reaches through (.call e k) e
  | later {e e' : E} {k : Except X (A e) → Prog A X R} {a : Except X (A e)} :
      through e → Reaches through (k a) e' → Reaches through (.call e k) e'

/-- `p` can come to call `e`. -/
abbrev Performs (p : Prog A X R) (e : E) : Prop := Reaches (fun _ => True) p e

end Prog

end Coroutine
