/-
  Mtrader.Coroutine.Discipline

  What a program promises about its own history.

  A `Discipline` sums a history up in a `G`: which operations may come next, and
  how an answer changes the summary.  A program obeys it against every answer
  it could get, so the promise needs no environment.  Three rules use it:

  - `Obeys.link` carries a discipline through the implementations of the
    operations,
  - `Obeys.reaches` says that a program only calls what its discipline allows,
  - `Obeys.wp` turns it into a weakest precondition.
-/

import Mtrader.Coroutine.Exec

namespace Coroutine

variable {E E' : Type} {A : E → Type} {A' : E' → Type}
variable {W X R S G G' : Type}

/-- A promise of one coroutine about its own history, summed up in a `G`:
    which operations it may call next, and how an answer changes the summary. -/
structure Discipline {E : Type} (A : E → Type) (X G : Type) where
  may : G → E → Prop
  next : G → (e : E) → Except X (A e) → G

variable {D : Discipline A X G} {D' : Discipline A' X G'} {g : G} {g' : G'}

/-- The promise to call nothing but operations in `P`. -/
def Discipline.only {E : Type} {A : E → Type} {X : Type} (P : E → Prop) :
    Discipline A X Unit where
  may _ e := P e
  next _ _ _ := ()

/-- Every execution of the program from summary `g` keeps the discipline, and
    `Q` holds at its end. -/
def Prog.Obeys (D : Discipline A X G) :
    Prog A X R → (Except X R → G → Prop) → G → Prop
  | .ret r, Q, g => Q (.ok r) g
  | .raise x, Q, g => Q (.error x) g
  | .call e k, Q, g => D.may g e ∧ ∀ a, (k a).Obeys D Q (D.next g e a)

namespace Prog

@[simp] theorem obeys_ret {Q : Except X R → G → Prop} {r : R} :
    (Prog.ret r : Prog A X R).Obeys D Q g ↔ Q (.ok r) g := Iff.rfl

@[simp] theorem obeys_raise {Q : Except X R → G → Prop} {x : X} :
    (Prog.raise x : Prog A X R).Obeys D Q g ↔ Q (.error x) g := Iff.rfl

@[simp] theorem obeys_ofExcept {Q : Except X R → G → Prop} {r : Except X R} :
    (ofExcept r : Prog A X R).Obeys D Q g ↔ Q r g := by
  cases r <;> rfl

theorem obeys_call {Q : Except X R → G → Prop} {e : E} {k : Except X (A e) → Prog A X R} :
    (Prog.call e k).Obeys D Q g ↔ D.may g e ∧ ∀ a, (k a).Obeys D Q (D.next g e a) :=
  Iff.rfl

theorem Obeys.mono {Q Q' : Except X R → G → Prop} {p : Prog A X R} (h : p.Obeys D Q g)
    (hQ : ∀ out g, Q out g → Q' out g) : p.Obeys D Q' g := by
  induction p generalizing g with
  | ret r => exact hQ _ _ h
  | raise x => exact hQ _ _ h
  | call e k ih => exact ⟨h.1, fun a => ih a (h.2 a)⟩

theorem obeys_bind {Q : Except X S → G → Prop} {p : Prog A X R} {f : R → Prog A X S} :
    (p >>= f).Obeys D Q g ↔
      p.Obeys D (fun out g' => match out with
        | .ok r => (f r).Obeys D Q g'
        | .error x => Q (.error x) g') g := by
  induction p generalizing g with
  | ret r => exact Iff.rfl
  | raise x => exact Iff.rfl
  | call e k ih =>
      simp only [call_bind, obeys_call]
      exact and_congr Iff.rfl (forall_congr' fun a => ih a)

theorem obeys_op {Q : Except X (A e) → G → Prop} :
    (op e : Prog A X (A e)).Obeys D Q g ↔ D.may g e ∧ ∀ a, Q a (D.next g e a) := by
  simp only [op, obeys_call, obeys_ofExcept]

/-- One operation and then the rest of the program. -/
theorem obeys_op_bind {Q : Except X R → G → Prop} {f : A e → Prog A X R} :
    (op e >>= f).Obeys D Q g ↔
      D.may g e ∧ (∀ r, (f r).Obeys D Q (D.next g e (.ok r))) ∧
      ∀ x, Q (.error x) (D.next g e (.error x)) := by
  rw [obeys_bind, obeys_op]
  refine and_congr Iff.rfl ⟨fun h => ⟨fun r => h (.ok r), fun x => h (.error x)⟩, ?_⟩
  rintro ⟨hok, herr⟩ (x | r)
  · exact herr x
  · exact hok r

/-- A value or an exception and then the rest of the program. -/
theorem obeys_ofExcept_bind {Q : Except X S → G → Prop} {r : Except X R}
    {f : R → Prog A X S} :
    (ofExcept r >>= f).Obeys D Q g ↔
      (∀ v, r = .ok v → (f v).Obeys D Q g) ∧ ∀ x, r = .error x → Q (.error x) g := by
  rw [obeys_bind, obeys_ofExcept]
  cases r with
  | ok v => exact ⟨fun h => ⟨fun _ hv => by cases hv; exact h, nofun⟩, fun h => h.1 v rfl⟩
  | error x => exact ⟨fun h => ⟨nofun, fun _ hx => by cases hx; exact h⟩, fun h => h.2 x rfl⟩

/-- Sequencing through an intermediate assertion. -/
theorem Obeys.seq {P : Except X R → G → Prop} {Q : Except X S → G → Prop}
    {p : Prog A X R} {f : R → Prog A X S} (hp : p.Obeys D P g)
    (hok : ∀ r g', P (.ok r) g' → (f r).Obeys D Q g')
    (herr : ∀ x g', P (.error x) g' → Q (.error x) g') : (p >>= f).Obeys D Q g := by
  refine obeys_bind.mpr (hp.mono fun out g' h => ?_)
  cases out with
  | ok r => exact hok r g' h
  | error x => exact herr x g' h

theorem obeys_attempt {Q : Except X (Except X R) → G → Prop} {p : Prog A X R} :
    p.attempt.Obeys D Q g ↔ p.Obeys D (fun out g' => Q (.ok out) g') g := by
  induction p generalizing g with
  | ret r => exact Iff.rfl
  | raise x => exact Iff.rfl
  | call e k ih =>
      simp only [attempt_call, obeys_call]
      exact and_congr Iff.rfl (forall_congr' fun a => ih a)

/-- What the program has raised, the handler goes on with. -/
theorem Obeys.handle {P : Except X R → G → Prop} {Q : Except X R → G → Prop} {p : Prog A X R}
    {handler : X → Prog A X R} (hp : p.Obeys D P g) (hok : ∀ r g', P (.ok r) g' → Q (.ok r) g')
    (herr : ∀ x g', P (.error x) g' → (handler x).Obeys D Q g') :
    (p.handle handler).Obeys D Q g := by
  unfold Prog.handle
  rw [obeys_bind, obeys_attempt]
  refine hp.mono fun out g' hout => ?_
  cases out with
  | ok r => exact hok r g' hout
  | error x => exact herr x g' hout

/-- The program keeps the discipline whatever it has done before. -/
def Always (D : Discipline A X G) (p : Prog A X R) : Prop :=
  ∀ g, p.Obeys D (fun _ _ => True) g

theorem always_ret (r : R) : (Prog.ret r : Prog A X R).Always D := fun _ => trivial

theorem always_raise (x : X) : (Prog.raise x : Prog A X R).Always D := fun _ => trivial

theorem always_ofExcept (r : Except X R) : (ofExcept r : Prog A X R).Always D := by
  intro g
  cases r <;> trivial

theorem always_op (hmay : ∀ g, D.may g e) : (op e : Prog A X (A e)).Always D :=
  fun g => obeys_op.mpr ⟨hmay g, fun _ => trivial⟩

/-- Where everything is allowed, every program keeps the discipline. -/
theorem always_of_may (hmay : ∀ g e, D.may g e) (p : Prog A X R) : p.Always D := by
  induction p with
  | ret r => exact always_ret r
  | raise x => exact always_raise x
  | call e k ih => exact fun g => ⟨hmay g e, fun a => ih a _⟩

theorem Always.bind {p : Prog A X R} {f : R → Prog A X S} (hp : p.Always D)
    (hf : ∀ r, (f r).Always D) : (p >>= f).Always D := by
  intro g
  exact (hp g).seq (fun r g' _ => hf r g') fun _ _ _ => trivial

theorem Always.attempt {p : Prog A X R} (hp : p.Always D) : p.attempt.Always D :=
  fun g => obeys_attempt.mpr ((hp g).mono fun _ _ _ => trivial)

/-- The cleanup comes after the program, and its exception is the outcome. -/
theorem obeys_andFinally {Q : Except X R → G → Prop} {p : Prog A X R} {fin : Prog A X Unit}
    (h : p.Obeys D (fun out g' => fin.Obeys D (fun done g'' => match done with
      | .ok _ => Q out g''
      | .error x => Q (.error x) g'') g') g) : (p.andFinally fin).Obeys D Q g := by
  rw [Prog.andFinally, obeys_bind, obeys_attempt]
  refine h.mono fun out g' hfin => ?_
  exact hfin.seq (fun _ g'' hQ => obeys_ofExcept.mpr hQ) fun x g'' hQ => hQ

theorem Obeys.andFinally {p : Prog A X R} {fin : Prog A X Unit}
    (hp : p.Obeys D (fun _ _ => True) g) (hfin : fin.Always D) :
    (p.andFinally fin).Obeys D (fun _ _ => True) g := by
  refine obeys_andFinally (hp.mono fun out g' _ => (hfin g').mono fun done g'' _ => ?_)
  cases done <;> trivial

theorem Always.andFinally {p : Prog A X R} {fin : Prog A X Unit} (hp : p.Always D)
    (hfin : fin.Always D) : (p.andFinally fin).Always D :=
  fun g => (hp g).andFinally hfin

end Prog

-- ============================================================================
-- Using a discipline
-- ============================================================================

/-- A discipline of two signatures, as seen from the first. -/
def Discipline.left (D : Discipline (Prog.SumAns A A') X G) : Discipline A X G where
  may g e := D.may g (.inl e)
  next g e a := D.next g (.inl e) a

/-- A discipline of two signatures, as seen from the second. -/
def Discipline.right (D : Discipline (Prog.SumAns A A') X G) : Discipline A' X G where
  may g e := D.may g (.inr e)
  next g e a := D.next g (.inr e) a

namespace Prog

theorem Obeys.inl {D : Discipline (SumAns A A') X G} {Q : Except X R → G → Prop}
    {p : Prog A X R} (hp : p.Obeys D.left Q g) :
    (p.inl : Prog (SumAns A A') X R).Obeys D Q g := by
  induction p generalizing g with
  | ret r => exact hp
  | raise x => exact hp
  | call e k ih => exact ⟨hp.1, fun a => ih a (hp.2 a)⟩

theorem Obeys.inr {D : Discipline (SumAns A A') X G} {Q : Except X R → G → Prop}
    {p : Prog A' X R} (hp : p.Obeys D.right Q g) :
    (p.inr : Prog (SumAns A A') X R).Obeys D Q g := by
  induction p generalizing g with
  | ret r => exact hp
  | raise x => exact hp
  | call e k ih => exact ⟨hp.1, fun a => ih a (hp.2 a)⟩

/-- If the implementation of each allowed operation takes a summary of the one
    discipline to a matching summary of the other, then so does the linked
    program. -/
theorem Obeys.link {f : (e : E) → Prog A' X (A e)} {Q : Except X R → G → Prop}
    {p : Prog A X R} (hp : p.Obeys D Q g) (Rel : G → G' → Prop) (hg : Rel g g')
    (hf : ∀ g g' e, Rel g g' → D.may g e →
      (f e).Obeys D' (fun a g'' => Rel (D.next g e a) g'') g') :
    (p.link f).Obeys D' (fun out g'' => ∃ g₁, Rel g₁ g'' ∧ Q out g₁) g' := by
  induction p generalizing g g' with
  | ret r => exact ⟨g, hg, hp⟩
  | raise x => exact ⟨g, hg, hp⟩
  | call e k ih =>
      rw [link_call]
      refine obeys_bind.mpr (obeys_attempt.mpr ?_)
      exact (hf g g' e hg hp.1).mono fun a g'' ha => ih a (hp.2 a) ha

/-- A program that only calls operations which leave the summary alone leaves it
    alone. -/
theorem Obeys.of_only {P : E → Prop} {Q : Except X R → Unit → Prop} {p : Prog A X R}
    (hp : p.Obeys (Discipline.only P) Q ())
    (hidle : ∀ e, P e → D.may g e ∧ ∀ a, D.next g e a = g) :
    p.Obeys D (fun out g' => g' = g ∧ Q out ()) g := by
  induction p with
  | ret r => exact ⟨rfl, hp⟩
  | raise x => exact ⟨rfl, hp⟩
  | call e k ih =>
      obtain ⟨hmay, hnext⟩ := hidle e hp.1
      refine ⟨hmay, fun a => ?_⟩
      rw [hnext a]
      exact ih a (hp.2 a)

/-- A program that only calls operations which are always allowed keeps the
    discipline. -/
theorem Always.of_only {P : E → Prop} {p : Prog A X R} (hp : p.Always (Discipline.only P))
    (hmay : ∀ g e, P e → D.may g e) : p.Always D := by
  have hobeys := hp ()
  clear hp
  induction p with
  | ret r => exact always_ret r
  | raise x => exact always_raise x
  | call e k ih => exact fun g => ⟨hmay g e hobeys.1, fun a => ih a (hobeys.2 a) _⟩

/-- Every operation a program can come to call is one its discipline allows. -/
theorem Obeys.reaches {Q : Except X R → G → Prop} {p : Prog A X R} (hp : p.Obeys D Q g)
    {through : E → Prop} {e : E} (he : Reaches through p e) : ∃ g, D.may g e := by
  induction he generalizing g with
  | here e k => exact ⟨g, hp.1⟩
  | later _ _ ih => exact ih (hp.2 _)

/-- If every operation the discipline allows keeps `J`, then `J` holds at the end
    of every execution, with a summary that satisfies the postcondition. -/
theorem Obeys.wp {env : Env W A X} {J : G → Trail W A X → Prop} {Q : Except X R → G → Prop}
    {p : Prog A X R} (hp : p.Obeys D Q g) {t : Trail W A X} (ht : J g t)
    (hJ : ∀ g t e a w', J g t → D.may g e → env t.world e a w' →
      J (D.next g e a) (t.record e a w')) :
    Coroutine.wp env p (fun out t' => ∃ g', J g' t' ∧ Q out g') t := by
  induction p generalizing g t with
  | ret r => exact ⟨g, ht, hp⟩
  | raise x => exact ⟨g, ht, hp⟩
  | call e k ih =>
      intro a w' henv
      exact ih a (hp.2 a) (hJ _ _ _ _ _ ht hp.1 henv)

end Prog

end Coroutine
