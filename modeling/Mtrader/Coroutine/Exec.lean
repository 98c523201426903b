/-
  Mtrader.Coroutine.Exec

  Running one program to its end.

  - An environment `Env` says which answers an operation may get in a world and
    what world it leaves; it may be a relation with no answer at all (the call
    blocks) or with many.
  - `Exec` is a complete execution.  It carries a `Trail`: the world and the log
    of the operations performed, newest first.
  - `wp` is the weakest precondition of an execution, by recursion on the
    program, with one rule for each way of building programs.
  - `Env.via` is the environment that a linked implementation provides: an
    execution of `p.link f` is an execution of `p` against it.
  - `Serial` is a run of calls made one at a time.
-/

import Mtrader.Coroutine.Program

namespace Coroutine

variable {E E' : Type} {A : E → Type} {A' : E' → Type}
variable {W X R S C : Type}

/-- `env w e a w'`: in world `w` the operation `e` may answer `a` and leave `w'`. -/
abbrev Env (W : Type) {E : Type} (A : E → Type) (X : Type) : Type :=
  W → (e : E) → Except X (A e) → W → Prop

/-- One performed operation: the world it began in and its answer. -/
structure Event (W : Type) {E : Type} (A : E → Type) (X : Type) where
  pre : W
  op : E
  ans : Except X (A op)

/-- A world, and the operations performed so far, newest first. -/
structure Trail (W : Type) {E : Type} (A : E → Type) (X : Type) where
  world : W
  log : List (Event W A X) := []

/-- The trail after one more operation. -/
def Trail.record (t : Trail W A X) (e : E) (a : Except X (A e)) (w' : W) : Trail W A X :=
  { world := w', log := ⟨t.world, e, a⟩ :: t.log }

@[simp] theorem Trail.record_world (t : Trail W A X) (e : E) (a : Except X (A e)) (w' : W) :
    (t.record e a w').world = w' := rfl

@[simp] theorem Trail.record_log (t : Trail W A X) (e : E) (a : Except X (A e)) (w' : W) :
    (t.record e a w').log = ⟨t.world, e, a⟩ :: t.log := rfl

/-- A complete execution of a program. -/
inductive Exec (env : Env W A X) :
    Trail W A X → Prog A X R → Except X R → Trail W A X → Prop
  | ret (t : Trail W A X) (r : R) : Exec env t (.ret r) (.ok r) t
  | raise (t : Trail W A X) (x : X) : Exec env t (.raise x) (.error x) t
  | call {t t' : Trail W A X} {e : E} {k : Except X (A e) → Prog A X R}
      {a : Except X (A e)} {w' : W} {out : Except X R} :
      env t.world e a w' → Exec env (t.record e a w') (k a) out t' →
      Exec env t (.call e k) out t'

-- ============================================================================
-- Weakest preconditions
-- ============================================================================

/-- `Q` holds at the end of every execution of the program from `t`. -/
def wp (env : Env W A X) :
    Prog A X R → (Except X R → Trail W A X → Prop) → Trail W A X → Prop
  | .ret r, Q, t => Q (.ok r) t
  | .raise x, Q, t => Q (.error x) t
  | .call e k, Q, t => ∀ a w', env t.world e a w' → wp env (k a) Q (t.record e a w')

variable {env : Env W A X} {Q Q' : Except X R → Trail W A X → Prop} {t t' : Trail W A X}

/-- Soundness of `wp`. -/
theorem Exec.sound {p : Prog A X R} {out : Except X R} (h : Exec env t p out t')
    (hwp : wp env p Q t) : Q out t' := by
  induction h with
  | ret t r => exact hwp
  | raise t x => exact hwp
  | call henv _ ih => exact ih (hwp _ _ henv)

/-- `wp` is exactly the property of all executions. -/
theorem wp_iff {p : Prog A X R} :
    wp env p Q t ↔ ∀ out t', Exec env t p out t' → Q out t' := by
  constructor
  · intro hwp out t' h
    exact h.sound hwp
  · intro h
    induction p generalizing t with
    | ret r => exact h _ _ (.ret t r)
    | raise x => exact h _ _ (.raise t x)
    | call e k ih =>
        intro a w' henv
        exact ih a fun out t' hex => h out t' (.call henv hex)

theorem wp_mono {p : Prog A X R} (h : wp env p Q t) (hQ : ∀ out t', Q out t' → Q' out t') :
    wp env p Q' t :=
  wp_iff.mpr fun out t' hex => hQ out t' (wp_iff.mp h out t' hex)

theorem wp_and {p : Prog A X R} (h : wp env p Q t) (h' : wp env p Q' t) :
    wp env p (fun out t' => Q out t' ∧ Q' out t') t :=
  wp_iff.mpr fun out t' hex => ⟨wp_iff.mp h out t' hex, wp_iff.mp h' out t' hex⟩

@[simp] theorem wp_ret {r : R} : wp env (.ret r) Q t ↔ Q (.ok r) t := Iff.rfl

@[simp] theorem wp_pure {r : R} : wp env (pure r) Q t ↔ Q (.ok r) t := Iff.rfl

@[simp] theorem wp_raise {x : X} : wp env (.raise x) Q t ↔ Q (.error x) t := Iff.rfl

theorem wp_call {e : E} {k : Except X (A e) → Prog A X R} :
    wp env (.call e k) Q t ↔
      ∀ a w', env t.world e a w' → wp env (k a) Q (t.record e a w') := Iff.rfl

@[simp] theorem wp_ofExcept {r : Except X R} : wp env (Prog.ofExcept r) Q t ↔ Q r t := by
  cases r <;> rfl

/-- Sequencing: an exception of the first half is the outcome. -/
theorem wp_bind {p : Prog A X R} {f : R → Prog A X S}
    {Q : Except X S → Trail W A X → Prop} :
    wp env (p >>= f) Q t ↔
      wp env p (fun out t' => match out with
        | .ok r => wp env (f r) Q t'
        | .error x => Q (.error x) t') t := by
  induction p generalizing t with
  | ret r => exact Iff.rfl
  | raise x => exact Iff.rfl
  | call e k ih =>
      simp only [Prog.call_bind, wp_call]
      exact forall_congr' fun a => forall_congr' fun w' => forall_congr' fun _ => ih a

theorem wp_op {e : E} {Q : Except X (A e) → Trail W A X → Prop} :
    wp env (Prog.op e) Q t ↔
      ∀ a w', env t.world e a w' → Q a (t.record e a w') := by
  simp only [Prog.op, wp_call, wp_ofExcept]

theorem exec_op {e : E} {a : Except X (A e)} :
    Exec env t (Prog.op e) a t' ↔ ∃ w', env t.world e a w' ∧ t' = t.record e a w' := by
  constructor
  · intro h
    have hwp : wp env (Prog.op e)
        (fun a t' => ∃ w', env t.world e a w' ∧ t' = t.record e a w') t :=
      wp_op.mpr fun a w' henv => ⟨w', henv, rfl⟩
    exact h.sound hwp
  · rintro ⟨w', henv, rfl⟩
    refine .call henv ?_
    cases a with
    | ok r => exact .ret _ r
    | error x => exact .raise _ x

/-- One operation and then the rest of the program. -/
theorem wp_op_bind {e : E} {f : A e → Prog A X R} :
    wp env (Prog.op e >>= f) Q t ↔
      (∀ r w', env t.world e (.ok r) w' → wp env (f r) Q (t.record e (.ok r) w')) ∧
      ∀ x w', env t.world e (.error x) w' → Q (.error x) (t.record e (.error x) w') := by
  rw [wp_bind, wp_op]
  constructor
  · intro h
    exact ⟨fun r w' henv => h (.ok r) w' henv, fun x w' henv => h (.error x) w' henv⟩
  · rintro ⟨hok, herr⟩ (x | r) w' henv
    · exact herr x w' henv
    · exact hok r w' henv

/-- An operation that the environment can answer in one way only. -/
theorem wp_op_bind_of_answer {e : E} {f : A e → Prog A X R} {r : A e} {w₁ : W}
    (h : ∀ a w', env t.world e a w' ↔ a = .ok r ∧ w' = w₁) :
    wp env (Prog.op e >>= f) Q t ↔ wp env (f r) Q (t.record e (.ok r) w₁) := by
  rw [wp_op_bind]
  constructor
  · intro hwp
    exact hwp.1 r w₁ ((h _ _).mpr ⟨rfl, rfl⟩)
  · intro hwp
    constructor
    · intro r' w' henv
      obtain ⟨hr, rfl⟩ := (h _ _).mp henv
      cases hr
      exact hwp
    · intro x w' henv
      obtain ⟨hx, -⟩ := (h _ _).mp henv
      cases hx

/-- An operation for which the environment can only raise, in one way. -/
theorem wp_op_bind_of_error {e : E} {f : A e → Prog A X R} {x : X} {w₁ : W}
    (h : ∀ a w', env t.world e a w' ↔ a = .error x ∧ w' = w₁) :
    wp env (Prog.op e >>= f) Q t ↔ Q (.error x) (t.record e (.error x) w₁) := by
  rw [wp_op_bind]
  constructor
  · intro hwp
    exact hwp.2 x w₁ ((h _ _).mpr ⟨rfl, rfl⟩)
  · intro hpost
    constructor
    · intro r w' henv
      obtain ⟨hr, -⟩ := (h _ _).mp henv
      cases hr
    · intro x' w' henv
      obtain ⟨hx, rfl⟩ := (h _ _).mp henv
      cases hx
      exact hpost

/-- A value or an exception and then the rest of the program. -/
theorem wp_ofExcept_bind {r : Except X R} {f : R → Prog A X S}
    {Q : Except X S → Trail W A X → Prop} :
    wp env (Prog.ofExcept r >>= f) Q t ↔
      (∀ v, r = .ok v → wp env (f v) Q t) ∧ ∀ x, r = .error x → Q (.error x) t := by
  rw [wp_bind, wp_ofExcept]
  cases r with
  | ok v => exact ⟨fun h => ⟨fun _ hv => by cases hv; exact h, nofun⟩, fun h => h.1 v rfl⟩
  | error x => exact ⟨fun h => ⟨nofun, fun _ hx => by cases hx; exact h⟩, fun h => h.2 x rfl⟩

theorem wp_ofExcept_bind_of_ok {r : Except X R} {v : R} (h : r = .ok v) {f : R → Prog A X S}
    {Q : Except X S → Trail W A X → Prop} :
    wp env (Prog.ofExcept r >>= f) Q t ↔ wp env (f v) Q t := by
  rw [h]
  rfl

/-- Sequencing through an intermediate assertion. -/
theorem wp_seq {p : Prog A X R} {f : R → Prog A X S} {P : Except X R → Trail W A X → Prop}
    {Q : Except X S → Trail W A X → Prop} (hp : wp env p P t)
    (hok : ∀ r t', P (.ok r) t' → wp env (f r) Q t')
    (herr : ∀ x t', P (.error x) t' → Q (.error x) t') : wp env (p >>= f) Q t := by
  refine wp_bind.mpr (wp_mono hp fun out t' h => ?_)
  cases out with
  | ok r => exact hok r t' h
  | error x => exact herr x t' h

theorem wp_attempt {p : Prog A X R} {Q : Except X (Except X R) → Trail W A X → Prop} :
    wp env p.attempt Q t ↔ wp env p (fun out t' => Q (.ok out) t') t := by
  induction p generalizing t with
  | ret r => exact Iff.rfl
  | raise x => exact Iff.rfl
  | call e k ih =>
      simp only [Prog.attempt_call, wp_call]
      exact forall_congr' fun a => forall_congr' fun w' => forall_congr' fun _ => ih a

/-- The cleanup runs at the end of every execution, and its exception is the
    outcome. -/
theorem wp_andFinally {p : Prog A X R} {fin : Prog A X Unit}
    (h : wp env p (fun out t' => wp env fin (fun done t'' => match done with
      | .ok _ => Q out t''
      | .error x => Q (.error x) t'') t') t) : wp env (p.andFinally fin) Q t := by
  refine wp_bind.mpr (wp_attempt.mpr (wp_mono h fun out t' hfin => ?_))
  refine wp_seq hfin (fun _ t'' hQ => wp_ofExcept.mpr hQ) fun x t'' hQ => hQ

/-- A property of worlds that every operation keeps is kept by every program. -/
theorem wp_invariant {I : W → Prop} (hI : ∀ w e a w', I w → env w e a w' → I w')
    (p : Prog A X R) (h : I t.world) : wp env p (fun _ t' => I t'.world) t := by
  induction p generalizing t with
  | ret r => exact h
  | raise x => exact h
  | call e k ih =>
      intro a w' henv
      exact ih a (hI _ _ _ _ h henv)

/-- `wp_invariant` for properties that also speak of the log. -/
theorem wp_trail_invariant {J : Trail W A X → Prop}
    (hJ : ∀ t e a w', J t → env t.world e a w' → J (t.record e a w'))
    (p : Prog A X R) (h : J t) : wp env p (fun _ t' => J t') t := by
  induction p generalizing t with
  | ret r => exact h
  | raise x => exact h
  | call e k ih =>
      intro a w' henv
      exact ih a (hJ _ _ _ _ h henv)

/-- The environment whose steps are also events in `P`. -/
def Env.restrict (env : Env W A X) (P : Event W A X → Prop) : Env W A X :=
  fun w e a w' => env w e a w' ∧ P ⟨w, e, a⟩

theorem Exec.log_subset {p : Prog A X R} {out : Except X R} (h : Exec env t p out t')
    {ev : Event W A X} (hev : ev ∈ t.log) : ev ∈ t'.log := by
  induction h with
  | ret t r => exact hev
  | raise t x => exact hev
  | call _ _ ih => exact ih (List.mem_cons_of_mem _ hev)

/-- Everything an execution performs, its program can come to call. -/
theorem Exec.performs {p : Prog A X R} {out : Except X R} (h : Exec env t p out t')
    {ev : Event W A X} (hev : ev ∈ t'.log) : ev ∈ t.log ∨ p.Performs ev.op := by
  induction h with
  | ret t r => exact .inl hev
  | raise t x => exact .inl hev
  | @call t t' e k a w' out _ _ ih =>
      rcases ih hev with hold | hnew
      · rcases List.mem_cons.mp hold with rfl | hold
        · exact .inr (.here e k)
        · exact .inl hold
      · exact .inr (.later trivial hnew)

/-- An execution all of whose events are in `P`. -/
theorem Exec.restrict {p : Prog A X R} {out : Except X R} {P : Event W A X → Prop}
    (h : Exec env t p out t') (hP : ∀ ev ∈ t'.log, P ev) : Exec (env.restrict P) t p out t' := by
  induction h with
  | ret t r => exact .ret t r
  | raise t x => exact .raise t x
  | call henv hex ih =>
      exact .call ⟨henv, hP _ (hex.log_subset List.mem_cons_self)⟩ (ih hP)

-- ============================================================================
-- Inverting executions
-- ============================================================================

theorem Exec.bind_inv {p : Prog A X R} {f : R → Prog A X S} {out : Except X S}
    (h : Exec env t (p >>= f) out t') :
    (∃ r t₁, Exec env t p (.ok r) t₁ ∧ Exec env t₁ (f r) out t') ∨
    (∃ x, out = .error x ∧ Exec env t p (.error x) t') := by
  induction p generalizing t with
  | ret r => exact .inl ⟨r, t, .ret t r, h⟩
  | raise x =>
      cases h
      exact .inr ⟨x, rfl, .raise _ x⟩
  | call e k ih =>
      obtain _ | _ | ⟨henv, hk⟩ := h
      rcases ih _ hk with ⟨r, t₁, hp, hf⟩ | ⟨x, rfl, hp⟩
      · exact .inl ⟨r, t₁, .call henv hp, hf⟩
      · exact .inr ⟨x, rfl, .call henv hp⟩

theorem Exec.attempt_inv {p : Prog A X R} {out : Except X (Except X R)}
    (h : Exec env t p.attempt out t') : ∃ r, out = .ok r ∧ Exec env t p r t' := by
  induction p generalizing t with
  | ret r =>
      cases h
      exact ⟨.ok r, rfl, .ret _ r⟩
  | raise x =>
      cases h
      exact ⟨.error x, rfl, .raise _ x⟩
  | call e k ih =>
      obtain _ | _ | ⟨henv, hk⟩ := h
      obtain ⟨r, rfl, hp⟩ := ih _ hk
      exact ⟨r, rfl, .call henv hp⟩

-- ============================================================================
-- Linked programs
-- ============================================================================

/-- The environment an implementation `f` provides: an operation answers with
    the outcome of an execution of its implementation.  Its worlds are the trails
    of the implementation. -/
def Env.via (env : Env W A' X) (f : (e : E) → Prog A' X (A e)) : Env (Trail W A' X) A X :=
  fun t e a t' => Exec env t (f e) a t'

/-- An execution of a linked program is an execution of the original against
    the environment its implementation provides. -/
theorem Exec.of_link {env : Env W A' X} {f : (e : E) → Prog A' X (A e)} {p : Prog A X R}
    {out : Except X R} {t t' : Trail W A' X} (h : Exec env t (p.link f) out t')
    (l : List (Event (Trail W A' X) A X)) :
    ∃ l', Exec (env.via f) ⟨t, l⟩ p out ⟨t', l'⟩ := by
  induction p generalizing t l with
  | ret r =>
      cases h
      exact ⟨l, .ret _ r⟩
  | raise x =>
      cases h
      exact ⟨l, .raise _ x⟩
  | call e k ih =>
      rw [Prog.link_call] at h
      rcases h.bind_inv with ⟨a, t₁, ha, hk⟩ | ⟨x, rfl, hx⟩
      · obtain ⟨r, hr, ha⟩ := ha.attempt_inv
        cases hr
        obtain ⟨l', hl'⟩ := ih a hk (⟨t, e, a⟩ :: l)
        exact ⟨l', .call (t := ⟨t, l⟩) ha hl'⟩
      · obtain ⟨r, hr, -⟩ := hx.attempt_inv
        cases hr

/-- To reason about a linked program, reason about the original. -/
theorem wp_link {env : Env W A' X} {f : (e : E) → Prog A' X (A e)} {p : Prog A X R}
    {Q : Except X R → Trail W A' X → Prop} {t : Trail W A' X}
    (h : wp (env.via f) p (fun out s => Q out s.world) ⟨t, []⟩) : wp env (p.link f) Q t := by
  refine wp_iff.mpr fun out t' hex => ?_
  obtain ⟨l', hl'⟩ := hex.of_link []
  exact wp_iff.mp h out _ hl'

/-- An operation of the first of two signatures is implemented by itself. -/
theorem exec_opInl {env : Env W (Prog.SumAns A A') X} {e : E} {a : Except X (A e)}
    {t t' : Trail W (Prog.SumAns A A') X} (h : Exec env t (Prog.opInl e) a t') :
    ∃ w', env t.world (.inl e) a w' ∧ t' = t.record (.inl e) a w' := by
  obtain _ | _ | ⟨henv, hex⟩ := h
  exact hex.sound
    (Q := fun a' t' => ∃ w', env _ (.inl e) a' w' ∧ t' = Trail.record _ (.inl e) a' w')
    (wp_ofExcept.mpr ⟨_, henv, rfl⟩)

/-- The second of two signatures, in an environment for both. -/
def Env.right (env : Env W (Prog.SumAns A A') X) : Env W A' X :=
  fun w e a w' => env w (.inr e) a w'

/-- An event of the second signature as one of both. -/
def Event.inr (ev : Event W A' X) : Event W (Prog.SumAns A A') X := ⟨ev.pre, .inr ev.op, ev.ans⟩

/-- To reason about a program over the second of two signatures, reason about it
    there; `l` is the log it is appended to. -/
theorem wp_inr {env : Env W (Prog.SumAns A A') X} {p : Prog A' X R}
    {l : List (Event W (Prog.SumAns A A') X)}
    {Q : Except X R → Trail W (Prog.SumAns A A') X → Prop} {t : Trail W A' X}
    (h : wp env.right p (fun out s => Q out ⟨s.world, s.log.map Event.inr ++ l⟩) t) :
    wp env (p.inr : Prog (Prog.SumAns A A') X R) Q ⟨t.world, t.log.map Event.inr ++ l⟩ := by
  induction p generalizing t with
  | ret r => exact h
  | raise x => exact h
  | call e k ih =>
      intro a w' henv
      exact ih a (h a w' henv)

-- ============================================================================
-- Calls made one at a time
-- ============================================================================

/-- One finished call: what was called, the world before, what it performed
    (newest first), its outcome and the world after. -/
structure Call (C W : Type) {E : Type} (A : E → Type) (X R : Type) where
  call : C
  pre : W
  log : List (Event W A X)
  out : Except X R
  post : W

/-- A run of calls made one at a time from `w₀`; the calls are newest first. -/
inductive Serial (env : Env W A X) (prog : C → Prog A X R) (w₀ : W) :
    List (Call C W A X R) → W → Prop
  | nil : Serial env prog w₀ [] w₀
  | cons {cs : List (Call C W A X R)} {w w' : W} {c : C} {log : List (Event W A X)}
      {out : Except X R} :
      Serial env prog w₀ cs w → Exec env ⟨w, []⟩ (prog c) out ⟨w', log⟩ →
      Serial env prog w₀ (⟨c, w, log, out, w'⟩ :: cs) w'

variable {prog : C → Prog A X R} {w₀ w : W} {cs newer older : List (Call C W A X R)}

/-- A property of the calls made and the world that every call keeps. -/
theorem Serial.invariant {I : List (Call C W A X R) → W → Prop}
    (h : Serial env prog w₀ cs w) (h₀ : I [] w₀)
    (hstep : ∀ cs w c out t', Serial env prog w₀ cs w → I cs w →
      Exec env ⟨w, []⟩ (prog c) out t' → I (⟨c, w, t'.log, out, t'.world⟩ :: cs) t'.world) :
    I cs w := by
  induction h with
  | nil => exact h₀
  | cons hs hex ih => exact hstep _ _ _ _ _ hs ih hex

/-- The world of a run is the one it began in or one a call has left. -/
theorem Serial.world_of_posts {I : W → Prop} (h : Serial env prog w₀ cs w) (h₀ : I w₀)
    (hposts : ∀ c ∈ cs, I c.post) : I w := by
  cases h with
  | nil => exact h₀
  | cons _ _ => exact hposts _ List.mem_cons_self

/-- If from a world in `I` a call leads into `I` exactly when it meets `P`, then a run
    stays in `I` exactly when all its calls meet `P`. -/
theorem Serial.stays_iff {I : W → Prop} {P : Call C W A X R → Prop}
    (h : Serial env prog w₀ cs w) (h₀ : I w₀)
    (hstep : ∀ cs w c out t', Serial env prog w₀ cs w → I w →
      Exec env ⟨w, []⟩ (prog c) out t' →
      (I t'.world ↔ P ⟨c, w, t'.log, out, t'.world⟩)) :
    (∀ c ∈ cs, I c.post) ↔ ∀ c ∈ cs, P c := by
  induction h with
  | nil => exact ⟨fun _ => nofun, fun _ => nofun⟩
  | cons hs hex ih =>
      rw [List.forall_mem_cons, List.forall_mem_cons]
      refine (and_congr_right' ih).trans (and_congr_left fun hall => ?_)
      exact hstep _ _ _ _ _ hs (hs.world_of_posts h₀ (ih.mpr hall)) hex

/-- Each call of a run is an execution from the world the older calls leave. -/
theorem Serial.entry {c : Call C W A X R} (h : Serial env prog w₀ (newer ++ c :: older) w) :
    Serial env prog w₀ older c.pre ∧
      Exec env ⟨c.pre, []⟩ (prog c.call) c.out ⟨c.post, c.log⟩ := by
  induction newer generalizing w with
  | nil =>
      cases h with
      | cons hs hex => exact ⟨hs, hex⟩
  | cons d newer ih =>
      cases h with
      | cons hs _ => exact ih hs

-- ============================================================================
-- Playing a program
-- ============================================================================

/-- A functional environment that always answers. -/
abbrev Answers (W : Type) {E : Type} (A : E → Type) (X : Type) : Type :=
  W → (e : E) → Except X (A e) × W

/-- A functional environment as an environment. -/
def Env.ofAnswers (answers : Answers W A X) : Env W A X :=
  fun w e a w' => a = (answers w e).1 ∧ w' = (answers w e).2

theorem Env.ofAnswers_self (answers : Answers W A X) (w : W) (e : E) :
    Env.ofAnswers answers w e (answers w e).1 (answers w e).2 := ⟨rfl, rfl⟩

/-- The execution against a functional environment. -/
def Prog.play (answers : Answers W A X) :
    Prog A X R → Trail W A X → Except X R × Trail W A X
  | .ret r, t => (.ok r, t)
  | .raise x, t => (.error x, t)
  | .call e k, t =>
      (k (answers t.world e).1).play answers
        (t.record e (answers t.world e).1 (answers t.world e).2)

theorem Prog.play_sound {answers : Answers W A X}
    (ha : ∀ w e, env w e (answers w e).1 (answers w e).2) (p : Prog A X R)
    (t : Trail W A X) : Exec env t p (p.play answers t).1 (p.play answers t).2 := by
  induction p generalizing t with
  | ret r => exact .ret t r
  | raise x => exact .raise t x
  | call e k ih => exact .call (ha _ _) (ih _ _)

/-- Make the calls one after the other, the first one first. -/
def playAll (answers : Answers W A X) (prog : C → Prog A X R) :
    List C → List (Call C W A X R) → W → List (Call C W A X R) × W
  | [], done, w => (done, w)
  | c :: rest, done, w =>
      let (out, t') := (prog c).play answers ⟨w, []⟩
      playAll answers prog rest (⟨c, w, t'.log, out, t'.world⟩ :: done) t'.world

theorem playAll_sound {answers : Answers W A X}
    (ha : ∀ w e, env w e (answers w e).1 (answers w e).2) (rest : List C)
    (h : Serial env prog w₀ cs w) :
    Serial env prog w₀ (playAll answers prog rest cs w).1 (playAll answers prog rest cs w).2 := by
  induction rest generalizing cs w with
  | nil => exact h
  | cons c rest ih => exact ih (.cons h (Prog.play_sound ha (prog c) ⟨w, []⟩))

theorem playAll_calls (answers : Answers W A X) (rest : List C) (w : W) :
    (playAll answers prog rest cs w).1.map Call.call = rest.reverse ++ cs.map Call.call := by
  induction rest generalizing cs w with
  | nil => rfl
  | cons c rest ih =>
      rw [List.reverse_cons, List.append_assoc]
      exact ih _

/-- Does the newest call pass the check? -/
def newest (check : Call C W A X R → List (Call C W A X R) → Bool) :
    List (Call C W A X R) → Bool
  | [] => false
  | c :: older => check c older

/-- Calls that can be played and whose newest passes a check show that there is
    such a run. -/
theorem exists_serial {answers : Answers W A X}
    (ha : ∀ w e, env w e (answers w e).1 (answers w e).2) (calls : List C)
    (check : Call C W A X R → List (Call C W A X R) → Prop) [∀ c older, Decidable (check c older)]
    (h : newest (fun c older => check c older) (playAll answers prog calls [] w₀).1) :
    ∃ c older w, Serial env prog w₀ (c :: older) w ∧ check c older := by
  have hnil : Serial env prog w₀ [] w₀ := .nil
  have hrun := playAll_sound ha calls hnil
  generalize (playAll answers prog calls [] w₀).1 = cs at h hrun
  cases cs with
  | nil => cases h
  | cons c older => exact ⟨c, older, _, hrun, of_decide_eq_true h⟩

end Coroutine
