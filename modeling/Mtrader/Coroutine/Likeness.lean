/-
  Mtrader.Coroutine.Likeness

  Two programs run side by side.

  A `Likeness` says which operations of two runs correspond, which answers count as the
  same, and which operations only the first run performs.  `Alike` relates programs that
  cannot tell such answers apart, with one rule for each way of building programs.

  Alike programs, run against coupled environments, have like outcomes and like logs
  (`Alike.exec`), and so have runs of calls made one at a time (`Serial.alike`).
-/

import Mtrader.Coroutine.Exec
import Mathlib.Data.List.Forall2

namespace Coroutine

variable {E : Type} {A : E → Type} {W W' X R R' S S' C : Type}

/-- What two runs may differ in. -/
structure Likeness {E : Type} (A : E → Type) (X : Type) where
  /-- An operation of the first run and the one of the second that corresponds to it. -/
  op : E → E → Prop
  ans : (e e' : E) → Except X (A e) → Except X (A e') → Prop
  /-- An operation of the first run alone, and the answers it may get. -/
  silent : (e : E) → Prop
  quiet : (e : E) → Except X (A e) → Prop

/-- Both return related values, or both raise the same. -/
inductive OutRel (V : R → R' → Prop) : Except X R → Except X R' → Prop
  | ok {r : R} {r' : R'} (h : V r r') : OutRel V (.ok r) (.ok r')
  | error (x : X) : OutRel V (.error x) (.error x)

theorem OutRel.refl {V : R → R → Prop} (hV : ∀ r, V r r) (out : Except X R) : OutRel V out out := by
  cases out with
  | ok r => exact .ok (hV r)
  | error x => exact .error x

theorem outRel_eq {out out' : Except X R} : OutRel Eq out out' ↔ out = out' := by
  constructor
  · intro h
    cases h with
    | ok h => rw [h]
    | error x => rfl
  · rintro rfl
    exact .refl (fun _ => rfl) _

theorem outRel_of_map_eq {f : R → S} {out out' : Except X R} (h : f <$> out = f <$> out') :
    OutRel (fun r r' => f r = f r') out out' := by
  cases out with
  | ok r =>
      cases out' with
      | ok r' => exact .ok (Except.ok.inj h)
      | error x => cases h
  | error x =>
      cases out' with
      | ok r' => cases h
      | error x' =>
          cases h
          exact .error x

/-- Two programs that cannot tell like answers apart. -/
inductive Alike (L : Likeness A X) (V : R → R' → Prop) : Prog A X R → Prog A X R' → Prop
  | ret {r : R} {r' : R'} (h : V r r') : Alike L V (.ret r) (.ret r')
  | raise (x : X) : Alike L V (.raise x) (.raise x)
  | call {e e' : E} {k : Except X (A e) → Prog A X R} {k' : Except X (A e') → Prog A X R'}
      (hop : L.op e e') (h : ∀ a a', L.ans e e' a a' → Alike L V (k a) (k' a')) :
      Alike L V (.call e k) (.call e' k')
  | silent {e : E} {k : Except X (A e) → Prog A X R} {p' : Prog A X R'}
      (hop : L.silent e) (h : ∀ a, L.quiet e a → Alike L V (k a) p') : Alike L V (.call e k) p'

variable {L : Likeness A X} {V : R → R' → Prop} {U : S → S' → Prop}

-- ============================================================================
-- Rules
-- ============================================================================

theorem Alike.ofExcept {r : Except X R} {r' : Except X R'} (h : OutRel V r r') :
    Alike L V (Prog.ofExcept r) (Prog.ofExcept r') := by
  cases h with
  | ok h => exact .ret h
  | error x => exact .raise x

theorem Alike.bind {p : Prog A X R} {p' : Prog A X R'} {f : R → Prog A X S}
    {f' : R' → Prog A X S'} (h : Alike L V p p')
    (hf : ∀ r r', V r r' → Alike L U (f r) (f' r')) : Alike L U (p >>= f) (p' >>= f') := by
  induction h with
  | ret h => exact hf _ _ h
  | raise x => exact .raise x
  | call hop _ ih => exact .call hop fun a a' ha => ih a a' ha
  | silent hop _ ih => exact .silent hop fun a ha => ih a ha

theorem Alike.attempt {p : Prog A X R} {p' : Prog A X R'} (h : Alike L V p p') :
    Alike L (OutRel V) p.attempt p'.attempt := by
  induction h with
  | ret h => exact .ret (.ok h)
  | raise x => exact .ret (.error x)
  | call hop _ ih => exact .call hop fun a a' ha => ih a a' ha
  | silent hop _ ih => exact .silent hop fun a ha => ih a ha

theorem Alike.andFinally {p : Prog A X R} {p' : Prog A X R'} {fin fin' : Prog A X Unit}
    (h : Alike L V p p') (hfin : Alike L (fun _ _ => True) fin fin') :
    Alike L V (p.andFinally fin) (p'.andFinally fin') :=
  h.attempt.bind fun _ _ hout => hfin.bind fun _ _ _ => .ofExcept hout

/-- One operation, whose like answers are related. -/
theorem Alike.op {e e' : E} {V : A e → A e' → Prop} (hop : L.op e e')
    (h : ∀ a a', L.ans e e' a a' → OutRel V a a') : Alike L V (Prog.op e) (Prog.op e') :=
  .call hop fun a a' ha => .ofExcept (h a a' ha)

/-- One operation and then the rest of the programs. -/
theorem Alike.op_bind {e e' : E} {V : A e → A e' → Prop} {f : A e → Prog A X S}
    {f' : A e' → Prog A X S'} (hop : L.op e e')
    (h : ∀ a a', L.ans e e' a a' → OutRel V a a')
    (hf : ∀ r r', V r r' → Alike L U (f r) (f' r')) :
    Alike L U (Prog.op e >>= f) (Prog.op e' >>= f') :=
  (Alike.op hop h).bind hf

-- ============================================================================
-- Executions
-- ============================================================================

/-- The operations of two logs, newest first, correspond but for the silent ones. -/
inductive LogRel (L : Likeness A X) : List (Event W A X) → List (Event W' A X) → Prop
  | nil : LogRel L [] []
  | both {w : W} {w' : W'} {e e' : E} {a : Except X (A e)} {a' : Except X (A e')}
      {log : List (Event W A X)} {log' : List (Event W' A X)} (hop : L.op e e')
      (h : LogRel L log log') : LogRel L (⟨w, e, a⟩ :: log) (⟨w', e', a'⟩ :: log')
  | silent {w : W} {e : E} {a : Except X (A e)} {log : List (Event W A X)}
      {log' : List (Event W' A X)} (hop : L.silent e) (h : LogRel L log log') :
      LogRel L (⟨w, e, a⟩ :: log) log'

/-- The environments give like answers in related worlds, and the silent operations of the
    first leave its world related. -/
structure Coupled (L : Likeness A X) (env : Env W A X) (env' : Env W' A X)
    (I : W → W' → Prop) : Prop where
  step : ∀ {w w' e e' a a' v v'}, I w w' → L.op e e' → env w e a v → env' w' e' a' v' →
    L.ans e e' a a' ∧ I v v'
  silent : ∀ {w w' e a v}, I w w' → L.silent e → env w e a v → L.quiet e a ∧ I v w'

variable {env : Env W A X} {env' : Env W' A X} {I : W → W' → Prop}

/-- Alike programs have like executions. -/
theorem Alike.exec (hc : Coupled L env env' I) {p : Prog A X R} {p' : Prog A X R'}
    (h : Alike L V p p') {t s : Trail W A X} {t' s' : Trail W' A X} {out : Except X R}
    {out' : Except X R'} (hp : Exec env t p out s) (hp' : Exec env' t' p' out' s')
    (hworld : I t.world t'.world) (hlog : LogRel L t.log t'.log) :
    OutRel V out out' ∧ I s.world s'.world ∧ LogRel L s.log s'.log := by
  induction h generalizing t t' with
  | ret h =>
      cases hp
      cases hp'
      exact ⟨.ok h, hworld, hlog⟩
  | raise x =>
      cases hp
      cases hp'
      exact ⟨.error x, hworld, hlog⟩
  | call hop _ ih =>
      obtain _ | _ | ⟨henv, hk⟩ := hp
      obtain _ | _ | ⟨henv', hk'⟩ := hp'
      obtain ⟨hans, hnext⟩ := hc.step hworld hop henv henv'
      exact ih _ _ hans hk hk' hnext (.both hop hlog)
  | silent hop _ ih =>
      obtain _ | _ | ⟨henv, hk⟩ := hp
      obtain ⟨hquiet, hnext⟩ := hc.silent hworld hop henv
      exact ih _ hquiet hk hp' hnext (.silent hop hlog)

/-- Two finished calls with like outcomes and like logs. -/
structure CallRel (L : Likeness A X) (V : R → R' → Prop) (c : Call C W A X R)
    (c' : Call C W' A X R') : Prop where
  call : c.call = c'.call
  out : OutRel V c.out c'.out
  log : LogRel L c.log c'.log

/-- Runs of the same calls, made one at a time by alike programs. -/
theorem Serial.alike {prog : C → Prog A X R} {prog' : C → Prog A X R'}
    (hc : Coupled L env env' I) (hprog : ∀ c, Alike L V (prog c) (prog' c)) {w₀ w : W}
    {w₀' w' : W'} {cs : List (Call C W A X R)} {cs' : List (Call C W' A X R')}
    (h : Serial env prog w₀ cs w) (h' : Serial env' prog' w₀' cs' w') (h₀ : I w₀ w₀')
    (hcalls : cs.map Call.call = cs'.map Call.call) :
    List.Forall₂ (CallRel L V) cs cs' ∧ I w w' := by
  induction h generalizing cs' w' with
  | nil =>
      cases h' with
      | nil => exact ⟨.nil, h₀⟩
      | cons _ _ => cases hcalls
  | @cons cs w v c log out hs hex ih =>
      cases h' with
      | nil => cases hcalls
      | @cons cs' u' v' c' log' out' hs' hex' =>
          obtain ⟨hcall, hrest⟩ := List.cons.inj hcalls
          obtain rfl : c = c' := hcall
          obtain ⟨hcs, hworld⟩ := ih hs' hrest
          obtain ⟨hout, hnext, hlog⟩ := (hprog c).exec hc hex hex' hworld .nil
          exact ⟨.cons ⟨rfl, hout, hlog⟩ hcs, hnext⟩

end Coroutine
