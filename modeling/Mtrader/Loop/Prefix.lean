/-
  Mtrader.Loop.Prefix

  Loops over a sequence whose body sees the elements up to the current one, and
  may fail.

  Such a loop is causal: `run_split` cuts it anywhere, and what it has computed at
  the cut depends on the elements before the cut alone.  `run_invariant` is the
  induction rule; its invariant speaks of the elements seen so far.  `run_related` is
  the same rule for two loops over the same elements.
-/

import Mathlib.Data.List.Basic

namespace Loop

variable {ε α S : Type}

/-- `for x in rest`, after the elements `seen`; a body that fails ends the loop. -/
def run (body : List α → α → S → Except ε S) : List α → List α → S → Except ε S
  | _, [], s => .ok s
  | seen, x :: rest, s => do
      let s' ← body seen x s
      run body (seen ++ [x]) rest s'

variable {body : List α → α → S → Except ε S} {seen rest : List α} {x : α} {s s' : S}

theorem run_cons_eq_ok :
    run body seen (x :: rest) s = .ok s' ↔
      ∃ s₁, body seen x s = .ok s₁ ∧ run body (seen ++ [x]) rest s₁ = .ok s' := by
  rw [run]
  cases body seen x s with
  | error e => exact ⟨nofun, fun ⟨_, h, _⟩ => nomatch h⟩
  | ok s₁ => exact ⟨fun h => ⟨s₁, rfl, h⟩, fun ⟨_, h, hrun⟩ => by cases h; exact hrun⟩

/-- What holds before the loop and is kept by its body holds after it. -/
theorem run_invariant {I : List α → S → Prop} (h : run body seen rest s = .ok s')
    (h₀ : I seen s)
    (hstep : ∀ seen x s s', I seen s → body seen x s = .ok s' → I (seen ++ [x]) s') :
    I (seen ++ rest) s' := by
  induction rest generalizing seen s with
  | nil =>
      cases h
      rw [List.append_nil]
      exact h₀
  | cons x rest ih =>
      obtain ⟨s₁, hbody, hrest⟩ := run_cons_eq_ok.mp h
      have hI := ih hrest (hstep _ _ _ _ h₀ hbody)
      rw [List.append_assoc, List.singleton_append] at hI
      exact hI

/-- A loop that has ended has been at every point before. -/
theorem run_split (xs : List α) (h : run body seen (xs ++ rest) s = .ok s') :
    ∃ s₁, run body seen xs s = .ok s₁ ∧ run body (seen ++ xs) rest s₁ = .ok s' := by
  induction xs generalizing seen s with
  | nil =>
      rw [List.append_nil]
      exact ⟨s, rfl, h⟩
  | cons x xs ih =>
      obtain ⟨s₁, hbody, hrest⟩ := run_cons_eq_ok.mp h
      obtain ⟨s₂, hxs, hrest⟩ := ih hrest
      rw [List.append_assoc, List.singleton_append] at hrest
      exact ⟨s₂, run_cons_eq_ok.mpr ⟨s₁, hbody, hxs⟩, hrest⟩

/-- Two loops over the same elements: what relates their states before and is kept by their
    bodies relates them after, and the second ends when the first does. -/
theorem run_related {S' ε' : Type} {body' : List α → α → S' → Except ε' S'} {R : S → S' → Prop}
    {t : S'} (h : run body seen rest s = .ok s') (h₀ : R s t)
    (hstep : ∀ seen, ∀ x ∈ rest, ∀ s t s', R s t → body seen x s = .ok s' →
      ∃ t', body' seen x t = .ok t' ∧ R s' t') :
    ∃ t', run body' seen rest t = .ok t' ∧ R s' t' := by
  induction rest generalizing seen s t with
  | nil =>
      cases h
      exact ⟨t, rfl, h₀⟩
  | cons x rest ih =>
      obtain ⟨s₁, hbody, hrest⟩ := run_cons_eq_ok.mp h
      obtain ⟨t₁, hbody', h₁⟩ := hstep _ x List.mem_cons_self _ _ _ h₀ hbody
      obtain ⟨t', hrest', h'⟩ := ih hrest h₁ fun seen y hy =>
        hstep seen y (List.mem_cons_of_mem x hy)
      exact ⟨t', run_cons_eq_ok.mpr ⟨t₁, hbody', hrest'⟩, h'⟩

end Loop
