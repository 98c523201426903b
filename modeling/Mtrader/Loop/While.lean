/-
  Mtrader.Loop.While

  Loops that go round as long as their condition holds.

  A turn evaluates the condition and, if it holds, the body.  `Ends` is the execution of
  the loop, with no bound on the number of turns; that it ends at all is `ends_of_variant`.
  `before` is the state in which a turn begins, by the number of the turn.
-/

import Mathlib.Data.Nat.Init

namespace Loop

variable {ε σ α : Type}

/-- A turn fails, leaves the loop, or goes on with a value and the next state. -/
abbrev Turn (ε σ α : Type) : Type := σ → Except ε (Option (α × σ))

/-- The loop ends after `n` turns that have gone on, with the values of these turns. -/
inductive Ends (turn : Turn ε σ α) : ℕ → σ → Except ε (List α) → Prop
  | fail {s : σ} {e : ε} (h : turn s = .error e) : Ends turn 0 s (.error e)
  | leave {s : σ} (h : turn s = .ok none) : Ends turn 0 s (.ok [])
  | next {n : ℕ} {s s' : σ} {a : α} {out : Except ε (List α)} (h : turn s = .ok (some (a, s')))
      (hrest : Ends turn n s' out) : Ends turn (n + 1) s (out.map fun as => a :: as)

/-- The state in which turn number `n` begins; none when the loop has been left. -/
def before (turn : Turn ε σ α) : ℕ → σ → Except ε (Option σ)
  | 0, s => .ok (some s)
  | n + 1, s =>
      match turn s with
      | .error e => .error e
      | .ok none => .ok none
      | .ok (some (_, s')) => before turn n s'

variable {turn : Turn ε σ α}

/-- A loop whose turns decrease a variant ends, and makes no more turns than that. -/
theorem ends_of_variant (variant : σ → ℕ)
    (hturn : ∀ s a s', turn s = .ok (some (a, s')) → variant s' < variant s) (s : σ) :
    ∃ n ≤ variant s, ∃ out, Ends turn n s out := by
  induction hv : variant s using Nat.strong_induction_on generalizing s with
  | h v ih =>
      cases hs : turn s with
      | error e => exact ⟨0, Nat.zero_le v, _, .fail hs⟩
      | ok o =>
          cases o with
          | none => exact ⟨0, Nat.zero_le v, _, .leave hs⟩
          | some next =>
              obtain ⟨a, s'⟩ := next
              have hlt : variant s' < v := by
                rw [← hv]
                exact hturn s a s' hs
              obtain ⟨n, hn, out, hends⟩ := ih _ hlt s' rfl
              exact ⟨n + 1, Nat.lt_of_le_of_lt hn hlt, _, .next hs hends⟩

/-- A loop ends in one way. -/
theorem Ends.unique {n n' : ℕ} {s : σ} {out out' : Except ε (List α)} (h : Ends turn n s out)
    (h' : Ends turn n' s out') : n = n' ∧ out = out' := by
  induction h generalizing n' out' with
  | fail h =>
      cases h' with
      | fail h₁ =>
          rw [h] at h₁
          cases h₁
          exact ⟨rfl, rfl⟩
      | leave h₁ => cases h.symm.trans h₁
      | next h₁ => cases h.symm.trans h₁
  | leave h =>
      cases h' with
      | fail h₁ => cases h.symm.trans h₁
      | leave h₁ => exact ⟨rfl, rfl⟩
      | next h₁ => cases h.symm.trans h₁
  | next h _ ih =>
      cases h' with
      | fail h₁ => cases h.symm.trans h₁
      | leave h₁ => cases h.symm.trans h₁
      | next h₁ hrest =>
          cases h.symm.trans h₁
          obtain ⟨rfl, rfl⟩ := ih hrest
          exact ⟨rfl, rfl⟩

/-- Two loops whose turns lead to the same states, as long as both do not fail. -/
theorem before_congr {β : Type} {turn' : Turn ε σ β}
    (hturn : ∀ s o o', turn s = .ok o → turn' s = .ok o' → o.map Prod.snd = o'.map Prod.snd)
    {n : ℕ} {s : σ} {o o' : Option σ} (h : before turn n s = .ok o)
    (h' : before turn' n s = .ok o') : o = o' := by
  induction n generalizing s with
  | zero =>
      cases h
      cases h'
      rfl
  | succ n ih =>
      rw [before] at h h'
      cases hs : turn s with
      | error e =>
          rw [hs] at h
          cases h
      | ok next =>
          cases hs' : turn' s with
          | error e =>
              rw [hs'] at h'
              cases h'
          | ok next' =>
              have hnext := hturn s next next' hs hs'
              rw [hs] at h
              rw [hs'] at h'
              cases next with
              | none =>
                  obtain rfl : next' = none := Option.map_eq_none_iff.mp hnext.symm
                  cases h
                  cases h'
                  rfl
              | some next =>
                  obtain ⟨⟨b, s₁⟩, rfl, hs₁⟩ := Option.map_eq_some_iff.mp hnext.symm
                  obtain rfl : s₁ = next.2 := hs₁
                  exact ih h h'

/-- The values that a loop yields are those of its turns. -/
theorem Ends.turn_of_lt {n : ℕ} {s : σ} {out : Except ε (List α)} (h : Ends turn n s out)
    {as : List α} (hout : out = .ok as) :
    n = as.length ∧ (∀ i (hi : i < as.length), ∃ s₁ s₂, before turn i s = .ok (some s₁) ∧
      turn s₁ = .ok (some (as[i], s₂))) ∧
      ∃ s', before turn n s = .ok (some s') ∧ turn s' = .ok none := by
  induction h generalizing as with
  | fail h => cases hout
  | leave h =>
      cases hout
      exact ⟨rfl, fun i hi => absurd hi (Nat.not_lt_zero i), _, rfl, h⟩
  | @next n s s' a rest h _ ih =>
      cases rest with
      | error e => cases hout
      | ok as' =>
          obtain ⟨hn, hall, slast, hlast, hleave⟩ := ih rfl
          cases hout
          refine ⟨congrArg Nat.succ hn, fun i hi => ?_, slast, ?_, hleave⟩
          · cases i with
            | zero => exact ⟨s, s', rfl, h⟩
            | succ i =>
                obtain ⟨s₁, s₂, hs₁, hs₂⟩ := hall i (Nat.lt_of_succ_lt_succ hi)
                refine ⟨s₁, s₂, ?_, hs₂⟩
                rw [before, h]
                exact hs₁
          · rw [before, h]
            exact hlast

theorem Ends.of_leave {n : ℕ} {s : σ} {out : Except ε (List α)} (h : Ends turn n s out)
    (hleave : turn s = .ok none) : n = 0 ∧ out = .ok [] := h.unique (.leave hleave)

end Loop
