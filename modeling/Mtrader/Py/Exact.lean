/-
  Mtrader.Py.Exact

  The float primitives in exact arithmetic, as the operations of `ℚ`.
-/

import Mtrader.Py.Value
import Mathlib.Tactic.Linarith

namespace Py

@[simp] theorem lt_rat (a b : ℚ) : Prims.lt a b = decide (a < b) := rfl

@[simp] theorem le_rat (a b : ℚ) : Prims.le a b = decide (a ≤ b) := rfl

@[simp] theorem ofRat_rat (q : ℚ) : (Prims.ofRat q : ℚ) = q := rfl

@[simp] theorem abs_rat (q : ℚ) : Prims.abs q = |q| := rfl

@[simp] theorem round_rat (q : ℚ) : Prims.round q = some (roundHalfEven q) := rfl

@[simp] theorem isZero_rat (q : ℚ) : isZero q = decide (q = 0) := by
  simp only [isZero, le_rat, ofRat_rat, ← Bool.decide_and]
  exact decide_eq_decide.mpr ⟨fun h => le_antisymm h.1 h.2, fun h => ⟨h.le, h.ge⟩⟩

end Py
