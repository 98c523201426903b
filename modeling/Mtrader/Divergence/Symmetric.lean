/-
  Mtrader.Divergence.Symmetric

  The divergence of two lists of positive numbers, in any ordered field with a logarithm.

  Each term `(x - y) * log (x / y)` is positive unless `x = y`, whatever the numbers add up
  to.  So the divergence is not negative (`divergence_nonneg`), it is zero for equal lists
  only (`divergence_eq_zero_iff`), and it has no direction (`divergence_comm`).
-/

import Mathlib.Algebra.Order.Field.Basic
import Mathlib.Tactic.Ring

namespace Divergence

variable {F : Type} [Field F] {log : F → F}

variable (log) in
/-- `sum((p - q) * log(p / q))` -/
def divergence (p q : List F) : F :=
  (List.zipWith (fun x y => (x - y) * log (x / y)) p q).sum

theorem divergence_cons {x y : F} {p q : List F} :
    divergence log (x :: p) (y :: q) = (x - y) * log (x / y) + divergence log p q := by
  rw [divergence, List.zipWith_cons_cons, List.sum_cons]
  rfl

variable [LinearOrder F]

/-- What is used of a logarithm. -/
structure IsLog (log : F → F) : Prop where
  pos : ∀ x, 1 < x → 0 < log x
  inv : ∀ x, log x⁻¹ = -log x
  one : log 1 = 0

/-- A term is the same in both directions. -/
theorem term_comm (hlog : IsLog log) (x y : F) :
    (x - y) * log (x / y) = (y - x) * log (y / x) := by
  have hinv : log (x / y) = -log (y / x) := by
    rw [← hlog.inv, inv_div]
  rw [hinv]
  ring

theorem term_self (hlog : IsLog log) {x : F} (hx : x ≠ 0) : (x - x) * log (x / x) = 0 := by
  rw [div_self hx, hlog.one, mul_zero]

theorem divergence_comm (hlog : IsLog log) (p q : List F) :
    divergence log p q = divergence log q p := by
  induction p generalizing q with
  | nil =>
      cases q with
      | nil => rfl
      | cons y q => rfl
  | cons x p ih =>
      cases q with
      | nil => rfl
      | cons y q => rw [divergence_cons, divergence_cons, ih, term_comm hlog]

variable [IsStrictOrderedRing F]

/-- The sign of the logarithm is that of the difference. -/
theorem term_pos_of_lt (hlog : IsLog log) {x y : F} (hx : 0 < x) (hlt : x < y) :
    0 < (y - x) * log (y / x) := by
  have hratio : 1 < y / x := (one_lt_div hx).mpr hlt
  exact mul_pos (sub_pos.mpr hlt) (hlog.pos _ hratio)

theorem term_pos (hlog : IsLog log) {x y : F} (hx : 0 < x) (hy : 0 < y) (hne : x ≠ y) :
    0 < (x - y) * log (x / y) := by
  rcases lt_or_gt_of_ne hne with hlt | hgt
  · rw [term_comm hlog]
    exact term_pos_of_lt hlog hx hlt
  · exact term_pos_of_lt hlog hy hgt

theorem term_nonneg (hlog : IsLog log) {x y : F} (hx : 0 < x) (hy : 0 < y) :
    0 ≤ (x - y) * log (x / y) := by
  by_cases hxy : x = y
  · rw [hxy, term_self hlog hy.ne']
  · exact (term_pos hlog hx hy hxy).le

variable {p q : List F}

theorem divergence_nonneg (hlog : IsLog log) (hp : ∀ x ∈ p, 0 < x) (hq : ∀ x ∈ q, 0 < x) :
    0 ≤ divergence log p q := by
  induction p generalizing q with
  | nil => exact le_refl _
  | cons x p ih =>
      cases q with
      | nil => exact le_refl _
      | cons y q =>
          obtain ⟨hx, hp⟩ := List.forall_mem_cons.mp hp
          obtain ⟨hy, hq⟩ := List.forall_mem_cons.mp hq
          rw [divergence_cons]
          exact add_nonneg (term_nonneg hlog hx hy) (ih hp hq)

/-- No term can make up for another. -/
theorem divergence_eq_zero_iff (hlog : IsLog log) (hlength : p.length = q.length)
    (hp : ∀ x ∈ p, 0 < x) (hq : ∀ x ∈ q, 0 < x) : divergence log p q = 0 ↔ p = q := by
  induction p generalizing q with
  | nil =>
      rw [List.eq_nil_of_length_eq_zero hlength.symm]
      exact iff_of_true rfl rfl
  | cons x p ih =>
      cases q with
      | nil => cases hlength
      | cons y q =>
          obtain ⟨hx, hp⟩ := List.forall_mem_cons.mp hp
          obtain ⟨hy, hq⟩ := List.forall_mem_cons.mp hq
          have hrest := divergence_nonneg hlog hp hq
          rw [divergence_cons, List.cons.injEq, ← ih (Nat.succ.inj hlength) hp hq]
          by_cases hxy : x = y
          · rw [hxy, term_self hlog hy.ne', zero_add, eq_self_iff_true, true_and]
          · have hterm := term_pos hlog hx hy hxy
            exact iff_of_false (add_pos_of_pos_of_nonneg hterm hrest).ne' fun h => hxy h.1

end Divergence
