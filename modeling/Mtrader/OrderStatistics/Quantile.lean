/-
  Mtrader.OrderStatistics.Quantile

  Quantiles of a sample, interpolated linearly between its order statistics, and the means
  of its tails.

  An interpolation of a monotone sequence is monotone, so that a quantile grows with its
  level.  The mean of a tail is at most the bound of the tail and grows with it, because
  what a longer tail adds is above the mean of the shorter one.
-/

import Mathlib.Algebra.Order.Floor.Semiring
import Mathlib.Algebra.Order.Field.Basic
import Mathlib.Algebra.Order.BigOperators.Group.List
import Mathlib.Data.List.GetD
import Mathlib.Data.List.Sort
import Mathlib.Tactic.Linarith

namespace OrderStatistics

-- ============================================================================
-- Tails
-- ============================================================================

section

variable {F : Type} [LinearOrder F] {xs : List F} {x b : F}

/-- The elements up to a bound. -/
def tail (xs : List F) (b : F) : List F := xs.filter (· ≤ b)

theorem mem_tail : x ∈ tail xs b ↔ x ∈ xs ∧ x ≤ b := by
  simp [tail]

theorem tail_cons_of_le (h : x ≤ b) : tail (x :: xs) b = x :: tail xs b :=
  List.filter_cons_of_pos (decide_eq_true h)

theorem tail_cons_of_lt (h : b < x) : tail (x :: xs) b = tail xs b :=
  List.filter_cons_of_neg (by simpa using h)

end

variable {F : Type} [Field F] [LinearOrder F] [IsStrictOrderedRing F]

-- ============================================================================
-- Interpolation
-- ============================================================================

section

variable [FloorSemiring F] {a : ℕ → F} {x y : F}

/-- A sequence between its indices. -/
def interpolate (a : ℕ → F) (x : F) : F := a ⌊x⌋₊ + (x - ⌊x⌋₊) * (a (⌊x⌋₊ + 1) - a ⌊x⌋₊)

theorem le_interpolate (ha : Monotone a) (hx : 0 ≤ x) : a ⌊x⌋₊ ≤ interpolate a x := by
  have hfloor := Nat.floor_le hx
  have hstep : a ⌊x⌋₊ ≤ a (⌊x⌋₊ + 1) := ha (Nat.le_succ _)
  have hmul : 0 ≤ (x - ⌊x⌋₊) * (a (⌊x⌋₊ + 1) - a ⌊x⌋₊) :=
    mul_nonneg (sub_nonneg.mpr hfloor) (sub_nonneg.mpr hstep)
  unfold interpolate
  linarith

theorem interpolate_le (ha : Monotone a) (x : F) : interpolate a x ≤ a (⌊x⌋₊ + 1) := by
  have hfloor := (Nat.lt_floor_add_one x).le
  have hstep : a ⌊x⌋₊ ≤ a (⌊x⌋₊ + 1) := ha (Nat.le_succ _)
  have hmul := mul_le_mul_of_nonneg_right (sub_le_iff_le_add'.mpr hfloor) (sub_nonneg.mpr hstep)
  unfold interpolate
  linarith

theorem interpolate_mono (ha : Monotone a) (hx : 0 ≤ x) (hxy : x ≤ y) :
    interpolate a x ≤ interpolate a y := by
  rcases (Nat.floor_mono hxy).lt_or_eq with hlt | heq
  · calc interpolate a x ≤ a (⌊x⌋₊ + 1) := interpolate_le ha x
      _ ≤ a ⌊y⌋₊ := ha hlt
      _ ≤ interpolate a y := le_interpolate ha (hx.trans hxy)
  · have hstep : a ⌊y⌋₊ ≤ a (⌊y⌋₊ + 1) := ha (Nat.le_succ _)
    have hmul := mul_le_mul_of_nonneg_right (sub_le_sub_right hxy (⌊y⌋₊ : F))
      (sub_nonneg.mpr hstep)
    unfold interpolate
    rw [heq]
    linarith

-- ============================================================================
-- Quantiles
-- ============================================================================

/-- The order statistics of a sample, the last one repeated. -/
def orderStatistic (xs : List F) (i : ℕ) : F :=
  (xs.insertionSort (· ≤ ·)).getD (min i (xs.length - 1)) 0

/-- The quantile of a sample at a level. -/
def quantile (xs : List F) (q : F) : F :=
  interpolate (orderStatistic xs) (((xs.length - 1 : ℕ) : F) * q)

variable {xs : List F} {q q' : F}

omit [IsStrictOrderedRing F] [FloorSemiring F] in
theorem orderStatistic_mem (hne : xs ≠ []) (i : ℕ) : orderStatistic xs i ∈ xs := by
  have hpos := List.length_pos_iff.mpr hne
  have hi : min i (xs.length - 1) < (xs.insertionSort (· ≤ ·)).length := by
    rw [List.length_insertionSort]
    omega
  rw [orderStatistic, List.getD_eq_getElem _ _ hi]
  exact (List.perm_insertionSort _ xs).mem_iff.mp (List.getElem_mem hi)

omit [IsStrictOrderedRing F] [FloorSemiring F] in
theorem orderStatistic_mono (xs : List F) : Monotone (orderStatistic xs) := by
  intro i j hij
  rcases Nat.eq_zero_or_pos xs.length with hzero | hpos
  · rw [orderStatistic, orderStatistic, hzero]
    simp
  · have hlength : (xs.insertionSort (· ≤ ·)).length = xs.length := List.length_insertionSort _ xs
    have hi : min i (xs.length - 1) < (xs.insertionSort (· ≤ ·)).length := by omega
    have hj : min j (xs.length - 1) < (xs.insertionSort (· ≤ ·)).length := by omega
    rw [orderStatistic, orderStatistic, List.getD_eq_getElem _ _ hi, List.getD_eq_getElem _ _ hj]
    exact List.sortedLE_insertionSort.getElem_le_getElem_of_le (min_le_min_right _ hij)

theorem quantile_mono (xs : List F) (hq : 0 ≤ q) (hqq : q ≤ q') :
    quantile xs q ≤ quantile xs q' := by
  have hlength : (0 : F) ≤ ((xs.length - 1 : ℕ) : F) := Nat.cast_nonneg _
  exact interpolate_mono (orderStatistic_mono xs) (mul_nonneg hlength hq)
    (mul_le_mul_of_nonneg_left hqq hlength)

/-- An element of the sample is at most the quantile. -/
theorem exists_le_quantile (hne : xs ≠ []) (hq : 0 ≤ q) : ∃ x ∈ xs, x ≤ quantile xs q :=
  ⟨_, orderStatistic_mem hne _,
    le_interpolate (orderStatistic_mono xs) (mul_nonneg (Nat.cast_nonneg _) hq)⟩

/-- An element of the sample is at least the quantile. -/
theorem exists_quantile_le (hne : xs ≠ []) (q : F) : ∃ x ∈ xs, quantile xs q ≤ x :=
  ⟨_, orderStatistic_mem hne _, interpolate_le (orderStatistic_mono xs) _⟩

end

-- ============================================================================
-- Means of tails
-- ============================================================================

/-- The mean of a sample. -/
def mean (xs : List F) : F := xs.sum / xs.length

variable {xs : List F} {b b' m : F}

theorem length_pos (hne : xs ≠ []) : (0 : F) < xs.length :=
  Nat.cast_pos.mpr (List.length_pos_iff.mpr hne)

theorem mean_le (hne : xs ≠ []) (h : ∀ x ∈ xs, x ≤ b) : mean xs ≤ b := by
  have hsum := List.sum_le_card_nsmul xs b h
  rw [nsmul_eq_mul, mul_comm] at hsum
  exact (div_le_iff₀ (length_pos hne)).mpr hsum

theorem le_mean (hne : xs ≠ []) (h : ∀ x ∈ xs, b ≤ x) : b ≤ mean xs := by
  have hsum := List.card_nsmul_le_sum xs b h
  rw [nsmul_eq_mul, mul_comm] at hsum
  exact (le_div_iff₀ (length_pos hne)).mpr hsum

/-- A longer tail adds only what is above `m`. -/
theorem sum_tail_sub_le (hm : m ≤ b) (hbb : b ≤ b') :
    (tail xs b).sum - (tail xs b).length * m ≤ (tail xs b').sum - (tail xs b').length * m := by
  induction xs with
  | nil => exact le_refl _
  | cons x xs ih =>
      rcases le_or_gt x b with hx | hx
      · rw [tail_cons_of_le hx, tail_cons_of_le (hx.trans hbb)]
        simp only [List.sum_cons, List.length_cons, Nat.cast_succ]
        linarith
      · rw [tail_cons_of_lt hx]
        rcases le_or_gt x b' with hx' | hx'
        · rw [tail_cons_of_le hx']
          simp only [List.sum_cons, List.length_cons, Nat.cast_succ]
          linarith
        · rw [tail_cons_of_lt hx']
          exact ih

theorem mean_tail_mono (hne : tail xs b ≠ []) (hbb : b ≤ b') :
    mean (tail xs b) ≤ mean (tail xs b') := by
  have hsub : ∀ x ∈ tail xs b, x ∈ tail xs b' := by
    intro x hx
    obtain ⟨hmem, hle⟩ := mem_tail.mp hx
    exact mem_tail.mpr ⟨hmem, hle.trans hbb⟩
  have hne' : tail xs b' ≠ [] := by
    obtain ⟨x, hx⟩ := List.exists_mem_of_ne_nil _ hne
    exact List.ne_nil_of_mem (hsub x hx)
  have hm : mean (tail xs b) ≤ b := mean_le hne fun x hx => (mem_tail.mp hx).2
  have hmean : (tail xs b).sum = (tail xs b).length * mean (tail xs b) := by
    rw [mean, mul_div_assoc', mul_div_cancel_left₀ _ (length_pos hne).ne']
  have hsum : (tail xs b).sum - (tail xs b).length * mean (tail xs b) ≤
      (tail xs b').sum - (tail xs b').length * mean (tail xs b) := sum_tail_sub_le hm hbb
  rw [hmean, sub_self, sub_nonneg, mul_comm] at hsum
  exact (le_div_iff₀ (length_pos hne')).mpr hsum

end OrderStatistics
