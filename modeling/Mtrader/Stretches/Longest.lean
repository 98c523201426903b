/-
  Mtrader.Stretches.Longest

  Stretches of consecutive indices in a finite set.

  The longest stretch is as long as the set is large exactly when the set has no gap.  The
  elements of a list that pass a test are counted as the set of their indices.
-/

import Mathlib.Order.Interval.Finset.Nat
import Mathlib.Data.Finset.Max

namespace Stretches

variable {S : Finset ℕ} {i n : ℕ}

/-- The `n` indices from `i` on are in the set. -/
def IsStretch (S : Finset ℕ) (i n : ℕ) : Prop := Finset.Ico i (i + n) ⊆ S

/-- The length of the longest stretch. -/
def IsLongest (S : Finset ℕ) (n : ℕ) : Prop := IsGreatest {m | ∃ i, IsStretch S i m} n

/-- What lies between two indices of the set is in the set. -/
def Unbroken (S : Finset ℕ) : Prop := ∀ a ∈ S, ∀ c ∈ S, ∀ b, a ≤ b → b ≤ c → b ∈ S

theorem IsStretch.le_card (h : IsStretch S i n) : n ≤ S.card := by
  have hcard := Finset.card_le_card h
  rw [Nat.card_Ico] at hcard
  omega

/-- A stretch as long as the set is the set. -/
theorem IsStretch.eq_of_card (h : IsStretch S i S.card) : Finset.Ico i (i + S.card) = S := by
  apply Finset.eq_of_subset_of_card_le h
  rw [Nat.card_Ico]
  omega

/-- A set without gaps is a stretch. -/
theorem Unbroken.exists_isStretch (h : Unbroken S) : ∃ i, IsStretch S i S.card := by
  rcases S.eq_empty_or_nonempty with rfl | hne
  · exact ⟨0, fun j hj => by simp at hj⟩
  · have hmin := S.min'_mem hne
    have hmax := S.max'_mem hne
    have hicc : S = Finset.Icc (S.min' hne) (S.max' hne) := by
      ext j
      rw [Finset.mem_Icc]
      constructor
      · intro hj
        exact ⟨S.min'_le j hj, S.le_max' j hj⟩
      · rintro ⟨hlo, hhi⟩
        exact h _ hmin _ hmax j hlo hhi
    have hcard : S.card = S.max' hne + 1 - S.min' hne := by
      conv_lhs => rw [hicc]
      exact Nat.card_Icc _ _
    have hle : S.min' hne ≤ S.max' hne := S.min'_le _ hmax
    refine ⟨S.min' hne, fun j hj => ?_⟩
    rw [Finset.mem_Ico] at hj
    exact h _ hmin _ hmax j hj.1 (by omega)

theorem isLongest_card_iff : IsLongest S S.card ↔ Unbroken S := by
  constructor
  · rintro ⟨⟨i, hi⟩, -⟩ a ha c hc b hab hbc
    rw [← hi.eq_of_card, Finset.mem_Ico] at ha hc ⊢
    omega
  · intro h
    refine ⟨h.exists_isStretch, ?_⟩
    rintro m ⟨i, hi⟩
    exact hi.le_card

theorem length_filter_eq_card {α : Type} (p : α → Bool) (xs : List α) :
    (xs.filter p).length = ((Finset.range xs.length).filter fun i => xs[i]?.any p).card := by
  induction xs using List.reverseRecOn with
  | nil => rfl
  | append_singleton xs x ih =>
      have hbefore : ((Finset.range xs.length).filter fun i => (xs ++ [x])[i]?.any p) =
          (Finset.range xs.length).filter fun i => xs[i]?.any p := by
        apply Finset.filter_congr
        intro i hi
        rw [List.getElem?_append_left (Finset.mem_range.mp hi)]
      rw [List.filter_append, List.length_append, ih, List.length_append, List.length_singleton,
        Finset.range_add_one, Finset.filter_insert, hbefore, List.getElem?_concat_length,
        Option.any_some]
      by_cases hx : p x
      · rw [if_pos hx, Finset.card_insert_of_notMem (by simp), List.filter_cons_of_pos hx]
        rfl
      · rw [if_neg hx, List.filter_cons_of_neg hx]
        rfl

end Stretches
