/-
  Mtrader.Windows.Sorted

  Half-open windows of a sorted list.

  A window `(lo, hi)` selects the elements with `lo ≤ key < hi`.  Windows that meet
  select, one after the other, what the window from the first start to the last end
  selects.
-/

import Mathlib.Order.Lattice
import Mathlib.Data.List.Chain

namespace Windows

variable {α T : Type} [LinearOrder T] (key : α → T)

/-- The elements from `lo` on and before `hi`. -/
def within (lo hi : T) (xs : List α) : List α := xs.filter fun x => lo ≤ key x ∧ key x < hi

/-- Every window ends where the next one begins. -/
def Meeting (ws : List (T × T)) : Prop := ws.IsChain fun w w' => w.2 = w'.1

/-- The end of the last of some windows, of which `w` is the first. -/
def lastEnd : T × T → List (T × T) → T
  | w, [] => w.2
  | _, v :: ws => lastEnd v ws

variable {key} {xs : List α}

theorem within_append (hsorted : xs.Pairwise fun x y => key x ≤ key y) {lo mid hi : T}
    (hlo : lo ≤ mid) (hhi : mid ≤ hi) :
    within key lo mid xs ++ within key mid hi xs = within key lo hi xs := by
  induction xs with
  | nil => rfl
  | cons x xs ih =>
      obtain ⟨hx, hxs⟩ := List.pairwise_cons.mp hsorted
      have ih := ih hxs
      unfold within at ih ⊢
      rcases lt_or_ge (key x) mid with hbefore | hafter
      · -- `x` is in the first window, or in none
        have hnot : ¬ mid ≤ key x := not_le.mpr hbefore
        by_cases hin : lo ≤ key x
        · simpa [List.filter_cons, hin, hbefore, hnot, hbefore.trans_le hhi] using ih
        · simpa [List.filter_cons, hin, hnot] using ih
      · -- nothing from `x` on is in the first window
        have hnone : (x :: xs).filter (fun x => lo ≤ key x ∧ key x < mid) = [] := by
          refine List.filter_eq_nil_iff.mpr fun y hy hwin => ?_
          obtain ⟨-, hlt⟩ := of_decide_eq_true hwin
          rcases List.mem_cons.mp hy with rfl | hy
          · exact absurd hlt (not_lt.mpr hafter)
          · exact absurd hlt (not_lt.mpr (hafter.trans (hx y hy)))
        rw [hnone, List.nil_append]
        refine List.filter_congr fun y hy => ?_
        have hge : mid ≤ key y := by
          rcases List.mem_cons.mp hy with rfl | hy
          · exact hafter
          · exact hafter.trans (hx y hy)
        simp [hge, hlo.trans hge]

/-- Windows that meet go forwards. -/
theorem le_lastEnd {w : T × T} {ws : List (T × T)} (hle : ∀ v ∈ w :: ws, v.1 ≤ v.2)
    (hmeet : Meeting (w :: ws)) : w.1 ≤ lastEnd w ws := by
  induction ws generalizing w with
  | nil => exact hle w List.mem_cons_self
  | cons v ws ih =>
      obtain ⟨hwv, hrest⟩ := List.isChain_cons_cons.mp hmeet
      have hrec := ih (fun u hu => hle u (List.mem_cons_of_mem _ hu)) hrest
      rw [← hwv] at hrec
      exact (hle w List.mem_cons_self).trans hrec

/-- Windows that meet select, from the first start to the last end, every element once. -/
theorem flatMap_within (hsorted : xs.Pairwise fun x y => key x ≤ key y) {w : T × T}
    {ws : List (T × T)} (hle : ∀ v ∈ w :: ws, v.1 ≤ v.2) (hmeet : Meeting (w :: ws)) :
    (w :: ws).flatMap (fun v => within key v.1 v.2 xs) = within key w.1 (lastEnd w ws) xs := by
  induction ws generalizing w with
  | nil => simp [lastEnd]
  | cons v ws ih =>
      obtain ⟨hwv, hrest⟩ := List.isChain_cons_cons.mp hmeet
      have hlater : ∀ u ∈ v :: ws, u.1 ≤ u.2 := fun u hu => hle u (List.mem_cons_of_mem _ hu)
      have hend := le_lastEnd hlater hrest
      rw [List.flatMap_cons, ih hlater hrest, hwv]
      rw [← hwv] at hend
      have happend := within_append hsorted (hle w List.mem_cons_self) hend
      rw [hwv] at happend
      exact happend

end Windows
