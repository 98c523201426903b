/-
  Mtrader.Windows.Grouped

  The elements of a list by a key, and products over them.

  Where some keys are those of all elements, the products of the groups multiply to the
  product of the list, whatever other keys there are: their groups are empty.
-/

import Mathlib.Algebra.BigOperators.Group.List.Basic

namespace Windows

variable {α T M : Type} [DecidableEq T] [CommMonoid M] (key : α → T)

/-- The elements under the key `k`. -/
def group (k : T) (xs : List α) : List α := xs.filter fun x => key x = k

variable {key} {f : α → M}

theorem prod_group_cons (k : T) (x : α) (xs : List α) :
    ((group key k (x :: xs)).map f).prod =
      (if key x = k then f x else 1) * ((group key k xs).map f).prod := by
  unfold group
  by_cases hkey : key x = k
  · rw [List.filter_cons_of_pos (by simpa using hkey), List.map_cons, List.prod_cons, if_pos hkey]
  · rw [List.filter_cons_of_neg (by simpa using hkey), if_neg hkey, one_mul]

/-- One of the keys is that of an element. -/
theorem prod_indicator {ks : List T} (hnodup : ks.Nodup) {k : T} (hk : k ∈ ks) (m : M) :
    (ks.map fun k' => if k = k' then m else 1).prod = m := by
  induction ks with
  | nil => cases hk
  | cons k₀ ks ih =>
      obtain ⟨hnot, hrest⟩ := List.nodup_cons.mp hnodup
      rw [List.map_cons, List.prod_cons]
      by_cases hhead : k = k₀
      · have hones : ∀ k' ∈ ks, (if k = k' then m else 1) = 1 := by
          intro k' hk'
          have hne : k ≠ k' := by
            rintro rfl
            exact hnot (hhead ▸ hk')
          exact if_neg hne
        rw [if_pos hhead, List.map_congr_left hones, List.prod_map_one, mul_one]
      · have hk' : k ∈ ks := (List.mem_cons.mp hk).resolve_left hhead
        rw [if_neg hhead, one_mul, ih hrest hk']

variable (key f) in
/-- The products of the groups multiply to the product of all elements. -/
theorem prod_groups {ks : List T} (hnodup : ks.Nodup) {xs : List α} (hkeys : ∀ x ∈ xs, key x ∈ ks) :
    (ks.map fun k => ((group key k xs).map f).prod).prod = (xs.map f).prod := by
  induction xs with
  | nil =>
      have hone : ∀ k, ((group key k ([] : List α)).map f).prod = 1 := fun k => rfl
      simp only [hone, List.prod_map_one, List.map_nil, List.prod_nil]
  | cons x xs ih =>
      have hrest := ih fun y hy => hkeys y (List.mem_cons_of_mem x hy)
      simp only [prod_group_cons, List.prod_map_mul, hrest]
      rw [prod_indicator hnodup (hkeys x List.mem_cons_self), List.map_cons, List.prod_cons]

end Windows
