/-
  Mtrader.Orm.Table

  A table with a serial primary key: every row has a number of its own, and a number
  is given out once.
-/

import Mathlib.Data.List.Nodup
import Mathlib.Data.Nat.Basic

namespace Orm

/-- A row with its number. -/
structure Stored (R : Type) where
  id : ℕ
  val : R
  deriving DecidableEq, Repr

/-- `seq` is the number that the next row gets. -/
structure Table (R : Type) where
  rows : List (Stored R)
  seq : ℕ
  below : ∀ r ∈ rows, r.id < seq
  nodup : (rows.map Stored.id).Nodup

namespace Table

variable {R : Type} (t : Table R)

def empty : Table R where
  rows := []
  seq := 1
  below := nofun
  nodup := List.nodup_nil

/-- `INSERT`. -/
def insert (v : R) : Table R where
  rows := t.rows ++ [⟨t.seq, v⟩]
  seq := t.seq + 1
  below := by
    intro r hr
    rw [List.mem_append, List.mem_singleton] at hr
    rcases hr with hr | rfl
    · have hlt := t.below r hr
      omega
    · exact Nat.lt_succ_self t.seq
  nodup := by
    rw [List.map_append, List.map_singleton, List.nodup_append]
    refine ⟨t.nodup, List.nodup_singleton _, ?_⟩
    intro a ha b hb
    rw [List.mem_map] at ha
    rw [List.mem_singleton] at hb
    obtain ⟨r, hr, rfl⟩ := ha
    rw [hb]
    exact Nat.ne_of_lt (t.below r hr)

/-- `UPDATE … WHERE id = k`. -/
def update (k : ℕ) (f : R → R) : Table R where
  rows := t.rows.map fun r => if r.id = k then ⟨r.id, f r.val⟩ else r
  seq := t.seq
  below := by
    intro r hr
    rw [List.mem_map] at hr
    obtain ⟨r', hr', rfl⟩ := hr
    have hlt := t.below r' hr'
    split <;> exact hlt
  nodup := by
    rw [List.map_map]
    have hid : (Stored.id ∘ fun r : Stored R => if r.id = k then ⟨r.id, f r.val⟩ else r) =
        Stored.id := by
      funext r
      rw [Function.comp_apply]
      split <;> rfl
    rw [hid]
    exact t.nodup

/-- `DELETE … WHERE id = k`. -/
def delete (k : ℕ) : Table R where
  rows := t.rows.filter fun r => r.id ≠ k
  seq := t.seq
  below := fun r hr => t.below r (List.mem_of_mem_filter hr)
  nodup := t.nodup.sublist (List.filter_sublist.map _)

/-- `db.scalar(select(…).where(p))`: the first row that matches. -/
def select (p : Stored R → Bool) : Option (Stored R) := t.rows.find? p

/-- `db.get(R, k)`. -/
def get (k : ℕ) : Option (Stored R) := t.select fun r => r.id = k

variable {t}

theorem select_eq_some {p : Stored R → Bool} {r : Stored R} (h : t.select p = some r) :
    r ∈ t.rows ∧ p r = true :=
  ⟨List.mem_of_find?_eq_some h, List.find?_some h⟩

theorem select_eq_none {p : Stored R → Bool} :
    t.select p = none ↔ ∀ r ∈ t.rows, p r = false := by
  rw [select, List.find?_eq_none]
  simp only [Bool.not_eq_true]

/-- Rows with the same number are the same row. -/
theorem eq_of_id {r r' : Stored R} (hr : r ∈ t.rows) (hr' : r' ∈ t.rows) (h : r.id = r'.id) :
    r = r' :=
  List.inj_on_of_nodup_map t.nodup hr hr' h

theorem mem_insert {v : R} {r : Stored R} :
    r ∈ (t.insert v).rows ↔ r ∈ t.rows ∨ r = ⟨t.seq, v⟩ := by
  rw [insert, List.mem_append, List.mem_singleton]

theorem mem_update {k : ℕ} {f : R → R} {r : Stored R} :
    r ∈ (t.update k f).rows ↔
      (r ∈ t.rows ∧ r.id ≠ k) ∨ ∃ r₀ ∈ t.rows, r₀.id = k ∧ r = ⟨k, f r₀.val⟩ := by
  rw [update, List.mem_map]
  constructor
  · rintro ⟨r₀, hr₀, rfl⟩
    by_cases hk : r₀.id = k
    · exact Or.inr ⟨r₀, hr₀, hk, by rw [if_pos hk, hk]⟩
    · rw [if_neg hk]
      exact Or.inl ⟨hr₀, hk⟩
  · rintro (⟨hr, hk⟩ | ⟨r₀, hr₀, hk, rfl⟩)
    · exact ⟨r, hr, if_neg hk⟩
    · exact ⟨r₀, hr₀, by rw [if_pos hk, hk]⟩

theorem mem_delete {k : ℕ} {r : Stored R} :
    r ∈ (t.delete k).rows ↔ r ∈ t.rows ∧ r.id ≠ k := by
  rw [delete, List.mem_filter, decide_eq_true_iff]

@[simp] theorem ids_update {k : ℕ} {f : R → R} :
    (t.update k f).rows.map Stored.id = t.rows.map Stored.id := by
  rw [update, List.map_map]
  congr 1
  funext r
  rw [Function.comp_apply]
  split <;> rfl

end Table

end Orm
