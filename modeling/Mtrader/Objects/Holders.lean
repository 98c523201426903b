/-
  Mtrader.Objects.Holders

  Mutable objects with two holders.

  Every object is made with a value and handed to one of two holders: it is kept or lent.
  A holder may write the objects it has, at any time, and no others; so nothing the
  borrower does shows in the kept objects (`Alike.writeLent`).
-/

import Mathlib.Logic.Function.Basic
import Mathlib.Order.Basic

namespace Objects

variable {V : Type}

/-- The objects made so far and who has them, newest first. -/
structure Store (V : Type) where
  read : ℕ → V
  next : ℕ
  kept : List ℕ
  lent : List ℕ
  kept_lt : ∀ r ∈ kept, r < next
  lent_lt : ∀ r ∈ lent, r < next
  separate : ∀ r ∈ kept, r ∉ lent

namespace Store

/-- No objects yet. -/
def empty (v : V) : Store V where
  read _ := v
  next := 0
  kept := []
  lent := []
  kept_lt := by simp
  lent_lt := by simp
  separate := by simp

/-- Make an object and keep it. -/
def keep (o : Store V) (v : V) : Store V where
  read := Function.update o.read o.next v
  next := o.next + 1
  kept := o.next :: o.kept
  lent := o.lent
  kept_lt r hr := by
    rcases List.mem_cons.mp hr with rfl | hr
    · omega
    · have := o.kept_lt r hr
      omega
  lent_lt r hr := by
    have := o.lent_lt r hr
    omega
  separate r hr hlent := by
    rcases List.mem_cons.mp hr with rfl | hr
    · have := o.lent_lt _ hlent
      omega
    · exact o.separate r hr hlent

/-- Make an object and lend it. -/
def lend (o : Store V) (v : V) : Store V where
  read := Function.update o.read o.next v
  next := o.next + 1
  kept := o.kept
  lent := o.next :: o.lent
  kept_lt r hr := by
    have := o.kept_lt r hr
    omega
  lent_lt r hr := by
    rcases List.mem_cons.mp hr with rfl | hr
    · omega
    · have := o.lent_lt r hr
      omega
  separate r hr hlent := by
    rcases List.mem_cons.mp hlent with rfl | hlent
    · have := o.kept_lt _ hr
      omega
    · exact o.separate r hr hlent

/-- The objects with other values. -/
def write (o : Store V) (read : ℕ → V) : Store V := { o with read := read }

end Store

variable {R : V → V → Prop} {o o' : Store V}

/-- The kept objects of two stores are the same ones, with related values. -/
structure Alike (R : V → V → Prop) (o o' : Store V) : Prop where
  next : o.next = o'.next
  kept : o.kept = o'.kept
  read : ∀ r ∈ o.kept, R (o.read r) (o'.read r)

theorem Alike.refl (hR : ∀ v, R v v) (o : Store V) : Alike R o o := ⟨rfl, rfl, fun _ _ => hR _⟩

/-- A kept object is not the one that is made next. -/
theorem Store.read_update_next (o : Store V) (v : V) {r : ℕ} (hr : r ∈ o.kept) :
    Function.update o.read o.next v r = o.read r := by
  have hlt := o.kept_lt r hr
  have hne : r ≠ o.next := by omega
  exact Function.update_of_ne hne v o.read

theorem Alike.keep (h : Alike R o o') {v v' : V} (hv : R v v') :
    Alike R (o.keep v) (o'.keep v') := by
  refine ⟨?_, ?_, fun r hr => ?_⟩
  · show o.next + 1 = o'.next + 1
    rw [h.next]
  · show o.next :: o.kept = o'.next :: o'.kept
    rw [h.next, h.kept]
  · show R (Function.update o.read o.next v r) (Function.update o'.read o'.next v' r)
    rcases List.mem_cons.mp hr with rfl | hr
    · rw [← h.next, Function.update_self, Function.update_self]
      exact hv
    · rw [o.read_update_next v hr, o'.read_update_next v' (h.kept ▸ hr)]
      exact h.read r hr

theorem Alike.lend (h : Alike R o o') (v v' : V) : Alike R (o.lend v) (o'.lend v') := by
  refine ⟨?_, h.kept, fun r hr => ?_⟩
  · show o.next + 1 = o'.next + 1
    rw [h.next]
  · show R (Function.update o.read o.next v r) (Function.update o'.read o'.next v' r)
    have hkept : r ∈ o.kept := hr
    rw [o.read_update_next v hkept, o'.read_update_next v' (h.kept ▸ hkept)]
    exact h.read r hkept

theorem Alike.write (h : Alike R o o') {read read' : ℕ → V}
    (hread : ∀ r ∈ o.kept, R (read r) (read' r)) : Alike R (o.write read) (o'.write read') :=
  ⟨h.next, h.kept, hread⟩

/-- What the borrower writes does not show. -/
theorem Alike.writeLent (h : Alike R o o') {read : ℕ → V}
    (hread : ∀ r, r ∉ o.lent → read r = o.read r) : Alike R (o.write read) o' := by
  refine ⟨h.next, h.kept, fun r hr => ?_⟩
  show R (read r) (o'.read r)
  rw [hread r (o.separate r hr)]
  exact h.read r hr

end Objects
