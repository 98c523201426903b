/-
  Mtrader.Kv.Collection

  Keys that hold collections, as Redis has them: an empty collection is no key, a
  command that empties one removes the key together with its lifetime, and a key
  whose deadline has come is as if it had been removed.

  `ZSet` is a sorted set: members, each with a score.
-/

import Mathlib.Data.Finset.Image
import Mathlib.Data.Finset.Card
import Mathlib.Algebra.Order.Group.Defs

namespace Collection

-- ============================================================================
-- Keys
-- ============================================================================

/-- A key: its collection, and the time from which it no longer exists, if any. -/
structure Held (T V : Type) where
  value : V
  deadline : Option T

variable {T V : Type}

section

variable [EmptyCollection V]

def Held.absent : Held T V := ⟨∅, none⟩

variable [LinearOrder T]

/-- The key as it is at time `now`. -/
def Held.at (k : Held T V) (now : T) : Held T V :=
  match k.deadline with
  | some d => if d ≤ now then .absent else k
  | none => k

/-- The collection at time `now`. -/
def Held.read (k : Held T V) (now : T) : V := (k.at now).value

/-- Change the collection at time `now`. -/
def Held.write [DecidableEq V] (k : Held T V) (now : T) (f : V → V) : Held T V :=
  if f (k.read now) = ∅ then .absent else ⟨f (k.read now), (k.at now).deadline⟩

/-- Give the key a lifetime from `now` on. -/
def Held.expire [DecidableEq V] [Zero T] [Add T] (k : Held T V) (now lifetime : T) : Held T V :=
  if k.read now = ∅ ∨ lifetime ≤ 0 then .absent else ⟨k.read now, some (now + lifetime)⟩

variable {k : Held T V} {now now' : T}

@[simp] theorem Held.read_absent : (Held.absent : Held T V).read now = ∅ := rfl

/-- A key without a deadline. -/
theorem Held.read_of_none (h : k.deadline = none) : k.read now = k.value := by
  rw [Held.read, Held.at, h]

theorem Held.read_of_some {d : T} (h : k.deadline = some d) :
    k.read now = if d ≤ now then ∅ else k.value := by
  rw [Held.read, Held.at, h]
  dsimp only
  split <;> rfl

/-- Time only removes. -/
theorem Held.read_later (hle : now ≤ now') : k.read now' = k.read now ∨ k.read now' = ∅ := by
  cases hd : k.deadline with
  | none => exact .inl (by rw [Held.read_of_none hd, Held.read_of_none hd])
  | some d =>
      rw [Held.read_of_some hd, Held.read_of_some hd]
      by_cases hpast : d ≤ now'
      · exact .inr (if_pos hpast)
      · rw [if_neg hpast, if_neg fun hd => hpast (hd.trans hle)]
        exact .inl rfl

/-- What is left of a key at `now` has a later deadline. -/
theorem Held.lt_of_deadline_at {d : T} (h : (k.at now).deadline = some d) : now < d := by
  unfold Held.at at h
  cases hd : k.deadline with
  | none =>
      rw [hd] at h
      exact absurd (hd.symm.trans h) nofun
  | some d' =>
      rw [hd] at h
      dsimp only at h
      by_cases hpast : d' ≤ now
      · rw [if_pos hpast] at h
        cases h
      · rw [if_neg hpast] at h
        cases hd.symm.trans h
        exact lt_of_not_ge hpast

variable [DecidableEq V] {f : V → V}

/-- A change is seen at once. -/
theorem Held.read_write : (k.write now f).read now = f (k.read now) := by
  unfold Held.write
  split
  next hempty => rw [Held.read_absent, hempty]
  next =>
    cases hd : (k.at now).deadline with
    | none => rfl
    | some d =>
        rw [Held.read_of_some rfl]
        exact if_neg (not_le_of_gt (Held.lt_of_deadline_at hd))

/-- A lifetime removes nothing, unless it is over at once. -/
theorem Held.read_expire_cases [Zero T] [Add T] {lifetime : T} :
    (k.expire now lifetime).read now = k.read now ∨ (k.expire now lifetime).read now = ∅ := by
  unfold Held.expire
  split
  next => exact .inr rfl
  next =>
    rw [Held.read_of_some rfl]
    split
    next => exact .inr rfl
    next => exact .inl rfl

/-- A change gives no deadline to a key that had none. -/
theorem Held.deadline_write (h : k.deadline = none) : (k.write now f).deadline = none := by
  unfold Held.write
  split
  next => rfl
  next =>
    show (k.at now).deadline = none
    rw [Held.at, h]
    exact h

end

-- ============================================================================
-- Sorted sets
-- ============================================================================

/-- A sorted set; each member has one score. -/
structure ZSet (M S : Type) where
  entries : Finset (M × S)
  single : ∀ p ∈ entries, ∀ q ∈ entries, p.1 = q.1 → p = q
  deriving DecidableEq

namespace ZSet

variable {M S : Type}

instance : EmptyCollection (ZSet M S) := ⟨⟨∅, nofun⟩⟩

@[simp] theorem entries_empty : (∅ : ZSet M S).entries = ∅ := rfl

/-- The number of members. -/
def card (z : ZSet M S) : ℕ := z.entries.card

/-- Add a member, or give it another score. -/
def add [DecidableEq M] [DecidableEq S] (z : ZSet M S) (m : M) (s : S) : ZSet M S where
  entries := insert (m, s) (z.entries.filter fun p => p.1 ≠ m)
  single := by
    intro p hp q hq heq
    rcases Finset.mem_insert.mp hp with rfl | hp
    · rcases Finset.mem_insert.mp hq with rfl | hq
      · rfl
      · exact absurd heq.symm (Finset.mem_filter.mp hq).2
    · rcases Finset.mem_insert.mp hq with rfl | hq
      · exact absurd heq (Finset.mem_filter.mp hp).2
      · exact z.single p (Finset.mem_filter.mp hp).1 q (Finset.mem_filter.mp hq).1 heq

/-- Remove the members whose scores lie between the bounds, inclusively. -/
def removeScores [LinearOrder S] (z : ZSet M S) (lo hi : S) : ZSet M S where
  entries := z.entries.filter fun p => ¬ (lo ≤ p.2 ∧ p.2 ≤ hi)
  single p hp q hq := z.single p (Finset.mem_filter.mp hp).1 q (Finset.mem_filter.mp hq).1

variable {z : ZSet M S} {m : M} {s : S} {p : M × S}

theorem mem_add [DecidableEq M] [DecidableEq S] :
    p ∈ (z.add m s).entries ↔ p = (m, s) ∨ p ∈ z.entries ∧ p.1 ≠ m := by
  rw [add, Finset.mem_insert, Finset.mem_filter]

theorem mem_removeScores [LinearOrder S] {lo hi : S} :
    p ∈ (z.removeScores lo hi).entries ↔ p ∈ z.entries ∧ ¬ (lo ≤ p.2 ∧ p.2 ≤ hi) :=
  Finset.mem_filter

end ZSet

end Collection
