/-
  Mtrader.Kv.Expiring

  A key-value store whose keys expire: a key set at time `s` with lifetime `n`
  exists from `s` until `s + n`, exclusively.  Setting a key again replaces its
  value and its lifetime.
-/

import Mathlib.Logic.Function.Basic
import Mathlib.Data.Int.Order.Basic

namespace Expiring

/-- A stored value and the time from which it no longer exists. -/
structure Entry (V : Type) where
  value : V
  expiry : ℤ

structure Store (K V : Type) where
  entries : K → Option (Entry V)

variable {K V : Type}

def Store.empty : Store K V := ⟨fun _ => none⟩

/-- The value of a key at time `now`. -/
def Store.get (s : Store K V) (now : ℤ) (k : K) : Option V :=
  match s.entries k with
  | some e => if now < e.expiry then some e.value else none
  | none => none

/-- The key exists at time `now`. -/
def Store.Live (s : Store K V) (now : ℤ) (k : K) : Prop := (s.get now k).isSome

instance (s : Store K V) (now : ℤ) (k : K) : Decidable (s.Live now k) :=
  inferInstanceAs (Decidable ((s.get now k).isSome = true))

/-- Set a key at time `now`, for `ex` units of time. -/
def Store.set [DecidableEq K] (s : Store K V) (now : ℤ) (k : K) (v : V) (ex : ℤ) : Store K V :=
  ⟨Function.update s.entries k (some ⟨v, now + ex⟩)⟩

variable {s : Store K V} {now now' ex : ℤ} {k k' : K} {v : V}

theorem Store.get_eq_some :
    s.get now k = some v ↔ ∃ e, s.entries k = some e ∧ e.value = v ∧ now < e.expiry := by
  unfold Store.get
  cases s.entries k with
  | none => simp
  | some e =>
      by_cases h : now < e.expiry
      · simp [h]
      · simp [h]

theorem Store.live_iff : s.Live now k ↔ ∃ e, s.entries k = some e ∧ now < e.expiry := by
  rw [Store.Live, Option.isSome_iff_exists]
  constructor
  · rintro ⟨v, hv⟩
    obtain ⟨e, he, -, hlt⟩ := Store.get_eq_some.mp hv
    exact ⟨e, he, hlt⟩
  · rintro ⟨e, he, hlt⟩
    exact ⟨e.value, Store.get_eq_some.mpr ⟨e, he, rfl, hlt⟩⟩

@[simp] theorem Store.get_empty : (Store.empty : Store K V).get now k = none := rfl

@[simp] theorem Store.not_live_empty : ¬ (Store.empty : Store K V).Live now k := nofun

/-- What exists and is not set again existed at every earlier time. -/
theorem Store.Live.earlier (h : s.Live now' k) (hle : now ≤ now') : s.Live now k := by
  obtain ⟨e, he, hlt⟩ := Store.live_iff.mp h
  exact Store.live_iff.mpr ⟨e, he, lt_of_le_of_lt hle hlt⟩

section

variable [DecidableEq K]

theorem Store.entries_set_self : (s.set now k v ex).entries k = some ⟨v, now + ex⟩ :=
  Function.update_self _ _ _

theorem Store.entries_set_of_ne (h : k' ≠ k) : (s.set now k v ex).entries k' = s.entries k' :=
  Function.update_of_ne h _ _

theorem Store.get_set_of_ne (h : k' ≠ k) : (s.set now k v ex).get now' k' = s.get now' k' := by
  rw [Store.get, Store.get, Store.entries_set_of_ne h]

theorem Store.live_set_of_ne (h : k' ≠ k) :
    (s.set now k v ex).Live now' k' ↔ s.Live now' k' := by
  rw [Store.Live, Store.Live, Store.get_set_of_ne h]

/-- A key that was set exists exactly until its lifetime is over. -/
theorem Store.get_set_self :
    (s.set now k v ex).get now' k = if now' < now + ex then some v else none := by
  rw [Store.get, Store.entries_set_self]

theorem Store.live_set_self : (s.set now k v ex).Live now' k ↔ now' < now + ex := by
  rw [Store.Live, Store.get_set_self]
  split <;> simp_all

end

end Expiring
