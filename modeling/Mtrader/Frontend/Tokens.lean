/-
  Mtrader.Frontend.Tokens

  Tokens that are to be used once.

  One place stores a token.  Parties use the token that is stored, and get fresh ones
  that they store later.  A stored token that was used is one whose use is still pending
  or has failed: a use that succeeds ends with a token in its place that was never used.
-/

import Mathlib.Data.List.Nodup
import Mathlib.Logic.Function.Basic

namespace Mtrader.Frontend

/-- What became of the last use of a party. -/
inductive Refresh
  | idle
  /-- It has read what is stored. -/
  | reading (token : Option String)
  | inFlight (token : Option String)
  | failed (token : Option String)
  deriving DecidableEq

/-- A party: its last use, and the tokens that it was given and has not stored yet. -/
structure Progress where
  refresh : Refresh := .idle
  held : List String := []
  deriving DecidableEq

/-- It is about to use what it has read. -/
def Progress.Reading (g : Progress) : Prop := ∃ token, g.refresh = .reading token

/-- Its use of the token is pending or has failed. -/
def Progress.Holding (g : Progress) (token : String) : Prop :=
  g.refresh = .inFlight (some token) ∨ g.refresh = .failed (some token)

instance (g : Progress) (token : String) : Decidable (g.Holding token) :=
  inferInstanceAs (Decidable (_ ∨ _))

variable {ι : Type}

structure Tokens (ι : Type) where
  stored : Option String
  issued : List String
  /-- Newest first. -/
  used : List String
  progress : ι → Progress

namespace Tokens

/-- What holds of the tokens at all times. -/
structure Safe (s : Tokens ι) : Prop where
  stored_issued : ∀ t, s.stored = some t → t ∈ s.issued
  used_issued : ∀ t ∈ s.used, t ∈ s.issued
  held_issued : ∀ j, ∀ t ∈ (s.progress j).held, t ∈ s.issued
  held_unused : ∀ j, ∀ t ∈ (s.progress j).held, t ∉ s.used
  held_unstored : ∀ j, ∀ t ∈ (s.progress j).held, s.stored ≠ some t
  held_nodup : ∀ j, (s.progress j).held.Nodup
  held_apart : ∀ j k t, t ∈ (s.progress j).held → t ∈ (s.progress k).held → j = k
  holding_used : ∀ j t, (s.progress j).Holding t → t ∈ s.used
  used_holding : ∀ t ∈ s.used, s.stored = some t → ∃ j, (s.progress j).Holding t

/-- The stored token was used exactly if a party is holding it. -/
theorem Safe.mem_used_iff {s : Tokens ι} {t : String} (hs : Safe s) (hstored : s.stored = some t) :
    t ∈ s.used ↔ ∃ j, (s.progress j).Holding t :=
  ⟨fun hused => hs.used_holding t hused hstored, fun ⟨j, hj⟩ => hs.holding_used j t hj⟩

theorem drop_safe {s : Tokens ι} (hs : Safe s) : Safe { s with stored := none } where
  stored_issued _ ht := nomatch ht
  used_issued := hs.used_issued
  held_issued := hs.held_issued
  held_unused := hs.held_unused
  held_unstored _ _ _ hstored := nomatch hstored
  held_nodup := hs.held_nodup
  held_apart := hs.held_apart
  holding_used := hs.holding_used
  used_holding _ _ hstored := nomatch hstored

variable [DecidableEq ι]

/-- Party `i` is now as in `g`. -/
def become (s : Tokens ι) (i : ι) (g : Progress) : Tokens ι :=
  { s with progress := Function.update s.progress i g }

/-- What party `i` can do. -/
inductive Move (s : Tokens ι) (i : ι) : Tokens ι → Prop
  /-- Nothing that matters here; a use may fail. -/
  | still {g : Progress} : g.held = (s.progress i).held →
      (∀ t, g.Holding t ↔ (s.progress i).Holding t) → Move s i (s.become i g)
  | issue {ts : List String} : ts.Nodup → (∀ t ∈ ts, t ∉ s.issued) →
      Move s i ({ s with issued := ts ++ s.issued }.become i
        { s.progress i with held := ts ++ (s.progress i).held })
  | store {t : String} : t ∈ (s.progress i).held →
      Move s i ({ s with stored := some t }.become i
        { refresh := .idle, held := (s.progress i).held.erase t })
  | drop : Move s i ({ s with stored := none }.become i (s.progress i))
  | use {t : String} : s.stored = some t →
      Move s i ({ s with used := t :: s.used }.become i
        { s.progress i with refresh := .inFlight (some t) })

section

variable {s s' : Tokens ι} {i : ι} {g : Progress} {t : String}

theorem become_self : (s.become i g).progress i = g := Function.update_self ..

theorem become_other {j : ι} (hne : j ≠ i) : (s.become i g).progress j = s.progress j :=
  Function.update_of_ne hne ..

/-- A party that keeps what it holds or only stores some of it. -/
theorem mem_held_become {j : ι} (hheld : ∀ t ∈ g.held, t ∈ (s.progress i).held)
    (ht : t ∈ ((s.become i g).progress j).held) : t ∈ (s.progress j).held := by
  by_cases hij : j = i
  · subst hij
    rw [become_self] at ht
    exact hheld t ht
  · rw [become_other hij] at ht
    exact ht

theorem still_safe (hs : Safe s) (hheld : g.held = (s.progress i).held)
    (hholding : ∀ t, g.Holding t ↔ (s.progress i).Holding t) : Safe (s.become i g) := by
  have hsame : ∀ j, ((s.become i g).progress j).held = (s.progress j).held ∧
      ∀ t, ((s.become i g).progress j).Holding t ↔ (s.progress j).Holding t := by
    intro j
    by_cases hij : j = i
    · subst hij
      rw [become_self]
      exact ⟨hheld, hholding⟩
    · rw [become_other hij]
      exact ⟨rfl, fun _ => Iff.rfl⟩
  exact {
    stored_issued := hs.stored_issued
    used_issued := hs.used_issued
    held_issued := fun j => (hsame j).1 ▸ hs.held_issued j
    held_unused := fun j => (hsame j).1 ▸ hs.held_unused j
    held_unstored := fun j => (hsame j).1 ▸ hs.held_unstored j
    held_nodup := fun j => (hsame j).1 ▸ hs.held_nodup j
    held_apart := fun j k => by
      rw [(hsame j).1, (hsame k).1]
      exact hs.held_apart j k
    holding_used := fun j t h => hs.holding_used j t (((hsame j).2 t).mp h)
    used_holding := fun t ht hstored => by
      obtain ⟨j, hj⟩ := hs.used_holding t ht hstored
      exact ⟨j, ((hsame j).2 t).mpr hj⟩ }

theorem issue_safe (hs : Safe s) {ts : List String} (hnodup : ts.Nodup)
    (hfresh : ∀ t ∈ ts, t ∉ s.issued) :
    Safe ({ s with issued := ts ++ s.issued }.become i
      { s.progress i with held := ts ++ (s.progress i).held }) := by
  have hfresh_used : ∀ t ∈ ts, t ∉ s.used := fun t ht hused => hfresh t ht (hs.used_issued t hused)
  have hfresh_held : ∀ t ∈ ts, ∀ j, t ∉ (s.progress j).held := fun t ht j hheld =>
    hfresh t ht (hs.held_issued j t hheld)
  -- A party holds what it held, or it is `i` and the token is one of the new ones.
  have hheld : ∀ j t, t ∈ (Function.update s.progress i
      { s.progress i with held := ts ++ (s.progress i).held } j).held →
      t ∈ (s.progress j).held ∨ j = i ∧ t ∈ ts := by
    intro j t ht
    by_cases hij : j = i
    · subst hij
      rw [Function.update_self] at ht
      exact (List.mem_append.mp ht).symm.imp_right fun ht => ⟨rfl, ht⟩
    · rw [Function.update_of_ne hij] at ht
      exact .inl ht
  have hholding : ∀ j t, (Function.update s.progress i
      { s.progress i with held := ts ++ (s.progress i).held } j).Holding t ↔
      (s.progress j).Holding t := by
    intro j t
    by_cases hij : j = i
    · subst hij
      rw [Function.update_self]
      exact Iff.rfl
    · rw [Function.update_of_ne hij]
  exact {
    stored_issued := fun t ht => List.mem_append_right _ (hs.stored_issued t ht)
    used_issued := fun t ht => List.mem_append_right _ (hs.used_issued t ht)
    held_issued := fun j t ht => by
      rcases hheld j t ht with ht | ⟨-, ht⟩
      · exact List.mem_append_right _ (hs.held_issued j t ht)
      · exact List.mem_append_left _ ht
    held_unused := fun j t ht => by
      rcases hheld j t ht with ht | ⟨-, ht⟩
      · exact hs.held_unused j t ht
      · exact hfresh_used t ht
    held_unstored := fun j t ht hstored => by
      rcases hheld j t ht with ht | ⟨-, ht⟩
      · exact hs.held_unstored j t ht hstored
      · exact hfresh t ht (hs.stored_issued t hstored)
    held_nodup := fun j => by
      by_cases hij : j = i
      · subst hij
        rw [become_self]
        refine List.nodup_append'.mpr ⟨hnodup, hs.held_nodup j, fun t ht hheld => ?_⟩
        exact hfresh_held t ht j hheld
      · rw [become_other hij]
        exact hs.held_nodup j
    held_apart := fun j k t hj hk => by
      rcases hheld j t hj with hold | ⟨hji, hnew⟩
      · rcases hheld k t hk with hold' | ⟨-, hnew'⟩
        · exact hs.held_apart j k t hold hold'
        · exact absurd hold (hfresh_held t hnew' j)
      · rcases hheld k t hk with hold' | ⟨hki, -⟩
        · exact absurd hold' (hfresh_held t hnew k)
        · rw [hji, hki]
    holding_used := fun j t h => hs.holding_used j t ((hholding j t).mp h)
    used_holding := fun t ht hstored => by
      obtain ⟨j, hj⟩ := hs.used_holding t ht hstored
      exact ⟨j, (hholding j t).mpr hj⟩ }

/-- What is stored now was never used. -/
theorem store_safe (hs : Safe s) (ht : t ∈ (s.progress i).held) :
    Safe ({ s with stored := some t }.become i
      { refresh := .idle, held := (s.progress i).held.erase t }) := by
  have hheld : ∀ j t', t' ∈ ((s.become i
      { refresh := .idle, held := (s.progress i).held.erase t }).progress j).held →
      t' ∈ (s.progress j).held := fun j t' ht' =>
    mem_held_become (fun _ h => List.mem_of_mem_erase h) ht'
  exact {
    stored_issued := fun t' ht' => by
      rw [← Option.some.inj ht']
      exact hs.held_issued i t ht
    used_issued := hs.used_issued
    held_issued := fun j t' ht' => hs.held_issued j t' (hheld j t' ht')
    held_unused := fun j t' ht' => hs.held_unused j t' (hheld j t' ht')
    held_unstored := fun j t' ht' hstored => by
      have htt' : t = t' := Option.some.inj hstored
      subst htt'
      have hji : j = i := hs.held_apart j i t (hheld j t ht') ht
      subst hji
      rw [become_self] at ht'
      exact List.Nodup.not_mem_erase (hs.held_nodup j) ht'
    held_nodup := fun j => by
      by_cases hij : j = i
      · subst hij
        rw [become_self]
        exact (hs.held_nodup j).erase t
      · rw [become_other hij]
        exact hs.held_nodup j
    held_apart := fun j k t' hj hk => hs.held_apart j k t' (hheld j t' hj) (hheld k t' hk)
    holding_used := fun j t' h => by
      by_cases hij : j = i
      · subst hij
        rw [become_self] at h
        rcases h with h | h <;> cases h
      · rw [become_other hij] at h
        exact hs.holding_used j t' h
    used_holding := fun t' hused hstored => by
      have htt' : t = t' := Option.some.inj hstored
      subst htt'
      exact absurd hused (hs.held_unused i t ht) }

theorem use_safe (hs : Safe s) (hstored : s.stored = some t) :
    Safe ({ s with used := t :: s.used }.become i
      { s.progress i with refresh := .inFlight (some t) }) := by
  have hheld : ∀ j t', t' ∈ ((s.become i
      { s.progress i with refresh := .inFlight (some t) }).progress j).held →
      t' ∈ (s.progress j).held := by
    intro j t' ht'
    refine mem_held_become (fun t' h => ?_) ht'
    exact h
  exact {
    stored_issued := hs.stored_issued
    used_issued := fun t' ht' => by
      rcases List.mem_cons.mp ht' with rfl | ht'
      · exact hs.stored_issued t' hstored
      · exact hs.used_issued t' ht'
    held_issued := fun j t' ht' => hs.held_issued j t' (hheld j t' ht')
    held_unused := fun j t' ht' hused => by
      rcases List.mem_cons.mp hused with rfl | hused
      · exact hs.held_unstored j t' (hheld j t' ht') hstored
      · exact hs.held_unused j t' (hheld j t' ht') hused
    held_unstored := fun j t' ht' => hs.held_unstored j t' (hheld j t' ht')
    held_nodup := fun j => by
      by_cases hij : j = i
      · subst hij
        rw [become_self]
        exact hs.held_nodup j
      · rw [become_other hij]
        exact hs.held_nodup j
    held_apart := fun j k t' hj hk => hs.held_apart j k t' (hheld j t' hj) (hheld k t' hk)
    holding_used := fun j t' h => by
      by_cases hij : j = i
      · subst hij
        rw [become_self] at h
        rcases h with h | h
        · cases h
          exact List.mem_cons_self
        · cases h
      · rw [become_other hij] at h
        exact List.mem_cons_of_mem _ (hs.holding_used j t' h)
    used_holding := fun t' _ hstored' => by
      rw [hstored] at hstored'
      rw [← Option.some.inj hstored']
      refine ⟨i, .inl ?_⟩
      rw [become_self] }

theorem Move.safe (hm : Move s i s') (hs : Safe s) : Safe s' := by
  cases hm with
  | still hheld hholding => exact still_safe hs hheld hholding
  | issue hnodup hfresh => exact issue_safe hs hnodup hfresh
  | store ht => exact store_safe hs ht
  | drop => exact still_safe (drop_safe hs) rfl fun _ => Iff.rfl
  | use hstored => exact use_safe hs hstored

end

end Tokens

end Mtrader.Frontend
