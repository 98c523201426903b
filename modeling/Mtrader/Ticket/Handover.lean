/-
  Mtrader.Ticket.Handover

  Tickets that are spent once, where whoever spends one issues the next of its family.

  A family has a baton: its unspent ticket, or the party that is going to issue the
  next one.  If no party finds a ticket unspent while another is about to spend it, then
  no family has two batons and no ticket two spenders (`State.Single`).
-/

import Mathlib.Logic.Function.Basic
import Mathlib.Data.Set.Insert

namespace Ticket

variable {T F ι : Type}

/-- What a party is about. -/
inductive Hand (T F : Type)
  | empty
  /-- It is going to issue the first ticket of a family. -/
  | reserved (f : F)
  /-- It has found the ticket unspent. -/
  | checked (t : T)
  /-- It has spent the ticket and owes the next one. -/
  | spent (t : T)
  /-- It has issued the ticket after `t`. -/
  | renewed (t : T)

structure State (T F ι : Type) where
  issued : Set T
  spent : Set T
  hand : ι → Hand T F

/-- The party has spent the ticket. -/
def State.Spender (s : State T F ι) (i : ι) (t : T) : Prop :=
  s.hand i = .spent t ∨ s.hand i = .renewed t

/-- The batons of a family. -/
inductive State.Baton (family : T → F) (s : State T F ι) : F → T ⊕ ι → Prop
  | ticket {t : T} (hissued : t ∈ s.issued) (hunspent : t ∉ s.spent) :
      Baton family s (family t) (.inl t)
  | reserved {i : ι} {f : F} (hhand : s.hand i = .reserved f) : Baton family s f (.inr i)
  | owed {i : ι} {t : T} (hhand : s.hand i = .spent t) : Baton family s (family t) (.inr i)

/-- No ticket has two spenders, and no family two batons. -/
structure State.Single (family : T → F) (s : State T F ι) : Prop where
  checked_mem : ∀ i t, s.hand i = .checked t → t ∈ s.issued ∧ t ∉ s.spent
  checked_alone : ∀ i j t, s.hand i = .checked t → s.hand j = .checked t → i = j
  spender_mem : ∀ i t, s.Spender i t → t ∈ s.issued ∧ t ∈ s.spent
  spender_alone : ∀ i j t, s.Spender i t → s.Spender j t → i = j
  baton_unique : ∀ f b b', s.Baton family f b → s.Baton family f b' → b = b'

variable [DecidableEq ι] {family : T → F}

/-- One move of party `i`. -/
inductive Step (family : T → F) (s : State T F ι) (i : ι) : State T F ι → Prop
  | reserve {f : F} (hhand : s.hand i = .empty) (hissued : ∀ t ∈ s.issued, family t ≠ f)
      (hothers : ∀ j, s.hand j ≠ .reserved f) :
      Step family s i { s with hand := Function.update s.hand i (.reserved f) }
  | start {t : T} (hhand : s.hand i = .reserved (family t)) :
      Step family s i
        { s with issued := insert t s.issued, hand := Function.update s.hand i .empty }
  | check {t : T} (hhand : s.hand i = .empty) (hissued : t ∈ s.issued) (hunspent : t ∉ s.spent)
      (hothers : ∀ j, s.hand j ≠ .checked t) :
      Step family s i { s with hand := Function.update s.hand i (.checked t) }
  | spend {t : T} {spent : Set T} (hhand : s.hand i = .checked t)
      (hspent : ∀ t' ∈ s.issued, t' ∈ spent ↔ t' ∈ s.spent ∨ t' = t) :
      Step family s i { s with spent := spent, hand := Function.update s.hand i (.spent t) }
  | renew {t t' : T} (hhand : s.hand i = .spent t) (hfamily : family t' = family t) :
      Step family s i
        { s with issued := insert t' s.issued, hand := Function.update s.hand i (.renewed t) }

variable {s s' : State T F ι} {i j : ι}

-- ============================================================================
-- Hands
-- ============================================================================

theorem update_eq {g : ι → Hand T F} {x y : Hand T F} (h : Function.update g i x j = y) :
    (j = i ∧ x = y) ∨ (j ≠ i ∧ g j = y) := by
  by_cases hji : j = i
  · subst hji
    rw [Function.update_self] at h
    exact .inl ⟨rfl, h⟩
  · rw [Function.update_of_ne hji] at h
    exact .inr ⟨hji, h⟩

/-- A hand that holds nothing else after the move was held before it. -/
theorem hand_of_update {g : ι → Hand T F} {x y : Hand T F} (h : Function.update g i x j = y)
    (hne : x ≠ y) : j ≠ i ∧ g j = y :=
  (update_eq h).resolve_left fun hx => hne hx.2

/-- A move after which the party is no spender makes none. -/
theorem spender_of_update {issued spent : Set T} {x : Hand T F} {t : T}
    (h : State.Spender ⟨issued, spent, Function.update s.hand i x⟩ j t)
    (hspent : x ≠ .spent t) (hrenewed : x ≠ .renewed t) : s.Spender j t := by
  rcases h with h | h
  · exact .inl (hand_of_update h hspent).2
  · exact .inr (hand_of_update h hrenewed).2

/-- There is still one holder at most, if a new one comes only where there was none. -/
theorem alone_of_new {α : Type} {P P' : α → Prop} {n : α} {new : Prop}
    (hold : ∀ x, P' x → (x = n ∧ new) ∨ P x) (hnew : new → ∀ x, ¬ P x)
    (halone : ∀ x y, P x → P y → x = y) : ∀ x y, P' x → P' y → x = y := by
  intro x y hx hy
  rcases hold x hx with ⟨hxn, hnew'⟩ | hx
  · rcases hold y hy with ⟨hyn, -⟩ | hy
    · rw [hxn, hyn]
    · exact absurd hy (hnew hnew' y)
  · rcases hold y hy with ⟨-, hnew'⟩ | hy
    · exact absurd hx (hnew hnew' x)
    · exact halone x y hx hy

-- ============================================================================
-- Batons
-- ============================================================================

omit [DecidableEq ι] in
/-- A baton that goes from one hand to another stays the only one. -/
theorem State.Single.pass {f : F} {b n : T ⊕ ι} (hs : s.Single family)
    (hb : s.Baton family f b)
    (hpass : ∀ g x, s'.Baton family g x → (x = n ∧ g = f) ∨ (s.Baton family g x ∧ x ≠ b)) :
    ∀ g x y, s'.Baton family g x → s'.Baton family g y → x = y := by
  intro g x y hx hy
  rcases hpass g x hx with ⟨rfl, rfl⟩ | ⟨hx, hxb⟩
  · rcases hpass _ y hy with ⟨rfl, -⟩ | ⟨hy, hyb⟩
    · rfl
    · exact absurd (hs.baton_unique _ y b hy hb) hyb
  · rcases hpass g y hy with ⟨rfl, rfl⟩ | ⟨hy, -⟩
    · exact absurd (hs.baton_unique _ x b hx hb) hxb
    · exact hs.baton_unique g x y hx hy

theorem State.Single.reserve {f : F} (hs : s.Single family)
    (hissued : ∀ t ∈ s.issued, family t ≠ f) (hothers : ∀ j, s.hand j ≠ .reserved f) :
    State.Single family { s with hand := Function.update s.hand i (.reserved f) } := by
  -- The family has had no baton.
  have hnone : ∀ b, ¬ s.Baton family f b := by
    intro b hb
    cases hb with
    | ticket ht _ => exact hissued _ ht rfl
    | reserved hj => exact hothers _ hj
    | owed hj => exact hissued _ (hs.spender_mem _ _ (.inl hj)).1 rfl
  have hold : ∀ g b, State.Baton family { s with hand := Function.update s.hand i (.reserved f) }
      g b → (b = .inr i ∧ g = f) ∨ s.Baton family g b := by
    intro g b hb
    cases hb with
    | ticket ht hunspent => exact .inr (.ticket ht hunspent)
    | reserved hj =>
        rcases update_eq hj with ⟨rfl, hf⟩ | ⟨-, hj⟩
        · cases hf
          exact .inl ⟨rfl, rfl⟩
        · exact .inr (.reserved hj)
    | owed hj => exact .inr (.owed (hand_of_update hj nofun).2)
  refine ⟨?_, ?_, ?_, ?_, ?_⟩
  · intro j t hj
    exact hs.checked_mem j t (hand_of_update hj nofun).2
  · intro j k t hj hk
    exact hs.checked_alone j k t (hand_of_update hj nofun).2 (hand_of_update hk nofun).2
  · intro j t hj
    exact hs.spender_mem j t (spender_of_update hj nofun nofun)
  · intro j k t hj hk
    exact hs.spender_alone j k t (spender_of_update hj nofun nofun)
      (spender_of_update hk nofun nofun)
  · intro g
    apply alone_of_new (hold g) _ (hs.baton_unique g)
    intro hgf
    rw [hgf]
    exact hnone

theorem State.Single.start {t : T} (hs : s.Single family)
    (hhand : s.hand i = .reserved (family t)) :
    State.Single family
      { s with issued := insert t s.issued, hand := Function.update s.hand i .empty } := by
  refine ⟨?_, ?_, ?_, ?_, ?_⟩
  · intro j t' hj
    obtain ⟨hissued, hunspent⟩ := hs.checked_mem j t' (hand_of_update hj nofun).2
    exact ⟨Set.mem_insert_of_mem _ hissued, hunspent⟩
  · intro j k t' hj hk
    exact hs.checked_alone j k t' (hand_of_update hj nofun).2 (hand_of_update hk nofun).2
  · intro j t' hj
    obtain ⟨hissued, hspent⟩ := hs.spender_mem j t' (spender_of_update hj nofun nofun)
    exact ⟨Set.mem_insert_of_mem _ hissued, hspent⟩
  · intro j k t' hj hk
    exact hs.spender_alone j k t' (spender_of_update hj nofun nofun)
      (spender_of_update hk nofun nofun)
  · apply hs.pass (n := .inl t) (.reserved hhand)
    intro g x hx
    cases hx with
    | ticket ht hunspent =>
        rcases Set.mem_insert_iff.mp ht with rfl | ht
        · exact .inl ⟨rfl, rfl⟩
        · exact .inr ⟨.ticket ht hunspent, nofun⟩
    | reserved hj =>
        obtain ⟨hji, hj⟩ := hand_of_update hj nofun
        exact .inr ⟨.reserved hj, fun heq => hji (Sum.inr.inj heq)⟩
    | owed hj =>
        obtain ⟨hji, hj⟩ := hand_of_update hj nofun
        exact .inr ⟨.owed hj, fun heq => hji (Sum.inr.inj heq)⟩

theorem State.Single.check {t : T} (hs : s.Single family) (hissued : t ∈ s.issued)
    (hunspent : t ∉ s.spent) (hothers : ∀ j, s.hand j ≠ .checked t) :
    State.Single family { s with hand := Function.update s.hand i (.checked t) } := by
  refine ⟨?_, ?_, ?_, ?_, ?_⟩
  · intro j t' hj
    rcases update_eq hj with ⟨-, ht⟩ | ⟨-, hj⟩
    · cases ht
      exact ⟨hissued, hunspent⟩
    · exact hs.checked_mem j t' hj
  · intro j k t' hj hk
    have hold : ∀ j, Function.update s.hand i (.checked t) j = .checked t' →
        (j = i ∧ t' = t) ∨ s.hand j = .checked t' := by
      intro j hj
      rcases update_eq hj with ⟨hji, ht⟩ | ⟨-, hj⟩
      · cases ht
        exact .inl ⟨hji, rfl⟩
      · exact .inr hj
    refine alone_of_new hold ?_ (fun j k => hs.checked_alone j k t') j k hj hk
    rintro rfl
    exact hothers
  · intro j t' hj
    exact hs.spender_mem j t' (spender_of_update hj nofun nofun)
  · intro j k t' hj hk
    exact hs.spender_alone j k t' (spender_of_update hj nofun nofun)
      (spender_of_update hk nofun nofun)
  · have hold : ∀ g x, State.Baton family
        { s with hand := Function.update s.hand i (.checked t) } g x → s.Baton family g x := by
      intro g x hx
      cases hx with
      | ticket ht hunspent => exact .ticket ht hunspent
      | reserved hj => exact .reserved (hand_of_update hj nofun).2
      | owed hj => exact .owed (hand_of_update hj nofun).2
    intro g x y hx hy
    exact hs.baton_unique g x y (hold g x hx) (hold g y hy)

theorem State.Single.spend {t : T} {spent : Set T} (hs : s.Single family)
    (hhand : s.hand i = .checked t)
    (hspent : ∀ t' ∈ s.issued, t' ∈ spent ↔ t' ∈ s.spent ∨ t' = t) :
    State.Single family
      { s with spent := spent, hand := Function.update s.hand i (.spent t) } := by
  obtain ⟨hissued, hunspent⟩ := hs.checked_mem i t hhand
  -- Who has spent a ticket after the move is the party, or had spent it before.
  have hspender : ∀ j t', State.Spender
      { s with spent := spent, hand := Function.update s.hand i (.spent t) } j t' →
      (j = i ∧ t' = t) ∨ s.Spender j t' := by
    intro j t' hj
    rcases hj with hj | hj
    · rcases update_eq hj with ⟨rfl, ht⟩ | ⟨-, hj⟩
      · cases ht
        exact .inl ⟨rfl, rfl⟩
      · exact .inr (.inl hj)
    · exact .inr (.inr (hand_of_update hj nofun).2)
  have hnone : ∀ j, ¬ s.Spender j t := fun j hj => hunspent (hs.spender_mem j t hj).2
  refine ⟨?_, ?_, ?_, ?_, ?_⟩
  · intro j t' hj
    obtain ⟨hji, hj⟩ := hand_of_update hj nofun
    obtain ⟨hissued', hunspent'⟩ := hs.checked_mem j t' hj
    refine ⟨hissued', fun hmem => ?_⟩
    rcases (hspent t' hissued').mp hmem with hmem | heq
    · exact hunspent' hmem
    · rw [heq] at hj
      exact hji (hs.checked_alone j i t hj hhand)
  · intro j k t' hj hk
    exact hs.checked_alone j k t' (hand_of_update hj nofun).2 (hand_of_update hk nofun).2
  · intro j t' hj
    rcases hspender j t' hj with ⟨-, rfl⟩ | hj
    · exact ⟨hissued, (hspent t' hissued).mpr (.inr rfl)⟩
    · obtain ⟨hissued', hspent'⟩ := hs.spender_mem j t' hj
      exact ⟨hissued', (hspent t' hissued').mpr (.inl hspent')⟩
  · intro j k t'
    apply alone_of_new (fun j => hspender j t') _ fun j k => hs.spender_alone j k t'
    rintro rfl
    exact hnone
  · apply hs.pass (n := .inr i) (.ticket hissued hunspent)
    intro g x hx
    cases hx with
    | @ticket t' ht hunspent' =>
        have hnot : ¬ (t' ∈ s.spent ∨ t' = t) := fun h => hunspent' ((hspent t' ht).mpr h)
        exact .inr ⟨.ticket ht fun h => hnot (.inl h), fun heq => hnot (.inr (Sum.inl.inj heq))⟩
    | reserved hj => exact .inr ⟨.reserved (hand_of_update hj nofun).2, nofun⟩
    | owed hj =>
        rcases update_eq hj with ⟨rfl, ht⟩ | ⟨-, hj⟩
        · cases ht
          exact .inl ⟨rfl, rfl⟩
        · exact .inr ⟨.owed hj, nofun⟩

theorem State.Single.renew {t t' : T} (hs : s.Single family) (hhand : s.hand i = .spent t)
    (hfamily : family t' = family t) :
    State.Single family
      { s with issued := insert t' s.issued, hand := Function.update s.hand i (.renewed t) } := by
  -- The party was a spender of `t` before the move.
  have hspender : ∀ j u, State.Spender
      { s with issued := insert t' s.issued, hand := Function.update s.hand i (.renewed t) } j u →
      s.Spender j u := by
    intro j u hj
    rcases hj with hj | hj
    · exact .inl (hand_of_update hj nofun).2
    · rcases update_eq hj with ⟨rfl, ht⟩ | ⟨-, hj⟩
      · cases ht
        exact .inl hhand
      · exact .inr hj
  refine ⟨?_, ?_, ?_, ?_, ?_⟩
  · intro j u hj
    obtain ⟨hissued, hunspent⟩ := hs.checked_mem j u (hand_of_update hj nofun).2
    exact ⟨Set.mem_insert_of_mem _ hissued, hunspent⟩
  · intro j k u hj hk
    exact hs.checked_alone j k u (hand_of_update hj nofun).2 (hand_of_update hk nofun).2
  · intro j u hj
    obtain ⟨hissued, hspent⟩ := hs.spender_mem j u (hspender j u hj)
    exact ⟨Set.mem_insert_of_mem _ hissued, hspent⟩
  · intro j k u hj hk
    exact hs.spender_alone j k u (hspender j u hj) (hspender k u hk)
  · apply hs.pass (n := .inl t') (.owed hhand)
    intro g x hx
    cases hx with
    | ticket hu hunspent =>
        rcases Set.mem_insert_iff.mp hu with rfl | hu
        · exact .inl ⟨rfl, hfamily⟩
        · exact .inr ⟨.ticket hu hunspent, nofun⟩
    | reserved hj =>
        obtain ⟨hji, hj⟩ := hand_of_update hj nofun
        exact .inr ⟨.reserved hj, fun heq => hji (Sum.inr.inj heq)⟩
    | owed hj =>
        obtain ⟨hji, hj⟩ := hand_of_update hj nofun
        exact .inr ⟨.owed hj, fun heq => hji (Sum.inr.inj heq)⟩

/-- Every move keeps the tickets single. -/
theorem Step.single (h : Step family s i s') (hs : s.Single family) : s'.Single family := by
  cases h with
  | reserve hhand hissued hothers => exact hs.reserve hissued hothers
  | start hhand => exact hs.start hhand
  | check hhand hissued hunspent hothers => exact hs.check hissued hunspent hothers
  | spend hhand hspent => exact hs.spend hhand hspent
  | renew hhand hfamily => exact hs.renew hhand hfamily

omit [DecidableEq ι] in
/-- A family has at most one unspent ticket. -/
theorem State.Single.unspent_unique {t t' : T} (hs : s.Single family) (ht : t ∈ s.issued)
    (ht' : t' ∈ s.issued) (hunspent : t ∉ s.spent) (hunspent' : t' ∉ s.spent)
    (hfamily : family t = family t') : t = t' := by
  have hb : s.Baton family (family t) (.inl t') := by
    rw [hfamily]
    exact .ticket ht' hunspent'
  exact Sum.inl.inj (hs.baton_unique _ _ _ (.ticket ht hunspent) hb)

end Ticket
