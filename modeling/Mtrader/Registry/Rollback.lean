/-
  Mtrader.Registry.Rollback

  What `rollback` goes back to.

  It returns the second-highest approved version.  Whether that model was ever in
  production is not looked at, but the deployment times tell: `Records` says that
  a model has one exactly when it has been in production.
-/

import Mtrader.Registry.Production

namespace Mtrader.Registry

open Py Coroutine

variable {F : Type} {r r' : ModelRegistry F} {m m' : Model F} {name : String}

-- ============================================================================
-- Deployment records
-- ============================================================================

/-- A model that was not deployed by this call, and not put into production. -/
def Rested (m m' : Model F) : Prop :=
  m'.id = m.id ∧ m'.deployedAt = m.deployedAt ∧ (m'.stage = .production → m.stage = .production)

/-- A model is put into production exactly when its deployment time is written. -/
def Recorded (m m' : Model F) : Prop :=
  Rested m m' ∨ m'.id = m.id ∧ m'.deployedAt.isSome ∧ m'.stage = .production

theorem Rested.refl (m : Model F) : Rested m m := ⟨rfl, rfl, id⟩

theorem Rested.recorded {m₁ m₂ : Model F} (h : Rested m m₁) (h' : Recorded m₁ m₂) :
    Recorded m m₂ := by
  obtain ⟨hid, hat, hstage⟩ := h
  rcases h' with ⟨hid', hat', hstage'⟩ | ⟨hid', hat', hstage'⟩
  · exact .inl ⟨hid'.trans hid, hat'.trans hat, fun hp => hstage (hstage' hp)⟩
  · exact .inr ⟨hid'.trans hid, hat', hstage'⟩

theorem Rested.andThen {e e' : Edit F} (h : ∀ m, Rested m (e.apply m))
    (h' : ∀ m, Recorded m (e'.apply m)) (m : Model F) : Recorded m ((e.andThen e').apply m) :=
  (h m).recorded (h' (e.apply m))

theorem Edit.only_cases (p : Model F → Bool) (e : Edit F) (m : Model F) :
    (e.only p).apply m = e.apply m ∨ (e.only p).apply m = m := by
  simp only [Edit.only]
  split
  · exact .inl rfl
  · exact .inr rfl

theorem Rested.only {p : Model F → Bool} {e : Edit F} (h : ∀ m, Rested m (e.apply m))
    (m : Model F) : Rested m ((e.only p).apply m) := by
  rcases e.only_cases p m with heq | heq
  · rw [heq]
    exact h m
  · rw [heq]
    exact Rested.refl m

theorem Recorded.only {p : Model F → Bool} {e : Edit F} (h : ∀ m, Recorded m (e.apply m))
    (m : Model F) : Recorded m ((e.only p).apply m) := by
  rcases e.only_cases p m with heq | heq
  · rw [heq]
    exact h m
  · rw [heq]
    exact .inl (Rested.refl m)

/-- What a call makes of the models: it keeps their ids and records every deployment,
    and a model it adds is neither deployed nor known before. -/
theorem Effect.recorded {c : RegistryCall F} (he : Effect r c r') :
    (∀ m ∈ r.models, ∃ m' ∈ r'.models, m'.id = m.id) ∧
    ∀ m' ∈ r'.models, (∃ m ∈ r.models, Recorded m m') ∨
      m'.deployedAt = none ∧ m'.stage ≠ .production ∧ ∀ m ∈ r.models, m.id ≠ m'.id := by
  have hedit : ∀ e : Edit F, (∀ m, Recorded m (e.apply m)) →
      (∀ m ∈ r.models, ∃ m' ∈ (r.edit e).models, m'.id = m.id) ∧
      ∀ m' ∈ (r.edit e).models, (∃ m ∈ r.models, Recorded m m') ∨
        m'.deployedAt = none ∧ m'.stage ≠ .production ∧ ∀ m ∈ r.models, m.id ≠ m'.id := by
    intro e hrec
    constructor
    · intro m hm
      exact ⟨e.apply m, ModelRegistry.mem_edit.mpr ⟨m, hm, rfl⟩, e.id_eq m⟩
    · intro m' hm'
      obtain ⟨m, hm, rfl⟩ := ModelRegistry.mem_edit.mp hm'
      exact .inl ⟨m, hm, hrec m⟩
  have harchive : ∀ m : Model F, Rested m ((setStage .archived).apply m) :=
    fun m => ⟨rfl, rfl, fun hp => nomatch hp⟩
  cases he with
  | unchanged _ =>
      exact ⟨fun m hm => ⟨m, hm, rfl⟩, fun m hm => .inl ⟨m, hm, .inl (Rested.refl m)⟩⟩
  | registered id s trainedAt createdAt fresh =>
      constructor
      · intro m hm
        exact ⟨m, List.mem_append_left _ hm, rfl⟩
      · intro m' hm'
        rcases List.mem_append.mp hm' with hm | hm
        · exact .inl ⟨m', hm, .inl (Rested.refl m')⟩
        · rw [List.mem_singleton.mp hm]
          exact .inr ⟨rfl, (fun hp => nomatch hp), fresh⟩
  | staged id promotedBy approvedAt model =>
      exact hedit _ (Recorded.only fun m => .inl ⟨rfl, rfl, fun hp => nomatch hp⟩)
  | promoted id approvedBy deployedAt approvedAt hmodel =>
      refine hedit _ (Rested.andThen (Rested.only harchive) ?_)
      exact Recorded.only fun m => .inr ⟨rfl, rfl, rfl⟩
  | rolledBack name deployedAt htop =>
      refine hedit _ (Rested.andThen (Rested.only harchive) ?_)
      exact Recorded.only fun m => .inr ⟨rfl, rfl, rfl⟩
  | rejected id rejectedBy reason rejectedAt model =>
      exact hedit _ (Recorded.only fun m => .inl ⟨rfl, rfl, fun hp => nomatch hp⟩)

section

variable [Prims F] {cs : List (RegistryEntry F)}

/-- The model with this id is in stage production in this state. -/
def ModelRegistry.Serves (r : ModelRegistry F) (id : String) : Prop :=
  ∃ m ∈ r.models, m.id = id ∧ m.stage = .production

/-- The model with this id has been in stage production by now. -/
def HasServed (cs : List (RegistryEntry F)) (r : ModelRegistry F) (id : String) : Prop :=
  r.Serves id ∨ ∃ c ∈ cs, c.pre.Serves id

/-- The deployment times tell which models have been in production. -/
structure Records (cs : List (RegistryEntry F)) (r : ModelRegistry F) : Prop where
  ids : ∀ id, HasServed cs r id → ∃ m ∈ r.models, m.id = id
  deployed : ∀ m ∈ r.models, m.deployedAt.isSome ↔ HasServed cs r m.id

omit [Prims F] in
theorem Records.step {c : RegistryEntry F} (h : Records cs r) (hpre : c.pre = r)
    (he : Effect r c.call r') : Records (c :: cs) r' := by
  obtain ⟨hkeep, hmodels⟩ := he.recorded
  have hserved : ∀ id, HasServed (c :: cs) r' id ↔ r'.Serves id ∨ HasServed cs r id := by
    intro id
    simp only [HasServed, List.exists_mem_cons_iff, hpre]
  have hserves : ∀ m' ∈ r'.models, r'.Serves m'.id → m'.stage = .production := by
    rintro m' hm' ⟨m, hm, hid, hp⟩
    rw [← ModelRegistry.eq_of_id hm hm' hid]
    exact hp
  constructor
  · intro id hid
    rcases (hserved id).mp hid with ⟨m, hm, hid, -⟩ | hid
    · exact ⟨m, hm, hid⟩
    · obtain ⟨m, hm, rfl⟩ := h.ids id hid
      exact hkeep m hm
  · intro m' hm'
    rw [hserved]
    rcases hmodels m' hm' with ⟨m, hm, hrest | ⟨hid, hat, hp⟩⟩ | ⟨hat, hp, hfresh⟩
    · obtain ⟨hid, hat, hstage⟩ := hrest
      rw [hat, h.deployed m hm, hid]
      constructor
      · exact .inr
      · rintro (hs | hs)
        · rw [← hid] at hs
          exact .inl ⟨m, hm, rfl, hstage (hserves m' hm' hs)⟩
        · exact hs
    · exact iff_of_true hat (.inl ⟨m', hm', rfl, hp⟩)
    · rw [hat]
      refine iff_of_false (by simp) ?_
      rintro (hs | hs)
      · exact hp (hserves m' hm' hs)
      · obtain ⟨m, hm, hid⟩ := h.ids m'.id hs
        exact hfresh m hm hid

theorem RegistryRun.records (hrun : RegistryRun cs r) : Records cs r := by
  refine Serial.invariant (I := Records) hrun ?_ fun cs w c out t' _ hrec hex => ?_
  · constructor
    · rintro id (⟨m, hm, -⟩ | ⟨c, hc, -⟩)
      · cases hm
      · cases hc
    · exact fun m hm => nomatch hm
  · obtain ⟨w', henv, rfl⟩ := exec_op.mp hex
    exact hrec.step rfl (registry_effect henv)

-- ============================================================================
-- The target of a rollback
-- ============================================================================

omit [Prims F] in
theorem rollbackEdit_status {current previous : Model F} {now : Time} :
    ((rollbackEdit current previous now).apply m).status = m.status := by
  have honly : ∀ (p : Model F → Bool) (e : Edit F) (m : Model F),
      (e.apply m).status = m.status → ((e.only p).apply m).status = m.status := by
    intro p e m hkeep
    rcases e.only_cases p m with heq | heq
    · rw [heq, hkeep]
    · rw [heq]
  rw [rollbackEdit, Edit.andThen, honly _ _ _ rfl, honly _ _ _ rfl]

omit [Prims F] in
theorem rollbackEdit_previous {current previous : Model F} {now : Time}
    (hne : current.id ≠ previous.id) :
    (rollbackEdit current previous now).apply previous = (redeploy now).apply previous := by
  simp [rollbackEdit, Edit.andThen, Edit.only, isModel, hne.symm]

omit [Prims F] in
/-- The lower of the two versions is what `get_production_model` answers with exactly
    when it is in production and the higher one is not. -/
theorem TopTwo.not_answered_iff {current previous : Model F}
    (htop : TopTwo r name current previous) :
    (∀ p, r.getProductionModel name = some p → p.id ≠ previous.id) ↔
      (previous.stage = .production → current.stage = .production) := by
  constructor
  · intro hnot hp
    by_contra hc
    have hanswer : r.getProductionModel name = some previous := by
      rw [ModelRegistry.getProductionModel_eq_some]
      refine ⟨htop.previous_mem, ⟨htop.previous_name, hp, htop.previous_approved⟩, ?_⟩
      rintro m hm ⟨hname, hstage, happroved⟩
      rcases htop.below m hm hname happroved with rfl | hle
      · exact absurd hstage hc
      · exact hle
    exact hnot previous hanswer rfl
  · intro himp p hanswer hid
    obtain ⟨hp, ⟨-, hstage, -⟩, hmax⟩ := ModelRegistry.getProductionModel_eq_some.mp hanswer
    have heq := ModelRegistry.eq_of_id hp htop.previous_mem hid
    rw [heq] at hstage hmax
    have hlive : current.live name := ⟨htop.current_name, himp hstage, htop.current_approved⟩
    have hle := hmax current htop.current_mem hlive
    have hlt := htop.lt
    omega

omit [Prims F] in
/-- After a rollback `get_production_model` answers with the model it returned. -/
theorem TopTwo.answered_after {current previous : Model F} {now : Time}
    (htop : TopTwo r name current previous) :
    (r.edit (rollbackEdit current previous now)).getProductionModel name =
      some ((redeploy now).apply previous) := by
  rw [ModelRegistry.getProductionModel_eq_some]
  refine ⟨ModelRegistry.mem_edit.mpr ⟨previous, htop.previous_mem, ?_⟩, ?_, ?_⟩
  · exact rollbackEdit_previous htop.ne
  · exact ⟨htop.previous_name, rfl, htop.previous_approved⟩
  · intro m' hm' hlive
    obtain ⟨m, hm, rfl⟩ := ModelRegistry.mem_edit.mp hm'
    obtain ⟨hname, hstage, happroved⟩ := hlive
    rw [Edit.name_eq] at hname
    rw [rollbackEdit_status] at happroved
    rw [Edit.version_eq, Edit.version_eq]
    rcases rollbackEdit_stage.mp hstage with hid | ⟨-, hcurrent⟩
    · rw [ModelRegistry.eq_of_id hm htop.previous_mem hid]
    · rcases htop.below m hm hname happroved with rfl | hle
      · exact absurd rfl hcurrent
      · exact hle

/-- A rollback returns a model that has been in production, was not the one served
    before and is served after, if and only if the second-highest approved version
    has a deployment time and is not in production below a version that is not. -/
theorem rollback_restores_iff {now : Time} (hrun : RegistryRun cs r)
    (h : r.rollback name now = .ok (m, r')) :
    (HasServed cs r m.id ∧ (∀ p, r.getProductionModel name = some p → p.id ≠ m.id) ∧
        r'.getProductionModel name = some m) ↔
      ∃ current previous rest,
        (r.approvedVersions name).reverse = current :: previous :: rest ∧
          previous.deployedAt.isSome ∧
          (previous.stage = .production → current.stage = .production) := by
  obtain ⟨current, previous, rest, hrev, rfl, rfl⟩ := rollback_eq_ok.mp h
  have htop := TopTwo.of_reverse hrev
  have hserved := hrun.records.deployed previous htop.previous_mem
  rw [Edit.id_eq, htop.not_answered_iff, ← hserved]
  constructor
  · rintro ⟨hat, himp, -⟩
    exact ⟨current, previous, rest, hrev, hat, himp⟩
  · rintro ⟨c, p, rs, hrev', hat, himp⟩
    rw [hrev] at hrev'
    cases hrev'
    exact ⟨hat, himp, htop.answered_after⟩

end

/-- Do the two highest approved versions of `alpha` pass the check? -/
def topTwoCheck (check : Model ℚ → Model ℚ → Bool) (r : ModelRegistry ℚ) : Bool :=
  match (r.approvedVersions "alpha").reverse with
  | current :: previous :: _ => check current previous
  | _ => false

theorem topTwo_of_check {check : Model ℚ → Model ℚ → Bool} {r : ModelRegistry ℚ}
    (h : topTwoCheck check r) : ∃ current previous rest,
      (r.approvedVersions "alpha").reverse = current :: previous :: rest ∧
        check current previous := by
  unfold topTwoCheck at h
  split at h
  next current previous rest hrev => exact ⟨current, previous, rest, hrev, h⟩
  next => cases h

/-- Two versions promoted to production one after the other. -/
theorem rollback_restores_iff_promoted :
    ∃ cs r m r', RegistryRun (F := ℚ) cs r ∧ r.rollback "alpha" 4 = .ok (m, r') ∧
      HasServed cs r m.id ∧ (∀ p, r.getProductionModel "alpha" = some p → p.id ≠ m.id) ∧
      r'.getProductionModel "alpha" = some m := by
  obtain ⟨cs, r, hrun, hcheck⟩ := exists_registryRun_check
    [registerAlpha "1", registerAlpha "2", .promoteToProduction "1" "tester" 1 1,
      .promoteToProduction "2" "tester" 2 2]
    (topTwoCheck fun current previous =>
      previous.deployedAt.isSome && current.stage = .production) (by decide +kernel)
  obtain ⟨current, previous, rest, hrev, hc⟩ := topTwo_of_check hcheck
  rw [Bool.and_eq_true] at hc
  obtain ⟨hat, hstage⟩ := hc
  have hok : r.rollback "alpha" 4 = .ok _ :=
    rollback_eq_ok.mpr ⟨current, previous, rest, hrev, rfl, rfl⟩
  exact ⟨cs, r, _, _, hrun, hok, (rollback_restores_iff hrun hok).mpr
    ⟨current, previous, rest, hrev, hat, fun _ => of_decide_eq_true hstage⟩⟩

/-- Two versions that were only staged: the model a rollback returns was never in
    production. -/
theorem not_rollback_restores :
    ¬ ∀ (cs : List (RegistryEntry ℚ)) (r r' : ModelRegistry ℚ) (m : Model ℚ) (name : String)
      (now : Time), RegistryRun cs r → r.rollback name now = .ok (m, r') →
        HasServed cs r m.id ∧ (∀ p, r.getProductionModel name = some p → p.id ≠ m.id) ∧
          r'.getProductionModel name = some m := by
  intro h
  obtain ⟨cs, r, hrun, hcheck⟩ := exists_registryRun_check
    [registerAlpha "1", registerAlpha "2", .promoteToStaging "1" "tester" 1,
      .promoteToStaging "2" "tester" 2]
    (topTwoCheck fun _ previous => previous.deployedAt.isNone) (by decide +kernel)
  obtain ⟨current, previous, rest, hrev, hnone⟩ := topTwo_of_check hcheck
  have hok : r.rollback "alpha" 3 = .ok _ :=
    rollback_eq_ok.mpr ⟨current, previous, rest, hrev, rfl, rfl⟩
  have hserved := (h cs r _ _ "alpha" 3 hrun hok).1
  rw [Edit.id_eq, ← hrun.records.deployed previous (TopTwo.of_reverse hrev).previous_mem] at hserved
  rw [Option.isNone_iff_eq_none] at hnone
  rw [hnone] at hserved
  cases hserved

end Mtrader.Registry
