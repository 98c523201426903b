/-
  Mtrader.Registry.Promotion

  What stands behind the model that `get_production_model` answers with: it
  passes the five gates, and nobody has rejected it since it was last promoted.

  A rollback puts a model in production without evaluating a gate, but it only
  chooses among approved models.  So the invariant is about the approved models,
  whatever their stages are: only a promotion approves, and only a model that
  passes the gates.
-/

import Mtrader.Registry.Production

namespace Mtrader.Registry

open Py Coroutine

variable {F : Type} {r r' : ModelRegistry F} {m m' : Model F}

-- ============================================================================
-- Promotions and rejections
-- ============================================================================

/-- The call has promoted the model with this id. -/
def Promotes (id : String) : RegistryCall F → Except Exc (RegistryAnswer F) → Prop
  | .promoteToStaging modelId _ _, out => modelId = id ∧ out = .ok (.flag true)
  | .promoteToProduction modelId _ _ _, out => modelId = id ∧ out = .ok (.flag true)
  | _, _ => False

/-- The call rejects the model with this id. -/
def Rejects (id : String) : RegistryCall F → Prop
  | .reject modelId _ _ _ => modelId = id
  | _ => False

/-- The model with this id has been promoted, and no call since its last promotion
    has rejected it. -/
def StandsPromoted (cs : List (RegistryEntry F)) (id : String) : Prop :=
  ∃ newer c older, cs = newer ++ c :: older ∧ Promotes id c.call c.out ∧
    ∀ d ∈ newer, ¬ Promotes id d.call d.out ∧ ¬ Rejects id d.call

theorem StandsPromoted.of_promotes {cs : List (RegistryEntry F)} {c : RegistryEntry F}
    {id : String} (h : Promotes id c.call c.out) : StandsPromoted (c :: cs) id :=
  ⟨[], c, cs, rfl, h, fun _ hd => nomatch hd⟩

/-- Only a rejection ends it. -/
theorem StandsPromoted.cons {cs : List (RegistryEntry F)} {id : String}
    (h : StandsPromoted cs id) (c : RegistryEntry F) (hc : ¬ Rejects id c.call) :
    StandsPromoted (c :: cs) id := by
  by_cases hpromotes : Promotes id c.call c.out
  · exact .of_promotes hpromotes
  · obtain ⟨newer, d, older, rfl, hd, hnewer⟩ := h
    refine ⟨c :: newer, d, older, rfl, hd, ?_⟩
    intro e he
    rcases List.mem_cons.mp he with rfl | he
    · exact ⟨hpromotes, hc⟩
    · exact hnewer e he

-- ============================================================================
-- Assignments that approve nothing
-- ============================================================================

theorem Edit.only_of {p : Model F → Bool} (h : p m) (e : Edit F) :
    (e.only p).apply m = e.apply m := if_pos h

theorem Edit.only_of_not {p : Model F → Bool} (h : ¬ p m) (e : Edit F) :
    (e.only p).apply m = m := if_neg h

theorem isModel_iff {id : String} : isModel id m ↔ m.id = id := decide_eq_true_iff

/-- An assignment that leaves metrics alone and approves nothing. -/
def Edit.Unapproving (e : Edit F) : Prop :=
  ∀ m, (e.apply m).metrics = m.metrics ∧ ((e.apply m).status = .approved → m.status = .approved)

theorem Edit.Unapproving.only {e : Edit F} (h : e.Unapproving) (p : Model F → Bool) :
    (e.only p).Unapproving := by
  intro m
  simp only [Edit.only]
  split
  · exact h m
  · exact ⟨rfl, id⟩

theorem Edit.Unapproving.andThen {e e' : Edit F} (h : e.Unapproving) (h' : e'.Unapproving) :
    (e.andThen e').Unapproving := by
  intro m
  obtain ⟨hmetrics, hstatus⟩ := h m
  obtain ⟨hmetrics', hstatus'⟩ := h' (e.apply m)
  exact ⟨hmetrics'.trans hmetrics, fun hm => hstatus (hstatus' hm)⟩

theorem setStage_unapproving (s : Stage) : (setStage s : Edit F).Unapproving :=
  fun _ => ⟨rfl, id⟩

theorem rollbackEdit_unapproving (current previous : Model F) (now : Time) :
    (rollbackEdit current previous now).Unapproving :=
  ((setStage_unapproving _).only _).andThen (Edit.Unapproving.only (fun _ => ⟨rfl, id⟩) _)

-- ============================================================================
-- The gates
-- ============================================================================

variable [Prims F]

/-- The metrics pass all five promotion gates. -/
structure GatesPassed (metrics : Dict MetricKey F) : Prop where
  minimumSharpe : gateMinimumSharpe metrics = .ok true
  maximumDrawdown : gateMaximumDrawdown metrics = .ok true
  minimumWinRate : gateMinimumWinRate metrics = .ok true
  outOfSampleConsistency : gateOutOfSampleConsistency metrics = .ok true
  minimumTrades : gateMinimumTrades metrics = .ok true

theorem GatesPassed.of_passesGates {metrics : Dict MetricKey F}
    (h : passesGates metrics = .ok true) : GatesPassed metrics := by
  unfold passesGates at h
  obtain ⟨sharpe, hsharpe, h⟩ := bind_eq_ok.mp h
  obtain ⟨drawdown, hdrawdown, h⟩ := bind_eq_ok.mp h
  obtain ⟨winRate, hwinRate, h⟩ := bind_eq_ok.mp h
  obtain ⟨consistency, hconsistency, h⟩ := bind_eq_ok.mp h
  obtain ⟨trades, htrades, h⟩ := bind_eq_ok.mp h
  have hall : (sharpe && drawdown && winRate && consistency && trades) = true := Except.ok.inj h
  simp only [Bool.and_eq_true] at hall
  obtain ⟨⟨⟨⟨rfl, rfl⟩, rfl⟩, rfl⟩, rfl⟩ := hall
  exact ⟨hsharpe, hdrawdown, hwinRate, hconsistency, htrades⟩

-- ============================================================================
-- What approves a model
-- ============================================================================

/-- An approved model of the registry that a call leaves was approved before and the
    call does not reject it, or the call has promoted it through the gates. -/
def ApprovedBy (r : ModelRegistry F) (c : RegistryCall F) (out : Except Exc (RegistryAnswer F))
    (m' : Model F) : Prop :=
  (∃ m ∈ r.models, m.id = m'.id ∧ m.metrics = m'.metrics ∧ m.status = .approved ∧
    ¬ Rejects m'.id c) ∨
  Promotes m'.id c out ∧ GatesPassed m'.metrics

variable {c : RegistryCall F} {out : Except Exc (RegistryAnswer F)}

theorem ApprovedBy.of_mem (hm' : m' ∈ r.models) (happroved : m'.status = .approved)
    (hc : ¬ Rejects m'.id c) : ApprovedBy r c out m' :=
  .inl ⟨m', hm', rfl, rfl, happroved, hc⟩

theorem ApprovedBy.of_edit {e : Edit F} (he : e.Unapproving) (hm' : m' ∈ (r.edit e).models)
    (happroved : m'.status = .approved) (hc : ¬ Rejects m'.id c) : ApprovedBy r c out m' := by
  obtain ⟨m, hm, rfl⟩ := ModelRegistry.mem_edit.mp hm'
  obtain ⟨hmetrics, hstatus⟩ := he m
  exact .inl ⟨m, hm, (e.id_eq m).symm, hmetrics.symm, hstatus happroved, hc⟩

/-- An assignment that approves only `model`, which the call promotes. -/
theorem ApprovedBy.of_promotion {e : Edit F} {model : Model F} (hmodel : model ∈ r.models)
    (hgates : passesGates model.metrics = .ok true) (hpromotes : Promotes model.id c out)
    (hmetrics : ∀ m, (e.apply m).metrics = m.metrics)
    (hstatus : ∀ m, m.id ≠ model.id → (e.apply m).status = .approved → m.status = .approved)
    (hc : ∀ id, ¬ Rejects id c) (hm' : m' ∈ (r.edit e).models)
    (happroved : m'.status = .approved) : ApprovedBy r c out m' := by
  obtain ⟨m, hm, rfl⟩ := ModelRegistry.mem_edit.mp hm'
  by_cases hid : m.id = model.id
  · have heq : m = model := ModelRegistry.eq_of_id hm hmodel hid
    right
    rw [e.id_eq, hmetrics, heq]
    exact ⟨hpromotes, .of_passesGates hgates⟩
  · exact .inl ⟨m, hm, (e.id_eq m).symm, (hmetrics m).symm, hstatus m hid happroved, hc _⟩

theorem approvedBy_of_promoteToStaging {id promotedBy : String} {now : Time}
    (h : registry r (.promoteToStaging id promotedBy now) out r') (hm' : m' ∈ r'.models)
    (happroved : m'.status = .approved) :
    ApprovedBy r (.promoteToStaging id promotedBy now) out m' := by
  rcases settle_cases h with ⟨b, hb, rfl⟩ | ⟨rfl, -⟩
  · rcases promoteToStaging_cases hb with ⟨-, rfl⟩ | ⟨rfl, model, hmodel, hid, hgates, rfl⟩
    · exact .of_mem hm' happroved not_false
    · refine .of_promotion hmodel hgates ⟨hid.symm, rfl⟩ ?_ ?_ (fun _ => not_false) hm' happroved
      · intro m
        by_cases hm : isModel model.id m
        · rw [Edit.only_of hm]
          rfl
        · rw [Edit.only_of_not hm]
      · intro m hne hstatus
        rwa [Edit.only_of_not (mt isModel_iff.mp hne)] at hstatus
  · exact .of_mem hm' happroved not_false

theorem approvedBy_of_promoteToProduction {id approvedBy : String} {deployedAt approvedAt : Time}
    (h : registry r (.promoteToProduction id approvedBy deployedAt approvedAt) out r')
    (hm' : m' ∈ r'.models) (happroved : m'.status = .approved) :
    ApprovedBy r (.promoteToProduction id approvedBy deployedAt approvedAt) out m' := by
  rcases settle_cases h with ⟨b, hb, rfl⟩ | ⟨rfl, -⟩
  · rcases promoteToProduction_cases hb with ⟨-, rfl⟩ | ⟨rfl, model, hmodel, hid, hgates, rfl⟩
    · exact .of_mem hm' happroved not_false
    · -- The archived models keep their status; only `model` gets a new one.
      have harchive := (setStage_unapproving (F := F) .archived).only (inProduction model.name)
      refine .of_promotion hmodel hgates ⟨hid.symm, rfl⟩ ?_ ?_ (fun _ => not_false) hm' happroved
      · intro m
        rw [promoteEdit, Edit.andThen]
        by_cases hm :
            isModel model.id (((setStage .archived).only (inProduction model.name)).apply m)
        · rw [Edit.only_of hm]
          exact (harchive m).1
        · rw [Edit.only_of_not hm]
          exact (harchive m).1
      · intro m hne hstatus
        rw [promoteEdit, Edit.andThen, Edit.only_of_not] at hstatus
        · exact (harchive m).2 hstatus
        · rw [isModel_iff, Edit.id_eq]
          exact hne
  · exact .of_mem hm' happroved not_false

theorem approvedBy_of_reject {id rejectedBy reason : String} {now : Time}
    (h : registry r (.reject id rejectedBy reason now) out r') (hm' : m' ∈ r'.models)
    (happroved : m'.status = .approved) :
    ApprovedBy r (.reject id rejectedBy reason now) out m' := by
  rcases settle_cases h with ⟨u, hu, -⟩ | ⟨rfl, e, he⟩
  · obtain ⟨model, -, hid, rfl⟩ := reject_cases hu
    obtain ⟨m, hm, rfl⟩ := ModelRegistry.mem_edit.mp hm'
    by_cases hmodel : isModel model.id m
    · rw [Edit.only_of hmodel] at happroved
      cases happroved
    · rw [Edit.only_of_not hmodel] at happroved ⊢
      refine .of_mem hm happroved ?_
      rw [Rejects, ← hid]
      exact fun heq => hmodel (isModel_iff.mpr heq.symm)
  · -- The registry has no model with the rejected id.
    refine .of_mem hm' happroved ?_
    unfold ModelRegistry.reject at he
    cases hfound : r'.getModel id with
    | none =>
        rw [Rejects]
        exact (getModel_eq_none.mp hfound m' hm').symm
    | some model =>
        rw [hfound] at he
        cases he

/-- What one call can do to the approved models. -/
theorem approvedBy_of_registry (h : registry r c out r') (hm' : m' ∈ r'.models)
    (happroved : m'.status = .approved) : ApprovedBy r c out m' := by
  cases c with
  | register id s trainedAt createdAt =>
      obtain ⟨fresh, -, rfl⟩ := h
      rcases List.mem_append.mp hm' with hm' | hm'
      · exact .of_mem hm' happroved not_false
      · rw [List.mem_singleton.mp hm'] at happroved
        cases happroved
  | promoteToStaging id promotedBy now => exact approvedBy_of_promoteToStaging h hm' happroved
  | promoteToProduction id approvedBy deployedAt approvedAt =>
      exact approvedBy_of_promoteToProduction h hm' happroved
  | rollback name now =>
      rcases settle_cases h with ⟨m, hm, -⟩ | ⟨rfl, -⟩
      · obtain ⟨current, previous, rest, -, -, rfl⟩ := rollback_eq_ok.mp hm
        exact .of_edit (rollbackEdit_unapproving _ _ _) hm' happroved not_false
      · exact .of_mem hm' happroved not_false
  | reject id rejectedBy reason now => exact approvedBy_of_reject h hm' happroved

-- ============================================================================
-- The model in production
-- ============================================================================

/-- Every approved model passes the gates and stands promoted. -/
def Vetted (cs : List (RegistryEntry F)) (r : ModelRegistry F) : Prop :=
  ∀ m ∈ r.models, m.status = .approved → GatesPassed m.metrics ∧ StandsPromoted cs m.id

theorem vetted_of_run {cs : List (RegistryEntry F)} (hrun : RegistryRun cs r) : Vetted cs r := by
  refine hrun.invariant (fun _ hm => nomatch hm) ?_
  intro cs r c out t' _ hvetted hex m' hm' happroved
  obtain ⟨r', henv, rfl⟩ := exec_op.mp hex
  rcases approvedBy_of_registry henv hm' happroved with
    ⟨m, hm, hid, hmetrics, hstatus, hrejects⟩ | ⟨hpromotes, hgates⟩
  · obtain ⟨hgates, hstands⟩ := hvetted m hm hstatus
    rw [hmetrics] at hgates
    rw [hid] at hstands
    exact ⟨hgates, hstands.cons _ hrejects⟩
  · exact ⟨hgates, .of_promotes hpromotes⟩

/-- In every state that calls can reach, the production model of a name passes the
    gates and has not been rejected since its last promotion. -/
theorem production_vetted {cs : List (RegistryEntry F)} (hrun : RegistryRun cs r) {name : String}
    (hproduction : r.getProductionModel name = some m) :
    GatesPassed m.metrics ∧ StandsPromoted cs m.id := by
  obtain ⟨hm, ⟨-, -, happroved⟩, -⟩ := ModelRegistry.getProductionModel_eq_some.mp hproduction
  exact vetted_of_run hrun m hm happroved

/-- After a rollback the older version is in production again. -/
def rollbackToFirst : List (RegistryCall ℚ) :=
  [registerAlpha "1", registerAlpha "2", .promoteToProduction "1" "tester" 1 1,
    .promoteToProduction "2" "tester" 2 2, .rollback "alpha" 3]

theorem production_vetted_rollbackToFirst :
    ∃ cs r m, RegistryRun (F := ℚ) cs r ∧ r.getProductionModel "alpha" = some m ∧ m.id = "1" ∧
      GatesPassed m.metrics ∧ StandsPromoted cs m.id := by
  obtain ⟨cs, r, hrun, hcheck⟩ := exists_registryRun_check rollbackToFirst
    (fun r => (r.getProductionModel "alpha").any fun m => m.id = "1") (by decide +kernel)
  obtain ⟨m, hm, hid⟩ := (Option.any_eq_true _ _).mp hcheck
  exact ⟨cs, r, m, hrun, hm, of_decide_eq_true hid, production_vetted hrun hm⟩

end Mtrader.Registry
