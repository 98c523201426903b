/-
  Mtrader.Registry.Production

  The production models of a `ModelRegistry` over every sequence of calls.

  `Effect` says once what a call can do to the models.  From it follows when a run
  keeps at most one production model for each name: exactly when every rollback
  finds the production models of its name among the two highest approved
  versions.
-/

import Mtrader.Registry.Manager

namespace Mtrader.Registry

open Py Coroutine

variable {F : Type} {r r' : ModelRegistry F} {m m' : Model F} {name : String}

-- ============================================================================
-- Looking models up
-- ============================================================================

theorem ModelRegistry.eq_of_id (hm : m ∈ r.models) (hm' : m' ∈ r.models) (hid : m.id = m'.id) :
    m = m' := by
  have hnodup : (r.models.map Model.id).Nodup := List.pairwise_map.mpr r.ids
  exact List.inj_on_of_nodup_map hnodup hm hm' hid

/-- The models of a name stand in the dict in the order of their versions. -/
theorem ModelRegistry.versions_filter (r : ModelRegistry F) (name : String) {p : Model F → Bool}
    (hp : ∀ m, p m → m.name = name) :
    (r.models.filter p).Pairwise fun m m' => m.version < m'.version := by
  refine (r.versions.filter p).imp_of_mem ?_
  intro m m' hm hm' hlt
  apply hlt
  rw [hp m (List.mem_filter.mp hm).2, hp m' (List.mem_filter.mp hm').2]

theorem sortedByVersion_eq {models : List (Model F)}
    (h : models.Pairwise fun m m' => m.version < m'.version) :
    sortedByVersion models = models :=
  List.Pairwise.insertionSort_eq (h.imp fun hlt => hlt.le)

theorem ModelRegistry.mem_approvedVersions :
    m ∈ r.approvedVersions name ↔ m ∈ r.models ∧ m.name = name ∧ m.status = .approved := by
  simp [ModelRegistry.approvedVersions, sortedByVersion]

theorem ModelRegistry.approvedVersions_pairwise (r : ModelRegistry F) (name : String) :
    (r.approvedVersions name).Pairwise fun m m' => m.version < m'.version := by
  have hsorted := r.versions_filter name
    (p := fun m => m.name = name ∧ m.status = .approved) fun m h => (of_decide_eq_true h).1
  rw [ModelRegistry.approvedVersions, sortedByVersion_eq hsorted]
  exact hsorted

/-- The last of a list in the order of versions is the model with the highest. -/
theorem getLast?_eq_some {models : List (Model F)}
    (h : models.Pairwise fun m m' => m.version < m'.version) :
    models.getLast? = some m ↔ m ∈ models ∧ ∀ m' ∈ models, m'.version ≤ m.version := by
  have hrev : models.reverse.Pairwise fun m m' => m'.version < m.version :=
    List.pairwise_reverse.mpr h
  have hmem : ∀ m', m' ∈ models ↔ m' ∈ models.reverse := fun m' => List.mem_reverse.symm
  rw [← List.head?_reverse]
  simp only [hmem]
  generalize models.reverse = l at hrev
  cases l with
  | nil => simp
  | cons top rest =>
      obtain ⟨htop, -⟩ := List.pairwise_cons.mp hrev
      rw [List.head?_cons, Option.some_inj]
      constructor
      · rintro rfl
        refine ⟨List.mem_cons_self, fun m' hm' => ?_⟩
        rcases List.mem_cons.mp hm' with rfl | hm'
        · exact le_rfl
        · exact (htop m' hm').le
      · rintro ⟨hm, hmax⟩
        rcases List.mem_cons.mp hm with rfl | hm
        · rfl
        · have hlt := htop m hm
          have hle := hmax top List.mem_cons_self
          omega

/-- A production model that `get_production_model` can answer with. -/
def Model.live (name : String) (m : Model F) : Prop :=
  m.name = name ∧ m.stage = .production ∧ m.status = .approved

theorem ModelRegistry.getProductionModel_eq_some :
    r.getProductionModel name = some m ↔
      m ∈ r.models ∧ m.live name ∧
        ∀ m' ∈ r.models, m'.live name → m'.version ≤ m.version := by
  have hsorted := r.versions_filter name
    (p := fun m => m.name = name ∧ m.stage = .production ∧ m.status = .approved)
    fun m h => (of_decide_eq_true h).1
  rw [ModelRegistry.getProductionModel, sortedByVersion_eq hsorted, getLast?_eq_some hsorted]
  simp only [List.mem_filter, decide_eq_true_eq, and_assoc, and_imp, Model.live]

/-- The two highest approved versions of a name. -/
structure TopTwo (r : ModelRegistry F) (name : String) (current previous : Model F) : Prop where
  current_mem : current ∈ r.models
  previous_mem : previous ∈ r.models
  current_name : current.name = name
  previous_name : previous.name = name
  current_approved : current.status = .approved
  previous_approved : previous.status = .approved
  lt : previous.version < current.version
  /-- Any other approved model of the name has a lower version. -/
  below : ∀ m ∈ r.models, m.name = name → m.status = .approved →
    m = current ∨ m.version ≤ previous.version

theorem TopTwo.ne {current previous : Model F} (h : TopTwo r name current previous) :
    current.id ≠ previous.id := by
  intro hid
  have hlt := h.lt
  rw [ModelRegistry.eq_of_id h.current_mem h.previous_mem hid] at hlt
  exact lt_irrefl _ hlt

theorem TopTwo.of_reverse {current previous : Model F} {rest : List (Model F)}
    (h : (r.approvedVersions name).reverse = current :: previous :: rest) :
    TopTwo r name current previous := by
  have hdesc : (current :: previous :: rest).Pairwise fun m m' => m'.version < m.version := by
    rw [← h]
    exact List.pairwise_reverse.mpr (r.approvedVersions_pairwise name)
  have hmem : ∀ m, m ∈ current :: previous :: rest ↔
      m ∈ r.models ∧ m.name = name ∧ m.status = .approved := by
    intro m
    rw [← h, List.mem_reverse, ModelRegistry.mem_approvedVersions]
  obtain ⟨hc, hcname, hcapproved⟩ := (hmem current).mp (by simp)
  obtain ⟨hp, hpname, hpapproved⟩ := (hmem previous).mp (by simp)
  obtain ⟨htop, hdesc⟩ := List.pairwise_cons.mp hdesc
  obtain ⟨hsecond, -⟩ := List.pairwise_cons.mp hdesc
  refine ⟨hc, hp, hcname, hpname, hcapproved, hpapproved, htop previous (by simp), ?_⟩
  intro m hm hname happroved
  rcases List.mem_cons.mp ((hmem m).mpr ⟨hm, hname, happroved⟩) with heq | hm
  · exact .inl heq
  · rcases List.mem_cons.mp hm with rfl | hm
    · exact .inr le_rfl
    · exact .inr (hsecond m hm).le

-- ============================================================================
-- What a call can do
-- ============================================================================

/-- What `rollback` assigns to the two models it chose. -/
def rollbackEdit (current previous : Model F) (deployedAt : Time) : Edit F :=
  ((setStage .archived).only (isModel current.id)).andThen
    ((redeploy deployedAt).only (isModel previous.id))

/-- What `promote_to_production` assigns to the models. -/
def promoteEdit (model : Model F) (approvedBy : String) (deployedAt approvedAt : Time) : Edit F :=
  ((setStage .archived).only (inProduction model.name)).andThen
    ((deploy approvedBy deployedAt approvedAt).only (isModel model.id))

/-- What a call can do to the models. -/
inductive Effect (r : ModelRegistry F) : RegistryCall F → ModelRegistry F → Prop
  /-- A call that is refused or raises; a rollback does when there are no two
      approved versions. -/
  | unchanged {c : RegistryCall F}
      (hc : ∀ name t current previous rest, c = .rollback name t →
        (r.approvedVersions name).reverse ≠ current :: previous :: rest) : Effect r c r
  | registered (id : String) (s : Submission F) (trainedAt createdAt : Time)
      (fresh : ∀ m ∈ r.models, m.id ≠ id) :
      Effect r (.register id s trainedAt createdAt) (r.register id s trainedAt createdAt fresh).2
  | staged (id promotedBy : String) (approvedAt : Time) (model : Model F) :
      Effect r (.promoteToStaging id promotedBy approvedAt)
        (r.edit ((stage promotedBy approvedAt).only (isModel model.id)))
  | promoted (id approvedBy : String) (deployedAt approvedAt : Time) {model : Model F}
      (hmodel : model ∈ r.models) :
      Effect r (.promoteToProduction id approvedBy deployedAt approvedAt)
        (r.edit (promoteEdit model approvedBy deployedAt approvedAt))
  | rolledBack (name : String) (deployedAt : Time) {current previous : Model F}
      {rest : List (Model F)}
      (htop : (r.approvedVersions name).reverse = current :: previous :: rest) :
      Effect r (.rollback name deployedAt) (r.edit (rollbackEdit current previous deployedAt))
  | rejected (id rejectedBy reason : String) (rejectedAt : Time) (model : Model F) :
      Effect r (.reject id rejectedBy reason rejectedAt)
        (r.edit ((refuse rejectedBy reason rejectedAt).only (isModel model.id)))

/-- An operation on the registry has returned, or raised and left it alone. -/
theorem settle_cases {R : Type} {answer : R → RegistryAnswer F}
    {out : Except Exc (RegistryAnswer F)} {x : Except Exc (R × ModelRegistry F)}
    (h : (out, r') = r.settle answer x) :
    (∃ a, x = .ok (a, r') ∧ out = .ok (answer a)) ∨ r' = r ∧ ∃ e, x = .error e := by
  cases x with
  | ok a =>
      obtain ⟨rfl, rfl⟩ := Prod.mk.inj h
      exact .inl ⟨a.1, rfl, rfl⟩
  | error e =>
      obtain ⟨-, rfl⟩ := Prod.mk.inj h
      exact .inr ⟨rfl, e, rfl⟩

theorem getModel_mem {id : String} {model : Model F} (h : r.getModel id = some model) :
    model ∈ r.models := List.mem_of_find?_eq_some h

theorem getModel_id {id : String} {model : Model F} (h : r.getModel id = some model) :
    model.id = id := by
  have hfound := List.find?_some h
  exact of_decide_eq_true hfound

theorem getModel_eq_none {id : String} : r.getModel id = none ↔ ∀ m ∈ r.models, m.id ≠ id := by
  simp [ModelRegistry.getModel]

theorem rollback_eq_ok {now : Time} :
    r.rollback name now = .ok (m, r') ↔ ∃ current previous rest,
      (r.approvedVersions name).reverse = current :: previous :: rest ∧
        m = (redeploy now).apply previous ∧ r' = r.edit (rollbackEdit current previous now) := by
  unfold ModelRegistry.rollback
  split
  next current previous rest htop =>
    rw [Except.ok.injEq, Prod.mk.injEq]
    constructor
    · rintro ⟨rfl, rfl⟩
      exact ⟨current, previous, rest, htop, rfl, rfl⟩
    · rintro ⟨_, _, _, htop', rfl, rfl⟩
      rw [htop] at htop'
      cases htop'
      exact ⟨rfl, rfl⟩
  next hnone =>
    refine ⟨nofun, ?_⟩
    rintro ⟨current, previous, rest, htop, -⟩
    exact absurd htop (hnone current previous rest)

theorem reject_cases {id rejectedBy reason : String} {now : Time} {u : Unit}
    (h : r.reject id rejectedBy reason now = .ok (u, r')) :
    ∃ model ∈ r.models, model.id = id ∧
      r' = r.edit ((refuse rejectedBy reason now).only (isModel model.id)) := by
  unfold ModelRegistry.reject at h
  split at h
  next => cases h
  next model hmodel =>
    cases h
    exact ⟨model, getModel_mem hmodel, getModel_id hmodel, rfl⟩

section

variable [Prims F]

/-- A promotion answers `True` exactly when it has found the model and the model
    passes the gates; else it assigns nothing. -/
theorem promoteToStaging_cases {id promotedBy : String} {now : Time} {b : Bool}
    (h : r.promoteToStaging id promotedBy now = .ok (b, r')) :
    b = false ∧ r' = r ∨ b = true ∧ ∃ model ∈ r.models,
      model.id = id ∧ passesGates model.metrics = .ok true ∧
        r' = r.edit ((stage promotedBy now).only (isModel model.id)) := by
  unfold ModelRegistry.promoteToStaging at h
  split at h
  next =>
    cases h
    exact .inl ⟨rfl, rfl⟩
  next model hmodel =>
    obtain ⟨passes, hpasses, h⟩ := bind_eq_ok.mp h
    cases passes with
    | true =>
        cases h
        exact .inr ⟨rfl, model, getModel_mem hmodel, getModel_id hmodel, hpasses, rfl⟩
    | false =>
        cases h
        exact .inl ⟨rfl, rfl⟩

theorem promoteToProduction_cases {id approvedBy : String} {deployedAt approvedAt : Time} {b : Bool}
    (h : r.promoteToProduction id approvedBy deployedAt approvedAt = .ok (b, r')) :
    b = false ∧ r' = r ∨ b = true ∧ ∃ model ∈ r.models,
      model.id = id ∧ passesGates model.metrics = .ok true ∧
        r' = r.edit (promoteEdit model approvedBy deployedAt approvedAt) := by
  unfold ModelRegistry.promoteToProduction at h
  split at h
  next =>
    cases h
    exact .inl ⟨rfl, rfl⟩
  next model hmodel =>
    obtain ⟨passes, hpasses, h⟩ := bind_eq_ok.mp h
    cases passes with
    | true =>
        cases h
        exact .inr ⟨rfl, model, getModel_mem hmodel, getModel_id hmodel, hpasses, rfl⟩
    | false =>
        cases h
        exact .inl ⟨rfl, rfl⟩

theorem registry_effect {c : RegistryCall F} {out : Except Exc (RegistryAnswer F)}
    (h : registry r c out r') : Effect r c r' := by
  cases c with
  | register id s trainedAt createdAt =>
      obtain ⟨fresh, -, rfl⟩ := h
      exact .registered id s trainedAt createdAt fresh
  | promoteToStaging id promotedBy approvedAt =>
      rcases settle_cases h with ⟨b, h, -⟩ | ⟨rfl, -⟩
      · rcases promoteToStaging_cases h with ⟨-, rfl⟩ | ⟨-, model, -, -, -, rfl⟩
        · exact .unchanged fun _ _ _ _ _ hc => nomatch hc
        · exact .staged id promotedBy approvedAt model
      · exact .unchanged fun _ _ _ _ _ hc => nomatch hc
  | promoteToProduction id approvedBy deployedAt approvedAt =>
      rcases settle_cases h with ⟨b, h, -⟩ | ⟨rfl, -⟩
      · rcases promoteToProduction_cases h with ⟨-, rfl⟩ | ⟨-, model, hmodel, -, -, rfl⟩
        · exact .unchanged fun _ _ _ _ _ hc => nomatch hc
        · exact .promoted id approvedBy deployedAt approvedAt hmodel
      · exact .unchanged fun _ _ _ _ _ hc => nomatch hc
  | rollback name deployedAt =>
      rcases settle_cases h with ⟨m, h, -⟩ | ⟨rfl, e, h⟩
      · obtain ⟨current, previous, rest, htop, -, rfl⟩ := rollback_eq_ok.mp h
        exact .rolledBack name deployedAt htop
      · refine .unchanged fun name' t current previous rest heq htop => ?_
        cases heq
        have hok : r'.rollback name deployedAt = .ok _ :=
          rollback_eq_ok.mpr ⟨current, previous, rest, htop, rfl, rfl⟩
        rw [h] at hok
        cases hok
  | reject id rejectedBy reason rejectedAt =>
      rcases settle_cases h with ⟨_, h, -⟩ | ⟨rfl, -⟩
      · obtain ⟨model, -, -, rfl⟩ := reject_cases h
        exact .rejected id rejectedBy reason rejectedAt model
      · exact .unchanged fun _ _ _ _ _ hc => nomatch hc

end

-- ============================================================================
-- At most one production model
-- ============================================================================

/-- Each name has at most one model in stage production. -/
def OneProduction (r : ModelRegistry F) : Prop :=
  ∀ m ∈ r.models, ∀ m' ∈ r.models, m.stage = .production → m'.stage = .production →
    m.name = m'.name → m.id = m'.id

instance (r : ModelRegistry F) : Decidable (OneProduction r) :=
  inferInstanceAs (Decidable (∀ m ∈ r.models, ∀ m' ∈ r.models, m.stage = .production →
    m'.stage = .production → m.name = m'.name → m.id = m'.id))

/-- If it is a rollback, the production models of its name are among the two highest
    approved versions. -/
def RollbackInOrder (r : ModelRegistry F) : RegistryCall F → Prop
  | .rollback name _ => ∀ current previous rest,
      (r.approvedVersions name).reverse = current :: previous :: rest →
      ∀ m ∈ r.models, m.name = name → m.stage = .production → m = current ∨ m = previous
  | _ => True

theorem ModelRegistry.mem_edit {e : Edit F} :
    m' ∈ (r.edit e).models ↔ ∃ m ∈ r.models, e.apply m = m' := List.mem_map

/-- An assignment that puts nothing into production. -/
theorem OneProduction.edit {e : Edit F} (h : OneProduction r)
    (he : ∀ m, (e.apply m).stage = .production → m.stage = .production) :
    OneProduction (r.edit e) := by
  intro a ha b hb hpa hpb hname
  obtain ⟨m, hm, rfl⟩ := ModelRegistry.mem_edit.mp ha
  obtain ⟨m', hm', rfl⟩ := ModelRegistry.mem_edit.mp hb
  rw [e.name_eq, e.name_eq] at hname
  rw [e.id_eq, e.id_eq]
  exact h m hm m' hm' (he m hpa) (he m' hpb) hname

theorem OneProduction.register {id : String} {s : Submission F} {trainedAt createdAt : Time}
    {fresh : ∀ m ∈ r.models, m.id ≠ id} (h : OneProduction r) :
    OneProduction (r.register id s trainedAt createdAt fresh).2 := by
  have hold : ∀ m ∈ (r.register id s trainedAt createdAt fresh).2.models,
      m.stage = .production → m ∈ r.models := by
    intro m hm hstage
    rcases List.mem_append.mp hm with hm | hm
    · exact hm
    · rw [List.mem_singleton.mp hm] at hstage
      cases hstage
  intro m hm m' hm' hp hp' hname
  exact h m (hold m hm hp) m' (hold m' hm' hp') hp hp' hname

theorem Edit.only_stage (p : Model F → Bool) (e : Edit F) (m : Model F) :
    ((e.only p).apply m).stage = if p m then (e.apply m).stage else m.stage :=
  apply_ite Model.stage _ _ _

theorem promoteEdit_stage {model : Model F} {approvedBy : String} {deployedAt approvedAt : Time} :
    ((promoteEdit model approvedBy deployedAt approvedAt).apply m).stage = .production ↔
      m.id = model.id ∨ m.stage = .production ∧ m.name ≠ model.name := by
  simp only [promoteEdit, Edit.andThen, Edit.only_stage, isModel, Edit.id_eq, inProduction,
    setStage, deploy, decide_eq_true_eq]
  by_cases hid : m.id = model.id
  · simp [hid]
  · by_cases hname : m.name = model.name
    · by_cases hstage : m.stage = .production <;> simp [hid, hname, hstage]
    · simp [hid, hname]

/-- Promoting to production leaves one production model of the name. -/
theorem OneProduction.promote {model : Model F} {approvedBy : String}
    {deployedAt approvedAt : Time} (h : OneProduction r) (hmodel : model ∈ r.models) :
    OneProduction (r.edit (promoteEdit model approvedBy deployedAt approvedAt)) := by
  intro a ha b hb hpa hpb hname
  obtain ⟨m, hm, rfl⟩ := ModelRegistry.mem_edit.mp ha
  obtain ⟨m', hm', rfl⟩ := ModelRegistry.mem_edit.mp hb
  rw [Edit.name_eq, Edit.name_eq] at hname
  rw [Edit.id_eq, Edit.id_eq]
  rcases promoteEdit_stage.mp hpa with hid | ⟨hp, hne⟩
  · rcases promoteEdit_stage.mp hpb with hid' | ⟨-, hne'⟩
    · rw [hid, hid']
    · rw [← hname, ModelRegistry.eq_of_id hm hmodel hid] at hne'
      exact absurd rfl hne'
  · rcases promoteEdit_stage.mp hpb with hid' | ⟨hp', -⟩
    · rw [hname, ModelRegistry.eq_of_id hm' hmodel hid'] at hne
      exact absurd rfl hne
    · exact h m hm m' hm' hp hp' hname

theorem rollbackEdit_stage {current previous : Model F} {now : Time} :
    ((rollbackEdit current previous now).apply m).stage = .production ↔
      m.id = previous.id ∨ m.stage = .production ∧ m.id ≠ current.id := by
  simp only [rollbackEdit, Edit.andThen, Edit.only_stage, isModel, Edit.id_eq, setStage, redeploy,
    decide_eq_true_eq]
  by_cases hprevious : m.id = previous.id
  · simp [hprevious]
  · by_cases hcurrent : m.id = current.id <;> simp [hprevious, hcurrent]

/-- A rollback leaves one production model of the name exactly when the two versions
    it chose are the only ones that could be in production. -/
theorem oneProduction_rollback_iff {current previous : Model F} {now : Time}
    (h : OneProduction r) (htop : TopTwo r name current previous) :
    OneProduction (r.edit (rollbackEdit current previous now)) ↔
      ∀ m ∈ r.models, m.name = name → m.stage = .production → m = current ∨ m = previous := by
  have hprevious : ∀ {m : Model F}, m ∈ r.models → m.id = previous.id → m = previous :=
    fun hm hid => ModelRegistry.eq_of_id hm htop.previous_mem hid
  constructor
  · intro hone m hm hname hp
    by_contra hother
    rw [not_or] at hother
    have hcurrent : m.id ≠ current.id :=
      fun hid => hother.1 (ModelRegistry.eq_of_id hm htop.current_mem hid)
    have hid := hone _ (ModelRegistry.mem_edit.mpr ⟨m, hm, rfl⟩)
      _ (ModelRegistry.mem_edit.mpr ⟨previous, htop.previous_mem, rfl⟩)
      (rollbackEdit_stage.mpr (.inr ⟨hp, hcurrent⟩)) (rollbackEdit_stage.mpr (.inl rfl))
      (by rw [Edit.name_eq, Edit.name_eq, hname, htop.previous_name])
    rw [Edit.id_eq, Edit.id_eq] at hid
    exact hother.2 (hprevious hm hid)
  · intro hin a ha b hb hpa hpb hname
    obtain ⟨m, hm, rfl⟩ := ModelRegistry.mem_edit.mp ha
    obtain ⟨m', hm', rfl⟩ := ModelRegistry.mem_edit.mp hb
    rw [Edit.name_eq, Edit.name_eq] at hname
    rw [Edit.id_eq, Edit.id_eq]
    -- Below `current`, a production model of the name can only be `previous`.
    have honly : ∀ m ∈ r.models, m.name = name → m.stage = .production → m.id ≠ current.id →
        m = previous := by
      intro m hm hname hp hcurrent
      rcases hin m hm hname hp with rfl | rfl
      · exact absurd rfl hcurrent
      · rfl
    rcases rollbackEdit_stage.mp hpa with hid | ⟨hp, hne⟩
    · rcases rollbackEdit_stage.mp hpb with hid' | ⟨hp', hne'⟩
      · rw [hid, hid']
      · rw [hprevious hm hid, htop.previous_name] at hname
        rw [hid, honly m' hm' hname.symm hp' hne']
    · rcases rollbackEdit_stage.mp hpb with hid' | ⟨hp', -⟩
      · rw [hprevious hm' hid', htop.previous_name] at hname
        rw [hid', honly m hm hname hp hne]
      · exact h m hm m' hm' hp hp' hname

/-- From a registry with one production model for each name, a call keeps it so
    exactly when it is in order. -/
theorem Effect.oneProduction_iff {c : RegistryCall F} (h : OneProduction r) (he : Effect r c r') :
    OneProduction r' ↔ RollbackInOrder r c := by
  cases he with
  | unchanged hc =>
      refine ⟨fun _ => ?_, fun _ => h⟩
      cases c with
      | rollback name t =>
          exact fun current previous rest htop => absurd htop (hc _ _ _ _ _ rfl)
      | _ => trivial
  | registered id s trainedAt createdAt fresh => exact iff_of_true h.register trivial
  | staged id promotedBy approvedAt model =>
      refine iff_of_true (h.edit fun m => ?_) trivial
      simp only [Edit.only, stage]
      split <;> simp
  | promoted id approvedBy deployedAt approvedAt hmodel =>
      exact iff_of_true (h.promote hmodel) trivial
  | @rolledBack name t current previous rest htop =>
      rw [oneProduction_rollback_iff h (TopTwo.of_reverse htop)]
      constructor
      · intro hin c p rs hcp
        rw [htop] at hcp
        cases hcp
        exact hin
      · intro hin
        exact hin current previous rest htop
  | rejected id rejectedBy reason rejectedAt model =>
      refine iff_of_true (h.edit fun m => ?_) trivial
      simp only [Edit.only, refuse]
      split <;> simp

-- ============================================================================
-- Concrete runs
-- ============================================================================

/-- The registry after a call, if `uuid4` can give the id. -/
def ModelRegistry.perform [Prims F] (r : ModelRegistry F) :
    RegistryCall F → Option (ModelRegistry F)
  | .register id s trainedAt createdAt =>
      if fresh : ∀ m ∈ r.models, m.id ≠ id then
        some (r.register id s trainedAt createdAt fresh).2
      else none
  | .promoteToStaging modelId promotedBy approvedAt =>
      some (r.settle .flag (r.promoteToStaging modelId promotedBy approvedAt)).2
  | .promoteToProduction modelId approvedBy deployedAt approvedAt =>
      some (r.settle .flag (r.promoteToProduction modelId approvedBy deployedAt approvedAt)).2
  | .rollback modelName deployedAt => some (r.settle .model (r.rollback modelName deployedAt)).2
  | .reject modelId rejectedBy reason rejectedAt =>
      some (r.settle (fun _ => .done) (r.reject modelId rejectedBy reason rejectedAt)).2

theorem registry_of_perform [Prims F] {c : RegistryCall F} (h : r.perform c = some r') :
    ∃ out, registry r c out r' := by
  cases c with
  | register id s trainedAt createdAt =>
      simp only [ModelRegistry.perform] at h
      split at h
      next fresh => exact ⟨_, fresh, rfl, (Option.some.inj h).symm⟩
      next => cases h
  | _ => exact ⟨_, Prod.ext rfl (Option.some.inj h).symm⟩

/-- Calls that can be made one after the other are a run. -/
theorem exists_registryRun [Prims F] {calls : List (RegistryCall F)} {r₀ : ModelRegistry F}
    {cs : List (RegistryEntry F)} (hrun : RegistryRun cs r₀)
    (h : calls.foldlM ModelRegistry.perform r₀ = some r) :
    ∃ cs', RegistryRun cs' r := by
  induction calls generalizing r₀ cs with
  | nil =>
      cases h
      exact ⟨cs, hrun⟩
  | cons c calls ih =>
      rw [List.foldlM_cons] at h
      obtain ⟨r₁, h₁, h⟩ := Option.bind_eq_some_iff.mp h
      obtain ⟨out, henv⟩ := registry_of_perform h₁
      exact ih (.cons hrun (exec_op.mpr ⟨r₁, henv, rfl⟩)) h

/-- The state after calls that can be made passes the check. -/
theorem exists_registryRun_check [Prims F] (calls : List (RegistryCall F))
    (check : ModelRegistry F → Bool) (h : (calls.foldlM ModelRegistry.perform .empty).any check) :
    ∃ cs r, RegistryRun cs r ∧ check r := by
  obtain ⟨r, hr, hcheck⟩ := (Option.any_eq_true _ _).mp h
  obtain ⟨cs, hrun⟩ := exists_registryRun .nil hr
  exact ⟨cs, r, hrun, hcheck⟩

/-- Metrics that pass every gate. -/
def goodMetrics : Dict MetricKey ℚ
  | .sharpe => some (.int 2)
  | .maxDrawdown => some (.float (1 / 10))
  | .winRate => some (.float (7 / 10))
  | .inSampleSharpe => some (.int 2)
  | .outSampleSharpe => some (.float (8 / 5))
  | .trades => some (.int 200)
  | .other _ => none

/-- Registering a model of name `alpha`. -/
def registerAlpha (id : String) : RegistryCall ℚ :=
  .register id
    { name := "alpha", modelType := "classification", artifactPath := "s3://models/a",
      metrics := goodMetrics, parameters := .empty, features := ["f1"], targets := ["y"],
      createdBy := "tester" } 0 0

/-- Version 1 is in production and versions 2 and 3 only staged, when the name is
    rolled back. -/
def rollbackBelowStaged : List (RegistryCall ℚ) :=
  [registerAlpha "1", registerAlpha "2", registerAlpha "3",
    .promoteToProduction "1" "tester" 1 1, .promoteToStaging "2" "tester" 2,
    .promoteToStaging "3" "tester" 3, .rollback "alpha" 4]

theorem rollbackBelowStaged_run :
    ∃ cs r, RegistryRun (F := ℚ) cs r ∧ ¬ OneProduction r := by
  obtain ⟨cs, r, hrun, hnot⟩ := exists_registryRun_check rollbackBelowStaged
    (fun r => ¬ OneProduction r) (by decide +kernel)
  exact ⟨cs, r, hrun, of_decide_eq_true hnot⟩

/-- Every state of a run has at most one production model for each name if and only
    if every rollback of the run was in order. -/
theorem production_unique_iff [Prims F] {cs : List (RegistryEntry F)} (hrun : RegistryRun cs r) :
    (∀ c ∈ cs, OneProduction c.post) ↔ ∀ c ∈ cs, RollbackInOrder c.pre c.call := by
  have hempty : OneProduction (ModelRegistry.empty : ModelRegistry F) := fun _ hm => nomatch hm
  refine hrun.stays_iff hempty fun cs w c out t' _ hw hex => ?_
  obtain ⟨w', henv, rfl⟩ := exec_op.mp hex
  exact (registry_effect henv).oneProduction_iff hw

theorem production_unique_iff_rollbackBelowStaged :
    ∃ cs r, RegistryRun (F := ℚ) cs r ∧ ¬ ∀ c ∈ cs, RollbackInOrder c.pre c.call := by
  obtain ⟨cs, r, hrun, hnot⟩ := rollbackBelowStaged_run
  refine ⟨cs, r, hrun, fun hall => hnot ?_⟩
  have hempty : OneProduction (ModelRegistry.empty : ModelRegistry ℚ) := fun _ hm => nomatch hm
  exact hrun.world_of_posts hempty ((production_unique_iff hrun).mpr hall)

theorem not_production_unique :
    ¬ ∀ cs r, RegistryRun (F := ℚ) cs r → OneProduction r := by
  intro h
  obtain ⟨cs, r, hrun, hnot⟩ := rollbackBelowStaged_run
  exact hnot (h cs r hrun)

end Mtrader.Registry
