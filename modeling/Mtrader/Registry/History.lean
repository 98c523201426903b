/-
  Mtrader.Registry.History

  The models of a `ModelRegistry` against the registrations made, over every sequence of
  calls, and the states that a model goes through.

  - The registry keeps a log: its models are the registrations made, in their order, with
    what was submitted; no later call loses one or changes it.  `get_models_by_name` and
    `get_model` are lookups in this log, and the versions of a name count it.
  - `Coherent` relates a model's status, its stage and the fields that tell who has put it
    there.
-/

import Mtrader.Registry.Production

namespace Mtrader.Registry

open Py Coroutine

variable {F : Type} {r r' : ModelRegistry F} {m m' : Model F} {c : RegistryCall F}

/-- `get_models_by_name`. -/
def ModelRegistry.getModelsByName (r : ModelRegistry F) (name : String) : List (Model F) :=
  sortedByVersion (r.models.filter fun m => m.name = name)

-- ============================================================================
-- The log of registrations
-- ============================================================================

/-- What a model is registered with. -/
structure Registration (F : Type) where
  id : String
  submission : Submission F
  trainedAt : Option Time
  createdAt : Time

/-- What the model was registered with. -/
def Model.registration (m : Model F) : Registration F where
  id := m.id
  submission :=
    { name := m.name, modelType := m.modelType, artifactPath := m.artifactPath,
      metrics := m.metrics, parameters := m.parameters, features := m.features,
      targets := m.targets, createdBy := m.createdBy, description := m.description,
      framework := m.framework }
  trainedAt := m.trainedAt
  createdAt := m.createdAt

def RegistryCall.registration : RegistryCall F → Option (Registration F)
  | .register id s trainedAt createdAt => some ⟨id, s, some trainedAt, createdAt⟩
  | _ => none

/-- The registrations of the calls, oldest first. -/
def registrations (cs : List (RegistryEntry F)) : List (Registration F) :=
  cs.reverse.filterMap fun c => c.call.registration

theorem registrations_cons {e : RegistryEntry F} {cs : List (RegistryEntry F)} :
    registrations (e :: cs) = registrations cs ++ e.call.registration.toList := by
  rw [registrations, List.reverse_cons, List.filterMap_append]
  cases h : e.call.registration <;> simp [registrations, h]

/-- An assignment that leaves alone what the model was registered with. -/
def Edit.Lasting (e : Edit F) : Prop :=
  ∀ m, (e.apply m).registration = m.registration

theorem Edit.Lasting.only {e : Edit F} (h : e.Lasting) (p : Model F → Bool) :
    (e.only p).Lasting := by
  intro m
  simp only [Edit.only]
  split
  next => exact h m
  next => rfl

theorem Edit.Lasting.andThen {e e' : Edit F} (h : e.Lasting) (h' : e'.Lasting) :
    (e.andThen e').Lasting := fun m => (h' (e.apply m)).trans (h m)

theorem Edit.Lasting.registrations {e : Edit F} (h : e.Lasting) :
    (r.edit e).models.map Model.registration = r.models.map Model.registration := by
  have heq : Model.registration ∘ e.apply = Model.registration := funext h
  rw [ModelRegistry.edit, List.map_map, heq]

/-- Only a registration adds to the log. -/
theorem Effect.registrations (he : Effect r c r') (hc : c.registration = none) :
    r'.models.map Model.registration = r.models.map Model.registration := by
  have harchive : (setStage .archived : Edit F).Lasting := fun m => rfl
  cases he with
  | unchanged _ => rfl
  | registered id s trainedAt createdAt fresh => cases hc
  | staged id promotedBy approvedAt model =>
      have hstage : (stage promotedBy approvedAt : Edit F).Lasting := fun m => rfl
      exact (hstage.only _).registrations
  | promoted id approvedBy deployedAt approvedAt hmodel =>
      have hdeploy : (deploy approvedBy deployedAt approvedAt : Edit F).Lasting := fun m => rfl
      exact ((harchive.only _).andThen (hdeploy.only _)).registrations
  | rolledBack name deployedAt htop =>
      have hredeploy : (redeploy deployedAt : Edit F).Lasting := fun m => rfl
      exact ((harchive.only _).andThen (hredeploy.only _)).registrations
  | rejected id rejectedBy reason rejectedAt model =>
      have hrefuse : (refuse rejectedBy reason rejectedAt : Edit F).Lasting := fun m => rfl
      exact (hrefuse.only _).registrations

/-- The versions `1` to `n` of a name are followed by `n + 1`. -/
theorem foldr_max_range' (n a : ℕ) : (List.range' 1 n).foldr max a = max a n := by
  induction n generalizing a with
  | zero => simp
  | succ n ih =>
      rw [List.range'_1_concat, List.foldr_append, List.foldr_cons, List.foldr_nil, ih]
      omega

theorem ModelRegistry.getModelsByName_eq (r : ModelRegistry F) (name : String) :
    r.getModelsByName name = r.models.filter fun m => m.name = name :=
  sortedByVersion_eq (r.versions_filter name fun _ h => of_decide_eq_true h)

/-- The versions of each name are `1`, `2` and so on, in the order of the dict. -/
def Counted (r : ModelRegistry F) : Prop :=
  ∀ name, (r.getModelsByName name).map Model.version
    = List.range' 1 (r.getModelsByName name).length

theorem Counted.nextVersion (h : Counted r) (name : String) :
    r.nextVersion name = (r.getModelsByName name).length + 1 := by
  have hversions := h name
  rw [ModelRegistry.getModelsByName_eq] at hversions ⊢
  rw [ModelRegistry.nextVersion, hversions, foldr_max_range', Nat.zero_max]

theorem Counted.register (h : Counted r) {id : String} {s : Submission F}
    {trainedAt createdAt : Time} {fresh : ∀ m ∈ r.models, m.id ≠ id} :
    Counted (r.register id s trainedAt createdAt fresh).2 := by
  intro name
  have hversions := h name
  rw [ModelRegistry.getModelsByName_eq] at hversions ⊢
  simp only [ModelRegistry.register, List.filter_append]
  by_cases hname : s.name = name
  · subst hname
    have hnext := h.nextVersion s.name
    rw [ModelRegistry.getModelsByName_eq] at hnext
    have hnew : [r.newModel id s trainedAt createdAt].filter (fun m => m.name = s.name)
        = [r.newModel id s trainedAt createdAt] := by simp [ModelRegistry.newModel]
    rw [hnew, List.map_append, hversions, List.length_append, List.length_singleton,
      List.range'_1_concat, Nat.add_comm 1, ← hnext]
    rfl
  · have hnew : [r.newModel id s trainedAt createdAt].filter (fun m => m.name = name) = [] := by
      simp [ModelRegistry.newModel, hname]
    rw [hnew, List.append_nil]
    exact hversions

theorem Counted.edit (h : Counted r) (e : Edit F) : Counted (r.edit e) := by
  intro name
  have hversions := h name
  rw [ModelRegistry.getModelsByName_eq] at hversions ⊢
  have hname : (fun m => decide (m.name = name)) ∘ e.apply = fun m => decide (m.name = name) := by
    funext m
    simp
  have hversion : Model.version ∘ e.apply = Model.version := funext e.version_eq
  rw [ModelRegistry.edit, List.filter_map, hname, List.map_map, hversion, List.length_map]
  exact hversions

theorem Effect.counted (he : Effect r c r') (h : Counted r) : Counted r' := by
  cases he with
  | unchanged _ => exact h
  | registered id s trainedAt createdAt fresh => exact h.register
  | staged id promotedBy approvedAt model => exact h.edit _
  | promoted id approvedBy deployedAt approvedAt hmodel => exact h.edit _
  | rolledBack name deployedAt htop => exact h.edit _
  | rejected id rejectedBy reason rejectedAt model => exact h.edit _

section

variable [Prims F] {out : Except Exc (RegistryAnswer F)} {cs : List (RegistryEntry F)}

/-- A call appends its registration to the log, if it is one. -/
theorem registrations_of_registry (h : registry r c out r') :
    r'.models.map Model.registration
      = r.models.map Model.registration ++ c.registration.toList := by
  have hlog : c.registration = none → r'.models.map Model.registration
      = r.models.map Model.registration ++ c.registration.toList := by
    intro hc
    rw [(registry_effect h).registrations hc, hc, Option.toList_none, List.append_nil]
  cases c with
  | register id s trainedAt createdAt =>
      obtain ⟨fresh, -, rfl⟩ := h
      simp only [ModelRegistry.register, List.map_append]
      rfl
  | _ => exact hlog rfl

/-- The models of a registry that calls have been made on. -/
structure Logged (cs : List (RegistryEntry F)) (r : ModelRegistry F) : Prop where
  log : r.models.map Model.registration = registrations cs
  counted : Counted r

theorem logged_of_run (hrun : RegistryRun cs r) : Logged cs r := by
  refine Serial.invariant (I := Logged) hrun ?_ fun cs w c out t' _ hlogged hex => ?_
  · exact ⟨rfl, fun _ => rfl⟩
  · obtain ⟨w', henv, rfl⟩ := exec_op.mp hex
    refine ⟨?_, (registry_effect henv).counted hlogged.counted⟩
    rw [registrations_cons, ← hlogged.log]
    exact registrations_of_registry henv

/-- Over every sequence of calls, the lookups answer with the registrations that have been
    made, as they were submitted, and the versions of a name count its registrations. -/
theorem registry_history (hrun : RegistryRun cs r) :
    (∀ id, (r.getModel id).map Model.registration = (registrations cs).find? (·.id = id)) ∧
      ∀ name,
        (r.getModelsByName name).map Model.registration
          = (registrations cs).filter (·.submission.name = name) ∧
        (r.getModelsByName name).map Model.version
          = List.range' 1 ((registrations cs).filter (·.submission.name = name)).length := by
  obtain ⟨hlog, hcounted⟩ := logged_of_run hrun
  refine ⟨fun id => ?_, fun name => ?_⟩
  · rw [← hlog, List.find?_map]
    rfl
  · have hmodels : (r.getModelsByName name).map Model.registration
        = (registrations cs).filter (·.submission.name = name) := by
      rw [← hlog, r.getModelsByName_eq, List.filter_map]
      rfl
    refine ⟨hmodels, ?_⟩
    rw [← hmodels, List.length_map]
    exact hcounted name

end

/-- A run in which a name has three versions when it is rolled back. -/
theorem registry_history_rollbackBelowStaged :
    ∃ cs r, RegistryRun (F := ℚ) cs r ∧
      ((registrations cs).filter (·.submission.name = "alpha")).length = 3 ∧
      (r.getModelsByName "alpha").map Model.version = [1, 2, 3] := by
  obtain ⟨cs, r, hrun, hlength⟩ := exists_registryRun_check rollbackBelowStaged
    (fun r => (r.getModelsByName "alpha").length = 3) (by decide +kernel)
  obtain ⟨hmodels, hversions⟩ := (registry_history hrun).2 "alpha"
  have hcount : ((registrations cs).filter (·.submission.name = "alpha")).length = 3 := by
    rw [← hmodels, List.length_map]
    exact of_decide_eq_true hlength
  refine ⟨cs, r, hrun, hcount, ?_⟩
  rw [hversions, hcount]
  rfl

-- ============================================================================
-- The states of a model
-- ============================================================================

/-- The status of a model, its stage and the fields that tell who has put it there. -/
structure Model.Coherent (m : Model F) : Prop where
  development : m.status = .development ↔ m.stage = .development
  rejected : m.status = .rejected ↔ m.stage = .rejected
  /-- A model in development has not been touched. -/
  untouched : m.status = .development → m.approvedAt = none ∧ m.approvedBy = none ∧
    m.rejectedAt = none ∧ m.rejectedReason = none ∧ m.deployedAt = none ∧ m.deployedBy = none
  approved : m.status = .approved → m.approvedAt.isSome ∧ m.approvedBy.isSome
  refused : m.status = .rejected → m.rejectedAt.isSome ∧ m.rejectedReason.isSome
  production : m.stage = .production → m.deployedAt.isSome

theorem newModel_coherent {id : String} {s : Submission F} {trainedAt createdAt : Time} :
    (r.newModel id s trainedAt createdAt).Coherent := by
  constructor <;> simp [ModelRegistry.newModel]

theorem stage_coherent (promotedBy : String) (approvedAt : Time) :
    ((stage promotedBy approvedAt).apply m).Coherent := by
  constructor <;> simp [stage]

theorem deploy_coherent (approvedBy : String) (deployedAt approvedAt : Time) :
    ((deploy approvedBy deployedAt approvedAt).apply m).Coherent := by
  constructor <;> simp [deploy]

theorem refuse_coherent (rejectedBy reason : String) (rejectedAt : Time) :
    ((refuse rejectedBy reason rejectedAt).apply m).Coherent := by
  constructor <;> simp [refuse]

/-- A model in production has been approved. -/
theorem Model.Coherent.status (h : m.Coherent) (hp : m.stage = .production) :
    m.status = .approved := by
  have hdevelopment := h.development
  have hrejected := h.rejected
  rw [hp] at hdevelopment hrejected
  cases hstatus : m.status with
  | approved => rfl
  | development => simp [hstatus] at hdevelopment
  | rejected => simp [hstatus] at hrejected

theorem Model.Coherent.archive (h : m.Coherent) (ha : m.status = .approved) :
    ((setStage .archived).apply m).Coherent := by
  have happroved := h.approved ha
  constructor <;> simp [setStage, ha, happroved]

theorem Model.Coherent.redeploy (h : m.Coherent) (ha : m.status = .approved) (now : Time) :
    ((redeploy now).apply m).Coherent := by
  have happroved := h.approved ha
  constructor <;> simp [Registry.redeploy, ha, happroved]

/-- The edit is made only where it leaves a model coherent. -/
theorem Edit.only_coherent {p : Model F → Bool} {e : Edit F} (h : m.Coherent)
    (he : p m → (e.apply m).Coherent) : ((e.only p).apply m).Coherent := by
  simp only [Edit.only]
  split
  next hp => exact he hp
  next => exact h

theorem Effect.coherent (he : Effect r c r') (h : ∀ m ∈ r.models, m.Coherent) :
    ∀ m ∈ r'.models, m.Coherent := by
  cases he with
  | unchanged _ => exact h
  | registered id s trainedAt createdAt fresh =>
      intro m hm
      rcases List.mem_append.mp hm with hm | hm
      · exact h m hm
      · rw [List.mem_singleton.mp hm]
        exact newModel_coherent
  | staged id promotedBy approvedAt model =>
      intro a ha
      obtain ⟨m, hm, rfl⟩ := ModelRegistry.mem_edit.mp ha
      exact Edit.only_coherent (h m hm) fun _ => stage_coherent _ _
  | promoted id approvedBy deployedAt approvedAt hmodel =>
      intro a ha
      obtain ⟨m, hm, rfl⟩ := ModelRegistry.mem_edit.mp ha
      refine Edit.only_coherent (Edit.only_coherent (h m hm) fun hp => ?_) fun _ =>
        deploy_coherent _ _ _
      exact (h m hm).archive ((h m hm).status (of_decide_eq_true hp).2)
  | @rolledBack name deployedAt current previous rest htop =>
      have htop := TopTwo.of_reverse htop
      intro a ha
      obtain ⟨m, hm, rfl⟩ := ModelRegistry.mem_edit.mp ha
      have hcurrent : isModel current.id m → m.status = .approved := by
        intro hid
        rw [ModelRegistry.eq_of_id hm htop.current_mem (of_decide_eq_true hid)]
        exact htop.current_approved
      have harchived : (((setStage .archived).only (isModel current.id)).apply m).Coherent :=
        Edit.only_coherent (h m hm) fun hid => (h m hm).archive (hcurrent hid)
      refine Edit.only_coherent harchived fun hid => harchived.redeploy ?_ deployedAt
      have hprevious : m = previous := by
        refine ModelRegistry.eq_of_id hm htop.previous_mem ?_
        rw [← of_decide_eq_true hid, Edit.id_eq]
      subst hprevious
      simp only [Edit.only, setStage]
      split
      next => exact htop.previous_approved
      next => exact htop.previous_approved
  | rejected id rejectedBy reason rejectedAt model =>
      intro a ha
      obtain ⟨m, hm, rfl⟩ := ModelRegistry.mem_edit.mp ha
      exact Edit.only_coherent (h m hm) fun _ => refuse_coherent _ _ _

section

variable [Prims F] {cs : List (RegistryEntry F)}

/-- Over every sequence of calls, every model is coherent, and a name has a production model
    to answer with exactly when a model of it is in stage production. -/
theorem models_coherent (hrun : RegistryRun cs r) :
    (∀ m ∈ r.models, m.Coherent) ∧ ∀ name,
      (r.getProductionModel name).isSome ↔
        ∃ m ∈ r.models, m.name = name ∧ m.stage = .production := by
  have hcoherent : ∀ m ∈ r.models, m.Coherent := by
    refine Serial.invariant (I := fun _ r => ∀ m ∈ r.models, m.Coherent) hrun
      (fun m hm => by cases hm) fun cs w c out t' _ h hex => ?_
    obtain ⟨w', henv, rfl⟩ := exec_op.mp hex
    exact (registry_effect henv).coherent h
  refine ⟨hcoherent, fun name => ?_⟩
  have hsorted := r.versions_filter name
    (p := fun m => m.name = name ∧ m.stage = .production ∧ m.status = .approved)
    fun m h => (of_decide_eq_true h).1
  rw [ModelRegistry.getProductionModel, sortedByVersion_eq hsorted, List.getLast?_isSome]
  constructor
  · intro hne
    obtain ⟨m, hm⟩ := List.exists_mem_of_ne_nil _ hne
    obtain ⟨hm, hlive⟩ := List.mem_filter.mp hm
    obtain ⟨hname, hstage, -⟩ := of_decide_eq_true hlive
    exact ⟨m, hm, hname, hstage⟩
  · rintro ⟨m, hm, hname, hstage⟩
    refine List.ne_nil_of_mem (a := m) (List.mem_filter.mpr ⟨hm, ?_⟩)
    simp [hname, hstage, (hcoherent m hm).status hstage]

end

theorem models_coherent_rollbackBelowStaged :
    ∃ cs r, RegistryRun (F := ℚ) cs r ∧ (r.getProductionModel "alpha").isSome ∧
      ∀ m ∈ r.models, m.Coherent := by
  obtain ⟨cs, r, hrun, hproduction⟩ := exists_registryRun_check rollbackBelowStaged
    (fun r => r.models.any fun m => m.name = "alpha" ∧ m.stage = .production) (by decide +kernel)
  obtain ⟨m, hm, hlive⟩ := List.any_eq_true.mp hproduction
  obtain ⟨hcoherent, hsome⟩ := models_coherent hrun
  exact ⟨cs, r, hrun, (hsome "alpha").mpr ⟨m, hm, of_decide_eq_true hlive⟩, hcoherent⟩

end Mtrader.Registry
