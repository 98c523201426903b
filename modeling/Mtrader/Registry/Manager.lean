/-
  Mtrader.Registry.Manager

  `ModelRegistry` of `registry/manager.py`: the model record, the five promotion
  gates, and the operations that register, promote, roll back and reject a
  model.

  - The dict `_models` is kept as its values in insertion order.  Its keys are
    the models' own ids, and `uuid4` never repeats one, so that the models of a
    name lie in the dict in the order of their versions; `ModelRegistry` carries both
    facts.
  - An operation assigns to fields of models in place.  Such an assignment is an
    `Edit`, which cannot change the id, the name or the version.
  - An operation that raises has not assigned anything yet.
-/

import Mtrader.Py.Value
import Mtrader.Coroutine.Exec
import Mathlib.Data.List.Sort

namespace Mtrader.Registry

open Py Coroutine

inductive Status
  | development | approved | rejected
  deriving DecidableEq, Repr

inductive Stage
  | development | staging | production | archived | rejected
  deriving DecidableEq, Repr

/-- The keys of a model's metrics. -/
inductive MetricKey
  | sharpe | maxDrawdown | winRate | inSampleSharpe | outSampleSharpe | trades
  | other (key : String)
  deriving DecidableEq, Repr

/-- The dataclass `Model`. -/
structure Model (F : Type) where
  id : String
  name : String
  version : ℕ
  description : Option String
  status : Status
  stage : Stage
  modelType : String
  framework : Option String
  artifactPath : String
  metrics : Dict MetricKey F
  parameters : Dict String F
  features : List String
  targets : List String
  trainingStart : Option Time
  trainingEnd : Option Time
  trainedAt : Option Time
  approvedAt : Option Time
  approvedBy : Option String
  rejectedAt : Option Time
  rejectedReason : Option String
  deployedAt : Option Time
  deployedBy : Option String
  performanceMetrics : Dict MetricKey F
  createdAt : Time
  createdBy : String

/-- The arguments of `register`. -/
structure Submission (F : Type) where
  name : String
  modelType : String
  artifactPath : String
  metrics : Dict MetricKey F
  parameters : Dict String F
  features : List String
  targets : List String
  createdBy : String
  description : Option String := none
  framework : Option String := none

variable {F : Type}

-- ============================================================================
-- Promotion gates
-- ============================================================================

section

variable [Prims F]

/-- `float(metrics.get(key, default))`. -/
def metric (metrics : Dict MetricKey F) (key : MetricKey) (default : ℤ) : Except Exc F :=
  (metrics.getD key (.int default)).toFloat

def gateMinimumSharpe (metrics : Dict MetricKey F) : Except Exc Bool := do
  return Prims.lt (Prims.ofRat (3 / 2)) (← metric metrics .sharpe 0)

def gateMaximumDrawdown (metrics : Dict MetricKey F) : Except Exc Bool := do
  return Prims.lt (← metric metrics .maxDrawdown 1) (Prims.ofRat (1 / 4))

def gateMinimumWinRate (metrics : Dict MetricKey F) : Except Exc Bool := do
  return Prims.lt (Prims.ofRat (11 / 20)) (← metric metrics .winRate 0)

def gateOutOfSampleConsistency (metrics : Dict MetricKey F) : Except Exc Bool := do
  let inS ← metric metrics .inSampleSharpe 0
  let outS ← metric metrics .outSampleSharpe 0
  return if Prims.lt (Prims.ofRat 0) inS then Prims.lt (Prims.ofRat (7 / 10) * inS) outS else false

def gateMinimumTrades (metrics : Dict MetricKey F) : Except Exc Bool := do
  return 100 ≤ (← (metrics.getD .trades (.int 0)).toInt)

/-- All gates are evaluated, so that any of them may raise. -/
def passesGates (metrics : Dict MetricKey F) : Except Exc Bool := do
  let sharpe ← gateMinimumSharpe metrics
  let drawdown ← gateMaximumDrawdown metrics
  let winRate ← gateMinimumWinRate metrics
  let consistency ← gateOutOfSampleConsistency metrics
  let trades ← gateMinimumTrades metrics
  return sharpe && drawdown && winRate && consistency && trades

end

-- ============================================================================
-- The dict of models
-- ============================================================================

/-- `_models`, in insertion order. -/
structure ModelRegistry (F : Type) where
  models : List (Model F)
  ids : models.Pairwise fun m m' => m.id ≠ m'.id
  versions : models.Pairwise fun m m' => m.name = m'.name → m.version < m'.version

/-- `ModelRegistry()`. -/
def ModelRegistry.empty : ModelRegistry F where
  models := []
  ids := .nil
  versions := .nil

/-- An assignment to fields of a model that leaves its key and its version alone. -/
structure Edit (F : Type) where
  apply : Model F → Model F
  id_eq : ∀ m, (apply m).id = m.id := by intro m; rfl
  name_eq : ∀ m, (apply m).name = m.name := by intro m; rfl
  version_eq : ∀ m, (apply m).version = m.version := by intro m; rfl

attribute [simp] Edit.id_eq Edit.name_eq Edit.version_eq

/-- The assignment, made only to the models in `p`. -/
def Edit.only (p : Model F → Bool) (e : Edit F) : Edit F where
  apply m := if p m then e.apply m else m
  id_eq m := by split <;> simp
  name_eq m := by split <;> simp
  version_eq m := by split <;> simp

/-- One assignment after another. -/
def Edit.andThen (e e' : Edit F) : Edit F where
  apply m := e'.apply (e.apply m)
  id_eq m := by simp
  name_eq m := by simp
  version_eq m := by simp

/-- The registry after an assignment to its models. -/
def ModelRegistry.edit (r : ModelRegistry F) (e : Edit F) : ModelRegistry F where
  models := r.models.map e.apply
  ids := List.pairwise_map.mpr (r.ids.imp fun h => by simpa using h)
  versions := List.pairwise_map.mpr (r.versions.imp fun h => by simpa using h)

/-- `model.stage = stage`. -/
def setStage (stage : Stage) : Edit F where
  apply m := { m with stage := stage }

/-- `self._models.get(model_id)`. -/
def ModelRegistry.getModel (r : ModelRegistry F) (modelId : String) : Option (Model F) :=
  r.models.find? fun m => m.id = modelId

/-- `sorted(models, key=lambda x: x.version)`. -/
def sortedByVersion (models : List (Model F)) : List (Model F) :=
  models.insertionSort fun m m' => m.version ≤ m'.version

def ModelRegistry.getProductionModel (r : ModelRegistry F) (name : String) : Option (Model F) :=
  (sortedByVersion (r.models.filter fun m =>
    m.name = name ∧ m.stage = .production ∧ m.status = .approved)).getLast?

/-- The approved models of a name, by version: what `rollback` chooses from. -/
def ModelRegistry.approvedVersions (r : ModelRegistry F) (name : String) : List (Model F) :=
  sortedByVersion (r.models.filter fun m => m.name = name ∧ m.status = .approved)

-- ============================================================================
-- Operations
-- ============================================================================

/-- `max(versions) + 1 if versions else 1`. -/
def ModelRegistry.nextVersion (r : ModelRegistry F) (name : String) : ℕ :=
  ((r.models.filter fun m => m.name = name).map Model.version).foldr max 0 + 1

theorem ModelRegistry.version_lt_nextVersion {r : ModelRegistry F} {m : Model F}
    (hm : m ∈ r.models) : m.version < r.nextVersion m.name := by
  have hmem : m.version ∈ (r.models.filter fun m' => m'.name = m.name).map Model.version :=
    List.mem_map.mpr ⟨m, List.mem_filter.mpr ⟨hm, by simp⟩, rfl⟩
  have hle : ∀ {versions : List ℕ} {v : ℕ}, v ∈ versions → v ≤ versions.foldr max 0 := by
    intro versions v hv
    induction versions with
    | nil => cases hv
    | cons u versions ih =>
        rw [List.foldr_cons]
        rcases List.mem_cons.mp hv with rfl | hv
        · exact Nat.le_max_left _ _
        · exact (ih hv).trans (Nat.le_max_right _ _)
  exact Nat.lt_succ_of_le (hle hmem)

/-- The model that `register` makes. -/
def ModelRegistry.newModel (r : ModelRegistry F) (id : String) (s : Submission F)
    (trainedAt createdAt : Time) : Model F where
  id := id
  name := s.name
  version := r.nextVersion s.name
  description := s.description
  status := .development
  stage := .development
  modelType := s.modelType
  framework := s.framework
  artifactPath := s.artifactPath
  metrics := s.metrics
  parameters := s.parameters
  features := s.features
  targets := s.targets
  trainingStart := none
  trainingEnd := none
  trainedAt := some trainedAt
  approvedAt := none
  approvedBy := none
  rejectedAt := none
  rejectedReason := none
  deployedAt := none
  deployedBy := none
  performanceMetrics := .empty
  createdAt := createdAt
  createdBy := s.createdBy

/-- `register`; `id` is what `uuid4` gives, which no model has yet. -/
def ModelRegistry.register (r : ModelRegistry F) (id : String) (s : Submission F)
    (trainedAt createdAt : Time) (fresh : ∀ m ∈ r.models, m.id ≠ id) : Model F × ModelRegistry F :=
  (r.newModel id s trainedAt createdAt,
    { models := r.models ++ [r.newModel id s trainedAt createdAt]
      ids := List.pairwise_append.mpr ⟨r.ids, List.pairwise_singleton _ _, by
        intro m hm m' hm'
        rw [List.mem_singleton.mp hm']
        exact fresh m hm⟩
      versions := List.pairwise_append.mpr ⟨r.versions, List.pairwise_singleton _ _, by
        intro m hm m' hm' hname
        rw [List.mem_singleton.mp hm'] at hname ⊢
        have hlt := ModelRegistry.version_lt_nextVersion hm
        rw [hname] at hlt
        exact hlt⟩ })

/-- What `promote_to_staging` assigns. -/
def stage (promotedBy : String) (approvedAt : Time) : Edit F where
  apply m := { m with
    stage := .staging, status := .approved,
    approvedAt := some approvedAt, approvedBy := some promotedBy }

/-- What `promote_to_production` assigns to the model itself. -/
def deploy (approvedBy : String) (deployedAt approvedAt : Time) : Edit F where
  apply m := { m with
    stage := .production, status := .approved,
    deployedAt := some deployedAt, deployedBy := some approvedBy,
    approvedAt := some approvedAt, approvedBy := some approvedBy }

/-- What `rollback` assigns to the model it returns. -/
def redeploy (deployedAt : Time) : Edit F where
  apply m := { m with stage := .production, deployedAt := some deployedAt }

/-- What `reject` assigns. -/
def refuse (rejectedBy reason : String) (rejectedAt : Time) : Edit F where
  apply m := { m with
    status := .rejected, stage := .rejected, rejectedAt := some rejectedAt,
    rejectedReason := some (rejectedBy ++ ": " ++ reason) }

/-- Is it the model with this id? -/
def isModel (id : String) (m : Model F) : Bool := m.id = id

/-- Is it a production model of this name? -/
def inProduction (name : String) (m : Model F) : Bool := m.name = name ∧ m.stage = .production

section

variable [Prims F]

def ModelRegistry.promoteToStaging (r : ModelRegistry F) (modelId promotedBy : String)
    (approvedAt : Time) : Except Exc (Bool × ModelRegistry F) := do
  match r.getModel modelId with
  | none => return (false, r)
  | some model =>
      if ← passesGates model.metrics then
        return (true, r.edit ((stage promotedBy approvedAt).only (isModel model.id)))
      else return (false, r)

/-- The loop archives every production model of the name, before the model itself
    is promoted. -/
def ModelRegistry.promoteToProduction (r : ModelRegistry F) (modelId approvedBy : String)
    (deployedAt approvedAt : Time) : Except Exc (Bool × ModelRegistry F) := do
  match r.getModel modelId with
  | none => return (false, r)
  | some model =>
      if ← passesGates model.metrics then
        return (true, r.edit (((setStage .archived).only (inProduction model.name)).andThen
          ((deploy approvedBy deployedAt approvedAt).only (isModel model.id))))
      else return (false, r)

end

/-- `versions[-1]` is archived and `versions[-2]` becomes production, whatever their
    stages are. -/
def ModelRegistry.rollback (r : ModelRegistry F) (modelName : String) (deployedAt : Time) :
    Except Exc (Model F × ModelRegistry F) :=
  match (r.approvedVersions modelName).reverse with
  | current :: previous :: _ =>
      .ok ((redeploy deployedAt).apply previous,
        r.edit (((setStage .archived).only (isModel current.id)).andThen
          ((redeploy deployedAt).only (isModel previous.id))))
  | _ => .error (.valueError "No rollback candidate")

def ModelRegistry.reject (r : ModelRegistry F) (modelId rejectedBy reason : String)
    (rejectedAt : Time) : Except Exc (Unit × ModelRegistry F) :=
  match r.getModel modelId with
  | none => .error (.valueError "model not found")
  | some model => .ok ((), r.edit ((refuse rejectedBy reason rejectedAt).only (isModel model.id)))

-- ============================================================================
-- Calls
-- ============================================================================

/-- A call of the registry, with the id and the times it is given. -/
inductive RegistryCall (F : Type)
  | register (id : String) (s : Submission F) (trainedAt createdAt : Time)
  | promoteToStaging (modelId promotedBy : String) (approvedAt : Time)
  | promoteToProduction (modelId approvedBy : String) (deployedAt approvedAt : Time)
  | rollback (modelName : String) (deployedAt : Time)
  | reject (modelId rejectedBy reason : String) (rejectedAt : Time)

/-- What a call returns. -/
inductive RegistryAnswer (F : Type)
  | model (m : Model F)
  | flag (b : Bool)
  | done

/-- A call that raises leaves the registry as it was. -/
def ModelRegistry.settle {R : Type} (r : ModelRegistry F) (answer : R → RegistryAnswer F) :
    Except Exc (R × ModelRegistry F) → Except Exc (RegistryAnswer F) × ModelRegistry F
  | .ok (a, r') => (.ok (answer a), r')
  | .error x => (.error x, r)

/-- The registry as the environment of its callers. -/
def registry [Prims F] : Env (ModelRegistry F) (fun _ : RegistryCall F => RegistryAnswer F) Exc :=
  fun r c out r' => match c with
    | .register id s trainedAt createdAt => ∃ fresh,
        out = .ok (.model (r.register id s trainedAt createdAt fresh).1) ∧
          r' = (r.register id s trainedAt createdAt fresh).2
    | .promoteToStaging modelId promotedBy approvedAt =>
        (out, r') = r.settle .flag (r.promoteToStaging modelId promotedBy approvedAt)
    | .promoteToProduction modelId approvedBy deployedAt approvedAt =>
        (out, r') = r.settle .flag (r.promoteToProduction modelId approvedBy deployedAt approvedAt)
    | .rollback modelName deployedAt =>
        (out, r') = r.settle .model (r.rollback modelName deployedAt)
    | .reject modelId rejectedBy reason rejectedAt =>
        (out, r') = r.settle (fun _ => .done) (r.reject modelId rejectedBy reason rejectedAt)

/-- One finished call. -/
abbrev RegistryEntry (F : Type) : Type :=
  Call (RegistryCall F) (ModelRegistry F) (fun _ : RegistryCall F => RegistryAnswer F) Exc
    (RegistryAnswer F)

/-- The calls made one after the other on a new registry, newest first. -/
abbrev RegistryRun [Prims F] : List (RegistryEntry F) → ModelRegistry F → Prop :=
  Serial registry Prog.op .empty

end Mtrader.Registry
