/-
  Mtrader.Sql.Guarded

  Migrations whose every statement is guarded by the question whether its object is
  there: the upgrade creates what is missing, the downgrade drops what it finds.

  After a downgrade none of the objects is there, so it restores a schema only if none
  was; and then it does, in every order that drops what needs an object before it.
-/

import Mtrader.Sql.Catalog

namespace Sql

/-- Something that one statement creates and another drops, and the question that guards
    both. -/
structure Guarded where
  objects : Finset SchemaObject
  guard : SchemaObject → Bool
  create : Schema → Option Schema
  drop : Schema → Option Schema
  guarded : ∃ o ∈ objects, guard o = true
  create_objects : ∀ {s s'}, create s = some s' → s'.objects = s.objects ∪ objects
  drop_subset : ∀ {s s'}, drop s = some s' → s'.objects ⊆ s.objects
  drop_absent : ∀ {s s'}, drop s = some s' → s'.any guard = false
  drop_union : ∀ {r s}, r.any guard = false → s.objects = r.objects ∪ objects → drop s = some r

namespace Guarded

/-- It is there. -/
def present (x : Guarded) (s : Schema) : Bool := s.any x.guard

def up (x : Guarded) (s : Schema) : Option Schema := if x.present s then some s else x.create s

def down (x : Guarded) (s : Schema) : Option Schema := if x.present s then x.drop s else some s

def upgrade : List Guarded → Schema → Option Schema
  | [], s => some s
  | x :: xs, s => (x.up s).bind (upgrade xs)

def downgrade : List Guarded → Schema → Option Schema
  | [], s => some s
  | x :: xs, s => (x.down s).bind (downgrade xs)

/-- Neither's objects answer the other's question. -/
def Apart (x y : Guarded) : Prop :=
  (∀ o ∈ y.objects, x.guard o = false) ∧ ∀ o ∈ x.objects, y.guard o = false

/-- The objects of `x` need none of `y`. -/
def Without (y x : Guarded) : Prop :=
  ∀ o ∈ x.objects, ∀ n ∈ o.needs, ∀ o' ∈ y.objects, o'.provides n = false

instance (x y : Guarded) : Decidable (Apart x y) := inferInstanceAs (Decidable (_ ∧ _))

instance (x y : Guarded) : Decidable (Without y x) :=
  inferInstanceAs (Decidable (∀ o ∈ x.objects, ∀ n ∈ o.needs, ∀ o' ∈ y.objects, _ = _))

theorem Apart.symm {x y : Guarded} (h : Apart x y) : Apart y x := ⟨h.2, h.1⟩

-- ============================================================================
-- Upgrades
-- ============================================================================

/-- The objects of a list. -/
def objectsOf : List Guarded → Finset SchemaObject
  | [] => ∅
  | x :: xs => x.objects ∪ objectsOf xs

theorem mem_objectsOf {xs : List Guarded} {o : SchemaObject} :
    o ∈ objectsOf xs ↔ ∃ x ∈ xs, o ∈ x.objects := by
  induction xs with
  | nil => simp [objectsOf]
  | cons x xs ih => simp [objectsOf, ih]

variable {s s' : Schema} {x : Guarded} {xs : List Guarded}

/-- What is absent stays so when the objects of others are added. -/
theorem absent_union {objects : Finset SchemaObject} (h : x.present s = false)
    (hobjects : ∀ o ∈ objects, x.guard o = false) (hs : s'.objects = s.objects ∪ objects) :
    x.present s' = false := by
  refine Schema.any_eq_false.mpr fun o ho => ?_
  rw [hs, Finset.mem_union] at ho
  rcases ho with ho | ho
  · exact Schema.any_eq_false.mp h o ho
  · exact hobjects o ho

/-- An upgrade that finds nothing creates everything. -/
theorem upgrade_objects (hup : upgrade xs s = some s') (habsent : ∀ x ∈ xs, x.present s = false)
    (hapart : xs.Pairwise Apart) : s'.objects = s.objects ∪ objectsOf xs := by
  induction xs generalizing s with
  | nil =>
      rw [← Option.some.inj hup, objectsOf, Finset.union_empty]
  | cons x xs ih =>
      obtain ⟨s₁, hx, hxs⟩ := Option.bind_eq_some_iff.mp hup
      rw [up, habsent x List.mem_cons_self] at hx
      have hobjects : s₁.objects = s.objects ∪ x.objects := x.create_objects hx
      obtain ⟨hhead, htail⟩ := List.pairwise_cons.mp hapart
      have habsent₁ : ∀ y ∈ xs, y.present s₁ = false := fun y hy =>
        absent_union (habsent y (List.mem_cons_of_mem _ hy)) (hhead y hy).2 hobjects
      rw [ih hxs habsent₁ htail, hobjects, objectsOf, Finset.union_assoc]

/-- After its step a thing is there, and so is all that was there before. -/
theorem up_present (h : x.up s = some s') : x.present s' = true := by
  unfold up at h
  split at h
  next hpresent =>
    rw [← Option.some.inj h]
    exact hpresent
  next =>
    obtain ⟨o, ho, hguard⟩ := x.guarded
    refine Schema.any_eq_true.mpr ⟨o, ?_, hguard⟩
    rw [x.create_objects h]
    exact Finset.mem_union_right _ ho

theorem up_subset (h : x.up s = some s') : s.objects ⊆ s'.objects := by
  unfold up at h
  split at h
  next => rw [← Option.some.inj h]
  next =>
    rw [x.create_objects h]
    exact Finset.subset_union_left

-- ============================================================================
-- Downgrades
-- ============================================================================

theorem down_subset (h : x.down s = some s') : s'.objects ⊆ s.objects := by
  unfold down at h
  split at h
  next => exact x.drop_subset h
  next => rw [← Option.some.inj h]

theorem downgrade_subset (h : downgrade xs s = some s') : s'.objects ⊆ s.objects := by
  induction xs generalizing s with
  | nil => rw [← Option.some.inj h]
  | cons x xs ih =>
      obtain ⟨s₁, hx, hxs⟩ := Option.bind_eq_some_iff.mp h
      exact (ih hxs).trans (down_subset hx)

/-- After a downgrade nothing of the list is there. -/
theorem downgrade_absent (h : downgrade xs s = some s') : ∀ x ∈ xs, x.present s' = false := by
  induction xs generalizing s with
  | nil => exact fun x hx => nomatch hx
  | cons x xs ih =>
      obtain ⟨s₁, hx, hxs⟩ := Option.bind_eq_some_iff.mp h
      intro y hy
      rcases List.mem_cons.mp hy with rfl | hy
      · refine Schema.any_mono (downgrade_subset hxs) ?_
        unfold down at hx
        split at hx
        next => exact y.drop_absent hx
        next habsent =>
          rw [← Option.some.inj hx]
          exact Bool.not_eq_true _ ▸ habsent
      · exact ih hxs y hy

/-- Without the objects of `y`, which none of the rest needs, there is still a schema. -/
theorem closed_rest {y : Guarded} (ht : s'.objects = s.objects ∪ objectsOf (y :: xs))
    (hwithout : ∀ x ∈ xs, Without y x) : Closed (s.objects ∪ objectsOf xs) := by
  intro o ho n hn
  rcases Finset.mem_union.mp ho with ho | ho
  · obtain ⟨o', ho', hprovides⟩ := s.closed o ho n hn
    exact ⟨o', Finset.mem_union_left _ ho', hprovides⟩
  · obtain ⟨x, hx, hox⟩ := mem_objectsOf.mp ho
    have hot : o ∈ s'.objects := by
      rw [ht, objectsOf]
      exact Finset.mem_union_right _ (Finset.mem_union_right _ ho)
    obtain ⟨o', ho', hprovides⟩ := s'.closed o hot n hn
    rw [ht, objectsOf, Finset.mem_union, Finset.mem_union] at ho'
    rcases ho' with ho' | ho' | ho'
    · exact ⟨o', Finset.mem_union_left _ ho', hprovides⟩
    · rw [hwithout x hx o hox n hn o' ho'] at hprovides
      cases hprovides
    · exact ⟨o', Finset.mem_union_right _ ho', hprovides⟩

/-- A downgrade drops what was added to a schema. -/
theorem downgrade_union (ht : s'.objects = s.objects ∪ objectsOf xs)
    (habsent : ∀ x ∈ xs, x.present s = false) (hapart : xs.Pairwise Apart)
    (hwithout : xs.Pairwise Without) : downgrade xs s' = some s := by
  induction xs generalizing s' with
  | nil =>
      rw [objectsOf, Finset.union_empty] at ht
      exact congrArg some (Schema.ext ht)
  | cons y xs ih =>
      obtain ⟨hapart_y, hapart⟩ := List.pairwise_cons.mp hapart
      obtain ⟨hwithout_y, hwithout⟩ := List.pairwise_cons.mp hwithout
      let r : Schema := ⟨s.objects ∪ objectsOf xs, closed_rest ht hwithout_y⟩
      have hs' : s'.objects = r.objects ∪ y.objects := by
        rw [ht, objectsOf, Finset.union_assoc, Finset.union_comm (objectsOf xs)]
      have hr : y.present r = false := by
        refine absent_union (habsent y List.mem_cons_self) (fun o ho => ?_) rfl
        obtain ⟨x, hx, hox⟩ := mem_objectsOf.mp ho
        exact (hapart_y x hx).1 o hox
      have hpresent : y.present s' = true := by
        obtain ⟨o, ho, hguard⟩ := y.guarded
        refine Schema.any_eq_true.mpr ⟨o, ?_, hguard⟩
        rw [hs']
        exact Finset.mem_union_right _ ho
      have hy : y.down s' = some r := by
        rw [down, if_pos hpresent]
        exact y.drop_union hr hs'
      rw [downgrade, hy]
      exact ih rfl (fun x hx => habsent x (List.mem_cons_of_mem _ hx)) hapart hwithout

/-- An upgrade and its downgrade restore a schema exactly if nothing of what they guard
    was there. -/
theorem restores_iff {ys : List Guarded} (hperm : xs.Perm ys) (hapart : xs.Pairwise Apart)
    (hwithout : ys.Pairwise Without) (hup : upgrade xs s = some s') :
    downgrade ys s' = some s ↔ ∀ x ∈ xs, x.present s = false := by
  constructor
  · intro hdown x hx
    exact downgrade_absent hdown x (hperm.mem_iff.mp hx)
  · intro habsent
    have hobjects : objectsOf xs = objectsOf ys := by
      ext o
      rw [mem_objectsOf, mem_objectsOf]
      exact exists_congr fun x => and_congr_left fun _ => hperm.mem_iff
    refine downgrade_union ?_ (fun x hx => habsent x (hperm.mem_iff.mpr hx))
      (hperm.pairwise hapart fun h => h.symm) hwithout
    rw [← hobjects]
    exact upgrade_objects hup habsent hapart

-- ============================================================================
-- The statements
-- ============================================================================

section

variable {p : SchemaObject → Bool}

/-- A statement that fails unless its question says no. -/
theorem of_unless {q : Bool} {r : Option Schema} (h : (if q then none else r) = some s') :
    r = some s' := by
  cases q with
  | true => cases h
  | false => exact h

theorem of_when {q : Bool} {r : Option Schema} (h : (if q then r else none) = some s') :
    r = some s' := by
  cases q with
  | true => exact h
  | false => cases h

/-- A drop that looks for what it removes. -/
theorem drop_found {r : Schema} {objects : Finset SchemaObject} {q : SchemaObject → Bool}
    (hs : s.objects = r.objects ∪ objects) (hr : ∀ o ∈ r.objects, p o = false)
    (hobjects : ∀ o ∈ objects, p o = true) {o : SchemaObject} (ho : o ∈ objects)
    (hq : q o = true) : (if s.any q then s.remove p else none) = some r := by
  have hfound : s.any q = true := by
    refine Schema.any_eq_true.mpr ⟨o, ?_, hq⟩
    rw [hs]
    exact Finset.mem_union_right _ ho
  rw [if_pos hfound]
  exact Schema.remove_union hs hr hobjects

end

/-- `ADD COLUMN` and `DROP COLUMN`. -/
def column (t : String) (c : Column) : Guarded where
  objects := {.column t c}
  guard := SchemaObject.isColumn t c.name
  create s := s.addColumn t c
  drop s := s.dropColumn t c.name
  guarded := ⟨_, Finset.mem_singleton_self _, by simp [SchemaObject.isColumn]⟩
  create_objects h := by
    rw [Schema.addColumn] at h
    exact Schema.insert_objects (of_unless h)
  drop_subset h := Schema.remove_subset (of_when h)
  drop_absent h := by
    refine Schema.any_remove (of_when h) fun o ho => ?_
    cases o with
    | column t' d => exact ho
    | _ => cases ho
  drop_union hr hs := by
    refine drop_found hs (Schema.onColumn_of_absent hr) (fun o ho => ?_)
      (Finset.mem_singleton_self _) (by simp [SchemaObject.isColumn])
    rw [Finset.mem_singleton.mp ho]
    simp [SchemaObject.onColumn]

/-- `ADD CONSTRAINT` and `DROP CONSTRAINT` of a foreign key. -/
def foreignKey (n t rt : String) (columns refColumns : List String) : Guarded where
  objects := {.constraint t n (.foreignKey columns rt refColumns)}
  guard := SchemaObject.isKeyConstraint t n
  create s := s.createForeignKey n t rt columns refColumns
  drop s := s.dropConstraint n t
  guarded := ⟨_, Finset.mem_singleton_self _, by
    simp [SchemaObject.isKeyConstraint, SchemaObject.isConstraint]⟩
  create_objects h := by
    rw [Schema.createForeignKey] at h
    exact Schema.insert_objects (of_unless h)
  drop_subset h := Schema.remove_subset (of_when h)
  drop_absent h := Schema.any_remove (of_when h) fun _ ho => ho
  drop_union hr hs := by
    have hself : SchemaObject.isKeyConstraint t n
        (.constraint t n (.foreignKey columns rt refColumns)) = true := by
      simp [SchemaObject.isKeyConstraint, SchemaObject.isConstraint]
    refine drop_found hs (Schema.any_eq_false.mp hr) (fun o ho => ?_)
      (Finset.mem_singleton_self _) hself
    rw [Finset.mem_singleton.mp ho]
    exact hself

/-- `ADD CONSTRAINT` and `DROP CONSTRAINT` of a unique constraint. -/
def unique (n t : String) (columns : List String) : Guarded where
  objects := {.constraint t n (.unique columns)}
  guard := SchemaObject.isKeyConstraint t n
  create s := s.createUniqueConstraint n t columns
  drop s := s.dropConstraint n t
  guarded := ⟨_, Finset.mem_singleton_self _, by
    simp [SchemaObject.isKeyConstraint, SchemaObject.isConstraint]⟩
  create_objects h := by
    rw [Schema.createUniqueConstraint] at h
    exact Schema.insert_objects (of_unless h)
  drop_subset h := Schema.remove_subset (of_when h)
  drop_absent h := Schema.any_remove (of_when h) fun _ ho => ho
  drop_union hr hs := by
    have hself : SchemaObject.isKeyConstraint t n (.constraint t n (.unique columns)) = true := by
      simp [SchemaObject.isKeyConstraint, SchemaObject.isConstraint]
    refine drop_found hs (Schema.any_eq_false.mp hr) (fun o ho => ?_)
      (Finset.mem_singleton_self _) hself
    rw [Finset.mem_singleton.mp ho]
    exact hself

/-- `CREATE INDEX` and `DROP INDEX`. -/
def index (n t : String) (columns : List String) (unique : Bool) : Guarded where
  objects := {.index t n { columns, unique }}
  guard := SchemaObject.isIndex t n
  create s := s.createIndex n t columns unique
  drop s := s.dropIndex n t
  guarded := ⟨_, Finset.mem_singleton_self _, by simp [SchemaObject.isIndex]⟩
  create_objects h := by
    rw [Schema.createIndex] at h
    exact Schema.insert_objects (of_unless h)
  drop_subset h := Schema.remove_subset (of_when (of_unless h))
  drop_absent h := Schema.any_remove (of_when (of_unless h)) fun _ ho => ho
  drop_union {r s} hr hs := by
    have hnone : s.any (SchemaObject.isUnique t n) = false := by
      refine Schema.any_eq_false.mpr fun o ho => ?_
      rw [hs, Finset.mem_union, Finset.mem_singleton] at ho
      rcases ho with ho | rfl
      · have hindex := Schema.any_eq_false.mp hr o ho
        cases o with
        | constraint t' n' d => exact hindex
        | _ => rfl
      · rfl
    rw [Schema.dropIndex, hnone]
    refine drop_found hs (Schema.any_eq_false.mp hr) (fun o ho => ?_)
      (Finset.mem_singleton_self _) (by simp [SchemaObject.isIndex])
    rw [Finset.mem_singleton.mp ho]
    simp [SchemaObject.isIndex]

/-- `CREATE TABLE` and `DROP TABLE`. -/
def table (t : String) (columns : List Column) (primaryKey : List String) : Guarded where
  objects := Schema.tableObjects t columns primaryKey
  guard := SchemaObject.isTable t
  create s := s.createTable t columns primaryKey
  drop s := s.dropTable t
  guarded := ⟨.table t, by simp [Schema.tableObjects], by simp [SchemaObject.isTable]⟩
  create_objects h := by
    rw [Schema.createTable] at h
    exact Schema.insert_objects (of_unless h)
  drop_subset h := Schema.remove_subset (of_when h)
  drop_absent h := by
    refine Schema.any_remove (of_when h) fun o ho => ?_
    rw [SchemaObject.isTable, decide_eq_true_iff] at ho
    rw [ho]
    exact decide_eq_true rfl
  drop_union hr hs := by
    refine drop_found hs (fun o ho => ?_) (fun o ho => ?_)
      (o := .table t) (by simp [Schema.tableObjects]) (by simp [SchemaObject.isTable])
    · exact decide_eq_false (Schema.tableName_of_absent hr o ho)
    · rw [Schema.tableObjects, Finset.mem_union, Finset.mem_union, Finset.mem_singleton,
        Finset.mem_singleton, List.mem_toFinset, List.mem_map] at ho
      rcases ho with (rfl | ⟨c, -, rfl⟩) | rfl <;> exact decide_eq_true rfl

end Guarded

end Sql
