/-
  Mtrader.Sql.Catalog

  The catalog of a database: its tables, columns, constraints and indexes.

  A `Schema` is a set of these objects that is closed under what each needs: a
  column its table, a constraint and an index their columns, a foreign key a key to
  refer to.  A statement adds objects or removes some, and fails where the rest would
  not be a schema.
-/

import Mathlib.Data.Finset.Union
import Mathlib.Data.List.Pairwise

namespace Sql

-- ============================================================================
-- Objects
-- ============================================================================

structure Column where
  name : String
  type : String
  nullable : Bool := true
  serverDefault : Option String := none
  deriving DecidableEq

inductive ConstraintDef
  | primaryKey (columns : List String)
  | unique (columns : List String)
  | foreignKey (columns : List String) (refTable : String) (refColumns : List String)
  deriving DecidableEq

def ConstraintDef.columns : ConstraintDef → List String
  | .primaryKey columns => columns
  | .unique columns => columns
  | .foreignKey columns _ _ => columns

structure IndexDef where
  columns : List String
  unique : Bool := false
  deriving DecidableEq

/-- An object of the catalog; all but a table are of one. -/
inductive SchemaObject
  | table (name : String)
  | column (table : String) (definition : Column)
  | constraint (table name : String) (definition : ConstraintDef)
  | index (table name : String) (definition : IndexDef)
  deriving DecidableEq

/-- What an object needs to be there. -/
inductive Need
  | table (name : String)
  | column (table name : String)
  | key (table : String) (columns : List String)
  deriving DecidableEq

namespace SchemaObject

/-- The table the object is of, or is. -/
def tableName : SchemaObject → String
  | .table t => t
  | .column t _ => t
  | .constraint t _ _ => t
  | .index t _ _ => t

/-- The name among tables and indexes; a key is an index too. -/
def relation : SchemaObject → Option String
  | .table t => some t
  | .index _ n _ => some n
  | .constraint _ n (.primaryKey _) => some n
  | .constraint _ n (.unique _) => some n
  | _ => none

def isTable (t : String) (o : SchemaObject) : Bool := o = .table t

def isColumn (t c : String) : SchemaObject → Bool
  | .column t' d => t' = t && d.name = c
  | _ => false

def isConstraint (t n : String) : SchemaObject → Bool
  | .constraint t' n' _ => t' = t && n' = n
  | _ => false

/-- A foreign key or a unique constraint. -/
def isKeyConstraint (t n : String) : SchemaObject → Bool
  | .constraint _ _ (.primaryKey _) => false
  | o => o.isConstraint t n

def isUnique (t n : String) : SchemaObject → Bool
  | .constraint t' n' (.unique _) => t' = t && n' = n
  | _ => false

/-- An index, or the one that a unique constraint comes with. -/
def isIndex (t n : String) : SchemaObject → Bool
  | .index t' n' _ => t' = t && n' = n
  | o => o.isUnique t n

def needs : SchemaObject → List Need
  | .table _ => []
  | .column t _ => [.table t]
  | .constraint t _ d => .table t :: d.columns.map (.column t) ++
      match d with
      | .foreignKey _ rt rcs => [.key rt rcs]
      | _ => []
  | .index t _ d => .table t :: d.columns.map (.column t)

def provides : SchemaObject → Need → Bool
  | .table t, .table t' => t = t'
  | .column t c, .column t' n => t = t' && c.name = n
  | .constraint t _ (.primaryKey cs), .key t' cs' => t = t' && cs = cs'
  | .constraint t _ (.unique cs), .key t' cs' => t = t' && cs = cs'
  | .index t _ d, .key t' cs => d.unique && t = t' && d.columns = cs
  | _, _ => false

/-- The object is the column, or goes with it: a constraint or an index of the table
    on the column. -/
def onColumn (t c : String) : SchemaObject → Bool
  | .column t' d => t' = t && d.name = c
  | .constraint t' _ d => t' = t && c ∈ d.columns
  | .index t' _ d => t' = t && c ∈ d.columns
  | .table _ => false

end SchemaObject

-- ============================================================================
-- Schemas
-- ============================================================================

/-- Everything that an object needs is there. -/
def Closed (objects : Finset SchemaObject) : Prop :=
  ∀ o ∈ objects, ∀ n ∈ o.needs, ∃ o' ∈ objects, o'.provides n = true

instance (objects : Finset SchemaObject) : Decidable (Closed objects) :=
  inferInstanceAs (Decidable (∀ o ∈ objects, ∀ n ∈ o.needs, ∃ o' ∈ objects, o'.provides n = true))

structure Schema where
  objects : Finset SchemaObject
  closed : Closed objects

@[ext] theorem Schema.ext {s s' : Schema} (h : s.objects = s'.objects) : s = s' := by
  cases s
  cases s'
  cases h
  rfl

instance : DecidableEq Schema := fun _ _ => decidable_of_iff _ Schema.ext_iff.symm

namespace Schema

variable (s : Schema)

/-- One of the objects. -/
def any (p : SchemaObject → Bool) : Bool := decide (∃ o ∈ s.objects, p o = true)

/-- Add objects, if what they need is there. -/
def insert (objects : Finset SchemaObject) : Option Schema :=
  if h : Closed (s.objects ∪ objects) then some ⟨_, h⟩ else none

/-- Remove objects, if none of the others needs them. -/
def remove (p : SchemaObject → Bool) : Option Schema :=
  if h : Closed (s.objects.filter fun o => ¬ p o) then some ⟨_, h⟩ else none

variable {s} {s' : Schema} {p : SchemaObject → Bool}

theorem any_eq_true : s.any p = true ↔ ∃ o ∈ s.objects, p o = true := decide_eq_true_iff

theorem any_eq_false : s.any p = false ↔ ∀ o ∈ s.objects, p o = false := by
  rw [any, decide_eq_false_iff_not]
  simp only [not_exists, not_and, Bool.not_eq_true]

/-- What a smaller schema has, a larger one has. -/
theorem any_mono (hsub : s.objects ⊆ s'.objects) (h : s'.any p = false) : s.any p = false :=
  any_eq_false.mpr fun o ho => any_eq_false.mp h o (hsub ho)

theorem insert_objects {objects : Finset SchemaObject} (h : s.insert objects = some s') :
    s'.objects = s.objects ∪ objects := by
  unfold insert at h
  split at h
  next => rw [← Option.some.inj h]
  next => cases h

theorem remove_objects (h : s.remove p = some s') :
    s'.objects = s.objects.filter fun o => ¬ p o := by
  unfold remove at h
  split at h
  next => rw [← Option.some.inj h]
  next => cases h

theorem remove_subset (h : s.remove p = some s') : s'.objects ⊆ s.objects := by
  rw [remove_objects h]
  exact Finset.filter_subset _ _

/-- What is removed is gone. -/
theorem any_remove (h : s.remove p = some s') {q : SchemaObject → Bool}
    (hq : ∀ o, q o = true → p o = true) : s'.any q = false := by
  refine any_eq_false.mpr fun o ho => ?_
  rw [remove_objects h, Finset.mem_filter] at ho
  by_contra hqo
  exact ho.2 (hq o (by simpa using hqo))

/-- Removing all that was added to a schema, and nothing else, restores it. -/
theorem remove_union {r : Schema} {objects : Finset SchemaObject}
    (hs : s.objects = r.objects ∪ objects) (hr : ∀ o ∈ r.objects, p o = false)
    (hobjects : ∀ o ∈ objects, p o = true) : s.remove p = some r := by
  have hrest : (s.objects.filter fun o => ¬ p o) = r.objects := by
    ext o
    rw [hs, Finset.mem_filter, Finset.mem_union]
    constructor
    · rintro ⟨ho | ho, hnot⟩
      · exact ho
      · exact absurd (hobjects o ho) hnot
    · intro ho
      exact ⟨.inl ho, by simp [hr o ho]⟩
  unfold remove
  split
  next => exact congrArg some (Schema.ext hrest)
  next h =>
    rw [hrest] at h
    exact absurd r.closed h

/-- Where there is no such table, nothing is of it. -/
theorem tableName_of_absent {t : String} (h : s.any (SchemaObject.isTable t) = false) :
    ∀ o ∈ s.objects, o.tableName ≠ t := by
  rintro o ho rfl
  have hnone := any_eq_false.mp h
  have hneeds : Need.table o.tableName ∈ o.needs → False := by
    intro hn
    obtain ⟨o', ho', hprovides⟩ := s.closed o ho _ hn
    have hnot := hnone o' ho'
    cases o' with
    | table t' => simp_all [SchemaObject.provides, SchemaObject.isTable]
    | column t' c => cases hprovides
    | constraint t' n d => cases d <;> cases hprovides
    | index t' n d => cases hprovides
  cases o with
  | table t =>
      have hnot := hnone _ ho
      simp [SchemaObject.isTable, SchemaObject.tableName] at hnot
  | column t c => exact hneeds (List.mem_singleton_self _)
  | constraint t n d => exact hneeds List.mem_cons_self
  | index t n d => exact hneeds List.mem_cons_self

/-- Where there is no such column, nothing is on it. -/
theorem onColumn_of_absent {t c : String} (h : s.any (SchemaObject.isColumn t c) = false) :
    ∀ o ∈ s.objects, o.onColumn t c = false := by
  intro o ho
  have hnone := any_eq_false.mp h
  have hneeds : Need.column t c ∉ o.needs := by
    intro hn
    obtain ⟨o', ho', hprovides⟩ := s.closed o ho _ hn
    have hnot := hnone o' ho'
    cases o' with
    | column t' d =>
        have hsame : t' = t ∧ d.name = c := by simpa [SchemaObject.provides] using hprovides
        simp [SchemaObject.isColumn, hsame] at hnot
    | table t' => cases hprovides
    | constraint t' n d => cases d <;> cases hprovides
    | index t' n d => cases hprovides
  by_contra hon
  rw [Bool.not_eq_false] at hon
  cases o with
  | table t' => cases hon
  | column t' d => exact absurd hon (by rw [Bool.not_eq_true]; exact hnone _ ho)
  | constraint t' n d =>
      have hon : t' = t ∧ c ∈ d.columns := by simpa [SchemaObject.onColumn] using hon
      obtain ⟨rfl, hc⟩ := hon
      refine hneeds (List.mem_append_left _ (List.mem_cons_of_mem _ ?_))
      exact List.mem_map_of_mem hc
  | index t' n d =>
      have hon : t' = t ∧ c ∈ d.columns := by simpa [SchemaObject.onColumn] using hon
      obtain ⟨rfl, hc⟩ := hon
      exact hneeds (List.mem_cons_of_mem _ (List.mem_map_of_mem hc))

-- ============================================================================
-- Statements
-- ============================================================================

variable (s)

/-- A table or an index has the name. -/
def named (n : String) : Bool := s.any fun o => o.relation = some n

def addColumn (t : String) (c : Column) : Option Schema :=
  if s.any (SchemaObject.isColumn t c.name) then none else s.insert {.column t c}

/-- The constraints and the indexes of the table that are on the column go with it. -/
def dropColumn (t c : String) : Option Schema :=
  if s.any (SchemaObject.isColumn t c) then s.remove (SchemaObject.onColumn t c) else none

def createForeignKey (n t rt : String) (columns refColumns : List String) : Option Schema :=
  if s.any (SchemaObject.isConstraint t n) then none
  else s.insert {.constraint t n (.foreignKey columns rt refColumns)}

def createUniqueConstraint (n t : String) (columns : List String) : Option Schema :=
  if s.any (SchemaObject.isConstraint t n) || s.named n then none
  else s.insert {.constraint t n (.unique columns)}

/-- Of a foreign key or a unique constraint. -/
def dropConstraint (n t : String) : Option Schema :=
  if s.any (SchemaObject.isKeyConstraint t n) then s.remove (SchemaObject.isKeyConstraint t n)
  else none

def createIndex (n t : String) (columns : List String) (unique : Bool) : Option Schema :=
  if s.named n then none else s.insert {.index t n { columns, unique }}

/-- The index of a constraint is not dropped without it. -/
def dropIndex (n t : String) : Option Schema :=
  if s.any (SchemaObject.isUnique t n) then none
  else if s.any (SchemaObject.isIndex t n) then s.remove (SchemaObject.isIndex t n)
  else none

/-- The objects of a new table. -/
def tableObjects (t : String) (columns : List Column) (primaryKey : List String) :
    Finset SchemaObject :=
  {.table t} ∪ (columns.map (SchemaObject.column t)).toFinset ∪
    {.constraint t (t ++ "_pkey") (.primaryKey primaryKey)}

def createTable (t : String) (columns : List Column) (primaryKey : List String) :
    Option Schema :=
  if s.named t || s.named (t ++ "_pkey") then none
  else s.insert (tableObjects t columns primaryKey)

def dropTable (t : String) : Option Schema :=
  if s.any (SchemaObject.isTable t) then s.remove fun o => o.tableName = t else none

end Schema

end Sql
