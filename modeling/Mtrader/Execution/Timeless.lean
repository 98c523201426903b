/-
  Mtrader.Execution.Timeless

  Rows and orders up to their timestamps.

  `timeless` puts every timestamp at 0 and leaves its kind, text or datetime, as it is.
  The operations of the engine on rows and orders do not tell timestamps apart: each of
  them, up to timestamps, is a function of its arguments up to timestamps.
-/

import Mtrader.Execution.Engine

namespace Mtrader.Execution

open Py

variable {F : Type}

/-- A value with its timestamp, if it is one, at 0. -/
def valTimeless : Val F → Val F
  | .iso _ => .iso 0
  | .datetime _ => .datetime 0
  | v => v

/-- A row up to its timestamps. -/
def rowTimeless (row : OrderDict F) : OrderDict F := fun k => (row k).map valTimeless

/-- Rows that differ in timestamps only. -/
def RowAlike (row row' : OrderDict F) : Prop := rowTimeless row = rowTimeless row'

/-- An optional timestamp at 0. -/
def stampTimeless (t : Option Time) : Option Time := t.map fun _ => 0

/-- An order up to its timestamps. -/
def Order.timeless (o : Order F) : Order F :=
  { o with openedAt := stampTimeless o.openedAt, closedAt := stampTimeless o.closedAt,
           createdAt := 0, updatedAt := 0 }

/-- Orders that differ in timestamps only. -/
def OrderAlike (o o' : Order F) : Prop := o.timeless = o'.timeless

/-- A keyword argument of `update_order_status` up to its timestamp. -/
def OrderField.timeless : OrderField F → OrderField F
  | .openedAt v => .openedAt (stampTimeless v)
  | .closedAt v => .closedAt (stampTimeless v)
  | .createdAt _ => .createdAt 0
  | .updatedAt _ => .updatedAt 0
  | kw => kw

@[simp] theorem valTimeless_optStr (s : Option String) :
    valTimeless (optStr s : Val F) = optStr s := by
  cases s <;> rfl

@[simp] theorem valTimeless_optFloat (x : Option F) : valTimeless (optFloat x) = optFloat x := by
  cases x <;> rfl

@[simp] theorem valTimeless_optIso (t : Option Time) :
    valTimeless (optIso t : Val F) = optIso (stampTimeless t) := by
  cases t <;> rfl

theorem toDict_timeless (o : Order F) : rowTimeless o.toDict = o.timeless.toDict := by
  funext k
  cases k <;> simp [rowTimeless, Order.toDict, Order.timeless] <;> rfl

/-- Alike orders are written as alike rows. -/
theorem OrderAlike.toDict {o o' : Order F} (h : OrderAlike o o') : RowAlike o.toDict o'.toDict := by
  rw [RowAlike, toDict_timeless, toDict_timeless, h]

theorem setattr_timeless (o : Order F) (kw : OrderField F) :
    (o.setattr kw).timeless = o.timeless.setattr kw.timeless := by
  cases kw <;> rfl

theorem foldl_setattr_timeless (kwargs : List (OrderField F)) (o : Order F) :
    (kwargs.foldl Order.setattr o).timeless
      = (kwargs.map OrderField.timeless).foldl Order.setattr o.timeless := by
  induction kwargs generalizing o with
  | nil => rfl
  | cons kw kws ih => rw [List.foldl_cons, ih, setattr_timeless, List.map_cons, List.foldl_cons]

theorem updated_timeless (o : Order F) (status : OrderStatus) (kwargs : List (OrderField F))
    (now : Time) :
    (o.updated status kwargs now).timeless
      = (o.timeless.updated status (kwargs.map OrderField.timeless) 0).timeless := by
  have hfold := foldl_setattr_timeless kwargs { o with status := status }
  have hstart : ({ o with status := status } : Order F).timeless
      = { o.timeless with status := status } := rfl
  rw [hstart] at hfold
  show ({ kwargs.foldl Order.setattr { o with status := status } with updatedAt := 0 } :
      Order F).timeless = _
  unfold Order.updated
  rw [← hfold]
  simp [Order.timeless, stampTimeless, Option.map_map, Function.comp_def]

/-- Alike orders stay alike. -/
theorem OrderAlike.updated {o o' : Order F} (h : OrderAlike o o') (status : OrderStatus)
    {kwargs kwargs' : List (OrderField F)}
    (hkw : kwargs.map OrderField.timeless = kwargs'.map OrderField.timeless) (now now' : Time) :
    OrderAlike (o.updated status kwargs now) (o'.updated status kwargs' now') := by
  rw [OrderAlike, updated_timeless, updated_timeless o', h, hkw]

theorem OrderAlike.status {o o' : Order F} (h : OrderAlike o o') : o.status = o'.status := by
  have hstatus : o.timeless.status = o'.timeless.status := by rw [h]
  exact hstatus

-- ============================================================================
-- _hydrate
-- ============================================================================

section

variable (v : Val F) (row : OrderDict F) (k : OrderKey)

@[simp] theorem asStr_timeless : asStr (valTimeless v) = asStr v := by cases v <;> rfl

@[simp] theorem asOptStr_timeless : asOptStr (valTimeless v) = asOptStr v := by cases v <;> rfl

@[simp] theorem asOptFloat_timeless : asOptFloat (valTimeless v) = asOptFloat v := by
  cases v <;> rfl

@[simp] theorem asEnum_timeless {α : Type} (ofValue : String → Option α) (name : String) :
    asEnum ofValue name (valTimeless v) = asEnum ofValue name v := by
  cases v <;> rfl

@[simp] theorem item_timeless : (rowTimeless row).item k = valTimeless <$> row.item k := by
  cases h : row k <;> simp [Dict.item, rowTimeless, h]

@[simp] theorem get_timeless : (rowTimeless row).get k = valTimeless (row.get k) := by
  cases h : row k <;> simp [Dict.get, rowTimeless, h, valTimeless]

@[simp] theorem getD_timeless {d : Val F} (hd : valTimeless d = d) :
    (rowTimeless row).getD k d = valTimeless (row.getD k d) := by
  cases h : row k <;> simp [Dict.getD, rowTimeless, h, hd]

variable [Prims F]

@[simp] theorem toFloat_timeless : (valTimeless v).toFloat = v.toFloat := by cases v <;> rfl

@[simp] theorem truthy_timeless : (valTimeless v).truthy = v.truthy := by cases v <;> rfl

@[simp] theorem optStamp_timeless :
    optStamp (rowTimeless row) k = stampTimeless <$> optStamp row k := by
  unfold optStamp
  rw [get_timeless, truthy_timeless]
  cases row.get k <;> simp [valTimeless, fromisoformat, stampTimeless] <;> split <;> rfl

omit [Prims F] in
theorem stamp_timeless (now : Time) :
    stamp 0 (rowTimeless row) k = (fun _ => 0) <$> stamp now row k := by
  unfold stamp rowTimeless
  cases row k with
  | none => rfl
  | some v => cases v <;> rfl

end

variable [Prims F]

/-- What `_hydrate` makes of a row, up to timestamps, is a function of the row up to
    timestamps. -/
theorem hydrate_timeless (nowC nowU : Time) (row : OrderDict F) :
    hydrate 0 0 (rowTimeless row) = Order.timeless <$> hydrate nowC nowU row := by
  have hint : ∀ i : ℤ, valTimeless (.int i : Val F) = .int i := fun _ => rfl
  have hstr : ∀ s : String, valTimeless (.str s : Val F) = .str s := fun _ => rfl
  simp only [hydrate, map_bind, item_timeless, get_timeless, getD_timeless, hint, hstr,
    bind_map_left, asStr_timeless, asOptStr_timeless, asOptFloat_timeless, asEnum_timeless,
    toFloat_timeless, optStamp_timeless, stamp_timeless row .createdAt nowC,
    stamp_timeless row .updatedAt nowU, map_pure]
  rfl

end Mtrader.Execution
