/-
  Mtrader.Execution.Table

  The orders table an `ExecutionEngine` works on, as the rows last written for
  each order id, and the two ways the stores of this repository save an order.
-/

import Mtrader.Execution.Engine
import Mathlib.Logic.Function.Basic

namespace Mtrader.Execution

open Py

variable {F : Type}

/-- The row stored for each order id. -/
abbrev Table (F : Type) : Type := String → Option (OrderDict F)

/-- `update_order(id, row)`: the row is overwritten. -/
def Table.put (t : Table F) (id : String) (row : OrderDict F) : Table F :=
  Function.update t id (some row)

@[simp] theorem Table.put_self (t : Table F) (id : String) (row : OrderDict F) :
    t.put id row id = some row := Function.update_self ..

theorem Table.put_other (t : Table F) {id id' : String} (row : OrderDict F) (h : id' ≠ id) :
    t.put id row id' = t id' := Function.update_of_ne h ..

/-- The status stored for an order id. -/
def Table.statusAt (t : Table F) (id : String) : Option OrderStatus := (t id).bind statusOf

/-- The order is stored with one of the statuses. -/
def Table.StoredAs (t : Table F) (id : String) (statuses : List OrderStatus) : Prop :=
  ∃ s ∈ statuses, t.statusAt id = some s

theorem Table.StoredAs.mono {t : Table F} {id : String} {statuses statuses' : List OrderStatus}
    (h : t.StoredAs id statuses) (hsub : statuses ⊆ statuses') : t.StoredAs id statuses' := by
  obtain ⟨s, hs, hstored⟩ := h
  exact ⟨s, hsub hs, hstored⟩

/-- `save_order(row)` of `PostgresRepository`: a row with the same
    `client_order_id` makes it a no-op, otherwise the row is inserted; `id` is
    the primary key, so an insert never replaces a row. -/
inductive SaveOrder (t : Table F) (row : OrderDict F) : Except Exc String → Table F → Prop
  | existing {id : String} {row' : OrderDict F} :
      t id = some row' → row' .clientOrderId = row .clientOrderId →
      SaveOrder t row (.ok id) t
  | insert {id : String} :
      (∀ id' row', t id' = some row' → row' .clientOrderId ≠ row .clientOrderId) →
      row .id = some (.str id) → t id = none → SaveOrder t row (.ok id) (t.put id row)
  | raises (x : Exc) : SaveOrder t row (.error x) t

/-- Saving an order changes no stored row. -/
theorem SaveOrder.keeps {t t' : Table F} {row row' : OrderDict F} {a : Except Exc String}
    (h : SaveOrder t row a t') {id : String} (hid : t id = some row') : t' id = some row' := by
  cases h with
  | existing _ _ => exact hid
  | raises x => exact hid
  | @insert id' _ _ hnone =>
      have hne : id ≠ id' := by
        rintro rfl
        rw [hnone] at hid
        cases hid
      rw [Table.put_other t row hne, hid]

theorem SaveOrder.statusAt {t t' : Table F} {row : OrderDict F} {a : Except Exc String}
    (h : SaveOrder t row a t') {id : String} {s : OrderStatus} (hs : t.statusAt id = some s) :
    t'.statusAt id = some s := by
  obtain ⟨row', hrow, hs⟩ := Option.bind_eq_some_iff.mp hs
  rw [Table.statusAt, h.keeps hrow]
  exact hs

/-- An order as `POST /orders` makes it. -/
def sampleOrder : Order ℚ where
  id := "o1"
  clientOrderId := "c1"
  accountId := "a1"
  strategyId := none
  modelId := none
  symbol := "EURUSD"
  side := .buy
  orderType := .market
  quantity := 1
  filledQuantity := 0
  price := none
  stopPrice := none
  limitPrice := none
  status := .pending
  rejectionReason := none
  commission := 0
  swap := 0
  profit := 0
  openedAt := none
  closedAt := none
  createdAt := 0
  updatedAt := 0

/-- The table after `POST /orders` has saved the order. -/
def sampleTable : Table ℚ := fun id => if id = "o1" then some sampleOrder.toDict else none

end Mtrader.Execution
