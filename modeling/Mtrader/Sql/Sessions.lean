/-
  Mtrader.Sql.Sessions

  One table of a READ COMMITTED database and the sessions that work on it.

  A statement sees the rows committed so far and what its own transaction has
  written; a row lock is held to the end of the transaction.  A transaction here
  writes at most once.  When its connection is lost an open transaction is rolled
  back, and `committed` is remembered whether or not the session was told.
-/

import Mathlib.Logic.Function.Basic
import Mathlib.Data.List.Basic

namespace Sql

variable {ι R : Type}

-- ============================================================================
-- Transactions
-- ============================================================================

/-- What a transaction has written: a new row, or a new version of row number `k`. -/
inductive Write (R : Type)
  | insert (row : R)
  | update (k : ℕ) (row : R)

/-- The rows once the write is committed. -/
def Write.apply : Write R → List R → List R
  | .insert row, rows => rows ++ [row]
  | .update k row, rows => rows.set k row

/-- The row as it was written. -/
def Write.row : Write R → R
  | .insert row => row
  | .update _ row => row

/-- The last transaction of a session, with the row lock it holds while it is open. -/
inductive Tx (R : Type)
  | idle
  | opened (write : Option (Write R)) (lock : Option ℕ)
  | committed (write : Option (Write R))
  | aborted

namespace Tx

/-- What is written and not yet committed. -/
def pending : Tx R → Option (Write R)
  | .opened write _ => write
  | _ => none

/-- The row that is locked. -/
def lock : Tx R → Option ℕ
  | .opened _ lock => lock
  | _ => none

/-- The connection is gone. -/
def drop : Tx R → Tx R
  | .opened _ _ => .aborted
  | t => t

@[simp] theorem pending_opened (write : Option (Write R)) (lock : Option ℕ) :
    (Tx.opened write lock).pending = write := rfl

@[simp] theorem pending_idle : (Tx.idle : Tx R).pending = none := rfl

@[simp] theorem pending_committed (write : Option (Write R)) :
    (Tx.committed write).pending = none := rfl

@[simp] theorem lock_opened (write : Option (Write R)) (lock : Option ℕ) :
    (Tx.opened write lock).lock = lock := rfl

@[simp] theorem lock_idle : (Tx.idle : Tx R).lock = none := rfl

@[simp] theorem lock_committed (write : Option (Write R)) :
    (Tx.committed write).lock = none := rfl

@[simp] theorem pending_drop (t : Tx R) : t.drop.pending = none := by
  cases t <;> rfl

@[simp] theorem lock_drop (t : Tx R) : t.drop.lock = none := by
  cases t <;> rfl

end Tx

-- ============================================================================
-- The database
-- ============================================================================

/-- The committed rows and the transaction of each session. -/
structure Db (ι R : Type) where
  rows : List R
  tx : ι → Tx R

namespace Db

variable [DecidableEq ι] (w : Db ι R) (i : ι)

def setTx (t : Tx R) : Db ι R := { w with tx := Function.update w.tx i t }

/-- Session `i` loses its connection or rolls back. -/
def drop : Db ι R := w.setTx i (w.tx i).drop

/-- Session `i` commits. -/
def commit (write : Option (Write R)) : Db ι R where
  rows := match write with
    | some x => x.apply w.rows
    | none => w.rows
  tx := Function.update w.tx i (.committed write)

omit [DecidableEq ι] in
/-- The rows that session `i` sees. -/
def view : List R :=
  match (w.tx i).pending with
  | some x => x.apply w.rows
  | none => w.rows

section

variable {w i} {j : ι}

@[simp] theorem setTx_rows (t : Tx R) : (w.setTx i t).rows = w.rows := rfl

@[simp] theorem setTx_tx_self (t : Tx R) : (w.setTx i t).tx i = t := Function.update_self ..

theorem setTx_tx_other (t : Tx R) (h : j ≠ i) : (w.setTx i t).tx j = w.tx j :=
  Function.update_of_ne h ..

@[simp] theorem drop_rows : (w.drop i).rows = w.rows := rfl

@[simp] theorem drop_tx_self : (w.drop i).tx i = (w.tx i).drop := setTx_tx_self _

theorem drop_tx_other (h : j ≠ i) : (w.drop i).tx j = w.tx j := setTx_tx_other _ h

@[simp] theorem commit_tx_self (write : Option (Write R)) :
    (w.commit i write).tx i = .committed write := Function.update_self ..

theorem commit_tx_other (write : Option (Write R)) (h : j ≠ i) :
    (w.commit i write).tx j = w.tx j := Function.update_of_ne h ..

omit [DecidableEq ι] in
theorem view_of_none (h : (w.tx i).pending = none) : w.view i = w.rows := by
  rw [view, h]

end

end Db

end Sql
