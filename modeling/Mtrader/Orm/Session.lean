/-
  Mtrader.Orm.Session

  A unit of work: a session reads the committed tables, collects changes, and writes
  them together when it commits.  A commit that fails raises and leaves the tables as
  they were; the changes collected for it are lost.

  Reads do not see collected changes (`autoflush=False`).
-/

import Mathlib.Data.Nat.Basic

namespace Orm

variable {D E α β : Type}

/-- `fails n` says whether the session's `n`-th commit fails. -/
structure Session (D : Type) where
  tables : D
  pending : D → D
  commits : ℕ
  fails : ℕ → Bool

/-- A session with nothing collected. -/
def Session.start (fails : ℕ → Bool) (tables : D) : Session D where
  tables := tables
  pending := id
  commits := 0
  fails := fails

/-- Code that works with a session and may raise. -/
def M (D E α : Type) : Type := Session D → Except E α × Session D

namespace M

def pure (a : α) : M D E α := fun s => (.ok a, s)

def bind (x : M D E α) (f : α → M D E β) : M D E β := fun s =>
  match x s with
  | (.ok a, s') => f a s'
  | (.error e, s') => (.error e, s')

instance : Monad (M D E) where
  pure := pure
  bind := bind

def raise (e : E) : M D E α := fun s => (.error e, s)

/-- A value, or the exception that computing it raised. -/
def ofExcept (x : Except E α) : M D E α := fun s => (x, s)

/-- Everything that is committed. -/
def read : M D E D := fun s => (.ok s.tables, s)

/-- Collect a change for the next commit. -/
def stage (change : D → D) : M D E Unit := fun s =>
  (.ok (), { s with pending := change ∘ s.pending })

/-- `db.commit()`; `failed n` is raised when the `n`-th commit fails. -/
def commit (failed : ℕ → E) : M D E Unit := fun s =>
  if s.fails s.commits then
    (.error (failed s.commits), { s with pending := id, commits := s.commits + 1 })
  else
    (.ok (), { s with tables := s.pending s.tables, pending := id, commits := s.commits + 1 })

/-- What the code returns or raises, and the tables once the session is closed: what has
    not been committed by then is lost. -/
def run (x : M D E α) (fails : ℕ → Bool) (tables : D) : Except E α × D :=
  ((x (.start fails tables)).1, (x (.start fails tables)).2.tables)

variable (s : Session D)

@[simp] theorem pure_apply (a : α) : (Pure.pure a : M D E α) s = (.ok a, s) := rfl

@[simp] theorem raise_apply (e : E) : (raise e : M D E α) s = (.error e, s) := rfl

@[simp] theorem ofExcept_apply (x : Except E α) : (ofExcept x : M D E α) s = (x, s) := rfl

theorem bind_apply (x : M D E α) (f : α → M D E β) :
    (x >>= f) s = match x s with
      | (.ok a, s') => f a s'
      | (.error e, s') => (.error e, s') := rfl

@[simp] theorem raise_bind (e : E) (f : α → M D E β) :
    ((raise e : M D E α) >>= f) s = (.error e, s) := rfl

@[simp] theorem ofExcept_ok_bind (a : α) (f : α → M D E β) :
    ((ofExcept (.ok a) : M D E α) >>= f) s = f a s := rfl

@[simp] theorem ofExcept_error_bind (e : E) (f : α → M D E β) :
    ((ofExcept (.error e) : M D E α) >>= f) s = (.error e, s) := rfl

@[simp] theorem read_bind (f : D → M D E β) : ((read : M D E D) >>= f) s = f s.tables s := rfl

@[simp] theorem stage_bind (change : D → D) (f : Unit → M D E β) :
    ((stage change : M D E Unit) >>= f) s = f () { s with pending := change ∘ s.pending } := rfl

theorem commit_bind_of_ok {failed : ℕ → E} (f : Unit → M D E β) (h : s.fails s.commits = false) :
    ((commit failed : M D E Unit) >>= f) s =
      f () { s with tables := s.pending s.tables, pending := id, commits := s.commits + 1 } := by
  rw [bind_apply, commit, if_neg (by rw [h]; decide)]

theorem commit_bind_of_fails {failed : ℕ → E} (f : Unit → M D E β)
    (h : s.fails s.commits = true) :
    ((commit failed : M D E Unit) >>= f) s =
      (.error (failed s.commits), { s with pending := id, commits := s.commits + 1 }) := by
  rw [bind_apply, commit, if_pos h]

end M

end Orm
