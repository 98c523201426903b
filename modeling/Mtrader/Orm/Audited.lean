/-
  Mtrader.Orm.Audited

  Calls that commit at most twice: a change, and then the record of it.  Which of the
  two commits may fail without leaving a change that has no record.
-/

import Mtrader.Orm.Session

namespace Orm

variable {D E α β : Type}

/-- How a call goes that was started on given tables. -/
inductive Plan (D E α : Type)
  /-- It raises before it has committed anything. -/
  | refuse (e : E)
  /-- It commits a change and then raises. -/
  | mark (change : D → D) (e : E)
  /-- It commits a change, then the record of it, and returns. -/
  | audited (change record : D → D) (a : α)

/-- What becomes of the plan when commits may fail. -/
def Plan.outcome (failed : ℕ → E) (fails : ℕ → Bool) (db : D) : Plan D E α → Except E α × D
  | refuse e => (.error e, db)
  | mark change e =>
      if fails 0 then (.error (failed 0), db)
      else (.error e, change db)
  | audited change record a =>
      if fails 0 then (.error (failed 0), db)
      else if fails 1 then (.error (failed 1), change db)
      else (.ok a, record (change db))

namespace M

variable {failed : ℕ → E} {x : M D E α} {db : D} {change record : D → D}

variable (failed) in
/-- The code goes as planned, whichever commits fail. -/
def Follows (x : M D E α) (db : D) (p : Plan D E α) : Prop :=
  ∀ fails, x.run fails db = p.outcome failed fails db

theorem follows_refuse (e : E) : Follows failed (raise e : M D E α) db (.refuse e) :=
  fun _ => rfl

/-- Reading first gives the tables that the call was started on. -/
theorem follows_read {f : D → M D E α} {p : Plan D E α} (h : Follows failed (f db) db p) :
    Follows failed (read >>= f) db p := h

theorem follows_ofExcept {y : Except E β} {b : β} {f : β → M D E α} {p : Plan D E α}
    (hy : y = .ok b) (h : Follows failed (f b) db p) : Follows failed (ofExcept y >>= f) db p := by
  rw [hy]
  exact h

theorem follows_raised {y : Except E β} {e : E} {f : β → M D E α} (hy : y = .error e) :
    Follows failed (ofExcept y >>= f) db (.refuse e) := by
  rw [hy]
  exact fun _ => rfl

theorem follows_mark (change : D → D) (e : E) :
    Follows failed (do stage change; commit failed; raise e : M D E α) db (.mark change e) := by
  intro fails
  rw [run, stage_bind, Plan.outcome]
  by_cases h : fails 0
  · rw [commit_bind_of_fails _ _ h, if_pos h]
    rfl
  · rw [commit_bind_of_ok _ _ (Bool.not_eq_true _ ▸ h), if_neg h]
    rfl

theorem follows_audited (change record : D → D) (a : α) :
    Follows failed (do stage change; commit failed; stage record; commit failed; return a) db
      (.audited change record a) := by
  intro fails
  rw [run, stage_bind, Plan.outcome]
  by_cases h : fails 0
  · rw [commit_bind_of_fails _ _ h, if_pos h]
    rfl
  · rw [commit_bind_of_ok _ _ (Bool.not_eq_true _ ▸ h), if_neg h, stage_bind]
    by_cases h' : fails 1
    · rw [commit_bind_of_fails _ _ h', if_pos h']
      rfl
    · rw [commit_bind_of_ok _ _ (Bool.not_eq_true _ ▸ h'), if_neg h']
      rfl

-- ============================================================================
-- A failing commit
-- ============================================================================

section Atomic

variable (failed) (Same : D → D → Prop)

/-- If the call raises because its `n`-th commit fails, it leaves the same tables. -/
def AtomicAt (x : M D E α) (db : D) (n : ℕ) : Prop :=
  (x.run (fun i => decide (i = n)) db).1 = .error (failed n) →
    Same db (x.run (fun i => decide (i = n)) db).2

variable {failed Same} {n : ℕ}

theorem atomicAt_of_refuse {e : E} (hsame : ∀ db, Same db db)
    (h : Follows failed x db (.refuse e)) : AtomicAt failed Same x db n := by
  intro _
  rw [h, Plan.outcome]
  exact hsame db

theorem atomicAt_of_mark {e : E} (hsame : ∀ db, Same db db) (he : ∀ n, e ≠ failed n)
    (h : Follows failed x db (.mark change e)) : AtomicAt failed Same x db n := by
  rw [AtomicAt, h, Plan.outcome]
  split
  · exact fun _ => hsame db
  · intro herr
    exact absurd (Except.error.inj herr) (he n)

/-- Only the second commit, the one of the record, leaves a change behind. -/
theorem atomicAt_audited_iff {a : α} (hsame : ∀ db, Same db db)
    (h : Follows failed x db (.audited change record a)) :
    AtomicAt failed Same x db n ↔ ¬ (n = 1 ∧ ¬ Same db (change db)) := by
  rw [AtomicAt, h, Plan.outcome]
  by_cases h0 : n = 0
  · rw [if_pos (by rw [h0]; decide)]
    exact ⟨fun _ hn => by omega, fun _ _ => hsame db⟩
  · rw [if_neg (by rw [decide_eq_true_iff]; omega)]
    by_cases h1 : n = 1
    · rw [if_pos (by rw [h1]; decide), h1]
      simp
    · rw [if_neg (by rw [decide_eq_true_iff]; omega)]
      exact ⟨fun _ hn => h1 hn.1, fun _ herr => by cases herr⟩

end Atomic

end M

end Orm
