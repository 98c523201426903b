/-
  Mtrader.Storage.OrderVersion

  Concurrent `update_order_status` calls on one order.

  The row lock keeps any two updates apart, so every committed one adds one to the
  version.  A call whose COMMIT takes effect and raises commits another in its next
  attempt, and returns True once: the version runs ahead by one for each such retry.
-/

import Mtrader.Storage.Attempts
import Mathlib.Algebra.BigOperators.Group.Finset.Piecewise
import Mathlib.Data.Fintype.Basic

namespace Mtrader.Storage

open Coroutine Py Sql Mtrader.Execution

variable {F ι : Type}

-- ============================================================================
-- Versions
-- ============================================================================

/-- Row number `k` has the version. -/
def VersionIs (rows : List (Row F)) (k : ℕ) (v : ℤ) : Prop :=
  ∃ row, rows[k]? = some row ∧ row "version" = .int v

theorem VersionIs.unique {rows : List (Row F)} {k : ℕ} {v v' : ℤ} (h : VersionIs rows k v)
    (h' : VersionIs rows k v') : v = v' := by
  obtain ⟨row, hrow, hv⟩ := h
  obtain ⟨row', hrow', hv'⟩ := h'
  rw [hrow] at hrow'
  cases hrow'
  rw [hv] at hv'
  exact Val.int.inj hv'

/-- The transaction has committed an update. -/
def updated : Tx (Row F) → Bool
  | .committed (some (.update _ _)) => true
  | _ => false

@[simp] theorem updated_drop (t : Tx (Row F)) : updated t.drop = updated t := by
  cases t <;> rfl

/-- How many sessions have last committed an update. -/
def updates [Fintype ι] (w : Orders ι F) : ℕ := ∑ i, (updated (w.tx i)).toNat

/-- One session's transaction changes. -/
theorem updates_step [Fintype ι] [DecidableEq ι] {w w' : Orders ι F} {i : ι}
    (hother : ∀ j, j ≠ i → w'.tx j = w.tx j) :
    updates w' + (updated (w.tx i)).toNat = updates w + (updated (w'.tx i)).toNat := by
  have hrest : ∑ j ∈ Finset.univ.erase i, (updated (w'.tx j)).toNat =
      ∑ j ∈ Finset.univ.erase i, (updated (w.tx j)).toNat := by
    refine Finset.sum_congr rfl fun j hj => ?_
    rw [hother j (Finset.ne_of_mem_erase hj)]
  have hold := Finset.add_sum_erase Finset.univ (fun j => (updated (w.tx j)).toNat)
    (Finset.mem_univ i)
  have hnew := Finset.add_sum_erase Finset.univ (fun j => (updated (w'.tx j)).toNat)
    (Finset.mem_univ i)
  simp only [updates]
  omega

-- ============================================================================
-- The invariant
-- ============================================================================

/-- An operation of `update_order_status(orderId, …)` without `version` in its kwargs. -/
def PgOp.Bumps (orderId : String) : PgOp F → Prop
  | .selectVersionForUpdate id => id = .str orderId
  | .updateOrder id sets version => id = .str orderId ∧
      sets.lookup "version" = some (.param (.int (version + 1)))
  | .insertOrder _ _ => False
  | _ => True

/-- A retry turns to a new connection although the last attempt has committed. -/
def lostCommit (entry : ι × Event (Orders ι F) (PgOp.Ans (F := F)) PgExc) : Bool :=
  match entry.2.op with
  | .acquire => updated (entry.2.pre.tx entry.1)
  | _ => false

/-- The version is `n` and one more for each session that has last committed an update;
    only the session that holds the row's lock has an update pending. -/
structure Versioned [Fintype ι] (T : OrdersTable F) (orderId : String) (k : ℕ) (n : ℤ)
    (w : Orders ι F) : Prop where
  version : VersionIs w.rows k (n + updates w)
  only : ∀ k' row, RowAt T w (.str orderId) k' row → k' = k
  pending : ∀ i x, (w.tx i).pending = some x → (w.tx i).lock = some k ∧
    ∃ row v, x = .update k row ∧ VersionIs w.rows k v ∧ row "version" = .int (v + 1)
  exclusive : ∀ i j, i ≠ j → (w.tx i).lock = some k → (w.tx j).lock ≠ some k

section

variable [Fintype ι] [DecidableEq ι] {T : OrdersTable F} {orderId : String} {k : ℕ} {n n' : ℤ}
variable {w w' : Orders ι F} {i : ι}

/-- A session's transaction changes and the rows do not. -/
theorem Versioned.setTx (h : Versioned T orderId k n w) {t : Tx (Row F)}
    (hn : n + (updated (w.tx i)).toNat = n' + (updated t).toNat)
    (hpending : ∀ x, t.pending = some x → t.lock = some k ∧
      ∃ row v, x = .update k row ∧ VersionIs w.rows k v ∧ row "version" = .int (v + 1))
    (hlock : t.lock = some k → ∀ j, j ≠ i → (w.tx j).lock ≠ some k) :
    Versioned T orderId k n' (w.setTx i t) := by
  have hstep : updates (w.setTx i t) + (updated (w.tx i)).toNat =
      updates w + (updated t).toNat := by
    have hother : ∀ j, j ≠ i → (w.setTx i t).tx j = w.tx j := fun j hj => Db.setTx_tx_other t hj
    have hstep := updates_step hother
    rwa [Db.setTx_tx_self] at hstep
  refine ⟨?_, h.only, fun j x hx => ?_, fun j j' hne hj hj' => ?_⟩
  · have hversion : n' + (updates (w.setTx i t) : ℤ) = n + updates w := by omega
    rw [hversion]
    exact h.version
  · by_cases hj : j = i
    · rw [hj, Db.setTx_tx_self] at hx ⊢
      exact hpending x hx
    · rw [Db.setTx_tx_other t hj] at hx ⊢
      exact h.pending j x hx
  · by_cases hji : j = i
    · have hj'i : j' ≠ i := fun heq => hne (hji.trans heq.symm)
      rw [hji, Db.setTx_tx_self] at hj
      rw [Db.setTx_tx_other t hj'i] at hj'
      exact hlock hj j' hj'i hj'
    · rw [Db.setTx_tx_other t hji] at hj
      by_cases hj'i : j' = i
      · rw [hj'i, Db.setTx_tx_self] at hj'
        exact hlock hj' j hji hj
      · rw [Db.setTx_tx_other t hj'i] at hj'
        exact h.exclusive j j' hne hj hj'

/-- A session commits the update it has pending. -/
theorem Versioned.commit (h : Versioned T orderId k n w) {x : Write (Row F)} {lock : Option ℕ}
    (htx : w.tx i = .opened (some x) lock) : Versioned T orderId k n (w.commit i (some x)) := by
  have hpending : (w.tx i).pending = some x := by rw [htx]; rfl
  obtain ⟨hlock, row, v, rfl, hv, hrow⟩ := h.pending i x hpending
  obtain rfl : v = n + updates w := hv.unique h.version
  have hrows : (w.commit i (some (.update k row))).rows = w.rows.set k row := rfl
  have hself : updated ((w.commit i (some (.update k row))).tx i) = true := by
    rw [Db.commit_tx_self]
    rfl
  have hidle : ∀ j, j ≠ i → (w.tx j).lock ≠ some k :=
    fun j hj => h.exclusive i j (Ne.symm hj) hlock
  have hother : ∀ j, j ≠ i → (w.commit i (some (.update k row))).tx j = w.tx j :=
    fun j hj => Db.commit_tx_other _ hj
  have hstep := updates_step hother
  rw [hself, htx] at hstep
  have hstep : updates (w.commit i (some (.update k row))) = updates w + 1 := hstep
  refine ⟨?_, fun k' row' hrow' => ?_, fun j y hy => ?_, fun j j' hne hj hj' => ?_⟩
  · obtain ⟨old, hold, -⟩ := hv
    have hlt : k < w.rows.length := (List.getElem?_eq_some_iff.mp hold).1
    refine ⟨row, ?_, ?_⟩
    · rw [hrows, List.getElem?_set_self hlt]
    · rw [hrow, hstep]
      push_cast
      ring_nf
  · by_contra hne
    rw [RowAt, hrows, List.getElem?_set_ne (Ne.symm hne)] at hrow'
    exact hne (h.only k' row' hrow')
  · by_cases hj : j = i
    · rw [hj, Db.commit_tx_self] at hy
      cases hy
    · rw [Db.commit_tx_other _ hj] at hy
      exact absurd (h.pending j y hy).1 (hidle j hj)
  · by_cases hji : j = i
    · rw [hji, Db.commit_tx_self] at hj
      cases hj
    · rw [Db.commit_tx_other _ hji] at hj
      exact hidle j hji hj

/-- What a retry after a committed update loses. -/
def lostAt (w : Orders ι F) (i : ι) : PgOp F → ℕ
  | .acquire => (updated (w.tx i)).toNat
  | _ => 0

/-- Every call that `update_order_status` makes keeps the count. -/
theorem Versioned.step (h : Versioned T orderId k n w) {e : PgOp F} (he : e.Bumps orderId)
    (hstep : PgStep T w i e w') : Versioned T orderId k (n + lostAt w i e) w' := by
  have hzero : ∀ e : PgOp F, e ≠ .acquire → (lostAt w i e : ℤ) = 0 := by
    intro e hne
    cases e with
    | acquire => exact absurd rfl hne
    | _ => rfl
  cases hstep with
  | same hne =>
      rw [hzero _ hne, add_zero]
      exact h
  | dropped hne =>
      rw [hzero _ hne, add_zero]
      refine h.setTx (by rw [updated_drop]) (fun x hx => ?_) fun hlock => ?_
      · rw [Tx.pending_drop] at hx
        cases hx
      · rw [Tx.lock_drop] at hlock
        cases hlock
  | idle => exact h.setTx (by simp [lostAt, updated]) nofun nofun
  | opened hidle =>
      rw [hzero .begin nofun, add_zero]
      exact h.setTx (by rw [hidle]; rfl) nofun nofun
  | inserted _ _ _ => exact he.elim
  | locked htx hrow hunlocked =>
      obtain rfl := he
      obtain rfl := h.only _ _ hrow
      rw [hzero (.selectVersionForUpdate _) nofun, add_zero]
      exact h.setTx (by rw [htx]; rfl) nofun fun _ j hj => hunlocked j hj
  | @updated id sets version k₁ row now lock htx hlock hrow hversion hunlocked =>
      obtain ⟨rfl, hsets⟩ := he
      obtain rfl := h.only _ _ hrow
      rw [hzero (.updateOrder _ _ _) nofun, add_zero]
      refine h.setTx (by rw [htx]; rfl) (fun x hx => ⟨rfl, ?_⟩) fun _ j hj => hunlocked j hj
      cases hx
      refine ⟨_, version, rfl, ⟨row, hrow.1, hversion⟩, ?_⟩
      rw [Row.assign, hsets]
      rfl
  | @committed write lock htx =>
      rw [hzero .commit nofun, add_zero]
      cases write with
      | none => exact h.setTx (by rw [htx]; rfl) nofun nofun
      | some x => exact h.commit htx

end

-- ============================================================================
-- The statement that is built
-- ============================================================================

theorem lookup_dictSet_other {V : Type} {c k : String} (hne : k ≠ c) (v : V)
    (d : List (String × V)) : (dictSet d k v).lookup c = d.lookup c := by
  have hck : (c == k) = false := beq_false_of_ne (Ne.symm hne)
  induction d with
  | nil =>
      rw [dictSet, List.lookup_cons, hck]
  | cons kv rest ih =>
      obtain ⟨k', v'⟩ := kv
      rw [dictSet]
      split
      next heq =>
        subst heq
        rw [List.lookup_cons, List.lookup_cons, hck]
      next => rw [List.lookup_cons, List.lookup_cons, ih]

/-- Keyword arguments without `version` leave the one that is set. -/
theorem updatesOf_version {kwargs : List (String × Val F)}
    (hkwargs : ∀ kw ∈ kwargs, kw.1 ≠ "version") (status : String) (version : ℤ) :
    (updatesOf status version kwargs).lookup "version" = some (.int (version + 1)) := by
  have hfold : ∀ (kwargs d : List (String × Val F)), (∀ kw ∈ kwargs, kw.1 ≠ "version") →
      (kwargs.foldl (fun updates kw => dictSet updates kw.1 kw.2) d).lookup "version" =
        d.lookup "version" := by
    intro kwargs
    induction kwargs with
    | nil => exact fun d _ => rfl
    | cons kw rest ih =>
        intro d hkwargs
        rw [List.foldl_cons, ih _ fun kw hkw => hkwargs kw (List.mem_cons_of_mem _ hkw)]
        exact lookup_dictSet_other (hkwargs kw List.mem_cons_self) kw.2 d
  rw [updatesOf, hfold _ _ hkwargs]
  rfl

theorem lookup_setPart (d : List (String × Val F)) (c : String) :
    (d.map fun kv => (kv.1, setPart kv.2)).lookup c = (d.lookup c).map setPart := by
  induction d with
  | nil => rfl
  | cons kv rest ih =>
      rw [List.map_cons, List.lookup_cons, List.lookup_cons, ih]
      split <;> rfl

section

variable [Prims F] {orderId : String} {kwargs : List (String × Val F)}

/-- Each UPDATE of a call without `version` in its kwargs adds one to the version. -/
theorem updateOrderStatus_bumps (hkwargs : ∀ kw ∈ kwargs, kw.1 ≠ "version") (status : String) :
    (updateOrderStatus orderId status kwargs).Always (.only (PgOp.Bumps orderId)) := by
  refine executeRetry_always (fun _ e he => ?_) ?_ 3
  · cases e with
    | selectVersionForUpdate id => cases he
    | updateOrder id sets version => cases he
    | insertOrder id columns => cases he
    | _ => trivial
  · refine (Prog.always_op fun _ => rfl).bind fun row => ?_
    cases row with
    | none => exact Prog.always_ret _
    | some stored =>
        have hbumps : ∀ version : ℤ, (PgOp.updateOrder (.str orderId)
            ((updatesOf status version kwargs).map fun kv => (kv.1, setPart kv.2))
            version).Bumps orderId := by
          intro version
          refine ⟨rfl, ?_⟩
          rw [lookup_setPart, updatesOf_version hkwargs]
          rfl
        refine (Prog.always_ofExcept _).bind fun version => ?_
        exact (Prog.always_op fun _ => hbumps version).bind fun result => Prog.always_ret _

-- ============================================================================
-- One call
-- ============================================================================

variable [DecidableEq ι]

/-- The other calls leave the session alone. -/
def sessionRely (F : Type) (i : ι) : Rely (Orders ι F) where
  rel w w' := w'.tx i = w.tx i
  refl _ := rfl
  trans h h' := h'.trans h

omit [DecidableEq ι] [Prims F] in
theorem sessionRely_stable (i : ι) (P : Tx (Row F) → Prop) :
    (sessionRely F i).Stable fun w => P (w.tx i) := by
  intro w w' hrel hP
  have hrel : w'.tx i = w.tx i := hrel
  rw [hrel]
  exact hP

/-- What the body of the transaction leaves to be committed, as it will return. -/
def UpdatesOnCommit (out : Except PgExc Bool) (t : Tx (Row F)) : Prop :=
  match out with
  | .ok b => ∃ write lock, t = .opened write lock ∧ updated (.committed write) = b
  | .error _ => updated t = false

/-- A call that returns says whether it has committed an update; one that raises what
    is not retried has not. -/
def Reports (out : Except PgExc Bool) (t : Tx (Row F)) : Prop :=
  match out with
  | .ok b => updated t = b
  | .error x => x.retried = false → updated t = false

theorem updateInTransaction_secures {T : OrdersTable F} {i : ι} (status : String)
    {w : Orders ι F} (hw : w.tx i = .opened none none) :
    (updateInTransaction orderId status kwargs).Secures (pgEnv T i) (sessionRely F i)
      (fun out w => UpdatesOnCommit out (w.tx i)) w := by
  have hret : ∀ (b : Bool) (w : Orders ι F), UpdatesOnCommit (.ok b) (w.tx i) →
      (.ret b : RepoM F Bool).Secures (pgEnv T i) (sessionRely F i)
        (fun out w => UpdatesOnCommit out (w.tx i)) w :=
    fun b w h => Prog.secures_ret (sessionRely_stable i _) h fun _ h => h
  have hraise : ∀ (x : PgExc) (w : Orders ι F), updated (w.tx i) = false →
      (.raise x : RepoM F Bool).Secures (pgEnv T i) (sessionRely F i)
        (fun out w => UpdatesOnCommit out (w.tx i)) w :=
    fun x w h => Prog.secures_raise (sessionRely_stable i fun t => updated t = false) h
      fun _ h => h
  refine Prog.secures_op_bind (sessionRely_stable i fun t => t = .opened none none) hw
    (fun w row w₁ htx hselect => ?_) fun w x w₁ htx hselect => hraise x w₁ ?_
  · cases row with
    | none =>
        obtain ⟨-, rfl⟩ := hselect
        exact hret false w₁ ⟨none, none, htx, rfl⟩
    | some stored =>
        obtain ⟨k, row, -, -, -, -, rfl⟩ := hselect
        simp only
        cases hversion : stored.toInt with
        | error x =>
            refine hraise (.python x) _ ?_
            rw [Db.setTx_tx_self]
            rfl
        | ok version =>
            refine Prog.secures_op_bind
              (sessionRely_stable i fun t => t = .opened none (some k)) (Db.setTx_tx_self _)
              (fun w tag w₂ htx hupdate => ?_) fun w x w₂ htx hupdate => hraise x w₂ ?_
            · rcases hupdate with ⟨k', row, now, -, -, -, -, -, -, rfl, lock, -, -, rfl⟩ |
                ⟨-, rfl, rfl⟩
              · refine hret _ _ ⟨_, _, Db.setTx_tx_self _, ?_⟩
                rw [tag_one]
                rfl
              · refine hret _ _ ⟨none, some k, htx, ?_⟩
                rw [tag_zero]
                rfl
            · rcases hupdate with ⟨-, rfl⟩ | ⟨-, rfl⟩
              · rw [Db.drop_tx_self, htx]
                rfl
              · rw [htx]
                rfl
  · rcases hselect with ⟨-, rfl⟩ | ⟨-, rfl, -⟩
    · rw [Db.drop_tx_self, htx]
      rfl
    · rw [htx]
      rfl

/-- A call that ends reports what it has committed last. -/
theorem updateOrderStatus_secures (T : OrdersTable F) (i : ι) (status : String)
    (w : Orders ι F) :
    (updateOrderStatus orderId status kwargs).Secures (pgEnv T i) (sessionRely F i)
      (fun out w => Reports out (w.tx i)) w := by
  have hretried : ∀ (x : PgExc) (w : Orders ι F), x.retried → Reports (.error x) (w.tx i) := by
    intro x w hx hnot
    rw [hx] at hnot
    cases hnot
  refine executeRetry_secures (fun h => h) hretried (fun w => ?_) 2 w
  refine attempt_secures (fun h => h) (fun out => sessionRely_stable i _)
    (fun w hw => updateInTransaction_secures status hw) ?_ ?_ hretried w
  · rintro b w write lock ⟨write', lock', htx, hupdated⟩ hopened
    rw [htx] at hopened
    cases hopened
    rw [Db.commit_tx_self]
    exact hupdated
  · intro x w hnot _
    rw [Db.drop_tx_self, updated_drop]
    exact hnot

end

-- ============================================================================
-- Concurrent calls
-- ============================================================================

/-- The status and the kwargs of a call. -/
structure UpdateCall (F : Type) where
  status : String
  kwargs : List (String × Val F) := []

/-- The configurations of `update_order_status` calls on one pool. -/
abbrev UpdateConfig (ι F : Type) : Type :=
  Config ι (Orders ι F) (PgOp.Ans (F := F)) PgExc Bool

/-- The call has returned True. -/
def returnedTrue : RepoM F Bool → Bool
  | .ret b => b
  | _ => false

/-- The call has ended, and not by giving up on connection errors. -/
def Finished (p : RepoM F Bool) : Prop :=
  (∃ b, p = .ret b) ∨ ∃ x, p = .raise x ∧ x.retried = false

section

variable [Fintype ι] [DecidableEq ι] [Prims F]

/-- Concurrent calls of `update_order_status` on the order in row number `k`, without
    `version` in their kwargs. -/
structure UpdateRun (T : OrdersTable F) (orderId : String) (k : ℕ) (v₀ : ℤ)
    (calls : ι → UpdateCall F) (w₀ : Orders ι F) (h : PgHistory ι F) (c : UpdateConfig ι F) :
    Prop where
  fresh : ∀ i, w₀.tx i = .idle
  version : VersionIs w₀.rows k v₀
  only : ∀ k' row, RowAt T w₀ (.str orderId) k' row → k' = k
  kwargs : ∀ i, ∀ kw ∈ (calls i).kwargs, kw.1 ≠ "version"
  run : Run (fun _ => true) (pgEnv T)
    ⟨w₀, fun i => updateOrderStatus orderId (calls i).status (calls i).kwargs, none⟩ h c

variable {T : OrdersTable F} {orderId : String} {k : ℕ} {v₀ : ℤ} {calls : ι → UpdateCall F}
variable {w₀ : Orders ι F} {h : PgHistory ι F} {c : UpdateConfig ι F}

/-- At every moment the version counts the updates that sessions have last committed
    and those that retries have lost. -/
theorem UpdateRun.versioned (hrun : UpdateRun T orderId k v₀ calls w₀ h c) :
    Versioned T orderId k (v₀ + h.countP lostCommit) c.world := by
  refine hrun.run.invariant_of_steps
    (I := fun h c => Versioned T orderId k (v₀ + h.countP lostCommit) c.world)
    (P := fun _ _ _ ev => ev.op.Bumps orderId) ?_ ?_ ?_
  · intro h' c₁ c₂ i ev hsuf _ _
    exact hrun.run.may (updateOrderStatus_bumps (hrun.kwargs i) _ ()) hsuf
  · have hzero : updates w₀ = 0 := Finset.sum_eq_zero fun i _ => by rw [hrun.fresh i]; rfl
    refine ⟨?_, hrun.only, fun i x hx => ?_, fun i j _ hlock => ?_⟩
    · show VersionIs w₀.rows k (v₀ + (0 : ℕ) + updates w₀)
      rw [hzero]
      simpa using hrun.version
    · rw [hrun.fresh i] at hx
      cases hx
    · rw [hrun.fresh i] at hlock
      cases hlock
  · intro h c i ev c' _ hI hbumps hstep
    cases hstep with
    | @mk e k' a w' _ _ henv =>
        have hnext := hI.step hbumps (pgEnv_step henv)
        have hlost : lostAt c.world i e = if lostCommit (i, ⟨c.world, e, a⟩) then 1 else 0 := by
          cases e with
          | acquire =>
              show (updated (c.world.tx i)).toNat = if updated (c.world.tx i) then 1 else 0
              cases updated (c.world.tx i) <;> rfl
          | _ => rfl
        rw [List.countP_cons, ← hlost]
        push_cast
        rw [← add_assoc]
        exact hnext

omit [Fintype ι] in
/-- A call that has settled returned True exactly if its session has last committed an
    update. -/
theorem UpdateRun.reports (hrun : UpdateRun T orderId k v₀ calls w₀ h c) {i : ι}
    (hsettled : Finished (c.pool i)) : returnedTrue (c.pool i) = updated (c.world.tx i) := by
  have hrely : ∀ (i j : ι) (w : Orders ι F) (e : PgOp F) (a : Except PgExc e.Ans)
      (w' : Orders ι F), j ≠ i → pgEnv T j w e a w' → (sessionRely F i).rel w w' :=
    fun i j w e a w' hij henv => (pgEnv_step henv).tx_other (Ne.symm hij)
  have hstart : ∀ i, (updateOrderStatus orderId (calls i).status (calls i).kwargs).Secures
      (pgEnv T i) (sessionRely F i) (fun out w => Reports out (w.tx i)) w₀ :=
    fun i => updateOrderStatus_secures T i (calls i).status w₀
  rcases hsettled with ⟨b, hb⟩ | ⟨x, hx, hnot⟩
  · have hreport : updated (c.world.tx i) = b :=
      hrun.run.secures_ret (Q := fun (i : ι) out (w : Orders ι F) => Reports out (w.tx i))
        hrely hstart hb
    rw [hb, hreport]
    rfl
  · have hreport : updated (c.world.tx i) = false :=
      hrun.run.secures_raise (Q := fun (i : ι) out (w : Orders ι F) => Reports out (w.tx i))
        hrely hstart hx hnot
    rw [hx, hreport]
    rfl

/-- How many calls have returned True. -/
def countTrue (c : UpdateConfig ι F) : ℕ :=
  (Finset.univ.filter fun i => returnedTrue (c.pool i)).card

/-- Once all calls have settled, the version has grown by the number of those that
    returned True and of the commits that retries have lost. -/
theorem UpdateRun.version_grown (hrun : UpdateRun T orderId k v₀ calls w₀ h c)
    (hsettled : ∀ i, Finished (c.pool i)) :
    VersionIs c.world.rows k (v₀ + h.countP lostCommit + countTrue c) := by
  have hcount : countTrue c = updates c.world := by
    rw [countTrue, Finset.card_filter, updates]
    refine Finset.sum_congr rfl fun i _ => ?_
    rw [hrun.reports (hsettled i)]
    cases updated (c.world.tx i) <;> rfl
  rw [hcount]
  exact hrun.versioned.version

end

-- ============================================================================
-- A commit that takes effect and raises
-- ============================================================================

/-- One order of version 1. -/
def oneOrder : Orders (Fin 2) ℚ where
  rows := [fun
    | "id" => .str "o1"
    | "version" => .int 1
    | _ => .none]
  tx _ := .idle

/-- The two calls. -/
def submitAndFill (i : Fin 2) : UpdateCall ℚ where
  status := if i.val = 0 then "SUBMITTED" else "FILLED"

/-- The connection of the first COMMIT is lost on the way back. -/
def losingCommit (i : Fin 2) : Handler (Orders (Fin 2) ℚ) (PgOp.Ans (F := ℚ)) PgExc :=
  fun w e =>
    match e with
    | .commit =>
        match w.tx i with
        | .opened write _ =>
            if w.rows.any fun row => row "version" = .int 1 then
              some (.error .postgresConnectionError, w.commit i write)
            else pgAnswers i w .commit
        | _ => none
    | e => pgAnswers i w e

theorem losingCommit_sound {i : Fin 2} {w w' : Orders (Fin 2) ℚ} {e : PgOp ℚ}
    {a : Except PgExc e.Ans} (h : losingCommit i w e = some (a, w')) :
    pgEnv sampleOrdersTable i w e a w' := by
  cases e with
  | commit =>
      simp only [losingCommit] at h
      split at h
      next write lock htx =>
        split at h
        next =>
          cases h
          exact ⟨rfl, write, lock, htx, .inr rfl⟩
        next => exact pgAnswers_sound h
      next => cases h
  | _ => exact pgAnswers_sound h

/-- Two calls whose outcome passes a check show that there is such a run. -/
theorem exists_updateRun (handler : Fin 2 → Handler (Orders (Fin 2) ℚ) (PgOp.Ans (F := ℚ)) PgExc)
    (hsound : ∀ i w e a w', handler i w e = some (a, w') → pgEnv sampleOrdersTable i w e a w')
    (schedule : List (Fin 2)) (check : PgHistory (Fin 2) ℚ → UpdateConfig (Fin 2) ℚ → Bool)
    (hf : (Config.follow (fun _ => true) handler schedule ([], ⟨oneOrder, fun i =>
      updateOrderStatus "o1" (submitAndFill i).status (submitAndFill i).kwargs, none⟩)).any
        fun hc => check hc.1 hc.2 && decide (∀ i, (hc.2.pool i).returned = true)) :
    ∃ h c, UpdateRun sampleOrdersTable "o1" 0 1 submitAndFill oneOrder h c ∧
      (∀ i, Finished (c.pool i)) ∧ check h c = true := by
  obtain ⟨⟨h, c⟩, hrun, hcheck⟩ := (Option.any_eq_true _ _).mp hf
  rw [Bool.and_eq_true] at hcheck
  have hreturned := of_decide_eq_true hcheck.2
  refine ⟨h, c, ⟨fun _ => rfl, ⟨_, rfl, rfl⟩, ?_, fun _ _ => nofun, ?_⟩, ?_, hcheck.1⟩
  · rintro (_ | k) row ⟨hrow, -⟩
    · rfl
    · cases hrow
  · exact Config.follow_sound hsound .nil hrun
  · exact fun i => .inl (Prog.eq_ret_of_returned (hreturned i))

/-- The first call updates twice and returns True once. -/
theorem version_not_always_counts :
    ¬ ∀ (T : OrdersTable ℚ) (orderId : String) (k : ℕ) (v₀ v : ℤ) (calls : Fin 2 → UpdateCall ℚ)
        (w₀ : Orders (Fin 2) ℚ) (h : PgHistory (Fin 2) ℚ) (c : UpdateConfig (Fin 2) ℚ),
      UpdateRun T orderId k v₀ calls w₀ h c → (∀ i, Finished (c.pool i)) →
        VersionIs c.world.rows k v → v - v₀ = countTrue c := by
  intro hall
  obtain ⟨h, c, hrun, hsettled, hcheck⟩ := exists_updateRun losingCommit
    (fun _ _ _ _ _ => losingCommit_sound)
    [0, 0, 0, 0, 0, 0, 0, 0, 0, 0, 0, 0, 0, 1, 1, 1, 1, 1, 1]
    (fun h c => h.countP lostCommit == 1) (by decide +kernel)
  rw [beq_iff_eq] at hcheck
  have hgrown := hrun.version_grown hsettled
  have hcounts := hall _ _ _ _ _ _ _ _ _ hrun hsettled hgrown
  rw [hcheck] at hcounts
  push_cast at hcounts
  omega

section

variable [Fintype ι] [DecidableEq ι] [Prims F] {T : OrdersTable F} {orderId : String} {k : ℕ}
variable {v₀ : ℤ} {calls : ι → UpdateCall F} {w₀ : Orders ι F} {h : PgHistory ι F}
variable {c : UpdateConfig ι F}

/-- Once all calls have settled, the version has grown by the number of those that
    returned True exactly if no attempt was made after a COMMIT that had taken effect. -/
theorem version_counts_iff (hrun : UpdateRun T orderId k v₀ calls w₀ h c)
    (hsettled : ∀ i, Finished (c.pool i)) {v : ℤ} (hv : VersionIs c.world.rows k v) :
    v - v₀ = countTrue c ↔ ∀ entry ∈ h, lostCommit entry = false := by
  obtain rfl := hv.unique (hrun.version_grown hsettled)
  have hzero : h.countP lostCommit = 0 ↔ ∀ entry ∈ h, lostCommit entry = false := by
    rw [List.countP_eq_zero]
    exact forall₂_congr fun entry _ => by rw [Bool.not_eq_true]
  rw [← hzero]
  omega

end

/-- Two calls one after the other. -/
theorem version_counts_iff_twice :
    ∃ h c, UpdateRun sampleOrdersTable "o1" 0 1 submitAndFill oneOrder h c ∧
      VersionIs c.world.rows 0 3 ∧ (3 : ℤ) - 1 = countTrue c := by
  obtain ⟨h, c, hrun, hsettled, hcheck⟩ := exists_updateRun pgAnswers
    (fun _ _ _ _ _ => pgAnswers_sound) [0, 0, 0, 0, 0, 0, 1, 1, 1, 1, 1, 1]
    (fun h c => h.all (fun entry => !lostCommit entry) &&
      c.world.rows[0]?.any fun row => row "version" = .int 3) (by decide +kernel)
  rw [Bool.and_eq_true, List.all_eq_true] at hcheck
  obtain ⟨hkept, hversion⟩ := hcheck
  obtain ⟨row, hrow, hversion⟩ := (Option.any_eq_true _ _).mp hversion
  have hthree : VersionIs c.world.rows 0 3 := ⟨row, hrow, of_decide_eq_true hversion⟩
  refine ⟨h, c, hrun, hthree, (version_counts_iff hrun hsettled hthree).mpr fun entry hentry => ?_⟩
  simpa using hkept entry hentry

end Mtrader.Storage
