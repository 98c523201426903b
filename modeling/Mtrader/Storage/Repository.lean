/-
  Mtrader.Storage.Repository

  `save_order` and `update_order_status` of `PostgresRepository`, as programs over
  the asyncpg calls they make, and the `orders` table these act on.

  Each call has a session of its own.  Whatever is asked of a connection may raise
  a connection error, a COMMIT also after it has taken effect; these are the only
  errors that `_execute_retry` catches.
-/

import Mtrader.Coroutine.Guarantee
import Mtrader.Sql.Sessions
import Mtrader.Execution.Order

namespace Mtrader.Storage

open Coroutine Py Sql Mtrader.Execution

variable {F : Type}

-- ============================================================================
-- What the repository calls
-- ============================================================================

/-- What the repository's calls raise. -/
inductive PgExc
  | postgresConnectionError | tooManyConnectionsError
  | uniqueViolationError
  /-- Any other error of a statement. -/
  | postgresError (msg : String)
  /-- Raised by Python, not by asyncpg. -/
  | python (x : Exc)
  deriving DecidableEq, Repr

/-- `except (asyncpg.PostgresConnectionError, asyncpg.TooManyConnectionsError)`. -/
def PgExc.retried : PgExc → Bool
  | .postgresConnectionError | .tooManyConnectionsError => true
  | _ => false

/-- What stands for a column in VALUES or SET: `$n` with its value, `NOW()`, a number. -/
inductive SqlExpr (F : Type)
  | param (v : Val F)
  | now
  | lit (n : ℤ)

/-- The asyncpg calls of the repository, and the `asyncio.sleep` of `_execute_retry`. -/
inductive PgOp (F : Type)
  /-- Entering and leaving `async with self.pool.acquire()`. -/
  | acquire
  | release
  /-- Entering and leaving `async with conn.transaction()`. -/
  | begin
  | commit
  | rollback
  | sleep (attempt : ℕ)
  /-- `SELECT id FROM orders WHERE client_order_id=$1`. -/
  | selectByClientOrderId (clientOrderId : Val F)
  /-- `INSERT INTO orders … VALUES (COALESCE($1::uuid, gen_random_uuid()), …) RETURNING id`. -/
  | insertOrder (id : Val F) (columns : List (String × SqlExpr F))
  /-- `SELECT version FROM orders WHERE id=$1::uuid FOR UPDATE`. -/
  | selectVersionForUpdate (id : Val F)
  /-- `UPDATE orders SET … WHERE id=$1::uuid AND version=$n`. -/
  | updateOrder (id : Val F) (sets : List (String × SqlExpr F)) (version : ℤ)

/-- What the operations answer with; an UPDATE with its command tag. -/
@[reducible] def PgOp.Ans {F : Type} : PgOp F → Type
  | .selectByClientOrderId _ => Option (Val F)
  | .insertOrder _ _ => Val F
  | .selectVersionForUpdate _ => Option (Val F)
  | .updateOrder _ _ _ => String
  | _ => Unit

/-- The programs of the repository. -/
abbrev RepoM (F : Type) : Type → Type := Prog (PgOp.Ans (F := F)) PgExc

/-- One call of the repository. -/
abbrev pg (e : PgOp F) : RepoM F e.Ans := Prog.op e

-- ============================================================================
-- _execute_retry and the context managers
-- ============================================================================

/-- The loop of `_execute_retry` over the attempts that are left; `lastExc` is its
    `last_exc`. -/
def retryFrom {R : Type} (fn : RepoM F R) (lastExc : PgExc) : List ℕ → RepoM F R
  | [] => .raise lastExc
  | attempt :: rest => do
      match ← fn.attempt with
      | .ok r => return r
      | .error exc =>
          if exc.retried then do
            pg (.sleep attempt)
            retryFrom fn exc rest
          else .raise exc

/-- `PostgresRepository._execute_retry(fn, retries)`; `raise None` is a TypeError. -/
def executeRetry {R : Type} (fn : RepoM F R) (retries : ℕ) : RepoM F R :=
  retryFrom fn (.python (.typeError "exceptions must derive from BaseException"))
    (List.range retries)

/-- `async with conn.transaction(): body`. -/
def transaction {R : Type} (body : RepoM F R) : RepoM F R := do
  pg .begin
  match ← body.attempt with
  | .ok r => do
      pg .commit
      return r
  | .error x => do
      pg .rollback
      .raise x

/-- `async with self.pool.acquire() as conn: body`. -/
def withConnection {R : Type} (body : RepoM F R) : RepoM F R := do
  pg .acquire
  body.andFinally (pg .release)

-- ============================================================================
-- save_order
-- ============================================================================

/-- A Python exception of the repository's own code. -/
def python {R : Type} (r : Except Exc R) : RepoM F R :=
  Prog.ofExcept (r.mapError .python)

section

variable [Prims F]

/-- The columns of the INSERT but for `id`, with their values. -/
def insertColumns (order : OrderDict F) : Except Exc (List (String × SqlExpr F)) := do
  let quantity ← (order.getD .quantity (.int 0)).toFloat
  let filledQuantity ← (order.getD .filledQuantity (.int 0)).toFloat
  let commission ← (order.getD .commission (.int 0)).toFloat
  let swap ← (order.getD .swap (.int 0)).toFloat
  let profit ← (order.getD .profit (.int 0)).toFloat
  return [("client_order_id", .param (order.get .clientOrderId)),
    ("account_id", .param (order.get .accountId)),
    ("strategy_id", .param (order.get .strategyId)),
    ("model_id", .param (order.get .modelId)),
    ("symbol", .param (order.get .symbol)),
    ("side", .param (order.get .side)),
    ("order_type", .param (order.get .orderType)),
    ("quantity", .param (.float quantity)),
    ("filled_quantity", .param (.float filledQuantity)),
    ("price", .param (order.get .price)),
    ("stop_price", .param (order.get .stopPrice)),
    ("limit_price", .param (order.get .limitPrice)),
    ("status", .param (order.get .status)),
    ("rejection_reason", .param (order.get .rejectionReason)),
    ("commission", .param (.float commission)),
    ("swap", .param (.float swap)),
    ("profit", .param (.float profit)),
    ("opened_at", .param (order.get .openedAt)),
    ("closed_at", .param (order.get .closedAt)),
    ("created_at", .now),
    ("updated_at", .now),
    ("version", .lit 1)]

/-- The transaction of `save_order`. -/
def saveInTransaction (order : OrderDict F) : RepoM F String := do
  let existing : Option (Val F) ← pg (.selectByClientOrderId (order.get .clientOrderId))
  match existing with
  | some id => return id.toStr
  | none => do
      let columns ← python (insertColumns order)
      let id : Val F ← pg (.insertOrder (order.get .id) columns)
      return id.toStr

/-- `PostgresRepository.save_order`. -/
def saveOrder (order : OrderDict F) : RepoM F String :=
  executeRetry (withConnection (transaction (saveInTransaction order))) 3

end

-- ============================================================================
-- update_order_status
-- ============================================================================

/-- `d[k] = v` of a dict in its order of insertion. -/
def dictSet {V : Type} : List (String × V) → String → V → List (String × V)
  | [], k, v => [(k, v)]
  | (k', v') :: rest, k, v => if k' = k then (k, v) :: rest else (k', v') :: dictSet rest k v

/-- `updates` of `update_order_status`. -/
def updatesOf (status : String) (version : ℤ) (kwargs : List (String × Val F)) :
    List (String × Val F) :=
  kwargs.foldl (fun updates kw => dictSet updates kw.1 kw.2)
    [("status", .str status), ("updated_at", .str "NOW()"), ("version", .int (version + 1))]

/-- `k=NOW()` where `v == "NOW()"`, otherwise `k=$n` with its value. -/
def setPart : Val F → SqlExpr F
  | .str s => if s = "NOW()" then .now else .param (.str s)
  | v => .param v

section

variable [Prims F]

/-- The transaction of `update_order_status`. -/
def updateInTransaction (orderId : String) (status : String) (kwargs : List (String × Val F)) :
    RepoM F Bool := do
  let row : Option (Val F) ← pg (.selectVersionForUpdate (.str orderId))
  match row with
  | none => return false
  | some stored => do
      let version ← python stored.toInt
      let sets := (updatesOf status version kwargs).map fun kv => (kv.1, setPart kv.2)
      let result : String ← pg (.updateOrder (.str orderId) sets version)
      return result.endsWith "1"

/-- `PostgresRepository.update_order_status`. -/
def updateOrderStatus (orderId : String) (status : String) (kwargs : List (String × Val F)) :
    RepoM F Bool :=
  executeRetry (withConnection (transaction (updateInTransaction orderId status kwargs))) 3

end

/-- The command tags of an UPDATE of one row and of none. -/
theorem tag_one : "UPDATE 1".endsWith "1" = true := by decide +kernel

theorem tag_zero : "UPDATE 0".endsWith "1" = false := by decide +kernel

-- ============================================================================
-- The orders table
-- ============================================================================

/-- A row of `orders`, by column name. -/
abbrev Row (F : Type) : Type := String → Val F

/-- Two rows that cannot both be there: `id` is the primary key and `client_order_id`
    is UNIQUE, where NULLs do not clash. -/
def Clash (r r' : Row F) : Prop :=
  r "id" = r' "id" ∨ r "client_order_id" = r' "client_order_id" ∧ r "client_order_id" ≠ .none

/-- What else the table says about its rows. -/
structure OrdersTable (F : Type) where
  /-- `$1::uuid`, where the value is one. -/
  uuid : Val F → Option (Val F)
  /-- The row has no columns but the table's, and their types and other constraints
      admit it. -/
  accepts : Row F → Bool

def SqlExpr.value (now : Time) : SqlExpr F → Val F
  | .param v => v
  | .now => .datetime now
  | .lit n => .int n

/-- The row of an INSERT. -/
def Row.ofColumns (id : Val F) (now : Time) (columns : List (String × SqlExpr F)) : Row F :=
  fun c => if c = "id" then id else ((columns.lookup c).map (SqlExpr.value now)).getD .none

/-- The row after a SET. -/
def Row.assign (row : Row F) (now : Time) (sets : List (String × SqlExpr F)) : Row F :=
  fun c => ((sets.lookup c).map (SqlExpr.value now)).getD (row c)

variable {ι : Type} [DecidableEq ι]

/-- The database of the repository. -/
abbrev Orders (ι F : Type) : Type := Db ι (Row F)

omit [DecidableEq ι] in
/-- The row that the INSERT of session `i` builds; a generated id is a new one. -/
def Builds (T : OrdersTable F) (w : Orders ι F) (i : ι) (id : Val F)
    (columns : List (String × SqlExpr F)) (row : Row F) : Prop :=
  ∃ id' now, row = Row.ofColumns id' now columns ∧
    (T.uuid id = some id' ∨ id = .none ∧ ∀ r ∈ w.view i, r "id" ≠ id')

omit [DecidableEq ι] in
/-- Row number `k` is the one with the id. -/
def RowAt (T : OrdersTable F) (w : Orders ι F) (id : Val F) (k : ℕ) (row : Row F) : Prop :=
  w.rows[k]? = some row ∧ T.uuid id = some (row "id")

omit [DecidableEq ι] in
/-- No other session has written a row that clashes and not ended its transaction. -/
def Unhindered (w : Orders ι F) (i : ι) (row : Row F) : Prop :=
  ∀ j, j ≠ i → ∀ x, (w.tx j).pending = some x → ¬ Clash x.row row

omit [DecidableEq ι] in
/-- No other session has locked row number `k`. -/
def Unlocked (w : Orders ι F) (i : ι) (k : ℕ) : Prop := ∀ j, j ≠ i → (w.tx j).lock ≠ some k

/-- What session `i` may be answered. -/
def pgEnv (T : OrdersTable F) (i : ι) : Env (Orders ι F) (PgOp.Ans (F := F)) PgExc :=
  fun w e a w' =>
    match e, a with
    | .acquire, .ok _ => w' = w.setTx i .idle
    | .acquire, .error x => x.retried ∧ w' = w.setTx i .idle
    | .release, .ok _ => w' = w
    | .sleep _, a => a = .ok () ∧ w' = w
    | .begin, .ok _ => w.tx i = .idle ∧ w' = w.setTx i (.opened none none)
    | .commit, .ok _ => ∃ write lock, w.tx i = .opened write lock ∧ w' = w.commit i write
    | .commit, .error x => x.retried ∧ ∃ write lock, w.tx i = .opened write lock ∧
        (w' = w.drop i ∨ w' = w.commit i write)
    | .rollback, .ok _ => w' = w.drop i
    | .selectByClientOrderId v, .ok found => w' = w ∧
        match found with
        | some id => ∃ r ∈ w.view i, r "client_order_id" = v ∧ v ≠ .none ∧ id = r "id"
        | none => ∀ r ∈ w.view i, r "client_order_id" = v → v = .none
    | .insertOrder id columns, .ok id' => ∃ row lock, Builds T w i id columns row ∧
        T.accepts row ∧ (∀ r ∈ w.view i, ¬ Clash r row) ∧ Unhindered w i row ∧ id' = row "id" ∧
        w.tx i = .opened none lock ∧ w' = w.setTx i (.opened (some (.insert row)) lock)
    | .insertOrder id columns, .error x =>
        (x.retried ∧ w' = w.drop i) ∨
        (x = .uniqueViolationError ∧ w' = w ∧
          ∃ row, Builds T w i id columns row ∧ ∃ r ∈ w.view i, Clash r row) ∨
        (x.retried = false ∧ w' = w ∧ (id ≠ .none ∧ T.uuid id = none ∨
          ∃ row, Builds T w i id columns row ∧ T.accepts row = false))
    | .selectVersionForUpdate id, .ok found =>
        match found with
        | some version => ∃ k row, RowAt T w id k row ∧ version = row "version" ∧
            Unlocked w i k ∧ w.tx i = .opened none none ∧
            w' = w.setTx i (.opened none (some k))
        | none => (∀ k row, ¬ RowAt T w id k row) ∧ w' = w
    | .selectVersionForUpdate id, .error x =>
        (x.retried ∧ w' = w.drop i) ∨ (x.retried = false ∧ w' = w ∧ T.uuid id = none)
    | .updateOrder id sets version, .ok tag =>
        (∃ k row now, RowAt T w id k row ∧ row "version" = .int version ∧
          T.accepts (row.assign now sets) ∧
          (∀ k' r, k' ≠ k → w.rows[k']? = some r → ¬ Clash r (row.assign now sets)) ∧
          Unhindered w i (row.assign now sets) ∧ Unlocked w i k ∧ tag = "UPDATE 1" ∧
          ∃ lock, w.tx i = .opened none lock ∧ (∀ k', lock = some k' → k' = k) ∧
            w' = w.setTx i (.opened (some (.update k (row.assign now sets))) (some k))) ∨
        ((∀ k row, RowAt T w id k row → row "version" ≠ .int version) ∧ tag = "UPDATE 0" ∧ w' = w)
    | .updateOrder _ _ _, .error x => (x.retried ∧ w' = w.drop i) ∨ (x.retried = false ∧ w' = w)
    | _, .error x => x.retried ∧ w' = w.drop i

-- ============================================================================
-- What a call does to the database
-- ============================================================================

/-- What an operation of session `i` can do to the database. -/
inductive PgStep (T : OrdersTable F) (w : Orders ι F) (i : ι) : PgOp F → Orders ι F → Prop
  | same {e : PgOp F} : e ≠ .acquire → PgStep T w i e w
  | dropped {e : PgOp F} : e ≠ .acquire → PgStep T w i e (w.drop i)
  | idle : PgStep T w i .acquire (w.setTx i .idle)
  | opened : w.tx i = .idle → PgStep T w i .begin (w.setTx i (.opened none none))
  | inserted {id : Val F} {columns : List (String × SqlExpr F)} {row : Row F}
      {lock : Option ℕ} :
      w.tx i = .opened none lock → (∀ r ∈ w.rows, ¬ Clash r row) → Unhindered w i row →
      PgStep T w i (.insertOrder id columns) (w.setTx i (.opened (some (.insert row)) lock))
  | locked {id : Val F} {k : ℕ} {row : Row F} :
      w.tx i = .opened none none → RowAt T w id k row → Unlocked w i k →
      PgStep T w i (.selectVersionForUpdate id) (w.setTx i (.opened none (some k)))
  | updated {id : Val F} {sets : List (String × SqlExpr F)} {version : ℤ} {k : ℕ} {row : Row F}
      {now : Time} {lock : Option ℕ} :
      w.tx i = .opened none lock → (∀ k', lock = some k' → k' = k) → RowAt T w id k row →
      row "version" = .int version → Unlocked w i k →
      PgStep T w i (.updateOrder id sets version)
        (w.setTx i (.opened (some (.update k (row.assign now sets))) (some k)))
  | committed {write : Option (Write (Row F))} {lock : Option ℕ} :
      w.tx i = .opened write lock → PgStep T w i .commit (w.commit i write)

variable {T : OrdersTable F} {w w' : Orders ι F} {i : ι} {e : PgOp F}

theorem pgEnv_step {a : Except PgExc e.Ans} (h : pgEnv T i w e a w') : PgStep T w i e w' := by
  cases e with
  | acquire =>
      cases a with
      | ok _ =>
          obtain rfl : w' = w.setTx i .idle := h
          exact .idle
      | error x =>
          obtain ⟨-, rfl⟩ := h
          exact .idle
  | release =>
      cases a with
      | ok _ =>
          obtain rfl : w' = w := h
          exact .same nofun
      | error x =>
          obtain ⟨-, rfl⟩ := h
          exact .dropped nofun
  | begin =>
      cases a with
      | ok _ =>
          obtain ⟨hidle, rfl⟩ := h
          exact .opened hidle
      | error x =>
          obtain ⟨-, rfl⟩ := h
          exact .dropped nofun
  | commit =>
      cases a with
      | ok _ =>
          obtain ⟨write, lock, htx, rfl⟩ := h
          exact .committed htx
      | error x =>
          obtain ⟨-, write, lock, htx, rfl | rfl⟩ := h
          · exact .dropped nofun
          · exact .committed htx
  | rollback =>
      cases a with
      | ok _ =>
          obtain rfl : w' = w.drop i := h
          exact .dropped nofun
      | error x =>
          obtain ⟨-, rfl⟩ := h
          exact .dropped nofun
  | sleep n =>
      obtain ⟨-, rfl⟩ := h
      exact .same nofun
  | selectByClientOrderId v =>
      cases a with
      | ok found =>
          obtain ⟨rfl, -⟩ := h
          exact .same nofun
      | error x =>
          obtain ⟨-, rfl⟩ := h
          exact .dropped nofun
  | insertOrder id columns =>
      cases a with
      | ok id' =>
          obtain ⟨row, lock, -, -, hview, hothers, -, htx, rfl⟩ := h
          rw [Db.view_of_none (by rw [htx]; rfl)] at hview
          exact .inserted htx hview hothers
      | error x =>
          rcases h with ⟨-, rfl⟩ | ⟨-, rfl, -⟩ | ⟨-, rfl, -⟩
          · exact .dropped nofun
          · exact .same nofun
          · exact .same nofun
  | selectVersionForUpdate id =>
      match a with
      | .ok (some version) =>
          obtain ⟨k, row, hrow, -, hunlocked, htx, rfl⟩ := h
          exact .locked htx hrow hunlocked
      | .ok none =>
          obtain ⟨-, rfl⟩ := h
          exact .same nofun
      | .error x =>
          rcases h with ⟨-, rfl⟩ | ⟨-, rfl, -⟩
          · exact .dropped nofun
          · exact .same nofun
  | updateOrder id sets version =>
      cases a with
      | ok tag =>
          rcases h with ⟨k, row, now, hrow, hversion, -, -, -, hunlocked, -, lock, htx, hlock,
            rfl⟩ | ⟨-, -, rfl⟩
          · exact .updated htx hlock hrow hversion hunlocked
          · exact .same nofun
      | error x =>
          rcases h with ⟨-, rfl⟩ | ⟨-, rfl⟩
          · exact .dropped nofun
          · exact .same nofun

/-- No session touches the transaction of another. -/
theorem PgStep.tx_other (h : PgStep T w i e w') {j : ι} (hj : j ≠ i) : w'.tx j = w.tx j := by
  cases h with
  | same _ => rfl
  | dropped _ => exact Db.drop_tx_other hj
  | committed _ => exact Db.commit_tx_other _ hj
  | _ => exact Db.setTx_tx_other _ hj

-- ============================================================================
-- A database of two sessions
-- ============================================================================

/-- Ids are text, and every row is admitted. -/
def sampleOrdersTable : OrdersTable ℚ where
  uuid
    | .str s => some (.str s)
    | _ => none
  accepts _ := true

/-- Nothing is pending or locked in another session. -/
def alone (w : Orders (Fin 2) ℚ) (i : Fin 2) : Bool :=
  decide (∀ j, j ≠ i → (w.tx j).pending.isNone ∧ (w.tx j).lock.isNone)

instance (r r' : Row ℚ) : Decidable (Clash r r') := inferInstanceAs (Decidable (_ ∨ _))

/-- A database that loses no connection; it answers where nothing is to be waited for,
    and updates a table of one row. -/
def pgAnswers (i : Fin 2) : Handler (Orders (Fin 2) ℚ) (PgOp.Ans (F := ℚ)) PgExc :=
  fun w e =>
    match e with
    | .acquire => some (.ok (), w.setTx i .idle)
    | .release => some (.ok (), w)
    | .sleep _ => some (.ok (), w)
    | .rollback => some (.ok (), w.drop i)
    | .begin =>
        match w.tx i with
        | .idle => some (.ok (), w.setTx i (.opened none none))
        | _ => none
    | .commit =>
        match w.tx i with
        | .opened write _ => some (.ok (), w.commit i write)
        | _ => none
    | .selectByClientOrderId v =>
        match w.rows.find? fun r => r "client_order_id" = v ∧ v ≠ .none, w.tx i with
        | some r, .opened none none => some (.ok (some (r "id")), w)
        | none, .opened none none => some (.ok none, w)
        | _, _ => none
    | .insertOrder (.str id) columns =>
        match w.tx i with
        | .opened none lock =>
            if w.rows.any fun r => Clash r (Row.ofColumns (.str id) 0 columns) then
              some (.error .uniqueViolationError, w)
            else if alone w i then
              some (.ok (.str id), w.setTx i
                (.opened (some (.insert (Row.ofColumns (.str id) 0 columns))) lock))
            else none
        | _ => none
    | .insertOrder _ _ => none
    | .selectVersionForUpdate id =>
        match w.rows, w.tx i with
        | [row], .opened none none =>
            if sampleOrdersTable.uuid id = some (row "id") ∧ alone w i then
              some (.ok (some (row "version")), w.setTx i (.opened none (some 0)))
            else none
        | _, _ => none
    | .updateOrder id sets version =>
        match w.rows, w.tx i with
        | [row], .opened none (some 0) =>
            if sampleOrdersTable.uuid id = some (row "id") ∧ row "version" = .int version ∧
                alone w i then
              some (.ok "UPDATE 1",
                w.setTx i (.opened (some (.update 0 (row.assign 0 sets))) (some 0)))
            else none
        | _, _ => none

section

variable {w : Orders (Fin 2) ℚ} {i : Fin 2}

theorem unhindered_of_alone (h : alone w i) (row : Row ℚ) : Unhindered w i row := by
  intro j hj x hx
  have hnone := (of_decide_eq_true h j hj).1
  rw [hx] at hnone
  cases hnone

theorem unlocked_of_alone (h : alone w i) (k : ℕ) : Unlocked w i k := by
  intro j hj hlock
  have hnone := (of_decide_eq_true h j hj).2
  rw [hlock] at hnone
  cases hnone

theorem rowAt_singleton {row : Row ℚ} (hrows : w.rows = [row]) {id : Val ℚ}
    (hid : sampleOrdersTable.uuid id = some (row "id")) :
    RowAt sampleOrdersTable w id 0 row := by
  refine ⟨?_, hid⟩
  rw [hrows]
  rfl

theorem pgAnswers_sound {w' : Orders (Fin 2) ℚ} {e : PgOp ℚ} {a : Except PgExc e.Ans}
    (h : pgAnswers i w e = some (a, w')) : pgEnv sampleOrdersTable i w e a w' := by
  cases e with
  | acquire =>
      cases h
      rfl
  | release =>
      cases h
      rfl
  | sleep n =>
      cases h
      exact ⟨rfl, rfl⟩
  | rollback =>
      cases h
      rfl
  | begin =>
      simp only [pgAnswers] at h
      split at h
      next hidle =>
        cases h
        exact ⟨hidle, rfl⟩
      next => cases h
  | commit =>
      simp only [pgAnswers] at h
      split at h
      next write lock htx =>
        cases h
        exact ⟨write, lock, htx, rfl⟩
      next => cases h
  | selectByClientOrderId v =>
      simp only [pgAnswers] at h
      split at h
      next r hfind htx =>
        cases h
        have hmatch := List.find?_some hfind
        rw [decide_eq_true_eq] at hmatch
        obtain ⟨hclient, hnull⟩ := hmatch
        refine ⟨rfl, r, ?_, hclient, hnull, rfl⟩
        rw [Db.view_of_none (by rw [htx]; rfl)]
        exact List.mem_of_find?_eq_some hfind
      next hfind htx =>
        cases h
        refine ⟨rfl, fun r hr hclient => ?_⟩
        rw [Db.view_of_none (by rw [htx]; rfl)] at hr
        have hnone := List.find?_eq_none.mp hfind r hr
        simpa [hclient] using hnone
      next => cases h
  | insertOrder id columns =>
      cases id with
      | str id =>
          simp only [pgAnswers] at h
          split at h
          next lock htx =>
            have hbuilds : Builds sampleOrdersTable w i (.str id) columns
                (Row.ofColumns (.str id) 0 columns) := ⟨.str id, 0, rfl, .inl rfl⟩
            have hview : w.view i = w.rows := Db.view_of_none (by rw [htx]; rfl)
            split at h
            next hclash =>
              cases h
              obtain ⟨r, hr, hclash⟩ := List.any_eq_true.mp hclash
              refine .inr (.inl ⟨rfl, rfl, _, hbuilds, r, hview ▸ hr, of_decide_eq_true hclash⟩)
            next hfree =>
              split at h
              next halone =>
                cases h
                refine ⟨_, lock, hbuilds, rfl, fun r hr hclash => hfree ?_,
                  unhindered_of_alone halone _, rfl, htx, rfl⟩
                rw [hview] at hr
                exact List.any_eq_true.mpr ⟨r, hr, decide_eq_true hclash⟩
              next => cases h
          next => cases h
      | _ => cases h
  | selectVersionForUpdate id =>
      simp only [pgAnswers] at h
      split at h
      next row hrows htx =>
        split at h
        next hrow =>
          cases h
          exact ⟨0, row, rowAt_singleton hrows hrow.1, rfl, unlocked_of_alone hrow.2 0, htx, rfl⟩
        next => cases h
      next => cases h
  | updateOrder id sets version =>
      simp only [pgAnswers] at h
      split at h
      next row hrows htx =>
        split at h
        next hrow =>
          cases h
          obtain ⟨hid, hversion, halone⟩ := hrow
          refine .inl ⟨0, row, 0, rowAt_singleton hrows hid, hversion, rfl, ?_,
            unhindered_of_alone halone _, unlocked_of_alone halone 0, rfl, some 0, htx,
            fun k hk => (Option.some.inj hk).symm, rfl⟩
          intro k r hk hr
          rw [hrows] at hr
          cases k with
          | zero => exact absurd rfl hk
          | succ k => cases hr
        next => cases h
      next => cases h

end

end Mtrader.Storage
