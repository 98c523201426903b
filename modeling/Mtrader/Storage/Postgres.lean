/-
  Mtrader.Storage.Postgres

  The engine over the repository that `app.py` wires.

  `update_order_status` of the engine calls `repo.update_order`, which neither
  `PostgresOrderRepository` nor its base class defines; and `submit_order` returns
  only after one of these calls has succeeded.
-/

import Mtrader.Execution.Bookkeeping
import Mtrader.Execution.Table

namespace Mtrader.Storage

open Coroutine Py Mtrader.Execution Mtrader.Connectors Mtrader.Risk

variable {F : Type}

-- ============================================================================
-- The repository classes
-- ============================================================================

/-- The method names of the repository classes, and the one that the engine calls
    besides. -/
inductive RepoMethod
  | connect | close | executeRetry | saveOrder | getOrder | updateOrderStatus | getOpenOrders
  | saveTrade | getPosition | updatePosition | closePosition | saveRiskIncident
  | getOpenPositions | getAccountState | saveAuditLog
  | updateOrder
  deriving DecidableEq, Repr

def RepoMethod.name : RepoMethod → String
  | .connect => "connect"
  | .close => "close"
  | .executeRetry => "_execute_retry"
  | .saveOrder => "save_order"
  | .getOrder => "get_order"
  | .updateOrderStatus => "update_order_status"
  | .getOpenOrders => "get_open_orders"
  | .saveTrade => "save_trade"
  | .getPosition => "get_position"
  | .updatePosition => "update_position"
  | .closePosition => "close_position"
  | .saveRiskIncident => "save_risk_incident"
  | .getOpenPositions => "get_open_positions"
  | .getAccountState => "get_account_state"
  | .saveAuditLog => "save_audit_log"
  | .updateOrder => "update_order"

/-- The methods of `PostgresRepository`. -/
def postgresRepository : List RepoMethod :=
  [.connect, .close, .executeRetry, .saveOrder, .getOrder, .updateOrderStatus, .getOpenOrders,
   .saveTrade, .getPosition, .updatePosition, .closePosition, .saveRiskIncident]

/-- The methods of `PostgresOrderRepository`: its own and its base class's. -/
def postgresOrderRepository : List RepoMethod :=
  [.getOpenPositions, .getAccountState, .saveAuditLog] ++ postgresRepository

/-- The method that an operation of the engine looks up on its repository. -/
def repoMethod : EngineOp F → Option RepoMethod
  | .repoGetOrder _ => some .getOrder
  | .repoUpdateOrder _ _ => some .updateOrder
  | .repoSaveOrder _ => some .saveOrder
  | _ => none

/-- What the look-up raises. -/
def lookupError (e : EngineOp F) : Option Exc :=
  match repoMethod e with
  | some m =>
      if m ∈ postgresOrderRepository then none
      else some (.attributeError
        ("'PostgresOrderRepository' object has no attribute '" ++ m.name ++ "'"))
  | none => none

/-- The engine's collaborators, the repository being a `PostgresOrderRepository`; the
    connector, the risk check and the callbacks answer anything. -/
def postgresEnv (F : Type) : Env (Table F) (EngineOp.Ans (F := F)) Exc :=
  fun w e a w' =>
    match lookupError e with
    | some x => a = .error x ∧ w' = w
    | none =>
        match e, a with
        | .repoGetOrder id, .ok data => data = w id ∧ w' = w
        | .repoSaveOrder row, a => ∃ saved, SaveOrder w row saved w' ∧
            (a = saved ∨ ∃ x, a = .error x)
        | _, _ => w' = w

theorem postgresEnv_update {w w' : Table F} {id : String} {row : OrderDict F}
    {a : Except Exc Unit} (h : postgresEnv F w (.repoUpdateOrder id row) a w') :
    (∃ x, a = .error x) ∧ w' = w :=
  ⟨⟨_, h.1⟩, h.2⟩

/-- Only a save changes the table. -/
theorem postgresEnv_keeps {w w' : Table F} {e : EngineOp F} {a : Except Exc e.Ans}
    (h : postgresEnv F w e a w') (he : ∀ row, e ≠ .repoSaveOrder row) : w' = w := by
  cases e with
  | repoSaveOrder row => exact absurd rfl (he row)
  | repoUpdateOrder id row => exact (postgresEnv_update h).2
  | repoGetOrder id =>
      cases a with
      | ok data => exact h.2
      | error x => exact h
  | _ => exact h

-- ============================================================================
-- submit_order updates first
-- ============================================================================

/-- Nothing is saved and no order sent before an `update_order` has succeeded; the
    summary says whether one has. -/
def updatesFirst (F : Type) : Discipline (EngineOp.Ans (F := F)) Exc Bool where
  may updated
    | .repoSaveOrder _ | .executeOrder _ => updated = true
    | _ => True
  next updated
    | .repoUpdateOrder _ _, .ok _ => true
    | _, _ => updated

/-- After a success everything is allowed, and it stays a success. -/
theorem obeys_updated {R : Type} (p : EngineM F R) :
    p.Obeys (updatesFirst F) (fun _ updated => updated = true) true := by
  induction p with
  | ret r => rfl
  | raise x => rfl
  | call e k ih =>
      refine ⟨by cases e <;> trivial, fun a => ?_⟩
      have hnext : (updatesFirst F).next true e a = true := by
        cases e with
        | repoUpdateOrder id row => cases a <;> rfl
        | _ => rfl
      rw [hnext]
      exact ih a

section

variable [Prims F]

theorem getOrder_updatesFirst (id : String) : (getOrder (F := F) id).Always (updatesFirst F) := by
  refine (getOrder_reads id).of_only fun _ e he => ?_
  cases e with
  | repoSaveOrder row => cases he
  | executeOrder d => cases he
  | _ => trivial

/-- `update_order_status` returns only if its `update_order` has succeeded. -/
theorem updateOrderStatus_updatesFirst (id : String) (status : OrderStatus)
    (kwargs : List (OrderField F)) (updated : Bool) :
    (updateOrderStatus id status kwargs).Obeys (updatesFirst F)
      (fun out updated' => ∀ u, out = .ok u → updated' = true) updated := by
  refine (getOrder_updatesFirst id updated).seq (fun found updated₁ _ => ?_)
    fun x _ _ _ hx => nomatch hx
  cases found with
  | none => exact fun _ hx => nomatch hx
  | some order =>
      simp only
      split
      next => exact fun _ hx => nomatch hx
      next =>
        refine Prog.obeys_op_bind.mpr ⟨trivial, fun now => ?_, fun x _ hx => nomatch hx⟩
        refine Prog.obeys_op_bind.mpr ⟨trivial, fun _ => ?_, fun x _ hx => nomatch hx⟩
        exact (obeys_updated _).mono fun _ _ h _ _ => h

/-- A status update and then the rest of a submission. -/
theorem update_seq {R : Type} {id : String} {status : OrderStatus}
    {kwargs : List (OrderField F)} {f : Unit → EngineM F R} {updated : Bool} :
    (updateOrderStatus id status kwargs >>= f).Obeys (updatesFirst F)
      (fun out updated' => ∀ r, out = .ok r → updated' = true) updated := by
  refine (updateOrderStatus_updatesFirst id status kwargs updated).seq (fun u updated' h => ?_)
    fun x _ _ _ hx => nomatch hx
  rw [h u rfl]
  exact (obeys_updated _).mono fun _ _ h _ _ => h

/-- `submit_order` returns only after an `update_order` has succeeded. -/
theorem submitOrder_updatesFirst (order : Order F) :
    (submitOrder order).Obeys (updatesFirst F)
      (fun out updated => ∀ r, out = .ok r → updated = true) false := by
  refine Prog.obeys_op_bind.mpr ⟨trivial, fun _ => ?_, fun x _ hx => nomatch hx⟩
  refine Prog.obeys_andFinally ?_
  have hbody : (submitLocked order).Obeys (updatesFirst F)
      (fun out updated => ∀ r, out = .ok r → updated = true) false := by
    unfold submitLocked
    split
    next => exact fun _ hx => nomatch hx
    next =>
      split
      next => exact update_seq
      next =>
        refine Prog.obeys_op_bind.mpr ⟨trivial, fun info => ?_, fun x _ hx => nomatch hx⟩
        refine Prog.obeys_op_bind.mpr ⟨trivial, fun rows => ?_, fun x _ hx => nomatch hx⟩
        refine Prog.obeys_op_bind.mpr ⟨trivial, fun approval => ?_, fun x _ hx => nomatch hx⟩
        split
        next => exact update_seq
        next => exact update_seq
  refine hbody.mono fun out updated h => ⟨trivial, fun done => ?_⟩
  cases done with
  | ok _ => exact h
  | error x => exact fun _ hx => nomatch hx

end

-- ============================================================================
-- What a submission should leave
-- ============================================================================

/-- The risk check or the broker refused. -/
def refusal : Event (Table F) (EngineOp.Ans (F := F)) Exc → Bool
  | ⟨_, .preTradeCheck _ _ _, .ok approval⟩ => !approval.approved
  | ⟨_, .executeOrder _, .ok response⟩ => !response.ok
  | _ => false

/-- The broker accepted. -/
def acceptance : Event (Table F) (EngineOp.Ans (F := F)) Exc → Bool
  | ⟨_, .executeOrder _, .ok response⟩ => response.ok
  | _ => false

variable [Prims F]

/-- The statuses that the outcome of a submission calls for. -/
def calledFor (order : Order F) (log : List (Event (Table F) (EngineOp.Ans (F := F)) Exc)) :
    List OrderStatus :=
  if Prims.le order.quantity (Prims.ofRat 0) || log.any refusal then [.rejected]
  else if log.any acceptance then [.submitted, .filled]
  else []

/-- The submission has completed and left a status that its outcome calls for. -/
def Settled (order : Order F) (out : Except Exc (Order F))
    (t : Trail (Table F) (EngineOp.Ans (F := F)) Exc) : Prop :=
  (∃ r, out = .ok r) ∧ t.world.StoredAs order.id (calledFor order t.log)

/-- Collaborators that succeed, as far as the repository has the method. -/
def postgresAnswers : Answers (Table ℚ) (EngineOp.Ans (F := ℚ)) Exc :=
  fun w e =>
    match lookupError e with
    | some x => (.error x, w)
    | none =>
        match e with
        | .acquire => (.ok (), w)
        | .release => (.ok (), w)
        | .utcnow => (.ok 0, w)
        | .getAccountInfo => (.ok Dict.empty, w)
        | .getPositions _ => (.ok [], w)
        | .executeOrder _ =>
            (.ok { ok := true, result := some { retcode := some 10009, deal := some 1 } }, w)
        | .cancelOrder _ => (.ok true, w)
        | .preTradeCheck _ _ _ => (.ok { approved := true }, w)
        | .repoGetOrder id => (.ok (w id), w)
        | .repoUpdateOrder _ _ => (.ok (), w)
        | .repoSaveOrder _ => (.error (.external "duplicate key"), w)
        | .callbacks _ _ => (.ok [], w)
        | .invoke _ payload => (.ok { payload }, w)

theorem postgresAnswers_sound (w : Table ℚ) (e : EngineOp ℚ) :
    postgresEnv ℚ w e (postgresAnswers w e).1 (postgresAnswers w e).2 := by
  cases e with
  | repoGetOrder id => exact ⟨rfl, rfl⟩
  | repoUpdateOrder id row => exact ⟨rfl, rfl⟩
  | repoSaveOrder row => exact ⟨_, .raises (.external "duplicate key"), .inl rfl⟩
  | _ => exact rfl

/-- A pending order that the risk check would approve and the broker accept. -/
theorem submitOrder_not_always_settles :
    ¬ ∀ (order : Order ℚ) (w : Table ℚ) (out : Except Exc (Order ℚ))
        (t' : Trail (Table ℚ) (EngineOp.Ans (F := ℚ)) Exc),
      w.statusAt order.id = some .pending →
        Exec (postgresEnv ℚ) ⟨w, []⟩ (submitOrder order) out t' → Settled order out t' := by
  intro hall
  have hplay := Prog.play_sound postgresAnswers_sound (submitOrder sampleOrder) ⟨sampleTable, []⟩
  obtain ⟨⟨r, hr⟩, -⟩ := hall sampleOrder sampleTable _ _ (by decide +kernel) hplay
  have hraised : ((submitOrder sampleOrder).play postgresAnswers
      ⟨sampleTable, []⟩).1.toOption.isNone = true := by decide +kernel
  rw [hr] at hraised
  cases hraised

/-- Whatever the risk check and the broker answer, no submission settles, and every
    stored row is as before. -/
theorem submitOrder_never_settles (order : Order F) (w : Table F) :
    wp (postgresEnv F) (submitOrder order)
      (fun out t' => ¬ Settled order out t' ∧ t'.world = w) ⟨w, []⟩ := by
  refine wp_mono ((submitOrder_updatesFirst order).wp
    (J := fun updated t => updated = false ∧ t.world = w) ⟨rfl, rfl⟩ ?_) ?_
  · rintro _ t e a w' ⟨rfl, hw⟩ hmay henv
    cases e with
    | repoUpdateOrder id row =>
        obtain ⟨⟨x, rfl⟩, hsame⟩ := postgresEnv_update henv
        exact ⟨rfl, hsame.trans hw⟩
    | repoSaveOrder row => cases hmay
    | _ => exact ⟨rfl, (postgresEnv_keeps henv fun _ h => nomatch h).trans hw⟩
  · rintro out t' ⟨_, ⟨rfl, hw⟩, hout⟩
    refine ⟨?_, hw⟩
    rintro ⟨⟨r, hr⟩, -⟩
    cases hout r hr

end Mtrader.Storage
