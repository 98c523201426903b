/-
  Mtrader.Execution.Bookkeeping

  What `update_order_status` and `submit_order` may call, and when.

  A status update only reads and writes rows, reads the clock and notifies; so
  the summary of a submission is the answer of its risk check, and the broker
  is called only after an approval, with the submitted order.
-/

import Mtrader.Execution.Engine
import Mtrader.Coroutine.Discipline

namespace Mtrader.Execution

open Coroutine Py Mtrader.Connectors Mtrader.Risk

variable {F : Type}

/-- An operation of `_emit`. -/
def EngineOp.emits : EngineOp F → Bool
  | .callbacks _ _ | .invoke _ _ => true
  | _ => false

/-- An operation of `get_order`. -/
def EngineOp.reads : EngineOp F → Bool
  | .utcnow | .repoGetOrder _ => true
  | _ => false

/-- An operation of `update_order_status`. -/
def EngineOp.bookkeeping : EngineOp F → Bool
  | .utcnow | .repoGetOrder _ | .repoUpdateOrder _ _ | .callbacks _ _ | .invoke _ _ => true
  | _ => false

/-- The promise to do nothing but bookkeeping. -/
abbrev bookkeepingOnly (F : Type) : Discipline (EngineOp.Ans (F := F)) Exc Unit :=
  .only fun e => e.bookkeeping = true

theorem invokeAll_emits (cbs : List CallbackId) (payload : OrderDict F) :
    (invokeAll cbs payload).Always (.only fun e => e.emits = true) := by
  induction cbs generalizing payload with
  | nil => exact Prog.always_ret ()
  | cons cb cbs ih => exact (Prog.always_op fun _ => rfl).bind fun out => ih out.payload

theorem emit_emits (event : EngineEvent) (payload : OrderDict F) :
    (emit event payload).Always (.only fun e => e.emits = true) :=
  (Prog.always_op fun _ => rfl).bind fun cbs => invokeAll_emits cbs payload

theorem emit_bookkeeping (event : EngineEvent) (payload : OrderDict F) :
    (emit event payload).Always (bookkeepingOnly F) := by
  refine (emit_emits event payload).of_only fun _ e he => ?_
  cases e with
  | callbacks event payload => rfl
  | invoke cb payload => rfl
  | _ => cases he

theorem writeStatus_bookkeeping (id : String) (order : Order F) (status : OrderStatus)
    (kwargs : List (OrderField F)) :
    (writeStatus id order status kwargs).Always (bookkeepingOnly F) := by
  refine (Prog.always_op fun _ => rfl).bind fun now => ?_
  refine (Prog.always_op fun _ => rfl).bind fun _ => ?_
  refine (emit_bookkeeping _ _).bind fun _ => ?_
  split
  next => exact emit_bookkeeping _ _
  next => exact Prog.always_ret ()

variable [Prims F]

theorem getOrder_reads (id : String) :
    (getOrder (F := F) id).Always (.only fun e => e.reads = true) := by
  refine (Prog.always_op fun _ => rfl).bind fun data => ?_
  cases data with
  | none => exact Prog.always_ret none
  | some data =>
      refine (Prog.always_op fun _ => rfl).bind fun nowC => ?_
      refine (Prog.always_op fun _ => rfl).bind fun nowU => ?_
      exact (Prog.always_ofExcept _).bind fun order => Prog.always_ret (some order)

theorem getOrder_bookkeeping (id : String) : (getOrder (F := F) id).Always (bookkeepingOnly F) := by
  refine (getOrder_reads id).of_only fun _ e he => ?_
  cases e with
  | utcnow => rfl
  | repoGetOrder id => rfl
  | _ => cases he

theorem updateOrderStatus_bookkeeping (id : String) (status : OrderStatus)
    (kwargs : List (OrderField F)) :
    (updateOrderStatus id status kwargs).Always (bookkeepingOnly F) := by
  refine (getOrder_bookkeeping id).bind fun found => ?_
  cases found with
  | none => exact Prog.always_raise _
  | some order =>
      simp only
      split
      next => exact Prog.always_raise _
      next => exact writeStatus_bookkeeping id order status kwargs

section

variable {G : Type} {D : Discipline (EngineOp.Ans (F := F)) Exc G}

/-- What follows the broker's acceptance reads the clock, updates and notifies. -/
theorem recordAccepted_always (hnow : ∀ g, D.may g .utcnow)
    (hupdate : ∀ id status kwargs, (updateOrderStatus id status kwargs).Always D)
    (hemit : ∀ event payload, (emit event payload).Always D) (order : Order F)
    (response : BrokerResponse F) : (recordAccepted order response).Always D := by
  simp only [recordAccepted]
  split
  next =>
    refine (Prog.always_op hnow).bind fun openedAt => ?_
    refine (hupdate _ _ _).bind fun _ => ?_
    split
    next =>
      refine (Prog.always_op hnow).bind fun closedAt => ?_
      refine (hupdate _ _ _).bind fun _ => ?_
      exact (hemit _ _).bind fun _ => Prog.always_ret order
    next => exact Prog.always_ret order
  next => exact Prog.always_ret order

end

theorem recordAccepted_bookkeeping (order : Order F) (response : BrokerResponse F) :
    (recordAccepted order response).Always (bookkeepingOnly F) :=
  recordAccepted_always (fun _ => rfl) updateOrderStatus_bookkeeping emit_bookkeeping order response

-- ============================================================================
-- A submission
-- ============================================================================

/-- The discipline of `submit_order(order)`: the broker is called only after the
    risk check has approved, with this order, and nothing is cancelled. -/
def submission (order : Order F) : Discipline (EngineOp.Ans (F := F)) Exc Bool where
  may approved
    | .executeOrder d => approved = true ∧ d = order.toDict ∧
        Prims.le order.quantity (Prims.ofRat 0) = false
    | .cancelOrder _ => False
    | _ => True
  next approved
    | .preTradeCheck _ _ _, .ok approval => approval.approved
    | .preTradeCheck _ _ _, .error _ => false
    | _, _ => approved

theorem submission_idle (order : Order F) (approved : Bool) (e : EngineOp F)
    (he : e.bookkeeping = true) :
    (submission order).may approved e ∧ ∀ a, (submission order).next approved e a = approved := by
  cases e with
  | utcnow => exact ⟨trivial, fun _ => rfl⟩
  | repoGetOrder id => exact ⟨trivial, fun _ => rfl⟩
  | repoUpdateOrder id row => exact ⟨trivial, fun _ => rfl⟩
  | callbacks event payload => exact ⟨trivial, fun _ => rfl⟩
  | invoke cb payload => exact ⟨trivial, fun _ => rfl⟩
  | _ => cases he

/-- Bookkeeping changes nothing about a submission. -/
theorem bookkeeping_submission {R : Type} {p : EngineM F R} (hp : p.Always (bookkeepingOnly F))
    (order : Order F) (approved : Bool) :
    p.Obeys (submission order) (fun _ approved' => approved' = approved) approved :=
  ((hp ()).of_only (submission_idle order approved)).mono fun _ _ h => h.1

/-- After bookkeeping, a submission goes on as it would have. -/
theorem bookkeeping_seq {R S : Type} {p : EngineM F R} {f : R → EngineM F S} {order : Order F}
    {approved : Bool} (hp : p.Always (bookkeepingOnly F))
    (hf : ∀ r, (f r).Obeys (submission order) (fun _ _ => True) approved) :
    (p >>= f).Obeys (submission order) (fun _ _ => True) approved := by
  refine (bookkeeping_submission hp order approved).seq ?_ fun _ _ _ => trivial
  rintro r _ rfl
  exact hf r

/-- An operation that is neither a broker call, a cancel nor the risk check, and
    then the rest of a submission. -/
theorem free_seq {S : Type} {e : EngineOp F} {f : e.Ans → EngineM F S} {order : Order F}
    {approved : Bool} (hmay : (submission order).may approved e)
    (hnext : ∀ a, (submission order).next approved e a = approved)
    (hf : ∀ r, (f r).Obeys (submission order) (fun _ _ => True) approved) :
    (engine e >>= f).Obeys (submission order) (fun _ _ => True) approved := by
  refine Prog.obeys_op_bind.mpr ⟨hmay, fun r => ?_, fun _ => trivial⟩
  rw [hnext]
  exact hf r

theorem submitApproved_submission (order : Order F)
    (hquantity : Prims.le order.quantity (Prims.ofRat 0) = false) :
    (submitApproved order).Obeys (submission order) (fun _ _ => True) true := by
  refine bookkeeping_seq (updateOrderStatus_bookkeeping _ _ _) fun _ => ?_
  refine free_seq trivial (fun _ => rfl) fun _ => ?_
  refine bookkeeping_seq (emit_bookkeeping _ _) fun _ => ?_
  refine free_seq ⟨rfl, rfl, hquantity⟩ (fun _ => rfl) fun response => ?_
  split
  next => exact bookkeeping_seq (updateOrderStatus_bookkeeping _ _ _) fun _ => trivial
  next =>
    exact (bookkeeping_submission (recordAccepted_bookkeeping order response) order true).mono
      fun _ _ _ => trivial

/-- `submit_order` keeps its discipline. -/
theorem submitOrder_submission (order : Order F) :
    (submitOrder order).Obeys (submission order) (fun _ _ => True) false := by
  refine free_seq trivial (fun _ => rfl) fun _ => ?_
  refine Prog.Obeys.andFinally ?_ (Prog.always_op fun _ => trivial)
  unfold submitLocked
  split
  next => trivial
  next =>
    split
    next => exact bookkeeping_seq (updateOrderStatus_bookkeeping _ _ _) fun _ => trivial
    next hquantity =>
      refine free_seq trivial (fun _ => rfl) fun accountInfo => ?_
      refine free_seq trivial (fun _ => rfl) fun positions => ?_
      refine Prog.obeys_op_bind.mpr ⟨trivial, fun approval => ?_, fun _ => trivial⟩
      split
      next => exact bookkeeping_seq (updateOrderStatus_bookkeeping _ _ _) fun _ => trivial
      next happroved =>
        have hnext : (submission order).next false
            (.preTradeCheck order.toDict accountInfo positions) (.ok approval) = true := by
          simpa [submission] using happroved
        rw [hnext]
        exact submitApproved_submission order (by simpa using hquantity)

end Mtrader.Execution
