/-
  Mtrader.Execution.Engine

  `ExecutionEngine` of `execution/engine.py`, as programs over the calls it
  makes: its lock, its repository, its connector, its risk engine, its callbacks
  and the clock.

  An order row that is read is hydrated into a new `Order`; the `Order` object a
  caller submits is never written by these methods.
-/

import Mtrader.Risk.Engine

namespace Mtrader.Execution

open Coroutine Py Mtrader.Connectors Mtrader.Risk

-- ============================================================================
-- The transition table
-- ============================================================================

/-- `ExecutionEngine.VALID_TRANSITIONS`. -/
def validTransitions : OrderStatus → List OrderStatus
  | .pending => [.validated, .rejected, .canceled]
  | .validated => [.submitted, .rejected, .canceled]
  | .submitted => [.partial_, .filled, .rejected, .canceled, .expired]
  | .partial_ => [.filled, .canceled, .rejected, .expired]
  | .filled => []
  | .rejected => []
  | .canceled => []
  | .expired => []

/-- `update_order_status` lets `s` become `s'` (`status in allowed or
    status == order.status`): a listed transition or no change. -/
def CanBecome (s s' : OrderStatus) : Prop := s' ∈ validTransitions s ∨ s' = s

instance (s s' : OrderStatus) : Decidable (CanBecome s s') :=
  inferInstanceAs (Decidable (_ ∨ _))

/-- The statuses `cancel_order` acts on. -/
def OrderStatus.open_ (s : OrderStatus) : Bool :=
  s ∈ [OrderStatus.pending, .validated, .submitted, .partial_]

-- ============================================================================
-- Operations
-- ============================================================================

/-- The events of `_callbacks`. -/
inductive EngineEvent
  | orderCreated | orderUpdated | orderFilled | orderRejected | orderCanceled
  deriving DecidableEq, Repr

/-- A registered callback. -/
abbrev CallbackId : Type := ℕ

/-- How a callback ended: the payload dict as it left it, and the `Exception` it
    raised. -/
structure CallbackResult (F : Type) where
  payload : OrderDict F
  raised : Option Exc := none

/-- What `ExecutionEngine` calls. -/
inductive EngineOp (F : Type)
  /-- Entering and leaving `async with self._lock`. -/
  | acquire
  | release
  | utcnow
  | getAccountInfo
  | getPositions (symbol : String)
  | executeOrder (order : OrderDict F)
  | cancelOrder (orderId : String)
  | preTradeCheck (order : OrderDict F) (accountInfo : Dict AccountKey F)
      (positions : List (Dict PositionKey F))
  | repoGetOrder (orderId : String)
  | repoUpdateOrder (orderId : String) (row : OrderDict F)
  | repoSaveOrder (row : OrderDict F)
  /-- The start of `_emit`: the callbacks registered for the event.  The payload
      is what they are about to be called with. -/
  | callbacks (event : EngineEvent) (payload : OrderDict F)
  | invoke (cb : CallbackId) (payload : OrderDict F)

/-- What the operations answer with. -/
@[reducible] def EngineOp.Ans {F : Type} : EngineOp F → Type
  | .acquire => Unit
  | .release => Unit
  | .utcnow => Time
  | .getAccountInfo => Dict AccountKey F
  | .getPositions _ => List (Dict PositionKey F)
  | .executeOrder _ => BrokerResponse F
  | .cancelOrder _ => Bool
  | .preTradeCheck _ _ _ => TradeApproval
  | .repoGetOrder _ => Option (OrderDict F)
  | .repoUpdateOrder _ _ => Unit
  | .repoSaveOrder _ => String
  | .callbacks _ _ => List CallbackId
  | .invoke _ _ => CallbackResult F

/-- An `await` that waits for a collaborator; the rest runs without giving up
    the event loop. -/
def EngineOp.suspends {F : Type} : EngineOp F → Bool
  | .release | .utcnow | .callbacks _ _ => false
  | _ => true

/-- The programs of the execution engine. -/
abbrev EngineM (F : Type) : Type → Type := Prog (EngineOp.Ans (F := F)) Exc

variable {F : Type}

/-- One call of the execution engine. -/
abbrev engine (e : EngineOp F) : EngineM F e.Ans := Prog.op e

-- ============================================================================
-- _emit
-- ============================================================================

/-- The loop of `_emit`: an `Exception` of a callback is logged and dropped, and
    the next callback gets the same payload dict. -/
def invokeAll : List CallbackId → OrderDict F → EngineM F Unit
  | [], _ => pure ()
  | cb :: cbs, payload => do
      let out : CallbackResult F ← engine (.invoke cb payload)
      invokeAll cbs out.payload

/-- `ExecutionEngine._emit`. -/
def emit (event : EngineEvent) (payload : OrderDict F) : EngineM F Unit := do
  let cbs ← engine (.callbacks event payload)
  invokeAll cbs payload

-- ============================================================================
-- update_order_status
-- ============================================================================

/-- A keyword argument of `update_order_status`; `other` names no attribute of an
    order.  `status` is a positional parameter and cannot be one of them. -/
inductive OrderField (F : Type)
  | id (v : String) | clientOrderId (v : String) | accountId (v : String)
  | strategyId (v : Option String) | modelId (v : Option String) | symbol (v : String)
  | side (v : OrderSide) | orderType (v : OrderType) | quantity (v : F)
  | filledQuantity (v : F) | price (v : Option F) | stopPrice (v : Option F)
  | limitPrice (v : Option F) | rejectionReason (v : Option String)
  | commission (v : F) | swap (v : F) | profit (v : F) | openedAt (v : Option Time)
  | closedAt (v : Option Time) | createdAt (v : Time) | updatedAt (v : Time)
  | other (name : String)

/-- `if hasattr(order, k): setattr(order, k, v)`. -/
def Order.setattr (o : Order F) : OrderField F → Order F
  | .id v => { o with id := v }
  | .clientOrderId v => { o with clientOrderId := v }
  | .accountId v => { o with accountId := v }
  | .strategyId v => { o with strategyId := v }
  | .modelId v => { o with modelId := v }
  | .symbol v => { o with symbol := v }
  | .side v => { o with side := v }
  | .orderType v => { o with orderType := v }
  | .quantity v => { o with quantity := v }
  | .filledQuantity v => { o with filledQuantity := v }
  | .price v => { o with price := v }
  | .stopPrice v => { o with stopPrice := v }
  | .limitPrice v => { o with limitPrice := v }
  | .rejectionReason v => { o with rejectionReason := v }
  | .commission v => { o with commission := v }
  | .swap v => { o with swap := v }
  | .profit v => { o with profit := v }
  | .openedAt v => { o with openedAt := v }
  | .closedAt v => { o with closedAt := v }
  | .createdAt v => { o with createdAt := v }
  | .updatedAt v => { o with updatedAt := v }
  | .other _ => o

/-- The order that `update_order_status` writes back. -/
def Order.updated (o : Order F) (status : OrderStatus) (kwargs : List (OrderField F))
    (now : Time) : Order F :=
  { kwargs.foldl Order.setattr { o with status := status } with updatedAt := now }

@[simp] theorem Order.setattr_status (o : Order F) (kw : OrderField F) :
    (o.setattr kw).status = o.status := by
  cases kw <;> rfl

theorem Order.foldl_setattr_status (kwargs : List (OrderField F)) (o : Order F) :
    (kwargs.foldl Order.setattr o).status = o.status := by
  induction kwargs generalizing o with
  | nil => rfl
  | cons kw kws ih => rw [List.foldl_cons, ih, Order.setattr_status]

@[simp] theorem Order.updated_status (o : Order F) (status : OrderStatus)
    (kwargs : List (OrderField F)) (now : Time) :
    (o.updated status kwargs now).status = status :=
  Order.foldl_setattr_status kwargs _

variable [Prims F]

/-- `ExecutionEngine.get_order`; the answer `none` stands for everything that
    `if not data` catches, an empty dict as well. -/
def getOrder (orderId : String) : EngineM F (Option (Order F)) := do
  let data : Option (OrderDict F) ← engine (.repoGetOrder orderId)
  match data with
  | none => return none
  | some data => do
      let nowC ← engine .utcnow
      let nowU ← engine .utcnow
      let order ← Prog.ofExcept (hydrate nowC nowU data)
      return some order

/-- The end of `update_order_status`: write the order back and tell the callbacks. -/
def writeStatus (orderId : String) (order : Order F) (status : OrderStatus)
    (kwargs : List (OrderField F)) : EngineM F Unit := do
  let now ← engine .utcnow
  let order := order.updated status kwargs now
  engine (.repoUpdateOrder orderId order.toDict)
  emit .orderUpdated order.toDict
  if status = .rejected then
    emit .orderRejected order.toDict
  else return ()

/-- `ExecutionEngine.update_order_status`. -/
def updateOrderStatus (orderId : String) (status : OrderStatus)
    (kwargs : List (OrderField F)) : EngineM F Unit := do
  match ← getOrder orderId with
  | none => .raise (.valueError "order not found")
  | some order =>
      if ¬ CanBecome order.status status then
        .raise (.valueError ("invalid status transition OrderStatus." ++ order.status.value
          ++ " -> OrderStatus." ++ status.value))
      else writeStatus orderId order status kwargs

-- ============================================================================
-- submit_order and cancel_order
-- ============================================================================

/-- `async with self._lock: body`. -/
def withLock {R : Type} (body : EngineM F R) : EngineM F R := do
  engine .acquire
  body.andFinally (engine .release)

/-- The end of `submit_order`, once the broker has said ok. -/
def recordAccepted (order : Order F) (response : BrokerResponse F) : EngineM F (Order F) := do
  let result : ResultPayload F := response.result.getD {}
  let retcode := result.retcode.getD 0
  if retcode ≠ 0 then do
    let openedAt ← engine .utcnow
    updateOrderStatus order.id .submitted [.openedAt (some openedAt)]
    if result.deal.getD 0 ≠ 0 then do
      let closedAt ← engine .utcnow
      updateOrderStatus order.id .filled
        [.filledQuantity order.quantity, .closedAt (some closedAt)]
      emit .orderFilled order.toDict
      return order
    else return order
  else return order

/-- `submit_order` from the risk check's approval on. -/
def submitApproved (order : Order F) : EngineM F (Order F) := do
  updateOrderStatus order.id .validated []
  let _ ← engine (.repoSaveOrder order.toDict)
  emit .orderCreated order.toDict
  let response : BrokerResponse F ← engine (.executeOrder order.toDict)
  if !response.ok then do
    updateOrderStatus order.id .rejected
      [.rejectionReason (some (response.error.getD "broker rejected"))]
    return order
  else recordAccepted order response

/-- The body of `submit_order` under the lock. -/
def submitLocked (order : Order F) : EngineM F (Order F) := do
  if order.status ≠ .pending then
    .raise (.valueError "Order must be pending")
  else if Prims.le order.quantity (Prims.ofRat 0) then do
    updateOrderStatus order.id .rejected [.rejectionReason (some "quantity must be positive")]
    return order
  else do
    let accountInfo ← engine .getAccountInfo
    let positions ← engine (.getPositions order.symbol)
    let approval : TradeApproval ←
      engine (.preTradeCheck order.toDict accountInfo positions)
    if !approval.approved then do
      updateOrderStatus order.id .rejected [.rejectionReason approval.reason]
      return order
    else submitApproved order

/-- `ExecutionEngine.submit_order`. -/
def submitOrder (order : Order F) : EngineM F (Order F) := withLock (submitLocked order)

/-- `ExecutionEngine.cancel_order`. -/
def cancelOrder (orderId : String) : EngineM F Bool := do
  match ← getOrder orderId with
  | none => return false
  | some order =>
      if !order.status.open_ then return false
      else do
        let ok : Bool ← engine (.cancelOrder orderId)
        if ok then do
          updateOrderStatus orderId .canceled []
          emit .orderCanceled order.toDict
          return ok
        else return ok

-- ============================================================================
-- Calls on one engine
-- ============================================================================

/-- A call of `submit_order`, `cancel_order` or `update_order_status`. -/
inductive EngineCall (F : Type)
  | submit (order : Order F)
  | cancel (orderId : String)
  | update (orderId : String) (status : OrderStatus) (kwargs : List (OrderField F))

/-- What a call returns. -/
inductive EngineResult (F : Type)
  | order (o : Order F)
  | flag (b : Bool)
  | unit

/-- The program of a call. -/
def EngineCall.prog : EngineCall F → EngineM F (EngineResult F)
  | .submit order => do return .order (← submitOrder order)
  | .cancel orderId => do return .flag (← cancelOrder orderId)
  | .update orderId status kwargs => do
      updateOrderStatus orderId status kwargs
      return .unit

end Mtrader.Execution
