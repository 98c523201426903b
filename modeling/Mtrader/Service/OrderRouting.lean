/-
  Mtrader.Service.OrderRouting

  `ExecutionEngine` on an `MT5Connector`: which requests reach `order_send` when an
  order is submitted, and which when it is cancelled.

  The two meet in an untyped dict.  `Order.to_dict` writes `order_type`, where
  `execute_order` reads `type`; and `cancel_order` hands over the engine's order
  id, where the connector expects a ticket.
-/

import Mtrader.Service.Mt5Service

namespace Mtrader.Service

open Coroutine Py Mtrader.Execution Mtrader.Connectors Mtrader.Risk

variable {F : Type} [Prims F]

-- ============================================================================
-- Submitted orders
-- ============================================================================

/-- The request has the order's symbol, volume and side, and the action its order
    type calls for. -/
structure Faithful (order : Order F) (req : TradeRequest F) : Prop where
  symbol : req.symbol = some (.str order.symbol)
  volume : req.volume = some order.quantity
  side : req.type = some (match order.side with | .buy => .buy | .sell => .sell)
  deal : req.action = .deal ↔ order.orderType = .market
  pending : req.action = .pending ↔
    order.orderType = .limit ∨ order.orderType = .stop ∨ order.orderType = .stopLimit

/-- A positive quantity is not read as a missing one. -/
theorem volumeOf_toDict {order : Order F}
    (hquantity : Prims.le order.quantity (Prims.ofRat 0) = false) :
    volumeOf order.toDict = .ok order.quantity := by
  simp [volumeOf, Dict.get, Order.toDict, Val.orElse, isZero, hquantity]

theorem dealTypeOf_toDict (order : Order F) :
    dealTypeOf order.toDict = (match order.side with | .buy => .buy | .sell => .sell) := by
  have hbuy : upper "BUY" = "BUY" := by decide
  have hsell : upper "SELL" ≠ "BUY" := by decide
  cases hside : order.side <;>
    simp [dealTypeOf, Dict.getD, Order.toDict, hside, OrderSide.value, hbuy, hsell]

/-- `to_dict` writes no `type`, so every order is read as a market order. -/
theorem actionOf_toDict (order : Order F) : actionOf order.toDict = .deal := by
  have hmarket : upper "MARKET" = "MARKET" := by decide
  simp [actionOf, Dict.getD, Order.toDict, hmarket]

/-- A request that carries the order's dict is a deal. -/
theorem faithful_of_carries {order : Order F} {req : TradeRequest F}
    (hquantity : Prims.le order.quantity (Prims.ofRat 0) = false)
    (h : Carries order.toDict req) : Faithful order req ↔ order.orderType = .market := by
  have haction : req.action = .deal := h.action.trans (actionOf_toDict order)
  obtain ⟨v, hv, hvolume⟩ := h.volume
  rw [volumeOf_toDict hquantity] at hv
  cases hv
  constructor
  · intro hfaithful
    exact hfaithful.deal.mp haction
  · intro hmarket
    exact ⟨h.symbol, hvolume, h.type.trans (congrArg some (dealTypeOf_toDict order)),
      by simp [haction, hmarket], by simp [haction, hmarket]⟩

/-- The requests of a submission on an MT5 connector carry the submitted order. -/
def carriesOnly (order : Order F) : Discipline (Mt5ServiceAns F) Exc Unit :=
  .only fun
    | .inl _ => True
    | .inr e => ∀ req, e.request = some req →
        Carries order.toDict req ∧ Prims.le order.quantity (Prims.ofRat 0) = false

theorem overMt5_carriesOnly (order : Order F) (approved : Bool) (e : EngineOp F)
    (hmay : (submission order).may approved e) :
    (overMt5 e).Obeys (carriesOnly order) (fun _ _ => True) () := by
  cases e with
  | executeOrder d =>
      obtain ⟨-, rfl, hquantity⟩ := hmay
      have hcarries := (executeOrder_obeys order.toDict).of_only (g := ())
        (D := (carriesOnly order).right)
        fun e he => ⟨fun req hreq => ⟨he req hreq, hquantity⟩, fun _ => rfl⟩
      exact Prog.Obeys.inr (hcarries.mono fun _ _ _ => trivial)
  | cancelOrder id => exact hmay.elim
  | getAccountInfo =>
      refine Prog.Obeys.inr (Prog.obeys_op_bind.mpr ⟨?_, fun info => ?_, fun _ => trivial⟩)
      · intro req hreq
        cases hreq
      · cases info <;> trivial
  | getPositions symbol =>
      refine Prog.Obeys.inr (Prog.obeys_op_bind.mpr ⟨?_, fun rows => trivial, fun _ => trivial⟩)
      intro req hreq
      cases hreq
  | _ => exact ⟨trivial, fun a => Prog.always_ofExcept a ()⟩

/-- The start of a service: the order's row is saved, the connector is new. -/
def sampleWorld : ServiceWorld ℚ := { orders := sampleTable }

/-- A result under ticket 7, placed and not yet dealt. -/
def placed : OrderSendResult ℚ := { retcode := 10008, order := 7, deal := 0, volume := 0 }

/-- The last request that a submission sends. -/
def submittedRequest (order : Order ℚ) : Option (TradeRequest ℚ) :=
  (serviceRequests
    (((submitOrder order).link overMt5).play (serviceAnswers placed) ⟨sampleWorld, []⟩).2.log).head?

/-- A request in the log of a played submission is one it can come to send. -/
theorem performs_submittedRequest {order : Order ℚ} {req : TradeRequest ℚ}
    (h : submittedRequest order = some req) :
    ((submitOrder order).link overMt5).Performs (.inr (.orderSend req)) := by
  have hplay := Prog.play_sound (serviceAnswers_sound placed)
    ((submitOrder order).link overMt5) ⟨sampleWorld, []⟩
  obtain ⟨ev, hev, hop⟩ := mem_serviceRequests.mp (List.mem_of_head? h)
  rw [← hop]
  exact (hplay.performs hev).resolve_left List.not_mem_nil

/-- A limit order. -/
def limitOrder : Order ℚ := { sampleOrder with orderType := .limit, price := some 1 }

/-- A limit order goes out as a deal at the market. -/
theorem submitOrder_not_always_faithful :
    ¬ ∀ (order : Order ℚ) (req : TradeRequest ℚ),
      ((submitOrder order).link overMt5).Performs (.inr (.orderSend req)) →
        Faithful order req := by
  intro hall
  have haction : (submittedRequest limitOrder).map TradeRequest.action = some .deal := by
    decide +kernel
  obtain ⟨req, hreq, hdeal⟩ := Option.map_eq_some_iff.mp haction
  have hmarket := (hall limitOrder req (performs_submittedRequest hreq)).deal.mp hdeal
  cases hmarket

/-- A request that `submit_order` comes to send is faithful to the order exactly
    when the order is a market order. -/
theorem submitOrder_faithful_iff (order : Order F) (req : TradeRequest F)
    (hreq : ((submitOrder order).link overMt5).Performs (.inr (.orderSend req))) :
    Faithful order req ↔ order.orderType = .market := by
  have hobeys : ((submitOrder order).link overMt5).Obeys (carriesOnly order)
      (fun _ _ => ∃ _ : Bool, True ∧ True) () :=
    (submitOrder_submission order).link (fun _ _ => True) trivial
      fun approved _ e _ hmay => overMt5_carriesOnly order approved e hmay
  obtain ⟨_, hmay⟩ := hobeys.reaches hreq
  obtain ⟨hcarries, hquantity⟩ := hmay req rfl
  exact faithful_of_carries hquantity hcarries

theorem submitOrder_faithful_iff_market :
    ∃ req, submittedRequest sampleOrder = some req ∧
      (Faithful sampleOrder req ↔ sampleOrder.orderType = .market) := by
  have hsent : (submittedRequest sampleOrder).isSome = true := by decide +kernel
  obtain ⟨req, hreq⟩ := Option.isSome_iff_exists.mp hsent
  exact ⟨req, hreq, submitOrder_faithful_iff sampleOrder req (performs_submittedRequest hreq)⟩

-- ============================================================================
-- Cancelled orders
-- ============================================================================

/-- No `get_order` of the repository raised. -/
def GetOrderReturns : Event (ServiceWorld F) (Mt5ServiceAns F) Exc → Prop
  | ⟨_, .inl (.repoGetOrder _), .error _⟩ => False
  | _ => True

abbrev ServiceLog (F : Type) : Type := List (Event (ServiceWorld F) (Mt5ServiceAns F) Exc)

/-- A removal of the ticket was requested, and of no other. -/
def Removes (ticket : ℤ) (log : ServiceLog F) : Prop :=
  removeRequest ticket ∈ serviceRequests log ∧
    ∀ req ∈ serviceRequests log, req.action = .remove → req.order = some ticket

/-- Bookkeeping sends nothing. -/
theorem bookkeeping_sends_nothing {R : Type} {p : EngineM F R}
    (hp : p.Always (bookkeepingOnly F)) {env : Env (ServiceWorld F) (Mt5ServiceAns F) Exc}
    {reqs : List (TradeRequest F)}
    {s : EngineTrail F}
    (hs : serviceRequests s.world.log = reqs) :
    wp (env.via overMt5) p (fun _ s' => serviceRequests s'.world.log = reqs) s := by
  exact bookkeeping_via hp (J := fun t => serviceRequests t.log = reqs)
    (fun _ _ _ _ ht _ _ => ht) hs

/-- `MT5Connector.cancel_order` reads the id as a ticket and requests its removal. -/
theorem connectorCancel_requests {W : Type} {env : Env W (Mt5Op.Ans (F := F)) Exc}
    (id : String) (w : W) :
    wp env (Connectors.cancelOrder (.str id))
      (fun _ t' => requests t'.log = ((Prims.intOfStr F id).map removeRequest).toList) ⟨w, []⟩ := by
  refine wp_ofExcept_bind.mpr ⟨fun ticket hticket => ?_, fun x hx => ?_⟩
  · have hint : Prims.intOfStr F id = some ticket := by
      simp only [Val.toInt] at hticket
      split at hticket
      next i hi =>
        cases hticket
        exact hi
      next => cases hticket
    rw [hint]
    refine wp_op_bind.mpr ⟨fun res w' _ => ?_, fun x w' _ => rfl⟩
    cases res <;> rfl
  · have hint : Prims.intOfStr F id = none := by
      simp only [Val.toInt] at hx
      split at hx
      next => cases hx
      next hi => exact hi
    rw [hint]
    rfl

omit [Prims F] in
/-- The requests of a connector call, inside the service. -/
theorem serviceRequests_inr (log : Mt5Log (ServiceWorld F) F) (l : ServiceLog F) :
    serviceRequests (log.map Event.inr ++ l) = requests log ++ serviceRequests l := by
  simp only [serviceRequests, List.filterMap_append, List.filterMap_map, requests]
  rfl

/-- The engine's cancel, through the connector, after a log without requests. -/
theorem connectorCancel_via {env : Env (ServiceWorld F) (Mt5ServiceAns F) Exc} {id : String}
    {a : Except Exc Bool} {t t' : ServiceTrail F}
    (hvia : env.via overMt5 t (.cancelOrder id) a t') (ht : serviceRequests t.log = []) :
    serviceRequests t'.log = ((Prims.intOfStr F id).map removeRequest).toList := by
  have hwp : wp env (connector (Connectors.cancelOrder (.str id)))
      (fun _ t' => serviceRequests t'.log = ((Prims.intOfStr F id).map removeRequest).toList) t :=
    wp_inr (l := t.log) (wp_mono (connectorCancel_requests id t.world) fun out s hs => by
      rw [serviceRequests_inr, hs, ht, List.append_nil])
  exact Exec.sound hvia hwp

omit [Prims F] in
theorem removeRequest_inj {ticket ticket' : ℤ} :
    (removeRequest ticket : TradeRequest F) = removeRequest ticket' ↔ ticket = ticket' := by
  simp [removeRequest]

/-- What the one request of a cancel removes. -/
theorem removes_iff {ticket : ℤ} {id : String} {log : ServiceLog F}
    (h : serviceRequests log = ((Prims.intOfStr F id).map removeRequest).toList) :
    Removes ticket log ↔ Prims.intOfStr F id = some ticket := by
  rw [Removes, h]
  cases hid : Prims.intOfStr F id with
  | none => simp
  | some ticket' =>
      simp only [Option.map_some, Option.toList_some, List.mem_singleton, removeRequest_inj,
        Option.some.injEq, forall_eq]
      constructor
      · rintro ⟨rfl, -⟩
        rfl
      · rintro rfl
        exact ⟨rfl, fun _ => rfl⟩

/-- A call on the service. -/
abbrev serviceCall (call : EngineCall F) : Mt5ServiceM F (EngineResult F) := call.prog.link overMt5

/-- An order accepted under ticket 7, stored as SUBMITTED, is cancelled without a
    request for its ticket. -/
theorem cancelOrder_not_always_removes :
    ¬ ∀ cs c w ticket,
      Serial (serviceEnv ℚ) serviceCall sampleWorld (c :: cs) w →
        c.call = .cancel "o1" → c.pre.accepted = true → c.pre.ledger "c1" = some ticket →
        c.pre.orders.statusAt "o1" = some .submitted → Removes ticket c.log := by
  intro hall
  have hrun : ∃ c older w, Serial (serviceEnv ℚ) serviceCall sampleWorld (c :: older) w ∧
      (match c.call with | .cancel id => decide (id = "o1") | _ => false) = true ∧
      c.pre.accepted = true ∧ c.pre.ledger "c1" = some 7 ∧
      c.pre.orders.statusAt "o1" = some .submitted ∧ (serviceRequests c.log).isEmpty = true :=
    exists_serial (serviceAnswers_sound placed) [.submit sampleOrder, .cancel "o1"] _
      (by decide +kernel)
  obtain ⟨c, older, w, hserial, hcall, haccepted, hticket, hstatus, hnone⟩ := hrun
  have hcancel : c.call = .cancel "o1" := by
    split at hcall
    next id hid => rw [hid, of_decide_eq_true hcall]
    next => cases hcall
  have hremoves := hall older c w 7 hserial hcancel haccepted hticket hstatus
  rw [Removes, List.isEmpty_iff.mp hnone] at hremoves
  exact absurd hremoves.1 List.not_mem_nil

/-- `cancel_order` of a stored open order requests the removal of a ticket, and of
    no other, exactly when the ticket is what its order id reads as. -/
theorem cancelOrder_removes_iff {w : ServiceWorld F} {id : String} {order : Order F}
    (hrow : w.orders id = some order.toDict) (hopen : order.status.open_ = true) (ticket : ℤ) :
    wp ((serviceEnv F).restrict GetOrderReturns) ((Execution.cancelOrder id).link overMt5)
      (fun _ t' => Removes ticket t'.log ↔ Prims.intOfStr F id = some ticket) ⟨w, []⟩ := by
  refine wp_link (wp_mono ?_ fun out s hs => removes_iff hs)
  refine wp_bind.mpr (wp_own rfl (fun data w' henv => ?_) fun x w' henv => henv.2.elim)
  obtain ⟨⟨rfl, rfl⟩, -⟩ := henv
  simp only [hrow]
  refine wp_own rfl (fun nowC w' henv => ?_) fun x w' henv => henv.1.elim
  refine wp_own rfl (fun nowU w' henv => ?_) fun x w' henv => henv.1.elim
  rw [hydrate_toDict]
  simp only [Prog.ofExcept_ok, Prog.ret_bind, wp_pure, hopen, Bool.not_true, Bool.false_eq_true,
    if_false]
  refine wp_op_bind.mpr ⟨fun ok t' hvia => ?_, fun x t' hvia => connectorCancel_via hvia rfl⟩
  have hsent := connectorCancel_via hvia rfl
  split
  next =>
    refine wp_seq (bookkeeping_sends_nothing (updateOrderStatus_bookkeeping _ _ _) hsent) ?_ ?_
    · intro _ s hs
      refine wp_seq (bookkeeping_sends_nothing (emit_bookkeeping _ _) hs) ?_ ?_
      · exact fun _ s' hs' => hs'
      · exact fun _ s' hs' => hs'
    · exact fun _ s hs => hs
  next => exact hsent

/-- A submitted order whose id is the number of its ticket. -/
def numericOrder : Order ℚ := { sampleOrder with id := "7", status := .submitted }

def numericWorld : ServiceWorld ℚ where
  orders id := if id = "7" then some numericOrder.toDict else none

theorem cancelOrder_removes_numeric :
    wp ((serviceEnv ℚ).restrict GetOrderReturns) ((Execution.cancelOrder "7").link overMt5)
      (fun _ t' => Removes 7 t'.log) ⟨numericWorld, []⟩ := by
  have hrow : numericWorld.orders "7" = some numericOrder.toDict := by
    simp [numericWorld]
  exact wp_mono (cancelOrder_removes_iff hrow rfl 7) fun _ _ h => h.mpr (by decide +kernel)

end Mtrader.Service
