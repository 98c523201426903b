/-
  Mtrader.Connectors.ExecuteOrder

  What `MT5Connector.execute_order` asks of the terminal and in which order: the
  checks only query it, and the request they let through carries the order.
-/

import Mtrader.Connectors.Mt5
import Mtrader.Coroutine.Discipline

namespace Mtrader.Connectors

open Coroutine Py Mtrader.Execution

variable {F : Type} [Prims F]

/-- An operation that neither sends a request nor touches `_idempotency`. -/
def Mt5Op.query : Mt5Op F → Bool
  | .idempotencyGet _ | .idempotencySet _ _ | .orderSend _ => false
  | _ => true

/-- The request has the symbol, the volume and the side of the order dict, and the
    action that `execute_order` reads off it. -/
structure Carries (order : OrderDict F) (req : TradeRequest F) : Prop where
  symbol : req.symbol = some (order.get .symbol)
  volume : ∃ v, volumeOf order = .ok v ∧ req.volume = some v
  type : req.type = some (dealTypeOf order)
  action : req.action = actionOf order

theorem buildRequest_carries {order : OrderDict F} {clientId : String} {volume price : F}
    {req : TradeRequest F} (hvolume : volumeOf order = .ok volume)
    (h : buildRequest order clientId volume price = .ok req) : Carries order req := by
  simp only [buildRequest, bind_eq_ok] at h
  obtain ⟨sl, -, tp, -, deviation, -, magic, -, hreq⟩ := h
  simp only [pure, Except.pure, Except.ok.injEq] at hreq
  subst hreq
  exact ⟨rfl, ⟨volume, hvolume, rfl⟩, rfl, rfl⟩

/-- The outcome of the checks: a request carries the order; a refusal or an
    exception has none. -/
def Prepared (order : OrderDict F) (out : Except Exc (Except String (TradeRequest F))) : Prop :=
  ∀ req, out = .ok (.ok req) → Carries order req

theorem Prepared.refused {order : OrderDict F} {msg : String} :
    Prepared order (.ok (.error msg)) := by
  intro req h
  cases h

theorem Prepared.raised {order : OrderDict F} {x : Exc} : Prepared order (.error x) := by
  intro req h
  cases h

/-- The checks of `execute_order` only query the terminal, and the request they
    let through carries the order. -/
theorem prepareRequest_obeys (order : OrderDict F) (clientId : String) :
    (prepareRequest order clientId).Obeys (.only fun e => e.query = true)
      (fun out _ => Prepared order out) () := by
  unfold prepareRequest
  refine Prog.obeys_ofExcept_bind.mpr ⟨fun volume hvolume => ?_, fun _ _ => .raised⟩
  split
  next => exact .refused
  next =>
  refine Prog.obeys_op_bind.mpr ⟨rfl, fun found => ?_, fun _ => .raised⟩
  cases validateSymbol found with
  | error msg => exact .refused
  | ok info =>
  refine Prog.obeys_ofExcept_bind.mpr ⟨fun badVolume _ => ?_, fun _ _ => .raised⟩
  cases badVolume with
  | some msg => exact .refused
  | none =>
  refine Prog.obeys_op_bind.mpr ⟨rfl, fun quoted => ?_, fun _ => .raised⟩
  cases quoted with
  | none => exact .refused
  | some tick =>
  refine Prog.obeys_ofExcept_bind.mpr ⟨fun price _ => ?_, fun _ _ => .raised⟩
  refine Prog.obeys_ofExcept_bind.mpr ⟨fun offTick _ => ?_, fun _ _ => .raised⟩
  cases offTick with
  | some msg => exact .refused
  | none =>
  refine Prog.obeys_ofExcept_bind.mpr ⟨fun badStops _ => ?_, fun _ _ => .raised⟩
  cases badStops with
  | some msg => exact .refused
  | none =>
  refine Prog.obeys_op_bind.mpr ⟨rfl, fun selected => ?_, fun _ => .raised⟩
  split
  next => exact .refused
  next =>
  refine Prog.obeys_op_bind.mpr ⟨rfl, fun margin => ?_, fun _ => .raised⟩
  refine Prog.obeys_op_bind.mpr ⟨rfl, fun acct => ?_, fun _ => .raised⟩
  split
  next => exact .refused
  next =>
  refine Prog.obeys_ofExcept_bind.mpr ⟨fun req hreq => ?_, fun _ _ => .raised⟩
  intro req' h
  cases h
  exact buildRequest_carries hvolume hreq

/-- The request that an operation sends. -/
def Mt5Op.request : Mt5Op F → Option (TradeRequest F)
  | .orderSend req => some req
  | _ => none

/-- An operation that sends nothing but requests carrying the order. -/
def SendsOnly (order : OrderDict F) (e : Mt5Op F) : Prop :=
  ∀ req, e.request = some req → Carries order req

theorem sendsOnly_of_none {order : OrderDict F} {e : Mt5Op F} (h : e.request = none) :
    SendsOnly order e := by
  intro req hreq
  rw [h] at hreq
  cases hreq

omit [Prims F] in
theorem request_of_query {e : Mt5Op F} (h : e.query = true) : e.request = none := by
  cases e with
  | orderSend req => cases h
  | _ => rfl

theorem sendOrder_obeys {order : OrderDict F} {req : TradeRequest F} (clientId : String)
    (h : Carries order req) :
    (sendOrder clientId req).Obeys (.only (SendsOnly order)) (fun _ _ => True) () := by
  refine Prog.obeys_op_bind.mpr ⟨?_, fun sent => ?_, fun _ => trivial⟩
  · intro req' heq
    cases heq
    exact h
  cases sent with
  | none => exact Prog.obeys_op_bind.mpr ⟨sendsOnly_of_none rfl, fun _ => trivial, fun _ => trivial⟩
  | some result =>
      simp only
      split
      next =>
        exact Prog.obeys_op_bind.mpr ⟨sendsOnly_of_none rfl, fun _ => trivial, fun _ => trivial⟩
      next => trivial

theorem placeOrder_obeys (order : OrderDict F) (clientId : String) :
    (placeOrder order clientId).Obeys (.only (SendsOnly order)) (fun _ _ => True) () := by
  have hprepare := (prepareRequest_obeys order clientId).of_only (g := ())
    (D := .only (SendsOnly order))
    fun e he => ⟨sendsOnly_of_none (request_of_query he), fun _ => rfl⟩
  refine hprepare.seq (fun prepared _ hprepared => ?_) fun _ _ _ => trivial
  cases prepared with
  | error msg => trivial
  | ok req => exact sendOrder_obeys clientId (hprepared.2 req rfl)

/-- Every request that `execute_order` sends carries the order. -/
theorem executeOrder_obeys (order : OrderDict F) :
    (executeOrder order).Obeys (.only (SendsOnly order)) (fun _ _ => True) () := by
  unfold executeOrder
  simp only
  split
  next =>
    refine Prog.obeys_op_bind.mpr ⟨sendsOnly_of_none rfl, fun known => ?_, fun _ => trivial⟩
    cases known with
    | some brokerOrderId => trivial
    | none => exact placeOrder_obeys order _
  next => exact placeOrder_obeys order _

end Mtrader.Connectors
