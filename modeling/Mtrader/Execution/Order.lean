/-
  Mtrader.Execution.Order

  The order record of `execution/engine.py`: its enumerations, `to_dict`,
  `_hydrate` and the `setattr` loop of `update_order_status`.

  `to_dict` writes enumerations as their names and datetimes as ISO text, and
  `_hydrate` reads such a row back.  A row value of another type than the
  dataclass declares is answered with a `typeError`; Python would carry it along.
-/

import Mtrader.Py.Value

namespace Mtrader.Execution

open Py

inductive OrderStatus
  | pending | validated | submitted | partial_ | filled | rejected | canceled | expired
  deriving DecidableEq, Repr

inductive OrderSide
  | buy | sell
  deriving DecidableEq, Repr

inductive OrderType
  | market | limit | stop | stopLimit
  deriving DecidableEq, Repr

/-- `OrderStatus.value`. -/
def OrderStatus.value : OrderStatus → String
  | .pending => "PENDING"
  | .validated => "VALIDATED"
  | .submitted => "SUBMITTED"
  | .partial_ => "PARTIAL"
  | .filled => "FILLED"
  | .rejected => "REJECTED"
  | .canceled => "CANCELED"
  | .expired => "EXPIRED"

/-- `OrderStatus(s)`. -/
def OrderStatus.ofValue : String → Option OrderStatus
  | "PENDING" => some .pending
  | "VALIDATED" => some .validated
  | "SUBMITTED" => some .submitted
  | "PARTIAL" => some .partial_
  | "FILLED" => some .filled
  | "REJECTED" => some .rejected
  | "CANCELED" => some .canceled
  | "EXPIRED" => some .expired
  | _ => none

/-- `OrderSide.value`. -/
def OrderSide.value : OrderSide → String
  | .buy => "BUY"
  | .sell => "SELL"

/-- `OrderSide(s)`. -/
def OrderSide.ofValue : String → Option OrderSide
  | "BUY" => some .buy
  | "SELL" => some .sell
  | _ => none

/-- `OrderType.value`. -/
def OrderType.value : OrderType → String
  | .market => "MARKET"
  | .limit => "LIMIT"
  | .stop => "STOP"
  | .stopLimit => "STOP_LIMIT"

/-- `OrderType(s)`. -/
def OrderType.ofValue : String → Option OrderType
  | "MARKET" => some .market
  | "LIMIT" => some .limit
  | "STOP" => some .stop
  | "STOP_LIMIT" => some .stopLimit
  | _ => none

@[simp] theorem OrderStatus.ofValue_value (s : OrderStatus) : ofValue s.value = some s := by
  cases s <;> rfl

@[simp] theorem OrderSide.ofValue_value (s : OrderSide) : ofValue s.value = some s := by
  cases s <;> rfl

@[simp] theorem OrderType.ofValue_value (t : OrderType) : ofValue t.value = some t := by
  cases t <;> rfl

/-- The dataclass `Order`. -/
structure Order (F : Type) where
  id : String
  clientOrderId : String
  accountId : String
  strategyId : Option String
  modelId : Option String
  symbol : String
  side : OrderSide
  orderType : OrderType
  quantity : F
  filledQuantity : F
  price : Option F
  stopPrice : Option F
  limitPrice : Option F
  status : OrderStatus
  rejectionReason : Option String
  commission : F
  swap : F
  profit : F
  openedAt : Option Time
  closedAt : Option Time
  createdAt : Time
  updatedAt : Time

variable {F : Type}

-- ============================================================================
-- to_dict
-- ============================================================================

/-- An optional text as a dict value. -/
def optStr : Option String → Val F
  | some s => .str s
  | none => .none

/-- An optional float as a dict value. -/
def optFloat : Option F → Val F
  | some x => .float x
  | none => .none

/-- An optional datetime after the `isoformat` loop of `to_dict`. -/
def optIso : Option Time → Val F
  | some t => .iso t
  | none => .none

/-- The keys of an order dict: those `to_dict` writes, and those
    `MT5Connector.execute_order` reads besides. -/
inductive OrderKey
  | id | clientOrderId | accountId | strategyId | modelId | symbol | side | orderType
  | quantity | filledQuantity | price | stopPrice | limitPrice | status
  | rejectionReason | commission | swap | profit | openedAt | closedAt | createdAt
  | updatedAt
  | idempotencyKey | volume | type | deviation | magic | comment
  deriving DecidableEq, Repr

instance : DictKey OrderKey where
  name
    | .id => "id"
    | .clientOrderId => "client_order_id"
    | .accountId => "account_id"
    | .strategyId => "strategy_id"
    | .modelId => "model_id"
    | .symbol => "symbol"
    | .side => "side"
    | .orderType => "order_type"
    | .quantity => "quantity"
    | .filledQuantity => "filled_quantity"
    | .price => "price"
    | .stopPrice => "stop_price"
    | .limitPrice => "limit_price"
    | .status => "status"
    | .rejectionReason => "rejection_reason"
    | .commission => "commission"
    | .swap => "swap"
    | .profit => "profit"
    | .openedAt => "opened_at"
    | .closedAt => "closed_at"
    | .createdAt => "created_at"
    | .updatedAt => "updated_at"
    | .idempotencyKey => "idempotency_key"
    | .volume => "volume"
    | .type => "type"
    | .deviation => "deviation"
    | .magic => "magic"
    | .comment => "comment"

/-- A row of the orders table, or an order on its way to the connector. -/
abbrev OrderDict (F : Type) : Type := Dict OrderKey F

/-- `Order.to_dict`. -/
def Order.toDict (o : Order F) : OrderDict F
  | .id => some (.str o.id)
  | .clientOrderId => some (.str o.clientOrderId)
  | .accountId => some (.str o.accountId)
  | .strategyId => some (optStr o.strategyId)
  | .modelId => some (optStr o.modelId)
  | .symbol => some (.str o.symbol)
  | .side => some (.str o.side.value)
  | .orderType => some (.str o.orderType.value)
  | .quantity => some (.float o.quantity)
  | .filledQuantity => some (.float o.filledQuantity)
  | .price => some (optFloat o.price)
  | .stopPrice => some (optFloat o.stopPrice)
  | .limitPrice => some (optFloat o.limitPrice)
  | .status => some (.str o.status.value)
  | .rejectionReason => some (optStr o.rejectionReason)
  | .commission => some (.float o.commission)
  | .swap => some (.float o.swap)
  | .profit => some (.float o.profit)
  | .openedAt => some (optIso o.openedAt)
  | .closedAt => some (optIso o.closedAt)
  | .createdAt => some (.iso o.createdAt)
  | .updatedAt => some (.iso o.updatedAt)
  | .idempotencyKey | .volume | .type | .deviation | .magic | .comment => none

/-- The status of a row, when `OrderStatus` has it. -/
def statusOf (data : OrderDict F) : Option OrderStatus :=
  match data .status with
  | some (.str s) => OrderStatus.ofValue s
  | _ => none

@[simp] theorem statusOf_toDict (o : Order F) : statusOf o.toDict = some o.status := by
  simp [statusOf, Order.toDict]

-- ============================================================================
-- _hydrate
-- ============================================================================

/-- A value the dataclass declares as `str`. -/
def asStr : Val F → Except Exc String
  | .str s => .ok s
  | _ => .error (.typeError "expected str")

/-- A value the dataclass declares as `Optional[str]`. -/
def asOptStr : Val F → Except Exc (Option String)
  | .str s => .ok (some s)
  | .none => .ok none
  | _ => .error (.typeError "expected str or None")

/-- A value the dataclass declares as `Optional[float]`. -/
def asOptFloat : Val F → Except Exc (Option F)
  | .float x => .ok (some x)
  | .none => .ok none
  | _ => .error (.typeError "expected float or None")

/-- An enumeration member by its value. -/
def asEnum {α : Type} (ofValue : String → Option α) (name : String) :
    Val F → Except Exc α
  | .str s =>
      match ofValue s with
      | some a => .ok a
      | none => .error (.valueError (s ++ " is not a valid " ++ name))
  | _ => .error (.valueError ("not a valid " ++ name))

theorem asEnum_eq_ok {α : Type} {ofValue : String → Option α} {name : String} {v : Val F}
    {a : α} (h : asEnum ofValue name v = .ok a) : ∃ s, v = .str s ∧ ofValue s = some a := by
  cases v with
  | str s =>
      simp only [asEnum] at h
      split at h
      next b hb =>
        cases h
        exact ⟨s, rfl, hb⟩
      next => cases h
  | _ => cases h

/-- `datetime.fromisoformat(v)`. -/
def fromisoformat : Val F → Except Exc Time
  | .iso t => .ok t
  | .str s => .error (.valueError ("Invalid isoformat string: " ++ s))
  | _ => .error (.typeError "fromisoformat: argument must be str")

@[simp] theorem asOptStr_optStr (s : Option String) : asOptStr (optStr s : Val F) = .ok s := by
  cases s <;> rfl

@[simp] theorem asOptFloat_optFloat (x : Option F) : asOptFloat (optFloat x) = .ok x := by
  cases x <;> rfl

variable [Prims F]

/-- `datetime.fromisoformat(data[k]) if data.get(k) else None`. -/
def optStamp (data : OrderDict F) (k : OrderKey) : Except Exc (Option Time) :=
  if (data.get k).truthy then
    match fromisoformat (data.get k) with
    | .ok t => .ok (some t)
    | .error x => .error x
  else .ok none

/-- `created_at` and `updated_at`: ISO text is parsed, a datetime is kept, and a
    missing key reads the clock. -/
def stamp (now : Time) (data : OrderDict F) (k : OrderKey) : Except Exc Time :=
  match data k with
  | some (.datetime t) => .ok t
  | some (.iso t) => fromisoformat (F := F) (.iso t)
  | some (.str s) => fromisoformat (F := F) (.str s)
  | some _ => .error (.typeError "expected datetime")
  | none => .ok now

/-- `ExecutionEngine._hydrate`; `nowC` and `nowU` are the clock readings of the
    `created_at` and `updated_at` defaults. -/
def hydrate (nowC nowU : Time) (data : OrderDict F) : Except Exc (Order F) := do
  let id ← data.item .id >>= asStr
  let clientOrderId ← asStr (data.getD .clientOrderId (.str id))
  let accountId ← data.item .accountId >>= asStr
  let strategyId ← asOptStr (data.get .strategyId)
  let modelId ← asOptStr (data.get .modelId)
  let symbol ← data.item .symbol >>= asStr
  let side ← data.item .side >>= asEnum OrderSide.ofValue "OrderSide"
  let orderType ← data.item .orderType >>= asEnum OrderType.ofValue "OrderType"
  let quantity ← data.item .quantity >>= Val.toFloat
  let filledQuantity ← (data.getD .filledQuantity (.int 0)).toFloat
  let price ← asOptFloat (data.get .price)
  let stopPrice ← asOptFloat (data.get .stopPrice)
  let limitPrice ← asOptFloat (data.get .limitPrice)
  let status ← data.item .status >>= asEnum OrderStatus.ofValue "OrderStatus"
  let rejectionReason ← asOptStr (data.get .rejectionReason)
  let commission ← (data.getD .commission (.int 0)).toFloat
  let swap ← (data.getD .swap (.int 0)).toFloat
  let profit ← (data.getD .profit (.int 0)).toFloat
  let openedAt ← optStamp data .openedAt
  let closedAt ← optStamp data .closedAt
  let createdAt ← stamp nowC data .createdAt
  let updatedAt ← stamp nowU data .updatedAt
  return { id, clientOrderId, accountId, strategyId, modelId, symbol, side, orderType,
           quantity, filledQuantity, price, stopPrice, limitPrice, status,
           rejectionReason, commission, swap, profit, openedAt, closedAt, createdAt,
           updatedAt }

/-- An `isoformat` row entry is read back by `optStamp`. -/
theorem optStamp_optIso {data : OrderDict F} {k : OrderKey} {t : Option Time}
    (h : data k = some (optIso t)) : optStamp data k = .ok t := by
  cases t <;> simp [optStamp, Dict.get, h, optIso, Val.truthy, fromisoformat]

/-- Reading back what `to_dict` wrote gives the order, whatever the clock says. -/
theorem hydrate_toDict (nowC nowU : Time) (o : Order F) :
    hydrate nowC nowU o.toDict = .ok o := by
  have hopened : optStamp o.toDict .openedAt = .ok o.openedAt := optStamp_optIso rfl
  have hclosed : optStamp o.toDict .closedAt = .ok o.closedAt := optStamp_optIso rfl
  have hcreated : stamp nowC o.toDict .createdAt = .ok o.createdAt := rfl
  have hupdated : stamp nowU o.toDict .updatedAt = .ok o.updatedAt := rfl
  simp only [hydrate, hopened, hclosed, hcreated, hupdated]
  simp [Dict.item, Dict.get, Dict.getD, Order.toDict, asStr, asEnum, bind, Except.bind,
    pure, Except.pure]

/-- What a hydrated order's id and status are read from. -/
theorem hydrate_reads {nowC nowU : Time} {data : OrderDict F} {o : Order F}
    (h : hydrate nowC nowU data = .ok o) :
    (∃ v, data .id = some v ∧ asStr v = .ok o.id) ∧
      ∃ v, data .status = some v ∧ asEnum OrderStatus.ofValue "OrderStatus" v = .ok o.status := by
  simp only [hydrate, bind_eq_ok] at h
  -- twelve fields are read between `id` and `status` and eight after it
  obtain ⟨id, ⟨v, hid, hstr⟩, _, -, _, -, _, -, _, -, _, -, _, -, _, -, _, -, _, -, _, -, _, -,
    _, -, status, ⟨v', hstatus, henum⟩, _, -, _, -, _, -, _, -, _, -, _, -, _, -, _, -, ho⟩ := h
  cases ho
  exact ⟨⟨v, Dict.item_eq_ok hid, hstr⟩, v', Dict.item_eq_ok hstatus, henum⟩

/-- A hydrated order has the status its row has. -/
theorem statusOf_of_hydrate {nowC nowU : Time} {data : OrderDict F} {o : Order F}
    (h : hydrate nowC nowU data = .ok o) : statusOf data = some o.status := by
  obtain ⟨v, hitem, henum⟩ := (hydrate_reads h).2
  obtain ⟨s, rfl, hs⟩ := asEnum_eq_ok henum
  simp only [statusOf, hitem, hs]

/-- A hydrated order has the id its row has. -/
theorem idOf_of_hydrate {nowC nowU : Time} {data : OrderDict F} {o : Order F}
    (h : hydrate nowC nowU data = .ok o) : data .id = some (.str o.id) := by
  obtain ⟨v, hitem, hstr⟩ := (hydrate_reads h).1
  cases v with
  | str s =>
      cases hstr
      exact hitem
  | _ => cases hstr

end Mtrader.Execution
