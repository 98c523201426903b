/-
  Mtrader.Connectors.Mt5

  `MT5Connector` of `connectors/mt5.py`: orders, cancels, closing positions and
  the account queries, as programs over the `MetaTrader5` package and the
  connector's own `_idempotency` dict.

  Where the source asks `mt5 if mt5 else None` the query answers `none`; every
  other use of a missing package is a query that raises.
-/

import Mtrader.Coroutine.Program
import Mtrader.Connectors.Broker
import Mtrader.Risk.Rules

namespace Mtrader.Connectors

open Coroutine Py Mtrader.Execution Mtrader.Risk

-- ============================================================================
-- The MetaTrader5 package
-- ============================================================================

/-- `SYMBOL_TRADE_MODE_DISABLED` and `SYMBOL_TRADE_MODE_CLOSEONLY`. -/
def symbolTradeModeDisabled : ℤ := 0
def symbolTradeModeCloseonly : ℤ := 3

/-- What `symbol_info` answers; the optional ones are read with a default. -/
structure SymbolInfo (F : Type) where
  tradeMode : Option ℤ
  volumeMin : F
  volumeMax : F
  volumeStep : F
  tradeTickSize : Option F
  tradeStopsLevel : Option ℤ
  point : F

structure Tick (F : Type) where
  bid : F
  ask : F

structure AccountInfo (F : Type) where
  balance : F
  equity : F
  margin : F
  marginFree : F
  marginLevel : F
  profit : F
  leverage : ℤ
  currency : String

/-- `TRADE_ACTION_*`. -/
inductive TradeAction
  | deal | pending | modify | remove
  deriving DecidableEq, Repr

/-- `ORDER_TYPE_BUY`, `ORDER_TYPE_SELL`, and the position types of the same names. -/
inductive DealType
  | buy | sell
  deriving DecidableEq, Repr

/-- `ORDER_TIME_GTC`. -/
inductive OrderTime
  | gtc
  deriving DecidableEq, Repr

/-- `ORDER_FILLING_*`. -/
inductive OrderFilling
  | return_ | ioc
  deriving DecidableEq, Repr

/-- The dict handed to `order_send`; a key that is absent is `none`. -/
structure TradeRequest (F : Type) where
  action : TradeAction
  order : Option ℤ := none
  position : Option ℤ := none
  symbol : Option (Val F) := none
  volume : Option F := none
  type : Option DealType := none
  price : Option F := none
  sl : Option F := none
  tp : Option F := none
  deviation : Option ℤ := none
  magic : Option ℤ := none
  comment : Option String := none
  typeTime : Option OrderTime := none
  typeFilling : Option OrderFilling := none

/-- What `order_send` answers; `hasAsdict` as `hasattr(result, "_asdict")`. -/
structure OrderSendResult (F : Type) where
  retcode : ℤ
  order : ℤ
  deal : ℤ
  volume : F
  hasAsdict : Bool := true

/-- A row of `positions_get`. -/
structure Position (F : Type) where
  ticket : ℤ
  symbol : String
  type : DealType
  volume : F
  priceCurrent : F
  profit : F

/-- `positions_get(ticket=…)`, `positions_get(symbol=…)` or `positions_get()`. -/
inductive PositionFilter
  | ticket (t : ℤ)
  | symbol (s : String)
  | all
  deriving DecidableEq, Repr

/-- What `MT5Connector` reads, writes and calls. -/
inductive Mt5Op (F : Type)
  /-- `self._idempotency.get(client_id)` and `self._idempotency[client_id] = …`. -/
  | idempotencyGet (clientId : String)
  | idempotencySet (clientId : String) (brokerOrderId : ℤ)
  | symbolInfo (symbol : Val F)
  | symbolInfoTick (symbol : Val F)
  | symbolSelect (symbol : Val F)
  | orderCalcMargin (type : DealType) (symbol : Val F) (volume price : F)
  | accountInfo
  | positionsGet (filter : PositionFilter)
  | orderSend (req : TradeRequest F)
  | lastError

/-- What the operations answer with. -/
@[reducible] def Mt5Op.Ans {F : Type} : Mt5Op F → Type
  | .idempotencyGet _ => Option ℤ
  | .idempotencySet _ _ => Unit
  | .symbolInfo _ => Option (SymbolInfo F)
  | .symbolInfoTick _ => Option (Tick F)
  | .symbolSelect _ => Bool
  | .orderCalcMargin _ _ _ _ => Option F
  | .accountInfo => Option (AccountInfo F)
  | .positionsGet _ => Option (List (Position F))
  | .orderSend _ => Option (OrderSendResult F)
  | .lastError => String

/-- The programs of the connector. -/
abbrev Mt5M (F : Type) : Type → Type := Prog (Mt5Op.Ans (F := F)) Exc

variable {F : Type}

/-- One operation of the connector. -/
abbrev mt5 (e : Mt5Op F) : Mt5M F e.Ans := Prog.op e

-- ============================================================================
-- Return codes
-- ============================================================================

/-- The named entries of `RETCODE_MAPPING`. -/
def retcodeNames : List (ℤ × String) :=
  [(10004, "Requote"), (10006, "Request rejected"), (10007, "Request canceled by trader"),
   (10008, "Order placed"), (10009, "Order modified"), (10010, "Request accepted"),
   (10011, "System order placed"), (10012, "Order filled partially"),
   (10013, "Order filled fully"), (10014, "Order canceled"), (10015, "Order deleted"),
   (10016, "Order modified partially"), (10017, "Order rejected"),
   (10018, "Order activation triggered"), (10019, "Order placed by external system"),
   (10030, "Invalid stops"), (10031, "Invalid volume"), (10032, "Market closed"),
   (10033, "No money"), (10034, "Price changed"), (10035, "Off quotes"),
   (10036, "Broker busy"), (10039, "Too many requests"), (10041, "Trade disabled"),
   (10046, "Invalid price"), (10051, "Position closed"), (10060, "Connection lost"),
   (10069, "Trade timeout")]

/-- `RETCODE_MAPPING.get(retcode, default)`. -/
def retcodeMessage (retcode : ℤ) (default : String) : String :=
  match retcodeNames.lookup retcode with
  | some msg => msg
  | none =>
      if 10004 ≤ retcode ∧ retcode < 10070 then "MT5 retcode " ++ toString retcode else default

/-- `success_codes` of `execute_order`. -/
def successCodes : List ℤ := [10008, 10009, 10010, 10011, 10012, 10013, 10018, 10019]

/-- `result._asdict() if hasattr(result, "_asdict") else {"retcode": retcode}`. -/
def OrderSendResult.payload (r : OrderSendResult F) : ResultPayload F :=
  if r.hasAsdict then
    { retcode := some r.retcode, order := some r.order, deal := some r.deal,
      volume := some r.volume }
  else { retcode := some r.retcode }

/-- `int(payload.get("order") or payload.get("deal") or 0)`. -/
def ResultPayload.brokerOrderId (p : ResultPayload F) : ℤ :=
  if p.order.getD 0 ≠ 0 then p.order.getD 0 else p.deal.getD 0

-- ============================================================================
-- Answers
-- ============================================================================

/-- `{"ok": False, "error": msg}`. -/
def refuse (msg : String) : BrokerResponse F := { ok := false, error := some msg }

/-- The answer to an `order_send` that came back. -/
def OrderSendResult.response (r : OrderSendResult F) : BrokerResponse F where
  ok := r.retcode ∈ successCodes
  retcode := some r.retcode
  retcodeMessage := some (retcodeMessage r.retcode ("Unknown retcode " ++ toString r.retcode))
  brokerOrderId := some r.payload.brokerOrderId
  result := some r.payload

/-- The end of `execute_order`. -/
def sendOrder (clientId : String) (req : TradeRequest F) : Mt5M F (BrokerResponse F) := do
  let sent : Option (OrderSendResult F) ← mt5 (.orderSend req)
  match sent with
  | none => do
      let last ← mt5 .lastError
      return refuse ("order_send failed " ++ last)
  | some result => do
      if clientId ≠ "" ∧ result.payload.brokerOrderId ≠ 0 then
        mt5 (.idempotencySet clientId result.payload.brokerOrderId)
      return result.response

/-- The answer to an order whose client id is already recorded. -/
def duplicateResponse (brokerOrderId : ℤ) : BrokerResponse F where
  ok := true
  duplicate := some true
  brokerOrderId := some brokerOrderId

-- ============================================================================
-- close_position and the queries
-- ============================================================================

/-- `{"action": TRADE_ACTION_REMOVE, "order": ticket}`. -/
def removeRequest (ticket : ℤ) : TradeRequest F := { action := .remove, order := some ticket }

/-- `MT5Connector.close_position` with the default deviation. -/
def closePosition (positionId : ℤ) : Mt5M F (BrokerResponse F) := do
  let positions : Option (List (Position F)) ← mt5 (.positionsGet (.ticket positionId))
  match positions.getD [] with
  | [] => return refuse "position not found"
  | pos :: _ => do
      let quoted : Option (Tick F) ← mt5 (.symbolInfoTick (.str pos.symbol))
      match quoted with
      | none => .raise (.attributeError "'NoneType' object has no attribute 'bid'")
      | some tick => do
          let closeType : DealType := if pos.type = .buy then .sell else .buy
          let sent : Option (OrderSendResult F) ← mt5 (.orderSend
            { action := .deal, position := some positionId, symbol := some (.str pos.symbol),
              volume := some pos.volume, type := some closeType,
              price := some (if closeType = .sell then tick.bid else tick.ask),
              deviation := some 10, typeTime := some .gtc, typeFilling := some .ioc })
          match sent with
          | none => return refuse "close failed"
          | some res =>
              if res.hasAsdict then
                return { ok := res.retcode ∈ [(10013 : ℤ), 10012], retcode := some res.retcode,
                         retcodeMessage := some (retcodeMessage res.retcode (toString res.retcode)),
                         result := some res.payload }
              else .raise (.attributeError "object has no attribute '_asdict'")

/-- The list comprehension of `close_all_positions`. -/
def closeEach : List (Position F) → Mt5M F (List (BrokerResponse F))
  | [] => return []
  | pos :: rest => do
      let response ← closePosition pos.ticket
      let responses ← closeEach rest
      return response :: responses

/-- `MT5Connector.close_all_positions()`. -/
def closeAllPositions : Mt5M F (List (BrokerResponse F)) := do
  let rows : Option (List (Position F)) ← mt5 (.positionsGet .all)
  closeEach (rows.getD [])

/-- `MT5Connector.get_account_info`. -/
def getAccountInfo : Mt5M F (Dict AccountKey F) := do
  let info : Option (AccountInfo F) ← mt5 .accountInfo
  match info with
  | none => return Dict.empty
  | some d => return fun
      | .balance => some (.float d.balance)
      | .equity => some (.float d.equity)
      | .margin => some (.float d.margin)
      | .freeMargin => some (.float d.marginFree)
      | .marginLevel => some (.float d.marginLevel)
      | .profit => some (.float d.profit)
      | .leverage => some (.int d.leverage)
      | .currency => some (.str d.currency)

/-- `r._asdict()` of a position row, where the risk engine reads it. -/
def Position.asdict (p : Position F) : Dict PositionKey F
  | .profit => some (.float p.profit)
  | .volume => some (.float p.volume)
  | .priceCurrent => some (.float p.priceCurrent)
  | .entryPrice => none

/-- `MT5Connector.get_positions`. -/
def getPositions (symbol : String) : Mt5M F (List (Dict PositionKey F)) := do
  let rows : Option (List (Position F)) ←
    mt5 (.positionsGet (if symbol = "" then .all else .symbol symbol))
  return (rows.getD []).map Position.asdict

-- ============================================================================
-- Checks
-- ============================================================================

variable [Prims F]

/-- `_validate_symbol`, after the query: the message of a refusal or the info. -/
def validateSymbol : Option (SymbolInfo F) → Except String (SymbolInfo F)
  | none => .error "symbol not found"
  | some info =>
      if info.tradeMode.getD 0 = symbolTradeModeDisabled then
        .error "symbol trade mode disabled"
      else if info.tradeMode.getD 0 = symbolTradeModeCloseonly then
        .error "symbol is close-only"
      else .ok info

/-- `round(x)`. -/
def roundFloat (x : F) : Except Exc F :=
  match Prims.round x with
  | some i => .ok (Prims.ofRat i)
  | none => .error (.valueError "cannot convert float to integer")

/-- `abs(x - round(x)) > 1e-9`. -/
def offGrid (x : F) : Except Exc Bool := do
  return Prims.lt (Prims.ofRat (1 / 1000000000)) (Prims.abs (x - (← roundFloat x)))

/-- `_validate_volume`: `some` message refuses. -/
def validateVolume (info : SymbolInfo F) (volume : F) : Except Exc (Option String) :=
  if Prims.lt volume info.volumeMin || Prims.lt info.volumeMax volume then
    return some "volume outside range"
  else if Prims.lt (Prims.ofRat 0) info.volumeStep then do
    if ← offGrid (volume / info.volumeStep) then return some "volume step invalid"
    else return none
  else return none

/-- `float(getattr(info, "trade_tick_size", 0) or 0)`. -/
def SymbolInfo.tickSize (info : SymbolInfo F) : F :=
  match info.tradeTickSize with
  | some x => if isZero x then Prims.ofRat 0 else x
  | none => Prims.ofRat 0

/-- `_validate_price_tick`. -/
def validatePriceTick (info : SymbolInfo F) (price : F) : Except Exc (Option String) :=
  if Prims.le info.tickSize (Prims.ofRat 0) then return none
  else do
    if ← offGrid (price / info.tickSize) then return some "price not aligned to tick size"
    else return none

/-- `stop and abs(price - stop) < stops_level`. -/
def stopTooClose (stopsLevel price : F) (stop : Val F) : Except Exc Bool :=
  if stop.truthy then do
    return Prims.lt (Prims.abs (price - (← stop.number))) stopsLevel
  else return false

/-- `_validate_stops`. -/
def validateStops (info : SymbolInfo F) (price : F) (sl tp : Val F) :
    Except Exc (Option String) := do
  let stopsLevel : F := Prims.ofRat (info.tradeStopsLevel.getD 0) * info.point
  if ← stopTooClose stopsLevel price sl then return some "stop loss too close"
  else if ← stopTooClose stopsLevel price tp then return some "take profit too close"
  else return none

/-- `margin is None or not acct or float(acct.margin_free) < float(margin)`. -/
def insufficientMargin : Option F → Option (AccountInfo F) → Bool
  | some margin, some acct => Prims.lt acct.marginFree margin
  | _, _ => true

-- ============================================================================
-- execute_order
-- ============================================================================

/-- `str(order.get("client_order_id") or order.get("idempotency_key") or "")`. -/
def clientIdOf (order : OrderDict F) : String :=
  (((order.get .clientOrderId).orElse (order.get .idempotencyKey)).orElse (.str "")).toStr

/-- `str(order.get("side", "BUY")).upper() == "BUY"`, as an order type. -/
def dealTypeOf (order : OrderDict F) : DealType :=
  if upper (order.getD .side (.str "BUY")).toStr = "BUY" then .buy else .sell

/-- The action of the request, from `str(order.get("type", "MARKET")).upper()`. -/
def actionOf (order : OrderDict F) : TradeAction :=
  if upper (order.getD .type (.str "MARKET")).toStr = "MARKET" then .deal else .pending

/-- `float(order.get("volume") or order.get("quantity") or 0)`. -/
def volumeOf (order : OrderDict F) : Except Exc F :=
  (((order.get .volume).orElse (order.get .quantity)).orElse (.int 0)).toFloat

/-- `req` of `execute_order`. -/
def buildRequest (order : OrderDict F) (clientId : String) (volume price : F) :
    Except Exc (TradeRequest F) := do
  let sl ← ((order.get .stopPrice).orElse (.int 0)).toFloat
  let tp ← ((order.get .limitPrice).orElse (.int 0)).toFloat
  let deviation ← (order.getD .deviation (.int 10)).toInt
  let magic ← (order.getD .magic (.int 100001)).toInt
  let comment : Val F :=
    if clientId ≠ "" then .str clientId else order.getD .comment (.str "mtrader")
  return { action := actionOf order
           symbol := some (order.get .symbol)
           volume := some volume
           type := some (dealTypeOf order)
           price := some price
           sl := some sl
           tp := some tp
           deviation := some deviation
           magic := some magic
           comment := some (String.ofList (comment.toStr.toList.take 31))
           typeTime := some .gtc
           typeFilling := some .return_ }

/-- `execute_order` from the symbol check to the request: the message of the first
    check that fails, or the request. -/
def prepareRequest (order : OrderDict F) (clientId : String) :
    Mt5M F (Except String (TradeRequest F)) := do
  let symbol := order.get .symbol
  let volume ← Prog.ofExcept (volumeOf order)
  if !symbol.truthy || Prims.le volume (Prims.ofRat 0) then return .error "invalid order payload"
  else do
    let found : Option (SymbolInfo F) ← mt5 (.symbolInfo symbol)
    match validateSymbol found with
    | .error msg => return .error msg
    | .ok info => do
      match ← Prog.ofExcept (validateVolume info volume) with
      | some msg => return .error msg
      | none => do
        let quoted : Option (Tick F) ← mt5 (.symbolInfoTick symbol)
        match quoted with
        | none => return .error "no market tick"
        | some tick => do
          let market := if dealTypeOf order = .buy then tick.ask else tick.bid
          let price ← Prog.ofExcept ((order.get .price).orElse (.float market)).toFloat
          match ← Prog.ofExcept (validatePriceTick info price) with
          | some msg => return .error msg
          | none => do
            match ← Prog.ofExcept
                (validateStops info price (order.get .stopPrice) (order.get .limitPrice)) with
            | some msg => return .error msg
            | none => do
              let selected : Bool ← mt5 (.symbolSelect symbol)
              if !selected then return .error "symbol select failed"
              else do
                let margin : Option F ←
                  mt5 (.orderCalcMargin (dealTypeOf order) symbol volume price)
                let acct : Option (AccountInfo F) ← mt5 .accountInfo
                if insufficientMargin margin acct then return .error "insufficient margin"
                else do
                  let req ← Prog.ofExcept (buildRequest order clientId volume price)
                  return .ok req

/-- `execute_order` past its duplicate check. -/
def placeOrder (order : OrderDict F) (clientId : String) : Mt5M F (BrokerResponse F) := do
  match ← prepareRequest order clientId with
  | .error msg => return refuse msg
  | .ok req => sendOrder clientId req

/-- `MT5Connector.execute_order`. -/
def executeOrder (order : OrderDict F) : Mt5M F (BrokerResponse F) := do
  let clientId := clientIdOf order
  if clientId ≠ "" then do
    let known : Option ℤ ← mt5 (.idempotencyGet clientId)
    match known with
    | some brokerOrderId => return duplicateResponse brokerOrderId
    | none => placeOrder order clientId
  else placeOrder order clientId

/-- `MT5Connector.cancel_order`. -/
def cancelOrder (orderId : Val F) : Mt5M F Bool := do
  let ticket ← Prog.ofExcept orderId.toInt
  let res : Option (OrderSendResult F) ← mt5 (.orderSend (removeRequest ticket))
  match res with
  | none => return false
  | some res => return decide (res.retcode ∈ [(10014 : ℤ), 10015])

end Mtrader.Connectors
