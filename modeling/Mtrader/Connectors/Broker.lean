/-
  Mtrader.Connectors.Broker

  What the broker connector answers: the response dicts of `connectors/mt5.py`
  as records, a key that is absent being `none`.
-/

import Mtrader.Py.Value

namespace Mtrader.Connectors

open Py

/-- `result._asdict()` of an `order_send`, or `{"retcode": retcode}` where the
    result has no `_asdict`. -/
structure ResultPayload (F : Type) where
  retcode : Option ℤ := none
  order : Option ℤ := none
  deal : Option ℤ := none
  volume : Option F := none

/-- The dict that `execute_order`, `modify_order` and `close_position` return. -/
structure BrokerResponse (F : Type) where
  ok : Bool
  error : Option String := none
  duplicate : Option Bool := none
  retcode : Option ℤ := none
  retcodeMessage : Option String := none
  brokerOrderId : Option ℤ := none
  result : Option (ResultPayload F) := none

end Mtrader.Connectors
