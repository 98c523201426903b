/-
  Mtrader.Connectors.Safety

  What a request that `execute_order` sends has passed, in exact arithmetic.

  The checks read the order dict and the terminal, and the request is built from the
  same numbers they have seen.  So an order that fails one of them is answered before
  anything is sent or recorded.
-/

import Mtrader.Connectors.Idempotency
import Mtrader.Py.Exact

namespace Mtrader.Connectors

open Coroutine Py Mtrader.Execution

-- ============================================================================
-- The broker's state
-- ============================================================================

/-- What the terminal knows when it is asked. -/
structure BrokerState (F : Type) where
  symbolInfo : Val F → Option (SymbolInfo F)
  symbolInfoTick : Val F → Option (Tick F)
  symbolSelect : Val F → Bool
  orderCalcMargin : DealType → Val F → F → F → Option F
  accountInfo : Option (AccountInfo F)

/-- A connector with an `_idempotency` dict on a terminal in a state: the queries answer
    from it, and a request may have any answer or raise. -/
def brokerEnv {F : Type} (b : BrokerState F) : Env Ledger (Mt5Op.Ans (F := F)) Exc :=
  fun ledger e a ledger' =>
    match e, a with
    | .idempotencyGet id, a => a = .ok (ledger id) ∧ ledger' = ledger
    | .idempotencySet id ticket, a =>
        a = .ok () ∧ ledger' = Function.update ledger id (some ticket)
    | .symbolInfo symbol, a => a = .ok (b.symbolInfo symbol) ∧ ledger' = ledger
    | .symbolInfoTick symbol, a => a = .ok (b.symbolInfoTick symbol) ∧ ledger' = ledger
    | .symbolSelect symbol, a => a = .ok (b.symbolSelect symbol) ∧ ledger' = ledger
    | .orderCalcMargin type symbol volume price, a =>
        a = .ok (b.orderCalcMargin type symbol volume price) ∧ ledger' = ledger
    | .accountInfo, a => a = .ok b.accountInfo ∧ ledger' = ledger
    | _, _ => ledger' = ledger

-- ============================================================================
-- Numbers in the order dict
-- ============================================================================

/-- A number, or `None`. -/
def IsNumeric (v : Val ℚ) : Prop := v = .none ∨ ∃ x, v.number = .ok x

/-- The number a value stands for; 0 for `None`. -/
def numberOr0 (v : Val ℚ) : ℚ :=
  match v.number with
  | .ok x => x
  | .error _ => 0

theorem numberOr0_of_number {v : Val ℚ} {x : ℚ} (h : v.number = .ok x) : numberOr0 v = x := by
  rw [numberOr0, h]

/-- A number counts as true when it is not 0. -/
theorem IsNumeric.truthy {v : Val ℚ} (h : IsNumeric v) : v.truthy = decide (numberOr0 v ≠ 0) := by
  rcases h with rfl | ⟨x, hx⟩
  · rfl
  · rw [numberOr0_of_number hx]
    cases v with
    | bool b =>
        obtain rfl : (if b then 1 else 0 : ℚ) = x := Except.ok.inj hx
        cases b <;> rfl
    | int i =>
        obtain rfl : (i : ℚ) = x := Except.ok.inj hx
        by_cases hi : i = 0 <;> simp [Val.truthy, hi]
    | float y =>
        obtain rfl : y = x := Except.ok.inj hx
        simp [Val.truthy]
    | _ => cases hx

theorem IsNumeric.number {v : Val ℚ} (h : IsNumeric v) (htrue : v.truthy = true) :
    v.number = .ok (numberOr0 v) := by
  rcases h with rfl | ⟨x, hx⟩
  · cases htrue
  · rw [numberOr0_of_number hx, hx]

theorem toFloat_of_number {v : Val ℚ} {x : ℚ} (h : v.number = .ok x) : v.toFloat = .ok x := by
  cases v with
  | str s => cases h
  | iso t => cases h
  | _ => exact h

/-- `float(v or 0)`. -/
theorem IsNumeric.toFloat_orElse {v : Val ℚ} (h : IsNumeric v) :
    (v.orElse (.int 0)).toFloat = .ok (numberOr0 v) := by
  by_cases htrue : v.truthy = true
  · rw [Val.orElse, if_pos htrue]
    exact toFloat_of_number (h.number htrue)
  · have hzero : numberOr0 v = 0 := by simpa [h.truthy] using htrue
    rw [Val.orElse, if_neg htrue, hzero]
    rfl

/-- The volume, the price and the stops of an order dict are numbers or `None`. -/
structure NumericOrder (order : OrderDict ℚ) : Prop where
  volume : IsNumeric (order.get .volume)
  quantity : IsNumeric (order.get .quantity)
  price : IsNumeric (order.get .price)
  stopPrice : IsNumeric (order.get .stopPrice)
  limitPrice : IsNumeric (order.get .limitPrice)

/-- The volume that a numeric order asks for: `volume`, or `quantity` where that is 0 or
    missing. -/
def requestedVolume (order : OrderDict ℚ) : ℚ :=
  if numberOr0 (order.get .volume) ≠ 0 then numberOr0 (order.get .volume)
  else numberOr0 (order.get .quantity)

/-- The price that a numeric order asks for: its own, or the market's where that is 0 or
    missing. -/
def requestedPrice (b : BrokerState ℚ) (order : OrderDict ℚ) : Option ℚ :=
  if numberOr0 (order.get .price) ≠ 0 then some (numberOr0 (order.get .price))
  else (b.symbolInfoTick (order.get .symbol)).map fun tick =>
    if dealTypeOf order = .buy then tick.ask else tick.bid

theorem NumericOrder.volumeOf {order : OrderDict ℚ} (h : NumericOrder order) :
    volumeOf order = .ok (requestedVolume order) := by
  unfold Connectors.volumeOf requestedVolume
  by_cases hvolume : (order.get .volume).truthy = true
  · have hne : numberOr0 (order.get .volume) ≠ 0 := by simpa [h.volume.truthy] using hvolume
    have hself : ((order.get .volume).orElse (order.get .quantity)) = order.get .volume := by
      rw [Val.orElse, if_pos hvolume]
    rw [hself, if_pos hne]
    exact h.volume.toFloat_orElse
  · have heq : ¬ numberOr0 (order.get .volume) ≠ 0 := by simpa [h.volume.truthy] using hvolume
    have hother : ((order.get .volume).orElse (order.get .quantity)) = order.get .quantity := by
      rw [Val.orElse, if_neg hvolume]
    rw [hother, if_neg heq]
    exact h.quantity.toFloat_orElse

/-- The price of an order, read where there is a tick. -/
theorem NumericOrder.priceOf {order : OrderDict ℚ} (h : NumericOrder order) {b : BrokerState ℚ}
    {tick : Tick ℚ} (htick : b.symbolInfoTick (order.get .symbol) = some tick) :
    ∃ p, requestedPrice b order = some p ∧
      ((order.get .price).orElse
        (.float (if dealTypeOf order = .buy then tick.ask else tick.bid))).toFloat = .ok p := by
  unfold requestedPrice
  by_cases hprice : (order.get .price).truthy = true
  · have hne : numberOr0 (order.get .price) ≠ 0 := by simpa [h.price.truthy] using hprice
    refine ⟨_, if_pos hne, ?_⟩
    rw [Val.orElse, if_pos hprice]
    exact toFloat_of_number (h.price.number hprice)
  · have heq : ¬ numberOr0 (order.get .price) ≠ 0 := by simpa [h.price.truthy] using hprice
    rw [if_neg heq, htick]
    refine ⟨_, rfl, ?_⟩
    rw [Val.orElse, if_neg hprice]
    rfl

-- ============================================================================
-- The checks
-- ============================================================================

/-- Within `1e-9` of an integer. -/
def NearInteger (q : ℚ) : Prop := ∃ k : ℤ, |q - k| ≤ 1 / 1000000000

/-- Everything the checks ask of a volume, a price and stops. -/
structure Admissible (b : BrokerState ℚ) (order : OrderDict ℚ) (volume price sl tp : ℚ) :
    Prop where
  info : ∃ info, b.symbolInfo (order.get .symbol) = some info ∧
    info.tradeMode.getD 0 ≠ symbolTradeModeDisabled ∧
    info.tradeMode.getD 0 ≠ symbolTradeModeCloseonly ∧
    info.volumeMin ≤ volume ∧ volume ≤ info.volumeMax ∧
    (0 < info.volumeStep → NearInteger (volume / info.volumeStep)) ∧
    (0 < info.tickSize → NearInteger (price / info.tickSize)) ∧
    (sl ≠ 0 → (info.tradeStopsLevel.getD 0 : ℚ) * info.point ≤ |price - sl|) ∧
    (tp ≠ 0 → (info.tradeStopsLevel.getD 0 : ℚ) * info.point ≤ |price - tp|)
  positive : 0 < volume
  margin : ∃ margin acct, b.orderCalcMargin (dealTypeOf order) (order.get .symbol) volume price
    = some margin ∧ b.accountInfo = some acct ∧ margin ≤ acct.marginFree

theorem validateSymbol_ok {found : Option (SymbolInfo ℚ)} {info : SymbolInfo ℚ} :
    validateSymbol found = .ok info ↔ found = some info ∧
      info.tradeMode.getD 0 ≠ symbolTradeModeDisabled ∧
      info.tradeMode.getD 0 ≠ symbolTradeModeCloseonly := by
  cases found with
  | none => simp [validateSymbol]
  | some info' =>
      unfold validateSymbol
      simp only
      split_ifs with hdisabled hclose
      · constructor
        · intro h
          cases h
        · rintro ⟨h, hne, -⟩
          cases h
          exact absurd hdisabled hne
      · constructor
        · intro h
          cases h
        · rintro ⟨h, -, hne⟩
          cases h
          exact absurd hclose hne
      · constructor
        · intro h
          cases h
          exact ⟨rfl, hdisabled, hclose⟩
        · rintro ⟨h, -, -⟩
          cases h
          rfl

theorem offGrid_rat (q : ℚ) :
    ∃ off, offGrid q = .ok off ∧ (off = false → NearInteger q) := by
  refine ⟨_, rfl, fun hoff => ⟨roundHalfEven q, ?_⟩⟩
  simpa using hoff

/-- A check on a volume always answers, and its silence is what is asked for. -/
theorem validateVolume_rat (info : SymbolInfo ℚ) (volume : ℚ) :
    ∃ msg, validateVolume info volume = .ok msg ∧
      (msg = none → info.volumeMin ≤ volume ∧ volume ≤ info.volumeMax ∧
        (0 < info.volumeStep → NearInteger (volume / info.volumeStep))) := by
  unfold validateVolume
  split
  next hout => exact ⟨_, rfl, fun h => by cases h⟩
  next hin =>
    have hrange : info.volumeMin ≤ volume ∧ volume ≤ info.volumeMax := by simpa using hin
    split
    next hstep =>
      obtain ⟨off, hoff, hnear⟩ := offGrid_rat (volume / info.volumeStep)
      rw [hoff]
      cases off with
      | true => exact ⟨_, rfl, fun h => by cases h⟩
      | false => exact ⟨_, rfl, fun _ => ⟨hrange.1, hrange.2, fun _ => hnear rfl⟩⟩
    next hstep =>
      have hstep : ¬ 0 < info.volumeStep := by simpa using hstep
      exact ⟨_, rfl, fun _ => ⟨hrange.1, hrange.2, fun h => absurd h hstep⟩⟩

theorem validatePriceTick_rat (info : SymbolInfo ℚ) (price : ℚ) :
    ∃ msg, validatePriceTick info price = .ok msg ∧
      (msg = none → 0 < info.tickSize → NearInteger (price / info.tickSize)) := by
  unfold validatePriceTick
  split
  next hflat =>
    have hflat : info.tickSize ≤ 0 := by simpa using hflat
    exact ⟨_, rfl, fun _ hpos => absurd hflat hpos.not_ge⟩
  next hpos =>
    obtain ⟨off, hoff, hnear⟩ := offGrid_rat (price / info.tickSize)
    rw [hoff]
    cases off with
    | true => exact ⟨_, rfl, fun h => by cases h⟩
    | false => exact ⟨_, rfl, fun _ _ => hnear rfl⟩

theorem stopTooClose_rat (level price : ℚ) {stop : Val ℚ} (h : IsNumeric stop) :
    ∃ close, stopTooClose level price stop = .ok close ∧
      (close = false → numberOr0 stop ≠ 0 → level ≤ |price - numberOr0 stop|) := by
  unfold stopTooClose
  split
  next htrue =>
    rw [h.number htrue]
    refine ⟨_, rfl, fun hclose _ => ?_⟩
    simpa using hclose
  next hfalse =>
    refine ⟨_, rfl, fun _ hne => ?_⟩
    rw [h.truthy] at hfalse
    exact absurd hne (by simpa using hfalse)

theorem validateStops_rat (info : SymbolInfo ℚ) (price : ℚ) {sl tp : Val ℚ} (hsl : IsNumeric sl)
    (htp : IsNumeric tp) :
    ∃ msg, validateStops info price sl tp = .ok msg ∧
      (msg = none →
        (numberOr0 sl ≠ 0 →
          (info.tradeStopsLevel.getD 0 : ℚ) * info.point ≤ |price - numberOr0 sl|) ∧
        (numberOr0 tp ≠ 0 →
          (info.tradeStopsLevel.getD 0 : ℚ) * info.point ≤ |price - numberOr0 tp|)) := by
  obtain ⟨slClose, hslClose, hslFar⟩ :=
    stopTooClose_rat ((info.tradeStopsLevel.getD 0 : ℚ) * info.point) price hsl
  obtain ⟨tpClose, htpClose, htpFar⟩ :=
    stopTooClose_rat ((info.tradeStopsLevel.getD 0 : ℚ) * info.point) price htp
  have hlevel : (Prims.ofRat (info.tradeStopsLevel.getD 0 : ℚ) : ℚ) * info.point
      = (info.tradeStopsLevel.getD 0 : ℚ) * info.point := rfl
  unfold validateStops
  simp only [hlevel, hslClose, htpClose, bind, Except.bind]
  cases slClose with
  | true => exact ⟨_, rfl, fun h => by cases h⟩
  | false =>
      cases tpClose with
      | true => exact ⟨_, rfl, fun h => by cases h⟩
      | false => exact ⟨_, rfl, fun _ => ⟨hslFar rfl, htpFar rfl⟩⟩

-- ============================================================================
-- execute_order
-- ============================================================================

/-- The order passes every check. -/
def Passes (b : BrokerState ℚ) (order : OrderDict ℚ) : Prop :=
  ∃ price, requestedPrice b order = some price ∧
    Admissible b order (requestedVolume order) price (numberOr0 (order.get .stopPrice))
      (numberOr0 (order.get .limitPrice))

/-- The request carries the numbers that were checked, and they pass. -/
def PassedRequest (b : BrokerState ℚ) (order : OrderDict ℚ) (req : TradeRequest ℚ) : Prop :=
  ∃ volume price sl tp, req.symbol = some (order.get .symbol) ∧ req.volume = some volume ∧
    req.price = some price ∧ req.sl = some sl ∧ req.tp = some tp ∧
    volume = requestedVolume order ∧ Admissible b order volume price sl tp

/-- What the checks end with: a refusal, a request that has passed, or an exception from
    a part of the dict that is read after they have passed. -/
def Vetted (b : BrokerState ℚ) (order : OrderDict ℚ) :
    Except Exc (Except String (TradeRequest ℚ)) → Prop
  | .ok (.error _) => True
  | .ok (.ok req) => PassedRequest b order req ∧ Passes b order
  | .error _ => Passes b order

theorem buildRequest_passed {order : OrderDict ℚ} (h : NumericOrder order) {b : BrokerState ℚ}
    (clientId : String) {price : ℚ} (hprice : requestedPrice b order = some price)
    (hadmissible : Admissible b order (requestedVolume order) price
      (numberOr0 (order.get .stopPrice)) (numberOr0 (order.get .limitPrice))) :
    Vetted b order
      ((buildRequest order clientId (requestedVolume order) price).map Except.ok) := by
  have hpasses : Passes b order := ⟨price, hprice, hadmissible⟩
  unfold buildRequest
  simp only [h.stopPrice.toFloat_orElse, h.limitPrice.toFloat_orElse, bind, Except.bind]
  cases (order.getD .deviation (.int 10)).toInt with
  | error x => exact hpasses
  | ok deviation =>
      cases (order.getD .magic (.int 100001)).toInt with
      | error x => exact hpasses
      | ok magic =>
          exact ⟨⟨_, price, _, _, rfl, rfl, rfl, rfl, rfl, rfl, hadmissible⟩, hpasses⟩

theorem requests_cons_query {ev : Event Ledger (Mt5Op.Ans (F := ℚ)) Exc} {log : Mt5Log Ledger ℚ}
    (h : ev.op.request = none) : requests (ev :: log) = requests log :=
  List.filterMap_cons_none h

/-- The margin is known and free, when it is not found insufficient. -/
theorem sufficient_margin {margin : Option ℚ} {acct : Option (AccountInfo ℚ)}
    (h : ¬ insufficientMargin margin acct = true) :
    ∃ m account, margin = some m ∧ acct = some account ∧ m ≤ account.marginFree := by
  cases margin with
  | none => exact absurd rfl h
  | some m =>
      cases acct with
      | none => exact absurd rfl h
      | some account => exact ⟨m, account, rfl, rfl, by simpa [insufficientMargin] using h⟩

/-- The checks only ask, and what they let through has passed. -/
theorem prepareRequest_passed {order : OrderDict ℚ} (h : NumericOrder order) (b : BrokerState ℚ)
    (clientId : String) {t : Mt5Trail Ledger ℚ} :
    wp (brokerEnv b) (prepareRequest order clientId)
      (fun out t' => Vetted b order out ∧ t'.world = t.world ∧
        requests t'.log = requests t.log) t := by
  unfold prepareRequest
  refine (wp_ofExcept_bind_of_ok h.volumeOf).mpr ?_
  split
  next => exact ⟨trivial, rfl, rfl⟩
  next hpayload =>
  have hpositive : 0 < requestedVolume order := by
    by_contra hle
    simp [not_lt.mp hle] at hpayload
  refine (wp_op_bind_of_answer fun _ _ => Iff.rfl).mpr ?_
  cases hsymbol : validateSymbol (b.symbolInfo (order.get .symbol)) with
  | error msg => exact ⟨trivial, rfl, rfl⟩
  | ok info =>
  obtain ⟨hinfo, henabled, hopen⟩ := validateSymbol_ok.mp hsymbol
  obtain ⟨badVolume, hread, hrange⟩ := validateVolume_rat info (requestedVolume order)
  refine (wp_ofExcept_bind_of_ok hread).mpr ?_
  cases badVolume with
  | some msg => exact ⟨trivial, rfl, rfl⟩
  | none =>
  refine (wp_op_bind_of_answer fun _ _ => Iff.rfl).mpr ?_
  cases hquoted : b.symbolInfoTick (order.get .symbol) with
  | none => exact ⟨trivial, rfl, rfl⟩
  | some tick =>
  obtain ⟨price, hprice, hpriceRead⟩ := h.priceOf hquoted
  refine (wp_ofExcept_bind_of_ok hpriceRead).mpr ?_
  obtain ⟨offTick, htickRead, haligned⟩ := validatePriceTick_rat info price
  refine (wp_ofExcept_bind_of_ok htickRead).mpr ?_
  cases offTick with
  | some msg => exact ⟨trivial, rfl, rfl⟩
  | none =>
  obtain ⟨badStops, hstopsRead, hstops⟩ := validateStops_rat info price h.stopPrice h.limitPrice
  refine (wp_ofExcept_bind_of_ok hstopsRead).mpr ?_
  cases badStops with
  | some msg => exact ⟨trivial, rfl, rfl⟩
  | none =>
  refine (wp_op_bind_of_answer fun _ _ => Iff.rfl).mpr ?_
  split
  next => exact ⟨trivial, rfl, rfl⟩
  next =>
  refine (wp_op_bind_of_answer fun _ _ => Iff.rfl).mpr ?_
  refine (wp_op_bind_of_answer fun _ _ => Iff.rfl).mpr ?_
  split
  next => exact ⟨trivial, rfl, rfl⟩
  next hfunds =>
  have hadmissible : Admissible b order (requestedVolume order) price
      (numberOr0 (order.get .stopPrice)) (numberOr0 (order.get .limitPrice)) := by
    have hvolume := hrange rfl
    have hfar := hstops rfl
    exact ⟨⟨info, hinfo, henabled, hopen, hvolume.1, hvolume.2.1, hvolume.2.2, haligned rfl,
      hfar.1, hfar.2⟩, hpositive, sufficient_margin hfunds⟩
  have hbuild := buildRequest_passed h clientId hprice hadmissible
  refine wp_ofExcept_bind.mpr ⟨fun req hreq => ?_, fun x hx => ?_⟩
  · rw [hreq] at hbuild
    exact ⟨hbuild, rfl, rfl⟩
  · rw [hx] at hbuild
    exact ⟨hbuild, rfl, rfl⟩

/-- Nothing is sent but requests that have passed, and an order that does not pass is
    refused, or answered as a duplicate, with nothing sent and nothing recorded. -/
def Safe (b : BrokerState ℚ) (order : OrderDict ℚ) (ledger : Ledger)
    (out : Except Exc (BrokerResponse ℚ)) (t : Mt5Trail Ledger ℚ) : Prop :=
  (∀ req ∈ requests t.log, PassedRequest b order req) ∧
    (¬ Passes b order → requests t.log = [] ∧ t.world = ledger ∧
      ∃ response, out = .ok response ∧ (response.ok = false ∨ response.duplicate = some true))

/-- A request that has passed is sent as it is, and only then something is recorded. -/
theorem sendOrder_safe {b : BrokerState ℚ} {order : OrderDict ℚ} {ledger : Ledger}
    (clientId : String) {req : TradeRequest ℚ} (hreq : PassedRequest b order req)
    (hpasses : Passes b order) {t : Mt5Trail Ledger ℚ} (ht : requests t.log = []) :
    wp (brokerEnv b) (sendOrder clientId req) (Safe b order ledger) t := by
  have hsafe : ∀ (out : Except Exc (BrokerResponse ℚ)) (t' : Mt5Trail Ledger ℚ),
      requests t'.log = [req] → Safe b order ledger out t' := by
    intro out t' hsent
    refine ⟨fun req' hmem => ?_, fun hno => absurd hpasses hno⟩
    rw [hsent] at hmem
    rw [List.mem_singleton.mp hmem]
    exact hreq
  have hsent : ∀ (a : Except Exc (Option (OrderSendResult ℚ))) (w : Ledger),
      requests (t.record (.orderSend req) a w).log = [req] := by
    intro a w
    exact congrArg (List.cons req) ht
  refine wp_op_bind.mpr ⟨fun sent w _ => ?_, fun x w _ => hsafe _ _ (hsent _ w)⟩
  cases sent with
  | none =>
      refine wp_op_bind.mpr ⟨fun last w' _ => ?_, fun x w' _ => ?_⟩
      · exact hsafe _ _ ((requests_cons_query rfl).trans (hsent _ w))
      · exact hsafe _ _ ((requests_cons_query rfl).trans (hsent _ w))
  | some result =>
      simp only
      split
      next =>
        refine wp_op_bind.mpr ⟨fun _ w' _ => ?_, fun x w' _ => ?_⟩
        · exact hsafe _ _ ((requests_cons_query rfl).trans (hsent _ w))
        · exact hsafe _ _ ((requests_cons_query rfl).trans (hsent _ w))
      next => exact hsafe _ _ (hsent _ w)

theorem placeOrder_safe {order : OrderDict ℚ} (h : NumericOrder order) (b : BrokerState ℚ)
    (clientId : String) {t : Mt5Trail Ledger ℚ} (ht : requests t.log = []) :
    wp (brokerEnv b) (placeOrder order clientId) (Safe b order t.world) t := by
  refine wp_seq (prepareRequest_passed h b clientId) ?_ ?_
  · rintro prepared t' ⟨hvetted, hworld, hlog⟩
    cases prepared with
    | error msg =>
        have hnone : requests t'.log = [] := hlog.trans ht
        refine ⟨fun req hreq => ?_, fun _ => ⟨hnone, hworld, _, rfl, .inl rfl⟩⟩
        rw [hnone] at hreq
        cases hreq
    | ok req => exact sendOrder_safe clientId hvetted.1 hvetted.2 (hlog.trans ht)
  · rintro x t' ⟨hvetted, hworld, hlog⟩
    have hnone : requests t'.log = [] := hlog.trans ht
    refine ⟨fun req hreq => ?_, fun hno => absurd hvetted hno⟩
    rw [hnone] at hreq
    cases hreq

/-- For every numeric order, every connector and every state of the broker, a request that
    `execute_order` sends has passed every check, and where one fails the call returns
    `ok` False, or a duplicate answer, with nothing sent and nothing recorded. -/
theorem executeOrder_safe (b : BrokerState ℚ) (order : OrderDict ℚ) (h : NumericOrder order)
    (ledger : Ledger) :
    wp (brokerEnv b) (executeOrder order) (Safe b order ledger) ⟨ledger, []⟩ := by
  have hplace : ∀ t : Mt5Trail Ledger ℚ, requests t.log = [] → t.world = ledger →
      wp (brokerEnv b) (placeOrder order (clientIdOf order)) (Safe b order ledger) t := by
    rintro t hlog rfl
    exact placeOrder_safe h b _ hlog
  unfold executeOrder
  simp only
  split
  next =>
    refine wp_op_bind.mpr ⟨fun known w henv => ?_, fun x w henv => by cases henv.1⟩
    obtain ⟨-, hw⟩ := henv
    subst w
    cases known with
    | some ticket =>
        refine ⟨fun req hreq => ?_, fun _ => ⟨rfl, rfl, _, rfl, .inr rfl⟩⟩
        cases hreq
    | none => exact hplace ⟨ledger, _⟩ rfl rfl
  next => exact hplace ⟨ledger, []⟩ rfl rfl

/-- A broker with one symbol and funds. -/
def demoBroker : BrokerState ℚ where
  symbolInfo symbol := if symbol = .str "EURUSD" then
    some ⟨some 4, 1 / 100, 100, 1 / 100, some (1 / 100000), some 10, 1 / 100000⟩ else none
  symbolInfoTick symbol := if symbol = .str "EURUSD" then some ⟨11 / 10, 11001 / 10000⟩ else none
  symbolSelect _ := true
  orderCalcMargin _ _ volume price := some (volume * price * 1000)
  accountInfo := some ⟨10000, 10000, 0, 10000, 0, 0, 100, "USD"⟩

/-- A market order of a tenth of a lot with a stop. -/
def demoOrder : OrderDict ℚ
  | .symbol => some (.str "EURUSD")
  | .side => some (.str "BUY")
  | .quantity => some (.float (1 / 10))
  | .stopPrice => some (.float (109 / 100))
  | .clientOrderId => some (.str "c1")
  | _ => none

theorem executeOrder_safe_demo :
    wp (brokerEnv demoBroker) (executeOrder demoOrder)
      (Safe demoBroker demoOrder (fun _ => none)) ⟨fun _ => none, []⟩ :=
  executeOrder_safe demoBroker demoOrder
    ⟨.inl rfl, .inr ⟨_, rfl⟩, .inl rfl, .inr ⟨_, rfl⟩, .inl rfl⟩ _

end Mtrader.Connectors
