/-
  Mtrader.Connectors.Idempotency

  The `_idempotency` dict of one connector over any sequence of `execute_order`
  calls and broker answers.

  An answer is recorded by its ticket and accepted by its return code, so the dict
  remembers exactly the accepted client ids only while the two agree.
-/

import Mtrader.Connectors.ExecuteOrder
import Mathlib.Logic.Function.Basic

namespace Mtrader.Connectors

open Coroutine Py Mtrader.Execution

variable {F W : Type}

/-- The `_idempotency` dict of a connector. -/
abbrev Ledger : Type := String → Option ℤ

/-- The dict after an answer of the broker to an order with a client id. -/
def Ledger.record (ledger : Ledger) (clientId : String) (r : OrderSendResult F) : Ledger :=
  if clientId ≠ "" ∧ r.payload.brokerOrderId ≠ 0 then
    Function.update ledger clientId (some r.payload.brokerOrderId)
  else ledger

abbrev Mt5Log (W F : Type) : Type := List (Event W (Mt5Op.Ans (F := F)) Exc)

abbrev Mt5Trail (W F : Type) : Type := Trail W (Mt5Op.Ans (F := F)) Exc

/-- The result with which an `order_send` came back. -/
def sentResult : Event W (Mt5Op.Ans (F := F)) Exc → Option (OrderSendResult F)
  | ⟨_, .orderSend _, .ok sent⟩ => sent
  | _ => none

/-- The results of the requests sent, newest first. -/
def sentResults (log : Mt5Log W F) : List (OrderSendResult F) := log.filterMap sentResult

/-- The requests sent, newest first. -/
def requests (log : Mt5Log W F) : List (TradeRequest F) := log.filterMap fun ev => ev.op.request

theorem sentResults_cons_none {ev : Event W (Mt5Op.Ans (F := F)) Exc} {log : Mt5Log W F}
    (h : sentResult ev = none) : sentResults (ev :: log) = sentResults log :=
  List.filterMap_cons_none h

theorem sentResults_cons_some {ev : Event W (Mt5Op.Ans (F := F)) Exc} {log : Mt5Log W F}
    {r : OrderSendResult F} (h : sentResult ev = some r) :
    sentResults (ev :: log) = r :: sentResults log :=
  List.filterMap_cons_some h

theorem sentResult_of_query {w : W} {e : Mt5Op F} {a : Except Exc e.Ans} (he : e.query = true) :
    sentResult ⟨w, e, a⟩ = none := by
  cases e with
  | orderSend req => cases he
  | _ => rfl

/-- An operation on the connector's dict. -/
def Mt5Op.onLedger : Mt5Op F → Bool
  | .idempotencyGet _ | .idempotencySet _ _ => true
  | _ => false

theorem onLedger_of_query {e : Mt5Op F} (he : e.query = true) : e.onLedger = false := by
  cases e with
  | idempotencyGet id => cases he
  | idempotencySet id ticket => cases he
  | _ => rfl

/-- The environment keeps the connector's dict at `ledger`: only the connector's own
    accesses touch it, and these cannot fail. -/
structure KeepsLedger (env : Env W (Mt5Op.Ans (F := F)) Exc) (ledger : W → Ledger) : Prop where
  get : ∀ {w id a w'}, env w (.idempotencyGet id) a w' →
    a = .ok (ledger w id) ∧ ledger w' = ledger w
  set : ∀ {w id ticket a w'}, env w (.idempotencySet id ticket) a w' →
    a = .ok () ∧ ledger w' = Function.update (ledger w) id (some ticket)
  other : ∀ {w e a w'}, e.onLedger = false → env w e a w' → ledger w' = ledger w

-- ============================================================================
-- One call
-- ============================================================================

variable [Prims F]

/-- How a call of `execute_order` can end: with a duplicate answer and nothing
    sent, without an answer of the broker, or with one, which is recorded. -/
inductive Executed (ledger : W → Ledger) (order : OrderDict F) (before : Ledger) :
    Except Exc (BrokerResponse F) → Mt5Trail W F → Prop
  | duplicate {ticket : ℤ} {t : Mt5Trail W F} :
      clientIdOf order ≠ "" → before (clientIdOf order) = some ticket →
      ledger t.world = before → sentResults t.log = [] → requests t.log = [] →
      Executed ledger order before (.ok (duplicateResponse ticket)) t
  | unanswered {out : Except Exc (BrokerResponse F)} {t : Mt5Trail W F} :
      (clientIdOf order = "" ∨ before (clientIdOf order) = none) →
      ledger t.world = before → sentResults t.log = [] →
      (∀ response, out = .ok response → ∃ msg, response = refuse msg) →
      Executed ledger order before out t
  | answered {r : OrderSendResult F} {t : Mt5Trail W F} :
      (clientIdOf order = "" ∨ before (clientIdOf order) = none) →
      ledger t.world = before.record (clientIdOf order) r → sentResults t.log = [r] →
      Executed ledger order before (.ok r.response) t

section

variable {env : Env W (Mt5Op.Ans (F := F)) Exc} {ledger : W → Ledger} {order : OrderDict F}
variable {before : Ledger} {t : Mt5Trail W F}

theorem Executed.raised {x : Exc}
    (hfresh : clientIdOf order = "" ∨ before (clientIdOf order) = none)
    (hw : ledger t.world = before) (hlog : sentResults t.log = []) :
    Executed ledger order before (.error x) t := by
  refine .unanswered hfresh hw hlog fun response h => ?_
  cases h

theorem Executed.refused {msg : String}
    (hfresh : clientIdOf order = "" ∨ before (clientIdOf order) = none)
    (hw : ledger t.world = before) (hlog : sentResults t.log = []) :
    Executed ledger order before (.ok (refuse msg)) t := by
  refine .unanswered hfresh hw hlog fun response h => ?_
  cases h
  exact ⟨msg, rfl⟩

theorem sendOrder_executed (henv : KeepsLedger env ledger) (req : TradeRequest F)
    (hfresh : clientIdOf order = "" ∨ before (clientIdOf order) = none)
    (hw : ledger t.world = before) (hlog : sentResults t.log = []) :
    wp env (sendOrder (clientIdOf order) req) (Executed ledger order before) t := by
  refine wp_op_bind.mpr ⟨fun sent w' hsent => ?_, fun x w' hsent => ?_⟩
  swap
  · exact .raised hfresh ((henv.other rfl hsent).trans hw) hlog
  have hw' : ledger w' = before := (henv.other rfl hsent).trans hw
  cases sent with
  | none =>
      refine wp_op_bind.mpr ⟨fun last w'' hlast => ?_, fun x w'' hlast => ?_⟩
      · exact .refused hfresh ((henv.other rfl hlast).trans hw') hlog
      · exact .raised hfresh ((henv.other rfl hlast).trans hw') hlog
  | some r =>
      have hresults : sentResults (t.record (.orderSend req) (.ok (some r)) w').log = [r] := by
        rw [Trail.record_log, sentResults_cons_some rfl, hlog]
      simp only
      split
      next hset =>
        refine wp_op_bind.mpr ⟨fun _ w'' hstore => ?_, fun x w'' hstore => ?_⟩
        · refine .answered hfresh ?_ (by rw [Trail.record_log, sentResults_cons_none rfl, hresults])
          rw [Trail.record_world, (henv.set hstore).2, Trail.record_world, hw', Ledger.record,
            if_pos hset]
        · exact absurd (henv.set hstore).1 nofun
      next hset =>
        refine .answered hfresh ?_ hresults
        rw [Trail.record_world, hw', Ledger.record, if_neg hset]

theorem placeOrder_executed (henv : KeepsLedger env ledger)
    (hfresh : clientIdOf order = "" ∨ before (clientIdOf order) = none)
    (hw : ledger t.world = before) (hlog : sentResults t.log = []) :
    wp env (placeOrder order (clientIdOf order)) (Executed ledger order before) t := by
  have hquery : ∀ (_ : Unit) (t : Mt5Trail W F) e a w',
      (ledger t.world = before ∧ sentResults t.log = []) → e.query = true →
      env t.world e a w' →
        ledger (t.record e a w').world = before ∧ sentResults (t.record e a w').log = [] := by
    intro _ t e a w' ⟨hw, hlog⟩ he hstep
    refine ⟨(henv.other (onLedger_of_query he) hstep).trans hw, ?_⟩
    rw [Trail.record_log, sentResults_cons_none (sentResult_of_query he), hlog]
  refine wp_seq ((prepareRequest_obeys order (clientIdOf order)).wp ⟨hw, hlog⟩ hquery) ?_ ?_
  · rintro (msg | req) t' ⟨-, ⟨hw', hlog'⟩, -⟩
    · exact .refused hfresh hw' hlog'
    · exact sendOrder_executed henv req hfresh hw' hlog'
  · rintro x t' ⟨-, ⟨hw', hlog'⟩, -⟩
    exact .raised hfresh hw' hlog'

/-- Every execution of `execute_order` ends in one of the three ways. -/
theorem executeOrder_executed (henv : KeepsLedger env ledger) (order : OrderDict F) (w : W) :
    wp env (executeOrder order) (Executed ledger order (ledger w)) ⟨w, []⟩ := by
  unfold executeOrder
  simp only
  split
  next hid =>
    refine wp_op_bind.mpr ⟨fun known w' hget => ?_, fun x w' hget => absurd (henv.get hget).1 nofun⟩
    obtain ⟨hknown, hw'⟩ := henv.get hget
    cases known with
    | some ticket => exact .duplicate hid (Except.ok.inj hknown).symm hw' rfl rfl
    | none => exact placeOrder_executed henv (.inr (Except.ok.inj hknown).symm) hw' rfl
  next hid => exact placeOrder_executed henv (.inl (not_not.mp hid)) rfl rfl

end

-- ============================================================================
-- A sequence of calls
-- ============================================================================

/-- A connector on its own: its dict, and a terminal that answers anything. -/
def terminalEnv (F : Type) : Env Ledger (Mt5Op.Ans (F := F)) Exc :=
  fun w e a w' =>
    match e, a with
    | .idempotencyGet id, a => a = .ok (w id) ∧ w' = w
    | .idempotencySet id ticket, a => a = .ok () ∧ w' = Function.update w id (some ticket)
    | _, _ => w' = w

omit [Prims F] in
theorem terminalEnv_keepsLedger : KeepsLedger (terminalEnv F) fun w => w where
  get h := h
  set h := h
  other {w e a w'} he h := by
    cases e with
    | idempotencyGet id => cases he
    | idempotencySet id ticket => cases he
    | _ => exact h

/-- One finished call of `execute_order`. -/
abbrev Mt5Call (F : Type) : Type :=
  Call (OrderDict F) Ledger (Mt5Op.Ans (F := F)) Exc (BrokerResponse F)

/-- An order that the call sent for the client id came back accepted. -/
def Accepted (clientId : String) (c : Mt5Call F) : Prop :=
  clientIdOf c.call = clientId ∧ ∃ r ∈ sentResults c.log, r.retcode ∈ successCodes

/-- For the orders with a client id, the broker gives a ticket with the accepting
    return codes and with no others. -/
def CodesMatchTickets (cs : List (Mt5Call F)) : Prop :=
  ∀ c ∈ cs, clientIdOf c.call ≠ "" → ∀ r ∈ sentResults c.log,
    (r.retcode ∈ successCodes ↔ r.payload.brokerOrderId ≠ 0)

instance (clientId : String) (c : Mt5Call F) : Decidable (Accepted clientId c) :=
  inferInstanceAs (Decidable (_ ∧ _))

instance (cs : List (Mt5Call F)) : Decidable (CodesMatchTickets cs) :=
  inferInstanceAs (Decidable (∀ c ∈ cs, _))

variable {cs : List (Mt5Call F)} {w : Ledger}

/-- While return codes and tickets agree, the dict holds the accepted client ids. -/
theorem ledger_iff (hrun : Serial (terminalEnv F) executeOrder (fun _ => none) cs w)
    (hcodes : CodesMatchTickets cs) {id : String} (hid : id ≠ "") :
    w id ≠ none ↔ ∃ c ∈ cs, Accepted id c := by
  refine hrun.invariant
    (I := fun cs w => CodesMatchTickets cs → (w id ≠ none ↔ ∃ c ∈ cs, Accepted id c))
    (fun _ => by simp) ?_ hcodes
  intro cs w order out t' _ ih hex hcodes
  have hw := ih fun c hc => hcodes c (List.mem_cons_of_mem _ hc)
  have hcode := hcodes _ List.mem_cons_self
  simp only [List.exists_mem_cons_iff, Accepted]
  cases hex.sound (executeOrder_executed terminalEnv_keepsLedger order w) with
  | duplicate _ _ hworld hsent _ => simpa [hworld, hsent, Accepted] using hw
  | unanswered _ hworld hsent _ => simpa [hworld, hsent, Accepted] using hw
  | @answered r _ _ hworld hsent =>
      have hcode : clientIdOf order ≠ "" →
          (r.retcode ∈ successCodes ↔ r.payload.brokerOrderId ≠ 0) := by
        simpa [hsent] using hcode
      rw [hworld, hsent, Ledger.record]
      by_cases heq : clientIdOf order = id
      · subst heq
        by_cases hticket : r.payload.brokerOrderId ≠ 0
        · simp [hid, hticket, (hcode hid).mpr hticket]
        · simpa [hticket, (not_congr (hcode hid)).mpr hticket, Accepted] using hw
      · have hother : (if clientIdOf order ≠ "" ∧ r.payload.brokerOrderId ≠ 0 then
            Function.update w (clientIdOf order) (some r.payload.brokerOrderId) else w) id =
            w id := by
          split
          next => exact Function.update_of_ne (Ne.symm heq) _ _
          next => rfl
        simpa [hother, heq, Accepted] using hw

-- ============================================================================
-- A refused order with a ticket
-- ============================================================================

/-- A terminal that passes every check and answers each request with `r`. -/
def steadyTerminal (r : OrderSendResult ℚ) : Answers Ledger (Mt5Op.Ans (F := ℚ)) Exc :=
  fun w e =>
    match e with
    | .idempotencyGet id => (.ok (w id), w)
    | .idempotencySet id ticket => (.ok (), Function.update w id (some ticket))
    | .symbolInfo _ =>
        (.ok (some { tradeMode := some 4, volumeMin := 1 / 100, volumeMax := 100,
                     volumeStep := 1 / 100, tradeTickSize := none,
                     tradeStopsLevel := none, point := 1 / 100000 }), w)
    | .symbolInfoTick _ => (.ok (some { bid := 1, ask := 1 }), w)
    | .symbolSelect _ => (.ok true, w)
    | .orderCalcMargin _ _ _ _ => (.ok (some 1), w)
    | .accountInfo =>
        (.ok (some { balance := 1000, equity := 1000, margin := 0, marginFree := 1000,
                     marginLevel := 0, profit := 0, leverage := 30, currency := "EUR" }), w)
    | .positionsGet _ => (.ok (some []), w)
    | .orderSend _ => (.ok (some r), w)
    | .lastError => (.ok "", w)

theorem steadyTerminal_sound (r : OrderSendResult ℚ) (w : Ledger) (e : Mt5Op ℚ) :
    terminalEnv ℚ w e (steadyTerminal r w e).1 (steadyTerminal r w e).2 := by
  cases e with
  | idempotencyGet id => exact ⟨rfl, rfl⟩
  | idempotencySet id ticket => exact ⟨rfl, rfl⟩
  | _ => exact rfl

/-- A market order for 0.1 lots with a client id. -/
def sampleDict : OrderDict ℚ
  | .symbol => some (.str "EURUSD")
  | .volume => some (.float (1 / 10))
  | .side => some (.str "BUY")
  | .type => some (.str "MARKET")
  | .clientOrderId => some (.str "abc")
  | _ => none

/-- An order that the broker rejects under a ticket is a duplicate when it is
    tried again. -/
theorem executeOrder_not_always_idempotent :
    ¬ ∀ (cs : List (Mt5Call ℚ)) (w : Ledger) (newer older : List (Mt5Call ℚ)) (c : Mt5Call ℚ),
      Serial (terminalEnv ℚ) executeOrder (fun _ => none) cs w → cs = newer ++ c :: older →
        (∀ response, c.out = .ok response → response.ok = true → response.duplicate = some true →
          ∃ c' ∈ older, Accepted (clientIdOf c.call) c') ∧
        (clientIdOf c.call ≠ "" → (∃ c' ∈ older, Accepted (clientIdOf c.call) c') →
          requests c.log = []) := by
  intro hall
  have htwice : ∃ c older w, Serial (terminalEnv ℚ) executeOrder (fun _ => none) (c :: older) w ∧
      c.out.toOption.map (fun response => (response.ok, response.duplicate)) =
        some (true, some true) ∧
      ∀ c' ∈ older, ¬ Accepted (clientIdOf c.call) c' :=
    exists_serial (steadyTerminal_sound { retcode := 10006, order := 7, deal := 0, volume := 0 })
      [sampleDict, sampleDict] _ (by decide +kernel)
  obtain ⟨c, older, w, hrun, hdup, hnone⟩ := htwice
  obtain ⟨response, hout, hresp⟩ := Option.map_eq_some_iff.mp hdup
  obtain ⟨c', hc', hacc⟩ := (hall _ w [] older c hrun rfl).1 response
    (by cases h : c.out <;> simp_all [Except.toOption]) (congrArg Prod.fst hresp)
    (congrArg Prod.snd hresp)
  exact hnone c' hc' hacc

/-- A connector whose broker's return codes and tickets agree: only an accepted
    client id is answered as a duplicate, and once accepted it is never sent
    again. -/
theorem executeOrder_idempotent
    (hrun : Serial (terminalEnv F) executeOrder (fun _ => none) cs w)
    (hcodes : CodesMatchTickets cs) {newer older : List (Mt5Call F)} {c : Mt5Call F}
    (hcs : cs = newer ++ c :: older) :
    (∀ response, c.out = .ok response → response.ok = true → response.duplicate = some true →
      ∃ c' ∈ older, Accepted (clientIdOf c.call) c') ∧
    (clientIdOf c.call ≠ "" → (∃ c' ∈ older, Accepted (clientIdOf c.call) c') →
      requests c.log = []) := by
  subst hcs
  obtain ⟨hold, hex⟩ := hrun.entry
  have hledger : ∀ id ≠ "", c.pre id ≠ none ↔ ∃ c' ∈ older, Accepted id c' := fun id hid =>
    ledger_iff hold (fun d hd => hcodes d (by simp [hd])) hid
  have hspec := hex.sound (executeOrder_executed terminalEnv_keepsLedger c.call c.pre)
  generalize hout : c.out = out at hspec
  generalize htrail : (⟨c.post, c.log⟩ : Trail _ _ _) = trail at hspec
  have hlog : c.log = trail.log := by rw [← htrail]
  cases hspec with
  | duplicate hid hticket _ _ hreq =>
      refine ⟨fun _ _ _ _ => (hledger _ hid).mp (by simp [hticket]), fun _ _ => ?_⟩
      rw [hlog, hreq]
  | unanswered hfresh _ _ hrefuse =>
      refine ⟨fun response hresp _ hdup => ?_, fun hid hacc => ?_⟩
      · obtain ⟨msg, rfl⟩ := hrefuse response hresp
        cases hdup
      · exact absurd (hfresh.resolve_left hid) ((hledger _ hid).mpr hacc)
  | answered hfresh _ _ =>
      refine ⟨fun response hresp _ hdup => ?_, fun hid hacc => ?_⟩
      · cases hresp
        cases hdup
      · exact absurd (hfresh.resolve_left hid) ((hledger _ hid).mpr hacc)

/-- An order that the broker fills under a ticket is sent once. -/
theorem executeOrder_idempotent_filled :
    ∃ c older w, Serial (terminalEnv ℚ) executeOrder (fun _ => none) (c :: older) w ∧
      CodesMatchTickets (c :: older) ∧ (∃ c' ∈ older, Accepted "abc" c') ∧
      requests c.log = [] := by
  have htwice : ∃ c older w, Serial (terminalEnv ℚ) executeOrder (fun _ => none) (c :: older) w ∧
      CodesMatchTickets (c :: older) ∧ clientIdOf c.call = "abc" ∧
      ∃ c' ∈ older, Accepted "abc" c' :=
    exists_serial
      (steadyTerminal_sound { retcode := 10009, order := 7, deal := 8, volume := 1 / 10 })
      [sampleDict, sampleDict] _ (by decide +kernel)
  obtain ⟨c, older, w, hrun, hcodes, hid, hacc⟩ := htwice
  refine ⟨c, older, w, hrun, hcodes, hacc, ?_⟩
  have hcs : c :: older = [] ++ c :: older := rfl
  exact (executeOrder_idempotent hrun hcodes hcs).2 (by rw [hid]; decide) (by rwa [hid])

end Mtrader.Connectors
