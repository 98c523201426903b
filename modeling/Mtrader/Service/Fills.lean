/-
  Mtrader.Service.Fills

  What `submit_order` stores of the broker's answer, on an MT5 connector.

  A return code is read three times: `RETCODE_MAPPING` describes it, `success_codes`
  accepts it, and the engine looks at the deal number instead.  An accepted answer
  with a deal is stored as FILLED with the whole quantity of the order, one without
  as SUBMITTED, and PARTIAL is never stored.
-/

import Mtrader.Service.Resubmission

namespace Mtrader.Service

open Coroutine Py Mtrader.Execution Mtrader.Connectors Mtrader.Risk

variable {F : Type}

-- ============================================================================
-- The answers of the broker
-- ============================================================================

/-- The answer of the broker that an event of the service is. -/
def serviceSentResult : Event (ServiceWorld F) (Mt5ServiceAns F) Exc → Option (OrderSendResult F)
  | ⟨w, .inr e, a⟩ => sentResult ⟨w, e, a⟩
  | ⟨_, .inl _, _⟩ => none

/-- The answers of the broker to the requests sent, newest first. -/
def serviceSent (log : List (Event (ServiceWorld F) (Mt5ServiceAns F) Exc)) :
    List (OrderSendResult F) := log.filterMap serviceSentResult

theorem serviceSent_inr (inner : List (Event (ServiceWorld F) (Mt5Op.Ans (F := F)) Exc))
    (log : List (Event (ServiceWorld F) (Mt5ServiceAns F) Exc)) :
    serviceSent (inner.map Event.inr ++ log) = sentResults inner ++ serviceSent log := by
  rw [serviceSent, List.filterMap_append, List.filterMap_map]
  rfl

/-- To know the trail after a connector call, reason about the connector. -/
theorem via_connector_trail {R : Type} {p : Mt5M F R} {a : Except Exc R} {t t' : ServiceTrail F}
    {P : Except Exc R → Mt5Trail (ServiceWorld F) F → Prop}
    (h : Exec (serviceEnv F) t (connector p) a t')
    (hp : wp (serviceEnv F).right p P ⟨t.world, []⟩) :
    ∃ s, P a s ∧ t'.world = s.world ∧ t'.log = s.log.map Event.inr ++ t.log := by
  refine Exec.sound (Q := fun a t' => ∃ s, P a s ∧ t'.world = s.world ∧
    t'.log = s.log.map Event.inr ++ t.log) h (wp_inr (t := ⟨t.world, []⟩) (l := t.log) ?_)
  exact wp_mono hp fun out s hs => ⟨s, hs, rfl, rfl⟩

/-- The broker's answer is the one that `execute_order` passes on. -/
theorem executeOrder_sent [Prims F] {d : OrderDict F} {a : Except Exc (BrokerResponse F)}
    {t t' : ServiceTrail F} (h : (serviceEnv F).via overMt5 t (.executeOrder d) a t')
    (hnone : serviceSent t.log = []) {r : OrderSendResult F} (hr : r ∈ serviceSent t'.log) :
    a = .ok r.response := by
  obtain ⟨s, hexecuted, -, hlog⟩ := via_connector_trail h
    (executeOrder_executed serviceEnv_keepsLedger d t.world)
  rw [hlog, serviceSent_inr, hnone, List.append_nil] at hr
  cases hexecuted with
  | duplicate _ _ _ hsent _ =>
      rw [hsent] at hr
      cases hr
  | unanswered _ _ hsent _ =>
      rw [hsent] at hr
      cases hr
  | answered _ _ hsent =>
      rw [hsent, List.mem_singleton] at hr
      rw [hr]

/-- The queries of the connector get no answer to a request. -/
theorem query_sent {R : Type} {p : Mt5M F R} (hp : p.Always (.only fun e => e.query = true))
    {a : Except Exc R} {t t' : ServiceTrail F} (h : Exec (serviceEnv F) t (connector p) a t') :
    serviceSent t'.log = serviceSent t.log := by
  have hquery : wp (serviceEnv F).right p (fun _ s => sentResults s.log = []) ⟨t.world, []⟩ := by
    refine wp_mono ((hp ()).wp (J := fun _ s => sentResults s.log = []) rfl ?_)
      fun _ s ⟨_, hs, _⟩ => hs
    intro _ s e a w' hs he _
    rw [Trail.record_log, sentResults_cons_none (sentResult_of_query he), hs]
  obtain ⟨s, hs, -, hlog⟩ := via_connector_trail h hquery
  rw [hlog, serviceSent_inr, hs, List.nil_append]

variable [Prims F]

/-- An operation of the engine itself gets no answer of the broker. -/
theorem own_sent {e : EngineOp F} {a : Except Exc e.Ans} {t t' : ServiceTrail F}
    (he : overMt5 e = Prog.opInl e) (h : (serviceEnv F).via overMt5 t e a t') :
    serviceSent t'.log = serviceSent t.log := by
  obtain ⟨w', -, rfl⟩ := via_own he h
  rfl

/-- Nor does bookkeeping. -/
theorem bookkeeping_sent {R : Type} {p : EngineM F R} (hp : p.Always (bookkeepingOnly F))
    {s : EngineTrail F} {sent : List (OrderSendResult F)} (hs : serviceSent s.world.log = sent) :
    wp ((serviceEnv F).via overMt5) p (fun _ s' => serviceSent s'.world.log = sent) s := by
  exact bookkeeping_via hp (J := fun t => serviceSent t.log = sent) (fun _ _ _ _ ht _ _ => ht) hs

-- ============================================================================
-- What is stored
-- ============================================================================

omit [Prims F] in
/-- The `filled_quantity` stored for an order id. -/
def filledAt (t : Table F) (id : String) : Option (Val F) :=
  (t id).bind fun row => row .filledQuantity

omit [Prims F] in
/-- What `submit_order` stores of the connector's answer. -/
inductive StoredAnswer (order : Order F) (response : BrokerResponse F) (t : Table F) : Prop
  | rejected : response.ok = false → t.statusAt order.id = some .rejected →
      StoredAnswer order response t
  | filled : response.ok = true → (response.result.getD {}).deal.getD 0 ≠ 0 →
      t.statusAt order.id = some .filled → filledAt t order.id = some (.float order.quantity) →
      StoredAnswer order response t
  | submitted : response.ok = true → (response.result.getD {}).deal.getD 0 = 0 →
      t.statusAt order.id = some .submitted → StoredAnswer order response t
  | unrecorded : response.ok = true → (response.result.getD {}).retcode.getD 0 = 0 →
      StoredAnswer order response t

section

variable {W : Type} {env : Env W (EngineOp.Ans (F := F)) Exc} {orders : W → Table F}
variable {t : Trail W (EngineOp.Ans (F := F)) Exc} {order : Order F} {response : BrokerResponse F}

/-- An update to FILLED stores the quantity it is given. -/
theorem filledAt_of_stored {table table' : Table F} {id : String} {quantity : F} {closedAt : Time}
    (h : StatusUpdate table id .filled
      [.filledQuantity quantity, .closedAt (some closedAt)] (.ok ()) table') :
    filledAt table' id = some (.float quantity) := by
  cases h with
  | stored _ _ =>
      rw [filledAt, Table.put_self]
      rfl

/-- The end of `submit_order` after an accepting answer. -/
theorem recordAccepted_stores (hrepo : Repository env orders) (hok : response.ok = true) :
    wp env (recordAccepted order response)
      (fun out t' => ∀ o, out = .ok o → StoredAnswer order response (orders t'.world)) t := by
  simp only [recordAccepted]
  split
  case isFalse hretcode => exact fun _ _ => .unrecorded hok (not_not.mp hretcode)
  refine wp_op_bind.mpr ⟨fun openedAt w₁ _ => ?_, fun x w₁ _ o ho => by cases ho⟩
  refine wp_seq (updateOrderStatus_stores hrepo order.id .submitted _)
    (fun _ t₂ hsubmitted => ?_) fun x t₂ _ o ho => by cases ho
  split
  case isFalse hdeal =>
    exact fun _ _ => .submitted hok (not_not.mp hdeal) hsubmitted.statusAt_of_ok
  case isTrue hdeal =>
    refine wp_op_bind.mpr ⟨fun closedAt w₃ _ => ?_, fun x w₃ _ o ho => by cases ho⟩
    refine wp_seq (updateOrderStatus_stores hrepo order.id .filled _)
      (fun _ t₄ hfilled => ?_) fun x t₄ _ o ho => by cases ho
    refine wp_seq (emit_keeps hrepo .orderFilled _)
      (fun _ t₅ hkeeps o _ => ?_) fun x t₅ _ o ho => by cases ho
    rw [hkeeps]
    exact .filled hok hdeal hfilled.statusAt_of_ok (filledAt_of_stored hfilled)

/-- The end of `submit_order`, once the connector has answered. -/
theorem answer_stores (hrepo : Repository env orders) :
    wp env (if !response.ok then do
        updateOrderStatus order.id .rejected
          [.rejectionReason (some (response.error.getD "broker rejected"))]
        return order
      else recordAccepted order response)
      (fun out t' => ∀ o, out = .ok o → StoredAnswer order response (orders t'.world)) t := by
  cases hok : response.ok with
  | true => exact recordAccepted_stores hrepo hok
  | false =>
      refine wp_seq (updateOrderStatus_stores hrepo order.id .rejected _)
        (fun _ t₁ hrejected => ?_) fun x t₁ _ o ho => nomatch ho
      exact fun _ _ => .rejected hok hrejected.statusAt_of_ok

end

-- ============================================================================
-- A submission
-- ============================================================================

/-- A submission that returns has stored the answer it got. -/
def AnswerStored (order : Order F) (out : Except Exc (Order F)) (t : ServiceTrail F) : Prop :=
  ∀ o, out = .ok o → ∀ r ∈ serviceSent t.log, StoredAnswer order r.response t.world.orders

omit [Prims F] in
theorem AnswerStored.of_none {order : Order F} {out : Except Exc (Order F)} {t : ServiceTrail F}
    (h : serviceSent t.log = []) : AnswerStored order out t := by
  intro o _ r hr
  rw [h] at hr
  cases hr

/-- Bookkeeping before the broker is asked. -/
theorem bookkeeping_answerStored {order : Order F} {p : EngineM F (Order F)} {s : EngineTrail F}
    (hp : p.Always (bookkeepingOnly F)) (hnone : serviceSent s.world.log = []) :
    wp ((serviceEnv F).via overMt5) p (fun out s' => AnswerStored order out s'.world) s :=
  wp_mono (bookkeeping_sent hp hnone) fun _ _ h => .of_none h

theorem submitApproved_answerStored {order : Order F} {s : EngineTrail F}
    (hnone : serviceSent s.world.log = []) :
    wp ((serviceEnv F).via overMt5) (submitApproved order)
      (fun out s' => AnswerStored order out s'.world) s := by
  have hrepo : Repository ((serviceEnv F).via overMt5) (fun t => t.world.orders) :=
    service_repository fun _ _ _ _ h => h
  refine wp_seq (bookkeeping_sent (updateOrderStatus_bookkeeping _ _ _) hnone)
    (fun _ s₁ hnone₁ => ?_) fun x s₁ hnone₁ => .of_none hnone₁
  refine wp_own rfl (fun savedId w₂ _ => ?_) fun x w₂ _ => .of_none hnone₁
  refine wp_seq (bookkeeping_sent (emit_bookkeeping _ _) hnone₁)
    (fun _ s₃ hnone₃ => ?_) fun x s₃ hnone₃ => .of_none hnone₃
  refine wp_op_bind.mpr ⟨fun response t₄ hvia => ?_, fun x t₄ hvia o ho => nomatch ho⟩
  have hanswered : ∀ r ∈ serviceSent t₄.log, response = r.response := by
    intro r hr
    exact Except.ok.inj (executeOrder_sent hvia hnone₃ hr)
  refine wp_mono (wp_and (answer_stores hrepo) (bookkeeping_sent ?_ rfl)) ?_
  · split
    next => exact updated_bookkeeping order _ _
    next => exact recordAccepted_bookkeeping order response
  rintro out s' ⟨hstored, hsent⟩ o ho r hr
  rw [hsent] at hr
  rw [← hanswered r hr]
  exact hstored o ho

theorem submitOrder_answerStored {order : Order F} {t : ServiceTrail F}
    (hnone : serviceSent t.log = []) :
    wp ((serviceEnv F).via overMt5) (submitOrder order)
      (fun out s => AnswerStored order out s.world) ⟨t, []⟩ := by
  refine withLock_wp (P := fun out s => AnswerStored order out s.world)
    (fun t₁ hacquire => ?_) (fun x t₁ hacquire o ho => nomatch ho)
    (fun out s t₁ hstored hrelease => ?_) fun out s x t₁ hstored hrelease o ho => nomatch ho
  · have hnone₁ : serviceSent t₁.log = [] := (own_sent rfl hacquire).trans hnone
    unfold submitLocked
    split
    next => exact .of_none hnone₁
    next =>
    split
    next => exact bookkeeping_answerStored (updated_bookkeeping order _ _) hnone₁
    next =>
    refine wp_op_bind.mpr ⟨fun info t₂ hinfo => ?_, fun x t₂ _ o ho => nomatch ho⟩
    have hnone₂ : serviceSent t₂.log = [] := (query_sent getAccountInfo_query hinfo).trans hnone₁
    refine wp_op_bind.mpr ⟨fun rows t₃ hrows => ?_, fun x t₃ _ o ho => nomatch ho⟩
    have hnone₃ : serviceSent t₃.log = [] := (query_sent (getPositions_query _) hrows).trans hnone₂
    refine wp_op_bind.mpr ⟨fun approval t₄ hcheck => ?_, fun x t₄ _ o ho => nomatch ho⟩
    have hnone₄ : serviceSent t₄.log = [] := (own_sent rfl hcheck).trans hnone₃
    split
    next => exact bookkeeping_answerStored (updated_bookkeeping order _ _) hnone₄
    next => exact submitApproved_answerStored hnone₄
  · obtain ⟨w', hstep, rfl⟩ := via_own rfl hrelease
    cases hstep
    exact hstored

-- ============================================================================
-- Return codes and fills
-- ============================================================================

omit [Prims F] in
/-- The order is stored with the fill that `RETCODE_MAPPING` reads in the answer. -/
structure FillRecorded (order : Order F) (r : OrderSendResult F) (t : Table F) : Prop where
  full : t.statusAt order.id = some .filled →
    retcodeNames.lookup r.retcode = some "Order filled fully" ∧
      filledAt t order.id = some (.float order.quantity)
  part : r.retcode = 10012 →
    t.statusAt order.id = some .partial_ ∧ filledAt t order.id = some (.float r.volume)

theorem lookup_filledFully (retcode : ℤ) :
    retcodeNames.lookup retcode = some "Order filled fully" ↔ retcode = 10013 := by
  constructor
  · intro h
    obtain ⟨before, after, hnames, -⟩ := List.lookup_eq_some_iff.mp h
    have honly : ∀ p ∈ retcodeNames, p.2 = "Order filled fully" → p.1 = 10013 := by
      decide +kernel
    exact honly (retcode, "Order filled fully") (by simp [hnames]) rfl
  · rintro rfl
    decide +kernel

section

variable {order : Order F} {r : OrderSendResult F} {t : Table F}

omit [Prims F] in
theorem response_ok (r : OrderSendResult F) : r.response.ok = true ↔ r.retcode ∈ successCodes :=
  decide_eq_true_iff

omit [Prims F] in
theorem payload_retcode (r : OrderSendResult F) : r.payload.retcode = some r.retcode := by
  unfold OrderSendResult.payload
  split <;> rfl

omit [Prims F] in
/-- An accepting answer carries its return code. -/
theorem response_recorded (hok : r.response.ok = true) :
    (r.response.result.getD {}).retcode.getD 0 ≠ 0 := by
  have hcode : r.retcode ∈ successCodes := (response_ok r).mp hok
  show r.payload.retcode.getD 0 ≠ 0
  rw [payload_retcode]
  rintro hzero
  rw [show r.retcode = 0 from hzero] at hcode
  exact absurd hcode (by decide)

omit [Prims F] in
/-- PARTIAL is never what an answer is stored as. -/
theorem StoredAnswer.not_partial (h : StoredAnswer order r.response t) :
    t.statusAt order.id ≠ some .partial_ := by
  cases h with
  | rejected _ hstatus => simp [hstatus]
  | filled _ _ hstatus _ => simp [hstatus]
  | submitted _ _ hstatus => simp [hstatus]
  | unrecorded hok hzero => exact absurd hzero (response_recorded hok)

omit [Prims F] in
/-- FILLED is what an accepting answer with a deal is stored as. -/
theorem StoredAnswer.filled_iff (h : StoredAnswer order r.response t) :
    t.statusAt order.id = some .filled ↔
      r.retcode ∈ successCodes ∧ r.payload.deal.getD 0 ≠ 0 := by
  cases h with
  | rejected hok hstatus =>
      have hcode : r.retcode ∉ successCodes := by
        rw [← response_ok, hok]
        decide
      simp [hstatus, hcode]
  | filled hok hdeal hstatus _ => exact ⟨fun _ => ⟨(response_ok r).mp hok, hdeal⟩, fun _ => hstatus⟩
  | submitted _ hdeal hstatus =>
      have hdeal : r.payload.deal.getD 0 = 0 := hdeal
      simp [hstatus, hdeal]
  | unrecorded hok hzero => exact absurd hzero (response_recorded hok)

omit [Prims F] in
theorem StoredAnswer.filledAt (h : StoredAnswer order r.response t)
    (hstatus : t.statusAt order.id = some .filled) :
    filledAt t order.id = some (.float order.quantity) := by
  cases h with
  | rejected _ hother => simp [hother] at hstatus
  | filled _ _ _ hquantity => exact hquantity
  | submitted _ _ hother => simp [hother] at hstatus
  | unrecorded hok hzero => exact absurd hzero (response_recorded hok)

end

instance : DecidableEq (OrderSendResult ℚ) := fun r r' =>
  decidable_of_iff (r.retcode = r'.retcode ∧ r.order = r'.order ∧ r.deal = r'.deal ∧
    r.volume = r'.volume ∧ r.hasAsdict = r'.hasAsdict) (by cases r; cases r'; simp)

/-- The submission of the sample order to a terminal that answers with `r`. -/
def submittedTo (r : OrderSendResult ℚ) : Except Exc (Order ℚ) × ServiceTrail ℚ :=
  ((submitOrder sampleOrder).link overMt5).play (serviceAnswers r) ⟨{ orders := sampleTable }, []⟩

/-- What holds of the played submission shows that there is such a run. -/
theorem exists_submitted (r : OrderSendResult ℚ) (check : Table ℚ → Prop)
    (hok : (submittedTo r).1.toOption.isSome = true)
    (hsent : serviceSent (submittedTo r).2.log = [r])
    (hcheck : check (submittedTo r).2.world.orders) :
    ∃ o t, Exec (serviceEnv ℚ) ⟨{ orders := sampleTable }, []⟩
        ((submitOrder sampleOrder).link overMt5) (.ok o) t ∧
      r ∈ serviceSent t.log ∧ check t.world.orders := by
  have hplay := Prog.play_sound (serviceAnswers_sound r)
    ((submitOrder sampleOrder).link overMt5) ⟨{ orders := sampleTable }, []⟩
  obtain ⟨o, ho⟩ : ∃ o, (submittedTo r).1 = .ok o := by
    cases hout : (submittedTo r).1 with
    | ok o => exact ⟨o, rfl⟩
    | error x => simp [hout, Except.toOption] at hok
  refine ⟨o, (submittedTo r).2, ?_, by rw [hsent]; exact List.mem_singleton_self r, hcheck⟩
  rw [← ho]
  exact hplay

/-- Half of the order is filled, and the whole quantity is stored as FILLED. -/
theorem submitOrder_not_always_fillRecorded :
    ¬ ∀ (order : Order ℚ) (w₀ : ServiceWorld ℚ) (o : Order ℚ) (t : ServiceTrail ℚ),
      Exec (serviceEnv ℚ) ⟨w₀, []⟩ ((submitOrder order).link overMt5) (.ok o) t →
        ∀ r ∈ serviceSent t.log, FillRecorded order r t.world.orders := by
  intro hall
  obtain ⟨o, t, hrun, hr, hstatus⟩ :=
    exists_submitted { retcode := 10012, order := 7, deal := 8, volume := 1 / 2 }
      (fun orders => orders.statusAt "o1" = some .filled)
      (by decide +kernel) (by decide +kernel) (by decide +kernel)
  have hpartial := ((hall _ _ _ _ hrun _ hr).part rfl).1
  rw [show sampleOrder.id = "o1" from rfl, hstatus] at hpartial
  cases hpartial

/-- The stored fill is the one the broker's return code stands for exactly if the
    code is not the partial fill's, and no other code that is accepted comes with a
    deal than the full fill's. -/
theorem fillRecorded_iff {order : Order F} {w₀ : ServiceWorld F} {o : Order F}
    {t : ServiceTrail F}
    (hrun : Exec (serviceEnv F) ⟨w₀, []⟩ ((submitOrder order).link overMt5) (.ok o) t)
    {r : OrderSendResult F} (hr : r ∈ serviceSent t.log) :
    FillRecorded order r t.world.orders ↔
      r.retcode ≠ 10012 ∧
        (r.retcode ∈ successCodes → r.payload.deal.getD 0 ≠ 0 → r.retcode = 10013) := by
  have hanswer : StoredAnswer order r.response t.world.orders :=
    hrun.sound (Q := fun out t => AnswerStored order out t)
      (wp_link (submitOrder_answerStored rfl)) o rfl r hr
  constructor
  · rintro ⟨hfull, hpart⟩
    refine ⟨fun hcode => hanswer.not_partial (hpart hcode).1, fun hcode hdeal => ?_⟩
    have hfilled := hanswer.filled_iff.mpr ⟨hcode, hdeal⟩
    exact (lookup_filledFully r.retcode).mp (hfull hfilled).1
  · rintro ⟨hpart, hfull⟩
    refine ⟨fun hstatus => ⟨?_, hanswer.filledAt hstatus⟩, fun hcode => absurd hcode hpart⟩
    obtain ⟨hcode, hdeal⟩ := hanswer.filled_iff.mp hstatus
    exact (lookup_filledFully r.retcode).mpr (hfull hcode hdeal)

/-- An order that the broker fills. -/
theorem fillRecorded_iff_filled :
    ∃ o t, Exec (serviceEnv ℚ) ⟨{ orders := sampleTable }, []⟩
        ((submitOrder sampleOrder).link overMt5) (.ok o) t ∧
      FillRecorded sampleOrder { retcode := 10013, order := 7, deal := 8, volume := 1 }
        t.world.orders ∧ t.world.orders.statusAt "o1" = some .filled := by
  obtain ⟨o, t, hrun, hr, hstatus⟩ :=
    exists_submitted { retcode := 10013, order := 7, deal := 8, volume := 1 }
      (fun orders => orders.statusAt "o1" = some .filled)
      (by decide +kernel) (by decide +kernel) (by decide +kernel)
  exact ⟨o, t, hrun, (fillRecorded_iff hrun hr).mpr ⟨by decide, fun _ _ => rfl⟩, hstatus⟩

end Mtrader.Service
