/-
  Mtrader.Service.Resubmission

  One order submitted again and again to an engine on an MT5 connector, over a
  repository whose calls may raise.

  Once the broker has accepted, a submission that finds the row still VALIDATED
  gets the connector's duplicate answer, which carries no result, and returns
  without storing anything; and a submission that the risk check refuses stores
  REJECTED.  Everything else keeps the row as far as the acceptance brought it.
-/

import Mtrader.Service.Mt5Service
import Mtrader.Execution.Repository

namespace Mtrader.Service

open Coroutine Py Mtrader.Execution Mtrader.Connectors Mtrader.Risk

variable {F : Type} [Prims F]

-- ============================================================================
-- The service as a repository
-- ============================================================================

section

variable {env : Env (ServiceWorld F) (Mt5ServiceAns F) Exc} {w w' : ServiceWorld F}

omit [Prims F] in
theorem serviceEnv_inr_orders {e : Mt5Op F} {a : Except Exc e.Ans}
    (h : serviceEnv F w (.inr e) a w') : w'.orders = w.orders := by
  cases e with
  | idempotencyGet id =>
      obtain ⟨-, rfl⟩ := h
      rfl
  | idempotencySet id ticket =>
      obtain ⟨-, rfl⟩ := h
      rfl
  | _ =>
      cases h
      rfl

omit [Prims F] in
theorem serviceEnv_inl_orders {e : EngineOp F} {a : Except Exc e.Ans}
    (he : e.writes = false) (h : serviceEnv F w (.inl e) a w') : w'.orders = w.orders := by
  cases e with
  | repoUpdateOrder id row => cases he
  | repoSaveOrder row => cases he
  | utcnow =>
      cases a with
      | ok now =>
          cases h
          rfl
      | error x => exact h.elim
  | repoGetOrder id =>
      cases a with
      | ok data =>
          obtain ⟨-, rfl⟩ := h
          rfl
      | error x =>
          cases h
          rfl
  | _ =>
      cases h
      rfl

omit [Prims F] in
theorem serviceEnv_inl_accepted {e : EngineOp F} {a : Except Exc e.Ans}
    (h : serviceEnv F w (.inl e) a w') : w'.accepted = w.accepted := by
  cases e with
  | utcnow =>
      cases a with
      | ok now =>
          cases h
          rfl
      | error x => exact h.elim
  | repoGetOrder id =>
      cases a with
      | ok data =>
          obtain ⟨-, rfl⟩ := h
          rfl
      | error x =>
          cases h
          rfl
  | repoUpdateOrder id row =>
      cases a with
      | ok _ =>
          cases h
          rfl
      | error x => rcases h with rfl | rfl <;> rfl
  | repoSaveOrder row =>
      obtain ⟨orders, saved, -, rfl, -⟩ := h
      rfl
  | _ =>
      cases h
      rfl

omit [Prims F] in
/-- To know the world after a connector call, reason about the connector. -/
theorem via_connector {R : Type} {p : Mt5M F R} {a : Except Exc R} {t t' : ServiceTrail F}
    {P : Except Exc R → ServiceWorld F → Prop} (h : Exec env t (connector p) a t')
    (hp : wp env.right p (fun out s => P out s.world) ⟨t.world, []⟩) : P a t'.world :=
  Exec.sound (Q := fun out s => P out s.world) h (wp_inr (t := ⟨t.world, []⟩) (l := t.log) hp)

omit [Prims F] in
/-- No call of the connector writes a row. -/
theorem connector_orders (henv : ∀ w e a w', env w e a w' → serviceEnv F w e a w') {R : Type}
    {p : Mt5M F R} {a : Except Exc R} {t t' : ServiceTrail F}
    (h : Exec env t (connector p) a t') : t'.world.orders = t.world.orders := by
  refine via_connector (P := fun _ w => w.orders = t.world.orders) h ?_
  refine wp_invariant (I := fun w : ServiceWorld F => w.orders = t.world.orders) ?_ p rfl
  exact fun w e a w' hI hstep => (serviceEnv_inr_orders (henv _ _ _ _ hstep)).trans hI

/-- The service keeps the orders table. -/
theorem service_repository (henv : ∀ w e a w', env w e a w' → serviceEnv F w e a w') :
    Repository (env.via overMt5) (fun t => t.world.orders) where
  get h := by
    obtain ⟨w', hstep, rfl⟩ := via_own rfl h
    exact (henv _ _ _ _ hstep).1
  update {t id row a t'} h := by
    obtain ⟨w', hstep, rfl⟩ := via_own rfl h
    have hstep := henv _ _ _ _ hstep
    cases a with
    | ok _ =>
        cases hstep
        exact .inl rfl
    | error x =>
        rcases hstep with rfl | rfl
        · exact .inr ⟨⟨x, rfl⟩, rfl⟩
        · exact .inl rfl
  keeps {t e a t'} he h := by
    have hown : overMt5 e = Prog.opInl e → t'.world.orders = t.world.orders := by
      intro hown
      obtain ⟨w', hstep, rfl⟩ := via_own hown h
      exact serviceEnv_inl_orders he (henv _ _ _ _ hstep)
    cases e with
    | getAccountInfo => exact connector_orders henv h
    | getPositions symbol => exact connector_orders henv h
    | executeOrder d => exact connector_orders henv h
    | cancelOrder id => exact connector_orders henv h
    | _ => exact hown rfl

end

-- ============================================================================
-- What the broker has accepted
-- ============================================================================

omit [Prims F] in
theorem serviceEnv_keepsLedger : KeepsLedger (serviceEnv F).right ServiceWorld.ledger where
  get h := ⟨h.1, congrArg ServiceWorld.ledger h.2⟩
  set h := ⟨h.1, congrArg ServiceWorld.ledger h.2⟩
  other {w e a w'} he h := by
    cases e with
    | idempotencyGet id => cases he
    | idempotencySet id ticket => cases he
    | orderSend req =>
        cases h
        rfl
    | _ => exact congrArg ServiceWorld.ledger h

/-- The broker's return codes in a connector's log say whether it has accepted. -/
def AcceptedAsSent (s : Mt5Trail (ServiceWorld F) F) : Prop :=
  s.world.accepted = (sentResults s.log).any fun r => decide (r.retcode ∈ successCodes)

omit [Prims F] in
theorem acceptedAsSent_step (s : Mt5Trail (ServiceWorld F) F) (e : Mt5Op F)
    (a : Except Exc e.Ans) (w' : ServiceWorld F) (hs : AcceptedAsSent s)
    (h : (serviceEnv F).right s.world e a w') : AcceptedAsSent (s.record e a w') := by
  have hsilent : sentResult ⟨s.world, e, a⟩ = none → w'.accepted = s.world.accepted →
      AcceptedAsSent (s.record e a w') := by
    intro hnone hsame
    rw [AcceptedAsSent, Trail.record_log, sentResults_cons_none hnone, Trail.record_world, hsame]
    exact hs
  cases e with
  | orderSend req =>
      have hw : w'.accepted = (s.world.accepted || acceptedAnswer a) :=
        congrArg ServiceWorld.accepted h
      match a, hw with
      | .error x, hw => exact hsilent rfl (hw.trans (Bool.or_false _))
      | .ok none, hw => exact hsilent rfl (hw.trans (Bool.or_false _))
      | .ok (some r), hw =>
          have hcons : sentResults (⟨s.world, .orderSend req, .ok (some r)⟩ :: s.log) =
              r :: sentResults s.log := sentResults_cons_some rfl
          rw [AcceptedAsSent, Trail.record_log, hcons, Trail.record_world, hw,
            List.any_cons, Bool.or_comm, hs]
          rfl
  | idempotencyGet id => exact hsilent rfl (congrArg ServiceWorld.accepted h.2)
  | idempotencySet id ticket =>
      obtain ⟨-, rfl⟩ := h
      exact hsilent rfl rfl
  | _ => exact hsilent rfl (congrArg ServiceWorld.accepted h)

/-- If the broker accepts during `execute_order`, the answer says so and carries a
    return code. -/
theorem executeOrder_accepted {d : OrderDict F} {a : Except Exc (BrokerResponse F)}
    {t t' : ServiceTrail F} (h : (serviceEnv F).via overMt5 t (.executeOrder d) a t')
    (hfresh : t.world.accepted = false) (haccepted : t'.world.accepted = true) :
    ∃ response, a = .ok response ∧ response.ok = true ∧
      (response.result.getD {}).retcode.getD 0 ≠ 0 := by
  refine via_connector (P := fun a w => w.accepted = true → ∃ response, a = .ok response ∧
    response.ok = true ∧ (response.result.getD {}).retcode.getD 0 ≠ 0) h ?_ haccepted
  refine wp_mono (wp_and
    (executeOrder_executed serviceEnv_keepsLedger d t.world)
    (wp_trail_invariant acceptedAsSent_step (executeOrder d) hfresh)) ?_
  rintro a s ⟨hexecuted, hsent⟩ hacc
  rw [AcceptedAsSent, hacc] at hsent
  cases hexecuted with
  | duplicate _ _ _ hnone _ => simp [hnone] at hsent
  | unanswered _ _ hnone _ => simp [hnone] at hsent
  | @answered r _ _ _ hone =>
      have hcode : r.retcode ∈ successCodes := by simpa [hone] using hsent.symm
      have hzero : r.retcode ≠ 0 := by
        rintro hzero
        rw [hzero] at hcode
        exact absurd hcode (by decide)
      have hpayload : r.payload.retcode = some r.retcode := by
        unfold OrderSendResult.payload
        split <;> rfl
      exact ⟨r.response, rfl, decide_eq_true hcode, by
        simpa [OrderSendResult.response, hpayload] using hzero⟩

omit [Prims F] in
/-- The other calls of the connector send nothing. -/
theorem query_accepted {R : Type} {p : Mt5M F R} (hp : p.Always (.only fun e => e.query = true))
    {a : Except Exc R} {t t' : ServiceTrail F} (h : Exec (serviceEnv F) t (connector p) a t') :
    t'.world.accepted = t.world.accepted := by
  refine via_connector (P := fun _ w => w.accepted = t.world.accepted) h ?_
  refine wp_mono ((hp ()).wp (J := fun _ s => s.world.accepted = t.world.accepted) rfl ?_)
    fun _ s ⟨_, hs, _⟩ => hs
  intro _ s e a w' hs he hstep
  cases e with
  | idempotencyGet id => cases he
  | idempotencySet id ticket => cases he
  | orderSend req => cases he
  | _ => exact (congrArg ServiceWorld.accepted hstep).trans hs

omit [Prims F] in
theorem getAccountInfo_query :
    (getAccountInfo (F := F)).Always (.only fun e => e.query = true) := by
  refine (Prog.always_op fun _ => rfl).bind fun info => ?_
  cases info <;> exact Prog.always_ret _

omit [Prims F] in
theorem getPositions_query (symbol : String) :
    (getPositions (F := F) symbol).Always (.only fun e => e.query = true) :=
  (Prog.always_op fun _ => rfl).bind fun _ => Prog.always_ret _

/-- Bookkeeping does not change what the broker has accepted. -/
theorem bookkeeping_accepted {R : Type} {p : EngineM F R} (hp : p.Always (bookkeepingOnly F))
    {s : EngineTrail F} {b : Bool} (hs : s.world.world.accepted = b) :
    wp ((serviceEnv F).via overMt5) p (fun _ s' => s'.world.world.accepted = b) s := by
  refine bookkeeping_via hp (J := fun t : ServiceTrail F => t.world.accepted = b) ?_ hs
  exact fun t e a w' ht _ hstep => (serviceEnv_inl_accepted hstep).trans ht

-- ============================================================================
-- The first accepted submission
-- ============================================================================

/-- What holds between submissions: an accepted order has a positive quantity and is
    stored at least as VALIDATED. -/
structure Standing (order : Order F) (w : ServiceWorld F) : Prop where
  quantity : w.accepted = true → Prims.le order.quantity (Prims.ofRat 0) = false
  stored : w.accepted = true →
    w.orders.StoredAs order.id [.validated, .submitted, .partial_, .filled]

/-- What holds after a submission: an accepted order is stored as SUBMITTED, PARTIAL
    or FILLED if the submission returned. -/
structure Kept (order : Order F) (out : Except Exc (Order F)) (w : ServiceWorld F) : Prop
    extends Standing order w where
  returned : w.accepted = true → ∀ r, out = .ok r →
    w.orders.StoredAs order.id [.submitted, .partial_, .filled]

section

variable {order : Order F} {out : Except Exc (Order F)} {w : ServiceWorld F}

theorem Standing.of_fresh (h : w.accepted = false) : Standing order w := by
  have hnot : w.accepted ≠ true := by simp [h]
  exact ⟨fun ha => absurd ha hnot, fun ha => absurd ha hnot⟩

theorem Kept.of_fresh (h : w.accepted = false) : Kept order out w :=
  ⟨.of_fresh h, fun ha => absurd ha (by simp [h])⟩

/-- A submission that raises promises nothing but the standing. -/
theorem Standing.raised (h : Standing order w) (x : Exc) : Kept order (.error x) w :=
  ⟨h, fun _ _ hr => nomatch hr⟩

end

/-- Bookkeeping while the broker has accepted nothing. -/
theorem bookkeeping_kept {order : Order F} {p : EngineM F (Order F)} {s : EngineTrail F}
    (hp : p.Always (bookkeepingOnly F)) (hfresh : s.world.world.accepted = false) :
    wp ((serviceEnv F).via overMt5) p (fun out s' => Kept order out s'.world.world) s :=
  wp_mono (bookkeeping_accepted hp hfresh) fun _ _ h => .of_fresh h

/-- A status is stored and the order is returned. -/
theorem updated_bookkeeping (order : Order F) (status : OrderStatus)
    (kwargs : List (OrderField F)) :
    (updateOrderStatus order.id status kwargs >>= fun _ => Prog.ret order).Always
      (bookkeepingOnly F) :=
  (updateOrderStatus_bookkeeping _ _ _).bind fun _ => Prog.always_ret order

/-- An operation that leaves the broker with nothing accepted. -/
theorem fresh_op_bind {order : Order F} {e : EngineOp F} {f : e.Ans → EngineM F (Order F)}
    {s : EngineTrail F} (hkeeps : ∀ a t', (serviceEnv F).via overMt5 s.world e a t' →
      t'.world.accepted = false)
    (hf : ∀ r t', t'.world.accepted = false → wp ((serviceEnv F).via overMt5) (f r)
      (fun out s' => Kept order out s'.world.world) (s.record e (.ok r) t')) :
    wp ((serviceEnv F).via overMt5) (engine e >>= f)
      (fun out s' => Kept order out s'.world.world) s := by
  refine wp_op_bind.mpr ⟨?_, ?_⟩
  · intro r t' hvia
    exact hf r t' (hkeeps _ _ hvia)
  · intro x t' hvia
    exact .of_fresh (hkeeps _ _ hvia)

theorem submitApproved_kept {order : Order F} {s : EngineTrail F}
    (hquantity : Prims.le order.quantity (Prims.ofRat 0) = false)
    (hfresh : s.world.world.accepted = false) :
    wp ((serviceEnv F).via overMt5) (submitApproved order)
      (fun out s' => Kept order out s'.world.world) s := by
  have hrepo : Repository ((serviceEnv F).via overMt5) (fun t => t.world.orders) :=
    service_repository fun _ _ _ _ h => h
  refine wp_seq (wp_and
    (updateOrderStatus_stores hrepo order.id .validated [])
    (bookkeeping_accepted (updateOrderStatus_bookkeeping _ _ _) hfresh)) ?_
    fun x s₁ ⟨_, h₁⟩ => .of_fresh h₁
  rintro _ s₁ ⟨hvalidated, hfresh₁⟩
  have hstatus₁ := hvalidated.statusAt_of_ok
  refine wp_own rfl (fun savedId w₂ hsave => ?_) fun x w₂ hsave =>
    .of_fresh ((serviceEnv_inl_accepted hsave).trans hfresh₁)
  have hfresh₂ : w₂.accepted = false := (serviceEnv_inl_accepted hsave).trans hfresh₁
  have hstatus₂ : w₂.orders.statusAt order.id = some .validated := by
    obtain ⟨orders, saved, hsaved, rfl, -⟩ := hsave
    exact hsaved.statusAt hstatus₁
  refine wp_seq (wp_and (emit_keeps hrepo .orderCreated _)
    (bookkeeping_accepted (emit_bookkeeping _ _) hfresh₂)) ?_
    fun x s₃ ⟨_, h₃⟩ => .of_fresh h₃
  rintro _ s₃ ⟨horders₃, hfresh₃⟩
  have hstatus₃ : s₃.world.world.orders.statusAt order.id = some .validated := by
    rw [horders₃]
    exact hstatus₂
  refine wp_op_bind.mpr ⟨fun response t₄ hvia => ?_, fun x t₄ hvia => ?_⟩
  swap
  · refine .of_fresh (Bool.eq_false_iff.mpr fun haccepted => ?_)
    obtain ⟨response, hx, -⟩ := executeOrder_accepted hvia hfresh₃ haccepted
    cases hx
  have hstatus₄ : t₄.world.orders.statusAt order.id = some .validated := by
    rw [show t₄.world.orders = s₃.world.world.orders from hrepo.keeps rfl hvia]
    exact hstatus₃
  cases haccepted : t₄.world.accepted with
  | false =>
      split
      next => exact bookkeeping_kept (updated_bookkeeping order _ _) haccepted
      next => exact bookkeeping_kept (recordAccepted_bookkeeping order response) haccepted
  | true =>
      obtain ⟨response', hresponse, hok, hretcode⟩ := executeOrder_accepted hvia hfresh₃ haccepted
      cases hresponse
      rw [hok]
      refine wp_mono (recordAccepted_wp hrepo hstatus₄ hretcode) fun out s' ⟨hstored, hret⟩ => ?_
      refine ⟨⟨fun _ => hquantity, fun _ => hstored.mono (by simp)⟩, fun _ r hr => ?_⟩
      exact (hret r hr).mono (by simp)

/-- A submission of an order that the broker has not accepted. -/
theorem submitOrder_kept {order : Order F} {t : ServiceTrail F}
    (hfresh : t.world.accepted = false) :
    wp ((serviceEnv F).via overMt5) (submitOrder order)
      (fun out s => Kept order out s.world.world) ⟨t, []⟩ := by
  have hown : ∀ {e : EngineOp F} {a : Except Exc e.Ans} {t t' : ServiceTrail F},
      overMt5 e = Prog.opInl e → (serviceEnv F).via overMt5 t e a t' →
        t.world.accepted = false → t'.world.accepted = false := by
    intro e a t t' he hvia h
    obtain ⟨w', hstep, rfl⟩ := via_own he hvia
    exact (serviceEnv_inl_accepted hstep).trans h
  refine withLock_wp (P := fun out s => Kept order out s.world.world)
    (fun t₁ hacquire => ?_) (fun x t₁ hacquire => .of_fresh (hown rfl hacquire hfresh))
    (fun out s t₁ hkept hrelease => ?_) fun out s x t₁ hkept hrelease => ?_
  · have hfresh₁ : t₁.world.accepted = false := hown rfl hacquire hfresh
    unfold submitLocked
    split
    next => exact .of_fresh hfresh₁
    next =>
      split
      next => exact bookkeeping_kept (updated_bookkeeping order _ _) hfresh₁
      next hquantity =>
        apply fresh_op_bind
        · intro a t₂ hinfo
          exact (query_accepted getAccountInfo_query hinfo).trans hfresh₁
        intro info t₂ hfresh₂
        apply fresh_op_bind
        · intro a t₃ hrows
          exact (query_accepted (getPositions_query _) hrows).trans hfresh₂
        intro rows t₃ hfresh₃
        apply fresh_op_bind
        · intro a t₄ hcheck
          exact hown rfl hcheck hfresh₃
        intro approval t₄ hfresh₄
        split
        next => exact bookkeeping_kept (updated_bookkeeping order _ _) hfresh₄
        next => exact submitApproved_kept (by simpa using hquantity) hfresh₄
  · obtain ⟨w', hstep, rfl⟩ := via_own rfl hrelease
    cases hstep
    exact hkept
  · obtain ⟨w', hstep, rfl⟩ := via_own rfl hrelease
    cases hstep
    exact hkept.toStanding.raised x

-- ============================================================================
-- A sequence of submissions
-- ============================================================================

/-- The risk check refused. -/
def riskRefuses : Event (ServiceWorld F) (Mt5ServiceAns F) Exc → Bool
  | ⟨_, .inl (.preTradeCheck _ _ _), .ok approval⟩ => !approval.approved
  | _ => false

/-- One finished submission. -/
abbrev SubmitCall (F : Type) : Type :=
  Call Unit (ServiceWorld F) (Mt5ServiceAns F) Exc (Order F)

/-- If the broker has accepted the order before, its row is past VALIDATED, and the
    risk check does not refuse it while its row may become REJECTED. -/
def Resubmittable (order : Order F) (c : SubmitCall F) : Prop :=
  c.pre.accepted = true → ∀ s ∈ c.pre.orders.statusAt order.id,
    s ≠ .validated ∧ (CanBecome s .rejected → ∀ ev ∈ c.log, riskRefuses ev = false)

instance (order : Order F) (c : SubmitCall F) : Decidable (Resubmittable order c) :=
  inferInstanceAs (Decidable (c.pre.accepted = true → ∀ s ∈ c.pre.orders.statusAt order.id, _))

/-- `submit_order(order)` on the service, again and again. -/
abbrev resubmit (order : Order F) : Unit → Mt5ServiceM F (Order F) :=
  fun _ => (submitOrder order).link overMt5

variable {order : Order F} {w₀ w : ServiceWorld F} {cs : List (SubmitCall F)}

/-- A resubmission of an accepted order, where that is safe, raises and leaves its
    row. -/
theorem resubmit_refused {c : SubmitCall F} (hstanding : Standing order c.pre)
    (haccepted : c.pre.accepted = true) (hcond : Resubmittable order c)
    (hex : Exec (serviceEnv F) ⟨c.pre, []⟩ (resubmit order ()) c.out ⟨c.post, c.log⟩) :
    (∃ x, c.out = .error x) ∧ c.post.orders = c.pre.orders := by
  obtain ⟨s, hs, hstatus⟩ := hstanding.stored haccepted
  obtain ⟨hpast, hrisk⟩ := hcond haccepted s hstatus
  have hvalidated : ∀ s ∈ [OrderStatus.validated, .submitted, .partial_, .filled],
      s ≠ .validated → ¬ CanBecome s .validated := by decide
  have hex' := hex.restrict
    (P := fun ev => CanBecome s .rejected → riskRefuses ev = false)
    fun ev hev hcan => hrisk hcan ev hev
  refine hex'.sound (Q := fun out t' => (∃ x, out = .error x) ∧ t'.world.orders = c.pre.orders)
    (wp_link (submitOrder_refused (service_repository fun _ _ _ _ h => h.1)
      (hstanding.quantity haccepted) hstatus (hvalidated s hs hpast) ?_))
  intro t d info rows approval t' hvia happroved hcan
  obtain ⟨w', ⟨-, hP⟩, rfl⟩ := via_own rfl hvia
  have hrefuses := hP hcan
  simp [riskRefuses, happroved] at hrefuses

/-- Between safe submissions, an accepted order keeps what its acceptance stored. -/
theorem kept_of_serial (h₀ : w₀.accepted = false)
    (hrun : Serial (serviceEnv F) (resubmit order) w₀ cs w)
    (hcond : ∀ c ∈ cs, Resubmittable order c) :
    Standing order w ∧ ∀ c ∈ cs, Kept order c.out c.post := by
  refine hrun.invariant (I := fun cs w => (∀ c ∈ cs, Resubmittable order c) →
    Standing order w ∧ ∀ c ∈ cs, Kept order c.out c.post)
    (fun _ => ⟨.of_fresh h₀, fun _ hc => nomatch hc⟩) ?_ hcond
  intro cs w u out t' _ ih hex hcond
  obtain ⟨hstanding, hall⟩ := ih fun c hc => hcond c (List.mem_cons_of_mem _ hc)
  have hnew : Kept order out t'.world := by
    cases haccepted : w.accepted with
    | false =>
        exact hex.sound (Q := fun out t' => Kept order out t'.world)
          (wp_link (submitOrder_kept haccepted))
    | true =>
        obtain ⟨⟨x, hx⟩, hsame⟩ := resubmit_refused (c := ⟨u, w, t'.log, out, t'.world⟩)
          hstanding haccepted (hcond _ List.mem_cons_self) hex
        cases hx
        refine Standing.raised ⟨fun _ => hstanding.quantity haccepted, fun _ => ?_⟩ x
        rw [show t'.world.orders = w.orders from hsame]
        exact hstanding.stored haccepted
  refine ⟨hnew.toStanding, fun c hc => ?_⟩
  rcases List.mem_cons.mp hc with rfl | hc
  · exact hnew
  · exact hall c hc

-- ============================================================================
-- An accepted order that stays VALIDATED
-- ============================================================================

/-- Collaborators that succeed, but for the update that stores SUBMITTED. -/
def losingAnswers (r : OrderSendResult ℚ) : Answers (ServiceWorld ℚ) (Mt5ServiceAns ℚ) Exc :=
  fun w e =>
    match e with
    | .inl (.repoUpdateOrder id row) =>
        if statusOf row = some .submitted then (.error (.external "connection lost"), w)
        else serviceAnswers r w (.inl (.repoUpdateOrder id row))
    | e => serviceAnswers r w e

theorem losingAnswers_sound (r : OrderSendResult ℚ) (w : ServiceWorld ℚ) (e : Mt5ServiceOp ℚ) :
    serviceEnv ℚ w e (losingAnswers r w e).1 (losingAnswers r w e).2 := by
  unfold losingAnswers
  split
  next id row =>
    split
    next => exact .inl rfl
    next => exact serviceAnswers_sound r w _
  next => exact serviceAnswers_sound r w e

/-- The update to SUBMITTED is lost, and the resubmission returns with the row as it
    was. -/
theorem submitOrder_not_always_kept :
    ¬ ∀ (order : Order ℚ) (w₀ w : ServiceWorld ℚ) (cs : List (SubmitCall ℚ)),
      w₀.accepted = false → Serial (serviceEnv ℚ) (resubmit order) w₀ cs w →
        ∀ c ∈ cs, ∀ r, c.out = .ok r → c.post.accepted = true →
          c.post.orders.StoredAs order.id [.submitted, .partial_, .filled] := by
  intro hall
  have hrun : ∃ c older w, Serial (serviceEnv ℚ) (resubmit sampleOrder) { orders := sampleTable }
        (c :: older) w ∧
      c.out.toOption.isSome = true ∧ c.post.accepted = true ∧
      c.post.orders.statusAt "o1" = some .validated :=
    exists_serial (losingAnswers_sound { retcode := 10009, order := 7, deal := 8, volume := 1 })
      [(), ()] _ (by decide +kernel)
  obtain ⟨c, older, w, hserial, hout, haccepted, hstatus⟩ := hrun
  obtain ⟨r, hr⟩ : ∃ r, c.out = .ok r := by
    cases hc : c.out with
    | ok r => exact ⟨r, rfl⟩
    | error x => simp [hc, Except.toOption] at hout
  obtain ⟨s, hs, hstored⟩ := hall sampleOrder _ w _ rfl hserial c List.mem_cons_self r hr haccepted
  rw [show sampleOrder.id = "o1" from rfl, hstatus] at hstored
  cases hstored
  exact absurd hs (by decide)

/-- In every sequence of safe submissions of one order, whenever a submission
    returns and the broker has accepted the order, it is stored as SUBMITTED,
    PARTIAL or FILLED. -/
theorem submitOrder_keeps_accepted (h₀ : w₀.accepted = false)
    (hrun : Serial (serviceEnv F) (resubmit order) w₀ cs w)
    (hcond : ∀ c ∈ cs, Resubmittable order c) {c : SubmitCall F} (hc : c ∈ cs) {r : Order F}
    (hout : c.out = .ok r) (haccepted : c.post.accepted = true) :
    c.post.orders.StoredAs order.id [.submitted, .partial_, .filled] :=
  ((kept_of_serial h₀ hrun hcond).2 c hc).returned haccepted r hout

/-- A filled order that is submitted once more. -/
theorem submitOrder_keeps_accepted_filled :
    ∃ cs w, Serial (serviceEnv ℚ) (resubmit sampleOrder) { orders := sampleTable } cs w ∧
      cs.length = 2 ∧ ∃ c ∈ cs, c.post.accepted = true ∧
        c.post.orders.StoredAs "o1" [.submitted, .partial_, .filled] := by
  have hrun : ∃ c older w, Serial (serviceEnv ℚ) (resubmit sampleOrder) { orders := sampleTable }
        (c :: older) w ∧
      (∀ d ∈ c :: older, Resubmittable sampleOrder d) ∧ (c :: older).length = 2 ∧
      ∃ d ∈ older, d.out.toOption.isSome = true ∧ d.post.accepted = true :=
    exists_serial (serviceAnswers_sound { retcode := 10009, order := 7, deal := 8, volume := 1 })
      [(), ()] _ (by decide +kernel)
  obtain ⟨c, older, w, hserial, hcond, hlength, d, hd, hout, haccepted⟩ := hrun
  obtain ⟨r, hr⟩ : ∃ r, d.out = .ok r := by
    cases hc : d.out with
    | ok r => exact ⟨r, rfl⟩
    | error x => simp [hc, Except.toOption] at hout
  have hd : d ∈ c :: older := List.mem_cons_of_mem _ hd
  exact ⟨_, w, hserial, hlength, d, hd, haccepted,
    submitOrder_keeps_accepted rfl hserial hcond hd hr haccepted⟩

end Mtrader.Service
