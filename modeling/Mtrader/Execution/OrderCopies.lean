/-
  Mtrader.Execution.OrderCopies

  The copies of one order: the object that is submitted, the hydrated copy that
  `update_order_status` changes, and the stored row.

  A status update announces the row it has stored, and `order_created` the row
  that `save_order` has stored; but no status is written back to the submitted
  object, nor to the copy that `cancel_order` announces.
-/

import Mtrader.Execution.Repository

namespace Mtrader.Execution

open Coroutine Py Mtrader.Connectors Mtrader.Risk

variable {F : Type}

-- ============================================================================
-- Rows and copies
-- ============================================================================

/-- Every row is stored under its own id. -/
def WellKeyed (t : Table F) : Prop :=
  ∀ id row, t id = some row → row .id = some (.str id)

theorem WellKeyed.put {t : Table F} (h : WellKeyed t) {id : String} {row : OrderDict F}
    (hid : row .id = some (.str id)) : WellKeyed (t.put id row) := by
  intro id' row' hrow
  by_cases heq : id' = id
  · subst heq
    rw [Table.put_self] at hrow
    cases hrow
    exact hid
  · rw [Table.put_other t row heq] at hrow
    exact h id' row' hrow

/-- The payload has the status and the filled quantity of the row stored for its
    order id. -/
def InStep (t : Table F) (payload : OrderDict F) : Prop :=
  ∃ id row, payload .id = some (.str id) ∧ t id = some row ∧
    payload .status = row .status ∧ payload .filledQuantity = row .filledQuantity

/-- A stored row is in step with itself. -/
theorem inStep_of_stored {t : Table F} {id : String} {row : OrderDict F}
    (hid : row .id = some (.str id)) (hrow : t id = some row) : InStep t row :=
  ⟨id, row, hid, hrow, rfl, rfl⟩

theorem InStep.statusAt {t : Table F} {o : Order F} (h : InStep t o.toDict) :
    t.statusAt o.id = some o.status := by
  obtain ⟨id, row, hid, hrow, hstatus, -⟩ := h
  cases hid
  have hof : statusOf row = statusOf o.toDict := by
    unfold statusOf
    rw [hstatus]
  rw [Table.statusAt, hrow, Option.bind_some, hof, statusOf_toDict]

-- ============================================================================
-- Calls over a table
-- ============================================================================

/-- Collaborators of an engine on a repository that stores exactly the rows written
    to it, by `save_order` under the row's id as by `update_order`, or raises before
    or after storing. -/
def tableEnv (F : Type) : Env (Table F) (EngineOp.Ans (F := F)) Exc :=
  fun w e a w' =>
    match e, a with
    | .repoGetOrder id, .ok data => data = w id ∧ w' = w
    | .repoUpdateOrder id row, .ok _ => w' = w.put id row
    | .repoUpdateOrder id row, .error _ => w' = w ∨ w' = w.put id row
    | .repoSaveOrder row, .ok id => row .id = some (.str id) ∧ w' = w.put id row
    | .repoSaveOrder row, .error _ => w' = w ∨ ∃ id, row .id = some (.str id) ∧ w' = w.put id row
    | _, _ => w' = w

/-- A call of `POST /orders`, `submit_order` or `cancel_order`. -/
inductive OrderCall (F : Type)
  | post (order : Order F)
  | submit (order : Order F)
  | cancel (orderId : String)

/-- The order a call submits. -/
def OrderCall.order? : OrderCall F → Option (Order F)
  | .post order => some order
  | .submit order => some order
  | .cancel _ => none

/-- The program of a call; `POST /orders` answers with the order it has made. -/
def OrderCall.prog [Prims F] : OrderCall F → EngineM F (EngineResult F)
  | .post order => do
      let _ ← engine (.repoSaveOrder order.toDict)
      let _ ← submitOrder order
      return .order order
  | .submit order => do return .order (← submitOrder order)
  | .cancel orderId => do return .flag (← cancelOrder orderId)

/-- The row of the order the call submits may become REJECTED. -/
def Rejectable (call : OrderCall F) (t : Table F) : Prop :=
  ∃ order, call.order? = some order ∧ ∃ s, t.statusAt order.id = some s ∧ CanBecome s .rejected

/-- No answer in the event makes the call store a refusal or a cancellation: the order
    has a positive quantity and passes the risk check, or its row cannot become
    REJECTED; the broker does not refuse it, and cancels nothing. -/
def Unrefused [Prims F] (call : OrderCall F) :
    Event (Table F) (EngineOp.Ans (F := F)) Exc → Prop
  | ⟨t, .acquire, _⟩ => Rejectable call t →
      ∀ order, call.order? = some order → Prims.le order.quantity (Prims.ofRat 0) = false
  | ⟨t, .preTradeCheck _ _ _, .ok approval⟩ => Rejectable call t → approval.approved = true
  | ⟨_, .executeOrder _, .ok response⟩ => response.ok = true
  | ⟨_, .cancelOrder _, .ok canceled⟩ => canceled = false
  | _ => True

/-- The environment of a call in which nothing is refused. -/
abbrev calmEnv [Prims F] (call : OrderCall F) : Env (Table F) (EngineOp.Ans (F := F)) Exc :=
  (tableEnv F).restrict (Unrefused call)

section

variable [Prims F] {call : OrderCall F} {t : Trail (Table F) (EngineOp.Ans (F := F)) Exc}

theorem calmEnv_repository : Repository (calmEnv call) fun w => w where
  get h := h.1.1
  update {w id row a w'} h := by
    obtain ⟨h, -⟩ := h
    cases a with
    | ok _ => exact .inl h
    | error x =>
        rcases h with hsame | hput
        · exact .inr ⟨⟨x, rfl⟩, hsame⟩
        · exact .inl hput
  keeps {w e a w'} he h := by
    obtain ⟨h, -⟩ := h
    cases e with
    | repoUpdateOrder id row => cases he
    | repoSaveOrder row => cases he
    | repoGetOrder id =>
        cases a with
        | ok data => exact h.2
        | error x => exact h
    | _ => exact h

/-- Everything announced so far was in step, and the rows are well keyed. -/
structure Synced (t : Trail (Table F) (EngineOp.Ans (F := F)) Exc) : Prop where
  announced : Announced (fun w => w) InStep t
  keyed : WellKeyed t.world

omit [Prims F] in
/-- Nothing is announced and nothing stored. -/
theorem Synced.quiet (h : Synced t) {e : EngineOp F} (he : e.announces = false)
    (a : Except Exc e.Ans) {w' : Table F} (hw : w' = t.world) : Synced (t.record e a w') :=
  ⟨h.announced.quiet he a w', by
    rw [Trail.record_world, hw]
    exact h.keyed⟩

theorem Hydrated.id {table : Table F} {id : String} {order : Order F}
    (h : Hydrated table id order) (hkeyed : WellKeyed table) : order.id = id := by
  obtain ⟨data, nowC, nowU, hdata, hhydrate⟩ := h
  have hid := idOf_of_hydrate hhydrate
  rw [hkeyed id data hdata] at hid
  cases hid
  rfl

/-- A status update keeps the copies in step. -/
theorem updateOrderStatus_synced {id : String} {status : OrderStatus}
    {kwargs : List (OrderField F)}
    (hkwargs : ∀ o : Order F, (kwargs.foldl Order.setattr o).id = o.id) (h : Synced t) :
    wp (calmEnv call) (updateOrderStatus id status kwargs)
      (fun out t' => Synced t' ∧ StatusUpdate t.world id status kwargs out t'.world) t := by
  have hid : ∀ order now, Hydrated t.world id order →
      (order.updated status kwargs now).toDict .id = some (.str id) := by
    intro order now hread
    have hrow : (order.updated status kwargs now).toDict .id =
        some (.str (order.updated status kwargs now).id) := rfl
    rw [hrow, Order.updated, hkwargs, hread.id h.keyed]
  refine wp_mono (updateOrderStatus_wp calmEnv_repository id status kwargs h.announced
    fun order now hread => inStep_of_stored (hid order now hread) (Table.put_self _ _ _)) ?_
  rintro out t' ⟨hann, hupdate⟩
  refine ⟨⟨hann, ?_⟩, hupdate⟩
  generalize t'.world = table at hupdate
  cases hupdate with
  | stored hread _ => exact h.keyed.put (hid _ _ hread)
  | raised x => exact h.keyed

/-- An update to a status that the stored row cannot take, and the rest of a call. -/
theorem refused_synced {R : Type} {id : String} {status : OrderStatus}
    {kwargs : List (OrderField F)} {f : Unit → EngineM F R}
    {Q : Except Exc R → Trail (Table F) (EngineOp.Ans (F := F)) Exc → Prop}
    (hkwargs : ∀ o : Order F, (kwargs.foldl Order.setattr o).id = o.id) (h : Synced t)
    (hstatus : ∀ s, t.world.statusAt id = some s → ¬ CanBecome s status)
    (hQ : ∀ x t', Synced t' → Q (.error x) t') :
    wp (calmEnv call) (updateOrderStatus id status kwargs >>= f) Q t := by
  refine wp_seq (updateOrderStatus_synced hkwargs h) (fun _ t' ⟨_, hupdate⟩ => ?_)
    fun x t' ⟨hsynced, _⟩ => hQ x t' hsynced
  obtain ⟨⟨x, hx⟩, -⟩ := hupdate.refused hstatus
  cases hx

-- ============================================================================
-- One call
-- ============================================================================

/-- What holds after a call: a returned order is in step as well. -/
structure Returned (out : Except Exc (EngineResult F))
    (t : Trail (Table F) (EngineOp.Ans (F := F)) Exc) : Prop extends Synced t where
  returned : ∀ o, out = .ok (.order o) → InStep t.world o.toDict

omit [Prims F] in
theorem Synced.raised (h : Synced t) (x : Exc) : Returned (.error x) t :=
  ⟨h, fun _ ho => nomatch ho⟩

/-- What holds after a submission: if it returns, then the submitted order, which is
    in step. -/
structure Submitted (order : Order F) (out : Except Exc (Order F))
    (t : Trail (Table F) (EngineOp.Ans (F := F)) Exc) : Prop extends Synced t where
  returned : ∀ o, out = .ok o → o = order ∧ InStep t.world order.toDict

omit [Prims F] in
theorem Synced.unsubmitted (h : Synced t) {order : Order F} (x : Exc) :
    Submitted order (.error x) t :=
  ⟨h, fun _ ho => nomatch ho⟩

/-- An operation of a submission that neither announces nor stores anything. -/
theorem Synced.op_bind {order : Order F} {e : EngineOp F} {f : e.Ans → EngineM F (Order F)}
    (h : Synced t) (he : e.announces = false)
    (hsame : ∀ a w', calmEnv call t.world e a w' → w' = t.world)
    (hf : ∀ r, calmEnv call t.world e (.ok r) t.world → Synced (t.record e (.ok r) t.world) →
      wp (calmEnv call) (f r) (Submitted order) (t.record e (.ok r) t.world)) :
    wp (calmEnv call) (engine e >>= f) (Submitted order) t := by
  refine wp_op_bind.mpr ⟨?_, ?_⟩
  · intro r w' henv
    obtain rfl : w' = t.world := hsame _ _ henv
    exact hf r henv (h.quiet he _ rfl)
  · intro x w' henv
    exact (h.quiet he _ (hsame _ _ henv)).unsubmitted x

/-- After an acceptance the row is the saved one, which is still PENDING. -/
theorem submitApproved_synced {order : Order F} (hpending : order.status = .pending)
    (h : Synced t) : wp (calmEnv call) (submitApproved order) (Submitted order) t := by
  refine wp_seq (updateOrderStatus_synced (fun _ => rfl) h) (fun _ t₁ ⟨h₁, _⟩ => ?_)
    fun x t₁ ⟨h₁, _⟩ => h₁.unsubmitted x
  refine wp_op_bind.mpr ⟨fun savedId w₂ hsave => ?_, fun x w₂ hsave => ?_⟩
  swap
  · have hkeyed : WellKeyed w₂ := by
      rcases hsave.1 with rfl | ⟨id, hid, rfl⟩
      · exact h₁.keyed
      · exact h₁.keyed.put hid
    exact Synced.unsubmitted ⟨h₁.announced.quiet rfl _ _, hkeyed⟩ x
  obtain ⟨⟨hid, rfl⟩, -⟩ := hsave
  cases hid
  have h₂ : Synced (t₁.record (.repoSaveOrder order.toDict) (.ok order.id)
      (t₁.world.put order.id order.toDict)) :=
    ⟨h₁.announced.quiet rfl _ _, h₁.keyed.put rfl⟩
  have hstored : InStep (t₁.world.put order.id order.toDict) order.toDict :=
    inStep_of_stored rfl (Table.put_self _ _ _)
  refine wp_seq (emit_wp calmEnv_repository .orderCreated h₂.announced hstored)
    (fun _ t₃ ⟨hann₃, hsame₃⟩ => ?_) fun x t₃ ⟨hann₃, hsame₃⟩ =>
      Synced.unsubmitted ⟨hann₃, hsame₃ ▸ h₂.keyed⟩ x
  have h₃ : Synced t₃ := ⟨hann₃, hsame₃ ▸ h₂.keyed⟩
  refine h₃.op_bind rfl (fun _ _ henv => henv.1) fun response hsend h₄ => ?_
  have hok : response.ok = true := hsend.2
  have hrow₃ : t₃.world order.id = some order.toDict := by
    rw [hsame₃]
    exact Table.put_self _ _ _
  rw [hok]
  simp only [recordAccepted, Bool.not_true, Bool.false_eq_true, if_false]
  split
  next =>
    refine h₄.op_bind rfl (fun _ _ henv => henv.1) fun openedAt _ h₅ => ?_
    refine refused_synced (fun _ => rfl) h₅ (fun s hs => ?_) fun x t' h' => h'.unsubmitted x
    have hstatus : t₃.world.statusAt order.id = some .pending := by
      rw [Table.statusAt, hrow₃, Option.bind_some, statusOf_toDict, hpending]
    cases hstatus.symm.trans hs
    decide
  next => exact ⟨h₄, fun _ ho => ⟨(Except.ok.inj ho).symm, inStep_of_stored rfl hrow₃⟩⟩

/-- A submission in which nothing is refused. -/
theorem submitOrder_synced {order : Order F} (hcall : call.order? = some order) (h : Synced t) :
    wp (calmEnv call) (submitOrder order) (Submitted order) t := by
  refine withLock_wp (P := Submitted order) (fun w₁ hacquire => ?_)
    (fun x w₁ hacquire => (h.quiet rfl _ hacquire.1).unsubmitted x)
    (fun out t' w' hsub hrelease => ?_) fun out t' x w' hsub hrelease =>
      (hsub.toSynced.quiet rfl _ hrelease.1).unsubmitted x
  swap
  · refine ⟨hsub.toSynced.quiet rfl _ hrelease.1, fun o ho => ?_⟩
    have hsame : w' = t'.world := hrelease.1
    rw [Trail.record_world, hsame]
    exact hsub.returned o ho
  obtain ⟨hsame₁, hquantity⟩ := hacquire
  have hsame₁ : w₁ = t.world := hsame₁
  have h₁ : Synced (t.record .acquire (.ok ()) w₁) := h.quiet rfl _ hsame₁
  unfold submitLocked
  split
  next => exact h₁.unsubmitted _
  next hpending =>
    have hpending : order.status = .pending := not_not.mp hpending
    split
    next hnegative =>
      refine refused_synced (fun _ => rfl) h₁ (fun s hs hcan => ?_) fun x t' h' => h'.unsubmitted x
      rw [Trail.record_world, hsame₁] at hs
      have hpositive := hquantity ⟨order, hcall, s, hs, hcan⟩ order hcall
      rw [hpositive] at hnegative
      cases hnegative
    next =>
      refine h₁.op_bind rfl (fun _ _ henv => henv.1) fun info _ h₂ => ?_
      refine h₂.op_bind rfl (fun _ _ henv => henv.1) fun rows _ h₃ => ?_
      refine h₃.op_bind rfl (fun _ _ henv => henv.1) fun approval hcheck h₄ => ?_
      split
      next hrefused =>
        refine refused_synced (fun _ => rfl) h₄ (fun s hs hcan => ?_)
          fun x t' h' => h'.unsubmitted x
        have happroved : approval.approved = true := hcheck.2 ⟨order, hcall, s, hs, hcan⟩
        rw [happroved] at hrefused
        cases hrefused
      next => exact submitApproved_synced hpending h₄

/-- A cancel that the connector does not carry out announces and stores nothing. -/
theorem cancelOrder_synced (id : String) (h : Synced t) :
    wp (calmEnv call) (cancelOrder id) (fun _ t' => Synced t') t := by
  refine wp_seq (getOrder_wp calmEnv_repository id h.announced)
    (fun found t₁ ⟨hann₁, hsame₁, _⟩ => ?_) fun x t₁ ⟨hann₁, hsame₁, _⟩ =>
      ⟨hann₁, (show t₁.world = t.world from hsame₁) ▸ h.keyed⟩
  have h₁ : Synced t₁ := ⟨hann₁, (show t₁.world = t.world from hsame₁) ▸ h.keyed⟩
  cases found with
  | none => exact h₁
  | some order =>
      simp only
      split
      next => exact h₁
      next =>
        refine wp_op_bind.mpr ⟨fun canceled w₂ hcancel => ?_, fun x w₂ hcancel =>
          h₁.quiet rfl _ hcancel.1⟩
        obtain ⟨hsame₂, hnot⟩ := hcancel
        have hnot : canceled = false := hnot
        rw [hnot]
        exact h₁.quiet rfl _ hsame₂

theorem prog_returned (call : OrderCall F) (h : Synced t) :
    wp (calmEnv call) call.prog Returned t := by
  cases call with
  | post order =>
      refine wp_op_bind.mpr ⟨fun savedId w₁ hsave => ?_, fun x w₁ hsave => ?_⟩
      · obtain ⟨⟨hid, rfl⟩, -⟩ := hsave
        have h₁ : Synced (t.record (.repoSaveOrder order.toDict) (.ok savedId)
            (t.world.put savedId order.toDict)) :=
          ⟨h.announced.quiet rfl _ _, h.keyed.put hid⟩
        refine wp_seq (submitOrder_synced rfl h₁) (fun r t₂ hsub => ?_)
          fun x t₂ hsub => hsub.toSynced.raised x
        refine ⟨hsub.toSynced, fun o ho => ?_⟩
        cases ho
        exact (hsub.returned r rfl).2
      · refine Synced.raised ⟨h.announced.quiet rfl _ _, ?_⟩ x
        rcases hsave.1 with rfl | ⟨id, hid, rfl⟩
        · exact h.keyed
        · exact h.keyed.put hid
  | submit order =>
      refine wp_seq (submitOrder_synced rfl h) (fun r t₁ hsub => ?_)
        fun x t₁ hsub => hsub.toSynced.raised x
      refine ⟨hsub.toSynced, fun o ho => ?_⟩
      cases ho
      obtain ⟨rfl, hstep⟩ := hsub.returned _ rfl
      exact hstep
  | cancel id =>
      refine wp_seq (cancelOrder_synced id h) (fun canceled t₁ h₁ => ?_)
        fun x t₁ h₁ => h₁.raised x
      exact ⟨h₁, fun o ho => nomatch ho⟩

end

-- ============================================================================
-- A run of calls
-- ============================================================================

/-- One finished call. -/
abbrev CopiesCall (F : Type) : Type :=
  Call (OrderCall F) (Table F) (EngineOp.Ans (F := F)) Exc (EngineResult F)

/-- Everything the call announced was in step, and so is the order it returns. -/
structure CopiesInStep (c : CopiesCall F) : Prop where
  announced : ∀ ev ∈ c.log, ∀ event payload, ev.op = .callbacks event payload →
    InStep ev.pre payload
  returned : ∀ o, c.out = .ok (.order o) → InStep c.post o.toDict

variable [Prims F]

/-- Nothing is refused during the call. -/
def NothingRefused (c : CopiesCall F) : Prop := ∀ ev ∈ c.log, Unrefused c.call ev

/-- Collaborators that answer at once, with the given answers of the risk check and
    the broker; no cancel is carried out. -/
def tableAnswers (approval : TradeApproval) (response : BrokerResponse ℚ) :
    Answers (Table ℚ) (EngineOp.Ans (F := ℚ)) Exc :=
  fun w e =>
    match e with
    | .acquire => (.ok (), w)
    | .release => (.ok (), w)
    | .utcnow => (.ok 0, w)
    | .getAccountInfo => (.ok Dict.empty, w)
    | .getPositions _ => (.ok [], w)
    | .executeOrder _ => (.ok response, w)
    | .cancelOrder _ => (.ok false, w)
    | .preTradeCheck _ _ _ => (.ok approval, w)
    | .repoGetOrder id => (.ok (w id), w)
    | .repoUpdateOrder id row => (.ok (), w.put id row)
    | .repoSaveOrder row =>
        match row .id with
        | some (.str id) => (.ok id, w.put id row)
        | _ => (.error (.keyError "id"), w)
    | .callbacks _ _ => (.ok [], w)
    | .invoke _ payload => (.ok { payload }, w)

theorem tableAnswers_sound (approval : TradeApproval) (response : BrokerResponse ℚ)
    (w : Table ℚ) (e : EngineOp ℚ) :
    tableEnv ℚ w e (tableAnswers approval response w e).1
      (tableAnswers approval response w e).2 := by
  cases e with
  | repoGetOrder id => exact ⟨rfl, rfl⟩
  | repoSaveOrder row =>
      simp only [tableAnswers]
      split
      next id hid => exact ⟨hid, rfl⟩
      next => exact .inl rfl
  | _ => exact rfl

/-- The order that a call returned. -/
def returnedOrder (c : CopiesCall F) : Option (Order F) :=
  match c.out with
  | .ok (.order o) => some o
  | _ => none

omit [Prims F] in
theorem out_of_returnedOrder {c : CopiesCall F} {o : Order F} (h : returnedOrder c = some o) :
    c.out = .ok (.order o) := by
  unfold returnedOrder at h
  split at h
  next o' hout =>
    cases h
    exact hout
  next => cases h

/-- `POST /orders` of an order that the risk check refuses. -/
theorem copies_not_always_inStep :
    ¬ ∀ (cs : List (CopiesCall ℚ)) (w : Table ℚ),
      Serial (tableEnv ℚ) OrderCall.prog (fun _ => none) cs w → ∀ c ∈ cs, CopiesInStep c := by
  intro hall
  have hrun : ∃ c older w, Serial (tableEnv ℚ) OrderCall.prog (fun _ => none) (c :: older) w ∧
      (returnedOrder c).map (fun o => (o.id, o.status)) = some ("o1", .pending) ∧
      c.post.statusAt "o1" = some .rejected :=
    exists_serial (tableAnswers_sound { approved := false } { ok := true }) [.post sampleOrder] _
      (by decide +kernel)
  obtain ⟨c, older, w, hserial, hreturned, hstored⟩ := hrun
  obtain ⟨o, ho, hpair⟩ := Option.map_eq_some_iff.mp hreturned
  obtain ⟨hid, hstatus⟩ := Prod.mk.inj hpair
  have hstep := (hall _ w hserial c List.mem_cons_self).returned o (out_of_returnedOrder ho)
  have hagree := hstep.statusAt
  rw [hid, hstored, hstatus] at hagree
  cases hagree

/-- In every run in which nothing is refused, what is announced and what is returned
    has the status and the filled quantity of the stored row at that moment. -/
theorem copies_inStep {w₀ w : Table F} {cs : List (CopiesCall F)} (hkeyed : WellKeyed w₀)
    (hrun : Serial (tableEnv F) OrderCall.prog w₀ cs w) (hcond : ∀ c ∈ cs, NothingRefused c) :
    ∀ c ∈ cs, CopiesInStep c := by
  refine (hrun.invariant (I := fun cs w => (∀ c ∈ cs, NothingRefused c) →
    WellKeyed w ∧ ∀ c ∈ cs, CopiesInStep c) (fun _ => ⟨hkeyed, fun _ hc => nomatch hc⟩) ?_ hcond).2
  intro cs w call out t' _ ih hex hcond
  obtain ⟨hkeyed, hall⟩ := ih fun c hc => hcond c (List.mem_cons_of_mem _ hc)
  have hstart : Synced (⟨w, []⟩ : Trail (Table F) (EngineOp.Ans (F := F)) Exc) :=
    ⟨fun _ hev => (nomatch hev), hkeyed⟩
  have hreturned := (hex.restrict (hcond _ List.mem_cons_self)).sound (prog_returned call hstart)
  refine ⟨hreturned.keyed, fun c hc => ?_⟩
  rcases List.mem_cons.mp hc with rfl | hc
  · exact ⟨hreturned.announced, hreturned.returned⟩
  · exact hall c hc

/-- The risk check approves, the broker accepts and cancels nothing. -/
def agreeable : Event (Table F) (EngineOp.Ans (F := F)) Exc → Bool
  | ⟨_, .preTradeCheck _ _ _, .ok approval⟩ => approval.approved
  | ⟨_, .executeOrder _, .ok response⟩ => response.ok
  | ⟨_, .cancelOrder _, .ok canceled⟩ => !canceled
  | _ => true

theorem nothingRefused_of_agreeable {c : CopiesCall F}
    (hquantity : ∀ order, c.call.order? = some order →
      Prims.le order.quantity (Prims.ofRat 0) = false)
    (hlog : ∀ ev ∈ c.log, agreeable ev = true) : NothingRefused c := by
  intro ev hev
  have hcalm := hlog ev hev
  rcases ev with ⟨w, e, a⟩
  cases e with
  | acquire => exact fun _ => hquantity
  | preTradeCheck d info rows =>
      cases a with
      | ok approval => exact fun _ => hcalm
      | error x => trivial
  | executeOrder d =>
      cases a with
      | ok response => exact hcalm
      | error x => trivial
  | cancelOrder id =>
      cases a with
      | ok canceled => simpa [Unrefused, agreeable] using hcalm
      | error x => trivial
  | _ => trivial

/-- `POST /orders` of an order that the connector has already sent. -/
theorem copies_inStep_duplicate :
    ∃ c older w, Serial (tableEnv ℚ) OrderCall.prog (fun _ => none) (c :: older) w ∧
      (returnedOrder c).isSome = true ∧ CopiesInStep c := by
  have hrun : ∃ c older w, Serial (tableEnv ℚ) OrderCall.prog (fun _ => none) (c :: older) w ∧
      (returnedOrder c).isSome = true ∧ (c :: older).length = 1 ∧
      (c.call.order?).map (fun order => order.quantity) = some 1 ∧
      ∀ ev ∈ c.log, agreeable ev = true :=
    exists_serial (tableAnswers_sound { approved := true }
      { ok := true, duplicate := some true, brokerOrderId := some 7 }) [.post sampleOrder] _
      (by decide +kernel)
  obtain ⟨c, older, w, hserial, hreturned, hlength, hquantity, hcalm⟩ := hrun
  obtain rfl : older = [] := List.eq_nil_of_length_eq_zero (by simpa using hlength)
  have hkeyed : WellKeyed (fun _ => none : Table ℚ) := fun _ _ h => nomatch h
  have hnothing : NothingRefused c := by
    refine nothingRefused_of_agreeable (fun order horder => ?_) hcalm
    rw [horder, Option.map_some, Option.some.injEq] at hquantity
    rw [hquantity]
    decide +kernel
  exact ⟨c, [], w, hserial, hreturned,
    copies_inStep hkeyed hserial (by simpa using hnothing) c List.mem_cons_self⟩

end Mtrader.Execution
