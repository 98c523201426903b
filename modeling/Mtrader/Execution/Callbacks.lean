/-
  Mtrader.Execution.Callbacks

  The callbacks of the engine, and the engine without them.

  Every `to_dict` makes a new dict, which the engine hands to one party: to the
  repository, the connector or the risk engine, which may keep it, or to the callbacks of
  an event, which may write it.  A callback may also raise an `Exception` and call `on`
  and `off`; it calls nothing else.

  A run of calls made one at a time then stores the same rows, makes the same calls and
  has the same outcomes as without callbacks, up to timestamps.
-/

import Mtrader.Coroutine.Likeness
import Mtrader.Execution.Timeless
import Mtrader.Execution.Table
import Mtrader.Objects.Holders

namespace Mtrader.Execution

open Coroutine Py Mtrader.Connectors Mtrader.Risk

-- ============================================================================
-- on and off
-- ============================================================================

/-- The key of `_callbacks` an event is emitted under. -/
def EngineEvent.name : EngineEvent → String
  | .orderCreated => "order_created"
  | .orderUpdated => "order_updated"
  | .orderFilled => "order_filled"
  | .orderRejected => "order_rejected"
  | .orderCanceled => "order_canceled"

/-- `_callbacks`: the sets as lists without repetitions; a missing key has no callbacks. -/
abbrev Registry : Type := String → List CallbackId

/-- A call of `on` or `off`. -/
inductive Registration
  | on (event : String) (cb : CallbackId)
  | off (event : String) (cb : CallbackId)

/-- `ExecutionEngine.on` and `ExecutionEngine.off`. -/
def Registry.apply (callbacks : Registry) : Registration → Registry
  | .on event cb => Function.update callbacks event ((callbacks event).insert cb)
  | .off event cb => Function.update callbacks event ((callbacks event).erase cb)

variable {F S R : Type}

-- ============================================================================
-- Up to timestamps
-- ============================================================================

/-- The same call of the engine, with the same row up to timestamps. -/
inductive OpAlike : EngineOp F → EngineOp F → Prop
  | acquire : OpAlike .acquire .acquire
  | release : OpAlike .release .release
  | utcnow : OpAlike .utcnow .utcnow
  | getAccountInfo : OpAlike .getAccountInfo .getAccountInfo
  | getPositions (symbol : String) : OpAlike (.getPositions symbol) (.getPositions symbol)
  | executeOrder (order : OrderDict F) : OpAlike (.executeOrder order) (.executeOrder order)
  | cancelOrder (orderId : String) : OpAlike (.cancelOrder orderId) (.cancelOrder orderId)
  | preTradeCheck (order : OrderDict F) (accountInfo : Dict AccountKey F)
      (positions : List (Dict PositionKey F)) :
      OpAlike (.preTradeCheck order accountInfo positions)
        (.preTradeCheck order accountInfo positions)
  | repoGetOrder (orderId : String) : OpAlike (.repoGetOrder orderId) (.repoGetOrder orderId)
  | repoUpdateOrder (orderId : String) {row row' : OrderDict F} (h : RowAlike row row') :
      OpAlike (.repoUpdateOrder orderId row) (.repoUpdateOrder orderId row')
  | repoSaveOrder (row : OrderDict F) : OpAlike (.repoSaveOrder row) (.repoSaveOrder row)
  | callbacks (event : EngineEvent) {payload payload' : OrderDict F}
      (h : RowAlike payload payload') :
      OpAlike (.callbacks event payload) (.callbacks event payload')

/-- Both are `None`, or both are the same row up to timestamps. -/
def DataAlike (data data' : Option (OrderDict F)) : Prop :=
  data.map rowTimeless = data'.map rowTimeless

/-- The same answer up to timestamps; the second engine has no callbacks. -/
def AnsAlike : (e e' : EngineOp F) → Except Exc e.Ans → Except Exc e'.Ans → Prop
  | .acquire, .acquire, a, a' => a = a'
  | .release, .release, a, a' => a = a'
  | .utcnow, .utcnow, a, a' => (∃ t, a = .ok t) ∧ ∃ t, a' = .ok t
  | .getAccountInfo, .getAccountInfo, a, a' => a = a'
  | .getPositions _, .getPositions _, a, a' => a = a'
  | .executeOrder _, .executeOrder _, a, a' => a = a'
  | .cancelOrder _, .cancelOrder _, a, a' => a = a'
  | .preTradeCheck _ _ _, .preTradeCheck _ _ _, a, a' => a = a'
  | .repoGetOrder _, .repoGetOrder _, a, a' => OutRel DataAlike a a'
  | .repoUpdateOrder _ _, .repoUpdateOrder _ _, a, a' => a = a'
  | .repoSaveOrder _, .repoSaveOrder _, a, a' => a = a'
  | .callbacks _ _, .callbacks _ _, a, a' => (∃ cbs, a = .ok cbs) ∧ a' = .ok []
  | _, _, _, _ => False

/-- Two runs of the engine, of which only the first has callbacks. -/
def engineLikeness (F : Type) : Likeness (EngineOp.Ans (F := F)) Exc where
  op := OpAlike
  ans := AnsAlike
  silent e := ∃ cb payload, e = .invoke cb payload
  quiet _ a := ∃ r, a = .ok r

-- ============================================================================
-- Dict objects
-- ============================================================================

/-- The row a call passes to the repository, the connector or the risk engine. -/
def EngineOp.row? : EngineOp F → Option (OrderDict F)
  | .executeOrder row | .preTradeCheck row _ _ | .repoUpdateOrder _ row | .repoSaveOrder row =>
      some row
  | _ => none

/-- The dict objects once the arguments of the call have been made. -/
def handed (e : EngineOp F) (o : Objects.Store (OrderDict F)) : Objects.Store (OrderDict F) :=
  match e.row? with
  | some row => o.keep row
  | none => o

/-- The lock, the repository, the connector and the risk engine of an engine. -/
structure Collaborators (S F : Type) where
  /-- In the state `s`, with the dict objects kept in `o`, the call may be answered `a`; the
      new row, if it passes one, is the newest object.  The state becomes `s'` and the
      objects read `read`. -/
  does : S → Objects.Store (OrderDict F) → (e : EngineOp F) → Except Exc e.Ans → S →
    (ℕ → OrderDict F) → Prop
  /-- What they do depends on the state, the call and the dict objects they have, up to
      timestamps. -/
  alike : ∀ {s o e a t read o' e' a' t' read'}, does s o e a t read →
    does s o' e' a' t' read' → Objects.Alike RowAlike o o' → OpAlike e e' →
    AnsAlike e e' a a' ∧ t = t' ∧ ∀ r ∈ o.kept, RowAlike (read r) (read' r)

/-- The surroundings of an engine. -/
structure EngineSurroundings (S F : Type) where
  state : S
  objects : Objects.Store (OrderDict F)
  callbacks : Registry

/-- The engine among its collaborators and callbacks. -/
def surroundingsEnv (C : Collaborators S F) :
    Env (EngineSurroundings S F) (EngineOp.Ans (F := F)) Exc :=
  fun w e a w' =>
    match e, a with
    | .utcnow, a => (∃ t, a = .ok t) ∧ w' = w
    -- `list(...)` of a set has its elements in some order
    | .callbacks event payload, a =>
        (∃ cbs, a = .ok cbs ∧ cbs.Perm (w.callbacks event.name)) ∧
          w' = { w with objects := w.objects.lend payload }
    | .invoke _ _, a => (∃ r, a = .ok r) ∧ ∃ read, ∃ calls : List Registration,
        (∀ r, r ∉ w.objects.lent → read r = w.objects.read r) ∧
          w' = { w with objects := w.objects.write read,
                        callbacks := calls.foldl Registry.apply w.callbacks }
    | e, a => ∃ s read, C.does w.state (handed e w.objects) e a s read ∧
        w' = { w with state := s, objects := (handed e w.objects).write read }

/-- The same state, and the same kept rows up to timestamps. -/
structure StoredAlike (w w' : EngineSurroundings S F) : Prop where
  state : w.state = w'.state
  objects : Objects.Alike RowAlike w.objects w'.objects

/-- What holds of two runs of which the second has no callbacks. -/
structure Unobserved (w w' : EngineSurroundings S F) : Prop extends StoredAlike w w' where
  callbacks : w'.callbacks = fun _ => []

theorem handed_alike {e e' : EngineOp F} {o o' : Objects.Store (OrderDict F)} (he : OpAlike e e')
    (h : Objects.Alike RowAlike o o') : Objects.Alike RowAlike (handed e o) (handed e' o') := by
  cases he with
  | executeOrder order => exact h.keep rfl
  | preTradeCheck order accountInfo positions => exact h.keep rfl
  | repoUpdateOrder orderId hrow => exact h.keep hrow
  | repoSaveOrder row => exact h.keep rfl
  | _ => exact h

/-- A call of the collaborators. -/
theorem Collaborators.step (C : Collaborators S F) {e e' : EngineOp F} {a a'}
    {w w' v v' : EngineSurroundings S F} (he : OpAlike e e') (h : Unobserved w w')
    (hdo : ∃ s read, C.does w.state (handed e w.objects) e a s read ∧
      v = { w with state := s, objects := (handed e w.objects).write read })
    (hdo' : ∃ s read, C.does w'.state (handed e' w'.objects) e' a' s read ∧
      v' = { w' with state := s, objects := (handed e' w'.objects).write read }) :
    AnsAlike e e' a a' ∧ Unobserved v v' := by
  obtain ⟨s, read, hdoes, rfl⟩ := hdo
  obtain ⟨s', read', hdoes', rfl⟩ := hdo'
  have hobjects := handed_alike he h.objects
  rw [← h.state] at hdoes'
  obtain ⟨hans, hstate, hread⟩ := C.alike hdoes hdoes' hobjects he
  exact ⟨hans, ⟨hstate, hobjects.write hread⟩, h.callbacks⟩

theorem surroundings_coupled (C : Collaborators S F) :
    Coupled (engineLikeness F) (surroundingsEnv C) (surroundingsEnv C) Unobserved where
  step {w w' e e' a a' v v'} h hop henv henv' := by
    have he : OpAlike e e' := hop
    cases hop with
    | utcnow =>
        obtain ⟨ht, rfl⟩ := henv
        obtain ⟨ht', rfl⟩ := henv'
        exact ⟨⟨ht, ht'⟩, h⟩
    | callbacks event hrow =>
        obtain ⟨⟨cbs, ha, -⟩, rfl⟩ := henv
        obtain ⟨⟨cbs', ha', hcbs'⟩, rfl⟩ := henv'
        rw [h.callbacks] at hcbs'
        have hnil : cbs' = [] := hcbs'.eq_nil
        subst hnil
        exact ⟨⟨⟨cbs, ha⟩, ha'⟩, ⟨h.state, h.objects.lend _ _⟩, h.callbacks⟩
    | _ => exact C.step he h henv henv'
  silent {w w' e a v} h hop henv := by
    obtain ⟨cb, payload, rfl⟩ := hop
    obtain ⟨ha, read, calls, hread, rfl⟩ := henv
    exact ⟨ha, ⟨h.state, h.objects.writeLent hread⟩, h.callbacks⟩

-- ============================================================================
-- The programs
-- ============================================================================

/-- The programs cannot tell whether there are callbacks. -/
abbrev EngineAlike (V : R → R → Prop) (p p' : EngineM F R) : Prop :=
  Alike (engineLikeness F) V p p'

/-- A call that is answered the same. -/
theorem engine_alike (e : EngineOp F) (he : OpAlike e e)
    (hans : ∀ a a', AnsAlike e e a a' → a = a') : EngineAlike Eq (engine e) (engine e) :=
  .op he fun a a' ha => outRel_eq.mpr (hans a a' ha)

theorem if_alike {V : R → R → Prop} {c : Prop} [Decidable c] {p q p' q' : EngineM F R}
    (h : EngineAlike V p p') (h' : EngineAlike V q q') :
    EngineAlike V (if c then p else q) (if c then p' else q') := by
  split
  next => exact h
  next => exact h'

theorem utcnow_alike :
    EngineAlike (fun _ _ => True) (engine (F := F) .utcnow) (engine .utcnow) := by
  refine .op OpAlike.utcnow fun a a' ha => ?_
  obtain ⟨⟨t, rfl⟩, t', rfl⟩ := ha
  exact .ok trivial

/-- The loop of `_emit` does nothing that the engine without callbacks does. -/
theorem invokeAll_alike (cbs : List CallbackId) (payload : OrderDict F) :
    EngineAlike Eq (invokeAll cbs payload) (pure ()) := by
  induction cbs generalizing payload with
  | nil => exact .ret rfl
  | cons cb cbs ih =>
      refine .silent ⟨cb, payload, rfl⟩ fun a ha => ?_
      obtain ⟨out, rfl⟩ := ha
      exact ih out.payload

theorem emit_alike (event : EngineEvent) {payload payload' : OrderDict F}
    (h : RowAlike payload payload') :
    EngineAlike Eq (emit event payload) (emit event payload') := by
  refine .call (OpAlike.callbacks event h) fun a a' ha => ?_
  obtain ⟨⟨cbs, rfl⟩, rfl⟩ := ha
  exact invokeAll_alike cbs payload

variable [Prims F]

/-- `_hydrate` on alike rows. -/
theorem hydrate_alike (nowC nowU nowC' nowU' : Time) {row row' : OrderDict F}
    (h : RowAlike row row') :
    OutRel OrderAlike (hydrate nowC nowU row) (hydrate nowC' nowU' row') := by
  refine outRel_of_map_eq ?_
  rw [← hydrate_timeless nowC nowU, ← hydrate_timeless nowC' nowU', h]

/-- Both are `None`, or both are the same order up to timestamps. -/
def FoundAlike (o o' : Option (Order F)) : Prop := o.map Order.timeless = o'.map Order.timeless

theorem map_eq_map_cases {f : α → β} {o o' : Option α} (h : o.map f = o'.map f) :
    (o = none ∧ o' = none) ∨ ∃ a a', o = some a ∧ o' = some a' ∧ f a = f a' := by
  cases o with
  | none =>
      cases o' with
      | none => exact .inl ⟨rfl, rfl⟩
      | some a' => cases h
  | some a =>
      cases o' with
      | none => cases h
      | some a' => exact .inr ⟨a, a', rfl, rfl, Option.some.inj h⟩

theorem getOrder_alike (orderId : String) :
    EngineAlike FoundAlike (getOrder (F := F) orderId) (getOrder orderId) := by
  refine (Alike.op (e := EngineOp.repoGetOrder orderId) (V := DataAlike)
    (OpAlike.repoGetOrder orderId) fun a a' ha => ha).bind fun data data' hdata => ?_
  obtain ⟨rfl, rfl⟩ | ⟨row, row', rfl, rfl, hrow⟩ := map_eq_map_cases hdata
  · exact .ret rfl
  · refine utcnow_alike.bind fun nowC nowC' _ => utcnow_alike.bind fun nowU nowU' _ => ?_
    refine (Alike.ofExcept (hydrate_alike nowC nowU nowC' nowU' hrow)).bind ?_
    intro order order' horder
    exact .ret (congrArg some horder)

omit [Prims F] in
theorem writeStatus_alike (orderId : String) {order order' : Order F} (h : OrderAlike order order')
    (status : OrderStatus) {kwargs kwargs' : List (OrderField F)}
    (hkw : kwargs.map OrderField.timeless = kwargs'.map OrderField.timeless) :
    EngineAlike Eq (writeStatus orderId order status kwargs)
      (writeStatus orderId order' status kwargs') := by
  refine utcnow_alike.bind fun now now' _ => ?_
  have hrow := (h.updated status hkw now now').toDict
  refine .op_bind (OpAlike.repoUpdateOrder orderId hrow) (fun a a' ha => outRel_eq.mpr ha) ?_
  intro _ _ _
  refine (emit_alike .orderUpdated hrow).bind fun _ _ _ => ?_
  by_cases hrejected : status = .rejected
  · simp only [if_pos hrejected]
    exact emit_alike .orderRejected hrow
  · simp only [if_neg hrejected]
    exact .ret rfl

theorem updateOrderStatus_alike (orderId : String) (status : OrderStatus)
    {kwargs kwargs' : List (OrderField F)}
    (hkw : kwargs.map OrderField.timeless = kwargs'.map OrderField.timeless) :
    EngineAlike Eq (updateOrderStatus orderId status kwargs)
      (updateOrderStatus orderId status kwargs') := by
  refine (getOrder_alike orderId).bind fun found found' h => ?_
  obtain ⟨rfl, rfl⟩ | ⟨order, order', rfl, rfl, horder⟩ := map_eq_map_cases h
  · exact .raise _
  · replace horder : OrderAlike order order' := horder
    show EngineAlike Eq (if ¬ CanBecome order.status status then _ else _)
      (if ¬ CanBecome order'.status status then _ else _)
    rw [← horder.status]
    by_cases hcan : CanBecome order.status status
    · rw [if_neg (not_not_intro hcan), if_neg (not_not_intro hcan)]
      exact writeStatus_alike orderId horder status hkw
    · rw [if_pos hcan, if_pos hcan]
      exact .raise _

omit [Prims F] in
theorem withLock_alike {V : R → R → Prop} {body body' : EngineM F R}
    (h : EngineAlike V body body') : EngineAlike V (withLock body) (withLock body') := by
  refine (engine_alike .acquire .acquire fun a a' ha => ha).bind fun _ _ _ => ?_
  have hrelease : EngineAlike (fun _ _ => True) (engine (F := F) .release) (engine .release) := by
    refine Alike.op (e := EngineOp.release) OpAlike.release fun a a' ha => ?_
    obtain rfl : a = a' := ha
    exact .refl (fun _ => trivial) a
  exact h.andFinally hrelease

/-- A timestamp in a keyword argument does not count. -/
theorem recordAccepted_alike (order : Order F) (response : BrokerResponse F) :
    EngineAlike Eq (recordAccepted order response) (recordAccepted order response) := by
  unfold recordAccepted
  refine if_alike ?_ (.ret rfl)
  refine utcnow_alike.bind fun openedAt openedAt' _ => ?_
  refine .bind (updateOrderStatus_alike order.id .submitted rfl) fun _ _ _ => ?_
  refine if_alike ?_ (.ret rfl)
  refine utcnow_alike.bind fun closedAt closedAt' _ => ?_
  refine .bind (updateOrderStatus_alike order.id .filled rfl) fun _ _ _ => ?_
  exact (emit_alike .orderFilled rfl).bind fun _ _ _ => .ret rfl

theorem submitApproved_alike (order : Order F) :
    EngineAlike Eq (submitApproved order) (submitApproved order) := by
  refine .bind (updateOrderStatus_alike order.id .validated rfl) fun _ _ _ => ?_
  refine (engine_alike _ (.repoSaveOrder order.toDict) fun a a' ha => ha).bind fun _ _ _ => ?_
  refine (emit_alike .orderCreated rfl).bind fun _ _ _ => ?_
  refine (engine_alike _ (.executeOrder order.toDict) fun a a' ha => ha).bind ?_
  rintro response _ rfl
  refine if_alike ?_ (recordAccepted_alike order response)
  exact .bind (updateOrderStatus_alike order.id .rejected rfl) fun _ _ _ => .ret rfl

theorem submitLocked_alike (order : Order F) :
    EngineAlike Eq (submitLocked order) (submitLocked order) := by
  unfold submitLocked
  refine if_alike (.raise _) (if_alike ?_ ?_)
  · exact .bind (updateOrderStatus_alike order.id .rejected rfl) fun _ _ _ => .ret rfl
  · refine (engine_alike _ .getAccountInfo fun a a' ha => ha).bind ?_
    rintro accountInfo _ rfl
    refine (engine_alike _ (.getPositions order.symbol) fun a a' ha => ha).bind ?_
    rintro positions _ rfl
    refine (engine_alike _ (.preTradeCheck order.toDict accountInfo positions)
      fun a a' ha => ha).bind ?_
    rintro approval _ rfl
    refine if_alike ?_ (submitApproved_alike order)
    exact .bind (updateOrderStatus_alike order.id .rejected rfl) fun _ _ _ => .ret rfl

theorem cancelOrder_alike (orderId : String) :
    EngineAlike Eq (cancelOrder (F := F) orderId) (cancelOrder orderId) := by
  refine (getOrder_alike orderId).bind fun found found' h => ?_
  obtain ⟨rfl, rfl⟩ | ⟨order, order', rfl, rfl, horder⟩ := map_eq_map_cases h
  · exact .ret rfl
  · replace horder : OrderAlike order order' := horder
    show EngineAlike Eq (if !order.status.open_ then _ else _)
      (if !order'.status.open_ then _ else _)
    rw [← horder.status]
    refine if_alike (.ret rfl) ?_
    refine (engine_alike _ (.cancelOrder orderId) fun a a' ha => ha).bind ?_
    rintro ok _ rfl
    refine if_alike ?_ (.ret rfl)
    refine .bind (updateOrderStatus_alike orderId .canceled rfl) fun _ _ _ => ?_
    exact (emit_alike .orderCanceled horder.toDict).bind fun _ _ _ => .ret rfl

/-- One call of the engine. -/
theorem EngineCall.prog_alike (call : EngineCall F) : EngineAlike Eq call.prog call.prog := by
  cases call with
  | submit order =>
      refine (withLock_alike (submitLocked_alike order)).bind ?_
      rintro o _ rfl
      exact .ret rfl
  | cancel orderId =>
      refine (cancelOrder_alike orderId).bind ?_
      rintro ok _ rfl
      exact .ret rfl
  | update orderId status kwargs =>
      exact .bind (updateOrderStatus_alike orderId status rfl) fun _ _ _ => .ret rfl

-- ============================================================================
-- Runs
-- ============================================================================

/-- A finished call of the engine. -/
abbrev ObservedCall (S F : Type) : Type :=
  Call (EngineCall F) (EngineSurroundings S F) (EngineOp.Ans (F := F)) Exc (EngineResult F)

/-- Whatever the callbacks do, a run of calls made one at a time stores the same rows, makes
    the same calls and has the same outcomes as without callbacks, up to timestamps. -/
theorem callbacks_unobserved (C : Collaborators S F) {w₀ w w' : EngineSurroundings S F}
    {cs cs' : List (ObservedCall S F)}
    (hrun : Serial (surroundingsEnv C) EngineCall.prog w₀ cs w)
    (hrun' : Serial (surroundingsEnv C) EngineCall.prog { w₀ with callbacks := fun _ => [] } cs' w')
    (hcalls : cs.map Call.call = cs'.map Call.call) :
    List.Forall₂ (CallRel (engineLikeness F) Eq) cs cs' ∧ StoredAlike w w' := by
  have hrow : ∀ row : OrderDict F, RowAlike row row := fun _ => rfl
  have h₀ : Unobserved w₀ { w₀ with callbacks := fun _ => [] } :=
    ⟨⟨rfl, .refl hrow w₀.objects⟩, rfl⟩
  have h := hrun.alike (surroundings_coupled C) EngineCall.prog_alike hrun' h₀ hcalls
  exact ⟨h.1, h.2.toStoredAlike⟩

-- A repository that keeps the very dict objects it is handed

/-- Where the repository keeps the row of an order. -/
abbrev Shelf : Type := String → Option ℕ

/-- The repository answers with the dict objects it has, the risk engine approves and the
    broker fills. -/
def shelfAnswer (shelf : Shelf) (o : Objects.Store (OrderDict ℚ)) :
    (e : EngineOp ℚ) → Except Exc e.Ans
  | .acquire | .release | .repoUpdateOrder _ _ => .ok ()
  | .utcnow => .ok 0
  | .getAccountInfo => .ok fun _ => none
  | .getPositions _ => .ok []
  | .executeOrder _ => .ok { ok := true, result := some { retcode := some 10009, deal := some 7 } }
  | .cancelOrder _ => .ok true
  | .preTradeCheck _ _ _ => .ok { approved := true }
  | .repoGetOrder id => .ok ((shelf id).bind fun r => if r ∈ o.kept then some (o.read r) else none)
  | .repoSaveOrder _ => .ok "o1"
  | .callbacks _ _ => .ok []
  | .invoke _ payload => .ok { payload := payload }

/-- A row that is written is the newest object. -/
def shelfNext (shelf : Shelf) (o : Objects.Store (OrderDict ℚ)) : EngineOp ℚ → Shelf
  | .repoUpdateOrder id _ => Function.update shelf id o.kept.head?
  | .repoSaveOrder _ => Function.update shelf "o1" o.kept.head?
  | _ => shelf

def shelfCollaborators : Collaborators Shelf ℚ where
  does s o e a t read := a = shelfAnswer s o e ∧ t = shelfNext s o e ∧ read = o.read
  alike {s o e a t read o' e' a' t' read'} h h' ho he := by
    obtain ⟨rfl, rfl, rfl⟩ := h
    obtain ⟨rfl, rfl, rfl⟩ := h'
    refine ⟨?_, ?_, ho.read⟩
    · cases he with
      | utcnow => exact ⟨⟨0, rfl⟩, 0, rfl⟩
      | callbacks event hrow => exact ⟨⟨[], rfl⟩, rfl⟩
      | repoGetOrder id =>
          refine .ok ?_
          unfold DataAlike
          rw [← ho.kept]
          cases s id with
          | none => rfl
          | some r =>
              by_cases hr : r ∈ o.kept
              · simp only [Option.bind_some, if_pos hr, Option.map_some]
                exact congrArg some (ho.read r hr)
              · simp only [Option.bind_some, if_neg hr]
      | _ => rfl
    · cases he <;> simp [shelfNext, ho.kept]

/-- A callback that clears its payload, unregisters itself and raises. -/
def rudeAnswers : Answers (EngineSurroundings Shelf ℚ) (EngineOp.Ans (F := ℚ)) Exc :=
  fun w e =>
    match e with
    | .utcnow => (.ok 0, w)
    | .callbacks event payload =>
        (.ok (w.callbacks event.name), { w with objects := w.objects.lend payload })
    | .invoke cb _ =>
        (.ok { payload := fun _ => none, raised := some (.valueError "rude") },
          { w with
            objects := w.objects.write fun r =>
              if r ∈ w.objects.lent then fun _ => none else w.objects.read r
            callbacks := Registry.apply w.callbacks (.off "order_updated" cb) })
    | e => (shelfAnswer w.state (handed e w.objects) e,
        { w with state := shelfNext w.state (handed e w.objects) e
                 objects := handed e w.objects })

theorem rudeAnswers_sound (w : EngineSurroundings Shelf ℚ) (e : EngineOp ℚ) :
    surroundingsEnv shelfCollaborators w e (rudeAnswers w e).1 (rudeAnswers w e).2 := by
  cases e with
  | utcnow => exact ⟨⟨0, rfl⟩, rfl⟩
  | callbacks event payload => exact ⟨⟨_, rfl, .refl _⟩, rfl⟩
  | invoke cb payload =>
      refine ⟨⟨_, rfl⟩, _, [.off "order_updated" cb], fun r hr => ?_, rfl⟩
      rw [if_neg hr]
  | _ => exact ⟨_, _, ⟨rfl, rfl, rfl⟩, rfl⟩

/-- The order is stored, and a rude callback registered for its updates. -/
def rudeStart : EngineSurroundings Shelf ℚ where
  state id := if id = "o1" then some 0 else none
  objects := (Objects.Store.empty fun _ => none).keep sampleOrder.toDict
  callbacks event := if event = "order_updated" then [0] else []

/-- A callback was called. -/
def invoked {W : Type} (ev : Event W (EngineOp.Ans (F := ℚ)) Exc) : Bool :=
  match ev.op with
  | .invoke _ _ => true
  | _ => false

theorem callbacks_unobserved_rude :
    ∃ cs cs' w w',
      Serial (surroundingsEnv shelfCollaborators) EngineCall.prog rudeStart cs w ∧
      Serial (surroundingsEnv shelfCollaborators) EngineCall.prog
        { rudeStart with callbacks := fun _ => [] } cs' w' ∧
      cs.any (fun c => c.log.any invoked) = true ∧
      List.Forall₂ (CallRel (engineLikeness ℚ) Eq) cs cs' ∧ StoredAlike w w' := by
  have hrun : Serial (surroundingsEnv shelfCollaborators) EngineCall.prog rudeStart _ _ :=
    playAll_sound rudeAnswers_sound [.submit sampleOrder] .nil
  have hrun' : Serial (surroundingsEnv shelfCollaborators) EngineCall.prog
      { rudeStart with callbacks := fun _ => [] } _ _ :=
    playAll_sound rudeAnswers_sound [.submit sampleOrder] .nil
  refine ⟨_, _, _, _, hrun, hrun', by decide +kernel, callbacks_unobserved _ hrun hrun' ?_⟩
  rw [playAll_calls, playAll_calls]

end Mtrader.Execution
