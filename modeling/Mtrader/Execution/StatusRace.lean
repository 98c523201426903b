/-
  Mtrader.Execution.StatusRace

  Interleaved `submit_order`, `cancel_order` and `update_order_status` calls on
  one engine.
-/

import Mtrader.Execution.Bookkeeping
import Mtrader.Execution.Table
import Mtrader.Coroutine.Interleave
import Mathlib.Data.List.Chain

namespace Mtrader.Execution

open Coroutine Py Mtrader.Connectors

variable {F : Type} [Prims F]

/-- The discipline of the engine's methods: a coroutine writes a row only after
    it has read one for the same id whose status may become the written one. -/
def readBeforeWrite (F : Type) : Discipline (EngineOp.Ans (F := F)) Exc (Table F) where
  may read
    | .repoUpdateOrder id row => ∃ data s s', read id = some data ∧
        statusOf data = some s ∧ statusOf row = some s' ∧ CanBecome s s'
    | _ => True
  next read
    | .repoGetOrder id, .ok data => Function.update read id data
    | _, _ => read

section

omit [Prims F]

theorem emit_always (event : EngineEvent) (payload : OrderDict F) :
    (emit event payload).Always (readBeforeWrite F) := by
  refine (emit_emits event payload).of_only fun _ e he => ?_
  cases e with
  | repoUpdateOrder id row => cases he
  | _ => trivial

/-- A row may be written over a row that was read with a status it can follow. -/
theorem writeStatus_obeys {read : Table F} {id : String} {data : OrderDict F}
    {s status : OrderStatus} (order : Order F) (kwargs : List (OrderField F))
    (hread : read id = some data) (hs : statusOf data = some s)
    (hcan : CanBecome s status) :
    (writeStatus id order status kwargs).Obeys (readBeforeWrite F) (fun _ _ => True) read := by
  refine Prog.obeys_op_bind.mpr ⟨trivial, fun now => ?_, fun _ => trivial⟩
  refine Prog.obeys_op_bind.mpr ⟨?_, fun _ => ?_, fun _ => trivial⟩
  · exact ⟨data, s, status, hread, hs, by simp, hcan⟩
  · refine (emit_always _ _ _).seq (fun _ read' _ => ?_) fun _ _ _ => trivial
    split
    next => exact emit_always _ _ _
    next => trivial

end

/-- An order that `getOrder` returns has the status of the row that was read. -/
theorem getOrder_obeys (id : String) (read : Table F) :
    (getOrder id).Obeys (readBeforeWrite F)
      (fun out read' => ∀ order, out = .ok (some order) →
        ∃ data, read' id = some data ∧ statusOf data = some order.status) read := by
  refine Prog.obeys_op_bind.mpr ⟨trivial, fun data => ?_, fun _ _ h => nomatch h⟩
  cases data with
  | none => exact fun _ h => nomatch h
  | some data =>
      refine Prog.obeys_op_bind.mpr ⟨trivial, fun nowC => ?_, fun _ _ h => nomatch h⟩
      refine Prog.obeys_op_bind.mpr ⟨trivial, fun nowU => ?_, fun _ _ h => nomatch h⟩
      cases ho : hydrate nowC nowU data with
      | error x => exact fun _ h => nomatch h
      | ok order =>
          intro order' h
          cases h
          exact ⟨data, by simp [readBeforeWrite], statusOf_of_hydrate ho⟩

theorem updateOrderStatus_always (id : String) (status : OrderStatus)
    (kwargs : List (OrderField F)) :
    (updateOrderStatus id status kwargs).Always (readBeforeWrite F) := by
  intro read
  refine (getOrder_obeys id read).seq (fun found read' hfound => ?_) fun _ _ _ => trivial
  cases found with
  | none => trivial
  | some order =>
      obtain ⟨data, hread, hs⟩ := hfound order rfl
      by_cases hcan : CanBecome order.status status
      · simp only [hcan, not_true_eq_false, if_false]
        exact writeStatus_obeys order kwargs hread hs hcan
      · simp only [hcan, not_false_eq_true, if_true]
        trivial

omit [Prims F] in
theorem withLock_always {R : Type} {body : EngineM F R}
    (hbody : body.Always (readBeforeWrite F)) :
    (withLock body).Always (readBeforeWrite F) :=
  (Prog.always_op fun _ => trivial).bind fun _ =>
    hbody.andFinally (Prog.always_op fun _ => trivial)

theorem submitApproved_always (order : Order F) :
    (submitApproved order).Always (readBeforeWrite F) := by
  refine (updateOrderStatus_always _ _ _).bind fun _ => ?_
  refine (Prog.always_op fun _ => trivial).bind fun _ => ?_
  refine (emit_always _ _).bind fun _ => ?_
  refine (Prog.always_op fun _ => trivial).bind fun response => ?_
  split
  next => exact (updateOrderStatus_always _ _ _).bind fun _ => Prog.always_ret order
  next =>
    exact recordAccepted_always (fun _ => trivial) updateOrderStatus_always emit_always order
      response

theorem submitOrder_always (order : Order F) :
    (submitOrder order).Always (readBeforeWrite F) := by
  refine withLock_always ?_
  unfold submitLocked
  split
  next => exact Prog.always_raise _
  next =>
    split
    next => exact (updateOrderStatus_always _ _ _).bind fun _ => Prog.always_ret order
    next =>
      refine (Prog.always_op fun _ => trivial).bind fun accountInfo => ?_
      refine (Prog.always_op fun _ => trivial).bind fun positions => ?_
      refine (Prog.always_op fun _ => trivial).bind fun approval => ?_
      split
      next => exact (updateOrderStatus_always _ _ _).bind fun _ => Prog.always_ret order
      next => exact submitApproved_always order

theorem cancelOrder_always (id : String) :
    (cancelOrder (F := F) id).Always (readBeforeWrite F) := by
  intro read
  refine (getOrder_obeys id read).seq (fun found read' _ => ?_) fun _ _ _ => trivial
  cases found with
  | none => trivial
  | some order =>
      simp only
      split
      next => trivial
      next =>
        refine Prog.Always.bind (Prog.always_op fun _ => trivial) (fun ok => ?_) read'
        split
        next =>
          refine (updateOrderStatus_always _ _ _).bind fun _ => ?_
          exact (emit_always _ _).bind fun _ => Prog.always_ret _
        next => exact Prog.always_ret _

/-- Every method of the engine reads before it writes. -/
theorem prog_always (call : EngineCall F) : call.prog.Always (readBeforeWrite F) := by
  cases call with
  | submit order => exact (submitOrder_always order).bind fun _ => Prog.always_ret _
  | cancel id => exact (cancelOrder_always id).bind fun _ => Prog.always_ret _
  | update id status kwargs =>
      exact (updateOrderStatus_always id status kwargs).bind fun _ => Prog.always_ret _

-- ============================================================================
-- Interleaved calls over one repository
-- ============================================================================

/-- What the calls on one engine share: the orders table and the engine's lock. -/
structure EngineWorld (ι F : Type) where
  orders : Table F
  holder : Option ι := none

variable {ι : Type}

/-- The collaborators of coroutine `i`: the repository acts on the table in one
    step or raises, the lock excludes, and the risk engine, the connector, the
    callbacks and the clock answer anything. -/
def engineEnv (i : ι) : Env (EngineWorld ι F) (EngineOp.Ans (F := F)) Exc :=
  fun w e a w' =>
    match e, a with
    | .acquire, .ok _ => w.holder = none ∧ w' = { w with holder := some i }
    | .release, .ok _ => w' = { w with holder := none }
    | .repoGetOrder id, .ok data => data = w.orders id ∧ w' = w
    | .repoUpdateOrder id row, .ok _ => w' = { w with orders := w.orders.put id row }
    | .repoSaveOrder row, a => SaveOrder w.orders row a w'.orders ∧ w'.holder = w.holder
    | _, _ => w' = w

omit [Prims F] in
/-- What one operation does to the row of `id`: nothing, unless there was none
    or the operation overwrites it. -/
theorem engineEnv_orders {i : ι} {w w' : EngineWorld ι F} {e : EngineOp F}
    {a : Except Exc e.Ans} (h : engineEnv i w e a w') (id : String) :
    w'.orders id = w.orders id ∨ w.orders id = none ∨
      ∃ row, e = .repoUpdateOrder id row ∧ w'.orders id = some row := by
  cases e with
  | repoUpdateOrder id' row =>
      cases a with
      | error x =>
          cases h
          exact .inl rfl
      | ok _ =>
          cases h
          by_cases hid : id = id'
          · subst hid
            exact .inr (.inr ⟨row, rfl, w.orders.put_self id row⟩)
          · exact .inl (w.orders.put_other row hid)
  | repoSaveOrder row =>
      have hsave : SaveOrder w.orders row a w'.orders := h.1
      cases hrow : w.orders id with
      | none => exact .inr (.inl rfl)
      | some data => exact .inl (hsave.keeps hrow)
  | acquire =>
      cases a with
      | error x => cases h; exact .inl rfl
      | ok _ => obtain ⟨-, rfl⟩ := h; exact .inl rfl
  | repoGetOrder id' =>
      cases a with
      | error x => cases h; exact .inl rfl
      | ok data => obtain ⟨-, rfl⟩ := h; exact .inl rfl
  | _ => cases a <;> cases h <;> exact .inl rfl

/-- The configuration in which no call has begun. -/
def start (calls : ι → EngineCall F) (w₀ : EngineWorld ι F) :
    Config ι (EngineWorld ι F) (EngineOp.Ans (F := F)) Exc (EngineResult F) where
  world := w₀
  pool i := (calls i).prog

abbrev EngineHistory (ι F : Type) : Type :=
  History ι (EngineWorld ι F) (EngineOp.Ans (F := F)) Exc

/-- The statuses stored for an order id in a run, oldest first. -/
def storedStatuses (id : String)
    (c : Config ι (EngineWorld ι F) (EngineOp.Ans (F := F)) Exc (EngineResult F))
    (h : EngineHistory ι F) : List OrderStatus :=
  (c.worlds h).reverse.filterMap fun w => w.orders.statusAt id

/-- The statuses that nothing follows. -/
def terminalStatuses : List OrderStatus := [.filled, .rejected, .canceled, .expired]

theorem validTransitions_terminal : ∀ s ∈ terminalStatuses, validTransitions s = [] := by
  decide

/-- A path in `VALID_TRANSITIONS`, immediate repeats allowed. -/
def IsPath (ss : List OrderStatus) : Prop := ss.IsChain CanBecome

instance (ss : List OrderStatus) : Decidable (IsPath ss) :=
  inferInstanceAs (Decidable (ss.IsChain CanBecome))

/-- From a status with no transitions a path goes nowhere. -/
theorem IsPath.stays {older newer : List OrderStatus} {s s' : OrderStatus}
    (h : IsPath (older ++ s :: newer)) (hs : validTransitions s = []) (hs' : s' ∈ newer) :
    s' = s := by
  have hchain : (s :: newer).IsChain CanBecome := List.IsChain.right_of_append h
  clear h
  induction newer with
  | nil => exact absurd hs' (List.not_mem_nil)
  | cons r newer ih =>
      obtain ⟨hr, htail⟩ := List.isChain_cons_cons.mp hchain
      have hrs : r = s := hr.resolve_left (by simp [hs])
      subst hrs
      rcases List.mem_cons.mp hs' with rfl | hmem
      · rfl
      · exact ih hmem htail

variable [DecidableEq ι]

/-- The row coroutine `i` last read for an order id. -/
def lastRead (h : EngineHistory ι F) (i : ι) (id : String) : Option (OrderDict F) :=
  (readBeforeWrite F).ghost (fun _ => none) i h id

/-- The order id whose row an operation overwrites. -/
def EngineOp.rowWritten : EngineOp F → Option String
  | .repoUpdateOrder id _ => some id
  | _ => none

/-- The row that `ev` overwrites still has the status that the writing coroutine
    read. -/
def FreshWrite (h : EngineHistory ι F) (i : ι)
    (ev : Event (EngineWorld ι F) (EngineOp.Ans (F := F)) Exc) : Prop :=
  ∀ id ∈ ev.op.rowWritten, ev.pre.orders.statusAt id = (lastRead h i id).bind statusOf

/-- No write of the run overtook another. -/
def NoStaleWrite : EngineHistory ι F → Prop
  | [] => True
  | (i, ev) :: h => FreshWrite h i ev ∧ NoStaleWrite h

instance (h : EngineHistory ι F) (i : ι)
    (ev : Event (EngineWorld ι F) (EngineOp.Ans (F := F)) Exc) :
    Decidable (FreshWrite h i ev) :=
  inferInstanceAs (Decidable (∀ id ∈ ev.op.rowWritten, _))

instance decidableNoStaleWrite : (h : EngineHistory ι F) → Decidable (NoStaleWrite h)
  | [] => isTrue trivial
  | (i, ev) :: h =>
      haveI := decidableNoStaleWrite h
      inferInstanceAs (Decidable (FreshWrite h i ev ∧ NoStaleWrite h))

omit [Prims F] in
theorem NoStaleWrite.fresh {h h' : EngineHistory ι F} (hfresh : NoStaleWrite h) {i : ι}
    {ev : Event (EngineWorld ι F) (EngineOp.Ans (F := F)) Exc}
    (hsuf : (i, ev) :: h' <:+ h) : FreshWrite h' i ev := by
  induction h with
  | nil => exact absurd hsuf (by simp)
  | cons entry h ih =>
      rcases List.suffix_cons_iff.mp hsuf with heq | hsuf
      · cases heq
        exact hfresh.1
      · exact ih hfresh.2 hsuf

variable {suspends : EngineOp F → Bool} {calls : ι → EngineCall F} {w₀ : EngineWorld ι F}
variable {h : EngineHistory ι F}
variable {c : Config ι (EngineWorld ι F) (EngineOp.Ans (F := F)) Exc (EngineResult F)}

/-- The statuses stored for an order id, newest first. -/
def statusTrail (id : String) (ws : List (EngineWorld ι F)) : List OrderStatus :=
  ws.filterMap fun w => w.orders.statusAt id

omit [Prims F] [DecidableEq ι] in
theorem statusTrail_cons_none {id : String} {w : EngineWorld ι F}
    {ws : List (EngineWorld ι F)} (hw : w.orders.statusAt id = none) :
    statusTrail id (w :: ws) = statusTrail id ws := by
  simp [statusTrail, hw]

omit [Prims F] [DecidableEq ι] in
theorem statusTrail_cons_some {id : String} {w : EngineWorld ι F}
    {ws : List (EngineWorld ι F)} {s : OrderStatus} (hw : w.orders.statusAt id = some s) :
    statusTrail id (w :: ws) = s :: statusTrail id ws := by
  simp [statusTrail, hw]

/-- The trail leads back along the transition table, and it is empty while no
    row of the id has a status. -/
structure TrailOk (id : String) (w : EngineWorld ι F) (ws : List (EngineWorld ι F)) :
    Prop where
  chain : (statusTrail id (w :: ws)).IsChain fun later earlier => CanBecome earlier later
  empty : w.orders.statusAt id = none → statusTrail id (w :: ws) = []

omit [Prims F] [DecidableEq ι] in
/-- One more world: its status is the previous one, the first one, or one the
    previous one can become. -/
theorem TrailOk.cons {id : String} {w w' : EngineWorld ι F} {ws : List (EngineWorld ι F)}
    (h : TrailOk id w ws)
    (hstep : w'.orders.statusAt id = w.orders.statusAt id ∨ w.orders.statusAt id = none ∨
      ∃ s s', w.orders.statusAt id = some s ∧ w'.orders.statusAt id = some s' ∧
        CanBecome s s') : TrailOk id w' (w :: ws) := by
  have hfollows : ∀ s s', w.orders.statusAt id = some s → w'.orders.statusAt id = some s' →
      CanBecome s s' → TrailOk id w' (w :: ws) := by
    intro s s' hs hs' hcan
    refine ⟨?_, fun hnone => by rw [hnone] at hs'; cases hs'⟩
    have hchain := h.chain
    rw [statusTrail_cons_some hs] at hchain
    rw [statusTrail_cons_some hs', statusTrail_cons_some hs]
    exact List.isChain_cons_cons.mpr ⟨hcan, hchain⟩
  rcases hstep with hsame | hnone | ⟨s, s', hs, hs', hcan⟩
  · cases hs : w.orders.statusAt id with
    | none =>
        rw [hs] at hsame
        have hempty := h.empty hs
        refine ⟨?_, fun _ => ?_⟩ <;> rw [statusTrail_cons_none hsame, hempty]
        exact List.isChain_nil
    | some s => exact hfollows s s hs (hsame.trans hs) (.inr rfl)
  · have hempty := h.empty hnone
    cases hs' : w'.orders.statusAt id with
    | none =>
        refine ⟨?_, fun _ => ?_⟩ <;> rw [statusTrail_cons_none hs', hempty]
        exact List.isChain_nil
    | some s' =>
        refine ⟨?_, fun hn => by rw [hs'] at hn; cases hn⟩
        rw [statusTrail_cons_some hs', hempty]
        exact List.isChain_singleton s'
  · exact hfollows s s' hs hs' hcan

/-- Without stale writes every run leaves a good trail. -/
theorem trailOk_of_run (hrun : Run suspends engineEnv (start calls w₀) h c)
    (hfresh : NoStaleWrite h) (id : String) :
    TrailOk id c.world (h.map fun entry => entry.2.pre) := by
  refine hrun.invariant_of_steps
    (I := fun h c => TrailOk id c.world (h.map fun entry => entry.2.pre))
    (P := fun h' _ i ev => FreshWrite h' i ev)
    (fun _ _ _ _ _ hsuf _ _ => hfresh.fresh hsuf) ?_ ?_
  · refine ⟨?_, fun hnone => statusTrail_cons_none hnone⟩
    cases hs : w₀.orders.statusAt id with
    | none => simp [start, statusTrail, hs]
    | some s => simp [start, statusTrail, hs]
  · intro h c i ev c' hr hI hP hs
    have hmay : (readBeforeWrite F).may ((readBeforeWrite F).ghost (fun _ => none) i h) ev.op :=
      (Run.cons hr hs).may (prog_always (calls i) _) List.suffix_rfl
    cases hs with
    | @mk e k a w' _ _ henv =>
        refine hI.cons ?_
        rcases engineEnv_orders henv id with hsame | hnone | ⟨row, rfl, hrow⟩
        · exact .inl (by simp [Table.statusAt, Config.resume, hsame])
        · exact .inr (.inl (by simp [Table.statusAt, hnone]))
        · obtain ⟨data, s, s', hread, hs, hs', hcan⟩ := hmay
          refine .inr (.inr ⟨s, s', ?_, ?_, hcan⟩)
          · rw [hP id rfl, lastRead, hread]
            exact hs
          · simp [Table.statusAt, Config.resume, hrow, hs']

-- ============================================================================
-- A fill and a cancel that overtake each other
-- ============================================================================

/-- Collaborators that succeed at once: the risk check approves, the broker fills
    and cancels, nobody listens to events. -/
def instantHandler (i : ι) : Handler (EngineWorld ι ℚ) (EngineOp.Ans (F := ℚ)) Exc :=
  fun w e =>
    match e with
    | .acquire => if w.holder = none then some (.ok (), { w with holder := some i }) else none
    | .release => some (.ok (), { w with holder := none })
    | .utcnow => some (.ok 0, w)
    | .getAccountInfo => some (.ok Dict.empty, w)
    | .getPositions _ => some (.ok [], w)
    | .executeOrder _ =>
        some (.ok { ok := true, result := some { retcode := some 10009, deal := some 1 } }, w)
    | .cancelOrder _ => some (.ok true, w)
    | .preTradeCheck _ _ _ => some (.ok { approved := true }, w)
    | .repoGetOrder id => some (.ok (w.orders id), w)
    | .repoUpdateOrder id row => some (.ok (), { w with orders := w.orders.put id row })
    | .repoSaveOrder row =>
        match w.orders "o1" with
        | some row' =>
            if row' .clientOrderId = row .clientOrderId then some (.ok "o1", w) else none
        | none => none
    | .callbacks _ _ => some (.ok [], w)
    | .invoke _ payload => some (.ok { payload }, w)

omit [DecidableEq ι] in
theorem instantHandler_sound (i : ι) (w : EngineWorld ι ℚ) (e : EngineOp ℚ)
    (a : Except Exc e.Ans) (w' : EngineWorld ι ℚ) (h : instantHandler i w e = some (a, w')) :
    engineEnv i w e a w' := by
  cases e with
  | acquire =>
      simp only [instantHandler] at h
      split at h
      next hfree =>
        cases h
        exact ⟨hfree, rfl⟩
      next => cases h
  | repoSaveOrder row =>
      simp only [instantHandler] at h
      split at h
      next row' hrow =>
        split at h
        next hclient =>
          cases h
          exact ⟨.existing hrow hclient, rfl⟩
        next => cases h
      next => cases h
  | repoGetOrder id =>
      cases h
      exact ⟨rfl, rfl⟩
  | _ =>
      cases h
      exact rfl

/-- `submit_order` in one coroutine, `cancel_order` in the other. -/
def submitAndCancel : Bool → EngineCall ℚ
  | true => .submit sampleOrder
  | false => .cancel "o1"

/-- The submit runs until SUBMITTED is stored, the cancel until it is about to
    store CANCELED, the submit to its end, and then CANCELED is stored. -/
def overtaking : List Bool :=
  List.replicate 21 true ++ List.replicate 8 false ++ List.replicate 8 true ++ [false]

/-- Two coroutines, each waiting only for its collaborators, store CANCELED over
    FILLED. -/
theorem storedStatuses_not_always_isPath :
    ¬ ∀ (h : EngineHistory Bool ℚ)
        (c : Config Bool (EngineWorld Bool ℚ) (EngineOp.Ans (F := ℚ)) Exc (EngineResult ℚ)),
        Run EngineOp.suspends engineEnv (start submitAndCancel { orders := sampleTable }) h c →
          IsPath (storedStatuses "o1" c h) := by
  intro hall
  have hrace : ∃ h c, Run EngineOp.suspends engineEnv
      (start submitAndCancel { orders := sampleTable }) h c ∧
      (storedStatuses "o1" c h).destutter (· ≠ ·) =
        [.pending, .validated, .submitted, .filled, .canceled] ∧
      ¬ IsPath (storedStatuses "o1" c h) :=
    Config.exists_run instantHandler_sound overtaking _ (by decide +kernel)
  obtain ⟨h, c, hrun, -, hnot⟩ := hrace
  exact hnot (hall h c hrun)

/-- In every interleaving without a stale write, the statuses stored for an
    order id are a path in `VALID_TRANSITIONS`, and a status with no transitions
    is never replaced. -/
theorem storedStatuses_isPath (hrun : Run suspends engineEnv (start calls w₀) h c)
    (hfresh : NoStaleWrite h) (id : String) :
    IsPath (storedStatuses id c h) ∧
      ∀ older s newer, storedStatuses id c h = older ++ s :: newer →
        s ∈ terminalStatuses → ∀ s' ∈ newer, s' = s := by
  have hpath : IsPath (storedStatuses id c h) := by
    have hchain := (trailOk_of_run hrun hfresh id).chain
    rw [IsPath, storedStatuses, List.filterMap_reverse, List.isChain_reverse]
    exact hchain
  refine ⟨hpath, fun older s newer heq hs s' hs' => ?_⟩
  rw [heq] at hpath
  exact hpath.stays (validTransitions_terminal s hs) hs'

/-- The same two calls, the cancel after the submit. -/
theorem storedStatuses_isPath_serial :
    ∃ h c, Run EngineOp.suspends engineEnv
        (start submitAndCancel { orders := sampleTable }) h c ∧ NoStaleWrite h ∧
      (storedStatuses "o1" c h).destutter (· ≠ ·) = [.pending, .validated, .submitted, .filled] ∧
      IsPath (storedStatuses "o1" c h) := by
  have hserial : ∃ h c, Run EngineOp.suspends engineEnv
      (start submitAndCancel { orders := sampleTable }) h c ∧ NoStaleWrite h ∧
      (storedStatuses "o1" c h).destutter (· ≠ ·) = [.pending, .validated, .submitted, .filled] :=
    Config.exists_run instantHandler_sound
      (List.replicate 29 true ++ List.replicate 3 false) _ (by decide +kernel)
  obtain ⟨h, c, hrun, hfresh, hstored⟩ := hserial
  exact ⟨h, c, hrun, hfresh, hstored, (storedStatuses_isPath hrun hfresh "o1").1⟩

end Mtrader.Execution
