/-
  Mtrader.Execution.Repository

  The engine's methods over a repository whose calls act at once.

  `Repository env orders` is all that these results know of an environment: a row
  that is read is the row stored, an update stores its row or raises (before or
  after storing it), and nothing but an update and a save writes.
  `updateOrderStatus_wp` says what `update_order_status` does over one, and what
  it tells the callbacks.
-/

import Mtrader.Execution.Bookkeeping
import Mtrader.Execution.Table

namespace Mtrader.Execution

open Coroutine Py Mtrader.Connectors Mtrader.Risk

variable {F W : Type}

/-- An operation that may change a stored row. -/
def EngineOp.writes : EngineOp F → Bool
  | .repoUpdateOrder _ _ | .repoSaveOrder _ => true
  | _ => false

/-- The environment keeps the table of orders that `orders` projects. -/
structure Repository (env : Env W (EngineOp.Ans (F := F)) Exc) (orders : W → Table F) :
    Prop where
  get : ∀ {w id data w'}, env w (.repoGetOrder id) (.ok data) w' → data = orders w id
  update : ∀ {w id row a w'}, env w (.repoUpdateOrder id row) a w' →
    orders w' = (orders w).put id row ∨ (∃ x, a = .error x) ∧ orders w' = orders w
  keeps : ∀ {w e a w'}, e.writes = false → env w e a w' → orders w' = orders w

-- ============================================================================
-- What the callbacks are told
-- ============================================================================

/-- Every payload that was announced was `Good` for the table at that moment. -/
def Announced (orders : W → Table F) (Good : Table F → OrderDict F → Prop)
    (t : Trail W (EngineOp.Ans (F := F)) Exc) : Prop :=
  ∀ ev ∈ t.log, ∀ event payload, ev.op = .callbacks event payload → Good (orders ev.pre) payload

/-- An operation that announces a payload. -/
def EngineOp.announces : EngineOp F → Bool
  | .callbacks _ _ => true
  | _ => false

section

variable {env : Env W (EngineOp.Ans (F := F)) Exc} {orders : W → Table F}
variable {Good : Table F → OrderDict F → Prop} {t : Trail W (EngineOp.Ans (F := F)) Exc}

theorem Announced.quiet (h : Announced orders Good t) {e : EngineOp F} (he : e.announces = false)
    (a : Except Exc e.Ans) (w' : W) : Announced orders Good (t.record e a w') := by
  intro ev hev event payload hop
  rcases List.mem_cons.mp hev with rfl | hev
  · cases hop
    cases he
  · exact h ev hev event payload hop

theorem Announced.callbacks (h : Announced orders Good t) {event : EngineEvent}
    {payload : OrderDict F} (hgood : Good (orders t.world) payload)
    (a : Except Exc (EngineOp.callbacks event payload).Ans) (w' : W) :
    Announced orders Good (t.record (.callbacks event payload) a w') := by
  intro ev hev event' payload' hop
  rcases List.mem_cons.mp hev with rfl | hev
  · cases hop
    exact hgood
  · exact h ev hev event' payload' hop

/-- The loop of `_emit` announces nothing more. -/
theorem invokeAll_wp (hrepo : Repository env orders) (cbs : List CallbackId)
    (payload : OrderDict F) (h : Announced orders Good t) :
    wp env (invokeAll cbs payload)
      (fun _ t' => Announced orders Good t' ∧ orders t'.world = orders t.world) t := by
  induction cbs generalizing payload t with
  | nil => exact ⟨h, rfl⟩
  | cons cb cbs ih =>
      refine wp_op_bind.mpr ⟨fun out w' henv => ?_, fun x w' henv => ?_⟩
      · refine wp_mono (ih out.payload (h.quiet rfl _ _)) fun _ t' ht' => ⟨ht'.1, ?_⟩
        exact ht'.2.trans (hrepo.keeps rfl henv)
      · exact ⟨h.quiet rfl _ _, hrepo.keeps rfl henv⟩

/-- `_emit` announces its payload and leaves the table. -/
theorem emit_wp (hrepo : Repository env orders) (event : EngineEvent) {payload : OrderDict F}
    (h : Announced orders Good t) (hgood : Good (orders t.world) payload) :
    wp env (emit event payload)
      (fun _ t' => Announced orders Good t' ∧ orders t'.world = orders t.world) t := by
  refine wp_op_bind.mpr ⟨fun cbs w' henv => ?_, fun x w' henv => ?_⟩
  · refine wp_mono (invokeAll_wp hrepo cbs payload (h.callbacks hgood _ _)) ?_
    exact fun _ t' ht' => ⟨ht'.1, ht'.2.trans (hrepo.keeps rfl henv)⟩
  · exact ⟨h.callbacks hgood _ _, hrepo.keeps rfl henv⟩

/-- `async with self._lock`: the body, between two operations that write nothing. -/
theorem withLock_wp {R : Type} {body : EngineM F R}
    {P Q : Except Exc R → Trail W (EngineOp.Ans (F := F)) Exc → Prop}
    (hbody : ∀ w', env t.world .acquire (.ok ()) w' →
      wp env body P (t.record .acquire (.ok ()) w'))
    (hblocked : ∀ x w', env t.world .acquire (.error x) w' →
      Q (.error x) (t.record .acquire (.error x) w'))
    (hdone : ∀ out t' w', P out t' → env t'.world .release (.ok ()) w' →
      Q out (t'.record .release (.ok ()) w'))
    (hraised : ∀ out t' x w', P out t' → env t'.world .release (.error x) w' →
      Q (.error x) (t'.record .release (.error x) w')) :
    wp env (withLock body) Q t := by
  refine wp_op_bind.mpr ⟨fun _ w' henv => ?_, hblocked⟩
  refine wp_andFinally (wp_mono (hbody w' henv) fun out t' hP => ?_)
  refine wp_op.mpr fun r w'' hrelease => ?_
  cases r with
  | ok _ => exact hdone out t' w'' hP hrelease
  | error x => exact hraised out t' x w'' hP hrelease

-- ============================================================================
-- What a status update stores
-- ============================================================================

variable [Prims F]

/-- The order is what the row stored for `id` is read as. -/
def Hydrated (table : Table F) (id : String) (order : Order F) : Prop :=
  ∃ data nowC nowU, table id = some data ∧ hydrate nowC nowU data = .ok order

theorem Hydrated.statusAt {table : Table F} {id : String} {order : Order F}
    (h : Hydrated table id order) : table.statusAt id = some order.status := by
  obtain ⟨data, nowC, nowU, hdata, hhydrate⟩ := h
  rw [Table.statusAt, hdata]
  exact statusOf_of_hydrate hhydrate

/-- How an `update_order_status` can end: the order it read is stored with the new
    status, or it raises and the table is as before. -/
inductive StatusUpdate (table : Table F) (id : String) (status : OrderStatus)
    (kwargs : List (OrderField F)) : Except Exc Unit → Table F → Prop
  | stored {out : Except Exc Unit} {order : Order F} {now : Time} :
      Hydrated table id order → CanBecome order.status status →
      StatusUpdate table id status kwargs out
        (table.put id (order.updated status kwargs now).toDict)
  | raised (x : Exc) : StatusUpdate table id status kwargs (.error x) table

section

variable {table table' : Table F} {id : String} {status : OrderStatus}
variable {kwargs : List (OrderField F)} {out : Except Exc Unit}

omit [Prims F] in
@[simp] theorem statusAt_put_updated (order : Order F) (now : Time) :
    (table.put id (order.updated status kwargs now).toDict).statusAt id = some status := by
  simp [Table.statusAt]

/-- An update that returns has stored its status. -/
theorem StatusUpdate.statusAt_of_ok (h : StatusUpdate table id status kwargs (.ok ()) table') :
    table'.statusAt id = some status := by
  cases h with
  | stored _ _ => exact statusAt_put_updated _ _

/-- An update stores its status or nothing. -/
theorem StatusUpdate.statusAt (h : StatusUpdate table id status kwargs out table') :
    table'.statusAt id = some status ∨ table' = table := by
  cases h with
  | stored _ _ => exact .inl (statusAt_put_updated _ _)
  | raised x => exact .inr rfl

/-- An update to a status that the stored one cannot become raises. -/
theorem StatusUpdate.refused (h : StatusUpdate table id status kwargs out table')
    (hstatus : ∀ s, table.statusAt id = some s → ¬ CanBecome s status) :
    (∃ x, out = .error x) ∧ table' = table := by
  cases h with
  | stored hread hcan => exact absurd hcan (hstatus _ hread.statusAt)
  | raised x => exact ⟨⟨x, rfl⟩, rfl⟩

end

theorem getOrder_wp (hrepo : Repository env orders) (id : String)
    (h : Announced orders Good t) :
    wp env (getOrder id)
      (fun out t' => Announced orders Good t' ∧ orders t'.world = orders t.world ∧
        ∀ order, out = .ok (some order) → Hydrated (orders t.world) id order) t := by
  refine wp_op_bind.mpr ⟨fun data w₁ hget => ?_, fun x w₁ hget =>
    ⟨h.quiet rfl _ _, hrepo.keeps rfl hget, fun _ ho => nomatch ho⟩⟩
  have h₁ : orders w₁ = orders t.world := hrepo.keeps rfl hget
  have hdata := hrepo.get hget
  cases data with
  | none => exact ⟨h.quiet rfl _ _, h₁, fun _ ho => nomatch ho⟩
  | some data =>
      refine wp_op_bind.mpr ⟨fun nowC w₂ hnowC => ?_, fun x w₂ hnowC =>
        ⟨(h.quiet rfl _ _).quiet rfl _ _, (hrepo.keeps rfl hnowC).trans h₁, fun _ ho => nomatch ho⟩⟩
      have h₂ : orders w₂ = orders t.world := (hrepo.keeps rfl hnowC).trans h₁
      refine wp_op_bind.mpr ⟨fun nowU w₃ hnowU => ?_, fun x w₃ hnowU =>
        ⟨((h.quiet rfl _ _).quiet rfl _ _).quiet rfl _ _,
          (hrepo.keeps rfl hnowU).trans h₂, fun _ ho => nomatch ho⟩⟩
      have h₃ : orders w₃ = orders t.world := (hrepo.keeps rfl hnowU).trans h₂
      have hquiet := ((h.quiet (e := .repoGetOrder id) rfl (.ok (some data)) w₁).quiet
        (e := .utcnow) rfl (.ok nowC) w₂).quiet (e := .utcnow) rfl (.ok nowU) w₃
      refine wp_ofExcept_bind.mpr ⟨fun order hhydrate => ⟨hquiet, h₃, ?_⟩, fun x _ =>
        ⟨hquiet, h₃, fun _ ho => nomatch ho⟩⟩
      rintro order' horder
      cases horder
      exact ⟨data, nowC, nowU, hdata.symm, hhydrate⟩

/-- `update_order_status` announces the row it has just stored. -/
theorem updateOrderStatus_wp (hrepo : Repository env orders) (id : String)
    (status : OrderStatus) (kwargs : List (OrderField F)) (h : Announced orders Good t)
    (hgood : ∀ order now, Hydrated (orders t.world) id order →
      Good ((orders t.world).put id (order.updated status kwargs now).toDict)
        (order.updated status kwargs now).toDict) :
    wp env (updateOrderStatus id status kwargs)
      (fun out t' => Announced orders Good t' ∧
        StatusUpdate (orders t.world) id status kwargs out (orders t'.world)) t := by
  have hraised : ∀ x (t' : Trail W (EngineOp.Ans (F := F)) Exc), Announced orders Good t' →
      orders t'.world = orders t.world → Announced orders Good t' ∧
        StatusUpdate (orders t.world) id status kwargs (.error x) (orders t'.world) :=
    fun x t' hann hsame => ⟨hann, hsame ▸ .raised x⟩
  refine wp_seq (getOrder_wp hrepo id h) (fun found t₁ ⟨hann, hsame, hread⟩ => ?_)
    fun x t₁ ⟨hann, hsame, _⟩ => hraised x t₁ hann hsame
  cases found with
  | none => exact hraised _ t₁ hann hsame
  | some order =>
      simp only
      split
      next => exact hraised _ t₁ hann hsame
      next hcan =>
        have hread := hread order rfl
        have hcan : CanBecome order.status status := not_not.mp hcan
        refine wp_op_bind.mpr ⟨fun now w₂ hnow => ?_, fun x w₂ hnow =>
          hraised x _ (hann.quiet rfl _ _) ((hrepo.keeps rfl hnow).trans hsame)⟩
        have hsame₂ : orders w₂ = orders t.world := (hrepo.keeps rfl hnow).trans hsame
        -- from here on the row is stored, whatever is raised
        have hstored : ∀ out, StatusUpdate (orders t.world) id status kwargs out
            ((orders t.world).put id (order.updated status kwargs now).toDict) :=
          fun out => .stored hread hcan
        refine wp_op_bind.mpr ⟨fun _ w₃ hupdate => ?_, fun x w₃ hupdate => ?_⟩
        · have h₃ : orders w₃ =
              (orders t.world).put id (order.updated status kwargs now).toDict := by
            rcases hrepo.update hupdate with hput | ⟨⟨x, hx⟩, -⟩
            · rw [hput, Trail.record_world, hsame₂]
            · cases hx
          have hann₃ := (hann.quiet (e := .utcnow) rfl (.ok now) w₂).quiet (e := .repoUpdateOrder id
            (order.updated status kwargs now).toDict) rfl (.ok ()) w₃
          have hgood₃ : Good (orders w₃) (order.updated status kwargs now).toDict :=
            h₃ ▸ hgood order now hread
          refine wp_seq (emit_wp hrepo .orderUpdated hann₃ hgood₃) ?_ ?_
          · rintro _ t₄ ⟨hann₄, hsame₄⟩
            have h₄ := hsame₄.trans h₃
            split
            next =>
              refine wp_mono (emit_wp hrepo .orderRejected hann₄ (hsame₄ ▸ hgood₃)) ?_
              rintro out t₅ ⟨hann₅, hsame₅⟩
              exact ⟨hann₅, hsame₅.trans h₄ ▸ hstored out⟩
            next => exact ⟨hann₄, h₄ ▸ hstored _⟩
          · rintro x t₄ ⟨hann₄, hsame₄⟩
            exact ⟨hann₄, hsame₄.trans h₃ ▸ hstored _⟩
        · have hann₃ := (hann.quiet (e := .utcnow) rfl (.ok now) w₂).quiet (e := .repoUpdateOrder id
            (order.updated status kwargs now).toDict) rfl (.error x) w₃
          rcases hrepo.update hupdate with hput | ⟨-, hkept⟩
          · refine ⟨hann₃, ?_⟩
            rw [Trail.record_world, hput, Trail.record_world, hsame₂]
            exact hstored _
          · exact hraised x _ hann₃ (hkept.trans hsame₂)

/-- What `update_order_status` stores, whatever it announces. -/
theorem updateOrderStatus_stores (hrepo : Repository env orders) (id : String)
    (status : OrderStatus) (kwargs : List (OrderField F)) :
    wp env (updateOrderStatus id status kwargs)
      (fun out t' => StatusUpdate (orders t.world) id status kwargs out (orders t'.world)) t := by
  have hann : Announced orders (fun _ _ => True) t := fun _ _ _ _ _ => trivial
  exact wp_mono (updateOrderStatus_wp hrepo id status kwargs hann fun _ _ _ => trivial)
    fun _ _ h => h.2

omit [Prims F] in
/-- `_emit` stores nothing. -/
theorem emit_keeps (hrepo : Repository env orders) (event : EngineEvent)
    (payload : OrderDict F) :
    wp env (emit event payload) (fun _ t' => orders t'.world = orders t.world) t := by
  have hann : Announced orders (fun _ _ => True) t := fun _ _ _ _ _ => trivial
  exact wp_mono (emit_wp hrepo event hann trivial) fun _ _ h => h.2

/-- An accepted order is stored as SUBMITTED or FILLED when `submit_order` returns;
    when it raises it may still be VALIDATED. -/
theorem recordAccepted_wp (hrepo : Repository env orders) {order : Order F}
    {response : BrokerResponse F}
    (hstatus : (orders t.world).statusAt order.id = some .validated)
    (hretcode : (response.result.getD {}).retcode.getD 0 ≠ 0) :
    wp env (recordAccepted order response)
      (fun out t' => (orders t'.world).StoredAs order.id [.validated, .submitted, .filled] ∧
        ∀ r, out = .ok r → (orders t'.world).StoredAs order.id [.submitted, .filled]) t := by
  have hraised : ∀ x (t' : Trail W (EngineOp.Ans (F := F)) Exc),
      (orders t'.world).StoredAs order.id [.validated, .submitted, .filled] →
      (orders t'.world).StoredAs order.id [.validated, .submitted, .filled] ∧
        ∀ r, (.error x : Except Exc (Order F)) = .ok r →
          (orders t'.world).StoredAs order.id [.submitted, .filled] :=
    fun x t' h => ⟨h, fun _ hr => nomatch hr⟩
  simp only [recordAccepted, if_pos hretcode]
  refine wp_op_bind.mpr ⟨fun openedAt w₁ hnow => ?_, fun x w₁ hnow => hraised x _ ?_⟩
  swap
  · exact ⟨.validated, by simp, (hrepo.keeps rfl hnow : orders w₁ = _) ▸ hstatus⟩
  have h₁ : orders w₁ = orders t.world := hrepo.keeps rfl hnow
  refine wp_seq (updateOrderStatus_stores hrepo order.id .submitted _)
    (fun _ t₂ hsubmitted => ?_) fun x t₂ hsubmitted => hraised x t₂ ?_
  swap
  · rcases hsubmitted.statusAt with h | h
    · exact ⟨.submitted, by simp, h⟩
    · exact ⟨.validated, by simp, by rw [h, Trail.record_world, h₁, hstatus]⟩
  have h₂ : (orders t₂.world).statusAt order.id = some .submitted :=
    hsubmitted.statusAt_of_ok
  split
  next =>
    refine wp_op_bind.mpr ⟨fun closedAt w₃ hnow => ?_, fun x w₃ hnow => hraised x _ ?_⟩
    swap
    · exact ⟨.submitted, by simp, (hrepo.keeps rfl hnow : orders w₃ = _) ▸ h₂⟩
    have h₃ : orders w₃ = orders t₂.world := hrepo.keeps rfl hnow
    refine wp_seq (updateOrderStatus_stores hrepo order.id .filled _)
      (fun _ t₄ hfilled => ?_) fun x t₄ hfilled => hraised x t₄ ?_
    swap
    · rcases hfilled.statusAt with h | h
      · exact ⟨.filled, by simp, h⟩
      · exact ⟨.submitted, by simp, by rw [h, Trail.record_world, h₃, h₂]⟩
    have h₄ : (orders t₄.world).statusAt order.id = some .filled := hfilled.statusAt_of_ok
    refine wp_seq (emit_keeps hrepo .orderFilled _)
      (fun _ t₅ h => ?_) fun x t₅ h => hraised x t₅ ?_
    · have h₅ : (orders t₅.world).statusAt order.id = some .filled := h ▸ h₄
      exact ⟨⟨.filled, by simp, h₅⟩, fun _ _ => ⟨.filled, by simp, h₅⟩⟩
    · exact ⟨.filled, by simp, h ▸ h₄⟩
  next => exact ⟨⟨.submitted, by simp, h₂⟩, fun _ _ => ⟨.submitted, by simp, h₂⟩⟩

/-- An order whose stored status can neither become VALIDATED nor, where the risk
    check refuses it, REJECTED is not changed by a submission, which raises. -/
theorem submitOrder_refused (hrepo : Repository env orders) {order : Order F} {s : OrderStatus}
    (hquantity : Prims.le order.quantity (Prims.ofRat 0) = false)
    (hstatus : (orders t.world).statusAt order.id = some s) (hvalidated : ¬ CanBecome s .validated)
    (hrejected : ∀ {w d info rows approval w'},
      env w (.preTradeCheck d info rows) (.ok approval) w' → approval.approved = false →
        ¬ CanBecome s .rejected) :
    wp env (submitOrder order)
      (fun out t' => (∃ x, out = .error x) ∧ orders t'.world = orders t.world) t := by
  refine withLock_wp
    (P := fun out t' => (∃ x, out = .error x) ∧ orders t'.world = orders t.world)
    (fun w₁ hacquire => ?_) (fun x w₁ hacquire => ⟨⟨x, rfl⟩, hrepo.keeps rfl hacquire⟩)
    (fun out t' w' ⟨hout, hsame⟩ hrelease => ⟨hout, (hrepo.keeps rfl hrelease).trans hsame⟩)
    fun out t' x w' ⟨_, hsame⟩ hrelease => ⟨⟨x, rfl⟩, (hrepo.keeps rfl hrelease).trans hsame⟩
  have h₁ : orders w₁ = orders t.world := hrepo.keeps rfl hacquire
  unfold submitLocked
  split
  next => exact ⟨⟨_, rfl⟩, h₁⟩
  next =>
  rw [hquantity]
  refine wp_op_bind.mpr ⟨fun info w₂ hinfo => ?_, fun x w₂ hinfo =>
    ⟨⟨x, rfl⟩, (hrepo.keeps rfl hinfo).trans h₁⟩⟩
  have h₂ : orders w₂ = orders t.world := (hrepo.keeps rfl hinfo).trans h₁
  refine wp_op_bind.mpr ⟨fun rows w₃ hrows => ?_, fun x w₃ hrows =>
    ⟨⟨x, rfl⟩, (hrepo.keeps rfl hrows).trans h₂⟩⟩
  have h₃ : orders w₃ = orders t.world := (hrepo.keeps rfl hrows).trans h₂
  refine wp_op_bind.mpr ⟨fun approval w₄ hcheck => ?_, fun x w₄ hcheck =>
    ⟨⟨x, rfl⟩, (hrepo.keeps rfl hcheck).trans h₃⟩⟩
  have h₄ : orders w₄ = orders t.world := (hrepo.keeps rfl hcheck).trans h₃
  -- either way the next step is a status update that the stored row refuses
  have hrefused : ∀ {status kwargs} {f : Unit → EngineM F (Order F)} {t₅},
      ¬ CanBecome s status → orders t₅.world = orders t.world →
      wp env (updateOrderStatus order.id status kwargs >>= f)
        (fun out t' => (∃ x, out = .error x) ∧ orders t'.world = orders t.world) t₅ := by
    intro status kwargs f t₅ hnot h₅
    have hnone : ∀ s', (orders t₅.world).statusAt order.id = some s' → ¬ CanBecome s' status := by
      intro s' hs'
      rw [h₅, hstatus] at hs'
      cases hs'
      exact hnot
    refine wp_seq (updateOrderStatus_stores hrepo order.id status kwargs)
      (fun u t₆ h => ?_) fun x t₆ h => ?_
    · obtain ⟨⟨x, hx⟩, -⟩ := h.refused hnone
      cases hx
    · exact ⟨⟨x, rfl⟩, (h.refused hnone).2.trans h₅⟩
  cases happroved : approval.approved with
  | false => exact hrefused (hrejected hcheck happroved) h₄
  | true => exact hrefused hvalidated h₄

end

end Mtrader.Execution
