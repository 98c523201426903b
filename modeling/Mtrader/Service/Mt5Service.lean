/-
  Mtrader.Service.Mt5Service

  An `ExecutionEngine` on an `MT5Connector`, as `app.py` wires them: the engine's
  calls of its connector become the connector's programs, and what is left are
  the calls of the repository, the risk check, the callbacks, the clock and the
  terminal.
-/

import Mtrader.Execution.Bookkeeping
import Mtrader.Execution.Table
import Mtrader.Connectors.Idempotency

namespace Mtrader.Service

open Coroutine Py Mtrader.Execution Mtrader.Connectors Mtrader.Risk

variable {F : Type}

/-- What the engine and its MT5 connector call together. -/
abbrev Mt5ServiceOp (F : Type) : Type := EngineOp F ⊕ Mt5Op F

abbrev Mt5ServiceAns (F : Type) : Mt5ServiceOp F → Type :=
  Prog.SumAns (EngineOp.Ans (F := F)) (Mt5Op.Ans (F := F))

/-- The programs of an engine on an MT5 connector. -/
abbrev Mt5ServiceM (F : Type) : Type → Type := Prog (Mt5ServiceAns F) Exc

/-- A call of the connector, inside the service. -/
abbrev connector {R : Type} (p : Mt5M F R) : Mt5ServiceM F R := p.inr

variable [Prims F]

/-- `self.connector` is an `MT5Connector`. -/
def overMt5 : (e : EngineOp F) → Mt5ServiceM F e.Ans
  | .getAccountInfo => connector getAccountInfo
  | .getPositions symbol => connector (getPositions symbol)
  | .executeOrder order => connector (executeOrder order)
  | .cancelOrder orderId => connector (Connectors.cancelOrder (.str orderId))
  | e => Prog.opInl e

/-- An engine operation that is no call of the connector is one of the service's. -/
theorem via_own {W : Type} {env : Env W (Mt5ServiceAns F) Exc} {e : EngineOp F}
    (he : overMt5 e = Prog.opInl e) {a : Except Exc e.Ans}
    {t t' : Trail W (Mt5ServiceAns F) Exc} (h : env.via overMt5 t e a t') :
    ∃ w', env t.world (.inl e) a w' ∧ t' = t.record (.inl e) a w' := by
  rw [Env.via, he] at h
  exact exec_opInl h

/-- Such an operation and then the rest of a program. -/
theorem wp_own {W R : Type} {env : Env W (Mt5ServiceAns F) Exc} {e : EngineOp F}
    (he : overMt5 e = Prog.opInl e) {f : e.Ans → EngineM F R}
    {Q : Except Exc R → Trail (Trail W (Mt5ServiceAns F) Exc) (EngineOp.Ans (F := F)) Exc → Prop}
    {s : Trail (Trail W (Mt5ServiceAns F) Exc) (EngineOp.Ans (F := F)) Exc}
    (hok : ∀ r w', env s.world.world (.inl e) (.ok r) w' →
      wp (env.via overMt5) (f r) Q (s.record e (.ok r) (s.world.record (.inl e) (.ok r) w')))
    (herr : ∀ x w', env s.world.world (.inl e) (.error x) w' →
      Q (.error x) (s.record e (.error x) (s.world.record (.inl e) (.error x) w'))) :
    wp (env.via overMt5) (engine e >>= f) Q s := by
  refine wp_op_bind.mpr ⟨fun r t' hvia => ?_, fun x t' hvia => ?_⟩
  · obtain ⟨w', henv, rfl⟩ := via_own he hvia
    exact hok r w' henv
  · obtain ⟨w', henv, rfl⟩ := via_own he hvia
    exact herr x w' henv

/-- Bookkeeping is done by the engine itself. -/
theorem overMt5_bookkeeping {e : EngineOp F} (he : e.bookkeeping = true) :
    overMt5 e = Prog.opInl e := by
  cases e with
  | utcnow => rfl
  | repoGetOrder id => rfl
  | repoUpdateOrder id row => rfl
  | callbacks event payload => rfl
  | invoke cb payload => rfl
  | _ => cases he

/-- What the bookkeeping operations of the engine keep, a program of bookkeeping
    keeps. -/
theorem bookkeeping_via {W R : Type} {env : Env W (Mt5ServiceAns F) Exc} {p : EngineM F R}
    (hp : p.Always (bookkeepingOnly F)) {J : Trail W (Mt5ServiceAns F) Exc → Prop}
    (hJ : ∀ t (e : EngineOp F) a w', J t → e.bookkeeping = true → env t.world (.inl e) a w' →
      J (t.record (.inl e) a w'))
    {s : Trail (Trail W (Mt5ServiceAns F) Exc) (EngineOp.Ans (F := F)) Exc} (hs : J s.world) :
    wp (env.via overMt5) p (fun _ s' => J s'.world) s := by
  refine wp_mono ((hp ()).wp (J := fun _ s => J s.world) hs ?_) ?_
  · intro _ s e a t' hs he hvia
    obtain ⟨w', hstep, rfl⟩ := via_own (overMt5_bookkeeping he) hvia
    exact hJ _ _ _ _ hs he hstep
  · rintro _ s' ⟨-, hs', -⟩
    exact hs'

-- ============================================================================
-- The service's world
-- ============================================================================

omit [Prims F]

/-- The orders table, the connector's `_idempotency` dict, and whether the broker
    has accepted a request. -/
structure ServiceWorld (F : Type) where
  orders : Table F
  ledger : Ledger := fun _ => none
  accepted : Bool := false

/-- The trails of the service. -/
abbrev ServiceTrail (F : Type) : Type := Trail (ServiceWorld F) (Mt5ServiceAns F) Exc

/-- What an engine's trail over the service looks like. -/
abbrev EngineTrail (F : Type) : Type :=
  Trail (ServiceTrail F) (EngineOp.Ans (F := F)) Exc

/-- An answer that accepts the request. -/
def acceptedAnswer : Except Exc (Option (OrderSendResult F)) → Bool
  | .ok (some r) => r.retcode ∈ successCodes
  | _ => false

/-- A repository whose calls act at once, as a `PostgresRepository` saves orders,
    and may raise before or after acting; the connector's own dict; and a risk
    check, callbacks and a terminal that answer anything. -/
def serviceEnv (F : Type) : Env (ServiceWorld F) (Mt5ServiceAns F) Exc :=
  fun w e a w' =>
    match e, a with
    | .inl .utcnow, .error _ => False
    | .inl (.repoGetOrder id), .ok data => data = w.orders id ∧ w' = w
    | .inl (.repoUpdateOrder id row), .ok _ => w' = { w with orders := w.orders.put id row }
    | .inl (.repoUpdateOrder id row), .error _ =>
        w' = w ∨ w' = { w with orders := w.orders.put id row }
    | .inl (.repoSaveOrder row), a =>
        ∃ orders saved, SaveOrder w.orders row saved orders ∧ w' = { w with orders } ∧
          (a = saved ∨ ∃ x, a = .error x)
    | .inr (.idempotencyGet id), a => a = .ok (w.ledger id) ∧ w' = w
    | .inr (.idempotencySet id ticket), a =>
        a = .ok () ∧ w' = { w with ledger := Function.update w.ledger id (some ticket) }
    | .inr (.orderSend _), a => w' = { w with accepted := w.accepted || acceptedAnswer a }
    | _, _ => w' = w

/-- The requests sent, newest first. -/
def serviceRequests (log : List (Event (ServiceWorld F) (Mt5ServiceAns F) Exc)) :
    List (TradeRequest F) :=
  log.filterMap fun ev =>
    match ev.op with
    | .inl _ => none
    | .inr e => e.request

theorem mem_serviceRequests {log : List (Event (ServiceWorld F) (Mt5ServiceAns F) Exc)}
    {req : TradeRequest F} :
    req ∈ serviceRequests log ↔ ∃ ev ∈ log, ev.op = .inr (.orderSend req) := by
  rw [serviceRequests, List.mem_filterMap]
  refine exists_congr fun ev => and_congr_right fun _ => ?_
  rcases ev with ⟨w, e | e, a⟩
  · simp
  · cases e <;> simp [Mt5Op.request]

/-- Collaborators that succeed, with an approving risk check and a terminal that
    answers each request with `r`. -/
def serviceAnswers (r : OrderSendResult ℚ) : Answers (ServiceWorld ℚ) (Mt5ServiceAns ℚ) Exc :=
  fun w e =>
    match e with
    | .inl .acquire => (.ok (), w)
    | .inl .release => (.ok (), w)
    | .inl .utcnow => (.ok 0, w)
    | .inl .getAccountInfo => (.ok Dict.empty, w)
    | .inl (.getPositions _) => (.ok [], w)
    | .inl (.executeOrder _) => (.ok (refuse "unreachable"), w)
    | .inl (.cancelOrder _) => (.ok false, w)
    | .inl (.preTradeCheck _ _ _) => (.ok { approved := true }, w)
    | .inl (.repoGetOrder id) => (.ok (w.orders id), w)
    | .inl (.repoUpdateOrder id row) => (.ok (), { w with orders := w.orders.put id row })
    | .inl (.repoSaveOrder row) =>
        match w.orders "o1" with
        | some row' =>
            if row' .clientOrderId = row .clientOrderId then (.ok "o1", w)
            else (.error (.external "duplicate key"), w)
        | none => (.error (.external "no row"), w)
    | .inl (.callbacks _ _) => (.ok [], w)
    | .inl (.invoke _ payload) => (.ok { payload }, w)
    | .inr (.orderSend _) =>
        (.ok (some r), { w with accepted := w.accepted || r.retcode ∈ successCodes })
    | .inr e =>
        ((steadyTerminal r w.ledger e).1, { w with ledger := (steadyTerminal r w.ledger e).2 })

theorem serviceAnswers_sound (r : OrderSendResult ℚ) (w : ServiceWorld ℚ) (e : Mt5ServiceOp ℚ) :
    serviceEnv ℚ w e (serviceAnswers r w e).1 (serviceAnswers r w e).2 := by
  rcases e with e | e
  · cases e with
    | repoGetOrder id => exact ⟨rfl, rfl⟩
    | repoSaveOrder row =>
        simp only [serviceAnswers]
        split
        next row' hrow =>
          split
          next hclient => exact ⟨_, _, .existing hrow hclient, rfl, .inl rfl⟩
          next => exact ⟨_, _, .raises (.external "duplicate key"), rfl, .inl rfl⟩
        next => exact ⟨_, _, .raises (.external "no row"), rfl, .inl rfl⟩
    | _ => exact rfl
  · cases e with
    | idempotencyGet id => exact ⟨rfl, rfl⟩
    | idempotencySet id ticket => exact ⟨rfl, rfl⟩
    | _ => exact rfl

end Mtrader.Service
