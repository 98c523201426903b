/-
  Mtrader.Gateway.Flow

  Who performs what in the gateway, and in which order.

  Only `connect` puts a connection into the local map and into its user's set, only
  `disconnect` takes it out, and only a listener sends messages of channels.  `Phase` is
  how far such a coroutine has come, and `flow` allows each of its operations in the phase
  in which it belongs.
-/

import Mtrader.Gateway.Manager

namespace Mtrader.Gateway

open Py Coroutine

-- ============================================================================
-- Phases
-- ============================================================================

/-- How far a `connect` or a listener has come. -/
inductive Phase
  | outside
  /-- The socket has been accepted. -/
  | accepted
  /-- The connection is in the local map. -/
  | placed
  /-- The connection is in its user's set. -/
  | joined
  /-- A message has been taken. -/
  | heard (msg : Message) (route : Route)
  /-- These connections of the user are still to be looked up. -/
  | sending (msg : Message) (route : Route) (todo : List String)
  /-- The socket of a connection is about to be sent the message. -/
  | holding (msg : Message) (route : Route) (connectionId : String) (todo : List String)
      (websocket : Socket)
  /-- An exception has ended the listener. -/
  | failed

/-- Is the listener done with its message? -/
def Phase.free : Phase → Bool
  | .outside => true
  | .sending _ _ [] => true
  | _ => false

/-- After an answer of `get_message`. -/
def Phase.take (repr : Json → String) (p : Phase) : Except Exc (Option Message) → Phase
  | .ok (some msg) => match msg.route repr with
      | .ok (some route) => .heard msg route
      | .ok none => .outside
      | .error _ => .failed
  | .ok none => p
  | .error _ => .failed

def Phase.next (repr : Json → String) (p : Phase) (e : GatewayOp) (a : Except Exc e.Ans) : Phase :=
  match e, a, p with
  | .accept _, .ok _, .outside => .accepted
  | .setLocal .., .ok _, .accepted => .placed
  | .sadd (.userConnections _) _, .ok _, .placed => .joined
  | .getMessage _, a, p => if p.free then p.take repr a else p
  | .smembers (.userConnections _), .ok ids, .heard msg route => .sending msg route ids
  | .smembers (.userConnections _), .error _, .heard .. => .failed
  | .getLocal .., .ok (some websocket), .sending msg route (id :: todo) =>
      .holding msg route id todo websocket
  | .getLocal .., .ok none, .sending msg route (_ :: todo) => .sending msg route todo
  | .getLocal .., .error _, .sending _ _ (_ :: _) => .failed
  | .sendJson _ (.message ..), .ok _, .holding msg route _ todo _ => .sending msg route todo
  | .sendJson _ (.message ..), .error _, .holding .. => .failed
  | _, _, p => p

/-- The operations that a call may come to in a phase. -/
def flow (repr : Json → String) (call : GatewayCall) : Discipline GatewayOp.Ans Exc Phase where
  may p e := match e with
    | .accept websocket => ∃ manager user id session,
        call = .connect manager websocket user id session ∧ p = .outside
    | .setLocal manager id websocket => ∃ user session,
        call = .connect manager websocket user id session ∧ p = .accepted
    | .sadd (.userConnections user) members => ∃ manager websocket id session,
        call = .connect manager websocket user id session ∧ members = [id] ∧ p = .placed
    | .srem (.userConnections _) members => ∃ manager id,
        call = .disconnect manager id ∧ members = [id]
    | .popLocal manager id => call = .disconnect manager id
    | .expire (.userConnections _) _ => False
    | .delete (.userConnections _) => False
    | .publish channel data => ∃ name message, call = .publish name message ∧
        channel = broadcastPrefix ++ name ∧ data = .json (.obj message)
    | .getMessage manager => ∃ rounds, call = .listenPubsub manager rounds ∧ p.free
    | .smembers (.userConnections user) => ∃ manager rounds msg route,
        call = .listenPubsub manager rounds ∧ p = .heard msg route ∧ user = route.userId
    | .getLocal manager id => ∃ rounds msg route todo,
        call = .listenPubsub manager rounds ∧ p = .sending msg route (id :: todo)
    | .sendJson websocket (.message topic data) => ∃ manager rounds msg route id todo,
        call = .listenPubsub manager rounds ∧ p = .holding msg route id todo websocket ∧
          topic = route.topic ∧ data = route.payload
    | _ => True
  next p e a := p.next repr e a

/-- A listener returns between two messages. -/
def Phase.listened (p : Phase) : Except Exc Unit → Prop
  | .ok _ => p.free
  | .error _ => p = .failed

/-- The phase in which a call ends. -/
def GatewayCall.endsIn (out : Except Exc Unit) (p : Phase) : GatewayCall → Prop
  | .connect .. => out = .ok () → p = .joined
  | .listenPubsub .. => p.listened out
  | _ => True

-- ============================================================================
-- How phases change
-- ============================================================================

/-- How far a `connect` has come, as a number. -/
def Phase.rank : Phase → ℕ
  | .accepted => 1
  | .placed => 2
  | .joined => 3
  | _ => 0

section

variable {repr : Json → String} {p : Phase} {e : GatewayOp} {a : Except Exc e.Ans}

theorem Phase.rank_of_free (hfree : p.free) : p.rank = 0 := by
  cases p with
  | outside => rfl
  | sending msg route todo => rfl
  | _ => cases hfree

/-- A `connect` goes forward by three operations. -/
theorem Phase.next_rank (repr : Json → String) (p : Phase) (a : Except Exc e.Ans) :
    (p.next repr e a).rank = p.rank ∨
      (∃ websocket, e = .accept websocket ∧ p = .outside ∧ a.isOk ∧
        p.next repr e a = .accepted) ∨
      (∃ manager id websocket, e = .setLocal manager id websocket ∧ p = .accepted ∧
        p.next repr e a = .placed) ∨
      ∃ user members, e = .sadd (.userConnections user) members ∧ a.isOk ∧ p = .placed ∧
        p.next repr e a = .joined := by
  unfold Phase.next
  split
  next => exact .inr (.inl ⟨_, rfl, rfl, rfl, rfl⟩)
  next => exact .inr (.inr (.inl ⟨_, _, _, rfl, rfl, rfl⟩))
  next => exact .inr (.inr (.inr ⟨_, _, rfl, rfl, rfl, rfl⟩))
  next manager a p =>
    left
    unfold Phase.take
    split
    next hfree =>
      rw [Phase.rank_of_free hfree]
      split
      next => split <;> rfl
      next => exact Phase.rank_of_free hfree
      next => rfl
    next => rfl
  all_goals exact .inl rfl

theorem Phase.rank_le_next : p.rank ≤ (p.next repr e a).rank := by
  rcases Phase.next_rank repr p a with
    heq | ⟨_, -, rfl, -, heq⟩ | ⟨_, _, _, -, rfl, heq⟩ | ⟨_, _, -, -, rfl, heq⟩
  · exact heq.ge
  all_goals
    rw [heq]
    decide

end

-- ============================================================================
-- Every call keeps to its flow
-- ============================================================================

section

variable {repr : Json → String} {call : GatewayCall} {manager : Manager} {rounds : ℕ}

theorem connect_obeys_flow {websocket : Socket} {user id session : String} :
    (manager.connect websocket user id session).Obeys
      (flow repr (.connect manager websocket user id session))
      (fun out p => out = .ok () → p = .joined) .outside := by
  unfold Manager.connect
  refine Prog.obeys_op_bind.mpr ⟨⟨_, _, _, _, rfl, rfl⟩, fun _ => ?_, fun _ h => nomatch h⟩
  refine Prog.obeys_op_bind.mpr ⟨trivial, fun now => ?_, fun _ h => nomatch h⟩
  refine Prog.obeys_op_bind.mpr ⟨⟨_, _, rfl, rfl⟩, fun _ => ?_, fun _ h => nomatch h⟩
  refine Prog.obeys_op_bind.mpr ⟨trivial, fun _ => ?_, fun _ h => nomatch h⟩
  refine Prog.obeys_op_bind.mpr ⟨trivial, fun _ => ?_, fun _ h => nomatch h⟩
  exact Prog.obeys_op_bind.mpr
    ⟨⟨_, _, _, _, rfl, rfl, rfl⟩, fun _ _ => rfl, fun _ h => nomatch h⟩

theorem disconnect_always_flow {id : String} :
    (manager.disconnect id).Always (flow repr (.disconnect manager id)) := by
  have htail : (perform (.delete (.connection id)) >>= fun _ =>
      perform (.popLocal manager id)).Always (flow repr (.disconnect manager id)) :=
    (Prog.always_op fun _ => trivial).bind fun _ => Prog.always_op fun _ => rfl
  unfold Manager.disconnect
  refine (Prog.always_op fun _ => trivial).bind fun userId => ?_
  cases Auth.present userId with
  | some user =>
      exact Prog.Always.bind (Prog.always_op fun _ => ⟨manager, id, rfl, rfl⟩) fun _ => htail
  | none => exact htail

theorem touchHeartbeat_always_flow {id : String} :
    (Manager.touchHeartbeat id).Always (flow repr call) :=
  (Prog.always_op fun _ => trivial).bind fun _ => Prog.always_op fun _ => trivial

theorem subscribeUser_always_flow {user : String} {topics : List String} :
    (Manager.subscribeUser user topics).Always (flow repr call) := by
  have htail : (perform (.expire (.subs user) dayTtl)).Always (flow repr call) :=
    Prog.always_op fun _ => trivial
  unfold Manager.subscribeUser
  split
  next => exact Prog.Always.bind (Prog.always_op fun _ => trivial) fun _ => htail
  next => exact htail

theorem unsubscribeUser_always_flow {user : String} {topics : List String} :
    (Manager.unsubscribeUser user topics).Always (flow repr call) := by
  unfold Manager.unsubscribeUser
  split
  next => exact Prog.Always.bind (Prog.always_op fun _ => trivial) fun _ => Prog.always_ret _
  next => exact Prog.always_ret _

theorem publish_always_flow {channel : String} {message : List (String × Json)} :
    (Manager.publish channel message).Always (flow repr (.publish channel message)) :=
  Prog.always_op fun _ => ⟨channel, message, rfl, rfl, rfl⟩

/-- The loop over the sockets takes what is to do to its end, or fails. -/
theorem sendAll_obeys_flow {msg : Message} {route : Route} (todo : List String) :
    (manager.sendAll (.message route.topic route.payload) todo).Obeys
      (flow repr (.listenPubsub manager rounds))
      (fun out p => p.listened out) (.sending msg route todo) := by
  induction todo with
  | nil => rfl
  | cons id todo ih =>
      rw [Manager.sendAll]
      refine Prog.obeys_op_bind.mpr ⟨⟨_, _, _, _, rfl, rfl⟩, fun websocket => ?_, fun _ => rfl⟩
      cases websocket with
      | some websocket =>
          exact Prog.obeys_op_bind.mpr
            ⟨⟨_, _, _, _, _, _, rfl, rfl, rfl, rfl⟩, fun _ => ih, fun _ => rfl⟩
      | none => exact ih

theorem listenPubsub_obeys_flow (n : ℕ) {p : Phase} (hfree : p.free) :
    (manager.listenPubsub repr n).Obeys (flow repr (.listenPubsub manager rounds))
      (fun out p => p.listened out) p := by
  induction n generalizing p with
  | zero => exact hfree
  | succ n ih =>
      have htake : ∀ a, (flow repr (.listenPubsub manager rounds)).next p
          (.getMessage manager) a = p.take repr a := fun a => if_pos hfree
      rw [Manager.listenPubsub]
      refine Prog.obeys_op_bind.mpr ⟨⟨_, rfl, hfree⟩, fun message => ?_, fun x => ?_⟩
      · rw [htake]
        cases message with
        | none => exact ih hfree
        | some msg =>
            show Prog.Obeys _ (manager.deliver repr msg >>= fun _ => _) _ _
            rw [Manager.deliver, Phase.take]
            cases hroute : msg.route repr with
            | error x => rfl
            | ok route =>
                cases route with
                | none => exact ih rfl
                | some route =>
                    show Prog.Obeys _ (manager.broadcastToUser _ _ _ >>= fun _ => _) _ _
                    rw [Manager.broadcastToUser, bind_assoc]
                    refine Prog.obeys_op_bind.mpr
                      ⟨⟨_, _, _, _, rfl, rfl, rfl⟩, fun ids => ?_, fun _ => rfl⟩
                    refine (sendAll_obeys_flow ids).seq (fun _ p' hp => ih hp) fun x p' hp => hp
      · rw [htake]
        rfl

variable {limiter : WebSocketRateLimiter} {client : Client} {topic : String}

theorem checkWindow_always_flow {key : Key} {limit : ℕ} :
    (limiter.checkWindow key limit).Always (flow repr call) := by
  unfold WebSocketRateLimiter.checkWindow
  refine (Prog.always_op fun _ => trivial).bind fun now =>
    Prog.Always.bind (Prog.always_op fun _ => trivial) fun counts => ?_
  split
  next => exact Prog.always_ret _
  next => exact Prog.always_raise _

theorem handleSubscribe_always_flow :
    (handleSubscribe limiter client topic).Always (flow repr call) := by
  have hclose : ∀ code, (perform (.close client.websocket code) >>= fun _ =>
      pure false).Always (flow repr call) := fun code =>
    Prog.Always.bind (Prog.always_op fun _ => trivial) fun _ => Prog.always_ret _
  have hlimit : (limiter.checkSubscriptionLimit client.claims.sub).Always (flow repr call) :=
    Prog.Always.bind (Prog.always_op fun _ => trivial) fun _ => Prog.always_ret _
  unfold handleSubscribe
  split
  next => exact hclose 4001
  next =>
    refine subscribeUser_always_flow.bind fun _ => hlimit.bind fun within => ?_
    cases within with
    | false => exact hclose 4002
    | true => exact Prog.Always.bind (Prog.always_op fun _ => trivial) fun _ => Prog.always_ret _

theorem handleMessage_always_flow {msg : Json} :
    (handleMessage repr limiter client msg).Always (flow repr call) := by
  have hsend : ∀ name fields, (perform (.sendJson client.websocket (.event name fields)) >>=
      fun _ => pure true).Always (flow repr call) := fun name fields =>
    Prog.Always.bind (Prog.always_op fun _ => trivial) fun _ => Prog.always_ret _
  unfold handleMessage
  refine checkWindow_always_flow.bind fun within => ?_
  cases within with
  | false => exact Prog.Always.bind (Prog.always_op fun _ => trivial) fun _ => Prog.always_ret _
  | true =>
      refine (Prog.always_ofExcept _).bind fun event => ?_
      show Prog.Always _ (if _ then _ else _)
      split
      next =>
        exact touchHeartbeat_always_flow.bind fun _ =>
          Prog.Always.bind (Prog.always_op fun _ => trivial) fun _ => hsend _ _
      next =>
        split
        next => exact handleSubscribe_always_flow
        next =>
          split
          next => exact unsubscribeUser_always_flow.bind fun _ => hsend _ _
          next => exact hsend _ _

theorem serve_always_flow : (serve repr limiter client rounds).Always (flow repr call) := by
  induction rounds with
  | zero => exact Prog.always_ret _
  | succ rounds ih =>
      rw [serve]
      refine Prog.Always.bind (Prog.always_op fun _ => trivial) fun msg =>
        handleMessage_always_flow.bind fun more => ?_
      cases more with
      | false => exact Prog.always_ret _
      | true => exact ih

/-- Every call keeps to its flow. -/
theorem prog_obeys_flow (call : GatewayCall) :
    (call.prog repr).Obeys (flow repr call) (fun out p => call.endsIn out p) .outside := by
  cases call with
  | connect manager websocket user id session => exact connect_obeys_flow
  | listenPubsub manager rounds => exact listenPubsub_obeys_flow rounds rfl
  | disconnect manager id => exact disconnect_always_flow .outside
  | touchHeartbeat id => exact touchHeartbeat_always_flow .outside
  | publish channel message => exact publish_always_flow .outside
  | subscribeUser user topics => exact subscribeUser_always_flow .outside
  | unsubscribeUser user topics => exact unsubscribeUser_always_flow .outside
  | serve limiter client rounds => exact serve_always_flow .outside
  | tick seconds => exact Prog.obeys_op.mpr ⟨trivial, fun _ => trivial⟩

end

-- ============================================================================
-- Runs
-- ============================================================================

section

variable {ι : Type} [DecidableEq ι] {repr : Json → String} {calls : ι → GatewayCall} {w₀ : World}
variable {h : GatewayHistory ι} {c : GatewayConfig ι}

/-- How far coroutine `i` has come. -/
def phase (repr : Json → String) (calls : ι → GatewayCall) (h : GatewayHistory ι) (i : ι) : Phase :=
  (flow repr (calls i)).ghost .outside i h

theorem phase_self {i : ι} {ev : Event World GatewayOp.Ans Exc} :
    phase repr calls ((i, ev) :: h) i = (phase repr calls h i).next repr ev.op ev.ans :=
  Discipline.ghost_self

theorem phase_other {i j : ι} {ev : Event World GatewayOp.Ans Exc} (hne : i ≠ j) :
    phase repr calls ((i, ev) :: h) j = phase repr calls h j :=
  Discipline.ghost_other hne

theorem run_obeys_flow (hrun : GatewayRun repr calls w₀ h c) (i : ι) :
    (c.pool i).Obeys (flow repr (calls i)) (fun out p => (calls i).endsIn out p)
      (phase repr calls h i) :=
  hrun.obeys (prog_obeys_flow (calls i))

/-- A property of what has happened and of the world holds in every run, if every operation
    that the flow of its coroutine allows keeps it. -/
theorem run_keeps {I : GatewayHistory ι → World → Prop} (hrun : GatewayRun repr calls w₀ h c)
    (h₀ : I [] w₀)
    (hstep : ∀ h c i e a w', GatewayRun repr calls w₀ h c → I h c.world →
      (flow repr (calls i)).may (phase repr calls h i) e → gatewayEnv c.world e a w' →
      I ((i, ⟨c.world, e, a⟩) :: h) w') : I h c.world := by
  induction hrun with
  | nil => exact h₀
  | @cons h c c' i ev hr hs ih =>
      have hobeys := run_obeys_flow hr i
      cases hs with
      | @mk e k a w' _ hp henv =>
          rw [hp] at hobeys
          exact hstep h c i e a w' hr ih hobeys.1 henv

end

end Mtrader.Gateway
