/-
  Mtrader.Gateway.Endpoint

  `websocket_endpoint` of `routes/ws.py` from the connection to the end, its heartbeat
  monitor, and `periodic_revalidate` of `ws/auth.py`.

  - The operations are those of the gateway, those of `verify_token`, and what is left: the
    subscription and the listener of a manager, its tasks, sleeping and closing Redis.
  - A task is a coroutine of its own, which may begin at any time.
  - The attributes `pubsub` and `_listener_task` are asked for by an operation, since `stop`
    may find either of them unset.
-/

import Mtrader.Gateway.Manager
import Mtrader.Auth.Security

namespace Mtrader.Gateway

open Py Coroutine Auth

-- ============================================================================
-- Operations
-- ============================================================================

/-- The tasks of a connection. -/
inductive Background
  | revalidate | heartbeat
  deriving DecidableEq, Repr

inductive SessionOp
  /-- `self.pubsub = redis.pubsub(...)`, and the subscription to `ws:broadcast:*` -/
  | psubscribe (manager : Manager)
  /-- `self._listener_task = asyncio.create_task(...)` -/
  | createListener (manager : Manager)
  | createTask (task : Background) (connectionId : String)
  /-- `if self._listener_task` -/
  | hasListener (manager : Manager)
  /-- `cancel()`, and the wait for the listener to end -/
  | stopListener (manager : Manager)
  /-- `if self.pubsub` -/
  | hasPubsub (manager : Manager)
  | closePubsub (manager : Manager)
  | closeRedis
  | sleep (seconds : ℕ)
  /-- `datetime.now(timezone.utc) - datetime.fromisoformat(last)`, in seconds -/
  | age (last : String)

@[reducible] def SessionOp.Ans : SessionOp → Type
  | .psubscribe _ => Unit
  | .createListener _ => Unit
  | .createTask .. => Unit
  | .hasListener _ => Bool
  | .stopListener _ => Unit
  | .hasPubsub _ => Bool
  | .closePubsub _ => Unit
  | .closeRedis => Unit
  | .sleep _ => Unit
  | .age _ => ℚ

abbrev EndpointOp : Type := SessionOp ⊕ (AuthOp ⊕ GatewayOp)

abbrev EndpointOp.Ans : EndpointOp → Type :=
  Prog.SumAns SessionOp.Ans (Prog.SumAns AuthOp.Ans GatewayOp.Ans)

abbrev EndpointM : Type → Type := Prog EndpointOp.Ans Exc

section

variable {R : Type}

/-- One of the operations that are left. -/
def session (e : SessionOp) : EndpointM e.Ans := (Prog.op e).inl

/-- What `security.py` does. -/
def auth (p : AuthM R) : EndpointM R := p.inl.inr

/-- What the gateway does. -/
def gateway (p : GatewayM R) : EndpointM R := p.inr.inr

end

-- ============================================================================
-- Programs
-- ============================================================================

/-- A connection to `/ws`: its socket, the host and the query parameters it comes with,
    the manager that is made for it, and its fresh id. -/
structure Visitor where
  websocket : Socket
  host : Option String
  token : Option String
  fp : Option String
  manager : Manager
  connectionId : String

/-- `websocket.client.host if websocket.client else "unknown"`. -/
def Visitor.clientIp (v : Visitor) : String := v.host.getD "unknown"

namespace Manager

variable (manager : Manager)

def start : EndpointM Unit := do
  session (.psubscribe manager)
  session (.createListener manager)

def stop : EndpointM Unit := do
  if ← session (.hasListener manager) then session (.stopListener manager)
  if ← session (.hasPubsub manager) then session (.closePubsub manager)

end Manager

section

variable (crypto : Crypto) (settings : Settings) (repr : Json → String)
variable (limiter : WebSocketRateLimiter) (v : Visitor)

/-- `websocket.close(code=code)`. -/
def closeSocket (code : ℕ) : EndpointM Unit := gateway (perform (.close v.websocket code))

/-- The body of the `try`. -/
def converse (rounds : ℕ) : EndpointM Unit := do
  if ← gateway (limiter.checkConnectionLimit v.clientIp) then
    let claims ← auth (authenticateWebsocket crypto settings v.token v.fp)
    v.manager.start
    gateway (v.manager.connect v.websocket claims.sub v.connectionId claims.jti)
    session (.createTask .revalidate v.connectionId)
    session (.createTask .heartbeat v.connectionId)
    gateway (serve repr limiter ⟨v.websocket, v.connectionId, claims⟩ rounds)
  else closeSocket v 4002

/-- `try: p; except Exception: pass`. -/
def swallow (p : EndpointM Unit) : EndpointM Unit := p.handle fun _ => pure ()

/-- The handlers of the `try`. -/
def onException : Exc → EndpointM Unit
  | .valueError _ => closeSocket v 4001
  | x => if x = webSocketDisconnect then pure () else swallow (closeSocket v 1011)

/-- The body of the `finally`. -/
def leave : EndpointM Unit := do
  gateway (v.manager.disconnect v.connectionId)
  v.manager.stop
  session .closeRedis

def websocketEndpoint (rounds : ℕ) : EndpointM Unit :=
  ((converse crypto settings repr limiter v rounds).handle (onException v)).andFinally
    (swallow (leave v))

/-- `heartbeat_monitor`. -/
def heartbeatMonitor (websocket : Socket) (connectionId : String) : ℕ → EndpointM Unit
  | 0 => pure ()
  | rounds + 1 => do
      session (.sleep 30)
      let presence ← gateway (perform (.hgetall (.connection connectionId)))
      if presence = ∅ then gateway (perform (.close websocket 1001))
      else
        match present (presence .lastHeartbeat) with
        | some last => do
            let elapsed ← session (.age last)
            if 90 < elapsed then gateway (perform (.close websocket 1001))
            else heartbeatMonitor websocket connectionId rounds
        | none => heartbeatMonitor websocket connectionId rounds

def periodicRevalidate (websocket : Socket) (token : String) (fingerprint : Option String) :
    ℕ → EndpointM Unit
  | 0 => pure ()
  | rounds + 1 => do
      session (.sleep 300)
      match ← (auth (verifyToken crypto settings token fingerprint)).attempt with
      | .ok _ => periodicRevalidate websocket token fingerprint rounds
      | .error _ => gateway (perform (.close websocket 4003))

end

-- ============================================================================
-- The protocol
-- ============================================================================

/-- How far a connection has come. -/
inductive Stage
  | fresh
  /-- The host has not made too many connections. -/
  | admitted
  /-- The signature of the token is valid, -/
  | opened (c : Claims)
  /-- and its times and its id, -/
  | timely (c : Claims)
  /-- and it has not been revoked, -/
  | unrevoked (c : Claims)
  /-- nor have all the user's tokens, and the fingerprint is right. -/
  | verified (c : Claims)
  /-- The socket has been accepted. -/
  | serving (c : Claims)
  /-- The socket has been closed. -/
  | closed
  /-- The `finally` has begun. -/
  | left

/-- How far the `finally` of a connection has come. -/
inductive Farewell
  | staying
  /-- `disconnect` has read the user of the connection, -/
  | read (user : Option String)
  /-- has taken the connection out of the user's set, -/
  | unlisted
  /-- has deleted its hash, -/
  | deleted
  /-- and has taken it out of the local map. -/
  | forgotten
  /-- `stop` has looked for the listener, -/
  | listener (there : Bool)
  /-- has stopped it, -/
  | stopped
  /-- has looked for the subscription, -/
  | pubsub (there : Bool)
  /-- and has closed it. -/
  | unsubscribed
  /-- Redis has been closed. -/
  | closed
  /-- One of the steps has raised. -/
  | broken
  deriving DecidableEq

/-- The `finally` has nothing left to do. -/
def Farewell.Over (f : Farewell) : Prop := f = .closed ∨ f = .broken

/-- What a connection has done so far. -/
structure Session where
  stage : Stage := .fresh
  /-- What closing the socket has raised last. -/
  fault : Option Exc := none
  farewell : Farewell := .staying

/-- The socket has been accepted and not closed. -/
def Session.Serving (s : Session) : Prop := ∃ c, s.stage = .serving c

section

variable (crypto : Crypto) (settings : Settings) (limiter : WebSocketRateLimiter) (v : Visitor)

/-- The operations of `authenticate_websocket`, in their order. -/
def authMay (s : Session) : AuthOp → Prop
  | .verifySignature token => s.stage = .admitted ∧ v.token = some token
  | .now => ∃ c, s.stage = .opened c
  | .exists k => ∃ c, s.stage = .timely c ∧ k = .revoked c.jti
  | .get k => ∃ c, s.stage = .unrevoked c ∧ k = .revokeAfter c.sub
  | _ => False

/-- After the marker of the token's user. -/
def Session.cleared (s : Session) (c : Claims) : Except Exc Bool → Session
  | .ok false => if c.FingerprintOk crypto v.fp then { s with stage := .verified c } else s
  | _ => s

/-- Each answer takes the connection to the next stage if it speaks for the token. -/
def authNext (s : Session) (e : AuthOp) (a : Except Exc e.Ans) : Session :=
  match e, a, s.stage with
  | .verifySignature _, .ok c, .admitted => { s with stage := .opened c }
  | .now, .ok now, .opened c =>
      if c.ValidAt settings now ∧ c.jti ≠ "" then { s with stage := .timely c } else s
  | .exists _, .ok false, .timely c => { s with stage := .unrevoked c }
  | .get _, .ok marker, .unrevoked c => s.cleared crypto v c (globallyRevoked c.iat marker)
  | _, _, _ => s

/-- Only an accepted connection is registered, under the subject of its token; only topics of
    the subject are subscribed to; and nothing is sent before or after.  The steps of
    `disconnect` come in their order. -/
def gatewayMay (s : Session) : GatewayOp → Prop
  | .time => s.stage = .fresh ∨ s.Serving
  | .pipeline key _ =>
      key = .connIp v.clientIp ∧ s.stage = .fresh ∨ key = .msg v.connectionId ∧ s.Serving
  | .accept websocket => websocket = v.websocket ∧ ∃ c, s.stage = .verified c
  | .isoNow => s.Serving
  | .setLocal manager connectionId websocket =>
      manager = v.manager ∧ connectionId = v.connectionId ∧ websocket = v.websocket ∧ s.Serving
  | .hset key mapping => key = .connection v.connectionId ∧
      ∃ c, s.stage = .serving c ∧ ∀ user, (.userId, user) ∈ mapping → user = c.sub
  | .expire key _ => ∃ c, s.stage = .serving c ∧
      (key = .connection v.connectionId ∨ key = .subs c.sub)
  | .sadd key members => ∃ c, s.stage = .serving c ∧
      (key = .userConnections c.sub ∧ members = [v.connectionId] ∨
        key = .subs c.sub ∧ ∀ topic ∈ members, topicAllowed topic c)
  | .srem key members => (∃ c, s.stage = .serving c ∧ key = .subs c.sub) ∨
      members = [v.connectionId] ∧
        ∃ user, s.farewell = .read (some user) ∧ key = .userConnections user
  | .scard key => ∃ c, s.stage = .serving c ∧ key = .subs c.sub
  | .receiveJson websocket => websocket = v.websocket ∧ s.Serving
  | .sendJson websocket frame =>
      websocket = v.websocket ∧ s.Serving ∧ ∃ name fields, frame = .event name fields
  | .close websocket _ => websocket = v.websocket ∧ s.stage ≠ .closed ∧ s.stage ≠ .left
  | .hget key field => key = .connection v.connectionId ∧ field = .userId ∧ s.stage ≠ .left
  | .delete key =>
      key = .connection v.connectionId ∧ (s.farewell = .read none ∨ s.farewell = .unlisted)
  | .popLocal manager connectionId =>
      manager = v.manager ∧ connectionId = v.connectionId ∧ s.farewell = .deleted
  | _ => False

/-- After the check of the host. -/
def Session.checked (limiter : WebSocketRateLimiter) (s : Session) :
    Except Exc (List ℕ) → Session
  | .ok [_, _, count, _] =>
      if count ≤ limiter.connectionsPerIp then { s with stage := .admitted } else s
  | _ => s

/-- After the socket has been accepted. -/
def Session.welcomed (s : Session) : Session :=
  match s.stage with
  | .verified c => { s with stage := .serving c }
  | _ => s

/-- After a step of the `finally`. -/
def Session.leaving {R : Type} (s : Session) (f : R → Farewell) : Except Exc R → Session
  | .ok r => { s with stage := .left, farewell := f r }
  | .error _ => { s with stage := .left, farewell := .broken }

def gatewayNext (s : Session) (e : GatewayOp) (a : Except Exc e.Ans) : Session :=
  match e, a with
  | .pipeline (.connIp _) _, a => s.checked limiter a
  | .accept _, .ok _ => s.welcomed
  | .close .., .ok _ => { s with stage := .closed }
  | .close .., .error x => { s with fault := some x }
  | .hget .., a => s.leaving (fun userId => .read (present userId)) a
  | .srem (.userConnections _) _, a => s.leaving (fun _ => .unlisted) a
  | .delete _, a => s.leaving (fun _ => .deleted) a
  | .popLocal .., a => s.leaving (fun _ => .forgotten) a
  | _, _ => s

/-- The steps of `stop` come in their order, after those of `disconnect`, and Redis is closed
    after them. -/
def sessionMay (s : Session) : SessionOp → Prop
  | .psubscribe manager => manager = v.manager ∧ ∃ c, s.stage = .verified c
  | .createListener manager => manager = v.manager ∧ ∃ c, s.stage = .verified c
  | .createTask _ connectionId => connectionId = v.connectionId ∧ s.Serving
  | .sleep _ => False
  | .age _ => False
  | .hasListener manager => manager = v.manager ∧ s.farewell = .forgotten
  | .stopListener manager => manager = v.manager ∧ s.farewell = .listener true
  | .hasPubsub manager =>
      manager = v.manager ∧ (s.farewell = .listener false ∨ s.farewell = .stopped)
  | .closePubsub manager => manager = v.manager ∧ s.farewell = .pubsub true
  | .closeRedis => s.farewell = .pubsub false ∨ s.farewell = .unsubscribed

def sessionNext (s : Session) (e : SessionOp) (a : Except Exc e.Ans) : Session :=
  match e, a with
  | .hasListener _, a => s.leaving .listener a
  | .stopListener _, a => s.leaving (fun _ => .stopped) a
  | .hasPubsub _, a => s.leaving .pubsub a
  | .closePubsub _, a => s.leaving (fun _ => .unsubscribed) a
  | .closeRedis, a => s.leaving (fun _ => .closed) a
  | _, _ => s

/-- What a connection may do next, and how an answer takes it on. -/
def protocol : Discipline EndpointOp.Ans Exc Session where
  may s e := match e with
    | .inl e => sessionMay v s e
    | .inr (.inl e) => authMay v s e
    | .inr (.inr e) => gatewayMay v s e
  next s e a := match e, a with
    | .inl e, a => sessionNext s e a
    | .inr (.inl e), a => authNext crypto settings v s e a
    | .inr (.inr e), a => gatewayNext limiter s e a

/-- A connection ends at the end of its `finally`; what it raises, closing its socket has
    raised. -/
def Session.Over (out : Except Exc Unit) (s : Session) : Prop :=
  s.stage = .left ∧ s.farewell.Over ∧ ∀ x, out = .error x → s.fault = some x

end

-- ============================================================================
-- The world
-- ============================================================================

/-- Redis and the sockets, the tokens, and the attributes that are set of the managers. -/
structure EndpointWorld where
  gateway : World
  auth : Auth.World
  pubsubs : List Manager := []
  listeners : List Manager := []

/-- How the operations that are left are answered; what is sent to Redis may fail. -/
def sessionEnv : Env EndpointWorld SessionOp.Ans Exc :=
  fun w e a w' => match e with
    | .psubscribe manager => w' = { w with pubsubs := manager :: w.pubsubs }
    | .createListener manager => a = .ok () ∧ w' = { w with listeners := manager :: w.listeners }
    | .createTask .. => a = .ok () ∧ w' = w
    | .hasListener manager => a = .ok (decide (manager ∈ w.listeners)) ∧ w' = w
    | .stopListener _ => a = .ok () ∧ w' = w
    | .hasPubsub manager => a = .ok (decide (manager ∈ w.pubsubs)) ∧ w' = w
    | .closePubsub _ => w' = w
    | .closeRedis => w' = w
    | .sleep _ => a = .ok () ∧ w' = w
    | .age _ => w' = w

/-- How all operations are answered. -/
def endpointEnv (crypto : Crypto) (settings : Settings) : Env EndpointWorld EndpointOp.Ans Exc :=
  fun w e a w' => match e with
    | .inl e => sessionEnv w e a w'
    | .inr (.inl e) => ∃ auth', authEnv crypto settings w.auth e a auth' ∧
        w' = { w with auth := auth' }
    | .inr (.inr e) => ∃ gateway', gatewayEnv w.gateway e a gateway' ∧
        w' = { w with gateway := gateway' }

/-- A coroutine of the gateway's process, a call of `security.py`, or the clock. -/
inductive EndpointCall
  | endpoint (v : Visitor) (rounds : ℕ)
  | heartbeatMonitor (websocket : Socket) (connectionId : String) (rounds : ℕ)
  | periodicRevalidate (websocket : Socket) (token : String) (fingerprint : Option String)
      (rounds : ℕ)
  | listenPubsub (manager : Manager) (rounds : ℕ)
  | publish (channel : String) (message : List (String × Json))
  | auth (call : AuthCall)
  | tick (seconds : ℚ≥0)

def EndpointCall.prog (crypto : Crypto) (settings : Settings) (repr : Json → String)
    (limiter : WebSocketRateLimiter) : EndpointCall → EndpointM Unit
  | .endpoint v rounds => websocketEndpoint crypto settings repr limiter v rounds
  | .heartbeatMonitor websocket connectionId rounds =>
      Gateway.heartbeatMonitor websocket connectionId rounds
  | .periodicRevalidate websocket token fingerprint rounds =>
      Gateway.periodicRevalidate crypto settings websocket token fingerprint rounds
  | .listenPubsub manager rounds => gateway (manager.listenPubsub repr rounds)
  | .publish channel message => gateway (Manager.publish channel message)
  | .auth call => Gateway.auth (call.prog crypto settings)
  | .tick seconds => gateway (perform (.tick seconds))

end Mtrader.Gateway
