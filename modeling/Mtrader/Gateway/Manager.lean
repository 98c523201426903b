/-
  Mtrader.Gateway.Manager

  `RedisConnectionManager` of `ws/manager.py`, and the message loop of the endpoint
  `/ws` of `routes/ws.py`.

  - The listener and the message loop run until something ends them; `rounds` bounds how
    often they go round, so that a finite run of them is one with enough rounds.
  - `start` makes the listener, which is a coroutine of its own here; its subscription is
    part of the world.
  - `repr` is what `str` gives for JSON values that are no texts.
-/

import Mtrader.Gateway.Topics
import Mtrader.Gateway.RateLimit
import Mtrader.Coroutine.Interleave

namespace Mtrader.Gateway

open Py Coroutine Collection Auth

/-- A day, the lifetime of a connection's hash and of a user's subscriptions. -/
def dayTtl : ℚ := 60 * 60 * 24

-- ============================================================================
-- Messages on the channels
-- ============================================================================

/-- What follows the first occurrence of `sep`. -/
def afterFirst (sep : List Char) : List Char → Option (List Char)
  | [] => if sep = [] then some [] else none
  | c :: cs =>
      if sep.isPrefixOf (c :: cs) then some ((c :: cs).drop sep.length) else afterFirst sep cs

/-- `s.split(sep, 1)[-1]`. -/
def lastOfSplit (sep s : String) : String :=
  String.ofList ((afterFirst sep.toList s.toList).getD s.toList)

def broadcastPrefix : String := "ws:broadcast:"

/-- `msg["channel"].decode()`. -/
def Message.decodeChannel (msg : Message) : Except Exc String :=
  match msg.channel with
  | some channel => .ok channel
  | none => .error (.valueError "'utf-8' codec can't decode bytes")

/-- Where a message goes: its user, its topic and its payload. -/
structure Route where
  userId : String
  topic : String
  payload : Json

/-- The route to the user of a payload, if the payload has one. -/
def routeTo (repr : Json → String) (topic : String) (payload : Json) : Option Json → Option Route
  | some userId => if userId.truthy then some ⟨userId.text repr, topic, payload⟩ else none
  | none => none

/-- What the listener reads off a message. -/
def Message.route (repr : Json → String) (msg : Message) : Except Exc (Option Route) := do
  let channel := lastOfSplit broadcastPrefix (← msg.decodeChannel)
  let payload ← msg.data.loads
  let userId ← payload.get "user_id"
  return routeTo repr channel payload userId

-- ============================================================================
-- RedisConnectionManager
-- ============================================================================

namespace Manager

variable (repr : Json → String) (manager : Manager)

def connect (websocket : Socket) (userId connectionId sessionId : String) : GatewayM Unit := do
  perform (.accept websocket)
  let now ← perform .isoNow
  perform (.setLocal manager connectionId websocket)
  perform (.hset (.connection connectionId)
    [(.userId, userId), (.sessionId, sessionId), (.connectionId, connectionId),
      (.connectedAt, now), (.lastHeartbeat, now), (.instanceId, manager.instanceId)])
  perform (.expire (.connection connectionId) dayTtl)
  let _ ← perform (.sadd (.userConnections userId) [connectionId])

def disconnect (connectionId : String) : GatewayM Unit := do
  let userId ← perform (.hget (.connection connectionId) .userId)
  match present userId with
  | some userId => do let _ ← perform (.srem (.userConnections userId) [connectionId])
  | none => pure ()
  perform (.delete (.connection connectionId))
  perform (.popLocal manager connectionId)

def publish (channel : String) (message : List (String × Json)) : GatewayM Unit :=
  perform (.publish (broadcastPrefix ++ channel) (.json (.obj message)))

def subscribeUser (userId : String) (topics : List String) : GatewayM Unit := do
  if topics ≠ [] then do let _ ← perform (.sadd (.subs userId) topics)
  perform (.expire (.subs userId) dayTtl)

def unsubscribeUser (userId : String) (topics : List String) : GatewayM Unit := do
  if topics ≠ [] then do let _ ← perform (.srem (.subs userId) topics)

/-- The loop of `broadcast_to_user`. -/
def sendAll (message : Frame) : List String → GatewayM Unit
  | [] => pure ()
  | connectionId :: rest => do
      match ← perform (.getLocal manager connectionId) with
      | some websocket => perform (.sendJson websocket message)
      | none => pure ()
      sendAll message rest

def broadcastToUser (userId topic : String) (data : Json) : GatewayM Unit := do
  let connectionIds ← perform (.smembers (.userConnections userId))
  manager.sendAll (.message topic data) connectionIds

/-- The loop of `get_presence`. -/
def presenceOf : List String → GatewayM (List Hash)
  | [] => pure []
  | connectionId :: rest => do
      let data ← perform (.hgetall (.connection connectionId))
      let out ← presenceOf rest
      return if data = ∅ then out else data :: out

def getPresence (userId : String) : GatewayM (List Hash) := do
  let connectionIds ← perform (.smembers (.userConnections userId))
  presenceOf connectionIds

def touchHeartbeat (connectionId : String) : GatewayM Unit := do
  let now ← perform .isoNow
  perform (.hset (.connection connectionId) [(.lastHeartbeat, now)])

/-- What the listener does with a message. -/
def deliver (msg : Message) : GatewayM Unit := do
  match ← Prog.ofExcept (msg.route repr) with
  | some route => manager.broadcastToUser route.userId route.topic route.payload
  | none => pure ()

/-- `_listen_pubsub`. -/
def listenPubsub : ℕ → GatewayM Unit
  | 0 => pure ()
  | rounds + 1 => do
      match ← perform (.getMessage manager) with
      | some msg => manager.deliver repr msg
      | none => pure ()
      listenPubsub rounds

end Manager

-- ============================================================================
-- The endpoint
-- ============================================================================

/-- An accepted connection of `/ws`. -/
structure Client where
  websocket : Socket
  connectionId : String
  claims : Claims

/-- `value == text`, where the value may be missing. -/
def isText (text : String) : Option Json → Bool
  | some (.str s) => s = text
  | _ => false

section

variable (repr : Json → String) (limiter : WebSocketRateLimiter) (client : Client)

def handleHeartbeat : GatewayM Bool := do
  Manager.touchHeartbeat client.connectionId
  let ts ← perform .isoNow
  perform (.sendJson client.websocket (.event "heartbeat_ack" [("ts", ts)]))
  return true

def handleSubscribe (topic : String) : GatewayM Bool := do
  if topic = "" || !topicAllowed topic client.claims then
    perform (.close client.websocket 4001)
    return false
  else
    Manager.subscribeUser client.claims.sub [topic]
    if ← limiter.checkSubscriptionLimit client.claims.sub then
      perform (.sendJson client.websocket (.event "subscribed" [("topic", topic)]))
      return true
    else
      perform (.close client.websocket 4002)
      return false

def handleUnsubscribe (topic : String) : GatewayM Bool := do
  Manager.unsubscribeUser client.claims.sub [topic]
  perform (.sendJson client.websocket (.event "unsubscribed" [("topic", topic)]))
  return true

/-- `str(msg.get("topic", ""))`. -/
def topicOf : Json → String
  | .obj fields => ((fields.lookup "topic").getD (.str "")).text repr
  | _ => ""

/-- A message of the client; does the loop go on? -/
def handleMessage (msg : Json) : GatewayM Bool := do
  if ← limiter.checkMessageRate client.connectionId then
    let event ← Prog.ofExcept (msg.get "event")
    if isText "heartbeat" event then handleHeartbeat client
    else if isText "subscribe" event then handleSubscribe limiter client (topicOf repr msg)
    else if isText "unsubscribe" event then handleUnsubscribe client (topicOf repr msg)
    else
      perform (.sendJson client.websocket (.event "error" [("detail", "unsupported event")]))
      return true
  else
    perform (.close client.websocket 4002)
    return false

/-- The message loop of `websocket_endpoint`. -/
def serve : ℕ → GatewayM Unit
  | 0 => pure ()
  | rounds + 1 => do
      let msg ← perform (.receiveJson client.websocket)
      if ← handleMessage repr limiter client msg then serve rounds else pure ()

end

-- ============================================================================
-- Calls
-- ============================================================================

/-- A coroutine of the gateway, or the clock. -/
inductive GatewayCall
  | connect (manager : Manager) (websocket : Socket) (userId connectionId sessionId : String)
  | disconnect (manager : Manager) (connectionId : String)
  | touchHeartbeat (connectionId : String)
  | publish (channel : String) (message : List (String × Json))
  | subscribeUser (userId : String) (topics : List String)
  | unsubscribeUser (userId : String) (topics : List String)
  | listenPubsub (manager : Manager) (rounds : ℕ)
  | serve (limiter : WebSocketRateLimiter) (client : Client) (rounds : ℕ)
  | tick (seconds : ℚ≥0)

def GatewayCall.prog (repr : Json → String) : GatewayCall → GatewayM Unit
  | .connect manager websocket userId connectionId sessionId =>
      manager.connect websocket userId connectionId sessionId
  | .disconnect manager connectionId => manager.disconnect connectionId
  | .touchHeartbeat connectionId => Manager.touchHeartbeat connectionId
  | .publish channel message => Manager.publish channel message
  | .subscribeUser userId topics => Manager.subscribeUser userId topics
  | .unsubscribeUser userId topics => Manager.unsubscribeUser userId topics
  | .listenPubsub manager rounds => manager.listenPubsub repr rounds
  | .serve limiter client rounds => Gateway.serve repr limiter client rounds
  | .tick seconds => perform (.tick seconds)

abbrev GatewayHistory (ι : Type) : Type := History ι World GatewayOp.Ans Exc

abbrev GatewayConfig (ι : Type) : Type := Config ι World GatewayOp.Ans Exc Unit

/-- An empty Redis, and the messages that the clients are going to send. -/
def World.initial (clock : ℚ≥0) (incoming : Socket → List Json) : World where
  clock := clock
  incoming := incoming

/-- The configuration in which no coroutine has begun. -/
def start {ι : Type} (repr : Json → String) (calls : ι → GatewayCall) (w₀ : World) :
    GatewayConfig ι where
  world := w₀
  pool i := (calls i).prog repr

/-- Coroutines that are interleaved at every operation. -/
abbrev GatewayRun {ι : Type} [DecidableEq ι] (repr : Json → String) (calls : ι → GatewayCall)
    (w₀ : World) : GatewayHistory ι → GatewayConfig ι → Prop :=
  Run (fun _ => true) (fun _ => gatewayEnv) (start repr calls w₀)

/-- The connection id that a call of `connect` is given. -/
def GatewayCall.connects : GatewayCall → Option String
  | .connect _ _ _ connectionId _ => some connectionId
  | _ => none

/-- No two calls of `connect` are given the same connection id. -/
def FreshIds {ι : Type} (calls : ι → GatewayCall) : Prop :=
  ∀ i j id, (calls i).connects = some id → (calls j).connects = some id → i = j

/-- A schedule whose outcome passes a check shows that there is such a run. -/
theorem exists_gatewayRun {ι : Type} [DecidableEq ι] {repr : Json → String}
    {calls : ι → GatewayCall} {w₀ : World} (fails : Socket → Bool) (schedule : List ι)
    (check : GatewayHistory ι → GatewayConfig ι → Prop) [∀ h c, Decidable (check h c)]
    (hf : (Config.follow (fun _ => true) (fun _ w e => some (gatewayAnswers fails w e)) schedule
      ([], start repr calls w₀)).any fun hc => check hc.1 hc.2) :
    ∃ h c, GatewayRun repr calls w₀ h c ∧ check h c := by
  refine Config.exists_run ?_ schedule check hf
  intro i w e a w' heq
  have hsound := gatewayAnswers_sound fails w e
  rw [Option.some.injEq] at heq
  rwa [heq] at hsound

end Mtrader.Gateway
