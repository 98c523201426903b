/-
  Mtrader.Gateway.World

  What the coroutines of the API gateway work on: one Redis, the sockets of the
  clients, and the local maps of the connection managers.

  - Every Redis command is an operation of its own, and so is a pipeline, which Redis
    executes as one.  Commands are answered one at a time; keys hold collections with
    deadlines as in Kv/Collection.lean, by the clock that `time.time()` reads.
  - A socket may fail to send at any time.  It is accepted once.
  - Redis numbers the published messages.  A subscriber gets them in their order, each
    at most once; it may miss some.
  - A text on a channel is what `json.loads` makes of it.
-/

import Mtrader.Kv.Collection
import Mtrader.Py.Value
import Mtrader.Coroutine.Exec
import Mathlib.Data.NNRat.Defs
import Mathlib.Data.Fintype.Pi
import Mathlib.Data.Finset.Sort
import Mathlib.Data.String.Basic

namespace Mtrader.Gateway

open Py Coroutine Collection

-- ============================================================================
-- Redis keys
-- ============================================================================

inductive Key
  /-- `ws:conn:ip:{client_ip}` -/
  | connIp (clientIp : String)
  /-- `ws:msg:{connection_id}` -/
  | msg (connectionId : String)
  /-- `ws:subs:user:{user_id}` -/
  | subs (userId : String)
  /-- `ws:connections:{connection_id}` -/
  | connection (connectionId : String)
  /-- `ws:user:{user_id}:connections` -/
  | userConnections (userId : String)
  deriving DecidableEq, Repr

def Key.name : Key → String
  | .connIp clientIp => "ws:conn:ip:" ++ clientIp
  | .msg connectionId => "ws:msg:" ++ connectionId
  | .subs userId => "ws:subs:user:" ++ userId
  | .connection connectionId => "ws:connections:" ++ connectionId
  | .userConnections userId => "ws:user:" ++ userId ++ ":connections"

/-- Different keys have different names. -/
theorem Key.name_injective : Function.Injective Key.name := by
  intro k k' h
  have hchar : ∀ i : ℕ, k.name.toList[i]? = k'.name.toList[i]? := fun i => by rw [h]
  have hthird := hchar 3
  cases k with
  | connIp clientIp =>
      cases k' with
      | connIp clientIp' => rw [String.append_right_inj _ |>.mp h]
      | connection connectionId =>
          have hseventh := hchar 7
          simp [Key.name] at hseventh
      | _ => simp [Key.name] at hthird
  | msg connectionId =>
      cases k' with
      | msg connectionId' => rw [String.append_right_inj _ |>.mp h]
      | _ => simp [Key.name] at hthird
  | subs userId =>
      cases k' with
      | subs userId' => rw [String.append_right_inj _ |>.mp h]
      | _ => simp [Key.name] at hthird
  | connection connectionId =>
      cases k' with
      | connection connectionId' => rw [String.append_right_inj _ |>.mp h]
      | connIp clientIp =>
          have hseventh := hchar 7
          simp [Key.name] at hseventh
      | _ => simp [Key.name] at hthird
  | userConnections userId =>
      cases k' with
      | userConnections userId' =>
          have hsuffix := String.append_left_inj _ |>.mp h
          rw [String.append_right_inj _ |>.mp hsuffix]
      | _ => simp [Key.name] at hthird

/-- The fields of a connection's hash. -/
inductive Field
  | userId | sessionId | connectionId | connectedAt | lastHeartbeat | instanceId
  deriving DecidableEq, Repr

instance : Fintype Field where
  elems := {.userId, .sessionId, .connectionId, .connectedAt, .lastHeartbeat, .instanceId}
  complete field := by cases field <;> decide

/-- A hash. -/
abbrev Hash : Type := Field → Option String

instance : EmptyCollection Hash := ⟨fun _ => none⟩

/-- A command of a pipeline on a sorted set.  The members are clock readings, since
    `str(now)` reads back as `now`. -/
inductive ZCommand
  | zremrangebyscore (min max : ℚ)
  | zadd (member score : ℚ)
  | zcard
  | expire (seconds : ℚ)
  deriving DecidableEq, Repr

-- ============================================================================
-- Values
-- ============================================================================

/-- A JSON value. -/
inductive Json
  | null
  | bool (b : Bool)
  | num (q : ℚ)
  /-- `NaN`, `Infinity` and `-Infinity`. -/
  | special (name : String)
  | str (s : String)
  | arr (items : List Json)
  | obj (fields : List (String × Json))

/-- `bool(value)`. -/
def Json.truthy : Json → Bool
  | .null => false
  | .bool b => b
  | .num q => q ≠ 0
  | .special _ => true
  | .str s => s ≠ ""
  | .arr items => !items.isEmpty
  | .obj fields => !fields.isEmpty

/-- `value.get(key)`; only a dict has a method `get`. -/
def Json.get (key : String) : Json → Except Exc (Option Json)
  | .obj fields => .ok (fields.lookup key)
  | _ => .error (.attributeError "object has no attribute 'get'")

/-- `str(value)`; `repr` is what it gives for values that are no texts. -/
def Json.text (repr : Json → String) : Json → String
  | .str s => s
  | v => repr v

/-- A text on a channel. -/
inductive Text
  | json (value : Json)
  | other

/-- `json.loads(text)`. -/
def Text.loads : Text → Except Exc Json
  | .json value => .ok value
  | .other => .error (.valueError "Expecting value")

/-- A published message; `serial` is its number, and `channel` is `none` when its bytes
    are no UTF-8. -/
structure Message where
  serial : ℕ
  channel : Option String
  data : Text

abbrev Socket : Type := ℕ

/-- What is sent to a client. -/
inductive Frame
  /-- `{"topic": topic, "data": data}` -/
  | message (topic : String) (data : Json)
  /-- `{"event": name, ...}` -/
  | event (name : String) (fields : List (String × String))

/-- A `RedisConnectionManager`; `slot` tells the objects apart. -/
structure Manager where
  slot : ℕ
  instanceId : String
  deriving DecidableEq, Repr

-- ============================================================================
-- Operations
-- ============================================================================

/-- What the coroutines call, and the passing of time. -/
inductive GatewayOp
  /-- `time.time()` -/
  | time
  /-- `datetime.now(timezone.utc).isoformat()` -/
  | isoNow
  | pipeline (key : Key) (commands : List ZCommand)
  | hset (key : Key) (mapping : List (Field × String))
  | hget (key : Key) (field : Field)
  | hgetall (key : Key)
  | expire (key : Key) (seconds : ℚ)
  | delete (key : Key)
  | sadd (key : Key) (members : List String)
  | srem (key : Key) (members : List String)
  | smembers (key : Key)
  | scard (key : Key)
  | publish (channel : String) (data : Text)
  | getMessage (manager : Manager)
  | accept (websocket : Socket)
  | receiveJson (websocket : Socket)
  | sendJson (websocket : Socket) (frame : Frame)
  | close (websocket : Socket) (code : ℕ)
  /-- `self._local_connections[connection_id] = websocket` -/
  | setLocal (manager : Manager) (connectionId : String) (websocket : Socket)
  /-- `self._local_connections.pop(connection_id, None)` -/
  | popLocal (manager : Manager) (connectionId : String)
  /-- `self._local_connections.get(connection_id)` -/
  | getLocal (manager : Manager) (connectionId : String)
  | tick (seconds : ℚ≥0)

@[reducible] def GatewayOp.Ans : GatewayOp → Type
  | .time => ℚ
  | .isoNow => String
  | .pipeline .. => List ℕ
  | .hset .. => Unit
  | .hget .. => Option String
  | .hgetall _ => Hash
  | .expire .. => Unit
  | .delete _ => Unit
  | .sadd .. => ℕ
  | .srem .. => ℕ
  | .smembers _ => List String
  | .scard _ => ℕ
  | .publish .. => Unit
  | .getMessage _ => Option Message
  | .accept _ => Unit
  | .receiveJson _ => Json
  | .sendJson .. => Unit
  | .close .. => Unit
  | .setLocal .. => Unit
  | .popLocal .. => Unit
  | .getLocal .. => Option Socket
  | .tick _ => Unit

abbrev GatewayM : Type → Type := Prog GatewayOp.Ans Exc

/-- One operation. -/
abbrev perform (e : GatewayOp) : GatewayM e.Ans := Prog.op e

-- ============================================================================
-- The world
-- ============================================================================

structure World where
  clock : ℚ≥0
  zsets : Key → Held ℚ (ZSet ℚ ℚ) := fun _ => .absent
  sets : Key → Held ℚ (Finset String) := fun _ => .absent
  hashes : Key → Held ℚ Hash := fun _ => .absent
  /-- What has been published, oldest first. -/
  published : List Message := []
  /-- What is next to come to a manager's subscription. -/
  next : ℕ → ℕ := fun _ => 0
  locals : ℕ → String → Option Socket := fun _ _ => none
  accepted : List Socket := []
  /-- What the clients are going to send. -/
  incoming : Socket → List Json := fun _ => []

namespace World

variable (w : World)

def now : ℚ := w.clock

/-- The members of a set. -/
def members (key : Key) : Finset String := (w.sets key).read w.now

/-- The fields of a hash. -/
def hash (key : Key) : Hash := (w.hashes key).read w.now

/-- Change a sorted set. -/
def setZset (key : Key) (k : Held ℚ (ZSet ℚ ℚ)) : World :=
  { w with zsets := Function.update w.zsets key k }

/-- Change a set. -/
def writeSet (key : Key) (f : Finset String → Finset String) : World :=
  { w with sets := Function.update w.sets key ((w.sets key).write w.now f) }

/-- Change a hash. -/
def writeHash (key : Key) (f : Hash → Hash) : World :=
  { w with hashes := Function.update w.hashes key ((w.hashes key).write w.now f) }

def expire (key : Key) (seconds : ℚ) : World :=
  { w with
    zsets := Function.update w.zsets key ((w.zsets key).expire w.now seconds)
    sets := Function.update w.sets key ((w.sets key).expire w.now seconds)
    hashes := Function.update w.hashes key ((w.hashes key).expire w.now seconds) }

def delete (key : Key) : World :=
  { w with
    zsets := Function.update w.zsets key .absent
    sets := Function.update w.sets key .absent
    hashes := Function.update w.hashes key .absent }

def publish (channel : String) (data : Text) : World :=
  { w with published := w.published ++ [⟨w.published.length, some channel, data⟩] }

/-- The manager's subscription has come past message `n`. -/
def take (manager : Manager) (n : ℕ) : World :=
  { w with next := Function.update w.next manager.slot (n + 1) }

def accept (websocket : Socket) : World := { w with accepted := websocket :: w.accepted }

/-- The client's next message has been received. -/
def receive (websocket : Socket) : World :=
  { w with incoming := Function.update w.incoming websocket (w.incoming websocket).tail }

def setLocal (manager : Manager) (connectionId : String) (websocket : Option Socket) : World :=
  { w with
    locals := Function.update w.locals manager.slot
      (Function.update (w.locals manager.slot) connectionId websocket) }

/-- The world some seconds later. -/
def later (seconds : ℚ≥0) : World := { w with clock := w.clock + seconds }

theorem now_nonneg : 0 ≤ w.now := w.clock.2

theorem now_le_later (seconds : ℚ≥0) : w.now ≤ (w.later seconds).now :=
  le_add_of_nonneg_right seconds.2

end World

namespace World

variable {w : World} {key key' : Key}

@[simp] theorem now_writeSet {f : Finset String → Finset String} :
    (w.writeSet key f).now = w.now := rfl

theorem members_writeSet {f : Finset String → Finset String} :
    (w.writeSet key f).members key = f (w.members key) := by
  show Held.read (Function.update w.sets key _ key) w.now = _
  rw [Function.update_self, Held.read_write]
  rfl

theorem members_writeSet_of_ne {f : Finset String → Finset String} (h : key' ≠ key) :
    (w.writeSet key f).members key' = w.members key' := by
  show Held.read (Function.update w.sets key _ key') w.now = _
  rw [Function.update_of_ne h]
  rfl

theorem members_expire {seconds : ℚ} :
    (w.expire key seconds).members key' = w.members key' ∨
      key' = key ∧ (w.expire key seconds).members key' = ∅ := by
  show Held.read (Function.update w.sets key _ key') w.now = _ ∨
    _ ∧ Held.read (Function.update w.sets key _ key') w.now = _
  by_cases h : key' = key
  · rw [h, Function.update_self]
    exact Held.read_expire_cases.imp id fun hempty => ⟨rfl, hempty⟩
  · rw [Function.update_of_ne h]
    exact .inl rfl

theorem members_delete :
    (w.delete key).members key' = if key' = key then ∅ else w.members key' := by
  show Held.read (Function.update w.sets key _ key') w.now = _
  by_cases h : key' = key
  · rw [h, Function.update_self, if_pos rfl]
    rfl
  · rw [Function.update_of_ne h, if_neg h]
    rfl

theorem members_later {seconds : ℚ≥0} :
    (w.later seconds).members key = w.members key ∨ (w.later seconds).members key = ∅ :=
  Held.read_later (w.now_le_later seconds)

theorem hash_writeHash_of_ne {f : Hash → Hash} (h : key' ≠ key) :
    (w.writeHash key f).hash key' = w.hash key' := by
  show Held.read (Function.update w.hashes key _ key') w.now = _
  rw [Function.update_of_ne h]
  rfl

theorem hash_expire {seconds : ℚ} :
    (w.expire key seconds).hash key' = w.hash key' ∨ (w.expire key seconds).hash key' = ∅ := by
  show Held.read (Function.update w.hashes key _ key') w.now = _ ∨
    Held.read (Function.update w.hashes key _ key') w.now = _
  by_cases h : key' = key
  · rw [h, Function.update_self]
    exact Held.read_expire_cases
  · rw [Function.update_of_ne h]
    exact .inl rfl

theorem hash_delete : (w.delete key).hash key' = if key' = key then ∅ else w.hash key' := by
  show Held.read (Function.update w.hashes key _ key') w.now = _
  by_cases h : key' = key
  · rw [h, Function.update_self, if_pos rfl]
    rfl
  · rw [Function.update_of_ne h, if_neg h]
    rfl

theorem hash_later {seconds : ℚ≥0} :
    (w.later seconds).hash key = w.hash key ∨ (w.later seconds).hash key = ∅ :=
  Held.read_later (w.now_le_later seconds)

theorem locals_setLocal {manager : Manager} {connectionId id : String} {slot : ℕ}
    {websocket : Option Socket} :
    (w.setLocal manager connectionId websocket).locals slot id =
      if slot = manager.slot ∧ id = connectionId then websocket else w.locals slot id := by
  show Function.update w.locals manager.slot _ slot id = _
  by_cases hslot : slot = manager.slot
  · rw [hslot, Function.update_self]
    by_cases hid : id = connectionId
    · rw [hid, Function.update_self, if_pos ⟨rfl, rfl⟩]
    · rw [Function.update_of_ne hid, if_neg fun h => hid h.2]
  · rw [Function.update_of_ne hslot, if_neg fun h => hslot h.1]

end World

/-- The answer of a command of a pipeline, and the key after it. -/
def ZCommand.run (now : ℚ) (k : Held ℚ (ZSet ℚ ℚ)) : ZCommand → ℕ × Held ℚ (ZSet ℚ ℚ)
  | .zremrangebyscore min max =>
      let k' := k.write now (·.removeScores min max)
      ((k.read now).card - (k'.read now).card, k')
  | .zadd member score =>
      let k' := k.write now (·.add member score)
      ((k'.read now).card - (k.read now).card, k')
  | .zcard => ((k.read now).card, k)
  | .expire seconds => (if k.read now = ∅ then 0 else 1, k.expire now seconds)

/-- The answers of a pipeline, and the key after it. -/
def runPipeline (now : ℚ) : List ZCommand → Held ℚ (ZSet ℚ ℚ) → List ℕ × Held ℚ (ZSet ℚ ℚ)
  | [], k => ([], k)
  | c :: cs, k =>
      let (n, k') := c.run now k
      let (ns, k'') := runPipeline now cs k'
      (n :: ns, k'')

/-- Fields set one after another. -/
def setFields (mapping : List (Field × String)) (h : Hash) : Hash :=
  mapping.foldl (fun h p => Function.update h p.1 (some p.2)) h

/-- `WebSocketDisconnect`. -/
def webSocketDisconnect : Exc := .external "WebSocketDisconnect"

/-- How the operations are answered. -/
def gatewayEnv : Env World GatewayOp.Ans Exc :=
  fun w e a w' => match e with
    | .time => a = .ok w.now ∧ w' = w
    | .isoNow => ∃ s, a = .ok s ∧ w' = w
    | .pipeline key commands =>
        a = .ok (runPipeline w.now commands (w.zsets key)).1 ∧
          w' = w.setZset key (runPipeline w.now commands (w.zsets key)).2
    | .hset key mapping => a = .ok () ∧ w' = w.writeHash key (setFields mapping)
    | .hget key field => a = .ok (w.hash key field) ∧ w' = w
    | .hgetall key => a = .ok (w.hash key) ∧ w' = w
    | .expire key seconds => a = .ok () ∧ w' = w.expire key seconds
    | .delete key => a = .ok () ∧ w' = w.delete key
    | .sadd key members =>
        a = .ok (members.toFinset \ w.members key).card ∧
          w' = w.writeSet key (· ∪ members.toFinset)
    | .srem key members =>
        a = .ok (members.toFinset ∩ w.members key).card ∧
          w' = w.writeSet key (· \ members.toFinset)
    | .smembers key =>
        ∃ members, members.Nodup ∧ members.toFinset = w.members key ∧ a = .ok members ∧ w' = w
    | .scard key => a = .ok (w.members key).card ∧ w' = w
    | .publish channel data => a = .ok () ∧ w' = w.publish channel data
    | .getMessage manager =>
        (a = .ok none ∧ w' = w) ∨ ∃ message n, w.next manager.slot ≤ n ∧
          w.published[n]? = some message ∧ a = .ok (some message) ∧ w' = w.take manager n
    | .accept websocket =>
        (websocket ∉ w.accepted ∧ a = .ok () ∧ w' = w.accept websocket) ∨
          ∃ x, a = .error x ∧ w' = w
    | .receiveJson websocket => match w.incoming websocket with
        | message :: _ => a = .ok message ∧ w' = w.receive websocket
        | [] => a = .error webSocketDisconnect ∧ w' = w
    | .sendJson .. => w' = w
    | .close .. => w' = w
    | .setLocal manager connectionId websocket =>
        a = .ok () ∧ w' = w.setLocal manager connectionId (some websocket)
    | .popLocal manager connectionId =>
        a = .ok () ∧ w' = w.setLocal manager connectionId none
    | .getLocal manager connectionId =>
        a = .ok (w.locals manager.slot connectionId) ∧ w' = w
    | .tick seconds => a = .ok () ∧ w' = w.later seconds

/-- What an operation can do to the world. -/
inductive Change (w : World) : GatewayOp → World → Prop
  | same (e : GatewayOp) : Change w e w
  | pipeline (key : Key) (commands : List ZCommand) (k : Held ℚ (ZSet ℚ ℚ)) :
      Change w (.pipeline key commands) (w.setZset key k)
  | hset (key : Key) (mapping : List (Field × String)) :
      Change w (.hset key mapping) (w.writeHash key (setFields mapping))
  | expire (key : Key) (seconds : ℚ) : Change w (.expire key seconds) (w.expire key seconds)
  | delete (key : Key) : Change w (.delete key) (w.delete key)
  | sadd (key : Key) (members : List String) :
      Change w (.sadd key members) (w.writeSet key (· ∪ members.toFinset))
  | srem (key : Key) (members : List String) :
      Change w (.srem key members) (w.writeSet key (· \ members.toFinset))
  | publish (channel : String) (data : Text) :
      Change w (.publish channel data) (w.publish channel data)
  | take (manager : Manager) (n : ℕ) : Change w (.getMessage manager) (w.take manager n)
  | accept (websocket : Socket) : Change w (.accept websocket) (w.accept websocket)
  | receive (websocket : Socket) : Change w (.receiveJson websocket) (w.receive websocket)
  | setLocal (manager : Manager) (connectionId : String) (websocket : Socket) :
      Change w (.setLocal manager connectionId websocket)
        (w.setLocal manager connectionId (some websocket))
  | popLocal (manager : Manager) (connectionId : String) :
      Change w (.popLocal manager connectionId) (w.setLocal manager connectionId none)
  | tick (seconds : ℚ≥0) : Change w (.tick seconds) (w.later seconds)

theorem change_of_env {w w' : World} {e : GatewayOp} {a : Except Exc e.Ans}
    (henv : gatewayEnv w e a w') : Change w e w' := by
  cases e with
  | pipeline key commands =>
      obtain ⟨-, rfl⟩ := henv
      exact .pipeline key commands _
  | isoNow =>
      obtain ⟨s, -, rfl⟩ := henv
      exact .same _
  | hset key mapping =>
      obtain ⟨-, rfl⟩ := henv
      exact .hset key mapping
  | expire key seconds =>
      obtain ⟨-, rfl⟩ := henv
      exact .expire key seconds
  | delete key =>
      obtain ⟨-, rfl⟩ := henv
      exact .delete key
  | sadd key members =>
      obtain ⟨-, rfl⟩ := henv
      exact .sadd key members
  | srem key members =>
      obtain ⟨-, rfl⟩ := henv
      exact .srem key members
  | smembers key =>
      obtain ⟨members, -, -, -, rfl⟩ := henv
      exact .same _
  | publish channel data =>
      obtain ⟨-, rfl⟩ := henv
      exact .publish channel data
  | getMessage manager =>
      rcases henv with ⟨-, rfl⟩ | ⟨message, n, -, -, -, rfl⟩
      · exact .same _
      · exact .take manager n
  | accept websocket =>
      rcases henv with ⟨-, -, rfl⟩ | ⟨x, -, rfl⟩
      · exact .accept websocket
      · exact .same _
  | receiveJson websocket =>
      simp only [gatewayEnv] at henv
      split at henv
      next =>
        obtain ⟨-, rfl⟩ := henv
        exact .receive websocket
      next =>
        obtain ⟨-, rfl⟩ := henv
        exact .same _
  | sendJson websocket frame =>
      obtain rfl : w' = w := henv
      exact .same _
  | close websocket code =>
      obtain rfl : w' = w := henv
      exact .same _
  | setLocal manager connectionId websocket =>
      obtain ⟨-, rfl⟩ := henv
      exact .setLocal manager connectionId websocket
  | popLocal manager connectionId =>
      obtain ⟨-, rfl⟩ := henv
      exact .popLocal manager connectionId
  | tick seconds =>
      obtain ⟨-, rfl⟩ := henv
      exact .tick seconds
  | _ =>
      obtain ⟨-, rfl⟩ := henv
      exact .same _

-- ============================================================================
-- Playing
-- ============================================================================

/-- The operations answered in one way: a subscription misses nothing, and the sockets in
    `fails` do not send. -/
def gatewayAnswers (fails : Socket → Bool) : Answers World GatewayOp.Ans Exc :=
  fun w e => match e with
    | .time => (.ok w.now, w)
    | .isoNow => (.ok "", w)
    | .pipeline key commands =>
        (.ok (runPipeline w.now commands (w.zsets key)).1,
          w.setZset key (runPipeline w.now commands (w.zsets key)).2)
    | .hset key mapping => (.ok (), w.writeHash key (setFields mapping))
    | .hget key field => (.ok (w.hash key field), w)
    | .hgetall key => (.ok (w.hash key), w)
    | .expire key seconds => (.ok (), w.expire key seconds)
    | .delete key => (.ok (), w.delete key)
    | .sadd key members =>
        (.ok (members.toFinset \ w.members key).card, w.writeSet key (· ∪ members.toFinset))
    | .srem key members =>
        (.ok (members.toFinset ∩ w.members key).card, w.writeSet key (· \ members.toFinset))
    | .smembers key => (.ok ((w.members key).sort (· ≤ ·)), w)
    | .scard key => (.ok (w.members key).card, w)
    | .publish channel data => (.ok (), w.publish channel data)
    | .getMessage manager => match w.published[w.next manager.slot]? with
        | some message => (.ok (some message), w.take manager (w.next manager.slot))
        | none => (.ok none, w)
    | .accept websocket =>
        if websocket ∉ w.accepted then (.ok (), w.accept websocket)
        else (.error (.external "already accepted"), w)
    | .receiveJson websocket => match w.incoming websocket with
        | message :: _ => (.ok message, w.receive websocket)
        | [] => (.error webSocketDisconnect, w)
    | .sendJson websocket _ =>
        (if fails websocket then .error (.external "not connected") else .ok (), w)
    | .close .. => (.ok (), w)
    | .setLocal manager connectionId websocket =>
        (.ok (), w.setLocal manager connectionId (some websocket))
    | .popLocal manager connectionId => (.ok (), w.setLocal manager connectionId none)
    | .getLocal manager connectionId => (.ok (w.locals manager.slot connectionId), w)
    | .tick seconds => (.ok (), w.later seconds)

theorem gatewayAnswers_sound (fails : Socket → Bool) (w : World) (e : GatewayOp) :
    gatewayEnv w e (gatewayAnswers fails w e).1 (gatewayAnswers fails w e).2 := by
  cases e with
  | isoNow => exact ⟨"", rfl, rfl⟩
  | smembers key =>
      exact ⟨_, Finset.sort_nodup _ _, Finset.sort_toFinset _ _, rfl, rfl⟩
  | getMessage manager =>
      simp only [gatewayEnv, gatewayAnswers]
      cases hnext : w.published[w.next manager.slot]? with
      | some message => exact .inr ⟨message, _, le_rfl, hnext, rfl, rfl⟩
      | none => exact .inl ⟨rfl, rfl⟩
  | accept websocket =>
      simp only [gatewayEnv, gatewayAnswers]
      by_cases h : websocket ∉ w.accepted
      · rw [if_pos h]
        exact .inl ⟨h, rfl, rfl⟩
      · rw [if_neg h]
        exact .inr ⟨_, rfl, rfl⟩
  | receiveJson websocket =>
      simp only [gatewayEnv, gatewayAnswers]
      cases w.incoming websocket with
      | nil => exact ⟨rfl, rfl⟩
      | cons message rest => exact ⟨rfl, rfl⟩
  | sendJson websocket frame => rfl
  | close websocket code => rfl
  | _ => exact ⟨rfl, rfl⟩

end Mtrader.Gateway
