/-
  Mtrader.MarketData.Provider

  The endpoints `/ws/ticks` and `/subscriptions` of `app.py`, with the methods of
  `MT5Provider` that they call and its streams, as coroutines on one event loop.

  - Nothing else is called on the provider, which is connected.
  - `rounds` bounds how often a connection receives a message, too.
  - `active` is a local variable; only its `extend` is an operation, so that a history
    shows when a subscription is complete.
-/

import Mtrader.MarketData.Methods

namespace Mtrader.MarketData

open Coroutine Py

-- ============================================================================
-- Callbacks
-- ============================================================================

/-- `tick.__dict__`: an instance of a dataclass with slots has none. -/
def Tick.dict (_ : Tick) : Except Exc (List (String × Val ℚ)) :=
  .error (.attributeError "'Tick' object has no attribute '__dict__'")

/-- What is called with a tick: `lambda _: None`, or the `callback` of a connection. -/
inductive Callback (κ : Type)
  | ignore
  | send (i : κ)
  deriving DecidableEq

-- ============================================================================
-- Operations
-- ============================================================================

/-- A message on `/ws/ticks`: what `get` finds in it. -/
structure TickMessage where
  action : Option String := none
  symbols : List String := []
  deriving DecidableEq

/-- What `receive_json` gives; `disconnected` when it raises `WebSocketDisconnect`. -/
inductive Received
  | message (msg : TickMessage)
  | disconnected
  deriving DecidableEq

/-- What the coroutines call. -/
inductive ProviderOp (κ : Type)
  /-- The loop has started the task, which streams a symbol to a callback. -/
  | begin
  /-- The task ends. -/
  | finish
  | accept
  | receiveJson
  /-- A request to `/subscriptions` has come in, and is answered. -/
  | request
  | respond (result : String → Option Bool)
  /-- `active.extend(symbols)` -/
  | extend (symbols : List String)
  | symbolSelect (symbol : String) (enable : Bool)
  /-- `symbol in self._tasks` -/
  | inTasks (symbol : String)
  /-- `self._tasks[symbol] = asyncio.create_task(self._stream(symbol, callback))` -/
  | createTask (symbol : String) (callback : Callback κ)
  /-- `self._tasks.pop(symbol, None)` -/
  | popTask (symbol : String)
  | cancel (task : ℕ)
  /-- `asyncio.gather(task, return_exceptions=True)` -/
  | gather (task : ℕ)
  /-- Reading `self._connected`. -/
  | isConnected
  /-- `mt5.copy_ticks_from` for one tick, and the conversions of its row. -/
  | copyTicks (symbol : String)
  /-- `callback(tick)` -/
  | call (callback : Callback κ) (tick : Tick)
  | sendJson (fields : List (String × Val ℚ))
  | sleep (seconds : ℚ)
  /-- Wait for ever. -/
  | wait

@[reducible] def ProviderOp.Ans {κ : Type} : ProviderOp κ → Type
  | .begin => String × Callback κ
  | .receiveJson => Received
  | .symbolSelect .. => Bool
  | .inTasks _ => Bool
  | .popTask _ => Option ℕ
  | .isConnected => Bool
  | .copyTicks _ => Option TickRow
  | _ => Unit

/-- The operations that give up the loop. -/
def ProviderOp.suspends {κ : Type} : ProviderOp κ → Bool
  | .begin => true
  | .accept => true
  | .receiveJson => true
  | .request => true
  | .gather _ => true
  | .sendJson _ => true
  | .sleep _ => true
  | .wait => true
  | _ => false

variable {κ : Type}

abbrev ProviderAns (κ : Type) : ProviderOp κ → Type := ProviderOp.Ans

abbrev ProviderM (κ : Type) : Type → Type := Prog (ProviderAns κ) (Thrown Exc)

abbrev provider (e : ProviderOp κ) : ProviderM κ e.Ans := Prog.op e

/-- The body of a callback. -/
def Callback.body (tick : Tick) : Callback κ → ProviderM κ Unit
  | .ignore => pure ()
  | .send _ =>
      match tick.dict with
      | .ok fields => provider (.sendJson fields)
      | .error x => Prog.raise (.exception x)

instance : Terminal (ProviderAns κ) (Callback κ) where
  symbolSelect symbol enable := provider (.symbolSelect symbol enable)
  inTasks symbol := provider (.inTasks symbol)
  createTask symbol callback := provider (.createTask symbol callback)
  popTask symbol := provider (.popTask symbol)
  cancel task := provider (.cancel task)
  gather task := provider (.gather task)
  started := provider .begin
  finish := provider .finish
  isConnected := provider .isConnected
  copyTicks symbol := provider (.copyTicks symbol)
  callback callback tick := do
    provider (.call callback tick)
    callback.body tick
  sleep seconds := provider (.sleep seconds)
  wait := provider .wait

-- ============================================================================
-- The endpoints
-- ============================================================================

/-- The message loop of `ws_ticks`. -/
def receiveTicks (i : κ) : ℕ → List String → ProviderM κ Unit
  | 0, _ => pure ()
  | rounds + 1, active => do
      match ← provider .receiveJson with
      | .message msg =>
          if msg.action = some "subscribe" then do
            let _ ← subscribeTicks (.send i) msg.symbols fun _ => none
            provider (.extend msg.symbols)
            receiveTicks i rounds (active ++ msg.symbols)
          else if msg.action = some "unsubscribe" then do
            unsubscribeTicks msg.symbols
            receiveTicks i rounds (active.filter fun s => s ∉ msg.symbols)
          else receiveTicks i rounds active
      | .disconnected => if active ≠ [] then unsubscribeTicks active else pure ()

def wsTicks (i : κ) (rounds : ℕ) : ProviderM κ Unit := do
  provider .accept
  receiveTicks i rounds []

/-- `subscribe`, the endpoint `/subscriptions`. -/
def subscribe (symbols : List String) : ProviderM κ Unit := do
  provider .request
  let out ← subscribeTicks .ignore symbols fun _ => none
  provider (.respond out)

/-- A connection to `/ws/ticks`, or a call of `/subscriptions`. -/
inductive ProviderCall
  | ticks (rounds : ℕ)
  | post (symbols : List String)

def ProviderCall.isSocket : ProviderCall → Bool
  | .ticks _ => true
  | .post _ => false

def ProviderCall.prog (i : κ) : ProviderCall → ProviderM κ Unit
  | .ticks rounds => wsTicks i rounds
  | .post symbols => subscribe symbols

-- ============================================================================
-- Runs
-- ============================================================================

structure ProviderWorld (κ : Type) where
  connected : Bool := true
  /-- `_tasks` -/
  tasks : String → Option ℕ := fun _ => none
  /-- What each task was created to stream, and to which callback. -/
  streams : ℕ → Option (String × Callback κ) := fun _ => none
  loop : Tasks := {}

namespace ProviderWorld

variable (w : ProviderWorld κ)

def createTask (symbol : String) (callback : Callback κ) : ProviderWorld κ :=
  { w with
    tasks := Function.update w.tasks symbol (some w.loop.created)
    streams := Function.update w.streams w.loop.created (some (symbol, callback))
    loop := w.loop.create }

def popTask (symbol : String) : ProviderWorld κ :=
  { w with tasks := Function.update w.tasks symbol none }

variable {w}

theorem streams_createTask_new {symbol : String} {callback : Callback κ} :
    (w.createTask symbol callback).streams w.loop.created = some (symbol, callback) :=
  Function.update_self ..

theorem streams_createTask_old {symbol : String} {callback : Callback κ} {n : ℕ}
    (hn : n ≠ w.loop.created) : (w.createTask symbol callback).streams n = w.streams n :=
  Function.update_of_ne hn ..

end ProviderWorld

/-- How the operations are answered when no cancellation interrupts them; the others wait.
    The package, a row of it or a connection may raise. -/
def providerReply (i : Actor κ) (w : ProviderWorld κ) (e : ProviderOp κ)
    (a : Except (Thrown Exc) e.Ans) (w' : ProviderWorld κ) : Prop :=
  match e with
    | .begin => ∃ n stream, i = .task n ∧ w.streams n = some stream ∧ a = .ok stream ∧ w' = w
    | .finish => a = .ok () ∧
        w' = match i with
          | .task n => { w with loop := w.loop.finish n }
          | .client _ => w
    | .accept => a = .ok () ∧ w' = w
    | .receiveJson => Answered a ∧ w' = w
    | .request => a = .ok () ∧ w' = w
    | .respond _ => a = .ok () ∧ w' = w
    | .extend _ => a = .ok () ∧ w' = w
    | .symbolSelect .. => Answered a ∧ w' = w
    | .inTasks symbol => a = .ok (w.tasks symbol).isSome ∧ w' = w
    | .createTask symbol callback => a = .ok () ∧ w' = w.createTask symbol callback
    | .popTask symbol => a = .ok (w.tasks symbol) ∧ w' = w.popTask symbol
    | .cancel n => a = .ok () ∧ w' = { w with loop := w.loop.cancel n }
    | .gather n => w.loop.finished n ∧ a = .ok () ∧ w' = w
    | .isConnected => a = .ok w.connected ∧ w' = w
    | .copyTicks _ => Answered a ∧ w' = w
    | .call .. => a = .ok () ∧ w' = w
    | .sendJson _ => Answered a ∧ w' = w
    | .sleep _ => a = .ok () ∧ w' = w
    | .wait => False

/-- How the operations of a coroutine are answered. -/
def providerEnv (i : Actor κ) : Env (ProviderWorld κ) (ProviderAns κ) (Thrown Exc) :=
  fun w e a w' =>
    if e.suspends && w.loop.interrupts i then
      a = .error .cancelled ∧ w' = { w with loop := w.loop.interrupt i }
    else providerReply i w e a w'

abbrev ProviderEvent (κ : Type) : Type :=
  Event (ProviderWorld κ) (ProviderAns κ) (Thrown Exc)

abbrev ProviderHistory (κ : Type) : Type :=
  History (Actor κ) (ProviderWorld κ) (ProviderAns κ) (Thrown Exc)

abbrev ProviderConfig (κ : Type) : Type :=
  Config (Actor κ) (ProviderWorld κ) (ProviderAns κ) (Thrown Exc) Unit

/-- A connected provider to which nobody has subscribed. -/
def providerStart (calls : κ → ProviderCall) (rounds : ℕ → ℕ) : ProviderConfig κ where
  world := {}
  pool
    | .client i => (calls i).prog i
    | .task n => streamProg (rounds n)

abbrev ProviderRun [DecidableEq κ] (calls : κ → ProviderCall) (rounds : ℕ → ℕ) :
    ProviderHistory κ → ProviderConfig κ → Prop :=
  Run ProviderOp.suspends providerEnv (providerStart calls rounds)

end Mtrader.MarketData
