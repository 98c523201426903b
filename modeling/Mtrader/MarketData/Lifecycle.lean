/-
  Mtrader.MarketData.Lifecycle

  `connect` and `disconnect` of `MT5Provider` in `providers/base.py`, with its other methods
  and its streams, as coroutines on one event loop.

  Provider.lean has the provider in its service: connected, and with the callbacks of the
  endpoints.  Here anybody may call any of the methods, and a callback is whatever it is
  answered with: it may raise, and it may be a coroutine that waits.

  - Every client makes one call; who makes several is several clients.
  - A dict that changes while it is iterated over may raise, end early or go on.
-/

import Mtrader.MarketData.Methods
import Mtrader.Merge.Best

namespace Mtrader.MarketData.Lifecycle

open Coroutine Py

-- ============================================================================
-- Operations
-- ============================================================================

/-- What the coroutines call; `β` are the callbacks. -/
inductive SessionOp (β : Type)
  /-- A client has made the call. -/
  | begin
  /-- The call returns; `result` is what `subscribe_ticks` returns. -/
  | returned (result : String → Option Bool)
  /-- The loop has started the task, which streams a symbol to a callback. -/
  | start
  /-- The task ends. -/
  | finish
  /-- `mt5.initialize`; with no path, the terminal's own. -/
  | initializeMt5 (path : Option String)
  | login (account : ℤ) (password server : String)
  | shutdown
  /-- Reading and writing `self._connected`. -/
  | isConnected
  | setConnected (connected : Bool)
  /-- `iter(self._tasks.values())`; the answer is the dict at that time. -/
  | values
  /-- `next` of an iterator over what the dict was, at a position. -/
  | nextValue (entries : List (String × ℕ)) (position : ℕ)
  /-- `self._tasks.clear()` -/
  | clear
  | symbolSelect (symbol : String) (enable : Bool)
  /-- `symbol in self._tasks` -/
  | inTasks (symbol : String)
  /-- `self._tasks[symbol] = asyncio.create_task(self._stream(symbol, callback))` -/
  | createTask (symbol : String) (callback : β)
  /-- `self._tasks.pop(symbol, None)` -/
  | popTask (symbol : String)
  | cancel (task : ℕ)
  /-- `asyncio.gather(task, return_exceptions=True)` -/
  | gather (task : ℕ)
  /-- `mt5.copy_ticks_from` for one tick, and the conversions of its row. -/
  | copyTicks (symbol : String)
  /-- `callback(tick)`; the answer is whether it has returned a coroutine. -/
  | invoke (callback : β) (tick : Tick)
  /-- `await out` -/
  | awaitOut
  | sleep (seconds : ℚ)
  /-- Wait for ever. -/
  | wait

@[reducible] def SessionOp.Ans {β : Type} : SessionOp β → Type
  | .start => String × β
  | .initializeMt5 _ => Bool
  | .login .. => Bool
  | .isConnected => Bool
  | .values => List (String × ℕ)
  | .nextValue .. => Option ℕ
  | .symbolSelect .. => Bool
  | .inTasks _ => Bool
  | .popTask _ => Option ℕ
  | .copyTicks _ => Option TickRow
  | .invoke .. => Bool
  | _ => Unit

/-- The operations that give up the loop. -/
def SessionOp.suspends {β : Type} : SessionOp β → Bool
  | .begin => true
  | .start => true
  | .gather _ => true
  | .awaitOut => true
  | .sleep _ => true
  | .wait => true
  | _ => false

variable {β : Type}

abbrev SessionAns (β : Type) : SessionOp β → Type := SessionOp.Ans

abbrev SessionM (β : Type) : Type → Type := Prog (SessionAns β) (Thrown Exc)

abbrev session (e : SessionOp β) : SessionM β e.Ans := Prog.op e

-- ============================================================================
-- MT5Provider
-- ============================================================================

/-- What an `MT5Provider` is made of; `installed` when the package `MetaTrader5` is. -/
structure MT5Provider where
  account : ℤ
  password : String
  server : String
  path : Option String := none
  installed : Bool := true

namespace MT5Provider

def connect (self : MT5Provider) : SessionM β Bool := do
  if !self.installed then return false
  else if ← session (.initializeMt5 (self.path.filter fun path => path ≠ "")) then
    let connected ← session (.login self.account self.password self.server)
    session (.setConnected connected)
    session .isConnected
  else return false

/-- The loop of `disconnect`, with so many tasks left. -/
def cancelAll (entries : List (String × ℕ)) : ℕ → SessionM β Unit
  | 0 => do let _ ← session (.nextValue entries entries.length)
  | left + 1 => do
      match ← session (.nextValue entries (entries.length - (left + 1))) with
      | some task => do
          session (.cancel task)
          session (.gather task)
          cancelAll entries left
      | none => pure ()

def disconnect (self : MT5Provider) : SessionM β Unit := do
  let entries ← session .values
  cancelAll entries entries.length
  session .clear
  if self.installed then session .shutdown
  session (.setConnected false)

end MT5Provider

instance : Terminal (SessionAns β) β where
  symbolSelect symbol enable := session (.symbolSelect symbol enable)
  inTasks symbol := session (.inTasks symbol)
  createTask symbol callback := session (.createTask symbol callback)
  popTask symbol := session (.popTask symbol)
  cancel task := session (.cancel task)
  gather task := session (.gather task)
  started := session .start
  finish := session .finish
  isConnected := session .isConnected
  copyTicks symbol := session (.copyTicks symbol)
  callback callback tick := do
    if ← session (.invoke callback tick) then session .awaitOut
  sleep seconds := session (.sleep seconds)
  wait := session .wait

/-- What a client calls. -/
inductive SessionCall (β : Type)
  | connect
  | disconnect
  | subscribe (symbols : List String) (callback : β)
  | unsubscribe (symbols : List String)

def SessionCall.body (self : MT5Provider) : SessionCall β → SessionM β (String → Option Bool)
  | .connect => do
      let _ ← self.connect
      return fun _ => none
  | .disconnect => do
      self.disconnect
      return fun _ => none
  | .subscribe symbols callback => subscribeTicks callback symbols fun _ => none
  | .unsubscribe symbols => do
      unsubscribeTicks symbols
      return fun _ => none

def SessionCall.prog (self : MT5Provider) (call : SessionCall β) : SessionM β Unit := do
  session .begin
  let result ← call.body self
  session (.returned result)

-- ============================================================================
-- The provider
-- ============================================================================

structure SessionWorld (β : Type) where
  /-- `_connected` -/
  connected : Bool := false
  /-- `_tasks`, in the order in which its keys came. -/
  tasks : List (String × ℕ) := []
  /-- What each task was created to stream, and to which callback. -/
  streams : ℕ → Option (String × β) := fun _ => none
  loop : Tasks := {}

namespace SessionWorld

variable (w : SessionWorld β)

/-- `_tasks.get(symbol)` -/
def taskOf (symbol : String) : Option ℕ :=
  (Merge.lookup Prod.fst w.tasks symbol).map Prod.snd

def createTask (symbol : String) (callback : β) : SessionWorld β :=
  { w with
    tasks := Merge.put Prod.fst w.tasks (symbol, w.loop.created)
    streams := Function.update w.streams w.loop.created (some (symbol, callback))
    loop := w.loop.create }

def popTask (symbol : String) : SessionWorld β :=
  { w with tasks := w.tasks.filter fun entry => entry.1 ≠ symbol }

end SessionWorld

/-- What `next` of an iterator may answer: as long as the dict is what it was, the value at
    the position. -/
def NextValue (tasks entries : List (String × ℕ)) (position : ℕ)
    (a : Except (Thrown Exc) (Option ℕ)) : Prop :=
  if tasks = entries then a = .ok ((entries[position]?).map Prod.snd)
  else (∃ x, a = .error (.exception x)) ∨ a = .ok none ∨
    ∃ entry ∈ tasks, position < entries.length ∧ a = .ok (some entry.2)

variable {κ : Type}

/-- How the operations are answered when no cancellation interrupts them; the others wait.
    A client that waits for a task may be cancelled itself. -/
def sessionReply (i : Actor κ) (w : SessionWorld β) (e : SessionOp β)
    (a : Except (Thrown Exc) e.Ans) (w' : SessionWorld β) : Prop :=
  match e with
    | .begin => a = .ok () ∧ w' = w
    | .returned _ => a = .ok () ∧ w' = w
    | .start => ∃ n stream, i = .task n ∧ w.streams n = some stream ∧ a = .ok stream ∧ w' = w
    | .finish => a = .ok () ∧
        w' = match i with
          | .task n => { w with loop := w.loop.finish n }
          | .client _ => w
    | .initializeMt5 _ => Answered a ∧ w' = w
    | .login .. => Answered a ∧ w' = w
    | .shutdown => Answered a ∧ w' = w
    | .isConnected => a = .ok w.connected ∧ w' = w
    | .setConnected connected => a = .ok () ∧ w' = { w with connected := connected }
    | .values => a = .ok w.tasks ∧ w' = w
    | .nextValue entries position => NextValue w.tasks entries position a ∧ w' = w
    | .clear => a = .ok () ∧ w' = { w with tasks := [] }
    | .symbolSelect .. => Answered a ∧ w' = w
    | .inTasks symbol => a = .ok (w.taskOf symbol).isSome ∧ w' = w
    | .createTask symbol callback => a = .ok () ∧ w' = w.createTask symbol callback
    | .popTask symbol => a = .ok (w.taskOf symbol) ∧ w' = w.popTask symbol
    | .cancel n => a = .ok () ∧ w' = { w with loop := w.loop.cancel n }
    | .gather n => (w.loop.finished n ∧ a = .ok () ∨ a = .error .cancelled) ∧ w' = w
    | .copyTicks _ => Answered a ∧ w' = w
    | .invoke .. => w' = w
    | .awaitOut => w' = w
    | .sleep _ => a = .ok () ∧ w' = w
    | .wait => False

/-- How the operations of a coroutine are answered.  A callback that is cancelled may do
    what it likes. -/
def sessionEnv (i : Actor κ) : Env (SessionWorld β) (SessionAns β) (Thrown Exc) :=
  fun w e a w' =>
    if e.suspends && w.loop.interrupts i then
      (a = .error .cancelled ∨ e = .awaitOut) ∧ w' = { w with loop := w.loop.interrupt i }
    else sessionReply i w e a w'

abbrev SessionEvent (β : Type) : Type := Event (SessionWorld β) (SessionAns β) (Thrown Exc)

abbrev SessionHistory (κ β : Type) : Type :=
  History (Actor κ) (SessionWorld β) (SessionAns β) (Thrown Exc)

abbrev SessionConfig (κ β : Type) : Type :=
  Config (Actor κ) (SessionWorld β) (SessionAns β) (Thrown Exc) Unit

/-- A provider of which nothing has been asked. -/
def sessionStart (self : MT5Provider) (calls : κ → SessionCall β) (rounds : ℕ → ℕ) :
    SessionConfig κ β where
  world := {}
  pool
    | .client i => (calls i).prog self
    | .task n => streamProg (rounds n)

abbrev SessionRun [DecidableEq κ] (self : MT5Provider) (calls : κ → SessionCall β)
    (rounds : ℕ → ℕ) : SessionHistory κ β → SessionConfig κ β → Prop :=
  Run SessionOp.suspends sessionEnv (sessionStart self calls rounds)

end Mtrader.MarketData.Lifecycle
