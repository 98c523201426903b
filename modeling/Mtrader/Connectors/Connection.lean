/-
  Mtrader.Connectors.Connection

  `connect`, `disconnect`, `reconnect` and `heartbeat` of `MT5Connector` in
  `connectors/mt5.py`, as coroutines on one event loop.

  - `connect` creates a task that runs `heartbeat`.  The task goes on until something ends
    it; `rounds` bounds how often it goes round, so that a finite run of it is one with
    enough rounds.
  - A call of a client begins and returns by operations of their own.
  - The times and the counter that only `connection_health` reports are left out.
-/

import Mtrader.Coroutine.Tasks
import Mtrader.Py.Value
import Mathlib.Data.Rat.Defs

namespace Mtrader.Connectors

open Coroutine Py

structure MT5Credentials where
  accountId : ℤ
  password : String
  server : String
  path : Option String := none

structure MT5ConnectionConfig where
  reconnectAttempts : ℕ := 10
  reconnectDelay : ℚ := 1
  backoffMultiplier : ℚ := 2
  heartbeatInterval : ℕ := 5
  timeoutMs : ℕ := 30000

/-- What an `MT5Connector` is made of; `installed` when the package `MetaTrader5` is. -/
structure MT5Connector where
  credentials : MT5Credentials
  config : MT5ConnectionConfig := {}
  installed : Bool := true

-- ============================================================================
-- Operations
-- ============================================================================

/-- What the coroutines call. -/
inductive ConnectorOp
  /-- A client has made the call, or the loop has started the task. -/
  | begin
  /-- The call returns to the client. -/
  | returned
  /-- The task ends. -/
  | finish
  /-- Entering and leaving `async with self._lock`. -/
  | acquire
  | release
  /-- Reading and writing `self._connected`. -/
  | isConnected
  | setConnected (connected : Bool)
  | initializeMt5 (path : Option String) (timeout : ℕ)
  | login (accountId : ℤ) (password server : String)
  | shutdown
  /-- `bool(mt5.terminal_info() if mt5 else None)` -/
  | terminalInfo
  | sleep (seconds : ℚ)
  /-- `self._heartbeat_task = asyncio.create_task(self.heartbeat())` -/
  | createHeartbeat
  /-- `self._heartbeat_task` -/
  | heartbeatTask
  | cancel (task : ℕ)
  /-- `asyncio.gather(task, return_exceptions=True)` -/
  | gather (task : ℕ)
  deriving DecidableEq

@[reducible] def ConnectorOp.Ans : ConnectorOp → Type
  | .isConnected => Bool
  | .initializeMt5 .. => Bool
  | .login .. => Bool
  | .terminalInfo => Bool
  | .heartbeatTask => Option ℕ
  | _ => Unit

/-- The operations that give up the loop. -/
def ConnectorOp.suspends : ConnectorOp → Bool
  | .begin => true
  | .acquire => true
  | .sleep _ => true
  | .gather _ => true
  | _ => false

abbrev ConnectorM : Type → Type := Prog ConnectorOp.Ans (Thrown Exc)

abbrev connector (e : ConnectorOp) : ConnectorM e.Ans := Prog.op e

-- ============================================================================
-- MT5Connector
-- ============================================================================

namespace MT5Connector

variable (self : MT5Connector)

/-- The body of `connect`. -/
def establish : ConnectorM Bool := do
  if ← connector .isConnected then return true
  else if !self.installed then return false
  else if ← connector (.initializeMt5 (self.credentials.path.filter fun path => path ≠ "")
      self.config.timeoutMs) then
    if ← connector (.login self.credentials.accountId self.credentials.password
        self.credentials.server) then
      connector (.setConnected true)
      connector .createHeartbeat
      return true
    else
      connector .shutdown
      return false
  else return false

def connect : ConnectorM Bool := do
  connector .acquire
  self.establish.andFinally (connector .release)

/-- The body of `disconnect`. -/
def close : ConnectorM Unit := do
  match ← connector .heartbeatTask with
  | some task => do
      connector (.cancel task)
      connector (.gather task)
  | none => pure ()
  if self.installed then connector .shutdown
  connector (.setConnected false)

def disconnect : ConnectorM Unit := do
  connector .acquire
  self.close.andFinally (connector .release)

/-- The loop of `reconnect`. -/
def retry : ℕ → ℚ → ConnectorM Bool
  | 0, _ => pure false
  | attempts + 1, delay => do
      connector (.sleep delay)
      if ← self.connect then return true
      else retry attempts (delay * self.config.backoffMultiplier)

def reconnect : ConnectorM Bool :=
  self.retry self.config.reconnectAttempts self.config.reconnectDelay

/-- The body of the `try` in `heartbeat`. -/
def beat : ConnectorM Unit := do
  if ← connector .terminalInfo then pure ()
  else do
    connector (.setConnected false)
    let _ ← self.reconnect

def heartbeat : ℕ → ConnectorM Unit
  | 0 => pure ()
  | rounds + 1 => do
      if ← connector .isConnected then
        self.beat.tryExcept fun _ => pure ()
        connector (.sleep self.config.heartbeatInterval)
        heartbeat rounds
      else pure ()

end MT5Connector

-- ============================================================================
-- Coroutines
-- ============================================================================

/-- A call of a client. -/
inductive ClientCall
  | connect | disconnect | reconnect
  deriving DecidableEq

def ClientCall.body (self : MT5Connector) : ClientCall → ConnectorM Unit
  | .connect => do let _ ← self.connect
  | .disconnect => self.disconnect
  | .reconnect => do let _ ← self.reconnect

def ClientCall.prog (self : MT5Connector) (call : ClientCall) : ConnectorM Unit := do
  connector .begin
  call.body self
  connector .returned

/-- A task that runs `heartbeat`. -/
def heartbeatProg (self : MT5Connector) (rounds : ℕ) : ConnectorM Unit :=
  Prog.andFinally (do
    connector .begin
    self.heartbeat rounds) (connector .finish)

structure ConnectorWorld where
  connected : Bool := false
  locked : Bool := false
  /-- `_heartbeat_task` -/
  task : Option ℕ := none
  tasks : Tasks := {}

variable {κ : Type}

/-- How the operations are answered when no cancellation interrupts them; the others wait.
    The package may raise at any call. -/
def connectorReply (i : Actor κ) (w : ConnectorWorld) (e : ConnectorOp)
    (a : Except (Thrown Exc) e.Ans) (w' : ConnectorWorld) : Prop :=
  match e with
    | .begin => (∀ n, i = .task n → n < w.tasks.created) ∧ a = .ok () ∧ w' = w
    | .returned => a = .ok () ∧ w' = w
    | .finish => a = .ok () ∧
        w' = match i with
          | .task n => { w with tasks := w.tasks.finish n }
          | .client _ => w
    | .acquire => w.locked = false ∧ a = .ok () ∧ w' = { w with locked := true }
    | .release => a = .ok () ∧ w' = { w with locked := false }
    | .isConnected => a = .ok w.connected ∧ w' = w
    | .setConnected connected => a = .ok () ∧ w' = { w with connected := connected }
    | .initializeMt5 .. => Answered a ∧ w' = w
    | .login .. => Answered a ∧ w' = w
    | .shutdown => Answered a ∧ w' = w
    | .terminalInfo => Answered a ∧ w' = w
    | .sleep _ => a = .ok () ∧ w' = w
    | .createHeartbeat => a = .ok () ∧
        w' = { w with task := some w.tasks.created, tasks := w.tasks.create }
    | .heartbeatTask => a = .ok w.task ∧ w' = w
    | .cancel n => a = .ok () ∧ w' = { w with tasks := w.tasks.cancel n }
    | .gather n => w.tasks.finished n ∧ a = .ok () ∧ w' = w

/-- How the operations of a coroutine are answered. -/
def connectorEnv (i : Actor κ) : Env ConnectorWorld ConnectorOp.Ans (Thrown Exc) :=
  fun w e a w' =>
    if e.suspends && w.tasks.interrupts i then
      a = .error .cancelled ∧ w' = { w with tasks := w.tasks.interrupt i }
    else connectorReply i w e a w'

abbrev ConnectorHistory (κ : Type) : Type :=
  History (Actor κ) ConnectorWorld ConnectorOp.Ans (Thrown Exc)

abbrev ConnectorConfig (κ : Type) : Type :=
  Config (Actor κ) ConnectorWorld ConnectorOp.Ans (Thrown Exc) Unit

/-- A connector on which nothing has been called. -/
def connectorStart (self : MT5Connector) (calls : κ → ClientCall) (rounds : ℕ → ℕ) :
    ConnectorConfig κ where
  world := {}
  pool
    | .client i => (calls i).prog self
    | .task n => heartbeatProg self (rounds n)

abbrev ConnectorRun [DecidableEq κ] (self : MT5Connector) (calls : κ → ClientCall)
    (rounds : ℕ → ℕ) : ConnectorHistory κ → ConnectorConfig κ → Prop :=
  Run ConnectorOp.suspends connectorEnv (connectorStart self calls rounds)

end Mtrader.Connectors
