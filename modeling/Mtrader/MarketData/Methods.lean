/-
  Mtrader.MarketData.Methods

  `subscribe_ticks`, `unsubscribe_ticks` and `_stream` of `MT5Provider` in
  `providers/base.py`, for whatever coroutines: Provider.lean has them in the service, with
  the callbacks of its endpoints, and Lifecycle.lean with clients who call anything.

  `rounds` bounds how often a stream goes round; one that has gone round that often waits for
  ever, so a finite run of it is one with enough rounds.
-/

import Mtrader.Coroutine.Tasks
import Mtrader.Py.Value

namespace Mtrader.MarketData

open Coroutine Py

-- ============================================================================
-- Ticks
-- ============================================================================

/-- What a row of the terminal holds, after the conversions. -/
structure TickRow where
  bid : ℚ
  ask : ℚ
  time : Time
  volume : ℤ
  deriving DecidableEq

/-- A dataclass with `slots=True`. -/
structure Tick where
  symbol : String
  bid : ℚ
  ask : ℚ
  time : Time
  volume : ℤ
  provider : String
  deriving DecidableEq

def TickRow.tick (row : TickRow) (symbol : String) : Tick where
  symbol := symbol
  bid := row.bid
  ask := row.ask
  time := row.time
  volume := row.volume
  provider := "mt5"

-- ============================================================================
-- The methods
-- ============================================================================

/-- What the methods call, as programs over the operations `A`; `β` are the callbacks. -/
class Terminal {E : Type} (A : E → Type) (β : outParam Type) where
  symbolSelect : String → Bool → Prog A (Thrown Exc) Bool
  /-- `symbol in self._tasks` -/
  inTasks : String → Prog A (Thrown Exc) Bool
  /-- `self._tasks[symbol] = asyncio.create_task(self._stream(symbol, callback))` -/
  createTask : String → β → Prog A (Thrown Exc) Unit
  /-- `self._tasks.pop(symbol, None)` -/
  popTask : String → Prog A (Thrown Exc) (Option ℕ)
  cancel : ℕ → Prog A (Thrown Exc) Unit
  /-- `asyncio.gather(task, return_exceptions=True)` -/
  gather : ℕ → Prog A (Thrown Exc) Unit
  /-- The loop has started the task, which streams a symbol to a callback. -/
  started : Prog A (Thrown Exc) (String × β)
  /-- The task ends. -/
  finish : Prog A (Thrown Exc) Unit
  /-- Reading `self._connected`. -/
  isConnected : Prog A (Thrown Exc) Bool
  /-- `mt5.copy_ticks_from` for one tick, and the conversions of its row. -/
  copyTicks : String → Prog A (Thrown Exc) (Option TickRow)
  /-- `out = callback(tick)`, and `await out` if it is a coroutine. -/
  callback : β → Tick → Prog A (Thrown Exc) Unit
  sleep : ℚ → Prog A (Thrown Exc) Unit
  /-- Wait for ever. -/
  wait : Prog A (Thrown Exc) Unit

variable {E : Type} {A : E → Type} {β : Type} [Terminal A β]

def subscribeTicks (callback : β) :
    List String → (String → Option Bool) → Prog A (Thrown Exc) (String → Option Bool)
  | [], result => pure result
  | s :: symbols, result => do
      let ok ← Terminal.symbolSelect s true
      if ok then
        if ← Terminal.inTasks s then pure () else Terminal.createTask s callback
      subscribeTicks callback symbols (Function.update result s (some ok))

def unsubscribeTicks : List String → Prog A (Thrown Exc) Unit
  | [] => pure ()
  | s :: symbols => do
      match ← Terminal.popTask s with
      | some task => do
          Terminal.cancel task
          Terminal.gather task
      | none => pure ()
      let _ ← Terminal.symbolSelect s false
      unsubscribeTicks symbols

def stream (symbol : String) (callback : β) : ℕ → Prog A (Thrown Exc) Unit
  | 0 => Terminal.wait
  | rounds + 1 => do
      if ← Terminal.isConnected then
        match ← Terminal.copyTicks symbol with
        | some row => Terminal.callback callback (row.tick symbol)
        | none => pure ()
        Terminal.sleep 1
        stream symbol callback rounds
      else pure ()

/-- A task that runs `_stream`. -/
def streamProg (rounds : ℕ) : Prog A (Thrown Exc) Unit :=
  Prog.andFinally (do
    let job ← Terminal.started
    stream job.1 job.2 rounds) Terminal.finish

-- ============================================================================
-- How far they have come
-- ============================================================================

/-- How far a call of `subscribe_ticks` has come, with what it has found out so far; the other
    calls are idle. -/
inductive Calling (ρ : Type)
  | idle
  | subscribing (found : ρ)
  /-- The terminal has selected the symbol. -/
  | selected (found : ρ) (symbol : String)
  /-- The symbol is not in `_tasks`. -/
  | absent (found : ρ) (symbol : String)

/-- How far a stream has come. -/
inductive StreamStage (β : Type)
  | fresh
  | reading (symbol : String) (callback : β)
  /-- It has got a tick and not called the callback yet. -/
  | holding (symbol : String) (callback : β) (row : TickRow)
  /-- It has raised, or the provider is not connected. -/
  | ended
  | done

/-- An operation that has been answered leads on, and one that raises to `failed`. -/
def Leads {G R : Type} (onward : R → G) (failed : G) : Except (Thrown Exc) R → G → Prop
  | .ok r, g => g = onward r
  | .error _, g => g = failed

variable {ρ : Type}

/-- What the operations of a call do to how far it has come; `record` adds the answer for a
    symbol to what it has found out. -/
structure Calls (D : Discipline A (Thrown Exc) (Calling ρ)) (record : ρ → String → Bool → ρ) :
    Prop where
  select : ∀ found s, (Terminal.symbolSelect s true : Prog A (Thrown Exc) Bool).Obeys D
    (Leads (fun ok => if ok then .selected found s else .subscribing (record found s false)) .idle)
    (.subscribing found)
  present : ∀ found s, (Terminal.inTasks s : Prog A (Thrown Exc) Bool).Obeys D
    (Leads (fun present => if present then .subscribing (record found s true)
      else .absent found s) .idle) (.selected found s)
  create : ∀ found s callback, (Terminal.createTask s callback : Prog A (Thrown Exc) Unit).Obeys D
    (Leads (fun _ => .subscribing (record found s true)) .idle) (.absent found s)
  pop : ∀ s, (Terminal.popTask s : Prog A (Thrown Exc) (Option ℕ)).Obeys D
    (fun _ d => d = .idle) .idle
  cancel : ∀ n, (Terminal.cancel n : Prog A (Thrown Exc) Unit).Obeys D (fun _ d => d = .idle) .idle
  gather : ∀ n, (Terminal.gather n : Prog A (Thrown Exc) Unit).Obeys D (fun _ d => d = .idle) .idle
  deselect : ∀ s, (Terminal.symbolSelect s false : Prog A (Thrown Exc) Bool).Obeys D
    (fun _ d => d = .idle) .idle

/-- What the operations of a stream do to how far it has come. -/
structure Streams (D : Discipline A (Thrown Exc) (StreamStage β)) : Prop where
  started : (Terminal.started : Prog A (Thrown Exc) (String × β)).Obeys D
    (Leads (fun job => .reading job.1 job.2) .ended) .fresh
  isConnected : ∀ s callback, (Terminal.isConnected : Prog A (Thrown Exc) Bool).Obeys D
    (Leads (fun connected => if connected then .reading s callback else .ended) .ended)
    (.reading s callback)
  copyTicks : ∀ s callback, (Terminal.copyTicks s : Prog A (Thrown Exc) (Option TickRow)).Obeys D
    (Leads (fun row => row.elim (.reading s callback) (.holding s callback)) .ended)
    (.reading s callback)
  callback : ∀ s callback row,
    (Terminal.callback callback (row.tick s) : Prog A (Thrown Exc) Unit).Obeys D
      (Leads (fun _ => .reading s callback) .ended) (.holding s callback row)
  sleep : ∀ s callback seconds, (Terminal.sleep seconds : Prog A (Thrown Exc) Unit).Obeys D
    (Leads (fun _ => .reading s callback) .ended) (.reading s callback)
  wait : ∀ s callback, (Terminal.wait : Prog A (Thrown Exc) Unit).Obeys D
    (Leads (fun _ => .ended) .ended) (.reading s callback)
  finish : (Terminal.finish : Prog A (Thrown Exc) Unit).Obeys D (fun _ p => p ≠ .ended) .ended

section

variable {D : Discipline A (Thrown Exc) (Calling ρ)} {record : ρ → String → Bool → ρ}

/-- The symbols are in the result, and so is what was there before. -/
def Covers (result : String → Option Bool) (symbols : List String)
    (result' : String → Option Bool) : Prop :=
  ∀ s, s ∈ symbols ∨ (result s).isSome → (result' s).isSome

/-- What a call returns it has found out: `R` says how. -/
def Found (R : (String → Option Bool) → ρ → Prop) (result : String → Option Bool)
    (symbols : List String) : Except (Thrown Exc) (String → Option Bool) → Calling ρ → Prop
  | .ok result', d => Covers result symbols result' ∧ ∃ found, d = .subscribing found ∧
      R result' found
  | .error _, d => d = .idle

theorem Found.cons {R : (String → Option Bool) → ρ → Prop} {result : String → Option Bool}
    {s : String} {symbols : List String} {ok : Bool}
    {out : Except (Thrown Exc) (String → Option Bool)} {d : Calling ρ}
    (h : Found R (Function.update result s (some ok)) symbols out d) :
    Found R result (s :: symbols) out d := by
  cases out with
  | error x => exact h
  | ok result' =>
      obtain ⟨hcovers, hfound⟩ := h
      refine ⟨fun t ht => hcovers t ?_, hfound⟩
      by_cases hts : t = s
      · subst hts
        rw [Function.update_self]
        exact Or.inr rfl
      · rw [Function.update_of_ne hts]
        exact ht.imp_left fun ht => (List.mem_cons.mp ht).resolve_left hts

theorem Calls.subscribeTicks (hD : Calls D record) {R : (String → Option Bool) → ρ → Prop}
    (hR : ∀ result found s ok, R result found →
      R (Function.update result s (some ok)) (record found s ok))
    {callback : β} (symbols : List String) {result : String → Option Bool} {found : ρ}
    (hfound : R result found) :
    (subscribeTicks callback symbols result : Prog A (Thrown Exc) (String → Option Bool)).Obeys D
      (Found R result symbols) (.subscribing found) := by
  induction symbols generalizing result found with
  | nil => exact ⟨fun s hs => hs.resolve_left List.not_mem_nil, found, rfl, hfound⟩
  | cons s symbols ih =>
      have hrest : ∀ ok, (MarketData.subscribeTicks callback symbols
          (Function.update result s (some ok)) : Prog A (Thrown Exc) _).Obeys D
            (Found R result (s :: symbols)) (.subscribing (record found s ok)) :=
        fun ok => (ih (hR _ _ s ok hfound)).mono fun _ _ h => h.cons
      rw [MarketData.subscribeTicks]
      refine (hD.select found s).seq (fun ok d hd => ?_) fun x d hd => hd
      rw [show d = _ from hd]
      cases ok with
      | false => exact hrest false
      | true =>
          refine (hD.present found s).seq (fun present d hd => ?_) fun x d hd => hd
          rw [show d = _ from hd]
          cases present with
          | true => exact hrest true
          | false =>
              refine (hD.create found s callback).seq (fun _ d hd => ?_) fun x d hd => hd
              rw [show d = _ from hd]
              exact hrest true

theorem Calls.unsubscribeTicks (hD : Calls D record) (symbols : List String) :
    (unsubscribeTicks symbols : Prog A (Thrown Exc) Unit).Obeys D (fun _ d => d = .idle) .idle := by
  induction symbols with
  | nil => rfl
  | cons s symbols ih =>
      have hrest : (do
          let _ ← Terminal.symbolSelect s false
          MarketData.unsubscribeTicks symbols : Prog A (Thrown Exc) Unit).Obeys D
            (fun _ d => d = .idle) .idle := by
        refine (hD.deselect s).seq (fun _ d hd => ?_) fun _ _ hd => hd
        rw [hd]
        exact ih
      rw [MarketData.unsubscribeTicks]
      refine (hD.pop s).seq (fun task d hd => ?_) fun _ _ hd => hd
      rw [hd]
      cases task with
      | none => exact hrest
      | some n =>
          refine (hD.cancel n).seq (fun _ d hd => ?_) fun _ _ hd => hd
          rw [hd]
          refine (hD.gather n).seq (fun _ d hd => ?_) fun _ _ hd => hd
          rw [hd]
          exact hrest

end

section

variable {D : Discipline A (Thrown Exc) (StreamStage β)}

theorem Streams.stream (hD : Streams D) {s : String} {callback : β} (rounds : ℕ) :
    (stream s callback rounds : Prog A (Thrown Exc) Unit).Obeys D (fun _ p => p = .ended)
      (.reading s callback) := by
  induction rounds with
  | zero =>
      refine (hD.wait s callback).mono fun out p hp => ?_
      cases out with
      | ok _ => exact hp
      | error x => exact hp
  | succ rounds ih =>
      have hsleep : (do
          Terminal.sleep 1
          MarketData.stream s callback rounds : Prog A (Thrown Exc) Unit).Obeys D
            (fun _ p => p = .ended) (.reading s callback) := by
        refine (hD.sleep s callback 1).seq (fun _ p hp => ?_) fun _ _ hp => hp
        rw [show p = _ from hp]
        exact ih
      rw [MarketData.stream]
      refine (hD.isConnected s callback).seq (fun connected p hp => ?_) fun _ _ hp => hp
      rw [show p = _ from hp]
      cases connected with
      | false => rfl
      | true =>
          refine (hD.copyTicks s callback).seq (fun row p hp => ?_) fun _ _ hp => hp
          rw [show p = _ from hp]
          cases row with
          | none => exact hsleep
          | some row =>
              refine (hD.callback s callback row).seq (fun _ p hp => ?_) fun _ _ hp => hp
              rw [show p = _ from hp]
              exact hsleep

theorem Streams.streamProg (hD : Streams D) (rounds : ℕ) :
    (streamProg rounds : Prog A (Thrown Exc) Unit).Obeys D (fun _ p => p ≠ .ended) .fresh := by
  have hbody : (do
      let job ← Terminal.started
      MarketData.stream job.1 job.2 rounds : Prog A (Thrown Exc) Unit).Obeys D
        (fun _ p => p = .ended) .fresh := by
    refine hD.started.seq (fun job p hp => ?_) fun _ _ hp => hp
    rw [show p = _ from hp]
    exact hD.stream rounds
  unfold MarketData.streamProg
  refine Prog.obeys_andFinally (hbody.mono ?_)
  rintro out _ rfl
  refine hD.finish.mono fun a p hp => ?_
  cases a with
  | ok _ => exact hp
  | error x => exact hp

end

end Mtrader.MarketData
