/-
  Mtrader.MarketData.Stages

  How far the calls on a provider and its streams have come, and what they do to it.

  A call of `subscribe_ticks` does not give up the loop before it returns, and a stream that
  has raised or has found the provider unconnected does not before it is finished.
-/

import Mtrader.MarketData.Lifecycle
import Mtrader.MarketData.TaskRecords

namespace Mtrader.MarketData.Lifecycle

open Coroutine Py

variable {κ β : Type} {w w' : SessionWorld β} {e : SessionOp β}
variable {a : Except (Thrown Exc) e.Ans}

-- ============================================================================
-- Calls
-- ============================================================================

/-- How far a call of `subscribe_ticks` has come, with the result so far. -/
abbrev Doing : Type := Calling (String → Option Bool)

def Doing.next (starts : Bool) (d : Doing) (e : SessionOp β) (a : Except (Thrown Exc) e.Ans) :
    Doing :=
  match e, a, d with
  | .begin, .ok _, _ => if starts then .subscribing fun _ => none else .idle
  | .symbolSelect s true, .ok true, .subscribing result => .selected result s
  | .symbolSelect s true, .ok false, .subscribing result =>
      .subscribing (Function.update result s (some false))
  | .inTasks _, .ok true, .selected result s =>
      .subscribing (Function.update result s (some true))
  | .inTasks _, .ok false, .selected result s => .absent result s
  | .createTask .., .ok _, .absent result s =>
      .subscribing (Function.update result s (some true))
  | .returned _, _, _ => .idle
  | _, .error _, _ => .idle
  | _, .ok _, d => d

/-- The operations of a call; one of `subscribe_ticks` starts with nothing. -/
def doingFlow (starts : Bool) : Discipline (SessionAns β) (Thrown Exc) Doing where
  may d e := match e with
    | .symbolSelect _ true => ∃ result, d = .subscribing result
    | .inTasks s => ∃ result, d = .selected result s
    | .createTask s _ => ∃ result, d = .absent result s
    | .returned result => d = .subscribing result ∨ d = .idle ∧ ∀ s, result s = none
    | .start => False
    | .finish => False
    | .copyTicks _ => False
    | .invoke .. => False
    | .awaitOut => False
    | .sleep _ => False
    | .wait => False
    | _ => d = .idle
  next := Doing.next starts

variable {starts : Bool} {d : Doing}

theorem suspends_of_doing (hmay : (doingFlow starts).may d e) (hbusy : d ≠ .idle) :
    e.suspends = false := by
  cases e with
  | begin => exact absurd hmay hbusy
  | gather n => exact absurd hmay hbusy
  | start => cases hmay
  | awaitOut => cases hmay
  | sleep seconds => cases hmay
  | wait => cases hmay
  | _ => rfl

theorem doingFlow_calls : Calls (doingFlow (β := β) starts)
    (fun result s ok => Function.update result s (some ok)) where
  select found s := by
    refine Prog.obeys_op.mpr ⟨⟨found, rfl⟩, fun out => ?_⟩
    cases out with
    | ok ok => cases ok <;> rfl
    | error x => rfl
  present found s := by
    refine Prog.obeys_op.mpr ⟨⟨found, rfl⟩, fun out => ?_⟩
    cases out with
    | ok present => cases present <;> rfl
    | error x => rfl
  create found s callback := by
    refine Prog.obeys_op.mpr ⟨⟨found, rfl⟩, fun out => ?_⟩
    cases out with
    | ok _ => rfl
    | error x => rfl
  pop s := Prog.obeys_op.mpr ⟨rfl, fun out => by cases out <;> rfl⟩
  cancel n := Prog.obeys_op.mpr ⟨rfl, fun out => by cases out <;> rfl⟩
  gather n := Prog.obeys_op.mpr ⟨rfl, fun out => by cases out <;> rfl⟩
  deselect s := by
    refine Prog.obeys_op.mpr ⟨rfl, fun out => ?_⟩
    cases out with
    | ok ok => cases ok <;> rfl
    | error x => rfl

theorem subscribeTicks_obeys {callback : β} (symbols : List String)
    (result : String → Option Bool) :
    (subscribeTicks callback symbols result : SessionM β _).Obeys (doingFlow starts)
      (fun out d => match out with
        | .ok result' => d = .subscribing result'
        | .error _ => d = .idle) (.subscribing result) := by
  refine (doingFlow_calls.subscribeTicks (R := Eq) (fun _ _ _ _ h => by rw [h]) symbols
    rfl).mono fun out d hd => ?_
  cases out with
  | error x => exact hd
  | ok result' =>
      obtain ⟨-, found, rfl, hfound⟩ := hd
      rw [hfound]

theorem unsubscribeTicks_obeys (symbols : List String) :
    (unsubscribeTicks symbols : SessionM β Unit).Obeys (doingFlow starts)
      (fun _ d => d = .idle) .idle := doingFlow_calls.unsubscribeTicks symbols

theorem connect_obeys (self : MT5Provider) :
    (self.connect : SessionM β Bool).Obeys (doingFlow starts) (fun _ d => d = .idle)
      .idle := by
  unfold MT5Provider.connect
  split
  next => rfl
  next =>
    refine Prog.obeys_op_bind.mpr ⟨rfl, fun ok => ?_, fun _ => rfl⟩
    cases ok with
    | false => rfl
    | true =>
        refine Prog.obeys_op_bind.mpr ⟨rfl, fun connected => ?_, fun _ => rfl⟩
        refine Prog.obeys_op_bind.mpr ⟨rfl, fun _ => ?_, fun _ => rfl⟩
        refine Prog.obeys_op.mpr ⟨rfl, fun out => ?_⟩
        cases out with
        | ok connected => rfl
        | error x => rfl

theorem cancelAll_obeys (entries : List (String × ℕ)) (left : ℕ) :
    (MT5Provider.cancelAll entries left : SessionM β Unit).Obeys (doingFlow starts)
      (fun _ d => d = .idle) .idle := by
  induction left with
  | zero => exact Prog.obeys_op_bind.mpr ⟨rfl, fun _ => rfl, fun _ => rfl⟩
  | succ left ih =>
      rw [MT5Provider.cancelAll]
      refine Prog.obeys_op_bind.mpr ⟨rfl, fun task => ?_, fun _ => rfl⟩
      cases task with
      | none => rfl
      | some n =>
          refine Prog.obeys_op_bind.mpr ⟨rfl, fun _ => ?_, fun _ => rfl⟩
          exact Prog.obeys_op_bind.mpr ⟨rfl, fun _ => ih, fun _ => rfl⟩

theorem disconnect_obeys (self : MT5Provider) :
    (self.disconnect : SessionM β Unit).Obeys (doingFlow starts) (fun _ d => d = .idle)
      .idle := by
  have hunset : (session (.setConnected false) : SessionM β Unit).Obeys (doingFlow starts)
      (fun _ d => d = .idle) .idle := by
    refine Prog.obeys_op.mpr ⟨rfl, fun out => ?_⟩
    cases out with
    | ok _ => rfl
    | error x => rfl
  unfold MT5Provider.disconnect
  refine Prog.obeys_op_bind.mpr ⟨rfl, fun entries => ?_, fun _ => rfl⟩
  refine (cancelAll_obeys entries _).seq ?_ fun _ _ hd => hd
  rintro _ _ rfl
  refine Prog.obeys_op_bind.mpr ⟨rfl, fun _ => ?_, fun _ => rfl⟩
  split
  next => exact Prog.obeys_op_bind.mpr ⟨rfl, fun _ => hunset, fun _ => rfl⟩
  next => exact hunset

def SessionCall.subscribes : SessionCall β → Bool
  | .subscribe .. => true
  | _ => false

/-- What a call returns is what it has found out. -/
def Doing.Returns (d : Doing) (result : String → Option Bool) : Prop :=
  d = .subscribing result ∨ d = .idle ∧ ∀ s, result s = none

theorem body_obeys (self : MT5Provider) (call : SessionCall β) :
    (call.body self).Obeys (doingFlow starts)
      (fun out d => match out with
        | .ok result => d.Returns result
        | .error _ => d = .idle)
      (if call.subscribes then .subscribing fun _ => none else .idle) := by
  cases call with
  | subscribe symbols callback =>
      refine (subscribeTicks_obeys symbols _).mono fun out d hd => ?_
      cases out with
      | ok result => exact .inl hd
      | error x => exact hd
  | connect =>
      refine (connect_obeys self).seq (fun _ d hd => ?_) fun _ _ hd => hd
      exact Or.inr ⟨hd, fun _ => rfl⟩
  | disconnect =>
      refine (disconnect_obeys self).seq (fun _ d hd => ?_) fun _ _ hd => hd
      exact Or.inr ⟨hd, fun _ => rfl⟩
  | unsubscribe symbols =>
      refine (unsubscribeTicks_obeys symbols).seq (fun _ d hd => ?_) fun _ _ hd => hd
      exact Or.inr ⟨hd, fun _ => rfl⟩

/-- In the end a call is not in the middle of a subscription. -/
theorem call_obeys (self : MT5Provider) (call : SessionCall β) :
    (call.prog self).Obeys (doingFlow call.subscribes) (fun _ d => d = .idle) .idle := by
  unfold SessionCall.prog
  refine Prog.obeys_op_bind.mpr ⟨rfl, fun _ => ?_, fun _ => rfl⟩
  refine (body_obeys self call).seq (fun result d hd => ?_) fun _ _ hd => hd
  refine Prog.obeys_op.mpr ⟨hd, fun out => ?_⟩
  cases out with
  | ok _ => rfl
  | error x => rfl

-- ============================================================================
-- Streams
-- ============================================================================

abbrev Streaming (β : Type) : Type := StreamStage β

def Streaming.next (p : Streaming β) (e : SessionOp β) (a : Except (Thrown Exc) e.Ans) :
    Streaming β :=
  match e, a, p with
  | .start, .ok (s, callback), _ => .reading s callback
  | .isConnected, .ok false, _ => .ended
  | .copyTicks _, .ok (some row), .reading s callback => .holding s callback row
  | .invoke .., .ok _, .holding s callback _ => .reading s callback
  | .wait, _, _ => .ended
  | .finish, _, _ => .done
  | _, .error _, _ => .ended
  | _, .ok _, p => p

def streamingFlow : Discipline (SessionAns β) (Thrown Exc) (Streaming β) where
  may p e := match e with
    | .start => p = .fresh
    | .isConnected => ∃ s callback, p = .reading s callback
    | .copyTicks s => ∃ callback, p = .reading s callback
    | .invoke callback tick => ∃ s row, p = .holding s callback row ∧ tick = row.tick s
    | .awaitOut => ∃ s callback, p = .reading s callback
    | .sleep _ => ∃ s callback, p = .reading s callback
    | .wait => ∃ s callback, p = .reading s callback
    | .finish => p = .ended
    | _ => False
  next := Streaming.next

theorem suspends_of_ended {e : SessionOp β} (hmay : streamingFlow.may .ended e) :
    e.suspends = false := by
  cases e with
  | start => cases hmay
  | awaitOut => exact hmay.elim fun _ h => h.elim nofun
  | sleep seconds => exact hmay.elim fun _ h => h.elim nofun
  | wait => exact hmay.elim fun _ h => h.elim nofun
  | begin => cases hmay
  | gather n => cases hmay
  | _ => rfl

/-- A stream that has got a tick calls the callback with it. -/
theorem may_holding {s : String} {callback : β} {row : TickRow} {e : SessionOp β}
    (hmay : streamingFlow.may (.holding s callback row) e) :
    e = .invoke callback (row.tick s) := by
  cases e with
  | invoke callback' tick =>
      obtain ⟨s', row', heq, rfl⟩ := hmay
      cases heq
      rfl
  | isConnected => exact hmay.elim fun _ h => h.elim nofun
  | copyTicks s => exact hmay.elim nofun
  | awaitOut => exact hmay.elim fun _ h => h.elim nofun
  | sleep seconds => exact hmay.elim fun _ h => h.elim nofun
  | wait => exact hmay.elim fun _ h => h.elim nofun
  | _ => cases hmay

theorem streamingFlow_streams : Streams (streamingFlow (β := β)) where
  started := Prog.obeys_op.mpr ⟨rfl, fun out => by cases out <;> rfl⟩
  isConnected s callback := by
    refine Prog.obeys_op.mpr ⟨⟨s, callback, rfl⟩, fun out => ?_⟩
    cases out with
    | ok connected => cases connected <;> rfl
    | error x => rfl
  copyTicks s callback := by
    refine Prog.obeys_op.mpr ⟨⟨callback, rfl⟩, fun out => ?_⟩
    cases out with
    | ok row => cases row <;> rfl
    | error x => rfl
  callback s callback row := by
    refine Prog.obeys_op_bind.mpr ⟨⟨s, row, rfl, rfl⟩, fun coroutine => ?_, fun _ => rfl⟩
    cases coroutine with
    | false => rfl
    | true => exact Prog.obeys_op.mpr ⟨⟨s, callback, rfl⟩, fun out => by cases out <;> rfl⟩
  sleep s callback seconds :=
    Prog.obeys_op.mpr ⟨⟨s, callback, rfl⟩, fun out => by cases out <;> rfl⟩
  wait s callback := Prog.obeys_op.mpr ⟨⟨s, callback, rfl⟩, fun out => by cases out <;> rfl⟩
  finish := by
    refine Prog.obeys_op.mpr ⟨rfl, fun out => ?_⟩
    cases out with
    | ok _ => exact nofun
    | error x => exact nofun

theorem streamProg_obeys (rounds : ℕ) :
    (streamProg rounds : SessionM β Unit).Obeys streamingFlow (fun _ p => p ≠ .ended)
      .fresh := streamingFlow_streams.streamProg rounds

-- ============================================================================
-- Moves of calls
-- ============================================================================

/-- What an operation of a call does to it and to the provider. -/
inductive ClientMove (w : SessionWorld β) :
    Doing → SessionOp β → Doing → SessionWorld β → Prop
  | idle {d : Doing} {e : SessionOp β} : ClientMove w d e .idle w
  | start {e : SessionOp β} : ClientMove w .idle e (.subscribing fun _ => none) w
  | select {result : String → Option Bool} {s : String} {e : SessionOp β} :
      ClientMove w (.subscribing result) e (.selected result s) w
  | refuse {result : String → Option Bool} {s : String} {e : SessionOp β} :
      ClientMove w (.subscribing result) e (.subscribing (Function.update result s (some false))) w
  | present {result : String → Option Bool} {s : String} : (w.taskOf s).isSome →
      ClientMove w (.selected result s) (.inTasks s)
        (.subscribing (Function.update result s (some true))) w
  | absent {result : String → Option Bool} {s : String} {e : SessionOp β} :
      ClientMove w (.selected result s) e (.absent result s) w
  | create {result : String → Option Bool} {s : String} {callback : β} {e : SessionOp β} :
      ClientMove w (.absent result s) e (.subscribing (Function.update result s (some true)))
        (w.createTask s callback)
  | connected {connected : Bool} {e : SessionOp β} :
      ClientMove w .idle e .idle { w with connected := connected }
  | clear {e : SessionOp β} : ClientMove w .idle e .idle { w with tasks := [] }
  | pop {s : String} {e : SessionOp β} : ClientMove w .idle e .idle (w.popTask s)
  | cancel {n : ℕ} {e : SessionOp β} :
      ClientMove w .idle e .idle { w with loop := w.loop.cancel n }

variable {i : κ}

theorem clientMove_of_may (hmay : (doingFlow starts).may d e)
    (henv : sessionEnv (.client i) w e a w') : ClientMove w d e (d.next starts e a) w' := by
  unfold sessionEnv at henv
  rw [show w.loop.interrupts (.client i) = false from rfl, Bool.and_false] at henv
  cases e with
  | begin =>
      obtain rfl : d = .idle := hmay
      obtain ⟨rfl, rfl⟩ := henv
      cases starts with
      | true => exact .start
      | false => exact .idle
  | returned result =>
      obtain ⟨rfl, rfl⟩ := henv
      exact .idle
  | symbolSelect s enable =>
      obtain ⟨⟨ok, rfl⟩ | ⟨x, rfl⟩, rfl⟩ := henv
      · cases enable with
        | true =>
            obtain ⟨result, rfl⟩ := hmay
            cases ok with
            | true => exact .select
            | false => exact .refuse
        | false =>
            obtain rfl : d = .idle := hmay
            cases ok with
            | true => exact .idle
            | false => exact .idle
      · cases enable with
        | true => exact .idle
        | false => exact .idle
  | inTasks s =>
      obtain ⟨result, rfl⟩ := hmay
      obtain ⟨ha, rfl⟩ := henv
      rw [ha]
      cases hpresent : (w'.taskOf s).isSome with
      | true => exact .present hpresent
      | false => exact .absent
  | createTask s callback =>
      obtain ⟨result, rfl⟩ := hmay
      obtain ⟨rfl, rfl⟩ := henv
      exact .create
  | initializeMt5 path =>
      obtain rfl : d = .idle := hmay
      obtain ⟨⟨ok, rfl⟩ | ⟨x, rfl⟩, rfl⟩ := henv
      · exact .idle
      · exact .idle
  | login account password server =>
      obtain rfl : d = .idle := hmay
      obtain ⟨⟨ok, rfl⟩ | ⟨x, rfl⟩, rfl⟩ := henv
      · exact .idle
      · exact .idle
  | shutdown =>
      obtain rfl : d = .idle := hmay
      obtain ⟨⟨ok, rfl⟩ | ⟨x, rfl⟩, rfl⟩ := henv
      · exact .idle
      · exact .idle
  | isConnected =>
      obtain rfl : d = .idle := hmay
      obtain ⟨rfl, rfl⟩ := henv
      exact .idle
  | setConnected connected =>
      obtain rfl : d = .idle := hmay
      obtain ⟨rfl, rfl⟩ := henv
      exact .connected
  | values =>
      obtain rfl : d = .idle := hmay
      obtain ⟨rfl, rfl⟩ := henv
      exact .idle
  | nextValue entries position =>
      obtain rfl : d = .idle := hmay
      obtain ⟨-, rfl⟩ := henv
      cases a with
      | ok task => exact .idle
      | error x => exact .idle
  | clear =>
      obtain rfl : d = .idle := hmay
      obtain ⟨rfl, rfl⟩ := henv
      exact .clear
  | popTask s =>
      obtain rfl : d = .idle := hmay
      obtain ⟨ha, rfl⟩ := henv
      rw [ha]
      exact .pop
  | cancel n =>
      obtain rfl : d = .idle := hmay
      obtain ⟨rfl, rfl⟩ := henv
      exact .cancel
  | gather n =>
      obtain rfl : d = .idle := hmay
      obtain ⟨⟨-, rfl⟩ | rfl, rfl⟩ := henv
      · exact .idle
      · exact .idle
  | _ => cases hmay

-- ============================================================================
-- Moves of streams
-- ============================================================================

/-- What an operation of stream `n` does to its stage and to the provider. -/
inductive StreamMove (n : ℕ) (w : SessionWorld β) :
    Streaming β → (e : SessionOp β) → Except (Thrown Exc) e.Ans → Streaming β →
      SessionWorld β → Prop
  /-- A cancellation has reached it, which ends it unless the callback takes it. -/
  | interrupt {p p' : Streaming β} {e : SessionOp β} {a : Except (Thrown Exc) e.Ans} :
      p ≠ .done → p' ≠ .done → n < w.loop.created → w.loop.cancelling n →
      (∀ job, p'.of = some job → p.of = some job) →
      StreamMove n w p e a p' { w with loop := w.loop.deliver n }
  | start {s : String} {callback : β} {e : SessionOp β} {a : Except (Thrown Exc) e.Ans} :
      w.streams n = some (s, callback) → StreamMove n w .fresh e a (.reading s callback) w
  | stay {s : String} {callback : β} {e : SessionOp β} {a : Except (Thrown Exc) e.Ans} :
      StreamMove n w (.reading s callback) e a (.reading s callback) w
  | hold {s : String} {callback : β} {row : TickRow} {e : SessionOp β}
      {a : Except (Thrown Exc) e.Ans} :
      StreamMove n w (.reading s callback) e a (.holding s callback row) w
  | pass {s : String} {callback : β} {row : TickRow} {e : SessionOp β}
      {a : Except (Thrown Exc) e.Ans} :
      StreamMove n w (.holding s callback row) e a (.reading s callback) w
  /-- The terminal or the callback raises. -/
  | raise {p : Streaming β} {e : SessionOp β} {x : Thrown Exc} : p ≠ .done → p ≠ .fresh →
      StreamMove n w p e (.error x) .ended w
  | disconnected {s : String} {callback : β} {a : Except (Thrown Exc) Bool} :
      w.connected = false → StreamMove n w (.reading s callback) .isConnected a .ended w
  | finish {e : SessionOp β} {a : Except (Thrown Exc) e.Ans} :
      StreamMove n w .ended e a .done { w with loop := w.loop.finish n }

variable {n : ℕ} {p : Streaming β}

/-- A stream that is cancelled where it waits. -/
theorem streamMove_of_interrupt (hmay : streamingFlow.may p e) (hsuspends : e.suspends)
    (hinterrupts : w.loop.interrupts (.task n : Actor κ))
    (ha : a = .error .cancelled ∨ e = .awaitOut) :
    StreamMove n w p e a (p.next e a) { w with loop := w.loop.deliver n } := by
  have hcreated := Tasks.lt_of_interrupts hinterrupts
  have hcancelling := (Bool.and_eq_true_iff.mp hinterrupts).2
  cases e with
  | start =>
      obtain rfl : p = .fresh := hmay
      obtain rfl : a = .error .cancelled := ha.resolve_right nofun
      exact .interrupt nofun nofun hcreated hcancelling nofun
  | awaitOut =>
      obtain ⟨s, callback, rfl⟩ := hmay
      cases a with
      | ok _ => exact .interrupt nofun nofun hcreated hcancelling fun _ h => h
      | error x => exact .interrupt nofun nofun hcreated hcancelling nofun
  | sleep seconds =>
      obtain ⟨s, callback, rfl⟩ := hmay
      obtain rfl : a = .error .cancelled := ha.resolve_right nofun
      exact .interrupt nofun nofun hcreated hcancelling nofun
  | wait =>
      obtain ⟨s, callback, rfl⟩ := hmay
      exact .interrupt nofun nofun hcreated hcancelling nofun
  | isConnected => cases hsuspends
  | copyTicks s => cases hsuspends
  | invoke callback tick => cases hsuspends
  | finish => cases hsuspends
  | _ => cases hmay

theorem streamMove_of_reply (hmay : streamingFlow.may p e)
    (henv : sessionReply (.task n : Actor κ) w e a w') :
    StreamMove n w p e a (p.next e a) w' := by
  cases e with
  | start =>
      obtain rfl : p = .fresh := hmay
      obtain ⟨m, job, hm, hjob, rfl, rfl⟩ := henv
      cases hm
      exact .start hjob
  | isConnected =>
      obtain ⟨s, callback, rfl⟩ := hmay
      obtain ⟨ha, rfl⟩ := henv
      rw [ha]
      cases hconnected : w'.connected with
      | true => exact .stay
      | false => exact .disconnected hconnected
  | copyTicks s =>
      obtain ⟨callback, rfl⟩ := hmay
      obtain ⟨⟨row, rfl⟩ | ⟨x, rfl⟩, rfl⟩ := henv
      · cases row with
        | none => exact .stay
        | some row => exact .hold
      · exact .raise nofun nofun
  | invoke callback tick =>
      obtain ⟨s, row, rfl, rfl⟩ := hmay
      obtain rfl := henv
      cases a with
      | ok coroutine => exact .pass
      | error x => exact .raise nofun nofun
  | awaitOut =>
      obtain ⟨s, callback, rfl⟩ := hmay
      obtain rfl := henv
      cases a with
      | ok _ => exact .stay
      | error x => exact .raise nofun nofun
  | sleep seconds =>
      obtain ⟨s, callback, rfl⟩ := hmay
      obtain ⟨rfl, rfl⟩ := henv
      exact .stay
  | finish =>
      obtain rfl : p = .ended := hmay
      obtain ⟨rfl, rfl⟩ := henv
      exact .finish
  | wait => cases henv
  | _ => cases hmay

theorem streamMove_of_may (hmay : streamingFlow.may p e)
    (henv : sessionEnv (.task n : Actor κ) w e a w') : StreamMove n w p e a (p.next e a) w' := by
  unfold sessionEnv at henv
  split at henv
  next hinterrupted =>
    obtain ⟨hsuspends, hinterrupts⟩ := Bool.and_eq_true_iff.mp hinterrupted
    obtain ⟨ha, rfl⟩ := henv
    exact streamMove_of_interrupt hmay hsuspends hinterrupts ha
  next => exact streamMove_of_reply hmay henv

end Mtrader.MarketData.Lifecycle
