/-
  Mtrader.MarketData.Streaming

  How the connections to a provider and its streams go on.

  `subscriptions` is what a connection has subscribed to.  `Doing` is how far a call of
  `subscribe_ticks` has come, and `Streaming` how far a stream has; both hold the loop in
  the stages in which somebody relies on what they have seen.
-/

import Mtrader.MarketData.Provider

namespace Mtrader.MarketData

open Coroutine Py

variable {κ : Type}

-- ============================================================================
-- Subscriptions
-- ============================================================================

/-- A message that unsubscribes takes effect when it is received; a connection that has
    ended is subscribed to nothing. -/
def liveNext (live : List String) (e : ProviderOp κ) (a : Except (Thrown Exc) e.Ans) :
    List String :=
  match e, a with
  | .receiveJson, .ok (.message msg) =>
      if msg.action = some "unsubscribe" then live.filter fun s => s ∉ msg.symbols else live
  | .receiveJson, .ok .disconnected => []
  | .extend symbols, .ok _ => live ++ symbols
  | _, .error _ => []
  | _, .ok _ => live

def liveFlow : Discipline (ProviderAns κ) (Thrown Exc) (List String) where
  may _ _ := True
  next := liveNext

-- ============================================================================
-- Connections
-- ============================================================================

/-- How far a call of `subscribe_ticks` has come, with the symbols it is done with. -/
abbrev Doing : Type := Calling (List String)

def Doing.next (d : Doing) (e : ProviderOp κ) (a : Except (Thrown Exc) e.Ans) : Doing :=
  match e, a, d with
  | .request, .ok _, _ => .subscribing []
  | .receiveJson, .ok (.message msg), _ =>
      if msg.action = some "subscribe" then .subscribing [] else .idle
  | .symbolSelect s true, .ok true, .subscribing done => .selected done s
  | .symbolSelect s true, .ok false, .subscribing done => .subscribing (s :: done)
  | .inTasks _, .ok true, .selected done s => .subscribing (s :: done)
  | .inTasks _, .ok false, .selected done s => .absent done s
  | .createTask .., .ok _, .absent done s => .subscribing (s :: done)
  | .extend _, _, _ => .idle
  | .respond _, _, _ => .idle
  | _, .error _, _ => .idle
  | _, .ok _, d => d

/-- The operations of a connection (`socket`) or a request. -/
def doingFlow (socket : Bool) : Discipline (ProviderAns κ) (Thrown Exc) Doing where
  may d e := match e with
    | .accept => d = .idle
    | .request => d = .idle
    | .receiveJson => d = .idle
    | .symbolSelect _ true => ∃ done, d = .subscribing done
    | .symbolSelect _ false => d = .idle
    | .inTasks s => ∃ done, d = .selected done s
    | .createTask s _ => ∃ done, d = .absent done s
    | .extend symbols => socket ∧ ∃ done, d = .subscribing done ∧ symbols ⊆ done
    | .respond _ => ∃ done, d = .subscribing done
    | .popTask _ => d = .idle
    | .cancel _ => d = .idle
    | .gather _ => d = .idle
    | _ => False
  next := Doing.next

variable {socket : Bool}

/-- A call of `subscribe_ticks` does not give up the loop. -/
theorem suspends_of_doing {d : Doing} {e : ProviderOp κ} (hmay : (doingFlow socket).may d e)
    (hbusy : d ≠ .idle) : e.suspends = false := by
  cases e with
  | begin => cases hmay
  | accept => exact absurd hmay hbusy
  | receiveJson => exact absurd hmay hbusy
  | request => exact absurd hmay hbusy
  | gather n => exact absurd hmay hbusy
  | sendJson fields => cases hmay
  | sleep seconds => cases hmay
  | wait => cases hmay
  | _ => rfl

theorem doingFlow_calls :
    Calls (doingFlow (κ := κ) socket) (fun done s _ => s :: done) where
  select found s := by
    refine Prog.obeys_op.mpr ⟨⟨found, rfl⟩, fun out => ?_⟩
    cases out with
    | ok ok => cases ok <;> rfl
    | error x => rfl
  present found s := by
    refine Prog.obeys_op.mpr ⟨⟨found, rfl⟩, fun out => ?_⟩
    cases out with
    | ok present => cases present <;> rfl
    | error x => rfl
  create found s callback := by
    refine Prog.obeys_op.mpr ⟨⟨found, rfl⟩, fun out => ?_⟩
    cases out with
    | ok _ => rfl
    | error x => rfl
  pop s := Prog.obeys_op.mpr ⟨rfl, fun out => by cases out <;> rfl⟩
  cancel n := Prog.obeys_op.mpr ⟨rfl, fun out => by cases out <;> rfl⟩
  gather n := Prog.obeys_op.mpr ⟨rfl, fun out => by cases out <;> rfl⟩
  deselect s := by
    refine Prog.obeys_op.mpr ⟨rfl, fun out => ?_⟩
    cases out with
    | ok ok => cases ok <;> rfl
    | error x => rfl

/-- A call is done with the symbols in its result. -/
def DoneWith (result : String → Option Bool) (done : List String) : Prop :=
  ∀ s, (result s).isSome → s ∈ done

theorem DoneWith.update {result : String → Option Bool} {done : List String} {s : String}
    {ok : Bool} (h : DoneWith result done) :
    DoneWith (Function.update result s (some ok)) (s :: done) := by
  intro t ht
  by_cases hts : t = s
  · exact hts ▸ List.mem_cons_self
  · rw [Function.update_of_ne hts] at ht
    exact List.mem_cons_of_mem _ (h t ht)

theorem subscribeTicks_obeys {callback : Callback κ} (symbols : List String) :
    (subscribeTicks callback symbols fun _ => none).Obeys (doingFlow socket)
      (fun out d => match out with
        | .ok _ => ∃ done, d = .subscribing done ∧ symbols ⊆ done
        | .error _ => d = .idle) (.subscribing []) := by
  have hnone : DoneWith (fun _ => none) [] := by
    intro s hs
    cases hs
  refine (doingFlow_calls.subscribeTicks (fun _ _ _ _ h => h.update) symbols hnone).mono
    fun out d hd => ?_
  cases out with
  | error x => exact hd
  | ok result =>
      obtain ⟨hcovers, done, rfl, hdone⟩ := hd
      exact ⟨done, rfl, fun s hs => hdone s (hcovers s (.inl hs))⟩

theorem unsubscribeTicks_obeys (symbols : List String) :
    (unsubscribeTicks symbols : ProviderM κ Unit).Obeys (doingFlow socket)
      (fun _ d => d = .idle) .idle := doingFlow_calls.unsubscribeTicks symbols

theorem receiveTicks_obeys {i : κ} (rounds : ℕ) {active : List String} :
    (receiveTicks i rounds active).Obeys (doingFlow true) (fun _ d => d = .idle) .idle := by
  induction rounds generalizing active with
  | zero => rfl
  | succ rounds ih =>
      rw [receiveTicks]
      refine Prog.obeys_op_bind.mpr ⟨rfl, fun received => ?_, fun _ => rfl⟩
      cases received with
      | disconnected =>
          show Prog.Obeys _ _ _ Calling.idle
          dsimp only
          split
          next => exact unsubscribeTicks_obeys active
          next => rfl
      | message msg =>
          show Prog.Obeys _ _ _
            (if msg.action = some "subscribe" then Calling.subscribing [] else _)
          dsimp only
          split
          next =>
            refine (subscribeTicks_obeys msg.symbols).seq ?_ fun _ _ hd => hd
            rintro result _ ⟨done, rfl, hsymbols⟩
            exact Prog.obeys_op_bind.mpr ⟨⟨rfl, done, rfl, hsymbols⟩, fun _ => ih, fun _ => rfl⟩
          next =>
            split
            next =>
              refine (unsubscribeTicks_obeys msg.symbols).seq ?_ fun _ _ hd => hd
              rintro _ _ rfl
              exact ih
            next => exact ih

/-- In the end a connection is not in the middle of a subscription. -/
theorem providerCall_obeys (i : κ) (call : ProviderCall) :
    (call.prog i).Obeys (doingFlow call.isSocket) (fun _ d => d = .idle) .idle := by
  cases call with
  | ticks rounds =>
      exact Prog.obeys_op_bind.mpr ⟨rfl, fun _ => receiveTicks_obeys rounds, fun _ => rfl⟩
  | post symbols =>
      refine Prog.obeys_op_bind.mpr ⟨rfl, fun _ => ?_, fun _ => rfl⟩
      refine (subscribeTicks_obeys symbols).seq ?_ fun _ _ hd => hd
      rintro result _ ⟨done, rfl, -⟩
      exact Prog.obeys_op.mpr ⟨⟨done, rfl⟩, fun _ => rfl⟩

-- ============================================================================
-- Streams
-- ============================================================================

abbrev Streaming (κ : Type) : Type := StreamStage (Callback κ)

def Streaming.next (p : Streaming κ) (e : ProviderOp κ) (a : Except (Thrown Exc) e.Ans) :
    Streaming κ :=
  match e, a, p with
  | .begin, .ok (s, callback), _ => .reading s callback
  | .isConnected, .ok false, _ => .ended
  | .copyTicks _, .ok (some row), .reading s callback => .holding s callback row
  | .call .ignore _, .ok _, .holding s callback _ => .reading s callback
  -- The callback of a connection raises.
  | .call (.send _) _, _, _ => .ended
  | .wait, _, _ => .ended
  | .finish, _, _ => .done
  | _, .error _, _ => .ended
  | _, .ok _, p => p

def streamingFlow : Discipline (ProviderAns κ) (Thrown Exc) (Streaming κ) where
  may p e := match e with
    | .begin => p = .fresh
    | .isConnected => ∃ s callback, p = .reading s callback
    | .copyTicks s => ∃ callback, p = .reading s callback
    | .call callback tick => ∃ s row, p = .holding s callback row ∧ tick = row.tick s
    | .sleep _ => ∃ s callback, p = .reading s callback
    | .wait => ∃ s callback, p = .reading s callback
    | .finish => p = .ended
    | _ => False
  next := Streaming.next

theorem suspends_of_ended {e : ProviderOp κ} (hmay : streamingFlow.may .ended e) :
    e.suspends = false := by
  cases e with
  | finish => rfl
  | begin => cases hmay
  | sleep seconds => exact hmay.elim fun _ h => h.elim nofun
  | wait => exact hmay.elim fun _ h => h.elim nofun
  | isConnected => rfl
  | copyTicks s => rfl
  | call callback tick => rfl
  | _ => cases hmay

/-- A stream that has got a tick calls the callback with it. -/
theorem may_holding {s : String} {callback : Callback κ} {row : TickRow} {e : ProviderOp κ}
    (hmay : streamingFlow.may (.holding s callback row) e) :
    e = .call callback (row.tick s) := by
  cases e with
  | call callback' tick =>
      obtain ⟨s', row', heq, rfl⟩ := hmay
      cases heq
      rfl
  | isConnected => exact hmay.elim fun _ h => h.elim nofun
  | copyTicks s => exact hmay.elim nofun
  | sleep seconds => exact hmay.elim fun _ h => h.elim nofun
  | wait => exact hmay.elim fun _ h => h.elim nofun
  | _ => cases hmay

theorem streamingFlow_streams : Streams (streamingFlow (κ := κ)) where
  started := Prog.obeys_op.mpr ⟨rfl, fun out => by cases out <;> rfl⟩
  isConnected s callback := by
    refine Prog.obeys_op.mpr ⟨⟨s, callback, rfl⟩, fun out => ?_⟩
    cases out with
    | ok connected => cases connected <;> rfl
    | error x => rfl
  copyTicks s callback := by
    refine Prog.obeys_op.mpr ⟨⟨callback, rfl⟩, fun out => ?_⟩
    cases out with
    | ok row => cases row <;> rfl
    | error x => rfl
  callback s callback row := by
    cases callback with
    | ignore => exact Prog.obeys_op_bind.mpr ⟨⟨s, row, rfl, rfl⟩, fun _ => rfl, fun _ => rfl⟩
    | send i => exact Prog.obeys_op_bind.mpr ⟨⟨s, row, rfl, rfl⟩, fun _ => rfl, fun _ => rfl⟩
  sleep s callback seconds :=
    Prog.obeys_op.mpr ⟨⟨s, callback, rfl⟩, fun out => by cases out <;> rfl⟩
  wait s callback := Prog.obeys_op.mpr ⟨⟨s, callback, rfl⟩, fun out => by cases out <;> rfl⟩
  finish := by
    refine Prog.obeys_op.mpr ⟨rfl, fun out => ?_⟩
    cases out with
    | ok _ => exact nofun
    | error x => exact nofun

theorem streamProg_obeys (rounds : ℕ) :
    (streamProg rounds : ProviderM κ Unit).Obeys streamingFlow (fun _ p => p ≠ .ended)
      .fresh := streamingFlow_streams.streamProg rounds

-- ============================================================================
-- Moves of connections
-- ============================================================================

variable {i : κ} {n : ℕ} {w w' : ProviderWorld κ} {d : Doing} {p : Streaming κ}
variable {e : ProviderOp κ} {a : Except (Thrown Exc) e.Ans}

/-- What an operation of a connection does to its call of `subscribe_ticks` and to the
    provider. -/
inductive ClientMove (w : ProviderWorld κ) :
    Doing → (e : ProviderOp κ) → Except (Thrown Exc) e.Ans → Doing → ProviderWorld κ → Prop
  | idle {d : Doing} {e : ProviderOp κ} {a : Except (Thrown Exc) e.Ans} :
      ClientMove w d e a .idle w
  | start {d : Doing} {e : ProviderOp κ} {a : Except (Thrown Exc) e.Ans} :
      ClientMove w d e a (.subscribing []) w
  | select {done : List String} {s : String} :
      ClientMove w (.subscribing done) (.symbolSelect s true) (.ok true) (.selected done s) w
  | refuse {done : List String} {s : String} :
      ClientMove w (.subscribing done) (.symbolSelect s true) (.ok false)
        (.subscribing (s :: done)) w
  | present {done : List String} {s : String} {e : ProviderOp κ}
      {a : Except (Thrown Exc) e.Ans} : (w.tasks s).isSome →
      ClientMove w (.selected done s) e a (.subscribing (s :: done)) w
  | absent {done : List String} {s : String} {e : ProviderOp κ}
      {a : Except (Thrown Exc) e.Ans} :
      ClientMove w (.selected done s) e a (.absent done s) w
  | create {done : List String} {s : String} {callback : Callback κ} {e : ProviderOp κ}
      {a : Except (Thrown Exc) e.Ans} :
      ClientMove w (.absent done s) e a (.subscribing (s :: done)) (w.createTask s callback)
  | pop {s : String} {e : ProviderOp κ} {a : Except (Thrown Exc) e.Ans} :
      ClientMove w .idle e a .idle (w.popTask s)
  | cancel {n : ℕ} {a : Except (Thrown Exc) Unit} :
      ClientMove w .idle (.cancel n) a .idle { w with loop := w.loop.cancel n }

theorem clientMove_of_may (hmay : (doingFlow socket).may d e)
    (henv : providerEnv (.client i) w e a w') :
    ClientMove w d e a (d.next e a) w' := by
  unfold providerEnv at henv
  rw [show w.loop.interrupts (.client i) = false from rfl, Bool.and_false] at henv
  cases e with
  | accept =>
      obtain rfl : d = .idle := hmay
      obtain ⟨rfl, rfl⟩ := henv
      exact .idle
  | receiveJson =>
      obtain rfl : d = .idle := hmay
      obtain ⟨⟨received, rfl⟩ | ⟨x, rfl⟩, rfl⟩ := henv
      · cases received with
        | disconnected => exact .idle
        | message msg =>
            show ClientMove _ _ _ _ (if _ then _ else _) _
            split
            next => exact .start
            next => exact .idle
      · exact .idle
  | request =>
      obtain ⟨rfl, rfl⟩ := henv
      exact .start
  | respond result =>
      obtain ⟨rfl, rfl⟩ := henv
      exact .idle
  | extend symbols =>
      obtain ⟨rfl, rfl⟩ := henv
      exact .idle
  | symbolSelect s enable =>
      obtain ⟨⟨ok, rfl⟩ | ⟨x, rfl⟩, rfl⟩ := henv
      · cases enable with
        | true =>
            obtain ⟨done, rfl⟩ := hmay
            cases ok with
            | true => exact .select
            | false => exact .refuse
        | false =>
            obtain rfl : d = .idle := hmay
            cases ok with
            | true => exact .idle
            | false => exact .idle
      · cases enable with
        | true => exact .idle
        | false => exact .idle
  | inTasks s =>
      obtain ⟨done, rfl⟩ := hmay
      obtain ⟨ha, rfl⟩ := henv
      rw [ha]
      cases hpresent : (w'.tasks s).isSome with
      | true => exact .present hpresent
      | false => exact .absent
  | createTask s callback =>
      obtain ⟨done, rfl⟩ := hmay
      obtain ⟨rfl, rfl⟩ := henv
      exact .create
  | popTask s =>
      obtain rfl : d = .idle := hmay
      obtain ⟨ha, rfl⟩ := henv
      rw [ha]
      exact .pop
  | cancel n =>
      obtain rfl : d = .idle := hmay
      obtain ⟨rfl, rfl⟩ := henv
      exact .cancel
  | gather n =>
      obtain rfl : d = .idle := hmay
      obtain ⟨-, rfl, rfl⟩ := henv
      exact .idle
  | _ => cases hmay

/-- A connection subscribes to a symbol when its call of `subscribe_ticks` is done with it. -/
theorem mem_liveNext {live : List String} {s : String} (hmay : (doingFlow socket).may d e)
    (hs : s ∈ liveNext live e a) :
    s ∈ live ∨ (∃ symbols, e = .extend symbols) ∧ socket ∧
      ∃ done, d = .subscribing done ∧ s ∈ done := by
  cases a with
  | error x =>
      have hnil : liveNext live e (.error x) = [] := by
        cases e <;> rfl
      rw [hnil] at hs
      cases hs
  | ok r =>
      cases e with
      | receiveJson =>
          cases r with
          | disconnected => cases hs
          | message msg =>
              have hs : s ∈ if msg.action = some "unsubscribe" then
                live.filter fun s => s ∉ msg.symbols else live := hs
              split at hs
              next => exact .inl (List.mem_of_mem_filter hs)
              next => exact .inl hs
      | extend symbols =>
          obtain ⟨hsocket, done, hd, hsymbols⟩ := hmay
          rcases List.mem_append.mp hs with hs | hs
          · exact .inl hs
          · exact .inr ⟨⟨symbols, rfl⟩, hsocket, done, hd, hsymbols hs⟩
      | _ => exact .inl hs

-- ============================================================================
-- Moves of streams
-- ============================================================================

/-- What an operation of stream `n` does to its stage and to the provider. -/
inductive StreamMove (n : ℕ) (w : ProviderWorld κ) :
    Streaming κ → (e : ProviderOp κ) → Except (Thrown Exc) e.Ans → Streaming κ →
      ProviderWorld κ → Prop
  | interrupt {p : Streaming κ} {e : ProviderOp κ} {a : Except (Thrown Exc) e.Ans} :
      p ≠ .done → n < w.loop.created → w.loop.cancelling n →
      StreamMove n w p e a .ended { w with loop := w.loop.deliver n }
  | begin {s : String} {callback : Callback κ} {e : ProviderOp κ}
      {a : Except (Thrown Exc) e.Ans} : w.streams n = some (s, callback) →
      StreamMove n w .fresh e a (.reading s callback) w
  | stay {s : String} {callback : Callback κ} {e : ProviderOp κ}
      {a : Except (Thrown Exc) e.Ans} :
      StreamMove n w (.reading s callback) e a (.reading s callback) w
  | hold {s : String} {callback : Callback κ} {row : TickRow} {e : ProviderOp κ}
      {a : Except (Thrown Exc) e.Ans} :
      StreamMove n w (.reading s callback) e a (.holding s callback row) w
  | pass {s : String} {callback : Callback κ} {row : TickRow} {e : ProviderOp κ}
      {a : Except (Thrown Exc) e.Ans} :
      StreamMove n w (.holding s callback row) e a (.reading s callback) w
  /-- The callback of a connection raises. -/
  | raise {s : String} {i : κ} {row : TickRow} {a : Except (Thrown Exc) Unit} :
      StreamMove n w (.holding s (.send i) row) (.call (.send i) (row.tick s)) a .ended w
  /-- The terminal raises. -/
  | fail {s : String} {callback : Callback κ} {x : Thrown Exc} :
      StreamMove n w (.reading s callback) (.copyTicks s) (.error x) .ended w
  | disconnected {s : String} {callback : Callback κ} {e : ProviderOp κ}
      {a : Except (Thrown Exc) e.Ans} : w.connected = false →
      StreamMove n w (.reading s callback) e a .ended w
  | finish {e : ProviderOp κ} {a : Except (Thrown Exc) e.Ans} :
      StreamMove n w .ended e a .done { w with loop := w.loop.finish n }

/-- A stream that is cancelled where it waits. -/
theorem streamMove_of_interrupt (hmay : streamingFlow.may p e) (hsuspends : e.suspends)
    (hinterrupts : w.loop.interrupts (.task n : Actor κ)) :
    StreamMove n w p e (.error .cancelled) (p.next e (.error .cancelled))
      { w with loop := w.loop.deliver n } := by
  have hcreated := Tasks.lt_of_interrupts hinterrupts
  have hcancelling := (Bool.and_eq_true_iff.mp hinterrupts).2
  cases e with
  | begin =>
      obtain rfl : p = .fresh := hmay
      exact .interrupt nofun hcreated hcancelling
  | sleep seconds =>
      obtain ⟨s, callback, rfl⟩ := hmay
      exact .interrupt nofun hcreated hcancelling
  | wait =>
      obtain ⟨s, callback, rfl⟩ := hmay
      exact .interrupt nofun hcreated hcancelling
  | isConnected => cases hsuspends
  | copyTicks s => cases hsuspends
  | call callback tick => cases hsuspends
  | finish => cases hsuspends
  | _ => cases hmay

theorem streamMove_of_reply (hmay : streamingFlow.may p e)
    (henv : providerReply (.task n) w e a w') : StreamMove n w p e a (p.next e a) w' := by
  cases e with
  | begin =>
      obtain rfl : p = .fresh := hmay
      obtain ⟨m, stream, hm, hstream, rfl, rfl⟩ := henv
      cases hm
      exact .begin hstream
  | isConnected =>
      obtain ⟨s, callback, rfl⟩ := hmay
      obtain ⟨ha, rfl⟩ := henv
      rw [ha]
      cases hconnected : w'.connected with
      | true => exact .stay
      | false => exact .disconnected hconnected
  | copyTicks s =>
      obtain ⟨callback, rfl⟩ := hmay
      obtain ⟨⟨row, rfl⟩ | ⟨x, rfl⟩, rfl⟩ := henv
      · cases row with
        | none => exact .stay
        | some row => exact .hold
      · exact .fail
  | call callback tick =>
      obtain ⟨s, row, rfl, rfl⟩ := hmay
      obtain ⟨rfl, rfl⟩ := henv
      cases callback with
      | ignore => exact .pass
      | send i => exact .raise
  | sleep seconds =>
      obtain ⟨s, callback, rfl⟩ := hmay
      obtain ⟨rfl, rfl⟩ := henv
      exact .stay
  | wait => cases henv
  | finish =>
      obtain rfl : p = .ended := hmay
      obtain ⟨rfl, rfl⟩ := henv
      exact .finish
  | _ => cases hmay

theorem streamMove_of_may (hmay : streamingFlow.may p e)
    (henv : providerEnv (.task n) w e a w') : StreamMove n w p e a (p.next e a) w' := by
  unfold providerEnv at henv
  split at henv
  next hinterrupted =>
    obtain ⟨rfl, rfl⟩ := henv
    obtain ⟨hsuspends, hinterrupts⟩ := Bool.and_eq_true_iff.mp hinterrupted
    exact streamMove_of_interrupt hmay hsuspends hinterrupts
  next => exact streamMove_of_reply hmay henv

end Mtrader.MarketData
