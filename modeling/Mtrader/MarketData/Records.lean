/-
  Mtrader.MarketData.Records

  Where the connections and the streams of a run have got to, and what the provider has on
  record of them.
-/

import Mtrader.MarketData.Streaming
import Mtrader.MarketData.TaskRecords

namespace Mtrader.MarketData

open Coroutine Py

variable {κ : Type} [DecidableEq κ] {calls : κ → ProviderCall} {rounds : ℕ → ℕ}
variable {h : ProviderHistory κ} {c c' : ProviderConfig κ} {w w' : ProviderWorld κ}

-- ============================================================================
-- Stages of a run
-- ============================================================================

variable {i : κ} {n : ℕ} {x : Actor κ} {ev : ProviderEvent κ}

/-- The symbols that connection `i` has subscribed to and not unsubscribed from since. -/
def subscriptions (h : ProviderHistory κ) (i : κ) : List String :=
  liveFlow.ghost [] (.client i) h

def doing (calls : κ → ProviderCall) (h : ProviderHistory κ) (i : κ) : Doing :=
  (doingFlow (calls i).isSocket).ghost .idle (.client i) h

def streaming (h : ProviderHistory κ) (n : ℕ) : Streaming κ :=
  streamingFlow.ghost .fresh (.task n) h

theorem doing_self :
    doing calls ((.client i, ev) :: h) i = (doing calls h i).next ev.op ev.ans :=
  Discipline.ghost_self

theorem doing_other (hne : x ≠ .client i) : doing calls ((x, ev) :: h) i = doing calls h i :=
  Discipline.ghost_other hne

theorem streaming_self :
    streaming ((.task n, ev) :: h) n = (streaming h n).next ev.op ev.ans := Discipline.ghost_self

theorem streaming_other (hne : x ≠ .task n) : streaming ((x, ev) :: h) n = streaming h n :=
  Discipline.ghost_other hne

theorem doing_task : doing calls ((.task n, ev) :: h) i = doing calls h i := doing_other nofun

theorem streaming_client : streaming ((.client i, ev) :: h) n = streaming h n :=
  streaming_other nofun

theorem subscriptions_self : subscriptions ((.client i, ev) :: h) i =
    liveNext (subscriptions h i) ev.op ev.ans := Discipline.ghost_self

theorem subscriptions_other (hne : x ≠ .client i) :
    subscriptions ((x, ev) :: h) i = subscriptions h i := Discipline.ghost_other hne

theorem subscriptions_task : subscriptions ((.task n, ev) :: h) i = subscriptions h i :=
  subscriptions_other nofun

omit [DecidableEq κ] in
theorem start_parked (x : Actor κ) :
    ((providerStart calls rounds).pool x).parked ProviderOp.suspends := by
  cases x with
  | task n => rfl
  | client i =>
      show ((calls i).prog i).parked _ = true
      cases calls i <;> rfl

/-- A call of `subscribe_ticks` that has begun holds the loop. -/
theorem running_of_doing (hrun : ProviderRun calls rounds h c) (hi : doing calls h i ≠ .idle) :
    c.running = some (.client i) := by
  refine hrun.running_of_busy start_parked (providerCall_obeys i (calls i)) (fun d => d ≠ .idle)
    ?_ ?_ hi
  · exact fun _ _ hidle hbusy => hbusy hidle
  · exact fun _ _ hbusy hmay => suspends_of_doing hmay hbusy

/-- A stream that has raised holds the loop until it finishes. -/
theorem running_of_ended (hrun : ProviderRun calls rounds h c) (hn : streaming h n = .ended) :
    c.running = some (.task n) := by
  refine hrun.running_of_busy start_parked (streamProg_obeys (rounds n)) (fun p => p = .ended)
    ?_ ?_ hn
  · exact fun _ _ hgoing hended => hgoing hended
  · rintro _ e rfl hmay
    exact suspends_of_ended hmay

theorem clientMove_of_step (hrun : ProviderRun calls rounds h c)
    (hs : Step ProviderOp.suspends providerEnv c (.client i) ev c') :
    (doingFlow (calls i).isSocket).may (doing calls h i) ev.op ∧
      ClientMove c.world (doing calls h i) ev.op ev.ans ((doing calls h i).next ev.op ev.ans)
        c'.world := by
  have hobeys : (c.pool (.client i)).Obeys (doingFlow (calls i).isSocket) (fun _ d => d = .idle)
      (doing calls h i) := hrun.obeys (providerCall_obeys i (calls i))
  cases hs with
  | mk _ hp henv =>
      rw [hp] at hobeys
      exact ⟨hobeys.1, clientMove_of_may hobeys.1 henv⟩

theorem streamMove_of_step (hrun : ProviderRun calls rounds h c)
    (hs : Step ProviderOp.suspends providerEnv c (.task n) ev c') :
    streamingFlow.may (streaming h n) ev.op ∧
      StreamMove n c.world (streaming h n) ev.op ev.ans ((streaming h n).next ev.op ev.ans)
        c'.world := by
  have hobeys : (c.pool (.task n)).Obeys streamingFlow (fun _ p => p ≠ .ended) (streaming h n) :=
    hrun.obeys (streamProg_obeys (rounds n))
  cases hs with
  | mk _ hp henv =>
      rw [hp] at hobeys
      exact ⟨hobeys.1, streamMove_of_may hobeys.1 henv⟩

-- ============================================================================
-- Tasks on record
-- ============================================================================

/-- The provider is connected and knows the tasks as they are. -/
structure Recorded (h : ProviderHistory κ) (w : ProviderWorld κ) : Prop
    extends OnRecord (streaming h) w.loop w.streams where
  connected : w.connected = true

theorem recorded_start : Recorded ([] : ProviderHistory κ) {} := ⟨onRecord_start, rfl⟩

variable {e : ProviderOp κ} {a : Except (Thrown Exc) e.Ans}

theorem Recorded.client {d d' : Doing} (hrec : Recorded h w) (hmove : ClientMove w d e a d' w') :
    Recorded ((.client i, ⟨w, e, a⟩) :: h) w' := by
  have hsame : streaming ((.client i, ⟨w, e, a⟩) :: h) = streaming h :=
    funext fun n => streaming_client
  suffices hw : OnRecord (streaming h) w'.loop w'.streams ∧ w'.connected = true by
    exact ⟨hsame ▸ hw.1, hw.2⟩
  cases hmove with
  | create => exact ⟨hrec.create _, hrec.connected⟩
  | cancel => exact ⟨hrec.cancel _, hrec.connected⟩
  | _ => exact ⟨hrec.toOnRecord, hrec.connected⟩

section

variable {p p' : Streaming κ}

omit [DecidableEq κ] in
theorem StreamMove.stageMove (hmove : StreamMove n w p e a p' w') :
    StageMove n w.streams w.loop p p' w'.loop := by
  cases hmove with
  | interrupt hdone hcreated => exact .interrupt hdone nofun hcreated nofun
  | begin hstream => exact .start hstream
  | finish => exact .finish
  | stay => exact .go nofun nofun nofun fun _ h => h
  | hold => exact .go nofun nofun nofun fun _ h => h
  | pass => exact .go nofun nofun nofun fun _ h => h
  | _ => exact .go nofun nofun nofun nofun

/-- A stream leaves the provider alone but for its own cancellation and its end. -/
structure Untouched (w w' : ProviderWorld κ) : Prop where
  connected : w'.connected = w.connected
  streams : w'.streams = w.streams

omit [DecidableEq κ] in
theorem StreamMove.untouched (hmove : StreamMove n w p e a p' w') : Untouched w w' := by
  cases hmove <;> exact ⟨rfl, rfl⟩

end

theorem Recorded.stream (hrec : Recorded h w)
    (hmove : StreamMove n w (streaming h n) e a ((streaming h n).next e a) w') :
    Recorded ((.task n, ⟨w, e, a⟩) :: h) w' := by
  have hself : streaming ((.task n, ⟨w, e, a⟩) :: h) n = (streaming h n).next e a :=
    streaming_self
  have hw := hmove.untouched
  rw [← hself] at hmove
  refine ⟨?_, hw.connected.trans hrec.connected⟩
  rw [hw.streams]
  exact hrec.move hmove.stageMove fun m hm =>
    streaming_other fun heq => hm (Actor.task.inj heq).symm

theorem recorded_of_run (hrun : ProviderRun calls rounds h c) : Recorded h c.world := by
  induction hrun with
  | nil => exact recorded_start
  | @cons h c c' x ev hr hs ih =>
      have hpre := hs.pre_eq
      cases x with
      | client i =>
          have hmove := (clientMove_of_step hr hs).2
          rw [← hpre] at hmove ih
          exact ih.client hmove
      | task n =>
          have hmove := (streamMove_of_step hr hs).2
          rw [← hpre] at hmove ih
          exact ih.stream hmove

end Mtrader.MarketData
