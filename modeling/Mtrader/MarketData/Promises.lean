/-
  Mtrader.MarketData.Promises

  What it means that `subscribe_ticks` has returned `True` for a symbol.

  It means that `_tasks` has an entry for the symbol.  The stream of an entry goes on, unless
  it has found the provider unconnected, or an exception has reached it, or a `disconnect`
  that is not done has cancelled it: then the entry is there and the stream is not.  Where
  none of this happens to an entry, every `True` is kept (`subscriptions_kept`).
-/

import Mtrader.MarketData.Stages

namespace Mtrader.MarketData.Lifecycle

open Coroutine Py

variable {κ β : Type} [DecidableEq κ] {self : MT5Provider} {calls : κ → SessionCall β}
variable {rounds : ℕ → ℕ} {h : SessionHistory κ β} {c c' : SessionConfig κ β}
variable {w w' : SessionWorld β} {i : κ} {n m : ℕ} {s t : String} {callback : β}
variable {x : Actor κ} {ev : SessionEvent β}

-- ============================================================================
-- Entries
-- ============================================================================

omit [DecidableEq κ] in
theorem taskOf_createTask : (w.createTask s callback).taskOf t =
    if t = s then some w.loop.created else w.taskOf t := by
  show Option.map _ (Merge.lookup Prod.fst (Merge.put Prod.fst w.tasks (s, w.loop.created)) t) = _
  rw [Merge.lookup_put]
  split <;> rfl

theorem taskOf_popTask : (w.popTask s).taskOf t = if t = s then none else w.taskOf t := by
  show Option.map _ (Merge.lookup Prod.fst (w.tasks.filter fun entry => entry.1 ≠ s) t) = _
  rw [Merge.lookup_filter_ne]
  split <;> rfl

/-- The entry of a symbol, if its task has not been cancelled. -/
def Holds (w : SessionWorld β) (s : String) (n : ℕ) : Prop :=
  w.taskOf s = some n ∧ w.loop.cancelled n = false

-- ============================================================================
-- Stages of a run
-- ============================================================================

def doing (calls : κ → SessionCall β) (h : SessionHistory κ β) (i : κ) : Doing :=
  (doingFlow (calls i).subscribes).ghost .idle (.client i) h

def streaming (h : SessionHistory κ β) (n : ℕ) : Streaming β :=
  streamingFlow.ghost .fresh (.task n) h

theorem doing_self : doing calls ((.client i, ev) :: h) i =
    (doing calls h i).next (calls i).subscribes ev.op ev.ans := Discipline.ghost_self

theorem doing_other (hne : x ≠ .client i) : doing calls ((x, ev) :: h) i = doing calls h i :=
  Discipline.ghost_other hne

theorem streaming_self :
    streaming ((.task n, ev) :: h) n = (streaming h n).next ev.op ev.ans := Discipline.ghost_self

theorem streaming_other (hne : x ≠ .task n) : streaming ((x, ev) :: h) n = streaming h n :=
  Discipline.ghost_other hne

theorem streaming_client : streaming ((.client i, ev) :: h) n = streaming h n :=
  streaming_other nofun

omit [DecidableEq κ] in
theorem start_parked (x : Actor κ) :
    ((sessionStart self calls rounds).pool x).parked SessionOp.suspends := by
  cases x with
  | task n => rfl
  | client i => rfl

/-- A call of `subscribe_ticks` that has begun holds the loop. -/
theorem running_of_doing (hrun : SessionRun self calls rounds h c)
    (hi : doing calls h i ≠ .idle) : c.running = some (.client i) := by
  refine hrun.running_of_busy start_parked (call_obeys self (calls i)) (fun d => d ≠ .idle)
    ?_ ?_ hi
  · exact fun _ _ hidle hbusy => hbusy hidle
  · exact fun _ _ hbusy hmay => suspends_of_doing hmay hbusy

theorem clientMove_of_step (hrun : SessionRun self calls rounds h c)
    (hs : Step SessionOp.suspends sessionEnv c (.client i) ev c') :
    (doingFlow (calls i).subscribes).may (doing calls h i) ev.op ∧
      ClientMove c.world (doing calls h i) ev.op
        ((doing calls h i).next (calls i).subscribes ev.op ev.ans) c'.world := by
  have hobeys : (c.pool (.client i)).Obeys (doingFlow (calls i).subscribes)
      (fun _ d => d = .idle) (doing calls h i) := hrun.obeys (call_obeys self (calls i))
  cases hs with
  | mk _ hp henv =>
      rw [hp] at hobeys
      exact ⟨hobeys.1, clientMove_of_may hobeys.1 henv⟩

theorem streamMove_of_step (hrun : SessionRun self calls rounds h c)
    (hs : Step SessionOp.suspends sessionEnv c (.task n) ev c') :
    streamingFlow.may (streaming h n) ev.op ∧
      StreamMove n c.world (streaming h n) ev.op ev.ans ((streaming h n).next ev.op ev.ans)
        c'.world := by
  have hobeys : (c.pool (.task n)).Obeys streamingFlow (fun _ p => p ≠ .ended) (streaming h n) :=
    hrun.obeys (streamProg_obeys (rounds n))
  cases hs with
  | mk _ hp henv =>
      rw [hp] at hobeys
      exact ⟨hobeys.1, streamMove_of_may hobeys.1 henv⟩

-- ============================================================================
-- Tasks on record
-- ============================================================================

/-- The provider knows the tasks as they are, and its entries are tasks. -/
structure Recorded (h : SessionHistory κ β) (w : SessionWorld β) : Prop
    extends OnRecord (streaming h) w.loop w.streams where
  entries : ∀ s n, w.taskOf s = some n → ∃ callback, w.streams n = some (s, callback)

theorem recorded_start : Recorded ([] : SessionHistory κ β) {} := by
  refine ⟨onRecord_start, fun s n hn => ?_⟩
  cases hn

theorem Recorded.createTask (hrec : Recorded h w) (s : String) (callback : β) :
    Recorded h (w.createTask s callback) := by
  refine ⟨hrec.create (s, callback), fun t n ht => ?_⟩
  rw [taskOf_createTask] at ht
  split at ht
  next hts =>
    cases ht
    rw [hts]
    exact ⟨callback, Function.update_self ..⟩
  next =>
    obtain ⟨callback', hjob⟩ := hrec.entries t n ht
    refine ⟨callback', ?_⟩
    show Function.update w.streams w.loop.created (some (s, callback)) n = _
    rw [Function.update_of_ne (hrec.created n _ hjob).ne]
    exact hjob

theorem Recorded.popTask (hrec : Recorded h w) (s : String) : Recorded h (w.popTask s) := by
  refine ⟨hrec.toOnRecord, fun t n ht => ?_⟩
  rw [taskOf_popTask] at ht
  split at ht
  next => cases ht
  next => exact hrec.entries t n ht

theorem Recorded.client {d d' : Doing} {e : SessionOp β} {ev : SessionEvent β}
    (hrec : Recorded h w) (hmove : ClientMove w d e d' w') :
    Recorded ((.client i, ev) :: h) w' := by
  have hsame : streaming ((.client i, ev) :: h) = streaming h :=
    funext fun n => streaming_client
  suffices hw : Recorded h w' by
    exact ⟨hsame ▸ hw.toOnRecord, hw.entries⟩
  cases hmove with
  | create => exact hrec.createTask ..
  | clear => exact ⟨hrec.toOnRecord, nofun⟩
  | pop => exact hrec.popTask _
  | cancel => exact ⟨hrec.cancel _, hrec.entries⟩
  | connected => exact ⟨hrec.toOnRecord, hrec.entries⟩
  | _ => exact hrec

section

variable {p p' : Streaming β} {e : SessionOp β} {a : Except (Thrown Exc) e.Ans}

theorem StreamMove.stageMove (hmove : StreamMove n w p e a p' w') :
    StageMove n w.streams w.loop p p' w'.loop := by
  cases hmove with
  | interrupt hdone hdone' hcreated _ hof => exact .interrupt hdone hdone' hcreated hof
  | start hjob => exact .start hjob
  | raise hdone hfresh => exact .go hfresh hdone nofun nofun
  | finish => exact .finish
  | disconnected => exact .go nofun nofun nofun nofun
  | _ => exact .go nofun nofun nofun fun _ h => h

/-- A stream leaves the provider alone but for its own cancellation and its end. -/
structure Untouched (w w' : SessionWorld β) : Prop where
  tasks : w'.tasks = w.tasks
  streams : w'.streams = w.streams

theorem StreamMove.untouched (hmove : StreamMove n w p e a p' w') : Untouched w w' := by
  cases hmove <;> exact ⟨rfl, rfl⟩

end

theorem Recorded.stream {e : SessionOp β} {a : Except (Thrown Exc) e.Ans} (hrec : Recorded h w)
    (hmove : StreamMove n w (streaming h n) e a ((streaming h n).next e a) w') :
    Recorded ((.task n, ⟨w, e, a⟩) :: h) w' := by
  have hself : streaming ((.task n, ⟨w, e, a⟩) :: h) n = (streaming h n).next e a :=
    streaming_self
  have hw := hmove.untouched
  rw [← hself] at hmove
  refine ⟨?_, fun s m hm => ?_⟩
  · rw [hw.streams]
    exact hrec.move hmove.stageMove fun m hm =>
      streaming_other fun heq => hm (Actor.task.inj heq).symm
  · rw [SessionWorld.taskOf, hw.tasks] at hm
    rw [hw.streams]
    exact hrec.entries s m hm

theorem recorded_of_run (hrun : SessionRun self calls rounds h c) : Recorded h c.world := by
  induction hrun with
  | nil => exact recorded_start
  | @cons h c c' x ev hr hs ih =>
      have hpre := hs.pre_eq
      cases x with
      | client i => exact ih.client (clientMove_of_step hr hs).2
      | task n =>
          have hmove := (streamMove_of_step hr hs).2
          rw [← hpre] at hmove ih
          exact ih.stream hmove

-- ============================================================================
-- Promises
-- ============================================================================

/-- The stream of an entry goes on as long as the provider stays connected and neither
    `unsubscribe_ticks` nor `disconnect` ends it. -/
def Undisturbed (s : String) (n : ℕ) (w : SessionWorld β) : Prop :=
  w.connected = true ∧ Holds w s n

/-- Whenever `subscribe_ticks` has returned `True` for a symbol, its entry is a stream that has
    not finished.  While it is undisturbed it does not finish either, and the next thing it
    does with a tick is to deliver it. -/
def Kept (h : SessionHistory κ β) (w : SessionWorld β) : Prop :=
  ∀ newer i u result a older, h = newer ++ (.client i, ⟨u, .returned result, a⟩) :: older →
    ∀ s, result s = some true →
      ∃ n callback, Holds u s n ∧ u.streams n = some (s, callback) ∧ u.loop.Unfinished n ∧
        (Undisturbed s n w → (∀ entry ∈ newer, Undisturbed s n entry.2.pre) →
          w.loop.Unfinished n ∧
          ∀ latest v row before,
            newer = latest ++ (.task n, ⟨v, .copyTicks s, .ok (some row)⟩) :: before →
            (∀ ev, (.task n, ev) ∉ latest) ∨
              ∃ ev, (.task n, ev) ∈ latest ∧ ev.op = .invoke callback (row.tick s))

/-- What must not happen to an entry of `_tasks`. -/
structure Orderly (h : SessionHistory κ β) : Prop where
  /-- Its stream finds the provider unconnected. -/
  connected : ∀ s n w a older, (.task n, ⟨w, .isConnected, a⟩) :: older <:+ h →
    Holds w s n → w.connected = true
  /-- The terminal or the callback raises in its stream. -/
  answers : ∀ s n w e x older, (.task n, ⟨w, e, .error x⟩) :: older <:+ h → ¬ Holds w s n
  /-- Somebody subscribes to its symbol while a `disconnect` that has cancelled its stream
      has not removed it. -/
  subscribes : ∀ i s n w a older, (.client i, ⟨w, .inTasks s, a⟩) :: older <:+ h →
    w.taskOf s = some n → w.loop.cancelled n = false

omit [DecidableEq κ] in
theorem Orderly.of_suffix {h' : SessionHistory κ β} (horderly : Orderly h) (hsuf : h' <:+ h) :
    Orderly h' where
  connected s n w a older hentry := horderly.connected s n w a older (hentry.trans hsuf)
  answers s n w e x older hentry := horderly.answers s n w e x older (hentry.trans hsuf)
  subscribes i s n w a older hentry := horderly.subscribes i s n w a older (hentry.trans hsuf)

-- ============================================================================
-- Streams of entries
-- ============================================================================

/-- The streams of the entries go on. -/
def Live (h : SessionHistory κ β) (w : SessionWorld β) : Prop :=
  ∀ s n, Holds w s n → (streaming h n).going

theorem Live.client {d d' : Doing} {e : SessionOp β} (hlive : Live h w) (hrec : Recorded h w)
    (hmove : ClientMove w d e d' w') : Live ((.client i, ev) :: h) w' := by
  intro t n ⟨htask, hcancelled⟩
  rw [streaming_client]
  cases hmove with
  | create =>
      rw [taskOf_createTask] at htask
      split at htask
      next =>
        -- A task that has just been created has not begun.
        cases htask
        have hfresh : streaming h w.loop.created = .fresh := by
          by_contra hbegun
          exact absurd (hrec.begun _ hbegun) (lt_irrefl _)
        rw [hfresh]
        rfl
      next => exact hlive t n ⟨htask, hcancelled⟩
  | clear => cases htask
  | pop =>
      rw [taskOf_popTask] at htask
      split at htask
      next => cases htask
      next => exact hlive t n ⟨htask, hcancelled⟩
  | @cancel m e =>
      refine hlive t n ⟨htask, ?_⟩
      by_contra hold
      rw [Tasks.cancelled_cancel.mpr (.inl (Bool.eq_true_of_not_eq_false hold))] at hcancelled
      cases hcancelled
  | _ => exact hlive t n ⟨htask, hcancelled⟩

theorem Live.stream {e : SessionOp β} {a : Except (Thrown Exc) e.Ans} (hlive : Live h w)
    (hrec : Recorded h w)
    (hmove : StreamMove n w (streaming h n) e a ((streaming h n).next e a) w')
    (hconnected : ∀ s, Holds w s n → e = .isConnected → w.connected = true)
    (hanswers : ∀ s x, a = .error x → ¬ Holds w s n) : Live ((.task n, ⟨w, e, a⟩) :: h) w' := by
  intro s m ⟨htask, hcancelled⟩
  have hw := hmove.untouched
  have hholds : Holds w s m := by
    rw [SessionWorld.taskOf, hw.tasks] at htask
    rw [hmove.stageMove.cancelled_eq] at hcancelled
    exact ⟨htask, hcancelled⟩
  have hgoing := hlive s m hholds
  by_cases hmn : m = n
  · subst hmn
    rw [streaming_self]
    show ((streaming h m).next e a).going = true
    generalize (streaming h m).next e a = p' at hmove ⊢
    generalize streaming h m = p at hmove hgoing
    cases hmove with
    | interrupt _ _ _ hcancelling =>
        have hcancelled := hholds.2
        rw [hrec.sound.cancelling m hcancelling] at hcancelled
        cases hcancelled
    | raise => exact absurd hholds (hanswers s _ rfl)
    | disconnected hunconnected =>
        rw [hconnected s hholds rfl] at hunconnected
        cases hunconnected
    | finish => cases hgoing
    | _ => rfl
  · rw [streaming_other fun heq => hmn (Actor.task.inj heq).symm]
    exact hgoing

theorem live_of_run (hrun : SessionRun self calls rounds h c) (horderly : Orderly h) :
    Live h c.world := by
  induction hrun with
  | nil => exact fun s n hholds => nomatch hholds.1
  | @cons h c c' x ev hr hs ih =>
      have hpre := hs.pre_eq
      have hlive := ih (horderly.of_suffix (List.suffix_cons _ _))
      have hrec := recorded_of_run hr
      cases x with
      | client i => exact hlive.client hrec (clientMove_of_step hr hs).2
      | task n =>
          obtain ⟨u, e, a⟩ := ev
          obtain rfl : u = c.world := hpre
          refine hlive.stream hrec (streamMove_of_step hr hs).2 ?_ ?_
          · rintro s hholds rfl
            exact horderly.connected s n _ a h List.suffix_rfl hholds
          · rintro s x rfl
            exact horderly.answers s n _ e x h List.suffix_rfl

/-- The stream of an entry that goes on has not finished. -/
theorem Live.unfinished (hlive : Live h w) (hrec : Recorded h w) (hholds : Holds w s n) :
    w.loop.Unfinished n := by
  obtain ⟨callback, hjob⟩ := hrec.entries s n hholds.1
  refine ⟨hrec.created n _ hjob, ?_⟩
  by_contra hfinished
  have hdone := (hrec.finished n).mp (Bool.eq_true_of_not_eq_false hfinished)
  have hgoing := hlive s n hholds
  rw [hdone] at hgoing
  cases hgoing

-- ============================================================================
-- Results
-- ============================================================================

/-- What `subscribe_ticks` is going to say, so far. -/
def Doing.result : Doing → String → Option Bool
  | .idle => fun _ => none
  | .subscribing result => result
  | .selected result _ => result
  | .absent result _ => result

/-- Every `True` so far has an entry. -/
def Backed (w : SessionWorld β) (d : Doing) : Prop :=
  ∀ s, d.result s = some true → ∃ n, Holds w s n

theorem Backed.update {result : String → Option Bool} (hbacked : Backed w (.subscribing result))
    (hs : ∃ n, Holds w s n) :
    Backed w (.subscribing (Function.update result s (some true))) := by
  intro t ht
  by_cases hts : t = s
  · rw [hts]
    exact hs
  · exact hbacked t ((Function.update_of_ne hts ..).symm.trans ht)

theorem Backed.client {d d' : Doing} {e : SessionOp β} (hbacked : Backed w d)
    (hrec : Recorded h w) (hmove : ClientMove w d e d' w')
    (hsubscribes : ∀ s n, e = .inTasks s → w.taskOf s = some n → w.loop.cancelled n = false) :
    Backed w' d' := by
  cases hmove with
  | idle => exact nofun
  | start => exact nofun
  | select => exact hbacked
  | @refuse result s e =>
      intro t ht
      by_cases hts : t = s
      · subst hts
        rw [Doing.result, Function.update_self] at ht
        cases ht
      · exact hbacked t ((Function.update_of_ne hts ..).symm.trans ht)
  | @present result s hpresent =>
      obtain ⟨n, hn⟩ := Option.isSome_iff_exists.mp hpresent
      exact Backed.update hbacked ⟨n, hn, hsubscribes s n rfl hn⟩
  | absent => exact hbacked
  | @create result s callback e =>
      have hnew : Holds (w.createTask s callback) s w.loop.created :=
        ⟨taskOf_createTask.trans (if_pos rfl), hrec.sound.uncancelled⟩
      refine Backed.update (fun t ht => ?_) ⟨_, hnew⟩
      by_cases hts : t = s
      · rw [hts]
        exact ⟨_, hnew⟩
      · obtain ⟨n, htask, hcancelled⟩ := hbacked t ht
        exact ⟨n, (taskOf_createTask.trans (if_neg hts)).trans htask, hcancelled⟩
  | _ => exact nofun

theorem backed_of_run (hrun : SessionRun self calls rounds h c) (horderly : Orderly h) :
    ∀ i, Backed c.world (doing calls h i) := by
  induction hrun with
  | nil => exact fun i s hs => nomatch hs
  | @cons h c c' x ev hr hs ih =>
      have hpre := hs.pre_eq
      have hbacked := ih (horderly.of_suffix (List.suffix_cons _ _))
      intro i
      by_cases hx : x = .client i
      · subst hx
        obtain ⟨u, e, a⟩ := ev
        obtain rfl : u = c.world := hpre
        rw [doing_self]
        refine (hbacked i).client (recorded_of_run hr) (clientMove_of_step hr hs).2 ?_
        rintro s n rfl hn
        exact horderly.subscribes i s n _ a h List.suffix_rfl hn
      · rw [doing_other hx]
        by_cases hidle : doing calls h i = .idle
        · rw [hidle]
          exact fun s hs => nomatch hs
        · -- nobody else goes on during a call of `subscribe_ticks`
          exact absurd (hs.eq_of_running (running_of_doing hr hidle)) hx

-- ============================================================================
-- What has become of a stream
-- ============================================================================

omit [DecidableEq κ] in
theorem ClientMove.streams {d d' : Doing} {e : SessionOp β} {job : String × β}
    (hmove : ClientMove w d e d' w') (hne : n ≠ w.loop.created) (hjob : w.streams n = some job) :
    w'.streams n = some job := by
  cases hmove with
  | create => exact (Function.update_of_ne hne ..).trans hjob
  | _ => exact hjob

/-- A task streams what it was created to stream. -/
theorem streams_step {job : String × β} (hr : SessionRun self calls rounds h c)
    (hs : Step SessionOp.suspends sessionEnv c x ev c') (hjob : c.world.streams n = some job) :
    c'.world.streams n = some job := by
  cases x with
  | client i =>
      refine (clientMove_of_step hr hs).2.streams ?_ hjob
      exact ((recorded_of_run hr).created n job hjob).ne
  | task m =>
      rw [(streamMove_of_step hr hs).2.untouched.streams]
      exact hjob

theorem streams_later {job : String × β} {newer older : SessionHistory κ β}
    {entry : Actor κ × SessionEvent β}
    (hrun : SessionRun self calls rounds (newer ++ entry :: older) c)
    (hjob : entry.2.pre.streams n = some job) : c.world.streams n = some job := by
  induction newer generalizing c with
  | nil =>
      cases hrun with
      | cons hr hs =>
          rw [hs.pre_eq] at hjob
          exact streams_step hr hs hjob
  | cons entry' newer ih =>
      cases hrun with
      | cons hr hs => exact streams_step hr hs (ih hr)

/-- The next thing that a stream does with a tick is to deliver it. -/
theorem delivered_next {latest before : SessionHistory κ β} {v : SessionWorld β} {row : TickRow}
    (hrun : SessionRun self calls rounds
      (latest ++ (.task n, ⟨v, .copyTicks s, .ok (some row)⟩) :: before) c)
    (hjob : v.streams n = some (s, callback)) :
    (∀ ev, (.task n, ev) ∉ latest) ∨
      ∃ ev, (.task n, ev) ∈ latest ∧ ev.op = .invoke callback (row.tick s) := by
  obtain ⟨c₁, c₂, hr, hs⟩ := hrun.entry (List.suffix_append latest _)
  obtain ⟨callback', hreading⟩ := (streamMove_of_step hr hs).1
  obtain rfl : v = c₁.world := hs.pre_eq
  have hsame := (recorded_of_run hr).streams n (s, callback') (by rw [hreading]; rfl)
  rw [hjob] at hsame
  cases hsame
  have hholding : streaming ((.task n, ⟨c₁.world, .copyTicks s, .ok (some row)⟩) :: before) n =
      .holding s callback row := by
    rw [streaming_self, hreading]
    rfl
  refine (hrun.next_may (streamProg_obeys (rounds n))).imp_right ?_
  rintro ⟨ev, hmem, hmay⟩
  rw [← streaming, hholding] at hmay
  exact ⟨ev, hmem, may_holding hmay⟩

-- ============================================================================
-- Promises are kept
-- ============================================================================

theorem subscriptions_kept (hrun : SessionRun self calls rounds h c) (horderly : Orderly h) :
    Kept h c.world := by
  rintro newer i u result a older rfl s hs
  obtain ⟨c₁, c₂, hr, hstep⟩ := hrun.entry (List.suffix_append newer _)
  obtain rfl : u = c₁.world := hstep.pre_eq
  have holder := horderly.of_suffix
    ((List.suffix_cons _ older).trans (List.suffix_append newer _))
  have hrec := recorded_of_run hr
  have hresult : (doing calls older i).result s = some true := by
    rcases (clientMove_of_step hr hstep).1 with hd | ⟨-, hnone⟩
    · rw [hd]
      exact hs
    · rw [hnone s] at hs
      cases hs
  obtain ⟨n, hholds⟩ := backed_of_run hr holder i s hresult
  obtain ⟨callback, hjob⟩ := hrec.entries s n hholds.1
  refine ⟨n, callback, hholds, hjob, (live_of_run hr holder).unfinished hrec hholds, ?_⟩
  intro hundisturbed _
  refine ⟨(live_of_run hrun horderly).unfinished (recorded_of_run hrun) hundisturbed.2, ?_⟩
  rintro latest v row before rfl
  rw [List.append_assoc, List.cons_append] at hrun
  refine delivered_next hrun ?_
  obtain ⟨c₃, c₄, hr', hstep'⟩ := hrun.entry (List.suffix_append latest _)
  obtain rfl : v = c₃.world := hstep'.pre_eq
  exact streams_later hr' hjob

-- ============================================================================
-- Scenes
-- ============================================================================

/-- A terminal that does what it is asked, with the same row each time, and callbacks that
    return at once. -/
def sessionHandler (row : TickRow) (i : Actor κ) :
    Handler (SessionWorld β) (SessionAns β) (Thrown Exc) :=
  fun w e =>
    if e.suspends && w.loop.interrupts i then
      some (.error .cancelled, { w with loop := w.loop.interrupt i })
    else match e with
      | .begin => some (.ok (), w)
      | .returned _ => some (.ok (), w)
      | .start => match i with
        | .client _ => none
        | .task n => (w.streams n).map fun job => (.ok job, w)
      | .finish => match i with
        | .client _ => some (.ok (), w)
        | .task n => some (.ok (), { w with loop := w.loop.finish n })
      | .initializeMt5 _ => some (.ok true, w)
      | .login .. => some (.ok true, w)
      | .shutdown => some (.ok (), w)
      | .isConnected => some (.ok w.connected, w)
      | .setConnected connected => some (.ok (), { w with connected := connected })
      | .values => some (.ok w.tasks, w)
      | .nextValue entries position =>
          if w.tasks = entries then some (.ok ((entries[position]?).map Prod.snd), w) else none
      | .clear => some (.ok (), { w with tasks := [] })
      | .symbolSelect .. => some (.ok true, w)
      | .inTasks symbol => some (.ok (w.taskOf symbol).isSome, w)
      | .createTask symbol callback => some (.ok (), w.createTask symbol callback)
      | .popTask symbol => some (.ok (w.taskOf symbol), w.popTask symbol)
      | .cancel n => some (.ok (), { w with loop := w.loop.cancel n })
      | .gather n => if w.loop.finished n then some (.ok (), w) else none
      | .copyTicks _ => some (.ok (some row), w)
      | .invoke .. => some (.ok false, w)
      | .awaitOut => some (.ok (), w)
      | .sleep _ => some (.ok (), w)
      | .wait => none

omit [DecidableEq κ] in
theorem sessionHandler_sound (row : TickRow) (i : Actor κ) (w : SessionWorld β) (e : SessionOp β)
    (a : Except (Thrown Exc) e.Ans) (w' : SessionWorld β)
    (h : sessionHandler row i w e = some (a, w')) : sessionEnv i w e a w' := by
  unfold sessionHandler at h
  unfold sessionEnv
  split
  next hinterrupted =>
    rw [if_pos hinterrupted] at h
    cases h
    exact ⟨.inl rfl, rfl⟩
  next hinterrupted =>
    rw [if_neg hinterrupted] at h
    cases e with
    | start =>
        cases i with
        | client i => cases h
        | task n =>
            obtain ⟨job, hjob, heq⟩ := Option.map_eq_some_iff.mp h
            cases heq
            exact ⟨n, job, rfl, hjob, rfl, rfl⟩
    | finish =>
        cases i with
        | client i =>
            cases h
            exact ⟨rfl, rfl⟩
        | task n =>
            cases h
            exact ⟨rfl, rfl⟩
    | initializeMt5 path =>
        cases h
        exact ⟨.inl ⟨_, rfl⟩, rfl⟩
    | login account password server =>
        cases h
        exact ⟨.inl ⟨_, rfl⟩, rfl⟩
    | shutdown =>
        cases h
        exact ⟨.inl ⟨_, rfl⟩, rfl⟩
    | nextValue entries position =>
        obtain ⟨hsame, heq⟩ := Option.ite_none_right_eq_some.mp h
        cases heq
        exact ⟨by rw [NextValue, if_pos hsame], rfl⟩
    | symbolSelect symbol enable =>
        cases h
        exact ⟨.inl ⟨_, rfl⟩, rfl⟩
    | copyTicks symbol =>
        cases h
        exact ⟨.inl ⟨_, rfl⟩, rfl⟩
    | gather n =>
        obtain ⟨hn, heq⟩ := Option.ite_none_right_eq_some.mp h
        cases heq
        exact ⟨.inl ⟨hn, rfl⟩, rfl⟩
    | invoke callback tick =>
        cases h
        rfl
    | awaitOut =>
        cases h
        rfl
    | wait => cases h
    | _ =>
        cases h
        exact ⟨rfl, rfl⟩

inductive Party
  | early | opener | late
  deriving DecidableEq

/-- Two clients subscribe to a symbol, and one connects. -/
def partyCalls : Party → SessionCall Unit
  | .opener => .connect
  | _ => .subscribe ["EURUSD"] ()

/-- A stream is only resumed while the provider is connected, nothing raises, and nobody
    subscribes to a symbol that has an entry. -/
def calm : Actor κ × SessionEvent β → Bool
  | (.task _, ev) => ev.pre.connected && ev.ans.isOk
  | (.client _, ⟨w, .inTasks s, _⟩) => (w.taskOf s).isNone
  | (.client _, _) => true

omit [DecidableEq κ] in
theorem orderly_of_calm (hall : ∀ entry ∈ h, calm entry) : Orderly h where
  connected s n w a older hsuf _ := by
    have hcalm : (w.connected && a.isOk) = true := hall _ (hsuf.subset List.mem_cons_self)
    exact (Bool.and_eq_true_iff.mp hcalm).1
  answers s n w e x older hsuf := by
    have hcalm : (w.connected && false) = true := hall _ (hsuf.subset List.mem_cons_self)
    rw [Bool.and_false] at hcalm
    cases hcalm
  subscribes i s n w a older hsuf hn := by
    have hcalm : (w.taskOf s).isNone = true := hall _ (hsuf.subset List.mem_cons_self)
    rw [hn] at hcalm
    cases hcalm

def quote : TickRow where
  bid := 1
  ask := 2
  time := 0
  volume := 0

def demoProvider : MT5Provider where
  account := 1
  password := "secret"
  server := "demo"

def invoked : Actor Party × SessionEvent Unit → Bool
  | (_, ⟨_, .invoke .., _⟩) => true
  | _ => false

/-- The provider is connected before anybody subscribes. -/
theorem early_run :
    ∃ h c, SessionRun demoProvider partyCalls (fun _ => 5) h c ∧
      (∃ entry ∈ h, invoked entry) ∧ ∀ entry ∈ h, calm entry :=
  Config.exists_run (sessionHandler_sound quote)
    (List.replicate 6 (.client .opener) ++ List.replicate 5 (.client .early) ++
      List.replicate 5 (.task 0))
    (fun h _ => (∃ entry ∈ h, invoked entry) ∧ ∀ entry ∈ h, calm entry)
    (by decide +kernel)

theorem subscriptions_kept_early :
    ∃ h c, SessionRun demoProvider partyCalls (fun _ => 5) h c ∧
      (∃ entry ∈ h, invoked entry) ∧ Orderly h ∧ Kept h c.world := by
  obtain ⟨h, c, hrun, hinvoked, hall⟩ := early_run
  have horderly : Orderly h := orderly_of_calm hall
  exact ⟨h, c, hrun, hinvoked, horderly, subscriptions_kept hrun horderly⟩

/-- Somebody is told `True` about a symbol whose stream has finished. -/
def deceived : Actor Party × SessionEvent Unit → Bool
  | (.client _, ⟨w, .returned result, _⟩) =>
      result "EURUSD" == some true && w.taskOf "EURUSD" == some 0 && w.loop.finished 0
  | _ => false

/-- The first subscribes before the provider is connected, so that the stream ends at once;
    the second after that. -/
theorem late_run :
    ∃ h c, SessionRun demoProvider partyCalls (fun _ => 5) h c ∧ ∃ entry ∈ h, deceived entry :=
  Config.exists_run (sessionHandler_sound quote)
    (List.replicate 5 (.client .early) ++ List.replicate 3 (.task 0) ++
      List.replicate 6 (.client .opener) ++ List.replicate 4 (.client .late))
    (fun h _ => ∃ entry ∈ h, deceived entry)
    (by decide +kernel)

theorem not_subscriptions_kept :
    ¬ ∀ (κ β : Type) [DecidableEq κ] (self : MT5Provider) (calls : κ → SessionCall β)
      (rounds : ℕ → ℕ) (h : SessionHistory κ β) (c : SessionConfig κ β),
      SessionRun self calls rounds h c → Kept h c.world := by
  intro hall
  obtain ⟨h, c, hrun, ⟨i, u, e, a⟩, hmem, hdeceived⟩ := late_run
  obtain ⟨newer, older, rfl⟩ := List.append_of_mem hmem
  cases i with
  | task n => cases hdeceived
  | client i =>
      cases e with
      | returned result =>
          obtain ⟨hfront, hfinished⟩ := Bool.and_eq_true_iff.mp hdeceived
          obtain ⟨hresult, htask⟩ := Bool.and_eq_true_iff.mp hfront
          obtain ⟨n, -, ⟨hn, -⟩, -, ⟨-, hunfinished⟩, -⟩ :=
            hall _ _ _ _ _ _ c hrun newer i u result a older rfl "EURUSD" (eq_of_beq hresult)
          rw [eq_of_beq htask] at hn
          cases hn
          rw [hfinished] at hunfinished
          cases hunfinished
      | _ => cases hdeceived

end Mtrader.MarketData.Lifecycle
