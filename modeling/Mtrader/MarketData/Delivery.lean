/-
  Mtrader.MarketData.Delivery

  Which clients of a provider get the ticks they have subscribed to.

  There is one stream for a symbol, with the callback of whoever subscribed first; whoever
  unsubscribes ends it for all.  And the callback of a connection raises, which ends the
  stream as well.  So a tick reaches a client whose own subscription created the stream,
  and the streams go on as long as none of this happens to a symbol somebody is
  subscribed to.
-/

import Mtrader.MarketData.Records

namespace Mtrader.MarketData

open Coroutine Py

variable {κ : Type} [DecidableEq κ] {calls : κ → ProviderCall} {rounds : ℕ → ℕ}
variable {h older : ProviderHistory κ} {c c' : ProviderConfig κ} {w w' : ProviderWorld κ}
variable {i : κ} {n : ℕ} {x : Actor κ} {ev : ProviderEvent κ}
variable {e : ProviderOp κ} {a : Except (Thrown Exc) e.Ans}

-- ============================================================================
-- What clients expect
-- ============================================================================

/-- There is a stream of the symbol, and it has not been cancelled. -/
def Running (w : ProviderWorld κ) (s : String) : Prop :=
  ∃ n callback, w.streams n = some (s, callback) ∧ w.loop.Unfinished n ∧
    w.loop.cancelled n = false

/-- A stream that has gone on after it got a tick has passed it to the callback of
    everybody who was subscribed then. -/
def Delivered (h : ProviderHistory κ) : Prop :=
  ∀ newer n w s row older, h = newer ++ (.task n, ⟨w, .copyTicks s, .ok (some row)⟩) :: older →
    (∃ ev, (.task n, ev) ∈ newer) → ∀ i, s ∈ subscriptions older i →
      ∃ ev, (.task n, ev) ∈ newer ∧ ev.op = .call (.send i) (row.tick s)

/-- Whatever somebody is subscribed to is streamed. -/
def StreamsRun (h : ProviderHistory κ) (w : ProviderWorld κ) : Prop :=
  ∀ i, ∀ s ∈ subscriptions h i, Running w s

/-- A stream that gets a tick was created for the client who is subscribed then. -/
def OwnTicks (h : ProviderHistory κ) : Prop :=
  ∀ n w s row older, (.task n, ⟨w, .copyTicks s, .ok (some row)⟩) :: older <:+ h →
    ∀ i, s ∈ subscriptions older i → w.streams n = some (s, .send i)

/-- What must not happen to a symbol that somebody is subscribed to. -/
structure Steady (calls : κ → ProviderCall) (h : ProviderHistory κ) : Prop where
  /-- The terminal selects a symbol that is not in `_tasks`, or a stream of it runs. -/
  selects : ∀ i w s ok older, (.client i, ⟨w, .symbolSelect s true, .ok ok⟩) :: older <:+ h →
    (calls i).isSocket → ok = true ∧ w.tasks s = none ∨ Running w s
  /-- Nobody cancels its stream. -/
  cancels : ∀ i w n a older, (.client i, ⟨w, .cancel n, a⟩) :: older <:+ h →
    ∀ s callback, w.streams n = some (s, callback) → ∀ j, s ∉ subscriptions older j
  /-- The terminal does not raise when it is asked for a tick. -/
  reads : ∀ n w s x older, (.task n, ⟨w, .copyTicks s, .error x⟩) :: older <:+ h →
    ∀ j, s ∉ subscriptions older j
  /-- No callback of a connection is called with a tick of it. -/
  passes : ∀ n w i tick a older, (.task n, ⟨w, .call (.send i) tick, a⟩) :: older <:+ h →
    ∀ j, tick.symbol ∉ subscriptions older j

-- ============================================================================
-- Ticks
-- ============================================================================

/-- The first thing that a stream does with a tick is to call the callback with it. -/
theorem passed_of_run {newer : ProviderHistory κ} {s : String} {row : TickRow}
    {callback : Callback κ} (hcallback : w.streams n = some (s, callback))
    (hrun : ProviderRun calls rounds
      (newer ++ (.task n, ⟨w, .copyTicks s, .ok (some row)⟩) :: older) c) :
    (∀ ev, (.task n, ev) ∉ newer) ∨
      ∃ ev, (.task n, ev) ∈ newer ∧ ev.op = .call callback (row.tick s) := by
  obtain ⟨c₁, c₂, hr, hs⟩ := hrun.entry (List.suffix_append newer _)
  obtain ⟨callback', hreading⟩ := (streamMove_of_step hr hs).1
  obtain rfl : w = c₁.world := hs.pre_eq
  have hstream := (recorded_of_run hr).streams n (s, callback') (by rw [hreading]; rfl)
  rw [hcallback] at hstream
  cases hstream
  have hholding : streaming ((.task n, ⟨c₁.world, .copyTicks s, .ok (some row)⟩) :: older) n =
      .holding s callback row := by
    rw [streaming_self, hreading]
    rfl
  refine (hrun.next_may (streamProg_obeys (rounds n))).imp_right ?_
  rintro ⟨ev, hmem, hmay⟩
  rw [← streaming, hholding] at hmay
  exact ⟨ev, hmem, may_holding hmay⟩

theorem delivered_of_own (hrun : ProviderRun calls rounds h c) (hown : OwnTicks h) :
    Delivered h := by
  rintro newer n w s row older rfl ⟨ev, hev⟩ i hi
  have hcallback := hown n w s row older (List.suffix_append _ _) i hi
  rcases passed_of_run hcallback hrun with hnone | hpassed
  · exact absurd hev (hnone ev)
  · exact hpassed

-- ============================================================================
-- Streams that go on
-- ============================================================================

/-- Task `n` streams the symbol, and neither a cancellation nor anything it has done ends
    it. -/
structure Alive (h : ProviderHistory κ) (w : ProviderWorld κ) (s : String) (n : ℕ) : Prop where
  streams : ∃ callback, w.streams n = some (s, callback)
  uncancelled : w.loop.cancelled n = false
  going : (streaming h n).going

def Watched (h : ProviderHistory κ) (w : ProviderWorld κ) (s : String) : Prop :=
  ∃ n, Alive h w s n

theorem Alive.running {s : String} (halive : Alive h w s n) (hrec : Recorded h w) :
    Running w s := by
  obtain ⟨callback, hstream⟩ := halive.streams
  refine ⟨n, callback, hstream, ⟨hrec.created n _ hstream, ?_⟩, halive.uncancelled⟩
  cases hfinished : w.loop.finished n with
  | false => rfl
  | true =>
      have hgoing := halive.going
      rw [(hrec.finished n).mp hfinished] at hgoing
      cases hgoing

theorem Running.watched {s : String} (hrunning : Running w s) (hrec : Recorded h w)
    (hended : ∀ n, streaming h n ≠ .ended) : Watched h w s := by
  obtain ⟨n, callback, hstream, hunfinished, huncancelled⟩ := hrunning
  refine ⟨n, ⟨callback, hstream⟩, huncancelled, ?_⟩
  cases hstage : streaming h n with
  | ended => exact absurd hstage (hended n)
  | done =>
      have hfinished := (hrec.finished n).mpr hstage
      rw [hunfinished.2] at hfinished
      cases hfinished
  | _ => rfl

/-- What a call of `subscribe_ticks` has seen to. -/
def Doing.Knows (watched : String → Prop) (w : ProviderWorld κ) : Doing → Prop
  | .idle => True
  | .subscribing done => ∀ s ∈ done, watched s
  | .selected done s => (∀ t ∈ done, watched t) ∧ (w.tasks s = none ∨ watched s)
  | .absent done _ => ∀ t ∈ done, watched t

omit [DecidableEq κ] in
theorem Doing.Knows.move {watched watched' : String → Prop} {d d' : Doing}
    (hmove : ClientMove w d e a d' w') (hknows : d.Knows watched w)
    (hkeep : d ≠ .idle → ∀ s, watched s → watched' s)
    (hnew : ∀ s callback, w' = w.createTask s callback → watched' s)
    (hselects : ∀ s ok, (⟨w, e, a⟩ : ProviderEvent κ) = ⟨w, .symbolSelect s true, .ok ok⟩ →
      ok = true ∧ w.tasks s = none ∨ watched s) : d'.Knows watched' w' := by
  cases hmove with
  | idle => exact trivial
  | start => exact fun s hs => nomatch hs
  | @select done s =>
      refine ⟨fun t ht => hkeep nofun t (hknows t ht), ?_⟩
      rcases hselects s true rfl with ⟨-, hnone⟩ | hwatched
      · exact .inl hnone
      · exact .inr (hkeep nofun s hwatched)
  | @refuse done s =>
      intro t ht
      rcases List.mem_cons.mp ht with rfl | ht
      · rcases hselects t false rfl with ⟨hok, -⟩ | hwatched
        · cases hok
        · exact hkeep nofun t hwatched
      · exact hkeep nofun t (hknows t ht)
  | present hpresent =>
      intro t ht
      rcases List.mem_cons.mp ht with rfl | ht
      · rcases hknows.2 with hnone | hwatched
        · rw [hnone] at hpresent
          cases hpresent
        · exact hkeep nofun t hwatched
      · exact hkeep nofun t (hknows.1 t ht)
  | absent => exact fun t ht => hkeep nofun t (hknows.1 t ht)
  | @create done s callback =>
      intro t ht
      rcases List.mem_cons.mp ht with rfl | ht
      · exact hnew t callback rfl
      · exact hkeep nofun t (hknows t ht)
  | pop => exact trivial
  | cancel => exact trivial

/-- Every symbol that somebody has subscribed to is watched, and so is every symbol that a
    call of `subscribe_ticks` is done with. -/
structure Served (calls : κ → ProviderCall) (h : ProviderHistory κ) (w : ProviderWorld κ) :
    Prop where
  knows : ∀ i, (calls i).isSocket → (doing calls h i).Knows (Watched h w) w
  live : ∀ i, ∀ s ∈ subscriptions h i, Watched h w s

theorem served_start : Served calls [] {} where
  knows _ _ := trivial
  live _ _ hs := nomatch hs

/-- What a connection does, it does to no stream but the one it cancels. -/
theorem Alive.client {s : String} {d d' : Doing} (halive : Alive h w s n) (hrec : Recorded h w)
    (hmove : ClientMove w d e a d' w') (hcancel : ∀ m, e = .cancel m → n ≠ m) :
    Alive ((.client i, ⟨w, e, a⟩) :: h) w' s n := by
  have hgoing : (streaming ((.client i, ⟨w, e, a⟩) :: h) n).going := by
    rw [streaming_client]
    exact halive.going
  obtain ⟨callback, hstream⟩ := halive.streams
  cases hmove with
  | create =>
      refine ⟨⟨callback, ?_⟩, halive.uncancelled, hgoing⟩
      rw [ProviderWorld.streams_createTask_old (hrec.created n _ hstream).ne]
      exact hstream
  | pop => exact ⟨⟨callback, hstream⟩, halive.uncancelled, hgoing⟩
  | @cancel m =>
      refine ⟨⟨callback, hstream⟩, ?_, hgoing⟩
      by_contra hcancelled
      rcases Tasks.cancelled_cancel.mp (Bool.eq_true_of_not_eq_false hcancelled) with hn | hn
      · rw [halive.uncancelled] at hn
        cases hn
      · exact hcancel m rfl hn.1
  | _ => exact ⟨⟨callback, hstream⟩, halive.uncancelled, hgoing⟩

/-- A task that has just been created streams its symbol. -/
theorem Recorded.watched_new {s : String} {callback : Callback κ} (hrec : Recorded h w)
    (hw' : w' = w.createTask s callback) : Watched ((.client i, ⟨w, e, a⟩) :: h) w' s := by
  subst hw'
  refine ⟨w.loop.created, ⟨callback, ProviderWorld.streams_createTask_new⟩, ?_, ?_⟩
  · exact hrec.sound.uncancelled
  · rw [streaming_client]
    by_contra hgoing
    refine lt_irrefl _ (hrec.begun w.loop.created fun hfresh => hgoing ?_)
    rw [hfresh]
    rfl

theorem Served.client (hserved : Served calls h w) (hrec : Recorded h w)
    (hmay : (doingFlow (calls i).isSocket).may (doing calls h i) e)
    (hmove : ClientMove w (doing calls h i) e a ((doing calls h i).next e a) w')
    (hbusy : ∀ j, doing calls h j ≠ .idle → j = i)
    (hselects : ∀ s ok, (⟨w, e, a⟩ : ProviderEvent κ) = ⟨w, .symbolSelect s true, .ok ok⟩ →
      (calls i).isSocket → ok = true ∧ w.tasks s = none ∨ Watched h w s)
    (hcancels : ∀ m, e = .cancel m → ∀ s callback, w.streams m = some (s, callback) →
      ∀ j, s ∉ subscriptions h j) : Served calls ((.client i, ⟨w, e, a⟩) :: h) w' := by
  have hkeep : ∀ s, (∀ m, e = .cancel m → ∃ j, s ∈ subscriptions h j) → Watched h w s →
      Watched ((.client i, ⟨w, e, a⟩) :: h) w' s := by
    rintro s hs ⟨n, halive⟩
    refine ⟨n, halive.client hrec hmove ?_⟩
    rintro m he rfl
    obtain ⟨callback, hstream⟩ := halive.streams
    obtain ⟨j, hj⟩ := hs n he
    exact hcancels n he s callback hstream j hj
  constructor
  case knows =>
    intro j hsocket
    by_cases hij : j = i
    · subst hij
      rw [doing_self]
      refine Doing.Knows.move hmove (hserved.knows j hsocket) ?_ ?_ ?_
      · intro hbusy s
        refine hkeep s fun m he => ?_
        subst he
        exact absurd hmay hbusy
      · exact fun s callback hw' => hrec.watched_new hw'
      · exact fun s ok heq => hselects s ok heq hsocket
    · rw [doing_other fun heq => hij (Actor.client.inj heq).symm]
      have hidle : doing calls h j = .idle := by
        by_contra hdoing
        exact hij (hbusy j hdoing)
      rw [hidle]
      exact trivial
  case live =>
    intro j s hs
    have hold : s ∈ subscriptions h j → Watched ((.client i, ⟨w, e, a⟩) :: h) w' s :=
      fun hold => hkeep s (fun _ _ => ⟨j, hold⟩) (hserved.live j s hold)
    by_cases hij : j = i
    · subst hij
      rw [subscriptions_self] at hs
      rcases mem_liveNext hmay hs with hs | ⟨⟨symbols, rfl⟩, hsocket, done, hdone, hs⟩
      · exact hold hs
      · have hknows := hserved.knows j hsocket
        rw [hdone] at hknows
        exact hkeep s nofun (hknows s hs)
    · rw [subscriptions_other fun heq => hij (Actor.client.inj heq).symm] at hs
      exact hold hs

omit [DecidableEq κ] in
theorem StreamMove.going {p p' : Streaming κ} (hmove : StreamMove n w p e a p' w')
    (hp : p.going) (hconnected : w.connected = true) (huninterrupted : ¬ w.loop.cancelling n)
    (hreads : ∀ s callback x, p.of = some (s, callback) →
      (⟨w, e, a⟩ : ProviderEvent κ) ≠ ⟨w, .copyTicks s, .error x⟩)
    (hpasses : ∀ s callback i tick, p.of = some (s, callback) → tick.symbol = s →
      e ≠ .call (.send i) tick) : p'.going := by
  cases hmove with
  | interrupt _ _ hcancelling => exact absurd hcancelling huninterrupted
  | raise => exact absurd rfl (hpasses _ _ _ _ rfl rfl)
  | fail => exact absurd rfl (hreads _ _ _ rfl)
  | disconnected hoff =>
      rw [hconnected] at hoff
      cases hoff
  | finish => cases hp
  | _ => rfl

theorem Served.stream (hserved : Served calls h w) (hrec : Recorded h w)
    (hmove : StreamMove n w (streaming h n) e a ((streaming h n).next e a) w')
    (hidle : ∀ j, doing calls h j = .idle)
    (hreads : ∀ s x, (⟨w, e, a⟩ : ProviderEvent κ) = ⟨w, .copyTicks s, .error x⟩ →
      ∀ j, s ∉ subscriptions h j)
    (hpasses : ∀ i tick, e = .call (.send i) tick → ∀ j, tick.symbol ∉ subscriptions h j) :
    Served calls ((.task n, ⟨w, e, a⟩) :: h) w' := by
  have hw := hmove.untouched
  constructor
  case knows =>
    intro j _
    rw [doing_task, hidle j]
    exact trivial
  case live =>
    intro j s hs
    rw [subscriptions_task] at hs
    obtain ⟨m, ⟨callback, hstream⟩, huncancelled, hgoing⟩ := hserved.live j s hs
    rw [← hw.streams] at hstream
    refine ⟨m, ⟨callback, hstream⟩, by rw [hmove.stageMove.cancelled_eq]; exact huncancelled, ?_⟩
    rw [hw.streams] at hstream
    by_cases hmn : m = n
    · subst hmn
      have hsymbol : ∀ s' callback', (streaming h m).of = some (s', callback') → s' = s := by
        intro s' callback' hof
        have heq := hrec.streams m _ hof
        rw [hstream] at heq
        cases heq
        rfl
      rw [streaming_self]
      refine hmove.going hgoing hrec.connected ?_ ?_ ?_
      · intro hcancelling
        have hcancelled := hrec.sound.cancelling m hcancelling
        rw [huncancelled] at hcancelled
        cases hcancelled
      · intro s' callback' x hof heq
        rw [hsymbol s' callback' hof] at heq
        exact hreads s x heq j hs
      · intro s' callback' i tick hof htick he
        rw [hsymbol s' callback' hof] at htick
        refine hpasses i tick he j ?_
        rw [htick]
        exact hs
    · rw [streaming_other fun heq => hmn (Actor.task.inj heq).symm]
      exact hgoing

theorem Steady.of_suffix {h' : ProviderHistory κ} (hsteady : Steady calls h)
    (hsuf : h' <:+ h) : Steady calls h' where
  selects i w s ok older hold := hsteady.selects i w s ok older (hold.trans hsuf)
  cancels i w n a older hold := hsteady.cancels i w n a older (hold.trans hsuf)
  reads n w s x older hold := hsteady.reads n w s x older (hold.trans hsuf)
  passes n w i tick a older hold := hsteady.passes n w i tick a older (hold.trans hsuf)

theorem served_of_run (hrun : ProviderRun calls rounds h c) (hsteady : Steady calls h) :
    Served calls h c.world := by
  induction hrun with
  | nil => exact served_start
  | @cons h c c' x ev hr hs ih =>
      have hserved := ih (hsteady.of_suffix (List.suffix_cons _ _))
      have hrec := recorded_of_run hr
      have hpre := hs.pre_eq
      have hdoing : ∀ j, doing calls h j ≠ .idle → x = .client j :=
        fun j hj => hs.eq_of_running (running_of_doing hr hj)
      have hended : ∀ n, streaming h n = .ended → x = .task n :=
        fun n hn => hs.eq_of_running (running_of_ended hr hn)
      cases x with
      | client i =>
          obtain ⟨hmay, hmove⟩ := clientMove_of_step hr hs
          rw [← hpre] at hmove hserved hrec
          refine hserved.client hrec hmay hmove ?_ ?_ ?_
          · exact fun j hj => (Actor.client.inj (hdoing j hj)).symm
          · intro s ok heq hsocket
            have hsuf : (.client i, ⟨ev.pre, .symbolSelect s true, .ok ok⟩) :: h <:+
                (.client i, ev) :: h := by
              rw [← heq]
            refine (hsteady.selects i _ s ok h hsuf hsocket).imp_right fun hrunning => ?_
            exact hrunning.watched hrec fun n hn => nomatch hended n hn
          · intro m he s callback hstream
            obtain ⟨w, e, a⟩ := ev
            subst he
            exact hsteady.cancels i w m a h List.suffix_rfl s callback hstream
      | task n =>
          have hmove := (streamMove_of_step hr hs).2
          rw [← hpre] at hmove hserved hrec
          refine hserved.stream hrec hmove ?_ ?_ ?_
          · intro j
            by_contra hj
            cases hdoing j hj
          · intro s x heq
            have hsuf : (.task n, ⟨ev.pre, .copyTicks s, .error x⟩) :: h <:+
                (.task n, ev) :: h := by
              rw [← heq]
            exact hsteady.reads n _ s x h hsuf
          · intro i tick he
            obtain ⟨w, e, a⟩ := ev
            subst he
            exact hsteady.passes n w i tick a h List.suffix_rfl

theorem ticks_served (hrun : ProviderRun calls rounds h c) :
    (OwnTicks h → Delivered h) ∧ (Steady calls h → StreamsRun h c.world) := by
  refine ⟨delivered_of_own hrun, fun hsteady i s hs => ?_⟩
  obtain ⟨n, halive⟩ := (served_of_run hrun hsteady).live i s hs
  exact halive.running (recorded_of_run hrun)

-- ============================================================================
-- Scenes
-- ============================================================================

/-- A terminal that selects every symbol and has the same row each time, or none; what the
    connections send depends on the provider. -/
def feedHandler (row : Option TickRow) (sends : κ → ProviderWorld κ → Received) (i : Actor κ) :
    Handler (ProviderWorld κ) (ProviderAns κ) (Thrown Exc) :=
  fun w e =>
    if e.suspends && w.loop.interrupts i then
      some (.error .cancelled, { w with loop := w.loop.interrupt i })
    else match e with
      | .begin => match i with
        | .client _ => none
        | .task n => (w.streams n).map fun stream => (.ok stream, w)
      | .finish => match i with
        | .client _ => some (.ok (), w)
        | .task n => some (.ok (), { w with loop := w.loop.finish n })
      | .accept => some (.ok (), w)
      | .receiveJson => match i with
        | .client j => some (.ok (sends j w), w)
        | .task _ => none
      | .request => some (.ok (), w)
      | .respond _ => some (.ok (), w)
      | .extend _ => some (.ok (), w)
      | .symbolSelect .. => some (.ok true, w)
      | .inTasks symbol => some (.ok (w.tasks symbol).isSome, w)
      | .createTask symbol callback => some (.ok (), w.createTask symbol callback)
      | .popTask symbol => some (.ok (w.tasks symbol), w.popTask symbol)
      | .cancel n => some (.ok (), { w with loop := w.loop.cancel n })
      | .gather n => if w.loop.finished n then some (.ok (), w) else none
      | .isConnected => some (.ok w.connected, w)
      | .copyTicks _ => some (.ok row, w)
      | .call .. => some (.ok (), w)
      | .sendJson _ => some (.ok (), w)
      | .sleep _ => some (.ok (), w)
      | .wait => none

omit [DecidableEq κ] in
theorem feedHandler_sound (row : Option TickRow) (sends : κ → ProviderWorld κ → Received)
    (i : Actor κ) (w : ProviderWorld κ) (e : ProviderOp κ) (a : Except (Thrown Exc) e.Ans)
    (w' : ProviderWorld κ) (h : feedHandler row sends i w e = some (a, w')) :
    providerEnv i w e a w' := by
  unfold feedHandler at h
  unfold providerEnv
  split
  next hinterrupted =>
    rw [if_pos hinterrupted] at h
    cases h
    exact ⟨rfl, rfl⟩
  next hinterrupted =>
    rw [if_neg hinterrupted] at h
    cases e with
    | begin =>
        cases i with
        | client i => cases h
        | task n =>
            obtain ⟨stream, hstream, heq⟩ := Option.map_eq_some_iff.mp h
            cases heq
            exact ⟨n, stream, rfl, hstream, rfl, rfl⟩
    | finish =>
        cases i with
        | client i =>
            cases h
            exact ⟨rfl, rfl⟩
        | task n =>
            cases h
            exact ⟨rfl, rfl⟩
    | receiveJson =>
        cases i with
        | client i =>
            cases h
            exact ⟨.inl ⟨_, rfl⟩, rfl⟩
        | task n => cases h
    | symbolSelect symbol enable =>
        cases h
        exact ⟨.inl ⟨_, rfl⟩, rfl⟩
    | copyTicks symbol =>
        cases h
        exact ⟨.inl ⟨_, rfl⟩, rfl⟩
    | sendJson fields =>
        cases h
        exact ⟨.inl ⟨_, rfl⟩, rfl⟩
    | gather n =>
        obtain ⟨hn, heq⟩ := Option.ite_none_right_eq_some.mp h
        cases heq
        exact ⟨hn, rfl, rfl⟩
    | wait => cases h
    | _ =>
        cases h
        exact ⟨rfl, rfl⟩

/-- Nothing happens that a subscription could suffer from. -/
def undisturbed : ProviderEvent κ → Bool
  | ⟨w, .symbolSelect s true, .ok ok⟩ => ok && (w.tasks s).isNone
  | ⟨_, .cancel _, _⟩ => false
  | ⟨_, .copyTicks _, .error _⟩ => false
  | ⟨_, .call (.send _) _, _⟩ => false
  | _ => true

theorem steady_of_undisturbed (hall : ∀ entry ∈ h, undisturbed entry.2) : Steady calls h := by
  constructor
  case selects =>
    intro i w s ok older hsuf _
    have hquiet : (ok && (w.tasks s).isNone) = true := hall _ (hsuf.subset List.mem_cons_self)
    obtain ⟨hok, hnone⟩ := Bool.and_eq_true_iff.mp hquiet
    exact .inl ⟨hok, Option.isNone_iff_eq_none.mp hnone⟩
  case cancels =>
    intro i w n a older hsuf
    cases hall _ (hsuf.subset List.mem_cons_self)
  case reads =>
    intro n w s x older hsuf
    cases hall _ (hsuf.subset List.mem_cons_self)
  case passes =>
    intro n w i tick a older hsuf
    cases hall _ (hsuf.subset List.mem_cons_self)

inductive Solo
  | me
  deriving DecidableEq

/-- The stream was created for the only client. -/
def ownTick : Actor Solo × ProviderEvent Solo → Bool
  | (.task n, ⟨w, .copyTicks s, .ok (some _)⟩) => w.streams n = some (s, .send .me)
  | _ => true

theorem own_of_ownTick {h : ProviderHistory Solo} (hall : ∀ entry ∈ h, ownTick entry) :
    OwnTicks h := by
  rintro n w s row older hsuf ⟨⟩ -
  exact of_decide_eq_true (hall _ (hsuf.subset List.mem_cons_self))

def subscribeEurusd : Received := .message { action := some "subscribe", symbols := ["EURUSD"] }

def testRow : TickRow where
  bid := 1
  ask := 2
  time := 0
  volume := 0

def calledMe : ProviderEvent Solo → Bool
  | ⟨_, .call (.send .me) _, _⟩ => true
  | _ => false

/-- The client subscribes, and its stream goes round. -/
def subscribed : List (Actor Solo) :=
  List.replicate 6 (.client .me) ++ List.replicate 4 (.task 0)

theorem solo_tick_run :
    ∃ h c, ProviderRun (fun _ : Solo => .ticks 5) (fun _ => 5) h c ∧
      (∃ entry ∈ h, calledMe entry.2) ∧ ∀ entry ∈ h, ownTick entry :=
  Config.exists_run (feedHandler_sound (some testRow) fun _ _ => subscribeEurusd) subscribed
    (fun h _ => (∃ entry ∈ h, calledMe entry.2) ∧ ∀ entry ∈ h, ownTick entry)
    (by decide +kernel)

theorem solo_quiet_run :
    ∃ h c, ProviderRun (fun _ : Solo => .ticks 5) (fun _ => 5) h c ∧
      "EURUSD" ∈ subscriptions h .me ∧ ∀ entry ∈ h, undisturbed entry.2 :=
  Config.exists_run (feedHandler_sound none fun _ _ => subscribeEurusd) subscribed
    (fun h _ => "EURUSD" ∈ subscriptions h .me ∧ ∀ entry ∈ h, undisturbed entry.2)
    (by decide +kernel)

theorem ticks_served_solo :
    (∃ h c, ProviderRun (fun _ : Solo => .ticks 5) (fun _ => 5) h c ∧
      (∃ entry ∈ h, calledMe entry.2) ∧ OwnTicks h ∧ Delivered h) ∧
    ∃ h c, ProviderRun (fun _ : Solo => .ticks 5) (fun _ => 5) h c ∧
      "EURUSD" ∈ subscriptions h .me ∧ Steady (fun _ => .ticks 5) h ∧
        StreamsRun h c.world := by
  constructor
  · obtain ⟨h, c, hrun, hcalled, hall⟩ := solo_tick_run
    have hown := own_of_ownTick hall
    exact ⟨h, c, hrun, hcalled, hown, (ticks_served hrun).1 hown⟩
  · obtain ⟨h, c, hrun, hlive, hall⟩ := solo_quiet_run
    have hsteady : Steady (fun _ => .ticks 5) h := steady_of_undisturbed hall
    exact ⟨h, c, hrun, hlive, hsteady, (ticks_served hrun).2 hsteady⟩

inductive Pair
  | first | second
  deriving DecidableEq

/-- Both subscribe, and the first disconnects. -/
def pairSends : Pair → ProviderWorld Pair → Received
  | .first, w => if w.loop.created = 0 then subscribeEurusd else .disconnected
  | .second, _ => subscribeEurusd

/-- The second is subscribed to a symbol whose stream the first has ended. -/
theorem pair_run :
    ∃ h c, ProviderRun (fun _ : Pair => .ticks 5) (fun _ => 5) h c ∧
      "EURUSD" ∈ subscriptions h .second ∧ c.world.loop.created = 1 ∧
        c.world.loop.finished 0 = true :=
  Config.exists_run (feedHandler_sound none pairSends)
    (List.replicate 6 (.client .first) ++ List.replicate 5 (.client .second) ++
      List.replicate 3 (.task 0) ++ List.replicate 3 (.client .first) ++
      List.replicate 2 (.task 0) ++ List.replicate 2 (.client .first))
    (fun h c => "EURUSD" ∈ subscriptions h .second ∧ c.world.loop.created = 1 ∧
      c.world.loop.finished 0 = true)
    (by decide +kernel)

theorem not_ticks_served :
    ¬ ∀ (κ : Type) [DecidableEq κ] (calls : κ → ProviderCall) (rounds : ℕ → ℕ)
      (h : ProviderHistory κ) (c : ProviderConfig κ), ProviderRun calls rounds h c →
        Delivered h ∧ StreamsRun h c.world := by
  intro hall
  obtain ⟨h, c, hrun, hlive, hcreated, hfinished⟩ := pair_run
  obtain ⟨n, callback, -, ⟨hlt, hunfinished⟩, -⟩ := (hall _ _ _ h c hrun).2 .second _ hlive
  obtain rfl : n = 0 := by omega
  rw [hfinished] at hunfinished
  cases hunfinished

end Mtrader.MarketData
