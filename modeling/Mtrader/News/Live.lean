/-
  Mtrader.News.Live

  `start_live_updates` of `EconomicCalendar` in `calendar/engine.py`.

  A poll is what the providers answer to one `fetch_events`; the loop is observed for as
  many polls as there are in a list.  `fetched` records what the polls have returned, so
  that what is broadcast can be compared with it (`Announced`).
-/

import Mathlib.Data.List.Destutter
import Mtrader.News.Calendar

namespace Mtrader.News

open Py

-- ============================================================================
-- The loop
-- ============================================================================

def noDict : Exc := .attributeError "'EconomicEvent' object has no attribute '__dict__'"

/-- `event.__dict__`, the fields of an event: an instance of a dataclass with slots has
    none. -/
def EconomicEvent.dict (_ : EconomicEvent) : Except Exc EconomicEvent := .error noDict

/-- Which of `db_repository` and `ws_broadcaster` there are. -/
structure Wiring where
  dbRepository : Bool
  wsBroadcaster : Bool

structure Live where
  running : Bool := false
  /-- The events the repository has been given, the latest last. -/
  upserts : List EconomicEvent := []
  /-- What has been broadcast, with its channel. -/
  broadcasts : List (String × EconomicEvent) := []
  /-- The events that `fetch_events` has returned. -/
  fetched : List EconomicEvent := []
  deriving DecidableEq

abbrev LiveM : Type → Type := ExceptT Exc (StateM Live)

/-- The repository has stored the last `actual` that was upserted for an id. -/
def getEventActual (id : String) : LiveM (Option String) := do
  let live ← get
  return (live.upserts.reverse.find? fun e => e.id = id).bind EconomicEvent.actual

def upsertEvent (fields : EconomicEvent) : LiveM Unit :=
  modify fun live => { live with upserts := live.upserts ++ [fields] }

/-- `broadcast(channel, {"event": fields})` -/
def broadcast (channel : String) (fields : EconomicEvent) : LiveM Unit :=
  modify fun live => { live with broadcasts := live.broadcasts ++ [(channel, fields)] }

/-- `old_actual`: without a repository it is `None` in every poll. -/
def oldActual (wiring : Wiring) (event : EconomicEvent) : LiveM (Option String) :=
  if wiring.dbRepository then getEventActual event.id else pure none

/-- The body of the loop over the events of a poll. -/
def update (wiring : Wiring) (event : EconomicEvent) : LiveM Unit := do
  let oldActual ← oldActual wiring event
  if oldActual ≠ event.actual then
    if wiring.dbRepository then
      upsertEvent (← event.dict)
    if wiring.wsBroadcaster then
      broadcast "calendar_updates" (← event.dict)

def updateAll (wiring : Wiring) : List EconomicEvent → LiveM Unit
  | [] => pure ()
  | event :: events => do
      update wiring event
      updateAll wiring events

/-- `fetch_events(now, now + timedelta(hours=6), impact=["high"])`, when the providers
    answer with some batches. -/
def highImpact (allBatches : List Batch) : List EconomicEvent :=
  merged allBatches none (some ["high"])

def fetch (allBatches : List Batch) : LiveM (List EconomicEvent) := do
  modify fun live => { live with fetched := live.fetched ++ highImpact allBatches }
  return highImpact allBatches

/-- `while self._running`, for as many polls as are observed. -/
def poll (wiring : Wiring) : List (List Batch) → LiveM Unit
  | [] => pure ()
  | allBatches :: polls => do
      let events ← fetch allBatches
      updateAll wiring events
      poll wiring polls

def startLiveUpdates (wiring : Wiring) (polls : List (List Batch)) : LiveM Unit := do
  modify fun live => { live with running := true }
  poll wiring polls

/-- The outcome of a computation, and the state it leaves. -/
def outcome {α : Type} (x : LiveM α) (live : Live) : Except Exc α × Live := x.run.run live

-- ============================================================================
-- What is announced
-- ============================================================================

/-- The values that differ from the one before; before the first is `None`. -/
def changes (actuals : List (Option String)) : List (Option String) :=
  (actuals.destutter' (· ≠ ·) none).tail

/-- What was broadcast of an event are the changes of what was fetched of it. -/
def Announced (live : Live) (id : String) : Prop :=
  ((live.broadcasts.map Prod.snd).filter fun e => e.id = id).map EconomicEvent.actual =
    changes ((live.fetched.filter fun e => e.id = id).map EconomicEvent.actual)

instance (live : Live) (id : String) : Decidable (Announced live id) :=
  inferInstanceAs (Decidable (_ = _))

theorem changes_eq_nil {actuals : List (Option String)} :
    changes actuals = [] ↔ ∀ a ∈ actuals, a = none := by
  induction actuals with
  | nil => simp [changes]
  | cons a actuals ih =>
      unfold changes at ih ⊢
      cases a with
      | none =>
          rw [List.destutter'_cons_neg actuals (by simp), ih, List.forall_mem_cons]
          exact (and_iff_right rfl).symm
      | some v =>
          rw [List.destutter'_cons_pos actuals (by simp), List.tail_cons]
          refine iff_of_false (List.destutter'_ne_nil _ _) fun h => ?_
          cases h (some v) List.mem_cons_self

/-- Where nothing is broadcast, that is right only if no event has ever had a value. -/
theorem announced_iff_of_silent {live : Live} (hsilent : live.broadcasts = []) :
    (∀ id, Announced live id) ↔ ∀ e ∈ live.fetched, e.actual = none := by
  have hannounced : ∀ id, Announced live id ↔
      ∀ e ∈ live.fetched, e.id = id → e.actual = none := by
    intro id
    rw [Announced, hsilent, List.map_nil, List.filter_nil, List.map_nil, eq_comm, changes_eq_nil,
      List.forall_mem_map]
    simp only [List.mem_filter, decide_eq_true_eq, and_imp]
  constructor
  · exact fun h e he => (hannounced e.id).mp (h e.id) e he rfl
  · exact fun h id => (hannounced id).mpr fun e he _ => h e he

-- ============================================================================
-- What the loop does
-- ============================================================================

variable {db : Bool}

theorem outcome_bind {α β : Type} (x : LiveM α) (f : α → LiveM β) (live : Live) :
    outcome (x >>= f) live =
      match outcome x live with
      | (.ok a, live') => outcome (f a) live'
      | (.error e, live') => (.error e, live') := by
  unfold outcome
  rw [ExceptT.run_bind, StateT.run_bind]
  rcases x.run.run live with ⟨r, live'⟩
  cases r with
  | ok a => rfl
  | error e => rfl

/-- An event without a value is passed over, as the value stored for it is none; one with a
    value needs `__dict__` before anything is stored or sent. -/
theorem outcome_update {live : Live} (hempty : live.upserts = []) (event : EconomicEvent) :
    outcome (update ⟨db, true⟩ event) live =
      (if event.actual = none then .ok () else .error noDict, live) := by
  have hold : outcome (oldActual ⟨db, true⟩ event) live = (.ok none, live) := by
    cases db with
    | false => rfl
    | true =>
        show (Except.ok ((live.upserts.reverse.find? _).bind _), live) = _
        rw [hempty]
        rfl
  rw [update, outcome_bind, hold]
  by_cases hactual : event.actual = none
  · simp only [hactual, ne_eq, not_true_eq_false, if_false, if_true]
    rfl
  · -- the first thing to do needs `__dict__`
    simp only [Ne.symm hactual, ne_eq, not_false_eq_true, if_true, if_neg hactual]
    cases db with
    | false => rfl
    | true => rfl

theorem outcome_updateAll {live : Live} (hempty : live.upserts = [])
    (events : List EconomicEvent) :
    outcome (updateAll ⟨db, true⟩ events) live =
      (if ∀ e ∈ events, e.actual = none then .ok () else .error noDict, live) := by
  induction events with
  | nil => rfl
  | cons event events ih =>
      rw [updateAll, outcome_bind, outcome_update hempty]
      by_cases hactual : event.actual = none
      · rw [if_pos hactual]
        show outcome (updateAll _ events) live = _
        rw [ih]
        simp only [List.forall_mem_cons, hactual, true_and]
      · rw [if_neg hactual, if_neg fun h => hactual (h event List.mem_cons_self)]

/-- What is fetched: the loop does not outlive a poll with a value. -/
def fetchedIn : List (List Batch) → List EconomicEvent
  | [] => []
  | allBatches :: polls =>
      highImpact allBatches ++
        if ∀ e ∈ highImpact allBatches, e.actual = none then fetchedIn polls else []

theorem mem_fetchedIn {polls : List (List Batch)} :
    (∀ e ∈ fetchedIn polls, e.actual = none) ↔
      ∀ allBatches ∈ polls, ∀ e ∈ highImpact allBatches, e.actual = none := by
  induction polls with
  | nil => exact iff_of_true (fun _ h => by cases h) fun _ h => by cases h
  | cons allBatches polls ih =>
      rw [fetchedIn, List.forall_mem_append, List.forall_mem_cons]
      by_cases hnone : ∀ e ∈ highImpact allBatches, e.actual = none
      · rw [if_pos hnone, ih]
      · exact iff_of_false (fun h => hnone h.1) fun h => hnone h.1

/-- No poll stores or sends anything. -/
theorem outcome_poll (live : Live) (hempty : live.upserts = []) (polls : List (List Batch)) :
    (outcome (poll ⟨db, true⟩ polls) live).2 =
      { live with fetched := live.fetched ++ fetchedIn polls } := by
  induction polls generalizing live with
  | nil =>
      rw [fetchedIn, List.append_nil]
      rfl
  | cons allBatches polls ih =>
      let live' := { live with fetched := live.fetched ++ highImpact allBatches }
      have hlive' : live'.upserts = [] := hempty
      rw [poll, outcome_bind]
      show (outcome (updateAll ⟨db, true⟩ (highImpact allBatches) >>= fun _ =>
        poll ⟨db, true⟩ polls) live').2 = _
      rw [outcome_bind, outcome_updateAll hlive', fetchedIn]
      by_cases hnone : ∀ e ∈ highImpact allBatches, e.actual = none
      · rw [if_pos hnone, if_pos hnone]
        show (outcome (poll ⟨db, true⟩ polls) live').2 = _
        rw [ih live' hlive', ← List.append_assoc]
      · rw [if_neg hnone, if_neg hnone, List.append_nil]

-- ============================================================================
-- Announced exactly once
-- ============================================================================

/-- Whether there is a repository or not: the changes of the fetched values are broadcast if
    and only if no poll has ever fetched a value. -/
theorem startLiveUpdates_announced (db : Bool) (polls : List (List Batch)) :
    (∀ id, Announced (outcome (startLiveUpdates ⟨db, true⟩ polls) {}).2 id) ↔
      ∀ allBatches ∈ polls, ∀ e ∈ highImpact allBatches, e.actual = none := by
  have hfinal : (outcome (startLiveUpdates ⟨db, true⟩ polls) {}).2 =
      { running := true, fetched := fetchedIn polls } := by
    rw [startLiveUpdates, outcome_bind]
    exact outcome_poll { running := true } rfl polls
  rw [announced_iff_of_silent (by rw [hfinal]), hfinal]
  exact mem_fetchedIn

/-- A release of a figure with a value. -/
def release (value : String) : EconomicEvent where
  id := "cpi"
  provider := "reuters"
  time := 0
  country := "US"
  region := "US"
  eventName := "CPI"
  category := "macro"
  impact := "high"
  actual := some value

/-- The first value that is released ends the loop, and nobody hears of it. -/
theorem startLiveUpdates_release :
    let stored := outcome (startLiveUpdates ⟨true, true⟩ [[.ok [release "3.1"]]]) {}
    let unstored := outcome (startLiveUpdates ⟨false, true⟩ [[.ok [release "3.1"]]]) {}
    stored.1 = .error noDict ∧ ¬ Announced stored.2 "cpi" ∧
      unstored.1 = .error noDict ∧ ¬ Announced unstored.2 "cpi" := by
  decide

end Mtrader.News
