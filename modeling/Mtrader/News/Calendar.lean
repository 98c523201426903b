/-
  Mtrader.News.Calendar

  `EconomicEvent` and `fetch_events` of `EconomicCalendar` in `calendar/engine.py`.

  A provider is what it answers to a request for a period.  The answers of all providers
  are merged (`Merge.keep`): an event of an id replaces the one that is kept only if its
  provider has a higher priority.  `fetchEvents_winners` says what is kept without filters,
  `fetchEvents_filters` what the filters, which are applied first, change.
-/

import Mtrader.Py.Value
import Mtrader.Merge.Best

namespace Mtrader.News

open Py

-- ============================================================================
-- Events
-- ============================================================================

structure EconomicEvent where
  id : String
  provider : String
  time : Time
  country : String
  region : String
  eventName : String
  category : String
  impact : String
  forecast : Option String := none
  actual : Option String := none
  previous : Option String := none
  revised : Option String := none
  unit : Option String := none
  sentimentScore : ℚ := 0
  biasPrediction : Option String := none
  confidence : ℚ := 0
  importance : ℤ := 1
  deriving DecidableEq

/-- What a provider returns, or the exception it raises. -/
abbrev Batch : Type := Except Exc (List EconomicEvent)

/-- The coroutine `fetch_events(start_date, end_date)` of a provider. -/
abbrev Provider : Type := Time → Option Time → Batch

-- ============================================================================
-- EconomicCalendar
-- ============================================================================

/-- `priority.get(provider, 0)` -/
def priority (provider : String) : ℕ :=
  ([("bloomberg", 3), ("reuters", 2), ("forexfactory", 1)].lookup provider).getD 0

/-- Both filters; `None` and an empty list let everything pass. -/
def passes (countries impact : Option (List String)) (e : EconomicEvent) : Bool :=
  ((countries.getD []).isEmpty || (countries.getD []).contains e.country) &&
    ((impact.getD []).isEmpty || (impact.getD []).contains e.impact)

/-- `merged.get(e.id)`, the comparison and `merged[e.id] = e`. -/
def mergeEvent (merged : List EconomicEvent) (e : EconomicEvent) : List EconomicEvent :=
  Merge.keep EconomicEvent.id (fun e => priority e.provider) merged e

/-- The body of the loop over `all_batches`. -/
def mergeBatch (countries impact : Option (List String)) (merged : List EconomicEvent) :
    Batch → List EconomicEvent
  | .error _ => merged
  | .ok batch =>
      batch.foldl
        (fun merged e => if passes countries impact e then mergeEvent merged e else merged) merged

/-- `sorted(events, key=lambda x: x.time)`, which is stable. -/
def sortedByTime (events : List EconomicEvent) : List EconomicEvent :=
  events.insertionSort fun e e' => e.time ≤ e'.time

/-- `fetch_events` from `all_batches` on. -/
def merged (allBatches : List Batch) (countries impact : Option (List String) := none) :
    List EconomicEvent :=
  sortedByTime (allBatches.foldl (mergeBatch countries impact) [])

structure EconomicCalendar where
  providers : List Provider := []

def EconomicCalendar.registerProvider (calendar : EconomicCalendar) (provider : Provider) :
    EconomicCalendar where
  providers := calendar.providers ++ [provider]

/-- What `asyncio.gather` returns: the answers in the order of the providers. -/
def EconomicCalendar.allBatches (calendar : EconomicCalendar) (startDate : Time)
    (endDate : Option Time) : List Batch :=
  calendar.providers.map fun p => p startDate endDate

def EconomicCalendar.fetchEvents (calendar : EconomicCalendar) (startDate : Time)
    (endDate : Option Time := none) (countries impact : Option (List String) := none) :
    List EconomicEvent :=
  merged (calendar.allBatches startDate endDate) countries impact

-- ============================================================================
-- What is merged
-- ============================================================================

/-- The events of a batch; none if the provider has failed. -/
def Batch.events : Batch → List EconomicEvent
  | .error _ => []
  | .ok batch => batch

/-- The events of all batches, in the order in which they are merged. -/
def eventsOf (allBatches : List Batch) : List EconomicEvent := allBatches.flatMap Batch.events

/-- An event is the earliest of its id from a provider of the highest priority. -/
def Wins (events : List EconomicEvent) (e : EconomicEvent) : Prop :=
  Merge.IsWinner EconomicEvent.id (fun e => priority e.provider) events e

/-- The events that are kept when some are merged. -/
def bestOf (events : List EconomicEvent) : List EconomicEvent :=
  Merge.best EconomicEvent.id (fun e => priority e.provider) events

variable {countries impact : Option (List String)} {allBatches : List Batch}
  {events : List EconomicEvent} {e : EconomicEvent}

theorem mergeBatch_eq (kept : List EconomicEvent) (batch : Batch) :
    mergeBatch countries impact kept batch =
      (batch.events.filter (passes countries impact)).foldl mergeEvent kept := by
  cases batch with
  | error x => rfl
  | ok batch => exact List.foldl_filter.symm

theorem merged_eq : merged allBatches countries impact =
    sortedByTime (bestOf ((eventsOf allBatches).filter (passes countries impact))) := by
  have hfold : ∀ kept, allBatches.foldl (mergeBatch countries impact) kept =
      ((eventsOf allBatches).filter (passes countries impact)).foldl mergeEvent kept := by
    induction allBatches with
    | nil => exact fun _ => rfl
    | cons batch allBatches ih =>
        intro kept
        have hevents : eventsOf (batch :: allBatches) = batch.events ++ eventsOf allBatches :=
          List.flatMap_cons
        rw [List.foldl_cons, ih, mergeBatch_eq, hevents, List.filter_append, List.foldl_append]
  rw [merged, hfold]
  rfl

theorem passes_none : passes none none e := rfl

theorem merged_none : merged allBatches = sortedByTime (bestOf (eventsOf allBatches)) := by
  rw [merged_eq, List.filter_eq_self.mpr fun e _ => passes_none]

-- ============================================================================
-- Sorted and unique
-- ============================================================================

theorem sortedByTime_pairwise : (sortedByTime events).Pairwise fun e e' => e.time ≤ e'.time :=
  List.pairwise_insertionSort _ events

theorem sortedByTime_perm : (sortedByTime events).Perm events := List.perm_insertionSort _ events

theorem sortedByTime_filter {p : EconomicEvent → Bool} :
    (sortedByTime events).filter p = sortedByTime (events.filter p) :=
  Merge.filter_insertionSort events

theorem ids_nodup : ((sortedByTime (bestOf events)).map EconomicEvent.id).Nodup :=
  (sortedByTime_perm.map _).nodup_iff.mpr Merge.keys_best.1

theorem mem_ids {id : String} :
    id ∈ (sortedByTime (bestOf events)).map EconomicEvent.id ↔
      id ∈ events.map EconomicEvent.id :=
  (sortedByTime_perm.map _).mem_iff.trans (Merge.keys_best.2 id)

theorem mem_sorted_best : e ∈ sortedByTime (bestOf events) ↔ Wins events e :=
  sortedByTime_perm.mem_iff.trans Merge.mem_best_iff

/-- A batch of a provider that has failed might as well be missing. -/
theorem eventsOf_remove {before after : List Batch} {x : Exc} :
    eventsOf (before ++ .error x :: after) = eventsOf (before ++ after) := by
  simp only [eventsOf, List.flatMap_append, List.flatMap_cons, Batch.events, List.nil_append]

-- ============================================================================
-- fetch_events without filters
-- ============================================================================

/-- Every id of a batch that came is returned once, with its winner, in the order of time;
    a provider that fails might as well not be registered. -/
theorem fetchEvents_winners (calendar : EconomicCalendar) (startDate : Time)
    (endDate : Option Time) :
    let events := eventsOf (calendar.allBatches startDate endDate)
    let fetched := calendar.fetchEvents startDate endDate
    (fetched.Pairwise fun e e' => e.time ≤ e'.time) ∧
      (fetched.map EconomicEvent.id).Nodup ∧
      (∀ id, id ∈ fetched.map EconomicEvent.id ↔ id ∈ events.map EconomicEvent.id) ∧
      (∀ e, e ∈ fetched ↔ Wins events e) ∧
      ∀ before p after x, calendar.providers = before ++ p :: after →
        p startDate endDate = .error x →
        fetched = (EconomicCalendar.mk (before ++ after)).fetchEvents startDate endDate := by
  intro events fetched
  have hfetched : fetched = sortedByTime (bestOf events) := merged_none
  refine ⟨?_, ?_, ?_, ?_, ?_⟩
  · rw [hfetched]
    exact sortedByTime_pairwise
  · rw [hfetched]
    exact ids_nodup
  · rw [hfetched]
    exact fun id => mem_ids
  · rw [hfetched]
    exact fun e => mem_sorted_best
  · intro before p after x hproviders hfails
    have hbatches : calendar.allBatches startDate endDate =
        before.map (fun p => p startDate endDate) ++
          .error x :: after.map (fun p => p startDate endDate) := by
      rw [EconomicCalendar.allBatches, hproviders, List.map_append, List.map_cons, hfails]
    have hothers : (EconomicCalendar.mk (before ++ after)).allBatches startDate endDate =
        before.map (fun p => p startDate endDate) ++ after.map (fun p => p startDate endDate) :=
      List.map_append
    rw [hfetched, EconomicCalendar.fetchEvents, merged_none, hothers, ← eventsOf_remove (x := x),
      ← hbatches]

-- ============================================================================
-- fetch_events with filters
-- ============================================================================

/-- The filters choose among all versions, before these are merged.  That gives the winners
    that pass the filters if and only if no version that passes loses to one that does not;
    where the versions of an id agree, the order is the same too. -/
theorem fetchEvents_filters (calendar : EconomicCalendar) (startDate : Time)
    (endDate : Option Time) (countries impact : Option (List String)) :
    let events := eventsOf (calendar.allBatches startDate endDate)
    let filtered := calendar.fetchEvents startDate endDate countries impact
    let chosen := (calendar.fetchEvents startDate endDate).filter (passes countries impact)
    (filtered.Pairwise fun e e' => e.time ≤ e'.time) ∧
      (filtered.map EconomicEvent.id).Nodup ∧
      (∀ e, e ∈ filtered ↔ Wins (events.filter (passes countries impact)) e) ∧
      (filtered.Perm chosen ↔
        ∀ e ∈ events, passes countries impact e →
          ∀ w, Wins events w → w.id = e.id → passes countries impact w) ∧
      ((∀ e ∈ events, ∀ e' ∈ events, e.id = e'.id →
          passes countries impact e = passes countries impact e') →
        filtered = chosen) := by
  intro events filtered chosen
  have hfiltered : filtered =
      sortedByTime (bestOf (events.filter (passes countries impact))) := merged_eq
  have hchosen : chosen = sortedByTime ((bestOf events).filter (passes countries impact)) := by
    rw [← sortedByTime_filter, ← merged_none]
    rfl
  refine ⟨?_, ?_, ?_, ?_, ?_⟩
  · rw [hfiltered]
    exact sortedByTime_pairwise
  · rw [hfiltered]
    exact ids_nodup
  · rw [hfiltered]
    exact fun e => mem_sorted_best
  · have hfilteredNodup : filtered.Nodup := by
      rw [hfiltered]
      exact List.Nodup.of_map _ ids_nodup
    have hchosenNodup : chosen.Nodup := by
      refine List.Nodup.filter _ ?_
      rw [EconomicCalendar.fetchEvents, merged_none]
      exact List.Nodup.of_map _ ids_nodup
    rw [List.perm_ext_iff_of_nodup hfilteredNodup hchosenNodup]
    refine Iff.trans ?_ Merge.mem_best_filter_iff
    apply forall_congr'
    intro e
    rw [hfiltered, hchosen, sortedByTime_perm.mem_iff, sortedByTime_perm.mem_iff]
    rfl
  · intro hagree
    rw [hfiltered, hchosen]
    exact congrArg sortedByTime (Merge.best_filter hagree)

/-- The version of an event that a provider reports with an impact. -/
def report (provider impact : String) : EconomicEvent where
  id := "cpi"
  provider := provider
  time := 0
  country := "US"
  region := "US"
  eventName := "CPI"
  category := "macro"
  impact := impact

/-- Bloomberg takes an event for unimportant, Reuters for important. -/
def disagreeing : EconomicCalendar :=
  (EconomicCalendar.mk []).registerProvider (fun _ _ => .ok [report "bloomberg" "low"])
    |>.registerProvider fun _ _ => .ok [report "reuters" "high"]

/-- The filter lets an event through that is not a winner without it. -/
theorem fetchEvents_disagreeing :
    disagreeing.fetchEvents 0 none none (some ["high"]) = [report "reuters" "high"] ∧
      (disagreeing.fetchEvents 0 none).filter (passes none (some ["high"])) = [] := by
  decide

end Mtrader.News
