/-
  Mtrader.Frontend.ChartData

  `hooks/useChartData.ts`: a page of rows, and the events that are pushed after it.

  The handler keeps all but the oldest item with `prev.slice(-pageSize + 1)`.  A negative
  start counts from the end; for a page of one row the start is 0, which keeps everything.
-/

import Mtrader.Frontend.Api
import Mathlib.Data.List.DropRight

namespace Mtrader.Frontend

variable {T : Type}

-- ============================================================================
-- The last items of a list
-- ============================================================================

/-- `xs.slice(start)` of an array. -/
def slice (xs : List T) (start : ℤ) : List T :=
  if start < 0 then xs.drop (xs.length + start).toNat else xs.drop start.toNat

theorem slice_zero (xs : List T) : slice xs 0 = xs := rfl

theorem slice_neg (xs : List T) (n : ℕ) : slice xs (-(n + 1 : ℕ)) = xs.rtake (n + 1) := by
  have hstart : (xs.length + -((n + 1 : ℕ) : ℤ)).toNat = xs.length - (n + 1) := by omega
  rw [slice, if_pos (by omega), hstart, List.rtake]

theorem rtake_of_length_le {n : ℕ} {xs : List T} (h : xs.length ≤ n) : xs.rtake n = xs := by
  rw [List.rtake, Nat.sub_eq_zero_of_le h, List.drop_zero]

theorem rtake_rtake_succ (n : ℕ) (xs : List T) : (xs.rtake (n + 1)).rtake n = xs.rtake n := by
  simp only [List.rtake_eq_reverse_take_reverse, List.reverse_reverse, List.take_take]
  rw [Nat.min_eq_left (Nat.le_succ n)]

theorem length_rtake_le (n : ℕ) (xs : List T) : (xs.rtake n).length ≤ n := by
  rw [List.rtake, List.length_drop]
  omega

-- ============================================================================
-- The hook
-- ============================================================================

/-- The state of the hook. -/
structure ChartData (T : Type) where
  data : List T := []
  page : ℤ := 1
  loading : Bool := true
  error : Option String := none

/-- `empty` of what the hook returns. -/
def ChartData.empty (s : ChartData T) : Bool := !s.loading && s.error.isNone && s.data.isEmpty

/-- What happens to the hook. -/
inductive HookStep (T : Type)
  /-- `load` begins: after mounting, after a change of the page, and on `retry`. -/
  | load
  /-- The fetcher resolves with the rows of a page. -/
  | loaded (rows : List T)
  /-- The fetcher rejects, with `e?.message`. -/
  | loadFailed (message : Option String)
  /-- An event is pushed. -/
  | event (payload : T)
  | setPage (page : ℤ)

/-- The handler of the event: `[...prev.slice(-pageSize + 1), payload]`. -/
def handler (pageSize : ℕ) (prev : List T) (payload : T) : List T :=
  slice prev (-(pageSize : ℤ) + 1) ++ [payload]

def ChartData.step (pageSize : ℕ) (s : ChartData T) : HookStep T → ChartData T
  | .load => { s with loading := true }
  | .loaded rows => { s with data := rows, error := none, loading := false }
  | .loadFailed message =>
      { s with error := some ((truthy message).getD "load failed"), loading := false }
  | .event payload => { s with data := handler pageSize s.data payload }
  | .setPage page => { s with page := page }

def useChartData (pageSize : ℕ) (steps : List (HookStep T)) : ChartData T :=
  steps.foldl (ChartData.step pageSize) {}

-- ============================================================================
-- The items it should show
-- ============================================================================

/-- The rows that were loaded last, and the events pushed since then. -/
def received (items : List T) : HookStep T → List T
  | .loaded rows => rows
  | .event payload => items ++ [payload]
  | _ => items

/-- The hook holds the last items, and never more than `pageSize` of them. -/
def ShowsLast (pageSize : ℕ) (steps : List (HookStep T)) : Prop :=
  let items := steps.foldl received []
  (useChartData pageSize steps).data = items.rtake pageSize ∧
    (useChartData pageSize steps).data.length ≤ pageSize

-- ============================================================================
-- One event
-- ============================================================================

theorem handler_one (prev : List T) (payload : T) :
    handler 1 prev payload = prev ++ [payload] := rfl

/-- From two rows on the oldest item goes when the page is full. -/
theorem handler_rtake (n : ℕ) (items : List T) (payload : T) :
    handler (n + 2) (items.rtake (n + 2)) payload = (items ++ [payload]).rtake (n + 2) := by
  have hstart : -((n + 2 : ℕ) : ℤ) + 1 = -((n + 1 : ℕ) : ℤ) := by omega
  rw [handler, hstart, slice_neg, rtake_rtake_succ, List.rtake_concat_succ]

/-- A relation between the data and the items that loading and events keep. -/
theorem data_related {R : List T → List T → Prop} {pageSize : ℕ} {steps : List (HookStep T)}
    (hnil : R [] []) (hloaded : ∀ rows, .loaded rows ∈ steps → R rows rows)
    (hevent : ∀ data items payload, R data items →
      R (handler pageSize data payload) (items ++ [payload])) :
    R (useChartData pageSize steps).data (steps.foldl received []) := by
  refine List.foldl_rel (r := fun (s : ChartData T) items => R s.data items) hnil ?_
  intro e he s items h
  cases e with
  | load => exact h
  | loaded rows => exact hloaded rows he
  | loadFailed message => exact h
  | event payload => exact hevent s.data items payload h
  | setPage page => exact h

/-- A hook with two rows or more. -/
theorem data_eq_rtake {n : ℕ} {steps : List (HookStep T)}
    (hpages : ∀ rows, .loaded rows ∈ steps → rows.length ≤ n + 2) :
    (useChartData (n + 2) steps).data = (steps.foldl received []).rtake (n + 2) := by
  refine data_related (R := fun data items => data = items.rtake (n + 2)) (by simp)
    (fun rows hrows => (rtake_of_length_le (hpages rows hrows)).symm) ?_
  rintro data items payload rfl
  exact handler_rtake n items payload

/-- A hook with one row forgets nothing. -/
theorem data_eq_of_one (steps : List (HookStep T)) :
    (useChartData 1 steps).data = steps.foldl received [] := by
  refine data_related (R := fun data items => data = items) rfl (fun _ _ => rfl) ?_
  rintro data items payload rfl
  exact handler_one data payload

-- ============================================================================
-- The last items
-- ============================================================================

/-- The hook holds the last items unless the page has one row and there are more. -/
theorem showsLast_iff {pageSize : ℕ} (hsize : 1 ≤ pageSize) {steps : List (HookStep T)}
    (hpages : ∀ rows, .loaded rows ∈ steps → rows.length ≤ pageSize) :
    ShowsLast pageSize steps ↔ pageSize ≠ 1 ∨ (steps.foldl received []).length ≤ 1 := by
  rcases Nat.lt_or_ge 1 pageSize with hmore | hone
  · obtain ⟨n, rfl⟩ := Nat.exists_eq_add_of_le' hmore
    refine iff_of_true ?_ (.inl (by omega))
    have hdata := data_eq_rtake hpages
    refine ⟨hdata, ?_⟩
    rw [hdata]
    exact length_rtake_le _ _
  · obtain rfl : pageSize = 1 := Nat.le_antisymm hone hsize
    have hdata := data_eq_of_one steps
    constructor
    · rintro ⟨-, hlength⟩
      rw [hdata] at hlength
      exact .inr hlength
    · rintro (hne | hlength)
      · exact absurd rfl hne
      · refine ⟨?_, ?_⟩
        · rw [hdata, rtake_of_length_le hlength]
        · rw [hdata]
          exact hlength

theorem showsLast_iff_two :
    (useChartData 2 [.loaded ["a", "b"], .event "c"]).data = ["b", "c"] ∧
      (ShowsLast 2 [.loaded ["a", "b"], .event "c"] ↔
        2 ≠ 1 ∨ ([.loaded ["a", "b"], .event "c"].foldl received []).length ≤ 1) := by
  refine ⟨by decide, showsLast_iff (by decide) fun rows hrows => ?_⟩
  simp only [List.mem_cons, HookStep.loaded.injEq, reduceCtorEq, List.not_mem_nil, or_false]
    at hrows
  rw [hrows]
  decide

/-- A page of one row and one event. -/
theorem not_showsLast_one : ¬ ShowsLast 1 [.loaded ["a"], .event "b"] := by
  rintro ⟨-, hlength⟩
  exact absurd hlength (by decide)

end Mtrader.Frontend
