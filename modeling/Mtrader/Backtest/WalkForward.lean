/-
  Mtrader.Backtest.WalkForward

  `BacktestEngine.run_walk_forward` of `engine/backtester.py`.

  - A `pd.DateOffset` moves a datetime by calendar months, twelve to a year, at the same
    time of the day; `Calendar.shift` is this.  A datetime that pandas cannot represent
    is an error.
  - The source returns the results only; the model's segments also keep the windows the
    results were computed on.
  - The random draws are a parameter, as are the Sharpe ratios.
-/

import Mtrader.Backtest.NoLookahead
import Mtrader.Calendar.Gregorian
import Mtrader.Windows.Sorted

namespace Mtrader.Backtest

open Py Windows

variable {F Statistics : Type}

/-- The microseconds of a day. -/
def ticksPerDay : ℤ := 86400000000

/-- What pandas and numpy compute for `run_walk_forward`. -/
structure WalkLibraries (F Statistics : Type) extends Libraries F Statistics where
  /-- The `sharpe_ratio` among the statistics. -/
  sharpeRatio : Statistics → F
  /-- `np.random.choice(v)` for a parameter in an iteration for a segment, by number. -/
  choice : (segment iteration parameter : ℕ) → List (Val F) → Except Exc (Val F)
  /-- The datetimes that a `Timestamp` can hold. -/
  representable : Time → Bool

/-- The arguments of `run_walk_forward`; `paramSpace` is empty for `None`, and
    `strategyName` is the strategy's `__name__`. -/
structure WalkArgs (F : Type) where
  strategy : Strategy F
  strategyName : String
  inSampleYears : ℤ := 3
  outSampleMonths : ℤ := 6
  optimizationIterations : ℤ := 1000
  paramSpace : List (ParamKey × List (Val F)) := []

/-- `t + pd.DateOffset(months=n)`. -/
def WalkLibraries.offset (libs : WalkLibraries F Statistics) (n : ℤ) (t : Time) :
    Except Exc Time :=
  let moved := Calendar.shift ticksPerDay n t
  if libs.representable moved then .ok moved
  else .error (.valueError "Out of bounds nanosecond timestamp")

/-- One segment: its windows, the rows in them and the result on the second one. -/
structure Segment (F Statistics : Type) where
  cursor : Time
  inEnd : Time
  outEnd : Time
  inSample : List (Row F)
  outSample : List (Row F)
  result : BacktestResult F Statistics

section

variable [Prims F] [Add F]

/-- `self.run(strategy, data, **kwargs)`: the parameters that `run` names itself are not
    handed on to the strategy. -/
def BacktestEngine.runWith (engine : BacktestEngine F) (libs : Libraries F Statistics)
    (args : WalkArgs F) (data : List (Row F)) (kwargs : Dict ParamKey F) :
    Except Exc (BacktestResult F Statistics) := do
  let named : List String := ["initial_capital", "commission", "slippage", "margin"]
  if ["self", "strategy", "data"].any fun name => (kwargs (.other name)).isSome then
    .error (.typeError "run() got multiple values for argument")
  else
    let initialCapital ← (kwargs.getD (.other "initial_capital") (.int 10000)).number
    let flag := fun name => (kwargs.getD (.other name) (.bool true)).truthy
    engine.run libs args.strategy args.strategyName data initialCapital
      { commission := flag "commission", slippage := flag "slippage", margin := flag "margin" }
      fun
        | .other name => if name ∈ named then none else kwargs (.other name)
        | key => kwargs key

/-- `{k: np.random.choice(v) for k, v in space.items()}`. -/
def drawParams (choice : ℕ → List (Val F) → Except Exc (Val F)) :
    ℕ → List (ParamKey × List (Val F)) → Except Exc (Dict ParamKey F)
  | _, [] => .ok Dict.empty
  | i, (key, v) :: space => do
      let value ← choice i v
      let params ← drawParams choice (i + 1) space
      return Function.update params key (some value)

/-- `best_params` and `best_sharpe`. -/
structure Best (F : Type) where
  params : Dict ParamKey F
  sharpe : F

/-- `n` more iterations of the optimisation of segment number `k`, from number `i` on. -/
def BacktestEngine.optimize (engine : BacktestEngine F) (libs : WalkLibraries F Statistics)
    (args : WalkArgs F) (inSample : List (Row F)) (k : ℕ) :
    ℕ → ℕ → Best F → Except Exc (Best F)
  | 0, _, best => .ok best
  | n + 1, i, best => do
      let params ← drawParams (libs.choice k i) 0 args.paramSpace
      let res ← engine.runWith libs.toLibraries args inSample params
      let sharpe := libs.sharpeRatio res.statistics
      engine.optimize libs args inSample k n (i + 1)
        (if Prims.lt best.sharpe sharpe then ⟨params, sharpe⟩ else best)

/-- The run on the second window, with the best parameters found. -/
def BacktestEngine.evaluate (engine : BacktestEngine F) (libs : WalkLibraries F Statistics)
    (args : WalkArgs F) (inSample outSample : List (Row F)) (k : ℕ) :
    Except Exc (BacktestResult F Statistics) := do
  let iterations := if args.paramSpace.isEmpty then 1 else args.optimizationIterations.toNat
  let best ← engine.optimize libs args inSample k iterations 0
    ⟨Dict.empty, Prims.ofRat (-1000000000)⟩
  if (best.params .optimizationIterations).isSome then
    .error (.typeError "run() got multiple values for keyword argument 'optimization_iterations'")
  else
    engine.runWith libs.toLibraries args outSample
      (Function.update best.params .optimizationIterations
        (some (.int args.optimizationIterations)))

/-- The loop of `run_walk_forward` on the frame `df` that ends at `stop`, in segment
    number `k`; the first argument bounds the number of turns. -/
def BacktestEngine.walk (engine : BacktestEngine F) (libs : WalkLibraries F Statistics)
    (args : WalkArgs F) (df : List (Row F)) (stop : Time) :
    ℕ → ℕ → Time → Except Exc (List (Segment F Statistics))
  | 0, _, _ => .ok []
  | n + 1, k, cursor =>
      if cursor < stop then do
        let inEnd ← libs.offset (12 * args.inSampleYears) cursor
        let outEnd ← libs.offset args.outSampleMonths inEnd
        let inSample := within Row.time cursor inEnd df
        let outSample := within Row.time inEnd outEnd df
        if inSample.length < 50 ∨ outSample.length < 20 then return []
        else
          let result ← engine.evaluate libs args inSample outSample k
          let next ← libs.offset args.outSampleMonths cursor
          let rest ← engine.walk libs args df stop n (k + 1) next
          return { cursor, inEnd, outEnd, inSample, outSample, result } :: rest
      else .ok []

/-- A cursor moves by a day at least, so that the loop has no more turns than this. -/
def turns (start stop : Time) : ℕ := ((stop - start) / ticksPerDay).toNat + 1

/-- `run_walk_forward`, with the windows; an empty frame has no segments. -/
def BacktestEngine.walkForward (engine : BacktestEngine F) (libs : WalkLibraries F Statistics)
    (args : WalkArgs F) (data : List (Row F)) : Except Exc (List (Segment F Statistics)) :=
  let df := libs.sortIndex data
  match df.head?, df.getLast? with
  | some first, some last =>
      engine.walk libs args df last.time (turns first.time last.time) 0 first.time
  | _, _ => .ok []

/-- `BacktestEngine.run_walk_forward`. -/
def BacktestEngine.runWalkForward (engine : BacktestEngine F)
    (libs : WalkLibraries F Statistics) (args : WalkArgs F) (data : List (Row F)) :
    Except Exc (List (BacktestResult F Statistics)) :=
  (engine.walkForward libs args data).map fun segments => segments.map Segment.result

end

-- ============================================================================
-- The cursors
-- ============================================================================

/-- The end of the in-sample window at a cursor. -/
def WalkArgs.inEnd (args : WalkArgs F) (cursor : Time) : Time :=
  Calendar.shift ticksPerDay (12 * args.inSampleYears) cursor

/-- The end of the out-of-sample window at a cursor. -/
def WalkArgs.outEnd (args : WalkArgs F) (cursor : Time) : Time :=
  Calendar.shift ticksPerDay args.outSampleMonths (args.inEnd cursor)

/-- The next cursor. -/
def WalkArgs.next (args : WalkArgs F) (cursor : Time) : Time :=
  Calendar.shift ticksPerDay args.outSampleMonths cursor

/-- The cursor is before the end of the frame, and its windows have enough rows. -/
def WalkArgs.Filled (args : WalkArgs F) (df : List (Row F)) (stop cursor : Time) : Prop :=
  cursor < stop ∧ 50 ≤ (within Row.time cursor (args.inEnd cursor) df).length ∧
    20 ≤ (within Row.time (args.inEnd cursor) (args.outEnd cursor) df).length

/-- The date of a datetime. -/
def dateOf (t : Time) : Calendar.Date := Calendar.Date.ofNumber (t / ticksPerDay)

theorem ticksPerDay_pos : 0 < ticksPerDay := by decide

theorem WalkArgs.outEnd_eq_inEnd_next_iff (args : WalkArgs F) (cursor : Time) :
    args.outEnd cursor = args.inEnd (args.next cursor) ↔
      (dateOf cursor).Commutes args.inSampleYears args.outSampleMonths :=
  Calendar.shift_years_comm_iff ticksPerDay_pos cursor _ _

theorem WalkArgs.inEnd_le_outEnd {args : WalkArgs F} (hmonths : 0 < args.outSampleMonths)
    (cursor : Time) : args.inEnd cursor ≤ args.outEnd cursor :=
  Calendar.le_shift ticksPerDay_pos (args.inEnd cursor) hmonths

-- ============================================================================
-- The loop
-- ============================================================================

/-- The segments from a cursor on: one for every cursor until the first that is not
    filled. -/
inductive Walked (args : WalkArgs F) (df : List (Row F)) (stop : Time) :
    Time → List (Segment F Statistics) → Prop
  | stop {cursor : Time} (h : ¬ args.Filled df stop cursor) : Walked args df stop cursor []
  | segment {cursor : Time} {s : Segment F Statistics} {rest : List (Segment F Statistics)}
      (h : args.Filled df stop cursor) (hin : s.inEnd = args.inEnd cursor)
      (hout : s.outEnd = args.outEnd cursor)
      (hsample : s.outSample = within Row.time s.inEnd s.outEnd df)
      (hrest : Walked args df stop (args.next cursor) rest) :
      Walked args df stop cursor (s :: rest)

theorem offset_eq_ok {libs : WalkLibraries F Statistics} {n : ℤ} {t t' : Time}
    (h : libs.offset n t = .ok t') : t' = Calendar.shift ticksPerDay n t := by
  unfold WalkLibraries.offset at h
  simp only at h
  split at h
  next => exact (Except.ok.inj h).symm
  next => cases h

/-- The loop walks, when it may make enough turns. -/
theorem walk_walked [Prims F] [Add F] {engine : BacktestEngine F}
    {libs : WalkLibraries F Statistics} {args : WalkArgs F} (hmonths : 0 < args.outSampleMonths)
    {df : List (Row F)} {stop : Time} {n k : ℕ} {cursor : Time}
    {segments : List (Segment F Statistics)} (hn : stop ≤ cursor + n * ticksPerDay)
    (h : engine.walk libs args df stop n k cursor = .ok segments) :
    Walked args df stop cursor segments := by
  induction n generalizing k cursor segments with
  | zero =>
      obtain rfl : [] = segments := Except.ok.inj h
      refine .stop fun hfilled => ?_
      rw [Nat.cast_zero, zero_mul, add_zero] at hn
      exact absurd hfilled.1 (not_lt.mpr hn)
  | succ n ih =>
      unfold BacktestEngine.walk at h
      split at h
      next hlt =>
        obtain ⟨inEnd, hin, h⟩ := bind_eq_ok.mp h
        obtain ⟨outEnd, hout, h⟩ := bind_eq_ok.mp h
        obtain rfl : inEnd = args.inEnd cursor := offset_eq_ok hin
        obtain rfl : outEnd = args.outEnd cursor := offset_eq_ok hout
        simp only at h
        split at h
        next hfew =>
          obtain rfl : [] = segments := Except.ok.inj h
          refine .stop fun hfilled => ?_
          have hin := hfilled.2.1
          have hout := hfilled.2.2
          omega
        next hmany =>
          obtain ⟨result, -, h⟩ := bind_eq_ok.mp h
          obtain ⟨next, hnext, h⟩ := bind_eq_ok.mp h
          obtain ⟨rest, hrest, hsegments⟩ := bind_eq_ok.mp h
          obtain rfl : next = args.next cursor := offset_eq_ok hnext
          obtain rfl := Except.ok.inj hsegments
          have hstep : cursor + ticksPerDay ≤ args.next cursor :=
            Calendar.add_le_shift ticksPerDay_pos cursor hmonths
          have hleft : stop ≤ args.next cursor + n * ticksPerDay := by
            rw [Nat.cast_succ, add_mul, one_mul] at hn
            linarith
          exact .segment ⟨hlt, by omega, by omega⟩ rfl rfl rfl (ih hleft hrest)
      next hnot =>
        obtain rfl : [] = segments := Except.ok.inj h
        exact .stop fun hfilled => hnot hfilled.1

/-- The cursor of turn number `k`. -/
def WalkArgs.cursorAt (args : WalkArgs F) (start : Time) (k : ℕ) : Time := args.next^[k] start

/-- There are more than `k` segments when the first cursors are all filled. -/
theorem Walked.lt_length_iff {args : WalkArgs F} {df : List (Row F)} {stop start : Time}
    {segments : List (Segment F Statistics)} (h : Walked args df stop start segments) (k : ℕ) :
    k < segments.length ↔ ∀ j ≤ k, args.Filled df stop (args.cursorAt start j) := by
  induction h generalizing k with
  | stop h =>
      constructor
      · intro hlt
        simp at hlt
      · intro hall
        exact absurd (hall 0 (by omega)) h
  | segment h _ _ _ _ ih =>
      cases k with
      | zero =>
          constructor
          · intro _ j hj
            obtain rfl : j = 0 := by omega
            exact h
          · intro _
            simp
      | succ k =>
          rw [List.length_cons, Nat.add_lt_add_iff_right, ih k]
          constructor
          · intro hall j hj
            cases j with
            | zero => exact h
            | succ j => exact hall j (by omega)
          · intro hall j hj
            exact hall (j + 1) (by omega)

/-- Consecutive segments are adjacent exactly when the dates of their cursors commute. -/
theorem Walked.adjacent_iff {args : WalkArgs F} {df : List (Row F)} {stop start : Time}
    {segments : List (Segment F Statistics)} (h : Walked args df stop start segments) :
    (segments.IsChain fun s s' => s.outEnd = s'.inEnd) ↔
      ∀ k, k + 1 < segments.length →
        (dateOf (args.cursorAt start k)).Commutes args.inSampleYears args.outSampleMonths := by
  induction h with
  | stop h =>
      constructor
      · intro _ k hk
        simp at hk
      · intro _
        exact .nil
  | @segment cursor s rest h hin hout hsample hrest ih =>
      cases hrest with
      | stop =>
          constructor
          · intro _ k hk
            simp at hk
          · intro _
            exact .singleton s
      | @segment _ s' rest' h' hin' hout' hsample' hrest' =>
          rw [List.isChain_cons_cons, ih, hout, hin', args.outEnd_eq_inEnd_next_iff]
          constructor
          · rintro ⟨hfirst, hall⟩ k hk
            cases k with
            | zero => exact hfirst
            | succ k => exact hall k (by simpa using hk)
          · intro hall
            exact ⟨hall 0 (by simp), fun k hk => hall (k + 1) (by simpa using hk)⟩

-- ============================================================================
-- Out-of-sample windows
-- ============================================================================

/-- The out-of-sample windows are adjacent: no row is evaluated twice, and none is
    skipped between the first of them and the last. -/
structure Tiled (df : List (Row F)) (segments : List (Segment F Statistics)) : Prop where
  adjacent : segments.IsChain fun s s' => s.outEnd = s'.inEnd
  covered : ∀ s rest, segments = s :: rest →
    segments.flatMap Segment.outSample
      = within Row.time s.inEnd ((rest.getLast?.getD s).outEnd) df

/-- An out-of-sample window. -/
def Segment.outWindow (s : Segment F Statistics) : Time × Time := (s.inEnd, s.outEnd)

theorem lastEnd_outWindow (s : Segment F Statistics) (rest : List (Segment F Statistics)) :
    lastEnd s.outWindow (rest.map Segment.outWindow) = (rest.getLast?.getD s).outEnd := by
  induction rest generalizing s with
  | nil => rfl
  | cons s' rest ih =>
      rw [List.map_cons, lastEnd, ih]
      cases rest with
      | nil => rfl
      | cons s'' rest => simp [List.getLast?_cons]

theorem Walked.outWindows {args : WalkArgs F} (hmonths : 0 < args.outSampleMonths)
    {df : List (Row F)} {stop start : Time} {segments : List (Segment F Statistics)}
    (h : Walked args df stop start segments) : ∀ s ∈ segments,
      s.outSample = within Row.time s.inEnd s.outEnd df ∧ s.inEnd ≤ s.outEnd := by
  induction h with
  | stop => simp
  | segment _ hin hout hsample _ ih =>
      intro s hs
      rcases List.mem_cons.mp hs with rfl | hs
      · refine ⟨hsample, ?_⟩
        rw [hin, hout]
        exact WalkArgs.inEnd_le_outEnd hmonths _
      · exact ih s hs

/-- Adjacent windows cover. -/
theorem Walked.tiled {args : WalkArgs F} (hmonths : 0 < args.outSampleMonths)
    {df : List (Row F)} (hsorted : df.Pairwise fun row row' => row.time ≤ row'.time)
    {stop start : Time} {segments : List (Segment F Statistics)}
    (h : Walked args df stop start segments)
    (hadjacent : segments.IsChain fun s s' => s.outEnd = s'.inEnd) : Tiled df segments := by
  refine ⟨hadjacent, ?_⟩
  rintro s rest rfl
  have hwindows := h.outWindows hmonths
  have hmeet : Meeting (s.outWindow :: rest.map Segment.outWindow) := by
    rw [← List.map_cons, Meeting, List.isChain_map]
    exact hadjacent
  have hle : ∀ v ∈ s.outWindow :: rest.map Segment.outWindow, v.1 ≤ v.2 := by
    rw [← List.map_cons]
    intro v hv
    obtain ⟨s', hs', rfl⟩ := List.mem_map.mp hv
    exact (hwindows s' hs').2
  have hflat := flatMap_within hsorted hle hmeet
  rw [lastEnd_outWindow, ← List.map_cons, List.flatMap_map] at hflat
  exact (List.flatMap_congr fun s' hs' => (hwindows s' hs').1).trans hflat

/-- The date of every filled cursor that is followed by a filled one lets years and months
    be added in either order. -/
def CursorsCommute (args : WalkArgs F) (df : List (Row F)) : Prop :=
  ∀ first ∈ df.head?, ∀ last ∈ df.getLast?, ∀ k,
    (∀ j ≤ k + 1, args.Filled df last.time (args.cursorAt first.time j)) →
      (dateOf (args.cursorAt first.time k)).Commutes args.inSampleYears args.outSampleMonths

theorem start_add_turns (start stop : ℤ) : stop ≤ start + turns start stop * ticksPerDay := by
  unfold turns ticksPerDay
  push_cast
  omega

/-- There are more than `k` results exactly when the first `k + 1` cursors are before the end
    of the frame and have enough rows in their windows. -/
theorem runWalkForward_lt_length_iff [Prims F] [Add F] {engine : BacktestEngine F}
    {libs : WalkLibraries F Statistics} {args : WalkArgs F} (hmonths : 1 ≤ args.outSampleMonths)
    {data : List (Row F)} {first last : Row F} (hfirst : (libs.sortIndex data).head? = some first)
    (hlast : (libs.sortIndex data).getLast? = some last)
    {results : List (BacktestResult F Statistics)}
    (h : engine.runWalkForward libs args data = .ok results) (k : ℕ) :
    k < results.length ↔ ∀ j ≤ k,
      args.Filled (libs.sortIndex data) last.time (args.cursorAt first.time j) := by
  unfold BacktestEngine.runWalkForward at h
  cases hwalk : engine.walkForward libs args data with
  | error x =>
      rw [hwalk] at h
      cases h
  | ok segments =>
      rw [hwalk] at h
      obtain rfl : segments.map Segment.result = results := Except.ok.inj h
      unfold BacktestEngine.walkForward at hwalk
      simp only [hfirst, hlast] at hwalk
      have hwalked := walk_walked hmonths (start_add_turns first.time last.time) hwalk
      rw [List.length_map]
      exact hwalked.lt_length_iff k

-- A start on 31 January, moved by a year and by a month

def walkLibraries : WalkLibraries ℚ Unit where
  toLibraries := exactLibraries
  sharpeRatio _ := 0
  choice _ _ _ v := .ok (v.head?.getD .none)
  representable _ := true

/-- A strategy that does nothing, walked forward by a month. -/
def idleArgs : WalkArgs ℚ where
  strategy _ _ := .ok .other
  strategyName := "idle"
  inSampleYears := 1
  outSampleMonths := 1

/-- Rows at the start of a day. -/
def rowsOn (month day : ℤ) (n : ℕ) : List (Row ℚ) :=
  List.replicate n (priceRow ((Calendar.firstDay month + day - 1) * ticksPerDay) 1)

/-- A frame from 31 January 2023 on whose last 20 rows are of 28 February 2024. -/
def januaryFrame : List (Row ℚ) :=
  rowsOn (12 * 2023) 31 1 ++ rowsOn (12 * 2023 + 2) 1 50 ++ rowsOn (12 * 2024 + 1) 28 20

/-- The start and the end, in days, of the windows of the segments. -/
def januaryWindows : Except Exc (List (ℤ × ℤ)) :=
  (BacktestEngine.default.walkForward walkLibraries idleArgs januaryFrame).map fun segments =>
    segments.map fun s => (s.inEnd / ticksPerDay, s.outEnd / ticksPerDay)

theorem januaryWindows_eq : januaryWindows.toOption = some [(19753, 19782), (19781, 19810)] := by
  decide +kernel

theorem januaryWindows_spec :
    ∃ segments,
      BacktestEngine.default.walkForward walkLibraries idleArgs januaryFrame = .ok segments ∧
        segments.map (fun s => (s.inEnd / ticksPerDay, s.outEnd / ticksPerDay))
          = [(19753, 19782), (19781, 19810)] := by
  have hwindows := januaryWindows_eq
  unfold januaryWindows at hwindows
  cases hrun : BacktestEngine.default.walkForward walkLibraries idleArgs januaryFrame with
  | ok segments =>
      rw [hrun] at hwindows
      exact ⟨segments, rfl, Option.some.inj hwindows⟩
  | error x =>
      rw [hrun] at hwindows
      cases hwindows

/-- From 31 January 2023 the last rows are evaluated twice: the windows are 31 January to
    29 February and 28 February to 28 March 2024. -/
theorem walkForward_not_tiled :
    ¬ ∀ segments,
      BacktestEngine.default.walkForward walkLibraries idleArgs januaryFrame = .ok segments →
        Tiled (walkLibraries.sortIndex januaryFrame) segments := by
  intro hall
  obtain ⟨segments, hrun, hwindows⟩ := januaryWindows_spec
  have hdays : (segments.map fun s => (s.inEnd / ticksPerDay, s.outEnd / ticksPerDay)).IsChain
      fun w w' => w.2 = w'.1 := by
    refine (List.isChain_map _).mpr ((hall segments hrun).adjacent.imp fun s s' hmeet => ?_)
    exact congrArg (fun t : ℤ => t / ticksPerDay) hmeet
  rw [hwindows] at hdays
  obtain ⟨hsame, -⟩ := List.isChain_cons_cons.mp hdays
  exact absurd hsame (by decide)

/-- A run tiles exactly when years and months can be added in either order at every cursor
    but the last: its date is at most the 28th, or is clipped alike on both ways. -/
theorem walkForward_tiled_iff [Prims F] [Add F] (engine : BacktestEngine F)
    (libs : WalkLibraries F Statistics) (args : WalkArgs F) (hmonths : 1 ≤ args.outSampleMonths)
    (data : List (Row F)) (segments : List (Segment F Statistics))
    (h : engine.walkForward libs args data = .ok segments) :
    Tiled (libs.sortIndex data) segments ↔ CursorsCommute args (libs.sortIndex data) := by
  unfold BacktestEngine.walkForward at h
  simp only at h
  split at h
  next first last hfirst hlast =>
    have hwalked := walk_walked hmonths (start_add_turns first.time last.time) h
    have hsorted := libs.sortIndex_sorted data
    constructor
    · intro htiled first' hfirst' last' hlast' k hfilled
      obtain rfl : first' = first := by simpa [hfirst] using hfirst'.symm
      obtain rfl : last' = last := by simpa [hlast] using hlast'.symm
      have hlength := (hwalked.lt_length_iff (k + 1)).mpr hfilled
      exact hwalked.adjacent_iff.mp htiled.adjacent k hlength
    · intro hcommute
      refine hwalked.tiled hmonths hsorted (hwalked.adjacent_iff.mpr fun k hk => ?_)
      exact hcommute first hfirst last hlast k ((hwalked.lt_length_iff (k + 1)).mp hk)
  next hnone =>
    obtain rfl : [] = segments := Except.ok.inj h
    constructor
    · intro _ first hfirst last hlast
      exact absurd hlast (hnone first last hfirst)
    · intro _
      refine ⟨.nil, ?_⟩
      rintro s rest hs
      cases hs

theorem walkForward_tiled_iff_january :
    ∃ segments : List (Segment ℚ Unit), segments.length = 2 ∧
      (Tiled (walkLibraries.sortIndex januaryFrame) segments ↔
        CursorsCommute idleArgs (walkLibraries.sortIndex januaryFrame)) := by
  obtain ⟨segments, hrun, hwindows⟩ := januaryWindows_spec
  have hlength := congrArg List.length hwindows
  rw [List.length_map] at hlength
  exact ⟨segments, hlength,
    walkForward_tiled_iff _ walkLibraries idleArgs (by decide) januaryFrame segments hrun⟩

end Mtrader.Backtest
