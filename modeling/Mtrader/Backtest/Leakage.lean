/-
  Mtrader.Backtest.Leakage

  What the parameters of a segment of a walk forward depend on.

  The windows, and whether the loop goes on, depend on the index of the frame; the
  parameters depend on the rows of the in-sample window.  A turn takes as many random draws
  as any other, so the number of a segment is its place in the stream of the draws.
-/

import Mtrader.Backtest.Turns

namespace Mtrader.Backtest

open Py Windows

variable {F Statistics : Type}

/-- `sort_index` moves rows by the values of the index alone. -/
def Libraries.SortsByIndex (libs : Libraries F Statistics) : Prop :=
  ∃ order : List Time → List ℕ, ∀ rows,
    libs.sortIndex rows = (order (rows.map Row.time)).filterMap fun i => rows[i]?

/-- The frames have the same rows before `t`. -/
def AgreeBefore (t : Time) : List (Row F) → List (Row F) → Prop :=
  List.Forall₂ fun row row' => row.time < t → row = row'

/-- The end of the in-sample window of segment number `k`. -/
def WalkLibraries.inEndOf (libs : WalkLibraries F Statistics) (args : WalkArgs F)
    (data : List (Row F)) (k : ℕ) : Option Time :=
  (firstTime (libs.sortIndex data)).map fun start => args.inEnd (args.cursorAt start k)

section

variable [Prims F] [Add F]

/-- `best_params`, after the optimisation of segment number `k`. -/
def BacktestEngine.bestParams (engine : BacktestEngine F) (libs : WalkLibraries F Statistics)
    (args : WalkArgs F) (inSample : List (Row F)) (k : ℕ) : Except Exc (Dict ParamKey F) :=
  let iterations := if args.paramSpace.isEmpty then 1 else args.optimizationIterations.toNat
  (engine.optimize libs args inSample k iterations 0
    ⟨Dict.empty, Prims.ofRat (-1000000000)⟩).map Best.params

/-- `best_params` of segment number `k` of a walk forward; none when there are no more than
    `k` segments. -/
def BacktestEngine.chosen (engine : BacktestEngine F) (libs : WalkLibraries F Statistics)
    (args : WalkArgs F) (data : List (Row F)) (k : ℕ) :
    Except Exc (Option (Dict ParamKey F)) := do
  let df := libs.sortIndex data
  match ← Loop.before (engine.turn libs args df) k (0, firstTime df) with
  | none => return none
  | some (k, cursor) =>
      match ← libs.samples args df cursor with
      | none => return none
      | some w => return some (← engine.bestParams libs args w.inSample k)

end

-- ============================================================================
-- Frames with the same index
-- ============================================================================

/-- The rows of the same place have the same time, and are the same before `t`. -/
def Alike (t : Time) : List (Row F) → List (Row F) → Prop :=
  List.Forall₂ fun row row' => row.time = row'.time ∧ (row.time < t → row = row')

variable {t : Time} {data data' df df' : List (Row F)}

theorem alike_of_agree (hindex : data.map Row.time = data'.map Row.time)
    (hagree : AgreeBefore t data data') : Alike t data data' := by
  induction hagree with
  | nil => exact .nil
  | cons hrow _ ih =>
      obtain ⟨htime, hrest⟩ := List.cons.inj hindex
      exact .cons ⟨htime, hrow⟩ (ih hrest)

theorem Alike.times (h : Alike t df df') : df.map Row.time = df'.map Row.time := by
  induction h with
  | nil => rfl
  | cons hrow _ ih => rw [List.map_cons, List.map_cons, hrow.1, ih]

theorem Alike.getElem? (h : Alike t df df') (i : ℕ) :
    Option.Rel (fun row row' => row.time = row'.time ∧ (row.time < t → row = row'))
      df[i]? df'[i]? := by
  induction h generalizing i with
  | nil => exact .none
  | cons hrow _ ih =>
      cases i with
      | zero => exact .some hrow
      | succ i => exact ih i

/-- Sorting keeps frames alike. -/
theorem Alike.sortIndex {libs : Libraries F Statistics} (hsorts : libs.SortsByIndex)
    (h : Alike t data data') : Alike t (libs.sortIndex data) (libs.sortIndex data') := by
  obtain ⟨order, horder⟩ := hsorts
  rw [horder, horder, h.times]
  generalize order (data'.map Row.time) = places
  induction places with
  | nil => exact .nil
  | cons i places ih =>
      have hi := h.getElem? i
      rw [List.filterMap_cons, List.filterMap_cons]
      cases hrow : data[i]? with
      | none =>
          rw [hrow] at hi
          cases hrow' : data'[i]? with
          | none => exact ih
          | some row' =>
              rw [hrow'] at hi
              cases hi
      | some row =>
          rw [hrow] at hi
          cases hrow' : data'[i]? with
          | none =>
              rw [hrow'] at hi
              cases hi
          | some row' =>
              rw [hrow'] at hi
              cases hi with
              | some hi => exact .cons hi ih

theorem Alike.length_within (h : Alike t df df') (lo hi : Time) :
    (within Row.time lo hi df).length = (within Row.time lo hi df').length := by
  unfold within
  induction h with
  | nil => rfl
  | @cons row row' _ _ hrow _ ih =>
      rw [List.filter_cons, List.filter_cons, ← hrow.1]
      split
      next => rw [List.length_cons, List.length_cons, ih]
      next => exact ih

/-- A window before `t` has the same rows in both. -/
theorem Alike.within_eq (h : Alike t df df') (lo : Time) {hi : Time} (hhi : hi ≤ t) :
    within Row.time lo hi df = within Row.time lo hi df' := by
  unfold within
  induction h with
  | nil => rfl
  | @cons row row' _ _ hrow _ ih =>
      by_cases hlt : row.time < t
      · obtain rfl := hrow.2 hlt
        rw [List.filter_cons, List.filter_cons, ih]
      · have hout : ¬ (lo ≤ row.time ∧ row.time < hi) := fun hin => hlt (hin.2.trans_le hhi)
        have hout' : ¬ (lo ≤ row'.time ∧ row'.time < hi) := by
          rw [← hrow.1]
          exact hout
        rw [List.filter_cons_of_neg (by simpa using hout),
          List.filter_cons_of_neg (by simpa using hout'), ih]

theorem Alike.getLast? (h : Alike t df df') :
    df.getLast?.map Row.time = df'.getLast?.map Row.time := by
  rw [← List.getLast?_map, ← List.getLast?_map, h.times]

theorem Alike.firstTime (h : Alike t df df') : firstTime df = firstTime df' := by
  unfold Backtest.firstTime
  rw [← List.head?_map, ← List.head?_map, h.times]

-- ============================================================================
-- The loop on two frames
-- ============================================================================

variable {libs : WalkLibraries F Statistics} {args : WalkArgs F}

variable (args) in
/-- Windows at the same cursor, with the same in-sample rows if these are before `t`. -/
structure SamplesAlike (t : Time) (w w' : Samples F) : Prop where
  cursor : w.cursor = w'.cursor
  inSample : args.inEnd w.cursor ≤ t → w.inSample = w'.inSample

/-- Whether a turn goes on depends on the index. -/
theorem Alike.samples (h : Alike t df df') {cursor : Option Time} {o o' : Option (Samples F)}
    (ho : libs.samples args df cursor = .ok o) (ho' : libs.samples args df' cursor = .ok o') :
    Option.Rel (SamplesAlike args t) o o' := by
  have hlast := h.getLast?
  unfold WalkLibraries.samples at ho ho'
  cases cursor with
  | none =>
      cases ho
      cases ho'
      exact .none
  | some cursor =>
      cases hl : df.getLast? with
      | none =>
          rw [hl] at hlast
          rw [Option.map_eq_none_iff.mp hlast.symm] at ho'
          rw [hl] at ho
          cases ho
          cases ho'
          exact .none
      | some last =>
          rw [hl] at hlast ho
          obtain ⟨last', hl', htime⟩ := Option.map_eq_some_iff.mp hlast.symm
          rw [hl'] at ho'
          simp only [htime] at ho'
          simp only at ho
          split at ho
          next hlt =>
            rw [if_pos hlt] at ho'
            obtain ⟨inEnd, hin, ho⟩ := bind_eq_ok.mp ho
            obtain ⟨outEnd, hout, ho⟩ := bind_eq_ok.mp ho
            obtain ⟨inEnd', hin', ho'⟩ := bind_eq_ok.mp ho'
            obtain ⟨outEnd', hout', ho'⟩ := bind_eq_ok.mp ho'
            obtain rfl : inEnd' = inEnd := by
              rw [offset_eq_ok hin, offset_eq_ok hin']
            obtain rfl : outEnd' = outEnd := by
              rw [offset_eq_ok hout, offset_eq_ok hout']
            simp only [h.length_within] at ho
            split at ho
            next hfew =>
              rw [if_pos hfew] at ho'
              cases ho
              cases ho'
              exact .none
            next hmany =>
              rw [if_neg hmany] at ho'
              cases ho
              cases ho'
              refine .some ⟨rfl, fun hbefore => h.within_eq cursor ?_⟩
              rw [offset_eq_ok hin]
              exact hbefore
          next hlt =>
            rw [if_neg hlt] at ho'
            cases ho
            cases ho'
            exact .none

section

variable [Prims F] [Add F] {engine : BacktestEngine F}

theorem turn_eq_ok {df : List (Row F)} {s : ℕ × Option Time}
    {o : Option (Segment F Statistics × ℕ × Option Time)}
    (h : engine.turn libs args df s = .ok o) :
    ∃ w, libs.samples args df s.2 = .ok w ∧
      o.map Prod.snd = w.map fun w => (s.1 + 1, some (args.next w.cursor)) := by
  cases o with
  | some next =>
      have hturn : engine.turn libs args df (s.1, s.2) = .ok (some (next.1, next.2)) := h
      obtain ⟨w, result, hw, -, -, hnext⟩ := turn_eq_next hturn
      exact ⟨some w, hw, congrArg some hnext⟩
  | none =>
      rw [BacktestEngine.turn] at h
      obtain ⟨w, hw, h⟩ := bind_eq_ok.mp h
      cases w with
      | none => exact ⟨none, hw, rfl⟩
      | some w =>
          obtain ⟨result, -, h⟩ := bind_eq_ok.mp h
          obtain ⟨next, -, h⟩ := bind_eq_ok.mp h
          cases h

/-- The cursor of turn number `k`, if the loop gets there. -/
theorem before_eq_some {df : List (Row F)} {k j n : ℕ} {start cursor : Option Time}
    (h : Loop.before (engine.turn libs args df) k (j, start) = .ok (some (n, cursor))) :
    n = j + k ∧ cursor = start.map fun t => args.cursorAt t k := by
  induction k generalizing j start with
  | zero =>
      cases h
      refine ⟨rfl, ?_⟩
      cases cursor <;> rfl
  | succ k ih =>
      rw [Loop.before] at h
      cases hturn : engine.turn libs args df (j, start) with
      | error e =>
          rw [hturn] at h
          cases h
      | ok o =>
          rw [hturn] at h
          cases o with
          | none => cases h
          | some next =>
              obtain ⟨s, next⟩ := next
              obtain ⟨w, result, hw, -, -, rfl⟩ := turn_eq_next hturn
              obtain ⟨rfl, -⟩ := samples_eq_some hw
              obtain ⟨hn, hcursor⟩ := ih h
              refine ⟨by omega, ?_⟩
              rw [hcursor, Option.map_some, Option.map_some]
              exact congrArg some (Function.iterate_succ_apply args.next k w.cursor).symm

/-- Two frames with the same index go through the same turns. -/
theorem Alike.turn (h : Alike t df df') {s : ℕ × Option Time}
    {o o' : Option (Segment F Statistics × ℕ × Option Time)}
    (ho : engine.turn libs args df s = .ok o) (ho' : engine.turn libs args df' s = .ok o') :
    o.map Prod.snd = o'.map Prod.snd := by
  obtain ⟨w, hw, hnext⟩ := turn_eq_ok ho
  obtain ⟨w', hw', hnext'⟩ := turn_eq_ok ho'
  rw [hnext, hnext']
  cases h.samples hw hw' with
  | none => rfl
  | some hsame => rw [Option.map_some, Option.map_some, hsame.cursor]

/-- Of two frames with the same index that have the same rows before the end of the
    in-sample window of a segment, the segment has the same parameters. -/
theorem chosen_no_leak (engine : BacktestEngine F) (libs : WalkLibraries F Statistics)
    (hsorts : libs.SortsByIndex) (args : WalkArgs F) (data data' : List (Row F)) (k : ℕ)
    (hindex : data.map Row.time = data'.map Row.time)
    (hagree : ∀ t ∈ libs.inEndOf args data k, AgreeBefore t data data')
    {o o' : Option (Dict ParamKey F)} (h : engine.chosen libs args data k = .ok o)
    (h' : engine.chosen libs args data' k = .ok o') : o = o' := by
  cases hfirst : firstTime (libs.sortIndex data) with
  | none =>
      have hsorted : libs.sortIndex data = [] :=
        List.head?_eq_none_iff.mp (Option.map_eq_none_iff.mp hfirst)
      have hempty : data = [] := by
        have hperm := libs.sortIndex_perm data
        rw [hsorted] at hperm
        exact hperm.nil_eq.symm
      have hempty' : data' = [] := by
        rw [hempty] at hindex
        exact List.map_eq_nil_iff.mp hindex.symm
      rw [hempty] at h
      rw [hempty', h] at h'
      exact Except.ok.inj h'
  | some first =>
      have hat : args.inEnd (args.cursorAt first k) ∈ libs.inEndOf args data k := by
        rw [WalkLibraries.inEndOf, hfirst]
        rfl
      have halike := (alike_of_agree hindex (hagree _ hat)).sortIndex hsorts
      obtain ⟨b, hb, h⟩ := bind_eq_ok.mp h
      obtain ⟨b', hb', h'⟩ := bind_eq_ok.mp h'
      rw [← halike.firstTime] at hb'
      obtain rfl : b = b' := Loop.before_congr (fun _ _ _ => halike.turn) hb hb'
      cases b with
      | none =>
          cases h
          cases h'
          rfl
      | some s =>
          obtain ⟨n, cursor⟩ := s
          obtain ⟨ow, hw, h⟩ := bind_eq_ok.mp h
          obtain ⟨ow', hw', h'⟩ := bind_eq_ok.mp h'
          obtain ⟨-, hcursor⟩ := before_eq_some hb
          cases halike.samples hw hw' with
          | none =>
              cases h
              cases h'
              rfl
          | @some w w' hsame =>
              obtain ⟨hw, -⟩ := samples_eq_some hw
              rw [hw, hfirst, Option.map_some] at hcursor
              have hrows : w.inSample = w'.inSample := by
                apply hsame.inSample
                rw [Option.some.inj hcursor]
              simp only [hrows] at h
              exact Except.ok.inj (h.symm.trans h')

theorem evaluate_eq (inSample outSample : List (Row F)) (k : ℕ) :
    engine.evaluate libs args inSample outSample k =
      engine.bestParams libs args inSample k >>= fun params =>
        if (params .optimizationIterations).isSome then
          .error (.typeError
            "run() got multiple values for keyword argument 'optimization_iterations'")
        else
          engine.runWith libs.toLibraries args outSample
            (Function.update params .optimizationIterations
              (some (.int args.optimizationIterations))) := by
  unfold BacktestEngine.evaluate BacktestEngine.bestParams
  simp only
  cases engine.optimize libs args inSample k
    (if args.paramSpace.isEmpty then 1 else args.optimizationIterations.toNat) 0
    ⟨Dict.empty, Prims.ofRat (-1000000000)⟩ with
  | error e => rfl
  | ok best => rfl

/-- A segment of a walk forward is evaluated with the parameters that were chosen for it. -/
theorem walkForward_chosen {segments : List (Segment F Statistics)}
    (h : engine.walkForward libs args data = .ok segments) (k : ℕ) (hk : k < segments.length) :
    ∃ params, engine.chosen libs args data k = .ok (some params) ∧
      engine.runWith libs.toLibraries args segments[k].outSample
        (Function.update params .optimizationIterations
          (some (.int args.optimizationIterations))) = .ok segments[k].result := by
  obtain ⟨n, -, hends⟩ := walkForward_ends engine libs args data
  obtain ⟨-, hturns, -⟩ := hends.turn_of_lt h
  obtain ⟨s, next, hbefore, hturn⟩ := hturns k hk
  obtain ⟨j, cursor⟩ := s
  obtain ⟨rfl, -⟩ := before_eq_some hbefore
  obtain ⟨w, result, hw, hresult, hsegment, -⟩ := turn_eq_next hturn
  rw [evaluate_eq] at hresult
  obtain ⟨params, hparams, hrun⟩ := bind_eq_ok.mp hresult
  split at hrun
  next => cases hrun
  next =>
    refine ⟨params, ?_, ?_⟩
    · rw [Nat.zero_add] at hparams hbefore
      unfold BacktestEngine.chosen
      simp only [hbefore, hw, hparams, bind, Except.bind]
      rfl
    · rw [hsegment]
      exact hrun

end

-- Two frames that part at the end of the in-sample window of the second segment

theorem exactLibraries_sortsByIndex : exactLibraries.SortsByIndex := by
  refine ⟨fun times => ((times.zipIdx).insertionSort fun p q => p.1 ≤ q.1).map Prod.snd, ?_⟩
  intro rows
  have htimes : (rows.map Row.time).zipIdx = rows.zipIdx.map fun p => (p.1.time, p.2) :=
    List.zipIdx_map ..
  have horder : ((rows.map Row.time).zipIdx.insertionSort fun p q => p.1 ≤ q.1) =
      (rows.zipIdx.insertionSort fun p q => p.1.time ≤ q.1.time).map fun p => (p.1.time, p.2) := by
    rw [htimes]
    exact (List.map_insertionSort (r := fun p q : Row ℚ × ℕ => p.1.time ≤ q.1.time)
      (s := fun p q : Time × ℕ => p.1 ≤ q.1) _ _ fun _ _ _ _ => Iff.rfl).symm
  have hrows : exactLibraries.sortIndex rows =
      (rows.zipIdx.insertionSort fun p q => p.1.time ≤ q.1.time).map Prod.fst := by
    rw [List.map_insertionSort (r := fun p q : Row ℚ × ℕ => p.1.time ≤ q.1.time)
      (s := fun row row' : Row ℚ => row.time ≤ row'.time) _ _ fun _ _ _ _ => Iff.rfl,
      List.zipIdx_map_fst]
    rfl
  have hplace : ∀ p ∈ rows.zipIdx.insertionSort fun p q => p.1.time ≤ q.1.time,
      rows[p.2]? = some p.1 := fun p hp =>
    List.mem_zipIdx_iff_getElem?.mp ((List.perm_insertionSort _ _).mem_iff.mp hp)
  simp only [horder, hrows, List.map_map, List.filterMap_map]
  rw [List.filterMap_congr (g := fun p => some p.1) hplace, List.filterMap_eq_map']

/-- A walk forward by a month that chooses between two sizes. -/
def choosyArgs : WalkArgs ℚ :=
  { idleArgs with optimizationIterations := 2, paramSpace := [(.size, [.int 1, .int 2])] }

/-- The January frame with another price in its last rows. -/
def otherJanuaryFrame : List (Row ℚ) :=
  januaryFrame.take 51 ++ (januaryFrame.drop 51).map fun row => priceRow row.time 2

theorem exists_chosen (data : List (Row ℚ)) (k : ℕ)
    (h : ((BacktestEngine.default.chosen walkLibraries choosyArgs data k).toOption.bind id).isSome
      = true) :
    ∃ params,
      BacktestEngine.default.chosen walkLibraries choosyArgs data k = .ok (some params) := by
  cases hrun : BacktestEngine.default.chosen walkLibraries choosyArgs data k with
  | error e =>
      rw [hrun] at h
      cases h
  | ok o =>
      rw [hrun] at h
      cases o with
      | none => cases h
      | some params => exact ⟨params, rfl⟩

theorem chosen_no_leak_january :
    januaryFrame.map (fun row => row.cells .close)
        ≠ otherJanuaryFrame.map (fun row => row.cells .close) ∧
      ∃ params params',
        BacktestEngine.default.chosen walkLibraries choosyArgs januaryFrame 1
            = .ok (some params) ∧
          BacktestEngine.default.chosen walkLibraries choosyArgs otherJanuaryFrame 1
            = .ok (some params') ∧
          some params = some params' := by
  obtain ⟨params, hparams⟩ := exists_chosen januaryFrame 1 (by decide +kernel)
  obtain ⟨params', hparams'⟩ :=
    exists_chosen otherJanuaryFrame 1 (by decide +kernel)
  have hagree : ∀ t ∈ walkLibraries.inEndOf choosyArgs januaryFrame 1,
      AgreeBefore t januaryFrame otherJanuaryFrame := by
    intro t ht
    have hend : walkLibraries.inEndOf choosyArgs januaryFrame 1 = some (19781 * ticksPerDay) := by
      decide +kernel
    obtain rfl : 19781 * ticksPerDay = t := Option.some.inj (hend.symm.trans ht)
    have hlater : ∀ row ∈ januaryFrame.drop 51, ¬ row.time < 19781 * ticksPerDay := by
      decide +kernel
    have hsame : AgreeBefore (19781 * ticksPerDay) (januaryFrame.take 51) (januaryFrame.take 51) :=
      List.forall₂_same.mpr fun _ _ _ => rfl
    have hother : AgreeBefore (19781 * ticksPerDay) (januaryFrame.drop 51)
        ((januaryFrame.drop 51).map fun row => priceRow row.time 2) :=
      List.forall₂_map_right_iff.mpr
        (List.forall₂_same.mpr fun row hrow hlt => absurd hlt (hlater row hrow))
    rw [← List.take_append_drop 51 januaryFrame]
    exact List.rel_append hsame hother
  exact ⟨by decide +kernel, params, params', hparams, hparams',
    chosen_no_leak _ walkLibraries exactLibraries_sortsByIndex choosyArgs januaryFrame
      otherJanuaryFrame 1 (by decide +kernel) hagree hparams hparams'⟩

end Mtrader.Backtest
