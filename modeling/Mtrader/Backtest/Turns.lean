/-
  Mtrader.Backtest.Turns

  The loop of `run_walk_forward` turn by turn, and that it ends.

  Nothing checks the two lengths of a walk forward.  What makes the loop end is the guard
  on the rows: a window with rows in it has a positive length, so that the cursor moves on
  by a day at least.
-/

import Mtrader.Backtest.WalkForward
import Mtrader.Loop.While

namespace Mtrader.Backtest

open Py Windows

variable {F Statistics : Type}

/-- The windows at a cursor, with the rows in them. -/
structure Samples (F : Type) where
  cursor : Time
  inEnd : Time
  outEnd : Time
  inSample : List (Row F)
  outSample : List (Row F)

/-- The segment that has been evaluated on the windows. -/
def Samples.segment {Statistics : Type} (w : Samples F) (result : BacktestResult F Statistics) :
    Segment F Statistics where
  cursor := w.cursor
  inEnd := w.inEnd
  outEnd := w.outEnd
  inSample := w.inSample
  outSample := w.outSample
  result := result

/-- The condition of the loop and the guard of its body: none where the loop is left.  The
    cursor of an empty frame is `NaT`, which is not less than anything. -/
def WalkLibraries.samples (libs : WalkLibraries F Statistics) (args : WalkArgs F)
    (df : List (Row F)) (cursor : Option Time) : Except Exc (Option (Samples F)) :=
  match cursor, df.getLast? with
  | some cursor, some last =>
      if cursor < last.time then do
        let inEnd ← libs.offset (12 * args.inSampleYears) cursor
        let outEnd ← libs.offset args.outSampleMonths inEnd
        let inSample := within Row.time cursor inEnd df
        let outSample := within Row.time inEnd outEnd df
        if inSample.length < 50 ∨ outSample.length < 20 then return none
        else return some { cursor, inEnd, outEnd, inSample, outSample }
      else .ok none
  | _, _ => .ok none

section

variable [Prims F] [Add F]

/-- One turn of the loop, on the number of the segment and the cursor. -/
def BacktestEngine.turn (engine : BacktestEngine F) (libs : WalkLibraries F Statistics)
    (args : WalkArgs F) (df : List (Row F)) :
    Loop.Turn Exc (ℕ × Option Time) (Segment F Statistics)
  | (k, cursor) => do
      match ← libs.samples args df cursor with
      | none => return none
      | some w =>
          let result ← engine.evaluate libs args w.inSample w.outSample k
          let next ← libs.offset args.outSampleMonths w.cursor
          return some (w.segment result, k + 1, some next)

end

/-- `df.index.min()`; `NaT` for an empty frame. -/
def firstTime (df : List (Row F)) : Option Time := df.head?.map Row.time

-- ============================================================================
-- What a turn does
-- ============================================================================

theorem samples_eq_some {libs : WalkLibraries F Statistics} {args : WalkArgs F}
    {df : List (Row F)} {cursor : Option Time} {w : Samples F}
    (h : libs.samples args df cursor = .ok (some w)) :
    cursor = some w.cursor ∧ (∃ last ∈ df.getLast?, w.cursor < last.time) ∧
      w.inEnd = args.inEnd w.cursor ∧ w.outEnd = args.outEnd w.cursor ∧
      w.inSample = within Row.time w.cursor w.inEnd df ∧
      w.outSample = within Row.time w.inEnd w.outEnd df ∧
      50 ≤ w.inSample.length ∧ 20 ≤ w.outSample.length := by
  unfold WalkLibraries.samples at h
  split at h
  next cursor last hlast =>
    split at h
    next hlt =>
      obtain ⟨inEnd, hin, h⟩ := bind_eq_ok.mp h
      obtain ⟨outEnd, hout, h⟩ := bind_eq_ok.mp h
      simp only at h
      split at h
      next => cases h
      next hmany =>
        cases h
        obtain rfl : inEnd = args.inEnd cursor := offset_eq_ok hin
        refine ⟨rfl, ⟨last, hlast, hlt⟩, rfl, offset_eq_ok hout, rfl, rfl, ?_, ?_⟩
        · exact not_lt.mp fun hfew => hmany (.inl hfew)
        · exact not_lt.mp fun hfew => hmany (.inr hfew)
    next => cases h
  next => cases h

/-- The window after a cursor has rows only if it has a positive length. -/
theorem months_pos_of_rows {args : WalkArgs F} {df : List (Row F)} {t : Time}
    (hrows : within Row.time t (Calendar.shift ticksPerDay args.outSampleMonths t) df ≠ []) :
    0 < args.outSampleMonths := by
  by_contra hmonths
  have hle := Calendar.shift_le ticksPerDay_pos t (not_lt.mp hmonths)
  refine hrows (List.filter_eq_nil_iff.mpr fun row _ hwin => ?_)
  obtain ⟨hfrom, hto⟩ := of_decide_eq_true hwin
  exact absurd (hfrom.trans_lt hto) (not_lt.mpr hle)

section

variable [Prims F] [Add F] {engine : BacktestEngine F} {libs : WalkLibraries F Statistics}
variable {args : WalkArgs F} {df : List (Row F)} {k : ℕ}

/-- A turn that goes on has found its windows filled, and moves the cursor. -/
theorem turn_eq_next {cursor : Option Time} {s : Segment F Statistics} {next : ℕ × Option Time}
    (h : engine.turn libs args df (k, cursor) = .ok (some (s, next))) :
    ∃ (w : Samples F) (result : BacktestResult F Statistics),
      libs.samples args df cursor = .ok (some w) ∧
      engine.evaluate libs args w.inSample w.outSample k = .ok result ∧ s = w.segment result ∧
      next = (k + 1, some (args.next w.cursor)) := by
  unfold BacktestEngine.turn at h
  obtain ⟨o, hw, h⟩ := bind_eq_ok.mp h
  cases o with
  | none => cases h
  | some w =>
      obtain ⟨result, hresult, h⟩ := bind_eq_ok.mp h
      obtain ⟨later, hlater, h⟩ := bind_eq_ok.mp h
      cases h
      obtain rfl : later = args.next w.cursor := offset_eq_ok hlater
      exact ⟨w, result, hw, hresult, rfl, rfl⟩

/-- How many more turns the loop can make. -/
def turnsLeft (df : List (Row F)) (s : ℕ × Option Time) : ℕ :=
  match s.2, df.getLast? with
  | some cursor, some last => if cursor < last.time then turns cursor last.time else 0
  | _, _ => 0

theorem turns_next_lt {cursor next stop : ℤ} (hstep : cursor + ticksPerDay ≤ next)
    (hlt : next < stop) : turns next stop < turns cursor stop := by
  unfold turns
  have hday : ticksPerDay = 86400000000 := rfl
  rw [hday] at hstep ⊢
  omega

/-- A turn that goes on leaves fewer turns. -/
theorem turnsLeft_decreases {s next : ℕ × Option Time} {seg : Segment F Statistics}
    (h : engine.turn libs args df s = .ok (some (seg, next))) :
    turnsLeft df next < turnsLeft df s := by
  obtain ⟨k, cursor⟩ := s
  obtain ⟨w, result, hw, -, -, rfl⟩ := turn_eq_next h
  obtain ⟨rfl, ⟨last, hlast, hlt⟩, hin, hout, -, hrows, -, hmany⟩ := samples_eq_some hw
  have hmonths : 0 < args.outSampleMonths := by
    rw [hout, WalkArgs.outEnd, ← hin] at hrows
    apply months_pos_of_rows
    rw [← hrows]
    exact List.ne_nil_of_length_pos (by omega)
  have hstep := Calendar.add_le_shift ticksPerDay_pos w.cursor hmonths
  have hlast' : df.getLast? = some last := hlast
  simp only [turnsLeft, hlast', if_pos hlt]
  split
  next hlt' => exact turns_next_lt hstep hlt'
  next => exact Nat.succ_pos _

/-- When no turns are left, the loop is left. -/
theorem turn_of_turnsLeft {s : ℕ × Option Time} (h : turnsLeft df s = 0) :
    engine.turn libs args df s = .ok none := by
  obtain ⟨k, cursor⟩ := s
  rw [BacktestEngine.turn]
  cases cursor with
  | none => rfl
  | some cursor =>
      cases hlast : df.getLast? with
      | none =>
          simp only [WalkLibraries.samples, hlast]
          rfl
      | some last =>
          simp only [turnsLeft, hlast] at h
          have hlt : ¬ cursor < last.time := by
            intro hlt
            rw [if_pos hlt] at h
            exact Nat.succ_ne_zero _ h
          simp only [WalkLibraries.samples, hlast, if_neg hlt]
          rfl

-- ============================================================================
-- The whole loop
-- ============================================================================

theorem walk_succ {cursor : Time} {n : ℕ} {last : Row F} (hlast : df.getLast? = some last) :
    engine.walk libs args df last.time (n + 1) k cursor =
      match engine.turn libs args df (k, some cursor) with
      | .error e => .error e
      | .ok none => .ok []
      | .ok (some (s, next)) =>
          (engine.walk libs args df last.time n next.1 (next.2.getD 0)).map (s :: ·) := by
  rw [BacktestEngine.walk, BacktestEngine.turn]
  simp only [WalkLibraries.samples, hlast]
  by_cases hlt : cursor < last.time
  · rw [if_pos hlt, if_pos hlt]
    cases hin : libs.offset (12 * args.inSampleYears) cursor with
    | error e => rfl
    | ok inEnd =>
        cases hout : libs.offset args.outSampleMonths inEnd with
        | error e => simp only [hout, bind, Except.bind]
        | ok outEnd =>
            simp only [hout, bind, Except.bind, pure, Except.pure]
            split
            next => rfl
            next =>
              simp only [Samples.segment]
              cases engine.evaluate libs args (within Row.time cursor inEnd df)
                (within Row.time inEnd outEnd df) k with
              | error e => rfl
              | ok result =>
                  cases libs.offset args.outSampleMonths cursor with
                  | error e => rfl
                  | ok next =>
                      simp only [Option.getD_some]
                      cases engine.walk libs args df last.time n (k + 1) next with
                      | error e => rfl
                      | ok rest => rfl
  · rw [if_neg hlt, if_neg hlt]
    rfl

/-- The bounded loop of the model does what the loop does. -/
theorem walk_of_ends {last : Row F} (hlast : df.getLast? = some last) {m : ℕ}
    {s : ℕ × Option Time} {cursor : Time} (hcursor : s.2 = some cursor)
    {out : Except Exc (List (Segment F Statistics))}
    (hends : Loop.Ends (engine.turn libs args df) m s out) {n : ℕ} (hn : turnsLeft df s ≤ n) :
    engine.walk libs args df last.time n s.1 cursor = out := by
  induction n generalizing m s cursor out with
  | zero =>
      have hleave : engine.turn libs args df s = .ok none :=
        turn_of_turnsLeft (Nat.le_zero.mp hn)
      obtain ⟨-, rfl⟩ := hends.of_leave hleave
      rfl
  | succ n ih =>
      obtain ⟨k, c⟩ := s
      obtain rfl : c = some cursor := hcursor
      rw [walk_succ hlast]
      cases hends with
      | fail h => rw [h]
      | leave h => rw [h]
      | @next _ _ next seg _ h hrest =>
          rw [h]
          have hfewer := turnsLeft_decreases h
          obtain ⟨w, result, -, -, -, rfl⟩ := turn_eq_next h
          simp only [Option.getD_some]
          rw [ih rfl hrest (by omega)]

/-- Whatever the lengths of the windows are, the loop makes finitely many turns, and
    `run_walk_forward` has its outcome. -/
theorem walkForward_ends (engine : BacktestEngine F) (libs : WalkLibraries F Statistics)
    (args : WalkArgs F) (data : List (Row F)) :
    ∃ n ≤ turnsLeft (libs.sortIndex data) (0, firstTime (libs.sortIndex data)),
      Loop.Ends (engine.turn libs args (libs.sortIndex data)) n
        (0, firstTime (libs.sortIndex data)) (engine.walkForward libs args data) := by
  have hdecreases : ∀ s a s', engine.turn libs args (libs.sortIndex data) s = .ok (some (a, s')) →
      turnsLeft (libs.sortIndex data) s' < turnsLeft (libs.sortIndex data) s :=
    fun _ _ _ => turnsLeft_decreases
  obtain ⟨n, hn, out, hends⟩ := Loop.ends_of_variant _ hdecreases
    (0, firstTime (libs.sortIndex data))
  refine ⟨n, hn, ?_⟩
  suffices hout : engine.walkForward libs args data = out by
    rw [hout]
    exact hends
  unfold BacktestEngine.walkForward
  generalize libs.sortIndex data = df at hends
  simp only
  split
  next first last hfirst hlast =>
    rw [firstTime, hfirst] at hends
    refine walk_of_ends hlast rfl hends ?_
    simp only [turnsLeft, hlast, Option.map_some]
    split
    next => exact le_refl _
    next => exact Nat.zero_le _
  next hnone =>
    have hleave : turnsLeft df (0, firstTime df) = 0 := by
      unfold turnsLeft firstTime
      split
      next cursor last hcursor hlast =>
        obtain ⟨first, hfirst, -⟩ := Option.map_eq_some_iff.mp hcursor
        exact absurd hlast (hnone first last hfirst)
      next => rfl
    obtain ⟨-, rfl⟩ := hends.of_leave (turn_of_turnsLeft hleave)
    rfl

end

end Mtrader.Backtest
