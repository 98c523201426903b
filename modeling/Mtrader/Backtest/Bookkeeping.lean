/-
  Mtrader.Backtest.Bookkeeping

  The books of a backtest in exact arithmetic: the equity curve is the initial
  capital plus the profits realised so far, with one value per row, and the trades
  follow one another.

  Exact arithmetic enters through `AddMonoid`: addition is associative and has a
  zero.  `Booked` is the invariant of the loop.
-/

import Mtrader.Backtest.NoLookahead
import Mathlib.Algebra.BigOperators.Group.List.Basic

namespace Mtrader.Backtest

open Py

variable {F Statistics : Type} [AddMonoid F]

/-- The sum of the trades' profits. -/
def realised (trades : List (Trade F)) : F := (trades.map Trade.pnl).sum

/-- The trades that are closed at rows up to `i`. -/
def closedBy (i : ℕ) (trades : List (Trade F)) : List (Trade F) :=
  trades.filter fun t => t.exitRow ≤ i

theorem realised_append (trades : List (Trade F)) (t : Trade F) :
    realised (trades ++ [t]) = realised trades + t.pnl := by
  rw [realised, List.map_append, List.sum_append, List.map_singleton, List.sum_singleton, realised]

omit [AddMonoid F] in
theorem closedBy_eq_self {i : ℕ} {trades : List (Trade F)} (h : ∀ t ∈ trades, t.exitRow ≤ i) :
    closedBy i trades = trades :=
  List.filter_eq_self.mpr fun t ht => decide_eq_true (h t ht)

omit [AddMonoid F] in
theorem closedBy_append_later {i : ℕ} {trades : List (Trade F)} {t : Trade F} (h : i < t.exitRow) :
    closedBy i (trades ++ [t]) = closedBy i trades := by
  rw [closedBy, List.filter_append, closedBy]
  have hnone : [t].filter (fun t => t.exitRow ≤ i) = [] := by
    apply List.filter_eq_nil_iff.mpr
    intro t' ht'
    rw [List.mem_singleton.mp ht']
    simpa using h
  rw [hnone, List.append_nil]

/-- A trade's rows lie in the frame, hold its times, and the entry comes first. -/
structure Trade.Placed (rows : List (Row F)) (t : Trade F) : Prop where
  entry_lt_exit : t.entryRow < t.exitRow
  entry_at : rows[t.entryRow]?.map Row.time = some t.entryTime
  exit_at : rows[t.exitRow]?.map Row.time = some t.exitTime

/-- The loop's variables after the rows `seen`. -/
structure Booked (capital : F) (seen : List (Row F)) (b : Book F) : Prop where
  length : b.equityCurve.length = seen.length
  equity : b.equity = capital + realised b.trades
  curve : ∀ i (hi : i < b.equityCurve.length),
    b.equityCurve[i] = capital + realised (closedBy i b.trades)
  placed : ∀ t ∈ b.trades, t.Placed seen
  sequential : b.trades.Pairwise fun t t' => t.exitRow < t'.entryRow
  /-- An open position was opened after the last trade was closed. -/
  position : ∀ p, b.position = some p →
    seen[p.row]?.map Row.time = some p.time ∧ ∀ t ∈ b.trades, t.exitRow < p.row

variable {capital : F} {seen : List (Row F)} {row : Row F} {b b' : Book F}

omit [AddMonoid F] in
theorem time_at_append {i : ℕ} {time : Time} (rows later : List (Row F))
    (h : rows[i]?.map Row.time = some time) : (rows ++ later)[i]?.map Row.time = some time := by
  obtain ⟨r, hr, rfl⟩ := Option.map_eq_some_iff.mp h
  obtain ⟨hi, -⟩ := List.getElem?_eq_some_iff.mp hr
  rw [List.getElem?_append_left hi, hr]
  rfl

omit [AddMonoid F] in
theorem time_at_last (rows : List (Row F)) (row : Row F) :
    (rows ++ [row])[rows.length]?.map Row.time = some row.time := by
  simp

omit [AddMonoid F] in
theorem lt_length_of_time_at {i : ℕ} {time : Time} {rows : List (Row F)}
    (h : rows[i]?.map Row.time = some time) : i < rows.length := by
  obtain ⟨r, hr, -⟩ := Option.map_eq_some_iff.mp h
  obtain ⟨hi, -⟩ := List.getElem?_eq_some_iff.mp hr
  exact hi

omit [AddMonoid F] in
theorem Trade.Placed.append {t : Trade F} (h : t.Placed seen) (later : List (Row F)) :
    t.Placed (seen ++ later) :=
  ⟨h.entry_lt_exit, time_at_append seen later h.entry_at, time_at_append seen later h.exit_at⟩

/-- Appending the value of this row to the curve. -/
theorem Booked.curve_mark (hlength : b.equityCurve.length = seen.length)
    (hcurve : ∀ i (hi : i < b.equityCurve.length),
      b.equityCurve[i] = capital + realised (closedBy i b.trades))
    (hequity : b.equity = capital + realised b.trades)
    (hclosed : ∀ t ∈ b.trades, t.exitRow ≤ seen.length)
    (i : ℕ) (hi : i < b.mark.equityCurve.length) :
    b.mark.equityCurve[i] = capital + realised (closedBy i b.trades) := by
  have hmark : b.mark.equityCurve = b.equityCurve ++ [b.equity] := rfl
  simp only [hmark, List.length_append, List.length_singleton] at hi ⊢
  rcases Nat.lt_or_ge i b.equityCurve.length with hlt | hge
  · rw [List.getElem_append_left hlt, hcurve i hlt]
  · have heq : i = b.equityCurve.length := by omega
    subst heq
    rw [List.getElem_append_right (le_refl _), closedBy_eq_self]
    · simpa using hequity
    · intro t ht
      rw [hlength]
      exact hclosed t ht

theorem Booked.step (h : Booked capital seen b) (he : RowEffect seen.length row.time b b') :
    Booked capital (seen ++ [row]) b' := by
  have hlength : ∀ b₁ : Book F, b₁.equityCurve = b.equityCurve →
      b₁.mark.equityCurve.length = (seen ++ [row]).length := by
    intro b₁ heq
    rw [show b₁.mark.equityCurve = b₁.equityCurve ++ [b₁.equity] from rfl, heq, List.length_append,
      List.length_append, h.length, List.length_singleton, List.length_singleton]
  have hclosed : ∀ t ∈ b.trades, t.exitRow < seen.length :=
    fun t ht => lt_length_of_time_at (h.placed t ht).exit_at
  have hplaced : ∀ t ∈ b.trades, t.Placed (seen ++ [row]) := fun t ht => (h.placed t ht).append _
  cases he with
  | idle =>
      refine ⟨hlength b rfl, h.equity, ?_, hplaced, h.sequential, ?_⟩
      · exact Booked.curve_mark h.length h.curve h.equity fun t ht => (hclosed t ht).le
      · intro p hp
        obtain ⟨hat, hlast⟩ := h.position p hp
        exact ⟨time_at_append _ _ hat, hlast⟩
  | entry p hnone hrow htime =>
      refine ⟨hlength _ rfl, h.equity, ?_, hplaced, h.sequential, ?_⟩
      · exact Booked.curve_mark (b := { b with position := some p }) h.length h.curve h.equity
          fun t ht => (hclosed t ht).le
      · intro p' hp'
        cases hp'
        rw [hrow, htime]
        exact ⟨time_at_last seen row, hclosed⟩
  | exit p t hsome hentry hexit hentryTime hexitTime =>
      obtain ⟨hopened, hlast⟩ := h.position p hsome
      have hbefore : p.row < seen.length := lt_length_of_time_at hopened
      have hequity : b.equity + t.pnl = capital + realised (b.trades ++ [t]) := by
        rw [realised_append, h.equity, add_assoc]
      -- The new trade is closed at this row, so that it does not change an earlier value.
      have hcurve : ∀ i (hi : i < b.equityCurve.length),
          b.equityCurve[i] = capital + realised (closedBy i (b.trades ++ [t])) := by
        intro i hi
        rw [closedBy_append_later, h.curve i hi]
        rw [hexit, ← h.length]
        exact hi
      have hall : ∀ t' ∈ b.trades ++ [t], t'.exitRow ≤ seen.length := by
        intro t' ht'
        rcases List.mem_append.mp ht' with ht' | ht'
        · exact (hclosed t' ht').le
        · rw [List.mem_singleton.mp ht', hexit]
      refine ⟨hlength _ rfl, hequity, ?_, ?_, ?_, nofun⟩
      · exact Booked.curve_mark
          (b := { b with equity := b.equity + t.pnl, trades := b.trades ++ [t], position := none })
          h.length hcurve hequity hall
      · intro t' ht'
        rcases List.mem_append.mp ht' with ht' | ht'
        · exact hplaced t' ht'
        · rw [List.mem_singleton.mp ht']
          refine ⟨by rw [hentry, hexit]; exact hbefore, ?_, ?_⟩
          · rw [hentry, hentryTime]
            exact time_at_append _ _ hopened
          · rw [hexit, hexitTime]
            exact time_at_last seen row
      · refine List.pairwise_append.mpr ⟨h.sequential, List.pairwise_singleton _ _, ?_⟩
        intro t' ht' t'' ht''
        rw [List.mem_singleton.mp ht'', hentry]
        exact hlast t' ht'

/-- The books after the loop. -/
theorem loop_booked [Prims F] {libs : Libraries F Statistics} {engine : BacktestEngine F}
    {strategy : Strategy F} {flags : Flags} {params : Dict ParamKey F} {rows : List (Row F)}
    (h : Loop.run (onRow libs engine strategy flags params) [] rows { equity := capital } = .ok b) :
    Booked capital rows b := by
  have hempty : Booked capital [] ({ equity := capital } : Book F) := by
    refine ⟨rfl, ?_, nofun, nofun, .nil, nofun⟩
    rw [realised, List.map_nil, List.sum_nil, add_zero]
  have hbooked := Loop.run_invariant (I := Booked capital) h hempty
    fun _ _ _ _ hb hrow => hb.step (onRow_effect hrow)
  rw [List.nil_append] at hbooked
  exact hbooked

/-- The last value of the curve counts all trades. -/
theorem Booked.final (h : Booked capital seen b) :
    b.equityCurve.getLast?.getD capital = capital + realised b.trades := by
  have hclosed : ∀ t ∈ b.trades, t.exitRow < b.equityCurve.length := by
    intro t ht
    rw [h.length]
    exact lt_length_of_time_at (h.placed t ht).exit_at
  rw [List.getLast?_eq_getElem?]
  rcases Nat.eq_zero_or_pos b.equityCurve.length with hzero | hpos
  · have hnone : b.trades = [] := by
      rw [List.eq_nil_iff_forall_not_mem]
      intro t ht
      have hlt := hclosed t ht
      omega
    rw [hnone, List.getElem?_eq_none (by omega), realised, List.map_nil, List.sum_nil, add_zero]
    rfl
  · have hlast : b.equityCurve.length - 1 < b.equityCurve.length := by omega
    rw [List.getElem?_eq_getElem hlast, Option.getD_some, h.curve _ hlast, closedBy_eq_self]
    intro t ht
    have hlt := hclosed t ht
    omega

/-- No trade is closed in the first row. -/
theorem Booked.first (h : Booked capital seen b) (hpos : 0 < b.equityCurve.length) :
    b.equityCurve[0] = capital := by
  have hnone : closedBy 0 b.trades = [] := by
    refine List.filter_eq_nil_iff.mpr fun t ht hexit => ?_
    have hlt := (h.placed t ht).entry_lt_exit
    have hle : t.exitRow ≤ 0 := of_decide_eq_true hexit
    omega
  rw [h.curve 0 hpos, hnone, realised, List.map_nil, List.sum_nil, add_zero]

/-- The books of a run that returns, in exact arithmetic. -/
theorem run_books [Prims F] {libs : Libraries F Statistics} {engine : BacktestEngine F}
    {strategy : Strategy F} {strategyName : String} {data : List (Row F)} {initialCapital : F}
    {flags : Flags} {params : Dict ParamKey F} {res : BacktestResult F Statistics}
    (h : engine.run libs strategy strategyName data initialCapital flags params = .ok res) :
    res.equityCurve.length = data.length ∧
      (∀ i (hi : i < res.equityCurve.length),
        res.equityCurve[i] = initialCapital + realised (closedBy i res.trades)) ∧
      res.finalCapital = initialCapital + realised res.trades ∧
      (∀ t ∈ res.trades, t.Placed (libs.sortIndex data)) ∧
      res.trades.Pairwise fun t t' => t.exitRow < t'.entryRow := by
  obtain ⟨b, hloop, hcurve, htrades, hfinal⟩ := BacktestEngine.run_eq_ok h
  have hbooked := loop_booked hloop
  rw [hcurve, htrades, hfinal]
  refine ⟨?_, hbooked.curve, hbooked.final, hbooked.placed, hbooked.sequential⟩
  rw [hbooked.length, (libs.sortIndex_perm data).length_eq]

/-- A long trade from 100 to 110, less a commission of 7. -/
theorem run_books_alternate :
    ∃ res : BacktestResult ℚ Unit, runAlternate [priceRow 1 100, priceRow 2 110] = .ok res ∧
      res.finalCapital = 10003 ∧ res.finalCapital = 10000 + realised res.trades := by
  obtain ⟨res, hrun, hfinal⟩ := exists_result [priceRow 1 100, priceRow 2 110]
    (fun res => res.finalCapital = 10003) (by decide +kernel)
  exact ⟨res, hrun, of_decide_eq_true hfinal, (run_books hrun).2.2.1⟩

end Mtrader.Backtest
