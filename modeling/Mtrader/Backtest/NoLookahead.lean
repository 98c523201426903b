/-
  Mtrader.Backtest.NoLookahead

  What a backtest has computed after `k` rows depends on these rows alone.

  The loop is causal, so two runs on frames with the same first `k` rows agree at
  row `k`.  From there on a run only appends: values to the equity curve, and
  trades that are closed at later rows.
-/

import Mtrader.Backtest.Engine
import Mathlib.Data.List.Sort

namespace Mtrader.Backtest

open Py

variable {F Statistics : Type}

/-- `b'` is `b` with values appended to the curve for the rows from `seen` to `now`, and
    with trades that were closed at these rows. -/
def Extends (seen : List (Row F)) (b : Book F) (now : List (Row F)) (b' : Book F) : Prop :=
  ∃ later values trades, now = seen ++ later ∧
    b'.equityCurve = b.equityCurve ++ values ∧ values.length = later.length ∧
    b'.trades = b.trades ++ trades ∧ ∀ t ∈ trades, t.exitTime ∈ later.map Row.time

theorem Extends.refl (seen : List (Row F)) (b : Book F) : Extends seen b seen b :=
  ⟨[], [], [], by simp, by simp, rfl, by simp, by simp⟩

section

variable [Add F]

theorem RowEffect.appends {i : ℕ} {time : Time} {b b' : Book F} (h : RowEffect i time b b') :
    (∃ value, b'.equityCurve = b.equityCurve ++ [value]) ∧
      (b'.trades = b.trades ∨ ∃ t, b'.trades = b.trades ++ [t] ∧ t.exitTime = time) := by
  cases h with
  | idle => exact ⟨⟨_, rfl⟩, .inl rfl⟩
  | entry p _ _ _ => exact ⟨⟨_, rfl⟩, .inl rfl⟩
  | exit p t _ _ _ _ htime => exact ⟨⟨_, rfl⟩, .inr ⟨t, rfl, htime⟩⟩

theorem Extends.step {seen now : List (Row F)} {row : Row F} {i : ℕ} {b b₁ b' : Book F}
    (h : Extends seen b now b₁) (he : RowEffect i row.time b₁ b') :
    Extends seen b (now ++ [row]) b' := by
  obtain ⟨later, values, trades, rfl, hcurve, hlength, htrades, hexit⟩ := h
  obtain ⟨⟨value, hvalue⟩, hnew⟩ := he.appends
  have hcurve' : b'.equityCurve = b.equityCurve ++ (values ++ [value]) := by
    rw [hvalue, hcurve, List.append_assoc]
  have hlength' : (values ++ [value]).length = (later ++ [row]).length := by
    rw [List.length_append, List.length_append, hlength, List.length_singleton,
      List.length_singleton]
  have hold : ∀ t ∈ trades, t.exitTime ∈ (later ++ [row]).map Row.time := by
    intro t ht
    rw [List.map_append]
    exact List.mem_append_left _ (hexit t ht)
  rcases hnew with hsame | ⟨t, ht, htime⟩
  · refine ⟨later ++ [row], values ++ [value], trades, List.append_assoc _ _ _, hcurve', hlength',
      ?_, hold⟩
    rw [hsame, htrades]
  · refine ⟨later ++ [row], values ++ [value], trades ++ [t], List.append_assoc _ _ _, hcurve',
      hlength', ?_, ?_⟩
    · rw [ht, htrades, List.append_assoc]
    · intro t' ht'
      rcases List.mem_append.mp ht' with ht' | ht'
      · exact hold t' ht'
      · rw [List.mem_singleton.mp ht', htime, List.map_append]
        exact List.mem_append_right _ (List.mem_singleton.mpr rfl)

end

section

variable [Prims F] [Add F]

/-- The loop only appends. -/
theorem loop_extends {libs : Libraries F Statistics} {engine : BacktestEngine F}
    {strategy : Strategy F} {flags : Flags} {params : Dict ParamKey F} {seen rest : List (Row F)}
    {b b' : Book F}
    (h : Loop.run (onRow libs engine strategy flags params) seen rest b = .ok b') :
    Extends seen b (seen ++ rest) b' :=
  Loop.run_invariant (I := Extends seen b) h (Extends.refl seen b) fun _ _ _ _ hext hrow =>
    hext.step (onRow_effect hrow)

/-- The first `k` values of the curve, and the trades closed in the first `k` rows, are
    those of a book that depends on these rows alone. -/
theorem run_take {libs : Libraries F Statistics} {engine : BacktestEngine F} {strategy : Strategy F}
    {strategyName : String} {data : List (Row F)} {initialCapital : F} {flags : Flags}
    {params : Dict ParamKey F} {res : BacktestResult F Statistics}
    (hdistinct : (data.map Row.time).Nodup)
    (h : engine.run libs strategy strategyName data initialCapital flags params = .ok res) (k : ℕ) :
    ∃ b : Book F,
      Loop.run (onRow libs engine strategy flags params) [] ((libs.sortIndex data).take k)
          { equity := initialCapital } = .ok b ∧
        res.equityCurve.take k = b.equityCurve ∧
        res.trades.filter
          (fun t => t.exitTime ∈ ((libs.sortIndex data).take k).map Row.time) = b.trades := by
  obtain ⟨b', hloop, hcurve, htrades, -⟩ := BacktestEngine.run_eq_ok h
  have hnodup : ((libs.sortIndex data).map Row.time).Nodup :=
    ((libs.sortIndex_perm data).map Row.time).nodup_iff.mpr hdistinct
  rw [hcurve, htrades]
  clear hcurve htrades h
  generalize libs.sortIndex data = df at hloop hnodup ⊢
  have hsplit : df.take k ++ df.drop k = df := List.take_append_drop k df
  rw [← hsplit] at hloop
  obtain ⟨b, hfirst, hrest⟩ := Loop.run_split _ hloop
  rw [List.nil_append] at hrest
  refine ⟨b, hfirst, ?_⟩
  obtain ⟨later₀, values₀, trades₀, hlater₀, hcurve₀, hlength₀, htrades₀, hexit₀⟩ :=
    loop_extends hfirst
  rw [List.nil_append, List.nil_append] at hlater₀
  rw [List.nil_append] at hcurve₀ htrades₀
  obtain ⟨later, values, trades, hlater, hcurve, hlength, htrades, hexit⟩ := loop_extends hrest
  have hdrop : df.drop k = later := List.append_cancel_left hlater
  constructor
  · rw [hcurve]
    have hbefore : b.equityCurve.length = min k df.length := by
      rw [hcurve₀, hlength₀, ← hlater₀, List.length_take]
    have hafter : values.length = df.length - k := by rw [hlength, ← hdrop, List.length_drop]
    rw [List.take_append]
    have hall : b.equityCurve.take k = b.equityCurve := List.take_of_length_le (by omega)
    have hnone : values.take (k - b.equityCurve.length) = [] := by
      rw [List.take_eq_nil_iff]
      rcases Nat.lt_or_ge df.length k with hlt | hle
      · right
        apply List.eq_nil_of_length_eq_zero
        omega
      · left
        omega
    rw [hall, hnone, List.append_nil]
  · rw [htrades, List.filter_append]
    have hall : b.trades.filter (fun t => t.exitTime ∈ (df.take k).map Row.time) = b.trades := by
      apply List.filter_eq_self.mpr
      intro t ht
      rw [htrades₀] at ht
      rw [hlater₀]
      exact decide_eq_true (hexit₀ t ht)
    have hnone : trades.filter (fun t => t.exitTime ∈ (df.take k).map Row.time) = [] := by
      apply List.filter_eq_nil_iff.mpr
      intro t ht hmem
      rw [← hsplit, List.map_append, hdrop] at hnodup
      obtain ⟨-, -, hdisjoint⟩ := List.nodup_append.mp hnodup
      exact hdisjoint _ (of_decide_eq_true hmem) _ (hexit t ht) rfl
    rw [hall, hnone, List.append_nil]

/-- No look-ahead: runs on frames with distinct timestamps that agree on their first `k`
    rows have the same first `k` equity values and the same trades closed there. -/
theorem run_no_lookahead {libs : Libraries F Statistics} {engine : BacktestEngine F}
    {strategy : Strategy F} {strategyName : String} {data data' : List (Row F)} {initialCapital : F}
    {flags : Flags} {params : Dict ParamKey F} {res res' : BacktestResult F Statistics} {k : ℕ}
    (hdistinct : (data.map Row.time).Nodup) (hdistinct' : (data'.map Row.time).Nodup)
    (hagree : (libs.sortIndex data).take k = (libs.sortIndex data').take k)
    (h : engine.run libs strategy strategyName data initialCapital flags params = .ok res)
    (h' : engine.run libs strategy strategyName data' initialCapital flags params = .ok res') :
    res.equityCurve.take k = res'.equityCurve.take k ∧
      res.trades.filter (fun t => t.exitTime ∈ ((libs.sortIndex data).take k).map Row.time) =
        res'.trades.filter fun t =>
          t.exitTime ∈ ((libs.sortIndex data').take k).map Row.time := by
  obtain ⟨b, hfirst, hcurve, htrades⟩ := run_take hdistinct h k
  obtain ⟨b', hfirst', hcurve', htrades'⟩ := run_take hdistinct' h' k
  rw [hagree, hfirst'] at hfirst
  cases hfirst
  exact ⟨hcurve.trans hcurve'.symm, htrades.trans htrades'.symm⟩

end

/-- Exact numbers, with no statistics and no logarithm: slippage must be off. -/
def exactLibraries : Libraries ℚ Unit where
  sortIndex rows := rows.insertionSort fun row row' => row.time ≤ row'.time
  sortIndex_perm rows := List.perm_insertionSort _ rows
  sortIndex_sorted rows := by
    have htotal : Std.Total fun row row' : Row ℚ => row.time ≤ row'.time :=
      ⟨fun row row' => le_total row.time row'.time⟩
    have htrans : IsTrans (Row ℚ) fun row row' => row.time ≤ row'.time :=
      ⟨fun _ _ _ h h' => h.trans h'⟩
    exact List.pairwise_insertionSort _ rows
  log1p x := x
  statistics _ _ _ := .ok ()

/-- A row with only a price. -/
def priceRow (time : Time) (close : ℚ) : Row ℚ where
  time := time
  cells
    | .close => some (.float close)
    | _ => none

/-- Buy in the first row and in every third one after it, and close in between. -/
def alternate : Strategy ℚ := fun frame _ => .ok (if frame.length % 3 = 1 then .buy else .close)

/-- The outcome of a run of `alternate` on the default engine without slippage. -/
def runAlternate (data : List (Row ℚ)) : Except Exc (BacktestResult ℚ Unit) :=
  BacktestEngine.default.run exactLibraries alternate "alternate" data 10000 { slippage := false }
    .empty

/-- A run that returns a result which passes the check. -/
theorem exists_result (data : List (Row ℚ)) (check : BacktestResult ℚ Unit → Bool)
    (h : (runAlternate data).toOption.any check) :
    ∃ res, runAlternate data = .ok res ∧ check res := by
  cases hrun : runAlternate data with
  | ok res =>
      rw [hrun] at h
      exact ⟨res, rfl, h⟩
  | error x =>
      rw [hrun] at h
      cases h

/-- Two frames that part in their third row. -/
def risingFrame : List (Row ℚ) := [priceRow 2 110, priceRow 1 100, priceRow 3 120, priceRow 4 90]

def fallingFrame : List (Row ℚ) := [priceRow 1 100, priceRow 2 110, priceRow 3 80]

theorem run_no_lookahead_alternate :
    ∃ res res', runAlternate risingFrame = .ok res ∧ runAlternate fallingFrame = .ok res' ∧
      res.equityCurve.take 2 = res'.equityCurve.take 2 := by
  obtain ⟨res, hres, -⟩ := exists_result risingFrame (fun _ => true) (by decide +kernel)
  obtain ⟨res', hres', -⟩ := exists_result fallingFrame (fun _ => true) (by decide +kernel)
  have hagree : (exactLibraries.sortIndex risingFrame).take 2 =
      (exactLibraries.sortIndex fallingFrame).take 2 := rfl
  have hdistinct : (risingFrame.map Row.time).Nodup := by decide
  have hdistinct' : (fallingFrame.map Row.time).Nodup := by decide
  exact ⟨res, res', hres, hres', (run_no_lookahead hdistinct hdistinct' hagree hres hres').1⟩

end Mtrader.Backtest
