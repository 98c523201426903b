/-
  Mtrader.Merge.Best

  The best version of everything in a stream of versions.

  Versions of one thing have the same key; a later one replaces the one that is kept only
  if its rank is higher.  What is kept in the end is, for every key, the earliest version
  of the highest rank (`mem_best_iff`).  To test the versions first is to test the winners
  where no version that passes loses to one that fails (`mem_best_filter_iff`).
-/

import Mathlib.Data.List.Induction
import Mathlib.Data.List.Nodup
import Mathlib.Data.List.Sort

namespace Merge

variable {α κ : Type} [DecidableEq κ] (key : α → κ) (rank : α → ℕ)

/-- `d.get(k)` of a dict from keys to versions, kept as its values in insertion order. -/
def lookup (d : List α) (k : κ) : Option α := d.find? fun x => key x = k

/-- `d[key e] = e`. -/
def put (d : List α) (e : α) : List α :=
  if (lookup key d (key e)).isSome then d.map fun x => if key x = key e then e else x
  else d ++ [e]

/-- Keep a version that is the first of its key, or better than the one that is kept. -/
def keep (d : List α) (e : α) : List α :=
  match lookup key d (key e) with
  | none => put key d e
  | some current => if rank current < rank e then put key d e else d

/-- The versions that are kept. -/
def best (es : List α) : List α := es.foldl (keep key rank) []

/-- The earliest version of its key with the highest rank. -/
def IsWinner (es : List α) (e : α) : Prop :=
  ∃ before after, es = before ++ e :: after ∧
    (∀ x ∈ before, key x = key e → rank x < rank e) ∧
    ∀ x ∈ after, key x = key e → rank x ≤ rank e

variable {key rank} {d es : List α} {e x w : α}

theorem best_snoc : best key rank (es ++ [e]) = keep key rank (best key rank es) e := by
  rw [best, List.foldl_append]
  rfl

-- ============================================================================
-- Winners
-- ============================================================================

omit [DecidableEq κ] in
theorem IsWinner.mem (h : IsWinner key rank es w) : w ∈ es := by
  obtain ⟨before, after, rfl, -, -⟩ := h
  exact List.mem_append_right _ List.mem_cons_self

omit [DecidableEq κ] in
theorem IsWinner.rank_le (h : IsWinner key rank es w) (hx : x ∈ es) (hkey : key x = key w) :
    rank x ≤ rank w := by
  obtain ⟨before, after, rfl, hbefore, hafter⟩ := h
  rcases List.mem_append.mp hx with hx | hx
  · exact Nat.le_of_lt (hbefore x hx hkey)
  · rcases List.mem_cons.mp hx with rfl | hx
    · exact Nat.le_refl _
    · exact hafter x hx hkey

omit [DecidableEq κ] in
/-- One more version. -/
theorem isWinner_snoc :
    IsWinner key rank (es ++ [e]) w ↔
      IsWinner key rank es w ∧ (key e = key w → rank e ≤ rank w) ∨
        w = e ∧ ∀ x ∈ es, key x = key e → rank x < rank e := by
  constructor
  · rintro ⟨before, after, hsplit, hbefore, hafter⟩
    rcases List.eq_nil_or_concat after with rfl | ⟨after, last, rfl⟩
    · obtain ⟨rfl, hlast⟩ := List.append_inj' hsplit rfl
      obtain rfl : e = w := by simpa using hlast
      exact .inr ⟨rfl, hbefore⟩
    · rw [List.concat_eq_append, ← List.cons_append, ← List.append_assoc] at hsplit
      obtain ⟨rfl, hlast⟩ := List.append_inj' hsplit rfl
      obtain rfl : e = last := by simpa using hlast
      refine .inl ⟨⟨before, after, rfl, hbefore, ?_⟩, hafter e (by simp)⟩
      exact fun x hx => hafter x (by simp [hx])
  · rintro (⟨⟨before, after, rfl, hbefore, hafter⟩, hlast⟩ | ⟨rfl, hall⟩)
    · refine ⟨before, after ++ [e], by simp, hbefore, fun x hx => ?_⟩
      rcases List.mem_append.mp hx with hx | hx
      · exact hafter x hx
      · rw [List.mem_singleton.mp hx]
        exact hlast
    · exact ⟨es, [], rfl, hall, by simp⟩

-- ============================================================================
-- What is kept
-- ============================================================================

theorem lookup_eq_none : lookup key d (key e) = none ↔ ∀ x ∈ d, key x ≠ key e := by
  simp [lookup]

theorem lookup_eq_some {k : κ} (h : lookup key d k = some x) : x ∈ d ∧ key x = k :=
  ⟨List.mem_of_find?_eq_some h, by simpa using List.find?_some h⟩

theorem map_key_put : (put key d e).map key =
    if (lookup key d (key e)).isSome then d.map key else d.map key ++ [key e] := by
  unfold put
  split
  next =>
    rw [List.map_map]
    apply List.map_congr_left
    intro x _
    by_cases hx : key x = key e
    · simp [hx]
    · simp [hx]
  next => rw [List.map_append, List.map_singleton]

theorem mem_put : w ∈ put key d e ↔ w = e ∨ w ∈ d ∧ key w ≠ key e := by
  unfold put
  cases hfound : lookup key d (key e) with
  | none =>
      have hnone := lookup_eq_none.mp hfound
      rw [if_neg (by simp), List.mem_append, List.mem_singleton]
      constructor
      · rintro (hw | rfl)
        · exact .inr ⟨hw, hnone w hw⟩
        · exact .inl rfl
      · rintro (rfl | ⟨hw, -⟩)
        · exact .inr rfl
        · exact .inl hw
  | some x =>
      obtain ⟨hx, hkey⟩ := lookup_eq_some hfound
      rw [if_pos (by simp), List.mem_map]
      constructor
      · rintro ⟨y, hy, rfl⟩
        by_cases hye : key y = key e
        · rw [if_pos hye]
          exact .inl rfl
        · rw [if_neg hye]
          exact .inr ⟨hy, hye⟩
      · rintro (rfl | ⟨hw, hne⟩)
        · exact ⟨x, hx, if_pos hkey⟩
        · exact ⟨w, hw, if_neg hne⟩

theorem lookup_replace_self (hfound : (lookup key d (key e)).isSome) :
    lookup key (d.map fun x => if key x = key e then e else x) (key e) = some e := by
  induction d with
  | nil => cases hfound
  | cons x d ih =>
      unfold lookup at hfound ih ⊢
      by_cases hx : key x = key e
      · rw [List.map_cons, if_pos hx, List.find?_cons_of_pos (by simp)]
      · rw [List.find?_cons_of_neg (by simpa using hx)] at hfound
        rw [List.map_cons, if_neg hx, List.find?_cons_of_neg (by simpa using hx)]
        exact ih hfound

theorem lookup_replace_other {k : κ} (hk : k ≠ key e) :
    lookup key (d.map fun x => if key x = key e then e else x) k = lookup key d k := by
  induction d with
  | nil => rfl
  | cons x d ih =>
      unfold lookup at ih ⊢
      rw [List.map_cons, List.find?_cons, List.find?_cons, ih]
      by_cases hx : key x = key e
      · simp [hx, hk.symm]
      · simp [hx]

/-- `d[key e] = e` is seen at its key, and nowhere else. -/
theorem lookup_put {k : κ} :
    lookup key (put key d e) k = if k = key e then some e else lookup key d k := by
  unfold put
  split
  next hfound =>
    split
    next hk =>
      rw [hk]
      exact lookup_replace_self hfound
    next hk => exact lookup_replace_other hk
  next hmissing =>
    have hnone : lookup key d (key e) = none := by simpa using hmissing
    unfold lookup at hnone ⊢
    rw [List.find?_append]
    split
    next hk =>
      rw [hk, hnone]
      simp
    next hk => simp [Ne.symm hk]

/-- `d.pop(k)` is seen at its key, and nowhere else. -/
theorem lookup_filter_ne {k k' : κ} :
    lookup key (d.filter fun x => key x ≠ k) k' = if k' = k then none else lookup key d k' := by
  unfold lookup
  rw [List.find?_filter]
  split
  next hk =>
    refine List.find?_eq_none.mpr fun x _ => ?_
    simp [hk]
  next hk =>
    congr 1
    funext x
    by_cases hx : key x = k'
    · simp [hx, hk]
    · simp [hx]

theorem mem_keep (hnodup : (d.map key).Nodup) :
    w ∈ keep key rank d e ↔
      w ∈ d ∧ (key e = key w → rank e ≤ rank w) ∨
        w = e ∧ ∀ x ∈ d, key x = key e → rank x < rank e := by
  unfold keep
  split
  next hnone =>
    have hnone := lookup_eq_none.mp hnone
    rw [mem_put]
    constructor
    · rintro (rfl | ⟨hw, hne⟩)
      · exact .inr ⟨rfl, fun x hx hkey => absurd hkey (hnone x hx)⟩
      · exact .inl ⟨hw, fun hkey => absurd hkey.symm hne⟩
    · rintro (⟨hw, -⟩ | ⟨rfl, -⟩)
      · exact .inr ⟨hw, hnone w hw⟩
      · exact .inl rfl
  next current hcurrent =>
    obtain ⟨hmem, hkey⟩ := lookup_eq_some hcurrent
    have honly : ∀ x ∈ d, key x = key e → x = current := fun x hx hxe =>
      List.inj_on_of_nodup_map hnodup hx hmem (hxe.trans hkey.symm)
    by_cases hbetter : rank current < rank e
    · rw [if_pos hbetter, mem_put]
      constructor
      · rintro (rfl | ⟨hw, hne⟩)
        · refine .inr ⟨rfl, fun x hx hxe => ?_⟩
          rw [honly x hx hxe]
          exact hbetter
        · exact .inl ⟨hw, fun hew => absurd hew.symm hne⟩
      · rintro (⟨hw, hrank⟩ | ⟨rfl, -⟩)
        · refine .inr ⟨hw, fun hwe => ?_⟩
          have hle := hrank hwe.symm
          rw [honly w hw hwe] at hle
          exact absurd hbetter (Nat.not_lt.mpr hle)
        · exact .inl rfl
    · rw [if_neg hbetter]
      constructor
      · intro hw
        refine .inl ⟨hw, fun hew => ?_⟩
        rw [honly w hw hew.symm]
        exact Nat.not_lt.mp hbetter
      · rintro (⟨hw, -⟩ | ⟨rfl, hall⟩)
        · exact hw
        · exact absurd (hall current hmem hkey) hbetter

theorem map_key_keep : (keep key rank d e).map key =
    if key e ∈ d.map key then d.map key else d.map key ++ [key e] := by
  unfold keep
  split
  next hnone =>
    have hfresh : key e ∉ d.map key := by
      intro hmem
      obtain ⟨x, hx, hxe⟩ := List.mem_map.mp hmem
      exact lookup_eq_none.mp hnone x hx hxe
    rw [if_neg hfresh, map_key_put, hnone, if_neg (by simp)]
  next current hcurrent =>
    obtain ⟨hmem, hkey⟩ := lookup_eq_some hcurrent
    rw [if_pos (List.mem_map.mpr ⟨current, hmem, hkey⟩)]
    split
    next => rw [map_key_put, hcurrent, if_pos (by simp)]
    next => rfl

/-- The keys that are kept are the keys of the versions, each once. -/
theorem keys_best : ((best key rank es).map key).Nodup ∧
    ∀ k, k ∈ (best key rank es).map key ↔ k ∈ es.map key := by
  induction es using List.reverseRecOn with
  | nil => exact ⟨List.nodup_nil, fun _ => Iff.rfl⟩
  | append_singleton es e ih =>
      obtain ⟨hnodup, hkeys⟩ := ih
      rw [best_snoc, map_key_keep, List.map_append, List.map_singleton]
      split
      next hold =>
        refine ⟨hnodup, fun k => ?_⟩
        rw [hkeys, List.mem_append, List.mem_singleton]
        refine ⟨.inl, ?_⟩
        rintro (hk | rfl)
        · exact hk
        · exact (hkeys _).mp hold
      next hfresh =>
        refine ⟨?_, fun k => ?_⟩
        · refine List.nodup_append.mpr ⟨hnodup, List.nodup_singleton _, ?_⟩
          intro k hk k' hk' heq
          rw [List.mem_singleton.mp hk'] at heq
          rw [heq] at hk
          exact hfresh hk
        · rw [List.mem_append, hkeys, List.mem_append]

/-- What is kept are the winners. -/
theorem mem_best_iff : w ∈ best key rank es ↔ IsWinner key rank es w := by
  induction es using List.reverseRecOn generalizing w with
  | nil =>
      refine iff_of_false List.not_mem_nil ?_
      rintro ⟨before, after, hsplit, -⟩
      simp at hsplit
  | append_singleton es e ih =>
      have hall : (∀ x ∈ best key rank es, key x = key e → rank x < rank e) ↔
          ∀ x ∈ es, key x = key e → rank x < rank e := by
        constructor
        · intro h x hx hxe
          have hkey : key x ∈ (best key rank es).map key :=
            (keys_best.2 _).mpr (List.mem_map_of_mem hx)
          obtain ⟨y, hy, hyx⟩ := List.mem_map.mp hkey
          exact Nat.lt_of_le_of_lt ((ih.mp hy).rank_le hx hyx.symm) (h y hy (hyx.trans hxe))
        · intro h x hx
          exact h x (ih.mp hx).mem
      rw [best_snoc, mem_keep keys_best.1, isWinner_snoc, ih, hall]

-- ============================================================================
-- Some of the versions
-- ============================================================================

variable {p : α → Bool}

omit [DecidableEq κ] in
/-- A winner that passes a test wins among the versions that do. -/
theorem IsWinner.filter (h : IsWinner key rank es w) (hw : p w) :
    IsWinner key rank (es.filter p) w := by
  obtain ⟨before, after, rfl, hbefore, hafter⟩ := h
  refine ⟨before.filter p, after.filter p, ?_, ?_, ?_⟩
  · rw [List.filter_append, List.filter_cons_of_pos hw]
  · exact fun x hx => hbefore x (List.mem_of_mem_filter hx)
  · exact fun x hx => hafter x (List.mem_of_mem_filter hx)

/-- The best of the versions that pass a test are the best that pass it, exactly when a
    version that passes it never loses to one that does not. -/
theorem mem_best_filter_iff :
    (∀ w, w ∈ best key rank (es.filter p) ↔ w ∈ (best key rank es).filter p) ↔
      ∀ x ∈ es, p x → ∀ w, IsWinner key rank es w → key w = key x → p w := by
  constructor
  · intro h x hx hpx w hw hkey
    have hfound : key x ∈ (best key rank (es.filter p)).map key :=
      (keys_best.2 _).mpr (List.mem_map_of_mem (List.mem_filter.mpr ⟨hx, hpx⟩))
    obtain ⟨y, hy, hyx⟩ := List.mem_map.mp hfound
    obtain ⟨hy, hpy⟩ := List.mem_filter.mp ((h y).mp hy)
    have hsame : w = y := List.inj_on_of_nodup_map keys_best.1 (mem_best_iff.mpr hw) hy
      (hkey.trans hyx.symm)
    rw [hsame]
    exact hpy
  · intro h w
    rw [mem_best_iff, List.mem_filter, mem_best_iff]
    constructor
    · intro hw
      obtain ⟨hmem, hpw⟩ := List.mem_filter.mp hw.mem
      have hfound : key w ∈ (best key rank es).map key :=
        (keys_best.2 _).mpr (List.mem_map_of_mem hmem)
      obtain ⟨y, hy, hyw⟩ := List.mem_map.mp hfound
      have hpy := h w hmem hpw y (mem_best_iff.mp hy) hyw
      have hsame : y = w := List.inj_on_of_nodup_map keys_best.1
        (mem_best_iff.mpr ((mem_best_iff.mp hy).filter hpy)) (mem_best_iff.mpr hw) hyw
      rw [← hsame]
      exact ⟨mem_best_iff.mp hy, hpy⟩
    · rintro ⟨hw, hpw⟩
      exact hw.filter hpw

theorem lookup_filter (hagree : ∀ x ∈ d, key x = key e → p x = p e) (he : p e) :
    lookup key (d.filter p) (key e) = lookup key d (key e) := by
  induction d with
  | nil => rfl
  | cons x d ih =>
      have hx := hagree x List.mem_cons_self
      have hd := ih fun y hy => hagree y (List.mem_cons_of_mem x hy)
      unfold lookup at hd ⊢
      by_cases hkey : key x = key e
      · rw [List.filter_cons_of_pos ((hx hkey).trans he),
          List.find?_cons_of_pos (by simpa using hkey),
          List.find?_cons_of_pos (by simpa using hkey)]
      · rw [List.find?_cons_of_neg (by simpa using hkey), ← hd, List.filter_cons]
        split
        next => rw [List.find?_cons_of_neg (by simpa using hkey)]
        next => rfl

theorem filter_put (hagree : ∀ x ∈ d, key x = key e → p x = p e) :
    (put key d e).filter p = if p e then put key (d.filter p) e else d.filter p := by
  have hreplace : (d.map fun x => if key x = key e then e else x).filter p =
      (d.filter p).map fun x => if key x = key e then e else x := by
    rw [List.filter_map]
    congr 1
    apply List.filter_congr
    intro x hx
    by_cases hkey : key x = key e
    · simp [hkey, hagree x hx hkey]
    · simp [hkey]
  by_cases he : p e
  · rw [if_pos he, put, put, lookup_filter hagree he]
    split
    next => exact hreplace
    next => rw [List.filter_append, List.filter_cons_of_pos he, List.filter_nil]
  · rw [if_neg he, put]
    split
    next =>
      have hother : ∀ x ∈ d.filter p, (if key x = key e then e else x) = id x := by
        intro x hx
        obtain ⟨hmem, hpx⟩ := List.mem_filter.mp hx
        refine if_neg fun hkey => ?_
        rw [hagree x hmem hkey] at hpx
        exact he hpx
      rw [hreplace, List.map_congr_left hother, List.map_id]
    next => rw [List.filter_append, List.filter_cons_of_neg he, List.filter_nil, List.append_nil]

/-- Keeping a version commutes with a test that depends on the key. -/
theorem filter_keep (hagree : ∀ x ∈ d, key x = key e → p x = p e) :
    (keep key rank d e).filter p = if p e then keep key rank (d.filter p) e else d.filter p := by
  have hput := filter_put hagree
  by_cases he : p e
  · rw [if_pos he] at hput ⊢
    rw [keep, keep, lookup_filter hagree he]
    split
    next => exact hput
    next =>
      split
      next => exact hput
      next => rfl
  · rw [if_neg he] at hput ⊢
    rw [keep]
    split
    next => exact hput
    next =>
      split
      next => exact hput
      next => rfl

/-- Where the versions of a key all pass a test or all fail it, the best of those that pass
    are the best that pass, in the same order. -/
theorem best_filter (hagree : ∀ x ∈ es, ∀ y ∈ es, key x = key y → p x = p y) :
    best key rank (es.filter p) = (best key rank es).filter p := by
  induction es using List.reverseRecOn with
  | nil => rfl
  | append_singleton es e ih =>
      have hold : ∀ x ∈ es, ∀ y ∈ es, key x = key y → p x = p y := fun x hx y hy =>
        hagree x (List.mem_append_left _ hx) y (List.mem_append_left _ hy)
      have hkept : ∀ x ∈ best key rank es, key x = key e → p x = p e := fun x hx =>
        hagree x (List.mem_append_left _ (mem_best_iff.mp hx).mem) e (by simp)
      rw [best_snoc, filter_keep hkept, List.filter_append]
      by_cases he : p e
      · rw [if_pos he, List.filter_cons_of_pos he, List.filter_nil, best_snoc, ih hold]
      · rw [if_neg he, List.filter_cons_of_neg he, List.filter_nil, List.append_nil, ih hold]

-- ============================================================================
-- In order
-- ============================================================================

variable {τ : Type} [LinearOrder τ] {at' : α → τ}

theorem filter_orderedInsert {xs : List α} (hsorted : xs.Pairwise fun x y => at' x ≤ at' y) :
    (xs.orderedInsert (fun x y => at' x ≤ at' y) e).filter p =
      if p e then (xs.filter p).orderedInsert (fun x y => at' x ≤ at' y) e
      else xs.filter p := by
  induction xs with
  | nil => simp [List.filter_cons]
  | cons x xs ih =>
      obtain ⟨hx, hxs⟩ := List.pairwise_cons.mp hsorted
      have ih := ih hxs
      by_cases hle : at' e ≤ at' x
      · -- everything from `x` on comes after `e`
        have hafter : ∀ y ∈ (x :: xs).filter p, at' e ≤ at' y := by
          intro y hy
          rcases List.mem_cons.mp (List.mem_of_mem_filter hy) with rfl | hy
          · exact hle
          · exact hle.trans (hx y hy)
        rw [List.orderedInsert_cons_of_le _ xs hle]
        by_cases he : p e
        · rw [if_pos he, List.filter_cons_of_pos he]
          cases hrest : (x :: xs).filter p with
          | nil => rfl
          | cons y ys =>
              refine (List.orderedInsert_cons_of_le _ ys (hafter y ?_)).symm
              rw [hrest]
              exact List.mem_cons_self
        · rw [if_neg he, List.filter_cons_of_neg he]
      · rw [List.orderedInsert_of_not_le _ xs hle]
        by_cases hpx : p x
        · rw [List.filter_cons_of_pos hpx, List.filter_cons_of_pos hpx, ih]
          split
          next =>
            exact (List.orderedInsert_of_not_le (r := fun x y => at' x ≤ at' y) _ hle).symm
          next => rfl
        · rw [List.filter_cons_of_neg hpx, List.filter_cons_of_neg hpx, ih]

/-- Sorting commutes with leaving elements out. -/
theorem filter_insertionSort (xs : List α) :
    (xs.insertionSort fun x y => at' x ≤ at' y).filter p =
      (xs.filter p).insertionSort fun x y => at' x ≤ at' y := by
  induction xs with
  | nil => rfl
  | cons x xs ih =>
      rw [List.insertionSort_cons, filter_orderedInsert (List.pairwise_insertionSort _ xs), ih]
      by_cases hpx : p x
      · rw [if_pos hpx, List.filter_cons_of_pos hpx, List.insertionSort_cons]
      · rw [if_neg hpx, List.filter_cons_of_neg hpx]

end Merge
