/-
  Mtrader.Window.Sliding

  Sliding windows over a sequence of timed events, newest first.

  `window w now times` are the times that lie in the half-open window of width `w`
  that ends at `now`.  Where an event is accepted only when the window that it ends has
  at most `L` events, at most `L` events are accepted in any window.
-/

import Mathlib.Data.List.Dedup
import Mathlib.Data.List.Pairwise
import Mathlib.Data.Finset.Dedup
import Mathlib.Data.Finset.Card
import Mathlib.Algebra.Order.Group.Defs
import Mathlib.Algebra.Order.Group.Basic

namespace Sliding

variable {T : Type} [AddCommGroup T] [LinearOrder T]

/-- The times in the window of width `w` that ends at `now`. -/
def window (w now : T) (times : List T) : List T :=
  times.filter fun t => now - w < t ∧ t ≤ now

variable {w now t : T} {times : List T}

theorem mem_window : t ∈ window w now times ↔ t ∈ times ∧ now - w < t ∧ t ≤ now := by
  rw [window, List.mem_filter, decide_eq_true_iff]

/-- The number of different times is at most the number of times. -/
theorem card_window_le : (window w now times).toFinset.card ≤ (window w now times).length :=
  List.toFinset_card_le _

-- ============================================================================
-- Accepted events
-- ============================================================================

variable {E : Type} {time : E → T} {accepted : E → Prop} [DecidablePred accepted]

/-- The accepted events in a window. -/
def acceptedIn (time : E → T) (accepted : E → Prop) [DecidablePred accepted] (w now : T)
    (events : List E) : List E :=
  events.filter fun e => accepted e ∧ now - w < time e ∧ time e ≤ now

theorem acceptedIn_cons_of_not {e : E} {events : List E}
    (h : ¬ (accepted e ∧ now - w < time e ∧ time e ≤ now)) :
    acceptedIn time accepted w now (e :: events) = acceptedIn time accepted w now events :=
  List.filter_cons_of_neg (fun hd => h (of_decide_eq_true hd))

/-- The events of a kind, seen among all events. -/
theorem exists_suffix_of_filter {p : E → Bool} {e : E} {older events : List E}
    (h : e :: older <:+ events.filter p) :
    ∃ before, e :: before <:+ events ∧ older = before.filter p ∧ p e := by
  induction events with
  | nil => exact absurd h (by simp)
  | cons e' events ih =>
      by_cases hp : p e'
      · rw [List.filter_cons_of_pos hp] at h
        rcases List.suffix_cons_iff.mp h with heq | h
        · obtain ⟨rfl, rfl⟩ := List.cons.inj heq
          exact ⟨events, List.suffix_rfl, rfl, hp⟩
        · obtain ⟨before, hsuf, hold⟩ := ih h
          exact ⟨before, hsuf.trans (List.suffix_cons _ _), hold⟩
      · rw [List.filter_cons_of_neg hp] at h
        obtain ⟨before, hsuf, hold⟩ := ih h
        exact ⟨before, hsuf.trans (List.suffix_cons _ _), hold⟩

variable [IsOrderedAddMonoid T]

/-- What is accepted in a window is no more than all that lies in the window of its
    last event. -/
theorem length_acceptedIn_le_window {s : T} {events : List E} (hs : s ≤ now)
    (htimes : ∀ e ∈ events, time e ≤ s) :
    (acceptedIn time accepted w now events).length ≤
      (window w s (events.map time)).length := by
  rw [acceptedIn, window, List.filter_map, List.length_map, ← List.countP_eq_length_filter,
    ← List.countP_eq_length_filter]
  refine List.countP_mono_left fun e he haccepted => ?_
  obtain ⟨-, hlt, -⟩ := of_decide_eq_true haccepted
  have hle : s - w ≤ now - w := sub_le_sub_right hs w
  exact decide_eq_true ⟨hle.trans_lt hlt, htimes e he⟩

/-- If an event is accepted only when its window has at most `L` events so far, then
    at most `L` events are accepted in any window. -/
theorem length_acceptedIn_le {L : ℕ} {events : List E}
    (hsorted : events.Pairwise fun e e' => time e' ≤ time e)
    (hlimit : ∀ e older, e :: older <:+ events → accepted e →
      (window w (time e) ((e :: older).map time)).length ≤ L) (now : T) :
    (acceptedIn time accepted w now events).length ≤ L := by
  induction events with
  | nil => exact Nat.zero_le L
  | cons e older ih =>
      obtain ⟨hnewest, hsorted⟩ := List.pairwise_cons.mp hsorted
      by_cases he : accepted e ∧ now - w < time e ∧ time e ≤ now
      · refine (length_acceptedIn_le_window he.2.2 ?_).trans (hlimit e older List.suffix_rfl he.1)
        intro e' he'
        rcases List.mem_cons.mp he' with rfl | he'
        · exact le_rfl
        · exact hnewest e' he'
      · rw [acceptedIn_cons_of_not he]
        exact ih hsorted fun e' older' hsuf => hlimit e' older' (hsuf.trans (List.suffix_cons _ _))

end Sliding
