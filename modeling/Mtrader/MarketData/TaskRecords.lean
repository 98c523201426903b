/-
  Mtrader.MarketData.TaskRecords

  What a provider knows of the tasks that run its streams: what each was created for, and
  how far it has come.

  A provider only creates tasks and cancels them.  `StageMove` is what a task itself does.
-/

import Mtrader.MarketData.Methods

namespace Mtrader.MarketData

open Coroutine

variable {β : Type} {stage stage' : ℕ → StreamStage β} {loop loop' : Tasks}
variable {streams : ℕ → Option (String × β)} {n : ℕ} {p p' : StreamStage β}

/-- What the stream reads, and whom it calls. -/
def StreamStage.of : StreamStage β → Option (String × β)
  | .reading s callback => some (s, callback)
  | .holding s callback _ => some (s, callback)
  | _ => none

/-- It has not ended. -/
def StreamStage.going : StreamStage β → Bool
  | .ended => false
  | .done => false
  | _ => true

-- ============================================================================
-- What a task does
-- ============================================================================

/-- What a step of task `n` does to its stage and to the tasks of the loop. -/
inductive StageMove (n : ℕ) (streams : ℕ → Option (String × β)) (loop : Tasks) :
    StreamStage β → StreamStage β → Tasks → Prop
  /-- A cancellation has reached it. -/
  | interrupt {p p' : StreamStage β} (hdone : p ≠ .done) (hdone' : p' ≠ .done)
      (hcreated : n < loop.created) (hof : ∀ job, p'.of = some job → p.of = some job) :
      StageMove n streams loop p p' (loop.deliver n)
  | start {s : String} {callback : β} (hjob : streams n = some (s, callback)) :
      StageMove n streams loop .fresh (.reading s callback) loop
  | go {p p' : StreamStage β} (hfresh : p ≠ .fresh) (hdone : p ≠ .done) (hdone' : p' ≠ .done)
      (hof : ∀ job, p'.of = some job → p.of = some job) : StageMove n streams loop p p' loop
  | finish : StageMove n streams loop .ended .done (loop.finish n)

theorem StageMove.created_eq (hmove : StageMove n streams loop p p' loop') :
    loop'.created = loop.created := by
  cases hmove <;> rfl

theorem StageMove.cancelled_eq (hmove : StageMove n streams loop p p' loop') :
    loop'.cancelled = loop.cancelled := by
  cases hmove <;> rfl

theorem StageMove.sound (hmove : StageMove n streams loop p p' loop') (hloop : loop.Sound) :
    loop'.Sound := by
  cases hmove with
  | interrupt => exact hloop.deliver n
  | finish => exact hloop.finish n
  | _ => exact hloop

/-- A task begins after it has been created. -/
theorem StageMove.created (hmove : StageMove n streams loop p p' loop')
    (hcreated : ∀ job, streams n = some job → n < loop.created)
    (hbegun : p ≠ .fresh → n < loop.created) : n < loop.created := by
  cases hmove with
  | interrupt _ _ hn => exact hn
  | start hjob => exact hcreated _ hjob
  | go hfresh => exact hbegun hfresh
  | finish => exact hbegun nofun

theorem StageMove.finished (hmove : StageMove n streams loop p p' loop')
    (hiff : loop.finished n ↔ p = .done) : loop'.finished n ↔ p' = .done := by
  cases hmove with
  | interrupt hdone hdone' => exact iff_of_false (fun hn => hdone (hiff.mp hn)) hdone'
  | start => exact iff_of_false (fun hn => nomatch hiff.mp hn) nofun
  | go _ hdone hdone' => exact iff_of_false (fun hn => hdone (hiff.mp hn)) hdone'
  | finish => exact iff_of_true (Function.update_self ..) rfl

theorem StageMove.finished_other (hmove : StageMove n streams loop p p' loop') {m : ℕ}
    (hm : m ≠ n) : loop'.finished m = loop.finished m := by
  cases hmove with
  | finish => exact Function.update_of_ne hm ..
  | _ => rfl

theorem StageMove.of (hmove : StageMove n streams loop p p' loop')
    (hof : ∀ job, p.of = some job → streams n = some job) :
    ∀ job, p'.of = some job → streams n = some job := by
  cases hmove with
  | interrupt _ _ _ hsame => exact fun job hjob => hof job (hsame job hjob)
  | start hjob =>
      rintro job ⟨⟩
      exact hjob
  | go _ _ _ hsame => exact fun job hjob => hof job (hsame job hjob)
  | finish => exact nofun

-- ============================================================================
-- Tasks on record
-- ============================================================================

/-- The provider knows the tasks as they are. -/
structure OnRecord (stage : ℕ → StreamStage β) (loop : Tasks)
    (streams : ℕ → Option (String × β)) : Prop where
  created : ∀ n job, streams n = some job → n < loop.created
  begun : ∀ n, stage n ≠ .fresh → n < loop.created
  sound : loop.Sound
  finished : ∀ n, loop.finished n ↔ stage n = .done
  streams : ∀ n job, (stage n).of = some job → streams n = some job

theorem onRecord_start : OnRecord (fun _ => .fresh : ℕ → StreamStage β) {} fun _ => none where
  created _ _ hn := nomatch hn
  begun _ hn := absurd rfl hn
  sound := ⟨nofun, nofun⟩
  finished _ := iff_of_false nofun nofun
  streams _ _ hn := nomatch hn

theorem OnRecord.create (h : OnRecord stage loop streams) (job : String × β) :
    OnRecord stage loop.create (Function.update streams loop.created (some job)) where
  created n job' hn := by
    by_cases hnew : n = loop.created
    · rw [hnew]
      exact Nat.lt_succ_self _
    · rw [Function.update_of_ne hnew] at hn
      exact Nat.lt_succ_of_lt (h.created n job' hn)
  begun n hn := Nat.lt_succ_of_lt (h.begun n hn)
  sound := h.sound.create
  finished := h.finished
  streams n job' hn := by
    have hjob := h.streams n job' hn
    rw [Function.update_of_ne (h.created n job' hjob).ne]
    exact hjob

theorem OnRecord.cancel (h : OnRecord stage loop streams) (n : ℕ) :
    OnRecord stage (loop.cancel n) streams where
  created := by
    rw [Tasks.created_cancel]
    exact h.created
  begun := by
    rw [Tasks.created_cancel]
    exact h.begun
  sound := h.sound.cancel n
  finished := by
    rw [Tasks.finished_cancel]
    exact h.finished
  streams := h.streams

/-- A task that moves changes no other. -/
theorem OnRecord.move (h : OnRecord stage loop streams)
    (hmove : StageMove n streams loop (stage n) (stage' n) loop')
    (hother : ∀ m, m ≠ n → stage' m = stage m) : OnRecord stage' loop' streams where
  created := by
    rw [hmove.created_eq]
    exact h.created
  begun m hm := by
    rw [hmove.created_eq]
    by_cases hmn : m = n
    · subst hmn
      exact hmove.created (h.created m) (h.begun m)
    · rw [hother m hmn] at hm
      exact h.begun m hm
  sound := hmove.sound h.sound
  finished m := by
    by_cases hmn : m = n
    · subst hmn
      exact hmove.finished (h.finished m)
    · rw [hother m hmn, hmove.finished_other hmn]
      exact h.finished m
  streams m := by
    by_cases hmn : m = n
    · subst hmn
      exact hmove.of (h.streams m)
    · rw [hother m hmn]
      exact h.streams m

end Mtrader.MarketData
