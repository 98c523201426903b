/-
  Mtrader.Frontend.Pending

  `pendingQueue` under every interleaving of the page: its callbacks are called in the order
  in which they were queued, each at most as often as it was queued, and none is skipped
  unless one before it has thrown.
-/

import Mtrader.Frontend.Outcomes

namespace Mtrader.Frontend.Auth

open Coroutine

variable {κ : Type}

-- ============================================================================
-- Callbacks
-- ============================================================================

/-- The callback that the operation queues. -/
def queued : Op → List ℕ
  | .push cb => [cb]
  | _ => []

/-- The callbacks that the operation takes from the queue. -/
def spliced : (e : Op) → Except JsError e.Ans → List ℕ
  | .splice, .ok pending => pending
  | _, _ => []

/-- The callback that the operation calls. -/
def resumes : Op → List ℕ
  | .resume cb _ => [cb]
  | _ => []

/-- A callback has thrown. -/
def threw (ev : PageEvent) : Bool :=
  match ev.op, ev.ans with
  | .resume _ _, .error _ => true
  | _, _ => false

/-- The callbacks that have been queued, oldest first. -/
def enqueued : PageHistory κ → List ℕ
  | [] => []
  | (_, ev) :: h => enqueued h ++ queued ev.op

/-- The callbacks that have been taken from the queue, oldest first. -/
def taken : PageHistory κ → List ℕ
  | [] => []
  | (_, ev) :: h => taken h ++ spliced ev.op ev.ans

/-- The callbacks that have been called, oldest first. -/
def resumed : PageHistory κ → List ℕ
  | [] => []
  | (_, ev) :: h => resumed h ++ resumes ev.op

/-- No callback has thrown. -/
def Smooth (h : PageHistory κ) : Prop := ∀ entry ∈ h, threw entry.2 = false

instance (h : PageHistory κ) : Decidable (Smooth h) :=
  inferInstanceAs (Decidable (∀ entry ∈ h, threw entry.2 = false))

theorem Smooth.tail {entry : Actor κ × PageEvent} {h : PageHistory κ}
    (hsmooth : Smooth (entry :: h)) : Smooth h :=
  fun entry' hentry => hsmooth entry' (List.mem_cons_of_mem _ hentry)

-- ============================================================================
-- The queue
-- ============================================================================

section

variable [DecidableEq κ] {acts : κ → Action} {rounds : ℕ} {localStorage : String → Option String}
variable {h h' : PageHistory κ}
variable {c c' : Config (Actor κ) Page Op.Ans JsError (Option String)}

theorem enqueued_eq (hrun : AuthRun acts rounds localStorage h c) :
    enqueued h = taken h ++ c.world.pendingQueue := by
  induction hrun with
  | nil => rfl
  | @cons h c c' i ev hr hs ih =>
      cases hs with
      | @mk e k a w' _ hp henv =>
          have hstill : queued e = [] → spliced e a = [] →
              w'.pendingQueue = c.world.pendingQueue →
              enqueued ((i, (⟨c.world, e, a⟩ : PageEvent)) :: h)
                = taken ((i, (⟨c.world, e, a⟩ : PageEvent)) :: h) ++ w'.pendingQueue := by
            intro hqueued hspliced hqueue
            show enqueued h ++ queued e = taken h ++ spliced e a ++ w'.pendingQueue
            rw [hqueued, hspliced, hqueue, List.append_nil, List.append_nil, ih]
          cases henv with
          | push =>
              show enqueued h ++ [_] = taken h ++ [] ++ (c.world.pendingQueue ++ [_])
              rw [ih, List.append_nil, List.append_assoc]
          | splice =>
              show enqueued h ++ [] = taken h ++ c.world.pendingQueue ++ []
              rw [ih]
          | _ => exact hstill rfl rfl rfl

/-- A task that is calling callbacks holds the event loop. -/
theorem running_of_pending {n : ℕ} (hrun : AuthRun acts rounds localStorage h c)
    (hpending : (progress h n).pending ≠ []) : c.running = some (.task n) := by
  refine hrun.running_of_busy start_parked (i := .task n) (refreshTask_obeys rounds)
    (fun p : Progress => p.pending ≠ []) (fun out p hend hne => hne hend.pending)
    (fun p e hne hmay => ?_) hpending
  cases e with
  | resume cb token => rfl
  | begin =>
      rw [show p = {} from hmay] at hne
      exact absurd rfl hne
  | microtask => exact absurd hmay.2.1 hne
  | send body authorization => exact absurd hmay.1.pending hne
  | response => exact absurd hmay.1.pending hne
  | sleep ms => exact absurd (Progress.Open.toWorking hmay).pending hne
  | settled n => exact hmay.elim
  | called => exact hmay.elim
  | _ => rfl

/-- The callbacks that the task holding the event loop is still to call are `rest`. -/
structure Batch (h : PageHistory κ) (rest : List ℕ) : Prop where
  pending : ∀ n, (progress h n).pending = [] ∨ (progress h n).pending = rest
  held : rest = [] ∨ ∃ n, (progress h n).pending = rest
  called : (resumed h ++ rest).Sublist (taken h)
  all : Smooth h → taken h = resumed h ++ rest

theorem Batch.quiet {rest : List ℕ} {i : Actor κ} {w : Page} {e : Op} {a : Except JsError e.Ans}
    (hb : Batch h rest) (hsplice : e ≠ .splice) (hresume : ∀ cb token, e ≠ .resume cb token) :
    Batch ((i, ⟨w, e, a⟩) :: h) rest := by
  have hpending : ∀ n, (progress ((i, ⟨w, e, a⟩) :: h) n).pending = (progress h n).pending := by
    intro n
    by_cases hi : i = .task n
    · subst hi
      rw [progress_self]
      exact (next_keeps _ _ _).pending hsplice hresume
    · rw [progress_other hi]
  have hresumed : resumed ((i, (⟨w, e, a⟩ : PageEvent)) :: h) = resumed h := by
    show resumed h ++ resumes e = resumed h
    unfold resumes
    split
    next cb token => exact absurd rfl (hresume cb token)
    next => exact List.append_nil _
  have htaken : taken ((i, (⟨w, e, a⟩ : PageEvent)) :: h) = taken h := by
    show taken h ++ spliced e a = taken h
    unfold spliced
    split
    next => exact absurd rfl hsplice
    next => exact List.append_nil _
  refine ⟨fun n => ?_, ?_, ?_, fun hsmooth => ?_⟩
  · rw [hpending]
    exact hb.pending n
  · exact hb.held.imp_right fun ⟨n, hn⟩ => ⟨n, (hpending n).trans hn⟩
  · rw [hresumed, htaken]
    exact hb.called
  · rw [hresumed, htaken]
    exact hb.all hsmooth.tail

/-- Only the task that goes on can be calling callbacks. -/
theorem pending_other {n m : ℕ} {ev : PageEvent} (hrun : AuthRun acts rounds localStorage h c)
    (hs : Step Op.suspends AuthStep c (.task n) ev c') (hm : m ≠ n) :
    (progress h m).pending = [] := by
  by_contra hne
  have heq := hs.eq_of_running (running_of_pending hrun hne)
  exact hm (Actor.task.inj heq).symm

theorem Batch.splice {rest pending : List ℕ} {n : ℕ} {w : Page} (hb : Batch h rest)
    (hempty : ∀ m, (progress h m).pending = []) :
    Batch ((.task n, ⟨w, .splice, .ok pending⟩) :: h) pending := by
  obtain rfl : rest = [] := by
    rcases hb.held with hrest | ⟨m, hm⟩
    · exact hrest
    · rw [← hm, hempty]
  have hself : (progress ((.task n, ⟨w, .splice, .ok pending⟩) :: h) n).pending = pending := by
    rw [progress_self]
    rfl
  refine ⟨fun m => ?_, .inr ⟨n, hself⟩, ?_, fun hsmooth => ?_⟩
  · by_cases hm : m = n
    · subst hm
      exact .inr hself
    · rw [progress_task hm]
      exact .inl (hempty m)
  · show (resumed h ++ [] ++ pending).Sublist (taken h ++ pending)
    exact hb.called.append (List.Sublist.refl pending)
  · show taken h ++ pending = resumed h ++ [] ++ pending
    rw [hb.all hsmooth.tail]

theorem Batch.resume {rest tail : List ℕ} {n cb : ℕ} {token : Option String} {w : Page}
    {a : Except JsError Unit} (hb : Batch h rest) (hpending : (progress h n).pending = cb :: tail)
    (hempty : ∀ m, m ≠ n → (progress h m).pending = []) :
    ∃ rest', Batch ((.task n, ⟨w, .resume cb token, a⟩) :: h) rest' := by
  obtain rfl : rest = cb :: tail := by
    rcases hb.pending n with hnil | hrest
    · rw [hpending] at hnil
      cases hnil
    · rw [← hrest, hpending]
  have hother : ∀ m, m ≠ n →
      (progress ((.task n, ⟨w, .resume cb token, a⟩) :: h) m).pending = [] := by
    intro m hm
    rw [progress_task hm]
    exact hempty m hm
  have hcalled : (resumed h ++ [cb] ++ tail).Sublist (taken h) := by
    rw [List.append_assoc]
    exact hb.called
  cases a with
  | ok u =>
      have hself : (progress ((.task n, ⟨w, .resume cb token, .ok u⟩) :: h) n).pending = tail := by
        rw [progress_self]
        show (progress h n).pending.tail = tail
        rw [hpending, List.tail_cons]
      refine ⟨tail, fun m => ?_, .inr ⟨n, hself⟩, ?_, fun hsmooth => ?_⟩
      · by_cases hm : m = n
        · exact .inr (hm ▸ hself)
        · exact .inl (hother m hm)
      · show (resumed h ++ [cb] ++ tail).Sublist (taken h ++ [])
        rw [List.append_nil]
        exact hcalled
      · show taken h ++ [] = resumed h ++ [cb] ++ tail
        rw [hb.all hsmooth.tail, List.append_nil, List.append_assoc]
        rfl
  | error x =>
      -- The callbacks after one that throws are dropped.
      refine ⟨[], fun m => .inl ?_, .inl rfl, ?_, fun hsmooth => ?_⟩
      · by_cases hm : m = n
        · subst hm
          rw [progress_self]
          rfl
        · exact hother m hm
      · show (resumed h ++ [cb] ++ []).Sublist (taken h ++ [])
        rw [List.append_nil, List.append_nil]
        exact (List.sublist_append_left _ tail).trans hcalled
      · exact absurd (hsmooth _ List.mem_cons_self) (by simp [threw])

theorem batch_of_run (hrun : AuthRun acts rounds localStorage h c) : ∃ rest, Batch h rest := by
  induction hrun with
  | nil =>
      exact ⟨[], fun n => .inl rfl, .inl rfl, .refl _, fun _ => rfl⟩
  | @cons h c c' i ev hr hs ih =>
      have hrun : AuthRun acts rounds localStorage ((i, ev) :: h) c' := .cons hr hs
      obtain ⟨rest, hb⟩ := ih
      have hother : ∀ n, i = .task n → ∀ m, m ≠ n → (progress h m).pending = [] := by
        rintro n rfl m hm
        exact pending_other hr hs hm
      cases hs with
      | @mk e k a w' _ hp henv =>
          by_cases hsplice : e = .splice
          · subst hsplice
            cases i with
            | client i => exact (call_may hrun List.suffix_rfl).elim
            | task n =>
                have hopen : (progress h n).Open := task_may hrun List.suffix_rfl
                cases henv with
                | splice =>
                    refine ⟨_, hb.splice fun m => ?_⟩
                    by_cases hm : m = n
                    · exact hm ▸ hopen.pending
                    · exact hother n rfl m hm
          · by_cases hresume : ∃ cb token, e = .resume cb token
            · obtain ⟨cb, token, rfl⟩ := hresume
              cases i with
              | client i => exact (call_may hrun List.suffix_rfl).elim
              | task n =>
                  obtain ⟨-, -, -, hhead, -⟩ : (progress h n).may (.resume cb token) :=
                    task_may hrun List.suffix_rfl
                  obtain ⟨tail, hpending⟩ := List.head?_eq_some_iff.mp hhead
                  exact hb.resume hpending (hother n rfl)
            · refine ⟨rest, hb.quiet hsplice fun cb token he => hresume ⟨cb, token, he⟩⟩

/-- In every interleaving the callbacks are called in the order in which they have been
    queued, none more often than it has been queued; as long as none has thrown, whenever the
    event loop is free each has been called or is still queued; and one that is called with a
    token is called with an access token that the refresh has got. -/
theorem pending_conserved (hrun : AuthRun acts rounds localStorage h c) :
    (resumed h).Sublist (enqueued h) ∧
      (Smooth h → c.running = none → enqueued h = resumed h ++ c.world.pendingQueue) ∧
      ∀ i w cb t a, (i, ⟨w, .resume cb (some t), a⟩) ∈ h →
        ∃ n w₁ body authorization data, i = .task n ∧
          (.task n, ⟨w₁, .send body authorization, .ok data⟩) ∈ h ∧ data.accessToken = t := by
  obtain ⟨rest, hb⟩ := batch_of_run hrun
  have hqueue := enqueued_eq hrun
  refine ⟨?_, fun hsmooth hfree => ?_, fun i w cb t a hmem => ?_⟩
  · rw [hqueue]
    have htaken := (List.sublist_append_left (resumed h) rest).trans hb.called
    exact htaken.trans (List.sublist_append_left _ _)
  · obtain rfl : rest = [] := by
      rcases hb.held with hrest | ⟨n, hn⟩
      · exact hrest
      · by_contra hne
        rw [← hn] at hne
        rw [running_of_pending hrun hne] at hfree
        cases hfree
    rw [hqueue, hb.all hsmooth, List.append_nil]
  · obtain ⟨newer, h', rfl⟩ := List.append_of_mem hmem
    have hsuffix : (i, ⟨w, .resume cb (some t), a⟩) :: h' <:+
        newer ++ (i, ⟨w, .resume cb (some t), a⟩) :: h' := List.suffix_append _ _
    cases i with
    | client i => exact (call_may hrun hsuffix).elim
    | task n =>
        obtain ⟨-, -, -, -, hanswered⟩ : (progress h' n).may (.resume cb (some t)) :=
          task_may hrun hsuffix
        obtain ⟨data, hdata, htoken⟩ := hanswered t rfl
        obtain ⟨w₁, body, authorization, hsend⟩ := send_of_answer hdata
        refine ⟨n, w₁, body, authorization, data, rfl, ?_, htoken⟩
        exact hsuffix.subset (List.mem_cons_of_mem _ hsend)

end

/-- The request that has been waiting is resumed with the token of the response. -/
theorem pending_conserved_twoRefreshes :
    ∃ h c, AuthRun twoRefreshes 2 signedIn h c ∧ Smooth h ∧ c.running = none ∧ resumed h = [7] ∧
      (resumed h).Sublist (enqueued h) ∧ enqueued h = resumed h ++ c.world.pendingQueue := by
  have hsettled : ∃ h c, AuthRun twoRefreshes 2 signedIn h c ∧
      (Smooth h ∧ c.running = none ∧ resumed h = [7]) :=
    Config.exists_run authAnswers_sound settledSchedule _ (by decide +kernel)
  obtain ⟨h, c, hrun, hsmooth, hfree, hresumed⟩ := hsettled
  obtain ⟨hsublist, hall, -⟩ := pending_conserved hrun
  exact ⟨h, c, hrun, hsmooth, hfree, hresumed, hsublist, hall hsmooth hfree⟩

end Mtrader.Frontend.Auth
