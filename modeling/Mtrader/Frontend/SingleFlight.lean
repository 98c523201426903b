/-
  Mtrader.Frontend.SingleFlight

  `refreshAccessToken` under every interleaving of the page: at most one refresh is in
  flight, and a call joins it, or starts one if there is none.

  `Flight` is the invariant.  Between finding no promise and storing its own a call holds the
  event loop, so that nobody else can have created one meanwhile.
-/

import Mtrader.Frontend.Refreshes

namespace Mtrader.Frontend.Auth

open Coroutine

variable {κ : Type}

abbrev PageHistory (κ : Type) : Type := History (Actor κ) Page Op.Ans JsError

abbrev PageEvent : Type := Event Page Op.Ans JsError

/-- What call `i` has come to. -/
def joining [DecidableEq κ] (h : PageHistory κ) (i : κ) : Joining :=
  callProtocol.ghost .outside (.client i) h

/-- What the task of promise `n` has come to. -/
def progress [DecidableEq κ] (h : PageHistory κ) (n : ℕ) : Progress :=
  refreshProtocol.ghost {} (.task n) h

-- ============================================================================
-- Steps
-- ============================================================================

/-- What an operation does to the promises. -/
inductive Turn (w : Page) : (e : Op) → Except JsError e.Ans → Page → Prop
  | other {e : Op} {a : Except JsError e.Ans} {w' : Page} (hlook : e ≠ .getPromise)
      (hset : ∀ promise, e ≠ .setPromise promise) (hcreate : ∀ first, e ≠ .performRefresh first)
      (hpromise : w'.refreshPromise = w.refreshPromise) (hpromises : w'.promises = w.promises) :
      Turn w e a w'
  | look : Turn w .getPromise (.ok w.refreshPromise) w
  | set (promise : Option ℕ) :
      Turn w (.setPromise promise) (.ok ()) { w with refreshPromise := promise }
  | create (first : Except JsError RefreshBody) :
      Turn w (.performRefresh first) (.ok w.promises.length)
        { w with promises := w.promises ++ [first] }

theorem turn_of_env {i : Actor κ} {w w' : Page} {e : Op} {a : Except JsError e.Ans}
    (h : AuthStep i w e a w') : Turn w e a w' := by
  cases h with
  | getPromise => exact .look
  | setPromise => exact .set _
  | performRefresh => exact .create _
  | _ => exact .other (by simp) (by simp) (by simp) rfl rfl

theorem next_created {g : Joining} {e : Op} {a : Except JsError e.Ans} {n : ℕ}
    (hcreate : ∀ first, e ≠ .performRefresh first) (h : g.next e a = .created n) :
    g = .created n := by
  unfold Joining.next at h
  split at h
  next =>
    unfold Joining.read at h
    split at h
    next => cases h
    next => exact h
  next => cases h
  next => cases h
  next => exact absurd rfl (hcreate _)
  next => exact absurd rfl (hcreate _)
  next => cases h
  next => cases h
  next => exact h

theorem next_free {g : Joining} {e : Op} {a : Except JsError e.Ans}
    {read : Option (Option String)} (hlook : e ≠ .getPromise) (h : g.next e a = .free read) :
    ∃ read', g = .free read' := by
  unfold Joining.next at h
  split at h
  next =>
    unfold Joining.read at h
    split at h
    next read' => exact ⟨read', rfl⟩
    next => exact ⟨read, h⟩
  next => exact absurd rfl hlook
  next => exact absurd rfl hlook
  next => cases h
  next => cases h
  next => cases h
  next => cases h
  next => exact ⟨read, h⟩

theorem created_may {n : ℕ} {e : Op} (h : Joining.may (.created n) e) :
    ∃ promise, e = .setPromise promise := by
  cases e with
  | setPromise promise => exact ⟨promise, rfl⟩
  | getItem key =>
      rcases h with h | ⟨read, h⟩
      · cases h
      · cases h
  | performRefresh first =>
      obtain ⟨read, h, -⟩ := h
      cases h
  | _ => cases h

section

variable [DecidableEq κ] {acts : κ → Action} {rounds : ℕ} {localStorage : String → Option String}
variable {h h' : PageHistory κ}
variable {c c' : Config (Actor κ) Page Op.Ans JsError (Option String)}

/-- The runs of a page. -/
abbrev AuthRun (acts : κ → Action) (rounds : ℕ) (localStorage : String → Option String) :
    PageHistory κ → Config (Actor κ) Page Op.Ans JsError (Option String) → Prop :=
  Run Op.suspends AuthStep (pageStart acts rounds localStorage)

theorem call_obeys (hrun : AuthRun acts rounds localStorage h c) (i : κ) :
    (c.pool (.client i)).Obeys callProtocol (CallEnd id) (joining h i) :=
  hrun.obeys (i := .client i) (action_obeys (acts i))

theorem call_may {i : κ} {ev : PageEvent} (hrun : AuthRun acts rounds localStorage h c)
    (hsuffix : (.client i, ev) :: h' <:+ h) : (joining h' i).may ev.op :=
  hrun.may (action_obeys (acts i)) hsuffix

theorem task_may {n : ℕ} {ev : PageEvent} (hrun : AuthRun acts rounds localStorage h c)
    (hsuffix : (.task n, ev) :: h' <:+ h) : (progress h' n).may ev.op :=
  hrun.may (refreshTask_obeys rounds) hsuffix

omit [DecidableEq κ] in
theorem start_parked (i : Actor κ) :
    ((pageStart acts rounds localStorage).pool i).parked Op.suspends = true := by
  cases i with
  | client i => rfl
  | task n => rfl

/-- A call in the middle of its turn holds the event loop. -/
theorem running_of_call {i : κ} (hrun : AuthRun acts rounds localStorage h c)
    (hbusy : (joining h i).Busy) : c.running = some (.client i) := by
  refine hrun.running_of_busy start_parked (action_obeys (acts i)) Joining.Busy
    (fun out g hend => hend.calm) (fun g e hbusy hmay => ?_) hbusy
  cases g with
  | free read =>
      cases e with
      | getItem key => rfl
      | performRefresh first => rfl
      | setPromise promise =>
          obtain ⟨n, hcreated, -⟩ := hmay
          cases hcreated
      | _ => cases hmay
  | created n =>
      cases e with
      | getItem key => rfl
      | performRefresh first => rfl
      | setPromise promise => rfl
      | _ => cases hmay
  | _ => exact hbusy.elim

-- ============================================================================
-- One refresh at a time
-- ============================================================================

/-- The promises, and where the calls and the tasks are with them. -/
structure Flight (h : PageHistory κ) (w : Page) : Prop where
  promise : ∀ n, w.refreshPromise = some n → n < w.promises.length ∧ (progress h n).clears = 0
  /-- A refresh that has not forgotten its promise is the one that is stored, or is about to
      be. -/
  alone : ∀ n, n < w.promises.length → (progress h n).clears = 0 →
    w.refreshPromise = some n ∨ ∃ i, joining h i = .created n
  created : ∀ i n, joining h i = .created n →
    w.refreshPromise = none ∧ n < w.promises.length ∧ (progress h n).clears = 0
  free : ∀ i read, joining h i = .free read → w.refreshPromise = none
  begun : ∀ n, progress h n = {} ∨ n < w.promises.length

theorem Flight.start : Flight ([] : PageHistory κ) { localStorage } where
  promise n hn := by cases hn
  alone n hn := by simp at hn
  created i n hcreated := by cases hcreated
  free i read hfree := by cases hfree
  begun n := .inl rfl

theorem joining_self {i : κ} {ev : PageEvent} :
    joining ((.client i, ev) :: h) i = (joining h i).next ev.op ev.ans := Discipline.ghost_self

theorem joining_other {i : κ} {j : Actor κ} {ev : PageEvent} (hne : j ≠ .client i) :
    joining ((j, ev) :: h) i = joining h i := Discipline.ghost_other hne

theorem progress_self {n : ℕ} {ev : PageEvent} :
    progress ((.task n, ev) :: h) n = (progress h n).next ev.op ev.ans := Discipline.ghost_self

theorem progress_other {n : ℕ} {j : Actor κ} {ev : PageEvent} (hne : j ≠ .task n) :
    progress ((j, ev) :: h) n = progress h n := Discipline.ghost_other hne

/-- Nobody but a call in the middle of its turn goes on. -/
theorem eq_of_busy {i : κ} {j : Actor κ} {ev : PageEvent}
    (hrun : AuthRun acts rounds localStorage h c) (hs : Step Op.suspends AuthStep c j ev c')
    (hbusy : (joining h i).Busy) : j = .client i :=
  hs.eq_of_running (running_of_call hrun hbusy)

theorem busy_of_created {g : Joining} {n : ℕ} (hg : g = .created n) : g.Busy := by
  rw [hg]
  trivial

theorem busy_of_free {g : Joining} {read : Option (Option String)} (hg : g = .free read) :
    g.Busy := by
  rw [hg]
  trivial

theorem progress_client {i : κ} {ev : PageEvent} (n : ℕ) :
    progress ((.client i, ev) :: h) n = progress h n := progress_other (by simp)

theorem progress_task {n m : ℕ} {ev : PageEvent} (hm : m ≠ n) :
    progress ((.task n, ev) :: h) m = progress h m :=
  progress_other fun heq => hm (Actor.task.inj heq).symm

theorem joining_task {n : ℕ} {ev : PageEvent} (j : κ) :
    joining ((.task n, ev) :: h) j = joining h j := joining_other (by simp)

theorem joining_client {i j : κ} {ev : PageEvent} (hj : j ≠ i) :
    joining ((.client i, ev) :: h) j = joining h j :=
  joining_other fun heq => hj (Actor.client.inj heq).symm

section

variable {i : κ} {w w' : Page} {e : Op} {a : Except JsError e.Ans}

/-- A call does something that has nothing to do with the promises. -/
theorem Flight.quiet (hf : Flight h w) (hmay : (joining h i).may e) (hlook : e ≠ .getPromise)
    (hset : ∀ promise, e ≠ .setPromise promise) (hcreate : ∀ first, e ≠ .performRefresh first)
    (hpromise : w'.refreshPromise = w.refreshPromise) (hpromises : w'.promises = w.promises) :
    Flight ((.client i, ⟨w, e, a⟩) :: h) w' := by
  have hstill : ∀ j n, joining h j = .created n →
      joining ((.client i, ⟨w, e, a⟩) :: h) j = .created n := by
    intro j n hj
    by_cases hji : j = i
    · subst hji
      rw [hj] at hmay
      obtain ⟨promise, rfl⟩ := created_may hmay
      exact absurd rfl (hset promise)
    · rw [joining_client hji, hj]
  refine ⟨fun n hn => ?_, fun n hn hclears => ?_, fun j n hj => ?_, fun j read hj => ?_, ?_⟩
  · rw [progress_client, hpromises]
    exact hf.promise n (hpromise ▸ hn)
  · rw [progress_client] at hclears
    rw [hpromise]
    exact (hf.alone n (hpromises ▸ hn) hclears).imp_right fun ⟨j, hj⟩ => ⟨j, hstill j n hj⟩
  · rw [progress_client, hpromise, hpromises]
    apply hf.created j
    by_cases hji : j = i
    · subst hji
      rw [joining_self] at hj
      exact next_created hcreate hj
    · rw [← joining_client hji, hj]
  · rw [hpromise]
    by_cases hji : j = i
    · subst hji
      rw [joining_self] at hj
      obtain ⟨read', hread⟩ := next_free hlook hj
      exact hf.free j read' hread
    · exact hf.free j read (joining_client hji ▸ hj)
  · intro n
    rw [progress_client, hpromises]
    exact hf.begun n

theorem looked_not_created {found : Option ℕ} {n : ℕ} :
    joining ((.client i, ⟨w, .getPromise, .ok found⟩) :: h) i ≠ .created n := by
  intro hi
  rw [joining_self] at hi
  cases found with
  | none => cases hi
  | some m => cases hi

theorem looked_free {found : Option ℕ} {read : Option (Option String)}
    (hi : joining ((.client i, ⟨w, .getPromise, .ok found⟩) :: h) i = .free read) :
    found = none := by
  rw [joining_self] at hi
  cases found with
  | none => rfl
  | some m => cases hi

/-- A call looks for a promise. -/
theorem Flight.look (hf : Flight h w) (houtside : joining h i = .outside)
    (hbusy : ∀ j, (joining h j).Busy → j = i) :
    Flight ((.client i, ⟨w, .getPromise, .ok w.refreshPromise⟩) :: h) w := by
  refine ⟨fun n hn => ?_, fun n hn hclears => ?_, fun j n hj => ?_, fun j read hj => ?_, ?_⟩
  · rw [progress_client]
    exact hf.promise n hn
  · rw [progress_client] at hclears
    refine (hf.alone n hn hclears).imp_right fun ⟨j, hj⟩ => ?_
    rw [hbusy j (busy_of_created hj), houtside] at hj
    cases hj
  · rw [progress_client]
    by_cases hji : j = i
    · subst hji
      exact absurd hj looked_not_created
    · exact hf.created j n (joining_client hji ▸ hj)
  · by_cases hji : j = i
    · subst hji
      exact looked_free hj
    · exact hf.free j read (joining_client hji ▸ hj)
  · intro n
    rw [progress_client]
    exact hf.begun n

/-- A call stores the promise that it has created. -/
theorem Flight.store {m : ℕ} (hf : Flight h w) (hm : joining h i = .created m)
    (hbusy : ∀ j, (joining h j).Busy → j = i) :
    Flight ((.client i, ⟨w, .setPromise (some m), .ok ()⟩) :: h)
      { w with refreshPromise := some m } := by
  obtain ⟨hnone, hlt, hclear⟩ := hf.created i m hm
  have hself : joining ((.client i, ⟨w, .setPromise (some m), .ok ()⟩) :: h) i = .joined m := by
    rw [joining_self, hm]
    rfl
  refine ⟨fun n hn => ?_, fun n hn hclears => ?_, fun j n hj => ?_, fun j read hj => ?_, ?_⟩
  · cases hn
    rw [progress_client]
    exact ⟨hlt, hclear⟩
  · rw [progress_client] at hclears
    rcases hf.alone n hn hclears with hpromise | ⟨j, hj⟩
    · rw [hnone] at hpromise
      cases hpromise
    · rw [hbusy j (busy_of_created hj), hm] at hj
      cases hj
      exact .inl rfl
  · by_cases hji : j = i
    · rw [hji, hself] at hj
      cases hj
    · exact absurd (hbusy j (busy_of_created (joining_client hji ▸ hj))) hji
  · by_cases hji : j = i
    · rw [hji, hself] at hj
      cases hj
    · exact absurd (hbusy j (busy_of_free (joining_client hji ▸ hj))) hji
  · intro n
    rw [progress_client]
    exact hf.begun n

/-- A call creates a promise. -/
theorem Flight.create {read : Option (Option String)} (hf : Flight h w)
    (hread : joining h i = .free read) (hbusy : ∀ j, (joining h j).Busy → j = i)
    (first : Except JsError RefreshBody) :
    Flight ((.client i, ⟨w, .performRefresh first, .ok w.promises.length⟩) :: h)
      { w with promises := w.promises ++ [first] } := by
  have hnone := hf.free i read hread
  have hself : joining ((.client i, ⟨w, .performRefresh first,
      .ok w.promises.length⟩) :: h) i = .created w.promises.length := by
    rw [joining_self, hread]
    rfl
  have hlength : (w.promises ++ [first]).length = w.promises.length + 1 := by simp
  refine ⟨fun n hn => ?_, fun n hn hclears => ?_, fun j n hj => ?_, fun j read hj => hnone, ?_⟩
  · have hn : w.refreshPromise = some n := hn
    rw [hnone] at hn
    cases hn
  · rw [progress_client] at hclears
    have hn : n < (w.promises ++ [first]).length := hn
    rw [hlength] at hn
    rcases Nat.lt_succ_iff_lt_or_eq.mp hn with hn | rfl
    · rcases hf.alone n hn hclears with hpromise | ⟨j, hj⟩
      · rw [hnone] at hpromise
        cases hpromise
      · rw [hbusy j (busy_of_created hj), hread] at hj
        cases hj
    · exact .inr ⟨i, hself⟩
  · by_cases hji : j = i
    · rw [hji, hself] at hj
      cases hj
      rw [progress_client]
      refine ⟨hnone, ?_, ?_⟩
      · show _ < (w.promises ++ [first]).length
        omega
      · rcases hf.begun w.promises.length with hempty | hlt
        · rw [hempty]
        · exact absurd hlt (lt_irrefl _)
    · exact absurd (hbusy j (busy_of_created (joining_client hji ▸ hj))) hji
  · intro n
    rw [progress_client]
    refine (hf.begun n).imp_right fun hn => ?_
    show n < (w.promises ++ [first]).length
    omega

theorem Flight.call (hf : Flight h w) (hmay : (joining h i).may e) (hturn : Turn w e a w')
    (hbusy : ∀ j, (joining h j).Busy → j = i) : Flight ((.client i, ⟨w, e, a⟩) :: h) w' := by
  cases hturn with
  | other hlook hset hcreate hpromise hpromises =>
      exact hf.quiet hmay hlook hset hcreate hpromise hpromises
  | look => exact hf.look hmay hbusy
  | set promise =>
      obtain ⟨m, hm, rfl⟩ := hmay
      exact hf.store hm hbusy
  | create first =>
      obtain ⟨read, hread, -⟩ := hmay
      exact hf.create hread hbusy first

omit [DecidableEq κ] in
/-- A task that does anything has been created. -/
theorem created_of_env {n : ℕ} (hmay : Progress.may {} e)
    (henv : AuthStep (.task n : Actor κ) w e a w') : n < w.promises.length := by
  cases henv with
  | begin hcreated =>
      obtain ⟨hn, -⟩ := List.getElem?_eq_some_iff.mp hcreated
      exact hn
  | resumed => exact absurd hmay.1 (by simp)
  | threw => exact absurd hmay.1 (by simp)
  | microtask => exact absurd hmay.1 (by simp)
  | finish => exact absurd hmay.1 (by simp)
  | answered => exact absurd hmay.1.first (by simp)
  | failed => exact absurd hmay.1.first (by simp)
  | post => exact absurd hmay.1.first (by simp)
  | refreshed => exact absurd hmay.1.first (by simp)
  | refused => exact absurd hmay.1.first (by simp)
  | setPromise => exact absurd hmay.1.first (by simp)
  | getItem => exact absurd (Progress.Working.first hmay) (by simp)
  | getPromise => exact hmay.elim
  | performRefresh => exact hmay.elim
  | settled hsettled => exact hmay.elim
  | push => exact hmay.elim
  | _ => exact absurd (Progress.Open.toWorking hmay).first (by simp)

/-- A task that has been created does something that has nothing to do with the promises. -/
theorem Flight.work {n : ℕ} (hf : Flight h w) (hthere : n < w.promises.length)
    (hset : ∀ promise, e ≠ .setPromise promise)
    (hpromise : w'.refreshPromise = w.refreshPromise) (hpromises : w'.promises = w.promises)
    (hbusy : ∀ j, ¬ (joining h j).Busy) : Flight ((.task n, ⟨w, e, a⟩) :: h) w' := by
  have hclears : ∀ m, (progress ((.task n, ⟨w, e, a⟩) :: h) m).clears = (progress h m).clears := by
    intro m
    by_cases hm : m = n
    · subst hm
      rw [progress_self]
      exact (next_keeps _ _ _).clears hset
    · rw [progress_task hm]
  refine ⟨fun m hm => ?_, fun m hm hclear => ?_, fun j m hj => ?_, fun j read hj => ?_, ?_⟩
  · rw [hclears, hpromises]
    exact hf.promise m (hpromise ▸ hm)
  · rw [hclears] at hclear
    rw [hpromise]
    refine (hf.alone m (hpromises ▸ hm) hclear).imp_right fun ⟨j, hj⟩ => ?_
    exact absurd (busy_of_created hj) (hbusy j)
  · exact absurd (busy_of_created (joining_task j ▸ hj)) (hbusy j)
  · exact absurd (busy_of_free (joining_task j ▸ hj)) (hbusy j)
  · intro m
    rw [hpromises]
    by_cases hm : m = n
    · exact .inr (hm ▸ hthere)
    · rw [progress_task hm]
      exact hf.begun m

/-- A task sets `refreshPromise` to null: the promise it forgets is its own. -/
theorem Flight.forget {n : ℕ} (hf : Flight h w) (hthere : n < w.promises.length)
    (hclear : (progress h n).clears = 0) (hbusy : ∀ j, ¬ (joining h j).Busy) :
    Flight ((.task n, ⟨w, .setPromise none, .ok ()⟩) :: h) { w with refreshPromise := none } := by
  have hown : w.refreshPromise = some n :=
    (hf.alone n hthere hclear).resolve_right fun ⟨j, hj⟩ => hbusy j (busy_of_created hj)
  have hself : (progress ((.task n, ⟨w, .setPromise none, .ok ()⟩) :: h) n).clears ≠ 0 := by
    rw [progress_self]
    exact Nat.succ_ne_zero _
  refine ⟨fun m hm => ?_, fun m hm hclear => ?_, fun j m hj => ?_, fun j read hj => ?_, ?_⟩
  · cases hm
  · by_cases hmn : m = n
    · subst hmn
      exact absurd hclear hself
    · rw [progress_task hmn] at hclear
      rcases hf.alone m hm hclear with hpromise | ⟨j, hj⟩
      · rw [hown] at hpromise
        exact absurd (Option.some.inj hpromise).symm hmn
      · exact absurd (busy_of_created hj) (hbusy j)
  · exact absurd (busy_of_created (joining_task j ▸ hj)) (hbusy j)
  · exact absurd (busy_of_free (joining_task j ▸ hj)) (hbusy j)
  · intro m
    by_cases hm : m = n
    · exact .inr (hm ▸ hthere)
    · rw [progress_task hm]
      exact hf.begun m

theorem Flight.task {n : ℕ} (hf : Flight h w) (hmay : (progress h n).may e)
    (henv : AuthStep (.task n : Actor κ) w e a w') (hbusy : ∀ j, ¬ (joining h j).Busy) :
    Flight ((.task n, ⟨w, e, a⟩) :: h) w' := by
  have hthere : n < w.promises.length := by
    rcases hf.begun n with hempty | hlt
    · exact created_of_env (hempty ▸ hmay) henv
    · exact hlt
  cases turn_of_env henv with
  | other hlook hset hcreate hpromise hpromises =>
      exact hf.work hthere hset hpromise hpromises hbusy
  | look => exact hmay.elim
  | create first => exact hmay.elim
  | set promise =>
      obtain ⟨hopen, rfl⟩ := hmay
      exact hf.forget hthere hopen.clears hbusy

end

theorem flight_of_run (hrun : AuthRun acts rounds localStorage h c) : Flight h c.world := by
  induction hrun with
  | nil => exact Flight.start
  | @cons h c c' i ev hr hs ih =>
      have hrun : AuthRun acts rounds localStorage ((i, ev) :: h) c' := .cons hr hs
      have hbusy : ∀ j, (joining h j).Busy → i = .client j := fun j hj => eq_of_busy hr hs hj
      cases hs with
      | @mk e k a w' _ hp henv =>
          cases i with
          | client i =>
              refine ih.call (call_may hrun List.suffix_rfl) (turn_of_env henv) fun j hj => ?_
              exact (Actor.client.inj (hbusy j hj)).symm
          | task n =>
              refine ih.task (task_may hrun List.suffix_rfl) henv fun j hj => ?_
              cases hbusy j hj

-- ============================================================================
-- In flight
-- ============================================================================

/-- The operation sets `refreshPromise`. -/
def clearing (ev : PageEvent) : Bool :=
  match ev.op with
  | .setPromise _ => true
  | _ => false

/-- Promise `n` has been created, and its task has not set `refreshPromise` to null yet. -/
def InFlight (h : PageHistory κ) (n : ℕ) : Prop :=
  (∃ i w first, (i, ⟨w, .performRefresh first, .ok n⟩) ∈ h) ∧ tally clearing (.task n) h = 0

theorem tally_clearing (n : ℕ) (h : PageHistory κ) :
    tally clearing (.task n) h = (progress h n).clears := by
  refine tally_eq_ghost Progress.clears rfl (fun p w e a => ?_) _ _
  by_cases hset : ∃ promise, e = .setPromise promise
  · obtain ⟨promise, rfl⟩ := hset
    rfl
  · have hne : ∀ promise, e ≠ .setPromise promise := fun promise he => hset ⟨promise, he⟩
    have hclearing : clearing ⟨w, e, a⟩ = false := by
      unfold clearing
      split
      next promise he => exact absurd he (hne promise)
      next => rfl
    show (p.next e a).clears = _
    rw [(next_keeps _ _ _).clears hne, hclearing]
    rfl

omit [DecidableEq κ] in
theorem getElem?_concat {α : Type} {l : List α} {x y : α} {n : ℕ} :
    (l ++ [x])[n]? = some y ↔ l[n]? = some y ∨ n = l.length ∧ x = y := by
  rcases Nat.lt_trichotomy n l.length with hn | rfl | hn
  · rw [List.getElem?_append_left hn]
    exact (or_iff_left fun h => absurd h.1 hn.ne).symm
  · rw [List.getElem?_concat_length, List.getElem?_eq_none le_rfl]
    simp
  · have hlength : (l ++ [x]).length ≤ n := by
      rw [List.length_append, List.length_singleton]
      exact hn
    rw [List.getElem?_eq_none hlength, List.getElem?_eq_none hn.le]
    simp [hn.ne']

/-- The promises that there are, are the ones that have been created. -/
theorem promises_of_run (hrun : AuthRun acts rounds localStorage h c) (n : ℕ)
    (first : Except JsError RefreshBody) :
    c.world.promises[n]? = some first ↔ ∃ i w, (i, ⟨w, .performRefresh first, .ok n⟩) ∈ h := by
  induction hrun with
  | nil => simp [pageStart]
  | @cons h c c' i ev hr hs ih =>
      cases hs with
      | @mk e k a w' _ hp henv =>
          have hold : (∀ first', e ≠ .performRefresh first') → w'.promises = c.world.promises →
              (w'.promises[n]? = some first ↔ ∃ j w, (j, ⟨w, .performRefresh first, .ok n⟩) ∈
                (i, (⟨c.world, e, a⟩ : PageEvent)) :: h) := by
            intro hne hpromises
            rw [hpromises, ih]
            refine exists₂_congr fun j w => ⟨List.mem_cons_of_mem _, fun hmem => ?_⟩
            rcases List.mem_cons.mp hmem with heq | hmem
            · exact absurd (congrArg (fun entry => entry.2.op) heq).symm (hne first)
            · exact hmem
          cases turn_of_env henv with
          | other hlook hset hcreate hpromise hpromises => exact hold hcreate hpromises
          | look => exact hold (by simp) rfl
          | set promise => exact hold (by simp) rfl
          | create first' =>
              show (c.world.promises ++ [first'])[n]? = some first ↔ _
              rw [getElem?_concat, ih]
              constructor
              · rintro (⟨j, w, hmem⟩ | ⟨rfl, rfl⟩)
                · exact ⟨j, w, List.mem_cons_of_mem _ hmem⟩
                · exact ⟨i, c.world, List.mem_cons_self⟩
              · rintro ⟨j, w, hmem⟩
                rcases List.mem_cons.mp hmem with heq | hmem
                · cases heq
                  exact .inr ⟨rfl, rfl⟩
                · exact .inl ⟨j, w, hmem⟩

theorem inFlight_iff (hrun : AuthRun acts rounds localStorage h c) {n : ℕ} :
    InFlight h n ↔ n < c.world.promises.length ∧ (progress h n).clears = 0 := by
  have hcreated : (∃ i w first, (i, ⟨w, .performRefresh first, .ok n⟩) ∈ h) ↔
      n < c.world.promises.length := by
    constructor
    · rintro ⟨i, w, first, hmem⟩
      have hfirst := (promises_of_run hrun n first).mpr ⟨i, w, hmem⟩
      exact (List.getElem?_eq_some_iff.mp hfirst).1
    · intro hn
      obtain ⟨i, w, hmem⟩ := (promises_of_run hrun n _).mp (List.getElem?_eq_getElem hn)
      exact ⟨i, w, _, hmem⟩
  rw [InFlight, hcreated, tally_clearing]

/-- A refresh in flight is the one that is stored, or that a call is just about to store. -/
theorem promise_of_inFlight (hrun : AuthRun acts rounds localStorage h c) {n : ℕ}
    (hn : InFlight h n) :
    c.world.refreshPromise = some n ∨ ∃ i, joining h i = .created n := by
  obtain ⟨hlt, hclears⟩ := (inFlight_iff hrun).mp hn
  exact (flight_of_run hrun).alone n hlt hclears

theorem inFlight_unique (hrun : AuthRun acts rounds localStorage h c) {m n : ℕ} (hm : InFlight h m)
    (hn : InFlight h n) : m = n := by
  have hflight := flight_of_run hrun
  have hnone : ∀ {i k l}, joining h i = .created k → c.world.refreshPromise ≠ some l := by
    intro i k l hi hl
    rw [(hflight.created i k hi).1] at hl
    cases hl
  rcases promise_of_inFlight hrun hm with hpm | ⟨i, hi⟩
  · rcases promise_of_inFlight hrun hn with hpn | ⟨j, hj⟩
    · exact Option.some.inj (hpm.symm.trans hpn)
    · exact absurd hpm (hnone hj)
  · rcases promise_of_inFlight hrun hn with hpn | ⟨j, hj⟩
    · exact absurd hpn (hnone hi)
    · have hrunning := running_of_call hrun (busy_of_created hi)
      have heq := hrunning.symm.trans (running_of_call hrun (busy_of_created hj))
      cases heq
      rw [hi] at hj
      cases hj
      rfl

-- ============================================================================
-- Who creates one
-- ============================================================================

/-- Call `i` has looked for a promise and found none. -/
def Missed (h : PageHistory κ) (i : κ) : Prop :=
  ∃ w, (.client i, ⟨w, .getPromise, .ok none⟩) ∈ h

/-- Call `i` has created a refresh. -/
def Created (h : PageHistory κ) (i : κ) : Prop :=
  ∃ w first n, (.client i, ⟨w, .performRefresh first, .ok n⟩) ∈ h

omit [DecidableEq κ] in
theorem Missed.cons {i : κ} {entry : Actor κ × PageEvent} (hi : Missed h i) :
    Missed (entry :: h) i :=
  hi.imp fun _ hmem => List.mem_cons_of_mem _ hmem

omit [DecidableEq κ] in
theorem Created.cons {i : κ} {entry : Actor κ × PageEvent} (hi : Created h i) :
    Created (entry :: h) i := by
  obtain ⟨w, first, n, hmem⟩ := hi
  exact ⟨w, first, n, List.mem_cons_of_mem _ hmem⟩

/-- A call comes to be in the middle of its turn when it has found no promise. -/
theorem missed_of_busy (hrun : AuthRun acts rounds localStorage h c) {i : κ}
    (hbusy : (joining h i).Busy) : Missed h i := by
  induction hrun with
  | nil => exact hbusy.elim
  | @cons h c c' j ev hr hs ih =>
      by_cases hj : j = .client i
      · subst hj
        have hmay := call_may (.cons hr hs) List.suffix_rfl
        obtain ⟨w, e, a⟩ := ev
        rw [joining_self] at hbusy
        cases e with
        | getPromise =>
            have houtside : joining h i = .outside := hmay
            rw [houtside] at hbusy
            cases a with
            | error x => exact hbusy.elim
            | ok found =>
                cases found with
                | none => exact ⟨w, List.mem_cons_self⟩
                | some n => exact hbusy.elim
        | getItem key =>
            rcases hmay with houtside | ⟨read, hread⟩
            · rw [houtside] at hbusy
              cases a <;> exact hbusy.elim
            · exact (ih (busy_of_free hread)).cons
        | performRefresh first =>
            obtain ⟨read, hread, -⟩ := hmay
            exact (ih (busy_of_free hread)).cons
        | setPromise promise =>
            obtain ⟨n, hn, -⟩ := hmay
            exact (ih (busy_of_created hn)).cons
        | settled n => exact hbusy.elim
        | _ => exact (ih hbusy).cons
      · rw [joining_other hj] at hbusy
        exact (ih hbusy).cons

/-- A call that has found none is about to create one, or has done so. -/
theorem free_or_created (hrun : AuthRun acts rounds localStorage h c) {i : κ}
    (hmissed : Missed h i) : (∃ read, joining h i = .free read) ∨ Created h i := by
  induction hrun with
  | nil =>
      obtain ⟨w, hmem⟩ := hmissed
      cases hmem
  | @cons h c c' j ev hr hs ih =>
      obtain ⟨w, hmem⟩ := hmissed
      rcases List.mem_cons.mp hmem with heq | hmem
      · cases heq
        refine .inl ⟨none, ?_⟩
        rw [joining_self]
        rfl
      rcases ih ⟨w, hmem⟩ with ⟨read, hread⟩ | hcreated
      swap
      · exact Or.inr hcreated.cons
      by_cases hj : j = .client i
      swap
      · exact .inl ⟨read, by rw [joining_other hj, hread]⟩
      subst hj
      have hmay : (joining h i).may ev.op := call_may (.cons hr hs) List.suffix_rfl
      rw [hread] at hmay
      rw [joining_self, hread]
      cases hs with
      | @mk e k a w' _ hp henv =>
          cases henv with
          | @getItem _ _ key => exact .inl ⟨if key = "refresh_token_enc" then _ else read, rfl⟩
          | performRefresh => exact Or.inr ⟨_, _, _, List.mem_cons_self⟩
          | setPromise =>
              obtain ⟨n, hn, -⟩ := hmay
              cases hn
          | _ => cases hmay

/-- A call that has created a refresh is not about to create another. -/
theorem not_free_of_created (hrun : AuthRun acts rounds localStorage h c) {i : κ}
    (hcreated : Created h i) : joining h i ≠ .outside ∧ ∀ read, joining h i ≠ .free read := by
  induction hrun with
  | nil =>
      obtain ⟨w, first, n, hmem⟩ := hcreated
      cases hmem
  | @cons h c c' j ev hr hs ih =>
      obtain ⟨w, first, n, hmem⟩ := hcreated
      rcases List.mem_cons.mp hmem with heq | hmem
      · cases heq
        rw [joining_self]
        exact ⟨by simp [Joining.next], by simp [Joining.next]⟩
      obtain ⟨houtside, hfree⟩ := ih ⟨w, first, n, hmem⟩
      by_cases hj : j = .client i
      swap
      · rw [joining_other hj]
        exact ⟨houtside, hfree⟩
      subst hj
      have hmay : (joining h i).may ev.op := call_may (.cons hr hs) List.suffix_rfl
      rw [joining_self]
      obtain ⟨w₁, e, a⟩ := ev
      cases e with
      | getItem key =>
          rcases hmay with h₁ | ⟨read, h₁⟩
          · exact absurd h₁ houtside
          · exact absurd h₁ (hfree read)
      | performRefresh first' =>
          obtain ⟨read, h₁, -⟩ := hmay
          exact absurd h₁ (hfree read)
      | setPromise promise =>
          obtain ⟨m, h₁, rfl⟩ := hmay
          exact ⟨by simp [Joining.next], by simp [Joining.next]⟩
      | settled m => exact ⟨by simp [Joining.next], by simp [Joining.next]⟩
      | _ => first | exact absurd hmay houtside | exact hmay.elim

/-- The operation is a request to `/api/v1/auth/refresh`. -/
def requests : Op → Bool
  | .send _ _ => true
  | .post _ => true
  | _ => false

/-- A task that makes a request is the refresh in flight. -/
theorem inFlight_of_request (hrun : AuthRun acts rounds localStorage h c) {i : Actor κ}
    {ev : PageEvent} (hsuffix : (i, ev) :: h' <:+ h) (hrequests : requests ev.op) :
    ∃ n, i = .task n ∧ InFlight h' n := by
  obtain ⟨c₁, c₂, hrun₁, hs⟩ := hrun.entry hsuffix
  obtain ⟨w, e, a⟩ := ev
  cases i with
  | client i =>
      have hmay : (joining h' i).may e := call_may hrun hsuffix
      cases e with
      | send body authorization => exact hmay.elim
      | post body => exact hmay.elim
      | _ => cases hrequests
  | task n =>
      have hworking : (progress h' n).Working := by
        have hmay : (progress h' n).may e := task_may hrun hsuffix
        cases e with
        | send body authorization => exact hmay.1.toWorking
        | post body => exact hmay.1
        | _ => cases hrequests
      refine ⟨n, rfl, (inFlight_iff hrun₁).mpr ⟨?_, hworking.clears⟩⟩
      rcases (flight_of_run hrun₁).begun n with hempty | hlt
      · have hfirst := hworking.first
        rw [hempty] at hfirst
        cases hfirst
      · exact hlt

/-- In every interleaving at most one refresh is in flight, and it alone makes requests; a call
    finds its promise, or none if there is no such refresh; and a call creates a refresh, one
    only and while none is in flight, exactly if it has found none. -/
theorem refresh_single_flight (hrun : AuthRun acts rounds localStorage h c) :
    (∀ m n, InFlight h m → InFlight h n → m = n) ∧
      (∀ i ev h', (i, ev) :: h' <:+ h → requests ev.op → ∃ n, i = .task n ∧ InFlight h' n) ∧
      (∀ i w found h', (.client i, ⟨w, .getPromise, .ok found⟩) :: h' <:+ h →
        ∀ n, found = some n ↔ InFlight h' n) ∧
      (∀ i w first n h', (i, ⟨w, .performRefresh first, .ok n⟩) :: h' <:+ h →
        ∃ j, i = .client j ∧ Missed h' j ∧ ¬ Created h' j ∧ ∀ m, ¬ InFlight h' m) ∧
      ∀ i, Missed h i → c.running ≠ some (.client i) → Created h i := by
  refine ⟨fun m n => inFlight_unique hrun, fun i ev h' => inFlight_of_request hrun, ?_, ?_, ?_⟩
  · intro i w found h' hsuffix n
    obtain ⟨c₁, c₂, hrun₁, hs⟩ := hrun.entry hsuffix
    have houtside : joining h' i = .outside := call_may hrun hsuffix
    have hfound : found = c₁.world.refreshPromise := by
      cases hs with
      | mk _ _ henv =>
          cases henv with
          | getPromise => rfl
    rw [hfound]
    constructor
    · intro hpromise
      exact (inFlight_iff hrun₁).mpr ((flight_of_run hrun₁).promise n hpromise)
    · intro hn
      refine (promise_of_inFlight hrun₁ hn).resolve_right fun ⟨j, hj⟩ => ?_
      cases eq_of_busy hrun₁ hs (busy_of_created hj)
      rw [houtside] at hj
      cases hj
  · intro i w first n h' hsuffix
    obtain ⟨c₁, c₂, hrun₁, hs⟩ := hrun.entry hsuffix
    cases i with
    | task m => exact (task_may hrun hsuffix).elim
    | client j =>
        obtain ⟨read, hread, -⟩ : (joining h' j).may (.performRefresh first) :=
          call_may hrun hsuffix
        refine ⟨j, rfl, missed_of_busy hrun₁ (busy_of_free hread), fun hcreated => ?_,
          fun m hm => ?_⟩
        · exact (not_free_of_created hrun₁ hcreated).2 read hread
        · rcases promise_of_inFlight hrun₁ hm with hpromise | ⟨k, hk⟩
          · rw [(flight_of_run hrun₁).free j read hread] at hpromise
            cases hpromise
          · cases eq_of_busy hrun₁ hs (busy_of_created hk)
            rw [hread] at hk
            cases hk
  · intro i hmissed hfree
    rcases free_or_created hrun hmissed with ⟨read, hread⟩ | hcreated
    · exact absurd (running_of_call hrun (busy_of_free hread)) hfree
    · exact hcreated

end

/-- Two calls of `refreshAccessToken`, and requests that wait. -/
def twoRefreshes : ℕ → Action
  | 0 => .refreshAccessToken
  | 1 => .refreshAccessToken
  | _ => .enqueuePendingRequest 7

/-- Both modules of the page have stored a refresh token in `localStorage`. -/
def signedIn (key : String) : Option String :=
  if key = "refresh_token_enc" then (encrypt "r0").toOption
  else if key = "refresh_token" then some "q0"
  else none

/-- The server refreshes what the response interceptor sends it, and wants the access token
    it has got for that. -/
def authAnswers (i : Actor ℕ) : Handler Page Op.Ans JsError :=
  fun w e => match e with
    | .called => match i with
        | .client _ => some (.ok (), w)
        | .task _ => none
    | .getItem key => some (.ok (w.localStorage key), w)
    | .setItem key value =>
        some (.ok (), { w with localStorage := Function.update w.localStorage key (some value) })
    | .removeItem key =>
        some (.ok (), { w with localStorage := Function.update w.localStorage key none })
    | .setMemory token => some (.ok (), { w with inMemoryAccessToken := token })
    | .getPromise => some (.ok w.refreshPromise, w)
    | .setPromise promise => some (.ok (), { w with refreshPromise := promise })
    | .performRefresh first =>
        some (.ok w.promises.length, { w with promises := w.promises ++ [first] })
    | .settled n => (w.outcome n).map fun out => (out, w)
    | .begin => match i with
        | .client _ => none
        | .task n => (w.promises[n]?).map fun first => (.ok first, w)
    | .send _ authorization =>
        if authorization = some "Bearer a0" then some (.ok ⟨"a1", some "r1"⟩, w)
        else some (.error (.axios (some 401)), w)
    | .post _ => some (.ok (), w)
    | .response => some (.ok ⟨"a0", "q1"⟩, w)
    | .sleep _ => some (.ok (), w)
    | .microtask => some (.ok (), w)
    | .splice => some (.ok w.pendingQueue, { w with pendingQueue := [] })
    | .push cb => some (.ok (), { w with pendingQueue := w.pendingQueue ++ [cb] })
    | .resume _ _ => some (.ok (), w)
    | .returnTo => some (.ok "/", w)
    | .assign _ => some (.ok (), w)
    | .finish out => match i with
        | .client _ => none
        | .task n => some (.ok (), { w with outcome := Function.update w.outcome n (some out) })

theorem authAnswers_sound (i : Actor ℕ) (w : Page) (e : Op) (a : Except JsError e.Ans)
    (w' : Page) (h : authAnswers i w e = some (a, w')) : AuthStep i w e a w' := by
  cases e with
  | called =>
      cases i with
      | client i =>
          cases h
          exact .called
      | task n => cases h
  | settled n =>
      cases hout : w.outcome n with
      | none => simp [authAnswers, hout] at h
      | some out =>
          simp only [authAnswers, hout, Option.map_some, Option.some.injEq, Prod.mk.injEq] at h
          obtain ⟨rfl, rfl⟩ := h
          exact .settled hout
  | begin =>
      cases i with
      | client i => cases h
      | task n =>
          cases hfirst : w.promises[n]? with
          | none => simp [authAnswers, hfirst] at h
          | some first =>
              simp only [authAnswers, hfirst, Option.map_some, Option.some.injEq,
                Prod.mk.injEq] at h
              obtain ⟨rfl, rfl⟩ := h
              exact .begin hfirst
  | finish out =>
      cases i with
      | client i => cases h
      | task n =>
          cases h
          exact .finish
  | send body authorization =>
      simp only [authAnswers] at h
      split at h
      next =>
        cases h
        exact .answered
      next =>
        cases h
        exact .failed
  | _ =>
      cases h
      constructor

/-- The second call comes while the first one's refresh is in flight, and then one request
    that waits. -/
def joinedSchedule : List (Actor ℕ) :=
  List.replicate 6 (.client 0) ++ List.replicate 2 (.client 1) ++ List.replicate 2 (.client 2)

/-- The refresh, and the calls that have waited for it. -/
def settledSchedule : List (Actor ℕ) :=
  joinedSchedule ++ List.replicate 23 (.task 0) ++ [.client 0, .client 1]

/-- Two calls have come, and the one refresh is in flight. -/
theorem refresh_single_flight_twoRefreshes :
    ∃ h c, AuthRun twoRefreshes 2 signedIn h c ∧ c.world.promises.length = 1 ∧
      c.world.refreshPromise = some 0 ∧
      (∀ m n, InFlight h m → InFlight h n → m = n) ∧
      ∀ i w found h', (.client i, ⟨w, .getPromise, .ok found⟩) :: h' <:+ h →
        ∀ n, found = some n ↔ InFlight h' n := by
  have hjoined : ∃ h c, AuthRun twoRefreshes 2 signedIn h c ∧
      (c.world.promises.length = 1 ∧ c.world.refreshPromise = some 0) :=
    Config.exists_run authAnswers_sound joinedSchedule _ (by decide +kernel)
  obtain ⟨h, c, hrun, hone, hpromise⟩ := hjoined
  obtain ⟨hunique, -, hfound, -⟩ := refresh_single_flight hrun
  exact ⟨h, c, hrun, hone, hpromise, hunique, hfound⟩

end Mtrader.Frontend.Auth
