/-
  Mtrader.Frontend.Outcomes

  What a refresh sends and what the calls that have joined it return, under every
  interleaving of the page.
-/

import Mtrader.Frontend.SingleFlight

namespace Mtrader.Frontend.Auth

open Coroutine

variable {κ : Type} [DecidableEq κ] {acts : κ → Action} {rounds : ℕ}
variable {localStorage : String → Option String} {h h' : PageHistory κ}
variable {c c' : Config (Actor κ) Page Op.Ans JsError (Option String)}

-- ============================================================================
-- The first request
-- ============================================================================

/-- What a task is told when it begins. -/
def begins : (e : Op) → Except JsError e.Ans → Option (Except JsError RefreshBody)
  | .begin, .ok first => some first
  | _, _ => none

/-- What a task has begun with was there when its promise was created. -/
theorem created_of_first (hrun : AuthRun acts rounds localStorage h c) {n : ℕ}
    {first : Except JsError RefreshBody} (hfirst : (progress h n).first = some first) :
    ∃ i w, (i, ⟨w, .performRefresh first, .ok n⟩) ∈ h := by
  have hnext : ∀ (p : Progress) (e : Op) (a : Except JsError e.Ans),
      (refreshProtocol.next p e a).first = (begins e a).or p.first := by
    intro p e a
    cases e with
    | begin => cases a <;> rfl
    | _ => exact (next_keeps p _ a).first (by simp)
  obtain ⟨ev, h', hsuffix, hbegins⟩ := exists_of_ghost (f := Progress.first) rfl hnext hfirst
  obtain ⟨c₁, c₂, hrun₁, hs⟩ := hrun.entry hsuffix
  cases hs with
  | @mk e k a w' _ hp henv =>
      cases henv with
      | begin hcreated =>
          cases hbegins
          obtain ⟨i, w, hmem⟩ := (promises_of_run hrun₁ n first).mp hcreated
          exact ⟨i, w, hsuffix.subset (List.mem_cons_of_mem _ hmem)⟩
      | _ => cases hbegins

/-- What a call has read of the stored token is what is stored. -/
def Fresh (h : PageHistory κ) (w : Page) : Prop :=
  ∀ i value, joining h i = .free (some value) → w.localStorage "refresh_token_enc" = value

/-- A call reads `localStorage` in its turn, and does nothing else that keeps it there. -/
theorem free_of_next {g : Joining} {e : Op} {a : Except JsError e.Ans}
    {read : Option (Option String)} (hmay : g.may e) (h : g.next e a = .free read) :
    read = none ∨ ∃ key, e = .getItem key ∧ ∃ read', g = .free read' := by
  cases e with
  | getPromise =>
      cases a with
      | error x =>
          rw [show g = .outside from hmay] at h
          cases h
      | ok found =>
          cases found with
          | none =>
              cases h
              exact .inl rfl
          | some n => cases h
  | getItem key => exact .inr ⟨key, rfl, next_free (by simp) h⟩
  | performRefresh first => cases a <;> cases h
  | setPromise promise =>
      obtain ⟨n, rfl, rfl⟩ := hmay
      cases h
  | settled n => cases h
  | _ =>
      obtain ⟨read', rfl⟩ := next_free (by simp) h
      cases hmay

theorem fresh_of_run (hrun : AuthRun acts rounds localStorage h c) : Fresh h c.world := by
  induction hrun with
  | nil => exact fun i value hi => by cases hi
  | @cons h c c' j ev hr hs ih =>
      intro i value hi
      by_cases hji : j = .client i
      · subst hji
        have hmay := call_may (.cons hr hs) List.suffix_rfl
        cases hs with
        | @mk e k a w' _ hp henv =>
            rw [joining_self] at hi
            obtain hfree | ⟨key, rfl, read, hread⟩ := free_of_next hmay hi
            · exact absurd hfree (by simp)
            cases henv with
            | getItem =>
                rw [hread] at hi
                by_cases hkey : key = "refresh_token_enc"
                · subst hkey
                  cases hi
                  rfl
                · have hi : Joining.free (if key = "refresh_token_enc" then _ else read)
                      = .free (some value) := hi
                  rw [if_neg hkey] at hi
                  cases hi
                  exact ih i value hread
      · rw [joining_other hji] at hi
        exact absurd (eq_of_busy hr hs (busy_of_free hi)) hji

/-- A promise is created for the token that is stored. -/
theorem stored_of_create (hrun : AuthRun acts rounds localStorage h c) {i : Actor κ} {w : Page}
    {first : RefreshBody} {n : ℕ}
    (hmem : (i, ⟨w, .performRefresh (.ok first), .ok n⟩) ∈ h) :
    ∃ enc token, w.localStorage "refresh_token_enc" = some enc ∧ decrypt enc = .ok token ∧
      first.refreshToken = some token := by
  obtain ⟨newer, h', rfl⟩ := List.append_of_mem hmem
  have hsuffix : (i, ⟨w, .performRefresh (.ok first), .ok n⟩) :: h' <:+
      newer ++ (i, ⟨w, .performRefresh (.ok first), .ok n⟩) :: h' := List.suffix_append _ _
  obtain ⟨c₁, c₂, hrun₁, hs⟩ := hrun.entry hsuffix
  cases i with
  | task m => exact (task_may hrun hsuffix).elim
  | client i =>
      obtain ⟨read, hread, hfirst⟩ : (joining h' i).may (.performRefresh (.ok first)) :=
        call_may hrun hsuffix
      obtain ⟨enc, token, rfl, hdecrypt, htoken⟩ := hfirst first rfl
      have hw : w = c₁.world := hs.pre_eq
      exact ⟨enc, token, hw ▸ fresh_of_run hrun₁ i _ hread, hdecrypt, htoken⟩

-- ============================================================================
-- The interceptor's own requests
-- ============================================================================

/-- A task that is about to post for the interceptor holds the event loop. -/
theorem running_of_reading {n : ℕ} (hrun : AuthRun acts rounds localStorage h c)
    (hreading : (progress h n).interceptor.Reading) : c.running = some (.task n) := by
  have hidle : ∀ {p : Progress}, p.interceptor = .idle → ¬ p.interceptor.Reading := by
    rintro p hidle ⟨token, htoken⟩
    rw [hidle] at htoken
    cases htoken
  refine hrun.running_of_busy start_parked (i := .task n) (refreshTask_obeys rounds)
    (fun p : Progress => p.interceptor.Reading) (fun out p hend => hidle hend.interceptor)
    (fun p e hbusy hmay => ?_) hreading
  cases e with
  | send body authorization => exact absurd hbusy (hidle hmay.1.interceptor)
  | microtask => exact absurd hbusy (hidle hmay.2.2)
  | sleep ms => exact absurd hbusy (hidle (Progress.Open.interceptor hmay))
  | begin =>
      rw [show p = {} from hmay] at hbusy
      exact absurd hbusy (hidle rfl)
  | response =>
      obtain ⟨token, htoken⟩ := hbusy
      rw [hmay.2] at htoken
      cases htoken
  | called => exact hmay.elim
  | settled m => exact hmay.elim
  | _ => rfl

/-- The tokens that the interceptors of the tasks have read are what is stored. -/
def Current (h : PageHistory κ) (w : Page) : Prop :=
  ∀ n token, (progress h n).interceptor = .reading token →
    w.localStorage "refresh_token" = token ∧ (truthy token).isSome

/-- What the interceptor has read it has read just now, or it goes on reading. -/
theorem reading_of_next {p : Progress} {e : Op} {a : Except JsError e.Ans} {token : Option String}
    (hmay : p.may e) (h : (p.next e a).interceptor = .reading token) :
    (∃ key, e = .getItem key) ∨
      p.interceptor = .reading token ∧ ∃ cb value, e = .resume cb value := by
  have hidle : p.interceptor = .idle → p.interceptor ≠ .reading token := by
    rintro hidle htoken
    rw [hidle] at htoken
    cases htoken
  cases e with
  | getItem key => exact .inl ⟨key, rfl⟩
  | begin =>
      rw [show p = {} from hmay] at h
      cases a <;> cases h
  | send body authorization =>
      have h : Interceptor.answered a = .reading token := h
      unfold Interceptor.answered at h
      split at h <;> cases h
  | post body => cases a <;> cases h
  | response => cases a <;> cases h
  | splice => cases a <;> exact absurd h (hidle (Progress.Open.interceptor hmay))
  | resume cb value => cases a <;> exact Or.inr ⟨h, cb, value, rfl⟩
  | microtask => exact absurd h (hidle hmay.2.2)
  | setPromise promise => exact absurd h (hidle hmay.1.interceptor)
  | finish out => exact absurd h (hidle hmay.2.2.1)
  | called => exact hmay.elim
  | getPromise => exact hmay.elim
  | performRefresh first => exact hmay.elim
  | settled m => exact hmay.elim
  | push cb => exact hmay.elim
  | _ => exact absurd h (hidle (Progress.Open.interceptor hmay))

theorem current_of_run (hrun : AuthRun acts rounds localStorage h c) : Current h c.world := by
  induction hrun with
  | nil => exact fun n token hn => by cases hn
  | @cons h c c' j ev hr hs ih =>
      intro n token hn
      by_cases hj : j = .task n
      · subst hj
        have hmay := task_may (.cons hr hs) List.suffix_rfl
        cases hs with
        | @mk e k a w' _ hp henv =>
            rw [progress_self] at hn
            rcases reading_of_next hmay hn with ⟨key, rfl⟩ | ⟨hold, cb, value, rfl⟩
            · cases henv with
              | getItem =>
                  have hn : (progress h n).interceptor.read key (c.world.localStorage key)
                    = .reading token := hn
                  by_cases hkey : key = "refresh_token"
                  · subst hkey
                    cases hinterceptor : (progress h n).interceptor with
                    | idle =>
                        rw [hinterceptor, read_idle] at hn
                        cases hn
                    | refused =>
                        rw [hinterceptor, read_refused] at hn
                        split at hn
                        next hstored =>
                          cases hn
                          exact ⟨rfl, hstored⟩
                        next => cases hn
                    | reading token' =>
                        obtain ⟨hstored, htruthy⟩ := ih n token' hinterceptor
                        rw [hinterceptor, read_reading] at hn
                        cases hn
                        exact ⟨rfl, hstored ▸ htruthy⟩
                    | posted =>
                        rw [hinterceptor] at hn
                        cases hn
                  · rw [read_other hkey] at hn
                    exact ih n token hn
            · cases henv with
              | resumed => exact ih n token hold
              | threw => exact ih n token hold
      · rw [progress_other hj] at hn
        exact absurd (hs.eq_of_running (running_of_reading hr ⟨token, hn⟩)) hj

/-- The interceptor has been told of a 401 and has not posted yet. -/
def Interceptor.AtWork (s : Interceptor) : Prop := s = .refused ∨ s.Reading

theorem not_atWork_idle : ¬ Interceptor.AtWork .idle := by
  rintro (hidle | ⟨token, hidle⟩) <;> cases hidle

theorem not_atWork_posted : ¬ Interceptor.AtWork .posted := by
  rintro (hposted | ⟨token, hposted⟩) <;> cases hposted

theorem atWork_of_read {s : Interceptor} {key : String} {value : Option String}
    (h : (s.read key value).AtWork) : s.AtWork := by
  by_cases hkey : key = "refresh_token"
  · subst hkey
    cases s with
    | refused => exact .inl rfl
    | reading token => exact Or.inr ⟨token, rfl⟩
    | idle => exact read_idle ▸ h
    | posted => exact h
  · rwa [read_other hkey] at h

/-- It comes to work by a 401. -/
theorem atWork_of_next {p : Progress} {w : Page} {e : Op} {a : Except JsError e.Ans}
    (h : (p.next e a).interceptor.AtWork) :
    (∃ body authorization, (⟨w, e, a⟩ : PageEvent) =
      ⟨w, .send body authorization, .error (.axios (some 401))⟩) ∨ p.interceptor.AtWork := by
  cases e with
  | send body authorization =>
      rcases h with hrefused | ⟨token, htoken⟩
      · exact .inl ⟨body, authorization, by rw [answered_eq_refused hrefused]⟩
      · have htoken : Interceptor.answered a = .reading token := htoken
        unfold Interceptor.answered at htoken
        split at htoken <;> cases htoken
  | getItem key =>
      cases a with
      | ok value => exact Or.inr (atWork_of_read h)
      | error x => exact absurd h not_atWork_idle
  | post body =>
      cases a with
      | ok _ => exact absurd h not_atWork_posted
      | error x => exact absurd h not_atWork_idle
  | response => cases a <;> exact absurd h not_atWork_idle
  | _ => exact Or.inr ((next_keeps p _ a).interceptor (by simp) (by simp) (by simp) (by simp) ▸ h)

/-- The interceptor is at work because the request of the task has been answered with 401. -/
theorem refused_of_atWork {n : ℕ} (hn : (progress h n).interceptor.AtWork) :
    ∃ w body authorization,
      (.task n, ⟨w, .send body authorization, .error (.axios (some 401))⟩) ∈ h := by
  obtain ⟨ev, h', hsuffix, body, authorization, hev⟩ :=
    exists_event_of_ghost (S := fun p : Progress => p.interceptor.AtWork)
      (B := fun ev : PageEvent => ∃ body authorization,
        ev = ⟨ev.pre, .send body authorization, .error (.axios (some 401))⟩)
      not_atWork_idle (fun p w e a => atWork_of_next) hn
  exact ⟨ev.pre, body, authorization, hev ▸ hsuffix.subset List.mem_cons_self⟩

-- ============================================================================
-- Responses
-- ============================================================================

theorem send_of_answer {n : ℕ} {data : RefreshResponse}
    (hdata : (progress h n).answer = some data) :
    ∃ w body authorization, (.task n, ⟨w, .send body authorization, .ok data⟩) ∈ h := by
  have hnext : ∀ (p : Progress) (w : Page) (e : Op) (a : Except JsError e.Ans),
      (p.next e a).answer = some data →
        (∃ body authorization, (⟨w, e, a⟩ : PageEvent) = ⟨w, .send body authorization, .ok data⟩) ∨
          p.answer = some data := by
    intro p w e a hanswer
    cases e with
    | send body authorization =>
        cases a with
        | ok data' =>
            cases hanswer
            exact .inl ⟨body, authorization, rfl⟩
        | error x => cases hanswer
    | _ => exact .inr (((next_keeps p _ a).answer (by simp)).symm.trans hanswer)
  obtain ⟨ev, h', hsuffix, body, authorization, hev⟩ :=
    exists_event_of_ghost (S := fun p : Progress => p.answer = some data)
      (B := fun ev : PageEvent => ∃ body authorization,
        ev = ⟨ev.pre, .send body authorization, .ok data⟩) (by simp) hnext hdata
  exact ⟨ev.pre, body, authorization, hev ▸ hsuffix.subset List.mem_cons_self⟩

/-- Promises have been settled with access tokens that have come in responses to their
    requests. -/
def Earned (h : PageHistory κ) (w : Page) : Prop :=
  ∀ n t, w.outcome n = some (.ok t) →
    ∃ w₁ body authorization data,
      (.task n, ⟨w₁, .send body authorization, .ok data⟩) ∈ h ∧ data.accessToken = t

theorem earned_of_run (hrun : AuthRun acts rounds localStorage h c) : Earned h c.world := by
  induction hrun with
  | nil => exact fun n t hn => by cases hn
  | @cons h c c' i ev hr hs ih =>
      have hrun : AuthRun acts rounds localStorage ((i, ev) :: h) c' := .cons hr hs
      intro n t hn
      have hold : c.world.outcome n = some (.ok t) → ∃ w₁ body authorization data,
          (.task n, ⟨w₁, .send body authorization, .ok data⟩) ∈ (i, ev) :: h ∧
            data.accessToken = t := by
        intro hn
        obtain ⟨w₁, body, authorization, data, hmem, htoken⟩ := ih n t hn
        exact ⟨w₁, body, authorization, data, List.mem_cons_of_mem _ hmem, htoken⟩
      cases hs with
      | @mk e k a w' _ hp henv =>
          cases henv with
          | @finish _ m out =>
              have hn : Function.update c.world.outcome m (some out) n = some (.ok t) := hn
              by_cases hmn : n = m
              · subst hmn
                rw [Function.update_self] at hn
                obtain ⟨-, -, -, -, hanswered⟩ : (progress h n).may (.finish out) :=
                  task_may hrun List.suffix_rfl
                obtain ⟨data, hdata, htoken⟩ := hanswered t (Option.some.inj hn)
                obtain ⟨w₁, body, authorization, hmem⟩ := send_of_answer hdata
                exact ⟨w₁, body, authorization, data, List.mem_cons_of_mem _ hmem, htoken⟩
              · rw [Function.update_of_ne hmn] at hn
                exact hold hn
          | _ => exact hold hn

theorem told_of_next {g : Joining} {w : Page} {e : Op} {a : Except JsError e.Ans} {n : ℕ}
    {out : Except JsError String} (h : g.next e a = .told n out) :
    (⟨w, e, a⟩ : PageEvent) = ⟨w, .settled n, out⟩ ∨ g = .told n out := by
  unfold Joining.next at h
  split at h
  next =>
    unfold Joining.read at h
    split at h
    next => cases h
    next => exact .inr h
  next => cases h
  next => cases h
  next => cases h
  next => cases h
  next => cases h
  next =>
    cases h
    exact .inl rfl
  next => exact .inr h

theorem settled_of_told {i : κ} {n : ℕ} {out : Except JsError String}
    (htold : joining h i = .told n out) : ∃ w, (.client i, ⟨w, .settled n, out⟩) ∈ h := by
  obtain ⟨ev, h', hsuffix, hev⟩ :=
    exists_event_of_ghost (S := fun g : Joining => g = .told n out)
      (B := fun ev : PageEvent => ev = ⟨ev.pre, .settled n, out⟩) (by simp)
      (fun g w e a => told_of_next) htold
  exact ⟨ev.pre, hev ▸ hsuffix.subset List.mem_cons_self⟩

-- ============================================================================
-- Outcomes
-- ============================================================================

/-- The task sends its request. -/
def sending (ev : PageEvent) : Bool :=
  match ev.op with
  | .send _ _ => true
  | _ => false

/-- The response interceptor gets new tokens. -/
def refreshing (ev : PageEvent) : Bool :=
  match ev.op, ev.ans with
  | .response, .ok _ => true
  | _, _ => false

theorem tally_sending (n : ℕ) (h : PageHistory κ) :
    tally sending (.task n) h = (progress h n).sends := by
  refine tally_eq_ghost Progress.sends rfl (fun p w e a => ?_) _ _
  cases e with
  | send body authorization => rfl
  | _ => exact (next_keeps p _ a).sends (by simp)

theorem tally_refreshing (n : ℕ) (h : PageHistory κ) :
    tally refreshing (.task n) h = (progress h n).refreshes := by
  refine tally_eq_ghost Progress.refreshes rfl (fun p w e a => ?_) _ _
  cases e with
  | response => cases a <;> rfl
  | _ => exact (next_keeps p _ a).refreshes (by simp)

theorem sends_le (hrun : AuthRun acts rounds localStorage h c) (n : ℕ) :
    tally sending (.task n) h ≤ 3 + tally refreshing (.task n) h := by
  rw [tally_sending, tally_refreshing]
  refine hrun.ghost_invariant (I := fun p : Progress => p.sends ≤ 3 + p.refreshes)
    (refreshTask_obeys rounds) (Nat.zero_le 3) fun p e a hp hmay => ?_
  cases e with
  | send body authorization =>
      have hlt : p.sends < 3 + p.refreshes := hmay.2.1
      exact hlt
  | response =>
      cases a with
      | ok pair => exact hp.trans (Nat.le_succ _)
      | error x => exact hp
  | _ =>
      have hsends := (next_keeps p _ a).sends (by simp)
      have hrefreshes := (next_keeps p _ a).refreshes (by simp)
      exact (hsends.trans_le hp).trans_eq (congrArg (3 + ·) hrefreshes.symm)

/-- What a refresh sends is the token that was stored when its promise was created. -/
theorem stored_of_send (hrun : AuthRun acts rounds localStorage h c) {n : ℕ} {w : Page}
    {body : RefreshBody} {authorization : Option String} {a : Except JsError RefreshResponse}
    (hsuffix : (.task n, ⟨w, .send body authorization, a⟩) :: h' <:+ h) :
    ∃ i w₁ first enc token, (i, ⟨w₁, .performRefresh (.ok first), .ok n⟩) ∈ h' ∧
      w₁.localStorage "refresh_token_enc" = some enc ∧ decrypt enc = .ok token ∧
      body.refreshToken = some token := by
  obtain ⟨c₁, c₂, hrun₁, hs⟩ := hrun.entry hsuffix
  obtain ⟨-, -, first, hfirst, hbody⟩ : (progress h' n).may (.send body authorization) :=
    task_may hrun hsuffix
  obtain ⟨i, w₁, hmem⟩ := created_of_first hrun₁ hfirst
  obtain ⟨enc, token, hstored, hdecrypt, htoken⟩ := stored_of_create hrun₁ hmem
  exact ⟨i, w₁, first, enc, token, hmem, hstored, hdecrypt, hbody.trans htoken⟩

/-- The interceptor posts the other token that is stored, after a 401. -/
theorem stored_of_post (hrun : AuthRun acts rounds localStorage h c) {n : ℕ} {w : Page}
    {body : RefreshBody} {a : Except JsError Unit}
    (hsuffix : (.task n, ⟨w, .post body, a⟩) :: h' <:+ h) :
    (truthy body.refreshToken).isSome ∧ w.localStorage "refresh_token" = body.refreshToken ∧
      ∃ w₁ body₁ authorization,
        (.task n, ⟨w₁, .send body₁ authorization, .error (.axios (some 401))⟩) ∈ h' := by
  obtain ⟨c₁, c₂, hrun₁, hs⟩ := hrun.entry hsuffix
  obtain ⟨-, hreading⟩ : (progress h' n).may (.post body) := task_may hrun hsuffix
  obtain ⟨hstored, htruthy⟩ := current_of_run hrun₁ n _ hreading
  have hw : w = c₁.world := hs.pre_eq
  exact ⟨htruthy, hw ▸ hstored, refused_of_atWork (Or.inr ⟨_, hreading⟩)⟩

/-- A call returns an access token that the refresh it has waited for has got. -/
theorem earned_of_return (hrun : AuthRun acts rounds localStorage h c) {i : κ} {t : String}
    (hpool : c.pool (.client i) = .ret (some t)) :
    ∃ n w w₁ body authorization data, (.client i, ⟨w, .settled n, .ok t⟩) ∈ h ∧
      (.task n, ⟨w₁, .send body authorization, .ok data⟩) ∈ h ∧ data.accessToken = t := by
  have hend := call_obeys hrun i
  rw [hpool] at hend
  obtain ⟨n, htold⟩ := hend.told (some t) t rfl rfl
  obtain ⟨w, hmem⟩ := settled_of_told htold
  obtain ⟨newer, h', rfl⟩ := List.append_of_mem hmem
  have hsuffix : (.client i, ⟨w, .settled n, .ok t⟩) :: h' <:+
      newer ++ (.client i, ⟨w, .settled n, .ok t⟩) :: h' := List.suffix_append _ _
  obtain ⟨c₁, c₂, hrun₁, hs⟩ := hrun.entry hsuffix
  cases hs with
  | mk _ _ henv =>
      cases henv with
      | settled hsettled =>
          obtain ⟨w₁, body, authorization, data, hsend, htoken⟩ := earned_of_run hrun₁ n t hsettled
          refine ⟨n, _, w₁, body, authorization, data, hmem, ?_, htoken⟩
          exact hsuffix.subset (List.mem_cons_of_mem _ hsend)

/-- In every interleaving a refresh sends its request at most three times, and once more each
    time that the response interceptor has refreshed on its way; it sends only the token that
    was stored when its promise was created; the interceptor posts the other token that is
    stored then, after a 401; and a call that returns an access token has waited for a refresh
    that has got it in a response. -/
theorem refresh_outcomes (hrun : AuthRun acts rounds localStorage h c) :
    (∀ n, tally sending (.task n) h ≤ 3 + tally refreshing (.task n) h) ∧
      (∀ n w body authorization a h', (.task n, ⟨w, .send body authorization, a⟩) :: h' <:+ h →
        ∃ i w₁ first enc token, (i, ⟨w₁, .performRefresh (.ok first), .ok n⟩) ∈ h' ∧
          w₁.localStorage "refresh_token_enc" = some enc ∧ decrypt enc = .ok token ∧
          body.refreshToken = some token) ∧
      (∀ n w body a h', (.task n, ⟨w, .post body, a⟩) :: h' <:+ h →
        (truthy body.refreshToken).isSome ∧ w.localStorage "refresh_token" = body.refreshToken ∧
        ∃ w₁ body₁ authorization,
          (.task n, ⟨w₁, .send body₁ authorization, .error (.axios (some 401))⟩) ∈ h') ∧
      ∀ i t, c.pool (.client i) = .ret (some t) →
        ∃ n w w₁ body authorization data, (.client i, ⟨w, .settled n, .ok t⟩) ∈ h ∧
          (.task n, ⟨w₁, .send body authorization, .ok data⟩) ∈ h ∧ data.accessToken = t :=
  ⟨sends_le hrun, fun _ _ _ _ _ _ => stored_of_send hrun, fun _ _ _ _ _ => stored_of_post hrun,
    fun _ _ => earned_of_return hrun⟩

/-- The access token that the call has returned. -/
def returnedToken : Call (Option String) → Option String
  | .ret token => token
  | _ => none

theorem eq_ret_of_returnedToken {p : Call (Option String)} {t : String}
    (h : returnedToken p = some t) : p = .ret (some t) := by
  cases p with
  | ret token => exact congrArg Prog.ret h
  | _ => cases h

/-- The call that has joined returns the token of the response to the request that has been
    sent again. -/
theorem refresh_outcomes_twoRefreshes :
    ∃ h c, AuthRun twoRefreshes 2 signedIn h c ∧ c.pool (.client 1) = .ret (some "a1") ∧
      tally sending (.task 0) h = 2 ∧
      tally sending (.task 0) h ≤ 3 + tally refreshing (.task 0) h ∧
      ∃ n w w₁ body authorization data, (.client 1, ⟨w, .settled n, .ok "a1"⟩) ∈ h ∧
        (.task n, ⟨w₁, .send body authorization, .ok data⟩) ∈ h ∧ data.accessToken = "a1" := by
  have hsettled : ∃ h c, AuthRun twoRefreshes 2 signedIn h c ∧
      (returnedToken (c.pool (.client 1)) = some "a1" ∧ tally sending (.task 0) h = 2) :=
    Config.exists_run authAnswers_sound settledSchedule _ (by decide +kernel)
  obtain ⟨h, c, hrun, hret, htwice⟩ := hsettled
  have hpool := eq_ret_of_returnedToken hret
  obtain ⟨hsends, -, -, hreturned⟩ := refresh_outcomes hrun
  exact ⟨h, c, hrun, hpool, htwice, hsends 0, hreturned 1 "a1" hpool⟩

end Mtrader.Frontend.Auth
