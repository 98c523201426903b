/-
  Mtrader.Frontend.Refresh

  How often the response interceptor posts a refresh token.

  The interceptor does not know of the refreshes of other requests: it posts what
  `localStorage` holds, also while the refresh of another request has not stored the
  next token yet.
-/

import Mtrader.Frontend.Api
import Mtrader.Frontend.Tokens

namespace Mtrader.Frontend

open Coroutine

-- ============================================================================
-- One call
-- ============================================================================

/-- After a token was read. -/
def Progress.read (g : Progress) (stored : Option String) : Progress :=
  match g.refresh with
  | .idle => if (truthy stored).isSome then { g with refresh := .reading stored } else g
  | .reading _ => { g with refresh := .reading stored }
  | _ => g

/-- After the token was stored. -/
def Progress.store (g : Progress) (token : String) : Progress :=
  { refresh := .idle, held := g.held.erase token }

/-- After a refresh that failed. -/
def Progress.fail (g : Progress) : Progress :=
  match g.refresh with
  | .inFlight token => { g with refresh := .failed token }
  | _ => g

/-- A call's progress after one of its operations. -/
def Progress.next (g : Progress) : (e : Op) → Except AxiosError e.Ans → Progress
  | .getItem key, .ok stored => if key = "refresh_token" then g.read stored else g
  | .getItem _, .error _ => { g with refresh := .idle }
  | .post body, .ok _ => { g with refresh := .inFlight body.refreshToken }
  | .post _, .error _ => { g with refresh := .idle }
  | .response, .ok pair => { g with held := pair.refreshToken :: g.held }
  | .response, .error _ => g.fail
  | .send r _, .ok data => { g with held := r.tokens data ++ g.held }
  | .setItem key value, .ok _ => if key = "refresh_token" then g.store value else g
  | _, _ => g

/-- A call posts the token that it has just read, and stores one that it was given. -/
def refreshing : Discipline Op.Ans AxiosError Progress where
  may g
    | .getItem _ => True
    | .randomUUID => True
    | .post body => g.refresh = .reading body.refreshToken
    | .response => ∃ token, g.refresh = .inFlight token
    | .send _ _ => g.refresh = .idle
    | .setItem key value => ¬ g.Reading ∧ (key = "refresh_token" → value ∈ g.held)
    | .called => ¬ g.Reading
    | .removeItem _ => ¬ g.Reading
    | .clear => ¬ g.Reading
  next := Progress.next

/-- A call does not end between reading and posting. -/
def Ends {α : Type} (_ : Except AxiosError α) (g : Progress) : Prop := ¬ g.Reading

/-- After a request the call holds the tokens of the response too. -/
def Answered (r : Request) (held : List String) :
    Except AxiosError r.Data → Progress → Prop
  | .ok data, g => g = { held := r.tokens data ++ held }
  | .error _, g => ¬ g.Reading

section

variable {g : Progress} {held : List String} {stored : Option String} {key value : String}

theorem not_reading_of_idle (h : g.refresh = .idle) : ¬ g.Reading := by
  rintro ⟨token, htoken⟩
  rw [h] at htoken
  cases htoken

theorem not_reading_of_inFlight (h : ∃ token, g.refresh = .inFlight token) : ¬ g.Reading := by
  obtain ⟨token, htoken⟩ := h
  rintro ⟨token', htoken'⟩
  rw [htoken] at htoken'
  cases htoken'

theorem not_reading_idle : ¬ Progress.Reading { held } := not_reading_of_idle rfl

theorem not_reading_inFlight {token : Option String} :
    ¬ Progress.Reading { refresh := .inFlight token, held } := not_reading_of_inFlight ⟨_, rfl⟩

theorem next_getItem_other (hkey : key ≠ "refresh_token") :
    refreshing.next g (.getItem key) (.ok stored) = g := if_neg hkey

theorem next_getItem :
    refreshing.next g (.getItem "refresh_token") (.ok stored) = g.read stored := by
  show (if "refresh_token" = "refresh_token" then g.read stored else g) = g.read stored
  exact if_pos rfl

theorem next_setItem_other (hkey : key ≠ "refresh_token") :
    refreshing.next g (.setItem key value) (.ok ()) = g := if_neg hkey

theorem next_setItem :
    refreshing.next g (.setItem "refresh_token" value) (.ok ()) = g.store value := by
  show (if "refresh_token" = "refresh_token" then g.store value else g) = g.store value
  exact if_pos rfl

theorem read_idle : Progress.read { held } stored =
    if (truthy stored).isSome then { refresh := .reading stored, held } else { held } := rfl

theorem store_held {refresh : Refresh} :
    Progress.store { refresh, held := value :: held } value = { held } := by
  rw [Progress.store, List.erase_cons_head]

/-- A call that is about to post has read the token. -/
theorem stored_of_read {token : Option String} (h : (g.read stored).refresh = .reading token) :
    stored = token := by
  unfold Progress.read at h
  split at h
  next hidle =>
    split at h
    next => exact Refresh.reading.inj h
    next =>
      rw [hidle] at h
      cases h
  next => exact Refresh.reading.inj h
  next hidle hreading =>
    exact absurd h (hreading token)

theorem read_held : (g.read stored).held = g.held := by
  unfold Progress.read
  split
  next => split <;> rfl
  next => rfl
  next => rfl

theorem read_holding {token : String} : (g.read stored).Holding token ↔ g.Holding token := by
  unfold Progress.read
  split
  next hidle =>
    split
    next => simp [Progress.Holding, hidle]
    next => exact Iff.rfl
  next hreading => simp [Progress.Holding, hreading]
  next => exact Iff.rfl

theorem fail_held : g.fail.held = g.held := by
  unfold Progress.fail
  split <;> rfl

theorem fail_holding {token : String} (h : ∃ token, g.refresh = .inFlight token) :
    g.fail.Holding token ↔ g.Holding token := by
  obtain ⟨token', htoken⟩ := h
  simp [Progress.Holding, Progress.fail, htoken]

theorem fail_not_reading (h : ∃ token, g.refresh = .inFlight token) : ¬ g.fail.Reading := by
  obtain ⟨token, htoken⟩ := h
  rintro ⟨token', hreading⟩
  rw [Progress.fail, htoken] at hreading
  cases hreading

theorem requestInterceptor_obeys (authorization : Option String) :
    (requestInterceptor authorization).Obeys refreshing (fun _ g => g = { held }) { held } := by
  refine Prog.obeys_op_bind.mpr ⟨trivial, fun token => ?_, fun _ => rfl⟩
  rw [next_getItem_other (by decide)]
  exact rfl

/-- The interceptor posts what it reads, and goes on with the next token stored. -/
theorem responseInterceptor_obeys {α : Type} {Q : Except AxiosError α → Progress → Prop}
    (err : AxiosError) {request : String → Call α} (herr : ∀ x g, ¬ g.Reading → Q (.error x) g)
    (hrequest : ∀ header, (request header).Obeys refreshing Q { held }) :
    (responseInterceptor err request).Obeys refreshing Q { held } := by
  unfold responseInterceptor
  split
  next =>
    refine Prog.obeys_op_bind.mpr ⟨trivial, fun stored => ?_, fun x => herr x _ not_reading_idle⟩
    rw [next_getItem, read_idle]
    split
    next =>
      refine Prog.obeys_op_bind.mpr ⟨trivial, fun token => ?_, fun x => herr x _ not_reading_idle⟩
      rw [next_getItem]
      refine Prog.obeys_op_bind.mpr ⟨trivial, fun device => ?_, fun x =>
        herr x _ not_reading_idle⟩
      rw [next_getItem_other (by decide)]
      refine Prog.obeys_op_bind.mpr ⟨rfl, fun _ => ?_, fun x => herr x _ not_reading_idle⟩
      refine Prog.obeys_op_bind.mpr ⟨⟨token, rfl⟩, fun pair => ?_, fun x => herr x _ ?_⟩
      · have hother : "access_token" ≠ "refresh_token" := by decide
        refine Prog.obeys_op_bind.mpr ⟨⟨not_reading_inFlight, fun h => absurd h hother⟩,
          fun _ => ?_, fun x => herr x _ not_reading_inFlight⟩
        rw [next_setItem_other hother]
        refine Prog.obeys_op_bind.mpr ⟨⟨not_reading_inFlight, fun _ => List.mem_cons_self⟩,
          fun _ => ?_, fun x => herr x _ not_reading_inFlight⟩
        rw [next_setItem]
        exact store_held ▸ hrequest _
      · exact fun ⟨_, h⟩ => nomatch h
    next => exact herr _ _ not_reading_idle
  next => exact herr _ _ not_reading_idle

theorem apiRequest_obeys (r : Request) (n : ℕ) (authorization : Option String) :
    (apiRequest (send r) n authorization).Obeys refreshing (Answered r held) { held } := by
  induction n generalizing authorization with
  | zero => exact not_reading_idle
  | succ n ih =>
      refine (requestInterceptor_obeys authorization).seq (fun header g hg => ?_) fun _ _ hg => ?_
      · rw [hg]
        refine Prog.obeys_bind.mpr (Prog.obeys_attempt.mpr ?_)
        refine Prog.obeys_op.mpr ⟨rfl, fun out => ?_⟩
        cases out with
        | ok data => exact rfl
        | error err =>
            exact responseInterceptor_obeys err (fun _ _ h => h) fun header => ih (some header)
      · rw [hg]
        exact not_reading_idle

theorem removeItem_obeys (key : String) :
    (removeItem key).Obeys refreshing (fun _ g => g = { held }) { held } :=
  Prog.obeys_op.mpr ⟨not_reading_idle, fun out => by cases out <;> rfl⟩

theorem setItem_obeys (hkey : key ≠ "refresh_token") :
    (setItem key value).Obeys refreshing (fun _ g => g = { held }) { held } := by
  refine Prog.obeys_op.mpr ⟨⟨not_reading_idle, fun h => absurd h hkey⟩, fun out => ?_⟩
  cases out with
  | ok _ => exact next_setItem_other hkey
  | error _ => rfl

theorem login_obeys (n : ℕ) (email password : String) (code : Option String) :
    (login n email password code).Obeys refreshing Ends { held } := by
  have hstop : ∀ {α : Type} (out : α) (g : Progress), g = { held } → ¬ g.Reading := by
    rintro _ _ _ rfl
    exact not_reading_idle
  refine Prog.obeys_op_bind.mpr ⟨trivial, fun stored => ?_, fun _ => not_reading_idle⟩
  rw [next_getItem_other (by decide)]
  refine Prog.Obeys.seq (P := fun _ g => g = { held }) ?_ (fun device g hg => ?_) hstop
  · split
    next => exact rfl
    next => exact Prog.obeys_op.mpr ⟨trivial, fun out => by cases out <;> rfl⟩
  rw [hg]
  refine (setItem_obeys (by decide)).seq (fun _ g hg => ?_) hstop
  rw [hg]
  refine (apiRequest_obeys _ n none).seq (fun data g hg => ?_) fun _ _ hg => hg
  rw [show g = _ from hg]
  refine Prog.Obeys.seq (P := fun (out : Except AxiosError Unit) (g : Progress) => match out with
    | .ok _ => g = { held := data.refreshToken :: held }
    | .error _ => ¬ g.Reading) ?_ (fun _ g hg => ?_) ?_
  · split
    next code _ =>
      exact (apiRequest_obeys _ n none).seq (fun _ _ hg => hg) fun _ _ hg => hg
    next => exact rfl
  · rw [show g = _ from hg]
    refine (setItem_obeys (by decide)).seq (fun _ g hg => ?_) fun _ _ hg => ?_
    · rw [hg]
      refine Prog.obeys_op_bind.mpr ⟨⟨not_reading_idle, fun _ => List.mem_cons_self⟩,
        fun _ => ?_, fun _ => not_reading_idle⟩
      rw [next_setItem, store_held]
      exact (setItem_obeys (by decide)).mono hstop
    · rw [hg]
      exact not_reading_idle
  · exact fun _ _ hg => hg

theorem prog_obeys (n : ℕ) (a : Action) : (a.prog n).Obeys refreshing Ends {} := by
  refine Prog.obeys_op_bind.mpr ⟨not_reading_idle, fun _ => ?_, fun _ => not_reading_idle⟩
  show Prog.Obeys refreshing _ Ends {}
  have hstop : ∀ {α : Type} (out : α) (g : Progress), g = {} → ¬ g.Reading := by
    rintro _ _ _ rfl
    exact not_reading_idle
  cases a with
  | call r =>
      refine (apiRequest_obeys r n none).seq (fun data g hg => ?_) fun _ _ hg => hg
      rw [show g = _ from hg]
      exact not_reading_idle
  | login email password code => exact login_obeys n email password code
  | logout =>
      refine (removeItem_obeys _).seq (fun _ g hg => ?_) hstop
      rw [hg]
      refine (removeItem_obeys _).seq (fun _ g hg => ?_) hstop
      rw [hg]
      exact (removeItem_obeys _).mono hstop
  | recover =>
      refine Prog.obeys_op.mpr ⟨not_reading_idle, fun out => ?_⟩
      cases out <;> exact not_reading_idle

end

-- ============================================================================
-- Many calls
-- ============================================================================

section

variable {ι : Type} [DecidableEq ι] {acts : ι → Action} {rounds : ι → ℕ}
variable {localStorage : String → Option String}
variable {h : History ι Page Op.Ans AxiosError} {c c' : Config ι Page Op.Ans AxiosError Unit}
variable {i : ι} {ev : Event Page Op.Ans AxiosError}

/-- A run of the page. -/
abbrev PageRun (acts : ι → Action) (rounds : ι → ℕ) (localStorage : String → Option String) :
    History ι Page Op.Ans AxiosError → Config ι Page Op.Ans AxiosError Unit → Prop :=
  Run Op.suspends (fun _ => ApiStep) (pageStart acts rounds localStorage)

/-- How far each call is. -/
def progress (h : History ι Page Op.Ans AxiosError) (i : ι) : Progress := refreshing.ghost {} i h

theorem progress_cons : progress ((i, ev) :: h) =
    Function.update (progress h) i (refreshing.next (progress h i) ev.op ev.ans) :=
  refreshing.ghost_cons {} i ev h

/-- What a call does next is what its progress allows. -/
theorem may_of_call (hrun : PageRun acts rounds localStorage h c) {e : Op}
    {k : Except AxiosError e.Ans → Call Unit} (hcall : c.pool i = .call e k) :
    refreshing.may (progress h i) e := by
  have hobeys := hrun.obeys (i := i) (prog_obeys (rounds i) (acts i))
  rw [hcall] at hobeys
  exact hobeys.1

theorem running_of_reading (hrun : PageRun acts rounds localStorage h c)
    (hreading : (progress h i).Reading) : c.running = some i := by
  refine hrun.running_of_busy (fun _ => rfl) (prog_obeys (rounds i) (acts i)) Progress.Reading
    (fun _ _ hend => hend) (fun g e hbusy hmay => ?_) hreading
  cases e with
  | called => exact absurd hbusy hmay
  | send r authorization => exact absurd hbusy (not_reading_of_idle hmay)
  | response => exact absurd hbusy (not_reading_of_inFlight hmay)
  | _ => rfl

/-- Nobody changes the stored token while a call is about to post it. -/
theorem stored_of_reading (hrun : PageRun acts rounds localStorage h c) {token : Option String}
    (hreading : (progress h i).refresh = .reading token) :
    c.world.localStorage "refresh_token" = token := by
  induction hrun generalizing i token with
  | nil => cases hreading
  | @cons h c c' j ev hr hs ih =>
      rw [progress_cons] at hreading
      by_cases hij : i = j
      · subst hij
        rw [Function.update_self] at hreading
        cases hs with
        | @mk e k a w' hmay hcall henv =>
            have hallowed := may_of_call hr hcall
            have hno : ¬ (progress h i).Reading → (progress h i).refresh ≠ .reading token :=
              fun hnot heq => hnot ⟨token, heq⟩
            cases henv with
            | called => exact ih hreading
            | @getItem _ key =>
                by_cases hkey : key = "refresh_token"
                · subst hkey
                  rw [next_getItem] at hreading
                  exact stored_of_read hreading
                · rw [next_getItem_other hkey] at hreading
                  exact ih hreading
            | @setItem _ key value =>
                by_cases hkey : key = "refresh_token"
                · subst hkey
                  rw [next_setItem] at hreading
                  cases hreading
                · rw [next_setItem_other hkey] at hreading
                  exact absurd hreading (hno hallowed.1)
            | removeItem => exact absurd hreading (hno hallowed)
            | clear => exact absurd hreading (hno hallowed)
            | randomUUID => exact ih hreading
            | sent => exact absurd hreading (hno (not_reading_of_idle hallowed))
            | failed => exact absurd hreading (hno (not_reading_of_idle hallowed))
            | post => cases hreading
            | refreshed => exact absurd hreading (hno (not_reading_of_inFlight hallowed))
            | refused => exact absurd ⟨token, hreading⟩ (fail_not_reading hallowed)
      · -- The call that is about to post holds the loop.
        rw [Function.update_of_ne hij] at hreading
        have hrunning := running_of_reading hr ⟨token, hreading⟩
        exact absurd (hs.eq_of_running hrunning).symm hij

-- ============================================================================
-- The tokens of a run
-- ============================================================================

/-- The run as one of tokens: `localStorage` stores one, the calls are the parties. -/
def tokens (h : History ι Page Op.Ans AxiosError) (c : Config ι Page Op.Ans AxiosError Unit) :
    Tokens ι where
  stored := c.world.localStorage "refresh_token"
  issued := c.world.issued
  used := posts h
  progress := progress h

/-- An operation that does not touch the tokens. -/
theorem still_move {s : Tokens ι} {g : Progress} (hg : g = s.progress i) :
    Tokens.Move s i (s.become i g) := by
  subst hg
  exact .still rfl fun _ => Iff.rfl

/-- Each operation of a run is a move of the tokens. -/
theorem step_move (hrun : PageRun acts rounds localStorage h c)
    (hs : Step Op.suspends (fun _ => ApiStep) c i ev c') :
    Tokens.Move (tokens h c) i (tokens ((i, ev) :: h) c') := by
  cases hs with
  | @mk e k a w' hmay hcall henv =>
      have hallowed := may_of_call hrun hcall
      suffices hmove : Tokens.Move (tokens h c) i {
          stored := w'.localStorage "refresh_token"
          issued := w'.issued
          used := posts ((i, ⟨c.world, e, a⟩) :: h)
          progress := Function.update (progress h) i (refreshing.next (progress h i) e a) } by
        have hprogress : progress ((i, ⟨c.world, e, a⟩) :: h) =
            Function.update (progress h) i (refreshing.next (progress h i) e a) := progress_cons
        rw [← hprogress] at hmove
        exact hmove
      cases henv with
      | called => exact still_move rfl
      | @getItem _ key =>
          by_cases hkey : key = "refresh_token"
          · subst hkey
            rw [next_getItem]
            exact .still read_held fun _ => read_holding
          · rw [next_getItem_other hkey]
            exact still_move rfl
      | @setItem _ key value =>
          by_cases hkey : key = "refresh_token"
          · subst hkey
            rw [next_setItem, Page.setItem_stored]
            exact .store (hallowed.2 rfl)
          · rw [next_setItem_other hkey, Page.setItem_other hkey]
            exact still_move rfl
      | @removeItem _ key =>
          by_cases hkey : key = "refresh_token"
          · subst hkey
            rw [Page.removeItem_stored]
            exact .drop
          · rw [Page.removeItem_other hkey]
            exact still_move rfl
      | clear => exact .drop
      | randomUUID => exact still_move rfl
      | @sent _ r authorization data hfresh =>
          refine .issue ?_ hfresh
          cases r with
          | login _ _ _ => exact List.nodup_singleton _
          | _ => exact List.nodup_nil
      | failed => exact still_move rfl
      | @post _ body =>
          have hstored : c.world.localStorage "refresh_token" = body.refreshToken :=
            stored_of_reading hrun hallowed
          have hreading : (progress h i).refresh = .reading body.refreshToken := hallowed
          cases htoken : body.refreshToken with
          | none =>
              rw [posts_null rfl htoken]
              refine .still rfl fun token => ?_
              show Progress.Holding { refresh := .inFlight body.refreshToken, held := _ } token ↔
                (progress h i).Holding token
              simp [Progress.Holding, hreading, htoken]
          | some token =>
              rw [posts_post rfl htoken]
              have hnext : refreshing.next (progress h i) (.post body) (.ok ()) =
                  { progress h i with refresh := .inFlight (some token) } := by
                rw [← htoken]
                rfl
              rw [hnext]
              exact .use (hstored.trans htoken)
      | @refreshed _ pair hfresh =>
          refine .issue (List.nodup_singleton _) fun t ht => ?_
          rw [List.mem_singleton.mp ht]
          exact hfresh
      | refused => exact .still fail_held fun _ => fail_holding hallowed

theorem start_safe : Tokens.Safe (tokens (ι := ι) [] (pageStart acts rounds localStorage)) where
  stored_issued token htoken := by
    show token ∈ (localStorage "refresh_token").toList
    exact Option.mem_toList.mpr htoken
  used_issued _ h := nomatch h
  held_issued _ _ h := nomatch h
  held_unused _ _ h := nomatch h
  held_unstored _ _ h := nomatch h
  held_nodup _ := List.nodup_nil
  held_apart _ _ _ h := nomatch h
  holding_used _ _ h := by rcases h with h | h <;> cases h
  used_holding _ h := nomatch h

theorem run_safe (hrun : PageRun acts rounds localStorage h c) : Tokens.Safe (tokens h c) := by
  induction hrun with
  | nil => exact start_safe
  | cons hr hs ih => exact (step_move hr hs).safe ih

/-- What is posted is what `localStorage` holds. -/
theorem stored_of_post (hrun : PageRun acts rounds localStorage h c)
    (hs : Step Op.suspends (fun _ => ApiStep) c i ev c') {body : RefreshBody}
    (hop : ev.op = .post body) : ev.pre.localStorage "refresh_token" = body.refreshToken := by
  cases hs with
  | @mk e k a w' hmay hcall henv =>
      have he : e = .post body := hop
      subst he
      exact stored_of_reading hrun (may_of_call hrun hcall)

/-- Each value is posted to `/api/v1/auth/refresh` at most once. -/
def PostedOnce (h : History ι Page Op.Ans AxiosError) : Prop :=
  ∀ token, (posts h).count token ≤ 1

/-- Whenever a refresh is posted, no refresh that posted the token now in `localStorage`
    is in flight or has failed. -/
def Unshared (h : History ι Page Op.Ans AxiosError) : Prop :=
  ∀ i ev h', (i, ev) :: h' <:+ h → ∀ body, ev.op = .post body →
    ∀ token, ev.pre.localStorage "refresh_token" = some token →
      ∀ j, ¬ (progress h' j).Holding token

theorem unshared_cons : Unshared ((i, ev) :: h) ↔
    (∀ body, ev.op = .post body → ∀ token, ev.pre.localStorage "refresh_token" = some token →
      ∀ j, ¬ (progress h j).Holding token) ∧ Unshared h := by
  constructor
  · intro hall
    exact ⟨hall i ev h List.suffix_rfl, fun i' ev' h' hsuf =>
      hall i' ev' h' (hsuf.trans (List.suffix_cons _ _))⟩
  · rintro ⟨hlast, hall⟩ i' ev' h' hsuf
    rcases List.suffix_cons_iff.mp hsuf with heq | hsuf
    · cases heq
      exact hlast
    · exact hall i' ev' h' hsuf

/-- The interceptor posts each refresh token at most once exactly if it never starts a
    refresh while one that posted the stored token is in flight or has failed. -/
theorem postedOnce_iff (hrun : PageRun acts rounds localStorage h c) :
    PostedOnce h ↔ Unshared h := by
  unfold PostedOnce
  rw [← List.nodup_iff_count_le_one]
  induction hrun with
  | nil => exact iff_of_true List.nodup_nil fun _ _ _ hsuf => nomatch List.suffix_nil.mp hsuf
  | @cons h c c' i ev hr hs ih =>
      rw [unshared_cons, ← ih]
      by_cases hpost : ∃ body, ev.op = .post body
      · obtain ⟨body, hop⟩ := hpost
        have hstored := stored_of_post hr hs hop
        cases htoken : body.refreshToken with
        | none =>
            rw [posts_null hop htoken]
            refine (and_iff_right fun _ _ token hsome => ?_).symm
            rw [hstored, htoken] at hsome
            cases hsome
        | some token =>
            rw [posts_post hop htoken, List.nodup_cons]
            refine and_congr_left fun _ => ?_
            rw [htoken] at hstored
            have hused := (run_safe hr).mem_used_iff (hs.pre_eq ▸ hstored)
            constructor
            · intro hnew _ _ token' hsome j hholding
              rw [hstored] at hsome
              rw [← Option.some.inj hsome] at hholding
              exact hnew (hused.mpr ⟨j, hholding⟩)
            · intro hnone hmem
              obtain ⟨j, hholding⟩ := hused.mp hmem
              exact hnone body hop token hstored j hholding
      · rw [posts_other fun body hop => hpost ⟨body, hop⟩]
        exact (and_iff_right fun body hop => absurd ⟨body, hop⟩ hpost).symm

end

/-- A request whose retry is answered with a 401 too posts two tokens, each once. -/
theorem postedOnce_iff_retried : ∃ h c, PageRun twoCalls (fun _ => 3) expired h c ∧
    posts h = ["r1", "r0"] ∧ Unshared h := by
  obtain ⟨h, c, hrun, hposts⟩ : ∃ h c, PageRun twoCalls (fun _ => 3) expired h c ∧
      posts h = ["r1", "r0"] :=
    Config.exists_run serverAnswers_sound
      (List.replicate 17 0) _ (by decide +kernel)
  refine ⟨h, c, hrun, hposts, (postedOnce_iff hrun).mp ?_⟩
  rw [PostedOnce, ← List.nodup_iff_count_le_one, hposts]
  decide

/-- Two requests get a 401 while `localStorage` holds the same token: both post it. -/
theorem not_always_postedOnce :
    ¬ ∀ (acts : Fin 2 → Action) (rounds : Fin 2 → ℕ) (localStorage : String → Option String)
        (h : History (Fin 2) Page Op.Ans AxiosError)
        (c : Config (Fin 2) Page Op.Ans AxiosError Unit),
      PageRun acts rounds localStorage h c → PostedOnce h := by
  intro hall
  obtain ⟨h, c, hrun, hposts⟩ : ∃ h c, PageRun twoCalls (fun _ => 3) expired h c ∧
      posts h = ["r0", "r0"] :=
    Config.exists_run serverAnswers_sound
      (List.replicate 7 0 ++ List.replicate 7 1) _ (by decide +kernel)
  have honce := hall _ _ _ h c hrun "r0"
  rw [hposts] at honce
  revert honce
  decide

end Mtrader.Frontend
