/-
  Mtrader.Frontend.Refreshes

  What the parties of `services/auth.ts` promise: a call of `refreshAccessToken` creates a
  promise only in the turn in which it has found none, and stores it in the same turn; the
  task of a promise sends its request at most three times and once more for each time that the
  response interceptor has refreshed, always with one token, and forgets its promise before
  it is settled.
-/

import Mtrader.Frontend.Auth
import Mtrader.Coroutine.Tally

namespace Mtrader.Frontend.Auth

open Coroutine

-- ============================================================================
-- Calls
-- ============================================================================

/-- Where a call of the page is. -/
inductive Joining
  | outside
  /-- It has found no promise, and may have read the stored token. -/
  | free (read : Option (Option String))
  /-- It has created promise `n`, which is not stored yet. -/
  | created (n : ℕ)
  /-- It waits for promise `n`. -/
  | joined (n : ℕ)
  /-- It has been told how promise `n` has been settled. -/
  | told (n : ℕ) (out : Except JsError String)

/-- It is in the middle of its turn. -/
def Joining.Busy : Joining → Prop
  | .free _ => True
  | .created _ => True
  | _ => False

def Joining.read (g : Joining) (key : String) (value : Option String) : Joining :=
  match g with
  | .free read => .free (if key = "refresh_token_enc" then some value else read)
  | g => g

def Joining.next (g : Joining) : (e : Op) → Except JsError e.Ans → Joining
  | .getItem key, .ok value => g.read key value
  | .getPromise, .ok none => .free none
  | .getPromise, .ok (some n) => .joined n
  | .performRefresh _, .ok n => .created n
  | .performRefresh _, .error _ => .outside
  | .setPromise (some n), _ => .joined n
  | .settled n, out => .told n out
  | _, _ => g

/-- The token of the first request is the one that has been read. -/
def FirstOf (read : Option (Option String)) (first : Except JsError RefreshBody) : Prop :=
  ∀ body, first = .ok body → ∃ enc token, read = some (some enc) ∧ decrypt enc = .ok token ∧
    body.refreshToken = some token

def Joining.may (g : Joining) : Op → Prop
  | .called => g = .outside
  | .getItem _ => g = .outside ∨ ∃ read, g = .free read
  | .getPromise => g = .outside
  | .performRefresh first => ∃ read, g = .free read ∧ FirstOf read first
  | .setPromise promise => ∃ n, g = .created n ∧ promise = some n
  | .settled n => g = .joined n
  | .setItem _ _ => g = .outside
  | .removeItem _ => g = .outside
  | .setMemory _ => g = .outside
  | .push _ => g = .outside
  | .assign _ => g = .outside
  | _ => False

def callProtocol : Discipline Op.Ans JsError Joining where
  may := Joining.may
  next := Joining.next

/-- How a call ends: a token that it returns is one it has been told. -/
structure CallEnd {α : Type} (token : α → Option String) (out : Except JsError α) (g : Joining) :
    Prop where
  calm : ¬ g.Busy
  told : ∀ a t, out = .ok a → token a = some t → ∃ n, g = .told n (.ok t)

theorem callEnd_error {α : Type} {token : α → Option String} {x : JsError} {g : Joining}
    (hcalm : ¬ g.Busy) : CallEnd token (.error x) g := ⟨hcalm, fun a t ha => by cases ha⟩

/-- A program of operations that any call may perform. -/
abbrev Plain {α : Type} (p : Call α) : Prop :=
  p.Obeys callProtocol (fun _ g => g = .outside) .outside

theorem plain_op {e : Op} (hmay : Joining.may .outside e)
    (hnext : ∀ a, Joining.next .outside e a = .outside) : Plain (Prog.op e : Call e.Ans) :=
  Prog.obeys_op.mpr ⟨hmay, hnext⟩

theorem Plain.bind {α β : Type} {p : Call α} {f : α → Call β} (hp : Plain p)
    (hf : ∀ a, Plain (f a)) : Plain (p >>= f) := by
  refine Prog.Obeys.seq hp (fun a g h => ?_) fun _ _ h => h
  rw [h]
  exact hf a

theorem setItem_plain (key value : String) : Plain (setItem key value) :=
  plain_op rfl fun _ => rfl

theorem storeRefreshToken_plain (token : String) : Plain (storeRefreshToken token) := by
  unfold storeRefreshToken
  refine Prog.obeys_ofExcept_bind.mpr ⟨fun enc _ => ?_, fun x _ => rfl⟩
  exact setItem_plain _ _

theorem clearSession_plain (returnTo : Option String) : Plain (clearSession returnTo) := by
  have hmemory : Plain (setAccessToken none) := plain_op rfl fun _ => rfl
  have hremove : ∀ key, Plain (removeItem key) := fun key => plain_op rfl fun _ => rfl
  have hassign : ∀ url, Plain (Prog.op (Op.assign url)) := fun url => plain_op rfl fun _ => rfl
  exact hmemory.bind fun _ => (hremove _).bind fun _ => (hremove _).bind fun _ => hassign _

theorem truthy_eq_some {s : Option String} {t : String} (h : truthy s = some t) : s = some t :=
  (Option.filter_eq_some_iff.mp h).1

/-- What a call does between finding no promise and creating one. -/
theorem firstRequest_obeys :
    firstRequest.Obeys callProtocol
      (fun first g => ∃ read, g = .free read ∧ FirstOf read first) (.free none) := by
  have hnone : ∀ {x : JsError} {read : Option (Option String)},
      ∃ read', Joining.free read = .free read' ∧ FirstOf read' (.error x) :=
    fun {x read} => ⟨read, rfl, fun body hbody => by cases hbody⟩
  have hbody : ∀ {enc token : String}, decrypt enc = .ok token →
      (refreshBody (some token)).Obeys callProtocol
        (fun first g => ∃ read, g = .free read ∧ FirstOf read first) (.free (some (some enc))) := by
    intro enc token hdecrypt
    unfold refreshBody
    refine Prog.obeys_op_bind.mpr ⟨.inr ⟨_, rfl⟩, fun device => ?_, fun x => hnone⟩
    refine ⟨some (some enc), rfl, fun body hbody => ?_⟩
    cases hbody
    exact ⟨enc, token, rfl, hdecrypt, rfl⟩
  unfold firstRequest getRefreshToken
  refine Prog.Obeys.seq (P := fun out g => ∃ read, g = .free read ∧ ∀ token,
    out = .ok (some token) → ∃ enc, read = some (some enc) ∧ decrypt enc = .ok token)
    ?_ ?_ ?_
  · refine Prog.obeys_op_bind.mpr ⟨.inr ⟨_, rfl⟩, fun value => ?_, fun x => ?_⟩
    · show Prog.Obeys _ _ _ (Joining.free (some value))
      cases henc : truthy value with
      | none => exact ⟨some value, rfl, fun token htoken => by cases htoken⟩
      | some enc =>
          refine Prog.obeys_ofExcept_bind.mpr ⟨fun token hdecrypt => ?_, fun x _ => ?_⟩
          · refine ⟨some value, rfl, fun token' htoken => ?_⟩
            cases htoken
            exact ⟨enc, congrArg some (truthy_eq_some henc), hdecrypt⟩
          · exact ⟨some value, rfl, fun token htoken => by cases htoken⟩
    · exact ⟨none, rfl, fun token htoken => by cases htoken⟩
  · rintro token g ⟨read, rfl, htoken⟩
    cases hnonempty : truthy token with
    | none => exact hnone
    | some t =>
        obtain ⟨enc, rfl, hdecrypt⟩ := htoken t (congrArg Except.ok (truthy_eq_some hnonempty))
        exact hbody hdecrypt
  · rintro x g ⟨read, rfl, -⟩
    exact hnone

theorem refreshAccessToken_obeys :
    refreshAccessToken.Obeys callProtocol (CallEnd some) .outside := by
  have hsettled : ∀ n, (Prog.op (Op.settled n) : Call String).Obeys callProtocol (CallEnd some)
      (.joined n) := by
    refine fun n => Prog.obeys_op.mpr ⟨rfl, fun out => ⟨id, fun a t ha ht => ⟨n, ?_⟩⟩⟩
    subst ha
    cases ht
    rfl
  unfold refreshAccessToken
  refine Prog.obeys_op_bind.mpr ⟨rfl, fun promise => ?_, fun x => callEnd_error id⟩
  cases promise with
  | some n => exact hsettled n
  | none =>
      refine Prog.obeys_bind.mpr (Prog.obeys_attempt.mpr (firstRequest_obeys.mono ?_))
      rintro first g ⟨read, rfl, hfirst⟩
      refine Prog.obeys_op_bind.mpr ⟨⟨read, rfl, hfirst⟩, fun n => ?_, fun x => callEnd_error id⟩
      refine Prog.obeys_op_bind.mpr ⟨⟨n, rfl, rfl⟩, fun _ => hsettled n, fun x => callEnd_error id⟩

theorem action_obeys (a : Action) : a.run.Obeys callProtocol (CallEnd id) .outside := by
  have hplain : ∀ {p : Call Unit}, Plain p → (do
      p
      return none : Call (Option String)).Obeys callProtocol (CallEnd id) .outside := by
    intro p hp
    refine Prog.Obeys.seq hp (fun _ g h => ?_) fun x g h => ?_
    · subst h
      refine ⟨id, fun a t ha ht => ?_⟩
      cases ha
      cases ht
    · subst h
      exact callEnd_error id
  unfold Action.run
  refine Prog.obeys_op_bind.mpr ⟨rfl, fun _ => ?_, fun x => callEnd_error id⟩
  cases a with
  | refreshAccessToken =>
      refine refreshAccessToken_obeys.seq (fun token g h => ?_) fun x g h => callEnd_error h.calm
      refine ⟨h.calm, fun a t ha ht => ?_⟩
      cases ha
      exact h.told token t rfl ht
  | enqueuePendingRequest cb => exact hplain (plain_op rfl fun _ => rfl)
  | storeRefreshToken token => exact hplain (storeRefreshToken_plain token)
  | setAccessToken token => exact hplain (plain_op rfl fun _ => rfl)
  | clearSession returnTo => exact hplain (clearSession_plain returnTo)
  | setItem key value => exact hplain (setItem_plain key value)
  | removeItem key => exact hplain (plain_op rfl fun _ => rfl)

-- ============================================================================
-- Tasks
-- ============================================================================

/-- Where the response interceptor of the task is. -/
inductive Interceptor
  | idle
  /-- The request has been answered with 401. -/
  | refused
  /-- It has found a refresh token; this is what it has read last. -/
  | reading (token : Option String)
  | posted

/-- It is about to post what it has read. -/
def Interceptor.Reading (s : Interceptor) : Prop := ∃ token, s = .reading token

def Interceptor.read (s : Interceptor) (key : String) (value : Option String) : Interceptor :=
  if key = "refresh_token" then
    match s with
    | .refused => if (truthy value).isSome then .reading value else .idle
    | .reading _ => .reading value
    | s => s
  else s

/-- After a response to the request. -/
def Interceptor.answered : Except JsError RefreshResponse → Interceptor
  | .error (.axios (some 401)) => .refused
  | _ => .idle

/-- What the task of a promise has done. -/
structure Progress where
  /-- Where `performRefresh` has come to when the task began. -/
  first : Option (Except JsError RefreshBody) := none
  sends : ℕ := 0
  /-- How often the response interceptor has got new tokens. -/
  refreshes : ℕ := 0
  interceptor : Interceptor := .idle
  /-- The last response, if it was one of success. -/
  answer : Option RefreshResponse := none
  /-- The callbacks it has taken and is still to call. -/
  pending : List ℕ := []
  /-- How often it has set `refreshPromise` to null. -/
  clears : ℕ := 0
  outcome : Option (Except JsError String) := none

def Progress.next (p : Progress) : (e : Op) → Except JsError e.Ans → Progress
  | .begin, .ok first => { p with first := some first }
  | .getItem key, .ok value => { p with interceptor := p.interceptor.read key value }
  | .getItem _, .error _ => { p with interceptor := .idle }
  | .send _ _, out =>
      { p with
        sends := p.sends + 1
        interceptor := .answered out
        answer := out.toOption }
  | .post _, .ok _ => { p with interceptor := .posted }
  | .post _, .error _ => { p with interceptor := .idle }
  | .response, .ok _ => { p with refreshes := p.refreshes + 1, interceptor := .idle }
  | .response, .error _ => { p with interceptor := .idle }
  | .splice, .ok pending => { p with pending }
  | .resume _ _, .ok _ => { p with pending := p.pending.tail }
  | .resume _ _, .error _ => { p with pending := [] }
  | .setPromise _, _ => { p with clears := p.clears + 1 }
  | .finish out, _ => { p with outcome := some out }
  | _, _ => p

/-- The refresh is under way, and no callback is being called. -/
structure Progress.Working (p : Progress) : Prop where
  first : p.first.isSome
  pending : p.pending = []
  clears : p.clears = 0

/-- Nor is the response interceptor at work. -/
structure Progress.Open (p : Progress) : Prop extends p.Working where
  interceptor : p.interceptor = .idle

/-- The last response has this access token. -/
def Progress.Answered (p : Progress) (token : String) : Prop :=
  ∃ data, p.answer = some data ∧ data.accessToken = token

def Progress.may (p : Progress) : Op → Prop
  | .begin => p = {}
  | .getItem _ => p.Working
  | .send body _ => p.Open ∧ p.sends < 3 + p.refreshes ∧
      ∃ first, p.first = some (.ok first) ∧ body.refreshToken = first.refreshToken
  | .post body => p.Working ∧ p.interceptor = .reading body.refreshToken
  | .response => p.Working ∧ p.interceptor = .posted
  | .microtask => p.first.isSome ∧ p.pending = [] ∧ p.interceptor = .idle
  | .resume cb token => p.first.isSome ∧ p.clears = 0 ∧ p.interceptor = .idle ∧
      p.pending.head? = some cb ∧ ∀ t, token = some t → p.Answered t
  | .setPromise promise => p.Open ∧ promise = none
  | .finish out => p.first.isSome ∧ p.pending = [] ∧ p.interceptor = .idle ∧ p.clears = 1 ∧
      ∀ t, out = .ok t → p.Answered t
  | .setItem _ _ => p.Open
  | .removeItem _ => p.Open
  | .setMemory _ => p.Open
  | .sleep _ => p.Open
  | .splice => p.Open
  | .returnTo => p.Open
  | .assign _ => p.Open
  | _ => False

def refreshProtocol : Discipline Op.Ans JsError Progress where
  may := Progress.may
  next := Progress.next

/-- How a task ends. -/
structure TaskEnd {α : Type} (_ : Except JsError α) (p : Progress) : Prop where
  pending : p.pending = []
  interceptor : p.interceptor = .idle

/-- The task has come to an outcome that callers can be told. -/
structure Reached (out : Except JsError String) (p : Progress) : Prop where
  started : p.Open
  answered : ∀ t, out = .ok t → p.Answered t

/-- It has made `n` attempts, and sends the token of the first one. -/
structure Trying (body : RefreshBody) (n : ℕ) (p : Progress) : Prop where
  started : p.Open
  first : p.first = some (.ok body)
  sends : p.sends ≤ n + p.refreshes

/-- An attempt has ended. -/
structure Tried (body : RefreshBody) (n : ℕ) (out : Except JsError RefreshResponse)
    (p : Progress) : Prop where
  trying : Trying body n p
  answered : ∀ data, out = .ok data → p.answer = some data

theorem Progress.Open.reached {p : Progress} (h : p.Open) {x : JsError} : Reached (.error x) p :=
  ⟨h, fun t ht => by cases ht⟩

theorem Trying.failed {body : RefreshBody} {n : ℕ} {p : Progress} (h : Trying body n p)
    {x : JsError} : Tried body n (.error x) p := ⟨h, fun data hdata => by cases hdata⟩

/-- Programs of operations that leave the progress as it is. -/
abbrev Quiet {α : Type} (p : Progress) (q : Call α) : Prop :=
  q.Obeys refreshProtocol (fun _ p' => p' = p) p

theorem Quiet.bind {α β : Type} {p : Progress} {q : Call α} {f : α → Call β} (hq : Quiet p q)
    (hf : ∀ a, Quiet p (f a)) : Quiet p (q >>= f) := by
  refine Prog.Obeys.seq hq (fun a p' h => ?_) fun _ _ h => h
  rw [h]
  exact hf a

theorem quiet_op {p : Progress} {e : Op} (hmay : p.may e) (hnext : ∀ a, p.next e a = p) :
    Quiet p (Prog.op e : Call e.Ans) := Prog.obeys_op.mpr ⟨hmay, hnext⟩

/-- What an operation leaves as it is. -/
structure Kept (p : Progress) (e : Op) (p' : Progress) : Prop where
  first : e ≠ .begin → p'.first = p.first
  sends : (∀ body authorization, e ≠ .send body authorization) → p'.sends = p.sends
  answer : (∀ body authorization, e ≠ .send body authorization) → p'.answer = p.answer
  refreshes : e ≠ .response → p'.refreshes = p.refreshes
  pending : e ≠ .splice → (∀ cb token, e ≠ .resume cb token) → p'.pending = p.pending
  clears : (∀ promise, e ≠ .setPromise promise) → p'.clears = p.clears
  interceptor : (∀ key, e ≠ .getItem key) → (∀ body authorization, e ≠ .send body authorization) →
    (∀ body, e ≠ .post body) → e ≠ .response → p'.interceptor = p.interceptor

theorem next_keeps (p : Progress) (e : Op) (a : Except JsError e.Ans) :
    Kept p e (p.next e a) := by
  unfold Progress.next
  split <;> constructor <;> simp

-- ============================================================================
-- Reading
-- ============================================================================

theorem answered_eq_refused {out : Except JsError RefreshResponse}
    (h : Interceptor.answered out = .refused) : out = .error (.axios (some 401)) := by
  unfold Interceptor.answered at h
  split at h
  next => rfl
  next => cases h

theorem read_other {s : Interceptor} {key : String} {value : Option String}
    (hkey : key ≠ "refresh_token") : s.read key value = s := if_neg hkey

theorem read_idle {key : String} {value : Option String} :
    Interceptor.idle.read key value = .idle := by
  unfold Interceptor.read
  split <;> rfl

theorem read_refused {value : Option String} : Interceptor.refused.read "refresh_token" value =
    if (truthy value).isSome then .reading value else .idle := if_pos rfl

theorem read_reading {token value : Option String} :
    (Interceptor.reading token).read "refresh_token" value = .reading value := if_pos rfl

/-- Where the interceptor is idle, reading `localStorage` changes nothing. -/
theorem next_getItem {p : Progress} (hidle : p.interceptor = .idle) {key : String}
    (out : Except JsError (Option String)) : p.next (.getItem key) out = p := by
  cases out with
  | ok value =>
      show { p with interceptor := p.interceptor.read key value } = p
      rw [hidle, read_idle, ← hidle]
  | error x =>
      show { p with interceptor := .idle } = p
      rw [← hidle]

theorem getItem_quiet {p : Progress} (hp : p.Open) (key : String) :
    Quiet p (getItem key : Call (Option String)) :=
  quiet_op hp.toWorking fun out => next_getItem hp.interceptor out

theorem refreshBody_obeys {p : Progress} (hp : p.Open) (token : Option String) :
    (refreshBody token).Obeys refreshProtocol
      (fun out p' => p' = p ∧ ∀ body, out = .ok body → body.refreshToken = token) p := by
  unfold refreshBody
  refine (getItem_quiet hp _).seq (fun device p' h => ⟨h, fun body hbody => ?_⟩) fun x p' h => ?_
  · cases hbody
    rfl
  · exact ⟨h, fun body hbody => by cases hbody⟩

theorem setItem_quiet {p : Progress} (hp : p.Open) (key value : String) :
    Quiet p (setItem key value : Call Unit) := quiet_op hp fun _ => rfl

theorem storeRefreshToken_quiet {p : Progress} (hp : p.Open) (token : String) :
    Quiet p (storeRefreshToken token) := by
  unfold storeRefreshToken
  exact Prog.obeys_ofExcept_bind.mpr ⟨fun enc _ => setItem_quiet hp _ _, fun x _ => rfl⟩

theorem clearSession_quiet {p : Progress} (hp : p.Open) (returnTo : Option String) :
    Quiet p (clearSession returnTo) := by
  have hmemory : Quiet p (setAccessToken none) := quiet_op hp fun _ => rfl
  have hremove : ∀ key, Quiet p (removeItem key : Call Unit) := fun key => quiet_op hp fun _ => rfl
  have hassign : ∀ url, Quiet p (Prog.op (Op.assign url)) := fun url => quiet_op hp fun _ => rfl
  exact hmemory.bind fun _ => (hremove _).bind fun _ => (hremove _).bind fun _ => hassign _

-- ============================================================================
-- An attempt
-- ============================================================================

section

variable {first body : RefreshBody} {n : ℕ} {p : Progress}

theorem Progress.Working.leave (h : p.Working) (s : Interceptor) :
    Progress.Working { p with interceptor := s } := ⟨h.first, h.pending, h.clears⟩

theorem Trying.succ (h : Trying first n p) : Trying first (n + 1) p :=
  ⟨h.started, h.first, h.sends.trans (by omega)⟩

/-- The interceptor stores the new tokens, and the task sends its request again. -/
theorem storePair_obeys {pair : TokenPair} {request : String → Call RefreshResponse}
    (hp : Trying first n p)
    (hrequest : ∀ header, (request header).Obeys refreshProtocol (Tried first (n + 1)) p) :
    (do
      setItem "access_token" pair.accessToken
      setItem "refresh_token" pair.refreshToken
      request ("Bearer " ++ pair.accessToken) : Call RefreshResponse).Obeys refreshProtocol
        (Tried first (n + 1)) p := by
  refine (setItem_quiet hp.started _ _).seq (fun _ p' h => ?_) fun x p' h => ?_
  · subst h
    refine (setItem_quiet hp.started _ _).seq (fun _ p'' h => ?_) fun x p'' h => ?_
    · rw [h]
      exact hrequest _
    · rw [h]
      exact hp.succ.failed
  · rw [h]
    exact hp.succ.failed

/-- The interceptor's own request: with new tokens the task may send its request again. -/
theorem responseInterceptor_obeys {err : JsError} {request : String → Call RefreshResponse}
    (hworking : p.Working) (hfirst : p.first = some (.ok first))
    (hsends : p.sends ≤ n + 1 + p.refreshes)
    (hinterceptor : p.interceptor = .answered (.error err))
    (hrequest : ∀ header p', Trying first n p' →
      (request header).Obeys refreshProtocol (Tried first (n + 1)) p') :
    (responseInterceptor err request).Obeys refreshProtocol (Tried first (n + 1)) p := by
  have hidle : Trying first (n + 1) { p with interceptor := .idle } :=
    ⟨⟨hworking.leave .idle, rfl⟩, hfirst, hsends⟩
  unfold responseInterceptor
  split
  next hstatus =>
    have hrefused : p.interceptor = .refused := by
      rw [hinterceptor]
      cases err with
      | axios status =>
          cases (hstatus : status = some 401)
          rfl
      | _ => cases hstatus
    refine Prog.obeys_op_bind.mpr ⟨hworking, fun stored => ?_, fun x => hidle.failed⟩
    show Prog.Obeys _ _ _ { p with interceptor := p.interceptor.read "refresh_token" stored }
    rw [hrefused, read_refused]
    split
    next =>
      refine Prog.obeys_op_bind.mpr ⟨hworking.leave _, fun token => ?_, fun x => hidle.failed⟩
      show Prog.Obeys _ _ _ { p with
        interceptor := (Interceptor.reading stored).read "refresh_token" token }
      rw [read_reading]
      refine Prog.obeys_op_bind.mpr ⟨hworking.leave _, fun device => ?_, fun x => hidle.failed⟩
      show Prog.Obeys _ _ _ { p with
        interceptor := (Interceptor.reading token).read "device_fingerprint" device }
      rw [read_other (by decide)]
      refine Prog.obeys_op_bind.mpr ⟨⟨hworking.leave _, rfl⟩, fun _ => ?_, fun x => hidle.failed⟩
      refine Prog.obeys_op_bind.mpr ⟨⟨hworking.leave _, rfl⟩, fun pair => ?_,
        fun x => hidle.failed⟩
      -- One more response to the interceptor, and the request may be sent once more.
      have hagain : Trying first n
          { p with refreshes := p.refreshes + 1, interceptor := .idle } := by
        refine ⟨⟨⟨hworking.first, hworking.pending, hworking.clears⟩, rfl⟩, hfirst, ?_⟩
        show p.sends ≤ n + (p.refreshes + 1)
        omega
      exact storePair_obeys hagain fun header => hrequest header _ hagain
    next => exact hidle.failed
  next hstatus =>
    have hdone : p.interceptor = .idle := by
      rw [hinterceptor]
      unfold Interceptor.answered
      split
      next heq =>
        cases heq
        exact absurd rfl hstatus
      next => rfl
    exact Trying.failed ⟨⟨hworking, hdone⟩, hfirst, hsends⟩

/-- An attempt sends its request once, and once more whenever the interceptor has refreshed. -/
theorem apiRequest_obeys (rounds : ℕ) (authorization : Option String) (hp : Trying first n p)
    (hn : n < 3) (hbody : body.refreshToken = first.refreshToken) :
    (apiRequest (send body) rounds authorization).Obeys refreshProtocol (Tried first (n + 1))
      p := by
  induction rounds generalizing authorization p with
  | zero => exact hp.succ.failed
  | succ rounds ih =>
      refine Prog.Obeys.seq (P := fun _ p' => p' = p) ?_ (fun header p' h => ?_) fun x p' h => ?_
      · exact (getItem_quiet hp.started _).seq (fun _ _ h => h) fun _ _ h => h
      · rw [h]
        have hsends := hp.sends
        refine Prog.obeys_bind.mpr (Prog.obeys_attempt.mpr (Prog.obeys_op.mpr
          ⟨⟨hp.started, by omega, first, hp.first, hbody⟩, fun out => ?_⟩))
        cases out with
        | ok data =>
            refine ⟨⟨⟨⟨hp.started.first, hp.started.pending, hp.started.clears⟩, rfl⟩, hp.first,
              ?_⟩, fun data' hdata => ?_⟩
            · show p.sends + 1 ≤ n + 1 + p.refreshes
              omega
            · cases hdata
              rfl
        | error err =>
            have hworking : (p.next (.send body header) (.error err)).Working :=
              ⟨hp.started.first, hp.started.pending, hp.started.clears⟩
            refine responseInterceptor_obeys hworking hp.first ?_ rfl fun header' p' hp' => ih _ hp'
            show p.sends + 1 ≤ n + 1 + p.refreshes
            omega
      · rw [h]
        exact hp.succ.failed

theorem tryRefresh_obeys (rounds : ℕ) (hp : Trying first n p) (hn : n < 3)
    (hbody : body.refreshToken = first.refreshToken) :
    (tryRefresh rounds body).Obeys refreshProtocol
      (fun out p' => Trying first (n + 1) p' ∧ Reached out p') p := by
  unfold tryRefresh
  refine (apiRequest_obeys rounds none hp hn hbody).seq (fun data p' h => ?_) fun x p' h => ?_
  swap
  · exact ⟨h.trying, h.trying.started.reached⟩
  have htrying := h.trying
  have hanswered : p'.Answered data.accessToken := ⟨data, h.answered data rfl, rfl⟩
  have herror : ∀ x, Trying first (n + 1) p' ∧ Reached (.error x) p' :=
    fun x => ⟨htrying, htrying.started.reached⟩
  refine Prog.Obeys.seq (?_ : Quiet p' _) (fun _ p'' h => ?_) fun x p'' h => ?_
  · split
    next token _ => exact storeRefreshToken_quiet htrying.started token
    next => exact rfl
  swap
  · rw [h]
    exact herror x
  subst h
  refine Prog.obeys_op_bind.mpr ⟨htrying.started, fun _ => ?_, herror⟩
  refine Prog.obeys_op_bind.mpr ⟨htrying.started, fun _ => ⟨htrying, htrying.started, ?_⟩, herror⟩
  intro t ht
  cases ht
  exact hanswered

theorem attempts_obeys (rounds left : ℕ) (hleft : n + left < 3) (hp : Trying first n p)
    (hbody : body.refreshToken = first.refreshToken) :
    (attempts rounds left body).Obeys refreshProtocol Reached p := by
  induction left generalizing n p body with
  | zero => exact (tryRefresh_obeys rounds hp hleft hbody).mono fun _ _ h => h.2
  | succ left ih =>
      have hn : n < 3 := by omega
      unfold attempts
      refine Prog.obeys_bind.mpr (Prog.obeys_attempt.mpr
        ((tryRefresh_obeys rounds hp hn hbody).mono ?_))
      rintro out p' ⟨htrying, hreached⟩
      cases out with
      | ok token => exact hreached
      | error x =>
          refine Prog.obeys_op_bind.mpr ⟨htrying.started, fun _ => ?_, fun x => ?_⟩
          swap
          · exact htrying.started.reached
          refine (refreshBody_obeys htrying.started _).seq (fun body' p'' h => ?_) fun x p'' h => ?_
          · obtain ⟨rfl, hbody'⟩ := h
            exact ih (by omega) htrying ((hbody' body' rfl).trans hbody)
          · rw [h.1]
            exact htrying.started.reached

end

theorem performRefresh_obeys (rounds : ℕ) {p : Progress} {first : Except JsError RefreshBody}
    (hp : p.Open) (hfirst : p.first = some first) (hsends : p.sends = 0) :
    (performRefresh rounds first).Obeys refreshProtocol Reached p := by
  unfold performRefresh
  refine Prog.obeys_ofExcept_bind.mpr ⟨fun body hbody => ?_, fun x _ => hp.reached⟩
  subst hbody
  have htrying : Trying body 0 p := ⟨hp, hfirst, by omega⟩
  exact attempts_obeys rounds 2 (by omega) htrying rfl

/-- Callbacks are called in their order until one throws. -/
theorem resumeAll_obeys {token : Option String} {pending : List ℕ} {p : Progress}
    (hfirst : p.first.isSome) (hclears : p.clears = 0) (hidle : p.interceptor = .idle)
    (hpending : p.pending = pending) (htoken : ∀ t, token = some t → p.Answered t) :
    (resumeAll token pending).Obeys refreshProtocol
      (fun _ p' => p'.Open ∧ p'.answer = p.answer) p := by
  induction pending generalizing p with
  | nil => exact ⟨⟨⟨hfirst, hpending, hclears⟩, hidle⟩, rfl⟩
  | cons r rest ih =>
      have hhead : p.pending.head? = some r := by rw [hpending, List.head?_cons]
      refine Prog.obeys_op_bind.mpr ⟨⟨hfirst, hclears, hidle, hhead, htoken⟩, fun _ => ?_,
        fun x => ?_⟩
      · have htail : p.pending.tail = rest := by rw [hpending, List.tail_cons]
        exact ih (p := { p with pending := p.pending.tail }) hfirst hclears hidle htail htoken
      · exact ⟨⟨⟨hfirst, rfl, hclears⟩, hidle⟩, rfl⟩

theorem resumePending_obeys {token : Option String} {p : Progress} (hp : p.Open)
    (htoken : ∀ t, token = some t → p.Answered t) :
    (resumePending token).Obeys refreshProtocol
      (fun _ p' => p'.Open ∧ p'.answer = p.answer) p := by
  unfold resumePending
  refine Prog.obeys_op_bind.mpr ⟨hp, fun pending => ?_, fun x => ⟨hp, rfl⟩⟩
  exact resumeAll_obeys (p := { p with pending }) hp.first hp.clears hp.interceptor rfl htoken

theorem onToken_obeys {token : String} {p : Progress} (hp : Reached (.ok token) p) :
    (onToken token).Obeys refreshProtocol Reached p := by
  unfold onToken
  refine (resumePending_obeys hp.started ?_).seq (fun _ p' h => ?_) fun x p' h => h.1.reached
  · intro t ht
    cases ht
    exact hp.answered token rfl
  · refine ⟨h.1, fun t ht => ?_⟩
    cases ht
    obtain ⟨data, hdata, htoken⟩ := hp.answered token rfl
    exact ⟨data, h.2.trans hdata, htoken⟩

theorem onError_obeys {x : JsError} {p : Progress} (hp : p.Open) :
    (onError x).Obeys refreshProtocol Reached p := by
  unfold onError
  refine (resumePending_obeys hp fun t ht => by cases ht).seq (fun _ p' h => ?_) fun x p' h => ?_
  · refine Prog.obeys_op_bind.mpr ⟨h.1, fun path => ?_, fun x => h.1.reached⟩
    refine (clearSession_quiet h.1 (some path)).seq (fun _ p'' h' => ?_) fun x p'' h' => ?_
    · rw [h']
      exact h.1.reached
    · rw [h']
      exact h.1.reached
  · exact h.1.reached

theorem refreshTask_obeys (rounds : ℕ) :
    (refreshTask rounds).Obeys refreshProtocol TaskEnd {} := by
  -- A wait between two reactions changes nothing.
  have hwait : ∀ {p : Progress} {f : Unit → Call (Option String)}, p.first.isSome →
      p.pending = [] → p.interceptor = .idle → (f ()).Obeys refreshProtocol TaskEnd p →
      (Prog.op Op.microtask >>= f).Obeys refreshProtocol TaskEnd p :=
    fun hfirst hpending hidle hf =>
      Prog.obeys_op_bind.mpr ⟨⟨hfirst, hpending, hidle⟩, fun _ => hf, fun _ => ⟨hpending, hidle⟩⟩
  unfold refreshTask
  refine Prog.obeys_op_bind.mpr ⟨rfl, fun first => ?_, fun x => ⟨rfl, rfl⟩⟩
  have hbegun : Progress.Open { first := some first } := ⟨⟨rfl, rfl, rfl⟩, rfl⟩
  have hperform := performRefresh_obeys rounds hbegun rfl rfl
  refine Prog.obeys_bind.mpr (Prog.obeys_attempt.mpr (hperform.mono ?_))
  intro out p hp
  refine hwait hp.started.first hp.started.pending hp.started.interceptor ?_
  refine Prog.obeys_bind.mpr (Prog.obeys_attempt.mpr (Prog.Obeys.mono (Q := Reached) ?_ ?_))
  · refine Prog.obeys_ofExcept_bind.mpr ⟨fun token htoken => ?_, fun x _ => hp.started.reached⟩
    exact onToken_obeys (htoken ▸ hp)
  intro out p hp
  refine hwait hp.started.first hp.started.pending hp.started.interceptor ?_
  refine Prog.obeys_bind.mpr (Prog.obeys_attempt.mpr (Prog.Obeys.mono (Q := Reached) ?_ ?_))
  · cases out with
    | ok token => exact hp
    | error x => exact onError_obeys hp.started
  intro out p hp
  have hopen := hp.started
  refine hwait hopen.first hopen.pending hopen.interceptor ?_
  have hcleared : p.clears + 1 = 1 := by rw [hopen.clears]
  refine Prog.obeys_op_bind.mpr ⟨⟨hopen, rfl⟩, fun _ => ?_, fun x =>
    ⟨hopen.pending, hopen.interceptor⟩⟩
  refine hwait hopen.first hopen.pending hopen.interceptor ?_
  refine Prog.obeys_op_bind.mpr ⟨?_, fun _ => ⟨hopen.pending, hopen.interceptor⟩, fun x =>
    ⟨hopen.pending, hopen.interceptor⟩⟩
  exact ⟨hopen.first, hopen.pending, hopen.interceptor, hcleared, hp.answered⟩

end Mtrader.Frontend.Auth
