/-
  Mtrader.Frontend.Auth

  `services/auth.ts`: the page refreshes its access token once for all calls that want it,
  and resumes the requests that have been waiting for it.

  - The page is one event loop.  A call of `performRefresh` runs up to its first request in
    the turn of its caller; what comes after it, with the reactions `then`, `catch` and
    `finally`, is a task of its own, numbered as it is created.  `refreshPromise` holds such a
    number.
  - Other code of the page reads and writes `localStorage` at any time, with what its own
    requests do there.
  - The callbacks in `pendingQueue` are numbers.  One may throw, but none calls a function of
    the module before it returns.
-/

import Mtrader.Coroutine.Tasks
import Mtrader.Frontend.Interceptors
import Mtrader.Frontend.TokenStore

namespace Mtrader.Frontend.Auth

open Coroutine

structure RefreshResponse where
  accessToken : String
  refreshToken : Option String
  deriving DecidableEq

inductive Op
  /-- The page makes the call. -/
  | called
  | getItem (key : String)
  | setItem (key value : String)
  | removeItem (key : String)
  /-- `inMemoryAccessToken = token`. -/
  | setMemory (token : Option String)
  | getPromise
  /-- `refreshPromise = promise`. -/
  | setPromise (promise : Option ℕ)
  /-- Create a promise, for a `performRefresh` that has come to its first request or has
      thrown. -/
  | performRefresh (first : Except JsError RefreshBody)
  /-- Wait for a promise. -/
  | settled (n : ℕ)
  /-- The task of a promise goes on from there. -/
  | begin
  /-- Send the request of a refresh through `api`, and wait for the response. -/
  | send (body : RefreshBody) (authorization : Option String)
  /-- The response interceptor posts to `/api/v1/auth/refresh` itself. -/
  | post (body : RefreshBody)
  /-- Wait for the answer to it. -/
  | response
  | sleep (ms : ℕ)
  /-- Wait for the turn of a reaction. -/
  | microtask
  /-- `pendingQueue.splice(0)`. -/
  | splice
  | push (cb : ℕ)
  /-- Call a callback. -/
  | resume (cb : ℕ) (token : Option String)
  /-- `window.location.pathname + window.location.search`. -/
  | returnTo
  | assign (url : String)
  /-- The promise of the task is settled. -/
  | finish (out : Except JsError String)

namespace Op

@[reducible] def Ans : Op → Type
  | .getItem _ => Option String
  | .getPromise => Option ℕ
  | .performRefresh _ => ℕ
  | .settled _ => String
  | .begin => Except JsError RefreshBody
  | .send _ _ => RefreshResponse
  | .response => TokenPair
  | .splice => List ℕ
  | .returnTo => String
  | _ => Unit

def suspends : Op → Bool
  | .called => true
  | .settled _ => true
  | .begin => true
  | .send _ _ => true
  | .response => true
  | .sleep _ => true
  | .microtask => true
  | _ => false

end Op

-- ============================================================================
-- Session
-- ============================================================================

abbrev Call (α : Type) : Type := Prog Op.Ans JsError α

instance : Browser Op.Ans JsError where
  getItem key := Prog.op (Op.getItem key)
  setItem key value := Prog.op (Op.setItem key value)
  removeItem key := Prog.op (Op.removeItem key)
  post body := Prog.op (Op.post body)
  response := Prog.op Op.response
  status
    | .axios status => status
    | _ => none
  noResponse := .axios none

def setAccessToken (token : Option String) : Call Unit := Prog.op (Op.setMemory token)

def storeRefreshToken (token : String) : Call Unit := do
  let enc ← Prog.ofExcept (encrypt token)
  setItem "refresh_token_enc" enc

def getRefreshToken : Call (Option String) := do
  let enc ← getItem "refresh_token_enc"
  match truthy enc with
  | some enc =>
      let token ← Prog.ofExcept (decrypt enc)
      return some token
  | none => return none

/-- A character that `encodeURIComponent` keeps. -/
def unreserved (b : UInt8) : Bool :=
  (Char.ofNat b.toNat).isAlphanum || Char.ofNat b.toNat ∈ "-_.!~*'()".toList

def hexDigit (d : ℕ) : Char := "0123456789ABCDEF".toList.getD d '0'

def encodeURIComponent (text : String) : String :=
  String.ofList ((Py.Bytes.ofStr text).flatMap fun b =>
    if unreserved b then [Char.ofNat b.toNat]
    else ['%', hexDigit (b.toNat / 16), hexDigit (b.toNat % 16)])

def clearSession (returnTo : Option String) : Call Unit := do
  setAccessToken none
  removeItem "refresh_token_enc"
  removeItem "access_token"
  Prog.op (Op.assign (match truthy returnTo with
    | some returnTo => "/login?returnTo=" ++ encodeURIComponent returnTo
    | none => "/login"))

-- ============================================================================
-- A refresh
-- ============================================================================

def backoff (attempt : ℕ) : Call Unit := Prog.op (Op.sleep (min 2000 (200 * 2 ^ attempt)))

/-- The body of a request. -/
def refreshBody (refreshToken : Option String) : Call RefreshBody := do
  let deviceFingerprint ← getItem "device_fingerprint"
  return { refreshToken, deviceFingerprint := (truthy deviceFingerprint).getD "web-client" }

/-- `performRefresh` up to its first request. -/
def firstRequest : Call RefreshBody := do
  let refreshToken ← getRefreshToken
  match truthy refreshToken with
  | some refreshToken => refreshBody (some refreshToken)
  | none => .raise (.error "no refresh token")

def send (body : RefreshBody) (authorization : Option String) : Call RefreshResponse :=
  Prog.op (Op.send body authorization)

section

variable (rounds : ℕ)

/-- An attempt, from its request on; this gets at most `rounds` responses. -/
def tryRefresh (body : RefreshBody) : Call String := do
  let data ← apiRequest (send body) rounds none
  (match truthy data.refreshToken with
    | some token => storeRefreshToken token
    | none => pure ())
  setAccessToken (some data.accessToken)
  setItem "access_token" data.accessToken
  return data.accessToken

/-- An attempt and the `left` ones after it; the last one throws what it throws. -/
def attempts : ℕ → RefreshBody → Call String
  | 0, body => tryRefresh rounds body
  | left + 1, body => do
      let out ← (tryRefresh rounds body).attempt
      match out with
      | .ok token => return token
      | .error _ =>
          backoff (2 - (left + 1))
          let body ← refreshBody body.refreshToken
          attempts left body

/-- `performRefresh` from its first request on. -/
def performRefresh (first : Except JsError RefreshBody) : Call String := do
  let body ← Prog.ofExcept first
  attempts rounds 2 body

end

/-- `forEach((r) => r(token))`. -/
def resumeAll (token : Option String) : List ℕ → Call Unit
  | [] => pure ()
  | r :: rest => do
      Prog.op (Op.resume r token)
      resumeAll token rest

def resumePending (token : Option String) : Call Unit := do
  let pending ← Prog.op Op.splice
  resumeAll token pending

/-- What `then` does. -/
def onToken (token : String) : Call String := do
  resumePending (some token)
  return token

/-- What `catch` does. -/
def onError (e : JsError) : Call String := do
  resumePending none
  let returnTo ← Prog.op Op.returnTo
  clearSession (some returnTo)
  .raise e

/-- The task of a promise: `performRefresh().then(...).catch(...).finally(...)`. -/
def refreshTask (rounds : ℕ) : Call (Option String) := do
  let first ← Prog.op Op.begin
  let out ← (performRefresh rounds first).attempt
  Prog.op Op.microtask
  let out ← (do
    let token ← Prog.ofExcept out
    onToken token).attempt
  Prog.op Op.microtask
  let out ← (match out with
    | .ok token => pure token
    | .error e => onError e).attempt
  Prog.op Op.microtask
  Prog.op (Op.setPromise none)
  Prog.op Op.microtask
  Prog.op (Op.finish out)
  return none

def refreshAccessToken : Call String := do
  let promise ← Prog.op Op.getPromise
  match promise with
  | some n => Prog.op (Op.settled n)
  | none =>
      let first ← firstRequest.attempt
      let n ← Prog.op (Op.performRefresh first)
      Prog.op (Op.setPromise (some n))
      Prog.op (Op.settled n)

-- ============================================================================
-- The page
-- ============================================================================

/-- What the page does. -/
inductive Action
  | refreshAccessToken
  | enqueuePendingRequest (cb : ℕ)
  | storeRefreshToken (token : String)
  | setAccessToken (token : Option String)
  | clearSession (returnTo : Option String)
  /-- Other code writes `localStorage`. -/
  | setItem (key value : String)
  | removeItem (key : String)

def Action.run (a : Action) : Call (Option String) := do
  Prog.op Op.called
  match a with
  | .refreshAccessToken =>
      let token ← Auth.refreshAccessToken
      return some token
  | .enqueuePendingRequest cb =>
      Prog.op (Op.push cb)
      return none
  | .storeRefreshToken token =>
      Auth.storeRefreshToken token
      return none
  | .setAccessToken token =>
      Auth.setAccessToken token
      return none
  | .clearSession returnTo =>
      Auth.clearSession returnTo
      return none
  | .setItem key value =>
      Frontend.setItem key value
      return none
  | .removeItem key =>
      Frontend.removeItem key
      return none

structure Page where
  localStorage : String → Option String
  inMemoryAccessToken : Option String := none
  refreshPromise : Option ℕ := none
  pendingQueue : List ℕ := []
  /-- The promises that there are, with the first request of each. -/
  promises : List (Except JsError RefreshBody) := []
  /-- How they have been settled. -/
  outcome : ℕ → Option (Except JsError String) := fun _ => none

variable {κ : Type}

/-- What the operations may answer. -/
inductive AuthStep : Actor κ → Env Page Op.Ans JsError
  | called {i : κ} {w : Page} : AuthStep (.client i) w .called (.ok ()) w
  | getItem {i : Actor κ} {w : Page} {key : String} :
      AuthStep i w (.getItem key) (.ok (w.localStorage key)) w
  | setItem {i : Actor κ} {w : Page} {key value : String} :
      AuthStep i w (.setItem key value) (.ok ())
        { w with localStorage := Function.update w.localStorage key (some value) }
  | full {i : Actor κ} {w : Page} {key value : String} :
      AuthStep i w (.setItem key value) (.error .quotaExceeded) w
  | removeItem {i : Actor κ} {w : Page} {key : String} :
      AuthStep i w (.removeItem key) (.ok ())
        { w with localStorage := Function.update w.localStorage key none }
  | setMemory {i : Actor κ} {w : Page} {token : Option String} :
      AuthStep i w (.setMemory token) (.ok ()) { w with inMemoryAccessToken := token }
  | getPromise {i : Actor κ} {w : Page} : AuthStep i w .getPromise (.ok w.refreshPromise) w
  | setPromise {i : Actor κ} {w : Page} {promise : Option ℕ} :
      AuthStep i w (.setPromise promise) (.ok ()) { w with refreshPromise := promise }
  | performRefresh {i : Actor κ} {w : Page} {first : Except JsError RefreshBody} :
      AuthStep i w (.performRefresh first) (.ok w.promises.length)
        { w with promises := w.promises ++ [first] }
  | settled {i : Actor κ} {w : Page} {n : ℕ} {out : Except JsError String}
      (hsettled : w.outcome n = some out) : AuthStep i w (.settled n) out w
  | begin {w : Page} {n : ℕ} {first : Except JsError RefreshBody}
      (hcreated : w.promises[n]? = some first) : AuthStep (.task n) w .begin (.ok first) w
  | answered {i : Actor κ} {w : Page} {body : RefreshBody} {authorization : Option String}
      {data : RefreshResponse} : AuthStep i w (.send body authorization) (.ok data) w
  | failed {i : Actor κ} {w : Page} {body : RefreshBody} {authorization : Option String}
      {status : Option ℕ} : AuthStep i w (.send body authorization) (.error (.axios status)) w
  | post {i : Actor κ} {w : Page} {body : RefreshBody} : AuthStep i w (.post body) (.ok ()) w
  | refreshed {i : Actor κ} {w : Page} {pair : TokenPair} : AuthStep i w .response (.ok pair) w
  | refused {i : Actor κ} {w : Page} {status : Option ℕ} :
      AuthStep i w .response (.error (.axios status)) w
  | sleep {i : Actor κ} {w : Page} {ms : ℕ} : AuthStep i w (.sleep ms) (.ok ()) w
  | microtask {i : Actor κ} {w : Page} : AuthStep i w .microtask (.ok ()) w
  | splice {i : Actor κ} {w : Page} :
      AuthStep i w .splice (.ok w.pendingQueue) { w with pendingQueue := [] }
  | push {i : Actor κ} {w : Page} {cb : ℕ} :
      AuthStep i w (.push cb) (.ok ()) { w with pendingQueue := w.pendingQueue ++ [cb] }
  | resumed {i : Actor κ} {w : Page} {cb : ℕ} {token : Option String} :
      AuthStep i w (.resume cb token) (.ok ()) w
  | threw {i : Actor κ} {w : Page} {cb : ℕ} {token : Option String} :
      AuthStep i w (.resume cb token) (.error .callback) w
  | returnTo {i : Actor κ} {w : Page} {path : String} : AuthStep i w .returnTo (.ok path) w
  | assign {i : Actor κ} {w : Page} {url : String} : AuthStep i w (.assign url) (.ok ()) w
  | finish {w : Page} {n : ℕ} {out : Except JsError String} :
      AuthStep (.task n) w (.finish out) (.ok ())
        { w with outcome := Function.update w.outcome n (some out) }

/-- A page that does `acts`, with nothing refreshed or queued yet.  Each request of a refresh
    gets at most `rounds` responses. -/
def pageStart (acts : κ → Action) (rounds : ℕ) (localStorage : String → Option String) :
    Config (Actor κ) Page Op.Ans JsError (Option String) where
  world := { localStorage }
  pool
    | .client i => (acts i).run
    | .task _ => refreshTask rounds

end Mtrader.Frontend.Auth
