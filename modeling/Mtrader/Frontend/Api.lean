/-
  Mtrader.Frontend.Api

  The requests of `services/api.ts`, and what `AuthContext.tsx` and `GlobalErrorBoundary.tsx`
  do with the tokens in `localStorage`.

  The page is one event loop: a call runs until it waits for an answer.
-/

import Mtrader.Coroutine.Tasks
import Mtrader.Frontend.Interceptors

namespace Mtrader.Frontend

open Coroutine

/-- A request through the `api` instance. -/
inductive Request
  | login (email password deviceFingerprint : String)
  | register (email password : String)
  | verify2FA (code : String)
  | other (method url : String)
  deriving DecidableEq

/-- `data` of the response. -/
@[reducible] def Request.Data : Request → Type
  | .login _ _ _ => TokenPair
  | _ => Unit

/-- The refresh tokens in a response. -/
def Request.tokens : (r : Request) → r.Data → List String
  | .login _ _ _, pair => [pair.refreshToken]
  | .register _ _, _ => []
  | .verify2FA _, _ => []
  | .other _ _, _ => []

/-- `err.response?.status`; without a response there is none. -/
structure AxiosError where
  status : Option ℕ
  deriving DecidableEq

inductive Op
  /-- The page makes the call. -/
  | called
  | getItem (key : String)
  | setItem (key value : String)
  | removeItem (key : String)
  | clear
  | randomUUID
  /-- Send a request of `api` and wait for the response. -/
  | send (r : Request) (authorization : Option String)
  /-- Post to `/api/v1/auth/refresh`. -/
  | post (body : RefreshBody)
  /-- Wait for the answer to it. -/
  | response
  deriving DecidableEq

namespace Op

@[reducible] def Ans : Op → Type
  | .called => Unit
  | .getItem _ => Option String
  | .setItem _ _ => Unit
  | .removeItem _ => Unit
  | .clear => Unit
  | .randomUUID => String
  | .send r _ => r.Data
  | .post _ => Unit
  | .response => TokenPair

def suspends : Op → Bool
  | .called => true
  | .send _ _ => true
  | .response => true
  | _ => false

end Op

abbrev Call (α : Type) : Type := Prog Op.Ans AxiosError α

instance : Browser Op.Ans AxiosError where
  getItem key := Prog.op (Op.getItem key)
  setItem key value := Prog.op (Op.setItem key value)
  removeItem key := Prog.op (Op.removeItem key)
  post body := Prog.op (Op.post body)
  response := Prog.op Op.response
  status := AxiosError.status
  noResponse := { status := none }

def send (r : Request) (authorization : Option String) : Call r.Data :=
  Prog.op (Op.send r authorization)

-- ============================================================================
-- The page
-- ============================================================================

/-- `login` of `AuthContext`. -/
def login (n : ℕ) (email password : String) (code : Option String) : Call Unit := do
  let device ← getItem "device_fingerprint"
  let device ← (match truthy device with
    | some device => pure device
    | none => Prog.op Op.randomUUID)
  setItem "device_fingerprint" device
  let data ← apiRequest (send (.login email password device)) n none
  (match truthy code with
    | some code => do
        let _ ← apiRequest (send (.verify2FA code)) n none
    | none => pure ())
  setItem "access_token" data.accessToken
  setItem "refresh_token" data.refreshToken
  setItem "user_email" email

/-- `logout` of `AuthContext`. -/
def logout : Call Unit := do
  removeItem "access_token"
  removeItem "refresh_token"
  removeItem "user_email"

/-- `recover` of `GlobalErrorBoundary`. -/
def recover : Call Unit := Prog.op Op.clear

/-- What the page does. -/
inductive Action
  | call (r : Request)
  | login (email password : String) (code : Option String)
  | logout
  | recover

def Action.prog (n : ℕ) (a : Action) : Call Unit := do
  Prog.op Op.called
  match a with
  | .call r =>
      let _ ← apiRequest (send r) n none
  | .login email password code => Frontend.login n email password code
  | .logout => Frontend.logout
  | .recover => Frontend.recover

-- ============================================================================
-- localStorage and the server
-- ============================================================================

structure Page where
  localStorage : String → Option String
  /-- The refresh tokens that the page has been given. -/
  issued : List String

namespace Page

def setItem (w : Page) (key value : String) : Page :=
  { w with localStorage := Function.update w.localStorage key (some value) }

def removeItem (w : Page) (key : String) : Page :=
  { w with localStorage := Function.update w.localStorage key none }

def clear (w : Page) : Page := { w with localStorage := fun _ => none }

def issue (w : Page) (tokens : List String) : Page := { w with issued := tokens ++ w.issued }

variable {w : Page} {key key' value : String}

theorem setItem_stored : (w.setItem key value).localStorage key = some value :=
  Function.update_self ..

theorem setItem_other (hkey : key ≠ key') :
    (w.setItem key value).localStorage key' = w.localStorage key' :=
  Function.update_of_ne hkey.symm ..

theorem removeItem_stored : (w.removeItem key).localStorage key = none :=
  Function.update_self ..

theorem removeItem_other (hkey : key ≠ key') :
    (w.removeItem key).localStorage key' = w.localStorage key' :=
  Function.update_of_ne hkey.symm ..

end Page

/-- What the operations may answer; no refresh token is handed out twice. -/
inductive ApiStep : Env Page Op.Ans AxiosError
  | called {w : Page} : ApiStep w .called (.ok ()) w
  | getItem {w : Page} {key : String} : ApiStep w (.getItem key) (.ok (w.localStorage key)) w
  | setItem {w : Page} {key value : String} :
      ApiStep w (.setItem key value) (.ok ()) (w.setItem key value)
  | removeItem {w : Page} {key : String} :
      ApiStep w (.removeItem key) (.ok ()) (w.removeItem key)
  | clear {w : Page} : ApiStep w .clear (.ok ()) w.clear
  | randomUUID {w : Page} {uuid : String} : ApiStep w .randomUUID (.ok uuid) w
  | sent {w : Page} {r : Request} {authorization : Option String} {data : r.Data} :
      (∀ t ∈ r.tokens data, t ∉ w.issued) →
      ApiStep w (.send r authorization) (.ok data) (w.issue (r.tokens data))
  | failed {w : Page} {r : Request} {authorization : Option String} {err : AxiosError} :
      ApiStep w (.send r authorization) (.error err) w
  | post {w : Page} {body : RefreshBody} : ApiStep w (.post body) (.ok ()) w
  | refreshed {w : Page} {pair : TokenPair} :
      pair.refreshToken ∉ w.issued →
      ApiStep w .response (.ok pair) (w.issue [pair.refreshToken])
  | refused {w : Page} {err : AxiosError} : ApiStep w .response (.error err) w

variable {ι : Type}

/-- A page that does `acts`, each request of which gets at most `rounds` responses. -/
def pageStart (acts : ι → Action) (rounds : ι → ℕ) (localStorage : String → Option String) :
    Config ι Page Op.Ans AxiosError Unit where
  world := { localStorage, issued := (localStorage "refresh_token").toList }
  pool i := (acts i).prog (rounds i)

/-- The values that were posted to `/api/v1/auth/refresh`, newest first. -/
def posts (h : History ι Page Op.Ans AxiosError) : List String :=
  h.filterMap fun entry => match entry.2.op with
    | .post body => body.refreshToken
    | _ => none

section

variable {h : History ι Page Op.Ans AxiosError} {i : ι} {ev : Event Page Op.Ans AxiosError}
variable {body : RefreshBody}

theorem posts_post {token : String} (hop : ev.op = .post body)
    (htoken : body.refreshToken = some token) : posts ((i, ev) :: h) = token :: posts h := by
  refine List.filterMap_cons_some ?_
  rw [hop]
  exact htoken

theorem posts_null (hop : ev.op = .post body) (htoken : body.refreshToken = none) :
    posts ((i, ev) :: h) = posts h := by
  refine List.filterMap_cons_none ?_
  rw [hop]
  exact htoken

theorem posts_other (hop : ∀ body, ev.op ≠ .post body) : posts ((i, ev) :: h) = posts h := by
  refine List.filterMap_cons_none ?_
  show (match ev.op with
    | .post body => body.refreshToken
    | _ => none) = none
  split
  next body hpost => exact absurd hpost (hop body)
  next => rfl

end

-- ============================================================================
-- A server
-- ============================================================================

/-- A server that accepts only the access token `a2`; a page gets `r1` and `r2` from it. -/
def serverAnswers : Handler Page Op.Ans AxiosError := fun w e =>
  match e with
  | .called => some (.ok (), w)
  | .getItem key => some (.ok (w.localStorage key), w)
  | .setItem key value => some (.ok (), w.setItem key value)
  | .removeItem key => some (.ok (), w.removeItem key)
  | .clear => some (.ok (), w.clear)
  | .randomUUID => some (.ok "", w)
  | .send (.other _ _) authorization =>
      if authorization = some "Bearer a2" then some (.ok (), w)
      else some (.error { status := some 401 }, w)
  | .send _ _ => none
  | .post _ => some (.ok (), w)
  | .response =>
      if "r1" ∉ w.issued then some (.ok ⟨"a1", "r1"⟩, w.issue ["r1"])
      else if "r2" ∉ w.issued then some (.ok ⟨"a2", "r2"⟩, w.issue ["r2"])
      else some (.error { status := none }, w)

theorem serverAnswers_sound (_ : ι) (w : Page) (e : Op) (a : Except AxiosError e.Ans) (w' : Page)
    (h : serverAnswers w e = some (a, w')) : ApiStep w e a w' := by
  cases e with
  | called =>
      cases h
      exact .called
  | getItem key =>
      cases h
      exact .getItem
  | setItem key value =>
      cases h
      exact .setItem
  | removeItem key =>
      cases h
      exact .removeItem
  | clear =>
      cases h
      exact .clear
  | randomUUID =>
      cases h
      exact .randomUUID
  | send r authorization =>
      cases r with
      | other method url =>
          simp only [serverAnswers] at h
          split at h
          next =>
            cases h
            exact .sent (r := .other method url) fun t ht => nomatch ht
          next =>
            cases h
            exact .failed
      | _ => cases h
  | post body =>
      cases h
      exact .post
  | response =>
      simp only [serverAnswers] at h
      split at h
      next hnew =>
        cases h
        exact .refreshed hnew
      next =>
        split at h
        next hnew =>
          cases h
          exact .refreshed hnew
        next =>
          cases h
          exact .refused

/-- A session whose access token has expired. -/
def expired : String → Option String := fun key =>
  if key = "access_token" then some "a0" else if key = "refresh_token" then some "r0" else none

/-- Two requests of the page. -/
def twoCalls (i : Fin 2) : Action :=
  .call (.other "get" (if i = 0 then "/api/v1/models" else "/api/v1/trades/positions"))

end Mtrader.Frontend
