/-
  Mtrader.Frontend.Interceptors

  The two interceptors of `services/api.ts`, for whatever programs of the page read and write
  `localStorage` and post to `/api/v1/auth/refresh`.
-/

import Mtrader.Coroutine.Program
import Mathlib.Data.Nat.Notation

namespace Mtrader.Frontend

open Coroutine

/-- `null` and the empty string are false. -/
def truthy (s : Option String) : Option String := s.filter fun s => s ≠ ""

structure TokenPair where
  accessToken : String
  refreshToken : String
  deriving DecidableEq

structure RefreshBody where
  refreshToken : Option String
  deviceFingerprint : String
  deriving DecidableEq

/-- What programs over the operations `A`, which throw an `X`, can do in a browser. -/
class Browser {E : Type} (A : E → Type) (X : Type) where
  getItem : String → Prog A X (Option String)
  setItem : String → String → Prog A X Unit
  removeItem : String → Prog A X Unit
  /-- Post to `/api/v1/auth/refresh`, without `api`. -/
  post : RefreshBody → Prog A X Unit
  /-- Wait for the answer to it. -/
  response : Prog A X TokenPair
  /-- `err.response?.status`; without a response there is none. -/
  status : X → Option ℕ
  /-- The error of a request to which no response comes. -/
  noResponse : X

export Browser (getItem setItem removeItem post response)

variable {E : Type} {A : E → Type} {X α : Type} [Browser A X]

/-- `api.interceptors.request`: the headers of the request. -/
def requestInterceptor (authorization : Option String) : Prog A X (Option String) := do
  let token ← getItem "access_token"
  return match truthy token with
    | some token => some ("Bearer " ++ token)
    | none => authorization

/-- `api.interceptors.response` for an error; `request` is `api.request(err.config)` with
    the header that is set. -/
def responseInterceptor (err : X) (request : String → Prog A X α) : Prog A X α :=
  if Browser.status A err = some 401 then do
    let stored ← getItem "refresh_token"
    if (truthy stored).isSome then
      let refreshToken ← getItem "refresh_token"
      let deviceFingerprint ← getItem "device_fingerprint"
      post {
        refreshToken
        deviceFingerprint := (truthy deviceFingerprint).getD "web-client" }
      let refresh : TokenPair ← response
      setItem "access_token" refresh.accessToken
      setItem "refresh_token" refresh.refreshToken
      request ("Bearer " ++ refresh.accessToken)
    else .raise err
  else .raise err

/-- `api.request(config)`, for at most `n` responses; then none comes any more. -/
def apiRequest (send : Option String → Prog A X α) : ℕ → Option String → Prog A X α
  | 0, _ => .raise (Browser.noResponse A)
  | n + 1, authorization => do
      let authorization ← requestInterceptor authorization
      let out ← (send authorization).attempt
      match out with
      | .ok data => return data
      | .error err => responseInterceptor err fun header => apiRequest send n (some header)

end Mtrader.Frontend
