/-
  Mtrader.Accounts.AuthService

  `services/auth_service.py`.

  Two settings that it reads, `refresh_token_ttl_days` and
  `inactivity_timeout_minutes`, are not fields of `Settings`; they are optional here,
  and reading a missing one raises.  What it takes from other modules without finding
  it there (`hash_refresh_token`, `create_refresh_token` without arguments, an access
  token for a subject and a role) is given.
-/

import Mtrader.Accounts.Models

namespace Mtrader.Accounts

open Py Orm

/-- What the service finds around it. -/
structure Runtime where
  refreshTokenTtlDays : Option ℤ
  inactivityTimeoutMinutes : Option ℤ
  /-- Whether the database driver returns timestamps with a time zone. -/
  awareTimestamps : Bool
  /-- `str.lower`. -/
  lower : String → String
  /-- `verify_password(password, password_hash)`. -/
  verifyPassword : String → String → Bool
  hashRefreshToken : String → String

/-- What one call meets: the time of `datetime.utcnow()`, that of a column's default
    when the row is written, and what is generated for the call. -/
structure Draws where
  now : Time
  stamp : Time
  /-- `hash_password(payload.password)`, which is salted. -/
  passwordHash : String
  /-- `create_refresh_token()`. -/
  refreshToken : String
  /-- `create_access_token(subject, role)`. -/
  accessToken : String → String → String

structure RegisterRequest where
  email : String
  password : String

structure LoginRequest where
  email : String
  password : String
  deviceFingerprint : String

structure TokenPair where
  accessToken : String
  refreshToken : String
  deriving DecidableEq, Repr

/-- `settings.<name>`, for a field that may be missing. -/
def setting (name : String) : Option ℤ → Except Failure ℤ
  | some v => .ok v
  | none => .error (.exc (.attributeError ("'Settings' object has no attribute '" ++ name ++ "'")))

/-- `timedelta(days=…)`, in microseconds. -/
def days (n : ℤ) : ℤ := n * 86400000000

/-- `stored < now`, for a timestamp from the database and a naive one. -/
def Runtime.isBefore (rt : Runtime) (stored now : Time) : Except Failure Bool :=
  if rt.awareTimestamps then
    .error (.exc (.typeError "can't compare offset-naive and offset-aware datetimes"))
  else .ok (decide (stored < now))

/-- `now - stored`, likewise. -/
def Runtime.since (rt : Runtime) (now stored : Time) : Except Failure ℤ :=
  if rt.awareTimestamps then
    .error (.exc (.typeError "can't subtract offset-naive and offset-aware datetimes"))
  else .ok (now - stored)

variable (F : Type) [Prims F]

/-- `delta.total_seconds() / 60 > minutes`. -/
def longerThan (delta : Time) (minutes : ℤ) : Bool :=
  Prims.lt (Prims.ofRat (minutes : ℚ) : F)
    (Prims.ofRat ((delta : ℚ) / 1000000) / Prims.ofRat 60)

variable {F} (rt : Runtime) (draws : Draws)

/-- `register_user`. -/
def registerUser (payload : RegisterRequest) : Service (Stored User) := do
  let db ← M.read
  match db.users.select fun u => u.val.email = rt.lower payload.email with
  | some _ => M.raise (.http 409 "Email already registered")
  | none =>
      let user : Stored User :=
        ⟨db.users.seq, { email := rt.lower payload.email, passwordHash := draws.passwordHash }⟩
      M.stage fun db => db.addUser user.val
      commit
      recordAudit
        { userId := some user.id, action := .settingsChanged, resourceType := "user",
          resourceId := some (toString user.id), details := [("event", "register")] }
      return user

/-- `login`. -/
def login (payload : LoginRequest) (ip : Option String) : Service TokenPair := do
  let db ← M.read
  match db.users.select fun u => u.val.email = rt.lower payload.email with
  | none => M.raise (.http 401 "Invalid credentials")
  | some user =>
      if !rt.verifyPassword payload.password user.val.passwordHash then
        M.raise (.http 401 "Invalid credentials")
      else
        let ttlDays ← M.ofExcept (setting "refresh_token_ttl_days" rt.refreshTokenTtlDays)
        let row : Stored RefreshToken :=
          ⟨db.refreshTokens.seq,
            { userId := user.id, tokenHash := rt.hashRefreshToken draws.refreshToken,
              deviceFingerprint := payload.deviceFingerprint,
              expiresAt := draws.now + days ttlDays, lastActivityAt := draws.stamp }⟩
        M.stage fun db => db.addRefreshToken row.val
        commit
        recordAudit
          { userId := some user.id, action := .login, resourceType := "session",
            resourceId := some (toString row.id), ipAddress := ip }
        return ⟨draws.accessToken (toString user.id) user.val.role.value, draws.refreshToken⟩

/-- The row that `refresh_tokens` looks up. -/
def matching (refreshToken : String) (r : Stored RefreshToken) : Bool :=
  r.val.tokenHash = rt.hashRefreshToken refreshToken && !r.val.revoked

/-- Refuse a row for good: it is revoked, and the revocation committed. -/
def refuse (row : Stored RefreshToken) (detail : String) : Service TokenPair := do
  M.stage fun db => db.revoke row.id
  commit
  M.raise (.http 401 detail)

/-- `refresh_tokens` from `user = db.get(User, rt.user_id)` on. -/
def rotate (row : Stored RefreshToken) (deviceFingerprint : String) (ip : Option String) :
    Service TokenPair := do
  let db ← M.read
  let user := db.users.get row.val.userId
  M.stage fun db => db.revoke row.id
  match user with
  | none => M.raise (.exc (.attributeError "'NoneType' object has no attribute 'id'"))
  | some user =>
      let ttlDays ← M.ofExcept (setting "refresh_token_ttl_days" rt.refreshTokenTtlDays)
      M.stage fun db => db.addRefreshToken
        { userId := user.id, tokenHash := rt.hashRefreshToken draws.refreshToken,
          deviceFingerprint := deviceFingerprint, expiresAt := draws.now + days ttlDays,
          lastActivityAt := draws.stamp }
      commit
      recordAudit
        { userId := some user.id, action := .tokenRefresh, resourceType := "session",
          ipAddress := ip }
      return ⟨draws.accessToken (toString user.id) user.val.role.value, draws.refreshToken⟩

variable (F) in
/-- `refresh_tokens` from `inactive_minutes` on, for a row that has not expired. -/
def refreshUnexpired (row : Stored RefreshToken) (deviceFingerprint : String)
    (ip : Option String) : Service TokenPair := do
  let idle ← M.ofExcept (rt.since draws.now row.val.lastActivityAt)
  let timeout ← M.ofExcept (setting "inactivity_timeout_minutes" rt.inactivityTimeoutMinutes)
  if longerThan F idle timeout then refuse row "Session inactive"
  else if row.val.deviceFingerprint ≠ deviceFingerprint then
    M.raise (.http 401 "Device mismatch")
  else rotate rt draws row deviceFingerprint ip

variable (F) in
/-- `refresh_tokens`. -/
def refreshTokens (refreshToken deviceFingerprint : String) (ip : Option String) :
    Service TokenPair := do
  let db ← M.read
  match db.refreshTokens.select (matching rt refreshToken) with
  | none => M.raise (.http 401 "Invalid refresh token")
  | some row =>
      let expired ← M.ofExcept (rt.isBefore row.val.expiresAt draws.now)
      if expired then refuse row "Refresh token expired"
      else refreshUnexpired F rt draws row deviceFingerprint ip

end Mtrader.Accounts
