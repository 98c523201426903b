/-
  Mtrader.Accounts.Plans

  How the writing calls go, as plans: refused, or a change and its audit record.  What
  holds of a call whatever becomes of its commits is read off its plan.
-/

import Mtrader.Accounts.AuthService
import Mtrader.Accounts.VaultService
import Mtrader.Orm.Audited

namespace Mtrader.Accounts

open Py Orm

/-- An exception that is not a failing commit's. -/
def Failure.OfCode (e : Failure) : Prop := ∀ n, e ≠ .commit n

theorem ofCode_http (status : ℕ) (detail : String) : (Failure.http status detail).OfCode :=
  fun _ h => by cases h

theorem ofCode_exc (e : Exc) : (Failure.exc e).OfCode := fun _ h => by cases h

/-- A call that is refused, and writes nothing. -/
def Refused {α : Type} (x : Service α) (db : Tables) : Prop :=
  ∃ e : Failure, e.OfCode ∧ M.Follows Failure.commit x db (.refuse e)

/-- A call that makes a change, records it in the audit trail and answers `a`. -/
def Recorded {α : Type} (x : Service α) (db : Tables) (change : Tables → Tables) (a : α) : Prop :=
  ∃ entry, M.Follows Failure.commit x db (.audited change (fun db => db.addAudit entry) a)

/-- A call that revokes a row and then raises. -/
def Marked {α : Type} (x : Service α) (db : Tables) (row : Stored RefreshToken) : Prop :=
  ∃ e : Failure, e.OfCode ∧ M.Follows Failure.commit x db (.mark (fun db => db.revoke row.id) e)

variable {rt : Runtime} {db : Tables} {draws : Draws} {ip : Option String}

-- ============================================================================
-- Registration and login
-- ============================================================================

theorem registerUser_refused {payload : RegisterRequest} {user : Stored User}
    (h : db.users.select (fun u => u.val.email = rt.lower payload.email) = some user) :
    Refused (registerUser rt draws payload) db := by
  refine ⟨_, ofCode_http 409 "Email already registered", M.follows_read ?_⟩
  rw [h]
  exact M.follows_refuse _

theorem registerUser_recorded (draws : Draws) {payload : RegisterRequest}
    (h : db.users.select (fun u => u.val.email = rt.lower payload.email) = none) :
    ∃ user a, Recorded (registerUser rt draws payload) db (fun db => db.addUser user) a := by
  refine ⟨_, _, _, M.follows_read (by
    rw [h]
    exact M.follows_audited _ _ _)⟩

/-- The user that the credentials are of. -/
structure Authenticated (rt : Runtime) (db : Tables) (payload : LoginRequest)
    (user : Stored User) : Prop where
  found : db.users.select (fun u => u.val.email = rt.lower payload.email) = some user
  verified : rt.verifyPassword payload.password user.val.passwordHash = true

variable (rt draws) in
/-- The row that a login or a refresh adds. -/
def sessionRow (user : Stored User) (deviceFingerprint : String) (ttlDays : ℤ) : RefreshToken where
  userId := user.id
  tokenHash := rt.hashRefreshToken draws.refreshToken
  deviceFingerprint := deviceFingerprint
  expiresAt := draws.now + days ttlDays
  lastActivityAt := draws.stamp

theorem login_recorded (draws : Draws) (ip : Option String) {payload : LoginRequest}
    {user : Stored User} {ttlDays : ℤ}
    (h : Authenticated rt db payload user) (hdays : rt.refreshTokenTtlDays = some ttlDays) :
    ∃ a, a.refreshToken = draws.refreshToken ∧
      Recorded (login rt draws payload ip) db
        (fun db => db.addRefreshToken (sessionRow rt draws user payload.deviceFingerprint ttlDays))
        a := by
  refine ⟨⟨_, _⟩, rfl, _, M.follows_read (by
    rw [h.found]
    dsimp only
    rw [h.verified, hdays]
    exact M.follows_audited _ _ _)⟩

theorem login_refused (draws : Draws) (ip : Option String) {payload : LoginRequest}
    (h : ∀ user ttlDays, Authenticated rt db payload user → rt.refreshTokenTtlDays ≠ some ttlDays) :
    Refused (login rt draws payload ip) db := by
  cases hsel : db.users.select (fun u => u.val.email = rt.lower payload.email) with
  | none =>
      refine ⟨_, ofCode_http 401 "Invalid credentials", M.follows_read ?_⟩
      rw [hsel]
      exact M.follows_refuse _
  | some user =>
      cases hverify : rt.verifyPassword payload.password user.val.passwordHash with
      | false =>
          refine ⟨_, ofCode_http 401 "Invalid credentials", M.follows_read ?_⟩
          rw [hsel]
          dsimp only
          rw [hverify]
          exact M.follows_refuse _
      | true =>
          cases hdays : rt.refreshTokenTtlDays with
          | none =>
              refine ⟨_, ofCode_exc _, M.follows_read (by
                rw [hsel]
                dsimp only
                rw [hverify, hdays]
                exact M.follows_raised rfl)⟩
          | some ttlDays => exact absurd hdays (h user ttlDays ⟨hsel, hverify⟩)

-- ============================================================================
-- Refresh
-- ============================================================================

variable (F : Type) [Prims F]

/-- A row that `refresh_tokens` accepts from a device, of a user that exists. -/
structure Refreshable (rt : Runtime) (draws : Draws) (deviceFingerprint : String) (db : Tables)
    (row : Stored RefreshToken) : Prop where
  naive : rt.awareTimestamps = false
  unexpired : draws.now ≤ row.val.expiresAt
  active : ∃ timeout, rt.inactivityTimeoutMinutes = some timeout ∧
    longerThan F (draws.now - row.val.lastActivityAt) timeout = false
  device : row.val.deviceFingerprint = deviceFingerprint
  user : (db.users.get row.val.userId).isSome
  ttl : rt.refreshTokenTtlDays.isSome

variable {F} {token device : String} {row : Stored RefreshToken}

theorem isBefore_naive (h : rt.awareTimestamps = false) (stored now : Time) :
    rt.isBefore stored now = .ok (decide (stored < now)) := by
  rw [Runtime.isBefore, h, if_neg (by decide)]

theorem since_naive (h : rt.awareTimestamps = false) (now stored : Time) :
    rt.since now stored = .ok (now - stored) := by
  rw [Runtime.since, h, if_neg (by decide)]

theorem rotate_recorded {user : Stored User} {ttlDays : ℤ}
    (huser : db.users.get row.val.userId = some user)
    (hdays : rt.refreshTokenTtlDays = some ttlDays) :
    ∃ a, a.refreshToken = draws.refreshToken ∧
      Recorded (rotate rt draws row device ip) db
        (fun db => (db.revoke row.id).addRefreshToken (sessionRow rt draws user device ttlDays))
        a := by
  refine ⟨⟨_, _⟩, rfl, _, M.follows_read (by
    rw [huser, hdays]
    exact M.follows_audited
      (fun db : Tables =>
        (db.revoke row.id).addRefreshToken (sessionRow rt draws user device ttlDays)) _ _)⟩

theorem rotate_refused
    (h : db.users.get row.val.userId = none ∨ rt.refreshTokenTtlDays = none) :
    Refused (rotate rt draws row device ip) db := by
  cases huser : db.users.get row.val.userId with
  | none =>
      refine ⟨_, ofCode_exc (.attributeError "'NoneType' object has no attribute 'id'"),
        M.follows_read ?_⟩
      rw [huser]
      exact fun _ => rfl
  | some user =>
      have hdays : rt.refreshTokenTtlDays = none := h.resolve_left (by rw [huser]; nofun)
      refine ⟨_, ofCode_exc (.attributeError
        "'Settings' object has no attribute 'refresh_token_ttl_days'"), M.follows_read ?_⟩
      rw [huser, hdays]
      exact fun _ => rfl

/-- A row that is good is revoked and replaced. -/
theorem refreshTokens_recorded (ip : Option String) {user : Stored User} {ttlDays : ℤ}
    (hsel : db.refreshTokens.select (matching rt token) = some row)
    (h : Refreshable F rt draws device db row) (huser : db.users.get row.val.userId = some user)
    (hdays : rt.refreshTokenTtlDays = some ttlDays) :
    ∃ a, a.refreshToken = draws.refreshToken ∧
      Recorded (refreshTokens F rt draws token device ip) db
        (fun db => (db.revoke row.id).addRefreshToken (sessionRow rt draws user device ttlDays))
        a := by
  obtain ⟨timeout, htimeout, hactive⟩ := h.active
  have hrecorded : ∃ a, a.refreshToken = draws.refreshToken ∧
      Recorded (rotate rt draws row device ip) db
        (fun db => (db.revoke row.id).addRefreshToken (sessionRow rt draws user device ttlDays))
        a := rotate_recorded huser hdays
  obtain ⟨a, ha, entry, hrotate⟩ := hrecorded
  refine ⟨a, ha, entry, M.follows_read ?_⟩
  rw [hsel]
  refine M.follows_ofExcept (isBefore_naive h.naive _ _) ?_
  rw [decide_eq_false (not_lt.mpr h.unexpired), if_neg (by decide)]
  refine M.follows_ofExcept (since_naive h.naive _ _) ?_
  rw [htimeout]
  refine M.follows_ofExcept rfl ?_
  rw [hactive, if_neg (by decide), if_neg (not_not.mpr h.device)]
  exact hrotate

theorem refreshUnexpired_refused (hnaive : rt.awareTimestamps = false)
    (hunexpired : draws.now ≤ row.val.expiresAt) (hbad : ¬ Refreshable F rt draws device db row) :
    Refused (refreshUnexpired F rt draws row device ip) db ∨
      Marked (refreshUnexpired F rt draws row device ip) db row := by
  have hsince := since_naive hnaive draws.now row.val.lastActivityAt
  cases htimeout : rt.inactivityTimeoutMinutes with
  | none =>
      refine Or.inl ⟨_, ofCode_exc (.attributeError
        "'Settings' object has no attribute 'inactivity_timeout_minutes'"),
        M.follows_ofExcept hsince ?_⟩
      rw [htimeout]
      exact M.follows_raised rfl
  | some timeout =>
      have hset : setting "inactivity_timeout_minutes" rt.inactivityTimeoutMinutes =
          .ok timeout := by
        rw [htimeout, setting]
      cases hidle : longerThan F (draws.now - row.val.lastActivityAt) timeout with
      | true =>
          refine Or.inr ⟨_, ofCode_http 401 "Session inactive",
            M.follows_ofExcept hsince (M.follows_ofExcept hset ?_)⟩
          rw [hidle, if_pos rfl]
          exact M.follows_mark _ _
      | false =>
          left
          by_cases hdevice : row.val.deviceFingerprint = device
          · -- only the user and the lifetime of the new token are left to be missing
            have hrotate : Refused (rotate rt draws row device ip) db := by
              apply rotate_refused
              cases huser : db.users.get row.val.userId with
              | none => exact Or.inl rfl
              | some user =>
                  refine Or.inr (Option.not_isSome_iff_eq_none.mp fun hdays => hbad ?_)
                  exact ⟨hnaive, hunexpired, ⟨timeout, htimeout, hidle⟩, hdevice,
                    by rw [huser]; rfl, hdays⟩
            obtain ⟨e, he, hfollows⟩ := hrotate
            refine ⟨e, he, M.follows_ofExcept hsince (M.follows_ofExcept hset ?_)⟩
            rw [hidle, if_neg (by decide), if_neg (not_not.mpr hdevice)]
            exact hfollows
          · refine ⟨_, ofCode_http 401 "Device mismatch",
              M.follows_ofExcept hsince (M.follows_ofExcept hset ?_)⟩
            rw [hidle, if_neg (by decide), if_pos hdevice]
            exact M.follows_refuse _

/-- Otherwise nothing is added: the call writes nothing, or revokes the row for good. -/
theorem refreshTokens_refused
    (hbad : ∀ row, db.refreshTokens.select (matching rt token) = some row →
      ¬ Refreshable F rt draws device db row) :
    Refused (refreshTokens F rt draws token device ip) db ∨
    ∃ row, db.refreshTokens.select (matching rt token) = some row ∧
      Marked (refreshTokens F rt draws token device ip) db row := by
  cases hsel : db.refreshTokens.select (matching rt token) with
  | none =>
      refine Or.inl ⟨_, ofCode_http 401 "Invalid refresh token", M.follows_read ?_⟩
      rw [hsel]
      exact M.follows_refuse _
  | some row =>
      cases haware : rt.awareTimestamps with
      | true =>
          have hbefore : rt.isBefore row.val.expiresAt draws.now = .error (.exc (.typeError
              "can't compare offset-naive and offset-aware datetimes")) := by
            rw [Runtime.isBefore, if_pos haware]
          refine Or.inl ⟨_, ofCode_exc (.typeError
            "can't compare offset-naive and offset-aware datetimes"), M.follows_read ?_⟩
          rw [hsel]
          exact M.follows_raised hbefore
      | false =>
          have hbefore := isBefore_naive haware row.val.expiresAt draws.now
          by_cases hexpired : row.val.expiresAt < draws.now
          · refine Or.inr ⟨row, rfl, _, ofCode_http 401 "Refresh token expired",
              M.follows_read ?_⟩
            rw [hsel]
            refine M.follows_ofExcept hbefore ?_
            rw [decide_eq_true hexpired, if_pos rfl]
            exact M.follows_mark _ _
          · have hunexpired : ∀ {p}, M.Follows Failure.commit
                (refreshUnexpired F rt draws row device ip) db p →
                M.Follows Failure.commit (refreshTokens F rt draws token device ip) db p := by
              intro p hp
              refine M.follows_read ?_
              rw [hsel]
              refine M.follows_ofExcept hbefore ?_
              rw [decide_eq_false hexpired, if_neg (by decide)]
              exact hp
            have hcases : Refused (refreshUnexpired F rt draws row device ip) db ∨
                Marked (refreshUnexpired F rt draws row device ip) db row :=
              refreshUnexpired_refused haware (not_lt.mp hexpired) (hbad row hsel)
            rcases hcases with ⟨e, he, hp⟩ | ⟨e, he, hp⟩
            · exact Or.inl ⟨e, he, hunexpired hp⟩
            · exact Or.inr ⟨row, rfl, e, he, hunexpired hp⟩

-- ============================================================================
-- The vault
-- ============================================================================

variable {env : Vaulting} {vdraws : Vault.Draws} {userId : ℕ} {keyId : ℤ}
  {provider apiKey : String}

theorem upsertKey_new (h : db.apiKeyVault.select (keyOf userId provider) = none) :
    ∃ row a, Recorded (upsertKey env vdraws userId provider apiKey) db
      (fun db => db.addKey row) a := by
  refine ⟨_, _, _, M.follows_read (by
    rw [h]
    exact M.follows_audited _ _ _)⟩

theorem upsertKey_old {row : Stored ApiKeyVault}
    (h : db.apiKeyVault.select (keyOf userId provider) = some row) :
    ∃ a, Recorded (upsertKey env vdraws userId provider apiKey) db
      (fun db => db.setKey row.id
        (overwrite apiKey (Vault.encryptSecret env.aes env.encryptionMasterKey vdraws apiKey)))
      a := by
  refine ⟨_, _, M.follows_read (by
    rw [h]
    exact M.follows_audited _ _ _)⟩

theorem deleteKey_refused
    (h : db.apiKeyVault.select (fun r => (r.id : ℤ) = keyId && r.val.userId = userId) = none) :
    Refused (deleteKey userId keyId) db := by
  refine ⟨_, ofCode_http 404 "Key not found", M.follows_read ?_⟩
  rw [h]
  exact M.follows_refuse _

theorem deleteKey_recorded {row : Stored ApiKeyVault}
    (h : db.apiKeyVault.select (fun r => (r.id : ℤ) = keyId && r.val.userId = userId) =
      some row) :
    Recorded (deleteKey userId keyId) db (fun db => db.deleteKey row.id) () := by
  refine ⟨_, M.follows_read (by
    rw [h]
    exact M.follows_audited _ _ _)⟩

end Mtrader.Accounts
