/-
  Mtrader.Accounts.Models

  `models.py`, with `record_audit` of `services/audit_service.py`: the tables behind
  registration, login, token refresh and the key vault.

  Columns that no service reads or sets (`is_active`, `meta`, `created_at`,
  `updated_at`) are left out.  A row's number is the one its table's sequence gives
  it; a number that a failed commit has used up makes no difference here.
-/

import Mtrader.Orm.Session
import Mtrader.Orm.Table
import Mtrader.Py.Bytes
import Mtrader.Py.Value

namespace Mtrader.Accounts

open Py Orm

inductive Role
  | admin | user
  deriving DecidableEq, Repr

/-- `role.value`. -/
def Role.value : Role → String
  | admin => "ADMIN"
  | user => "USER"

inductive AuditAction
  | login | logout | keyAccess | settingsChanged | tokenRefresh
  deriving DecidableEq, Repr

structure User where
  email : String
  passwordHash : String
  role : Role := .user
  deriving DecidableEq, Repr

structure RefreshToken where
  userId : ℕ
  tokenHash : String
  deviceFingerprint : String
  expiresAt : Time
  revoked : Bool := false
  lastActivityAt : Time
  deriving DecidableEq, Repr

structure AuditTrail where
  userId : Option ℕ
  action : AuditAction
  resourceType : String
  resourceId : Option String := none
  details : List (String × String) := []
  ipAddress : Option String := none
  deriving DecidableEq, Repr

structure ApiKeyVault where
  userId : ℕ
  provider : String
  keyLast4 : String
  encryptedDek : Bytes
  dekNonce : Bytes
  ciphertext : Bytes
  dataNonce : Bytes
  deriving DecidableEq, Repr

/-- The database. -/
structure Tables where
  users : Table User
  refreshTokens : Table RefreshToken
  auditTrail : Table AuditTrail
  apiKeyVault : Table ApiKeyVault

/-- What a service may raise: an `HTTPException`, another exception of its own code, or
    the failure of the session's `n`-th commit. -/
inductive Failure
  | http (status : ℕ) (detail : String)
  | exc (e : Exc)
  | commit (n : ℕ)
  deriving DecidableEq, Repr

/-- Code of a service. -/
abbrev Service (α : Type) : Type := M Tables Failure α

namespace Tables

variable (db : Tables)

def addUser (row : User) : Tables := { db with users := db.users.insert row }

def addRefreshToken (row : RefreshToken) : Tables :=
  { db with refreshTokens := db.refreshTokens.insert row }

/-- `rt.revoked = True`. -/
def revoke (k : ℕ) : Tables :=
  { db with refreshTokens := db.refreshTokens.update k fun row => { row with revoked := true } }

def addAudit (row : AuditTrail) : Tables := { db with auditTrail := db.auditTrail.insert row }

def addKey (row : ApiKeyVault) : Tables := { db with apiKeyVault := db.apiKeyVault.insert row }

def setKey (k : ℕ) (f : ApiKeyVault → ApiKeyVault) : Tables :=
  { db with apiKeyVault := db.apiKeyVault.update k f }

def deleteKey (k : ℕ) : Tables := { db with apiKeyVault := db.apiKeyVault.delete k }

end Tables

def commit : Service Unit := M.commit Failure.commit

/-- `record_audit`. -/
def recordAudit (row : AuditTrail) : Service Unit := do
  M.stage fun db => db.addAudit row
  commit

end Mtrader.Accounts
