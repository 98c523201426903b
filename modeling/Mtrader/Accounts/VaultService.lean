/-
  Mtrader.Accounts.VaultService

  `services/vault_service.py`.
-/

import Mtrader.Accounts.Models
import Mtrader.Vault.Crypto

namespace Mtrader.Accounts

open Py Orm

/-- What the vault works with. -/
structure Vaulting where
  aes : Vault.AesGcm
  /-- `settings.encryption_master_key`. -/
  encryptionMasterKey : String
  /-- The database's order of texts. -/
  collate : String → String → Bool

variable (env : Vaulting)

/-- The row of a user and a provider. -/
def keyOf (userId : ℕ) (provider : String) (r : Stored ApiKeyVault) : Bool :=
  r.val.userId = userId && r.val.provider = provider

/-- A new row for a secret. -/
def newKey (userId : ℕ) (provider apiKey : String) (e : Vault.Encrypted) : ApiKeyVault where
  userId := userId
  provider := provider
  keyLast4 := lastChars 4 apiKey
  encryptedDek := e.encryptedDek
  dekNonce := e.dekNonce
  ciphertext := e.ciphertext
  dataNonce := e.dataNonce

/-- What `upsert_key` assigns to a row that is there already. -/
def overwrite (apiKey : String) (e : Vault.Encrypted) (row : ApiKeyVault) : ApiKeyVault :=
  { row with
    keyLast4 := lastChars 4 apiKey
    encryptedDek := e.encryptedDek
    dekNonce := e.dekNonce
    ciphertext := e.ciphertext
    dataNonce := e.dataNonce }

/-- `upsert_key`. -/
def upsertKey (draws : Vault.Draws) (userId : ℕ) (provider apiKey : String) :
    Service (Stored ApiKeyVault) := do
  let encrypted := Vault.encryptSecret env.aes env.encryptionMasterKey draws apiKey
  let db ← M.read
  let row : Stored ApiKeyVault ←
    match db.apiKeyVault.select (keyOf userId provider) with
    | none => do
        let row : ApiKeyVault := newKey userId provider apiKey encrypted
        M.stage fun db => db.addKey row
        pure ⟨db.apiKeyVault.seq, row⟩
    | some row => do
        M.stage fun db => db.setKey row.id (overwrite apiKey encrypted)
        pure ⟨row.id, overwrite apiKey encrypted row.val⟩
  commit
  recordAudit
    { userId := some userId, action := .settingsChanged, resourceType := "vault",
      resourceId := some (toString row.id), details := [("provider", provider)] }
  return row

/-- `list_keys`. -/
def listKeys (userId : ℕ) : Service (List (Stored ApiKeyVault)) := do
  let db ← M.read
  return (db.apiKeyVault.rows.filter fun r => r.val.userId = userId).mergeSort
    fun r r' => env.collate r.val.provider r'.val.provider

/-- `delete_key`. -/
def deleteKey (userId : ℕ) (keyId : ℤ) : Service Unit := do
  let db ← M.read
  match db.apiKeyVault.select fun r => (r.id : ℤ) = keyId && r.val.userId = userId with
  | none => M.raise (.http 404 "Key not found")
  | some row =>
      M.stage fun db => db.deleteKey row.id
      commit
      recordAudit
        { userId := some userId, action := .settingsChanged, resourceType := "vault",
          resourceId := some (toString keyId), details := [("event", "delete")] }
      return ()

/-- What `decrypt_secret` gets of a row. -/
def ApiKeyVault.encrypted (row : ApiKeyVault) : Vault.Encrypted where
  encryptedDek := row.encryptedDek
  dekNonce := row.dekNonce
  ciphertext := row.ciphertext
  dataNonce := row.dataNonce

/-- `get_key_for_runtime`. -/
def getKeyForRuntime (userId : ℕ) (provider : String) : Service String := do
  let db ← M.read
  match db.apiKeyVault.select (keyOf userId provider) with
  | none => M.raise (.http 404 "Provider key not found")
  | some row =>
      recordAudit
        { userId := some userId, action := .keyAccess, resourceType := "vault",
          resourceId := some (toString row.id), details := [("provider", provider)] }
      M.ofExcept ((Vault.decryptSecret env.aes env.encryptionMasterKey row.val.encrypted).mapError
        Failure.exc)

end Mtrader.Accounts
