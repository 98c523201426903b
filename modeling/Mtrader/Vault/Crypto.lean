/-
  Mtrader.Vault.Crypto

  `core/crypto.py`: a secret is encrypted under a key of its own, and that key under
  the master key.  The master key comes from the text of `ENCRYPTION_MASTER_KEY`,
  which `core/config.py` accepts when it is Base64 for 32 bytes.

  `AesGcm` stands for the AES-GCM of the cryptography package.
-/

import Mtrader.Py.Value
import Mtrader.Codec.Base64

namespace Mtrader.Vault

open Py

-- ============================================================================
-- The setting
-- ============================================================================

/-- `Settings._validate_master_key`. -/
def validateMasterKey (v : String) : Except Exc String :=
  match Base64.decode v.toList with
  | none => .error (.valueError "FATAL: ENCRYPTION_MASTER_KEY must be valid base64")
  | some raw =>
      if raw.length ≠ 32 then
        .error (.valueError "FATAL: ENCRYPTION_MASTER_KEY must decode to exactly 32 bytes")
      else .ok v

/-- A value of `ENCRYPTION_MASTER_KEY` that `Settings` accepts. -/
structure EncryptionMasterKey where
  text : String
  accepted : validateMasterKey text = .ok text

/-- The bytes that the accepted text stands for. -/
def EncryptionMasterKey.decoded (v : EncryptionMasterKey) : Bytes :=
  (Base64.decode v.text.toList).getD []

theorem validateMasterKey_eq_ok {v w : String} :
    validateMasterKey v = .ok w ↔
      w = v ∧ ∃ raw, Base64.decode v.toList = some raw ∧ raw.length = 32 := by
  constructor
  · intro h
    unfold validateMasterKey at h
    split at h
    next => cases h
    next raw hraw =>
      split at h
      next => cases h
      next hlen => exact ⟨(Except.ok.inj h).symm, raw, hraw, not_not.mp hlen⟩
  · rintro ⟨rfl, raw, hraw, hlen⟩
    rw [validateMasterKey, hraw]
    exact if_neg (not_not.mpr hlen)

namespace EncryptionMasterKey

variable (v v' : EncryptionMasterKey)

theorem decode_text : Base64.decode v.text.toList = some v.decoded := by
  obtain ⟨-, raw, hraw, -⟩ := validateMasterKey_eq_ok.mp v.accepted
  rw [decoded, hraw]
  rfl

theorem length_decoded : v.decoded.length = 32 := by
  obtain ⟨-, raw, hraw, hlen⟩ := validateMasterKey_eq_ok.mp v.accepted
  rw [decoded, hraw]
  exact hlen

/-- The standard encoding of 32 bytes is accepted. -/
def ofBytes (raw : Bytes) (h : raw.length = 32) : EncryptionMasterKey where
  text := String.ofList (Base64.encode raw)
  accepted := by
    rw [validateMasterKey_eq_ok, String.toList_ofList, Base64.decode_encode]
    exact ⟨rfl, raw, rfl, h⟩

@[simp] theorem decoded_ofBytes (raw : Bytes) (h : raw.length = 32) :
    (ofBytes raw h).decoded = raw := by
  rw [decoded, ofBytes, String.toList_ofList, Base64.decode_encode]
  rfl

/-- The text is the one that `base64.b64encode` writes. -/
def Standard : Prop := v.text.toList = Base64.encode v.decoded

theorem standard_ofBytes (raw : Bytes) (h : raw.length = 32) : (ofBytes raw h).Standard := by
  rw [Standard, decoded_ofBytes, ofBytes, String.toList_ofList]

theorem text_ascii : ∀ ch ∈ v.text.toList, Bytes.IsAscii ch :=
  Base64.ascii_of_decode v.decode_text

/-- 32 bytes take more than 32 characters. -/
theorem length_text : 32 < v.text.toList.length := by
  have hlen := Base64.length_of_decode v.decode_text
  rw [v.length_decoded] at hlen
  omega

end EncryptionMasterKey

-- ============================================================================
-- crypto.py
-- ============================================================================

/-- `_master_key`, for the value of `settings.encryption_master_key`. -/
def masterKey (encryptionMasterKey : String) : Bytes :=
  let raw := Bytes.ofStr encryptionMasterKey
  if raw.length = 32 then raw
  else (raw.ljust 32 48).take 32

/-- The master key has the length of an AES-256 key, whatever the setting. -/
theorem length_masterKey (text : String) : (masterKey text).length = 32 := by
  rw [masterKey]
  split
  · assumption
  · rw [List.length_take, Bytes.ljust, List.length_append, List.length_replicate]
    omega

/-- AES-GCM without associated data; decryption fails on a wrong key, nonce or
    ciphertext, and gives back what was encrypted on the right ones. -/
structure AesGcm where
  encrypt : Bytes → Bytes → Bytes → Bytes
  decrypt : Bytes → Bytes → Bytes → Option Bytes
  decrypt_encrypt : ∀ {key nonce : Bytes} (data : Bytes), key.length = 32 → nonce.length = 12 →
    decrypt key nonce (encrypt key nonce data) = some data

/-- A result of `os.urandom(n)`. -/
abbrev Random (n : ℕ) : Type := {bs : Bytes // bs.length = n}

/-- What one call of `encrypt_secret` draws. -/
structure Draws where
  dek : Random 32
  dataNonce : Random 12
  dekNonce : Random 12

/-- What `encrypt_secret` returns. -/
structure Encrypted where
  encryptedDek : Bytes
  dekNonce : Bytes
  ciphertext : Bytes
  dataNonce : Bytes
  deriving DecidableEq, Repr

def encryptSecret (aes : AesGcm) (encryptionMasterKey : String) (draws : Draws)
    (plaintext : String) : Encrypted where
  encryptedDek :=
    aes.encrypt (masterKey encryptionMasterKey) draws.dekNonce.val draws.dek.val
  dekNonce := draws.dekNonce.val
  ciphertext := aes.encrypt draws.dek.val draws.dataNonce.val (Bytes.ofStr plaintext)
  dataNonce := draws.dataNonce.val

def decryptSecret (aes : AesGcm) (encryptionMasterKey : String) (e : Encrypted) :
    Except Exc String :=
  match aes.decrypt (masterKey encryptionMasterKey) e.dekNonce e.encryptedDek with
  | none => .error (.external "InvalidTag")
  | some dek =>
      match aes.decrypt dek e.dataNonce e.ciphertext with
      | none => .error (.external "InvalidTag")
      | some plaintext =>
          match Bytes.toStr plaintext with
          | none => .error (.valueError "UnicodeDecodeError")
          | some s => .ok s

/-- Both layers come off again. -/
theorem decryptSecret_encryptSecret (aes : AesGcm) (text : String) (draws : Draws)
    (plaintext : String) :
    decryptSecret aes text (encryptSecret aes text draws plaintext) = .ok plaintext := by
  have hdek : aes.decrypt (masterKey text) draws.dekNonce.val
      (aes.encrypt (masterKey text) draws.dekNonce.val draws.dek.val) = some draws.dek.val :=
    aes.decrypt_encrypt _ (length_masterKey text) draws.dekNonce.property
  have hdata := aes.decrypt_encrypt (Bytes.ofStr plaintext) draws.dek.property
    draws.dataNonce.property
  rw [decryptSecret, encryptSecret]
  dsimp only
  rw [hdek]
  dsimp only
  rw [hdata]
  dsimp only
  rw [Bytes.toStr_ofStr]

-- ============================================================================
-- What the master key depends on
-- ============================================================================

namespace EncryptionMasterKey

variable (v v' : EncryptionMasterKey)

/-- The key that is used is the start of the text, not what the text stands for. -/
theorem masterKey_text : masterKey v.text = (v.text.toList.take 32).map Char.toUInt8 := by
  have hlen := v.length_text
  rw [masterKey, Bytes.ofStr_ascii v.text_ascii, List.length_map, if_neg (by omega),
    Bytes.ljust_of_le (by rw [List.length_map]; omega), List.map_take]

theorem masterKey_eq_iff :
    masterKey v.text = masterKey v'.text ↔ v.text.toList.take 32 = v'.text.toList.take 32 := by
  rw [v.masterKey_text, v'.masterKey_text]
  constructor
  · exact Bytes.map_toUInt8_inj
      (fun ch hch => v.text_ascii ch (List.mem_of_mem_take hch))
      (fun ch hch => v'.text_ascii ch (List.mem_of_mem_take hch))
  · intro h
    rw [h]

/-- Of a standard encoding, the first 32 characters are those of the first 24 bytes. -/
theorem take_encode {raw : Bytes} (h : raw.length = 32) :
    (Base64.encode raw).take 32 = Base64.encode (raw.take 24) := by
  have hstart : (raw.take 24).length = 24 := by
    rw [List.length_take, h]
    rfl
  have hdvd : 3 ∣ (raw.take 24).length := by
    rw [hstart]
    decide
  have hlen : (Base64.encode (raw.take 24)).length = 32 := by
    rw [Base64.length_encode hdvd, hstart]
  rw [← List.take_append_drop 24 raw, Base64.encode_append _ hdvd, List.take_append_drop]
  exact List.take_left' hlen

/-- Two accepted settings give different master keys when their first 32 characters
    differ, and only then; for standard encodings, when the first 24 bytes of the keys
    that they stand for differ. -/
theorem masterKey_ne_iff :
    (masterKey v.text ≠ masterKey v'.text ↔
      v.text.toList.take 32 ≠ v'.text.toList.take 32) ∧
    (v.Standard → v'.Standard →
      (masterKey v.text ≠ masterKey v'.text ↔ v.decoded.take 24 ≠ v'.decoded.take 24)) := by
  refine ⟨not_congr (v.masterKey_eq_iff v'), fun hv hv' => not_congr ?_⟩
  rw [v.masterKey_eq_iff v', hv, hv', take_encode v.length_decoded,
    take_encode v'.length_decoded]
  exact Base64.encode_injective.eq_iff

/-- Two keys that differ in their last byte only. -/
theorem masterKey_not_injective :
    ¬ ∀ v v' : EncryptionMasterKey,
      v.decoded ≠ v'.decoded → masterKey v.text ≠ masterKey v'.text := by
  intro hall
  let v := ofBytes (List.replicate 31 0 ++ [0]) (by decide)
  let v' := ofBytes (List.replicate 31 0 ++ [1]) (by decide)
  have hdecoded : v.decoded ≠ v'.decoded := by
    rw [decoded_ofBytes, decoded_ofBytes]
    decide
  apply hall v v' hdecoded
  rw [v.masterKey_eq_iff v', standard_ofBytes _ _, standard_ofBytes _ _,
    take_encode v.length_decoded, take_encode v'.length_decoded, decoded_ofBytes,
    decoded_ofBytes]
  rfl

end EncryptionMasterKey

end Mtrader.Vault
