/-
  Mtrader.Frontend.TokenStore

  How `services/auth.ts` writes the refresh token into `localStorage` and reads it back.

  A text is taken by its character codes.  JavaScript writes a character beyond the first
  plane as two codes; these are all beyond Latin-1, as the one code here is, so that
  `btoa` refuses the same texts.
-/

import Mtrader.Codec.Forgiving

namespace Mtrader.Frontend

open Py (Bytes)

/-- What the code of the page throws. -/
inductive JsError
  | error (message : String)
  /-- A request has failed; without a response there is no status. -/
  | axios (status : Option ℕ)
  /-- `InvalidCharacterError` of `atob` and `btoa`. -/
  | invalidCharacter
  /-- `QuotaExceededError` of `localStorage`. -/
  | quotaExceeded
  /-- What a queued callback throws. -/
  | callback
  deriving DecidableEq

def charCodes (text : String) : List ℕ := text.toList.map Char.toNat

/-- `btoa`, of a text with these character codes. -/
def btoa (codes : List ℕ) : Except JsError (List Char) :=
  if codes.all fun n => n < 256 then .ok (Base64.encode (codes.map UInt8.ofNat))
  else .error .invalidCharacter

/-- `atob`: the character codes of the text. -/
def atob (text : String) : Except JsError (List ℕ) :=
  match Base64.forgiving text.toList with
  | some bs => .ok (bs.map UInt8.toNat)
  | none => .error .invalidCharacter

/-- `ENC_KEY`. -/
def encKey : String := "mtrader-auth-key"

/-- `btoa(ENC_KEY).slice(0, 16)`. -/
def key : List ℕ :=
  match btoa (charCodes encKey) with
  | .ok text => (text.take 16).map Char.toNat
  | .error _ => []

/-- `c.charCodeAt(0) ^ key.charCodeAt(i % key.length)`, for each character. -/
def mask (codes : List ℕ) : List ℕ := codes.mapIdx fun i c => c ^^^ key.getD (i % key.length) 0

def encrypt (text : String) : Except JsError String :=
  (btoa (mask (charCodes text))).map String.ofList

def decrypt (text : String) : Except JsError String :=
  (atob text).map fun raw => String.ofList ((mask raw).map Char.ofNat)

-- ============================================================================
-- The mask
-- ============================================================================

theorem key_lt (n : ℕ) : key.getD (n % key.length) 0 < 256 := by
  have hlength : key.length = 16 := by decide +kernel
  have hcodes : ∀ i < 16, key.getD i 0 < 256 := by decide +kernel
  rw [hlength]
  exact hcodes _ (Nat.mod_lt n (by omega))

theorem xor_lt_iff {c k : ℕ} (hk : k < 256) : c ^^^ k < 256 ↔ c < 256 := by
  constructor
  · intro h
    have hback : c ^^^ k ^^^ k < 2 ^ 8 := Nat.xor_lt_two_pow h hk
    rwa [Nat.xor_assoc, Nat.xor_self, Nat.xor_zero] at hback
  · intro hc
    exact Nat.xor_lt_two_pow (n := 8) hc hk

/-- The mask comes off when it is put on again. -/
theorem mask_mask (codes : List ℕ) : mask (mask codes) = codes := by
  apply List.ext_getElem
  · simp [mask]
  · intro i hi hi'
    simp only [mask, List.getElem_mapIdx]
    rw [Nat.xor_assoc, Nat.xor_self, Nat.xor_zero]

theorem mask_lt_iff {codes : List ℕ} : (∀ n ∈ mask codes, n < 256) ↔ ∀ n ∈ codes, n < 256 := by
  simp only [List.forall_mem_iff_forall_getElem, mask, List.length_mapIdx, List.getElem_mapIdx]
  exact forall₂_congr fun i _ => xor_lt_iff (key_lt i)

-- ============================================================================
-- Round trips
-- ============================================================================

theorem btoa_eq_ok {codes : List ℕ} {text : List Char} :
    btoa codes = .ok text ↔
      (∀ n ∈ codes, n < 256) ∧ text = Base64.encode (codes.map UInt8.ofNat) := by
  have hall : (codes.all fun n => n < 256) = true ↔ ∀ n ∈ codes, n < 256 := by simp
  unfold btoa
  split
  next h =>
    rw [Except.ok.injEq, eq_comm]
    exact (and_iff_right (hall.mp h)).symm
  next h => exact iff_of_false (by simp) fun hcodes => h (hall.mpr hcodes.1)

/-- `atob` gives back what `btoa` was given. -/
theorem atob_btoa {codes : List ℕ} {text : List Char} (h : btoa codes = .ok text) :
    atob (String.ofList text) = .ok codes := by
  obtain ⟨hcodes, rfl⟩ := btoa_eq_ok.mp h
  have hback : (codes.map UInt8.ofNat).map UInt8.toNat = codes := by
    rw [List.map_map]
    refine (List.map_congr_left fun n hn => ?_).trans (List.map_id codes)
    exact UInt8.toNat_ofNat_of_lt' (hcodes n hn)
  rw [atob, String.toList_ofList, Base64.forgiving_encode]
  exact congrArg Except.ok hback

theorem ofNat_charCodes (text : String) :
    String.ofList ((charCodes text).map Char.ofNat) = text := by
  have hback : (fun ch : Char => Char.ofNat ch.toNat) = id := funext fun ch => ch.ofNat_toNat
  rw [charCodes, List.map_map]
  show String.ofList (text.toList.map fun ch => Char.ofNat ch.toNat) = text
  rw [hback, List.map_id, String.ofList_toList]

/-- `encrypt` takes exactly the texts in Latin-1. -/
theorem encrypt_isOk_iff {text : String} :
    (∃ enc, encrypt text = .ok enc) ↔ ∀ ch ∈ text.toList, ch.toNat < 256 := by
  have hcodes : (∀ n ∈ charCodes text, n < 256) ↔ ∀ ch ∈ text.toList, ch.toNat < 256 := by
    simp [charCodes]
  rw [← hcodes, ← mask_lt_iff]
  constructor
  · rintro ⟨enc, h⟩
    cases hbtoa : btoa (mask (charCodes text)) with
    | ok out => exact (btoa_eq_ok.mp hbtoa).1
    | error x =>
        rw [encrypt, hbtoa] at h
        cases h
  · intro hlt
    have hbtoa := btoa_eq_ok.mpr ⟨hlt, rfl⟩
    exact ⟨_, by rw [encrypt, hbtoa]; rfl⟩

/-- `decrypt` gives back what `encrypt` was given. -/
theorem decrypt_encrypt {text enc : String} (h : encrypt text = .ok enc) :
    decrypt enc = .ok text := by
  cases hbtoa : btoa (mask (charCodes text)) with
  | error x =>
      rw [encrypt, hbtoa] at h
      cases h
  | ok out =>
      rw [encrypt, hbtoa] at h
      cases h
      rw [decrypt, atob_btoa hbtoa]
      show Except.ok (String.ofList ((mask (mask (charCodes text))).map Char.ofNat)) = .ok text
      rw [mask_mask, ofNat_charCodes]

/-- Only the empty text is written as the empty text. -/
theorem encrypt_eq_empty_iff {text enc : String} (h : encrypt text = .ok enc) :
    enc = "" ↔ text = "" := by
  have hempty : encrypt "" = .ok "" := rfl
  constructor
  · rintro rfl
    have hback := decrypt_encrypt h
    rw [decrypt_encrypt hempty] at hback
    exact (Except.ok.inj hback).symm
  · rintro rfl
    rw [hempty] at h
    exact (Except.ok.inj h).symm

/-- Exactly the texts in Latin-1 can be written, and these are read back as they were; only
    the empty one counts as no token. -/
theorem encrypt_decrypt_iff {text : String} :
    (∃ enc, encrypt text = .ok enc ∧ decrypt enc = .ok text ∧ (enc = "" ↔ text = "")) ↔
      ∀ ch ∈ text.toList, ch.toNat < 256 := by
  rw [← encrypt_isOk_iff]
  constructor
  · rintro ⟨enc, h, -⟩
    exact ⟨enc, h⟩
  · rintro ⟨enc, h⟩
    exact ⟨enc, h, decrypt_encrypt h, encrypt_eq_empty_iff h⟩

end Mtrader.Frontend
