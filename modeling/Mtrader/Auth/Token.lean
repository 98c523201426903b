/-
  Mtrader.Auth.Token

  The tokens of `core/security.py`: their claims, how `_build_claims` fills them
  in, and when `jwt.decode` accepts them.

  Times are whole seconds, as `int(now.timestamp())` reads them.  `Crypto` stands
  for python-jose's encoding and signature check and for SHA-256; of the latter
  nothing is assumed.
-/

import Mtrader.Py.Value

namespace Mtrader.Auth

open Py

/-- The settings of `core/config.py` that the tokens depend on, as
    `_validate_ttls` admits them. -/
structure Settings where
  jwtIssuer : String
  jwtAudience : String
  jwtAccessTtlMinutes : ℤ
  jwtRefreshTtlDays : ℤ
  accessTtl_pos : 0 < jwtAccessTtlMinutes
  refreshTtl_pos : 0 < jwtRefreshTtlDays

/-- The claim `typ`. -/
inductive TokenType
  | access | refresh
  deriving DecidableEq, Repr

/-- The claims of a token; `fid` and `fp` may be missing. -/
structure Claims where
  sub : String
  iss : String
  aud : String
  iat : ℤ
  nbf : ℤ
  exp : ℤ
  jti : String
  typ : TokenType
  fid : Option String
  fp : Option String
  deriving DecidableEq, Repr

/-- What python-jose and hashlib compute. -/
structure Crypto where
  /-- `jwt.encode(claims, private_key, algorithm="RS256")`. -/
  encode : Claims → String
  /-- The claims that a token carries under a valid signature. -/
  payload : String → Option Claims
  payload_encode : ∀ c, payload (encode c) = some c
  /-- `hashlib.sha256(s.encode()).hexdigest()`. -/
  sha256 : String → String

/-- `if value:` for an optional text. -/
def present (value : Option String) : Option String := value.filter fun s => s ≠ ""

theorem present_eq_some {value : Option String} {s : String} :
    present value = some s ↔ value = some s ∧ s ≠ "" := by
  rw [present, Option.filter_eq_some_iff, decide_eq_true_iff]

/-- The arguments of `_build_claims`; the lifetime is in seconds. -/
structure Draft where
  subject : String
  ttl : ℤ
  tokenType : TokenType
  familyId : Option String := none
  fingerprint : Option String := none

/-- `_build_claims`, at time `now` and with the fresh id `jti`. -/
def buildClaims (crypto : Crypto) (settings : Settings) (d : Draft) (now : ℤ) (jti : String) :
    Claims where
  sub := d.subject
  iss := settings.jwtIssuer
  aud := settings.jwtAudience
  iat := now
  nbf := now
  exp := now + d.ttl
  jti := jti
  typ := d.tokenType
  fid := present d.familyId
  fp := (present d.fingerprint).map crypto.sha256

/-- `timedelta(minutes=settings.jwt_access_ttl_minutes)`. -/
def Settings.accessTtl (settings : Settings) : ℤ := 60 * settings.jwtAccessTtlMinutes

/-- `timedelta(days=settings.jwt_refresh_ttl_days)`. -/
def Settings.refreshTtl (settings : Settings) : ℤ := 60 * 60 * 24 * settings.jwtRefreshTtlDays

/-- The lifetime of a token by its type. -/
def Settings.ttl (settings : Settings) : TokenType → ℤ
  | .access => settings.accessTtl
  | .refresh => settings.refreshTtl

/-- What `create_access_token` passes to `_build_claims`. -/
def accessDraft (settings : Settings) (subject fingerprint : String) : Draft where
  subject := subject
  ttl := settings.accessTtl
  tokenType := .access
  fingerprint := some fingerprint

/-- What `create_refresh_token` passes to `_build_claims`. -/
def refreshDraft (settings : Settings) (subject familyId fingerprint : String) : Draft where
  subject := subject
  ttl := settings.refreshTtl
  tokenType := .refresh
  familyId := some familyId
  fingerprint := some fingerprint

/-- The claims that `jwt.decode` accepts at time `now`; a token is expired when
    `exp < now`. -/
def Claims.ValidAt (settings : Settings) (now : ℤ) (c : Claims) : Prop :=
  c.iss = settings.jwtIssuer ∧ c.aud = settings.jwtAudience ∧ c.nbf ≤ now ∧ now ≤ c.exp

instance (settings : Settings) (now : ℤ) (c : Claims) : Decidable (c.ValidAt settings now) :=
  inferInstanceAs (Decidable (_ ∧ _))

/-- `payload.get("fp") != sha256(fingerprint)`, compared only when a fingerprint is
    given. -/
def Claims.FingerprintOk (crypto : Crypto) (fingerprint : Option String) (c : Claims) : Prop :=
  ∀ f, present fingerprint = some f → c.fp = some (crypto.sha256 f)

instance (crypto : Crypto) (fingerprint : Option String) (c : Claims) :
    Decidable (c.FingerprintOk crypto fingerprint) := by
  unfold Claims.FingerprintOk
  exact match present fingerprint with
    | none => isTrue nofun
    | some f =>
        if h : c.fp = some (crypto.sha256 f) then
          isTrue fun _ hf => by
            cases hf
            exact h
        else isFalse fun hall => h (hall f rfl)

/-- Without a fingerprint the comparison is left out. -/
theorem Claims.fingerprintOk_of_absent {crypto : Crypto} {fingerprint : Option String} {c : Claims}
    (h : present fingerprint = none) : c.FingerprintOk crypto fingerprint := by
  intro f hf
  rw [h] at hf
  cases hf

/-- A token accepts the fingerprint it was minted for. -/
theorem buildClaims_fingerprintOk (crypto : Crypto) (settings : Settings) (d : Draft) (now : ℤ)
    (jti : String) :
    (buildClaims crypto settings d now jti).FingerprintOk crypto d.fingerprint := by
  intro f hf
  simp only [buildClaims, hf, Option.map_some]

end Mtrader.Auth
