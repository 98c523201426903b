/-
  Mtrader.Auth.Security

  The functions of `core/security.py` on Redis: minting, verifying, rotating and
  revoking tokens, and `authenticate_websocket` of `ws/auth.py`.

  - Every Redis command is an operation of its own.  So are a reading of the clock,
    `uuid4`, the signature check, and the minting of one token, which reads the
    clock, draws the id and signs without waiting in between.
  - Only tokens that were minted carry a valid signature: `World.minted` lists their
    claims, and an id that `uuid4` gives has not been given before.
  - Redis answers every command, one at a time; its keys expire as in
    Kv/Expiring.lean.  The keys of the source differ in their prefixes, so that they
    are kept apart as constructors.
-/

import Mtrader.Auth.Token
import Mtrader.Kv.Expiring
import Mtrader.Coroutine.Exec

namespace Mtrader.Auth

open Py Coroutine Expiring

/-- The Redis keys. -/
inductive Key
  /-- `jwt:revoked:{jti}` -/
  | revoked (jti : String)
  /-- `jwt:user:revoke_after:{user_id}` -/
  | revokeAfter (userId : String)
  /-- `jwt:refresh:used:{jti}` -/
  | used (jti : String)
  /-- `jwt:refresh:family:revoked:{family_id}` -/
  | familyRevoked (familyId : String)
  deriving DecidableEq, Repr

/-- A Redis value: the text of an integer, another text, or bytes that are no text. -/
inductive Blob
  | int (i : ℤ)
  | text (s : String)
  | bytes
  deriving DecidableEq, Repr

/-- `bool(value)`. -/
def Blob.truthy : Blob → Bool
  | .int _ => true
  | .text s => s ≠ ""
  | .bytes => true

/-- `int(value.decode())`. -/
def Blob.decodeInt : Blob → Except Exc ℤ
  | .int i => .ok i
  | .text s =>
      match intLiteral s with
      | some i => .ok i
      | none => .error (.valueError ("invalid literal for int() with base 10: " ++ s))
  | .bytes => .error (.valueError "'utf-8' codec can't decode bytes")

/-- What the functions call, and the passing of time. -/
inductive AuthOp
  | now
  | uuid4
  | verifySignature (token : String)
  | mint (d : Draft)
  | exists (k : Key)
  | get (k : Key)
  | set (k : Key) (v : Blob) (ex : ℤ)
  | lpush (userId : String) (at_ : ℤ) (reason : String)
  | tick (seconds : ℕ)

@[reducible] def AuthOp.Ans : AuthOp → Type
  | .now => ℤ
  | .uuid4 => String
  | .verifySignature _ => Claims
  | .mint _ => String × String
  | .exists _ => Bool
  | .get _ => Option Blob
  | .set .. => Unit
  | .lpush .. => Unit
  | .tick _ => Unit

abbrev AuthM : Type → Type := Prog AuthOp.Ans Exc

/-- One operation. -/
abbrev perform (e : AuthOp) : AuthM e.Ans := Prog.op e

/-- A call that waits for Redis, or for time to pass. -/
def AuthOp.suspends : AuthOp → Bool
  | .exists _ => true
  | .get _ => true
  | .set .. => true
  | .lpush .. => true
  | .tick _ => true
  | .now => false
  | .uuid4 => false
  | .verifySignature _ => false
  | .mint _ => false

/-- The dataclass `TokenPair`. -/
structure TokenPair where
  accessToken : String
  refreshToken : String
  accessJti : String
  refreshJti : String
  familyId : String
  deriving DecidableEq, Repr

-- ============================================================================
-- Programs
-- ============================================================================

section

variable (crypto : Crypto) (settings : Settings)

def createAccessToken (subject fingerprint : String) : AuthM (String × String) :=
  perform (.mint (accessDraft settings subject fingerprint))

def createRefreshToken (subject familyId fingerprint : String) : AuthM (String × String) :=
  perform (.mint (refreshDraft settings subject familyId fingerprint))

def createTokenPair (subject fingerprint : String) : AuthM TokenPair := do
  let familyId ← perform .uuid4
  let (accessToken, accessJti) ← createAccessToken settings subject fingerprint
  let (refreshToken, refreshJti) ← createRefreshToken settings subject familyId fingerprint
  return ⟨accessToken, refreshToken, accessJti, refreshJti, familyId⟩

def decodePayload (token : String) : AuthM Claims := do
  let payload ← perform (.verifySignature token)
  let now ← perform .now
  if payload.ValidAt settings now then return payload
  else Prog.raise (.valueError "invalid token")

def isTokenRevoked (jti : String) : AuthM Bool := perform (.exists (.revoked jti))

def revokeToken (jti : String) (expiresIn : ℤ) : AuthM Unit :=
  perform (.set (.revoked jti) (.text "1") (if expiresIn ≤ 0 then 1 else expiresIn))

/-- 90 days, the lifetime of a user's revocation marker. -/
def markerTtl : ℤ := 60 * 60 * 24 * 90

def revokeAllUserTokens (userId reason : String) : AuthM Unit := do
  let now ← perform .now
  perform (.set (.revokeAfter userId) (.int now) markerTtl)
  let at_ ← perform .now
  perform (.lpush userId at_ reason)

/-- `revoke_after and iat <= int(revoke_after.decode())`. -/
def globallyRevoked (iat : ℤ) : Option Blob → Except Exc Bool
  | none => .ok false
  | some marker => do
      if marker.truthy then return iat ≤ (← marker.decodeInt)
      else return false

def verifyToken (token : String) (fingerprint : Option String) : AuthM Claims := do
  let payload ← decodePayload settings token
  if payload.jti = "" then Prog.raise (.valueError "missing jti")
  else if ← isTokenRevoked payload.jti then Prog.raise (.valueError "token revoked")
  else
    let revokeAfter ← perform (.get (.revokeAfter payload.sub))
    if ← Prog.ofExcept (globallyRevoked payload.iat revokeAfter) then
      Prog.raise (.valueError "token globally revoked")
    else if payload.FingerprintOk crypto fingerprint then return payload
    else Prog.raise (.valueError "fingerprint mismatch")

/-- The used key exists: the family is revoked, if there is one. -/
def reuseDetected (familyId : Option String) : AuthM TokenPair := do
  match present familyId with
  | some fid =>
      perform (.set (.familyRevoked fid) (.text "1") (60 * 60 * 24 * settings.jwtRefreshTtlDays))
  | none => pure ()
  Prog.raise (.valueError "refresh token reuse detected")

/-- `family_id and await redis.exists(...)`. -/
def familyIsRevoked (familyId : Option String) : AuthM Bool :=
  match present familyId with
  | some fid => perform (.exists (.familyRevoked fid))
  | none => pure false

/-- The markers of a rotation, and the new pair of the family. -/
def renew (payload : Claims) (fingerprint : String) : AuthM TokenPair := do
  let nowTs ← perform .now
  let ttl := max 1 (payload.exp - nowTs)
  perform (.set (.used payload.jti) (.text "1") ttl)
  revokeToken payload.jti ttl
  let familyId := payload.fid.getD "None"
  let (access, accessJti) ← createAccessToken settings payload.sub fingerprint
  let (newRefresh, refreshJti) ← createRefreshToken settings payload.sub familyId fingerprint
  return ⟨access, newRefresh, accessJti, refreshJti, familyId⟩

def rotateRefreshToken (refreshToken fingerprint : String) : AuthM TokenPair := do
  let payload ← verifyToken crypto settings refreshToken (some fingerprint)
  if payload.typ ≠ .refresh then Prog.raise (.valueError "not refresh token")
  else if ← perform (.exists (.used payload.jti)) then reuseDetected settings payload.fid
  else if ← familyIsRevoked payload.fid then Prog.raise (.valueError "token family revoked")
  else renew settings payload fingerprint

/-- `authenticate_websocket` on the query parameters `token` and `fp`. -/
def authenticateWebsocket (token fp : Option String) : AuthM Claims :=
  match present token with
  | some token => verifyToken crypto settings token fp
  | none => Prog.raise (.valueError "missing token")

end

-- ============================================================================
-- The environment
-- ============================================================================

structure World where
  now : ℤ
  redis : Store Key Blob := .empty
  /-- The ids that `uuid4` has given. -/
  issued : List String := []
  /-- The claims of the tokens that have been signed, newest first. -/
  minted : List Claims := []

/-- An id that `uuid4` can give. -/
def World.Fresh (w : World) (u : String) : Prop := u ≠ "" ∧ u ∉ w.issued

instance (w : World) (u : String) : Decidable (w.Fresh u) :=
  inferInstanceAs (Decidable (_ ∧ _))

/-- The world after `uuid4` has given `u`. -/
def World.draw (w : World) (u : String) : World := { w with issued := u :: w.issued }

/-- The world after a token has been minted under the id `u`. -/
def World.sign (w : World) (c : Claims) : World :=
  { w with issued := c.jti :: w.issued, minted := c :: w.minted }

/-- The world after a key has been set. -/
def World.set (w : World) (k : Key) (v : Blob) (ex : ℤ) : World :=
  { w with redis := w.redis.set w.now k v ex }

/-- The world some seconds later. -/
def World.later (w : World) (seconds : ℕ) : World := { w with now := w.now + seconds }

/-- The key exists now. -/
def World.Live (w : World) (k : Key) : Prop := w.redis.Live w.now k

instance (w : World) (k : Key) : Decidable (w.Live k) :=
  inferInstanceAs (Decidable (w.redis.Live w.now k))

/-- The value of a key now. -/
def World.get (w : World) (k : Key) : Option Blob := w.redis.get w.now k

/-- The claims a token carries, if its signature is valid. -/
def World.opens (crypto : Crypto) (w : World) (token : String) : Option Claims :=
  (crypto.payload token).filter fun c => c ∈ w.minted

/-- How the operations are answered. -/
def authEnv (crypto : Crypto) (settings : Settings) : Env World AuthOp.Ans Exc :=
  fun w e a w' => match e with
    | .now => a = .ok w.now ∧ w' = w
    | .uuid4 => ∃ u, w.Fresh u ∧ a = .ok u ∧ w' = w.draw u
    | .verifySignature token =>
        (a = match w.opens crypto token with
          | some c => .ok c
          | none => .error (.valueError "invalid token")) ∧ w' = w
    | .mint d => ∃ u, w.Fresh u ∧
        a = .ok (crypto.encode (buildClaims crypto settings d w.now u), u) ∧
        w' = w.sign (buildClaims crypto settings d w.now u)
    | .exists k => a = .ok (decide (w.Live k)) ∧ w' = w
    | .get k => a = .ok (w.get k) ∧ w' = w
    | .set k v ex =>
        if 0 < ex then a = .ok () ∧ w' = w.set k v ex
        else a = .error (.external "invalid expire time in 'set' command") ∧ w' = w
    | .lpush .. => a = .ok () ∧ w' = w
    | .tick seconds => a = .ok () ∧ w' = w.later seconds

-- ============================================================================
-- Calls
-- ============================================================================

/-- A call of one of the functions, or a clock step. -/
inductive AuthCall
  | createTokenPair (subject fingerprint : String)
  | createAccessToken (subject fingerprint : String)
  | createRefreshToken (subject familyId fingerprint : String)
  | verifyToken (token : String) (fingerprint : Option String)
  | rotateRefreshToken (token fingerprint : String)
  | revokeToken (jti : String) (expiresIn : ℤ)
  | revokeAllUserTokens (userId reason : String)
  | tick (seconds : ℕ)
  deriving DecidableEq, Repr

/-- The program of a call; what it returns is dropped. -/
def AuthCall.prog (crypto : Crypto) (settings : Settings) : AuthCall → AuthM Unit
  | .createTokenPair subject fingerprint => do
      let _ ← Auth.createTokenPair settings subject fingerprint
  | .createAccessToken subject fingerprint => do
      let _ ← Auth.createAccessToken settings subject fingerprint
  | .createRefreshToken subject familyId fingerprint => do
      let _ ← Auth.createRefreshToken settings subject familyId fingerprint
  | .verifyToken token fingerprint => do
      let _ ← Auth.verifyToken crypto settings token fingerprint
  | .rotateRefreshToken token fingerprint => do
      let _ ← Auth.rotateRefreshToken crypto settings token fingerprint
  | .revokeToken jti expiresIn => Auth.revokeToken jti expiresIn
  | .revokeAllUserTokens userId reason => Auth.revokeAllUserTokens userId reason
  | .tick seconds => perform (.tick seconds)

end Mtrader.Auth
