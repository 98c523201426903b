/-
  Mtrader.Auth.Plain

  A `Crypto` without secrets: a token is its claims written out, and a digest is the
  text itself.  Runs are played with it.
-/

import Mtrader.Auth.Token
import Mtrader.Codec.Fields

namespace Mtrader.Auth

/-- The claims as texts, in the order of the structure. -/
def Claims.fields (c : Claims) : List (List Char) :=
  [c.sub.toList, c.iss.toList, c.aud.toList, Fields.ofInt c.iat, Fields.ofInt c.nbf,
    Fields.ofInt c.exp, c.jti.toList, if c.typ = .access then ['a'] else ['r'],
    Fields.ofOption (c.fid.map String.toList), Fields.ofOption (c.fp.map String.toList)]

def Claims.ofFields : List (List Char) → Option Claims
  | [sub, iss, aud, iat, nbf, exp, jti, typ, fid, fp] =>
      some
        { sub := String.ofList sub, iss := String.ofList iss, aud := String.ofList aud
          iat := Fields.toInt iat, nbf := Fields.toInt nbf, exp := Fields.toInt exp
          jti := String.ofList jti, typ := if typ = ['a'] then .access else .refresh
          fid := (Fields.toOption fid).map String.ofList
          fp := (Fields.toOption fp).map String.ofList }
  | _ => none

theorem Claims.ofFields_fields (c : Claims) : Claims.ofFields c.fields = some c := by
  have htext : ∀ o : Option String, (o.map String.toList).map String.ofList = o := by
    intro o
    cases o with
    | none => rfl
    | some s => exact congrArg some String.ofList_toList
  have htyp : (if (if c.typ = .access then ['a'] else ['r']) = ['a'] then TokenType.access
      else .refresh) = c.typ := by
    cases c.typ <;> rfl
  simp only [Claims.fields, Claims.ofFields, Fields.toInt_ofInt, Fields.toOption_ofOption,
    String.ofList_toList, htext, htyp]

def plainCrypto : Crypto where
  encode c := String.ofList (Fields.write c.fields)
  payload token := Claims.ofFields (Fields.read token.toList)
  payload_encode c := by
    rw [String.toList_ofList, Fields.read_write, Claims.ofFields_fields]
  sha256 s := s

/-- The settings of `tests/conftest.py`. -/
def testSettings : Settings where
  jwtIssuer := "test-issuer"
  jwtAudience := "test-aud"
  jwtAccessTtlMinutes := 15
  jwtRefreshTtlDays := 7
  accessTtl_pos := by decide
  refreshTtl_pos := by decide

/-- The refresh token of the first pair that a played run mints, at time 0. -/
def firstRefresh (settings : Settings) : Claims :=
  buildClaims plainCrypto settings (refreshDraft settings "alice" "u" "laptop") 0 "uuuu"

def firstToken (settings : Settings) : String := plainCrypto.encode (firstRefresh settings)

end Mtrader.Auth
