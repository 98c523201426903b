/-
  Mtrader.Auth.Websocket

  Which tokens `authenticate_websocket` accepts: any that `verify_token` accepts,
  where the fingerprint is compared only if the parameter `fp` is given and not
  empty.
-/

import Mtrader.Auth.Runs
import Mtrader.Auth.Plain

namespace Mtrader.Auth

open Py Coroutine Expiring

variable {crypto : Crypto} {settings : Settings} {w w₀ : World} {c : Claims} {f token : String}

/-- The token was made by `create_access_token` or `create_refresh_token` for the
    fingerprint `f`. -/
inductive Minted (crypto : Crypto) (settings : Settings) (f token : String) : Prop
  | access {w : World} {subject jti : String} {t' : Trail World AuthOp.Ans Exc}
      (hex : Exec (authEnv crypto settings) ⟨w, []⟩ (createAccessToken settings subject f)
        (.ok (token, jti)) t') : Minted crypto settings f token
  | refresh {w : World} {subject familyId jti : String} {t' : Trail World AuthOp.Ans Exc}
      (hex : Exec (authEnv crypto settings) ⟨w, []⟩
        (createRefreshToken settings subject familyId f) (.ok (token, jti)) t') :
      Minted crypto settings f token

/-- What `mint` returns is the encoding of the claims it has built. -/
theorem exec_mint {d : Draft} {jti : String} {t' : Trail World AuthOp.Ans Exc}
    (hex : Exec (authEnv crypto settings) ⟨w, []⟩ (perform (.mint d)) (.ok (token, jti)) t') :
    token = crypto.encode (buildClaims crypto settings d w.now jti) := by
  obtain ⟨w', ⟨u, -, hans, -⟩, -⟩ := exec_op.mp hex
  cases hans
  rfl

/-- A minted token carries the digest of the fingerprint it was minted for, unless that
    is empty. -/
theorem Minted.payload (h : Minted crypto settings f token) :
    ∃ c, crypto.payload token = some c ∧ c.fp = (present (some f)).map crypto.sha256 := by
  have hencode : ∀ {d : Draft} {now : ℤ} {jti : String}, d.fingerprint = some f →
      token = crypto.encode (buildClaims crypto settings d now jti) →
      ∃ c, crypto.payload token = some c ∧ c.fp = (present (some f)).map crypto.sha256 := by
    intro d now jti hfp htoken
    refine ⟨buildClaims crypto settings d now jti, ?_, ?_⟩
    · rw [htoken, crypto.payload_encode]
    · rw [← hfp]
      rfl
  cases h with
  | access hex => exact hencode rfl (exec_mint hex)
  | refresh hex => exact hencode rfl (exec_mint hex)

/-- Alone, `authenticate_websocket` changes nothing and returns the claims of exactly
    the tokens that are present and that `verify_token` accepts. -/
theorem authenticateWebsocket_wp {t : Trail World AuthOp.Ans Exc} {param fp : Option String} :
    wp (authEnv crypto settings) (authenticateWebsocket crypto settings param fp)
      (fun out t' => t'.world = t.world ∧ ∀ c, out = .ok c ↔
        ∃ token, present param = some token ∧ t.world.Accepts crypto settings token fp c) t := by
  unfold authenticateWebsocket
  cases hparam : present param with
  | some token =>
      refine wp_mono verifyToken_wp fun out t' h => ⟨h.1, fun c => (h.2 c).trans ?_⟩
      constructor
      · intro haccepts
        exact ⟨token, rfl, haccepts⟩
      · rintro ⟨_, htoken, haccepts⟩
        cases htoken
        exact haccepts
  | none =>
      refine ⟨rfl, fun c => iff_of_false nofun ?_⟩
      rintro ⟨_, hnone, -⟩
      cases hnone

/-- A token that `verify_token` accepts authenticates a websocket. -/
theorem exists_authenticated {fp : Option String} (htoken : token ≠ "")
    (h : w.Accepts crypto settings token fp c) :
    ∃ t', Exec (authEnv crypto settings) ⟨w, []⟩
      (authenticateWebsocket crypto settings (some token) fp) (.ok c) t' := by
  obtain ⟨out, t', hex⟩ := exists_exec crypto settings
    (authenticateWebsocket crypto settings (some token) fp) w
  have hout := ((hex.sound authenticateWebsocket_wp).2 c).mpr
    ⟨token, present_eq_some.mpr ⟨rfl, htoken⟩, h⟩
  rw [hout] at hex
  exact ⟨t', hex⟩

/-- Whatever Redis holds, a minted token is accepted only without a fingerprint or with
    one that has the digest of the fingerprint it was minted for. -/
theorem authenticateWebsocket_fingerprint {fp : Option String} {t' : Trail World AuthOp.Ans Exc}
    (hminted : Minted crypto settings f token)
    (hauth : Exec (authEnv crypto settings) ⟨w, []⟩
      (authenticateWebsocket crypto settings (some token) fp) (.ok c) t') :
    fp = none ∨ fp = some "" ∨
      ∃ p, fp = some p ∧ f ≠ "" ∧ crypto.sha256 p = crypto.sha256 f := by
  have hout := (hauth.sound authenticateWebsocket_wp).2 c
  obtain ⟨_, htoken, haccepts⟩ := hout.mp rfl
  obtain ⟨htoken, -⟩ := present_eq_some.mp htoken
  cases htoken
  obtain ⟨c', hpayload, hfp⟩ := hminted.payload
  have hc : c' = c := by
    have hopens := (World.opens_eq_some.mp haccepts.opens).1
    exact Option.some.inj (hpayload.symm.trans hopens)
  cases fp with
  | none => exact .inl rfl
  | some p =>
      by_cases hempty : p = ""
      · rw [hempty]
        exact .inr (.inl rfl)
      · have hdigest := haccepts.fingerprint p (present_eq_some.mpr ⟨rfl, hempty⟩)
        rw [← hc, hfp, Option.map_eq_some_iff] at hdigest
        obtain ⟨f', hf', hsha⟩ := hdigest
        obtain ⟨heq, hne⟩ := present_eq_some.mp hf'
        cases heq
        exact .inr (.inr ⟨p, rfl, hne, hsha.symm⟩)

/-- An access token of alice, minted at time 0 for her laptop. -/
def laptopAccess : Claims :=
  buildClaims plainCrypto testSettings (accessDraft testSettings "alice" "laptop") 0 "id"

theorem laptopAccess_minted :
    Minted plainCrypto testSettings "laptop" (plainCrypto.encode laptopAccess) :=
  .access (w := .start 0) (exec_op.mpr ⟨_, ⟨"id", by decide, rfl, rfl⟩, rfl⟩)

/-- Right after its minting it is accepted, with its fingerprint and with none. -/
theorem laptopAccess_accepts {fp : Option String}
    (hfp : laptopAccess.FingerprintOk plainCrypto fp) :
    ((World.start 0).sign laptopAccess).Accepts plainCrypto testSettings
      (plainCrypto.encode laptopAccess) fp laptopAccess where
  opens := World.opens_encode List.mem_cons_self
  valid := by decide
  jti := by decide
  not_revoked := nofun
  not_globally := rfl
  fingerprint := hfp

theorem authenticateWebsocket_fingerprint_laptop :
    ∃ t', Exec (authEnv plainCrypto testSettings) ⟨(World.start 0).sign laptopAccess, []⟩
        (authenticateWebsocket plainCrypto testSettings (some (plainCrypto.encode laptopAccess))
          (some "laptop")) (.ok laptopAccess) t' ∧
      (some "laptop" = none ∨ some "laptop" = some "" ∨
        ∃ p, some "laptop" = some p ∧ "laptop" ≠ "" ∧
          plainCrypto.sha256 p = plainCrypto.sha256 "laptop") := by
  have hfp : laptopAccess.FingerprintOk plainCrypto (some "laptop") :=
    buildClaims_fingerprintOk plainCrypto testSettings
      (accessDraft testSettings "alice" "laptop") 0 "id"
  obtain ⟨t', hex⟩ := exists_authenticated (by decide +kernel) (laptopAccess_accepts hfp)
  exact ⟨t', hex, authenticateWebsocket_fingerprint laptopAccess_minted hex⟩

/-- Alice's access token, presented without `fp`, is accepted. -/
theorem not_authenticateWebsocket_bound :
    ¬ ∀ (crypto : Crypto) (settings : Settings) (w : World) (f token : String)
        (fp : Option String) (c : Claims) (t' : Trail World AuthOp.Ans Exc),
      Minted crypto settings f token →
      Exec (authEnv crypto settings) ⟨w, []⟩
        (authenticateWebsocket crypto settings (some token) fp) (.ok c) t' →
      c.typ = .access ∧ fp = some f := by
  intro hall
  have hfp : laptopAccess.FingerprintOk plainCrypto none := Claims.fingerprintOk_of_absent rfl
  obtain ⟨t', hex⟩ := exists_authenticated (by decide +kernel) (laptopAccess_accepts hfp)
  have hbound := hall _ _ _ _ _ _ _ _ laptopAccess_minted hex
  cases hbound.2

end Mtrader.Auth
