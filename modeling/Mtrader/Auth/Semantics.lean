/-
  Mtrader.Auth.Semantics

  What the functions of Security.lean do when they run alone.

  - One rule for each operation rewrites the weakest precondition.
  - `verifyToken_wp` and `rotateRefreshToken_wp` say when a token is accepted
    (`World.Accepts`, `World.Rotates`) and what a rotation leaves behind.
-/

import Mtrader.Auth.Security
import Mtrader.Coroutine.Discipline

namespace Mtrader.Auth

open Py Coroutine Expiring

variable {crypto : Crypto} {settings : Settings} {R : Type}
variable {t : Trail World AuthOp.Ans Exc} {Q : Except Exc R → Trail World AuthOp.Ans Exc → Prop}
variable {w w' : World} {c : Claims} {token : String}

-- ============================================================================
-- Rules for the operations
-- ============================================================================

theorem wp_now_bind {f : ℤ → AuthM R} :
    wp (authEnv crypto settings) (perform .now >>= f) Q t ↔
      wp (authEnv crypto settings) (f t.world.now) Q
        (t.record .now (.ok t.world.now) t.world) :=
  wp_op_bind_of_answer fun _ _ => Iff.rfl

theorem wp_exists_bind {k : Key} {f : Bool → AuthM R} :
    wp (authEnv crypto settings) (perform (.exists k) >>= f) Q t ↔
      wp (authEnv crypto settings) (f (decide (t.world.Live k))) Q
        (t.record (.exists k) (.ok (decide (t.world.Live k))) t.world) :=
  wp_op_bind_of_answer fun _ _ => Iff.rfl

theorem wp_get_bind {k : Key} {f : Option Blob → AuthM R} :
    wp (authEnv crypto settings) (perform (.get k) >>= f) Q t ↔
      wp (authEnv crypto settings) (f (t.world.get k)) Q
        (t.record (.get k) (.ok (t.world.get k)) t.world) :=
  wp_op_bind_of_answer fun _ _ => Iff.rfl

theorem authEnv_set {k : Key} {v : Blob} {ex : ℤ} {a : Except Exc Unit} (hex : 0 < ex) :
    authEnv crypto settings w (.set k v ex) a w' ↔ a = .ok () ∧ w' = w.set k v ex := by
  simp only [authEnv, if_pos hex]

theorem wp_set_bind {k : Key} {v : Blob} {ex : ℤ} {f : Unit → AuthM R} (hex : 0 < ex) :
    wp (authEnv crypto settings) (perform (.set k v ex) >>= f) Q t ↔
      wp (authEnv crypto settings) (f ()) Q
        (t.record (.set k v ex) (.ok ()) (t.world.set k v ex)) :=
  wp_op_bind_of_answer fun _ _ => authEnv_set hex

theorem wp_mint_bind {d : Draft} {f : String × String → AuthM R} :
    wp (authEnv crypto settings) (perform (.mint d) >>= f) Q t ↔
      ∀ u, t.world.Fresh u →
        wp (authEnv crypto settings)
          (f (crypto.encode (buildClaims crypto settings d t.world.now u), u)) Q
          (t.record (.mint d)
            (.ok (crypto.encode (buildClaims crypto settings d t.world.now u), u))
            (t.world.sign (buildClaims crypto settings d t.world.now u))) := by
  rw [wp_op_bind]
  constructor
  · intro h u hu
    exact h.1 _ _ ⟨u, hu, rfl, rfl⟩
  · intro h
    constructor
    · rintro r w' ⟨u, hu, hr, rfl⟩
      cases hr
      exact h u hu
    · rintro x w' ⟨u, hu, hx, -⟩
      cases hx

theorem wp_verifySignature_bind {f : Claims → AuthM R} :
    wp (authEnv crypto settings) (perform (.verifySignature token) >>= f) Q t ↔
      match t.world.opens crypto token with
      | some c => wp (authEnv crypto settings) (f c) Q
          (t.record (.verifySignature token) (.ok c) t.world)
      | none => Q (.error (.valueError "invalid token"))
          (t.record (.verifySignature token) (.error (.valueError "invalid token")) t.world) := by
  cases hopens : t.world.opens crypto token with
  | some c =>
      apply wp_op_bind_of_answer
      intro a w'
      simp only [authEnv, hopens]
  | none =>
      apply wp_op_bind_of_error
      intro a w'
      simp only [authEnv, hopens]

-- ============================================================================
-- Verification
-- ============================================================================

/-- `verify_token` accepts the token, whose claims are `c`. -/
structure World.Accepts (crypto : Crypto) (settings : Settings) (w : World) (token : String)
    (fingerprint : Option String) (c : Claims) : Prop where
  opens : w.opens crypto token = some c
  valid : c.ValidAt settings w.now
  jti : c.jti ≠ ""
  not_revoked : ¬ w.Live (.revoked c.jti)
  not_globally : globallyRevoked c.iat (w.get (.revokeAfter c.sub)) = .ok false
  fingerprint : c.FingerprintOk crypto fingerprint

theorem World.Accepts.unique {fingerprint : Option String} {c' : Claims}
    (h : w.Accepts crypto settings token fingerprint c)
    (h' : w.Accepts crypto settings token fingerprint c') : c = c' :=
  Option.some.inj (h.opens.symm.trans h'.opens)

/-- Alone, `verify_token` changes nothing and returns the claims of exactly the tokens
    it accepts. -/
theorem verifyToken_wp {fingerprint : Option String} :
    wp (authEnv crypto settings) (verifyToken crypto settings token fingerprint)
      (fun out t' => t'.world = t.world ∧
        ∀ c, out = .ok c ↔ t.world.Accepts crypto settings token fingerprint c) t := by
  -- A refusal is right if the claims that the token opens to fail one of the checks.
  have hrefuse : ∀ (x : Exc), (∀ c, ¬ t.world.Accepts crypto settings token fingerprint c) →
      ∀ c, (Except.error x : Except Exc Claims) = .ok c ↔
        t.world.Accepts crypto settings token fingerprint c :=
    fun x hnot c => iff_of_false nofun (hnot c)
  unfold verifyToken decodePayload
  rw [bind_assoc, wp_verifySignature_bind]
  split
  next c hopens =>
    have honly : ∀ {c'}, t.world.Accepts crypto settings token fingerprint c' → c' = c :=
      fun h => Option.some.inj (h.opens.symm.trans hopens)
    rw [bind_assoc, wp_now_bind]
    by_cases hvalid : c.ValidAt settings t.world.now
    · rw [Trail.record_world, if_pos hvalid, pure_bind]
      by_cases hjti : c.jti = ""
      · rw [if_pos hjti]
        exact ⟨rfl, hrefuse _ fun c' h => h.jti (honly h ▸ hjti)⟩
      · rw [if_neg hjti]
        unfold isTokenRevoked
        rw [wp_exists_bind]
        by_cases hrevoked : t.world.Live (.revoked c.jti)
        · simp only [Trail.record_world, hrevoked, decide_true, if_true]
          exact ⟨rfl, hrefuse _ fun c' h => h.not_revoked (honly h ▸ hrevoked)⟩
        · simp only [Trail.record_world, hrevoked, decide_false, Bool.false_eq_true, if_false]
          rw [wp_get_bind, wp_ofExcept_bind]
          simp only [Trail.record_world]
          constructor
          · intro revoked hglobal
            cases revoked with
            | true =>
                refine ⟨rfl, hrefuse _ fun c' h => ?_⟩
                have hok := h.not_globally
                rw [honly h, hglobal] at hok
                cases hok
            | false =>
                by_cases hfingerprint : c.FingerprintOk crypto fingerprint
                · simp only [Bool.false_eq_true, if_false, hfingerprint, if_true]
                  refine ⟨rfl, fun c' => ⟨?_, ?_⟩⟩
                  · intro h
                    cases h
                    exact ⟨hopens, hvalid, hjti, hrevoked, hglobal, hfingerprint⟩
                  · intro h
                    rw [honly h]
                · simp only [Bool.false_eq_true, if_false, hfingerprint]
                  exact ⟨rfl, hrefuse _ fun c' h => hfingerprint (honly h ▸ h.fingerprint)⟩
          · intro x hglobal
            refine ⟨trivial, hrefuse _ fun c' h => ?_⟩
            have hok := h.not_globally
            rw [honly h, hglobal] at hok
            cases hok
    · rw [Trail.record_world, if_neg hvalid]
      exact ⟨rfl, hrefuse _ fun c' h => hvalid (honly h ▸ h.valid)⟩
  next hopens =>
    refine ⟨rfl, hrefuse _ fun c h => ?_⟩
    have hsome := h.opens
    rw [hopens] at hsome
    cases hsome

-- ============================================================================
-- Rotation
-- ============================================================================

/-- `rotate_refresh_token` accepts the token, whose claims are `c`. -/
structure World.Rotates (crypto : Crypto) (settings : Settings) (w : World) (token : String)
    (fingerprint : String) (c : Claims) : Prop where
  accepts : w.Accepts crypto settings token (some fingerprint) c
  refresh : c.typ = .refresh
  not_used : ¬ w.Live (.used c.jti)
  family : ∀ fid, present c.fid = some fid → ¬ w.Live (.familyRevoked fid)

/-- The world after a rotation has set its two markers. -/
def World.spend (w : World) (c : Claims) : World :=
  (w.set (.used c.jti) (.text "1") (max 1 (c.exp - w.now))).set (.revoked c.jti) (.text "1")
    (max 1 (c.exp - w.now))

/-- The claims of the access token that a rotation at time `now` mints. -/
def renewedAccess (crypto : Crypto) (settings : Settings) (c : Claims) (fingerprint : String)
    (now : ℤ) (u : String) : Claims :=
  buildClaims crypto settings (accessDraft settings c.sub fingerprint) now u

/-- The claims of the refresh token that a rotation at time `now` mints. -/
def renewedRefresh (crypto : Crypto) (settings : Settings) (c : Claims) (fingerprint : String)
    (now : ℤ) (u : String) : Claims :=
  buildClaims crypto settings (refreshDraft settings c.sub (c.fid.getD "None") fingerprint) now u

/-- The world after a rotation of `c`, with the ids it has drawn. -/
def World.renewed (crypto : Crypto) (settings : Settings) (w : World) (c : Claims)
    (fingerprint u₁ u₂ : String) : World :=
  ((w.spend c).sign (renewedAccess crypto settings c fingerprint w.now u₁)).sign
    (renewedRefresh crypto settings c fingerprint w.now u₂)

/-- The world after a used token has been presented. -/
def World.revokeFamily (settings : Settings) (w : World) (familyId : Option String) : World :=
  match present familyId with
  | some fid => w.set (.familyRevoked fid) (.text "1") (60 * 60 * 24 * settings.jwtRefreshTtlDays)
  | none => w

/-- How long the two markers of a rotation live. -/
def World.spentUntil (w : World) (c : Claims) : ℤ := max (w.now + 1) c.exp

theorem World.spend_used (w : World) (c : Claims) :
    (w.spend c).redis.entries (.used c.jti) = some ⟨.text "1", w.spentUntil c⟩ := by
  have hexpiry : w.now + max 1 (c.exp - w.now) = w.spentUntil c := by
    rw [World.spentUntil]
    omega
  have hne : Key.used c.jti ≠ .revoked c.jti := nofun
  rw [← hexpiry]
  exact (Store.entries_set_of_ne hne).trans Store.entries_set_self

theorem World.spend_revoked (w : World) (c : Claims) :
    (w.spend c).redis.entries (.revoked c.jti) = some ⟨.text "1", w.spentUntil c⟩ := by
  have hexpiry : w.now + max 1 (c.exp - w.now) = w.spentUntil c := by
    rw [World.spentUntil]
    omega
  rw [← hexpiry]
  exact Store.entries_set_self

theorem World.spend_other {k : Key} (hused : k ≠ .used c.jti) (hrevoked : k ≠ .revoked c.jti) :
    (w.spend c).redis.entries k = w.redis.entries k := by
  exact (Store.entries_set_of_ne hrevoked).trans (Store.entries_set_of_ne hused)

theorem World.spend_used_other {jti : String} (h : jti ≠ c.jti) :
    (w.spend c).redis.entries (.used jti) = w.redis.entries (.used jti) := by
  have hused : Key.used jti ≠ .used c.jti := fun heq => h (Key.used.inj heq)
  have hrevoked : Key.used jti ≠ .revoked c.jti := nofun
  exact World.spend_other hused hrevoked

theorem World.spend_revoked_other {jti : String} (h : jti ≠ c.jti) :
    (w.spend c).redis.entries (.revoked jti) = w.redis.entries (.revoked jti) := by
  have hused : Key.revoked jti ≠ .used c.jti := nofun
  have hrevoked : Key.revoked jti ≠ .revoked c.jti := fun heq => h (Key.revoked.inj heq)
  exact World.spend_other hused hrevoked

theorem World.spend_revokeAfter (user : String) :
    (w.spend c).redis.entries (.revokeAfter user) = w.redis.entries (.revokeAfter user) := by
  have hused : Key.revokeAfter user ≠ .used c.jti := nofun
  have hrevoked : Key.revokeAfter user ≠ .revoked c.jti := nofun
  exact World.spend_other hused hrevoked

theorem World.spend_familyRevoked (fid : String) :
    (w.spend c).redis.entries (.familyRevoked fid) = w.redis.entries (.familyRevoked fid) := by
  have hused : Key.familyRevoked fid ≠ .used c.jti := nofun
  have hrevoked : Key.familyRevoked fid ≠ .revoked c.jti := nofun
  exact World.spend_other hused hrevoked

theorem World.revokeFamily_of_some {familyId : Option String} {fid : String}
    (h : present familyId = some fid) : w.revokeFamily settings familyId =
      w.set (.familyRevoked fid) (.text "1") (60 * 60 * 24 * settings.jwtRefreshTtlDays) := by
  rw [World.revokeFamily, h]

theorem World.revokeFamily_of_none {familyId : Option String} (h : present familyId = none) :
    w.revokeFamily settings familyId = w := by
  rw [World.revokeFamily, h]

theorem World.revokeFamily_other {familyId : Option String} {k : Key}
    (hk : ∀ fid, k ≠ .familyRevoked fid) :
    (w.revokeFamily settings familyId).redis.entries k = w.redis.entries k := by
  unfold World.revokeFamily
  split
  next fid _ => exact Store.entries_set_of_ne (hk fid)
  next => rfl

/-- How `rotate_refresh_token` ends, alone. -/
inductive World.Rotation (crypto : Crypto) (settings : Settings) (w : World)
    (token fingerprint : String) : Except Exc TokenPair → World → Prop
  | refused (x : Exc) (hnot : ∀ c, ¬ w.Rotates crypto settings token fingerprint c) :
      Rotation crypto settings w token fingerprint (.error x) w
  | reused (x : Exc) {c : Claims}
      (haccepts : w.Accepts crypto settings token (some fingerprint) c)
      (hused : w.Live (.used c.jti)) :
      Rotation crypto settings w token fingerprint (.error x) (w.revokeFamily settings c.fid)
  | rotated {c : Claims} (pair : TokenPair) (h : w.Rotates crypto settings token fingerprint c)
      {u₁ u₂ : String} (h₁ : (w.spend c).Fresh u₁)
      (h₂ : ((w.spend c).sign (renewedAccess crypto settings c fingerprint w.now u₁)).Fresh u₂) :
      Rotation crypto settings w token fingerprint (.ok pair)
        (w.renewed crypto settings c fingerprint u₁ u₂)

theorem World.Rotation.now {fingerprint : String} {out : Except Exc TokenPair}
    (h : w.Rotation crypto settings token fingerprint out w') : w'.now = w.now := by
  cases h with
  | refused x hnot => rfl
  | reused x haccepts hused =>
      unfold World.revokeFamily
      split
      next => rfl
      next => rfl
  | rotated pair hrotates h₁ h₂ => rfl

theorem refreshSeconds_pos (settings : Settings) :
    0 < 60 * 60 * 24 * settings.jwtRefreshTtlDays := by
  have hpos := settings.refreshTtl_pos
  omega

theorem reuseDetected_eq (familyId : Option String) : reuseDetected settings familyId =
    match present familyId with
    | some fid =>
        perform (.set (.familyRevoked fid) (.text "1") (60 * 60 * 24 * settings.jwtRefreshTtlDays))
          >>= fun _ => Prog.raise (.valueError "refresh token reuse detected")
    | none => Prog.raise (.valueError "refresh token reuse detected") := by
  unfold reuseDetected
  cases present familyId with
  | some fid => rfl
  | none => rfl

theorem reuseDetected_of_some {familyId : Option String} {fid : String}
    (h : present familyId = some fid) : reuseDetected settings familyId =
      perform (.set (.familyRevoked fid) (.text "1") (60 * 60 * 24 * settings.jwtRefreshTtlDays))
        >>= fun _ => Prog.raise (.valueError "refresh token reuse detected") := by
  rw [reuseDetected_eq, h]

theorem reuseDetected_of_none {familyId : Option String} (h : present familyId = none) :
    reuseDetected settings familyId = Prog.raise (.valueError "refresh token reuse detected") := by
  rw [reuseDetected_eq, h]

theorem revokeToken_eq {jti : String} {ttl : ℤ} (h : 0 < ttl) :
    revokeToken jti ttl = perform (.set (.revoked jti) (.text "1") ttl) := by
  rw [revokeToken, if_neg (by omega)]

theorem rotateRefreshToken_wp {fingerprint : String} :
    wp (authEnv crypto settings) (rotateRefreshToken crypto settings token fingerprint)
      (fun out t' => t.world.Rotation crypto settings token fingerprint out t'.world) t := by
  unfold rotateRefreshToken
  refine wp_seq verifyToken_wp ?_ ?_
  · rintro c t₁ ⟨hworld, hout⟩
    have haccepts : t.world.Accepts crypto settings token (some fingerprint) c := (hout c).mp rfl
    have honly : ∀ {c'}, t.world.Rotates crypto settings token fingerprint c' → c' = c :=
      fun h => h.accepts.unique haccepts
    by_cases hrefresh : c.typ = .refresh
    · rw [if_neg (not_not.mpr hrefresh), wp_exists_bind]
      by_cases hused : t.world.Live (.used c.jti)
      · simp only [hworld, hused, decide_true, if_true]
        have hreused := World.Rotation.reused (.valueError "refresh token reuse detected")
          haccepts hused
        cases hfid : present c.fid with
        | some fid =>
            rw [World.revokeFamily_of_some hfid] at hreused
            rw [reuseDetected_of_some hfid, wp_set_bind (refreshSeconds_pos settings), wp_raise]
            exact hreused
        | none =>
            rw [World.revokeFamily_of_none hfid] at hreused
            rw [reuseDetected_of_none hfid, wp_raise]
            exact hreused
      · simp only [hworld, hused, decide_false, Bool.false_eq_true, if_false]
        -- After the family check the rotation goes through.
        have hrenew : ∀ t₂ : Trail World AuthOp.Ans Exc, t₂.world = t.world →
            (∀ fid, present c.fid = some fid → ¬ t.world.Live (.familyRevoked fid)) →
            wp (authEnv crypto settings) (renew settings c fingerprint)
              (fun out t' => t.world.Rotation crypto settings token fingerprint out t'.world)
              t₂ := by
          intro t₂ hworld₂ hfamily
          have hpos : 0 < max 1 (c.exp - t.world.now) := by omega
          unfold renew createAccessToken createRefreshToken
          rw [wp_now_bind, hworld₂, wp_set_bind hpos, revokeToken_eq hpos, wp_set_bind hpos,
            wp_mint_bind]
          intro u₁ hu₁
          simp only
          rw [wp_mint_bind]
          intro u₂ hu₂
          exact World.Rotation.rotated _ ⟨haccepts, hrefresh, hused, hfamily⟩ hu₁ hu₂
        unfold familyIsRevoked
        split
        next fid hfid =>
          rw [wp_exists_bind]
          by_cases hfamily : t.world.Live (.familyRevoked fid)
          · simp only [Trail.record_world, hfamily, decide_true, if_true, wp_raise]
            exact .refused _ fun c' h => h.family fid (honly h ▸ hfid) hfamily
          · simp only [Trail.record_world, hfamily, decide_false, Bool.false_eq_true, if_false]
            refine hrenew _ rfl fun fid' hfid' => ?_
            rw [hfid] at hfid'
            cases hfid'
            exact hfamily
        next hfid =>
          simp only [pure_bind, Bool.false_eq_true, if_false]
          refine hrenew _ rfl fun fid' hfid' => ?_
          rw [hfid] at hfid'
          cases hfid'
    · rw [if_pos hrefresh, wp_raise, hworld]
      exact .refused _ fun c' h => hrefresh (honly h ▸ h.refresh)
  · rintro x t₁ ⟨hworld, hout⟩
    rw [hworld]
    refine .refused x fun c h => ?_
    have hok := (hout c).mpr h.accepts
    cases hok

/-- A new session: an access and a refresh token of a new family. -/
def World.Opened (crypto : Crypto) (settings : Settings) (w : World) (subject fingerprint : String)
    (w' : World) : Prop :=
  ∃ fid u₁ u₂, w.Fresh fid ∧ (w.draw fid).Fresh u₁ ∧
    ((w.draw fid).sign (buildClaims crypto settings (accessDraft settings subject fingerprint)
      w.now u₁)).Fresh u₂ ∧
    w' = ((w.draw fid).sign (buildClaims crypto settings
      (accessDraft settings subject fingerprint) w.now u₁)).sign
      (buildClaims crypto settings (refreshDraft settings subject fid fingerprint) w.now u₂)

theorem createTokenPair_wp {subject fingerprint : String} :
    wp (authEnv crypto settings) (createTokenPair settings subject fingerprint)
      (fun _ t' => t.world.Opened crypto settings subject fingerprint t'.world) t := by
  unfold createTokenPair createAccessToken createRefreshToken
  rw [wp_op_bind]
  constructor
  · rintro fid w' ⟨_, hfid, hans, rfl⟩
    cases hans
    rw [wp_mint_bind]
    intro u₁ hu₁
    simp only
    rw [wp_mint_bind]
    intro u₂ hu₂
    exact ⟨fid, u₁, u₂, hfid, hu₁, hu₂, rfl⟩
  · rintro x w' ⟨_, _, hans, _⟩
    cases hans

theorem revokeAllUserTokens_wp {userId reason : String} :
    wp (authEnv crypto settings) (revokeAllUserTokens userId reason)
      (fun _ t' => t'.world =
        t.world.set (.revokeAfter userId) (.int t.world.now) markerTtl) t := by
  have hpos : 0 < markerTtl := by decide
  unfold revokeAllUserTokens
  rw [wp_now_bind, wp_set_bind hpos, wp_now_bind, wp_op]
  rintro a w' ⟨-, rfl⟩
  rfl

-- ============================================================================
-- What a call may do
-- ============================================================================

/-- Operations that only read. -/
def AuthOp.reads : AuthOp → Bool
  | .now => true
  | .verifySignature _ => true
  | .exists _ => true
  | .get _ => true
  | _ => false

/-- The operations that a call performs. -/
inductive AuthCall.May (settings : Settings) : AuthCall → AuthOp → Prop
  | family (s f : String) : May settings (.createTokenPair s f) .uuid4
  | pairAccess (s f : String) :
      May settings (.createTokenPair s f) (.mint (accessDraft settings s f))
  | pairRefresh (s f fid : String) :
      May settings (.createTokenPair s f) (.mint (refreshDraft settings s fid f))
  | access (s f : String) :
      May settings (.createAccessToken s f) (.mint (accessDraft settings s f))
  | refresh (s fid f : String) :
      May settings (.createRefreshToken s fid f) (.mint (refreshDraft settings s fid f))
  | verify (token : String) (fp : Option String) {e : AuthOp} (he : e.reads) :
      May settings (.verifyToken token fp) e
  | rotateReads (token f : String) {e : AuthOp} (he : e.reads)
      (hown : ∀ t, e = .verifySignature t → t = token) :
      May settings (.rotateRefreshToken token f) e
  | spendUsed (token f jti : String) (v : Blob) (ex : ℤ) :
      May settings (.rotateRefreshToken token f) (.set (.used jti) v ex)
  | spendRevoked (token f jti : String) (v : Blob) (ex : ℤ) :
      May settings (.rotateRefreshToken token f) (.set (.revoked jti) v ex)
  | revokeFamily (token f fid : String) (v : Blob) (ex : ℤ) :
      May settings (.rotateRefreshToken token f) (.set (.familyRevoked fid) v ex)
  | renewAccess (token s f : String) :
      May settings (.rotateRefreshToken token f) (.mint (accessDraft settings s f))
  | renewRefresh (token s fid f : String) :
      May settings (.rotateRefreshToken token f) (.mint (refreshDraft settings s fid f))
  | revoke (jti : String) (n : ℤ) (v : Blob) (ex : ℤ) :
      May settings (.revokeToken jti n) (.set (.revoked jti) v ex)
  | revokeAllReads (user reason : String) {e : AuthOp} (he : e.reads) :
      May settings (.revokeAllUserTokens user reason) e
  | revokeAll (user reason : String) (v : Blob) (ex : ℤ) :
      May settings (.revokeAllUserTokens user reason) (.set (.revokeAfter user) v ex)
  | audit (user reason : String) (at_ : ℤ) :
      May settings (.revokeAllUserTokens user reason) (.lpush user at_ reason)
  | tick (n : ℕ) : May settings (.tick n) (.tick n)

/-- The promise to perform operations in `P` only. -/
abbrev onlyOps (P : AuthOp → Prop) : Discipline AuthOp.Ans Exc Unit := .only P

theorem always_perform {P : AuthOp → Prop} {e : AuthOp} (h : P e) :
    (perform e).Always (onlyOps P) := Prog.always_op fun _ => h

theorem verifyToken_only {P : AuthOp → Prop}
    (hP : ∀ e : AuthOp, e.reads → (∀ t, e = .verifySignature t → t = token) → P e)
    (fingerprint : Option String) :
    (verifyToken crypto settings token fingerprint).Always (onlyOps P) := by
  have hown : P (.verifySignature token) := hP _ rfl fun t h => (AuthOp.verifySignature.inj h).symm
  unfold verifyToken decodePayload isTokenRevoked
  refine Prog.Always.bind ?_ fun payload => ?_
  · refine (always_perform hown).bind fun payload => ?_
    refine (always_perform (hP .now rfl nofun)).bind fun now => ?_
    split
    next => exact Prog.always_ret _
    next => exact Prog.always_raise _
  · split
    next => exact Prog.always_raise _
    next =>
      refine (always_perform (hP (.exists _) rfl nofun)).bind fun revoked => ?_
      split
      next => exact Prog.always_raise _
      next =>
        refine (always_perform (hP (.get _) rfl nofun)).bind fun marker => ?_
        refine (Prog.always_ofExcept _).bind fun globally => ?_
        split
        next => exact Prog.always_raise _
        next =>
          split
          next => exact Prog.always_ret _
          next => exact Prog.always_raise _

theorem rotateRefreshToken_only (token f : String) :
    (rotateRefreshToken crypto settings token f).Always
      (onlyOps (AuthCall.May settings (.rotateRefreshToken token f))) := by
  have hreads : ∀ e : AuthOp, e.reads → (∀ t, e = .verifySignature t → t = token) →
      AuthCall.May settings (.rotateRefreshToken token f) e :=
    fun _ he hown => .rotateReads token f he hown
  unfold rotateRefreshToken
  refine (verifyToken_only hreads _).bind fun payload => ?_
  split
  next => exact Prog.always_raise _
  next =>
    refine (always_perform (hreads (.exists _) rfl nofun)).bind fun used => ?_
    split
    next =>
      unfold reuseDetected
      split
      next fid _ =>
        exact (always_perform (.revokeFamily token f fid _ _)).bind fun _ =>
          Prog.always_raise _
      next => exact Prog.always_raise _
    next =>
      refine Prog.Always.bind ?_ fun revoked => ?_
      · unfold familyIsRevoked
        split
        next => exact always_perform (hreads (.exists _) rfl nofun)
        next => exact Prog.always_ret _
      · split
        next => exact Prog.always_raise _
        next =>
          unfold renew revokeToken createAccessToken createRefreshToken
          refine (always_perform (hreads .now rfl nofun)).bind fun nowTs => ?_
          refine (always_perform (.spendUsed token f _ _ _)).bind fun _ => ?_
          refine (always_perform (.spendRevoked token f _ _ _)).bind fun _ => ?_
          refine (always_perform (.renewAccess token _ f)).bind fun _ => ?_
          exact (always_perform (.renewRefresh token _ _ f)).bind fun _ =>
            Prog.always_ret _

/-- A call performs only its own operations. -/
theorem AuthCall.prog_only (crypto : Crypto) (settings : Settings) (call : AuthCall) :
    (call.prog crypto settings).Always (onlyOps (call.May settings)) := by
  cases call with
  | createTokenPair s f =>
      refine Prog.Always.bind ?_ fun _ => Prog.always_ret _
      unfold Auth.createTokenPair Auth.createAccessToken Auth.createRefreshToken
      refine (always_perform (.family s f)).bind fun fid => ?_
      refine (always_perform (.pairAccess s f)).bind fun _ => ?_
      exact (always_perform (.pairRefresh s f fid)).bind fun _ => Prog.always_ret _
  | createAccessToken s f =>
      exact Prog.Always.bind (always_perform (.access s f)) fun _ => Prog.always_ret _
  | createRefreshToken s fid f =>
      exact Prog.Always.bind (always_perform (.refresh s fid f)) fun _ => Prog.always_ret _
  | verifyToken token fp =>
      exact (verifyToken_only (fun _ he _ => .verify token fp he) fp).bind fun _ =>
        Prog.always_ret _
  | rotateRefreshToken token f =>
      exact (rotateRefreshToken_only token f).bind fun _ => Prog.always_ret _
  | revokeToken jti n => exact always_perform (.revoke jti n _ _)
  | revokeAllUserTokens user reason =>
      have hnow : AuthCall.May settings (.revokeAllUserTokens user reason) .now :=
        .revokeAllReads user reason rfl
      show (Auth.revokeAllUserTokens user reason).Always _
      unfold Auth.revokeAllUserTokens
      refine (always_perform hnow).bind fun now => ?_
      refine (always_perform (.revokeAll user reason _ _)).bind fun _ => ?_
      refine (always_perform hnow).bind fun at_ => ?_
      exact always_perform (.audit user reason at_)
  | tick n => exact always_perform (.tick n)

/-- What the operations of a call keep, the call keeps. -/
theorem AuthCall.exec_invariant {I : World → Prop} {call : AuthCall} {out : Except Exc Unit}
    {t' : Trail World AuthOp.Ans Exc}
    (hex : Exec (authEnv crypto settings) ⟨w, []⟩ (call.prog crypto settings) out t') (h : I w)
    (hI : ∀ w e a w', I w → call.May settings e → authEnv crypto settings w e a w' → I w') :
    I t'.world := by
  have hstep : ∀ (_ : Unit) (t : Trail World AuthOp.Ans Exc) (e : AuthOp) (a : Except Exc e.Ans)
      (w' : World), I t.world → call.May settings e → authEnv crypto settings t.world e a w' →
      I (t.record e a w').world :=
    fun _ t e a w' ht hmay henv => hI t.world e a w' ht hmay henv
  have hwp := (call.prog_only crypto settings ()).wp (J := fun _ t => I t.world) (t := ⟨w, []⟩) h
    hstep
  obtain ⟨_, hout, -⟩ := hex.sound hwp
  exact hout

end Mtrader.Auth
