/-
  Mtrader.Auth.Expiry

  How long the markers that refuse a token last, against how long the token does.

  - A rotation sets `jwt:revoked:{jti}` until the second `exp` of the token,
    exclusively, and `jwt.decode` accepts the token in that second.
  - `revoke_all_user_tokens` sets a marker for 90 days, whatever lifetimes the
    settings give the tokens.
-/

import Mtrader.Auth.Runs
import Mtrader.Auth.Plain

namespace Mtrader.Auth

open Py Coroutine Expiring

variable {crypto : Crypto} {settings : Settings} {w : World} {c : Claims}
variable {f token : String} {t₀ : ℤ} {cs : List AuthEntry}

-- ============================================================================
-- The marker of a rotated token
-- ============================================================================

/-- Until when `jwt:revoked:{jti}` exists, if the call sets it for the token with the
    claims `c`. -/
def marksUntil (crypto : Crypto) (c : Claims) (e : AuthEntry) : Option ℤ :=
  match e.call with
  | .rotateRefreshToken token _ =>
      if e.out = .ok () ∧ e.pre.opens crypto token = some c then some (e.pre.spentUntil c)
      else none
  | .revokeToken jti expiresIn =>
      if jti = c.jti then some (e.pre.now + max 1 expiresIn) else none
  | _ => none

/-- No two claims that have been minted share the id of `c`. -/
def World.Only (w : World) (c : Claims) : Prop := ∀ c' ∈ w.minted, c'.jti = c.jti → c' = c

theorem exec_rotate_marks {out : Except Exc Unit} {t' : Trail World AuthOp.Ans Exc}
    (honly : w.Only c)
    (hex : Exec (authEnv crypto settings) ⟨w, []⟩
      ((AuthCall.rotateRefreshToken token f).prog crypto settings) out t') :
    (t'.world.redis.entries (.revoked c.jti)).map Entry.expiry =
      (if out = .ok () ∧ w.opens crypto token = some c then some (w.spentUntil c) else none).or
        ((w.redis.entries (.revoked c.jti)).map Entry.expiry) := by
  obtain ⟨out', hrotation, hout⟩ := exec_rotate hex
  have hfail : ∀ x, out' = .error x →
      ¬ (out = .ok () ∧ w.opens crypto token = some c) := by
    rintro x rfl ⟨hok, -⟩
    obtain ⟨pair, hpair⟩ := hout.mp hok
    cases hpair
  generalize t'.world = w₁ at hrotation
  cases hrotation with
  | refused x hnot =>
      rw [if_neg (hfail x rfl)]
      rfl
  | @reused x c' haccepts hused =>
      have hother : (w.revokeFamily settings c'.fid).redis.entries (.revoked c.jti) =
          w.redis.entries (.revoked c.jti) := World.revokeFamily_other fun fid => nofun
      rw [if_neg (hfail x rfl), hother]
      rfl
  | @rotated c' pair hrotates u₁ u₂ h₁ h₂ =>
      have hopens : w.opens crypto token = some c' := hrotates.accepts.opens
      by_cases hc : c' = c
      · rw [if_pos ⟨hout.mpr ⟨pair, rfl⟩, hc ▸ hopens⟩]
        show Option.map Entry.expiry ((w.spend c').redis.entries _) = _
        rw [hc, World.spend_revoked]
        rfl
      · have hjti : c.jti ≠ c'.jti := by
          intro heq
          exact hc (honly c' (World.opens_eq_some.mp hopens).2 heq.symm)
        rw [if_neg]
        · show Option.map Entry.expiry ((w.spend c').redis.entries _) = _
          rw [World.spend_revoked_other hjti]
          rfl
        · rintro ⟨-, hsome⟩
          rw [hopens] at hsome
          exact hc (Option.some.inj hsome)

theorem exec_revoke_marks {jti : String} {n : ℤ} {out : Except Exc Unit}
    {t' : Trail World AuthOp.Ans Exc}
    (hex : Exec (authEnv crypto settings) ⟨w, []⟩
      ((AuthCall.revokeToken jti n).prog crypto settings) out t') :
    (t'.world.redis.entries (.revoked c.jti)).map Entry.expiry =
      (if jti = c.jti then some (w.now + max 1 n) else none).or
        ((w.redis.entries (.revoked c.jti)).map Entry.expiry) := by
  have hseconds : (if n ≤ 0 then 1 else n) = max 1 n := by
    split
    · omega
    · omega
  have hpos : 0 < max 1 n := by omega
  obtain ⟨w', henv, rfl⟩ := exec_op.mp hex
  rw [hseconds, authEnv_set hpos] at henv
  obtain ⟨-, rfl⟩ := henv
  show Option.map Entry.expiry ((w.redis.set _ _ _ _).entries _) = _
  by_cases hjti : jti = c.jti
  · rw [if_pos hjti, hjti, Store.entries_set_self]
    rfl
  · rw [if_neg hjti, Store.entries_set_of_ne]
    · rfl
    · intro heq
      exact hjti (Key.revoked.inj heq).symm

/-- The marker of a token expires as the newest call that sets it says. -/
theorem exec_marks {call : AuthCall} {out : Except Exc Unit} {t' : Trail World AuthOp.Ans Exc}
    (honly : w.Only c)
    (hex : Exec (authEnv crypto settings) ⟨w, []⟩ (call.prog crypto settings) out t') :
    (t'.world.redis.entries (.revoked c.jti)).map Entry.expiry =
      (marksUntil crypto c ⟨call, w, t'.log, out, t'.world⟩).or
        ((w.redis.entries (.revoked c.jti)).map Entry.expiry) := by
  have hother : (∀ v ex, ¬ call.May settings (.set (.revoked c.jti) v ex)) →
      (t'.world.redis.entries (.revoked c.jti)).map Entry.expiry =
        (none : Option ℤ).or ((w.redis.entries (.revoked c.jti)).map Entry.expiry) := by
    intro hset
    rw [AuthCall.exec_entries hex hset]
    rfl
  cases call with
  | rotateRefreshToken token f => exact exec_rotate_marks honly hex
  | revokeToken jti n => exact exec_revoke_marks hex
  | createTokenPair s f => exact hother fun v ex => nofun
  | createAccessToken s f => exact hother fun v ex => nofun
  | createRefreshToken s fid f => exact hother fun v ex => nofun
  | tick n => exact hother fun v ex => nofun
  | verifyToken token fp =>
      apply hother
      rintro v ex hmay
      cases hmay with
      | verify _ _ he => cases he
  | revokeAllUserTokens user reason =>
      apply hother
      rintro v ex hmay
      cases hmay with
      | revokeAllReads _ _ he => cases he

theorem AuthRun.marks (hrun : AuthRun crypto settings t₀ cs w) (honly : w.Only c) :
    (w.redis.entries (.revoked c.jti)).map Entry.expiry = cs.findSome? (marksUntil crypto c) := by
  refine Serial.invariant (I := fun cs w => w.Only c →
    (w.redis.entries (.revoked c.jti)).map Entry.expiry = cs.findSome? (marksUntil crypto c))
    hrun (fun _ => rfl) ?_ honly
  intro cs w call out t' _ ih hex honly'
  have honly : w.Only c := fun c' hc' => honly' c' ((AuthCall.exec_mono hex).2 hc')
  rw [exec_marks honly hex, ih honly, List.findSome?_cons]
  cases marksUntil crypto c ⟨call, w, t'.log, out, t'.world⟩ with
  | none => rfl
  | some until_ => rfl

/-- A minted token is refused exactly if it has expired, has been revoked for its user
    or still has its marker. -/
theorem World.Sound.refuses_iff (h : w.Sound crypto settings)
    (hopens : w.opens crypto token = some c) :
    ((∀ fp, w.Refuses crypto settings (.verifyToken token fp)) ∧
        ∀ f, w.Refuses crypto settings (.rotateRefreshToken token f)) ↔
      c.exp < w.now ∨ globallyRevoked c.iat (w.get (.revokeAfter c.sub)) ≠ .ok false ∨
        w.Live (.revoked c.jti) := by
  have hc : c ∈ w.minted := (World.opens_eq_some.mp hopens).2
  constructor
  · rintro ⟨hverify, -⟩
    by_contra hnot
    push Not at hnot
    obtain ⟨hexp, hglobally, hlive⟩ := hnot
    have hvalid : c.ValidAt settings w.now :=
      (h.built c hc).valid_iff.mpr ⟨h.iat_le c hc, hexp⟩
    refine World.refuses_verifyToken.mp (hverify none) c ?_
    exact ⟨hopens, hvalid, h.jti_ne hc, hlive, hglobally, Claims.fingerprintOk_of_absent rfl⟩
  · intro hcond
    have hnot : ∀ fp c', ¬ w.Accepts crypto settings token fp c' := by
      intro fp c' haccepts
      have heq : c' = c := Option.some.inj (haccepts.opens.symm.trans hopens)
      rw [heq] at haccepts
      rcases hcond with hexp | hglobally | hlive
      · have hle := haccepts.valid.2.2.2
        omega
      · exact hglobally haccepts.not_globally
      · exact haccepts.not_revoked hlive
    constructor
    · intro fp
      exact World.refuses_verifyToken.mpr (hnot fp)
    · intro f
      exact World.refuses_rotateRefreshToken.mpr fun c' hc' => hnot (some f) c' hc'.accepts

/-- A rotated token has been marked. -/
theorem exists_mark {r : AuthEntry} (hr : r ∈ cs) (hopens : r.pre.opens crypto token = some c)
    (hcall : r.call = .rotateRefreshToken token f) (hok : r.out = .ok ()) :
    ∃ until_, cs.findSome? (marksUntil crypto c) = some until_ := by
  have hmark : marksUntil crypto c r = some (r.pre.spentUntil c) := by
    rw [marksUntil, hcall]
    exact if_pos ⟨hok, hopens⟩
  rw [← Option.isSome_iff_exists, List.findSome?_isSome_iff]
  exact ⟨r, hr, by rw [hmark]; rfl⟩

/-- A token that has been rotated is refused exactly if it has expired, has been
    revoked for its user, or the marker that was last set for it lasts: after a
    rotation that is until `exp` or, if it is later, the second after the rotation. -/
theorem rotated_refused_iff (hrun : AuthRun crypto settings t₀ cs w) {r : AuthEntry} (hr : r ∈ cs)
    (hopens : r.pre.opens crypto token = some c) (hcall : r.call = .rotateRefreshToken token f)
    (hok : r.out = .ok ()) :
    ∃ until_ ∈ cs.findSome? (marksUntil crypto c),
      (((∀ fp, w.Refuses crypto settings (.verifyToken token fp)) ∧
          ∀ f, w.Refuses crypto settings (.rotateRefreshToken token f)) ↔
        c.exp < w.now ∨ globallyRevoked c.iat (w.get (.revokeAfter c.sub)) ≠ .ok false ∨
          w.now < until_) := by
  have hsound := hrun.sound
  obtain ⟨hpayload, hmem⟩ := World.opens_eq_some.mp hopens
  have hc : c ∈ w.minted := (hrun.mono r hr).2 hmem
  have honly : w.Only c := fun c' hc' hjti => hsound.eq_of_jti hc' hc hjti
  obtain ⟨until_, hmark⟩ := exists_mark hr hopens hcall hok
  refine ⟨until_, hmark, ?_⟩
  rw [hsound.refuses_iff (World.opens_eq_some.mpr ⟨hpayload, hc⟩)]
  apply or_congr_right
  apply or_congr_right
  rw [← hrun.marks honly, Option.map_eq_some_iff] at hmark
  obtain ⟨e, he, rfl⟩ := hmark
  rw [World.Live, Store.live_iff]
  constructor
  · rintro ⟨e', he', hlt⟩
    rw [he] at he'
    cases he'
    exact hlt
  · intro hlt
    exact ⟨e, he, hlt⟩

/-- Alice logs in and rotates her refresh token at once; she presents the old one in
    the second in which it expires. -/
def replayAtExp : List AuthCall :=
  [.createTokenPair "alice" "laptop", .rotateRefreshToken (firstToken testSettings) "laptop",
    .tick 604800, .verifyToken (firstToken testSettings) (some "laptop")]

/-- The newest call accepts the token that an older one has rotated. -/
def AcceptsRotated (call : AuthEntry) (older : List AuthEntry) : Prop :=
  call.call = .verifyToken (firstToken testSettings) (some "laptop") ∧ call.out = .ok () ∧
    ∃ r ∈ older,
      r.pre.opens plainCrypto (firstToken testSettings) = some (firstRefresh testSettings) ∧
      r.call = .rotateRefreshToken (firstToken testSettings) "laptop" ∧ r.out = .ok ()

instance (call : AuthEntry) (older : List AuthEntry) : Decidable (AcceptsRotated call older) :=
  inferInstanceAs (Decidable (_ ∧ _))

theorem exists_replayAtExp :
    ∃ call older w, AuthRun plainCrypto testSettings 0 (call :: older) w ∧
      AcceptsRotated call older :=
  exists_serial authAnswers_sound replayAtExp AcceptsRotated (by decide +kernel)

theorem rotated_refused_iff_atExp :
    ∃ cs w, AuthRun plainCrypto testSettings 0 cs w ∧
      ∃ until_ ∈ cs.findSome? (marksUntil plainCrypto (firstRefresh testSettings)),
        (((∀ fp, w.Refuses plainCrypto testSettings (.verifyToken (firstToken testSettings) fp)) ∧
            ∀ f, w.Refuses plainCrypto testSettings
              (.rotateRefreshToken (firstToken testSettings) f)) ↔
          (firstRefresh testSettings).exp < w.now ∨
            globallyRevoked (firstRefresh testSettings).iat
              (w.get (.revokeAfter (firstRefresh testSettings).sub)) ≠ .ok false ∨
            w.now < until_) := by
  obtain ⟨call, older, w, hrun, -, -, r, hr, hopens, hcall, hok⟩ := exists_replayAtExp
  exact ⟨_, w, hrun, rotated_refused_iff hrun (List.mem_cons_of_mem _ hr) hopens hcall hok⟩

/-- In the second `exp` the rotated token is accepted. -/
theorem not_rotated_refused :
    ¬ ∀ (crypto : Crypto) (settings : Settings) (t₀ : ℤ) (cs : List AuthEntry) (w : World)
        (r : AuthEntry) (token f : String) (c : Claims),
      AuthRun crypto settings t₀ cs w → r ∈ cs → r.pre.opens crypto token = some c →
      r.call = .rotateRefreshToken token f → r.out = .ok () →
      (∀ fp, w.Refuses crypto settings (.verifyToken token fp)) ∧
        ∀ f, w.Refuses crypto settings (.rotateRefreshToken token f) := by
  intro hall
  obtain ⟨call, older, w, hrun, hverify, hout, r, hr, hopens, hcall, hok⟩ := exists_replayAtExp
  cases hrun with
  | cons hs hex =>
      have hrefuses := (hall _ _ _ _ _ r _ _ _ hs hr hopens hcall hok).1 (some "laptop")
      simp only at hverify hout
      rw [hverify] at hex
      exact hrefuses _ _ hex hout

-- ============================================================================
-- The marker of a user
-- ============================================================================

/-- The user's marker is at least as new as `t`. -/
def World.MarkedSince (w : World) (user : String) (t : ℤ) : Prop :=
  ∃ s, t ≤ s ∧ s ≤ w.now ∧
    w.redis.entries (.revokeAfter user) = some ⟨.int s, s + markerTtl⟩

/-- No call but another revocation sets the user's marker. -/
theorem exec_markedSince {user : String} {t : ℤ} {call : AuthCall} {out : Except Exc Unit}
    {t' : Trail World AuthOp.Ans Exc} (h : w.MarkedSince user t)
    (hex : Exec (authEnv crypto settings) ⟨w, []⟩ (call.prog crypto settings) out t') :
    t'.world.MarkedSince user t := by
  obtain ⟨s, hts, hsw, hentry⟩ := h
  have hnow := (AuthCall.exec_mono hex).1
  by_cases hcall : ∃ reason, call = .revokeAllUserTokens user reason
  · obtain ⟨reason, rfl⟩ := hcall
    rw [exec_revokeAll hex]
    exact ⟨w.now, hts.trans hsw, le_rfl, Store.entries_set_self⟩
  · refine ⟨s, hts, hsw.trans hnow, ?_⟩
    rw [AuthCall.exec_entries hex, hentry]
    intro v ex hmay
    cases hmay with
    | verify _ _ he => cases he
    | rotateReads _ _ he _ => cases he
    | revokeAllReads _ _ he => cases he
    | revokeAll _ reason _ _ => exact hcall ⟨reason, rfl⟩

theorem AuthRun.markedSince {user reason : String} (hrun : AuthRun crypto settings t₀ cs w)
    {r : AuthEntry} (hr : r ∈ cs) (hcall : r.call = .revokeAllUserTokens user reason) :
    w.MarkedSince user r.post.now := by
  refine Serial.invariant (I := fun cs w => ∀ r ∈ cs, r.call = .revokeAllUserTokens user reason →
    w.MarkedSince user r.post.now) hrun nofun ?_ r hr hcall
  intro cs w call out t' _ ih hex r hr hcall
  rcases List.mem_cons.mp hr with rfl | hr
  · simp only at hcall
    rw [hcall] at hex
    rw [exec_revokeAll hex]
    exact ⟨w.now, le_rfl, le_rfl, Store.entries_set_self⟩
  · exact exec_markedSince (ih r hr hcall) hex

/-- A marker newer than a token refuses it for 90 days. -/
theorem World.MarkedSince.refuses {user : String} {t : ℤ} (h : w.MarkedSince user t)
    (hiat : c.iat ≤ t) (hlate : w.now < t + markerTtl) :
    globallyRevoked c.iat (w.get (.revokeAfter user)) = .ok true := by
  obtain ⟨s, hts, hsw, hentry⟩ := h
  have hget : w.get (.revokeAfter user) = some (.int s) := by
    refine Store.get_eq_some.mpr ⟨_, hentry, rfl, ?_⟩
    show w.now < s + markerTtl
    omega
  have hle : c.iat ≤ s := hiat.trans hts
  rw [hget]
  show Except.ok (decide (c.iat ≤ s)) = .ok true
  rw [decide_eq_true hle]

/-- After a revocation of all tokens of a user, none of those minted until then is
    accepted. -/
def RevokedForGood (crypto : Crypto) (settings : Settings) : Prop :=
  ∀ (t₀ : ℤ) (cs : List AuthEntry) (w : World) (r : AuthEntry) (user reason : String)
      (c : Claims) (token : String) (fp : Option String),
    AuthRun crypto settings t₀ cs w → r ∈ cs → r.call = .revokeAllUserTokens user reason →
    w.opens crypto token = some c → c.sub = user → c.iat ≤ r.post.now →
    w.Refuses crypto settings (.verifyToken token fp)

theorem revokedForGood_of_ttl (httl : ∀ t, settings.ttl t < markerTtl) :
    RevokedForGood crypto settings := by
  intro t₀ cs w r user reason c token fp hrun hr hcall hopens hsub hiat
  have hsound := hrun.sound
  apply World.refuses_verifyToken.mpr
  intro c' haccepts
  have heq : c' = c := Option.some.inj (haccepts.opens.symm.trans hopens)
  rw [heq] at haccepts
  have hbuilt := hsound.built c (World.opens_eq_some.mp hopens).2
  have hlate : w.now < r.post.now + markerTtl := by
    have hexp := (hbuilt.valid_iff.mp haccepts.valid).2
    have hshort := httl c.typ
    rw [hbuilt.exp_eq] at hexp
    omega
  have hrevoked := (hrun.markedSince hr hcall).refuses hiat hlate
  have hnot := haccepts.not_globally
  rw [hsub, hrevoked] at hnot
  cases hnot

/-- The call that mints alice a token of the type. -/
def mintCall : TokenType → AuthCall
  | .access => .createAccessToken "alice" ""
  | .refresh => .createRefreshToken "alice" "family" ""

def mintDraft (settings : Settings) : TokenType → Draft
  | .access => accessDraft settings "alice" ""
  | .refresh => refreshDraft settings "alice" "family" ""

/-- Alice's token, minted at time 0. -/
def mintClaims (crypto : Crypto) (settings : Settings) (t : TokenType) : Claims :=
  buildClaims crypto settings (mintDraft settings t) 0 "id"

/-- When alice's marker has just expired. -/
def markerExpired (crypto : Crypto) (settings : Settings) (t : TokenType) : World :=
  (((World.start 0).sign (mintClaims crypto settings t)).set (.revokeAfter "alice") (.int 0)
    markerTtl).later markerTtl.toNat

/-- Alice gets a token, all her tokens are revoked, and 90 days pass. -/
theorem exists_markerExpired (crypto : Crypto) (settings : Settings) (t : TokenType) :
    ∃ r cs, AuthRun crypto settings 0 cs (markerExpired crypto settings t) ∧ r ∈ cs ∧
      r.call = .revokeAllUserTokens "alice" "logout" ∧ r.post.now = 0 := by
  have hfresh : (World.start 0).Fresh "id" := by decide
  have hmint : ∃ log, Exec (authEnv crypto settings) ⟨.start 0, []⟩
      ((mintCall t).prog crypto settings) (.ok ())
      ⟨(World.start 0).sign (mintClaims crypto settings t), log⟩ := by
    cases t with
    | access => exact ⟨_, .call ⟨"id", hfresh, rfl, rfl⟩ (.ret _ _)⟩
    | refresh => exact ⟨_, .call ⟨"id", hfresh, rfl, rfl⟩ (.ret _ _)⟩
  obtain ⟨log, hmint⟩ := hmint
  obtain ⟨out, ⟨w, log'⟩, hrevoke⟩ := exists_exec crypto settings
    ((AuthCall.revokeAllUserTokens "alice" "logout").prog crypto settings)
    ((World.start 0).sign (mintClaims crypto settings t))
  have hw : w = ((World.start 0).sign (mintClaims crypto settings t)).set (.revokeAfter "alice")
      (.int 0) markerTtl := exec_revokeAll hrevoke
  have htick : Exec (authEnv crypto settings) ⟨w, []⟩
      ((AuthCall.tick markerTtl.toNat).prog crypto settings) (.ok ())
      ⟨w.later markerTtl.toNat, _⟩ := exec_op.mpr ⟨_, ⟨rfl, rfl⟩, rfl⟩
  have hrun := Serial.cons (Serial.cons (Serial.cons .nil hmint) hrevoke) htick
  subst hw
  exact ⟨_, _, hrun, List.mem_cons_of_mem _ List.mem_cons_self, rfl, rfl⟩

theorem ttl_of_revokedForGood (h : RevokedForGood crypto settings) (t : TokenType) :
    settings.ttl t < markerTtl := by
  by_contra hlong
  have hseconds : (markerTtl.toNat : ℤ) = markerTtl := rfl
  obtain ⟨r, cs, hrun, hr, hcall, hpost⟩ := exists_markerExpired crypto settings t
  have hc : mintClaims crypto settings t ∈ (markerExpired crypto settings t).minted :=
    List.mem_cons_self
  have hiat : (mintClaims crypto settings t).iat = 0 := rfl
  have hexp : (mintClaims crypto settings t).exp = settings.ttl t := by
    cases t with
    | access => exact Int.zero_add _
    | refresh => exact Int.zero_add _
  have hsub : (mintClaims crypto settings t).sub = "alice" := by
    cases t with
    | access => rfl
    | refresh => rfl
  have hnow : (markerExpired crypto settings t).now = markerTtl := Int.zero_add _
  have hrefuses := h 0 cs _ r _ _ _ _ none hrun hr hcall (World.opens_encode hc) hsub
    (by rw [hiat, hpost])
  refine World.refuses_verifyToken.mp hrefuses (mintClaims crypto settings t) ?_
  have hsound := hrun.sound
  have hvalid := (hsound.built _ hc).valid_iff.mpr ⟨hsound.iat_le _ hc, by rw [hnow, hexp]; omega⟩
  refine ⟨World.opens_encode hc, hvalid, hsound.jti_ne hc, ?_, ?_,
    Claims.fingerprintOk_of_absent rfl⟩
  · -- Only the user's marker has been set.
    intro hlive
    obtain ⟨e, he, -⟩ := Store.live_iff.mp hlive
    cases he
  · rw [hsub]
    have hget : (markerExpired crypto settings t).get (.revokeAfter "alice") = none := by
      show Store.get (Store.set _ _ _ _ _) _ _ = none
      rw [Store.get_set_self, hnow]
      exact if_neg (lt_irrefl _)
    rw [hget]
    rfl

/-- The marker outlives every token exactly if both lifetimes of the settings are
    shorter than 90 days. -/
theorem revokedForGood_iff : RevokedForGood crypto settings ↔
    settings.jwtRefreshTtlDays < 90 ∧ settings.jwtAccessTtlMinutes < 60 * 24 * 90 := by
  have haccess : settings.ttl .access < markerTtl ↔
      settings.jwtAccessTtlMinutes < 60 * 24 * 90 := by
    show 60 * settings.jwtAccessTtlMinutes < 60 * 60 * 24 * 90 ↔ _
    omega
  have hrefresh : settings.ttl .refresh < markerTtl ↔ settings.jwtRefreshTtlDays < 90 := by
    show 60 * 60 * 24 * settings.jwtRefreshTtlDays < 60 * 60 * 24 * 90 ↔ _
    omega
  rw [← hrefresh, ← haccess]
  constructor
  · intro h
    exact ⟨ttl_of_revokedForGood h .refresh, ttl_of_revokedForGood h .access⟩
  · rintro ⟨hrefresh, haccess⟩
    apply revokedForGood_of_ttl
    intro t
    cases t with
    | access => exact haccess
    | refresh => exact hrefresh

/-- Refresh tokens for 90 days. -/
def quarterSettings : Settings :=
  { testSettings with jwtRefreshTtlDays := 90, refreshTtl_pos := by decide }

/-- Alice's refresh token of 90 days is accepted 90 days after all her tokens were
    revoked. -/
theorem not_revokedForGood :
    ¬ ∀ (crypto : Crypto) (settings : Settings), RevokedForGood crypto settings := by
  intro hall
  have httl := ttl_of_revokedForGood (hall plainCrypto quarterSettings) .refresh
  exact absurd httl (by decide)

end Mtrader.Auth
