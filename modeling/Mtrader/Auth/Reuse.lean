/-
  Mtrader.Auth.Reuse

  A rotated refresh token that is presented again.

  A rotation sets `jwt:refresh:used:{jti}` and `jwt:revoked:{jti}` for the same time,
  and `verify_token` looks at the second one first: the branch of
  `rotate_refresh_token` that revokes the family is not reached.  The refresh token
  that the family has come to stays usable.
-/

import Mtrader.Auth.Runs
import Mtrader.Auth.Plain

namespace Mtrader.Auth

open Py Coroutine Expiring

variable {crypto : Crypto} {settings : Settings} {w : World} {c l : Claims}
variable {f token : String} {t₀ : ℤ} {cs : List AuthEntry}

/-- A new session, a rotation or a clock step. -/
def AuthCall.ofSession : AuthCall → Bool
  | .createTokenPair _ _ => true
  | .rotateRefreshToken _ _ => true
  | .tick _ => true
  | _ => false

/-- A refresh token of the family of `c` that has not been used and lasts as long. -/
structure World.Leaf (w : World) (c l : Claims) : Prop where
  minted : l ∈ w.minted
  refresh : l.typ = .refresh
  family : l.fid = c.fid
  unused : w.redis.entries (.used l.jti) = none
  exp_le : c.exp ≤ l.exp

/-- What holds in every world of a run of sessions, rotations and clock steps. -/
structure World.Chained (crypto : Crypto) (cs : List AuthEntry) (w : World) : Prop where
  not_revoked : ∀ user, w.redis.entries (.revokeAfter user) = none
  families : ∀ fid, w.redis.entries (.familyRevoked fid) = none
  together : ∀ jti, w.redis.entries (.used jti) = w.redis.entries (.revoked jti)
  known : ∀ jti, w.redis.entries (.used jti) ≠ none → jti ∈ w.issued
  family : ∀ c ∈ w.minted, c.typ = .refresh → ∃ fid, fid ≠ "" ∧ c.fid = some fid
  leaf : ∀ r ∈ cs, ∀ c, r.Rotated crypto c → ∃ l, w.Leaf c l

-- ============================================================================
-- One call
-- ============================================================================

theorem World.Chained.used_of_fresh {u : String} (h : w.Chained crypto cs) (hu : w.Fresh u) :
    w.redis.entries (.used u) = none := by
  by_contra hne
  exact hu.2 (h.known u hne)

/-- A call that is no rotation and leaves Redis alone. -/
theorem World.Chained.of_minted {w' : World} {e : AuthEntry} (h : w.Chained crypto cs)
    (hredis : w'.redis = w.redis) (hissued : w.issued ⊆ w'.issued) (hminted : w.minted ⊆ w'.minted)
    (hfamily : ∀ c ∈ w'.minted, c ∉ w.minted → c.typ = .refresh →
      ∃ fid, fid ≠ "" ∧ c.fid = some fid)
    (he : ∀ c, ¬ e.Rotated crypto c) : w'.Chained crypto (e :: cs) := by
  refine ⟨?_, ?_, ?_, ?_, ?_, ?_⟩
  · intro user
    rw [hredis]
    exact h.not_revoked user
  · intro fid
    rw [hredis]
    exact h.families fid
  · intro jti
    rw [hredis]
    exact h.together jti
  · intro jti hjti
    rw [hredis] at hjti
    exact hissued (h.known jti hjti)
  · intro c hc htyp
    by_cases hold : c ∈ w.minted
    · exact h.family c hold htyp
    · exact hfamily c hc hold htyp
  · intro r hr c hrot
    rcases List.mem_cons.mp hr with rfl | hr
    · exact absurd hrot (he c)
    · obtain ⟨l, hl⟩ := h.leaf r hr c hrot
      exact ⟨l, hminted hl.minted, hl.refresh, hl.family, hredis ▸ hl.unused, hl.exp_le⟩

/-- The branch that revokes the family is not reached. -/
theorem World.Chained.not_reused (h : w.Chained crypto cs) {fp : Option String}
    (haccepts : w.Accepts crypto settings token fp c) : ¬ w.Live (.used c.jti) := by
  intro hlive
  apply haccepts.not_revoked
  obtain ⟨e, he, hlt⟩ := Store.live_iff.mp hlive
  rw [h.together] at he
  exact Store.live_iff.mpr ⟨e, he, hlt⟩

/-- The new refresh token of a rotation takes over the family. -/
theorem World.Chained.leaf_of_renewed {u₁ u₂ : String} (h : w.Chained crypto cs)
    (hsound : w.Sound crypto settings) (hrotates : w.Rotates crypto settings token f c)
    (h₂ : ((w.spend c).sign (renewedAccess crypto settings c f w.now u₁)).Fresh u₂) :
    (w.renewed crypto settings c f u₁ u₂).Leaf c
      (renewedRefresh crypto settings c f w.now u₂) := by
  have hc : c ∈ w.minted := (World.opens_eq_some.mp hrotates.accepts.opens).2
  have hu : w.Fresh u₂ := ⟨h₂.1, fun hmem => h₂.2 (List.mem_cons_of_mem _ hmem)⟩
  have hjti : u₂ ≠ c.jti := by
    rintro rfl
    exact hu.2 (hsound.known c hc)
  refine ⟨List.mem_cons_self, rfl, ?_, ?_, ?_⟩
  · obtain ⟨fid, hne, hfid⟩ := h.family c hc hrotates.refresh
    show present (some (c.fid.getD "None")) = c.fid
    rw [hfid]
    exact present_eq_some.mpr ⟨rfl, hne⟩
  · show (w.spend c).redis.entries (.used u₂) = none
    rw [World.spend_used_other hjti]
    exact h.used_of_fresh hu
  · have hexp := (hsound.built c hc).exp_eq
    have hiat := hsound.iat_le c hc
    rw [hrotates.refresh] at hexp
    show c.exp ≤ w.now + settings.ttl .refresh
    omega

theorem World.Chained.rotate {u₁ u₂ : String} {e : AuthEntry} (h : w.Chained crypto cs)
    (hsound : w.Sound crypto settings) (hrotates : w.Rotates crypto settings token f c)
    (h₂ : ((w.spend c).sign (renewedAccess crypto settings c f w.now u₁)).Fresh u₂)
    (he : ∀ c', e.Rotated crypto c' → c' = c) :
    (w.renewed crypto settings c f u₁ u₂).Chained crypto (e :: cs) := by
  have hc : c ∈ w.minted := (World.opens_eq_some.mp hrotates.accepts.opens).2
  have hnew := h.leaf_of_renewed hsound hrotates h₂
  refine ⟨?_, ?_, ?_, ?_, ?_, ?_⟩
  · intro user
    exact (World.spend_revokeAfter user).trans (h.not_revoked user)
  · intro fid
    exact (World.spend_familyRevoked fid).trans (h.families fid)
  · intro jti
    show (w.spend c).redis.entries _ = (w.spend c).redis.entries _
    by_cases hjti : jti = c.jti
    · rw [hjti, World.spend_used, World.spend_revoked]
    · rw [World.spend_used_other hjti, World.spend_revoked_other hjti]
      exact h.together jti
  · intro jti hjti
    have hold : jti ∈ w.issued := by
      by_cases heq : jti = c.jti
      · rw [heq]
        exact hsound.known c hc
      · apply h.known jti
        rw [← World.spend_used_other heq]
        exact hjti
    exact List.mem_cons_of_mem _ (List.mem_cons_of_mem _ hold)
  · intro c' hc' htyp
    rcases List.mem_cons.mp hc' with rfl | hc'
    · rw [hnew.family]
      exact h.family c hc hrotates.refresh
    · rcases List.mem_cons.mp hc' with rfl | hc'
      · cases htyp
      · exact h.family c' hc' htyp
  · intro r hr c' hrot
    rcases List.mem_cons.mp hr with rfl | hr
    · rw [he c' hrot]
      exact ⟨_, hnew⟩
    · obtain ⟨l, hl⟩ := h.leaf r hr c' hrot
      by_cases hlc : l = c
      · -- The leaf of `c'` has been rotated: its successor is the new leaf.
        rw [hlc] at hl
        exact ⟨_, hnew.minted, hnew.refresh, hnew.family.trans hl.family, hnew.unused,
          hl.exp_le.trans hnew.exp_le⟩
      · have hjti : l.jti ≠ c.jti := fun heq => hlc (hsound.eq_of_jti hl.minted hc heq)
        refine ⟨l, List.mem_cons_of_mem _ (List.mem_cons_of_mem _ hl.minted), hl.refresh,
          hl.family, ?_, hl.exp_le⟩
        exact (World.spend_used_other hjti).trans hl.unused

-- ============================================================================
-- Runs
-- ============================================================================

theorem World.Chained.opened {w' : World} {s : String} {e : AuthEntry} (h : w.Chained crypto cs)
    (hopened : w.Opened crypto settings s f w') (he : ∀ c, ¬ e.Rotated crypto c) :
    w'.Chained crypto (e :: cs) := by
  obtain ⟨fid, u₁, u₂, hfid, -, -, rfl⟩ := hopened
  refine h.of_minted rfl ?_ ?_ ?_ he
  · intro u hu
    exact List.mem_cons_of_mem _ (List.mem_cons_of_mem _ (List.mem_cons_of_mem _ hu))
  · intro c hc
    exact List.mem_cons_of_mem _ (List.mem_cons_of_mem _ hc)
  · intro c hc hold htyp
    rcases List.mem_cons.mp hc with rfl | hc
    · exact ⟨fid, hfid.1, present_eq_some.mpr ⟨rfl, hfid.1⟩⟩
    · rcases List.mem_cons.mp hc with rfl | hc
      · cases htyp
      · exact absurd hc hold

theorem exec_chained {call : AuthCall} {out : Except Exc Unit} {t' : Trail World AuthOp.Ans Exc}
    (h : w.Chained crypto cs) (hsound : w.Sound crypto settings) (hcall : call.ofSession)
    (hex : Exec (authEnv crypto settings) ⟨w, []⟩ (call.prog crypto settings) out t') :
    t'.world.Chained crypto (⟨call, w, t'.log, out, t'.world⟩ :: cs) := by
  cases call with
  | createTokenPair s f =>
      refine h.opened (exec_createTokenPair hex) ?_
      rintro c ⟨-, _, _, hcall, -⟩
      cases hcall
  | tick n =>
      have hredis : t'.world.redis = w.redis := by rw [exec_tick hex]; rfl
      have hissued : t'.world.issued = w.issued := by rw [exec_tick hex]; rfl
      have hminted : t'.world.minted = w.minted := by rw [exec_tick hex]; rfl
      refine h.of_minted hredis (hissued ▸ List.Subset.refl _) (hminted ▸ List.Subset.refl _) ?_ ?_
      · intro c hc hold
        rw [hminted] at hc
        exact absurd hc hold
      · rintro c ⟨-, _, _, hcall, -⟩
        cases hcall
  | rotateRefreshToken token f =>
      obtain ⟨out', hrotation, hout⟩ := exec_rotate hex
      have hfail : ∀ x, out' = .error x → ∀ c, ¬ AuthEntry.Rotated crypto
          ⟨.rotateRefreshToken token f, w, t'.log, out, t'.world⟩ c := by
        rintro x rfl c ⟨hok, -⟩
        obtain ⟨pair, hpair⟩ := hout.mp hok
        cases hpair
      generalize t'.world = w₁ at hrotation hfail ⊢
      cases hrotation with
      | refused x hnot =>
          refine h.of_minted rfl (List.Subset.refl _) (List.Subset.refl _) ?_ (hfail x rfl)
          intro c hc hold
          exact absurd hc hold
      | reused x haccepts hused => exact absurd hused (h.not_reused haccepts)
      | @rotated c pair hrotates u₁ u₂ h₁ h₂ =>
          refine h.rotate hsound hrotates h₂ ?_
          rintro c' ⟨-, token', f', hcall, hopens⟩
          cases hcall
          exact Option.some.inj (hopens.symm.trans hrotates.accepts.opens)
  | _ => cases hcall

theorem World.start_chained (now : ℤ) : (World.start now).Chained crypto [] :=
  ⟨fun _ => rfl, fun _ => rfl, fun _ => rfl, fun _ hne => absurd rfl hne, nofun, nofun⟩

theorem AuthRun.chained (hrun : AuthRun crypto settings t₀ cs w)
    (hcalls : ∀ e ∈ cs, e.call.ofSession) : w.Chained crypto cs := by
  refine Serial.invariant (I := fun cs w => (∀ e ∈ cs, e.call.ofSession) → w.Chained crypto cs)
    hrun (fun _ => World.start_chained t₀) ?_ hcalls
  intro cs w call out t' hrun ih hex hcalls
  rw [List.forall_mem_cons] at hcalls
  exact exec_chained (ih hcalls.2) (AuthRun.sound hrun) hcalls.1 hex

/-- Before its `exp` a leaf can be rotated. -/
theorem World.Chained.leaf_rotates (h : w.Chained crypto cs) (hsound : w.Sound crypto settings)
    (hl : w.Leaf c l) (hnow : w.now ≤ c.exp) :
    ∃ f, w.Rotates crypto settings (crypto.encode l) f l := by
  obtain ⟨f, hfp⟩ := (hsound.built l hl.minted).own_fingerprint
  have hnow' := hnow.trans hl.exp_le
  have hvalid := (hsound.built l hl.minted).valid_iff.mpr ⟨hsound.iat_le l hl.minted, hnow'⟩
  have hdead : ∀ k, w.redis.entries k = none → ¬ w.Live k := by
    intro k hk hlive
    obtain ⟨e, he, -⟩ := Store.live_iff.mp hlive
    rw [hk] at he
    cases he
  have hrevoked : w.redis.entries (.revoked l.jti) = none := by
    rw [← h.together]
    exact hl.unused
  have hmarker : w.get (.revokeAfter l.sub) = none := by
    rw [World.get, Store.get, h.not_revoked]
  refine ⟨f, ⟨World.opens_encode hl.minted, hvalid, hsound.jti_ne hl.minted, hdead _ hrevoked,
    ?_, hfp⟩, hl.refresh, hdead _ hl.unused, fun fid _ => hdead _ (h.families fid)⟩
  rw [hmarker]
  rfl

/-- The newest call presents a refresh token that an older one has rotated: it has not
    expired, and its fingerprint is the token's own. -/
structure Replay (crypto : Crypto) (v : AuthEntry) (older : List AuthEntry) (c : Claims) :
    Prop where
  rotated : ∃ r ∈ older, r.Rotated crypto c
  presented : ∃ token f, v.call = .rotateRefreshToken token f ∧
    v.pre.opens crypto token = some c ∧ c.FingerprintOk crypto (some f)
  unexpired : v.pre.now ≤ c.exp

/-- From now on every rotation of a refresh token of the family is refused. -/
def FamilyDead (crypto : Crypto) (settings : Settings) (t₀ : ℤ) (cs : List AuthEntry)
    (fid : Option String) : Prop :=
  ∀ newer w, AuthRun crypto settings t₀ (newer ++ cs) w → (∀ e ∈ newer, e.call.ofSession) →
    ∀ token f c, w.opens crypto token = some c → c.typ = .refresh → c.fid = fid →
      w.Refuses crypto settings (.rotateRefreshToken token f)

theorem FamilyDead.not_rotates {fid : Option String} (h : FamilyDead crypto settings t₀ cs fid)
    (hrun : AuthRun crypto settings t₀ cs w) (hfid : l.fid = fid) :
    ¬ w.Rotates crypto settings token f l := by
  intro hrotates
  have hrefuses := h [] w hrun nofun token f l hrotates.accepts.opens hrotates.refresh hfid
  exact World.refuses_rotateRefreshToken.mp hrefuses l hrotates

/-- Right after the replay the leaf of the family can be rotated. -/
theorem Replay.exists_rotates {v : AuthEntry} {older : List AuthEntry}
    (h : Replay crypto v older c) (hrun : AuthRun crypto settings t₀ (v :: older) w)
    (hcalls : ∀ e ∈ v :: older, e.call.ofSession) :
    ∃ l f, l.fid = c.fid ∧ w.Rotates crypto settings (crypto.encode l) f l := by
  obtain ⟨r, hr, hrotated⟩ := h.rotated
  have hchained := hrun.chained hcalls
  obtain ⟨l, hl⟩ := hchained.leaf r (List.mem_cons_of_mem _ hr) c hrotated
  have hnow : w.now ≤ c.exp := by
    obtain ⟨token, f, hcall, -, -⟩ := h.presented
    have hunexpired := h.unexpired
    cases hrun with
    | cons hs hex =>
        simp only at hcall hunexpired
        rw [hcall] at hex
        obtain ⟨out', hrotation, -⟩ := exec_rotate hex
        rw [hrotation.now]
        exact hunexpired
  obtain ⟨f, hrotates⟩ := hchained.leaf_rotates hrun.sound hl hnow
  exact ⟨l, f, hl.family, hrotates⟩

/-- No replay revokes the family. -/
theorem replay_not_familyDead {v : AuthEntry} {older : List AuthEntry}
    (hrun : AuthRun crypto settings t₀ (v :: older) w)
    (hcalls : ∀ e ∈ v :: older, e.call.ofSession) (h : Replay crypto v older c) :
    ¬ FamilyDead crypto settings t₀ (v :: older) c.fid := by
  intro hdead
  obtain ⟨l, f, hfid, hrotates⟩ := h.exists_rotates hrun hcalls
  exact hdead.not_rotates hrun hfid hrotates

/-- Alice logs in, rotates her refresh token and presents the old one again. -/
def replayAtOnce : List AuthCall :=
  [.createTokenPair "alice" "laptop", .rotateRefreshToken (firstToken testSettings) "laptop",
    .rotateRefreshToken (firstToken testSettings) "laptop"]

def ReplaysFirst (v : AuthEntry) (older : List AuthEntry) : Prop :=
  (∀ e ∈ v :: older, e.call.ofSession) ∧
    v.call = .rotateRefreshToken (firstToken testSettings) "laptop" ∧
    v.pre.opens plainCrypto (firstToken testSettings) = some (firstRefresh testSettings) ∧
    v.pre.now ≤ (firstRefresh testSettings).exp ∧
    ∃ r ∈ older, r.out = .ok () ∧
      r.call = .rotateRefreshToken (firstToken testSettings) "laptop" ∧
      r.pre.opens plainCrypto (firstToken testSettings) = some (firstRefresh testSettings)

instance (v : AuthEntry) (older : List AuthEntry) : Decidable (ReplaysFirst v older) :=
  inferInstanceAs (Decidable (_ ∧ _))

theorem exists_replayAtOnce :
    ∃ v older w, AuthRun plainCrypto testSettings 0 (v :: older) w ∧
      (∀ e ∈ v :: older, e.call.ofSession) ∧
      Replay plainCrypto v older (firstRefresh testSettings) := by
  have hplay : ∃ v older w, AuthRun plainCrypto testSettings 0 (v :: older) w ∧
      ReplaysFirst v older :=
    exists_serial authAnswers_sound replayAtOnce ReplaysFirst (by decide +kernel)
  obtain ⟨v, older, w, hrun, hcalls, hcall, hopens, hnow, r, hr, hok, hrcall, hropens⟩ := hplay
  have hfp : (firstRefresh testSettings).FingerprintOk plainCrypto (some "laptop") :=
    buildClaims_fingerprintOk plainCrypto testSettings
      (refreshDraft testSettings "alice" "u" "laptop") 0 "uuuu"
  exact ⟨v, older, w, hrun, hcalls, ⟨r, hr, hok, _, _, hrcall, hropens⟩,
    ⟨_, _, hcall, hopens, hfp⟩, hnow⟩

theorem replay_not_familyDead_atOnce :
    ∃ v older w, AuthRun plainCrypto testSettings 0 (v :: older) w ∧
      ¬ FamilyDead plainCrypto testSettings 0 (v :: older) (firstRefresh testSettings).fid := by
  obtain ⟨v, older, w, hrun, hcalls, h⟩ := exists_replayAtOnce
  exact ⟨v, older, w, hrun, replay_not_familyDead hrun hcalls h⟩

/-- After the replay alice's second refresh token is still rotated. -/
theorem not_replay_familyDead :
    ¬ ∀ (crypto : Crypto) (settings : Settings) (t₀ : ℤ) (v : AuthEntry)
        (older : List AuthEntry) (w : World) (c : Claims),
      AuthRun crypto settings t₀ (v :: older) w → (∀ e ∈ v :: older, e.call.ofSession) →
      Replay crypto v older c → FamilyDead crypto settings t₀ (v :: older) c.fid := by
  intro hall
  obtain ⟨v, older, w, hrun, hcalls, h⟩ := exists_replayAtOnce
  obtain ⟨l, f, hfid, hrotates⟩ := h.exists_rotates hrun hcalls
  exact (hall _ _ _ v older w _ hrun hcalls h).not_rotates hrun hfid hrotates

end Mtrader.Auth
