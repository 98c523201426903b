/-
  Mtrader.Auth.Runs

  Runs of calls made one at a time on an empty Redis, and what holds of the minted
  tokens in every world they reach.

  `World.Sound` is kept by each operation that a call may perform, so that it also
  holds between the operations of interleaved calls.
-/

import Mtrader.Auth.Semantics
import Mathlib.Data.List.Nodup
import Mathlib.Algebra.Order.BigOperators.Group.List

namespace Mtrader.Auth

open Py Coroutine Expiring

variable {crypto : Crypto} {settings : Settings} {w w' : World} {c c' : Claims} {token : String}

-- ============================================================================
-- The minted tokens
-- ============================================================================

/-- Claims that `_build_claims` has made, with the lifetime of their type. -/
def Claims.Built (crypto : Crypto) (settings : Settings) (c : Claims) : Prop :=
  ∃ d : Draft, d.ttl = settings.ttl d.tokenType ∧ c = buildClaims crypto settings d c.iat c.jti

theorem Claims.Built.exp_eq (h : c.Built crypto settings) : c.exp = c.iat + settings.ttl c.typ := by
  obtain ⟨d, httl, heq⟩ := h
  rw [heq]
  show c.iat + d.ttl = c.iat + settings.ttl d.tokenType
  rw [httl]

theorem Claims.Built.valid_iff {now : ℤ} (h : c.Built crypto settings) :
    c.ValidAt settings now ↔ c.iat ≤ now ∧ now ≤ c.exp := by
  obtain ⟨d, -, heq⟩ := h
  have hiss : c.iss = settings.jwtIssuer := by rw [heq]; rfl
  have haud : c.aud = settings.jwtAudience := by rw [heq]; rfl
  have hnbf : c.nbf = c.iat := by rw [heq]; rfl
  rw [Claims.ValidAt, hnbf]
  exact ⟨fun hv => hv.2.2, fun hv => ⟨hiss, haud, hv⟩⟩

/-- Every minted token accepts the fingerprint it was minted for. -/
theorem Claims.Built.own_fingerprint (h : c.Built crypto settings) :
    ∃ f, c.FingerprintOk crypto (some f) := by
  obtain ⟨d, -, heq⟩ := h
  rw [heq]
  cases hfp : d.fingerprint with
  | none => exact ⟨"", Claims.fingerprintOk_of_absent rfl⟩
  | some f =>
      refine ⟨f, ?_⟩
      rw [← hfp]
      exact buildClaims_fingerprintOk crypto settings d _ _

/-- What holds of the tokens in every world that is reached. -/
structure World.Sound (crypto : Crypto) (settings : Settings) (w : World) : Prop where
  issued : "" ∉ w.issued
  built : ∀ c ∈ w.minted, c.Built crypto settings
  iat_le : ∀ c ∈ w.minted, c.iat ≤ w.now
  known : ∀ c ∈ w.minted, c.jti ∈ w.issued
  unique : w.minted.Pairwise fun c c' => c.jti ≠ c'.jti

theorem World.Sound.eq_of_jti (h : w.Sound crypto settings) (hc : c ∈ w.minted)
    (hc' : c' ∈ w.minted) (hjti : c.jti = c'.jti) : c = c' := by
  have hnodup : (w.minted.map Claims.jti).Nodup := List.pairwise_map.mpr h.unique
  exact List.inj_on_of_nodup_map hnodup hc hc' hjti

theorem World.Sound.jti_ne (h : w.Sound crypto settings) (hc : c ∈ w.minted) : c.jti ≠ "" := by
  intro heq
  have hknown := h.known c hc
  rw [heq] at hknown
  exact h.issued hknown

theorem World.opens_eq_some : w.opens crypto token = some c ↔
    crypto.payload token = some c ∧ c ∈ w.minted := by
  rw [World.opens, Option.filter_eq_some_iff]
  exact and_congr_right' (by simp)

theorem World.opens_encode (hc : c ∈ w.minted) : w.opens crypto (crypto.encode c) = some c :=
  World.opens_eq_some.mpr ⟨crypto.payload_encode c, hc⟩

theorem World.Sound.draw {u : String} (h : w.Sound crypto settings) (hu : w.Fresh u) :
    (w.draw u).Sound crypto settings := by
  refine ⟨?_, h.built, h.iat_le, fun c hc => List.mem_cons_of_mem _ (h.known c hc), h.unique⟩
  intro hmem
  rcases List.mem_cons.mp hmem with heq | hmem
  · exact hu.1 heq.symm
  · exact h.issued hmem

theorem World.Sound.sign {d : Draft} {u : String} (h : w.Sound crypto settings) (hu : w.Fresh u)
    (httl : d.ttl = settings.ttl d.tokenType) :
    (w.sign (buildClaims crypto settings d w.now u)).Sound crypto settings := by
  have hissued := (h.draw hu).issued
  refine ⟨hissued, ?_, ?_, ?_, ?_⟩
  · intro c hc
    rcases List.mem_cons.mp hc with rfl | hc
    · exact ⟨d, httl, rfl⟩
    · exact h.built c hc
  · intro c hc
    rcases List.mem_cons.mp hc with rfl | hc
    · exact le_refl w.now
    · exact h.iat_le c hc
  · intro c hc
    rcases List.mem_cons.mp hc with rfl | hc
    · exact List.mem_cons_self
    · exact List.mem_cons_of_mem _ (h.known c hc)
  · refine List.pairwise_cons.mpr ⟨?_, h.unique⟩
    intro c hc heq
    apply hu.2
    show (buildClaims crypto settings d w.now u).jti ∈ w.issued
    rw [heq]
    exact h.known c hc

-- ============================================================================
-- One operation
-- ============================================================================

/-- What one operation does to the world. -/
inductive Change (crypto : Crypto) (settings : Settings) (w : World) : AuthOp → World → Prop
  | quiet {e : AuthOp} : Change crypto settings w e w
  | draw {u : String} (hu : w.Fresh u) : Change crypto settings w .uuid4 (w.draw u)
  | sign {d : Draft} {u : String} (hu : w.Fresh u) :
      Change crypto settings w (.mint d) (w.sign (buildClaims crypto settings d w.now u))
  | set {k : Key} {v : Blob} {ex : ℤ} : Change crypto settings w (.set k v ex) (w.set k v ex)
  | later {seconds : ℕ} : Change crypto settings w (.tick seconds) (w.later seconds)

variable {e : AuthOp} {a : Except Exc e.Ans}

theorem change_of_env (henv : authEnv crypto settings w e a w') :
    Change crypto settings w e w' := by
  cases e with
  | uuid4 =>
      obtain ⟨u, hu, -, rfl⟩ := henv
      exact .draw hu
  | mint d =>
      obtain ⟨u, hu, -, rfl⟩ := henv
      exact .sign hu
  | set k v ex =>
      by_cases hex : 0 < ex
      · obtain ⟨-, rfl⟩ := (authEnv_set hex).mp henv
        exact .set
      · simp only [authEnv, if_neg hex] at henv
        obtain ⟨-, rfl⟩ := henv
        exact .quiet
  | tick seconds =>
      obtain ⟨-, rfl⟩ := henv
      exact .later
  | _ =>
      obtain ⟨-, rfl⟩ := henv
      exact .quiet

/-- One operation keeps the minted tokens sound, if it mints with the lifetime of the
    token's type. -/
theorem World.Sound.step (h : w.Sound crypto settings) (henv : authEnv crypto settings w e a w')
    (hmint : ∀ d, e = .mint d → d.ttl = settings.ttl d.tokenType) : w'.Sound crypto settings := by
  cases change_of_env henv with
  | quiet => exact h
  | draw hu => exact h.draw hu
  | @sign d u hu => exact h.sign hu (hmint d rfl)
  | set => exact ⟨h.issued, h.built, h.iat_le, h.known, h.unique⟩
  | @later seconds =>
      refine ⟨h.issued, h.built, fun c hc => ?_, h.known, h.unique⟩
      have hle := h.iat_le c hc
      show c.iat ≤ w.now + seconds
      omega

/-- The clock does not go back, and what has been minted stays minted. -/
theorem authEnv_mono (henv : authEnv crypto settings w e a w') :
    w.now ≤ w'.now ∧ w.minted ⊆ w'.minted := by
  cases change_of_env henv with
  | quiet => exact ⟨le_rfl, List.Subset.refl _⟩
  | draw hu => exact ⟨le_rfl, List.Subset.refl _⟩
  | sign hu => exact ⟨le_rfl, List.subset_cons_self _ _⟩
  | set => exact ⟨le_rfl, List.Subset.refl _⟩
  | @later seconds =>
      refine ⟨?_, List.Subset.refl _⟩
      show w.now ≤ w.now + seconds
      omega

/-- A key that an operation does not set keeps its entry. -/
theorem authEnv_entries {k : Key} (henv : authEnv crypto settings w e a w')
    (hset : ∀ v ex, e ≠ .set k v ex) : w'.redis.entries k = w.redis.entries k := by
  cases change_of_env henv with
  | quiet => rfl
  | draw hu => rfl
  | sign hu => rfl
  | @set k' v ex =>
      apply Store.entries_set_of_ne
      intro heq
      apply hset v ex
      rw [heq]
  | later => rfl

theorem AuthCall.May.ttl_eq {call : AuthCall} {d : Draft} (h : call.May settings (.mint d)) :
    d.ttl = settings.ttl d.tokenType := by
  cases h <;> first | rfl | contradiction

-- ============================================================================
-- Runs
-- ============================================================================

/-- Nothing has been stored or minted yet. -/
def World.start (now : ℤ) : World := { now := now }

abbrev AuthEntry : Type := Call AuthCall World AuthOp.Ans Exc Unit

/-- Calls made one at a time since `t₀`, newest first. -/
abbrev AuthRun (crypto : Crypto) (settings : Settings) (t₀ : ℤ) : List AuthEntry → World → Prop :=
  Serial (authEnv crypto settings) (AuthCall.prog crypto settings) (.start t₀)

theorem World.start_sound (now : ℤ) : (World.start now).Sound crypto settings :=
  ⟨nofun, nofun, nofun, nofun, .nil⟩

theorem AuthCall.exec_sound {call : AuthCall} {out : Except Exc Unit}
    {t' : Trail World AuthOp.Ans Exc}
    (hex : Exec (authEnv crypto settings) ⟨w, []⟩ (call.prog crypto settings) out t')
    (h : w.Sound crypto settings) : t'.world.Sound crypto settings := by
  refine exec_invariant (I := World.Sound crypto settings) hex h fun w e a w' hI hmay henv => ?_
  refine hI.step henv fun d hd => ?_
  rw [hd] at hmay
  exact hmay.ttl_eq

theorem AuthCall.exec_mono {call : AuthCall} {out : Except Exc Unit}
    {t' : Trail World AuthOp.Ans Exc}
    (hex : Exec (authEnv crypto settings) ⟨w, []⟩ (call.prog crypto settings) out t') :
    w.now ≤ t'.world.now ∧ w.minted ⊆ t'.world.minted := by
  refine exec_invariant (I := fun w' => w.now ≤ w'.now ∧ w.minted ⊆ w'.minted) hex
    ⟨le_rfl, List.Subset.refl _⟩ ?_
  rintro w₁ e a w₂ ⟨hnow, hminted⟩ - henv
  obtain ⟨hnow', hminted'⟩ := authEnv_mono henv
  exact ⟨hnow.trans hnow', List.Subset.trans hminted hminted'⟩

/-- A key that no operation of a call sets keeps its entry. -/
theorem AuthCall.exec_entries {call : AuthCall} {out : Except Exc Unit}
    {t' : Trail World AuthOp.Ans Exc} {k : Key}
    (hex : Exec (authEnv crypto settings) ⟨w, []⟩ (call.prog crypto settings) out t')
    (hset : ∀ v ex, ¬ call.May settings (.set k v ex)) :
    t'.world.redis.entries k = w.redis.entries k := by
  refine exec_invariant (I := fun w' => w'.redis.entries k = w.redis.entries k) hex rfl ?_
  intro w₁ e a w₂ heq hmay henv
  rw [authEnv_entries henv, heq]
  rintro v ex rfl
  exact hset v ex hmay

theorem AuthRun.sound {t₀ : ℤ} {cs : List AuthEntry} (hrun : AuthRun crypto settings t₀ cs w) :
    w.Sound crypto settings :=
  Serial.invariant (I := fun _ w => w.Sound crypto settings) hrun (World.start_sound t₀)
    fun _ _ _ _ _ _ h hex => AuthCall.exec_sound hex h

/-- The calls of a run were made no later than now, and minted what is minted now. -/
theorem AuthRun.mono {t₀ : ℤ} {cs : List AuthEntry} (hrun : AuthRun crypto settings t₀ cs w) :
    ∀ e ∈ cs, e.pre.now ≤ w.now ∧ e.pre.minted ⊆ w.minted := by
  refine Serial.invariant
    (I := fun cs w => ∀ e ∈ cs, e.pre.now ≤ w.now ∧ e.pre.minted ⊆ w.minted) hrun nofun ?_
  intro cs w call out t' _ h hex e he
  obtain ⟨hnow, hminted⟩ := AuthCall.exec_mono hex
  rcases List.mem_cons.mp he with rfl | he
  · exact ⟨hnow, hminted⟩
  · exact ⟨(h e he).1.trans hnow, List.Subset.trans (h e he).2 hminted⟩

/-- The call has rotated the refresh token with the claims `c`. -/
def AuthEntry.Rotated (crypto : Crypto) (e : AuthEntry) (c : Claims) : Prop :=
  e.out = .ok () ∧ ∃ token f, e.call = .rotateRefreshToken token f ∧
    e.pre.opens crypto token = some c

/-- A rotation as a call of a run. -/
theorem exec_rotate {f : String} {out : Except Exc Unit} {t' : Trail World AuthOp.Ans Exc}
    (hex : Exec (authEnv crypto settings) ⟨w, []⟩
      ((AuthCall.rotateRefreshToken token f).prog crypto settings) out t') :
    ∃ out', w.Rotation crypto settings token f out' t'.world ∧
      (out = .ok () ↔ ∃ pair, out' = .ok pair) := by
  refine hex.sound (Q := fun out t' => ∃ out', w.Rotation crypto settings token f out' t'.world ∧
    (out = .ok () ↔ ∃ pair, out' = .ok pair)) ?_
  refine wp_seq (rotateRefreshToken_wp (t := ⟨w, []⟩)) ?_ ?_
  · intro pair t₁ h
    exact ⟨.ok pair, h, iff_of_true rfl ⟨pair, rfl⟩⟩
  · intro x t₁ h
    exact ⟨.error x, h, iff_of_false nofun nofun⟩

/-- A verification as a call of a run. -/
theorem exec_verify {fp : Option String} {out : Except Exc Unit}
    {t' : Trail World AuthOp.Ans Exc}
    (hex : Exec (authEnv crypto settings) ⟨w, []⟩
      ((AuthCall.verifyToken token fp).prog crypto settings) out t') :
    t'.world = w ∧ (out = .ok () ↔ ∃ c, w.Accepts crypto settings token fp c) := by
  refine hex.sound (Q := fun out t' => t'.world = w ∧
    (out = .ok () ↔ ∃ c, w.Accepts crypto settings token fp c)) ?_
  refine wp_seq (verifyToken_wp (t := ⟨w, []⟩)) ?_ ?_
  · rintro c t₁ ⟨hworld, hout⟩
    exact ⟨hworld, iff_of_true rfl ⟨c, (hout c).mp rfl⟩⟩
  · rintro x t₁ ⟨hworld, hout⟩
    refine ⟨hworld, iff_of_false nofun ?_⟩
    rintro ⟨c, hc⟩
    cases (hout c).mpr hc

/-- A new session as a call of a run. -/
theorem exec_createTokenPair {s f : String} {out : Except Exc Unit}
    {t' : Trail World AuthOp.Ans Exc}
    (hex : Exec (authEnv crypto settings) ⟨w, []⟩
      ((AuthCall.createTokenPair s f).prog crypto settings) out t') :
    w.Opened crypto settings s f t'.world := by
  refine hex.sound (Q := fun _ t' => w.Opened crypto settings s f t'.world) ?_
  refine wp_seq (createTokenPair_wp (t := ⟨w, []⟩)) ?_ ?_
  · intro pair t₁ h
    exact h
  · intro x t₁ h
    exact h

theorem exec_tick {n : ℕ} {out : Except Exc Unit} {t' : Trail World AuthOp.Ans Exc}
    (hex : Exec (authEnv crypto settings) ⟨w, []⟩ ((AuthCall.tick n).prog crypto settings)
      out t') : t'.world = w.later n := by
  obtain ⟨w', ⟨-, rfl⟩, rfl⟩ := exec_op.mp hex
  rfl

theorem exec_revokeAll {user reason : String} {out : Except Exc Unit}
    {t' : Trail World AuthOp.Ans Exc}
    (hex : Exec (authEnv crypto settings) ⟨w, []⟩
      ((AuthCall.revokeAllUserTokens user reason).prog crypto settings) out t') :
    t'.world = w.set (.revokeAfter user) (.int w.now) markerTtl :=
  hex.sound revokeAllUserTokens_wp

-- ============================================================================
-- Running calls
-- ============================================================================

/-- An id that has not been issued: longer than all that have. -/
def freshId (issued : List String) : String :=
  String.ofList (List.replicate ((issued.map String.length).sum + 1) 'u')

theorem freshId_fresh (w : World) : w.Fresh (freshId w.issued) := by
  have hlength : (freshId w.issued).length = (w.issued.map String.length).sum + 1 := by
    simp [freshId]
  constructor
  · intro heq
    rw [heq] at hlength
    simp at hlength
  · intro hmem
    have hle := List.single_le_sum (l := w.issued.map String.length) (fun _ _ => Nat.zero_le _) _
      (List.mem_map_of_mem hmem)
    omega

/-- A way to answer every operation. -/
def authAnswers (crypto : Crypto) (settings : Settings) : Answers World AuthOp.Ans Exc :=
  fun w e => match e with
    | .now => (.ok w.now, w)
    | .uuid4 => (.ok (freshId w.issued), w.draw (freshId w.issued))
    | .verifySignature token =>
        (match w.opens crypto token with
          | some c => .ok c
          | none => .error (.valueError "invalid token"), w)
    | .mint d =>
        let c := buildClaims crypto settings d w.now (freshId w.issued)
        (.ok (crypto.encode c, c.jti), w.sign c)
    | .exists k => (.ok (decide (w.Live k)), w)
    | .get k => (.ok (w.get k), w)
    | .set k v ex =>
        if 0 < ex then (.ok (), w.set k v ex)
        else (.error (.external "invalid expire time in 'set' command"), w)
    | .lpush .. => (.ok (), w)
    | .tick seconds => (.ok (), w.later seconds)

theorem authAnswers_sound (w : World) (e : AuthOp) :
    authEnv crypto settings w e (authAnswers crypto settings w e).1
      (authAnswers crypto settings w e).2 := by
  cases e with
  | uuid4 => exact ⟨_, freshId_fresh w, rfl, rfl⟩
  | mint d => exact ⟨_, freshId_fresh w, rfl, rfl⟩
  | set k v ex =>
      simp only [authEnv, authAnswers]
      split
      · exact ⟨rfl, rfl⟩
      · exact ⟨rfl, rfl⟩
  | _ => exact ⟨rfl, rfl⟩

/-- Every call can be made. -/
theorem exists_exec (crypto : Crypto) (settings : Settings) {R : Type} (p : AuthM R) (w : World) :
    ∃ out t', Exec (authEnv crypto settings) ⟨w, []⟩ p out t' :=
  ⟨_, _, Prog.play_sound authAnswers_sound p ⟨w, []⟩⟩

/-- A call that raises in this world. -/
def World.Refuses (crypto : Crypto) (settings : Settings) (w : World) (call : AuthCall) : Prop :=
  ∀ out t', Exec (authEnv crypto settings) ⟨w, []⟩ (call.prog crypto settings) out t' →
    out ≠ .ok ()

theorem World.refuses_verifyToken {fp : Option String} :
    w.Refuses crypto settings (.verifyToken token fp) ↔
      ∀ c, ¬ w.Accepts crypto settings token fp c := by
  constructor
  · intro h c hc
    obtain ⟨out, t', hex⟩ := exists_exec crypto settings
      ((AuthCall.verifyToken token fp).prog crypto settings) w
    exact h out t' hex ((exec_verify hex).2.mpr ⟨c, hc⟩)
  · intro h out t' hex hok
    obtain ⟨c, hc⟩ := (exec_verify hex).2.mp hok
    exact h c hc

theorem World.refuses_rotateRefreshToken {f : String} :
    w.Refuses crypto settings (.rotateRefreshToken token f) ↔
      ∀ c, ¬ w.Rotates crypto settings token f c := by
  constructor
  · intro h c hc
    obtain ⟨out, t', hex⟩ := exists_exec crypto settings
      ((AuthCall.rotateRefreshToken token f).prog crypto settings) w
    obtain ⟨out', hrotation, hout⟩ := exec_rotate hex
    apply h out t' hex
    generalize t'.world = w₁ at hrotation
    cases hrotation with
    | refused x hnot => exact absurd hc (hnot c)
    | reused x haccepts hused =>
        rw [← hc.accepts.unique haccepts] at hused
        exact absurd hused hc.not_used
    | rotated pair _ _ _ => exact hout.mpr ⟨pair, rfl⟩
  · intro h out t' hex hok
    obtain ⟨out', hrotation, hout⟩ := exec_rotate hex
    obtain ⟨pair, rfl⟩ := hout.mp hok
    generalize t'.world = w₁ at hrotation
    cases hrotation with
    | rotated _ hc _ _ => exact h _ hc

end Mtrader.Auth
