/-
  Mtrader.Auth.Flow

  Calls of `create_token_pair`, `rotate_refresh_token` and `revoke_all_user_tokens`
  that are interleaved at their Redis commands.

  A `Phase` sums up how far one call has come; the discipline `flow` says which
  operations it performs in which phase.  The functions obey it whatever the other
  calls do, so that in a run every operation of a call is one of its phase.
-/

import Mtrader.Auth.Runs
import Mtrader.Coroutine.Interleave

namespace Mtrader.Auth

open Py Coroutine Expiring

variable {crypto : Crypto} {settings : Settings} {f token : String}

/-- How far a call has come. -/
inductive Phase
  | idle
  /-- A new session has drawn the id of its family. -/
  | drawn (familyId : String)
  /-- The signature has been verified. -/
  | opened (c : Claims)
  /-- The user's marker has been looked up. -/
  | looked (c : Claims) (marker : Option Blob)
  /-- The used key has been found absent. -/
  | pending (c : Claims) (marker : Option Blob)
  /-- The used key has been set. -/
  | spent (c : Claims) (marker : Option Blob)
  /-- The new refresh token has been minted. -/
  | renewed (c : Claims)
  /-- A revocation has read the clock. -/
  | clock (t : ℤ)
  /-- A revocation has set the user's marker. -/
  | marked (t : ℤ)
  deriving DecidableEq

/-- The claims of the token that is being rotated. -/
def Phase.claims : Phase → Option Claims
  | .opened c => some c
  | .looked c _ => some c
  | .pending c _ => some c
  | .spent c _ => some c
  | .renewed c => some c
  | _ => none

/-- The tokens that may be minted in a phase. -/
def Phase.MayMint (d : Draft) : Phase → Prop
  | .drawn fid => d.tokenType = .refresh → d.familyId = some fid
  | .spent c marker => d.subject = c.sub ∧ globallyRevoked c.iat marker = .ok false ∧
      (d.tokenType = .refresh → d.familyId = some (c.fid.getD "None"))
  | _ => False

/-- The operations of a call in a phase, and the phase that an answer leads to. -/
def flow (settings : Settings) : Discipline AuthOp.Ans Exc Phase where
  may p e := match e with
    | .now => True
    | .uuid4 => p = .idle
    | .verifySignature _ => p = .idle
    | .mint d => d.ttl = settings.ttl d.tokenType ∧ p.MayMint d
    | .exists (.used jti) => ∃ c marker, p = .looked c marker ∧ c.typ = .refresh ∧ c.jti = jti
    | .exists _ => True
    | .get (.revokeAfter user) => ∃ c, p = .opened c ∧ c.sub = user
    | .get _ => False
    | .set (.used jti) _ ex => 0 < ex ∧ ∃ c marker, p = .pending c marker ∧ c.jti = jti
    | .set (.revokeAfter _) v ex => 0 < ex ∧ ∃ t, p = .clock t ∧ v = .int t
    | .set _ _ _ => True
    | .lpush .. => True
    | .tick _ => True
  next p e a := match p, e, a with
    | .idle, .uuid4, .ok fid => .drawn fid
    | .idle, .verifySignature _, .ok c => .opened c
    | .idle, .now, .ok t => .clock t
    | .opened c, .get _, .ok marker => .looked c marker
    | .looked c marker, .exists (.used _), .ok false => .pending c marker
    | .pending c marker, .set (.used _) _ _, .ok _ => .spent c marker
    | .drawn fid, .mint d, .ok _ => if d.tokenType = .refresh then .idle else .drawn fid
    | .spent c marker, .mint d, .ok _ =>
        if d.tokenType = .refresh then .renewed c else .spent c marker
    | .clock t, .set (.revokeAfter _) _ _, .ok _ => .marked t
    | p, _, _ => p

theorem next_mint_drawn {d : Draft} {fid : String} {pair : String × String} :
    (flow settings).next (.drawn fid) (.mint d) (.ok pair) =
      if d.tokenType = .refresh then .idle else .drawn fid := rfl

theorem next_mint_spent {d : Draft} {c : Claims} {marker : Option Blob}
    {pair : String × String} :
    (flow settings).next (.spent c marker) (.mint d) (.ok pair) =
      if d.tokenType = .refresh then .renewed c else .spent c marker := rfl

-- ============================================================================
-- The functions
-- ============================================================================

theorem verifyToken_obeys (fingerprint : Option String) :
    (verifyToken crypto settings token fingerprint).Obeys (flow settings)
      (fun out p => ∀ c, out = .ok c →
        ∃ marker, p = .looked c marker ∧ globallyRevoked c.iat marker = .ok false) .idle := by
  unfold verifyToken decodePayload isTokenRevoked
  rw [bind_assoc]
  refine Prog.obeys_op_bind.mpr ⟨rfl, fun c => ?_, fun _ _ h => nomatch h⟩
  rw [bind_assoc]
  refine Prog.obeys_op_bind.mpr ⟨trivial, fun now => ?_, fun _ _ h => nomatch h⟩
  by_cases hvalid : c.ValidAt settings now
  · rw [if_pos hvalid, pure_bind]
    by_cases hjti : c.jti = ""
    · rw [if_pos hjti]
      exact fun _ h => nomatch h
    · rw [if_neg hjti]
      refine Prog.obeys_op_bind.mpr ⟨trivial, fun revoked => ?_, fun _ _ h => nomatch h⟩
      cases revoked with
      | true => exact fun _ h => nomatch h
      | false =>
          rw [if_neg Bool.false_ne_true]
          refine Prog.obeys_op_bind.mpr ⟨⟨c, rfl, rfl⟩, fun marker => ?_, fun _ _ h => nomatch h⟩
          refine Prog.obeys_ofExcept_bind.mpr
            ⟨fun globally hglobally => ?_, fun _ _ _ h => nomatch h⟩
          cases globally with
          | true => exact fun _ h => nomatch h
          | false =>
              rw [if_neg Bool.false_ne_true]
              split
              next =>
                intro c' h
                cases h
                exact ⟨marker, rfl, hglobally⟩
              next => exact fun _ h => nomatch h
  · rw [if_neg hvalid]
    exact fun _ h => nomatch h

theorem reuseDetected_obeys {familyId : Option String} {p : Phase}
    {Q : Except Exc TokenPair → Phase → Prop} (hQ : ∀ x p, Q (.error x) p) :
    (reuseDetected settings familyId).Obeys (flow settings) Q p := by
  unfold reuseDetected
  split
  next fid _ => exact Prog.obeys_op_bind.mpr ⟨trivial, fun _ => hQ _ _, fun _ => hQ _ _⟩
  next => exact hQ _ _

theorem renew_obeys {c : Claims} {marker : Option Blob}
    (hglobally : globallyRevoked c.iat marker = .ok false) :
    (renew settings c f).Obeys (flow settings)
      (fun out p => ∀ pair, out = .ok pair → p = .renewed c) (.pending c marker) := by
  unfold renew createAccessToken createRefreshToken
  refine Prog.obeys_op_bind.mpr ⟨trivial, fun now => ?_, fun _ _ h => nomatch h⟩
  have hpos : 0 < max 1 (c.exp - now) := by omega
  simp only
  rw [revokeToken_eq hpos]
  refine Prog.obeys_op_bind.mpr
    ⟨⟨hpos, c, marker, rfl, rfl⟩, fun _ => ?_, fun _ _ h => nomatch h⟩
  refine Prog.obeys_op_bind.mpr ⟨trivial, fun _ => ?_, fun _ _ h => nomatch h⟩
  refine Prog.obeys_op_bind.mpr ⟨⟨rfl, rfl, hglobally, nofun⟩, fun _ => ?_, fun _ _ h => nomatch h⟩
  refine Prog.obeys_op_bind.mpr
    ⟨⟨rfl, rfl, hglobally, fun _ => rfl⟩, fun _ => ?_, fun _ _ h => nomatch h⟩
  exact fun _ _ => rfl

theorem rotateRefreshToken_obeys :
    (rotateRefreshToken crypto settings token f).Obeys (flow settings)
      (fun out p => ∀ pair, out = .ok pair → ∃ c, p = .renewed c) .idle := by
  unfold rotateRefreshToken
  refine (verifyToken_obeys (some f)).seq ?_ fun _ _ _ _ h => nomatch h
  intro c p hp
  obtain ⟨marker, rfl, hglobally⟩ := hp c rfl
  by_cases hrefresh : c.typ = .refresh
  · rw [if_neg (not_not.mpr hrefresh)]
    refine Prog.obeys_op_bind.mpr
      ⟨⟨c, marker, rfl, hrefresh, rfl⟩, fun used => ?_, fun _ _ h => nomatch h⟩
    cases used with
    | true => exact reuseDetected_obeys fun _ _ _ h => nomatch h
    | false =>
        rw [if_neg Bool.false_ne_true]
        have hrenew : (renew settings c f).Obeys (flow settings)
            (fun out p => ∀ pair, out = .ok pair → ∃ c, p = .renewed c) (.pending c marker) :=
          (renew_obeys hglobally).mono fun _ _ hout pair hok => ⟨c, hout pair hok⟩
        unfold familyIsRevoked
        split
        next fid _ =>
          refine Prog.obeys_op_bind.mpr ⟨trivial, fun revoked => ?_, fun _ _ h => nomatch h⟩
          cases revoked with
          | true => exact fun _ h => nomatch h
          | false =>
              rw [if_neg Bool.false_ne_true]
              exact hrenew
        next => exact hrenew
  · rw [if_pos hrefresh]
    exact fun _ h => nomatch h

theorem createTokenPair_obeys (s f : String) :
    (createTokenPair settings s f).Obeys (flow settings) (fun _ _ => True) .idle := by
  unfold createTokenPair createAccessToken createRefreshToken
  refine Prog.obeys_op_bind.mpr ⟨rfl, fun fid => ?_, fun _ => trivial⟩
  refine Prog.obeys_op_bind.mpr ⟨⟨rfl, nofun⟩, fun _ => ?_, fun _ => trivial⟩
  exact Prog.obeys_op_bind.mpr ⟨⟨rfl, fun _ => rfl⟩, fun _ => trivial, fun _ => trivial⟩

theorem revokeAllUserTokens_obeys (user reason : String) :
    (revokeAllUserTokens user reason).Obeys (flow settings)
      (fun out p => out = .ok () → ∃ t, p = .marked t) .idle := by
  unfold revokeAllUserTokens
  refine Prog.obeys_op_bind.mpr ⟨trivial, fun t => ?_, fun _ h => nomatch h⟩
  refine Prog.obeys_op_bind.mpr ⟨⟨by decide, t, rfl, rfl⟩, fun _ => ?_, fun _ h => nomatch h⟩
  refine Prog.obeys_op_bind.mpr ⟨trivial, fun at_ => ?_, fun _ h => nomatch h⟩
  exact Prog.obeys_op.mpr ⟨trivial, fun _ _ => ⟨t, rfl⟩⟩

-- ============================================================================
-- Runs
-- ============================================================================

/-- The calls that obey `flow`. -/
def AuthCall.flows : AuthCall → Bool
  | .createTokenPair _ _ => true
  | .rotateRefreshToken _ _ => true
  | .revokeAllUserTokens _ _ => true
  | .tick _ => true
  | _ => false

/-- The phase in which a call returns. -/
def AuthCall.Ends : AuthCall → Except Exc Unit → Phase → Prop
  | .rotateRefreshToken _ _, out, p => out = .ok () → ∃ c, p = .renewed c
  | .revokeAllUserTokens _ _, out, p => out = .ok () → ∃ t, p = .marked t
  | _, _, _ => True

theorem AuthCall.prog_obeys {call : AuthCall} (h : call.flows) :
    (call.prog crypto settings).Obeys (flow settings) call.Ends .idle := by
  cases call with
  | createTokenPair s f =>
      exact (createTokenPair_obeys s f).seq (fun _ _ _ => trivial) fun _ _ _ => trivial
  | rotateRefreshToken token f =>
      refine rotateRefreshToken_obeys.seq ?_ fun _ _ _ h => nomatch h
      intro pair p hp _
      exact hp pair rfl
  | revokeAllUserTokens user reason => exact revokeAllUserTokens_obeys user reason
  | tick n => exact Prog.obeys_op.mpr ⟨trivial, fun _ => trivial⟩
  | _ => cases h

variable {ι : Type} {calls : ι → AuthCall} {w₀ : World}

abbrev AuthHistory (ι : Type) : Type := History ι World AuthOp.Ans Exc

abbrev AuthConfig (ι : Type) : Type := Config ι World AuthOp.Ans Exc Unit

/-- The configuration in which no call has begun. -/
def start (crypto : Crypto) (settings : Settings) (calls : ι → AuthCall) (w₀ : World) :
    AuthConfig ι where
  world := w₀
  pool i := (calls i).prog crypto settings

variable [DecidableEq ι] {suspends : AuthOp → Bool} {env : Env World AuthOp.Ans Exc}
variable {h : AuthHistory ι} {c c' : AuthConfig ι} {i : ι} {ev : Event World AuthOp.Ans Exc}

/-- How far call `i` has come. -/
def phase (settings : Settings) (h : AuthHistory ι) (i : ι) : Phase :=
  (flow settings).ghost .idle i h

theorem phase_cons : phase settings ((i, ev) :: h) =
    Function.update (phase settings h) i ((flow settings).next (phase settings h i) ev.op ev.ans) :=
  (flow settings).ghost_cons .idle i ev h

theorem phase_self : phase settings ((i, ev) :: h) i =
    (flow settings).next (phase settings h i) ev.op ev.ans := by
  rw [phase_cons, Function.update_self]

theorem phase_other {j : ι} (hji : j ≠ i) :
    phase settings ((i, ev) :: h) j = phase settings h j := by
  rw [phase_cons, Function.update_of_ne hji]

/-- What one step of a run can do. -/
theorem step_cases (hrun : Run suspends (fun _ => env) (start crypto settings calls w₀) h c)
    (hstep : Step suspends (fun _ => env) c i ev c') (hflows : (calls i).flows) :
    (flow settings).may (phase settings h i) ev.op ∧ (calls i).May settings ev.op ∧
      env c.world ev.op ev.ans c'.world ∧ ev.pre = c.world := by
  have hobeys : ((start crypto settings calls w₀).pool i).Obeys (flow settings) (calls i).Ends
      .idle := AuthCall.prog_obeys hflows
  have honly : ((start crypto settings calls w₀).pool i).Obeys
      (onlyOps ((calls i).May settings)) (fun _ _ => True) () :=
    (calls i).prog_only crypto settings ()
  have hrun' := hrun.cons hstep
  refine ⟨hrun'.may hobeys List.suffix_rfl, hrun'.may honly List.suffix_rfl, ?_, ?_⟩
  · cases hstep with
    | mk _ _ henv => exact henv
  · exact hstep.pre_eq

/-- A call that has returned has come to its last phase. -/
theorem ends_of_returned (hrun : Run suspends (fun _ => env) (start crypto settings calls w₀) h c)
    (hflows : (calls i).flows) (hret : c.pool i = .ret ()) :
    (calls i).Ends (.ok ()) (phase settings h i) := by
  have hobeys : ((start crypto settings calls w₀).pool i).Obeys (flow settings) (calls i).Ends
      .idle := AuthCall.prog_obeys hflows
  have hend := hrun.obeys hobeys
  rw [hret] at hend
  exact hend

/-- The tokens stay sound. -/
theorem run_sound (henv : ∀ w e a w', env w e a w' → authEnv crypto settings w e a w')
    (hrun : Run suspends (fun _ => env) (start crypto settings calls w₀) h c)
    (hflows : ∀ i, (calls i).flows) (h₀ : w₀.Sound crypto settings) :
    c.world.Sound crypto settings := by
  induction hrun with
  | nil => exact h₀
  | cons hr hs ih =>
      obtain ⟨-, hmay, hworld, -⟩ := step_cases hr hs (hflows _)
      refine ih.step (henv _ _ _ _ hworld) fun d hd => ?_
      rw [hd] at hmay
      exact hmay.ttl_eq

end Mtrader.Auth
