/-
  Mtrader.Auth.Revocation

  Rotations that are interleaved with a `revoke_all_user_tokens` of their user.

  The revocation sets a marker with the second it has read from the clock; a token
  that was minted later is accepted.  A rotation that has looked the marker up before
  it was set still mints: its tokens are refused only if the clock has not gone on
  (`InTime`).
-/

import Mtrader.Auth.Rotation

namespace Mtrader.Auth

open Py Coroutine Expiring

variable {crypto : Crypto} {settings : Settings} {w w' : World} {p p' : Phase} {e : AuthOp}

-- ============================================================================
-- Phases
-- ============================================================================

/-- The second that a revocation has read from the clock. -/
def Phase.clockRead : Phase → Option ℤ
  | .clock t => some t
  | .marked t => some t
  | _ => none

/-- A revocation has set the user's marker. -/
def Phase.isMarked : Phase → Bool
  | .marked _ => true
  | _ => false

/-- The claims of a rotation and what it has found as its user's marker, until it has
    minted. -/
def Phase.lookup : Phase → Option (Claims × Option Blob)
  | .looked c marker => some (c, marker)
  | .pending c marker => some (c, marker)
  | .spent c marker => some (c, marker)
  | _ => none

/-- What an answer does to the phase of a call. -/
inductive Advance (crypto : Crypto) (w : World) (p : Phase) : AuthOp → Phase → Prop
  | stay {e : AuthOp} : Advance crypto w p e p
  | drawn {u : String} (hp : p = .idle) : Advance crypto w p .uuid4 (.drawn u)
  | opened {token : String} {c : Claims} (hp : p = .idle) (hc : w.opens crypto token = some c) :
      Advance crypto w p (.verifySignature token) (.opened c)
  | clock (hp : p = .idle) : Advance crypto w p .now (.clock w.now)
  | looked {c : Claims} (hp : p = .opened c) :
      Advance crypto w p (.get (.revokeAfter c.sub)) (.looked c (w.get (.revokeAfter c.sub)))
  | pending {c : Claims} {marker : Option Blob} (hp : p = .looked c marker) :
      Advance crypto w p (.exists (.used c.jti)) (.pending c marker)
  | spent {c : Claims} {marker v : _} {ex : ℤ} (hp : p = .pending c marker) :
      Advance crypto w p (.set (.used c.jti) v ex) (.spent c marker)
  | started {d : Draft} : Advance crypto w p (.mint d) .idle
  | renewed {c : Claims} {marker : Option Blob} {d : Draft} (hp : p = .spent c marker) :
      Advance crypto w p (.mint d) (.renewed c)
  | marked {t ex : ℤ} {user : String} (hp : p = .clock t) :
      Advance crypto w p (.set (.revokeAfter user) (.int t) ex) (.marked t)

theorem advance_of_may {a : Except Exc e.Ans} (hmay : (flow settings).may p e)
    (henv : authEnv crypto settings w e a w') :
    Advance crypto w p e ((flow settings).next p e a) := by
  cases e with
  | now =>
      obtain ⟨rfl, rfl⟩ := henv
      cases p with
      | idle => exact .clock rfl
      | _ => exact .stay
  | uuid4 =>
      obtain ⟨u, -, rfl, -⟩ := henv
      cases hmay
      exact .drawn rfl
  | verifySignature token =>
      obtain ⟨rfl, -⟩ := henv
      cases hmay
      cases hc : w.opens crypto token with
      | some c => exact .opened rfl hc
      | none => exact .stay
  | mint d =>
      obtain ⟨u, -, rfl, -⟩ := henv
      cases p with
      | drawn fid =>
          rw [next_mint_drawn]
          split
          next => exact .started
          next => exact .stay
      | spent c marker =>
          rw [next_mint_spent]
          split
          next => exact .renewed rfl
          next => exact .stay
      | _ => exact .stay
  | «exists» k =>
      obtain ⟨rfl, -⟩ := henv
      cases k with
      | used jti =>
          obtain ⟨c, marker, rfl, -, rfl⟩ := hmay
          cases decide (w.Live (.used c.jti)) with
          | true => exact .stay
          | false => exact .pending rfl
      | _ => cases p <;> exact .stay
  | get k =>
      obtain ⟨rfl, -⟩ := henv
      cases k with
      | revokeAfter user =>
          obtain ⟨c, rfl, rfl⟩ := hmay
          exact .looked rfl
      | _ => cases hmay
  | set k v ex =>
      cases k with
      | used jti =>
          obtain ⟨-, c, marker, rfl, rfl⟩ := hmay
          cases a with
          | ok _ => exact .spent rfl
          | error x => exact .stay
      | revokeAfter user =>
          obtain ⟨-, t, rfl, rfl⟩ := hmay
          cases a with
          | ok _ => exact .marked rfl
          | error x => exact .stay
      | _ => cases p <;> cases a <;> exact .stay
  | lpush user at_ reason => cases p <;> exact .stay
  | tick n => cases p <;> exact .stay

theorem Advance.claims {c : Claims} (h : Advance crypto w p e p') (hc : p'.claims = some c) :
    p.claims = some c ∨ ∃ token, w.opens crypto token = some c := by
  cases h with
  | stay => exact .inl hc
  | drawn hp => cases hc
  | opened hp hopens =>
      cases hc
      exact .inr ⟨_, hopens⟩
  | clock hp => cases hc
  | looked hp => exact .inl (hp ▸ hc)
  | pending hp => exact .inl (hp ▸ hc)
  | spent hp => exact .inl (hp ▸ hc)
  | started => cases hc
  | renewed hp => exact .inl (hp ▸ hc)
  | marked hp => cases hc

theorem Advance.lookup {c : Claims} {marker : Option Blob} (h : Advance crypto w p e p')
    (hl : p'.lookup = some (c, marker)) :
    p.lookup = some (c, marker) ∨
      p.claims = some c ∧ e = .get (.revokeAfter c.sub) ∧ marker = w.get (.revokeAfter c.sub) := by
  cases h with
  | stay => exact .inl hl
  | drawn hp => cases hl
  | opened hp hopens => cases hl
  | clock hp => cases hl
  | looked hp =>
      cases hl
      exact .inr ⟨congrArg Phase.claims hp, rfl, rfl⟩
  | pending hp => exact .inl (hp ▸ hl)
  | spent hp => exact .inl (hp ▸ hl)
  | started => cases hl
  | renewed hp => cases hl
  | marked hp => cases hl

theorem Advance.clockRead {t : ℤ} (h : Advance crypto w p e p') (ht : p'.clockRead = some t) :
    p.clockRead = some t ∨ t = w.now := by
  cases h with
  | stay => exact .inl ht
  | clock hp =>
      cases ht
      exact .inr rfl
  | marked hp => exact .inl (hp ▸ ht)
  | _ => cases ht

theorem Advance.marked_inv {t : ℤ} (h : Advance crypto w p e p') (ht : p' = .marked t) :
    p = .marked t ∨ ∃ user ex, e = .set (.revokeAfter user) (.int t) ex := by
  cases h with
  | stay => exact .inl ht
  | marked hp =>
      cases ht
      exact .inr ⟨_, _, rfl⟩
  | _ => cases ht

theorem Advance.drawn_inv {fid : String} (h : Advance crypto w p e p') (hd : p' = .drawn fid) :
    p = .drawn fid ∨ e = .uuid4 := by
  cases h with
  | stay => exact .inl hd
  | drawn hp => exact .inr rfl
  | _ => cases hd

-- ============================================================================
-- Looked up before, minted after
-- ============================================================================

/-- The user whose marker is looked up. -/
def AuthOp.markerLookup : AuthOp → Option String
  | .get (.revokeAfter user) => some user
  | _ => none

def AuthOp.mints : AuthOp → Bool
  | .mint _ => true
  | _ => false

variable {ι : Type} [DecidableEq ι]

/-- Call `i` has looked the user's marker up before call `r` set it. -/
def Overlooked (settings : Settings) (user : String) (r : ι) : AuthHistory ι → ι → Prop
  | [], _ => False
  | (j, ev) :: h, i =>
      (j = i ∧ ev.op.markerLookup = some user ∧ (phase settings h r).isMarked = false) ∨
        Overlooked settings user r h i

/-- A call that has looked the marker up before `r` set it mints no later than in the
    second that `r` has read; and once `r` has set the marker, it exists whenever it is
    looked up. -/
def StepInTime (settings : Settings) (user : String) (r : ι) (h : AuthHistory ι) (i : ι)
    (ev : Event World AuthOp.Ans Exc) : Prop :=
  (ev.op.mints → Overlooked settings user r h i →
    ∀ t ∈ (phase settings h r).clockRead, ev.pre.now ≤ t) ∧
  (ev.op.markerLookup = some user → (phase settings h r).isMarked →
    ev.pre.Live (.revokeAfter user))

/-- Every step of the run was in time. -/
def InTime (settings : Settings) (user : String) (r : ι) : AuthHistory ι → Prop
  | [] => True
  | (i, ev) :: h => StepInTime settings user r h i ev ∧ InTime settings user r h

variable {user : String} {r : ι}

instance decidableOverlooked : (h : AuthHistory ι) → (i : ι) →
    Decidable (Overlooked settings user r h i)
  | [], _ => isFalse id
  | (j, ev) :: h, i =>
      haveI := decidableOverlooked h i
      inferInstanceAs (Decidable ((j = i ∧ ev.op.markerLookup = some user ∧
        (phase settings h r).isMarked = false) ∨ Overlooked settings user r h i))

instance (h : AuthHistory ι) (i : ι) (ev : Event World AuthOp.Ans Exc) :
    Decidable (StepInTime settings user r h i ev) :=
  inferInstanceAs (Decidable (_ ∧ _))

instance decidableInTime : (h : AuthHistory ι) → Decidable (InTime settings user r h)
  | [] => isTrue trivial
  | (i, ev) :: h =>
      haveI := decidableInTime h
      inferInstanceAs (Decidable (StepInTime settings user r h i ev ∧ InTime settings user r h))

/-- What holds while the calls of a run rotate and `r` revokes the tokens of the user. -/
structure Cut (crypto : Crypto) (settings : Settings) (user : String) (r : ι)
    (h : AuthHistory ι) (w : World) : Prop where
  sound : w.Sound crypto settings
  no_drawn : ∀ i fid, phase settings h i ≠ .drawn fid
  claims_mem : ∀ i c, (phase settings h i).claims = some c → c ∈ w.minted
  iat_le : ∀ t ∈ (phase settings h r).clockRead, ∀ c ∈ w.minted, c.sub = user → c.iat ≤ t
  marker : ∀ t, phase settings h r = .marked t →
    ∃ entry, w.redis.entries (.revokeAfter user) = some entry ∧ entry.value = .int t
  overlooked : ∀ i c marker, (phase settings h i).lookup = some (c, marker) → c.sub = user →
    globallyRevoked c.iat marker = .ok false → Overlooked settings user r h i

/-- A rotation or a clock step. -/
def AuthCall.rotates : AuthCall → Bool
  | .rotateRefreshToken _ _ => true
  | .tick _ => true
  | _ => false

-- ============================================================================
-- One step
-- ============================================================================

/-- A call that may run beside the revocation. -/
def Beside (calls : ι → AuthCall) (user : String) (r : ι) (i : ι) : Prop :=
  if i = r then ∃ reason, calls i = .revokeAllUserTokens user reason else (calls i).rotates

omit [DecidableEq ι] in
theorem AuthCall.May.of_rotates {call : AuthCall} (hmay : call.May settings e)
    (hcall : call.rotates) : e ≠ .uuid4 ∧ ∀ u v ex, e ≠ .set (.revokeAfter u) v ex := by
  cases hmay with
  | rotateReads token f he hown =>
      constructor
      · rintro rfl
        cases he
      · rintro u v ex rfl
        cases he
  | spendUsed => exact ⟨nofun, nofun⟩
  | spendRevoked => exact ⟨nofun, nofun⟩
  | revokeFamily => exact ⟨nofun, nofun⟩
  | renewAccess => exact ⟨nofun, nofun⟩
  | renewRefresh => exact ⟨nofun, nofun⟩
  | tick n => exact ⟨nofun, nofun⟩
  | _ => cases hcall

theorem AuthCall.May.of_revokeAll {reason : String}
    (hmay : (AuthCall.revokeAllUserTokens user reason).May settings e) :
    e ≠ .uuid4 ∧ e.mints = false ∧ ∀ u v ex, e = .set (.revokeAfter u) v ex → u = user := by
  cases hmay with
  | revokeAllReads _ _ he =>
      refine ⟨?_, ?_, ?_⟩
      · rintro rfl
        cases he
      · cases e with
        | mint d => cases he
        | _ => rfl
      · rintro u v ex rfl
        cases he
  | revokeAll =>
      refine ⟨nofun, rfl, ?_⟩
      intro u v ex heq
      cases heq
      rfl
  | audit => exact ⟨nofun, rfl, nofun⟩

/-- What is minted by one operation. -/
theorem authEnv_minted {c : Claims} {a : Except Exc e.Ans}
    (henv : authEnv crypto settings w e a w') (hc : c ∈ w'.minted) :
    c ∈ w.minted ∨ ∃ d u, e = .mint d ∧ c = buildClaims crypto settings d w.now u := by
  cases change_of_env henv with
  | @sign d u hu =>
      rcases List.mem_cons.mp hc with rfl | hc
      · exact .inr ⟨d, u, rfl, rfl⟩
      · exact .inl hc
  | _ => exact .inl hc

variable {calls : ι → AuthCall} {h : AuthHistory ι} {i : ι} {ev : Event World AuthOp.Ans Exc}

/-- A marker that is looked up in time refuses the token. -/
theorem Cut.refuses {c : Claims} (hC : Cut crypto settings user r h w) (hc : c ∈ w.minted)
    (hsub : c.sub = user) (hmarked : (phase settings h r).isMarked)
    (hlive : w.Live (.revokeAfter user)) :
    globallyRevoked c.iat (w.get (.revokeAfter user)) = .ok true := by
  cases hphase : phase settings h r with
  | marked t =>
      obtain ⟨entry, hentry, hvalue⟩ := hC.marker t hphase
      obtain ⟨entry', hentry', hlt⟩ := Store.live_iff.mp hlive
      rw [hentry] at hentry'
      cases hentry'
      have hget : w.get (.revokeAfter user) = some (.int t) :=
        Store.get_eq_some.mpr ⟨entry, hentry, hvalue, hlt⟩
      have hle : c.iat ≤ t := by
        apply hC.iat_le t _ c hc hsub
        rw [hphase]
        rfl
      rw [hget]
      show Except.ok (decide (c.iat ≤ t)) = .ok true
      rw [decide_eq_true hle]
  | _ =>
      rw [hphase] at hmarked
      cases hmarked

/-- What a call may do to the markers and the tokens, whichever it is. -/
theorem Beside.can (hbeside : Beside calls user r i) (hcall : (calls i).May settings e) :
    e ≠ .uuid4 ∧ (i = r → e.mints = false) ∧
      ∀ u v ex, e = .set (.revokeAfter u) v ex → i = r ∧ u = user := by
  unfold Beside at hbeside
  split at hbeside
  next hir =>
    obtain ⟨reason, hreason⟩ := hbeside
    rw [hreason] at hcall
    obtain ⟨huuid, hmints, hset⟩ := hcall.of_revokeAll
    exact ⟨huuid, fun _ => hmints, fun u v ex heq => ⟨hir, hset u v ex heq⟩⟩
  next hir =>
    obtain ⟨huuid, hset⟩ := hcall.of_rotates hbeside
    exact ⟨huuid, fun heq => absurd heq hir, fun u v ex heq => absurd heq (hset u v ex)⟩

/-- A rotation that mints for the user has looked the marker up before it was set. -/
theorem Cut.overlooked_of_mint {d : Draft} (hC : Cut crypto settings user r h w)
    (hmint : (phase settings h i).MayMint d) (hsub : d.subject = user) :
    Overlooked settings user r h i := by
  cases hphase : phase settings h i with
  | drawn fid => exact absurd hphase (hC.no_drawn i fid)
  | spent c marker =>
      rw [hphase] at hmint
      obtain ⟨hsubject, hglobally, -⟩ := hmint
      apply hC.overlooked i c marker
      · rw [hphase]
        rfl
      · rw [← hsubject, hsub]
      · exact hglobally
  | _ =>
      rw [hphase] at hmint
      cases hmint

/-- The second that the revocation reads is not before any of the user's tokens. -/
theorem Cut.iat_le_step {t : ℤ} {c : Claims} (hC : Cut crypto settings user r h w)
    (hadvance : Advance crypto w (phase settings h i) ev.op (phase settings ((i, ev) :: h) i))
    (hmint : ∀ d, ev.op = .mint d → (phase settings h i).MayMint d)
    (hmints : i = r → ev.op.mints = false) (henv : authEnv crypto settings w ev.op ev.ans w')
    (hpre : ev.pre = w) (hin : StepInTime settings user r h i ev)
    (ht : (phase settings ((i, ev) :: h) r).clockRead = some t) (hc : c ∈ w'.minted)
    (hsub : c.sub = user) : c.iat ≤ t := by
  have hread : (phase settings h r).clockRead = some t ∨ i = r ∧ t = w.now := by
    by_cases hri : r = i
    · rw [hri] at ht
      rcases hadvance.clockRead ht with hold | hnow
      · exact .inl (hri ▸ hold)
      · exact .inr ⟨hri.symm, hnow⟩
    · rw [phase_other hri] at ht
      exact .inl ht
  rcases authEnv_minted henv hc with hold | ⟨d, u, hop, rfl⟩
  · rcases hread with hread | ⟨-, rfl⟩
    · exact hC.iat_le t hread c hold hsub
    · exact hC.sound.iat_le c hold
  · rcases hread with hread | ⟨hir, -⟩
    · have hle := hin.1 (by rw [hop]; rfl) (hC.overlooked_of_mint (hmint d hop) hsub) t hread
      rw [hpre] at hle
      exact hle
    · have hno := hmints hir
      rw [hop] at hno
      cases hno

/-- The marker keeps the second that the revocation has read. -/
theorem Cut.marker_step {t : ℤ} (hC : Cut crypto settings user r h w)
    (hadvance : Advance crypto w (phase settings h i) ev.op (phase settings ((i, ev) :: h) i))
    (hmay : (flow settings).may (phase settings h i) ev.op)
    (hset : ∀ u v ex, ev.op = .set (.revokeAfter u) v ex → i = r ∧ u = user)
    (henv : authEnv crypto settings w ev.op ev.ans w')
    (ht : phase settings ((i, ev) :: h) r = .marked t) :
    ∃ entry, w'.redis.entries (.revokeAfter user) = some entry ∧ entry.value = .int t := by
  by_cases hop : ∃ u v ex, ev.op = .set (.revokeAfter u) v ex
  · obtain ⟨u, v, ex, hop⟩ := hop
    obtain ⟨hir, hu⟩ := hset u v ex hop
    rw [← hir, phase_self] at ht
    obtain ⟨pre, op, ans⟩ := ev
    simp only at hop
    subst hop hu
    obtain ⟨hex, t', hphase, rfl⟩ := hmay
    obtain ⟨hans, rfl⟩ := (authEnv_set hex).mp henv
    rw [hphase, hans] at ht
    cases ht
    exact ⟨_, Store.entries_set_self, rfl⟩
  · have hold : phase settings h r = .marked t := by
      by_cases hri : r = i
      · rw [hri] at ht
        rcases hadvance.marked_inv ht with hold | ⟨u, ex, hop'⟩
        · exact hri ▸ hold
        · exact absurd ⟨u, _, ex, hop'⟩ hop
      · rw [phase_other hri] at ht
        exact ht
    obtain ⟨entry, hentry, hvalue⟩ := hC.marker t hold
    refine ⟨entry, ?_, hvalue⟩
    rw [authEnv_entries henv fun v ex heq => hop ⟨user, v, ex, heq⟩]
    exact hentry

/-- A rotation that goes on has looked the marker up before it was set. -/
theorem Cut.overlooked_step {j : ι} {c : Claims} {marker : Option Blob}
    (hC : Cut crypto settings user r h w)
    (hadvance : Advance crypto w (phase settings h i) ev.op (phase settings ((i, ev) :: h) i))
    (hpre : ev.pre = w) (hin : StepInTime settings user r h i ev)
    (hj : (phase settings ((i, ev) :: h) j).lookup = some (c, marker)) (hsub : c.sub = user)
    (hglobally : globallyRevoked c.iat marker = .ok false) :
    Overlooked settings user r ((i, ev) :: h) j := by
  by_cases hji : j = i
  · rw [hji] at hj
    rcases hadvance.lookup hj with hold | ⟨hclaims, hop, hmarker⟩
    · exact .inr (hji ▸ hC.overlooked i c marker hold hsub hglobally)
    · have hlookup : ev.op.markerLookup = some user := by
        rw [hop, hsub]
        rfl
      cases hmarked : (phase settings h r).isMarked with
      | false => exact .inl ⟨hji.symm, hlookup, hmarked⟩
      | true =>
          have hlive := hin.2 hlookup hmarked
          rw [hpre] at hlive
          have hrevoked := hC.refuses (hC.claims_mem i c hclaims) hsub hmarked hlive
          rw [hmarker, hsub, hrevoked] at hglobally
          cases hglobally
  · rw [phase_other hji] at hj
    exact .inr (hC.overlooked j c marker hj hsub hglobally)

/-- Every step in time keeps the cut. -/
theorem Cut.step (hC : Cut crypto settings user r h w) (hbeside : Beside calls user r i)
    (hmay : (flow settings).may (phase settings h i) ev.op) (hcall : (calls i).May settings ev.op)
    (henv : authEnv crypto settings w ev.op ev.ans w') (hpre : ev.pre = w)
    (hin : StepInTime settings user r h i ev) :
    Cut crypto settings user r ((i, ev) :: h) w' := by
  have hadvance := advance_of_may hmay henv
  rw [← phase_self] at hadvance
  obtain ⟨huuid, hmints, hset⟩ := hbeside.can hcall
  have hmint : ∀ d, ev.op = .mint d → (phase settings h i).MayMint d := by
    intro d hop
    rw [hop] at hmay
    exact hmay.2
  refine ⟨?_, ?_, ?_, ?_, ?_, ?_⟩
  · apply hC.sound.step henv
    intro d hop
    rw [hop] at hcall
    exact hcall.ttl_eq
  · intro j fid hj
    by_cases hji : j = i
    · rw [hji] at hj
      rcases hadvance.drawn_inv hj with hold | hop
      · exact hC.no_drawn i fid hold
      · exact huuid hop
    · rw [phase_other hji] at hj
      exact hC.no_drawn j fid hj
  · intro j c hj
    apply (authEnv_mono henv).2
    by_cases hji : j = i
    · rw [hji] at hj
      rcases hadvance.claims hj with hold | ⟨token, hopens⟩
      · exact hC.claims_mem i c hold
      · exact (World.opens_eq_some.mp hopens).2
    · rw [phase_other hji] at hj
      exact hC.claims_mem j c hj
  · intro t ht c hc hsub
    exact hC.iat_le_step hadvance hmint hmints henv hpre hin ht hc hsub
  · intro t ht
    exact hC.marker_step hadvance hmay hset henv ht
  · intro j c marker hj hsub hglobally
    exact hC.overlooked_step hadvance hpre hin hj hsub hglobally

-- ============================================================================
-- Runs
-- ============================================================================

variable {suspends : AuthOp → Bool} {c : AuthConfig ι} {w₀ : World}

theorem Beside.flows (hi : Beside calls user r i) : (calls i).flows := by
  unfold Beside at hi
  split at hi
  next =>
    obtain ⟨reason, hreason⟩ := hi
    rw [hreason]
    rfl
  next =>
    cases hcall : calls i with
    | rotateRefreshToken token f => rfl
    | tick n => rfl
    | _ =>
        rw [hcall] at hi
        cases hi

theorem Cut.start (h₀ : w₀.Sound crypto settings) : Cut crypto settings user r [] w₀ where
  sound := h₀
  no_drawn _ _ hi := by cases hi
  claims_mem _ _ hi := by cases hi
  iat_le _ hi := by cases hi
  marker _ hi := by cases hi
  overlooked _ _ _ hi := by cases hi

theorem cut_of_run (hcalls : ∀ i, Beside calls user r i) (h₀ : w₀.Sound crypto settings)
    (hrun : Run suspends (fun _ => authEnv crypto settings) (start crypto settings calls w₀) h c)
    (hin : InTime settings user r h) : Cut crypto settings user r h c.world := by
  induction hrun with
  | nil => exact Cut.start h₀
  | @cons h c c' i ev hr hs ih =>
      obtain ⟨hmay, hcall, henv, hpre⟩ := step_cases hr hs (hcalls i).flows
      exact (ih hin.2).step (hcalls i) hmay hcall henv hpre hin.1

/-- Once the revocation has returned, no token of the user is accepted, if the run was
    in time and the marker exists until the token expires.

    All tokens of the user descend by rotation from those that `w₀` has: the other
    calls only rotate.  A world that runs of the functions reach is sound
    (`AuthRun.sound`, `run_sound`). -/
theorem rotations_revoked (hcalls : ∀ i, Beside calls user r i) (h₀ : w₀.Sound crypto settings)
    (hrun : Run suspends (fun _ => authEnv crypto settings) (start crypto settings calls w₀) h c)
    (hin : InTime settings user r h) (hret : c.pool r = .ret ()) :
    ∀ token fp cl, c.world.opens crypto token = some cl → cl.sub = user →
      (cl.exp < c.world.now ∨ c.world.Live (.revokeAfter user)) →
      c.world.Refuses crypto settings (.verifyToken token fp) := by
  intro token fp cl hopens hsub hmarker
  have hcut := cut_of_run hcalls h₀ hrun hin
  apply World.refuses_verifyToken.mpr
  intro cl' haccepts
  have heq : cl' = cl := Option.some.inj (haccepts.opens.symm.trans hopens)
  rw [heq] at haccepts
  rcases hmarker with hexp | hlive
  · exact absurd haccepts.valid.2.2.2 (not_le.mpr hexp)
  · have hmarked : (phase settings h r).isMarked := by
      have hends := ends_of_returned hrun (hcalls r).flows hret
      have hself := hcalls r
      rw [Beside, if_pos rfl] at hself
      obtain ⟨reason, hreason⟩ := hself
      rw [hreason] at hends
      obtain ⟨t, hphase⟩ := hends rfl
      rw [hphase]
      rfl
    have hrevoked := hcut.refuses (World.opens_eq_some.mp hopens).2 hsub hmarked hlive
    have hnot := haccepts.not_globally
    rw [hsub, hrevoked] at hnot
    cases hnot

-- ============================================================================
-- A rotation that has looked the marker up too early
-- ============================================================================

/-- The calls of the runs below. -/
inductive Party
  | rotation | revocation | clock
  deriving DecidableEq

/-- A rotation of alice's refresh token, a revocation of all her tokens, and a second
    that passes. -/
def rotationAndRevocation : Party → AuthCall
  | .rotation => .rotateRefreshToken (firstToken testSettings) "laptop"
  | .revocation => .revokeAllUserTokens "alice" "logout"
  | .clock => .tick 1

theorem rotationAndRevocation_beside (i : Party) :
    Beside rotationAndRevocation "alice" .revocation i := by
  cases i with
  | rotation => rfl
  | revocation => exact ⟨"logout", rfl⟩
  | clock => rfl

/-- A session of alice's, opened at time 0. -/
def aliceSession : World :=
  let access := buildClaims plainCrypto testSettings (accessDraft testSettings "alice" "laptop")
    0 "uu"
  (((World.start 0).draw "u").sign access).sign (firstRefresh testSettings)

theorem aliceSession_sound : aliceSession.Sound plainCrypto testSettings := by
  have hstart : (World.start 0).Sound plainCrypto testSettings := World.start_sound 0
  have hdrawn := hstart.draw (u := "u") (by decide)
  have haccess := hdrawn.sign (u := "uu") (d := accessDraft testSettings "alice" "laptop")
    (by decide) rfl
  exact haccess.sign (u := "uuuu") (d := refreshDraft testSettings "alice" "u" "laptop")
    (by decide) rfl

def authHandler (_ : Party) : Handler World AuthOp.Ans Exc :=
  fun w e => some (authAnswers plainCrypto testSettings w e)

theorem authHandler_sound (i : Party) (w : World) (e : AuthOp) (a : Except Exc e.Ans) (w' : World)
    (h : authHandler i w e = some (a, w')) : authEnv plainCrypto testSettings w e a w' := by
  have hsound : authEnv plainCrypto testSettings w e _ _ := authAnswers_sound w e
  rw [Option.some.inj h] at hsound
  exact hsound

/-- The rotation looks the marker up, the revocation runs to its end, a second passes,
    and the rotation mints. -/
def revokedMeanwhile : List Party :=
  List.replicate 4 .rotation ++ List.replicate 4 .revocation ++ [.clock] ++
    List.replicate 7 .rotation

/-- The tokens that the rotation mints are accepted after the revocation. -/
theorem not_rotations_revoked :
    ¬ ∀ (h : AuthHistory Party) (c : AuthConfig Party),
        Run AuthOp.suspends (fun _ => authEnv plainCrypto testSettings)
          (start plainCrypto testSettings rotationAndRevocation aliceSession) h c →
        c.pool .revocation = .ret () →
        ∀ token fp cl, c.world.opens plainCrypto token = some cl → cl.sub = "alice" →
          c.world.Refuses plainCrypto testSettings (.verifyToken token fp) := by
  intro hall
  have hrace : ∃ h c, Run AuthOp.suspends (fun _ => authEnv plainCrypto testSettings)
      (start plainCrypto testSettings rotationAndRevocation aliceSession) h c ∧
      (c.pool .revocation).returned ∧ ∃ cl ∈ c.world.minted, cl.sub = "alice" ∧
        cl.ValidAt testSettings c.world.now ∧ cl.jti ≠ "" ∧ ¬ c.world.Live (.revoked cl.jti) ∧
        globallyRevoked cl.iat (c.world.get (.revokeAfter cl.sub)) = .ok false :=
    Config.exists_run authHandler_sound revokedMeanwhile _ (by decide +kernel)
  obtain ⟨h, c, hrun, hret, cl, hmem, hsub, hvalid, hjti, hrevoked, hglobally⟩ := hrace
  obtain ⟨_, hret⟩ := Prog.eq_ret_of_returned hret
  have hopens : c.world.opens plainCrypto (plainCrypto.encode cl) = some cl :=
    World.opens_encode hmem
  have hrefuses := hall h c hrun hret _ none cl hopens hsub
  exact World.refuses_verifyToken.mp hrefuses cl
    ⟨hopens, hvalid, hjti, hrevoked, hglobally, Claims.fingerprintOk_of_absent rfl⟩

/-- The rotation ends before the revocation begins. -/
theorem rotations_revoked_serial :
    ∃ h c, Run AuthOp.suspends (fun _ => authEnv plainCrypto testSettings)
        (start plainCrypto testSettings rotationAndRevocation aliceSession) h c ∧
      InTime testSettings "alice" .revocation h ∧ (c.pool .rotation).returned ∧
      ∃ token cl, c.world.opens plainCrypto token = some cl ∧ cl.sub = "alice" ∧
        c.world.now ≤ cl.exp ∧
        c.world.Refuses plainCrypto testSettings (.verifyToken token none) := by
  have hserial : ∃ h c, Run AuthOp.suspends (fun _ => authEnv plainCrypto testSettings)
      (start plainCrypto testSettings rotationAndRevocation aliceSession) h c ∧
      InTime testSettings "alice" .revocation h ∧ (c.pool .rotation).returned ∧
      (c.pool .revocation).returned ∧
      c.world.Live (.revokeAfter "alice") ∧
      ∃ cl ∈ c.world.minted, cl.sub = "alice" ∧ c.world.now ≤ cl.exp :=
    Config.exists_run authHandler_sound
      (List.replicate 11 .rotation ++ List.replicate 4 .revocation ++ [.clock]) _
      (by decide +kernel)
  obtain ⟨h, c, hrun, hin, hret₀, hret₁, hlive, cl, hmem, hsub, hexp⟩ := hserial
  obtain ⟨_, hret⟩ := Prog.eq_ret_of_returned hret₁
  have hopens : c.world.opens plainCrypto (plainCrypto.encode cl) = some cl :=
    World.opens_encode hmem
  exact ⟨h, c, hrun, hin, hret₀, _, cl, hopens, hsub, hexp,
    rotations_revoked rotationAndRevocation_beside aliceSession_sound hrun hin hret _ none cl
      hopens hsub (.inr hlive)⟩

end Mtrader.Auth
