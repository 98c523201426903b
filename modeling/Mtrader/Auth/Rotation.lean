/-
  Mtrader.Auth.Rotation

  Interleaved rotations: how often a refresh token is rotated, and how many refresh
  tokens of a family can still be.

  The refresh tokens are tickets of Ticket/Handover.lean: the used key spends one, and
  the rotation that has set it mints the next one of the family.  A rotation looks the
  used key up and sets it with two commands; what keeps the tickets single is that no
  other rotation of the token looks it up in between (`Apart`).
-/

import Mtrader.Auth.Flow
import Mtrader.Auth.Reuse
import Mtrader.Ticket.Handover
import Mathlib.Data.Fintype.Basic

namespace Mtrader.Auth

open Py Coroutine Expiring

variable {crypto : Crypto} {settings : Settings} {ι : Type} [DecidableEq ι]

/-- What the phase of a call means for the refresh tokens. -/
def Phase.hand : Phase → Ticket.Hand Claims (Option String)
  | .drawn fid => .reserved (some fid)
  | .pending c _ => .checked c
  | .spent c _ => .spent c
  | .renewed c => .renewed c
  | _ => .empty

/-- The refresh tokens as tickets. -/
def tickets (ph : ι → Phase) (w : World) : Ticket.State Claims (Option String) ι where
  issued := {c | c ∈ w.minted ∧ c.typ = .refresh}
  spent := {c | w.Live (.used c.jti)}
  hand i := (ph i).hand

/-- Time passes only while no key expires. -/
def KeysLast (ev : Event World AuthOp.Ans Exc) : Prop :=
  ∀ n, ev.op = .tick n → ∀ k, ev.pre.Live k → (ev.pre.later n).Live k

/-- Redis, as long as no key expires. -/
def lastingEnv (crypto : Crypto) (settings : Settings) : Env World AuthOp.Ans Exc :=
  (authEnv crypto settings).restrict KeysLast

-- ============================================================================
-- One step
-- ============================================================================

/-- What one step of a call does to its phase and to the world. -/
inductive Move (crypto : Crypto) (settings : Settings) (p : Phase) (w : World) :
    AuthOp → Phase → World → Prop
  /-- Neither the tokens nor the used keys change. -/
  | quiet {e : AuthOp} {p' : Phase} {w' : World} (hhand : p'.hand = p.hand)
      (hclaims : p'.claims = p.claims) (hminted : w'.minted = w.minted)
      (hissued : w'.issued = w.issued) (hused : ∀ jti, w'.Live (.used jti) ↔ w.Live (.used jti)) :
      Move crypto settings p w e p' w'
  | draw {u : String} (hp : p = .idle) (hu : w.Fresh u) :
      Move crypto settings p w .uuid4 (.drawn u) (w.draw u)
  | opened {token : String} {c : Claims} (hp : p = .idle) (hc : w.opens crypto token = some c) :
      Move crypto settings p w (.verifySignature token) (.opened c) w
  | access {d : Draft} {u : String} (htyp : d.tokenType = .access) :
      Move crypto settings p w (.mint d) p (w.sign (buildClaims crypto settings d w.now u))
  | start {d : Draft} {u fid : String} (hp : p = .drawn fid) (htyp : d.tokenType = .refresh)
      (hfid : d.familyId = some fid) :
      Move crypto settings p w (.mint d) .idle (w.sign (buildClaims crypto settings d w.now u))
  | check {c : Claims} {marker : Option Blob} (hp : p = .looked c marker) (htyp : c.typ = .refresh)
      (hunused : ¬ w.Live (.used c.jti)) :
      Move crypto settings p w (.exists (.used c.jti)) (.pending c marker) w
  | spend {c : Claims} {marker : Option Blob} {v : Blob} {ex : ℤ} (hp : p = .pending c marker)
      (hex : 0 < ex) :
      Move crypto settings p w (.set (.used c.jti) v ex) (.spent c marker)
        (w.set (.used c.jti) v ex)
  | renew {c : Claims} {marker : Option Blob} {d : Draft} {u : String} (hp : p = .spent c marker)
      (htyp : d.tokenType = .refresh) (hfid : d.familyId = some (c.fid.getD "None")) :
      Move crypto settings p w (.mint d) (.renewed c)
        (w.sign (buildClaims crypto settings d w.now u))

variable {p : Phase} {w w' : World}

/-- A call that only changes a phase which is of no concern here. -/
theorem Move.stay {e : AuthOp} {p' : Phase} (hhand : p'.hand = p.hand)
    (hclaims : p'.claims = p.claims) : Move crypto settings p w e p' w :=
  .quiet hhand hclaims rfl rfl fun _ => Iff.rfl

theorem live_set_other {k : Key} {v : Blob} {ex : ℤ} (hk : ∀ jti, k ≠ .used jti) (jti : String) :
    (w.set k v ex).Live (.used jti) ↔ w.Live (.used jti) :=
  Store.live_set_of_ne (hk jti).symm

theorem move_mint {d : Draft} {u : String} {a : Except Exc (String × String)}
    (hmay : p.MayMint d)
    (hok : a = .ok (crypto.encode (buildClaims crypto settings d w.now u), u)) :
    Move crypto settings p w (.mint d) ((flow settings).next p (.mint d) a)
      (w.sign (buildClaims crypto settings d w.now u)) := by
  subst hok
  have haccess : ¬ d.tokenType = .refresh → d.tokenType = .access := by
    intro hne
    cases htyp : d.tokenType with
    | access => rfl
    | refresh => exact absurd htyp hne
  cases p with
  | drawn fid =>
      rw [next_mint_drawn]
      by_cases htyp : d.tokenType = .refresh
      · rw [if_pos htyp]
        exact .start rfl htyp (hmay htyp)
      · rw [if_neg htyp]
        exact .access (haccess htyp)
  | spent c marker =>
      rw [next_mint_spent]
      by_cases htyp : d.tokenType = .refresh
      · rw [if_pos htyp]
        exact .renew rfl htyp (hmay.2.2 htyp)
      · rw [if_neg htyp]
        exact .access (haccess htyp)
  | _ => cases hmay

theorem move_exists {k : Key} {a : Except Exc Bool} (hmay : (flow settings).may p (.exists k))
    (hok : a = .ok (decide (w.Live k))) :
    Move crypto settings p w (.exists k) ((flow settings).next p (.exists k) a) w := by
  subst hok
  cases k with
  | used jti =>
      obtain ⟨c, marker, rfl, htyp, rfl⟩ := hmay
      by_cases hlive : w.Live (.used c.jti)
      · rw [decide_eq_true hlive]
        exact .stay rfl rfl
      · rw [decide_eq_false hlive]
        exact .check rfl htyp hlive
  | _ => cases p <;> exact .stay rfl rfl

theorem move_set {k : Key} {v : Blob} {ex : ℤ} {a : Except Exc Unit}
    (hmay : (flow settings).may p (.set k v ex))
    (henv : authEnv crypto settings w (.set k v ex) a w') :
    Move crypto settings p w (.set k v ex) ((flow settings).next p (.set k v ex) a) w' := by
  have hquiet : (∀ jti, k ≠ .used jti) → Move crypto settings p w (.set k v ex)
      ((flow settings).next p (.set k v ex) a) w' := by
    intro hk
    have hstay : ((flow settings).next p (.set k v ex) a).hand = p.hand ∧
        ((flow settings).next p (.set k v ex) a).claims = p.claims := by
      cases k with
      | used jti => exact absurd rfl (hk jti)
      | _ => cases p <;> cases a <;> exact ⟨rfl, rfl⟩
    cases change_of_env henv with
    | quiet => exact .stay hstay.1 hstay.2
    | set => exact .quiet hstay.1 hstay.2 rfl rfl (live_set_other hk)
  cases k with
  | used jti =>
      obtain ⟨hex, c, marker, rfl, rfl⟩ := hmay
      obtain ⟨rfl, rfl⟩ := (authEnv_set hex).mp henv
      exact .spend rfl hex
  | _ =>
      apply hquiet
      intro jti heq
      cases heq

theorem move_of_may {e : AuthOp} {a : Except Exc e.Ans} (hmay : (flow settings).may p e)
    (henv : lastingEnv crypto settings w e a w') :
    Move crypto settings p w e ((flow settings).next p e a) w' := by
  obtain ⟨henv, hlast⟩ := henv
  cases e with
  | now =>
      obtain ⟨rfl, rfl⟩ := henv
      cases p <;> exact .stay rfl rfl
  | uuid4 =>
      obtain ⟨u, hu, rfl, rfl⟩ := henv
      cases hmay
      exact .draw rfl hu
  | verifySignature token =>
      obtain ⟨rfl, rfl⟩ := henv
      cases hmay
      cases hc : w'.opens crypto token with
      | some c => exact .opened rfl hc
      | none => exact .stay rfl rfl
  | mint d =>
      obtain ⟨u, hu, hok, rfl⟩ := henv
      exact move_mint hmay.2 hok
  | «exists» k =>
      obtain ⟨hok, rfl⟩ := henv
      exact move_exists hmay hok
  | get k =>
      obtain ⟨rfl, rfl⟩ := henv
      cases k with
      | revokeAfter user =>
          obtain ⟨c, rfl, -⟩ := hmay
          exact .stay rfl rfl
      | _ => cases hmay
  | set k v ex => exact move_set hmay henv
  | lpush user at_ reason =>
      obtain ⟨rfl, rfl⟩ := henv
      cases p <;> exact .stay rfl rfl
  | tick n =>
      obtain ⟨rfl, rfl⟩ := henv
      have hused : ∀ jti, (w.later n).Live (.used jti) ↔ w.Live (.used jti) := by
        intro jti
        constructor
        · intro hlive
          refine Store.Live.earlier hlive ?_
          show w.now ≤ w.now + n
          omega
        · exact hlast n rfl (.used jti)
      cases p <;> exact .quiet rfl rfl rfl rfl hused

-- ============================================================================
-- What is known of the tokens
-- ============================================================================

/-- What holds of the tokens in every state of a run. -/
structure Tracked (ph : ι → Phase) (w : World) : Prop where
  claims_mem : ∀ i c, (ph i).claims = some c → c ∈ w.minted
  family : ∀ c ∈ w.minted, c.typ = .refresh → ∃ fid ∈ w.issued, fid ≠ "" ∧ c.fid = some fid
  reserved : ∀ i f, (ph i).hand = .reserved f → ∃ fid ∈ w.issued, fid ≠ "" ∧ f = some fid

variable {ph : ι → Phase} {i : ι} {e : AuthOp} {p' : Phase}

theorem buildClaims_fid {d : Draft} {now : ℤ} {u fid : String} (hne : fid ≠ "")
    (hfid : d.familyId = some fid) : (buildClaims crypto settings d now u).fid = some fid := by
  show present d.familyId = some fid
  rw [hfid]
  exact present_eq_some.mpr ⟨rfl, hne⟩

omit [DecidableEq ι] in
/-- The refresh token that a rotation mints is of the family of its predecessor. -/
theorem Tracked.renewed_fid {c : Claims} {d : Draft} {now : ℤ} {u : String} (h : Tracked ph w)
    (hc : c ∈ w.minted) (htyp : c.typ = .refresh) (hfid : d.familyId = some (c.fid.getD "None")) :
    (buildClaims crypto settings d now u).fid = c.fid := by
  obtain ⟨fid, -, hne, hcfid⟩ := h.family c hc htyp
  rw [hcfid] at hfid ⊢
  exact buildClaims_fid hne hfid

/-- Phases and tokens after a step that mints nothing. -/
theorem Tracked.step {l : List String} (h : Tracked ph w) (hminted : w'.minted = w.minted)
    (hissued : w'.issued = l ++ w.issued)
    (hclaims : ∀ c, p'.claims = some c → c ∈ w.minted)
    (hhand : ∀ f, p'.hand = .reserved f → ∃ fid ∈ w'.issued, fid ≠ "" ∧ f = some fid) :
    Tracked (Function.update ph i p') w' := by
  have hmono : w.issued ⊆ w'.issued := by
    rw [hissued]
    exact List.subset_append_right _ _
  refine ⟨?_, ?_, ?_⟩
  · intro j c hj
    rw [hminted]
    by_cases hji : j = i
    · rw [hji, Function.update_self] at hj
      exact hclaims c hj
    · rw [Function.update_of_ne hji] at hj
      exact h.claims_mem j c hj
  · intro c hc htyp
    rw [hminted] at hc
    obtain ⟨fid, hmem, hfid⟩ := h.family c hc htyp
    exact ⟨fid, hmono hmem, hfid⟩
  · intro j f hj
    by_cases hji : j = i
    · rw [hji, Function.update_self] at hj
      exact hhand f hj
    · rw [Function.update_of_ne hji] at hj
      obtain ⟨fid, hmem, hfid⟩ := h.reserved j f hj
      exact ⟨fid, hmono hmem, hfid⟩

/-- Phases and tokens after a minting. -/
theorem Tracked.mint {c : Claims} (h : Tracked ph w)
    (hclaims : ∀ c, p'.claims = some c → (ph i).claims = some c)
    (hhand : ∀ f, p'.hand = .reserved f → (ph i).hand = .reserved f)
    (hfamily : c.typ = .refresh → ∃ fid ∈ w.issued, fid ≠ "" ∧ c.fid = some fid) :
    Tracked (Function.update ph i p') (w.sign c) := by
  refine ⟨?_, ?_, ?_⟩
  · intro j c' hj
    apply List.mem_cons_of_mem
    by_cases hji : j = i
    · rw [hji, Function.update_self] at hj
      exact h.claims_mem i c' (hclaims c' hj)
    · rw [Function.update_of_ne hji] at hj
      exact h.claims_mem j c' hj
  · intro c' hc' htyp
    have hold : ∃ fid ∈ w.issued, fid ≠ "" ∧ c'.fid = some fid := by
      rcases List.mem_cons.mp hc' with rfl | hc'
      · exact hfamily htyp
      · exact h.family c' hc' htyp
    obtain ⟨fid, hmem, hfid⟩ := hold
    exact ⟨fid, List.mem_cons_of_mem _ hmem, hfid⟩
  · intro j f hj
    have hold : ∃ fid ∈ w.issued, fid ≠ "" ∧ f = some fid := by
      by_cases hji : j = i
      · rw [hji, Function.update_self] at hj
        exact h.reserved i f (hhand f hj)
      · rw [Function.update_of_ne hji] at hj
        exact h.reserved j f hj
    obtain ⟨fid, hmem, hfid⟩ := hold
    exact ⟨fid, List.mem_cons_of_mem _ hmem, hfid⟩

/-- Every step keeps the tokens tracked; `htyp` is kept by the tickets. -/
theorem Move.tracked (hmove : Move crypto settings (ph i) w e p' w') (h : Tracked ph w)
    (htyp : ∀ c marker, ph i = .spent c marker → c.typ = .refresh) :
    Tracked (Function.update ph i p') w' := by
  cases hmove with
  | quiet hhand hclaims hminted hissued hused =>
      refine h.step (l := []) hminted hissued ?_ ?_
      · intro c hc
        rw [hclaims] at hc
        exact h.claims_mem i c hc
      · intro f hf
        rw [hhand] at hf
        rw [hissued]
        exact h.reserved i f hf
  | @draw u hp hu =>
      refine h.step (l := [u]) rfl rfl nofun ?_
      intro f hf
      cases hf
      exact ⟨u, List.mem_cons_self, hu.1, rfl⟩
  | @opened token c hp hc =>
      refine h.step (l := []) rfl rfl ?_ nofun
      intro c' hc'
      cases hc'
      exact (World.opens_eq_some.mp hc).2
  | access hd =>
      refine h.mint (fun _ hc => hc) (fun _ hf => hf) fun hrefresh => ?_
      rw [show (buildClaims crypto settings _ _ _).typ = _ from hd] at hrefresh
      cases hrefresh
  | @start d u fid hp hd hfid =>
      refine h.mint nofun nofun fun _ => ?_
      obtain ⟨fid', hmem, hne, heq⟩ := h.reserved i (some fid) (by rw [hp]; rfl)
      cases heq
      exact ⟨fid, hmem, hne, buildClaims_fid hne hfid⟩
  | @check c marker hp hrefresh hunused =>
      refine h.step (l := []) rfl rfl ?_ nofun
      intro c' hc'
      cases hc'
      exact h.claims_mem i c (by rw [hp]; rfl)
  | @spend c marker v ex hp hex =>
      refine h.step (l := []) rfl rfl ?_ nofun
      intro c' hc'
      cases hc'
      exact h.claims_mem i c (by rw [hp]; rfl)
  | @renew c marker d u hp hd hfid =>
      have hc : c ∈ w.minted := h.claims_mem i c (by rw [hp]; rfl)
      have hrefresh := htyp c marker hp
      refine h.mint ?_ nofun fun _ => ?_
      · intro c' hc'
        rw [hp]
        exact hc'
      · rw [h.renewed_fid hc hrefresh hfid]
        exact h.family c hc hrefresh

-- ============================================================================
-- The tickets
-- ============================================================================

theorem tickets_update {issued spent : Set Claims}
    (hissued : {c | c ∈ w'.minted ∧ c.typ = .refresh} = issued)
    (hspent : {c | w'.Live (.used c.jti)} = spent) :
    tickets (Function.update ph i p') w' =
      ⟨issued, spent, Function.update (tickets ph w).hand i p'.hand⟩ := by
  have hhand : (fun j => (Function.update ph i p' j).hand) =
      Function.update (tickets ph w).hand i p'.hand := by
    funext j
    by_cases hji : j = i
    · rw [hji, Function.update_self, Function.update_self]
    · rw [Function.update_of_ne hji, Function.update_of_ne hji]
      rfl
  rw [tickets, hissued, hspent, hhand]

/-- A step of no concern for the tickets. -/
theorem tickets_stay (hissued : {c | c ∈ w'.minted ∧ c.typ = .refresh} = (tickets ph w).issued)
    (hspent : {c | w'.Live (.used c.jti)} = (tickets ph w).spent) (hhand : p'.hand = (ph i).hand) :
    tickets (Function.update ph i p') w' = tickets ph w := by
  rw [tickets_update hissued hspent, hhand]
  show Ticket.State.mk _ _ (Function.update (tickets ph w).hand i ((tickets ph w).hand i)) = _
  rw [Function.update_eq_self]

omit [DecidableEq ι] in
/-- An access token is no ticket. -/
theorem issued_sign_access {c : Claims} (htyp : c.typ = .access) :
    {c' | c' ∈ (w.sign c).minted ∧ c'.typ = .refresh} = (tickets ph w).issued := by
  ext c'
  constructor
  · rintro ⟨hmem, htyp'⟩
    rcases List.mem_cons.mp hmem with rfl | hmem
    · rw [htyp] at htyp'
      cases htyp'
    · exact ⟨hmem, htyp'⟩
  · rintro ⟨hmem, htyp'⟩
    exact ⟨List.mem_cons_of_mem _ hmem, htyp'⟩

omit [DecidableEq ι] in
/-- A minted refresh token is one more ticket. -/
theorem issued_sign {c : Claims} (htyp : c.typ = .refresh) :
    {c' | c' ∈ (w.sign c).minted ∧ c'.typ = .refresh} = insert c (tickets ph w).issued := by
  ext c'
  constructor
  · rintro ⟨hmem, htyp'⟩
    rcases List.mem_cons.mp hmem with rfl | hmem
    · exact .inl rfl
    · exact .inr ⟨hmem, htyp'⟩
  · rintro (rfl | ⟨hmem, htyp'⟩)
    · exact ⟨List.mem_cons_self, htyp⟩
    · exact ⟨List.mem_cons_of_mem _ hmem, htyp'⟩

/-- The token that is looked up as used. -/
def AuthOp.usedLookup : AuthOp → Option String
  | .exists (.used jti) => some jti
  | _ => none

/-- The token that has been found unused and has not been set used yet. -/
def Phase.pendingOn : Phase → Option String
  | .pending c _ => some c.jti
  | _ => none

theorem pendingOn_of_checked {c : Claims} (h : p.hand = .checked c) : p.pendingOn = some c.jti := by
  cases p with
  | pending c' marker =>
      cases h
      rfl
  | _ => cases h

/-- Setting the used key of a token spends it and no other. -/
theorem World.Sound.live_used_set {c c' : Claims} {v : Blob} {ex : ℤ}
    (h : w.Sound crypto settings) (hc : c ∈ w.minted) (hc' : c' ∈ w.minted) (hex : 0 < ex) :
    (w.set (.used c.jti) v ex).Live (.used c'.jti) ↔ w.Live (.used c'.jti) ∨ c' = c := by
  by_cases hjti : c'.jti = c.jti
  · have heq : c' = c := h.eq_of_jti hc' hc hjti
    have hlive : (w.set (.used c.jti) v ex).Live (.used c.jti) := by
      apply Store.live_set_self.mpr
      show w.now < w.now + ex
      omega
    exact iff_of_true (heq ▸ hlive) (.inr heq)
  · have hne : Key.used c'.jti ≠ .used c.jti := fun heq => hjti (Key.used.inj heq)
    have hlive : (w.set (.used c.jti) v ex).Live (.used c'.jti) ↔ w.Live (.used c'.jti) :=
      Store.live_set_of_ne hne
    rw [hlive]
    refine ⟨.inl, fun hor => hor.resolve_right ?_⟩
    rintro rfl
    exact hjti rfl

/-- Every step is a move of the tickets, or leaves them alone. -/
theorem Move.tickets_step (hmove : Move crypto settings (ph i) w e p' w') (h : Tracked ph w)
    (hsound : w.Sound crypto settings) (hsingle : (tickets ph w).Single Claims.fid)
    (halone : ∀ jti ∈ e.usedLookup, ∀ j, j ≠ i → (ph j).pendingOn ≠ some jti) :
    tickets (Function.update ph i p') w' = tickets ph w ∨
      Ticket.Step Claims.fid (tickets ph w) i (tickets (Function.update ph i p') w') := by
  cases hmove with
  | quiet hhand hclaims hminted hissued hused =>
      apply Or.inl
      apply tickets_stay
      · rw [hminted]
        rfl
      · exact Set.ext fun c => hused c.jti
      · exact hhand
  | @draw u hp hu =>
      apply Or.inr
      rw [tickets_update rfl rfl]
      refine .reserve (congrArg Phase.hand hp) ?_ ?_
      · rintro c ⟨hc, htyp⟩ hfid
        obtain ⟨fid, hmem, -, hcfid⟩ := h.family c hc htyp
        rw [hcfid] at hfid
        cases hfid
        exact hu.2 hmem
      · intro j hj
        obtain ⟨fid, hmem, -, hfid⟩ := h.reserved j _ hj
        cases hfid
        exact hu.2 hmem
  | @opened token c hp hc =>
      apply Or.inl
      apply tickets_stay rfl rfl
      rw [hp]
      rfl
  | @access d u hd =>
      apply Or.inl
      exact tickets_stay (issued_sign_access hd) rfl rfl
  | @start d u fid hp hd hfid =>
      apply Or.inr
      obtain ⟨fid', -, hne, heq⟩ := h.reserved i (some fid) (congrArg Phase.hand hp)
      cases heq
      have hnew : (buildClaims crypto settings d w.now u).fid = some fid := buildClaims_fid hne hfid
      rw [tickets_update (issued_sign hd) rfl]
      refine .start ?_
      rw [hnew]
      exact congrArg Phase.hand hp
  | @check c marker hp htyp hunused =>
      apply Or.inr
      rw [tickets_update rfl rfl]
      refine .check (congrArg Phase.hand hp) ⟨h.claims_mem i c (congrArg Phase.claims hp), htyp⟩
        hunused ?_
      intro j hj
      by_cases hji : j = i
      · rw [hji] at hj
        have hempty : (tickets ph w).hand i = .empty := congrArg Phase.hand hp
        rw [hempty] at hj
        cases hj
      · exact halone c.jti rfl j hji (pendingOn_of_checked hj)
  | @spend c marker v ex hp hex =>
      apply Or.inr
      have hhand : (tickets ph w).hand i = .checked c := congrArg Phase.hand hp
      have hc : c ∈ w.minted := (hsingle.checked_mem i c hhand).1.1
      rw [tickets_update rfl rfl]
      apply Ticket.Step.spend hhand
      rintro c' ⟨hc', -⟩
      exact hsound.live_used_set hc hc' hex
  | @renew c marker d u hp hd hfid =>
      apply Or.inr
      have hhand : (tickets ph w).hand i = .spent c := congrArg Phase.hand hp
      obtain ⟨hc, htyp⟩ := (hsingle.spender_mem i c (.inl hhand)).1
      rw [tickets_update (issued_sign hd) rfl]
      exact .renew hhand (h.renewed_fid hc htyp hfid)

-- ============================================================================
-- Runs
-- ============================================================================

/-- No other rotation is about to set the used key that is looked up. -/
def Alone (settings : Settings) (h : AuthHistory ι) (i : ι) (ev : Event World AuthOp.Ans Exc) :
    Prop :=
  ∀ jti ∈ ev.op.usedLookup, ∀ j, j ≠ i → (phase settings h j).pendingOn ≠ some jti

/-- No rotation looked a used key up while another one was about to set it. -/
def Apart (settings : Settings) : AuthHistory ι → Prop
  | [] => True
  | (i, ev) :: h => Alone settings h i ev ∧ Apart settings h

instance [Fintype ι] (h : AuthHistory ι) (i : ι) (ev : Event World AuthOp.Ans Exc) :
    Decidable (Alone settings h i ev) :=
  inferInstanceAs (Decidable (∀ jti ∈ ev.op.usedLookup, _))

instance decidableApart [Fintype ι] : (h : AuthHistory ι) → Decidable (Apart settings h)
  | [] => isTrue trivial
  | (i, ev) :: h =>
      haveI := decidableApart h
      inferInstanceAs (Decidable (Alone settings h i ev ∧ Apart settings h))

/-- What a run keeps. -/
structure Exclusive (crypto : Crypto) (settings : Settings) (ph : ι → Phase) (w : World) :
    Prop where
  sound : w.Sound crypto settings
  tracked : Tracked ph w
  single : (tickets ph w).Single Claims.fid

omit [DecidableEq ι] in
theorem Exclusive.start (t₀ : ℤ) :
    Exclusive crypto settings (fun _ : ι => .idle) (World.start t₀) := by
  refine ⟨World.start_sound t₀, ⟨nofun, nofun, nofun⟩, ?_⟩
  refine ⟨nofun, nofun, ?_, ?_, ?_⟩
  · rintro i t (hi | hi)
    · cases hi
    · cases hi
  · rintro i j t (hi | hi)
    · cases hi
    · cases hi
  · rintro f b b' (⟨⟨hmem, -⟩, -⟩ | hi | hi)
    · cases hmem
    · cases hi
    · cases hi

variable {suspends : AuthOp → Bool} {calls : ι → AuthCall} {h : AuthHistory ι} {c : AuthConfig ι}
variable {t₀ : ℤ}

theorem AuthCall.flows_of_ofSession {call : AuthCall} (h : call.ofSession) : call.flows := by
  cases call with
  | createTokenPair s f => rfl
  | rotateRefreshToken token f => rfl
  | tick n => rfl
  | _ => cases h

theorem exclusive_of_run (hcalls : ∀ i, (calls i).ofSession)
    (hrun : Run suspends (fun _ => lastingEnv crypto settings)
      (start crypto settings calls (.start t₀)) h c)
    (hapart : Apart settings h) : Exclusive crypto settings (phase settings h) c.world := by
  induction hrun with
  | nil => exact Exclusive.start t₀
  | @cons h c c' i ev hr hs ih =>
      have hI := ih hapart.2
      obtain ⟨hmay, hcall, henv, -⟩ := step_cases hr hs (AuthCall.flows_of_ofSession (hcalls i))
      have hmove := move_of_may hmay henv
      rw [phase_cons]
      refine ⟨hI.sound.step henv.1 ?_, hmove.tracked hI.tracked ?_, ?_⟩
      · intro d hd
        rw [hd] at hcall
        exact hcall.ttl_eq
      · intro c marker hp
        exact (hI.single.spender_mem i c (.inl (congrArg Phase.hand hp))).1.2
      · rcases hmove.tickets_step hI.tracked hI.sound hI.single hapart.1 with heq | hstep
        · rw [heq]
          exact hI.single
        · exact hstep.single hI.single

theorem Move.claims_eq {c : Claims} (hmove : Move crypto settings p w e p' w')
    (hc : p'.claims = some c) :
    p.claims = some c ∨ ∃ token, e = .verifySignature token ∧ w.opens crypto token = some c := by
  cases hmove with
  | quiet hhand hclaims hminted hissued hused => exact .inl (hclaims ▸ hc)
  | draw hp hu => cases hc
  | opened hp hopens =>
      cases hc
      exact .inr ⟨_, rfl, hopens⟩
  | access hd => exact .inl hc
  | start hp hd hfid => cases hc
  | check hp htyp hunused => exact .inl (hp ▸ hc)
  | spend hp hex => exact .inl (hp ▸ hc)
  | renew hp hd hfid => exact .inl (hp ▸ hc)

/-- A rotation works on the claims of its own token. -/
theorem claims_own {token f : String} {cl : Claims} (hcalls : ∀ i, (calls i).ofSession)
    (hrun : Run suspends (fun _ => lastingEnv crypto settings)
      (start crypto settings calls (.start t₀)) h c)
    (hcall : calls i = .rotateRefreshToken token f) (hcl : (phase settings h i).claims = some cl) :
    crypto.payload token = some cl := by
  induction hrun with
  | nil => cases hcl
  | @cons h c c' j ev hr hs ih =>
      by_cases hij : i = j
      · subst hij
        rw [phase_self] at hcl
        obtain ⟨hmay, hcallMay, henv, -⟩ :=
          step_cases hr hs (AuthCall.flows_of_ofSession (hcalls i))
        rcases (move_of_may hmay henv).claims_eq hcl with hold | ⟨token', hop, hopens⟩
        · exact ih hold
        · rw [hcall, hop] at hcallMay
          cases hcallMay with
          | rotateReads _ _ _ hown =>
              rw [← hown token' rfl]
              exact (World.opens_eq_some.mp hopens).1
      · rw [phase_other hij] at hcl
        exact ih hcl

/-- A call that has returned has renewed the token it was given. -/
theorem renewed_of_returned {token f : String} (hcalls : ∀ i, (calls i).ofSession)
    (hrun : Run suspends (fun _ => lastingEnv crypto settings)
      (start crypto settings calls (.start t₀)) h c)
    (hcall : calls i = .rotateRefreshToken token f) (hret : c.pool i = .ret ()) :
    ∃ cl, crypto.payload token = some cl ∧ (phase settings h i).hand = .renewed cl := by
  have hends := ends_of_returned hrun (AuthCall.flows_of_ofSession (hcalls i)) hret
  rw [hcall] at hends
  obtain ⟨cl, hphase⟩ := hends rfl
  refine ⟨cl, claims_own hcalls hrun hcall ?_, ?_⟩
  · rw [hphase]
    rfl
  · rw [hphase]
    rfl

/-- In a run in which no rotation looks the used key of a token up while another is about
    to set it, a refresh token is rotated at most once, and each family has at most one
    refresh token that can be rotated. -/
theorem rotations_exclusive (hcalls : ∀ i, (calls i).ofSession)
    (hrun : Run suspends (fun _ => lastingEnv crypto settings)
      (start crypto settings calls (.start t₀)) h c)
    (hapart : Apart settings h) :
    (∀ i j token f f', calls i = .rotateRefreshToken token f →
      calls j = .rotateRefreshToken token f' → c.pool i = .ret () → c.pool j = .ret () → i = j) ∧
    ∀ token token' f f' l l', c.world.Rotates crypto settings token f l →
      c.world.Rotates crypto settings token' f' l' → l.fid = l'.fid → l = l' := by
  have hsingle := (exclusive_of_run hcalls hrun hapart).single
  constructor
  · intro i j token f f' hi hj hreti hretj
    obtain ⟨cl, hpayload, hhand⟩ := renewed_of_returned hcalls hrun hi hreti
    obtain ⟨cl', hpayload', hhand'⟩ := renewed_of_returned hcalls hrun hj hretj
    have heq : cl' = cl := Option.some.inj (hpayload'.symm.trans hpayload)
    rw [heq] at hhand'
    exact hsingle.spender_alone i j cl (.inr hhand) (.inr hhand')
  · intro token token' f f' l l' hl hl' hfid
    have hmem : ∀ {token f l}, c.world.Rotates crypto settings token f l →
        l ∈ c.world.minted ∧ l.typ = .refresh :=
      fun h => ⟨(World.opens_eq_some.mp h.accepts.opens).2, h.refresh⟩
    exact hsingle.unspent_unique (hmem hl) (hmem hl') hl.not_used hl'.not_used hfid

-- ============================================================================
-- Two rotations of one token
-- ============================================================================

/-- A session of alice's, and two rotations of its refresh token. -/
def sessionAndTwoRotations : Fin 3 → AuthCall
  | 0 => .createTokenPair "alice" "laptop"
  | 1 => .rotateRefreshToken (firstToken testSettings) "laptop"
  | 2 => .rotateRefreshToken (firstToken testSettings) "laptop"

/-- Redis, while the clock stands still. -/
def redisHandler (_ : Fin 3) : Handler World AuthOp.Ans Exc :=
  fun w e => match e with
    | .tick _ => none
    | e => some (authAnswers plainCrypto testSettings w e)

theorem redisHandler_sound (i : Fin 3) (w : World) (e : AuthOp) (a : Except Exc e.Ans) (w' : World)
    (h : redisHandler i w e = some (a, w')) : lastingEnv plainCrypto testSettings w e a w' := by
  have hanswer : some (authAnswers plainCrypto testSettings w e) = some (a, w') →
      authEnv plainCrypto testSettings w e a w' := by
    intro heq
    have hsound : authEnv plainCrypto testSettings w e _ _ := authAnswers_sound w e
    rw [Option.some.inj heq] at hsound
    exact hsound
  cases e with
  | tick n => cases h
  | _ => exact ⟨hanswer h, nofun⟩

/-- The second rotation looks the used key up before the first one has set it. -/
def lookupsFirst : List (Fin 3) :=
  List.replicate 3 0 ++ List.replicate 5 1 ++ List.replicate 5 2 ++ List.replicate 6 1 ++
    List.replicate 6 2

/-- Both rotations succeed. -/
theorem not_rotations_exclusive :
    ¬ ∀ (h : AuthHistory (Fin 3)) (c : AuthConfig (Fin 3)),
        Run AuthOp.suspends (fun _ => lastingEnv plainCrypto testSettings)
          (start plainCrypto testSettings sessionAndTwoRotations (.start 0)) h c →
        ∀ i j token f f', sessionAndTwoRotations i = .rotateRefreshToken token f →
          sessionAndTwoRotations j = .rotateRefreshToken token f' →
          c.pool i = .ret () → c.pool j = .ret () → i = j := by
  intro hall
  have hrace : ∃ h c, Run AuthOp.suspends (fun _ => lastingEnv plainCrypto testSettings)
      (start plainCrypto testSettings sessionAndTwoRotations (.start 0)) h c ∧
      (c.pool 1).returned ∧ (c.pool 2).returned :=
    Config.exists_run redisHandler_sound lookupsFirst _ (by decide +kernel)
  obtain ⟨h, c, hrun, hret₁, hret₂⟩ := hrace
  obtain ⟨_, hret₁⟩ := Prog.eq_ret_of_returned hret₁
  obtain ⟨_, hret₂⟩ := Prog.eq_ret_of_returned hret₂
  have heq := hall h c hrun 1 2 _ _ _ rfl rfl hret₁ hret₂
  exact absurd heq (by decide)

/-- The second rotation begins after the first one. -/
theorem rotations_exclusive_serial :
    ∃ h c, Run AuthOp.suspends (fun _ => lastingEnv plainCrypto testSettings)
        (start plainCrypto testSettings sessionAndTwoRotations (.start 0)) h c ∧
      Apart testSettings h ∧ (c.pool 1).returned ∧
      (∀ i j token f f', sessionAndTwoRotations i = .rotateRefreshToken token f →
        sessionAndTwoRotations j = .rotateRefreshToken token f' →
        c.pool i = .ret () → c.pool j = .ret () → i = j) ∧
      ∀ token token' f f' l l', c.world.Rotates plainCrypto testSettings token f l →
        c.world.Rotates plainCrypto testSettings token' f' l' → l.fid = l'.fid → l = l' := by
  have hserial : ∃ h c, Run AuthOp.suspends (fun _ => lastingEnv plainCrypto testSettings)
      (start plainCrypto testSettings sessionAndTwoRotations (.start 0)) h c ∧
      Apart testSettings h ∧ (c.pool 1).returned :=
    Config.exists_run redisHandler_sound
      (List.replicate 3 0 ++ List.replicate 11 1 ++ List.replicate 3 2) _ (by decide +kernel)
  obtain ⟨h, c, hrun, hapart, hret⟩ := hserial
  exact ⟨h, c, hrun, hapart, hret, rotations_exclusive (by decide) hrun hapart⟩

end Mtrader.Auth
