/-
  Mtrader.Gateway.Cleanup

  What `disconnect` leaves of a connection.

  It finds the connection's user in a hash that expires after a day, and of which
  `touch_heartbeat` makes a new one without the user.  So the clean-up is complete when
  the hash still names the user as it is looked up, and nobody writes the connection
  again behind it.
-/

import Mtrader.Gateway.Manager

namespace Mtrader.Gateway

open Py Coroutine Collection Auth

-- ============================================================================
-- What an operation can do to a connection
-- ============================================================================

section

variable {w w' : World} {e : GatewayOp} {key : Key}

/-- Only `SADD` puts something into a set. -/
theorem mem_members_of_change (hchange : Change w e w') {x : String} (hx : x ∈ w'.members key) :
    x ∈ w.members key ∨ ∃ members, e = .sadd key members ∧ x ∈ members := by
  have hkept : ∀ {s : Finset String}, s = w.members key ∨ s = ∅ → x ∈ s → x ∈ w.members key := by
    rintro s (rfl | rfl) hmem
    · exact hmem
    · exact absurd hmem (Finset.notMem_empty _)
  cases hchange with
  | sadd key' members =>
      by_cases hkey : key = key'
      · subst hkey
        rw [World.members_writeSet, Finset.mem_union] at hx
        rcases hx with hx | hx
        · exact .inl hx
        · exact .inr ⟨members, rfl, List.mem_toFinset.mp hx⟩
      · rw [World.members_writeSet_of_ne hkey] at hx
        exact .inl hx
  | srem key' members =>
      by_cases hkey : key = key'
      · subst hkey
        rw [World.members_writeSet, Finset.mem_sdiff] at hx
        exact .inl hx.1
      · rw [World.members_writeSet_of_ne hkey] at hx
        exact .inl hx
  | expire key' seconds =>
      exact .inl (hkept (World.members_expire.imp id And.right) hx)
  | delete key' =>
      rw [World.members_delete] at hx
      split at hx
      next => exact absurd hx (Finset.notMem_empty _)
      next => exact .inl hx
  | tick seconds => exact .inl (hkept World.members_later hx)
  | _ => exact .inl hx

/-- Only `HSET` puts something into a hash. -/
theorem hash_of_change (hchange : Change w e w') (hne : ∀ mapping, e ≠ .hset key mapping) :
    w'.hash key = w.hash key ∨ w'.hash key = ∅ := by
  cases hchange with
  | hset key' mapping =>
      have hkey : key ≠ key' := by
        rintro rfl
        exact hne mapping rfl
      exact .inl (World.hash_writeHash_of_ne hkey)
  | expire key' seconds => exact World.hash_expire
  | delete key' =>
      rw [World.hash_delete]
      split
      next => exact .inr rfl
      next => exact .inl rfl
  | tick seconds => exact World.hash_later
  | _ => exact .inl rfl

theorem locals_of_change (hchange : Change w e w') {slot : ℕ} {id : String}
    (hne : ∀ manager websocket, e = .setLocal manager id websocket → manager.slot ≠ slot) :
    w'.locals slot id = w.locals slot id ∨ w'.locals slot id = none := by
  cases hchange with
  | setLocal manager id' websocket =>
      left
      rw [World.locals_setLocal, if_neg]
      rintro ⟨rfl, rfl⟩
      exact hne manager websocket rfl rfl
  | popLocal manager id' =>
      rw [World.locals_setLocal]
      split
      next => exact .inr rfl
      next => exact .inl rfl
  | _ => exact .inl rfl

end

-- ============================================================================
-- The phases of disconnect
-- ============================================================================

/-- How far a `disconnect` has come. -/
inductive Leaving
  | idle
  /-- The hash has been asked for the user. -/
  | looked (userId : Option String)
  /-- The connection has been taken out of the user's set. -/
  | removed
  /-- The hash has been deleted. -/
  | deleted
  /-- The local map has been cleared. -/
  | left
  deriving DecidableEq

/-- The operations of `disconnect`. -/
def disconnectFlow (manager : Manager) (id : String) : Discipline GatewayOp.Ans Exc Leaving where
  may p e := match e with
    | .hget key field => p = .idle ∧ key = .connection id ∧ field = .userId
    | .srem key members => ∃ userId user, p = .looked userId ∧ present userId = some user ∧
        key = .userConnections user ∧ members = [id]
    | .delete key => (p = .removed ∨ ∃ userId, p = .looked userId ∧ present userId = none) ∧
        key = .connection id
    | .popLocal manager' id' => p = .deleted ∧ manager' = manager ∧ id' = id
    | _ => False
  next p e a := match e, a with
    | .hget .., .ok userId => .looked userId
    | .srem .., .ok _ => .removed
    | .delete _, .ok _ => .deleted
    | .popLocal .., .ok _ => .left
    | _, _ => p

theorem disconnect_obeys (manager : Manager) (id : String) :
    (manager.disconnect id).Obeys (disconnectFlow manager id)
      (fun out p => out = .ok () → p = .left) .idle := by
  have htail : ∀ {p : Leaving}, (p = .removed ∨ ∃ userId, p = .looked userId ∧
      present userId = none) → (perform (.delete (.connection id)) >>= fun _ =>
        perform (.popLocal manager id)).Obeys (disconnectFlow manager id)
          (fun out p => out = .ok () → p = .left) p := by
    intro p hp
    refine Prog.obeys_op_bind.mpr ⟨⟨hp, rfl⟩, fun _ => ?_, fun _ h => nomatch h⟩
    refine Prog.obeys_op.mpr ⟨⟨rfl, rfl, rfl⟩, fun a h => ?_⟩
    cases a with
    | ok _ => rfl
    | error x => cases h
  unfold Manager.disconnect
  refine Prog.obeys_op_bind.mpr ⟨⟨rfl, rfl, rfl⟩, fun userId => ?_, fun _ h => nomatch h⟩
  cases hpresent : present userId with
  | some user =>
      refine Prog.obeys_op_bind.mpr
        ⟨⟨userId, user, rfl, hpresent, rfl, rfl⟩, fun _ => ?_, fun _ h => nomatch h⟩
      exact htail (.inl rfl)
  | none => exact htail (.inr ⟨userId, rfl, hpresent⟩)

-- ============================================================================
-- What is gone stays gone
-- ============================================================================

/-- What a `disconnect` has achieved so far. -/
def Cleared (manager : Manager) (id : String) (w : World) : Leaving → Prop
  | .idle => True
  | .looked userId => ∀ user, id ∈ w.members (.userConnections user) → present userId = some user
  | .removed => ∀ user, id ∉ w.members (.userConnections user)
  | .deleted => (∀ user, id ∉ w.members (.userConnections user)) ∧ w.hash (.connection id) = ∅
  | .left => (∀ user, id ∉ w.members (.userConnections user)) ∧ w.hash (.connection id) = ∅ ∧
      w.locals manager.slot id = none

/-- A `disconnect` in this phase will not take the connection out of the user's set. -/
def Leaving.misses (user : String) : Leaving → Bool
  | .idle => false
  | .looked userId => present userId ≠ some user
  | _ => true

/-- An operation that writes the connection again behind a `disconnect` of it. -/
def rejoins (manager : Manager) (id : String) (p : Leaving) : GatewayOp → Bool
  | .sadd (.userConnections user) members => id ∈ members ∧ p.misses user
  | .hset key _ => (p = .deleted ∨ p = .left) ∧ key = .connection id
  | .setLocal manager' id' _ => p = .left ∧ manager'.slot = manager.slot ∧ id' = id
  | _ => false

/-- The hash names the user in whose set the connection is. -/
def NamesUser (id : String) (w : World) : Prop :=
  ∀ user, id ∈ w.members (.userConnections user) →
    present (w.hash (.connection id) .userId) = some user

variable {manager : Manager} {id : String} {w w' : World} {p : Leaving} {e : GatewayOp}

/-- Other operations undo nothing. -/
theorem Cleared.frame (h : Cleared manager id w p) (hchange : Change w e w')
    (hrejoins : ¬ rejoins manager id p e) : Cleared manager id w' p := by
  have hmembers : ∀ user, id ∈ w'.members (.userConnections user) → p.misses user →
      id ∈ w.members (.userConnections user) := by
    intro user hmem hmisses
    rcases mem_members_of_change hchange hmem with hmem | ⟨members, rfl, hmem⟩
    · exact hmem
    · exact absurd (decide_eq_true ⟨hmem, hmisses⟩) hrejoins
  have hhash : p = .deleted ∨ p = .left → w.hash (.connection id) = ∅ →
      w'.hash (.connection id) = ∅ := by
    intro hp hempty
    have hne : ∀ mapping, e ≠ .hset (.connection id) mapping := by
      rintro mapping rfl
      exact hrejoins (decide_eq_true ⟨hp, rfl⟩)
    rcases hash_of_change hchange hne with hsame | hsame
    · rw [hsame, hempty]
    · exact hsame
  cases p with
  | idle => trivial
  | looked userId =>
      intro user hmem
      by_contra hmisses
      exact hmisses (h user (hmembers user hmem (decide_eq_true hmisses)))
  | removed => exact fun user hmem => h user (hmembers user hmem rfl)
  | deleted => exact ⟨fun user hmem => h.1 user (hmembers user hmem rfl), hhash (.inl rfl) h.2⟩
  | left =>
      refine ⟨fun user hmem => h.1 user (hmembers user hmem rfl), hhash (.inr rfl) h.2.1, ?_⟩
      have hne : ∀ manager' websocket, e = .setLocal manager' id websocket →
          manager'.slot ≠ manager.slot := by
        rintro manager' websocket rfl hslot
        exact hrejoins (decide_eq_true ⟨rfl, hslot, rfl⟩)
      rcases locals_of_change hchange hne with hsame | hsame
      · rw [hsame, h.2.2]
      · exact hsame

/-- Each operation of `disconnect` achieves what its phase says. -/
theorem Cleared.own {a : Except Exc e.Ans} (h : Cleared manager id w p)
    (hmay : (disconnectFlow manager id).may p e) (henv : gatewayEnv w e a w')
    (hnames : e = .hget (.connection id) .userId → NamesUser id w) :
    Cleared manager id w' ((disconnectFlow manager id).next p e a) := by
  cases e with
  | hget key field =>
      obtain ⟨rfl, rfl, rfl⟩ := hmay
      obtain ⟨rfl, rfl⟩ := henv
      exact hnames rfl
  | srem key members =>
      obtain ⟨userId, user, rfl, hpresent, rfl, rfl⟩ := hmay
      obtain ⟨rfl, rfl⟩ := henv
      intro user' hmem
      by_cases huser : user' = user
      · subst huser
        rw [World.members_writeSet, Finset.mem_sdiff] at hmem
        exact hmem.2 (by simp)
      · rw [World.members_writeSet_of_ne fun hkey => huser (Key.userConnections.inj hkey)] at hmem
        have hlooked := h user' hmem
        rw [hpresent] at hlooked
        exact huser (Option.some.inj hlooked).symm
  | delete key =>
      obtain ⟨hp, rfl⟩ := hmay
      obtain ⟨rfl, rfl⟩ := henv
      have hgone : ∀ user, id ∉ w.members (.userConnections user) := by
        rcases hp with rfl | ⟨userId, rfl, hpresent⟩
        · exact h
        · intro user hmem
          have hlooked := h user hmem
          rw [hpresent] at hlooked
          cases hlooked
      refine ⟨fun user hmem => ?_, by rw [World.hash_delete, if_pos rfl]⟩
      rw [World.members_delete, if_neg nofun] at hmem
      exact hgone user hmem
  | popLocal manager' id' =>
      obtain ⟨rfl, rfl, rfl⟩ := hmay
      obtain ⟨rfl, rfl⟩ := henv
      refine ⟨h.1, h.2, ?_⟩
      rw [World.locals_setLocal, if_pos ⟨rfl, rfl⟩]
  | _ => cases hmay

-- ============================================================================
-- Runs
-- ============================================================================

variable {ι : Type} [DecidableEq ι] {repr : Json → String} {calls : ι → GatewayCall} {w₀ : World}
variable {h : GatewayHistory ι} {c : GatewayConfig ι} {j : ι}

/-- How far call `j`, a `disconnect`, has come. -/
def leaving (manager : Manager) (id : String) (h : GatewayHistory ι) (j : ι) : Leaving :=
  (disconnectFlow manager id).ghost .idle j h

/-- When call `j` asks for the user, the hash names the one in whose set the connection
    is. -/
def LooksUpUser (id : String) (j : ι) (h : GatewayHistory ι) : Prop :=
  ∀ ev, (j, ev) ∈ h → ev.op = .hget (.connection id) .userId → NamesUser id ev.pre

/-- No operation writes the connection again behind call `j`. -/
def NoRejoin (manager : Manager) (id : String) (j : ι) (h : GatewayHistory ι) : Prop :=
  ∀ i ev h', (i, ev) :: h' <:+ h → ¬ rejoins manager id (leaving manager id h' j) ev.op

theorem cleared_of_run (hrun : GatewayRun repr calls w₀ h c)
    (hcall : calls j = .disconnect manager id) (hlooks : LooksUpUser id j h)
    (hrejoin : NoRejoin manager id j h) :
    Cleared manager id c.world (leaving manager id h j) := by
  have hobeys : ((start repr calls w₀).pool j).Obeys (disconnectFlow manager id)
      (fun out p => out = .ok () → p = .left) .idle := by
    show ((calls j).prog repr).Obeys _ _ _
    rw [hcall]
    exact disconnect_obeys manager id
  induction hrun with
  | nil => exact trivial
  | @cons h c c' i ev hr hs ih =>
      have hcleared := ih (fun ev' hmem => hlooks ev' (List.mem_cons_of_mem _ hmem))
        fun i' ev' h' hsuf => hrejoin i' ev' h' (hsuf.trans (List.suffix_cons _ _))
      have hmay : i = j → (disconnectFlow manager id).may (leaving manager id h j) ev.op := by
        rintro rfl
        exact (hr.cons hs).may hobeys List.suffix_rfl
      cases hs with
      | @mk e k a w' _ hp henv =>
          by_cases hij : i = j
          · subst hij
            rw [leaving, Discipline.ghost_self]
            refine hcleared.own (hmay rfl) henv ?_
            rintro rfl
            exact hlooks _ List.mem_cons_self rfl
          · rw [leaving, Discipline.ghost_other hij]
            exact hcleared.frame (change_of_env henv) (hrejoin i _ h List.suffix_rfl)

/-- After a `disconnect` that found its user in the hash, and behind which nobody writes
    the connection again, nothing is left of the connection. -/
theorem disconnected_clean (hrun : GatewayRun repr calls w₀ h c)
    (hcall : calls j = .disconnect manager id) (hlooks : LooksUpUser id j h)
    (hrejoin : NoRejoin manager id j h) (hret : c.pool j = .ret ()) :
    (∀ user, id ∉ c.world.members (.userConnections user)) ∧
      c.world.hash (.connection id) = ∅ ∧ c.world.locals manager.slot id = none := by
  have hobeys : ((start repr calls w₀).pool j).Obeys (disconnectFlow manager id)
      (fun out p => out = .ok () → p = .left) .idle := by
    show ((calls j).prog repr).Obeys _ _ _
    rw [hcall]
    exact disconnect_obeys manager id
  have hend := hrun.obeys hobeys
  rw [hret] at hend
  have hcleared := cleared_of_run hrun hcall hlooks hrejoin
  rw [leaving, hend rfl] at hcleared
  exact hcleared

/-- What is in a set, an `SADD` of the run has put there. -/
theorem sadd_of_mem {clock : ℚ≥0} {incoming : Socket → List Json}
    (hrun : GatewayRun repr calls (World.initial clock incoming) h c) {key : Key} {x : String}
    (hx : x ∈ c.world.members key) :
    ∃ entry ∈ h, ∃ members, entry.2.op = .sadd key members ∧ x ∈ members := by
  induction hrun with
  | nil => exact absurd hx (Finset.notMem_empty _)
  | @cons h c c' i ev hr hs ih =>
      cases hs with
      | @mk e k a w' _ hp henv =>
          rcases mem_members_of_change (change_of_env henv) hx with hx | ⟨members, he, hmem⟩
          · obtain ⟨entry, hentry, hsadd⟩ := ih hx
            exact ⟨entry, List.mem_cons_of_mem _ hentry, hsadd⟩
          · exact ⟨_, List.mem_cons_self, members, he, hmem⟩

/-- The operation puts the connection into no set but the user's. -/
def addsOnly (user id : String) : GatewayOp → Bool
  | .sadd (.userConnections user') members => id ∈ members → user' = user
  | _ => true

/-- A connection that is only ever put into one user's set: the hash has to name that
    user. -/
theorem looksUpUser_of_addsOnly {clock : ℚ≥0} {incoming : Socket → List Json} {user : String}
    (hrun : GatewayRun repr calls (World.initial clock incoming) h c)
    (hadds : ∀ entry ∈ h, addsOnly user id entry.2.op)
    (hlook : ∀ entry ∈ h, entry.1 = j →
      present (entry.2.pre.hash (.connection id) .userId) = some user ∨
        ∀ key field, entry.2.op ≠ .hget key field) : LooksUpUser id j h := by
  intro ev hmem hop user' hin
  rcases hlook _ hmem rfl with hnames | hne
  · obtain ⟨older, newer, hsplit⟩ := List.append_of_mem hmem
    have hsuf : (j, ev) :: newer <:+ h := ⟨older, hsplit.symm⟩
    obtain ⟨c₁, c₂, hr, hs⟩ := hrun.entry hsuf
    rw [hs.pre_eq] at hin
    obtain ⟨entry, hentry, members, hsadd, hid⟩ := sadd_of_mem hr hin
    have honly := hadds entry (by rw [hsplit]; simp [hentry])
    rw [hsadd] at honly
    rw [hnames, of_decide_eq_true honly hid]
  · exact absurd hop (hne _ _)

-- ============================================================================
-- A visit
-- ============================================================================

/-- The coroutines of a visit. -/
inductive Visit
  | arrive | day | beat | leave
  deriving DecidableEq

/-- One connection, which is touched once. -/
def visit : Visit → GatewayCall
  | .arrive => .connect ⟨0, "api_gateway"⟩ 1 "alice" "c1" "s1"
  | .day => .tick 86400
  | .beat => .touchHeartbeat "c1"
  | .leave => .disconnect ⟨0, "api_gateway"⟩ "c1"

theorem visit_fresh : FreshIds visit := by
  have honly : ∀ i id, (visit i).connects = some id → i = .arrive := by
    intro i id hi
    cases i with
    | arrive => rfl
    | _ => cases hi
  intro i j id hi hj
  rw [honly i id hi, honly j id hj]

/-- The user arrives, and leaves before a day has passed. -/
def shortVisit : List Visit :=
  List.replicate 6 .arrive ++ List.replicate 2 .beat ++ List.replicate 4 .leave

/-- The user stays for more than a day. -/
def longVisit : List Visit :=
  List.replicate 6 .arrive ++ [.day] ++ List.replicate 2 .beat ++ List.replicate 3 .leave

/-- Is it an `HGET`? -/
def GatewayOp.isHget : GatewayOp → Bool
  | .hget .. => true
  | _ => false

theorem disconnected_clean_shortVisit :
    ∃ h c, GatewayRun (fun _ => "") visit (World.initial 0 fun _ => []) h c ∧
      LooksUpUser "c1" .leave h ∧ NoRejoin ⟨0, "api_gateway"⟩ "c1" .leave h ∧
      c.pool .leave = .ret () ∧ (∀ user, "c1" ∉ c.world.members (.userConnections user)) ∧
      c.world.hash (.connection "c1") = ∅ ∧ c.world.locals 0 "c1" = none := by
  have hvisit : ∃ h c, GatewayRun (fun _ => "") visit (World.initial 0 fun _ => []) h c ∧
      (c.pool .leave).returned ∧ (∀ entry ∈ h, addsOnly "alice" "c1" entry.2.op) ∧
      (∀ entry ∈ h, entry.1 = .leave →
        present (entry.2.pre.hash (.connection "c1") .userId) = some "alice" ∨
          ¬ entry.2.op.isHget) ∧
      ∀ t ∈ h.tails, ∀ entry ∈ t.head?,
        ¬ rejoins ⟨0, "api_gateway"⟩ "c1" (leaving ⟨0, "api_gateway"⟩ "c1" t.tail .leave)
          entry.2.op :=
    exists_gatewayRun (fun _ => false) shortVisit _ (by decide +kernel)
  obtain ⟨h, c, hrun, hret, hadds, hlook, hrejoin⟩ := hvisit
  obtain ⟨_, hret⟩ := Prog.eq_ret_of_returned hret
  have hcall : visit .leave = .disconnect ⟨0, "api_gateway"⟩ "c1" := rfl
  have hlooks : LooksUpUser "c1" .leave h := by
    refine looksUpUser_of_addsOnly hrun hadds fun entry hmem hleave => ?_
    refine (hlook entry hmem hleave).imp id fun hne key field heq => ?_
    rw [heq] at hne
    exact hne rfl
  have hnoRejoin : NoRejoin ⟨0, "api_gateway"⟩ "c1" .leave h := by
    intro i ev h' hsuf
    exact hrejoin _ ((List.mem_tails _ _).mpr hsuf) (i, ev) rfl
  exact ⟨h, c, hrun, hlooks, hnoRejoin, hret,
    disconnected_clean hrun hcall hlooks hnoRejoin hret⟩

theorem longVisit_remains :
    ∃ h c, GatewayRun (fun _ => "") visit (World.initial 0 fun _ => []) h c ∧
      (c.pool .leave).returned ∧ "c1" ∈ c.world.members (.userConnections "alice") :=
  exists_gatewayRun (fun _ => false) longVisit
    (fun _ c => (c.pool .leave).returned ∧ "c1" ∈ c.world.members (.userConnections "alice"))
    (by decide +kernel)

/-- The calls of a connection's life, and the clock. -/
def GatewayCall.ofConnection : GatewayCall → Bool
  | .connect .. => true
  | .disconnect .. => true
  | .touchHeartbeat _ => true
  | .tick _ => true
  | _ => false

theorem not_disconnected_clean :
    ¬ ∀ (ι : Type) [DecidableEq ι] (repr : Json → String) (calls : ι → GatewayCall) (clock : ℚ≥0)
      (h : GatewayHistory ι) (c : GatewayConfig ι) (j : ι) (manager : Manager) (id : String),
      FreshIds calls → (∀ i, (calls i).ofConnection) →
      GatewayRun repr calls (World.initial clock fun _ => []) h c →
      calls j = .disconnect manager id → c.pool j = .ret () →
      (∀ user, id ∉ c.world.members (.userConnections user)) ∧
        c.world.hash (.connection id) = ∅ ∧ c.world.locals manager.slot id = none := by
  intro hall
  obtain ⟨h, c, hrun, hret, hmem⟩ := longVisit_remains
  obtain ⟨_, hret⟩ := Prog.eq_ret_of_returned hret
  have hconnection : ∀ i, (visit i).ofConnection := by
    intro i
    cases i <;> rfl
  exact (hall Visit _ visit 0 h c .leave _ "c1" visit_fresh hconnection hrun rfl hret).1
    "alice" hmem

end Mtrader.Gateway
