/-
  Mtrader.Gateway.Connections

  Where the connections of the gateway are registered, in every run.

  The sets of the users' connections, which all instances share, and the local maps of
  the instances hold only what a `connect` has put there, and hold it until a
  `disconnect` of that connection begins.
-/

import Mtrader.Gateway.Flow
import Mtrader.Gateway.Cleanup

namespace Mtrader.Gateway

open Py Coroutine Collection

variable {ι : Type} [DecidableEq ι] {repr : Json → String} {calls : ι → GatewayCall}
variable {clock : ℚ≥0} {incoming : Socket → List Json}
variable {h : GatewayHistory ι} {c : GatewayConfig ι}

-- ============================================================================
-- Connections
-- ============================================================================

section

variable {w w' : World} {e : GatewayOp}

/-- Only `accept` accepts. -/
theorem accepted_of_change (hchange : Change w e w') {websocket : Socket}
    (hmem : websocket ∈ w.accepted) : websocket ∈ w'.accepted := by
  cases hchange with
  | accept websocket' => exact List.mem_cons_of_mem _ hmem
  | _ => exact hmem

/-- A set has no deadline until it is given one. -/
theorem lasting_of_change {key : Key} (hchange : Change w e w')
    (hlast : (w.sets key).deadline = none) (hne : ∀ seconds, e ≠ .expire key seconds) :
    (w'.sets key).deadline = none := by
  have hupdate : ∀ {key' : Key} {k : Held ℚ (Finset String)},
      (key = key' → k.deadline = none) → (Function.update w.sets key' k key).deadline = none := by
    intro key' k hk
    by_cases hkey : key = key'
    · subst hkey
      rw [Function.update_self]
      exact hk rfl
    · rw [Function.update_of_ne hkey]
      exact hlast
  cases hchange with
  | sadd key' members =>
      apply hupdate
      rintro rfl
      exact Held.deadline_write hlast
  | srem key' members =>
      apply hupdate
      rintro rfl
      exact Held.deadline_write hlast
  | expire key' seconds =>
      apply hupdate
      rintro rfl
      exact absurd rfl (hne seconds)
  | delete key' => exact hupdate fun _ => rfl
  | _ => exact hlast

/-- What is in a set that lasts, only `SREM` and `DEL` take out. -/
theorem mem_members_kept {key : Key} {x : String} (hchange : Change w e w')
    (hlast : (w.sets key).deadline = none) (hmem : x ∈ w.members key)
    (hexpire : ∀ seconds, e ≠ .expire key seconds) (hdelete : e ≠ .delete key)
    (hsrem : ∀ members, e = .srem key members → x ∉ members) : x ∈ w'.members key := by
  cases hchange with
  | sadd key' members =>
      by_cases hkey : key = key'
      · subst hkey
        rw [World.members_writeSet]
        exact Finset.mem_union_left _ hmem
      · rwa [World.members_writeSet_of_ne hkey]
  | srem key' members =>
      by_cases hkey : key = key'
      · subst hkey
        rw [World.members_writeSet, Finset.mem_sdiff, List.mem_toFinset]
        exact ⟨hmem, hsrem members rfl⟩
      · rwa [World.members_writeSet_of_ne hkey]
  | expire key' seconds =>
      have hcases : (w.expire key' seconds).members key = w.members key ∨
          key = key' ∧ (w.expire key' seconds).members key = ∅ := World.members_expire
      rcases hcases with hsame | ⟨rfl, -⟩
      · rwa [hsame]
      · exact absurd rfl (hexpire seconds)
  | delete key' =>
      have hkey : key ≠ key' := by
        rintro rfl
        exact hdelete rfl
      rwa [World.members_delete, if_neg hkey]
  | tick seconds =>
      show x ∈ (w.sets key).read _
      rw [Held.read_of_none hlast]
      have hread : x ∈ (w.sets key).read w.now := hmem
      rwa [Held.read_of_none hlast] at hread
  | _ => exact hmem

/-- What is in a local map, only a `pop` takes out, and an assignment replaces. -/
theorem locals_kept {slot : ℕ} {id : String} (hchange : Change w e w')
    (hpop : ∀ manager, e ≠ .popLocal manager id)
    (hset : ∀ manager websocket, e = .setLocal manager id websocket → manager.slot ≠ slot) :
    w'.locals slot id = w.locals slot id := by
  cases hchange with
  | setLocal manager id' websocket =>
      rw [World.locals_setLocal, if_neg]
      rintro ⟨rfl, rfl⟩
      exact hset manager websocket rfl rfl
  | popLocal manager id' =>
      rw [World.locals_setLocal, if_neg]
      rintro ⟨-, rfl⟩
      exact hpop manager rfl
  | _ => rfl

end

/-- A socket that a `connect` has come past is accepted, and by no other `connect`. -/
structure Sockets (repr : Json → String) (calls : ι → GatewayCall) (h : GatewayHistory ι)
    (w : World) : Prop where
  accepted : ∀ i manager websocket user id session,
    calls i = .connect manager websocket user id session → 1 ≤ (phase repr calls h i).rank →
    websocket ∈ w.accepted
  single : ∀ i manager websocket user id session j manager' user' id' session',
    calls i = .connect manager websocket user id session →
    calls j = .connect manager' websocket user' id' session' →
    1 ≤ (phase repr calls h i).rank → 1 ≤ (phase repr calls h j).rank → i = j

theorem sockets_of_run
    (hrun : GatewayRun repr calls (World.initial clock incoming) h c) :
    Sockets repr calls h c.world := by
  apply run_keeps hrun
  · exact ⟨fun _ _ _ _ _ _ _ hrank => absurd hrank (Nat.not_succ_le_zero 0),
      fun _ _ _ _ _ _ _ _ _ _ _ _ _ hrank => absurd hrank (Nat.not_succ_le_zero 0)⟩
  · intro h c x e a w' hr hinv hmay henv
    have hchange := change_of_env henv
    -- A `connect` that goes past its `accept` now is the one that accepts.
    have hnew : ∀ i manager websocket user id session,
        calls i = .connect manager websocket user id session →
        1 ≤ (phase repr calls ((x, ⟨c.world, e, a⟩) :: h) i).rank →
        1 ≤ (phase repr calls h i).rank ∨
          i = x ∧ websocket ∉ c.world.accepted ∧ websocket ∈ w'.accepted := by
      intro i manager websocket user id session hcall hrank
      by_cases hxi : x = i
      · subst hxi
        rw [phase_self] at hrank
        rcases Phase.next_rank repr (phase repr calls h x) a with
          heq | ⟨websocket', rfl, hp, hok, heq⟩ | ⟨_, _, _, -, hp, -⟩ | ⟨_, _, -, -, hp, -⟩
        · left
          rwa [heq] at hrank
        · right
          obtain ⟨manager', user', id', session', hcall', -⟩ := hmay
          rw [hcall] at hcall'
          cases hcall'
          rcases henv with ⟨hnot, -, rfl⟩ | ⟨x, rfl, -⟩
          · exact ⟨rfl, hnot, List.mem_cons_self⟩
          · cases hok
        · left
          rw [hp]
          decide
        · left
          rw [hp]
          decide
      · rw [phase_other hxi] at hrank
        exact .inl hrank
    constructor
    · intro i manager websocket user id session hcall hrank
      rcases hnew i _ _ _ _ _ hcall hrank with hrank | ⟨-, -, hmem⟩
      · exact accepted_of_change hchange (hinv.accepted i _ _ _ _ _ hcall hrank)
      · exact hmem
    · intro i manager websocket user id session j manager' user' id' session' hi hj hranki hrankj
      rcases hnew i _ _ _ _ _ hi hranki with holdi | ⟨rfl, hnot, -⟩
      · rcases hnew j _ _ _ _ _ hj hrankj with holdj | ⟨rfl, hnot, -⟩
        · exact hinv.single i _ _ _ _ _ j _ _ _ _ hi hj holdi holdj
        · exact absurd (hinv.accepted i _ _ _ _ _ hi holdi) hnot
      · rcases hnew j _ _ _ _ _ hj hrankj with holdj | ⟨rfl, -, -⟩
        · exact absurd (hinv.accepted j _ _ _ _ _ hj holdj) hnot
        · rfl

theorem rank_le_cons {i j : ι} {ev : Event World GatewayOp.Ans Exc} :
    (phase repr calls h j).rank ≤ (phase repr calls ((i, ev) :: h) j).rank := by
  by_cases hij : i = j
  · subst hij
    rw [phase_self]
    exact Phase.rank_le_next
  · rw [phase_other hij]

/-- What a local map and a user's set hold, a `connect` has put there. -/
structure Registered (repr : Json → String) (calls : ι → GatewayCall) (h : GatewayHistory ι)
    (w : World) : Prop where
  locals : ∀ slot id websocket, w.locals slot id = some websocket →
    ∃ i manager user session, calls i = .connect manager websocket user id session ∧
      manager.slot = slot ∧ 2 ≤ (phase repr calls h i).rank
  members : ∀ user id, id ∈ w.members (.userConnections user) →
    ∃ i manager websocket session, calls i = .connect manager websocket user id session ∧
      3 ≤ (phase repr calls h i).rank

theorem registered_of_run
    (hrun : GatewayRun repr calls (World.initial clock incoming) h c) :
    Registered repr calls h c.world := by
  apply run_keeps hrun
  · exact ⟨fun _ _ _ hlocal => (nomatch hlocal),
      fun _ _ hmem => absurd hmem (Finset.notMem_empty _)⟩
  · intro h c x e a w' hr hinv hmay henv
    have hchange := change_of_env henv
    constructor
    · intro slot id websocket hlocal
      by_cases hset : ∃ manager websocket', e = .setLocal manager id websocket' ∧
          manager.slot = slot
      · obtain ⟨manager, websocket', rfl, rfl⟩ := hset
        obtain ⟨user, session, hcall, hp⟩ := hmay
        obtain ⟨rfl, rfl⟩ := henv
        rw [World.locals_setLocal, if_pos ⟨rfl, rfl⟩, Option.some.injEq] at hlocal
        subst hlocal
        refine ⟨x, manager, user, session, hcall, rfl, ?_⟩
        rw [phase_self, hp]
        exact le_rfl
      · have hkept : w'.locals slot id = c.world.locals slot id ∨ w'.locals slot id = none :=
          locals_of_change hchange fun manager websocket' heq hslot =>
            hset ⟨manager, websocket', heq, hslot⟩
        rcases hkept with hsame | hgone
        · rw [hsame] at hlocal
          obtain ⟨i, manager, user, session, hcall, hslot, hrank⟩ := hinv.locals _ _ _ hlocal
          exact ⟨i, manager, user, session, hcall, hslot, hrank.trans rank_le_cons⟩
        · rw [hgone] at hlocal
          cases hlocal
    · intro user id hmem
      rcases mem_members_of_change hchange hmem with hmem | ⟨members, rfl, hid⟩
      · obtain ⟨i, manager, websocket, session, hcall, hrank⟩ := hinv.members _ _ hmem
        exact ⟨i, manager, websocket, session, hcall, hrank.trans rank_le_cons⟩
      · obtain ⟨manager, websocket, id', session, hcall, rfl, hp⟩ := hmay
        obtain rfl := List.mem_singleton.mp hid
        obtain ⟨rfl, -⟩ := henv
        refine ⟨x, manager, websocket, session, hcall, ?_⟩
        rw [phase_self, hp]
        exact le_rfl

/-- No set of connections has a deadline. -/
theorem userConnections_lasting
    (hrun : GatewayRun repr calls (World.initial clock incoming) h c) (user : String) :
    (c.world.sets (.userConnections user)).deadline = none := by
  refine run_keeps (I := fun _ w => (w.sets (.userConnections user)).deadline = none) hrun rfl ?_
  intro h c x e a w' hr hlast hmay henv
  refine lasting_of_change (change_of_env henv) hlast ?_
  rintro seconds rfl
  exact hmay

/-- Call `i` has connected the socket as the user: its last command has been answered. -/
def Connected (calls : ι → GatewayCall) (h : GatewayHistory ι) (i : ι) (manager : Manager)
    (websocket : Socket) (user id : String) : Prop :=
  (∃ session, calls i = .connect manager websocket user id session) ∧
    ∃ w added, (i, ⟨w, .sadd (.userConnections user) [id], .ok added⟩) ∈ h

theorem connected_of_rank (hrun : GatewayRun repr calls (World.initial clock incoming) h c) {i : ι}
    {manager : Manager} {websocket : Socket} {user id session : String}
    (hcall : calls i = .connect manager websocket user id session)
    (hrank : 3 ≤ (phase repr calls h i).rank) : Connected calls h i manager websocket user id := by
  refine ⟨⟨session, hcall⟩, ?_⟩
  revert hrank
  apply run_keeps (I := fun h _ => 3 ≤ (phase repr calls h i).rank →
    ∃ w added, (i, ⟨w, .sadd (.userConnections user) [id], .ok added⟩) ∈ h) hrun
  · exact fun hrank => absurd hrank (Nat.not_succ_le_zero 2)
  · intro h c x e a w' hr hinv hmay henv hrank
    have hold : 3 ≤ (phase repr calls h i).rank → ∃ w added,
        (i, ⟨w, .sadd (.userConnections user) [id], .ok added⟩) ∈ (x, ⟨c.world, e, a⟩) :: h := by
      intro hrank
      obtain ⟨w, added, hmem⟩ := hinv hrank
      exact ⟨w, added, List.mem_cons_of_mem _ hmem⟩
    by_cases hxi : x = i
    · subst hxi
      rw [phase_self] at hrank
      rcases Phase.next_rank repr (phase repr calls h x) a with
        heq | ⟨_, -, -, -, heq⟩ | ⟨_, _, _, -, -, heq⟩ | ⟨user', members, rfl, -⟩
      · exact hold (heq ▸ hrank)
      · rw [heq] at hrank
        exact absurd hrank (by decide)
      · rw [heq] at hrank
        exact absurd hrank (by decide)
      · obtain ⟨manager', websocket', id', session', hx, rfl, -⟩ := hmay
        rw [hcall] at hx
        cases hx
        obtain ⟨rfl, -⟩ := henv
        exact ⟨_, _, List.mem_cons_self⟩
    · rw [phase_other hxi] at hrank
      exact hold hrank

theorem Connected.rank (hrun : GatewayRun repr calls (World.initial clock incoming) h c) {i : ι}
    {manager : Manager} {websocket : Socket} {user id : String}
    (hconn : Connected calls h i manager websocket user id) : 3 ≤ (phase repr calls h i).rank := by
  obtain ⟨⟨session, hcall⟩, hmem⟩ := hconn
  revert hmem
  apply run_keeps (I := fun h _ =>
    (∃ w added, (i, ⟨w, .sadd (.userConnections user) [id], .ok added⟩) ∈ h) →
      3 ≤ (phase repr calls h i).rank) hrun
  · rintro ⟨w, added, hmem⟩
    cases hmem
  · rintro h c x e a w' hr hinv hmay henv ⟨w, added, hmem⟩
    rcases List.mem_cons.mp hmem with heq | hmem
    · cases heq
      obtain ⟨manager', websocket', id', session', -, -, hp⟩ := hmay
      rw [phase_self, hp]
      exact le_rfl
    · exact (hinv ⟨w, added, hmem⟩).trans rank_le_cons

/-- Nobody has begun to disconnect the connection. -/
def Undisturbed (calls : ι → GatewayCall) (h : GatewayHistory ι) (id : String) : Prop :=
  ∀ j manager ev, calls j = .disconnect manager id → (j, ev) ∉ h

section

variable {w w' : World} {e : GatewayOp} {a : Except Exc e.Ans} {x : ι}

/-- One operation leaves a connection in the local map, if no `disconnect` of it does it: only
the `connect` itself sets the map under its id, and that has been done. -/
theorem local_step_stays (hfresh : FreshIds calls) {i : ι} {manager : Manager}
    {websocket : Socket} {user id session : String}
    (hcall : calls i = .connect manager websocket user id session)
    (hmay : (flow repr (calls x)).may (phase repr calls h x) e) (henv : gatewayEnv w e a w')
    (hdisconnect : ∀ manager', calls x ≠ .disconnect manager' id)
    (hrank : 2 ≤ (phase repr calls h i).rank) :
    w'.locals manager.slot id = w.locals manager.slot id := by
  apply locals_kept (change_of_env henv)
  · rintro manager' rfl
    exact hdisconnect manager' hmay
  · rintro manager' websocket' rfl -
    obtain ⟨user', session', hx, hp⟩ := hmay
    have hix : i = x := hfresh i x id (by rw [hcall]; rfl) (by rw [hx]; rfl)
    subst hix
    rw [hp] at hrank
    exact absurd hrank (by decide)

/-- One operation leaves a connection in its user's set, if no `disconnect` of it does it. -/
theorem member_step_stays {user id : String}
    (hmay : (flow repr (calls x)).may (phase repr calls h x) e) (henv : gatewayEnv w e a w')
    (hdisconnect : ∀ manager', calls x ≠ .disconnect manager' id)
    (hlast : (w.sets (.userConnections user)).deadline = none)
    (hmem : id ∈ w.members (.userConnections user)) :
    id ∈ w'.members (.userConnections user) := by
  apply mem_members_kept (change_of_env henv) hlast hmem
  · rintro seconds rfl
    exact hmay
  · rintro rfl
    exact hmay
  · rintro members rfl hid
    obtain ⟨manager', id', hx, rfl⟩ := hmay
    obtain rfl := List.mem_singleton.mp hid
    exact hdisconnect manager' hx

end

/-- A connection stays where its `connect` has put it until a `disconnect` begins. -/
theorem connection_stays (hfresh : FreshIds calls)
    (hrun : GatewayRun repr calls (World.initial clock incoming) h c) {i : ι} {manager : Manager}
    {websocket : Socket} {user id session : String}
    (hcall : calls i = .connect manager websocket user id session)
    (hcalm : Undisturbed calls h id) :
    (2 ≤ (phase repr calls h i).rank → c.world.locals manager.slot id = some websocket) ∧
      (3 ≤ (phase repr calls h i).rank → id ∈ c.world.members (.userConnections user)) := by
  revert hcalm
  apply run_keeps (I := fun h w => Undisturbed calls h id →
    (2 ≤ (phase repr calls h i).rank → w.locals manager.slot id = some websocket) ∧
      (3 ≤ (phase repr calls h i).rank → id ∈ w.members (.userConnections user))) hrun
  · exact fun _ => ⟨fun hrank => absurd hrank (Nat.not_succ_le_zero 1),
      fun hrank => absurd hrank (Nat.not_succ_le_zero 2)⟩
  · intro h c x e a w' hr hinv hmay henv hcalm
    obtain ⟨hlocal, hmember⟩ := hinv fun j manager ev hj hmem =>
      hcalm j manager ev hj (List.mem_cons_of_mem _ hmem)
    -- This operation is none of a `disconnect` of the connection.
    have hdisconnect : ∀ manager', calls x ≠ .disconnect manager' id := fun manager' hx =>
      hcalm x manager' _ hx List.mem_cons_self
    have hkeepLocal : 2 ≤ (phase repr calls h i).rank →
        w'.locals manager.slot id = some websocket := by
      intro hrank
      rw [local_step_stays hfresh hcall hmay henv hdisconnect hrank, hlocal hrank]
    have hkeepMember : 3 ≤ (phase repr calls h i).rank →
        id ∈ w'.members (.userConnections user) := by
      intro hrank
      exact member_step_stays hmay henv hdisconnect (userConnections_lasting hr user)
        (hmember hrank)
    by_cases hxi : x = i
    · subst hxi
      rw [phase_self]
      rcases Phase.next_rank repr (phase repr calls h x) a with
        heq | ⟨_, -, -, -, heq⟩ | ⟨manager', id', websocket', rfl, -, heq⟩ |
          ⟨user', members, rfl, -, hp, heq⟩
      · rw [heq]
        exact ⟨hkeepLocal, hkeepMember⟩
      · rw [heq]
        exact ⟨fun hrank => absurd hrank (by decide), fun hrank => absurd hrank (by decide)⟩
      · rw [heq]
        refine ⟨fun _ => ?_, fun hrank => absurd hrank (by decide)⟩
        obtain ⟨user', session', hx, hp⟩ := hmay
        rw [hcall] at hx
        cases hx
        obtain ⟨-, rfl⟩ := henv
        rw [World.locals_setLocal, if_pos ⟨rfl, rfl⟩]
      · refine ⟨fun _ => hkeepLocal (by rw [hp]; decide), fun _ => ?_⟩
        obtain ⟨manager', websocket', id', session', hx, rfl, -⟩ := hmay
        rw [hcall] at hx
        cases hx
        obtain ⟨-, rfl⟩ := henv
        rw [World.members_writeSet]
        exact Finset.mem_union_right _ (by simp)
    · rw [phase_other hxi]
      exact ⟨hkeepLocal, hkeepMember⟩

end Mtrader.Gateway
