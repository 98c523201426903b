/-
  Mtrader.Gateway.Delivery

  Which messages are sent on which sockets, in every run of any number of instances.

  - What is sent is a published message, under the channel it was published on, and on a
    socket of the user that it names.
  - Nothing is sent twice on a socket.
  - A listener whose sockets do not fail goes on, and has sent a message on every socket of
    its user by the time it is done with it.  It passes over a user id that is falsy.
-/

import Mtrader.Gateway.Moves

namespace Mtrader.Gateway

open Py Coroutine Collection

variable {ι : Type} [DecidableEq ι] {repr : Json → String} {calls : ι → GatewayCall}
variable {clock : ℚ≥0} {incoming : Socket → List Json}
variable {h : GatewayHistory ι} {c : GatewayConfig ι}

-- ============================================================================
-- At most once
-- ============================================================================

/-- A sending of a message. -/
structure Serving where
  serial : ℕ
  websocket : Socket
  frame : Frame
  ok : Bool

/-- What an operation sends of the message that its coroutine has taken last. -/
def serving (msg : Option Message) : Event World GatewayOp.Ans Exc → Option Serving
  | ⟨_, .sendJson websocket (.message topic data), a⟩ =>
      msg.map fun msg => ⟨msg.serial, websocket, .message topic data, a.isOk⟩
  | _ => none

/-- The sendings of a run. -/
def servings : GatewayHistory ι → List Serving
  | [] => []
  | (k, ev) :: h => (serving (taking k h) ev).toList ++ servings h

theorem serving_of_not_sends {msg : Option Message} {ev : Event World GatewayOp.Ans Exc}
    (hsends : ev.op.sends = false) : serving msg ev = none := by
  obtain ⟨w, e, a⟩ := ev
  cases e with
  | sendJson websocket frame =>
      cases frame with
      | message topic data => cases hsends
      | event name fields => rfl
  | _ => rfl

/-- The listener may still send its message on the socket. -/
def Awaits (calls : ι → GatewayCall) (p : Phase) (websocket : Socket) : Prop :=
  (∃ msg route, p = .heard msg route) ∨ ∃ id ∈ p.pending, ∃ i manager user session,
    calls i = .connect manager websocket user id session

/-- The socket is that of a connection on an instance whose subscription has come past the
    message, and no listener of the instance may send the message on it again. -/
def Served (repr : Json → String) (calls : ι → GatewayCall) (h : GatewayHistory ι) (w : World)
    (sv : Serving) : Prop :=
  ∃ i manager user id session, calls i = .connect manager sv.websocket user id session ∧
    3 ≤ (phase repr calls h i).rank ∧ sv.serial < w.next manager.slot ∧
    ∀ k manager' rounds msg, calls k = .listenPubsub manager' rounds →
      manager'.slot = manager.slot → taking k h = some msg → msg.serial = sv.serial →
      ¬ Awaits calls (phase repr calls h k) sv.websocket

omit [DecidableEq ι] in
/-- Unless the operation takes a message, what a listener awaits it has awaited before. -/
theorem Move.awaits {manager : Manager} {w : World} {p p' : Phase} {e : GatewayOp}
    {a : Except Exc e.Ans} {websocket : Socket} (hmove : Move repr manager w p e a p')
    (hnone : taken ⟨w, e, a⟩ = none) (hawaits : Awaits calls p' websocket) :
    Awaits calls p websocket := by
  cases hmove with
  | other => exact hawaits
  | hear => cases hnone
  | skip => cases hnone
  | lookUp => exact .inl ⟨_, _, rfl⟩
  | find =>
      rcases hawaits with ⟨_, _, heq⟩ | hpending
      · cases heq
      · exact .inr hpending
  | miss =>
      rcases hawaits with ⟨_, _, heq⟩ | ⟨id, hid, hconnect⟩
      · cases heq
      · exact .inr ⟨id, List.mem_cons_of_mem _ hid, hconnect⟩
  | send =>
      rcases hawaits with ⟨_, _, heq⟩ | ⟨id, hid, hconnect⟩
      · cases heq
      · exact .inr ⟨id, List.mem_cons_of_mem _ hid, hconnect⟩
  | fail =>
      rcases hawaits with ⟨_, _, heq⟩ | ⟨id, hid, -⟩
      · cases heq
      · cases hid

theorem Served.cons (hrun : GatewayRun repr calls (World.initial clock incoming) h c) {x : ι}
    {e : GatewayOp} {a : Except Exc e.Ans} {w' : World} {sv : Serving}
    (hmay : (flow repr (calls x)).may (phase repr calls h x) e) (henv : gatewayEnv c.world e a w')
    (hserved : Served repr calls h c.world sv) :
    Served repr calls ((x, ⟨c.world, e, a⟩) :: h) w' sv := by
  obtain ⟨i, manager, user, id, session, hcall, hrank, hlt, hdone⟩ := hserved
  refine ⟨i, manager, user, id, session, hcall, hrank.trans rank_le_cons,
    hlt.trans_le (next_mono henv _), ?_⟩
  intro k manager' rounds msg hk hslot htaking hserial
  by_cases hxk : x = k
  · subst hxk
    rw [taking_self] at htaking
    rw [phase_self]
    rcases taken_cases henv with ⟨hnone, -⟩ | ⟨manager'', msg', n, rfl, htaken, hle, hmsg, -⟩
    · rw [hnone] at htaking
      rw [hk] at hmay
      intro hawaits
      exact hdone x _ _ _ hk hslot htaking hserial ((move_of_may hmay henv).awaits hnone hawaits)
    · -- The message that is taken now comes after the one that has been served.
      exfalso
      rw [htaken] at htaking
      obtain rfl := Option.some.inj htaking
      obtain ⟨hn, -⟩ := published_of_run hrun hmsg
      obtain ⟨rounds', hk', -⟩ := hmay
      rw [hk] at hk'
      cases hk'
      rw [hslot] at hle
      omega
  · rw [taking_other hxk] at htaking
    rw [phase_other hxk]
    exact hdone k _ _ _ hk hslot htaking hserial

/-- The sending of a message on the socket that a listener holds. -/
theorem Served.send (frame : Frame) (ok : Bool) (hfresh : FreshIds calls)
    (hrun : GatewayRun repr calls (World.initial clock incoming) h c) {x : ι} {manager : Manager}
    {rounds : ℕ} {e : GatewayOp} {a : Except Exc e.Ans} {w' : World} {msg : Message} {route : Route}
    {id : String} {todo : List String} {websocket : Socket}
    (hx : calls x = .listenPubsub manager rounds) (henv : gatewayEnv c.world e a w')
    (hnone : taken ⟨c.world, e, a⟩ = none)
    (hp : phase repr calls h x = .holding msg route id todo websocket)
    (hp' : phase repr calls ((x, ⟨c.world, e, a⟩) :: h) x = .sending msg route todo ∨
      phase repr calls ((x, ⟨c.world, e, a⟩) :: h) x = .failed) :
    Served repr calls ((x, ⟨c.world, e, a⟩) :: h) w' ⟨msg.serial, websocket, frame, ok⟩ ∧
      ∀ sv ∈ servings h, Served repr calls h c.world sv → sv.serial = msg.serial →
        sv.websocket ≠ websocket := by
  have hlisten := listening_of_run hfresh hrun hx
  have htaken := taken_of_run hrun
  have hsockets := sockets_of_run hrun
  rw [hp] at hlisten
  obtain ⟨htaking, -⟩ := hlisten.job msg route rfl
  obtain ⟨i, manager', session, hcall, hslot, hrank⟩ := hlisten.found _ _ _ _ _ rfl
  constructor
  · refine ⟨i, manager', _, _, _, hcall, hrank.trans rank_le_cons, ?_, ?_⟩
    · rw [hslot]
      exact (htaken.below x _ _ _ hx htaking).trans_le (next_mono henv _)
    · intro k manager'' rounds' msg' hk hslot' htaking' hserial hawaits
      have hold : taking k h = some msg' := by
        by_cases hxk : x = k
        · subst hxk
          rwa [taking_self, hnone] at htaking'
        · rwa [taking_other hxk] at htaking'
      obtain rfl := htaken.single x _ _ _ k _ _ _ hx hk (hslot'.trans hslot) htaking hold hserial
      have htodo : ∃ id' ∈ todo, ∃ j manager₁ user₁ session₁,
          calls j = .connect manager₁ websocket user₁ id' session₁ := by
        rcases hp' with hp' | hp'
        · rw [hp'] at hawaits
          rcases hawaits with ⟨_, _, heq⟩ | htodo
          · cases heq
          · exact htodo
        · rw [hp'] at hawaits
          rcases hawaits with ⟨_, _, heq⟩ | ⟨_, hid, -⟩
          · cases heq
          · cases hid
      -- The connection that is still to come has the same socket, so it is the same.
      obtain ⟨id', htodo, j, manager₁, user₁, session₁, hj⟩ := htodo
      obtain ⟨j', manager₂, websocket₂, session₂, hj', hrank'⟩ :=
        hlisten.joined msg route rfl id' (List.mem_cons_of_mem _ htodo)
      have hjj : j = j' := hfresh j j' id' (by rw [hj]; rfl) (by rw [hj']; rfl)
      subst hjj
      have hji : j = i := hsockets.single j _ _ _ _ _ i _ _ _ _ hj hcall (by omega) (by omega)
      subst hji
      rw [hj] at hcall
      cases hcall
      exact (List.nodup_cons.mp hlisten.nodup).1 htodo
  · rintro sv - ⟨j, manager₁, user₁, id₁, session₁, hj, hrank₁, -, hdone⟩ hserial rfl
    have hji : j = i := hsockets.single j _ _ _ _ _ i _ _ _ _ hj hcall (by omega) (by omega)
    subst hji
    rw [hj] at hcall
    cases hcall
    refine hdone x manager rounds msg hx hslot.symm htaking hserial.symm ?_
    rw [hp]
    exact .inr ⟨id, List.mem_cons_self, j, _, _, _, hj⟩

/-- Of each message, a socket is sent at most one frame. -/
theorem servings_nodup (hfresh : FreshIds calls)
    (hrun : GatewayRun repr calls (World.initial clock incoming) h c) :
    (∀ sv ∈ servings h, Served repr calls h c.world sv) ∧
      ((servings h).map fun sv => (sv.serial, sv.websocket)).Nodup := by
  apply run_keeps (I := fun h w => (∀ sv ∈ servings h, Served repr calls h w sv) ∧
    ((servings h).map fun sv => (sv.serial, sv.websocket)).Nodup) hrun
  · exact ⟨fun _ hsv => (nomatch hsv), List.nodup_nil⟩
  · rintro h c x e a w' hr ⟨hserved, hnodup⟩ hmay henv
    have hkept : ∀ sv ∈ servings h, Served repr calls ((x, ⟨c.world, e, a⟩) :: h) w' sv :=
      fun sv hsv => (hserved sv hsv).cons hr hmay henv
    cases hsends : e.sends with
    | false =>
        rw [servings, serving_of_not_sends hsends]
        exact ⟨hkept, hnodup⟩
    | true =>
        cases e with
        | sendJson websocket frame =>
            cases frame with
            | event name fields => cases hsends
            | message topic data =>
                obtain ⟨manager, rounds, msg, route, id, todo, hx, hp, rfl, rfl⟩ := hmay
                have hp' :
                    phase repr calls ((x, ⟨c.world, _, a⟩) :: h) x = .sending msg route todo ∨
                    phase repr calls ((x, ⟨c.world, _, a⟩) :: h) x = .failed := by
                  rw [phase_self, hp]
                  cases a with
                  | ok _ => exact .inl rfl
                  | error _ => exact .inr rfl
                obtain ⟨hnew, hfirst⟩ := Served.send (.message route.topic route.payload) a.isOk
                  hfresh hr hx henv rfl hp hp'
                have hlisten := listening_of_run hfresh hr hx
                rw [hp] at hlisten
                rw [servings, (hlisten.job msg route rfl).1]
                constructor
                · intro sv hsv
                  rcases List.mem_cons.mp hsv with rfl | hsv
                  · exact hnew
                  · exact hkept sv hsv
                · refine List.nodup_cons.mpr ⟨fun hmem => ?_, hnodup⟩
                  obtain ⟨sv, hsv, heq⟩ := List.mem_map.mp hmem
                  obtain ⟨hserial, hwebsocket⟩ := Prod.mk.inj heq
                  exact hfirst sv hsv (hserved sv hsv) hserial hwebsocket
        | _ => cases hsends

-- ============================================================================
-- Routes
-- ============================================================================

theorem afterFirst_append {sep : List Char} (hne : sep ≠ []) (s : List Char) :
    afterFirst sep (sep ++ s) = some s := by
  cases sep with
  | nil => exact absurd rfl hne
  | cons c cs =>
      have hprefix : (c :: cs).isPrefixOf (c :: (cs ++ s)) :=
        List.isPrefixOf_iff_prefix.mpr ⟨s, rfl⟩
      show (if (c :: cs).isPrefixOf (c :: (cs ++ s)) then
        some ((c :: cs ++ s).drop (c :: cs).length) else _) = _
      rw [if_pos hprefix, List.drop_left]

/-- A listener reads the channel that `publish` was given. -/
theorem lastOfSplit_broadcast (channel : String) :
    lastOfSplit broadcastPrefix (broadcastPrefix ++ channel) = channel := by
  have hafter : afterFirst broadcastPrefix.toList (broadcastPrefix ++ channel).toList =
      some channel.toList := by
    rw [String.toList_append]
    exact afterFirst_append (by decide) _
  rw [lastOfSplit, hafter]
  exact String.ofList_toList

omit [DecidableEq ι] in
theorem Published.route {msg : Message} {channel : String} {message : List (String × Json)}
    (hpub : Published calls h msg channel message) :
    msg.route repr =
      .ok (routeTo repr channel (.obj message) (message.lookup "user_id")) := by
  obtain ⟨i, w, -, -, rfl⟩ := hpub
  show Except.ok (routeTo repr (lastOfSplit broadcastPrefix _) _ _) = _
  rw [lastOfSplit_broadcast]

/-- Whom a route leads to. -/
theorem routeTo_eq_some {topic : String} {payload : Json} {userId : Option Json} {route : Route} :
    routeTo repr topic payload userId = some route ↔
      ∃ user, userId = some user ∧ user.truthy ∧ route = ⟨user.text repr, topic, payload⟩ := by
  cases userId with
  | none => exact ⟨nofun, fun ⟨_, h, _⟩ => nomatch h⟩
  | some user =>
      show (if user.truthy then some (Route.mk (user.text repr) topic payload) else none) = _ ↔ _
      constructor
      · intro heq
        by_cases htruthy : user.truthy
        · rw [if_pos htruthy] at heq
          exact ⟨user, rfl, htruthy, (Option.some.inj heq).symm⟩
        · rw [if_neg htruthy] at heq
          cases heq
      · rintro ⟨user', heq, htruthy, rfl⟩
        obtain rfl := Option.some.inj heq
        exact if_pos htruthy

/-- What a listener is at has been published. -/
theorem published_of_taking (hrun : GatewayRun repr calls (World.initial clock incoming) h c)
    {k : ι} {msg : Message} (htaking : taking k h = some msg) :
    ∃ channel message, Published calls h msg channel message :=
  (published_of_run hrun ((taken_of_run hrun).published k msg htaking)).2

-- ============================================================================
-- To the right sockets
-- ============================================================================

/-- Whatever is sent of the channels is the message that its listener has taken last.  It
    was published on the channel that is its topic, and names a user as whom the socket has
    connected. -/
def SendsRightly (repr : Json → String) (calls : ι → GatewayCall) (h : GatewayHistory ι) : Prop :=
  ∀ k w websocket topic data a older,
    (k, ⟨w, .sendJson websocket (.message topic data), a⟩) :: older <:+ h →
    ∃ msg message userId, taking k older = some msg ∧ Published calls older msg topic message ∧
      data = .obj message ∧ message.lookup "user_id" = some userId ∧ userId.truthy ∧
      ∃ i manager id, Connected calls older i manager websocket (userId.text repr) id

theorem sends_rightly (hfresh : FreshIds calls)
    (hrun : GatewayRun repr calls (World.initial clock incoming) h c) :
    SendsRightly repr calls h := by
  intro k w websocket topic data a older hsuf
  obtain ⟨c₁, c₂, hr, hs⟩ := hrun.entry hsuf
  have hmay := hrun.may (prog_obeys_flow (calls k)) hsuf
  obtain ⟨manager, rounds, msg, route, id, todo, hk, hp, rfl, rfl⟩ := hmay
  have hlisten := listening_of_run hfresh hr hk
  rw [show phase repr calls older k = .holding msg route id todo websocket from hp] at hlisten
  obtain ⟨htaking, hroute⟩ := hlisten.job msg route rfl
  obtain ⟨i, manager', session, hcall, -, hrank⟩ := hlisten.found _ _ _ _ _ rfl
  obtain ⟨channel, message, hpub⟩ := published_of_taking hr htaking
  rw [hpub.route, Except.ok.injEq, routeTo_eq_some] at hroute
  obtain ⟨userId, huser, htruthy, rfl⟩ := hroute
  exact ⟨msg, message, userId, htaking, hpub, rfl, huser, htruthy, i, manager', id,
    connected_of_rank hr hcall hrank⟩

-- ============================================================================
-- To all sockets
-- ============================================================================

/-- A listener none of whose sockets has failed has not been ended by an exception. -/
def ListenersLive (calls : ι → GatewayCall) (h : GatewayHistory ι) (c : GatewayConfig ι) : Prop :=
  ∀ k manager rounds, calls k = .listenPubsub manager rounds →
    (∀ w websocket frame x, (k, ⟨w, .sendJson websocket frame, .error x⟩) ∉ h) →
    ∀ x, c.pool k ≠ .raise x

theorem listeners_live (hrun : GatewayRun repr calls (World.initial clock incoming) h c) :
    ListenersLive calls h c := by
  intro k manager rounds hk hsends x hraise
  -- An exception leaves the listener in the phase `failed`.
  have hfailed : phase repr calls h k = .failed := by
    have hend := run_obeys_flow hrun k
    rw [hraise, hk] at hend
    exact hend
  revert hsends hfailed
  apply run_keeps (I := fun h _ =>
    (∀ w websocket frame x, (k, ⟨w, .sendJson websocket frame, .error x⟩) ∉ h) →
      phase repr calls h k ≠ .failed) hrun
  · exact fun _ => nofun
  · intro h c x e a w' hr hinv hmay henv hsends hfailed
    have hold := hinv fun w websocket frame x hmem => hsends w websocket frame x
      (List.mem_cons_of_mem _ hmem)
    by_cases hxk : x = k
    · subst hxk
      rw [hk] at hmay
      rw [phase_self] at hfailed
      have hmove := move_of_may hmay henv
      rw [hfailed] at hmove
      generalize hp : phase repr calls h x = p at hmove hold
      cases hmove with
      | other => exact hold rfl
      | @skip _ _ n msg hfree hle hmsg hnext =>
          rcases hnext with ⟨-, heq⟩ | ⟨⟨x, herror⟩, -⟩
          · cases heq
          · obtain ⟨-, channel, message, hpub⟩ := published_of_run hr hmsg
            rw [hpub.route] at herror
            cases herror
      | fail => exact hsends _ _ _ _ List.mem_cons_self
    · rw [phase_other hxk] at hfailed
      exact hold hfailed

/-- When a listener is back at the head of its loop after a message for the user, it has
    sent it on every socket of the user on its instance that had connected when the message
    came, and whose `disconnect` has not begun. -/
def ServesAll (repr : Json → String) (calls : ι → GatewayCall) (h : GatewayHistory ι)
    (c : GatewayConfig ι) (userId : Json) : Prop :=
  ∀ k w manager msg newer older channel message,
    h = newer ++ (k, ⟨w, .getMessage manager, .ok (some msg)⟩) :: older →
    Published calls older msg channel message → message.lookup "user_id" = some userId →
    (∃ rounds, c.pool k = manager.listenPubsub repr rounds) →
    ∀ i manager' websocket id, Connected calls older i manager' websocket (userId.text repr) id →
      manager'.slot = manager.slot → Undisturbed calls h id →
      ⟨msg.serial, websocket, .message channel (.obj message), true⟩ ∈ servings h

/-- How far a listener has come in sending a message to a connection. -/
def Serving.Underway (sv : Serving) (msg : Message) (route : Route) (id : String) (p : Phase)
    (h : GatewayHistory ι) : Prop :=
  p = .heard msg route ∨ (p.job = some (msg, route) ∧ id ∈ p.pending) ∨ p = .failed ∨
    sv ∈ servings h

/-- At the head of its loop a listener is done with its message. -/
theorem free_of_listening (hrun : GatewayRun repr calls (World.initial clock incoming) h c) {k : ι}
    {manager : Manager} {rounds rounds' : ℕ} (hk : calls k = .listenPubsub manager rounds')
    (hpool : c.pool k = manager.listenPubsub repr rounds) : (phase repr calls h k).free := by
  have hobeys := run_obeys_flow hrun k
  rw [hpool] at hobeys
  cases rounds with
  | zero =>
      have hend : (calls k).endsIn (.ok ()) (phase repr calls h k) := hobeys
      rw [hk] at hend
      exact hend
  | succ rounds =>
      obtain ⟨_, -, hfree⟩ := hobeys.1
      exact hfree

/-- A listener does not leave out a connection that stays. -/
theorem Serving.Underway.move (hfresh : FreshIds calls)
    (hrun : GatewayRun repr calls (World.initial clock incoming) h c) {k i : ι}
    {manager manager' : Manager} {rounds : ℕ} {websocket : Socket} {id : String} {msg : Message}
    {route : Route} {p p' : Phase} {e : GatewayOp} {a : Except Exc e.Ans}
    (hk : calls k = .listenPubsub manager rounds) (hp : phase repr calls h k = p)
    (hconn : Connected calls h i manager' websocket route.userId id)
    (hslot : manager'.slot = manager.slot) (hcalm : Undisturbed calls h id)
    (hmove : Move repr manager c.world p e a p')
    (hinv : Serving.Underway ⟨msg.serial, websocket, .message route.topic route.payload, true⟩
      msg route id p h) :
    Serving.Underway ⟨msg.serial, websocket, .message route.topic route.payload, true⟩
      msg route id p' ((k, ⟨c.world, e, a⟩) :: h) := by
  have hrank := hconn.rank hrun
  obtain ⟨⟨session, hcall⟩, -⟩ := hconn
  obtain ⟨hlocal, hmember⟩ := connection_stays hfresh hrun hcall hcalm
  have hlisten := listening_of_run hfresh hrun hk
  rw [hp] at hlisten
  have hserved : ∀ {sv : Serving}, sv ∈ servings h → sv ∈ servings ((k, ⟨c.world, e, a⟩) :: h) :=
    fun hsv => List.mem_append_right _ hsv
  rcases hinv with rfl | ⟨hjob, hid⟩ | rfl | hsv
  · -- The message has been taken, and the user's set holds the connection.
    cases hmove with
    | other => exact .inl rfl
    | hear hfree => cases hfree
    | skip hfree => cases hfree
    | lookUp hnodup hids =>
        refine .inr (.inl ⟨rfl, ?_⟩)
        rw [← List.mem_toFinset, show (Phase.sending _ _ _).pending.toFinset = _ from hids]
        exact hmember hrank
  · cases hmove with
    | other => exact .inr (.inl ⟨hjob, hid⟩)
    | hear hfree =>
        rw [Phase.pending_of_free hfree] at hid
        cases hid
    | skip hfree =>
        rw [Phase.pending_of_free hfree] at hid
        cases hid
    | lookUp => cases hid
    | find => exact .inr (.inl ⟨hjob, hid⟩)
    | miss hnone =>
        rcases List.mem_cons.mp hid with rfl | hid
        · rw [← hslot, hlocal (by omega)] at hnone
          cases hnone
        · exact .inr (.inl ⟨hjob, hid⟩)
    | @send _ _ id' _ websocket' =>
        cases hjob
        rcases List.mem_cons.mp hid with rfl | hid
        · right; right; right
          obtain ⟨j, manager'', session', hcall', -, -⟩ := hlisten.found _ _ _ _ _ rfl
          have hij : i = j := hfresh i j id (by rw [hcall]; rfl) (by rw [hcall']; rfl)
          subst hij
          rw [hcall] at hcall'
          cases hcall'
          rw [servings, (hlisten.job msg route rfl).1]
          exact List.mem_cons_self
        · exact .inr (.inl ⟨rfl, hid⟩)
    | fail => exact .inr (.inr (.inl rfl))
  · cases hmove with
    | other => exact .inr (.inr (.inl rfl))
    | hear hfree => cases hfree
    | skip hfree => cases hfree
  · exact .inr (.inr (.inr (hserved hsv)))

omit [DecidableEq ι] in
theorem Connected.append {i : ι} {manager : Manager} {websocket : Socket} {user id : String}
    (hconn : Connected calls h i manager websocket user id) (newer : GatewayHistory ι) :
    Connected calls (newer ++ h) i manager websocket user id := by
  obtain ⟨hcall, w, added, hmem⟩ := hconn
  exact ⟨hcall, w, added, List.mem_append_right newer hmem⟩

theorem underway_of_run (hfresh : FreshIds calls)
    (hrun : GatewayRun repr calls (World.initial clock incoming) h c) {k i : ι}
    {manager manager' : Manager} {rounds : ℕ} {websocket : Socket} {id : String} {msg : Message}
    {route : Route} {w : World} {older : GatewayHistory ι}
    (hk : calls k = .listenPubsub manager rounds) (hroute : msg.route repr = .ok (some route))
    (hconn : Connected calls older i manager' websocket route.userId id)
    (hslot : manager'.slot = manager.slot) (newer : GatewayHistory ι)
    (heq : h = newer ++ (k, ⟨w, .getMessage manager, .ok (some msg)⟩) :: older)
    (hcalm : Undisturbed calls h id) :
    Serving.Underway ⟨msg.serial, websocket, .message route.topic route.payload, true⟩ msg route id
      (phase repr calls h k) h := by
  revert newer heq hcalm
  apply run_keeps (I := fun h _ => ∀ newer,
    h = newer ++ (k, ⟨w, .getMessage manager, .ok (some msg)⟩) :: older →
    Undisturbed calls h id →
    Serving.Underway ⟨msg.serial, websocket, .message route.topic route.payload, true⟩ msg route id
      (phase repr calls h k) h) hrun
  · intro newer heq
    exact absurd heq (by simp)
  · intro h c x e a w' hr hinv hmay henv newer heq hcalm
    cases newer with
    | nil =>
        -- The message is taken now.
        cases heq
        left
        rw [hk] at hmay
        rw [phase_self]
        exact (move_of_may hmay henv).heard hroute
    | cons entry newer =>
        obtain ⟨hentry, rfl⟩ := List.cons.inj heq
        have hcalm' : Undisturbed calls _ id := fun j manager ev hj hmem =>
          hcalm j manager ev hj (List.mem_cons_of_mem _ hmem)
        have hold := hinv newer rfl hcalm'
        by_cases hxk : x = k
        · subst hxk
          have hconn' := (hconn.append [(x, ⟨w, .getMessage manager, .ok (some msg)⟩)]).append newer
          rw [hk] at hmay
          rw [phase_self]
          exact hold.move hfresh hr hk rfl hconn' hslot hcalm' (move_of_may hmay henv)
        · rw [phase_other hxk]
          rcases hold with hheard | hpending | hfailed | hsv
          · exact .inl hheard
          · exact .inr (.inl hpending)
          · exact .inr (.inr (.inl hfailed))
          · exact .inr (.inr (.inr (List.mem_append_right _ hsv)))

theorem serves_all (hfresh : FreshIds calls)
    (hrun : GatewayRun repr calls (World.initial clock incoming) h c) {userId : Json}
    (htruthy : userId.truthy) : ServesAll repr calls h c userId := by
  rintro k w manager msg newer older channel message rfl hpub huser ⟨rounds, hpool⟩ i manager'
    websocket id hconn hslot hcalm
  have hk : ∃ rounds', calls k = .listenPubsub manager rounds' := by
    obtain ⟨rounds', hk, -⟩ := hrun.may (prog_obeys_flow (calls k))
      (List.suffix_append newer ((k, ⟨w, .getMessage manager, .ok (some msg)⟩) :: older))
    exact ⟨rounds', hk⟩
  obtain ⟨rounds', hk⟩ := hk
  have hroute : msg.route repr = .ok (some ⟨userId.text repr, channel, .obj message⟩) := by
    rw [hpub.route, routeTo_eq_some.mpr ⟨userId, huser, htruthy, rfl⟩]
  have hfree := free_of_listening hrun hk hpool
  rcases underway_of_run hfresh hrun hk hroute hconn hslot newer rfl hcalm with
    hheard | ⟨-, hid⟩ | hfailed | hsv
  · rw [hheard] at hfree
    cases hfree
  · rw [Phase.pending_of_free hfree] at hid
    cases hid
  · rw [hfailed] at hfree
    cases hfree
  · exact hsv

-- ============================================================================
-- Delivery
-- ============================================================================

/-- Of each message, a socket is sent at most one frame. -/
def SendsOnce (h : GatewayHistory ι) : Prop :=
  ((servings h).map fun sv => (sv.serial, sv.websocket)).Nodup

/-- In every run of any number of instances, messages are only sent to the users they name,
    once, and under their channels; and to all of them, unless the user id is falsy. -/
theorem delivery (hfresh : FreshIds calls)
    (hrun : GatewayRun repr calls (World.initial clock incoming) h c) :
    SendsRightly repr calls h ∧ SendsOnce h ∧ ListenersLive calls h c ∧
      ∀ userId, userId.truthy → ServesAll repr calls h c userId :=
  ⟨sends_rightly hfresh hrun, (servings_nodup hfresh hrun).2, listeners_live hrun,
    fun _ htruthy => serves_all hfresh hrun htruthy⟩

/-- The coroutines of a broadcast. -/
inductive Scene
  | arrive | speak | listen
  deriving DecidableEq

/-- A user connects, and is sent a message. -/
def scene (user : String) : Scene → GatewayCall
  | .arrive => .connect ⟨0, "api_gateway"⟩ 1 user "c1" "s1"
  | .speak => .publish "news" [("user_id", .str user)]
  | .listen => .listenPubsub ⟨0, "api_gateway"⟩ 1

theorem scene_fresh (user : String) : FreshIds (scene user) := by
  have honly : ∀ i id, (scene user i).connects = some id → i = .arrive := by
    intro i id hi
    cases i with
    | arrive => rfl
    | _ => cases hi
  intro i j id hi hj
  rw [honly i id hi, honly j id hj]

theorem delivery_scene :
    ∃ h c, GatewayRun (fun _ => "") (scene "alice") (World.initial 0 fun _ => []) h c ∧
      (servings h).map (fun sv => (sv.serial, sv.websocket, sv.ok)) = [(0, 1, true)] ∧
      SendsRightly (fun _ => "") (scene "alice") h ∧ SendsOnce h ∧
      ListenersLive (scene "alice") h c ∧
      ∀ userId, userId.truthy → ServesAll (fun _ => "") (scene "alice") h c userId := by
  have hrun : ∃ h c, GatewayRun (fun _ => "") (scene "alice") (World.initial 0 fun _ => []) h c ∧
      (servings h).map (fun sv => (sv.serial, sv.websocket, sv.ok)) = [(0, 1, true)] :=
    exists_gatewayRun (fun _ => false)
      (List.replicate 6 .arrive ++ [.speak] ++ List.replicate 4 .listen)
      (fun h _ => (servings h).map (fun sv => (sv.serial, sv.websocket, sv.ok)) = [(0, 1, true)])
      (by decide +kernel)
  obtain ⟨h, c, hrun, hsent⟩ := hrun
  exact ⟨h, c, hrun, hsent, delivery (scene_fresh "alice") hrun⟩

/-- No sending has failed, and no time has passed. -/
def Smooth (calls : ι → GatewayCall) (h : GatewayHistory ι) : Prop :=
  (∀ k w websocket frame x, (k, ⟨w, .sendJson websocket frame, .error x⟩) ∉ h) ∧
    ∀ k seconds, calls k ≠ .tick seconds

/-- Is it a sending that has failed? -/
def failedSend : Event World GatewayOp.Ans Exc → Bool
  | ⟨_, .sendJson .., .error _⟩ => true
  | _ => false

theorem taken_eq_some {ev : Event World GatewayOp.Ans Exc} {msg : Message}
    (htaken : taken ev = some msg) :
    ∃ w manager, ev = ⟨w, .getMessage manager, .ok (some msg)⟩ := by
  obtain ⟨w, e, a⟩ := ev
  cases e with
  | getMessage manager =>
      cases a with
      | error x => cases htaken
      | ok answer =>
          obtain rfl : answer = some msg := htaken
          exact ⟨w, manager, rfl⟩
  | _ => cases htaken

/-- A user whose id is the empty text. -/
theorem scene_nobody :
    ∃ h c, GatewayRun (fun _ => "") (scene "") (World.initial 0 fun _ => []) h c ∧
      (∀ entry ∈ h, ¬ failedSend entry.2) ∧ (servings h).length = 0 ∧
      (c.pool .listen).returned ∧ 3 ≤ (phase (fun _ => "") (scene "") h.tail .arrive).rank ∧
      ∃ entry ∈ h.head?, entry.1 = .listen ∧ (taken entry.2).isSome :=
  exists_gatewayRun (fun _ => false) (List.replicate 6 .arrive ++ [.speak, .listen])
    (fun h c => (∀ entry ∈ h, ¬ failedSend entry.2) ∧ (servings h).length = 0 ∧
      (c.pool .listen).returned ∧ 3 ≤ (phase (fun _ => "") (scene "") h.tail .arrive).rank ∧
      ∃ entry ∈ h.head?, entry.1 = .listen ∧ (taken entry.2).isSome)
    (by decide +kernel)

theorem not_serves_all :
    ¬ ∀ (ι : Type) [DecidableEq ι] (repr : Json → String) (calls : ι → GatewayCall) (clock : ℚ≥0)
      (h : GatewayHistory ι) (c : GatewayConfig ι), FreshIds calls → Smooth calls h →
      GatewayRun repr calls (World.initial clock fun _ => []) h c →
      ∀ user, ServesAll repr calls h c (.str user) := by
  intro hall
  obtain ⟨h, c, hrun, hsends, hnone, hret, hrank, entry, hhead, hlisten, htaken⟩ := scene_nobody
  have hsmooth : Smooth (scene "") h := by
    refine ⟨fun k w websocket frame x hmem => hsends _ hmem rfl, fun k seconds hk => ?_⟩
    cases k <;> cases hk
  have hserves := hall Scene _ _ 0 h c (scene_fresh "") hsmooth hrun ""
  obtain ⟨_, hret⟩ := Prog.eq_ret_of_returned hret
  -- The last step of the run takes the message.
  cases hrun with
  | nil => cases hhead
  | @cons older c₁ _ k ev hr hs =>
      obtain rfl := Option.some.inj hhead
      obtain rfl : k = .listen := hlisten
      obtain ⟨msg, htaken⟩ := Option.isSome_iff_exists.mp htaken
      obtain ⟨w, manager, rfl⟩ := taken_eq_some htaken
      have hmay := (hr.cons hs).may (prog_obeys_flow (scene "" .listen)) List.suffix_rfl
      obtain ⟨rounds, hk, -⟩ := hmay
      cases hk
      have hpub : Published (scene "") older msg "news" [("user_id", .str "")] := by
        cases hs with
        | mk _ _ henv =>
            rcases henv with ⟨heq, -⟩ | ⟨msg', n, -, hmsg, heq, -⟩
            · cases heq
            · cases heq
              obtain ⟨-, channel, message, hpub⟩ := published_of_run hr hmsg
              obtain ⟨i, w, hi, hmem, hmessage⟩ := hpub
              cases i with
              | speak =>
                  cases hi
                  exact ⟨.speak, w, rfl, hmem, hmessage⟩
              | _ => cases hi
      have hconn := connected_of_rank hr (i := .arrive) rfl hrank
      have hcalm : ∀ id, Undisturbed (scene "")
          ((.listen, ⟨w, .getMessage ⟨0, "api_gateway"⟩, .ok (some msg)⟩) :: older) id := by
        intro id j manager ev hj
        cases j <;> cases hj
      have hmem := hserves .listen w _ msg [] older _ _ rfl hpub rfl ⟨0, hret⟩ .arrive _ _ _ hconn
        rfl (hcalm _)
      rw [List.eq_nil_of_length_eq_zero hnone] at hmem
      cases hmem

end Mtrader.Gateway
