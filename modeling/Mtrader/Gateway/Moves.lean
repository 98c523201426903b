/-
  Mtrader.Gateway.Moves

  How the listeners of the gateway go on, in every run.

  `Move` says what one operation of a listener does to its phase.  Each message comes to
  one listener of an instance.  For it the listener joins the set of a user's connections,
  which all instances share, with the local map of its instance; connection ids are fresh,
  so the two agree on the user and on the socket.
-/

import Mtrader.Gateway.Connections

namespace Mtrader.Gateway

open Py Coroutine Collection

-- ============================================================================
-- Moves of a listener
-- ============================================================================

/-- The message that a listener is at, and its route. -/
def Phase.job : Phase → Option (Message × Route)
  | .heard msg route => some (msg, route)
  | .sending msg route _ => some (msg, route)
  | .holding msg route .. => some (msg, route)
  | _ => none

/-- The connections that a listener has still to send its message to. -/
def Phase.pending : Phase → List String
  | .sending _ _ todo => todo
  | .holding _ _ id todo _ => id :: todo
  | _ => []

theorem Phase.pending_of_free {p : Phase} (hfree : p.free) : p.pending = [] := by
  cases p with
  | outside => rfl
  | sending msg route todo =>
      cases todo with
      | nil => rfl
      | cons id todo => cases hfree
  | _ => cases hfree

/-- The message that an operation takes. -/
def taken : Event World GatewayOp.Ans Exc → Option Message
  | ⟨_, .getMessage _, .ok msg⟩ => msg
  | _ => none

/-- Does the operation send a message of a channel? -/
def GatewayOp.sends : GatewayOp → Bool
  | .sendJson _ (.message ..) => true
  | _ => false

/-- What an operation does to the phase of its listener. -/
inductive Move (repr : Json → String) (manager : Manager) (w : World) :
    Phase → (e : GatewayOp) → Except Exc e.Ans → Phase → Prop
  | other {p : Phase} {e : GatewayOp} {a : Except Exc e.Ans} :
      taken ⟨w, e, a⟩ = none → e.sends = false → Move repr manager w p e a p
  | hear {p : Phase} {n : ℕ} {msg : Message} {route : Route} :
      p.free → w.next manager.slot ≤ n → w.published[n]? = some msg →
      msg.route repr = .ok (some route) →
      Move repr manager w p (.getMessage manager) (.ok (some msg)) (.heard msg route)
  | skip {p p' : Phase} {n : ℕ} {msg : Message} :
      p.free → w.next manager.slot ≤ n → w.published[n]? = some msg →
      (msg.route repr = .ok none ∧ p' = .outside ∨
        (∃ x, msg.route repr = .error x) ∧ p' = .failed) →
      Move repr manager w p (.getMessage manager) (.ok (some msg)) p'
  | lookUp {msg : Message} {route : Route} {ids : List String} :
      ids.Nodup → ids.toFinset = w.members (.userConnections route.userId) →
      Move repr manager w (.heard msg route) (.smembers (.userConnections route.userId)) (.ok ids)
        (.sending msg route ids)
  | find {msg : Message} {route : Route} {id : String} {todo : List String} {websocket : Socket} :
      w.locals manager.slot id = some websocket →
      Move repr manager w (.sending msg route (id :: todo)) (.getLocal manager id)
        (.ok (some websocket)) (.holding msg route id todo websocket)
  | miss {msg : Message} {route : Route} {id : String} {todo : List String} :
      w.locals manager.slot id = none →
      Move repr manager w (.sending msg route (id :: todo)) (.getLocal manager id) (.ok none)
        (.sending msg route todo)
  | send {msg : Message} {route : Route} {id : String} {todo : List String} {websocket : Socket} :
      Move repr manager w (.holding msg route id todo websocket)
        (.sendJson websocket (.message route.topic route.payload)) (.ok ())
        (.sending msg route todo)
  | fail {msg : Message} {route : Route} {id : String} {todo : List String} {websocket : Socket}
      {x : Exc} :
      Move repr manager w (.holding msg route id todo websocket)
        (.sendJson websocket (.message route.topic route.payload)) (.error x) .failed

theorem move_of_may {repr : Json → String} {manager : Manager} {rounds : ℕ} {w w' : World}
    {p : Phase} {e : GatewayOp} {a : Except Exc e.Ans}
    (hmay : (flow repr (.listenPubsub manager rounds)).may p e) (henv : gatewayEnv w e a w') :
    Move repr manager w p e a (p.next repr e a) := by
  cases e with
  | accept websocket =>
      obtain ⟨_, _, _, _, hcall, -⟩ := hmay
      cases hcall
  | setLocal manager' id websocket =>
      obtain ⟨_, _, hcall, -⟩ := hmay
      cases hcall
  | sadd key members =>
      cases key with
      | userConnections user =>
          obtain ⟨_, _, _, _, hcall, -⟩ := hmay
          cases hcall
      | _ => exact .other rfl rfl
  | getMessage manager' =>
      obtain ⟨rounds', hcall, hfree⟩ := hmay
      cases hcall
      have hnext : p.next repr (.getMessage manager) a = p.take repr a := if_pos hfree
      rw [hnext]
      rcases henv with ⟨rfl, -⟩ | ⟨msg, n, hle, hmsg, rfl, -⟩
      · exact .other rfl rfl
      · cases hroute : msg.route repr with
        | error x =>
            refine .skip hfree hle hmsg (.inr ⟨⟨x, hroute⟩, ?_⟩)
            simp only [Phase.take, hroute]
        | ok route =>
            cases route with
            | none =>
                refine .skip hfree hle hmsg (.inl ⟨hroute, ?_⟩)
                simp only [Phase.take, hroute]
            | some route =>
                have htake : p.take repr (.ok (some msg)) = .heard msg route := by
                  simp only [Phase.take, hroute]
                rw [htake]
                exact .hear hfree hle hmsg hroute
  | smembers key =>
      cases key with
      | userConnections user =>
          obtain ⟨_, _, msg, route, -, rfl, rfl⟩ := hmay
          obtain ⟨ids, hnodup, hids, rfl, -⟩ := henv
          exact .lookUp hnodup hids
      | _ => exact .other rfl rfl
  | getLocal manager' id =>
      obtain ⟨_, msg, route, todo, hcall, rfl⟩ := hmay
      cases hcall
      obtain ⟨rfl, -⟩ := henv
      cases hlocal : w.locals manager.slot id with
      | some websocket => exact .find hlocal
      | none => exact .miss hlocal
  | sendJson websocket frame =>
      cases frame with
      | message topic data =>
          obtain ⟨_, _, msg, route, id, todo, -, rfl, rfl, rfl⟩ := hmay
          cases a with
          | ok _ => exact .send
          | error x => exact .fail
      | event name fields => exact .other rfl rfl
  | _ => exact .other rfl rfl

theorem Move.heard {repr : Json → String} {manager manager' : Manager} {w : World}
    {p p' : Phase} {msg : Message} {route : Route}
    (hmove : Move repr manager w p (.getMessage manager') (.ok (some msg)) p')
    (hroute : msg.route repr = .ok (some route)) : p' = .heard msg route := by
  cases hmove with
  | other hnone => cases hnone
  | hear hfree hle hmsg hroute' =>
      rw [hroute, Except.ok.injEq, Option.some.injEq] at hroute'
      rw [hroute']
  | skip hfree hle hmsg hnext =>
      rw [hroute] at hnext
      rcases hnext with ⟨heq, -⟩ | ⟨⟨x, heq⟩, -⟩
      · cases heq
      · cases heq

-- ============================================================================
-- Messages
-- ============================================================================

section

variable {w w' : World} {e : GatewayOp} {a : Except Exc e.Ans}

/-- An operation takes a message that is published and has not come yet. -/
theorem taken_cases (henv : gatewayEnv w e a w') :
    (taken ⟨w, e, a⟩ = none ∧ w'.next = w.next) ∨
      ∃ manager msg n, e = .getMessage manager ∧ taken ⟨w, e, a⟩ = some msg ∧
        w.next manager.slot ≤ n ∧ w.published[n]? = some msg ∧ w' = w.take manager n := by
  by_cases hget : ∃ manager, e = .getMessage manager
  · obtain ⟨manager, rfl⟩ := hget
    rcases henv with ⟨rfl, rfl⟩ | ⟨msg, n, hle, hmsg, rfl, rfl⟩
    · exact .inl ⟨rfl, rfl⟩
    · exact .inr ⟨manager, msg, n, rfl, rfl, hle, hmsg, rfl⟩
  · left
    constructor
    · cases e with
      | getMessage manager => exact absurd ⟨manager, rfl⟩ hget
      | _ => rfl
    · cases change_of_env henv with
      | take manager n => exact absurd ⟨manager, rfl⟩ hget
      | _ => rfl

/-- Published messages stay. -/
theorem published_of_change (hchange : Change w e w') {n : ℕ} {msg : Message}
    (hmsg : w.published[n]? = some msg) : w'.published[n]? = some msg := by
  cases hchange with
  | publish channel data =>
      show (w.published ++ [_])[n]? = some msg
      rw [List.getElem?_append_left (List.getElem?_eq_some_iff.mp hmsg).1]
      exact hmsg
  | _ => exact hmsg

/-- A subscription never comes back. -/
theorem next_mono (henv : gatewayEnv w e a w') (slot : ℕ) : w.next slot ≤ w'.next slot := by
  rcases taken_cases henv with ⟨-, heq⟩ | ⟨manager, msg, n, -, -, hle, -, rfl⟩
  · exact (congrFun heq slot).ge
  · show w.next slot ≤ Function.update w.next manager.slot (n + 1) slot
    by_cases hslot : slot = manager.slot
    · subst hslot
      rw [Function.update_self]
      omega
    · rw [Function.update_of_ne hslot]

end

variable {ι : Type} [DecidableEq ι] {repr : Json → String} {calls : ι → GatewayCall}
variable {clock : ℚ≥0} {incoming : Socket → List Json}
variable {h : GatewayHistory ι} {c : GatewayConfig ι}

/-- The message that coroutine `k` has taken last. -/
def taking (k : ι) : GatewayHistory ι → Option Message
  | [] => none
  | (j, ev) :: h => if j = k then (taken ev).or (taking k h) else taking k h

theorem taking_self {k : ι} {ev : Event World GatewayOp.Ans Exc} :
    taking k ((k, ev) :: h) = (taken ev).or (taking k h) := if_pos rfl

theorem taking_other {k j : ι} {ev : Event World GatewayOp.Ans Exc} (hne : j ≠ k) :
    taking k ((j, ev) :: h) = taking k h := if_neg hne

/-- A call of `publish` has published the message. -/
def Published (calls : ι → GatewayCall) (h : GatewayHistory ι) (msg : Message) (channel : String)
    (message : List (String × Json)) : Prop :=
  ∃ i w, calls i = .publish channel message ∧
    (i, ⟨w, .publish (broadcastPrefix ++ channel) (.json (.obj message)), .ok ()⟩) ∈ h ∧
    msg = ⟨w.published.length, some (broadcastPrefix ++ channel), .json (.obj message)⟩

omit [DecidableEq ι] in
theorem Published.cons {msg : Message} {channel : String} {message : List (String × Json)}
    {entry : ι × Event World GatewayOp.Ans Exc} (hpub : Published calls h msg channel message) :
    Published calls (entry :: h) msg channel message := by
  obtain ⟨i, w, hcall, hmem, rfl⟩ := hpub
  exact ⟨i, w, hcall, List.mem_cons_of_mem _ hmem, rfl⟩

theorem published_of_run (hrun : GatewayRun repr calls (World.initial clock incoming) h c)
    {n : ℕ} {msg : Message} (hmsg : c.world.published[n]? = some msg) :
    msg.serial = n ∧ ∃ channel message, Published calls h msg channel message := by
  revert n msg
  apply run_keeps (I := fun h w => ∀ {n : ℕ} {msg : Message}, w.published[n]? = some msg →
    msg.serial = n ∧ ∃ channel message, Published calls h msg channel message) hrun
  · intro n msg hmsg
    cases hmsg
  · intro h c x e a w' hr hinv hmay henv n msg hmsg
    have hold : c.world.published[n]? = some msg → msg.serial = n ∧
        ∃ channel message, Published calls ((x, ⟨c.world, e, a⟩) :: h) msg channel message := by
      intro hmsg
      obtain ⟨hserial, channel, message, hpub⟩ := hinv hmsg
      exact ⟨hserial, channel, message, hpub.cons⟩
    cases change_of_env henv with
    | publish channel data =>
        obtain ⟨name, message, hcall, rfl, rfl⟩ := hmay
        obtain ⟨rfl, -⟩ := henv
        have happend : (c.world.published ++ [⟨c.world.published.length,
            some (broadcastPrefix ++ name), .json (.obj message)⟩])[n]? = some msg := hmsg
        rcases Nat.lt_trichotomy n c.world.published.length with hlt | heq | hgt
        · rw [List.getElem?_append_left hlt] at happend
          exact hold happend
        · subst heq
          rw [List.getElem?_concat_length, Option.some.injEq] at happend
          subst happend
          exact ⟨rfl, name, message, x, c.world, hcall, List.mem_cons_self, rfl⟩
        · rw [List.getElem?_eq_none] at happend
          · cases happend
          · rw [List.length_append, List.length_singleton]
            omega
    | _ => exact hold hmsg

/-- What the listeners have taken: of each message, only one of the same instance. -/
structure Taken (calls : ι → GatewayCall) (h : GatewayHistory ι) (w : World) : Prop where
  published : ∀ k msg, taking k h = some msg → w.published[msg.serial]? = some msg
  below : ∀ k manager rounds msg, calls k = .listenPubsub manager rounds →
    taking k h = some msg → msg.serial < w.next manager.slot
  single : ∀ k manager rounds msg k' manager' rounds' msg',
    calls k = .listenPubsub manager rounds → calls k' = .listenPubsub manager' rounds' →
    manager'.slot = manager.slot → taking k h = some msg → taking k' h = some msg' →
    msg'.serial = msg.serial → k' = k

theorem taken_of_run (hrun : GatewayRun repr calls (World.initial clock incoming) h c) :
    Taken calls h c.world := by
  apply run_keeps hrun
  · exact ⟨nofun, nofun, nofun⟩
  · intro h c x e a w' hr hinv hmay henv
    -- What a coroutine has taken last is what it had, or what this operation takes.
    have hnew : ∀ k msg, taking k ((x, ⟨c.world, e, a⟩) :: h) = some msg →
        taking k h = some msg ∨ k = x ∧ ∃ manager rounds, calls k = .listenPubsub manager rounds ∧
          c.world.next manager.slot ≤ msg.serial ∧ msg.serial < w'.next manager.slot ∧
          c.world.published[msg.serial]? = some msg := by
      intro k msg htaking
      by_cases hxk : x = k
      · subst hxk
        rw [taking_self] at htaking
        rcases taken_cases henv with ⟨hnone, -⟩ | ⟨manager, msg', n, rfl, htaken, hle, hmsg, rfl⟩
        · rw [hnone] at htaking
          exact .inl htaking
        · rw [htaken] at htaking
          obtain rfl := Option.some.inj htaking
          obtain ⟨hserial, -⟩ := published_of_run hr hmsg
          subst hserial
          obtain ⟨rounds, hcall, -⟩ := hmay
          refine .inr ⟨rfl, manager, rounds, hcall, hle, ?_, hmsg⟩
          show msg'.serial <
            Function.update c.world.next manager.slot (msg'.serial + 1) manager.slot
          rw [Function.update_self]
          exact Nat.lt_succ_self _
      · rw [taking_other hxk] at htaking
        exact .inl htaking
    constructor
    · intro k msg htaking
      apply published_of_change (change_of_env henv)
      rcases hnew k msg htaking with hold | ⟨-, _, _, -, -, -, hmsg⟩
      · exact hinv.published k msg hold
      · exact hmsg
    · intro k manager rounds msg hcall htaking
      rcases hnew k msg htaking with hold | ⟨-, manager', _, hcall', -, hlt, -⟩
      · exact (hinv.below k _ _ _ hcall hold).trans_le (next_mono henv _)
      · rw [hcall] at hcall'
        cases hcall'
        exact hlt
    · intro k manager rounds msg k' manager' rounds' msg' hk hk' hslot htaking htaking' hserial
      rcases hnew k msg htaking with hold | ⟨rfl, manager₁, _, hcall₁, hle, -, -⟩
      · rcases hnew k' msg' htaking' with hold' | ⟨rfl, manager₂, _, hcall₂, hle, -, -⟩
        · exact hinv.single k _ _ _ k' _ _ _ hk hk' hslot hold hold' hserial
        · rw [hk'] at hcall₂
          cases hcall₂
          have hlt := hinv.below k _ _ _ hk hold
          rw [hslot] at hle
          omega
      · rcases hnew k' msg' htaking' with hold' | ⟨rfl, -⟩
        · rw [hk] at hcall₁
          cases hcall₁
          have hlt := hinv.below k' _ _ _ hk' hold'
          rw [hslot] at hlt
          omega
        · rfl

-- ============================================================================
-- Listeners
-- ============================================================================

/-- The connection has joined its user's set. -/
def Joined (repr : Json → String) (calls : ι → GatewayCall) (h : GatewayHistory ι)
    (user id : String) : Prop :=
  ∃ i manager websocket session, calls i = .connect manager websocket user id session ∧
    3 ≤ (phase repr calls h i).rank

/-- The socket has been found in the local map as that of the connection. -/
def Found (repr : Json → String) (calls : ι → GatewayCall) (h : GatewayHistory ι)
    (manager : Manager) (websocket : Socket) (user id : String) : Prop :=
  ∃ i manager' session, calls i = .connect manager' websocket user id session ∧
    manager'.slot = manager.slot ∧ 3 ≤ (phase repr calls h i).rank

theorem Joined.cons {user id : String} {i : ι} {ev : Event World GatewayOp.Ans Exc}
    (hjoined : Joined repr calls h user id) : Joined repr calls ((i, ev) :: h) user id := by
  obtain ⟨j, manager, websocket, session, hcall, hrank⟩ := hjoined
  exact ⟨j, manager, websocket, session, hcall, hrank.trans rank_le_cons⟩

theorem Found.cons {manager : Manager} {websocket : Socket} {user id : String} {i : ι}
    {ev : Event World GatewayOp.Ans Exc} (hfound : Found repr calls h manager websocket user id) :
    Found repr calls ((i, ev) :: h) manager websocket user id := by
  obtain ⟨j, manager', session, hcall, hslot, hrank⟩ := hfound
  exact ⟨j, manager', session, hcall, hslot, hrank.trans rank_le_cons⟩

/-- A listener in phase `p` has taken the message that it is at, is to send it to
    connections of the message's user, each once, and holds the socket of the one it is
    at. -/
structure Listening (repr : Json → String) (calls : ι → GatewayCall) (manager : Manager) (k : ι)
    (p : Phase) (h : GatewayHistory ι) : Prop where
  job : ∀ msg route, p.job = some (msg, route) →
    taking k h = some msg ∧ msg.route repr = .ok (some route)
  nodup : p.pending.Nodup
  joined : ∀ msg route, p.job = some (msg, route) →
    ∀ id ∈ p.pending, Joined repr calls h route.userId id
  found : ∀ msg route id todo websocket, p = .holding msg route id todo websocket →
    Found repr calls h manager websocket route.userId id

theorem Listening.move {manager : Manager} {k : ι} {p p' : Phase} {w : World} {e : GatewayOp}
    {a : Except Exc e.Ans} (hfresh : FreshIds calls) (hreg : Registered repr calls h w)
    (hmove : Move repr manager w p e a p') (hinv : Listening repr calls manager k p h) :
    Listening repr calls manager k p' ((k, ⟨w, e, a⟩) :: h) := by
  -- A listener that goes on with its message has not taken another.
  have hkept : ∀ {job : Message × Route}, p.job = some job → taken ⟨w, e, a⟩ = none →
      taking k ((k, ⟨w, e, a⟩) :: h) = some job.1 ∧ job.1.route repr = .ok (some job.2) := by
    intro job hjob hnone
    rw [taking_self, hnone]
    exact hinv.job _ _ hjob
  cases hmove with
  | other hnone hsends =>
      exact ⟨fun msg route hjob => hkept hjob hnone, hinv.nodup,
        fun msg route hjob id hid => (hinv.joined msg route hjob id hid).cons,
        fun msg route id todo websocket hp => (hinv.found _ _ _ _ _ hp).cons⟩
  | hear hfree hle hmsg hroute =>
      refine ⟨fun msg' route' hjob => ?_, List.nodup_nil, fun _ _ _ _ hid => (nomatch hid), nofun⟩
      cases hjob
      exact ⟨by rw [taking_self]; rfl, hroute⟩
  | skip hfree hle hmsg hnext =>
      rcases hnext with ⟨-, rfl⟩ | ⟨-, rfl⟩
      · exact ⟨nofun, List.nodup_nil, nofun, nofun⟩
      · exact ⟨nofun, List.nodup_nil, nofun, nofun⟩
  | @lookUp msg route ids hnodup hids =>
      refine ⟨fun msg' route' hjob => ?_, hnodup, fun msg' route' hjob id hid => ?_, nofun⟩
      · cases hjob
        exact hkept rfl rfl
      · cases hjob
        have hmem : id ∈ w.members (.userConnections route.userId) := by
          rw [← hids]
          exact List.mem_toFinset.mpr hid
        exact Joined.cons (hreg.members _ _ hmem)
  | @find msg route id todo websocket hlocal =>
      refine ⟨fun msg' route' hjob => ?_, hinv.nodup, fun msg' route' hjob id' hid => ?_, ?_⟩
      · cases hjob
        exact hkept rfl rfl
      · cases hjob
        exact (hinv.joined msg route rfl id' hid).cons
      · rintro _ _ _ _ _ hp
        cases hp
        -- The local map and the user's set hold the connection of the same `connect`.
        obtain ⟨i, manager', websocket', session, hcall, hrank⟩ :=
          hinv.joined msg route rfl id List.mem_cons_self
        obtain ⟨j, manager'', user, session', hcall', hslot, -⟩ := hreg.locals _ _ _ hlocal
        have hij : i = j := hfresh i j id (by rw [hcall]; rfl) (by rw [hcall']; rfl)
        subst hij
        rw [hcall] at hcall'
        cases hcall'
        exact Found.cons ⟨i, manager', session, hcall, hslot, hrank⟩
  | @miss msg route id todo hlocal =>
      refine ⟨fun msg' route' hjob => ?_, hinv.nodup.of_cons, fun msg' route' hjob id' hid => ?_,
        nofun⟩
      · cases hjob
        exact hkept rfl rfl
      · cases hjob
        exact (hinv.joined msg route rfl id' (List.mem_cons_of_mem _ hid)).cons
  | @send msg route id todo websocket =>
      refine ⟨fun msg' route' hjob => ?_, hinv.nodup.of_cons, fun msg' route' hjob id' hid => ?_,
        nofun⟩
      · cases hjob
        exact hkept rfl rfl
      · cases hjob
        exact (hinv.joined msg route rfl id' (List.mem_cons_of_mem _ hid)).cons
  | fail => exact ⟨nofun, List.nodup_nil, nofun, nofun⟩

theorem listening_of_run (hfresh : FreshIds calls)
    (hrun : GatewayRun repr calls (World.initial clock incoming) h c) {k : ι} {manager : Manager}
    {rounds : ℕ} (hcall : calls k = .listenPubsub manager rounds) :
    Listening repr calls manager k (phase repr calls h k) h := by
  apply run_keeps (I := fun h _ => Listening repr calls manager k (phase repr calls h k) h) hrun
  · exact ⟨nofun, List.nodup_nil, nofun, nofun⟩
  · intro h c x e a w' hr hinv hmay henv
    by_cases hxk : x = k
    · subst hxk
      rw [hcall] at hmay
      rw [phase_self]
      exact hinv.move hfresh (registered_of_run hr) (move_of_may hmay henv)
    · rw [phase_other hxk]
      refine ⟨fun msg route hjob => ?_, hinv.nodup,
        fun msg route hjob id hid => (hinv.joined msg route hjob id hid).cons,
        fun msg route id todo websocket hp => (hinv.found _ _ _ _ _ hp).cons⟩
      rw [taking_other hxk]
      exact hinv.job msg route hjob

end Mtrader.Gateway
