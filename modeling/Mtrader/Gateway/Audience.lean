/-
  Mtrader.Gateway.Audience

  The topics that a user is sent, and the user's subscription set.

  The endpoint keeps the set, and `broadcast_to_user` does not look at it.  So a user is
  only sent topics of the set when whoever publishes sees to it: the topic is in the set
  when the user's connections are looked up, and stays there until the last of them has
  been sent the message.
-/

import Mtrader.Gateway.Delivery

namespace Mtrader.Gateway

open Py Coroutine Collection

-- ============================================================================
-- The subscription set
-- ============================================================================

/-- Does the operation take the topic out of the user's set, or let the set expire? -/
def GatewayOp.drops (w : World) (user topic : String) : GatewayOp → Bool
  | .srem key topics => key = .subs user ∧ topic ∈ topics
  | .delete key => key = .subs user
  | .expire key seconds => topic ∈ w.members (.subs user) ∧
      topic ∉ (w.expire key seconds).members (.subs user)
  | .tick seconds => topic ∈ w.members (.subs user) ∧
      topic ∉ (w.later seconds).members (.subs user)
  | _ => false

theorem mem_subs_of_change {w w' : World} {e : GatewayOp} {user topic : String}
    (hchange : Change w e w') (hmem : topic ∈ w.members (.subs user))
    (hdrops : e.drops w user topic = false) : topic ∈ w'.members (.subs user) := by
  cases hchange with
  | sadd key topics =>
      by_cases hkey : Key.subs user = key
      · subst hkey
        rw [World.members_writeSet]
        exact Finset.mem_union_left _ hmem
      · rwa [World.members_writeSet_of_ne hkey]
  | srem key topics =>
      by_cases hkey : Key.subs user = key
      · subst hkey
        have htopic : topic ∉ topics := fun htopic =>
          of_decide_eq_false hdrops ⟨rfl, htopic⟩
        rw [World.members_writeSet, Finset.mem_sdiff, List.mem_toFinset]
        exact ⟨hmem, htopic⟩
      · rwa [World.members_writeSet_of_ne hkey]
  | expire key seconds =>
      by_contra hnot
      exact of_decide_eq_false hdrops ⟨hmem, hnot⟩
  | delete key =>
      have hkey : Key.subs user ≠ key := fun hkey => of_decide_eq_false hdrops hkey.symm
      rwa [World.members_delete, if_neg hkey]
  | tick seconds =>
      by_contra hnot
      exact of_decide_eq_false hdrops ⟨hmem, hnot⟩
  | _ => exact hmem

-- ============================================================================
-- Runs
-- ============================================================================

/-- A listener comes to send a message by looking up its user's connections. -/
theorem Move.pending {repr : Json → String} {manager : Manager} {w : World} {p p' : Phase}
    {e : GatewayOp} {a : Except Exc e.Ans} {msg : Message} {route : Route}
    (hmove : Move repr manager w p e a p') (hjob : p'.job = some (msg, route))
    (hpending : p'.pending ≠ []) :
    (p.job = some (msg, route) ∧ p.pending ≠ []) ∨
      p = .heard msg route ∧ e = .smembers (.userConnections route.userId) := by
  cases hmove with
  | other => exact .inl ⟨hjob, hpending⟩
  | hear => exact absurd rfl hpending
  | skip hfree hle hmsg hnext =>
      rcases hnext with ⟨-, rfl⟩ | ⟨-, rfl⟩
      · cases hjob
      · cases hjob
  | lookUp =>
      cases hjob
      exact .inr ⟨rfl, rfl⟩
  | find => exact .inl ⟨hjob, List.cons_ne_nil _ _⟩
  | miss => exact .inl ⟨hjob, List.cons_ne_nil _ _⟩
  | send => exact .inl ⟨hjob, List.cons_ne_nil _ _⟩
  | fail => cases hjob

variable {ι : Type} [DecidableEq ι] {repr : Json → String} {calls : ι → GatewayCall}
variable {clock : ℚ≥0} {incoming : Socket → List Json}
variable {h : GatewayHistory ι} {c : GatewayConfig ι}

/-- The listener still has the message to send. -/
def Sending (repr : Json → String) (calls : ι → GatewayCall) (h : GatewayHistory ι) (k : ι)
    (msg : Message) (route : Route) : Prop :=
  (phase repr calls h k).job = some (msg, route) ∧ (phase repr calls h k).pending ≠ []

/-- When a listener looks up the connections for its message, the topic is in the user's
    set; and no operation drops it while the message is still to be sent. -/
def KeepsTopics (repr : Json → String) (calls : ι → GatewayCall) (h : GatewayHistory ι) : Prop :=
  ∀ x w e a older, (x, ⟨w, e, a⟩) :: older <:+ h →
    (∀ user msg route, e = .smembers (.userConnections user) → taking x older = some msg →
      msg.route repr = .ok (some route) → route.topic ∈ w.members (.subs route.userId)) ∧
    ∀ k manager rounds msg route, calls k = .listenPubsub manager rounds →
      Sending repr calls older k msg route → e.drops w route.userId route.topic = false

/-- Every message of a topic goes to a user in whose set the topic is. -/
def OnlySubscribed (calls : ι → GatewayCall) (h : GatewayHistory ι) : Prop :=
  ∀ k w websocket topic data a older,
    (k, ⟨w, .sendJson websocket (.message topic data), a⟩) :: older <:+ h →
    ∀ i manager user id, Connected calls older i manager websocket user id →
      topic ∈ w.members (.subs user)

theorem KeepsTopics.of_cons {entry : ι × Event World GatewayOp.Ans Exc}
    (hkeeps : KeepsTopics repr calls (entry :: h)) : KeepsTopics repr calls h :=
  fun x w e a older hsuf => hkeeps x w e a older (hsuf.trans (List.suffix_cons _ _))

/-- As long as a message is still to be sent, its topic is in the user's set. -/
theorem topic_mem_of_sending (hfresh : FreshIds calls)
    (hrun : GatewayRun repr calls (World.initial clock incoming) h c)
    (hkeeps : KeepsTopics repr calls h) {k : ι} {manager : Manager} {rounds : ℕ} {msg : Message}
    {route : Route} (hk : calls k = .listenPubsub manager rounds)
    (hsending : Sending repr calls h k msg route) :
    route.topic ∈ c.world.members (.subs route.userId) := by
  revert hkeeps hsending
  apply run_keeps (I := fun h w => KeepsTopics repr calls h → Sending repr calls h k msg route →
    route.topic ∈ w.members (.subs route.userId)) hrun
  · rintro - ⟨hjob, -⟩
    cases hjob
  · intro h c x e a w' hr hinv hmay henv hkeeps hsending
    have hchange := change_of_env henv
    obtain ⟨hlookUp, hdrops⟩ := hkeeps x c.world e a h List.suffix_rfl
    -- A listener that has been sending the message goes on.
    have hgoes : Sending repr calls h k msg route → route.topic ∈ w'.members (.subs route.userId) :=
      fun hold => mem_subs_of_change hchange (hinv hkeeps.of_cons hold)
        (hdrops k manager rounds msg route hk hold)
    by_cases hxk : x = k
    · subst hxk
      have hlisten := listening_of_run hfresh hr hk
      rw [hk] at hmay
      have hmove := move_of_may hmay henv
      obtain ⟨hjob, hpending⟩ := hsending
      rw [phase_self] at hjob hpending
      rcases hmove.pending hjob hpending with hold | ⟨hp, rfl⟩
      · exact hgoes hold
      · rw [hp] at hlisten
        obtain ⟨htaking, hroute⟩ := hlisten.job msg route rfl
        exact mem_subs_of_change hchange (hlookUp _ msg route rfl htaking hroute) rfl
    · refine hgoes ?_
      unfold Sending at hsending
      rwa [phase_other hxk] at hsending

/-- In a run in which the topic of a message is in its user's set as the connections are
    looked up, and is not dropped while it is sent, users are only sent topics of their
    sets. -/
theorem only_subscribed (hfresh : FreshIds calls)
    (hrun : GatewayRun repr calls (World.initial clock incoming) h c)
    (hkeeps : KeepsTopics repr calls h) : OnlySubscribed calls h := by
  intro k w websocket topic data a older hsuf i manager user id hconn
  obtain ⟨c₁, c₂, hr, hs⟩ := hrun.entry hsuf
  have hworld : w = c₁.world := hs.pre_eq
  have hmay := hrun.may (prog_obeys_flow (calls k)) hsuf
  obtain ⟨manager', rounds, msg, route, id', todo, hk, hp, rfl, rfl⟩ := hmay
  have hphase : phase repr calls older k = .holding msg route id' todo websocket := hp
  have hlisten := listening_of_run hfresh hr hk
  rw [hphase] at hlisten
  -- The socket is that of the message's user.
  obtain ⟨j, manager'', session, hcall, -, hrank⟩ := hlisten.found _ _ _ _ _ rfl
  have hranki := hconn.rank hr
  obtain ⟨⟨session', hcall'⟩, -⟩ := hconn
  have hij : i = j :=
    (sockets_of_run hr).single i _ _ _ _ _ j _ _ _ _ hcall' hcall (by omega) (by omega)
  subst hij
  rw [hcall] at hcall'
  cases hcall'
  have hkeeps' : KeepsTopics repr calls older := fun x w e a older' hsuf' =>
    hkeeps x w e a older' (hsuf'.trans ((List.suffix_cons _ _).trans hsuf))
  rw [hworld]
  apply topic_mem_of_sending hfresh hr hkeeps' hk
  unfold Sending
  rw [hphase]
  exact ⟨rfl, List.cons_ne_nil _ _⟩

-- ============================================================================
-- A subscriber and a stranger
-- ============================================================================

/-- The coroutines of a broadcast to a subscriber. -/
inductive Fan
  | arrive | subscribe | speak | listen
  deriving DecidableEq

/-- A user connects, subscribes to a topic, and is sent a message on it. -/
def fan : Fan → GatewayCall
  | .arrive => .connect ⟨0, "api_gateway"⟩ 1 "alice" "c1" "s1"
  | .subscribe => .subscribeUser "alice" ["news"]
  | .speak => .publish "news" [("user_id", .str "alice")]
  | .listen => .listenPubsub ⟨0, "api_gateway"⟩ 1

theorem fan_fresh : FreshIds fan := by
  have honly : ∀ i id, (fan i).connects = some id → i = .arrive := by
    intro i id hi
    cases i with
    | arrive => rfl
    | _ => cases hi
  intro i j id hi hj
  rw [honly i id hi, honly j id hj]

/-- Is it a look-up of a user's connections? -/
def GatewayOp.looksUp : GatewayOp → Bool
  | .smembers (.userConnections _) => true
  | _ => false

def fanOut : List Fan :=
  List.replicate 6 .arrive ++ List.replicate 2 .subscribe ++ [.speak] ++ List.replicate 4 .listen

theorem fan_run :
    ∃ h c, GatewayRun (fun _ => "") fan (World.initial 0 fun _ => []) h c ∧
      (servings h).length = 1 ∧
      (∀ entry ∈ h, entry.2.op.looksUp → "news" ∈ entry.2.pre.members (.subs "alice")) ∧
      ∀ entry ∈ h, entry.2.op.drops entry.2.pre "alice" "news" = false :=
  exists_gatewayRun (fun _ => false) fanOut
    (fun h _ => (servings h).length = 1 ∧
      (∀ entry ∈ h, entry.2.op.looksUp → "news" ∈ entry.2.pre.members (.subs "alice")) ∧
      ∀ entry ∈ h, entry.2.op.drops entry.2.pre "alice" "news" = false)
    (by decide +kernel)

/-- All messages to the subscriber are of that topic. -/
theorem fan_route {h : GatewayHistory Fan} {c : GatewayConfig Fan}
    (hrun : GatewayRun (fun _ => "") fan (World.initial 0 fun _ => []) h c) {k : Fan}
    {msg : Message} {route : Route} (htaking : taking k h = some msg)
    (hroute : msg.route (fun _ => "") = .ok (some route)) :
    route.userId = "alice" ∧ route.topic = "news" := by
  obtain ⟨channel, message, hpub⟩ := published_of_taking hrun htaking
  rw [hpub.route, Except.ok.injEq, routeTo_eq_some] at hroute
  obtain ⟨user, huser, -, rfl⟩ := hroute
  obtain ⟨i, -, hi, -⟩ := hpub
  cases i with
  | speak =>
      cases hi
      cases huser
      exact ⟨rfl, rfl⟩
  | _ => cases hi

theorem only_subscribed_fan :
    ∃ h c, GatewayRun (fun _ => "") fan (World.initial 0 fun _ => []) h c ∧
      (servings h).length = 1 ∧ KeepsTopics (fun _ => "") fan h ∧ OnlySubscribed fan h := by
  obtain ⟨h, c, hrun, hsent, hlooks, hdrops⟩ := fan_run
  have hkeeps : KeepsTopics (fun _ => "") fan h := by
    intro x w e a older hsuf
    obtain ⟨c₁, -, hr, -⟩ := hrun.entry hsuf
    have hmem := hsuf.subset List.mem_cons_self
    constructor
    · rintro user msg route rfl htaking hroute
      obtain ⟨huser, htopic⟩ := fan_route hr htaking hroute
      rw [huser, htopic]
      exact hlooks _ hmem rfl
    · intro k manager rounds msg route hk hsending
      obtain ⟨htaking, hroute⟩ := (listening_of_run fan_fresh hr hk).job msg route hsending.1
      obtain ⟨huser, htopic⟩ := fan_route hr htaking hroute
      rw [huser, htopic]
      exact hdrops _ hmem
  exact ⟨h, c, hrun, hsent, hkeeps, only_subscribed fan_fresh hrun hkeeps⟩

/-- A user who has subscribed to nothing is sent a message. -/
theorem scene_stranger :
    ∃ h c, GatewayRun (fun _ => "") (scene "alice") (World.initial 0 fun _ => []) h c ∧
      ∃ entry ∈ h.head?, entry.2.op.sends ∧ entry.2.pre.members (.subs "alice") = ∅ :=
  exists_gatewayRun (fun _ => false)
    (List.replicate 6 Scene.arrive ++ [.speak] ++ List.replicate 4 .listen)
    (fun h _ => ∃ entry ∈ h.head?, entry.2.op.sends ∧ entry.2.pre.members (.subs "alice") = ∅)
    (by decide +kernel)

theorem not_only_subscribed :
    ¬ ∀ (ι : Type) [DecidableEq ι] (repr : Json → String) (calls : ι → GatewayCall) (clock : ℚ≥0)
      (h : GatewayHistory ι) (c : GatewayConfig ι), FreshIds calls →
      GatewayRun repr calls (World.initial clock fun _ => []) h c → OnlySubscribed calls h := by
  intro hall
  obtain ⟨h, c, hrun, ⟨k, w, e, a⟩, hhead, hsends, hempty⟩ := scene_stranger
  have honly := hall Scene _ _ 0 h c (scene_fresh "alice") hrun
  cases h with
  | nil => cases hhead
  | cons entry older =>
      obtain rfl := Option.some.inj hhead
      cases e with
      | sendJson websocket frame =>
          cases frame with
          | event name fields => cases hsends
          | message topic data =>
              obtain ⟨-, -, userId, -, -, -, -, -, i, manager, id, hconn⟩ :=
                sends_rightly (scene_fresh "alice") hrun k w websocket topic data a older
                  List.suffix_rfl
              have hmem :=
                honly k w websocket topic data a older List.suffix_rfl i manager _ id hconn
              have huser : userId.text (fun _ => "") = "alice" := by
                obtain ⟨⟨session, hi⟩, -⟩ := hconn
                cases i with
                | arrive =>
                    injection hi with _ _ huser
                    exact huser.symm
                | _ => cases hi
              rw [huser, hempty] at hmem
              exact absurd hmem (Finset.notMem_empty _)
      | _ => cases hsends

end Mtrader.Gateway
