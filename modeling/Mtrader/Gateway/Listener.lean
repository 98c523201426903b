/-
  Mtrader.Gateway.Listener

  Which messages `_listen_pubsub` delivers, whatever arrives and whichever sockets fail.

  Nothing in the loop catches an exception.  So the listener ends with the first message
  that cannot be read or one of whose sockets fails, and the sockets behind that get
  nothing any more.
-/

import Mtrader.Gateway.Manager

namespace Mtrader.Gateway

open Py Coroutine

-- ============================================================================
-- Arrivals
-- ============================================================================

/-- A message and what it finds: the connections of each user in the order in which
    `SMEMBERS` lists them, the local map, and the sockets that fail. -/
structure Arrival where
  message : Message
  registered : String → List String
  locals : String → Option Socket
  fails : Socket → Bool

/-- The user, the topic and the payload of a message that is well formed; a user id that
    is null is none. -/
def Message.addressed (msg : Message) : Option (Json × String × Json) :=
  match msg.channel, msg.data with
  | some channel, .json (.obj fields) =>
      match fields.lookup "user_id" with
      | some .null => none
      | some userId => some (userId, lastOfSplit broadcastPrefix channel, .obj fields)
      | none => none
  | _, _ => none

namespace Arrival

variable (arrival : Arrival)

/-- The local sockets that are registered for a user. -/
def sockets (userId : String) : List Socket :=
  (arrival.registered userId).filterMap arrival.locals

/-- The sockets that the message is sent on before one fails. -/
def reached (userId : String) : List Socket :=
  (arrival.sockets userId).takeWhile fun s => !arrival.fails s

/-- Does the listener end with this message? -/
def ends (repr : Json → String) : Bool :=
  match arrival.message.route repr with
  | .ok (some route) => (arrival.sockets route.userId).any arrival.fails
  | .ok none => false
  | .error _ => true

/-- What is sent of a message, and on which sockets. -/
def sent (repr : Json → String) : List (Socket × Frame) :=
  match arrival.message.route repr with
  | .ok (some route) =>
      (arrival.reached route.userId).map fun s => (s, .message route.topic route.payload)
  | _ => []

end Arrival

/-- An answer that depends on the message being handled. -/
def Arrival.answer {R : Type} (f : Arrival → Except Exc R) : Option Arrival → Except Exc R
  | some arrival => f arrival
  | none => .error (.external "no message")

/-- How the listener's operations are answered when it has taken `n` messages. -/
def arrivalsAnswers (arrivals : List Arrival) : Answers ℕ GatewayOp.Ans Exc :=
  fun n e => match e with
    | .getMessage _ => match arrivals[n]? with
        | some arrival => (.ok (some arrival.message), n + 1)
        | none => (.ok none, n)
    | .smembers (.userConnections userId) =>
        (Arrival.answer (fun arrival => .ok (arrival.registered userId)) arrivals[n - 1]?, n)
    | .getLocal _ connectionId =>
        (Arrival.answer (fun arrival => .ok (arrival.locals connectionId)) arrivals[n - 1]?, n)
    | .sendJson websocket _ =>
        (Arrival.answer (fun arrival =>
          if arrival.fails websocket then .error (.external "not connected") else .ok ())
          arrivals[n - 1]?, n)
    | _ => (.error (.external "not an operation of the listener"), n)

abbrev arrivalsEnv (arrivals : List Arrival) : Env ℕ GatewayOp.Ans Exc :=
  Env.ofAnswers (arrivalsAnswers arrivals)

/-- What has been sent, with the number of messages taken by then, newest first. -/
def deliveries (log : List (Event ℕ GatewayOp.Ans Exc)) : List (ℕ × Socket × Frame) :=
  log.filterMap fun
    | ⟨n, .sendJson websocket frame, .ok _⟩ => some (n, websocket, frame)
    | _ => none

-- ============================================================================
-- One message
-- ============================================================================

variable {repr : Json → String} {manager : Manager} {arrivals : List Arrival} {arrival : Arrival}
variable {n : ℕ} {t t' : Trail ℕ GatewayOp.Ans Exc} {out : Except Exc Unit}

/-- The frame has been sent on the sockets before the first that fails, and the loop has
    ended there. -/
structure Sent (arrival : Arrival) (sockets : List Socket) (frame : Frame)
    (t : Trail ℕ GatewayOp.Ans Exc) (out : Except Exc Unit) (t' : Trail ℕ GatewayOp.Ans Exc) :
    Prop where
  world_eq : t'.world = t.world
  ok_iff : out = .ok () ↔ sockets.any arrival.fails = false
  deliveries_eq : deliveries t'.log =
    ((sockets.takeWhile fun s => !arrival.fails s).map fun s => (t.world, s, frame)).reverse ++
      deliveries t.log

theorem Sent.nil {frame : Frame} : Sent arrival [] frame t (.ok ()) t :=
  ⟨rfl, iff_of_true rfl rfl, rfl⟩

theorem Sent.fail {frame : Frame} {s : Socket} {sockets : List Socket} {x : Exc}
    (hs : arrival.fails s = true) (hworld : t'.world = t.world)
    (hlog : deliveries t'.log = deliveries t.log) :
    Sent arrival (s :: sockets) frame t (.error x) t' := by
  refine ⟨hworld, iff_of_false nofun ?_, ?_⟩
  · rw [List.any_cons, hs]
    exact nofun
  · rw [List.takeWhile_cons_of_neg (by rw [hs]; exact nofun)]
    exact hlog

theorem Sent.cons {frame : Frame} {s : Socket} {sockets : List Socket}
    {t₁ : Trail ℕ GatewayOp.Ans Exc} (hs : arrival.fails s = false) (hworld : t₁.world = t.world)
    (hlog : deliveries t₁.log = (t.world, s, frame) :: deliveries t.log)
    (h : Sent arrival sockets frame t₁ out t') : Sent arrival (s :: sockets) frame t out t' := by
  refine ⟨h.world_eq.trans hworld, ?_, ?_⟩
  · rw [h.ok_iff, List.any_cons, hs, Bool.false_or]
  · rw [h.deliveries_eq, hlog, hworld, List.takeWhile_cons_of_pos (by rw [hs]; rfl), List.map_cons,
      List.reverse_cons, List.append_assoc]
    rfl

/-- The loop over the sockets. -/
theorem wp_sendAll {frame : Frame} {ids : List String}
    (harrival : arrivals[t.world - 1]? = some arrival) :
    wp (arrivalsEnv arrivals) (manager.sendAll frame ids)
      (Sent arrival (ids.filterMap arrival.locals) frame t) t := by
  induction ids generalizing t with
  | nil => exact Sent.nil
  | cons id ids ih =>
      rw [Manager.sendAll]
      have hanswer : arrivalsAnswers arrivals t.world (.getLocal manager id) =
          (.ok (arrival.locals id), t.world) := by
        simp only [arrivalsAnswers, harrival, Arrival.answer]
      refine (wp_op_bind_of_answer fun a n' => by rw [arrivalsEnv, Env.ofAnswers, hanswer]).mpr ?_
      cases hlocal : arrival.locals id with
      | none =>
          rw [List.filterMap_cons_none hlocal]
          exact wp_mono (ih harrival) fun out t' h => ⟨h.world_eq, h.ok_iff, h.deliveries_eq⟩
      | some websocket =>
          rw [List.filterMap_cons_some hlocal]
          cases hfails : arrival.fails websocket with
          | false =>
              have hanswer : arrivalsAnswers arrivals t.world (.sendJson websocket frame) =
                  (.ok (), t.world) := by
                simp [arrivalsAnswers, harrival, Arrival.answer, hfails]
              refine (wp_op_bind_of_answer fun a n' => by
                rw [arrivalsEnv, Env.ofAnswers, Trail.record_world, hanswer]).mpr ?_
              exact wp_mono (ih harrival) fun out t' h => .cons hfails (by rfl) (by rfl) h
          | true =>
              have hanswer : arrivalsAnswers arrivals t.world (.sendJson websocket frame) =
                  (.error (.external "not connected"), t.world) := by
                simp [arrivalsAnswers, harrival, Arrival.answer, hfails]
              refine (wp_op_bind_of_error fun a n' => by
                rw [arrivalsEnv, Env.ofAnswers, Trail.record_world, hanswer]).mpr ?_
              exact .fail hfails rfl rfl

/-- Handling a message. -/
theorem wp_deliver (harrival : arrivals[t.world - 1]? = some arrival) :
    wp (arrivalsEnv arrivals) (manager.deliver repr arrival.message)
      (fun out t' => t'.world = t.world ∧ (out = .ok () ↔ arrival.ends repr = false) ∧
        deliveries t'.log =
          ((arrival.sent repr).map fun p => (t.world, p)).reverse ++ deliveries t.log) t := by
  unfold Manager.deliver Arrival.ends Arrival.sent
  cases hroute : arrival.message.route repr with
  | error x => exact ⟨rfl, iff_of_false nofun nofun, rfl⟩
  | ok route =>
      cases route with
      | none => exact ⟨rfl, iff_of_true rfl rfl, rfl⟩
      | some route =>
          have hanswer :
              arrivalsAnswers arrivals t.world (.smembers (.userConnections route.userId)) =
                (.ok (arrival.registered route.userId), t.world) := by
            simp only [arrivalsAnswers, harrival, Arrival.answer]
          refine (wp_op_bind_of_answer fun a n' => by
            rw [arrivalsEnv, Env.ofAnswers, hanswer]).mpr ?_
          refine wp_mono (wp_sendAll harrival) fun out t' h => ⟨h.world_eq, h.ok_iff, ?_⟩
          rw [h.deliveries_eq, List.map_map]
          rfl

-- ============================================================================
-- All messages
-- ============================================================================

/-- The listener comes to message `i`: no message from the `n`-th on ends it before. -/
def Reaches (repr : Json → String) (arrivals : List Arrival) (n i : ℕ) : Prop :=
  n ≤ i ∧ ∀ j, n ≤ j → j < i → ∀ arrival, arrivals[j]? = some arrival → arrival.ends repr = false

theorem reaches_succ (harrival : arrivals[n]? = some arrival) (hends : arrival.ends repr = false)
    {i : ℕ} : Reaches repr arrivals n i ↔ i = n ∨ Reaches repr arrivals (n + 1) i := by
  constructor
  · rintro ⟨hle, hall⟩
    rcases Nat.eq_or_lt_of_le hle with heq | hlt
    · exact .inl heq.symm
    · exact .inr ⟨hlt, fun j hj => hall j (by omega)⟩
  · rintro (rfl | ⟨hle, hall⟩)
    · exact ⟨le_rfl, fun j hj hlt => absurd hlt (by omega)⟩
    · refine ⟨by omega, fun j hj hlt arrival' harrival' => ?_⟩
      rcases Nat.eq_or_lt_of_le hj with rfl | hj
      · rw [harrival] at harrival'
        obtain rfl := Option.some.inj harrival'
        exact hends
      · exact hall j hj hlt arrival' harrival'

theorem reaches_of_ends (harrival : arrivals[n]? = some arrival) (hends : arrival.ends repr = true)
    {i : ℕ} : Reaches repr arrivals n i ↔ i = n := by
  constructor
  · rintro ⟨hle, hall⟩
    by_contra hne
    have hlives := hall n le_rfl (by omega) arrival harrival
    rw [hends] at hlives
    cases hlives
  · rintro rfl
    exact ⟨le_rfl, fun j hj hlt => absurd hlt (by omega)⟩

/-- What has been sent once a message is handled. -/
theorem mem_deliveries_sent {old : List (ℕ × Socket × Frame)} {i : ℕ} {s : Socket} {frame : Frame} :
    (i + 1, s, frame) ∈ ((arrival.sent repr).map fun p => (n + 1, p)).reverse ++ old ↔
      (i + 1, s, frame) ∈ old ∨ i = n ∧ (s, frame) ∈ arrival.sent repr := by
  rw [List.mem_append, List.mem_reverse, List.mem_map, or_comm]
  refine or_congr Iff.rfl ⟨?_, ?_⟩
  · rintro ⟨p, hp, heq⟩
    obtain ⟨hi, rfl⟩ := Prod.mk.inj heq
    exact ⟨by omega, hp⟩
  · rintro ⟨rfl, hp⟩
    exact ⟨_, hp, rfl⟩

/-- What the listener sends in the rounds from message `n` on. -/
theorem wp_listenPubsub {rounds : ℕ} :
    wp (arrivalsEnv arrivals) (manager.listenPubsub repr rounds)
      (fun _ t' => ∀ i s frame, (i + 1, s, frame) ∈ deliveries t'.log ↔
        (i + 1, s, frame) ∈ deliveries t.log ∨
          i < t.world + rounds ∧ Reaches repr arrivals t.world i ∧
            ∃ arrival, arrivals[i]? = some arrival ∧ (s, frame) ∈ arrival.sent repr) t := by
  induction rounds generalizing t with
  | zero =>
      intro i s frame
      refine (or_iff_left ?_).symm
      rintro ⟨hlt, ⟨hle, -⟩, -⟩
      omega
  | succ rounds ih =>
      rw [Manager.listenPubsub]
      cases harrival : arrivals[t.world]? with
      | none =>
          have hanswer : arrivalsAnswers arrivals t.world (.getMessage manager) =
              (.ok none, t.world) := by
            simp only [arrivalsAnswers, harrival]
          refine (wp_op_bind_of_answer fun a n' => by
            rw [arrivalsEnv, Env.ofAnswers, hanswer]).mpr ?_
          refine wp_mono ih fun out t' h i s frame => (h i s frame).trans ?_
          -- There is no message to come.
          have hover : ∀ i, t.world ≤ i → arrivals[i]? = none := by
            intro i hle
            rw [List.getElem?_eq_none_iff] at harrival ⊢
            omega
          refine or_congr Iff.rfl (iff_of_false ?_ ?_)
          all_goals
            rintro ⟨-, ⟨hle, -⟩, arrival, hsome, -⟩
            rw [hover i hle] at hsome
            cases hsome
      | some arrival =>
          have hanswer : arrivalsAnswers arrivals t.world (.getMessage manager) =
              (.ok (some arrival.message), t.world + 1) := by
            simp only [arrivalsAnswers, harrival]
          refine (wp_op_bind_of_answer fun a n' => by
            rw [arrivalsEnv, Env.ofAnswers, hanswer]).mpr ?_
          refine wp_seq (wp_deliver harrival) ?_ ?_
          · rintro _ t₂ ⟨hworld, hok, hlog⟩
            have hends : arrival.ends repr = false := hok.mp rfl
            refine wp_mono ih fun out t' h i s frame => (h i s frame).trans ?_
            rw [hlog, hworld, Trail.record_world, mem_deliveries_sent, or_assoc,
              reaches_succ harrival hends]
            refine or_congr Iff.rfl ⟨?_, ?_⟩
            · rintro (⟨rfl, hsent⟩ | ⟨hlt, hreaches, hsent⟩)
              · exact ⟨by omega, .inl rfl, arrival, harrival, hsent⟩
              · exact ⟨by omega, .inr hreaches, hsent⟩
            · rintro ⟨hlt, rfl | hreaches, arrival', harrival', hsent⟩
              · rw [harrival] at harrival'
                obtain rfl := Option.some.inj harrival'
                exact .inl ⟨rfl, hsent⟩
              · exact .inr ⟨by omega, hreaches, arrival', harrival', hsent⟩
          · rintro x t₂ ⟨hworld, hok, hlog⟩ i s frame
            have hends : arrival.ends repr = true := by
              by_contra hlives
              cases hok.mpr (Bool.eq_false_of_not_eq_true hlives)
            rw [hlog, Trail.record_world, mem_deliveries_sent, reaches_of_ends harrival hends]
            refine or_congr Iff.rfl ⟨?_, ?_⟩
            · rintro ⟨rfl, hsent⟩
              exact ⟨by omega, rfl, arrival, harrival, hsent⟩
            · rintro ⟨-, rfl, arrival', harrival', hsent⟩
              rw [harrival] at harrival'
              obtain rfl := Option.some.inj harrival'
              exact ⟨rfl, hsent⟩

-- ============================================================================
-- What is delivered
-- ============================================================================

/-- Each well-formed message has been sent on every socket of its user that does not
    fail. -/
def Delivers (repr : Json → String) (arrivals : List Arrival)
    (sent : List (ℕ × Socket × Frame)) : Prop :=
  ∀ i arrival userId topic payload, arrivals[i]? = some arrival →
    arrival.message.addressed = some (userId, topic, payload) →
    ∀ s ∈ arrival.sockets (userId.text repr), arrival.fails s = false →
      (i + 1, s, .message topic payload) ∈ sent

/-- Wherever a message is due, its user id is truthy, no earlier message has ended the
    listener, and no failing socket of the user stands before. -/
def Unhindered (repr : Json → String) (arrivals : List Arrival) : Prop :=
  ∀ i arrival userId topic payload, arrivals[i]? = some arrival →
    arrival.message.addressed = some (userId, topic, payload) →
    ∀ s ∈ arrival.sockets (userId.text repr), arrival.fails s = false →
      userId.truthy ∧ Reaches repr arrivals 0 i ∧ s ∈ arrival.reached (userId.text repr)

/-- Where the listener sends a well-formed message. -/
theorem route_of_addressed {msg : Message} {userId payload : Json} {topic : String}
    (h : msg.addressed = some (userId, topic, payload)) :
    msg.route repr =
      .ok (if userId.truthy then some ⟨userId.text repr, topic, payload⟩ else none) := by
  obtain ⟨serial, channel, data⟩ := msg
  unfold Message.addressed at h
  cases channel with
  | none => cases h
  | some channel =>
      cases data with
      | other => cases h
      | json value =>
          cases value with
          | obj fields =>
              dsimp only at h
              cases hlookup : fields.lookup "user_id" with
              | none =>
                  rw [hlookup] at h
                  cases h
              | some value =>
                  rw [hlookup] at h
                  have hvalue : some (value, lastOfSplit broadcastPrefix channel,
                      Json.obj fields) = some (userId, topic, payload) := by
                    cases value with
                    | null => cases h
                    | _ => exact h
                  obtain ⟨rfl, htail⟩ := Prod.mk.inj (Option.some.inj hvalue)
                  obtain ⟨rfl, rfl⟩ := Prod.mk.inj htail
                  show Except.ok (routeTo repr _ _ (fields.lookup "user_id")) = _
                  rw [hlookup]
                  rfl
          | _ => cases h

theorem mem_sent {userId payload : Json} {topic : String} {s : Socket}
    (h : arrival.message.addressed = some (userId, topic, payload)) :
    (s, .message topic payload) ∈ arrival.sent repr ↔
      userId.truthy ∧ s ∈ arrival.reached (userId.text repr) := by
  rw [Arrival.sent, route_of_addressed h]
  cases userId.truthy with
  | false => simp
  | true =>
      simp only [if_true, List.mem_map, true_and]
      constructor
      · rintro ⟨s', hs', heq⟩
        rwa [(Prod.mk.inj heq).1] at hs'
      · intro hs
        exact ⟨s, hs, rfl⟩

/-- A listener delivers every well-formed message to every socket of its user that does
    not fail if and only if nothing hinders any of them. -/
theorem delivers_iff
    (hex : Exec (arrivalsEnv arrivals) ⟨0, []⟩ (manager.listenPubsub repr arrivals.length) out t') :
    Delivers repr arrivals (deliveries t'.log) ↔ Unhindered repr arrivals := by
  have hsent := hex.sound wp_listenPubsub
  unfold Delivers Unhindered
  refine forall_congr' fun i => forall_congr' fun arrival => forall_congr' fun userId =>
    forall_congr' fun topic => forall_congr' fun payload => forall_congr' fun harrival =>
    forall_congr' fun haddressed => forall_congr' fun s => forall_congr' fun hs =>
    forall_congr' fun hfails => ?_
  have hlt : i < arrivals.length := (List.getElem?_eq_some_iff.mp harrival).1
  rw [hsent i s (.message topic payload)]
  constructor
  · rintro (hnone | ⟨-, hreaches, arrival', harrival', hmem⟩)
    · cases hnone
    · rw [harrival] at harrival'
      obtain rfl := Option.some.inj harrival'
      obtain ⟨htruthy, hreached⟩ := (mem_sent haddressed).mp hmem
      exact ⟨htruthy, hreaches, hreached⟩
  · rintro ⟨htruthy, hreaches, hreached⟩
    exact .inr ⟨by omega, hreaches, arrival, harrival,
      (mem_sent haddressed).mpr ⟨htruthy, hreached⟩⟩

/-- Something arrives for `alice`, whose only connection is `c1`. -/
def arriving (data : Text) : Arrival where
  message := ⟨0, some "ws:broadcast:order_updates:alice", data⟩
  registered userId := if userId = "alice" then ["c1"] else []
  locals connectionId := if connectionId = "c1" then some 1 else none
  fails _ := false

/-- A text that is no JSON, and then a message to the user. -/
def badThenGood : List Arrival :=
  [arriving .other, arriving (.json (.obj [("user_id", .str "alice")]))]

theorem badThenGood_due : ∃ arrival, badThenGood[1]? = some arrival ∧
    arrival.message.addressed = some (.str "alice", "order_updates:alice",
      .obj [("user_id", .str "alice")]) ∧
    1 ∈ arrival.sockets "alice" ∧ arrival.fails 1 = false := by
  refine ⟨_, rfl, ?_, by decide, rfl⟩
  have hchannel : lastOfSplit broadcastPrefix "ws:broadcast:order_updates:alice" =
      "order_updates:alice" := by decide +kernel
  show some (_, lastOfSplit broadcastPrefix _, _) = _
  rw [hchannel]

theorem badThenGood_ends : ¬ Reaches (fun _ => "") badThenGood 0 1 := by
  intro h
  have hlives := h.2 0 le_rfl Nat.one_pos _ rfl
  cases hlives

/-- A listener on these arrivals. -/
theorem badThenGood_exec : ∃ out t', Exec (arrivalsEnv badThenGood) ⟨0, []⟩
    (Manager.listenPubsub (fun _ => "") ⟨0, "api_gateway"⟩ badThenGood.length) out t' :=
  ⟨_, _, Prog.play_sound (Env.ofAnswers_self (arrivalsAnswers badThenGood)) _ _⟩

theorem delivers_iff_badThenGood :
    ∃ out t', Exec (arrivalsEnv badThenGood) ⟨0, []⟩
        (Manager.listenPubsub (fun _ => "") ⟨0, "api_gateway"⟩ badThenGood.length) out t' ∧
      ¬ Delivers (fun _ => "") badThenGood (deliveries t'.log) := by
  obtain ⟨out, t', hex⟩ := badThenGood_exec
  refine ⟨out, t', hex, fun hdelivers => badThenGood_ends ?_⟩
  obtain ⟨arrival, harrival, haddressed, hs, hfails⟩ := badThenGood_due
  exact ((delivers_iff hex).mp hdelivers 1 arrival _ _ _ harrival haddressed 1 hs hfails).2.1

theorem not_delivers :
    ¬ ∀ (repr : Json → String) (manager : Manager) (arrivals : List Arrival) out t',
      Exec (arrivalsEnv arrivals) ⟨0, []⟩ (manager.listenPubsub repr arrivals.length) out t' →
      Delivers repr arrivals (deliveries t'.log) := by
  intro hall
  obtain ⟨out, t', hex⟩ := badThenGood_exec
  obtain ⟨arrival, harrival, haddressed, hs, hfails⟩ := badThenGood_due
  have hmem := hall _ _ _ _ _ hex 1 arrival _ _ _ harrival haddressed 1 hs hfails
  rcases (hex.sound wp_listenPubsub 1 1 _).mp hmem with hnone | ⟨-, hreaches, -⟩
  · cases hnone
  · exact badThenGood_ends hreaches

end Mtrader.Gateway
