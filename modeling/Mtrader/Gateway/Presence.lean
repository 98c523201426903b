/-
  Mtrader.Gateway.Presence

  What any number of connections to `/ws` leave in Redis and in the local maps.

  Whoever is registered there has been served, under the subject of a token that the service
  has minted; and whatever a user is subscribed to, is a topic of theirs.  The runs are
  interleaved at every operation, with the tasks, the listeners and any calls of
  `security.py`.
-/

import Mtrader.Gateway.Sessions
import Mtrader.Gateway.Cleanup
import Mtrader.Gateway.Subscriptions
import Mtrader.Auth.Runs
import Mtrader.Auth.Plain

namespace Mtrader.Gateway

open Py Coroutine Auth Collection

-- ============================================================================
-- Runs
-- ============================================================================

/-- What connection `i` has done in a history. -/
def sessionOf {ι W : Type} [DecidableEq ι] (crypto : Crypto) (settings : Settings)
    (limiter : WebSocketRateLimiter) (v : Visitor) (h : History ι W EndpointOp.Ans Exc) (i : ι) :
    Session :=
  (protocol crypto settings limiter v).ghost {} i h

/-- In every run a connection keeps to its protocol, whatever the others are and however its
    operations are answered; and when it has ended it has come to the end of its `finally`. -/
theorem endpoint_keeps_protocol {ι W : Type} [DecidableEq ι] (crypto : Crypto)
    (settings : Settings) (repr : Json → String) (limiter : WebSocketRateLimiter) (v : Visitor)
    (rounds : ℕ) (suspends : EndpointOp → Bool) (env : ι → Env W EndpointOp.Ans Exc)
    (c₀ c : Config ι W EndpointOp.Ans Exc Unit) (h : History ι W EndpointOp.Ans Exc) (i : ι)
    (hrun : Run suspends env c₀ h c)
    (hpool : c₀.pool i = websocketEndpoint crypto settings repr limiter v rounds) :
    (∀ ev h', (i, ev) :: h' <:+ h → (protocol crypto settings limiter v).may
      (sessionOf crypto settings limiter v h' i) ev.op) ∧
    (c.pool i = .ret () → (sessionOf crypto settings limiter v h i).farewell.Over) ∧
    ∀ x, c.pool i = .raise x → (sessionOf crypto settings limiter v h i).farewell.Over ∧
      (sessionOf crypto settings limiter v h i).fault = some x := by
  have hobeys : (c₀.pool i).Obeys (protocol crypto settings limiter v) Session.Over {} := by
    rw [hpool]
    exact websocketEndpoint_obeys repr rounds
  have hnow := hrun.obeys hobeys
  refine ⟨fun ev h' hsuf => hrun.may hobeys hsuf, fun hret => ?_, fun x hraise => ?_⟩
  · rw [hret] at hnow
    exact hnow.2.1
  · rw [hraise] at hnow
    exact ⟨hnow.2.1, hnow.2.2 x rfl⟩

section

variable {ι : Type} [DecidableEq ι] {crypto : Crypto} {settings : Settings}
variable {repr : Json → String} {limiter : WebSocketRateLimiter}

abbrev EndpointHistory (ι : Type) : Type := History ι EndpointWorld EndpointOp.Ans Exc

/-- The world in which nobody has connected and no token has been minted. -/
def EndpointWorld.initial (clock : ℚ≥0) (incoming : Socket → List Json) (now : ℤ) :
    EndpointWorld where
  gateway := World.initial clock incoming
  auth := .start now

/-- Coroutines that are interleaved at every operation. -/
abbrev EndpointRun (crypto : Crypto) (settings : Settings) (repr : Json → String)
    (limiter : WebSocketRateLimiter) (calls : ι → EndpointCall) (w₀ : EndpointWorld) :
    EndpointHistory ι → Config ι EndpointWorld EndpointOp.Ans Exc Unit → Prop :=
  Run (fun _ => true) (fun _ => endpointEnv crypto settings)
    { world := w₀, pool := fun i => (calls i).prog crypto settings repr limiter }

-- ============================================================================
-- The coroutines that are no connections
-- ============================================================================

/-- Does the operation put something into Redis or a local map under a name? -/
def GatewayOp.enters : GatewayOp → Bool
  | .sadd .. => true
  | .hset .. => true
  | .setLocal .. => true
  | _ => false

/-- The operation enters nothing. -/
def EndpointOp.Harmless : EndpointOp → Prop
  | .inr (.inr e) => e.enters = false
  | _ => True

/-- The promise to enter nothing. -/
abbrev harmless : Discipline EndpointOp.Ans Exc Unit := .only EndpointOp.Harmless

theorem gateway_harmless {R : Type} {p : GatewayM R}
    (h : p.Always (.only fun e : GatewayOp => e.enters = false)) : (gateway p).Always harmless :=
  fun g => Prog.Obeys.inr (Prog.Obeys.inr (D := harmless.right) (h g))

theorem session_harmless (e : SessionOp) : (session e).Always harmless :=
  fun _ => Prog.Obeys.inl (D := harmless) (Prog.obeys_op.mpr ⟨trivial, fun _ => trivial⟩)

theorem auth_harmless {R : Type} (p : AuthM R) : (auth p).Always harmless :=
  fun g => Prog.Obeys.inr (Prog.Obeys.inl (D := harmless.right)
    (Prog.always_of_may (fun _ _ => trivial) p g))

theorem listenPubsub_harmless (manager : Manager) (rounds : ℕ) :
    (manager.listenPubsub repr rounds).Always
      (.only fun e : GatewayOp => e.enters = false) := by
  have hsend : ∀ (message : Frame) ids, (manager.sendAll message ids).Always
      (.only fun e : GatewayOp => e.enters = false) := by
    intro message ids
    induction ids with
    | nil => exact Prog.always_ret _
    | cons id ids ih =>
        rw [Manager.sendAll]
        refine Prog.Always.bind (Prog.always_op fun _ => rfl) fun websocket => ?_
        cases websocket with
        | none => exact ih
        | some websocket => exact Prog.Always.bind (Prog.always_op fun _ => rfl) fun _ => ih
  induction rounds with
  | zero => exact Prog.always_ret _
  | succ rounds ih =>
      rw [Manager.listenPubsub]
      refine Prog.Always.bind (Prog.always_op fun _ => rfl) fun message => ?_
      cases message with
      | none => exact ih
      | some msg =>
          refine Prog.Always.bind (Prog.Always.bind (Prog.always_ofExcept _) fun route => ?_)
            fun _ => ih
          cases route with
          | none => exact Prog.always_ret _
          | some route =>
              exact Prog.Always.bind (Prog.always_op fun _ => rfl) fun ids => hsend _ ids

theorem heartbeatMonitor_harmless (websocket : Socket) (connectionId : String) (rounds : ℕ) :
    (heartbeatMonitor websocket connectionId rounds).Always harmless := by
  have hclose : (gateway (perform (.close websocket 1001))).Always harmless :=
    gateway_harmless (Prog.always_op fun _ => rfl)
  have hread : (gateway (perform (.hgetall (.connection connectionId)))).Always harmless :=
    gateway_harmless (Prog.always_op fun _ => rfl)
  induction rounds with
  | zero => exact Prog.always_ret _
  | succ rounds ih =>
      rw [heartbeatMonitor]
      refine (session_harmless _).bind fun _ => hread.bind fun presence => ?_
      split
      next => exact hclose
      next =>
        cases present (presence .lastHeartbeat) with
        | none => exact ih
        | some last =>
            refine (session_harmless _).bind fun elapsed => ?_
            split
            next => exact hclose
            next => exact ih

theorem periodicRevalidate_harmless (websocket : Socket) (token : String)
    (fingerprint : Option String) (rounds : ℕ) :
    (periodicRevalidate crypto settings websocket token fingerprint rounds).Always harmless := by
  induction rounds with
  | zero => exact Prog.always_ret _
  | succ rounds ih =>
      rw [periodicRevalidate]
      refine (session_harmless _).bind fun _ => (auth_harmless _).attempt.bind fun verified => ?_
      cases verified with
      | ok claims => exact ih
      | error x => exact gateway_harmless (Prog.always_op fun _ => rfl)

variable (crypto settings repr limiter) in
/-- Only connections enter something. -/
theorem prog_harmless (call : EndpointCall) (hcall : ∀ v rounds, call ≠ .endpoint v rounds) :
    (call.prog crypto settings repr limiter).Always harmless := by
  cases call with
  | endpoint v rounds => exact absurd rfl (hcall v rounds)
  | heartbeatMonitor websocket id rounds => exact heartbeatMonitor_harmless websocket id rounds
  | periodicRevalidate websocket token fp rounds =>
      exact periodicRevalidate_harmless websocket token fp rounds
  | listenPubsub manager rounds => exact gateway_harmless (listenPubsub_harmless manager rounds)
  | publish channel message => exact gateway_harmless (Prog.always_op fun _ => rfl)
  | auth call => exact auth_harmless _
  | tick seconds => exact gateway_harmless (Prog.always_op fun _ => rfl)

-- ============================================================================
-- The connections
-- ============================================================================

/-- The claims that a stage is about. -/
def Stage.claims : Stage → Option Claims
  | .opened c => some c
  | .timely c => some c
  | .unrevoked c => some c
  | .verified c => some c
  | .serving c => some c
  | _ => none

/-- A connection with this id has been served under the claims `c`. -/
def WasServed (crypto : Crypto) (settings : Settings) (limiter : WebSocketRateLimiter)
    (calls : ι → EndpointCall) (h : EndpointHistory ι) (id : String) (c : Claims) : Prop :=
  ∃ i v rounds h', calls i = .endpoint v rounds ∧ v.connectionId = id ∧ h' <:+ h ∧
    (sessionOf crypto settings limiter v h' i).stage = .serving c

/-- What is in Redis and in the local maps is there for connections that have been served,
    and the tokens of these have been minted. -/
structure Present (crypto : Crypto) (settings : Settings) (limiter : WebSocketRateLimiter)
    (calls : ι → EndpointCall) (h : EndpointHistory ι) (w : EndpointWorld) : Prop where
  minted : ∀ i v rounds, calls i = .endpoint v rounds → ∀ h', h' <:+ h → ∀ c,
    (sessionOf crypto settings limiter v h' i).stage.claims = some c → c ∈ w.auth.minted
  connections : ∀ user id, id ∈ w.gateway.members (.userConnections user) →
    ∃ c, WasServed crypto settings limiter calls h id c ∧ c.sub = user
  subscriptions : ∀ user topic, topic ∈ w.gateway.members (.subs user) →
    ∃ id c, WasServed crypto settings limiter calls h id c ∧ c.sub = user ∧ topicAllowed topic c
  hashes : ∀ id user, w.gateway.hash (.connection id) .userId = some user →
    ∃ c, WasServed crypto settings limiter calls h id c ∧ c.sub = user
  locals : ∀ slot id websocket, w.gateway.locals slot id = some websocket →
    ∃ c i v rounds, WasServed crypto settings limiter calls h id c ∧
      calls i = .endpoint v rounds ∧ v.connectionId = id ∧ v.websocket = websocket

variable {calls : ι → EndpointCall} {h : EndpointHistory ι} {w w' : EndpointWorld}

theorem WasServed.cons {id : String} {c : Claims}
    {entry : ι × Event EndpointWorld EndpointOp.Ans Exc}
    (hs : WasServed crypto settings limiter calls h id c) :
    WasServed crypto settings limiter calls (entry :: h) id c := by
  obtain ⟨i, v, rounds, h', hcall, hid, hsuf, hstage⟩ := hs
  exact ⟨i, v, rounds, h', hcall, hid, hsuf.trans (List.suffix_cons _ _), hstage⟩

/-- Fields that have been set one after another. -/
theorem mem_of_setFields {mapping : List (Field × String)} {old : Hash} {field : Field}
    {value : String} (hset : setFields mapping old field = some value) :
    (field, value) ∈ mapping ∨ old field = some value := by
  induction mapping generalizing old with
  | nil => exact .inr hset
  | cons p mapping ih =>
      have hcons : setFields mapping (Function.update old p.1 (some p.2)) field = some value := hset
      rcases ih hcons with hmem | hold
      · exact .inl (List.mem_cons_of_mem _ hmem)
      · by_cases hfield : field = p.1
        · rw [hfield, Function.update_self, Option.some_inj] at hold
          left
          rw [hfield, ← hold]
          exact List.mem_cons_self
        · rw [Function.update_of_ne hfield] at hold
          exact .inr hold

theorem claims_of_leaving {R : Type} {s : Session} {f : R → Farewell} {a : Except Exc R}
    {c : Claims} (hc : (s.leaving f a).stage.claims = some c) : s.stage.claims = some c := by
  cases a <;> cases hc

/-- The operations that are left do not change what a connection is about. -/
theorem claims_of_sessionNext {s : Session} {e : SessionOp} {a : Except Exc e.Ans} {c : Claims}
    (hc : (sessionNext s e a).stage.claims = some c) : s.stage.claims = some c := by
  cases e <;> first | exact hc | exact claims_of_leaving hc

/-- An operation of the gateway does not change what a connection is about. -/
theorem claims_of_gatewayNext {s : Session} {e : GatewayOp} {a : Except Exc e.Ans} {c : Claims}
    (hc : (gatewayNext limiter s e a).stage.claims = some c) : s.stage.claims = some c := by
  unfold gatewayNext at hc
  split at hc
  next =>
    unfold Session.checked at hc
    split at hc
    next =>
      split at hc
      next => cases hc
      next => exact hc
    next => exact hc
  next =>
    unfold Session.welcomed at hc
    split at hc
    next c' hverified =>
      rw [hverified]
      exact hc
    next => exact hc
  next => cases hc
  next => exact hc
  next => exact claims_of_leaving hc
  next => exact claims_of_leaving hc
  next => exact claims_of_leaving hc
  next => exact claims_of_leaving hc
  next => exact hc

/-- What a connection is about, a token that has been minted has been opened to. -/
theorem minted_of_authNext {v : Visitor} {s : Session} {e : AuthOp} {a : Except Exc e.Ans}
    {c : Claims} {auth auth' : Auth.World} (henv : authEnv crypto settings auth e a auth')
    (hs : ∀ c, s.stage.claims = some c → c ∈ auth.minted)
    (hc : (authNext crypto settings v s e a).stage.claims = some c) : c ∈ auth.minted := by
  unfold authNext at hc
  split at hc
  next token c' hadmitted =>
    obtain ⟨hopened, -⟩ := henv
    split at hopened
    next c'' hopens =>
      cases hopened
      exact Option.some.inj hc ▸ (World.opens_eq_some.mp hopens).2
    next => cases hopened
  next now c' hopened =>
    have hmem : c' ∈ auth.minted := hs c' (by rw [hopened]; rfl)
    split at hc
    next => exact Option.some.inj hc ▸ hmem
    next => exact hs c hc
  next c' htimely =>
    have hmem : c' ∈ auth.minted := hs c' (by rw [htimely]; rfl)
    exact Option.some.inj hc ▸ hmem
  next marker c' hunrevoked =>
    have hmem : c' ∈ auth.minted := hs c' (by rw [hunrevoked]; rfl)
    unfold Session.cleared at hc
    split at hc
    next =>
      split at hc
      next => exact Option.some.inj hc ▸ hmem
      next => exact hs c hc
    next => exact hs c hc
  next => exact hs c hc

/-- The operations that are left concern neither Redis nor the tokens. -/
theorem session_keeps {e : SessionOp} {a : Except Exc e.Ans} (henv : sessionEnv w e a w') :
    w'.gateway = w.gateway ∧ w'.auth = w.auth := by
  have hsame : w' = w → w'.gateway = w.gateway ∧ w'.auth = w.auth := by
    rintro rfl
    exact ⟨rfl, rfl⟩
  cases e with
  | psubscribe manager =>
      obtain rfl : w' = _ := henv
      exact ⟨rfl, rfl⟩
  | createListener manager =>
      obtain ⟨-, rfl⟩ := henv
      exact ⟨rfl, rfl⟩
  | closePubsub manager => exact hsame henv
  | closeRedis => exact hsame henv
  | age last => exact hsame henv
  | _ => exact hsame henv.2

/-- An operation changes the gateway's world as it does there, or not at all. -/
theorem gateway_of_env {e : EndpointOp} {a : Except Exc (EndpointOp.Ans e)}
    (henv : endpointEnv crypto settings w e a w') :
    (∃ g, e = .inr (.inr g) ∧ Change w.gateway g w'.gateway) ∨ w'.gateway = w.gateway := by
  cases e with
  | inl e => exact .inr (session_keeps henv).1
  | inr e =>
      cases e with
      | inl e =>
          obtain ⟨auth', -, rfl⟩ := henv
          exact .inr rfl
      | inr e =>
          obtain ⟨gateway', hgateway, rfl⟩ := henv
          exact .inl ⟨e, rfl, change_of_env hgateway⟩

/-- What has been minted stays minted. -/
theorem minted_of_env {e : EndpointOp} {a : Except Exc (EndpointOp.Ans e)}
    (henv : endpointEnv crypto settings w e a w') : w.auth.minted ⊆ w'.auth.minted := by
  cases e with
  | inl e =>
      rw [(session_keeps henv).2]
      exact List.Subset.refl _
  | inr e =>
      cases e with
      | inl e =>
          obtain ⟨auth', hauth, rfl⟩ := henv
          exact (authEnv_mono hauth).2
      | inr e =>
          obtain ⟨gateway', -, rfl⟩ := henv
          exact List.Subset.refl _

/-- The fields of a hash after `HSET`. -/
theorem hash_of_hset {g g' : World} {key : Key} {mapping : List (Field × String)}
    (hchange : Change g (.hset key mapping) g') {field : Field} {value : String}
    (hvalue : g'.hash key field = some value) :
    (field, value) ∈ mapping ∨ g.hash key field = some value := by
  cases hchange with
  | same => exact .inr hvalue
  | hset =>
      have hwritten : (g.writeHash key (setFields mapping)).hash key =
          setFields mapping (g.hash key) := by
        show Held.read (Function.update g.hashes key _ key) g.now = _
        rw [Function.update_self, Held.read_write]
        rfl
      rw [hwritten] at hvalue
      exact mem_of_setFields hvalue

/-- Only an assignment puts something into a local map. -/
theorem setLocal_of_locals {g g' : World} {e : GatewayOp} (hchange : Change g e g') {slot : ℕ}
    {id : String} {websocket : Socket} (hlocal : g'.locals slot id = some websocket) :
    g.locals slot id = some websocket ∨
      ∃ manager, e = .setLocal manager id websocket := by
  cases hchange with
  | setLocal manager id' websocket' =>
      rw [World.locals_setLocal] at hlocal
      split at hlocal
      next hkey =>
        obtain ⟨-, rfl⟩ := hkey
        cases hlocal
        exact .inr ⟨manager, rfl⟩
      next => exact .inl hlocal
  | popLocal manager id' =>
      rw [World.locals_setLocal] at hlocal
      split at hlocal
      next => cases hlocal
      next => exact .inl hlocal
  | _ => exact .inl hlocal

/-- What coroutine `i` may enter: nothing, or what its connection is served for. -/
def MayEnter (crypto : Crypto) (settings : Settings) (limiter : WebSocketRateLimiter)
    (calls : ι → EndpointCall) (h : EndpointHistory ι) (i : ι) (e : GatewayOp) : Prop :=
  e.enters = false ∨ ∃ v rounds, calls i = .endpoint v rounds ∧
    gatewayMay v (sessionOf crypto settings limiter v h i) e

/-- Entering needs a connection that is being served. -/
theorem MayEnter.served {i : ι} {e : GatewayOp}
    (hmay : MayEnter crypto settings limiter calls h i e) (henters : e.enters = true) :
    ∃ v rounds, calls i = .endpoint v rounds ∧
      gatewayMay v (sessionOf crypto settings limiter v h i) e := by
  rcases hmay with hnot | hmay
  · rw [henters] at hnot
    cases hnot
  · exact hmay

variable {entry : ι × Event EndpointWorld EndpointOp.Ans Exc}

theorem Present.connections_step (hp : Present crypto settings limiter calls h w) {i : ι}
    {e : GatewayOp} (hmay : MayEnter crypto settings limiter calls h i e)
    (hchange : Change w.gateway e w'.gateway) (user id : String)
    (hid : id ∈ w'.gateway.members (.userConnections user)) :
    ∃ c, WasServed crypto settings limiter calls (entry :: h) id c ∧ c.sub = user := by
  rcases mem_members_of_change hchange hid with hold | ⟨members, rfl, hmem⟩
  · obtain ⟨c, hserved, hsub⟩ := hp.connections user id hold
    exact ⟨c, hserved.cons, hsub⟩
  · obtain ⟨v, rounds, hcall, c, hstage, ⟨hkey, hmembers⟩ | ⟨hkey, -⟩⟩ := hmay.served rfl
    · rw [hmembers, List.mem_singleton] at hmem
      obtain ⟨rfl⟩ := hkey
      exact ⟨c, ⟨i, v, rounds, h, hcall, hmem.symm, List.suffix_cons _ _, hstage⟩, rfl⟩
    · cases hkey

theorem Present.subscriptions_step (hp : Present crypto settings limiter calls h w) {i : ι}
    {e : GatewayOp} (hmay : MayEnter crypto settings limiter calls h i e)
    (hchange : Change w.gateway e w'.gateway) (user topic : String)
    (htopic : topic ∈ w'.gateway.members (.subs user)) :
    ∃ id c, WasServed crypto settings limiter calls (entry :: h) id c ∧ c.sub = user ∧
      topicAllowed topic c := by
  rcases mem_members_of_change hchange htopic with hold | ⟨members, rfl, hmem⟩
  · obtain ⟨id, c, hserved, hsub, hallowed⟩ := hp.subscriptions user topic hold
    exact ⟨id, c, hserved.cons, hsub, hallowed⟩
  · obtain ⟨v, rounds, hcall, c, hstage, ⟨hkey, -⟩ | ⟨hkey, hallowed⟩⟩ := hmay.served rfl
    · cases hkey
    · obtain ⟨rfl⟩ := hkey
      exact ⟨v.connectionId, c, ⟨i, v, rounds, h, hcall, rfl, List.suffix_cons _ _, hstage⟩, rfl,
        hallowed topic hmem⟩

theorem Present.hashes_step (hp : Present crypto settings limiter calls h w) {i : ι}
    {e : GatewayOp} (hmay : MayEnter crypto settings limiter calls h i e)
    (hchange : Change w.gateway e w'.gateway) (id user : String)
    (huser : w'.gateway.hash (.connection id) .userId = some user) :
    ∃ c, WasServed crypto settings limiter calls (entry :: h) id c ∧ c.sub = user := by
  have hkept : w.gateway.hash (.connection id) .userId = some user →
      ∃ c, WasServed crypto settings limiter calls (entry :: h) id c ∧ c.sub = user := by
    intro hold
    obtain ⟨c, hserved, hsub⟩ := hp.hashes id user hold
    exact ⟨c, hserved.cons, hsub⟩
  by_cases hset : ∃ mapping, e = .hset (.connection id) mapping
  · obtain ⟨mapping, rfl⟩ := hset
    rcases hash_of_hset hchange huser with hmem | hold
    · obtain ⟨v, rounds, hcall, hkey, c, hstage, hmapping⟩ := hmay.served rfl
      obtain ⟨rfl⟩ := hkey
      exact ⟨c, ⟨i, v, rounds, h, hcall, rfl, List.suffix_cons _ _, hstage⟩,
        (hmapping user hmem).symm⟩
    · exact hkept hold
  · rcases hash_of_change hchange fun mapping h => hset ⟨mapping, h⟩ with hsame | hnone
    · rw [hsame] at huser
      exact hkept huser
    · rw [hnone] at huser
      cases huser

theorem Present.locals_step (hp : Present crypto settings limiter calls h w) {i : ι}
    {e : GatewayOp} (hmay : MayEnter crypto settings limiter calls h i e)
    (hchange : Change w.gateway e w'.gateway) (slot : ℕ) (id : String) (websocket : Socket)
    (hlocal : w'.gateway.locals slot id = some websocket) :
    ∃ c i v rounds, WasServed crypto settings limiter calls (entry :: h) id c ∧
      calls i = .endpoint v rounds ∧ v.connectionId = id ∧ v.websocket = websocket := by
  rcases setLocal_of_locals hchange hlocal with hold | ⟨manager, rfl⟩
  · obtain ⟨c, j, v, rounds, hserved, hcall⟩ := hp.locals slot id websocket hold
    exact ⟨c, j, v, rounds, hserved.cons, hcall⟩
  · obtain ⟨v, rounds, hcall, -, hid, hsocket, c, hstage⟩ := hmay.served rfl
    exact ⟨c, i, v, rounds, ⟨i, v, rounds, h, hcall, hid.symm, List.suffix_cons _ _, hstage⟩,
      hcall, hid.symm, hsocket.symm⟩

/-- Where the gateway's world stays as it is, so do those who are in it. -/
theorem Present.of_same (hp : Present crypto settings limiter calls h w)
    (hsame : w'.gateway = w.gateway)
    (hminted : ∀ i v rounds, calls i = .endpoint v rounds → ∀ h', h' <:+ entry :: h → ∀ c,
      (sessionOf crypto settings limiter v h' i).stage.claims = some c → c ∈ w'.auth.minted) :
    Present crypto settings limiter calls (entry :: h) w' where
  minted := hminted
  connections user id hid := by
    rw [hsame] at hid
    obtain ⟨c, hserved, hsub⟩ := hp.connections user id hid
    exact ⟨c, hserved.cons, hsub⟩
  subscriptions user topic htopic := by
    rw [hsame] at htopic
    obtain ⟨id, c, hserved, hsub⟩ := hp.subscriptions user topic htopic
    exact ⟨id, c, hserved.cons, hsub⟩
  hashes id user huser := by
    rw [hsame] at huser
    obtain ⟨c, hserved, hsub⟩ := hp.hashes id user huser
    exact ⟨c, hserved.cons, hsub⟩
  locals slot id websocket hlocal := by
    rw [hsame] at hlocal
    obtain ⟨c, i, v, rounds, hserved, hcall⟩ := hp.locals slot id websocket hlocal
    exact ⟨c, i, v, rounds, hserved.cons, hcall⟩

/-- The claims that the connections are about have been minted, after one more operation. -/
theorem Present.minted_step (hp : Present crypto settings limiter calls h w) {j : ι}
    {e : EndpointOp} {a : Except Exc (EndpointOp.Ans e)}
    (henv : endpointEnv crypto settings w e a w') (i : ι) (v : Visitor) (rounds : ℕ)
    (hcall : calls i = .endpoint v rounds) (h' : EndpointHistory ι)
    (hsuf : h' <:+ (j, ⟨w, e, a⟩) :: h) (c : Claims)
    (hc : (sessionOf crypto settings limiter v h' i).stage.claims = some c) :
    c ∈ w'.auth.minted := by
  have hbefore : ∀ c, (sessionOf crypto settings limiter v h i).stage.claims = some c →
      c ∈ w.auth.minted := hp.minted i v rounds hcall h List.suffix_rfl
  refine minted_of_env henv ?_
  rcases List.suffix_cons_iff.mp hsuf with rfl | hsuf
  · by_cases hij : j = i
    · subst hij
      unfold sessionOf at hc
      rw [Discipline.ghost_self] at hc
      cases e with
      | inl e => exact hbefore c (claims_of_sessionNext hc)
      | inr e =>
          cases e with
          | inl e =>
              obtain ⟨auth', hauth, -⟩ := henv
              exact minted_of_authNext hauth hbefore hc
          | inr e => exact hbefore c (claims_of_gatewayNext hc)
    · unfold sessionOf at hc
      rw [Discipline.ghost_other hij] at hc
      exact hbefore c hc
  · exact hp.minted i v rounds hcall h' hsuf c hc

/-- Whoever is registered has been served, under claims that have been minted. -/
theorem present_of_run {clock : ℚ≥0} {incoming : Socket → List Json} {now : ℤ}
    {c : Config ι EndpointWorld EndpointOp.Ans Exc Unit}
    (hrun : EndpointRun crypto settings repr limiter calls
      (EndpointWorld.initial clock incoming now) h c) :
    Present crypto settings limiter calls h c.world := by
  induction hrun with
  | nil =>
      refine ⟨?_, nofun, nofun, nofun, nofun⟩
      intro i v rounds hcall h' hsuf c hc
      rw [List.suffix_nil.mp hsuf] at hc
      cases hc
  | @cons h c c' i ev hr hs ih =>
      have hmay : ∀ g, ev.op = .inr (.inr g) → MayEnter crypto settings limiter calls h i g := by
        intro g hop
        by_cases hcall : ∃ v rounds, calls i = .endpoint v rounds
        · obtain ⟨v, rounds, hcall⟩ := hcall
          have hobeys : ((calls i).prog crypto settings repr limiter).Obeys
              (protocol crypto settings limiter v) Session.Over {} := by
            rw [hcall]
            exact websocketEndpoint_obeys repr rounds
          have hallowed := (Run.cons hr hs).may hobeys List.suffix_rfl
          rw [hop] at hallowed
          exact .inr ⟨v, rounds, hcall, hallowed⟩
        · have hharmless := prog_harmless crypto settings repr limiter (calls i)
            fun v rounds h => hcall ⟨v, rounds, h⟩
          have hallowed := (Run.cons hr hs).may (hharmless ()) List.suffix_rfl
          rw [hop] at hallowed
          exact .inl hallowed
      cases hs with
      | @mk e k a w' hrunning hpool henv =>
          have hminted := ih.minted_step (j := i) henv
          rcases gateway_of_env henv with ⟨g, rfl, hchange⟩ | hsame
          · have henter := hmay g rfl
            exact ⟨hminted, ih.connections_step henter hchange,
              ih.subscriptions_step henter hchange, ih.hashes_step henter hchange,
              ih.locals_step henter hchange⟩
          · exact ih.of_same hsame hminted

/-- In every run, a connection is in a user's set, in a hash or in a local map only if it has
    been served, and a user has subscribed to a topic only if it is one of theirs; each time
    under the claims of a token that has been minted, with this user as its subject. -/
theorem registered_were_served (calls : ι → EndpointCall) (clock : ℚ≥0)
    (incoming : Socket → List Json) (now : ℤ) (h : EndpointHistory ι)
    (c : Config ι EndpointWorld EndpointOp.Ans Exc Unit)
    (hrun : EndpointRun crypto settings repr limiter calls
      (EndpointWorld.initial clock incoming now) h c) :
    (∀ user id, id ∈ c.world.gateway.members (.userConnections user) ∨
        c.world.gateway.hash (.connection id) .userId = some user →
      ∃ claims ∈ c.world.auth.minted,
        claims.sub = user ∧ WasServed crypto settings limiter calls h id claims) ∧
    (∀ user topic, topic ∈ c.world.gateway.members (.subs user) →
      ∃ claims ∈ c.world.auth.minted, claims.sub = user ∧ topicAllowed topic claims ∧
        ∃ id, WasServed crypto settings limiter calls h id claims) ∧
    ∀ slot id websocket, c.world.gateway.locals slot id = some websocket →
      ∃ claims ∈ c.world.auth.minted, WasServed crypto settings limiter calls h id claims ∧
        ∃ i v rounds, calls i = .endpoint v rounds ∧ v.connectionId = id ∧
          v.websocket = websocket := by
  have hpresent := present_of_run hrun
  have hminted : ∀ id claims, WasServed crypto settings limiter calls h id claims →
      claims ∈ c.world.auth.minted := by
    rintro id claims ⟨i, v, rounds, h', hcall, -, hsuf, hstage⟩
    exact hpresent.minted i v rounds hcall h' hsuf claims (by rw [hstage]; rfl)
  refine ⟨fun user id hid => ?_, fun user topic htopic => ?_, fun slot id websocket hlocal => ?_⟩
  · have hserved : ∃ claims, WasServed crypto settings limiter calls h id claims ∧
        claims.sub = user :=
      hid.elim (hpresent.connections user id) (hpresent.hashes id user)
    obtain ⟨claims, hserved, hsub⟩ := hserved
    exact ⟨claims, hminted id claims hserved, hsub, hserved⟩
  · obtain ⟨id, claims, hserved, hsub, hallowed⟩ := hpresent.subscriptions user topic htopic
    exact ⟨claims, hminted id claims hserved, hsub, hallowed, id, hserved⟩
  · obtain ⟨claims, i, v, rounds, hserved, hcall⟩ := hpresent.locals slot id websocket hlocal
    exact ⟨claims, hminted id claims hserved, hserved, i, v, rounds, hcall⟩

-- ============================================================================
-- get_presence
-- ============================================================================

/-- The loop of `get_presence`. -/
theorem wp_presenceOf {t : Trail World GatewayOp.Ans Exc} (ids : List String) :
    wp gatewayEnv (Manager.presenceOf ids) (fun out t' => t'.world = t.world ∧
      out = .ok ((ids.map fun id => t.world.hash (.connection id)).filter fun data => data ≠ ∅))
      t := by
  induction ids generalizing t with
  | nil => exact ⟨rfl, rfl⟩
  | cons id ids ih =>
      rw [Manager.presenceOf]
      refine (wp_op_bind_of_answer fun a w' => Iff.rfl).mpr ?_
      refine wp_seq ih ?_ fun x t' h => nomatch h.2
      rintro out t' ⟨hworld, hout⟩
      obtain rfl := Except.ok.inj hout
      refine wp_pure.mpr ⟨hworld, ?_⟩
      rw [List.map_cons, List.filter_cons]
      by_cases hdata : t.world.hash (.connection id) = ∅
      · simp [hdata]
      · simp [hdata]

/-- `get_presence` changes nothing, and gives what is stored about the connections of the
    user; a connection about which nothing is stored is left out. -/
theorem wp_getPresence {t : Trail World GatewayOp.Ans Exc} (user : String) :
    wp gatewayEnv (Manager.getPresence user) (fun out t' => t'.world = t.world ∧
      ∃ ids : List String, ids.Nodup ∧ ids.toFinset = t.world.members (.userConnections user) ∧
        out = .ok ((ids.map fun id => t.world.hash (.connection id)).filter fun data => data ≠ ∅))
      t := by
  rw [Manager.getPresence]
  refine wp_op_bind.mpr ⟨?_, ?_⟩
  · rintro ids w' ⟨ids', hnodup, hids, hanswer, rfl⟩
    obtain rfl := Except.ok.inj hanswer
    exact wp_mono (wp_presenceOf ids) fun out t' h => ⟨h.1, ids, hnodup, hids, h.2⟩
  · rintro x w' ⟨ids, -, -, hanswer, -⟩
    cases hanswer

/-- What `get_presence` gives is about connections that have been served under a token of the
    user. -/
theorem presence_was_served {clock : ℚ≥0} {incoming : Socket → List Json} {now : ℤ}
    {c : Config ι EndpointWorld EndpointOp.Ans Exc Unit}
    (hrun : EndpointRun crypto settings repr limiter calls
      (EndpointWorld.initial clock incoming now) h c) {user : String} {presence : List Hash}
    {t' : Trail World GatewayOp.Ans Exc}
    (hpresence : Exec gatewayEnv ⟨c.world.gateway, []⟩ (Manager.getPresence user) (.ok presence)
      t') :
    ∀ data ∈ presence, ∃ id claims, data = c.world.gateway.hash (.connection id) ∧
      WasServed crypto settings limiter calls h id claims ∧ claims.sub = user := by
  obtain ⟨-, ids, -, hids, hout⟩ := hpresence.sound (wp_getPresence user)
  obtain rfl := Except.ok.inj hout
  intro data hdata
  obtain ⟨id, hid, rfl⟩ := List.mem_map.mp (List.mem_of_mem_filter hdata)
  have hmem : id ∈ c.world.gateway.members (.userConnections user) := by
    rw [← hids]
    exact List.mem_toFinset.mpr hid
  obtain ⟨claims, hserved, hsub⟩ := (present_of_run hrun).connections user id hmem
  exact ⟨id, claims, rfl, hserved, hsub⟩

end

-- ============================================================================
-- A visit
-- ============================================================================

/-- The operations answered in one way: nothing that is sent to Redis fails. -/
def endpointAnswers (crypto : Crypto) (settings : Settings) :
    Answers EndpointWorld EndpointOp.Ans Exc :=
  fun w e => match e with
    | .inl (.psubscribe manager) => (.ok (), { w with pubsubs := manager :: w.pubsubs })
    | .inl (.createListener manager) => (.ok (), { w with listeners := manager :: w.listeners })
    | .inl (.createTask ..) => (.ok (), w)
    | .inl (.hasListener manager) => (.ok (decide (manager ∈ w.listeners)), w)
    | .inl (.stopListener _) => (.ok (), w)
    | .inl (.hasPubsub manager) => (.ok (decide (manager ∈ w.pubsubs)), w)
    | .inl (.closePubsub _) => (.ok (), w)
    | .inl .closeRedis => (.ok (), w)
    | .inl (.sleep _) => (.ok (), w)
    | .inl (.age _) => (.ok 0, w)
    | .inr (.inl e) => ((authAnswers crypto settings w.auth e).1,
        { w with auth := (authAnswers crypto settings w.auth e).2 })
    | .inr (.inr e) => ((gatewayAnswers (fun _ => false) w.gateway e).1,
        { w with gateway := (gatewayAnswers (fun _ => false) w.gateway e).2 })

theorem endpointAnswers_sound (crypto : Crypto) (settings : Settings) (w : EndpointWorld)
    (e : EndpointOp) : endpointEnv crypto settings w e (endpointAnswers crypto settings w e).1
      (endpointAnswers crypto settings w e).2 := by
  cases e with
  | inl e =>
      cases e with
      | psubscribe manager => rfl
      | closePubsub manager => rfl
      | closeRedis => rfl
      | age last => rfl
      | _ => exact ⟨rfl, rfl⟩
  | inr e =>
      cases e with
      | inl e => exact ⟨_, authAnswers_sound w.auth e, rfl⟩
      | inr e => exact ⟨_, gatewayAnswers_sound _ w.gateway e, rfl⟩

/-- Alice's access token, minted at time 0 for her laptop. -/
def aliceToken : String :=
  plainCrypto.encode
    (buildClaims plainCrypto testSettings (accessDraft testSettings "alice" "laptop") 0
      (freshId []))

/-- Alice's connection. -/
def aliceVisitor : Visitor where
  websocket := 1
  host := some "10.0.0.1"
  token := some aliceToken
  fp := some "laptop"
  manager := ⟨0, "api_gateway"⟩
  connectionId := "c1"

/-- A token is minted, and then alice connects. -/
def aliceVisits : Bool → EndpointCall
  | false => .auth (.createAccessToken "alice" "laptop")
  | true => .endpoint aliceVisitor 5

/-- She subscribes to one topic of hers. -/
def aliceWorld : EndpointWorld :=
  EndpointWorld.initial 0 (fun _ => [subscribeTo "user:alice"]) 0

theorem exists_visit (steps : ℕ)
    (check : EndpointHistory Bool → Config Bool EndpointWorld EndpointOp.Ans Exc Unit → Prop)
    [∀ h c, Decidable (check h c)]
    (hf : (Config.follow (fun _ => true)
      (fun _ w e => some (endpointAnswers plainCrypto testSettings w e))
      (false :: List.replicate steps true) ([], ⟨aliceWorld, fun i =>
        (aliceVisits i).prog plainCrypto testSettings (fun _ => "") {}, none⟩)).any
        fun hc => check hc.1 hc.2) :
    ∃ h c, EndpointRun plainCrypto testSettings (fun _ => "") {} aliceVisits aliceWorld h c ∧
      check h c := by
  refine Config.exists_run ?_ _ check hf
  intro i w e a w' heq
  have hsound := endpointAnswers_sound plainCrypto testSettings w e
  rw [Option.some.injEq] at heq
  rwa [heq] at hsound

theorem registered_were_served_alice :
    ∃ h c, EndpointRun plainCrypto testSettings (fun _ => "") {} aliceVisits aliceWorld h c ∧
      "user:alice" ∈ c.world.gateway.members (.subs "alice") ∧
      ∃ claims ∈ c.world.auth.minted, claims.sub = "alice" ∧ topicAllowed "user:alice" claims ∧
        ∃ id, WasServed plainCrypto testSettings {} aliceVisits h id claims := by
  obtain ⟨h, c, hrun, hmem⟩ := exists_visit 20
    (fun _ c => "user:alice" ∈ c.world.gateway.members (.subs "alice")) (by decide +kernel)
  exact ⟨h, c, hrun, hmem,
    (registered_were_served aliceVisits 0 _ 0 h c hrun).2.1 "alice" "user:alice" hmem⟩

theorem endpoint_keeps_protocol_alice :
    ∃ h c, EndpointRun plainCrypto testSettings (fun _ => "") {} aliceVisits aliceWorld h c ∧
      c.pool true = .ret () ∧
      (sessionOf plainCrypto testSettings {} aliceVisitor h true).farewell.Over := by
  obtain ⟨h, c, hrun, hreturned⟩ := exists_visit 33 (fun _ c => (c.pool true).returned)
    (by decide +kernel)
  obtain ⟨r, hret⟩ := Prog.eq_ret_of_returned hreturned
  exact ⟨h, c, hrun, hret, (endpoint_keeps_protocol plainCrypto testSettings (fun _ => "") {}
    aliceVisitor 5 _ _ _ c h true hrun rfl).2.1 hret⟩

end Mtrader.Gateway
