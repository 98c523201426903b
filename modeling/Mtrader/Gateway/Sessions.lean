/-
  Mtrader.Gateway.Sessions

  Every connection to `/ws` keeps to its protocol, whatever Redis, the clock, the client and
  the other coroutines do, and whatever raises.

  In particular a socket is accepted, and a connection registered, only after the host's
  limit and every check of `verify_token`; the endpoint sends nothing to a socket that it has
  closed; and every connection ends with the steps of its `finally`, in their order.
-/

import Mtrader.Gateway.Endpoint
import Mtrader.Coroutine.Interleave

namespace Mtrader.Gateway

open Py Coroutine Auth

-- ============================================================================
-- The three parts of the protocol
-- ============================================================================

section

variable {crypto : Crypto} {settings : Settings} {limiter : WebSocketRateLimiter} {v : Visitor}
variable {R : Type} {s : Session} {c : Claims}

/-- The protocol, of the operations of the gateway. -/
abbrev gatewayProtocol (limiter : WebSocketRateLimiter) (v : Visitor) :
    Discipline GatewayOp.Ans Exc Session where
  may := gatewayMay v
  next := gatewayNext limiter

/-- The protocol, of the operations of `verify_token`. -/
abbrev authProtocol (crypto : Crypto) (settings : Settings) (v : Visitor) :
    Discipline AuthOp.Ans Exc Session where
  may := authMay v
  next := authNext crypto settings v

theorem gateway_obeys {Q : Except Exc R → Session → Prop} {p : GatewayM R}
    (h : p.Obeys (gatewayProtocol limiter v) Q s) :
    (gateway p).Obeys (protocol crypto settings limiter v) Q s :=
  Prog.Obeys.inr (Prog.Obeys.inr (D := (protocol crypto settings limiter v).right) h)

theorem auth_obeys {Q : Except Exc R → Session → Prop} {p : AuthM R}
    (h : p.Obeys (authProtocol crypto settings v) Q s) :
    (auth p).Obeys (protocol crypto settings limiter v) Q s :=
  Prog.Obeys.inr (Prog.Obeys.inl (D := (protocol crypto settings limiter v).right) h)

theorem session_obeys {e : SessionOp} {Q : Except Exc e.Ans → Session → Prop}
    (hmay : sessionMay v s e) (hQ : ∀ a, Q a (sessionNext s e a)) :
    (session e).Obeys (protocol crypto settings limiter v) Q s :=
  Prog.Obeys.inl (D := protocol crypto settings limiter v) (Prog.obeys_op.mpr ⟨hmay, hQ⟩)

theorem session_bind {e : SessionOp} {f : e.Ans → EndpointM R} {Q : Except Exc R → Session → Prop}
    (hmay : sessionMay v s e)
    (hok : ∀ a, (f a).Obeys (protocol crypto settings limiter v) Q (sessionNext s e (.ok a)))
    (herr : ∀ x, Q (.error x) (sessionNext s e (.error x))) :
    (session e >>= f).Obeys (protocol crypto settings limiter v) Q s := by
  have hnext : (session e).Obeys (protocol crypto settings limiter v)
      (fun out s' => s' = sessionNext s e out) s := session_obeys hmay fun _ => rfl
  refine hnext.seq (fun a s' hs' => hs' ▸ hok a) fun x s' hs' => ?_
  rw [hs']
  exact herr x

-- ============================================================================
-- An accepted connection
-- ============================================================================

/-- The operations that take a connection further. -/
def GatewayOp.moves : GatewayOp → Bool
  | .pipeline (.connIp _) _ => true
  | .accept _ => true
  | .close .. => true
  | .hget .. => true
  | .srem (.userConnections _) _ => true
  | .delete _ => true
  | .popLocal .. => true
  | _ => false

theorem next_of_not_moves {e : GatewayOp} (he : e.moves = false) (a : Except Exc e.Ans) :
    gatewayNext limiter s e a = s := by
  cases e with
  | pipeline key commands =>
      cases key with
      | connIp clientIp => cases he
      | _ => rfl
  | accept websocket => cases he
  | close websocket code => cases he
  | hget key field => cases he
  | srem key members =>
      cases key with
      | userConnections user => cases he
      | _ => rfl
  | delete key => cases he
  | popLocal manager connectionId => cases he
  | _ => rfl

/-- The other operations leave a connection where it is. -/
theorem still_op_bind {e : GatewayOp} {f : e.Ans → GatewayM R}
    {Q : Except Exc R → Session → Prop} (he : e.moves = false)
    (hmay : gatewayMay v s e) (hok : ∀ r, (f r).Obeys (gatewayProtocol limiter v) Q s)
    (herr : ∀ x, Q (.error x) s) : (perform e >>= f).Obeys (gatewayProtocol limiter v) Q s := by
  refine Prog.obeys_op_bind.mpr ⟨hmay, fun r => ?_, fun x => ?_⟩
  · show (f r).Obeys _ _ (gatewayNext limiter s e (.ok r))
    rw [next_of_not_moves he]
    exact hok r
  · show Q _ (gatewayNext limiter s e (.error x))
    rw [next_of_not_moves he]
    exact herr x

/-- What has become of a connection that has handled a message. -/
def Answered (c : Claims) : Except Exc Bool → Session → Prop
  | .ok true, s => s.stage = .serving c
  | .ok false, s => s.stage = .closed
  | .error _, s => s.stage = .serving c

variable (hs : s.stage = .serving c)
include hs

theorem close_answered (code : ℕ) :
    (perform (.close v.websocket code) >>= fun _ => pure false).Obeys (gatewayProtocol limiter v)
      (Answered c) s := by
  refine Prog.obeys_op_bind.mpr ⟨⟨rfl, ?_, ?_⟩, fun _ => rfl, fun x => hs⟩
  · rw [hs]
    nofun
  · rw [hs]
    nofun

theorem send_answered (name : String) (fields : List (String × String)) :
    (perform (.sendJson v.websocket (.event name fields)) >>= fun _ => pure true).Obeys
      (gatewayProtocol limiter v) (Answered c) s :=
  still_op_bind rfl ⟨rfl, ⟨c, hs⟩, name, fields, rfl⟩ (fun _ => hs) fun _ => hs

theorem handleHeartbeat_obeys :
    (handleHeartbeat ⟨v.websocket, v.connectionId, c⟩).Obeys (gatewayProtocol limiter v)
      (Answered c) s := by
  unfold handleHeartbeat Manager.touchHeartbeat
  rw [bind_assoc]
  refine still_op_bind rfl ⟨c, hs⟩ (fun now => ?_) fun _ => hs
  refine still_op_bind rfl ⟨rfl, c, hs, by simp⟩ (fun _ => ?_) fun _ => hs
  refine still_op_bind rfl ⟨c, hs⟩ (fun ts => ?_) fun _ => hs
  exact send_answered hs _ _

theorem handleSubscribe_obeys (topic : String) :
    (handleSubscribe limiter ⟨v.websocket, v.connectionId, c⟩ topic).Obeys
      (gatewayProtocol limiter v) (Answered c) s := by
  unfold handleSubscribe
  split
  next => exact close_answered hs 4001
  next hallowed =>
    have htopic : topicAllowed topic c = true := by
      simp only [Bool.or_eq_true, decide_eq_true_eq, Bool.not_eq_true', not_or,
        Bool.not_eq_false] at hallowed
      exact hallowed.2
    unfold Manager.subscribeUser WebSocketRateLimiter.checkSubscriptionLimit
    simp only [ne_eq, List.cons_ne_self, not_false_eq_true, if_true, bind_assoc, pure_bind]
    refine still_op_bind rfl ⟨c, hs, .inr ⟨rfl, ?_⟩⟩ (fun _ => ?_) fun _ => hs
    · intro t ht
      rw [List.mem_singleton.mp ht]
      exact htopic
    refine still_op_bind rfl ⟨c, hs, .inr rfl⟩ (fun _ => ?_) fun _ => hs
    refine still_op_bind rfl ⟨c, hs, rfl⟩ (fun cnt => ?_) fun _ => hs
    split
    next => exact send_answered hs _ _
    next => exact close_answered hs 4002

theorem handleUnsubscribe_obeys (topic : String) :
    (handleUnsubscribe ⟨v.websocket, v.connectionId, c⟩ topic).Obeys (gatewayProtocol limiter v)
      (Answered c) s := by
  unfold handleUnsubscribe Manager.unsubscribeUser
  simp only [ne_eq, List.cons_ne_self, not_false_eq_true, if_true, bind_assoc, pure_bind]
  exact still_op_bind rfl (.inl ⟨c, hs, rfl⟩) (fun _ => send_answered hs _ _) fun _ => hs

/-- A check of a window, of a connection that serves. -/
theorem checkMessageRate_obeys {Q : Except Exc R → Session → Prop} {f : Bool → GatewayM R}
    (hf : ∀ within, (f within).Obeys (gatewayProtocol limiter v) Q s)
    (herr : ∀ x, Q (.error x) s) :
    (limiter.checkMessageRate v.connectionId >>= f).Obeys (gatewayProtocol limiter v) Q s := by
  unfold WebSocketRateLimiter.checkMessageRate WebSocketRateLimiter.checkWindow
  rw [bind_assoc]
  refine still_op_bind rfl (.inr ⟨c, hs⟩) (fun now => ?_) herr
  rw [bind_assoc]
  refine still_op_bind rfl (.inr ⟨rfl, c, hs⟩) (fun counts => ?_) herr
  split
  next => exact hf _
  next => exact herr _

theorem handleMessage_obeys (repr : Json → String) (msg : Json) :
    (handleMessage repr limiter ⟨v.websocket, v.connectionId, c⟩ msg).Obeys
      (gatewayProtocol limiter v) (Answered c) s := by
  unfold handleMessage
  refine checkMessageRate_obeys hs (fun within => ?_) fun _ => hs
  cases within with
  | false => exact close_answered hs 4002
  | true =>
      refine Prog.obeys_ofExcept_bind.mpr ⟨fun event _ => ?_, fun _ _ => hs⟩
      show Prog.Obeys _ (if _ then _ else _) _ _
      split
      next => exact handleHeartbeat_obeys hs
      next =>
        split
        next => exact handleSubscribe_obeys hs _
        next =>
          split
          next => exact handleUnsubscribe_obeys hs _
          next => exact send_answered hs _ _

/-- The message loop ends with the socket closed, or it is broken off while it is open. -/
theorem serve_obeys (repr : Json → String) (rounds : ℕ) :
    (serve repr limiter ⟨v.websocket, v.connectionId, c⟩ rounds).Obeys (gatewayProtocol limiter v)
      (fun out s' => s'.stage = .serving c ∨ out = .ok () ∧ s'.stage = .closed) s := by
  induction rounds generalizing s with
  | zero => exact Or.inl hs
  | succ rounds ih =>
      rw [serve]
      refine still_op_bind rfl ⟨rfl, c, hs⟩ (fun msg => ?_) fun _ => Or.inl hs
      refine (handleMessage_obeys hs repr msg).seq (fun more s' hanswered => ?_) fun x s' hs' => ?_
      · cases more with
        | true => exact ih hanswered
        | false => exact Or.inr ⟨rfl, hanswered⟩
      · exact Or.inl hs'

end

-- ============================================================================
-- Before and after
-- ============================================================================

section

variable {crypto : Crypto} {settings : Settings} {limiter : WebSocketRateLimiter} {v : Visitor}
variable {s : Session} {c : Claims}

/-- The socket may still be closed. -/
def Session.Open (s : Session) : Prop := s.stage ≠ .closed ∧ s.stage ≠ .left

theorem Session.Open.of_eq {stage : Stage} (hs : s.stage = stage) (hclosed : stage ≠ .closed)
    (hleft : stage ≠ .left) : s.Open := ⟨hs ▸ hclosed, hs ▸ hleft⟩

variable (limiter) in
theorem Session.Open.checked (h : s.Open) (a : Except Exc (List ℕ)) :
    (s.checked limiter a).Open := by
  unfold Session.checked
  split
  next =>
    split
    next => exact ⟨nofun, nofun⟩
    next => exact h
  next => exact h

/-- The check of the host admits the connection, or leaves it where it is. -/
theorem checkConnectionLimit_obeys (hs : s.stage = .fresh) :
    (limiter.checkConnectionLimit v.clientIp).Obeys (gatewayProtocol limiter v)
      (fun out s' => s'.Open ∧ (out = .ok true → s'.stage = .admitted)) s := by
  have hopen : s.Open := .of_eq hs nofun nofun
  unfold WebSocketRateLimiter.checkConnectionLimit WebSocketRateLimiter.checkWindow
  refine Prog.obeys_op_bind.mpr ⟨.inl hs, fun now => ?_, fun x => ⟨hopen, nofun⟩⟩
  refine Prog.obeys_op_bind.mpr ⟨.inl ⟨rfl, hs⟩, fun counts => ?_, fun x => ?_⟩
  · have hchecked := hopen.checked limiter (.ok counts)
    split
    next removed added count set =>
      refine ⟨hchecked, fun h => ?_⟩
      have hwithin : count ≤ limiter.connectionsPerIp := of_decide_eq_true (Except.ok.inj h)
      exact congrArg Session.stage (if_pos hwithin)
    next => exact ⟨hchecked, nofun⟩
  · exact ⟨hopen.checked limiter (.error x), nofun⟩

section

variable {token : String} {Q : Except Exc Claims → Session → Prop}

/-- What fails before the token is verified leaves the socket open. -/
theorem refused (hs : s.Open) (x : Exc) :
    s.Open ∧ ∀ c, (Except.error x : Except Exc Claims) = .ok c → s.stage = .verified c :=
  ⟨hs, nofun⟩

/-- The last checks of `verify_token`. -/
theorem marker_obeys (hs : s.stage = .unrevoked c) :
    (Auth.perform (.get (.revokeAfter c.sub)) >>= fun revokeAfter =>
      Prog.ofExcept (globallyRevoked c.iat revokeAfter) >>= fun revoked =>
        if revoked then Prog.raise (.valueError "token globally revoked")
        else if c.FingerprintOk crypto v.fp then pure c
        else Prog.raise (.valueError "fingerprint mismatch")).Obeys
      (authProtocol crypto settings v)
      (fun out s' => s'.Open ∧ ∀ c, out = .ok c → s'.stage = .verified c) s := by
  have hopen : s.Open := .of_eq hs nofun nofun
  refine Prog.obeys_op_bind.mpr ⟨⟨c, hs, rfl⟩, fun marker => ?_, fun x => refused hopen x⟩
  have hnext : authNext crypto settings v s (.get (.revokeAfter c.sub)) (.ok marker) =
      s.cleared crypto v c (globallyRevoked c.iat marker) := by
    simp only [authNext, hs]
  show Prog.Obeys _ _ _ (authNext crypto settings v s (.get (.revokeAfter c.sub)) (.ok marker))
  rw [hnext]
  cases hglobal : globallyRevoked c.iat marker with
  | error x => exact refused hopen x
  | ok revoked =>
      cases revoked with
      | true => exact refused hopen _
      | false =>
          by_cases hfp : c.FingerprintOk crypto v.fp
          · simp only [Prog.ofExcept_ok, Prog.ret_bind, Bool.false_eq_true, if_false, hfp, if_true,
              Session.cleared]
            refine ⟨⟨nofun, nofun⟩, fun c' h => ?_⟩
            cases h
            rfl
          · simp only [Prog.ofExcept_ok, Prog.ret_bind, Bool.false_eq_true, if_false, hfp,
              Session.cleared]
            exact refused hopen _

end

/-- A token is verified step by step. -/
theorem authenticateWebsocket_obeys (hs : s.stage = .admitted) :
    (authenticateWebsocket crypto settings v.token v.fp).Obeys (authProtocol crypto settings v)
      (fun out s' => s'.Open ∧ ∀ c, out = .ok c → s'.stage = .verified c) s := by
  have hopen : s.Open := .of_eq hs nofun nofun
  unfold authenticateWebsocket
  cases hpresent : present v.token with
  | none => exact refused hopen _
  | some token =>
      have htoken : v.token = some token := (present_eq_some.mp hpresent).1
      show (verifyToken crypto settings token v.fp).Obeys _ _ _
      unfold verifyToken decodePayload isTokenRevoked
      rw [bind_assoc]
      refine Prog.obeys_op_bind.mpr ⟨⟨hs, htoken⟩, fun c => ?_, fun x => refused hopen x⟩
      have hopened : authNext crypto settings v s (.verifySignature token) (.ok c) =
          { s with stage := .opened c } := by
        simp only [authNext, hs]
      show Prog.Obeys _ _ _ (authNext crypto settings v s (.verifySignature token) (.ok c))
      rw [hopened, bind_assoc]
      have hopen' : Session.Open { s with stage := .opened c } := ⟨nofun, nofun⟩
      refine Prog.obeys_op_bind.mpr ⟨⟨c, rfl⟩, fun now => ?_, fun x => refused hopen' x⟩
      have htimely : authNext crypto settings v { s with stage := .opened c } .now (.ok now) =
          if c.ValidAt settings now ∧ c.jti ≠ "" then { s with stage := .timely c }
          else { s with stage := .opened c } := rfl
      show Prog.Obeys _ _ _
        (authNext crypto settings v { s with stage := .opened c } .now (.ok now))
      rw [htimely]
      by_cases hvalid : c.ValidAt settings now
      · rw [if_pos hvalid, pure_bind]
        by_cases hjti : c.jti = ""
        · rw [if_pos hjti, if_neg fun h => h.2 hjti]
          exact refused hopen' _
        · have hboth : c.ValidAt settings now ∧ c.jti ≠ "" := ⟨hvalid, hjti⟩
          rw [if_neg hjti, if_pos hboth]
          have htimely' : Session.Open { s with stage := .timely c } := ⟨nofun, nofun⟩
          refine Prog.obeys_op_bind.mpr
            ⟨⟨c, rfl, rfl⟩, fun revoked => ?_, fun x => refused htimely' x⟩
          cases revoked with
          | true => exact refused htimely' _
          | false => exact marker_obeys rfl
      · rw [if_neg hvalid, if_neg fun h => hvalid h.1]
        exact refused hopen' _

/-- The manager of a connection is started before the socket is accepted. -/
theorem start_obeys (hs : s.stage = .verified c) :
    v.manager.start.Obeys (protocol crypto settings limiter v) (fun _ s' => s' = s) s := by
  unfold Manager.start
  refine session_bind ⟨rfl, c, hs⟩ (fun _ => ?_) fun _ => rfl
  exact session_obeys ⟨rfl, c, hs⟩ fun _ => rfl

/-- A connection is accepted under the claims that have been verified, and registered. -/
theorem connect_obeys (hs : s.stage = .verified c) (sessionId : String) :
    (v.manager.connect v.websocket c.sub v.connectionId sessionId).Obeys
      (gatewayProtocol limiter v)
      (fun out s' => s'.Open ∧ (out = .ok () → s'.stage = .serving c)) s := by
  have hwelcomed : s.welcomed.stage = .serving c := by simp only [Session.welcomed, hs]
  have hopen : s.welcomed.Open := .of_eq hwelcomed nofun nofun
  unfold Manager.connect
  refine Prog.obeys_op_bind.mpr ⟨⟨rfl, c, hs⟩, fun _ => ?_, fun x => ?_⟩
  · show Prog.Obeys _ _ _ s.welcomed
    refine still_op_bind rfl ⟨c, hwelcomed⟩ (fun now => ?_) fun _ => ⟨hopen, nofun⟩
    refine still_op_bind rfl ⟨rfl, rfl, rfl, c, hwelcomed⟩ (fun _ => ?_) fun _ => ⟨hopen, nofun⟩
    refine still_op_bind rfl ⟨rfl, c, hwelcomed, by simp⟩ (fun _ => ?_) fun _ => ⟨hopen, nofun⟩
    refine still_op_bind rfl ⟨c, hwelcomed, .inl rfl⟩ (fun _ => ?_) fun _ => ⟨hopen, nofun⟩
    exact still_op_bind rfl ⟨c, hwelcomed, .inl ⟨rfl, rfl⟩⟩ (fun _ => ⟨hopen, fun _ => hwelcomed⟩)
      fun _ => ⟨hopen, nofun⟩
  · exact ⟨.of_eq hs nofun nofun, nofun⟩

/-- Closing a socket that is open. -/
theorem closeSocket_obeys (hs : s.Open) (code : ℕ) :
    (closeSocket v code).Obeys (protocol crypto settings limiter v)
      (fun out s' => s'.stage ≠ .left ∧ (∀ x, out = .error x → s'.Open ∧ s'.fault = some x)) s := by
  refine gateway_obeys (Prog.obeys_op.mpr ⟨⟨rfl, hs⟩, fun a => ?_⟩)
  cases a with
  | ok _ => exact ⟨nofun, nofun⟩
  | error x =>
      refine ⟨hs.2, fun y h => ⟨hs, ?_⟩⟩
      cases h
      rfl

/-- The body of the `try` is done with the socket, or an exception leaves it open. -/
theorem converse_obeys (repr : Json → String) (rounds : ℕ) (hs : s.stage = .fresh) :
    (converse crypto settings repr limiter v rounds).Obeys (protocol crypto settings limiter v)
      (fun out s' => s'.stage ≠ .left ∧ (∀ x, out = .error x → s'.Open)) s := by
  unfold converse
  refine (gateway_obeys (checkConnectionLimit_obeys hs)).seq (fun within s₁ h₁ => ?_)
    fun x s₁ h₁ => ⟨h₁.1.2, fun _ _ => h₁.1⟩
  cases within with
  | false =>
      exact (closeSocket_obeys h₁.1 4002).mono fun out s' h => ⟨h.1, fun x hx => (h.2 x hx).1⟩
  | true =>
      refine (auth_obeys (authenticateWebsocket_obeys (h₁.2 rfl))).seq (fun c s₂ h₂ => ?_)
        fun x s₂ h₂ => ⟨h₂.1.2, fun _ _ => h₂.1⟩
      refine (start_obeys (h₂.2 c rfl)).seq (fun _ s₃ h₃ => ?_) fun x s₃ h₃ => ?_
      · subst h₃
        refine (gateway_obeys (connect_obeys (h₂.2 c rfl) c.jti)).seq (fun _ s₄ h₄ => ?_)
          fun x s₄ h₄ => ⟨h₄.1.2, fun _ _ => h₄.1⟩
        have hserving := h₄.2 rfl
        have hfailed : ∀ x : Exc, s₄.stage ≠ .left ∧
            ∀ y, (Except.error x : Except Exc Unit) = .error y → s₄.Open :=
          fun _ => ⟨h₄.1.2, fun _ _ => h₄.1⟩
        refine session_bind ⟨rfl, c, hserving⟩ (fun _ => ?_) hfailed
        refine session_bind ⟨rfl, c, hserving⟩ (fun _ => ?_) hfailed
        refine gateway_obeys ((serve_obeys hserving repr rounds).mono ?_)
        rintro out s' (hserving' | ⟨rfl, hclosed⟩)
        · have hopen : s'.Open := .of_eq hserving' nofun nofun
          exact ⟨hopen.2, fun _ _ => hopen⟩
        · rw [hclosed]
          exact ⟨nofun, nofun⟩
      · rw [h₃]
        exact ⟨h₂.1.2, fun _ _ => h₂.1⟩

/-- A handler closes the socket, and raises only what closing it has raised. -/
theorem onException_obeys (hs : s.Open) (x : Exc) :
    (onException v x).Obeys (protocol crypto settings limiter v)
      (fun out s' => s'.stage ≠ .left ∧ ∀ y, out = .error y → s'.fault = some y) s := by
  have hother : Prog.Obeys (protocol crypto settings limiter v)
      (if x = webSocketDisconnect then pure () else swallow (closeSocket v 1011))
      (fun out s' => s'.stage ≠ .left ∧ ∀ y, out = .error y → s'.fault = some y) s := by
    split
    next => exact ⟨hs.2, nofun⟩
    next =>
      exact (closeSocket_obeys hs 1011).handle (fun _ s' h => ⟨h.1, nofun⟩)
        fun _ s' h => ⟨h.1, nofun⟩
  cases x with
  | valueError msg =>
      exact (closeSocket_obeys hs 4001).mono fun out s' h => ⟨h.1, fun y hy => (h.2 y hy).2⟩
  | _ => exact hother

/-- The `finally` has come this far. -/
def Session.gone (s : Session) (f : Farewell) : Session := { s with stage := .left, farewell := f }

/-- A part of the `finally` comes to `f`, or one of its steps raises. -/
def Goes {R : Type} (s : Session) (f : Farewell) (out : Except Exc R) (s' : Session) : Prop :=
  s' = s.gone (if out.isOk then f else .broken)

/-- `disconnect` begins the `finally`. -/
theorem disconnect_leaves (hs : s.stage ≠ .left) :
    (v.manager.disconnect v.connectionId).Obeys (gatewayProtocol limiter v)
      (Goes s .forgotten) s := by
  have htail : ∀ f, f = .read none ∨ f = .unlisted →
      (perform (.delete (.connection v.connectionId)) >>= fun _ =>
        perform (.popLocal v.manager v.connectionId)).Obeys (gatewayProtocol limiter v)
          (Goes s .forgotten) (s.gone f) := by
    intro f hf
    refine Prog.obeys_op_bind.mpr ⟨⟨rfl, hf⟩, fun _ => ?_, fun _ => rfl⟩
    refine Prog.obeys_op.mpr ⟨⟨rfl, rfl, rfl⟩, fun out => ?_⟩
    cases out <;> rfl
  unfold Manager.disconnect
  refine Prog.obeys_op_bind.mpr ⟨⟨rfl, rfl, hs⟩, fun userId => ?_, fun x => rfl⟩
  show Prog.Obeys _ _ _ (s.gone (.read (present userId)))
  cases present userId with
  | none => exact htail _ (.inl rfl)
  | some user =>
      refine Prog.obeys_op_bind.mpr ⟨Or.inr ⟨rfl, user, rfl, rfl⟩, fun _ => ?_, fun _ => rfl⟩
      exact htail _ (.inr rfl)

/-- `stop` comes after it. -/
theorem stop_obeys :
    v.manager.stop.Obeys (protocol crypto settings limiter v)
      (fun out s' => Goes s (.pubsub false) out s' ∨ Goes s .unsubscribed out s')
      (s.gone .forgotten) := by
  have hpubsub : ∀ f, f = .listener false ∨ f = .stopped →
      (session (.hasPubsub v.manager) >>= fun there =>
        if there then session (.closePubsub v.manager) else pure ()).Obeys
          (protocol crypto settings limiter v)
          (fun out s' => Goes s (.pubsub false) out s' ∨ Goes s .unsubscribed out s')
          (s.gone f) := by
    intro f hf
    refine session_bind ⟨rfl, hf⟩ (fun there => ?_) fun _ => Or.inl rfl
    cases there with
    | true =>
        refine session_obeys ⟨rfl, rfl⟩ fun out => Or.inr ?_
        cases out <;> rfl
    | false => exact Or.inl rfl
  unfold Manager.stop
  refine session_bind ⟨rfl, rfl⟩ (fun there => ?_) fun _ => Or.inl rfl
  cases there with
  | true =>
      exact session_bind ⟨rfl, rfl⟩ (fun _ => hpubsub _ (.inr rfl)) fun _ => Or.inl rfl
  | false => exact hpubsub _ (.inl rfl)

/-- The body of the `finally` comes to its end, and does not forget what closing the socket
    has raised. -/
theorem leave_obeys (hs : s.stage ≠ .left) :
    (leave v).Obeys (protocol crypto settings limiter v)
      (fun _ s' => s'.stage = .left ∧ s'.farewell.Over ∧ s'.fault = s.fault) s := by
  have hclose : ∀ f, f = .pubsub false ∨ f = .unsubscribed →
      (session .closeRedis).Obeys (protocol crypto settings limiter v)
        (fun _ s' => s'.stage = .left ∧ s'.farewell.Over ∧ s'.fault = s.fault) (s.gone f) := by
    intro f hf
    refine session_obeys hf fun out => ?_
    cases out with
    | ok _ => exact ⟨rfl, .inl rfl, rfl⟩
    | error x => exact ⟨rfl, .inr rfl, rfl⟩
  unfold leave
  refine (gateway_obeys (disconnect_leaves hs)).seq (fun _ s₁ h₁ => ?_) fun _ s₁ h₁ => ?_
  · obtain rfl : s₁ = s.gone .forgotten := h₁
    refine stop_obeys.seq (fun _ s₂ h₂ => ?_) fun _ s₂ h₂ => ?_
    · rcases h₂ with h₂ | h₂
      · obtain rfl : s₂ = s.gone (.pubsub false) := h₂
        exact hclose _ (.inl rfl)
      · obtain rfl : s₂ = s.gone .unsubscribed := h₂
        exact hclose _ (.inr rfl)
    · obtain rfl : s₂ = s.gone .broken := h₂.elim (fun h => h) fun h => h
      exact ⟨rfl, .inr rfl, rfl⟩
  · obtain rfl : s₁ = s.gone .broken := h₁
    exact ⟨rfl, .inr rfl, rfl⟩

/-- A connection keeps to its protocol from its first operation to its last. -/
theorem websocketEndpoint_obeys (repr : Json → String) (rounds : ℕ) :
    (websocketEndpoint crypto settings repr limiter v rounds).Obeys
      (protocol crypto settings limiter v) Session.Over {} := by
  refine Prog.obeys_andFinally ?_
  refine ((converse_obeys repr rounds rfl).handle (fun _ s₁ h₁ => ⟨h₁.1, nofun⟩)
    fun x s₁ h₁ => onException_obeys (h₁.2 x rfl) x).mono fun out s₁ h₁ => ?_
  refine (leave_obeys h₁.1).handle (fun _ s₂ h₂ => ?_) fun _ s₂ h₂ => ?_
  · exact ⟨h₂.1, h₂.2.1, fun x hx => h₂.2.2.trans (h₁.2 x hx)⟩
  · exact ⟨h₂.1, h₂.2.1, fun x hx => h₂.2.2.trans (h₁.2 x hx)⟩

end

end Mtrader.Gateway
