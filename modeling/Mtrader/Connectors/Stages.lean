/-
  Mtrader.Connectors.Stages

  How the coroutines of a connector go on.

  `Stage` is how far a coroutine has come; `connectorFlow` allows each operation in the
  stages in which it belongs, and `Move` says what the operation does to the stage and to
  the connector.
-/

import Mtrader.Connectors.Connection

namespace Mtrader.Connectors

open Coroutine Py

-- ============================================================================
-- Stages
-- ============================================================================

/-- How far a coroutine has come. -/
inductive Stage
  | fresh
  /-- It is not in the lock. -/
  | away
  /-- It is in the lock, to connect. -/
  | entered
  /-- The connector is not connected. -/
  | offline
  /-- It has logged in. -/
  | logged
  /-- The connector is connected, and its heartbeat is still to be created. -/
  | online
  /-- It is in the lock, to disconnect. -/
  | closing
  /-- The heartbeat on record is to be cancelled. -/
  | found (task : ℕ)
  /-- The heartbeat on record is to be waited for. -/
  | stopped (task : ℕ)
  /-- The heartbeat on record has finished. -/
  | joined
  /-- The connector is disconnected. -/
  | closed
  /-- It has left the lock after disconnecting. -/
  | released
  /-- The terminal is gone. -/
  | gone
  | done
  deriving DecidableEq

/-- Is the coroutine in the lock? -/
def Stage.locked : Stage → Bool
  | .entered | .offline | .logged | .online => true
  | .closing | .found _ | .stopped _ | .joined | .closed => true
  | _ => false

/-- What a coroutine is there for. -/
inductive Role
  | opens | closes | beats
  deriving DecidableEq

def Stage.next (role : Role) (p : Stage) (e : ConnectorOp) (a : Except (Thrown Exc) e.Ans) :
    Stage :=
  match e, a, p with
  | .begin, _, .fresh => .away
  | .acquire, .ok _, .away => if role = .closes then .closing else .entered
  | .isConnected, .ok false, .entered => .offline
  | .login .., .ok true, .offline => .logged
  | .setConnected true, .ok _, .logged => .online
  | .createHeartbeat, .ok _, .online => .entered
  | .heartbeatTask, .ok none, .closing => .joined
  | .heartbeatTask, .ok (some task), .closing => .found task
  | .cancel _, .ok _, .found task => .stopped task
  | .gather _, .ok _, .stopped _ => .joined
  | .setConnected false, .ok _, .joined => .closed
  | .setConnected false, _, .gone => .away
  | .terminalInfo, .ok false, .away => .gone
  | .release, .ok _, .closed => .released
  | .release, _, _ => .away
  | .returned, _, _ => .done
  | .finish, _, _ => .done
  | _, _, p => p

/-- The operations that a coroutine may come to in a stage. -/
def connectorFlow (role : Role) : Discipline ConnectorOp.Ans (Thrown Exc) Stage where
  may p e := match e with
    | .begin => p = .fresh
    | .acquire => p = .away
    | .release => p.locked
    | .isConnected => p = .away ∨ p = .entered
    | .setConnected true => p = .logged
    | .setConnected false => p = .joined ∨ p = .gone ∧ role = .beats
    | .login .. => p = .offline
    | .createHeartbeat => p = .online
    | .heartbeatTask => p = .closing
    | .cancel task => p = .found task
    | .gather task => p = .stopped task
    | .terminalInfo => p = .away ∧ role = .beats
    | .sleep _ => p = .away
    | .initializeMt5 .. => p = .offline
    | .shutdown => p = .offline ∨ p = .joined
    | .returned => p = .released ∧ role = .closes ∨ p = .away ∧ role = .opens
    | .finish => p.locked = false ∧ p ≠ .fresh ∧ p ≠ .released ∧ role = .beats
  next p e a := p.next role e a

/-- A coroutine that has left the lock after disconnecting only returns. -/
theorem may_released {role : Role} {e : ConnectorOp}
    (h : (connectorFlow role).may .released e) : e = .returned := by
  cases e with
  | returned => rfl
  | isConnected => exact h.elim nofun nofun
  | setConnected connected =>
      cases connected with
      | true => cases h
      | false => exact h.elim nofun fun h => nomatch h.1
  | shutdown => exact h.elim nofun nofun
  | terminalInfo => cases h.1
  | finish => exact absurd rfl h.2.2.1
  | _ => cases h

theorem Stage.next_release {role : Role} {p : Stage} {a : Except (Thrown Exc) Unit}
    (hp : p ≠ .closed) : p.next role .release a = .away := by
  cases a with
  | error x => rfl
  | ok r =>
      cases p with
      | closed => exact absurd rfl hp
      | _ => rfl

/-- What the call of a client is there for. -/
def ClientCall.role : ClientCall → Role
  | .disconnect => .closes
  | _ => .opens

section

variable {self : MT5Connector} {role : Role}

theorem establish_obeys :
    self.establish.Obeys (connectorFlow role) (fun _ p => p.locked ∧ p ≠ .closed) .entered := by
  unfold MT5Connector.establish
  refine Prog.obeys_op_bind.mpr ⟨.inr rfl, fun connected => ?_, fun _ => ⟨rfl, nofun⟩⟩
  cases connected with
  | true => exact ⟨rfl, nofun⟩
  | false =>
      show Prog.Obeys _ (if !self.installed then _ else _) _ Stage.offline
      split
      next => exact ⟨rfl, nofun⟩
      next =>
        refine Prog.obeys_op_bind.mpr ⟨rfl, fun ok => ?_, fun _ => ⟨rfl, nofun⟩⟩
        cases ok with
        | false => exact ⟨rfl, nofun⟩
        | true =>
            refine Prog.obeys_op_bind.mpr ⟨rfl, fun ok => ?_, fun _ => ⟨rfl, nofun⟩⟩
            cases ok with
            | false =>
                exact Prog.obeys_op_bind.mpr
                  ⟨.inl rfl, fun _ => ⟨rfl, nofun⟩, fun _ => ⟨rfl, nofun⟩⟩
            | true =>
                refine Prog.obeys_op_bind.mpr ⟨rfl, fun _ => ?_, fun _ => ⟨rfl, nofun⟩⟩
                exact Prog.obeys_op_bind.mpr
                  ⟨rfl, fun _ => ⟨rfl, nofun⟩, fun _ => ⟨rfl, nofun⟩⟩

/-- Whatever happens, `connect` has left the lock in the end. -/
theorem connect_obeys (hrole : role ≠ .closes) :
    self.connect.Obeys (connectorFlow role) (fun _ p => p = .away) .away := by
  have hentered : (if role = .closes then Stage.closing else .entered) = .entered := if_neg hrole
  unfold MT5Connector.connect
  refine Prog.obeys_op_bind.mpr ⟨rfl, fun _ => ?_, fun _ => rfl⟩
  show Prog.Obeys _ _ _ (if role = .closes then Stage.closing else .entered)
  rw [hentered]
  refine Prog.obeys_andFinally (establish_obeys.mono fun out p hp => ?_)
  refine Prog.obeys_op.mpr ⟨hp.1, fun a => ?_⟩
  have hnext : (connectorFlow role).next p .release a = .away := Stage.next_release hp.2
  rw [hnext]
  cases a with
  | ok _ => rfl
  | error x => rfl

/-- `disconnect` leaves the lock, and does so last when it has succeeded. -/
theorem disconnect_obeys :
    self.disconnect.Obeys (connectorFlow .closes)
      (fun out p => if out.isOk then p = .released else p = .away) .away := by
  have htail : (do
      if self.installed then connector .shutdown
      connector (.setConnected false) : ConnectorM Unit).Obeys (connectorFlow .closes)
        (fun out p => if out.isOk then p = .closed else p.locked ∧ p ≠ .closed) .joined := by
    have hset : (connector (.setConnected false)).Obeys (connectorFlow .closes)
        (fun out p => if out.isOk then p = .closed else p.locked ∧ p ≠ .closed) .joined := by
      refine Prog.obeys_op.mpr ⟨.inl rfl, fun a => ?_⟩
      cases a with
      | ok _ => rfl
      | error x => exact ⟨rfl, nofun⟩
    split
    next => exact Prog.obeys_op_bind.mpr ⟨.inr rfl, fun _ => hset, fun _ => ⟨rfl, nofun⟩⟩
    next => exact hset
  have hclose : self.close.Obeys (connectorFlow .closes)
      (fun out p => if out.isOk then p = .closed else p.locked ∧ p ≠ .closed) .closing := by
    unfold MT5Connector.close
    refine Prog.obeys_op_bind.mpr ⟨rfl, fun task => ?_, fun _ => ⟨rfl, nofun⟩⟩
    cases task with
    | none => exact htail
    | some task =>
        refine Prog.obeys_op_bind.mpr ⟨rfl, fun _ => ?_, fun _ => ⟨rfl, nofun⟩⟩
        exact Prog.obeys_op_bind.mpr ⟨rfl, fun _ => htail, fun _ => ⟨rfl, nofun⟩⟩
  unfold MT5Connector.disconnect
  refine Prog.obeys_op_bind.mpr ⟨rfl, fun _ => ?_, fun _ => rfl⟩
  refine Prog.obeys_andFinally (hclose.mono fun out p hp => ?_)
  cases out with
  | ok r =>
      obtain rfl : p = .closed := hp
      refine Prog.obeys_op.mpr ⟨rfl, fun a => ?_⟩
      cases a with
      | ok _ => rfl
      | error x => rfl
  | error x =>
      obtain ⟨hlocked, hclosed⟩ : p.locked ∧ p ≠ .closed := hp
      refine Prog.obeys_op.mpr ⟨hlocked, fun a => ?_⟩
      have hnext : (connectorFlow .closes).next p .release a = .away := Stage.next_release hclosed
      rw [hnext]
      cases a with
      | ok _ => rfl
      | error x => rfl

theorem retry_obeys (hrole : role ≠ .closes) (attempts : ℕ) {delay : ℚ} :
    (self.retry attempts delay).Obeys (connectorFlow role) (fun _ p => p = .away) .away := by
  induction attempts generalizing delay with
  | zero => rfl
  | succ attempts ih =>
      rw [MT5Connector.retry]
      refine Prog.obeys_op_bind.mpr ⟨rfl, fun _ => ?_, fun _ => rfl⟩
      refine (connect_obeys hrole).seq ?_ fun _ p hp => hp
      rintro connected _ rfl
      cases connected with
      | true => rfl
      | false => exact ih

theorem beat_obeys :
    self.beat.Obeys (connectorFlow .beats) (fun _ p => p = .away) .away := by
  have hgone : (do
      connector (.setConnected false)
      let _ ← self.reconnect : ConnectorM Unit).Obeys (connectorFlow .beats)
        (fun _ p => p = .away) .gone := by
    have hretry : self.reconnect.Obeys (connectorFlow .beats) (fun _ p => p = .away) .away :=
      retry_obeys (by decide) _
    refine Prog.obeys_op_bind.mpr ⟨.inr ⟨rfl, rfl⟩, fun _ => ?_, fun _ => rfl⟩
    exact hretry.seq (fun _ p hp => hp) fun _ p hp => hp
  unfold MT5Connector.beat
  refine Prog.obeys_op_bind.mpr ⟨⟨rfl, rfl⟩, fun info => ?_, fun _ => rfl⟩
  cases info with
  | true => rfl
  | false => exact hgone

theorem heartbeat_obeys (rounds : ℕ) :
    (self.heartbeat rounds).Obeys (connectorFlow .beats) (fun _ p => p = .away) .away := by
  induction rounds with
  | zero => rfl
  | succ rounds ih =>
      rw [MT5Connector.heartbeat]
      refine Prog.obeys_op_bind.mpr ⟨.inl rfl, fun connected => ?_, fun _ => rfl⟩
      cases connected with
      | false => rfl
      | true =>
          have htry : (self.beat.tryExcept fun _ => pure ()).Obeys (connectorFlow .beats)
              (fun _ p => p = .away) .away := by
            refine Prog.obeys_tryExcept (beat_obeys.mono fun out p hp => ?_)
            cases out with
            | ok _ => exact hp
            | error thrown =>
                cases thrown with
                | cancelled => exact hp
                | exception x => exact hp
          refine htry.seq ?_ fun _ p hp => hp
          rintro _ _ rfl
          exact Prog.obeys_op_bind.mpr ⟨rfl, fun _ => ih, fun _ => rfl⟩

theorem heartbeatProg_obeys (rounds : ℕ) :
    (heartbeatProg self rounds).Obeys (connectorFlow .beats) (fun _ p => p ≠ .released) .fresh := by
  have hbody : (do
      connector .begin
      self.heartbeat rounds : ConnectorM Unit).Obeys (connectorFlow .beats)
        (fun _ p => p = .away) .fresh :=
    Prog.obeys_op_bind.mpr ⟨rfl, fun _ => heartbeat_obeys rounds, fun _ => rfl⟩
  unfold heartbeatProg
  refine Prog.obeys_andFinally (hbody.mono ?_)
  rintro out _ rfl
  refine Prog.obeys_op.mpr ⟨⟨rfl, nofun, nofun, rfl⟩, fun a => ?_⟩
  cases a with
  | ok _ => exact nofun
  | error x => exact nofun

theorem clientCall_obeys (call : ClientCall) :
    (call.prog self).Obeys (connectorFlow call.role) (fun _ p => p ≠ .released) .fresh := by
  have hopens : ∀ {p : ConnectorM Unit},
      p.Obeys (connectorFlow .opens) (fun _ p => p = .away) .away →
      (p >>= fun _ => connector .returned).Obeys (connectorFlow .opens)
        (fun _ p => p ≠ Stage.released) .away := by
    intro p hp
    refine hp.seq ?_ ?_
    · rintro _ _ rfl
      exact Prog.obeys_op.mpr ⟨.inr ⟨rfl, rfl⟩, fun _ => nofun⟩
    · rintro _ _ rfl
      exact nofun
  have hconnect : self.connect.Obeys (connectorFlow .opens) (fun _ p => p = .away) .away :=
    connect_obeys (by decide)
  have hreconnect : self.reconnect.Obeys (connectorFlow .opens) (fun _ p => p = .away) .away :=
    retry_obeys (by decide) _
  unfold ClientCall.prog
  refine Prog.obeys_op_bind.mpr ⟨rfl, fun _ => ?_, fun _ => nofun⟩
  cases call with
  | connect => exact hopens (hconnect.seq (fun _ _ hp => hp) fun _ _ hp => hp)
  | reconnect => exact hopens (hreconnect.seq (fun _ _ hp => hp) fun _ _ hp => hp)
  | disconnect =>
      refine disconnect_obeys.seq ?_ ?_
      · rintro _ _ rfl
        exact Prog.obeys_op.mpr ⟨.inl ⟨rfl, rfl⟩, fun _ => nofun⟩
      · rintro _ _ rfl
        exact nofun

end

-- ============================================================================
-- Moves
-- ============================================================================

/-- The worlds differ at most in the cancellations that are under way. -/
def ConnectorWorld.Agrees (w w' : ConnectorWorld) : Prop :=
  ∃ cancelled cancelling,
    w' = { w with tasks := { w.tasks with cancelled := cancelled, cancelling := cancelling } }

theorem ConnectorWorld.Agrees.refl (w : ConnectorWorld) : w.Agrees w := ⟨_, _, rfl⟩

/-- What an operation of a coroutine does to its stage and to the world. -/
inductive Move {κ : Type} (role : Role) (x : Actor κ) (w : ConnectorWorld) :
    Stage → (e : ConnectorOp) → Except (Thrown Exc) e.Ans → Stage → ConnectorWorld → Prop
  | stay {p : Stage} {e : ConnectorOp} {a : Except (Thrown Exc) e.Ans} {w' : ConnectorWorld} :
      p ≠ .fresh → p ≠ .released → w.Agrees w' → Move role x w p e a p w'
  | begin {e : ConnectorOp} {a : Except (Thrown Exc) e.Ans} {w' : ConnectorWorld} :
      (∀ n, x = .task n → n < w.tasks.created) → w.Agrees w' →
      Move role x w .fresh e a .away w'
  | enter {p' : Stage} {e : ConnectorOp} {a : Except (Thrown Exc) e.Ans} :
      w.locked = false → p' = .closing ∨ p' = .entered →
      Move role x w .away e a p' { w with locked := true }
  | look {e : ConnectorOp} {a : Except (Thrown Exc) e.Ans} :
      w.connected = false → Move role x w .entered e a .offline w
  | login {accountId : ℤ} {password server : String} :
      Move role x w .offline (.login accountId password server) (.ok true) .logged w
  | connect {e : ConnectorOp} {a : Except (Thrown Exc) e.Ans} :
      Move role x w .logged e a .online { w with connected := true }
  | create {e : ConnectorOp} {a : Except (Thrown Exc) e.Ans} :
      Move role x w .online e a .entered
        { w with task := some w.tasks.created, tasks := w.tasks.create }
  | record {e : ConnectorOp} {a : Except (Thrown Exc) e.Ans} :
      w.task = none → Move role x w .closing e a .joined w
  | find {e : ConnectorOp} {a : Except (Thrown Exc) e.Ans} {n : ℕ} :
      w.task = some n → Move role x w .closing e a (.found n) w
  | cancel {e : ConnectorOp} {a : Except (Thrown Exc) e.Ans} {n : ℕ} {w' : ConnectorWorld} :
      w.Agrees w' → Move role x w (.found n) e a (.stopped n) w'
  | join {e : ConnectorOp} {a : Except (Thrown Exc) e.Ans} {n : ℕ} :
      w.tasks.finished n → Move role x w (.stopped n) e a .joined w
  | disconnect {e : ConnectorOp} {a : Except (Thrown Exc) e.Ans} :
      Move role x w .joined e a .closed { w with connected := false }
  | lose : role = .beats → Move role x w .away .terminalInfo (.ok false) .gone w
  | drop {e : ConnectorOp} {a : Except (Thrown Exc) e.Ans} :
      role = .beats → Move role x w .gone e a .away { w with connected := false }
  | leave {p p' : Stage} {e : ConnectorOp} {a : Except (Thrown Exc) e.Ans} :
      p.locked → p' = .away ∨ p = .closed ∧ p' = .released →
      Move role x w p e a p' { w with locked := false }
  | return_ {p : Stage} {e : ConnectorOp} {a : Except (Thrown Exc) e.Ans} :
      p.locked = false → role ≠ .beats → Move role x w p e a .done w
  | finish {p : Stage} {e : ConnectorOp} {a : Except (Thrown Exc) e.Ans} {n : ℕ} :
      p.locked = false → p ≠ .fresh → x = .task n →
      Move role x w p e a .done { w with tasks := w.tasks.finish n }

variable {κ : Type}

/-- What the coroutine is there for. -/
def roleOf (calls : κ → ClientCall) : Actor κ → Role
  | .client i => (calls i).role
  | .task _ => .beats

theorem task_of_beats {calls : κ → ClientCall} {x : Actor κ} (hrole : roleOf calls x = .beats) :
    ∃ n, x = .task n := by
  cases x with
  | client i => cases h : calls i <;> simp [roleOf, ClientCall.role, h] at hrole
  | task n => exact ⟨n, rfl⟩

theorem agrees_cancel {w : ConnectorWorld} {n : ℕ} :
    w.Agrees { w with tasks := w.tasks.cancel n } := by
  unfold Tasks.cancel
  split
  next => exact ⟨_, _, rfl⟩
  next => exact .refl w

theorem agrees_interrupt {w : ConnectorWorld} {x : Actor κ} :
    w.Agrees { w with tasks := w.tasks.interrupt x } := by
  cases x with
  | client i => exact .refl w
  | task n => exact ⟨_, _, rfl⟩

section

variable {calls : κ → ClientCall} {x : Actor κ} {w w' : ConnectorWorld} {p : Stage}
variable {e : ConnectorOp} {a : Except (Thrown Exc) e.Ans}

/-- A heartbeat that is cancelled where it waits. -/
theorem move_of_interrupt (hmay : (connectorFlow (roleOf calls x)).may p e)
    (hsuspends : e.suspends) (hinterrupts : w.tasks.interrupts x) :
    Move (roleOf calls x) x w p e (.error .cancelled)
      (p.next (roleOf calls x) e (.error .cancelled))
      { w with tasks := w.tasks.interrupt x } := by
  cases e with
  | begin =>
      obtain rfl : p = .fresh := hmay
      refine .begin ?_ agrees_interrupt
      rintro n rfl
      exact Tasks.lt_of_interrupts hinterrupts
  | acquire =>
      obtain rfl : p = .away := hmay
      exact .stay nofun nofun agrees_interrupt
  | sleep seconds =>
      obtain rfl : p = .away := hmay
      exact .stay nofun nofun agrees_interrupt
  | gather n =>
      obtain rfl : p = .stopped n := hmay
      exact .stay nofun nofun agrees_interrupt
  | _ => cases hsuspends

theorem move_of_reply (hmay : (connectorFlow (roleOf calls x)).may p e)
    (henv : connectorReply x w e a w') :
    Move (roleOf calls x) x w p e a (p.next (roleOf calls x) e a) w' := by
  cases e with
  | begin =>
      obtain rfl : p = .fresh := hmay
      obtain ⟨hcreated, rfl, rfl⟩ := henv
      exact .begin hcreated (.refl _)
  | returned =>
      obtain ⟨rfl, rfl⟩ := henv
      rcases hmay with ⟨rfl, hrole⟩ | ⟨rfl, hrole⟩
      · exact .return_ rfl (by rw [hrole]; decide)
      · exact .return_ rfl (by rw [hrole]; decide)
  | finish =>
      obtain ⟨hlocked, hfresh, -, hrole⟩ := hmay
      obtain ⟨rfl, rfl⟩ := henv
      obtain ⟨n, rfl⟩ := task_of_beats hrole
      exact .finish hlocked hfresh rfl
  | acquire =>
      obtain rfl : p = .away := hmay
      obtain ⟨hlocked, rfl, rfl⟩ := henv
      refine .enter hlocked ?_
      show (if _ then _ else _) = _ ∨ (if _ then _ else _) = _
      split
      next => exact .inl rfl
      next => exact .inr rfl
  | release =>
      obtain ⟨rfl, rfl⟩ := henv
      refine .leave hmay ?_
      cases p with
      | closed => exact .inr ⟨rfl, rfl⟩
      | _ => exact .inl rfl
  | isConnected =>
      obtain ⟨ha, rfl⟩ := henv
      rw [ha]
      cases hconnected : w'.connected with
      | true =>
          rcases hmay with rfl | rfl
          · exact .stay nofun nofun (.refl _)
          · exact .stay nofun nofun (.refl _)
      | false =>
          rcases hmay with rfl | rfl
          · exact .stay nofun nofun (.refl _)
          · exact .look hconnected
  | setConnected connected =>
      obtain ⟨rfl, rfl⟩ := henv
      cases connected with
      | true =>
          obtain rfl : p = .logged := hmay
          exact .connect
      | false =>
          rcases hmay with rfl | ⟨rfl, hrole⟩
          · exact .disconnect
          · exact .drop hrole
  | initializeMt5 path timeout =>
      obtain rfl : p = .offline := hmay
      obtain ⟨-, rfl⟩ := henv
      exact .stay nofun nofun (.refl _)
  | login accountId password server =>
      obtain rfl : p = .offline := hmay
      obtain ⟨⟨ok, rfl⟩ | ⟨x, rfl⟩, rfl⟩ := henv
      · cases ok with
        | true => exact .login
        | false => exact .stay nofun nofun (.refl _)
      · exact .stay nofun nofun (.refl _)
  | shutdown =>
      obtain ⟨-, rfl⟩ := henv
      rcases hmay with rfl | rfl
      · exact .stay nofun nofun (.refl _)
      · exact .stay nofun nofun (.refl _)
  | terminalInfo =>
      obtain ⟨rfl, hrole⟩ := hmay
      obtain ⟨⟨ok, rfl⟩ | ⟨x, rfl⟩, rfl⟩ := henv
      · cases ok with
        | true => exact .stay nofun nofun (.refl _)
        | false => exact .lose hrole
      · exact .stay nofun nofun (.refl _)
  | sleep seconds =>
      obtain rfl : p = .away := hmay
      obtain ⟨rfl, rfl⟩ := henv
      exact .stay nofun nofun (.refl _)
  | createHeartbeat =>
      obtain rfl : p = .online := hmay
      obtain ⟨rfl, rfl⟩ := henv
      exact .create
  | heartbeatTask =>
      obtain rfl : p = .closing := hmay
      obtain ⟨rfl, rfl⟩ := henv
      cases htask : w'.task with
      | none => exact .record htask
      | some n => exact .find htask
  | cancel n =>
      obtain rfl : p = .found n := hmay
      obtain ⟨rfl, rfl⟩ := henv
      exact .cancel agrees_cancel
  | gather n =>
      obtain rfl : p = .stopped n := hmay
      obtain ⟨hfinished, rfl, rfl⟩ := henv
      exact .join hfinished

theorem move_of_may (hmay : (connectorFlow (roleOf calls x)).may p e)
    (henv : connectorEnv x w e a w') :
    Move (roleOf calls x) x w p e a (p.next (roleOf calls x) e a) w' := by
  unfold connectorEnv at henv
  split at henv
  next hinterrupted =>
    obtain ⟨rfl, rfl⟩ := henv
    obtain ⟨hsuspends, hinterrupts⟩ := Bool.and_eq_true_iff.mp hinterrupted
    exact move_of_interrupt hmay hsuspends hinterrupts
  next => exact move_of_reply hmay henv

end

end Mtrader.Connectors
